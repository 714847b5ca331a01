/-
Module: Waspp.Proofs.PoolExclusivity
Layer: Proofs
Purpose: What every order of steps by any number of clients keeps of a pool: no connection is in two
  places, the idle and the held connections that came from the pool fit into it, connections made beside it
  stay beside it, and the time that a connection carries is the time of its last release.  From the latter
  it follows how every connection that a get hands out is known to be usable, as long as the timeout is a
  number: nothing is ever older than a nan.
Imports: Waspp.Model.Checkout, Mathlib.Data.List.Perm.Basic
Trusted boundary: none (fully proved)
Main exports: System.conns, Moved, step_moved, Sound, reachable_sound, step_usable, Exclusive,
  HandsOutUsable, pool_exclusive_and_fresh_iff, nan_pool_hands_out_dead
Open obligations: none
-/
import Waspp.Model.Checkout
import Mathlib.Data.List.Perm.Basic

namespace Waspp.Checkout

/-- The connections that clients have. -/
def System.held (s : System) : List Conn := s.clients.filterMap fun client => client.phase.conn

/-- The connections in the pool and those that clients have. -/
def System.conns (s : System) : List Conn := s.idle ++ s.held

/-- The number of connections in the pool and of those from the pool that clients have. -/
def System.slots (s : System) : Nat := (s.conns.filter (·.pooled)).length

/-! ### What a step can do

One constructor for each way a step can go, with the state that it leaves.  All invariants of the pool are
derived from it, and no proof unfolds `step` again. -/

/-- The transitions of a pool with its clients. -/
inductive Transition (pool : Pool) (s : System) : Action → System → Prop where
  | enters : Transition pool s .enter
      { s with clients := s.clients ++ [⟨s.nextClient, .entered⟩], nextClient := s.nextClient + 1 }
  | ticks (now : Int) : Transition pool s (.tick now) { s with now := now }
  | findsNone {i : Nat} (at_ : s.phaseAt i = some .entered) : Transition pool s (.lock i) (s.move i .empty)
  | takes {i : Nat} {conn : Conn} {rest : List Conn} (at_ : s.phaseAt i = some .entered)
      (idle : s.idle = rest ++ [conn]) :
        Transition pool s (.lock i) ({ s with idle := rest }.move i (.popped conn))
  | makesExtra {i : Nat} (at_ : s.phaseAt i = some .empty) :
      Transition pool s (.connect i true) ((s.withMade false).move i (.holds (s.made false)))
  | failsExtra {i : Nat} (at_ : s.phaseAt i = some .empty) : Transition pool s (.connect i false) (s.leave i)
  | keeps {i : Nat} {alive succeeds : Bool} {conn : Conn} (at_ : s.phaseAt i = some (.popped conn))
      (usable : pool.expired s.now conn = true → alive = true) :
      Transition pool s (.check i alive succeeds) (s.move i (.holds conn))
  | replaces {i : Nat} {conn : Conn} (at_ : s.phaseAt i = some (.popped conn))
      (expired : pool.expired s.now conn = true) :
      Transition pool s (.check i false true) ((s.withMade true).move i (.holds (s.made true)))
  | loses {i : Nat} {conn : Conn} (at_ : s.phaseAt i = some (.popped conn))
      (expired : pool.expired s.now conn = true) : Transition pool s (.check i false false) (s.leave i)
  | discards {i : Nat} {conn : Conn} (at_ : s.phaseAt i = some (.holds conn))
      (beside : conn.pooled = false) :
      Transition pool s (.release i) (s.leave i)
  | notes {i : Nat} {conn : Conn} (at_ : s.phaseAt i = some (.holds conn)) (pooled : conn.pooled = true) :
      Transition pool s (.release i)
        ({ s with lastUsed := Function.update s.lastUsed conn.id s.now }.move i
          (.releasing { conn with released := s.now }))
  | returns {i : Nat} {conn : Conn} (at_ : s.phaseAt i = some (.releasing conn)) :
      Transition pool s (.push i) ({ s with idle := s.idle ++ [conn] }.leave i)

/-- A step is one of the transitions. -/
theorem step_transition {pool : Pool} {s s' : System} {a : Action} (stepped : step pool s a = some s') :
    Transition pool s a s' := by
  cases a with
  | enter =>
      cases stepped
      exact .enters
  | tick now =>
      cases stepped
      exact .ticks now
  | lock i =>
      simp only [step] at stepped
      split at stepped
      · rename_i at_
        split at stepped
        · cases stepped
          exact .findsNone at_
        · rename_i conn last
          cases stepped
          exact .takes at_ (List.dropLast_append_getLast? conn last).symm
      · cases stepped
  | connect i succeeds =>
      simp only [step] at stepped
      split at stepped
      · rename_i at_
        cases succeeds with
        | true =>
            cases stepped
            exact .makesExtra at_
        | false =>
            cases stepped
            exact .failsExtra at_
      · cases stepped
  | check i alive succeeds =>
      simp only [step] at stepped
      split at stepped
      · rename_i conn at_
        split at stepped
        · rename_i dead
          simp only [Bool.and_eq_true, Bool.not_eq_true'] at dead
          rcases dead with ⟨expired, rfl⟩
          cases succeeds with
          | true =>
              cases stepped
              exact .replaces at_ expired
          | false =>
              cases stepped
              exact .loses at_ expired
        · rename_i kept
          cases stepped
          apply Transition.keeps at_
          intro expired
          simpa [expired] using kept
      · cases stepped
  | release i =>
      simp only [step] at stepped
      split at stepped
      · rename_i conn at_
        split at stepped
        · rename_i beside
          cases stepped
          exact .discards at_ (by simpa using beside)
        · rename_i pooled
          cases stepped
          exact .notes at_ (by simpa using pooled)
      · cases stepped
  | push i =>
      simp only [step] at stepped
      split at stepped
      · rename_i conn at_
        cases stepped
        exact .returns at_
      · cases stepped

/-! ### One client moves

The connections that clients hold are those of the client that moves and those of the others. -/

/-- The client at a position beside the others. -/
theorem clients_split {s : System} {i : Nat} {phase : Phase} (at_ : s.phaseAt i = some phase) :
    ∃ client : Client, client.phase = phase ∧ s.clients.Perm (client :: s.clients.eraseIdx i) ∧
      ∀ next, (s.move i next).clients.Perm ({ client with phase := next } :: s.clients.eraseIdx i) := by
  rcases Option.map_eq_some_iff.mp at_ with ⟨client, here, rfl⟩
  rcases List.getElem?_eq_some_iff.mp here with ⟨inside, elem⟩
  refine ⟨client, rfl, ?_, fun next => ?_⟩
  · rw [← elem]
    exact (List.getElem_cons_eraseIdx_perm inside).symm
  · have set : (s.move i next).clients = s.clients.set i { client with phase := next } := by
      apply List.ext_getElem?
      intro j
      rw [System.move, List.getElem?_modify, List.getElem?_set]
      by_cases same : i = j
      · subst same
        simp [elem, inside]
      · simp [same]
    rw [set]
    exact List.set_perm_cons_eraseIdx inside _

/-- What clients hold does not depend on their order. -/
theorem held_perm {clients clients' : List Client} (perm : clients.Perm clients') :
    (clients.filterMap fun client => client.phase.conn).Perm
    (clients'.filterMap fun client => client.phase.conn) :=
  perm.filterMap _

/-- The connections of a client that moves on or leaves, beside those of the others. -/
theorem held_split {s : System} {i : Nat} {phase : Phase} (at_ : s.phaseAt i = some phase) :
    s.held.Perm (phase.conn.toList ++ (s.leave i).held) ∧
      ∀ next, (s.move i next).held.Perm (next.conn.toList ++ (s.leave i).held) := by
  rcases clients_split at_ with ⟨client, rfl, whole, moved⟩
  constructor
  · apply (held_perm whole).trans
    cases conn : client.phase.conn <;> simp [conn, System.held, System.leave]
  · intro next
    apply (held_perm (moved next)).trans
    cases conn : next.conn <;> simp [conn, System.held, System.leave]

/-! ### What a step does to the connections

Seen from the connections a step does one of five things: it leaves them, adds an extra one, replaces one,
drops one, or notes that one was used. -/

/-- The step is the end of a get that throws: the connection it took has expired and is not live, and no
    other can be made. -/
def FailsCheckout (pool : Pool) (s : System) (a : Action) : Prop :=
  ∃ i conn, a = .check i false false ∧ s.phaseAt i = some (.popped conn) ∧ pool.expired s.now conn = true

/-- A step leaves the connections as they are, makes one, beside the pool or in place of one from it, drops
    one, or notes the time of a release. -/
inductive Moved (pool : Pool) (s : System) (a : Action) (s' : System) : Prop where
  | same (conns : s'.conns.Perm s.conns) (nextConn : s'.nextConn = s.nextConn)
      (lastUsed : s'.lastUsed = s.lastUsed) (overflow : s'.overflow = s.overflow)
  | extra (conns : s'.conns.Perm (s.made false :: s.conns)) (nextConn : s'.nextConn = s.nextConn + 1)
      (lastUsed : s'.lastUsed = (s.withMade false).lastUsed)
      (overflow : s'.overflow = s.nextConn :: s.overflow)
  | replaced {old : Conn} {rest : List Conn} (pooled : old.pooled = true)
      (before : s.conns.Perm (old :: rest))
      (after : s'.conns.Perm (s.made true :: rest)) (nextConn : s'.nextConn = s.nextConn + 1)
      (lastUsed : s'.lastUsed = (s.withMade true).lastUsed) (overflow : s'.overflow = s.overflow)
  | dropped {old : Conn} (why : old.pooled = false ∨ FailsCheckout pool s a)
      (before : s.conns.Perm (old :: s'.conns)) (nextConn : s'.nextConn = s.nextConn)
      (lastUsed : s'.lastUsed = s.lastUsed) (overflow : s'.overflow = s.overflow)
  | noted {conn : Conn} {rest : List Conn} (pooled : conn.pooled = true)
      (before : s.conns.Perm (conn :: rest))
      (after : s'.conns.Perm ({ conn with released := s.now } :: rest)) (nextConn : s'.nextConn = s.nextConn)
      (lastUsed : s'.lastUsed = Function.update s.lastUsed conn.id s.now)
      (overflow : s'.overflow = s.overflow)

/-- Where a client has a connection from the pool, the connection says so. -/
def Phase.FromPool : Phase → Prop
  | .popped conn => conn.pooled = true
  | .releasing conn => conn.pooled = true
  | _ => True

/-- The connections in the pool, and those under way from and to it, say that they are from the pool. -/
structure FromPool (s : System) : Prop where
  idle : ∀ conn ∈ s.idle, conn.pooled = true
  clients : ∀ client ∈ s.clients, client.phase.FromPool

/-- A connection that came from the pool is known as such by its client. -/
theorem FromPool.at {s : System} (from_ : FromPool s) {i : Nat} {phase : Phase}
    (at_ : s.phaseAt i = some phase) :
    phase.FromPool := by
  rcases Option.map_eq_some_iff.mp at_ with ⟨client, here, rfl⟩
  exact from_.clients client (List.mem_of_getElem? here)

/-- A client that moves is in its new phase, the others stay. -/
theorem mem_move {s : System} {i : Nat} {phase : Phase} {client : Client}
    (member : client ∈ (s.move i phase).clients) :
    client ∈ s.clients ∨ client.phase = phase := by
  rcases List.mem_iff_getElem?.mp member with ⟨j, here⟩
  simp only [System.move, List.getElem?_modify] at here
  rcases Option.map_eq_some_iff.mp here with ⟨old, there, same⟩
  by_cases at_ : i = j
  · rw [if_pos at_] at same
    exact Or.inr (same ▸ rfl)
  · rw [if_neg at_] at same
    exact Or.inl (same ▸ List.mem_of_getElem? there)

/-- A client that leaves takes none of the others along. -/
theorem mem_leave {s : System} {i : Nat} {client : Client} (member : client ∈ (s.leave i).clients) :
    client ∈ s.clients :=
  List.mem_of_mem_eraseIdx member

/-- What a step does to the connections. -/
theorem step_moved {pool : Pool} {s s' : System} {a : Action} (from_ : FromPool s)
    (stepped : step pool s a = some s') :
    Moved pool s a s' := by
  -- the connections of the pool with those of the client that moves in front of the others' connections
  have before {i : Nat} {phase : Phase} (at_ : s.phaseAt i = some phase) :
      s.conns.Perm (phase.conn.toList ++ (s.idle ++ (s.leave i).held)) :=
    ((held_split at_).1.append_left s.idle).trans (List.perm_append_comm_assoc _ _ _)
  have after {i : Nat} {phase : Phase} (at_ : s.phaseAt i = some phase) (next : Phase) :
      (s.idle ++ (s.move i next).held).Perm (next.conn.toList ++ (s.idle ++ (s.leave i).held)) :=
    (((held_split at_).2 next).append_left s.idle).trans (List.perm_append_comm_assoc _ _ _)
  cases step_transition stepped with
  | enters => exact .same (by simp [System.conns, System.held, Phase.conn]) rfl rfl rfl
  | ticks now => exact .same (.refl _) rfl rfl rfl
  | findsNone at_ => exact .same ((after at_ .empty).trans (before at_).symm) rfl rfl rfl
  | @takes i conn rest at_ idle =>
      refine .same ?_ rfl rfl rfl
      have taken := ((held_split at_).2 (.popped conn)).append_left rest
      have whole := (held_split at_).1.append_left s.idle
      rw [← List.append_assoc] at taken
      rw [show (Phase.popped conn).conn.toList = [conn] from rfl, ← idle] at taken
      exact taken.trans whole.symm
  | makesExtra at_ =>
      exact .extra ((after at_ (.holds (s.made false))).trans ((before at_).symm.cons _)) rfl rfl rfl
  | failsExtra at_ => exact .same (before at_).symm rfl rfl rfl
  | @keeps i alive succeeds conn at_ usable =>
      exact .same ((after at_ (.holds conn)).trans (before at_).symm) rfl rfl rfl
  | replaces at_ expired =>
      exact .replaced (from_.at at_) (before at_) (after at_ (.holds (s.made true))) rfl rfl rfl
  | @loses i conn at_ expired =>
      exact .dropped (Or.inr ⟨i, conn, rfl, at_, expired⟩) (before at_) rfl rfl rfl
  | discards at_ beside => exact .dropped (Or.inl beside) (before at_) rfl rfl rfl
  | @notes i conn at_ pooled =>
      exact .noted pooled (before at_) (after at_ (.releasing { conn with released := s.now })) rfl rfl rfl
  | @returns i conn at_ =>
      refine .same ?_ rfl rfl rfl
      have whole := (held_split at_).1.append_left s.idle
      rw [← List.append_assoc] at whole
      exact whole.symm

/-- Clients keep knowing where their connections came from. -/
theorem FromPool.step {pool : Pool} {s s' : System} {a : Action} (from_ : FromPool s)
    (stepped : step pool s a = some s') : FromPool s' := by
  have moving {t : System} (clients : t.clients = s.clients) {i : Nat} {phase : Phase}
      (fine : phase.FromPool) :
      ∀ client ∈ (t.move i phase).clients, client.phase.FromPool := by
    intro client member
    rcases mem_move member with old | new
    · exact from_.clients client (clients ▸ old)
    · exact new ▸ fine
  have leaving {t : System} (clients : t.clients = s.clients) {i : Nat} :
      ∀ client ∈ (t.leave i).clients, client.phase.FromPool :=
    fun client member => from_.clients client (clients ▸ mem_leave member)
  cases step_transition stepped with
  | enters =>
      refine ⟨from_.idle, ?_⟩
      intro client member
      rcases List.mem_append.mp member with old | new
      · exact from_.clients client old
      · rw [List.mem_singleton.mp new]
        trivial
  | ticks now => exact ⟨from_.idle, from_.clients⟩
  | findsNone at_ => exact ⟨from_.idle, moving rfl trivial⟩
  | @takes i conn rest at_ idle =>
      have pooled : ∀ c ∈ rest ++ [conn], c.pooled = true := idle ▸ from_.idle
      exact ⟨fun c member => pooled c (List.mem_append_left _ member), moving rfl (pooled conn (by simp))⟩
  | makesExtra at_ => exact ⟨from_.idle, moving rfl trivial⟩
  | failsExtra at_ => exact ⟨from_.idle, leaving rfl⟩
  | keeps at_ usable => exact ⟨from_.idle, moving rfl trivial⟩
  | replaces at_ expired => exact ⟨from_.idle, moving rfl trivial⟩
  | loses at_ expired => exact ⟨from_.idle, leaving rfl⟩
  | discards at_ beside => exact ⟨from_.idle, leaving rfl⟩
  | notes at_ pooled => exact ⟨from_.idle, moving rfl pooled⟩
  | @returns i conn at_ =>
      refine ⟨?_, leaving rfl⟩
      intro c member
      rcases List.mem_append.mp member with old | new
      · exact from_.idle c old
      · rw [List.mem_singleton.mp new]
        exact from_.at at_

/-! ### The invariant

Every connection has a number of its own, extra ones are told by their numbers, each carries the time of its
last release, and the pool's are no more than its size. -/

/-- Connections that are all in one place, with the records kept of them. -/
structure Kept (size nextConn : Nat) (lastUsed : Nat → Int) (overflow : List Nat) (conns : List Conn) :
    Prop where
  distinct : (conns.map (·.id)).Nodup
  known : ∀ conn ∈ conns, conn.id < nextConn
  knownOverflow : ∀ id ∈ overflow, id < nextConn
  flagged : ∀ conn ∈ conns, conn.pooled = false ↔ conn.id ∈ overflow
  stamped : ∀ conn ∈ conns, conn.released = lastUsed conn.id
  fits : (conns.filter (·.pooled)).length ≤ size

section Records

variable {size nextConn : Nat} {lastUsed : Nat → Int} {overflow : List Nat} {conns conns' rest : List Conn}
  {old : Conn}

/-- The invariant does not look at the order. -/
theorem Kept.perm (kept : Kept size nextConn lastUsed overflow conns) (perm : conns'.Perm conns) :
    Kept size nextConn lastUsed overflow conns' where
  distinct := ((perm.map _).nodup_iff).mpr kept.distinct
  known conn member := kept.known conn (perm.subset member)
  knownOverflow := kept.knownOverflow
  flagged conn member := kept.flagged conn (perm.subset member)
  stamped conn member := kept.stamped conn (perm.subset member)
  fits := by
    rw [(perm.filter _).length_eq]
    exact kept.fits

/-- It holds of what is left of the connections. -/
theorem Kept.tail (kept : Kept size nextConn lastUsed overflow (old :: rest)) :
    Kept size nextConn lastUsed overflow rest where
  distinct := (List.nodup_cons.mp kept.distinct).2
  known conn member := kept.known conn (List.mem_cons_of_mem _ member)
  knownOverflow := kept.knownOverflow
  flagged conn member := kept.flagged conn (List.mem_cons_of_mem _ member)
  stamped conn member := kept.stamped conn (List.mem_cons_of_mem _ member)
  fits := by
    have sub := (List.sublist_cons_self old rest).filter (·.pooled)
    exact Nat.le_trans sub.length_le kept.fits

/-- A connection that is made. -/
theorem Kept.made (kept : Kept size nextConn lastUsed overflow conns) (now : Int) (pooled : Bool)
    (room : pooled = true → (conns.filter (·.pooled)).length + 1 ≤ size) :
    Kept size (nextConn + 1) (Function.update lastUsed nextConn now)
      (if pooled then overflow else nextConn :: overflow) (⟨nextConn, now, pooled⟩ :: conns) where
  distinct := by
    rw [List.map_cons, List.nodup_cons]
    refine ⟨?_, kept.distinct⟩
    intro member
    rcases List.mem_map.mp member with ⟨conn, inConns, same⟩
    exact Nat.lt_irrefl _ (same ▸ kept.known conn inConns)
  known conn member := by
    rcases List.mem_cons.mp member with rfl | old
    · exact Nat.lt_succ_self _
    · exact Nat.lt_succ_of_lt (kept.known conn old)
  knownOverflow id member := by
    cases pooled with
    | true => exact Nat.lt_succ_of_lt (kept.knownOverflow id member)
    | false =>
        rcases List.mem_cons.mp member with rfl | old
        · exact Nat.lt_succ_self _
        · exact Nat.lt_succ_of_lt (kept.knownOverflow id old)
  flagged conn member := by
    have new : nextConn ∉ overflow := fun inside => Nat.lt_irrefl _ (kept.knownOverflow nextConn inside)
    rcases List.mem_cons.mp member with rfl | old
    · cases pooled <;> simp [new]
    · have distinct : conn.id ≠ nextConn := Nat.ne_of_lt (kept.known conn old)
      cases pooled <;> simp [kept.flagged conn old, distinct]
  stamped conn member := by
    rcases List.mem_cons.mp member with rfl | old
    · simp
    · have distinct : conn.id ≠ nextConn := Nat.ne_of_lt (kept.known conn old)
      rw [Function.update_of_ne distinct]
      exact kept.stamped conn old
  fits := by
    cases pooled with
    | true => simpa using room rfl
    | false => simpa using kept.fits

/-- A release that notes the time. -/
theorem Kept.noted (kept : Kept size nextConn lastUsed overflow (old :: rest)) {now : Int} :
    Kept size nextConn (Function.update lastUsed old.id now) overflow
      ({ old with released := now } :: rest) where
  distinct := kept.distinct
  known conn member := by
    rcases List.mem_cons.mp member with rfl | later
    · exact kept.known old (List.mem_cons_self ..)
    · exact kept.known conn (List.mem_cons_of_mem _ later)
  knownOverflow := kept.knownOverflow
  flagged conn member := by
    rcases List.mem_cons.mp member with rfl | later
    · exact kept.flagged old (List.mem_cons_self ..)
    · exact kept.flagged conn (List.mem_cons_of_mem _ later)
  stamped conn member := by
    rcases List.mem_cons.mp member with rfl | later
    · simp
    · have distinct : conn.id ≠ old.id := by
        intro same
        have again : old.id ∈ rest.map (·.id) := same ▸ List.mem_map_of_mem later
        exact (List.nodup_cons.mp kept.distinct).1 again
      rw [Function.update_of_ne distinct]
      exact kept.stamped conn (List.mem_cons_of_mem _ later)
  fits := by
    have fits := kept.fits
    cases pooled : old.pooled <;> simpa [pooled] using fits

end Records

/-- The invariant of a pool with its clients. -/
structure Sound (pool : Pool) (s : System) : Prop where
  kept : Kept pool.poolSize s.nextConn s.lastUsed s.overflow s.conns
  fromPool : FromPool s

/-- Every step keeps the invariant. -/
theorem Sound.step {pool : Pool} {s s' : System} {a : Action} (sound : Sound pool s)
    (stepped : step pool s a = some s') : Sound pool s' := by
  refine ⟨?_, sound.fromPool.step stepped⟩
  have kept := sound.kept
  cases step_moved sound.fromPool stepped with
  | same conns nextConn lastUsed overflow =>
      rw [nextConn, lastUsed, overflow]
      exact kept.perm conns
  | extra conns nextConn lastUsed overflow =>
      have made := kept.made s.now false (fun isTrue => by cases isTrue)
      rw [nextConn, lastUsed, overflow]
      exact made.perm conns
  | @replaced old rest pooled before after nextConn lastUsed overflow =>
      have beside := kept.perm before.symm
      have room : (rest.filter (·.pooled)).length + 1 ≤ pool.poolSize := by
        have fits := beside.fits
        rwa [List.filter_cons_of_pos pooled, List.length_cons] at fits
      have made := beside.tail.made s.now true (fun _ => room)
      rw [nextConn, lastUsed, overflow]
      exact made.perm after
  | dropped why before nextConn lastUsed overflow =>
      rw [nextConn, lastUsed, overflow]
      exact (kept.perm before.symm).tail
  | noted pooled before after nextConn lastUsed overflow =>
      rw [nextConn, lastUsed, overflow]
      exact (kept.perm before.symm).noted.perm after

/-! ### A filled pool -/

/-- The idle connections of a pool that was just filled. -/
structure Filled (size : Nat) (idle : List Conn) : Prop where
  length : idle.length = size
  numbered : ∀ (i : Nat) (conn : Conn), idle[i]? = some conn → conn.id = i ∧ conn.pooled = true

/-- Each round of filling adds one connection. -/
theorem fillFrom_filled {dial : Dial} {rounds : Nat} {pool idle : List Conn}
    (before : Filled pool.length pool)
    (filled : fillFrom dial rounds pool = some idle) : Filled (pool.length + rounds) idle := by
  induction rounds generalizing pool with
  | zero =>
      cases filled
      exact before
  | succ rounds ih =>
      rw [fillFrom] at filled
      split at filled
      · rename_i made _
        have next : Filled (pool ++ [(⟨pool.length, made, true⟩ : Conn)]).length
            (pool ++ [(⟨pool.length, made, true⟩ : Conn)]) := by
          refine ⟨rfl, ?_⟩
          intro i conn here
          rcases Nat.lt_trichotomy i pool.length with old | rfl | beyond
          · rw [List.getElem?_append_left old] at here
            exact before.numbered i conn here
          · simp only [List.getElem?_concat_length, Option.some.injEq] at here
            subst here
            exact ⟨rfl, rfl⟩
          · rw [List.getElem?_eq_none (by simp; omega)] at here
            cases here
        have all := ih next filled
        rwa [List.length_append, List.length_singleton, Nat.add_assoc, Nat.add_comm 1] at all
      · cases filled

/-- A pool that was filled has its size. -/
theorem fillPool_filled {pool : Pool} {dial : Dial} {idle : List Conn}
    (filled : fillPool pool dial = some idle) :
    Filled pool.poolSize idle := by
  unfold fillPool at filled
  split at filled
  · cases filled
  · have empty : Filled (List.length ([] : List Conn)) [] := by
      constructor
      · rfl
      · simp
    have all := fillFrom_filled empty filled
    rwa [List.length_nil, Nat.zero_add] at all

/-- A filled pool is sound. -/
theorem Filled.sound {pool : Pool} {idle : List Conn} (filled : Filled pool.poolSize idle) (now : Int) :
    Sound pool (.start idle now) := by
  have conns : (System.start idle now).conns = idle := by
    simp [System.conns, System.held, System.start]
  have at_ {conn : Conn} (member : conn ∈ idle) : ∃ i, idle[i]? = some conn ∧ conn.id = i ∧
      conn.pooled = true := by
    rcases List.mem_iff_getElem?.mp member with ⟨i, here⟩
    exact ⟨i, here, filled.numbered i conn here⟩
  have ids : idle.map (·.id) = List.range idle.length := by
    apply List.ext_getElem?
    intro i
    rcases Nat.lt_or_ge i idle.length with inside | beyond
    · have here := List.getElem?_eq_getElem inside
      rw [List.getElem?_map, here, List.getElem?_range inside, Option.map_some, (filled.numbered i _ here).1]
    · rw [List.getElem?_map, List.getElem?_eq_none beyond, List.getElem?_eq_none (by simpa using beyond)]
      rfl
  refine ⟨?_, ?_, by simp [System.start]⟩
  · rw [conns]
    constructor
    · rw [ids]
      exact List.nodup_range
    · intro conn member
      rcases at_ member with ⟨i, here, rfl, -⟩
      exact (List.getElem?_eq_some_iff.mp here).1
    · simp [System.start]
    · intro conn member
      rcases at_ member with ⟨i, here, -, pooled⟩
      simp [System.start, pooled]
    · intro conn member
      rcases at_ member with ⟨i, here, same, -⟩
      rw [same]
      simp [System.start, here]
    · rw [← filled.length]
      exact List.length_filter_le _ _
  · intro conn member
    rcases at_ member with ⟨i, -, -, pooled⟩
    exact pooled

/-- The invariant holds of everything that is reached. -/
theorem reachable_sound {pool : Pool} {s : System} (reached : Reachable pool s) : Sound pool s := by
  induction reached with
  | start filled now => exact (fillPool_filled filled).sound now
  | step _ stepped ih => exact ih.step stepped

/-- What is run from a reachable state is reachable. -/
theorem Reachable.run {pool : Pool} {actions : List Action} {s last : System} (reached : Reachable pool s)
    (ran : actions.foldlM (Checkout.step pool) s = some last) : Reachable pool last := by
  induction actions generalizing s with
  | nil =>
      cases ran
      exact reached
  | cons a rest ih =>
      rcases Option.bind_eq_some_iff.mp ran with ⟨mid, stepped, later⟩
      exact ih (reached.step stepped) later

/-! ### Exclusivity and freshness

The invariant gives the exclusivity for every timeout.  The freshness rests on the comparison with the
timeout: get asks a connection only when it finds the comparison true, which it never is with nan. -/

/-- How a connection that a step hands out is known to be usable: the step made it, or the step asked and it
    was live, or it was last released, or made if it never was, less than the timeout ago. -/
inductive Usable (pool : Pool) (s : System) (a : Action) (conn : Conn) : Prop where
  | made (new : conn.id = s.nextConn)
  | alive {i : Nat} {succeeds : Bool} (asked : a = .check i true succeeds)
      (taken : s.phaseAt i = some (.popped conn)) (expired : pool.expired s.now conn = true)
  | recent (late : Double.difftime s.now (s.lastUsed conn.id) < pool.timeoutSec)

/-- A connection that a client holds is one of the connections. -/
theorem mem_conns_of_phase {s : System} {i : Nat} {phase : Phase} {conn : Conn}
    (at_ : s.phaseAt i = some phase) (has : phase.conn = some conn) : conn ∈ s.conns := by
  apply List.mem_append_right
  apply (held_split at_).1.symm.subset
  simp [has]

/-- With a timeout that is a number, what a step hands out is usable. -/
theorem step_usable {pool : Pool} {s s' : System} {a : Action} (number : pool.timeoutSec ≠ .nan)
    (sound : Sound pool s)
    (stepped : step pool s a = some s') {client : Client} (member : client ∈ s'.clients) {conn : Conn}
    (holds : client.phase = .holds conn) : client ∈ s.clients ∨ Usable pool s a conn := by
  have handed {t : System} {i : Nat} {next : Phase} (clients : t.clients = s.clients)
      (member : client ∈ (t.move i next).clients) (usable : next = .holds conn → Usable pool s a conn) :
      client ∈ s.clients ∨ Usable pool s a conn := by
    rcases mem_move member with old | new
    · exact Or.inl (clients ▸ old)
    · exact Or.inr (usable (new.symm.trans holds))
  cases step_transition stepped with
  | enters =>
      rcases List.mem_append.mp member with old | new
      · exact Or.inl old
      · rw [List.mem_singleton.mp new] at holds
        cases holds
  | ticks now => exact Or.inl member
  | findsNone at_ => exact handed rfl member (fun same => by cases same)
  | takes at_ idle => exact handed rfl member (fun same => by cases same)
  | makesExtra at_ =>
      apply handed rfl member
      intro same
      cases same
      exact .made rfl
  | failsExtra at_ => exact Or.inl (mem_leave member)
  | @keeps i alive succeeds taken at_ usable =>
      apply handed rfl member
      intro same
      cases same
      cases expired : pool.expired s.now conn with
      | true =>
          have live := usable expired
          subst live
          exact .alive rfl at_ expired
      | false =>
          have stamp := sound.kept.stamped conn (mem_conns_of_phase at_ rfl)
          apply Usable.recent
          rw [← stamp]
          exact (Double.not_le number (Double.ofInt_ne_nan _)).mp (of_decide_eq_false expired)
  | replaces at_ expired =>
      apply handed rfl member
      intro same
      cases same
      exact .made rfl
  | loses at_ expired => exact Or.inl (mem_leave member)
  | discards at_ beside => exact Or.inl (mem_leave member)
  | notes at_ pooled => exact handed rfl member (fun same => by cases same)
  | returns at_ => exact Or.inl (mem_leave member)

/-- No connection is with two clients, in the pool and with a client or in the pool twice; the idle
    connections and those from the pool that clients have fit into the pool; no connection that was made
    because the pool was empty is in it. -/
structure Exclusive (pool : Pool) (s : System) : Prop where
  distinct : (s.conns.map (·.id)).Nodup
  fits : s.idle.length + (s.held.filter (·.pooled)).length ≤ pool.poolSize
  beside : ∀ conn ∈ s.idle, conn.id ∉ s.overflow

/-- Every connection that the next step hands out to a client is usable. -/
def HandsOutUsable (pool : Pool) (s : System) : Prop :=
  ∀ a s', step pool s a = some s' → ∀ client ∈ s'.clients, ∀ conn, client.phase = .holds conn →
    client ∈ s.clients ∨ Usable pool s a conn

/-- In a sound state no connection is in two hands. -/
theorem Sound.exclusive {pool : Pool} {s : System} (sound : Sound pool s) : Exclusive pool s := by
  refine ⟨sound.kept.distinct, ?_, ?_⟩
  · have fits := sound.kept.fits
    have idle : s.idle.filter (·.pooled) = s.idle := List.filter_eq_self.mpr sound.fromPool.idle
    rwa [System.conns, List.filter_append, List.length_append, idle] at fits
  · intro conn member overflow
    have pooled := sound.fromPool.idle conn member
    rw [(sound.kept.flagged conn (List.mem_append_left _ member)).mpr overflow] at pooled
    cases pooled

/-- Nothing has expired for a pool whose timeout is nan. -/
theorem not_expired_of_nan {pool : Pool} (nan : pool.timeoutSec = .nan) (now : Int) (conn : Conn) :
    pool.expired now conn = false := by
  apply decide_eq_false
  rw [nan, ge_iff_le, Double.le_iff]
  simp [Double.real]

/-- With the timeout nan a get hands out the connection that it took, however old and whether it is live or
    not. -/
theorem nan_hands_out {pool : Pool} {s : System} {i : Nat} {conn : Conn} (nan : pool.timeoutSec = .nan)
    (sound : Sound pool s) (at_ : s.phaseAt i = some (.popped conn)) (alive succeeds : Bool) :
    step pool s (.check i alive succeeds) = some (s.move i (.holds conn)) ∧
      ¬ Usable pool s (.check i false succeeds) conn := by
  constructor
  · simp [step, at_, not_expired_of_nan nan]
  · intro usable
    cases usable with
    | made new =>
        have known := sound.kept.known conn (mem_conns_of_phase at_ rfl)
        omega
    | alive asked => cases asked
    | recent late =>
        rw [nan] at late
        rcases late with ⟨_, _, _, none, _⟩
        cases none

/-- A pool with room for a connection can be filled. -/
theorem exists_filled {pool : Pool} (room : 0 < pool.poolSize) :
    ∃ rest conn, fillPool pool (fun _ => some (0, true)) = some (rest ++ [conn]) := by
  have fills : ∀ rounds idle, ∃ more, fillFrom (fun _ => some (0, true)) rounds idle = some (idle ++ more) ∧
      more.length = rounds := by
    intro rounds
    induction rounds with
    | zero => exact fun idle => ⟨[], by simp [fillFrom], rfl⟩
    | succ rounds ih =>
        intro idle
        rcases ih (idle ++ [⟨idle.length, 0, true⟩]) with ⟨more, filled, length⟩
        exact ⟨⟨idle.length, 0, true⟩ :: more, by simp [fillFrom, filled], by simp [length]⟩
  rcases fills pool.poolSize [] with ⟨idle, filled, length⟩
  have nonempty : idle ≠ [] := by
    rintro rfl
    simp at length
    omega
  refine ⟨idle.dropLast, idle.getLast nonempty, ?_⟩
  rw [List.dropLast_append_getLast, fillPool, if_neg (by omega), filled, List.nil_append]

/-- Whatever clients do with a pool that was filled, its connections stay apart; and all that is handed out
    is usable, in whatever state, exactly when the timeout is a number. -/
theorem pool_exclusive_and_fresh_iff {pool : Pool} (room : 0 < pool.poolSize) :
    (∀ s, Reachable pool s → Exclusive pool s) ∧
      ((∀ s, Reachable pool s → Exclusive pool s ∧ HandsOutUsable pool s) ↔ pool.timeoutSec ≠ .nan) := by
  refine ⟨fun s reached => (reachable_sound reached).exclusive, ?_, ?_⟩
  · intro all nan
    rcases exists_filled room with ⟨rest, conn, filled⟩
    have ran : [Action.enter, .lock 0].foldlM (step pool) (.start (rest ++ [conn]) 0) =
        some ((System.mk rest [⟨0, .entered⟩] 0 (rest ++ [conn]).length 1
          (System.start (rest ++ [conn]) 0).lastUsed
          []).move 0 (.popped conn)) := by
      simp [step, System.start, System.phaseAt]
    have reached := (Reachable.start filled 0).run ran
    rcases @nan_hands_out pool _ 0 conn nan (reachable_sound reached) rfl false false with ⟨stepped, stale⟩
    rcases (all _ reached).2 _ _ stepped ⟨0, .holds conn⟩ (by simp [System.move]) conn rfl with old | usable
    · simp [System.move] at old
    · exact stale usable
  · intro number s reached
    have sound := reachable_sound reached
    exact ⟨sound.exclusive, fun a s' stepped client member conn holds =>
      step_usable number sound stepped member holds⟩

/-- Two clients get from a pool of one connection: the first takes it, the second finds the pool empty and
    makes one. -/
def twoGets : List Action := [.enter, .enter, .lock 0, .lock 1, .connect 1 true, .tick 11]

/-- Where that has brought them after eleven seconds: the first client has not yet looked at its connection.
    -/
def afterTwoGets : System where
  idle := []
  clients := [⟨0, .popped ⟨0, 0, true⟩⟩, ⟨1, .holds ⟨1, 0, false⟩⟩]
  now := 11
  nextConn := 2
  nextClient := 2
  lastUsed := Function.update (System.start [⟨0, 0, true⟩] 0).lastUsed 1 0
  overflow := [1]

/-- The connections of the two clients are apart, and the one that is handed out next was asked. -/
theorem pool_exclusive_and_fresh_iff_two_gets :
    twoGets.foldlM (step ⟨1, 10⟩) (.start [⟨0, 0, true⟩] 0) = some afterTwoGets ∧
      Exclusive ⟨1, 10⟩ afterTwoGets ∧
      step ⟨1, 10⟩ afterTwoGets (.check 0 true false) = some (afterTwoGets.move 0 (.holds ⟨0, 0, true⟩)) ∧
      Usable ⟨1, 10⟩ afterTwoGets (.check 0 true false) ⟨0, 0, true⟩ := by
  have filled : fillPool ⟨1, 10⟩ (fun _ => some (0, true)) = some [⟨0, 0, true⟩] := rfl
  have ran : twoGets.foldlM (step ⟨1, 10⟩) (.start [⟨0, 0, true⟩] 0) = some afterTwoGets := rfl
  have stepped : step ⟨1, 10⟩ afterTwoGets (.check 0 true false) =
      some (afterTwoGets.move 0 (.holds ⟨0, 0, true⟩)) := by
    simp [step, show afterTwoGets.phaseAt 0 = some (.popped ⟨0, 0, true⟩) from rfl]
  have all := (@pool_exclusive_and_fresh_iff ⟨1, 10⟩ (by decide)).2.mpr (Double.ofInt_ne_nan 10) afterTwoGets
    ((Reachable.start filled 0).run ran)
  refine ⟨ran, all.1, stepped, ?_⟩
  rcases all.2 _ _ stepped ⟨0, .holds ⟨0, 0, true⟩⟩ (by decide) ⟨0, 0, true⟩ rfl with old | usable
  · exact absurd old (by decide)
  · exact usable

/-- The pool of one connection with the timeout nan, after a get has taken the connection thirty years after
    its making. -/
def takenLate : System where
  idle := []
  clients := [⟨0, .popped ⟨0, 0, true⟩⟩]
  now := 946080000
  nextConn := 1
  nextClient := 1
  lastUsed := (System.start [⟨0, 0, true⟩] 0).lastUsed

/-- The get then returns it without asking, although it is dead, and it is not usable. -/
theorem nan_pool_hands_out_dead :
    fillPool ⟨1, .nan⟩ (fun _ => some (0, true)) = some [⟨0, 0, true⟩] ∧
      [Action.tick 946080000, .enter, .lock 0].foldlM (step ⟨1, .nan⟩) (.start [⟨0, 0, true⟩] 0) =
        some takenLate ∧
      step ⟨1, .nan⟩ takenLate (.check 0 false false) = some (takenLate.move 0 (.holds ⟨0, 0, true⟩)) ∧
      ⟨0, .holds ⟨0, 0, true⟩⟩ ∉ takenLate.clients ∧
      ¬ Usable ⟨1, .nan⟩ takenLate (.check 0 false false) ⟨0, 0, true⟩ := by
  have filled : fillPool ⟨1, .nan⟩ (fun _ => some (0, true)) = some [⟨0, 0, true⟩] := rfl
  have ran : [Action.tick 946080000, .enter, .lock 0].foldlM (step ⟨1, .nan⟩) (.start [⟨0, 0, true⟩] 0) =
    some takenLate := rfl
  have sound := reachable_sound ((Reachable.start filled 0).run ran)
  rcases @nan_hands_out ⟨1, .nan⟩ takenLate 0 ⟨0, 0, true⟩ rfl sound rfl false false with ⟨stepped, stale⟩
  exact ⟨filled, ran, stepped, by decide, stale⟩

end Waspp.Checkout
