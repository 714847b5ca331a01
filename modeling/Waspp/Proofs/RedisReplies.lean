/-
Module: Waspp.Proofs.RedisReplies
Layer: Proofs
Purpose: Whose replies a checkout of a redis connection reads.  The replies outstanding on a connection that
  a checkout has are a rest of those it took over, followed by its own: so it reads its own exactly when it
  took over none. A release leaves the outstanding replies on the connection, as a checkout that was left
  early shows.
Imports: Waspp.Model.Redis3m, Waspp.Proofs.PoolExclusivity, Mathlib.Data.List.Nodup,
  Mathlib.Data.List.Pairwise
Trusted boundary: none (fully proved)
Main exports: Numbered, Came, step_came, Own, Tracked, reads_own_iff
Open obligations: none
-/
import Waspp.Model.Redis3m
import Waspp.Proofs.PoolExclusivity
import Mathlib.Data.List.Nodup
import Mathlib.Data.List.Pairwise

namespace Waspp.Checkout

/-- The client has called get, and its get has not returned. -/
def Phase.Waiting : Phase → Prop
  | .entered => True
  | .empty => True
  | .popped _ => True
  | .holds _ => False
  | .releasing _ => False

/-- Clients are numbered as they come. -/
structure Numbered (s : System) : Prop where
  distinct : (s.clients.map (·.number)).Nodup
  known : ∀ client ∈ s.clients, client.number < s.nextClient

/-- A number tells a client. -/
theorem Numbered.same {s : System} (numbered : Numbered s) {client other : Client}
    (member : client ∈ s.clients)
    (there : other ∈ s.clients) (same : client.number = other.number) : client = other :=
  List.inj_on_of_nodup_map numbered.distinct member there same

/-- A client that moves keeps its number. -/
theorem map_number_move (s : System) (i : Nat) (phase : Phase) :
    (s.move i phase).clients.map (·.number) = s.clients.map (·.number) := by
  apply List.ext_getElem?
  intro j
  simp only [System.move, List.getElem?_map, List.getElem?_modify]
  cases s.clients[j]? with
  | none => rfl
  | some client =>
      simp only [Option.map_eq_map, Option.map_some]
      split <;> rfl

/-- Where a client that is there after a step was before it. -/
inductive Came (s : System) (client : Client) : Prop where
  | stayed (before : client ∈ s.clients)
  | entered (new : client = ⟨s.nextClient, .entered⟩)
  | moved {old : Client} (before : old ∈ s.clients) (same : old.number = client.number)
      (waited : old.phase.Waiting)
  | released {conn : Conn} (phase : client.phase = .releasing conn) (before : client.number < s.nextClient)

/-- A client that is there after a move was there before, or has moved. -/
theorem came_of_move {s t : System} (numbered : Numbered s) (clients : t.clients = s.clients) {i : Nat}
    {phase next : Phase} (at_ : s.phaseAt i = some phase)
    (fine : phase.Waiting ∨ ∃ conn, next = .releasing conn) {client : Client}
    (member : client ∈ (t.move i next).clients) :
    Came s client := by
  rcases List.mem_iff_getElem?.mp member with ⟨j, here⟩
  simp only [System.move, List.getElem?_modify, clients] at here
  rcases Option.map_eq_some_iff.mp here with ⟨old, there, same⟩
  have before := List.mem_of_getElem? there
  by_cases this : i = j
  · rw [if_pos this] at same
    have phaseOld : old.phase = phase := by
      simpa [System.phaseAt, this, there] using at_
    rcases fine with waited | ⟨conn, releases⟩
    · exact .moved before (same ▸ rfl) (phaseOld ▸ waited)
    · subst releases same
      exact .released rfl (numbered.known old before)
  · rw [if_neg this] at same
    exact .stayed (same ▸ before)

/-- Where the clients after a step came from. -/
theorem step_came {pool : Pool} {s s' : System} {a : Action} (numbered : Numbered s)
    (stepped : step pool s a = some s') {client : Client} (member : client ∈ s'.clients) :
    Came s client := by
  cases step_transition stepped with
  | enters =>
      rcases List.mem_append.mp member with old | new
      · exact .stayed old
      · exact .entered (List.mem_singleton.mp new)
  | ticks now => exact .stayed member
  | findsNone at_ => exact came_of_move numbered rfl at_ (Or.inl trivial) member
  | takes at_ idle => exact came_of_move numbered rfl at_ (Or.inl trivial) member
  | makesExtra at_ => exact came_of_move numbered rfl at_ (Or.inl trivial) member
  | failsExtra at_ => exact .stayed (mem_leave member)
  | keeps at_ usable => exact came_of_move numbered rfl at_ (Or.inl trivial) member
  | replaces at_ expired => exact came_of_move numbered rfl at_ (Or.inl trivial) member
  | loses at_ expired => exact .stayed (mem_leave member)
  | discards at_ beside => exact .stayed (mem_leave member)
  | notes at_ pooled => exact came_of_move numbered rfl at_ (Or.inr ⟨_, rfl⟩) member
  | returns at_ => exact .stayed (mem_leave member)

/-- Moving a client keeps the numbers. -/
theorem Numbered.move {s : System} (numbered : Numbered s) (i : Nat) (phase : Phase) :
    Numbered (s.move i phase) := by
  have numbers := map_number_move s i phase
  constructor
  · rw [numbers]
    exact numbered.distinct
  · intro client member
    have inside : client.number ∈ s.clients.map (·.number) := numbers ▸ List.mem_map_of_mem member
    rcases List.mem_map.mp inside with ⟨old, before, same⟩
    exact same ▸ numbered.known old before

theorem Numbered.leave {s : System} (numbered : Numbered s) (i : Nat) : Numbered (s.leave i) where
  distinct := ((List.eraseIdx_sublist s.clients i).map (·.number)).nodup numbered.distinct
  known client member := numbered.known client (mem_leave member)

theorem Numbered.step {pool : Pool} {s s' : System} {a : Action} (numbered : Numbered s)
    (stepped : step pool s a = some s') : Numbered s' := by
  cases step_transition stepped with
  | enters =>
      constructor
      · rw [List.map_append, List.nodup_append]
        refine ⟨numbered.distinct, List.nodup_singleton _, ?_⟩
        intro number member other new same
        rcases List.mem_map.mp member with ⟨client, before, rfl⟩
        rw [List.map_singleton, List.mem_singleton] at new
        exact Nat.ne_of_lt (numbered.known client before) (same.trans new)
      · intro client member
        rcases List.mem_append.mp member with old | new
        · exact Nat.lt_succ_of_lt (numbered.known client old)
        · rw [List.mem_singleton.mp new]
          exact Nat.lt_succ_self _
  | ticks now => exact ⟨numbered.distinct, numbered.known⟩
  | findsNone at_ => exact numbered.move _ _
  | takes at_ idle =>
      apply Numbered.move
      exact ⟨numbered.distinct, numbered.known⟩
  | makesExtra at_ =>
      apply Numbered.move
      exact ⟨numbered.distinct, numbered.known⟩
  | failsExtra at_ => exact numbered.leave _
  | keeps at_ usable => exact numbered.move _ _
  | replaces at_ expired =>
      apply Numbered.move
      exact ⟨numbered.distinct, numbered.known⟩
  | loses at_ expired => exact numbered.leave _
  | discards at_ beside => exact numbered.leave _
  | notes at_ pooled =>
      apply Numbered.move
      exact ⟨numbered.distinct, numbered.known⟩
  | returns at_ =>
      apply Numbered.leave
      exact ⟨numbered.distinct, numbered.known⟩

/-- Numbers that were given are not given again. -/
theorem step_nextClient {pool : Pool} {s s' : System} {a : Action} (stepped : step pool s a = some s') :
    s.nextClient ≤ s'.nextClient ∧ s.nextConn ≤ s'.nextConn := by
  cases step_transition stepped <;>
    simp only [System.move, System.leave, System.withMade, Nat.le_refl, Nat.le_succ, and_self]

/-- Two clients have two connections. -/
theorem Sound.apart {pool : Pool} {s : System} (sound : Sound pool s) {client other : Client}
    (member : client ∈ s.clients) (there : other ∈ s.clients) (differ : client ≠ other) {conn conn' : Conn}
    (has : client.phase.conn = some conn) (has' : other.phase.conn = some conn') : conn.id ≠ conn'.id := by
  have held : (s.held.map (·.id)).Nodup := by
    have distinct := sound.kept.distinct
    rw [System.conns, List.map_append] at distinct
    exact List.Nodup.of_append_right distinct
  have apart : s.clients.Pairwise fun a b => ∀ x, a.phase.conn = some x → ∀ y, b.phase.conn = some y →
      x.id ≠ y.id := by
    rw [List.Nodup, List.pairwise_map] at held
    exact List.pairwise_filterMap.mp held
  have symmetric : Std.Symm fun a b : Client => ∀ x, a.phase.conn = some x → ∀ y, b.phase.conn = some y →
      x.id ≠ y.id :=
    ⟨fun a b apart x hasX y hasY same => apart y hasY x hasX same.symm⟩
  exact apart.forall member there differ conn has conn' has'

/-- A connection that a client holds has a number that was given. -/
theorem Sound.known {pool : Pool} {s : System} (sound : Sound pool s) {client : Client}
    (member : client ∈ s.clients)
    {conn : Conn} (has : client.phase.conn = some conn) : conn.id < s.nextConn :=
  sound.kept.known conn (List.mem_append_right _ (List.mem_filterMap.mpr ⟨client, member, has⟩))

end Waspp.Checkout

namespace Waspp.Redis3m

open Waspp.Checkout

/-- Of the replies outstanding on the connection that a checkout has, those it took over come first, and then
    its own. -/
structure Own (number : Nat) (takenOver outstanding : List Nat) (mixed : Prop) : Prop where
  split : ∃ foreign own : List Nat, outstanding = foreign ++ own ∧ (∀ client ∈ own, client = number) ∧
    number ∉ foreign ∧ foreign <:+ takenOver ∧ (foreign = takenOver ∨ mixed)

/-- A checkout has read a reply that is not its own. -/
def Redis.Mixed (r : Redis) : Prop := ∃ e ∈ r.reads, e.answered ≠ e.reader

/-- What is known of the outstanding replies. -/
structure Tracked (pool : Pool) (r : Redis) : Prop where
  sound : Sound pool r.system
  numbered : Numbered r.system
  /-- On a connection that is not made yet, nothing is outstanding. -/
  fresh : ∀ id, r.system.nextConn ≤ id → (r.conns id).outstanding = []
  /-- Outstanding replies are those of clients that came. -/
  asked : ∀ id, ∀ number ∈ (r.conns id).outstanding, number < r.system.nextClient
  /-- A client whose get has not returned has asked nothing. -/
  waiting : ∀ client ∈ r.system.clients, client.phase.Waiting →
    ∀ id, client.number ∉ (r.conns id).outstanding
  holding : ∀ client ∈ r.system.clients, ∀ conn, client.phase = .holds conn →
    Own client.number (r.takenOver client.number) (r.conns conn.id).outstanding r.Mixed
  clean : ∀ e ∈ r.reads, e.takenOver = [] → e.answered = e.reader
  dirty : (∃ e ∈ r.reads, e.takenOver ≠ []) → r.Mixed

/-! ### Gets and releases

What a step of the pool does to the record of who took a connection over with replies outstanding. -/

/-- What is noted of a client that holds a connection. -/
theorem note_of_mem {r : Redis} {system : System} (numbered : Numbered system) {client : Client}
    (member : client ∈ system.clients) {conn : Conn} (holds : client.phase = .holds conn) :
    r.note system client.number =
      if client ∈ r.system.clients then r.takenOver client.number else (r.conns conn.id).outstanding := by
  rcases client with ⟨number, phase⟩
  simp only at holds
  subst holds
  have found : (system.clients.find? fun client => client.number = number) = some ⟨number, .holds conn⟩ := by
    cases search : system.clients.find? fun client => client.number = number with
    | none =>
        have none := List.find?_eq_none.mp search _ member
        simp at none
    | some other =>
        have same : other.number = number := by simpa using List.find?_some search
        rw [numbered.same (List.mem_of_find?_eq_some search) member same]
  rw [Redis.note, found]

/-- A step of the pool keeps the record. -/
theorem Tracked.pool {pool : Pool} {r : Redis} {a : Action} {system : System} (tracked : Tracked pool r)
    (stepped : step pool r.system a = some system) :
    Tracked pool { r with system := system, takenOver := r.note system } := by
  have later := step_nextClient stepped
  have numbered := tracked.numbered.step stepped
  refine ⟨tracked.sound.step stepped, numbered, ?_, ?_, ?_, ?_, tracked.clean, tracked.dirty⟩
  · intro id beyond
    exact tracked.fresh id (Nat.le_trans later.2 beyond)
  · intro id number member
    exact Nat.lt_of_lt_of_le (tracked.asked id number member) later.1
  · intro client member waits
    cases step_came tracked.numbered stepped member with
    | stayed before => exact tracked.waiting client before waits
    | entered new =>
        intro id asked
        exact Nat.lt_irrefl _ (new ▸ tracked.asked id client.number asked)
    | moved before same waited => exact same ▸ tracked.waiting _ before waited
    | released phase before =>
        rw [phase] at waits
        cases waits
  · intro client member conn holds
    have noted := note_of_mem (r := r) numbered member holds
    by_cases stayed : client ∈ r.system.clients
    · rw [if_pos stayed] at noted
      have held := tracked.holding client stayed conn holds
      rw [← noted] at held
      exact held
    · -- the get has just returned
      have none : client.number ∉ (r.conns conn.id).outstanding := by
        cases step_came tracked.numbered stepped member with
        | stayed before => exact absurd before stayed
        | entered new =>
            rw [new] at holds
            cases holds
        | moved before same waited => exact same ▸ tracked.waiting _ before waited conn.id
        | released phase before =>
            rw [phase] at holds
            cases holds
      rw [if_neg stayed] at noted
      refine ⟨(r.conns conn.id).outstanding, [], by simp, by simp, none, ?_, ?_⟩
      · exact noted ▸ List.suffix_refl _
      · exact Or.inl noted.symm

/-! ### Commands and replies

Of each connection it is known whose replies are outstanding, and which of them were there when its client
got it. -/

/-- What a client reads may be mixed for another reason. -/
theorem Own.imp {number : Nat} {takenOver outstanding : List Nat} {mixed mixed' : Prop}
    (own : Own number takenOver outstanding mixed) (imp : mixed → mixed') :
    Own number takenOver outstanding mixed' := by
  rcases own.split with ⟨foreign, mine, split, all, none, rest, taken⟩
  exact ⟨foreign, mine, split, all, none, rest, taken.imp_right imp⟩

/-- A command of the client's own is put behind the others. -/
theorem Own.append {number : Nat} {takenOver outstanding : List Nat} {mixed : Prop}
    (own : Own number takenOver outstanding mixed) :
    Own number takenOver (outstanding ++ [number]) mixed := by
  rcases own.split with ⟨foreign, mine, split, all, none, rest, taken⟩
  refine ⟨foreign, mine ++ [number], ?_, ?_, none, rest, taken⟩
  · rw [split, List.append_assoc]
  · intro client member
    rcases List.mem_append.mp member with old | new
    · exact all client old
    · exact List.mem_singleton.mp new

/-- What a checkout reads: its own reply once those that it took over are read. -/
theorem Own.read {number answered : Nat} {takenOver rest : List Nat} {mixed mixed' : Prop}
    (own : Own number takenOver (answered :: rest) mixed) (imp : mixed → mixed')
    (mix : answered ≠ number → mixed') :
    Own number takenOver rest mixed' ∧ (takenOver = [] → answered = number) ∧ (takenOver ≠ [] → mixed') := by
  rcases own.split with ⟨foreign, mine, split, all, none, suffix, taken⟩
  cases foreign with
  | nil =>
      have first : answered = number := all answered (by simp [← show answered :: rest = mine from split])
      have later : ∀ client ∈ rest, client = number :=
        fun client member => all client (by simp [← show answered :: rest = mine from split, member])
      refine ⟨⟨[], rest, rfl, later, none, suffix, taken.imp_right imp⟩, fun _ => first, ?_⟩
      intro some
      rcases taken with same | mixed
      · exact absurd same.symm some
      · exact imp mixed
  | cons head foreign =>
      rcases List.cons.inj (show answered :: rest = head :: (foreign ++ mine) from split) with
        ⟨rfl, restSplit⟩
      have other : answered ≠ number := fun same => none (same ▸ List.mem_cons_self ..)
      refine ⟨⟨foreign, mine, restSplit, all, ?_, ?_, Or.inr (mix other)⟩, ?_, fun _ => mix other⟩
      · exact fun member => none (List.mem_cons_of_mem _ member)
      · exact (List.suffix_cons answered foreign).trans suffix
      · intro empty
        rw [empty, List.suffix_nil] at suffix
        cases suffix

/-- What was mixed stays so. -/
theorem Redis.Mixed.append {r : Redis} {conns : Nat → Connection} {new : List Read} (mixed : r.Mixed) :
    ({ r with conns := conns, reads := r.reads ++ new } : Redis).Mixed := by
  rcases mixed with ⟨e, member, differ⟩
  exact ⟨e, List.mem_append_left _ member, differ⟩

/-- A checkout changes the connection that it has, and reads some replies. -/
theorem Tracked.change {pool : Pool} {r r' : Redis} (tracked : Tracked pool r) {client : Client}
    (member : client ∈ r.system.clients) {conn : Conn} (holds : client.phase = .holds conn)
    {left : Connection} (new : List Read)
    (after : r' = { r with conns := Function.update r.conns conn.id left, reads := r.reads ++ new })
    (asks : ∀ number ∈ left.outstanding, number ∈ (r.conns conn.id).outstanding ∨ number = client.number)
    (own : Own client.number (r.takenOver client.number) left.outstanding r'.Mixed)
    (clean : ∀ e ∈ new, e.takenOver = [] → e.answered = e.reader)
    (dirty : ∀ e ∈ new, e.takenOver ≠ [] → r'.Mixed) :
    Tracked pool r' := by
  subst after
  have has : client.phase.conn = some conn := by rw [holds]; rfl
  refine ⟨tracked.sound, tracked.numbered, ?_, ?_, ?_, ?_, ?_, ?_⟩
  · intro id beyond
    have distinct : id ≠ conn.id := fun same =>
      Nat.lt_irrefl _ (Nat.lt_of_lt_of_le (tracked.sound.known member has) (same ▸ beyond))
    simp only [Function.update_of_ne distinct]
    exact tracked.fresh id beyond
  · intro id number asked
    by_cases this : id = conn.id
    · subst this
      simp only [Function.update_self] at asked
      rcases asks number asked with old | mine
      · exact tracked.asked _ number old
      · exact mine ▸ tracked.numbered.known client member
    · simp only [Function.update_of_ne this] at asked
      exact tracked.asked id number asked
  · intro other there waits id asked
    by_cases this : id = conn.id
    · subst this
      simp only [Function.update_self] at asked
      rcases asks _ asked with old | mine
      · exact tracked.waiting other there waits _ old
      · rw [tracked.numbered.same there member mine, holds] at waits
        cases waits
    · simp only [Function.update_of_ne this] at asked
      exact tracked.waiting other there waits id asked
  · intro other there conn' holds'
    by_cases this : other = client
    · subst this
      cases holds.symm.trans holds'
      simp only [Function.update_self]
      exact own
    · have has' : other.phase.conn = some conn' := by rw [holds']; rfl
      have distinct := tracked.sound.apart there member this has' has
      simp only [Function.update_of_ne distinct]
      exact (tracked.holding other there conn' holds').imp Redis.Mixed.append
  · intro e inside
    rcases List.mem_append.mp inside with old | added
    · exact tracked.clean e old
    · exact clean e added
  · rintro ⟨e, inside, some⟩
    rcases List.mem_append.mp inside with old | added
    · exact (tracked.dirty ⟨e, old, some⟩).append
    · exact dirty e added some

/-- A call fails or reads the first of what is outstanding. -/
theorem getReply_cases {conn left : Connection} {outcome : Outcome} {answered : Option Nat}
    (read : conn.getReply outcome = some (answered, left)) :
    (answered = none ∧ left.outstanding = conn.outstanding) ∨
      ∃ client, answered = some client ∧ conn.outstanding = client :: left.outstanding := by
  unfold Connection.getReply at read
  split at read
  · cases read
    exact Or.inl ⟨rfl, rfl⟩
  · split at read
    · cases read
    · rename_i client rest outstanding
      cases read
      exact Or.inr ⟨client, rfl, outstanding⟩

/-- What a step does, by the connection and the reply that it is about. -/
inductive RedisTransition (pool : Pool) (r : Redis) : Redis → Prop where
  | pools {a : Action} {system : System} (went : step pool r.system (r.ask a) = some system) :
      RedisTransition pool r { r with system := system, takenOver := r.note system }
  | appends {number : Nat} {conn : Conn} (member : ⟨number, .holds conn⟩ ∈ r.system.clients)
      (succeeds : Bool) :
      RedisTransition pool r
        { r with conns := Function.update r.conns conn.id ((r.conns conn.id).append number succeeds) }
  | fails {number : Nat} {conn : Conn} {left : Connection}
      (member : ⟨number, .holds conn⟩ ∈ r.system.clients)
      (same : left.outstanding = (r.conns conn.id).outstanding) :
      RedisTransition pool r { r with conns := Function.update r.conns conn.id left }
  | reads {number answered : Nat} {conn : Conn} {left : Connection}
      (member : ⟨number, .holds conn⟩ ∈ r.system.clients)
      (outstanding : (r.conns conn.id).outstanding = answered :: left.outstanding) :
      RedisTransition pool r
        { r with
          conns := Function.update r.conns conn.id left
          reads := r.reads ++ [⟨number, answered, r.takenOver number⟩] }

/-- What a step can do. -/
theorem redisStep_transition {pool : Pool} {r r' : Redis} {a : RedisAction}
    (stepped : redisStep pool r a = some r') :
    RedisTransition pool r r' := by
  cases a with
  | pool a =>
      rcases Option.map_eq_some_iff.mp stepped with ⟨system, went, rfl⟩
      exact .pools went
  | append i succeeds =>
      simp only [redisStep] at stepped
      split at stepped
      · rename_i number conn at_
        cases stepped
        exact .appends (List.mem_of_getElem? at_) succeeds
      · cases stepped
  | getReply i outcome =>
      simp only [redisStep] at stepped
      split at stepped
      · rename_i number conn at_
        have member := List.mem_of_getElem? at_
        split at stepped
        · cases stepped
        · rename_i left read
          cases stepped
          rcases getReply_cases read with ⟨-, same⟩ | ⟨client, other, -⟩
          · exact .fails member same
          · cases other
        · rename_i answered left read
          cases stepped
          rcases getReply_cases read with ⟨other, -⟩ | ⟨client, same, outstanding⟩
          · cases other
          · cases same
            exact .reads member outstanding
      · cases stepped

/-- A checkout reads the next reply of its connection. -/
theorem Tracked.reads {pool : Pool} {r : Redis} (tracked : Tracked pool r) {number answered : Nat}
    {conn : Conn} {left : Connection} (member : ⟨number, .holds conn⟩ ∈ r.system.clients)
    (outstanding : (r.conns conn.id).outstanding = answered :: left.outstanding) :
    Tracked pool
      { r with
        conns := Function.update r.conns conn.id left
        reads := r.reads ++ [⟨number, answered, r.takenOver number⟩] } := by
  have own := tracked.holding _ member conn rfl
  rw [outstanding] at own
  have still : r.Mixed → Redis.Mixed
      { r with
        conns := Function.update r.conns conn.id left
        reads := r.reads ++ [⟨number, answered, r.takenOver number⟩] } :=
    Redis.Mixed.append
  have reading := own.read still (fun differ => ⟨⟨number, answered, r.takenOver number⟩, by simp, differ⟩)
  apply tracked.change member rfl [⟨number, answered, r.takenOver number⟩] rfl
  · exact fun number' asked => Or.inl (outstanding ▸ List.mem_cons_of_mem _ asked)
  · exact reading.1
  · intro e inside
    rw [List.mem_singleton.mp inside]
    exact reading.2.1
  · intro e inside
    rw [List.mem_singleton.mp inside]
    exact reading.2.2

/-- Every step keeps the record. -/
theorem Tracked.step {pool : Pool} {r r' : Redis} {a : RedisAction} (tracked : Tracked pool r)
    (stepped : redisStep pool r a = some r') : Tracked pool r' := by
  cases redisStep_transition stepped with
  | pools went => exact tracked.pool went
  | @appends number conn member succeeds =>
      have own := tracked.holding _ member conn rfl
      apply tracked.change member rfl [] (by rw [List.append_nil])
      · intro number' asked
        cases succeeds with
        | true => simpa [Connection.append] using asked
        | false => exact Or.inl asked
      · cases succeeds with
        | true => exact own.append
        | false => exact own
      · simp
      · simp
  | @fails number conn left member same =>
      have own := tracked.holding _ member conn rfl
      apply tracked.change member rfl [] (by rw [List.append_nil])
      · exact fun number' asked => Or.inl (same ▸ asked)
      · exact same ▸ own
      · simp
      · simp
  | reads member outstanding => exact tracked.reads member outstanding

/-- The record holds of every reachable state. -/
theorem reachable_tracked {pool : Pool} {r : Redis} (reached : RedisReachable pool r) : Tracked pool r := by
  induction reached with
  | @start dial idle filled now =>
      refine ⟨(fillPool_filled filled).sound now, ⟨by simp [System.start], by simp [System.start]⟩, ?_, ?_,
        ?_, ?_, ?_, ?_⟩
      all_goals simp [System.start]
  | step _ stepped ih => exact ih.step stepped

/-- What is run from a reachable state is reachable. -/
theorem RedisReachable.run {pool : Pool} {actions : List RedisAction} {r last : Redis}
    (reached : RedisReachable pool r)
    (ran : actions.foldlM (redisStep pool) r = some last) : RedisReachable pool last := by
  induction actions generalizing r with
  | nil =>
      cases ran
      exact reached
  | cons a rest ih =>
      rcases Option.bind_eq_some_iff.mp ran with ⟨mid, stepped, later⟩
      exact ih (reached.step stepped) later

/-- A client that asks twice and is thrown out by its first reply, and the next one with the same connection.
    -/
def leftEarly : List RedisAction :=
  [.pool .enter, .pool (.lock 0), .pool (.check 0 true true), .append 0 true, .append 0 true] ++
    RedisAction.getReplies 0 [.readOnly] ++
    [.pool (.release 0), .pool (.push 0), .pool .enter, .pool (.lock 0), .pool (.check 0 true true)] ++
    RedisAction.run 0 .answered

/-- Every reply that a checkout read answers a command that it appended, exactly when no checkout that read a
    reply got its connection with replies outstanding. -/
theorem reads_own_iff {pool : Pool} {r : Redis} (reached : RedisReachable pool r) :
    (∀ e ∈ r.reads, e.answered = e.reader) ↔ ∀ e ∈ r.reads, e.takenOver = [] := by
  have tracked := reachable_tracked reached
  constructor
  · intro own e member
    by_contra some
    rcases tracked.dirty ⟨e, member, some⟩ with ⟨mixed, there, differ⟩
    exact differ (own mixed there)
  · intro none e member
    exact tracked.clean e member (none e member)

/-- The run goes through. -/
theorem leftEarly_run :
    ∃ r, leftEarly.foldlM (redisStep ⟨1, 10⟩) { system := .start [⟨0, 0, true⟩] 0 } = some r ∧
      r.reads = [⟨0, 0, []⟩, ⟨1, 0, [0]⟩] := by
  have ends : (leftEarly.foldlM (redisStep ⟨1, 10⟩) { system := .start [⟨0, 0, true⟩] 0 }).map (·.reads) =
      some [⟨0, 0, []⟩, ⟨1, 0, [0]⟩] := by
    decide +kernel
  exact Option.map_eq_some_iff.mp ends

/-- Its end is reachable, and the second client has read a reply of the first. -/
theorem leftEarly_reached :
    ∃ r, RedisReachable ⟨1, 10⟩ r ∧ r.reads = [⟨0, 0, []⟩, ⟨1, 0, [0]⟩] := by
  have filled : Checkout.fillPool ⟨1, 10⟩ (fun _ => some (0, true)) = some [⟨0, 0, true⟩] := rfl
  rcases leftEarly_run with ⟨r, ran, reads⟩
  exact ⟨r, (RedisReachable.start filled 0).run ran, reads⟩

/-- The client that left early read its own reply, and the next one did not. -/
theorem reads_own_iff_left_early :
    ∃ r, RedisReachable ⟨1, 10⟩ r ∧ ¬ ∀ e ∈ r.reads, e.answered = e.reader := by
  rcases leftEarly_reached with ⟨r, reached, reads⟩
  refine ⟨r, reached, ?_⟩
  intro own
  have none := (reads_own_iff reached).mp own ⟨1, 0, [0]⟩ (by simp [reads])
  cases none

/-- The second client reads the reply to the second command of the first. -/
theorem reply_crosses_checkouts :
    ¬ ∀ (pool : Pool) (r : Redis), RedisReachable pool r → ∀ e ∈ r.reads, e.answered = e.reader := by
  intro own
  rcases leftEarly_reached with ⟨r, reached, reads⟩
  have same := own ⟨1, 10⟩ r reached ⟨1, 0, [0]⟩ (by simp [reads])
  cases same

end Waspp.Redis3m
