/-
Module: Waspp.Proofs.PoolSize
Layer: Proofs
Purpose: How many connections a pool has.  A get that finds its connection dead deletes it before it makes
  another; when that throws, the pool has one connection less for good.  Over any run, the connections in
  the pool and those from it that clients hold number `pool_size` at all times exactly when no get fails
  so.
Imports: Waspp.Proofs.PoolExclusivity
Trusted boundary: none (fully proved)
Main exports: step_slots, visited, run_slots, pool_keeps_size_iff
Open obligations: none
-/
import Waspp.Proofs.PoolExclusivity

namespace Waspp.Checkout

/-- A connection counts if it is the pool's. -/
theorem slots_cons {conns rest : List Conn} {old : Conn} (perm : conns.Perm (old :: rest)) :
    (conns.filter (·.pooled)).length =
      (rest.filter (·.pooled)).length + if old.pooled = true then 1 else 0 := by
  rw [(perm.filter _).length_eq]
  by_cases pooled : old.pooled = true <;> simp [pooled]

/-- A get that fails takes a connection from the pool for good. -/
theorem failsCheckout_slots {pool : Pool} {s s' : System} {a : Action} (from_ : FromPool s)
    (fails : FailsCheckout pool s a) (stepped : step pool s a = some s') : s'.slots + 1 = s.slots := by
  rcases fails with ⟨i, conn, rfl, at_, expired⟩
  simp only [step, at_, expired, Bool.not_false, Bool.and_self, if_true, Bool.false_eq_true, if_false,
    Option.some.injEq] at stepped
  subst stepped
  have before := ((held_split at_).1.append_left s.idle).trans List.perm_middle
  have pooled : conn.pooled = true := from_.at at_
  have counted := slots_cons before
  rw [if_pos pooled] at counted
  exact counted.symm

/-- Any other step keeps the number. -/
theorem step_slots {pool : Pool} {s s' : System} {a : Action} (from_ : FromPool s)
    (stepped : step pool s a = some s') (succeeds : ¬ FailsCheckout pool s a) : s'.slots = s.slots := by
  unfold System.slots
  cases step_moved from_ stepped with
  | same conns nextConn lastUsed overflow => exact (conns.filter _).length_eq
  | extra conns nextConn lastUsed overflow =>
      have counted := slots_cons conns
      simpa [System.made] using counted
  | @replaced old rest pooled before after nextConn lastUsed overflow =>
      have one := slots_cons before
      have two := slots_cons after
      have fresh : (s.made true).pooled = true := rfl
      rw [if_pos pooled] at one
      rw [if_pos fresh] at two
      omega
  | @dropped old why before nextConn lastUsed overflow =>
      rcases why with beside | fails
      · have counted := slots_cons before
        simp only [beside, Bool.false_eq_true, if_false, Nat.add_zero] at counted
        exact counted.symm
      · exact absurd fails succeeds
  | @noted conn rest pooled before after nextConn lastUsed overflow =>
      have one := slots_cons before
      have two := slots_cons after
      rw [if_pos pooled] at one
      rw [if_pos pooled] at two
      omega

/-! ### Runs

The number of the pool's connections, idle or held, only falls, and it falls exactly where a connection is
lost. -/

/-- The systems that a run goes through, the first included. -/
def visited (pool : Pool) (s : System) : List Action → List System
  | [] => [s]
  | a :: rest =>
      match step pool s a with
      | some s' => s :: visited pool s' rest
      | none => [s]

/-- A get of the run fails. -/
def FailsSome (pool : Pool) (s : System) : List Action → Prop
  | [] => False
  | a :: rest => FailsCheckout pool s a ∨ ∃ s', step pool s a = some s' ∧ FailsSome pool s' rest

/-- Every client is between its get and its release. -/
def BetweenCalls (s : System) : Prop := ∀ client ∈ s.clients, ∃ conn, client.phase = .holds conn

/-- The connections in the pool and those from it that clients have, which never become more, are less as
    soon as a get has failed. -/
theorem run_slots {pool : Pool} {actions : List Action} {s last : System} (sound : Sound pool s)
    (ran : actions.foldlM (step pool) s = some last) :
    (¬ FailsSome pool s actions → ∀ t ∈ visited pool s actions, t.slots = s.slots) ∧
      (FailsSome pool s actions → last.slots < s.slots) ∧ last.slots ≤ s.slots ∧
      last ∈ visited pool s actions ∧ ∀ t ∈ visited pool s actions, Sound pool t := by
  induction actions generalizing s with
  | nil =>
      cases ran
      simp [visited, FailsSome, sound]
  | cons a rest ih =>
      rcases Option.bind_eq_some_iff.mp ran with ⟨mid, stepped, later⟩
      have sound' := sound.step stepped
      rcases ih sound' later with ⟨steady, shrinks, bounded, reaches, sounds⟩
      have visits : visited pool s (a :: rest) = s :: visited pool mid rest := by
        rw [visited, stepped]
      have all : ∀ t ∈ visited pool s (a :: rest), Sound pool t := by
        rw [visits]
        exact List.forall_mem_cons.mpr ⟨sound, sounds⟩
      have member : last ∈ visited pool s (a :: rest) := by
        rw [visits]
        exact List.mem_cons_of_mem _ reaches
      by_cases fails : FailsCheckout pool s a
      · have less := failsCheckout_slots sound.fromPool fails stepped
        exact ⟨fun none => absurd (Or.inl fails) none, fun _ => by omega, by omega, member, all⟩
      · have same := step_slots sound.fromPool stepped fails
        refine ⟨?_, ?_, by omega, member, all⟩
        · intro none
          have quiet : ¬ FailsSome pool mid rest := fun some_ => none (Or.inr ⟨mid, stepped, some_⟩)
          intro t member
          rw [visits] at member
          rcases List.mem_cons.mp member with rfl | inRest
          · rfl
          · rw [steady quiet t inRest, same]
        · intro some_
          rcases some_ with now | ⟨mid', again, some_⟩
          · exact absurd now fails
          · rw [stepped] at again
            cases again
            have less := shrinks some_
            omega

/-- The connections of the pool are the idle ones and those held. -/
theorem slots_eq {pool : Pool} {s : System} (sound : Sound pool s) :
    s.slots = s.idle.length + (s.held.filter (·.pooled)).length := by
  have idle : s.idle.filter (·.pooled) = s.idle := List.filter_eq_self.mpr sound.fromPool.idle
  rw [System.slots, System.conns, List.filter_append, List.length_append, idle]

/-- A filled pool has its size. -/
theorem Filled.slots {pool : Pool} {idle : List Conn} (filled : Filled pool.poolSize idle) (now : Int) :
    (System.start idle now).slots = pool.poolSize := by
  rw [slots_eq (filled.sound now), System.held, System.start]
  simpa using filled.length

/-- Over a run from a filled pool that ends between calls: whenever every client is between calls, the idle
    connections and the held ones from the pool number `pool_size`, if and only if no get of the run fails.
    -/
theorem pool_keeps_size_iff {pool : Pool} {dial : Dial} {idle : List Conn}
    (filled : fillPool pool dial = some idle) (now : Int) {actions : List Action} {last : System}
    (ran : actions.foldlM (step pool) (.start idle now) = some last) (ends : BetweenCalls last) :
    (∀ t ∈ visited pool (.start idle now) actions, BetweenCalls t →
        t.idle.length + (t.held.filter (·.pooled)).length = pool.poolSize) ↔
      ¬ FailsSome pool (.start idle now) actions := by
  have full := fillPool_filled filled
  rcases run_slots (full.sound now) ran with ⟨steady, shrinks, -, reaches, sounds⟩
  rw [full.slots now] at steady shrinks
  constructor
  · intro keeps fails
    have less := shrinks fails
    rw [slots_eq (sounds last reaches), keeps last reaches ends] at less
    exact Nat.lt_irrefl _ less
  · intro none t member _
    rw [← slots_eq (sounds t member)]
    exact steady none t member

/-- The run of an outage: a get takes the only connection after the timeout, finds it dead and cannot make
    another. -/
def outage : List Action := [.tick 20, .enter, .lock 0, .check 0 false false]

/-- The outage leaves neither an idle connection nor a client. -/
theorem outage_run :
    ∃ last, outage.foldlM (step ⟨1, 10⟩) (.start [⟨0, 0, true⟩] 0) = some last ∧ last.idle = [] ∧
      last.clients = [] := by
  have ends : (outage.foldlM (step ⟨1, 10⟩) (.start [⟨0, 0, true⟩] 0)).map (fun s => (s.idle, s.clients)) =
      some ([], []) := by
    decide +kernel
  rcases Option.map_eq_some_iff.mp ends with ⟨last, ran, same⟩
  exact ⟨last, ran, congrArg Prod.fst same, congrArg Prod.snd same⟩

/-- The pool of one connection is filled. -/
theorem pool_of_one_filled : fillPool ⟨1, 10⟩ (fun _ => some (0, true)) = some [⟨0, 0, true⟩] := rfl

/-- After the outage the pool of one connection is empty, with no client left. -/
theorem pool_empty_after_outage :
    fillPool ⟨1, 10⟩ (fun _ => some (0, true)) = some [⟨0, 0, true⟩] ∧
      ∃ last, outage.foldlM (step ⟨1, 10⟩) (.start [⟨0, 0, true⟩] 0) = some last ∧ BetweenCalls last ∧
        last.idle.length + (last.held.filter (·.pooled)).length ≠ 1 := by
  rcases outage_run with ⟨last, ran, idle, clients⟩
  refine ⟨pool_of_one_filled, last, ran, ?_, ?_⟩
  · simp [BetweenCalls, clients]
  · simp [idle, System.held, clients]

/-- The outage is a get that fails. -/
theorem pool_keeps_size_iff_outage :
    ¬ ∀ t ∈ visited ⟨1, 10⟩ (.start [⟨0, 0, true⟩] 0) outage, BetweenCalls t →
      t.idle.length + (t.held.filter (·.pooled)).length = 1 := by
  rcases outage_run with ⟨last, ran, idle, clients⟩
  have ends : BetweenCalls last := by simp [BetweenCalls, clients]
  intro keeps
  apply (pool_keeps_size_iff pool_of_one_filled 0 ran ends).mp keeps
  refine Or.inr ⟨_, rfl, Or.inr ⟨_, rfl, Or.inr ⟨_, rfl, Or.inl ⟨0, ⟨0, 0, true⟩, rfl, rfl, ?_⟩⟩⟩⟩
  decide +kernel

end Waspp.Checkout
