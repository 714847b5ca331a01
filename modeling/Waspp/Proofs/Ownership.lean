/-
Module: Waspp.Proofs.Ownership
Layer: Proofs
Purpose: How often the statements and results of a connection are destroyed.  Every one of them is recorded
  by the connection and held by an owner of the handler, and both delete it: over all handlers that use a
  connection the destructor of every object is called twice, so that only the connections that create none
  are sound.
Imports: Waspp.Model.Mysqlpp, Mathlib.Data.List.Count
Trusted boundary: none (fully proved)
Main exports: Scope.Ledger, Scope.Ledger.leave, Lifetime.Doubled, destroyed_once_iff
Open obligations: none
-/
import Waspp.Model.Mysqlpp
import Mathlib.Data.List.Count

namespace Waspp.Mysqlpp

/-! ### One handler

A ledger of what a handler does with the objects of a connection: how often each was destroyed, and who
holds it.  What is counted is the same after every call. -/

/-- The objects that a connection records. -/
def Connection.recorded (conn : Connection) : List Handle := conn.clear.1

/-- The objects that owners hold. -/
def Scope.held (s : Scope) : List Handle := s.owners.filterMap Owner.held

/-- What has happened to an object of a handler that started when `created` and `destroyed` were the records:
    it is held or was destroyed once, and the connection still records it. -/
structure Scope.Ledger (start : Lifetime) (s : Scope) : Prop where
  owned : ∀ h, s.destroyed.count h + s.held.count h + start.created.count h =
    start.destroyed.count h + s.created.count h
  recorded : ∀ h, s.conn.recorded.count h + start.created.count h = start.conn.recorded.count h +
    s.created.count h

/-- An owner that is replaced is one holder less of the old object and one more of the new. -/
theorem count_filterMap_set {owners : List Owner} {i : Nat} {old : Owner} (new : Owner)
    (at_ : owners[i]? = some old) (h : Handle) :
    ((owners.set i new).filterMap Owner.held).count h + old.held.toList.count h =
      (owners.filterMap Owner.held).count h + new.held.toList.count h := by
  induction owners generalizing i with
  | nil => simp at at_
  | cons owner rest ih =>
      have cons (o : Owner) (l : List Owner) : ((o :: l).filterMap Owner.held).count h =
          o.held.toList.count h + (l.filterMap Owner.held).count h := by
        cases held : o.held <;> simp [held, List.count_cons, Nat.add_comm]
      cases i with
      | zero =>
          simp only [List.getElem?_cons_zero, Option.some.injEq] at at_
          subst at_
          rw [List.set_cons_zero, cons, cons]
          omega
      | succ i =>
          have later := ih (i := i) (by simpa using at_)
          rw [List.set_cons_succ, cons, cons]
          omega

/-- Giving a pointer destroys what its owner held and changes nothing else. -/
theorem Scope.give_counts {s s' : Scope} {new : Owner} {owner : Option Nat}
    (given : s.give new owner = some s') (h : Handle) :
    s'.destroyed.count h + s'.held.count h = s.destroyed.count h + s.held.count h + new.held.toList.count h ∧
      s'.conn = s.conn ∧ s'.created = s.created := by
  cases owner with
  | none =>
      cases given
      refine ⟨?_, rfl, rfl⟩
      cases held : new.held <;> simp [Scope.held, held]
      omega
  | some i =>
      simp only [Scope.give] at given
      split at given
      · rename_i old p at_
        cases given
        have moved := count_filterMap_set (.stmtPtr p) at_ h
        refine ⟨?_, rfl, rfl⟩
        simp only [Scope.held, List.count_append]
        omega
      · rename_i old p at_
        cases given
        have moved := count_filterMap_set (.rsPtr p) at_ h
        refine ⟨?_, rfl, rfl⟩
        simp only [Scope.held, List.count_append]
        omega
      · cases given

/-- Nothing is held at the start. -/
theorem Scope.Ledger.start (life : Lifetime) :
    Scope.Ledger life
      { conn := life.conn, next := life.next, created := life.created, destroyed := life.destroyed } where
  owned h := by simp [Scope.held]
  recorded h := rfl

/-- An object that is created, recorded by the connection and given to an owner keeps the ledger. -/
theorem Scope.Ledger.create {life : Lifetime} {s s' : Scope} {conn : Connection} {next : Nat}
    {object : Handle}
    {new : Owner} {owner : Option Nat} (ledger : s.Ledger life) (held : new.held = some object)
    (records : ∀ h, conn.recorded.count h = s.conn.recorded.count h + [object].count h)
    (given : ({ s with conn := conn, next := next, created := s.created ++ [object] } : Scope).give new
      owner =
      some s') : s'.Ledger life := by
  have counts := Scope.give_counts given
  constructor
  · intro h
    have before := ledger.owned h
    have now := (counts h).1
    rw [(counts h).2.2]
    rw [held] at now
    simp only [Scope.held, List.count_append, Option.toList_some] at before now ⊢
    omega
  · intro h
    have before := ledger.recorded h
    have grown := records h
    rw [(counts h).2.1, (counts h).2.2]
    simp only [List.count_append]
    omega

/-- A call keeps the ledger. -/
theorem Scope.Ledger.step {life : Lifetime} {s s' : Scope} {op : Op} (ledger : s.Ledger life)
    (stepped : s.step op = some s') : s'.Ledger life := by
  cases op with
  | prepare owner =>
      apply ledger.create rfl _ stepped
      intro h
      simp only [Connection.recorded, Connection.clear, Connection.prepare, List.map_append,
        List.count_append, List.map_cons, List.map_nil]
      omega
  | query owner =>
      apply ledger.create rfl _ stepped
      intro h
      simp only [Connection.recorded, Connection.clear, Connection.query, List.map_append, List.count_append,
        List.map_cons, List.map_nil]
      omega
  | reset i =>
      have given : ∃ new : Owner, new.held = none ∧ s.give new (some i) = some s' := by
        simp only [Scope.step] at stepped
        split at stepped
        · exact ⟨.stmtPtr none, rfl, stepped⟩
        · exact ⟨.rsPtr none, rfl, stepped⟩
        · cases stepped
      rcases given with ⟨new, null, given⟩
      have counts := Scope.give_counts given
      constructor
      · intro h
        have before := ledger.owned h
        have now := (counts h).1
        rw [(counts h).2.2]
        simp only [null, Option.toList_none, List.count_nil] at now
        omega
      · intro h
        rw [(counts h).2.1, (counts h).2.2]
        exact ledger.recorded h

/-- The ledger is kept by all calls of a handler. -/
theorem Scope.Ledger.steps {life : Lifetime} {ops : List Op} {s s' : Scope} (ledger : s.Ledger life)
    (ran : ops.foldlM Scope.step s = some s') : s'.Ledger life := by
  induction ops generalizing s with
  | nil =>
      cases ran
      exact ledger
  | cons op rest ih =>
      rcases Option.bind_eq_some_iff.mp ran with ⟨mid, stepped, later⟩
      exact ih (ledger.step stepped) later

/-- A handler that starts on a connection without records, all objects so far having been destroyed twice,
    leaves none that was not: its owners destroy what it created, and then the connection does. -/
theorem Scope.Ledger.leave {life : Lifetime} {s : Scope} (ledger : s.Ledger life) (cleared : life.conn = {})
    (twice : ∀ h, life.destroyed.count h = 2 * life.created.count h) (h : Handle) :
    s.leave.destroyed.count h = 2 * s.created.count h := by
  have owned := ledger.owned h
  have recorded := ledger.recorded h
  have before := twice h
  have reversed : (s.owners.reverse.filterMap Owner.held).count h = s.held.count h := by
    rw [List.filterMap_reverse, List.count_reverse, Scope.held]
  have start : life.conn.recorded.count h = 0 := by
    rw [cleared]
    rfl
  have leaves : (s.conn.clear.1).count h = s.conn.recorded.count h := rfl
  simp only [Scope.leave, List.count_append, reversed]
  rw [leaves]
  omega

/-! ### All handlers of a connection -/

/-- Every object was destroyed twice, and the connection records none. -/
structure Lifetime.Doubled (life : Lifetime) : Prop where
  twice : ∀ h, life.destroyed.count h = 2 * life.created.count h
  cleared : life.conn = {}

/-- A handler destroys all that it creates twice: its owners do, and then the connection does. -/
theorem Lifetime.Doubled.serve {life life' : Lifetime} {ops : List Op} (doubled : life.Doubled)
    (served : life.serve ops = some life') : life'.Doubled := by
  rcases Option.bind_eq_some_iff.mp served with ⟨scope, ran, left⟩
  cases left
  have ledger := (Scope.Ledger.start life).steps ran
  exact ⟨ledger.leave doubled.cleared doubled.twice, rfl⟩

/-- What was destroyed twice stays so. -/
theorem Lifetime.Doubled.serveAll {handlers : List (List Op)} {life life' : Lifetime}
    (doubled : life.Doubled)
    (served : handlers.foldlM Lifetime.serve life = some life') : life'.Doubled := by
  induction handlers generalizing life with
  | nil =>
      cases served
      exact doubled
  | cons ops rest ih =>
      rcases Option.bind_eq_some_iff.mp served with ⟨mid, first, later⟩
      exact ih (doubled.serve first) later

/-! ### What is created

A handler that creates nothing leaves nothing to destroy. -/

/-- A call creates an object if it prepares or queries, and only then. -/
theorem Scope.step_created {s s' : Scope} {op : Op} (stepped : s.step op = some s') :
    s.created.length ≤ s'.created.length ∧ (s'.created.length = s.created.length ↔ ¬ op.Creates) := by
  cases op with
  | prepare owner =>
      have kept := (Scope.give_counts stepped (.statement 0)).2.2
      simp [kept, Op.Creates]
  | query owner =>
      have kept := (Scope.give_counts stepped (.statement 0)).2.2
      simp [kept, Op.Creates]
  | reset i =>
      simp only [Scope.step] at stepped
      split at stepped
      · simp [(Scope.give_counts stepped (.statement 0)).2.2, Op.Creates]
      · simp [(Scope.give_counts stepped (.statement 0)).2.2, Op.Creates]
      · cases stepped

theorem Scope.steps_created {ops : List Op} {s s' : Scope} (ran : ops.foldlM Scope.step s = some s') :
    s.created.length ≤ s'.created.length ∧
      (s'.created.length = s.created.length ↔ ∀ op ∈ ops, ¬ op.Creates) := by
  induction ops generalizing s with
  | nil =>
      cases ran
      simp
  | cons op rest ih =>
      rcases Option.bind_eq_some_iff.mp ran with ⟨mid, stepped, later⟩
      have first := Scope.step_created stepped
      have then_ := ih later
      refine ⟨Nat.le_trans first.1 then_.1, ?_⟩
      rw [List.forall_mem_cons, ← first.2, ← then_.2]
      have le := first.1
      have le' := then_.1
      omega

/-- The handlers that served a connection created nothing exactly when none of their calls creates. -/
theorem Lifetime.serveAll_created {handlers : List (List Op)} {life life' : Lifetime}
    (served : handlers.foldlM Lifetime.serve life = some life') :
    life.created.length ≤ life'.created.length ∧
      (life'.created.length = life.created.length ↔ ∀ ops ∈ handlers, ∀ op ∈ ops, ¬ op.Creates) := by
  induction handlers generalizing life with
  | nil =>
      cases served
      simp
  | cons ops rest ih =>
      rcases Option.bind_eq_some_iff.mp served with ⟨mid, first, later⟩
      rcases Option.bind_eq_some_iff.mp first with ⟨scope, ran, left⟩
      cases left
      have head := Scope.steps_created ran
      have tail := ih later
      refine ⟨Nat.le_trans head.1 tail.1, ?_⟩
      rw [List.forall_mem_cons, ← head.2, ← tail.2]
      have le : life.created.length ≤ scope.created.length := head.1
      have le' : scope.created.length ≤ life'.created.length := tail.1
      simp only [Scope.leave]
      omega

/-- Over all handlers that use a connection and up to its destructor, every statement and every result is
    destroyed exactly once if and only if no handler has a prepare or a query that returns. -/
theorem destroyed_once_iff {handlers : List (List Op)} {life : Lifetime}
    (served : Lifetime.serveAll handlers = some life) :
    (∀ h, life.destroy.destroyed.count h = if h ∈ life.created then 1 else 0) ↔
      ∀ ops ∈ handlers, ∀ op ∈ ops, ¬ op.Creates := by
  have start : Lifetime.Doubled {} := ⟨fun _ => rfl, rfl⟩
  have doubled := start.serveAll served
  have final (h : Handle) : life.destroy.destroyed.count h = 2 * life.created.count h := by
    rw [← doubled.twice h, Lifetime.destroy, doubled.cleared]
    simp [Connection.clear]
  rw [← (Lifetime.serveAll_created served).2]
  constructor
  · intro once
    by_contra some_
    cases created : life.created with
    | nil => simp [created] at some_
    | cons h rest =>
        have twice := final h
        rw [once h, created] at twice
        simp only [List.mem_cons, true_or, if_true, List.count_cons_self] at twice
        omega
  · intro none h
    have empty : life.created = [] := List.length_eq_zero_iff.mp none
    simp [final, empty]

/-- The statement of a handler that prepares one is destroyed by its owner and again by its connection. -/
theorem prepared_statement_destroyed_twice :
    (Lifetime.serveAll [[.prepare none]]).map (·.destroy.destroyed) = some [.statement 0, .statement 0] := by
  decide

/-- The calls of `dir_user::auth` on its statements and results, when it finds the user. -/
def signInCalls : List Op := [.prepare none, .query none, .prepare (some 0), .query (some 1)]

/-- A sign-in destroys its statements and results twice. -/
theorem destroyed_once_iff_sign_in :
    ∃ life, Lifetime.serveAll [signInCalls] = some life ∧
      ¬ ∀ h, life.destroy.destroyed.count h = if h ∈ life.created then 1 else 0 := by
  refine ⟨_, rfl, ?_⟩
  intro once
  have served : Lifetime.serveAll [signInCalls] = some _ := rfl
  exact (destroyed_once_iff served).mp once signInCalls (by decide) (.prepare none) (by decide)
    trivial

end Waspp.Mysqlpp
