/-
Module: Waspp.Model.Scopes
Layer: Model
Purpose: What the values of a request leave out.  A handler that has a connection keeps its statements and
  results in owners; when it leaves, the owners destroy them, and so does the connection that `~scoped_db`
  clears.  The pool of a `scoped_db` is an element of a vector, at a position that is computed.  Both follow
  from the calls that the handler makes: where an object is destroyed twice, or there is no such pool,
  nothing is known of what the program does, and no response is promised.
Imports: Waspp.Model.RequestHandler, Waspp.Model.Mysqlpp, Waspp.Model.Pools
Trusted boundary: human-reviewed translation of the owners in the route handlers, of scoped_db and of the
  overloads of database::get_dbpool
Main exports: Database.select, Pick.defined_iff, Stage, DbCall.queries, objectsOf, scopeOf, RunDefined,
  scopedHandler
Open obligations: none
-/
import Waspp.Model.RequestHandler
import Waspp.Model.Mysqlpp
import Waspp.Model.Pools

namespace Waspp

open CString Interaction

/-! ### Pools

The handlers name a pool in two ways, for which `get_dbpool` has two overloads: the one takes the element at
the position, the other the element at the remainder of a checksum. -/

/-- `get_dbpool`, of the overload that a pick is for. -/
def Database.select (db : Sharded) : Pick → Except Fault ConnPool
  | .dbname pool =>
      match db.pools[pool]? with
      | some pool => .ok pool
      | none => .error .undefinedBehaviour
  | .shardKey _ key => Database.getDbpoolOfString db key

/-- There is a pool to a pick exactly when `get_dbpool` is defined on it. -/
theorem Pick.defined_iff {db : Sharded} {pick : Pick}
    (count : ∀ n key, pick = .shardKey n key → n = db.shardCount) :
    pick.Defined db.pools.length ↔ ∃ pool, Database.select db pick = .ok pool := by
  cases pick with
  | dbname position =>
      cases found : db.pools[position]? with
      | none => simpa [Pick.Defined, Database.select, found] using List.getElem?_eq_none_iff.mp found
      | some pool =>
          simpa [Pick.Defined, Database.select, found] using (List.getElem?_eq_some_iff.mp found).1
  | shardKey n key =>
      obtain rfl := count n key rfl
      by_cases zero : db.shardCount = 0
      · simp [Pick.Defined, Database.select, Database.getDbpoolOfString, Sharded.select, zero]
      · cases found : db.pools[(Crc32.crc32 key).toNat % db.shardCount]? with
        | none =>
            simpa [Pick.Defined, Database.select, Database.getDbpoolOfString, Sharded.select, shardOfString,
              zero, found]
              using List.getElem?_eq_none_iff.mp found
        | some pool =>
            simpa [Pick.Defined, Database.select, Database.getDbpoolOfString, Sharded.select, shardOfString,
              zero, found]
              using (List.getElem?_eq_some_iff.mp found).1

/-- The pool that a call picks. -/
def DbCall.picks : DbCall → Option Pick
  | .checkout pick => some pick
  | _ => none

@[simp] theorem DbCall.picks_checkout (pick : Pick) : (DbCall.checkout pick).picks = some pick := rfl

/-! ### Objects

A handler has one owner of a statement and at most one of a result.  They are constructed with the pointers
of its first statement, and `reset` to those of the later ones. -/

/-- How far a statement comes that throws. -/
inductive Stage where
  /-- `prepare` throws, and there is no statement. -/
  | prepare
  /-- There is a statement, and binding or running it throws. -/
  | query
  /-- There is a result as well, and reading it throws. -/
  | fetch
deriving DecidableEq, Repr

/-- The statement is run by `query`, which makes a result, and not by `execute`. -/
def DbCall.queries : DbCall → Bool
  | .insertUser .. => false
  | .insertForum .. => false
  | .updateForum .. => false
  | _ => true

/-- `prepare`, for the owner of the handler's statement. -/
def prepareNext (s : Mysqlpp.Scope) : Option Mysqlpp.Scope :=
  s.step (.prepare (if s.owners = [] then none else some 0))

/-- `query`, for the owner of the handler's result. -/
def queryNext (s : Mysqlpp.Scope) : Option Mysqlpp.Scope :=
  s.step (.query (if s.owners.length = 1 then none else some 1))

/-- How far a call has come. -/
def stageOf (fails : Stage) (e : Event DbCall Reply) : Stage :=
  match e.2 with
  | .ok _ => .fetch
  | .error _ => fails

/-- What a call does to the objects of the handler, if a statement that throws comes as far as `fails`. -/
def objectsOf (fails : Stage) (s : Mysqlpp.Scope) (e : Event DbCall Reply) : Option Mysqlpp.Scope :=
  match e.1.picks with
  | some _ => some s
  | none =>
      match stageOf fails e with
      | .prepare => some s
      | .query => prepareNext s
      | .fetch => if e.1.queries then (prepareNext s).bind queryNext else prepareNext s

/-- The objects of a handler that has made these calls on a connection that records none. -/
def scopeOf (fails : Stage) (trace : List (Event DbCall Reply)) : Option Mysqlpp.Scope :=
  trace.foldlM (objectsOf fails) { conn := {}, next := 0, created := [], destroyed := [] }

/-- The calls pick pools that there are, and when the handler leaves no object is destroyed twice. -/
def RunDefined (pools : Nat) (fails : Stage) (trace : List (Event DbCall Reply)) : Prop :=
  (∀ e ∈ trace, ∀ pick ∈ e.1.picks, pick.Defined pools) ∧ ∀ s ∈ scopeOf fails trace, s.leave.destroyed.Nodup

instance (pools : Nat) (fails : Stage) (trace : List (Event DbCall Reply)) :
    Decidable (RunDefined pools fails trace) :=
  inferInstanceAs (Decidable (_ ∧ _))

/-! ### The handler of a running server -/

/-- The handler that a connection calls, with what it does to its objects: as long as that is defined, what
    it computes is what `requestHandler` says.  How far the statement comes that throws in a request is
    decided outside. -/
def scopedHandler (mysql : Mysql) (fails : Nat → Stage) (table : Env → List Route) : Handler Server :=
  fun server req res =>
    let env := server.envs server.served
    let (_, _, trace) := (handleRequest env (table env)).exec (serve mysql) ⟨req, res⟩ server.world
    let (result, rest) := requestHandler mysql table server req res
    if RunDefined server.world.pools.length (fails server.served) trace then (result, rest)
    else (.error .undefinedBehaviour, rest)

end Waspp
