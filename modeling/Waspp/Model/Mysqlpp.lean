/-
Module: Waspp.Model.Mysqlpp
Layer: Model
Purpose: Who destroys statements and results.  A `mysqlpp::connection` records every statement that it
  prepares and every result that it queries, and `clear` deletes them; a handler keeps the pointers it is
  given in `stmt_ptr` and `rs_ptr` owners, which delete them too.  Objects are numbered as they are created;
  what is recorded is the calls of destructors, in order.
Imports: Mathlib.Data.List.Basic
Trusted boundary: human-reviewed translation of mysqlpp_connection.cpp, of the owners of dbconn_pool.hpp and
  of scoped_db::~scoped_db
Main exports: Handle, Connection, Owner, Op, Scope.step, Scope.leave, Lifetime.serveAll
Open obligations: none
-/
import Mathlib.Data.List.Basic

namespace Waspp.Mysqlpp

/-- An object that a connection creates. -/
inductive Handle where
  | statement (id : Nat)
  | result (id : Nat)
deriving DecidableEq, Repr

/-- The two vectors of a connection. -/
structure Connection where
  statements : List Nat := []
  results : List Nat := []
deriving DecidableEq, Repr

namespace Connection

/-- `prepare(query)`, of the statement that it creates. -/
def prepare (conn : Connection) (id : Nat) :
    Connection := { conn with statements := conn.statements ++ [id] }

/-- `__query(stmt)`, of the result that it creates. -/
def query (conn : Connection) (id : Nat) : Connection := { conn with results := conn.results ++ [id] }

/-- `clear()`: the destructors it calls, and the vectors it leaves. -/
def clear (conn : Connection) : List Handle × Connection :=
  (conn.results.map .result ++ conn.statements.map .statement, {})

end Connection

/-- A variable of type `stmt_ptr` or `rs_ptr`, with the pointer it holds. -/
inductive Owner where
  | stmtPtr (held : Option Nat)
  | rsPtr (held : Option Nat)
deriving DecidableEq, Repr

/-- The object that an owner holds. -/
def Owner.held : Owner → Option Handle
  | .stmtPtr p => p.map .statement
  | .rsPtr p => p.map .result

/-- A call of a handler that returns.  The pointer that `prepare` and `query` return goes to a new owner, or
    to the owner of the given position by `reset`. -/
inductive Op where
  | prepare (owner : Option Nat)
  | query (owner : Option Nat)
  /-- `owner.reset()`. -/
  | reset (owner : Nat)
deriving DecidableEq, Repr

/-- The call creates an object. -/
def Op.Creates : Op → Prop
  | .prepare _ => True
  | .query _ => True
  | .reset _ => False

/-- A handler between the construction of its `scoped_db` and its end. -/
structure Scope where
  conn : Connection
  /-- The owners, in the order of their construction. -/
  owners : List Owner := []
  /-- The number of the next object. -/
  next : Nat
  created : List Handle
  destroyed : List Handle
deriving DecidableEq, Repr

namespace Scope

/-- Give a pointer to an owner that is constructed with it, or to an owner that is reset to it, which then
    deletes the object it held.  `none` when the owner has another type. -/
def give (s : Scope) (new : Owner) : Option Nat → Option Scope
  | none => some { s with owners := s.owners ++ [new] }
  | some i =>
      match s.owners[i]?, new with
      | some (.stmtPtr old), .stmtPtr _ =>
          some { s with
            owners := s.owners.set i new
            destroyed := s.destroyed ++ (Owner.stmtPtr old).held.toList }
      | some (.rsPtr old), .rsPtr _ =>
          some { s with
            owners := s.owners.set i new
            destroyed := s.destroyed ++ (Owner.rsPtr old).held.toList }
      | _, _ => none

/-- One call. -/
def step (s : Scope) : Op → Option Scope
  | .prepare owner =>
      let s : Scope :=
        { s with conn := s.conn.prepare s.next, next := s.next + 1, created :=
          s.created ++ [.statement s.next] }
      s.give (.stmtPtr (some (s.next - 1))) owner
  | .query owner =>
      let s : Scope :=
        { s with conn := s.conn.query s.next, next := s.next + 1, created := s.created ++ [.result s.next] }
      s.give (.rsPtr (some (s.next - 1))) owner
  | .reset i =>
      match s.owners[i]? with
      | some (.stmtPtr _) => s.give (.stmtPtr none) (some i)
      | some (.rsPtr _) => s.give (.rsPtr none) (some i)
      | none => none

/-- The end of the handler, normal or by an exception: the owners are destroyed, the last constructed first,
    and then the destructor of `scoped_db` clears the connection. -/
def leave (s : Scope) : Scope :=
  let (cleared, conn) := s.conn.clear
  { s with
    conn := conn
    owners := []
    destroyed := s.destroyed ++ s.owners.reverse.filterMap Owner.held ++ cleared }

end Scope

/-- A connection over the handlers that use it one after another. -/
structure Lifetime where
  conn : Connection := {}
  next : Nat := 0
  created : List Handle := []
  destroyed : List Handle := []
deriving DecidableEq, Repr

namespace Lifetime

/-- A handler that uses the connection.  It makes the given calls that return; after them it ends or throws.
    -/
def serve (life : Lifetime) (ops : List Op) : Option Lifetime := do
  let scope ← ops.foldlM Scope.step
    { conn := life.conn, next := life.next, created := life.created, destroyed := life.destroyed }
  let scope := scope.leave
  return { conn := scope.conn, next := scope.next, created := scope.created, destroyed := scope.destroyed }

/-- The destructor of the connection, which clears it. -/
def destroy (life : Lifetime) : Lifetime :=
  let (cleared, conn) := life.conn.clear
  { life with conn := conn, destroyed := life.destroyed ++ cleared }

/-- A new connection over its handlers. -/
def serveAll (handlers : List (List Op)) : Option Lifetime := handlers.foldlM serve {}

end Lifetime

end Waspp.Mysqlpp
