/-
Module: Waspp.Model.RedisOverHiredis
Layer: Model
Purpose: A pool of redis connections with the contexts that they are.  Clients get connections from the pool
  and give them back as in `Redis`; what a client does with its connection are moves of the context, and
  the servers behind the contexts answer when they want.  A client that is in a call does not release.  Each
  connection has a server state of its own, which may be the whole list of what it is to be answered.
Imports: Waspp.Proofs.RedisQueue
Trusted boundary: human-reviewed translation of scoped_rd, redis_pool and redis3m::connection put together
Main exports: Returned, OverHiredis, OverHiredis.redis, HiredisAction, OverHiredis.step, OverHiredis.start
Open obligations: none
-/
import Waspp.Proofs.RedisQueue

namespace Waspp.Redis3m

open CString Hiredis Checkout

/-- A reply that a call of `get_reply` returned to a client. -/
structure Returned where
  conn : Nat
  /-- Its place among the replies that the connection returned. -/
  position : Nat
  reader : Nat
  /-- The checkout that appended the command at that place. -/
  answered : Option Nat
  /-- The replies that were outstanding when the reader got the connection. -/
  takenOver : List Nat
deriving DecidableEq, Repr

/-- A pool, its clients, and the contexts of its connections. -/
structure OverHiredis (σ : Type) where
  system : System
  exchanges : Nat → Hiredis.Exchange σ
  /-- The checkouts that appended the commands of a connection. -/
  owners : Nat → List Nat := fun _ => []
  /-- The commands without a reply when a client got its connection. -/
  takenOver : Nat → List Nat := fun _ => []
  returned : List Returned := []

/-- What happens next. -/
inductive HiredisAction where
  /-- A step of get or release. -/
  | pool (a : Action)
  /-- A client goes on with the connection that it has. -/
  | client (i : Nat) (move : Move)
  /-- The server of a connection takes a command and answers it. -/
  | serve (conn : Nat) (argv : List Bytes)
deriving DecidableEq, Repr

variable {σ : Type}

namespace OverHiredis

/-- A pool that was just filled, with new contexts. -/
def start (start : Nat → σ) (idle : List Conn) (now : Int) : OverHiredis σ where
  system := .start idle now
  exchanges id := { server := start id }

/-- Its connections as queues. -/
def redis (w : OverHiredis σ) : Redis where
  system := w.system
  conns id := queueOf (w.exchanges id) (w.owners id)
  takenOver := w.takenOver
  reads := w.returned.filterMap fun e => e.answered.map fun answered => ⟨e.reader, answered, e.takenOver⟩

/-- A step of get whose liveness check asks the context: `c->err == REDIS_OK`. -/
def ask (w : OverHiredis σ) : Action → Action
  | .check i alive succeeds =>
      match w.system.phaseAt i with
      | some (.popped conn) => .check i (w.exchanges conn.id).context.err.isNone succeeds
      | _ => .check i alive succeeds
  | a => a

/-- The client that would release is in a call. -/
def inCall (w : OverHiredis σ) : Action → Bool
  | .release i =>
      match w.system.phaseAt i with
      | some (.holds conn) => (w.exchanges conn.id).phase ≠ .idle
      | _ => false
  | _ => false

/-- What a move returned to the client that made it. -/
def newReturned (w : OverHiredis σ) (id number : Nat) (y : Hiredis.Exchange σ) : List Returned :=
  let position := (w.exchanges id).returned.length
  if position < y.returned.length then [⟨id, position, number, (w.owners id)[position]?,
    w.takenOver number⟩] else []

/-- A client's move brought its context to `y`. -/
def moved (w : OverHiredis σ) (id number : Nat) (move : Move) (y : Hiredis.Exchange σ) : OverHiredis σ :=
  { w with
    exchanges := Function.update w.exchanges id y
    owners := Function.update w.owners id (w.owners id ++ [(number, move)].filterMap appendedBy)
    returned := w.returned ++ w.newReturned id number y }

/-- One step; `none` when the client is not there or has no connection, or when its context cannot make the
    move. -/
def step (allocates : Allocator) (serve : Hiredis.Server σ) (pool : Pool) (w : OverHiredis σ) :
    HiredisAction → Option (OverHiredis σ)
  | .pool a =>
      if w.inCall a then none
      else
        (Checkout.step pool w.system (w.ask a)).map fun system =>
          { w with system := system, takenOver := w.redis.note system }
  | .client _ (.serve _) => none
  | .client i move =>
      match w.system.clients[i]? with
      | some ⟨number, .holds conn⟩ =>
          ((w.exchanges conn.id).step allocates serve move).map (w.moved conn.id number move)
      | _ => none
  | .serve id argv =>
      ((w.exchanges id).step allocates serve (.serve argv)).map fun y =>
        { w with exchanges := Function.update w.exchanges id y }

end OverHiredis

end Waspp.Redis3m
