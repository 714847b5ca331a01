/-
Module: Waspp.Model.Redis3m
Layer: Model
Purpose: The replies that a redis connection still has to read.  A `redis3m::connection` sends commands and
  reads replies in the order of the commands, and `scoped_rd` gives it back to its pool as it is.  Of a
  command only the checkout that appended it matters, which is the client's number; the replies read are
  recorded.
Imports: Waspp.Model.Checkout
Trusted boundary: human-reviewed translation of redis3m::connection and of scoped_rd
Main exports: Connection, Outcome, Read, Redis, RedisAction, redisStep
Open obligations: none
-/
import Waspp.Model.Checkout

namespace Waspp.Redis3m

open Waspp.Checkout

/-- What is left to read on a connection. -/
structure Connection where
  /-- For each reply that was not read yet, the checkout that appended its command. -/
  outstanding : List Nat := []
  /-- `c->err != REDIS_OK`. -/
  broken : Bool := false
deriving DecidableEq, Repr

/-- `is_valid()`. -/
def Connection.isValid (conn : Connection) : Bool := !conn.broken

/-- `append(args)` by a checkout; when `redisAppendCommandArgv` fails, it throws and nothing is appended. -/
def Connection.append (conn : Connection) (client : Nat) (succeeds : Bool) : Connection :=
  if succeeds then { conn with outstanding := conn.outstanding ++ [client] } else conn

/-- What becomes of a call of `get_reply()`. -/
inductive Outcome where
  | answered
  /-- The reply is an error whose text starts with `READONLY`: it was read, and the call throws. -/
  | readOnly
  /-- `redisGetReply` fails, and the call throws. -/
  | failed
deriving DecidableEq, Repr

/-- `get_reply()`: the checkout whose command the reply answers, if one was read, and the connection it
    leaves.  Without a reply to come the call does not return, which is `none`; a connection with an error
    reads no more. -/
def Connection.getReply (conn : Connection) (outcome : Outcome) : Option (Option Nat × Connection) :=
  if conn.broken ∨ outcome = .failed then some (none, { conn with broken := true })
  else
    match conn.outstanding with
    | [] => none
    | client :: rest => some (some client, { conn with outstanding := rest })

/-- A reply that a checkout read. -/
structure Read where
  reader : Nat
  /-- The checkout that appended the command that the reply answers. -/
  answered : Nat
  /-- The replies that were outstanding when the reader got the connection. -/
  takenOver : List Nat
deriving DecidableEq, Repr

/-- A pool of redis connections with its clients. -/
structure Redis where
  system : System
  conns : Nat → Connection := fun _ => {}
  /-- The replies that were outstanding when a client got its connection. -/
  takenOver : Nat → List Nat := fun _ => []
  reads : List Read := []

/-- What happens next. -/
inductive RedisAction where
  /-- A step of get or release. -/
  | pool (a : Action)
  | append (client : Nat) (succeeds : Bool)
  | getReply (client : Nat) (outcome : Outcome)
deriving DecidableEq, Repr

/-- The calls that `get_replies(count)` makes, up to the one that throws. -/
def RedisAction.getReplies (client : Nat) (outcomes : List Outcome) : List RedisAction :=
  outcomes.map (.getReply client)

/-- The calls that `run(args)` makes. -/
def RedisAction.run (client : Nat) (outcome : Outcome) : List RedisAction :=
  [.append client true, .getReply client outcome]

/-- A step of get whose liveness check asks the connection. -/
def Redis.ask (r : Redis) : Action → Action
  | .check i alive succeeds =>
      match r.system.phaseAt i with
      | some (.popped conn) => .check i (r.conns conn.id).isValid succeeds
      | _ => .check i alive succeeds
  | a => a

/-- Note what the gets that have returned in a step hand out. -/
def Redis.note (r : Redis) (system : System) (number : Nat) : List Nat :=
  match system.clients.find? fun client => client.number = number with
  | some ⟨_, .holds conn⟩ =>
      if ⟨number, .holds conn⟩ ∈ r.system.clients then r.takenOver number else (r.conns conn.id).outstanding
  | _ => r.takenOver number

/-- One step of a redis pool and its clients; `none` when the client has no connection, or waits for a reply
    that does not come. -/
def redisStep (pool : Pool) (r : Redis) : RedisAction → Option Redis
  | .pool a => (step pool r.system (r.ask a)).map fun system =>
    { r with system := system, takenOver := r.note system }
  | .append i succeeds =>
      match r.system.clients[i]? with
      | some ⟨number, .holds conn⟩ =>
          some { r with conns := Function.update r.conns conn.id ((r.conns conn.id).append number succeeds) }
      | _ => none
  | .getReply i outcome =>
      match r.system.clients[i]? with
      | some ⟨number, .holds conn⟩ =>
          match (r.conns conn.id).getReply outcome with
          | none => none
          | some (none, left) => some { r with conns := Function.update r.conns conn.id left }
          | some (some answered, left) =>
              some
                { r with
                  conns := Function.update r.conns conn.id left
                  reads := r.reads ++ [⟨number, answered, r.takenOver number⟩] }
      | _ => none

/-- What is reached from a filled pool. -/
inductive RedisReachable (pool : Pool) : Redis → Prop where
  | start {dial : Dial} {idle : List Conn} (filled : fillPool pool dial = some idle) (now : Int) :
      RedisReachable pool { system := .start idle now }
  | step {r r' : Redis} {a : RedisAction} (reached : RedisReachable pool r)
      (stepped : redisStep pool r a = some r') :
      RedisReachable pool r'

end Waspp.Redis3m
