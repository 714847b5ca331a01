/-
Module: Waspp.Model.Checkout
Layer: Model
Purpose: Connections in and out of a pool.  `dbconn_pool` and `redis_pool` have the same `get` and
  `release`: a get takes the last idle connection under a lock, or makes one of its own when there is none,
  and looks outside the lock whether the one it took is to be replaced; a release gives back what came from
  the pool.  Any number of clients are between their get and the end of their release, and `step` lets one
  of them go on, from one lock or call to the next.  Whether connections can be made and answer is decided
  outside.
Imports: Mathlib.Logic.Function.Basic, Mathlib.Tactic.Basic, Waspp.Foundation.Double
Trusted boundary: human-reviewed translation of dbconn_pool.cpp and redis_pool.cpp
Main exports: Conn, Pool, DbconnPool, RedisPool, fillPool, Phase, System, Action, step, Reachable
Open obligations: none
-/
import Mathlib.Logic.Function.Basic
import Mathlib.Tactic.Basic
import Waspp.Foundation.Double

namespace Waspp.Checkout

/-- A connection, as its pool sees it. -/
structure Conn where
  /-- Which object it is: objects are numbered as they are made. -/
  id : Nat
  /-- `mktime(last_released())`. -/
  released : Int
  pooled : Bool
deriving DecidableEq, Repr

/-- The settings of a pool that its code uses.  The timeout is what `strtod` makes of a text in the
    configuration, which nobody checks: a text such as `nan` is taken as well. -/
structure Pool where
  poolSize : Nat
  timeoutSec : Double

/-- The settings of a `dbconn_pool`. -/
structure DbconnPool where
  poolSize : Nat
  waitTimeoutSec : Double

/-- A `dbconn_pool`, whose liveness check is `ping()`. -/
def DbconnPool.pool (cfg : DbconnPool) : Pool := ⟨cfg.poolSize, cfg.waitTimeoutSec⟩

/-- The settings of a `redis_pool`. -/
structure RedisPool where
  poolSize : Nat
  timeoutSec : Double

/-- A `redis_pool`, whose liveness check is `is_valid()`. -/
def RedisPool.pool (cfg : RedisPool) : Pool := ⟨cfg.poolSize, cfg.timeoutSec⟩

/-! ### Filling -/

/-- What becomes of the `i`-th `connect()` of `fill_pool`: it throws, or the connection is made at a time and
    answers or not. -/
abbrev Dial := Nat → Option (Int × Bool)

/-- The loop of `fill_pool()`, with the rounds left; `none` when it throws or returns false. -/
def fillFrom (dial : Dial) : Nat → List Conn → Option (List Conn)
  | 0, pool => some pool
  | rounds + 1, pool =>
      match dial pool.length with
      | some (made, true) => fillFrom dial rounds (pool ++ [⟨pool.length, made, true⟩])
      | _ => none

/-- `fill_pool()`. -/
def fillPool (pool : Pool) (dial : Dial) : Option (List Conn) :=
  if pool.poolSize = 0 then none else fillFrom dial pool.poolSize []

/-! ### Clients -/

/-- Where a client is. -/
inductive Phase where
  /-- It has called get. -/
  | entered
  /-- Its get has found the pool empty and released the lock. -/
  | empty
  /-- Its get has taken a connection from the pool and released the lock. -/
  | popped (conn : Conn)
  /-- Its get has returned. -/
  | holds (conn : Conn)
  /-- Its release has noted the time and not yet taken the lock. -/
  | releasing (conn : Conn)
deriving DecidableEq, Repr

/-- The connection that a client has. -/
def Phase.conn : Phase → Option Conn
  | .entered => none
  | .empty => none
  | .popped conn => some conn
  | .holds conn => some conn
  | .releasing conn => some conn

/-- A client and where it is. -/
structure Client where
  number : Nat
  phase : Phase
deriving DecidableEq, Repr

/-- A pool with its clients. -/
structure System where
  /-- The vector `pool`. -/
  idle : List Conn
  clients : List Client := []
  /-- What `std::time` returns. -/
  now : Int
  nextConn : Nat
  nextClient : Nat := 0
  /-- When a connection was last released, or made if it never was. -/
  lastUsed : Nat → Int
  /-- The connections that were made because the pool was empty. -/
  overflow : List Nat := []

/-- What happens next. -/
inductive Action where
  /-- A client calls get. -/
  | enter
  /-- Time passes. -/
  | tick (now : Int)
  /-- The part of get under the lock. -/
  | lock (client : Nat)
  /-- `connect(false)`, which succeeds or throws. -/
  | connect (client : Nat) (succeeds : Bool)
  /-- The part of get behind the lock: whether the connection is live, and whether `connect()` succeeds,
      where get asks. -/
  | check (client : Nat) (alive succeeds : Bool)
  /-- The part of release in front of the lock. -/
  | release (client : Nat)
  /-- The part of release under the lock. -/
  | push (client : Nat)
deriving DecidableEq, Repr

/-- `diff >= timeout`, for the time since the last release. -/
def Pool.expired (pool : Pool) (now : Int) (conn : Conn) : Bool :=
  Double.difftime now conn.released ≥ pool.timeoutSec

/-- `connect(pooled_)`, which succeeds. -/
def System.made (s : System) (pooled : Bool) : Conn := ⟨s.nextConn, s.now, pooled⟩

/-- The system once that connection is made. -/
def System.withMade (s : System) (pooled : Bool) : System :=
  { s with
    nextConn := s.nextConn + 1
    lastUsed := Function.update s.lastUsed s.nextConn s.now
    overflow := if pooled then s.overflow else s.nextConn :: s.overflow }

/-- A client moves on. -/
def System.move (s : System) (i : Nat) (phase : Phase) : System :=
  { s with clients := s.clients.modify i fun client => { client with phase := phase } }

/-- A client is done, or its call has thrown. -/
def System.leave (s : System) (i : Nat) : System :=
  { s with clients := s.clients.eraseIdx i }

/-- Where the client at a position is. -/
def System.phaseAt (s : System) (i : Nat) : Option Phase := s.clients[i]?.map (·.phase)

/-- One step; `none` when the client is not there. -/
def step (pool : Pool) (s : System) : Action → Option System
  | .enter =>
      some { s with
        clients := s.clients ++ [⟨s.nextClient, .entered⟩]
        nextClient := s.nextClient + 1 }
  | .tick now => some { s with now := now }
  | .lock i =>
      match s.phaseAt i with
      | some .entered =>
          match s.idle.getLast? with
          | none => some (s.move i .empty)
          | some conn => some ({ s with idle := s.idle.dropLast }.move i (.popped conn))
      | _ => none
  | .connect i succeeds =>
      match s.phaseAt i with
      | some .empty =>
          some (if succeeds then (s.withMade false).move i (.holds (s.made false)) else s.leave i)
      | _ => none
  | .check i alive succeeds =>
      match s.phaseAt i with
      | some (.popped conn) =>
          if pool.expired s.now conn && !alive then
            some (if succeeds then (s.withMade true).move i (.holds (s.made true)) else s.leave i)
          else some (s.move i (.holds conn))
      | _ => none
  | .release i =>
      match s.phaseAt i with
      | some (.holds conn) =>
          if !conn.pooled then some (s.leave i)
          else
            some ({ s with lastUsed := Function.update s.lastUsed conn.id s.now }.move i
              (.releasing { conn with released := s.now }))
      | _ => none
  | .push i =>
      match s.phaseAt i with
      | some (.releasing conn) => some ({ s with idle := s.idle ++ [conn] }.leave i)
      | _ => none

/-- A pool that was just filled, with no client. -/
def System.start (idle : List Conn) (now : Int) : System where
  idle := idle
  now := now
  nextConn := idle.length
  lastUsed id := (idle[id]?.map (·.released)).getD 0

/-- What is reached from a filled pool. -/
inductive Reachable (pool : Pool) : System → Prop where
  | start {dial : Dial} {idle : List Conn} (filled : fillPool pool dial = some idle) (now : Int) :
      Reachable pool (.start idle now)
  | step {s s' : System} {a : Action} (reached : Reachable pool s) (stepped : step pool s a = some s') :
      Reachable pool s'

end Waspp.Checkout
