/-
Module: Waspp.Model.PoolThreads
Layer: Model
Purpose: The pools as their threads run them, one access at a time.  `spinlock::lock` exchanges `state_`
  until it was unlocked, `unlock` stores it; in between, a get asks the vector whether it is empty, reads
  its back and pops it, and a release pushes.  Any thread goes on at any time, so another one may come
  between any two of these; `back` and `pop_back` of an empty vector are undefined.
Imports: Waspp.Model.Checkout, Waspp.Model.Utility
Trusted boundary: human-reviewed translation of spinlock.hpp, and of get and release in dbconn_pool.cpp and
  redis_pool.cpp
Main exports: Point, Thread, Threads, ThreadAction, Threads.step, Threads.run
Open obligations: none
-/
import Waspp.Model.Checkout
import Waspp.Model.Utility

namespace Waspp.Checkout

/-- Where a thread is. -/
inductive Point where
  /-- Outside of what the lock guards, or in `spinlock_.lock()`: its get was called, or its release noted the
      time. -/
  | outside (phase : Phase)
  /-- At `pool.empty()`. -/
  | asking
  /-- At `pool.back()`. -/
  | reading
  /-- At `pool.pop_back()`. -/
  | popping (conn : Conn)
  /-- At the `spinlock_.unlock()` of a get, with what it took. -/
  | unlocking (taken : Option Conn)
  /-- At `pool.push_back(conn)`. -/
  | pushing (conn : Conn)
  /-- At the `spinlock_.unlock()` of a release. -/
  | leaving (conn : Conn)
deriving DecidableEq, Repr

/-- A thread in a get or a release, or between them. -/
structure Thread where
  number : Nat
  point : Point
deriving DecidableEq, Repr

/-- A pool with its threads. -/
structure Threads where
  /-- The vector. -/
  pool : List Conn
  /-- `state_` is `locked`. -/
  locked : Bool := false
  threads : List Thread := []
  /-- What `std::time` returns. -/
  now : Int
  nextConn : Nat
  nextThread : Nat := 0
deriving DecidableEq, Repr

/-- What happens next. -/
inductive ThreadAction where
  /-- A thread calls get. -/
  | enter
  /-- Time passes. -/
  | tick (now : Int)
  /-- The next access of a get or a release to `state_` or the vector. -/
  | access (i : Nat)
  /-- `connect(false)`, which succeeds or throws. -/
  | connect (i : Nat) (succeeds : Bool)
  /-- The part of get behind the lock. -/
  | check (i : Nat) (alive succeeds : Bool)
  /-- The part of release in front of the lock. -/
  | release (i : Nat)
deriving DecidableEq, Repr

namespace Threads

/-- A pool that was just filled, with no thread. -/
def start (idle : List Conn) (now : Int) : Threads where
  pool := idle
  now := now
  nextConn := idle.length

/-- A thread moves on. -/
def move (t : Threads) (i : Nat) (point : Point) : Threads :=
  { t with threads := t.threads.modify i fun thread => { thread with point := point } }

/-- A thread is done, or its call has thrown. -/
def leave (t : Threads) (i : Nat) : Threads :=
  { t with threads := t.threads.eraseIdx i }

/-- Where the thread at a position is. -/
def pointAt (t : Threads) (i : Nat) : Option Point := t.threads[i]?.map (·.point)

/-- A round of `spinlock::lock`: `state_.exchange(locked)`, and again if it was locked. -/
def lock (t : Threads) (i : Nat) (point : Point) : Threads :=
  if t.locked then t else { t with locked := true }.move i point

/-- An access to `state_` or the vector, by a thread at a point. -/
def access (t : Threads) (i : Nat) : Point → Option (Except Fault Threads)
  | .outside .entered => some (.ok (t.lock i .asking))
  | .outside (.releasing conn) => some (.ok (t.lock i (.pushing conn)))
  | .outside _ => none
  | .asking => some (.ok (t.move i (if t.pool = [] then .unlocking none else .reading)))
  | .reading =>
      match t.pool.getLast? with
      | some conn => some (.ok (t.move i (.popping conn)))
      | none => some (.error .undefinedBehaviour)
  | .popping conn =>
      if t.pool = [] then some (.error .undefinedBehaviour)
      else some (.ok ({ t with pool := t.pool.dropLast }.move i (.unlocking (some conn))))
  | .unlocking none => some (.ok ({ t with locked := false }.move i (.outside .empty)))
  | .unlocking (some conn) => some (.ok ({ t with locked := false }.move i (.outside (.popped conn))))
  | .pushing conn => some (.ok ({ t with pool := t.pool ++ [conn] }.move i (.leaving conn)))
  | .leaving _ => some (.ok ({ t with locked := false }.leave i))

/-- One access or call; `none` when the thread is not there. -/
def step (pool : Pool) (t : Threads) : ThreadAction → Option (Except Fault Threads)
  | .enter =>
      some (.ok { t with
        threads := t.threads ++ [⟨t.nextThread, .outside .entered⟩], nextThread := t.nextThread + 1 })
  | .tick now => some (.ok { t with now := now })
  | .access i => (t.pointAt i).bind (t.access i)
  | .connect i succeeds =>
      match t.pointAt i with
      | some (.outside .empty) =>
          some (.ok
            (if succeeds then
              { t with nextConn := t.nextConn + 1 }.move i (.outside (.holds ⟨t.nextConn, t.now, false⟩))
            else t.leave i))
      | _ => none
  | .check i alive succeeds =>
      match t.pointAt i with
      | some (.outside (.popped conn)) =>
          if pool.expired t.now conn && !alive then
            some (.ok
              (if succeeds then
                { t with nextConn := t.nextConn + 1 }.move i (.outside (.holds ⟨t.nextConn, t.now, true⟩))
              else t.leave i))
          else some (.ok (t.move i (.outside (.holds conn))))
      | _ => none
  | .release i =>
      match t.pointAt i with
      | some (.outside (.holds conn)) =>
          if !conn.pooled then some (.ok (t.leave i))
          else some (.ok (t.move i (.outside (.releasing { conn with released := t.now }))))
      | _ => none

/-- Steps one after another, up to one that is undefined. -/
def run (pool : Pool) (t : Threads) : List ThreadAction → Option (Except Fault Threads)
  | [] => some (.ok t)
  | a :: actions =>
      (t.step pool a).bind fun result =>
        match result with
        | .ok t => t.run pool actions
        | .error fault => some (.error fault)

end Threads

end Waspp.Checkout
