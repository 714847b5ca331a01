/-
Module: Waspp.Proofs.PoolSections
Layer: Proofs
Purpose: Why a get and a release may be taken as one step each under the lock.  In any order of the single
  accesses of any number of threads at most one is between lock and unlock (`Guarded`), no access is
  undefined, and what a section does to the vector is a step of the pool at its unlock: every run of the
  threads is a run of `Checkout` (`threads_refine_pool`).  So a thread has alone what its get returned
  (`threads_apart`), and whoever has the lock can release it (`lock_released`).
Imports: Waspp.Foundation.Exclusion, Waspp.Model.PoolThreads, Waspp.Proofs.RedisReplies
Trusted boundary: none (fully proved)
Main exports: Point.inside, Point.Sees, Simulates, simulates_access, threads_step, threads_run,
  threads_refine_pool, threads_apart, lock_released
Open obligations: none
-/
import Waspp.Foundation.Exclusion
import Waspp.Model.PoolThreads
import Waspp.Proofs.RedisReplies

namespace Waspp.Checkout

open Exclusion

/-- Between lock and unlock. -/
def Point.inside : Point → Bool
  | .outside _ => false
  | .asking => true
  | .reading => true
  | .popping _ => true
  | .unlocking _ => true
  | .pushing _ => true
  | .leaving _ => true

/-- Where a client is as long as its section is not over. -/
def Point.phase : Point → Phase
  | .outside phase => phase
  | .asking => .entered
  | .reading => .entered
  | .popping _ => .entered
  | .unlocking _ => .entered
  | .pushing conn => .releasing conn
  | .leaving conn => .releasing conn

def Thread.client (thread : Thread) : Client := ⟨thread.number, thread.point.phase⟩

/-- What a thread knows of the vector, from the connections that were idle when it got the lock. -/
def Point.Sees (idle vector : List Conn) : Point → Prop
  | .outside _ => vector = idle
  | .asking => vector = idle
  | .reading => vector = idle ∧ idle ≠ []
  | .popping conn => vector = idle ∧ idle.getLast? = some conn
  | .unlocking none => vector = idle ∧ idle = []
  | .unlocking (some conn) => vector = idle.dropLast ∧ idle.getLast? = some conn
  | .pushing _ => vector = idle
  | .leaving conn => vector = idle ++ [conn]

/-- The threads are the clients of a pool whose idle connections are those of the last unlock. -/
structure Simulates (t : Threads) (s : System) : Prop where
  clients : s.clients = t.threads.map Thread.client
  now : s.now = t.now
  nextConn : s.nextConn = t.nextConn
  nextClient : s.nextClient = t.nextThread
  guarded : Guarded (fun thread : Thread => thread.point.inside) t.locked t.threads
  unlocked : t.locked = false → t.pool = s.idle
  sees : ∀ thread ∈ t.threads, thread.point.inside = true → thread.point.Sees s.idle t.pool

variable {pool : Pool} {t : Threads} {s : System} {i : Nat}

/-- The point of a thread, and the thread. -/
theorem pointAt_eq {point : Point} (at_ : t.pointAt i = some point) :
    ∃ thread, t.threads[i]? = some thread ∧ thread.point = point :=
  Option.map_eq_some_iff.mp at_

/-- A thread is in the phase that its point stands for. -/
theorem Simulates.phaseAt (sim : Simulates t s) {point : Point} (at_ : t.pointAt i = some point) :
    s.phaseAt i = some point.phase := by
  obtain ⟨thread, here, rfl⟩ := pointAt_eq at_
  rw [System.phaseAt, sim.clients, List.getElem?_map, here]
  rfl

/-- Moving a thread moves its client. -/
theorem map_client_modify (threads : List Thread) (i : Nat) (point : Point) :
    (threads.modify i fun thread => { thread with point := point }).map Thread.client =
      (threads.map Thread.client).modify i fun client => { client with phase := point.phase } := by
  apply List.ext_getElem?
  intro j
  simp only [List.getElem?_map, List.getElem?_modify]
  cases threads[j]? with
  | none => rfl
  | some thread =>
      simp only [Option.map_eq_map, Option.map_some]
      split <;> rfl

/-- The clients of a thread that moves on. -/
theorem Simulates.clients_move (sim : Simulates t s) (i : Nat) (point : Point) :
    (s.move i point.phase).clients = (t.move i point).threads.map Thread.client := by
  rw [System.move, Threads.move, map_client_modify, sim.clients]

/-- A thread that leaves is a client that leaves. -/
theorem Simulates.clients_leave (sim : Simulates t s) (i : Nat) :
    (s.leave i).clients = (t.leave i).threads.map Thread.client := by
  rw [System.leave, Threads.leave, sim.clients]
  exact List.eraseIdx_map ..

/-! ### What becomes of the relation

How each kind of access moves both sides: one that is no section's end leaves the pool alone, and the last
one in a section is the step of the pool. -/

/-- A thread that moves is at its new point, the others stay. -/
theorem mem_modify {threads : List Thread} {thread : Thread} (here : threads[i]? = some thread)
    (point : Point)
    {other : Thread} (member : other ∈ threads.modify i fun thread => { thread with point := point }) :
    other = { thread with point := point } ∨ other ∈ threads.eraseIdx i :=
  List.mem_cons.mp ((modify_perm_cons_eraseIdx here _).subset member)

/-- A thread goes into the section, on in it or out of it. -/
theorem Simulates.crosses (sim : Simulates t s) {point next : Point} (at_ : t.pointAt i = some point)
    (may : point.inside = true ∨ t.locked = false) {t' : Threads} {s' : System}
    (threads : t'.threads = (t.move i next).threads) (clients : s'.clients = (s.move i next.phase).clients)
    (now : s'.now = t'.now) (nextConn : s'.nextConn = t'.nextConn)
    (nextClient : s'.nextClient = t'.nextThread)
    (locked : t'.locked = next.inside) (sees : next.Sees s'.idle t'.pool) : Simulates t' s' := by
  obtain ⟨thread, here, rfl⟩ := pointAt_eq at_
  refine ⟨by rw [clients, threads, sim.clients_move], now, nextConn, nextClient, ?_, ?_, ?_⟩
  · rw [locked, threads]
    exact sim.guarded.modify here may _
  · intro clear
    rw [locked] at clear
    cases next with
    | outside phase => exact sees
    | asking | reading | popping conn | unlocking taken | pushing conn | leaving conn => cases clear
  · intro other member inside
    rw [threads] at member
    rcases mem_modify here next member with rfl | member
    · exact sees
    · rw [sim.guarded.others here may other member] at inside
      cases inside

/-- A thread outside goes on outside. -/
theorem Simulates.outer (sim : Simulates t s) {phase next : Phase}
    (at_ : t.pointAt i = some (.outside phase))
    {t' : Threads} {s' : System} (threads : t'.threads = (t.move i (.outside next)).threads)
    (clients : s'.clients = (s.move i next).clients) (now : s'.now = t'.now)
    (nextConn : s'.nextConn = t'.nextConn)
    (nextClient : s'.nextClient = t'.nextThread) (locked : t'.locked = t.locked) (vector : t'.pool = t.pool)
    (idle : s'.idle = s.idle) : Simulates t' s' := by
  obtain ⟨thread, here, out⟩ := pointAt_eq at_
  refine ⟨?_, now, nextConn, nextClient, ?_, ?_, ?_⟩
  · rw [clients, threads]
    exact sim.clients_move i (.outside next)
  · rw [locked, threads]
    exact sim.guarded.modify_same here (by rw [out]; rfl)
  · rw [locked, vector, idle]
    exact sim.unlocked
  · intro other member inside
    rw [vector, idle]
    rw [threads] at member
    rcases mem_modify here (.outside next) member with rfl | member
    · cases inside
    · exact sim.sees other (List.mem_of_mem_eraseIdx member) inside

/-- A thread is done. -/
theorem Simulates.done (sim : Simulates t s) {point : Point} (at_ : t.pointAt i = some point) {t' : Threads}
    {s' : System} (threads : t'.threads = (t.leave i).threads) (clients : s'.clients = (s.leave i).clients)
    (now : s'.now = t'.now) (nextConn : s'.nextConn = t'.nextConn)
    (nextClient : s'.nextClient = t'.nextThread) (locked : t'.locked = (t.locked && !point.inside))
    (kept : point.inside = true ∧ t'.pool = s'.idle ∨ point.inside = false ∧ t'.pool = t.pool ∧
      s'.idle = s.idle) :
    Simulates t' s' := by
  obtain ⟨thread, here, rfl⟩ := pointAt_eq at_
  refine ⟨by rw [clients, threads, sim.clients_leave], now, nextConn, nextClient, ?_, ?_, ?_⟩
  · rw [locked, threads]
    exact sim.guarded.eraseIdx here
  · intro clear
    rcases kept with ⟨-, same⟩ | ⟨outside, vector, idle⟩
    · exact same
    · rw [locked, outside, Bool.not_false, Bool.and_true] at clear
      rw [vector, idle]
      exact sim.unlocked clear
  · intro other member inside
    rw [threads] at member
    rcases kept with ⟨in_, -⟩ | ⟨-, vector, idle⟩
    · rw [sim.guarded.others here (.inl in_) other member] at inside
      cases inside
    · rw [vector, idle]
      exact sim.sees other (List.mem_of_mem_eraseIdx member) inside

/-- Whoever is inside has the lock. -/
theorem Simulates.locked (sim : Simulates t s) {point : Point} (at_ : t.pointAt i = some point)
    (inside : point.inside = true) : t.locked = true := by
  obtain ⟨thread, here, rfl⟩ := pointAt_eq at_
  cases flag : t.locked with
  | true => rfl
  | false =>
      have guarded := sim.guarded
      rw [flag] at guarded
      have none := List.countP_eq_zero.mp guarded thread (List.mem_of_getElem? here)
      exact absurd inside none

/-- Within a section a thread sees the queue as it is. -/
theorem Simulates.seesAt (sim : Simulates t s) {point : Point} (at_ : t.pointAt i = some point)
    (inside : point.inside = true) : point.Sees s.idle t.pool := by
  obtain ⟨thread, here, rfl⟩ := pointAt_eq at_
  exact sim.sees thread (List.mem_of_getElem? here) inside

/-- A client that stays in its phase changes nothing. -/
theorem move_self (s : System) {phase : Phase} (at_ : s.phaseAt i = some phase) :
    (s.move i phase).clients = s.clients := by
  obtain ⟨client, here, rfl⟩ := Option.map_eq_some_iff.mp at_
  apply List.ext_getElem?
  intro j
  rw [System.move, List.getElem?_modify]
  by_cases same : i = j
  · subst same
    simp [here]
  · simp [same]

/-- The pool of clients does nothing or one step. -/
def Follows (pool : Pool) (s s' : System) : Prop := s' = s ∨ ∃ a, step pool s a = some s'

/-- A step within a section is not seen from outside. -/
theorem Simulates.within (sim : Simulates t s) {point : Point} (at_ : t.pointAt i = some point)
    (may : point.inside = true ∨ t.locked = false) (next : Point) (phase : next.phase = point.phase)
    (inside : next.inside = true) {vector : List Conn} (sees : next.Sees s.idle vector) :
    ∃ s', Follows pool s s' ∧ Simulates ({ t with pool := vector, locked := true }.move i next) s' := by
  refine ⟨s, .inl rfl, sim.crosses at_ may rfl ?_ sim.now sim.nextConn sim.nextClient inside.symm sees⟩
  rw [phase]
  exact (move_self s (sim.phaseAt at_)).symm

/-- A round of `spinlock::lock`. -/
theorem simulates_lock (sim : Simulates t s) {phase : Phase} (at_ : t.pointAt i = some (.outside phase))
    {next : Point} (same : next.phase = phase) (inside : next.inside = true)
    (sees : ∀ idle, next.Sees idle idle) : ∃ s', Follows pool s s' ∧ Simulates (t.lock i next) s' := by
  unfold Threads.lock
  cases locked : t.locked with
  | true => exact ⟨s, .inl rfl, sim⟩
  | false =>
      have idle : t.pool = s.idle := sim.unlocked locked
      exact sim.within at_ (.inr locked) next same inside (by rw [idle]; exact sees s.idle)

/-- An access to the lock or the vector is defined, and a step of the pool or none. -/
theorem simulates_access (sim : Simulates t s) {point : Point} (at_ : t.pointAt i = some point)
    {result : Except Fault Threads} (stepped : t.access i point = some result) :
    ∃ t', result = .ok t' ∧ ∃ s', Follows pool s s' ∧ Simulates t' s' := by
  have client := sim.phaseAt at_
  have whole (inside : point.inside = true) : t = { t with locked := true } := by
    rw [← sim.locked at_ inside]
  cases point with
  | outside phase =>
      cases phase with
      | entered =>
          cases stepped
          exact ⟨_, rfl, simulates_lock sim at_ rfl rfl fun _ => rfl⟩
      | releasing conn =>
          cases stepped
          exact ⟨_, rfl, simulates_lock sim at_ rfl rfl fun _ => rfl⟩
      | empty | popped conn | holds conn => cases stepped
  | asking =>
      have vector : t.pool = s.idle := sim.seesAt at_ rfl
      cases stepped
      refine ⟨_, rfl, ?_⟩
      rw [whole rfl]
      split
      · next none => exact sim.within at_ (.inl rfl) (.unlocking Option.none) rfl rfl ⟨vector,
          vector.symm.trans none⟩
      · next some => exact sim.within at_ (.inl rfl) .reading rfl rfl ⟨vector,
          fun none => some (vector.trans none)⟩
  | reading =>
      obtain ⟨vector, some⟩ := sim.seesAt at_ rfl
      rw [Threads.access, vector] at stepped
      cases last : s.idle.getLast? with
      | none => exact absurd (List.getLast?_eq_none_iff.mp last) some
      | some conn =>
          rw [last] at stepped
          cases stepped
          refine ⟨_, rfl, ?_⟩
          rw [whole rfl]
          exact sim.within at_ (.inl rfl) (.popping conn) rfl rfl ⟨vector, last⟩
  | popping conn =>
      obtain ⟨vector, last⟩ := sim.seesAt at_ rfl
      have some : t.pool ≠ [] := by
        intro none
        rw [← vector, none] at last
        cases last
      rw [Threads.access, if_neg some] at stepped
      cases stepped
      refine ⟨_, rfl, ?_⟩
      rw [whole rfl]
      exact sim.within at_ (.inl rfl) (.unlocking (Option.some conn)) rfl rfl ⟨by rw [vector], last⟩
  | unlocking taken =>
      cases taken with
      | none =>
          obtain ⟨vector, none⟩ := sim.seesAt at_ rfl
          cases stepped
          refine ⟨_, rfl, s.move i .empty, .inr ⟨.lock i, ?_⟩, ?_⟩
          · simp [step, client, Point.phase, none]
          · exact sim.crosses at_ (.inl rfl) rfl rfl sim.now sim.nextConn sim.nextClient rfl vector
      | some conn =>
          obtain ⟨vector, last⟩ := sim.seesAt at_ rfl
          cases stepped
          refine ⟨_, rfl, { s with idle := s.idle.dropLast }.move i (.popped conn), .inr ⟨.lock i, ?_⟩, ?_⟩
          · simp [step, client, Point.phase, last]
          · exact sim.crosses at_ (.inl rfl) rfl rfl sim.now sim.nextConn sim.nextClient rfl vector
  | pushing conn =>
      have vector : t.pool = s.idle := sim.seesAt at_ rfl
      cases stepped
      refine ⟨_, rfl, ?_⟩
      rw [whole rfl]
      exact sim.within at_ (.inl rfl) (.leaving conn) rfl rfl (by rw [Point.Sees, vector])
  | leaving conn =>
      have vector : t.pool = s.idle ++ [conn] := sim.seesAt at_ rfl
      cases stepped
      refine ⟨_, rfl, { s with idle := s.idle ++ [conn] }.leave i, .inr ⟨.push i, ?_⟩, ?_⟩
      · simp [step, client, Point.phase]
      · exact sim.done at_ rfl rfl sim.now sim.nextConn sim.nextClient
          (by simp [Threads.leave, Point.inside]) (.inl ⟨rfl, vector⟩)

/-- Both sides make one connection. -/
theorem Simulates.made (sim : Simulates t s) (pooled : Bool) :
    s.made pooled = ⟨t.nextConn, t.now, pooled⟩ := by
  rw [System.made, sim.nextConn, sim.now]

/-- A thread that leaves from outside. -/
theorem Simulates.gone (sim : Simulates t s) {phase : Phase} (at_ : t.pointAt i = some (.outside phase)) :
    Simulates (t.leave i) (s.leave i) :=
  sim.done at_ rfl rfl sim.now sim.nextConn sim.nextClient (by simp [Threads.leave, Point.inside])
    (.inr ⟨rfl, rfl, rfl⟩)

/-- A thread outside that has made a connection. -/
theorem Simulates.makes (sim : Simulates t s) {phase : Phase} (at_ : t.pointAt i = some (.outside phase))
    (pooled : Bool) :
    Simulates ({ t with nextConn := t.nextConn + 1 }.move i (.outside (.holds ⟨t.nextConn, t.now, pooled⟩)))
      ((s.withMade pooled).move i (.holds (s.made pooled))) := by
  rw [sim.made pooled]
  exact sim.outer at_ rfl rfl sim.now (congrArg (· + 1) sim.nextConn) sim.nextClient rfl rfl rfl

/-- What a thread does next is defined, and a step of the pool or none. -/
theorem threads_step (sim : Simulates t s) {a : ThreadAction} {result : Except Fault Threads}
    (stepped : t.step pool a = some result) :
    ∃ t', result = .ok t' ∧ ∃ s', Follows pool s s' ∧ Simulates t' s' := by
  cases a with
  | enter =>
      cases stepped
      refine ⟨_, rfl,
        { s with clients := s.clients ++ [⟨s.nextClient, .entered⟩], nextClient := s.nextClient + 1 },
        .inr ⟨.enter, rfl⟩, ?_, sim.now, sim.nextConn, congrArg (· + 1) sim.nextClient, ?_, sim.unlocked, ?_⟩
      · rw [List.map_append, sim.clients, sim.nextClient]
        rfl
      · exact sim.guarded.append rfl
      · intro thread member inside
        rcases List.mem_append.mp member with old | new
        · exact sim.sees thread old inside
        · rw [List.mem_singleton.mp new] at inside
          cases inside
  | tick now =>
      cases stepped
      exact ⟨_, rfl, { s with now := now }, .inr ⟨.tick now, rfl⟩, sim.clients, rfl, sim.nextConn,
        sim.nextClient, sim.guarded, sim.unlocked, sim.sees⟩
  | access i =>
      obtain ⟨point, at_, accessed⟩ := Option.bind_eq_some_iff.mp stepped
      exact simulates_access sim at_ accessed
  | connect i succeeds =>
      simp only [Threads.step] at stepped
      split at stepped
      · next at_ =>
          have client := sim.phaseAt at_
          cases succeeds with
          | true =>
              cases stepped
              refine ⟨_, rfl, _, .inr ⟨.connect i true, ?_⟩, sim.makes at_ false⟩
              simp [step, client, Point.phase]
          | false =>
              cases stepped
              refine ⟨_, rfl, _, .inr ⟨.connect i false, ?_⟩, sim.gone at_⟩
              simp [step, client, Point.phase]
      · cases stepped
  | check i alive succeeds =>
      simp only [Threads.step] at stepped
      split at stepped
      · next conn at_ =>
          have client := sim.phaseAt at_
          split at stepped
          · next dead =>
              rw [← sim.now] at dead
              cases succeeds with
              | true =>
                  cases stepped
                  refine ⟨_, rfl, _, .inr ⟨.check i alive true, ?_⟩, sim.makes at_ true⟩
                  simp only [step, client, Point.phase, dead, if_true]
              | false =>
                  cases stepped
                  refine ⟨_, rfl, _, .inr ⟨.check i alive false, ?_⟩, sim.gone at_⟩
                  simp only [step, client, Point.phase, dead, if_true, Bool.false_eq_true, if_false]
          · next kept =>
              rw [← sim.now] at kept
              cases stepped
              refine ⟨_, rfl, s.move i (.holds conn), .inr ⟨.check i alive succeeds, ?_⟩,
                sim.outer at_ rfl rfl sim.now sim.nextConn sim.nextClient rfl rfl rfl⟩
              simp only [step, client, Point.phase, kept, Bool.false_eq_true, if_false]
      · cases stepped
  | release i =>
      simp only [Threads.step] at stepped
      split at stepped
      · next conn at_ =>
          have client := sim.phaseAt at_
          split at stepped
          · next beside =>
              cases stepped
              refine ⟨_, rfl, _, .inr ⟨.release i, ?_⟩, sim.gone at_⟩
              simp only [step, client, Point.phase, beside, if_true]
          · next pooled =>
              cases stepped
              refine ⟨_, rfl, { s with lastUsed := Function.update s.lastUsed conn.id s.now }.move i
                (.releasing { conn with released := s.now }), .inr ⟨.release i, ?_⟩, ?_⟩
              · simp only [step, client, Point.phase, pooled, Bool.false_eq_true, if_false]
              · rw [sim.now]
                exact sim.outer at_ rfl rfl rfl sim.nextConn sim.nextClient rfl rfl rfl
      · cases stepped

/-! ### Runs

From a filled pool every run of the threads is defined and stays related to a state that the pool reaches. -/

/-- The starts are related. -/
theorem simulates_start (idle : List Conn) (now : Int) : Simulates (.start idle now) (.start idle now) :=
  ⟨rfl, rfl, rfl, rfl, rfl, fun _ => rfl, nofun⟩

/-- Whatever the threads do is defined, and a run of the pool. -/
theorem threads_run (reached : Reachable pool s) (sim : Simulates t s) {actions : List ThreadAction}
    {result : Except Fault Threads} (ran : t.run pool actions = some result) :
    ∃ t', result = .ok t' ∧ ∃ s', Reachable pool s' ∧ Simulates t' s' := by
  induction actions generalizing t s with
  | nil =>
      cases ran
      exact ⟨t, rfl, s, reached, sim⟩
  | cons a actions ih =>
      obtain ⟨first, stepped, rest⟩ := Option.bind_eq_some_iff.mp ran
      obtain ⟨next, rfl, s', follows, still⟩ := threads_step sim stepped
      rcases follows with rfl | ⟨b, went⟩
      · exact ih reached still rest
      · exact ih (reached.step went) still rest

/-- Two threads at a pool of one connection: the second finds the lock taken twice, then no connection. -/
def twoThreads : List ThreadAction :=
  [.enter, .enter, .access 0, .access 1, .access 0, .access 0, .access 1, .access 0, .access 0, .access 1,
    .check 0 true true, .access 1, .access 1, .connect 1 true, .release 0, .access 0, .access 0]

theorem twoThreads_run : (Threads.start [⟨0, 0, true⟩] 0).run ⟨1, 10⟩ twoThreads = some (.ok
    { pool := [⟨0, 0, true⟩], locked := true, now := 0, nextConn := 2, nextThread := 2,
      threads := [⟨0, .leaving ⟨0, 0, true⟩⟩, ⟨1, .outside (.holds ⟨1, 0, false⟩)⟩] }) := by
  decide +kernel

/-- From a pool that was filled, no order of the accesses of any threads comes to an undefined one, and each
    is a run of the pool in which everything under the lock is one step. -/
theorem threads_refine_pool {dial : Dial} {idle : List Conn} (filled : fillPool pool dial = some idle)
    (now : Int) {actions : List ThreadAction} {result : Except Fault Threads}
    (ran : (Threads.start idle now).run pool actions = some result) :
    ∃ t', result = .ok t' ∧ ∃ s', Reachable pool s' ∧ Simulates t' s' :=
  threads_run (.start filled now) (simulates_start idle now) ran

theorem threads_refine_pool_two :
    ∃ result, (Threads.start [⟨0, 0, true⟩] 0).run ⟨1, 10⟩ twoThreads = some result ∧
    ∃ t', result = .ok t' ∧ ∃ s', Reachable ⟨1, 10⟩ s' ∧ Simulates t' s' := by
  have filled : fillPool ⟨1, 10⟩ (fun _ => some (0, true)) = some [⟨0, 0, true⟩] := rfl
  exact ⟨_, twoThreads_run, threads_refine_pool filled 0 twoThreads_run⟩

/-- What is in the vector was idle, or its release is about to unlock. -/
theorem Simulates.mem_pool (sim : Simulates t s) {conn : Conn} (member : conn ∈ t.pool) :
    conn ∈ s.idle ∨ ∃ j, t.pointAt j = some (.leaving conn) := by
  cases flag : t.locked with
  | false => exact .inl (sim.unlocked flag ▸ member)
  | true =>
      have one : 0 < t.threads.countP fun thread => thread.point.inside := by
        rw [sim.guarded, flag]
        decide
      obtain ⟨thread, there, inside⟩ := List.countP_pos_iff.mp one
      obtain ⟨j, here⟩ := List.mem_iff_getElem?.mp there
      have at_ : t.pointAt j = some thread.point := by rw [Threads.pointAt, here]; rfl
      have sees := sim.sees thread there inside
      cases point : thread.point with
      | outside phase =>
          rw [point] at inside
          cases inside
      | asking | pushing other =>
          rw [point] at sees
          exact .inl (sees ▸ member)
      | reading | popping other =>
          rw [point] at sees
          exact .inl (sees.1 ▸ member)
      | unlocking taken =>
          rw [point] at sees
          cases taken with
          | none => exact .inl (sees.1 ▸ member)
          | some other => exact .inl (List.mem_of_mem_dropLast (sees.1 ▸ member))
      | leaving other =>
          rw [point] at sees at_
          rw [show t.pool = s.idle ++ [other] from sees] at member
          rcases List.mem_append.mp member with old | new
          · exact .inl old
          · exact .inr ⟨j, by rw [List.mem_singleton.mp new]; exact at_⟩

/-- A connection that a client has is not idle, and no other client has it. -/
theorem alone_of_phase (sound : Sound pool s) {phase : Phase} {conn : Conn} (at_ : s.phaseAt i = some phase)
    (has : phase.conn = some conn) : (∀ other ∈ s.idle, other.id ≠ conn.id) ∧
      ∀ j other phase', s.phaseAt j = some phase' → phase'.conn = some other → j ≠ i →
        other.id ≠ conn.id := by
  have distinct : ((s.idle ++ (conn :: (s.leave i).held)).map (·.id)).Nodup := by
    have held := (held_split at_).1
    rw [has] at held
    exact ((held.append_left s.idle).map _).nodup sound.kept.distinct
  rw [List.map_append, List.nodup_append, List.map_cons, List.nodup_cons] at distinct
  obtain ⟨-, ⟨none, -⟩, apart⟩ := distinct
  constructor
  · intro other member
    exact apart _ (List.mem_map_of_mem member) _ List.mem_cons_self
  · intro j other phase' there has' differ same
    obtain ⟨client, here, rfl⟩ := Option.map_eq_some_iff.mp there
    apply none
    rw [← same]
    refine List.mem_map_of_mem (List.mem_filterMap.mpr ⟨client, ?_, has'⟩)
    exact List.mem_eraseIdx_iff_getElem?.mpr ⟨j, differ, here⟩

/-- In any order of the accesses, at most one thread is between lock and unlock, and a connection that a get
    has returned is in the vector no more, and with no other thread until it is released. -/
theorem threads_apart {dial : Dial} {idle : List Conn} (filled : fillPool pool dial = some idle) (now : Int)
    {actions : List ThreadAction} (ran : (Threads.start idle now).run pool actions = some (.ok t)) :
    (∀ i j point point', t.pointAt i = some point → t.pointAt j = some point' → point.inside = true →
      point'.inside = true → i = j) ∧
    ∀ i conn, t.pointAt i = some (.outside (.holds conn)) → (∀ other ∈ t.pool, other.id ≠ conn.id) ∧
      ∀ j other, t.pointAt j = some (.outside (.holds other)) → j ≠ i → other.id ≠ conn.id := by
  obtain ⟨t', same, s, reached, sim⟩ := threads_run (.start filled now) (simulates_start idle now) ran
  cases same
  constructor
  · intro i j point point' here there inside inside'
    obtain ⟨thread, at_, rfl⟩ := pointAt_eq here
    obtain ⟨other, at', rfl⟩ := pointAt_eq there
    exact sim.guarded.sole at_ at' inside inside'
  · intro i conn here
    obtain ⟨idle, others⟩ := alone_of_phase (reachable_sound reached) (sim.phaseAt here) rfl
    refine ⟨fun other member => ?_,
      fun j other there differ => others j other _ (sim.phaseAt there) rfl differ⟩
    rcases sim.mem_pool member with old | ⟨j, there⟩
    · exact idle other old
    · refine others j other _ (sim.phaseAt there) rfl ?_
      rintro rfl
      rw [here] at there
      cases there

/-- While the first one unlocks behind its push, the second has the connection that was made beside the pool.
    -/
theorem threads_apart_two : ∃ t, (Threads.start [⟨0, 0, true⟩] 0).run ⟨1, 10⟩ twoThreads = some (.ok t) ∧
    t.pointAt 1 = some (.outside (.holds ⟨1, 0, false⟩)) ∧ ∀ other ∈ t.pool, other.id ≠ 1 := by
  have filled : fillPool ⟨1, 10⟩ (fun _ => some (0, true)) = some [⟨0, 0, true⟩] := rfl
  exact ⟨_, twoThreads_run, rfl, ((threads_apart filled 0 twoThreads_run).2 1 _ rfl).1⟩

/-! ### The lock is released

From every point within a section there is a bounded way out of it, without another thread's help. -/

/-- The accesses of a thread until the lock is released, at most. -/
def Point.left : Point → Nat
  | .outside _ => 0
  | .asking => 4
  | .reading => 3
  | .popping _ => 2
  | .unlocking _ => 1
  | .pushing _ => 2
  | .leaving _ => 1

/-- A thread that moves is at its new point. -/
theorem pointAt_move {point : Point} (at_ : t.pointAt i = some point) (next : Point) :
    (t.move i next).pointAt i = some next := by
  obtain ⟨thread, here, -⟩ := pointAt_eq at_
  simp [Threads.pointAt, Threads.move, here]

/-- The thread that has the lock can go on, to the release or nearer to it. -/
theorem access_nearer (pool : Pool) (sim : Simulates t s) {point : Point} (at_ : t.pointAt i = some point)
    (inside : point.inside = true) : ∃ t', t.step pool (.access i) = some (.ok t') ∧
      (t'.locked = false ∨ ∃ next, t'.pointAt i = some next ∧ next.inside = true ∧
        next.left < point.left) := by
  have sees := sim.seesAt at_ inside
  have accessed : t.step pool (.access i) = t.access i point := by rw [Threads.step, at_, Option.bind_some]
  rw [accessed]
  cases point with
  | outside phase => cases inside
  | asking =>
      refine ⟨_, rfl, .inr ⟨_, pointAt_move at_ _, ?_⟩⟩
      split <;> exact ⟨rfl, by decide⟩
  | reading =>
      obtain ⟨vector, some⟩ := sees
      cases last : s.idle.getLast? with
      | none => exact absurd (List.getLast?_eq_none_iff.mp last) some
      | some conn =>
          refine ⟨t.move i (.popping conn), ?_, .inr ⟨_, pointAt_move at_ _, rfl, Nat.lt_succ_self 2⟩⟩
          rw [Threads.access, vector, last]
  | popping conn =>
      obtain ⟨vector, last⟩ := sees
      have some : t.pool ≠ [] := by
        intro none
        rw [← vector, none] at last
        cases last
      refine ⟨_, if_neg some, .inr ⟨.unlocking (Option.some conn), ?_, rfl, Nat.lt_succ_self 1⟩⟩
      exact pointAt_move (t := { t with pool := t.pool.dropLast }) at_ _
  | unlocking taken => cases taken <;> exact ⟨_, rfl, .inl rfl⟩
  | pushing conn =>
      refine ⟨_, rfl, .inr ⟨.leaving conn, ?_, rfl, Nat.lt_succ_self 1⟩⟩
      exact pointAt_move (t := { t with pool := t.pool ++ [conn] }) at_ _
  | leaving conn => exact ⟨_, rfl, .inl rfl⟩

/-- A thread in a section releases the lock within the accesses that are left. -/
theorem section_ends (pool : Pool) (sim : Simulates t s) {point : Point} (at_ : t.pointAt i = some point)
    (inside : point.inside = true) : ∃ n t', n ≤ point.left ∧
      t.run pool (List.replicate n (.access i)) = some (.ok t') ∧ t'.locked = false := by
  generalize size : point.left = k
  induction k using Nat.strongRecOn generalizing t s point with
  | ind k ih =>
      obtain ⟨next, stepped, clear | ⟨nearer, there, still, less⟩⟩ := access_nearer pool sim at_ inside
      · refine ⟨1, next, ?_, ?_, clear⟩
        · subst size
          cases point with
          | outside phase => cases inside
          | asking | reading | popping conn | unlocking taken | pushing conn | leaving conn =>
              simp [Point.left]
        · rw [List.replicate_one, Threads.run, stepped]
          rfl
      · obtain ⟨t', same, s', -, sim'⟩ := threads_step sim stepped
        cases same
        obtain ⟨n, last, few, ran, clear⟩ := ih _ (size ▸ less) sim' there still rfl
        refine ⟨n + 1, last, by omega, ?_, clear⟩
        rw [List.replicate_succ, Threads.run, stepped]
        exact ran

/-- Whenever the lock is taken, some thread releases it within four accesses of its own. -/
theorem lock_released {dial : Dial} {idle : List Conn} (filled : fillPool pool dial = some idle) (now : Int)
    {actions : List ThreadAction} (ran : (Threads.start idle now).run pool actions = some (.ok t))
    (locked : t.locked = true) : ∃ i n t', n ≤ 4 ∧
      t.run pool (List.replicate n (.access i)) = some (.ok t') ∧ t'.locked = false := by
  obtain ⟨t', same, s, reached, sim⟩ := threads_run (.start filled now) (simulates_start idle now) ran
  cases same
  have one : 0 < t.threads.countP fun thread => thread.point.inside := by
    rw [sim.guarded, locked]
    decide
  obtain ⟨thread, there, inside⟩ := List.countP_pos_iff.mp one
  obtain ⟨i, here⟩ := List.mem_iff_getElem?.mp there
  have at_ : t.pointAt i = some thread.point := by rw [Threads.pointAt, here]; rfl
  obtain ⟨n, last, few, run, clear⟩ := section_ends pool sim at_ inside
  refine ⟨i, n, last, few.trans ?_, run, clear⟩
  cases thread.point <;> simp [Point.left]

theorem lock_released_two :
    ∃ t i n t', (Threads.start [⟨0, 0, true⟩] 0).run ⟨1, 10⟩ twoThreads = some (.ok t) ∧
    n ≤ 4 ∧ t.run ⟨1, 10⟩ (List.replicate n (.access i)) = some (.ok t') ∧ t'.locked = false := by
  have filled : fillPool ⟨1, 10⟩ (fun _ => some (0, true)) = some [⟨0, 0, true⟩] := rfl
  obtain ⟨i, n, t', few, run, clear⟩ := lock_released filled 0 twoThreads_run rfl
  exact ⟨_, i, n, t', twoThreads_run, few, run, clear⟩

end Waspp.Checkout
