/-
Module: Waspp.Proofs.ServerStop
Layer: Proofs
Purpose: When a server can be stopped.  The one call of `do_await_stop` is the constructor's, so the first
  signal that arrives takes the only wait there is, and what its handler does then stands (`Awaiting`): any
  signal but SIGHUP stops the service, and SIGHUP leaves a service that no signal reaches any more.
Imports: Waspp.Model.Server
Trusted boundary: none (fully proved)
Main exports: AlwaysStoppable, StopsOnAnyOther, Awaiting, alwaysStoppable_iff, stoppable_iff
Open obligations: none
-/
import Waspp.Model.Server

namespace Waspp

open CString SignalSet

/-- While these signals arrive, a service that has not been stopped has a wait pending in every state. -/
def AlwaysStoppable (onSignal : Signal → SignalService → SignalService) (construct : SignalService)
    (signals : List Signal) : Prop :=
  ∀ delivered s, delivered <+: signals → Reaches onSignal construct delivered s →
    s.stopped = true ∨ s.Armed

/-- Once all of these signals have arrived and no handler is left to be called, a signal other than SIGHUP
    among them has stopped the service. -/
def StopsOnAnyOther (onSignal : Signal → SignalService → SignalService) (construct : SignalService)
    (signals : List Signal) : Prop :=
  ∀ s, Reaches onSignal construct signals s → s.Settled →
    (∃ signal ∈ signals, signal ≠ .sighup) → s.stopped = true

/-! ### The states of a server -/

/-- A service with the signals of both servers and one wait. -/
def awaitingOne : SignalService :=
  (addSignals { user := [] }).asyncWait

/-- What a server has come to when the signals have arrived: the first one has completed the wait, and its
    handler is to be called or has been; the others are queued. -/
def Awaiting (signals : List Signal) (s : SignalService) : Prop :=
  (∀ signal, signal ∈ s.registered) ∧
    match signals with
    | [] => s.waiting = 1 ∧ s.queued = [] ∧ s.ready = [] ∧ s.stopped = false
    | first :: rest =>
        s.waiting = 0 ∧ s.queued = rest ∧
          ((s.ready = [first] ∧ s.stopped = false) ∨
            (s.ready = [] ∧ (s.stopped = true ↔ first ≠ .sighup)))

/-- Every signal is in the set. -/
theorem mem_registered (signal : Signal) : signal ∈ awaitingOne.registered := by
  cases signal <;> decide

/-- The server waits when it has been constructed. -/
theorem awaiting_construct : Awaiting [] awaitingOne := by
  exact ⟨mem_registered, rfl, rfl, rfl, rfl⟩

/-- A delivery keeps the shape. -/
theorem Awaiting.deliver {signals : List Signal} {s : SignalService} (now : Awaiting signals s)
    (signal : Signal) : Awaiting (signals ++ [signal]) (s.deliver signal) := by
  obtain ⟨members, shape⟩ := now
  cases signals with
  | nil =>
      obtain ⟨pending, empty, unready, running⟩ := shape
      rw [Service.deliver_of_waiting (members signal) pending]
      exact ⟨members, rfl, empty, .inl ⟨by rw [unready, List.nil_append], running⟩⟩
  | cons first rest =>
      obtain ⟨taken, queue, handler⟩ := shape
      rw [Service.deliver_of_no_wait (members signal) taken]
      exact ⟨members, taken, congrArg (· ++ [signal]) queue, handler⟩

/-- So does a turn of the handler, which neither waits again nor stops the service on SIGHUP. -/
theorem Awaiting.turn {stopping : Bytes} {signals : List Signal} {s t : SignalService}
    (now : Awaiting signals s) (turned : s.turn (stopHandler stopping) = some t) : Awaiting signals t := by
  obtain ⟨members, shape⟩ := now
  obtain ⟨running, signal, later, ready, rfl⟩ := Service.turn_eq_some_iff.mp turned
  cases signals with
  | nil =>
      obtain ⟨-, -, unready, -⟩ := shape
      rw [unready] at ready
      cases ready
  | cons first rest =>
      obtain ⟨taken, queue, handler⟩ := shape
      rcases handler with ⟨isReady, -⟩ | ⟨unready, -⟩
      · rw [isReady] at ready
        obtain ⟨rfl, rfl⟩ := List.cons.inj ready
        by_cases hangup : first = .sighup
        · rw [stopHandler, if_pos hangup]
          exact ⟨members, taken, queue, .inr ⟨rfl, by simp [running, hangup]⟩⟩
        · rw [stopHandler, if_neg hangup]
          exact ⟨members, taken, queue, .inr ⟨rfl, by simp [hangup]⟩⟩
      · rw [unready] at ready
        cases ready

/-- Every state of a server has the shape. -/
theorem awaiting_of_reaches {stopping : Bytes} {signals : List Signal} {s : SignalService}
    (reached : Reaches (stopHandler stopping) awaitingOne signals s) : Awaiting signals s := by
  apply Reaches.invariant awaiting_construct ?_ ?_ reached
  · intro signals s signal now
    exact now.deliver signal
  · intro signals s t now turned
    exact now.turn turned

/-- The service that the handler of a first SIGHUP leaves. -/
def hungUp : SignalService :=
  { awaitingOne with waiting := 0 }

/-- After a first SIGHUP whose handler has been called, the service runs, waits for nothing, and queues
    whatever else arrives. -/
theorem reaches_unstoppable (stopping : Bytes) (rest : List Signal) :
    ∃ s, Reaches (stopHandler stopping) awaitingOne (Signal.sighup :: rest) s ∧
      s.stopped = false ∧ s.waiting = 0 ∧ s.ready = [] := by
  have delivered : Reaches (stopHandler stopping) awaitingOne [Signal.sighup]
      (awaitingOne.deliver .sighup) :=
    Reaches.deliver Signal.sighup .start
  have turned := delivered.turn (t := hungUp) (by rfl)
  have queued := turned.deliverAll rest
  rw [Service.foldl_deliver_of_no_wait (s := hungUp) (fun signal _ => mem_registered signal) rfl] at queued
  exact ⟨_, queued, rfl, rfl, rfl⟩

/-! ### When a server can be stopped -/

/-- A server can be stopped in every state unless the first signal is SIGHUP. -/
theorem alwaysStoppable_iff (stopping : Bytes) (signals : List Signal) :
    AlwaysStoppable (stopHandler stopping) awaitingOne signals ↔ signals.head? ≠ some Signal.sighup := by
  constructor
  · intro stoppable hangup
    obtain ⟨rest, rfl⟩ := List.head?_eq_some_iff.mp hangup
    obtain ⟨s, reached, running, idle, unready⟩ := reaches_unstoppable stopping rest
    rcases stoppable _ s (List.prefix_refl _) reached with stopped | pending | ready
    · simp [running] at stopped
    · omega
    · exact ready unready
  · intro other delivered s starts reached
    have shape := (awaiting_of_reaches reached).2
    cases delivered with
    | nil =>
        obtain ⟨pending, -⟩ := shape
        exact .inr (.inl (by omega))
    | cons first rest =>
        obtain ⟨-, -, handler⟩ := shape
        have not_hangup : first ≠ .sighup := by
          rintro rfl
          obtain ⟨later, rfl⟩ := starts
          exact other rfl
        rcases handler with ⟨ready, -⟩ | ⟨-, stops⟩
        · exact .inr (.inr (by simp [ready]))
        · exact .inl (stops.mpr not_hangup)

/-- It has been stopped by every sequence with another signal in it unless that sequence begins with SIGHUP.
    -/
theorem stopsOnAnyOther_iff (stopping : Bytes) (signals : List Signal) :
    StopsOnAnyOther (stopHandler stopping) awaitingOne signals ↔
      signals.head? ≠ some Signal.sighup ∨ ∀ signal ∈ signals, signal = Signal.sighup := by
  constructor
  · intro stops
    by_contra begins
    obtain ⟨hangup, other⟩ := not_or.mp begins
    obtain ⟨rest, rfl⟩ := List.head?_eq_some_iff.mp (not_not.mp hangup)
    obtain ⟨s, reached, running, idle, unready⟩ := reaches_unstoppable stopping rest
    have stopped := stops s reached (.inr unready) (by simpa using other)
    simp [running] at stopped
  · intro begins s reached settled other
    have shape := (awaiting_of_reaches reached).2
    cases signals with
    | nil => simp at other
    | cons first rest =>
        obtain ⟨-, -, handler⟩ := shape
        have not_hangup : first ≠ .sighup := by
          rintro rfl
          rcases begins with head | all
          · exact head rfl
          · obtain ⟨signal, member, different⟩ := other
            exact different (all signal member)
        rcases handler with ⟨ready, running⟩ | ⟨-, stops⟩
        · rcases settled with stopped | unready
          · simp [running] at stopped
          · simp [ready] at unready
        · exact stops.mpr not_hangup

/-- When `server` and `server_ssl` can be stopped: whenever the first signal is not SIGHUP, and then any
    other signal stops them. -/
theorem stoppable_iff (signals : List Signal) :
    ((AlwaysStoppable Server.onSignal Server.construct signals ↔ signals.head? ≠ some Signal.sighup) ∧
      (StopsOnAnyOther Server.onSignal Server.construct signals ↔
        signals.head? ≠ some Signal.sighup ∨ ∀ signal ∈ signals, signal = Signal.sighup)) ∧
    (AlwaysStoppable ServerSsl.onSignal ServerSsl.construct signals ↔ signals.head? ≠ some Signal.sighup) ∧
      (StopsOnAnyOther ServerSsl.onSignal ServerSsl.construct signals ↔
        signals.head? ≠ some Signal.sighup ∨ ∀ signal ∈ signals, signal = Signal.sighup) :=
  ⟨⟨alwaysStoppable_iff _ signals, stopsOnAnyOther_iff _ signals⟩, alwaysStoppable_iff _ signals,
    stopsOnAnyOther_iff _ signals⟩

/-- After SIGHUP and SIGTERM, a server and a server_ssl may still run, with no wait pending and no handler
    left to be called. -/
theorem hangup_disarms :
    (¬ AlwaysStoppable Server.onSignal Server.construct [.sighup, .sigterm] ∧
      ¬ StopsOnAnyOther Server.onSignal Server.construct [.sighup, .sigterm]) ∧
    ¬ AlwaysStoppable ServerSsl.onSignal ServerSsl.construct [.sighup, .sigterm] ∧
      ¬ StopsOnAnyOther ServerSsl.onSignal ServerSsl.construct [.sighup, .sigterm] := by
  have disarms (stopping : Bytes) :
      ¬ AlwaysStoppable (stopHandler stopping) awaitingOne [.sighup, .sigterm] ∧
      ¬ StopsOnAnyOther (stopHandler stopping) awaitingOne [.sighup, .sigterm] := by
    rw [alwaysStoppable_iff, stopsOnAnyOther_iff]
    decide
  exact ⟨disarms _, disarms _⟩

end Waspp
