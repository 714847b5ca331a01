/-
Module: Waspp.Foundation.SignalSet
Layer: Foundation
Purpose: Signals that are waited for one at a time.  A wait is completed by one signal and its handler is
  called once; a signal that no wait is there for is queued, and completes the next wait.  A service runs the
  handlers of completed waits, one after the other, until it is stopped.  What a handler does is a parameter.
  `Reaches` are the states of the service after a sequence of deliveries, the turns of the handlers coming
  anywhere in between, and `Reaches.invariant` is the induction over them.
Imports: Mathlib.Tactic.Basic
Trusted boundary: none (fully proved)
Main exports: Service, Service.add, Service.asyncWait, Service.deliver, Service.turn, Service.Armed,
  Service.Settled, Reaches, Reaches.invariant
Open obligations: none
-/
import Mathlib.Tactic.Basic

namespace SignalSet

/-- A service for the signals `σ`, with the data `α` that its handlers work on. -/
structure Service (σ α : Type*) where
  /-- The signals of the set. -/
  registered : List σ := []
  /-- The number of waits that no signal has completed. -/
  waiting : Nat := 0
  /-- The signals that found no wait, the oldest first. -/
  queued : List σ := []
  /-- The completed waits whose handler has not been called. -/
  ready : List σ := []
  /-- Once set, no handler is called. -/
  stopped : Bool := false
  user : α
deriving DecidableEq, Repr

namespace Service

variable {σ α : Type*}

/-- Put a signal into the set. -/
def add (s : Service σ α) (signal : σ) : Service σ α :=
  { s with registered := s.registered ++ [signal] }

/-- Wait for a signal; one that is queued completes the wait at once. -/
def asyncWait (s : Service σ α) : Service σ α :=
  match s.queued with
  | signal :: rest => { s with queued := rest, ready := s.ready ++ [signal] }
  | [] => { s with waiting := s.waiting + 1 }

/-- A signal arrives. -/
def deliver [DecidableEq σ] (s : Service σ α) (signal : σ) : Service σ α :=
  if signal ∈ s.registered then
    match s.waiting with
    | waiting + 1 => { s with waiting := waiting, ready := s.ready ++ [signal] }
    | 0 => { s with queued := s.queued ++ [signal] }
  else s

/-- The service calls a handler, when it runs and one is ready. -/
def turn (handler : σ → Service σ α → Service σ α) (s : Service σ α) : Option (Service σ α) :=
  match s.stopped, s.ready with
  | false, signal :: rest => some (handler signal { s with ready := rest })
  | _, _ => none

/-- A wait is pending: its handler has not been called. -/
def Armed (s : Service σ α) : Prop :=
  0 < s.waiting ∨ s.ready ≠ []

/-- No handler is left to be called. -/
def Settled (s : Service σ α) : Prop :=
  s.stopped = true ∨ s.ready = []

instance (s : Service σ α) : Decidable s.Armed := inferInstanceAs (Decidable (_ ∨ _))

/-- What a turn does. -/
theorem turn_eq_some_iff {handler : σ → Service σ α → Service σ α} {s t : Service σ α} :
    s.turn handler = some t ↔
      s.stopped = false ∧
        ∃ signal rest, s.ready = signal :: rest ∧ t = handler signal { s with ready := rest } := by
  constructor
  · intro turned
    unfold turn at turned
    split at turned
    case h_1 signal rest running ready =>
        cases turned
        exact ⟨running, signal, rest, ready, rfl⟩
    case h_2 => cases turned
  · rintro ⟨running, signal, rest, ready, rfl⟩
    simp only [turn, running, ready]

section Deliveries

variable [DecidableEq σ] {s : Service σ α}

/-- With a wait pending, a signal of the set completes it. -/
theorem deliver_of_waiting {signal : σ} (member : signal ∈ s.registered)
    {n : Nat} (pending : s.waiting = n + 1) :
    s.deliver signal = { s with waiting := n, ready := s.ready ++ [signal] } := by
  simp [deliver, member, pending]

/-- With no wait pending, a signal of the set is queued and nothing else. -/
theorem deliver_of_no_wait {signal : σ} (member : signal ∈ s.registered)
    (none_pending : s.waiting = 0) :
    s.deliver signal = { s with queued := s.queued ++ [signal] } := by
  simp [deliver, member, none_pending]

/-- So are all signals that follow. -/
theorem foldl_deliver_of_no_wait {signals : List σ} (members : ∀ signal ∈ signals, signal ∈ s.registered)
    (none_pending : s.waiting = 0) :
    signals.foldl deliver s = { s with queued := s.queued ++ signals } := by
  induction signals generalizing s with
  | nil => simp
  | cons signal rest ih =>
      have first := deliver_of_no_wait (members signal (by simp)) none_pending
      have others := ih (s := { s with queued := s.queued ++ [signal] })
        (fun later member => members later (by simp [member])) none_pending
      rw [List.foldl_cons, first, others, List.append_assoc, List.singleton_append]

end Deliveries

end Service

variable {σ α : Type*} [DecidableEq σ]

/-- The states of a service, started as `start`, after the deliveries of a sequence and any turns of the
    handler between them. -/
inductive Reaches (handler : σ → Service σ α → Service σ α) (start : Service σ α) :
    List σ → Service σ α → Prop where
  | start : Reaches handler start [] start
  | deliver {signals : List σ} {s : Service σ α} (signal : σ) :
      Reaches handler start signals s → Reaches handler start (signals ++ [signal]) (s.deliver signal)
  | turn {signals : List σ} {s t : Service σ α} :
      Reaches handler start signals s → s.turn handler = some t → Reaches handler start signals t

/-- What holds at the start and is kept by every delivery and every turn holds in every state reached. -/
theorem Reaches.invariant {handler : σ → Service σ α → Service σ α} {start : Service σ α}
    {motive : List σ → Service σ α → Prop} (initial : motive [] start)
    (kept_by_deliver : ∀ signals s signal, motive signals s →
      motive (signals ++ [signal]) (s.deliver signal))
    (kept_by_turn : ∀ signals s t, motive signals s → s.turn handler = some t → motive signals t)
    {signals : List σ} {s : Service σ α} (reached : Reaches handler start signals s) : motive signals s := by
  induction reached with
  | start => exact initial
  | deliver signal _ ih => exact kept_by_deliver _ _ signal ih
  | turn _ step ih => exact kept_by_turn _ _ _ ih step

/-- Deliveries with no turn between them. -/
theorem Reaches.deliverAll {handler : σ → Service σ α → Service σ α} {start s : Service σ α}
    {signals : List σ} (reached : Reaches handler start signals s) (more : List σ) :
    Reaches handler start (signals ++ more) (more.foldl Service.deliver s) := by
  induction more generalizing signals s with
  | nil => simpa using reached
  | cons signal more ih =>
      have next := ih (reached.deliver signal)
      rwa [List.append_assoc, List.singleton_append] at next

end SignalSet
