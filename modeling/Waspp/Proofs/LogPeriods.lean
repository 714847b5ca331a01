/-
Module: Waspp.Proofs.LogPeriods
Layer: Proofs
Purpose: Which messages one file holds when a single thread writes and the logger's thread runs all tasks
  after each message.  A message starts a new file exactly when the field that `rotate` compares differs and
  no file has the archive's name; so two messages of different periods meet in one file as soon as the
  field comes round to the same value, or the name is taken.
Imports: Waspp.Proofs.LogRotation, Mathlib.Data.Int.Order.Basic, Mathlib.Data.List.Lex
Trusted boundary: none (fully proved)
Main exports: Tm.period, SamePeriod, Entry, logAll, Rotates, logEntry_spec, OnePeriod, Separated,
  one_period_iff
Open obligations: none
-/
import Waspp.Proofs.LogRotation
import Mathlib.Data.Int.Order.Basic
import Mathlib.Data.List.Lex

namespace Waspp

/-- The calendar minute, hour or day of a time. -/
def Tm.period (tm : Tm) : LogRotationType → List Int
  | .everyMinute => [tm.tmYear, tm.tmMon, tm.tmMday, tm.tmHour, tm.tmMin]
  | .hourly => [tm.tmYear, tm.tmMon, tm.tmMday, tm.tmHour]
  | .daily => [tm.tmYear, tm.tmMon, tm.tmMday]

/-- A time from the year down to the second. -/
def Tm.fields (tm : Tm) : List Int := [tm.tmYear, tm.tmMon, tm.tmMday, tm.tmHour, tm.tmMin, tm.tmSec]

namespace Logger

open CString Interaction

/-- Two lines were written in one calendar period. -/
def SamePeriod (rotation : LogRotationType) : Piece → Piece → Prop
  | .line tm _, .line tm' _ => tm.period rotation = tm'.period rotation
  | _, _ => True

instance (rotation : LogRotationType) : DecidableRel (SamePeriod rotation)
  | .line tm _, .line tm' _ => inferInstanceAs (Decidable (tm.period rotation = tm'.period rotation))
  | .found _, _ => inferInstanceAs (Decidable True)
  | .line _ _, .found _ => inferInstanceAs (Decidable True)

/-! ### One message

With nothing waiting, a message is written at once, with the rotation in front of it if there is one: the
record grows by one entry and perhaps a cut. -/

/-- A message with its time. -/
structure Entry where
  tm : Tm
  message : Bytes
deriving DecidableEq, Repr

/-- A thread writes a message, and the logger's thread runs what was posted. -/
def logEntry (e : Entry) : Program LoggerCall LoggerReply Unit :=
  (write e.tm e.message).bind fun _ => .call (.execute e.tm) fun _ => .call (.execute e.tm) fun _ => .ret ()

/-- A thread writes the messages, one after the other. -/
def logAll : List Entry → Program LoggerCall LoggerReply Unit
  | [] => .ret ()
  | e :: rest => (logEntry e).bind fun _ => logAll rest

/-- The logger and the record of the run after the messages. -/
def after (start : Logger × Log) (entries : List Entry) : Logger × Log :=
  ((logAll entries).exec (logged serveLogger) start).2.1

/-- The messages are written one after the other. -/
theorem after_cons (start : Logger × Log) (e : Entry) (rest : List Entry) :
    after start (e :: rest) = after (after start [e]) rest := by
  simp [after, logAll, Program.exec_bind, Program.exec]

/-- A message of the time is written to a new file: the field that is compared differs from that of
    `file_created_`, and no file has the name that `file_created_` gives. -/
def Rotates (s : Logger) (tm : Tm) : Prop :=
  s.differs s.rotation tm = true ∧ s.files (s.archiveName s.rotation) = none

instance (s : Logger) (tm : Tm) : Decidable (Rotates s tm) := inferInstanceAs (Decidable (_ ∧ _))

/-- The task that `rotate` posts. -/
def rotateTasks (s : Logger) (tm : Tm) : List Task :=
  if s.differs s.rotation tm then [.rotate (s.archiveName s.rotation)] else []

/-- What neither writes nor rotates leaves the volumes. -/
theorem volumes_quiet {content : Bytes} {log more : Log} (quiet : ∀ e ∈ more, doneAt e = none) :
    volumes content (log ++ more) = volumes content log := by
  have nothing : more.filterMap (fun e => (doneAt e).bind op) = [] := by
    apply List.filterMap_eq_nil_iff.mpr
    intro e member
    simp [quiet e member]
  simp [volumes, nothing]

/-- A call of `write` posts a task for the message and, before it, one for the rotation that it finds due. -/
theorem write_exec (s : Logger) (log : Log) (tm : Tm) (message : Bytes) :
    ∃ more : Log, (∀ e ∈ more, doneAt e = none) ∧
      ((write tm message).exec (logged serveLogger) (s, log)).2.1 =
        ({ s with tasks := s.tasks ++ rotateTasks s tm ++ [.message message] }, log ++ more) := by
  rcases s with ⟨file, fileCreated, level, rotation, isOpen, tasks, files⟩
  by_cases due : tm.compared rotation = fileCreated.compared rotation
  all_goals
    cases rotation
    all_goals
      simp [write, rotate, rotateTo, Program.bind, Program.exec, logged, serveLogger, Logger.differs,
        rotateTasks, due, doneAt]

/-- Without a task nothing is done. -/
theorem execute_nil {s : Logger} (tasks : s.tasks = []) (log : Log) (now : Tm) :
    (logged serveLogger (.execute now) (s, log)).2 = (s, log ++ [⟨.execute now, none⟩]) := by
  simp [logged, serveLogger, tasks]

/-- The first task is run. -/
theorem execute_cons {s : Logger} {task : Task} {rest : List Task} (tasks : s.tasks = task :: rest)
    (log : Log) (now : Tm) :
    (logged serveLogger (.execute now) (s, log)).2 =
      ((task.run now { s with tasks := rest }).2,
        log ++ [⟨.execute now, some (task.run now { s with tasks := rest }).1⟩]) := by
  simp [logged, serveLogger, tasks]

/-- After a message and its tasks nothing is left to be run, and the message is in a new file or in the one
    before. -/
theorem logEntry_spec {start s : Logger} {content : Bytes} {log : Log}
    (recorded : Recorded start content (s, log)) (drained : s.tasks = []) (e : Entry) :
    (after (s, log) [e]).1.tasks = [] ∧ (after (s, log) [e]).1.rotation = s.rotation ∧
      volumes content (after (s, log) [e]).2 =
        (if Rotates s e.tm then (volumes content log).cut else volumes content log).write
        (.line e.tm e.message) := by
  rcases write_exec s log e.tm e.message with ⟨more, quiet, wrote⟩
  have isOpen : s.isOpen = true := recorded.isOpen
  have file : s.file = start.file := recorded.file
  have holds : s.files s.file = some (render (volumes content log).current) := file ▸ recorded.current
  have same : volumes content (log ++ more) = volumes content log := volumes_quiet quiet
  simp only [drained, List.nil_append] at wrote
  have ran : after (s, log) [e] =
      (logged serveLogger (.execute e.tm) (logged serveLogger (.execute e.tm)
        ({ s with tasks := rotateTasks s e.tm ++ [.message e.message] }, log ++ more)).2).2 := by
    simp [after, logAll, logEntry, Program.exec_bind, Program.exec, wrote]
  rw [ran]
  by_cases due : s.differs s.rotation e.tm = true
  · have tasks : rotateTasks s e.tm = [.rotate (s.archiveName s.rotation)] := if_pos due
    rw [tasks, List.singleton_append,
      execute_cons (s := { s with tasks := [.rotate (s.archiveName s.rotation), .message e.message] }) rfl]
    cases found : s.files (s.archiveName s.rotation) with
    | none =>
        have rotates : Rotates s e.tm := ⟨due, found⟩
        rw [run_rotate_archived (s := { s with tasks := [.message e.message] }) found holds,
          execute_cons rfl, run_message rfl, volumes_concat, volumes_concat, same, if_pos rotates]
        exact ⟨rfl, rfl, rfl⟩
    | some old =>
        have rotates : ¬ Rotates s e.tm := by simp [Rotates, found]
        rw [run_rotate_kept (s := { s with tasks := [.message e.message] }) (by simp [found]),
          execute_cons rfl,
          run_message (s := { s with tasks := [] }) isOpen, volumes_concat, volumes_concat, same,
          if_neg rotates]
        exact ⟨rfl, rfl, rfl⟩
  · have rotates : ¬ Rotates s e.tm := fun both => due both.1
    have tasks : rotateTasks s e.tm = [] := if_neg due
    rw [tasks, List.nil_append, execute_cons (s := { s with tasks := [.message e.message] }) rfl,
      run_message (s := { s with tasks := [] }) isOpen, execute_nil rfl, volumes_concat, volumes_concat,
      same, if_neg rotates]
    exact ⟨rfl, rfl, rfl⟩

/-! ### Runs -/

/-- A thread that writes messages only hands them over. -/
theorem logAll_meets (entries : List Entry) : (logAll entries).Meets threads fun _ => True := by
  induction entries with
  | nil => trivial
  | cons e rest ih =>
      apply Program.meets_bind.mpr
      apply Program.meets_bind.mpr
      apply (write_meets e.tm e.message).mono
      intro _ _
      exact ⟨by simp [threads], fun _ _ => ⟨by simp [threads], fun _ _ => ih⟩⟩

/-- The volumes are those of the record after every message. -/
theorem after_recorded {start : Logger} {content : Bytes} {state : Logger × Log}
    (recorded : Recorded start content state) (entries : List Entry) :
    Recorded start content (after state entries) := by
  have honest (state : Logger × Log) (q : LoggerCall) (recorded : Recorded start content state)
      (asked : threads.asks q) :
      Recorded start content (logged serveLogger q state).2 ∧
      threads.replies q (logged serveLogger q state).1 :=
    ⟨serve_recorded recorded asked, trivial⟩
  exact Program.exec_keeps honest (logAll_meets entries) recorded

/-- If the log file holds a message of another period, the message is written to a new file. -/
def Separated (content : Bytes) (state : Logger × Log) (e : Entry) : Prop :=
  (∃ piece ∈ (volumes content state.2).current, ¬ SamePeriod state.1.rotation piece (.line e.tm e.message)) →
    Rotates state.1 e.tm

/-- After a message no file holds two periods exactly when this was so before it and the message was
    separated. -/
theorem uniform_logEntry {start : Logger} {content : Bytes} {state : Logger × Log}
    (recorded : Recorded start content state) (drained : state.1.tasks = []) (e : Entry) :
    (volumes content (after state [e]).2).Uniform (SamePeriod state.1.rotation) ↔
      (volumes content state.2).Uniform (SamePeriod state.1.rotation) ∧ Separated content state e := by
  rw [(logEntry_spec recorded drained e).2.2, Volumes.uniform_write, Separated]
  by_cases rotates : Rotates state.1 e.tm
  · rw [if_pos rotates, Volumes.uniform_cut]
    simp [rotates, Volumes.cut]
  · simp [rotates]

/-- After a sequence of messages no file holds two periods exactly when this was so before and every message
    was separated. -/
theorem uniform_logAll {start : Logger} {content : Bytes} {state : Logger × Log}
    (recorded : Recorded start content state) (drained : state.1.tasks = []) (entries : List Entry) :
    (volumes content (after state entries).2).Uniform (SamePeriod state.1.rotation) ↔
      (volumes content state.2).Uniform (SamePeriod state.1.rotation) ∧
        ∀ before e rest, entries = before ++ e :: rest → Separated content (after state before) e := by
  induction entries generalizing state with
  | nil => simp [after, logAll, Program.exec]
  | cons first entries ih =>
      have spec := logEntry_spec recorded drained first
      have later := ih (after_recorded recorded [first]) spec.1
      rw [after_cons, ← spec.2.1, later, spec.2.1, uniform_logEntry recorded drained, and_assoc]
      apply and_congr_right
      intro _
      constructor
      · rintro ⟨now, then_⟩ before e rest same
        cases before with
        | nil =>
            rcases List.cons.inj same with ⟨rfl, -⟩
            exact now
        | cons other before =>
            rcases List.cons.inj same with ⟨rfl, there⟩
            rw [after_cons]
            exact then_ before e rest there
      · intro all
        refine ⟨all [] first entries rfl, ?_⟩
        intro before e rest same
        rw [← after_cons]
        exact all (first :: before) e rest (congrArg _ same)

/-- At no moment of the run does the log file or an archive of the run hold two messages of different
    periods. -/
def OnePeriod (start : Logger) (content : Bytes) (entries : List Entry) : Prop :=
  ∀ log, log <+: (after (start, []) entries).2 → (volumes content log).Uniform (SamePeriod start.rotation)

/-- The volumes of a part of a run are uniform when those of the run are. -/
theorem uniform_of_prefix {content : Bytes} {one two : Log} (part : one <+: two) {r : Piece → Piece → Prop}
    (uniform : (volumes content two).Uniform r) : (volumes content one).Uniform r := by
  rcases part with ⟨more, rfl⟩
  rw [volumes, List.filterMap_append, Volumes.replay_append] at uniform
  exact uniform.of_replay

/-- The logger of a rotation type that has just opened its file. -/
def opening (rotation : LogRotationType) (files : Bytes → Option Bytes) (file : Bytes) (created : Tm) :
    Logger :=
  opened { fileCreated := created, rotation := rotation, files := files } file created

/-- For every rotation type, every set of files and every sequence of messages from a single thread whose
    tasks are run at their times: the files are the volumes of the record, and none of them ever holds
    messages of two periods exactly when every message whose period the log file does not have, although it
    has another, comes when the compared field differs and the archive's name is free. -/
theorem one_period_iff (rotation : LogRotationType) (files : Bytes → Option Bytes) (file : Bytes)
    (created : Tm) (entries : List Entry) :
    let start := opening rotation files file created
    let content := (files file).getD []
    Recorded start content (after (start, []) entries) ∧
      (OnePeriod start content entries ↔
        ∀ before e rest, entries = before ++ e :: rest →
        Separated content (after (start, []) before) e) := by
  intro start content
  have recorded : Recorded start content (start, []) := opened_recorded (by simp) file created
  have uniform : (volumes content []).Uniform (SamePeriod start.rotation) :=
    ⟨by simp [volumes], by simp [volumes]⟩
  have all := uniform_logAll recorded rfl entries
  refine ⟨after_recorded recorded entries, ?_⟩
  constructor
  · intro one
    exact (all.mp (one _ (List.prefix_refl _))).2
  · intro separated log part
    exact uniform_of_prefix part (all.mpr ⟨uniform, separated⟩)

/-! ### An hour later -/

/-- Two messages, one hour apart. -/
private def hourApart : List Entry :=
  [⟨⟨124, 0, 1, 10, 5, 0⟩, bytes "a"⟩, ⟨⟨124, 0, 1, 11, 5, 0⟩, bytes "b"⟩]

/-- The minute is the same, so the log file holds both messages. -/
theorem hour_apart_in_one_file :
    (⟨124, 0, 1, 10, 5, 0⟩ :: hourApart.map Entry.tm).Pairwise (fun one two => one.fields ≤ two.fields) ∧
      ¬ OnePeriod (opening .everyMinute (fun _ => none) (bytes "log") ⟨124, 0, 1, 10, 5, 0⟩) []
      hourApart := by
  refine ⟨by decide, ?_⟩
  intro one
  have uniform := (one _ (List.prefix_refl _)).current
  revert uniform
  decide +kernel

end Logger

end Waspp
