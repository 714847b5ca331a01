/-
Module: Waspp.Proofs.LogRotation
Layer: Proofs
Purpose: What the logger keeps when any number of threads write while the logger's thread rotates.  The
  archives and the log file are the volumes of one record, whatever rotations are queued: a task either
  leaves the files alone, appends to the log file, or closes a volume under a name that no file had.
Imports: Waspp.Foundation.Volumes, Waspp.Model.Logger, Mathlib.Logic.Relation
Trusted boundary: none (fully proved)
Main exports: archives, executed, posted, Piece, volumes, Recorded, serve_recorded, serve_untouched,
  messages_kept
Open obligations: none
-/
import Waspp.Foundation.Volumes
import Waspp.Model.Logger
import Mathlib.Logic.Relation

namespace Waspp.Logger

open CString Interaction

/-! ### What a run tells

Everything is read off the record of the calls: which tasks were posted, which messages were executed, and
which archives were made, in the order of the record. -/

/-- The record of a run. -/
abbrev Log := List (Event LoggerCall LoggerReply)

/-- What the logger's thread did, and when. -/
def doneAt : Event LoggerCall LoggerReply → Option (Tm × Done)
  | ⟨.execute now, done⟩ => done.map fun done => (now, done)
  | _ => none

/-- The name of the archive that was created. -/
def archive : Tm × Done → Option Bytes
  | (_, .archived fileTo) => some fileTo
  | _ => none

/-- The message whose task was executed. -/
def execution : Tm × Done → Option (Tm × Bytes)
  | (now, .wrote message) => some (now, message)
  | (now, .dropped message) => some (now, message)
  | _ => none

/-- The message of a task. -/
def messageOf : Task → Option Bytes
  | .message message => some message
  | _ => none

/-- The task that was posted. -/
def taskOf : Event LoggerCall LoggerReply → Option Task
  | ⟨.post task, _⟩ => some task
  | _ => none

/-- The archives that were created, in the order of their creation. -/
def archives (log : Log) : List Bytes := log.filterMap fun e => (doneAt e).bind archive

/-- The messages whose tasks were executed, in the order of execution, with the times. -/
def executed (log : Log) : List (Tm × Bytes) := log.filterMap fun e => (doneAt e).bind execution

/-- The messages that were posted, in the order of the posts. -/
def posted (log : Log) : List Bytes := log.filterMap fun e => (taskOf e).bind messageOf

/-- The messages that wait for their execution. -/
def waiting (s : Logger) : List Bytes := s.tasks.filterMap messageOf

/-! ### The files as volumes

A log file and its archives are the volumes of one record: a message is an entry of the current volume, a
rotation that archives is a cut, and the files are the volumes as text. -/

/-- A piece of a file: what the file held when it was opened, or a line that was written at a time. -/
inductive Piece where
  | found (content : Bytes)
  | line (tm : Tm) (message : Bytes)
deriving DecidableEq, Repr

/-- The bytes of a piece. -/
def Piece.text : Piece → Bytes
  | found content => content
  | line _ message => message ++ bytes "\n"

/-- The bytes of a file. -/
def render (pieces : List Piece) : Bytes := pieces.flatMap Piece.text

/-- Pieces are rendered one after the other. -/
theorem render_append (one two : List Piece) : render (one ++ two) = render one ++ render two :=
  List.flatMap_append

theorem render_flatten (volumes : List (List Piece)) :
    render volumes.flatten = (volumes.map render).flatten := by
  induction volumes with
  | nil => rfl
  | cons volume rest ih => rw [List.flatten_cons, render_append, ih, List.map_cons, List.flatten_cons]

/-- What a task does to the record. -/
def op : Tm × Done → Option (Volumes.Op Piece)
  | (now, .wrote message) => some (.write (.line now message))
  | (_, .archived _) => some .cut
  | _ => none

/-- The volumes after a run, from a log file with the given content. -/
def volumes (content : Bytes) (log : Log) : Volumes Piece :=
  (Volumes.mk [] [.found content]).replay (log.filterMap fun e => (doneAt e).bind op)

/-- The files are the volumes of the record, and the messages are its lines. -/
structure Recorded (start : Logger) (content : Bytes) (state : Logger × Log) : Prop where
  file : state.1.file = start.file
  isOpen : state.1.isOpen = true
  opened : ∀ name, .file name ∉ state.1.tasks
  closed : (archives state.2).map state.1.files = (volumes content state.2).closed.map fun volume =>
    some (render volume)
  current : state.1.files start.file = some (render (volumes content state.2).current)
  distinct : (start.file :: archives state.2).Nodup
  lines : (volumes content state.2).all = .found content :: (executed state.2).map fun line =>
    .line line.1 line.2
  inOrder : start.waiting ++ posted state.2 = (executed state.2).map Prod.snd ++ state.1.waiting

/-- The threads open no other file. -/
def threads : Contract LoggerCall LoggerReply := ⟨fun q => ∀ name, q ≠ .post (.file name), fun _ _ => True⟩

/-! ### One call

`Recorded` ties the files to the record.  A call of a thread or of the logger's thread extends both in
step. -/

section Concat

variable (log : Log) (e : Event LoggerCall LoggerReply)

/-- A call adds its archive, if it made one. -/
theorem archives_concat : archives (log ++ [e]) = archives log ++ ((doneAt e).bind archive).toList := by
  cases found : (doneAt e).bind archive <;> simp [archives, found]

/-- A call adds its message, if it executed one. -/
theorem executed_concat : executed (log ++ [e]) = executed log ++ ((doneAt e).bind execution).toList := by
  cases found : (doneAt e).bind execution <;> simp [executed, found]

/-- A call adds its message, if it posted one. -/
theorem posted_concat : posted (log ++ [e]) = posted log ++ ((taskOf e).bind messageOf).toList := by
  cases found : (taskOf e).bind messageOf <;> simp [posted, found]

/-- A call adds its entry or its cut. -/
theorem volumes_concat (content : Bytes) :
    volumes content (log ++ [e]) = (volumes content log).replay ((doneAt e).bind op).toList := by
  cases found : (doneAt e).bind op <;> simp [volumes, found, Volumes.replay_append]

end Concat

section Steps

variable {start s : Logger} {content : Bytes} {log : Log}

/-- A call that neither writes to the files nor archives them: what it posts and what it executes is to agree
    with what waits. -/
theorem Recorded.quiet (recorded : Recorded start content (s, log)) (s' : Logger)
    (e : Event LoggerCall LoggerReply)
    (file : s'.file = s.file) (isOpen : s'.isOpen = s.isOpen) (files : s'.files = s.files)
    (opened : ∀ name, .file name ∉ s'.tasks)
    (kept : ∀ done, doneAt e = some done → done.2 = .set ∨ done.2 = .kept)
    (inOrder : s.waiting ++ ((taskOf e).bind messageOf).toList = s'.waiting) :
    Recorded start content (s', log ++ [e]) := by
  have nothing : (doneAt e).bind archive = none ∧ (doneAt e).bind execution = none ∧
      (doneAt e).bind op = none := by
    rcases ran : doneAt e with _ | ⟨now, done⟩
    · exact ⟨rfl, rfl, rfl⟩
    · rcases kept _ ran with rfl | rfl <;> exact ⟨rfl, rfl, rfl⟩
  have archived : archives (log ++ [e]) = archives log := by simp [archives_concat, nothing]
  have ran : executed (log ++ [e]) = executed log := by simp [executed_concat, nothing]
  have same : volumes content (log ++ [e]) = volumes content log := by simp [volumes_concat, nothing]
  constructor
  case file => exact file.trans recorded.file
  case isOpen => exact isOpen.trans recorded.isOpen
  case opened => exact opened
  case closed => rw [archived, same, files]; exact recorded.closed
  case current => rw [same, files]; exact recorded.current
  case distinct => rw [archived]; exact recorded.distinct
  case lines => rw [same, ran]; exact recorded.lines
  case inOrder => rw [posted_concat, ran, ← inOrder, ← List.append_assoc, recorded.inOrder,
    List.append_assoc]

/-- The log file is there. -/
theorem Recorded.present (recorded : Recorded start content (s, log)) :
    (s.files start.file).isSome = true := by
  rw [recorded.current]
  rfl

theorem Recorded.archive_present (recorded : Recorded start content (s, log)) {name : Bytes}
    (member : name ∈ archives log) : (s.files name).isSome = true := by
  have there : s.files name ∈ (archives log).map s.files := List.mem_map_of_mem member
  rw [recorded.closed] at there
  rcases List.mem_map.mp there with ⟨volume, -, content⟩
  rw [← content]
  rfl

/-- The files together. -/
theorem Recorded.bytes {state : Logger × Log} (recorded : Recorded start content state) :
    ((volumes content state.2).closed.map render).flatten ++ render (volumes content state.2).current =
      content ++ (executed state.2).flatMap fun line => line.2 ++ CString.bytes "\n" := by
  have lines := congrArg render recorded.lines
  rw [Volumes.all, render_append, render_flatten] at lines
  simpa [render, Piece.text, List.flatMap_map] using lines

/-- The logger's thread writes a message. -/
theorem Recorded.append (recorded : Recorded start content (s, log)) {message : Bytes} {rest : List Task}
    (tasks : s.tasks = .message message :: rest) (now : Tm) :
    Recorded start content
      (Logger.append { s with tasks := rest } message, log ++ [⟨.execute now, some (.wrote message)⟩]) := by
  have archived : archives (log ++ [⟨.execute now, some (.wrote message)⟩]) = archives log := by
    simp [archives_concat, doneAt, archive]
  have ran : executed (log ++ [⟨.execute now, some (.wrote message)⟩]) = executed log ++
      [(now, message)] := by
    simp [executed_concat, doneAt, execution]
  have written : volumes content (log ++ [⟨.execute now, some (.wrote message)⟩]) =
      (volumes content log).write (.line now message) := by
    simp [volumes_concat, doneAt, op]
  have apart : start.file ∉ archives log := (List.nodup_cons.mp recorded.distinct).1
  constructor
  case file => exact recorded.file
  case isOpen => exact recorded.isOpen
  case opened =>
    intro name member
    exact recorded.opened name (tasks ▸ List.mem_cons_of_mem _ member)
  case closed =>
    rw [archived, written]
    refine Eq.trans (List.map_congr_left ?_) recorded.closed
    intro name member
    have other : name ≠ s.file := by
      rw [recorded.file]
      rintro rfl
      exact apart member
    exact Function.update_of_ne other _ _
  case current =>
    have file : s.file = start.file := recorded.file
    have before : s.files start.file = some (render (volumes content log).current) := recorded.current
    simp [Logger.append, file, before, written, Volumes.write, render, Piece.text]
  case distinct => rw [archived]; exact recorded.distinct
  case lines => simp [written, ran, recorded.lines]
  case inOrder =>
    have waits := recorded.inOrder
    simp only [waiting, tasks] at waits
    simp [posted_concat, taskOf, ran, waiting, Logger.append, waits, messageOf]

/-- The logger's thread archives the log file. -/
theorem Recorded.archive (recorded : Recorded start content (s, log)) {fileTo held : Bytes}
    {rest : List Task} (tasks : s.tasks = .rotate fileTo :: rest) (absent : s.files fileTo = none)
    (holds : s.files s.file = some held) (now : Tm) :
    Recorded start content
      ({ s with
          tasks := rest
          fileCreated := now
          files := Function.update (Function.update s.files fileTo (some held)) s.file none }.openFile,
        log ++ [⟨.execute now, some (.archived fileTo)⟩]) := by
  have file : s.file = start.file := recorded.file
  have before : held = render (volumes content log).current :=
    Option.some.inj ((file ▸ holds).symm.trans recorded.current)
  have archived : archives (log ++ [⟨.execute now, some (.archived fileTo)⟩]) = archives log ++
      [fileTo] := by
    simp [archives_concat, doneAt, Logger.archive]
  have ran : executed (log ++ [⟨.execute now, some (.archived fileTo)⟩]) = executed log := by
    simp [executed_concat, doneAt, execution]
  have cut : volumes content (log ++ [⟨.execute now, some (.archived fileTo)⟩]) =
      (volumes content log).cut := by
    simp [volumes_concat, doneAt, op]
  have other : fileTo ≠ start.file := by
    rintro rfl
    simpa [absent] using recorded.present
  have new : fileTo ∉ archives log := by
    intro member
    simpa [absent] using recorded.archive_present member
  have apart : start.file ∉ archives log := (List.nodup_cons.mp recorded.distinct).1
  constructor
  case file => exact recorded.file
  case isOpen => rfl
  case opened =>
    intro name member
    exact recorded.opened name (tasks ▸ List.mem_cons_of_mem _ member)
  case closed =>
    rw [archived, cut, Volumes.cut, List.map_append, List.map_append]
    congr 1
    · refine Eq.trans (List.map_congr_left ?_) recorded.closed
      intro name member
      have old : name ≠ fileTo := fun same => new (same ▸ member)
      have side : name ≠ start.file := fun same => apart (same ▸ member)
      simp [openFile, file, old, side]
    · simp [openFile, file, other, before]
  case current => simp [openFile, file, cut, Volumes.cut, render]
  case distinct =>
    rw [archived]
    refine List.nodup_cons.mpr ⟨?_, ?_⟩
    · simp [apart, other.symm]
    · refine List.nodup_append.mpr ⟨(List.nodup_cons.mp recorded.distinct).2, by simp, ?_⟩
      intro name member other there
      exact fun same => new (List.mem_singleton.mp there ▸ same ▸ member)
  case lines => rw [cut, ran, Volumes.all_cut]; exact recorded.lines
  case inOrder =>
    have waits := recorded.inOrder
    simp only [waiting, tasks, List.filterMap_cons, messageOf] at waits
    simpa [posted_concat, taskOf, ran, waiting, openFile] using waits

/-- A message is written to the open file. -/
theorem run_message {s : Logger} (isOpen : s.isOpen = true) (now : Tm) (message : Bytes) :
    (Task.message message).run now s = (.wrote message, s.append message) := if_pos isOpen

/-- No archive is overwritten. -/
theorem run_rotate_kept {s : Logger} {fileTo : Bytes} (there : (s.files fileTo).isSome = true) (now : Tm) :
    (Task.rotate fileTo).run now s = (.kept, s) := if_pos there

/-- A rotation to a free name makes the log file an archive and opens a new one. -/
theorem run_rotate_archived {s : Logger} {fileTo content : Bytes} (absent : s.files fileTo = none)
    (holds : s.files s.file = some content) (now : Tm) :
    (Task.rotate fileTo).run now s =
      (.archived fileTo,
        { s with
          fileCreated := now
          files :=
            Function.update (Function.update s.files fileTo (some content)) s.file none }.openFile) := by
  simp [Task.run, absent, holds]

/-- What the logger's thread does with its first task. -/
theorem Recorded.execute (recorded : Recorded start content (s, log)) {task : Task} {rest : List Task}
    (tasks : s.tasks = task :: rest) (now : Tm) :
    Recorded start content
      ((task.run now { s with tasks := rest }).2,
        log ++ [⟨.execute now, some (task.run now { s with tasks := rest }).1⟩]) := by
  have later (name : Bytes) (member : .file name ∈ rest) : False :=
    recorded.opened name (tasks ▸ List.mem_cons_of_mem _ member)
  cases task with
  | file name => exact absurd (tasks ▸ List.mem_cons_self ..) (recorded.opened name)
  | settings level rotation =>
      apply recorded.quiet { s with level := level, rotation := rotation, tasks := rest } _ rfl rfl rfl later
      · simp [doneAt, Task.run]
      · simp [taskOf, waiting, tasks, messageOf, List.filterMap_cons]
  | message message =>
      rw [run_message (s := { s with tasks := rest }) recorded.isOpen]
      exact recorded.append tasks now
  | rotate fileTo =>
      have file : s.file = start.file := recorded.file
      have holds : s.files s.file = some (render (volumes content log).current) := file ▸ recorded.current
      cases found : s.files fileTo with
      | none =>
          rw [run_rotate_archived (s := { s with tasks := rest }) found holds]
          exact recorded.archive tasks found holds now
      | some old =>
          rw [run_rotate_kept (s := { s with tasks := rest }) (by simp [found])]
          apply recorded.quiet { s with tasks := rest } _ rfl rfl rfl later
          · simp [doneAt]
          · simp [taskOf, waiting, tasks, messageOf, List.filterMap_cons]

/-- A call of a thread keeps the record. -/
theorem serve_recorded {state : Logger × Log} (recorded : Recorded start content state) {q : LoggerCall}
    (asked : threads.asks q) : Recorded start content (logged serveLogger q state).2 := by
  rcases state with ⟨s, log⟩
  have look {e : Event LoggerCall LoggerReply} (nothing : doneAt e = none) (posts : taskOf e = none) :
      Recorded start content (s, log ++ [e]) :=
    recorded.quiet s e rfl rfl rfl recorded.opened (by simp [nothing]) (by simp [posts])
  cases q with
  | differs rotation tm => exact look rfl rfl
  | archiveName rotation => exact look rfl rfl
  | post task =>
      apply recorded.quiet { s with tasks := s.tasks ++ [task] } ⟨.post task, ()⟩ rfl rfl rfl
      · intro name member
        rcases List.mem_append.mp member with before | new
        · exact recorded.opened name before
        · exact asked name (congrArg LoggerCall.post (List.mem_singleton.mp new).symm)
      · simp [doneAt]
      · cases task <;> simp [taskOf, waiting, messageOf]
  | execute now =>
      simp only [logged, serveLogger]
      cases tasks : s.tasks with
      | nil => exact look rfl rfl
      | cons task rest => exact recorded.execute tasks now

/-- The logger's thread changes no file but the log file. -/
theorem Recorded.run_untouched (recorded : Recorded start content (s, log)) {task : Task} {rest : List Task}
    (tasks : s.tasks = task :: rest) (now : Tm) {name : Bytes} (other : name ≠ start.file) {held : Bytes}
    (there : s.files name = some held) :
    (task.run now { s with tasks := rest }).2.files name = some held := by
  have file : s.file = start.file := recorded.file
  cases task with
  | file opened => exact absurd (tasks ▸ List.mem_cons_self ..) (recorded.opened opened)
  | settings level rotation => exact there
  | message message =>
      rw [run_message (s := { s with tasks := rest }) recorded.isOpen]
      simpa [Logger.append, file, other] using there
  | rotate fileTo =>
      have holds : s.files s.file = some (render (volumes content log).current) := file ▸ recorded.current
      cases found : s.files fileTo with
      | none =>
          have new : name ≠ fileTo := by
            rintro rfl
            simp [found] at there
          rw [run_rotate_archived (s := { s with tasks := rest }) found holds]
          simpa [openFile, file, other, new] using there
      | some old =>
          rw [run_rotate_kept (s := { s with tasks := rest }) (by simp [found])]
          exact there

/-- A call of a thread changes no file but the log file. -/
theorem serve_untouched {state : Logger × Log} (recorded : Recorded start content state) (q : LoggerCall)
    {name : Bytes} (other : name ≠ start.file) {held : Bytes} (there : state.1.files name = some held) :
    (logged serveLogger q state).2.1.files name = some held := by
  rcases state with ⟨s, log⟩
  cases q with
  | differs rotation tm => exact there
  | archiveName rotation => exact there
  | post task => exact there
  | execute now =>
      simp only [logged, serveLogger]
      cases tasks : s.tasks with
      | nil => exact there
      | cons task rest => exact recorded.run_untouched tasks now other there

end Steps

/-! ### Runs

What threads and the logger's thread may call, and the invariant carried over any order of their calls. -/

/-- What comes in: a call of `write`, the next step of the logger's thread, or a call of `init`. -/
inductive Admitted : Program LoggerCall LoggerReply Unit → Prop where
  | write (tm : Tm) (message : Bytes) : Admitted (write tm message)
  | execute (now : Tm) : Admitted (.call (.execute now) fun _ => .ret ())
  | init (logLevel logRotation : Bytes) : Admitted ((init logLevel logRotation).bind fun _ => .ret ())

/-- A rotation only posts tasks. -/
theorem rotateTo_meets (rotation : LogRotationType) : (rotateTo rotation).Meets threads fun _ => True :=
  ⟨by simp [threads], fun _ _ => ⟨by simp [threads], fun _ _ => trivial⟩⟩

theorem rotate_meets (tm : Tm) : (rotate tm).Meets threads fun _ => True := by
  refine ⟨by simp [threads], fun minute _ => ?_⟩
  cases minute with
  | true => exact rotateTo_meets _
  | false =>
      refine ⟨by simp [threads], fun hour _ => ?_⟩
      cases hour with
      | true => exact rotateTo_meets _
      | false =>
          refine ⟨by simp [threads], fun day _ => ?_⟩
          cases day with
          | true => exact rotateTo_meets _
          | false => trivial

theorem write_meets (tm : Tm) (message : Bytes) : (write tm message).Meets threads fun _ => True := by
  apply Program.meets_bind.mpr
  apply (rotate_meets tm).mono
  intro _ _
  exact ⟨by simp [threads], fun _ _ => trivial⟩

/-- What comes in keeps to the contract of the threads. -/
theorem admitted_meets {p : Program LoggerCall LoggerReply Unit} (admitted : Admitted p) :
    p.Meets threads fun _ => True := by
  cases admitted with
  | write tm message => exact write_meets tm message
  | execute now => exact ⟨by simp [threads], fun _ _ => trivial⟩
  | init logLevel logRotation =>
      apply Program.meets_bind.mpr
      unfold init
      split
      · exact ⟨by simp [threads], fun _ _ => trivial⟩
      · trivial

/-- The logger when the task of `file(file)` has run. -/
def opened (s : Logger) (file : Bytes) (now : Tm) : Logger := ((Task.file file).run now s).2

/-- A logger that has just opened its file has the file's content as its one volume. -/
theorem opened_recorded {s : Logger} (waits : ∀ name, .file name ∉ s.tasks) (file : Bytes) (now : Tm) :
    Recorded (opened s file now) ((s.files file).getD []) (opened s file now, []) := by
  constructor
  case file => rfl
  case isOpen => rfl
  case opened => exact waits
  case closed => rfl
  case current => simp [opened, Task.run, openFile, volumes, render, Piece.text]
  case distinct => simp [archives]
  case lines => rfl
  case inOrder => simp [posted, executed]

/-- The threads with the logger, and what they did. -/
abbrev Running := Interleaving LoggerCall LoggerReply Unit (Logger × Log)

/-- One call of one thread. -/
abbrev Next : Running → Running → Prop := Interleaving.Step (logged serveLogger) Admitted

/-- What is reached when the log file is open. -/
abbrev Reached (start : Logger) : Running → Prop :=
  Interleaving.Reachable (logged serveLogger) Admitted (start, [])

/-- The files are the volumes of the record throughout a run. -/
theorem reached_recorded {s : Logger} (waits : ∀ name, .file name ∉ s.tasks) {file : Bytes} {now : Tm}
    {i : Running}
    (reached : Reached (opened s file now) i) :
    Recorded (opened s file now) ((s.files file).getD []) i.world :=
  Interleaving.contract_invariant threads (opened_recorded waits file now)
    (fun _ _ recorded asked => ⟨serve_recorded recorded asked, trivial⟩)
      (fun _ admitted => admitted_meets admitted)
    reached

/-- A step leaves every file but the log file as it is. -/
theorem next_untouched {s : Logger} (waits : ∀ name, .file name ∉ s.tasks) {file : Bytes} {now : Tm}
    {i j : Running}
    (reached : Reached (opened s file now) i) (step : Next i j) {name : Bytes} (other : name ≠ file)
    {held : Bytes} (there : i.world.1.files name = some held) : j.world.1.files name = some held := by
  have recorded := reached_recorded waits reached
  cases step with
  | enter p allowed => exact there
  | served q next => exact serve_untouched recorded q other there

/-- From an open log file, at any point of any interleaving of threads that write and of the logger's thread:
    the archives that were created, in the order of their creation, and then the log file hold what the log
    file held and then the executed messages, each once and in the order of execution; the archives have
    names of their own; no message that was posted is missing among the executed and the waiting ones, and
    they keep their order; and from there on no file but the log file is ever replaced or changed. -/
theorem messages_kept {s : Logger} (waits : ∀ name, .file name ∉ s.tasks) {file : Bytes} {now : Tm}
    {i : Running} (reached : Reached (opened s file now) i) :
    (∃ (contents : List Bytes) (current : Bytes),
      (archives i.world.2).map i.world.1.files = contents.map some ∧ i.world.1.files file = some current ∧
      contents.flatten ++ current =
        (s.files file).getD [] ++ (executed i.world.2).flatMap fun line => line.2 ++ bytes "\n") ∧
    (file :: archives i.world.2).Nodup ∧
    s.waiting ++ posted i.world.2 = (executed i.world.2).map Prod.snd ++ i.world.1.waiting ∧
    ∀ j, Relation.ReflTransGen Next i j →
      ∀ name held, name ≠ file → i.world.1.files name = some held → j.world.1.files name = some held := by
  have recorded := reached_recorded waits reached
  refine ⟨⟨_, _, ?_, recorded.current, recorded.bytes⟩, recorded.distinct, recorded.inOrder, ?_⟩
  · rw [recorded.closed, List.map_map]
    rfl
  · intro j path name held other there
    have both : Reached (opened s file now) j ∧ j.world.1.files name = some held := by
      induction path with
      | refl => exact ⟨reached, there⟩
      | tail _ step ih => exact ⟨.step ih.1 step, next_untouched waits ih.1 step other ih.2⟩
    exact both.2

/-! ### A rotation

A message is written into the log file, another one comes in the next minute, and the logger's thread takes
what it was posted: the first message, the rotation, and the second message, which goes into the new file. -/

/-- A logger of a clean directory. -/
private def clean : Logger := { fileCreated := ⟨124, 0, 1, 10, 5, 0⟩, files := fun _ => none }

/-- The log file is open since 10:05. -/
private def openLog : Logger := opened clean (bytes "log") ⟨124, 0, 1, 10, 5, 0⟩

/-- One thread writes at 10:05, another one at 10:06, and the logger's thread runs three tasks. -/
private def turns : List (Program LoggerCall LoggerReply Unit) :=
  [write ⟨124, 0, 1, 10, 5, 30⟩ (bytes "l"), write ⟨124, 0, 1, 10, 6, 0⟩ (bytes "m"),
    .call (.execute ⟨124, 0, 1, 10, 6, 0⟩) fun _ => .ret (),
    .call (.execute ⟨124, 0, 1, 10, 6, 0⟩) fun _ => .ret (),
    .call (.execute ⟨124, 0, 1, 10, 6, 1⟩) fun _ => .ret ()]

/-- The logger and its record after some turns. -/
private def turnsTaken (turns : List (Program LoggerCall LoggerReply Unit)) (state : Logger × Log) :
    Logger × Log :=
  turns.foldl (fun state p => (p.exec (logged serveLogger) state).2.1) state

private theorem reached_after {turns : List (Program LoggerCall LoggerReply Unit)}
    (admitted : ∀ p ∈ turns, Admitted p) {i : Running} (reached : Reached openLog i) :
    ∃ running, Reached openLog ⟨turnsTaken turns i.world, running⟩ := by
  induction turns generalizing i with
  | nil => exact ⟨i.running, reached⟩
  | cons p turns ih =>
      rw [List.forall_mem_cons] at admitted
      exact ih admitted.2 (reached.enter admitted.1).exec

/-- The log file has become an archive, and each file holds its message. -/
theorem messages_kept_rotated :
    let ran := turnsTaken turns (openLog, [])
    archives ran.2 = [bytes "log.2024-01-01_1005"] ∧ (executed ran.2).map Prod.snd = [bytes "l", bytes "m"] ∧
      ran.1.files (bytes "log.2024-01-01_1005") = some (bytes "l\n") ∧
      ran.1.files (bytes "log") = some (bytes "m\n") ∧ ran.1.waiting = [] ∧
      ∃ (contents : List Bytes) (current : Bytes), (archives ran.2).map ran.1.files = contents.map some ∧
        ran.1.files (bytes "log") = some current ∧
        contents.flatten ++ current = (executed ran.2).flatMap fun line => line.2 ++ bytes "\n" := by
  intro ran
  have waits : ∀ name, .file name ∉ clean.tasks := fun name => List.not_mem_nil
  have admitted : ∀ p ∈ turns, Admitted p := by
    simp only [turns, List.forall_mem_cons, List.not_mem_nil, false_implies, implies_true, and_true]
    exact ⟨.write _ _, .write _ _, .execute _, .execute _, .execute _⟩
  rcases reached_after admitted .start with ⟨running, reached⟩
  exact ⟨by decide +kernel, by decide +kernel, by decide +kernel, by decide +kernel, by decide +kernel,
    (messages_kept waits reached).1⟩

end Waspp.Logger
