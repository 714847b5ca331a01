/-
Module: Waspp.Foundation.Interaction
Layer: Foundation
Purpose: Programs that call a server, and actions over a local state that may raise exceptions and call a
  server.  A program is a tree whose nodes are calls; nothing is said about the replies.  `Always` says what
  holds of every run whatever the replies are, together with the trace of calls and replies; `exec` runs a
  program against one server.  Actions come with one rule for each way they are built, by which a
  postcondition is computed from the text of an action.  A contract says what programs may ask and what the
  server replies to it; `Meets` has the same rules.  The last part runs many programs against one server,
  call by call in any order, and gives the rules by which an invariant of the shared state follows from what
  each program guarantees on its own; the calls may bear the name that their program runs for.
Imports: Mathlib.Tactic.Basic
Trusted boundary: none (fully proved)
Main exports: Program, Program.Always, Program.Runs, Program.always_iff_runs, Program.exec,
  Program.always_exec, Program.Served, Contract, Program.Meets, Program.exec_meets, Program.exec_asks,
  Action, Action.Ensures, Action.Meets, Interleaving, Interleaving.Reachable.exec, Interleaving.invariant,
  Interleaving.contract_holds, Interleaving.contract_invariant, Interleaving.Run, logged,
  Interleaving.Run.since, Program.signed
Open obligations: none
-/
import Mathlib.Tactic.Basic

namespace Interaction

/-- A program that calls a server with questions in `Q`; the reply to `q` has type `R q`. -/
inductive Program (Q : Type) (R : Q → Type) (α : Type) where
  | ret (a : α)
  | call (q : Q) (next : R q → Program Q R α)

/-- A call with its reply. -/
abbrev Event (Q : Type) (R : Q → Type) := (q : Q) × R q

/-- What programs may ask, and what the server then replies. -/
structure Contract (Q : Type) (R : Q → Type) where
  asks : Q → Prop
  replies : (q : Q) → R q → Prop

namespace Program

variable {Q : Type} {R : Q → Type} {α β σ : Type}

/-- One program after another. -/
def bind : Program Q R α → (α → Program Q R β) → Program Q R β
  | .ret a, f => f a
  | .call q next, f => .call q fun r => (next r).bind f

/-- `P` holds of the trace and the result of every run, whatever the replies. -/
def Always : Program Q R α → (List (Event Q R) → α → Prop) → Prop
  | .ret a, P => P [] a
  | .call q next, P => ∀ r, (next r).Always fun trace a => P (⟨q, r⟩ :: trace) a

/-- The run against a server: the result, the server's last state and the trace. -/
def exec (serve : (q : Q) → σ → R q × σ) : Program Q R α → σ → α × σ × List (Event Q R)
  | .ret a, s => (a, s, [])
  | .call q next, s =>
      let (r, s') := serve q s
      let (a, last, trace) := exec serve (next r) s'
      (a, last, ⟨q, r⟩ :: trace)

/-- What holds always still holds when weakened. -/
theorem Always.mono {p : Program Q R α} {P P' : List (Event Q R) → α → Prop} (always : p.Always P)
    (weaken : ∀ trace a, P trace a → P' trace a) : p.Always P' := by
  induction p generalizing P P' with
  | ret a => exact weaken [] a always
  | call q next ih => exact fun r => ih r (always r) fun trace a => weaken (⟨q, r⟩ :: trace) a

/-- What holds of every outcome holds always. -/
theorem always_of_forall {p : Program Q R α} {P : List (Event Q R) → α → Prop} (all : ∀ trace a, P trace a) :
    p.Always P := by
  induction p generalizing P with
  | ret a => exact all [] a
  | call q next ih => exact fun r => ih r fun trace a => all (⟨q, r⟩ :: trace) a

/-- The runs of a sequence are the runs of its parts, one after the other. -/
theorem always_bind {p : Program Q R α} {f : α → Program Q R β} {P : List (Event Q R) → β → Prop} :
    (p.bind f).Always P ↔
      p.Always fun trace a => (f a).Always fun later b => P (trace ++ later) b := by
  induction p generalizing P with
  | ret a => rfl
  | call q next ih => exact forall_congr' fun r => ih r

/-- The program may make these calls, get these replies and end with this result. -/
def Runs : Program Q R α → List (Event Q R) → α → Prop
  | .ret a, trace, b => trace = [] ∧ a = b
  | .call q next, trace, b => ∃ r later, trace = ⟨q, r⟩ :: later ∧ (next r).Runs later b

/-- What always holds are the properties of all runs. -/
theorem always_iff_runs {p : Program Q R α} {P : List (Event Q R) → α → Prop} :
    p.Always P ↔ ∀ trace a, p.Runs trace a → P trace a := by
  induction p generalizing P with
  | ret a =>
      constructor
      · rintro always trace b ⟨rfl, rfl⟩
        exact always
      · intro all
        exact all [] a ⟨rfl, rfl⟩
  | call q next ih =>
      constructor
      · rintro always trace b ⟨r, later, rfl, ran⟩
        exact (ih r).mp (always r) later b ran
      · intro all r
        exact (ih r).mpr fun later b ran => all _ b ⟨r, later, rfl, ran⟩

/-- Execution against a server is one of the runs. -/
theorem runs_exec (p : Program Q R α) (serve : (q : Q) → σ → R q × σ) (s : σ) :
    p.Runs (p.exec serve s).2.2 (p.exec serve s).1 := by
  induction p generalizing s with
  | ret a => exact ⟨rfl, rfl⟩
  | call q next ih => exact ⟨_, _, rfl, ih _ _⟩

/-- The run against a server is one of the runs. -/
theorem always_exec {p : Program Q R α} {P : List (Event Q R) → α → Prop} (always : p.Always P)
    (serve : (q : Q) → σ → R q × σ) (s : σ) : P (p.exec serve s).2.2 (p.exec serve s).1 :=
  always_iff_runs.mp always _ _ (p.runs_exec serve s)

theorem exec_bind (serve : (q : Q) → σ → R q × σ) (p : Program Q R α) (f : α → Program Q R β) (s : σ) :
    (p.bind f).exec serve s =
      let (a, s', trace) := p.exec serve s
      let (b, last, later) := (f a).exec serve s'
      (b, last, trace ++ later) := by
  induction p generalizing s with
  | ret a => rfl
  | call q next ih => simp only [bind, exec, ih, List.cons_append]

/-- The replies of a trace are those of the server, call by call from a state on. -/
def Served (serve : (q : Q) → σ → R q × σ) : σ → List (Event Q R) → Prop
  | _, [] => True
  | s, e :: later => e.2 = (serve e.1 s).1 ∧ Served serve (serve e.1 s).2 later

/-- The replies of an execution are the server's. -/
theorem served_exec (p : Program Q R α) (serve : (q : Q) → σ → R q × σ) (s : σ) :
    Served serve s (p.exec serve s).2.2 := by
  induction p generalizing s with
  | ret a => exact trivial
  | call q next ih => exact ⟨rfl, ih _ _⟩

/-- As long as the server keeps its side of the contract, the program keeps its own, and `P` holds of its
    result. -/
def Meets (c : Contract Q R) : Program Q R α → (α → Prop) → Prop
  | .ret a, P => P a
  | .call q next, P => c.asks q ∧ ∀ r, c.replies q r → (next r).Meets c P

theorem Meets.mono {c : Contract Q R} {p : Program Q R α} {P P' : α → Prop} (meets : p.Meets c P)
    (weaken : ∀ a, P a → P' a) : p.Meets c P' := by
  induction p with
  | ret a => exact weaken a meets
  | call q next ih => exact ⟨meets.1, fun r replied => ih r (meets.2 r replied)⟩

/-- A contract that allows more and promises no less. -/
theorem Meets.allow {c c' : Contract Q R} {p : Program Q R α} {P : α → Prop} (meets : p.Meets c P)
    (asks : ∀ q, c.asks q → c'.asks q) (replies : ∀ q r, c'.replies q r → c.replies q r) : p.Meets c' P := by
  induction p with
  | ret a => exact meets
  | call q next ih => exact ⟨asks q meets.1, fun r replied => ih r (meets.2 r (replies q r replied))⟩

theorem meets_bind {c : Contract Q R} {p : Program Q R α} {f : α → Program Q R β} {P : β → Prop} :
    (p.bind f).Meets c P ↔ p.Meets c fun a => (f a).Meets c P := by
  induction p with
  | ret a => rfl
  | call q next ih => exact and_congr Iff.rfl (forall_congr' fun r => imp_congr Iff.rfl (ih r))

/-- What always holds and is not about the run holds. -/
theorem of_always_const (replies : ∀ q, Nonempty (R q)) {p : Program Q R α} {P : Prop}
    (always : p.Always fun _ _ => P) :
    P := by
  induction p with
  | ret a => exact always
  | call q next ih =>
      obtain ⟨r⟩ := replies q
      exact ih r (always r)

/-- A program that asks nothing else whatever the replies are meets every contract that allows it. -/
theorem meets_of_always (replies : ∀ q, Nonempty (R q)) {c : Contract Q R} {p : Program Q R α} {P : α → Prop}
    (always : p.Always fun trace a => (∀ e ∈ trace, c.asks e.1) ∧ P a) : p.Meets c P := by
  induction p with
  | ret a => exact always.2
  | call q next ih =>
      have asked : c.asks q := by
        obtain ⟨r⟩ := replies q
        exact of_always_const replies
          (Always.mono (always r) fun trace a all => all.1 ⟨q, r⟩ (List.mem_cons_self ..))
      refine ⟨asked, ?_⟩
      intro r _
      apply ih r
      apply Always.mono (always r)
      intro trace a all
      exact ⟨fun e member => all.1 e (List.mem_cons_of_mem _ member), all.2⟩

/-- A program that meets a contract, run against a server that keeps an invariant of its state and record and
    its side of the contract: the invariant holds at the end, and `P` of the result. -/
theorem exec_meets {c : Contract Q R} {I : σ → List (Event Q R) → Prop} {serve : (q : Q) → σ → R q × σ}
    (honest : ∀ s log q, I s log → c.asks q →
      I (serve q s).2 (log ++ [⟨q, (serve q s).1⟩]) ∧ c.replies q (serve q s).1)
    {p : Program Q R α} {P : α → Prop} (meets : p.Meets c P) {s : σ} {log : List (Event Q R)}
    (holds : I s log) :
    I (p.exec serve s).2.1 (log ++ (p.exec serve s).2.2) ∧ P (p.exec serve s).1 := by
  induction p generalizing s log with
  | ret a => exact ⟨by simpa [exec] using holds, meets⟩
  | call q next ih =>
      have served := honest s log q holds meets.1
      have rest := ih _ (meets.2 _ served.2) served.1
      simpa [exec, List.append_assoc] using rest

/-- A program that meets a contract keeps every invariant that the server keeps as long as the contract is
    met. -/
theorem exec_keeps {c : Contract Q R} {I : σ → Prop} {serve : (q : Q) → σ → R q × σ}
    (honest : ∀ s q, I s → c.asks q → I (serve q s).2 ∧ c.replies q (serve q s).1) {p : Program Q R α}
    {P : α → Prop} (meets : p.Meets c P) {s : σ} (holds : I s) : I (p.exec serve s).2.1 := by
  induction p generalizing s with
  | ret a => exact holds
  | call q next ih =>
      have served := honest s q holds meets.1
      exact ih _ (meets.2 _ served.2) served.1

/-- A program that meets a contract, run against a server that keeps its side: every call is one that the
    contract allows, and `P` holds of the result. -/
theorem exec_asks {c : Contract Q R} {serve : (q : Q) → σ → R q × σ}
    (honest : ∀ s q, c.asks q → c.replies q (serve q s).1) {p : Program Q R α} {P : α → Prop}
    (meets : p.Meets c P) (s : σ) : (∀ e ∈ (p.exec serve s).2.2, c.asks e.1) ∧ P (p.exec serve s).1 := by
  induction p generalizing s with
  | ret a => exact ⟨by simp [exec], meets⟩
  | call q next ih =>
      have rest := ih _ (meets.2 _ (honest s q meets.1)) (serve q s).2
      refine ⟨?_, rest.2⟩
      intro e member
      rcases List.mem_cons.mp member with rfl | later
      · exact meets.1
      · exact rest.1 e later

/-- Every run of a program that meets a contract, in which the replies keep the server's side: every call is
    one that the contract allows, and `P` holds of the result. -/
theorem Meets.runs {c : Contract Q R} {p : Program Q R α} {P : α → Prop} (meets : p.Meets c P)
    {trace : List (Event Q R)} {a : α} (ran : p.Runs trace a) (replied : ∀ e ∈ trace, c.replies e.1 e.2) :
    (∀ e ∈ trace, c.asks e.1) ∧ P a := by
  induction p generalizing trace with
  | ret b =>
      obtain ⟨rfl, rfl⟩ := ran
      exact ⟨by simp, meets⟩
  | call q next ih =>
      obtain ⟨r, later, rfl, ran⟩ := ran
      have rest := ih r (meets.2 r (replied ⟨q, r⟩ (by simp))) ran fun e member =>
          replied e (by simp [member])
      refine ⟨?_, rest.2⟩
      intro e member
      rcases List.mem_cons.mp member with rfl | inLater
      · exact meets.1
      · exact rest.1 e inLater

/-- Under a contract that promises nothing, every call of every run is one that the contract allows. -/
theorem Meets.always {c : Contract Q R} {p : Program Q R α} {P : α → Prop} (meets : p.Meets c P)
    (replies : ∀ q r, c.replies q r) : p.Always fun trace a => (∀ e ∈ trace, c.asks e.1) ∧ P a :=
  always_iff_runs.mpr fun _ _ ran => meets.runs ran fun e _ => replies e.1 e.2

end Program

/-- An action over a local state `σ` that may raise an exception in `ε` and call a server.  The local state
    survives an exception. -/
def Action (Q : Type) (R : Q → Type) (σ ε α : Type) : Type :=
  σ → Program Q R (Except ε α × σ)

namespace Action

variable {Q : Type} {R : Q → Type} {σ ε α β ω : Type}

instance : Monad (Action Q R σ ε) where
  pure a := fun s => .ret (.ok a, s)
  bind m f := fun s => (m s).bind fun
    | (.ok a, s') => f a s'
    | (.error e, s') => .ret (.error e, s')

/-- A computation on the local state. -/
def lift (f : σ → Except ε α × σ) : Action Q R σ ε α :=
  fun s => .ret (f s)

/-- Read the local state. -/
def get : Action Q R σ ε σ := lift fun s => (.ok s, s)

/-- Change the local state. -/
def modify (f : σ → σ) : Action Q R σ ε Unit := lift fun s => (.ok (), f s)

/-- Raise an exception. -/
def raise (e : ε) : Action Q R σ ε α := lift fun s => (.error e, s)

/-- Call the server. -/
def ask (q : Q) : Action Q R σ ε (R q) :=
  fun s => .call q fun r => .ret (.ok r, s)

/-- Handle an exception. -/
def recover (m : Action Q R σ ε α) (handler : ε → Action Q R σ ε α) : Action Q R σ ε α :=
  fun s => (m s).bind fun
    | (.ok a, s') => .ret (.ok a, s')
    | (.error e, s') => handler e s'

/-- `P` holds of every run from `s`: of its trace, its value or exception, and its last local state. -/
def Ensures (m : Action Q R σ ε α) (s : σ) (P : List (Event Q R) → Except ε α → σ → Prop) : Prop :=
  (m s).Always fun trace result => P trace result.1 result.2

/-- The run from `s` against a server: the value or exception with the last local state, the server's last
    state and the trace. -/
def exec (serve : (q : Q) → ω → R q × ω) (m : Action Q R σ ε α) (s : σ) (world : ω) :
    (Except ε α × σ) × ω × List (Event Q R) :=
  (m s).exec serve world

/-- What an action ensures may be weakened. -/
theorem Ensures.mono {m : Action Q R σ ε α} {s : σ} {P P' : List (Event Q R) → Except ε α → σ → Prop}
    (ensures : m.Ensures s P) (weaken : ∀ trace r s', P trace r s' → P' trace r s') : m.Ensures s P' :=
  Program.Always.mono ensures fun trace result => weaken trace result.1 result.2

/-- The action may make these calls, get these replies, and leave this value or exception and this local
    state. -/
def Runs (m : Action Q R σ ε α) (s : σ) (trace : List (Event Q R)) (r : Except ε α) (s' : σ) : Prop :=
  (m s).Runs trace (r, s')

/-- What an action ensures holds of each of its runs. -/
theorem Ensures.runs {m : Action Q R σ ε α} {s : σ} {P : List (Event Q R) → Except ε α → σ → Prop}
    (ensures : m.Ensures s P) {trace : List (Event Q R)} {r : Except ε α} {s' : σ}
    (ran : m.Runs s trace r s') :
    P trace r s' :=
  Program.always_iff_runs.mp ensures trace (r, s') ran

/-- The run against a server is one of the runs. -/
theorem runs_exec (m : Action Q R σ ε α) (serve : (q : Q) → ω → R q × ω) (s : σ) (world : ω) :
    m.Runs s (m.exec serve s world).2.2 (m.exec serve s world).1.1 (m.exec serve s world).1.2 :=
  Program.runs_exec (m s) serve world

/-- What holds of every outcome is ensured. -/
theorem ensures_of_forall {m : Action Q R σ ε α} {s : σ} {P : List (Event Q R) → Except ε α → σ → Prop}
    (all : ∀ trace r s', P trace r s') : m.Ensures s P :=
  Program.always_of_forall fun trace result => all trace result.1 result.2

/-- What every run ensures holds of the run against any server. -/
theorem Ensures.exec {m : Action Q R σ ε α} {s : σ} {P : List (Event Q R) → Except ε α → σ → Prop}
    (ensures : m.Ensures s P) (serve : (q : Q) → ω → R q × ω) (world : ω) :
    P (m.exec serve s world).2.2 (m.exec serve s world).1.1 (m.exec serve s world).1.2 :=
  Program.always_exec ensures serve world

section Rules

variable {s : σ} {P : List (Event Q R) → Except ε α → σ → Prop}

@[simp] theorem ensures_pure (a : α) :
    Ensures (pure a : Action Q R σ ε α) s P ↔ P [] (.ok a) s := Iff.rfl

@[simp] theorem ensures_lift (f : σ → Except ε α × σ) :
    Ensures (lift f : Action Q R σ ε α) s P ↔ P [] (f s).1 (f s).2 := Iff.rfl

@[simp] theorem ensures_raise (e : ε) :
    Ensures (raise e : Action Q R σ ε α) s P ↔ P [] (.error e) s := Iff.rfl

@[simp] theorem ensures_get {P : List (Event Q R) → Except ε σ → σ → Prop} :
    Ensures (get : Action Q R σ ε σ) s P ↔ P [] (.ok s) s := Iff.rfl

@[simp] theorem ensures_modify (f : σ → σ) {P : List (Event Q R) → Except ε Unit → σ → Prop} :
    Ensures (modify f : Action Q R σ ε Unit) s P ↔ P [] (.ok ()) (f s) := Iff.rfl

@[simp] theorem ensures_ask (q : Q) {P : List (Event Q R) → Except ε (R q) → σ → Prop} :
    Ensures (ask q : Action Q R σ ε (R q)) s P ↔ ∀ r, P [⟨q, r⟩] (.ok r) s := Iff.rfl

/-- The rule of sequence: an exception skips what follows. -/
theorem ensures_bind {m : Action Q R σ ε β} {f : β → Action Q R σ ε α} :
    Ensures (m >>= f) s P ↔
      m.Ensures s fun trace r s' =>
        match r with
        | .ok a => (f a).Ensures s' fun later r' last => P (trace ++ later) r' last
        | .error e => P trace (.error e) s' := by
  refine Program.always_bind.trans ?_
  constructor <;>
    · intro always
      refine Program.Always.mono always fun trace result => ?_
      rcases result with ⟨r, s'⟩
      cases r with
      | ok a => exact id
      | error e => simp [Program.Always]

theorem ensures_get_bind {f : σ → Action Q R σ ε α} : Ensures (get >>= f) s P ↔ (f s).Ensures s P :=
  ensures_bind

theorem ensures_modify_bind {f : σ → σ} {next : Unit → Action Q R σ ε α} :
    Ensures (modify f >>= next) s P ↔ (next ()).Ensures (f s) P := ensures_bind

/-- The rule of handlers. -/
theorem ensures_recover {m : Action Q R σ ε α} {handler : ε → Action Q R σ ε α} :
    Ensures (m.recover handler) s P ↔
      m.Ensures s fun trace r s' =>
        match r with
        | .ok a => P trace (.ok a) s'
        | .error e => (handler e).Ensures s' fun later r' last => P (trace ++ later) r' last := by
  refine Program.always_bind.trans ?_
  constructor <;>
    · intro always
      refine Program.Always.mono always fun trace result => ?_
      rcases result with ⟨r, s'⟩
      cases r with
      | ok a => simp [Program.Always]
      | error e => exact id

/-- A branch ensures what both of its sides do. -/
theorem ensures_ite (p : Prop) [Decidable p] {m n : Action Q R σ ε α} :
    Ensures (if p then m else n) s P ↔ (p → m.Ensures s P) ∧ (¬ p → n.Ensures s P) := by
  by_cases holds : p <;> simp [holds]

end Rules

/-- As long as the server keeps its side of the contract, the action keeps its own, and `P` holds of its
    value or exception and of its last local state. -/
def Meets (c : Contract Q R) (m : Action Q R σ ε α) (s : σ) (P : Except ε α → σ → Prop) : Prop :=
  (m s).Meets c fun result => P result.1 result.2

theorem Meets.mono {c : Contract Q R} {m : Action Q R σ ε α} {s : σ} {P P' : Except ε α → σ → Prop}
    (meets : m.Meets c s P) (weaken : ∀ r s', P r s' → P' r s') : m.Meets c s P' :=
  Program.Meets.mono meets fun result => weaken result.1 result.2

/-- An action that meets a contract keeps the invariant of an honest server, and ends as it promises. -/
theorem exec_meets {c : Contract Q R} {I : ω → List (Event Q R) → Prop} {serve : (q : Q) → ω → R q × ω}
    (honest : ∀ world log q, I world log → c.asks q →
      I (serve q world).2 (log ++ [⟨q, (serve q world).1⟩]) ∧ c.replies q (serve q world).1)
    {m : Action Q R σ ε α} {s : σ} {P : Except ε α → σ → Prop} (meets : m.Meets c s P) {world : ω}
    {log : List (Event Q R)} (holds : I world log) :
    I (m.exec serve s world).2.1 (log ++ (m.exec serve s world).2.2) ∧
      P (m.exec serve s world).1.1 (m.exec serve s world).1.2 :=
  Program.exec_meets honest meets holds

/-- Against an honest server every call that is made is one the contract allows. -/
theorem exec_asks {c : Contract Q R} {serve : (q : Q) → ω → R q × ω}
    (honest : ∀ world q, c.asks q → c.replies q (serve q world).1) {m : Action Q R σ ε α} {s : σ}
    {P : Except ε α → σ → Prop} (meets : m.Meets c s P) (world : ω) :
    (∀ e ∈ (m.exec serve s world).2.2, c.asks e.1) ∧
    P (m.exec serve s world).1.1 (m.exec serve s world).1.2 :=
  Program.exec_asks honest meets world

section ContractRules

variable {c : Contract Q R} {s : σ} {P : Except ε α → σ → Prop}

@[simp] theorem meets_pure (a : α) : Meets c (pure a : Action Q R σ ε α) s P ↔ P (.ok a) s := Iff.rfl

@[simp] theorem meets_lift (f : σ → Except ε α × σ) :
    Meets c (lift f : Action Q R σ ε α) s P ↔ P (f s).1 (f s).2 := Iff.rfl

@[simp] theorem meets_raise (e : ε) : Meets c (raise e : Action Q R σ ε α) s P ↔ P (.error e) s := Iff.rfl

@[simp] theorem meets_get {P : Except ε σ → σ → Prop} :
    Meets c (get : Action Q R σ ε σ) s P ↔ P (.ok s) s := Iff.rfl

@[simp] theorem meets_modify (f : σ → σ) {P : Except ε Unit → σ → Prop} :
    Meets c (modify f : Action Q R σ ε Unit) s P ↔ P (.ok ()) (f s) := Iff.rfl

@[simp] theorem meets_ask (q : Q) {P : Except ε (R q) → σ → Prop} :
    Meets c (ask q : Action Q R σ ε (R q)) s P ↔ c.asks q ∧ ∀ r, c.replies q r → P (.ok r) s := Iff.rfl

theorem meets_bind {m : Action Q R σ ε β} {f : β → Action Q R σ ε α} :
    Meets c (m >>= f) s P ↔
      m.Meets c s fun r s' =>
        match r with
        | .ok a => (f a).Meets c s' P
        | .error e => P (.error e) s' := by
  refine Program.meets_bind.trans ?_
  constructor <;>
    · intro meets
      refine Program.Meets.mono meets fun result => ?_
      rcases result with ⟨r, s'⟩
      cases r <;> exact id

/-- A handler of exceptions must meet the contract from every state in which one is raised. -/
theorem meets_recover {m : Action Q R σ ε α} {handler : ε → Action Q R σ ε α} :
    Meets c (m.recover handler) s P ↔
      m.Meets c s fun r s' =>
        match r with
        | .ok a => P (.ok a) s'
        | .error e => (handler e).Meets c s' P := by
  refine Program.meets_bind.trans ?_
  constructor <;>
    · intro meets
      refine Program.Meets.mono meets fun result => ?_
      rcases result with ⟨r, s'⟩
      cases r <;> exact id

theorem meets_get_bind {f : σ → Action Q R σ ε α} : Meets c (get >>= f) s P ↔ (f s).Meets c s P := meets_bind

/-- A branch meets a contract when both of its sides do. -/
theorem meets_ite (p : Prop) [Decidable p] {m n : Action Q R σ ε α} :
    Meets c (if p then m else n) s P ↔ (p → m.Meets c s P) ∧ (¬ p → n.Meets c s P) := by
  by_cases holds : p <;> simp [holds]

end ContractRules

section Execution

variable (serve : (q : Q) → ω → R q × ω) (s : σ) (world : ω)

@[simp] theorem exec_pure (a : α) :
    (pure a : Action Q R σ ε α).exec serve s world = ((.ok a, s), world, []) := rfl

@[simp] theorem exec_lift (f : σ → Except ε α × σ) :
    (lift f : Action Q R σ ε α).exec serve s world = (f s, world, []) := rfl

@[simp] theorem exec_get :
    (get : Action Q R σ ε σ).exec serve s world = ((.ok s, s), world, []) := rfl

@[simp] theorem exec_modify (f : σ → σ) :
    (modify f : Action Q R σ ε Unit).exec serve s world = ((.ok (), f s), world, []) := rfl

@[simp] theorem exec_raise (e : ε) :
    (raise e : Action Q R σ ε α).exec serve s world = ((.error e, s), world, []) := rfl

@[simp] theorem exec_ask (q : Q) :
    (ask q : Action Q R σ ε (R q)).exec serve s world =
      ((.ok (serve q world).1, s), (serve q world).2, [⟨q, (serve q world).1⟩]) := rfl

theorem exec_bind (m : Action Q R σ ε β) (f : β → Action Q R σ ε α) :
    (m >>= f).exec serve s world =
      match m.exec serve s world with
      | ((.ok a, s'), world', trace) =>
          (((f a).exec serve s' world').1, ((f a).exec serve s' world').2.1,
            trace ++ ((f a).exec serve s' world').2.2)
      | ((.error e, s'), world', trace) => ((.error e, s'), world', trace) := by
  refine (Program.exec_bind serve (m s) _ world).trans ?_
  rcases ran : m.exec serve s world with ⟨⟨r, s'⟩, world', trace⟩
  rw [exec] at ran
  cases r with
  | ok a => simp only [ran]; rfl
  | error e => simp only [ran, Program.exec, List.append_nil]

end Execution

end Action

/-! ### Many programs, one server

The programs' calls are served one at a time, in any order, and new programs may come in at any time. -/

/-- The shared state with the programs under way. -/
structure Interleaving (Q : Type) (R : Q → Type) (α ω : Type) where
  world : ω
  running : List (Program Q R α)

namespace Interleaving

variable {Q : Type} {R : Q → Type} {α ω : Type}

/-- One step: a program comes in, or one of the programs has its call served. -/
inductive Step (serve : (q : Q) → ω → R q × ω) (admitted : Program Q R α → Prop) :
    Interleaving Q R α ω → Interleaving Q R α ω → Prop where
  | enter {world : ω} {running : List (Program Q R α)} (p : Program Q R α) (allowed : admitted p) :
      Step serve admitted ⟨world, running⟩ ⟨world, p :: running⟩
  | served {world : ω} {before after : List (Program Q R α)} (q : Q) (next : R q → Program Q R α) :
      Step serve admitted ⟨world, before ++ .call q next :: after⟩
        ⟨(serve q world).2, before ++ next (serve q world).1 :: after⟩

/-- What is reached from a shared state with no program under way. -/
inductive Reachable (serve : (q : Q) → ω → R q × ω) (admitted : Program Q R α → Prop) (start : ω) :
    Interleaving Q R α ω → Prop where
  | start : Reachable serve admitted start ⟨start, []⟩
  | step {i j : Interleaving Q R α ω} (reached : Reachable serve admitted start i)
      (step : Step serve admitted i j) : Reachable serve admitted start j

/-- A program may come in at any time. -/
theorem Reachable.enter {serve : (q : Q) → ω → R q × ω} {admitted : Program Q R α → Prop} {start : ω}
    {i : Interleaving Q R α ω} (reached : Reachable serve admitted start i) {p : Program Q R α}
    (allowed : admitted p) :
    Reachable serve admitted start ⟨i.world, p :: i.running⟩ :=
  .step reached (.enter p allowed)

/-- A program may have all its calls served without interruption. -/
theorem Reachable.exec {serve : (q : Q) → ω → R q × ω} {admitted : Program Q R α → Prop} {start world : ω}
    {p : Program Q R α} {running : List (Program Q R α)}
    (reached : Reachable serve admitted start ⟨world, p :: running⟩) :
    Reachable serve admitted start ⟨(p.exec serve world).2.1, .ret (p.exec serve world).1 :: running⟩ := by
  induction p generalizing world with
  | ret a => exact reached
  | call q next ih =>
      have step : Step serve admitted ⟨world, [] ++ .call q next :: running⟩
          ⟨(serve q world).2, [] ++ next (serve q world).1 :: running⟩ := .served q next
      exact ih _ (.step reached step)

/-- An invariant `I` of the shared state holds throughout when every program under way keeps a guarantee `G`:
    programs come in with it, a served call keeps the invariant and the guarantee of its program, and no call
    of one program breaks the guarantee of another. -/
theorem invariant {serve : (q : Q) → ω → R q × ω} {admitted : Program Q R α → Prop} {start : ω}
    {I : ω → Prop} {G : ω → Program Q R α → Prop} (initial : I start)
    (enters : ∀ world p, I world → admitted p → G world p)
    (keeps : ∀ world q next, I world → G world (.call q next) →
      I (serve q world).2 ∧ G (serve q world).2 (next (serve q world).1))
    (stable : ∀ world q next p, I world → G world (.call q next) → G world p → G (serve q world).2 p)
    {i : Interleaving Q R α ω} (reached : Reachable serve admitted start i) :
    I i.world ∧ ∀ p ∈ i.running, G i.world p := by
  induction reached with
  | start => exact ⟨initial, by simp⟩
  | step _ step ih =>
      cases step with
      | enter p allowed =>
          refine ⟨ih.1, ?_⟩
          intro other member
          rcases List.mem_cons.mp member with rfl | under
          · exact enters _ _ ih.1 allowed
          · exact ih.2 other under
      | @served world before after q next =>
          rcases ih with ⟨holds, guarantees⟩
          have here : G world (.call q next) := guarantees _ (by simp)
          have kept := keeps world q next holds here
          refine ⟨kept.1, ?_⟩
          intro other member
          rcases List.mem_append.mp member with left | right
          · exact stable world q next other holds here (guarantees other (by simp [left]))
          · rcases List.mem_cons.mp right with rfl | right
            · exact kept.2
            · exact stable world q next other holds here (guarantees other (by simp [right]))

/-- When every program that comes in meets a contract and the server keeps an invariant and its side of it,
    the invariant holds throughout and the programs under way meet the contract. -/
theorem contract_holds {serve : (q : Q) → ω → R q × ω} {admitted : Program Q R α → Prop} {start : ω}
    {I : ω → Prop} (c : Contract Q R) (initial : I start)
    (honest : ∀ world q, I world → c.asks q → I (serve q world).2 ∧ c.replies q (serve q world).1)
    (meets : ∀ p, admitted p → p.Meets c fun _ => True)
    {i : Interleaving Q R α ω} (reached : Reachable serve admitted start i) :
    I i.world ∧ ∀ p ∈ i.running, p.Meets c fun _ => True :=
  invariant (G := fun _ p => p.Meets c fun _ => True) initial
    (fun _ p _ allowed => meets p allowed)
    (fun world q _ holds under =>
      ⟨(honest world q holds under.1).1, under.2 _ (honest world q holds under.1).2⟩)
    (fun _ _ _ _ _ _ under => under) reached

/-- An invariant of a server that keeps its side of a contract holds throughout when every program that comes
    in meets the contract. -/
theorem contract_invariant {serve : (q : Q) → ω → R q × ω} {admitted : Program Q R α → Prop} {start : ω}
    {I : ω → Prop} (c : Contract Q R) (initial : I start)
    (honest : ∀ world q, I world → c.asks q → I (serve q world).2 ∧ c.replies q (serve q world).1)
    (meets : ∀ p, admitted p → p.Meets c fun _ => True)
    {i : Interleaving Q R α ω} (reached : Reachable serve admitted start i) : I i.world :=
  (contract_holds c initial honest meets reached).1

/-- The states that a run goes through, the last one first. -/
inductive Run (serve : (q : Q) → ω → R q × ω) (admitted : Program Q R α → Prop) (start : ω) :
    List (Interleaving Q R α ω) → Prop where
  | start : Run serve admitted start [⟨start, []⟩]
  | step {i j : Interleaving Q R α ω} {before : List (Interleaving Q R α ω)}
      (run : Run serve admitted start (i :: before)) (step : Step serve admitted i j) :
      Run serve admitted start (j :: i :: before)

/-- A run begins at the start. -/
theorem Run.start_mem {serve : (q : Q) → ω → R q × ω} {admitted : Program Q R α → Prop} {start : ω}
    {states : List (Interleaving Q R α ω)} (run : Run serve admitted start states) :
      ⟨start, []⟩ ∈ states := by
  induction run with
  | start => exact List.mem_singleton_self _
  | step _ _ ih => exact List.mem_cons_of_mem _ ih

/-- A reachable state is the last one of a run. -/
theorem Reachable.run {serve : (q : Q) → ω → R q × ω} {admitted : Program Q R α → Prop} {start : ω}
    {i : Interleaving Q R α ω} (reached : Reachable serve admitted start i) :
    ∃ before, Run serve admitted start (i :: before) := by
  induction reached with
  | start => exact ⟨[], .start⟩
  | step _ step ih =>
      rcases ih with ⟨before, run⟩
      exact ⟨_, .step run step⟩

/-- All states of a run are reachable. -/
theorem Run.reachable {serve : (q : Q) → ω → R q × ω} {admitted : Program Q R α → Prop} {start : ω}
    {states : List (Interleaving Q R α ω)} (run : Run serve admitted start states) :
    ∀ i ∈ states, Reachable serve admitted start i := by
  induction run with
  | start =>
      intro i member
      rw [List.mem_singleton.mp member]
      exact .start
  | step _ step ih =>
      intro i member
      rcases List.mem_cons.mp member with rfl | before
      · exact .step (ih _ (List.mem_cons_self ..)) step
      · exact ih i before

end Interleaving

/-- A server that keeps a record of the calls that it served. -/
def logged {Q : Type} {R : Q → Type} {ω : Type} (serve : (q : Q) → ω → R q × ω) (q : Q)
    (state : ω × List (Event Q R)) : R q × ω × List (Event Q R) :=
  let (r, world) := serve q state.1
  (r, world, state.2 ++ [⟨q, r⟩])

/-- What single calls of a contract do to the shared state, a run does from each of its states to the last,
    when it composes. -/
theorem Interleaving.Run.since {Q : Type} {R : Q → Type} {α ω : Type} {serve : (q : Q) → ω → R q × ω}
    {admitted : Program Q R α → Prop} {start : ω × List (Event Q R)} (c : Contract Q R)
    {D : List (Event Q R) → ω → ω → Prop} (refl : ∀ world, D [] world world)
    (trans : ∀ {one two s t u}, D one s t → D two t u → D (one ++ two) s u)
    (call : ∀ world q, c.asks q → D [⟨q, (serve q world).1⟩] world (serve q world).2)
    (honest : ∀ world q, c.asks q → c.replies q (serve q world).1)
    (meets : ∀ p, admitted p → p.Meets c fun _ => True)
    {states : List (Interleaving Q R α (ω × List (Event Q R)))}
    (run : Run (logged serve) admitted start states) :
    ∀ i ∈ states.head?, ∀ j ∈ states, ∃ served, i.world.2 = j.world.2 ++ served ∧
    D served j.world.1 i.world.1 := by
  have here (i : Interleaving Q R α (ω × List (Event Q R))) :
      ∃ served, i.world.2 = i.world.2 ++ served ∧ D served i.world.1 i.world.1 :=
    ⟨[], (List.append_nil _).symm, refl _⟩
  induction run with
  | start =>
      intro i same j member
      cases Option.some.inj same
      cases List.mem_singleton.mp member
      exact here _
  | @step i k before run step ih =>
      have under : ∀ p ∈ i.running, p.Meets c fun _ => True :=
        (contract_holds c (I := fun _ => True) trivial
          (fun world q _ asks => ⟨trivial, honest world.1 q asks⟩) meets
          (run.reachable i (List.mem_cons_self ..))).2
      intro last same j member
      cases Option.some.inj same
      rcases List.mem_cons.mp member with rfl | earlier
      · exact here _
      · obtain ⟨served, log, done⟩ := ih i rfl j earlier
        cases step with
        | enter p allowed => exact ⟨served, log, done⟩
        | @served world left right q next =>
            have asks : c.asks q := (under (.call q next) (by simp)).1
            refine ⟨served ++ [⟨q, (serve q world.1).1⟩], ?_, trans done (call world.1 q asks)⟩
            rw [← List.append_assoc, ← log]
            rfl

/-! ### Calls under a name -/

section Signed

variable {S Q : Type} {R : Q → Type} {α ω : Type}

/-- The program with every call under the name that it runs for. -/
def Program.signed (name : S) : Program Q R α → Program (S × Q) (fun call => R call.2) α
  | .ret a => .ret a
  | .call q next => .call (name, q) fun r => (next r).signed name

/-- The contract for the calls under a name. -/
def Contract.under (c : Contract (S × Q) fun call => R call.2) (name : S) : Contract Q R :=
  ⟨fun q => c.asks (name, q), fun q r => c.replies (name, q) r⟩

/-- Calls under a name meet a contract when the program meets what the contract says under it. -/
theorem Program.meets_signed {c : Contract (S × Q) fun call => R call.2} {name : S} {p : Program Q R α}
    {P : α → Prop} :
    (p.signed name).Meets c P ↔ p.Meets (c.under name) P := by
  induction p with
  | ret a => rfl
  | call q _ ih => exact and_congr Iff.rfl (forall_congr' fun r => imp_congr Iff.rfl (ih r))

/-- A server that pays no attention to the names. -/
def nameless (serve : (q : Q) → ω → R q × ω) (call : S × Q) (world : ω) : R call.2 × ω := serve call.2 world

end Signed

end Interaction
