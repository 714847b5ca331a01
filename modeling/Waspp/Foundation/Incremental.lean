/-
Module: Waspp.Foundation.Incremental
Layer: Foundation
Purpose: Incremental recognisers.  A recogniser reads one symbol at a time and answers with a
  three-valued verdict: the input is complete, the input is invalid, or more input is needed.  The
  module gives the run of a recogniser on a block of input, the run on a sequence of blocks, the
  acceptance relation, and the rules a development reasons with: runs compose along concatenation,
  blocks do not matter (`feed_eq_run_flatten`), a scanning loop splits its input at the first symbol
  that leaves the loop (`accepts_scan_iff`), and a property kept by every step holds in every
  reachable state (`Reachable.invariant`).  Nothing here depends on what the recogniser recognises.
Imports: Mathlib.Tactic.Basic
Trusted boundary: none (fully proved)
Main exports: Tribool, Action, Machine, Outcome, Machine.run, Machine.feed, Machine.Reads,
  Machine.Accepts, Machine.passes, Machine.Reachable, feed_eq_run_flatten, accepts_scan_iff, scan_of_reads,
  mem_passes_iff
Open obligations: none
-/
import Mathlib.Tactic.Basic

namespace Incremental

/-- A three-valued verdict. -/
inductive Tribool where
  | yes
  | no
  | indeterminate
deriving DecidableEq, Repr, Inhabited

/-- What a recogniser does with the next symbol: read it, giving a verdict and a next state, or refuse
    the input without reading the symbol. -/
inductive Action (σ : Type*) where
  | read (verdict : Tribool) (next : σ)
  | refuse
deriving Repr

/-- The same action with the next state mapped. -/
def Action.map {σ τ : Type*} (f : σ → τ) : Action σ → Action τ
  | .read verdict next => .read verdict (f next)
  | .refuse => .refuse

/-- A recogniser over the alphabet `β` with states `σ`. -/
structure Machine (σ β : Type*) where
  act : σ → β → Action σ

/-- What a run leaves behind: the verdict, the state, and the number of symbols read. -/
@[ext] structure Outcome (σ : Type*) where
  verdict : Tribool
  state : σ
  consumed : Nat
deriving DecidableEq, Repr

/-- An outcome seen from `n` symbols earlier. -/
def Outcome.after {σ : Type*} (n : Nat) (o : Outcome σ) : Outcome σ :=
  { o with consumed := n + o.consumed }

@[simp] theorem Outcome.after_verdict {σ : Type*} (n : Nat) (o : Outcome σ) :
    (o.after n).verdict = o.verdict := rfl

@[simp] theorem Outcome.after_state {σ : Type*} (n : Nat) (o : Outcome σ) :
    (o.after n).state = o.state := rfl

@[simp] theorem Outcome.after_consumed {σ : Type*} (n : Nat) (o : Outcome σ) :
    (o.after n).consumed = n + o.consumed := rfl

@[simp] theorem Outcome.after_zero {σ : Type*} (o : Outcome σ) : o.after 0 = o := by
  simp [Outcome.after]

theorem Outcome.after_after {σ : Type*} (m n : Nat) (o : Outcome σ) :
    (o.after n).after m = o.after (m + n) := by
  simp [Outcome.after, Nat.add_assoc]

/-- Two outcomes that are equal one byte later are equal. -/
theorem Outcome.after_one_eq_iff {σ : Type*} {o : Outcome σ} {v : Tribool} {t : σ} {n : Nat} :
    o.after 1 = ⟨v, t, n + 1⟩ ↔ o = ⟨v, t, n⟩ := by
  obtain ⟨v', t', n'⟩ := o
  simp only [Outcome.after, Outcome.mk.injEq, Nat.add_comm 1, Nat.add_right_cancel_iff]

namespace Machine

variable {σ β : Type*} (m : Machine σ β)

/-- Run the recogniser on one block, up to the first definite verdict. -/
def run : σ → List β → Outcome σ
  | s, [] => ⟨.indeterminate, s, 0⟩
  | s, b :: rest =>
      match m.act s b with
      | .refuse => ⟨.no, s, 0⟩
      | .read .indeterminate t => (run t rest).after 1
      | .read .yes t => ⟨.yes, t, 1⟩
      | .read .no t => ⟨.no, t, 1⟩

/-- Run the recogniser on a sequence of blocks, stopping at the first definite verdict. -/
def feed : σ → List (List β) → Outcome σ
  | s, [] => ⟨.indeterminate, s, 0⟩
  | s, block :: blocks =>
      let o := m.run s block
      match o.verdict with
      | .indeterminate => (feed o.state blocks).after o.consumed
      | _ => o

@[simp] theorem run_nil (s : σ) : m.run s [] = ⟨.indeterminate, s, 0⟩ := rfl

@[simp] theorem feed_nil (s : σ) : m.feed s [] = ⟨.indeterminate, s, 0⟩ := rfl

variable {m}

/-- A byte that is refused ends the run and is not counted. -/
theorem run_cons_refuse {s : σ} {b : β} (h : m.act s b = .refuse) (rest : List β) :
    m.run s (b :: rest) = ⟨.no, s, 0⟩ := by
  simp [run, h]

/-- A run goes on behind a byte that decides nothing. -/
theorem run_cons_indeterminate {s t : σ} {b : β} (h : m.act s b = .read .indeterminate t)
    (rest : List β) : m.run s (b :: rest) = (m.run t rest).after 1 := by
  simp [run, h]

/-- A byte that accepts ends the run. -/
theorem run_cons_yes {s t : σ} {b : β} (h : m.act s b = .read .yes t) (rest : List β) :
    m.run s (b :: rest) = ⟨.yes, t, 1⟩ := by
  simp [run, h]

/-- A byte that rejects ends the run. -/
theorem run_cons_no {s t : σ} {b : β} (h : m.act s b = .read .no t) (rest : List β) :
    m.run s (b :: rest) = ⟨.no, t, 1⟩ := by
  simp [run, h]

/-- A symbol that does not leave the verdict open ends the run: what follows it is not looked at. -/
theorem run_cons_stop {s : σ} {b : β} (stop : ∀ t, m.act s b ≠ .read .indeterminate t)
    (rest : List β) :
    m.run s (b :: rest) = m.run s [b] ∧ (m.run s [b]).verdict ≠ .indeterminate ∧
      (m.run s [b]).consumed ≤ 1 := by
  cases h : m.act s b with
  | refuse => simp [run_cons_refuse h]
  | read verdict t =>
      cases verdict with
      | indeterminate => exact absurd h (stop t)
      | yes => simp [run_cons_yes h]
      | no => simp [run_cons_no h]

/-- Induction along a run: a symbol either leaves the verdict open and moves the state, or ends the
    run. -/
theorem run_induction {motive : σ → List β → Prop} (nil : ∀ s, motive s [])
    (more : ∀ s t b rest, m.act s b = .read .indeterminate t → motive t rest → motive s (b :: rest))
    (stop : ∀ s b rest, (∀ t, m.act s b ≠ .read .indeterminate t) → motive s (b :: rest))
    (s : σ) (w : List β) : motive s w := by
  induction w generalizing s with
  | nil => exact nil s
  | cons b rest ih =>
      by_cases h : ∃ t, m.act s b = .read .indeterminate t
      · obtain ⟨t, ht⟩ := h
        exact more s t b rest ht (ih t)
      · exact stop s b rest (fun t ht => h ⟨t, ht⟩)

/-- A run that asks for more input has read all it was given. -/
theorem run_consumed_of_indeterminate {s : σ} {w : List β}
    (pending : (m.run s w).verdict = .indeterminate) : (m.run s w).consumed = w.length := by
  induction s, w using run_induction (m := m) with
  | nil s => simp
  | more s t b rest h ih =>
      rw [run_cons_indeterminate h] at pending ⊢
      simp [ih pending, Nat.add_comm]
  | stop s b rest h =>
      rw [(run_cons_stop h rest).1] at pending
      exact absurd pending (run_cons_stop h rest).2.1

/-- Once the verdict is definite, later input is not looked at. -/
theorem run_append_of_definite {s : σ} {u : List β}
    (definite : (m.run s u).verdict ≠ .indeterminate) (v : List β) :
    m.run s (u ++ v) = m.run s u := by
  induction s, u using run_induction (m := m) with
  | nil s => simp at definite
  | more s t b rest h ih =>
      rw [run_cons_indeterminate h] at definite
      rw [List.cons_append, run_cons_indeterminate h, run_cons_indeterminate h, ih definite]
  | stop s b rest h =>
      rw [List.cons_append, (run_cons_stop h (rest ++ v)).1, (run_cons_stop h rest).1]

/-- While the verdict is open, the run goes on from the state it left. -/
theorem run_append_of_indeterminate {s : σ} {u : List β}
    (pending : (m.run s u).verdict = .indeterminate) (v : List β) :
    m.run s (u ++ v) = (m.run (m.run s u).state v).after u.length := by
  induction s, u using run_induction (m := m) with
  | nil s => simp
  | more s t b rest h ih =>
      rw [run_cons_indeterminate h] at pending ⊢
      rw [List.cons_append, run_cons_indeterminate h, ih pending, Outcome.after_after,
        Outcome.after_state, List.length_cons, Nat.add_comm]
  | stop s b rest h =>
      rw [(run_cons_stop h rest).1] at pending
      exact absurd pending (run_cons_stop h rest).2.1

/-- How the input is cut into blocks does not matter. -/
theorem feed_eq_run_flatten (s : σ) (blocks : List (List β)) :
    m.feed s blocks = m.run s blocks.flatten := by
  induction blocks generalizing s with
  | nil => rfl
  | cons block blocks ih =>
      rw [List.flatten_cons]
      cases h : (m.run s block).verdict with
      | indeterminate =>
          rw [run_append_of_indeterminate h, ← ih]
          simp [feed, h, run_consumed_of_indeterminate h]
      | yes =>
          rw [run_append_of_definite (by simp [h])]
          simp [feed, h]
      | no =>
          rw [run_append_of_definite (by simp [h])]
          simp [feed, h]

/-! ### Acceptance

`Reads s u t` says that `u` is read whole and leads from `s` to `t` with the verdict still open;
`Accepts s w t` says that the verdict turns to `yes` exactly at the last symbol of `w`.  A grammar for a
recogniser is read off state by state from these two relations. -/

variable (m)

/-- The block `u` leads from `s` to `t` and leaves the verdict open. -/
def Reads (s : σ) (u : List β) (t : σ) : Prop :=
  m.run s u = ⟨.indeterminate, t, u.length⟩

/-- The block `w` is accepted at its last symbol, from `s`, leaving state `t`. -/
def Accepts (s : σ) (w : List β) (t : σ) : Prop :=
  m.run s w = ⟨.yes, t, w.length⟩

variable {m}

/-- Nothing is accepted before a byte is read. -/
theorem not_accepts_nil {s t : σ} : ¬ m.Accepts s [] t := by
  simp [Accepts]

/-- Acceptance unfolds along the first symbol. -/
theorem accepts_cons_of_indeterminate {s t : σ} {b : β} (h : m.act s b = .read .indeterminate t)
    {w : List β} {r : σ} : m.Accepts s (b :: w) r ↔ m.Accepts t w r := by
  rw [Accepts, run_cons_indeterminate h, List.length_cons, Outcome.after_one_eq_iff, Accepts]

/-- What is accepted ends with the byte that accepts. -/
theorem accepts_cons_of_yes {s t : σ} {b : β} (h : m.act s b = .read .yes t)
    {w : List β} {r : σ} : m.Accepts s (b :: w) r ↔ w = [] ∧ r = t := by
  simp only [Accepts, run_cons_yes h, Outcome.mk.injEq, List.length_cons, true_and,
    ← List.length_eq_zero_iff (l := w)]
  constructor
  · rintro ⟨rfl, len⟩
    exact ⟨by omega, rfl⟩
  · rintro ⟨len, rfl⟩
    exact ⟨rfl, by omega⟩

/-- Nothing is accepted behind a byte that rejects. -/
theorem not_accepts_cons_of_no {s t : σ} {b : β} (h : m.act s b = .read .no t)
    {w : List β} {r : σ} : ¬ m.Accepts s (b :: w) r := by
  simp [Accepts, run_cons_no h]

/-- Nothing is accepted behind a byte that is refused. -/
theorem not_accepts_cons_of_refuse {s : σ} {b : β} (h : m.act s b = .refuse)
    {w : List β} {r : σ} : ¬ m.Accepts s (b :: w) r := by
  simp [Accepts, run_cons_refuse h]

/-- A run says `yes` after `n` symbols exactly when the first `n` symbols are accepted. -/
theorem run_eq_yes_iff {s t : σ} {b : List β} {n : Nat} :
    m.run s b = ⟨.yes, t, n⟩ ↔ n ≤ b.length ∧ m.Accepts s (b.take n) t := by
  induction s, b using run_induction (m := m) generalizing n with
  | nil s => simp [Accepts]
  | more s u c rest h ih =>
      cases n with
      | zero => simp [run_cons_indeterminate h, Accepts, Outcome.ext_iff]
      | succ k =>
          rw [List.take_succ_cons, accepts_cons_of_indeterminate h, List.length_cons,
            Nat.add_le_add_iff_right, ← ih, run_cons_indeterminate h, Outcome.after_one_eq_iff]
  | stop s c rest h =>
      cases hact : m.act s c with
      | refuse =>
          cases n <;> simp [run_cons_refuse hact, Accepts]
      | read verdict u =>
          cases verdict with
          | indeterminate => exact absurd hact (h u)
          | no => cases n <;> simp [run_cons_no hact, Accepts]
          | yes =>
              cases n with
              | zero => simp [run_cons_yes hact, Accepts]
              | succ k =>
                  rw [List.take_succ_cons, accepts_cons_of_yes hact, run_cons_yes hact]
                  simp only [Outcome.mk.injEq, true_and, List.length_cons, List.take_eq_nil_iff]
                  constructor
                  · rintro ⟨rfl, len⟩
                    exact ⟨by omega, Or.inl (by omega), rfl⟩
                  · rintro ⟨bound, none, rfl⟩
                    refine ⟨rfl, ?_⟩
                    rcases none with zero | rfl
                    · omega
                    · simp at bound
                      omega

/-- An accepted block is accepted with anything after it. -/
theorem Accepts.run_append {s t : σ} {w : List β} (accepted : m.Accepts s w t) (rest : List β) :
    m.run s (w ++ rest) = ⟨.yes, t, w.length⟩ := by
  rw [run_append_of_definite (by rw [accepted]; simp), accepted]

theorem Reads.refl (s : σ) : m.Reads s [] s := rfl

/-- Reading goes on behind a byte that decides nothing. -/
theorem reads_cons_of_indeterminate {s t : σ} {b : β} (h : m.act s b = .read .indeterminate t)
    {u : List β} {r : σ} : m.Reads s (b :: u) r ↔ m.Reads t u r := by
  rw [Reads, run_cons_indeterminate h, List.length_cons, Outcome.after_one_eq_iff, Reads]

/-- A byte that decides nothing is read. -/
theorem Reads.single {s t : σ} {b : β} (h : m.act s b = .read .indeterminate t) :
    m.Reads s [b] t :=
  (reads_cons_of_indeterminate h).mpr (Reads.refl t)

/-- What is read begins with a byte that decides nothing. -/
theorem Reads.cons_inv {s r : σ} {b : β} {u : List β} (reads : m.Reads s (b :: u) r) :
    ∃ t, m.act s b = .read .indeterminate t ∧ m.Reads t u r := by
  by_cases open_ : ∃ t, m.act s b = .read .indeterminate t
  · obtain ⟨t, act⟩ := open_
    exact ⟨t, act, (reads_cons_of_indeterminate act).mp reads⟩
  · have stop := (run_cons_stop (m := m) (fun t act => open_ ⟨t, act⟩) u)
    rw [← stop.1, reads] at stop
    exact absurd rfl stop.2.1

/-- What each symbol of a block keeps, the block keeps. -/
theorem Reads.invariant {P : σ → Prop} {s t : σ} {u : List β} (reads : m.Reads s u t) (start : P s)
    (kept : ∀ b ∈ u, ∀ r r', P r → m.act r b = .read .indeterminate r' → P r') : P t := by
  induction u generalizing s with
  | nil =>
      obtain ⟨-, rfl, -⟩ := Outcome.mk.inj reads
      exact start
  | cons b u ih =>
      obtain ⟨r, act, later⟩ := reads.cons_inv
      exact ih later (kept b List.mem_cons_self s r start act) fun c member =>
        kept c (List.mem_cons_of_mem _ member)

/-- A run that asks for more input has read its whole input. -/
theorem reads_of_indeterminate {s : σ} {w : List β} (pending : (m.run s w).verdict = .indeterminate) :
    m.Reads s w (m.run s w).state :=
  Outcome.ext pending rfl (run_consumed_of_indeterminate pending)

/-- A run with a definite verdict read some symbols with the verdict open and then one that settled it, or
    one that was refused. -/
theorem run_definite_cases {s : σ} {w : List β} (definite : (m.run s w).verdict ≠ .indeterminate) :
    ∃ u b rest r, w = u ++ b :: rest ∧ m.Reads s u r ∧
      (m.act r b = .read (m.run s w).verdict (m.run s w).state ∧ (m.run s w).consumed = u.length + 1 ∨
        m.act r b = .refuse ∧ (m.run s w).consumed = u.length) := by
  induction s, w using run_induction (m := m) with
  | nil s => simp at definite
  | more s t b rest h ih =>
      rw [run_cons_indeterminate h] at definite ⊢
      obtain ⟨u, c, tail, r, rfl, reads, last⟩ := ih definite
      refine ⟨b :: u, c, tail, r, rfl, (reads_cons_of_indeterminate h).mpr reads, ?_⟩
      simpa [Nat.add_comm 1] using last
  | stop s b rest h =>
      refine ⟨[], b, rest, s, rfl, Reads.refl s, ?_⟩
      cases act : m.act s b with
      | refuse => exact Or.inr ⟨rfl, by simp [run_cons_refuse act]⟩
      | read verdict t =>
          cases verdict with
          | indeterminate => exact absurd act (h t)
          | yes => exact Or.inl (by simp [run_cons_yes act])
          | no => exact Or.inl (by simp [run_cons_no act])

/-- After a block that leaves the verdict open, acceptance is decided by the rest. -/
theorem Reads.accepts_append_iff {s t r : σ} {u v : List β} (reads : m.Reads s u t) :
    m.Accepts s (u ++ v) r ↔ m.Accepts t v r := by
  have pending : (m.run s u).verdict = .indeterminate := by rw [reads]
  have state : (m.run s u).state = t := by rw [reads]
  rw [Accepts, run_append_of_indeterminate pending, state, Accepts]
  obtain ⟨v', t', n'⟩ := m.run t v
  simp only [Outcome.after, Outcome.mk.injEq, List.length_append, Nat.add_left_cancel_iff]

/-- What is read in two parts is read as one. -/
theorem Reads.trans {s t r : σ} {u v : List β} (one : m.Reads s u t) (two : m.Reads t v r) :
    m.Reads s (u ++ v) r := by
  have pending : (m.run s u).verdict = .indeterminate := by rw [one]
  have state : (m.run s u).state = t := by rw [one]
  rw [Reads, run_append_of_indeterminate pending, state, two, Outcome.after, List.length_append]

/-- What is read in two parts is read up to a state in between. -/
theorem Reads.append_inv {s r : σ} {u v : List β} (reads : m.Reads s (u ++ v) r) :
    ∃ t, m.Reads s u t ∧ m.Reads t v r := by
  have pending : (m.run s u).verdict = .indeterminate := by
    by_cases open_ : (m.run s u).verdict = .indeterminate
    · exact open_
    · have whole := run_append_of_definite open_ v
      rw [reads] at whole
      rw [← whole]
  have first := reads_of_indeterminate pending
  refine ⟨_, first, ?_⟩
  rw [Reads, run_append_of_indeterminate pending, Outcome.after] at reads
  obtain ⟨verdict, state, consumed⟩ := Outcome.mk.inj reads
  refine Outcome.ext verdict state ?_
  rw [List.length_append] at consumed
  exact Nat.add_left_cancel consumed

/-- In a state that reads one symbol of a class and makes any other symbol invalid, acceptance unfolds
    along a first symbol of the class. -/
theorem accepts_class_iff {s : σ} (cls : β → Prop) (next : β → σ)
    (hit : ∀ b, cls b → m.act s b = .read .indeterminate (next b))
    (miss : ∀ b, ¬ cls b → ∃ t, m.act s b = .read .no t) (w : List β) (r : σ) :
    m.Accepts s w r ↔ ∃ b v, w = b :: v ∧ cls b ∧ m.Accepts (next b) v r := by
  constructor
  · intro accepted
    cases w with
    | nil => exact absurd accepted not_accepts_nil
    | cons b v =>
        by_cases inClass : cls b
        · exact ⟨b, v, rfl, inClass, (accepts_cons_of_indeterminate (hit b inClass)).mp accepted⟩
        · obtain ⟨t, ht⟩ := miss b inClass
          exact absurd accepted (not_accepts_cons_of_no ht)
  · rintro ⟨b, v, rfl, inClass, tail⟩
    exact (accepts_cons_of_indeterminate (hit b inClass)).mpr tail

/-- In a state that expects one symbol, acceptance unfolds along that symbol. -/
theorem accepts_expect_iff {s t : σ} {c : β} (hit : m.act s c = .read .indeterminate t)
    (miss : ∀ b, b ≠ c → ∃ u, m.act s b = .read .no u) (w : List β) (r : σ) :
    m.Accepts s w r ↔ ∃ v, w = c :: v ∧ m.Accepts t v r := by
  rw [accepts_class_iff (· = c) (fun _ => t) (fun b h => h ▸ hit) miss]
  constructor
  · rintro ⟨_, v, rfl, rfl, tail⟩
    exact ⟨v, rfl, tail⟩
  · rintro ⟨v, rfl, tail⟩
    exact ⟨c, v, rfl, rfl, tail⟩

/-- What is read from a state that expects one symbol is nothing, or begins with that symbol. -/
theorem expect_of_reads {s t r : σ} {c : β} (hit : m.act s c = .read .indeterminate t)
    (miss : ∀ b, b ≠ c → ∀ u, m.act s b ≠ .read .indeterminate u) {w : List β} (reads : m.Reads s w r) :
    w = [] ∧ r = s ∨ ∃ v, w = c :: v ∧ m.Reads t v r := by
  cases w with
  | nil =>
      obtain ⟨-, rfl, -⟩ := Outcome.mk.inj reads
      exact Or.inl ⟨rfl, rfl⟩
  | cons b v =>
      obtain ⟨u, act, later⟩ := reads.cons_inv
      by_cases same : b = c
      · subst same
        cases hit.symm.trans act
        exact Or.inr ⟨v, rfl, later⟩
      · exact absurd act (miss b same u)

/-! ### Scanning loops

A family of states `scan u` indexed by what the loop has collected so far.  Every symbol of the class
`cls` is collected; a symbol outside the class either leaves the loop or makes the input invalid. -/

section Scan

variable (scan : List β → σ) (cls leaves : β → Prop)

/-- A block of class symbols is collected whole. -/
theorem reads_scan
    (collect : ∀ u b, cls b → m.act (scan u) b = .read .indeterminate (scan (u ++ [b])))
    (done : List β) {u : List β} (all : ∀ b ∈ u, cls b) : m.Reads (scan done) u (scan (done ++ u)) := by
  induction u generalizing done with
  | nil => simpa using Reads.refl (m := m) (scan done)
  | cons b rest ih =>
      rw [reads_cons_of_indeterminate (collect done b (all b (by simp)))]
      simpa using ih (done ++ [b]) (fun c hc => all c (by simp [hc]))

/-- What is read from inside a scanning loop is collected whole, or it is class symbols and a rest that
    begins with a symbol leaving the loop. -/
theorem scan_of_reads
    (collect : ∀ u b, cls b → m.act (scan u) b = .read .indeterminate (scan (u ++ [b])))
    (reject : ∀ u b, ¬ cls b → ¬ leaves b → ∀ t, m.act (scan u) b ≠ .read .indeterminate t)
    {done w : List β} {r : σ} (reads : m.Reads (scan done) w r) :
    (∀ b ∈ w, cls b) ∧ r = scan (done ++ w) ∨
      ∃ u e v, w = u ++ e :: v ∧ (∀ b ∈ u, cls b) ∧ leaves e ∧ m.Reads (scan (done ++ u)) (e :: v) r := by
  induction w generalizing done with
  | nil =>
      obtain ⟨-, rfl, -⟩ := Outcome.mk.inj reads
      exact Or.inl (by simp)
  | cons b rest ih =>
      by_cases inClass : cls b
      · rcases ih ((reads_cons_of_indeterminate (collect done b inClass)).mp reads) with
          ⟨all, rfl⟩ | ⟨u, e, v, rfl, all, out, tail⟩
        · exact Or.inl ⟨List.forall_mem_cons.mpr ⟨inClass, all⟩, by simp⟩
        · exact Or.inr ⟨b :: u, e, v, rfl, List.forall_mem_cons.mpr ⟨inClass, all⟩, out, by simpa using tail⟩
      · by_cases out : leaves b
        · exact Or.inr ⟨[], b, rest, rfl, by simp, out, by simpa using reads⟩
        · obtain ⟨t, act, -⟩ := reads.cons_inv
          exact absurd act (reject done b inClass out t)

/-- An accepted block that starts inside a scanning loop is cut, in one way, into the class symbols
    collected and a rest that begins with a symbol leaving the loop. -/
theorem accepts_scan_iff
    (collect : ∀ u b, cls b → m.act (scan u) b = .read .indeterminate (scan (u ++ [b])))
    (reject : ∀ u b, ¬ cls b → ¬ leaves b → ∃ t, m.act (scan u) b = .read .no t)
    (done w : List β) (r : σ) :
    m.Accepts (scan done) w r ↔
      ∃ u e v, w = u ++ e :: v ∧ (∀ b ∈ u, cls b) ∧ leaves e ∧
        m.Accepts (scan (done ++ u)) (e :: v) r := by
  constructor
  · intro accepted
    induction w generalizing done with
    | nil => exact absurd accepted not_accepts_nil
    | cons b rest ih =>
        by_cases inClass : cls b
        · rw [accepts_cons_of_indeterminate (collect done b inClass)] at accepted
          obtain ⟨u, e, v, rfl, all, out, tail⟩ := ih (done ++ [b]) accepted
          refine ⟨b :: u, e, v, rfl, ?_, out, by simpa using tail⟩
          rintro c (_ | ⟨_, member⟩)
          · exact inClass
          · exact all c member
        · by_cases out : leaves b
          · exact ⟨[], b, rest, rfl, by simp, out, by simpa using accepted⟩
          · obtain ⟨t, ht⟩ := reject done b inClass out
            exact absurd accepted (not_accepts_cons_of_no ht)
  · rintro ⟨u, e, v, rfl, all, -, tail⟩
    exact (reads_scan scan cls collect done all).accepts_append_iff.mpr tail

/-- A scanning loop left by one symbol only. -/
theorem accepts_scan_until_iff {c : β} (exit : List β → σ)
    (collect : ∀ u b, cls b → m.act (scan u) b = .read .indeterminate (scan (u ++ [b])))
    (leave : ∀ u, m.act (scan u) c = .read .indeterminate (exit u))
    (reject : ∀ u b, ¬ cls b → b ≠ c → ∃ t, m.act (scan u) b = .read .no t)
    (done w : List β) (r : σ) :
    m.Accepts (scan done) w r ↔
      ∃ u v, w = u ++ c :: v ∧ (∀ b ∈ u, cls b) ∧ m.Accepts (exit (done ++ u)) v r := by
  rw [accepts_scan_iff scan cls (· = c) collect reject]
  constructor
  · rintro ⟨u, _, v, rfl, all, rfl, tail⟩
    exact ⟨u, v, rfl, all, (accepts_cons_of_indeterminate (leave _)).mp tail⟩
  · rintro ⟨u, v, rfl, all, tail⟩
    exact ⟨u, c, v, rfl, all, rfl, (accepts_cons_of_indeterminate (leave _)).mpr tail⟩

/-- A scanning loop that must collect at least one symbol: the state before it reads the first one. -/
theorem accepts_scan_nonempty_until_iff {s : σ} {c : β} (exit : List β → σ)
    (first : ∀ b, cls b → m.act s b = .read .indeterminate (scan [b]))
    (firstReject : ∀ b, ¬ cls b → ∃ t, m.act s b = .read .no t)
    (collect : ∀ u b, cls b → m.act (scan u) b = .read .indeterminate (scan (u ++ [b])))
    (leave : ∀ u, m.act (scan u) c = .read .indeterminate (exit u))
    (reject : ∀ u b, ¬ cls b → b ≠ c → ∃ t, m.act (scan u) b = .read .no t)
    (w : List β) (r : σ) :
    m.Accepts s w r ↔
      ∃ u v, w = u ++ c :: v ∧ u ≠ [] ∧ (∀ b ∈ u, cls b) ∧ m.Accepts (exit u) v r := by
  rw [accepts_class_iff cls (fun b => scan [b]) first firstReject]
  constructor
  · rintro ⟨b, w, rfl, inClass, tail⟩
    obtain ⟨u, v, rfl, all, rest⟩ :=
      (accepts_scan_until_iff scan cls exit collect leave reject _ _ _).mp tail
    refine ⟨b :: u, v, rfl, by simp, ?_, rest⟩
    rintro d (_ | ⟨_, member⟩)
    · exact inClass
    · exact all d member
  · rintro ⟨u, v, rfl, nonempty, all, rest⟩
    cases u with
    | nil => exact absurd rfl nonempty
    | cons b u =>
        exact ⟨b, u ++ c :: v, rfl, all b (by simp),
          (accepts_scan_until_iff scan cls exit collect leave reject _ _ _).mpr
            ⟨u, v, rfl, fun d member => all d (by simp [member]), rest⟩⟩

end Scan

/-! ### The passes of a run -/

variable (m)

/-- The symbols that a run on one block acts on, each with the state in which it does. -/
def passes : σ → List β → List (σ × β)
  | _, [] => []
  | s, b :: rest =>
      match m.act s b with
      | .read .indeterminate t => (s, b) :: passes t rest
      | _ => [(s, b)]

/-- The passes of the runs on a sequence of blocks, up to the first definite verdict. -/
def feedPasses : σ → List (List β) → List (σ × β)
  | _, [] => []
  | s, block :: blocks =>
      let o := m.run s block
      match o.verdict with
      | .indeterminate => m.passes s block ++ feedPasses o.state blocks
      | _ => m.passes s block

variable {m}

/-- The passes go on behind a byte that decides nothing. -/
theorem passes_cons_indeterminate {s t : σ} {b : β} (h : m.act s b = .read .indeterminate t)
    (rest : List β) :
    m.passes s (b :: rest) = (s, b) :: m.passes t rest := by
  simp [passes, h]

/-- A byte that ends the run is its last pass. -/
theorem passes_cons_stop {s : σ} {b : β} (stop : ∀ t, m.act s b ≠ .read .indeterminate t) (rest : List β) :
    m.passes s (b :: rest) = [(s, b)] := by
  cases h : m.act s b with
  | refuse => simp [passes, h]
  | read verdict t =>
      cases verdict with
      | indeterminate => exact absurd h (stop t)
      | yes => simp [passes, h]
      | no => simp [passes, h]

/-- A run acts on a symbol in the state to which what is before it was read. -/
theorem mem_passes_iff {s r : σ} {b : β} {w : List β} :
    (r, b) ∈ m.passes s w ↔ ∃ u rest, w = u ++ b :: rest ∧ m.Reads s u r := by
  induction s, w using run_induction (m := m) with
  | nil s => simp [passes]
  | more s t c tail h ih =>
      rw [passes_cons_indeterminate h, List.mem_cons, ih]
      constructor
      · rintro (same | ⟨u, rest, rfl, reads⟩)
        · cases same
          exact ⟨[], tail, rfl, Reads.refl _⟩
        · exact ⟨c :: u, rest, rfl, (reads_cons_of_indeterminate h).mpr reads⟩
      · rintro ⟨u, rest, split, reads⟩
        cases u with
        | nil =>
            obtain ⟨rfl, -⟩ := List.cons.inj split
            obtain ⟨-, rfl, -⟩ := Outcome.mk.inj reads
            exact Or.inl rfl
        | cons d u =>
            obtain ⟨rfl, rfl⟩ := List.cons.inj split
            exact Or.inr ⟨u, rest, rfl, (reads_cons_of_indeterminate h).mp reads⟩
  | stop s c tail h =>
      rw [passes_cons_stop h, List.mem_singleton]
      constructor
      · intro same
        cases same
        exact ⟨[], tail, rfl, Reads.refl _⟩
      · rintro ⟨u, rest, split, reads⟩
        cases u with
        | nil =>
            obtain ⟨rfl, -⟩ := List.cons.inj split
            obtain ⟨-, rfl, -⟩ := Outcome.mk.inj reads
            rfl
        | cons d u =>
            obtain ⟨rfl, rfl⟩ := List.cons.inj split
            obtain ⟨t, act, -⟩ := reads.cons_inv
            exact absurd act (h t)

/-- Bytes behind the end of a run add no pass. -/
theorem passes_append_of_definite {s : σ} {u : List β} (definite : (m.run s u).verdict ≠ .indeterminate)
    (v : List β) : m.passes s (u ++ v) = m.passes s u := by
  induction s, u using run_induction (m := m) with
  | nil s => simp at definite
  | more s t b rest h ih =>
      rw [run_cons_indeterminate h] at definite
      rw [List.cons_append, passes_cons_indeterminate h, passes_cons_indeterminate h, ih definite]
  | stop s b rest h => rw [List.cons_append, passes_cons_stop h, passes_cons_stop h]

/-- The passes of a text that is not yet decided are followed by those of what comes behind it. -/
theorem passes_append_of_indeterminate {s : σ} {u : List β} (pending : (m.run s u).verdict = .indeterminate)
    (v : List β) : m.passes s (u ++ v) = m.passes s u ++ m.passes (m.run s u).state v := by
  induction s, u using run_induction (m := m) with
  | nil s => simp [passes]
  | more s t b rest h ih =>
      rw [run_cons_indeterminate h] at pending ⊢
      rw [List.cons_append, passes_cons_indeterminate h, passes_cons_indeterminate h, ih pending]
      rfl
  | stop s b rest h =>
      rw [(run_cons_stop h rest).1] at pending
      exact absurd pending (run_cons_stop h rest).2.1

/-- The passes do not depend on how the input is cut into blocks. -/
theorem feedPasses_eq_passes_flatten (s : σ) (blocks : List (List β)) :
    m.feedPasses s blocks = m.passes s blocks.flatten := by
  induction blocks generalizing s with
  | nil => rfl
  | cons block blocks ih =>
      rw [List.flatten_cons]
      cases h : (m.run s block).verdict with
      | indeterminate =>
          rw [passes_append_of_indeterminate h, ← ih]
          simp [feedPasses, h]
      | yes =>
          rw [passes_append_of_definite (by simp [h])]
          simp [feedPasses, h]
      | no =>
          rw [passes_append_of_definite (by simp [h])]
          simp [feedPasses, h]

/-! ### Reachable states -/

variable (m)

/-- The states reached from `s` by reading symbols, whatever the verdicts: a recogniser that has answered
    may be asked again. -/
inductive Reachable (s : σ) : σ → Prop where
  | refl : Reachable s s
  | step {t u : σ} {b : β} {verdict : Tribool} (reached : Reachable s t)
      (act : m.act t b = .read verdict u) : Reachable s u

variable {m}

/-- A property of the start kept by every symbol read holds in every reachable state. -/
theorem Reachable.invariant {P : σ → Prop} {s t : σ} (reached : m.Reachable s t) (start : P s)
    (kept : ∀ t u b verdict, P t → m.act t b = .read verdict u → P u) : P t := by
  induction reached with
  | refl => exact start
  | step _ act ih => exact kept _ _ _ _ ih act

/-- What was read with the verdict open leads to a reachable state. -/
theorem Reachable.reads {s t u : σ} {w : List β} (reached : m.Reachable s t) (reads : m.Reads t w u) :
    m.Reachable s u :=
  reads.invariant reached fun _ _ _ _ reached act => reached.step act

/-- A run ends in a reachable state. -/
theorem Reachable.run {s t : σ} (reached : m.Reachable s t) (w : List β) :
    m.Reachable s (m.run t w).state := by
  induction t, w using run_induction (m := m) with
  | nil t => exact reached
  | more t u b rest h ih =>
      rw [run_cons_indeterminate h]
      exact ih (reached.step h)
  | stop t b rest h =>
      rw [(run_cons_stop h rest).1]
      cases hact : m.act t b with
      | refuse => simpa [run_cons_refuse hact] using reached
      | read verdict u =>
          cases verdict with
          | indeterminate => exact absurd hact (h u)
          | yes => simpa [run_cons_yes hact] using reached.step hact
          | no => simpa [run_cons_no hact] using reached.step hact

/-- An accepted input ends in a reachable state. -/
theorem Accepts.reachable {s t : σ} {w : List β} (accepted : m.Accepts s w t) : m.Reachable s t := by
  have run := (Reachable.refl (m := m) (s := s)).run w
  rwa [accepted] at run

end Machine

end Incremental
