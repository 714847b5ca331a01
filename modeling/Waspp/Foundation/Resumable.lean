/-
Module: Waspp.Foundation.Resumable
Layer: Foundation
Purpose: Recognisers that look at all the symbols that have arrived.  A recogniser either takes some of
  them, and then may emit an item, or fails, or waits for more; an answer other than waiting does not
  change when more symbols come.  Draining takes symbols until the recogniser waits or fails, `next` until
  it emits an item.  The module gives what draining does on a concatenation (`drain_append`), hence that the
  symbols may come in any blocks, and the relation `Reads` between a text and the items it stands for, with
  the rules by which it is built up.
Imports: Mathlib.Tactic.Basic
Trusted boundary: none (fully proved)
Main exports: Progress, Recogniser, Drained, Recogniser.drain, Recogniser.next, drain_append,
  drain_eq_next, Recogniser.Reads
Open obligations: none
-/
import Mathlib.Tactic.Basic

namespace Resumable

/-- What a recogniser makes of the symbols that are there. -/
inductive Progress (σ ι ε : Type*) where
  | more
  | fail (e : ε)
  | go (next : σ) (count : Nat) (item : Option ι)

/-- A recogniser with states `σ` over the symbols `β`, which emits items in `ι` and fails with errors in `ε`.
    -/
structure Recogniser (σ β ι ε : Type*) where
  step : σ → List β → Progress σ ι ε
  bounds : ∀ {s t : σ} {w : List β} {n : Nat} {item : Option ι}, step s w = .go t n item →
    0 < n ∧ n ≤ w.length
  go_append : ∀ {s t : σ} {w : List β} {n : Nat} {item : Option ι}, step s w = .go t n item →
    ∀ v, step s (w ++ v) = .go t n item
  fail_append : ∀ {s : σ} {w : List β} {e : ε}, step s w = .fail e → ∀ v, step s (w ++ v) = .fail e

/-- The items that were emitted, and the error or the state and the symbols that are left. -/
structure Drained (σ β ι ε : Type*) where
  items : List ι
  left : Except ε (σ × List β)

namespace Drained

variable {σ β ι ε : Type*}

/-- The same with items in front. -/
def after (items : List ι) (d : Drained σ β ι ε) : Drained σ β ι ε := { d with items := items ++ d.items }

/-- What follows when nothing failed. -/
def andThen (d : Drained σ β ι ε) (f : σ → List β → Drained σ β ι ε) : Drained σ β ι ε :=
  match d.left with
  | .error _ => d
  | .ok (s, rest) => (f s rest).after d.items

@[simp] theorem after_nil (d : Drained σ β ι ε) : d.after [] = d := rfl

@[simp] theorem after_after (first second : List ι) (d : Drained σ β ι ε) :
    (d.after second).after first = d.after (first ++ second) := by
  simp [after]

@[simp] theorem andThen_ok (items : List ι) (s : σ) (rest : List β) (f : σ → List β → Drained σ β ι ε) :
    (⟨items, .ok (s, rest)⟩ : Drained σ β ι ε).andThen f = (f s rest).after items := rfl

@[simp] theorem andThen_error (items : List ι) (e : ε) (f : σ → List β → Drained σ β ι ε) :
    (⟨items, .error e⟩ : Drained σ β ι ε).andThen f = ⟨items, .error e⟩ := rfl

/-- Items that come first stay first whatever follows. -/
theorem after_andThen (items : List ι) (d : Drained σ β ι ε) (f : σ → List β → Drained σ β ι ε) :
    (d.after items).andThen f = (d.andThen f).after items := by
  obtain ⟨emitted, left⟩ := d
  cases left with
  | error e => rfl
  | ok left => exact (after_after ..).symm

end Drained

namespace Recogniser

variable {σ β ι ε : Type*} (m : Recogniser σ β ι ε)

/-- Take symbols until the recogniser waits or fails. -/
def drain (s : σ) (w : List β) : Drained σ β ι ε :=
  match _taken : m.step s w with
  | .more => ⟨[], .ok (s, w)⟩
  | .fail e => ⟨[], .error e⟩
  | .go t n item => (drain t (w.drop n)).after item.toList
termination_by w.length
decreasing_by
  have := m.bounds _taken
  rw [List.length_drop]
  omega

variable {m} {s t : σ} {w : List β}

/-- A machine that waits for more gives nothing. -/
theorem drain_of_more (waits : m.step s w = .more) : m.drain s w = ⟨[], .ok (s, w)⟩ := by
  rw [drain]
  split <;> simp_all

/-- A machine that fails gives its error. -/
theorem drain_of_fail {e : ε} (fails : m.step s w = .fail e) : m.drain s w = ⟨[], .error e⟩ := by
  rw [drain]
  split <;> simp_all

/-- After a step the machine is drained from where the step left it. -/
theorem drain_of_go {n : Nat} {item : Option ι} (goes : m.step s w = .go t n item) :
    m.drain s w = (m.drain t (w.drop n)).after item.toList := by
  rw [drain]
  split <;> simp_all

/-- The rule by which facts about draining are proved: by what the recogniser does first. -/
theorem drain_induction {motive : σ → List β → Prop}
    (more : ∀ s w, m.step s w = .more → motive s w)
    (fail : ∀ s w e, m.step s w = .fail e → motive s w)
    (go : ∀ s w t n item, m.step s w = .go t n item → motive t (w.drop n) → motive s w) (s : σ)
    (w : List β) :
    motive s w := by
  fun_induction m.drain s w with
  | case1 s w waits => exact more s w waits
  | case2 s w e fails => exact fail s w e fails
  | case3 s w t n item goes ih => exact go s w t n item goes ih

/-- Draining a concatenation is draining its first part, and then the rest with its second part. -/
theorem drain_append (s : σ) (u v : List β) :
    m.drain s (u ++ v) = (m.drain s u).andThen fun t rest => m.drain t (rest ++ v) := by
  induction s, u using m.drain_induction with
  | more s w waits => simp [drain_of_more waits]
  | fail s w e fails => simp [drain_of_fail fails, drain_of_fail (m.fail_append fails v)]
  | go s w t n item goes ih =>
      rw [drain_of_go goes, drain_of_go (m.go_append goes v),
        List.drop_append_of_le_length (m.bounds goes).2, ih, Drained.after_andThen]

/-- What is emitted first is also emitted when more symbols come. -/
theorem items_prefix_append (s : σ) (u v : List β) : (m.drain s u).items <+: (m.drain s (u ++ v)).items := by
  rw [drain_append]
  cases m.drain s u with
  | mk items left =>
      cases left with
      | error e => exact List.prefix_refl items
      | ok left => exact List.prefix_append items _

/-- An error does not go away when more symbols come. -/
theorem left_append_of_error {u : List β} {e : ε} (failed : (m.drain s u).left = .error e) (v : List β) :
    (m.drain s (u ++ v)).left = .error e := by
  rw [drain_append]
  cases drained : m.drain s u with
  | mk items left =>
      rw [drained] at failed
      cases failed
      rfl

/-! ### One item -/

/-- What the recogniser comes to when it takes symbols until it emits an item. -/
inductive Next (σ β ι ε : Type*) where
  | waits (s : σ) (rest : List β)
  | fails (e : ε)
  | emits (item : ι) (s : σ) (rest : List β)

/-- Take symbols until an item is emitted, in at most so many steps. -/
def nextWithin (m : Recogniser σ β ι ε) : Nat → σ → List β → Next σ β ι ε
  | 0, s, w => .waits s w
  | fuel + 1, s, w =>
      match m.step s w with
      | .more => .waits s w
      | .fail e => .fails e
      | .go t n none => nextWithin m fuel t (w.drop n)
      | .go t n (some item) => .emits item t (w.drop n)

/-- Take symbols until an item is emitted.  Each step takes a symbol, so these steps are enough. -/
def next (m : Recogniser σ β ι ε) (s : σ) (w : List β) : Next σ β ι ε := m.nextWithin (w.length + 1) s w

/-- A machine that waits for more has no next item. -/
theorem next_of_more (waits : m.step s w = .more) : m.next s w = .waits s w := by
  rw [next, nextWithin, waits]

/-- A machine that fails has no next item but the error. -/
theorem next_of_fail {e : ε} (fails : m.step s w = .fail e) : m.next s w = .fails e := by
  rw [next, nextWithin, fails]

/-- A step that gives an item gives the next one. -/
theorem next_of_emit {n : Nat} {item : ι} (goes : m.step s w = .go t n (some item)) :
    m.next s w = .emits item t (w.drop n) := by
  rw [next, nextWithin, goes]

/-- As many rounds as there are input bytes are enough. -/
theorem nextWithin_eq_next {fuel : Nat} (enough : w.length < fuel) : m.nextWithin fuel s w = m.next s w := by
  induction s, w using m.drain_induction generalizing fuel with
  | more s w waits =>
      obtain ⟨fuel, rfl⟩ := Nat.exists_eq_succ_of_ne_zero (Nat.ne_zero_of_lt enough)
      rw [nextWithin, waits, next_of_more waits]
  | fail s w e fails =>
      obtain ⟨fuel, rfl⟩ := Nat.exists_eq_succ_of_ne_zero (Nat.ne_zero_of_lt enough)
      rw [nextWithin, fails, next_of_fail fails]
  | go s w t n item goes ih =>
      obtain ⟨fuel, rfl⟩ := Nat.exists_eq_succ_of_ne_zero (Nat.ne_zero_of_lt enough)
      cases item with
      | some item => rw [nextWithin, goes, next_of_emit goes]
      | none =>
          have bounds := m.bounds goes
          have shorter : (w.drop n).length < w.length := by
            rw [List.length_drop]
            omega
          rw [next, nextWithin, nextWithin, goes]
          exact (ih (by omega)).trans (ih shorter).symm

/-- A silent step leaves the next item to what follows. -/
theorem next_of_go {n : Nat} (goes : m.step s w = .go t n none) : m.next s w = m.next t (w.drop n) := by
  have bounds := m.bounds goes
  have enough : (w.drop n).length < w.length := by
    rw [List.length_drop]
    omega
  rw [next, nextWithin, goes]
  exact nextWithin_eq_next enough

/-- What draining comes to from there. -/
def Next.drained (m : Recogniser σ β ι ε) : Next σ β ι ε → Drained σ β ι ε
  | .waits s rest => ⟨[], .ok (s, rest)⟩
  | .fails e => ⟨[], .error e⟩
  | .emits item s rest => (m.drain s rest).after [item]

/-- Draining goes on from the first item. -/
theorem drain_eq_next (m : Recogniser σ β ι ε) (s : σ) (w : List β) :
    m.drain s w = (m.next s w).drained m := by
  induction s, w using m.drain_induction with
  | more s w waits => rw [drain_of_more waits, next_of_more waits, Next.drained]
  | fail s w e fails => rw [drain_of_fail fails, next_of_fail fails, Next.drained]
  | go s w t n item goes ih =>
      cases item with
      | none => rw [drain_of_go goes, ih, Option.toList_none, Drained.after_nil, next_of_go goes]
      | some item => rw [drain_of_go goes, next_of_emit goes, Next.drained, Option.toList_some]

/-- Where taking symbols comes to wait, the recogniser waits, and what is left is an end of the symbols. -/
theorem step_of_waits {rest : List β} (waits : m.next s w = .waits t rest) :
    m.step t rest = .more ∧ rest <:+ w := by
  induction s, w using m.drain_induction with
  | more s w here =>
      rw [next_of_more here] at waits
      cases waits
      exact ⟨here, List.suffix_refl _⟩
  | fail s w e fails =>
      rw [next_of_fail fails] at waits
      cases waits
  | go s w next n item goes ih =>
      cases item with
      | none =>
          rw [next_of_go goes] at waits
          exact ⟨(ih waits).1, (ih waits).2.trans (List.drop_suffix n w)⟩
      | some item =>
          rw [next_of_emit goes] at waits
          cases waits

/-- The last step of those that lead to an item. -/
theorem step_of_emits {item : ι} {rest : List β} (emits : m.next s w = .emits item t rest) :
    ∃ r u n, m.step r u = .go t n (some item) ∧ rest = u.drop n ∧ u <:+ w := by
  induction s, w using m.drain_induction with
  | more s w waits =>
      rw [next_of_more waits] at emits
      cases emits
  | fail s w e fails =>
      rw [next_of_fail fails] at emits
      cases emits
  | go s w next n item' goes ih =>
      cases item' with
      | none =>
          rw [next_of_go goes] at emits
          obtain ⟨r, u, k, last, left, suffix⟩ := ih emits
          exact ⟨r, u, k, last, left, suffix.trans (List.drop_suffix n w)⟩
      | some item' =>
          rw [next_of_emit goes] at emits
          cases emits
          exact ⟨s, w, n, goes, rfl, List.suffix_refl w⟩

/-! ### Texts -/

/-- Whatever follows it, the text is taken, the items are emitted and the recogniser goes on in the state
    `t`. -/
def Reads (m : Recogniser σ β ι ε) (s : σ) (w : List β) (items : List ι) (t : σ) : Prop :=
  ∀ v, m.drain s (w ++ v) = (m.drain t v).after items

theorem Reads.refl (s : σ) : m.Reads s [] [] s := fun _ => rfl

/-- Texts that are read one after the other are read as one. -/
theorem Reads.trans {r : σ} {u v : List β} {first second : List ι} (one : m.Reads s u first t)
    (two : m.Reads t v second r) : m.Reads s (u ++ v) (first ++ second) r := by
  intro rest
  rw [List.append_assoc, one, two, Drained.after_after]

/-- The text of one step is read. -/
theorem reads_of_step (item : Option ι) (goes : m.step s w = .go t w.length item) :
    m.Reads s w item.toList t := by
  intro v
  rw [drain_of_go (m.go_append goes v), List.drop_left]

end Recogniser

end Resumable
