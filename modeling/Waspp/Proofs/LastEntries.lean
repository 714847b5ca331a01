/-
Module: Waspp.Proofs.LastEntries
Layer: Proofs
Purpose: `parse` grows the name or the value of a vector's last entry through `back()`.  In the states in
  which it does, the vector has an entry, whatever was read before and however often `parse` was called.
Imports: Waspp.Model.RequestParser
Trusted boundary: none (fully proved)
Main exports: backs, grown_through_backs, HasLast, parseCalls, back_nonempty
Open obligations: none
-/
import Waspp.Model.RequestParser

namespace Waspp

open CString Incremental

/-- The vectors to which one pass through the switch applies `back()`. -/
def backs (state_ : ParserState) (input : UInt8) (req : Request) : List (List NameValue) :=
  match state_ with
  | .paramNameStart =>
      if input == ' '.toUInt8 then []
      else if isNotToken input then []
      else [req.params ++ [{}]]
  | .paramName =>
      if input == ' '.toUInt8 then []
      else if input == '='.toUInt8 then []
      else if isNotToken input then []
      else [req.params]
  | .paramValue =>
      if input == ' '.toUInt8 then []
      else if input == '&'.toUInt8 then []
      else if isNotToken input then []
      else [req.params]
  | .headerLineStart =>
      if input == '\r'.toUInt8 then []
      else if !req.headers.isEmpty && (input == ' '.toUInt8 || input == '\t'.toUInt8) then []
      else if isNotToken input then []
      else [req.headers ++ [{}]]
  | .headerLws =>
      if input == '\r'.toUInt8 then []
      else if input == ' '.toUInt8 || input == '\t'.toUInt8 then []
      else if isCtl (charInt input) then []
      else [req.headers]
  | .headerName =>
      if input == ':'.toUInt8 then []
      else if isNotToken input then []
      else [req.headers]
  | .headerValue =>
      if input == '\r'.toUInt8 then []
      else if isCtl (charInt input) then []
      else [req.headers]
  | _ => []

/-- The entries after a pass in which the vectors in `vectors` were applied `back()` to: the entries before
    it, what an accessor makes of them, or such a vector with a byte more in its last entry. -/
inductive Grown (vectors : List (List NameValue)) (input : UInt8) (entries : List NameValue) :
    List NameValue → Prop where
  | kept : Grown vectors input entries entries
  | ensured {entries' : List NameValue} (name : Bytes) (grown : Grown vectors input entries entries') :
      Grown vectors input entries (NameValue.ensure entries' name)
  | named {last : List NameValue} (member : last ∈ vectors) :
      Grown vectors input entries (pushBackName last input)
  | valued {last : List NameValue} (member : last ∈ vectors) :
      Grown vectors input entries (pushBackValue last input)

/-- Parameters and headers change through these vectors and the accessors only. -/
theorem grown_through_backs {p q : Parsing} {b : UInt8} {verdict : Tribool}
    (act : parser.act p b = .read verdict q) :
    Grown (backs p.state_ b p.req) b p.req.params q.req.params ∧
      Grown (backs p.state_ b p.req) b p.req.headers q.req.headers := by
  refine of_act (P := fun _ q => Grown (backs p.state_ b p.req) b p.req.params q.req.params ∧
    Grown (backs p.state_ b p.req) b p.req.headers q.req.headers) act ?_
  obtain ⟨state_, req⟩ := p
  have kept := @Grown.kept
  have ensured := @Grown.ensured
  have named (entries last : List NameValue) : Grown [last] b entries (pushBackName last b) :=
    .named (by simp)
  have valued (entries last : List NameValue) : Grown [last] b entries (pushBackValue last b) :=
    .valued (by simp)
  by_cases folded : (!req.headers.isEmpty && (b == ' '.toUInt8 || b == '\t'.toUInt8)) = true
  · cases state_ <;> simp [switchBody, backs, headerLength, Request.header, folded] <;> simp_all
  · cases state_ <;> simp [switchBody, backs, headerLength, Request.header, folded] <;> simp_all

/-- The vector whose last entry the state is about has one. -/
def HasLast (p : Parsing) : Prop :=
  match p.state_ with
  | .paramName | .paramValue => p.req.params ≠ []
  | .headerName | .headerLws | .spaceBeforeHeaderValue | .headerValue | .expectingNewline2 =>
      p.req.headers ≠ []
  | _ => True

/-- A byte for the last name leaves an entry. -/
theorem pushBackName_ne_nil {entries : List NameValue} (nonempty : entries ≠ []) (input : UInt8) :
    pushBackName entries input ≠ [] := by
  obtain ⟨others, last, rfl⟩ := List.eq_nil_or_concat entries |>.resolve_left nonempty
  simp [pushBackName]

theorem pushBackValue_ne_nil {entries : List NameValue} (nonempty : entries ≠ []) (input : UInt8) :
    pushBackValue entries input ≠ [] := by
  obtain ⟨others, last, rfl⟩ := List.eq_nil_or_concat entries |>.resolve_left nonempty
  simp [pushBackValue]

/-- Every byte keeps it, whatever the verdict. -/
theorem HasLast.act {p q : Parsing} {b : UInt8} {verdict : Tribool} (last : HasLast p)
    (act : parser.act p b = .read verdict q) : HasLast q := by
  refine of_act (P := fun _ q => HasLast q) act ?_
  obtain ⟨state_, req⟩ := p
  cases state_ <;> simp_all [switchBody, HasLast, headerLength, Request.header, pushBackName_ne_nil,
    pushBackValue_ne_nil]

/-- In every state that is reached there is a last entry where the parser takes one. -/
theorem HasLast.reachable {req : Request} {p : Parsing} (reached : parser.Reachable (.start req) p) :
    HasLast p :=
  reached.invariant trivial fun _ _ _ _ last act => last.act act

/-- Where it holds, `back()` is applied to vectors with an entry. -/
theorem HasLast.backs {p : Parsing} (last : HasLast p) (input : UInt8) :
    ∀ entries ∈ backs p.state_ input p.req, entries ≠ [] := by
  obtain ⟨state_, req⟩ := p
  cases state_ <;> simp_all [Waspp.backs, HasLast]

/-- Calls of `parse` on successive blocks with the same request, whatever they return. -/
def parseCalls (p : Parsing) (blocks : List Bytes) : Parsing :=
  blocks.foldl (fun p data => (parse p data).state) p

/-- Calls of `parse` stay within the reachable states, whatever their verdicts were. -/
theorem reachable_parseCalls {start p : Parsing} (reached : parser.Reachable start p) (blocks : List Bytes) :
    parser.Reachable start (parseCalls p blocks) := by
  induction blocks generalizing p with
  | nil => exact reached
  | cons data blocks ih =>
      have next : parser.Reachable start (parse p data).state := by
        rw [parse_eq_run]
        exact reached.run data
      exact ih next

/-- After any calls of `parse`, and at each byte of another one, the vector whose last entry the state is
    about has one, and so has each vector to which `back()` is applied. -/
theorem back_nonempty (req : Request) (blocks : List Bytes) (data : Bytes) :
    HasLast (parseCalls (.start req) blocks) ∧
      ∀ pass ∈ parser.passes (parseCalls (.start req) blocks) data,
        HasLast pass.1 ∧ ∀ entries ∈ backs pass.1.state_ pass.2 pass.1.req, entries ≠ [] := by
  have reached := reachable_parseCalls (Machine.Reachable.refl (m := parser) (s := .start req)) blocks
  refine ⟨.reachable reached, ?_⟩
  rintro ⟨p, input⟩ member
  obtain ⟨u, rest, -, reads⟩ := Machine.mem_passes_iff.mp member
  have last := HasLast.reachable (reached.reads reads)
  exact ⟨last, last.backs input⟩

end Waspp
