/-
Module: Waspp.Proofs.PathSegments
Layer: Proofs
Purpose: What `parse_params` makes of a path.  It decodes the whole uri and splits then, so a coded slash
  cuts a segment in two: the segments of a path come back exactly when none of them has a slash.  And it
  erases the first of the items, which is there exactly when the target of the request is not empty.
Imports: Waspp.Proofs.PercentCoding, Waspp.Proofs.RequestGrammar, Waspp.Proofs.ReadFaults
Trusted boundary: none (fully proved)
Main exports: segmentsTarget, SegmentsTravel, segments_travel_iff, EmptyTarget, split_nonempty_iff
Open obligations: none
-/
import Waspp.Proofs.PercentCoding
import Waspp.Proofs.RequestGrammar
import Waspp.Proofs.ReadFaults

namespace Waspp

open CString Incremental

/-- Texts joined by slashes behind a first one: each has a slash in front. -/
def joinSegments (segments : List Bytes) : Bytes := segments.flatMap fun segment => '/'.toUInt8 :: segment

/-- The target that a list of segments is written as. -/
def segmentsTarget (segments : List Bytes) : Bytes := joinSegments (segments.map percentEncode)

/-- A GET request for them. -/
def segmentsRequest (segments : List Bytes) : Bytes :=
  bytes "GET " ++ segmentsTarget segments ++ bytes " HTTP/1.1" ++ crlf ++ crlf

/-- `parse` accepts the request, and `parse_params` leaves exactly the segments in `rest_params`. -/
def SegmentsTravel (segments : List Bytes) : Prop :=
  ∃ p req, parse (.start {}) (segmentsRequest segments) = ⟨.yes, p, (segmentsRequest segments).length⟩ ∧
    parseParams p.req = .ok req ∧ req.restParams = segments

/-! ### Through `parse` -/

/-- Coded text is part of a path. -/
theorem isTargetByte_of_mem_percentEncode {text : Bytes} {b : UInt8} (member : b ∈ percentEncode text) :
    isTargetByte b = true := by
  have all : ∀ b : UInt8, isUnreserved b = true ∨ b = '%'.toUInt8 → isTargetByte b = true :=
    forall_byte (by decide +kernel)
  exact all b (mem_percentEncode member)

/-- A target of coded segments is a path. -/
theorem path_segmentsTarget (segments : List Bytes) :
    ∀ b ∈ segmentsTarget segments, isTargetByte b = true := by
  intro b member
  obtain ⟨coded, written, inside⟩ := List.mem_flatMap.mp member
  obtain ⟨segment, -, rfl⟩ := List.mem_map.mp written
  rcases List.mem_cons.mp inside with rfl | inSegment
  · decide
  · exact isTargetByte_of_mem_percentEncode inSegment

/-- `parse` reads the target as a path. -/
theorem parse_segmentsRequest (segments : List Bytes) :
    parse (.start {}) (segmentsRequest segments) =
      ⟨.yes, ⟨.expectingNewline3, getRequest {} (segmentsTarget segments) [] 1 1 []⟩,
        (segmentsRequest segments).length⟩ := by
  have text : GetRequest (segmentsRequest segments) (segmentsTarget segments) [] 1 1 [] := by
    have shape : segmentsRequest segments = bytes "GET " ++ segmentsTarget segments ++ bytes " HTTP/" ++
        bytes "1" ++ bytes "." ++ bytes "1" ++ crlf ++ [] ++ crlf := by
      simp [segmentsRequest, bytes]
    have one : Digits (bytes "1") := ⟨by decide, List.forall_mem_singleton.mpr (by decide)⟩
    rw [shape]
    exact @GetRequest.intro (segmentsTarget segments) (bytes "1") (bytes "1") [] [] []
      (.path (path_segmentsTarget segments)) one one .done
  refine ((parse_get_iff Request.fresh_default _ _ _).mpr ⟨Nat.le_refl _, _, _, _, _, _, ?_, rfl⟩).1
  rwa [List.take_length]

/-! ### Through `parse_params`

Coding leaves no slash but the separators, and decoding brings the slashes of the segments back before the
path is split. -/

/-- Decoding undoes the coding of every segment. -/
theorem percentDecode_segmentsTarget (segments : List Bytes) :
    percentDecode (segmentsTarget segments) = joinSegments segments := by
  have slash (rest : Bytes) : percentDecode ('/'.toUInt8 :: rest) = '/'.toUInt8 :: percentDecode rest :=
    percentDecode_cons (by decide) (by decide) rest
  induction segments with
  | nil => rfl
  | cons segment rest ih =>
      show percentDecode ('/'.toUInt8 :: percentEncode segment ++ segmentsTarget rest) =
        '/'.toUInt8 :: segment ++ joinSegments rest
      rw [← ih, List.cons_append, slash]
      cases rest with
      | nil => simp [segmentsTarget, joinSegments, percentDecode_percentEncode, percentDecode]
      | cons next rest =>
          show _ :: percentDecode (percentEncode segment ++
              '/'.toUInt8 :: (percentEncode next ++ segmentsTarget rest)) =
            _ :: segment ++ percentDecode ('/'.toUInt8 :: (percentEncode next ++ segmentsTarget rest))
          rw [percentDecode_append_stop (by decide) (by decide) (by decide), percentDecode_percentEncode,
            slash]
          rfl

/-- No item of a split text has the separator. -/
theorem not_mem_of_mem_splitFrom {c : UInt8} {s item : Bytes} (absent : c ∉ item) :
    ∀ piece ∈ splitFrom c item s, c ∉ piece := by
  induction s generalizing item with
  | nil =>
      rw [splitFrom]
      split
      · simp
      · simpa using absent
  | cons b rest ih =>
      rw [splitFrom]
      split
      · rw [List.forall_mem_cons]
        exact ⟨absent, ih (by simp)⟩
      · rename_i other
        apply ih
        intro member
        rcases List.mem_append.mp member with before | here
        · exact absent before
        · exact other (beq_iff_eq.mpr (List.mem_singleton.mp here).symm)

/-- Segments without a slash, joined, split into themselves. -/
theorem splitFrom_joinSegments {segments : List Bytes} (filled : ∀ segment ∈ segments, segment ≠ [])
    (plain : ∀ segment ∈ segments, '/'.toUInt8 ∉ segment) (segment : Bytes) (filled' : segment ≠ [])
    (plain' : '/'.toUInt8 ∉ segment) :
    splitFrom '/'.toUInt8 [] (segment ++ joinSegments segments) = segment :: segments := by
  induction segments generalizing segment with
  | nil =>
      simpa [joinSegments] using @splitFrom_single '/'.toUInt8 segment plain' [] (by simpa using filled')
  | cons next rest ih =>
      rw [List.forall_mem_cons] at filled plain
      have tail := ih filled.2 plain.2 next filled.1 plain.1
      show splitFrom '/'.toUInt8 [] (segment ++ '/'.toUInt8 :: (next ++ joinSegments rest)) = _
      rw [splitFrom_append plain', tail, List.nil_append]

/-- The items that `parse_params` keeps of a path of segments. -/
theorem parseParams_segments {req : Request} (fresh : req.restParams = []) {segment : Bytes}
    {rest : List Bytes} (uri : req.uri = segmentsTarget (segment :: rest)) :
    ∃ req', parseParams req = .ok req' ∧
      req'.restParams = splitFrom '/'.toUInt8 [] (segment ++ joinSegments rest) := by
  have items : split (percentDecode req.uri) '/'.toUInt8 req.restParams =
      [] :: splitFrom '/'.toUInt8 [] (segment ++ joinSegments rest) := by
    rw [fresh, uri, percentDecode_segmentsTarget]
    rfl
  unfold parseParams
  rw [items]
  exact ⟨_, rfl, rfl⟩

/-- Segments travel in a path exactly when none of them has a slash. -/
theorem segments_travel_iff {segments : List Bytes} (nonempty : segments ≠ [])
    (filled : ∀ segment ∈ segments, segment ≠ []) :
    SegmentsTravel segments ↔ ∀ segment ∈ segments, '/'.toUInt8 ∉ segment := by
  obtain ⟨segment, rest, rfl⟩ := List.exists_cons_of_ne_nil nonempty
  obtain ⟨req', parsed, kept⟩ := @parseParams_segments
    (getRequest {} (segmentsTarget (segment :: rest)) [] 1 1 []) rfl segment rest rfl
  constructor
  · rintro ⟨p, req, accepted, params, same⟩
    rw [parse_segmentsRequest] at accepted
    obtain ⟨-, rfl, -⟩ := Outcome.mk.inj accepted
    cases parsed.symm.trans params
    rw [← same, kept]
    exact not_mem_of_mem_splitFrom (by simp)
  · intro plain
    rw [List.forall_mem_cons] at filled plain
    refine ⟨_, req', parse_segmentsRequest _, parsed, ?_⟩
    rw [kept, splitFrom_joinSegments filled.2 plain.2 segment filled.1 plain.1]

theorem segments_travel_iff_reserved :
    SegmentsTravel [bytes "a?b+c", [0, 233]] ↔
      ∀ segment ∈ [bytes "a?b+c", [0, 233]], '/'.toUInt8 ∉ segment :=
  segments_travel_iff (by decide) (by decide)

/-- A segment with a slash comes back as two. -/
theorem slash_cuts_segment :
    segmentsRequest [bytes "a/b", bytes "c"] = bytes "GET /a%2Fb/c HTTP/1.1\r\n\r\n" ∧
      ¬ SegmentsTravel [bytes "a/b", bytes "c"] := by
  refine ⟨rfl, ?_⟩
  rintro ⟨p, req, accepted, parsed, same⟩
  rw [parse_segmentsRequest] at accepted
  obtain ⟨-, rfl, -⟩ := Outcome.mk.inj accepted
  have cut : (parseParams (getRequest {} (segmentsTarget [bytes "a/b", bytes "c"]) [] 1 1 [])).map
      (·.restParams) =
      .ok [bytes "a", bytes "b", bytes "c"] := rfl
  rw [parsed] at cut
  have lengths := congrArg List.length (same.symm.trans (Except.ok.inj cut))
  exact absurd lengths (by decide)

/-! ### The first item -/

/-- Two blanks stand behind the first word of a text: a request line with nothing between the method and the
    version. -/
def EmptyTarget (text : Bytes) : Prop :=
  ∃ method rest, ' '.toUInt8 ∉ method ∧ text = method ++ ' '.toUInt8 :: ' '.toUInt8 :: rest

/-- An accepted request has an empty uri exactly when its text has an empty target. -/
theorem uri_eq_nil_iff {req : Request} (fresh : req.Fresh) {text : Bytes} {p : Parsing} {n : Nat}
    (accepted : parse (.start req) text = ⟨.yes, p, n⟩) : p.req.uri = [] ↔ EmptyTarget text := by
  rw [parse_eq_run] at accepted
  obtain ⟨-, accepts⟩ := Machine.run_eq_yes_iff.mp accepted
  obtain ⟨method, target, params, v, shape, name, targetText, rfl, -⟩ := target_of_accepts fresh accepts
  have noBlank : ' '.toUInt8 ∉ method := fun member => ne_of_isToken (name.token _ member) (by decide) rfl
  have whole : text = method ++ ' '.toUInt8 :: (p.req.uri ++ ' '.toUInt8 :: (v ++ text.drop n)) := by
    have parts := (List.take_append_drop n text).symm
    rw [shape] at parts
    simpa using parts
  constructor
  · intro empty
    rw [empty] at whole
    exact ⟨method, _, noBlank, whole⟩
  · rintro ⟨method', rest, noBlank', same⟩
    obtain ⟨-, behind⟩ := first_cut_unique noBlank noBlank' (whole.symm.trans same)
    cases uri : p.req.uri with
    | nil => rfl
    | cons b uri' =>
        rw [uri] at behind targetText
        obtain ⟨rfl, -⟩ := List.cons.inj behind
        exact absurd rfl (targetText.visible _ List.mem_cons_self).2

/-- `parse` leaves `rest_params` alone. -/
theorem restParams_of_accepted {req : Request} (fresh : req.Fresh) {text : Bytes} {p : Parsing} {n : Nat}
    (accepted : parse (.start req) text = ⟨.yes, p, n⟩) : p.req.restParams = [] := by
  have kept := (parse_outside (.start req) text).restParams
  rw [accepted] at kept
  exact kept.trans fresh.restParams

/-- On every accepted request the items of the decoded uri are there to erase the first of, exactly when the
    target is not empty. -/
theorem split_nonempty_iff {req : Request} (fresh : req.Fresh) {text : Bytes} {p : Parsing} {n : Nat}
    (accepted : parse (.start req) text = ⟨.yes, p, n⟩) :
    (split (percentDecode p.req.uri) '/'.toUInt8 p.req.restParams ≠ [] ↔ ¬ EmptyTarget text) ∧
      (parseParams p.req = .error .undefinedBehaviour ↔ EmptyTarget text) := by
  have untouched : p.req.restParams = [] := restParams_of_accepted fresh accepted
  have items : split (percentDecode p.req.uri) '/'.toUInt8 p.req.restParams = [] ↔ EmptyTarget text := by
    rw [← uri_eq_nil_iff fresh accepted, untouched, split, List.nil_append, splitFrom_eq_nil_iff,
      percentDecode_eq_nil_iff]
    simp
  refine ⟨not_congr items, ?_⟩
  rw [← items]
  unfold parseParams
  split <;> simp_all

theorem split_nonempty_iff_root :
    (split (percentDecode (bytes "/")) '/'.toUInt8 [] ≠ [] ↔
      ¬ EmptyTarget (bytes "GET / HTTP/1.1\r\n\r\n")) ∧
      (parseParams (getRequest {} (bytes "/") [] 1 1 []) = .error .undefinedBehaviour ↔
        EmptyTarget (bytes "GET / HTTP/1.1\r\n\r\n")) :=
  @split_nonempty_iff {} Request.fresh_default (bytes "GET / HTTP/1.1\r\n\r\n")
    ⟨.expectingNewline3, getRequest {} (bytes "/") [] 1 1 []⟩ 18 rfl

/-- `GET`, two blanks and a version. -/
theorem empty_target_undefined :
    parse (.start {}) (bytes "GET  HTTP/1.1\r\n\r\n") =
      ⟨.yes, ⟨.expectingNewline3, getRequest {} [] [] 1 1 []⟩, 17⟩ ∧
      split (percentDecode []) '/'.toUInt8 [] = [] ∧
      parseParams (getRequest {} [] [] 1 1 []) = .error .undefinedBehaviour :=
  ⟨rfl, rfl, rfl⟩

end Waspp
