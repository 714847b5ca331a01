/-
Module: Waspp.Proofs.QueryRouting
Layer: Proofs
Purpose: What a query string does to the way of a request.  `parse` keeps the query in the uri, so the
  routes are compared with it, the name of a file has it, and `parse_params` splits it with the path.  A
  route is kept exactly when it begins the path without the slash that `get_func` appends; the last of the
  `rest_params` is never kept.
Imports: Waspp.Foundation.Search, Waspp.Proofs.ServedFiles, Waspp.Proofs.UrlDecoders,
  Waspp.Proofs.PathSegments
Trusted boundary: none (fully proved)
Main exports: validate_append, handler_kept_iff, file_lost, flatten_splitFrom, SameWay, query_changes_way
Open obligations: none
-/
import Waspp.Foundation.Search
import Waspp.Proofs.ServedFiles
import Waspp.Proofs.UrlDecoders
import Waspp.Proofs.PathSegments

namespace Waspp

open CString Paths

/-! ### Decoding a path with a query

Decoding goes byte by byte, so a path with a query is decoded to the path's text, the question mark and
the query's text. -/

/-- What is accepted is decoded apart from what follows it. -/
theorem validate_append {x u : Bytes} (decoded : percentDecodeAndValidate x = some u) (y : Bytes) :
    percentDecodeAndValidate (x ++ y) = (percentDecodeAndValidate y).map (u ++ ·) := by
  fun_induction percentDecodeAndValidate x generalizing u with
  | case1 =>
      cases decoded
      simp
  | case2 c percent first second rest value read ih =>
      obtain ⟨tail, decoded', rfl⟩ := Option.map_eq_some_iff.mp decoded
      rw [eq_of_beq percent, List.cons_append, List.cons_append, List.cons_append, validate_number read,
        ih decoded', Option.map_map]
      rfl
  | case3 => cases decoded
  | case4 => cases decoded
  | case5 c rest percent plus ih =>
      obtain ⟨tail, decoded', rfl⟩ := Option.map_eq_some_iff.mp decoded
      rw [eq_of_beq plus, List.cons_append, validate_plus, ih decoded', Option.map_map]
      rfl
  | case6 c rest percent plus ih =>
      obtain ⟨tail, decoded', rfl⟩ := Option.map_eq_some_iff.mp decoded
      rw [List.cons_append, validate_cons (by simpa using plus) (by simpa using percent), ih decoded',
        Option.map_map]
      rfl

/-- A decoded path with a query behind it. -/
theorem validate_append_query {p u : Bytes} (decoded : percentDecodeAndValidate p = some u) (q : Bytes) :
    percentDecodeAndValidate (p ++ '?'.toUInt8 :: q) =
      (percentDecodeAndValidate q).map fun v => u ++ '?'.toUInt8 :: v := by
  rw [validate_append decoded, validate_cons (by decide) (by decide), Option.map_map]
  rfl

/-- A path that one decoder begins with a slash, the other does too: no sign or single digit makes a slash.
    -/
theorem head_percentDecode {s u : Bytes} (decoded : percentDecodeAndValidate s = some u)
    (slash : u.head? = some '/'.toUInt8) : (percentDecode s).head? = some '/'.toUInt8 := by
  fun_induction percentDecodeAndValidate s with
  | case1 =>
      cases decoded
      cases slash
  | case2 c percent first second rest value read =>
      obtain ⟨tail, -, rfl⟩ := Option.map_eq_some_iff.mp decoded
      have byte : UInt8.ofInt value = '/'.toUInt8 := Option.some.inj slash
      rw [eq_of_beq percent]
      cases digits : isxdigit first && isxdigit second with
      | true =>
          obtain ⟨value', read', same⟩ := streamHex_digits (Bool.and_eq_true_iff.mp digits).1
            (Bool.and_eq_true_iff.mp digits).2
          cases read.symm.trans read'
          rw [percentDecode_digits digits, ← same, byte]
          rfl
      | false =>
          have other : ∀ d < 16, UInt8.ofInt (d : Nat) ≠ '/'.toUInt8 ∧
              UInt8.ofInt (-(d : Nat)) ≠ '/'.toUInt8 := by
            decide +kernel
          obtain ⟨d, small, rfl | rfl⟩ := streamHex_small read digits
          · exact absurd byte (other d small).1
          · exact absurd byte (other d small).2
  | case3 => cases decoded
  | case4 => cases decoded
  | case5 c rest percent plus =>
      obtain ⟨tail, -, rfl⟩ := Option.map_eq_some_iff.mp decoded
      cases slash
  | case6 c rest percent plus =>
      obtain ⟨tail, -, rfl⟩ := Option.map_eq_some_iff.mp decoded
      rw [percentDecode_cons (by simpa using plus) (by simpa using percent)]
      exact slash

/-! ### Routes and files -/

/-- A path that passes begins with a slash. -/
theorem Passes.head {u : Bytes} (passes : Passes u) : u.head? = some '/'.toUInt8 := by
  by_contra other
  exact passes (by simp [other])

/-- A path that passes the check still does with a query, exactly when no two dots stand in the decoded
    query. -/
theorem passes_append_query {u : Bytes} (passes : Passes u) (v : Bytes) :
    Passes (u ++ '?'.toUInt8 :: v) ↔ ¬ bytes ".." <:+: v := by
  have head : (u ++ '?'.toUInt8 :: v).head? = some '/'.toUInt8 := by
    rw [List.head?_append, passes.head]
    rfl
  have dots : bytes ".." <:+: u ++ '?'.toUInt8 :: v ↔ bytes ".." <:+: v := by
    constructor
    · intro occurs
      rcases isInfix_of_notMem (by decide) occurs with left | right
      · exact absurd left passes.no_dots
      · exact right
    · intro occurs
      exact occurs.trans (List.suffix_append_of_suffix (List.suffix_cons _ v)).isInfix
  rw [Passes, head]
  simp [find_isSome_iff, dots]

/-- What `get_func` compares the routes with. -/
def slashed (u : Bytes) : Bytes := if u.getLast? ≠ some '/'.toUInt8 then u ++ bytes "/" else u

/-- A route without a `?` begins a path with a query when it begins the path as it is. -/
theorem isPrefix_slashed_query {pat u v : Bytes} (plain : '?'.toUInt8 ∉ pat) :
    pat <+: slashed (u ++ '?'.toUInt8 :: v) ↔ pat <+: u := by
  have shape : ∃ v', slashed (u ++ '?'.toUInt8 :: v) = u ++ '?'.toUInt8 :: v' := by
    unfold slashed
    split
    · exact ⟨v ++ bytes "/", by simp⟩
    · exact ⟨v, rfl⟩
  obtain ⟨v', shape⟩ := shape
  rw [shape]
  exact ⟨fun occurs => isPrefix_of_notMem plain occurs, fun occurs => occurs.trans (List.prefix_append u _)⟩

/-- Where a request goes whose decoded path passes the check. -/
theorem destination_of_passes {env : Env} {table : List Route} {uri u : Bytes}
    (decoded : percentDecodeAndValidate uri = some u) (passes : Passes u) :
    destination env table uri =
      match table.find? fun r => r.uri.isPrefixOf (slashed u) with
      | some route => some (.handler route.uri)
      | none => (env.files (openedPath env u)).map fun _ => .file (openedPath env u) := by
  unfold destination
  rw [decoded]
  dsimp only
  rw [if_neg passes]
  rfl

/-- What has a destination passes the checks. -/
theorem passes_of_destination {env : Env} {table : List Route} {uri : Bytes} {goal : Destination}
    (goes : destination env table uri = some goal) :
    ∃ u, percentDecodeAndValidate uri = some u ∧ Passes u := by
  cases goes_of_destination goes with
  | handler decoded passes => exact ⟨_, decoded, passes⟩
  | file decoded passes => exact ⟨_, decoded, passes⟩

/-- A file that a request goes to is the one of its decoded path. -/
theorem opened_of_destination {env : Env} {table : List Route} {uri u path : Bytes}
    (decoded : percentDecodeAndValidate uri = some u)
    (goes : destination env table uri = some (.file path)) :
    path = openedPath env u := by
  cases goes_of_destination goes with
  | file decoded' =>
      cases decoded.symm.trans decoded'
      rfl

section Query

variable {env : Env} {table : List Route} {p u q : Bytes}

/-- A request for a route is given to the same route with a query, exactly when the query decodes to a text
    without two dots and the route needs no slash appended to the path. -/
theorem handler_kept_iff (plain : ∀ route ∈ table, '?'.toUInt8 ∉ route.uri)
    (decoded : percentDecodeAndValidate p = some u) {uri : Bytes}
    (goes : destination env table p = some (.handler uri)) :
    destination env table (p ++ '?'.toUInt8 :: q) = some (.handler uri) ↔
      (∃ v, percentDecodeAndValidate q = some v ∧ ¬ bytes ".." <:+: v) ∧ uri <+: u := by
  obtain ⟨_, decoded', passes⟩ := passes_of_destination goes
  cases decoded.symm.trans decoded'
  constructor
  · intro goes'
    obtain ⟨w, decodedAll, passesAll⟩ := passes_of_destination goes'
    have both := decodedAll
    rw [validate_append_query decoded] at both
    obtain ⟨v, decodedQuery, rfl⟩ := Option.map_eq_some_iff.mp both
    refine ⟨⟨v, decodedQuery, (passes_append_query passes v).mp passesAll⟩, ?_⟩
    rw [destination_of_passes decodedAll passesAll] at goes'
    split at goes'
    · rename_i route found
      cases goes'
      have begins : route.uri.isPrefixOf (slashed (u ++ '?'.toUInt8 :: v)) = true :=
        @List.find?_some _ (fun r : Route => r.uri.isPrefixOf _) _ _ found
      rw [List.isPrefixOf_iff_prefix] at begins
      exact (isPrefix_slashed_query (plain route (List.mem_of_find?_eq_some found))).mp begins
    · obtain ⟨-, -, same⟩ := Option.map_eq_some_iff.mp goes'
      cases same
  · rintro ⟨⟨v, decodedQuery, noDots⟩, begins⟩
    have decodedAll : percentDecodeAndValidate (p ++ '?'.toUInt8 :: q) = some (u ++ '?'.toUInt8 :: v) := by
      rw [validate_append_query decoded, decodedQuery, Option.map_some]
    rw [destination_of_passes decodedAll ((passes_append_query passes v).mpr noDots)]
    rw [destination_of_passes decoded passes] at goes
    split at goes
    · rename_i route found
      cases goes
      obtain ⟨-, front, behind, rfl, earlier⟩ := List.find?_eq_some_iff_append.mp found
      -- No route in front begins the path, with or without a slash.
      have found' : (front ++ route :: behind).find?
          (fun r => r.uri.isPrefixOf (slashed (u ++ '?'.toUInt8 :: v))) =
          some route := by
        rw [List.find?_eq_some_iff_append]
        refine ⟨?_, front, behind, rfl, fun r member => ?_⟩
        · rw [List.isPrefixOf_iff_prefix, isPrefix_slashed_query (plain route (by simp))]
          exact begins
        · have other : ¬ r.uri <+: slashed u := by
            rw [← List.isPrefixOf_iff_prefix, Bool.not_eq_true, ← Bool.not_eq_true']
            exact earlier r member
          rw [Bool.not_eq_true', ← Bool.not_eq_true, List.isPrefixOf_iff_prefix,
            isPrefix_slashed_query (plain r (List.mem_append_left _ member))]
          intro begins'
          apply other
          unfold slashed
          split
          · exact begins'.trans (List.prefix_append u _)
          · exact begins'
      rw [found']
    · obtain ⟨-, -, same⟩ := Option.map_eq_some_iff.mp goes
      cases same

/-- With a query a request is never given to the file that it is given to without, where no NUL stands in the
    path. -/
theorem file_lost (plain : (0 : UInt8) ∉ env.cfg.docRoot ++ u)
    (decoded : percentDecodeAndValidate p = some u)
    {path : Bytes} (goes : destination env table p = some (.file path)) :
    destination env table (p ++ '?'.toUInt8 :: q) ≠ some (.file path) := by
  intro goes'
  obtain ⟨_, decoded', passes⟩ := passes_of_destination goes
  cases decoded.symm.trans decoded'
  obtain ⟨w, decodedAll, passesAll⟩ := passes_of_destination goes'
  have both := decodedAll
  rw [validate_append_query decoded] at both
  obtain ⟨v, -, rfl⟩ := Option.map_eq_some_iff.mp both
  have name := opened_of_destination decoded goes
  have name' := opened_of_destination decodedAll goes'
  rw [name, openedPath_eq, openedPath_eq] at name'
  -- What is opened with the query begins with the path and a `?`.
  have withQuery : ∃ more, fullPath env (u ++ '?'.toUInt8 :: v) = (env.cfg.docRoot ++ u) ++
      '?'.toUInt8 :: more := by
    unfold fullPath
    dsimp only
    split
    · exact ⟨v ++ bytes "/index.html", by simp⟩
    · exact ⟨v, by simp⟩
  obtain ⟨more, withQuery⟩ := withQuery
  have front : cstr (fullPath env (u ++ '?'.toUInt8 :: v)) = (env.cfg.docRoot ++ u) ++
      '?'.toUInt8 :: cstr more := by
    rw [withQuery, cstr_append plain]
    rfl
  rw [front] at name'
  unfold fullPath at name'
  dsimp only at name'
  split at name'
  · rw [cstr_append plain] at name'
    have next := List.append_cancel_left name'
    exact absurd (List.cons.inj next).1 (by decide)
  · rw [cstr_eq_self plain] at name'
    exact absurd name' (by simp)

end Query

/-! ### The rest parameters -/

/-- Splitting drops the separators and nothing else. -/
theorem flatten_splitFrom (c : UInt8) (item s : Bytes) :
    (splitFrom c item s).flatten = item ++ s.filter (· != c) := by
  induction s generalizing item with
  | nil =>
      rw [splitFrom]
      split <;> simp_all
  | cons b rest ih =>
      rw [splitFrom]
      split
      · rename_i same
        rw [List.flatten_cons, ih, List.filter_cons_of_neg (by simpa using same), List.nil_append]
      · rename_i other
        rw [ih, List.filter_cons_of_pos (by simpa using other), List.append_assoc]
        rfl

/-- What `parse_params` leaves of a path that begins with a slash, joined, is the decoded path without its
    slashes. -/
theorem flatten_restParams {req : Request} (fresh : req.restParams = [])
    (slash : (percentDecode req.uri).head? = some '/'.toUInt8) :
    ∃ req', parseParams req = .ok req' ∧
      req'.restParams.flatten = (percentDecode req.uri).filter (· != '/'.toUInt8) := by
  obtain ⟨rest, shape⟩ := List.head?_eq_some_iff.mp slash
  have items : split (percentDecode req.uri) '/'.toUInt8 req.restParams =
      [] :: splitFrom '/'.toUInt8 [] rest := by
    rw [fresh, shape]
    rfl
  refine ⟨_, by rw [parseParams, items], ?_⟩
  show (splitFrom '/'.toUInt8 [] rest).flatten = _
  rw [flatten_splitFrom, shape]
  rfl

/-- Two requests go to one place, and `parse_params` leaves the same `rest_params` in them. -/
def SameWay (env : Env) (table : List Route) (one two : Request) : Prop :=
  destination env table one.uri = destination env table two.uri ∧
    ∃ one' two', parseParams one = .ok one' ∧ parseParams two = .ok two' ∧ one'.restParams = two'.restParams

/-- A query always changes the way of a request: its `?` stands in the `rest_params`. -/
theorem query_changes_way {env : Env} {table : List Route} {req req' : Request} (fresh : req.Fresh)
    (fresh' : req'.Fresh) {text text' p q : Bytes} {one two : Parsing} {n n' : Nat}
    (accepted : parse (.start req) text = ⟨.yes, one, n⟩)
    (accepted' : parse (.start req') text' = ⟨.yes, two, n'⟩)
    (uri : one.req.uri = p) (uri' : two.req.uri = p ++ '?'.toUInt8 :: q) {goal : Destination}
    (goes : destination env table p = some goal) : ¬ SameWay env table one.req two.req := by
  rintro ⟨-, one', two', parsed, parsed', same⟩
  obtain ⟨u, decoded, passes⟩ := passes_of_destination goes
  have slash : (percentDecode p).head? = some '/'.toUInt8 := head_percentDecode decoded passes.head
  have both : percentDecode (p ++ '?'.toUInt8 :: q) = percentDecode p ++ '?'.toUInt8 :: percentDecode q :=
    percentDecode_append_stop (by decide) (by decide) (by decide) p q
  have slash' : (percentDecode (p ++ '?'.toUInt8 :: q)).head? = some '/'.toUInt8 := by
    rw [both, List.head?_append, slash]
    rfl
  obtain ⟨one'', parses, joined⟩ := flatten_restParams (restParams_of_accepted fresh accepted) (uri ▸ slash)
  obtain ⟨two'', parses', joined'⟩ :=
    flatten_restParams (restParams_of_accepted fresh' accepted') (uri' ▸ slash')
  cases parsed.symm.trans parses
  cases parsed'.symm.trans parses'
  rw [uri, same] at joined
  rw [uri', both, List.filter_append, List.filter_cons_of_pos (by decide)] at joined'
  have lengths := congrArg List.length (joined.symm.trans joined')
  simp at lengths

/-- What `parse` leaves of a request for a path, and for the path with a query. -/
private def indexRequest : Request := getRequest {} (bytes "/dir/forum/index") [] 1 1 []

private def indexPageRequest : Request :=
  getRequest {} (bytes "/dir/forum/index?page=2") [⟨bytes "page", bytes "2"⟩] 1 1 []

private theorem index_accepted :
    parse (.start {}) (bytes "GET /dir/forum/index HTTP/1.1\r\n\r\n") = ⟨.yes,
      ⟨.expectingNewline3, indexRequest⟩, 33⟩ :=
  rfl

private theorem indexPage_accepted :
    parse (.start {}) (bytes "GET /dir/forum/index?page=2 HTTP/1.1\r\n\r\n") =
      ⟨.yes, ⟨.expectingNewline3, indexPageRequest⟩, 40⟩ :=
  rfl

private theorem index_goes :
    destination bareEnv (routes bareEnv) indexRequest.uri = some (.handler (bytes "/dir/forum/index/")) := by
  decide +kernel

theorem query_changes_way_page : ¬ SameWay bareEnv (routes bareEnv) indexRequest indexPageRequest := by
  have withQuery : indexPageRequest.uri = indexRequest.uri ++ '?'.toUInt8 :: bytes "page=2" := rfl
  have changed := query_changes_way Request.fresh_default Request.fresh_default index_accepted
      indexPage_accepted rfl
    withQuery index_goes
  exact changed

/-- With a query the page of a forum is not found, and the last of the `rest_params` has the query. -/
theorem index_lost_with_query :
    parse (.start {}) (bytes "GET /dir/forum/index HTTP/1.1\r\n\r\n") = ⟨.yes,
      ⟨.expectingNewline3, indexRequest⟩, 33⟩ ∧
      parse (.start {}) (bytes "GET /dir/forum/index?page=2 HTTP/1.1\r\n\r\n") =
        ⟨.yes, ⟨.expectingNewline3, indexPageRequest⟩, 40⟩ ∧
      destination bareEnv (routes bareEnv) indexRequest.uri = some (.handler (bytes "/dir/forum/index/")) ∧
      destination bareEnv (routes bareEnv) indexPageRequest.uri = none ∧
      (parseParams indexRequest).map (·.restParams) = .ok [bytes "dir", bytes "forum", bytes "index"] ∧
      (parseParams indexPageRequest).map (·.restParams) = .ok [bytes "dir", bytes "forum",
        bytes "index?page=2"] ∧
      ¬ SameWay bareEnv (routes bareEnv) indexRequest indexPageRequest := by
  have lost : destination bareEnv (routes bareEnv) indexPageRequest.uri = none := by decide +kernel
  refine ⟨index_accepted, indexPage_accepted, index_goes, lost, by decide +kernel, by decide +kernel, ?_⟩
  rintro ⟨same, -⟩
  rw [lost] at same
  cases index_goes.symm.trans same

end Waspp
