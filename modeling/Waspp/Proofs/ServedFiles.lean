/-
Module: Waspp.Proofs.ServedFiles
Layer: Proofs
Purpose: What answers a request, and the type of a file that does.  `handle_request` gives a request to the
  handler of a route or to `get_file`, and what it fills out then is the response with the file's content
  and extension.  The extension is computed from the `std::string` of the path and the file is opened under
  its C string, so the two agree exactly when no NUL, or one that changes nothing, stands in the path.
Imports: Waspp.Foundation.Paths, Waspp.Proofs.DocRoot
Trusted boundary: none (fully proved)
Main exports: fullPath, Destination, destination, tryRequest_file, getExtension_eq, declared_type_iff
Open obligations: none
-/
import Waspp.Foundation.Paths
import Waspp.Proofs.DocRoot

namespace Waspp

open CString Paths Interaction

/-! ### Extensions -/

/-- Where a byte is found last. -/
theorem getLast?_findIdxs (c : UInt8) (s : Bytes) :
    (s.findIdxs (· == c)).getLast? = (afterLast c s).map fun text => s.length - (text.length + 1) := by
  cases found : afterLast c s with
  | none =>
      have absent := afterLast_eq_none_iff.mp found
      have noIdx : s.findIdxs (· == c) = [] := by
        rw [List.findIdxs_eq_nil_iff]
        intro b member
        rw [beq_eq_false_iff_ne]
        rintro rfl
        exact absent member
      rw [noIdx]
      rfl
  | some text =>
      obtain ⟨front, rfl, absent⟩ := eq_of_afterLast found
      have noIdx : text.findIdxs (· == c) (0 + front.length + 1) = [] := by
        rw [List.findIdxs_eq_nil_iff]
        intro b member
        rw [beq_eq_false_iff_ne]
        rintro rfl
        exact absent member
      rw [List.findIdxs_append, List.findIdxs_cons, if_pos (by simp), noIdx, List.getLast?_concat]
      simp

/-- `get_extension` gives the extension of a path with a slash. -/
theorem getExtension_eq {path : Bytes} (slash : '/'.toUInt8 ∈ path) :
    getExtension path = extension path := by
  obtain ⟨text, found⟩ := Option.ne_none_iff_exists'.mp (mt afterLast_eq_none_iff.mp (not_not.mpr slash))
  obtain ⟨front, rfl, noSlash⟩ := eq_of_afterLast found
  have base : baseName (front ++ '/'.toUInt8 :: text) = text := by rw [baseName, found, Option.getD_some]
  have behind : afterLast '.'.toUInt8 ('/'.toUInt8 :: text) = afterLast '.'.toUInt8 text := by
    rw [afterLast]
    cases afterLast '.'.toUInt8 text <;> rfl
  simp only [getExtension, getLast?_findIdxs, found, afterLast_append, behind, extension, base]
  cases last : afterLast '.'.toUInt8 text with
  | some ext =>
      -- The last dot is behind the last slash.
      obtain ⟨stem, rfl, -⟩ := eq_of_afterLast last
      have shape : front ++ '/'.toUInt8 :: (stem ++ '.'.toUInt8 :: ext) =
          (front ++ '/'.toUInt8 :: (stem ++ ['.'.toUInt8])) ++ ext := by simp
      simp only [Option.some_or, Option.map_some, Option.getD_some]
      rw [if_pos (by simp; omega), shape, List.drop_left' (by simp; omega)]
  | none =>
      -- Any dot is in front of the last slash.
      simp only [Option.none_or, Option.getD_none]
      cases afterLast '.'.toUInt8 front with
      | none => rfl
      | some ext =>
          simp only [Option.map_some]
          rw [if_neg (by simp; omega)]

/-! ### What answers a request -/

/-- The path that `get_file` makes of a request path. -/
def fullPath (env : Env) (requestPath : Bytes) : Bytes :=
  let path := env.cfg.docRoot ++ requestPath
  if path.getLast? = some '/'.toUInt8 then path ++ bytes "/index.html" else path

/-- The file that is opened has the path up to a zero byte. -/
theorem openedPath_eq (env : Env) (requestPath : Bytes) :
    openedPath env requestPath = cstr (fullPath env requestPath) :=
  rfl

/-- What `handle_request` gives a request to. -/
inductive Destination where
  /-- The handler of the route of this uri. -/
  | handler (uri : Bytes)
  /-- The file of this name. -/
  | file (path : Bytes)
deriving DecidableEq, Repr

/-- Where a request with this uri goes, when something serves it. -/
def destination (env : Env) (table : List Route) (uri : Bytes) : Option Destination :=
  match percentDecodeAndValidate uri with
  | none => none
  | some requestUri =>
      if requestUri.isEmpty || requestUri.head? ≠ some '/'.toUInt8
        || (find requestUri (bytes "..") 0).isSome then none
      else
        let slashed := if requestUri.getLast? ≠ some '/'.toUInt8 then requestUri ++ bytes "/" else requestUri
        match table.find? fun r => r.uri.isPrefixOf slashed with
        | some route => some (.handler route.uri)
        | none => (env.files (openedPath env requestUri)).map fun _ => .file (openedPath env requestUri)

/-- What is known of a request that something serves. -/
inductive Goes (env : Env) (table : List Route) (uri : Bytes) : Destination → Prop where
  | handler {requestUri : Bytes} {route : Route} (decoded : percentDecodeAndValidate uri = some requestUri)
      (passes : Passes requestUri) (member : route ∈ table)
      (selected : getFunc table requestUri = some route.func) :
      Goes env table uri (.handler route.uri)
  | file {requestUri content : Bytes} (decoded : percentDecodeAndValidate uri = some requestUri)
      (passes : Passes requestUri) (unselected : getFunc table requestUri = none)
      (opened : env.files (openedPath env requestUri) = some content) :
      Goes env table uri (.file (openedPath env requestUri))

section TryRequest

variable {env : Env} {table : List Route} {c : Ctx}

/-- A destination is where the request goes. -/
theorem goes_of_destination {uri : Bytes} {goal : Destination}
    (goes : destination env table uri = some goal) :
    Goes env table uri goal := by
  unfold destination at goes
  cases decoded : percentDecodeAndValidate uri with
  | none => simp [decoded] at goes
  | some requestUri =>
      simp only [decoded] at goes
      split at goes
      · cases goes
      · rename_i passes
        split at goes
        · rename_i route found
          cases goes
          refine .handler decoded passes (List.mem_of_find?_eq_some found) ?_
          rw [getFunc, found, Option.map_some]
        · rename_i missing
          obtain ⟨content, opened, rfl⟩ := Option.map_eq_some_iff.mp goes
          refine .file decoded passes ?_ opened
          rw [getFunc, missing, Option.map_none]

/-- The access check of `handle_request`, passed. -/
def Admits (env : Env) (c : Ctx) : Prop :=
  (!isAccessGranted env c.req.remoteAddr || isAccessDenied env c.req.remoteAddr) = false

/-- An admitted request whose decoded path passes the check is given to a handler or to `get_file`. -/
theorem tryRequest_of_passes (admitted : Admits env c) {requestUri : Bytes}
    (decoded : percentDecodeAndValidate c.req.uri = some requestUri) (passes : Passes requestUri) :
    tryRequest env table c =
      (match getFunc table requestUri with
        | none => do
            if ← getFile env requestUri then fillResponse env
            else respondStatic .notFound
        | some func => func >>= fun _ => fillResponse env : Act Unit) c := by
  unfold tryRequest
  change (if _ then _ else _ : Act Unit) c = _
  have yes : ¬ (!isAccessGranted env c.req.remoteAddr || isAccessDenied env c.req.remoteAddr) = true := by
    rw [Bool.not_eq_true]
    exact admitted
  rw [if_neg yes, decoded]
  change (if _ then _ else _ : Act Unit) c = _
  refine (congrFun (if_neg passes) c).trans ?_
  cases getFunc table requestUri <;> rfl

/-- A request that goes to a handler runs it, and then the response is filled out. -/
theorem tryRequest_handler (admitted : Admits env c) {uri : Bytes}
    (goes : destination env table c.req.uri = some (.handler uri)) :
    ∃ route ∈ table, route.uri = uri ∧
      tryRequest env table c = (route.func >>= fun _ => fillResponse env) c := by
  cases goes_of_destination goes with
  | @handler requestUri route decoded passes member selected =>
      refine ⟨route, member, rfl, ?_⟩
      rw [tryRequest_of_passes admitted decoded passes, selected]

/-- A request that goes to a file gets the file's content and its extension, and then the response is filled
    out. -/
theorem tryRequest_file (admitted : Admits env c) {path : Bytes}
    (goes : destination env table c.req.uri = some (.file path)) :
    ∃ requestUri content, percentDecodeAndValidate c.req.uri = some requestUri ∧ Passes requestUri ∧
      path = openedPath env requestUri ∧ env.files path = some content ∧
      tryRequest env table c = fillResponse env
        { c with res :=
          { c.res with
            content := c.res.content ++ content
            contentExtension := getExtension (fullPath env requestUri) } } := by
  cases goes_of_destination goes with
  | @file requestUri content decoded passes unselected opened =>
      refine ⟨requestUri, content, decoded, passes, rfl, opened, ?_⟩
      rw [tryRequest_of_passes admitted decoded passes, unselected]
      have read : readFile env requestUri c.res = (true,
          { c.res with
            content := c.res.content ++ content
            contentExtension := getExtension (fullPath env requestUri) }) := by
        unfold readFile
        dsimp only
        change env.files (cstr (fullPath env requestUri)) = some content at opened
        unfold fullPath at opened
        dsimp only at opened
        rw [opened]
        rfl
      have ran : getFile env requestUri c = .ret (.ok (readFile env requestUri c.res).1,
          { c with res := (readFile env requestUri c.res).2 }) := rfl
      change Program.bind (getFile env requestUri c) _ = _
      rw [ran, read]
      rfl

end TryRequest

/-! ### The declared type

The type is chosen by the extension of the whole path, the file is opened under the path up to a zero
byte. -/

/-- What a first NUL in a path leaves of its extension: behind it stands the same extension as in front, or
    it stands in a last component without a dot. -/
def ExtensionKept (path : Bytes) : Prop :=
  ∀ front back, (0 : UInt8) ∉ front → path = front ++ 0 :: back →
    if '/'.toUInt8 ∈ back ∨ '.'.toUInt8 ∈ back then extension back = extension front
    else '.'.toUInt8 ∉ baseName front

/-- The C string of a path has the path's extension exactly when a NUL leaves it. -/
theorem extension_cstr_iff (path : Bytes) : extension path = extension (cstr path) ↔ ExtensionKept path := by
  by_cases nul : (0 : UInt8) ∈ path
  · obtain ⟨front, back, rfl, first⟩ := List.eq_append_cons_of_mem nul
    have opened : cstr (front ++ 0 :: back) = front := by
      rw [cstr_append first]
      exact List.append_nil front
    have kept : ExtensionKept (front ++ 0 :: back) ↔
        if '/'.toUInt8 ∈ back ∨ '.'.toUInt8 ∈ back then extension back = extension front
        else '.'.toUInt8 ∉ baseName front := by
      constructor
      · exact fun all => all front back first rfl
      · intro here front' back' first' same
        obtain ⟨rfl, rfl⟩ := first_cut_unique first first' same
        exact here
    rw [kept, opened, extension_append_cons (by decide) (by decide)]
    split
    · rfl
    · rw [extension]
      cases last : afterLast '.'.toUInt8 (baseName front) with
      | none => exact iff_of_true rfl (afterLast_eq_none_iff.mp last)
      | some text =>
          refine iff_of_false (fun same => ?_) (not_not.mpr (mem_of_afterLast last))
          have lengths := congrArg List.length same
          simp at lengths
  · rw [cstr_eq_self nul]
    refine iff_of_true rfl fun front back _ same => absurd ?_ nul
    simp [same]

/-- A path that passes the check of `handle_request` has a slash. -/
theorem slash_mem_fullPath (env : Env) {requestUri : Bytes} (passes : Passes requestUri) :
    '/'.toUInt8 ∈ fullPath env requestUri := by
  have inside : '/'.toUInt8 ∈ env.cfg.docRoot ++ requestUri := by
    apply List.mem_append_right
    cases requestUri with
    | nil => exact absurd rfl passes
    | cons b rest =>
        by_contra absent
        apply passes
        have other : b ≠ '/'.toUInt8 := fun same => absent (same ▸ List.mem_cons_self)
        simp [other]
  unfold fullPath
  dsimp only
  split
  · exact List.mem_append_left _ inside
  · exact inside

/-- The response that is filled out for a request answered by `get_file` has the extension of the file
    opened, exactly when a NUL in the full path leaves it. -/
theorem declared_type_iff {env : Env} {table : List Route} {c : Ctx} (admitted : Admits env c) {path : Bytes}
    (goes : destination env table c.req.uri = some (.file path)) :
    ∃ requestUri res, percentDecodeAndValidate c.req.uri = some requestUri ∧
      path = cstr (fullPath env requestUri) ∧ (env.files path).isSome = true ∧
      tryRequest env table c = fillResponse env { c with res := res } ∧
      (res.contentExtension = extension path ↔ ExtensionKept (fullPath env requestUri)) := by
  obtain ⟨requestUri, content, decoded, passes, rfl, opened, runs⟩ := tryRequest_file admitted goes
  refine ⟨requestUri, _, decoded, rfl, by rw [opened]; rfl, runs, ?_⟩
  rw [openedPath_eq, ← extension_cstr_iff, ← getExtension_eq (slash_mem_fullPath env passes)]

/-- A server with one page. -/
private def pageServer : Env :=
  { bareEnv with files := fun path => if path = bytes "../doc//a.html" then some (bytes "<p>") else none }

/-- A request for a path. -/
private def asking (uri : Bytes) : Ctx := ⟨{ uri := uri }, {}⟩

/-- The request is let in. -/
private theorem admitted_asking (uri : Bytes) : Admits pageServer (asking uri) := rfl

theorem declared_type_iff_page :
    ∃ requestUri res, percentDecodeAndValidate (asking (bytes "/a.html%00.html")).req.uri = some requestUri ∧
      bytes "../doc//a.html" = cstr (fullPath pageServer requestUri) ∧
      (pageServer.files (bytes "../doc//a.html")).isSome = true ∧
      tryRequest pageServer (routes pageServer) (asking (bytes "/a.html%00.html")) =
        fillResponse pageServer { asking (bytes "/a.html%00.html") with res := res } ∧
      (res.contentExtension = extension (bytes "../doc//a.html") ↔
        ExtensionKept (fullPath pageServer requestUri)) :=
  declared_type_iff (admitted_asking _) (by decide +kernel)

/-- The page is sent as a script. -/
theorem page_declared_as_script :
    destination pageServer (routes pageServer) (bytes "/a.html%00.js") =
      some (.file (bytes "../doc//a.html")) ∧ extension (bytes "../doc//a.html") = bytes "html" ∧
      (∃ res, tryRequest pageServer (routes pageServer) (asking (bytes "/a.html%00.js")) =
          fillResponse pageServer { asking (bytes "/a.html%00.js") with res := res } ∧
        res.contentExtension = bytes "js") ∧
      NameValue.valueOf ((handleRequest pageServer (routes pageServer)).exec (serve plainMysql)
        (asking (bytes "/a.html%00.js")) shippedWorld).1.2.res.headers (bytes "Content-Type") =
          bytes "application/javascript" := by
  have goes : destination pageServer (routes pageServer) (bytes "/a.html%00.js") =
      some (.file (bytes "../doc//a.html")) := by
    decide +kernel
  refine ⟨goes, by decide +kernel, ?_, by decide +kernel⟩
  obtain ⟨requestUri, content, decoded, -, -, -, runs⟩ := @tryRequest_file pageServer (routes pageServer)
    (asking (bytes "/a.html%00.js")) (admitted_asking _) _ goes
  refine ⟨_, runs, ?_⟩
  have path : percentDecodeAndValidate (asking (bytes "/a.html%00.js")).req.uri =
      some (bytes "/a.html" ++ 0 :: bytes ".js") := by
    decide +kernel
  obtain rfl := Option.some.inj (path.symm.trans decoded)
  have declared : getExtension (fullPath pageServer (bytes "/a.html" ++ 0 :: bytes ".js")) = bytes "js" := by
    decide +kernel
  exact declared

end Waspp
