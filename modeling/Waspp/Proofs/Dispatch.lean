/-
Module: Waspp.Proofs.Dispatch
Layer: Proofs
Purpose: What `handle_request` makes of a handler.  Whatever is known of the runs of every handler in a
  table is known of the run behind an answer: an answer either comes from no handler, and sets no cookie,
  or from a handler that did not get through, and is the stock response of an internal error, or from a
  handler that returned, and then its Set-Cookie lines are the cookies that the handler left.
Imports: Waspp.Model.RequestHandler
Trusted boundary: none (fully proved)
Main exports: selectedUri, isSetCookie, Handled, handleRequest_handled, handleRequest_runs
Open obligations: none
-/
import Waspp.Model.RequestHandler

namespace Waspp

open CString Interaction

/-- The uri of the route that a request selects from a table. -/
def selectedUri (table : List Route) (req : Request) : Option Bytes :=
  (percentDecodeAndValidate req.uri).bind fun requestUri =>
    (table.find? fun r => r.uri.isPrefixOf
      (if requestUri.getLast? ≠ some '/'.toUInt8 then requestUri ++ bytes "/" else requestUri)).map (·.uri)

/-- A header that sets a cookie. -/
def isSetCookie (header : NameValue) : Bool := header.name == bytes "Set-Cookie"

/-- The headers of a response that set cookies. -/
def setCookies (res : Response) : List NameValue := res.headers.filter isSetCookie

/-- How an answer comes about, given what holds of the runs of the handlers. -/
inductive Handled (table : List Route)
    (S : Bytes → List (Event DbCall Reply) → Except Exn Unit → Ctx → Prop) (c : Ctx) :
    List (Event DbCall Reply) → Ctx → Prop where
  /-- Without a handler. -/
  | stock {c' : Ctx} (headers : setCookies c'.res = []) (cookies : c'.res.cookies = []) :
      Handled table S c [] c'
  /-- The handler or what follows it threw. -/
  | failed {uri : Bytes} {trace : List (Event DbCall Reply)} {r : Except Exn Unit} {c₁ c' : Ctx}
      (selected : selectedUri table c.req = some uri) (spec : S uri trace r c₁)
      (res : c'.res = .staticResponse .internalServerError) : Handled table S c trace c'
  /-- The handler returned. -/
  | routed {uri : Bytes} {trace : List (Event DbCall Reply)} {c₁ c' : Ctx}
      (selected : selectedUri table c.req = some uri) (spec : S uri trace (.ok ()) c₁)
      (cookies : c'.res.cookies = c₁.res.cookies)
      (headers : setCookies c'.res = setCookies c₁.res ++ c₁.res.cookies.map setCookieHeader)
      (status : c'.res.status = some .ok) : Handled table S c trace c'

variable (env : Env)

/-- A header of another name leaves the cookies that are set. -/
theorem setCookies_pushHeader {res : Response} {name : Bytes} (other : name ≠ bytes "Set-Cookie")
    (value : Bytes) :
    setCookies (res.pushHeader name value) = setCookies res := by
  simp [setCookies, Response.pushHeader, isSetCookie, other]

/-- The headers that are filled in set the cookies of the response. -/
theorem setCookies_fillHeaders (res : Response) :
    setCookies (fillHeaders res) = setCookies res ++ res.cookies.map setCookieHeader := by
  have all : (res.cookies.map setCookieHeader).filter isSetCookie = res.cookies.map setCookieHeader := by
    apply List.filter_eq_self.mpr
    intro header member
    rcases List.mem_map.mp member with ⟨cookie, -, rfl⟩
    simp [isSetCookie, setCookieHeader]
  have contentType : isSetCookie ⟨bytes "Content-Type", extensionToType res.contentExtension⟩ = false := by
    simp only [isSetCookie]
    decide
  have keepAlive : isSetCookie ⟨bytes "Keep-Alive", bytes "timeout=0, max=0"⟩ = false := by decide
  simp [setCookies, fillHeaders, Response.pushHeader, all, contentType, keepAlive]

/-- The compression sets no cookie. -/
theorem compressContent_setCookies (c : Ctx) :
    (compressContent env).Ensures c fun trace _ c' =>
      trace = [] ∧ setCookies c'.res = setCookies c.res ∧ c'.res.cookies = c.res.cookies := by
  unfold compressContent
  split
  · apply Act.ensures_header_bind.mpr
    apply Action.ensures_get_bind.mpr
    split
    · apply Action.ensures_modify_bind.mpr
      have pushed : setCookies (c.res.pushHeader (bytes "Content-Encoding") (bytes "gzip")) =
          setCookies c.res :=
        setCookies_pushHeader (by decide) _
      split
      · exact ⟨rfl, pushed, rfl⟩
      · exact ⟨rfl, pushed, rfl⟩
    · exact ⟨rfl, rfl, rfl⟩
  · exact ⟨rfl, rfl, rfl⟩

/-- `fill_response` sets the cookies of the response, if it returns, and keeps the rest. -/
theorem fillResponse_setCookies (c : Ctx) :
    (fillResponse env).Ensures c fun trace r c' => trace = [] ∧ (r = .ok () →
      setCookies c'.res = setCookies c.res ++ c.res.cookies.map setCookieHeader ∧
      c'.res.cookies = c.res.cookies ∧ c'.res.status = some .ok) := by
  apply Action.ensures_modify_bind.mpr
  apply Action.ensures_bind.mpr
  apply (compressContent_setCookies env _).mono
  rintro trace r c' ⟨rfl, headers, cookies⟩
  cases r with
  | error e => exact ⟨rfl, by simp⟩
  | ok done =>
      refine ⟨rfl, fun _ => ⟨?_, cookies, rfl⟩⟩
      exact (setCookies_pushHeader (by decide) _).trans (headers.trans (setCookies_fillHeaders c.res))

/-- A stock response sets no cookie. -/
theorem setCookies_staticResponse (status : StatusType) : setCookies (.staticResponse status) = [] := by
  have all : (Response.staticResponse status).headers.all fun header => !isSetCookie header := by
    simp only [Response.staticResponse, List.all_cons, List.all_nil, isSetCookie, Bool.and_true]
    decide
  apply List.filter_eq_nil_iff.mpr
  intro header member
  simpa using List.all_eq_true.mp all header member

variable {env} {table : List Route} {S : Bytes → List (Event DbCall Reply) → Except Exn Unit → Ctx →
  Prop} {c : Ctx}

/-- A stock response is an answer without a handler. -/
theorem handled_static (status : StatusType) :
    (respondStatic status).Ensures c fun trace _ c' => Handled table S c trace c' :=
  .stock (setCookies_staticResponse status) rfl

/-- A route that `get_func` finds. -/
theorem getFunc_selected {req : Request} {requestUri : Bytes}
    (decoded : percentDecodeAndValidate req.uri = some requestUri)
    {func : Act Unit} (found : getFunc table requestUri = some func) :
    ∃ route ∈ table, route.func = func ∧ selectedUri table req = some route.uri := by
  rcases Option.map_eq_some_iff.mp found with ⟨route, first, same⟩
  refine ⟨route, List.mem_of_find?_eq_some first, same, ?_⟩
  rw [selectedUri, decoded, Option.bind_some, first, Option.map_some]

/-- What a run of the try block leaves: an answer, or an exception of a handler or of what follows it. -/
theorem tryRequest_handled (headers : setCookies c.res = []) (cookies : c.res.cookies = [])
    (spec : ∀ route ∈ table, route.func.Ensures c (S route.uri)) :
    (tryRequest env table).Ensures c fun trace r c' =>
      match r with
      | .ok () => Handled table S c trace c'
      | .error _ => trace = [] ∨ ∃ uri r₁ c₁, selectedUri table c.req = some uri ∧ S uri trace r₁ c₁ := by
  unfold tryRequest
  apply Action.ensures_get_bind.mpr
  split
  · exact handled_static _
  · cases decoded : percentDecodeAndValidate c.req.uri with
    | none => exact handled_static _
    | some requestUri =>
        simp only
        split
        · exact handled_static _
        · cases found : getFunc table requestUri with
          | none =>
              simp only
              apply Action.ensures_bind.mpr
              apply (Action.ensures_lift _).mpr
              have kept : setCookies (readFile env requestUri c.res).2 = [] ∧
                  (readFile env requestUri c.res).2.cookies = [] := by
                simp only [readFile]
                split
                · exact ⟨headers, cookies⟩
                · exact ⟨headers, cookies⟩
              rcases read : readFile env requestUri c.res with ⟨served, res⟩
              rw [read] at kept
              cases served with
              | false => exact handled_static _
              | true =>
                  apply (fillResponse_setCookies env _).mono
                  rintro trace r c' ⟨rfl, filled⟩
                  cases r with
                  | error e => exact Or.inl rfl
                  | ok done =>
                      rcases filled rfl with ⟨set, cookies', -⟩
                      refine .stock ?_ (cookies'.trans kept.2)
                      rw [set, kept.1, kept.2]
                      rfl
          | some func =>
              rcases getFunc_selected decoded found with ⟨route, member, rfl, selected⟩
              apply Action.ensures_bind.mpr
              apply (spec route member).mono
              intro trace r c₁ left
              cases r with
              | error e => exact Or.inr ⟨_, _, _, selected, left⟩
              | ok done =>
                  apply (fillResponse_setCookies env _).mono
                  rintro later r c' ⟨rfl, filled⟩
                  rw [List.append_nil]
                  cases r with
                  | error e => exact Or.inr ⟨_, _, _, selected, left⟩
                  | ok done =>
                      rcases filled rfl with ⟨set, cookies', status⟩
                      exact .routed selected left cookies' set status

/-- What is known of the handlers is known of every answer. -/
theorem handleRequest_handled (headers : setCookies c.res = []) (cookies : c.res.cookies = [])
    (spec : ∀ route ∈ table, route.func.Ensures c (S route.uri)) :
    (handleRequest env table).Ensures c fun trace r c' => r = .ok () ∧ Handled table S c trace c' := by
  unfold handleRequest
  rw [Action.ensures_recover]
  apply (tryRequest_handled headers cookies spec).mono
  intro trace r c' left
  cases r with
  | ok done => exact ⟨rfl, left⟩
  | error e =>
      refine ⟨rfl, ?_⟩
      rw [List.append_nil]
      rcases left with rfl | ⟨uri, r₁, c₁, selected, spec⟩
      · exact .stock (setCookies_staticResponse _) rfl
      · exact .failed selected spec rfl

/-- What is known of no handler is known of every answer to a request with a new response. -/
theorem handleRequest_handled_of_fresh (env : Env) (table : List Route) (fresh : c.res.Fresh) :
    (handleRequest env table).Ensures c fun trace r c' =>
      r = .ok () ∧ Handled table (fun _ _ _ _ => True) c trace c' := by
  have headers : setCookies c.res = [] := by
    rw [setCookies, fresh.headers, List.filter_nil]
  exact handleRequest_handled headers fresh.cookies fun route _ => Action.ensures_of_forall fun _ _ _ =>
    trivial

/-- The run against the databases is one of the runs of `handle_request`, which returns. -/
theorem handleRequest_runs (mysql : Mysql) (world : World) (env : Env) (table : List Route)
    (fresh : c.res.Fresh) :
    (handleRequest env table).Runs c ((handleRequest env table).exec (serve mysql) c world).2.2 (.ok ())
      ((handleRequest env table).exec (serve mysql) c world).1.2 := by
  have ran := Program.runs_exec (handleRequest env table c) (serve mysql) world
  have ok := ((handleRequest_handled_of_fresh env table fresh).exec (serve mysql) world).1
  rw [Action.exec] at ok
  rw [← Prod.eta ((handleRequest env table c).exec (serve mysql) world).1, ok] at ran
  exact ran

end Waspp
