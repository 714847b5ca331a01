/-
Module: Waspp.Proofs.ReadFaults
Layer: Proofs
Purpose: When the completion handler of a read answers every request that the parser
  accepts.  `handle_request` catches every exception, but `parse_params` and `parse_content` run outside
  its try block, and a handler that prepares a statement destroys it twice.  The read answers exactly the
  requests on which the former return, which they do with an uri and a readable body, and which come to no
  database (`every_accepted_request_answered_iff`).
Imports: Waspp.Proofs.ContentFaults, Waspp.Proofs.FirstCalls, Waspp.Proofs.Segmentation
Trusted boundary: none (fully proved)
Main exports: Presentable, prepare_returns_iff, arrivals, faults, run_answers, Answerable,
  every_accepted_request_answered_iff
Open obligations: none
-/
import Waspp.Proofs.ContentFaults
import Waspp.Proofs.FirstCalls
import Waspp.Proofs.Segmentation

namespace Waspp

open CString Incremental Interaction

/-! ### Between the parser and the handler

`parse_params` erases the first element of a vector that is empty for an empty uri, and `parse_content`
throws on a part without the end of its header. -/

/-- What the calls between the parser and the handler need: an uri, and a body whose parts have headers. -/
def Presentable (request : Request) : Prop :=
  request.uri ≠ [] ∧ BodyReadable request

/-- Names that are read leave the body as readable as it was. -/
theorem bodyReadable_congr {one two : Request} (content : one.content = two.content)
    (headers : ∀ name, NameValue.valueOf one.headers name = NameValue.valueOf two.headers name) :
    BodyReadable one ↔ BodyReadable two := by
  unfold BodyReadable
  rw [content, headers]

/-- The Connection header is read and left as it is. -/
theorem parseConnectionHeader_valueOf (req : Request) (name : Bytes) :
    NameValue.valueOf req.parseConnectionHeader.headers name = NameValue.valueOf req.headers name := by
  unfold Request.parseConnectionHeader
  simp only [Request.header]
  split <;> simp

theorem parseConnectionHeader_fields (req : Request) :
    req.parseConnectionHeader.uri = req.uri ∧ req.parseConnectionHeader.content = req.content ∧
      req.parseConnectionHeader.restParams = req.restParams := by
  unfold Request.parseConnectionHeader
  simp only [Request.header]
  split <;> simp

/-- Parameters leave the content and the headers. -/
theorem parseParams_keeps {req req' : Request} (parsed : parseParams req = .ok req') :
    req'.content = req.content ∧ req'.headers = req.headers := by
  unfold parseParams at parsed
  split at parsed
  · cases parsed
  · cases parsed
    exact ⟨rfl, rfl⟩

/-- The three calls return on a request that shows what a presentable one shows. -/
theorem calls_return_iff {request₁ request : Request} (uri : request₁.uri = request.uri)
    (content₁ : request₁.content = request.content) (rest : request₁.restParams = [])
    (shown : ∀ name, NameValue.valueOf request₁.headers name = NameValue.valueOf request.headers name) :
    Returns (do
      let request ← parseParams request₁
      let request ← parseCookies request
      parseContent request) ↔ Presentable request := by
  have params := parseParams_ok_iff rest
  rw [uri] at params
  have bodies {request₂ : Request} (parsed : parseParams request₁ = .ok request₂) :
      Returns (do
        let request ← parseCookies request₂
        parseContent request) ↔ BodyReadable request := by
    rcases parseParams_keeps parsed with ⟨content₂, headers₂⟩
    rcases parseCookies_ok request₂ with ⟨request₃, cookies, content₃, headers₃⟩
    have last : Returns (parseContent request₃) ↔ BodyReadable request := by
      rw [parseContent_returns_iff]
      apply bodyReadable_congr
      · rw [content₃, content₂, content₁]
      · intro name
        rw [headers₃, NameValue.valueOf_ensure, headers₂, shown]
    rw [returns_bind_iff, cookies]
    constructor
    · intro returns
      rcases returns with ⟨a, same, returns⟩
      cases same
      exact last.mp returns
    · intro readable
      exact ⟨request₃, rfl, last.mpr readable⟩
  rw [returns_bind_iff]
  constructor
  · intro returns
    rcases returns with ⟨request₂, parsed, returns⟩
    exact ⟨params.mp ⟨request₂, parsed⟩, (bodies parsed).mp returns⟩
  · intro presentable
    rcases params.mpr presentable.1 with ⟨request₂, parsed⟩
    exact ⟨request₂, parsed, (bodies parsed).mpr presentable.2⟩

variable (endpoint : Endpoint)

/-- The calls between the parser and the handler return exactly on presentable requests. -/
theorem prepare_returns_iff {request : Request} (fresh : request.restParams = []) :
    Returns (prepare endpoint request) ↔ Presentable request := by
  rcases parseConnectionHeader_fields
    { request with remoteAddr := endpoint.address, remotePort := endpoint.port } with ⟨uri, content, rest⟩
  apply calls_return_iff uri content (rest.trans fresh)
  exact parseConnectionHeader_valueOf
    { request with remoteAddr := endpoint.address, remotePort := endpoint.port }

/-! ### Reads

What is written down of a run are its outputs.  A fault is one of them, and the connection that has one goes
on with nothing, so that a run without faults has handled what arrived. -/

section Reads

variable {σ : Type} (handleRequest : Handler σ)

/-- The connection whenever, along a run, the parser accepts a request: what `do_read` goes on with. -/
def arrivals (s : Serving σ) : List Bytes → List (Serving σ)
  | [] => []
  | data :: rest =>
      let later := arrivals (completeRead endpoint handleRequest s data).1 rest
      if s.phase = .reading ∧ (parse s.parsing data).verdict = .yes then
        s.withParsing (parse s.parsing data).state :: later
      else later

/-- The faults that leave the completion handler. -/
def faults : List Output → List Fault :=
  List.filterMap fun
    | .escaped _ fault => some fault
    | _ => none

/-- The faults of outputs in two parts. -/
theorem faults_append (one two : List Output) : faults (one ++ two) = faults one ++ faults two := by
  simp [faults]

/-- The requests handled in two parts. -/
theorem handled_append (one two : List Output) : handled (one ++ two) = handled one ++ handled two := by
  simp [handled]

/-- The bytes that a read leaves over are no fault and no request. -/
theorem faults_ignored (p : Prop) [Decidable p] (unread : Bytes) :
    faults (if p then [.ignored unread] else []) = [] := by
  split <;> rfl

/-- Bytes that are ignored are no request. -/
theorem handled_ignored (p : Prop) [Decidable p] (unread : Bytes) :
    handled (if p then [.ignored unread] else []) = [] := by
  split <;> rfl

/-- A connection that reads has a request without items of a path. -/
def Clear (s : Serving σ) : Prop := s.phase = .reading → s.conn.request.restParams = []

/-- A connection that is new has no rest parameters. -/
theorem Serving.Fresh.clear {s : Serving σ} (fresh : s.Fresh) : Clear s :=
  fun _ => fresh.request.restParams

theorem doWrite_clear (s : Serving σ) : Clear (doWrite s) := by
  unfold doWrite
  split
  · intro reading
    cases reading
  · intro _
    rfl

/-- An answer leaves none. -/
theorem answer_clear {s : Serving σ} (clear : Clear s) (verdict : Tribool) :
    Clear (answer endpoint handleRequest s verdict).1 := by
  cases verdict with
  | indeterminate => exact clear
  | no => exact doWrite_clear _
  | yes =>
      unfold answer
      cases prepare endpoint s.conn.request with
      | error fault =>
          intro reading
          cases reading
      | ok request =>
          rcases ran : handleRequest s.world request s.conn.response with ⟨result, world, request', response⟩
          cases result with
          | ok done =>
              simp only [ran]
              exact doWrite_clear _
          | error fault =>
              simp only [ran]
              intro reading
              cases reading

/-- What the parser leaves is clear when it started clear. -/
theorem parsed_clear {s : Serving σ} (clear : Clear s) (data : Bytes) :
    Clear (s.withParsing (parse s.parsing data).state) := by
  intro reading
  exact (parse_outside s.parsing data).restParams.trans (clear reading)

theorem completeRead_clear {s : Serving σ} (clear : Clear s) (data : Bytes) :
    Clear (completeRead endpoint handleRequest s data).1 := by
  by_cases reading : s.phase = .reading
  · unfold completeRead
    simp only [reading]
    exact answer_clear endpoint handleRequest (parsed_clear clear data) _
  · rwa [completeRead_of_stopped endpoint handleRequest reading]

/-- Every accepted request of a run is as clear as the connection was. -/
theorem arrivals_clear {s : Serving σ} (clear : Clear s) (reads : List Bytes) :
    ∀ t ∈ arrivals endpoint handleRequest s reads, t.conn.request.restParams = [] := by
  induction reads generalizing s with
  | nil => simp [arrivals]
  | cons data rest ih =>
      have later := ih (completeRead_clear endpoint handleRequest clear data)
      simp only [arrivals]
      split
      · rename_i arrives
        exact List.forall_mem_cons.mpr ⟨parsed_clear clear data arrives.1, later⟩
      · exact later

/-- The calls behind the parser return, and then so does the handler. -/
def Handles (t : Serving σ) : Prop :=
  ∃ request, prepare endpoint t.conn.request = .ok request ∧
    (handleRequest t.world request t.conn.response).1 = .ok ()

variable {handleRequest}

/-- An accepted request is handled or its fault escapes. -/
theorem answer_yes (t : Serving σ) :
    (Handles endpoint handleRequest t ∧ faults (answer endpoint handleRequest t .yes).2 = [] ∧
        (handled (answer endpoint handleRequest t .yes).2).length = 1) ∨
      (¬ Handles endpoint handleRequest t ∧ faults (answer endpoint handleRequest t .yes).2 ≠ []) := by
  cases prepared : prepare endpoint t.conn.request with
  | error fault => exact Or.inr (by simp [Handles, answer, prepared, faults])
  | ok request =>
      rcases ran : handleRequest t.world request t.conn.response with ⟨result, world, request', response⟩
      cases result with
      | ok done => exact Or.inl (by simp [Handles, answer, prepared, ran, faults, handled])
      | error fault => exact Or.inr (by simp [Handles, answer, prepared, ran, faults])

/-- One read: it is without a fault exactly if the request that it completes is handled. -/
theorem completeRead_answers (s : Serving σ) (data : Bytes) :
    (faults (completeRead endpoint handleRequest s data).2 = [] ↔
        ∀ t ∈ arrivals endpoint handleRequest s [data], Handles endpoint handleRequest t) ∧
      (faults (completeRead endpoint handleRequest s data).2 = [] →
        (handled (completeRead endpoint handleRequest s data).2).length =
          (arrivals endpoint handleRequest s [data]).length) := by
  by_cases reading : s.phase = .reading
  · unfold completeRead
    simp only [reading, faults_append, handled_append, faults_ignored, handled_ignored, List.append_nil]
    unfold doRead
    cases verdict : (parse s.parsing data).verdict with
    | indeterminate => simp [arrivals, verdict, answer, faults, handled]
    | no => simp [arrivals, verdict, answer, faults, handled]
    | yes =>
        have once : arrivals endpoint handleRequest s [data] =
            [s.withParsing (parse s.parsing data).state] := by
          simp [arrivals, verdict, reading]
        simp only [once, verdict, List.mem_singleton, forall_eq, List.length_singleton]
        rcases answer_yes endpoint (s.withParsing (parse s.parsing data).state) with
          ⟨handles, none, one⟩ | ⟨fails, some_⟩
        · exact ⟨iff_of_true none handles, fun _ => one⟩
        · exact ⟨iff_of_false some_ fails, fun none => absurd none some_⟩
  · simp [completeRead_of_stopped endpoint handleRequest reading, arrivals, reading, faults, handled]

/-- What arrives with several reads arrives with one after the other. -/
theorem arrivals_cons (s : Serving σ) (data : Bytes) (rest : List Bytes) :
    arrivals endpoint handleRequest s (data :: rest) =
      arrivals endpoint handleRequest s [data] ++
        arrivals endpoint handleRequest (completeRead endpoint handleRequest s data).1 rest := by
  simp only [arrivals]
  split <;> rfl

/-- Along a run, no fault leaves the completion handler exactly when every accepted request is handled. -/
theorem run_answers (s : Serving σ) (reads : List Bytes) :
    (faults ((connection endpoint handleRequest).outputs s reads) = [] ↔
        ∀ t ∈ arrivals endpoint handleRequest s reads, Handles endpoint handleRequest t) ∧
      (faults ((connection endpoint handleRequest).outputs s reads) = [] →
        (handled ((connection endpoint handleRequest).outputs s reads)).length =
          (arrivals endpoint handleRequest s reads).length) := by
  induction reads generalizing s with
  | nil => simp [arrivals, faults, handled]
  | cons data rest ih =>
      rcases completeRead_answers endpoint s data with ⟨now, answered⟩
      rcases ih (completeRead endpoint handleRequest s data).1 with ⟨later, answered'⟩
      have step : (connection endpoint handleRequest).step s data =
          completeRead endpoint handleRequest s data := rfl
      rw [Transducer.outputs_cons, faults_append, handled_append, List.append_eq_nil_iff, arrivals_cons,
        step, now, later, List.length_append, List.length_append]
      constructor
      · simp only [List.forall_mem_append]
      · intro none
        rw [answered (now.mpr none.1), answered' (later.mpr none.2)]

end Reads

/-! ### The server's handler

What a handler computes always comes to an end, an exception being caught; what it does with the objects of
its connection does not. -/

/-- The handler returns, whatever it is given. -/
def AlwaysReturns {σ : Type} (handleRequest : Handler σ) : Prop :=
  ∀ world request response, (handleRequest world request response).1 = .ok ()

/-- The handler of the server without its objects always returns. -/
theorem requestHandler_returns (mysql : Mysql) (table : Env → List Route) :
    AlwaysReturns (requestHandler mysql table) := by
  intro server request response
  have ran := (handleRequest_ensures (server.envs server.served) (table (server.envs server.served))
    ⟨request, response⟩).exec (serve mysql) server.world
  unfold requestHandler
  simp only [ran.1]
  rfl

/-- A request that is answered: it has an uri and a readable body, and it does not come to a database. -/
def Answerable (mysql : Mysql) (fails : Nat → Stage) (t : Serving Server) : Prop :=
  Presentable t.conn.request ∧
    ∀ request, prepare endpoint t.conn.request = .ok request →
      ¬ BreaksOff mysql (fails t.world.served) t.world.world (t.world.envs t.world.served) ⟨request,
        t.conn.response⟩

/-- A request is handled exactly when it is one that the server answers. -/
theorem handles_iff_answerable {mysql : Mysql} {fails : Nat → Stage} {t : Serving Server}
    (clear : t.conn.request.restParams = []) :
    Handles endpoint (scopedHandler mysql fails routes) t ↔ Answerable endpoint mysql fails t := by
  rw [Answerable, ← prepare_returns_iff endpoint clear]
  simp only [← scopedHandler_returns_iff]
  constructor
  · rintro ⟨request, prepared, returned⟩
    refine ⟨⟨request, prepared⟩, fun request' prepared' => ?_⟩
    cases prepared.symm.trans prepared'
    exact returned
  · rintro ⟨⟨request, prepared⟩, returns⟩
    exact ⟨request, prepared, returns request prepared⟩

/-- Every accepted request of a connection is handled and no fault leaves the completion handler, exactly
    when every accepted request has an uri and a readable body and comes to no database: to no pool that is
    missing, and to no statement that is prepared. -/
theorem every_accepted_request_answered_iff (mysql : Mysql) (fails : Nat → Stage) {s : Serving Server}
    (fresh : s.Fresh) (reads : List Bytes) :
    (faults ((connection endpoint (scopedHandler mysql fails routes)).outputs s reads) = [] ∧
        (handled ((connection endpoint (scopedHandler mysql fails routes)).outputs s reads)).length =
          (arrivals endpoint (scopedHandler mysql fails routes) s reads).length) ↔
      ∀ t ∈ arrivals endpoint (scopedHandler mysql fails routes) s reads, Answerable endpoint mysql fails
        t := by
  rcases run_answers endpoint s reads with ⟨iff, answered⟩
  have handles : (∀ t ∈ arrivals endpoint (scopedHandler mysql fails routes) s reads,
      Handles endpoint (scopedHandler mysql fails routes) t) ↔
      ∀ t ∈ arrivals endpoint (scopedHandler mysql fails routes) s reads,
        Answerable endpoint mysql fails t :=
    forall₂_congr fun t member =>
      handles_iff_answerable endpoint (arrivals_clear endpoint _ fresh.clear reads t member)
  rw [← handles, ← iff]
  exact ⟨fun done => done.1, fun none => ⟨none, answered none⟩⟩

/-! ### Two connections

A body that the decoder refuses, and a sign-in on which the server breaks off. -/

/-- A new connection to a server with the shipped tables. -/
def bareServing : Serving Server := ⟨⟨shippedWorld, fun _ => bareEnv, 0⟩, ⟨.methodStart, {}, {}⟩, .reading⟩

/-- The connection is new. -/
theorem bareServing_fresh : bareServing.Fresh :=
  ⟨rfl, Request.fresh_default, Response.fresh_default, rfl⟩

/-- A multipart form whose only part has no end of its header. -/
def headlessForm : Bytes :=
  bytes "POST /dir/user/auth/ HTTP/1.1\r\nContent-Type: multipart/form-data; boundary=B\r\n" ++
    bytes "Content-Length: 15\r\n\r\n--B\r\nx\r\n--B--\r\n"

/-- The statements that throw in a server whose databases prepare none of them. -/
def failsEarly : Nat → Stage := fun _ => .prepare

/-- The form is accepted, and the exception of its part leaves the completion handler: no response is
    written. -/
theorem headless_form_escapes :
    (arrivals localEndpoint (scopedHandler plainMysql failsEarly routes) bareServing
        [headlessForm]).length = 1 ∧
      faults ((connection localEndpoint (scopedHandler plainMysql failsEarly routes)).outputs bareServing
        [headlessForm]) = [.thrown (.runtimeError (bytes "invalid part header"))] ∧
      written ((connection localEndpoint (scopedHandler plainMysql failsEarly routes)).outputs bareServing
        [headlessForm]) = [] ∧
      ((connection localEndpoint (scopedHandler plainMysql failsEarly routes)).final bareServing
        [headlessForm]).phase = .terminated := by
  decide +kernel

/-- A sign-in with a username and a password. -/
def signInRequest : Bytes := bytes "GET /dir/user/auth/?username=a&passwd=b HTTP/1.1\r\n\r\n"

/-- It prepares a statement and destroys it twice: no response is promised. -/
theorem sign_in_breaks_off :
    (arrivals localEndpoint (scopedHandler plainMysql failsEarly routes) bareServing
      [signInRequest]).length = 1 ∧
      faults ((connection localEndpoint (scopedHandler plainMysql failsEarly routes)).outputs bareServing
        [signInRequest]) = [.undefinedBehaviour] := by
  decide +kernel

/-- A sign-in that lacks the password, and the root behind it. -/
def plainReads : List Bytes := [bytes "GET /dir/user/auth/?username=a HTTP/1.1\r\n\r\n", rootRequest]

/-- Both are answered, the one by the page of an error and the other by a stock response. -/
theorem every_accepted_request_answered_iff_plain :
    faults ((connection localEndpoint (scopedHandler plainMysql failsEarly routes)).outputs bareServing
      plainReads) = [] ∧
      (handled ((connection localEndpoint (scopedHandler plainMysql failsEarly routes)).outputs bareServing
          plainReads)).length =
        (arrivals localEndpoint (scopedHandler plainMysql failsEarly routes) bareServing
          plainReads).length := by
  have plain :
      (arrivals localEndpoint (scopedHandler plainMysql failsEarly routes) bareServing plainReads).all
      (fun t => decide (t.conn.request.uri ≠ [] ∧ t.conn.request.content = [] ∧
        ∀ request ∈ (prepare localEndpoint t.conn.request).toOption,
          (opening (t.world.envs t.world.served) ⟨request, t.conn.response⟩).isNone = true)) = true := by
    decide +kernel
  apply (every_accepted_request_answered_iff localEndpoint plainMysql failsEarly bareServing_fresh
    plainReads).mpr
  intro t member
  have fields := of_decide_eq_true (List.all_eq_true.mp plain t member)
  refine ⟨⟨fields.1, Or.inl fields.2.1⟩, ?_⟩
  rintro request prepared ⟨o, opens, -⟩
  have none_ := fields.2.2 request (by rw [prepared]; rfl)
  rw [Option.mem_def.mp opens] at none_
  cases none_

end Waspp
