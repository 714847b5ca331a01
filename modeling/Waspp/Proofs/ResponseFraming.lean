/-
Module: Waspp.Proofs.ResponseFraming
Layer: Proofs
Purpose: Every response on the wire is a sound message.  Handlers leave redirections and session cookies
  only, whose values have no line break, as the cookie's text is percent coded; what `handle_request` adds
  are literals, the type of an extension and, as the last header, the length of the content that is
  sent.  The stock responses are sound as they are.
Imports: Waspp.Proofs.Handlers, Waspp.Proofs.PercentCoding, Waspp.Model.ConnectionSsl,
  Waspp.Proofs.ReadFaults
Trusted boundary: none (fully proved)
Main exports: Response.message, Framed, Orderly, orderly_of_handling, handleRequest_framed, responses_framed
Open obligations: none
-/
import Waspp.Proofs.Handlers
import Waspp.Proofs.PercentCoding
import Waspp.Model.ConnectionSsl
import Waspp.Proofs.ReadFaults

namespace Waspp

open CString Framing Interaction Incremental

/-! ### Responses as messages

A response as a start line, fields and a body, and its wire text as the text of that message.  The names of
its headers are known, so what is to be shown is that no value has a line break and that the length is
that of the body. -/

/-- The status line of a response, without its line break. -/
def Response.startLine (res : Response) : Bytes :=
  let line := (res.status.getD .internalServerError).statusLine
  line.take (line.length - 2)

/-- The message that a response is. -/
def Response.message (res : Response) : Message :=
  ⟨res.startLine, res.headers.map fun header => (header.name, header.value), res.content⟩

/-- The response is a sound message. -/
abbrev Framed (res : Response) : Prop := res.message.Sound (bytes "Content-Length")

/-- A status line is a plain text and a line break. -/
theorem statusLine_eq (status : StatusType) :
    status.statusLine = status.statusLine.take (status.statusLine.length - 2) ++ lineBreak ∧
      PlainText (status.statusLine.take (status.statusLine.length - 2)) := by
  cases status <;> decide +kernel

/-- What is sent is the text of the message. -/
theorem toBuffers_eq (res : Response) : res.toBuffers = writeMessage res.message := by
  have first : res.toBuffers = (res.status.getD .internalServerError).statusLine ++
      (res.headers.map fun header => (header.name, header.value)).flatMap writeField ++ lineBreak ++
      res.content := by
    rw [List.flatMap_map]
    unfold Response.toBuffers
    cases res.status <;> rfl
  rw [first, (statusLine_eq _).1]
  rfl

/-- The names of the headers other than the length. -/
def headerNames : List Bytes :=
  [bytes "Content-Type", bytes "Keep-Alive", bytes "Set-Cookie", bytes "Refresh", bytes "Content-Encoding"]

/-- The headers have those names, and values without a line break. -/
def Laid (res : Response) : Prop :=
  ∀ header ∈ res.headers, header.name ∈ headerNames ∧ PlainText header.value

/-- The names of the headers are names, and none is that of the length. -/
theorem headerNames_fine : ∀ name ∈ headerNames,
    (PlainText name ∧ name ≠ [] ∧ ':'.toUInt8 ∉ name) ∧ name ≠ bytes "Content-Length" := by
  decide

/-- The length in front of, between or behind such headers. -/
theorem framed_of_split {res : Response} (before after : List NameValue)
    (split : res.headers = before ++ ⟨bytes "Content-Length", toDecimal res.content.length⟩ :: after)
    (laid : ∀ header ∈ before ++ after, header.name ∈ headerNames ∧ PlainText header.value) :
    Framed res := by
  have each : ∀ header ∈ res.headers,
      header = ⟨bytes "Content-Length", toDecimal res.content.length⟩ ∨ header ∈ before ++ after := by
    intro header member
    rw [split] at member
    simp only [List.mem_append, List.mem_cons] at member ⊢
    rcases member with one | rfl | two
    · exact Or.inr (Or.inl one)
    · exact Or.inl rfl
    · exact Or.inr (Or.inr two)
  have others : ∀ headers : List NameValue, (∀ header ∈ headers, header.name ∈ headerNames) →
      (headers.map fun header => (header.name, header.value)).filter
        (fun field => decide (field.1 = bytes "Content-Length")) = [] := by
    intro headers named
    apply List.filter_eq_nil_iff.mpr
    intro field member
    rcases List.mem_map.mp member with ⟨header, inside, rfl⟩
    simpa using (headerNames_fine _ (named header inside)).2
  constructor
  · exact (statusLine_eq _).2
  · intro field member
    rcases List.mem_map.mp member with ⟨header, inside, rfl⟩
    rcases each header inside with rfl | other
    · have fine : PlainText (bytes "Content-Length") ∧ bytes "Content-Length" ≠ [] ∧
          ':'.toUInt8 ∉ bytes "Content-Length" := by
        decide
      exact fine
    · exact (headerNames_fine _ (laid header other).1).1
  · intro field member
    rcases List.mem_map.mp member with ⟨header, inside, rfl⟩
    rcases each header inside with rfl | other
    · exact plainText_toDecimal _
    · exact (laid header other).2
  · have front := others before fun header member => (laid header (List.mem_append_left _ member)).1
    have back := others after fun header member => (laid header (List.mem_append_right _ member)).1
    simp only [Response.message, split, List.map_append, List.map_cons, List.filter_append, front,
      List.nil_append]
    rw [List.filter_cons_of_pos (by simp), back]

/-- A stock response is a sound message. -/
theorem framed_staticResponse (status : StatusType) : Framed (.staticResponse status) := by
  apply framed_of_split []
    [⟨bytes "Content-Type", bytes "text/html"⟩, ⟨bytes "Keep-Alive", bytes "timeout=0, max=0"⟩] rfl
  decide

/-! ### What handlers leave

Redirections and cookies of the session: these are all the headers that a handler sets, and their values
are plain. -/

/-- The headers are redirections and the cookies session cookies, without line breaks in their values. -/
structure Orderly (env : Env) (res : Response) : Prop where
  headers : ∀ header ∈ res.headers, header.name = bytes "Refresh" ∧ PlainText header.value
  cookies : ∀ cookie ∈ res.cookies, cookie.name = env.cfg.sessCookie ∧ PlainText cookie.value

/-- A response that is new is orderly. -/
theorem Response.Fresh.orderly {env : Env} {res : Response} (fresh : res.Fresh) : Orderly env res := by
  constructor
  · simp [fresh.headers]
  · simp [fresh.cookies]

/-- A digest is plain. -/
theorem plainText_md5Digest (env : Env) (text : Bytes) : PlainText (md5Digest env text) := by
  apply plainText_of_forall (p := fun b => isxdigit b = true)
    (fun b member => isxdigit_of_mem_md5Digest member)
  · decide
  · decide

namespace Orderly

variable {env : Env}

/-- A cookie of the session is orderly. -/
theorem setCookie {res : Response} (orderly : Orderly env res) {value : Bytes} (plain : PlainText value) :
    Orderly env (res.setCookie env.cfg.sessCookie value) := by
  refine ⟨orderly.headers, ?_⟩
  intro cookie member
  rcases NameValue.mem_assign member with old | rfl
  · exact orderly.cookies cookie old
  · exact ⟨rfl, plain⟩

theorem deleteCookie {res : Response} (orderly : Orderly env res) :
    Orderly env (res.deleteCookie env.cfg.sessCookie) :=
  orderly.setCookie plainText_nil

theorem redirectTo {res : Response} (orderly : Orderly env res) {url : Bytes} (plain : PlainText url) :
    Orderly env (res.redirectTo url) := by
  refine ⟨?_, orderly.cookies⟩
  intro header member
  rcases List.mem_append.mp member with old | new
  · exact orderly.headers header old
  · rw [List.mem_singleton.mp new]
    exact ⟨rfl, PlainText.append (by decide) plain⟩

/-- The response keeps its headers and cookies. -/
theorem of_same {res res' : Response} (orderly : Orderly env res) (headers : res'.headers = res.headers)
    (cookies : res'.cookies = res.cookies) : Orderly env res' := by
  constructor
  · rw [headers]
    exact orderly.headers
  · rw [cookies]
    exact orderly.cookies

variable {c : Ctx}

/-- A session that is serialized leaves the response orderly. -/
theorem serializeAndSet (orderly : Orderly env c.res) (s : Session) :
    Orderly env (s.serializeAndSet env c).res :=
  orderly.setCookie ((plainText_percentEncode _).append (plainText_md5Digest _ _))

theorem accepts (orderly : Orderly env c.res) (entries : List NameValue) :
    Orderly env (Session.accepts env entries c).2.res := by
  unfold Session.accepts
  split
  · exact orderly
  · split
    · exact orderly
    · split
      · exact orderly
      · split
        · exact orderly
        · exact orderly

theorem load (orderly : Orderly env c.res) : Orderly env (Session.load env c).2.res := by
  unfold Session.load
  dsimp only
  split
  · exact orderly
  · split
    · exact orderly
    · exact orderly.deleteCookie
    · rename_i entries _
      have looked := Orderly.accepts (c := c.readCookie env.cfg.sessCookie) orderly entries
      split
      · exact looked
      · exact looked.deleteCookie

theorem put (orderly : Orderly env c.res) (s : Session) (name value : Bytes) :
    Orderly env (s.put env name value c).2.res := orderly.serializeAndSet _

theorem update (orderly : Orderly env c.res) (s : Session) : Orderly env (s.update env c).2.res := by
  unfold Session.update
  split
  · exact orderly
  · exact ((orderly.put _ _ _).put _ _ _).serializeAndSet _

theorem construct (orderly : Orderly env c.res) : Orderly env (Session.construct env c).2.res := by
  have loaded := orderly.load
  unfold Session.construct
  generalize Session.load env c = outcome at loaded ⊢
  rcases outcome with ⟨result, d⟩
  rcases result with e | _ | s
  · exact loaded
  · exact Orderly.serializeAndSet (c := Session.readUa d) loaded _
  · exact Orderly.update (c := d) loaded s

end Orderly

/-- What a handler leaves is orderly when it found the response so. -/
theorem orderly_of_handling {env : Env} {α : Type} {m : Act α} (handling : Handling env m) {c : Ctx}
    (orderly : Orderly env c.res) : m.Ensures c fun _ _ c' => Orderly env c'.res := by
  induction handling generalizing c with
  | pure a => exact orderly
  | raise e => exact orderly
  | bind _ _ first next =>
      apply Action.ensures_bind.mpr
      apply (first orderly).mono
      intro trace r c' kept
      cases r with
      | ok a => exact next a kept
      | error e => exact kept
  | param name => exact orderly
  | restParams _ _ next => exact Action.ensures_bind.mpr (next c orderly)
  | session => exact orderly.construct
  | put s name value => exact orderly.put s name value
  | signOut => exact orderly.deleteCookie
  | redirectTo plain => exact orderly.redirectTo plain
  | fill only => exact orderly.of_same (only c.res).2.1 (only c.res).2.2
  | setJsonp => exact orderly.of_same rfl rfl
  | getFile path =>
      have kept : (readFile env path c.res).2.headers = c.res.headers ∧
          (readFile env path c.res).2.cookies = c.res.cookies := by
        unfold readFile
        dsimp only
        split <;> exact ⟨rfl, rfl⟩
      exact orderly.of_same kept.1 kept.2
  | db q =>
      apply Action.ensures_bind.mpr
      intro reply
      cases reply with
      | error e => exact orderly
      | ok answer => exact orderly

/-! ### What `handle_request` adds

The headers of the content, among them the length, after everything that changes the content. -/

/-- The type of a file is plain. -/
theorem plainText_extensionToType (extension : Bytes) : PlainText (extensionToType extension) := by
  have all : ∀ m ∈ mappings, PlainText m.2 := by decide
  unfold extensionToType
  split
  · decide
  · split
    · rename_i m found
      exact all m (List.mem_of_find?_eq_some found)
    · decide

/-- The headers that are filled in are plain. -/
theorem Orderly.laid {env : Env} (named : PlainText env.cfg.sessCookie) {res : Response}
    (orderly : Orderly env res) :
    Laid (fillHeaders res) := by
  intro header member
  simp only [fillHeaders, Response.pushHeader, List.append_assoc, List.mem_append, List.mem_singleton,
    List.mem_map]
    at member
  rcases member with old | rfl | rfl | ⟨cookie, inside, rfl⟩
  · have fine := orderly.headers header old
    exact ⟨by rw [fine.1]; decide, fine.2⟩
  · have named' : bytes "Content-Type" ∈ headerNames := by decide
    exact ⟨named', plainText_extensionToType _⟩
  · exact ⟨by decide, by decide⟩
  · have fine := orderly.cookies cookie inside
    have named' : bytes "Set-Cookie" ∈ headerNames := by decide
    refine ⟨named', ?_⟩
    have name : PlainText cookie.name := fine.1 ▸ named
    exact ((name.append (by decide)).append fine.2).append (by decide)

/-- Compression adds one more. -/
theorem compressContent_laid {env : Env} {c : Ctx} (laid : Laid c.res) :
    (compressContent env).Ensures c fun _ _ c' => Laid c'.res := by
  unfold compressContent
  split
  · apply Act.ensures_header_bind.mpr
    apply Action.ensures_get_bind.mpr
    split
    · apply Action.ensures_modify_bind.mpr
      have pushed : Laid (c.res.pushHeader (bytes "Content-Encoding") (bytes "gzip")) := by
        intro header member
        rcases List.mem_append.mp member with old | new
        · exact laid header old
        · rw [List.mem_singleton.mp new]
          exact ⟨by decide, by decide⟩
      split
      · exact pushed
      · exact pushed
    · exact laid
  · exact laid

/-- A response that was filled in is a sound message. -/
theorem fillResponse_framed {env : Env} (named : PlainText env.cfg.sessCookie) {c : Ctx}
    (orderly : Orderly env c.res) :
    (fillResponse env).Ensures c fun _ r c' => r = .ok () → Framed c'.res := by
  apply Action.ensures_modify_bind.mpr
  apply Action.ensures_bind.mpr
  have laid : Laid (c.respond fillHeaders).res := orderly.laid named
  apply (compressContent_laid laid).mono
  intro trace r c' laid
  cases r with
  | ok done =>
      intro _
      apply framed_of_split c'.res.headers [] rfl
      rwa [List.append_nil]
  | error e =>
      intro same
      cases same

section Handler

variable {env : Env} {table : List Route} (made : ∀ route ∈ table, Handling env route.func)

include made

theorem tryRequest_framed (named : PlainText env.cfg.sessCookie) {c : Ctx} (orderly : Orderly env c.res) :
    (tryRequest env table).Ensures c fun _ r c' => r = .ok () → Framed c'.res := by
  apply Action.ensures_get_bind.mpr
  split
  · exact fun _ => framed_staticResponse _
  · split
    · exact fun _ => framed_staticResponse _
    · split
      · exact fun _ => framed_staticResponse _
      · split
        · apply Action.ensures_bind.mpr
          apply (orderly_of_handling (.getFile _) orderly).mono
          intro trace r c' kept
          rcases r with e | found
          · intro same
            cases same
          · cases found with
            | false => exact fun _ => framed_staticResponse _
            | true => exact fillResponse_framed named kept
        · rename_i func chosen
          rcases Option.map_eq_some_iff.mp chosen with ⟨route, found, rfl⟩
          apply Action.ensures_bind.mpr
          apply (orderly_of_handling (made route (List.mem_of_find?_eq_some found)) orderly).mono
          intro trace r c' kept
          cases r with
          | ok done => exact fillResponse_framed named kept
          | error e =>
              intro same
              cases same

/-- However a request ends, its response is a sound message. -/
theorem handleRequest_framed (named : PlainText env.cfg.sessCookie) {c : Ctx} (orderly : Orderly env c.res) :
    (handleRequest env table).Ensures c fun _ _ c' => Framed c'.res := by
  apply Action.ensures_recover.mpr
  apply (tryRequest_framed made named orderly).mono
  intro trace r c' framed
  cases r with
  | ok done => exact framed rfl
  | error e => exact framed_staticResponse _

end Handler

/-! ### Connections

Both machines write what they were given by the handler or a stock response, whatever they read. -/

/-- A response that is written is a sound message. -/
def Output.Framed : Output → Prop
  | .handled _ response => Waspp.Framed response
  | .rejected response => Waspp.Framed response
  | .escaped _ _ => True
  | .ignored _ => True

/-- What is written is among the outputs. -/
theorem framed_of_written {outputs : List Output} (all : ∀ o ∈ outputs, o.Framed) {response : Response}
    (member : response ∈ written outputs) : Framed response := by
  rcases List.mem_filterMap.mp member with ⟨o, inside, same⟩
  have framed := all o inside
  cases o with
  | handled request response' =>
      cases same
      exact framed
  | rejected response' =>
      cases same
      exact framed
  | escaped request fault => cases same
  | ignored data => cases same

section Machines

variable {σ : Type} {endpoint : Endpoint} {handleRequest : Handler σ} {I : σ → Prop}

/-- From a fresh response, the handler makes a sound message, and it keeps what is known of what it shares.
    -/
def Frames (I : σ → Prop) (handleRequest : Handler σ) : Prop :=
  ∀ world req res, I world → res.Fresh →
    I (handleRequest world req res).2.1 ∧ Framed (handleRequest world req res).2.2.2

/-- A connection that reads has a fresh response. -/
structure Ready (I : σ → Prop) (s : Serving σ) : Prop where
  world : I s.world
  response : s.phase = .reading → s.conn.response.Fresh

/-- A write leaves the connection ready for the next request. -/
theorem doWrite_ready {s : Serving σ} (world : I s.world) : Ready I (doWrite s) := by
  unfold doWrite
  split
  · exact ⟨world, fun reading => by cases reading⟩
  · exact ⟨world, fun _ => Response.fresh_default⟩

theorem doWriteSsl_ready {s : Serving σ} (world : I s.world) : Ready I (ConnectionSsl.doWrite s) :=
  ⟨world, fun _ => Response.fresh_default⟩

/-- What both connections do on the parser's verdict: they differ in the write at the end. -/
def answerWith (write : Serving σ → Serving σ) (handleRequest : Handler σ) (prepared : Except Fault Request)
    (s : Serving σ) (verdict : Tribool) : Serving σ × List Output :=
  match verdict with
  | .yes =>
      match prepared with
      | .error fault => ({ s with phase := .terminated }, [.escaped s.conn.request fault])
      | .ok request =>
          match handleRequest s.world request s.conn.response with
          | (.ok (), world, request', response) =>
              (write
                { s with world := world, conn := { s.conn with request := request', response := response } },
                [.handled request response])
          | (.error fault, world, _, _) =>
              ({ s with world := world, phase := .terminated }, [.escaped s.conn.request fault])
  | .no =>
      let response := Response.staticResponse .badRequest
      (write { s with conn := { s.conn with response := response } }, [.rejected response])
  | .indeterminate => (s, [])

/-- The plain machine answers with its own calls and writes. -/
theorem answer_eq (endpoint : Endpoint) (s : Serving σ) (verdict : Tribool) :
    answer endpoint handleRequest s verdict =
      answerWith doWrite handleRequest (prepare endpoint s.conn.request) s verdict := rfl

theorem answerSsl_eq (endpoint : Endpoint) (s : Serving σ) (verdict : Tribool) :
    ConnectionSsl.answer endpoint handleRequest s verdict =
      answerWith ConnectionSsl.doWrite handleRequest (ConnectionSsl.prepare endpoint s.conn.request) s
        verdict := rfl

/-- An answer is framed, whichever the machine. -/
theorem answerWith_framed {write : Serving σ → Serving σ}
    (writes : ∀ {s : Serving σ}, I s.world → Ready I (write s)) (frames : Frames I handleRequest)
    (prepared : Except Fault Request) {s : Serving σ} (ready : Ready I s) (reading : s.phase = .reading)
    (verdict : Tribool) :
    Ready I (answerWith write handleRequest prepared s verdict).1 ∧
      ∀ o ∈ (answerWith write handleRequest prepared s verdict).2, o.Framed := by
  cases verdict with
  | indeterminate => exact ⟨ready, by simp [answerWith]⟩
  | no =>
      exact ⟨writes ready.world,
        by simpa [answerWith, Output.Framed] using framed_staticResponse .badRequest⟩
  | yes =>
      simp only [answerWith]
      cases prepared with
      | error fault => exact ⟨⟨ready.world, fun reading => by cases reading⟩, by simp [Output.Framed]⟩
      | ok request =>
          have handles := frames s.world request s.conn.response ready.world (ready.response reading)
          rcases ran : handleRequest s.world request s.conn.response with ⟨result, world, request', response⟩
          rw [ran] at handles
          cases result with
          | ok done =>
              simp only [ran]
              exact ⟨writes handles.1, by simpa [Output.Framed] using handles.2⟩
          | error fault =>
              simp only [ran]
              exact ⟨⟨handles.1, fun reading => by cases reading⟩, by simp [Output.Framed]⟩

/-- The bytes that a read leaves over are no response. -/
theorem framed_ignored {p : Prop} [Decidable p] {outputs : List Output} {unread : Bytes}
    (all : ∀ o ∈ outputs, o.Framed) : ∀ o ∈ outputs ++ (if p then [.ignored unread] else []), o.Framed := by
  intro o member
  rcases List.mem_append.mp member with here | left
  · exact all o here
  · split at left
    · rw [List.mem_singleton.mp left]
      trivial
    · cases left

/-- What a read puts out is framed. -/
theorem completeRead_framed (frames : Frames I handleRequest) {s : Serving σ} (ready : Ready I s)
    (data : Bytes) :
    Ready I ((connection endpoint handleRequest).step s data).1 ∧
      ∀ o ∈ ((connection endpoint handleRequest).step s data).2, o.Framed := by
  simp only [connection, completeRead]
  cases reading : s.phase with
  | reading =>
      have parsed : Ready I (s.withParsing (parse s.parsing data).state) := ⟨ready.world, ready.response⟩
      have answered := answerWith_framed doWrite_ready frames
          (prepare endpoint (s.withParsing (parse s.parsing data).state).conn.request)
        parsed reading (parse s.parsing data).verdict
      rw [← answer_eq] at answered
      exact ⟨answered.1, framed_ignored answered.2⟩
  | closed => exact ⟨ready, by simp⟩
  | terminated => exact ⟨ready, by simp⟩

theorem completeReadSsl_framed (frames : Frames I handleRequest) {s : Serving σ} (ready : Ready I s)
    (data : Bytes) :
    Ready I ((connectionSsl endpoint handleRequest).step s data).1 ∧
      ∀ o ∈ ((connectionSsl endpoint handleRequest).step s data).2, o.Framed := by
  simp only [connectionSsl, ConnectionSsl.completeRead]
  cases reading : s.phase with
  | reading =>
      have parsed : Ready I (s.withParsing (parse s.parsing data).state) := ⟨ready.world, ready.response⟩
      have answered := answerWith_framed doWriteSsl_ready frames
        (ConnectionSsl.prepare endpoint (s.withParsing (parse s.parsing data).state).conn.request) parsed
          reading
        (parse s.parsing data).verdict
      rw [← answerSsl_eq] at answered
      exact ⟨answered.1, framed_ignored answered.2⟩
  | closed => exact ⟨ready, by simp⟩
  | terminated => exact ⟨ready, by simp⟩

end Machines

/-- The session cookie of every configuration has a name without a line break. -/
def Named (server : Server) : Prop := ∀ i, PlainText (server.envs i).cfg.sessCookie

/-- The handler of the server frames its responses. -/
theorem requestHandler_frames (mysql : Mysql) {table : Env → List Route}
    (made : ∀ env, ∀ route ∈ table env, Handling env route.func) :
    Frames Named (requestHandler mysql table) := by
  intro server req res named fresh
  refine ⟨named, ?_⟩
  exact (handleRequest_framed (c := ⟨req, res⟩) (made _) (named server.served) fresh.orderly).exec
    (serve mysql)
    server.world

/-- Over handlers made of the actions that handlers take, every response that a plain or a TLS connection
    writes is a sound message on the wire, and reading the wire gives its headers and content back, whatever
    follows. -/
theorem responses_framed (mysql : Mysql) {table : Env → List Route}
    (made : ∀ env, ∀ route ∈ table env, Handling env route.func) (endpoint : Endpoint) {s : Serving Server}
    (fresh : s.Fresh) (named : Named s.world) (reads : List Bytes) {response : Response}
    (member : response ∈ written ((connection endpoint (requestHandler mysql table)).outputs s reads) ∨
      response ∈ written ((connectionSsl endpoint (requestHandler mysql table)).outputs s reads)) :
    response.toBuffers = writeMessage response.message ∧ Framed response ∧
      ∀ rest, readMessage (bytes "Content-Length")
      (response.toBuffers ++ rest) = some (response.message, rest) := by
  have frames := requestHandler_frames mysql made
  have ready : Ready Named s := ⟨named, fun _ => fresh.response⟩
  have framed : Framed response := by
    rcases member with plain | ssl
    · apply framed_of_written _ plain
      exact Transducer.outputs_invariant _ (fun s data ready => (completeRead_framed frames ready data).1)
        (fun s data ready => (completeRead_framed frames ready data).2) ready reads
    · apply framed_of_written _ ssl
      exact Transducer.outputs_invariant _ (fun s data ready => (completeReadSsl_framed frames ready data).1)
        (fun s data ready => (completeReadSsl_framed frames ready data).2) ready reads
  refine ⟨toBuffers_eq response, framed, ?_⟩
  intro rest
  rw [toBuffers_eq]
  exact readMessage_writeMessage framed rest

/-! ### A sign-out -/

/-- A server whose compressor puts two bytes in front. -/
private def packingServing : Serving Server :=
  { bareServing with world :=
    ⟨shippedWorld, fun _ => { bareEnv with gzip := fun text => .ok ([31, 139] ++ text) }, 0⟩ }

/-- A sign-out by a browser that takes compressed content. -/
private def signOutRequest : Bytes :=
  bytes "GET /dir/user/signout/ HTTP/1.1\r\nAccept-Encoding: gzip, deflate\r\nCookie: waspp_sess=x\r\n\r\n"

/-- What is written for it. -/
private def signedOut : List Response :=
  written ((connection localEndpoint (requestHandler plainMysql routes)).outputs packingServing
    [signOutRequest])

/-- The answer redirects, deletes the cookie and has compressed content, and is read back as it was written.
    -/
theorem responses_framed_signed_out :
    signedOut.map (fun response => response.headers.map fun header => header.name) =
        [[bytes "Refresh", bytes "Content-Type", bytes "Keep-Alive", bytes "Set-Cookie",
          bytes "Content-Encoding", bytes "Content-Length"]] ∧
      signedOut.map (fun response => response.content) = [[31, 139, 32]] ∧
      ∀ response ∈ signedOut, response.toBuffers = writeMessage response.message ∧ Framed response ∧
        ∀ rest, readMessage (bytes "Content-Length") (response.toBuffers ++ rest) =
          some (response.message, rest) := by
  have named : Named packingServing.world := by
    intro i
    have plain : PlainText bareEnv.cfg.sessCookie := by decide +kernel
    exact plain
  refine ⟨by decide +kernel, by decide +kernel, fun response member => ?_⟩
  exact responses_framed plainMysql handling_routes localEndpoint
    ⟨rfl, Request.fresh_default, Response.fresh_default, rfl⟩ named [signOutRequest] (Or.inl member)

end Waspp
