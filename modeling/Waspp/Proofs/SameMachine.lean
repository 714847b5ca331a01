/-
Module: Waspp.Proofs.SameMachine
Layer: Proofs
Purpose: The plain and the TLS connection in lock step.  The requests that they pass to the handler differ
  in the connection option and in an empty Connection header; no handler sees either, so the responses are
  the same.  The two machines part where the plain one closes: at the first accepted request that asks for
  it, or at a rejected first message when the uninitialised option happens to say so.
Imports: Waspp.Model.ConnectionSsl, Waspp.Foundation.TwoRuns, Waspp.Proofs.Handlers,
  Waspp.Proofs.ReadFaults
Trusted boundary: none (fully proved)
Main exports: Request.Alike, Reheaded, View, respects_of_handling, SameMachine, KeepsOpen, same_machine_iff
Open obligations: none
-/
import Waspp.Model.ConnectionSsl
import Waspp.Foundation.TwoRuns
import Waspp.Proofs.Handlers
import Waspp.Proofs.ReadFaults

namespace Waspp

open CString Interaction Incremental

/-! ### Requests with other headers

`connection_ssl` leaves out `parse_connection_header`, so its requests lack an option and an entry that is
empty.  `Reheaded` relates the two. -/

/-- The request with another connection option and other headers. -/
def Request.rehead (req : Request) (option : UInt8) (headers : List NameValue) : Request :=
  { req with connectionOption := option, headers := headers }

/-- Two requests that no accessor tells apart: they have the same members up to the connection option, and
    each header shows the same value. -/
def Request.Alike (req req' : Request) : Prop :=
  req.rehead 0 [] = req'.rehead 0 [] ∧
    ∀ name, NameValue.valueOf req.headers name = NameValue.valueOf req'.headers name

/-- The other request is the request with that connection option and headers that show the same values. -/
def Reheaded (option : UInt8) (req req' : Request) : Prop :=
  ∃ headers, req' = req.rehead option headers ∧
    ∀ name, NameValue.valueOf headers name = NameValue.valueOf req.headers name

/-- Such requests are alike in everything else. -/
theorem Reheaded.alike {option : UInt8} {req req' : Request} (reheaded : Reheaded option req req') :
    req'.Alike req := by
  rcases reheaded with ⟨headers, rfl, values⟩
  exact ⟨rfl, values⟩

/-- Every header has one value in both. -/
theorem Reheaded.header {option : UInt8} {req req' : Request} (reheaded : Reheaded option req req')
    (name : Bytes) :
    (req.header name).1 = (req'.header name).1 ∧
    Reheaded option (req.header name).2 (req'.header name).2 := by
  rcases reheaded with ⟨headers, rfl, values⟩
  refine ⟨(values name).symm, NameValue.ensure headers name, rfl, ?_⟩
  intro other
  exact (NameValue.valueOf_ensure _ _ _).trans ((values other).trans (NameValue.valueOf_ensure _ _ _).symm)

/-- What the headers ask for: the first byte of a nonempty Connection header, else `'c'` in HTTP/1.0 and
    `'K'` in the other versions. -/
def askedOption (req : Request) : UInt8 :=
  match NameValue.valueOf req.headers (bytes "Connection") with
  | first :: _ => first
  | [] => if req.httpVersionMajor = 1 ∧ req.httpVersionMinor = 0 then 'c'.toUInt8 else 'K'.toUInt8

/-- `parse_connection_header` sets the option and makes an entry. -/
theorem parseConnectionHeader_eq (req : Request) :
    req.parseConnectionHeader =
      req.rehead (askedOption req) (NameValue.ensure req.headers (bytes "Connection")) := by
  unfold Request.parseConnectionHeader askedOption
  simp only [Request.header, Request.rehead]
  cases NameValue.valueOf req.headers (bytes "Connection") <;> rfl

theorem parseConnectionHeader_reheaded (req : Request) :
    Reheaded (askedOption req) req req.parseConnectionHeader := by
  refine ⟨NameValue.ensure req.headers (bytes "Connection"), parseConnectionHeader_eq req, ?_⟩
  intro name
  exact NameValue.valueOf_ensure _ _ _

/-! ### The calls in front of the handler

Each of them commutes with other headers, as none looks at the option, and a header that is looked up has
one value. -/

section Loops

/-- A call that commutes may come before one that does. -/
theorem bind_eq_map {ε β γ δ : Type} {m : Except ε β} {f : β → Except ε δ} {g : β → Except ε γ} {h : γ → δ}
    (same : ∀ b, f b = (g b).map h) : m >>= f = (m >>= g).map h := by
  cases m with
  | error e => rfl
  | ok b => exact same b

theorem map_bind_eq_map {ε β γ δ : Type} {m : Except ε β} {k : β → β} {f : β → Except ε δ}
    {g : β → Except ε γ}
    {h : γ → δ} (same : ∀ b, f (k b) = (g b).map h) : m.map k >>= f = (m >>= g).map h := by
  cases m with
  | error e => rfl
  | ok b => exact same b

variable (option : UInt8) (headers : List NameValue)

/-- `parse_params` does not look at headers. -/
theorem parseParams_rehead (req : Request) :
    parseParams (req.rehead option headers) = (parseParams req).map (·.rehead option headers) := by
  unfold parseParams
  simp only [Request.rehead]
  split <;> rfl

theorem parseCookie_rehead (req : Request) (data : Bytes) :
    parseCookie (req.rehead option headers) data = (parseCookie req data).map (·.rehead option headers) := by
  unfold parseCookie
  split
  · rfl
  · apply bind_eq_map
    intro name
    apply bind_eq_map
    intro value
    rfl

theorem parseCookiesFrom_rehead (data : Bytes) (rounds oldPos : Nat) (req : Request) :
    parseCookiesFrom data rounds oldPos (req.rehead option headers) =
      (parseCookiesFrom data rounds oldPos req).map (·.rehead option headers) := by
  induction rounds generalizing oldPos req with
  | zero => rfl
  | succ rounds ih =>
      rw [parseCookiesFrom, parseCookiesFrom]
      split
      · apply bind_eq_map
        intro piece
        exact parseCookie_rehead option headers req piece
      · apply bind_eq_map
        intro piece
        rw [parseCookie_rehead]
        apply map_bind_eq_map
        intro req'
        exact ih _ req'

theorem parseFormFrom_rehead (rounds oldPos : Nat) (req : Request) :
    parseFormFrom rounds oldPos (req.rehead option headers) =
      (parseFormFrom rounds oldPos req).map (·.rehead option headers) := by
  induction rounds generalizing oldPos req with
  | zero => rfl
  | succ rounds ih =>
      have content : (req.rehead option headers).content = req.content := rfl
      rw [parseFormFrom, parseFormFrom, content]
      split
      · rfl
      · split
        · rfl
        · split
          · dsimp only
            split
            · exact ih _ req
            · apply bind_eq_map
              intro name
              exact ih _ (pushParam req _ _)
          · apply bind_eq_map
            intro name
            dsimp only
            split
            · apply bind_eq_map
              intro value
              rfl
            · apply bind_eq_map
              intro value
              exact ih _ (pushParam req _ _)

theorem parseMultipartContent_rehead (req : Request) (data : Bytes) :
    parseMultipartContent (req.rehead option headers) data =
      (parseMultipartContent req data).map (·.rehead option headers) := by
  unfold parseMultipartContent
  split
  · rfl
  · apply bind_eq_map
    intro value
    apply bind_eq_map
    intro headText
    dsimp only
    split <;> rfl

theorem parsePartsFrom_rehead (sep1 sep2 : Bytes) (rounds oldPos : Nat) (req : Request) :
    parsePartsFrom sep1 sep2 rounds oldPos (req.rehead option headers) =
      (parsePartsFrom sep1 sep2 rounds oldPos req).map (·.rehead option headers) := by
  induction rounds generalizing oldPos req with
  | zero => rfl
  | succ rounds ih =>
      have content : (req.rehead option headers).content = req.content := rfl
      rw [parsePartsFrom, parsePartsFrom, content]
      split
      · apply bind_eq_map
        intro part
        rw [parseMultipartContent_rehead]
        apply map_bind_eq_map
        intro req'
        exact ih _ req'
      · split
        · apply bind_eq_map
          intro part
          exact parseMultipartContent_rehead option headers req part
        · rfl

theorem parseMultipart_rehead (contentType : Bytes) (req : Request) :
    parseMultipart contentType (req.rehead option headers) =
      (parseMultipart contentType req).map (·.rehead option headers) := by
  unfold parseMultipart
  apply bind_eq_map
  intro b
  exact parsePartsFrom_rehead option headers _ _ _ _ req

end Loops

/-- Two calls fail in the same way, or return requests that are the same but for their headers. -/
inductive SameResult (option : UInt8) : Except Fault Request → Except Fault Request → Prop where
  | error (fault : Fault) : SameResult option (.error fault) (.error fault)
  | ok {req req' : Request} (reheaded : Reheaded option req req') : SameResult option (.ok req) (.ok req')

/-- A call that hands on the option and the headers as they are. -/
theorem SameResult.of_rehead {option : UInt8} {req req' : Request} {f : Request → Except Fault Request}
    (same : ∀ option headers, f (req.rehead option headers) = (f req).map (·.rehead option headers))
    (reheaded : Reheaded option req req') : SameResult option (f req) (f req') := by
  rcases reheaded with ⟨headers, rfl, values⟩
  rw [same]
  cases result : f req with
  | error fault => exact .error fault
  | ok last =>
      -- with its own option and headers the call shows that it hands them on
      have own : f req = (f req).map (·.rehead req.connectionOption req.headers) := same _ _
      rw [result] at own
      have again : last = last.rehead req.connectionOption req.headers := Except.ok.inj own
      have kept : last.headers = (last.rehead req.connectionOption req.headers).headers :=
        congrArg Request.headers again
      refine .ok ⟨headers, rfl, ?_⟩
      rw [kept]
      exact values

/-- Calls with the same result are put together. -/
theorem SameResult.bind {option : UInt8} {call call' : Except Fault Request}
    {f f' : Request → Except Fault Request} (first : SameResult option call call')
    (next : ∀ req req', Reheaded option req req' → SameResult option (f req) (f' req')) :
    SameResult option (call >>= f) (call' >>= f') := by
  cases first with
  | error fault => exact .error fault
  | ok reheaded => exact next _ _ reheaded

/-- `parse_cookies` finds one Cookie header. -/
theorem parseCookies_same {option : UInt8} {req req' : Request} (reheaded : Reheaded option req req') :
    SameResult option (parseCookies req) (parseCookies req') := by
  have read := reheaded.header (bytes "Cookie")
  unfold parseCookies
  generalize req.header (bytes "Cookie") = one at read ⊢
  generalize req'.header (bytes "Cookie") = two at read ⊢
  rcases one with ⟨data, next⟩
  rcases two with ⟨data', next'⟩
  rcases read with ⟨rfl, still⟩
  dsimp only
  split
  · exact .ok still
  · apply SameResult.of_rehead (f := parseCookiesFrom _ _ _) _ still
    intro option headers
    exact parseCookiesFrom_rehead option headers _ _ _ next

/-- `parse_content` finds one content type. -/
theorem parseContent_same {option : UInt8} {req req' : Request} (reheaded : Reheaded option req req') :
    SameResult option (parseContent req) (parseContent req') := by
  have read := reheaded.header (bytes "Content-Type")
  have content : req'.content = req.content := by
    rcases reheaded with ⟨headers, rfl, -⟩
    rfl
  unfold parseContent
  rw [content]
  split
  · exact .ok reheaded
  · generalize req.header (bytes "Content-Type") = one at read ⊢
    generalize req'.header (bytes "Content-Type") = two at read ⊢
    rcases one with ⟨contentType, next⟩
    rcases two with ⟨contentType', next'⟩
    rcases read with ⟨rfl, still⟩
    have later : next'.content = next.content := by
      rcases still with ⟨headers, rfl, -⟩
      rfl
    dsimp only
    rw [later]
    split
    · apply SameResult.of_rehead (f := parseFormFrom _ _) _ still
      intro option headers
      exact parseFormFrom_rehead option headers _ _ next
    · split
      · apply SameResult.of_rehead _ still
        intro option headers
        exact parseMultipart_rehead option headers _ next
      · exact .ok still

/-- In front of the handler, the plain connection has the same request as the TLS connection, with the
    connection option that it read. -/
theorem prepare_same (endpoint : Endpoint) (req : Request) :
    SameResult (askedOption req) (ConnectionSsl.prepare endpoint req) (prepare endpoint req) := by
  have addressed := parseConnectionHeader_reheaded
    { req with remoteAddr := endpoint.address, remotePort := endpoint.port }
  have params := SameResult.of_rehead
    (fun option headers => parseParams_rehead option headers
      { req with remoteAddr := endpoint.address, remotePort := endpoint.port }) addressed
  refine SameResult.bind params ?_
  intro first first' still
  refine SameResult.bind (parseCookies_same still) ?_
  intro second second' again
  exact parseContent_same again

/-! ### What handlers see

A context is seen through the accessors, and they show one thing in both requests.  So a handler that uses
nothing else does the same on both. -/

/-- The other side has the response and, but for its headers, the request; its connection option is the given
    one. -/
structure View (option : UInt8) (c c' : Ctx) : Prop where
  req : Reheaded option c.req c'.req
  res : c'.res = c.res

namespace View

variable {option : UInt8} {c c' : Ctx}

/-- Parameters are the same. -/
theorem paramValue (view : View option c c') (name : Bytes) : c'.paramValue name = c.paramValue name := by
  rcases view.req with ⟨headers, same, -⟩
  simp [Ctx.paramValue, same, Request.rehead]

theorem cookieValue (view : View option c c') (name : Bytes) : c'.cookieValue name = c.cookieValue name := by
  rcases view.req with ⟨headers, same, -⟩
  simp [Ctx.cookieValue, same, Request.rehead]

theorem headerValue (view : View option c c') (name : Bytes) : c'.headerValue name = c.headerValue name := by
  rcases view.req with ⟨headers, same, values⟩
  simp [Ctx.headerValue, same, Request.rehead, values]

theorem remoteAddr (view : View option c c') : c'.req.remoteAddr = c.req.remoteAddr := by
  rcases view.req with ⟨headers, same, -⟩
  simp [same, Request.rehead]

theorem uri (view : View option c c') : c'.req.uri = c.req.uri := by
  rcases view.req with ⟨headers, same, -⟩
  simp [same, Request.rehead]

theorem restParams (view : View option c c') : c'.req.restParams = c.req.restParams := by
  rcases view.req with ⟨headers, same, -⟩
  simp [same, Request.rehead]

/-- Reading a parameter keeps the view. -/
theorem readParam (view : View option c c') (name : Bytes) :
    View option (c.readParam name) (c'.readParam name) := by
  rcases view.req with ⟨headers, same, values⟩
  refine ⟨⟨headers, ?_, values⟩, view.res⟩
  simp [Ctx.readParam, Request.param, same, Request.rehead]

theorem readCookie (view : View option c c') (name : Bytes) :
    View option (c.readCookie name) (c'.readCookie name) := by
  rcases view.req with ⟨headers, same, values⟩
  refine ⟨⟨headers, ?_, values⟩, view.res⟩
  simp [Ctx.readCookie, Request.cookie, same, Request.rehead]

theorem readHeader (view : View option c c') (name : Bytes) :
    View option (c.readHeader name) (c'.readHeader name) :=
  ⟨(view.req.header name).2, view.res⟩

theorem respond (view : View option c c') (f : Response → Response) :
    View option (c.respond f) (c'.respond f) := by
  refine ⟨view.req, ?_⟩
  simp only [Ctx.res_respond, view.res]

theorem serializeAndSet (view : View option c c') (env : Env) (s : Session) :
    View option (s.serializeAndSet env c) (s.serializeAndSet env c') := view.respond _

/-- A session is accepted in both or in none. -/
theorem accepts (view : View option c c') (env : Env) (entries : List NameValue) :
    (Session.accepts env entries c).1 = (Session.accepts env entries c').1 ∧
      View option (Session.accepts env entries c).2 (Session.accepts env entries c').2 := by
  unfold Session.accepts Session.currUa Session.readUa
  rw [view.remoteAddr, view.headerValue]
  split
  · exact ⟨rfl, view⟩
  · split
    · exact ⟨rfl, view⟩
    · split
      · exact ⟨rfl, view⟩
      · split
        · exact ⟨rfl, view.readHeader _⟩
        · exact ⟨rfl, view⟩

/-- It is loaded alike. -/
theorem load (view : View option c c') (env : Env) :
    (Session.load env c).1 = (Session.load env c').1 ∧
    View option (Session.load env c).2 (Session.load env c').2 := by
  have read := view.readCookie env.cfg.sessCookie
  unfold Session.load
  rw [view.cookieValue]
  dsimp only
  split
  · exact ⟨rfl, read⟩
  · split
    · exact ⟨rfl, read⟩
    · exact ⟨rfl, read.respond fun res => res.deleteCookie env.cfg.sessCookie⟩
    · rename_i entries _
      have looked := read.accepts env entries
      rw [← looked.1]
      split
      · exact ⟨rfl, looked.2⟩
      · exact ⟨rfl, looked.2.respond fun res => res.deleteCookie env.cfg.sessCookie⟩

/-- It is created alike. -/
theorem create (view : View option c c') (env : Env) :
    (Session.create env c).1 = (Session.create env c').1 ∧
    View option (Session.create env c).2 (Session.create env c').2 := by
  unfold Session.create Session.currUa Session.readUa
  rw [view.remoteAddr, view.headerValue]
  exact ⟨rfl, (view.readHeader _).serializeAndSet env _⟩

/-- An entry is put alike. -/
theorem put (view : View option c c') (env : Env) (s : Session) (name value : Bytes) :
    (s.put env name value c).1 = (s.put env name value c').1 ∧
      View option (s.put env name value c).2 (s.put env name value c').2 :=
  ⟨rfl, view.serializeAndSet env _⟩

/-- It is updated alike. -/
theorem update (view : View option c c') (env : Env) (s : Session) :
    (s.update env c).1 = (s.update env c').1 ∧ View option (s.update env c).2 (s.update env c').2 := by
  unfold Session.update
  split
  · exact ⟨rfl, view⟩
  · rw [view.remoteAddr]
    exact ⟨rfl, ((view.put env _ _ _).2.put env _ _ _).2.serializeAndSet env _⟩

/-- It is constructed alike. -/
theorem construct (view : View option c c') (env : Env) :
    (Session.construct env c).1 = (Session.construct env c').1 ∧
      View option (Session.construct env c).2 (Session.construct env c').2 := by
  have loaded := view.load env
  unfold Session.construct
  generalize Session.load env c = one at loaded ⊢
  generalize Session.load env c' = two at loaded ⊢
  rcases one with ⟨result, d⟩
  rcases two with ⟨result', d'⟩
  rcases loaded with ⟨rfl, still⟩
  rcases result with e | _ | s
  · exact ⟨rfl, still⟩
  · have created := View.create still env
    exact ⟨congrArg Except.ok created.1, created.2⟩
  · have updated := View.update still env s
    exact ⟨congrArg Except.ok updated.1, updated.2⟩

end View

/-- A handler that is made as the routed ones are keeps the view. -/
theorem respects_of_handling {env : Env} {option : UInt8} {α : Type} {m : Act α}
    (handling : Handling env m) :
    m.Respects (View option) := by
  induction handling with
  | pure a => exact Action.respects_pure a
  | raise e => exact Action.respects_raise e
  | bind _ _ first next => exact Action.respects_bind first next
  | param name =>
      apply Action.respects_lift
      intro c c' view
      exact ⟨congrArg Except.ok (view.paramValue name).symm, view.readParam name⟩
  | restParams _ only next =>
      apply Action.respects_get_bind next
      intro c c' view
      exact only c c' view.restParams.symm
  | session =>
      apply Action.respects_lift
      intro c c' view
      exact view.construct env
  | put s name value =>
      apply Action.respects_lift
      intro c c' view
      exact ⟨rfl, (view.put env s name value).2⟩
  | signOut => exact Action.respects_modify fun c c' view => view.respond _
  | redirectTo _ => exact Action.respects_modify fun c c' view => view.respond _
  | fill _ => exact Action.respects_modify fun c c' view => view.respond _
  | setJsonp =>
      apply Action.respects_modify
      intro c c' view
      refine ⟨view.req, ?_⟩
      dsimp only
      rw [view.uri, view.res]
  | getFile path =>
      apply Action.respects_lift
      intro c c' view
      dsimp only
      rw [view.res]
      exact ⟨rfl, view.req, rfl⟩
  | db q =>
      apply Action.respects_bind (Action.respects_ask q)
      intro reply
      cases reply with
      | error e => exact Action.respects_raise e
      | ok answer => exact Action.respects_pure answer

/-- The request handler, over handlers that are made of those actions. -/
theorem respects_handleRequest {env : Env} {option : UInt8} {table : List Route}
    (made : ∀ route ∈ table, Handling env route.func) :
    (handleRequest env table).Respects (View option) := by
  have respond (f : Response → Response) : (Act.respond f).Respects (View option) :=
    Action.respects_modify fun c c' view => view.respond f
  have compressed : (compressContent env).Respects (View option) := by
    unfold compressContent
    apply Action.respects_ite
    · intro _
      apply Action.respects_bind
      · apply Action.respects_lift
        intro c c' view
        exact ⟨congrArg Except.ok (view.headerValue _).symm, view.readHeader _⟩
      · intro acceptEncoding
        apply Action.respects_get_bind
        · intro c
          apply Action.respects_ite
          · intro _
            apply Action.respects_bind (respond _)
            intro _
            cases env.gzip c.res.content with
            | error e => exact Action.respects_raise e
            | ok text => exact respond _
          · intro _
            exact Action.respects_pure ()
        · intro c c' view
          simp only [view.res]
    · intro _
      exact Action.respects_pure ()
  have filled : (fillResponse env).Respects (View option) := by
    apply Action.respects_bind (respond _)
    intro _
    apply Action.respects_bind compressed
    intro _
    exact respond _
  apply Action.respects_recover _ (fun _ => respond _)
  apply Action.respects_get_bind
  · intro c
    split
    · exact respond _
    · split
      · exact respond _
      · split
        · exact respond _
        · split
          · apply Action.respects_bind (respects_of_handling (.getFile _))
            intro found
            cases found with
            | false => exact respond _
            | true => exact filled
          · rename_i func chosen
            rcases Option.map_eq_some_iff.mp chosen with ⟨route, found, rfl⟩
            apply Action.respects_bind (respects_of_handling (made route (List.mem_of_find?_eq_some found)))
            intro _
            exact filled
  · intro c c' view
    simp only [view.remoteAddr, view.uri]

/-! ### Lock step -/

/-- The handler returns and sees neither the connection option nor the headers as such. -/
structure Blind {σ : Type} (handleRequest : Handler σ) : Prop where
  returns : AlwaysReturns handleRequest
  same : ∀ option world req req' res, Reheaded option req req' →
    (handleRequest world req res).2.1 = (handleRequest world req' res).2.1 ∧
      Reheaded option (handleRequest world req res).2.2.1 (handleRequest world req' res).2.2.1 ∧
      (handleRequest world req res).2.2.2 = (handleRequest world req' res).2.2.2

/-- The handler of the server does not tell the machines apart. -/
theorem blind_requestHandler (mysql : Mysql) : Blind (requestHandler mysql routes) where
  returns := requestHandler_returns mysql routes
  same option server req req' res reheaded := by
    have view : View option ⟨req, res⟩ ⟨req', res⟩ := ⟨reheaded, rfl⟩
    have runs := (respects_handleRequest (handling_routes (server.envs server.served))).exec view
        (serve mysql)
      server.world
    refine ⟨?_, runs.1.2.req, runs.1.2.res.symm⟩
    simp only [requestHandler, runs.2]

/-- The two machines put the same out: the requests are alike and the responses equal. -/
inductive Output.Same : Output → Output → Prop where
  | handled {request request' : Request} (alike : request.Alike request') (response : Response) :
      Same (.handled request response) (.handled request' response)
  | rejected (response : Response) : Same (.rejected response) (.rejected response)
  | escaped {request request' : Request} (alike : request.Alike request') (fault : Fault) :
      Same (.escaped request fault) (.escaped request' fault)
  | ignored (data : Bytes) : Same (.ignored data) (.ignored data)

/-- An output is the same as itself. -/
theorem Output.same_refl : ∀ o : Output, o.Same o
  | .handled _ response => .handled ⟨rfl, fun _ => rfl⟩ response
  | .rejected response => .rejected response
  | .escaped _ fault => .escaped ⟨rfl, fun _ => rfl⟩ fault
  | .ignored data => .ignored data

section Machines

variable {σ : Type} (endpoint : Endpoint) (handleRequest : Handler σ)

/-- A read that the plain connection in one state and the TLS connection in another answer in the same way:
    with the same requests and responses, and both read on or both do not. -/
def SameStep (s t : Serving σ) (data : Bytes) : Prop :=
  List.Forall₂ Output.Same ((connection endpoint handleRequest).step s data).2
      ((connectionSsl endpoint handleRequest).step t data).2 ∧
    ((connection endpoint handleRequest).step s data).1.phase =
    ((connectionSsl endpoint handleRequest).step t data).1.phase

/-- The plain and the TLS connection answer every read of the run in the same way. -/
def SameMachine (s : Serving σ) (reads : List Bytes) : Prop :=
  ∀ before data after, reads = before ++ data :: after →
    SameStep endpoint handleRequest ((connection endpoint handleRequest).final s before)
      ((connectionSsl endpoint handleRequest).final s before) data

/-- The parser's result is an accepted request that asks to close and that the calls in front of the handler
    take, or a rejected message on a connection whose option says to close. -/
def AsksToClose (request : Request) : Tribool → Prop
  | .yes => askedOption request = 'c'.toUInt8 ∧ Returns (prepare endpoint request)
  | .no => request.connectionOption = 'c'.toUInt8
  | .indeterminate => False

/-- No read of the run completes a message that asks to close. -/
def KeepsOpen (s : Serving σ) (reads : List Bytes) : Prop :=
  ∀ before data after, reads = before ++ data :: after →
    ((connection endpoint handleRequest).final s before).phase = .reading →
    ¬ AsksToClose endpoint (parse ((connection endpoint handleRequest).final s before).parsing
      data).state.req
      (parse ((connection endpoint handleRequest).final s before).parsing data).verdict

/-- How the two machines answer an accepted request: with the same fault, or with requests that differ in
    their headers and the same response. -/
inductive BothAnswer (s : Serving σ) : Prop where
  | faults (fault : Fault) (failed : ¬ Returns (prepare endpoint s.conn.request))
      (plain : answer endpoint handleRequest s .yes =
        ({ s with phase := .terminated }, [.escaped s.conn.request fault]))
      (ssl : ConnectionSsl.answer endpoint handleRequest s .yes =
        ({ s with phase := .terminated }, [.escaped s.conn.request fault]))
  | answers {req req' last last' : Request} {world : σ} {response : Response}
      (returned : Returns (prepare endpoint s.conn.request)) (alike : req'.Alike req)
      (option : last'.connectionOption = askedOption s.conn.request)
      (plain : answer endpoint handleRequest s .yes =
        (doWrite { s with world := world, conn := { s.conn with request := last', response := response } },
          [.handled req' response]))
      (ssl : ConnectionSsl.answer endpoint handleRequest s .yes =
        (ConnectionSsl.doWrite
            { s with world := world, conn := { s.conn with request := last, response := response } },
          [.handled req response]))

variable {endpoint handleRequest}

/-- Both machines answer a request in one way. -/
theorem bothAnswer (blind : Blind handleRequest) (s : Serving σ) :
    BothAnswer endpoint handleRequest s := by
  have prepared := prepare_same endpoint s.conn.request
  cases plain : prepare endpoint s.conn.request with
  | error fault =>
      cases ssl : ConnectionSsl.prepare endpoint s.conn.request with
      | error fault' =>
          rw [plain, ssl] at prepared
          cases prepared
          refine .faults fault ?_ ?_ ?_
          · simp [plain]
          · simp only [answer, plain]
          · simp only [ConnectionSsl.answer, ssl]
      | ok req =>
          rw [plain, ssl] at prepared
          cases prepared
  | ok req' =>
      cases ssl : ConnectionSsl.prepare endpoint s.conn.request with
      | error fault =>
          rw [plain, ssl] at prepared
          cases prepared
      | ok req =>
          rw [plain, ssl] at prepared
          cases prepared with
          | ok reheaded =>
              have returns := blind.returns s.world req s.conn.response
              have returns' := blind.returns s.world req' s.conn.response
              have same := blind.same _ s.world req req' s.conn.response reheaded
              rcases one : handleRequest s.world req s.conn.response with ⟨result, world, last, response⟩
              rcases two : handleRequest s.world req' s.conn.response with
                ⟨result', world', last', response'⟩
              rw [one] at returns same
              rw [two] at returns' same
              rcases same with ⟨sameWorld, ⟨headers, reheadedLast, -⟩, sameResponse⟩
              simp only at returns returns' sameWorld sameResponse reheadedLast
              subst returns returns' sameWorld sameResponse
              have plainAnswer : answer endpoint handleRequest s .yes =
                  (doWrite { s with
                      world := world
                      conn := { s.conn with request := last', response := response } },
                    [.handled req' response]) := by
                simp only [answer, plain, two]
              have sslAnswer : ConnectionSsl.answer endpoint handleRequest s .yes =
                  (ConnectionSsl.doWrite { s with
                      world := world
                      conn := { s.conn with request := last, response := response } },
                    [.handled req response]) := by
                simp only [ConnectionSsl.answer, ssl, one]
              exact .answers ⟨req', plain⟩ reheaded.alike (congrArg Request.connectionOption reheadedLast)
                plainAnswer sslAnswer

/-- While no request asks to close, both go on alike. -/
theorem answer_same (blind : Blind handleRequest) (s : Serving σ) {verdict : Tribool}
    (keeps : ¬ AsksToClose endpoint s.conn.request verdict) :
    (answer endpoint handleRequest s verdict).1 = (ConnectionSsl.answer endpoint handleRequest s verdict).1 ∧
      List.Forall₂ Output.Same (answer endpoint handleRequest s verdict).2
        (ConnectionSsl.answer endpoint handleRequest s verdict).2 := by
  cases verdict with
  | indeterminate => exact ⟨rfl, .nil⟩
  | no =>
      have option : (s.conn.request.connectionOption == 'c'.toUInt8) = false := by
        simpa [AsksToClose] using keeps
      refine ⟨?_, .cons (.rejected _) .nil⟩
      simp only [answer, ConnectionSsl.answer, doWrite, ConnectionSsl.doWrite, option, Bool.false_eq_true,
        if_false]
  | yes =>
      cases bothAnswer blind s with
      | faults fault failed plain ssl =>
          rw [plain, ssl]
          exact ⟨rfl, .cons (Output.same_refl _) .nil⟩
      | @answers req req' last last' world response returned alike option plain ssl =>
          have open_ : (last'.connectionOption == 'c'.toUInt8) = false := by
            rw [option]
            simpa [AsksToClose, returned] using keeps
          rw [plain, ssl]
          refine ⟨?_, .cons (Output.Same.handled alike response) .nil⟩
          simp only [doWrite, ConnectionSsl.doWrite, open_, Bool.false_eq_true, if_false]

/-- When one does, the plain machine closes. -/
theorem answer_closes (blind : Blind handleRequest) {s : Serving σ} (reading : s.phase = .reading)
    {verdict : Tribool} (asks : AsksToClose endpoint s.conn.request verdict) :
    (answer endpoint handleRequest s verdict).1.phase = .closed ∧
      (ConnectionSsl.answer endpoint handleRequest s verdict).1.phase = .reading := by
  cases verdict with
  | indeterminate => exact asks.elim
  | no =>
      have option : (s.conn.request.connectionOption == 'c'.toUInt8) = true := by
        simpa [AsksToClose] using asks
      refine ⟨?_, reading⟩
      simp only [answer, doWrite, option, if_true]
  | yes =>
      rcases asks with ⟨close, returned⟩
      cases bothAnswer blind s with
      | faults fault failed plain ssl => exact absurd returned failed
      | answers _ alike option plain ssl =>
          rw [plain, ssl]
          refine ⟨?_, reading⟩
          simp only [doWrite, option, close, beq_self_eq_true, if_true]

/-- In one state, the two machines answer a read that does not ask to close in the same way and go on to the
    same state. -/
theorem step_same (blind : Blind handleRequest) {s : Serving σ} {data : Bytes}
    (keeps : s.phase = .reading →
      ¬ AsksToClose endpoint (parse s.parsing data).state.req (parse s.parsing data).verdict) :
    SameStep endpoint handleRequest s s data ∧
      ((connection endpoint handleRequest).step s data).1 =
      ((connectionSsl endpoint handleRequest).step s data).1 := by
  unfold SameStep
  simp only [connection, connectionSsl, completeRead, ConnectionSsl.completeRead]
  cases reading : s.phase with
  | reading =>
      have same :
          (doRead endpoint handleRequest s data).1 = (ConnectionSsl.doRead endpoint handleRequest s data).1 ∧
          List.Forall₂ Output.Same (doRead endpoint handleRequest s data).2
            (ConnectionSsl.doRead endpoint handleRequest s data).2 :=
        answer_same (s := s.withParsing (parse s.parsing data).state) blind (keeps reading)
      generalize doRead endpoint handleRequest s data = one at same ⊢
      generalize ConnectionSsl.doRead endpoint handleRequest s data = two at same ⊢
      rcases one with ⟨t, outputs⟩
      rcases two with ⟨t', outputs'⟩
      rcases same with ⟨sameState, sameOutputs⟩
      simp only at sameState sameOutputs
      subst sameState
      refine ⟨⟨List.rel_append sameOutputs ?_, rfl⟩, rfl⟩
      split
      · exact .cons (.ignored _) .nil
      · exact .nil
  | closed => exact ⟨⟨.nil, rfl⟩, rfl⟩
  | terminated => exact ⟨⟨.nil, rfl⟩, rfl⟩

/-- A read that asks to close closes the plain connection only. -/
theorem step_parts (blind : Blind handleRequest) {s : Serving σ} {data : Bytes}
    (reading : s.phase = .reading)
    (asks : AsksToClose endpoint (parse s.parsing data).state.req (parse s.parsing data).verdict) :
    ¬ SameStep endpoint handleRequest s s data := by
  have closes := answer_closes (s := s.withParsing (parse s.parsing data).state) blind reading asks
  intro same
  have phases := same.2
  simp only [connection, connectionSsl, completeRead, ConnectionSsl.completeRead, reading, doRead,
    ConnectionSsl.doRead]
    at phases
  rw [closes.1, closes.2] at phases
  cases phases

/-- What holds of every way to cut a nonempty list in front of an element holds of the first one and of those
    behind it. -/
theorem forall_cut_cons_iff {α : Type} {first : α} {rest : List α} {P : List α → α → Prop} :
    (∀ before a after, first :: rest = before ++ a :: after → P before a) ↔
      P [] first ∧ ∀ before a after, rest = before ++ a :: after → P (first :: before) a := by
  constructor
  · intro all
    refine ⟨all [] first rest rfl, ?_⟩
    intro before a after split
    exact all (first :: before) a after (by rw [split, List.cons_append])
  · intro both before a after split
    cases before with
    | nil =>
        cases split
        exact both.1
    | cons head before =>
        rcases List.cons.inj split with ⟨rfl, tail⟩
        exact both.2 before a after tail

/-- The machines are the same exactly while no answered request asks to close. -/
theorem same_iff_keepsOpen (blind : Blind handleRequest) (s : Serving σ) (reads : List Bytes) :
    SameMachine endpoint handleRequest s reads ↔ KeepsOpen endpoint handleRequest s reads := by
  induction reads generalizing s with
  | nil =>
      constructor <;>
        · intro _ before data after split
          cases before <;> cases split
  | cons data rest ih =>
      unfold SameMachine KeepsOpen
      rw [forall_cut_cons_iff, forall_cut_cons_iff]
      simp only [Transducer.final_nil, Transducer.final_cons]
      by_cases keeps : s.phase = .reading →
          ¬ AsksToClose endpoint (parse s.parsing data).state.req (parse s.parsing data).verdict
      · have same := step_same blind keeps
        rw [← same.2]
        exact and_congr (iff_of_true same.1 keeps) (ih _)
      · have asks := Classical.not_imp.mp keeps
        apply iff_of_false
        · exact fun same => step_parts blind asks.1 (not_not.mp asks.2) same.1
        · exact fun open_ => keeps open_.1

end Machines

/-- A plain connection and a TLS connection that start alike answer every read of a run in the same way,
    exactly when no read of the run completes a message that asks to close. -/
theorem same_machine_iff (mysql : Mysql) (endpoint : Endpoint) (s : Serving Server) (reads : List Bytes) :
    SameMachine endpoint (requestHandler mysql routes) s reads ↔
      KeepsOpen endpoint (requestHandler mysql routes) s reads :=
  same_iff_keepsOpen (blind_requestHandler mysql) s reads

/-- A request that the old version has closed after its answer. -/
def oldRequest : Bytes := bytes "GET / HTTP/1.0\r\n\r\n"

theorem oldRequest_phases :
    ((connection localEndpoint (requestHandler plainMysql routes)).step bareServing oldRequest).1.phase =
        .closed ∧
      ((connectionSsl localEndpoint (requestHandler plainMysql routes)).step bareServing
        oldRequest).1.phase = .reading := by
  decide +kernel

/-- The plain connection closes after the answer to it, and the TLS connection reads on. -/
theorem tls_connection_stays_open :
    ¬ SameMachine localEndpoint (requestHandler plainMysql routes) bareServing [oldRequest] := by
  intro same
  have phases := (same [] oldRequest [] rfl).2
  simp only [Transducer.final_nil] at phases
  rw [oldRequest_phases.1, oldRequest_phases.2] at phases
  cases phases

end Waspp
