/-
Module: Waspp.Proofs.SessionTravel
Layer: Proofs
Purpose: The way of a session through a client.  The client keeps the value of the last session cookie that
  a response set and sends it back in a Cookie header.  What it keeps is the cookie of a session with the
  entries that the last use of a session left, so the next session that is constructed shows them again, up
  to the two entries that `update` rewrites; an internal error sets no cookie.
Imports: Waspp.Proofs.AccessControl, Waspp.Proofs.Cookies, Waspp.Proofs.SessionUse, Waspp.Foundation.Md5
Trusted boundary: none (fully proved)
Main exports: CookieName, keepCookie, Sends, Visit, Client, Journey, session_travels
Open obligations: none
-/
import Waspp.Proofs.AccessControl
import Waspp.Proofs.Cookies
import Waspp.Proofs.SessionUse
import Waspp.Foundation.Md5

namespace Waspp

open CString Interaction

/-! ### The client's side of a cookie

A client reads the name and the value of a Set-Cookie header up to the semicolon and sends them back in a
Cookie header, among other cookies. -/

/-- A name that a cookie can carry. -/
structure CookieName (name : Bytes) : Prop where
  equals : '='.toUInt8 ∉ name
  semicolon : ';'.toUInt8 ∉ name
  blank : ∀ b ∈ name.head?, isspace b = false

/-- The cookie that a header of a response sets: what stands in front of the first semicolon. -/
def readSetCookie (header : NameValue) : Option NameValue :=
  if isSetCookie header then readPiece (header.value.takeWhile (· != ';'.toUInt8)) else none

/-- What a client that held `held` keeps of the session cookie when a response sets cookies. -/
def keepCookie (sess : Bytes) (headers : List NameValue) (held : Bytes) : Bytes :=
  headers.foldl (fun held header =>
    match readSetCookie header with
    | some cookie => if cookie.name = sess then cookie.value else held
    | none => held) held

/-- A Cookie header sends the session cookie that the client holds: among its pieces the first of that name
    has the value that is held.  A client that holds an empty one may send none. -/
inductive Sends (sess held header : Bytes) : Prop where
  | piece {before after : List Bytes} {blanks : Bytes} (blank : ∀ b ∈ blanks, isspace b = true)
      (cut : header.splitOn ';'.toUInt8 = before ++ (blanks ++ sess ++ bytes "=" ++ held) :: after)
      (first : ∀ piece ∈ before, ∀ cookie ∈ readPiece piece, cookie.name ≠ sess)
  | nothing (empty : held = [])
      (absent : ∀ piece ∈ header.splitOn ';'.toUInt8, ∀ cookie ∈ readPiece piece, cookie.name ≠ sess)

/-- A cookie's name begins with no blank. -/
theorem CookieName.dropWhile {name : Bytes} (named : CookieName name) : name.dropWhile isspace = name := by
  cases name with
  | nil => rfl
  | cons b rest => simp [named.blank b rfl]

/-- A piece of the header gives the cookie. -/
theorem readPiece_cookie {name : Bytes} (named : CookieName name) {blanks : Bytes}
    (blank : ∀ b ∈ blanks, isspace b = true) (value : Bytes) :
    readPiece (blanks ++ name ++ bytes "=" ++ value) = some ⟨name, value⟩ := by
  have first : '='.toUInt8 ∉ blanks ++ name := by
    intro member
    rcases List.mem_append.mp member with blank_ | inside
    · exact absurd (blank _ blank_) (by decide)
    · exact named.equals inside
  have read : readPiece (blanks ++ name ++ '='.toUInt8 :: value) =
      some ⟨(blanks ++ name).dropWhile isspace, value⟩ :=
    readPiece_append first
  rw [List.dropWhile_append_of_pos blank, named.dropWhile] at read
  simpa [bytes] using read

/-- A Set-Cookie header is read as the cookie that it was written for. -/
theorem readSetCookie_setCookieHeader {name value : Bytes} (named : CookieName name)
    (plain : ';'.toUInt8 ∉ value) :
    readSetCookie (setCookieHeader ⟨name, value⟩) = some ⟨name, value⟩ := by
  have others : ∀ b ∈ name ++ bytes "=" ++ value, (b != ';'.toUInt8) = true := by
    intro b member
    rw [bne_iff_ne]
    rintro rfl
    rcases List.mem_append.mp member with front | inside
    · rcases List.mem_append.mp front with inside | equals
      · exact named.semicolon inside
      · exact absurd equals (by decide)
    · exact plain inside
  have read := readPiece_cookie named (List.forall_mem_nil _) value
  have path : (bytes "; path=/").takeWhile (· != ';'.toUInt8) = [] := by decide
  have set : isSetCookie (setCookieHeader ⟨name, value⟩) = true := by simp [isSetCookie, setCookieHeader]
  rw [readSetCookie, if_pos set, setCookieHeader, List.takeWhile_append_of_pos others, path, List.append_nil]
  exact read

/-- Cookies of other names are passed over. -/
theorem valueOf_skip {before after : List NameValue} {name : Bytes}
    (first : ∀ cookie ∈ before, cookie.name ≠ name) :
    NameValue.valueOf (before ++ after) name = NameValue.valueOf after name := by
  induction before with
  | nil => rfl
  | cons cookie rest ih =>
      rw [List.cons_append, NameValue.valueOf_cons, if_neg (first cookie (List.mem_cons_self ..))]
      exact ih fun other member => first other (List.mem_cons_of_mem _ member)

/-- The server finds the value that the client sends. -/
theorem valueOf_readCookies {sess held header : Bytes} (named : CookieName sess)
    (sends : Sends sess held header) :
    NameValue.valueOf (readCookies header) sess = held := by
  cases sends with
  | @piece before after blanks blank cut first =>
      have others : ∀ cookie ∈ before.filterMap readPiece, cookie.name ≠ sess := by
        intro cookie member
        rcases List.mem_filterMap.mp member with ⟨piece, inside, read⟩
        exact first piece inside cookie read
      rw [readCookies, cut, List.filterMap_append, valueOf_skip others,
        List.filterMap_cons_some (readPiece_cookie named blank held), NameValue.valueOf_cons, if_pos rfl]
  | nothing empty absent =>
      have others : ∀ cookie ∈ readCookies header, cookie.name ≠ sess := by
        intro cookie member
        rcases List.mem_filterMap.mp member with ⟨piece, inside, read⟩
        exact absent piece inside cookie read
      rw [empty, ← List.append_nil (readCookies header), valueOf_skip others, NameValue.valueOf_nil]

/-- Only the headers that set cookies matter to the client. -/
theorem keepCookie_filter (sess : Bytes) (headers : List NameValue) (held : Bytes) :
    keepCookie sess (headers.filter isSetCookie) held = keepCookie sess headers held := by
  induction headers generalizing held with
  | nil => rfl
  | cons header rest ih =>
      by_cases sets : isSetCookie header = true
      · rw [List.filter_cons_of_pos sets]
        exact ih _
      · rw [List.filter_cons_of_neg sets, ih]
        simp [keepCookie, readSetCookie, sets]

/-- A session's cookie has no semicolon. -/
theorem semicolon_not_mem_cookieValue (env : Env) (s : Session) : ';'.toUInt8 ∉ s.cookieValue env := by
  intro member
  rcases List.mem_append.mp member with coded | digest
  · rcases mem_percentEncode coded with unreserved | percent
    · exact absurd unreserved (by decide)
    · exact absurd percent (by decide)
  · exact absurd (isxdigit_of_mem_md5Digest digest) (by decide)

/-! ### What a request does to what the client holds

The last session cookie of the response, or what was held before if there is none. -/

/-- The client that holds `held` will hold `value` after a response with these cookies. -/
def Leads (env : Env) (held : Bytes) (cookies : List NameValue) (value : Bytes) : Prop :=
  (cookies = [] ∧ value = held) ∨ (cookies = [⟨env.cfg.sessCookie, value⟩] ∧ ';'.toUInt8 ∉ value)

section Leads

variable {env : Env} {held value : Bytes} {cookies : List NameValue}

/-- Setting the session cookie overwrites what was set before. -/
theorem Leads.assign (leads : Leads env held cookies value) {new : Bytes} (plain : ';'.toUInt8 ∉ new) :
    Leads env held (NameValue.assign cookies env.cfg.sessCookie new) new := by
  rcases leads with ⟨rfl, -⟩ | ⟨rfl, -⟩
  · exact Or.inr ⟨rfl, plain⟩
  · exact Or.inr ⟨by simp [NameValue.assign], plain⟩

/-- The client keeps the cookie that the response leads to. -/
theorem Leads.keepCookie (leads : Leads env held cookies value) (named : CookieName env.cfg.sessCookie) :
    keepCookie env.cfg.sessCookie (cookies.map setCookieHeader) held = value := by
  rcases leads with ⟨rfl, rfl⟩ | ⟨rfl, plain⟩
  · rfl
  · simp [Waspp.keepCookie, readSetCookie_setCookieHeader named plain]

end Leads

/-- The two sessions show the same entries. -/
def SameEntries (s s' : Session) : Prop :=
  ∀ name, NameValue.valueOf s'.entries name = NameValue.valueOf s.entries name

/-- The session is one of the client with this address and this user agent. -/
structure Own (addr ua : Bytes) (s : Session) : Prop where
  keys : ∀ key ∈ Session.keys, (NameValue.lookup s.entries key).isSome = true
  ip : NameValue.valueOf s.entries (bytes "last_ip") = addr
  ua : NameValue.valueOf s.entries (bytes "last_ua") = ua.take 120

/-- The cookie is that of a session of the client which shows the entries of `s`. -/
def Shows (env : Env) (addr ua cookie : Bytes) (s : Session) : Prop :=
  Own addr ua s ∧ ∃ h : Session, cookie = h.cookieValue env ∧ Own addr ua h ∧ SameEntries s h

section Own

variable {env : Env} {addr ua cookie held : Bytes} {s : Session}

/-- A session of the client shows itself by its cookie. -/
theorem Own.shows (own : Own addr ua s) : Shows env addr ua (s.cookieValue env) s :=
  ⟨own, s, rfl, own, fun _ => rfl⟩

/-- An entry that is made takes no other away. -/
theorem lookup_ensure_isSome {entries : List NameValue} {name key : Bytes}
    (present : (NameValue.lookup entries key).isSome = true) :
    (NameValue.lookup (NameValue.ensure entries name) key).isSome = true := by
  unfold NameValue.ensure
  split
  · exact present
  · simp [NameValue.lookup_append, present]

/-- A get leaves what a cookie shows. -/
theorem Shows.get (shows : Shows env addr ua cookie s) (name : Bytes) :
    Shows env addr ua cookie (s.get name).2 := by
  rcases shows with ⟨own, h, written, own', same⟩
  have kept : SameEntries s (s.get name).2 := fun other => NameValue.valueOf_ensure _ _ _
  refine ⟨⟨fun key member => lookup_ensure_isSome (own.keys key member), ?_, ?_⟩, h, written, own', ?_⟩
  · exact (kept _).trans own.ip
  · exact (kept _).trans own.ua
  · exact fun other => (same other).trans (kept other).symm

/-- An entry keeps the session the client's own, if it is neither of the two that name the client. -/
theorem Own.put (own : Own addr ua s) (name value : Bytes) (ip : name ≠ bytes "last_ip")
    (ua_ : name ≠ bytes "last_ua") (c : Ctx) : Own addr ua (s.put env name value c).1 := by
  refine ⟨?_, ?_, ?_⟩
  · intro key member
    have present := own.keys key member
    simp only [Session.put, NameValue.lookup_assign_isSome, present, Bool.or_true]
  · rw [valueOf_put, if_neg ip]
    exact own.ip
  · rw [valueOf_put, if_neg ua_]
    exact own.ua

end Own

/-! ### The session and the response together

At every point of a handler the response would leave the client with the cookie of the session as it is. -/

/-- The client that holds `held` will hold a cookie that shows the entries of the session. -/
def Carried (env : Env) (addr ua held : Bytes) (s : Session) (c : Ctx) : Prop :=
  ∃ cookie, Leads env held c.res.cookies cookie ∧ Shows env addr ua cookie s

section Carried

variable {env : Env} {addr ua held : Bytes} {s : Session} {c : Ctx}

/-- A session that is serialized is carried. -/
theorem Own.serializeAndSet (own : Own addr ua s) {cookie : Bytes}
    (leads : Leads env held c.res.cookies cookie) :
    Carried env addr ua held s (s.serializeAndSet env c) :=
  ⟨s.cookieValue env, leads.assign (semicolon_not_mem_cookieValue env s), own.shows⟩

/-- What is carried is the client's own. -/
theorem Carried.own (carried : Carried env addr ua held s c) : Own addr ua s := by
  rcases carried with ⟨cookie, -, own, -⟩
  exact own

/-- An entry is carried. -/
theorem Carried.put (carried : Carried env addr ua held s c) (name value : Bytes)
    (ip : name ≠ bytes "last_ip") (ua_ : name ≠ bytes "last_ua") :
    Carried env addr ua held (s.put env name value c).1 (s.put env name value c).2 := by
  have own : Own addr ua (s.put env name value c).1 := carried.own.put name value ip ua_ c
  rcases carried with ⟨cookie, leads, -⟩
  exact own.serializeAndSet leads

theorem Carried.update (carried : Carried env addr ua held s c) :
    Carried env addr ua held (s.update env c).1 (s.update env c).2 := by
  unfold Session.update
  split
  · exact carried
  · have one := carried.put (bytes "sess_id") (md5Digest env (env.uuid ++ c.req.remoteAddr)) (by decide)
        (by decide)
    have two := one.put (bytes "last_tm") (Session.currTm env) (by decide) (by decide)
    have own := two.own
    rcases two with ⟨cookie, leads, -⟩
    exact own.serializeAndSet leads

theorem performAll_carried {calls : List SessionCall} (carried : Carried env addr ua held s c)
    (keeps : ∀ name value, .put name value ∈ calls → name ≠ bytes "last_ip" ∧ name ≠ bytes "last_ua") :
    Carried env addr ua held (performAll env calls (s, c)).1 (performAll env calls (s, c)).2 := by
  induction calls generalizing s c with
  | nil => exact carried
  | cons call rest ih =>
      have keepsRest (name value : Bytes) (member : .put name value ∈ rest) :=
        keeps name value (List.mem_cons_of_mem _ member)
      cases call with
      | get name =>
          rcases carried with ⟨cookie, leads, shows⟩
          exact ih ⟨cookie, leads, shows.get name⟩ keepsRest
      | put name value =>
          rcases keeps name value (List.mem_cons_self ..) with ⟨ip, ua_⟩
          exact ih (carried.put name value ip ua_) keepsRest

/-- A session that is created is the client's own. -/
theorem create_own (ip : c.req.remoteAddr = addr) (ua_ : c.headerValue (bytes "User-Agent") = ua) :
    Own addr ua (Session.create env c).1 := by
  refine ⟨?_, ip, ?_⟩
  · simp only [Session.keys, List.forall_mem_cons]
    exact ⟨rfl, rfl, rfl, rfl, List.forall_mem_nil _⟩
  · rw [← ua_]
    rfl

/-- A session that is constructed is one of the client, and the client will hold a cookie that shows it. -/
theorem construct_carried {c₁ : Ctx} (constructed : Session.construct env c = (.ok s, c₁))
    (none : c.res.cookies = [])
    (ip : c.req.remoteAddr = addr) (ua_ : c.headerValue (bytes "User-Agent") = ua)
    (loaded : ∀ s₀, Loads env c s₀ → Shows env addr ua held s₀) : Carried env addr ua held s c₁ := by
  have outcome := construct_cases env c
  rw [constructed] at outcome
  cases outcome with
  | @creates c' readable refused same res =>
      have own : Own addr ua (Session.create env c').1 :=
        create_own (same.remoteAddr.trans ip) ((same.headers _).trans ua_)
      rcases res with kept | deleted
      · have leads : Leads env held (Session.readUa c').res.cookies held :=
          Or.inl ⟨by simp [Session.readUa, kept, none], rfl⟩
        exact own.serializeAndSet leads
      · have leads : Leads env held (Session.readUa c').res.cookies [] := by
          refine Or.inr ⟨?_, List.not_mem_nil⟩
          simp [Session.readUa, deleted, Response.deleteCookie, none, NameValue.assign]
        exact own.serializeAndSet leads
  | @updates s₀ c' loads same res =>
      have carried : Carried env addr ua held s₀ c' :=
        ⟨held, Or.inl ⟨by rw [res, none], rfl⟩, loaded s₀ loads⟩
      exact carried.update

/-- A session that the request presents is constructed again, with its entries up to the two that `update`
    rewrites. -/
theorem construct_of_loads (loads : Loads env c s) :
    ∃ s' c₁, Session.construct env c = (.ok s', c₁) ∧ ∀ name, name ≠ bytes "sess_id" →
      name ≠ bytes "last_tm" → NameValue.valueOf s'.entries name = NameValue.valueOf s.entries name := by
  have outcome := construct_cases env c
  generalize constructed : Session.construct env c = result at outcome
  cases outcome with
  | throws unreadable => exact absurd loads.readable unreadable
  | creates readable refused => exact absurd loads (refused s)
  | @updates s₀ c' loads₀ same res =>
      refine ⟨_, _, rfl, fun name sessId lastTm => ?_⟩
      have entries : s₀.entries = s.entries := Except.ok.inj (loads₀.archived.symm.trans loads.archived)
      rw [valueOf_update env s₀ c' sessId lastTm, entries]

/-- What makes the server take the cookie that the client holds. -/
theorem Own.loads (own : Own addr ua s)
    (roundTrip : ∀ entries, env.archive.load (env.archive.save entries) = .ok entries)
    (held : presented env c = s.cookieValue env) (ip : c.req.remoteAddr = addr)
    (ua_ : c.headerValue (bytes "User-Agent") = ua)
    (recent : ¬ env.cfg.expirySec < Double.difftime env.clock.atLoad s.lastTm) : Loads env c s where
  long := held ▸ length_cookieValue env s
  authentic := held ▸ authentic_cookieValue env s
  archived := held ▸ archived_cookieValue roundTrip s
  acceptable :=
    { keys := own.keys
      recent := recent
      ip := fun _ => ip.trans own.ip.symm
      ua := fun _ => (congrArg (List.take 120) ua_).trans own.ua.symm }

end Carried

/-! ### Visits

One visit with its answer, and what the client holds after it.  A journey is a list of them. -/

/-- The session after a call. -/
def SessionCall.session : SessionCall → Session → Session
  | .get name, s => (s.get name).2
  | .put name value, s => ⟨NameValue.assign s.entries name value⟩

/-- The session after a list of calls. -/
def lastSession (calls : List SessionCall) (s : Session) : Session :=
  calls.foldl (fun s call => call.session s) s

/-- The session after the calls. -/
theorem performAll_session (env : Env) (calls : List SessionCall) (s : Session) (c : Ctx) :
    (performAll env calls (s, c)).1 = lastSession calls s := by
  induction calls generalizing s c with
  | nil => rfl
  | cons call rest ih =>
      cases call with
      | get name => exact ih _ _
      | put name value => exact ih _ _

/-- A request of the client with its answer: what the parser read, what the handler was given, what it did
    with the session, the calls of the databases and what is left. -/
structure Visit where
  env : Env
  endpoint : Endpoint
  received : Request
  req : Request
  res : Response
  use : Use
  trace : List (Event DbCall Reply)
  c' : Ctx

namespace Visit

variable (v : Visit)

/-- What the handler is given. -/
def start : Ctx := ⟨v.req, v.res⟩

/-- The answer is that of an internal error. -/
def Failed : Prop := v.c'.res.status = some .internalServerError

instance : Decidable v.Failed := inferInstanceAs (Decidable (_ = _))

end Visit

/-- The cookies of an answer come about by a handler's use of the session. -/
def AnswersBy (env : Env) (c : Ctx) (use : Use) (c' : Ctx) : Prop :=
  ∃ c₁, Uses env c use c₁ ∧ use.KeepsClient ∧
    setCookies c'.res = setCookies c₁.res ++ c₁.res.cookies.map setCookieHeader

/-- The visit is one of `do_read` and `handle_request`, with a response that is new, and its use is what the
    handler did with the session. -/
structure Visit.Answered (table : Env → List Route) (v : Visit) : Prop where
  bare : v.received.cookies = []
  prepared : prepare v.endpoint v.received = .ok v.req
  fresh : v.res.Fresh
  runs : (handleRequest v.env (table v.env)).Runs v.start v.trace (.ok ()) v.c'
  used : ¬ v.Failed → AnswersBy v.env v.start v.use v.c'

/-- What the client holds, and the session as the last use of one left it, if there was one since the last
    sign-out. -/
structure Client where
  held : Bytes := []
  last : Option Session := none

/-- The client after a visit. -/
def Client.after (server : Env) (client : Client) (v : Visit) : Client where
  held := keepCookie server.cfg.sessCookie v.c'.res.headers client.held
  last :=
    if v.Failed then client.last
    else
      match v.use with
      | .none => client.last
      | .signOut => none
      | .calls s calls => some (lastSession calls s)

/-- The client makes the visit: from its address, with its user agent and the cookie that it holds, before
    its session expires. -/
structure Visits (server : Env) (table : Env → List Route) (addr ua : Bytes) (client : Client) (v : Visit) :
    Prop where
  same : SameSite server v.env
  address : v.endpoint.address = addr
  userAgent : NameValue.valueOf v.received.headers (bytes "User-Agent") = ua
  sends : Sends server.cfg.sessCookie client.held (NameValue.valueOf v.received.headers (bytes "Cookie"))
  recent : ∀ s, client.last = some s → ¬ server.cfg.expirySec < Double.difftime v.env.clock.atLoad s.lastTm
  answered : v.Answered table

/-- What a client has after any number of visits. -/
inductive Journey (server : Env) (table : Env → List Route) (addr ua : Bytes) : Client → Prop where
  | start : Journey server table addr ua {}
  | visit {client : Client} {v : Visit} (journey : Journey server table addr ua client)
      (visits : Visits server table addr ua client v) : Journey server table addr ua (client.after server v)

/-- What the client holds is the cookie of its session, or nothing. -/
def Client.Sound (server : Env) (addr ua : Bytes) (client : Client) : Prop :=
  match client.last with
  | none => client.held = []
  | some s => Shows server addr ua client.held s

section Step

variable {server : Env} {table : Env → List Route} {addr ua : Bytes} {client : Client} {v : Visit} {c₀ : Ctx}

/-- The cookie that is presented is the one the client holds. -/
theorem Visits.cookie (visits : Visits server table addr ua client v)
    (named : CookieName server.cfg.sessCookie)
    (same : SameRequest v.start c₀) : presented v.env c₀ = client.held := by
  have prepared := prepared_of_prepare v.req visits.answered.prepared
  calc
    presented v.env c₀ = NameValue.valueOf v.req.cookies server.cfg.sessCookie := by
      rw [same.presented, ← visits.same.cfg]
      rfl
    _ = NameValue.valueOf (readCookies (NameValue.valueOf v.received.headers (bytes "Cookie")))
        server.cfg.sessCookie := by
      rw [prepared.cookies, visits.answered.bare, List.nil_append]
    _ = client.held := valueOf_readCookies named visits.sends

/-- The address is the client's. -/
theorem Visits.remoteAddr (visits : Visits server table addr ua client v) (same : SameRequest v.start c₀) :
    c₀.req.remoteAddr = addr :=
  same.remoteAddr.trans ((prepared_of_prepare v.req visits.answered.prepared).remoteAddr.trans
    visits.address)

theorem Visits.agent (visits : Visits server table addr ua client v) (same : SameRequest v.start c₀) :
    c₀.headerValue (bytes "User-Agent") = ua :=
  (same.headers _).trans (((prepared_of_prepare v.req visits.answered.prepared).headers _).trans
    visits.userAgent)

/-- A client with a session has it loaded. -/
theorem Visits.loads (visits : Visits server table addr ua client v)
    (named : CookieName server.cfg.sessCookie)
    (roundTrip : ∀ entries, server.archive.load (server.archive.save entries) = .ok entries) {s : Session}
    (last : client.last = some s) (shows : Shows server addr ua client.held s)
    (same : SameRequest v.start c₀) :
    ∃ h, Loads v.env c₀ h ∧ SameEntries s h ∧ client.held = h.cookieValue server ∧ Own addr ua h := by
  rcases shows with ⟨-, h, held, own, entries⟩
  have recent : ¬ v.env.cfg.expirySec < Double.difftime v.env.clock.atLoad h.lastTm := by
    rw [Session.lastTm, entries, visits.same.cfg]
    exact visits.recent s last
  have shown : presented v.env c₀ = h.cookieValue v.env := by
    rw [visits.cookie named same, held, visits.same.cookieValue]
  have trips : ∀ entries, v.env.archive.load (v.env.archive.save entries) = .ok entries := by
    rw [visits.same.archive]
    exact roundTrip
  exact ⟨h, own.loads trips shown (visits.remoteAddr same) (visits.agent same) recent, entries, held, own⟩

/-- What a cookie shows is the same on sites with the same keys. -/
theorem Shows.of_same {env : Env} (same : SameSite server env) {cookie : Bytes} {s : Session} :
    Shows env addr ua cookie s ↔ Shows server addr ua cookie s := by
  simp only [Shows, same.cookieValue]

/-- What is loaded shows what the client's session shows. -/
theorem Visits.loaded (visits : Visits server table addr ua client v)
    (named : CookieName server.cfg.sessCookie)
    (roundTrip : ∀ entries, server.archive.load (server.archive.save entries) = .ok entries)
    (sound : client.Sound server addr ua) (same : SameRequest v.start c₀) {s₀ : Session}
    (loads : Loads v.env c₀ s₀) :
    Shows v.env addr ua client.held s₀ := by
  unfold Client.Sound at sound
  cases last : client.last with
  | none =>
      rw [last] at sound
      have long := loads.long
      rw [visits.cookie named same, show client.held = [] from sound] at long
      exact absurd long (by decide)
  | some s =>
      rw [last] at sound
      rcases visits.loads named roundTrip last sound same with ⟨h, loads', -, held, own⟩
      have entries : s₀.entries = h.entries := Except.ok.inj (loads.archived.symm.trans loads'.archived)
      have equal : s₀ = h := congrArg Session.mk entries
      rw [equal, held, ← visits.same.cookieValue]
      exact own.shows

/-- An internal error sets no cookie. -/
theorem Visit.Answered.setCookies_of_failed (answered : v.Answered table) (failed : v.Failed) :
    setCookies v.c'.res = [] := by
  have handled := ((handleRequest_handled_of_fresh v.env (table v.env) answered.fresh).runs answered.runs).2
  generalize v.trace = trace at handled
  cases handled with
  | stock headers cookies => exact headers
  | failed selected left res => rw [res, setCookies_staticResponse]
  | routed selected left cookies headers status => exact absurd (status.symm.trans failed) (by decide)

/-- What the client holds after a visit. -/
theorem keepCookie_eq (server : Env) (client : Client) (v : Visit) :
    (client.after server v).held = keepCookie server.cfg.sessCookie (setCookies v.c'.res) client.held :=
  (keepCookie_filter _ _ _).symm

/-- An internal error leaves what the client holds. -/
theorem Visit.Answered.held_of_failed (answered : v.Answered table) (failed : v.Failed) (client : Client) :
    (client.after server v).held = client.held := by
  rw [keepCookie_eq, answered.setCookies_of_failed failed]
  rfl

/-- A visit keeps the client sound. -/
theorem Visits.sound (visits : Visits server table addr ua client v)
    (named : CookieName server.cfg.sessCookie)
    (roundTrip : ∀ entries, server.archive.load (server.archive.save entries) = .ok entries)
    (sound : client.Sound server addr ua) : (client.after server v).Sound server addr ua := by
  by_cases failed : v.Failed
  · have held : (client.after server v).held = client.held := visits.answered.held_of_failed failed client
    have last : (client.after server v).last = client.last := if_pos failed
    unfold Client.Sound at sound ⊢
    rw [last, held]
    exact sound
  · rcases visits.answered.used failed with ⟨c₁, uses, keeps, headers⟩
    have none : setCookies c₁.res = [] := by
      rw [uses.headers, setCookies, show v.start.res = v.res from rfl, visits.answered.fresh.headers,
        List.filter_nil]
    have held : (client.after server v).held =
        keepCookie v.env.cfg.sessCookie (c₁.res.cookies.map setCookieHeader) client.held := by
      rw [keepCookie_eq, headers, none, List.nil_append, visits.same.cfg]
    have named' : CookieName v.env.cfg.sessCookie := by
      rw [visits.same.cfg]
      exact named
    have empty : v.start.res.cookies = [] := visits.answered.fresh.cookies
    generalize made : v.use = use at uses
    cases uses with
    | none alike =>
        have last : (client.after server v).last = client.last := by simp [Client.after, failed, made]
        rw [alike.cookies, empty] at held
        unfold Client.Sound at sound ⊢
        rw [last, held]
        exact sound
    | signOut alike =>
        have last : (client.after server v).last = Option.none := by simp [Client.after, failed, made]
        have leads : Leads v.env client.held c₁.res.cookies [] := by
          refine Or.inr ⟨?_, List.not_mem_nil⟩
          rw [alike.cookies]
          simp [Response.deleteCookie, empty, NameValue.assign]
        unfold Client.Sound
        rw [last, held, leads.keepCookie named']
    | @calls c₀ c₂ _ s calls same res constructed alike =>
        have last : (client.after server v).last = some (lastSession calls s) := by
          simp [Client.after, failed, made]
        have carried := construct_carried constructed (res ▸ empty) (visits.remoteAddr same)
            (visits.agent same)
          fun s₀ loads => visits.loaded named roundTrip sound same loads
        have puts : ∀ name value, .put name value ∈ calls →
            name ≠ bytes "last_ip" ∧ name ≠ bytes "last_ua" := by
          rw [made] at keeps
          exact keeps
        rcases performAll_carried carried puts with ⟨cookie, leads, shows⟩
        rw [← alike.cookies] at leads
        rw [performAll_session] at shows
        unfold Client.Sound
        rw [last, held, leads.keepCookie named']
        exact (Shows.of_same visits.same).mp shows

/-- Over every journey the client is sound. -/
theorem Journey.sound (journey : Journey server table addr ua client)
    (named : CookieName server.cfg.sessCookie)
    (roundTrip : ∀ entries, server.archive.load (server.archive.save entries) = .ok entries) :
    client.Sound server addr ua := by
  induction journey with
  | start => rfl
  | visit journey visits ih => exact visits.sound named roundTrip ih

end Step

/-- Every answer over the routing table that is no internal error comes about by a handler's use of the
    session. -/
theorem routes_answersBy {env : Env} {c c' : Ctx} {trace : List (Event DbCall Reply)} (fresh : c.res.Fresh)
    (runs : (handleRequest env (routes env)).Runs c trace (.ok ()) c')
    (succeeded : c'.res.status ≠ some .internalServerError) : ∃ use, AnswersBy env c use c' := by
  have empty : setCookies c.res = [] := by
    rw [setCookies, fresh.headers, List.filter_nil]
  have spec : (handleRequest env (routes env)).Ensures c fun trace r c' =>
      r = .ok () ∧ Handled (routes env) (fun uri => HandlerSpec env uri c) c trace c' :=
    handleRequest_handled empty fresh.cookies fun route member => routes_spec env route member c
  cases (spec.runs runs).2 with
  | stock headers cookies =>
      refine ⟨.none, c, .none (.refl c.res), fun name value put => absurd put List.not_mem_nil, ?_⟩
      rw [headers, empty, fresh.cookies]
      rfl
  | failed selected left res =>
      rw [res] at succeeded
      exact absurd rfl succeeded
  | @routed uri trace c₁ c' selected left cookies headers status =>
      rcases left.uses rfl with ⟨use, uses, keeps, -⟩
      exact ⟨use, c₁, uses, keeps, headers⟩

/-- After every journey, a session that is constructed shows what the session showed at the end of the last
    visit that constructed one and was not answered with an internal error, up to the two entries that
    `update` rewrites, and an internal error leaves what the client holds. -/
theorem session_travels {server : Env} {table : Env → List Route} {addr ua : Bytes}
    (roundTrip : ∀ entries, server.archive.load (server.archive.save entries) = .ok entries)
    (named : CookieName server.cfg.sessCookie) {client : Client}
    (journey : Journey server table addr ua client) {v : Visit}
    (visits : Visits server table addr ua client v) :
    (∀ s, client.last = some s → ∀ c₀, SameRequest v.start c₀ →
      ∃ s' c₁, Session.construct v.env c₀ = (.ok s', c₁) ∧
        ∀ name, name ≠ bytes "sess_id" → name ≠ bytes "last_tm" → (s'.get name).1 = (s.get name).1) ∧
      (v.Failed → (client.after server v).held = client.held) := by
  refine ⟨?_, fun failed => visits.answered.held_of_failed failed client⟩
  intro s last c₀ same
  have sound := journey.sound named roundTrip
  unfold Client.Sound at sound
  rw [last] at sound
  rcases visits.loads named roundTrip last sound same with ⟨h, loads, entries, -, -⟩
  rcases construct_of_loads loads with ⟨s', c₁, constructed, shows⟩
  exact ⟨s', c₁, constructed, fun name sessId lastTm => (shows name sessId lastTm).trans (entries name)⟩

/-! ### Two visits -/

/-- A visit whose answer is the one of the databases. -/
def Visit.against (mysql : Mysql) (world : World) (env : Env) (endpoint : Endpoint) (received req : Request)
    (use : Use) :
    Visit :=
  let ran := (handleRequest env (routes env)).exec (serve mysql) ⟨req, {}⟩ world
  ⟨env, endpoint, received, req, {}, use, ran.2.2, ran.1.2⟩

section Against

variable {mysql : Mysql} {world : World} {env : Env} {endpoint : Endpoint} {received req : Request}

/-- The visit is answered as its use says. -/
theorem answered_of_against {use : Use} (bare : received.cookies = [])
    (prepared : prepare endpoint received = .ok req)
    (used : ¬ (Visit.against mysql world env endpoint received req use).Failed →
      AnswersBy env ⟨req, {}⟩ use (Visit.against mysql world env endpoint received req use).c') :
    (Visit.against mysql world env endpoint received req use).Answered routes where
  bare := bare
  prepared := prepared
  fresh := Response.fresh_default
  runs := handleRequest_runs mysql world env (routes env) Response.fresh_default
  used := used

/-- Every request that `do_read` gives to the handler is answered with some use of the session. -/
theorem exists_answered_of_against (bare : received.cookies = [])
    (prepared : prepare endpoint received = .ok req) :
    ∃ use, (Visit.against mysql world env endpoint received req use).Answered routes := by
  have runs := handleRequest_runs mysql world env (routes env) (c := ⟨req, {}⟩) Response.fresh_default
  by_cases failed : (Visit.against mysql world env endpoint received req .none).Failed
  · exact ⟨.none, answered_of_against bare prepared fun succeeded => absurd failed succeeded⟩
  · rcases routes_answersBy Response.fresh_default runs failed with ⟨use, answers⟩
    exact ⟨use, answered_of_against bare prepared fun _ => answers⟩

end Against

/-- A server that archives sessions and digests them. -/
private def travelServer : Env := { bareEnv with md5 := Md5.md5, archive := textArchive }

/-- Three databases with a forum table each. -/
private def travelWorld : World := ⟨List.replicate 3 ⟨[], none, some []⟩, []⟩

/-- A request to the performance test, without a cookie. -/
private def testReceived : Request where
  uri := bytes "/dir/performance/test"
  headers := [⟨bytes "User-Agent", bytes "a"⟩]

/-- The request as the handler gets it. -/
private def testRequest : Request where
  remoteAddr := bytes "127.0.0.1"
  connectionOption := 'K'.toUInt8
  uri := bytes "/dir/performance/test"
  headers := [⟨bytes "User-Agent", bytes "a"⟩, ⟨bytes "Connection", []⟩, ⟨bytes "Cookie", []⟩]
  restParams := [bytes "dir", bytes "performance", bytes "test"]

/-- What the handler of the test is left with by the constructor. -/
private def created : Session × Ctx :=
  Session.create travelServer ((⟨testRequest, {}⟩ : Ctx).readCookie travelServer.cfg.sessCookie)

/-- The calls of the test. -/
private def testCalls : List SessionCall :=
  [.put (bytes "userid") (bytes "test"), .get (bytes "userid"), .get (bytes "username")]

/-- The visit of the performance test. -/
private def testVisit : Visit :=
  .against plainMysql travelWorld travelServer ⟨bytes "127.0.0.1",
    0⟩ testReceived testRequest (.calls created.1 testCalls)

/-- The client after it. -/
private def testClient : Client := ({} : Client).after travelServer testVisit

/-- A request to the forum, with the cookie that the client holds. -/
private def forumReceived : Request where
  uri := bytes "/_/dir/forum/index"
  headers :=
    [⟨bytes "User-Agent", bytes "a"⟩,
      ⟨bytes "Cookie", travelServer.cfg.sessCookie ++ bytes "=" ++ testClient.held⟩]

/-- The request as the handler gets it. -/
private def forumRequest : Request where
  remoteAddr := bytes "127.0.0.1"
  connectionOption := 'K'.toUInt8
  uri := bytes "/_/dir/forum/index"
  headers := forumReceived.headers ++ [⟨bytes "Connection", []⟩]
  cookies := [⟨travelServer.cfg.sessCookie, testClient.held⟩]
  restParams := [bytes "_", bytes "dir", bytes "forum", bytes "index"]

/-- The first visit is answered. -/
private theorem testVisit_answered : testVisit.Answered routes := by
  apply answered_of_against rfl (by decide +kernel)
  intro _
  have constructed : Session.construct travelServer ⟨testRequest, {}⟩ = (.ok created.1, created.2) := rfl
  refine ⟨(performAll travelServer testCalls created).2, .calls (.refl _) rfl constructed (.refl _), ?_, ?_⟩
  · intro name value put
    simp only [Use.made, testCalls, List.mem_cons, List.not_mem_nil, or_false, SessionCall.put.injEq,
      reduceCtorEq] at put
    rcases put with ⟨rfl, -⟩
    decide
  · decide +kernel

/-- It is a journey. -/
private theorem journey_of_test :
    Journey travelServer routes (bytes "127.0.0.1") (bytes "a") testClient := by
  apply Journey.visit .start
  refine ⟨⟨rfl, rfl, rfl⟩, rfl, by decide, .nothing rfl (by decide), ?_, testVisit_answered⟩
  intro s last
  cases last

/-- The visit of the forum. -/
private def forumVisit (use : Use) : Visit :=
  .against plainMysql travelWorld travelServer ⟨bytes "127.0.0.1", 0⟩ forumReceived forumRequest use

/-- The second visit is the client's. -/
private theorem forumVisit_visits {use : Use} (answered : (forumVisit use).Answered routes) :
    Visits travelServer routes (bytes "127.0.0.1") (bytes "a") testClient (forumVisit use) := by
  refine ⟨⟨rfl, rfl, rfl⟩, rfl, rfl, ?_, ?_, answered⟩
  · have cut : (NameValue.valueOf forumReceived.headers (bytes "Cookie")).splitOn ';'.toUInt8 =
        [] ++ ([] ++ travelServer.cfg.sessCookie ++ bytes "=" ++ testClient.held) :: [] := by
      decide +kernel
    exact .piece (List.forall_mem_nil _) cut (List.forall_mem_nil _)
  · intro s last
    have same : testClient.last = some (lastSession testCalls created.1) := by decide +kernel
    have recent : ¬ travelServer.cfg.expirySec <
        Double.difftime travelServer.clock.atLoad (lastSession testCalls created.1).lastTm := by
      decide +kernel
    rw [← Option.some.inj (same.symm.trans last)]
    exact recent

/-- The session that the test made is there at the request to the forum. -/
theorem session_travels_forum : ∃ use,
    (∀ s, testClient.last = some s → ∀ c₀, SameRequest (forumVisit use).start c₀ →
        ∃ s' c₁, Session.construct (forumVisit use).env c₀ = (.ok s', c₁) ∧
          ∀ name, name ≠ bytes "sess_id" → name ≠ bytes "last_tm" → (s'.get name).1 = (s.get name).1) ∧
      ((forumVisit use).Failed →
        (testClient.after travelServer (forumVisit use)).held = testClient.held) := by
  have prepared : prepare ⟨bytes "127.0.0.1", 0⟩ forumReceived = .ok forumRequest := by decide +kernel
  rcases exists_answered_of_against rfl prepared with ⟨use, answered⟩
  have named : CookieName travelServer.cfg.sessCookie := ⟨by decide, by decide, by decide +kernel⟩
  exact ⟨use, session_travels textArchive_load_save named journey_of_test (forumVisit_visits answered)⟩

end Waspp
