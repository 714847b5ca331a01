/-
Module: Waspp.Proofs.SessionDescent
Layer: Proofs
Purpose: Where signed-in sessions come from.  A run is any list of requests, of any clients, each answered
  by `handle_request` over the routing table with any replies of the databases; a request presents a
  session cookie that was issued earlier in the run, or one that the server does not take.  A signed-in
  cookie that is issued goes back, through sessions loaded, to a request that `auth` found a row for or to
  the performance test, which signs in as well.
Imports: Waspp.Proofs.AccessControl, Waspp.Proofs.SessionUse, Waspp.Foundation.Md5
Trusted boundary: none (fully proved)
Main exports: Exchange, Run, SignedIn, Descends, signed_in_descends, test_signs_in
Open obligations: none
-/
import Waspp.Proofs.AccessControl
import Waspp.Proofs.SessionUse
import Waspp.Foundation.Md5

namespace Waspp

open CString Interaction

/-! ### Runs

Exchanges with one site in the order in which they took place, each with the cookie it presented and what
the server issued. -/

/-- A request with its answer: the environment of the request, the request and the response that the handler
    is given, the calls of the databases and what is left. -/
structure Exchange where
  env : Env
  c : Ctx
  trace : List (Event DbCall Reply)
  c' : Ctx

namespace Exchange

variable (x : Exchange)

/-- The exchange is one of `handle_request`, with a response that is new. -/
structure Answered : Prop where
  fresh : x.c.res.Fresh
  runs : (handleRequest x.env (routes x.env)).Runs x.c x.trace (.ok ()) x.c'

/-- The session cookie that the request presents. -/
def cookie : Bytes := presented x.env x.c

/-- The response tells the client to keep this session cookie. -/
def Issues (cookie : Bytes) : Prop := setCookieHeader ⟨x.env.cfg.sessCookie, cookie⟩ ∈ x.c'.res.headers

/-- The path of the route that the request selects. -/
def route : Option Bytes := selectedUri (routes x.env) x.c.req

/-- The request is one to `auth`, which found a row of its username and its password. -/
def FindsRow : Prop := x.route = some authUri ∧ FoundRow x.env x.c x.trace

/-- The request is one to the performance test. -/
def Tests : Prop := x.route = some testUri

/-- The request is one that signs in. -/
def SignsIn : Prop := x.FindsRow ∨ x.Tests

/-- The handler was given rows of the forum. -/
def GivesRows : Prop := ∃ pool rows, ⟨.selectForum pool, .ok rows⟩ ∈ x.trace

end Exchange

/-- The runs of a server, the last exchange first. -/
inductive Run (server : Env) : List Exchange → Prop where
  | nil : Run server []
  | cons {past : List Exchange} {x : Exchange} (run : Run server past) (same : SameSite server x.env)
      (answered : x.Answered) (cookie : (∃ y ∈ past, y.Issues x.cookie) ∨ ∀ s, ¬ Loads x.env x.c s) :
      Run server (x :: past)

/-- A cookie that archives a session with a `userid`. -/
def SignedIn (env : Env) (cookie : Bytes) : Prop :=
  cookie ≠ [] ∧ ∃ entries, env.archive.load (percentDecode (Session.payload cookie)) = .ok entries ∧
    NameValue.valueOf entries (bytes "userid") ≠ []

/-- The session of an exchange goes back to an origin, through sessions loaded from cookies that exchanges of
    the past issued. -/
inductive Descends (origin : Exchange → Prop) : List Exchange → Exchange → Prop where
  | origin {past : List Exchange} {x : Exchange} (here : origin x) : Descends origin past x
  | loaded {later earlier : List Exchange} {x y : Exchange} {s : Session} (loads : Loads x.env x.c s)
      (issued : y.Issues x.cookie) (descends : Descends origin earlier y) :
      Descends origin (later ++ y :: earlier) x

/-! ### What one exchange does

The cookies that an exchange sets are those of sessions.  Where one has a user, the exchange signed in, or
its own session had a user before. -/

section Step

variable {env : Env} {origin : Prop}

/-- Cookies of sessions that have a `userid` only from an origin, and cookies that are deleted. -/
def OnlySessions (env : Env) (origin : Prop) (cookies : List NameValue) : Prop :=
  ∀ cookie ∈ cookies, cookie.name = env.cfg.sessCookie ∧ (cookie.value = [] ∨
    ∃ s : Session, cookie.value = s.cookieValue env ∧
    (NameValue.valueOf s.entries (bytes "userid") ≠ [] → origin))

/-- Deleting the cookie leaves cookies of sessions. -/
theorem OnlySessions.deleteCookie {res : Response} (only : OnlySessions env origin res.cookies) :
    OnlySessions env origin (res.deleteCookie env.cfg.sessCookie).cookies := by
  intro cookie member
  rcases NameValue.mem_assign member with before | rfl
  · exact only cookie before
  · exact ⟨rfl, Or.inl rfl⟩

theorem OnlySessions.serializeAndSet {s : Session} {c : Ctx} (only : OnlySessions env origin c.res.cookies)
    (user : NameValue.valueOf s.entries (bytes "userid") ≠ [] → origin) :
    OnlySessions env origin (s.serializeAndSet env c).res.cookies := by
  intro cookie member
  rcases NameValue.mem_assign member with before | rfl
  · exact only cookie before
  · exact ⟨rfl, Or.inr ⟨s, rfl, user⟩⟩

/-- A put keeps the origin of a `userid`, when it puts none or has an origin of its own. -/
theorem OnlySessions.put {s : Session} {c : Ctx} (name value : Bytes)
    (only : OnlySessions env origin c.res.cookies)
    (user : NameValue.valueOf s.entries (bytes "userid") ≠ [] → origin)
    (new : name = bytes "userid" → origin) :
    (NameValue.valueOf (s.put env name value c).1.entries (bytes "userid") ≠ [] → origin) ∧
      OnlySessions env origin (s.put env name value c).2.res.cookies := by
  have shown : NameValue.valueOf (s.put env name value c).1.entries (bytes "userid") ≠ [] → origin := by
    rw [valueOf_put]
    split
    · rename_i same
      exact fun _ => new same
    · exact user
  exact ⟨shown, only.serializeAndSet shown⟩

theorem performAll_onlySessions {calls : List SessionCall} {s : Session} {c : Ctx}
    (only : OnlySessions env origin c.res.cookies)
    (user : NameValue.valueOf s.entries (bytes "userid") ≠ [] → origin)
    (new : ∀ value, .put (bytes "userid") value ∈ calls → origin) :
    OnlySessions env origin (performAll env calls (s, c)).2.res.cookies := by
  induction calls generalizing s c with
  | nil => exact only
  | cons call rest ih =>
      have newRest (value : Bytes) (member : .put (bytes "userid") value ∈ rest) : origin :=
        new value (List.mem_cons_of_mem _ member)
      cases call with
      | get name =>
          have shown : NameValue.valueOf (s.get name).2.entries (bytes "userid") ≠ [] → origin := by
            intro present
            rw [Session.get, NameValue.valueOf_ensure] at present
            exact user present
          exact ih only shown newRest
      | put name value =>
          have kept := only.put name value user fun same => new value (same ▸ List.mem_cons_self ..)
          exact ih kept.2 kept.1 newRest

/-- A session that is constructed has the `userid` of the session that the request presents. -/
theorem construct_onlySessions {c c₁ : Ctx} {s : Session}
    (constructed : Session.construct env c = (.ok s, c₁)) (none : c.res.cookies = [])
    (loaded : ∀ s₀, Loads env c s₀ → NameValue.valueOf s₀.entries (bytes "userid") ≠ [] → origin) :
    (NameValue.valueOf s.entries (bytes "userid") ≠ [] → origin) ∧
    OnlySessions env origin c₁.res.cookies := by
  have empty : OnlySessions env origin c.res.cookies := by
    rw [none]
    exact List.forall_mem_nil _
  have outcome := construct_cases env c
  rw [constructed] at outcome
  cases outcome with
  | @creates c' readable refused same res =>
      have only : OnlySessions env origin c'.res.cookies := by
        rcases res with kept | deleted
        · rw [kept]
          exact empty
        · rw [deleted]
          exact empty.deleteCookie
      have unknown : NameValue.valueOf (Session.create env c').1.entries (bytes "userid") = [] := rfl
      have user : NameValue.valueOf (Session.create env c').1.entries (bytes "userid") ≠ [] → origin := by
        intro present
        exact absurd unknown present
      exact ⟨user, only.serializeAndSet user⟩
  | @updates s₀ c' loads same res =>
      have user₀ := loaded s₀ loads
      have only : OnlySessions env origin c'.res.cookies := by
        rw [res]
        exact empty
      have user : NameValue.valueOf (s₀.update env c').1.entries (bytes "userid") ≠ [] → origin := by
        rw [valueOf_update env s₀ c' (by decide) (by decide)]
        exact user₀
      refine ⟨user, ?_⟩
      unfold Session.update
      split
      · exact only
      · have one := only.put (bytes "sess_id") (md5Digest env (env.uuid ++ c'.req.remoteAddr)) user₀
          fun same => absurd same (by decide)
        have two := one.2.put (bytes "last_tm") (Session.currTm env) one.1 fun same =>
            absurd same (by decide)
        exact two.2.serializeAndSet two.1

/-- The cookies that a use of the session leaves. -/
theorem Uses.onlySessions {c c' : Ctx} {use : Use} (uses : Uses env c use c') (none : c.res.cookies = [])
    (loaded : ∀ s₀, Loads env c s₀ → NameValue.valueOf s₀.entries (bytes "userid") ≠ [] → origin)
    (new : use.PutsUserid → origin) : OnlySessions env origin c'.res.cookies := by
  have empty : OnlySessions env origin c.res.cookies := by
    rw [none]
    exact List.forall_mem_nil _
  cases uses with
  | none alike =>
      rw [alike.cookies]
      exact empty
  | signOut alike =>
      rw [alike.cookies]
      exact empty.deleteCookie
  | calls same res constructed alike =>
      rw [alike.cookies]
      rcases construct_onlySessions constructed (res ▸ none) fun s₀ loads =>
          loaded s₀ (loads.of_same env same) with
        ⟨user, only⟩
      exact performAll_onlySessions only user fun value member => new ⟨value, member⟩

end Step

/-- The headers that set cookies tell cookies of one name apart. -/
theorem setCookieHeader_inj {name one two : Bytes}
    (same : setCookieHeader ⟨name, one⟩ = setCookieHeader ⟨name, two⟩) :
    one = two := by
  have values := congrArg NameValue.value same
  simpa [setCookieHeader] using values

section Exchange

variable {x : Exchange}

/-- What comes out of an exchange, from what its handler is known to leave. -/
theorem Exchange.Answered.handled (answered : x.Answered) :
    Handled (routes x.env) (fun uri => HandlerSpec x.env uri x.c) x.c x.trace x.c' := by
  have headers : setCookies x.c.res = [] := by
    rw [setCookies, answered.fresh.headers, List.filter_nil]
  have spec : (handleRequest x.env (routes x.env)).Ensures x.c fun trace r c' =>
      r = .ok () ∧ Handled (routes x.env) (fun uri => HandlerSpec x.env uri x.c) x.c trace c' :=
    handleRequest_handled headers answered.fresh.cookies fun route member =>
      routes_spec x.env route member x.c
  exact (spec.runs answered.runs).2

/-- A session with a `userid` that an exchange loads from its cookie. -/
theorem signedIn_of_loads {env : Env} {c : Ctx} {s : Session} (loads : Loads env c s)
    (user : NameValue.valueOf s.entries (bytes "userid") ≠ []) : SignedIn env (presented env c) := by
  refine ⟨?_, s.entries, loads.archived, user⟩
  intro empty
  have long := loads.long
  rw [empty] at long
  exact absurd long (by decide)

/-- A signed-in cookie that an exchange issues has its origin in the exchange, or in the cookie that it
    presents. -/
theorem issued_signedIn (answered : x.Answered)
    (roundTrip : ∀ entries, x.env.archive.load (x.env.archive.save entries) = .ok entries) {cookie : Bytes}
    (issued : x.Issues cookie) (signedIn : SignedIn x.env cookie) :
    x.SignsIn ∨ ∃ s, Loads x.env x.c s ∧ SignedIn x.env x.cookie := by
  have set : setCookieHeader ⟨x.env.cfg.sessCookie, cookie⟩ ∈ setCookies x.c'.res :=
    List.mem_filter.mpr ⟨issued, by simp [isSetCookie, setCookieHeader]⟩
  have handled := answered.handled
  generalize calls : x.trace = trace at handled
  cases handled with
  | stock headers cookies =>
      rw [headers] at set
      cases set
  | failed selected spec res =>
      rw [res, setCookies_staticResponse] at set
      cases set
  | @routed uri _ c₁ _ selected spec cookies headers status =>
      rcases spec.uses rfl with ⟨use, uses, -, puts⟩
      have none : setCookies c₁.res = [] := by
        rw [uses.headers, setCookies, answered.fresh.headers, List.filter_nil]
      rw [headers, none, List.nil_append] at set
      rcases List.mem_map.mp set with ⟨entry, member, same⟩
      have new (put : use.PutsUserid) :
          x.SignsIn ∨ ∃ s, Loads x.env x.c s ∧ SignedIn x.env x.cookie := by
        rcases puts put with rfl | ⟨rfl, found⟩
        · exact Or.inl (Or.inr selected)
        · exact Or.inl (Or.inl ⟨selected, calls ▸ found⟩)
      have only := uses.onlySessions answered.fresh.cookies
        (fun s₀ loads user => Or.inr ⟨s₀, loads, signedIn_of_loads loads user⟩) new
      rcases entry with ⟨name, value⟩
      rcases only _ member with ⟨rfl, content⟩
      cases setCookieHeader_inj same
      rcases signedIn with ⟨nonempty, entries, archived, user⟩
      rcases content with deleted | ⟨s, written, origin⟩
      · exact absurd deleted nonempty
      · rw [show cookie = s.cookieValue x.env from written, archived_cookieValue roundTrip] at archived
        cases archived
        exact origin user

/-- A handler is given rows of the forum for the performance test, or for a signed-in cookie that is
    presented. -/
theorem givesRows_signedIn (answered : x.Answered) (gives : x.GivesRows) :
    x.Tests ∨ ∃ s, Loads x.env x.c s ∧ SignedIn x.env x.cookie := by
  rcases gives with ⟨pool, rows, member⟩
  have spec {uri : Bytes} {r : Except Exn Unit} {c₁ : Ctx} (selected : x.route = some uri)
      (spec : HandlerSpec x.env uri x.c x.trace r c₁) : x.Tests ∨ ∃ s, Loads x.env x.c s ∧
        SignedIn x.env x.cookie := by
    rcases spec.rows pool rows member with rfl | ⟨s, c₂, constructed, user⟩
    · exact Or.inl selected
    · refine Or.inr ((construct_onlySessions constructed answered.fresh.cookies ?_).1 user)
      intro s₀ loads user₀
      exact ⟨s₀, loads, signedIn_of_loads loads user₀⟩
  have handled := answered.handled
  generalize calls : x.trace = trace at handled
  cases handled with
  | stock headers cookies =>
      rw [calls] at member
      cases member
  | failed selected left res => exact spec selected (calls ▸ left)
  | routed selected left cookies headers status => exact spec selected (calls ▸ left)

end Exchange

/-! ### Runs of any length

By induction from the end: a signed-in cookie was issued by an exchange that signs in or by one that
presented a signed-in cookie. -/

/-- Sites with the same keys take the same cookies. -/
theorem signedIn_of_same {server env : Env} (same : SameSite server env) {cookie : Bytes} :
    SignedIn env cookie ↔ SignedIn server cookie := by
  rw [SignedIn, SignedIn, same.archive]

/-- In every run, a signed-in cookie that is issued descends from a request that signs in, and a handler is
    given rows of the forum only for the performance test and for a cookie that descends from a request that
    signs in. -/
theorem signed_in_descends {server : Env}
    (roundTrip : ∀ entries, server.archive.load (server.archive.save entries) = .ok entries)
    {run : List Exchange}
    (valid : Run server run) {later past : List Exchange} {x : Exchange} (split : run = later ++ x :: past) :
    (∀ cookie, x.Issues cookie → SignedIn server cookie → Descends Exchange.SignsIn past x) ∧
      (x.GivesRows → x.Tests ∨ ∃ mid y earlier, past = mid ++ y :: earlier ∧ y.Issues x.cookie ∧
        SignedIn server x.cookie ∧ Descends Exchange.SignsIn earlier y) := by
  induction valid generalizing later past x with
  | nil => simp at split
  | @cons older newest run same answered cookie ih =>
      rcases later with - | ⟨first, later⟩
      · rcases List.cons.inj split with ⟨rfl, rfl⟩
        -- a signed-in cookie that is presented and loaded was issued by an exchange of the past
        have presented_ (s : Session) (loads : Loads newest.env newest.c s)
            (signedIn : SignedIn newest.env newest.cookie) :
            ∃ mid y earlier, older = mid ++ y :: earlier ∧ y.Issues newest.cookie ∧
            SignedIn server newest.cookie ∧ Descends Exchange.SignsIn earlier y := by
          rcases cookie with ⟨y, member, issued⟩ | rejected
          · rcases List.append_of_mem member with ⟨mid, earlier, rfl⟩
            have signedIn' := (signedIn_of_same same).mp signedIn
            exact ⟨mid, y, earlier, rfl, issued, signedIn', (ih rfl).1 _ issued signedIn'⟩
          · exact absurd loads (rejected s)
        constructor
        · intro issuedCookie issued signedIn
          have origin := issued_signedIn answered (same.archive ▸ roundTrip) issued
            ((signedIn_of_same same).mpr signedIn)
          rcases origin with here | ⟨s, loads, signedIn⟩
          · exact .origin here
          · rcases presented_ s loads signedIn with ⟨mid, y, earlier, rfl, issued, -, descends⟩
            exact .loaded loads issued descends
        · intro gives
          rcases givesRows_signedIn answered gives with tests | ⟨s, loads, signedIn⟩
          · exact Or.inl tests
          · exact Or.inr (presented_ s loads signedIn)
      · exact ih (List.cons.inj split).2

/-! ### The performance test signs in -/

/-- The exchange of a request with databases that answer. -/
def Exchange.against (mysql : Mysql) (world : World) (env : Env) (c : Ctx) : Exchange :=
  let ran := (handleRequest env (routes env)).exec (serve mysql) c world
  ⟨env, c, ran.2.2, ran.1.2⟩

/-- The exchange is answered. -/
theorem answered_against (mysql : Mysql) (world : World) (env : Env) {c : Ctx} (fresh : c.res.Fresh) :
    (Exchange.against mysql world env c).Answered :=
  ⟨fresh, handleRequest_runs mysql world env (routes env) fresh⟩

/-- A server that archives sessions and digests them. -/
private def siteServer : Env := { bareEnv with md5 := Md5.md5, archive := textArchive }

/-- Three databases with a forum table each. -/
private def siteWorld : World := ⟨List.replicate 3 ⟨[], none, some []⟩, []⟩

/-- The session that the performance test makes. -/
private def testSession : Session :=
  ⟨[⟨bytes "sess_id", md5Digest siteServer []⟩, ⟨bytes "last_tm", bytes "0"⟩, ⟨bytes "last_ip", []⟩,
    ⟨bytes "last_ua", []⟩, ⟨bytes "userid", bytes "test"⟩]⟩

/-- A request to the performance test, without a cookie. -/
private def testExchange : Exchange :=
  .against plainMysql siteWorld siteServer ⟨{ uri := bytes "/dir/performance/test" }, {}⟩

/-- A request to the forum with the cookie of that session. -/
private def forumExchange : Exchange :=
  .against plainMysql siteWorld siteServer
    ⟨{ uri := bytes "/_/dir/forum/index"
       cookies := [⟨siteServer.cfg.sessCookie, testSession.cookieValue siteServer⟩] }, {}⟩

/-- The performance test issues a cookie. -/
private theorem testExchange_issues : testExchange.Issues (testSession.cookieValue siteServer) := by
  unfold Exchange.Issues
  decide +kernel

/-- The cookie is signed in. -/
private theorem testSession_signedIn : SignedIn siteServer (testSession.cookieValue siteServer) := by
  refine ⟨?_, testSession.entries, archived_cookieValue textArchive_load_save _, by decide⟩
  intro empty
  have long := length_cookieValue siteServer testSession
  rw [empty] at long
  exact absurd long (by decide)

/-- The test alone is a run. -/
private theorem run_of_test : Run siteServer [testExchange] := by
  apply Run.cons .nil ⟨rfl, rfl, rfl⟩ (answered_against _ _ _ Response.fresh_default)
  right
  intro s loads
  exact absurd loads.long (by decide)

private theorem run_of_forum : Run siteServer [forumExchange, testExchange] := by
  apply Run.cons run_of_test ⟨rfl, rfl, rfl⟩ (answered_against _ _ _ Response.fresh_default)
  exact Or.inl ⟨testExchange, List.mem_singleton_self _, testExchange_issues⟩

/-- The performance test issues a signed-in cookie that descends from no request that `auth` found a row for.
    -/
theorem test_signs_in : ∃ x cookie, Run siteServer [x] ∧ x.Issues cookie ∧ SignedIn siteServer cookie ∧
    ¬ Descends Exchange.FindsRow [] x := by
  refine ⟨testExchange, _, run_of_test, testExchange_issues, testSession_signedIn, ?_⟩
  intro descends
  generalize past : ([] : List Exchange) = none at descends
  cases descends with
  | origin found =>
      have tested : testExchange.route = some testUri := by decide +kernel
      have other : testUri ≠ authUri := by decide
      exact other (Option.some.inj (tested.symm.trans found.1))
  | loaded => simp at past

/-- The test, and then a request to the forum with the cookie that it issued. -/
theorem signed_in_descends_test :
    (∀ cookie, forumExchange.Issues cookie → SignedIn siteServer cookie →
        Descends Exchange.SignsIn [testExchange] forumExchange) ∧
      (forumExchange.GivesRows → forumExchange.Tests ∨
        ∃ mid y earlier, [testExchange] = mid ++ y :: earlier ∧ y.Issues forumExchange.cookie ∧
          SignedIn siteServer forumExchange.cookie ∧ Descends Exchange.SignsIn earlier y) :=
  signed_in_descends textArchive_load_save run_of_forum
    (show [forumExchange, testExchange] = [] ++ forumExchange :: [testExchange] from rfl)

end Waspp
