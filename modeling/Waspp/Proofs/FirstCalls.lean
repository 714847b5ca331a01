/-
Module: Waspp.Proofs.FirstCalls
Layer: Proofs
Purpose: Which requests come to a database, and what becomes of them.  A request is read up to the
  connection that its handler asks for and the statement that it prepares first, which `opening` computes
  from the request alone.  A handler that has prepared a statement destroys it twice when it leaves, so the
  requests on which a running server returns are those that come to no pool that is missing and to no
  statement that is prepared.
Imports: Waspp.Model.Scopes, Waspp.Proofs.Ownership, Waspp.Proofs.AccessControl, Waspp.Proofs.Dispatch,
  Waspp.Proofs.SessionUse, Waspp.Proofs.ForumVisibility
Trusted boundary: none (fully proved)
Main exports: Opening, opening, Begins, routes_begin, handleRequest_begins, ScopeKept, StatementMade,
  runDefined_iff, BreaksOff, scopedHandler_cases, scopedHandler_returns_iff
Open obligations: none
-/
import Waspp.Model.Scopes
import Waspp.Proofs.Ownership
import Waspp.Proofs.AccessControl
import Waspp.Proofs.Dispatch
import Waspp.Proofs.SessionUse
import Waspp.Proofs.ForumVisibility

namespace Waspp

open CString Interaction

variable (env : Env)

/-! ### What a request begins with

Five of the fourteen handlers call a database.  Each constructs one `scoped_db`, and prepares a statement
right behind it; whether it comes to that depends on the parameters and on the session that the request
presents. -/

/-- The construction of a `scoped_db`, and the statement that is prepared first on its connection. -/
structure Opening where
  pick : Pick
  first : DbCall
  statement : first.picks = none

/-- The `userid` in the session that is constructed for a request, when it is constructed. -/
def sessionUserid (c : Ctx) : Option Bytes :=
  match (Session.construct env c).1 with
  | .ok s => some (NameValue.valueOf s.entries (bytes "userid"))
  | .error _ => none

/-- `dir_forum::index_jsonp`, for a signed-in user. -/
def indexOpening (c : Ctx) : Option Opening :=
  match sessionUserid env c with
  | some userid => if userid.isEmpty then none else some ⟨.dbname dbEtc, .countForum dbEtc, rfl⟩
  | none => none

/-- `dir_performance::test`, on a session that can be constructed. -/
def testOpening (c : Ctx) : Option Opening :=
  let pick : Pick := .shardKey env.cfg.dbShardCount (bytes "db_etc")
  (sessionUserid env c).map fun _ => ⟨pick, .countForum pick.pool, rfl⟩

/-- `dir_forum::post`, for a signed-in user who gives a title and a content: a key for a new row, or the
    update. -/
def forumPostOpening (c : Ctx) : Option Opening :=
  let pick : Pick := .shardKey env.cfg.dbShardCount (bytes "db_etc")
  let title := c.paramValue (bytes "title")
  let content := c.paramValue (bytes "content")
  let seqText := c.paramValue (bytes "seq")
  let seq := if seqText.isEmpty then 0 else strtoul seqText
  match sessionUserid env c with
  | some useridText =>
      if useridText.isEmpty ∨ title.isEmpty ∨ content.isEmpty then none
      else if seq = 0 then some ⟨pick, .uniqueKeys pick.pool (bytes "forum") 1, rfl⟩
      else
        some ⟨pick, .updateForum pick.pool title content (c.paramValue (bytes "username")) env.sqlNow seq
          (strtoul useridText), rfl⟩
  | none => none

/-- `dir_user::auth`, with a username and a password: the shard is that of the parameter `userid`. -/
def authOpening (c : Ctx) : Option Opening :=
  let pick : Pick := .shardKey env.cfg.dbShardCount (c.paramValue (bytes "userid"))
  let username := c.paramValue (bytes "username")
  if username.isEmpty ∨ (c.paramValue (bytes "passwd")).isEmpty then none
  else some ⟨pick, .selectUserid pick.pool username, rfl⟩

/-- `dir_user::post`, with its parameters and the password typed twice. -/
def userPostOpening (c : Ctx) : Option Opening :=
  let username := c.paramValue (bytes "username")
  let passwd := c.paramValue (bytes "passwd")
  let pick : Pick := .shardKey env.cfg.dbShardCount username
  if (c.paramValue (bytes "platformid")).isEmpty ∨ (c.paramValue (bytes "platformtype")).isEmpty ∨
      username.isEmpty ∨ passwd.isEmpty ∨ passwd ≠ c.paramValue (bytes "retypepasswd") then none
  else some ⟨pick, .selectUserid pick.pool username, rfl⟩

/-- What the handler of a route begins with. -/
def openingAt (uri : Bytes) (c : Ctx) : Option Opening :=
  if uri = bytes "/_/dir/forum/index/" then indexOpening env c
  else if uri = bytes "/dir/forum/post/" then forumPostOpening env c
  else if uri = bytes "/dir/user/auth/" then authOpening env c
  else if uri = bytes "/dir/user/post/" then userPostOpening env c
  else if uri = bytes "/dir/performance/test/" then testOpening env c
  else none

/-- The uri of the route that answers a request: the access lists let it through, its path is accepted, and a
    route begins it. -/
def routedUri (req : Request) : Option Bytes :=
  if PassesCheck env req.remoteAddr then
    match percentDecodeAndValidate req.uri with
    | none => none
    | some requestUri =>
        if requestUri.isEmpty || requestUri.head? ≠ some '/'.toUInt8
          || (find requestUri (bytes "..") 0).isSome then none
        else selectedUri (routes env) req
  else none

/-- What a request begins with: `none` for one that is answered without a database. -/
def opening (c : Ctx) : Option Opening := (routedUri env c.req).bind fun uri => openingAt env uri c

/-- The calls are none, or the connection is asked for, and when it is had the first statement is run; what
    fails is the last call. -/
inductive Begins : Option Opening → List (Event DbCall Reply) → Prop where
  | silent : Begins none []
  | refused {o : Opening} (e : Exn) : Begins (some o) [⟨.checkout o.pick, .error e⟩]
  | stopped {o : Opening} (e : Exn) : Begins (some o) [⟨.checkout o.pick, .ok ()⟩, ⟨o.first, .error e⟩]
  | goesOn {o : Opening} (answer : Answer o.first) (rest : List (Event DbCall Reply)) :
      Begins (some o) (⟨.checkout o.pick, .ok ()⟩ :: ⟨o.first, .ok answer⟩ :: rest)

variable {env} {α : Type} {c : Ctx}

/-! ### The handlers

A handler is followed up to its first statement; whatever it does behind that is one of the runs. -/

/-- The action begins with these calls. -/
def Opens (o : Option Opening) (m : Act α) (c : Ctx) : Prop := m.Ensures c fun trace _ _ => Begins o trace

/-- An action that asks nothing. -/
theorem Leaves.opens {m : Act α} (leaves : Leaves (fun _ => False) m) (c : Ctx) : Opens none m c := by
  apply (leaves c).mono
  intro trace r c' left
  have silent : trace = [] := List.eq_nil_iff_forall_not_mem.mpr left.2
  rw [silent]
  exact .silent

/-- Reading a parameter makes no call. -/
theorem opens_param {o : Option Opening} {name : Bytes} {f : Bytes → Act α} :
    Opens o (Act.param name >>= f) c ↔ Opens o (f (c.paramValue name)) (c.readParam name) :=
  Act.ensures_param_bind

/-- A statement, and whatever follows it. -/
theorem ensures_first {q q₁ : DbCall} (same : q₁ = q) {f : Answer q₁ → Act α} :
    (Act.db q₁ >>= f).Ensures c fun later _ _ =>
      (∃ e, later = [⟨q, .error e⟩]) ∨ ∃ answer rest, later = ⟨q, .ok answer⟩ :: rest := by
  subst same
  apply Act.ensures_db_bind.mpr
  refine ⟨fun e => Or.inl ⟨e, rfl⟩, fun answer => ?_⟩
  exact Action.ensures_of_forall fun rest _ _ => Or.inr ⟨answer, rest, rfl⟩

/-- A connection, whatever is read of the request, and a statement. -/
theorem opens_checkout {pick : Pick} {q : DbCall} {isStatement : q.picks = none} {next : Act α}
    (statement : next.Ensures c fun later _ _ =>
      (∃ e, later = [⟨q, .error e⟩]) ∨ ∃ answer rest, later = ⟨q, .ok answer⟩ :: rest) :
    Opens (some ⟨pick, q, isStatement⟩) (Act.db (.checkout pick) >>= fun _ => next) c := by
  apply Act.ensures_db_bind.mpr
  refine ⟨fun e => .refused e, fun _ => ?_⟩
  apply statement.mono
  rintro later r c' (⟨e, rfl⟩ | ⟨answer, rest, rfl⟩)
  · exact @Begins.stopped ⟨pick, q, isStatement⟩ e
  · exact @Begins.goesOn ⟨pick, q, isStatement⟩ answer rest

/-- An action behind a session: nothing is asked when the session cannot be constructed. -/
theorem opens_session {o : Option Opening} {f : Session → Act α}
    (unreadable : sessionUserid env c = none → o = none)
    (next : ∀ s c₁, Session.construct env c = (.ok s, c₁) → Opens o (f s) c₁) :
    Opens o (Act.session env >>= f) c := by
  apply ensures_session_bind
  · intro e c₁ constructed
    rw [unreadable (by rw [sessionUserid, constructed])]
    exact .silent
  · exact next

/-- A session that was constructed tells the user. -/
theorem sessionUserid_of_constructed {s : Session} {c₁ : Ctx}
    (constructed : Session.construct env c = (.ok s, c₁)) :
    sessionUserid env c = some (NameValue.valueOf s.entries (bytes "userid")) := by
  rw [sessionUserid, constructed]

/-- A page makes no call. -/
theorem html_opens (file : Bytes) : Opens none (DirForum.html env file) c := by
  apply opens_session (fun _ => rfl)
  intro s c₁ constructed
  apply (Action.ensures_ite _).mpr
  refine ⟨fun _ => Leaves.opens (.redirectTo _) c₁, fun _ => ?_⟩
  apply Leaves.opens
  apply Leaves.bind (.getFile _)
  intro _
  apply Leaves.bind (.getFile _)
  intro _
  apply Leaves.bind .setJsonp
  intro _
  apply Leaves.bind (.getFile _)
  intro _
  exact .pure _

theorem paramsJsonp_opens : Opens none (DirForum.paramsJsonp env) c := by
  apply opens_session (fun _ => rfl)
  intro s c₁ constructed
  apply (Action.ensures_ite _).mpr
  refine ⟨fun _ => Leaves.opens (.writeJsonp _) c₁, fun _ => ?_⟩
  apply Leaves.opens
  apply Leaves.get
  intro c
  exact .writeJsonp _

/-- The index of the forum begins with the number of its rows. -/
theorem indexJsonp_opens : Opens (indexOpening env c) (DirForum.indexJsonp env) c := by
  apply opens_session
  · intro unreadable
    simp [indexOpening, unreadable]
  · intro s c₁ constructed
    rw [indexOpening, sessionUserid_of_constructed constructed]
    apply (Action.ensures_ite _).mpr
    constructor
    · intro signedOut
      simp only [if_pos signedOut]
      exact Leaves.opens (.writeJsonp _) c₁
    · intro signedIn
      simp only [if_neg signedIn]
      apply Action.ensures_get_bind.mpr
      exact opens_checkout (ensures_first rfl)

theorem test_opens : Opens (testOpening env c) (DirPerformance.test env) c := by
  apply opens_session
  · intro unreadable
    simp [testOpening, unreadable]
  · intro s c₁ constructed
    rw [testOpening, sessionUserid_of_constructed constructed]
    apply ensures_put_bind.mpr
    apply Action.ensures_get_bind.mpr
    exact opens_checkout (ensures_first rfl)

/-- An error message makes no call. -/
theorem errMsg_opens (errCode : ErrorType) : Opens none (errMsg env errCode) c :=
  Leaves.opens (.errMsg errCode) c

/-- A sign-in begins with the look-up of the user. -/
theorem auth_opens : Opens (authOpening env c) (DirUser.auth env) c := by
  unfold authOpening DirUser.auth
  apply opens_param.mpr
  apply (Action.ensures_ite _).mpr
  constructor
  · intro unnamed
    rw [if_pos (Or.inl unnamed)]
    exact errMsg_opens _
  intro named
  apply opens_param.mpr
  apply (Action.ensures_ite _).mpr
  constructor
  · intro empty
    rw [if_pos (Or.inr (by simpa using empty))]
    exact errMsg_opens _
  intro given
  rw [Ctx.paramValue_readParam] at given
  rw [if_neg (not_or.mpr ⟨named, given⟩)]
  apply opens_param.mpr
  apply opens_param.mpr
  simp only [Ctx.paramValue_readParam]
  apply opens_checkout
  apply Act.ensures_param_bind.mpr
  exact ensures_first (by simp only [Ctx.paramValue_readParam])

theorem userPost_opens : Opens (userPostOpening env c) (DirUser.post env) c := by
  unfold userPostOpening DirUser.post
  apply opens_param.mpr
  apply (Action.ensures_ite _).mpr
  constructor
  · intro empty
    rw [if_pos (Or.inl empty)]
    exact errMsg_opens _
  intro platformid
  apply opens_param.mpr
  rw [Ctx.paramValue_readParam]
  apply (Action.ensures_ite _).mpr
  constructor
  · intro empty
    rw [if_pos (Or.inr (Or.inl empty))]
    exact errMsg_opens _
  intro platformtype
  apply opens_param.mpr
  simp only [Ctx.paramValue_readParam]
  apply (Action.ensures_ite _).mpr
  constructor
  · intro empty
    rw [if_pos (Or.inr (Or.inr (Or.inl empty)))]
    exact errMsg_opens _
  intro username
  apply opens_param.mpr
  simp only [Ctx.paramValue_readParam]
  apply (Action.ensures_ite _).mpr
  constructor
  · intro empty
    rw [if_pos (Or.inr (Or.inr (Or.inr (Or.inl empty))))]
    exact errMsg_opens _
  intro passwd
  apply opens_param.mpr
  apply opens_param.mpr
  simp only [Ctx.paramValue_readParam]
  apply (Action.ensures_ite _).mpr
  constructor
  · intro differ
    rw [if_pos (Or.inr (Or.inr (Or.inr (Or.inr differ))))]
    exact errMsg_opens _
  intro same
  rw [if_neg (by simp only [not_or]; exact ⟨platformid, platformtype, username, passwd, same⟩)]
  apply opens_param.mpr
  apply opens_param.mpr
  simp only [Ctx.paramValue_readParam]
  apply opens_checkout
  apply Act.ensures_param_bind.mpr
  exact ensures_first (by simp only [Ctx.paramValue_readParam])

/-- A post begins with a key for a new row, or with the update of one. -/
theorem forumPost_opens : Opens (forumPostOpening env c) (DirForum.post env) c := by
  apply opens_session
  · intro unreadable
    simp [forumPostOpening, unreadable]
  intro s c₁ constructed
  rw [forumPostOpening, sessionUserid_of_constructed constructed]
  simp only [← construct_params constructed]
  apply (Action.ensures_ite _).mpr
  constructor
  · intro (signedOut : (NameValue.valueOf s.entries (bytes "userid")).isEmpty = true)
    rw [if_pos (Or.inl signedOut)]
    exact Leaves.opens (.redirectTo _) c₁
  intro (signedIn : ¬ (NameValue.valueOf s.entries (bytes "userid")).isEmpty = true)
  apply opens_param.mpr
  apply opens_param.mpr
  simp only [Ctx.paramValue_readParam]
  apply (Action.ensures_ite _).mpr
  constructor
  · intro untitled
    rw [if_pos (Or.inr (Or.inl untitled))]
    exact errMsg_opens _
  intro titled
  apply opens_param.mpr
  simp only [Ctx.paramValue_readParam]
  apply (Action.ensures_ite _).mpr
  constructor
  · intro empty
    rw [if_pos (Or.inr (Or.inr empty))]
    exact errMsg_opens _
  intro filled
  rw [if_neg (not_or.mpr ⟨signedIn, not_or.mpr ⟨titled, filled⟩⟩)]
  by_cases new :
    (if (c₁.paramValue (bytes "seq")).isEmpty then 0 else strtoul (c₁.paramValue (bytes "seq"))) = 0
  · simp only [if_pos new]
    exact opens_checkout (ensures_first rfl)
  · simp only [if_neg new]
    apply opens_checkout
    apply Act.ensures_param_bind.mpr
    apply Act.ensures_param_bind.mpr
    apply Act.ensures_param_bind.mpr
    exact ensures_first (by simp only [Ctx.paramValue_readParam]; rfl)

/-- A sign-out makes no call. -/
theorem signout_opens : Opens none (DirUser.signout env) c := by
  apply Action.ensures_modify_bind.mpr
  exact .silent

/-- Every route begins with what is said of its uri. -/
theorem routes_begin : ∀ route ∈ routes env, ∀ c, Opens (openingAt env route.uri c) route.func c := by
  simp only [routes, List.mem_cons, List.not_mem_nil, or_false, forall_eq_or_imp, forall_eq]
  have none_ {uri : Bytes} {m : Act Unit} {c : Ctx} (other : openingAt env uri c = none)
      (opens : Opens none m c) :
      Opens (openingAt env uri c) m c := other ▸ opens
  refine ⟨fun _ => none_ rfl (html_opens _), fun _ => indexJsonp_opens, fun _ => none_ rfl (html_opens _),
    fun _ => none_ rfl paramsJsonp_opens, fun _ => none_ rfl (html_opens _),
    fun _ => none_ rfl paramsJsonp_opens,
    fun c => none_ rfl (Leaves.opens (.pure _) c), fun _ => forumPost_opens,
    fun c => none_ rfl (Leaves.opens (.page _) c), fun _ => auth_opens,
    fun c => none_ rfl (Leaves.opens (.page _) c), fun _ => userPost_opens, fun _ => none_ rfl signout_opens,
    fun _ => test_opens⟩

/-! ### The whole request -/

/-- Filling in the response makes no call. -/
theorem fillResponse_silent (c : Ctx) : (fillResponse env).Ensures c fun trace _ _ => trace = [] :=
  (fillResponse_setCookies env c).mono fun _ _ _ filled => filled.1

/-- A path that no route begins is selected for none. -/
theorem selectedUri_of_getFunc_none {table : List Route} {req : Request} {requestUri : Bytes}
    (decoded : percentDecodeAndValidate req.uri = some requestUri)
    (missing : getFunc table requestUri = none) :
    selectedUri table req = none := by
  rw [selectedUri, decoded, Option.bind_some, Option.map_eq_none_iff.mp missing]
  rfl

/-- What is in the try block begins as the routed handler does. -/
theorem tryRequest_begins (c : Ctx) :
    (tryRequest env (routes env)).Ensures c fun trace _ _ => Begins (opening env c) trace := by
  have stock {status : StatusType} (unrouted : opening env c = none) :
      (respondStatic status).Ensures c fun trace _ _ => Begins (opening env c) trace := by
    rw [unrouted]
    exact .silent
  unfold tryRequest
  apply Action.ensures_get_bind.mpr
  split
  · rename_i refused
    have closed : ¬ PassesCheck env c.req.remoteAddr := by
      rintro ⟨granted, denied⟩
      simp [granted, denied] at refused
    exact stock (by rw [opening, routedUri, if_neg closed]; rfl)
  rename_i passes
  replace passes : PassesCheck env c.req.remoteAddr := by simpa [PassesCheck] using passes
  cases decoded : percentDecodeAndValidate c.req.uri with
  | none => exact stock (by rw [opening, routedUri, if_pos passes, decoded]; rfl)
  | some requestUri =>
      simp only
      split
      · rename_i bad
        exact stock (by rw [opening, routedUri, if_pos passes, decoded]; simp only [if_pos bad]; rfl)
      rename_i good
      have routed : routedUri env c.req = selectedUri (routes env) c.req := by
        rw [routedUri, if_pos passes, decoded]
        exact if_neg good
      cases found : getFunc (routes env) requestUri with
      | none =>
          have unrouted : opening env c = none := by
            rw [opening, routed, selectedUri_of_getFunc_none decoded found]
            rfl
          simp only [unrouted]
          apply Action.ensures_bind.mpr
          apply (Action.ensures_lift _).mpr
          rcases readFile env requestUri c.res with ⟨served, res⟩
          cases served with
          | false => exact .silent
          | true =>
              apply (fillResponse_silent _).mono
              rintro trace r c' rfl
              exact .silent
      | some func =>
          rcases getFunc_selected decoded found with ⟨route, member, rfl, selected⟩
          have same : opening env c = openingAt env route.uri c := by
            rw [opening, routed, selected]
            rfl
          rw [same]
          apply Action.ensures_bind.mpr
          apply (routes_begin route member c).mono
          intro trace r c' begins
          cases r with
          | error e => exact begins
          | ok done =>
              apply (fillResponse_silent _).mono
              rintro later r c' rfl
              rwa [List.append_nil]

/-- A request begins with what `opening` says. -/
theorem handleRequest_begins (c : Ctx) :
    (handleRequest env (routes env)).Ensures c fun trace _ _ => Begins (opening env c) trace := by
  apply Action.ensures_recover.mpr
  apply (tryRequest_begins c).mono
  intro trace r c' begins
  cases r with
  | ok done => exact begins
  | error e =>
      apply (Action.ensures_modify _).mpr
      rwa [List.append_nil]

/-! ### The objects of a handler

Whatever objects the owners of a handler and its connection still have when it leaves, both destroy
them.  So a run is defined, as far as objects go, only if none was made. -/

section Objects

open Mysqlpp

/-- The objects before the first call. -/
def noObjects : Scope := { conn := {}, next := 0, created := [], destroyed := [] }

/-- The owners that a handler has: none yet, one of a statement, or one of a statement and one of a result.
    -/
def OwnersShaped (s : Scope) : Prop :=
  s.owners = [] ∨ (∃ p, s.owners = [.stmtPtr p]) ∨ ∃ p q, s.owners = [.stmtPtr p, .rsPtr q]

/-- A handler that started without objects, between two calls. -/
structure ScopeKept (s : Scope) : Prop where
  ledger : s.Ledger {}
  shaped : OwnersShaped s

/-- At its start a handler holds nothing. -/
theorem scopeKept_noObjects : ScopeKept noObjects := ⟨.start {}, Or.inl rfl⟩

/-- The next statement finds its owner. -/
theorem ScopeKept.prepareNext {s : Scope} (kept : ScopeKept s) :
    ∃ s', prepareNext s = some s' ∧ ScopeKept s' ∧ s'.owners ≠ [] ∧ s'.created ≠ [] := by
  have stepped {s' : Scope} (step : Waspp.prepareNext s = some s') (shaped : OwnersShaped s')
      (owner : s'.owners ≠ [])
      (created : s'.created ≠ []) : ∃ s', Waspp.prepareNext s = some s' ∧ ScopeKept s' ∧ s'.owners ≠ [] ∧
        s'.created ≠ [] :=
    ⟨s', step, ⟨kept.ledger.step step, shaped⟩, owner, created⟩
  rcases kept.shaped with none_ | ⟨p, one⟩ | ⟨p, q, two⟩
  · exact stepped (by simp [Waspp.prepareNext, Scope.step, Scope.give, none_]; rfl)
      (Or.inr (Or.inl ⟨some s.next, by simp⟩)) (by simp) (by simp)
  · exact stepped (by simp [Waspp.prepareNext, Scope.step, Scope.give, one]; rfl)
      (Or.inr (Or.inl ⟨some s.next, by simp⟩)) (by simp) (by simp)
  · exact stepped (by simp [Waspp.prepareNext, Scope.step, Scope.give, two]; rfl)
      (Or.inr (Or.inr ⟨some s.next, q, by simp⟩)) (by simp) (by simp)

/-- And so does the next result, once there is a statement. -/
theorem ScopeKept.queryNext {s : Scope} (kept : ScopeKept s) (owner : s.owners ≠ []) :
    ∃ s', queryNext s = some s' ∧ ScopeKept s' ∧ s'.created ≠ [] := by
  have stepped {s' : Scope} (step : Waspp.queryNext s = some s') (shaped : OwnersShaped s')
      (created : s'.created ≠ []) :
      ∃ s', Waspp.queryNext s = some s' ∧ ScopeKept s' ∧ s'.created ≠ [] :=
    ⟨s', step, ⟨kept.ledger.step step, shaped⟩, created⟩
  rcases kept.shaped with none_ | ⟨p, one⟩ | ⟨p, q, two⟩
  · exact absurd none_ owner
  · exact stepped (by simp [Waspp.queryNext, Scope.step, Scope.give, one]; rfl)
      (Or.inr (Or.inr ⟨p, some s.next, by simp⟩)) (by simp)
  · exact stepped (by simp [Waspp.queryNext, Scope.step, Scope.give, two]; rfl)
      (Or.inr (Or.inr ⟨p, some s.next, by simp⟩)) (by simp)

/-- The call is a statement that has been prepared. -/
def StatementMade (fails : Stage) (e : Event DbCall Reply) : Prop :=
  e.1.picks = none ∧ stageOf fails e ≠ .prepare

/-- A prepared statement is an object of the handler, and no other call makes one. -/
theorem ScopeKept.objectsOf {s : Scope} (kept : ScopeKept s) (fails : Stage) (e : Event DbCall Reply) :
    ∃ s', objectsOf fails s e = some s' ∧ ScopeKept s' ∧ (StatementMade fails e → s'.created ≠ []) ∧
      (¬ StatementMade fails e → s' = s) := by
  unfold Waspp.objectsOf
  cases picks : e.1.picks with
  | some pick =>
      exact ⟨s, rfl, kept, fun prepared => by simp [StatementMade, picks] at prepared, fun _ => rfl⟩
  | none =>
      rcases kept.prepareNext with ⟨s₁, first, kept₁, owner, created⟩
      cases stage : stageOf fails e with
      | prepare => exact ⟨s, rfl, kept, fun prepared => absurd stage prepared.2, fun _ => rfl⟩
      | query =>
          exact ⟨s₁, first, kept₁, fun _ => created,
            fun unprepared => absurd ⟨picks, by simp [stage]⟩ unprepared⟩
      | fetch =>
          have prepared : StatementMade fails e := ⟨picks, by simp [stage]⟩
          by_cases queries : e.1.queries = true
          · rcases kept₁.queryNext owner with ⟨s₂, second, kept₂, created₂⟩
            exact ⟨s₂, by simp [queries, first, second], kept₂, fun _ => created₂, fun unprepared =>
              absurd prepared unprepared⟩
          · exact ⟨s₁, by simp [queries, first], kept₁, fun _ => created,
              fun unprepared => absurd prepared unprepared⟩

/-- All calls of a run: the handler has objects exactly if it has prepared a statement. -/
theorem ScopeKept.objectsOf_all {s : Scope} (kept : ScopeKept s) (fails : Stage)
    (trace : List (Event DbCall Reply)) :
    ∃ s', trace.foldlM (Waspp.objectsOf fails) s = some s' ∧ ScopeKept s' ∧
      ((s.created ≠ [] ∨ ∃ e ∈ trace, StatementMade fails e) → s'.created ≠ []) ∧
      ((∀ e ∈ trace, ¬ StatementMade fails e) → s' = s) := by
  induction trace generalizing s with
  | nil => exact ⟨s, rfl, kept, fun some_ => some_.elim id (by simp), fun _ => rfl⟩
  | cons e rest ih =>
      rcases kept.objectsOf fails e with ⟨s₁, step, kept₁, created, same⟩
      rcases ih kept₁ with ⟨s₂, steps, kept₂, created₂, same₂⟩
      refine ⟨s₂, by simp [step, steps], kept₂, ?_, ?_⟩
      · intro objects
        apply created₂
        by_cases prepared : StatementMade fails e
        · exact Or.inl (created prepared)
        · rw [same prepared]
          rcases objects with before | ⟨e', member, prepared'⟩
          · exact Or.inl before
          · rcases List.mem_cons.mp member with rfl | later
            · exact absurd prepared' prepared
            · exact Or.inr ⟨e', later, prepared'⟩
      · intro none_
        rw [List.forall_mem_cons] at none_
        rw [same₂ none_.2, same none_.1]

/-- A handler with objects destroys one twice when it leaves. -/
theorem ScopeKept.not_nodup {s : Scope} (kept : ScopeKept s) (created : s.created ≠ []) :
    ¬ s.leave.destroyed.Nodup := by
  intro once
  rcases List.exists_mem_of_ne_nil _ created with ⟨h, member⟩
  have twice := kept.ledger.leave rfl (fun _ => rfl) h
  have most := List.nodup_iff_count_le_one.mp once h
  have least := List.one_le_count_iff.mpr member
  omega

/-- A run is defined exactly if the pools that it picks are there and it prepares no statement. -/
theorem runDefined_iff (pools : Nat) (fails : Stage) (trace : List (Event DbCall Reply)) :
    RunDefined pools fails trace ↔
      (∀ e ∈ trace, ∀ pick ∈ e.1.picks, pick.Defined pools) ∧ ∀ e ∈ trace, ¬ StatementMade fails e := by
  rcases scopeKept_noObjects.objectsOf_all fails trace with ⟨s, steps, kept, created, same⟩
  have scope : scopeOf fails trace = some s := steps
  unfold RunDefined
  rw [scope]
  apply and_congr Iff.rfl
  constructor
  · intro nodup e member prepared
    exact kept.not_nodup (created (Or.inr ⟨e, member, prepared⟩)) (nodup s rfl)
  · rintro none_ s' ⟨⟩
    rw [same none_]
    decide

end Objects

/-! ### What a server returns on

The handler of a running server executes the request and then the uses of objects that its calls stand
for.  It returns exactly if no call throws where nothing catches it and no object is destroyed twice, and
by the sections before this is decided by how the request begins. -/

/-- What a request meets: it comes to a pool that is missing, or to a connection that it gets and a first
    statement that is prepared on it. -/
def BreaksOff (mysql : Mysql) (fails : Stage) (world : World) (env : Env) (c : Ctx) : Prop :=
  ∃ o ∈ opening env c, ¬ o.pick.Defined world.pools.length ∨
    (serve mysql (.checkout o.pick) world).1 = .ok () ∧
      StatementMade fails ⟨o.first, (serve mysql o.first (serve mysql (.checkout o.pick) world).2).1⟩

/-- The calls of a request are defined unless it breaks off. -/
theorem runDefined_iff_not_breaksOff {mysql : Mysql} {fails : Stage} {world : World} {c : Ctx}
    {trace : List (Event DbCall Reply)} (begins : Begins (opening env c) trace)
    (served : Program.Served (serve mysql) world trace) :
    RunDefined world.pools.length fails trace ↔ ¬ BreaksOff mysql fails world env c := by
  rw [runDefined_iff, BreaksOff]
  generalize opening env c = o at begins
  cases begins with
  | silent => simp
  | @refused o e =>
      have reply : (serve mysql (.checkout o.pick) world).1 = .error e := served.1.symm
      simp [StatementMade, reply]
  | @stopped o e =>
      have first : (serve mysql (.checkout o.pick) world).1 = .ok () := served.1.symm
      have second : (serve mysql o.first (serve mysql (.checkout o.pick) world).2).1 = .error e :=
        served.2.1.symm
      simp [StatementMade, first, second, o.statement, stageOf]
  | @goesOn o answer rest =>
      have first : (serve mysql (.checkout o.pick) world).1 = .ok () := served.1.symm
      have second : (serve mysql o.first (serve mysql (.checkout o.pick) world).2).1 = .ok answer :=
        served.2.1.symm
      have prepared : StatementMade fails ⟨o.first, .ok answer⟩ := ⟨o.statement, by simp [stageOf]⟩
      refine iff_of_false (fun defined => ?_) (fun fine => fine ⟨o, rfl, Or.inr ⟨first, second ▸ prepared⟩⟩)
      exact defined.2 ⟨o.first, .ok answer⟩ (by simp) prepared

/-- The handler of a running server returns, or comes to what the language does not define. -/
theorem scopedHandler_cases (mysql : Mysql) (fails : Nat → Stage) (server : Server) (req : Request)
    (res : Response) :
    (scopedHandler mysql fails routes server req res).1 = .ok () ∨
      (scopedHandler mysql fails routes server req res).1 = .error .undefinedBehaviour := by
  have ran :=
    handleRequest_ensures (server.envs server.served) (routes (server.envs server.served)) ⟨req, res⟩
  have returned := (ran.exec (serve mysql) server.world).1
  simp only [scopedHandler, requestHandler, returned]
  split
  · exact Or.inl rfl
  · exact Or.inr rfl

/-- The handler of a running server returns on a request exactly if it does not break off. -/
theorem scopedHandler_returns_iff (mysql : Mysql) (fails : Nat → Stage) (server : Server) (req : Request)
    (res : Response) :
    (scopedHandler mysql fails routes server req res).1 = .ok () ↔
      ¬ BreaksOff mysql (fails server.served) server.world (server.envs server.served) ⟨req, res⟩ := by
  have ran :=
    handleRequest_ensures (server.envs server.served) (routes (server.envs server.served)) ⟨req, res⟩
  have returned := (ran.exec (serve mysql) server.world).1
  have handled : (handleRequest (server.envs server.served) (routes (server.envs server.served))).Ensures
      ⟨req, res⟩
      fun trace _ _ => Begins (opening (server.envs server.served) ⟨req, res⟩) trace :=
        handleRequest_begins _
  have begins := handled.exec (serve mysql) server.world
  have served := Program.served_exec
    (handleRequest (server.envs server.served) (routes (server.envs server.served)) ⟨req, res⟩) (serve mysql)
      server.world
  rw [← runDefined_iff_not_breaksOff begins served]
  simp only [scopedHandler, requestHandler, returned]
  split
  · rename_i defined
    exact iff_of_true rfl defined
  · rename_i undefined
    exact iff_of_false (by simp) undefined

end Waspp
