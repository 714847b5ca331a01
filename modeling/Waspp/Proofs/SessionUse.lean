/-
Module: Waspp.Proofs.SessionUse
Layer: Proofs
Purpose: What the handlers of the routing table do with the session.  A handler that returns leaves the
  cookies of the response alone, deletes the session cookie, or constructs a session and goes through a
  list of gets and puts. Only `auth`, after it has found a row, and the performance test put a `userid`,
  and rows of the forum are read by the performance test and for a session with a `userid`.
Imports: Waspp.Proofs.Dispatch, Waspp.Proofs.SessionLoad
Trusted boundary: none (fully proved)
Main exports: SetsAlike, SessionCall, performAll, Use, Uses, Leaves, FoundRow, HandlerSpec, routes_spec
Open obligations: none
-/
import Waspp.Proofs.Dispatch
import Waspp.Proofs.SessionLoad

namespace Waspp

open CString Interaction

/-- The second response sets the cookies that the first one sets. -/
structure SetsAlike (res res' : Response) : Prop where
  cookies : res'.cookies = res.cookies
  headers : setCookies res' = setCookies res

/-- A response is alike to itself. -/
theorem SetsAlike.refl (res : Response) : SetsAlike res res := ⟨rfl, rfl⟩

theorem SetsAlike.trans {res res' res'' : Response} (one : SetsAlike res res') (two : SetsAlike res' res'') :
    SetsAlike res res'' :=
  ⟨two.cookies.trans one.cookies, two.headers.trans one.headers⟩

/-- A redirection sets no cookie. -/
theorem SetsAlike.redirectTo (res : Response) (url : Bytes) : SetsAlike res (res.redirectTo url) := by
  refine ⟨rfl, ?_⟩
  have refresh : isSetCookie ⟨bytes "Refresh", bytes "0; url=" ++ url⟩ = false := by
    simp only [isSetCookie]
    decide
  simp [setCookies, Response.redirectTo, refresh]

/-! ### Calls of a session -/

/-- A call of a session. -/
inductive SessionCall where
  | get (name : Bytes)
  | put (name value : Bytes)
deriving DecidableEq, Repr

variable (env : Env)

/-- The session and the response after a call. -/
def SessionCall.perform : SessionCall → Session × Ctx → Session × Ctx
  | .get name, (s, c) => ((s.get name).2, c)
  | .put name value, (s, c) => s.put env name value c

/-- The session and the response after a list of calls. -/
def performAll (calls : List SessionCall) (start : Session × Ctx) : Session × Ctx :=
  calls.foldl (fun sc call => call.perform env sc) start

/-- What a handler does with the session: nothing, it deletes the cookie, or it constructs a session and goes
    through a list of calls. -/
inductive Use where
  | none
  | signOut
  | calls (s : Session) (calls : List SessionCall)
deriving DecidableEq, Repr

/-- The calls of a use. -/
def Use.made : Use → List SessionCall
  | none => []
  | signOut => []
  | calls _ made => made

/-- From a request with its response, what the response sets comes about by the use. -/
inductive Uses (c : Ctx) : Use → Ctx → Prop where
  | none {c' : Ctx} (alike : SetsAlike c.res c'.res) : Uses c .none c'
  | signOut {c' : Ctx} (alike : SetsAlike (c.res.deleteCookie env.cfg.sessCookie) c'.res) :
      Uses c .signOut c'
  | calls {c₀ c₁ c' : Ctx} {s : Session} {calls : List SessionCall} (same : SameRequest c c₀)
      (res : c₀.res = c.res) (constructed : Session.construct env c₀ = (.ok s, c₁))
      (alike : SetsAlike (performAll env calls (s, c₁)).2.res c'.res) : Uses c (.calls s calls) c'

/-- Calls of a session set no header. -/
theorem performAll_headers (calls : List SessionCall) (s : Session) (c : Ctx) :
    (performAll env calls (s, c)).2.res.headers = c.res.headers := by
  induction calls generalizing s c with
  | nil => rfl
  | cons call rest ih =>
      cases call with
      | get name => exact ih _ c
      | put name value => exact ih _ (s.put env name value c).2

/-- A handler's use of the session sets no header by itself. -/
theorem Uses.headers {env : Env} {c c' : Ctx} {use : Use} (uses : Uses env c use c') :
    setCookies c'.res = setCookies c.res := by
  cases uses with
  | none alike => exact alike.headers
  | signOut alike => exact alike.headers
  | calls same res constructed alike =>
      rw [alike.headers, setCookies, performAll_headers, construct_headers env constructed, res, setCookies]

/-! ### Actions that use no session

Closed under what handlers are made of, so each of them is shown to leave the session along its text. -/

/-- The action leaves the cookies of the response alone and asks nothing else. -/
def Leaves {α : Type} (asks : DbCall → Prop) (m : Act α) : Prop :=
  ∀ c, m.Ensures c fun trace _ c' => SetsAlike c.res c'.res ∧ ∀ e ∈ trace, asks e.1

namespace Leaves

variable {env} {α β : Type} {asks : DbCall → Prop}

/-- A value leaves the session. -/
theorem pure (a : α) : Leaves asks (pure a : Act α) := fun c => ⟨.refl c.res, by simp⟩

theorem raise (e : Exn) : Leaves asks (Action.raise e : Act α) := fun c => ⟨.refl c.res, by simp⟩

/-- A local computation that sets cookies alike leaves the session. -/
theorem lift {f : Ctx → Except Exn α × Ctx} (alike : ∀ c, SetsAlike c.res (f c).2.res) :
    Leaves asks (Action.lift f : Act α) := fun c => ⟨alike c, by simp⟩

theorem bind {m : Act α} {f : α → Act β} (first : Leaves asks m) (next : ∀ a, Leaves asks (f a)) :
    Leaves asks (m >>= f) := by
  intro c
  apply Action.ensures_bind.mpr
  apply (first c).mono
  intro trace r c' left
  cases r with
  | error e => exact left
  | ok a =>
      apply (next a c').mono
      intro later r' last rest
      refine ⟨left.1.trans rest.1, ?_⟩
      intro e member
      rcases List.mem_append.mp member with before | after
      · exact left.2 e before
      · exact rest.2 e after

theorem get {f : Ctx → Act α} (next : ∀ c, Leaves asks (f c)) : Leaves asks (Action.get >>= f) :=
  bind (lift fun c => .refl c.res) next

theorem ite (p : Prop) [Decidable p] {m n : Act α} (yes : p → Leaves asks m) (no : ¬ p → Leaves asks n) :
    Leaves asks (if p then m else n) := by
  split
  · rename_i holds
    exact yes holds
  · rename_i fails
    exact no fails

theorem param (name : Bytes) : Leaves asks (Act.param name) := lift fun c => .refl c.res

theorem respond {f : Response → Response} (alike : ∀ res, SetsAlike res (f res)) :
    Leaves asks (Act.respond f) :=
  lift fun c => alike c.res

theorem redirectTo (url : Bytes) : Leaves asks (Act.redirectTo url) := respond fun res => .redirectTo res url

theorem getFile (path : Bytes) : Leaves asks (getFile env path) := by
  apply lift
  intro c
  simp only [readFile]
  split
  · exact ⟨rfl, rfl⟩
  · exact ⟨rfl, rfl⟩

theorem setJsonp : Leaves asks setJsonp := lift fun _ => ⟨rfl, rfl⟩

theorem db {q : DbCall} (asked : asks q) : Leaves asks (Act.db q) := by
  intro c
  unfold Act.db
  simp only [Action.ensures_bind, Action.ensures_ask]
  intro reply
  cases reply with
  | ok answer => exact ⟨.refl c.res, by simpa using asked⟩
  | error e => exact ⟨.refl c.res, by simpa using asked⟩

theorem writeJsonp (json : Ptree) : Leaves asks (writeJsonp env json) := by
  apply bind
  · unfold Act.writeJson
    split
    · exact pure _
    · exact raise _
  · intro text
    exact respond fun _ => ⟨rfl, rfl⟩

theorem errMsg (errCode : ErrorType) : Leaves asks (errMsg env errCode) := by
  refine bind (respond ?_) ?_
  · intro res
    exact ⟨rfl, rfl⟩
  intro _
  apply bind (getFile _)
  intro _
  refine bind (respond ?_) ?_
  · intro res
    exact ⟨rfl, rfl⟩
  intro _
  apply bind (getFile _)
  intro _
  exact respond fun _ => ⟨rfl, rfl⟩

theorem page (file : Bytes) : Leaves asks (DirUser.page env file) := by
  apply bind (getFile _)
  intro _
  apply bind (getFile _)
  intro _
  apply bind (getFile _)
  intro _
  exact pure _

/-- What follows from such an action, whatever it asks. -/
theorem ensures {m : Act α} (leaves : Leaves (fun _ => True) m) {c : Ctx}
    {Q : List (Event DbCall Reply) → Except Exn α → Ctx → Prop}
    (last : ∀ trace r c', SetsAlike c.res c'.res → Q trace r c') : m.Ensures c Q :=
  (leaves c).mono fun trace r c' left => last trace r c' left.1

end Leaves

/-! ### Actions behind a session

The constructor comes first and the handler's own calls follow, so the session that a use ends with is one
that was constructed. -/

section Session

variable {env} {α : Type} {f : Session → Act α} {c : Ctx} {P : List (Event DbCall Reply) → Except Exn α →
  Ctx → Prop}

/-- The rule of a session and what follows it. -/
theorem ensures_session_bind
    (throws : ∀ e c₁, Session.construct env c = (.error e, c₁) → P [] (.error e) c₁)
    (next : ∀ s c₁, Session.construct env c = (.ok s, c₁) → (f s).Ensures c₁ P) :
    (Act.session env >>= f).Ensures c P := by
  apply Action.ensures_bind.mpr
  unfold Act.session
  apply (Action.ensures_lift _).mpr
  generalize constructed : Session.construct env c = outcome
  rcases outcome with ⟨r, c₁⟩
  cases r with
  | error e => exact throws e c₁ constructed
  | ok s => exact next s c₁ constructed

/-- An entry is put without a call. -/
theorem ensures_put_bind {s : Session} {name value : Bytes} :
    (Act.put env s name value >>= f).Ensures c P ↔
    (f (s.put env name value c).1).Ensures (s.put env name value c).2 P :=
  Action.ensures_bind

end Session

/-! ### The handlers

What each of them ensures: which use it makes of the session, and under which user. -/

/-- The calls of the request found a row of its username and its password. -/
def FoundRow (c : Ctx) (trace : List (Event DbCall Reply)) : Prop :=
  ∃ (pool userid row : Nat) (rest more : List Nat),
    ⟨.selectUserid pool (c.paramValue (bytes "username")), .ok (userid :: rest)⟩ ∈ trace ∧
      ⟨.selectPasswd pool userid (md5Digest env (c.paramValue (bytes "passwd"))), .ok (row :: more)⟩ ∈ trace

/-- The path of `auth`. -/
def authUri : Bytes := bytes "/dir/user/auth/"

/-- The path of the performance test. -/
def testUri : Bytes := bytes "/dir/performance/test/"

/-- The use puts a `userid`. -/
def Use.PutsUserid (use : Use) : Prop := ∃ value, .put (bytes "userid") value ∈ use.made

/-- The use puts nothing under the names by which the server knows a client again. -/
def Use.KeepsClient (use : Use) : Prop :=
  ∀ name value, .put name value ∈ use.made → name ≠ bytes "last_ip" ∧ name ≠ bytes "last_ua"

/-- What the handler at a path leaves. -/
structure HandlerSpec (uri : Bytes) (c : Ctx) (trace : List (Event DbCall Reply)) (r : Except Exn Unit)
    (c' : Ctx) :
    Prop where
  uses : r = .ok () → ∃ use, Uses env c use c' ∧ use.KeepsClient ∧
    (use.PutsUserid → uri = testUri ∨ (uri = authUri ∧ FoundRow env c trace))
  rows : ∀ pool rows, ⟨.selectForum pool, .ok rows⟩ ∈ trace → uri = testUri ∨
    ∃ s c₁, Session.construct env c = (.ok s, c₁) ∧ NameValue.valueOf s.entries (bytes "userid") ≠ []

/-- The call reads no rows of the forum. -/
def NoRows (q : DbCall) : Prop := ∀ pool, q ≠ .selectForum pool

section Specs

variable {env} {uri : Bytes} {c : Ctx} {trace : List (Event DbCall Reply)} {r : Except Exn Unit} {c' : Ctx}

/-- Without such a call no rows are given. -/
theorem rows_of_noRows (none : ∀ e ∈ trace, NoRows e.1) {pool : Nat} {rows : List ForumRow}
    (member : ⟨.selectForum pool, .ok rows⟩ ∈ trace) {P : Prop} : P :=
  absurd rfl (none _ member pool)

/-- A use that puts nothing. -/
theorem uses_of_no_put {use : Use} {P : Prop} (uses : Uses env c use c')
    (none : ∀ name value, .put name value ∉ use.made) :
    ∃ use, Uses env c use c' ∧ use.KeepsClient ∧ (use.PutsUserid → P) :=
  ⟨use, uses, fun name value put => absurd put (none name value),
    fun ⟨value, put⟩ => absurd put (none _ value)⟩

/-- A handler that uses no session. -/
theorem handlerSpec_of_leaves {m : Act Unit} (leaves : Leaves NoRows m) :
    m.Ensures c (HandlerSpec env uri c) := by
  apply (leaves c).mono
  intro trace r c' left
  exact ⟨fun _ => uses_of_no_put (.none left.1) (by simp [Use.made]),
    fun _ _ member => rows_of_noRows left.2 member⟩

/-- A handler that puts nothing into the session that it constructs, and reads rows only for a session with a
    `userid`. -/
theorem session_spec (asks : Session → DbCall → Prop) {f : Session → Act Unit}
    (leaves : ∀ s, Leaves (asks s) (f s))
    (none : ∀ s, NameValue.valueOf s.entries (bytes "userid") = [] → ∀ q, asks s q → NoRows q) :
    (Act.session env >>= f).Ensures c (HandlerSpec env uri c) := by
  apply ensures_session_bind
  · intro e c₁ _
    exact ⟨by simp, by simp⟩
  · intro s c₁ constructed
    apply (leaves s c₁).mono
    intro trace r c' left
    constructor
    · intro _
      have uses : Uses env c (.calls s [.get (bytes "userid")]) c' := .calls (.refl c) rfl constructed left.1
      exact uses_of_no_put uses (by simp [Use.made])
    · intro pool rows member
      refine Or.inr ⟨s, c₁, constructed, ?_⟩
      intro empty
      exact none s empty _ (left.2 _ member) pool rfl

/-- A page of the forum. -/
theorem html_spec (file : Bytes) : (DirForum.html env file).Ensures c (HandlerSpec env uri c) := by
  apply session_spec fun _ => NoRows
  · intro s
    apply Leaves.ite
    · intro _
      exact .redirectTo _
    · intro _
      apply Leaves.bind (.getFile _)
      intro _
      apply Leaves.bind (.getFile _)
      intro _
      apply Leaves.bind .setJsonp
      intro _
      apply Leaves.bind (.getFile _)
      intro _
      exact .pure _
  · intro _ _ _ noRows
    exact noRows

/-- The index, which gives rows to a user only. -/
theorem indexJsonp_spec : (DirForum.indexJsonp env).Ensures c (HandlerSpec env uri c) := by
  apply session_spec fun s q => NameValue.valueOf s.entries (bytes "userid") = [] → NoRows q
  · intro s
    apply Leaves.ite
    · intro _
      exact .writeJsonp _
    · intro signedIn
      have any (q : DbCall) : NameValue.valueOf s.entries (bytes "userid") = [] → NoRows q := by
        intro empty
        exact absurd (by rw [List.isEmpty_iff]; exact empty) signedIn
      apply Leaves.get
      intro c
      apply Leaves.bind (.db (any _))
      intro _
      apply Leaves.bind (.db (any _))
      intro totalCount
      apply Leaves.bind (.db (any _))
      intro rows
      exact .writeJsonp _
  · intro s empty q noRows
    exact noRows empty

/-- The parameters. -/
theorem paramsJsonp_spec : (DirForum.paramsJsonp env).Ensures c (HandlerSpec env uri c) := by
  apply session_spec fun _ => NoRows
  · intro s
    apply Leaves.ite
    · intro _
      exact .writeJsonp _
    · intro _
      apply Leaves.get
      intro c
      exact .writeJsonp _
  · intro _ _ _ noRows
    exact noRows

/-- A post. -/
theorem forumPost_spec : (DirForum.post env).Ensures c (HandlerSpec env uri c) := by
  apply session_spec fun _ => NoRows
  · intro s
    apply Leaves.ite
    · intro _
      exact .redirectTo _
    intro _
    apply Leaves.bind (.param _)
    intro seqText
    apply Leaves.bind (.param _)
    intro title
    apply Leaves.ite
    · intro _
      exact .errMsg _
    intro _
    apply Leaves.bind (.param _)
    intro content
    apply Leaves.ite
    · intro _
      exact .errMsg _
    intro _
    apply Leaves.bind (.db (by simp [NoRows]))
    intro _
    apply Leaves.ite
    · intro _
      apply Leaves.bind (.db (by simp [NoRows]))
      intro lastKey
      apply Leaves.bind (.param _)
      intro title
      apply Leaves.bind (.param _)
      intro content
      apply Leaves.bind (.db (by simp [NoRows]))
      intro affectedRows
      apply Leaves.ite
      · intro _
        exact .errMsg _
      · intro _
        exact .redirectTo _
    · intro _
      apply Leaves.bind (.param _)
      intro title
      apply Leaves.bind (.param _)
      intro content
      apply Leaves.bind (.param _)
      intro username
      apply Leaves.bind (.db (by simp [NoRows]))
      intro _
      exact .redirectTo _
  · intro _ _ _ noRows
    exact noRows

/-- The insertion of a user uses no session. -/
theorem insert_leaves (md5Passwd : Bytes) (dbShard : Nat) :
    Leaves NoRows (DirUser.insert env md5Passwd dbShard) := by
  apply Leaves.bind (.db (by simp [NoRows]))
  intro lastKey
  apply Leaves.bind (.param _)
  intro username
  apply Leaves.bind (.param _)
  intro platformtype
  apply Leaves.bind (.db (by simp [NoRows]))
  intro affectedRows
  apply Leaves.ite
  · intro _
    exact .errMsg _
  · intro _
    exact .redirectTo _

theorem register_leaves (md5Passwd : Bytes) (dbShard : Pick) :
    Leaves NoRows (DirUser.register env md5Passwd dbShard) := by
  apply Leaves.bind (.db (by simp [NoRows]))
  intro _
  apply Leaves.bind (.param _)
  intro username
  apply Leaves.bind (.db (by simp [NoRows]))
  intro rs
  cases rs with
  | nil => exact insert_leaves _ _
  | cons userid rest => exact .errMsg _

theorem userPost_leaves : Leaves NoRows (DirUser.post env) := by
  apply Leaves.bind (.param _)
  intro platformid
  apply Leaves.ite
  · intro _
    exact .errMsg _
  intro _
  apply Leaves.bind (.param _)
  intro platformtype
  apply Leaves.ite
  · intro _
    exact .errMsg _
  intro _
  apply Leaves.bind (.param _)
  intro username
  apply Leaves.ite
  · intro _
    exact .errMsg _
  intro _
  apply Leaves.bind (.param _)
  intro passwd
  apply Leaves.ite
  · intro _
    exact .errMsg _
  intro _
  apply Leaves.bind (.param _)
  intro passwd
  apply Leaves.bind (.param _)
  intro retypepasswd
  apply Leaves.ite
  · intro _
    exact .errMsg _
  intro _
  apply Leaves.bind (.param _)
  intro passwd
  apply Leaves.bind (.param _)
  intro username
  exact register_leaves _ _

/-- A sign-out. -/
theorem signout_spec : (DirUser.signout env).Ensures c (HandlerSpec env uri c) := by
  apply Action.ensures_modify_bind.mpr
  apply (Action.ensures_modify _).mpr
  exact ⟨fun _ => uses_of_no_put (.signOut (.redirectTo _ _)) (by simp [Use.made]), by simp⟩

/-- The end of `auth` puts the `userid` and the username into the session that it constructs. -/
theorem signIn_ensures (userid : Nat) :
    (DirUser.signIn env userid).Ensures c fun trace r c' => trace = [] ∧ (r = .ok () →
      ∃ s c₁, Session.construct env c = (.ok s, c₁) ∧
        SetsAlike (performAll env
          [.put (bytes "userid") (toDecimal userid),
            .put (bytes "username") (c₁.paramValue (bytes "username"))]
          (s, c₁)).2.res c'.res) := by
  apply ensures_session_bind
  · intro e c₁ _
    exact ⟨rfl, by simp⟩
  · intro s c₁ constructed
    apply ensures_put_bind.mpr
    apply Act.ensures_param_bind.mpr
    apply ensures_put_bind.mpr
    exact ⟨rfl, fun _ => ⟨s, c₁, constructed, .redirectTo _ _⟩⟩

/-- An error page behind calls that read no rows. -/
theorem errMsg_spec (before : List (Event DbCall Reply)) (none : ∀ e ∈ before, NoRows e.1) {c₁ : Ctx}
    (res : c₁.res = c.res) (errCode : ErrorType) :
    (errMsg env errCode).Ensures c₁ fun later r last => HandlerSpec env uri c (before ++ later) r last := by
  have leaves : Leaves NoRows (errMsg env errCode) := .errMsg errCode
  apply (leaves c₁).mono
  intro later r last left
  have calls : ∀ e ∈ before ++ later, NoRows e.1 := by
    intro e member
    rcases List.mem_append.mp member with first | second
    · exact none e first
    · exact left.2 e second
  exact ⟨fun _ => uses_of_no_put (.none (res ▸ left.1)) (by simp [Use.made]),
    fun _ _ member => rows_of_noRows calls member⟩

/-- A call that throws, behind calls that read no rows. -/
theorem HandlerSpec.of_throws (none : ∀ e ∈ trace, NoRows e.1) {e : Exn} :
    HandlerSpec env uri c trace (.error e) c' :=
  ⟨by simp, fun _ _ member => rows_of_noRows none member⟩

/-- What follows a look-up: a sign-in if the password is right. -/
theorem lookUp_spec {c₀ : Ctx} (same : SameRequest c c₀) (res : c₀.res = c.res) (dbShard : Pick) :
    (DirUser.lookUp env (md5Digest env (c.paramValue (bytes "passwd"))) dbShard).Ensures c₀
      (HandlerSpec env authUri c) := by
  apply Act.ensures_db_bind.mpr
  refine ⟨fun e => .of_throws (by simp [NoRows]), fun _ => ?_⟩
  apply Act.ensures_param_bind.mpr
  apply Act.ensures_db_bind.mpr
  refine ⟨fun e => .of_throws (by simp [NoRows]), fun rs => ?_⟩
  cases rs with
  | nil =>
      apply errMsg_spec [⟨.checkout _, .ok ()⟩, ⟨.selectUserid _ _, .ok []⟩]
      · simp [NoRows]
      · exact res
  | cons userid rest =>
      apply Act.ensures_db_bind.mpr
      refine ⟨fun e => .of_throws (by simp [NoRows]), fun rs => ?_⟩
      cases rs with
      | nil =>
          apply errMsg_spec
            [⟨.checkout _, .ok ()⟩, ⟨.selectUserid _ _, .ok (userid :: rest)⟩, ⟨.selectPasswd _ _ _, .ok []⟩]
          · simp [NoRows]
          · exact res
      | cons row more =>
          apply (signIn_ensures userid).mono
          rintro later r last ⟨rfl, signsIn⟩
          refine ⟨fun done => ?_, fun _ _ member => absurd member (by simp)⟩
          rcases signsIn done with ⟨s, c₁, constructed, alike⟩
          refine ⟨_, .calls (same.trans (.readParam _ _)) res constructed alike, ?_,
            fun _ => Or.inr ⟨rfl, ?_⟩⟩
          · intro name value put
            simp only [Use.made, List.mem_cons, List.not_mem_nil, or_false, SessionCall.put.injEq] at put
            rcases put with ⟨rfl, -⟩ | ⟨rfl, -⟩
            · decide
            · decide
          refine ⟨dbShard.pool, userid, row, rest, more, ?_, ?_⟩
          · simp [same.params]
          · simp

/-- A sign-in. -/
theorem auth_spec : (DirUser.auth env).Ensures c (HandlerSpec env authUri c) := by
  have page (c₁ : Ctx) (errCode : ErrorType) (res : c₁.res = c.res) :
      (errMsg env errCode).Ensures c₁ (HandlerSpec env authUri c) :=
    errMsg_spec [] (by simp) res errCode
  apply Act.ensures_param_bind.mpr
  apply (Action.ensures_ite _).mpr
  refine ⟨fun _ => page _ _ rfl, fun _ => ?_⟩
  apply Act.ensures_param_bind.mpr
  apply (Action.ensures_ite _).mpr
  refine ⟨fun _ => page _ _ rfl, fun _ => ?_⟩
  apply Act.ensures_param_bind.mpr
  apply Act.ensures_param_bind.mpr
  simp only [Ctx.paramValue_readParam]
  apply lookUp_spec
  · exact (((SameRequest.readParam _ _).trans (.readParam _ _)).trans (.readParam _ _)).trans
      (.readParam _ _)
  · rfl

/-- The performance test, which signs in without a password. -/
theorem test_spec : (DirPerformance.test env).Ensures c (HandlerSpec env testUri c) := by
  apply ensures_session_bind
  · intro e c₁ _
    exact ⟨by simp, by simp⟩
  · intro s c₁ constructed
    apply ensures_put_bind.mpr
    apply Leaves.ensures
    · apply Leaves.get
      intro c
      apply Leaves.bind (.db trivial)
      intro _
      apply Leaves.bind (.db trivial)
      intro totalCount
      apply Leaves.bind (.db trivial)
      intro rows
      exact .writeJsonp _
    · intro trace r c' left
      refine ⟨fun _ => ⟨.calls s [.put (bytes "userid") (bytes "test"), .get (bytes "userid"),
        .get (bytes "username")],
        .calls (.refl c) rfl constructed left, ?_, fun _ => Or.inl rfl⟩, fun _ _ _ => Or.inl rfl⟩
      intro name value put
      simp only [Use.made, List.mem_cons, List.not_mem_nil, or_false, SessionCall.put.injEq,
        reduceCtorEq] at put
      rcases put with ⟨rfl, -⟩
      decide

end Specs

/-- Every handler of the routing table leaves what is said of its path. -/
theorem routes_spec : ∀ route ∈ routes env, ∀ c, route.func.Ensures c (HandlerSpec env route.uri c) := by
  simp only [routes, List.mem_cons, List.not_mem_nil, or_false, forall_eq_or_imp, forall_eq]
  exact ⟨fun _ => html_spec _, fun _ => indexJsonp_spec, fun _ => html_spec _, fun _ => paramsJsonp_spec,
    fun _ => html_spec _, fun _ => paramsJsonp_spec, fun _ => handlerSpec_of_leaves (.pure _),
    fun _ => forumPost_spec,
    fun _ => handlerSpec_of_leaves (.page _), fun _ => auth_spec, fun _ => handlerSpec_of_leaves (.page _),
    fun _ => handlerSpec_of_leaves userPost_leaves, fun _ => signout_spec, fun _ => test_spec⟩

end Waspp
