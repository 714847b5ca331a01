/-
Module: Waspp.Proofs.SignIn
Layer: Proofs
Purpose: When a registered user can sign in.  `post` stores its row at the shard of the username, `auth`
  looks at the shard of the parameter `userid`, which the form does not send, and both digest a password up
  to its first NUL.  Over the databases that any sequence of registrations reaches, `sign_in_iff` says for
  which usernames and passwords the row is reached with its own password and with no other.
Imports: Waspp.Foundation.Md5, Waspp.Proofs.Registration, Waspp.Proofs.SessionLoad,
  Waspp.Proofs.AccessControl
Trusted boundary: none (fully proved)
Main exports: Posted, Tables, SignsIn, auth_signsIn_iff, sign_in_iff
Open obligations: none
-/
import Waspp.Foundation.Md5
import Waspp.Proofs.Registration
import Waspp.Proofs.SessionLoad
import Waspp.Proofs.AccessControl

namespace Waspp

open CString Interaction

variable (mysql : Mysql)

/-! ### Registrations

What a run of registrations leaves in the tables: each row at the shard of its username, under the digest
of its password, and no two rows with one username. -/

/-- Servers with one configuration and one digest. -/
structure SameServer (base env : Env) : Prop where
  cfg : env.cfg = base.cfg
  md5 : env.md5 = base.md5

/-- Databases without users. -/
def Unused (world : World) : Prop := ∀ pool rows, usersOf world pool = some rows → rows = []

/-- A registration run against the databases: its outcome, the databases after it and the calls it made. -/
def posting (env : Env) (c : Ctx) (world : World) :
    (Except Exn Unit × Ctx) × World × List (Event DbCall Reply) :=
  (DirUser.post env).exec (serve mysql) c world

/-- The databases after some registrations, with any calls failing. -/
inductive Posted (base : Env) (start : World) : World → Prop where
  | start : Posted base start start
  | post {world : World} (reached : Posted base start world) {env : Env} (server : SameServer base env)
      (c : Ctx)
      (outages : List Bool) : Posted base start (posting mysql env c { world with outages := outages }).2.1

/-- Two users that the unique keys of `users` keep apart. -/
def Apart (one two : UserRow) : Prop :=
  one.userid ≠ two.userid ∧ mysql.equal one.username two.username = false

/-- Being apart goes both ways. -/
theorem Apart.symm {one two : UserRow} (apart : Apart mysql one two) : Apart mysql two one := by
  refine ⟨apart.1.symm, ?_⟩
  have differ := apart.2
  simp only [Mysql.equal, decide_eq_false_iff_not] at differ ⊢
  exact fun same => differ same.symm

/-- A row that clashes with none is apart from all. -/
theorem apart_of_clashes {rows : List UserRow} {row other : UserRow}
    (none : rows.any (mysql.clashes row) = false) (member : other ∈ rows) : Apart mysql other row := by
  have distinct : mysql.clashes row other = false := by
    by_contra clash
    rw [List.any_eq_true.mpr ⟨other, member, by simpa using clash⟩] at none
    cases none
  simp only [Mysql.clashes, Bool.or_eq_false_iff, decide_eq_false_iff_not] at distinct
  exact Apart.symm mysql ⟨distinct.1.1, distinct.2⟩

/-- What registrations keep: the users of a pool are apart, and the rows inserted so far are still there. -/
structure Tables (world : World) (log : List (Event DbCall Reply)) : Prop where
  apart : ∀ pool rows, usersOf world pool = some rows → rows.Pairwise (Apart mysql)
  stored : ∀ pool row affected, ⟨.insertUser pool row, .ok affected⟩ ∈ log →
    ∃ rows, usersOf world pool = some rows ∧ row ∈ rows

/-- Tables that are not used yet have no rows. -/
theorem Unused.tables {world : World} (unused : Unused world) : Tables mysql world [] where
  apart pool rows here := by simp [unused pool rows here]
  stored := by simp

/-- A served call keeps the tables. -/
theorem Tables.served {world : World} {log : List (Event DbCall Reply)} (tables : Tables mysql world log)
    (q : DbCall) :
    Tables mysql (serve mysql q world).2 (log ++ [⟨q, (serve mysql q world).1⟩]) := by
  rcases serve_users mysql q world with ⟨kept, fails⟩ | ⟨at_, new, rows, rfl, here, distinct, inserted, kept⟩
  · constructor
    · intro pool rows here
      exact tables.apart pool rows ((kept pool).symm.trans here)
    · intro pool row affected member
      rcases List.mem_append.mp member with before | last
      · rw [kept]
        exact tables.stored pool row affected before
      · have same := List.mem_singleton.mp last
        have call : q = .insertUser pool row := (congrArg Sigma.fst same).symm
        subst call
        rcases fails pool row rfl with ⟨e, failed⟩
        rw [failed] at same
        cases same
  · constructor
    · intro pool rows' here'
      by_cases same : pool = at_
      · subst same
        rw [inserted] at here'
        cases here'
        apply List.pairwise_append.mpr
        refine ⟨tables.apart pool rows here, List.pairwise_singleton _ _, ?_⟩
        intro old member last same
        rw [List.mem_singleton.mp same]
        exact apart_of_clashes mysql distinct member
      · rw [kept pool same] at here'
        exact tables.apart pool rows' here'
    · intro pool row affected member
      rcases List.mem_append.mp member with before | last
      · rcases tables.stored pool row affected before with ⟨rows', here', stored⟩
        by_cases same : pool = at_
        · subst same
          rw [here] at here'
          cases here'
          exact ⟨_, inserted, List.mem_append_left _ stored⟩
        · exact ⟨rows', (kept pool same).trans here', stored⟩
      · have same := List.mem_singleton.mp last
        cases congrArg Sigma.fst same
        exact ⟨_, inserted, by simp⟩

/-- A record with fewer calls. -/
theorem Tables.fewer {world : World} {log log' : List (Event DbCall Reply)} (tables : Tables mysql world log)
    (fewer : log' ⊆ log) : Tables mysql world log' where
  apart := tables.apart
  stored pool row affected member := tables.stored pool row affected (fewer member)

/-- The contract that any program meets. -/
def anyCalls : Contract DbCall Reply := ⟨fun _ => True, fun _ _ => True⟩

/-- A registration keeps the tables. -/
theorem posting_tables (env : Env) (c : Ctx) {world : World} {log : List (Event DbCall Reply)}
    (tables : Tables mysql world log) :
    Tables mysql (posting mysql env c world).2.1 (log ++ (posting mysql env c world).2.2) :=
  (Action.exec_meets (c := anyCalls) (I := Tables mysql)
    (fun _ _ q kept _ => ⟨Tables.served mysql kept q, trivial⟩)
    (post_meets ⟨trivial, trivial, trivial, fun _ _ _ => trivial⟩) tables).1

/-- Posts keep the tables in this state. -/
theorem Posted.tables {base : Env} {start world : World} (posted : Posted mysql base start world)
    {log : List (Event DbCall Reply)} (tables : Tables mysql start log) : Tables mysql world log := by
  induction posted with
  | start => exact tables
  | @post world _ env _ c outages ih =>
      have quiet : Tables mysql { world with outages := outages } log := ⟨ih.apart, ih.stored⟩
      exact (posting_tables mysql env c quiet).fewer mysql (List.subset_append_left _ _)

/-- The contract of the registration of a given request: it inserts the request's row only. -/
def ownRow (env : Env) (c : Ctx) : Contract DbCall Reply where
  asks
    | .insertUser pool row => PassesChecks c ∧ pool = shardOfUsername env c ∧
        ∃ userid, row = newRow env c userid
    | _ => True
  replies _ _ := True

/-- The row that a registration inserts is the one of its request. -/
theorem posting_inserts {env : Env} {c : Ctx} {world : World} {pool : Nat} {row : UserRow} {affected : Nat}
    (inserted : ⟨.insertUser pool row, .ok affected⟩ ∈ (posting mysql env c world).2.2) :
    PassesChecks c ∧ pool = shardOfUsername env c ∧ ∃ userid, row = newRow env c userid := by
  have asks : RegistrationAsks env (ownRow env c) c :=
    ⟨trivial, trivial, trivial, fun passes lastKey _ => ⟨passes, rfl, lastKey.getD 0, rfl⟩⟩
  exact (Action.exec_asks (fun _ _ _ => trivial) (post_meets asks) world).1 _ inserted

/-! ### Sign-ins

`auth` looks the username up at the shard of the parameter `userid`.  Where that is the shard of the
username, the row is found. -/

/-- The response sets a session cookie whose session is signed in under the userid. -/
def SessionFor (env : Env) (userid : Nat) (res : Response) : Prop :=
  ∃ s : Session, NameValue.valueOf s.entries (bytes "userid") = toDecimal userid ∧
    NameValue.valueOf res.cookies env.cfg.sessCookie = s.cookieValue env

/-- A run of `auth` reaches the row of a pool and creates a session for its userid. -/
structure SignsIn (env : Env) (pool : Nat) (row : UserRow)
    (run : (Except Exn Unit × Ctx) × World × List (Event DbCall Reply)) : Prop where
  reached : ∃ passwd ids, ⟨.selectPasswd pool row.userid passwd, .ok ids⟩ ∈ run.2.2 ∧ ids ≠ ([] : List Nat)
  returned : run.1.1 = .ok ()
  session : SessionFor env row.userid run.1.2.res

/-- A session that was signed in and then took the username. -/
theorem sessionFor_of_puts (env : Env) (userid : Nat) (username : Bytes) (s : Session) (c c' : Ctx) :
    SessionFor env userid
      (((s.put env (bytes "userid") (toDecimal userid) c).1.put env (bytes "username") username
        c').2.res.redirectTo
        (bytes "/dir/forum/index")) := by
  refine ⟨((s.put env (bytes "userid") (toDecimal userid) c).1.put env (bytes "username") username c').1,
    ?_, ?_⟩
  · rw [valueOf_put, if_neg (by decide), valueOf_put, if_pos rfl]
  · rw [Response.redirectTo_cookies, valueOf_cookies_put]

/-- The end of `auth` calls no database; it returns exactly when the presented cookie can be read, and then
    the session is the user's. -/
theorem signIn_meets (contract : Contract DbCall Reply) (env : Env) (userid : Nat) (c : Ctx) :
    (DirUser.signIn env userid).Meets contract c fun r c' =>
      (r = .ok () ↔ CookieReadable env (presented env c)) ∧ (r = .ok () → SessionFor env userid c'.res) := by
  have constructed := construct_cases env c
  unfold DirUser.signIn
  simp only [Action.meets_bind, Act.session, Act.put, Action.meets_lift]
  generalize Session.construct env c = outcome at constructed
  cases constructed with
  | throws unreadable => simp [unreadable]
  | creates readable refused same res =>
      exact ⟨iff_of_true rfl readable, fun _ => sessionFor_of_puts env userid _ _ _ _⟩
  | updates loads same res =>
      exact ⟨iff_of_true rfl loads.readable, fun _ => sessionFor_of_puts env userid _ _ _ _⟩

/-- The contract of an action that calls no database. -/
def noCalls : Contract DbCall Reply := ⟨fun _ => False, fun _ _ => True⟩

/-- What makes no call leaves the databases. -/
theorem exec_of_noCalls {α : Type} {m : Act α} {c : Ctx} {P : Except Exn α → Ctx → Prop}
    (meets : m.Meets noCalls c P) (world : World) :
    (m.exec (serve mysql) c world).2.2 = [] ∧
      P (m.exec (serve mysql) c world).1.1 (m.exec (serve mysql) c world).1.2 := by
  have honest (world : World) (q : DbCall) (_ : noCalls.asks q) :
      noCalls.replies q (serve mysql q world).1 := trivial
  rcases Action.exec_asks honest meets world with ⟨asked, post⟩
  exact ⟨List.eq_nil_iff_forall_not_mem.mpr asked, post⟩

/-- A lookup without failures returns what the tables hold and leaves them alone. -/
theorem serve_of_unchanged {world : World} (quiet : world.outages = []) {q : DbCall} {schema : Schema}
    (here : world.pools[q.pool]? = some schema) (unchanged : (performAt mysql schema q).2 = schema) :
    serve mysql q world = ((performAt mysql schema q).1, world) := by
  have same : world.pools.set q.pool schema = world.pools := by
    rcases List.getElem?_eq_some_iff.mp here with ⟨inside, elem⟩
    rw [← elem, List.set_getElem_self]
  unfold serve
  simp only [quiet, List.head?_nil, Option.getD_none, Bool.false_eq_true, if_false, here, unchanged, same,
    List.tail_nil]
  rw [← quiet]

/-- The one element of a list that a test picks, when the test fails on all that are related to it. -/
theorem filter_of_related {α : Type} {R : α → α → Prop} {l : List α} (related : l.Pairwise R) {a : α}
    (member : a ∈ l)
    {test : α → Bool} (self : test a = true) (others : ∀ b, R a b ∨ R b a → test b = false) :
    l.filter test = [a] := by
  induction l with
  | nil => cases member
  | cons b rest ih =>
      rcases List.pairwise_cons.mp related with ⟨first, later⟩
      rcases List.mem_cons.mp member with rfl | behind
      · rw [List.filter_cons_of_pos self, List.filter_eq_nil_iff.mpr]
        intro c inRest picked
        rw [others c (Or.inl (first c inRest))] at picked
        cases picked
      · have skipped : ¬ test b = true := by
          rw [others b (Or.inr (first a behind))]
          simp
        rw [List.filter_cons_of_neg skipped, ih later behind]

/-- One row has the username. -/
theorem filter_username {rows : List UserRow} {row : UserRow} (apart : rows.Pairwise (Apart mysql))
    (member : row ∈ rows) :
    rows.filter (fun other => mysql.equal other.username row.username) = [row] := by
  apply filter_of_related apart member
  · simp [Mysql.equal]
  · intro other related
    rcases related with left | right
    · exact (Apart.symm mysql left).2
    · exact right.2

/-- One row has the user id and the password. -/
theorem filter_passwd {rows : List UserRow} {row : UserRow} (apart : rows.Pairwise (Apart mysql))
    (member : row ∈ rows) (passwd : Bytes) :
    rows.filter (fun other => other.userid = row.userid && mysql.equal other.passwd passwd) =
      if mysql.equal row.passwd passwd then [row] else [] := by
  have single : rows.filter (fun other => other.userid = row.userid) = [row] := by
    apply filter_of_related apart member
    · simp
    · intro other related
      rcases related with left | right
      · simpa using left.1.symm
      · simpa using right.1
  have split : rows.filter (fun other => other.userid = row.userid && mysql.equal other.passwd passwd) =
      (rows.filter (fun other => other.userid = row.userid)).filter fun other =>
      mysql.equal other.passwd passwd := by
    rw [List.filter_filter]
    congr 1
    funext other
    exact Bool.and_comm _ _
  rw [split, single]
  by_cases same : mysql.equal row.passwd passwd = true <;> simp [same]

/-- The lookup of a user in its own pool signs in exactly with the stored digest. -/
theorem lookUp_signsIn_iff {env : Env} {world : World} (quiet : world.outages = []) {pick : Pick}
    {rows : List UserRow}
    {row : UserRow} (here : usersOf world pick.pool = some rows) (apart : rows.Pairwise (Apart mysql))
    (member : row ∈ rows)
    {c : Ctx} (username : c.paramValue (bytes "username") = row.username) (passwd : Bytes) :
    SignsIn env pick.pool row ((DirUser.lookUp env passwd pick).exec (serve mysql) c world) ↔
      mysql.equal row.passwd passwd = true ∧ CookieReadable env (presented env c) := by
  rcases Option.bind_eq_some_iff.mp here with ⟨schema, at_, users⟩
  have checkout : serve mysql (.checkout pick) world = (.ok (), world) :=
    serve_of_unchanged mysql quiet (q := .checkout pick) at_ rfl
  have byName : serve mysql (.selectUserid pick.pool row.username) world = (.ok [row.userid], world) := by
    rw [serve_of_unchanged mysql quiet (q := .selectUserid pick.pool row.username) at_
      (by simp [performAt, users])]
    simp only [performAt, users, filter_username mysql apart member]
    rfl
  have byPasswd : serve mysql (.selectPasswd pick.pool row.userid passwd) world =
      (.ok (if mysql.equal row.passwd passwd then [row.userid] else []), world) := by
    rw [serve_of_unchanged mysql quiet (q := .selectPasswd pick.pool row.userid passwd) at_
      (by simp [performAt, users])]
    simp only [performAt, users, filter_passwd mysql apart member]
    split <;> rfl
  unfold DirUser.lookUp
  rw [Act.exec_db_bind_of_ok _ _ _ checkout, Act.exec_param_bind, username,
    Act.exec_db_bind_of_ok _ _ _ byName]
  simp only
  rw [Act.exec_db_bind_of_ok _ _ _ byPasswd]
  by_cases same : mysql.equal row.passwd passwd = true
  · simp only [same, if_true, true_and]
    rcases exec_of_noCalls mysql (signIn_meets noCalls env row.userid (c.readParam (bytes "username")))
        world with
      ⟨silent, returns, session⟩
    constructor
    · intro signed
      exact returns.mp signed.returned
    · intro readable
      exact ⟨⟨passwd, [row.userid], by simp, by simp⟩, returns.mpr readable, session (returns.mpr readable)⟩
  · have silent :=
      (exec_of_noCalls mysql (errMsg_meets noCalls env .authFailed (c.readParam (bytes "username")))
      world).1
    simp only [same, Bool.false_eq_true, if_false, silent, false_and, iff_false]
    intro signed
    rcases signed.reached with ⟨passwd', ids, member, found⟩
    simp only [List.mem_cons, List.not_mem_nil, or_false] at member
    rcases member with first | second | third
    · cases first
    · cases second
    · cases third
      exact found rfl

/-- The contract of a lookup: passwords are looked up at one pool only. -/
def passwdsAt (dbShard : Nat) : Contract DbCall Reply where
  asks
    | .selectPasswd pool _ _ => pool = dbShard
    | _ => True
  replies _ _ := True

/-- The look-up goes to its own shard. -/
theorem lookUp_meets (env : Env) (passwd : Bytes) (dbShard : Pick) (c : Ctx) :
    (DirUser.lookUp env passwd dbShard).Meets (passwdsAt dbShard.pool) c fun _ _ => True := by
  unfold DirUser.lookUp
  apply Act.meets_db_bind.mpr
  refine ⟨trivial, fun _ _ => trivial, fun _ _ => ?_⟩
  simp only [Act.meets_param_bind]
  apply Act.meets_db_bind.mpr
  refine ⟨trivial, fun _ _ => trivial, fun rs _ => ?_⟩
  cases rs with
  | nil => exact errMsg_meets _ _ _ _
  | cons userid rest =>
      apply Act.meets_db_bind.mpr
      refine ⟨rfl, fun _ _ => trivial, fun rs' _ => ?_⟩
      cases rs' with
      | nil => exact errMsg_meets _ _ _ _
      | cons userid' rest' => exact (signIn_meets _ env userid _).mono fun _ _ _ => trivial

/-- A lookup elsewhere does not reach the row. -/
theorem not_signsIn_elsewhere {env : Env} {dbShard : Pick} {pool : Nat} (elsewhere : dbShard.pool ≠ pool)
    (row : UserRow) (passwd : Bytes) (c : Ctx) (world : World) :
    ¬ SignsIn env pool row ((DirUser.lookUp env passwd dbShard).exec (serve mysql) c world) := by
  intro signed
  rcases signed.reached with ⟨passwd', ids, member, -⟩
  have asked := (Action.exec_asks (fun _ _ _ => trivial) (lookUp_meets env passwd dbShard c) world).1 _
      member
  exact elsewhere asked.symm

/-- A sign-in under a registered username reaches its row exactly when it brings a password, looks at the
    row's shard, matches the stored digest and presents no cookie that cannot be read. -/
theorem auth_signsIn_iff {env : Env} {world : World} (quiet : world.outages = []) {pool : Nat}
    {rows : List UserRow}
    {row : UserRow} (here : usersOf world pool = some rows) (apart : rows.Pairwise (Apart mysql))
    (member : row ∈ rows)
    {c : Ctx} (username : c.paramValue (bytes "username") = row.username) (named : row.username ≠ []) :
    SignsIn env pool row ((DirUser.auth env).exec (serve mysql) c world) ↔
      c.paramValue (bytes "passwd") ≠ [] ∧
        shardOfString env.cfg.dbShardCount (c.paramValue (bytes "userid")) = pool ∧
        mysql.equal row.passwd (md5Digest env (c.paramValue (bytes "passwd"))) = true ∧
        CookieReadable env (presented env c) := by
  have page (errCode : ErrorType) (c' : Ctx) :
      ¬ SignsIn env pool row ((errMsg env errCode).exec (serve mysql) c' world) := by
    intro signed
    rcases signed.reached with ⟨passwd, ids, asked, -⟩
    rw [(exec_of_noCalls mysql (errMsg_meets noCalls env errCode c') world).1] at asked
    cases asked
  unfold DirUser.auth
  simp only [Act.exec_param_bind, Ctx.paramValue_readParam, username, List.isEmpty_iff, named, if_false]
  by_cases empty : c.paramValue (bytes "passwd") = []
  · simp [empty, page]
  · simp only [empty, if_false, Act.exec_param_bind, Ctx.paramValue_readParam]
    by_cases at_ : shardOfString env.cfg.dbShardCount (c.paramValue (bytes "userid")) = pool
    · have picked : (Pick.shardKey env.cfg.dbShardCount (c.paramValue (bytes "userid"))).pool = pool := at_
      subst picked
      rw [lookUp_signsIn_iff mysql quiet here apart member (by simpa using username)]
      simp [empty, presented, at_]
    · have elsewhere : (Pick.shardKey env.cfg.dbShardCount (c.paramValue (bytes "userid"))).pool ≠ pool :=
        at_
      simp [at_, not_signsIn_elsewhere mysql elsewhere]

/-! ### Registered users -/

/-- When a registered user signs in with its own password and with no other. -/
def SignInWorks (dbShardCount : Nat) (username passwd other : Bytes) (readable : Prop) : Prop :=
  (other = passwd ∧ shardOfString dbShardCount username = shardOfString dbShardCount [] ∧ readable) ∨
    (other ≠ passwd ∧
      (other = [] ∨ shardOfString dbShardCount username ≠ shardOfString dbShardCount [] ∨
        cstr other ≠ cstr passwd ∨ ¬ readable))

/-- After any registrations, one that inserted a row, and any registrations again: a form with the row's
    username signs in to the row exactly when it brings the registered password, if and only if
    `SignInWorks`. -/
theorem sign_in_iff {base : Env} {start before : World} (unused : Unused start)
    (first : Posted mysql base start before)
    {env : Env} (server : SameServer base env) {c : Ctx} {outages : List Bool} {pool : Nat} {row : UserRow}
    {affected : Nat}
    (registered : ⟨.insertUser pool row,
      .ok affected⟩ ∈ (posting mysql env c { before with outages := outages }).2.2)
    {after : World} (later : Posted mysql base (posting mysql env c { before with outages := outages }).2.1
      after)
    {env' : Env} (server' : SameServer base env') {c' : Ctx}
    (username : c'.paramValue (bytes "username") = c.paramValue (bytes "username"))
    (form : c'.paramValue (bytes "userid") = [])
    (collisionFree : mysql.equal (md5Digest base (c.paramValue (bytes "passwd")))
        (md5Digest base (c'.paramValue (bytes "passwd"))) = true →
      cstr (c.paramValue (bytes "passwd")) = cstr (c'.paramValue (bytes "passwd"))) :
    ((SignsIn env' pool row ((DirUser.auth env').exec (serve mysql) c' { after with outages := [] }) ↔
        c'.paramValue (bytes "passwd") = c.paramValue (bytes "passwd")) ↔
      SignInWorks base.cfg.dbShardCount (c.paramValue (bytes "username")) (c.paramValue (bytes "passwd"))
        (c'.paramValue (bytes "passwd")) (CookieReadable env' (presented env' c'))) := by
  rcases posting_inserts mysql registered with ⟨passes, rfl, userid, rfl⟩
  have tables : Tables mysql (posting mysql env c { before with outages := outages }).2.1
      [⟨.insertUser (shardOfUsername env c) (newRow env c userid), .ok affected⟩] := by
    have start' : Tables mysql { before with outages := outages } [] :=
      have kept := first.tables mysql (unused.tables mysql)
      ⟨kept.apart, kept.stored⟩
    exact (posting_tables mysql env c start').fewer mysql (by simpa using registered)
  have kept := later.tables mysql tables
  rcases kept.stored _ _ affected (List.mem_singleton.mpr rfl) with ⟨rows, here, member⟩
  have digests (s : Bytes) : md5Digest env' s = md5Digest base s := by
    rw [md5Digest, server'.md5, md5Digest]
  have stored : (newRow env c userid).passwd = md5Digest base (c.paramValue (bytes "passwd")) := by
    rw [newRow, md5Digest, server.md5, md5Digest]
  have same :
      mysql.equal (newRow env c userid).passwd (md5Digest env' (c'.paramValue (bytes "passwd"))) = true ↔
        cstr (c'.paramValue (bytes "passwd")) = cstr (c.paramValue (bytes "passwd")) := by
    rw [stored, digests]
    constructor
    · intro equal
      exact (collisionFree equal).symm
    · intro texts
      simp [md5Digest, texts, Mysql.equal]
  have quiet : ({ after with outages := [] } : World).outages = [] := rfl
  rw [auth_signsIn_iff mysql quiet here (kept.apart _ _ here) member username
    passes.username, form, same, shardOfUsername, server.cfg, server'.cfg,
    eq_comm (a := shardOfString base.cfg.dbShardCount [])]
  have passwd := passes.passwd
  unfold SignInWorks
  by_cases own : c'.paramValue (bytes "passwd") = c.paramValue (bytes "passwd")
  · simp [own, passwd]
  · simp only [own, iff_false, false_and, ne_eq, not_false_eq_true, true_and, false_or, not_and_or, not_not]

/-! ### Two users -/

/-- A server with the digest that the program links. -/
def openServer : Env := { bareEnv with md5 := Md5.md5 }

/-- The form of a sign-in. -/
def signInForm (username passwd : Bytes) : Ctx :=
  ⟨{ params := [⟨bytes "username", username⟩, ⟨bytes "passwd", passwd⟩] }, {}⟩

/-- The user `a` is registered on the second shard and looked up on the first: its own password is refused.
    -/
theorem registered_user_refused :
    ⟨.insertUser 1 (newRow openServer (registrationForm (bytes "a") (bytes "pw")) 3), .ok 1⟩ ∈
        (posting plainMysql openServer (registrationForm (bytes "a") (bytes "pw")) shippedWorld).2.2 ∧
      ¬ SignsIn openServer 1 (newRow openServer (registrationForm (bytes "a") (bytes "pw")) 3)
        ((DirUser.auth openServer).exec (serve plainMysql) (signInForm (bytes "a") (bytes "pw"))
          (posting plainMysql openServer (registrationForm (bytes "a") (bytes "pw")) shippedWorld).2.1) := by
  constructor
  · decide +kernel
  · intro signed
    rcases signed.reached with ⟨passwd, ids, member, -⟩
    have asked := List.mem_map_of_mem (f := Sigma.fst) member
    have calls : (((DirUser.auth openServer).exec (serve plainMysql) (signInForm (bytes "a") (bytes "pw"))
        (posting plainMysql openServer (registrationForm (bytes "a") (bytes "pw"))
          shippedWorld).2.1).2.2).map
          Sigma.fst = [.checkout (.shardKey 2 []), .selectUserid 0 (bytes "a")] := by
      decide +kernel
    rw [calls] at asked
    simp at asked

/-- The user `d` is registered and looked up on the first shard. -/
theorem sign_in_iff_first_shard :
    SignsIn openServer 0 (newRow openServer (registrationForm (bytes "d") (bytes "pw")) 2)
      ((DirUser.auth openServer).exec (serve plainMysql) (signInForm (bytes "d") (bytes "pw"))
        { (posting plainMysql openServer (registrationForm (bytes "d") (bytes "pw"))
            { shippedWorld with outages := [] }).2.1 with outages := [] }) := by
  have unused : Unused shippedWorld := by
    intro pool rows here
    rcases Option.bind_eq_some_iff.mp here with ⟨schema, at_, users⟩
    have empty : ∀ schema ∈ shippedWorld.pools, ∀ rows, schema.users = some rows → rows = [] := by decide
    exact empty schema (List.mem_of_getElem? at_) rows users
  have registered : ⟨.insertUser 0 (newRow openServer (registrationForm (bytes "d") (bytes "pw")) 2),
      .ok 1⟩ ∈
      (posting plainMysql openServer (registrationForm (bytes "d") (bytes "pw"))
        { shippedWorld with outages := [] }).2.2 := by
    decide +kernel
  have works : SignInWorks 2 (bytes "d") (bytes "pw") (bytes "pw") (CookieReadable openServer []) :=
    Or.inl ⟨rfl, by decide +kernel, Or.inl rfl⟩
  have username : (signInForm (bytes "d") (bytes "pw")).paramValue (bytes "username") =
      (registrationForm (bytes "d") (bytes "pw")).paramValue (bytes "username") := by
    decide
  have form : (signInForm (bytes "d") (bytes "pw")).paramValue (bytes "userid") = [] := by
    decide
  exact ((sign_in_iff plainMysql unused .start ⟨rfl, rfl⟩ registered .start ⟨rfl,
    rfl⟩ username form fun _ => rfl).mpr
    works).mpr rfl

end Waspp
