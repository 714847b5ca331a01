/-
Module: Waspp.Proofs.ForumVisibility
Layer: Proofs
Purpose: Where the forum is written and where it is read.  `post` picks its pool with the text `db_etc` as a
  shard key, which gives one of the shards, and `index_jsonp` with the name of the third pool: with one or
  two shards the two are never the same, so no row that was posted is in the table that a later index
  selects from.
Imports: Waspp.Proofs.Registration, Waspp.Proofs.SignIn, Waspp.Model.RequestHandler
Trusted boundary: none (fully proved)
Main exports: ForumRoute, ForumVisit, history, Inserted, Selected, ReadsSeeWrites, reads_see_writes_iff
Open obligations: none
-/
import Waspp.Proofs.Registration
import Waspp.Proofs.SignIn
import Waspp.Model.RequestHandler

namespace Waspp

open CString Interaction

/-! ### Forum requests -/

/-- The routes of the forum. -/
inductive ForumRoute where
  | indexHtml
  | indexJsonp
  | showHtml
  | showJsonp
  | formHtml
  | formJsonp
  | del
  | post
deriving DecidableEq, Repr

/-- The handler of a route. -/
def ForumRoute.func (env : Env) : ForumRoute → Act Unit
  | indexHtml => DirForum.indexHtml env
  | indexJsonp => DirForum.indexJsonp env
  | showHtml => DirForum.showHtml env
  | showJsonp => DirForum.showJsonp env
  | formHtml => DirForum.formHtml env
  | formJsonp => DirForum.formJsonp env
  | del => DirForum.del
  | post => DirForum.post env

/-- A request to the forum. -/
structure ForumVisit where
  env : Env
  route : ForumRoute
  c : Ctx

/-- The requests of a sequence with the calls that their handlers made, one request after the other. -/
def history (mysql : Mysql) : World → List ForumVisit → List (ForumVisit × List (Event DbCall Reply))
  | _, [] => []
  | world, visit :: rest =>
      let (_, world', trace) := (visit.route.func visit.env).exec (serve mysql) visit.c world
      (visit, trace) :: history mysql world' rest

/-- The history of a visit and those behind it. -/
theorem history_cons (mysql : Mysql) (world : World) (visit : ForumVisit) (rest : List ForumVisit) :
    history mysql world (visit :: rest) =
      (visit, ((visit.route.func visit.env).exec (serve mysql) visit.c world).2.2) ::
        history mysql ((visit.route.func visit.env).exec (serve mysql) visit.c world).2.1 rest := rfl

/-- The request is a post that inserted a row in the pool's table. -/
def Inserted (served : ForumVisit × List (Event DbCall Reply)) (pool : Nat) (row : ForumRow) : Prop :=
  served.1.route = .post ∧ ∃ affected : Nat, affected ≠ 0 ∧ ⟨.insertForum pool row, .ok affected⟩ ∈ served.2

/-- The request is an index that selected from the pool's table. -/
def Selected (served : ForumVisit × List (Event DbCall Reply)) (pool : Nat) : Prop :=
  served.1.route = .indexJsonp ∧ ∃ rows : List ForumRow, ⟨.selectForum pool, .ok rows⟩ ∈ served.2

/-- Every row that a post inserted is in the table that a later index selects from. -/
def ReadsSeeWrites (served : List (ForumVisit × List (Event DbCall Reply))) : Prop :=
  served.Pairwise fun one two => ∀ pool row pool', Inserted one pool row → Selected two pool' → pool' = pool

/-- No index selects after a post has inserted. -/
def NothingReadBack (served : List (ForumVisit × List (Event DbCall Reply))) : Prop :=
  served.Pairwise fun one two => ∀ pool row pool', Inserted one pool row → ¬ Selected two pool'

/-! ### The pools

`post` asks for the shard of the text `db_etc`, `index_jsonp` for the pool of that name.  All calls of a
handler go to one pool, so a row that is read back was written in the pool that is read. -/

/-- All calls go to one pool. -/
def atPool (pool : Nat) : Contract DbCall Reply := ⟨fun q => q.pool = pool, fun _ _ => True⟩

variable {env : Env}

/-- Writing the answer makes no call. -/
theorem writeJsonp_meets (contract : Contract DbCall Reply) (env : Env) (json : Ptree) (c : Ctx) :
    (writeJsonp env json).Meets contract c fun _ _ => True := by
  unfold writeJsonp Act.writeJson
  apply Action.meets_bind.mpr
  split
  · trivial
  · trivial

/-- What follows the construction of a session. -/
theorem meets_session_bind {α : Type} {contract : Contract DbCall Reply} {f : Session → Act α} {c : Ctx}
    (next : ∀ s c', Session.construct env c = (.ok s, c') → (f s).Meets contract c' fun _ _ => True) :
    (Act.session env >>= f).Meets contract c fun _ _ => True := by
  apply Action.meets_bind.mpr
  unfold Act.session
  apply (Action.meets_lift _).mpr
  generalize constructed : Session.construct env c = outcome
  rcases outcome with ⟨result, d⟩
  cases result with
  | error e => trivial
  | ok s => exact next s d constructed

/-- The index reads from the fixed pool. -/
theorem indexJsonp_meets (c : Ctx) : (DirForum.indexJsonp env).Meets (atPool dbEtc) c fun _ _ => True := by
  apply meets_session_bind
  intro sess c' _
  apply (Action.meets_ite _).mpr
  refine ⟨fun _ => writeJsonp_meets _ _ _ _, fun _ => ?_⟩
  apply Action.meets_get_bind.mpr
  apply Act.meets_db_bind.mpr
  refine ⟨rfl, fun _ _ => trivial, fun _ _ => ?_⟩
  apply Act.meets_db_bind.mpr
  refine ⟨rfl, fun _ _ => trivial, fun totalCount _ => ?_⟩
  apply Act.meets_db_bind.mpr
  refine ⟨rfl, fun _ _ => trivial, fun rows _ => ?_⟩
  exact writeJsonp_meets _ _ _ _

/-- The `seq` that a post makes of the key that the procedure returns. -/
def keySeq (lastKey : Nat) : Nat :=
  if lastKey % 256 < 128 then lastKey % 256 else 2 ^ 32 - 256 + lastKey % 256

/-- What a post may ask: a key, then to insert a row with the `seq` made of it; or to update a row. -/
structure ForumAsks (contract : Contract DbCall Reply) (pool : Nat) : Prop where
  checkout : ∀ pick : Pick, pick.pool = pool → contract.asks (.checkout pick)
  uniqueKeys : contract.asks (.uniqueKeys pool (bytes "forum") 1)
  insertForum : ∀ lastKey : Option Nat, contract.replies (.uniqueKeys pool (bytes "forum") 1) (.ok lastKey) →
    ∀ row : ForumRow, row.seq = keySeq (lastKey.getD 0) → contract.asks (.insertForum pool row)
  updateForum : ∀ title content username updatetime seq userid,
    contract.asks (.updateForum pool title content username updatetime seq userid)

/-- The user that a request is signed in as: the `userid` and the `username` of its session. -/
def signer (env : Env) (c : Ctx) : Option (Nat × Bytes) :=
  match (Session.construct env c).1 with
  | .ok s =>
      let useridText := NameValue.valueOf s.entries (bytes "userid")
      if useridText.isEmpty then none else some (strtoul useridText,
        NameValue.valueOf s.entries (bytes "username"))
  | .error _ => none

/-- What a post asks for the user that it is signed in as: a key, then to insert a row with the `seq` made of
    it and the user's name; or to update a row with the name that the request gives. -/
structure SignerAsks (env : Env) (contract : Contract DbCall Reply) (c : Ctx) (pool userid : Nat)
    (username : Bytes) :
    Prop where
  checkout : ∀ pick : Pick, pick.pool = pool → contract.asks (.checkout pick)
  uniqueKeys : contract.asks (.uniqueKeys pool (bytes "forum") 1)
  insertForum : ∀ lastKey : Option Nat, contract.replies (.uniqueKeys pool (bytes "forum") 1) (.ok lastKey) →
    contract.asks (.insertForum pool
      { seq := keySeq (lastKey.getD 0)
        title := c.paramValue (bytes "title")
        content := c.paramValue (bytes "content")
        userid := userid
        username := username
        updatetime := env.sqlNow })
  updateForum : ∀ seq, contract.asks
    (.updateForum pool (c.paramValue (bytes "title")) (c.paramValue (bytes "content"))
    (c.paramValue (bytes "username")) env.sqlNow seq userid)

/-- The constructor keeps the parameters of the request. -/
theorem construct_params {c c' : Ctx} {s : Session} (constructed : Session.construct env c = (.ok s, c'))
    (name : Bytes) :
    c'.paramValue name = c.paramValue name := by
  have cases_ := construct_cases env c
  rw [constructed] at cases_
  cases cases_ with
  | creates readable refused same res =>
      exact ((serializeAndSet_request env _ _).params name).trans (same.params name)
  | updates loads same res => exact ((update_request env _ _).params name).trans (same.params name)

/-- A post meets every contract under which its user may ask what it asks. -/
theorem forumPost_meets_signer {contract : Contract DbCall Reply} {c : Ctx}
    (asks : ∀ userid username, signer env c = some (userid, username) →
      SignerAsks env contract c (shardOfString env.cfg.dbShardCount (bytes "db_etc")) userid username) :
    (DirForum.post env).Meets contract c fun _ _ => True := by
  have page (errCode : ErrorType) (c' : Ctx) := errMsg_meets contract env errCode c'
  apply meets_session_bind
  intro sess c' constructed
  have params := construct_params constructed
  apply (Action.meets_ite _).mpr
  refine ⟨fun _ => trivial, fun signedIn => ?_⟩
  replace asks := asks _ _ (by rw [signer, constructed]; exact if_neg signedIn)
  simp only [Act.meets_param_bind, Action.meets_ite]
  refine ⟨fun _ => page _ _, fun _ => ⟨fun _ => page _ _, fun _ => ?_⟩⟩
  apply Act.meets_db_bind.mpr
  refine ⟨asks.checkout _ rfl, fun _ _ => trivial, fun _ _ => ?_⟩
  simp only [Action.meets_ite]
  constructor
  · intro _
    apply Act.meets_db_bind.mpr
    refine ⟨asks.uniqueKeys, fun _ _ => trivial, fun lastKey replied => ?_⟩
    simp only [Act.meets_param_bind]
    apply Act.meets_db_bind.mpr
    refine ⟨?_, fun _ _ => trivial, fun affectedRows _ => ?_⟩
    · simpa [Session.get, keySeq, ← params] using asks.insertForum lastKey replied
    · exact (Action.meets_ite _).mpr ⟨fun _ => page _ _, fun _ => trivial⟩
  · intro _
    simp only [Act.meets_param_bind]
    apply Act.meets_db_bind.mpr
    refine ⟨?_, fun _ _ => trivial, fun _ _ => trivial⟩
    simpa [Session.get, ← params] using asks.updateForum _

/-- A post meets every contract under which its calls may be asked. -/
theorem forumPost_meets {contract : Contract DbCall Reply}
    (asks : ForumAsks contract (shardOfString env.cfg.dbShardCount (bytes "db_etc"))) (c : Ctx) :
    (DirForum.post env).Meets contract c fun _ _ => True :=
  forumPost_meets_signer fun _ _ _ =>
    ⟨asks.checkout, asks.uniqueKeys, fun lastKey replied => asks.insertForum lastKey replied _ rfl,
      fun _ => asks.updateForum ..⟩

/-- All calls of a post go to one pool. -/
theorem forumAsks_atPool (pool : Nat) : ForumAsks (atPool pool) pool where
  checkout _ same := same
  uniqueKeys := rfl
  insertForum _ _ _ _ := rfl
  updateForum _ _ _ _ _ _ := rfl

/-- What is bound to a pool by contract goes there in every run. -/
theorem pool_of_meets {m : Act Unit} {pool : Nat} {c : Ctx} (meets : m.Meets (atPool pool) c fun _ _ => True)
    (mysql : Mysql) (world : World) : ∀ e ∈ (m.exec (serve mysql) c world).2.2, e.1.pool = pool :=
  (Action.exec_asks (fun _ _ _ => trivial) meets world).1

/-- A post inserts in the pool of the shard key, and an index selects from the common pool. -/
theorem history_pools (mysql : Mysql) (world : World) (visits : List ForumVisit) :
    ∀ served ∈ history mysql world visits, served.1 ∈ visits ∧
      (∀ pool row, Inserted served pool row →
        pool = shardOfString served.1.env.cfg.dbShardCount (bytes "db_etc")) ∧
      ∀ pool, Selected served pool → pool = dbEtc := by
  induction visits generalizing world with
  | nil => simp [history]
  | cons visit rest ih =>
      intro served member
      rcases List.mem_cons.mp member with rfl | later
      · refine ⟨List.mem_cons_self .., ?_, ?_⟩
        · rintro pool row ⟨route, affected, -, event⟩
          simp only at route event
          rw [route] at event
          exact pool_of_meets (forumPost_meets (forumAsks_atPool _) visit.c) mysql world _ event
        · rintro pool ⟨route, rows, event⟩
          simp only at route event
          rw [route] at event
          exact pool_of_meets (indexJsonp_meets visit.c) mysql world _ event
      · have found := ih _ served later
        exact ⟨List.mem_cons_of_mem _ found.1, found.2⟩

/-- With one or two shards the text `db_etc` never gives the common pool. -/
theorem shard_ne_dbEtc {dbShardCount : Nat} (least : 1 ≤ dbShardCount) (most : dbShardCount ≤ 2) :
    shardOfString dbShardCount (bytes "db_etc") ≠ dbEtc := by
  have bound : shardOfString dbShardCount (bytes "db_etc") < dbShardCount := Nat.mod_lt _ least
  exact Nat.ne_of_lt (Nat.lt_of_lt_of_le bound most)

/-- Over any sequence of forum requests with one or two shards: no index selects from the table that an
    earlier post inserted in, so the rows that posts inserted are where later indexes select from exactly
    when no index selects after a post has inserted. -/
theorem reads_see_writes_iff (mysql : Mysql) (world : World) {visits : List ForumVisit} {dbShardCount : Nat}
    (least : 1 ≤ dbShardCount) (most : dbShardCount ≤ 2)
    (configured : ∀ visit ∈ visits, visit.env.cfg.dbShardCount = dbShardCount) :
    ((history mysql world visits).Pairwise fun one two =>
        ∀ pool row pool', Inserted one pool row → Selected two pool' → pool' ≠ pool) ∧
      (ReadsSeeWrites (history mysql world visits) ↔ NothingReadBack (history mysql world visits)) := by
  have pools := history_pools mysql world visits
  have apart (one two : ForumVisit × List (Event DbCall Reply)) (member : one ∈ history mysql world visits)
      (there : two ∈ history mysql world visits) (pool : Nat) (row : ForumRow) (pool' : Nat)
      (inserted : Inserted one pool row) (selected : Selected two pool') : pool' ≠ pool := by
    have first := (pools one member).2.1 pool row inserted
    have second := (pools two there).2.2 pool' selected
    rw [configured _ (pools one member).1] at first
    rw [first, second]
    exact (shard_ne_dbEtc least most).symm
  refine ⟨List.pairwise_of_forall_mem_list fun one member two there => apart one two member there, ?_, ?_⟩
  · intro sees
    apply sees.imp_of_mem
    intro one two member there same pool row pool' inserted selected
    exact apart one two member there pool row pool' inserted selected (same pool row pool' inserted selected)
  · intro none
    apply none.imp
    intro one two never pool row pool' inserted selected
    exact absurd selected (never pool row pool' inserted)

/-! ### A row that is not read back -/

/-- A server that archives sessions and digests them. -/
private def forumServer : Env := { bareEnv with md5 := Md5.md5, archive := textArchive }

/-- Three databases with a forum table each. -/
private def forumWorld : World := ⟨List.replicate 3 ⟨[⟨bytes "forum", 1, 1⟩], none, some []⟩, []⟩

/-- The request of a user who has signed in. -/
private def signedInRequest : Request where
  uri := bytes "/"
  params := [⟨bytes "title", bytes "t"⟩, ⟨bytes "content", bytes "c"⟩]
  cookies :=
    [⟨forumServer.cfg.sessCookie,
      (⟨[⟨bytes "sess_id", []⟩, ⟨bytes "last_tm", bytes "0"⟩, ⟨bytes "last_ip", []⟩, ⟨bytes "last_ua", []⟩,
        ⟨bytes "userid", bytes "2"⟩, ⟨bytes "username", bytes "d"⟩]⟩ : Session).cookieValue forumServer⟩]

/-- The post. -/
private def thePost : ForumVisit := ⟨forumServer, .post, ⟨signedInRequest, {}⟩⟩

/-- The index. -/
private def theIndex : ForumVisit := ⟨forumServer, .indexJsonp, ⟨signedInRequest, {}⟩⟩

/-- The row that is posted. -/
private def postedRow : ForumRow := ⟨2, bytes "t", bytes "c", 2, bytes "d", []⟩

/-- The post inserts in the second pool, and the index selects from the third. -/
theorem row_not_read_back : ¬ ReadsSeeWrites (history plainMysql forumWorld [thePost, theIndex]) := by
  intro sees
  rw [ReadsSeeWrites, history_cons, history_cons] at sees
  have same := (List.pairwise_cons.mp sees).1 _ (List.mem_singleton_self _) 1 postedRow dbEtc
    ⟨rfl, 1, by decide, by decide +kernel⟩ ⟨rfl, [], by decide +kernel⟩
  exact absurd same (by decide)

/-- The two requests, at the shipped number of shards. -/
theorem reads_see_writes_iff_two_shards :
    ((history plainMysql forumWorld [thePost, theIndex]).Pairwise fun one two =>
        ∀ pool row pool', Inserted one pool row → Selected two pool' → pool' ≠ pool) ∧
      (ReadsSeeWrites (history plainMysql forumWorld [thePost, theIndex]) ↔
        NothingReadBack (history plainMysql forumWorld [thePost, theIndex])) := by
  have configured : ∀ visit ∈ [thePost, theIndex], visit.env.cfg.dbShardCount = 2 := by
    intro visit member
    rcases List.mem_pair.mp member with rfl | rfl <;> rfl
  exact reads_see_writes_iff plainMysql forumWorld (by decide) (by decide) configured

end Waspp
