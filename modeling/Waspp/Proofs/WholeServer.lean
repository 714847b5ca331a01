/-
Module: Waspp.Proofs.WholeServer
Layer: Proofs
Purpose: The tables over any interleaving of requests to all routes, call by call.  Whatever comes in, the
  rows of the forum keep their places, numbers and owners, and the rows of a user change by statements for
  requests that are signed in as that user only.  The rows of `users` stay as they were inserted, each at
  the shard of its name, so a name is registered once over all shards.
Imports: Mathlib.Data.List.Pairwise, Waspp.Proofs.ForumNames, Waspp.Proofs.SignIn, Waspp.Proofs.SessionUse
Trusted boundary: none (fully proved)
Main exports: Arrival, mayAsk, handleRequest_meets, Tended, forum_tended, Enrolled, users_enrolled
Open obligations: none
-/
import Mathlib.Data.List.Pairwise
import Waspp.Proofs.ForumNames
import Waspp.Proofs.SignIn
import Waspp.Proofs.SessionUse

namespace Waspp

open CString Interaction

/-- A request as it comes in, with the environment that it meets. -/
structure Arrival where
  env : Env
  c : Ctx

/-- The user that the request is signed in as. -/
def Arrival.signer (a : Arrival) : Option (Nat × Bytes) := Waspp.signer a.env a.c

/-- The pool of the forum: `db_etc` is taken as a shard key. -/
def forumPool (env : Env) : Nat := shardOfString env.cfg.dbShardCount (bytes "db_etc")

/-- What a request may ask: to insert the row of its own registration, to insert a row of the user that it is
    signed in as, to update a row of that user with the name that it gives, and to read. -/
def mayAsk (env : Env) (c : Ctx) : DbCall → Prop
  | .insertUser pool row => PassesChecks c ∧ pool = shardOfUsername env c ∧
    ∃ userid, row = newRow env c userid
  | .insertForum pool row => pool = forumPool env ∧ signer env c = some (row.userid, row.username)
  | .updateForum pool _ _ username _ _ userid =>
      pool = forumPool env ∧ username = c.paramValue (bytes "username") ∧
        ∃ name, signer env c = some (userid, name)
  | _ => True

/-- The contract of a request. -/
def mayAskContract (env : Env) (c : Ctx) : Contract DbCall Reply := ⟨mayAsk env c, fun _ _ => True⟩

/-! ### The routes

What the handlers of the routing table may ask, by one contract.  Only two of them write, each under the
checks that its text makes. -/

/-- The call writes no row of `users` and none of `forum`. -/
def DbCall.reads : DbCall → Prop
  | .insertUser .. | .insertForum .. | .updateForum .. => False
  | _ => True

/-- Every request may read. -/
theorem mayAsk_of_reads {env : Env} {c : Ctx} {q : DbCall} (reads : q.reads) : mayAsk env c q := by
  cases q <;> first | exact reads.elim | trivial

/-- The contract of an action that only reads. -/
def readContract : Contract DbCall Reply := ⟨DbCall.reads, fun _ _ => True⟩

variable {env : Env} {c : Ctx} {α : Type}

/-- There is a reply to every call. -/
theorem Reply.nonempty (q : DbCall) : Nonempty (Reply q) := ⟨.error dbError⟩

/-- What leaves the session only reads. -/
theorem Leaves.meets {m : Act α} (leaves : Leaves DbCall.reads m) (c : Ctx) :
    m.Meets readContract c fun _ _ => True := by
  apply Program.meets_of_always Reply.nonempty
  apply Program.Always.mono (leaves c)
  intro trace result left
  exact ⟨left.2, trivial⟩

/-- A page of the forum only reads. -/
theorem html_reads (file : Bytes) : (DirForum.html env file).Meets readContract c fun _ _ => True := by
  apply meets_session_bind
  intro s c' _
  apply (Action.meets_ite _).mpr
  refine ⟨fun _ => trivial, fun _ => ?_⟩
  apply Leaves.meets
  apply Leaves.bind (.getFile _)
  intro _
  apply Leaves.bind (.getFile _)
  intro _
  apply Leaves.bind .setJsonp
  intro _
  apply Leaves.bind (.getFile _)
  intro _
  exact .pure _

theorem paramsJsonp_reads : (DirForum.paramsJsonp env).Meets readContract c fun _ _ => True := by
  apply meets_session_bind
  intro s c' _
  apply (Action.meets_ite _).mpr
  refine ⟨fun _ => writeJsonp_meets _ _ _ _, fun _ => ?_⟩
  exact Action.meets_get_bind.mpr (writeJsonp_meets _ _ _ _)

/-- The part that `index_jsonp` and `test` share. -/
theorem rows_read (pick : Pick) (pool : Nat) (json : Ctx → Nat → List ForumRow → Ptree) :
    (do
      let c ← Action.get
      Act.db (.checkout pick)
      let totalCount ← Act.db (.countForum pool)
      let rows ← Act.db (.selectForum pool)
      writeJsonp env (json c totalCount rows)).Meets readContract c fun _ _ => True := by
  apply Leaves.meets
  apply Leaves.get
  intro c
  apply Leaves.bind (.db trivial)
  intro _
  apply Leaves.bind (.db trivial)
  intro totalCount
  apply Leaves.bind (.db trivial)
  intro rows
  exact .writeJsonp _

theorem indexJsonp_reads : (DirForum.indexJsonp env).Meets readContract c fun _ _ => True := by
  apply meets_session_bind
  intro s c' _
  apply (Action.meets_ite _).mpr
  exact ⟨fun _ => writeJsonp_meets _ _ _ _, fun _ => rows_read _ _ _⟩

theorem test_reads : (DirPerformance.test env).Meets readContract c fun _ _ => True := by
  apply meets_session_bind
  intro s c' _
  apply Action.meets_bind.mpr
  apply (Action.meets_lift _).mpr
  exact rows_read _ _ _

theorem auth_reads : (DirUser.auth env).Meets readContract c fun _ _ => True := by
  have page (errCode : ErrorType) (c : Ctx) := errMsg_meets readContract env errCode c
  unfold DirUser.auth
  simp only [Act.meets_param_bind, Action.meets_ite]
  refine ⟨fun _ => page _ _, fun _ => ⟨fun _ => page _ _, fun _ => ?_⟩⟩
  unfold DirUser.lookUp
  apply Act.meets_db_bind.mpr
  refine ⟨trivial, fun _ _ => trivial, fun _ _ => ?_⟩
  simp only [Act.meets_param_bind]
  apply Act.meets_db_bind.mpr
  refine ⟨trivial, fun _ _ => trivial, fun found _ => ?_⟩
  cases found with
  | nil => exact page _ _
  | cons userid rest =>
      apply Act.meets_db_bind.mpr
      refine ⟨trivial, fun _ _ => trivial, fun matching _ => ?_⟩
      cases matching with
      | nil => exact page _ _
      | cons first rest => exact (signIn_meets _ env userid _).mono fun _ _ _ => trivial

/-- All routes but the two that are called `post` only read. -/
theorem routes_read {P : Act Unit → Prop} (post : P (DirForum.post env)) (register : P (DirUser.post env))
    (reads : ∀ m : Act Unit, (∀ c, m.Meets readContract c fun _ _ => True) → P m) :
    ∀ route ∈ routes env, P route.func := by
  simp only [routes, List.mem_cons, List.not_mem_nil, or_false, forall_eq_or_imp, forall_eq]
  exact ⟨reads _ fun _ => html_reads _, reads _ fun _ => indexJsonp_reads, reads _ fun _ => html_reads _,
    reads _ fun _ => paramsJsonp_reads, reads _ fun _ => html_reads _, reads _ fun _ => paramsJsonp_reads,
    reads _ fun _ => trivial, post, reads _ (Leaves.meets (.page _)), reads _ fun _ => auth_reads,
    reads _ (Leaves.meets (.page _)), register, reads _ fun _ => trivial, reads _ fun _ => test_reads⟩

/-- Every route asks what its request may ask. -/
theorem routes_meet : ∀ route ∈ routes env, route.func.Meets (mayAskContract env c) c fun _ _ => True := by
  apply routes_read (P := fun m => m.Meets (mayAskContract env c) c fun _ _ => True)
  · apply forumPost_meets_signer
    intro userid username signedIn
    exact ⟨fun _ _ => trivial, trivial, fun _ _ => ⟨rfl, signedIn⟩, fun _ => ⟨rfl, rfl, username, signedIn⟩⟩
  · apply post_meets
    exact ⟨trivial, trivial, trivial, fun passes lastKey _ => ⟨passes, rfl, lastKey.getD 0, rfl⟩⟩
  · intro m reads
    exact Program.Meets.allow (reads c) (fun _ => mayAsk_of_reads) fun _ _ _ => trivial

/-- Compression makes no call. -/
theorem compressContent_meets (contract : Contract DbCall Reply) (c : Ctx) :
    (compressContent env).Meets contract c fun _ _ => True := by
  unfold compressContent
  apply (Action.meets_ite _).mpr
  refine ⟨fun _ => ?_, fun _ => trivial⟩
  apply Action.meets_bind.mpr
  apply (Action.meets_lift _).mpr
  apply Action.meets_get_bind.mpr
  apply (Action.meets_ite _).mpr
  refine ⟨fun _ => ?_, fun _ => trivial⟩
  apply Action.meets_bind.mpr
  apply (Action.meets_modify _).mpr
  cases env.gzip _ with
  | ok text => trivial
  | error e => trivial

/-- Filling a response calls no database. -/
theorem fillResponse_meets (contract : Contract DbCall Reply) (c : Ctx) :
    (fillResponse env).Meets contract c fun _ _ => True := by
  unfold fillResponse
  apply Action.meets_bind.mpr
  apply (Action.meets_modify _).mpr
  apply Action.meets_bind.mpr
  apply (compressContent_meets contract _).mono
  intro r c' _
  cases r <;> trivial

/-- A request asks what its route does. -/
theorem handleRequest_meets {contract : Contract DbCall Reply} {table : List Route}
    (meets : ∀ route ∈ table, route.func.Meets contract c fun _ _ => True) :
    (handleRequest env table).Meets contract c fun _ _ => True := by
  have answered (status : StatusType) (c : Ctx) : (respondStatic status).Meets contract c fun _ _ => True :=
    trivial
  suffices tried : (tryRequest env table).Meets contract c fun _ _ => True by
    apply Action.meets_recover.mpr
    apply tried.mono
    intro r c' _
    cases r with
    | ok done => trivial
    | error e => exact answered _ _
  unfold tryRequest
  apply Action.meets_get_bind.mpr
  apply (Action.meets_ite _).mpr
  refine ⟨fun _ => answered _ _, fun _ => ?_⟩
  split
  · exact answered _ _
  · apply (Action.meets_ite _).mpr
    refine ⟨fun _ => answered _ _, fun _ => ?_⟩
    split
    · apply Action.meets_bind.mpr
      apply (Action.meets_lift _).mpr
      apply (Action.meets_ite _).mpr
      exact ⟨fun _ => fillResponse_meets contract _, fun _ => answered _ _⟩
    · next found =>
        obtain ⟨route, at_, rfl⟩ := Option.map_eq_some_iff.mp found
        apply Action.meets_bind.mpr
        apply (meets route (List.mem_of_find?_eq_some at_)).mono
        intro r c' _
        cases r with
        | ok done => exact fillResponse_meets contract c'
        | error e => trivial

/-! ### Requests, call by call

Many connections at once: the calls of the requests under way are served in any order, each under the
request that made it. -/

/-- A call with the request that it is made for. -/
abbrev ArrivalCall := Arrival × DbCall

/-- A call with its reply. -/
abbrev ArrivalEvent := Event ArrivalCall fun call => Reply call.2

/-- The databases, the calls served and the requests under way. -/
abbrev RequestsUnderWay :=
  Interleaving ArrivalCall (fun call => Reply call.2) (Except Exn Unit × Ctx) (World × List ArrivalEvent)

/-- The databases serve the calls of all requests alike. -/
abbrev serveArrivals (mysql : Mysql) : (call : ArrivalCall) → World → Reply call.2 × World :=
  nameless (serve mysql)

/-- What comes in: a request to a server with so many shards, with its calls under its name. -/
def Comes (shards : Nat) (p : Program ArrivalCall (fun call => Reply call.2) (Except Exn Unit × Ctx)) :
    Prop :=
  ∃ a : Arrival, a.env.cfg.dbShardCount = shards ∧ p = (handleRequest a.env (routes a.env) a.c).signed a

/-- What the requests may ask. -/
def arrivalContract (shards : Nat) : Contract ArrivalCall fun call => Reply call.2 :=
  ⟨fun call => call.1.env.cfg.dbShardCount = shards ∧ mayAsk call.1.env call.1.c call.2, fun _ _ => True⟩

/-- A request that comes in keeps to the contract. -/
theorem comes_meets {shards : Nat}
    {p : Program ArrivalCall (fun call => Reply call.2) (Except Exn Unit × Ctx)}
    (comes : Comes shards p) : p.Meets (arrivalContract shards) fun _ => True := by
  rcases comes with ⟨a, rfl, rfl⟩
  apply Program.meets_signed.mpr
  have under : (arrivalContract a.env.cfg.dbShardCount).under a = mayAskContract a.env a.c := by
    simp [Contract.under, arrivalContract, mayAskContract]
  rw [under]
  exact handleRequest_meets routes_meet

/-- What a run does from each of its states to the last. -/
theorem arrivals_since {mysql : Mysql} {shards : Nat} {start : World}
    {D : List ArrivalEvent → World → World → Prop} (refl : ∀ world, D [] world world)
    (trans : ∀ {one two s t u}, D one s t → D two t u → D (one ++ two) s u)
    (call : ∀ world a q, a.env.cfg.dbShardCount = shards → mayAsk a.env a.c q →
      D [⟨(a, q), (serve mysql q world).1⟩] world (serve mysql q world).2) {i : RequestsUnderWay}
    {before : List RequestsUnderWay}
    (run : Interleaving.Run (logged (serveArrivals mysql)) (Comes shards) (start, []) (i :: before)) :
    ∀ j ∈ i :: before, ∃ served, i.world.2 = j.world.2 ++ served ∧ D served j.world.1 i.world.1 :=
  run.since (arrivalContract shards) refl trans (fun world c asks => call world c.1 c.2 asks.1 asks.2)
    (fun _ _ _ => trivial) (fun _ => comes_meets) i rfl

/-! ### The rows of the forum

A relation of two states of the databases and the calls between them, which every call keeps and which is
closed under runs. -/

/-- The call wrote rows of the forum for a request that is signed in as the user. -/
def ArrivalEvent.writesFor (user : Nat) (e : ArrivalEvent) : Prop :=
  writtenRows e.1.2 e.2 ≠ 0 ∧ ∃ name, e.1.1.signer = some (user, name)

/-- The number and the owner of a row. -/
def ForumRow.ids (row : ForumRow) : Nat × Nat := (row.seq, row.userid)

/-- What calls do to the rows of the forum: all rows are still there, in their places, with their numbers and
    owners; and those of a user are as they were, with none added, when no call wrote for the user. -/
structure Tended (served : List ArrivalEvent) (old new : World) : Prop where
  kept : ∀ pool, (forumOf old pool).map ForumRow.ids <+: (forumOf new pool).map ForumRow.ids
  others : ∀ user, (∀ e ∈ served, ¬ e.writesFor user) → ∀ pool,
    ((forumOf new pool).filter fun row => row.userid = user) = (forumOf old pool).filter fun row =>
    row.userid = user

/-- Nothing happens without a call. -/
theorem Tended.refl (world : World) : Tended [] world world :=
  ⟨fun _ => List.prefix_refl _, fun _ _ _ => rfl⟩

/-- Calls in two parts. -/
theorem Tended.trans {one two : List ArrivalEvent} {s t u : World} (first : Tended one s t)
    (second : Tended two t u) :
    Tended (one ++ two) s u where
  kept pool := (first.kept pool).trans (second.kept pool)
  others user none pool :=
    (second.others user (fun e member => none e (List.mem_append_right _ member)) pool).trans
      (first.others user (fun e member => none e (List.mem_append_left _ member)) pool)

/-- A statement keeps the rows in their places. -/
theorem Rewrites.ids {q : DbCall} {written : Nat} {rows rows' : List ForumRow}
    (rewrites : Rewrites q written rows rows') :
    rows.map ForumRow.ids <+: rows'.map ForumRow.ids := by
  cases rewrites with
  | nothing => exact List.prefix_refl _
  | inserts new =>
      rw [List.map_append]
      exact List.prefix_append _ _
  | updates =>
      rw [List.map_map]
      refine (List.map_congr_left ?_) ▸ List.prefix_refl _
      intro row _
      rw [Function.comp_apply]
      split <;> rfl

/-- A statement that writes no row changes none. -/
theorem Rewrites.eq_of_zero {q : DbCall} {written : Nat} {rows rows' : List ForumRow}
    (rewrites : Rewrites q written rows rows') (none : written = 0) : rows' = rows := by
  cases rewrites with
  | nothing => rfl
  | inserts new => cases none
  | @updates _ _ _ _ _ seq userid =>
      have unfound := List.filter_eq_nil_iff.mp (List.length_eq_zero_iff.mp none)
      nth_rewrite 2 [← List.map_id rows]
      apply List.map_congr_left
      intro row member
      have other : ¬ (row.seq = seq ∧ row.userid = userid) := by simpa using unfound row member
      rw [if_neg other, id]

/-- A statement leaves the rows of all users alone that it does not write for. -/
theorem Rewrites.not_for {q : DbCall} {written : Nat} {rows rows' : List ForumRow}
    (rewrites : Rewrites q written rows rows') {user : Nat}
    (other : written ≠ 0 → ∀ name, q.bound ≠ some (user, name)) :
    (rows'.filter fun row => row.userid = user) = rows.filter fun row => row.userid = user := by
  by_cases none : written = 0
  · rw [rewrites.eq_of_zero none]
  · have apart := other none
    cases rewrites with
    | nothing => rfl
    | @inserts pool row rows new =>
        have ne : ¬ row.userid = user := by
          rintro rfl
          exact apart row.username rfl
        rw [List.filter_append, List.filter_cons_of_neg (by simpa using ne), List.filter_nil,
          List.append_nil]
    | @updates pool title content username updatetime seq userid rows =>
        have ne : user ≠ userid := by
          rintro rfl
          exact apart username rfl
        exact @Rewrites.other_users pool title content username updatetime seq userid _ rows _ .updates user
          ne

/-- A call that a request may ask tends the forum. -/
theorem tended_call (mysql : Mysql) (world : World) (a : Arrival) (q : DbCall) (may : mayAsk a.env a.c q) :
    Tended [⟨(a, q), (serve mysql q world).1⟩] world (serve mysql q world).2 := by
  have rewrites := serve_forum mysql q world
  constructor
  · intro pool
    by_cases here : pool = q.pool
    · rw [here]
      exact rewrites.1.ids
    · rw [rewrites.2 pool here]
  · intro user none pool
    by_cases here : pool = q.pool
    · rw [here]
      apply rewrites.1.not_for
      intro wrote name bound
      apply none _ (List.mem_singleton_self _)
      refine ⟨wrote, ?_⟩
      cases q with
      | insertForum pool row =>
          cases bound
          exact ⟨row.username, may.2⟩
      | updateForum pool title content username updatetime seq userid =>
          cases bound
          exact may.2.2
      | _ => cases bound
    · rw [rewrites.2 pool here]

/-- In any run of requests to all routes, interleaved call by call: from each state to the last, the rows of
    the forum keep their places, numbers and owners, and the rows of a user change only by statements for
    requests that are signed in as the user. -/
theorem forum_tended (mysql : Mysql) {shards : Nat} {start : World} {i : RequestsUnderWay}
    {before : List RequestsUnderWay}
    (run : Interleaving.Run (logged (serveArrivals mysql)) (Comes shards) (start, []) (i :: before)) :
    ∀ j ∈ i :: before, ∃ served, i.world.2 = j.world.2 ++ served ∧ Tended served j.world.1 i.world.1 :=
  arrivals_since Tended.refl Tended.trans (fun world a q _ may => tended_call mysql world a q may) run

/-! ### The rows of `users`

The same with registrations: a row is where its name belongs, and a name has one row on all shards
together. -/

/-- The users of a pool are apart, and each is at the shard of its name. -/
structure ShardedUsers (mysql : Mysql) (shards : Nat) (world : World) : Prop where
  apart : ∀ pool rows, usersOf world pool = some rows → rows.Pairwise (Apart mysql)
  placed : ∀ pool rows, usersOf world pool = some rows →
    ∀ row ∈ rows, pool = shardOfString shards row.username

/-- Databases without users are sharded. -/
theorem Unused.sharded {mysql : Mysql} {shards : Nat} {world : World} (unused : Unused world) :
    ShardedUsers mysql shards world where
  apart pool rows here := by simp [unused pool rows here]
  placed pool rows here := by simp [unused pool rows here]

/-- No name is registered twice, in one pool or in two. -/
def OncePerName (world : World) : Prop :=
  ∀ pool pool' rows rows', usersOf world pool = some rows → usersOf world pool' = some rows' →
    ∀ row ∈ rows, ∀ row' ∈ rows', row.username = row'.username → pool = pool' ∧ row = row'

/-- Where each row is at the shard of its name, no name has two. -/
theorem ShardedUsers.oncePerName {mysql : Mysql} {shards : Nat} {world : World}
    (sharded : ShardedUsers mysql shards world) :
    OncePerName world := by
  intro pool pool' rows rows' here there row member row' member' same
  have pools : pool = pool' := by
    rw [sharded.placed pool rows here row member, same, ← sharded.placed pool' rows' there row' member']
  subst pools
  rw [here] at there
  cases there
  refine ⟨rfl, ?_⟩
  have : Std.Symm (Apart mysql) := ⟨fun _ _ => Apart.symm mysql⟩
  by_contra distinct
  have apart := (sharded.apart pool rows here).forall member member' distinct
  exact absurd apart.2 (by simp [Mysql.equal, same])

/-- What calls do to the rows of `users`: all rows are still there, as they were, and each row behind them is
    that of a registration that passed the checks, and was inserted for it. -/
def Enrolled (served : List ArrivalEvent) (old new : World) : Prop :=
  ∀ pool rows, usersOf old pool = some rows → ∃ added, usersOf new pool = some (rows ++ added) ∧
    ∀ row ∈ added, ∃ e ∈ served, e.1.2 = .insertUser pool row ∧ PassesChecks e.1.1.c ∧
      ∃ userid, row = newRow e.1.1.env e.1.1.c userid

/-- Nothing happens without a call. -/
theorem Enrolled.refl (world : World) : Enrolled [] world world :=
  fun _ rows here => ⟨[], by rw [here, List.append_nil], by simp⟩

/-- Calls in two parts. -/
theorem Enrolled.trans {one two : List ArrivalEvent} {s t u : World} (first : Enrolled one s t)
    (second : Enrolled two t u) : Enrolled (one ++ two) s u := by
  intro pool rows here
  obtain ⟨added, there, by_one⟩ := first pool rows here
  obtain ⟨more, last, by_two⟩ := second pool _ there
  refine ⟨added ++ more, by rw [last, List.append_assoc], ?_⟩
  intro row member
  rcases List.mem_append.mp member with early | late
  · obtain ⟨e, served, inserted⟩ := by_one row early
    exact ⟨e, List.mem_append_left _ served, inserted⟩
  · obtain ⟨e, served, inserted⟩ := by_two row late
    exact ⟨e, List.mem_append_right _ served, inserted⟩

/-- One call of a request. -/
theorem enrolled_call (mysql : Mysql) (world : World) (a : Arrival) (q : DbCall) (may : mayAsk a.env a.c q) :
    Enrolled [⟨(a, q), (serve mysql q world).1⟩] world (serve mysql q world).2 := by
  intro pool rows here
  rcases serve_users mysql q world with ⟨kept, -⟩ | ⟨at_, new, old, rfl, there, -, inserted, kept⟩
  · exact ⟨[], by rw [kept, here, List.append_nil], by simp⟩
  · by_cases same : pool = at_
    · subst same
      rw [here] at there
      cases there
      refine ⟨[new], inserted, ?_⟩
      intro row member
      cases List.mem_singleton.mp member
      exact ⟨_, List.mem_singleton_self _, rfl, may.1, may.2.2⟩
    · exact ⟨[], by rw [kept pool same, here, List.append_nil], by simp⟩

/-- A call that a request may ask keeps the users apart and at their shards. -/
theorem sharded_call (mysql : Mysql) {shards : Nat} {world : World}
    (sharded : ShardedUsers mysql shards world) (a : Arrival)
    (q : DbCall) (count : a.env.cfg.dbShardCount = shards) (may : mayAsk a.env a.c q) :
    ShardedUsers mysql shards (serve mysql q world).2 := by
  have tables : Tables mysql world [] := ⟨sharded.apart, by simp⟩
  refine ⟨(tables.served mysql q).apart, ?_⟩
  intro pool rows here row member
  rcases serve_users mysql q world with ⟨kept, -⟩ | ⟨at_, new, old, rfl, there, -, inserted, kept⟩
  · exact sharded.placed pool rows ((kept pool).symm.trans here) row member
  · by_cases same : pool = at_
    · subst same
      rw [inserted] at here
      cases here
      rcases List.mem_append.mp member with before | last
      · exact sharded.placed pool old there row before
      · cases List.mem_singleton.mp last
        obtain ⟨-, shard, userid, rfl⟩ := may
        rw [shard, shardOfUsername, count]
        rfl
    · exact sharded.placed pool rows ((kept pool same).symm.trans here) row member

/-- In any run of requests to all routes, interleaved call by call: from each state to the last, the rows of
    `users` stay as they are and new ones are those of registrations that passed the checks; and in every
    state no name is registered twice, whatever the shards. -/
theorem users_enrolled (mysql : Mysql) {shards : Nat} {start : World}
    (sharded : ShardedUsers mysql shards start) {i : RequestsUnderWay} {before : List RequestsUnderWay}
    (run : Interleaving.Run (logged (serveArrivals mysql)) (Comes shards) (start, []) (i :: before)) :
    OncePerName i.world.1 ∧
      ∀ j ∈ i :: before, ∃ served, i.world.2 = j.world.2 ++ served ∧
        Enrolled served j.world.1 i.world.1 := by
  constructor
  · have holds : ShardedUsers mysql shards i.world.1 :=
      Interleaving.contract_invariant (arrivalContract shards)
        (I := fun state => ShardedUsers mysql shards state.1) sharded
        (fun state call kept asks => ⟨sharded_call mysql kept call.1 call.2 asks.1 asks.2, trivial⟩)
        (fun _ => comes_meets) (run.reachable i (List.mem_cons_self ..))
    exact holds.oncePerName
  · exact arrivals_since Enrolled.refl Enrolled.trans
      (fun world a q _ may => enrolled_call mysql world a q may) run

/-! ### A post and a registration -/

/-- A server that archives sessions and digests them. -/
private def archiveServer : Env := { bareEnv with md5 := Md5.md5, archive := textArchive }

/-- The session of the user 2, signed in as `d`. -/
private def signedInSession : Session :=
  ⟨[⟨bytes "sess_id", []⟩, ⟨bytes "last_tm", bytes "0"⟩, ⟨bytes "last_ip", []⟩, ⟨bytes "last_ua", []⟩,
    ⟨bytes "userid", bytes "2"⟩, ⟨bytes "username", bytes "d"⟩]⟩

/-- A post of that user. -/
private def postArrival : Arrival :=
  ⟨archiveServer, { uri := bytes "/dir/forum/post/"
                    params := [⟨bytes "title", bytes "t"⟩, ⟨bytes "content", bytes "c"⟩]
                    cookies := [⟨archiveServer.cfg.sessCookie, signedInSession.cookieValue archiveServer⟩] },
                    {}⟩

/-- The registration of `d`. -/
private def registrationArrival : Arrival :=
  ⟨archiveServer,
    { uri := bytes "/dir/user/post/"
      params :=
        [⟨bytes "platformid", bytes "1"⟩, ⟨bytes "platformtype", bytes "1"⟩, ⟨bytes "username", bytes "d"⟩,
          ⟨bytes "passwd", bytes "pw"⟩, ⟨bytes "retypepasswd", bytes "pw"⟩] }, {}⟩

/-- The shipped databases, with the forum also where posts go. -/
private def forumEverywhere : World :=
  ⟨[⟨shippedKeys 0 ++ [⟨bytes "forum", 1, 1⟩], some [], some []⟩,
    ⟨shippedKeys 1 ++ [⟨bytes "forum", 1, 1⟩], some [], some []⟩, ⟨[⟨bytes "forum", 1, 1⟩], none, some []⟩],
    []⟩

/-- The state after a request that comes in alone. -/
private def afterArrival (a : Arrival) : RequestsUnderWay :=
  let ran := ((handleRequest a.env (routes a.env) a.c).signed a).exec (logged (serveArrivals plainMysql))
    (forumEverywhere, [])
  ⟨ran.2.1, [.ret ran.1]⟩

/-- The request is part of a run. -/
private theorem afterArrival_run (a : Arrival) : ∃ before,
    Interleaving.Run (logged (serveArrivals plainMysql)) (Comes a.env.cfg.dbShardCount) (forumEverywhere, [])
      (afterArrival a :: before) :=
  (Interleaving.Reachable.start.enter ⟨a, rfl, rfl⟩).exec.run

/-- A run in which a user posts a row. -/
theorem forum_tended_posted :
    ((afterArrival postArrival).world.2.any fun e => e.1.2.bound = some (2, bytes "d")) = true ∧
      ∃ served, (afterArrival postArrival).world.2 = [] ++ served ∧
        Tended served forumEverywhere (afterArrival postArrival).world.1 := by
  refine ⟨by decide +kernel, ?_⟩
  obtain ⟨before, run⟩ := afterArrival_run postArrival
  exact forum_tended plainMysql run _ run.start_mem

/-- A run in which a user is registered. -/
theorem users_enrolled_registered :
    (usersOf (afterArrival registrationArrival).world.1 0).map List.length = some 1 ∧
      OncePerName (afterArrival registrationArrival).world.1 := by
  refine ⟨by decide +kernel, ?_⟩
  have unused : Unused forumEverywhere := by
    intro pool rows here
    rcases Option.bind_eq_some_iff.mp here with ⟨schema, at_, users⟩
    have empty : ∀ schema ∈ forumEverywhere.pools, ∀ rows, schema.users = some rows → rows = [] := by decide
    exact empty schema (List.mem_of_getElem? at_) rows users
  obtain ⟨before, run⟩ := afterArrival_run registrationArrival
  exact (users_enrolled plainMysql unused.sharded run).1

end Waspp
