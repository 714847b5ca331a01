/-
Module: Waspp.Proofs.RequestWrites
Layer: Proofs
Purpose: What one request does to the tables, whatever the databases reply.  A request makes at most one
  statement that writes rows of `users` or `forum`, and nothing is asked behind it.  The objects of a
  statement that was prepared are destroyed twice when its handler leaves, so the requests on which a
  running server returns have left the tables as they were.
Imports: Waspp.Proofs.WholeServer, Waspp.Proofs.FirstCalls
Trusted boundary: none (fully proved)
Main exports: wrote, WritesLast, routes_writeLast, handleRequest_writesLast, tables_kept,
  tables_kept_of_returned, request_writes_once
Open obligations: none
-/
import Waspp.Proofs.WholeServer
import Waspp.Proofs.FirstCalls

namespace Waspp

open CString Interaction

/-- The call wrote rows of `users` or of `forum`. -/
def wrote : Event DbCall Reply → Bool
  | ⟨.insertUser .., .ok affected⟩ => affected != 0
  | ⟨q, reply⟩ => writtenRows q reply ≠ 0

/-- A statement that reads writes no row. -/
theorem not_wrote_of_reads {e : Event DbCall Reply} (reads : e.1.reads) : wrote e = false := by
  rcases e with ⟨q, reply⟩
  cases q with
  | insertUser | insertForum | updateForum => exact reads.elim
  | _ => rfl

theorem not_wrote_of_error {q : DbCall} (e : Exn) : wrote ⟨q, .error e⟩ = false := by
  cases q <;> rfl

/-- A call that wrote is a statement that has been prepared. -/
theorem statementMade_of_wrote {fails : Stage} {e : Event DbCall Reply} (some_ : wrote e = true) :
    StatementMade fails e := by
  rcases e with ⟨q, reply⟩
  cases reply with
  | error e => simp [not_wrote_of_error] at some_
  | ok answer =>
      cases q with
      | checkout pick => simp [wrote, writtenRows] at some_
      | _ => exact ⟨rfl, by simp [stageOf]⟩

/-! ### Actions that write once

A handler reads, and then writes with its last statement, or it writes nothing.  Both kinds are closed
under what handlers are put together with. -/

/-- The action writes nothing. -/
def WritesNothing {α : Type} (m : Act α) : Prop := ∀ c, m.Ensures c fun trace _ _ => trace.filter wrote = []

/-- No call of the action but its last writes. -/
def WritesLast (m : Act Unit) : Prop :=
  ∀ c, m.Ensures c fun trace _ _ => ∀ e ∈ trace.dropLast, wrote e = false

variable {env : Env} {α : Type}

/-- An action that only reads writes nothing. -/
theorem Leaves.writesNothing {m : Act α} (leaves : Leaves DbCall.reads m) : WritesNothing m := by
  intro c
  apply (leaves c).mono
  intro trace r c' left
  apply List.filter_eq_nil_iff.mpr
  intro e member
  rw [not_wrote_of_reads (left.2 e member)]
  exact Bool.false_ne_true

theorem writesNothing_lift (f : Ctx → Except Exn α × Ctx) : WritesNothing (Action.lift f : Act α) :=
  fun _ => rfl

theorem WritesNothing.bind {β : Type} {m : Act β} {f : β → Act α} (first : WritesNothing m)
    (next : ∀ b, WritesNothing (f b)) : WritesNothing (m >>= f) := by
  intro c
  apply Action.ensures_bind.mpr
  apply (first c).mono
  intro trace r c' before
  cases r with
  | error e => exact before
  | ok b =>
      apply (next b c').mono
      intro later r' last behind
      rw [List.filter_append, before, behind, List.append_nil]

/-- Such an action may come last. -/
theorem WritesNothing.last {m : Act Unit} (nothing : WritesNothing m) : WritesLast m := by
  intro c
  apply (nothing c).mono
  intro trace r c' none e member
  have silent := List.filter_eq_nil_iff.mp none e (List.dropLast_subset trace member)
  simpa using silent

/-- It may come before the one that writes. -/
theorem WritesLast.bind {β : Type} {m : Act β} {f : β → Act Unit} (first : WritesNothing m)
    (next : ∀ b, WritesLast (f b)) : WritesLast (m >>= f) := by
  intro c
  apply Action.ensures_bind.mpr
  apply (first c).mono
  intro trace r c' before
  have silent : ∀ e ∈ trace, wrote e = false := by simpa using List.filter_eq_nil_iff.mp before
  cases r with
  | error e => exact fun e' member => silent e' (List.dropLast_subset trace member)
  | ok b =>
      apply (next b c').mono
      intro later r' c'' behind e member
      rcases List.eq_nil_or_concat later with rfl | ⟨most, last, rfl⟩
      · exact silent e (List.dropLast_subset trace (by simpa using member))
      · rw [List.concat_eq_append, ← List.append_assoc, List.dropLast_concat] at member
        rcases List.mem_append.mp member with here | there
        · exact silent e here
        · exact behind e (by simpa using there)

/-- A branch writes last when both of its sides do. -/
theorem WritesLast.ite (p : Prop) [Decidable p] {m n : Act Unit} (yes : WritesLast m) (no : WritesLast n) :
    WritesLast (if p then m else n) := by
  split
  · exact yes
  · exact no

/-- A statement, behind which nothing is asked. -/
theorem WritesLast.statement {q : DbCall} {f : Answer q → Act Unit}
    (silent : ∀ answer, Leaves (fun _ => False) (f answer)) :
    WritesLast (Act.db q >>= f) := by
  intro c
  apply Act.ensures_db_bind.mpr
  refine ⟨fun e => by simp, fun answer => ?_⟩
  apply (silent answer c).mono
  intro later r c' left
  have none_ : later = [] := List.eq_nil_iff_forall_not_mem.mpr left.2
  simp [none_]

/-! ### The routes

Each handler is put together from what it asks first and the one statement that it may end with. -/

/-- Reading a parameter may come in front. -/
theorem WritesLast.param {name : Bytes} {f : Bytes → Act Unit} (next : ∀ value, WritesLast (f value)) :
    WritesLast (Act.param name >>= f) := .bind (writesNothing_lift _) next

/-- A statement that reads. -/
theorem WritesLast.read {q : DbCall} {f : Answer q → Act Unit} (next : ∀ answer, WritesLast (f answer))
    (reads : q.reads) : WritesLast (Act.db q >>= f) := .bind (Leaves.writesNothing (.db reads)) next

/-- An error message writes nothing. -/
theorem errMsg_writesNothing (errCode : ErrorType) : WritesNothing (errMsg env errCode) :=
  Leaves.writesNothing (.errMsg errCode)

theorem redirectTo_writesNothing (url : Bytes) : WritesNothing (Act.redirectTo url) :=
  Leaves.writesNothing (.redirectTo url)

/-- The registration writes its row at most once. -/
theorem userPost_writesLast : WritesLast (DirUser.post env) := by
  have page (errCode : ErrorType) : WritesLast (errMsg env errCode) := (errMsg_writesNothing errCode).last
  have inserting (md5Passwd : Bytes) (pool : Nat) : WritesLast (DirUser.insert env md5Passwd pool) := by
    refine WritesLast.read ?_ trivial
    intro lastKey
    apply WritesLast.param
    intro username
    apply WritesLast.param
    intro platformtype
    apply WritesLast.statement
    intro affectedRows
    exact .ite _ (fun _ => .errMsg _) (fun _ => .redirectTo _)
  have registering (md5Passwd : Bytes) (pick : Pick) : WritesLast (DirUser.register env md5Passwd pick) := by
    refine WritesLast.read ?_ trivial
    intro _
    apply WritesLast.param
    intro username
    refine WritesLast.read ?_ trivial
    intro rs
    cases rs with
    | nil => exact inserting _ _
    | cons userid rest => exact page _
  apply WritesLast.param
  intro platformid
  apply WritesLast.ite _ (page _)
  apply WritesLast.param
  intro platformtype
  apply WritesLast.ite _ (page _)
  apply WritesLast.param
  intro username
  apply WritesLast.ite _ (page _)
  apply WritesLast.param
  intro passwd
  apply WritesLast.ite _ (page _)
  apply WritesLast.param
  intro passwd
  apply WritesLast.param
  intro retypepasswd
  apply WritesLast.ite _ (page _)
  apply WritesLast.param
  intro passwd
  apply WritesLast.param
  intro username
  exact registering _ _

/-- The post inserts its row, or updates rows, at most once. -/
theorem forumPost_writesLast : WritesLast (DirForum.post env) := by
  have page (errCode : ErrorType) : WritesLast (errMsg env errCode) := (errMsg_writesNothing errCode).last
  apply WritesLast.bind (writesNothing_lift _)
  intro sess
  apply WritesLast.ite _ (redirectTo_writesNothing _).last
  apply WritesLast.param
  intro seqText
  apply WritesLast.param
  intro title
  apply WritesLast.ite _ (page _)
  apply WritesLast.param
  intro content
  apply WritesLast.ite _ (page _)
  refine WritesLast.read ?_ trivial
  intro _
  apply WritesLast.ite
  · refine WritesLast.read ?_ trivial
    intro lastKey
    apply WritesLast.param
    intro title
    apply WritesLast.param
    intro content
    apply WritesLast.statement
    intro affectedRows
    exact .ite _ (fun _ => .errMsg _) (fun _ => .redirectTo _)
  · apply WritesLast.param
    intro title
    apply WritesLast.param
    intro content
    apply WritesLast.param
    intro username
    apply WritesLast.statement
    intro _
    exact .redirectTo _

/-- No call of a route but its last writes. -/
theorem routes_writeLast : ∀ route ∈ routes env, WritesLast route.func := by
  apply routes_read forumPost_writesLast userPost_writesLast
  intro m reads
  apply WritesNothing.last
  intro c
  apply Program.Always.mono (Program.Meets.always (reads c) fun _ _ => trivial)
  intro trace result asked
  apply List.filter_eq_nil_iff.mpr
  intro e member
  rw [not_wrote_of_reads (asked.1 e member)]
  exact Bool.false_ne_true

/-! ### The whole request

What follows a handler asks nothing, so the last call of a handler is the last call of its request. -/

/-- Filling in the response writes nothing. -/
theorem WritesLast.filled {m : Act Unit} (last : WritesLast m) :
    WritesLast (m >>= fun _ => fillResponse env) := by
  intro c
  apply Action.ensures_bind.mpr
  apply (last c).mono
  intro trace r c' wrote
  cases r with
  | error e => exact wrote
  | ok done =>
      apply (fillResponse_silent c').mono
      rintro later r' c'' rfl
      rwa [List.append_nil]

/-- The try block writes last when its routes do. -/
theorem tryRequest_writesLast {table : List Route} (last : ∀ route ∈ table, WritesLast route.func) :
    WritesLast (tryRequest env table) := by
  have stock (status : StatusType) : WritesNothing (respondStatic status) := writesNothing_lift _
  have filling : WritesNothing (fillResponse env) := by
    intro c
    apply (fillResponse_silent c).mono
    rintro trace r c' rfl
    rfl
  intro c
  unfold tryRequest
  apply Action.ensures_get_bind.mpr
  apply (Action.ensures_ite _).mpr
  refine ⟨fun _ => (stock _).last c, fun _ => ?_⟩
  split
  · exact (stock _).last c
  · next requestUri _ =>
      have file : WritesNothing (getFile env requestUri >>= fun found =>
          if found = true then fillResponse env else respondStatic .notFound) := by
        apply WritesNothing.bind (writesNothing_lift _)
        intro found
        cases found with
        | true => exact filling
        | false => exact stock _
      apply (Action.ensures_ite _).mpr
      refine ⟨fun _ => (stock _).last c, fun _ => ?_⟩
      split
      · exact file.last c
      · next found =>
          obtain ⟨route, at_, rfl⟩ := Option.map_eq_some_iff.mp found
          exact (last route (List.mem_of_find?_eq_some at_)).filled c

theorem handleRequest_writesLast {table : List Route} (last : ∀ route ∈ table, WritesLast route.func) :
    WritesLast (handleRequest env table) := by
  intro c
  apply Action.ensures_recover.mpr
  apply (tryRequest_writesLast last c).mono
  intro trace r c' tried
  cases r with
  | ok done => exact tried
  | error e =>
      apply (Action.ensures_modify _).mpr
      rwa [List.append_nil]

/-- Of a list in which only the last wrote, at most one wrote. -/
theorem length_filter_wrote {trace : List (Event DbCall Reply)}
    (last : ∀ e ∈ trace.dropLast, wrote e = false) :
    (trace.filter wrote).length ≤ 1 := by
  rcases List.eq_nil_or_concat trace with rfl | ⟨before, e, rfl⟩
  · simp
  · have silent : before.filter wrote = [] := by
      apply List.filter_eq_nil_iff.mpr
      intro e' member
      simp [last e' (by simpa using member)]
    rw [List.concat_eq_append, List.filter_append, silent, List.nil_append]
    exact List.length_filter_le _ _

/-! ### The tables

From the record back to the rows: a call that is not recorded as a write leaves every table. -/

/-- A call that wrote nothing has written no row. -/
theorem writtenRows_of_not_wrote {q : DbCall} {reply : Reply q} (silent : wrote ⟨q, reply⟩ = false) :
    writtenRows q reply = 0 := by
  cases q with
  | insertUser => rfl
  | _ => simpa [wrote] using silent

theorem performAt_users_of_not_wrote {mysql : Mysql} {schema : Schema} {q : DbCall}
    (silent : wrote ⟨q, (performAt mysql schema q).1⟩ = false) :
    (performAt mysql schema q).2.users = schema.users := by
  rcases performAt_users mysql schema q with ⟨kept, -⟩ | ⟨pool, row, rows, rfl, users, distinct, inserted⟩
  · exact kept
  · by_cases accepted : mysql.acceptsUser row = true
    · simp [performAt, users, accepted, distinct, wrote] at silent
    · simp [performAt, users, accepted] at inserted ⊢

/-- A call that wrote nothing leaves the rows of `users` and `forum` as they are. -/
theorem tables_of_not_wrote {mysql : Mysql} {q : DbCall} {world : World}
    (silent : wrote ⟨q, (serve mysql q world).1⟩ = false) (pool : Nat) :
    usersOf (serve mysql q world).2 pool = usersOf world pool ∧
      forumOf (serve mysql q world).2 pool = forumOf world pool := by
  constructor
  · rcases serve_cases mysql q world with ⟨e, reply, pools⟩ | ⟨schema, here, reply, pools⟩
    · rw [usersOf, pools, usersOf]
    · rw [reply] at silent
      have inside : q.pool < world.pools.length := (List.getElem?_eq_some_iff.mp here).1
      by_cases same : pool = q.pool
      · have there : usersOf (serve mysql q world).2 q.pool = (performAt mysql schema q).2.users := by
          simp [usersOf, pools, inside]
        rw [same, there, performAt_users_of_not_wrote silent, usersOf, here, Option.bind_some]
      · simp [usersOf, pools, Ne.symm same]
  · have rewrites := serve_forum mysql q world
    by_cases same : pool = q.pool
    · rw [same]
      exact rewrites.1.eq_of_zero (writtenRows_of_not_wrote silent)
    · exact rewrites.2 pool same

/-- As long as nothing was written, the tables are those of the start. -/
def TablesKept (start world : World) (log : List (Event DbCall Reply)) : Prop :=
  log.filter wrote = [] → ∀ pool, usersOf world pool = usersOf start pool ∧
    forumOf world pool = forumOf start pool

/-- What was kept so far is kept by one more call. -/
theorem TablesKept.served {mysql : Mysql} {start world : World} {log : List (Event DbCall Reply)}
    (kept : TablesKept start world log) (q : DbCall) :
    TablesKept start (serve mysql q world).2 (log ++ [⟨q, (serve mysql q world).1⟩]) := by
  intro silent pool
  obtain ⟨before, last⟩ := List.append_eq_nil_iff.mp ((List.filter_append ..).symm.trans silent)
  have quiet : wrote ⟨q, (serve mysql q world).1⟩ = false := by
    simpa using List.filter_eq_nil_iff.mp last _ (List.mem_singleton_self _)
  have same := tables_of_not_wrote quiet pool
  exact ⟨same.1.trans (kept before pool).1, same.2.trans (kept before pool).2⟩

theorem tables_kept (mysql : Mysql) (m : Act Unit) (c : Ctx) (world : World) :
    TablesKept world (m.exec (serve mysql) c world).2.1 (m.exec (serve mysql) c world).2.2 := by
  have meets : m.Meets anyCalls c fun _ _ => True :=
    Program.meets_of_always Reply.nonempty
      (Program.always_of_forall fun _ _ => ⟨fun _ _ => trivial, trivial⟩)
  have honest (state : World) (log : List (Event DbCall Reply)) (q : DbCall)
      (kept : TablesKept world state log) (_ : anyCalls.asks q) : TablesKept world (serve mysql q state).2
        (log ++ [⟨q, (serve mysql q state).1⟩]) ∧
        anyCalls.replies q (serve mysql q state).1 := ⟨kept.served q, trivial⟩
  have start : TablesKept world world [] := fun _ _ => ⟨rfl, rfl⟩
  exact (Action.exec_meets honest meets start).1

/-- A request on which the server returns has written nothing: it has prepared no statement. -/
theorem tables_kept_of_returned {mysql : Mysql} {fails : Nat → Stage} {server : Server} {req : Request}
    {res : Response} (returned : (scopedHandler mysql fails routes server req res).1 = .ok ()) (pool : Nat) :
    let env := server.envs server.served
    let ran := (handleRequest env (routes env)).exec (serve mysql) ⟨req, res⟩ server.world
    usersOf ran.2.1 pool = usersOf server.world pool ∧ forumOf ran.2.1 pool = forumOf server.world pool := by
  intro env ran
  have unbroken := (scopedHandler_returns_iff mysql fails server req res).mp returned
  have handled : (handleRequest env (routes env)).Ensures ⟨req, res⟩
      fun trace _ _ => Begins (opening env ⟨req, res⟩) trace := handleRequest_begins _
  have begins := handled.exec (serve mysql) server.world
  have served := Program.served_exec (handleRequest env (routes env) ⟨req, res⟩) (serve mysql) server.world
  have unmade := ((runDefined_iff _ _ _).mp ((runDefined_iff_not_breaksOff begins served).mpr unbroken)).2
  refine tables_kept mysql _ _ server.world (List.filter_eq_nil_iff.mpr fun e member some_ => ?_) pool
  exact unmade e member (statementMade_of_wrote some_)

/-- A request makes at most one statement that writes rows of `users` or `forum`, and as its last call; and a
    request on which the server returns has left all these rows as they were. -/
theorem request_writes_once (mysql : Mysql) (fails : Nat → Stage) (server : Server) (req : Request)
    (res : Response) :
    let env := server.envs server.served
    let ran := (handleRequest env (routes env)).exec (serve mysql) ⟨req, res⟩ server.world
    (ran.2.2.filter wrote).length ≤ 1 ∧ (∀ e ∈ ran.2.2.dropLast, wrote e = false) ∧
      ((∀ pool, usersOf ran.2.1 pool = usersOf server.world pool ∧
        forumOf ran.2.1 pool = forumOf server.world pool) ∨
        (scopedHandler mysql fails routes server req res).1 = .error .undefinedBehaviour) := by
  intro env ran
  have last : ∀ e ∈ ran.2.2.dropLast, wrote e = false :=
    (handleRequest_writesLast routes_writeLast ⟨req, res⟩).exec (serve mysql) server.world
  refine ⟨length_filter_wrote last, last, ?_⟩
  rcases scopedHandler_cases mysql fails server req res with returned | undefined
  · exact Or.inl fun pool => tables_kept_of_returned returned pool
  · exact Or.inr undefined

end Waspp
