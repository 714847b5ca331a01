/-
Module: Waspp.Proofs.ForumNames
Layer: Proofs
Purpose: The names in the rows of the forum, over any interleaving of posts.  An insertion binds the name of
  the session, an update the parameter `username` of the request: a row shows the name that its last
  statement bound.  So the rows show the names of their owners throughout a run exactly when every update
  that finds a row gives the name of its own session.
Imports: Waspp.Proofs.ForumVisibility
Trusted boundary: none (fully proved)
Main exports: ForumPost, lastWrite, RowsNamed, OwnName, forum_names_iff
Open obligations: none
-/
import Waspp.Proofs.ForumVisibility

namespace Waspp

open CString Interaction

/-- A request to `post`. -/
structure ForumPost where
  env : Env
  c : Ctx

/-- The user that the request is signed in as. -/
def ForumPost.signer (post : ForumPost) : Option (Nat × Bytes) := Waspp.signer post.env post.c

/-- A call with the request that it is made for. -/
abbrev PostCall := ForumPost × DbCall

/-- A call with its reply. -/
abbrev PostEvent := Event PostCall fun call => Reply call.2

/-- The call wrote the row behind the pool. -/
def PostEvent.wrote (pool : Nat) (row : ForumRow) (e : PostEvent) : Bool :=
  e.1.2.pool = pool && writtenRows e.1.2 e.2 != 0 && e.1.2.selects row

/-- The last call that wrote the row. -/
def lastWrite (log : List PostEvent) (pool : Nat) (row : ForumRow) : Option PostEvent :=
  (log.filter (PostEvent.wrote pool row)).getLast?

/-- Every row shows the user that `name` gives for its last write; a row never written is one of the start.
    -/
def RowsNamed (name : PostCall → Option (Nat × Bytes)) (start : World) (state : World × List PostEvent) :
    Prop :=
  ∀ pool, ∀ row ∈ forumOf state.1 pool,
    match lastWrite state.2 pool row with
    | some e => name e.1 = some (row.userid, row.username)
    | none => row ∈ forumOf start pool

/-- Every row shows the name under which its owner was signed in when it was last written. -/
abbrev OwnersNamed : World → World × List PostEvent → Prop := RowsNamed fun call => call.1.signer

/-- The parameter `username` is the name that the request is signed in under. -/
def ForumPost.OwnName (post : ForumPost) : Prop :=
  ∃ userid, post.signer = some (userid, post.c.paramValue (bytes "username"))

/-- An update that found a row gave the name of its own session. -/
def PostEvent.OwnName (e : PostEvent) : Prop :=
  ∀ pool title content username updatetime seq userid,
    e.1.2 = .updateForum pool title content username updatetime seq userid → writtenRows e.1.2 e.2 ≠ 0 →
      e.1.1.OwnName

/-! ### One call

What one statement does to the rows and to the record of the calls.  A row shows the name that the last
statement that wrote it bound, and this is kept call by call. -/

/-- A call that wrote the row is its last one. -/
theorem lastWrite_append_of_wrote {log : List PostEvent} {pool : Nat} {row : ForumRow} {e : PostEvent}
    (wrote : e.wrote pool row = true) : lastWrite (log ++ [e]) pool row = some e := by
  simp [lastWrite, List.filter_append, wrote]

/-- A call that did not write the row changes nothing. -/
theorem lastWrite_append_of_not {log : List PostEvent} {pool : Nat} {row : ForumRow} {e : PostEvent}
    (kept : e.wrote pool row = false) : lastWrite (log ++ [e]) pool row = lastWrite log pool row := by
  simp [lastWrite, List.filter_append, kept]

/-- The last call that wrote a row is one of the record and wrote it. -/
theorem wrote_of_lastWrite {log : List PostEvent} {pool : Nat} {row : ForumRow} {e : PostEvent}
    (last : lastWrite log pool row = some e) : e ∈ log ∧ e.wrote pool row = true :=
  List.mem_filter.mp (List.mem_of_getLast? last)

/-- A row after a statement: the statement wrote it and bound what it shows, or it was there and the
    statement did not write it. -/
theorem Rewrites.row_cases {q : DbCall} {written : Nat} {rows rows' : List ForumRow}
    (rewrites : Rewrites q written rows rows') {row : ForumRow} (member : row ∈ rows') :
    q.bound = some (row.userid, row.username) ∧ (written != 0 && q.selects row) = true ∨
      row ∈ rows ∧ (written != 0 && q.selects row) = false := by
  cases rewrites with
  | nothing => exact Or.inr ⟨member, rfl⟩
  | inserts new =>
      rcases List.mem_append.mp member with old | added
      · exact Or.inr ⟨old, by simpa [DbCall.selects] using new row old⟩
      · rw [List.mem_singleton.mp added]
        exact Or.inl ⟨rfl, by simp [DbCall.selects]⟩
  | @updates pool title content username updatetime seq userid =>
      rcases List.mem_map.mp member with ⟨old, there, rfl⟩
      by_cases found : old.seq = seq ∧ old.userid = userid
      · have nonempty : rows.filter (fun row => row.seq = seq ∧ row.userid = userid) ≠ [] :=
          List.ne_nil_of_mem (List.mem_filter.mpr ⟨there, by simpa using found⟩)
        rw [if_pos found]
        exact Or.inl ⟨by simp [DbCall.bound, found.2], by simpa [DbCall.selects, found] using nonempty⟩
      · rw [if_neg found]
        exact Or.inr ⟨there, by simp [DbCall.selects, found]⟩

/-- A statement that updates rows leaves a row that it wrote. -/
theorem Rewrites.written_row {pool : Nat} {title content username updatetime : Bytes}
    {seq userid written : Nat}
    {rows rows' : List ForumRow}
    (rewrites : Rewrites (.updateForum pool title content username updatetime seq userid) written rows rows')
    (wrote : written ≠ 0) : ∃ row ∈ rows', row.seq = seq ∧ row.userid = userid ∧
      row.username = username := by
  cases rewrites with
  | nothing => exact absurd rfl wrote
  | updates =>
      have nonempty := List.length_pos_iff.mp (Nat.pos_of_ne_zero wrote)
      rcases List.exists_mem_of_ne_nil _ nonempty with ⟨old, member⟩
      rcases List.mem_filter.mp member with ⟨there, found⟩
      have found : old.seq = seq ∧ old.userid = userid := by simpa using found
      exact ⟨_, List.mem_map.mpr ⟨old, there, if_pos found⟩, found.1, found.2, rfl⟩

/-- A statement that updates rows leaves the rows of other users as they are. -/
theorem Rewrites.other_users {pool : Nat} {title content username updatetime : Bytes}
    {seq userid written : Nat}
    {rows rows' : List ForumRow}
    (rewrites : Rewrites (.updateForum pool title content username updatetime seq userid) written rows rows')
    {other : Nat} (ne : other ≠ userid) :
    (rows'.filter fun row => row.userid = other) = rows.filter fun row => row.userid = other := by
  cases rewrites with
  | nothing => rfl
  | updates =>
      have skip (row : ForumRow) (rest : List ForumRow) (owner : row.userid = userid) :
          ((row :: rest).filter fun row => row.userid = other) = rest.filter fun row => row.userid = other :=
        List.filter_cons_of_neg (by simpa [owner] using ne.symm)
      let writing (row : ForumRow) : ForumRow :=
        { row with title := title, content := content, username := username, updatetime := updatetime }
      induction rows with
      | nil => rfl
      | cons row rest ih =>
          by_cases found : row.seq = seq ∧ row.userid = userid
          · rw [List.map_cons, if_pos found, skip (writing row) _ found.2, skip row rest found.2, ih]
          · rw [List.map_cons, if_neg found, List.filter_cons, List.filter_cons, ih]

/-- A served call leaves every row showing what its last statement bound. -/
theorem RowsNamed.served {mysql : Mysql} {start world : World} {log : List PostEvent} (call : PostCall)
    (named : RowsNamed (fun call => call.2.bound) start (world, log)) :
    RowsNamed (fun call => call.2.bound) start
      ((serve mysql call.2 world).2, log ++ [⟨call, (serve mysql call.2 world).1⟩]) := by
  rcases call with ⟨post, q⟩
  rcases serve_forum mysql q world with ⟨rewrites, elsewhere⟩
  intro pool row member
  simp only
  by_cases here : pool = q.pool
  · subst here
    have wrote : PostEvent.wrote q.pool row ⟨(post, q), (serve mysql q world).1⟩ =
        (writtenRows q (serve mysql q world).1 != 0 && q.selects row) := by
      simp [PostEvent.wrote]
    rcases rewrites.row_cases member with ⟨bound, writes⟩ | ⟨old, silent⟩
    · rw [lastWrite_append_of_wrote (wrote.trans writes)]
      exact bound
    · rw [lastWrite_append_of_not (wrote.trans silent)]
      exact named q.pool row old
  · rw [lastWrite_append_of_not (by simp [PostEvent.wrote, Ne.symm here])]
    apply named pool row
    rw [← elsewhere pool here]
    exact member

/-! ### The contract of a post -/

/-- An insertion binds the user that the request is signed in as; an update binds its `userid`, and the
    parameter `username`. -/
def signedContract : Contract PostCall fun call => Reply call.2 where
  asks
    | (post, .insertForum _ row) => post.signer = some (row.userid, row.username)
    | (post, .updateForum _ _ _ username _ _ userid) =>
        username = post.c.paramValue (bytes "username") ∧ ∃ name, post.signer = some (userid, name)
    | _ => True
  replies _ _ := True

/-- A program whose calls are under the name of a request. -/
abbrev PostProgram := Program PostCall (fun call => Reply call.2) (Except Exn Unit × Ctx)

/-- The databases, the calls served and the posts under way. -/
abbrev PostsUnderWay :=
  Interleaving PostCall (fun call => Reply call.2) (Except Exn Unit × Ctx) (World × List PostEvent)

/-- The databases, with a record of the calls. -/
abbrev servePosts (mysql : Mysql) (call : PostCall) (state : World × List PostEvent) :
    Reply call.2 × World × List PostEvent :=
  logged (nameless (serve mysql)) call state

/-- What comes in: a post, with its calls under the name of its request. -/
def SignedPost (p : PostProgram) : Prop :=
  ∃ post : ForumPost, p = (DirForum.post post.env post.c).signed post

/-- A post keeps to the contract, whatever the databases answer. -/
theorem posts_meet {p : PostProgram} (admitted : SignedPost p) :
    p.Meets signedContract fun _ => True := by
  rcases admitted with ⟨post, rfl⟩
  apply Program.meets_signed.mpr
  apply forumPost_meets_signer
  intro userid username signedIn
  exact ⟨fun _ _ => trivial, trivial, fun _ _ => signedIn, fun _ => ⟨rfl, username, signedIn⟩⟩

/-- Throughout a run the rows show what their last statements bound, and all calls are within the contract.
    -/
theorem posts_hold (mysql : Mysql) (start : World) {i : PostsUnderWay}
    (reached : Interleaving.Reachable (servePosts mysql) SignedPost (start, []) i) :
    (RowsNamed (fun call => call.2.bound) start i.world ∧ ∀ e ∈ i.world.2, signedContract.asks e.1) ∧
      ∀ p ∈ i.running, p.Meets signedContract fun _ => True := by
  refine Interleaving.contract_holds signedContract
    (I := fun state => RowsNamed (fun call => call.2.bound) start state ∧
    ∀ e ∈ state.2, signedContract.asks e.1) ⟨fun pool row member => member, by simp⟩ ?_ (fun p => posts_meet)
    reached
  rintro ⟨world, log⟩ call ⟨named, asked⟩ asks
  refine ⟨⟨named.served call, ?_⟩, trivial⟩
  intro e member
  rcases List.mem_append.mp member with before | last
  · exact asked e before
  · rw [List.mem_singleton.mp last]
    exact asks

/-! ### The run

The contract of a single post and the effect of one call, carried over any order of the posts' calls. -/

/-- The calls served before a state of a run are among those served by its end. -/
theorem served_before {mysql : Mysql} {start : World} {states : List PostsUnderWay}
    (run : Interleaving.Run (servePosts mysql) SignedPost (start, []) states) :
    ∀ i ∈ states.head?, ∀ j ∈ states, ∀ e ∈ j.world.2, e ∈ i.world.2 := by
  induction run with
  | start => simp
  | @step i j before run step ih =>
      have grows : ∀ e ∈ i.world.2, e ∈ j.world.2 := by
        cases step with
        | enter p allowed => exact fun _ member => member
        | served q next => exact fun e member => List.mem_append_left _ member
      intro last same k member e served
      cases Option.some.inj same
      rcases List.mem_cons.mp member with rfl | earlier
      · exact served
      · exact grows e (ih i rfl k earlier e served)

/-- An update that found a row leaves one that shows the name of its session only if that is the parameter.
    -/
theorem ownName_of_named {mysql : Mysql} {start world : World} {log : List PostEvent} {call : PostCall}
    (asked : signedContract.asks call)
    (named : OwnersNamed start ((serve mysql call.2 world).2,
      log ++ [⟨call, (serve mysql call.2 world).1⟩])) :
    PostEvent.OwnName ⟨call, (serve mysql call.2 world).1⟩ := by
  rcases call with ⟨post, q⟩
  intro pool title content username updatetime seq userid same wrote
  change q = _ at same
  subst same
  have rewrites :=
    (serve_forum mysql (.updateForum pool title content username updatetime seq userid) world).1
  rcases rewrites.written_row wrote with ⟨row, member, found, owner, shown⟩
  have shows_ := named pool row member
  have writes : PostEvent.wrote pool row
      ⟨(post, .updateForum pool title content username updatetime seq userid),
        (serve mysql (.updateForum pool title content username updatetime seq userid) world).1⟩ = true := by
    simpa [PostEvent.wrote, DbCall.pool, DbCall.selects, found, owner] using wrote
  simp only [lastWrite_append_of_wrote writes] at shows_
  refine ⟨row.userid, ?_⟩
  rw [← asked.1, ← shown]
  exact shows_

/-- When the rows show their owners in every state, every update that found a row gave the name of its own
    session. -/
theorem ownNames_of_run {mysql : Mysql} {start : World} {states : List PostsUnderWay}
    (run : Interleaving.Run (servePosts mysql) SignedPost (start, []) states)
    (named : ∀ j ∈ states, OwnersNamed start j.world) : ∀ i ∈ states.head?, ∀ e ∈ i.world.2, e.OwnName := by
  induction run with
  | start => simp
  | @step i j before run step ih =>
      have earlier := ih (fun k member => named k (List.mem_cons_of_mem _ member)) i rfl
      have under := (posts_hold mysql start (run.reachable i (List.mem_cons_self ..))).2
      intro last same e served
      cases Option.some.inj same
      cases step with
      | enter p allowed => exact earlier e served
      | @served world left right call next =>
          have asked : signedContract.asks call := (under (.call call next) (by simp)).1
          have here := named _ (List.mem_cons_self ..)
          rcases List.mem_append.mp served with old | new
          · exact earlier e old
          · rw [List.mem_singleton.mp new]
            exact @ownName_of_named mysql start world.1 world.2 call asked here

/-- Rows that show what their last statements bound show their owners when the updates gave the names of
    their sessions. -/
theorem RowsNamed.owners {start : World} {state : World × List PostEvent}
    (named : RowsNamed (fun call => call.2.bound) start state)
    (asked : ∀ e ∈ state.2, signedContract.asks e.1)
    (own : ∀ e ∈ state.2, e.OwnName) : OwnersNamed start state := by
  intro pool row member
  have shown := named pool row member
  generalize written : lastWrite state.2 pool row = last at shown
  cases last with
  | none => exact shown
  | some e =>
      rcases wrote_of_lastWrite written with ⟨served, wrote⟩
      have within := asked e served
      have own := own e served
      rcases e with ⟨⟨post, q⟩, reply⟩
      have wrote : writtenRows q reply ≠ 0 := by
        simp only [PostEvent.wrote, Bool.and_eq_true, bne_iff_ne] at wrote
        exact wrote.1.2
      cases q with
      | insertForum pool new => exact within.trans shown
      | updateForum pool title content username updatetime seq userid =>
          rcases within with ⟨rfl, name, signedIn⟩
          rcases own _ _ _ _ _ _ _ rfl wrote with ⟨userid', named⟩
          rw [signedIn] at named
          cases named
          exact signedIn.trans shown
      | _ => cases shown

/-- In any run of posts, interleaved call by call: the rows show the names of their owners in every state
    exactly when every update that found a row gave the name of its own session; and an update changes no row
    of another user. -/
theorem forum_names_iff (mysql : Mysql) (start : World) {i : PostsUnderWay} {before : List PostsUnderWay}
    (run : Interleaving.Run (servePosts mysql) SignedPost (start, []) (i :: before)) :
    ((∀ j ∈ i :: before, OwnersNamed start j.world) ↔ ∀ e ∈ i.world.2, e.OwnName) ∧
      ∀ j ∈ i :: before, ∀ post pool title content username updatetime seq userid next,
        .call (post, .updateForum pool title content username updatetime seq userid) next ∈ j.running →
          ∀ pool' other, (∀ name, post.signer ≠ some (other, name)) →
            ((forumOf (serve mysql (.updateForum pool title content username updatetime seq userid)
              j.world.1).2
                pool').filter fun row => row.userid = other) =
              (forumOf j.world.1 pool').filter fun row => row.userid = other := by
  refine ⟨⟨?_, ?_⟩, ?_⟩
  · intro named
    exact ownNames_of_run run named i rfl
  · intro own j member
    have holds := posts_hold mysql start (run.reachable j member)
    exact holds.1.1.owners holds.1.2 fun e served => own e (served_before run i rfl j member e served)
  · intro j member post pool title content username updatetime seq userid next under pool' other ne
    have asked := ((posts_hold mysql start (run.reachable j member)).2 _ under).1
    rcases asked with ⟨-, name, signedIn⟩
    have apart : other ≠ userid := by
      rintro rfl
      exact ne name signedIn
    rcases serve_forum mysql (.updateForum pool title content username updatetime seq userid) j.world.1 with
      ⟨rewrites, elsewhere⟩
    by_cases here : pool' = pool
    · subst here
      exact rewrites.other_users apart
    · rw [elsewhere pool' here]

/-- A row that shows another user than all posts are signed in as, and was not there at the start. -/
theorem not_named {start : World} {state : World × List PostEvent} {pool : Nat} {row : ForumRow}
    (member : row ∈ forumOf state.1 pool) (new : row ∉ forumOf start pool) {who : Option (Nat × Bytes)}
    (signers : ∀ e ∈ state.2, e.1.1.signer = who) (other : who ≠ some (row.userid, row.username)) :
    ¬ OwnersNamed start state := by
  intro named
  have shown := named pool row member
  generalize written : lastWrite state.2 pool row = last at shown
  cases last with
  | none => exact new shown
  | some e => exact other ((signers e (wrote_of_lastWrite written).1).symm.trans shown)

/-! ### A name that is not the owner's -/

/-- A server that archives sessions and digests them. -/
private def namesServer : Env := { bareEnv with md5 := Md5.md5, archive := textArchive }

/-- The session of the user 2, signed in as `d`. -/
private def sessionOfD : Session :=
  ⟨[⟨bytes "sess_id", []⟩, ⟨bytes "last_tm", bytes "0"⟩, ⟨bytes "last_ip", []⟩, ⟨bytes "last_ua", []⟩,
    ⟨bytes "userid", bytes "2"⟩, ⟨bytes "username", bytes "d"⟩]⟩

/-- A post of that user with the given parameters besides the title and the content. -/
private def postOfD (params : List NameValue) : ForumPost :=
  ⟨namesServer, { uri := bytes "/"
                  params := [⟨bytes "title", bytes "t"⟩, ⟨bytes "content", bytes "c"⟩] ++ params
                  cookies := [⟨namesServer.cfg.sessCookie, sessionOfD.cookieValue namesServer⟩] }, {}⟩

/-- Three databases with a forum table each. -/
private def namesWorld : World := ⟨List.replicate 3 ⟨[⟨bytes "forum", 1, 1⟩], none, some []⟩, []⟩

/-- The state after a post that comes in alone. -/
private def afterPost (post : ForumPost) (i : PostsUnderWay) : PostsUnderWay :=
  let ran := ((DirForum.post post.env post.c).signed post).exec (servePosts plainMysql) i.world
  ⟨ran.2.1, .ret ran.1 :: i.running⟩

/-- A post that comes in and runs to its end is part of a run. -/
private theorem afterPost_reached (post : ForumPost) {start : World} {i : PostsUnderWay}
    (reached : Interleaving.Reachable (servePosts plainMysql) SignedPost (start, []) i) :
    Interleaving.Reachable (servePosts plainMysql) SignedPost (start, []) (afterPost post i) :=
  (reached.enter ⟨post, rfl⟩).exec

/-- The user posts a row. -/
private def postedByD : PostsUnderWay :=
  afterPost (postOfD []) ⟨(namesWorld, []), []⟩

/-- The user then updates the row, with a parameter `username`. -/
private def updatedByD : PostsUnderWay :=
  afterPost (postOfD [⟨bytes "seq", bytes "2"⟩, ⟨bytes "username", bytes "e"⟩]) postedByD

/-- The post of the second user is part of a run. -/
private theorem postedByD_reached :
    Interleaving.Reachable (servePosts plainMysql) SignedPost (namesWorld, []) postedByD :=
  afterPost_reached _ .start

/-- A user who is signed in as `d` can make the row show the name `e`. -/
theorem row_shows_request_name :
    Interleaving.Reachable (servePosts plainMysql) SignedPost (namesWorld, []) updatedByD ∧
      ¬ OwnersNamed namesWorld updatedByD.world := by
  have row : (⟨2, bytes "t", bytes "c", 2, bytes "e", []⟩ : ForumRow) ∈ forumOf updatedByD.world.1 1 := by
    decide +kernel
  have signers : ∀ e ∈ updatedByD.world.2, e.1.1.signer = some (2, bytes "d") := by decide +kernel
  have absent : (⟨2, bytes "t", bytes "c", 2, bytes "e", []⟩ : ForumRow) ∉ forumOf namesWorld 1 := by
    decide +kernel
  exact ⟨afterPost_reached _ postedByD_reached, not_named row absent signers (by decide)⟩

/-- A run in which the user posts one row. -/
theorem forum_names_iff_posted :
    ∃ before, Interleaving.Run (servePosts plainMysql) SignedPost (namesWorld, []) (postedByD :: before) ∧
      ((∀ j ∈ postedByD :: before, OwnersNamed namesWorld j.world) ↔
        ∀ e ∈ postedByD.world.2, e.OwnName) := by
  rcases postedByD_reached.run with ⟨before, run⟩
  exact ⟨before, run, (forum_names_iff plainMysql namesWorld run).1⟩

end Waspp
