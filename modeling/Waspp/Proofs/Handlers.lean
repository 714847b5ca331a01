/-
Module: Waspp.Proofs.Handlers
Layer: Proofs
Purpose: What route handlers are made of.  `Handling` lists the steps that a handler takes one after the
  other: it reads parameters and parts of the path, constructs a session and puts entries into it, deletes
  the session cookie, redirects, fills in content, reads files, and calls databases.  Every handler of the
  routing table is made of these, so what each of them keeps is kept by every handler.
Imports: Waspp.Model.RequestHandler, Waspp.Foundation.Framing
Trusted boundary: none (fully proved)
Main exports: Handling, Handling.errMsg, handling_routes
Open obligations: none
-/
import Waspp.Model.RequestHandler
import Waspp.Foundation.Framing

namespace Waspp

open CString Framing Interaction

/-- The actions that handlers are made of. -/
inductive Handling (env : Env) : {α : Type} → Act α → Prop where
  | pure {α : Type} (a : α) : Handling env (pure a : Act α)
  | raise {α : Type} (e : Exn) : Handling env (Action.raise e : Act α)
  | bind {α β : Type} {m : Act α} {f : α → Act β} (first : Handling env m) (next : ∀ a, Handling env (f a)) :
      Handling env (m >>= f)
  | param (name : Bytes) : Handling env (Act.param name)
  /-- A look at the parts of the path. -/
  | restParams {α : Type} {f : Ctx → Act α} (next : ∀ c, Handling env (f c))
      (only : ∀ c c' : Ctx, c.req.restParams = c'.req.restParams → f c = f c') :
        Handling env (Action.get >>= f)
  | session : Handling env (Act.session env)
  | put (s : Session) (name value : Bytes) : Handling env (Act.put env s name value)
  | signOut : Handling env (Act.respond fun res => res.deleteCookie env.cfg.sessCookie)
  /-- The urls that handlers redirect to are literals. -/
  | redirectTo {url : Bytes} (plain : PlainText url) : Handling env (Act.redirectTo url)
  /-- A change of the content and its extension. -/
  | fill {f : Response → Response}
      (only : ∀ res, (f res).status = res.status ∧ (f res).headers = res.headers ∧
        (f res).cookies = res.cookies) :
      Handling env (Act.respond f)
  | setJsonp : Handling env setJsonp
  | getFile (path : Bytes) : Handling env (getFile env path)
  | db (q : DbCall) : Handling env (Act.db q)

namespace Handling

variable {env : Env}

/-- A branch handles when both of its sides do. -/
theorem ite {α : Type} (p : Prop) [Decidable p] {m n : Act α} (yes : Handling env m) (no : Handling env n) :
    Handling env (if p then m else n) := by
  split
  · exact yes
  · exact no

/-- Writing an answer fills in content and its type. -/
theorem writeJson (json : Ptree) : Handling env (Act.writeJson env json) := by
  unfold Act.writeJson
  split
  · exact .pure _
  · exact .raise _

/-- The content may be cleared. -/
theorem clear : Handling env (Act.respond fun res => { res with content := [] }) :=
  .fill fun _ => ⟨rfl, rfl, rfl⟩

/-- An answer with its callback is one, too. -/
theorem writeJsonp (json : Ptree) : Handling env (writeJsonp env json) := by
  apply bind (writeJson json)
  intro text
  exact .fill fun res => ⟨rfl, rfl, rfl⟩

theorem errMsg (errCode : ErrorType) : Handling env (errMsg env errCode) := by
  apply bind clear
  intro _
  apply bind (.getFile _)
  intro _
  refine bind (.fill ?_) ?_
  · intro res
    exact ⟨rfl, rfl, rfl⟩
  intro _
  apply bind (.getFile _)
  intro _
  exact .fill fun res => ⟨rfl, rfl, rfl⟩

/-- A page of the users fills in content and its type. -/
theorem page (file : Bytes) : Handling env (DirUser.page env file) := by
  apply bind (.getFile _)
  intro _
  apply bind (.getFile _)
  intro _
  apply bind (.getFile _)
  intro _
  exact .pure _

/-! ### The handlers of the forum

Each handler is taken apart along its text: what it asks and sets, it sets in the ways that `Handling`
allows. -/

/-- A page of the forum fills in content and its type. -/
theorem html (file : Bytes) : Handling env (DirForum.html env file) := by
  apply bind .session
  intro sess
  apply ite
  · exact .redirectTo (by decide)
  · apply bind (.getFile _)
    intro _
    apply bind (.getFile _)
    intro _
    apply bind .setJsonp
    intro _
    apply bind (.getFile _)
    intro _
    exact .pure _

/-- The index of the forum. -/
theorem indexJsonp : Handling env (DirForum.indexJsonp env) := by
  apply bind .session
  intro sess
  apply ite
  · exact writeJsonp _
  · apply restParams
    · intro c
      apply bind (.db _)
      intro _
      apply bind (.db _)
      intro totalCount
      apply bind (.db _)
      intro rows
      exact writeJsonp _
    · intro c c' same
      simp only [same]

/-- The parameters of a request. -/
theorem paramsJsonp : Handling env (DirForum.paramsJsonp env) := by
  apply bind .session
  intro sess
  apply ite
  · exact writeJsonp _
  · apply restParams
    · intro c
      exact writeJsonp _
    · intro c c' same
      simp only [same]

/-- A post, which redirects to the session's end or answers. -/
theorem forumPost : Handling env (DirForum.post env) := by
  apply bind .session
  intro sess
  apply ite
  · exact .redirectTo (by decide)
  · apply bind (.param _)
    intro seqText
    apply bind (.param _)
    intro title
    apply ite
    · exact errMsg _
    · apply bind (.param _)
      intro content
      apply ite
      · exact errMsg _
      · apply bind (.db _)
        intro _
        apply ite
        · apply bind (.db _)
          intro lastKey
          apply bind (.param _)
          intro title
          apply bind (.param _)
          intro content
          apply bind (.db _)
          intro affectedRows
          apply ite
          · exact errMsg _
          · exact .redirectTo (by decide)
        · apply bind (.param _)
          intro title
          apply bind (.param _)
          intro content
          apply bind (.param _)
          intro username
          apply bind (.db _)
          intro _
          exact .redirectTo (by decide)

/-! ### The handlers of the users -/

/-- What the sign-in does behind a row that was found. -/
theorem signIn (userid : Nat) : Handling env (DirUser.signIn env userid) := by
  apply bind .session
  intro sess
  apply bind (.put _ _ _)
  intro sess
  apply bind (.param _)
  intro username
  apply bind (.put _ _ _)
  intro sess
  exact .redirectTo (by decide)

/-- The look-up of the row. -/
theorem lookUp (passwd : Bytes) (dbShard : Pick) : Handling env (DirUser.lookUp env passwd dbShard) := by
  apply bind (.db _)
  intro _
  apply bind (.param _)
  intro username
  apply bind (.db _)
  intro rs
  cases rs with
  | nil => exact errMsg _
  | cons userid rest =>
      apply bind (.db _)
      intro rs
      cases rs with
      | nil => exact errMsg _
      | cons row rest => exact signIn _

/-- A sign-in. -/
theorem auth : Handling env (DirUser.auth env) := by
  apply bind (.param _)
  intro username
  apply ite
  · exact errMsg _
  · apply bind (.param _)
    intro passwd
    apply ite
    · exact errMsg _
    · apply bind (.param _)
      intro passwd
      apply bind (.param _)
      intro userid
      exact lookUp _ _

/-- The insertion of a new user. -/
theorem insert (md5Passwd : Bytes) (dbShard : Nat) :
    Handling env (DirUser.insert env md5Passwd dbShard) := by
  apply bind (.db _)
  intro lastKey
  apply bind (.param _)
  intro username
  apply bind (.param _)
  intro platformtype
  apply bind (.db _)
  intro affectedRows
  apply ite
  · exact errMsg _
  · exact .redirectTo (by decide)

/-- A registration behind its checks. -/
theorem register (md5Passwd : Bytes) (dbShard : Pick) :
    Handling env (DirUser.register env md5Passwd dbShard) := by
  apply bind (.db _)
  intro _
  apply bind (.param _)
  intro username
  apply bind (.db _)
  intro rs
  cases rs with
  | nil => exact insert _ _
  | cons row rest => exact errMsg _

/-- A registration. -/
theorem userPost : Handling env (DirUser.post env) := by
  apply bind (.param _)
  intro platformid
  apply ite
  · exact errMsg _
  · apply bind (.param _)
    intro platformtype
    apply ite
    · exact errMsg _
    · apply bind (.param _)
      intro username
      apply ite
      · exact errMsg _
      · apply bind (.param _)
        intro passwd
        apply ite
        · exact errMsg _
        · apply bind (.param _)
          intro passwd
          apply bind (.param _)
          intro retypepasswd
          apply ite
          · exact errMsg _
          · apply bind (.param _)
            intro passwd
            apply bind (.param _)
            intro username
            exact register _ _

/-- A sign-out. -/
theorem signout : Handling env (DirUser.signout env) := by
  apply bind .signOut
  intro _
  exact .redirectTo (by decide)

/-! ### The handler of the performance test -/

/-- The performance test. -/
theorem test : Handling env (DirPerformance.test env) := by
  apply bind .session
  intro sess
  apply bind (.put _ _ _)
  intro sess
  apply restParams
  · intro c
    apply bind (.db _)
    intro _
    apply bind (.db _)
    intro totalCount
    apply bind (.db _)
    intro rows
    exact writeJsonp _
  · intro c c' same
    simp only [same]

end Handling

/-- Every handler of the routing table is made of these actions. -/
theorem handling_routes (env : Env) : ∀ route ∈ routes env, Handling env route.func := by
  simp only [routes, List.mem_cons, List.not_mem_nil, or_false, forall_eq_or_imp, forall_eq]
  exact ⟨.html _, .indexJsonp, .html _, .paramsJsonp, .html _, .paramsJsonp, .pure _, .forumPost, .page _,
    .auth, .page _, .userPost, .signout, .test⟩

end Waspp
