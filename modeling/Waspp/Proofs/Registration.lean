/-
Module: Waspp.Proofs.Registration
Layer: Proofs
Purpose: What a registration asks of the databases, over any contract: the lookup of the username, one key
  and one row, all at the shard of the username.
Imports: Waspp.Model.RouteDirUser
Trusted boundary: none (fully proved)
Main exports: shardOfUsername, newRow, PassesChecks, post_meets, registrationForm
Open obligations: none
-/
import Waspp.Model.RouteDirUser

namespace Waspp

open CString Interaction

variable (env : Env)

/-- The shard that a request's username selects. -/
def shardOfUsername (c : Ctx) : Nat :=
  shardOfString env.cfg.dbShardCount (c.paramValue (bytes "username"))

/-- What the registration picks its pool with. -/
def pickOfUsername (c : Ctx) : Pick := .shardKey env.cfg.dbShardCount (c.paramValue (bytes "username"))

@[simp] theorem pool_pickOfUsername (c : Ctx) : (pickOfUsername env c).pool = shardOfUsername env c := rfl

/-- The row that a registration inserts under a userid. -/
def newRow (c : Ctx) (userid : Nat) : UserRow where
  userid := userid
  platformid := toDecimal userid
  username := c.paramValue (bytes "username")
  passwd := md5Digest env (c.paramValue (bytes "passwd"))
  platformtype := strtol (c.paramValue (bytes "platformtype"))

/-- The request passes the checks of `post`. -/
structure PassesChecks (c : Ctx) : Prop where
  username : c.paramValue (bytes "username") ≠ []
  passwd : c.paramValue (bytes "passwd") ≠ []

/-- What a registration asks under a contract. -/
structure RegistrationAsks (contract : Contract DbCall Reply) (c : Ctx) : Prop where
  checkout : contract.asks (.checkout (pickOfUsername env c))
  selectUserid : contract.asks (.selectUserid (shardOfUsername env c) (c.paramValue (bytes "username")))
  uniqueKeys : contract.asks (.uniqueKeys (shardOfUsername env c) (bytes "users") 1)
  insertUser : PassesChecks c → ∀ lastKey : Option Nat,
    contract.replies (.uniqueKeys (shardOfUsername env c) (bytes "users") 1) (.ok lastKey) →
      contract.asks (.insertUser (shardOfUsername env c) (newRow env c (lastKey.getD 0)))

variable {env}

/-- A page of the server calls no database. -/
theorem errMsg_meets (contract : Contract DbCall Reply) (env : Env) (errCode : ErrorType) (c : Ctx) :
    (errMsg env errCode).Meets contract c fun _ _ => True := by
  simp [errMsg, getFile, Act.respond, Action.meets_bind]

/-- The insertion asks for its statement at the shard of the username. -/
theorem insert_meets {contract : Contract DbCall Reply} {c c' : Ctx} (asks : RegistrationAsks env contract c)
    (passes : PassesChecks c) (same : ∀ name, c'.paramValue name = c.paramValue name) :
    (DirUser.insert env (md5Digest env (c.paramValue (bytes "passwd"))) (shardOfUsername env c)).Meets
    contract c'
      fun _ _ => True := by
  unfold DirUser.insert
  apply Act.meets_db_bind.mpr
  refine ⟨asks.uniqueKeys, fun _ _ => trivial, ?_⟩
  intro lastKey replied
  simp only [Act.meets_param_bind]
  apply Act.meets_db_bind.mpr
  refine ⟨by simpa [newRow, same] using asks.insertUser passes lastKey replied, fun _ _ => trivial, ?_⟩
  intro affectedRows _
  exact (Action.meets_ite _).mpr ⟨fun _ => errMsg_meets _ _ _ _, fun _ => trivial⟩

/-- So does the registration, with the questions in front of it. -/
theorem register_meets {contract : Contract DbCall Reply} {c c' : Ctx}
    (asks : RegistrationAsks env contract c)
    (passes : PassesChecks c) (same : ∀ name, c'.paramValue name = c.paramValue name) :
    (DirUser.register env (md5Digest env (c.paramValue (bytes "passwd"))) (pickOfUsername env c)).Meets
    contract c'
      fun _ _ => True := by
  unfold DirUser.register
  apply Act.meets_db_bind.mpr
  refine ⟨asks.checkout, fun _ _ => trivial, fun _ _ => ?_⟩
  simp only [Act.meets_param_bind]
  apply Act.meets_db_bind.mpr
  refine ⟨by simpa [same] using asks.selectUserid, fun _ _ => trivial, ?_⟩
  intro rs _
  cases rs with
  | nil => exact insert_meets asks passes (by simpa using same)
  | cons userid rest => exact errMsg_meets _ _ _ _

/-- A registration meets every contract under which its calls may be asked. -/
theorem post_meets {contract : Contract DbCall Reply} {c : Ctx} (asks : RegistrationAsks env contract c) :
    (DirUser.post env).Meets contract c fun _ _ => True := by
  have page (errCode : ErrorType) (c' : Ctx) := errMsg_meets contract env errCode c'
  unfold DirUser.post
  simp only [Act.meets_param_bind, Action.meets_ite, Ctx.paramValue_readParam]
  refine ⟨fun _ => page _ _, fun _ => ⟨fun _ => page _ _, fun _ => ⟨fun _ => page _ _, fun username =>
    ⟨fun _ => page _ _, fun passwd => ⟨fun _ => page _ _, fun _ => ?_⟩⟩⟩⟩⟩
  apply register_meets asks ⟨by simpa using username, by simpa using passwd⟩
  simp

/-- The form of a registration. -/
def registrationForm (username passwd : Bytes) : Ctx :=
  ⟨{ params :=
      [⟨bytes "platformid", bytes "1"⟩, ⟨bytes "platformtype", bytes "1"⟩, ⟨bytes "username", username⟩,
        ⟨bytes "passwd", passwd⟩, ⟨bytes "retypepasswd", passwd⟩] }, {}⟩

end Waspp
