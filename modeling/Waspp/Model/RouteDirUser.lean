/-
Module: Waspp.Model.RouteDirUser
Layer: Model
Purpose: The handlers of `dir_user`: the sign-in and sign-up pages, the check of a sign-in, the registration
  of a user and the sign-out.
Imports: Waspp.Model.Router
Trusted boundary: human-reviewed translation of route_dir_user.cpp
Main exports: DirUser.auth, DirUser.post, DirUser.signout
Open obligations: none
-/
import Waspp.Model.Router

namespace Waspp.DirUser

open CString Interaction

variable (env : Env)

/-- A page of three files. -/
def page (file : Bytes) : Act Unit := do
  let _ ← getFile env (bytes "dir_include_header.html")
  let _ ← getFile env file
  let _ ← getFile env (bytes "dir_include_footer.html")

/-- `signin_html`. -/
def signinHtml : Act Unit := page env (bytes "dir_user_signin.html")

/-- The end of `auth`, once the password was found. -/
def signIn (userid : Nat) : Act Unit := do
  let sess ← Act.session env
  let sess ← Act.put env sess (bytes "userid") (toDecimal userid)
  let _ ← Act.put env sess (bytes "username") (← Act.param (bytes "username"))
  Act.redirectTo (bytes "/dir/forum/index")

/-- The part of `auth` behind the checks of its parameters. -/
def lookUp (passwd : Bytes) (dbShard : Pick) : Act Unit := do
  Act.db (.checkout dbShard)
  let rs ← Act.db (.selectUserid dbShard.pool (← Act.param (bytes "username")))
  match rs with
  | [] => errMsg env .usernameNotFound
  | userid :: _ =>
      let rs ← Act.db (.selectPasswd dbShard.pool userid passwd)
      match rs with
      | [] => errMsg env .authFailed
      | _ :: _ => signIn env userid

/-- `auth`. -/
def auth : Act Unit := do
  if (← Act.param (bytes "username")).isEmpty then
    errMsg env .usernameRequired
  else if (← Act.param (bytes "passwd")).isEmpty then
    errMsg env .passwdRequired
  else
    let passwd := md5Digest env (← Act.param (bytes "passwd"))
    let userid ← Act.param (bytes "userid")
    lookUp env passwd (.shardKey env.cfg.dbShardCount userid)

/-- `signup_html`. -/
def signupHtml : Act Unit := page env (bytes "dir_user_signup.html")

/-- The end of `post`, once the username was found to be free. -/
def insert (md5Passwd : Bytes) (dbShard : Nat) : Act Unit := do
  -- an empty result of the procedure leaves the zeroed column buffer
  let lastKey ← Act.db (.uniqueKeys dbShard (bytes "users") 1)
  let userid := lastKey.getD 0
  let username ← Act.param (bytes "username")
  let platformtype := strtol (← Act.param (bytes "platformtype"))
  let affectedRows ← Act.db (.insertUser dbShard
    { userid := userid
      platformid := toDecimal userid
      username := username
      passwd := md5Passwd
      platformtype := platformtype })
  if affectedRows = 0 then
    errMsg env .usersInsertFailed
  else
    Act.redirectTo (bytes "/dir/user/signin")

/-- The part of `post` behind the checks of its parameters. -/
def register (md5Passwd : Bytes) (dbShard : Pick) : Act Unit := do
  Act.db (.checkout dbShard)
  let rs ← Act.db (.selectUserid dbShard.pool (← Act.param (bytes "username")))
  match rs with
  | _ :: _ => errMsg env .usernameNotAvailable
  | [] => insert env md5Passwd dbShard.pool

/-- `post`. -/
def post : Act Unit := do
  if (← Act.param (bytes "platformid")).isEmpty then
    errMsg env .platformidRequired
  else if (← Act.param (bytes "platformtype")).isEmpty then
    errMsg env .platformtypeRequired
  else if (← Act.param (bytes "username")).isEmpty then
    errMsg env .usernameRequired
  else if (← Act.param (bytes "passwd")).isEmpty then
    errMsg env .passwdRequired
  -- C++ leaves the order of the two lookups open: the values are compared, never references to them.
  else if (← Act.param (bytes "passwd")) ≠ (← Act.param (bytes "retypepasswd")) then
    errMsg env .passwdsNotIdentical
  else
    let md5Passwd := md5Digest env (← Act.param (bytes "passwd"))
    let username ← Act.param (bytes "username")
    register env md5Passwd (.shardKey env.cfg.dbShardCount username)

/-- `signout`. -/
def signout : Act Unit := do
  Act.respond fun res => res.deleteCookie env.cfg.sessCookie
  Act.redirectTo (bytes "/dir/user/signin")

end Waspp.DirUser
