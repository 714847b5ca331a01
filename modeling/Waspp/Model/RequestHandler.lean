/-
Module: Waspp.Model.RequestHandler
Layer: Model
Purpose: The routing table and `handle_request`: the access check, the decoded path, the choice between a
  route and a file, the handler's run, the headers of the answer, and the catch that turns an exception into
  the stock response of an internal error.  `requestHandler` runs it against
  the databases.
Imports: Waspp.Model.RouteDirForum, Waspp.Model.RouteDirUser, Waspp.Model.RouteDirPerformance,
  Waspp.Model.Connection
Trusted boundary: human-reviewed translation of request_handler.cpp and of the table of router.cpp
Main exports: routes, isAccessGranted, isAccessDenied, handleRequest, Server, requestHandler
Open obligations: none
-/
import Waspp.Model.RouteDirForum
import Waspp.Model.RouteDirUser
import Waspp.Model.RouteDirPerformance
import Waspp.Model.Connection

namespace Waspp

open CString Interaction

variable (env : Env)

/-- The routing table. -/
def routes : List Route :=
  [⟨bytes "/dir/forum/index/", DirForum.indexHtml env⟩,
    ⟨bytes "/_/dir/forum/index/", DirForum.indexJsonp env⟩,
    ⟨bytes "/dir/forum/show/", DirForum.showHtml env⟩,
    ⟨bytes "/_/dir/forum/show/", DirForum.showJsonp env⟩,
    ⟨bytes "/dir/forum/form/", DirForum.formHtml env⟩,
    ⟨bytes "/_/dir/forum/form/", DirForum.formJsonp env⟩,
    ⟨bytes "/dir/forum/del/", DirForum.del⟩,
    ⟨bytes "/dir/forum/post/", DirForum.post env⟩,
    ⟨bytes "/dir/user/signin/", DirUser.signinHtml env⟩,
    ⟨bytes "/dir/user/auth/", DirUser.auth env⟩,
    ⟨bytes "/dir/user/signup/", DirUser.signupHtml env⟩,
    ⟨bytes "/dir/user/post/", DirUser.post env⟩,
    ⟨bytes "/dir/user/signout/", DirUser.signout env⟩,
    ⟨bytes "/dir/performance/test/", DirPerformance.test env⟩]

/-- `is_access_granted(remote_addr)`. -/
def isAccessGranted (remoteAddr : Bytes) : Bool :=
  if env.cfg.accessGranted.length = 0 then true
  else if env.cfg.accessGranted.contains remoteAddr then false
  else true

/-- `is_access_denied(remote_addr)`. -/
def isAccessDenied (remoteAddr : Bytes) : Bool :=
  if env.cfg.accessDenied.length = 0 then false
  else if !env.cfg.accessDenied.contains remoteAddr then true
  else false

/-- `res = response::static_response(status)`. -/
def respondStatic (status : StatusType) : Act Unit :=
  Act.respond fun _ => .staticResponse status

/-- The Set-Cookie header of a cookie. -/
def setCookieHeader (cookie : NameValue) : NameValue :=
  { name := bytes "Set-Cookie", value := cookie.name ++ bytes "=" ++ cookie.value ++ bytes "; path=/" }

/-- The headers that every handled response gets. -/
def fillHeaders (res : Response) : Response :=
  let res := res.pushHeader (bytes "Content-Type") (extensionToType res.contentExtension)
  let res := res.pushHeader (bytes "Keep-Alive") (bytes "timeout=0, max=0")
  { res with headers := res.headers ++ res.cookies.map setCookieHeader }

/-- The compression of the content. -/
def compressContent : Act Unit := do
  if env.cfg.compress then
    let acceptEncoding ← Act.header (bytes "Accept-Encoding")
    let c ← Action.get
    if acceptEncoding = bytes "gzip, deflate" ∧ isCompressible c.res.contentExtension = true then
      Act.respond fun res => res.pushHeader (bytes "Content-Encoding") (bytes "gzip")
      match env.gzip c.res.content with
      | .ok text => Act.respond fun res => { res with content := text }
      | .error e => .raise e

/-- The part of `handle_request` behind the choice of what answers. -/
def fillResponse : Act Unit := do
  Act.respond fillHeaders
  compressContent env
  Act.respond fun res =>
    { res.pushHeader (bytes "Content-Length") (toDecimal res.content.length) with status := some .ok }

/-- The body of the try block of `handle_request`, over a routing table. -/
def tryRequest (table : List Route) : Act Unit := do
  let c ← Action.get
  if !isAccessGranted env c.req.remoteAddr || isAccessDenied env c.req.remoteAddr then
    respondStatic .unauthorized
  else
    match percentDecodeAndValidate c.req.uri with
    | none => respondStatic .badRequest
    | some requestUri =>
        if requestUri.isEmpty || requestUri.head? ≠ some '/'.toUInt8 ||
            (find requestUri (bytes "..") 0).isSome then
          respondStatic .badRequest
        else
          match getFunc table requestUri with
          | none =>
              if ← getFile env requestUri then fillResponse env
              else respondStatic .notFound
          | some func =>
              func
              fillResponse env

/-- `handle_request(req, res)`: an exception becomes the response of an internal error. -/
def handleRequest (table : List Route) : Act Unit :=
  (tryRequest env table).recover fun _ => respondStatic .internalServerError

/-! ### The handler of a running server -/

/-- What requests share: the databases, and the environment that each coming request meets. -/
structure Server where
  world : World
  envs : Nat → Env
  served : Nat := 0

/-- The handler that a connection calls. -/
def requestHandler (mysql : Mysql) (table : Env → List Route) : Handler Server := fun server req res =>
  let env := server.envs server.served
  let ((result, c), world, _) := (handleRequest env (table env)).exec (serve mysql) ⟨req, res⟩ server.world
  (result.mapError .thrown, { server with world := world, served := server.served + 1 }, c.req, c.res)

end Waspp
