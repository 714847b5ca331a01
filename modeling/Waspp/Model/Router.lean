/-
Module: Waspp.Model.Router
Layer: Model
Purpose: What route handlers are written with: actions on the request and the response that may throw and may
  call the databases, the members of `router` that fill in a response, the choice of a handler by the
  request's path, and the types of file extensions.
Imports: Waspp.Foundation.Interaction, Waspp.Model.Database, Waspp.Model.Session
Trusted boundary: human-reviewed translation of router.cpp and mime_types.cpp
Main exports: Act, Act.db, Act.param, Act.redirectTo, getFile, setJsonp, errMsg, Route, getFunc,
  extensionToType, isCompressible
Open obligations: none
-/
import Waspp.Foundation.Interaction
import Waspp.Model.Database
import Waspp.Model.Session

namespace Waspp

open CString Interaction

/-- An action of a handler. -/
abbrev Act (α : Type) : Type := Action DbCall Reply Ctx Exn α

namespace Act

/-- `req.param(name)`. -/
def param (name : Bytes) : Act Bytes :=
  .lift fun c => (.ok (c.paramValue name), c.readParam name)

/-- `req.header(name)`. -/
def header (name : Bytes) : Act Bytes :=
  .lift fun c => (.ok (c.headerValue name), c.readHeader name)

/-- A change of the response. -/
def respond (f : Response → Response) : Act Unit :=
  .modify fun c => c.respond f

/-- `res.redirect_to(url)`. -/
def redirectTo (url : Bytes) : Act Unit := respond fun res => res.redirectTo url

/-- The construction of a session. -/
def session (env : Env) : Act Session := .lift fun c => Session.construct env c

/-- `sess.put(name, value)`. -/
def put (env : Env) (s : Session) (name value : Bytes) : Act Session :=
  .lift fun c =>
    let (s, c) := s.put env name value c
    (.ok s, c)

/-- A call to a database, throwing what it throws. -/
def db (q : DbCall) : Act (Answer q) :=
  Action.ask q >>= fun
    | .ok answer => pure answer
    | .error e => .raise e

/-- The rule of a parameter and what follows it. -/
theorem meets_param_bind {α : Type} {contract : Contract DbCall Reply} {name : Bytes} {f : Bytes → Act α}
    {c : Ctx}
    {P : Except Exn α → Ctx → Prop} :
    (param name >>= f).Meets contract c P ↔ (f (c.paramValue name)).Meets contract (c.readParam name) P :=
  Action.meets_bind

/-- Reading a parameter gives its value and leaves the entry that `operator[]` makes. -/
theorem ensures_param_bind {α : Type} {name : Bytes} {f : Bytes → Act α} {c : Ctx}
    {P : List (Event DbCall Reply) → Except Exn α → Ctx → Prop} :
    (param name >>= f).Ensures c P ↔ (f (c.paramValue name)).Ensures (c.readParam name) P :=
  Action.ensures_bind

theorem ensures_header_bind {α : Type} {name : Bytes} {f : Bytes → Act α} {c : Ctx}
    {P : List (Event DbCall Reply) → Except Exn α → Ctx → Prop} :
    (header name >>= f).Ensures c P ↔ (f (c.headerValue name)).Ensures (c.readHeader name) P :=
  Action.ensures_bind

/-- The rule of a call and what follows it: what the call throws is thrown on. -/
theorem meets_db_bind {α : Type} {contract : Contract DbCall Reply} {q : DbCall} {f : Answer q → Act α}
    {c : Ctx}
    {P : Except Exn α → Ctx → Prop} :
    (db q >>= f).Meets contract c P ↔
      contract.asks q ∧ (∀ e, contract.replies q (.error e) → P (.error e) c) ∧
        ∀ answer, contract.replies q (.ok answer) → (f answer).Meets contract c P := by
  unfold db
  simp only [Action.meets_bind, Action.meets_ask]
  apply and_congr Iff.rfl
  constructor
  · intro meets
    exact ⟨fun e replied => meets (.error e) replied, fun answer replied => meets (.ok answer) replied⟩
  · intro meets reply replied
    cases reply with
    | error e => exact meets.1 e replied
    | ok answer => exact meets.2 answer replied

/-- A call of a database gives an answer or throws. -/
theorem ensures_db_bind {α : Type} {q : DbCall} {f : Answer q → Act α} {c : Ctx}
    {P : List (Event DbCall Reply) → Except Exn α → Ctx → Prop} :
    (db q >>= f).Ensures c P ↔
      (∀ e, P [⟨q, .error e⟩] (.error e) c) ∧
        ∀ answer, (f answer).Ensures c fun later r last => P (⟨q, .ok answer⟩ :: later) r last := by
  unfold db
  simp only [Action.ensures_bind, Action.ensures_ask]
  constructor
  · intro ensures
    exact ⟨fun e => ensures (.error e), fun answer => ensures (.ok answer)⟩
  · intro ensures reply
    cases reply with
    | error e => exact ensures.1 e
    | ok answer => exact ensures.2 answer

section Execution

variable {ω α : Type} (serve : (q : DbCall) → ω → Reply q × ω) (c : Ctx) (world : ω)

/-- A parameter is read without a call. -/
theorem exec_param_bind (name : Bytes) (f : Bytes → Act α) :
    (param name >>= f).exec serve c world = (f (c.paramValue name)).exec serve (c.readParam name) world :=
  (Action.exec_bind serve c world (param name) f).trans rfl

/-- A call that is answered is followed by what comes behind it. -/
theorem exec_db_bind_of_ok {q : DbCall} {f : Answer q → Act α} {answer : Answer q} {world' : ω}
    (served : serve q world = (.ok answer, world')) :
    (db q >>= f).exec serve c world =
      (((f answer).exec serve c world').1, ((f answer).exec serve c world').2.1,
        ⟨q, .ok answer⟩ :: ((f answer).exec serve c world').2.2) := by
  unfold db
  simp only [Action.exec_bind, Action.exec_ask, served, Action.exec_pure, List.append_nil,
    List.singleton_append]

end Execution

/-- A call of the JSON writer. -/
def writeJson (env : Env) (json : Ptree) : Act Bytes :=
  match env.writeJson json with
  | .ok text => pure text
  | .error e => .raise e

end Act

/-! ### Filling in a response -/

/-- `get_file(cfg, res, request_path)` on the response: whether the file was read, and the response. -/
def readFile (env : Env) (requestPath : Bytes) (res : Response) : Bool × Response :=
  let fullPath := env.cfg.docRoot ++ requestPath
  let fullPath :=
    if fullPath.getLast? = some '/'.toUInt8 then fullPath ++ bytes "/index.html" else fullPath
  match env.files (cstr fullPath) with
  | none => (false, res)
  | some content =>
      (true, { res with content := res.content ++ content, contentExtension := getExtension fullPath })

/-- `router::get_file(cfg, res, request_path)`. -/
def getFile (env : Env) (requestPath : Bytes) : Act Bool :=
  .lift fun c =>
    let (found, res) := readFile env requestPath c.res
    (.ok found, { c with res := res })

/-- `router::set_jsonp(req, res)`. -/
def setJsonp : Act Unit :=
  .modify fun c =>
    { c with
      res :=
        ((c.res.append (bytes "\n<script src='/_.js'></script>\n<script src='/_")).append c.req.uri).append
          (bytes "'></script>\n") }

/-- `router::err_msg(cfg, res, err_code)`. -/
def errMsg (env : Env) (errCode : ErrorType) : Act Unit := do
  Act.respond fun res => { res with content := [] }
  let _ ← getFile env (bytes "dir_include_header.html")
  Act.respond fun res =>
    ((res.append (bytes "<h2>Error : ")).append (env.cfg.errMsg errCode)).append (bytes "</h2>")
  let _ ← getFile env (bytes "dir_include_footer.html")
  Act.respond fun res => { res with contentExtension := bytes "html" }

/-! ### Choosing a handler -/

/-- A row of the routing table. -/
structure Route where
  uri : Bytes
  func : Act Unit

/-- `get_func(request_uri)`: the first route whose uri the path, with a slash at its end, begins with. -/
def getFunc (routes : List Route) (requestUri : Bytes) : Option (Act Unit) :=
  let requestUri :=
    if requestUri.getLast? ≠ some '/'.toUInt8 then requestUri ++ bytes "/" else requestUri
  (routes.find? fun r => r.uri.isPrefixOf requestUri).map (·.func)

/-! ### Types of extensions -/

/-- The extensions with a type. -/
def mappings : List (Bytes × Bytes) :=
  [(bytes "css", bytes "text/css"), (bytes "gif", bytes "image/gif"), (bytes "htm", bytes "text/html"),
    (bytes "html", bytes "text/html"), (bytes "ico", bytes "image/x-icon"),
    (bytes "jpg", bytes "image/jpeg"), (bytes "js", bytes "application/javascript"),
    (bytes "json", bytes "application/json"), (bytes "png", bytes "image/png"),
    (bytes "txt", bytes "text/plain"), (bytes "xhtml", bytes "text/html"),
    (bytes "xml", bytes "application/xml")]

/-- `extension_to_type(extension)`. -/
def extensionToType (extension : Bytes) : Bytes :=
  if extension.isEmpty then bytes "application/octet-stream"
  else
    match mappings.find? fun m => m.1 == extension with
    | some m => m.2
    | none => bytes "application/octet-stream"

/-- The extensions whose content is compressed. -/
def compressible : List Bytes :=
  [bytes "css", bytes "htm", bytes "html", bytes "js", bytes "json", bytes "txt", bytes "xhtml", bytes "xml"]

/-- `is_compressible(extension)`. -/
def isCompressible (extension : Bytes) : Bool := compressible.contains extension

end Waspp
