/-
Module: Waspp.Model.Session
Layer: Model
Purpose: The session object.  Its data travel in a cookie of the client: the percent-encoded text archive of
  the entries, followed by the 32 digits of a digest over that text and the server's key.  The object keeps
  references to the request and the response, so each member is a function on both.
Imports: Waspp.Model.Config, Waspp.Model.Response
Trusted boundary: human-reviewed translation of session.cpp
Main exports: Ctx, Session, Session.get, Session.put, Session.load, Session.create, Session.update,
  Session.construct, Session.constructObject
Open obligations: none
-/
import Waspp.Model.Config
import Waspp.Model.Response

namespace Waspp

open CString

/-- The request and the response that a handler works on. -/
structure Ctx where
  req : Request
  res : Response
deriving DecidableEq, Repr

namespace Ctx

/-- What `param(name)` shows. -/
def paramValue (c : Ctx) (name : Bytes) : Bytes := NameValue.valueOf c.req.params name

/-- What `param(name)` leaves. -/
def readParam (c : Ctx) (name : Bytes) : Ctx := { c with req := (c.req.param name).2 }

/-- What `cookie(name)` shows. -/
def cookieValue (c : Ctx) (name : Bytes) : Bytes := NameValue.valueOf c.req.cookies name

/-- What `cookie(name)` leaves. -/
def readCookie (c : Ctx) (name : Bytes) : Ctx := { c with req := (c.req.cookie name).2 }

/-- What `header(name)` shows. -/
def headerValue (c : Ctx) (name : Bytes) : Bytes := NameValue.valueOf c.req.headers name

/-- What `header(name)` leaves. -/
def readHeader (c : Ctx) (name : Bytes) : Ctx := { c with req := (c.req.header name).2 }

/-- A change of the response. -/
def respond (c : Ctx) (f : Response → Response) : Ctx := { c with res := f c.res }

section Reads

variable (c : Ctx) (name other : Bytes) (f : Response → Response)

@[simp] theorem paramValue_readParam : (c.readParam name).paramValue other = c.paramValue other :=
  NameValue.valueOf_ensure _ _ _

@[simp] theorem paramValue_readCookie : (c.readCookie name).paramValue other = c.paramValue other := rfl

@[simp] theorem paramValue_readHeader : (c.readHeader name).paramValue other = c.paramValue other := rfl

@[simp] theorem paramValue_respond : (c.respond f).paramValue other = c.paramValue other := rfl

@[simp] theorem cookieValue_readParam : (c.readParam name).cookieValue other = c.cookieValue other := rfl

@[simp] theorem cookieValue_readCookie : (c.readCookie name).cookieValue other = c.cookieValue other :=
  NameValue.valueOf_ensure _ _ _

@[simp] theorem cookieValue_readHeader : (c.readHeader name).cookieValue other = c.cookieValue other := rfl

@[simp] theorem cookieValue_respond : (c.respond f).cookieValue other = c.cookieValue other := rfl

@[simp] theorem headerValue_readParam : (c.readParam name).headerValue other = c.headerValue other := rfl

@[simp] theorem headerValue_readCookie : (c.readCookie name).headerValue other = c.headerValue other := rfl

@[simp] theorem headerValue_readHeader : (c.readHeader name).headerValue other = c.headerValue other :=
  NameValue.valueOf_ensure _ _ _

@[simp] theorem headerValue_respond : (c.respond f).headerValue other = c.headerValue other := rfl

@[simp] theorem remoteAddr_readParam : (c.readParam name).req.remoteAddr = c.req.remoteAddr := rfl

@[simp] theorem remoteAddr_readCookie : (c.readCookie name).req.remoteAddr = c.req.remoteAddr := rfl

@[simp] theorem remoteAddr_readHeader : (c.readHeader name).req.remoteAddr = c.req.remoteAddr := rfl

@[simp] theorem remoteAddr_respond : (c.respond f).req.remoteAddr = c.req.remoteAddr := rfl

@[simp] theorem res_readParam : (c.readParam name).res = c.res := rfl

@[simp] theorem res_readCookie : (c.readCookie name).res = c.res := rfl

@[simp] theorem res_readHeader : (c.readHeader name).res = c.res := rfl

@[simp] theorem res_respond : (c.respond f).res = f c.res := rfl

end Reads

end Ctx

/-- The vector `session_`. -/
structure Session where
  entries : List NameValue := []
deriving DecidableEq, Repr

namespace Session

/-- `get(name)`: the value shown, with an empty entry appended when the name is missing. -/
def get (s : Session) (name : Bytes) : Bytes × Session :=
  (NameValue.valueOf s.entries name, ⟨NameValue.ensure s.entries name⟩)

/-- The cookie value of `serialize_and_set`. -/
def cookieValue (env : Env) (s : Session) : Bytes :=
  let cookieValue := percentEncode (env.archive.save s.entries)
  cookieValue ++ md5Digest env (cookieValue ++ env.cfg.encryptKey)

/-- `serialize_and_set()`. -/
def serializeAndSet (env : Env) (s : Session) (c : Ctx) : Ctx :=
  c.respond fun res => res.setCookie env.cfg.sessCookie (s.cookieValue env)

/-- `put(name, value)`. -/
def put (env : Env) (s : Session) (name value : Bytes) (c : Ctx) : Session × Ctx :=
  let s : Session := ⟨NameValue.assign s.entries name value⟩
  (s, s.serializeAndSet env c)

/-- `get_curr_tm()`: the decimal text of the clock. -/
def currTm (env : Env) : Bytes :=
  match env.clock.current with
  | .ofNat n => toDecimal n
  | .negSucc n => '-'.toUInt8 :: toDecimal (n + 1)

/-- `get_last_tm()`. -/
def lastTm (s : Session) : Int :=
  strtol (NameValue.valueOf s.entries (bytes "last_tm"))

/-- `get_curr_ua()`, the first 120 bytes of the User-Agent header. -/
def currUa (c : Ctx) : Bytes := (c.headerValue (bytes "User-Agent")).take 120

/-- What `get_curr_ua()` leaves. -/
def readUa (c : Ctx) : Ctx := c.readHeader (bytes "User-Agent")

/-- The entries that every session has. -/
def keys : List Bytes := [bytes "sess_id", bytes "last_tm", bytes "last_ip", bytes "last_ua"]

/-- The text of a cookie in front of its 32 digits. -/
def payload (sessionCookie : Bytes) : Bytes := sessionCookie.take (sessionCookie.length - 32)

/-- The part of `load` that reads a cookie: its entries, `none` when the digest is not that of its text. -/
def readEntries (env : Env) (sessionCookie : Bytes) : Except Exn (Option (List NameValue)) :=
  if sessionCookie.length < 32 then .error .outOfRange
  else
    let sessionMd5 := sessionCookie.drop (sessionCookie.length - 32)
    let sessionStr := payload sessionCookie
    if sessionMd5 ≠ md5Digest env (sessionStr ++ env.cfg.encryptKey) then .ok none
    else
      match env.archive.load (percentDecode sessionStr) with
      | .error e => .error e
      | .ok entries => .ok (some entries)

/-- The part of `load` that looks at the entries of the cookie, and the request it leaves. -/
def accepts (env : Env) (entries : List NameValue) (c : Ctx) : Bool × Ctx :=
  if keys.any fun key => (NameValue.lookup entries key).isNone then (false, c)
  else if Double.difftime env.clock.atLoad (lastTm ⟨entries⟩) > env.cfg.expirySec then (false, c)
  else if env.cfg.validateIp ∧ c.req.remoteAddr ≠ NameValue.valueOf entries (bytes "last_ip") then (false, c)
  else if env.cfg.validateUa then (currUa c = NameValue.valueOf entries (bytes "last_ua"), readUa c)
  else (true, c)

/-- `load()`: the session when it returns true, `none` when it returns false. -/
def load (env : Env) (c : Ctx) : Except Exn (Option Session) × Ctx :=
  let sessionCookie := c.cookieValue env.cfg.sessCookie
  let c := c.readCookie env.cfg.sessCookie
  if sessionCookie = [] then (.ok none, c)
  else
    match readEntries env sessionCookie with
    | .error e => (.error e, c)
    | .ok none => (.ok none, c.respond (·.deleteCookie env.cfg.sessCookie))
    | .ok (some entries) =>
        let (accepted, c) := accepts env entries c
        if accepted then (.ok (some ⟨entries⟩), c)
        else (.ok none, c.respond (·.deleteCookie env.cfg.sessCookie))

/-- `create()`. -/
def create (env : Env) (c : Ctx) : Session × Ctx :=
  let s : Session :=
    ⟨[⟨bytes "sess_id", md5Digest env env.uuid⟩, ⟨bytes "last_tm", currTm env⟩,
      ⟨bytes "last_ip", c.req.remoteAddr⟩, ⟨bytes "last_ua", currUa c⟩]⟩
  (s, s.serializeAndSet env (readUa c))

/-- `update()`. -/
def update (env : Env) (s : Session) (c : Ctx) : Session × Ctx :=
  if Double.difftime env.clock.atUpdate s.lastTm < env.cfg.updateSec then (s, c)
  else
    let newSessId := env.uuid ++ c.req.remoteAddr
    let (s, c) := s.put env (bytes "sess_id") (md5Digest env newSessId) c
    let (s, c) := s.put env (bytes "last_tm") (currTm env) c
    (s, s.serializeAndSet env c)

/-- The constructor. -/
def construct (env : Env) (c : Ctx) : Except Exn Session × Ctx :=
  match load env c with
  | (.error e, c) => (.error e, c)
  | (.ok none, c) =>
      let (s, c) := create env c
      (.ok s, c)
  | (.ok (some s), c) =>
      let (s, c) := s.update env c
      (.ok s, c)

/-! ### The member `session_` through the constructor -/

/-- `load()` on the object: whether it returns true, and what it leaves in `session_`. -/
def loadObject (env : Env) (s : Session) (c : Ctx) : Except Exn Bool × Session × Ctx :=
  let sessionCookie := c.cookieValue env.cfg.sessCookie
  let c := c.readCookie env.cfg.sessCookie
  if sessionCookie = [] then (.ok false, s, c)
  else
    match readEntries env sessionCookie with
    | .error e => (.error e, s, c)
    | .ok none => (.ok false, s, c.respond (·.deleteCookie env.cfg.sessCookie))
    | .ok (some entries) =>
        -- From here on `session_` holds the data of the cookie, whatever the checks say.
        let s : Session := ⟨entries⟩
        let (accepted, c) := accepts env s.entries c
        if accepted then (.ok true, s, c) else (.ok false, s, c.respond (·.deleteCookie env.cfg.sessCookie))

/-- `session_.push_back(name_value(name, value))`. -/
def pushBack (s : Session) (name value : Bytes) : Session := ⟨s.entries ++ [⟨name, value⟩]⟩

/-- `create()` on the object. -/
def createObject (env : Env) (s : Session) (c : Ctx) : Session × Ctx :=
  let s : Session := { s with entries := [] }
  let s := s.pushBack (bytes "sess_id") (md5Digest env env.uuid)
  let s := s.pushBack (bytes "last_tm") (currTm env)
  let s := s.pushBack (bytes "last_ip") c.req.remoteAddr
  let s := s.pushBack (bytes "last_ua") (currUa c)
  (s, s.serializeAndSet env (readUa c))

/-- The constructor on the object, whose `session_` starts empty. -/
def constructObject (env : Env) (c : Ctx) : Except Exn Session × Ctx :=
  match loadObject env {} c with
  | (.error e, _, c) => (.error e, c)
  | (.ok false, s, c) =>
      let (s, c) := createObject env s c
      (.ok s, c)
  | (.ok true, s, c) =>
      let (s, c) := s.update env c
      (.ok s, c)

/-- `create` clears what `load` has left. -/
theorem createObject_eq (env : Env) (s : Session) (c : Ctx) : createObject env s c = create env c := rfl

/-- The constructor may forget what a `load` that returned false has left. -/
theorem constructObject_eq (env : Env) (c : Ctx) : constructObject env c = construct env c := by
  unfold constructObject construct loadObject load
  by_cases absent : c.cookieValue env.cfg.sessCookie = []
  · simp only [if_pos absent]
    rfl
  · simp only [if_neg absent]
    cases readEntries env (c.cookieValue env.cfg.sessCookie) with
    | error e => rfl
    | ok found =>
        cases found with
        | none => rfl
        | some entries =>
            cases accepted : (accepts env entries (c.readCookie env.cfg.sessCookie)).1 with
            | false =>
                simp only [accepted, Bool.false_eq_true, if_false]
                rw [createObject_eq]
            | true => simp only [accepted, if_true]

end Session

end Waspp
