/-
Module: Waspp.Model.Config
Layer: Model
Purpose: What the configuration gives the rest of the program, and the environment in which one request is
  handled: the configuration, the readable files, the clock, and the library functions whose code is not
  part of the program.
Imports: Waspp.Foundation.Double, Waspp.Model.Request, Waspp.Model.Utility
Trusted boundary: human-reviewed translation of error.hpp and of the accessors of config.hpp
Main exports: ErrorType, Config, Config.shipped, Clock, Archive, Ptree, Env, md5Digest
Open obligations: none
-/
import Waspp.Foundation.Double
import Waspp.Model.Request
import Waspp.Model.Utility

namespace Waspp

open CString

/-- The error codes that handlers report. -/
inductive ErrorType where
  | none
  | unknown
  | unauthorized
  | usernameRequired
  | passwdRequired
  | usernameNotFound
  | authFailed
  | platformtypeRequired
  | platformidRequired
  | passwdsNotIdentical
  | usernameNotAvailable
  | usersInsertFailed
  | titleRequired
  | contentRequired
  | forumInsertFailed
deriving DecidableEq, Repr

/-- The number of an error code. -/
def ErrorType.code : ErrorType → Nat
  | none => 0
  | unknown => 1
  | unauthorized => 1001
  | usernameRequired => 1101
  | passwdRequired => 1102
  | usernameNotFound => 1103
  | authFailed => 1104
  | platformtypeRequired => 1105
  | platformidRequired => 1106
  | passwdsNotIdentical => 1107
  | usernameNotAvailable => 1108
  | usersInsertFailed => 1109
  | titleRequired => 1201
  | contentRequired => 1202
  | forumInsertFailed => 1203

/-- The configuration, through its accessors.  The two durations are what `strtod` makes of texts in the
    file, which nobody checks: a text such as `nan` is taken as well. -/
structure Config where
  accessGranted : List Bytes := []
  accessDenied : List Bytes := []
  encryptKey : Bytes
  sessCookie : Bytes
  expirySec : Double
  updateSec : Double
  validateIp : Bool
  validateUa : Bool
  docRoot : Bytes
  compress : Bool
  errMsg : ErrorType → Bytes
  dbShardCount : Nat

/-- The shipped configuration, with the error messages of a locale. -/
def Config.shipped (errMsg : ErrorType → Bytes) : Config where
  encryptKey := bytes "MY_ENC_KEY"
  sessCookie := bytes "waspp_sess"
  expirySec := 3600
  updateSec := 300
  validateIp := false
  validateUa := true
  docRoot := bytes "../doc/"
  compress := true
  errMsg := errMsg
  dbShardCount := 2

/-- What `std::time(nullptr)` returns at the places where one request asks for it. -/
structure Clock where
  /-- In `session::load`, at the check against `expiry_sec`. -/
  atLoad : Int
  /-- In `session::update`, at the check against `update_sec`. -/
  atUpdate : Int
  /-- In `session::get_curr_tm`. -/
  current : Int
deriving DecidableEq, Repr

/-- A text archive of a vector of name-value pairs. -/
structure Archive where
  save : List NameValue → Bytes
  load : Bytes → Except Exn (List NameValue)

/-- A `boost::property_tree::ptree`: a value with named children. -/
inductive Ptree where
  | node (data : Bytes) (children : List (Bytes × Ptree))

/-- The environment of one request. -/
structure Env where
  cfg : Config
  /-- The contents of the file that a path opens. -/
  files : Bytes → Option Bytes
  clock : Clock
  /-- The sixteen bytes that `get_uuid` returns. -/
  uuid : Bytes
  /-- The MD5 digest of a byte string. -/
  md5 : Bytes → Vector UInt8 16
  archive : Archive
  writeJson : Ptree → Except Exn Bytes
  gzip : Bytes → Except Exn Bytes
  /-- The text that `NOW()` stands for in the statements of the request. -/
  sqlNow : Bytes

/-- `md5_digest(str)`: the digest of the C string that `str` starts with, each byte printed with `%02x`. -/
def md5Digest (env : Env) (str : Bytes) : Bytes :=
  (env.md5 (cstr str)).toList.flatMap hex02

@[simp] theorem length_md5Digest (env : Env) (str : Bytes) : (md5Digest env str).length = 32 := by
  simp [md5Digest, hex02]

/-- A digest is written in hexadecimal digits. -/
theorem isxdigit_of_mem_md5Digest {env : Env} {str : Bytes} {b : UInt8} (member : b ∈ md5Digest env str) :
    isxdigit b = true := by
  rcases List.mem_flatMap.mp member with ⟨byte, -, digit⟩
  exact isxdigit_of_mem_hex02 digit

end Waspp
