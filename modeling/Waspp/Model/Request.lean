/-
Module: Waspp.Model.Request
Layer: Model
Purpose: The request record that the parser fills in and the handlers read, with its accessors.  The
  accessors `header`, `cookie` and `param` return a reference into a vector of name-value pairs and
  append an empty entry when the name is missing, so each is modelled as the value read together with the
  request it leaves behind.
Imports: Waspp.Foundation.CString
Trusted boundary: human-reviewed translation of name_value.hpp, multipart.hpp, request.hpp, request.cpp
Main exports: NameValue, MultipartContent, Request, Request.header, Request.cookie, Request.param,
  Request.parseConnectionHeader
Open obligations: none
-/
import Waspp.Foundation.CString

namespace Waspp

open CString

/-- One name-value pair. -/
structure NameValue where
  name : Bytes := []
  value : Bytes := []
deriving DecidableEq, Repr, Inhabited

namespace NameValue

/-- The first entry of the given name, as `std::find_if` finds it. -/
def lookup (entries : List NameValue) (name : Bytes) : Option NameValue :=
  entries.find? fun nv => nv.name == name

/-- The value that an accessor's reference shows: the first entry of that name, or the empty string of the
    entry it has just appended. -/
def valueOf (entries : List NameValue) (name : Bytes) : Bytes :=
  match lookup entries name with
  | some nv => nv.value
  | none => []

/-- The entries after an accessor has run: unchanged when the name is there, else with an empty entry. -/
def ensure (entries : List NameValue) (name : Bytes) : List NameValue :=
  match lookup entries name with
  | some _ => entries
  | none => entries ++ [{ name := name, value := [] }]

/-- Assignment through an accessor's reference: the first entry of that name takes the value, and a
    missing entry is appended. -/
def assign (entries : List NameValue) (name value : Bytes) : List NameValue :=
  match entries with
  | [] => [{ name := name, value := value }]
  | nv :: rest =>
      if nv.name == name then { nv with value := value } :: rest
      else nv :: assign rest name value

@[simp] theorem lookup_nil (name : Bytes) : lookup [] name = none := rfl

theorem lookup_cons (nv : NameValue) (rest : List NameValue) (name : Bytes) :
    lookup (nv :: rest) name = if nv.name = name then some nv else lookup rest name := by
  by_cases h : nv.name = name <;> simp [lookup, h]

@[simp] theorem valueOf_nil (name : Bytes) : valueOf [] name = [] := rfl

theorem valueOf_cons (nv : NameValue) (rest : List NameValue) (name : Bytes) :
    valueOf (nv :: rest) name = if nv.name = name then nv.value else valueOf rest name := by
  by_cases same : nv.name = name <;> simp [valueOf, lookup_cons, same]

/-- A name is looked up in the second list when the first does not have it. -/
theorem lookup_append (left right : List NameValue) (name : Bytes) :
    lookup (left ++ right) name = (lookup left name).or (lookup right name) := by
  simp [lookup]

/-- Reading a name never changes what any name shows. -/
@[simp] theorem valueOf_ensure (entries : List NameValue) (name other : Bytes) :
    valueOf (ensure entries name) other = valueOf entries other := by
  unfold ensure
  cases found : lookup entries name with
  | some nv => rfl
  | none =>
      by_cases same : name = other
      · subst same
        simp [valueOf, lookup_append, found, lookup_cons]
      · simp [valueOf, lookup_append, lookup_cons, same]

/-- Assignment shows the new value under its own name and changes no other. -/
theorem valueOf_assign (entries : List NameValue) (name value other : Bytes) :
    valueOf (assign entries name value) other =
      if name = other then value else valueOf entries other := by
  induction entries with
  | nil => simp [assign, valueOf_cons]
  | cons nv rest ih =>
      unfold assign
      by_cases same : nv.name = name
      · subst same
        simp only [beq_self_eq_true, if_true, valueOf_cons]
        split <;> simp_all
      · have distinct : (nv.name == name) = false := by simpa using same
        simp only [distinct, Bool.false_eq_true, if_false, valueOf_cons, ih]
        split
        · rename_i here
          rw [if_neg (fun h => same (here.trans h.symm))]
        · rfl

/-- An assignment leaves the names that were there and adds its own. -/
theorem lookup_assign_isSome (entries : List NameValue) (name value other : Bytes) :
    (lookup (assign entries name value) other).isSome =
      (decide (name = other) || (lookup entries other).isSome) := by
  induction entries with
  | nil => by_cases h : name = other <;> simp [assign, lookup_cons, h]
  | cons nv rest ih =>
      unfold assign
      by_cases same : nv.name = name
      · subst same
        by_cases h : nv.name = other <;> simp [lookup_cons, h]
      · have distinct : (nv.name == name) = false := by simpa using same
        simp only [distinct, Bool.false_eq_true, if_false, lookup_cons]
        by_cases h : nv.name = other <;> simp [h, ih]

/-- Assignment brings in no entry but its own. -/
theorem mem_assign {entries : List NameValue} {name value : Bytes} {nv : NameValue}
    (member : nv ∈ assign entries name value) : nv ∈ entries ∨ nv = ⟨name, value⟩ := by
  induction entries with
  | nil => exact Or.inr (List.mem_singleton.mp member)
  | cons first rest ih =>
      unfold assign at member
      split at member
      · rename_i same
        rcases List.mem_cons.mp member with rfl | later
        · exact Or.inr (by rw [eq_of_beq same])
        · exact Or.inl (List.mem_cons_of_mem _ later)
      · rcases List.mem_cons.mp member with rfl | later
        · exact Or.inl (List.mem_cons_self ..)
        · exact (ih later).imp_left (List.mem_cons_of_mem _)

end NameValue

/-- One uploaded part of a multipart body. -/
structure MultipartContent where
  name : Bytes
  filename : Bytes
  filetype : Bytes
  data : Bytes
deriving DecidableEq, Repr, Inhabited

/-- A request received from a client. -/
structure Request where
  remoteAddr : Bytes := []
  remotePort : Nat := 0
  connectionOption : UInt8 := 0
  method : Bytes := []
  uri : Bytes := []
  httpVersionMajor : Int := 0
  httpVersionMinor : Int := 0
  headers : List NameValue := []
  content : Bytes := []
  contentLength : Int := 0
  cookies : List NameValue := []
  params : List NameValue := []
  restParams : List Bytes := []
  uploads : List MultipartContent := []
deriving DecidableEq, Repr, Inhabited

namespace Request

/-- A request whose strings and vectors are all empty.  The scalar members may hold anything: `request()`
    zeroes them, while the `request_` member of a new connection leaves them uninitialised. -/
structure Fresh (req : Request) : Prop where
  remoteAddr : req.remoteAddr = []
  method : req.method = []
  uri : req.uri = []
  headers : req.headers = []
  content : req.content = []
  cookies : req.cookies = []
  params : req.params = []
  restParams : req.restParams = []
  uploads : req.uploads = []

/-- A request that nothing was read into is fresh. -/
theorem fresh_default : Fresh {} := by
  constructor <;> rfl

/-- `header(name)`: the value shown and the request left behind. -/
def header (req : Request) (name : Bytes) : Bytes × Request :=
  (NameValue.valueOf req.headers name, { req with headers := NameValue.ensure req.headers name })

/-- `cookie(name)`. -/
def cookie (req : Request) (name : Bytes) : Bytes × Request :=
  (NameValue.valueOf req.cookies name, { req with cookies := NameValue.ensure req.cookies name })

/-- `param(name)`. -/
def param (req : Request) (name : Bytes) : Bytes × Request :=
  (NameValue.valueOf req.params name, { req with params := NameValue.ensure req.params name })

/-- `parse_connection_header`: `'K'` by default, `'c'` for HTTP/1.0, else the first byte of a nonempty
    Connection header. -/
def parseConnectionHeader (req : Request) : Request :=
  let option : UInt8 :=
    if req.httpVersionMajor = 1 ∧ req.httpVersionMinor = 0 then 'c'.toUInt8 else 'K'.toUInt8
  let (connection, req) := req.header (bytes "Connection")
  match connection with
  | [] => { req with connectionOption := option }
  | first :: _ => { req with connectionOption := first }

end Request

end Waspp
