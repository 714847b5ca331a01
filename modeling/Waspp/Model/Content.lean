/-
Module: Waspp.Model.Content
Layer: Model
Purpose: What the parser object does once a request is complete: `parse_params` decodes the query and
  splits the path, `parse_cookies` cuts up the Cookie header, and `parse_content` reads a form body,
  urlencoded or multipart.  The loops keep positions into the string as the source does; a loop that uses up
  its rounds is reported as one that does not end.
Imports: Waspp.Model.Request, Waspp.Model.Utility
Trusted boundary: human-reviewed translation of request_parser.cpp
Main exports: split, parseParams, parseCookie, parseCookies, parseContent, parseMultipartContent, contentLeft
Open obligations: none
-/
import Waspp.Model.Request
import Waspp.Model.Utility

namespace Waspp

open CString

/-! ### The path and the query -/

/-- The items that `std::getline` still reads, with `item` collected so far. -/
def splitFrom (c : UInt8) (item : Bytes) : Bytes → List Bytes
  | [] => if item.isEmpty then [] else [item]
  | b :: rest => if b == c then item :: splitFrom c [] rest else splitFrom c (item ++ [b]) rest

/-- `split(s, c, v)`. -/
def split (s : Bytes) (c : UInt8) (v : List Bytes) : List Bytes :=
  v ++ splitFrom c [] s

/-- `parse_params(req)`.  `erase(begin())` on an empty vector is undefined. -/
def parseParams (req : Request) : Except Fault Request :=
  match split (percentDecode req.uri) '/'.toUInt8 req.restParams with
  | [] => .error .undefinedBehaviour
  | _ :: rest =>
      .ok { req with
        restParams := rest
        params := req.params.map fun nv =>
          { name := percentDecode nv.name, value := percentDecode nv.value } }

/-! ### Cookies -/

/-- `parse_cookie(req, data)`. -/
def parseCookie (req : Request) (data : Bytes) : Except Fault Request :=
  match find data (bytes "=") 0 with
  | none => .ok req
  | some pos => do
      let spaceCount := (data.takeWhile isspace).length
      let name ← substrOrThrow data spaceCount (sizeSub pos spaceCount)
      let value ← substrOrThrow data (pos + 1) none
      return { req with cookies := req.cookies ++ [{ name := name, value := value }] }

/-- The loop of `parse_cookies`, from `old_pos` on. -/
def parseCookiesFrom (data : Bytes) : Nat → Nat → Request → Except Fault Request
  | 0, _, _ => .error .diverges
  | rounds + 1, oldPos, req =>
      match find data (bytes ";") oldPos with
      | none => do
          let piece ← substrOrThrow data oldPos none
          parseCookie req piece
      | some pos => do
          let piece ← substrOrThrow data oldPos (sizeSub pos oldPos)
          let req ← parseCookie req piece
          parseCookiesFrom data rounds (pos + 1) req

/-- `parse_cookies(req)`. -/
def parseCookies (req : Request) : Except Fault Request :=
  let (data, req) := req.header (bytes "Cookie")
  if data.isEmpty then .ok req else parseCookiesFrom data (data.length + 1) 0 req

/-! ### Urlencoded bodies -/

/-- `params.push_back(name_value(name, value))`. -/
def pushParam (req : Request) (name value : Bytes) : Request :=
  { req with params := req.params ++ [{ name := name, value := value }] }

/-- The loop of `parse_content` over an urlencoded body, from `old_pos` on. -/
def parseFormFrom : Nat → Nat → Request → Except Fault Request
  | 0, _, _ => .error .diverges
  | rounds + 1, oldPos, req =>
      match findIf req.content (fun b => b == '&'.toUInt8 || b == '='.toUInt8) oldPos with
      | none => .ok req
      | some pos =>
          match req.content[pos]? with
          | none => .error (.thrown .outOfRange)
          | some b =>
              if b == '&'.toUInt8 then
                let oldPos := oldPos + ((req.content.drop oldPos).takeWhile (· == '&'.toUInt8)).length
                if oldPos ≥ pos then parseFormFrom rounds (pos + 1) req
                else do
                  let name ← substrOrThrow req.content oldPos (sizeSub pos oldPos)
                  parseFormFrom rounds (pos + 1) (pushParam req (percentDecode name) [])
              else do
                let name ← substrOrThrow req.content oldPos (sizeSub pos oldPos)
                let oldPos := pos + 1
                match findIf req.content (fun b => b == ';'.toUInt8 || b == '&'.toUInt8) oldPos with
                | none =>
                    let value ← substrOrThrow req.content oldPos none
                    return pushParam req (percentDecode name) (percentDecode value)
                | some pos =>
                    let value ← substrOrThrow req.content oldPos (sizeSub pos oldPos)
                    parseFormFrom rounds (pos + 1) (pushParam req (percentDecode name) (percentDecode value))

/-! ### Multipart bodies -/

/-- The attributes of a part's header. -/
structure MultipartHeader where
  disposition : Bytes
  name : Bytes
  filename : Bytes
  filetype : Bytes
deriving DecidableEq, Repr

/-- `parse_multipart_header(req, data)`. -/
def parseMultipartHeader (data : Bytes) : MultipartHeader :=
  { disposition := extractBetween data (bytes "Content-Disposition: ") (bytes ";")
    name := extractBetween data (bytes "name=\"") (bytes "\"")
    filename := percentDecode (extractBetween data (bytes "filename=\"") (bytes "\""))
    filetype := extractBetween data (bytes "Content-Type: ") (bytes "\r\n\r\n") }

/-- The end of a part's header. -/
def headEnd : Bytes := bytes "\r\n\r\n"

/-- `parse_multipart_content(req, data)`. -/
def parseMultipartContent (req : Request) (data : Bytes) : Except Fault Request :=
  match find data headEnd 0 with
  | none => .error (.thrown (.runtimeError (bytes "invalid part header")))
  | some headLimit => do
      let valueStart := headLimit + headEnd.length
      let count := (sizeSub data.length valueStart).bind fun rest => sizeSub rest 2
      let value ← substrOrThrow data valueStart count
      let headText ← substrOrThrow data 0 (some valueStart)
      let head := parseMultipartHeader headText
      if head.filename.isEmpty then return pushParam req head.name value
      else
        return { req with
          uploads := req.uploads ++
            [{ name := head.name, filename := head.filename, filetype := head.filetype, data := value }] }

/-- The boundary text that a separator is built from: what follows `boundary=` up to a `;`.  Without
    `boundary=` the start is `npos + 9`, which wraps to 8. -/
def boundary (contentType : Bytes) : Except Fault Bytes := do
  let bType := bytes "boundary="
  let start :=
    match find contentType bType 0 with
    | some pos => pos + bType.length
    | none => bType.length - 1
  let sep ← substrOrThrow contentType start none
  match find sep (bytes ";") 0 with
  | some pos => substrOrThrow sep 0 (some pos)
  | none => return sep

/-- The loop of `parse_content` over a multipart body, from `old_pos` on, and the step behind it. -/
def parsePartsFrom (sep1 sep2 : Bytes) : Nat → Nat → Request → Except Fault Request
  | 0, _, _ => .error .diverges
  | rounds + 1, oldPos, req =>
      match find req.content sep1 oldPos with
      | some pos => do
          let part ← substrOrThrow req.content oldPos (sizeSub pos oldPos)
          let req ← parseMultipartContent req part
          parsePartsFrom sep1 sep2 rounds (pos + sep1.length) req
      | none =>
          match find req.content sep2 oldPos with
          | some pos => do
              let part ← substrOrThrow req.content oldPos (sizeSub pos oldPos)
              parseMultipartContent req part
          | none => .ok req

/-- The body of `parse_content` for a multipart content type.  Without an opening separator `start` is
    `npos`, and `npos + sep_size` wraps to `sep_size - 1`. -/
def parseMultipart (contentType : Bytes) (req : Request) : Except Fault Request := do
  let b ← boundary contentType
  let sep1 := bytes "--" ++ b ++ bytes "\r\n"
  let sep2 := bytes "--" ++ b ++ bytes "--\r\n"
  let oldPos :=
    match find req.content sep1 0 with
    | some start => start + sep1.length
    | none => sep1.length - 1
  parsePartsFrom sep1 sep2 (req.content.length + 1) oldPos req

/-! ### The body -/

/-- The content type of an urlencoded form. -/
def standardType : Bytes := bytes "application/x-www-form-urlencoded"

/-- The content type of a multipart form. -/
def multipartType : Bytes := bytes "multipart/form-data"

/-- `parse_content(req)`. -/
def parseContent (req : Request) : Except Fault Request :=
  if req.content.isEmpty then .ok req
  else
    let (contentType, req) := req.header (bytes "Content-Type")
    if contentType.isEmpty || stringsAreEqual contentType standardType standardType.length then
      parseFormFrom (req.content.length + 1) 0 req
    else if stringsAreEqual multipartType contentType multipartType.length then
      parseMultipart contentType req
    else .ok req

/-! ### What a call leaves behind -/

/-- The loop over a multipart body as a call by reference: how it ends, and the request as it then
    is.  Entries pushed before a part that throws stay in it. -/
def partsLeft (sep1 sep2 : Bytes) : Nat → Nat → Request → Except Fault Unit × Request
  | 0, _, req => (.error .diverges, req)
  | rounds + 1, oldPos, req =>
      match find req.content sep1 oldPos with
      | some pos =>
          match substrOrThrow req.content oldPos (sizeSub pos oldPos) >>= parseMultipartContent req with
          | .ok req => partsLeft sep1 sep2 rounds (pos + sep1.length) req
          | .error fault => (.error fault, req)
      | none =>
          match find req.content sep2 oldPos with
          | some pos =>
              match substrOrThrow req.content oldPos (sizeSub pos oldPos) >>= parseMultipartContent req with
              | .ok req => (.ok (), req)
              | .error fault => (.error fault, req)
          | none => (.ok (), req)

/-- The body of `parse_content` for a multipart content type as a call by reference. -/
def multipartLeft (contentType : Bytes) (req : Request) : Except Fault Unit × Request :=
  match boundary contentType with
  | .error fault => (.error fault, req)
  | .ok b =>
      let sep1 := bytes "--" ++ b ++ bytes "\r\n"
      let sep2 := bytes "--" ++ b ++ bytes "--\r\n"
      let oldPos :=
        match find req.content sep1 0 with
        | some start => start + sep1.length
        | none => sep1.length - 1
      partsLeft sep1 sep2 (req.content.length + 1) oldPos req

/-- `parse_content(req)` as a call by reference.  Nothing in the loop over an urlencoded body throws. -/
def contentLeft (req : Request) : Except Fault Unit × Request :=
  if req.content.isEmpty then (.ok (), req)
  else
    let (contentType, req) := req.header (bytes "Content-Type")
    if contentType.isEmpty || stringsAreEqual contentType standardType standardType.length then
      match parseFormFrom (req.content.length + 1) 0 req with
      | .ok req => (.ok (), req)
      | .error fault => (.error fault, req)
    else if stringsAreEqual multipartType contentType multipartType.length then
      multipartLeft contentType req
    else (.ok (), req)

end Waspp
