/-
Module: Waspp.Model.Response
Layer: Model
Purpose: The response record that a handler fills in, the stock responses, and the bytes that a response puts
  on the wire.
Imports: Waspp.Model.Request
Trusted boundary: human-reviewed translation of response.hpp and response.cpp
Main exports: StatusType, Response, Response.setCookie, Response.staticResponse, Response.toBuffers
Open obligations: none
-/
import Waspp.Model.Request

namespace Waspp

open CString

/-- The status codes. -/
inductive StatusType where
  | ok
  | created
  | accepted
  | noContent
  | multipleChoices
  | movedPermanently
  | movedTemporarily
  | notModified
  | badRequest
  | unauthorized
  | forbidden
  | notFound
  | internalServerError
  | notImplemented
  | badGateway
  | serviceUnavailable
deriving DecidableEq, Repr, Inhabited

namespace StatusType

/-- The status line, of `status_strings`. -/
def statusLine : StatusType → Bytes
  | ok => bytes "HTTP/1.1 200 OK\r\n"
  | created => bytes "HTTP/1.1 201 Created\r\n"
  | accepted => bytes "HTTP/1.1 202 Accepted\r\n"
  | noContent => bytes "HTTP/1.1 204 No Content\r\n"
  | multipleChoices => bytes "HTTP/1.1 300 Multiple Choices\r\n"
  | movedPermanently => bytes "HTTP/1.1 301 Moved Permanently\r\n"
  | movedTemporarily => bytes "HTTP/1.1 302 Moved Temporarily\r\n"
  | notModified => bytes "HTTP/1.1 304 Not Modified\r\n"
  | badRequest => bytes "HTTP/1.1 400 Bad Request\r\n"
  | unauthorized => bytes "HTTP/1.1 401 Unauthorized\r\n"
  | forbidden => bytes "HTTP/1.1 403 Forbidden\r\n"
  | notFound => bytes "HTTP/1.1 404 Not Found\r\n"
  | internalServerError => bytes "HTTP/1.1 500 Internal Server Error\r\n"
  | notImplemented => bytes "HTTP/1.1 501 Not Implemented\r\n"
  | badGateway => bytes "HTTP/1.1 502 Bad Gateway\r\n"
  | serviceUnavailable => bytes "HTTP/1.1 503 Service Unavailable\r\n"

/-- The page of a stock response, of `static_responses`. -/
def staticPage : StatusType → Bytes
  | ok => []
  | created => page "Created" "201 Created"
  | accepted => page "Accepted" "202 Accepted"
  | noContent => page "No Content" "204 Content"
  | multipleChoices => page "Multiple Choices" "300 Multiple Choices"
  | movedPermanently => page "Moved Permanently" "301 Moved Permanently"
  | movedTemporarily => page "Moved Temporarily" "302 Moved Temporarily"
  | notModified => page "Not Modified" "304 Not Modified"
  | badRequest => page "Bad Request" "400 Bad Request"
  | unauthorized => page "Unauthorized" "401 Unauthorized"
  | forbidden => page "Forbidden" "403 Forbidden"
  | notFound => page "Not Found" "404 Not Found"
  | internalServerError => page "Internal Server Error" "500 Internal Server Error"
  | notImplemented => page "Not Implemented" "501 Not Implemented"
  | badGateway => page "Bad Gateway" "502 Bad Gateway"
  | serviceUnavailable => page "Service Unavailable" "503 Service Unavailable"
where
  page (title heading : String) : Bytes :=
    bytes "<html><head><title>" ++ bytes title ++ bytes "</title></head><body><h1>" ++ bytes heading ++
      bytes "</h1></body></html>"

end StatusType

/-- A response to be sent to a client.  `response()` zeroes the status, which names no enumerator; that is
    `none` here. -/
structure Response where
  status : Option StatusType := none
  headers : List NameValue := []
  cookies : List NameValue := []
  content : Bytes := []
  contentExtension : Bytes := []
deriving DecidableEq, Repr, Inhabited

namespace Response

/-- A response whose strings and vectors are all empty, as `response()` and a new connection have it. -/
structure Fresh (res : Response) : Prop where
  headers : res.headers = []
  cookies : res.cookies = []
  content : res.content = []
  contentExtension : res.contentExtension = []

/-- A response that nothing was written into is fresh. -/
theorem fresh_default : Fresh {} := by
  constructor <;> rfl

/-- `set_cookie(name, value)`: overwrite the first cookie of that name, or append one. -/
def setCookie (res : Response) (name value : Bytes) : Response :=
  { res with cookies := NameValue.assign res.cookies name value }

/-- `delete_cookie(name)`. -/
def deleteCookie (res : Response) (name : Bytes) : Response :=
  res.setCookie name []

/-- `redirect_to(url)`. -/
def redirectTo (res : Response) (url : Bytes) : Response :=
  { res with
    headers := res.headers ++ [{ name := bytes "Refresh", value := bytes "0; url=" ++ url }]
    content := bytes " "
    contentExtension := bytes "html" }

/-- `headers.push_back(name_value(name, value))`. -/
def pushHeader (res : Response) (name value : Bytes) : Response :=
  { res with headers := res.headers ++ [{ name := name, value := value }] }

/-- `content.append(text)`. -/
def append (res : Response) (text : Bytes) : Response :=
  { res with content := res.content ++ text }

/-- `static_response(status)`. -/
def staticResponse (status : StatusType) : Response :=
  { status := some status
    headers :=
      [{ name := bytes "Content-Length", value := toDecimal status.staticPage.length },
        { name := bytes "Content-Type", value := bytes "text/html" },
        { name := bytes "Keep-Alive", value := bytes "timeout=0, max=0" }]
    content := status.staticPage }

/-- The bytes that `to_buffers` hands to the socket, in order.  A status outside the enumeration falls to the
    switch's default. -/
def toBuffers (res : Response) : Bytes :=
  (match res.status with
    | some status => status.statusLine
    | none => StatusType.statusLine .internalServerError) ++
  (res.headers.flatMap fun header =>
    header.name ++ bytes ": " ++ header.value ++ bytes "\r\n") ++
  bytes "\r\n" ++ res.content

@[simp] theorem setCookie_status (res : Response) (name value : Bytes) :
    (res.setCookie name value).status = res.status := rfl

@[simp] theorem setCookie_cookies (res : Response) (name value : Bytes) :
    (res.setCookie name value).cookies = NameValue.assign res.cookies name value := rfl

@[simp] theorem setCookie_headers (res : Response) (name value : Bytes) :
    (res.setCookie name value).headers = res.headers := rfl

@[simp] theorem redirectTo_cookies (res : Response) (url : Bytes) :
    (res.redirectTo url).cookies = res.cookies := rfl

@[simp] theorem pushHeader_cookies (res : Response) (name value : Bytes) :
    (res.pushHeader name value).cookies = res.cookies := rfl

@[simp] theorem append_cookies (res : Response) (text : Bytes) :
    (res.append text).cookies = res.cookies := rfl

@[simp] theorem staticResponse_status (status : StatusType) :
    (staticResponse status).status = some status := rfl

@[simp] theorem staticResponse_cookies (status : StatusType) :
    (staticResponse status).cookies = [] := rfl

end Response

end Waspp
