/-
Module: Waspp.Model.Connection
Layer: Model
Purpose: A connection as a machine over completed reads.  `doRead` is the completion handler of
  `connection::do_read` for a read without error, with the write that answers a request completing without
  error (`doWrite`).  The request handler is a parameter, a function on what it shares with other requests,
  the request and the response that returns or fails.  What is written down as output is what the outside
  sees: each request given to the handler with the response written, each response to a rejected message,
  each fault that leaves the completion handler, and the bytes of a read that nobody looks at.
Imports: Waspp.Foundation.Transducer, Waspp.Model.RequestParser, Waspp.Model.Response,
  Waspp.Model.Content
Trusted boundary: human-reviewed translation of connection.cpp
Main exports: Connection, Serving, Output, doRead, doWrite, connection, byteConnection
Open obligations: none
-/
import Waspp.Foundation.Transducer
import Waspp.Model.RequestParser
import Waspp.Model.Response
import Waspp.Model.Content

namespace Waspp

open CString Incremental

/-- The members of a connection that a read or a write changes. -/
structure Connection where
  requestParser : ParserState
  request : Request
  response : Response
deriving DecidableEq, Repr

/-- What a connection waits for. -/
inductive Phase where
  /-- An `async_read_some` is pending. -/
  | reading
  /-- The socket was shut down and nothing is pending. -/
  | closed
  /-- A fault left the completion handler: the thread that runs the io_service, and with it the process,
      ends. -/
  | terminated
deriving DecidableEq, Repr

/-- A connection with what its handler shares with the rest of the server. -/
structure Serving (σ : Type) where
  world : σ
  conn : Connection
  phase : Phase
deriving DecidableEq, Repr

/-- What the parser works on. -/
def Serving.parsing {σ : Type} (s : Serving σ) : Parsing :=
  ⟨s.conn.requestParser, s.conn.request⟩

/-- The connection with what a call of the parser left. -/
def Serving.withParsing {σ : Type} (s : Serving σ) (p : Parsing) : Serving σ :=
  { s with conn := { s.conn with requestParser := p.state_, request := p.req } }

@[simp] theorem Serving.parsing_withParsing {σ : Type} (s : Serving σ) (p : Parsing) :
    (s.withParsing p).parsing = p := rfl

@[simp] theorem Serving.withParsing_phase {σ : Type} (s : Serving σ) (p : Parsing) :
    (s.withParsing p).phase = s.phase := rfl

@[simp] theorem Serving.withParsing_withParsing {σ : Type} (s : Serving σ) (p q : Parsing) :
    (s.withParsing p).withParsing q = s.withParsing q := rfl

/-- The requester's address. -/
structure Endpoint where
  address : Bytes
  port : Nat
deriving DecidableEq, Repr

/-- What a completed read brings about. -/
inductive Output where
  /-- The request was given to the handler and the response was written. -/
  | handled (request : Request) (response : Response)
  /-- The parser rejected the message and the response was written. -/
  | rejected (response : Response)
  /-- The accepted request's fault left the completion handler. -/
  | escaped (request : Request) (fault : Fault)
  /-- Bytes of the read that the parser did not consume, on a connection that reads on. -/
  | ignored (data : Bytes)
deriving DecidableEq, Repr

/-- A request handler: whether it returned, and what it left behind. -/
abbrev Handler (σ : Type) := σ → Request → Response → Except Fault Unit × σ × Request × Response

section Steps

variable {σ : Type} (endpoint : Endpoint) (handleRequest : Handler σ)

/-- The completion handler of `do_write`. -/
def doWrite (s : Serving σ) : Serving σ :=
  if s.conn.request.connectionOption == 'c'.toUInt8 then { s with phase := .closed }
  else { s with conn := ⟨.methodStart, {}, {}⟩ }

/-- The calls of `do_read` between the parser's true and the handler. -/
def prepare (request : Request) : Except Fault Request := do
  let request := { request with remoteAddr := endpoint.address, remotePort := endpoint.port }
  let request ← parseParams request.parseConnectionHeader
  let request ← parseCookies request
  parseContent request

/-- The rest of the completion handler of `do_read`, on the parser's result. -/
def answer (s : Serving σ) (result : Tribool) : Serving σ × List Output :=
  match result with
  | .yes =>
      match prepare endpoint s.conn.request with
      | .error fault => ({ s with phase := .terminated }, [.escaped s.conn.request fault])
      | .ok request =>
          match handleRequest s.world request s.conn.response with
          | (.ok (), world, request', response) =>
              (doWrite
                { s with world := world, conn := { s.conn with request := request', response := response } },
                [.handled request response])
          | (.error fault, world, _, _) =>
              ({ s with world := world, phase := .terminated }, [.escaped s.conn.request fault])
  | .no =>
      let response := Response.staticResponse .badRequest
      (doWrite { s with conn := { s.conn with response := response } }, [.rejected response])
  | .indeterminate => (s, [])

/-- The completion handler of `do_read`: the parser reads from the start of the buffer, and where it stopped
    is ignored. -/
def doRead (s : Serving σ) (data : Bytes) : Serving σ × List Output :=
  let o := parse s.parsing data
  answer endpoint handleRequest (s.withParsing o.state) o.verdict

/-- A completed read: nothing when no read is pending, else `doRead`, with the bytes that are left unread
    when the connection reads on. -/
def completeRead (s : Serving σ) (data : Bytes) : Serving σ × List Output :=
  match s.phase with
  | .reading =>
      let (s', outputs) := doRead endpoint handleRequest s data
      let unread := data.drop (parse s.parsing data).consumed
      (s', outputs ++ if s'.phase = .reading ∧ unread ≠ [] then [.ignored unread] else [])
  | _ => (s, [])

/-- The connection over successive reads. -/
def connection : Transducer (Serving σ) Bytes Output where
  step := completeRead endpoint handleRequest

/-- The connection when each read brings one byte. -/
def byteConnection : Transducer (Serving σ) UInt8 Output where
  step s b := completeRead endpoint handleRequest s [b]

end Steps

/-- A connection when it starts: the strings and vectors of its request and response are empty, and the
    scalar members hold anything. -/
structure Serving.Fresh {σ : Type} (s : Serving σ) : Prop where
  requestParser : s.conn.requestParser = .methodStart
  request : s.conn.request.Fresh
  response : s.conn.response.Fresh
  phase : s.phase = .reading

/-! ### What the outside sees -/

/-- The requests given to the handler. -/
def handled : List Output → List Request :=
  List.filterMap fun
    | .handled request _ => some request
    | _ => none

/-- The responses written. -/
def written : List Output → List Response :=
  List.filterMap fun
    | .handled _ response => some response
    | .rejected response => some response
    | _ => none

/-- The bytes that nobody looked at. -/
def lost : List Output → List Bytes :=
  List.filterMap fun
    | .ignored data => some data
    | _ => none

end Waspp
