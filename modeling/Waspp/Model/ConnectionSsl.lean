/-
Module: Waspp.Model.ConnectionSsl
Layer: Model
Purpose: A TLS connection after its handshake, as a machine over completed reads like the plain one.  The
  class is a copy of `connection`: its `do_read` does not look at the Connection header, and its `do_write`
  always reads on.
Imports: Waspp.Model.Connection
Trusted boundary: human-reviewed translation of connection_ssl.cpp
Main exports: ConnectionSsl.prepare, ConnectionSsl.doRead, ConnectionSsl.doWrite, connectionSsl
Open obligations: none
-/
import Waspp.Model.Connection

namespace Waspp

open CString Incremental

namespace ConnectionSsl

variable {σ : Type} (endpoint : Endpoint) (handleRequest : Handler σ)

/-- The completion handler of `do_write`. -/
def doWrite (s : Serving σ) : Serving σ := { s with conn := ⟨.methodStart, {}, {}⟩ }

/-- The calls of `do_read` between the parser's true and the handler. -/
def prepare (request : Request) : Except Fault Request := do
  let request := { request with remoteAddr := endpoint.address, remotePort := endpoint.port }
  let request ← parseParams request
  let request ← parseCookies request
  parseContent request

/-- The rest of the completion handler of `do_read`, on the parser's result. -/
def answer (s : Serving σ) (result : Tribool) : Serving σ × List Output :=
  match result with
  | .yes =>
      match prepare endpoint s.conn.request with
      | .error fault => ({ s with phase := .terminated }, [.escaped s.conn.request fault])
      | .ok request =>
          match handleRequest s.world request s.conn.response with
          | (.ok (), world, request', response) =>
              (doWrite
                { s with world := world, conn := { s.conn with request := request', response := response } },
                [.handled request response])
          | (.error fault, world, _, _) =>
              ({ s with world := world, phase := .terminated }, [.escaped s.conn.request fault])
  | .no =>
      let response := Response.staticResponse .badRequest
      (doWrite { s with conn := { s.conn with response := response } }, [.rejected response])
  | .indeterminate => (s, [])

/-- The completion handler of `do_read`. -/
def doRead (s : Serving σ) (data : Bytes) : Serving σ × List Output :=
  let o := parse s.parsing data
  answer endpoint handleRequest (s.withParsing o.state) o.verdict

/-- A completed read. -/
def completeRead (s : Serving σ) (data : Bytes) : Serving σ × List Output :=
  match s.phase with
  | .reading =>
      let (s', outputs) := doRead endpoint handleRequest s data
      let unread := data.drop (parse s.parsing data).consumed
      (s', outputs ++ if s'.phase = .reading ∧ unread ≠ [] then [.ignored unread] else [])
  | _ => (s, [])

end ConnectionSsl

/-- The TLS connection over successive reads. -/
def connectionSsl {σ : Type} (endpoint : Endpoint) (handleRequest : Handler σ) :
    Transducer (Serving σ) Bytes Output where
  step := ConnectionSsl.completeRead endpoint handleRequest

end Waspp
