/-
Module: Waspp.Model.Server
Layer: Model
Purpose: How a server waits to be stopped: the signals that its constructor adds to `signals_`, the call of
  `do_await_stop` there, and the handler of `async_wait`.  The io_service and the signal set are
  `SignalSet.Service`; the data that the handler works on are the lines logged.
Imports: Waspp.Foundation.CString, Waspp.Foundation.SignalSet
Trusted boundary: human-reviewed translation of the constructors and of `do_await_stop` of server.cpp and
  server_ssl.cpp, where SIGHUP and SIGQUIT are defined
Main exports: Signal, Server.doAwaitStop, Server.onSignal, Server.construct, ServerSsl.construct
Open obligations: none
-/
import Waspp.Foundation.CString
import Waspp.Foundation.SignalSet

namespace Waspp

open CString SignalSet

/-- The signals that the servers register. -/
inductive Signal where
  | sighup
  | sigint
  | sigquit
  | sigterm
deriving DecidableEq, Repr

/-- A server's `io_service_` with its `signals_`, and the lines logged. -/
abbrev SignalService := Service Signal (List Bytes)

/-- The handler of both servers, with the line that it logs. -/
def stopHandler (stopping : Bytes) (signalNumber : Signal) (s : SignalService) : SignalService :=
  if signalNumber = .sighup then s
  else { s with user := s.user ++ [stopping], stopped := true }

/-- What both constructors do with `signals_`, up to `do_await_stop`. -/
def addSignals (s : SignalService) : SignalService :=
  (((s.add .sighup).add .sigint).add .sigquit).add .sigterm

namespace Server

/-- `server::do_await_stop`. -/
def doAwaitStop (s : SignalService) : SignalService :=
  s.asyncWait

/-- The handler that `server::do_await_stop` passes. -/
def onSignal : Signal → SignalService → SignalService :=
  stopHandler (bytes "server stopping..")

/-- The constructor of `server`. -/
def construct : SignalService :=
  doAwaitStop (addSignals { user := [] })

end Server

namespace ServerSsl

/-- `server_ssl::do_await_stop`. -/
def doAwaitStop (s : SignalService) : SignalService :=
  s.asyncWait

/-- The handler that `server_ssl::do_await_stop` passes. -/
def onSignal : Signal → SignalService → SignalService :=
  stopHandler (bytes "server_ssl stopping..")

/-- The constructor of `server_ssl`. -/
def construct : SignalService :=
  doAwaitStop (addSignals { user := [] })

end ServerSsl

end Waspp
