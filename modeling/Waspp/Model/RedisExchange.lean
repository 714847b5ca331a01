/-
Module: Waspp.Model.RedisExchange
Layer: Model
Purpose: A blocking context at work with its server.  The client is where its calls of
  `redisAppendCommandArgv` and `redisGetReply` are (`Phase`); each result that the socket gives is a move,
  and so is each command that the server takes and answers, so that the moves come in any order.  The server
  is a function of its state and the command; what it wrote and what it has still to take are bytes in
  between.
Imports: Waspp.Model.Hiredis, Waspp.Proofs.RedisCommands
Trusted boundary: human-reviewed translation of redisGetReply; the server stands for code outside the
  repository
Main exports: Phase, Exchange, Move, Exchange.step, Exchange.run, answers
Open obligations: none
-/
import Waspp.Model.Hiredis
import Waspp.Proofs.RedisCommands

namespace Waspp.Hiredis

open CString

/-- Where the client is. -/
inductive Phase where
  /-- In no call. -/
  | idle
  /-- In the first loop of `redisGetReply`, which writes until the output buffer is empty. -/
  | flushing
  /-- In its second loop, which reads until there is a reply. -/
  | reading
deriving DecidableEq, Repr

/-- A server: what it answers, and its state then. -/
abbrev Server (σ : Type) := σ → List Bytes → σ × RedisReply

/-- A context, its server, and what is between them. -/
structure Exchange (σ : Type) where
  phase : Phase := .idle
  context : Context := {}
  /-- Written by the client and not yet taken by the server. -/
  toServer : Bytes := []
  server : σ
  /-- Written by the server and not yet read by the client. -/
  toClient : Bytes := []
  /-- The commands that were appended. -/
  appended : List (List Bytes) := []
  /-- The replies that calls of `redisGetReply` returned. -/
  returned : List RedisReply := []

/-- What happens next. -/
inductive Move where
  /-- The client calls `redisAppendCommandArgv`. -/
  | append (argv : List Bytes)
  /-- The client calls `redisGetReply`, which tries its reader first. -/
  | getReply
  | write (result : WriteResult)
  | read (result : ReadResult)
  /-- The server takes a command and answers it. -/
  | serve (argv : List Bytes)
deriving DecidableEq, Repr

variable {σ : Type}

/-- `redisGetReply` asks the reader: it returns a reply or an error, or goes on. -/
def Exchange.tryReader (allocates : Allocator) (x : Exchange σ) (otherwise : Phase) : Exchange σ :=
  let (reply, context) := x.context.getReplyFromReader allocates
  if context.reader.err.isSome then { x with phase := .idle, context := context }
  else
    match reply with
    | some reply => { x with phase := .idle, context := context, returned := x.returned ++ [reply] }
    | none => { x with phase := otherwise, context := context }

/-- A round of the first loop. -/
def Exchange.write (x : Exchange σ) (result : WriteResult) : Exchange σ :=
  let (context, written) := x.context.bufferWrite result
  { x with
    phase := if context.err.isSome then .idle else if context.obuf = [] then .reading else .flushing
    context := context
    toServer := x.toServer ++ written }

/-- A round of the second loop. -/
def Exchange.read (allocates : Allocator) (x : Exchange σ) (result : ReadResult) : Exchange σ :=
  let context := x.context.bufferRead result
  if context.err.isSome then { x with phase := .idle, context := context }
  else { x with context := context }.tryReader allocates .reading

/-- The bytes of what `read` returns. -/
def ReadResult.block : ReadResult → Bytes
  | .data block => block
  | .again | .closed | .failed => []

/-- `read` can return that: at most 16 KiB of what is there. -/
def ReadResult.Possible (result : ReadResult) (there : Bytes) : Prop :=
  result ≠ .data [] ∧ result.block.length ≤ 1024 * 16 ∧ result.block <+: there

instance (result : ReadResult) (there : Bytes) : Decidable (result.Possible there) :=
  inferInstanceAs (Decidable (_ ∧ _ ∧ _))

/-- A move; `none` when it cannot be made. -/
def Exchange.step (allocates : Allocator) (serve : Server σ) (x : Exchange σ) : Move → Option (Exchange σ)
  | .append argv =>
      if x.phase = .idle then
        (x.context.appendCommandArgv argv).map fun context =>
          { x with context := context, appended := x.appended ++ [argv] }
      else none
  | .getReply => if x.phase = .idle then some (x.tryReader allocates .flushing) else none
  | .write result => if x.phase = .flushing then some (x.write result) else none
  | .read result =>
      if x.phase = .reading ∧ result.Possible x.toClient then
        some ({ x with toClient := x.toClient.drop result.block.length }.read allocates result)
      else none
  | .serve argv =>
      if commandText argv <+: x.toServer then
        some { x with
          toServer := x.toServer.drop (commandText argv).length
          server := (serve x.server argv).1
          toClient := x.toClient ++ encode (serve x.server argv).2 }
      else none

/-- Moves one after another. -/
def Exchange.run (allocates : Allocator) (serve : Server σ) (x : Exchange σ) :
    List Move → Option (Exchange σ)
  | [] => some x
  | move :: moves => (x.step allocates serve move).bind fun y => y.run allocates serve moves

/-- What the server answers to commands in their order. -/
def answers (serve : Server σ) (s : σ) : List (List Bytes) → List RedisReply
  | [] => []
  | argv :: commands => (serve s argv).2 :: answers serve (serve s argv).1 commands

/-- The state of the server then. -/
def stateAfter (serve : Server σ) (s : σ) : List (List Bytes) → σ
  | [] => s
  | argv :: commands => stateAfter serve (serve s argv).1 commands

end Waspp.Hiredis
