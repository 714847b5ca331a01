/-
Module: Waspp.Proofs.RedisExchanges
Layer: Proofs
Purpose: What a client gets from its server, whatever the order of the moves.  `Flow` says where each
  command and each answer is: the commands that were not taken are the bytes on the way and in the output
  buffer, and the answers are the bytes that the client read and those on the way back.  Every move keeps
  it.  So the replies that calls return are the answers to the commands in their order, none lost, none
  twice (`returned_in_order`), a call that has an answer to come can always return it, and no other call
  returns a reply (`call_returns_iff`).
Imports: Waspp.Model.RedisExchange
Trusted boundary: none (fully proved)
Main exports: Flow, InOrder, inOrder_step, returned_in_order, call_can_return, call_returns_iff
Open obligations: none
-/
import Waspp.Model.RedisExchange

namespace Waspp.Hiredis

open CString Resumable

variable {σ : Type} {allocates : Allocator} {serve : Server σ}

/-! ### Answers -/

/-- Answers to commands in two parts. -/
theorem answers_append (s : σ) (one two : List (List Bytes)) :
    answers serve s (one ++ two) = answers serve s one ++ answers serve (stateAfter serve s one) two := by
  induction one generalizing s with
  | nil => rfl
  | cons argv one ih => rw [List.cons_append, answers, ih, answers, stateAfter, List.cons_append]

/-- The server goes on from where the first part left it. -/
theorem stateAfter_append (s : σ) (one two : List (List Bytes)) :
    stateAfter serve s (one ++ two) = stateAfter serve (stateAfter serve s one) two := by
  induction one generalizing s with
  | nil => rfl
  | cons argv one ih => rw [List.cons_append, stateAfter, ih, stateAfter]

/-- Each command has one answer. -/
theorem length_answers (s : σ) (commands : List (List Bytes)) :
    (answers serve s commands).length = commands.length := by
  induction commands generalizing s with
  | nil => rfl
  | cons argv commands ih => rw [answers, List.length_cons, ih, List.length_cons]

/-- Replies are written one after the other. -/
theorem encodeAll_append (one two : List RedisReply) :
    encodeAll (one ++ two) = encodeAll one ++ encodeAll two := by
  induction one with
  | nil => rfl
  | cons reply one ih => rw [List.cons_append, encodeAll, ih, encodeAll, List.append_assoc]

/-- The reader has room for everything that the server answers. -/
def AnswersFit (allocates : Allocator) (serve : Server σ) : Prop :=
  ∀ s argv, Fits allocates 8 (serve s argv).2

/-- All answers fit the reader. -/
theorem fitAll_answers (fits : AnswersFit allocates serve) (s : σ) (commands : List (List Bytes)) :
    FitAll allocates 8 (answers serve s commands) := by
  induction commands generalizing s with
  | nil => trivial
  | cons argv commands ih => exact ⟨fits s argv, ih _⟩

/-! ### Where commands and answers are

What was appended is with the server, on its way or still in the buffer of the client, in this order; and
the answers to what the server took are on their way, with the reader or returned. -/

/-- The server took the commands `served`, the commands `waiting` are on their way, and the client read
    `input`. -/
structure Flow (allocates : Allocator) (serve : Server σ) (start : σ) (x : Exchange σ)
    (served waiting : List (List Bytes)) (input : Bytes) : Prop where
  appended : x.appended = served ++ waiting
  toServer : x.toServer ++ x.context.obuf = waiting.flatMap commandText
  server : x.server = stateAfter serve start served
  toClient : input ++ x.toClient = encodeAll (answers serve start served)
  accounts : Accounts allocates input x.returned x.context.reader

variable {start : σ} {x : Exchange σ} {served waiting : List (List Bytes)} {input : Bytes}

/-- Nothing is anywhere at the start. -/
theorem flow_start (start : σ) : Flow allocates serve start { server := start } [] [] [] :=
  ⟨rfl, rfl, rfl, rfl, accounts_start⟩

/-- Draining all that the server wrote gives its answers. -/
theorem drain_answers (fits : AnswersFit allocates serve) (start : σ) (commands : List (List Bytes)) :
    (recogniser allocates).drain [] (encodeAll (answers serve start commands)) =
      ⟨answers serve start commands, .ok ([], [])⟩ :=
  drain_eq_iff.mpr (texts_encodeAll (fitAll_answers fits start commands))

/-- A reader that read a part of the answers has no error. -/
theorem reader_fine (fits : AnswersFit allocates serve) {replies : List RedisReply} {r : Reader}
    {rest : Bytes} (accounts : Accounts allocates input replies r)
    (part : input ++ rest = encodeAll (answers serve start served)) :
    r.err = none := by
  cases status : r.err with
  | none => rfl
  | some e =>
      have failed := congrArg Drained.left (accounts.failed e status)
      have whole := Recogniser.left_append_of_error failed rest
      rw [part, drain_answers fits] at whole
      cases whole

/-- What was returned is a part of the answers, from the first one on. -/
theorem Flow.returned (flow : Flow allocates serve start x served waiting input)
    (fits : AnswersFit allocates serve) :
    x.returned <+: answers serve start x.appended := by
  have got : x.returned <+: ((recogniser allocates).drain [] input).items := by
    rw [flow.accounts.working (reader_fine fits flow.accounts flow.toClient)]
    exact List.prefix_append ..
  have read := Recogniser.items_prefix_append (m := recogniser allocates) [] input x.toClient
  rw [flow.toClient, drain_answers fits] at read
  rw [flow.appended, answers_append]
  exact (got.trans read).trans (List.prefix_append ..)

/-! ### Every move keeps the order

One lemma for each kind of move: it shifts commands or answers along the way and changes no order. -/

/-- The context has the command in its buffer. -/
theorem appendCommandArgv_eq {argv : List Bytes} (short : commandLength argv < 2 ^ 31) (c : Context) :
    c.appendCommandArgv argv = some { c with obuf := c.obuf ++ commandText argv } := by
  have made : formatSdsCommandArgv argv = some (commandText argv) :=
    formatSdsCommandArgv_eq_some_iff.mpr ⟨by rwa [← commandLength_eq], rfl⟩
  have computed : sdsTotlen argv = commandLength argv := by
    rw [sdsTotlen_eq, Nat.mod_eq_of_lt (by omega)]
  have int : wrapInt (commandLength argv) = commandLength argv :=
    Int.bmod_eq_of_le (by omega) (by omega)
  have whole : (commandText argv).take (commandLength argv) = commandText argv := by
    rw [commandLength_eq, List.take_length]
  simp only [Context.appendCommandArgv, made, computed, Option.bind_eq_bind, Option.bind_some, int,
    Int.toNat_natCast, whole]
  rw [if_neg (by omega), if_neg (by omega)]

/-- What the socket takes leaves the buffer, and nothing else does. -/
theorem bufferWrite_conserves (c : Context) (result : WriteResult) :
    (c.bufferWrite result).2 ++ (c.bufferWrite result).1.obuf = c.obuf ∧
      (c.bufferWrite result).1.reader = c.reader := by
  unfold Context.bufferWrite
  split
  · exact ⟨rfl, rfl⟩
  · split
    · exact ⟨rfl, rfl⟩
    · cases result with
      | wrote n => exact ⟨List.take_append_drop n c.obuf, rfl⟩
      | again | failed => exact ⟨rfl, rfl⟩

/-- A write moves commands from the buffer on their way. -/
theorem flow_write (flow : Flow allocates serve start x served waiting input) (result : WriteResult) :
    Flow allocates serve start (x.write result) served waiting input := by
  obtain ⟨conserves, reader⟩ := bufferWrite_conserves x.context result
  refine ⟨flow.appended, ?_, flow.server, flow.toClient, ?_⟩
  · simp only [Exchange.write, List.append_assoc, conserves]
    exact flow.toServer
  · simp only [Exchange.write, reader]
    exact flow.accounts

/-- Asking a reader that has no error then. -/
theorem tryReader_eq (fine : (x.context.reader.getReply allocates).2.err = none) (otherwise : Phase) :
    x.tryReader allocates otherwise = { x with
      phase := if (x.context.reader.getReply allocates).1 = none then otherwise else .idle
      context := { x.context with reader := (x.context.reader.getReply allocates).2 }
      returned := x.returned ++ (x.context.reader.getReply allocates).1.toList } := by
  unfold Exchange.tryReader Context.getReplyFromReader
  cases result : x.context.reader.getReply allocates with
  | mk reply reader =>
      rw [result] at fine
      obtain ⟨err, buf, pos, rstack⟩ := reader
      obtain rfl : err = none := fine
      cases reply with
      | none => simp
      | some reply => simp

/-- The reader takes an answer or waits for more. -/
theorem flow_tryReader (fits : AnswersFit allocates serve)
    (flow : Flow allocates serve start x served waiting input) (otherwise : Phase) :
    Flow allocates serve start (x.tryReader allocates otherwise) served waiting input := by
  have asked := accounts_getReply flow.accounts
  rw [tryReader_eq (reader_fine fits asked flow.toClient)]
  exact ⟨flow.appended, flow.toServer, flow.server, flow.toClient, asked⟩

/-- What the context makes of what `read` returns. -/
theorem accounts_bufferRead {c : Context} {replies : List RedisReply}
    (accounts : Accounts allocates input replies c.reader) (working : c.err = none) (result : ReadResult) :
    Accounts allocates (input ++ result.block) replies (c.bufferRead result).reader ∧
      (c.bufferRead result).obuf = c.obuf := by
  have unchanged : Accounts allocates (input ++ []) replies c.reader := by rwa [List.append_nil]
  unfold Context.bufferRead
  simp only [working, Option.isSome_none, Bool.false_eq_true, if_false]
  cases result with
  | data block =>
      have fed' := accounts_feed accounts block
      simp only
      split <;> exact ⟨fed', rfl⟩
  | again | closed | failed => exact ⟨unchanged, rfl⟩

/-- The server takes the first command that waits. -/
theorem flow_serve (flow : Flow allocates serve start x served waiting input) {argv : List Bytes}
    (there : commandText argv <+: x.toServer) :
    ∃ rest, waiting = argv :: rest ∧ Flow allocates serve start { x with
      toServer := x.toServer.drop (commandText argv).length
      server := (serve x.server argv).1
      toClient := x.toClient ++ encode (serve x.server argv).2 } (served ++ [argv]) rest input := by
  obtain ⟨behind, split⟩ := there
  have texts : commandText argv ++ (behind ++ x.context.obuf) = waiting.flatMap commandText := by
    rw [← List.append_assoc, split, flow.toServer]
  cases waiting with
  | nil => simp [commandText] at texts
  | cons first rest =>
      rw [List.flatMap_cons] at texts
      obtain ⟨rfl, others⟩ := commandText_cut texts
      refine ⟨rest, rfl, ?_, ?_, ?_, ?_, flow.accounts⟩
      · rw [flow.appended, List.append_assoc, List.singleton_append]
      · rw [← split, List.drop_left, others]
      · rw [stateAfter_append, ← flow.server]
        rfl
      · rw [answers_append, encodeAll_append, ← flow.toClient, ← flow.server]
        simp [answers, encodeAll]

/-- A command is put behind the others. -/
theorem flow_append (flow : Flow allocates serve start x served waiting input) (argv : List Bytes) :
    Flow allocates serve start { x with
      context := { x.context with obuf := x.context.obuf ++ commandText argv }, appended :=
    x.appended ++ [argv] }
      served (waiting ++ [argv]) input := by
  refine ⟨?_, ?_, flow.server, flow.toClient, flow.accounts⟩
  · rw [flow.appended, List.append_assoc]
  · rw [List.flatMap_append, ← flow.toServer]
    simp

/-- What holds of the client where it is in `redisGetReply`. -/
structure InCall (allocates : Allocator) (x : Exchange σ) : Prop where
  /-- There is no reply in the reader. -/
  waits : x.phase ≠ .idle → processItem allocates x.context.reader.rstack x.context.reader.unread = .more
  flushed : x.phase = .reading → x.context.err = none ∧ x.context.obuf = []

/-- Every state that is reached. -/
def InOrder (allocates : Allocator) (serve : Server σ) (start : σ) (x : Exchange σ) : Prop :=
  (∃ served waiting input, Flow allocates serve start x served waiting input) ∧ InCall allocates x

/-- A call that found no answer waits, with its commands sent. -/
theorem inCall_tryReader (fits : AnswersFit allocates serve)
    (flow : Flow allocates serve start x served waiting input)
    {otherwise : Phase} (flushed : otherwise = .reading → x.context.err = none ∧ x.context.obuf = []) :
    InCall allocates (x.tryReader allocates otherwise) := by
  have fine := reader_fine fits (accounts_getReply flow.accounts) flow.toClient
  rw [tryReader_eq fine]
  cases reply : (x.context.reader.getReply allocates).1 with
  | some reply => exact ⟨fun call => absurd rfl call, nofun⟩
  | none => exact ⟨fun _ => waits_of_emptied flow.accounts reply fine, flushed⟩

/-- What `read` returned is with the reader. -/
theorem flow_bufferRead (flow : Flow allocates serve start x served waiting input)
    (working : x.context.err = none) {result : ReadResult} (possible : result.Possible x.toClient) :
    Flow allocates serve start { x with
      toClient := x.toClient.drop result.block.length,
        context := x.context.bufferRead result } served waiting
      (input ++ result.block) := by
  obtain ⟨accounts, obuf⟩ := accounts_bufferRead flow.accounts working result
  obtain ⟨-, -, rest, there⟩ := possible
  refine ⟨flow.appended, by rw [← flow.toServer]; exact congrArg _ obuf, flow.server, ?_, accounts⟩
  rw [← flow.toClient, ← there, List.drop_left, List.append_assoc]

/-- A read moves answers to the reader. -/
theorem flow_read (fits : AnswersFit allocates serve)
    (flow : Flow allocates serve start x served waiting input)
    (flushed : x.context.err = none ∧ x.context.obuf = []) {result : ReadResult}
    (possible : result.Possible x.toClient) {y : Exchange σ}
    (read : { x with toClient := x.toClient.drop result.block.length }.read allocates result = y) :
    Flow allocates serve start y served waiting (input ++ result.block) ∧ InCall allocates y := by
  have fed' := flow_bufferRead flow flushed.1 possible
  have obuf := (accounts_bufferRead flow.accounts flushed.1 result).2
  subst read
  simp only [Exchange.read]
  split
  · exact ⟨⟨fed'.appended, fed'.toServer, fed'.server, fed'.toClient, fed'.accounts⟩,
      fun call => absurd rfl call, nofun⟩
  · next working =>
      have still : (x.context.bufferRead result).err = none := by simpa using working
      exact ⟨flow_tryReader fits fed' .reading,
        inCall_tryReader fits fed' fun _ => ⟨still, obuf.trans flushed.2⟩⟩

/-- Every move keeps the order. -/
theorem inOrder_step (fits : AnswersFit allocates serve) (here : InOrder allocates serve start x)
    {move : Move} (short : ∀ argv, move = .append argv → commandLength argv < 2 ^ 31) {y : Exchange σ}
    (step : x.step allocates serve move = some y) : InOrder allocates serve start y := by
  obtain ⟨⟨served, waiting, input, flow⟩, waits, flushed⟩ := here
  cases move with
  | append argv =>
      rw [Exchange.step, appendCommandArgv_eq (short argv rfl)] at step
      split at step
      · next idle =>
          cases step
          exact ⟨⟨_, _, _, flow_append flow argv⟩, fun call => absurd idle call,
            fun reading => by rw [idle] at reading; cases reading⟩
      · cases step
  | getReply =>
      rw [Exchange.step] at step
      split at step
      · cases step
        exact ⟨⟨_, _, _, flow_tryReader fits flow _⟩, inCall_tryReader fits flow nofun⟩
      · cases step
  | write result =>
      rw [Exchange.step] at step
      split at step
      · next flushing =>
          cases step
          have reader := (bufferWrite_conserves x.context result).2
          refine ⟨⟨_, _, _, flow_write flow result⟩, fun _ => ?_, fun reading => ?_⟩
          · simp only [Exchange.write, reader]
            exact waits (by rw [flushing]; nofun)
          · simp only [Exchange.write] at reading ⊢
            split at reading
            · cases reading
            · next working =>
                split at reading
                · exact ⟨by simpa using working, ‹_›⟩
                · cases reading
      · cases step
  | read result =>
      rw [Exchange.step] at step
      split at step
      · next allowed =>
          cases step
          obtain ⟨flow, call⟩ := flow_read fits flow (flushed allowed.1) allowed.2 rfl
          exact ⟨⟨_, _, _, flow⟩, call⟩
      · cases step
  | serve argv =>
      rw [Exchange.step] at step
      split at step
      · cases step
        obtain ⟨rest, -, flow⟩ := flow_serve flow ‹_›
        exact ⟨⟨_, _, _, flow⟩, waits, flushed⟩
      · cases step

/-- Runs keep the order. -/
theorem inOrder_run (fits : AnswersFit allocates serve) (here : InOrder allocates serve start x)
    {moves : List Move} (short : ∀ argv, .append argv ∈ moves → commandLength argv < 2 ^ 31) {y : Exchange σ}
    (run : x.run allocates serve moves = some y) : InOrder allocates serve start y := by
  induction moves generalizing x with
  | nil =>
      cases run
      exact here
  | cons move moves ih =>
      rw [Exchange.run] at run
      obtain ⟨next, step, rest⟩ := Option.bind_eq_some_iff.mp run
      have kept :=
        inOrder_step fits here (fun argv same => short argv (by rw [same]; exact List.mem_cons_self)) step
      exact ih kept (fun argv member => short argv (List.mem_cons_of_mem _ member)) rest

/-- The order holds at the start. -/
theorem inOrder_start (start : σ) : InOrder allocates serve start { server := start } :=
  ⟨⟨_, _, _, flow_start start⟩, fun call => absurd rfl call, nofun⟩

/-- In any order of the moves, the replies that calls of `redisGetReply` return are the server's answers to
    the commands in the order in which they were appended, and the reader never fails. -/
theorem returned_in_order (fits : AnswersFit allocates serve) (start : σ) {moves : List Move}
    (short : ∀ argv, .append argv ∈ moves → commandLength argv < 2 ^ 31) {y : Exchange σ}
    (run : Exchange.run allocates serve { server := start } moves = some y) :
    y.returned <+: answers serve start y.appended ∧ y.context.reader.err = none := by
  obtain ⟨⟨served, waiting, input, flow⟩, -⟩ := inOrder_run fits (inOrder_start start) short run
  exact ⟨flow.returned fits, reader_fine fits flow.accounts flow.toClient⟩

/-- A server that answers 0 and 1 in turn. -/
def turns : Server Bool := fun turn _ => (!turn, .integer turn.toNat)

/-- The answers of this server fit. -/
theorem turns_fit : AnswersFit (fun _ => true) turns := by
  intro turn argv
  cases turn <;> simp [turns, Fits]

/-- Two commands in one buffer, written in two parts, and the answers read in two parts. -/
def twoPings : List Move :=
  [.append [bytes "PING"], .append [bytes "PING"], .getReply, .write (.wrote 20), .serve [bytes "PING"],
    .write .again,
    .write (.wrote 8), .read (.data (bytes ":0")), .serve [bytes "PING"], .read (.data (bytes "\r\n:1\r")),
    .getReply, .write (.wrote 0), .read (.data (bytes "\n"))]

/-- The commands are short. -/
theorem short_twoPings (argv : List Bytes) (member : .append argv ∈ twoPings) :
    commandLength argv < 2 ^ 31 := by
  have ping : argv = [bytes "PING"] := by simpa [twoPings] using member
  subst ping
  decide +kernel

theorem returned_in_order_pings : ∃ y, Exchange.run (fun _ => true) turns { server :=
  false } twoPings = some y ∧
    y.returned <+: answers turns false y.appended := by
  have moves : (Exchange.run (fun _ => true) turns { server := false } twoPings).isSome = true := by
    decide +kernel
  obtain ⟨y, run⟩ := Option.isSome_iff_exists.mp moves
  exact ⟨y, run, (returned_in_order turns_fit false short_twoPings run).1⟩

example : (Exchange.run (fun _ => true) turns { server := false } twoPings).map (encodeAll ·.returned) =
    some (bytes ":0\r\n:1\r\n") := by
  decide +kernel

/-! ### A call returns when an answer is to come

The way to the return is constructed: the buffer is written, the server answers, and the answer is read
byte by byte until the reader has it. -/

/-- Moves in two parts. -/
theorem run_append (one two : List Move) : x.run allocates serve (one ++ two) =
    (x.run allocates serve one).bind fun y => y.run allocates serve two := by
  induction one generalizing x with
  | nil => rfl
  | cons move one ih =>
      rw [List.cons_append, Exchange.run, Exchange.run]
      cases x.step allocates serve move with
      | none => rfl
      | some next => exact ih

/-- A move of the server or a result of the socket. -/
def Move.Outside : Move → Prop
  | .append _ => False
  | .getReply => False
  | .write _ => True
  | .read _ => True
  | .serve _ => True

/-- The server can take every command that is on its way. -/
theorem can_serve (flow : Flow allocates serve start x served waiting input)
    (flushed : x.context.obuf = []) :
    ∃ moves y, (∀ move ∈ moves, move.Outside) ∧ x.run allocates serve moves = some y ∧
      Flow allocates serve start y (served ++ waiting) [] input ∧ y.phase = x.phase ∧ y.context = x.context ∧
      y.returned = x.returned ∧ y.appended = x.appended := by
  induction waiting generalizing x served with
  | nil => exact ⟨[], x, nofun, rfl, by rwa [List.append_nil], rfl, rfl, rfl, rfl⟩
  | cons argv waiting ih =>
      have there : commandText argv <+: x.toServer := by
        have texts := flow.toServer
        rw [flushed, List.append_nil, List.flatMap_cons] at texts
        exact ⟨_, texts.symm⟩
      obtain ⟨rest, same, taken⟩ := flow_serve flow there
      obtain ⟨-, rfl⟩ := List.cons.inj same
      obtain ⟨moves, y, outside, run, last, kept⟩ := ih taken flushed
      refine ⟨.serve argv :: moves, y, ?_, ?_, by simpa using last, kept⟩
      · intro move member
        rcases List.mem_cons.mp member with rfl | member
        · trivial
        · exact outside move member
      · rw [Exchange.run, Exchange.step, if_pos there]
        exact run

/-- When nothing is on its way and the reader waits, every command has its reply. -/
theorem all_returned (fits : AnswersFit allocates serve)
    (flow : Flow allocates serve start x served [] input) (empty : x.toClient = [])
    (waits : processItem allocates x.context.reader.rstack x.context.reader.unread = .more) :
    x.returned.length = x.appended.length := by
  have text := flow.toClient
  have step : (recogniser allocates).step x.context.reader.rstack x.context.reader.unread = .more := waits
  have drained := flow.accounts.working (reader_fine fits flow.accounts flow.toClient)
  rw [empty, List.append_nil] at text
  rw [Recogniser.drain_of_more step, text, drain_answers fits, Drained.after, List.append_nil,
    Drained.mk.injEq] at drained
  rw [← drained.1, length_answers, flow.appended, List.append_nil]

/-- Reading input, the call returns a reply or reads on. -/
theorem read_block (fits : AnswersFit allocates serve)
    (flow : Flow allocates serve start x served waiting input)
    (flushed : x.context.err = none ∧ x.context.obuf = []) {block : Bytes}
    (possible : (ReadResult.data block).Possible x.toClient) {y : Exchange σ}
    (read : { x with toClient := x.toClient.drop block.length }.read allocates (.data block) = y) :
    y.toClient = x.toClient.drop block.length ∧ y.appended = x.appended ∧
      (y.phase = .reading ∧ y.returned = x.returned ∨ ∃ reply, y.phase = .idle ∧ y.returned = x.returned ++
        [reply]) := by
  obtain ⟨accounts, -⟩ := accounts_bufferRead flow.accounts flushed.1 (.data block)
  obtain ⟨-, -, rest, there⟩ := possible
  have toClient : input ++ block ++ rest = encodeAll (answers serve start served) := by
    rw [← flow.toClient, ← there, List.append_assoc]
    rfl
  have fine : (x.context.bufferRead (.data block)).reader.err = none := reader_fine fits accounts toClient
  have working : (x.context.bufferRead (.data block)).err = none := by
    unfold Context.bufferRead at fine ⊢
    rw [flushed.1] at fine ⊢
    simp only [Option.isSome_none, Bool.false_eq_true, if_false] at fine ⊢
    split
    · next failed =>
        simp only [failed] at fine
        cases fine
    · rfl
  have asked := reader_fine fits (accounts_getReply accounts) toClient
  subst read
  simp only [Exchange.read, working, Option.isSome_none, Bool.false_eq_true, if_false]
  rw [tryReader_eq asked]
  cases ((x.context.bufferRead (.data block)).reader.getReply allocates).1 with
  | none => exact ⟨rfl, rfl, .inl ⟨rfl, List.append_nil _⟩⟩
  | some reply => exact ⟨rfl, rfl, .inr ⟨reply, rfl, rfl⟩⟩

/-- The client can read until the call returns. -/
theorem can_read (fits : AnswersFit allocates serve) (flow : Flow allocates serve start x served [] input)
    (call : InCall allocates x) (reading : x.phase = .reading)
    (outstanding : x.returned.length < x.appended.length) :
    ∃ moves y reply, (∀ move ∈ moves, move.Outside) ∧ x.run allocates serve moves = some y ∧
      y.phase = .idle ∧ y.returned = x.returned ++ [reply] ∧ y.appended = x.appended := by
  generalize size : x.toClient.length = n
  induction n generalizing x input with
  | zero =>
      have all :=
        all_returned fits flow (List.eq_nil_of_length_eq_zero size) (call.waits (by rw [reading]; nofun))
      omega
  | succ n ih =>
      cases there : x.toClient with
      | nil => simp [there] at size
      | cons b rest =>
          have flushed := call.flushed reading
          have possible : (ReadResult.data [b]).Possible x.toClient :=
            ⟨by simp, by simp [ReadResult.block], rest, by rw [there]; rfl⟩
          generalize read : { x with toClient := x.toClient.drop [b].length }.read allocates (.data [b]) =
            next
          have step : x.step allocates serve (.read (.data [b])) = some next := by
            rw [Exchange.step, if_pos ⟨reading, possible⟩, ← read]
            rfl
          obtain ⟨flow, call⟩ := flow_read fits flow flushed possible read
          obtain ⟨left, same, on | ⟨reply, idle, returned⟩⟩ :=
            read_block fits ‹Flow _ _ _ x _ _ _› flushed possible read
          · obtain ⟨moves, y, reply, outside, run, idle, returned, appended⟩ := ih flow call on.1
              (by rw [on.2, same]; exact outstanding)
                (by rw [left, there] ; simp [there] at size; simpa using size)
            refine ⟨.read (.data [b]) :: moves, y, reply, ?_, ?_, idle, by rw [returned, on.2],
              appended.trans same⟩
            · intro move member
              rcases List.mem_cons.mp member with rfl | member
              · trivial
              · exact outside move member
            · rw [Exchange.run, step]
              exact run
          · refine ⟨[.read (.data [b])], next, reply, ?_, ?_, idle, returned, same⟩
            · intro move member
              rw [List.mem_singleton.mp member]
              trivial
            · rw [Exchange.run, step]
              rfl

/-- A write may take the whole buffer. -/
theorem bufferWrite_whole {c : Context} (working : c.err = none) :
    c.bufferWrite (.wrote c.obuf.length) = ({ c with obuf := [] }, c.obuf) := by
  obtain ⟨err, obuf, reader⟩ := c
  obtain rfl : err = none := working
  cases obuf with
  | nil => rfl
  | cons b obuf => simp [Context.bufferWrite]

/-- The client can write until it reads. -/
theorem can_flush (flow : Flow allocates serve start x served waiting input) (call : InCall allocates x)
    (inside : x.phase ≠ .idle) (working : x.context.err = none) :
    ∃ moves y, (∀ move ∈ moves, move.Outside) ∧ x.run allocates serve moves = some y ∧
      Flow allocates serve start y served waiting input ∧ InCall allocates y ∧ y.phase = .reading ∧
      y.returned = x.returned ∧ y.appended = x.appended := by
  cases phase : x.phase with
  | idle => exact absurd phase inside
  | reading => exact ⟨[], x, nofun, rfl, flow, call, phase, rfl, rfl⟩
  | flushing =>
      have whole := bufferWrite_whole working
      refine ⟨[.write (.wrote x.context.obuf.length)], x.write (.wrote x.context.obuf.length), ?_, ?_,
        flow_write flow _, ?_⟩
      · intro move member
        rw [List.mem_singleton.mp member]
        trivial
      · rw [Exchange.run, Exchange.step, if_pos phase]
        rfl
      · simp only [Exchange.write, whole, working, Option.isSome_none, Bool.false_eq_true, if_false, if_true]
        exact ⟨⟨fun _ => call.waits inside, fun _ => ⟨rfl, rfl⟩⟩, trivial, trivial, trivial⟩

/-- A call of `redisGetReply` that an answer is to come for can always return, and then it returns the next
    answer. -/
theorem call_can_return (fits : AnswersFit allocates serve) (here : InOrder allocates serve start x)
    (inside : x.phase ≠ .idle) (working : x.context.err = none)
    (outstanding : x.returned.length < x.appended.length) :
    ∃ moves y reply, (∀ move ∈ moves, move.Outside) ∧ x.run allocates serve moves = some y ∧
      y.phase = .idle ∧ y.returned = x.returned ++ [reply] ∧ y.appended = x.appended := by
  obtain ⟨⟨served, waiting, input, flow⟩, call⟩ := here
  obtain ⟨first, flushed, outside1, run1, flow, call, reading, returned1, appended1⟩ :=
    can_flush flow call inside working
  obtain ⟨second, taken, outside2, run2, flow, phase2, context2, returned2, appended2⟩ :=
    can_serve flow (call.flushed reading).2
  have call2 : InCall allocates taken :=
    ⟨fun _ => by rw [context2]; exact call.waits (by rw [reading]; nofun),
    fun _ => by rw [context2]; exact call.flushed reading⟩
  obtain ⟨third, y, reply, outside3, run3, idle, returned3, appended3⟩ := can_read fits flow call2
    (phase2.trans reading) (by rw [returned2, appended2, returned1, appended1]; exact outstanding)
  refine ⟨first ++ (second ++ third), y, reply, ?_, ?_, idle, ?_, ?_⟩
  · intro move member
    rcases List.mem_append.mp member with member | member
    · exact outside1 move member
    · rcases List.mem_append.mp member with member | member
      · exact outside2 move member
      · exact outside3 move member
  · rw [run_append, run1, Option.bind_some, run_append, run2, Option.bind_some, run3]
  · rw [returned3, returned2, returned1]
  · rw [appended3, appended2, appended1]

/-- The reader appends no command. -/
theorem appended_tryReader (x : Exchange σ) (otherwise : Phase) :
    (x.tryReader allocates otherwise).appended = x.appended := by
  unfold Exchange.tryReader
  simp only
  repeat' split
  all_goals rfl

theorem appended_of_step {move : Move} (outside : move.Outside) {y : Exchange σ}
    (step : x.step allocates serve move = some y) : y.appended = x.appended := by
  cases move with
  | append argv | getReply => exact outside.elim
  | write result =>
      rw [Exchange.step] at step
      split at step <;> cases step
      rfl
  | read result =>
      rw [Exchange.step] at step
      split at step
      · cases step
        simp only [Exchange.read]
        split
        · rfl
        · exact appended_tryReader _ _
      · cases step
  | serve argv =>
      rw [Exchange.step] at step
      split at step <;> cases step
      rfl

theorem appended_of_run {moves : List Move} (outside : ∀ move ∈ moves, move.Outside) {y : Exchange σ}
    (run : x.run allocates serve moves = some y) : y.appended = x.appended := by
  induction moves generalizing x with
  | nil =>
      cases run
      rfl
  | cons move moves ih =>
      rw [Exchange.run] at run
      obtain ⟨next, step, rest⟩ := Option.bind_eq_some_iff.mp run
      rw [ih (fun move member => outside move (List.mem_cons_of_mem _ member)) rest,
        appended_of_step (outside move List.mem_cons_self) step]

/-- Whatever was done before, a call of `redisGetReply` under way on a connection without errors can return a
    reply exactly when fewer replies were returned than commands appended; then the next answer is what it
    returns, and otherwise it does not return until the connection fails. -/
theorem call_returns_iff (fits : AnswersFit allocates serve) (start : σ) {moves : List Move}
    (short : ∀ argv, .append argv ∈ moves → commandLength argv < 2 ^ 31)
    (run : Exchange.run allocates serve { server := start } moves = some x) (inside : x.phase ≠ .idle)
    (working : x.context.err = none) :
    (∃ more y reply, (∀ move ∈ more, move.Outside) ∧ x.run allocates serve more = some y ∧
      y.returned = x.returned ++ [reply]) ↔ x.returned.length < x.appended.length := by
  have here := inOrder_run fits (inOrder_start start) short run
  constructor
  · rintro ⟨more, y, reply, outside, later, returned⟩
    have still : ∀ argv, .append argv ∈ more → commandLength argv < 2 ^ 31 :=
      fun argv member => (outside _ member).elim
    obtain ⟨⟨served, waiting, input, flow⟩, -⟩ := inOrder_run fits here still later
    have most := (flow.returned fits).length_le
    rw [returned, length_answers, appended_of_run outside later, List.length_append,
      List.length_singleton] at most
    omega
  · intro outstanding
    obtain ⟨more, y, reply, outside, later, -, returned, -⟩ :=
      call_can_return fits here inside working outstanding
    exact ⟨more, y, reply, outside, later, returned⟩

/-- A call that waits for the answer to the second command. -/
theorem call_returns_iff_ping : ∃ x, Exchange.run (fun _ => true) turns { server :=
  false } (twoPings.take 12) = some x ∧
    ∃ more y reply, (∀ move ∈ more, move.Outside) ∧ x.run (fun _ => true) turns more = some y ∧
      y.returned = x.returned ++ [reply] := by
  have moves : ((Exchange.run (fun _ => true) turns { server := false } (twoPings.take 12)).any fun x =>
      decide (x.phase ≠ .idle ∧ x.context.err = none ∧ x.returned.length < x.appended.length)) = true := by
    decide +kernel
  obtain ⟨x, run, state⟩ := (Option.any_eq_true _ _).mp moves
  obtain ⟨inside, working, outstanding⟩ := of_decide_eq_true state
  exact ⟨x, run, (call_returns_iff turns_fit false
    (fun argv member => short_twoPings argv (List.mem_of_mem_take member)) run inside working).mpr
    outstanding⟩

end Waspp.Hiredis
