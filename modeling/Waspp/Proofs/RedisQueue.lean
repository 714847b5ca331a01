/-
Module: Waspp.Proofs.RedisQueue
Layer: Proofs
Purpose: The queue that `redis3m::connection` is to its callers, and the context, buffers and reader behind
  it.  Every run of the exchange with a server is a run of the queue: a reply that a call returns answers
  the first command that is not answered yet, and a call on a connection with an error fails, although it
  looks into the reader first.
Imports: Waspp.Model.Redis3mReply, Waspp.Proofs.RedisExchanges
Trusted boundary: none (fully proved)
Main exports: QueueCall, Connection.calls, callsEnded, queueOf, queue_step, queue_run,
  connection_refines_queue
Open obligations: none
-/
import Waspp.Model.Redis3mReply
import Waspp.Proofs.RedisExchanges

namespace Waspp.Redis3m

open CString Hiredis

/-! ### Calls on the queue -/

/-- A call of `append` by a client, or of `get_reply` with its outcome. -/
inductive QueueCall where
  | append (client : Nat)
  | getReply (outcome : Outcome)
deriving DecidableEq, Repr

/-- The client whose command is answered, if the call reads a reply, and the queue then. -/
def Connection.call (conn : Connection) : QueueCall → Option (Option Nat × Connection)
  | .append client => some (none, conn.append client true)
  | .getReply outcome => conn.getReply outcome

/-- Calls, one after another: the clients whose commands are answered, and the queue then. -/
def Connection.calls (conn : Connection) : List QueueCall → Option (List Nat × Connection)
  | [] => some ([], conn)
  | call :: calls => do
      let (read, conn) ← conn.call call
      let (reads, conn) ← conn.calls calls
      some (read.toList ++ reads, conn)

/-- The client of a call that appends. -/
def QueueCall.client : QueueCall → Option Nat
  | .append client => some client
  | .getReply _ => none

/-- Calls in two parts. -/
theorem Connection.calls_append {conn next last : Connection} {one two : List QueueCall}
    {first second : List Nat}
    (ran : conn.calls one = some (first, next)) (then_ : next.calls two = some (second, last)) :
    conn.calls (one ++ two) = some (first ++ second, last) := by
  induction one generalizing conn first with
  | nil =>
      cases ran
      exact then_
  | cons call one ih =>
      simp only [Connection.calls, Option.bind_eq_bind, Option.bind_eq_some_iff] at ran
      obtain ⟨⟨read, left⟩, here, ⟨reads, behind⟩, rest, same⟩ := ran
      cases same
      simp only [List.cons_append, Connection.calls, here, Option.bind_eq_bind, Option.bind_some, ih rest,
        List.append_assoc]

/-! ### Replies

hiredis gives trees of replies, the pool's callers get outcomes.  A reply that fits a reader becomes one
that is no failure. -/

mutual

/-- A reply that the reader has room for is copied. -/
theorem construct_of_fits {allocates : Allocator} :
    ∀ {depth : Nat} {reply : RedisReply}, Fits allocates depth reply → ∃ rep, Reply.construct reply = .ok rep
  | _, .string _, _ => ⟨_, rfl⟩
  | 0, .array _ _, fits => by
      rw [Fits] at fits
      exact fits.elim
  | depth + 1, .array elements element, fits => by
      rw [Fits] at fits
      obtain ⟨rfl, -, -, inside⟩ := fits
      obtain ⟨elements_, copied⟩ := constructAll_of_fitAll inside
      exact ⟨.mk .array [] 0 elements_, by rw [Reply.construct, copied]; rfl⟩
  | _, .integer _, _ => ⟨_, rfl⟩
  | _, .nil, _ => ⟨_, rfl⟩
  | _, .status _, _ => ⟨_, rfl⟩
  | _, .error _, _ => ⟨_, rfl⟩

/-- The elements of a reply that fits become elements. -/
theorem constructAll_of_fitAll {allocates : Allocator} : ∀ {depth : Nat} {element : List RedisReply},
    FitAll allocates depth element → ∃ elements, Reply.constructAll element.length element = .ok elements
  | _, [], _ => ⟨[], rfl⟩
  | _, _ :: _, fits => by
      rw [FitAll] at fits
      obtain ⟨first, copied⟩ := construct_of_fits fits.1
      obtain ⟨others, rest⟩ := constructAll_of_fitAll fits.2
      exact ⟨first :: others, by rw [List.length_cons, Reply.constructAll, copied, rest]; rfl⟩

end

/-- A reply that fits is no failure. -/
theorem outcomeOf_of_fits {allocates : Allocator} {depth : Nat} {reply : RedisReply}
    (fits : Fits allocates depth reply) : ∃ outcome, outcomeOf reply = .ok outcome ∧ outcome ≠ .failed := by
  obtain ⟨rep, copied⟩ := construct_of_fits fits
  refine ⟨if rep.isReadOnly then .readOnly else .answered, by rw [outcomeOf, copied]; rfl, ?_⟩
  split <;> nofun

/-! ### What the callers see of the exchange

Which client asked for each command that is appended, and whose answer each reply is.  The exchange with
its bytes refines the queue of the abstract connection. -/

variable {σ : Type} {allocates : Allocator} {serve : Hiredis.Server σ} {start : σ}
  {x y z : Hiredis.Exchange σ} {owners : List Nat}

/-- The call of `get_reply` that ends when an exchange comes from `x` to `y`, if one ends. -/
def getReplyEnded (x y : Hiredis.Exchange σ) : Except Fault (List QueueCall) :=
  if y.phase = .idle then
    match y.returned.drop x.returned.length with
    | [] => .ok [.getReply .failed]
    | reply :: _ => (outcomeOf reply).map fun outcome => [.getReply outcome]
  else .ok []

/-- The call that a move ends; each move comes with the client that makes it. -/
def callEnded (x y : Hiredis.Exchange σ) : Nat × Move → Except Fault (List QueueCall)
  | (client, .append _) => .ok [.append client]
  | (_, .getReply) => getReplyEnded x y
  | (_, .write _) => getReplyEnded x y
  | (_, .read _) => getReplyEnded x y
  | (_, .serve _) => .ok []

/-- The calls that end while the moves are made, and the exchange then. -/
def callsEnded (allocates : Allocator) (serve : Hiredis.Server σ) (x : Hiredis.Exchange σ) :
    List (Nat × Move) → Option (List QueueCall × Hiredis.Exchange σ)
  | [] => some ([], x)
  | move :: moves => do
      let y ← x.step allocates serve move.2
      let ended ← (callEnded x y move).toOption
      let (calls, z) ← callsEnded allocates serve y moves
      some (ended ++ calls, z)

/-- The client that a move appends a command for. -/
def appendedBy : Nat × Move → Option Nat
  | (client, .append _) => some client
  | (_, .getReply) => none
  | (_, .write _) => none
  | (_, .read _) => none
  | (_, .serve _) => none

/-- The queue that an exchange is, when these clients appended its commands. -/
def queueOf (x : Hiredis.Exchange σ) (owners : List Nat) : Connection :=
  ⟨owners.drop x.returned.length, x.context.err.isSome⟩

/-- The queue does the calls, and is then what the exchange has come to. -/
def Refines (x y : Hiredis.Exchange σ) (owners : List Nat) (calls : List QueueCall) : Prop :=
  ∃ reads, (queueOf x owners).calls calls = some (reads,
    queueOf y (owners ++ calls.filterMap QueueCall.client))

/-- Moves in two parts refine calls in two parts. -/
theorem Refines.trans {calls more : List QueueCall} (one : Refines x y owners calls)
    (two : Refines y z (owners ++ calls.filterMap QueueCall.client) more) :
    Refines x z owners (calls ++ more) := by
  obtain ⟨first, ran⟩ := one
  obtain ⟨second, behind⟩ := two
  refine ⟨first ++ second, ?_⟩
  rw [List.filterMap_append, ← List.append_assoc]
  exact Connection.calls_append ran behind

/-- A move that the callers do not see. -/
theorem refines_silent (returned : y.returned = x.returned)
    (err : y.context.err.isSome = x.context.err.isSome) :
    Refines x y owners [] := by
  refine ⟨[], ?_⟩
  rw [List.filterMap_nil, List.append_nil, queueOf, queueOf, returned, err]
  rfl

/-- A call that fails. -/
theorem refines_failed (returned : y.returned = x.returned) (err : y.context.err.isSome = true) :
    Refines x y owners [.getReply .failed] := by
  refine ⟨[], ?_⟩
  have nobody : [QueueCall.getReply .failed].filterMap QueueCall.client = [] := rfl
  rw [nobody, List.append_nil, queueOf, queueOf, returned, err]
  simp [Connection.calls, Connection.call, Connection.getReply]

/-- A call that returns a reply, where there is a command without one. -/
theorem refines_returned {reply : RedisReply} {outcome : Outcome} (good : outcome ≠ .failed)
    (working : x.context.err = none) (still : y.context.err = none)
    (returned : y.returned = x.returned ++ [reply]) (outstanding : x.returned.length < owners.length) :
    Refines x y owners [.getReply outcome] := by
  have first : owners.drop x.returned.length =
      owners[x.returned.length] :: owners.drop (x.returned.length + 1) :=
    List.drop_eq_getElem_cons outstanding
  have nobody : [QueueCall.getReply outcome].filterMap QueueCall.client = [] := rfl
  refine ⟨[owners[x.returned.length]], ?_⟩
  rw [nobody, List.append_nil, queueOf, queueOf, returned, working, still, first, List.length_append]
  simp [Connection.calls, Connection.call, Connection.getReply, good]

/-- A command that is appended. -/
theorem refines_append (client : Nat) (returned : y.returned = x.returned)
    (err : y.context.err = x.context.err)
    (most : x.returned.length ≤ owners.length) : Refines x y owners [.append client] := by
  refine ⟨[], ?_⟩
  have it : [QueueCall.append client].filterMap QueueCall.client = [client] := rfl
  rw [it, queueOf, queueOf, returned, err, List.drop_append_of_le_length most]
  rfl

/-! ### One move -/

/-- A connection with an error has no reply in its reader. -/
def Spent (allocates : Allocator) (x : Hiredis.Exchange σ) : Prop :=
  x.context.err.isSome = true → processItem allocates x.context.reader.rstack x.context.reader.unread = .more

/-- A reader that waits has no reply. -/
theorem emptied_of_waits {r : Reader} (waits : processItem allocates r.rstack r.unread = .more) :
    Emptied allocates r := by
  unfold Emptied Reader.getReply
  split
  · rfl
  · split
    · rfl
    · rw [Resumable.Recogniser.next_of_more waits]

/-- Every answer fits. -/
theorem fits_of_mem_answers (fits : AnswersFit allocates serve) {s : σ} {commands : List (List Bytes)}
    {reply : RedisReply} (member : reply ∈ answers serve s commands) : Fits allocates 8 reply := by
  induction commands generalizing s with
  | nil => cases member
  | cons argv commands ih =>
      rcases List.mem_cons.mp member with rfl | later
      · exact fits s argv
      · exact ih later

/-- Asking the reader returns the next reply or is not seen. -/
theorem queue_tryReader {served waiting : List (List Bytes)} {input : Bytes}
    (fits : AnswersFit allocates serve)
    (flow : Flow allocates serve start x served waiting input) (spent : Spent allocates x)
    (owned : owners.length = x.appended.length) {otherwise : Hiredis.Phase} (inside : otherwise ≠ .idle) :
    ∃ calls, getReplyEnded x (x.tryReader allocates otherwise) = .ok calls ∧
      Refines x (x.tryReader allocates otherwise) owners calls ∧ calls.filterMap QueueCall.client = [] ∧
      Spent allocates (x.tryReader allocates otherwise) := by
  have after := flow_tryReader fits flow otherwise
  have fine := reader_fine fits (accounts_getReply flow.accounts) flow.toClient
  rw [tryReader_eq fine otherwise] at after ⊢
  cases got : (x.context.reader.getReply allocates).1 with
  | none =>
      refine ⟨[], if_neg inside, refines_silent (List.append_nil _) rfl, rfl, fun _ => ?_⟩
      exact waits_of_emptied flow.accounts got fine
  | some reply =>
      have working : x.context.err = none := by
        cases err : x.context.err with
        | none => rfl
        | some e =>
            have emptied : Emptied allocates x.context.reader := emptied_of_waits (spent (by rw [err]; rfl))
            rw [Emptied, got] at emptied
            cases emptied
      have part : x.returned ++ [reply] <+: answers serve start x.appended := by
        have := after.returned fits
        rwa [got] at this
      have most := part.length_le
      rw [length_answers, List.length_append, List.length_singleton] at most
      obtain ⟨outcome, read, good⟩ := outcomeOf_of_fits
        (fits_of_mem_answers fits (part.mem (List.mem_append_right _ List.mem_cons_self)))
      refine ⟨[.getReply outcome], ?_, refines_returned good working working rfl (by omega), rfl, ?_⟩
      · simp [getReplyEnded, read, Except.map]
      · intro broken
        rw [working] at broken
        cases broken

/-- An error of the context stays. -/
theorem bufferWrite_keeps_err {c : Context} (failed : c.err.isSome = true) (result : WriteResult) :
    (c.bufferWrite result).1.err.isSome = true := by
  unfold Context.bufferWrite
  rw [if_pos failed]
  exact failed

/-- When reading fails, but not in the reader, the reader is as it was. -/
theorem bufferRead_failed {c : Context} {result : ReadResult} (working : c.err = none)
    (fine : (c.bufferRead result).reader.err = none) (failed : (c.bufferRead result).err.isSome = true) :
    (c.bufferRead result).reader = c.reader := by
  unfold Context.bufferRead at fine failed ⊢
  simp only [working, Option.isSome_none, Bool.false_eq_true, if_false] at fine failed ⊢
  cases result with
  | data block =>
      simp only at fine failed ⊢
      split at fine
      · next e err =>
          rw [err] at fine
          cases fine
      · simp_all
  | again | closed | failed => rfl

/-- A round of the first loop ends the call when it fails, and is not seen otherwise. -/
theorem queue_write (x : Hiredis.Exchange σ) (owners : List Nat) (result : WriteResult) :
    ∃ calls, getReplyEnded x (x.write result) = .ok calls ∧ Refines x (x.write result) owners calls ∧
      calls.filterMap QueueCall.client = [] := by
  cases err : (x.context.bufferWrite result).1.err.isSome with
  | true =>
      refine ⟨[.getReply .failed], ?_, refines_failed rfl err, rfl⟩
      simp [getReplyEnded, Exchange.write, err]
  | false =>
      have working : x.context.err.isSome = false := by
        cases before : x.context.err.isSome with
        | false => rfl
        | true => exact absurd (bufferWrite_keeps_err before result) (by rw [err]; decide)
      refine ⟨[], ?_, refines_silent rfl (err.trans working.symm), rfl⟩
      simp only [getReplyEnded, Exchange.write, err, Bool.false_eq_true, if_false]
      rw [if_neg]
      split <;> decide

/-- Every move is calls of the queue. -/
theorem queue_step (fits : AnswersFit allocates serve) (here : InOrder allocates serve start x)
    (spent : Spent allocates x) (owned : owners.length = x.appended.length) (client : Nat) {move : Move}
    (short : ∀ argv, move = .append argv → commandLength argv < 2 ^ 31)
    (step : x.step allocates serve move = some y) :
    ∃ calls, callEnded x y (client, move) = .ok calls ∧ Refines x y owners calls ∧
      calls.filterMap QueueCall.client = [(client, move)].filterMap appendedBy ∧ Spent allocates y := by
  obtain ⟨⟨served, waiting, input, flow⟩, waits, flushed⟩ := here
  cases move with
  | append argv =>
      rw [Exchange.step, appendCommandArgv_eq (short argv rfl)] at step
      split at step
      · cases step
        have most := (flow.returned fits).length_le
        rw [length_answers, ← owned] at most
        exact ⟨[.append client], rfl, refines_append client rfl rfl most, rfl, spent⟩
      · cases step
  | getReply =>
      rw [Exchange.step] at step
      split at step
      · cases step
        exact queue_tryReader fits flow spent owned (by decide)
      · cases step
  | write result =>
      rw [Exchange.step] at step
      split at step
      · next flushing =>
          cases step
          obtain ⟨calls, ended, refines, nobody⟩ := queue_write x owners result
          refine ⟨calls, ended, refines, nobody, fun _ => ?_⟩
          simp only [Exchange.write, (bufferWrite_conserves x.context result).2]
          exact waits (by rw [flushing]; decide)
      · cases step
  | read result =>
      rw [Exchange.step] at step
      split at step
      · next allowed =>
          cases step
          obtain ⟨working, -⟩ := flushed allowed.1
          have fed' := flow_bufferRead flow working allowed.2
          simp only [callEnded, Exchange.read]
          split
          · next failed =>
              refine ⟨[.getReply .failed], by simp [getReplyEnded], refines_failed rfl failed, rfl,
                fun _ => ?_⟩
              simp only [bufferRead_failed working (reader_fine fits fed'.accounts fed'.toClient) failed]
              exact waits (by rw [allowed.1]; decide)
          · next fine =>
              obtain ⟨calls, ended, ⟨reads, ran⟩, nobody, kept⟩ := queue_tryReader fits fed'
                (fun broken => absurd broken fine) owned (by decide : Hiredis.Phase.reading ≠ .idle)
              refine ⟨calls, ended, ⟨reads, ?_⟩, nobody, kept⟩
              rw [← ran, queueOf, queueOf, working]
              simp [fine]
      · cases step
  | serve argv =>
      rw [Exchange.step] at step
      split at step
      · cases step
        exact ⟨[], rfl, refines_silent rfl rfl, rfl, spent⟩
      · cases step

/-! ### Runs -/

/-- Only appending appends. -/
theorem length_appended_of_step (client : Nat) {move : Move} (step : x.step allocates serve move = some y) :
    y.appended.length = x.appended.length + ([(client, move)].filterMap appendedBy).length := by
  cases move with
  | append argv =>
      rw [Exchange.step] at step
      split at step
      · obtain ⟨context, -, rfl⟩ := Option.map_eq_some_iff.mp step
        exact List.length_append
      · cases step
  | getReply =>
      rw [Exchange.step] at step
      split at step <;> cases step
      exact congrArg List.length (appended_tryReader x .flushing)
  | write result | read result | serve argv =>
      exact congrArg List.length (appended_of_step (by trivial) step)

/-- Every run is calls of the queue, one move after another. -/
theorem queue_run (fits : AnswersFit allocates serve) (here : InOrder allocates serve start x)
    (spent : Spent allocates x) (owned : owners.length = x.appended.length) {moves : List (Nat × Move)}
    (short : ∀ argv, .append argv ∈ moves.map Prod.snd → commandLength argv < 2 ^ 31)
    (run : x.run allocates serve (moves.map Prod.snd) = some y) :
    ∃ calls, callsEnded allocates serve x moves = some (calls, y) ∧ Refines x y owners calls ∧
      calls.filterMap QueueCall.client = moves.filterMap appendedBy := by
  induction moves generalizing x owners with
  | nil =>
      cases run
      exact ⟨[], rfl, refines_silent rfl rfl, rfl⟩
  | cons move moves ih =>
      obtain ⟨client, move⟩ := move
      rw [List.map_cons, Exchange.run] at run
      obtain ⟨next, step, rest⟩ := Option.bind_eq_some_iff.mp run
      have small : ∀ argv, move = .append argv → commandLength argv < 2 ^ 31 :=
        fun argv same => short argv (by rw [List.map_cons, same]; exact List.mem_cons_self)
      obtain ⟨calls, ended, refines, clients, still⟩ := queue_step fits here spent owned client small step
      have longer : (owners ++ calls.filterMap QueueCall.client).length = next.appended.length := by
        rw [List.length_append, owned, clients, length_appended_of_step client step]
      obtain ⟨more, others, last, later⟩ := ih (inOrder_step fits here small step) still longer
        (fun argv member => short argv (by rw [List.map_cons]; exact List.mem_cons_of_mem _ member)) rest
      refine ⟨calls ++ more, ?_, refines.trans last, ?_⟩
      · simp only [callsEnded, step, ended, others, Except.toOption, Option.bind_eq_bind, Option.bind_some]
      · rw [List.filterMap_append, clients, later, ← List.filterMap_append, List.singleton_append]

/-- What a call does to the clients of the queue. -/
theorem call_conserves {conn left : Connection} {call : QueueCall} {read : Option Nat}
    (ran : conn.call call = some (read, left)) :
    read.toList ++ left.outstanding = conn.outstanding ++ call.client.toList := by
  cases call with
  | append client =>
      cases ran
      rfl
  | getReply outcome =>
      simp only [Connection.call, Connection.getReply] at ran
      split at ran
      · cases ran
        exact (List.append_nil _).symm
      · split at ran
        · cases ran
        · next first rest outstanding =>
            cases ran
            rw [outstanding]
            exact (List.append_nil _).symm

/-- The clients that are read and those that are left are those there were and those that appended. -/
theorem calls_conserve {conn left : Connection} {calls : List QueueCall} {reads : List Nat}
    (ran : conn.calls calls = some (reads, left)) :
    reads ++ left.outstanding = conn.outstanding ++ calls.filterMap QueueCall.client := by
  induction calls generalizing conn reads with
  | nil =>
      cases ran
      simp
  | cons call calls ih =>
      simp only [Connection.calls, Option.bind_eq_bind, Option.bind_eq_some_iff] at ran
      obtain ⟨⟨read, next⟩, here, ⟨others, behind⟩, rest, same⟩ := ran
      cases same
      rw [List.append_assoc, ih rest, ← List.append_assoc, call_conserves here, List.append_assoc]
      cases call <;> rfl

/-- Whatever the order of the moves, the callers of a connection see the queue: the calls that end are calls
    that the queue does, each reply is read for the client whose command is the first one without a reply,
    and what the queue has outstanding are the clients of the commands whose answers were not returned. -/
theorem connection_refines_queue (fits : AnswersFit allocates serve) (start : σ) {moves : List (Nat × Move)}
    (short : ∀ argv, .append argv ∈ moves.map Prod.snd → commandLength argv < 2 ^ 31)
    (run : Exchange.run allocates serve { server := start } (moves.map Prod.snd) = some y) :
    ∃ calls, callsEnded allocates serve { server := start } moves = some (calls, y) ∧
      ({} : Connection).calls calls =
        some ((moves.filterMap appendedBy).take y.returned.length,
          queueOf y (moves.filterMap appendedBy)) := by
  have nobody : ([] : List Nat).length = ({ server := start } : Hiredis.Exchange σ).appended.length := rfl
  obtain ⟨calls, ended, ⟨reads, ran⟩, clients⟩ := queue_run fits (inOrder_start start) nofun nobody short run
  rw [List.nil_append, clients] at ran
  have all := calls_conserve ran
  rw [clients] at all
  have reads_ : reads = (moves.filterMap appendedBy).take y.returned.length := by
    apply List.append_cancel_right
    rw [List.take_append_drop]
    exact all
  exact ⟨calls, ended, by rw [← reads_]; exact ran⟩

/-- Two clients whose commands are in one buffer; the second one reads both answers. -/
def pingsOfTwo : List (Nat × Move) := (twoPings.take 1).map (Prod.mk 4) ++ (twoPings.drop 1).map (Prod.mk 7)

theorem connection_refines_queue_pings : ∃ y calls,
    callsEnded (fun _ => true) turns { server := false } pingsOfTwo = some (calls, y) ∧
      ({} : Connection).calls calls =
        some ((pingsOfTwo.filterMap appendedBy).take y.returned.length,
          queueOf y (pingsOfTwo.filterMap appendedBy)) := by
  have moves : (Exchange.run (fun _ => true) turns { server := false } (pingsOfTwo.map Prod.snd)).isSome =
      true := by
    decide +kernel
  obtain ⟨y, run⟩ := Option.isSome_iff_exists.mp moves
  have both : pingsOfTwo.map Prod.snd = twoPings := rfl
  exact ⟨y, connection_refines_queue turns_fit false
    (fun argv member => short_twoPings argv (by rw [← both]; exact member)) run⟩

example : (callsEnded (fun _ => true) turns { server := false } pingsOfTwo).map Prod.fst =
    some [.append 4, .append 7, .getReply .answered, .getReply .answered] := by
  decide +kernel

end Waspp.Redis3m
