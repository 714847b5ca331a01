/-
Module: Waspp.Proofs.ReplyCalls
Layer: Proofs
Purpose: What a program that uses the reply reader gets.  It feeds blocks and asks for replies in any order
  of calls (`Call`); what it has got, and what the reader still holds, together are what draining
  everything that was fed gives (`Accounts`, which every call keeps).  So the replies and the error do not
  depend on the blocks or on the order of the calls; the replies are those that the grammar gives the
  bytes, and replies written as a server writes them come back as they are.
Imports: Waspp.Foundation.Numerals, Waspp.Proofs.ReplyTexts
Trusted boundary: none (fully proved)
Main exports: Call, Reader.calls, fed, Accounts, encode, same_replies, got_iff_lenient, got_iff_texts,
  got_written
Open obligations: none
-/
import Waspp.Foundation.Numerals
import Waspp.Proofs.ReplyTexts

namespace Waspp.Hiredis

open CString Resumable

/-! ### Calls -/

/-- A call of the reader's interface. -/
inductive Call where
  | feed (buf : Bytes)
  | getReply
deriving DecidableEq, Repr

/-- The reply that a call gives, if any, and the reader it leaves. -/
def Reader.call (allocates : Allocator) (r : Reader) : Call → Option RedisReply × Reader
  | .feed buf => (none, r.feed buf)
  | .getReply => r.getReply allocates

/-- The replies that calls give. -/
def Reader.calls (allocates : Allocator) (r : Reader) : List Call → List RedisReply × Reader
  | [] => ([], r)
  | call :: calls =>
      let (reply, next) := r.call allocates call
      let (replies, last) := Reader.calls allocates next calls
      (reply.toList ++ replies, last)

/-- The bytes that calls feed. -/
def fed : List Call → Bytes
  | [] => []
  | .feed buf :: calls => buf ++ fed calls
  | .getReply :: calls => fed calls

variable {allocates : Allocator}

/-- Calls in two parts. -/
theorem calls_append (r : Reader) (one two : List Call) :
    r.calls allocates (one ++ two) =
      ((r.calls allocates one).1 ++ ((r.calls allocates one).2.calls allocates two).1,
      ((r.calls allocates one).2.calls allocates two).2) := by
  induction one generalizing r with
  | nil => rfl
  | cons call one ih => simp only [List.cons_append, Reader.calls, ih, List.append_assoc]

/-- What is fed in two parts. -/
theorem fed_append (one two : List Call) : fed (one ++ two) = fed one ++ fed two := by
  induction one with
  | nil => rfl
  | cons call one ih => cases call <;> simp [fed, ih]

/-! ### What a reader holds

`Accounts` balances a reader: the texts of the replies that were got, with what is left unread, are the
bytes that were fed.  Discarding what was read changes the buffer and not the balance. -/

/-- The replies that were got and the reader account for the bytes that were fed. -/
structure Accounts (allocates : Allocator) (bytes : Bytes) (replies : List RedisReply) (r : Reader) :
    Prop where
  working : r.err = none →
    (recogniser allocates).drain [] bytes = ((recogniser allocates).drain r.rstack r.unread).after replies
  failed : ∀ e, r.err = some e → (recogniser allocates).drain [] bytes = ⟨replies, .error e⟩
  cursor : r.pos ≤ r.buf.length
  /-- With an empty buffer the reader waits. -/
  empty : r.buf = [] → processItem allocates r.rstack [] = .more

/-- A new reader holds nothing. -/
theorem accounts_start : Accounts allocates [] [] {} where
  working := fun _ => rfl
  failed := fun _ failed => by cases failed
  cursor := Nat.le_refl 0
  empty := fun _ => rfl

@[simp] theorem unread_discard (r : Reader) : r.discard.unread = r.unread := by
  unfold Reader.discard
  split <;> simp [Reader.unread]

@[simp] theorem err_discard (r : Reader) : r.discard.err = r.err := by
  unfold Reader.discard
  split <;> rfl

@[simp] theorem rstack_discard (r : Reader) : r.discard.rstack = r.rstack := by
  unfold Reader.discard
  split <;> rfl

/-- The position stays in the buffer. -/
theorem cursor_discard {r : Reader} (cursor : r.pos ≤ r.buf.length) :
    r.discard.pos ≤ r.discard.buf.length := by
  unfold Reader.discard
  split
  · exact Nat.zero_le _
  · exact cursor

/-- An empty buffer has nothing unread. -/
theorem unread_of_empty {r : Reader} (empty : r.buf = []) : r.unread = [] := by
  rw [Reader.unread, empty, List.drop_nil]

/-- Moving on leaves what lies behind. -/
theorem unread_moveTo {r : Reader} {rest : Bytes} (suffix : rest <:+ r.unread) (rstack : List ReadTask) :
    (r.moveTo rstack rest).unread = rest :=
  (List.suffix_iff_eq_drop.mp (suffix.trans (List.drop_suffix _ _))).symm

/-- The stack is empty when a reply is emitted. -/
theorem emits_idle {rstack next : List ReadTask} {text : Bytes} {count : Nat} {reply : RedisReply}
    (goes : processItem allocates rstack text = .go next count (some reply)) : next = [] := by
  have task : ∃ cur below, processTask allocates cur below text = .go next count (some reply) := by
    cases rstack with
    | nil => exact ⟨.root, [], goes⟩
    | cons cur below => exact ⟨cur, below, goes⟩
  obtain ⟨cur, below, goes⟩ := task
  obtain ⟨type, obj, -, -, -, moves⟩ := item_of_emits goes
  exact (climbs_of_emits allocates moves).1

/-- Where the loop stops without an error, the reader accounts for the bytes. -/
theorem accounts_moveTo {bytes rest : Bytes} {replies : List RedisReply} {r : Reader}
    {rstack : List ReadTask} (fine : r.err = none) (suffix : rest <:+ r.unread)
    (drained : (recogniser allocates).drain [] bytes =
      ((recogniser allocates).drain rstack rest).after replies)
    (waits : rest = [] → processItem allocates rstack [] = .more) :
    Accounts allocates bytes replies (r.moveTo rstack rest).discard where
  working := fun _ => by rw [unread_discard, rstack_discard, unread_moveTo suffix, drained, Reader.moveTo]
  failed := fun e failed => by
    rw [err_discard, Reader.moveTo, fine] at failed
    cases failed
  cursor := cursor_discard (Nat.sub_le _ _)
  empty := fun empty => by
    have none_left := unread_of_empty empty
    rw [unread_discard, unread_moveTo suffix] at none_left
    rw [rstack_discard]
    exact waits none_left

/-- Feeding adds to what is unread. -/
theorem accounts_feed {bytes : Bytes} {replies : List RedisReply} {r : Reader}
    (accounts : Accounts allocates bytes replies r) (buf : Bytes) :
    Accounts allocates (bytes ++ buf) replies (r.feed buf) := by
  obtain ⟨err, old, pos, rstack⟩ := r
  obtain ⟨working, failed, cursor, empty⟩ := accounts
  cases err with
  | some e =>
      refine ⟨nofun, fun e' same => ?_, cursor, empty⟩
      rw [Recogniser.drain_append, failed e' same, Drained.andThen_error]
  | none =>
      refine ⟨fun _ => ?_, nofun, ?_, fun none_left => empty (List.append_eq_nil_iff.mp none_left).1⟩
      · have unread : (old ++ buf).drop pos = old.drop pos ++ buf := List.drop_append_of_le_length cursor
        rw [Recogniser.drain_append, working rfl, Drained.after_andThen, ← Recogniser.drain_append]
        exact congrArg _ (congrArg _ unread.symm)
      · exact Nat.le_trans cursor (by simp [Reader.feed])

/-- A reply is got from what was unread. -/
theorem accounts_getReply {bytes : Bytes} {replies : List RedisReply} {r : Reader}
    (accounts : Accounts allocates bytes replies r) :
    Accounts allocates bytes (replies ++ (r.getReply allocates).1.toList) (r.getReply allocates).2 := by
  have unchanged : Accounts allocates bytes (replies ++ (none : Option RedisReply).toList) r := by
    rwa [Option.toList_none, List.append_nil]
  unfold Reader.getReply
  split
  · exact unchanged
  · next fine =>
      have status : r.err = none := by simpa using fine
      split
      · exact unchanged
      · have drained := accounts.working status
        rw [Recogniser.drain_eq_next _ r.rstack] at drained
        cases taken : (recogniser allocates).next r.rstack r.unread with
        | waits rstack rest =>
            rw [taken] at drained
            obtain ⟨waits, suffix⟩ := Recogniser.step_of_waits taken
            simp only [Option.toList_none, List.append_nil]
            apply accounts_moveTo status suffix
            · rw [drained, Recogniser.drain_of_more waits]
              rfl
            · rintro rfl
              exact waits
        | fails e =>
            rw [taken] at drained
            simp only [Option.toList_none, List.append_nil]
            refine ⟨nofun, fun e' failed => ?_, Nat.le_refl _, fun _ => rfl⟩
            cases failed
            rw [drained]
            simp [Recogniser.Next.drained, Drained.after]
        | emits reply rstack rest =>
            rw [taken] at drained
            obtain ⟨s, u, n, last, rfl, suffix⟩ := Recogniser.step_of_emits taken
            obtain rfl := emits_idle last
            apply accounts_moveTo status ((List.drop_suffix n u).trans suffix)
            · rw [drained, Recogniser.Next.drained, Drained.after_after]
              rfl
            · exact fun _ => rfl

/-- Every call keeps the accounts. -/
theorem accounts_call {bytes : Bytes} {replies : List RedisReply} {r : Reader}
    (accounts : Accounts allocates bytes replies r) (call : Call) :
    Accounts allocates (bytes ++ fed [call]) (replies ++ (r.call allocates call).1.toList)
      (r.call allocates call).2 := by
  cases call with
  | feed buf => simpa [fed, Reader.call] using accounts_feed accounts buf
  | getReply => simpa [fed, Reader.call] using accounts_getReply accounts

/-- Calls keep the accounts. -/
theorem accounts_calls {bytes : Bytes} {replies : List RedisReply} {r : Reader}
    (accounts : Accounts allocates bytes replies r) (calls : List Call) :
    Accounts allocates (bytes ++ fed calls) (replies ++ (r.calls allocates calls).1)
      (r.calls allocates calls).2 := by
  induction calls generalizing bytes replies r with
  | nil => simpa [fed, Reader.calls] using accounts
  | cons call calls ih =>
      have next := ih (accounts_call accounts call)
      have cut : fed (call :: calls) = fed [call] ++ fed calls := fed_append [call] calls
      rw [cut, Reader.calls]
      simpa only [List.append_assoc] using next

/-! ### What is got

A reader that has been asked until nothing came has drained its bytes, however they were cut. -/

/-- What a new reader gives in calls. -/
def got (allocates : Allocator) (calls : List Call) : List RedisReply := (Reader.calls allocates {} calls).1

/-- The reader then. -/
def readerAfter (allocates : Allocator) (calls : List Call) : Reader := (Reader.calls allocates {} calls).2

/-- There is no other reply now. -/
def Emptied (allocates : Allocator) (r : Reader) : Prop := (r.getReply allocates).1 = none

instance (r : Reader) : Decidable (Emptied allocates r) :=
  decidable_of_iff ((r.getReply allocates).1.isNone = true) (by rw [Emptied, Option.isNone_iff_eq_none])

/-- The error of the reader, or the tasks it is at and the bytes that wait. -/
def Reader.left (r : Reader) : Except ReadError (List ReadTask × Bytes) :=
  match r.err with
  | some e => .error e
  | none => .ok (r.rstack, r.unread)

/-- What a call for a reply leaves that gives none. -/
def leftAfter (allocates : Allocator) (calls : List Call) : Except ReadError (List ReadTask × Bytes) :=
  ((readerAfter allocates calls).getReply allocates).2.left

/-- A reader that gives no reply has an error or waits. -/
theorem waits_of_emptied {bytes : Bytes} {replies : List RedisReply} {r : Reader}
    (accounts : Accounts allocates bytes replies r) (emptied : Emptied allocates r)
    (fine : (r.getReply allocates).2.err = none) :
    processItem allocates (r.getReply allocates).2.rstack (r.getReply allocates).2.unread = .more := by
  unfold Emptied at emptied
  unfold Reader.getReply at emptied fine ⊢
  split at emptied
  · simp_all
  · split at emptied
    · next empty =>
        simp only [*, if_true] at fine ⊢
        simp only [Bool.false_eq_true, if_false]
        rw [unread_of_empty empty]
        exact accounts.empty empty
    · cases taken : (recogniser allocates).next r.rstack r.unread with
      | waits rstack rest =>
          simp only [*, Bool.false_eq_true, if_false]
          rw [rstack_discard, unread_discard, unread_moveTo (Recogniser.step_of_waits taken).2]
          exact (Recogniser.step_of_waits taken).1
      | fails e => simp_all [Reader.setError]
      | emits reply rstack rest => simp_all

/-- What an emptied reader has given is what its bytes give. -/
theorem drain_of_emptied {calls : List Call} (emptied : Emptied allocates (readerAfter allocates calls)) :
    (recogniser allocates).drain [] (fed calls) = ⟨got allocates calls, leftAfter allocates calls⟩ := by
  have accounts : Accounts allocates (fed calls) (got allocates calls) (readerAfter allocates calls) :=
    accounts_calls accounts_start calls
  have last := accounts_getReply accounts
  rw [emptied, Option.toList_none, List.append_nil] at last
  unfold leftAfter Reader.left
  split
  · exact last.failed _ ‹_›
  · next fine =>
      have waits := waits_of_emptied accounts emptied fine
      rw [last.working fine, Recogniser.drain_of_more waits, Drained.after, List.append_nil]

/-- What was got is a part of what draining the bytes gives. -/
theorem prefix_drain (allocates : Allocator) (calls : List Call) :
    got allocates calls <+: ((recogniser allocates).drain [] (fed calls)).items := by
  have accounts : Accounts allocates (fed calls) (got allocates calls) (readerAfter allocates calls) :=
    accounts_calls accounts_start calls
  cases status : (readerAfter allocates calls).err with
  | none =>
      rw [accounts.working status]
      exact List.prefix_append ..
  | some e => rw [accounts.failed e status]

/-- The replies depend on the bytes that were fed only: not on the blocks in which they were fed, nor on
    when the program asked for a reply.  Who asked until there was none got all that anyone got, and was
    left with the same. -/
theorem same_replies (one two : List Call) (same : fed one = fed two)
    (emptied : Emptied allocates (readerAfter allocates one)) :
    got allocates two <+: got allocates one ∧
      (Emptied allocates (readerAfter allocates two) →
        got allocates two = got allocates one ∧ leftAfter allocates two = leftAfter allocates one) := by
  have whole := drain_of_emptied emptied
  constructor
  · have some' := prefix_drain allocates two
    rwa [← same, whole] at some'
  · intro emptied'
    have both := drain_of_emptied emptied'
    rw [← same, whole, Drained.mk.injEq] at both
    exact ⟨both.1.symm, both.2.symm⟩

/-- One reply and a part of another, in one block and in three. -/
theorem same_replies_cut :
    got (fun _ => true) [.feed (bytes "+O"), .getReply, .feed (bytes "K\r\n"), .feed (bytes ":1"),
      .getReply] =
      got (fun _ => true) [.feed (bytes "+OK\r\n:1"), .getReply] :=
  ((same_replies [.feed (bytes "+OK\r\n:1"), .getReply]
    [.feed (bytes "+O"), .getReply, .feed (bytes "K\r\n"), .feed (bytes ":1"),
      .getReply] (by decide) (by decide)).2
    (by decide)).1

theorem got_iff_lenient {calls : List Call} (emptied : Emptied allocates (readerAfter allocates calls))
    (replies : List RedisReply) : got allocates calls = replies ∧ leftAfter allocates calls = .ok ([], []) ↔
      ReplyTexts lenient allocates 8 replies (fed calls) := by
  rw [← drain_eq_iff, drain_of_emptied emptied, Drained.mk.injEq]

/-- The decimal text of an integer. -/
def numeral (z : Int) : Bytes := if z < 0 then '-'.toUInt8 :: toDecimal z.natAbs else toDecimal z.natAbs

mutual

/-- A reply as a server writes it. -/
def encode : RedisReply → Bytes
  | .string str => '$'.toUInt8 :: (toDecimal str.length ++ crlf ++ (str ++ crlf))
  | .array _ element => '*'.toUInt8 :: (toDecimal element.length ++ crlf ++ encodeAll element)
  | .integer value => ':'.toUInt8 :: (numeral value ++ crlf)
  | .nil => '$'.toUInt8 :: (numeral (-1) ++ crlf)
  | .status str => '+'.toUInt8 :: (str ++ crlf)
  | .error str => '-'.toUInt8 :: (str ++ crlf)

/-- Replies as a server writes them. -/
def encodeAll : List RedisReply → Bytes
  | [] => []
  | reply :: replies => encode reply ++ encodeAll replies

end

mutual

/-- A reply that the reader has room for, with arrays nested at most so deep. -/
def Fits (allocates : Allocator) : Nat → RedisReply → Prop
  | _, .string str => str.length + 2 < 2 ^ 31 ∧ allocates (str.length + 1) = true
  | 0, .array _ _ => False
  | depth + 1, .array elements element => elements = element.length ∧ element.length < 2 ^ 31 ∧
      allocates (element.length * 8) = true ∧ FitAll allocates depth element
  | _, .integer value => -2 ^ 63 < value ∧ value < 2 ^ 63
  | _, .nil => True
  | _, .status str => Unbroken str ∧ allocates (str.length + 1) = true
  | _, .error str => Unbroken str ∧ allocates (str.length + 1) = true

/-- Replies that the reader has room for. -/
def FitAll (allocates : Allocator) : Nat → List RedisReply → Prop
  | _, [] => True
  | depth, reply :: replies => Fits allocates depth reply ∧ FitAll allocates depth replies

end

/-- A written integer is a number of the protocol. -/
theorem signedNumeral_numeral (z : Int) : SignedNumeral (numeral z) z := by
  unfold numeral
  split
  · have number := SignedNumeral.signed .minus (numeral_toDecimal z.natAbs)
    rwa [show (-1 : Int) * z.natAbs = z by omega] at number
  · have number := SignedNumeral.signed .none (numeral_toDecimal z.natAbs)
    rwa [show (1 : Int) * z.natAbs = z by omega] at number

/-- And a written length is a size. -/
theorem size_toDecimal {n : Nat} (fits : n < 2 ^ 31) : lenient.size (toDecimal n) n :=
  protocol_within.size (Or.inl ⟨n, numeral_toDecimal n, fits, rfl⟩)

/-- A line without a carriage return has no line break. -/
theorem plain_of_not_mem {line : Bytes} (plain : '\r'.toUInt8 ∉ line) : lenient.line line := by
  rintro ⟨front, behind, rfl⟩
  exact plain (by simp [crlf])

/-- A printed number is such a line. -/
theorem plain_toDecimal (n : Nat) : lenient.line (toDecimal n) :=
  plain_of_not_mem fun member => by
    have digit := isdigit_of_mem_toDecimal member
    revert digit
    decide

theorem plain_numeral (z : Int) : lenient.line (numeral z) := by
  apply plain_of_not_mem
  intro member
  unfold numeral at member
  split at member
  · rcases List.mem_cons.mp member with cr | member
    · revert cr
      decide
    · have digit := isdigit_of_mem_toDecimal member
      revert digit
      decide
  · have digit := isdigit_of_mem_toDecimal member
    revert digit
    decide

mutual

/-- A written reply is a text of the reply. -/
theorem texts_encode : ∀ {depth : Nat} {reply : RedisReply}, Fits allocates depth reply →
    ∀ {replies : List RedisReply} {rest : Bytes}, ReplyTexts lenient allocates depth replies rest →
      ReplyTexts lenient allocates depth (reply :: replies) (encode reply ++ rest)
  | depth, .string str, fits, replies, rest, others => by
      rw [Fits] at fits
      have short : str.length < 2 ^ 31 := by omega
      have item : Item lenient allocates .string (toDecimal str.length ++ crlf ++ (str ++ crlf))
          (.inl (.string str)) :=
        .string (plain_toDecimal str.length) (size_toDecimal short) fits.1 rfl fits.2
      exact .object (by simp) item others
  | 0, .array _ _, fits, _, _, _ => by
      rw [Fits] at fits
      exact fits.elim
  | depth + 1, .array elements element, fits, replies, rest, others => by
      rw [Fits] at fits
      obtain ⟨rfl, short, room, inside⟩ := fits
      have number := size_toDecimal short
      cases element with
      | nil =>
          have item : Item lenient allocates .array (toDecimal 0 ++ crlf) (.inl (.array 0 [])) :=
            .noElements (plain_toDecimal 0) number ⟨by decide, by decide⟩
          exact .object (fun _ => Nat.succ_ne_zero depth) item others
      | cons first element =>
          have item := Item.elements (plain_toDecimal _) number (Nat.succ_pos _) room
          have whole := ReplyTexts.elements item (texts_encodeAll inside) others
          rw [encode, List.cons_append, List.append_assoc]
          exact whole
  | depth, .integer value, fits, replies, rest, others => by
      rw [Fits] at fits
      have item : Item lenient allocates .integer (numeral value ++ crlf) (.inl (.integer value)) :=
        .integer (plain_numeral value) (.numeral (signedNumeral_numeral value) (by omega))
      exact .object (by simp) item others
  | depth, .nil, fits, replies, rest, others => by
      have item : Item lenient allocates .string (numeral (-1) ++ crlf) (.inl .nil) :=
        .nilString (plain_numeral (-1)) (protocol_within.size (Or.inr ⟨rfl, rfl⟩)) (Int.negSucc_lt_zero 0)
      exact .object (by simp) item others
  | depth, .status str, fits, replies, rest, others => by
      rw [Fits] at fits
      exact .object (by simp) (.status (unbroken_iff.mp fits.1) fits.2) others
  | depth, .error str, fits, replies, rest, others => by
      rw [Fits] at fits
      exact .object (by simp) (.error (unbroken_iff.mp fits.1) fits.2) others

/-- Written replies are a text of the replies. -/
theorem texts_encodeAll : ∀ {depth : Nat} {replies : List RedisReply}, FitAll allocates depth replies →
    ReplyTexts lenient allocates depth replies (encodeAll replies)
  | _, [], _ => .nil
  | depth, reply :: replies, fits => by
      rw [FitAll] at fits
      exact texts_encode fits.1 (texts_encodeAll fits.2)

end

/-- Replies that the reader has room for, written one after another and fed in any blocks, come back as they
    are, and nothing is left. -/
theorem got_written {calls : List Call} (replies : List RedisReply) (written : fed calls = encodeAll replies)
    (fits : FitAll allocates 8 replies) (emptied : Emptied allocates (readerAfter allocates calls)) :
    got allocates calls = replies ∧ leftAfter allocates calls = .ok ([], []) := by
  rw [got_iff_lenient emptied, written]
  exact texts_encodeAll fits

/-- The replies to three commands, cut within the second one. -/
theorem got_written_cut :
    got (fun _ => true) [.feed (bytes "+OK\r\n*2\r\n$3\r\na\r"), .getReply, .getReply,
      .feed (bytes "\n\r\n:-7\r\n$-1\r\n"), .getReply, .getReply, .getReply] =
      [.status (bytes "OK"), .array 2 [.string (bytes "a\r\n"), .integer (-7)], .nil] :=
  (got_written [.status (bytes "OK"), .array 2 [.string (bytes "a\r\n"), .integer (-7)], .nil] (by decide)
    (by simp [FitAll, Fits, Unbroken]; decide) (by decide)).1

end Waspp.Hiredis
