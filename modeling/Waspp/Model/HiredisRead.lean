/-
Module: Waspp.Model.HiredisRead
Layer: Model
Purpose: The reply reader of hiredis.  A reader holds a buffer with a cursor and a stack of tasks, the
  innermost first; each step reads the type byte of an item, or the whole item, or waits for more bytes.  An
  array is put into its parent when its last element is there, and a reply is emitted when the stack is
  empty.  A `long` has 32 bits, as on Windows, for which the repository keeps this copy of hiredis.
Imports: Waspp.Foundation.CString, Waspp.Foundation.Resumable
Trusted boundary: human-reviewed translation of read.c and of the default reply objects of hiredis.c
Main exports: RedisReply, ReadTask, Reader, processItem, recogniser, Reader.feed, Reader.getReply
Open obligations: none
-/
import Waspp.Foundation.CString
import Waspp.Foundation.Resumable

namespace Waspp.Hiredis

open CString Resumable

/-! ### Replies and errors -/

/-- A `redisReply`.  Of an array, `elements` is its field and `element` what the field `element` points to.
    -/
inductive RedisReply where
  | string (str : Bytes)
  | array (elements : Nat) (element : List RedisReply)
  | integer (value : Int)
  | nil
  | status (str : Bytes)
  | error (str : Bytes)
deriving Repr

/-- What stops a reader. -/
inductive ReadError where
  /-- `REDIS_ERR_PROTOCOL`. -/
  | protocol (errstr : Bytes)
  /-- `REDIS_ERR_OOM`. -/
  | oom
  /-- Not an error of the reader: the language leaves undefined what it does. -/
  | undefinedBehaviour
deriving DecidableEq, Repr

/-- Whether `malloc` or `calloc` gives that many bytes. -/
abbrev Allocator := Nat → Bool

/-- `isprint` in the "C" locale. -/
def isprint (byte : UInt8) : Bool := 32 ≤ byte && byte < 127

/-- A digit of `%x`. -/
def hexDigit (n : Nat) : UInt8 := if n < 10 then UInt8.ofNat (48 + n) else UInt8.ofNat (87 + n)

/-- `chrtos`. -/
def chrtos (byte : UInt8) : Bytes :=
  if byte = '\\'.toUInt8 ∨ byte = '"'.toUInt8 then ['"'.toUInt8, '\\'.toUInt8, byte, '"'.toUInt8]
  else if byte = '\n'.toUInt8 then bytes "\"\\n\""
  else if byte = '\r'.toUInt8 then bytes "\"\\r\""
  else if byte = '\t'.toUInt8 then bytes "\"\\t\""
  else if byte = 7 then bytes "\"\\a\""
  else if byte = 8 then bytes "\"\\b\""
  else if isprint byte then ['"'.toUInt8, byte, '"'.toUInt8]
  else bytes "\"\\x" ++ [hexDigit (byte.toNat / 16), hexDigit (byte.toNat % 16), '"'.toUInt8]

/-- `__redisReaderSetErrorProtocolByte`. -/
def protocolByteError (byte : UInt8) : ReadError :=
  .protocol (bytes "Protocol error, got " ++ chrtos byte ++ bytes " as reply type byte")

/-- The error of `processMultiBulkItem` when there is no task left. -/
def nestedError : ReadError := .protocol (bytes "No support for nested multi bulk replies with depth > 7")

/-! ### Lines and numbers -/

/-- `seekNewline`: the place of the first CR LF. -/
def seekNewline : Bytes → Option Nat
  | [] => none
  | c :: s => if c = '\r'.toUInt8 ∧ s.head? = some '\n'.toUInt8 then some 0 else (seekNewline s).map (· + 1)

/-- The loop of `readLongLong`; `none` when the `long long` overflows or the text ends. -/
def readDigits (mult : Int) : Nat → Bytes → Option Int
  | _, [] => none
  | v, c :: s =>
      if c = '\r'.toUInt8 then some (mult * v)
      else if isdigit c then
        if v * 10 + (c.toNat - 48) < 2 ^ 63 then readDigits mult (v * 10 + (c.toNat - 48)) s else none
      else some (-1)

/-- `readLongLong`: the number in front of the first CR, and -1 for what is no number. -/
def readLongLong : Bytes → Option Int
  | [] => none
  | c :: s =>
      if c = '-'.toUInt8 then readDigits (-1) 0 s
      else if c = '+'.toUInt8 then readDigits 1 0 s
      else readDigits 1 0 (c :: s)

/-! ### The task stack -/

/-- The types that a type byte names. -/
inductive ItemType where
  | error
  | status
  | integer
  | string
  | array
deriving DecidableEq, Repr

/-- A `redisReadTask`. -/
structure ReadTask where
  /-- `none` is -1: the type byte was not read yet. -/
  type : Option ItemType
  elements : Int
  idx : Int
  /-- What was put into the array of `obj`. -/
  element : List RedisReply
deriving Repr

/-- The task of the root item. -/
def ReadTask.root : ReadTask where
  type := none
  elements := -1
  idx := -1
  element := []

/-- The task of the first element of an array. -/
def ReadTask.child : ReadTask where
  type := none
  elements := -1
  idx := 0
  element := []

/-- The task of the next element. -/
def ReadTask.next (cur : ReadTask) : ReadTask where
  type := none
  elements := -1
  idx := cur.idx + 1
  element := []

/-- `moveToNextTask`, when the object of `cur` is complete: the stack, and the reply when the root is
    complete. -/
def moveToNextTask (obj : RedisReply) (cur : ReadTask) : List ReadTask → List ReadTask × Option RedisReply
  | [] => ([], some obj)
  | prv :: below =>
      if cur.idx = prv.elements - 1 then
        moveToNextTask (.array prv.elements.toNat (prv.element ++ [obj])) prv below
      else (cur.next :: { prv with element := prv.element ++ [obj] } :: below, none)

/-- An item of `count` bytes was read that is the object `obj`. -/
def complete (obj : RedisReply) (count : Nat) (cur : ReadTask) (below : List ReadTask) :
    Progress (List ReadTask) RedisReply ReadError :=
  .go (moveToNextTask obj cur below).1 count (moveToNextTask obj cur below).2

/-! ### Items -/

/-- What reading an item comes to: the stack it leaves, the bytes it takes and the reply it completes. -/
abbrev ItemProgress := Progress (List ReadTask) RedisReply ReadError

/-- `processLineItem`. -/
def processLineItem (allocates : Allocator) (type : ItemType) (cur : ReadTask) (below : List ReadTask)
    (text : Bytes) :
    ItemProgress :=
  match seekNewline text with
  | none => .more
  | some len =>
      match type with
      | .integer =>
          match readLongLong text with
          | none => .fail .undefinedBehaviour
          | some value => complete (.integer value) (len + 2) cur below
      | .error =>
          if allocates (len + 1) then complete (.error (text.take len)) (len + 2) cur below else .fail .oom
      | _ =>
          if allocates (len + 1) then complete (.status (text.take len)) (len + 2) cur below else .fail .oom

/-- `processBulkItem`. -/
def processBulkItem (allocates : Allocator) (cur : ReadTask) (below : List ReadTask) (text : Bytes) :
    ItemProgress :=
  match seekNewline text with
  | none => .more
  | some s =>
      match (readLongLong text).map wrapInt with
      | none => .fail .undefinedBehaviour
      | some len =>
          if len < 0 then complete .nil (s + 2) cur below
          -- `len+2` is computed in a `long`.
          else if 2 ^ 31 ≤ len + 2 then .fail .undefinedBehaviour
          else if s + 2 + (len.toNat + 2) ≤ text.length then
            -- The two bytes after the string are not looked at.
            if allocates (len.toNat + 1) then
              complete (.string ((text.drop (s + 2)).take len.toNat)) (s + 2 + (len.toNat + 2)) cur below
            else .fail .oom
          else .more

/-- `processMultiBulkItem`. -/
def processMultiBulkItem (allocates : Allocator) (cur : ReadTask) (below : List ReadTask) (text : Bytes) :
    ItemProgress :=
  -- `r->ridx == 8`: all nine tasks are in use.
  if below.length = 8 then .fail nestedError
  else
    match seekNewline text with
    | none => .more
    | some s =>
        match (readLongLong text).map wrapInt with
        | none => .fail .undefinedBehaviour
        | some elements =>
            if elements = -1 then complete .nil (s + 2) cur below
            else if 0 < elements then
              if allocates (elements.toNat * 8) then
                .go (.child :: { cur with elements := elements, element := [] } :: below) (s + 2) none
              else .fail .oom
            -- `r->elements` is a `size_t`, so a negative number is a large one there.
            else complete (.array (elements % 2 ^ 64).toNat []) (s + 2) cur below

/-- The type that a type byte names. -/
def itemType (byte : UInt8) : Option ItemType :=
  if byte = '-'.toUInt8 then some .error
  else if byte = '+'.toUInt8 then some .status
  else if byte = ':'.toUInt8 then some .integer
  else if byte = '$'.toUInt8 then some .string
  else if byte = '*'.toUInt8 then some .array
  else none

/-- The first part of `processItem`: the type byte. -/
def processType (cur : ReadTask) (below : List ReadTask) : Bytes → ItemProgress
  | [] => .more
  | byte :: _ =>
      match itemType byte with
      | none => .fail (protocolByteError byte)
      | some type => .go ({ cur with type := some type } :: below) 1 none

/-- The second part of `processItem`: the item of a type. -/
def processTyped (allocates : Allocator) (type : ItemType) (cur : ReadTask) (below : List ReadTask)
    (text : Bytes) :
    ItemProgress :=
  match type with
  | .error | .status | .integer => processLineItem allocates type cur below text
  | .string => processBulkItem allocates cur below text
  | .array => processMultiBulkItem allocates cur below text

/-- What `processItem` does next with the task `cur`. -/
def processTask (allocates : Allocator) (cur : ReadTask) (below : List ReadTask) (text : Bytes) :
    ItemProgress :=
  match cur.type with
  | none => processType cur below text
  | some type => processTyped allocates type cur below text

/-- `processItem`, which goes on with its second part when it took the type byte.  An empty stack stands for
    the root task, which `redisReaderGetReply` puts there before the first item. -/
def processItem (allocates : Allocator) (rstack : List ReadTask) (text : Bytes) : ItemProgress :=
  match rstack with
  | [] => processTask allocates .root [] text
  | cur :: below => processTask allocates cur below text

@[simp] theorem processItem_nil (allocates : Allocator) (text : Bytes) :
    processItem allocates [] text = processTask allocates .root [] text := rfl

@[simp] theorem processItem_cons (allocates : Allocator) (cur : ReadTask) (below : List ReadTask)
    (text : Bytes) :
    processItem allocates (cur :: below) text = processTask allocates cur below text := rfl

/-! ### What more bytes change -/

/-- The line break of the protocol. -/
def crlf : Bytes := ['\r'.toUInt8, '\n'.toUInt8]

/-- More bytes leave the first line break where it is. -/
theorem seekNewline_append {text : Bytes} {n : Nat} (found : seekNewline text = some n) (more : Bytes) :
    seekNewline (text ++ more) = some n := by
  induction text generalizing n with
  | nil => cases found
  | cons c s ih =>
      rw [seekNewline] at found
      rw [List.cons_append, seekNewline]
      cases s with
      | nil => simp [seekNewline] at found
      | cons d s =>
          split at found
          · rwa [if_pos ‹_›]
          · obtain ⟨k, later, rfl⟩ := Option.map_eq_some_iff.mp found
            rw [if_neg ‹_›, ih later, Option.map_some]

/-- The line break is in the text, and a CR is in front of what follows it. -/
theorem split_of_seekNewline {text : Bytes} {n : Nat} (found : seekNewline text = some n) :
    text = text.take n ++ crlf ++ text.drop (n + 2) ∧ n + 2 ≤ text.length := by
  induction text generalizing n with
  | nil => cases found
  | cons c s ih =>
      rw [seekNewline] at found
      split at found
      · obtain ⟨rfl, here⟩ := ‹_ ∧ _›
        cases found
        cases s with
        | nil => cases here
        | cons d s =>
            cases here
            exact ⟨rfl, by simp⟩
      · obtain ⟨k, later, rfl⟩ := Option.map_eq_some_iff.mp found
        obtain ⟨split, bound⟩ := ih later
        exact ⟨congrArg (c :: ·) split, Nat.succ_le_succ bound⟩

/-- Digits are read up to the line break, whatever follows it. -/
theorem readDigits_line (mult : Int) (v : Nat) (line rest : Bytes) :
    readDigits mult v (line ++ '\r'.toUInt8 :: rest) = readDigits mult v (line ++ ['\r'.toUInt8]) := by
  induction line generalizing v with
  | nil => rfl
  | cons c line ih => simp only [List.cons_append, readDigits, ih]

/-- The number is read from the line. -/
theorem readLongLong_line (line rest : Bytes) :
    readLongLong (line ++ '\r'.toUInt8 :: rest) = readLongLong (line ++ ['\r'.toUInt8]) := by
  cases line with
  | nil => rfl
  | cons c line =>
      have whole := readDigits_line 1 0 (c :: line) rest
      rw [List.cons_append, List.cons_append] at *
      rw [readLongLong, readLongLong, whole, readDigits_line (-1), readDigits_line 1]

/-- A number is read from its line alone. -/
theorem readLongLong_append {text : Bytes} {n : Nat} (found : seekNewline text = some n) (more : Bytes) :
    readLongLong (text ++ more) = readLongLong text := by
  obtain ⟨split, -⟩ := split_of_seekNewline found
  have cut : ∀ tail, text.take n ++ crlf ++ tail = text.take n ++
      '\r'.toUInt8 :: ('\n'.toUInt8 :: tail) := by
    intro tail
    simp [crlf]
  rw [split, List.append_assoc (_ ++ _), cut, cut, readLongLong_line, readLongLong_line _ (_ :: _)]

/-- A line item that is complete is read alike with more bytes behind it. -/
theorem processLineItem_append {allocates : Allocator} {type : ItemType} {cur : ReadTask}
    {below : List ReadTask}
    {text : Bytes} (goes : processLineItem allocates type cur below text ≠ .more) (more : Bytes) :
    processLineItem allocates type cur below (text ++ more) =
      processLineItem allocates type cur below text := by
  unfold processLineItem at goes ⊢
  cases found : seekNewline text with
  | none => rw [found] at goes; exact absurd rfl goes
  | some len =>
      have bound := (split_of_seekNewline found).2
      simp only [seekNewline_append found more, readLongLong_append found more,
        List.take_append_of_le_length (show len ≤ text.length by omega)]

theorem processBulkItem_append {allocates : Allocator} {cur : ReadTask} {below : List ReadTask}
    {text : Bytes} (goes : processBulkItem allocates cur below text ≠ .more) (more : Bytes) :
    processBulkItem allocates cur below (text ++ more) = processBulkItem allocates cur below text := by
  unfold processBulkItem at goes ⊢
  cases found : seekNewline text with
  | none => rw [found] at goes; exact absurd rfl goes
  | some s =>
      have bound := (split_of_seekNewline found).2
      simp only [found, seekNewline_append found more, readLongLong_append found more] at goes ⊢
      cases number : (readLongLong text).map wrapInt with
      | none => rfl
      | some len =>
          simp only [number] at goes ⊢
          by_cases whole : s + 2 + (len.toNat + 2) ≤ text.length
          · have cut : ((text ++ more).drop (s + 2)).take len.toNat =
                (text.drop (s + 2)).take len.toNat := by
              rw [List.drop_append_of_le_length bound, List.take_append_of_le_length]
              rw [List.length_drop]
              omega
            have whole' : s + 2 + (len.toNat + 2) ≤ (text ++ more).length := by
              rw [List.length_append]
              omega
            simp only [whole, whole', cut]
          · simp only [whole, if_false] at goes
            by_cases negative : len < 0
            · simp only [negative, if_true]
            · by_cases large : 2 ^ 31 ≤ len + 2
              · simp only [negative, if_false, large, if_true]
              · rw [if_neg negative, if_neg large] at goes
                exact absurd rfl goes

theorem processMultiBulkItem_append {allocates : Allocator} {cur : ReadTask} {below : List ReadTask}
    {text : Bytes} (goes : processMultiBulkItem allocates cur below text ≠ .more) (more : Bytes) :
    processMultiBulkItem allocates cur below (text ++ more) =
      processMultiBulkItem allocates cur below text := by
  unfold processMultiBulkItem at goes ⊢
  split
  · rfl
  · rw [if_neg ‹_›] at goes
    cases found : seekNewline text with
    | none => rw [found] at goes; exact absurd rfl goes
    | some s => simp only [seekNewline_append found more, readLongLong_append found more]

theorem processTask_append {allocates : Allocator} {cur : ReadTask} {below : List ReadTask} {text : Bytes}
    (goes : processTask allocates cur below text ≠ .more) (more : Bytes) :
    processTask allocates cur below (text ++ more) = processTask allocates cur below text := by
  obtain ⟨type, elements, idx, element⟩ := cur
  cases type with
  | none =>
      cases text with
      | nil => exact absurd rfl goes
      | cons byte text => rfl
  | some type =>
      simp only [processTask, processTyped] at goes ⊢
      cases type with
      | error | status | integer => exact processLineItem_append goes more
      | string => exact processBulkItem_append goes more
      | array => exact processMultiBulkItem_append goes more

/-- An item is read as it is also when more bytes are there. -/
theorem processItem_append {allocates : Allocator} {rstack : List ReadTask} {text : Bytes}
    (goes : processItem allocates rstack text ≠ .more) (more : Bytes) :
    processItem allocates rstack (text ++ more) = processItem allocates rstack text := by
  cases rstack with
  | nil =>
      rw [processItem_nil] at *
      exact processTask_append goes more
  | cons cur below =>
      rw [processItem_cons] at *
      exact processTask_append goes more

/-- An item takes at least a byte, and no more than there are. -/
theorem processTask_bounds {allocates : Allocator} {cur : ReadTask} {below next : List ReadTask}
    {text : Bytes} {count : Nat} {reply : Option RedisReply}
    (goes : processTask allocates cur below text = .go next count reply) :
    0 < count ∧ count ≤ text.length := by
  obtain ⟨type, elements, idx, element⟩ := cur
  cases type with
  | none =>
      cases text with
      | nil => cases goes
      | cons byte text =>
          simp only [processTask, processType] at goes
          split at goes
          · cases goes
          · cases goes
            simp
  | some type =>
      simp only [processTask, processTyped] at goes
      cases found : seekNewline text with
      | none => cases type <;> grind [processLineItem, processBulkItem, processMultiBulkItem]
      | some s =>
          have bound := (split_of_seekNewline found).2
          cases type <;> grind [processLineItem, processBulkItem, processMultiBulkItem, complete]

/-- An item takes at least one byte, and none that is not there. -/
theorem processItem_bounds {allocates : Allocator} {rstack next : List ReadTask} {text : Bytes} {count : Nat}
    {reply : Option RedisReply} (goes : processItem allocates rstack text = .go next count reply) :
    0 < count ∧ count ≤ text.length := by
  cases rstack with
  | nil =>
      rw [processItem_nil] at goes
      exact processTask_bounds goes
  | cons cur below =>
      rw [processItem_cons] at goes
      exact processTask_bounds goes

/-- The reader as a recogniser: its states are the task stacks, and its items the replies. -/
def recogniser (allocates : Allocator) : Recogniser (List ReadTask) UInt8 RedisReply ReadError where
  step := processItem allocates
  bounds := processItem_bounds
  go_append := fun goes more => by rw [processItem_append (by simp [goes]), goes]
  fail_append := fun fails more => by rw [processItem_append (by simp [fails]), fails]

/-! ### Readers -/

/-- A `redisReader`. -/
structure Reader where
  err : Option ReadError := none
  buf : Bytes := []
  pos : Nat := 0
  /-- The innermost task first. -/
  rstack : List ReadTask := []

/-- The bytes behind the cursor. -/
def Reader.unread (r : Reader) : Bytes := r.buf.drop r.pos

/-- `__redisReaderSetError`. -/
def Reader.setError (r : Reader) (e : ReadError) :
    Reader := { r with err := some e, buf := [], pos := 0, rstack := [] }

/-- `redisReaderFeed`. -/
def Reader.feed (r : Reader) (buf : Bytes) :
    Reader := if r.err.isSome then r else { r with buf := r.buf ++ buf }

/-- The bytes that were read are dropped when they are many. -/
def Reader.discard (r : Reader) :
    Reader := if 1024 ≤ r.pos then { r with buf := r.buf.drop r.pos, pos := 0 } else r

/-- The reader after its loop took everything in front of `rest`. -/
def Reader.moveTo (r : Reader) (rstack : List ReadTask) (rest : Bytes) : Reader :=
  { r with rstack := rstack, pos := r.buf.length - rest.length }

/-- `redisReaderGetReply`, which processes items until the stack is empty or an item is not there as a
    whole.  It returns `REDIS_ERR` when the reader has an error then. -/
def Reader.getReply (allocates : Allocator) (r : Reader) : Option RedisReply × Reader :=
  if r.err.isSome then (none, r)
  else if r.buf = [] then (none, r)
  else
    match (recogniser allocates).next r.rstack r.unread with
    | .waits rstack rest => (none, (r.moveTo rstack rest).discard)
    | .fails e => (none, r.setError e)
    | .emits reply rstack rest => (some reply, (r.moveTo rstack rest).discard)

end Waspp.Hiredis
