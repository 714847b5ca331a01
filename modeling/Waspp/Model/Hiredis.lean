/-
Module: Waspp.Model.Hiredis
Layer: Model
Purpose: The commands and the context of hiredis.  A command is an array of its arguments on the wire,
  written by `sdscatfmt` or by `sprintf`; a context collects commands in an output buffer, writes what the
  socket takes of it, and feeds what it reads to a reply reader.  The socket is asked for by its results
  (`WriteResult`, `ReadResult`). An sds string keeps its length in an `int`, which bounds a command; the
  output buffer of a context and the buffer of its reader are sds strings too, and are taken to stay below
  that bound.
Imports: Waspp.Model.HiredisRead
Trusted boundary: human-reviewed translation of hiredis.c, of sdsll2str, sdsull2str, sdscatlen and sdscatfmt
  in sds.c
Main exports: countDigits, sdsull2str, sdsll2str, sdscatlen, sdscatfmt, commandLength, sdsTotlen, totlen,
  formatSdsCommandArgv, formatCommandArgv, Context, Context.appendCommandArgv, Context.bufferWrite,
  Context.bufferRead, Context.getReplyFromReader
Open obligations: none
-/
import Waspp.Model.HiredisRead

namespace Waspp.Hiredis

open CString

/-! ### Numbers -/

/-- The loop of `countDigits`, which counts four digits in a round, in so many rounds. -/
def countDigitsWithin : Nat → Nat → Nat
  | 0, _ => 1
  | rounds + 1, v =>
      if v < 10 then 1
      else if v < 100 then 2
      else if v < 1000 then 3
      else if v < 10000 then 4
      else countDigitsWithin rounds (v / 10000) + 4

/-- `countDigits`. -/
def countDigits (v : Nat) : Nat := countDigitsWithin (v + 1) v

/-- The loop of `sdsull2str`, which writes the last digit first, in so many rounds. -/
def reversedDigitsWithin : Nat → Nat → Bytes
  | 0, _ => []
  | rounds + 1, v => UInt8.ofNat (48 + v % 10) :: if v / 10 =
      0 then [] else reversedDigitsWithin rounds (v / 10)

/-- The digits of a number, the last one first. -/
def reversedDigits (v : Nat) : Bytes := reversedDigitsWithin (v + 1) v

/-- `sdsull2str`. -/
def sdsull2str (v : Nat) : Bytes := (reversedDigits v).reverse

/-- `sdsll2str`. -/
def sdsll2str (value : Int) : Bytes :=
  (reversedDigits value.natAbs ++ if value < 0 then ['-'.toUInt8] else []).reverse

/-! ### Formats -/

/-- What a conversion of a format takes. -/
inductive FmtArg where
  | str (text : Bytes)
  | signed (num : Int)
  | unsigned (unum : Nat)
deriving DecidableEq, Repr

/-- `sdscatlen`, given the memory; `none` when the `len` of an `sdshdr` does not hold the length. -/
def sdscatlen (s t : Bytes) : Option Bytes := if s.length + t.length < 2 ^ 31 then some (s ++ t) else none

/-- `sdscatfmt`, which counts with an `int i` and with that `len`; `none` as well when an argument is missing
    or of another type, or when the format ends in `%`, which the language leaves undefined. -/
def sdscatfmt (s : Bytes) : Bytes → List FmtArg → Option Bytes
  | [], _ => some s
  | c :: f, args =>
      if c = '%'.toUInt8 then
        match f with
        | [] => none
        | next :: f =>
            if next = 's'.toUInt8 ∨ next = 'S'.toUInt8 then
              match args with
              | .str text :: args => (sdscatlen s text).bind fun s => sdscatfmt s f args
              | _ => none
            else if next = 'i'.toUInt8 ∨ next = 'I'.toUInt8 then
              match args with
              | .signed num :: args => (sdscatlen s (sdsll2str num)).bind fun s => sdscatfmt s f args
              | _ => none
            else if next = 'u'.toUInt8 ∨ next = 'U'.toUInt8 ∨ next = 'T'.toUInt8 then
              match args with
              | .unsigned unum :: args => (sdscatlen s (sdsull2str unum)).bind fun s => sdscatfmt s f args
              | _ => none
            else (sdscatlen s [next]).bind fun s => sdscatfmt s f args
      else (sdscatlen s [c]).bind fun s => sdscatfmt s f args

/-! ### Commands -/

/-- The bytes that an argument of a length takes in a command. -/
def bulkBytes (len : Nat) : Nat := 1 + countDigits len + 2 + len + 2

/-- `bulklen`, which is a `size_t`. -/
def bulklen (len : Nat) : Nat := bulkBytes len % 2 ^ 64

/-- The bytes that a command takes. -/
def commandLength (argv : List Bytes) : Nat :=
  argv.foldl (fun n arg => n + bulkBytes arg.length) (1 + countDigits argv.length + 2)

/-- `totlen` of `redisFormatSdsCommandArgv`, an `unsigned long long`. -/
def sdsTotlen (argv : List Bytes) : Nat :=
  argv.foldl (fun totlen arg => (totlen + bulklen arg.length) % 2 ^ 64) (1 + countDigits argv.length + 2)

/-- `totlen` of `redisFormatCommandArgv`, an `int`. -/
def totlen (argv : List Bytes) : Int :=
  argv.foldl (fun totlen arg => wrapInt (totlen + bulklen arg.length)) (1 + countDigits argv.length + 2)

/-- The loop of `redisFormatSdsCommandArgv`. -/
def formatSdsArguments (cmd : Bytes) : List Bytes → Option Bytes
  | [] => some cmd
  | arg :: argv => do
      let cmd ← sdscatfmt cmd (bytes "$%T\r\n") [.unsigned arg.length]
      let cmd ← sdscatlen cmd arg
      let cmd ← sdscatlen cmd ['\r'.toUInt8, '\n'.toUInt8]
      formatSdsArguments cmd argv

/-- The command that `redisFormatSdsCommandArgv` makes, given the memory. -/
def formatSdsCommandArgv (argv : List Bytes) : Option Bytes := do
  let cmd ← sdscatfmt [] (bytes "*%i\r\n") [.signed argv.length]
  formatSdsArguments cmd argv

/-- The errors of a context. -/
inductive ContextError where
  | io
  | eof
  | oom
  /-- The error of its reader. -/
  | reader (e : ReadError)
deriving DecidableEq, Repr

/-- A blocking `redisContext`. -/
structure Context where
  err : Option ContextError := none
  obuf : Bytes := []
  reader : Reader := {}

/-- What `write` returns: the bytes it took, -1 with `EINTR`, or -1. -/
inductive WriteResult where
  | wrote (n : Nat)
  | again
  | failed
deriving DecidableEq, Repr

/-- What `read` returns: bytes, -1 with `EINTR`, 0, or -1. -/
inductive ReadResult where
  | data (block : Bytes)
  | again
  | closed
  | failed
deriving DecidableEq, Repr

/-- `redisAppendCommandArgv`: `none` where what it does is undefined.  The total length goes through an
    `int`. -/
def Context.appendCommandArgv (c : Context) (argv : List Bytes) : Option Context := do
  let cmd ← formatSdsCommandArgv argv
  let len := wrapInt (sdsTotlen argv)
  if len = -1 then some { c with err := some .oom }
  else if len < 0 then none
  else some { c with obuf := c.obuf ++ cmd.take len.toNat }

/-- `redisBufferWrite`: the context, and the bytes that went to the socket. -/
def Context.bufferWrite (c : Context) (result : WriteResult) : Context × Bytes :=
  if c.err.isSome then (c, [])
  else if c.obuf = [] then (c, [])
  else
    match result with
    | .wrote n => ({ c with obuf := c.obuf.drop n }, c.obuf.take n)
    | .again => (c, [])
    | .failed => ({ c with err := some .io }, [])

/-- `redisBufferRead`. -/
def Context.bufferRead (c : Context) (result : ReadResult) : Context :=
  if c.err.isSome then c
  else
    match result with
    | .data block =>
        let reader := c.reader.feed block
        match reader.err with
        | some e => { c with err := some (.reader e), reader := reader }
        | none => { c with reader := reader }
    | .again => c
    | .closed => { c with err := some .eof }
    | .failed => { c with err := some .io }

/-- `redisGetReplyFromReader`; it returns `REDIS_ERR` when the reader has an error then. -/
def Context.getReplyFromReader (allocates : Allocator) (c : Context) : Option RedisReply × Context :=
  let (reply, reader) := c.reader.getReply allocates
  match reader.err with
  | some e => (none, { c with err := some (.reader e), reader := reader })
  | none => (reply, { c with reader := reader })

end Waspp.Hiredis
