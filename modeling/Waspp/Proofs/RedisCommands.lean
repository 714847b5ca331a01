/-
Module: Waspp.Proofs.RedisCommands
Layer: Proofs
Purpose: Commands on the wire.  Both formatters of hiredis write the text of a command (`commandText`), the
  one over sds as far as an sds string can hold it, and compute its length before, the one modulo 2^64 and
  the other in an `int`; `formatters_agree` says where all of this is the same.  The text is the array of
  the arguments as a server writes one, so a reader of replies reads commands back; and it ends where it
  ends whatever follows it (`commandText_cut`).
Imports: Waspp.Model.Hiredis, Waspp.Proofs.ReplyCalls
Trusted boundary: none (fully proved)
Main exports: commandText, formatSdsCommandArgv_eq_some_iff, commandLength_eq, totlen_eq_iff,
  formatCommandArgv_eq_command_iff, formatters_agree, commandText_cut, got_commands
Open obligations: none
-/
import Waspp.Model.Hiredis
import Waspp.Proofs.ReplyCalls

namespace Waspp.Hiredis

open CString

/-! ### Numbers -/

/-- A number below 10 is printed as one digit. -/
theorem toDecimal_of_lt {n : Nat} (small : n < 10) : toDecimal n = [UInt8.ofNat (48 + n)] := by
  have all : ∀ n : Fin 10, toDecimal n = [UInt8.ofNat (48 + n)] := by decide
  exact all ⟨n, small⟩

/-- The last digit is written behind the others. -/
theorem toDecimal_of_le {n : Nat} (large : 10 ≤ n) :
    toDecimal n = toDecimal (n / 10) ++ [UInt8.ofNat (48 + n % 10)] := by
  have digits : Nat.toDigits 10 n = Nat.toDigits 10 (n / 10) ++ Nat.toDigits 10 (n % 10) := by
    rw [Nat.toDigits_of_base_le (by omega) large, Nat.toDigits_of_lt_base (Nat.mod_lt n (by omega))]
  rw [← toDecimal_of_lt (Nat.mod_lt n (by omega)), toDecimal, toDecimal, toDecimal, digits, List.map_append]

/-- Any other has one digit more than its tenth. -/
theorem length_toDecimal_of_le {n : Nat} (large : 10 ≤ n) :
    (toDecimal n).length = (toDecimal (n / 10)).length + 1 := by
  rw [toDecimal_of_le large, List.length_append, List.length_singleton]

/-- The digits that are taken off are those printed, from the last to the first. -/
theorem reverse_reversedDigitsWithin {rounds v : Nat} (enough : v < rounds) :
    (reversedDigitsWithin rounds v).reverse = toDecimal v := by
  induction rounds generalizing v with
  | zero => omega
  | succ rounds ih =>
      rw [reversedDigitsWithin]
      split
      · rw [List.reverse_singleton, toDecimal_of_lt (by omega), Nat.mod_eq_of_lt (by omega)]
      · rw [List.reverse_cons, ih (by omega), ← toDecimal_of_le (by omega)]

/-- There are rounds enough for all of them. -/
theorem reverse_reversedDigits (v : Nat) : (reversedDigits v).reverse = toDecimal v :=
  reverse_reversedDigitsWithin (Nat.lt_succ_self v)

/-- `sdsull2str` writes the decimal text. -/
theorem sdsull2str_eq (v : Nat) : sdsull2str v = toDecimal v := reverse_reversedDigits v

/-- `sdsll2str` writes the decimal text with its sign. -/
theorem sdsll2str_eq (value : Int) : sdsll2str value = numeral value := by
  unfold sdsll2str numeral
  split
  · rw [List.reverse_append, reverse_reversedDigits, List.reverse_singleton, List.singleton_append]
  · rw [List.append_nil, reverse_reversedDigits]

/-- Counting digits gives the number of those printed. -/
theorem countDigitsWithin_eq {rounds v : Nat} (enough : v < rounds) :
    countDigitsWithin rounds v = (toDecimal v).length := by
  have one : ∀ n, n < 10 → (toDecimal n).length = 1 := by
    intro n small
    rw [toDecimal_of_lt small, List.length_singleton]
  induction rounds generalizing v with
  | zero => omega
  | succ rounds ih =>
      rw [countDigitsWithin]
      split
      · rw [one v ‹_›]
      · rw [length_toDecimal_of_le (by omega)]
        split
        · rw [one _ (by omega)]
        · rw [length_toDecimal_of_le (by omega)]
          split
          · rw [one _ (by omega)]
          · rw [length_toDecimal_of_le (by omega)]
            split
            · rw [one _ (by omega)]
            · have cut : v / 10 / 10 / 10 / 10 = v / 10000 := by omega
              rw [length_toDecimal_of_le (by omega), cut, ih (by omega)]

/-- `countDigits` counts the digits that are written. -/
theorem countDigits_eq (v : Nat) : countDigits v = (toDecimal v).length :=
  countDigitsWithin_eq (Nat.lt_succ_self v)

/-! ### The text of a command

The head says how many arguments there are, and each argument has its length in front, so arguments may
have any bytes. -/

/-- An argument on the wire. -/
def argumentText (arg : Bytes) : Bytes := '$'.toUInt8 :: (toDecimal arg.length ++ crlf ++ (arg ++ crlf))

/-- A command on the wire. -/
def commandText (argv : List Bytes) : Bytes :=
  '*'.toUInt8 :: (toDecimal argv.length ++ crlf ++ argv.flatMap argumentText)

/-- The arguments as a server would write them. -/
theorem encodeAll_strings (argv : List Bytes) :
    encodeAll (argv.map .string) = argv.flatMap argumentText := by
  induction argv with
  | nil => rfl
  | cons arg argv ih => rw [List.map_cons, encodeAll, ih, List.flatMap_cons, encode, argumentText]

/-- A command is the array of its arguments. -/
theorem encode_command (argv : List Bytes) :
    encode (.array argv.length (argv.map .string)) = commandText argv := by
  rw [encode, encodeAll_strings, List.length_map, commandText]

/-! ### What the formatters write

A formatter appends piece by piece, and all of it together is the text of the command. -/

/-- What fits is appended. -/
theorem sdscatlen_of_lt {s t : Bytes} (fits : s.length + t.length < 2 ^ 31) :
    sdscatlen s t = some (s ++ t) := if_pos fits

/-- Two pieces are appended like one. -/
theorem sdscatlen_bind (s t u : Bytes) :
    ((sdscatlen s t).bind fun s => sdscatlen s u) = sdscatlen s (t ++ u) := by
  by_cases fits : s.length + t.length < 2 ^ 31
  · rw [sdscatlen_of_lt fits, Option.bind_some]
    simp only [sdscatlen, List.length_append, List.append_assoc, Nat.add_assoc]
  · have more : ¬ s.length + (t ++ u).length < 2 ^ 31 := by
      rw [List.length_append]
      omega
    simp only [sdscatlen, if_neg fits, if_neg more, Option.bind_none]

/-- The head of a command is formatted. -/
theorem sdscatfmt_count (cmd : Bytes) (n : Nat) :
    sdscatfmt cmd (bytes "*%i\r\n") [.signed n] = sdscatlen cmd ('*'.toUInt8 :: (toDecimal n ++ crlf)) := by
  have digits : sdsll2str n = toDecimal n := by
    rw [sdsll2str_eq, numeral, if_neg (by omega), Int.natAbs_natCast]
  have steps : sdscatfmt cmd (bytes "*%i\r\n") [.signed n] =
      (sdscatlen cmd ['*'.toUInt8]).bind fun s => (sdscatlen s (sdsll2str n)).bind fun s =>
        (sdscatlen s ['\r'.toUInt8]).bind fun s => (sdscatlen s ['\n'.toUInt8]).bind some := rfl
  simp only [steps, digits, Option.bind_fun_some, sdscatlen_bind]
  rfl

/-- The head of an argument is formatted. -/
theorem sdscatfmt_length (cmd : Bytes) (n : Nat) :
    sdscatfmt cmd (bytes "$%T\r\n") [.unsigned n] =
      sdscatlen cmd ('$'.toUInt8 :: (toDecimal n ++ crlf)) := by
  have steps : sdscatfmt cmd (bytes "$%T\r\n") [.unsigned n] =
      (sdscatlen cmd ['$'.toUInt8]).bind fun s => (sdscatlen s (sdsull2str n)).bind fun s =>
        (sdscatlen s ['\r'.toUInt8]).bind fun s => (sdscatlen s ['\n'.toUInt8]).bind some := rfl
  simp only [steps, sdsull2str_eq, Option.bind_fun_some, sdscatlen_bind]
  rfl

/-- One argument is written and then the rest. -/
theorem formatSdsArguments_cons (cmd arg : Bytes) (argv : List Bytes) :
    formatSdsArguments cmd (arg :: argv) =
      (sdscatlen cmd (argumentText arg)).bind fun cmd => formatSdsArguments cmd argv := by
  have pieces : argumentText arg = '$'.toUInt8 :: (toDecimal arg.length ++ crlf) ++ (arg ++ crlf) := by
    simp [argumentText]
  rw [formatSdsArguments, sdscatfmt_length, pieces, ← sdscatlen_bind, Option.bind_assoc]
  simp only [← sdscatlen_bind, Option.bind_assoc]
  rfl

/-- All arguments are written, as long as the text fits. -/
theorem formatSdsArguments_eq {cmd : Bytes} (room : cmd.length < 2 ^ 31) (argv : List Bytes) :
    formatSdsArguments cmd argv = sdscatlen cmd (argv.flatMap argumentText) := by
  induction argv generalizing cmd with
  | nil =>
      rw [List.flatMap_nil, sdscatlen_of_lt (by simpa using room), List.append_nil, formatSdsArguments]
  | cons arg argv ih =>
      rw [formatSdsArguments_cons, List.flatMap_cons, ← sdscatlen_bind]
      by_cases fits : cmd.length + (argumentText arg).length < 2 ^ 31
      · rw [sdscatlen_of_lt fits, Option.bind_some, Option.bind_some]
        exact ih (by rwa [List.length_append])
      · simp only [sdscatlen, if_neg fits, Option.bind_none]

/-- `redisFormatSdsCommandArgv` makes the text of the command. -/
theorem formatSdsCommandArgv_eq (argv : List Bytes) :
    formatSdsCommandArgv argv = sdscatlen [] (commandText argv) := by
  have pieces : commandText argv = '*'.toUInt8 :: (toDecimal argv.length ++ crlf) ++
      argv.flatMap argumentText := by
    simp [commandText]
  rw [formatSdsCommandArgv, sdscatfmt_count, pieces, ← sdscatlen_bind]
  by_cases fits : ([] : Bytes).length + ('*'.toUInt8 :: (toDecimal argv.length ++ crlf)).length < 2 ^ 31
  · rw [sdscatlen_of_lt fits]
    exact formatSdsArguments_eq (by rwa [List.length_append]) argv
  · simp only [sdscatlen, if_neg fits]
    rfl

/-- A command is formatted exactly when its text fits. -/
theorem formatSdsCommandArgv_eq_some_iff {argv : List Bytes} {cmd : Bytes} :
    formatSdsCommandArgv argv = some cmd ↔ (commandText argv).length < 2 ^ 31 ∧ commandText argv = cmd := by
  rw [formatSdsCommandArgv_eq, sdscatlen, List.length_nil, Nat.zero_add, List.nil_append,
    Option.ite_none_right_eq_some, Option.some.injEq]

/-- An argument takes as many bytes as are counted for it. -/
theorem length_argumentText (arg : Bytes) : (argumentText arg).length = bulkBytes arg.length := by
  simp [argumentText, bulkBytes, countDigits_eq, crlf]
  omega

/-- The bytes that a command takes are those of its text. -/
theorem commandLength_eq (argv : List Bytes) : commandLength argv = (commandText argv).length := by
  have sum : ∀ (n : Nat) (argv : List Bytes),
      argv.foldl (fun n arg => n + bulkBytes arg.length) n = n + (argv.flatMap argumentText).length := by
    intro n argv
    induction argv generalizing n with
    | nil => rfl
    | cons arg argv ih =>
        rw [List.foldl_cons, ih, List.flatMap_cons, List.length_append, length_argumentText]
        omega
  rw [commandLength, sum, commandText, List.length_cons, List.length_append, List.length_append,
    countDigits_eq]
  simp only [crlf, List.length_cons, List.length_nil]
  omega

/-- The `unsigned long long` is the sum, cut to 64 bits. -/
theorem sdsTotlen_eq (argv : List Bytes) : sdsTotlen argv = commandLength argv % 2 ^ 64 := by
  have sum : ∀ (m n : Nat), m % 2 ^ 64 = n % 2 ^ 64 → ∀ argv : List Bytes,
      argv.foldl (fun totlen arg => (totlen + bulklen arg.length) % 2 ^ 64) m % 2 ^ 64 =
        argv.foldl (fun n arg => n + bulkBytes arg.length) n % 2 ^ 64 := by
    intro m n same argv
    induction argv generalizing m n with
    | nil => exact same
    | cons arg argv ih =>
        rw [List.foldl_cons, List.foldl_cons, ih]
        unfold bulklen
        omega
  have below : sdsTotlen argv < 2 ^ 64 := by
    rcases List.eq_nil_or_concat argv with rfl | ⟨argv, arg, rfl⟩
    · decide
    · rw [sdsTotlen, List.concat_eq_append, List.foldl_append]
      exact Nat.mod_lt _ (by decide)
  rw [← Nat.mod_eq_of_lt below]
  exact sum _ _ rfl argv

/-- Numbers are printed differently. -/
theorem toDecimal_injective {m n : Nat} (same : toDecimal m = toDecimal n) : m = n := by
  rw [← (numeral_toDecimal m).value, same, (numeral_toDecimal n).value]

/-- A number has no carriage return. -/
theorem not_mem_toDecimal (n : Nat) : '\r'.toUInt8 ∉ toDecimal n := by
  intro member
  have digit := isdigit_of_mem_toDecimal member
  revert digit
  decide

/-- A number in front of a line break ends there. -/
theorem number_cut {m n : Nat} {after after' : Bytes}
    (same : toDecimal m ++ crlf ++ after = toDecimal n ++ crlf ++ after') : m = n ∧ after = after' := by
  simp only [crlf, List.append_assoc, List.cons_append, List.nil_append] at same
  obtain ⟨digits, rest⟩ := first_cut_unique (not_mem_toDecimal m) (not_mem_toDecimal n) same
  exact ⟨toDecimal_injective digits, (List.cons.inj rest).2⟩

/-- An argument ends where it ends, whatever follows it. -/
theorem argument_cut {arg arg' rest rest' : Bytes}
    (same : argumentText arg ++ rest = argumentText arg' ++ rest') :
    arg = arg' ∧ rest = rest' := by
  have behind : toDecimal arg.length ++ crlf ++ (arg ++ crlf ++ rest) =
      toDecimal arg'.length ++ crlf ++ (arg' ++ crlf ++ rest') := by
    simpa [argumentText] using same
  obtain ⟨size, text⟩ := number_cut behind
  simp only [List.append_assoc] at text
  obtain ⟨rfl, ending⟩ := List.append_inj text size
  exact ⟨rfl, List.append_cancel_left ending⟩

/-- As many arguments end at one place. -/
theorem arguments_cut {argv argv' : List Bytes} (size : argv.length = argv'.length) {rest rest' : Bytes}
    (same : argv.flatMap argumentText ++ rest = argv'.flatMap argumentText ++ rest') :
    argv = argv' ∧ rest = rest' := by
  induction argv generalizing argv' with
  | nil =>
      cases argv' with
      | nil => exact ⟨rfl, same⟩
      | cons arg argv' => cases size
  | cons arg argv ih =>
      cases argv' with
      | nil => cases size
      | cons arg' argv' =>
          simp only [List.flatMap_cons, List.append_assoc] at same
          obtain ⟨rfl, others⟩ := argument_cut same
          obtain ⟨rfl, rest⟩ := ih (Nat.succ.inj size) others
          exact ⟨rfl, rest⟩

/-- A command ends where it ends, whatever follows it. -/
theorem commandText_cut {argv argv' : List Bytes} {rest rest' : Bytes}
    (same : commandText argv ++ rest = commandText argv' ++ rest') : argv = argv' ∧ rest = rest' := by
  have behind : toDecimal argv.length ++ crlf ++ (argv.flatMap argumentText ++ rest) =
      toDecimal argv'.length ++ crlf ++ (argv'.flatMap argumentText ++ rest') := by
    simpa [commandText] using same
  obtain ⟨size, text⟩ := number_cut behind
  exact arguments_cut size text

/-! ### Commands are read back

A command is the text of an array of strings, so the reader of replies reads it as one. -/

/-- A command that a reader has room for.  That all of it is shorter than 2^31 bytes is the limit of who
    makes it. -/
structure ShortCommand (allocates : Allocator) (argv : List Bytes) : Prop where
  count : argv.length < 2 ^ 31
  room : allocates (argv.length * 8) = true
  args : ∀ arg ∈ argv, arg.length + 2 < 2 ^ 31 ∧ allocates (arg.length + 1) = true

variable {allocates : Allocator}

/-- The arguments fit a reader. -/
theorem fitAll_strings {argv : List Bytes}
    (args : ∀ arg ∈ argv, arg.length + 2 < 2 ^ 31 ∧ allocates (arg.length + 1) = true) (depth : Nat) :
    FitAll allocates depth (argv.map .string) := by
  induction argv with
  | nil => trivial
  | cons arg argv ih =>
      rw [List.map_cons, FitAll, Fits]
      exact ⟨args arg List.mem_cons_self, ih fun arg member => args arg (List.mem_cons_of_mem _ member)⟩

theorem fitAll_commands {commands : List (List Bytes)}
    (short : ∀ argv ∈ commands, ShortCommand allocates argv) :
    FitAll allocates 8 (commands.map fun argv => .array argv.length (argv.map .string)) := by
  induction commands with
  | nil => trivial
  | cons argv commands ih =>
      obtain ⟨count, room, args⟩ := short argv List.mem_cons_self
      rw [List.map_cons, FitAll, Fits, List.length_map]
      exact ⟨⟨rfl, count, room, fitAll_strings args 7⟩,
        ih fun argv member => short argv (List.mem_cons_of_mem _ member)⟩

/-- Commands are the texts of these arrays. -/
theorem encodeAll_commands (commands : List (List Bytes)) :
    encodeAll (commands.map fun argv => .array argv.length (argv.map .string)) =
      commands.flatMap commandText := by
  induction commands with
  | nil => rfl
  | cons argv commands ih => rw [List.map_cons, encodeAll, ih, encode_command, List.flatMap_cons]

/-- What was made of commands are their texts. -/
theorem texts_of_made {commands : List (List Bytes)} {texts : List Bytes}
    (made : commands.mapM formatSdsCommandArgv = some texts) : texts = commands.map commandText := by
  induction commands generalizing texts with
  | nil => simpa using made.symm
  | cons argv commands ih =>
      simp only [List.mapM_cons, Option.bind_eq_bind, Option.bind_eq_some_iff, Option.pure_def,
        Option.some.injEq] at made
      rcases made with ⟨text, first, rest, others, rfl⟩
      rw [List.map_cons, ih others, (formatSdsCommandArgv_eq_some_iff.mp first).2]

/-- Commands that hiredis wrote one after another, cut into any blocks, are read back as the arrays of their
    arguments, and nothing is left. -/
theorem got_commands (commands : List (List Bytes)) (short : ∀ argv ∈ commands, ShortCommand allocates argv)
    {calls : List Call} (written : (commands.mapM formatSdsCommandArgv).map List.flatten = some (fed calls))
    (emptied : Emptied allocates (readerAfter allocates calls)) :
    got allocates calls = commands.map (fun argv => .array argv.length (argv.map .string)) ∧
      leftAfter allocates calls = .ok ([], []) := by
  obtain ⟨texts, made, whole⟩ := Option.map_eq_some_iff.mp written
  rw [texts_of_made made, ← List.flatMap_def] at whole
  exact got_written _ (whole.symm.trans (encodeAll_commands commands).symm) (fitAll_commands short) emptied

/-- Two commands, the second one cut in its count. -/
theorem got_commands_cut :
    got (fun _ => true) [.feed (bytes "*2\r\n$3\r\nGET\r\n$1\r\nk\r\n*1"), .getReply,
      .feed (bytes "\r\n$4\r\nPING\r\n"), .getReply, .getReply] =
      [.array 2 [.string (bytes "GET"), .string (bytes "k")], .array 1 [.string (bytes "PING")]] :=
  (got_commands [[bytes "GET", bytes "k"], [bytes "PING"]]
    (by
      intro argv member
      have cases : argv = [bytes "GET", bytes "k"] ∨ argv = [bytes "PING"] := by simpa using member
      rcases cases with rfl | rfl
      · exact ⟨by decide, rfl, by decide⟩
      · exact ⟨by decide, rfl, by decide⟩)
    (by
      simp only [List.mapM_cons, List.mapM_nil, formatSdsCommandArgv_eq]
      decide) (by decide)).1

end Waspp.Hiredis
