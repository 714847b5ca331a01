/-
Module: Waspp.Proofs.ColumnValues
Layer: Proofs
Purpose: What `get` makes of an integer column.  The 8- and 64-bit overloads read the number that the
  server stored; the 16- and 32-bit ones convert the first `char` only, so they give the number exactly when
  it is the sign extension of its lowest byte (`setValue_eq_iff`).  A post in the forum takes its key through
  such an overload, so two keys that agree in the lowest byte become one `seq` (`seq_of_posts`).
Imports: Waspp.Model.MysqlResult, Waspp.Proofs.ForumVisibility
Trusted boundary: none (fully proved)
Main exports: IntType.Holds, Column.HoldsInt, Result.Selects, IntType.ReadsBack, Result.get_of_selects,
  setValue_eq_iff, Posts, columns_read_back_iff
Open obligations: none
-/
import Waspp.Model.MysqlResult
import Waspp.Proofs.ForumVisibility

namespace Waspp

open CString Interaction

namespace Mysqlpp

/-! ### Columns that hold an integer

What `set_value` leaves of an integer and what the getters make of it.  A column holds an integer of its
own type; a getter casts it to another one, and `ReadsBack` says when that loses nothing. -/

/-- The values of a type. -/
def IntType.Holds (type : IntType) (v : Int) : Prop :=
  if type.signed then -2 ^ (type.bits - 1) ≤ v ∧ v < 2 ^ (type.bits - 1) else 0 ≤ v ∧ v < 2 ^ type.bits

instance (type : IntType) (v : Int) : Decidable (type.Holds v) :=
  inferInstanceAs (Decidable (if type.signed then _ else _))

/-- The first bytes of the buffer, as many as the type has or more, hold the integer in little-endian two's
    complement. -/
def Column.HoldsInt (column : Column) (type : IntType) (v : Int) : Prop :=
  ∃ n rest, type.size ≤ n ∧ column.buffer = LittleEndian.write n v ++ rest

/-- The column that a key names: the one at the index, or the first of the name. -/
def Result.Selects (rs : Result) (column : Column) : ColumnKey → Prop
  | .index i => rs.columns[i]? = some column
  | .name name =>
      ∃ before after, rs.columns = before ++ column :: after ∧ column.name = name ∧
        ∀ other ∈ before, other.name ≠ name

/-- The column that a key selects is the one that is read. -/
theorem Result.Selects.getColumn {rs : Result} {column : Column} {key : ColumnKey}
    (selects : rs.Selects column key) :
    rs.getColumn key = .ok column := by
  cases key with
  | index i =>
      have here : rs.columns[i]? = some column := selects
      simp only [Result.getColumn, here]
  | name name =>
      obtain ⟨before, after, columns, rfl, first⟩ := selects
      have found : rs.columns.find? (·.name == column.name) = some column := by
        rw [columns, List.find?_append, List.find?_eq_none.mpr (by simpa using first)]
        simp
      simp only [Result.getColumn, found]

/-- `get` on a column that is not NULL. -/
theorem Result.get_of_selects {rs : Result} {column : Column} {key : ColumnKey}
    (selects : rs.Selects column key)
    (notNull : column.isNull = 0) (type : IntType) : rs.get type key = setValue column type := by
  unfold Result.get
  rw [selects.getColumn]
  simp [notNull, Bind.bind, Except.bind]

/-- A value of the type is kept by a cast to it. -/
theorem IntType.cast_of_holds {type : IntType} {v : Int} (holds : type.Holds v) : type.cast v = v := by
  cases type <;>
    simp [IntType.Holds, IntType.signed, IntType.bits, IntType.cast, LittleEndian.wrapSigned,
      LittleEndian.wrapUnsigned, Int.bmod_def] at holds ⊢ <;>
    omega

/-- The lowest byte of an integer with its sign extended. -/
def lowChar (v : Int) : Int := if v % 256 < 128 then v % 256 else v % 256 - 256

/-- The first byte of a column is the low byte of its integer. -/
theorem front_of_holdsInt {column : Column} {type : IntType} {v : Int} (holds : column.HoldsInt type v) :
    column.front = .ok (lowChar v) := by
  obtain ⟨n, rest, wide, buffer⟩ := holds
  have positive : 0 < type.size := by cases type <;> decide
  cases n with
  | zero => omega
  | succ n =>
      have low := LittleEndian.toNat_lowByte v
      unfold Column.front
      rw [buffer, LittleEndian.write]
      simp only [List.cons_append, charInt, lowChar]
      congr 1
      split <;> split <;> omega

/-- Read as its own type a column gives its integer back. -/
theorem reinterpret_of_holdsInt {column : Column} {type : IntType} {v : Int}
    (holds : column.HoldsInt type v) :
    column.reinterpret type = .ok (type.cast v) := by
  obtain ⟨n, rest, wide, buffer⟩ := holds
  have long : type.size ≤ column.buffer.length := by
    rw [buffer, List.length_append, LittleEndian.length_write]
    omega
  have low : (LittleEndian.read (column.buffer.take type.size) : Int) = v % 256 ^ type.size := by
    rw [buffer, List.take_append_of_le_length (by rwa [LittleEndian.length_write]),
      LittleEndian.take_write wide, LittleEndian.read_write]
  unfold Column.reinterpret
  rw [if_pos long, low]
  congr 1
  cases type <;>
    simp [IntType.size, IntType.signed, IntType.bits, IntType.cast, LittleEndian.wrapSigned,
      LittleEndian.wrapUnsigned, Int.bmod_def]

/-- The type has 64 bits, or the value is the sign extension of its lowest byte. -/
def IntType.ReadsBack (type : IntType) (v : Int) : Prop :=
  type.bits = 64 ∨ if type.signed then -128 ≤ v ∧ v < 128 else v < 128 ∨ 2 ^ type.bits - 128 ≤ v

/-- A narrow type reads an integer back from its low byte exactly when it is one of those. -/
theorem IntType.cast_lowChar_eq_iff {type : IntType} {v : Int} (inRange : type.Holds v)
    (narrow : type.bits ≠ 64) :
    type.cast (lowChar v) = v ↔ type.ReadsBack v := by
  unfold lowChar
  cases type <;>
    simp [IntType.Holds, IntType.ReadsBack, IntType.signed, IntType.bits, IntType.cast,
      LittleEndian.wrapSigned, LittleEndian.wrapUnsigned, Int.bmod_def] at inRange narrow ⊢ <;>
    omega

/-- `set_value` gives the value that the column holds exactly when the type reads it back. -/
theorem setValue_eq_iff {column : Column} {type : IntType} {v : Int} (inRange : type.Holds v)
    (holds : column.HoldsInt type v) : setValue column type = .ok v ↔ type.ReadsBack v := by
  have front (narrow : type.bits ≠ 64) (read : setValue column type = column.front.map type.cast) :
      setValue column type = .ok v ↔ type.ReadsBack v := by
    rw [read, front_of_holdsInt holds, ← IntType.cast_lowChar_eq_iff inRange narrow]
    simp [Except.map]
  have wide (all : type.bits = 64) (read : setValue column type = column.reinterpret type) :
      setValue column type = .ok v ↔ type.ReadsBack v := by
    rw [read, reinterpret_of_holdsInt holds, IntType.cast_of_holds inRange]
    exact iff_of_true rfl (Or.inl all)
  cases type with
  | int8 => exact front (by decide) rfl
  | uint8 => exact front (by decide) rfl
  | int16 => exact front (by decide) rfl
  | uint16 => exact front (by decide) rfl
  | int32 => exact front (by decide) rfl
  | uint32 => exact front (by decide) rfl
  | int64 => exact wide (by decide) rfl
  | uint64 => exact wide (by decide) rfl

end Mysqlpp

/-! ### The keys of the forum

The key of a new post is read back through one byte, so what `last_insert_id` gives survives only below
256. -/

/-- The `seq` of a post is what `get<unsigned int>` reads from the column of its key. -/
theorem get_lastKey {rs : Mysqlpp.Result} {column : Mysqlpp.Column} {key : Mysqlpp.ColumnKey} {lastKey : Nat}
    (selects : rs.Selects column key) (notNull : column.isNull = 0)
    (holds : column.HoldsInt .uint32 lastKey) :
    rs.get .uint32 key = .ok (keySeq lastKey : Int) := by
  have read : Mysqlpp.setValue column .uint32 = column.front.map (Mysqlpp.IntType.cast .uint32) := rfl
  have converted : Mysqlpp.IntType.cast .uint32 (Mysqlpp.lowChar lastKey) = keySeq lastKey := by
    change Mysqlpp.lowChar lastKey % 2 ^ 32 = keySeq lastKey
    unfold keySeq Mysqlpp.lowChar
    split <;> split <;> omega
  rw [Mysqlpp.Result.get_of_selects selects notNull, read, Mysqlpp.front_of_holdsInt holds, Except.map,
    converted]

/-- The server returns the key to every call of the procedure that it answers, and a post that asks for a key
    inserts the row that it makes of it. -/
def keyContract (lastKey : Nat) : Contract DbCall Reply where
  asks q :=
    match q with
    | .insertForum _ row => row.seq = keySeq lastKey
    | _ => True
  replies q reply :=
    match q with
    | .uniqueKeys .. => ∀ answer, (reply : Except Exn (Option Nat)) = .ok answer → answer = some lastKey
    | _ => True

/-- A run of a post in which the procedure returned the key, and a row with this `seq` was inserted. -/
def Posts (env : Env) (c : Ctx) (lastKey seq : Nat) : Prop :=
  ∃ trace r c', (DirForum.post env).Runs c trace r c' ∧
    (∀ pool tableId amount answer,
      (⟨.uniqueKeys pool tableId amount, .ok answer⟩ : Event DbCall Reply) ∈ trace → answer = some lastKey) ∧
    ∃ pool row reply, (⟨.insertForum pool row, reply⟩ : Event DbCall Reply) ∈ trace ∧ row.seq = seq

/-- A post keeps its side of the contract. -/
theorem forumAsks_keyContract (lastKey pool : Nat) : ForumAsks (keyContract lastKey) pool where
  checkout _ _ := trivial
  uniqueKeys := trivial
  insertForum := by
    intro answer replied row seq
    have returned : answer = some lastKey := replied answer rfl
    subst returned
    exact seq
  updateForum _ _ _ _ _ _ := trivial

/-- A post stores its row under the key that was read back. -/
theorem seq_of_posts {env : Env} {c : Ctx} {lastKey seq : Nat} (posts : Posts env c lastKey seq) :
    seq = keySeq lastKey := by
  obtain ⟨trace, r, c', ran, keys, pool, row, reply, inserted, rfl⟩ := posts
  have replied : ∀ e ∈ trace, (keyContract lastKey).replies e.1 e.2 := by
    intro e member
    rcases e with ⟨q, reply⟩
    cases q with
    | uniqueKeys pool tableId amount =>
        intro answer same
        subst same
        exact keys pool tableId amount answer member
    | _ => trivial
  exact (Program.Meets.runs (forumPost_meets (forumAsks_keyContract lastKey _) c) ran replied).1 _ inserted

/-- Two keys are read alike when they agree modulo 256. -/
theorem keySeq_eq_iff (one two : Nat) : keySeq one = keySeq two ↔ one % 256 = two % 256 := by
  unfold keySeq
  split <;> split <;> omega

/-! ### Both together -/

/-- An integer column is read back exactly when its type has 64 bits or its value is the sign extension of
    its lowest byte; and two posts get the same `seq` exactly when their keys agree in the lowest byte. -/
theorem columns_read_back_iff {type : Mysqlpp.IntType} {v : Int} (inRange : type.Holds v)
    {rs : Mysqlpp.Result}
    {column : Mysqlpp.Column} {key : Mysqlpp.ColumnKey} (selects : rs.Selects column key)
    (notNull : column.isNull = 0) (holds : column.HoldsInt type v) :
    (rs.get type key = .ok v ↔ type.ReadsBack v) ∧
      ∀ (env env' : Env) (c c' : Ctx) (lastKey lastKey' seq seq' : Nat), Posts env c lastKey seq →
        Posts env' c' lastKey' seq' → (seq = seq' ↔ lastKey % 256 = lastKey' % 256) := by
  constructor
  · rw [Mysqlpp.Result.get_of_selects selects notNull, Mysqlpp.setValue_eq_iff inRange holds]
  · intro env env' c c' lastKey lastKey' seq seq' posts posts'
    rw [seq_of_posts posts, seq_of_posts posts', keySeq_eq_iff]

/-! ### A key over 255 -/

/-- A server that archives sessions and digests them. -/
private def keyServer : Env := { bareEnv with md5 := Md5.md5, archive := textArchive }

/-- A user who has signed in and posts. -/
private def keyPost : Ctx :=
  ⟨{ uri := bytes "/"
     params := [⟨bytes "title", bytes "t"⟩, ⟨bytes "content", bytes "c"⟩]
     cookies :=
       [⟨keyServer.cfg.sessCookie,
         (⟨[⟨bytes "sess_id", []⟩, ⟨bytes "last_tm", bytes "0"⟩, ⟨bytes "last_ip", []⟩,
           ⟨bytes "last_ua", []⟩,
           ⟨bytes "userid", bytes "2"⟩, ⟨bytes "username", bytes "d"⟩]⟩ : Session).cookieValue keyServer⟩] },
           {}⟩

/-- The calls of the post, when the next key is this one. -/
private def keyTrace (lastKey seq : Nat) : List (Event DbCall Reply) :=
  [⟨.checkout (.shardKey 2 (bytes "db_etc")), .ok ()⟩, ⟨.uniqueKeys 1 (bytes "forum") 1, .ok (some lastKey)⟩,
    ⟨.insertForum 1 ⟨seq, bytes "t", bytes "c", 2, bytes "d", []⟩, .ok 1⟩]

/-- The databases before the post. -/
private def keyWorld (lastKey : Nat) : World :=
  ⟨List.replicate 3 ⟨[⟨bytes "forum", 1, lastKey - 1⟩], none, some []⟩, []⟩

/-- A run that makes these calls posts under this key. -/
private theorem posts_of_trace {env : Env} {c : Ctx} {world : World} {lastKey seq : Nat}
    (calls : ((DirForum.post env).exec (serve plainMysql) c world).2.2 = keyTrace lastKey seq) :
    Posts env c lastKey seq := by
  have ran := Action.runs_exec (DirForum.post env) (serve plainMysql) c world
  rw [calls] at ran
  refine ⟨keyTrace lastKey seq, _, _, ran, ?_, 1, ⟨seq, bytes "t", bytes "c", 2, bytes "d", []⟩, .ok 1,
    by simp [keyTrace], rfl⟩
  intro pool tableId amount answer member
  simp only [keyTrace, List.mem_cons, List.not_mem_nil, or_false] at member
  rcases member with same | same | same
  · cases same
  · cases same
    rfl
  · cases same

/-- The first key is read as it is. -/
private theorem firstPost : Posts keyServer keyPost 1 1 :=
  @posts_of_trace _ _ (keyWorld 1) _ _ (by decide +kernel)

/-- The key 257 is read as 1, too. -/
private theorem laterPost : Posts keyServer keyPost 257 1 :=
  @posts_of_trace _ _ (keyWorld 257) _ _ (by decide +kernel)

/-- With the keys 1 and 257 the forum gets the `seq` 1 twice, and 300 is read as 44. -/
theorem keys_collide :
    (Posts keyServer keyPost 1 1 ∧ Posts keyServer keyPost 257 1) ∧
      ∃ (rs : Mysqlpp.Result) (column : Mysqlpp.Column), rs.Selects column (.index 0) ∧ column.isNull = 0 ∧
        column.HoldsInt .int16 300 ∧ Mysqlpp.IntType.Holds .int16 300 ∧
          rs.get .int16 (.index 0) ≠ .ok 300 := by
  constructor
  · exact ⟨firstPost, laterPost⟩
  · exact ⟨{ columns := [⟨bytes "n", [44, 1], 0⟩] }, ⟨bytes "n", [44, 1], 0⟩, rfl, rfl,
      ⟨2, [], by decide, by decide⟩, by decide, by decide⟩

/-- The two posts, and a column that holds 5. -/
theorem columns_read_back_iff_five :
    Mysqlpp.Result.get { columns := [⟨bytes "n", [5, 0, 0, 0], 0⟩] } .int32 (.name (bytes "n")) = .ok 5 ∧
      ((1 : Nat) = 1 ↔ 1 % 256 = 257 % 256) := by
  have inRange : Mysqlpp.IntType.Holds .int32 5 := by decide
  have selects : Mysqlpp.Result.Selects { columns := [⟨bytes "n", [5, 0, 0, 0], 0⟩] } ⟨bytes "n",
      [5, 0, 0, 0], 0⟩
      (.name (bytes "n")) := ⟨[], [], rfl, rfl, by simp⟩
  obtain ⟨read, distinct⟩ := columns_read_back_iff inRange selects rfl ⟨4, [], by decide, by decide⟩
  constructor
  · exact read.mpr (Or.inr (by decide))
  · exact distinct keyServer keyServer keyPost keyPost 1 257 1 1 firstPost laterPost

end Waspp
