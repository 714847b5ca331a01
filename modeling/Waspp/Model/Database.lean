/-
Module: Waspp.Model.Database
Layer: Model
Purpose: The databases as the handlers see them.  A `DbCall` is one exchange with a MySQL server: the
  checkout of a connection from a pool, or a statement prepared, bound and run.  `serve` says what a call
  does to the rows and what it returns; a call may also fail with no effect, which the list of outages
  decides.  The collation of the text columns and the limits of the column types are
  parameters.  `shardOfString` and `shardOfUserid` are the positions that the two `get_dbpool` overloads
  compute from a shard key; where there is no pool at a position the call fails, and that the program then
  does anything is said in `Waspp.Model.Scopes`.
Imports: Mathlib.Data.List.Sort, Waspp.Foundation.Crc32, Waspp.Model.Config
Trusted boundary: human-reviewed translation of database.cpp and of the statements and the stored procedure
  of develop.sql
Main exports: UserRow, ForumRow, UniqueKey, Schema, World, shardOfString, shardOfUserid, Pick, DbCall,
  Answer, Reply, Mysql, serve, shippedWorld
Open obligations: none
-/
import Mathlib.Data.List.Sort
import Waspp.Foundation.Crc32
import Waspp.Model.Config

namespace Waspp

open CString Crc32

/-! ### Rows and tables -/

/-- A row of `users`, without its timestamps. -/
structure UserRow where
  userid : Nat
  platformid : Bytes
  username : Bytes
  passwd : Bytes
  platformtype : Int
deriving DecidableEq, Repr

/-- A row of `forum`, without its files and its insertion time. -/
structure ForumRow where
  seq : Nat
  title : Bytes
  content : Bytes
  userid : Nat
  username : Bytes
  updatetime : Bytes
deriving DecidableEq, Repr

/-- A row of `unique_keys`. -/
structure UniqueKey where
  tableId : Bytes
  incrAmount : Nat
  lastKey : Nat
deriving DecidableEq, Repr

/-- The tables of one database; a table that the database does not have is `none`. -/
structure Schema where
  uniqueKeys : List UniqueKey
  users : Option (List UserRow)
  forum : Option (List ForumRow)
deriving DecidableEq, Repr

/-- The databases behind the pools, in the order of the pools, and whether each coming call fails. -/
structure World where
  pools : List Schema
  outages : List Bool := []
deriving DecidableEq, Repr

/-- What the server's configuration decides. -/
structure Mysql where
  /-- The weight of a text under the collation of the text columns: two texts compare equal when their
      weights are equal. -/
  collate : Bytes → Bytes
  /-- Whether the column types of `users` take the row. -/
  acceptsUser : UserRow → Bool
  /-- Whether the column types of `forum` take the row. -/
  acceptsForum : ForumRow → Bool

/-! ### Shards -/

/-- The position that `get_dbpool(const std::string&)` takes. -/
def shardOfString (dbShardCount : Nat) (shardKey : Bytes) : Nat :=
  (crc32 shardKey).toNat % dbShardCount

/-- The position that `get_dbpool(uint64_t)` takes. -/
def shardOfUserid (dbShardCount shardKey : Nat) : Nat :=
  shardKey % dbShardCount

/-- The position of `dbname_type::db_etc`. -/
def dbEtc : Nat := 2

/-- What a handler constructs its `scoped_db` with: a `dbname_type`, which is a position, or a text, from
    whose checksum the position is taken. -/
inductive Pick where
  | dbname (pool : Nat)
  | shardKey (dbShardCount : Nat) (key : Bytes)
deriving DecidableEq, Repr

/-- The position that is picked. -/
def Pick.pool : Pick → Nat
  | .dbname pool => pool
  | .shardKey dbShardCount key => shardOfString dbShardCount key

/-- There is such a pool: nothing is divided by 0, and the position is one of the vector. -/
def Pick.Defined (pools : Nat) : Pick → Prop
  | .dbname pool => pool < pools
  | .shardKey dbShardCount key => dbShardCount ≠ 0 ∧ shardOfString dbShardCount key < pools

instance (pools : Nat) : (pick : Pick) → Decidable (pick.Defined pools)
  | .dbname pool => inferInstanceAs (Decidable (pool < pools))
  | .shardKey dbShardCount key =>
      inferInstanceAs (Decidable (dbShardCount ≠ 0 ∧ shardOfString dbShardCount key < pools))

/-! ### Calls -/

/-- An exchange with a server, at the pool of the given position. -/
inductive DbCall where
  /-- The construction of a `scoped_db`, which calls `get_dbconn()` of the pool that it picks. -/
  | checkout (pick : Pick)
  /-- `SELECT userid FROM users WHERE username = ?`. -/
  | selectUserid (pool : Nat) (username : Bytes)
  /-- `SELECT userid FROM users WHERE userid = ? AND passwd = ?`. -/
  | selectPasswd (pool : Nat) (userid : Nat) (passwd : Bytes)
  /-- `CALL USP_GET_UNIQUE_KEYS(tableId, amount)`. -/
  | uniqueKeys (pool : Nat) (tableId : Bytes) (amount : Nat)
  /-- `INSERT INTO users`. -/
  | insertUser (pool : Nat) (row : UserRow)
  /-- `SELECT COUNT(seq) AS total_count FROM forum`. -/
  | countForum (pool : Nat)
  /-- `SELECT * FROM forum ORDER BY seq DESC`. -/
  | selectForum (pool : Nat)
  /-- `INSERT INTO forum`. -/
  | insertForum (pool : Nat) (row : ForumRow)
  /-- `UPDATE forum SET title = ?, content = ?, username = ?, updatetime = NOW() WHERE seq = ? AND
      userid = ?`. -/
  | updateForum (pool : Nat) (title content username updatetime : Bytes) (seq userid : Nat)
deriving DecidableEq, Repr

/-- What a call returns: nothing, the selected `userid`s, the row of `unique_keys`, the number of affected or
    counted rows, or forum rows. -/
abbrev Answer : DbCall → Type
  | .checkout _ => Unit
  | .selectUserid .. => List Nat
  | .selectPasswd .. => List Nat
  | .uniqueKeys .. => Option Nat
  | .insertUser .. => Nat
  | .countForum _ => Nat
  | .selectForum _ => List ForumRow
  | .insertForum .. => Nat
  | .updateForum .. => Nat

instance : (q : DbCall) → DecidableEq (Answer q)
  | .checkout _ => inferInstanceAs (DecidableEq Unit)
  | .selectUserid .. => inferInstanceAs (DecidableEq (List Nat))
  | .selectPasswd .. => inferInstanceAs (DecidableEq (List Nat))
  | .uniqueKeys .. => inferInstanceAs (DecidableEq (Option Nat))
  | .insertUser .. => inferInstanceAs (DecidableEq Nat)
  | .countForum _ => inferInstanceAs (DecidableEq Nat)
  | .selectForum _ => inferInstanceAs (DecidableEq (List ForumRow))
  | .insertForum .. => inferInstanceAs (DecidableEq Nat)
  | .updateForum .. => inferInstanceAs (DecidableEq Nat)

/-- A call either returns or throws. -/
abbrev Reply (q : DbCall) : Type := Except Exn (Answer q)

/-- The error of a call that the server or the network refuses. -/
def dbError : Exn := .runtimeError (bytes "mysql error")

/-- The largest value of a `bigint unsigned` column and one more. -/
def keyLimit : Nat := 2 ^ 64

/-- Whether two texts compare equal. -/
def Mysql.equal (mysql : Mysql) (one two : Bytes) : Bool :=
  mysql.collate one = mysql.collate two

/-- The new row of a key row, `last_key + (incr_amount * in_key_amount)`. -/
def UniqueKey.advance (key : UniqueKey) (amount : Nat) : UniqueKey :=
  { key with lastKey := key.lastKey + key.incrAmount * amount }

/-- The rows of `unique_keys` after the procedure's `UPDATE`. -/
def Mysql.advanceKeys (mysql : Mysql) (keys : List UniqueKey) (tableId : Bytes) (amount : Nat) :
    List UniqueKey :=
  keys.map fun key => if mysql.equal key.tableId tableId then key.advance amount else key

/-- The row that the procedure's `SELECT` finds. -/
def Mysql.keyOf (mysql : Mysql) (keys : List UniqueKey) (tableId : Bytes) : Option UniqueKey :=
  keys.find? fun key => mysql.equal key.tableId tableId

/-- The unique keys of `users` that a new row would repeat. -/
def Mysql.clashes (mysql : Mysql) (row other : UserRow) : Bool :=
  row.userid = other.userid ||
    (mysql.equal row.platformid other.platformid && row.platformtype = other.platformtype) ||
    mysql.equal row.username other.username

/-- What a call does to the database behind its pool, and what it returns. -/
def performAt (mysql : Mysql) (schema : Schema) : (q : DbCall) → Reply q × Schema
  | .checkout _ => (.ok (), schema)
  | .selectUserid _ username =>
      match schema.users with
      | some rows =>
          (.ok ((rows.filter fun row => mysql.equal row.username username).map (·.userid)), schema)
      | none => (.error dbError, schema)
  | .selectPasswd _ userid passwd =>
      match schema.users with
      | some rows =>
          (.ok ((rows.filter fun row => row.userid = userid && mysql.equal row.passwd passwd).map
            (·.userid)), schema)
      | none => (.error dbError, schema)
  | .uniqueKeys _ tableId amount =>
      let keys := mysql.advanceKeys schema.uniqueKeys tableId amount
      if keys.all fun key => key.lastKey < keyLimit then
        (.ok ((mysql.keyOf keys tableId).map (·.lastKey)), { schema with uniqueKeys := keys })
      else (.error dbError, schema)
  | .insertUser _ row =>
      match schema.users with
      | some rows =>
          if mysql.acceptsUser row && !rows.any (mysql.clashes row) then
            (.ok (1 : Nat), { schema with users := some (rows ++ [row]) })
          else (.error dbError, schema)
      | none => (.error dbError, schema)
  | .countForum _ =>
      match schema.forum with
      | some rows => (.ok rows.length, schema)
      | none => (.error dbError, schema)
  | .selectForum _ =>
      match schema.forum with
      | some rows => (.ok (rows.mergeSort fun one two => two.seq ≤ one.seq), schema)
      | none => (.error dbError, schema)
  | .insertForum _ row =>
      match schema.forum with
      | some rows =>
          if mysql.acceptsForum row && !rows.any (fun other => other.seq = row.seq) then
            (.ok (1 : Nat), { schema with forum := some (rows ++ [row]) })
          else (.error dbError, schema)
      | none => (.error dbError, schema)
  | .updateForum _ title content username updatetime seq userid =>
      match schema.forum with
      | some rows =>
          let write (row : ForumRow) : ForumRow :=
            { row with title := title, content := content, username := username, updatetime := updatetime }
          let selected := rows.filter fun row => row.seq = seq ∧ row.userid = userid
          if selected.all fun row => mysql.acceptsForum (write row) then
            (.ok selected.length,
              { schema with
                forum := some (rows.map fun row =>
                  if row.seq = seq ∧ row.userid = userid then write row else row) })
          else (.error dbError, schema)
      | none => (.error dbError, schema)

/-- The pool that a call goes to. -/
def DbCall.pool : DbCall → Nat
  | .checkout pick => pick.pool
  | .selectUserid pool _ => pool
  | .selectPasswd pool _ _ => pool
  | .uniqueKeys pool _ _ => pool
  | .insertUser pool _ => pool
  | .countForum pool => pool
  | .selectForum pool => pool
  | .insertForum pool _ => pool
  | .updateForum pool _ _ _ _ _ _ => pool

/-- Serve one call: it fails when an outage is due, else it is performed on its pool's database. -/
def serve (mysql : Mysql) (q : DbCall) (world : World) : Reply q × World :=
  let world' := { world with outages := world.outages.tail }
  if world.outages.head?.getD false then (.error dbError, world')
  else
    match world.pools[q.pool]? with
    | some schema =>
        let (reply, schema) := performAt mysql schema q
        (reply, { world' with pools := world.pools.set q.pool schema })
    | none => (.error dbError, world')

/-- A call leaves the rows of `users` as they are, failing if it is an insertion, or it inserts a row that
    clashes with none. -/
theorem performAt_users (mysql : Mysql) (schema : Schema) (q : DbCall) :
    ((performAt mysql schema q).2.users = schema.users ∧
        ∀ pool row, q = .insertUser pool row → ∃ e, (performAt mysql schema q).1 = .error e) ∨
      ∃ pool row rows, q = .insertUser pool row ∧ schema.users = some rows ∧
        rows.any (mysql.clashes row) = false ∧
          (performAt mysql schema q).2.users = some (rows ++ [row]) := by
  by_cases insertion : ∃ pool row, q = .insertUser pool row
  · rcases insertion with ⟨pool, row, rfl⟩
    cases users : schema.users with
    | none => exact Or.inl ⟨by simp [performAt, users], fun _ _ _ => ⟨dbError, by simp [performAt, users]⟩⟩
    | some rows =>
        by_cases taken : (mysql.acceptsUser row && !rows.any (mysql.clashes row)) = true
        · refine Or.inr ⟨pool, row, rows, rfl, rfl, ?_, by simp [performAt, users, taken]⟩
          simpa using (Bool.and_eq_true_iff.mp taken).2
        · exact Or.inl ⟨by simp [performAt, users, taken],
            fun _ _ _ => ⟨dbError, by simp [performAt, users, taken]⟩⟩
  · refine Or.inl ⟨?_, fun pool row same => absurd ⟨pool, row, same⟩ insertion⟩
    cases q <;> simp only [performAt] <;> grind

/-- A call either fails and changes no table, or it is performed on the database of its pool. -/
theorem serve_cases (mysql : Mysql) (q : DbCall) (world : World) :
    (∃ e, (serve mysql q world).1 = .error e ∧ (serve mysql q world).2.pools = world.pools) ∨
      ∃ schema, world.pools[q.pool]? = some schema ∧
        (serve mysql q world).1 = (performAt mysql schema q).1 ∧
        (serve mysql q world).2.pools = world.pools.set q.pool (performAt mysql schema q).2 := by
  unfold serve
  split
  · exact Or.inl ⟨dbError, rfl, rfl⟩
  · cases found : world.pools[q.pool]? with
    | none => exact Or.inl ⟨dbError, rfl, rfl⟩
    | some schema => exact Or.inr ⟨schema, rfl, rfl, rfl⟩

/-- The rows of `users` behind a pool. -/
def usersOf (world : World) (pool : Nat) : Option (List UserRow) :=
  world.pools[pool]?.bind (·.users)

/-- A call leaves the rows of `users` everywhere as they are, failing if it is an insertion, or it inserts a
    row that clashes with none. -/
theorem serve_users (mysql : Mysql) (q : DbCall) (world : World) :
    ((∀ pool, usersOf (serve mysql q world).2 pool = usersOf world pool) ∧
        ∀ pool row, q = .insertUser pool row → ∃ e, (serve mysql q world).1 = .error e) ∨
      ∃ pool row rows, q = .insertUser pool row ∧ usersOf world pool = some rows ∧
        rows.any (mysql.clashes row) = false ∧ usersOf (serve mysql q world).2 pool = some (rows ++ [row]) ∧
        ∀ other, other ≠ pool → usersOf (serve mysql q world).2 other = usersOf world other := by
  rcases serve_cases mysql q world with ⟨e, reply, pools⟩ | ⟨schema, here, reply, pools⟩
  · exact Or.inl ⟨fun pool => by rw [usersOf, pools, usersOf], fun _ _ _ => ⟨e, reply⟩⟩
  · have inside : q.pool < world.pools.length := (List.getElem?_eq_some_iff.mp here).1
    have there : usersOf (serve mysql q world).2 q.pool = (performAt mysql schema q).2.users := by
      simp [usersOf, pools, inside]
    have elsewhere (other : Nat) (ne : other ≠ q.pool) :
        usersOf (serve mysql q world).2 other = usersOf world other := by
      simp [usersOf, pools, ne.symm]
    rcases performAt_users mysql schema q with
      ⟨kept, fails⟩ | ⟨pool, row, rows, rfl, users, distinct, inserted⟩
    · refine Or.inl ⟨fun pool => ?_, fun pool row same => reply ▸ fails pool row same⟩
      by_cases same : pool = q.pool
      · rw [same, there, kept, usersOf, here, Option.bind_some]
      · exact elsewhere pool same
    · refine Or.inr ⟨pool, row, rows, rfl, ?_, distinct, there.trans inserted, elsewhere⟩
      rw [usersOf, show world.pools[pool]? = some schema from here, Option.bind_some, users]

/-- The rows of `forum` behind a pool; a table that is not there has none. -/
def forumOf (world : World) (pool : Nat) : List ForumRow :=
  ((world.pools[pool]?).bind (·.forum)).getD []

/-- The number of rows of `forum` that a call wrote. -/
def writtenRows : (q : DbCall) → Reply q → Nat
  | .insertForum .., .ok affected => affected
  | .updateForum .., .ok affected => affected
  | _, _ => 0

/-- Whether a statement is about the row. -/
def DbCall.selects (row : ForumRow) : DbCall → Bool
  | .insertForum _ new => row.seq = new.seq
  | .updateForum _ _ _ _ _ seq userid => row.seq = seq ∧ row.userid = userid
  | _ => false

/-- The `userid` and the `username` that a statement binds. -/
def DbCall.bound : DbCall → Option (Nat × Bytes)
  | .insertForum _ row => some (row.userid, row.username)
  | .updateForum _ _ _ username _ _ userid => some (userid, username)
  | _ => none

/-- What a statement makes of the rows of `forum`. -/
inductive Rewrites : DbCall → Nat → List ForumRow → List ForumRow → Prop where
  | nothing {q : DbCall} {rows : List ForumRow} : Rewrites q 0 rows rows
  | inserts {pool : Nat} {row : ForumRow} {rows : List ForumRow}
      (new : ∀ other ∈ rows, other.seq ≠ row.seq) :
      Rewrites (.insertForum pool row) 1 rows (rows ++ [row])
  | updates {pool : Nat} {title content username updatetime : Bytes} {seq userid : Nat}
      {rows : List ForumRow} :
      Rewrites (.updateForum pool title content username updatetime seq userid)
        (rows.filter fun row => row.seq = seq ∧ row.userid = userid).length rows
        (rows.map fun row =>
          if row.seq = seq ∧ row.userid = userid then
            { row with title := title, content := content, username := username, updatetime := updatetime }
          else row)

/-- A statement that binds no owner leaves the rows of `forum` as they are. -/
theorem performAt_unbound (mysql : Mysql) (schema : Schema) {q : DbCall} (unbound : q.bound = none) :
    (performAt mysql schema q).2.forum = schema.forum := by
  cases q with
  | insertForum pool row => cases unbound
  | updateForum pool title content username updatetime seq userid => cases unbound
  | _ => simp only [performAt] <;> grind

/-- A statement changes the forum of a schema as it rewrites rows. -/
theorem performAt_forum (mysql : Mysql) (schema : Schema) (q : DbCall) :
    Rewrites q (writtenRows q (performAt mysql schema q).1) (schema.forum.getD [])
      ((performAt mysql schema q).2.forum.getD []) := by
  cases q with
  | insertForum pool row =>
      cases forum : schema.forum with
      | none => simpa [performAt, forum, writtenRows] using Rewrites.nothing
      | some rows =>
          by_cases taken : (mysql.acceptsForum row && !rows.any fun other => other.seq = row.seq) = true
          · have new : ∀ other ∈ rows, other.seq ≠ row.seq := by
              simpa using (Bool.and_eq_true_iff.mp taken).2
            simpa [performAt, forum, taken, writtenRows] using Rewrites.inserts new
          · simpa [performAt, forum, taken, writtenRows] using Rewrites.nothing
  | updateForum pool title content username updatetime seq userid =>
      cases forum : schema.forum with
      | none => simpa [performAt, forum, writtenRows] using Rewrites.nothing
      | some rows =>
          simp only [performAt, forum]
          split
          · exact Rewrites.updates
          · simpa [forum, writtenRows] using Rewrites.nothing
  | _ =>
      rw [performAt_unbound mysql schema rfl]
      exact .nothing

/-- A call rewrites the rows of `forum` behind its own pool. -/
theorem serve_forum (mysql : Mysql) (q : DbCall) (world : World) :
    Rewrites q (writtenRows q (serve mysql q world).1) (forumOf world q.pool)
      (forumOf (serve mysql q world).2 q.pool) ∧
      ∀ other, other ≠ q.pool → forumOf (serve mysql q world).2 other = forumOf world other := by
  rcases serve_cases mysql q world with ⟨e, reply, pools⟩ | ⟨schema, here, reply, pools⟩
  · have none : writtenRows q (serve mysql q world).1 = 0 := by
      rw [reply]
      cases q <;> rfl
    simp only [forumOf, pools, none]
    exact ⟨.nothing, fun _ _ => trivial⟩
  · have inside : q.pool < world.pools.length := (List.getElem?_eq_some_iff.mp here).1
    constructor
    · have there : forumOf (serve mysql q world).2 q.pool = (performAt mysql schema q).2.forum.getD [] := by
        simp [forumOf, pools, inside]
      rw [there, reply, forumOf, here]
      exact performAt_forum mysql schema q
    · intro other ne
      simp [forumOf, pools, ne.symm]

/-! ### The shipped databases -/

/-- A database that tells bytes apart and takes every row. -/
def plainMysql : Mysql := ⟨id, fun _ => true, fun _ => true⟩

/-- The key rows of the shipped shard `i`. -/
def shippedKeys (i : Nat) : List UniqueKey :=
  [⟨bytes "users", 2, i⟩, ⟨bytes "characters", 2, i⟩, ⟨bytes "char_name", 2, i⟩, ⟨bytes "char_inven", 2, i⟩]

/-- The databases that develop.sql creates: the two shards and the common one. -/
def shippedWorld : World :=
  { pools :=
      [⟨shippedKeys 0, some [], none⟩, ⟨shippedKeys 1, some [], none⟩,
        ⟨[⟨bytes "forum", 1, 1⟩], none, some []⟩] }

end Waspp
