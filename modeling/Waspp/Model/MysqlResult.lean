/-
Module: Waspp.Model.MysqlResult
Layer: Model
Purpose: A `mysqlpp::result`.  A fetch puts a row into the column buffers, and `get` converts the bytes of a
  column to an integer, in one overload of `set_value` for each type.  What the client library does is a
  parameter: the list of outcomes of the coming calls of `mysql_stmt_fetch`, each with the columns as it
  leaves them, and the results of the other calls that `fetch_proc_result` makes.
Imports: Waspp.Foundation.LittleEndian, Waspp.Model.Utility
Trusted boundary: human-reviewed translation of mysqlpp_result.cpp and of result::get in mysqlpp.hpp, on a
  little-endian machine with signed `char`
Main exports: Column, IntType, ColumnKey, Fetch, Result, Result.get, Result.fetch, Result.whileFetch
Open obligations: none
-/
import Waspp.Foundation.LittleEndian
import Waspp.Model.Utility

namespace Waspp.Mysqlpp

open CString

/-! ### Integer types -/

/-- The integer types that `set_value` has an overload for. -/
inductive IntType where
  | int8
  | uint8
  | int16
  | uint16
  | int32
  | uint32
  | int64
  | uint64
deriving DecidableEq, Repr

namespace IntType

def bits : IntType → Nat
  | int8 => 8
  | uint8 => 8
  | int16 => 16
  | uint16 => 16
  | int32 => 32
  | uint32 => 32
  | int64 => 64
  | uint64 => 64

def signed : IntType → Bool
  | int8 => true
  | uint8 => false
  | int16 => true
  | uint16 => false
  | int32 => true
  | uint32 => false
  | int64 => true
  | uint64 => false

/-- `sizeof`. -/
def size (type : IntType) : Nat := type.bits / 8

/-- `static_cast` of an integer. -/
def cast (type : IntType) (z : Int) : Int :=
  if type.signed then LittleEndian.wrapSigned type.bits z else LittleEndian.wrapUnsigned type.bits z

end IntType

/-! ### Columns -/

/-- A column with its name, its buffer and its NULL flag. -/
structure Column where
  name : Bytes
  buffer : Bytes
  isNull : UInt8 := 0
deriving DecidableEq, Repr

namespace Column

/-- `column.buffer.front()`, undefined on an empty buffer. -/
def front (column : Column) : Except Fault Int :=
  match column.buffer with
  | [] => .error .undefinedBehaviour
  | c :: _ => .ok (charInt c)

/-- `*reinterpret_cast<T*>(&column.buffer.front())`, undefined on a buffer shorter than the type. -/
def reinterpret (column : Column) (type : IntType) : Except Fault Int :=
  if type.size ≤ column.buffer.length then
    .ok (type.cast (LittleEndian.read (column.buffer.take type.size)))
  else .error .undefinedBehaviour

end Column

/-- `set_value(column, value)`, the overload for each type. -/
def setValue (column : Column) : IntType → Except Fault Int
  | .int8 => column.front.map (IntType.cast .int8)
  | .uint8 => column.front.map (IntType.cast .uint8)
  | .int16 => column.front.map (IntType.cast .int16)
  | .uint16 => column.front.map (IntType.cast .uint16)
  | .int32 => column.front.map (IntType.cast .int32)
  | .uint32 => column.front.map (IntType.cast .uint32)
  | .int64 => column.reinterpret .int64
  | .uint64 => column.reinterpret .uint64

/-! ### Results -/

/-- What `mysql_stmt_fetch` returns: 0, 1, `MYSQL_NO_DATA` or `MYSQL_DATA_TRUNCATED`. -/
inductive FetchCode where
  | success
  | error
  | noData
  | dataTruncated
deriving DecidableEq, Repr

/-- With these codes a row has been put into the bound buffers. -/
def FetchCode.putsRow : FetchCode → Bool
  | .success => true
  | .error => false
  | .noData => false
  | .dataTruncated => true

/-- A call of `mysql_stmt_fetch`: its code, and the columns as it leaves them when it puts a row. -/
structure Fetch where
  code : FetchCode
  row : List Column := []
deriving DecidableEq, Repr

/-- A result.  `field_count` is the number of columns: without any field `bind` keeps the old columns, but
    then no access gets at them. -/
structure Result where
  columns : List Column
  /-- The coming calls of `mysql_stmt_fetch`. -/
  calls : Nat → Fetch := fun _ => { code := .noData }
  /-- How many rows have been put into the buffers. -/
  rowsPut : Nat := 0

/-- How a caller names a column. -/
inductive ColumnKey where
  | index (i : Nat)
  | name (name : Bytes)
deriving DecidableEq, Repr

namespace Result

/-- `get_column(index)` and `get_column(name)`. -/
def getColumn (rs : Result) : ColumnKey → Except Fault Column
  | .index i =>
      match rs.columns[i]? with
      | some column => .ok column
      | none => .error (.thrown (.runtimeError (bytes "invalid column_index")))
  | .name name =>
      match rs.columns.find? (·.name == name) with
      | some column => .ok column
      | none => .error (.thrown (.runtimeError (bytes "invalid column_name")))

/-- `get<T>(index)` and `get<T>(name)`. -/
def get (rs : Result) (type : IntType) (key : ColumnKey) : Except Fault Int := do
  let column ← rs.getColumn key
  if column.isNull ≠ 0 then .error (.thrown (.runtimeError (bytes "null value field")))
  else setValue column type

/-- `mysql_stmt_fetch(stmt)`. -/
def stmtFetch (rs : Result) : FetchCode × Result :=
  let call := rs.calls 0
  let calls := fun n => rs.calls (n + 1)
  if call.code.putsRow then
    (call.code, { columns := call.row, calls := calls, rowsPut := rs.rowsPut + 1 })
  else (call.code, { rs with calls := calls })

/-- `fetch_stmt_result()`. -/
def fetchStmtResult (rs : Result) : Bool × Result :=
  match rs.stmtFetch with
  | (.noData, rs) => (false, rs)
  | (_, rs) => (true, rs)

end Result

/-- The other calls that `fetch_proc_result` makes: whether there is metadata, the fields with their lengths,
    whether the buffers can be bound, what `mysql_stmt_next_result` returns, and the text of an error. -/
structure ProcCalls where
  metadata : Bool
  fields : List (Bytes × Nat)
  bound : Bool
  nextResult : Int
  error : Bytes

namespace Result

/-- `bind()`: the columns get buffers of zeros. -/
def bind (proc : ProcCalls) (rs : Result) : Except Fault Bool × Result :=
  if proc.fields.isEmpty then (.ok false, { rs with columns := [] })
  else
    let columns := proc.fields.map fun field =>
      { name := field.1, buffer := List.replicate field.2 0 }
    let rs := { rs with columns := columns }
    if proc.bound then (.ok true, rs) else (.error (.thrown (.runtimeError proc.error)), rs)

/-- The loop of `fetch_proc_result`. -/
def fetchAll : Nat → Result → Except Fault Unit × Result
  | 0, rs => (.error .diverges, rs)
  | rounds + 1, rs =>
      match rs.stmtFetch with
      | (.error, rs) => (.ok (), rs)
      | (.noData, rs) => (.ok (), rs)
      | (_, rs) => fetchAll rounds rs

/-- `fetch_proc_result()`. -/
def fetchProcResult (rounds : Nat) (proc : ProcCalls) (rs : Result) : Except Fault Bool × Result :=
  if proc.metadata then
    match rs.bind proc with
    | (.error fault, rs) => (.error fault, rs)
    | (.ok false, rs) => (.ok false, rs)
    | (.ok true, rs) =>
        match fetchAll rounds rs with
        | (.error fault, rs) => (.error fault, rs)
        | (.ok (), rs) =>
            if proc.nextResult > 0 then (.error (.thrown (.runtimeError proc.error)), rs) else (.ok true, rs)
  else (.error (.thrown (.runtimeError proc.error)), rs)

/-- `fetch(is_proc)`. -/
def fetch (rounds : Nat) (proc : ProcCalls) (isProc : Bool) (rs : Result) : Except Fault Bool × Result :=
  if isProc then rs.fetchProcResult rounds proc
  else
    let (fetched, rs) := rs.fetchStmtResult
    (.ok fetched, rs)

/-- The first rounds of a loop `while (rs->fetch())`: the columns that its body reads in each of them, and
    whether the loop has ended. -/
def whileFetch : Nat → Result → List (List Column) × Bool
  | 0, _ => ([], false)
  | rounds + 1, rs =>
      match rs.fetchStmtResult with
      | (false, _) => ([], true)
      | (true, rs) =>
          let (rows, ended) := whileFetch rounds rs
          (rs.columns :: rows, ended)

end Result

end Waspp.Mysqlpp
