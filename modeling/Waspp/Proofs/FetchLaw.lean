/-
Module: Waspp.Proofs.FetchLaw
Layer: Proofs
Purpose: When a fetch says truly that there is a row to read.  `fetch()` takes an error for a row, and
  `fetch(true)` returns true after its loop whatever the loop fetched; a loop `while (rs->fetch())`
  processes each row once and ends at the first call without a row exactly when no error comes before the
  end of the data (`fetch_law_iff`).
Imports: Waspp.Model.MysqlResult
Trusted boundary: none (fully proved)
Main exports: FetchLaw, FetchSafe, LoopLaw, LoopSafe, fetch_law_iff
Open obligations: none
-/
import Waspp.Model.MysqlResult

namespace Waspp.Mysqlpp

open CString

/-! ### What a fetch should do

A fetch is right when it returns true exactly for a row that the library put into the buffers.  A loop over a
result is right when it processes the rows up to the first call without one, each of them once. -/

/-- The call ends, and it returns true exactly when a row was put into the column buffers during it. -/
def FetchLaw (rounds : Nat) (proc : ProcCalls) (isProc : Bool) (rs : Result) : Prop :=
  (rs.fetch rounds proc isProc).1 ≠ .error .diverges ∧
    ∀ fetched, (rs.fetch rounds proc isProc).1 = .ok fetched →
      (fetched = true ↔ rs.rowsPut < (rs.fetch rounds proc isProc).2.rowsPut)

/-- The rows that the first calls of `mysql_stmt_fetch` put, up to one that puts none, and whether there was
    one. -/
def rowsUpTo : Nat → (Nat → Fetch) → List (List Column) × Bool
  | 0, _ => ([], false)
  | rounds + 1, calls =>
      if (calls 0).code.putsRow then
        let (rows, ended) := rowsUpTo rounds fun n => calls (n + 1)
        ((calls 0).row :: rows, ended)
      else ([], true)

/-- A loop `while (rs->fetch())` processes each row once, and ends at the first call without a row. -/
def LoopLaw (rs : Result) : Prop := ∀ rounds, rs.whileFetch rounds = rowsUpTo rounds rs.calls

/-! ### When it does

The conditions name the outcomes that the code takes for something else: an error counts as a row, and a
procedure whose result has no row is fetched as if it had one. -/

/-- `fetch()` meets no error; `fetch(true)` fetches a row first, or does not get to its loop, or fails behind
    it. -/
def FetchSafe (proc : ProcCalls) (isProc : Bool) (rs : Result) : Prop :=
  if isProc then
    proc.metadata = false ∨ proc.fields = [] ∨ proc.bound = false ∨ 0 < proc.nextResult ∨
      (rs.calls 0).code.putsRow = true
  else (rs.calls 0).code ≠ .error

/-- No error comes before the end of the data. -/
def LoopSafe (rs : Result) : Prop :=
  ∀ i, (rs.calls i).code = .error → ∃ j < i, (rs.calls j).code = .noData

namespace Result

/-- The result after a call that puts a row. -/
def afterRow (rs : Result) : Result :=
  { columns := (rs.calls 0).row, calls := fun n => rs.calls (n + 1), rowsPut := rs.rowsPut + 1 }

/-- A call that puts a row makes it the current one. -/
theorem stmtFetch_of_row {rs : Result} (row : (rs.calls 0).code.putsRow = true) :
    rs.stmtFetch = ((rs.calls 0).code, rs.afterRow) := by
  simp only [stmtFetch, row, if_true, afterRow]

/-- A call that puts none leaves the current row. -/
theorem stmtFetch_of_none {rs : Result} (none_ : (rs.calls 0).code.putsRow = false) :
    rs.stmtFetch = ((rs.calls 0).code, { rs with calls := fun n => rs.calls (n + 1) }) := by
  simp only [stmtFetch, none_, Bool.false_eq_true, if_false]

/-! ### A single call -/

/-- A row is announced and is there. -/
theorem fetchStmtResult_of_row {rs : Result} (row : (rs.calls 0).code.putsRow = true) :
    rs.fetchStmtResult = (true, rs.afterRow) := by
  unfold fetchStmtResult
  rw [stmtFetch_of_row row]
  cases code : (rs.calls 0).code with
  | success => rfl
  | dataTruncated => rfl
  | error => simp [code, FetchCode.putsRow] at row
  | noData => simp [code, FetchCode.putsRow] at row

/-- The end is announced. -/
theorem fetchStmtResult_of_noData {rs : Result} (noData : (rs.calls 0).code = .noData) :
    rs.fetchStmtResult = (false, { rs with calls := fun n => rs.calls (n + 1) }) := by
  unfold fetchStmtResult
  rw [stmtFetch_of_none (by rw [noData]; rfl), noData]

/-- An error is announced as if it were a row. -/
theorem fetchStmtResult_of_error {rs : Result} (error : (rs.calls 0).code = .error) :
    rs.fetchStmtResult = (true, { rs with calls := fun n => rs.calls (n + 1) }) := by
  unfold fetchStmtResult
  rw [stmtFetch_of_none (by rw [error]; rfl), error]

/-- A call puts a row, or there is no more, or it fails. -/
theorem call_cases (rs : Result) :
    (rs.calls 0).code.putsRow = true ∨ (rs.calls 0).code = .noData ∨ (rs.calls 0).code = .error := by
  cases (rs.calls 0).code with
  | success => exact Or.inl rfl
  | dataTruncated => exact Or.inl rfl
  | noData => exact Or.inr (Or.inl rfl)
  | error => exact Or.inr (Or.inr rfl)

/-- An outcome with a row is neither an error nor the end. -/
theorem ne_error_of_row {rs : Result} (row : (rs.calls 0).code.putsRow = true) :
    (rs.calls 0).code ≠ .error ∧ (rs.calls 0).code ≠ .noData := by
  constructor
  · intro error
    rw [error] at row
    cases row
  · intro noData
    rw [noData] at row
    cases row

end Result

/-- `fetch()` obeys the law exactly when it meets no error. -/
theorem stmt_law_iff (rounds : Nat) (proc : ProcCalls) (rs : Result) :
    FetchLaw rounds proc false rs ↔ FetchSafe proc false rs := by
  have law : FetchLaw rounds proc false rs ↔
      (rs.fetchStmtResult.1 = true ↔ rs.rowsPut < rs.fetchStmtResult.2.rowsPut) := by
    simp [FetchLaw, Result.fetch]
  have safe : FetchSafe proc false rs ↔ (rs.calls 0).code ≠ .error := by
    simp [FetchSafe]
  rw [law, safe]
  rcases rs.call_cases with row | noData | error
  · rw [Result.fetchStmtResult_of_row row]
    exact iff_of_true (by simp [Result.afterRow]) (Result.ne_error_of_row row).1
  · rw [Result.fetchStmtResult_of_noData noData, noData]
    simp
  · rw [Result.fetchStmtResult_of_error error, error]
    simp

/-! ### The loop of `fetch(true)` -/

/-- A round of the loop that fetches a row. -/
theorem fetchAll_of_row {rs : Result} (row : (rs.calls 0).code.putsRow = true) (rounds : Nat) :
    rs.fetchAll (rounds + 1) = rs.afterRow.fetchAll rounds := by
  rw [Result.fetchAll, Result.stmtFetch_of_row row]
  cases code : (rs.calls 0).code with
  | success => rfl
  | dataTruncated => rfl
  | error => exact absurd code (Result.ne_error_of_row row).1
  | noData => exact absurd code (Result.ne_error_of_row row).2

/-- The loop ends at the first call without a row; it has fetched one exactly when the first call puts one.
    -/
theorem fetchAll_spec {rounds : Nat} {rs : Result} (ends : ∃ n < rounds, (rs.calls n).code.putsRow = false) :
    ∃ rs', rs.fetchAll rounds = (.ok (), rs') ∧ rs.rowsPut ≤ rs'.rowsPut ∧
      (rs.rowsPut < rs'.rowsPut ↔ (rs.calls 0).code.putsRow = true) := by
  induction rounds generalizing rs with
  | zero =>
      obtain ⟨n, impossible, -⟩ := ends
      omega
  | succ rounds ih =>
      cases code : (rs.calls 0).code.putsRow with
      | true =>
          obtain ⟨n, small, none_⟩ := ends
          have ends' : ∃ n < rounds, (rs.afterRow.calls n).code.putsRow = false := by
            cases n with
            | zero => simp [code] at none_
            | succ n => exact ⟨n, by omega, none_⟩
          obtain ⟨rs', fetched, more, -⟩ := ih ends'
          have grown : rs.rowsPut < rs'.rowsPut := more
          exact ⟨rs', by rw [fetchAll_of_row code, fetched], Nat.le_of_lt grown, iff_of_true grown rfl⟩
      | false =>
          rw [Result.fetchAll, Result.stmtFetch_of_none code]
          refine ⟨{ rs with calls := fun n => rs.calls (n + 1) }, ?_, Nat.le_refl _, by simp⟩
          rcases rs.call_cases with row | noData | error
          · simp [code] at row
          · rw [noData]
          · rw [error]

/-- Of a procedure the law holds exactly when the condition does. -/
theorem proc_law_iff {rounds : Nat} (proc : ProcCalls) {rs : Result}
    (ends : ∃ n < rounds, (rs.calls n).code.putsRow = false) :
    FetchLaw rounds proc true rs ↔ FetchSafe proc true rs := by
  have call : rs.fetch rounds proc true = rs.fetchProcResult rounds proc := by
    simp [Result.fetch]
  unfold FetchLaw FetchSafe
  rw [call, if_pos rfl]
  unfold Result.fetchProcResult
  cases metadata : proc.metadata with
  | false => simp
  | true =>
      by_cases fields : proc.fields = []
      · simp [Result.bind, fields]
      · cases bound : proc.bound with
        | false => simp [Result.bind, fields, bound]
        | true =>
            obtain ⟨rs', fetched, -, row⟩ := @fetchAll_spec rounds
              { rs with columns := proc.fields.map fun field =>
                  { name := field.1, buffer := List.replicate field.2 0 } } ends
            by_cases next : 0 < proc.nextResult
            · simp [Result.bind, fields, bound, fetched, next]
            · simp [Result.bind, fields, bound, fetched, next, row]

/-! ### The loop over a result -/

/-- A round that fetches a row. -/
theorem whileFetch_of_row {rs : Result} (row : (rs.calls 0).code.putsRow = true) (rounds : Nat) :
    rs.whileFetch (rounds + 1) =
      ((rs.calls 0).row :: (rs.afterRow.whileFetch rounds).1, (rs.afterRow.whileFetch rounds).2) := by
  rw [Result.whileFetch, Result.fetchStmtResult_of_row row]
  rfl

/-- A row comes before the rows of the later calls. -/
theorem rowsUpTo_of_row {calls : Nat → Fetch} (row : (calls 0).code.putsRow = true) (rounds : Nat) :
    rowsUpTo (rounds + 1) calls =
      ((calls 0).row :: (rowsUpTo rounds fun n => calls (n + 1)).1,
        (rowsUpTo rounds fun n => calls (n + 1)).2) := by
  rw [rowsUpTo, if_pos row]

/-- Without an error the loop gives the rows of the result. -/
theorem loopLaw_of_safe {rs : Result} (safe : LoopSafe rs) : LoopLaw rs := by
  intro rounds
  induction rounds generalizing rs with
  | zero => rfl
  | succ rounds ih =>
      rcases rs.call_cases with row | noData | error
      · have safe' : LoopSafe rs.afterRow := by
          intro i error
          obtain ⟨j, before, noData⟩ := safe (i + 1) error
          cases j with
          | zero => exact absurd noData (Result.ne_error_of_row row).2
          | succ j => exact ⟨j, by omega, noData⟩
        rw [whileFetch_of_row row, rowsUpTo_of_row row, ih safe']
        rfl
      · rw [Result.whileFetch, Result.fetchStmtResult_of_noData noData, rowsUpTo, noData]
        rfl
      · obtain ⟨j, impossible, -⟩ := safe 0 error
        omega

/-- With an error the loop processes the columns once more. -/
theorem loopSafe_of_law {rs : Result} (law : LoopLaw rs) : LoopSafe rs := by
  intro i error
  induction i generalizing rs with
  | zero =>
      -- the body runs once more, on the columns of the row before
      have once := congrArg Prod.snd (law 1)
      rw [Result.whileFetch, Result.fetchStmtResult_of_error error, rowsUpTo, error] at once
      cases once
  | succ i ih =>
      rcases rs.call_cases with row | noData | error'
      · have law' : LoopLaw rs.afterRow := by
          intro rounds
          have here := law (rounds + 1)
          rw [whileFetch_of_row row, rowsUpTo_of_row row] at here
          obtain ⟨rows, ended⟩ := Prod.mk.inj here
          exact Prod.ext (List.cons.inj rows).2 ended
        obtain ⟨j, before, noData⟩ := ih law' error
        exact ⟨j + 1, by omega, noData⟩
      · exact ⟨0, by omega, noData⟩
      · have once := congrArg Prod.snd (law 1)
        rw [Result.whileFetch, Result.fetchStmtResult_of_error error', rowsUpTo, error'] at once
        cases once

/-- For every result set, each kind of fetch and each loop: the law holds exactly under these conditions. -/
theorem fetch_law_iff {rounds : Nat} (proc : ProcCalls) (isProc : Bool) {rs : Result}
    (ends : ∃ n < rounds, (rs.calls n).code.putsRow = false) :
    (FetchLaw rounds proc isProc rs ↔ FetchSafe proc isProc rs) ∧ (LoopLaw rs ↔ LoopSafe rs) := by
  constructor
  · cases isProc with
    | false => exact stmt_law_iff rounds proc rs
    | true => exact proc_law_iff proc ends
  · exact ⟨loopSafe_of_law, loopLaw_of_safe⟩

/-! ### An error and an empty procedure result -/

/-- Each call fails. -/
def failing : Result := { columns := [⟨bytes "seq", [7], 0⟩], calls := fun _ => { code := .error } }

/-- A procedure with one column that selects no row. -/
def emptyProc : ProcCalls where
  metadata := true
  fields := [(bytes "last_key", 20)]
  bound := true
  nextResult := 0
  error := []

/-- The error is taken for a row, in a loop again and again, and the empty result for a row with the key 0.
    -/
theorem errors_taken_for_rows :
    ¬ FetchLaw 1 emptyProc false failing ∧ ¬ LoopLaw failing ∧
      (∀ rounds, failing.whileFetch rounds = (List.replicate rounds failing.columns, false)) ∧
      ¬ FetchLaw 1 emptyProc true { columns := [] } ∧
      (Result.fetch 1 emptyProc true { columns := [] }).2.get .uint32 (.name (bytes "last_key")) =
      .ok 0 := by
  refine ⟨?_, ?_, ?_, ?_, by decide⟩
  · intro law
    exact absurd ((law.2 true rfl).mp rfl) (by decide)
  · intro law
    exact absurd (congrArg Prod.snd (law 1)) (by decide)
  · intro rounds
    induction rounds with
    | zero => rfl
    | succ rounds ih =>
        rw [Result.whileFetch, Result.fetchStmtResult_of_error rfl]
        exact congrArg (fun loop => (failing.columns :: loop.1, loop.2)) ih
  · intro law
    exact absurd ((law.2 true rfl).mp rfl) (by decide)

/-- A result of one row, fetched with `fetch(true)`. -/
theorem fetch_law_iff_row :
    FetchLaw 2 emptyProc true
      { columns := [], calls := fun n => if n = 0 then ⟨.success,
        [⟨bytes "last_key", [5], 0⟩]⟩ else ⟨.noData, []⟩ } :=
  ((fetch_law_iff emptyProc true ⟨1, by decide, rfl⟩).1).mpr (by simp [FetchSafe, FetchCode.putsRow])

end Waspp.Mysqlpp
