/-
Module: Waspp.Proofs.ShardLookup
Layer: Proofs
Purpose: When the lookup of a shard is defined.  `init` makes one pool for each name and takes the count
  from the configuration without comparing the two; every key finds a pool exactly when the count is
  positive and not larger than the number of names (`shard_lookup_defined_iff`).
Imports: Waspp.Model.Pools
Trusted boundary: none (fully proved)
Main exports: initSharded_spec, select_defined_iff, shard_lookup_defined_iff
Open obligations: none
-/
import Waspp.Model.Pools

namespace Waspp

open CString Crc32

/-- The count that the configuration gives a component, as an `unsigned int`. -/
def configuredCount (kind : ShardedKind) (cfg : Sections) : Nat :=
  wrapUnsigned (strtoul (((List.lookup kind.sectionName cfg).bind (List.lookup kind.countKey)).getD []))

/-! ### What `init` leaves

`init` makes one pool for each name and takes the count from the configuration as an `unsigned int`.  It does
not compare the two. -/

/-- `init` makes a pool for each name. -/
theorem initPools_length {kind : ShardedKind} {cfg : Sections} {dial : Dial} {names : List Bytes}
    {before pools : List ConnPool} (made : initPools kind cfg dial names before = .ok (some pools)) :
    pools.length = before.length + names.length := by
  induction names generalizing before with
  | nil =>
      cases made
      rfl
  | cons name names ih =>
      unfold initPools at made
      cases found : cfg.get name with
      | error e => simp [found, bind, Except.bind] at made
      | ok items =>
          simp only [found, bind, Except.bind] at made
          split at made
          · cases made
          · rename_i pool _
            cases filled : fillPool dial pool with
            | error e => simp [filled] at made
            | ok result =>
                cases result with
                | none => simp [filled, pure, Except.pure] at made
                | some pool' =>
                    simp only [filled] at made
                    have length := ih made
                    simp only [List.length_append, List.length_singleton] at length
                    rw [List.length_cons]
                    omega

/-- A component that started has the configured count and a pool for each name. -/
theorem initSharded_spec {kind : ShardedKind} {cfg : Sections} {dial : Dial} {names : List Bytes}
    {s : Sharded} (started : initSharded kind cfg dial names = .ok (some s)) :
    s.shardCount = configuredCount kind cfg ∧ s.pools.length = names.length := by
  unfold initSharded Sections.get at started
  cases section_ : List.lookup kind.sectionName cfg with
  | none => simp [section_, bind, Except.bind] at started
  | some items =>
      simp only [section_, bind, Except.bind] at started
      split at started
      · rename_i count format countFound formatFound
        cases made : initPools kind cfg dial names [] with
        | error e => simp [made] at started
        | ok result =>
            cases result with
            | none => simp [made, pure, Except.pure] at started
            | some pools =>
                simp only [made, pure, Except.pure, Except.ok.injEq, Option.some.injEq] at started
                subst started
                exact ⟨by simp [configuredCount, section_, countFound], by simpa using initPools_length made⟩
      · cases started

/-- An `unsigned int` is below its bound. -/
theorem wrapUnsigned_lt (n : Nat) : wrapUnsigned n < 2 ^ 32 :=
  Nat.mod_lt _ (by decide)

theorem configuredCount_lt (kind : ShardedKind) (cfg : Sections) : configuredCount kind cfg < 2 ^ 32 :=
  wrapUnsigned_lt _

/-! ### Lookups

A key selects the pool of its remainder, which is there or not. -/

/-- A lookup is defined when the count is not 0 and the pool is there. -/
theorem select_returns_iff (s : Sharded) (key : Nat) :
    Returns (s.select key) ↔ s.shardCount ≠ 0 ∧ key % s.shardCount < s.pools.length := by
  unfold Sharded.select
  by_cases zero : s.shardCount = 0
  · simp [zero]
  · cases found : s.pools[key % s.shardCount]? with
    | none => simpa [zero, found] using List.getElem?_eq_none_iff.mp found
    | some pool => simpa [zero, found] using (List.getElem?_eq_some_iff.mp found).1

/-- Both lookups are defined at every key exactly when the count is between one and the number of pools. -/
theorem select_defined_iff {s : Sharded} (bounded : s.shardCount < 2 ^ 32) :
    ((∀ key : UInt64, Returns (s.select key.toNat)) ∧ ∀ key : Bytes, Returns (s.select (crc32 key).toNat)) ↔
      0 < s.shardCount ∧ s.shardCount ≤ s.pools.length := by
  simp only [select_returns_iff]
  constructor
  · intro defined
    have positive := (defined.1 0).1
    refine ⟨Nat.pos_of_ne_zero positive, ?_⟩
    -- the last index below the count is the remainder of a key
    have last := (defined.1 (UInt64.ofNat (s.shardCount - 1))).2
    rw [UInt64.toNat_ofNat', Nat.mod_eq_of_lt (by omega), Nat.mod_eq_of_lt (by omega)] at last
    omega
  · intro range
    have inside (key : Nat) : s.shardCount ≠ 0 ∧ key % s.shardCount < s.pools.length :=
      ⟨Nat.ne_of_gt range.1, Nat.lt_of_lt_of_le (Nat.mod_lt _ range.1) range.2⟩
    exact ⟨fun key => inside _, fun key => inside _⟩

/-- A component that started finds a pool for every key exactly when its configured count is between one and
    the number of names that it was given. -/
theorem started_lookup_defined_iff {kind : ShardedKind} {cfg : Sections} {dial : Dial} {names : List Bytes}
    {s : Sharded} (started : initSharded kind cfg dial names = .ok (some s)) :
    ((∀ key : UInt64, Returns (s.select key.toNat)) ∧ ∀ key : Bytes, Returns (s.select (crc32 key).toNat)) ↔
      0 < configuredCount kind cfg ∧ configuredCount kind cfg ≤ names.length := by
  rcases initSharded_spec started with ⟨count, length⟩
  rw [← count, ← length]
  apply select_defined_iff
  rw [count]
  exact configuredCount_lt kind cfg

/-- With the pools that main asks for, every key finds its database exactly when the database count is
    between one and three, and every key finds its redis pool exactly when the redis count is one. -/
theorem shard_lookup_defined_iff (cfg : Sections) (dial : Dial) :
    (∀ db, Database.init cfg dial Database.dbnames = .ok (some db) →
        (((∀ key, Returns (Database.getDbpool db key)) ∧
          ∀ key, Returns (Database.getDbpoolOfString db key)) ↔
          0 < configuredCount Database.kind cfg ∧ configuredCount Database.kind cfg ≤ 3)) ∧
      ∀ rd, Redis.init cfg dial Redis.rdnames = .ok (some rd) →
        (((∀ key, Returns (Redis.getRdpool rd key)) ∧ ∀ key, Returns (Redis.getRdpoolOfString rd key)) ↔
          0 < configuredCount Redis.kind cfg ∧ configuredCount Redis.kind cfg ≤ 1) :=
  ⟨fun _ started => started_lookup_defined_iff started, fun _ started => started_lookup_defined_iff started⟩

/-- The database that the shipped configuration starts. -/
def shippedDb : Sharded :=
  ⟨2, bytes "db_%03d",
    [⟨shippedDatabase (bytes "develop_waspp_000"), 4, 4⟩,
      ⟨shippedDatabase (bytes "develop_waspp_001"), 4, 4⟩,
      ⟨shippedDatabase (bytes "develop_waspp_etc"), 4, 4⟩]⟩

/-- In the shipped configuration every key finds its database. -/
theorem shard_lookup_defined_iff_shipped :
    (∀ key, Returns (Database.getDbpool shippedDb key)) ∧
    ∀ key, Returns (Database.getDbpoolOfString shippedDb key) :=
  ((shard_lookup_defined_iff shippedSections fun _ _ => .ok true).1 shippedDb (by decide +kernel)).mpr
    (by decide +kernel)

/-- In the shipped configuration `redis` starts with one pool and the count two, and the key 1 has no pool.
    -/
theorem shipped_redis_lookup_undefined :
    ∃ rd, Redis.init shippedSections (fun _ _ => .ok true) Redis.rdnames = .ok (some rd) ∧
      Redis.getRdpool rd 1 = .error .undefinedBehaviour :=
  ⟨⟨2, bytes "rd_%03d",
      [⟨[(bytes "host", bytes "127.0.0.1"), (bytes "port", bytes "6379"), (bytes "pool_size", bytes "4"),
          (bytes "timeout_sec", bytes "0")], 4, 4⟩]⟩,
    by decide +kernel⟩

end Waspp
