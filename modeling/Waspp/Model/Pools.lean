/-
Module: Waspp.Model.Pools
Layer: Model
Purpose: How the two components over pooled connections start and pick a pool.  `database` and `redis` read
  their section of the configuration the same way and differ in its names, in what a pool asks for and in
  the list of pools that main passes.  Whether a connection that a pool opens answers is decided outside, by
  `dial`; the index taken into the vector of pools is a call that may be undefined.
Imports: Waspp.Model.Database
Trusted boundary: human-reviewed translation of config::get, database.cpp, redis.cpp, dbconn_pool.cpp and
  redis_pool.cpp, as far as they fill the vectors of pools and index them
Main exports: Sections, ConnPool, Sharded, ShardedKind, initSharded, Database.init, Database.getDbpool,
  Redis.init, Redis.getRdpool, shippedSections
Open obligations: none
-/
import Waspp.Model.Database

namespace Waspp

open CString Crc32

/-! ### The configuration -/

/-- The items of one section; of two items with one key the first is kept. -/
abbrev Items := List (Bytes × Bytes)

/-- The sections of the configuration file. -/
abbrev Sections := List (Bytes × Items)

/-- `config::get(item)`. -/
def Sections.get (cfg : Sections) (item : Bytes) : Except Exn Items :=
  match List.lookup item cfg with
  | some items => .ok items
  | none => .error (.runtimeError (bytes "config::get failed"))

/-! ### Pools -/

/-- A pool of connections. -/
structure ConnPool where
  /-- The items that `init_pool` copied. -/
  settings : Items
  poolSize : Nat
  /-- The number of connections in `pool`. -/
  filled : Nat
deriving DecidableEq, Repr

/-- `init_pool(cfg)`, for a pool that asks for `keys`; `none` when it returns false. -/
def initPool (keys : List Bytes) (cfg : Items) : Option ConnPool := do
  let settings ← keys.mapM fun key => (List.lookup key cfg).map fun value => (key, value)
  let poolSize := strtoul ((List.lookup (bytes "pool_size") settings).getD [])
  return { settings := settings, poolSize := poolSize, filled := 0 }

/-- A connection opened for a pool as the pool's `i`-th: it throws, or it answers or not. -/
abbrev Dial := Items → Nat → Except Exn Bool

/-- The loop of `fill_pool()`, with the rounds left. -/
def fillFrom (dial : Dial) : Nat → ConnPool → Except Exn (Option ConnPool)
  | 0, pool => .ok (some pool)
  | rounds + 1, pool => do
      if ← dial pool.settings pool.filled then fillFrom dial rounds { pool with filled := pool.filled + 1 }
      else return none

/-- `fill_pool()`; `none` when it returns false. -/
def fillPool (dial : Dial) (pool : ConnPool) : Except Exn (Option ConnPool) :=
  if pool.poolSize = 0 then .ok none else fillFrom dial pool.poolSize pool

/-! ### Components -/

/-- The members of `database`, and of `redis`. -/
structure Sharded where
  /-- An `unsigned int`. -/
  shardCount : Nat
  shardFormat : Bytes
  pools : List ConnPool
deriving DecidableEq, Repr

/-- What the two components call their settings. -/
structure ShardedKind where
  sectionName : Bytes
  countKey : Bytes
  formatKey : Bytes
  poolKeys : List Bytes

/-- The loop of `init` over the names of pools; `none` when it returns false. -/
def initPools (kind : ShardedKind) (cfg : Sections) (dial : Dial) :
    List Bytes → List ConnPool → Except Exn (Option (List ConnPool))
  | [], pools => .ok (some pools)
  | name :: names, pools => do
      match initPool kind.poolKeys (← cfg.get name) with
      | none => return none
      | some pool =>
          match ← fillPool dial pool with
          | none => return none
          | some pool => initPools kind cfg dial names (pools ++ [pool])

/-- `init(names)` of either component: the members it leaves, or `none` when it returns false. -/
def initSharded (kind : ShardedKind) (cfg : Sections) (dial : Dial) (names : List Bytes) :
    Except Exn (Option Sharded) := do
  let items ← cfg.get kind.sectionName
  match List.lookup kind.countKey items, List.lookup kind.formatKey items with
  | some count, some format =>
      match ← initPools kind cfg dial names [] with
      | some pools =>
          return some { shardCount := wrapUnsigned (strtoul count), shardFormat := format, pools := pools }
      | none => return none
  | _, _ => return none

/-- `*pools[key % shard_count]`. -/
def Sharded.select (s : Sharded) (key : Nat) : Except Fault ConnPool :=
  if s.shardCount = 0 then .error .undefinedBehaviour
  else
    match s.pools[key % s.shardCount]? with
    | some pool => .ok pool
    | none => .error .undefinedBehaviour

namespace Database

/-- The settings of `database`. -/
def kind : ShardedKind where
  sectionName := bytes "db_shard"
  countKey := bytes "db_shard_count"
  formatKey := bytes "db_shard_format"
  poolKeys :=
    [bytes "host", bytes "userid", bytes "passwd", bytes "database", bytes "port", bytes "charset",
      bytes "pool_size", bytes "wait_timeout_sec"]

/-- The pools that main asks for. -/
def dbnames : List Bytes := [bytes "db_000", bytes "db_001", bytes "db_etc"]

/-- `database::init(dbnames)`. -/
def init (cfg : Sections) (dial : Dial) (dbnames : List Bytes) : Except Exn (Option Sharded) :=
  initSharded kind cfg dial dbnames

/-- `get_dbpool(uint64_t)`. -/
def getDbpool (db : Sharded) (shardKey : UInt64) : Except Fault ConnPool :=
  db.select shardKey.toNat

/-- `get_dbpool(const std::string&)`. -/
def getDbpoolOfString (db : Sharded) (shardKey : Bytes) : Except Fault ConnPool :=
  db.select (crc32 shardKey).toNat

/-- A userid and a username with one shard find one pool. -/
theorem getDbpool_eq_getDbpoolOfString {db : Sharded} (two : db.shardCount = 2) {userid : Nat}
    {username : Bytes} (same : shardOfUserid 2 userid = shardOfString 2 username) :
    getDbpool db (UInt64.ofNat userid) = getDbpoolOfString db username := by
  have residue : (UInt64.ofNat userid).toNat % 2 = (crc32 username).toNat % 2 := by
    rw [UInt64.toNat_ofNat', Nat.mod_mod_of_dvd _ (by decide)]
    exact same
  simp only [getDbpool, getDbpoolOfString, Sharded.select, two, residue]

end Database

namespace Redis

/-- The settings of `redis`. -/
def kind : ShardedKind where
  sectionName := bytes "rd_shard"
  countKey := bytes "rd_shard_count"
  formatKey := bytes "rd_shard_format"
  poolKeys := [bytes "host", bytes "port", bytes "pool_size", bytes "timeout_sec"]

/-- The pools that main asks for. -/
def rdnames : List Bytes := [bytes "rd_rnk"]

/-- `redis::init(rdnames)`. -/
def init (cfg : Sections) (dial : Dial) (rdnames : List Bytes) : Except Exn (Option Sharded) :=
  initSharded kind cfg dial rdnames

/-- `get_rdpool(uint64_t)`. -/
def getRdpool (rd : Sharded) (shardKey : UInt64) : Except Fault ConnPool :=
  rd.select shardKey.toNat

/-- `get_rdpool(const std::string&)`. -/
def getRdpoolOfString (rd : Sharded) (shardKey : Bytes) : Except Fault ConnPool :=
  rd.select (crc32 shardKey).toNat

end Redis

/-! ### The shipped configuration -/

/-- The section of a shipped database. -/
def shippedDatabase (name : Bytes) : Items :=
  [(bytes "host", bytes "127.0.0.1"), (bytes "userid", bytes "waspp_dbuser"),
    (bytes "passwd", bytes "waspp_passwd"),
    (bytes "database", name), (bytes "port", bytes "3306"), (bytes "charset", bytes "utf8"),
    (bytes "pool_size", bytes "4"), (bytes "wait_timeout_sec", bytes "28800")]

/-- The sections of develop.json that the two components read. -/
def shippedSections : Sections :=
  [(bytes "db_shard", [(bytes "db_shard_count", bytes "2"), (bytes "db_shard_format", bytes "db_%03d")]),
    (bytes "db_000", shippedDatabase (bytes "develop_waspp_000")),
    (bytes "db_001", shippedDatabase (bytes "develop_waspp_001")),
    (bytes "db_etc", shippedDatabase (bytes "develop_waspp_etc")),
    (bytes "rd_shard", [(bytes "rd_shard_count", bytes "2"), (bytes "rd_shard_format", bytes "rd_%03d")]),
    (bytes "rd_rnk",
      [(bytes "host", bytes "127.0.0.1"), (bytes "port", bytes "6379"), (bytes "pool_size", bytes "4"),
        (bytes "timeout_sec", bytes "0")])]

end Waspp
