/-
Module: Waspp.Proofs.UniqueKeys
Layer: Proofs
Purpose: The keys of the table `users` over any interleaving of registrations and direct calls of the key
  procedure on the two shards.  Shard `i` starts at `i` and counts in steps of two, so the keys of a shard
  keep its residue and grow; `keys_unique_and_routed` draws from it that no key is handed out twice and
  that each row lies where both lookups of a pool go.
Imports: Waspp.Model.Pools, Waspp.Proofs.AccessControl, Waspp.Proofs.Registration
Trusted boundary: none (fully proved)
Main exports: handedOut, KeysHold, usersContract, serve_honest, keys_unique_and_routed
Open obligations: none
-/
import Waspp.Model.Pools
import Waspp.Proofs.AccessControl
import Waspp.Proofs.Registration

namespace Waspp

open CString Interaction

variable (mysql : Mysql)

/-- The keys of `users` that a served call hands out: as many as were asked for, `incr_amount` apart, up to
    the last one, which the procedure returns. -/
def handedOut (e : Event DbCall Reply) : List Nat :=
  match e with
  | ⟨.uniqueKeys _ tableId amount, reply⟩ =>
      match (reply : Except Exn (Option Nat)) with
      | .ok (some lastKey) =>
          if mysql.equal (bytes "users") tableId then (List.range amount).map fun j =>
            lastKey - 2 * j else []
      | _ => []
  | _ => []

/-- The key row of `users`. -/
def usersKey (schema : Schema) : Option UniqueKey :=
  mysql.keyOf schema.uniqueKeys (bytes "users")

/-- Every row lies in the pool that its userid and its username select. -/
def RowsHold (pool : Nat) (schema : Schema) : Prop :=
  ∀ rows, schema.users = some rows →
    ∀ row ∈ rows, shardOfUserid 2 row.userid = pool ∧ shardOfString 2 row.username = pool

/-- What holds of the databases and of the calls served so far. -/
structure KeysHold (state : World × List (Event DbCall Reply)) : Prop where
  /-- The key row of a shard keeps the shard's residue and is the largest key handed out there. -/
  shards : ∀ i < 2, ∃ schema key, state.1.pools[i]? = some schema ∧ usersKey mysql schema = some key ∧
    key.incrAmount = 2 ∧ key.lastKey % 2 = i ∧
    ∀ k ∈ state.2.flatMap (handedOut mysql), k % 2 = i → k ≤ key.lastKey
  distinct : (state.2.flatMap (handedOut mysql)).Nodup
  rows : ∀ i schema, state.1.pools[i]? = some schema → RowsHold i schema

/-! ### One call

A call of the procedure moves the counter of its shard on, by two for every key that is asked for, and gives
the last key.  So the keys of one call are distinct, and all of them have the residue of the shard. -/

/-- The key rows after an update, looked up. -/
theorem keyOf_advanceKeys (keys : List UniqueKey) (tableId other : Bytes) (amount : Nat) :
    mysql.keyOf (mysql.advanceKeys keys tableId amount) other =
      (mysql.keyOf keys other).map fun key =>
        if mysql.equal key.tableId tableId then key.advance amount else key := by
  have same (key : UniqueKey) :
      (if mysql.equal key.tableId tableId then key.advance amount else key).tableId = key.tableId := by
    split <;> rfl
  unfold Mysql.keyOf Mysql.advanceKeys
  rw [List.find?_map]
  congr 2
  funext key
  simp only [Function.comp_apply, same]

/-- Texts that compare equal select the same key row. -/
theorem keyOf_congr (keys : List UniqueKey) {one two : Bytes} (same : mysql.equal one two = true) :
    mysql.keyOf keys one = mysql.keyOf keys two := by
  have weights : mysql.collate one = mysql.collate two := by simpa [Mysql.equal] using same
  unfold Mysql.keyOf Mysql.equal
  rw [weights]

/-- The keys below a last key, `m` of them in steps of two, lie above the last key before. -/
theorem mem_block {before m k : Nat}
    (member : k ∈ (List.range m).map fun j => before + 2 * m - 2 * j) :
    before < k ∧ k ≤ before + 2 * m ∧ k % 2 = before % 2 := by
  rcases List.mem_map.mp member with ⟨j, range, rfl⟩
  have lt := List.mem_range.mp range
  omega

/-- The numbers of one call are distinct. -/
theorem nodup_block (before m : Nat) : ((List.range m).map fun j => before + 2 * m - 2 * j).Nodup := by
  apply List.nodup_range.map_on
  intro a left b right same
  have one := List.mem_range.mp left
  have two := List.mem_range.mp right
  omega

/-- What a call may do to the key row of its pool, with what it hands out: nothing, or new keys above the old
    last one up to the new one. -/
def Advances (e : Event DbCall Reply) (schema schema' : Schema) : Prop :=
  ∀ key, usersKey mysql schema = some key → key.incrAmount = 2 →
    (handedOut mysql e).Nodup ∧
      ∃ key', usersKey mysql schema' = some key' ∧ key'.incrAmount = 2 ∧ key'.lastKey % 2 = key.lastKey % 2 ∧
        key.lastKey ≤ key'.lastKey ∧
        ∀ k ∈ handedOut mysql e, key.lastKey < k ∧ k ≤ key'.lastKey ∧ k % 2 = key.lastKey % 2

/-- A call that hands out nothing and leaves the key row alone. -/
theorem advances_of_silent {e : Event DbCall Reply} {schema schema' : Schema}
    (silent : handedOut mysql e = []) (same : usersKey mysql schema' = usersKey mysql schema) :
    Advances mysql e schema schema' := by
  intro key found incr
  rw [silent]
  exact ⟨List.nodup_nil, key, same.trans found, incr, rfl, Nat.le_refl _, by simp⟩

/-- The key row of a shard, and the keys handed out under it. -/
theorem KeysHold.shard {state : World × List (Event DbCall Reply)} (holds : KeysHold mysql state)
    {pool : Nat} {schema : Schema} (here : state.1.pools[pool]? = some schema) (lt : pool < 2) :
    ∃ key, usersKey mysql schema = some key ∧ key.incrAmount = 2 ∧ key.lastKey % 2 = pool ∧
      ∀ k ∈ state.2.flatMap (handedOut mysql), k % 2 = pool → k ≤ key.lastKey := by
  rcases holds.shards pool lt with ⟨schema₀, key, at_, shard⟩
  rw [here] at at_
  cases at_
  exact ⟨key, shard⟩

/-- A key just handed out lies above those of the same shard. -/
theorem KeysHold.fresh {state : World × List (Event DbCall Reply)} (holds : KeysHold mysql state)
    {pool : Nat} {schema schema' : Schema} (here : state.1.pools[pool]? = some schema) (lt : pool < 2)
    {e : Event DbCall Reply}
    (advances : Advances mysql e schema schema') {k : Nat} (new : k ∈ handedOut mysql e) :
    k % 2 = pool ∧ k ∉ state.2.flatMap (handedOut mysql) := by
  rcases holds.shard mysql here lt with ⟨key, found, incr, residue, largest⟩
  rcases advances key found incr with ⟨-, _, _, _, _, _, block⟩
  rcases block k new with ⟨above, -, parity⟩
  refine ⟨parity.trans residue, ?_⟩
  intro old
  exact absurd (largest k old (parity.trans residue)) (Nat.not_le_of_lt above)

/-- The invariant over a call performed on one of the shards. -/
theorem KeysHold.performed {world world' : World} {log : List (Event DbCall Reply)} {e : Event DbCall Reply}
    {pool : Nat} {schema schema' : Schema} (holds : KeysHold mysql (world, log))
    (here : world.pools[pool]? = some schema) (pools : world'.pools = world.pools.set pool schema')
    (advances : Advances mysql e schema schema') (shard : handedOut mysql e ≠ [] → pool < 2)
    (rows : RowsHold pool schema → RowsHold pool schema') : KeysHold mysql (world', log ++ [e]) := by
  have inside : pool < world.pools.length := (List.getElem?_eq_some_iff.mp here).1
  have history : (log ++ [e]).flatMap (handedOut mysql) = log.flatMap (handedOut mysql) ++
      handedOut mysql e := by
    simp
  have fresh {k : Nat} (new : k ∈ handedOut mysql e) : k % 2 = pool ∧ k ∉ log.flatMap (handedOut mysql) :=
    holds.fresh mysql here (shard (List.ne_nil_of_mem new)) advances new
  constructor
  · intro i lt
    by_cases same : pool = i
    · subst same
      rcases holds.shard mysql here lt with ⟨key, found, incr, residue, largest⟩
      rcases advances key found incr with ⟨-, key', found', incr', parity, grows, block⟩
      refine ⟨schema', key', by simp [pools, inside], found', incr', parity.trans residue, ?_⟩
      intro k member parity'
      rcases List.mem_append.mp (history ▸ member) with old | new
      · exact Nat.le_trans (largest k old parity') grows
      · exact (block k new).2.1
    · rcases holds.shards i lt with ⟨schema₀, key, at_, found, incr, residue, largest⟩
      refine ⟨schema₀, key, by simp [pools, same, at_], found, incr, residue, ?_⟩
      intro k member parity
      rcases List.mem_append.mp (history ▸ member) with old | new
      · exact largest k old parity
      · exact absurd ((fresh new).1.symm.trans parity) same
  · show ((log ++ [e]).flatMap (handedOut mysql)).Nodup
    rw [history]
    have nodup : (handedOut mysql e).Nodup := by
      by_cases silent : handedOut mysql e = []
      · simp [silent]
      · rcases holds.shard mysql here (shard silent) with ⟨key, found, incr, -⟩
        exact (advances key found incr).1
    exact List.Nodup.append holds.distinct nodup fun k old new => (fresh new).2 old
  · intro i schema₀ at_
    by_cases same : pool = i
    · subst same
      have new : schema₀ = schema' := by simpa [pools, inside, eq_comm] using at_
      subst new
      exact rows (holds.rows pool schema here)
    · exact holds.rows i schema₀ (by simpa [pools, same] using at_)

/-- The invariant over a call that failed. -/
theorem KeysHold.failed {world world' : World} {log : List (Event DbCall Reply)} {e : Event DbCall Reply}
    (holds : KeysHold mysql (world, log)) (silent : handedOut mysql e = [])
    (pools : world'.pools = world.pools) :
    KeysHold mysql (world', log ++ [e]) where
  shards := by simpa [silent, pools] using holds.shards
  distinct := by simpa [silent] using holds.distinct
  rows := by simpa [pools] using holds.rows

/-! ### The contract of the two shards

Keys are asked from the shards only, and rows are inserted where their userid and username belong.  Under
these terms the server returns keys of the shard's residue. -/

/-- Keys are asked from the shards only, and rows are inserted where their userid and username belong; the
    server then returns keys of the shard's residue. -/
def usersContract : Contract DbCall Reply where
  asks
    | .uniqueKeys pool _ _ => pool < 2
    | .insertUser pool row => shardOfUserid 2 row.userid = pool ∧ shardOfString 2 row.username = pool
    | _ => True
  replies
    | .uniqueKeys pool tableId _, reply =>
        ∀ answer, reply = .ok answer → mysql.equal (bytes "users") tableId = true →
          ∃ lastKey, answer = some lastKey ∧ shardOfUserid 2 lastKey = pool
    | _, _ => True

/-- A call that fails gives no number. -/
theorem handedOut_error (q : DbCall) (e : Exn) : handedOut mysql ⟨q, .error e⟩ = [] := by
  cases q <;> rfl

theorem handedOut_of_ne {q : DbCall} (other : ∀ pool tableId amount, q ≠ .uniqueKeys pool tableId amount)
    (reply : Reply q) : handedOut mysql ⟨q, reply⟩ = [] := by
  cases q with
  | uniqueKeys pool tableId amount => exact absurd rfl (other pool tableId amount)
  | _ => rfl

/-- Only the procedure changes the key rows. -/
theorem performAt_uniqueKeys (schema : Schema) {q : DbCall}
    (other : ∀ pool tableId amount, q ≠ .uniqueKeys pool tableId amount) :
    (performAt mysql schema q).2.uniqueKeys = schema.uniqueKeys := by
  cases q <;> simp only [performAt] <;> grind

/-- The procedure on a database whose key row of `users` counts in steps of two: it fails, or it moves the
    row up when it was called for `users`. -/
theorem uniqueKeys_cases {schema : Schema} {key : UniqueKey} (found : usersKey mysql schema = some key)
    (incr : key.incrAmount = 2) (pool amount : Nat) (tableId : Bytes) :
    (∃ e, performAt mysql schema (.uniqueKeys pool tableId amount) = (.error e, schema)) ∨
      ∃ answer schema', performAt mysql schema (.uniqueKeys pool tableId amount) = (.ok answer, schema') ∧
        schema'.users = schema.users ∧
        if mysql.equal (bytes "users") tableId then
          answer = some (key.lastKey + 2 * amount) ∧
            usersKey mysql schema' = some { key with lastKey := key.lastKey + 2 * amount }
        else usersKey mysql schema' = some key := by
  have weights := List.find?_some found
  unfold performAt
  simp only
  split
  · refine Or.inr ⟨_, _, rfl, rfl, ?_⟩
    unfold usersKey at found
    have updated := keyOf_advanceKeys mysql schema.uniqueKeys tableId (bytes "users") amount
    rw [found, Option.map_some] at updated
    split
    · rename_i users
      have selected : mysql.equal key.tableId tableId = true := by
        simp only [Mysql.equal, decide_eq_true_eq] at weights users ⊢
        exact weights.trans users
      have same := keyOf_congr mysql (mysql.advanceKeys schema.uniqueKeys tableId amount) users
      simp only [selected, if_true, UniqueKey.advance, incr] at updated
      exact ⟨by rw [← same, updated]; rfl, by rw [usersKey, updated, incr]⟩
    · rename_i other
      have skipped : mysql.equal key.tableId tableId = false := by
        simp only [Mysql.equal, decide_eq_true_eq, decide_eq_false_iff_not] at weights other ⊢
        exact fun same => other (weights.symm.trans same)
      rw [usersKey, updated]
      simp [skipped]
  · exact Or.inl ⟨_, rfl⟩

/-- The procedure advances the key row and hands out what it advanced over. -/
theorem uniqueKeys_advances (schema : Schema) (pool amount : Nat) (tableId : Bytes) :
    Advances mysql ⟨.uniqueKeys pool tableId amount,
      (performAt mysql schema (.uniqueKeys pool tableId amount)).1⟩ schema
      (performAt mysql schema (.uniqueKeys pool tableId amount)).2 := by
  intro key found incr
  rcases uniqueKeys_cases mysql found incr pool amount tableId with
    ⟨e, failed⟩ | ⟨answer, schema', done, -, moved⟩
  · rw [failed]
    exact advances_of_silent mysql (handedOut_error mysql _ _) rfl key found incr
  · rw [done]
    by_cases users : mysql.equal (bytes "users") tableId = true
    · rw [if_pos users] at moved
      rcases moved with ⟨rfl, found'⟩
      have block : handedOut mysql ⟨.uniqueKeys pool tableId amount,
          (.ok (some (key.lastKey + 2 * amount)) : Except Exn (Option Nat))⟩ =
          (List.range amount).map fun j => key.lastKey + 2 * amount - 2 * j := if_pos users
      refine ⟨block ▸ nodup_block _ _, _, found', incr, Nat.add_mul_mod_self_left _ _ _,
        Nat.le_add_right _ _, ?_⟩
      intro k member
      exact mem_block (block ▸ member)
    · rw [if_neg users] at moved
      have silent : handedOut mysql ⟨.uniqueKeys pool tableId amount,
          (.ok answer : Except Exn (Option Nat))⟩ = [] := by
        cases answer with
        | none => rfl
        | some lastKey => exact if_neg users
      exact advances_of_silent mysql silent (moved.trans found.symm) key found incr

/-- A call that is within the contract moves the key row up or leaves it. -/
theorem performAt_advances (schema : Schema) (q : DbCall) :
    Advances mysql ⟨q, (performAt mysql schema q).1⟩ schema (performAt mysql schema q).2 := by
  by_cases keys : ∃ pool tableId amount, q = .uniqueKeys pool tableId amount
  · rcases keys with ⟨pool, tableId, amount, rfl⟩
    exact uniqueKeys_advances mysql schema pool amount tableId
  · have other : ∀ pool tableId amount, q ≠ .uniqueKeys pool tableId amount := by simpa using keys
    apply advances_of_silent mysql (handedOut_of_ne mysql other _)
    rw [usersKey, performAt_uniqueKeys mysql schema other, usersKey]

/-- A call that is within the contract keeps the rows where they belong. -/
theorem performAt_rows {schema : Schema} {q : DbCall} (asked : (usersContract mysql).asks q)
    (rows : RowsHold q.pool schema) : RowsHold q.pool (performAt mysql schema q).2 := by
  intro new same
  rcases performAt_users mysql schema q with ⟨kept, -⟩ | ⟨pool, row, old, rfl, users, -, inserted⟩
  · rw [kept] at same
    exact rows new same
  · rw [inserted] at same
    cases same
    intro other member
    rcases List.mem_append.mp member with before | last
    · exact rows old users other before
    · rw [List.mem_singleton.mp last]
      exact asked

/-- The shards keep the invariant and their side of the contract. -/
theorem serve_honest (state : World × List (Event DbCall Reply)) (q : DbCall) (holds : KeysHold mysql state)
    (asked : (usersContract mysql).asks q) :
    KeysHold mysql (logged (serve mysql) q state).2 ∧
      (usersContract mysql).replies q (logged (serve mysql) q state).1 := by
  rcases state with ⟨world, log⟩
  rcases serve_cases mysql q world with ⟨e, reply, pools⟩ | ⟨schema, here, reply, pools⟩
  · constructor
    · have silent : handedOut mysql ⟨q, (serve mysql q world).1⟩ = [] := by
        rw [reply]
        exact handedOut_error mysql q e
      exact holds.failed mysql silent pools
    · cases q with
      | uniqueKeys pool tableId amount =>
          intro answer same
          exact absurd (reply.symm.trans same) (by simp)
      | _ => trivial
  · have shard : handedOut mysql ⟨q, (serve mysql q world).1⟩ ≠ [] → q.pool < 2 := by
      intro hands
      by_contra beyond
      apply hands
      apply handedOut_of_ne
      intro pool tableId amount same
      subst same
      exact beyond asked
    constructor
    · have advances : Advances mysql ⟨q, (serve mysql q world).1⟩ schema (performAt mysql schema q).2 := by
        rw [reply]
        exact performAt_advances mysql schema q
      exact holds.performed mysql here pools advances shard (performAt_rows mysql asked)
    · cases q with
      | uniqueKeys pool tableId amount =>
          intro answer same users
          rcases holds.shard mysql here asked with ⟨key, found, incr, residue, -⟩
          rcases uniqueKeys_cases mysql found incr pool amount tableId with
            ⟨e, failed⟩ | ⟨answer', schema', done, -, moved⟩
          · rw [failed] at reply
            cases reply.symm.trans same
          · rw [done] at reply
            rw [if_pos users] at moved
            cases reply.symm.trans same
            refine ⟨_, moved.1, ?_⟩
            rw [shardOfUserid, Nat.add_mul_mod_self_left]
            exact residue
      | _ => trivial

/-! ### Registrations

A registration asks for its key at the shard of the username.  The key has the residue of that shard, so the
row belongs there by its userid, too. -/

/-- A registration under the shipped shard count keeps the contract. -/
theorem post_asks {env : Env} (two : env.cfg.dbShardCount = 2) (c : Ctx) :
    RegistrationAsks env (usersContract mysql) c where
  checkout := trivial
  selectUserid := trivial
  uniqueKeys := by
    rw [shardOfUsername, two]
    exact Nat.mod_lt _ (by decide)
  insertUser := by
    intro _ lastKey replied
    rcases replied lastKey rfl (by simp [Mysql.equal]) with ⟨userid, rfl, residue⟩
    refine ⟨residue, ?_⟩
    rw [shardOfUsername, two]
    rfl

/-! ### The whole system

Registrations and other callers of the procedure, interleaved call by call. -/

/-- The shipped counter of the users. -/
theorem usersKey_shipped (i : Nat) (users : Option (List UserRow)) (forum : Option (List ForumRow)) :
    usersKey mysql ⟨shippedKeys i, users, forum⟩ = some ⟨bytes "users", 2, i⟩ := by
  simp [usersKey, Mysql.keyOf, shippedKeys, Mysql.equal]

/-- The databases that develop.sql creates. -/
theorem shipped_keysHold (outages : List Bool) :
    KeysHold mysql ({ shippedWorld with outages := outages }, []) := by
  constructor
  · intro i lt
    obtain rfl | rfl : i = 0 ∨ i = 1 := by omega
    · exact ⟨_, _, rfl, usersKey_shipped mysql 0 _ _, rfl, rfl, by simp⟩
    · exact ⟨_, _, rfl, usersKey_shipped mysql 1 _ _, rfl, rfl, by simp⟩
  · exact List.nodup_nil
  · intro i schema here rows users
    have empty : ∀ schema ∈ shippedWorld.pools, ∀ rows, schema.users = some rows → rows = [] := by decide
    simp [empty schema (List.mem_of_getElem? here) rows users]

/-- A call of the procedure by hand. -/
def callUniqueKeys (pool : Nat) (tableId : Bytes) (amount : Nat) : Act Unit := do
  let _ ← Act.db (.uniqueKeys pool tableId amount)
  return ()

/-- What comes in: a registration under the shipped shard count, or a call of the procedure on one of the
    shards. -/
inductive Admitted : Program DbCall Reply (Except Exn Unit × Ctx) → Prop where
  | post (env : Env) (two : env.cfg.dbShardCount = 2) (c : Ctx) : Admitted (DirUser.post env c)
  | uniqueKeys (pool : Nat) (shard : pool < 2) (tableId : Bytes) (amount : Nat) (c : Ctx) :
      Admitted (callUniqueKeys pool tableId amount c)

/-- What comes in keeps to the contract. -/
theorem admitted_meets {p : Program DbCall Reply (Except Exn Unit × Ctx)} (admitted : Admitted p) :
    p.Meets (usersContract mysql) fun _ => True := by
  cases admitted with
  | post env two c => exact post_meets (post_asks mysql two c)
  | uniqueKeys pool shard tableId amount c =>
      have meets : (callUniqueKeys pool tableId amount).Meets (usersContract mysql) c fun _ _ => True :=
        Act.meets_db_bind.mpr ⟨shard, fun _ _ => trivial, fun _ _ => trivial⟩
      exact meets

/-- From the shipped databases, over any interleaving: no key of `users` is handed out twice, and every row
    lies in the pool that `get_dbpool` selects for its username, which is the one it selects for its userid.
    -/
theorem keys_unique_and_routed (outages : List Bool)
    {i : Interleaving DbCall Reply (Except Exn Unit × Ctx) (World × List (Event DbCall Reply))}
    (reached : Interleaving.Reachable (logged (serve mysql)) Admitted
      ({ shippedWorld with outages := outages }, []) i) :
    (i.world.2.flatMap (handedOut mysql)).Nodup ∧
      ∀ pool schema rows, i.world.1.pools[pool]? = some schema → schema.users = some rows → ∀ row ∈ rows,
        shardOfString 2 row.username = pool ∧ shardOfUserid 2 row.userid = pool ∧
          ∀ db : Sharded, db.shardCount = 2 →
            Database.getDbpool db (UInt64.ofNat row.userid) =
            Database.getDbpoolOfString db row.username := by
  have holds : KeysHold mysql i.world :=
    Interleaving.contract_invariant (usersContract mysql) (shipped_keysHold mysql outages)
      (fun state q holds asked => serve_honest mysql state q holds asked)
      (fun p admitted => admitted_meets mysql admitted) reached
  refine ⟨holds.distinct, ?_⟩
  intro pool schema rows here users row member
  rcases holds.rows pool schema here rows users row member with ⟨byUserid, byUsername⟩
  exact ⟨byUsername, byUserid, fun db two =>
    Database.getDbpool_eq_getDbpoolOfString two (byUserid.trans byUsername.symm)⟩

/-! ### Two users and three keys

A call of the procedure waits while one user is registered, is served, and then another user is registered.
-/

/-- The registrations of `a` and of `d`, and the call of the procedure on the second shard. -/
private def registerA : Program DbCall Reply (Except Exn Unit × Ctx) :=
  DirUser.post bareEnv (registrationForm (bytes "a") (bytes "pw"))

private def registerD : Program DbCall Reply (Except Exn Unit × Ctx) :=
  DirUser.post bareEnv (registrationForm (bytes "d") (bytes "pw"))

private def askThree : Program DbCall Reply (Except Exn Unit × Ctx) :=
  callUniqueKeys 1 (bytes "users") 3 ⟨{}, {}⟩

/-- The world and the calls, as they go on. -/
private def afterA : World × List (Event DbCall Reply) :=
  (registerA.exec (logged (serve plainMysql)) (shippedWorld, [])).2.1

private def afterThree : World × List (Event DbCall Reply) :=
  (askThree.exec (logged (serve plainMysql)) afterA).2.1

private def afterD : World × List (Event DbCall Reply) :=
  (registerD.exec (logged (serve plainMysql)) afterThree).2.1

/-- The run goes through. -/
private theorem reached_afterD :
    ∃ i, Interleaving.Reachable (logged (serve plainMysql)) Admitted (shippedWorld, []) i ∧
    i.world = afterD := by
  have waiting : Interleaving.Reachable (logged (serve plainMysql)) Admitted (shippedWorld, [])
      ⟨(shippedWorld, []), [askThree]⟩ :=
        .enter .start (.uniqueKeys 1 (by decide) (bytes "users") 3 ⟨{}, {}⟩)
  have registered := (waiting.enter (.post bareEnv rfl (registrationForm (bytes "a") (bytes "pw")))).exec
  have served := Interleaving.Reachable.step registered
    (@Interleaving.Step.served _ _ _ _ _ _ _ [_] [] (DbCall.uniqueKeys 1 (bytes "users") 3) _)
  exact ⟨_, (served.enter (.post bareEnv rfl (registrationForm (bytes "d") (bytes "pw")))).exec, rfl⟩

/-- The five keys are distinct, and each user is where both lookups of a pool go. -/
theorem keys_unique_and_routed_two_shards :
    afterD.2.flatMap (handedOut plainMysql) = [3, 9, 7, 5, 2] ∧
      (afterD.2.flatMap (handedOut plainMysql)).Nodup ∧
      usersOf afterD.1 1 = some [newRow bareEnv (registrationForm (bytes "a") (bytes "pw")) 3] ∧
      usersOf afterD.1 0 = some [newRow bareEnv (registrationForm (bytes "d") (bytes "pw")) 2] ∧
      ∀ db : Sharded, db.shardCount = 2 →
        Database.getDbpool db 3 = Database.getDbpoolOfString db (bytes "a") ∧
          Database.getDbpool db 2 = Database.getDbpoolOfString db (bytes "d") := by
  rcases reached_afterD with ⟨i, reached, world⟩
  have holds := keys_unique_and_routed plainMysql [] reached
  rw [world] at holds
  have a : usersOf afterD.1 1 = some [newRow bareEnv (registrationForm (bytes "a") (bytes "pw")) 3] := by
    decide +kernel
  have d : usersOf afterD.1 0 = some [newRow bareEnv (registrationForm (bytes "d") (bytes "pw")) 2] := by
    decide +kernel
  refine ⟨by decide +kernel, holds.1, a, d, fun db two => ?_⟩
  rcases Option.bind_eq_some_iff.mp a with ⟨second, inSecond, rowsA⟩
  rcases Option.bind_eq_some_iff.mp d with ⟨first, inFirst, rowsD⟩
  exact ⟨(holds.2 1 second _ inSecond rowsA _ (List.mem_singleton_self _)).2.2 db two,
    (holds.2 0 first _ inFirst rowsD _ (List.mem_singleton_self _)).2.2 db two⟩

end Waspp
