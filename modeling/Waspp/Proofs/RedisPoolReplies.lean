/-
Module: Waspp.Proofs.RedisPoolReplies
Layer: Proofs
Purpose: The pool of redis connections down to the bytes.  A move of a client is no step of the pool of
  queues, or one (`Seen`), so every run of the pool with its contexts is a run of `Redis`
  (`pool_refines_redis`).  What the queues say then holds of the replies that calls returned: each is the
  server's answer to the command at its place, and a client whose connection had no reply outstanding reads
  the answers to its own commands (`returned_to_own`).
Imports: Waspp.Model.RedisOverHiredis, Waspp.Proofs.RedisReplies
Trusted boundary: none (fully proved)
Main exports: Seen, seen_of_step, KeptAt, Kept, pool_step, pool_run, pool_refines_redis, returned_to_own
Open obligations: none
-/
import Waspp.Model.RedisOverHiredis
import Waspp.Proofs.RedisReplies

namespace Waspp.Redis3m

open CString Hiredis Checkout

variable {σ : Type} {allocates : Allocator} {serve : Hiredis.Server σ} {start : σ} {x y : Hiredis.Exchange σ}
  {owners : List Nat}

/-! ### One move -/

/-- What a client's move of its context is to the queue. -/
inductive Seen (x y : Hiredis.Exchange σ) (owners : List Nat) (number : Nat) (move : Move) : Prop where
  | silent (nobody : [(number, move)].filterMap appendedBy = []) (same : queueOf y owners = queueOf x owners)
      (none : y.returned.length = x.returned.length)
  | appends (one : [(number, move)].filterMap appendedBy = [number])
      (appended : queueOf y (owners ++ [number]) = (queueOf x owners).append number true)
      (none : y.returned.length = x.returned.length)
  | fails (nobody : [(number, move)].filterMap appendedBy = []) {outcome : Outcome}
      (read : (queueOf x owners).getReply outcome = some (none, queueOf y owners))
      (none : y.returned.length = x.returned.length)
  | returns (nobody : [(number, move)].filterMap appendedBy = []) {outcome : Outcome} {answered : Nat}
      (read : (queueOf x owners).getReply outcome = some (some answered, queueOf y owners))
      (one : y.returned.length = x.returned.length + 1) (here : owners[x.returned.length]? = some answered)

/-- One move ends at most one call. -/
theorem callEnded_cases {move : Nat × Move} {calls : List QueueCall}
    (ended : callEnded x y move = .ok calls) :
    calls = [] ∨ calls = [.append move.1] ∨ ∃ outcome, calls = [.getReply outcome] := by
  have asked {calls : List QueueCall} (ended : getReplyEnded x y = .ok calls) :
      calls = [] ∨ ∃ outcome, calls = [.getReply outcome] := by
    unfold getReplyEnded at ended
    split at ended
    · split at ended
      · cases ended
        exact .inr ⟨_, rfl⟩
      · next reply rest _ =>
          cases read : outcomeOf reply with
          | error fault =>
              rw [read] at ended
              cases ended
          | ok outcome =>
              rw [read] at ended
              cases ended
              exact .inr ⟨outcome, rfl⟩
    · cases ended
      exact .inl rfl
  obtain ⟨client, move⟩ := move
  cases move with
  | append argv =>
      cases ended
      exact .inr (.inl rfl)
  | getReply | write result | read result => exact (asked ended).imp_right .inr
  | serve argv =>
      cases ended
      exact .inl rfl

/-- One call. -/
theorem calls_single (conn : Connection) (call : QueueCall) :
    conn.calls [call] = (conn.call call).map fun after => (after.1.toList, after.2) := by
  simp only [Connection.calls]
  cases conn.call call with
  | none => rfl
  | some after => simp

/-- As many are read as there are fewer behind. -/
theorem length_of_drop_eq {l : List Nat} {n m k : Nat} (here : n ≤ l.length) (there : m ≤ l.length)
    (same : k + (l.drop m).length = (l.drop n).length) : m = n + k := by
  rw [List.length_drop, List.length_drop] at same
  omega

/-- No more replies are returned than there are commands. -/
theorem length_returned_le (fits : AnswersFit allocates serve) (here : InOrder allocates serve start x) :
    x.returned.length ≤ x.appended.length := by
  obtain ⟨⟨served, waiting, input, flow⟩, -⟩ := here
  have most := (flow.returned fits).length_le
  rwa [length_answers] at most

/-- What a client sees of a move, and what the move leaves. -/
theorem seen_of_step (fits : AnswersFit allocates serve) (here : InOrder allocates serve start x)
    (spent : Spent allocates x) (owned : owners.length = x.appended.length) (number : Nat) {move : Move}
    (short : ∀ argv, move = .append argv → commandLength argv < 2 ^ 31)
    (step : x.step allocates serve move = some y) :
    Seen x y owners number move ∧ Spent allocates y := by
  obtain ⟨calls, ended, ⟨reads, ran⟩, clients, still⟩ := queue_step fits here spent owned number short step
  refine ⟨?_, still⟩
  have before : x.returned.length ≤ owners.length := owned ▸ length_returned_le fits here
  have after : y.returned.length ≤ (owners ++ [(number, move)].filterMap appendedBy).length := by
    rw [List.length_append, owned, ← length_appended_of_step number step]
    exact length_returned_le fits (inOrder_step fits here short step)
  rw [clients] at ran
  rcases callEnded_cases ended with rfl | rfl | ⟨outcome, rfl⟩
  · have nobody : [(number, move)].filterMap appendedBy = [] := clients.symm
    rw [nobody, List.append_nil] at ran after
    have same : queueOf y owners = queueOf x owners := (Prod.mk.inj (Option.some.inj ran)).2.symm
    refine .silent nobody same ?_
    have left : owners.drop y.returned.length = owners.drop x.returned.length :=
      congrArg Connection.outstanding same
    exact length_of_drop_eq (k := 0) before after (by rw [left, Nat.zero_add])
  · have one : [(number, move)].filterMap appendedBy = [number] := clients.symm
    rw [one] at ran after
    have appended : queueOf y (owners ++ [number]) = (queueOf x owners).append number true :=
      (Prod.mk.inj (Option.some.inj ran)).2.symm
    refine .appends one appended ?_
    have left : (owners ++ [number]).drop y.returned.length = owners.drop x.returned.length ++ [number] :=
      congrArg Connection.outstanding appended
    have := congrArg List.length left
    rw [List.length_drop, List.length_append, List.length_append, List.length_drop,
      List.length_singleton] at this
    rw [List.length_append, List.length_singleton] at after
    omega
  · have nobody : [(number, move)].filterMap appendedBy = [] := clients.symm
    rw [nobody, List.append_nil] at ran after
    rw [calls_single] at ran
    obtain ⟨⟨read, left⟩, got, same⟩ := Option.map_eq_some_iff.mp ran
    obtain rfl : left = queueOf y owners := (Prod.mk.inj same).2
    rcases getReply_cases got with ⟨rfl, kept⟩ | ⟨client, rfl, kept⟩
    · refine .fails nobody got (length_of_drop_eq (k := 0) before after ?_)
      rw [Nat.zero_add]
      exact congrArg List.length kept
    · have more : y.returned.length = x.returned.length + 1 := by
        refine length_of_drop_eq before after ?_
        rw [Nat.add_comm]
        exact (congrArg List.length kept).symm
      refine .returns nobody got more ?_
      have first := congrArg (fun l => l[0]?) kept
      simpa [queueOf] using first

/-! ### The pool

The clients of the pool together with the exchanges of their connections.  Forgetting the bytes gives a
state of the abstract pool. -/

variable {w w' : OverHiredis σ} {starts : Nat → σ} {pool : Pool}

/-- What is known of a context and of the clients that appended its commands. -/
structure KeptAt (allocates : Allocator) (serve : Hiredis.Server σ) (start : σ) (x : Hiredis.Exchange σ)
    (owners : List Nat) : Prop where
  order : InOrder allocates serve start x
  spent : Spent allocates x
  owned : owners.length = x.appended.length

/-- What is known of each context, and of the replies that were returned. -/
structure Kept (allocates : Allocator) (serve : Hiredis.Server σ) (starts : Nat → σ) (w : OverHiredis σ) :
    Prop where
  context : ∀ id, KeptAt allocates serve (starts id) (w.exchanges id) (w.owners id)
  returned : ∀ e ∈ w.returned, e.position < (w.exchanges e.conn).returned.length ∧
    (w.owners e.conn)[e.position]? = e.answered

/-- The action is one on the abstract pool. -/
theorem ask_redis (w : OverHiredis σ) (a : Action) : w.redis.ask a = w.ask a := by
  cases a with
  | check i alive succeeds =>
      cases at_ : w.system.phaseAt i with
      | none => simp [Redis.ask, OverHiredis.ask, OverHiredis.redis, at_]
      | some phase =>
          cases phase <;>
            simp [Redis.ask, OverHiredis.ask, OverHiredis.redis, queueOf, Connection.isValid, at_]
  | enter | tick now | lock i | connect i succeeds | release i | push i => rfl

/-- The queues once a client has moved. -/
theorem redis_moved (w : OverHiredis σ) (id number : Nat) (move : Move) (y : Hiredis.Exchange σ) :
    (w.moved id number move y).redis =
      { w.redis with
        conns :=
      Function.update w.redis.conns id (queueOf y (w.owners id ++ [(number, move)].filterMap appendedBy))
        reads := w.redis.reads ++ (w.newReturned id number y).filterMap fun e =>
          e.answered.map fun answered => ⟨e.reader, answered, e.takenOver⟩ } := by
  simp only [OverHiredis.redis, OverHiredis.moved, List.filterMap_append, Redis.mk.injEq, true_and, and_true]
  funext other
  by_cases same : other = id
  · subst same
    simp only [Function.update_self]
  · simp only [Function.update_of_ne same]

/-- A client's move is a step of the pool of queues, or none. -/
theorem reachable_moved {i number : Nat} {conn : Conn} {move : Move}
    (at_ : w.system.clients[i]? = some ⟨number, .holds conn⟩)
    (seen : Seen (w.exchanges conn.id) y (w.owners conn.id) number move)
    (reached : RedisReachable pool w.redis) :
    RedisReachable pool (w.moved conn.id number move y).redis := by
  have client : w.redis.system.clients[i]? = some ⟨number, .holds conn⟩ := at_
  rw [redis_moved]
  cases seen with
  | silent nobody same none =>
      have nothing : w.newReturned conn.id number y = [] := if_neg (by omega)
      rw [nobody, List.append_nil, same, nothing, List.filterMap_nil, List.append_nil]
      have still : Function.update w.redis.conns conn.id (queueOf (w.exchanges conn.id) (w.owners conn.id)) =
          w.redis.conns := Function.update_eq_self ..
      rw [still]
      exact reached
  | appends one appended none =>
      have nothing : w.newReturned conn.id number y = [] := if_neg (by omega)
      rw [one, appended, nothing, List.filterMap_nil, List.append_nil]
      refine reached.step (a := .append i true) ?_
      simp only [redisStep, client]
      rfl
  | @fails nobody outcome read none =>
      have nothing : w.newReturned conn.id number y = [] := if_neg (by omega)
      rw [nobody, List.append_nil, nothing, List.filterMap_nil, List.append_nil]
      refine reached.step (a := .getReply i outcome) ?_
      have got : (w.redis.conns conn.id).getReply outcome = some (Option.none,
          queueOf y (w.owners conn.id)) := read
      simp only [redisStep, client, got]
  | @returns nobody outcome answered read one here =>
      have this : w.newReturned conn.id number y =
          [⟨conn.id, (w.exchanges conn.id).returned.length, number, some answered, w.takenOver number⟩] := by
        rw [← here]
        exact if_pos (by omega)
      rw [nobody, List.append_nil, this]
      refine reached.step (a := .getReply i outcome) ?_
      have got : (w.redis.conns conn.id).getReply outcome = some (some answered,
          queueOf y (w.owners conn.id)) := read
      simp only [redisStep, client, got]
      rfl

/-- The invariant holds at the start. -/
theorem kept_start (starts : Nat → σ) (idle : List Conn) (now : Int) :
    Kept allocates serve starts (.start starts idle now) :=
  ⟨fun id => ⟨inOrder_start (starts id), nofun, rfl⟩, nofun⟩

/-- No more is returned than was asked. -/
theorem KeptAt.length_returned_le (kept : KeptAt allocates serve start x owners)
    (fits : AnswersFit allocates serve) :
    x.returned.length ≤ owners.length := by
  rw [kept.owned]
  exact Redis3m.length_returned_le fits kept.order

/-- A move on a connection keeps what is known of it. -/
theorem KeptAt.step (kept : KeptAt allocates serve start x owners) (fits : AnswersFit allocates serve)
    (number : Nat) {move : Move} (short : ∀ argv, move = .append argv → commandLength argv < 2 ^ 31)
    (step : x.step allocates serve move = some y) :
    Seen x y owners number move ∧
      KeptAt allocates serve start y (owners ++ [(number, move)].filterMap appendedBy) := by
  obtain ⟨seen, spent⟩ := seen_of_step fits kept.order kept.spent kept.owned number short step
  refine ⟨seen, inOrder_step fits kept.order short step, spent, ?_⟩
  rw [List.length_append, kept.owned, length_appended_of_step number step]

/-- Where a client moves its context, what is known stays so. -/
theorem Kept.moved (kept : Kept allocates serve starts w) (fits : AnswersFit allocates serve)
    {id number : Nat} {move : Move} (seen : Seen (w.exchanges id) y (w.owners id) number move)
    (moved : KeptAt allocates serve (starts id) y (w.owners id ++ [(number, move)].filterMap appendedBy)) :
    Kept allocates serve starts (w.moved id number move y) := by
  have later : (w.exchanges id).returned.length ≤ y.returned.length := by
    cases seen with
    | silent _ _ none | appends _ _ none | fails _ _ none => exact none.ge
    | returns _ _ one _ => omega
  constructor
  · intro other
    by_cases same : other = id
    · subst same
      simp only [OverHiredis.moved, Function.update_self]
      exact moved
    · simp only [OverHiredis.moved, Function.update_of_ne same]
      exact kept.context other
  · intro e member
    rcases List.mem_append.mp member with old | new
    · obtain ⟨inside, it⟩ := kept.returned e old
      have owner : e.position < (w.owners e.conn).length :=
        Nat.lt_of_lt_of_le inside ((kept.context e.conn).length_returned_le fits)
      by_cases same : e.conn = id
      · subst same
        simp only [OverHiredis.moved, Function.update_self]
        exact ⟨Nat.lt_of_lt_of_le inside later, by rw [List.getElem?_append_left owner, it]⟩
      · simp only [OverHiredis.moved, Function.update_of_ne same]
        exact ⟨inside, it⟩
    · rw [OverHiredis.newReturned] at new
      split at new
      · next more =>
          rw [List.mem_singleton.mp new]
          simp only [OverHiredis.moved, Function.update_self]
          cases seen with
          | silent _ _ none | appends _ _ none | fails _ _ none => omega
          | returns nobody _ _ _ => exact ⟨more, by rw [nobody, List.append_nil]⟩
      · cases new

/-- The clients do not see the servers. -/
theorem Kept.served (kept : Kept allocates serve starts w) (fits : AnswersFit allocates serve) {id : Nat}
    {argv : List Bytes} (step : (w.exchanges id).step allocates serve (.serve argv) = some y) :
    Kept allocates serve starts { w with exchanges := Function.update w.exchanges id y } ∧
      OverHiredis.redis { w with exchanges := Function.update w.exchanges id y } = w.redis := by
  obtain ⟨-, served⟩ := (kept.context id).step fits 0 (fun _ same => by cases same) step
  have nobody : [(0, Move.serve argv)].filterMap appendedBy = [] := rfl
  rw [nobody, List.append_nil] at served
  have same : y.context = (w.exchanges id).context ∧ y.returned = (w.exchanges id).returned := by
    rw [Exchange.step] at step
    split at step
    · cases step
      exact ⟨rfl, rfl⟩
    · cases step
  have others : ∀ other, (Function.update w.exchanges id y other).context = (w.exchanges other).context ∧
      (Function.update w.exchanges id y other).returned = (w.exchanges other).returned := by
    intro other
    by_cases here : other = id
    · subst here
      rw [Function.update_self]
      exact same
    · rw [Function.update_of_ne here]
      exact ⟨rfl, rfl⟩
  refine ⟨⟨?_, ?_⟩, ?_⟩
  · intro other
    by_cases here : other = id
    · subst here
      simp only [Function.update_self]
      exact served
    · simp only [Function.update_of_ne here]
      exact kept.context other
  · intro e member
    simp only [(others e.conn).2]
    exact kept.returned e member
  · simp only [OverHiredis.redis, Redis.mk.injEq, true_and, and_true]
    funext other
    rw [queueOf, queueOf, (others other).1, (others other).2]

/-! ### Runs

A step of the clients over hiredis is one step of the abstract pool, or none, so its results carry over. -/

/-- What one step does. -/
inductive Stepped (allocates : Allocator) (serve : Hiredis.Server σ) (pool : Pool) (w : OverHiredis σ) :
    HiredisAction → OverHiredis σ → Prop where
  | pools {a : Action} {system : System} (went : Checkout.step pool w.system (w.ask a) = some system) :
      Stepped allocates serve pool w (.pool a) { w with system := system, takenOver := w.redis.note system }
  | moves {i number : Nat} {conn : Conn} {move : Move} {y : Hiredis.Exchange σ}
      (at_ : w.system.clients[i]? = some ⟨number, .holds conn⟩)
      (step : (w.exchanges conn.id).step allocates serve move = some y) :
      Stepped allocates serve pool w (.client i move) (w.moved conn.id number move y)
  | serves {id : Nat} {argv : List Bytes} {y : Hiredis.Exchange σ}
      (step : (w.exchanges id).step allocates serve (.serve argv) = some y) :
      Stepped allocates serve pool w (.serve id argv)
      { w with exchanges := Function.update w.exchanges id y }

/-- What a step can do. -/
theorem stepped_of_step {a : HiredisAction} (step : w.step allocates serve pool a = some w') :
    Stepped allocates serve pool w a w' := by
  cases a with
  | pool a =>
      rw [OverHiredis.step] at step
      split at step
      · cases step
      · obtain ⟨system, went, rfl⟩ := Option.map_eq_some_iff.mp step
        exact .pools went
  | client i move =>
      rw [OverHiredis.step.eq_def] at step
      split at step
      · next same => cases same
      · cases step
      · next same =>
          cases same
          split at step
          · next at_ =>
              obtain ⟨y, moved, rfl⟩ := Option.map_eq_some_iff.mp step
              exact .moves at_ moved
          · cases step
      · next same => cases same
  | serve id argv =>
      obtain ⟨y, served, rfl⟩ := Option.map_eq_some_iff.mp step
      exact .serves served

/-- One step keeps what is known, and is a step of the pool of queues or none. -/
theorem pool_step (fits : AnswersFit allocates serve) (kept : Kept allocates serve starts w)
    (reached : RedisReachable pool w.redis) {a : HiredisAction}
    (short : ∀ i argv, a = .client i (.append argv) → commandLength argv < 2 ^ 31)
    (step : w.step allocates serve pool a = some w') :
    Kept allocates serve starts w' ∧ RedisReachable pool w'.redis := by
  cases stepped_of_step step with
  | @pools a system went =>
      refine ⟨⟨kept.context, kept.returned⟩, reached.step (a := .pool a) ?_⟩
      rw [redisStep, ask_redis]
      exact Option.map_eq_some_iff.mpr ⟨system, went, rfl⟩
  | @moves i number conn move y at_ went =>
      obtain ⟨seen, moved⟩ := (kept.context conn.id).step fits number
        (fun argv same => short i argv (by rw [same])) went
      exact ⟨kept.moved fits seen moved, reachable_moved at_ seen reached⟩
  | serves went =>
      obtain ⟨kept, same⟩ := kept.served fits went
      exact ⟨kept, by rw [same]; exact reached⟩

/-- Every run keeps what is known, and is a run of the pool of queues. -/
theorem pool_run (fits : AnswersFit allocates serve) (kept : Kept allocates serve starts w)
    (reached : RedisReachable pool w.redis) {actions : List HiredisAction}
    (short : ∀ i argv, .client i (.append argv) ∈ actions → commandLength argv < 2 ^ 31)
    (run : actions.foldlM (OverHiredis.step allocates serve pool) w = some w') :
    Kept allocates serve starts w' ∧ RedisReachable pool w'.redis := by
  induction actions generalizing w with
  | nil =>
      cases run
      exact ⟨kept, reached⟩
  | cons a actions ih =>
      rw [List.foldlM_cons] at run
      obtain ⟨next, step, rest⟩ := Option.bind_eq_some_iff.mp run
      obtain ⟨kept, reached⟩ := pool_step fits kept reached
        (fun i argv same => short i argv (by rw [same]; exact List.mem_cons_self)) step
      exact ih kept reached (fun i argv member => short i argv (List.mem_cons_of_mem _ member)) rest

/-- A client that asks twice in one write and reads one of the two replies that come, and the next one with
    the same connection, which has the other one in its reader. -/
def leftInReader : List HiredisAction :=
  [.pool .enter, .pool (.lock 0), .pool (.check 0 true true), .client 0 (.append [bytes "PING"]),
    .client 0 (.append [bytes "PING"]), .client 0 .getReply, .client 0 (.write (.wrote 28)),
    .serve 0 [bytes "PING"],
    .serve 0 [bytes "PING"], .client 0 (.read (.data (bytes ":0\r\n:1\r\n"))), .pool (.release 0),
    .pool (.push 0),
    .pool .enter, .pool (.lock 0), .pool (.check 0 true true), .client 0 (.append [bytes "PING"]),
    .client 0 .getReply]

/-- The commands are short. -/
theorem short_leftInReader (i : Nat) (argv : List Bytes) (member : .client i (.append argv) ∈ leftInReader) :
    commandLength argv < 2 ^ 31 := by
  have ping : i = 0 ∧ argv = [bytes "PING"] := by simpa [leftInReader] using member
  obtain ⟨rfl, rfl⟩ := ping
  decide +kernel

example : (leftInReader.foldlM (OverHiredis.step (fun _ => true) turns ⟨1, 10⟩)
    (.start (fun _ => false) [⟨0, 0, true⟩] 0)).map (·.returned) =
      some [⟨0, 0, 0, some 0, []⟩, ⟨0, 1, 1, some 0, [0]⟩] := by
  decide +kernel

/-- The run goes through. -/
theorem leftInReader_run : ∃ w, leftInReader.foldlM (OverHiredis.step (fun _ => true) turns ⟨1, 10⟩)
    (.start (fun _ => false) [⟨0, 0, true⟩] 0) = some w := by
  have runs : (leftInReader.foldlM (OverHiredis.step (fun _ => true) turns ⟨1, 10⟩)
      (.start (fun _ => false) [⟨0, 0, true⟩] 0)).isSome = true := by
    decide +kernel
  exact Option.isSome_iff_exists.mp runs

/-- Every run of a pool with its contexts, from a pool that was filled, is a run of the pool of queues. -/
theorem pool_refines_redis {dial : Checkout.Dial} {idle : List Conn}
    (filled : Checkout.fillPool pool dial = some idle)
    (now : Int) (fits : AnswersFit allocates serve) (starts : Nat → σ) {actions : List HiredisAction}
    (short : ∀ i argv, .client i (.append argv) ∈ actions → commandLength argv < 2 ^ 31)
    (run : actions.foldlM (OverHiredis.step allocates serve pool) (.start starts idle now) = some w) :
    RedisReachable pool w.redis :=
  (pool_run fits (kept_start starts idle now) (.start filled now) short run).2

theorem pool_refines_redis_left : ∃ w, leftInReader.foldlM (OverHiredis.step (fun _ => true) turns ⟨1, 10⟩)
    (.start (fun _ => false) [⟨0, 0, true⟩] 0) = some w ∧ RedisReachable ⟨1, 10⟩ w.redis := by
  have filled : Checkout.fillPool ⟨1, 10⟩ (fun _ => some (0, true)) = some [⟨0, 0, true⟩] := rfl
  obtain ⟨w, run⟩ := leftInReader_run
  exact ⟨w, run, pool_refines_redis filled 0 turns_fit (fun _ => false) short_leftInReader run⟩

/-- A reply that a call returned is the server's answer to the command at its place on the connection.  A
    client that got its connection with no reply outstanding appended this command itself. -/
theorem returned_to_own {dial : Checkout.Dial} {idle : List Conn}
    (filled : Checkout.fillPool pool dial = some idle)
    (now : Int) (fits : AnswersFit allocates serve) (starts : Nat → σ) {actions : List HiredisAction}
    (short : ∀ i argv, .client i (.append argv) ∈ actions → commandLength argv < 2 ^ 31)
    (run : actions.foldlM (OverHiredis.step allocates serve pool) (.start starts idle now) = some w) :
    ∀ e ∈ w.returned, ∃ reply answered,
      (w.exchanges e.conn).returned[e.position]? = some reply ∧
      (answers serve (starts e.conn) (w.exchanges e.conn).appended)[e.position]? = some reply ∧
      (w.owners e.conn)[e.position]? = some answered ∧ (e.takenOver = [] → answered = e.reader) := by
  obtain ⟨kept, reached⟩ := pool_run fits (kept_start starts idle now) (.start filled now) short run
  intro e member
  obtain ⟨inside, it⟩ := kept.returned e member
  have owner := Nat.lt_of_lt_of_le inside ((kept.context e.conn).length_returned_le fits)
  obtain ⟨⟨served, waiting, input, flow⟩, -⟩ := (kept.context e.conn).order
  refine ⟨(w.exchanges e.conn).returned[e.position], (w.owners e.conn)[e.position],
    List.getElem?_eq_getElem inside, ?_, List.getElem?_eq_getElem owner, ?_⟩
  · obtain ⟨rest, all⟩ := flow.returned fits
    rw [← all, List.getElem?_append_left inside]
    exact List.getElem?_eq_getElem inside
  · intro clean
    have read : ⟨e.reader, (w.owners e.conn)[e.position], e.takenOver⟩ ∈ w.redis.reads := by
      refine List.mem_filterMap.mpr ⟨e, member, ?_⟩
      rw [← it, List.getElem?_eq_getElem owner]
      rfl
    exact (reachable_tracked reached).clean _ read clean

theorem returned_to_own_left : ∃ w, leftInReader.foldlM (OverHiredis.step (fun _ => true) turns ⟨1, 10⟩)
    (.start (fun _ => false) [⟨0, 0, true⟩] 0) = some w ∧ ∀ e ∈ w.returned, ∃ reply answered,
      (w.exchanges e.conn).returned[e.position]? = some reply ∧
      (answers turns false (w.exchanges e.conn).appended)[e.position]? = some reply ∧
      (w.owners e.conn)[e.position]? = some answered ∧ (e.takenOver = [] → answered = e.reader) := by
  have filled : Checkout.fillPool ⟨1, 10⟩ (fun _ => some (0, true)) = some [⟨0, 0, true⟩] := rfl
  obtain ⟨w, run⟩ := leftInReader_run
  exact ⟨w, run, returned_to_own filled 0 turns_fit (fun _ => false) short_leftInReader run⟩

end Waspp.Redis3m
