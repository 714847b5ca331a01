/-
Module: Waspp.Proofs.SessionIdle
Layer: Proofs
Purpose: How long a session outlives its last use.  `load` refuses a session whose `last_tm` lies more than
  `expiry_sec` back, but `update` writes a new `last_tm` only once the old one is `update_sec` old, and no
  handler writes one. Over the visits of a client at any times the `last_tm` of its session is the stamp of
  an idle timer, so the session is sure to be there after an idle time of `expiry_sec - update_sec`, and
  never after more than `expiry_sec`.
Imports: Waspp.Foundation.IdleTimer, Waspp.Foundation.Numerals, Waspp.Proofs.SessionTravel,
  Waspp.Proofs.SessionVisible
Trusted boundary: none (fully proved)
Main exports: Config.Outlasts, Clock.InOrder, Use.KeepsStamp, Spares, ComesBack, Stay, Stamped, Stay.kept,
  session_idle
Open obligations: none
-/
import Waspp.Foundation.IdleTimer
import Waspp.Foundation.Numerals
import Waspp.Proofs.SessionTravel
import Waspp.Proofs.SessionVisible

namespace Waspp

open CString Interaction

/-! ### The time in a session

The stamp of a session is the number in `last_tm`.  It is renewed when the session is created, and when it
is updated and not young any more. -/

/-- The clock does not go back during the request, and a `long` holds its time. -/
structure Clock.InOrder (clock : Clock) : Prop where
  nonneg : 0 ≤ clock.atLoad
  load_le : clock.atLoad ≤ clock.atUpdate
  update_le : clock.atUpdate ≤ clock.current
  fits : clock.current < 2 ^ 63

/-- The times of a request as those of a use of its session. -/
def Clock.InOrder.use {clock : Clock} (order : clock.InOrder) : IdleTimer.Use Int where
  checked := clock.atLoad
  compared := clock.atUpdate
  stamped := clock.current
  checked_le := order.load_le
  compared_le := order.update_le

/-- What `load` and `update` make of the age of a session. -/
def Config.bounds (cfg : Config) : IdleTimer.Bounds Int where
  expired age := decide (cfg.expirySec < Double.ofInt age)
  young age := decide (Double.ofInt age < cfg.updateSec)

/-- The age up to which `update` leaves a `last_tm`, if there is one: an `update_sec` that is negative, or no
    number, leaves none. -/
def Config.oldest (cfg : Config) : Option Rat :=
  match cfg.updateSec with
  | .finite update _ => some (max 0 update)
  | .infinite false => none
  | .infinite true => some 0
  | .nan => some 0

/-- `expiry_sec` leaves room for an idle time and that age. -/
def Config.Outlasts (cfg : Config) (idle : Int) : Prop :=
  match cfg.expirySec, cfg.oldest with
  | .infinite false, _ => True
  | .finite expiry _, some oldest => idle ≤ expiry - oldest
  | _, _ => False

/-- A session that `update` leaves is no older than the age up to which it leaves one. -/
theorem le_oldest {cfg : Config} {age : Int} (young : age ≤ 0 ∨ cfg.bounds.young age = true) {oldest : Rat}
    (found : cfg.oldest = some oldest) : age ≤ oldest := by
  have negative (le : age ≤ 0) : (age : Rat) ≤ 0 := by exact_mod_cast le
  unfold Config.oldest at found
  split at found
  · rename_i update representable is
    cases found
    rcases young with le | young
    · exact (negative le).trans (le_max_left _ _)
    · have less : Double.ofInt age < cfg.updateSec := of_decide_eq_true young
      rw [is] at less
      exact (Double.lt_of_ofInt_lt less).le.trans (le_max_right _ _)
  · cases found
  · rename_i is
    cases found
    rcases young with le | young
    · exact negative le
    · have less : Double.ofInt age < cfg.updateSec := of_decide_eq_true young
      exact absurd (is ▸ less) (Double.not_lt_infinite _)
  · rename_i is
    cases found
    rcases young with le | young
    · exact negative le
    · have less : Double.ofInt age < cfg.updateSec := of_decide_eq_true young
      exact absurd (is ▸ less) (Double.not_lt_nan _)

/-- A configuration that outlasts an idle time spans it. -/
theorem Config.Outlasts.spans {cfg : Config} {idle : Int} (outlasts : cfg.Outlasts idle) :
    cfg.bounds.Spans idle := by
  intro age young
  apply decide_eq_false
  unfold Config.Outlasts at outlasts
  split at outlasts
  · rename_i is
    rw [is]
    exact Double.not_infinite_lt _
  · rename_i expiry representable oldest is found
    have le := le_oldest young found
    have inside : ((idle + age : Int) : Rat) ≤ expiry := by
      push_cast
      linarith
    rw [is]
    exact Double.not_lt_of_le (Double.ofInt_le representable inside)
  · exact outlasts.elim

/-- An older session has expired if a younger one has. -/
theorem expired_mono {cfg : Config} (a b : Int) (le : a ≤ b) (expired : cfg.bounds.expired a = true) :
    cfg.bounds.expired b = true := by
  have less : cfg.expirySec < Double.ofInt a := of_decide_eq_true expired
  exact decide_eq_true (Double.lt_of_lt_of_le less (Double.ofInt_mono le))

/-- `get_last_tm` reads the time that `get_curr_tm` wrote. -/
theorem strtol_currTm {env : Env} (order : env.clock.InOrder) :
    strtol (Session.currTm env) = env.clock.current := by
  have nonneg := order.nonneg.trans (order.load_le.trans order.update_le)
  have fits := order.fits
  unfold Session.currTm
  cases written : env.clock.current with
  | ofNat n =>
      rw [written] at fits
      exact strtol_toDecimal (Int.ofNat_lt.mp fits)
  | negSucc n =>
      rw [written] at nonneg
      exact absurd nonneg (by simp)

/-- A new session has the current time. -/
theorem lastTm_create {env : Env} (order : env.clock.InOrder) (c : Ctx) :
    (Session.create env c).1.lastTm = env.clock.current :=
  strtol_currTm order

/-- A session that is updated keeps a young stamp and renews any other. -/
theorem lastTm_update {env : Env} (order : env.clock.InOrder) (s : Session) (c : Ctx) :
    (s.update env c).1.lastTm =
      if env.cfg.bounds.young (env.clock.atUpdate - s.lastTm) =
        true then s.lastTm else env.clock.current := by
  unfold Session.update
  split
  · rename_i young
    exact (if_pos (decide_eq_true young)).symm
  · rename_i old
    have renewed : ¬ env.cfg.bounds.young (env.clock.atUpdate - s.lastTm) = true := fun young =>
      old (of_decide_eq_true young)
    rw [if_neg renewed, ← strtol_currTm order]
    simp [Session.lastTm, valueOf_put]

/-- The use puts no `last_tm`. -/
def Use.KeepsStamp (use : Use) : Prop := ∀ value, .put (bytes "last_tm") value ∉ use.made

/-- Other entries leave the stamp. -/
theorem lastTm_lastSession {calls : List SessionCall} (keeps : ∀ value, .put (bytes "last_tm") value ∉ calls)
    (s : Session) : (lastSession calls s).lastTm = s.lastTm := by
  induction calls generalizing s with
  | nil => rfl
  | cons call rest ih =>
      have later := ih (fun value member => keeps value (List.mem_cons_of_mem _ member)) (call.session s)
      refine Eq.trans later ?_
      cases call with
      | get name => exact congrArg strtol (NameValue.valueOf_ensure _ _ _)
      | put name value =>
          have other : name ≠ bytes "last_tm" := by
            rintro rfl
            exact keeps value (List.mem_cons_self ..)
          exact congrArg strtol ((NameValue.valueOf_assign _ _ _ _).trans (if_neg other))

/-! ### What the handlers put

No handler puts an entry `last_tm`, so only the constructor touches the stamp. -/

section Spares

variable {env : Env} {α : Type}

/-- The action, when it returns, has used the session without putting what the server knows a client by or
    its time. -/
def Spares (env : Env) (m : Act Unit) : Prop :=
  ∀ c, m.Ensures c fun _ r c' => r = .ok () → ∃ use, Uses env c use c' ∧ use.KeepsClient ∧ use.KeepsStamp

/-- The action changes neither what the request shows nor the response. -/
def OnlyReads (m : Act α) : Prop := ∀ c, m.Ensures c fun _ _ c' => SameRequest c c' ∧ c'.res = c.res

/-- Reading a parameter is only reading. -/
theorem OnlyReads.param (name : Bytes) : OnlyReads (Act.param name) := fun c => ⟨.readParam c name, rfl⟩

theorem OnlyReads.db (q : DbCall) : OnlyReads (Act.db q) := by
  intro c
  unfold Act.db
  simp only [Action.ensures_bind, Action.ensures_ask]
  intro reply
  cases reply with
  | ok answer => exact ⟨.refl c, rfl⟩
  | error e => exact ⟨.refl c, rfl⟩

/-- A use of the session behind actions that only read is one of the whole. -/
theorem Uses.of_same {c c₀ c' : Ctx} {use : Use} (same : SameRequest c c₀) (res : c₀.res = c.res)
    (uses : Uses env c₀ use c') : Uses env c use c' := by
  cases uses with
  | none alike => exact .none (res ▸ alike)
  | signOut alike => exact .signOut (res ▸ alike)
  | calls same' res' constructed alike => exact .calls (same.trans same') (res'.trans res) constructed alike

/-- What only reads may come before what spares the stamp. -/
theorem Spares.bind {m : Act α} {f : α → Act Unit} (first : OnlyReads m) (next : ∀ a, Spares env (f a)) :
    Spares env (m >>= f) := by
  intro c
  apply Action.ensures_bind.mpr
  apply (first c).mono
  intro trace r c₀ read
  cases r with
  | error e => exact fun returned => absurd returned (by simp)
  | ok a =>
      apply (next a c₀).mono
      intro later r' c' spares returned
      rcases spares returned with ⟨use, uses, keeps⟩
      exact ⟨use, uses.of_same read.1 read.2, keeps⟩

/-- A branch spares the stamp when both of its sides do. -/
theorem Spares.ite (p : Prop) [Decidable p] {m n : Act Unit} (yes : Spares env m) (no : Spares env n) :
    Spares env (if p then m else n) := by
  split
  · exact yes
  · exact no

/-- What leaves the session spares the stamp. -/
theorem Spares.of_leaves {asks : DbCall → Prop} {m : Act Unit} (leaves : Leaves asks m) : Spares env m :=
  fun c =>
  (leaves c).mono fun _ _ _ left _ => ⟨.none, .none left.1, by simp [Use.KeepsClient, Use.made],
    by simp [Use.KeepsStamp, Use.made]⟩

/-- A session that nothing is put into. -/
theorem Spares.session {f : Session → Act Unit} (leaves : ∀ s, Leaves (fun _ => True) (f s)) :
    Spares env (Act.session env >>= f) := by
  intro c
  apply ensures_session_bind
  · intro e c₁ _ returned
    exact absurd returned (by simp)
  · intro s c₁ constructed
    apply (leaves s c₁).mono
    intro _ _ c' left _
    exact ⟨.calls s [], .calls (.refl c) rfl constructed left.1, by simp [Use.KeepsClient, Use.made],
      by simp [Use.KeepsStamp, Use.made]⟩

/-- A page of the forum spares it. -/
theorem html_spares (file : Bytes) : Spares env (DirForum.html env file) := by
  apply Spares.session
  intro s
  apply Leaves.ite
  · intro _
    exact .redirectTo _
  · intro _
    apply Leaves.bind (.getFile _)
    intro _
    apply Leaves.bind (.getFile _)
    intro _
    apply Leaves.bind .setJsonp
    intro _
    apply Leaves.bind (.getFile _)
    intro _
    exact .pure _

theorem indexJsonp_spares : Spares env (DirForum.indexJsonp env) := by
  apply Spares.session
  intro s
  apply Leaves.ite
  · intro _
    exact .writeJsonp _
  · intro _
    apply Leaves.get
    intro c
    apply Leaves.bind (.db trivial)
    intro _
    apply Leaves.bind (.db trivial)
    intro totalCount
    apply Leaves.bind (.db trivial)
    intro rows
    exact .writeJsonp _

theorem paramsJsonp_spares : Spares env (DirForum.paramsJsonp env) := by
  apply Spares.session
  intro s
  apply Leaves.ite
  · intro _
    exact .writeJsonp _
  · intro _
    apply Leaves.get
    intro c
    exact .writeJsonp _

theorem forumPost_spares : Spares env (DirForum.post env) := by
  apply Spares.session
  intro s
  apply Leaves.ite
  · intro _
    exact .redirectTo _
  intro _
  apply Leaves.bind (.param _)
  intro seqText
  apply Leaves.bind (.param _)
  intro title
  apply Leaves.ite
  · intro _
    exact .errMsg _
  intro _
  apply Leaves.bind (.param _)
  intro content
  apply Leaves.ite
  · intro _
    exact .errMsg _
  intro _
  apply Leaves.bind (.db trivial)
  intro _
  apply Leaves.ite
  · intro _
    apply Leaves.bind (.db trivial)
    intro lastKey
    apply Leaves.bind (.param _)
    intro title
    apply Leaves.bind (.param _)
    intro content
    apply Leaves.bind (.db trivial)
    intro affectedRows
    apply Leaves.ite
    · intro _
      exact .errMsg _
    · intro _
      exact .redirectTo _
  · intro _
    apply Leaves.bind (.param _)
    intro title
    apply Leaves.bind (.param _)
    intro content
    apply Leaves.bind (.param _)
    intro username
    apply Leaves.bind (.db trivial)
    intro _
    exact .redirectTo _

theorem signIn_spares (userid : Nat) : Spares env (DirUser.signIn env userid) := by
  intro c
  apply (signIn_ensures userid).mono
  intro trace r c' left returned
  rcases left.2 returned with ⟨s, c₁, constructed, alike⟩
  refine ⟨_, .calls (.refl c) rfl constructed alike, ?_, ?_⟩
  · intro name value put
    simp only [Use.made, List.mem_cons, List.not_mem_nil, or_false, SessionCall.put.injEq] at put
    rcases put with ⟨rfl, -⟩ | ⟨rfl, -⟩
    · decide
    · decide
  · intro value put
    simp only [Use.made, List.mem_cons, List.not_mem_nil, or_false, SessionCall.put.injEq] at put
    rcases put with ⟨same, -⟩ | ⟨same, -⟩
    · exact absurd same (by decide)
    · exact absurd same (by decide)

theorem auth_spares : Spares env (DirUser.auth env) := by
  have page (errCode : ErrorType) : Spares env (errMsg env errCode) :=
    .of_leaves (show Leaves (fun _ => True) (errMsg env errCode) from .errMsg errCode)
  apply Spares.bind (.param _)
  intro username
  apply Spares.ite _ (page _)
  apply Spares.bind (.param _)
  intro passwd
  apply Spares.ite _ (page _)
  apply Spares.bind (.param _)
  intro passwd
  apply Spares.bind (.param _)
  intro shard
  apply Spares.bind (.db _)
  intro _
  apply Spares.bind (.param _)
  intro username
  apply Spares.bind (.db _)
  intro rs
  cases rs with
  | nil => exact page _
  | cons userid rest =>
      apply Spares.bind (.db _)
      intro rs
      cases rs with
      | nil => exact page _
      | cons row more => exact signIn_spares _

theorem signout_spares : Spares env (DirUser.signout env) := by
  intro c
  apply Action.ensures_modify_bind.mpr
  apply (Action.ensures_modify _).mpr
  intro _
  exact ⟨.signOut, .signOut (.redirectTo _ _), by simp [Use.KeepsClient, Use.made],
    by simp [Use.KeepsStamp, Use.made]⟩

theorem test_spares : Spares env (DirPerformance.test env) := by
  intro c
  apply ensures_session_bind
  · intro e c₁ _ returned
    exact absurd returned (by simp)
  · intro s c₁ constructed
    apply ensures_put_bind.mpr
    apply Leaves.ensures
    · apply Leaves.get
      intro c
      apply Leaves.bind (.db trivial)
      intro _
      apply Leaves.bind (.db trivial)
      intro totalCount
      apply Leaves.bind (.db trivial)
      intro rows
      exact .writeJsonp _
    · intro trace r c' left _
      refine ⟨.calls s [.put (bytes "userid") (bytes "test")], .calls (.refl c) rfl constructed left, ?_, ?_⟩
      · intro name value put
        simp only [Use.made, List.mem_singleton, SessionCall.put.injEq] at put
        rcases put with ⟨rfl, -⟩
        decide
      · intro value put
        simp only [Use.made, List.mem_singleton, SessionCall.put.injEq] at put
        exact absurd put.1 (by decide)

end Spares

/-- No handler of the routing table puts what the server knows a client by, or its time. -/
theorem routes_spare (env : Env) : ∀ route ∈ routes env, Spares env route.func := by
  have pageSpares (file : Bytes) : Spares env (DirUser.page env file) :=
    .of_leaves (show Leaves (fun _ => True) (DirUser.page env file) from .page file)
  simp only [routes, List.mem_cons, List.not_mem_nil, or_false, forall_eq_or_imp, forall_eq]
  exact ⟨html_spares _, indexJsonp_spares, html_spares _, paramsJsonp_spares, html_spares _,
    paramsJsonp_spares,
    .of_leaves (show Leaves (fun _ => True) (pure ()) from .pure _), forumPost_spares, pageSpares _,
    auth_spares, pageSpares _, .of_leaves userPost_leaves, signout_spares, test_spares⟩

/-- Every answer over the routing table that is no internal error comes about by a use that puts no
    `last_tm`. -/
theorem routes_answersBy_keeping {env : Env} {c c' : Ctx} {trace : List (Event DbCall Reply)}
    (fresh : c.res.Fresh) (runs : (handleRequest env (routes env)).Runs c trace (.ok ()) c')
    (succeeded : c'.res.status ≠ some .internalServerError) :
    ∃ use, AnswersBy env c use c' ∧ use.KeepsStamp := by
  have empty : setCookies c.res = [] := by
    rw [setCookies, fresh.headers, List.filter_nil]
  have spec : (handleRequest env (routes env)).Ensures c fun trace r c' =>
      r = .ok () ∧ Handled (routes env)
        (fun _ _ r c' => r = .ok () → ∃ use, Uses env c use c' ∧ use.KeepsClient ∧ use.KeepsStamp) c trace
          c' :=
    handleRequest_handled empty fresh.cookies fun route member => routes_spare env route member c
  cases (spec.runs runs).2 with
  | stock headers cookies =>
      refine ⟨.none, ⟨c, .none (.refl c.res), fun name value put => absurd put List.not_mem_nil, ?_⟩,
        fun value put =>
        absurd put List.not_mem_nil⟩
      rw [headers, empty, fresh.cookies]
      rfl
  | failed selected left res =>
      rw [res] at succeeded
      exact absurd rfl succeeded
  | @routed uri trace c₁ c' selected left cookies headers status =>
      rcases left rfl with ⟨use, uses, keeps, stamp⟩
      exact ⟨use, ⟨c₁, uses, keeps, headers⟩, stamp⟩

/-! ### Visits at any times -/

/-- The client makes the visit with what it holds, however old its session is. -/
structure ComesBack (server : Env) (table : Env → List Route) (addr ua : Bytes) (client : Client)
    (v : Visit) :
    Prop where
  /-- A client without a session is asked for no age. -/
  visits : Visits server table addr ua { client with last := none } v
  order : v.env.clock.InOrder
  keeps : ¬ v.Failed → v.use.KeepsStamp

/-- The timer of the client's session after a visit. -/
def Visit.timer {bounds : IdleTimer.Bounds Int} (v : Visit) (u : IdleTimer.Use Int)
    (timer : Option (IdleTimer bounds))
    (later : ∀ t ∈ timer, t.last.stamped ≤ u.checked) : Option (IdleTimer bounds) :=
  if v.Failed then timer
  else
    match v.use with
    | .none => timer
    | .signOut => none
    | .calls _ _ =>
        match timer, later with
        | none, _ => some (.start u)
        | some t, later => some (t.touch u (later t rfl))

/-- What a client has after any number of visits, at any times that do not go back, and the timer of its
    session. -/
inductive Stay (server : Env) (table : Env → List Route) (addr ua : Bytes) :
    Client → Option (IdleTimer server.cfg.bounds) → Prop where
  | start : Stay server table addr ua {} none
  | visit {client : Client} {timer : Option (IdleTimer server.cfg.bounds)} {v : Visit}
      (stay : Stay server table addr ua client timer) (comes : ComesBack server table addr ua client v)
      (later : ∀ t ∈ timer, t.last.stamped ≤ comes.order.use.checked) :
      Stay server table addr ua (client.after server v) (v.timer comes.order.use timer later)

/-- What a visit makes of what the client has. -/
inductive VisitCases (server : Env) (addr ua : Bytes) (client : Client) (v : Visit) : Prop where
  /-- The answer is an internal error, or the handler did not use the session. -/
  | kept (unused : v.Failed ∨ v.use = .none) (held : (client.after server v).held = client.held)
  | signedOut (succeeded : ¬ v.Failed) (use : v.use = .signOut) (held : (client.after server v).held = [])
  | used {c₀ c₁ : Ctx} {s : Session} {calls : List SessionCall} (succeeded : ¬ v.Failed)
      (use : v.use = .calls s calls)
      (same : SameRequest v.start c₀) (constructed : Session.construct v.env c₀ = (.ok s, c₁))
      (shows : (∀ s₀, Loads v.env c₀ s₀ → Shows v.env addr ua client.held s₀) →
        Shows server addr ua (client.after server v).held (lastSession calls s))

section Steps

variable {server : Env} {table : Env → List Route} {addr ua : Bytes} {client : Client} {v : Visit} {c₀ : Ctx}

/-- What a visit leaves with the client. -/
theorem ComesBack.after (comes : ComesBack server table addr ua client v)
    (named : CookieName server.cfg.sessCookie) :
    VisitCases server addr ua client v := by
  have answered := comes.visits.answered
  by_cases failed : v.Failed
  · exact .kept (Or.inl failed) (answered.held_of_failed failed client)
  · rcases answered.used failed with ⟨c₁, uses, keeps, headers⟩
    have none : setCookies c₁.res = [] := by
      rw [uses.headers, setCookies, show v.start.res = v.res from rfl, answered.fresh.headers,
        List.filter_nil]
    have named' : CookieName v.env.cfg.sessCookie := by
      rw [comes.visits.same.cfg]
      exact named
    have empty : v.start.res.cookies = [] := answered.fresh.cookies
    -- What the client holds depends on what the session has left in the response.
    have led {cookie : Bytes} (leads : Leads v.env client.held c₁.res.cookies cookie) :
        (client.after server v).held = cookie := by
      rw [keepCookie_eq, headers, none, List.nil_append, ← comes.visits.same.cfg]
      exact leads.keepCookie named'
    generalize made : v.use = use at uses keeps
    cases uses with
    | none alike => exact .kept (Or.inr made) (led (Or.inl ⟨alike.cookies.trans empty, rfl⟩))
    | signOut alike =>
        refine .signedOut failed made (led (Or.inr ⟨?_, List.not_mem_nil⟩))
        rw [alike.cookies]
        simp [Response.deleteCookie, empty, NameValue.assign]
    | @calls c₀ c₂ _ s calls same res constructed alike =>
        refine .used failed made same constructed fun loaded => ?_
        have carried := construct_carried constructed (res ▸ empty) (comes.visits.remoteAddr same)
          (comes.visits.agent same) loaded
        have puts : ∀ name value, .put name value ∈ calls →
            name ≠ bytes "last_ip" ∧ name ≠ bytes "last_ua" := keeps
        rcases performAll_carried carried puts with ⟨cookie, leads, shows⟩
        rw [← alike.cookies] at leads
        rw [performAll_session] at shows
        rw [led leads]
        exact (Shows.of_same comes.visits.same).mp shows

/-! ### The session that is loaded

A client that comes back in time is loaded, as the stamp in its cookie is as old as the timer says. -/

/-- The cookie that is presented is the one the client holds. -/
theorem ComesBack.cookie (comes : ComesBack server table addr ua client v)
    (named : CookieName server.cfg.sessCookie)
    (same : SameRequest v.start c₀) : presented v.env c₀ = client.held :=
  comes.visits.cookie named same

/-- A client without a session has none loaded. -/
theorem ComesBack.not_loads (comes : ComesBack server table addr ua client v)
    (named : CookieName server.cfg.sessCookie)
    (nothing : client.held = []) (same : SameRequest v.start c₀) (s₀ : Session) : ¬ Loads v.env c₀ s₀ := by
  intro loads
  have long := loads.long
  rw [comes.cookie named same, nothing] at long
  exact absurd long (by decide)

/-- What is loaded for a client with a session is a session that shows the same. -/
theorem ComesBack.loaded (comes : ComesBack server table addr ua client v)
    (named : CookieName server.cfg.sessCookie)
    (roundTrip : ∀ entries, server.archive.load (server.archive.save entries) = .ok entries) {s s₀ : Session}
    (shows : Shows server addr ua client.held s) (same : SameRequest v.start c₀)
    (loads : Loads v.env c₀ s₀) :
    SameEntries s s₀ ∧ Shows v.env addr ua client.held s₀ := by
  rcases shows with ⟨-, h, held, own, entries⟩
  have archived := loads.archived
  rw [comes.cookie named same, held, comes.visits.same.archive, archived_cookieValue roundTrip] at archived
  have equal : s₀ = h := congrArg Session.mk (Except.ok.inj archived).symm
  rw [equal, held, ← comes.visits.same.cookieValue]
  exact ⟨entries, own.shows⟩

/-- A session that has not expired is loaded. -/
theorem ComesBack.loads (comes : ComesBack server table addr ua client v)
    (named : CookieName server.cfg.sessCookie)
    (roundTrip : ∀ entries, server.archive.load (server.archive.save entries) = .ok entries) {s : Session}
    (shows : Shows server addr ua client.held s) (same : SameRequest v.start c₀)
    (recent : ¬ server.cfg.expirySec < Double.difftime v.env.clock.atLoad s.lastTm) :
    ∃ s₀, Loads v.env c₀ s₀ ∧ SameEntries s s₀ := by
  have visits : Visits server table addr ua { client with last := some s } v :=
    { comes.visits with recent := fun s' last => Option.some.inj last ▸ recent }
  rcases visits.loads named roundTrip rfl shows same with ⟨h, loads, entries, -, -⟩
  exact ⟨h, loads, entries⟩

/-! ### The stamp of a session -/

/-- What the client has is sound, and its session is as old as the timer says. -/
structure Stamped (server : Env) (addr ua : Bytes) (client : Client)
    (timer : Option (IdleTimer server.cfg.bounds)) :
    Prop where
  sound : client.Sound server addr ua
  stamp : client.last.map Session.lastTm = timer.map IdleTimer.stamp

variable {timer : Option (IdleTimer server.cfg.bounds)} {t : IdleTimer server.cfg.bounds}

/-- A client that holds nothing has no stamp. -/
theorem Stamped.start : Stamped server addr ua {} none := ⟨rfl, rfl⟩

/-- A client without a timer holds no cookie. -/
theorem Stamped.held_nil (kept : Stamped server addr ua client none) : client.held = [] := by
  have none : client.last = none := Option.map_eq_none_iff.mp kept.stamp
  have sound := kept.sound
  rw [Client.Sound, none] at sound
  exact sound

/-- A client with a timer has a session, and holds its cookie. -/
theorem Stamped.session (kept : Stamped server addr ua client (some t)) :
    ∃ s, client.last = some s ∧ s.lastTm = t.stamp ∧ Shows server addr ua client.held s := by
  rcases Option.map_eq_some_iff.mp kept.stamp with ⟨s, last, stamp⟩
  have sound := kept.sound
  rw [Client.Sound, last] at sound
  exact ⟨s, last, stamp, sound⟩

/-- Sessions with the same entries have one stamp. -/
theorem SameEntries.lastTm {s s' : Session} (same : SameEntries s s') : s'.lastTm = s.lastTm :=
  congrArg strtol (same _)

/-- A session is loaded exactly while the timer is live, and then it shows what the client's session shows.
    -/
theorem ComesBack.loads_iff (comes : ComesBack server table addr ua client v)
    (named : CookieName server.cfg.sessCookie)
    (roundTrip : ∀ entries, server.archive.load (server.archive.save entries) = .ok entries)
    (kept : Stamped server addr ua client (some t)) (same : SameRequest v.start c₀) :
    (∃ s₀, Loads v.env c₀ s₀) ↔ t.Live comes.order.use := by
  rcases kept.session with ⟨s, -, stamp, shows⟩
  have live : t.Live comes.order.use ↔
      ¬ server.cfg.expirySec < Double.difftime v.env.clock.atLoad s.lastTm := by
    rw [stamp]
    exact decide_eq_false_iff_not
  rw [live]
  constructor
  · rintro ⟨s₀, loads⟩
    have recent := loads.acceptable.recent
    have age : s₀.lastTm = s.lastTm := (comes.loaded named roundTrip shows same loads).1.lastTm
    rw [comes.visits.same.cfg] at recent
    exact age ▸ recent
  · intro recent
    rcases comes.loads named roundTrip shows same recent with ⟨s₀, loads, -⟩
    exact ⟨s₀, loads⟩

/-- The stamp of the session that is constructed is that of the timer after the use. -/
theorem ComesBack.lastTm_constructed (comes : ComesBack server table addr ua client v)
    (named : CookieName server.cfg.sessCookie)
    (roundTrip : ∀ entries, server.archive.load (server.archive.save entries) = .ok entries)
    (kept : Stamped server addr ua client (some t)) (later : t.last.stamped ≤ comes.order.use.checked)
    (same : SameRequest v.start c₀) {s : Session} {c₁ : Ctx}
    (constructed : Session.construct v.env c₀ = (.ok s, c₁)) :
    s.lastTm = (t.touch comes.order.use later).stamp := by
  have live := comes.loads_iff named roundTrip kept same
  have outcome := construct_cases v.env c₀
  rw [constructed] at outcome
  rw [IdleTimer.stamp_touch]
  cases outcome with
  | creates readable refused =>
      have dead : ¬ t.Live comes.order.use := fun alive => (live.mpr alive).elim refused
      rw [if_neg fun both => dead both.1, lastTm_create comes.order]
      rfl
  | @updates s₀ c' loads =>
      rcases kept.session with ⟨s, -, stamp, shows⟩
      have age : s₀.lastTm = t.stamp := by
        rw [(comes.loaded named roundTrip shows same loads).1.lastTm, stamp]
      have alive : t.Live comes.order.use := live.mp ⟨s₀, loads⟩
      rw [lastTm_update comes.order, comes.visits.same.cfg]
      by_cases young : server.cfg.bounds.young (v.env.clock.atUpdate - s₀.lastTm) = true
      · rw [if_pos young, if_pos ⟨alive, age ▸ young⟩, age]
      · rw [if_neg young, if_neg fun both => young (age ▸ both.2)]
        rfl

/-- A visit keeps the timer. -/
theorem ComesBack.kept (comes : ComesBack server table addr ua client v)
    (named : CookieName server.cfg.sessCookie)
    (roundTrip : ∀ entries, server.archive.load (server.archive.save entries) = .ok entries)
    (kept : Stamped server addr ua client timer)
    (later : ∀ t ∈ timer, t.last.stamped ≤ comes.order.use.checked) :
    Stamped server addr ua (client.after server v) (v.timer comes.order.use timer later) := by
  cases comes.after named with
  | kept unused held =>
      have last : (client.after server v).last = client.last := by
        rcases unused with failed | none
        · exact if_pos failed
        · simp [Client.after, none]
      have same : v.timer comes.order.use timer later = timer := by
        rcases unused with failed | none
        · exact if_pos failed
        · simp [Visit.timer, none]
      rw [same]
      refine ⟨?_, last ▸ kept.stamp⟩
      have sound := kept.sound
      unfold Client.Sound at sound ⊢
      rw [last, held]
      exact sound
  | signedOut succeeded use held =>
      have last : (client.after server v).last = none := by simp [Client.after, succeeded, use]
      have none : v.timer comes.order.use timer later = none := by simp [Visit.timer, succeeded, use]
      rw [none]
      refine ⟨?_, by rw [last]; rfl⟩
      unfold Client.Sound
      rw [last]
      exact held
  | @used c₀ c₁ s calls succeeded use same constructed shows =>
      have last : (client.after server v).last = some (lastSession calls s) := by
        simp [Client.after, succeeded, use]
      have puts : ∀ value, .put (bytes "last_tm") value ∉ calls := by
        have keeps := comes.keeps succeeded
        rw [use] at keeps
        exact keeps
      cases timer with
      | none =>
          have nothing := comes.not_loads named kept.held_nil same
          have outcome := construct_cases v.env c₀
          rw [constructed] at outcome
          have started : v.timer comes.order.use none later = some (.start comes.order.use) := by
            simp [Visit.timer, succeeded, use]
          rw [started]
          constructor
          · unfold Client.Sound
            rw [last]
            exact shows fun s₀ loads => absurd loads (nothing s₀)
          · rw [last, Option.map_some, lastTm_lastSession puts]
            cases outcome with
            | creates =>
                rw [lastTm_create comes.order]
                rfl
            | updates loads => exact absurd loads (nothing _)
      | some t =>
          have touched : v.timer comes.order.use (some t) later =
              some (t.touch comes.order.use (later t rfl)) := by
            simp [Visit.timer, succeeded, use]
          rw [touched]
          constructor
          · rcases kept.session with ⟨s, -, -, held⟩
            unfold Client.Sound
            rw [last]
            exact shows fun s₀ loads => (comes.loaded named roundTrip held same loads).2
          · rw [last, Option.map_some, lastTm_lastSession puts,
              comes.lastTm_constructed named roundTrip kept (later t rfl) same constructed]
            rfl

/-- However long a client stays, the `last_tm` of its session is the stamp of the timer. -/
theorem Stay.kept (stay : Stay server table addr ua client timer) (named : CookieName server.cfg.sessCookie)
    (roundTrip : ∀ entries, server.archive.load (server.archive.save entries) = .ok entries) :
    Stamped server addr ua client timer := by
  induction stay with
  | start => exact .start
  | visit stay comes later ih => exact comes.kept named roundTrip ih later

end Steps

/-- After any visits at any times, a client that comes back within `expiry_sec - update_sec` of the last
    use of its session finds it as it was left, up to the two entries that `update` rewrites, and one that
    comes back after more than `expiry_sec` is given a fresh one.  An `expiry_sec` that is no number is
    never exceeded. -/
theorem session_idle {server : Env} {table : Env → List Route} {addr ua : Bytes}
    (roundTrip : ∀ entries, server.archive.load (server.archive.save entries) = .ok entries)
    (named : CookieName server.cfg.sessCookie) {client : Client}
    {t : IdleTimer server.cfg.bounds} (stay : Stay server table addr ua client (some t)) {v : Visit}
    (comes : ComesBack server table addr ua client v) {c₀ : Ctx} (same : SameRequest v.start c₀) :
    ∃ s s' c₁, client.last = some s ∧ Session.construct v.env c₀ = (.ok s', c₁) ∧
      (server.cfg.Outlasts (v.env.clock.atLoad - t.last.compared) →
        ∀ name, name ≠ bytes "sess_id" → name ≠ bytes "last_tm" → (s'.get name).1 = (s.get name).1) ∧
      (server.cfg.expirySec < Double.difftime v.env.clock.atLoad t.last.stamped →
        s'.entries = freshEntries v.env c₀) := by
  have kept := stay.kept named roundTrip
  have live := comes.loads_iff named roundTrip kept same
  rcases kept.session with ⟨s, last, -, shows⟩
  have outcome := construct_cases v.env c₀
  generalize constructed : Session.construct v.env c₀ = result at outcome
  cases outcome with
  | throws unreadable =>
      rcases shows with ⟨-, h, held, -⟩
      refine absurd (Or.inr ⟨?_, fun _ => ?_⟩) unreadable
      · rw [comes.cookie named same, held]
        exact length_cookieValue server h
      · rw [comes.cookie named same, held, comes.visits.same.archive, archived_cookieValue roundTrip]
        exact ⟨_, rfl⟩
  | @creates c' readable refused same' res =>
      refine ⟨s, _, _, last, rfl, fun soon => ?_, fun _ => create_entries v.env same'⟩
      have alive : t.Live comes.order.use := t.live_of_spans soon.spans
      exact (live.mpr alive).elim fun s₀ loads => absurd loads (refused s₀)
  | @updates s₀ c' loads =>
      refine ⟨s, _, _, last, rfl, fun _ name sessId lastTm => ?_, fun late => ?_⟩
      · have entries := (comes.loaded named roundTrip shows same loads).1
        exact (valueOf_update v.env s₀ c' sessId lastTm).trans (entries name)
      · have dead : ¬ t.Live comes.order.use := t.not_live_of_late expired_mono (decide_eq_true late)
        exact absurd (live.mp ⟨s₀, loads⟩) dead

/-! ### Two visits -/

/-- Every request that `do_read` gives to the handler is answered with a use that puts no `last_tm`. -/
theorem exists_keeping_of_against {mysql : Mysql} {world : World} {env : Env} {endpoint : Endpoint}
    {received req : Request} (bare : received.cookies = [])
    (prepared : prepare endpoint received = .ok req) :
    ∃ use, (Visit.against mysql world env endpoint received req use).Answered routes ∧
      (¬ (Visit.against mysql world env endpoint received req use).Failed → use.KeepsStamp) := by
  have runs := handleRequest_runs mysql world env (routes env) (c := ⟨req, {}⟩) Response.fresh_default
  by_cases failed : (Visit.against mysql world env endpoint received req .none).Failed
  · exact ⟨.none, answered_of_against bare prepared fun succeeded => absurd failed succeeded,
      fun succeeded =>
      absurd failed succeeded⟩
  · rcases routes_answersBy_keeping Response.fresh_default runs failed with ⟨use, answers, keeps⟩
    exact ⟨use, answered_of_against bare prepared fun _ => answers, fun _ => keeps⟩

/-- A server that archives sessions and digests them, at a time. -/
private def idleServer (time : Int) : Env :=
  { bareEnv with md5 := Md5.md5, archive := textArchive, clock := ⟨time, time, time⟩ }

/-- A request to the forum with these further headers. -/
private def idleReceived (headers : List NameValue) : Request where
  uri := bytes "/_/dir/forum/index"
  headers := ⟨bytes "User-Agent", bytes "a"⟩ :: headers

/-- The first request as the handler gets it. -/
private def idleRequest : Request where
  remoteAddr := bytes "127.0.0.1"
  connectionOption := 'K'.toUInt8
  uri := bytes "/_/dir/forum/index"
  headers := [⟨bytes "User-Agent", bytes "a"⟩, ⟨bytes "Connection", []⟩, ⟨bytes "Cookie", []⟩]
  restParams := [bytes "_", bytes "dir", bytes "forum", bytes "index"]

/-- What its handler is left with by the constructor. -/
private def idleCreated : Session × Ctx :=
  Session.create (idleServer 0) ((⟨idleRequest, {}⟩ : Ctx).readCookie (idleServer 0).cfg.sessCookie)

/-- The first visit. -/
private def idleVisit : Visit :=
  .against plainMysql shippedWorld (idleServer 0) ⟨bytes "127.0.0.1", 0⟩ (idleReceived []) idleRequest
    (.calls idleCreated.1 [])

/-- The client after it. -/
private def idleClient : Client := ({} : Client).after (idleServer 0) idleVisit

/-- The second request, with the cookie that the client holds. -/
private def idleReturned : Request :=
  idleReceived [⟨bytes "Cookie", (idleServer 0).cfg.sessCookie ++ bytes "=" ++ idleClient.held⟩]

/-- The second request as the handler gets it. -/
private def idleRequestReturned : Request :=
  { idleRequest with
    headers := idleReturned.headers ++ [⟨bytes "Connection", []⟩]
    cookies := [⟨(idleServer 0).cfg.sessCookie, idleClient.held⟩] }

/-- The second visit, after 55 minutes. -/
private def idleReturn (use : Use) : Visit :=
  .against plainMysql shippedWorld (idleServer 3300) ⟨bytes "127.0.0.1",
    0⟩ idleReturned idleRequestReturned use

/-- The first visit is one of the client. -/
private theorem idleVisit_comes :
    ComesBack (idleServer 0) routes (bytes "127.0.0.1") (bytes "a") {} idleVisit := by
  have answered : idleVisit.Answered routes := by
    apply answered_of_against rfl (by decide +kernel)
    intro _
    have constructed : Session.construct (idleServer 0) ⟨idleRequest, {}⟩ = (.ok idleCreated.1,
        idleCreated.2) := rfl
    refine ⟨idleCreated.2, .calls (.refl _) rfl constructed (.refl _), ?_, by decide +kernel⟩
    exact fun name value put => absurd put List.not_mem_nil
  refine ⟨⟨⟨rfl, rfl, rfl⟩, rfl, by decide, .nothing rfl (by decide), ?_, answered⟩, ⟨?_, ?_, ?_, ?_⟩, ?_⟩
  · intro s last
    cases last
  · exact le_rfl
  · exact le_rfl
  · exact le_rfl
  · decide
  · exact fun _ value put => absurd put List.not_mem_nil

/-- The header of the second visit has one piece. -/
private theorem idleReturn_cut :
    (NameValue.valueOf idleReturned.headers (bytes "Cookie")).splitOn ';'.toUInt8 =
    [] ++ ([] ++ (idleServer 0).cfg.sessCookie ++ bytes "=" ++ idleClient.held) :: [] := by
  decide +kernel

/-- It sends what the client holds. -/
private theorem idleReturn_sends (use : Use) : Sends (idleServer 0).cfg.sessCookie idleClient.held
    (NameValue.valueOf (idleReturn use).received.headers (bytes "Cookie")) :=
  .piece (List.forall_mem_nil _) idleReturn_cut (List.forall_mem_nil _)

/-- The second visit is one of the client. -/
private theorem idleReturn_comes {use : Use} (answered : (idleReturn use).Answered routes)
    (keeps : ¬ (idleReturn use).Failed → use.KeepsStamp) :
    ComesBack (idleServer 0) routes (bytes "127.0.0.1") (bytes "a") idleClient (idleReturn use) := by
  refine ⟨⟨⟨rfl, rfl, rfl⟩, rfl, rfl, ?_, ?_, answered⟩, ⟨?_, ?_, ?_, ?_⟩, keeps⟩
  · dsimp only
    exact idleReturn_sends use
  · intro s last
    cases last
  · show (0 : Int) ≤ 3300
    decide
  · exact le_rfl
  · exact le_rfl
  · show (3300 : Int) < 2 ^ 63
    decide

/-- The session that the first visit left is there 55 minutes later. -/
theorem session_idle_forum : ∃ use s s' c₁, idleClient.last = some s ∧
    Session.construct (idleReturn use).env (idleReturn use).start = (.ok s', c₁) ∧
      ∀ name, name ≠ bytes "sess_id" → name ≠ bytes "last_tm" → (s'.get name).1 = (s.get name).1 := by
  have prepared : prepare ⟨bytes "127.0.0.1", 0⟩ idleReturned = .ok idleRequestReturned := by decide +kernel
  rcases exists_keeping_of_against rfl prepared with ⟨use, answered, keeps⟩
  have named : CookieName (idleServer 0).cfg.sessCookie := ⟨by decide, by decide, by decide +kernel⟩
  have succeeded : ¬ idleVisit.Failed := by decide +kernel
  have stay : Stay (idleServer 0) routes (bytes "127.0.0.1") (bytes "a") idleClient
      (some (.start idleVisit_comes.order.use)) := by
    have visited := Stay.visit .start idleVisit_comes (by simp)
    rwa [Visit.timer, if_neg succeeded] at visited
  have comes := idleReturn_comes answered keeps
  rcases session_idle textArchive_load_save named stay comes (.refl _) with
    ⟨s, s', c₁, last, constructed, soon, -⟩
  refine ⟨use, s, s', c₁, last, constructed, soon ?_⟩
  show ((3300 : Int) : Rat) ≤ 3600 - max 0 300
  decide +kernel

end Waspp
