/-
Module: Waspp.Proofs.SessionVisible
Layer: Proofs
Purpose: What a constructed session shows.  `load` fills `session_` before most of its checks, so the member
  is followed through the constructor: it holds the entries of a cookie that passed every check, or the
  four entries of `create`, and then the response carries that session.  The check of the age is the one
  that may say nothing: under an `expiry_sec` that is no number a session of any age passes it.  The
  constructor returns on every cookie but those of 1 to 31 bytes, as far as the server can read back what
  it archived itself.
Imports: Waspp.Proofs.SessionLoad, Waspp.Proofs.AccessControl, Waspp.Foundation.Md5
Trusted boundary: none (fully proved)
Main exports: Renewed, Verified, FreshIn, Visible, constructed_visible_iff, nan_session_restored,
  CookieHandled, cookie_handled_iff
Open obligations: none
-/
import Waspp.Proofs.SessionLoad
import Waspp.Proofs.AccessControl
import Waspp.Foundation.Md5

namespace Waspp

open CString

variable (env : Env)

/-- The entries are as before but for the values of `sess_id` and `last_tm`. -/
def Renewed (before after : List NameValue) : Prop :=
  List.Forall₂
    (fun old new => new.name = old.name ∧
      (new.value = old.value ∨ old.name = bytes "sess_id" ∨ old.name = bytes "last_tm"))
    before after

/-- The session is read from the request's cookie `text ++ md5_digest(text + encrypt_key)`, which passes
    every check: it has the four entries, is no older than `expiry_sec`, and comes from the client it was
    made for. -/
structure Verified (c : Ctx) (s : Session) (text : Bytes) (entries : List NameValue) : Prop where
  signed : presented env c = text ++ md5Digest env (text ++ env.cfg.encryptKey)
  archived : env.archive.load (percentDecode text) = .ok entries
  renewed : Renewed entries s.entries
  keys : ∀ key ∈ Session.keys, (NameValue.lookup entries key).isSome = true
  recent : Double.difftime env.clock.atLoad (strtol (NameValue.valueOf entries (bytes "last_tm"))) ≤
    env.cfg.expirySec
  ip : env.cfg.validateIp = true → c.req.remoteAddr = NameValue.valueOf entries (bytes "last_ip")
  ua : env.cfg.validateUa = true →
    (c.headerValue (bytes "User-Agent")).take 120 = NameValue.valueOf entries (bytes "last_ua")

/-- The four entries that `create` makes for a request. -/
def freshEntries (c : Ctx) : List NameValue :=
  [⟨bytes "sess_id", md5Digest env env.uuid⟩, ⟨bytes "last_tm", Session.currTm env⟩,
    ⟨bytes "last_ip", c.req.remoteAddr⟩, ⟨bytes "last_ua", (c.headerValue (bytes "User-Agent")).take 120⟩]

/-- The session is a fresh one, and the response's only cookie of the session's name carries it. -/
structure FreshIn (c : Ctx) (s : Session) (res : Response) : Prop where
  entries : s.entries = freshEntries env c
  carried : res.cookies.filter (fun cookie => cookie.name == env.cfg.sessCookie) =
    [⟨env.cfg.sessCookie, s.cookieValue env⟩]

/-- What a constructed session may show: the data of a verified cookie, or a fresh session that the response
    carries. -/
def Visible (c : Ctx) (s : Session) (res : Response) : Prop :=
  (∃ text entries, Verified env c s text entries) ∨ FreshIn env c s res

/-! ### Entries put again

`update` puts two entries that every session has, so the others stay as they came, and in their places. -/

/-- Entries that are left alone are renewed, too. -/
theorem Renewed.refl (entries : List NameValue) : Renewed entries entries := by
  induction entries with
  | nil => exact .nil
  | cons entry rest ih => exact .cons ⟨rfl, Or.inl rfl⟩ ih

/-- An entry that is there and may change takes a new value. -/
theorem Renewed.assign {before after : List NameValue} (renewed : Renewed before after) {name value : Bytes}
    (mayChange : name = bytes "sess_id" ∨ name = bytes "last_tm")
    (present : (NameValue.lookup before name).isSome = true) :
    Renewed before (NameValue.assign after name value) := by
  induction renewed with
  | nil => simp at present
  | @cons old new before after head _ ih =>
      unfold NameValue.assign
      split
      · rename_i here
        have same : old.name = name := head.1.symm.trans (eq_of_beq here)
        exact .cons ⟨head.1, Or.inr (same ▸ mayChange)⟩ ‹_›
      · rename_i elsewhere
        have other : old.name ≠ name := fun same => elsewhere (beq_iff_eq.mpr (head.1.trans same))
        rw [NameValue.lookup_cons, if_neg other] at present
        exact .cons head (ih present)

/-- An update renews entries that are there. -/
theorem renewed_update {s : Session}
    (keys : ∀ key ∈ Session.keys, (NameValue.lookup s.entries key).isSome = true)
    (c : Ctx) : Renewed s.entries (s.update env c).1.entries := by
  have sessId := keys (bytes "sess_id") (by decide)
  have lastTm := keys (bytes "last_tm") (by decide)
  unfold Session.update
  split
  · exact .refl _
  · exact ((Renewed.refl s.entries).assign (Or.inl rfl) sessId).assign (Or.inr rfl) lastTm

/-! ### The cookie of a response

A response holds a cookie of a name at most once if it is only written through `set_cookie`, which overwrites
the first of the name: a deletion that `load` has queued does not survive `create`. -/

/-- Where a name has at most one entry, assignment leaves exactly one. -/
theorem filter_assign {entries : List NameValue} {name : Bytes} (value : Bytes)
    (single : (entries.filter fun nv => nv.name == name).length ≤ 1) :
    (NameValue.assign entries name value).filter (fun nv => nv.name == name) = [⟨name, value⟩] := by
  induction entries with
  | nil => simp [NameValue.assign]
  | cons nv rest ih =>
      unfold NameValue.assign
      split
      · rename_i here
        rw [List.filter_cons, if_pos here, List.length_cons] at single
        have none_ : rest.filter (fun nv => nv.name == name) = [] := List.eq_nil_of_length_eq_zero (by omega)
        rw [List.filter_cons, if_pos here, none_, ← eq_of_beq here]
      · rename_i elsewhere
        rw [List.filter_cons, if_neg elsewhere] at single ⊢
        exact ih single

/-- A new session has fresh entries. -/
theorem create_entries {c c' : Ctx} (same : SameRequest c c') :
    (Session.create env c').1.entries = freshEntries env c := by
  show [_, _, NameValue.mk _ c'.req.remoteAddr, NameValue.mk _ (Session.currUa c')] = _
  rw [same.remoteAddr, same.currUa]
  rfl

/-- A session that is created is fresh, in a response that had at most one cookie of the name. -/
theorem freshIn_create {c c' : Ctx} (same : SameRequest c c')
    (single : (c'.res.cookies.filter fun cookie => cookie.name == env.cfg.sessCookie).length ≤ 1) :
    FreshIn env c (Session.create env c').1 (Session.create env c').2.res where
  entries := create_entries env same
  carried := filter_assign _ single

/-- The cookie of a loaded session is its text and the digest. -/
theorem Loads.signed {c : Ctx} {s : Session} (loads : Loads env c s) :
    presented env c = Session.payload (presented env c) ++
      md5Digest env (Session.payload (presented env c) ++ env.cfg.encryptKey) := by
  rw [← loads.authentic]
  exact (List.take_append_drop _ _).symm

/-- A session that is loaded is verified, if the age of a session can be compared with `expiry_sec` at all.
    -/
theorem Loads.verified (number : env.cfg.expirySec ≠ .nan) {c c' : Ctx} {s : Session}
    (loads : Loads env c s) :
    Verified env c (s.update env c').1 (Session.payload (presented env c)) s.entries where
  signed := loads.signed
  archived := loads.archived
  renewed := renewed_update env loads.acceptable.keys c'
  keys := loads.acceptable.keys
  recent := by
    by_contra late
    exact loads.acceptable.recent ((Double.not_le (Double.ofInt_ne_nan _) number).mp late)
  ip := loads.acceptable.ip
  ua := loads.acceptable.ua

/-! ### What is visible

The constructor's two ways to return are the two kinds of sessions that may be visible, except that nothing
is known of the age of a loaded session when `expiry_sec` is no number.  For such a server a session that is
too old by any measure is made up below: a fifth entry tells it from the four of a fresh one. -/

/-- When the constructor returns, `session_` is what a verified cookie held, or a fresh session that the
    response carries, unless `expiry_sec` is no number. -/
theorem visible_of_constructed (number : env.cfg.expirySec ≠ .nan) {c c' : Ctx} {s : Session}
    (clean : NameValue.lookup c.res.cookies env.cfg.sessCookie = none)
    (constructed : Session.constructObject env c = (.ok s, c')) : Visible env c s c'.res := by
  have absent : c.res.cookies.filter (fun cookie => cookie.name == env.cfg.sessCookie) = [] := by
    rw [List.filter_eq_nil_iff]
    exact List.find?_eq_none.mp clean
  have cases_ := construct_cases env c
  rw [← Session.constructObject_eq, constructed] at cases_
  cases cases_ with
  | creates readable refused same res =>
      refine Or.inr (freshIn_create env same ?_)
      rcases res with kept | deleted
      · rw [kept, absent]
        simp
      · rw [deleted]
        exact (congrArg List.length (filter_assign [] (by rw [absent]; simp))).le
  | updates loads same res => exact Or.inl ⟨_, _, loads.verified env number⟩

/-- Nothing is verified against an `expiry_sec` that is no number. -/
theorem not_verified_of_nan (nan : env.cfg.expirySec = .nan) {c : Ctx} {s : Session} {text : Bytes}
    {entries : List NameValue} : ¬ Verified env c s text entries := by
  intro verified
  have recent := verified.recent
  rw [nan] at recent
  exact Double.not_le_nan _ recent

/-- A session of the start of the epoch, with an entry that a handler put. -/
private def heldSession : Session :=
  ⟨[⟨bytes "sess_id", []⟩, ⟨bytes "last_tm", bytes "0"⟩, ⟨bytes "last_ip", []⟩, ⟨bytes "last_ua", []⟩,
    ⟨bytes "userid", bytes "2"⟩]⟩

/-- Its client presents it to the server that made it. -/
private def holding : Ctx := ⟨{ cookies := [⟨env.cfg.sessCookie, heldSession.cookieValue env⟩] }, {}⟩

/-- The cookie is presented. -/
private theorem presented_holding : presented env (holding env) = heldSession.cookieValue env := by
  simp [presented, holding, Ctx.cookieValue, NameValue.valueOf, NameValue.lookup]

/-- Whatever the time is, a server whose `expiry_sec` is no number loads that session. -/
private theorem loads_holding (nan : env.cfg.expirySec = .nan)
    (roundTrip : ∀ entries, env.archive.load (env.archive.save entries) = .ok entries) :
    Loads env (holding env) heldSession where
  long := presented_holding env ▸ length_cookieValue env heldSession
  authentic := presented_holding env ▸ authentic_cookieValue env heldSession
  archived := presented_holding env ▸ archived_cookieValue roundTrip heldSession
  acceptable :=
    { keys := by decide
      recent := by
        rw [nan]
        exact Double.not_nan_lt _
      ip := fun _ => show [] = NameValue.valueOf heldSession.entries (bytes "last_ip") by decide
      ua := fun _ => show [] = NameValue.valueOf heldSession.entries (bytes "last_ua") by decide }

/-- The constructor then restores it, and what it shows is neither verified nor fresh. -/
theorem nan_restores (nan : env.cfg.expirySec = .nan)
    (roundTrip : ∀ entries, env.archive.load (env.archive.save entries) = .ok entries) :
    ∃ s c', Session.constructObject env (holding env) = (.ok s, c') ∧ Renewed heldSession.entries s.entries ∧
      ¬ Visible env (holding env) s c'.res := by
  have loads := loads_holding env nan roundTrip
  have constructed := construct_cases env (holding env)
  rw [Session.constructObject_eq]
  generalize Session.construct env (holding env) = outcome at constructed
  cases constructed with
  | throws unreadable => exact absurd loads.readable unreadable
  | creates readable refused => exact absurd loads (refused _)
  | @updates s c' loads₀ same res =>
      have entries : s.entries = heldSession.entries :=
        Except.ok.inj (loads₀.archived.symm.trans loads.archived)
      have renewed := renewed_update env loads₀.acceptable.keys c'
      refine ⟨_, _, rfl, entries ▸ renewed, ?_⟩
      rintro (⟨text, entries', verified⟩ | fresh)
      · exact not_verified_of_nan env nan verified
      · have five := renewed.length_eq
        rw [entries, fresh.entries] at five
        simp [heldSession, freshEntries] at five

/-- A server that archives sessions and digests them. -/
private def archivingServer : Env := { bareEnv with md5 := Md5.md5, archive := textArchive }

/-- Whatever the request and the times, what a server's sessions show is verified or fresh exactly when its
    `expiry_sec` is a number. -/
theorem constructed_visible_iff (cfg : Config) :
    (∀ env : Env, env.cfg = cfg → ∀ c c' s, NameValue.lookup c.res.cookies cfg.sessCookie = none →
        Session.constructObject env c = (.ok s, c') → Visible env c s c'.res) ↔
      cfg.expirySec ≠ .nan := by
  constructor
  · intro all nan
    have restored := nan_restores { archivingServer with cfg := cfg } nan textArchive_load_save
    rcases restored with ⟨s, c', constructed, -, hidden⟩
    exact hidden (all _ rfl _ _ _ rfl constructed)
  · rintro number env rfl c c' s clean constructed
    exact visible_of_constructed env number clean constructed

/-- The server thirty years after the session was made, with `expiry_sec` written as `nan`. -/
private def patientServer : Env :=
  { archivingServer with
    cfg := { archivingServer.cfg with expirySec := .nan }
    clock := ⟨946080000, 946080000, 946080000⟩ }

/-- The session is restored: the user it belongs to is still signed in. -/
theorem nan_session_restored :
    ∃ s c', Session.constructObject patientServer (holding patientServer) = (.ok s, c') ∧
      (s.get (bytes "userid")).1 = bytes "2" ∧ ¬ Visible patientServer (holding patientServer) s c'.res := by
  rcases nan_restores patientServer rfl textArchive_load_save with ⟨s, c', constructed, -, hidden⟩
  have same : (Session.constructObject patientServer (holding patientServer)).1.toOption.map
      (fun s => (s.get (bytes "userid")).1) = some (bytes "2") := by
    decide +kernel
  rw [constructed] at same
  exact ⟨s, c', constructed, Option.some.inj same, hidden⟩

/-- A request that presents this session cookie. -/
private def presenting (cookie : Bytes) : Ctx :=
  ⟨{ cookies := [⟨archivingServer.cfg.sessCookie, cookie⟩] }, {}⟩

/-! ### Any cookie

A cookie is client data before anything else, and `load` takes 32 bytes off its end before it knows who wrote
it. -/

/-- The constructor returns: it restores a session from a cookie that passes all checks, or the cookie is
    refused, the session is a fresh one and the response carries it under the cookie's name. -/
def CookieHandled (c : Ctx) : Prop :=
  ∃ s c', Session.constructObject env c = (.ok s, c') ∧
    ((∃ restored, Loads env c restored ∧ Renewed restored.entries s.entries) ∨
      ((∀ restored, ¬ Loads env c restored) ∧ s.entries = freshEntries env c ∧
        NameValue.valueOf c'.res.cookies env.cfg.sessCookie = s.cookieValue env))

/-- A server that reads back what it archived, and whose digests nobody else makes, reads every authentic
    cookie. -/
theorem readable_of_unforged {cookie : Bytes}
    (loadsSaved : ∀ entries, ∃ entries', env.archive.load (env.archive.save entries) = .ok entries')
    (unforged : Authentic env cookie → ∃ s : Session, cookie = s.cookieValue env) :
    CookieReadable env cookie ↔ cookie = [] ∨ 32 ≤ cookie.length := by
  constructor
  · rintro (absent | ⟨long, -⟩)
    · exact Or.inl absent
    · exact Or.inr long
  · rintro (absent | long)
    · exact Or.inl absent
    · refine Or.inr ⟨long, fun authentic => ?_⟩
      obtain ⟨s, rfl⟩ := unforged authentic
      rw [payload_cookieValue, percentDecode_percentEncode]
      exact loadsSaved s.entries

/-- The session cookie of a request is handled exactly when it is empty or has the 32 bytes of a digest. -/
theorem cookie_handled_iff {c : Ctx}
    (loadsSaved : ∀ entries, ∃ entries', env.archive.load (env.archive.save entries) = .ok entries')
    (unforged : Authentic env (presented env c) → ∃ s : Session, presented env c = s.cookieValue env) :
    CookieHandled env c ↔ presented env c = [] ∨ 32 ≤ (presented env c).length := by
  have readable := readable_of_unforged env loadsSaved unforged
  have constructed := construct_cases env c
  rw [← readable, CookieHandled, Session.constructObject_eq]
  generalize Session.construct env c = outcome at constructed
  cases constructed with
  | throws unreadable => simp [unreadable]
  | creates yes refused same res =>
      have fresh := create_entries env same
      exact iff_of_true ⟨_, _, rfl, Or.inr ⟨refused, fresh, valueOf_cookies_serializeAndSet env _ _⟩⟩ yes
  | updates loads same res =>
      exact iff_of_true ⟨_, _, rfl, Or.inl ⟨_, loads, renewed_update env loads.acceptable.keys _⟩⟩
        loads.readable

theorem cookie_handled_iff_held :
    CookieHandled archivingServer (presenting (heldSession.cookieValue archivingServer)) ↔
      presented archivingServer (presenting (heldSession.cookieValue archivingServer)) = [] ∨
        32 ≤ (presented archivingServer (presenting (heldSession.cookieValue archivingServer))).length :=
  cookie_handled_iff archivingServer (fun entries => ⟨entries, textArchive_load_save entries⟩)
    (fun _ => ⟨heldSession, by decide +kernel⟩)

/-- A cookie of one byte is not signed by anybody, and the constructor throws on it. -/
theorem short_cookie_throws :
    (∀ entries, ∃ entries', archivingServer.archive.load (archivingServer.archive.save entries) =
      .ok entries') ∧ ¬ Authentic archivingServer (presented archivingServer (presenting (bytes "x"))) ∧
      (Session.constructObject archivingServer (presenting (bytes "x"))).1 = .error .outOfRange ∧
      ¬ CookieHandled archivingServer (presenting (bytes "x")) := by
  have throws : (Session.constructObject archivingServer (presenting (bytes "x"))).1 =
      .error .outOfRange := by
    decide +kernel
  refine ⟨fun entries => ⟨entries, textArchive_load_save entries⟩, ?_, throws, ?_⟩
  · intro authentic
    have lengths := congrArg List.length authentic
    rw [length_md5Digest] at lengths
    exact absurd lengths (by decide +kernel)
  · rintro ⟨s, c', constructed, -⟩
    rw [constructed] at throws
    cases throws

end Waspp
