/-
Module: Waspp.Proofs.SessionLoad
Layer: Proofs
Purpose: What constructing a session does, as a function of the cookie that the request presents.  `load`
  takes a cookie with an authentic digest whose archive holds a session of this client (`Loads`), throws on
  a cookie that it cannot read (`CookieReadable`), and leaves anything else to `create`.
Imports: Waspp.Model.Session, Waspp.Foundation.TextArchive, Waspp.Proofs.PercentCoding
Trusted boundary: none (fully proved)
Main exports: presented, Authentic, CookieReadable, Acceptable, Loads, load_cases, construct_cases,
  archived_cookieValue, SameSite, textArchive
Open obligations: none
-/
import Waspp.Model.Session
import Waspp.Foundation.TextArchive
import Waspp.Proofs.PercentCoding

namespace Waspp

open CString

variable (env : Env)

/-- The session cookie that a request presents. -/
def presented (c : Ctx) : Bytes := c.cookieValue env.cfg.sessCookie

/-- A cookie ends with the digest of its text and the server's key. -/
def Authentic (cookie : Bytes) : Prop :=
  cookie.drop (cookie.length - 32) = md5Digest env (Session.payload cookie ++ env.cfg.encryptKey)

/-- A cookie on which `load` does not throw. -/
def CookieReadable (cookie : Bytes) : Prop :=
  cookie = [] ∨
    (32 ≤ cookie.length ∧
      (Authentic env cookie → ∃ entries, env.archive.load (percentDecode (Session.payload cookie)) =
        .ok entries))

/-- Entries that `load` takes for a session of the requester. -/
structure Acceptable (c : Ctx) (entries : List NameValue) : Prop where
  keys : ∀ key ∈ Session.keys, (NameValue.lookup entries key).isSome = true
  /-- Not older than `expiry_sec`, which an `expiry_sec` that is no number says of every age. -/
  recent : ¬ env.cfg.expirySec < Double.difftime env.clock.atLoad (Session.lastTm ⟨entries⟩)
  ip : env.cfg.validateIp = true → c.req.remoteAddr = NameValue.valueOf entries (bytes "last_ip")
  ua : env.cfg.validateUa = true → Session.currUa c = NameValue.valueOf entries (bytes "last_ua")

/-- `load` takes the session `s` from the request. -/
structure Loads (c : Ctx) (s : Session) : Prop where
  long : 32 ≤ (presented env c).length
  authentic : Authentic env (presented env c)
  archived : env.archive.load (percentDecode (Session.payload (presented env c))) = .ok s.entries
  acceptable : Acceptable env c s.entries

/-- The request is as before, up to entries added by reading a header or a cookie that is missing. -/
structure SameRequest (c c' : Ctx) : Prop where
  params : ∀ name, c'.paramValue name = c.paramValue name
  headers : ∀ name, c'.headerValue name = c.headerValue name
  cookies : ∀ name, c'.cookieValue name = c.cookieValue name
  remoteAddr : c'.req.remoteAddr = c.req.remoteAddr
  uri : c'.req.uri = c.req.uri

/-- A request is the same as itself. -/
theorem SameRequest.refl (c : Ctx) : SameRequest c c := ⟨fun _ => rfl, fun _ => rfl, fun _ => rfl, rfl, rfl⟩

theorem SameRequest.trans {c c' c'' : Ctx} (one : SameRequest c c') (two : SameRequest c' c'') :
    SameRequest c c'' :=
  ⟨fun name => (two.params name).trans (one.params name),
    fun name => (two.headers name).trans (one.headers name),
    fun name => (two.cookies name).trans (one.cookies name), two.remoteAddr.trans one.remoteAddr,
    two.uri.trans one.uri⟩

/-- A response does not change the request. -/
theorem SameRequest.respond (c : Ctx) (f : Response → Response) : SameRequest c (c.respond f) :=
  ⟨fun _ => rfl, fun _ => rfl, fun _ => rfl, rfl, rfl⟩

theorem SameRequest.readParam (c : Ctx) (name : Bytes) : SameRequest c (c.readParam name) :=
  ⟨by simp, by simp, by simp, rfl, rfl⟩

theorem SameRequest.readCookie (c : Ctx) (name : Bytes) : SameRequest c (c.readCookie name) :=
  ⟨by simp, by simp, by simp, rfl, rfl⟩

theorem SameRequest.readHeader (c : Ctx) (name : Bytes) : SameRequest c (c.readHeader name) :=
  ⟨by simp, by simp, by simp, rfl, rfl⟩

/-- One request presents one cookie. -/
theorem SameRequest.presented {c c' : Ctx} (same : SameRequest c c') : presented env c' = presented env c :=
  same.cookies _

/-- And one user agent. -/
theorem SameRequest.currUa {c c' : Ctx} (same : SameRequest c c') :
    Session.currUa c' = Session.currUa c := by
  rw [Session.currUa, same.headers, Session.currUa]

/-! ### `load`

The tests of `load` in their order: the length, the digest, the archive, and then the address, the user
agent and the age. -/

/-- A cookie that is too short throws. -/
theorem readEntries_of_short {cookie : Bytes} (short : cookie.length < 32) :
    Session.readEntries env cookie = .error .outOfRange :=
  if_pos short

/-- One with another digest is not taken. -/
theorem readEntries_of_forged {cookie : Bytes} (long : 32 ≤ cookie.length)
    (forged : ¬ Authentic env cookie) :
    Session.readEntries env cookie = .ok none :=
  (if_neg (Nat.not_lt_of_le long)).trans (if_pos forged)

/-- One with its digest is loaded from its archive. -/
theorem readEntries_of_authentic {cookie : Bytes} (long : 32 ≤ cookie.length)
    (authentic : Authentic env cookie) :
    Session.readEntries env cookie = (env.archive.load (percentDecode (Session.payload cookie))).map
      some := by
  refine (if_neg (Nat.not_lt_of_le long)).trans ((if_neg (not_not.mpr authentic)).trans ?_)
  cases env.archive.load (percentDecode (Session.payload cookie)) <;> rfl

/-- When the entries of a cookie are accepted. -/
theorem accepts_iff (entries : List NameValue) (c : Ctx) :
    (Session.accepts env entries c).1 = true ↔ Acceptable env c entries := by
  have fields : Acceptable env c entries ↔
      (∀ key ∈ Session.keys, (NameValue.lookup entries key).isSome = true) ∧
        ¬ env.cfg.expirySec < Double.difftime env.clock.atLoad (Session.lastTm ⟨entries⟩) ∧
        (env.cfg.validateIp = true → c.req.remoteAddr = NameValue.valueOf entries (bytes "last_ip")) ∧
        (env.cfg.validateUa = true → Session.currUa c = NameValue.valueOf entries (bytes "last_ua")) :=
    ⟨fun h => ⟨h.keys, h.recent, h.ip, h.ua⟩, fun h => ⟨h.1, h.2.1, h.2.2.1, h.2.2.2⟩⟩
  rw [fields]
  unfold Session.accepts
  split
  · rename_i missing
    simp only [Bool.false_eq_true, false_iff]
    intro all
    rcases List.any_eq_true.mp missing with ⟨key, member, none⟩
    have some_ := all.1 key member
    rw [Option.isNone_iff_eq_none.mp none] at some_
    cases some_
  · rename_i present
    have keys : ∀ key ∈ Session.keys, (NameValue.lookup entries key).isSome = true := by
      intro key member
      cases found : NameValue.lookup entries key with
      | some nv => rfl
      | none => exact absurd (List.any_eq_true.mpr ⟨key, member, by rw [found]; rfl⟩) present
    split
    · rename_i late
      simp only [Bool.false_eq_true, false_iff]
      exact fun all => all.2.1 late
    · rename_i recent
      split
      · rename_i moved
        simp only [Bool.false_eq_true, false_iff]
        exact fun all => moved.2 (all.2.2.1 moved.1)
      · rename_i still
        have ip (checked : env.cfg.validateIp = true) :
            c.req.remoteAddr = NameValue.valueOf entries (bytes "last_ip") := by
          by_contra other
          exact still ⟨checked, other⟩
        split
        · rename_i checked
          simp only [decide_eq_true_eq]
          exact ⟨fun same => ⟨keys, recent, ip, fun _ => same⟩, fun all => all.2.2.2 checked⟩
        · rename_i unchecked
          exact ⟨fun _ => ⟨keys, recent, ip, fun checked => absurd checked unchecked⟩, fun _ => rfl⟩

/-- Accepting a cookie changes neither the request nor the response. -/
theorem accepts_request (entries : List NameValue) (c : Ctx) :
    SameRequest c (Session.accepts env entries c).2 ∧ (Session.accepts env entries c).2.res = c.res := by
  unfold Session.accepts
  repeat' split
  all_goals first
    | exact ⟨SameRequest.refl c, rfl⟩
    | exact ⟨SameRequest.readHeader c _, rfl⟩

/-- `load`, case by case: it throws; it takes nothing, perhaps deleting the client's cookie; or it takes a
    session and leaves the response alone. -/
inductive LoadCases (c : Ctx) : Except Exn (Option Session) × Ctx → Prop where
  | throws {e : Exn} {c' : Ctx} (unreadable : ¬ CookieReadable env (presented env c)) :
      LoadCases c (.error e, c')
  | nothing {c' : Ctx} (readable : CookieReadable env (presented env c)) (refused : ∀ s, ¬ Loads env c s)
      (same : SameRequest c c') (res : c'.res = c.res ∨ c'.res = c.res.deleteCookie env.cfg.sessCookie) :
      LoadCases c (.ok none, c')
  | takes {s : Session} {c' : Ctx} (loads : Loads env c s) (same : SameRequest c c') (res : c'.res = c.res) :
      LoadCases c (.ok (some s), c')

/-- What `load` can do. -/
theorem load_cases (c : Ctx) : LoadCases env c (Session.load env c) := by
  have same := SameRequest.readCookie c env.cfg.sessCookie
  unfold Session.load
  simp only
  split
  · rename_i absent
    apply LoadCases.nothing (Or.inl absent) _ same (Or.inl rfl)
    intro s loads
    have long := loads.long
    rw [presented, absent] at long
    simp at long
  · rename_i present
    by_cases long : 32 ≤ (presented env c).length
    · by_cases authentic : Authentic env (presented env c)
      · have read := readEntries_of_authentic env long authentic
        rw [presented] at read
        cases archived : env.archive.load (percentDecode (Session.payload (presented env c))) with
        | error e =>
            rw [presented] at archived
            simp only [read, archived, Except.map]
            apply LoadCases.throws
            intro readable
            rcases readable with absent | ⟨-, loads⟩
            · exact present absent
            · rcases loads authentic with ⟨entries, ok⟩
              cases ok.symm.trans archived
        | ok entries =>
            have archived' := archived
            rw [presented] at archived
            simp only [read, archived, Except.map]
            rcases accepts_request env entries (c.readCookie env.cfg.sessCookie) with ⟨kept, res⟩
            have acceptable : Acceptable env (c.readCookie env.cfg.sessCookie) entries ↔
                Acceptable env c entries :=
              ⟨fun h => ⟨h.keys, h.recent, h.ip, h.ua⟩, fun h => ⟨h.keys, h.recent, h.ip, h.ua⟩⟩
            split
            · rename_i accepted
              exact .takes ⟨long, authentic, archived', acceptable.mp ((accepts_iff env _ _).mp accepted)⟩
                (same.trans kept) res
            · rename_i rejected
              apply LoadCases.nothing (Or.inr ⟨long, fun _ => ⟨entries, archived'⟩⟩) _
                ((same.trans kept).trans (.respond _ _)) (Or.inr (by rw [Ctx.res_respond, res]; rfl))
              intro s loads
              cases archived'.symm.trans loads.archived
              exact rejected ((accepts_iff env _ _).mpr (acceptable.mpr loads.acceptable))
      · have read := readEntries_of_forged env long authentic
        rw [presented] at read
        simp only [read]
        exact .nothing (Or.inr ⟨long, fun yes => absurd yes authentic⟩)
          (fun s loads => authentic loads.authentic) (same.trans (.respond _ _)) (Or.inr rfl)
    · have read := readEntries_of_short env (Nat.lt_of_not_le long)
      rw [presented] at read
      simp only [read]
      apply LoadCases.throws
      intro readable
      rcases readable with absent | ⟨enough, -⟩
      · exact present absent
      · exact long enough

/-! ### Entries -/

/-- An entry that was put is shown, and the others are shown as before. -/
theorem valueOf_put (s : Session) (name value : Bytes) (c : Ctx) (other : Bytes) :
    NameValue.valueOf (s.put env name value c).1.entries other =
      if name = other then value else NameValue.valueOf s.entries other :=
  NameValue.valueOf_assign _ _ _ _

/-- The response carries the session as it was last written. -/
theorem valueOf_cookies_serializeAndSet (s : Session) (c : Ctx) :
    NameValue.valueOf (s.serializeAndSet env c).res.cookies env.cfg.sessCookie = s.cookieValue env := by
  simp [Session.serializeAndSet, NameValue.valueOf_assign]

/-- An entry that is put is in the cookie that is set. -/
theorem valueOf_cookies_put (s : Session) (name value : Bytes) (c : Ctx) :
    NameValue.valueOf (s.put env name value c).2.res.cookies env.cfg.sessCookie =
      (s.put env name value c).1.cookieValue env :=
  valueOf_cookies_serializeAndSet env _ c

/-! ### The constructor

A session is loaded or created, and one that was loaded is updated. -/

/-- Serializing changes the response only. -/
theorem serializeAndSet_request (s : Session) (c : Ctx) : SameRequest c (s.serializeAndSet env c) :=
  .respond c _

/-- An update changes two entries at most. -/
theorem valueOf_update (s : Session) (c : Ctx) {other : Bytes} (sessId : other ≠ bytes "sess_id")
    (lastTm : other ≠ bytes "last_tm") :
    NameValue.valueOf (s.update env c).1.entries other = NameValue.valueOf s.entries other := by
  unfold Session.update
  split
  · rfl
  · simp only [valueOf_put, if_neg lastTm.symm, if_neg sessId.symm]

/-- It changes the response only. -/
theorem update_request (s : Session) (c : Ctx) : SameRequest c (s.update env c).2 := by
  unfold Session.update
  split
  · exact .refl c
  · exact ⟨fun _ => rfl, fun _ => rfl, fun _ => rfl, rfl, rfl⟩

/-- And no header of it. -/
theorem update_headers (s : Session) (c : Ctx) : (s.update env c).2.res.headers = c.res.headers := by
  unfold Session.update
  split
  · rfl
  · rfl

/-- The constructor, case by case. -/
inductive ConstructCases (c : Ctx) : Except Exn Session × Ctx → Prop where
  | throws {e : Exn} {c' : Ctx} (unreadable : ¬ CookieReadable env (presented env c)) :
      ConstructCases c (.error e, c')
  | creates {c' : Ctx} (readable : CookieReadable env (presented env c)) (refused : ∀ s, ¬ Loads env c s)
      (same : SameRequest c c') (res : c'.res = c.res ∨ c'.res = c.res.deleteCookie env.cfg.sessCookie) :
      ConstructCases c (.ok (Session.create env c').1, (Session.create env c').2)
  | updates {s : Session} {c' : Ctx} (loads : Loads env c s) (same : SameRequest c c')
      (res : c'.res = c.res) :
      ConstructCases c (.ok (s.update env c').1, (s.update env c').2)

/-- What the constructor can do. -/
theorem construct_cases (c : Ctx) : ConstructCases env c (Session.construct env c) := by
  have loaded := load_cases env c
  unfold Session.construct
  generalize Session.load env c = outcome at loaded
  cases loaded with
  | throws unreadable => exact .throws unreadable
  | nothing readable refused same res => exact .creates readable refused same res
  | takes loads same res => exact .updates loads same res

/-- A session that is loaded was in a readable cookie. -/
theorem Loads.readable {c : Ctx} {s : Session} (loads : Loads env c s) :
    CookieReadable env (presented env c) :=
  Or.inr ⟨loads.long, fun _ => ⟨s.entries, loads.archived⟩⟩

/-- The constructor returns on the cookies that can be read. -/
theorem construct_returns_iff (c : Ctx) :
    (∃ s, (Session.construct env c).1 = .ok s) ↔ CookieReadable env (presented env c) := by
  have constructed := construct_cases env c
  generalize Session.construct env c = outcome at constructed
  cases constructed with
  | throws unreadable => simp [unreadable]
  | creates readable => simp [readable]
  | updates loads => simp [loads.readable]

/-- A constructor that returns leaves the headers of the response alone. -/
theorem construct_headers {c c₁ : Ctx} {s : Session} (constructed : Session.construct env c = (.ok s, c₁)) :
    c₁.res.headers = c.res.headers := by
  have cases_ := construct_cases env c
  rw [constructed] at cases_
  cases cases_ with
  | creates readable refused same res =>
      show (Session.create env _).2.res.headers = c.res.headers
      rcases res with kept | deleted
      · exact (congrArg Response.headers kept : _)
      · exact (congrArg Response.headers deleted : _)
  | updates loads same res => exact (update_headers env _ _).trans (congrArg Response.headers res)

/-- What is loaded depends on the request alone. -/
theorem Loads.of_same {c c₀ : Ctx} {s : Session} (same : SameRequest c c₀) (loads : Loads env c₀ s) :
    Loads env c s where
  long := same.presented env ▸ loads.long
  authentic := same.presented env ▸ loads.authentic
  archived := same.presented env ▸ loads.archived
  acceptable :=
    { keys := loads.acceptable.keys
      recent := loads.acceptable.recent
      ip := fun checked => same.remoteAddr.symm.trans (loads.acceptable.ip checked)
      ua := fun checked => same.currUa.symm.trans (loads.acceptable.ua checked) }

/-! ### The cookie of a session -/

/-- The payload of a session's cookie is its coded archive. -/
theorem payload_cookieValue (s : Session) :
    Session.payload (s.cookieValue env) = percentEncode (env.archive.save s.entries) := by
  simp [Session.payload, Session.cookieValue]

/-- A session's cookie has its digest. -/
theorem authentic_cookieValue (s : Session) : Authentic env (s.cookieValue env) := by
  rw [Authentic, payload_cookieValue]
  simp [Session.cookieValue]

/-- It is not too short. -/
theorem length_cookieValue (s : Session) : 32 ≤ (s.cookieValue env).length := by
  simp [Session.cookieValue]

/-- An archive whose loading undoes its saving gives the entries of a session's cookie back. -/
theorem archived_cookieValue {env : Env}
    (roundTrip : ∀ entries, env.archive.load (env.archive.save entries) = .ok entries) (s : Session) :
    env.archive.load (percentDecode (Session.payload (s.cookieValue env))) = .ok s.entries := by
  rw [payload_cookieValue, percentDecode_percentEncode, roundTrip]

/-- The environment is one of the server: the configuration and the library functions are the server's. -/
structure SameSite (server env : Env) : Prop where
  cfg : env.cfg = server.cfg
  md5 : env.md5 = server.md5
  archive : env.archive = server.archive

/-- Sites with the same keys make the same cookies. -/
theorem SameSite.cookieValue {server env : Env} (same : SameSite server env) (s : Session) :
    s.cookieValue env = s.cookieValue server := by
  simp only [Session.cookieValue, md5Digest, same.cfg, same.md5, same.archive]

/-! ### Archives -/

/-- The text archive of a session's entries. -/
def textArchive : Archive where
  save entries := TextArchive.save (entries.map fun entry => (entry.name, entry.value))
  load text :=
    match TextArchive.load text with
    | some pairs => .ok (pairs.map fun pair => ⟨pair.1, pair.2⟩)
    | none => .error .archive

/-- The text archive gives the entries back. -/
theorem textArchive_load_save (entries : List NameValue) :
    textArchive.load (textArchive.save entries) = .ok entries := by
  simp [textArchive, TextArchive.load_save, Function.comp_def]

end Waspp
