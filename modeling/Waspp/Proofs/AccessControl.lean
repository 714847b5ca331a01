/-
Module: Waspp.Proofs.AccessControl
Layer: Proofs
Purpose: Which requests pass the access check of `handle_request`.  The only answers are the check's 401, the
  stock responses of the later tests, the stock response of a caught exception, and 200; so a request is
  answered 401 exactly when the two predicates stop it, and the predicates implement the access lists only
  where `ListsAgree` holds.
Imports: Waspp.Model.RequestHandler
Trusted boundary: none (fully proved)
Main exports: AccessLaw, PassesCheck, handleRequest_ensures, ListsAgree, access_lists_iff
Open obligations: none
-/
import Waspp.Model.RequestHandler

namespace Waspp

open CString Interaction

variable (env : Env)

/-- What the access lists mean: a nonempty list of granted addresses names all that may enter, and the denied
    addresses may not. -/
def AccessLaw (addr : Bytes) : Prop :=
  (env.cfg.accessGranted = [] ∨ addr ∈ env.cfg.accessGranted) ∧ addr ∉ env.cfg.accessDenied

/-- The access check lets the address pass. -/
def PassesCheck (addr : Bytes) : Prop :=
  isAccessGranted env addr = true ∧ isAccessDenied env addr = false

instance (addr : Bytes) : Decidable (AccessLaw env addr) :=
  inferInstanceAs (Decidable (_ ∧ _))

instance (addr : Bytes) : Decidable (PassesCheck env addr) :=
  inferInstanceAs (Decidable (_ ∧ _))

/-- The predicates read the lists the wrong way round: an address passes when it is absent from a nonempty
    list of granted addresses and present in a nonempty list of denied ones. -/
theorem passesCheck_iff (addr : Bytes) :
    PassesCheck env addr ↔
      (env.cfg.accessGranted = [] ∨ addr ∉ env.cfg.accessGranted) ∧
        (env.cfg.accessDenied = [] ∨ addr ∈ env.cfg.accessDenied) := by
  unfold PassesCheck isAccessGranted isAccessDenied
  by_cases granted : env.cfg.accessGranted = [] <;> by_cases denied : env.cfg.accessDenied = [] <;>
    simp [granted, denied]

/-! ### The answers of `handle_request` -/

/-- A filled response has status 200. -/
theorem fillResponse_ensures (c : Ctx) :
    (fillResponse env).Ensures c fun _ r c' => r = .ok () → c'.res.status = some .ok := by
  unfold fillResponse
  simp only [Action.ensures_bind, Act.respond, Action.ensures_modify]
  apply Action.ensures_of_forall
  intro trace r c'
  cases r <;> simp

/-- What the try block leaves: 401 when the check stops the requester, and otherwise an exception or another
    status. -/
def Answered (addr : Bytes) (r : Except Exn Unit) (res : Response) : Prop :=
  if PassesCheck env addr then r = .ok () → res.status ≠ some .unauthorized
  else r = .ok () ∧ res.status = some .unauthorized

/-- What `handle_request` does in its try block is an answer to the address. -/
theorem tryRequest_ensures (table : List Route) (c : Ctx) :
    (tryRequest env table).Ensures c fun _ r c' => Answered env c.req.remoteAddr r c'.res := by
  have filled (passes : PassesCheck env c.req.remoteAddr) (c₀ : Ctx) :
      (fillResponse env).Ensures c₀ fun _ r c' => Answered env c.req.remoteAddr r c'.res := by
    apply (fillResponse_ensures env c₀).mono
    intro trace r c' status
    rw [Answered, if_pos passes]
    intro done
    simp [status done]
  -- a stock response behind the check is not a 401
  have answered (passes : PassesCheck env c.req.remoteAddr) (c₀ : Ctx) (status : StatusType)
      (other : status ≠ .unauthorized) :
      (respondStatic status).Ensures c₀ fun _ r c' => Answered env c.req.remoteAddr r c'.res := by
    simp [respondStatic, Act.respond, Answered, passes, other]
  unfold tryRequest
  simp only [Action.ensures_bind, Action.ensures_get]
  split
  · rename_i stopped
    have fails : ¬ PassesCheck env c.req.remoteAddr := by
      intro passes
      simp [passes.1, passes.2] at stopped
    simp [respondStatic, Act.respond, Answered, fails]
  · rename_i passed
    have passes : PassesCheck env c.req.remoteAddr := by
      simpa [PassesCheck] using passed
    have thrown (e : Exn) (c' : Ctx) : Answered env c.req.remoteAddr (.error e) c'.res := by
      simp [Answered, passes]
    split
    · exact answered passes c .badRequest (by simp)
    · rename_i requestUri decoded
      split
      · exact answered passes c .badRequest (by simp)
      · split
        · simp only [Action.ensures_bind]
          apply Action.ensures_of_forall
          intro trace r c₁
          cases r with
          | error e => exact thrown e c₁
          | ok found =>
              cases found with
              | true => exact filled passes c₁
              | false => exact answered passes c₁ .notFound (by simp)
        · simp only [Action.ensures_bind]
          apply Action.ensures_of_forall
          intro trace r c₁
          cases r with
          | error e => exact thrown e c₁
          | ok done => exact filled passes c₁

/-- `handle_request` returns on every run, and answers 401 exactly when the check stops the requester. -/
theorem handleRequest_ensures (table : List Route) (c : Ctx) :
    (handleRequest env table).Ensures c fun _ r c' =>
      r = .ok () ∧ (c'.res.status = some .unauthorized ↔ ¬ PassesCheck env c.req.remoteAddr) := by
  unfold handleRequest
  rw [Action.ensures_recover]
  apply (tryRequest_ensures env table c).mono
  intro trace r c' answered
  unfold Answered at answered
  by_cases passes : PassesCheck env c.req.remoteAddr
  · rw [if_pos passes] at answered
    cases r with
    | ok done => exact ⟨rfl, by simp [passes, answered rfl]⟩
    | error e => simp [respondStatic, Act.respond, passes]
  · rw [if_neg passes] at answered
    rcases answered with ⟨rfl, status⟩
    exact ⟨rfl, by simp [status, passes]⟩

/-! ### The law and the code

`AccessLaw` is what the configuration means by its lists.  The code compares with each list the other way
round, so it agrees with the law only where that makes no difference. -/

/-- The lists for which the code means what the law says: both empty, or both nonempty with the address in
    both or in neither. -/
def ListsAgree (addr : Bytes) : Prop :=
  (env.cfg.accessGranted = [] ∧ env.cfg.accessDenied = []) ∨
    (env.cfg.accessGranted ≠ [] ∧ env.cfg.accessDenied ≠ [] ∧
      (addr ∈ env.cfg.accessGranted ↔ addr ∈ env.cfg.accessDenied))

/-- A request is answered with something else than 401 exactly when the law lets its requester in, if and
    only if the lists agree on the requester. -/
theorem access_lists_iff (mysql : Mysql) (table : List Route) (c : Ctx) (world : World) :
    ((((handleRequest env table).exec (serve mysql) c world).1.2.res.status ≠ some .unauthorized ↔
        AccessLaw env c.req.remoteAddr) ↔
      ListsAgree env c.req.remoteAddr) := by
  have answer := ((handleRequest_ensures env table c).exec (serve mysql) world).2
  rw [Ne, answer, not_not, passesCheck_iff, AccessLaw, ListsAgree]
  by_cases granted : env.cfg.accessGranted = [] <;> by_cases denied : env.cfg.accessDenied = []
  · simp [granted, denied]
  · by_cases inDenied : c.req.remoteAddr ∈ env.cfg.accessDenied <;> simp [granted, denied, inDenied]
  · by_cases inGranted : c.req.remoteAddr ∈ env.cfg.accessGranted <;> simp [granted, denied, inGranted]
  · by_cases inGranted : c.req.remoteAddr ∈ env.cfg.accessGranted <;>
      by_cases inDenied : c.req.remoteAddr ∈ env.cfg.accessDenied <;>
        simp [granted, denied, inGranted, inDenied]

/-- The shipped configuration over an empty document root, with outside functions that answer nothing. -/
def bareEnv : Env where
  cfg := .shipped fun _ => []
  files := fun _ => none
  clock := ⟨0, 0, 0⟩
  uuid := []
  md5 := fun _ => .replicate 16 0
  archive := ⟨fun _ => [], fun _ => .error .archive⟩
  writeJson := fun _ => .ok []
  gzip := .ok
  sqlNow := []

/-- The environment with one granted address. -/
private def loopbackGranted : Env :=
  { bareEnv with cfg := { bareEnv.cfg with accessGranted := [bytes "127.0.0.1"] } }

/-- The granted address is refused. -/
theorem granted_address_refused :
    AccessLaw loopbackGranted (bytes "127.0.0.1") ∧
      ((handleRequest loopbackGranted []).exec (serve plainMysql)
        ⟨{ remoteAddr := bytes "127.0.0.1", uri := bytes "/" }, {}⟩ shippedWorld).1.2.res.status =
          some .unauthorized := by
  decide

end Waspp
