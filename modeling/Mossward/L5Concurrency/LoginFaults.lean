import Mossward.L5Concurrency.Login

/-!
# Logins while reads of the throttle fail

`LoginThrottle` (`internal/store/identity.go:163-177`) looks at the value it has
read before it looks at the error, and a query that fails leaves no value. This
is `AuthenticateLocal` (`internal/auth/service.go:291-338`) with any of these
reads failing; what the calls behind the throttle return is given.

Result: `session_created_iff`.
-/
namespace Mossward.L5.Login

open Table L2.Identity L2.LoginAttempts

inductive QueryError
  | noRows
  | failed
deriving DecidableEq

/-- One read of the throttle: the key, the clock and whether the query fails. -/
structure ThrottleRead where
  key : Key
  now : Int
  fails : Bool

/-- The column, if it is valid, and the error of `Scan`. -/
def scanBlocked (rows : List Row) (r : ThrottleRead) : Option Int × Option QueryError :=
  if r.fails then (none, some .failed)
  else
    match rowOf rows r.key with
    | none => (none, some .noRows)
    | some row => (row.blockedUntil, none)

/-- Mirrors `LoginThrottle`. -/
def readThrottle (rows : List Row) (r : ThrottleRead) : Except LoginError Bool :=
  match scanBlocked rows r with
  | (_, some .noRows) => .ok false
  | (none, _) => .ok false
  | (some _, some .failed) => .error (.other "load login throttle")
  | (some blockedUntil, none) => .ok (r.now < blockedUntil)

def loginBlocked (rows : List Row) : List ThrottleRead → Except LoginError Bool
  | [] => .ok false
  | r :: reads => do
    if ← readThrottle rows r then return true
    loginBlocked rows reads

/-- What the calls behind the throttle return. -/
structure Answers where
  verifyLocalPassword : Except LoginError UserRole
  authenticationPolicy : Except LoginError (UserRole → Bool)
  verifySecondFactor : Except LoginError Unit
  clearLoginFailures : Except LoginError Unit
  createSession : Except LoginError String

/-- Mirrors `AuthenticateLocal`. -/
def authenticateLocal (rows : List Row) (reads : List ThrottleRead) (a : Answers) : Except LoginError String := do
  if ← loginBlocked rows reads then throw .loginRateLimited
  let role ← a.verifyLocalPassword
  let required ← a.authenticationPolicy
  if required role then
    match a.verifySecondFactor with
    | .error _ => throw .invalidCredentials
    | .ok _ => pure ()
  a.clearLoginFailures
  a.createSession

/-- The password and, where the policy asks for it, the second factor are right, and
the store takes the session. -/
def Answers.Succeed (a : Answers) (token : String) : Prop :=
  ∃ role required, a.verifyLocalPassword = .ok role ∧ a.authenticationPolicy = .ok required ∧
    (required role = true → a.verifySecondFactor = .ok ()) ∧ a.clearLoginFailures = .ok () ∧
      a.createSession = .ok token

variable {rows : List Row}

theorem readThrottle_eq (r : ThrottleRead) :
    readThrottle rows r = .ok (!r.fails && loginThrottle rows r.key r.now) := by
  unfold readThrottle scanBlocked loginThrottle
  cases r.fails with
  | true => rfl
  | false =>
    cases rowOf rows r.key with
    | none => rfl
    | some row => cases h : row.blockedUntil <;> simp [h]

theorem loginBlocked_eq (reads : List ThrottleRead) :
    loginBlocked rows reads = .ok (reads.any fun r => !r.fails && loginThrottle rows r.key r.now) := by
  induction reads with
  | nil => rfl
  | cons r reads ih =>
    rw [loginBlocked, readThrottle_eq, ih, List.any_cons]
    cases !r.fails && loginThrottle rows r.key r.now <;> rfl

/-- A key whose read fails counts as not blocked. -/
theorem authenticateLocal_eq_ok (rows : List Row) (reads : List ThrottleRead) (a : Answers) (token : String) :
    authenticateLocal rows reads a = .ok token ↔
      (∀ r ∈ reads, r.fails = true ∨ loginThrottle rows r.key r.now = false) ∧ a.Succeed token := by
  have hall : (reads.any fun r => !r.fails && loginThrottle rows r.key r.now) = false ↔
      ∀ r ∈ reads, r.fails = true ∨ loginThrottle rows r.key r.now = false := by
    simp [or_iff_not_imp_left]
  unfold authenticateLocal Answers.Succeed
  rw [loginBlocked_eq, ← hall]
  cases reads.any fun r => !r.fails && loginThrottle rows r.key r.now with
  | true => simp [bind, Except.bind]
  | false =>
    cases a.verifyLocalPassword with
    | error e => simp [bind, Except.bind]
    | ok role =>
      cases a.authenticationPolicy with
      | error e => simp [bind, Except.bind]
      | ok required =>
        cases hr : required role <;> cases a.verifySecondFactor <;> cases a.clearLoginFailures <;>
          simp [bind, Except.bind, hr]

/-- **When throttling fails closed.** A login creates a session only if both keys
were read and are not in force: exactly when no read fails, or a key that is read
is in force, or the calls behind the throttle refuse the login anyway. -/
theorem session_created_iff (rows : List Row) (reads : List ThrottleRead) (a : Answers) :
    (∀ token, authenticateLocal rows reads a = .ok token →
        ∀ r ∈ reads, r.fails = false ∧ loginThrottle rows r.key r.now = false) ↔
      (∀ r ∈ reads, r.fails = false) ∨
      (∃ r ∈ reads, r.fails = false ∧ loginThrottle rows r.key r.now = true) ∨
      ∀ token, ¬ a.Succeed token := by
  constructor
  · intro hclosed
    by_contra hn
    simp only [not_or, not_exists, not_and, not_forall, not_not, Bool.not_eq_true, Bool.not_eq_false] at hn
    obtain ⟨⟨r, hr, hfails⟩, hfree, token, hs⟩ := hn
    have hok : authenticateLocal rows reads a = .ok token := by
      refine (authenticateLocal_eq_ok rows reads a token).mpr ⟨fun r hr => ?_, hs⟩
      cases hf : r.fails with
      | true => exact .inl rfl
      | false => exact .inr (hfree r hr hf)
    rw [(hclosed token hok r hr).1] at hfails
    cases hfails
  · intro hcases token hok r hr
    obtain ⟨hfree, hs⟩ := (authenticateLocal_eq_ok rows reads a token).mp hok
    rcases hcases with hread | ⟨r', hr', hread, hforce⟩ | hrefused
    · exact ⟨hread r hr, (hfree r hr).resolve_left (by simp [hread r hr])⟩
    · rcases hfree r' hr' with hf | hf
      · simp [hread] at hf
      · simp [hforce] at hf
    · exact absurd hs (hrefused token)

/-- The key is blocked, the query for it fails, and the login succeeds. -/
theorem blocked_login_succeeds : loginThrottle [⟨[1], 9, 0, some 10⟩] [1] 5 = true ∧
      authenticateLocal [⟨[1], 9, 0, some 10⟩] [⟨[1], 5, true⟩, ⟨[2], 5, false⟩]
        ⟨.ok .viewer, .ok fun _ => false, .ok (), .ok (), .ok "token"⟩ = .ok "token" := by
  decide +kernel

end Mossward.L5.Login
