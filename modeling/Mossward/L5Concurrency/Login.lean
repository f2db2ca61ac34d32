import Mossward.Core.Run
import Mossward.L2Store.Identity
import Mossward.L2Store.LoginAttempts

/-!
# Logins with a password

`AuthenticateLocal` and `RefreshMFA` (`internal/auth/service.go:98-108`,
`:270-418`), run by any number of callers at once. A step of a call reads the
clock or makes one call of the store, and steps of different calls interleave at
will.

A login checks its two throttle keys, one after the other, with a clock reading
for each; verifies the password; verifies a second factor if the policy asks
for one; forgets the failures of its keys and creates a session. When the
password or the second factor is wrong, it reads the clock once and records a
failure for each key. A refresh only verifies the second factor. A second factor
with a dash is a recovery code, any other one a code of the authenticator, which
is matched against three time steps and then consumed, in two steps.

Accepted second factors are kept in a log. Errors of the database are left out.
-/
namespace Mossward.L5.Login

open Table Run L1.Names L1.Rfc3339 L2.Identity L2.LoginAttempts

/-! ## The service -/

/-- What the service is given: hashes, ciphers and what a column keeps of an
instant. -/
structure Service where
  sha256 : String → List UInt8
  /-- `VerifyPassword` on a stored hash; `none` for an error -/
  verifyPassword : String → String → Option Bool
  decrypt : List UInt8 → Option (List UInt8)
  /-- `totp.GenerateCodeCustom` at a Unix time -/
  generateCode : List UInt8 → Int → Option String
  keep : Int → Int
  keep_mono : Monotone keep

inductive LoginError
  | invalidCredentials
  | loginRateLimited
  | other (text : String)
deriving DecidableEq, Repr

inductive Request
  | login (email password passcode sourceIP : String)
  | refresh (userID code : String)
deriving DecidableEq

variable {L : L2.Identity.Locale}

/-- Mirrors `internal/auth/service.go:354-358`. -/
def loginThrottleKeys (S : Service) (L : L2.Identity.Locale) (email sourceIP : String) : List Key :=
  [S.sha256 ("account:" ++ L.normalizeEmail email), S.sha256 ("source:" ++ sourceIP)]

def Request.keys (S : Service) (L : L2.Identity.Locale) : Request → List Key
  | .login email _ _ sourceIP => loginThrottleKeys S L email sourceIP
  | .refresh _ _ => []

/-- Mirrors `internal/auth/service.go:269-289`. -/
def verifyLocalPassword (S : Service) (s : Accounts L) (email password : String) : Except LoginError UserRow :=
  match s.localIdentityByEmail email with
  | none => .error .invalidCredentials
  | some u =>
    if u.status ≠ .active || u.passwordHash = "" then .error .invalidCredentials
    else
      match S.verifyPassword u.passwordHash password with
      | none => .error (.other "verify stored password")
      | some false => .error .invalidCredentials
      | some true => .ok u

def totpPeriodSeconds : Int := 30

/-- `Unix` of an instant. -/
def unix (t : Time) : Int := (t.ns - 719162 * 24 * hour) / second

/-- The time step of a Unix time; Go's division truncates. -/
def timeStep (unix : Int) : Int := unix.tdiv totpPeriodSeconds

/-- Mirrors `internal/auth/service.go:408-418`. -/
def matchingTOTPCounter (S : Service) (secret : List UInt8) (passcode : String) (now : Time) : Option Int :=
  let candidates := [-1, 0, 1].map fun offset => unix now + offset * totpPeriodSeconds
  (candidates.find? fun candidate => S.generateCode secret candidate = some passcode).map timeStep

/-! ## Calls -/

/-- The next step of a second factor. -/
inductive Factor
  /-- load the secret -/
  | secret (passcode : String)
  /-- read the clock and match the code -/
  | code (secret : List UInt8) (passcode : String)
  /-- consume the time step -/
  | counter (counter : Int) (now : Time)
  /-- read the clock -/
  | recoveryClock (code : String)
  /-- consume the recovery code -/
  | recovery (code : String) (now : Time)
deriving DecidableEq

/-- The next step of a call. -/
inductive Phase
  /-- read the clock for the next key; with no key left, verify the password -/
  | check (keys : List Key)
  /-- ask whether the key is blocked -/
  | query (key : Key) (now : Time) (keys : List Key)
  /-- load the policy -/
  | policy (userID : String) (role : UserRole)
  | factor (userID : String) (next : Factor)
  /-- read the clock -/
  | failing (e : LoginError)
  /-- record a failure for the next key; with no key left, return -/
  | recording (e : LoginError) (now : Time) (keys : List Key)
  /-- forget the failures of the next key; with no key left, create the session -/
  | clearing (userID : String) (keys : List Key)
  | done (result : Except LoginError String)
deriving DecidableEq

structure Call where
  request : Request
  phase : Phase
deriving DecidableEq

inductive Accepted
  | totp (userID : String) (counter : Int) (now : Time)
  | recovery (userID code : String)
deriving DecidableEq

/-- What the calls share. -/
structure Shared (L : L2.Identity.Locale) where
  accounts : Accounts L
  attempts : List Row
  clock : Time
  /-- the accepted second factors, newest first -/
  accepted : List Accepted

/-- What a step meets besides the tables. -/
structure Input where
  /-- for which roles a second factor is required; `none` for an error -/
  policy : Option (UserRole → Bool)
  recorded : Bool
  sessionHash : List UInt8

/-- Mirrors `internal/auth/service.go:360-366`. -/
def Factor.start (L : L2.Identity.Locale) (value : String) : Factor :=
  let value := trimSpace (toLower L.lower value.toList)
  if '-' ∈ value then .recoveryClock (String.ofList value) else .secret (String.ofList value)

inductive FactorResult
  | next (f : Factor)
  | accepted
  | rejected

/-- One step of `verifyTOTP` or `verifyRecoveryCode`,
`internal/auth/service.go:368-406`. -/
def stepFactor (S : Service) (x : Input) (userID : String) (sh : Shared L) : Factor → Shared L × FactorResult
  | .secret passcode =>
    match sh.accounts.totpCredentials.find? fun c => c.userID = userID with
    | none => (sh, .rejected)
    | some c =>
      match S.decrypt c.secretCiphertext with
      | none => (sh, .rejected)
      | some secret => (sh, .next (.code secret passcode))
  | .code secret passcode =>
    match matchingTOTPCounter S secret (String.ofList (trimSpace passcode.toList)) sh.clock with
    | none => (sh, .rejected)
    | some counter => (sh, .next (.counter counter sh.clock))
  | .counter counter now =>
    match sh.accounts.consumeTOTPCounter userID counter with
    | (true, accounts) =>
      ({ sh with accounts := accounts, accepted := .totp userID counter now :: sh.accepted }, .accepted)
    | (false, accounts) => ({ sh with accounts := accounts }, .rejected)
  | .recoveryClock code => (sh, .next (.recovery code sh.clock))
  | .recovery code now =>
    match sh.accounts.consumeRecoveryCode userID (S.sha256 code) now x.recorded with
    | (.ok true, accounts) =>
      ({ sh with accounts := accounts, accepted := .recovery userID code :: sh.accepted }, .accepted)
    | (_, accounts) => ({ sh with accounts := accounts }, .rejected)

/-- After the second factor. -/
def Request.afterFactor (S : Service) (L : L2.Identity.Locale) (r : Request) (userID : String) : FactorResult → Phase
  | .next f => .factor userID f
  | .accepted => .clearing userID (r.keys S L)
  | .rejected =>
    match r with
    | .login _ _ _ _ => .failing .invalidCredentials
    | .refresh _ _ => .done (.error .invalidCredentials)

/-- The end of a call whose credentials were right. -/
def finish (x : Input) (sh : Shared L) (userID : String) : Request → Shared L × Phase
  | .login _ _ _ _ =>
    match sh.accounts.createSession ⟨x.sessionHash, userID⟩ sh.clock x.recorded with
    | (.error _, accounts) => ({ sh with accounts := accounts }, .done (.error (.other "create session")))
    | (.ok (), accounts) => ({ sh with accounts := accounts }, .done (.ok userID))
  | .refresh _ _ => (sh, .done (if x.recorded then .ok userID else .error (.other "identity not found")))

/-- One step of a call. -/
def stepCall (S : Service) (x : Input) (r : Request) (sh : Shared L) : Phase → Shared L × Phase
  | .check [] =>
    match r with
    | .refresh userID code => (sh, .factor userID (.start L code))
    | .login email password _ _ =>
      match verifyLocalPassword S sh.accounts email password with
      | .error e => (sh, .failing e)
      | .ok u => (sh, .policy u.id u.role)
  | .check (key :: keys) => (sh, .query key sh.clock keys)
  | .query key now keys =>
    if loginThrottle sh.attempts key now.ns then (sh, .done (.error .loginRateLimited)) else (sh, .check keys)
  | .policy userID role =>
    match x.policy, r with
    | some required, .login _ _ passcode _ =>
      if required role then (sh, .factor userID (.start L passcode)) else (sh, .clearing userID (r.keys S L))
    | _, _ => (sh, .done (.error (.other "load authentication policy")))
  | .factor userID f =>
    let (sh, result) := stepFactor S x userID sh f
    (sh, r.afterFactor S L userID result)
  | .failing e => (sh, .recording e sh.clock (r.keys S L))
  | .recording e _ [] => (sh, .done (.error e))
  | .recording e now (key :: keys) =>
    ({ sh with attempts := recordLoginFailure S.keep sh.attempts key now.ns }, .recording e now keys)
  | .clearing userID [] => finish x sh userID r
  | .clearing userID (key :: keys) =>
    ({ sh with attempts := clearLoginFailures sh.attempts key }, .clearing userID keys)
  | .done result => (sh, .done result)

/-! ## Interleavings -/

structure World (L : L2.Identity.Locale) where
  shared : Shared L
  calls : List Call

/-- A server with no call under way. -/
def World.idle (accounts : Accounts L) (attempts : List Row) (clock : Time) : World L :=
  ⟨⟨accounts, attempts, clock, []⟩, []⟩

inductive Op
  | tick (now : Time)
  | start (r : Request)
  /-- the next step of the call with this number -/
  | step (i : Nat) (x : Input)

def World.step (S : Service) (w : World L) : Op → World L
  | .tick now => { w with shared := { w.shared with clock := now } }
  | .start r => { w with calls := w.calls ++ [⟨r, .check (r.keys S L)⟩] }
  | .step i x =>
    match w.calls[i]? with
    | none => w
    | some c =>
      let (shared, phase) := stepCall S x c.request w.shared c.phase
      { shared := shared, calls := w.calls.set i { c with phase := phase } }

/-- Time does not run backwards. -/
def Timely (w : World L) : Op → Prop
  | .tick now => w.shared.clock ≤ now
  | _ => True

instance (w : World L) : (op : Op) → Decidable (Timely w op)
  | .tick now => inferInstanceAs (Decidable (w.shared.clock ≤ now))
  | .start _ => .isTrue trivial
  | .step _ _ => .isTrue trivial

end Mossward.L5.Login
