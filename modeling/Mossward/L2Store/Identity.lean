import Mossward.Core.Table
import Mossward.L1Encoding.Names
import Mossward.L2Store.Schema

/-!
# User accounts

The tables of users, invitations, identity providers and second factors, and
the transactions that change who may do what: `internal/store/users.go` and
`oidc.go` for SQLite, `postgres_users.go` and `postgres_oidc.go` for PostgreSQL.

`Accounts` carries the constraints of the schema; a statement that would break
one of them fails. The databases differ in how they fold emails and compare
times (`Locale`). An audit event that cannot be written, or a commit that fails,
is an input of the transaction (`recorded`).

Results: `updateUserAccess_change`, `acceptLocalInvitation_change`,
`resolveOIDCUser_change`.
-/
namespace Mossward.L2.Identity

open Table L1.Names L1.Rfc3339 L2.Schema List

/-! ## Records -/

inductive UserRole
  | administrator | analyst | viewer
  | other (text : String)
deriving DecidableEq, Repr

inductive UserStatus
  | invited | active | disabled
  | other (text : String)
deriving DecidableEq, Repr

inductive IdentityKind
  | local | sso
deriving DecidableEq, Repr

inductive ProvisioningMode
  | inviteOnly | jit
  | other (text : String)
deriving DecidableEq, Repr

/-- `CHECK(role IN ('administrator','analyst','viewer'))`. -/
def UserRole.checked : UserRole → Bool
  | .other _ => false
  | _ => true

/-- `CHECK(status IN ('invited','active','disabled'))`. -/
def UserStatus.checked : UserStatus → Bool
  | .other _ => false
  | _ => true

structure UserRow where
  id : String
  email : String
  displayName : String
  role : UserRole
  status : UserStatus
  passwordHash : String
  mfaRequired : Bool
  createdAt : Time
  updatedAt : Time
deriving DecidableEq

structure InvitationRow where
  id : String
  email : String
  role : UserRole
  tokenHash : List UInt8
  identityKind : IdentityKind
  expiresAt : Time
  acceptedAt : Option Time
deriving DecidableEq

structure OIDCProvider where
  id : String
  provisioningMode : ProvisioningMode
  allowedTenantID : String
  allowedEmailDomains : List String
  allowedGroups : List String
  roleMappings : List (String × UserRole)
  defaultRole : UserRole
  enabled : Bool
deriving DecidableEq

structure OIDCClaims where
  userID : String
  subject : String
  email : String
  name : String
  tenantID : String
  groups : List String
deriving DecidableEq

structure ExternalIdentityRow where
  providerID : String
  subject : String
  userID : String
  tenantID : String
  email : String
  lastLoginAt : Time
deriving DecidableEq

structure TotpRow where
  userID : String
  secretCiphertext : List UInt8
  lastCounter : Int
deriving DecidableEq

structure RecoveryRow where
  userID : String
  codeHash : List UInt8
  usedAt : Option Time
deriving DecidableEq

structure SessionRow where
  idHash : List UInt8
  userID : String
deriving DecidableEq

def UserRow.Checked (u : UserRow) : Prop := u.role.checked ∧ u.status.checked

instance (u : UserRow) : Decidable u.Checked := inferInstanceAs (Decidable (_ ∧ _))

/-- `role='administrator' AND status='active' AND password_hash<>''`. -/
def UserRow.isLocalAdministrator (u : UserRow) : Bool :=
  u.role = .administrator && u.status = .active && u.passwordHash ≠ ""

/-! ## Databases -/

structure Locale where
  dialect : Dialect
  /-- Emails are compared by `COLLATE NOCASE` or by `LOWER`. -/
  fold : String → String
  /-- `unicode.ToLower` outside ASCII. -/
  lower : Char → Char

/-- `COLLATE NOCASE` folds ASCII letters. -/
def sqliteLocale (lower : Char → Char) : Locale where
  dialect := sqlite
  fold email := String.ofList (email.toList.map Char.toLower)
  lower := lower

/-- `LOWER` is that of the database's locale. -/
def postgresLocale (collate : String → String → Bool) (fold : String → String) (lower : Char → Char) : Locale where
  dialect := postgres collate
  fold := fold
  lower := lower

/-- Mirrors `internal/store/identity.go:413-415`. -/
def Locale.normalizeEmail (L : Locale) (email : String) : String :=
  String.ofList (toLower L.lower (trimSpace email.toList))

/-- The tables and their constraints. -/
structure Accounts (L : Locale) where
  users : List UserRow
  invitations : List InvitationRow
  providers : List OIDCProvider
  externalIdentities : List ExternalIdentityRow
  totpCredentials : List TotpRow
  recoveryCodes : List RecoveryRow
  sessions : List SessionRow
  userID : Keyed UserRow.id users
  userEmail : Keyed (fun u : UserRow => L.fold u.email) users
  userChecked : ∀ u ∈ users, u.Checked
  invitationID : Keyed InvitationRow.id invitations
  identityID : Keyed (fun e : ExternalIdentityRow => (e.providerID, e.subject)) externalIdentities
  identityOnce : Keyed (fun e : ExternalIdentityRow => (e.providerID, e.userID)) externalIdentities
  identityProvider : ∀ e ∈ externalIdentities, e.providerID ∈ providers.map (·.id)
  identityUser : ∀ e ∈ externalIdentities, e.userID ∈ users.map (·.id)
  totpID : Keyed TotpRow.userID totpCredentials
  totpUser : ∀ c ∈ totpCredentials, c.userID ∈ users.map (·.id)
  recoveryID : Keyed (fun c : RecoveryRow => (c.userID, c.codeHash)) recoveryCodes
  recoveryUser : ∀ c ∈ recoveryCodes, c.userID ∈ users.map (·.id)
  sessionID : Keyed SessionRow.idHash sessions
  sessionUser : ∀ x ∈ sessions, x.userID ∈ users.map (·.id)

/-- Tables without credentials and sessions. -/
def Accounts.ofTables {L : Locale} (users : List UserRow) (invitations : List InvitationRow)
    (providers : List OIDCProvider) (identities : List ExternalIdentityRow)
    (h : (users.map UserRow.id).Nodup ∧ (users.map fun u => L.fold u.email).Nodup ∧ (∀ u ∈ users, u.Checked) ∧
      (invitations.map InvitationRow.id).Nodup ∧ (identities.map fun e => (e.providerID, e.subject)).Nodup ∧
      (identities.map fun e => (e.providerID, e.userID)).Nodup ∧
      ∀ e ∈ identities, e.providerID ∈ providers.map (·.id) ∧ e.userID ∈ users.map (·.id)) : Accounts L where
  users := users
  invitations := invitations
  providers := providers
  externalIdentities := identities
  totpCredentials := []
  recoveryCodes := []
  sessions := []
  userID := h.1
  userEmail := h.2.1
  userChecked := h.2.2.1
  invitationID := h.2.2.2.1
  identityID := h.2.2.2.2.1
  identityOnce := h.2.2.2.2.2.1
  identityProvider e he := (h.2.2.2.2.2.2 e he).1
  identityUser e he := (h.2.2.2.2.2.2 e he).2
  totpID := nodup_nil
  totpUser := by simp
  recoveryID := nodup_nil
  recoveryUser := by simp
  sessionID := nodup_nil
  sessionUser := by simp

inductive IdentityError
  | identityNotFound
  | finalAdministrator
  /-- A statement failed, or a text of its own. -/
  | failed (text : String)
deriving DecidableEq, Repr

/-- `QueryRow(…).Scan(…)`, with `ErrIdentityNotFound` for no row. -/
def found {α : Type} : Option α → Except IdentityError α
  | none => .error .identityNotFound
  | some a => .ok a

theorem found_eq_ok {α : Type} {o : Option α} {a : α} : found o = .ok a ↔ o = some a := by
  cases o <;> simp [found]

/-! ## Statements -/

namespace Accounts

section
variable {L : Locale} (s : Accounts L)

/-- `UPDATE users` where the key and the email stay. -/
def updateUsers (p : UserRow → Bool) (f : UserRow → UserRow) (hid : ∀ u, (f u).id = u.id)
    (hemail : ∀ u, (f u).email = u.email) (hchecked : ∀ u, u.Checked → (f u).Checked) : Accounts L :=
  have hids : (updateWhere p f s.users).map (·.id) = s.users.map (·.id) := updateWhere_map _ (fun u _ => hid u) _
  { s with
    users := updateWhere p f s.users
    userID := s.userID.updateWhere fun u _ => hid u
    userEmail := s.userEmail.updateWhere fun u _ => by rw [hemail]
    userChecked := by
      intro u' hu'
      obtain ⟨u, hu, rfl⟩ := mem_updateWhere.mp hu'
      split
      · exact hchecked u (s.userChecked u hu)
      · exact s.userChecked u hu
    identityUser := by rw [hids]; exact s.identityUser
    totpUser := by rw [hids]; exact s.totpUser
    recoveryUser := by rw [hids]; exact s.recoveryUser
    sessionUser := by rw [hids]; exact s.sessionUser }

theorem ids_updateUsers {p : UserRow → Bool} {f : UserRow → UserRow} {hi : ∀ u, (f u).id = u.id}
    {he : ∀ u, (f u).email = u.email} {hc : ∀ u, u.Checked → (f u).Checked} :
    (s.updateUsers p f hi he hc).users.map (·.id) = s.users.map (·.id) :=
  updateWhere_map _ (fun u _ => hi u) _

/-- `UPDATE users SET role=?,status=?,updated_at=? WHERE id=?`. -/
def setAccess (userID : String) (role : UserRole) (status : UserStatus) (now : Time) :
    Except IdentityError (Accounts L) :=
  if h : role.checked ∧ status.checked then
    .ok (s.updateUsers (fun u => u.id = userID)
      (fun u => { u with role := role, status := status, updatedAt := L.dialect.bind now })
      (fun _ => rfl) (fun _ => rfl) fun _ _ => h)
  else .error (.failed "update user access")

/-- `UPDATE users SET role=?,updated_at=? WHERE id=?`. -/
def setRole (userID : String) (role : UserRole) (now : Time) : Except IdentityError (Accounts L) :=
  if h : role.checked then
    .ok (s.updateUsers (fun u => u.id = userID)
      (fun u => { u with role := role, updatedAt := L.dialect.bind now })
      (fun _ => rfl) (fun _ => rfl) fun _ hu => ⟨h, hu.2⟩)
  else .error (.failed "update group-derived role")

/-- `UPDATE users SET last_login_at=?,updated_at=? WHERE id=?`. -/
def noteUserLogin (userID : String) (now : Time) : Accounts L :=
  s.updateUsers (fun u => u.id = userID) (fun u => { u with updatedAt := L.dialect.bind now })
    (fun _ => rfl) (fun _ => rfl) fun _ hu => hu

theorem ids_noteUserLogin (uid : String) (now : Time) :
    (s.noteUserLogin uid now).users.map (·.id) = s.users.map (·.id) := ids_updateUsers s

/-- `INSERT INTO users`. -/
def insertUser (u : UserRow) (failure : String) : Except IdentityError (Accounts L) :=
  if h : u.Checked ∧ (∀ x ∈ s.users, x.id ≠ u.id) ∧ ∀ x ∈ s.users, L.fold x.email ≠ L.fold u.email then
    have hids : ∀ id, id ∈ s.users.map (·.id) → id ∈ (s.users ++ [u]).map (·.id) := fun id hid => by
      rw [map_append]
      exact mem_append_left _ hid
    .ok { s with
      users := s.users ++ [u]
      userID := s.userID.append_singleton h.2.1
      userEmail := s.userEmail.append_singleton h.2.2
      userChecked := by
        intro x hx
        rcases mem_append.mp hx with hx | hx
        · exact s.userChecked x hx
        · rw [mem_singleton.mp hx]
          exact h.1
      identityUser := fun e he => hids _ (s.identityUser e he)
      totpUser := fun c hc => hids _ (s.totpUser c hc)
      recoveryUser := fun c hc => hids _ (s.recoveryUser c hc)
      sessionUser := fun x hx => hids _ (s.sessionUser x hx) }
  else .error (.failed failure)

/-- `INSERT INTO external_identities`. -/
def insertExternalIdentity (e : ExternalIdentityRow) : Except IdentityError (Accounts L) :=
  if h : (∀ x ∈ s.externalIdentities, (x.providerID, x.subject) ≠ (e.providerID, e.subject)) ∧
      (∀ x ∈ s.externalIdentities, (x.providerID, x.userID) ≠ (e.providerID, e.userID)) ∧
      e.providerID ∈ s.providers.map (·.id) ∧ e.userID ∈ s.users.map (·.id) then
    .ok { s with
      externalIdentities := s.externalIdentities ++ [e]
      identityID := s.identityID.append_singleton h.1
      identityOnce := s.identityOnce.append_singleton h.2.1
      identityProvider := by
        intro x hx
        rcases mem_append.mp hx with hx | hx
        · exact s.identityProvider x hx
        · rw [mem_singleton.mp hx]
          exact h.2.2.1
      identityUser := by
        intro x hx
        rcases mem_append.mp hx with hx | hx
        · exact s.identityUser x hx
        · rw [mem_singleton.mp hx]
          exact h.2.2.2 }
  else .error (.failed "link external identity")

/-- `UPDATE external_identities SET last_login_at=?,tenant_id=?,email=?`. -/
def noteLogin (providerID subject tenantID email : String) (now : Time) : Accounts L :=
  let f := fun e : ExternalIdentityRow =>
    { e with lastLoginAt := L.dialect.bind now, tenantID := tenantID, email := email }
  let p := fun e : ExternalIdentityRow => e.providerID = providerID && e.subject = subject
  { s with
    externalIdentities := updateWhere p f s.externalIdentities
    identityID := s.identityID.updateWhere fun _ _ => rfl
    identityOnce := s.identityOnce.updateWhere fun _ _ => rfl
    identityProvider := by
      intro e' he'
      obtain ⟨e, he, rfl⟩ := mem_updateWhere.mp he'
      split
      · exact s.identityProvider e he
      · exact s.identityProvider e he
    identityUser := by
      intro e' he'
      obtain ⟨e, he, rfl⟩ := mem_updateWhere.mp he'
      split
      · exact s.identityUser e he
      · exact s.identityUser e he }

/-- `UPDATE invitations SET accepted_at=?`. -/
def acceptInvitations (p : InvitationRow → Bool) (now : Time) : Accounts L :=
  { s with
    invitations := updateWhere p (fun i => { i with acceptedAt := some (L.dialect.bind now) }) s.invitations
    invitationID := s.invitationID.updateWhere fun _ _ => rfl }

/-- `INSERT INTO totp_credentials`; the counter starts at its default. -/
def insertTotp (userID : String) (secretCiphertext : List UInt8) : Except IdentityError (Accounts L) :=
  if h : (∀ c ∈ s.totpCredentials, c.userID ≠ userID) ∧ userID ∈ s.users.map (·.id) then
    .ok { s with
      totpCredentials := s.totpCredentials ++ [⟨userID, secretCiphertext, -1⟩]
      totpID := s.totpID.append_singleton h.1
      totpUser := by
        intro c hc
        rcases mem_append.mp hc with hc | hc
        · exact s.totpUser c hc
        · rw [mem_singleton.mp hc]
          exact h.2 }
  else .error (.failed "create invited user TOTP")

/-- `INSERT INTO recovery_codes`. -/
def insertRecoveryCode (userID : String) (codeHash : List UInt8) : Except IdentityError (Accounts L) :=
  if h : (∀ c ∈ s.recoveryCodes, (c.userID, c.codeHash) ≠ (userID, codeHash)) ∧ userID ∈ s.users.map (·.id) then
    .ok { s with
      recoveryCodes := s.recoveryCodes ++ [⟨userID, codeHash, none⟩]
      recoveryID := s.recoveryID.append_singleton h.1
      recoveryUser := by
        intro c hc
        rcases mem_append.mp hc with hc | hc
        · exact s.recoveryUser c hc
        · rw [mem_singleton.mp hc]
          exact h.2 }
  else .error (.failed "create invited user recovery code")

/-- `DELETE FROM sessions WHERE user_id=?`. -/
def deleteSessions (userID : String) : Accounts L :=
  { s with
    sessions := s.sessions.filter fun x => x.userID ≠ userID
    sessionID := s.sessionID.sublist (filter_sublist.map _)
    sessionUser := fun x hx => s.sessionUser x (mem_of_mem_filter hx) }

/-- `INSERT INTO sessions`. -/
def insertSession (x : SessionRow) : Except IdentityError (Accounts L) :=
  if h : (∀ y ∈ s.sessions, y.idHash ≠ x.idHash) ∧ x.userID ∈ s.users.map (·.id) then
    .ok { s with
      sessions := s.sessions ++ [x]
      sessionID := s.sessionID.append_singleton h.1
      sessionUser := by
        intro y hy
        rcases mem_append.mp hy with hy | hy
        · exact s.sessionUser y hy
        · rw [mem_singleton.mp hy]
          exact h.2 }
  else .error (.failed "create session")

/-! ## Transactions -/

/-- A transaction that fails is rolled back. -/
def transact {α : Type} (body : Except IdentityError (α × Accounts L)) : Except IdentityError α × Accounts L :=
  match body with
  | .error e => (.error e, s)
  | .ok (a, s') => (.ok a, s')

/-- Whether an update takes the rights of a local administrator away. -/
def removesLocalAdmin (u : UserRow) (role : UserRole) (status : UserStatus) : Bool :=
  u.isLocalAdministrator && (role ≠ .administrator || status ≠ .active)

/-- Mirrors `internal/store/users.go:42-80` and `postgres_users.go:29-77`, which
counts first. -/
def updateUserAccess (userID : String) (role : UserRole) (status : UserStatus) (now : Time) (recorded : Bool) :
    Except IdentityError Unit × Accounts L :=
  s.transact do
    let u ← found (s.users.find? fun u => u.id = userID)
    require (!(removesLocalAdmin u role status && s.users.countP UserRow.isLocalAdministrator ≤ 1)) .finalAdministrator
    let s ← s.setAccess userID role status now
    require recorded (.failed "insert audit event")
    .ok ((), s.deleteSessions userID)

/-- What the caller of `AcceptLocalInvitation` hands over: the invitation it
read, the new user and the second factors. -/
structure Acceptance where
  invitationID : String
  tokenHash : List UInt8
  userID : String
  email : String
  displayName : String
  role : UserRole
  passwordHash : String
  totpSecretCiphertext : List UInt8
  recoveryCodeHashes : List (List UInt8)

/-- `id=? AND token_hash=? AND accepted_at IS NULL AND expires_at>?`. -/
def invitationOpen (L : Locale) (a : Acceptance) (now : Time) (i : InvitationRow) : Bool :=
  i.id = a.invitationID && i.tokenHash = a.tokenHash && i.acceptedAt = none &&
    L.dialect.lt (L.dialect.bind now) i.expiresAt

def Acceptance.user (L : Locale) (a : Acceptance) (now : Time) : UserRow where
  id := a.userID
  email := L.normalizeEmail a.email
  displayName := a.displayName
  role := a.role
  status := .active
  passwordHash := a.passwordHash
  mfaRequired := true
  createdAt := L.dialect.bind now
  updatedAt := L.dialect.bind now

/-- Mirrors `internal/store/users.go:155-193` and `postgres_users.go:129-163`. -/
def acceptLocalInvitation (a : Acceptance) (now : Time) (recorded : Bool) : Except IdentityError Unit × Accounts L :=
  s.transact do
    require (s.invitations.countP (invitationOpen L a now) = 1) .identityNotFound
    let s := s.acceptInvitations (invitationOpen L a now) now
    let s ← s.insertUser (a.user L now) "create invited local user"
    let s ← s.insertTotp a.userID a.totpSecretCiphertext
    let s ← a.recoveryCodeHashes.foldlM (fun s hash => s.insertRecoveryCode a.userID hash) s
    require recorded (.failed "insert audit event")
    .ok ((), s)

/-- Mirrors `internal/store/oidc.go:196-216`. -/
def linkedOIDCUser (providerID subject : String) : Option UserRow := do
  let e ← s.externalIdentities.find? fun e => (e.providerID, e.subject) = (providerID, subject)
  s.users.find? fun u => u.id = e.userID

/-- With just-in-time provisioning the role is that of the claims. -/
def syncRole (provider : OIDCProvider) (user : UserRow) (role : UserRole) (now : Time) :
    Except IdentityError (UserRow × Accounts L) :=
  if provider.provisioningMode = .jit && user.role ≠ role then
    (s.setRole user.id role now).map fun s => ({ user with role := role }, s)
  else .ok (user, s)

/-- Mirrors `internal/store/oidc.go:172-194`. -/
def updateLinkedOIDCUser (provider : OIDCProvider) (claims : OIDCClaims) (user : UserRow) (role : UserRole)
    (now : Time) : Except IdentityError (UserRow × Accounts L) := do
  require (user.status = .active) .identityNotFound
  let (user, s) ← s.syncRole provider user role now
  .ok (user, s.noteLogin provider.id claims.subject claims.tenantID (L.normalizeEmail claims.email) now)

/-- `email=? AND identity_kind='sso' AND accepted_at IS NULL AND expires_at>?`. -/
def ssoInvitationOpen (L : Locale) (email : String) (now : Time) (i : InvitationRow) : Bool :=
  L.fold i.email = L.fold (L.normalizeEmail email) && i.identityKind = .sso && i.acceptedAt = none &&
    L.dialect.lt (L.dialect.bind now) i.expiresAt

/-- The role of the invitation, which is accepted. -/
def takeSSOInvitation (email : String) (now : Time) : Except IdentityError (UserRole × Accounts L) := do
  let i ← found (s.invitations.find? (ssoInvitationOpen L email now))
  .ok (i.role, s.acceptInvitations (fun x => x.id = i.id) now)

/-- The role of a new user. -/
def grantedRole (provider : OIDCProvider) (claims : OIDCClaims) (role : UserRole) (now : Time) :
    Except IdentityError (UserRole × Accounts L) :=
  if provider.provisioningMode = .inviteOnly then s.takeSSOInvitation claims.email now else .ok (role, s)

def ssoUser (L : Locale) (claims : OIDCClaims) (role : UserRole) (now : Time) : UserRow where
  id := claims.userID
  email := L.normalizeEmail claims.email
  displayName := claims.name
  role := role
  status := .active
  passwordHash := ""
  mfaRequired := true
  createdAt := L.dialect.bind now
  updatedAt := L.dialect.bind now

/-- Mirrors `internal/store/oidc.go:218-251`. -/
def provisionOIDCUser (provider : OIDCProvider) (claims : OIDCClaims) (role : UserRole) (now : Time) :
    Except IdentityError (UserRow × Accounts L) := do
  let (role, s) ← s.grantedRole provider claims role now
  require (claims.userID ≠ "") (.failed "OIDC provisioning user ID is required")
  let user := ssoUser L claims role now
  let s ← s.insertUser user "create SSO user"
  let s ← s.insertExternalIdentity
    ⟨provider.id, claims.subject, user.id, claims.tenantID, user.email, L.dialect.bind now⟩
  .ok (user, s)

/-- The linked user, or a new one. -/
def identifyOIDCUser (provider : OIDCProvider) (claims : OIDCClaims) (role : UserRole) (now : Time) :
    Except IdentityError (UserRow × Accounts L) :=
  match s.linkedOIDCUser provider.id claims.subject with
  | some user => s.updateLinkedOIDCUser provider claims user role now
  | none => s.provisionOIDCUser provider claims role now

/-- Mirrors `internal/store/oidc.go:145-170` and `postgres_oidc.go:147-175`. -/
def resolveOIDCUser (provider : OIDCProvider) (claims : OIDCClaims) (role : UserRole) (now : Time) (recorded : Bool) :
    Except IdentityError UserRow × Accounts L :=
  s.transact do
    let (user, s) ← s.identifyOIDCUser provider claims role now
    require recorded (.failed "insert audit event")
    .ok (user, s)

/-- Mirrors `internal/store/identity.go:364-374`: whether the counter was above
the last one. -/
def consumeTOTPCounter (userID : String) (counter : Int) : Bool × Accounts L :=
  let p := fun c : TotpRow => c.userID = userID && c.lastCounter < counter
  (s.totpCredentials.countP p = 1,
    { s with
      totpCredentials := updateWhere p (fun c => { c with lastCounter := counter }) s.totpCredentials
      totpID := s.totpID.updateWhere fun _ _ => rfl
      totpUser := by
        intro c' hc'
        obtain ⟨c, hc, rfl⟩ := mem_updateWhere.mp hc'
        split
        · exact s.totpUser c hc
        · exact s.totpUser c hc })

/-- `user_id=? AND code_hash=? AND used_at IS NULL`. -/
def recoveryCodeOpen (userID : String) (codeHash : List UInt8) (c : RecoveryRow) : Bool :=
  c.userID = userID && c.codeHash = codeHash && c.usedAt = none

/-- `UPDATE recovery_codes SET used_at=?`. -/
def useRecoveryCode (userID : String) (codeHash : List UInt8) (usedAt : Time) : Accounts L :=
  { s with
    recoveryCodes := updateWhere (recoveryCodeOpen userID codeHash)
      (fun c => { c with usedAt := some (L.dialect.bind usedAt) }) s.recoveryCodes
    recoveryID := s.recoveryID.updateWhere fun _ _ => rfl
    recoveryUser := by
      intro c' hc'
      obtain ⟨c, hc, rfl⟩ := mem_updateWhere.mp hc'
      split
      · exact s.recoveryUser c hc
      · exact s.recoveryUser c hc }

/-- Mirrors `internal/store/identity.go:376-401`. -/
def consumeRecoveryCode (userID : String) (codeHash : List UInt8) (usedAt : Time) (recorded : Bool) :
    Except IdentityError Bool × Accounts L :=
  if s.recoveryCodes.countP (recoveryCodeOpen userID codeHash) ≠ 1 then (.ok false, s)
  else if !recorded then (.error (.failed "insert audit event"), s)
  else (.ok true, s.useRecoveryCode userID codeHash usedAt)

/-- Mirrors `internal/store/identity.go:89-91`. -/
def localIdentityByEmail (email : String) : Option UserRow :=
  s.users.find? fun u => L.fold u.email = L.fold (L.normalizeEmail email)

/-- Mirrors `internal/store/identity.go:123-146`. -/
def createSession (x : SessionRow) (now : Time) (recorded : Bool) : Except IdentityError Unit × Accounts L :=
  s.transact do
    let s ← s.insertSession x
    require recorded (.failed "insert audit event")
    .ok ((), s.noteUserLogin x.userID now)

/-! ## What a transaction changes -/

/-- The users with an external identity. -/
def links : List String := s.externalIdentities.map (·.userID)

end

/-- What a transaction does to the users and their links. -/
inductive Change {L : Locale} (s s' : Accounts L) : Prop
  | none (users : s'.users = s.users) (links : s'.links = s.links)
  | access (u : UserRow) (role : UserRole) (status : UserStatus) (updatedAt : Time) (mem : u ∈ s.users)
      (guarded : removesLocalAdmin u role status → 1 < s.users.countP UserRow.isLocalAdministrator)
      (users : s'.users = updateWhere (fun x => x.id = u.id)
        (fun x => { x with role := role, status := status, updatedAt := updatedAt }) s.users)
      (links : s'.links = s.links)
  | role (id : String) (role : UserRole) (updatedAt : Time) (linked : id ∈ s.links)
      (users : s'.users = updateWhere (fun x => x.id = id)
        (fun x => { x with role := role, updatedAt := updatedAt }) s.users)
      (links : s'.links = s.links)
  | joined (u : UserRow) (fresh : ∀ x ∈ s.users, x.id ≠ u.id) (users : s'.users = s.users ++ [u])
      (links : s'.links = s.links)
  | provisioned (u : UserRow) (fresh : ∀ x ∈ s.users, x.id ≠ u.id) (passwordless : u.passwordHash = "")
      (users : s'.users = s.users ++ [u]) (links : s'.links = s.links ++ [u.id])

section
variable {L : Locale} {s s' : Accounts L} {now : Time}

theorem transact_cases {α : Type} (s : Accounts L) (body : Except IdentityError (α × Accounts L)) :
    (∃ e, body = .error e ∧ s.transact body = (.error e, s)) ∨
    ∃ a s', body = .ok (a, s') ∧ s.transact body = (.ok a, s') := by
  cases body with
  | error e => exact .inl ⟨e, rfl, rfl⟩
  | ok p => exact .inr ⟨p.1, p.2, rfl, rfl⟩

variable {userID : String} {role : UserRole}

theorem setAccess_ok {status : UserStatus} (h : s.setAccess userID role status now = .ok s') :
    s'.users = updateWhere (fun u => u.id = userID)
      (fun u => { u with role := role, status := status, updatedAt := L.dialect.bind now }) s.users ∧
    s'.externalIdentities = s.externalIdentities := by
  unfold setAccess at h
  split at h
  · cases h
    exact ⟨rfl, rfl⟩
  · cases h

theorem setRole_ok (h : s.setRole userID role now = .ok s') : s'.users = updateWhere (fun u => u.id = userID)
      (fun u => { u with role := role, updatedAt := L.dialect.bind now }) s.users ∧
    s'.externalIdentities = s.externalIdentities ∧ s'.invitations = s.invitations ∧
    s'.users.map (·.id) = s.users.map (·.id) := by
  unfold setRole at h
  split at h
  · cases h
    exact ⟨rfl, rfl, rfl, ids_updateUsers s⟩
  · cases h

variable {u : UserRow}

theorem insertUser_ok {failure : String} (h : s.insertUser u failure = .ok s') :
    (∀ x ∈ s.users, x.id ≠ u.id) ∧ s'.users = s.users ++ [u] ∧ s'.externalIdentities = s.externalIdentities ∧
    s'.invitations = s.invitations := by
  unfold insertUser at h
  split at h
  · rename_i hf
    cases h
    exact ⟨hf.2.1, rfl, rfl, rfl⟩
  · cases h

theorem insertExternalIdentity_ok {e : ExternalIdentityRow} (h : s.insertExternalIdentity e = .ok s') :
    s'.externalIdentities = s.externalIdentities ++ [e] ∧ s'.users = s.users ∧ s'.invitations = s.invitations := by
  unfold insertExternalIdentity at h
  split at h
  · cases h
    exact ⟨rfl, rfl, rfl⟩
  · cases h

theorem insertSession_ok {x : SessionRow} (h : s.insertSession x = .ok s') :
    s'.users = s.users ∧ s'.invitations = s.invitations := by
  unfold insertSession at h
  split at h
  · cases h
    exact ⟨rfl, rfl⟩
  · cases h

theorem insertTotp_ok {secret : List UInt8} (h : s.insertTotp userID secret = .ok s') :
    s'.users = s.users ∧ s'.externalIdentities = s.externalIdentities := by
  unfold insertTotp at h
  split at h
  · cases h
    exact ⟨rfl, rfl⟩
  · cases h

theorem insertRecoveryCode_ok {ha : List UInt8} (h : s.insertRecoveryCode userID ha = .ok s') :
    s'.users = s.users ∧ s'.externalIdentities = s.externalIdentities := by
  unfold insertRecoveryCode at h
  split at h
  · cases h
    exact ⟨rfl, rfl⟩
  · cases h

theorem insertRecoveryCodes_ok {ha : List (List UInt8)}
    (h : ha.foldlM (fun s has => s.insertRecoveryCode userID has) s = .ok s') :
    s'.users = s.users ∧ s'.externalIdentities = s.externalIdentities := by
  induction ha generalizing s with
  | nil =>
    cases h
    exact ⟨rfl, rfl⟩
  | cons has ha ih =>
    obtain ⟨s1, hf, hr⟩ := bind_eq_ok.mp h
    obtain ⟨hu, hl⟩ := insertRecoveryCode_ok hf
    obtain ⟨hu', hl'⟩ := ih hr
    exact ⟨hu'.trans hu, hl'.trans hl⟩

theorem linkedOIDCUser_some {pid sub : String}
    (h : s.linkedOIDCUser pid sub = some u) : u ∈ s.users ∧ u.id ∈ s.links := by
  obtain ⟨e, he, hu⟩ := Option.bind_eq_some_iff.mp h
  have hi : u.id = e.userID := by simpa using find?_some hu
  refine ⟨mem_of_find?_eq_some hu, ?_⟩
  rw [hi]
  exact mem_map_of_mem (mem_of_find?_eq_some he)

/-- The second factors of both databases are the same. -/
def SameFactors (s s' : Accounts L) : Prop :=
  s'.totpCredentials = s.totpCredentials ∧ s'.recoveryCodes = s.recoveryCodes

theorem consumeTOTPCounter_cases {ctr : Int} {consumed : Bool}
    (h : s.consumeTOTPCounter userID ctr = (consumed, s')) :
    (consumed = false ∧ SameFactors s s') ∨
    (consumed = true ∧ (∃ c ∈ s.totpCredentials, c.userID = userID ∧ c.lastCounter < ctr) ∧
      s'.totpCredentials = updateWhere (fun c => c.userID = userID && c.lastCounter < ctr)
        (fun c => { c with lastCounter := ctr }) s.totpCredentials ∧ s'.recoveryCodes = s.recoveryCodes) := by
  cases h
  by_cases hco : s.totpCredentials.countP (fun c => c.userID = userID && c.lastCounter < ctr) = 1
  · obtain ⟨c, hc, hb⟩ := countP_pos_iff.mp (by omega :
      0 < s.totpCredentials.countP fun c => c.userID = userID && c.lastCounter < ctr)
    exact .inr ⟨by simp [hco], ⟨c, hc, by simpa using hb⟩, rfl, rfl⟩
  · have hn := s.totpID.none_of_countP_ne_one (fun c _ hc => by simp at hc; exact hc.1) hco
    exact .inl ⟨by simp [hco], updateWhere_none hn, rfl⟩

theorem consumeRecoveryCode_cases {code : List UInt8} {usedAt : Time} {rec : Bool}
    {res : Except IdentityError Bool} (h : s.consumeRecoveryCode userID code usedAt rec = (res, s')) :
    (res ≠ .ok true ∧ s' = s) ∨
    (res = .ok true ∧ (∃ c ∈ s.recoveryCodes, recoveryCodeOpen userID code c) ∧
      s' = s.useRecoveryCode userID code usedAt) := by
  unfold consumeRecoveryCode at h
  split at h
  · cases h
    exact .inl ⟨by simp, rfl⟩
  split at h
  · cases h
    exact .inl ⟨by simp, rfl⟩
  cases h
  refine .inr ⟨rfl, ?_, rfl⟩
  apply countP_pos_iff.mp
  omega

theorem createSession_factors (s : Accounts L) (x : SessionRow) (now : Time) (rec : Bool) :
    SameFactors s (s.createSession x now rec).2 := by
  unfold createSession
  rcases transact_cases s _ with ⟨e, -, he⟩ | ⟨_, s', hb, he⟩
  · rw [he]
    exact ⟨rfl, rfl⟩
  rw [he]
  obtain ⟨s1, hi, hb⟩ := bind_eq_ok.mp hb
  obtain ⟨-, -, hen⟩ := bind_eq_ok.mp hb
  cases hen
  unfold insertSession at hi
  split at hi
  · cases hi
    exact ⟨rfl, rfl⟩
  · cases hi

theorem links_noteLogin (s : Accounts L) (pid sub tenantID email : String) (now : Time) :
    (s.noteLogin pid sub tenantID email now).links = s.links := by
  unfold links noteLogin
  rw [updateWhere_map]
  intro e _
  rfl

theorem links_of_identities (h : s'.externalIdentities = s.externalIdentities) : s'.links = s.links := by
  unfold links
  rw [h]

/-- **Result.** A change of access fails or is guarded by the count of local
administrators. -/
theorem updateUserAccess_change (s : Accounts L) (uid : String) (role : UserRole) (st : UserStatus) (now : Time)
    (rec : Bool) : Change s (s.updateUserAccess uid role st now rec).2 := by
  unfold updateUserAccess
  rcases transact_cases s _ with ⟨e, -, he⟩ | ⟨a, s', hb, he⟩
  · rw [he]
    exact .none rfl rfl
  rw [he]
  obtain ⟨u, hu, hb⟩ := bind_eq_ok.mp hb
  obtain ⟨_, hg, hb⟩ := bind_eq_ok.mp hb
  obtain ⟨s1, hs, hb⟩ := bind_eq_ok.mp hb
  obtain ⟨-, -, hen⟩ := bind_eq_ok.mp hb
  cases hen
  obtain ⟨hus, hl⟩ := setAccess_ok hs
  have hm := mem_of_find?_eq_some (found_eq_ok.mp hu)
  have hi : u.id = uid := by simpa using find?_some (found_eq_ok.mp hu)
  rw [require_eq_ok] at hg
  refine .access u role st (L.dialect.bind now) hm ?_ ?_ (links_of_identities hl)
  · intro hr
    simpa [hr] using hg
  · rw [hi]
    exact hus

/-- **Result.** Accepting an invitation fails or adds a user who has no links. -/
theorem acceptLocalInvitation_change (s : Accounts L) (a : Acceptance) (now : Time) (rec : Bool) :
    Change s (s.acceptLocalInvitation a now rec).2 := by
  unfold acceptLocalInvitation
  rcases transact_cases s _ with ⟨e, -, he⟩ | ⟨_, s', hb, he⟩
  · rw [he]
    exact .none rfl rfl
  rw [he]
  obtain ⟨-, -, hb⟩ := bind_eq_ok.mp hb
  obtain ⟨s1, hus, hb⟩ := bind_eq_ok.mp hb
  obtain ⟨s2, ht, hb⟩ := bind_eq_ok.mp hb
  obtain ⟨s3, hc, hb⟩ := bind_eq_ok.mp hb
  obtain ⟨-, -, hen⟩ := bind_eq_ok.mp hb
  cases hen
  obtain ⟨hf, hu, hl, -⟩ := insertUser_ok hus
  obtain ⟨hu2, hl2⟩ := insertTotp_ok ht
  obtain ⟨hu3, hl3⟩ := insertRecoveryCodes_ok hc
  refine .joined (a.user L now) hf ?_ (links_of_identities ?_)
  · rw [hu3, hu2, hu]
    rfl
  · rw [hl3, hl2, hl]
    rfl

theorem updateLinkedOIDCUser_change {prov : OIDCProvider} {cls : OIDCClaims} {user : UserRow}
    (hl : user.id ∈ s.links) (h : s.updateLinkedOIDCUser prov cls user role now = .ok (u, s')) :
    Change s s' ∧ s'.invitations = s.invitations ∧ s'.users.map (·.id) = s.users.map (·.id) := by
  obtain ⟨-, -, h⟩ := bind_eq_ok.mp h
  obtain ⟨⟨u1, s1⟩, hr, he⟩ := bind_eq_ok.mp h
  cases he
  unfold syncRole at hr
  split at hr
  · cases hs : s.setRole user.id role now with
    | error e =>
      rw [hs] at hr
      cases hr
    | ok s2 =>
      rw [hs] at hr
      cases hr
      obtain ⟨hu, hid, hi, hi1⟩ := setRole_ok hs
      refine ⟨.role user.id role (L.dialect.bind now) hl hu ?_, hi, hi1⟩
      rw [links_noteLogin]
      exact links_of_identities hid
  · cases hr
    exact ⟨.none rfl (links_noteLogin s _ _ _ _ _), rfl, rfl⟩

theorem provisionOIDCUser_ok {prov : OIDCProvider} {cls : OIDCClaims}
    (h : s.provisionOIDCUser prov cls role now = .ok (u, s')) :
    ∃ gr, (∀ x ∈ s.users, x.id ≠ cls.userID) ∧ s'.users = s.users ++ [ssoUser L cls gr now] ∧
      s'.links = s.links ++ [cls.userID] := by
  obtain ⟨⟨role1, s1⟩, hi, h⟩ := bind_eq_ok.mp h
  obtain ⟨-, -, h⟩ := bind_eq_ok.mp h
  obtain ⟨s2, hus, h⟩ := bind_eq_ok.mp h
  obtain ⟨s3, hl, he⟩ := bind_eq_ok.mp h
  cases he
  obtain ⟨hf, hu, hid, -⟩ := insertUser_ok hus
  obtain ⟨hi', hu', -⟩ := insertExternalIdentity_ok hl
  have hs : s1.users = s.users ∧ s1.externalIdentities = s.externalIdentities := by
    unfold grantedRole at hi
    split at hi
    · obtain ⟨i, -, hp⟩ := bind_eq_ok.mp hi
      cases hp
      exact ⟨rfl, rfl⟩
    · cases hi
      exact ⟨rfl, rfl⟩
  rw [hs.1] at hf hu
  refine ⟨role1, hf, hu'.trans hu, ?_⟩
  unfold links
  rw [hi', hid, hs.2, map_append]
  rfl

/-- **Result.** Resolving an external identity fails, changes the role of a
linked user, or adds a linked user without a password. -/
theorem resolveOIDCUser_change (s : Accounts L) (prov : OIDCProvider) (cls : OIDCClaims) (role : UserRole)
    (now : Time) (rec : Bool) : Change s (s.resolveOIDCUser prov cls role now rec).2 := by
  unfold resolveOIDCUser
  rcases transact_cases s _ with ⟨e, -, he⟩ | ⟨u, s', hb, he⟩
  · rw [he]
    exact .none rfl rfl
  rw [he]
  obtain ⟨⟨u1, s1⟩, hr, hb⟩ := bind_eq_ok.mp hb
  obtain ⟨-, -, hen⟩ := bind_eq_ok.mp hb
  cases hen
  unfold identifyOIDCUser at hr
  split at hr
  · rename_i user hl
    exact (updateLinkedOIDCUser_change (linkedOIDCUser_some hl).2 hr).1
  · obtain ⟨gr, hf, hu, hli⟩ := provisionOIDCUser_ok hr
    exact .provisioned (ssoUser L cls gr now) hf rfl hu hli

end

end Accounts

end Mossward.L2.Identity
