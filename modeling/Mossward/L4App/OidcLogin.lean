import Mossward.L2Store.Identity

/-!
# Logins through an identity provider

The end of a login through an OpenID Connect provider, `internal/auth/oidc.go`:
the claims of the verified ID token are checked against the provider's settings,
the external identity is resolved to a user, and a session is created. What the
ceremony and the exchange of the code return are inputs.

The token says whether its email address is verified. The claim is decoded and
never read. So a provider that lets its users choose an address can open the
invitation of somebody else, and pass a restriction to email domains.

Results: `finish_cases`, `email_access_verified_iff`.
-/
namespace Mossward.L4.OidcLogin

open Table L1.Names L1.Rfc3339 L2.Identity L2.Schema List

variable {L : L2.Identity.Locale}

/-! ## Claims -/

structure CeremonyState where
  providerID : String
  nonce : String

/-- The claims of the ID token. -/
structure RawClaims where
  subject : String
  email : String
  name : String
  tenantID : String
  nonce : String
  emailVerified : Bool
  groups : List String

def RawClaims.claims (raw : RawClaims) (userID : String) : OIDCClaims where
  userID := userID
  subject := raw.subject
  email := raw.email
  name := raw.name
  tenantID := raw.tenantID
  groups := raw.groups

/-- Mirrors `internal/auth/oidc.go:192-203`. -/
def emailDomainAllowed (L : L2.Identity.Locale) (email : String) (domains : List String) : Bool :=
  match (toLower L.lower email.toList).splitOn '@' with
  | [_, domain] => domains.any fun d => domain = toLower L.lower d.toList
  | _ => false

/-- Mirrors `internal/auth/oidc.go:205-214`. -/
def hasAnyGroup (actual allowed : List String) : Bool := actual.any fun candidate => allowed.any (candidate = ·)

/-- Mirrors `internal/auth/oidc.go:216-225`. -/
def roleRank : UserRole → Nat
  | .administrator => 3
  | .analyst => 2
  | _ => 1

/-- Mirrors `internal/auth/oidc.go:173-190`. -/
def authorizeOIDCClaims (L : L2.Identity.Locale) (provider : OIDCProvider) (claims : OIDCClaims) :
    Except String UserRole := do
  require (provider.allowedTenantID = "" || claims.tenantID = provider.allowedTenantID) "tenant not allowed"
  require (provider.allowedEmailDomains = [] || emailDomainAllowed L claims.email provider.allowedEmailDomains)
    "email domain not allowed"
  require (provider.allowedGroups = [] || hasAnyGroup claims.groups provider.allowedGroups) "group not allowed"
  .ok (claims.groups.foldl
    (fun role group =>
      match provider.roleMappings.lookup group with
      | some mapped => if roleRank role < roleRank mapped then mapped else role
      | none => role)
    provider.defaultRole)

/-! ## The login -/

inductive AuthError
  | invalidCredentials
  | other (text : String)
  | store (e : IdentityError)
deriving DecidableEq

/-- What a login meets besides the store. -/
structure Login where
  /-- what `consumeOIDCCeremony` returns -/
  ceremony : Except AuthError CeremonyState
  /-- the claims of the ID token, if the provider was found, the code exchanged
  and the token verified -/
  token : Except AuthError RawClaims
  /-- the random id for a new user -/
  userID : String
  /-- the hash of the random session token -/
  sessionHash : List UInt8
  now : Time
  recorded : Bool
  sessionRecorded : Bool

/-- The provider of the ceremony, if it is enabled. -/
def chosen (s : Accounts L) (state : CeremonyState) : Option OIDCProvider :=
  (s.providers.find? fun p => p.id = state.providerID).filter (·.enabled)

/-- From the resolved user to the session. -/
def openSession (login : Login) : Except IdentityError UserRow × Accounts L → Except AuthError UserRow × Accounts L
  | (.error _, s) => (.error .invalidCredentials, s)
  | (.ok user, s) =>
    match s.createSession ⟨login.sessionHash, user.id⟩ login.now login.sessionRecorded with
    | (.error e, s) => (.error (.store e), s)
    | (.ok (), s) => (.ok user, s)

/-- From the verified token on. -/
def admitClaims (s : Accounts L) (login : Login) (state : CeremonyState) (provider : OIDCProvider) (raw : RawClaims) :
    Except AuthError UserRow × Accounts L :=
  if raw.nonce ≠ state.nonce || raw.subject = "" || raw.email = "" then (.error .invalidCredentials, s)
  else
    match authorizeOIDCClaims L provider (raw.claims login.userID) with
    | .error _ => (.error .invalidCredentials, s)
    | .ok role =>
      openSession login (s.resolveOIDCUser provider (raw.claims login.userID) role login.now login.recorded)

/-- Mirrors `internal/auth/oidc.go:88-150`. -/
def finishOIDCLogin (s : Accounts L) (login : Login) : Except AuthError UserRow × Accounts L :=
  match login.ceremony with
  | .error e => (.error e, s)
  | .ok state =>
    match chosen s state with
    | none => (.error .invalidCredentials, s)
    | some provider =>
      match login.token with
      | .error e => (.error e, s)
      | .ok raw => admitClaims s login state provider raw

/-! ## What a login does to invitations and users -/

section
variable {s s' : Accounts L} {provider : OIDCProvider} {claims : OIDCClaims} {role : UserRole} {now : Time}

/-- The same invitations and the same users. -/
def SameRows (s s' : Accounts L) : Prop :=
  s'.invitations = s.invitations ∧ s'.users.map (·.id) = s.users.map (·.id)

theorem SameRows.refl (s : Accounts L) : SameRows s s := ⟨rfl, rfl⟩

theorem createSession_same (s : Accounts L) (x : SessionRow) (now : Time) (rec : Bool) :
    SameRows s (s.createSession x now rec).2 := by
  unfold Accounts.createSession
  rcases Accounts.transact_cases s _ with ⟨e, -, he⟩ | ⟨_, s', hb, he⟩
  · rw [he]
    exact .refl s
  rw [he]
  obtain ⟨s1, hin, hb⟩ := bind_eq_ok.mp hb
  obtain ⟨-, -, hen⟩ := bind_eq_ok.mp hb
  cases hen
  obtain ⟨hu, hi⟩ := Accounts.insertSession_ok hin
  refine ⟨hi, ?_⟩
  rw [← hu]
  exact Accounts.ids_noteUserLogin s1 x.userID now

/-- Opening the session changes neither. -/
theorem openSession_same (lg : Login) (r : Except IdentityError UserRow × Accounts L) :
    SameRows r.2 (openSession lg r).2 := by
  obtain ⟨res, s⟩ := r
  cases res with
  | error e => exact .refl s
  | ok user =>
    have hs := createSession_same s ⟨lg.sessionHash, user.id⟩ lg.now lg.sessionRecorded
    unfold openSession
    dsimp only
    split
    · rename_i he
      rw [he] at hs
      exact hs
    · rename_i he
      rw [he] at hs
      exact hs

theorem resolve_linked (hl : (s.linkedOIDCUser provider.id claims.subject).isSome) (rec : Bool) :
    SameRows s (s.resolveOIDCUser provider claims role now rec).2 := by
  unfold Accounts.resolveOIDCUser
  rcases Accounts.transact_cases s _ with ⟨e, -, he⟩ | ⟨u, s', hb, he⟩
  · rw [he]
    exact .refl s
  rw [he]
  obtain ⟨⟨u1, s1⟩, hr, hb⟩ := bind_eq_ok.mp hb
  obtain ⟨-, -, hen⟩ := bind_eq_ok.mp hb
  cases hen
  obtain ⟨user, hu⟩ := Option.isSome_iff_exists.mp hl
  unfold Accounts.identifyOIDCUser at hr
  rw [hu] at hr
  obtain ⟨-, hi, hid⟩ := Accounts.updateLinkedOIDCUser_change (Accounts.linkedOIDCUser_some hu).2 hr
  exact ⟨hi, hid⟩

theorem provision_invitations {u : UserRow} (hm : provider.provisioningMode ≠ .inviteOnly)
    (h : s.provisionOIDCUser provider claims role now = .ok (u, s')) : s'.invitations = s.invitations := by
  obtain ⟨⟨role1, s1⟩, hr, h⟩ := bind_eq_ok.mp h
  obtain ⟨-, -, h⟩ := bind_eq_ok.mp h
  obtain ⟨s2, hu, h⟩ := bind_eq_ok.mp h
  obtain ⟨s3, hl, he⟩ := bind_eq_ok.mp h
  cases he
  unfold Accounts.grantedRole at hr
  rw [if_neg hm] at hr
  cases hr
  rw [(Accounts.insertExternalIdentity_ok hl).2.2, (Accounts.insertUser_ok hu).2.2.2]

theorem resolve_uninvited (hm : provider.provisioningMode ≠ .inviteOnly) (rec : Bool) :
    (s.resolveOIDCUser provider claims role now rec).2.invitations = s.invitations := by
  cases hl : s.linkedOIDCUser provider.id claims.subject with
  | some user => exact (resolve_linked (by rw [hl]; rfl) rec).1
  | none =>
    unfold Accounts.resolveOIDCUser
    rcases Accounts.transact_cases s _ with ⟨e, -, he⟩ | ⟨u, s', hb, he⟩
    · rw [he]
    rw [he]
    obtain ⟨⟨u1, s1⟩, hr, hb⟩ := bind_eq_ok.mp hb
    obtain ⟨-, -, hen⟩ := bind_eq_ok.mp hb
    cases hen
    unfold Accounts.identifyOIDCUser at hr
    rw [hl] at hr
    exact provision_invitations hm hr

end

section
variable {s : Accounts L} {login : Login}

/-- The token is let in for the provider, and its user is found or created. -/
structure Resolved (s : Accounts L) (login : Login) (provider : OIDCProvider) (raw : RawClaims) (role : UserRole) :
    Prop where
  chosen : ∃ state, login.ceremony = .ok state ∧ chosen s state = some provider ∧ raw.nonce = state.nonce
  token : login.token = .ok raw
  named : raw.subject ≠ "" ∧ raw.email ≠ ""
  authorized : authorizeOIDCClaims L provider (raw.claims login.userID) = .ok role
  resolves : ∃ user, (s.resolveOIDCUser provider (raw.claims login.userID) role login.now login.recorded).1 = .ok user

theorem finish_of_resolved {prov : OIDCProvider} {raw : RawClaims} {role : UserRole}
    (h : Resolved s login prov raw role) : finishOIDCLogin s login = openSession login
      (s.resolveOIDCUser prov (raw.claims login.userID) role login.now login.recorded) := by
  obtain ⟨state, hc, hch, hnonce⟩ := h.chosen
  have hin : ¬ (raw.nonce ≠ state.nonce || raw.subject = "" || raw.email = "") = true := by
    simp [hnonce, h.named.1, h.named.2]
  simp only [finishOIDCLogin, hc, hch, h.token, admitClaims]
  rw [if_neg hin, h.authorized]

theorem resolve_failed {prov : OIDCProvider} {cls : OIDCClaims} {role : UserRole} {now : Time} {rec : Bool}
    {e : IdentityError} (h : (s.resolveOIDCUser prov cls role now rec).1 = .error e) :
    (s.resolveOIDCUser prov cls role now rec).2 = s := by
  unfold Accounts.resolveOIDCUser at h ⊢
  rcases Accounts.transact_cases s _ with ⟨e, -, he⟩ | ⟨u, s', -, he⟩
  · rw [he]
  · rw [he] at h
    cases h

/-- **Result.** A login leaves the store alone and fails, or resolves the user
of the token for the chosen provider. -/
theorem finish_cases (s : Accounts L) (lg : Login) :
    ((∃ e, (finishOIDCLogin s lg).1 = .error e) ∧ (finishOIDCLogin s lg).2 = s) ∨
    ∃ prov raw role, Resolved s lg prov raw role := by
  unfold finishOIDCLogin
  cases hce : lg.ceremony with
  | error e => exact .inl ⟨⟨e, rfl⟩, rfl⟩
  | ok state =>
    dsimp only
    cases hc : chosen s state with
    | none => exact .inl ⟨⟨_, rfl⟩, rfl⟩
    | some prov =>
      cases ht : lg.token with
      | error e => exact .inl ⟨⟨e, rfl⟩, rfl⟩
      | ok raw =>
        dsimp only
        unfold admitClaims
        split
        · exact .inl ⟨⟨_, rfl⟩, rfl⟩
        rename_i hin
        simp only [Bool.or_eq_true, decide_eq_true_eq, not_or, not_not] at hin
        cases ha : authorizeOIDCClaims L prov (raw.claims lg.userID) with
        | error e => exact .inl ⟨⟨_, rfl⟩, rfl⟩
        | ok role =>
          dsimp only
          cases hr : (s.resolveOIDCUser prov (raw.claims lg.userID) role lg.now lg.recorded).1 with
          | error e =>
            have hs := resolve_failed hr
            left
            rw [← Prod.eta (s.resolveOIDCUser prov (raw.claims lg.userID) role lg.now lg.recorded), hr, hs]
            exact ⟨⟨_, rfl⟩, rfl⟩
          | ok user => exact .inr ⟨prov, raw, role, ⟨state, hce, hc, hin.1.1⟩, ht, ⟨hin.1.2, hin.2⟩, ha, user, hr⟩

/-- The provider the login is for. -/
def Login.for (login : Login) (s : Accounts L) (provider : OIDCProvider) : Prop :=
  ∃ state, login.ceremony = .ok state ∧ chosen s state = some provider

/-- The login accepts an invitation, creates a user for one, or succeeds where
the provider restricts email domains. -/
def EmailBased (s : Accounts L) (login : Login) : Prop :=
  (∃ i ∈ s.invitations, i.acceptedAt = none ∧
    ∃ i' ∈ (finishOIDCLogin s login).2.invitations, i'.id = i.id ∧ i'.acceptedAt ≠ none) ∨
  (∃ provider, login.for s provider ∧ provider.provisioningMode = .inviteOnly ∧
    ∃ u ∈ (finishOIDCLogin s login).2.users, u.id ∉ s.users.map (·.id)) ∨
  ∃ provider u, login.for s provider ∧ provider.allowedEmailDomains ≠ [] ∧ (finishOIDCLogin s login).1 = .ok u

def EmailVerified (login : Login) : Prop := ∃ raw, login.token = .ok raw ∧ raw.emailVerified = true

/-- The provider needs no invitation for this login: the user is known, or new
users are let in. -/
def Uninvited (s : Accounts L) (login : Login) (provider : OIDCProvider) : Prop :=
  provider.provisioningMode ≠ .inviteOnly ∨
    ∀ raw, login.token = .ok raw → (s.linkedOIDCUser provider.id raw.subject).isSome

/-- A provider that does not decide by email for this login. -/
def Unrestricted (s : Accounts L) (login : Login) (provider : OIDCProvider) : Prop :=
  provider.allowedEmailDomains = [] ∧ Uninvited s login provider

theorem Resolved.for {prov : OIDCProvider} {raw : RawClaims} {role : UserRole} (h : Resolved s login prov raw role) :
    login.for s prov := by
  obtain ⟨state, hc, hch, -⟩ := h.chosen
  exact ⟨state, hc, hch⟩

theorem Login.for_unique {p p' : OIDCProvider} (h : login.for s p) (h' : login.for s p') : p = p' := by
  obtain ⟨state, hc, hch⟩ := h
  obtain ⟨state', hc', hch'⟩ := h'
  cases hc.symm.trans hc'
  exact Option.some.inj (hch.symm.trans hch')

/-- No login is based on the email if its provider needs no invitation, and it
fails or there are no domains. -/
theorem not_emailBased (h : ∀ prov raw role, Resolved s login prov raw role → Uninvited s login prov)
    (hdomains : ∀ prov u, login.for s prov → (finishOIDCLogin s login).1 = .ok u → prov.allowedEmailDomains = []) :
    ¬ EmailBased s login := by
  have hthird : ¬ ∃ prov u, login.for s prov ∧ prov.allowedEmailDomains ≠ [] ∧
      (finishOIDCLogin s login).1 = .ok u := by
    rintro ⟨prov, u, hf, hn, hok⟩
    exact hn (hdomains prov u hf hok)
  rcases finish_cases s login with ⟨-, hst⟩ | ⟨prov, raw, role, hres⟩
  · rintro (⟨i, hi, ho, i', hi', hid, ha⟩ | ⟨p, -, -, u, hu, hn⟩ | hd)
    · rw [hst] at hi'
      rw [s.invitationID.eq_of_key hi' hi hid] at ha
      exact ha ho
    · rw [hst] at hu
      exact hn (mem_map_of_mem hu)
    · exact hthird hd
  have hm := h prov raw role hres
  have hs := openSession_same login
    (s.resolveOIDCUser prov (raw.claims login.userID) role login.now login.recorded)
  rw [← finish_of_resolved hres] at hs
  have hin : (finishOIDCLogin s login).2.invitations = s.invitations := by
    rw [hs.1]
    rcases hm with hm | hl
    · exact resolve_uninvited hm login.recorded
    · exact (resolve_linked (hl raw hres.token) login.recorded).1
  rintro (⟨i, hi, ho, i', hi', hid, ha⟩ | ⟨p, hp, hinv, u, hu, hn⟩ | hd)
  · rw [hin] at hi'
    rw [s.invitationID.eq_of_key hi' hi hid] at ha
    exact ha ho
  · cases Login.for_unique hp hres.for
    rcases hm with hm | hl
    · exact hm hinv
    have hi1 : (s.resolveOIDCUser prov (raw.claims login.userID) role login.now login.recorded).2.users.map (·.id) =
        s.users.map (·.id) := (resolve_linked (hl raw hres.token) login.recorded).2
    apply hn
    rw [← hi1, ← hs.2]
    exact mem_map_of_mem hu
  · exact hthird hd

theorem resolve_new {prov : OIDCProvider} {cls : OIDCClaims} {role : UserRole} {now : Time} {rec : Bool}
    {u : UserRow} (hl : s.linkedOIDCUser prov.id cls.subject = none)
    (ho : (s.resolveOIDCUser prov cls role now rec).1 = .ok u) :
    cls.userID ∈ (s.resolveOIDCUser prov cls role now rec).2.users.map (·.id) ∧
    cls.userID ∉ s.users.map (·.id) := by
  unfold Accounts.resolveOIDCUser at ho ⊢
  rcases Accounts.transact_cases s _ with ⟨e, -, he⟩ | ⟨u', s', hb, he⟩
  · rw [he] at ho
    cases ho
  rw [he]
  obtain ⟨⟨u1, s1⟩, hr, hb⟩ := bind_eq_ok.mp hb
  obtain ⟨-, -, hen⟩ := bind_eq_ok.mp hb
  cases hen
  unfold Accounts.identifyOIDCUser at hr
  rw [hl] at hr
  obtain ⟨gr, hf, hu, -⟩ := Accounts.provisionOIDCUser_ok hr
  constructor
  · rw [hu, map_append]
    exact mem_append_right _ (mem_singleton_self _)
  · intro hm
    obtain ⟨x, hx, hi⟩ := mem_map.mp hm
    exact hf x hx hi

/-- A resolved login that needs an invitation creates the user for one. -/
theorem emailBased_of_invited {prov : OIDCProvider} {raw : RawClaims} {role : UserRole}
    (hres : Resolved s login prov raw role) (hinv : ¬ Uninvited s login prov) : EmailBased s login := by
  have hi : prov.provisioningMode = .inviteOnly := by
    by_contra hm
    exact hinv (.inl hm)
  have hl : s.linkedOIDCUser prov.id raw.subject = none := by
    by_contra hsome
    refine hinv (.inr fun raw' ht' => ?_)
    cases hres.token.symm.trans ht'
    exact Option.isSome_iff_ne_none.mpr hsome
  have hs := openSession_same login
    (s.resolveOIDCUser prov (raw.claims login.userID) role login.now login.recorded)
  obtain ⟨user, hre⟩ := hres.resolves
  obtain ⟨hn, hfr⟩ := resolve_new hl hre
  rw [← hs.2, ← finish_of_resolved hres] at hn
  obtain ⟨x, hx, hid⟩ := mem_map.mp hn
  refine .inr (.inl ⟨prov, hres.for, hi, x, hx, ?_⟩)
  rw [hid]
  exact hfr

/-- A login that succeeds is based on the email exactly if its provider decides
by email. -/
theorem emailBased_success {u : UserRow} (ho : (finishOIDCLogin s login).1 = .ok u) :
    EmailBased s login ↔ ∃ prov, login.for s prov ∧ ¬ Unrestricted s login prov := by
  constructor
  · intro hb
    by_contra hn
    simp only [not_exists, not_and, not_not] at hn
    exact not_emailBased (fun prov raw role hres => (hn prov hres.for).2) (fun prov _ hf _ => (hn prov hf).1) hb
  · rintro ⟨prov, hf, hr⟩
    by_cases hd : prov.allowedEmailDomains = []
    · rcases finish_cases s login with ⟨⟨e, he⟩, -⟩ | ⟨p, raw, role, hres⟩
      · rw [he] at ho
        cases ho
      cases Login.for_unique hres.for hf
      exact emailBased_of_invited hres fun hinv => hr ⟨hd, hinv⟩
    · exact .inr (.inr ⟨prov, u, hf, hd, ho⟩)

/-- A login that fails is based on the email exactly if its user was created for
an invitation before it failed. -/
theorem emailBased_failure (hfail : ∀ u, (finishOIDCLogin s login).1 ≠ .ok u) :
    EmailBased s login ↔ ∃ prov raw role, Resolved s login prov raw role ∧ ¬ Uninvited s login prov := by
  constructor
  · intro hb
    by_contra hn
    simp only [not_exists, not_and, not_not] at hn
    exact not_emailBased (fun prov raw role hres => hn prov raw role hres) (fun _ u _ ho => absurd ho (hfail u)) hb
  · rintro ⟨prov, raw, role, hres, hinv⟩
    exact emailBased_of_invited hres hinv

/-- The login with the other answer about the email. -/
def Login.withEmailVerified (login : Login) (verified : Bool) : Login :=
  { login with token := login.token.map fun raw => { raw with emailVerified := verified } }

theorem finish_withEmailVerified (s : Accounts L) (lg : Login) (verified : Bool) :
    finishOIDCLogin s (lg.withEmailVerified verified) = finishOIDCLogin s lg := by
  unfold finishOIDCLogin Login.withEmailVerified
  cases hc : lg.ceremony with
  | error e => rfl
  | ok state =>
    dsimp only
    cases hch : chosen s state with
    | none => rfl
    | some prov =>
      cases ht : lg.token with
      | error e => rfl
      | ok raw => rfl

end

/-- **Access by email.** A login that succeeds has a verified email if it is based
on the email, exactly when the email is verified or the provider does not decide
by email. One that fails does exactly when the email is verified, or no user was
created for an invitation before it failed. The answer of the provider about the
email does not change what the login does. -/
theorem email_access_verified_iff (s : Accounts L) (login : Login) :
    (∀ u, (finishOIDCLogin s login).1 = .ok u →
      ((EmailBased s login → EmailVerified login) ↔
        EmailVerified login ∨ ∀ provider, login.for s provider → Unrestricted s login provider)) ∧
    ((∀ u, (finishOIDCLogin s login).1 ≠ .ok u) →
      ((EmailBased s login → EmailVerified login) ↔
        EmailVerified login ∨ ∀ provider raw role, Resolved s login provider raw role → Uninvited s login provider)) ∧
    ∀ verified, finishOIDCLogin s (login.withEmailVerified verified) = finishOIDCLogin s login := by
  refine ⟨fun u ho => ?_, fun hfail => ?_, fun verified => finish_withEmailVerified s login verified⟩
  · rw [emailBased_success ho]
    simp only [forall_exists_index, and_imp]
    by_cases hv : EmailVerified login <;> simp [hv]
  · rw [emailBased_failure hfail]
    simp only [forall_exists_index, and_imp]
    by_cases hv : EmailVerified login <;> simp [hv]

/-! A server with an invitation for an administrator. -/

def directory (mode : ProvisioningMode) (domains : List String) : OIDCProvider :=
  ⟨"directory", mode, "", domains, [], [], .viewer, true⟩

def invited (mode : ProvisioningMode) (domains : List String) : Accounts (sqliteLocale id) :=
  .ofTables [] [⟨"invitation", "admin@example.com", .administrator, [0], .sso, Small.clock 60, none⟩]
    [directory mode domains] [] (by simp)

def stranger (emailVerified : Bool) : Login where
  ceremony := .ok ⟨"directory", "nonce"⟩
  token := .ok ⟨"subject", "Admin@example.com", "Stranger", "", "nonce", emailVerified, []⟩
  userID := "user"
  sessionHash := [1]
  now := Small.clock 0
  recorded := true
  sessionRecorded := true

/-- An address that is not verified opens the invitation of an administrator,
and passes the restriction to its domain. -/
theorem email_access_unverified :
    ¬ EmailVerified (stranger false) ∧ EmailBased (invited .inviteOnly []) (stranger false) ∧
    (finishOIDCLogin (invited .inviteOnly []) (stranger false)).1.toOption.map (·.role) = some .administrator ∧
    EmailBased (invited .jit ["example.com"]) (stranger false) := by
  refine ⟨?_, ?_, by decide +kernel, ?_⟩
  · intro h
    obtain ⟨raw, ht, hv⟩ := h
    cases ht
    cases hv
  · left
    decide +kernel
  · right
    right
    exact ⟨directory .jit ["example.com"], _, ⟨_, rfl, by decide +kernel⟩, by decide, rfl⟩

end Mossward.L4.OidcLogin
