import Mossward.Core.Run
import Mossward.L2Store.Identity

/-!
# The last local administrator

Someone can always log in without an identity provider and administer the
server: an active administrator with a password. Three transactions change
roles and statuses. `UpdateUserAccess` counts local administrators before it
takes one away; `AcceptLocalInvitation` only adds users; `ResolveOIDCUser`
follows the provider's claims without counting, which is safe as long as users
with an external identity have no password.

Results:
* `guarded_change`, `guarded_run`: every transaction keeps both.
* `local_administrator_kept`.
-/
namespace Mossward.L3.LocalAdministrator

open Table Run L1.Rfc3339 L2.Identity List

variable {L : L2.Identity.Locale}

structure Guarded (s : Accounts L) : Prop where
  administrator : ∃ u ∈ s.users, u.isLocalAdministrator
  passwordless : ∀ u ∈ s.users, u.id ∈ s.links → u.passwordHash = ""

theorem isLocalAdministrator_iff {u : UserRow} :
    u.isLocalAdministrator ↔ u.role = .administrator ∧ u.status = .active ∧ u.passwordHash ≠ "" := by
  simp [UserRow.isLocalAdministrator, and_assoc]

theorem exists_other_key {key : UserRow → String} {users : List UserRow} {p : UserRow → Bool} (hke : Keyed key users)
    (hc : 1 < users.countP p) (k : String) : ∃ u ∈ users, p u ∧ key u ≠ k := by
  by_contra hn
  have hk : ∀ u ∈ users, p u → key u = k := by
    intro u hu hp
    by_contra hne
    exact hn ⟨u, hu, hp, hne⟩
  have hpo : 0 < users.countP p := by omega
  obtain ⟨u, hu, hp⟩ := countP_pos_iff.mp hpo
  have ho : users.countP p = 1 := by
    apply hke.countP_eq_one hu hp
    intro x hx hpx
    rw [hk x hx hpx, hk u hu hp]
  omega

/-! ## One transaction -/

section
variable {s s' : Accounts L} {p : UserRow → Bool} {f : UserRow → UserRow}

theorem mem_of_untouched {u : UserRow} (hus : s'.users = updateWhere p f s.users) (hu : u ∈ s.users)
    (hp : p u = false) : u ∈ s'.users := by
  rw [hus]
  exact mem_updateWhere.mpr ⟨u, hu, by simp [hp]⟩

theorem passwordless_of_update (h : Guarded s) (hus : s'.users = updateWhere p f s.users)
    (hli : s'.links = s.links) (hi : ∀ u, (f u).id = u.id) (hh : ∀ u, (f u).passwordHash = u.passwordHash) :
    ∀ u ∈ s'.users, u.id ∈ s'.links → u.passwordHash = "" := by
  intro u' hu' hl
  rw [hus] at hu'
  obtain ⟨u, hu, rfl⟩ := mem_updateWhere.mp hu'
  rw [hli] at hl
  by_cases hp : p u = true
  · rw [if_pos hp] at hl ⊢
    rw [hi] at hl
    rw [hh]
    exact h.passwordless u hu hl
  · rw [if_neg hp] at hl ⊢
    exact h.passwordless u hu hl

theorem guarded_access (h : Guarded s) {u : UserRow} {role : UserRole} {status : UserStatus} {updatedAt : Time}
    (hm : u ∈ s.users)
    (hg : Accounts.removesLocalAdmin u role status → 1 < s.users.countP UserRow.isLocalAdministrator)
    (hu : s'.users = updateWhere (fun x => x.id = u.id)
      (fun x => { x with role := role, status := status, updatedAt := updatedAt }) s.users)
    (hl : s'.links = s.links) : Guarded s' := by
  refine ⟨?_, passwordless_of_update h hu hl (fun _ => rfl) fun _ => rfl⟩
  by_cases hr : Accounts.removesLocalAdmin u role status = true
  · -- another one is left
    obtain ⟨a, ha, had, ho⟩ := exists_other_key s.userID (hg hr) u.id
    exact ⟨a, mem_of_untouched hu ha (by simpa using ho), had⟩
  obtain ⟨a, ha, had⟩ := h.administrator
  by_cases hs : a.id = u.id
  · obtain rfl := s.userID.eq_of_key ha hm hs
    have hk : role = .administrator ∧ status = .active := by
      simpa [Accounts.removesLocalAdmin, had] using hr
    refine ⟨{ a with role := role, status := status, updatedAt := updatedAt }, ?_, ?_⟩
    · rw [hu]
      exact mem_updateWhere.mpr ⟨a, ha, by simp⟩
    · rw [isLocalAdministrator_iff] at had ⊢
      exact ⟨hk.1, hk.2, had.2.2⟩
  · exact ⟨a, mem_of_untouched hu ha (by simpa using hs), had⟩

/-- A linked user has no password and so is not the local administrator. -/
theorem guarded_role (h : Guarded s) {id : String} {role : UserRole} {updatedAt : Time} (hl : id ∈ s.links)
    (hu : s'.users = updateWhere (fun x => x.id = id) (fun x => { x with role := role, updatedAt := updatedAt })
      s.users) (hli : s'.links = s.links) : Guarded s' := by
  refine ⟨?_, passwordless_of_update h hu hli (fun _ => rfl) fun _ => rfl⟩
  obtain ⟨a, ha, had⟩ := h.administrator
  have ho : a.id ≠ id := by
    intro hi
    exact (isLocalAdministrator_iff.mp had).2.2 (h.passwordless a ha (hi ▸ hl))
  exact ⟨a, mem_of_untouched hu ha (by simpa using ho), had⟩

/-- A new user is not linked before, so it may have a password; a new user that
is linked has none. -/
theorem guarded_insert (h : Guarded s) {u : UserRow} (hf : ∀ x ∈ s.users, x.id ≠ u.id)
    (hu : s'.users = s.users ++ [u])
    (hli : s'.links = s.links ∨ s'.links = s.links ++ [u.id] ∧ u.passwordHash = "") : Guarded s' := by
  constructor
  · obtain ⟨a, ha, had⟩ := h.administrator
    refine ⟨a, ?_, had⟩
    rw [hu]
    exact mem_append_left _ ha
  · intro x hx hl
    have hun : u.id ∉ s.links := by
      intro hlin
      obtain ⟨e, he, hi⟩ := mem_map.mp hlin
      obtain ⟨y, hy, hyi⟩ := mem_map.mp (s.identityUser e he)
      exact hf y hy (hyi.trans hi)
    rw [hu] at hx
    rcases mem_append.mp hx with hx | hx
    · apply h.passwordless x hx
      rcases hli with hs | ⟨hadd, -⟩
      · rwa [hs] at hl
      rw [hadd] at hl
      rcases mem_append.mp hl with ho | hn
      · exact ho
      · exact absurd (mem_singleton.mp hn) (hf x hx)
    · rw [mem_singleton.mp hx] at hl ⊢
      rcases hli with hs | ⟨-, hh⟩
      · rw [hs] at hl
        exact absurd hl hun
      · exact hh

/-- **Result.** Every change that a transaction makes keeps a local
administrator and keeps linked users without a password. -/
theorem guarded_change (h : Guarded s) (hc : Accounts.Change s s') : Guarded s' := by
  cases hc with
  | none hu hl =>
    refine ⟨?_, ?_⟩
    · rw [hu]
      exact h.administrator
    · rw [hu, hl]
      exact h.passwordless
  | access u role st updatedAt hm hg hu hl => exact guarded_access h hm hg hu hl
  | role id role updatedAt hli hu hl => exact guarded_role h hli hu hl
  | joined u hf hu hl => exact guarded_insert h hf hu (.inl hl)
  | provisioned u hf hh hu hl => exact guarded_insert h hf hu (.inr ⟨hl, hh⟩)

end

/-! ## Sequences of transactions -/

inductive Op
  | updateUserAccess (userID : String) (role : UserRole) (status : UserStatus) (now : Time) (recorded : Bool)
  | acceptLocalInvitation (a : Accounts.Acceptance) (now : Time) (recorded : Bool)
  | resolveOIDCUser (provider : OIDCProvider) (claims : OIDCClaims) (role : UserRole) (now : Time) (recorded : Bool)

/-- What the call leaves behind, whether it succeeds or fails. -/
def step (s : Accounts L) : Op → Accounts L
  | .updateUserAccess userID role status now recorded => (s.updateUserAccess userID role status now recorded).2
  | .acceptLocalInvitation a now recorded => (s.acceptLocalInvitation a now recorded).2
  | .resolveOIDCUser provider claims role now recorded => (s.resolveOIDCUser provider claims role now recorded).2

theorem step_change (s : Accounts L) (op : Op) : Accounts.Change s (step s op) := by
  cases op with
  | updateUserAccess uid role st now rec =>
    exact Accounts.updateUserAccess_change s uid role st now rec
  | acceptLocalInvitation a now rec => exact Accounts.acceptLocalInvitation_change s a now rec
  | resolveOIDCUser prov cls role now rec =>
    exact Accounts.resolveOIDCUser_change s prov cls role now rec

/-- **Result.** The last local administrator cannot be lost: from every state
with an active administrator who has a password, and in which linked users have
none, every sequence of transactions leads to such a state. -/
theorem local_administrator_kept (s : Accounts L)
    (hadministrator : ∃ u ∈ s.users, u.role = .administrator ∧ u.status = .active ∧ u.passwordHash ≠ "")
    (hpasswordless : ∀ e ∈ s.externalIdentities, ∀ u ∈ s.users, u.id = e.userID → u.passwordHash = "")
    (ops : List Op) :
    let s' := run step s ops
    (∃ u ∈ s'.users, u.role = .administrator ∧ u.status = .active ∧ u.passwordHash ≠ "") ∧
    ∀ e ∈ s'.externalIdentities, ∀ u ∈ s'.users, u.id = e.userID → u.passwordHash = "" := by
  have hs : Guarded s := by
    constructor
    · obtain ⟨u, hu, ha⟩ := hadministrator
      exact ⟨u, hu, isLocalAdministrator_iff.mpr ha⟩
    · intro u hu hl
      obtain ⟨e, he, hi⟩ := mem_map.mp hl
      exact hpasswordless e he u hu hi.symm
  intro s'
  have hen : Guarded s' := run_invariant (fun s op h => guarded_change h (step_change s op)) hs ops
  constructor
  · obtain ⟨u, hu, ha⟩ := hen.administrator
    exact ⟨u, hu, isLocalAdministrator_iff.mp ha⟩
  · intro e he u hu hi
    apply hen.passwordless u hu
    rw [hi]
    exact mem_map_of_mem he

/-! A server with one local administrator and one linked one. -/

def localAdmin : UserRow :=
  ⟨"local", "local@example.com", "Local", .administrator, .active, "hash", true, .zero, .zero⟩

def linkedAdmin : UserRow :=
  ⟨"linked", "linked@example.com", "Linked", .administrator, .active, "", true, .zero, .zero⟩

def directory : OIDCProvider := ⟨"directory", .jit, "", [], [], [], .viewer, true⟩

def twoAdministrators : Accounts (sqliteLocale id) :=
  .ofTables [localAdmin, linkedAdmin] [] [directory]
    [⟨"directory", "subject", "linked", "", "linked@example.com", .zero⟩] (by decide +kernel)

/-- The claims of the linked administrator say viewer; then the local one is to
be disabled. -/
def takeover : List Op :=
  [.resolveOIDCUser directory ⟨"new", "subject", "linked@example.com", "Linked", "", []⟩ .viewer .zero true,
    .updateUserAccess "local" .administrator .disabled .zero true]

theorem local_administrator_kept_takeover :
    ((run step twoAdministrators (takeover.take 1)).updateUserAccess "local" .administrator .disabled .zero true).1 =
      .error .finalAdministrator ∧
    (run step twoAdministrators takeover).users.map (·.role) = [.administrator, .viewer] ∧
    ∃ u ∈ (run step twoAdministrators takeover).users,
      u.role = .administrator ∧ u.status = .active ∧ u.passwordHash ≠ "" :=
  ⟨by decide +kernel, by decide +kernel,
    (local_administrator_kept twoAdministrators (by decide +kernel) (by decide +kernel) takeover).1⟩

end Mossward.L3.LocalAdministrator
