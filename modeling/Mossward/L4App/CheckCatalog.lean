import Mathlib.Data.Sum.Order
import Mossward.Core.Bytes
import Mossward.Core.Run
import Mossward.L1Encoding.CheckDefinition

/-!
# The catalog of declarative checks (`internal/checkcatalog`)

Signed checks are imported from trusted publishers. At most one version of a
check is active, and a version that compares below the active one is only
activated with approval. The tables are those of
`internal/store/check_catalog.go`, and every call is atomic.

Versions are compared by their three numbers and then by the identifiers of
their prerelease. Two identifiers that are different texts of one number (`1`
and `01`) compare as greater both ways. The signature check and its base64 are
parameters.

Result: `no_rollback`.
-/
namespace Mossward.L4.CheckCatalog

open Std (TransCmp OrientedCmp ReflCmp)
open List Option
open Run
open Table
open L1.CheckDefinition
open L1.Names (trimSpace)

/-! ## Comparing versions -/

/-- `strconv.Atoi`; an error comes with a value as well. -/
def atoi (s : List Char) : Except Int Int :=
  let negative := s.head? = some '-'
  let digits := if negative ∨ s.head? = some '+' then s.tail else s
  if digits = [] ∨ digits.all Char.isDigit = false then .error 0
  else
    let value : Int := digits.foldl (fun acc c => acc * 10 + (c.toNat - '0'.toNat : Nat)) 0
    if negative then if 2 ^ 63 < value then .error (-2 ^ 63) else .ok (-value)
    else if 2 ^ 63 ≤ value then .error (2 ^ 63 - 1) else .ok value

/-- The value without regard to the error. -/
def atoiValue (s : List Char) : Int :=
  match atoi s with
  | .ok n => n
  | .error n => n

/-- The three numbers and the prerelease. Mirrors `catalog.go:137-149`. -/
def splitVersion (value : String) : List Int × List Char :=
  let rest := (cut '+' value.toList).1
  let parts := (cut '-' rest).1.splitOn '.'
  ([0, 1, 2].map fun i => atoiValue (parts.getD i []), (cut '-' rest).2.getD [])

/-- The loop over the numbers. -/
def compareCore : List Int → List Int → Ordering
  | l :: ls, r :: rs => if l < r then .lt else if r < l then .gt else compareCore ls rs
  | _, _ => .eq

/-- Two identifiers that are not the same text. -/
def compareIdentifier (l r : List Char) : Ordering :=
  match atoi l, atoi r with
  | .ok m, .ok n => if m < n then .lt else .gt
  | .ok _, .error _ => .lt
  | .error _, .ok _ => .gt
  | .error _, .error _ => if l < r then .lt else .gt

/-- Mirrors `catalog.go:151-184`. -/
def comparePrerelease : List (List Char) → List (List Char) → Ordering
  | [], [] => .eq
  | [], _ :: _ => .lt
  | _ :: _, [] => .gt
  | l :: ls, r :: rs => if l = r then comparePrerelease ls rs else compareIdentifier l r

/-- What decides between versions with the same numbers. -/
def compareSuffix (l r : List Char) : Ordering :=
  if l = r then .eq
  else if l = [] then .gt
  else if r = [] then .lt
  else comparePrerelease (l.splitOn '.') (r.splitOn '.')

/-- Mirrors `catalog.go:115-135`. -/
def compareVersions (left right : String) : Ordering :=
  match compareCore (splitVersion left).1 (splitVersion right).1 with
  | .eq => compareSuffix (splitVersion left).2 (splitVersion right).2
  | o => o

/-! ## The order of versions -/

/-- The first identifiers that differ are two texts of one number. -/
def clashes : List (List Char) → List (List Char) → Bool
  | l :: ls, r :: rs =>
    if l = r then clashes ls rs
    else
      match atoi l, atoi r with
      | .ok m, .ok n => m = n
      | _, _ => false
  | _, _ => false

/-- The versions have the same numbers, and prereleases that clash. -/
def Clash (a b : String) : Prop :=
  (splitVersion a).1 = (splitVersion b).1 ∧
    clashes ((splitVersion a).2.splitOn '.') ((splitVersion b).2.splitOn '.') = true

/-- Numbers below texts. -/
def identifierKey (l : List Char) : Lex (Int ⊕ List Char) :=
  match atoi l with
  | .ok n => toLex (.inl n)
  | .error _ => toLex (.inr l)

theorem compareIdentifier_isLE {l r : List Char} :
    (compareIdentifier l r).isLE = true ↔ identifierKey l < identifierKey r := by
  have hif : ∀ p : Prop, [Decidable p] → ((if p then Ordering.lt else .gt).isLE = true ↔ p) := by
    intro p _
    split <;> simp_all
  unfold compareIdentifier identifierKey
  cases atoi l with
  | ok m =>
    cases atoi r with
    | ok n => exact (hif _).trans Sum.Lex.inl_lt_inl_iff.symm
    | error n => exact iff_of_true rfl (Sum.Lex.inl_lt_inr m r)
  | error m =>
    cases atoi r with
    | ok n => exact iff_of_false Bool.false_ne_true Sum.Lex.not_inr_lt_inl
    | error n => exact (hif _).trans Sum.Lex.inr_lt_inr_iff.symm

theorem comparePrerelease_isLE_cons {l r : List Char} {ls rs : List (List Char)} :
    (comparePrerelease (l :: ls) (r :: rs)).isLE = true ↔
      l = r ∧ (comparePrerelease ls rs).isLE = true ∨ identifierKey l < identifierKey r := by
  rw [comparePrerelease]
  split
  · rename_i he
    simp [he]
  · rename_i hn
    simp [hn, compareIdentifier_isLE]

theorem comparePrerelease_self (ls : List (List Char)) : comparePrerelease ls ls = .eq := by
  induction ls with
  | nil => rfl
  | cons l ls ih => rw [comparePrerelease, if_pos rfl, ih]

/-- Two texts of one number are not below each other, which leaves "at most"
transitive. -/
theorem comparePrerelease_trans {ls rs ts : List (List Char)} (hlr : (comparePrerelease ls rs).isLE = true)
    (hrt : (comparePrerelease rs ts).isLE = true) : (comparePrerelease ls ts).isLE = true := by
  induction ls generalizing rs ts with
  | nil => cases ts <;> rfl
  | cons l ls ih =>
    cases rs with
    | nil => cases hlr
    | cons r rs =>
      cases ts with
      | nil => cases hrt
      | cons x ts =>
        rw [comparePrerelease_isLE_cons] at hlr hrt ⊢
        rcases hlr with ⟨rfl, hls⟩ | hl
        · rcases hrt with ⟨rfl, hrs⟩ | hr
          · exact .inl ⟨rfl, ih hls hrs⟩
          · exact .inr hr
        · rcases hrt with ⟨rfl, -⟩ | hr
          · exact .inr hl
          · exact .inr (hl.trans hr)

theorem compareIdentifier_swap {l r : List Char} (hne : l ≠ r) :
    (compareIdentifier l r).swap = compareIdentifier r l ↔ clashes [l] [r] = false := by
  rw [clashes, if_neg hne]
  unfold compareIdentifier
  cases atoi l with
  | ok m =>
    cases atoi r with
    | ok n =>
      rcases lt_trichotomy m n with h | rfl | h
      · simp [h, h.not_gt, h.ne]
      · simp
      · simp [h, h.not_gt, h.ne']
    | error n => simp
  | error m =>
    cases atoi r with
    | ok n => simp
    | error n => rcases lt_or_gt_of_ne hne with h | h <;> simp [h, h.not_gt]

theorem comparePrerelease_swap (ls rs : List (List Char)) :
    (comparePrerelease ls rs).swap = comparePrerelease rs ls ↔ clashes ls rs = false := by
  induction ls generalizing rs with
  | nil => cases rs <;> simp [comparePrerelease, clashes]
  | cons l ls ih =>
    cases rs with
    | nil => simp [comparePrerelease, clashes]
    | cons r rs =>
      by_cases he : l = r
      · rw [comparePrerelease, comparePrerelease, clashes, if_pos he, if_pos he.symm, if_pos he, ih]
      · have hs := compareIdentifier_swap he
        rw [clashes, if_neg he] at hs
        rw [comparePrerelease, comparePrerelease, clashes, if_neg he, if_neg (Ne.symm he), if_neg he, hs]

theorem compareSuffix_isLE {l r : List Char} : (compareSuffix l r).isLE = true ↔
    r = [] ∨ l ≠ [] ∧ (comparePrerelease (l.splitOn '.') (r.splitOn '.')).isLE = true := by
  unfold compareSuffix
  by_cases he : l = r
  · subst he
    rw [if_pos rfl, comparePrerelease_self]
    simp [em]
  rw [if_neg he]
  by_cases hl : l = []
  · have hr : r ≠ [] := fun h => he (hl.trans h.symm)
    simp [hl, hr]
  · by_cases hr : r = [] <;> simp [hl, hr]

theorem clashes_nil (r : List Char) : clashes [[]] (r.splitOn '.') = false ∧ clashes (r.splitOn '.') [[]] = false := by
  obtain ⟨x, xs, hx⟩ := exists_cons_of_ne_nil (splitOn_ne_nil '.' r)
  have ha : atoi [] = .error 0 := rfl
  rw [hx]
  constructor
  · unfold clashes
    split
    · cases xs <;> rfl
    · rw [ha]
  · unfold clashes
    split
    · cases xs <;> rfl
    · rw [ha]
      cases atoi x <;> rfl

theorem compareSuffix_swap (l r : List Char) :
    (compareSuffix l r).swap = compareSuffix r l ↔ clashes (l.splitOn '.') (r.splitOn '.') = false := by
  unfold compareSuffix
  by_cases he : l = r
  · rw [if_pos he, if_pos he.symm, ← comparePrerelease_swap, he, comparePrerelease_self]
  rw [if_neg he, if_neg (Ne.symm he)]
  by_cases hl : l = []
  · have hr : r ≠ [] := fun h => he (hl.trans h.symm)
    simp [hl, hr, (clashes_nil r).1]
  · by_cases hr : r = []
    · simp [hl, hr, (clashes_nil l).2]
    · simp only [hl, hr, if_false]
      exact comparePrerelease_swap _ _

theorem compareCore_eq {ls rs : List Int} (h : ls.length = rs.length) : compareCore ls rs = compare ls rs := by
  induction ls generalizing rs with
  | nil =>
    cases rs with
    | nil => rfl
    | cons r rs => cases h
  | cons l ls ih =>
    cases rs with
    | nil => cases h
    | cons r rs =>
      rw [compareCore, List.compare_cons_cons, ih (by simpa using h)]
      rcases lt_trichotomy l r with hl | rfl | hg
      · rw [if_pos hl, compare_lt_iff_lt.mpr hl]
        rfl
      · simp
      · rw [if_neg hg.not_gt, if_pos hg, compare_gt_iff_gt.mpr hg]
        rfl

theorem length_numbers (a b : String) : (splitVersion a).1.length = (splitVersion b).1.length := rfl

theorem compareVersions_isLE {a b : String} : (compareVersions a b).isLE = true ↔
    compare (splitVersion a).1 (splitVersion b).1 = .lt ∨
      (splitVersion a).1 = (splitVersion b).1 ∧ (compareSuffix (splitVersion a).2 (splitVersion b).2).isLE = true := by
  unfold compareVersions
  rw [compareCore_eq (length_numbers a b)]
  cases hc : compare (splitVersion a).1 (splitVersion b).1 with
  | lt => simp
  | eq => simp [Std.LawfulEqCmp.eq_of_compare hc]
  | gt =>
    have hne : (splitVersion a).1 ≠ (splitVersion b).1 := fun h => by simp [h] at hc
    simp [hne]

/-- **Result.** "At most" is transitive on all versions. -/
theorem compareVersions_trans {a b c : String} (hab : (compareVersions a b).isLE = true)
    (hbc : (compareVersions b c).isLE = true) : (compareVersions a c).isLE = true := by
  rw [compareVersions_isLE] at *
  rcases hab with hab | ⟨hab, hsab⟩
  · rcases hbc with hbc | ⟨hbc, -⟩
    · exact .inl (TransCmp.lt_trans hab hbc)
    · exact .inl (hbc ▸ hab)
  rcases hbc with hbc | ⟨hbc, hsbc⟩
  · exact .inl (hab ▸ hbc)
  refine .inr ⟨hab.trans hbc, ?_⟩
  rw [compareSuffix_isLE] at *
  rcases hsbc with hc | ⟨hb, hsbc⟩
  · exact .inl hc
  rcases hsab with hb' | ⟨ha, hsab⟩
  · exact absurd hb' hb
  · exact .inr ⟨ha, comparePrerelease_trans hsab hsbc⟩

/-- **Result.** The other way round has the opposite sign, unless the versions
clash. -/
theorem compareVersions_swap (a b : String) : (compareVersions a b).swap = compareVersions b a ↔ ¬ Clash a b := by
  have hs : compare (splitVersion b).1 (splitVersion a).1 = (compare (splitVersion a).1 (splitVersion b).1).swap :=
    OrientedCmp.eq_swap
  unfold compareVersions Clash
  rw [compareCore_eq (length_numbers a b), compareCore_eq (length_numbers b a), hs]
  cases hc : compare (splitVersion a).1 (splitVersion b).1 with
  | eq => simp [Std.LawfulEqCmp.eq_of_compare hc, compareSuffix_swap]
  | lt =>
    have hne : (splitVersion a).1 ≠ (splitVersion b).1 := fun h => by simp [h] at hc
    simp [hne]
  | gt =>
    have hne : (splitVersion a).1 ≠ (splitVersion b).1 := fun h => by simp [h] at hc
    simp [hne]

/-! ## The catalog -/

inductive CatalogError
  | publisherDetails      -- name and key are required
  | publisherBound        -- the key identifier belongs to another key
  | publisherNotTrusted
  | verification
  | rollbackApproval
  | versionNotFound
  | versionConflict
deriving DecidableEq

structure SignedCheck where
  algorithm : String
  keyID : String
  check : Check
  signature : String
deriving DecidableEq

inductive PublisherStatus
  | trusted
  | revoked
deriving DecidableEq

structure Publisher where
  keyID : String
  name : String
  publicKey : Bytes
  status : PublisherStatus
  addedAt : Int
  revokedAt : Option Int
deriving DecidableEq

inductive CheckStatus
  | staged
  | active
  | retired
deriving DecidableEq

/-- A row of `declarative_check_versions`. -/
structure VersionRow where
  checkID : String
  version : String
  envelope : SignedCheck
  status : CheckStatus
  importedAt : Int
  activatedAt : Option Int
deriving DecidableEq

def VersionRow.key (row : VersionRow) : String × String := (row.checkID, row.version)

structure Catalog where
  publishers : List Publisher
  versions : List VersionRow

/-- The signature scheme. -/
structure Scheme where
  /-- `base64.RawStdEncoding` -/
  decodeSignature : String → Option Bytes
  verify : Bytes → String → Bytes → Bool

def publicKeySize : Nat := 32
def signatureSize : Nat := 64

def validateEnvelopeMetadata (scheme : Scheme) (envelope : SignedCheck) : Option Bytes :=
  if envelope.algorithm = "Ed25519" ∧ isIdentifier envelope.keyID = true then
    (scheme.decodeSignature envelope.signature).filter fun signature => signature.length = signatureSize
  else none

/-- Mirrors `internal/checkdefinition/signature.go:39-69`. -/
def verify (scheme : Scheme) (envelope : SignedCheck) (publicKey : Bytes) : Bool :=
  publicKey.length = publicKeySize &&
    match signaturePayload envelope.check, validateEnvelopeMetadata scheme envelope with
    | .ok payload, some signature => scheme.verify publicKey payload signature
    | _, _ => false

namespace Catalog

def publisher (s : Catalog) (keyID : String) : Option Publisher := s.publishers.find? fun p => p.keyID = keyID

def version (s : Catalog) (id version : String) : Option VersionRow :=
  s.versions.find? fun row => row.checkID = id && row.version = version

def activeRow (s : Catalog) (id : String) : Option VersionRow :=
  s.versions.find? fun row => row.checkID = id && row.status = .active

/-- Mirrors `catalog.go:67-76` and `SavePublisher`. -/
def trustPublisher (s : Catalog) (keyID name : String) (publicKey : Bytes) (now : Int) :
    Catalog × Except CatalogError Unit :=
  if trimSpace name.toList = [] ∨ publicKey.length ≠ publicKeySize then (s, .error .publisherDetails)
  else if (s.publisher keyID).any fun existing => existing.publicKey ≠ publicKey then (s, .error .publisherBound)
  else
    let name := String.ofList (trimSpace name.toList)
    let renew (old : Publisher) : Publisher := { old with name := name, status := .trusted, revokedAt := none }
    let publishers := upsert Publisher.keyID renew s.publishers ⟨keyID, name, publicKey, .trusted, now, none⟩
    ({ s with publishers := publishers }, .ok ())

/-- Mirrors `RevokePublisher`. -/
def revokePublisher (s : Catalog) (keyID : String) (now : Int) : Catalog × Except CatalogError Unit :=
  if (s.publisher keyID).isNone then (s, .error .publisherNotTrusted)
  else
    let revoke (p : Publisher) : Publisher := { p with status := .revoked, revokedAt := some now }
    ({ s with publishers := updateWhere (fun p => p.keyID = keyID) revoke s.publishers }, .ok ())

def trusted (s : Catalog) (keyID : String) : Option Publisher :=
  (s.publisher keyID).filter fun p => p.status = .trusted

/-- `Import`. Mirrors `catalog.go:82-97`. -/
def importCheck (scheme : Scheme) (s : Catalog) (envelope : SignedCheck) (now : Int) :
    Catalog × Except CatalogError Unit :=
  match s.trusted envelope.keyID with
  | none => (s, .error .publisherNotTrusted)
  | some publisher =>
    if verify scheme envelope publisher.publicKey = false then (s, .error .verification)
    else
      match s.version envelope.check.id envelope.check.version with
      | some existing =>
        if existing.envelope.signature = envelope.signature ∧ existing.envelope.keyID = envelope.keyID then (s, .ok ())
        else (s, .error .versionConflict)
      | none =>
        ({ s with versions := s.versions ++
            [⟨envelope.check.id, envelope.check.version, envelope, .staged, now, none⟩] }, .ok ())

/-- The transaction of `ActivateVersion`, `check_catalog.go:102-123`. -/
def activateRows (id version : String) (now : Int) (row : VersionRow) : VersionRow :=
  if row.checkID = id ∧ row.version = version then { row with status := .active, activatedAt := some now }
  else if row.checkID = id ∧ row.status = .active then { row with status := .retired }
  else row

/-- Mirrors `catalog.go:99-113`. -/
def activate (s : Catalog) (id version : String) (allowRollback : Bool) (now : Int) :
    Catalog × Except CatalogError Unit :=
  match s.version id version with
  | none => (s, .error .versionNotFound)
  | some candidate =>
    if (s.trusted candidate.envelope.keyID).isNone then (s, .error .publisherNotTrusted)
    else if ((s.activeRow id).any fun active => compareVersions version active.envelope.check.version = .lt) ∧
        allowRollback = false then (s, .error .rollbackApproval)
    else ({ s with versions := s.versions.map (activateRows id version now) }, .ok ())

/-- The version that is active. -/
def activeVersion (s : Catalog) (id : String) : Option String := (s.activeRow id).map (·.envelope.check.version)

end Catalog

inductive Op
  | trustPublisher (keyID name : String) (publicKey : Bytes) (now : Int)
  | revokePublisher (keyID : String) (now : Int)
  | importCheck (envelope : SignedCheck) (now : Int)
  | activate (id version : String) (allowRollback : Bool) (now : Int)

def step (scheme : Scheme) (s : Catalog) : Op → Catalog
  | .trustPublisher keyID name publicKey now => (s.trustPublisher keyID name publicKey now).1
  | .revokePublisher keyID now => (s.revokePublisher keyID now).1
  | .importCheck envelope now => (s.importCheck scheme envelope now).1
  | .activate id version allowRollback now => (s.activate id version allowRollback now).1

/-! ## One call -/

/-- Every row has the version of its envelope. -/
def Described (s : Catalog) : Prop := ∀ row ∈ s.versions, row.version = row.envelope.check.version

def Op.isRollback : Op → Bool
  | .activate _ _ allowRollback _ => allowRollback
  | _ => false

/-- The envelope is signed with the key of its publisher. -/
def Signed (scheme : Scheme) (s : Catalog) (envelope : SignedCheck) : Prop :=
  ∃ p, s.publisher envelope.keyID = some p ∧ verify scheme envelope p.publicKey = true

section
variable {scheme : Scheme} {s : Catalog} {id : String} {op : Op}

theorem step_versions (sch : Scheme) (s : Catalog) (op : Op) : (step sch s op).versions = s.versions ∨
    (∃ ev now, op = .importCheck ev now ∧ Signed sch s ev ∧ (step sch s op).versions =
        s.versions ++ [⟨ev.check.id, ev.check.version, ev, .staged, now, none⟩]) ∨
    ∃ id ver allow now, op = .activate id ver allow now ∧
      (∃ row ∈ s.versions, row.checkID = id ∧ row.version = ver) ∧
      (∀ active, s.activeVersion id = some active → compareVersions ver active ≠ .lt ∨ allow = true) ∧
      (step sch s op).versions = s.versions.map (Catalog.activateRows id ver now) := by
  cases op with
  | trustPublisher keyID name pub now =>
    left
    rw [step, Catalog.trustPublisher]
    split
    · rfl
    · split <;> rfl
  | revokePublisher keyID now =>
    left
    rw [step, Catalog.revokePublisher]
    split <;> rfl
  | importCheck ev now =>
    rw [step, Catalog.importCheck]
    split
    · exact .inl rfl
    rename_i p hp
    split
    · exact .inl rfl
    rename_i hv
    split
    · split <;> exact .inl rfl
    · exact .inr (.inl ⟨ev, now, rfl, ⟨p, (filter_eq_some_iff.mp hp).1, by simpa using hv⟩, rfl⟩)
  | activate id ver allow now =>
    rw [step, Catalog.activate]
    split
    · exact .inl rfl
    rename_i cand hc
    split
    · exact .inl rfl
    split
    · exact .inl rfl
    rename_i hg
    have hr := find?_some hc
    simp only [Bool.and_eq_true, decide_eq_true_eq] at hr
    refine .inr (.inr ⟨id, ver, allow, now, rfl, ⟨cand, mem_of_find?_eq_some hc, hr⟩, ?_, rfl⟩)
    intro active ha
    obtain ⟨row, hf, rfl⟩ := map_eq_some_iff.mp ha
    by_contra hboth
    simp only [not_or, not_not, Bool.not_eq_true] at hboth
    exact hg ⟨by simp [hf, hboth.1], hboth.2⟩

theorem activateRows_version (id ver : String) (now : Int) (row : VersionRow) :
    (Catalog.activateRows id ver now row).key = row.key ∧
      (Catalog.activateRows id ver now row).envelope = row.envelope := by
  unfold Catalog.activateRows
  split
  · exact ⟨rfl, rfl⟩
  · split <;> exact ⟨rfl, rfl⟩

/-- What holds of every imported row, and does not depend on its status, holds of
every row. -/
theorem rows_step {P : String × String → SignedCheck → Prop} (h : ∀ row ∈ s.versions, P row.key row.envelope)
    (hi : ∀ ev now, op = .importCheck ev now → Signed scheme s ev → P (ev.check.id, ev.check.version) ev) :
    ∀ row ∈ (step scheme s op).versions, P row.key row.envelope := by
  intro row hr
  rcases step_versions scheme s op with hs | ⟨ev, now, he, hv, hro⟩ | ⟨id, v, allow, now, rfl, -, -, hro⟩
  · rw [hs] at hr
    exact h row hr
  · rw [hro] at hr
    rcases mem_append.mp hr with ho | hn
    · exact h row ho
    · rw [mem_singleton.mp hn]
      exact hi ev now he hv
  · rw [hro] at hr
    obtain ⟨old, ho, rfl⟩ := mem_map.mp hr
    rw [(activateRows_version id v now old).1, (activateRows_version id v now old).2]
    exact h old ho

theorem described_step (h : Described s) : Described (step scheme s op) :=
  rows_step (P := fun key ev => key.2 = ev.check.version) h fun _ _ _ _ => rfl

theorem activeVersion_activated (h : Described s) {ver : String} {now : Int}
    (hro : ∃ row ∈ s.versions, row.checkID = id ∧ row.version = ver) {s' : Catalog}
    (hs' : s'.versions = s.versions.map (Catalog.activateRows id ver now)) : s'.activeVersion id = some ver := by
  obtain ⟨row, hm, hi, hv⟩ := hro
  have hso : (s'.activeRow id).isSome = true := by
    rw [Catalog.activeRow, hs', find?_isSome]
    refine ⟨_, mem_map_of_mem hm, ?_⟩
    simp [Catalog.activateRows, hi, hv]
  obtain ⟨active, ha⟩ := isSome_iff_exists.mp hso
  have hm' := mem_of_find?_eq_some ha
  have hs := find?_some ha
  rw [hs'] at hm'
  obtain ⟨old, ho, rfl⟩ := mem_map.mp hm'
  have hn : old.version = ver := by
    by_contra hne
    by_cases hr : old.checkID = id ∧ old.status = .active <;> simp [Catalog.activateRows, hne, hr] at hs
  rw [Catalog.activeVersion, ha, map_some, (activateRows_version id ver now old).2, ← h old ho, hn]

theorem activeRow_other {id' ver : String} {now : Int} (hi : id' ≠ id) {s' : Catalog}
    (hs' : s'.versions = s.versions.map (Catalog.activateRows id' ver now)) : s'.activeRow id = s.activeRow id := by
  have ho : ∀ row : VersionRow, row.checkID = id → Catalog.activateRows id' ver now row = row := by
    intro row hr
    simp [Catalog.activateRows, hr, Ne.symm hi]
  have ht : ∀ row : VersionRow, (((Catalog.activateRows id' ver now row).checkID = id : Bool) &&
      ((Catalog.activateRows id' ver now row).status = .active : Bool)) =
        ((row.checkID = id : Bool) && (row.status = .active : Bool)) := by
    intro row
    by_cases hr : row.checkID = id
    · rw [ho row hr]
    have hk : (Catalog.activateRows id' ver now row).checkID = row.checkID := by
      unfold Catalog.activateRows
      split
      · rfl
      · split <;> rfl
    simp [hk, hr]
  rw [Catalog.activeRow, hs', find?_map]
  simp only [Function.comp_def, ht]
  show (s.activeRow id).map _ = s.activeRow id
  cases hr : s.activeRow id with
  | none => rfl
  | some row =>
    have hi' := find?_some hr
    simp only [Bool.and_eq_true, decide_eq_true_eq] at hi'
    rw [map_some, ho row hi'.1]

theorem activeVersion_step (sch : Scheme) (op : Op) (id : String) (h : Described s) :
    (step sch s op).activeVersion id = s.activeVersion id ∨
      ∃ ver allow1 now, op = .activate id ver allow1 now ∧
        (∃ row ∈ s.versions, row.checkID = id ∧ row.version = ver) ∧
        (∀ active, s.activeVersion id = some active → compareVersions ver active ≠ .lt ∨ allow1 = true) ∧
        (step sch s op).activeVersion id = some ver := by
  rcases step_versions sch s op with hs | ⟨ev, now, rfl, -, hr⟩ | ⟨id', v, allow, now, rfl, hro, hg, hr⟩
  · left
    rw [Catalog.activeVersion, Catalog.activeRow, hs]
    rfl
  · rw [Catalog.activeVersion, Catalog.activeRow, hr]
    simp [Catalog.activeVersion, Catalog.activeRow]
  · by_cases hi : id' = id
    · subst hi
      exact .inr ⟨v, allow, now, rfl, hro, hg, activeVersion_activated h hro hr⟩
    · left
      rw [Catalog.activeVersion, activeRow_other hi hr]
      rfl

/-! ## Runs -/

/-- The versions of the check that the catalog holds. -/
def HeldIn (V : String → Prop) (id : String) (s : Catalog) : Prop :=
  ∀ row ∈ s.versions, row.checkID = id → V row.version

/-- The versions of the check that a call imports. -/
def Op.ImportsIn (V : String → Prop) (id : String) : Op → Prop
  | .importCheck envelope _ => envelope.check.id = id → V envelope.check.version
  | _ => True

theorem heldIn_step {V : String → Prop} (hop : op.ImportsIn V id) (h : HeldIn V id s) :
    HeldIn V id (step scheme s op) := by
  refine rows_step (P := fun key _ => key.1 = id → V key.2) h fun ev now he _ => ?_
  subst he
  exact hop

theorem activeVersion_held {V : String → Prop} (h : Described s) (hv : HeldIn V id s) {v : String}
    (ha : s.activeVersion id = some v) : V v := by
  obtain ⟨row, hf, rfl⟩ := map_eq_some_iff.mp ha
  have hm := mem_of_find?_eq_some hf
  have hi := find?_some hf
  simp only [Bool.and_eq_true, decide_eq_true_eq] at hi
  rw [← h row hm]
  exact hv row hm hi.1

/-- The active version of the check is at least `v`. -/
structure AtLeast (V : String → Prop) (id v : String) (s : Catalog) : Prop where
  described : Described s
  held : HeldIn V id s
  active : ∃ w, s.activeVersion id = some w ∧ (compareVersions v w).isLE = true

theorem atLeast_step {V : String → Prop} (hV : ∀ a b, V a → V b → ¬ Clash a b) {v : String} (ho : op.ImportsIn V id)
    (hr : op.isRollback = false) (h : AtLeast V id v s) : AtLeast V id v (step scheme s op) where
  described := described_step h.described
  held := heldIn_step ho h.held
  active := by
    obtain ⟨w, hw, hl⟩ := h.active
    rcases activeVersion_step scheme op id h.described with hs | ⟨ver, allow, now, rfl, ⟨row, hm, hid, rfl⟩, hg, ha⟩
    · exact ⟨w, hs.trans hw, hl⟩
    refine ⟨row.version, ha, compareVersions_trans hl ?_⟩
    have hn : compareVersions row.version w ≠ .lt := by
      refine (hg w hw).resolve_right ?_
      rw [show allow = false from hr]
      decide
    have hc := hV row.version w (h.held row hm hid) (activeVersion_held h.described h.held hw)
    rw [← (compareVersions_swap _ _).mpr hc]
    revert hn
    cases compareVersions row.version w <;> decide

end

/-- **No rollback without approval.** Comparing the other way round gives the
opposite sign exactly if the versions do not clash, and "at most" is transitive on
all versions. If no two versions of a check that the catalog holds or imports
clash, then in every run without approved rollbacks the check returns to a version
that it left only from one that compares equal. -/
theorem no_rollback (scheme : Scheme) :
    (∀ a b, (compareVersions a b).swap = compareVersions b a ↔ ¬ Clash a b) ∧
    (∀ a b c, (compareVersions a b).isLE = true → (compareVersions b c).isLE = true →
      (compareVersions a c).isLE = true) ∧
    ∀ s id (V : String → Prop), (∀ a b, V a → V b → ¬ Clash a b) → Described s → HeldIn V id s →
      ∀ ops₁ ops₂ ops₃, (∀ op ∈ ops₁ ++ ops₂ ++ ops₃, op.ImportsIn V id ∧ op.isRollback = false) → ∀ v w,
      (run (step scheme) s ops₁).activeVersion id = some v →
      (run (step scheme) s (ops₁ ++ ops₂)).activeVersion id = some w →
      (run (step scheme) s (ops₁ ++ ops₂ ++ ops₃)).activeVersion id = some v → compareVersions w v = .eq := by
  refine ⟨compareVersions_swap, fun a b c => compareVersions_trans, ?_⟩
  intro s id V hV hs hheld ops₁ ops₂ ops₃ ho v w hv hw hv'
  have hself : ∀ u, (compareVersions u u).isLE = true := by
    intro u
    exact compareVersions_isLE.mpr (.inr ⟨rfl, by simp [compareSuffix]⟩)
  have hbe : Described (run (step scheme) s ops₁) ∧ HeldIn V id (run (step scheme) s ops₁) :=
    run_invariant_mem (I := fun s => Described s ∧ HeldIn V id s)
      (fun s op hop h => ⟨described_step h.1, heldIn_step (ho op (by simp [hop])).1 h.2⟩) ⟨hs, hheld⟩
  -- from `v` on it is at least `v`, and from `w` on at least `w`
  have hm : AtLeast V id v (run (step scheme) s (ops₁ ++ ops₂)) := by
    rw [run_append]
    refine run_invariant_mem (I := AtLeast V id v) (fun s op hop h => ?_) ⟨hbe.1, hbe.2, v, hv, hself v⟩
    exact atLeast_step hV (ho op (by simp [hop])).1 (ho op (by simp [hop])).2 h
  have haf : AtLeast V id w (run (step scheme) s (ops₁ ++ ops₂ ++ ops₃)) := by
    rw [run_append]
    refine run_invariant_mem (I := AtLeast V id w) (fun s op hop h => ?_) ⟨hm.described, hm.held, w, hw, hself w⟩
    exact atLeast_step hV (ho op (by simp [hop])).1 (ho op (by simp [hop])).2 h
  obtain ⟨w', hw', hvw⟩ := hm.active
  obtain ⟨v', hv'', hwv⟩ := haf.active
  obtain rfl := some.inj (hw.symm.trans hw')
  obtain rfl := some.inj (hv'.symm.trans hv'')
  have hc := hV w v (activeVersion_held hm.described hm.held hw) (activeVersion_held haf.described haf.held hv')
  rw [← (compareVersions_swap _ _).mpr hc] at hvw
  revert hwv hvw
  cases compareVersions w v <;> decide

/-! ### Padded numbers -/

def sampleScheme : Scheme := ⟨fun _ => some (replicate 64 0), fun _ _ _ => true⟩

def sampleEnvelope (version : String) : SignedCheck :=
  ⟨"Ed25519", "pub.key", ⟨1, "web.https", version, "http", "HTTPS", "", "low", "", "\x7b\x7d"⟩, version⟩

/-- Two versions are imported, and the first is activated. -/
def sampleImports (a b : String) : List Op :=
  [.trustPublisher "pub.key" "P" (replicate 32 0) 0, .importCheck (sampleEnvelope a) 1,
    .importCheck (sampleEnvelope b) 2, .activate "web.https" a false 3]

/-- Two builds of one version compare equal, and a check goes back and forth. -/
theorem no_rollback_builds :
    (compareVersions "1.0.0-2" "1.0.0-10").swap = compareVersions "1.0.0-10" "1.0.0-2" ∧
    (run (step sampleScheme) ⟨[], []⟩ (sampleImports "1.0.0+a" "1.0.0+b")).activeVersion "web.https" = some "1.0.0+a" ∧
    compareVersions "1.0.0+b" "1.0.0+a" = .eq := by
  have hac : (run (step sampleScheme) ⟨[], []⟩ (sampleImports "1.0.0+a" "1.0.0+b")).activeVersion "web.https" =
      some "1.0.0+a" := by decide +kernel
  have hclash : ∀ a ∈ ["1.0.0+a", "1.0.0+b"], ∀ b ∈ ["1.0.0+a", "1.0.0+b"], ¬ Clash a b := by
    unfold Clash
    decide +kernel
  refine ⟨((no_rollback sampleScheme).1 _ _).mpr (by unfold Clash; decide +kernel), hac, ?_⟩
  refine (no_rollback sampleScheme).2.2 ⟨[], []⟩ "web.https" (· ∈ ["1.0.0+a", "1.0.0+b"])
    (fun a b ha hb => hclash a ha b hb) nofun nofun
    (sampleImports "1.0.0+a" "1.0.0+b") [.activate "web.https" "1.0.0+b" false 4]
    [.activate "web.https" "1.0.0+a" false 5] ?_ _ _ hac (by decide +kernel) (by decide +kernel)
  simp [sampleImports, Op.ImportsIn, Op.isRollback, sampleEnvelope]

/-- `1` and `01` are greater than each other, and a check goes from the one to
the other and back without approval. -/
theorem padded_number_rolls_back : isVersion "1.0.0-1" = true ∧ isVersion "1.0.0-01" = true ∧
      compareVersions "1.0.0-1" "1.0.0-01" = .gt ∧ compareVersions "1.0.0-01" "1.0.0-1" = .gt ∧
      (run (step sampleScheme) ⟨[], []⟩ (sampleImports "1.0.0-1" "1.0.0-01")).activeVersion "web.https" =
        some "1.0.0-1" ∧
      (run (step sampleScheme) ⟨[], []⟩ (sampleImports "1.0.0-1" "1.0.0-01" ++
        [.activate "web.https" "1.0.0-01" false 4])).activeVersion "web.https" = some "1.0.0-01" ∧
      (run (step sampleScheme) ⟨[], []⟩ (sampleImports "1.0.0-1" "1.0.0-01" ++
        [.activate "web.https" "1.0.0-01" false 4,
        .activate "web.https" "1.0.0-1" false 5])).activeVersion "web.https" = some "1.0.0-1" := by
  decide +kernel

end Mossward.L4.CheckCatalog
