import Mossward.L2Store.Asset
import Mossward.L2Store.WorkerEvidence

/-!
# Scans: saving and reading

`Save` replaces a scan: it deletes the row, with everything that refers to it,
and inserts the scan given to it anew, in one transaction. Identifiers of
observations and findings are primary keys of their tables, over all scans.
`internal/store/sqlite.go`.

Results:
* `storedRow_reconciled`: what a restart makes of the rows.
* `Fits`, `saveTx_eq_ok_iff`, `save_cases`, `save_ok_iff`.
-/
namespace Mossward.L2.ScanStore

open Table L1.Rfc3339 Model L2.Schema List
open L2.Intelligence L2.Asset L2.WorkerEvidence

/-! ## Save -/

/-- `DELETE FROM scans WHERE id=?` and its cascades: the scan's observations
and findings, the exceptions of those findings, and the CVE matches of the
scan and of those observations. -/
def deleteScan (t : ScanTables) (id : String) : ScanTables :=
  { t with
    scans := t.scans.filter fun r => r.id ≠ id
    observations := t.observations.filter fun r => r.scanID ≠ id
    findings := t.findings.filter fun r => r.scanID ≠ id
    exceptions := t.exceptions.filter fun e =>
      !t.findings.any fun r => r.scanID = id && r.finding.id = e.findingID
    cveMatches := t.cveMatches.filter fun m =>
      m.scanID ≠ id && !t.observations.any fun r => r.scanID = id && r.observation.id = m.observationID }

def scanRow (scan : Scan) : ScanRow where
  id := scan.id
  name := scan.name
  status := scan.status
  error := scan.error
  totalChecks := scan.totalChecks
  doneChecks := scan.doneChecks
  createdAt := scan.createdAt
  startedAt := scan.startedAt
  completedAt := scan.completedAt
  scopePolicyID := scan.scopePolicyID
  maxConcurrent := scan.maxConcurrent
  scanPolicyID := scan.scanPolicyID
  activeSeconds := scan.activeSeconds
  windowEnd := scan.windowEnd
  rateLimitPerSecond := scan.rateLimitPerSecond
  targets := scan.targets
  ports := scan.ports
  checkpoints := scan.checkpoints

def observationRow (scan : Scan) (o : ServiceObservation) : ObservationRow := ⟨scan.id, o⟩

def defaultFindingStatus (s : FindingStatus) : FindingStatus := if s = .other "" then .open else s

def findingRow (scan : Scan) (f : Finding) : FindingRow :=
  ⟨scan.id, { f with status := defaultFindingStatus f.status }⟩

def matchRow (scan : Scan) (m : CVEMatch) : CVEMatchRow where
  scanID := scan.id
  observationID := m.observationID
  cveID := m.cveID
  target := m.target
  address := m.address
  port := m.port
  product := m.product
  version := m.version
  confidence := m.confidence
  evidence := m.evidence
  matchedAt := m.matchedAt

/-- `CHECK(rate_limit_per_second BETWEEN 0 AND 1000)`. -/
def rateLimitAllowed (rate : Int) : Bool := 0 ≤ rate && rate ≤ 1000

/-- `CHECK(status IN ('open','in_progress','resolved'))`. -/
def findingStatusAllowed : FindingStatus → Bool
  | .other _ => false
  | _ => true

def refuseObservation (t : List ObservationRow) (r : ObservationRow) : Option StoreError :=
  if t.any (fun x => x.observation.id = r.observation.id) then
    some (.context "insert service observation" (.constraint .serviceObservations .primaryKey))
  else none

def refuseFinding (t : List FindingRow) (r : FindingRow) : Option StoreError :=
  if !findingStatusAllowed r.finding.status then
    some (.context "insert finding" (.constraint .findings .check))
  else if t.any (fun x => x.finding.id = r.finding.id) then
    some (.context "insert finding" (.constraint .findings .primaryKey))
  else none

def refuseMatch (observations : List ObservationRow) (cves : List CVERow) (t : List CVEMatchRow)
    (r : CVEMatchRow) : Option StoreError :=
  if t.any (fun x => x.key = r.key) then
    some (.context "insert CVE match" (.constraint .cveMatches .primaryKey))
  else if !observations.any (fun x => x.observation.id = r.observationID) ||
      !cves.any (fun c => c.id = r.cveID) then
    some (.context "insert CVE match" (.constraint .cveMatches .foreignKey))
  else none

/-- `PRIMARY KEY(scan_id,address,port)`. -/
def checkpointKey (c : ScanCheckpoint) : String × Int := (c.address, c.port)

/-- The statements of `Save`, in their order. -/
def saveTx (h : Host) (db : DB) (scan : Scan) : Except StoreError ScanTables := do
  let t := deleteScan db.scan scan.id
  require (rateLimitAllowed scan.rateLimitPerSecond)
    (.context "insert scan" (.constraint .scans .check))
  require (scan.ports.all portAllowed) (.context "insert scan port" (.constraint .scanPorts .check))
  let observations ← insertAll refuseObservation t.observations (scan.observations.map (observationRow scan))
  let findings ← insertAll refuseFinding t.findings (scan.findings.map (findingRow scan))
  let cveMatches ← insertAll (refuseMatch observations t.cves) t.cveMatches
    (scan.cveMatches.map (matchRow scan))
  require (scan.checkpoints.map checkpointKey).Nodup
    (.context "insert scan checkpoint" (.constraint .scanCheckpoints .primaryKey))
  let asset ← scanAssets h db.worker scan t.asset
  return { t with
    scans := t.scans ++ [scanRow scan]
    observations := observations
    findings := findings
    cveMatches := cveMatches
    asset := asset }

/-- Mirrors `Save`, `internal/store/sqlite.go:634-718`. -/
def save (h : Host) (db : DB) (scan : Scan) : Result Unit :=
  match saveTx h db scan with
  | .error e => (.error e, db)
  | .ok t => (.ok (), { db with scan := t })

/-! ## Get -/

/-- `ORDER BY address,port`. -/
def checkpointLe (a b : ScanCheckpoint) : Bool :=
  a.address < b.address || (a.address = b.address && a.port ≤ b.port)

/-- The CVE columns of a match come from `cves` as it is now. -/
def loadMatch (t : ScanTables) (m : CVEMatchRow) : List CVEMatch :=
  (t.cves.filter fun c => c.id = m.cveID).map fun c =>
    { cveID := m.cveID, observationID := m.observationID, target := m.target, address := m.address
      port := m.port, product := m.product, version := m.version, severity := c.severity
      cvssScore := c.cvssScore, description := c.description, confidence := m.confidence
      evidence := m.evidence, knownExploited := c.knownExploited, sourceURL := c.sourceURL
      matchedAt := m.matchedAt }

/-- The scan of a row, with its observations, findings and matches. -/
def loadScan (t : ScanTables) (r : ScanRow) : Scan where
  id := r.id
  name := r.name
  targets := r.targets
  ports := r.ports
  status := r.status
  error := r.error
  observations := (t.observations.filter fun x => x.scanID = r.id).map (·.observation)
  findings := (t.findings.filter fun x => x.scanID = r.id).map (·.finding)
  cveMatches := (t.cveMatches.filter fun m => m.scanID = r.id).flatMap (loadMatch t)
  totalChecks := r.totalChecks
  doneChecks := r.doneChecks
  createdAt := r.createdAt
  startedAt := r.startedAt
  completedAt := r.completedAt
  scopePolicyID := r.scopePolicyID
  maxConcurrent := r.maxConcurrent
  scanPolicyID := r.scanPolicyID
  checkpoints := r.checkpoints.insertionSort fun a b => checkpointLe a b
  activeSeconds := r.activeSeconds
  windowEnd := r.windowEnd
  longAlertSent := r.id ∈ t.longAlerts
  rateLimitPerSecond := r.rateLimitPerSecond

/-- Mirrors `Get`, `internal/store/sqlite.go:720-775`. -/
def get (t : ScanTables) (id : String) : Except StoreError Scan :=
  match t.scans.find? (fun r => r.id = id) with
  | none => .error .notFound
  | some r => .ok (loadScan t r)

/-! ## When a save succeeds -/

/-- The tables with the scan replaced, but for the inventory. -/
def replaced (t : ScanTables) (scan : Scan) : ScanTables :=
  let t := deleteScan t scan.id
  { t with
    scans := t.scans ++ [scanRow scan]
    observations := t.observations ++ scan.observations.map (observationRow scan)
    findings := t.findings ++ scan.findings.map (findingRow scan)
    cveMatches := t.cveMatches ++ scan.cveMatches.map (matchRow scan) }

/-- The constraints of the scan's own tables. -/
structure Fits (t : ScanTables) (scan : Scan) : Prop where
  rate : rateLimitAllowed scan.rateLimitPerSecond
  ports : ∀ p ∈ scan.ports, portAllowed p
  observationKeys : Keyed ServiceObservation.id scan.observations
  /-- no other scan has an observation of this name -/
  observationsFree : ∀ o ∈ scan.observations, ∀ r ∈ t.observations, r.scanID ≠ scan.id →
    r.observation.id ≠ o.id
  findingStatuses : ∀ f ∈ scan.findings, findingStatusAllowed (defaultFindingStatus f.status)
  findingKeys : Keyed Finding.id scan.findings
  /-- no other scan has a finding of this name -/
  findingsFree : ∀ f ∈ scan.findings, ∀ r ∈ t.findings, r.scanID ≠ scan.id → r.finding.id ≠ f.id
  matchKeys : Keyed (fun m : CVEMatch => (m.observationID, m.cveID)) scan.cveMatches
  matchRefs : ∀ m ∈ scan.cveMatches,
    (∃ r ∈ (replaced t scan).observations, r.observation.id = m.observationID) ∧ ∃ c ∈ t.cves, c.id = m.cveID
  checkpointKeys : Keyed checkpointKey scan.checkpoints

section
variable {h : Host} {db db' : DB} {t t' : ScanTables} {scan : Scan}

theorem refuseObservation_eq_none (l : List ObservationRow) (r : ObservationRow) :
    refuseObservation l r = none ↔ True ∧ ∀ x ∈ l, x.observation.id ≠ r.observation.id := by
  unfold refuseObservation
  split
  · rename_i ha
    obtain ⟨x, hx, he⟩ := any_eq_true.mp ha
    simp only [reduceCtorEq, true_and, false_iff, not_forall]
    exact ⟨x, hx, not_not.mpr (by simpa using he)⟩
  · rename_i ha
    simp only [true_and, true_iff]
    exact fun x hx he => ha (any_eq_true.mpr ⟨x, hx, by simpa using he⟩)

theorem refuseFinding_eq_none (l : List FindingRow) (r : FindingRow) : refuseFinding l r = none ↔
      findingStatusAllowed r.finding.status ∧ ∀ x ∈ l, x.finding.id ≠ r.finding.id := by
  unfold refuseFinding
  split
  · rename_i hs
    simp only [Bool.not_eq_true'] at hs
    simp [hs]
  rename_i hs
  simp only [Bool.not_eq_true'] at hs
  split
  · rename_i ha
    obtain ⟨x, hx, he⟩ := any_eq_true.mp ha
    simp only [reduceCtorEq, false_iff, not_and, not_forall]
    exact fun _ => ⟨x, hx, not_not.mpr (by simpa using he)⟩
  · rename_i ha
    simp only [hs, true_and, true_iff]
    exact fun x hx he => ha (any_eq_true.mpr ⟨x, hx, by simpa using he⟩)

theorem refuseMatch_eq_none (obs : List ObservationRow) (cves : List CVERow)
    (l : List CVEMatchRow) (r : CVEMatchRow) :
    refuseMatch obs cves l r = none ↔
      ((∃ x ∈ obs, x.observation.id = r.observationID) ∧ ∃ c ∈ cves, c.id = r.cveID) ∧
        ∀ x ∈ l, x.key ≠ r.key := by
  unfold refuseMatch
  split
  · rename_i ha
    obtain ⟨x, hx, he⟩ := any_eq_true.mp ha
    simp only [reduceCtorEq, false_iff, not_and, not_forall]
    exact fun _ => ⟨x, hx, not_not.mpr (by simpa using he)⟩
  · rename_i ha
    have hk : ∀ x ∈ l, x.key ≠ r.key := fun x hx he => ha (any_eq_true.mpr ⟨x, hx, by simpa using he⟩)
    simp only [and_iff_left hk, ite_eq_right_iff, reduceCtorEq, imp_false, Bool.or_eq_true,
      Bool.not_eq_true', not_or, Bool.not_eq_false, any_eq_true, decide_eq_true_eq]

theorem insertObservations_iff (t : ScanTables) (scan : Scan) {l : List ObservationRow} :
    insertAll refuseObservation (deleteScan t scan.id).observations
        (scan.observations.map (observationRow scan)) = .ok l ↔
      (Keyed ServiceObservation.id scan.observations ∧ ∀ o ∈ scan.observations, ∀ r ∈ t.observations,
        r.scanID ≠ scan.id → r.observation.id ≠ o.id) ∧ l = (replaced t scan).observations := by
  rw [insertAll_ok_iff refuseObservation_eq_none]
  have hk : Keyed (fun r : ObservationRow => r.observation.id)
      (scan.observations.map (observationRow scan)) ↔ Keyed ServiceObservation.id scan.observations := by
    unfold Keyed
    rw [map_map]
    rfl
  simp only [hk, deleteScan, mem_map, mem_filter, decide_eq_true_eq, forall_exists_index,
    and_imp, forall_apply_eq_imp_iff₂, implies_true, true_and]
  rfl

theorem insertFindings_iff (t : ScanTables) (scan : Scan) {l : List FindingRow} :
    insertAll refuseFinding (deleteScan t scan.id).findings (scan.findings.map (findingRow scan)) = .ok l ↔
      ((∀ f ∈ scan.findings, findingStatusAllowed (defaultFindingStatus f.status)) ∧
        Keyed Finding.id scan.findings ∧ ∀ f ∈ scan.findings, ∀ r ∈ t.findings,
          r.scanID ≠ scan.id → r.finding.id ≠ f.id) ∧ l = (replaced t scan).findings := by
  rw [insertAll_ok_iff refuseFinding_eq_none]
  have hk : Keyed (fun r : FindingRow => r.finding.id) (scan.findings.map (findingRow scan)) ↔
      Keyed Finding.id scan.findings := by
    unfold Keyed
    rw [map_map]
    rfl
  simp only [hk, deleteScan, mem_map, mem_filter, decide_eq_true_eq, forall_exists_index,
    and_imp, forall_apply_eq_imp_iff₂]
  rfl

/-- The matches of the scan's identifier were deleted, so only the new ones
can collide. -/
theorem insertMatches_iff (t : ScanTables) (scan : Scan) {l : List CVEMatchRow} :
    insertAll (refuseMatch (replaced t scan).observations (deleteScan t scan.id).cves)
        (deleteScan t scan.id).cveMatches (scan.cveMatches.map (matchRow scan)) = .ok l ↔
      ((∀ m ∈ scan.cveMatches, (∃ r ∈ (replaced t scan).observations, r.observation.id = m.observationID) ∧
            ∃ c ∈ t.cves, c.id = m.cveID) ∧
        Keyed (fun m : CVEMatch => (m.observationID, m.cveID)) scan.cveMatches) ∧
      l = (replaced t scan).cveMatches := by
  rw [insertAll_ok_iff (refuseMatch_eq_none _ _)]
  have hf : ∀ r ∈ scan.cveMatches.map (matchRow scan), ∀ x ∈ (deleteScan t scan.id).cveMatches,
      x.key ≠ r.key := by
    intro r hr x hx he
    obtain ⟨m, -, rfl⟩ := mem_map.mp hr
    have hn := (mem_filter.mp hx).2
    simp only [Bool.and_eq_true, decide_eq_true_eq] at hn
    exact hn.1 (congrArg Prod.fst he)
  have hk : Keyed CVEMatchRow.key (scan.cveMatches.map (matchRow scan)) ↔
      Keyed (fun m : CVEMatch => (m.observationID, m.cveID)) scan.cveMatches := by
    unfold Keyed
    rw [map_map, show CVEMatchRow.key ∘ matchRow scan =
      Prod.mk scan.id ∘ fun m : CVEMatch => (m.observationID, m.cveID) from rfl, ← map_map]
    exact nodup_map_iff (Prod.mk_right_injective scan.id)
  rw [and_iff_left hf, hk]
  simp only [mem_map, forall_exists_index, and_imp, forall_apply_eq_imp_iff₂]
  rfl

/-- **What a save checks and writes.** -/
theorem saveTx_eq_ok_iff : saveTx h db scan = .ok t' ↔ Fits db.scan scan ∧
    ∃ a, scanAssets h db.worker scan db.scan.asset = .ok a ∧
      t' = { replaced db.scan scan with asset := a } := by
  unfold saveTx
  simp only [bind_eq_ok, require_eq_ok, insertObservations_iff, insertFindings_iff]
  constructor
  · rintro ⟨-, hr, -, hp, _, ⟨⟨ho, hof⟩, rfl⟩, _, ⟨⟨hfs, hfk, hff⟩, rfl⟩, l, hm, -, hck, a, ha, ht⟩
    obtain ⟨⟨hmr, hmk⟩, rfl⟩ := (insertMatches_iff db.scan scan).mp hm
    refine ⟨⟨hr, all_eq_true.mp hp, ho, hof, hfs, hfk, hff, hmk, hmr, ?_⟩, a, ha, ?_⟩
    · unfold Keyed
      exact of_decide_eq_true hck
    · cases ht
      rfl
  · rintro ⟨hf, a, ha, rfl⟩
    refine ⟨(), hf.rate, (), all_eq_true.mpr hf.ports, _, ⟨⟨hf.observationKeys, hf.observationsFree⟩, rfl⟩, _,
      ⟨⟨hf.findingStatuses, hf.findingKeys, hf.findingsFree⟩, rfl⟩, _,
      (insertMatches_iff db.scan scan).mpr ⟨⟨hf.matchRefs, hf.matchKeys⟩, rfl⟩, (),
      decide_eq_true hf.checkpointKeys, a, ha, rfl⟩

theorem save_cases {res : Except StoreError Unit} (hs : save h db scan = (res, db')) :
    (∃ e, res = .error e ∧ db' = db) ∨
    (res = .ok () ∧ Fits db.scan scan ∧ ∃ a, scanAssets h db.worker scan db.scan.asset = .ok a ∧
      db' = { db with scan := { replaced db.scan scan with asset := a } }) := by
  unfold save at hs
  split at hs
  · cases hs
    exact .inl ⟨_, rfl, rfl⟩
  rename_i t' ht
  obtain ⟨hf, a, ha, rfl⟩ := saveTx_eq_ok_iff.mp ht
  cases hs
  exact .inr ⟨rfl, hf, a, ha, rfl⟩

/-- Tables that agree on what the constraints of one scan look at: the rows of
the other scans, and the CVEs. -/
structure Elsewhere (id : String) (t t' : ScanTables) : Prop where
  observations : (t'.observations.filter fun r => r.scanID ≠ id) = t.observations.filter fun r => r.scanID ≠ id
  findings : (t'.findings.filter fun r => r.scanID ≠ id) = t.findings.filter fun r => r.scanID ≠ id
  cves : t'.cves = t.cves

variable {id : String}

theorem Elsewhere.trans {t'' : ScanTables} (he : Elsewhere id t t') (he' : Elsewhere id t' t'') :
    Elsewhere id t t'' :=
  ⟨he'.observations.trans he.observations, he'.findings.trans he.findings, he'.cves.trans he.cves⟩

theorem elsewhere_replaced (t : ScanTables) (scan : Scan) (a : AssetTables) :
    Elsewhere scan.id t { replaced t scan with asset := a } := by
  have ho : ((scan.observations.map (observationRow scan)).filter fun r => r.scanID ≠ scan.id) = [] := by
    simp [observationRow]
  have hf : ((scan.findings.map (findingRow scan)).filter fun r => r.scanID ≠ scan.id) = [] := by
    simp [findingRow]
  refine ⟨?_, ?_, rfl⟩
  · change ((t.observations.filter fun r => r.scanID ≠ scan.id) ++ _).filter _ = _
    rw [filter_append, ho]
    simp
  · change ((t.findings.filter fun r => r.scanID ≠ scan.id) ++ _).filter _ = _
    rw [filter_append, hf]
    simp

theorem Fits.elsewhere (hfi : Fits t scan) (he : Elsewhere scan.id t t') : Fits t' scan := by
  refine ⟨hfi.rate, hfi.ports, hfi.observationKeys, fun o ho r hr hn => ?_, hfi.findingStatuses,
    hfi.findingKeys, fun f hf r hr hn => ?_, hfi.matchKeys, fun m hm => ?_, hfi.checkpointKeys⟩
  · have hme : r ∈ t'.observations.filter fun r => r.scanID ≠ scan.id :=
      mem_filter.mpr ⟨hr, decide_eq_true hn⟩
    rw [he.observations] at hme
    exact hfi.observationsFree o ho r (mem_filter.mp hme).1 hn
  · have hme : r ∈ t'.findings.filter fun r => r.scanID ≠ scan.id := mem_filter.mpr ⟨hr, decide_eq_true hn⟩
    rw [he.findings] at hme
    exact hfi.findingsFree f hf r (mem_filter.mp hme).1 hn
  · have hro : (replaced t' scan).observations = (replaced t scan).observations :=
      congrArg (· ++ scan.observations.map (observationRow scan)) he.observations
    rw [hro, he.cves]
    exact hfi.matchRefs m hm

/-- Copies of a scan that differ in its course only: status, error, times and
counts meet no constraint. -/
structure SameRows (s s' : Scan) : Prop where
  id : s'.id = s.id
  rate : s'.rateLimitPerSecond = s.rateLimitPerSecond
  ports : s'.ports = s.ports
  observations : s'.observations = s.observations
  findings : s'.findings = s.findings
  cveMatches : s'.cveMatches = s.cveMatches
  checkpoints : s'.checkpoints = s.checkpoints

theorem Fits.of_sameRows {s' : Scan} (hf : Fits t scan) (hs : SameRows scan s') : Fits t s' := by
  obtain ⟨hi, hr, hp, ho, hfi, hm, hc⟩ := hs
  have hro : (replaced t s').observations = (replaced t scan).observations := by
    have hr1 : observationRow s' = observationRow scan := by
      funext o
      rw [observationRow, observationRow, hi]
    simp only [replaced, hr1, hi, ho]
  refine ⟨hr ▸ hf.rate, hp ▸ hf.ports, ho ▸ hf.observationKeys, ?_,
    hfi ▸ hf.findingStatuses, hfi ▸ hf.findingKeys, ?_, hm ▸ hf.matchKeys, ?_,
    hc ▸ hf.checkpointKeys⟩
  · rw [ho, hi]
    exact hf.observationsFree
  · rw [hfi, hi]
    exact hf.findingsFree
  · rw [hm, hro]
    exact hf.matchRefs

/-- The scan without its matches. -/
def withoutMatches (scan : Scan) : Scan := { scan with cveMatches := [] }

theorem fits_matched_iff (ht : CVEInv t) {os : List (ServiceObservation × Time)}
    (ho : scan.observations = os.map Prod.fst) (hma : scan.cveMatches = matchAll h t os) :
    Fits t scan ↔ Fits t (withoutMatches scan) ∧ ∀ p ∈ os, MatchedOnce h t p.1 := by
  have hk : Keyed ServiceObservation.id scan.observations ↔ Keyed (fun p => p.1.id) os := by
    unfold Keyed
    rw [ho, map_map]
    rfl
  constructor
  · intro hf
    refine ⟨⟨hf.rate, hf.ports, hf.observationKeys, hf.observationsFree, hf.findingStatuses,
      hf.findingKeys, hf.findingsFree, nodup_nil, fun m hm => (not_mem_nil hm).elim,
      hf.checkpointKeys⟩, ?_⟩
    have hmk := hf.matchKeys
    rw [hma] at hmk
    exact (keyed_matchAll_iff ht (hk.mp hf.observationKeys)).mp hmk
  · rintro ⟨hf, hon⟩
    refine ⟨hf.rate, hf.ports, hf.observationKeys, hf.observationsFree, hf.findingStatuses,
      hf.findingKeys, hf.findingsFree, ?_, fun m hm => ?_, hf.checkpointKeys⟩
    · rw [hma]
      exact (keyed_matchAll_iff ht (hk.mp hf.observationKeys)).mpr hon
    · -- a match refers to an observation of the scan and to a stored CVE
      rw [hma] at hm
      obtain ⟨p, hp, hm⟩ := mem_flatMap.mp hm
      obtain ⟨hi, hc⟩ := matchObservation_observation hm
      refine ⟨⟨observationRow scan p.1, mem_append_right _ (mem_map_of_mem ?_), hi.symm⟩, hc⟩
      rw [ho]
      exact mem_map_of_mem hp

/-- The provenance of a completed scan's observations finds its rows free. -/
def ProvenanceFree (db : DB) (scan : Scan) : Prop :=
  scan.status = .completed → ∀ o ∈ scan.observations,
    EvidenceFree db.scan.asset.evidence (scannerEvidenceSourceID db.worker scan.id) o.id

/-- **When a save succeeds.** On a sound inventory a save succeeds exactly when
the scan meets the constraints of its tables and no provenance row of another
source has the name of one of its observations. -/
theorem save_ok_iff (ha : AssetInv db.scan.asset) (h : Host) (scan : Scan) :
    (save h db scan).1 = .ok () ↔ Fits db.scan scan ∧ ProvenanceFree db scan := by
  constructor
  · intro ho
    cases hs : save h db scan with
    | mk res db' =>
      rw [hs] at ho
      rcases save_cases hs with ⟨e, rfl, -⟩ | ⟨-, hf, a, has, -⟩
      · cases ho
      refine ⟨hf, ?_⟩
      rcases scanAssets_cases ha h db.worker scan hf.observationKeys with ⟨hfr, -⟩ | ⟨-, e, he⟩
      · exact hfr
      · rw [he] at has
        cases has
  · rintro ⟨hf, hfr⟩
    rcases scanAssets_cases ha h db.worker scan hf.observationKeys with ⟨-, a, ho, -⟩ | ⟨hb, -⟩
    · have ht : saveTx h db scan = .ok { replaced db.scan scan with asset := a } :=
        saveTx_eq_ok_iff.mpr ⟨hf, a, ho, rfl⟩
      unfold save
      rw [ht]
    · exact absurd hfr hb

theorem save_assetInv (ha : AssetInv db.scan.asset) (h : Host) (scan : Scan) :
    AssetInv (save h db scan).2.scan.asset := by
  cases hs : save h db scan with
  | mk res db' =>
    rcases save_cases hs with ⟨e, -, rfl⟩ | ⟨-, hf, a, has, rfl⟩
    · exact ha
    rcases scanAssets_cases ha h db.worker scan hf.observationKeys with ⟨-, a', ho, ha'⟩ | ⟨-, e, he⟩
    · rw [ho] at has
      cases has
      exact ha'
    · rw [he] at has
      cases has

/-! ## The stored status -/

/-- The row of a scan. -/
def storedRow (t : ScanTables) (id : String) : Option ScanRow := t.scans.find? fun r => r.id = id

def storedStatus (t : ScanTables) (id : String) : Option ScanStatus :=
  (t.scans.find? fun r => r.id = id).map (·.status)

theorem storedStatus_eq (t : ScanTables) (id : String) : storedStatus t id = (storedRow t id).map (·.status) :=
  rfl

theorem storedRow_mem {r : ScanRow} (hr : storedRow t id = some r) : r ∈ t.scans ∧ r.id = id := by
  exact ⟨mem_of_find?_eq_some hr, by simpa using find?_some hr⟩

theorem get_ok_iff {s : Scan} : get t id = .ok s ↔ ∃ r, storedRow t id = some r ∧ loadScan t r = s := by
  unfold get storedRow
  split
  · rename_i hn
    simp [hn]
  · rename_i r hr
    simp [hr]

theorem storedRow_replaced (t : ScanTables) (scan : Scan) (id : String) :
    storedRow (replaced t scan) id = if id = scan.id then some (scanRow scan) else storedRow t id := by
  have hs : (replaced t scan).scans = (t.scans.filter fun r => r.id ≠ scan.id) ++ [scanRow scan] := rfl
  unfold storedRow
  rw [hs, find?_append, find?_filter]
  simp only [decide_eq_true_eq]
  split
  · rename_i hi
    have hn : t.scans.find? (fun r => decide (r.id ≠ scan.id ∧ r.id = id)) = none := by
      simp [hi]
    rw [hn]
    simp [scanRow, hi]
  rename_i hi
  have hsa : ∀ r : ScanRow, decide (r.id ≠ scan.id ∧ r.id = id) = decide (r.id = id) := by
    intro r
    by_cases hr : r.id = id
    · simp [hr, hi]
    · simp [hr]
  have hne : [scanRow scan].find? (fun r => decide (r.id = id)) = none := by
    simp [scanRow, Ne.symm hi]
  simp only [hsa]
  rw [hne, Option.or_none]

theorem storedStatus_replaced (t : ScanTables) (scan : Scan) (id : String) :
    storedStatus (replaced t scan) id = if id = scan.id then some scan.status else storedStatus t id := by
  rw [storedStatus_eq, storedStatus_eq, storedRow_replaced]
  by_cases hi : id = scan.id
  · rw [if_pos hi, if_pos hi]
    rfl
  · rw [if_neg hi, if_neg hi]

theorem get_of_stored (h : (storedStatus t id).isSome) : ∃ s, get t id = .ok s := by
  unfold storedStatus at h
  unfold get
  cases hf : t.scans.find? (fun r => r.id = id) with
  | none =>
    rw [hf] at h
    cases h
  | some r => exact ⟨_, rfl⟩

theorem get_status {s : Scan} (hg : get t id = .ok s) : s.id = id ∧ storedStatus t id = some s.status := by
  unfold get at hg
  split at hg
  · cases hg
  rename_i r hr
  cases hg
  have hi := find?_some hr
  refine ⟨of_decide_eq_true hi, ?_⟩
  unfold storedStatus
  rw [hr]
  rfl

/-! ## Restart -/

/-- The row of a scan that a process left queued or running. Seconds are
counted exactly, without the rounding of `julianday`. -/
def interruptedRow (now : Time) (r : ScanRow) : ScanRow :=
  if r.scanPolicyID ≠ "" then
    { r with
      status := .paused
      error := "scheduled scan paused by process shutdown"
      completedAt := none
      activeSeconds := r.activeSeconds +
        match r.status, r.startedAt with
        | .running, some startedAt => max 0 ((now.ns - startedAt.ns) / second)
        | _, _ => 0
      startedAt := none }
  else
    { r with
      status := .failed
      error := "scan interrupted by a previous process shutdown"
      completedAt := some now }

def reconciledRow (now : Time) (r : ScanRow) : ScanRow :=
  if r.status = .queued || r.status = .running then interruptedRow now r else r

/-- Mirrors `ReconcileInterrupted`, `internal/store/sqlite.go:809-826`. -/
def reconcileInterrupted (db : DB) (now : Time) : DB :=
  { db with scan := { db.scan with scans := db.scan.scans.map (reconciledRow now) } }

theorem reconciledRow_id (now : Time) (r : ScanRow) : (reconciledRow now r).id = r.id := by
  unfold reconciledRow interruptedRow
  split
  · split <;> rfl
  · rfl

theorem storedRow_reconciled (db : DB) (now : Time) (id : String) :
    storedRow (reconcileInterrupted db now).scan id = (storedRow db.scan id).map (reconciledRow now) := by
  have hi : ((fun r : ScanRow => decide (r.id = id)) ∘ reconciledRow now) = fun r => decide (r.id = id) := by
    funext r
    simp only [Function.comp_apply, reconciledRow_id]
  unfold storedRow reconcileInterrupted
  rw [find?_map, hi]

end

end Mossward.L2.ScanStore
