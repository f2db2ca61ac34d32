import Mossward.L2Store.ScanStore

/-!
# Projection of a worker's result onto its scan

`CompleteScannerWorkerJob` accepts a result in one transaction and then, in
separate calls, reads the job, its scan and its evidence back and saves the
scan anew: the evidence's observations and findings replace the stored ones.
A repeated receipt runs the projection once more. `internal/store/worker_projection.go`.

Results:
* `project_cases`: a projection fails without effect or saves `projectedScan`.
* `Projectable`, `project_ok_iff`.
-/
namespace Mossward.L2.Projection

open Table L1.Rfc3339 Model L2.Schema List
open L2.WorkerJob L2.Intelligence L2.Asset L2.ScanStore

def remoteWorkerFailure : String := "remote scanner-worker execution failed"

/-- Mirrors `internal/store/worker_projection.go:47-68`: the batches of the job
in the order of their sequence numbers. -/
def jobBatches (w : WorkerTables) (jobID : String) : List BatchRow :=
  (w.batches.filter fun b => b.jobID = jobID).insertionSort fun a b => a.sequence ≤ b.sequence

def evidenceObservations (w : WorkerTables) (jobID : String) : List ServiceObservation :=
  (jobBatches w jobID).flatMap fun b => b.signedEnvelope.batch.observations

def evidenceFindings (w : WorkerTables) (jobID : String) : List Finding :=
  (jobBatches w jobID).flatMap fun b => b.signedEnvelope.batch.findings

/-- Mirrors `internal/store/worker_projection.go:70-80`. `wall` is what
`time.Now` returns during each match. -/
def matchScannerWorkerObservations (h : Host) (t : ScanTables) (wall : ServiceObservation → Time)
    (observations : List ServiceObservation) : List CVEMatch :=
  observations.flatMap fun o => matchObservation h t o (wall o)

def workerScanCheckpoints (checkpoints : List WorkerCheckpoint) : List ScanCheckpoint :=
  checkpoints.map fun c => { address := c.address, port := c.port, completedAt := c.completedAt }

def workerScanStartedAt (current : Option Time) (issuedAt : Time) : Option Time :=
  some (current.getD issuedAt)

/-- Mirrors `internal/store/worker_projection.go:97-106`. -/
def projectedScanOutcome : WorkerJobResultOutcome → ScanStatus × String
  | .succeeded => (.completed, "")
  | .canceled => (.canceled, "")
  | _ => (.failed, remoteWorkerFailure)

/-- The scan that a projection saves. -/
def projectedScan (h : Host) (wall : ServiceObservation → Time) (db : DB) (job : WorkerJob)
    (receipt : WorkerJobResultReceipt) (scan : Scan) : Scan :=
  let observations := evidenceObservations db.worker receipt.jobID
  let checkpoints := checkpointsOf sqlite db.worker receipt.jobID
  { scan with
    observations := observations
    findings := evidenceFindings db.worker receipt.jobID
    checkpoints := workerScanCheckpoints checkpoints
    doneChecks := checkpoints.length
    startedAt := workerScanStartedAt scan.startedAt job.issuedAt
    completedAt := some receipt.completedAt
    status := (projectedScanOutcome receipt.outcome).1
    error := (projectedScanOutcome receipt.outcome).2
    cveMatches := matchScannerWorkerObservations h db.scan wall observations }

/-- Mirrors `internal/store/worker_projection.go:13-45`. -/
def projectScannerWorkerResult (h : Host) (wall : ServiceObservation → Time) (db : DB)
    (receipt : WorkerJobResultReceipt) : Result Unit :=
  match WorkerJob.Sqlite.scannerWorkerJob db receipt.jobID with
  | .error e => (.error (.context "load scanner-worker job for projection" e), db)
  | .ok job =>
    match get db.scan job.job.scanID with
    | .error e => (.error (.context "load remote scan for projection" e), db)
    | .ok scan =>
      match save h db (projectedScan h wall db job.job receipt scan) with
      | (.error e, db') => (.error (.context "save projected scanner-worker scan" e), db')
      | (.ok (), db') => (.ok (), db')

/-- Mirrors `internal/store/worker_result.go:13-60`. -/
def completeScannerWorkerJob (h : Host) (wall : ServiceObservation → Time) (db : DB)
    (receipt : WorkerJobResultReceipt) (tokenHash : TokenHash) (now : Time) : Result Unit :=
  completeWith (projectScannerWorkerResult h wall)
    (WorkerJob.Sqlite.acceptResult db receipt tokenHash now) receipt

/-! ## What a projection does -/

section
variable {h : Host} {wall : ServiceObservation → Time} {db db' : DB} {receipt : WorkerJobResultReceipt}

/-- The job and the scan that a projection reads. -/
def Loads (db : DB) (receipt : WorkerJobResultReceipt) (job : SignedWorkerJob) (scan : Scan) : Prop :=
  WorkerJob.Sqlite.scannerWorkerJob db receipt.jobID = .ok job ∧ get db.scan job.job.scanID = .ok scan

theorem project_cases {res : Except StoreError Unit}
    (hp : projectScannerWorkerResult h wall db receipt = (res, db')) :
    (∃ e, res = .error e ∧ e ≠ .workerResultAlreadyAccepted ∧ db' = db) ∨
    ∃ job scan, Loads db receipt job scan ∧ res = .ok () ∧
      save h db (projectedScan h wall db job.job receipt scan) = (.ok (), db') := by
  unfold projectScannerWorkerResult at hp
  split at hp
  · cases hp
    exact .inl ⟨_, rfl, by simp, rfl⟩
  rename_i job hj
  split at hp
  · cases hp
    exact .inl ⟨_, rfl, by simp, rfl⟩
  rename_i scan hsc
  split at hp
  · rename_i e db1 hs
    cases hp
    rcases save_cases hs with ⟨e', -, rfl⟩ | ⟨ho, -⟩
    · exact .inl ⟨_, rfl, by simp, rfl⟩
    · cases ho
  · rename_i db1 hs
    cases hp
    exact .inr ⟨job, scan, ⟨hj, hsc⟩, rfl, hs⟩

theorem project_ok_iff_save : (projectScannerWorkerResult h wall db receipt).1 = .ok () ↔
      ∃ job scan, Loads db receipt job scan ∧
        (save h db (projectedScan h wall db job.job receipt scan)).1 = .ok () := by
  constructor
  · intro ho
    cases hp : projectScannerWorkerResult h wall db receipt with
    | mk res db' =>
      rw [hp] at ho
      rcases project_cases hp with ⟨e, rfl, -⟩ | ⟨job, scan, hl, -, hs⟩
      · cases ho
      · exact ⟨job, scan, hl, by rw [hs]⟩
  · rintro ⟨job, scan, ⟨hj, hsc⟩, ho⟩
    unfold projectScannerWorkerResult
    rw [hj]
    simp only
    rw [hsc]
    simp only
    cases hs : save h db (projectedScan h wall db job.job receipt scan) with
    | mk res db' =>
      rw [hs] at ho
      subst ho
      rfl

theorem save_worker (h : Host) (db : DB) (scan : Scan) : (save h db scan).2.worker = db.worker := by
  cases hs : save h db scan with
  | mk res db' =>
    rcases save_cases hs with ⟨e, -, rfl⟩ | ⟨-, -, a, -, rfl⟩ <;> rfl

theorem project_worker (h : Host) (wall : ServiceObservation → Time) (db : DB) (rc : WorkerJobResultReceipt) :
    (projectScannerWorkerResult h wall db rc).2.worker = db.worker := by
  cases hp : projectScannerWorkerResult h wall db rc with
  | mk res db' =>
    rcases project_cases hp with ⟨e, -, -, rfl⟩ | ⟨job, scan, -, -, hs⟩
    · rfl
    · have := save_worker h db (projectedScan h wall db job.job rc scan)
      rw [hs] at this
      exact this

/-! ## Which evidence can be projected -/

/-- The evidence of a result can be saved as the scan's: observations and
findings have identifiers of their own, over all batches and all scans; the
findings' statuses can be stored; no CVE covers an observation twice; and the
provenance rows are free. -/
structure Projectable (h : Host) (db : DB) (receipt : WorkerJobResultReceipt) (scanID : String) : Prop where
  observationKeys : Keyed ServiceObservation.id (evidenceObservations db.worker receipt.jobID)
  observationsFree : ∀ o ∈ evidenceObservations db.worker receipt.jobID, ∀ r ∈ db.scan.observations,
    r.scanID ≠ scanID → r.observation.id ≠ o.id
  findingStatuses : ∀ f ∈ evidenceFindings db.worker receipt.jobID,
    findingStatusAllowed (defaultFindingStatus f.status)
  findingKeys : Keyed Finding.id (evidenceFindings db.worker receipt.jobID)
  findingsFree : ∀ f ∈ evidenceFindings db.worker receipt.jobID, ∀ r ∈ db.scan.findings,
    r.scanID ≠ scanID → r.finding.id ≠ f.id
  matchedOnce : ∀ o ∈ evidenceObservations db.worker receipt.jobID, MatchedOnce h db.scan o
  provenance : receipt.outcome = .succeeded → ∀ o ∈ evidenceObservations db.worker receipt.jobID,
    EvidenceFree db.scan.asset.evidence (scannerEvidenceSourceID db.worker scanID) o.id

/-- What the tables hold in every run: sound inventory and CVE tables, scans
that passed the column checks, and checkpoints under their key. -/
structure StoreInv (db : DB) : Prop where
  asset : AssetInv db.scan.asset
  cve : CVEInv db.scan
  scans : ∀ r ∈ db.scan.scans, rateLimitAllowed r.rateLimitPerSecond ∧
    ∀ p ∈ r.ports, WorkerEvidence.portAllowed p
  checkpoints : Keyed CheckpointRow.key db.worker.checkpoints

theorem keyed_workerScanCheckpoints {w : WorkerTables} (hk : Keyed CheckpointRow.key w.checkpoints)
    (jid : String) : Keyed checkpointKey (workerScanCheckpoints (checkpointsOf sqlite w jid)) := by
  unfold Keyed workerScanCheckpoints checkpointsOf
  rw [map_map]
  refine (List.Perm.nodup_iff ((perm_insertionSort _ _).map _)).mpr ?_
  rw [map_map]
  -- rows of one job that agree on address and port agree on the key
  refine List.Nodup.map_on ?_ ((List.Nodup.of_map _ hk).filter _)
  intro a ha b hb he
  have hj := of_decide_eq_true (mem_filter.mp ha).2
  have hjb := of_decide_eq_true (mem_filter.mp hb).2
  refine hk.eq_of_key (mem_filter.mp ha).1 (mem_filter.mp hb).1 ?_
  unfold CheckpointRow.key
  rw [hj, hjb]
  exact congrArg _ he

theorem mem_scans_of_get {t : ScanTables} {id : String} {scan : Scan} (hg : get t id = .ok scan) :
    ∃ r ∈ t.scans, r.id = id ∧ scan = loadScan t r := by
  unfold ScanStore.get at hg
  split at hg
  · cases hg
  rename_i r hr
  cases hg
  have hi := find?_some hr
  exact ⟨r, mem_of_find?_eq_some hr, of_decide_eq_true hi, rfl⟩

theorem projectedScan_status (h : Host) (wall : ServiceObservation → Time) (db : DB) (job : WorkerJob)
    (rc : WorkerJobResultReceipt) (scan : Scan) :
    (projectedScan h wall db job rc scan).status = .completed ↔ rc.outcome = .succeeded := by
  change (projectedScanOutcome rc.outcome).1 = .completed ↔ _
  cases rc.outcome <;> simp [projectedScanOutcome]

theorem fits_projected_iff (hd : StoreInv db) {job : SignedWorkerJob} {scan : Scan}
    (hl : Loads db receipt job scan) :
    (Fits db.scan (projectedScan h wall db job.job receipt scan) ∧
      ProvenanceFree db (projectedScan h wall db job.job receipt scan)) ↔
    Projectable h db receipt job.job.scanID := by
  obtain ⟨r, hr, hri, rfl⟩ := mem_scans_of_get hl.2
  generalize hs : projectedScan h wall db job.job receipt (loadScan db.scan r) = s
  have hi : s.id = job.job.scanID := by
    rw [← hs]
    exact hri
  have ho : s.observations = evidenceObservations db.worker receipt.jobID := by
    rw [← hs]
    rfl
  have hf : s.findings = evidenceFindings db.worker receipt.jobID := by
    rw [← hs]
    rfl
  have hst : s.status = .completed ↔ receipt.outcome = .succeeded := by
    rw [← hs]
    exact projectedScan_status h wall db job.job receipt _
  let os := (evidenceObservations db.worker receipt.jobID).map fun o => (o, wall o)
  have hon : (∀ p ∈ os, MatchedOnce h db.scan p.1) ↔
      ∀ o ∈ evidenceObservations db.worker receipt.jobID, MatchedOnce h db.scan o := by
    simp [os]
  have hfs : s.observations = os.map Prod.fst := by
    rw [ho, map_map]
    exact (map_id _).symm
  have hmat : s.cveMatches = matchAll h db.scan os := by
    rw [← hs]
    simp [os, matchAll, projectedScan, matchScannerWorkerObservations, flatMap_map]
  rw [fits_matched_iff hd.cve hfs hmat, hon]
  constructor
  · rintro ⟨⟨hfi, hma⟩, hfr⟩
    refine ⟨ho ▸ hfi.observationKeys, ?_, hf ▸ hfi.findingStatuses, hf ▸ hfi.findingKeys, ?_, hma, ?_⟩
    · rw [← hi, ← ho]
      exact hfi.observationsFree
    · rw [← hi, ← hf]
      exact hfi.findingsFree
    · intro hou
      rw [← hi, ← ho]
      exact hfr (hst.mpr hou)
  · intro hp
    refine ⟨⟨⟨?_, ?_, ho ▸ hp.observationKeys, ?_, hf ▸ hp.findingStatuses, hf ▸ hp.findingKeys, ?_,
      nodup_nil, fun m hm => (not_mem_nil hm).elim, ?_⟩, hp.matchedOnce⟩, ?_⟩
    · rw [← hs]
      exact (hd.scans r hr).1
    · rw [← hs]
      exact (hd.scans r hr).2
    · change ∀ o ∈ s.observations, ∀ x ∈ db.scan.observations, x.scanID ≠ s.id → _
      rw [ho, hi]
      exact hp.observationsFree
    · change ∀ f ∈ s.findings, ∀ x ∈ db.scan.findings, x.scanID ≠ s.id → _
      rw [hf, hi]
      exact hp.findingsFree
    · rw [← hs]
      exact keyed_workerScanCheckpoints hd.checkpoints _
    · intro hc
      rw [hi, ho]
      exact hp.provenance (hst.mp hc)

/-- **When a projection succeeds**: the job can be read, its scan is stored,
and the evidence is projectable. -/
theorem project_ok_iff (hd : StoreInv db) (h : Host) (wall : ServiceObservation → Time)
    (rc : WorkerJobResultReceipt) :
    (projectScannerWorkerResult h wall db rc).1 = .ok () ↔
      ∃ job scan, Loads db rc job scan ∧ Projectable h db rc job.job.scanID := by
  rw [project_ok_iff_save]
  refine exists_congr fun job => exists_congr fun scan => and_congr_right fun hl => ?_
  rw [save_ok_iff hd.asset, fits_projected_iff hd hl]

/-! ## The tables stay sound -/

theorem storeInv_empty (wks : List ScannerWorker) (on : Bool) : StoreInv (emptyTables wks on) := by
  refine ⟨⟨?_, ?_, ?_, ?_⟩, ⟨?_, ?_⟩, ?_, ?_⟩ <;> simp [emptyTables, Keyed]

/-- Calls that touch neither scan tables nor checkpoints keep them sound. -/
theorem StoreInv.frame (hd : StoreInv db) (hs : db'.scan = db.scan)
    (hc : db'.worker.checkpoints = db.worker.checkpoints) : StoreInv db' :=
  ⟨hs ▸ hd.asset, hs ▸ hd.cve, hs ▸ hd.scans, hc ▸ hd.checkpoints⟩

theorem storeInv_save (hd : StoreInv db) (h : Host) (scan : Scan) : StoreInv (save h db scan).2 := by
  have ha := save_assetInv hd.asset h scan
  cases hs : save h db scan with
  | mk res db' =>
    rw [hs] at ha
    rcases save_cases hs with ⟨e, -, rfl⟩ | ⟨-, hf, a, -, rfl⟩
    · exact hd
    refine ⟨ha, ⟨hd.cve.keyed, hd.cve.refs⟩, fun r hr => ?_, hd.checkpoints⟩
    rcases mem_append.mp hr with hr | hr
    · exact hd.scans r (mem_filter.mp hr).1
    · rw [mem_singleton.mp hr]
      exact ⟨hf.rate, hf.ports⟩

theorem storeInv_project (hd : StoreInv db) (h : Host) (wall : ServiceObservation → Time)
    (rc : WorkerJobResultReceipt) : StoreInv (projectScannerWorkerResult h wall db rc).2 := by
  cases hp : projectScannerWorkerResult h wall db rc with
  | mk res db' =>
    rcases project_cases hp with ⟨e, -, -, rfl⟩ | ⟨job, scan, -, -, hs⟩
    · exact hd
    · have := storeInv_save hd h (projectedScan h wall db job.job rc scan)
      rwa [hs] at this

theorem storeInv_quarantine (hd : StoreInv db) (wid : String) (now : Time) :
    StoreInv (quarantineRepeatedWorkerJobs sqlite db wid now) := by
  refine ⟨hd.asset, ⟨hd.cve.keyed, hd.cve.refs⟩, fun r hr => ?_, hd.checkpoints⟩
  obtain ⟨r0, hr0, rfl⟩ := mem_updateWhere.mp hr
  split <;> exact hd.scans r0 hr0

/-! ## Quarantine and the stored status -/

/-- The dead letters after a quarantine. -/
def lettersAfter (db : DB) (workerID : String) (now : Time) : List DeadLetterRow :=
  insertIgnore DeadLetterRow.jobID db.worker.deadLetters
    (newDeadLetters sqlite db.worker.jobs workerID (sqlite.bind now))

/-- The scan has a dead letter of the worker and of this moment. -/
def letterNow (db : DB) (workerID : String) (now : Time) (scanID : String) : Bool :=
  (lettersAfter db workerID now).any fun l =>
    l.scanID = scanID && l.workerID = workerID && sqlite.eq l.quarantinedAt (sqlite.bind now)

theorem storedStatus_quarantine (db : DB) (wid : String) (now : Time) (id : String) :
    storedStatus (quarantineRepeatedWorkerJobs sqlite db wid now).scan id =
      (storedStatus db.scan id).map fun st =>
        if letterNow db wid now id && st.active then .failed else st := by
  have hfi := find?_updateWhere ScanRow.id (p := fun s => letterNow db wid now s.id && s.status.active)
    (f := fun s => { s with
      status := .failed, error := workerLeaseFailureReason, completedAt := some (sqlite.bind now) })
    (fun _ _ => rfl) db.scan.scans id
  unfold storedStatus
  refine (congrArg (Option.map ScanRow.status) hfi).trans ?_
  cases hf : db.scan.scans.find? (fun s => s.id = id) with
  | none => rfl
  | some s =>
    have hs := find?_some hf
    rw [← of_decide_eq_true hs]
    simp only [Option.map_some]
    split <;> rfl

end

end Mossward.L2.Projection
