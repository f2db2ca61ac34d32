import Mossward.L2Store.FindingWorkflow
import Mossward.L3Protocol.SqliteServer

/-!
# Retries and analysts' work

A worker that missed the answer to its report sends the same receipt again,
maybe long after analysts have begun to work on the findings. The retry
projects the result once more, and the projection writes the findings as the
evidence has them.

Results: `retry_kept_iff`, `analyst_work_kept_iff`.
-/
namespace Mossward.L3.AnalystWork

open Table Run L1.Rfc3339 Model L2.Schema
open L2.WorkerJob L2.WorkerEvidence L2.Intelligence L2.ScanStore
open L2.FindingWorkflow L2.Projection L3.SqliteServer

/-- Every finding of the scan is still there with its status and assignee, and
so is every exception of it. -/
def WorkKept (db db' : DB) (scanID : String) : Prop :=
  ∀ r ∈ db.scan.findings, r.scanID = scanID →
    (∃ r' ∈ db'.scan.findings, r'.scanID = scanID ∧ r'.finding.id = r.finding.id ∧
      r'.finding.status = r.finding.status ∧ r'.finding.assignedTo = r.finding.assignedTo) ∧
    ∀ e ∈ db.scan.exceptions, e.findingID = r.finding.id → e ∈ db'.scan.exceptions

/-- Every finding of the scan is as the job's evidence reported it, in status
and assignee, and has no exception. -/
def AsReported (db : DB) (jobID scanID : String) : Prop :=
  ∀ r ∈ db.scan.findings, r.scanID = scanID →
    (∃ f ∈ evidenceFindings db.worker jobID, f.id = r.finding.id ∧
      defaultFindingStatus f.status = r.finding.status ∧ f.assignedTo = r.finding.assignedTo) ∧
    ∀ e ∈ db.scan.exceptions, e.findingID ≠ r.finding.id

instance (db : DB) (jobID scanID : String) : Decidable (AsReported db jobID scanID) := by
  unfold AsReported
  infer_instance

section
variable {h : Host} {wall : ServiceObservation → Time} {db db' : DB} {receipt : WorkerJobResultReceipt}

theorem WorkKept.refl (db : DB) (scanID : String) : WorkKept db db scanID :=
  fun r hr hs => ⟨⟨r, hr, hs, rfl, rfl, rfl⟩, fun _ he _ => he⟩

variable {job : SignedWorkerJob}

theorem projected_findings {scan : Scan} (hl : Loads db receipt job scan)
    (hs : save h db (projectedScan h wall db job.job receipt scan) = (.ok (), db')) (r : FindingRow) :
    r ∈ db'.scan.findings ∧ r.scanID = job.job.scanID ↔ ∃ f ∈ evidenceFindings db.worker receipt.jobID,
        r = ⟨job.job.scanID, { f with status := defaultFindingStatus f.status }⟩ := by
  have hi : (projectedScan h wall db job.job receipt scan).id = job.job.scanID := (get_status hl.2).1
  rcases save_cases hs with ⟨e, he, -⟩ | ⟨-, -, a, -, rfl⟩
  · cases he
  refine (and_congr_left fun _ => mem_findings_replaced).trans ?_
  rw [hi]
  constructor
  · rintro ⟨⟨-, hn⟩ | ⟨f, hf, rfl⟩, hsc⟩
    · exact absurd hsc hn
    · exact ⟨f, hf, by rw [← hi]; rfl⟩
  · rintro ⟨f, hf, rfl⟩
    exact ⟨.inr ⟨f, hf, by rw [← hi]; rfl⟩, rfl⟩

theorem projected_kept_iff {scan : Scan} (hl : Loads db receipt job scan)
    (hs : save h db (projectedScan h wall db job.job receipt scan) = (.ok (), db')) :
    WorkKept db db' job.job.scanID ↔ AsReported db receipt.jobID job.job.scanID := by
  have hi : (projectedScan h wall db job.job receipt scan).id = job.job.scanID := (get_status hl.2).1
  refine forall₂_congr fun r hr => forall_congr' fun hsc => and_congr ?_ ?_
  · constructor
    · rintro ⟨r', hr', hs', hri, hst, ht⟩
      obtain ⟨f, hf, rfl⟩ := (projected_findings hl hs r').mp ⟨hr', hs'⟩
      exact ⟨f, hf, hri, hst, ht⟩
    · rintro ⟨f, hf, hri, hst, ht⟩
      obtain ⟨hm, hs'⟩ := (projected_findings hl hs _).mpr ⟨f, hf, rfl⟩
      exact ⟨_, hm, hs', hri, hst, ht⟩
  · exact exceptions_kept_iff hs hr (hsc.trans hi.symm)

/-- A retry whose projection succeeds keeps analysts' work exactly when there
is none; one whose projection fails changes nothing. -/
theorem retry_kept_iff (hd : StoreInv db) {tok : TokenHash} {now : Time}
    (hr : Sqlite.acceptResult db receipt tok now = (.ok .retry, db))
    (hj : Sqlite.scannerWorkerJob db receipt.jobID = .ok job) :
    WorkKept db (completeScannerWorkerJob h wall db receipt tok now).2 job.job.scanID ↔
      ((∃ scan, Loads db receipt job scan) → Projectable h db receipt job.job.scanID →
        AsReported db receipt.jobID job.job.scanID) := by
  have hc : completeScannerWorkerJob h wall db receipt tok now =
      retried (projectScannerWorkerResult h wall db receipt) := by
    rcases complete_cases h wall db receipt tok now with ⟨e, ha, -⟩ | ⟨-, he⟩ | ⟨db', ha, -⟩
    · rw [hr] at ha
      cases ha
    · exact he
    · have hac := ha.result
      rw [hr] at hac
      cases hac
  rw [hc]
  have hok := project_ok_iff hd h wall receipt
  cases hp : projectScannerWorkerResult h wall db receipt with
  | mk res db' =>
    rw [hp] at hok
    rcases project_cases hp with ⟨e, rfl, hn, rfl⟩ | ⟨job', scan, hl, rfl, hs⟩
    · refine iff_of_true (.refl _ _) ?_
      rintro ⟨scan, hl⟩ hpr
      cases hok.mpr ⟨job, scan, hl, hpr⟩
    obtain ⟨job1, scan1, hl1, hpr⟩ := hok.mp rfl
    have hsa := hl.1
    have hsa1 := hl1.1
    rw [hj] at hsa hsa1
    cases hsa
    cases hsa1
    rw [retried, projected_kept_iff hl hs]
    exact ⟨fun hk _ _ => hk, fun hk => hk ⟨scan, hl⟩ hpr⟩

end

/-- **Analysts' work.** A repeated receipt keeps statuses, assignees and
exceptions of its scan exactly when, if the scan loads and the evidence is
projectable, the findings are as reported and without exceptions; and a save
keeps the exceptions of a finding that the scan had and still has exactly when
there are none. -/
theorem analyst_work_kept_iff (h : Host) (db : DB) :
    (∀ (receipt : WorkerJobResultReceipt) (tokenHash : TokenHash) (now : Time)
        (wall : ServiceObservation → Time) (job : SignedWorkerJob),
      StoreInv db → Sqlite.acceptResult db receipt tokenHash now = (.ok .retry, db) →
      Sqlite.scannerWorkerJob db receipt.jobID = .ok job →
      (WorkKept db (completeScannerWorkerJob h wall db receipt tokenHash now).2 job.job.scanID ↔
        ((∃ scan, Loads db receipt job scan) → Projectable h db receipt job.job.scanID →
          AsReported db receipt.jobID job.job.scanID))) ∧
    ∀ (scan : Scan) (db' : DB), save h db scan = (.ok (), db') →
      ∀ r ∈ db.scan.findings, r.scanID = scan.id → (∃ f ∈ scan.findings, f.id = r.finding.id) →
        ((∀ e ∈ db.scan.exceptions, e.findingID = r.finding.id → e ∈ db'.scan.exceptions) ↔
          ∀ e ∈ db.scan.exceptions, e.findingID ≠ r.finding.id) := by
  constructor
  · intro receipt tokenHash now wall job hd hre hj
    exact retry_kept_iff hd hre hj
  · intro scan db' hs r hr hsc _
    exact exceptions_kept_iff hs hr hsc

open Small

/-- A scan of one address is launched, leased, reported with one finding, and
completed. -/
def findingRun : List Op :=
  [.launch (scan "s" ["10.0.0.1"] [22]) "" ⟨clock 0, clock 0, clock 0⟩,
   .lease "worker-1" [1] (clock 0) (clock 60),
   .submit (reporting (batch "batch-1" "scan-s" "worker-1" "s" 1 true
     [{ address := "10.0.0.1", port := 22, completedAt := clock 10 }]) []
     [finding "finding-1" "10.0.0.1" 22]) (clock 20),
   .complete (successOf "s") [1] (clock 31) fun _ => clock 31]

def reportedFinding : DB :=
  run (step server) (emptyTables [worker "worker-1"] true) findingRun

/-- An analyst resolves the finding and asks for an exception. -/
def workedFinding : DB :=
  let users : Users := { active := fun _ => true, stored := fun _ => true }
  let db := (updateFindingWorkflow users reportedFinding "finding-1"
    { status := .resolved, assignedTo := "analyst" } (clock 100)).2
  (saveFindingException users db
    { id := "exception-1", findingID := "finding-1", reason := "accepted", status := .pending
      requestedBy := "analyst", approvedBy := "", createdAt := clock 110, expiresAt := none
      reminderDays := 30, lastReminderAt := none }).2

/-- The worker's report once more. -/
def repeated (db : DB) : Result Unit :=
  completeScannerWorkerJob server.host (fun _ => clock 200) db (successOf "s") [1]
    (clock 200)

/-- The scan with its finding, as another component would save it. -/
def rescanned : Scan :=
  { scan "s" ["10.0.0.1"] [22] with findings := [finding "finding-1" "10.0.0.1" 22] }

/-- A retry before any analyst's work keeps the findings; a save after it does
not keep the exception. -/
theorem analyst_work_kept_untouched : WorkKept reportedFinding (repeated reportedFinding).2 "s" ∧
    ∀ r ∈ workedFinding.scan.findings, ¬ ∀ e ∈ workedFinding.scan.exceptions,
      e.findingID = r.finding.id → e ∈ (save server.host workedFinding rescanned).2.scan.exceptions := by
  constructor
  · cases hj : Sqlite.scannerWorkerJob reportedFinding (successOf "s").jobID with
    | error e =>
      have ho : (Sqlite.scannerWorkerJob reportedFinding (successOf "s").jobID).toOption.isSome := by
        decide +kernel
      rw [hj] at ho
      cases ho
    | ok job =>
      have hs : (Sqlite.scannerWorkerJob reportedFinding (successOf "s").jobID).toOption.map
          (·.job.scanID) = some "s" := by decide +kernel
      rw [hj] at hs
      have hi : job.job.scanID = "s" := Option.some.inj hs
      have hre : Sqlite.acceptResult reportedFinding (successOf "s") [1] (clock 200) =
          (.ok .retry, reportedFinding) := by decide +kernel
      have hk := (analyst_work_kept_iff server.host reportedFinding).1 (successOf "s") [1]
        (clock 200) (fun _ => clock 200) job (storeInv_run server (storeInv_empty _ _) findingRun) hre hj
      rw [hi] at hk
      exact hk.mpr fun _ _ => by decide +kernel
  · intro r hr
    have hsa : (save server.host workedFinding rescanned).1 = .ok () := by decide +kernel
    have ha : ∀ r ∈ workedFinding.scan.findings, r.scanID = rescanned.id ∧
        (∃ f ∈ rescanned.findings, f.id = r.finding.id) ∧
        ∃ e ∈ workedFinding.scan.exceptions, e.findingID = r.finding.id := by decide +kernel
    obtain ⟨hs, hst, e, he, hi⟩ := ha r hr
    rw [(analyst_work_kept_iff server.host workedFinding).2 rescanned _ (Prod.ext hsa rfl) r hr hs hst]
    exact fun hn => hn e he hi

/-- The repeated receipt is recognised, and yet reopens the resolved finding,
takes it from its analyst and deletes its exception; so does a save. -/
theorem analyst_work_lost :
    (Sqlite.acceptResult workedFinding (successOf "s") [1] (clock 200)).1 = .ok .retry ∧
    (repeated workedFinding).1 = .error .workerResultAlreadyAccepted ∧
    (workedFinding.scan.findings.map fun r =>
        (r.finding.id, r.finding.status, r.finding.assignedTo)) = [("finding-1", .resolved, "analyst")] ∧
    ((repeated workedFinding).2.scan.findings.map fun r =>
        (r.finding.id, r.finding.status, r.finding.assignedTo)) = [("finding-1", .open, "")] ∧
    (workedFinding.scan.exceptions.map (·.findingID)) = ["finding-1"] ∧
    (repeated workedFinding).2.scan.exceptions = [] ∧
    (save server.host workedFinding rescanned).1 = .ok () ∧
    (rescanned.findings.map (·.id)) = ["finding-1"] ∧
    (save server.host workedFinding rescanned).2.scan.exceptions = [] := by
  decide +kernel

end Mossward.L3.AnalystWork
