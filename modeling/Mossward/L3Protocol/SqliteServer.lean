import Mossward.L3Protocol.EvidenceValidate
import Mossward.L3Protocol.JobDispatch

/-!
# The server on SQLite

The calls of the control plane that touch worker jobs and their scans, each a
step of one machine over the database: launching a remote scan, job creation,
leases, evidence, results, reassignment, and the saves and CVE updates of
other components. Times are whatever the callers pass.

Results:
* `storeInv_run`: the inventory, the CVE tables, the stored scans and the
  checkpoints stay sound in every run.
* `final_jobs_kept`, `complete_cases`, `step_effect`.
-/
namespace Mossward.L3.SqliteServer

open Table Run L1.Rfc3339 Model L2.Schema
open L2.WorkerJob L2.WorkerEvidence L2.Intelligence L2.Asset
open L2.ScanStore L2.Projection L3.JobDispatch

/-! ## The machine -/

structure Server where
  host : Host
  key : Key
  /-- The length of a batch's JSON text. -/
  encodedSize : WorkerEvidenceBatch → Nat

inductive SubmitError
  | unavailable (cause : StoreError)
  | invalid (text : String)
  | store (cause : StoreError)
deriving DecidableEq, Repr

/-- A submission of evidence, `internal/agentidentity/worker_evidence.go:18-54`:
the stored job is read, the batch is validated against it, and then recorded.
Certificate and signature are checked before; they only refuse more. -/
def submitEvidence (S : Server) (db : DB) (envelope : SignedWorkerEvidenceBatch) (now : Time) :
    Except SubmitError Unit × DB :=
  match Sqlite.scannerWorkerJob db envelope.batch.jobID with
  | .error e => (.error (.unavailable e), db)
  | .ok job =>
    match EvidenceValidate.validate S.encodedSize envelope.batch job.job now with
    | .error text => (.error (.invalid text), db)
    | .ok () =>
      match Sqlite.recordScannerWorkerEvidenceBatch db envelope now with
      | (.error e, db) => (.error (.store e), db)
      | (.ok (), db) => (.ok (), db)

inductive Op
  | create (envelope : SignedWorkerJob) (createdAt : Time)
  | launch (scan : Scan) (siteID : String) (clock : LaunchClock)
  | saveScan (scan : Scan)
  | upsertCVEs (records : List CVERecord)
  | lease (workerID : String) (tokenHash : TokenHash) (now leaseExpiresAt : Time)
  | renew (workerID jobID : String) (tokenHash : TokenHash) (now requestedExpiry : Time)
  | submit (envelope : SignedWorkerEvidenceBatch) (now : Time)
  | complete (receipt : WorkerJobResultReceipt) (tokenHash : TokenHash) (now : Time)
      (wall : ServiceObservation → Time)
  | resumeCandidate (jobID : String) (now : Time)
  | reassignExpired (jobID : String) (now : Time)

/-- The database after a call, whatever the call returned. -/
def step (S : Server) (db : DB) : Op → DB
  | .create envelope createdAt => (Sqlite.createScannerWorkerJob db envelope createdAt).2
  | .launch scan siteID clock => (launchRemote S.host S.key db scan siteID clock).2
  | .saveScan scan => (save S.host db scan).2
  | .upsertCVEs records => upsertCVEs S.host db records
  | .lease workerID tokenHash now leaseExpiresAt =>
    (Sqlite.leaseScannerWorkerJob db workerID tokenHash now leaseExpiresAt).2
  | .renew workerID jobID tokenHash now requestedExpiry =>
    (Sqlite.renewScannerWorkerJobLease db workerID jobID tokenHash now requestedExpiry).2
  | .submit envelope now => (submitEvidence S db envelope now).2
  | .complete receipt tokenHash now wall =>
    (completeScannerWorkerJob S.host wall db receipt tokenHash now).2
  | .resumeCandidate jobID now => (Sqlite.scannerWorkerJobResumeCandidate db jobID now).2
  | .reassignExpired jobID now => (reassignExpired S.key db jobID now).2

/-! ## What a call does to the worker tables -/

/-- The token a call hands out, the receipt it may accept (a success only with
a full matrix of checkpoints), and whether it signs envelopes anew. -/
def Op.grants (db : DB) : Op → Grant
  | .lease _ tokenHash _ _ => .ofToken tokenHash
  | .complete receipt _ _ _ =>
    { Grant.none with receipt := fun r => r = receipt ∧ (receipt.outcome = .succeeded →
        Sqlite.workerJobCheckpointsComplete db.worker receipt.jobID = .ok true) }
  | .reassignExpired _ _ => { Grant.none with envelope := fun _ => True }
  | _ => .none

/-- Rows change by row transitions, or a job is added, or a validated batch is
recorded. -/
inductive WorkerEffect (S : Server) (db db' : DB) (op : Op) : Prop
  | rows (hrows : Evolves (JobTrans sqlite (op.grants db)) db.worker.jobs db'.worker.jobs)
      (hlog : SameLog db db')
  | added (envelope : SignedWorkerJob) (createdAt : Time)
      (hnew : ∀ r ∈ db.worker.jobs, r.id ≠ envelope.job.id)
      (hjobs : db'.worker.jobs = db.worker.jobs ++ [newJobRow sqlite envelope createdAt])
      (hlog : SameLog db db')
  | recorded (envelope : SignedWorkerEvidenceBatch) (now : Time) (job : SignedWorkerJob)
      (hop : op = .submit envelope now)
      (hjob : Sqlite.scannerWorkerJob db envelope.batch.jobID = .ok job)
      (hval : EvidenceValidate.validate S.encodedSize envelope.batch job.job now = .ok ())
      (hrec : Recorded sqlite db db' envelope now)

section
variable {S : Server} {db db' : DB}

theorem WorkerEffect.unchanged {op : Op} (h : db'.worker = db.worker) : WorkerEffect S db db' op :=
  .rows (by rw [h]; exact .refl _ _) (by rw [SameLog, h]; exact ⟨rfl, rfl⟩)

/-- What a retry returns, given how its projection ended. -/
def retried : Result Unit → Result Unit
  | (.error e, db) => (.error e, db)
  | (.ok (), db) => (.error .workerResultAlreadyAccepted, db)

/-- The first transaction of a completion accepted the receipt: one leased job
met it and is now completed, a success only with a full matrix of checkpoints. -/
structure Accepts (db : DB) (receipt : WorkerJobResultReceipt) (tokenHash : TokenHash) (now : Time)
    (db' : DB) : Prop where
  result : Sqlite.acceptResult db receipt tokenHash now = (.ok .accepted, db')
  complete : receipt.outcome = .succeeded →
    Sqlite.workerJobCheckpointsComplete db.worker receipt.jobID = .ok true
  one : db.worker.jobs.countP (completable sqlite db.worker receipt tokenHash (sqlite.bind now)) = 1
  jobs : db' = setJobs db (updateWhere (completable sqlite db.worker receipt tokenHash (sqlite.bind now))
    (completedAs sqlite receipt) db.worker.jobs)

theorem complete_cases (h : Host) (wall : ServiceObservation → Time) (db : DB)
    (rc : WorkerJobResultReceipt) (tok : TokenHash) (now : Time) :
    (∃ e, Sqlite.acceptResult db rc tok now = (.error e, db) ∧
      completeScannerWorkerJob h wall db rc tok now = (.error e, db)) ∨
    (Sqlite.acceptResult db rc tok now = (.ok .retry, db) ∧ completeScannerWorkerJob h wall db rc tok now =
        retried (projectScannerWorkerResult h wall db rc)) ∨
    ∃ db', Accepts db rc tok now db' ∧ completeScannerWorkerJob h wall db rc tok now =
        projectScannerWorkerResult h wall db' rc := by
  unfold completeScannerWorkerJob
  cases ha : Sqlite.acceptResult db rc tok now with
  | mk res db' =>
    have hca : (∃ e, res = .error e ∧ db' = db) ∨ ((rc.outcome = .succeeded →
            Sqlite.workerJobCheckpointsComplete db.worker rc.jobID = .ok true) ∧
          accept sqlite sqlite.eq db rc tok now = (res, db')) := by
      have h := ha
      unfold Sqlite.acceptResult at h
      split at h
      · split at h
        · cases h
          exact .inl ⟨_, rfl, rfl⟩
        · cases h
          exact .inl ⟨_, rfl, rfl⟩
        · rename_i hc
          exact .inr ⟨fun _ => hc, h⟩
      · rename_i ho
        exact .inr ⟨fun hs => absurd hs ho, h⟩
    rcases hca with ⟨e, rfl, rfl⟩ | ⟨hc, hac⟩
    · exact .inl ⟨e, rfl, rfl⟩
    rcases accept_cases hac with ⟨e, rfl, rfl⟩ | ⟨rfl, rfl, -⟩ | ⟨rfl, -, hon, hj⟩
    · exact .inl ⟨e, rfl, rfl⟩
    · refine .inr (.inl ⟨rfl, ?_⟩)
      simp only [completeWith]
      cases projectScannerWorkerResult h wall db' rc with
      | mk res2 db2 => cases res2 <;> rfl
    · exact .inr (.inr ⟨db', ⟨ha, hc, hon, hj⟩, rfl⟩)

theorem Accepts.storeInv {rc : WorkerJobResultReceipt} {tok : TokenHash} {now : Time}
    (h : Accepts db rc tok now db') (hd : StoreInv db) : StoreInv db' := by
  rw [h.jobs]
  exact hd.frame rfl rfl

theorem retried_snd (x : Result Unit) : (retried x).2 = x.2 := by
  unfold retried
  split <;> rfl

theorem submit_cases {ev : SignedWorkerEvidenceBatch} {now : Time} {res : Except SubmitError Unit}
    (h : submitEvidence S db ev now = (res, db')) :
    (∃ e, res = .error e ∧ db' = db) ∨
    ∃ job, Sqlite.scannerWorkerJob db ev.batch.jobID = .ok job ∧
      EvidenceValidate.validate S.encodedSize ev.batch job.job now = .ok () ∧
      res = .ok () ∧ Recorded sqlite db db' ev now := by
  unfold submitEvidence at h
  split at h
  · cases h
    exact .inl ⟨_, rfl, rfl⟩
  rename_i job hj
  split at h
  · cases h
    exact .inl ⟨_, rfl, rfl⟩
  rename_i hv
  split at h
  · rename_i e db1 hr
    cases h
    rcases Sqlite.record_cases hr with ⟨e', -, rfl⟩ | ⟨ho, -⟩
    · exact .inl ⟨_, rfl, rfl⟩
    · cases ho
  rename_i db1 hr
  cases h
  rcases Sqlite.record_cases hr with ⟨e, he, -⟩ | ⟨-, hr⟩
  · cases he
  · exact .inr ⟨job, hj, hv, rfl, hr⟩

theorem launch_effect (S : Server) (db : DB) (scan : Scan) (sid : String) (clock : LaunchClock) {op : Op} :
    WorkerEffect S db (launchRemote S.host S.key db scan sid clock).2 op := by
  rcases launchRemote_cases S.host S.key db scan sid clock with h | ⟨db1, hs, h⟩
  · rw [h]
    exact .unchanged rfl
  have hw : db1.worker = db.worker := by
    have := save_worker S.host db (queuedScan scan)
    rwa [hs] at this
  rcases h with ⟨ev, -, hn, h⟩ | h
  · rw [hw] at hn
    rw [h]
    refine .added ev clock.dispatch hn ?_ ?_
    · rw [← hw]
      rfl
    · rw [SameLog, ← hw]
      exact ⟨rfl, rfl⟩
  · rw [h]
    exact .unchanged ((save_worker _ _ _).trans hw)

theorem complete_effect (S : Server) (db : DB) (rc : WorkerJobResultReceipt) (tok : TokenHash)
    (now : Time) (wall : ServiceObservation → Time) :
    WorkerEffect S db (completeScannerWorkerJob S.host wall db rc tok now).2 (.complete rc tok now wall) := by
  rcases complete_cases S.host wall db rc tok now with ⟨e, -, h⟩ | ⟨-, h⟩ | ⟨db', ha, h⟩
  · rw [h]
    exact .unchanged rfl
  · rw [h, retried_snd]
    exact .unchanged (project_worker _ _ _ _)
  · rw [h]
    have hw := project_worker S.host wall db' rc
    refine .rows ?_ ?_
    · rw [hw, ha.jobs]
      exact evolves_mono (complete_evolves _) (Grant.ofReceipt_le ⟨rfl, ha.complete⟩)
    · rw [SameLog, hw, ha.jobs]
      exact ⟨rfl, rfl⟩

/-- **What a call does to the worker tables.** -/
theorem step_effect (S : Server) (db : DB) (op : Op) : WorkerEffect S db (step S db op) op := by
  cases op with
  | create ev createdAt =>
    simp only [step]
    cases h : Sqlite.createScannerWorkerJob db ev createdAt with
    | mk res db' =>
      rcases createSqlite_cases h with ⟨e, -, rfl⟩ | ⟨-, hn, rfl⟩
      · exact .unchanged rfl
      · exact .added ev createdAt hn rfl ⟨rfl, rfl⟩
  | launch scan sid clock => exact launch_effect S db scan sid clock
  | saveScan scan => exact .unchanged (save_worker _ _ _)
  | upsertCVEs recs => exact .unchanged rfl
  | lease wid tok now exp =>
    simp only [step]
    cases h : Sqlite.leaseScannerWorkerJob db wid tok now exp with
    | mk res db' =>
      have hm := evolves_mono (maintenance_evolves sqlite db wid now)
        (Grant.none_le (Op.grants db (.lease wid tok now exp)))
      rcases lease_cases h with ⟨e, -, -, rfl⟩ | ⟨-, rfl⟩ | ⟨j, -, -, -, -, rfl⟩
      · exact .unchanged rfl
      · exact .rows hm ⟨rfl, rfl⟩
      · exact .rows (hm.trans (lease_evolves j)) ⟨rfl, rfl⟩
  | renew wid jid tok now exp1 =>
    simp only [step]
    cases h : Sqlite.renewScannerWorkerJobLease db wid jid tok now exp1 with
    | mk res db' =>
      rcases renew_cases h with ⟨e, -, rfl⟩ | ⟨sto, -, -, rfl, -⟩
      · exact .unchanged rfl
      · exact .rows (renew_evolves _) ⟨rfl, rfl⟩
  | submit ev now =>
    simp only [step]
    cases h : submitEvidence S db ev now with
    | mk res db' =>
      rcases submit_cases h with ⟨e, -, rfl⟩ | ⟨job, hjo, hv, -, hre⟩
      · exact .unchanged rfl
      · exact .recorded ev now job rfl hjo hv hre
  | complete rc tok now wall => exact complete_effect S db rc tok now wall
  | resumeCandidate jid now =>
    simp only [step]
    cases h : Sqlite.scannerWorkerJobResumeCandidate db jid now with
    | mk res db' =>
      rcases resumeCandidate_cases h with ⟨e, -, rfl⟩ | ⟨c, -, rfl⟩ | ⟨r, -, -, -, -, -, rfl⟩
      · exact .unchanged rfl
      · exact .unchanged rfl
      · exact .rows (quarantine_evolves _ _ _ _) ⟨rfl, rfl⟩
  | reassignExpired jid now =>
    simp only [step]
    cases h : reassignExpired S.key db jid now with
    | mk res db' =>
      rcases reassignExpired_cases h with ⟨e, -, rfl⟩ | ⟨e, wid, -, rfl⟩ | ⟨c, wk, -, -, -, -, -, hr⟩
      · exact .unchanged rfl
      · exact .rows (evolves_mono (quarantine_evolves _ _ _ _) (Grant.none_le _)) ⟨rfl, rfl⟩
      · rcases reassign_cases hr with ⟨e, he, -⟩ | ⟨-, -, hj, hb, hc, -⟩
        · cases he
        · refine .rows ?_ ⟨hb, hc⟩
          rw [hj]
          exact evolves_mono (reassign_evolves _) (Grant.ofEnvelope_le trivial)

/-! ## The tables stay sound -/

theorem storeInv_complete (hd : StoreInv db) (h : Host) (wall : ServiceObservation → Time)
    (rc : WorkerJobResultReceipt) (tok : TokenHash) (now : Time) :
    StoreInv (completeScannerWorkerJob h wall db rc tok now).2 := by
  rcases complete_cases h wall db rc tok now with ⟨e, -, he⟩ | ⟨-, he⟩ | ⟨db', ha, he⟩
  · rw [he]
    exact hd
  · rw [he, retried_snd]
    exact storeInv_project hd h wall rc
  · rw [he]
    exact storeInv_project (ha.storeInv hd) h wall rc

/-- The calls that may store scans or what belongs to them. -/
def Op.storesScans : Op → Bool
  | .launch .. | .saveScan _ | .upsertCVEs _ | .complete .. => true
  | _ => false

/-- **What the other calls do to the scans**: at most a quarantine fails some. -/
theorem step_scans (S : Server) (db : DB) {op : Op} (ho : op.storesScans = false) :
    (step S db op).scan = db.scan ∨
      ∃ wid now, (step S db op).scan = (quarantineRepeatedWorkerJobs sqlite db wid now).scan := by
  cases op with
  | create ev at1 =>
    simp only [step]
    cases h : Sqlite.createScannerWorkerJob db ev at1 with
    | mk res db' => rcases createSqlite_cases h with ⟨e, -, rfl⟩ | ⟨-, -, rfl⟩ <;> exact .inl rfl
  | lease wid tok now exp1 =>
    simp only [step]
    cases h : Sqlite.leaseScannerWorkerJob db wid tok now exp1 with
    | mk res db' =>
      rcases lease_cases h with ⟨e, -, -, rfl⟩ | ⟨-, rfl⟩ | ⟨j, -, -, -, -, rfl⟩
      · exact .inl rfl
      · exact .inr ⟨wid, now, rfl⟩
      · exact .inr ⟨wid, now, rfl⟩
  | renew wid jid tok now exp =>
    simp only [step]
    cases h : Sqlite.renewScannerWorkerJobLease db wid jid tok now exp with
    | mk res db' => rcases renew_cases h with ⟨e, -, rfl⟩ | ⟨sto, -, -, rfl, -⟩ <;> exact .inl rfl
  | submit ev now =>
    simp only [step]
    cases h : submitEvidence S db ev now with
    | mk res db' => rcases submit_cases h with ⟨e, -, rfl⟩ | ⟨job, -, -, -, -, -, rfl⟩ <;> exact .inl rfl
  | resumeCandidate jid now =>
    simp only [step]
    cases h : Sqlite.scannerWorkerJobResumeCandidate db jid now with
    | mk res db' =>
      rcases resumeCandidate_cases h with ⟨e, -, rfl⟩ | ⟨c, -, rfl⟩ | ⟨r, -, -, -, -, -, rfl⟩
      · exact .inl rfl
      · exact .inl rfl
      · exact .inr ⟨_, now, rfl⟩
  | reassignExpired jid now =>
    simp only [step]
    cases h : reassignExpired S.key db jid now with
    | mk res db' =>
      rcases reassignExpired_cases h with ⟨e, -, rfl⟩ | ⟨e, wid, -, rfl⟩ | ⟨c, wk, -, -, -, -, -, hr⟩
      · exact .inl rfl
      · exact .inr ⟨wid, now, rfl⟩
      · rcases reassign_cases hr with ⟨e, he, -⟩ | ⟨-, -, -, -, -, -, -, -, hs⟩
        · cases he
        · exact .inl hs
  | _ => cases ho

theorem checkpoints_step (S : Server) (hk : Keyed CheckpointRow.key db.worker.checkpoints) (op : Op) :
    Keyed CheckpointRow.key (step S db op).worker.checkpoints := by
  cases step_effect S db op with
  | rows _ hlog => rwa [hlog.2]
  | added _ _ _ _ hlog => rwa [hlog.2]
  | recorded _ _ _ _ _ _ hrec =>
    rw [hrec.2.2]
    exact keyed_insertIgnore hk _

theorem storeInv_scans (hd : StoreInv db) (hk : Keyed CheckpointRow.key db'.worker.checkpoints)
    (hs : db'.scan = db.scan ∨ ∃ wid now, db'.scan = (quarantineRepeatedWorkerJobs sqlite db wid now).scan) :
    StoreInv db' := by
  obtain ⟨db1, hd1, hs1⟩ : ∃ db1, StoreInv db1 ∧ db'.scan = db1.scan := by
    rcases hs with hs | ⟨wid, now, hs⟩
    · exact ⟨db, hd, hs⟩
    · exact ⟨_, storeInv_quarantine hd wid now, hs⟩
  exact ⟨hs1 ▸ hd1.asset, hs1 ▸ hd1.cve, hs1 ▸ hd1.scans, hk⟩

theorem storeInv_step (S : Server) (hd : StoreInv db) (op : Op) : StoreInv (step S db op) := by
  have hk := checkpoints_step S hd.checkpoints op
  cases op with
  | launch scan sid clock =>
    simp only [step]
    rcases launchRemote_cases S.host S.key db scan sid clock with h | ⟨db1, hs, h⟩
    · rwa [h]
    have hd1 : StoreInv db1 := by
      have := storeInv_save hd S.host (queuedScan scan)
      rwa [hs] at this
    rcases h with ⟨ev, -, -, h⟩ | h
    · rw [h]
      exact hd1.frame rfl rfl
    · rw [h]
      exact storeInv_save hd1 _ _
  | saveScan scan => exact storeInv_save hd _ _
  | upsertCVEs recs =>
    have hcv := cveInv_upsertCVEs S.host hd.cve recs
    obtain ⟨hsc, ha⟩ := frame_upsertCVEs S.host db recs
    refine ⟨?_, hcv, ?_, hk⟩
    · simp only [step]
      rw [ha]
      exact hd.asset
    · simp only [step]
      rw [hsc]
      exact hd.scans
  | complete rc tok now wall => exact storeInv_complete hd _ _ _ _ _
  | _ => exact storeInv_scans hd hk (step_scans S db rfl)

theorem storeInv_run (S : Server) (hd : StoreInv db) (ops : List Op) : StoreInv (run (step S) db ops) :=
  run_invariant (I := StoreInv) (fun _ op h => storeInv_step S h op) hd ops

end

/-- The jobs of one database that came to an end are in the other, unchanged. -/
def FinalKept (db db' : DB) : Prop := ∀ r ∈ db.worker.jobs, finalStatus r.status → r ∈ db'.worker.jobs

/-- **A job that came to an end stays as it is**, in every run. -/
theorem final_jobs_kept (S : Server) (db : DB) (ops : List Op) : FinalKept db (run (step S) db ops) := by
  intro r hr hf
  refine run_invariant (I := fun db : DB => r ∈ db.worker.jobs) (fun db op h => ?_) hr ops
  cases step_effect S db op with
  | rows hrows _ => exact final_mem hrows h hf
  | added _ _ _ hjobs _ =>
    rw [hjobs]
    exact List.mem_append_left _ h
  | recorded _ _ _ _ _ _ hrec =>
    rw [hrec.2.2]
    exact h

/-! ## A small server -/

namespace Small

/-- A server whose keys and identifiers are easy to read. -/
def server : Server where
  host := plainHost
  key := plainKey "worker-job signature verification failed"
  encodedSize := fun _ => 0

/-- A scan of one address is launched and leased, and two batches report one
observation each. -/
def evidenceRun (scanID first second : String) : List Op :=
  let report := fun batchID n final id => L2.Schema.Small.reporting
    (L2.Schema.Small.batch (scanID ++ batchID) ("scan-" ++ scanID) "worker-1" scanID n final
      [{ address := "10.0.0.1", port := 22, completedAt := L2.Schema.Small.clock 10 }])
    [L2.Schema.Small.observation id "10.0.0.1" 22] []
  [.launch (L2.Schema.Small.scan scanID ["10.0.0.1"] [22]) ""
    ⟨L2.Schema.Small.clock 0, L2.Schema.Small.clock 0, L2.Schema.Small.clock 0⟩,
   .lease "worker-1" [1] (L2.Schema.Small.clock 0) (L2.Schema.Small.clock 60),
   .submit (report "-1" 1 false first) (L2.Schema.Small.clock 20),
   .submit (report "-2" 2 true second) (L2.Schema.Small.clock 21)]

/-- The report of success that follows. -/
def successOf (scanID : String) : WorkerJobResultReceipt :=
  L2.Schema.Small.receipt ("scan-" ++ scanID) "worker-1" .succeeded

end Small

end Mossward.L3.SqliteServer
