import Mossward.Core.Table
import Mossward.L2Store.Schema

/-!
# Worker jobs: creation, leases, completion, reassignment

A job row goes from `pending` to `leased` and on to one of the three final
statuses; a lapsed lease puts it back to `pending`, for the same worker or for
another one. `LeaseScannerWorkerJob` starts with three bulk statements over
all jobs of the worker (quarantine, expiry, release), which commit even when
no job is left to hand out.

Each statement is defined once, over a `Dialect`; where the stores' functions
differ (creation, completion), each has a body of its own in its namespace.
Every call is one transaction: an error leaves the database as it was, except
where the source commits first.

Results:
* `maintenance_evolves`, `lease_cases`, `renew_cases`, `accept_cases`,
  `resumeCandidate_cases`, `reassign_cases`: what each operation does.
* `JobTrans`.
-/
namespace Mossward.L2.WorkerJob

open Table L1.Rfc3339 Model L2.Schema Bool List

/-! ## Statements -/

def maximumWorkerLeaseAttempts : Nat := 3
def workerLeaseFailureReason : String := "maximum expired lease attempts reached"

/-- Replace the job table. -/
def setJobs (db : DB) (jobs : List JobRow) : DB :=
  { db with worker := { db.worker with jobs := jobs } }

/-- `SET status=s,lease_token_hash=NULL,lease_expires_at=NULL`. -/
def withoutLease (s : WorkerJobStatus) (r : JobRow) : JobRow :=
  { r with status := s, leaseTokenHash := none, leaseExpiresAt := none }

section
variable (D : Dialect)

/-- `status='leased' AND lease_expires_at<=now AND expires_at>now`. -/
def leaseLapsed (now : Time) (r : JobRow) : Bool :=
  r.status = .leased && D.leOpt r.leaseExpiresAt now && D.lt now r.expiresAt

/-- `status='leased' AND lease_token_hash=tokenHash AND lease_expires_at>now
AND expires_at>now`. -/
def leaseHeld (tokenHash : TokenHash) (now : Time) (r : JobRow) : Bool :=
  r.status = .leased && r.leaseTokenHash = some tokenHash && D.gtOpt r.leaseExpiresAt now &&
    D.lt now r.expiresAt

/-- The dead letters that a quarantine of the worker's jobs adds. -/
def newDeadLetters (jobs : List JobRow) (workerID : String) (now : Time) : List DeadLetterRow :=
  (jobs.filter fun r => r.workerID = workerID && leaseLapsed D now r &&
      maximumWorkerLeaseAttempts ≤ r.leaseAttempt).map fun r =>
    { jobID := r.id, scanID := r.scanID, workerID := r.workerID, failureCount := r.leaseAttempt
      reason := workerLeaseFailureReason, quarantinedAt := now }

/-- The scans of the worker's dead letters of this very moment fail. -/
def failQuarantinedScans (letters : List DeadLetterRow) (workerID : String) (now : Time)
    (scans : List ScanRow) : List ScanRow :=
  updateWhere (fun s => letters.any (fun l => l.scanID = s.id && l.workerID = workerID &&
      D.eq l.quarantinedAt now) && s.status.active)
    (fun s => { s with status := .failed, error := workerLeaseFailureReason, completedAt := some now })
    scans

/-- The last statement stops every leased job with a dead letter, of whatever
worker. -/
def stopQuarantinedJobs (letters : List DeadLetterRow) (jobs : List JobRow) : List JobRow :=
  updateWhere (fun r => letters.any (fun l => l.jobID = r.id) && r.status = .leased)
    (withoutLease .canceled) jobs

/-- Mirrors `internal/store/worker_dead_letter.go:17-46` and
`quarantineRepeatedPostgreSQLWorkerJobs`. -/
def quarantineRepeatedWorkerJobs (db : DB) (workerID : String) (now : Time) : DB :=
  let now := D.bind now
  let letters := insertIgnore (·.jobID) db.worker.deadLetters
    (newDeadLetters D db.worker.jobs workerID now)
  { worker := { db.worker with
      deadLetters := letters
      jobs := stopQuarantinedJobs letters db.worker.jobs }
    scan := { db.scan with scans := failQuarantinedScans D letters workerID now db.scan.scans } }

def expireJobs (workerID : String) (now : Time) (jobs : List JobRow) : List JobRow :=
  updateWhere (fun r => r.workerID = workerID && (r.status = .pending || r.status = .leased) &&
    D.le r.expiresAt now) (withoutLease .expired) jobs

def releaseLeases (workerID : String) (now : Time) (jobs : List JobRow) : List JobRow :=
  updateWhere (fun r => r.workerID = workerID && leaseLapsed D now r) (withoutLease .pending) jobs

/-- The three bulk statements at the start of a lease. -/
def leaseMaintenance (db : DB) (workerID : String) (now : Time) : DB :=
  let db := quarantineRepeatedWorkerJobs D db workerID now
  setJobs db (releaseLeases D workerID (D.bind now) (expireJobs D workerID (D.bind now) db.worker.jobs))

/-! ## Lease -/

/-- `Target.UnmarshalJSON` refuses an empty name or address, so an envelope
with such a target is stored but cannot be read back. -/
def decodeWorkerJob (envelope : SignedWorkerJob) : Except StoreError SignedWorkerJob :=
  if envelope.job.targets.any (fun t => t.name = "" || t.address = "") then .error .targetIncomplete
  else .ok envelope

def leasable (w : WorkerTables) (workerID : String) (now : Time) (r : JobRow) : Bool :=
  r.workerID = workerID && r.status = .pending && D.lt now r.expiresAt && w.dispatchEnabled &&
    w.workers.any (fun x => x.id = r.workerID && x.dispatchEnabled)

/-- `ORDER BY created_at,id`. -/
def createdBefore (r r' : JobRow) : Bool :=
  D.lt r.createdAt r'.createdAt || (D.eq r.createdAt r'.createdAt && D.collate r.id r'.id)

/-- `ORDER BY … LIMIT 1`. -/
def firstBy {α : Type} (le : α → α → Bool) : List α → Option α
  | [] => none
  | x :: xs =>
    match firstBy le xs with
    | none => some x
    | some y => if le x y then some x else some y

def nextJob (w : WorkerTables) (workerID : String) (now : Time) : Option JobRow :=
  firstBy (createdBefore D) (w.jobs.filter (leasable D w workerID now))

/-- `SET status='leased',…` of the job that is handed out. -/
def leasedAs (tokenHash : TokenHash) (leaseExpiresAt : Time) (r : JobRow) : JobRow :=
  { r with
    status := .leased
    leaseTokenHash := some tokenHash
    leaseExpiresAt := some (D.least r.expiresAt (D.bind leaseExpiresAt))
    leaseAttempt := r.leaseAttempt + 1 }

/-- `id=? AND worker_id=? AND status='pending'`. -/
def pendingJob (id workerID : String) (r : JobRow) : Bool :=
  r.id = id && r.workerID = workerID && r.status = .pending

def lease (conflict decodeContext : String) (db : DB) (workerID : String) (tokenHash : TokenHash)
    (now leaseExpiresAt : Time) : Result SignedWorkerJob :=
  let db' := leaseMaintenance D db workerID now
  match nextJob D db'.worker workerID (D.bind now) with
  | none => (.error .notFound, db')
  | some j =>
    if db'.worker.jobs.countP (pendingJob j.id workerID) ≠ 1 then (.error (.message conflict), db)
    else
      match decodeWorkerJob j.signedEnvelope with
      | .error e => (.error (.context decodeContext e), db)
      | .ok envelope =>
        (.ok envelope, setJobs db' (updateWhere (pendingJob j.id workerID)
          (leasedAs D tokenHash leaseExpiresAt) db'.worker.jobs))

/-! ## Renewal -/

def heldBy (jobID workerID : String) (tokenHash : TokenHash) (now : Time) (r : JobRow) : Bool :=
  r.id = jobID && r.workerID = workerID && leaseHeld D tokenHash now r

def renewedUntil (requestedExpiry : Time) (r : JobRow) : JobRow :=
  { r with leaseExpiresAt :=
      r.leaseExpiresAt.map fun l => D.renewedExpiry r.expiresAt l (D.bind requestedExpiry) }

def renew (db : DB) (workerID jobID : String) (tokenHash : TokenHash) (now requestedExpiry : Time) :
    Result Time :=
  let held := heldBy D jobID workerID tokenHash (D.bind now)
  if db.worker.jobs.countP held ≠ 1 then (.error .invalidWorkerJobLease, db)
  else
    let jobs := updateWhere held (renewedUntil D requestedExpiry) db.worker.jobs
    match (jobs.find? (fun r => r.id = jobID)).bind (·.leaseExpiresAt) with
    | none => (.error .invalidWorkerJobLease, db)
    | some stored => (.ok stored, setJobs db jobs)

/-! ## Completion -/

/-- Whether the job's checkpoints fill its target-port matrix; by counting. -/
def checkpointsComplete (decodeContext : String) (w : WorkerTables) (jobID : String) :
    Except StoreError Bool :=
  match w.jobs.find? (fun r => r.id = jobID) with
  | none => .ok false
  | some r =>
    match decodeWorkerJob r.signedEnvelope with
    | .error e => .error (.context decodeContext e)
    | .ok envelope =>
      let expected := envelope.job.targets.length * envelope.job.ports.length
      if expected = 0 then .ok false
      else .ok (w.checkpoints.countP (fun c => c.jobID = jobID) = expected)

def completable (w : WorkerTables) (receipt : WorkerJobResultReceipt) (tokenHash : TokenHash)
    (now : Time) (r : JobRow) : Bool :=
  heldBy D receipt.jobID receipt.workerID tokenHash now r &&
    (receipt.outcome ≠ .succeeded || w.batches.any (fun b => b.jobID = receipt.jobID && b.final))

def completedAs (receipt : WorkerJobResultReceipt) (r : JobRow) : JobRow :=
  { withoutLease .completed r with
    resultID := some receipt.resultID
    resultOutcome := some receipt.outcome
    completedAt := some (D.bind receipt.completedAt) }

/-- How the first transaction of a completion ends when it does not fail. -/
inductive Acceptance
  /-- the job is now completed -/
  | accepted
  /-- the same receipt was accepted before -/
  | retry
deriving DecidableEq, Repr

/-- The checks and the update that both stores' completions share, after their
own preliminary checks. `same` compares a stored completion time with the
receipt's. -/
def accept (same : Time → Time → Bool) (db : DB) (receipt : WorkerJobResultReceipt)
    (tokenHash : TokenHash) (now : Time) : Result Acceptance :=
  match db.worker.jobs.find? (fun r => r.resultID = some receipt.resultID) with
  | some r =>
    if r.id = receipt.jobID && r.workerID = receipt.workerID &&
        r.resultOutcome = some receipt.outcome && r.completedAt.any (same · receipt.completedAt) then
      (.ok .retry, db)
    else (.error .workerResultReplay, db)
  | none =>
    let done := completable D db.worker receipt tokenHash (D.bind now)
    if db.worker.jobs.countP done ≠ 1 then (.error .invalidWorkerJobLease, db)
    else (.ok .accepted, setJobs db (updateWhere done (completedAs D receipt) db.worker.jobs))

/-- A completion is its first transaction, then the projection of the result
onto the scan in transactions of its own. -/
def completeWith (project : DB → WorkerJobResultReceipt → Result Unit)
    (first : Result Acceptance) (receipt : WorkerJobResultReceipt) : Result Unit :=
  match first with
  | (.error e, db) => (.error e, db)
  | (.ok .accepted, db) => project db receipt
  | (.ok .retry, db) =>
    match project db receipt with
    | (.error e, db) => (.error e, db)
    | (.ok (), db) => (.error .workerResultAlreadyAccepted, db)

/-! ## Reassignment -/

/-- `ORDER BY address,port`. -/
def checkpointsOf (w : WorkerTables) (jobID : String) : List WorkerCheckpoint :=
  ((w.checkpoints.filter fun c => c.jobID = jobID).map fun c =>
      { address := c.address, port := c.port, completedAt := c.completedAt : WorkerCheckpoint })
    |>.insertionSort fun a b =>
      (D.collate a.address b.address && !D.collate b.address a.address) ||
        (D.collate a.address b.address && decide (a.port ≤ b.port))

/-- The batch of the job with the largest sequence number. -/
def lastBatch (w : WorkerTables) (jobID : String) : Option BatchRow :=
  firstBy (fun b b' => b'.sequence ≤ b.sequence) (w.batches.filter fun b => b.jobID = jobID)

def lastSequence (w : WorkerTables) (jobID : String) : Nat :=
  ((lastBatch w jobID).map (·.sequence)).getD 0

def resumeCandidate (decodeContext : String) (db : DB) (jobID : String) (now : Time) :
    Result WorkerJobResumeCandidate :=
  match db.worker.jobs.find? (fun r => r.id = jobID && leaseLapsed D (D.bind now) r) with
  | none => (.error .workerJobNotResumable, db)
  | some r =>
    if maximumWorkerLeaseAttempts ≤ r.leaseAttempt then
      (.error .workerJobQuarantined, quarantineRepeatedWorkerJobs D db r.workerID now)
    else
      match decodeWorkerJob r.signedEnvelope with
      | .error e => (.error (.context decodeContext e), db)
      | .ok envelope =>
        let completed := checkpointsOf D db.worker jobID
        if envelope.job.targets.length * envelope.job.ports.length ≤ completed.length then
          (.error .workerJobNotResumable, db)
        else
          (.ok { envelope := envelope, completed := completed
                 nextEvidenceSequence := lastSequence db.worker jobID + 1 }, db)

def reassignedTo (envelope : SignedWorkerJob) (r : JobRow) : JobRow :=
  { withoutLease .pending r with workerID := envelope.job.workerID, signedEnvelope := envelope }

def lapsedAt (jobID workerID : String) (now : Time) (r : JobRow) : Bool :=
  r.id = jobID && r.workerID = workerID && leaseLapsed D now r

def nextAttempt (w : WorkerTables) (jobID : String) : Nat :=
  ((w.assignments.filter fun a => a.jobID = jobID).map (·.attempt)).foldr max 0 + 1

def reassign (updateContext : String) (db : DB) (previousWorkerID : String)
    (envelope : SignedWorkerJob) (now : Time) : Result Unit :=
  match envelope.job.resume with
  | none => (.error .workerJobNotResumable, db)
  | some resume =>
    let lapsed := lapsedAt D envelope.job.id previousWorkerID (D.bind now)
    if resume.previousWorkerID ≠ previousWorkerID then (.error .workerJobNotResumable, db)
    else if resume.nextEvidenceSequence ≠ lastSequence db.worker envelope.job.id + 1 ||
        resume.completed.length ≠ db.worker.checkpoints.countP (fun c => c.jobID = envelope.job.id) then
      (.error .workerJobNotResumable, db)
    else if db.worker.jobs.any lapsed && !db.worker.workers.any (fun w => w.id = envelope.job.workerID) then
      (.error (.context updateContext (.constraint .scannerWorkerJobs .foreignKey)), db)
    else if db.worker.jobs.countP lapsed ≠ 1 then (.error .workerJobNotResumable, db)
    else
      (.ok (), { db with worker := { db.worker with
        jobs := updateWhere lapsed (reassignedTo envelope) db.worker.jobs
        assignments := db.worker.assignments ++
          [{ jobID := envelope.job.id, attempt := nextAttempt db.worker envelope.job.id
             workerID := envelope.job.workerID, signedEnvelope := envelope
             assignedAt := D.bind now, reason := "expired_lease_resume" }] } })

/-! ## Creation -/

/-- The row `INSERT INTO scanner_worker_jobs` adds. -/
def newJobRow (envelope : SignedWorkerJob) (createdAt : Time) : JobRow where
  id := envelope.job.id
  workerID := envelope.job.workerID
  scanID := envelope.job.scanID
  status := envelope.job.status
  signedEnvelope := envelope
  issuedAt := D.bind envelope.job.issuedAt
  expiresAt := D.bind envelope.job.expiresAt
  createdAt := D.bind createdAt
  leaseTokenHash := none
  leaseExpiresAt := none
  leaseAttempt := 0
  resultID := none
  resultOutcome := none
  completedAt := none

/-- `CHECK(status IN ('pending','leased','completed','canceled','expired'))`. -/
def statusAllowed : WorkerJobStatus → Bool
  | .other .. => false
  | _ => true

def insertJob (db : DB) (envelope : SignedWorkerJob) (createdAt : Time) : DB :=
  { db with worker := { db.worker with
      jobs := db.worker.jobs ++ [newJobRow D envelope createdAt]
      assignments := db.worker.assignments ++
        [{ jobID := envelope.job.id, attempt := 1, workerID := envelope.job.workerID
           signedEnvelope := envelope, assignedAt := D.bind createdAt, reason := "initial" }] } }

end

/-! ## The two stores -/

namespace Sqlite

/-- Mirrors `internal/store/worker_job.go:13-42`. -/
def createScannerWorkerJob (db : DB) (envelope : SignedWorkerJob) (createdAt : Time) : Result Unit :=
  if db.worker.jobs.any (fun r => r.id = envelope.job.id) then (.error .workerJobReplay, db)
  else if !statusAllowed envelope.job.status then
    (.error (.context "create scanner-worker job" (.constraint .scannerWorkerJobs .check)), db)
  else if !db.worker.workers.any (fun w => w.id = envelope.job.workerID) then
    (.error (.context "create scanner-worker job" (.constraint .scannerWorkerJobs .foreignKey)), db)
  else if db.worker.assignments.any (fun a => a.jobID = envelope.job.id && a.attempt = 1) then
    (.error (.context "record initial scanner-worker job assignment"
      (.constraint .scannerWorkerJobAssignments .primaryKey)), db)
  else (.ok (), insertJob sqlite db envelope createdAt)

/-- Mirrors `internal/store/worker_job.go:44-58`. -/
def scannerWorkerJob (db : DB) (id : String) : Except StoreError SignedWorkerJob :=
  match db.worker.jobs.find? (fun r => r.id = id) with
  | none => .error .notFound
  | some r =>
    match decodeWorkerJob r.signedEnvelope with
    | .error e => .error (.context "decode scanner-worker job" e)
    | .ok envelope => .ok envelope

/-- Mirrors `internal/store/worker_job_lease.go:13-56`. -/
def leaseScannerWorkerJob : DB → String → TokenHash → Time → Time → Result SignedWorkerJob :=
  lease sqlite "scanner-worker job lease conflict" "decode leased scanner-worker job"

/-- Mirrors `internal/store/worker_job_renewal.go:10-40`. -/
def renewScannerWorkerJobLease : DB → String → String → TokenHash → Time → Time → Result Time :=
  renew sqlite

/-- Mirrors `workerJobCheckpointsComplete`, `internal/store/worker_result.go:62-83`. -/
def workerJobCheckpointsComplete : WorkerTables → String → Except StoreError Bool :=
  checkpointsComplete "decode scanner-worker job for checkpoint completion"

/-- The first transaction of `CompleteScannerWorkerJob`,
`internal/store/worker_result.go:13-58`: the matrix is checked before the
receipt is looked up, so also for a retry. -/
def acceptResult (db : DB) (receipt : WorkerJobResultReceipt) (tokenHash : TokenHash) (now : Time) :
    Result Acceptance :=
  if receipt.outcome = .succeeded then
    match workerJobCheckpointsComplete db.worker receipt.jobID with
    | .error e => (.error e, db)
    | .ok false => (.error .invalidWorkerJobLease, db)
    | .ok true => accept sqlite sqlite.eq db receipt tokenHash now
  else accept sqlite sqlite.eq db receipt tokenHash now

/-- Mirrors `internal/store/worker_reassignment.go:13-55`. -/
def scannerWorkerJobResumeCandidate : DB → String → Time → Result WorkerJobResumeCandidate :=
  resumeCandidate sqlite "decode scanner-worker resume candidate"

/-- Mirrors `internal/store/worker_reassignment.go:77-117`. -/
def reassignScannerWorkerJob : DB → String → SignedWorkerJob → Time → Result Unit :=
  reassign sqlite "reassign scanner-worker job"

end Sqlite

namespace Postgres

/-- Mirrors `internal/store/postgres_worker_job.go:14-46`: the insert checks
the row before it looks for a conflict, and a conflict before the foreign key. -/
def createScannerWorkerJob (collate : String → String → Bool) (db : DB) (envelope : SignedWorkerJob)
    (createdAt : Time) : Result Unit :=
  if !statusAllowed envelope.job.status then
    (.error (.context "create PostgreSQL scanner-worker job" (.constraint .scannerWorkerJobs .check)), db)
  else if db.worker.jobs.any (fun r => r.id = envelope.job.id) then (.error .workerJobReplay, db)
  else if !db.worker.workers.any (fun w => w.id = envelope.job.workerID) then
    (.error (.context "create PostgreSQL scanner-worker job"
      (.constraint .scannerWorkerJobs .foreignKey)), db)
  else if db.worker.assignments.any (fun a => a.jobID = envelope.job.id && a.attempt = 1) then
    (.error (.context "record initial PostgreSQL scanner-worker job assignment"
      (.constraint .scannerWorkerJobAssignments .primaryKey)), db)
  else (.ok (), insertJob (postgres collate) db envelope createdAt)

/-- Mirrors `internal/store/postgres_worker_job.go:84-136`. -/
def leaseScannerWorkerJob (collate : String → String → Bool) :
    DB → String → TokenHash → Time → Time → Result SignedWorkerJob :=
  lease (postgres collate) "PostgreSQL scanner-worker job lease conflict"
    "decode PostgreSQL scanner-worker job"

/-- Mirrors `internal/store/postgres_worker_job.go:138-165`. -/
def renewScannerWorkerJobLease (collate : String → String → Bool) :
    DB → String → String → TokenHash → Time → Time → Result Time :=
  renew (postgres collate)

/-- Mirrors `internal/store/postgres_worker_result.go:80-104`. -/
def workerJobCheckpointsComplete : WorkerTables → String → Except StoreError Bool :=
  checkpointsComplete "decode PostgreSQL scanner-worker job"

/-- The first transaction of `CompleteScannerWorkerJob`,
`internal/store/postgres_worker_result.go:13-77`: the job row is locked first,
and the stored completion time is compared as an instant. -/
def acceptResult (collate : String → String → Bool) (db : DB) (receipt : WorkerJobResultReceipt)
    (tokenHash : TokenHash) (now : Time) : Result Acceptance :=
  if !db.worker.jobs.any (fun r => r.id = receipt.jobID) then (.error .invalidWorkerJobLease, db)
  else if receipt.outcome = .succeeded then
    match workerJobCheckpointsComplete db.worker receipt.jobID with
    | .error e => (.error e, db)
    | .ok false => (.error .invalidWorkerJobLease, db)
    | .ok true => accept (postgres collate) (fun a b => a = b) db receipt tokenHash now
  else accept (postgres collate) (fun a b => a = b) db receipt tokenHash now

/-- Mirrors `internal/store/postgres_worker_reassignment.go:12-58`. -/
def scannerWorkerJobResumeCandidate (collate : String → String → Bool) :
    DB → String → Time → Result WorkerJobResumeCandidate :=
  resumeCandidate (postgres collate) "decode PostgreSQL scanner-worker job"

/-- Mirrors `internal/store/postgres_worker_reassignment.go:60-108`. -/
def reassignScannerWorkerJob (collate : String → String → Bool) :
    DB → String → SignedWorkerJob → Time → Result Unit :=
  reassign (postgres collate) "reassign PostgreSQL scanner-worker job"

end Postgres

/-- No job, batch or dead letter yet; any workers and any scans. -/
def Fresh (db : DB) : Prop :=
  db.worker.jobs = [] ∧ db.worker.assignments = [] ∧ db.worker.batches = [] ∧
    db.worker.checkpoints = [] ∧ db.worker.deadLetters = []

/-! ## What a statement does to a row -/

/-- What an operation may put on a row: the token hashes it hands out, the
envelopes it signs anew, and the receipts it accepts. -/
structure Grant where
  token : TokenHash → Prop
  envelope : SignedWorkerJob → Prop
  receipt : WorkerJobResultReceipt → Prop

def Grant.none : Grant := ⟨fun _ => False, fun _ => False, fun _ => False⟩
def Grant.ofToken (tokenHash : TokenHash) : Grant := { Grant.none with token := fun t => t = tokenHash }
def Grant.ofEnvelope (envelope : SignedWorkerJob) : Grant :=
  { Grant.none with envelope := fun e => e = envelope }
def Grant.ofReceipt (receipt : WorkerJobResultReceipt) : Grant :=
  { Grant.none with receipt := fun r => r = receipt }

/-- The second operation may do whatever the first may. -/
structure Grant.Le (G G' : Grant) : Prop where
  token : ∀ t, G.token t → G'.token t
  envelope : ∀ e, G.envelope e → G'.envelope e
  receipt : ∀ r, G.receipt r → G'.receipt r

theorem Grant.none_le (G : Grant) : Grant.none.Le G :=
  ⟨fun _ h => h.elim, fun _ h => h.elim, fun _ h => h.elim⟩

theorem Grant.ofToken_le {G : Grant} {tok : TokenHash} (h : G.token tok) : (Grant.ofToken tok).Le G :=
  ⟨fun _ ht => ht ▸ h, fun _ h => h.elim, fun _ h => h.elim⟩

theorem Grant.ofEnvelope_le {G : Grant} {ev : SignedWorkerJob} (h : G.envelope ev) :
    (Grant.ofEnvelope ev).Le G :=
  ⟨fun _ h => h.elim, fun _ he => he ▸ h, fun _ h => h.elim⟩

theorem Grant.ofReceipt_le {G : Grant} {rc : WorkerJobResultReceipt} (h : G.receipt rc) :
    (Grant.ofReceipt rc).Le G :=
  ⟨fun _ h => h.elim, fun _ h => h.elim, fun _ hr => hr ▸ h⟩

/-- One statement's effect on a job row it selects. -/
inductive JobTrans (D : Dialect) (G : Grant) : JobRow → JobRow → Prop
  | cancel {r} (h : r.status = .leased) : JobTrans D G r (withoutLease .canceled r)
  | expire {r} (now : Time) (h : r.status = .pending ∨ r.status = .leased)
      (hexp : D.le r.expiresAt now) : JobTrans D G r (withoutLease .expired r)
  | release {r} (now : Time) (h : leaseLapsed D now r) : JobTrans D G r (withoutLease .pending r)
  | lease {r} (tokenHash : TokenHash) (leaseExpiresAt : Time) (hG : G.token tokenHash)
      (h : r.status = .pending) : JobTrans D G r (leasedAs D tokenHash leaseExpiresAt r)
  | renew {r} (requestedExpiry : Time) (h : r.status = .leased) :
      JobTrans D G r (renewedUntil D requestedExpiry r)
  | complete {r} (receipt : WorkerJobResultReceipt) (tokenHash : TokenHash) (now : Time)
      (hG : G.receipt receipt) (h : leaseHeld D tokenHash now r) (hid : r.id = receipt.jobID) :
      JobTrans D G r (completedAs D receipt r)
  | reassign {r} (envelope : SignedWorkerJob) (now : Time) (hG : G.envelope envelope)
      (h : leaseLapsed D now r) (hid : r.id = envelope.job.id) : JobTrans D G r (reassignedTo envelope r)

section
variable {D : Dialect} {G : Grant} {r r' : JobRow}

theorem leaseLapsed_leased {now : Time} (h : leaseLapsed D now r) : r.status = .leased := by
  simp only [leaseLapsed, and_eq_true, decide_eq_true_eq] at h
  exact h.1.1

theorem leaseHeld_leased {tok : TokenHash} {now : Time} (h : leaseHeld D tok now r) :
    r.status = .leased ∧ r.leaseTokenHash = some tok := by
  simp only [leaseHeld, and_eq_true, decide_eq_true_eq] at h
  exact ⟨h.1.1.1, h.1.1.2⟩

section
variable (h : JobTrans D G r r')
include h

theorem JobTrans.from_open : r.status = .pending ∨ r.status = .leased := by
  cases h with
  | cancel h => exact .inr h
  | expire now h _ => exact h
  | release now h => exact .inr (leaseLapsed_leased h)
  | lease tok exp1 _ h => exact .inl h
  | renew exp h => exact .inr h
  | complete rc tok now _ h _ => exact .inr (leaseHeld_leased h).1
  | reassign ev now _ h _ => exact .inr (leaseLapsed_leased h)

theorem JobTrans.frame :
    r'.id = r.id ∧ r'.scanID = r.scanID ∧ r'.expiresAt = r.expiresAt ∧ r'.issuedAt = r.issuedAt := by
  cases h <;> exact ⟨rfl, rfl, rfl, rfl⟩

theorem JobTrans.token {tok1 : TokenHash}
    (ht : r'.leaseTokenHash = some tok1) : r.leaseTokenHash = some tok1 ∨ G.token tok1 := by
  cases h with
  | cancel _ | expire _ _ _ | release _ _ | complete _ _ _ _ _ _ | reassign _ _ _ _ _ => cases ht
  | lease tok _ hT _ =>
    cases ht
    exact .inr hT
  | renew _ _ => exact .inl ht

theorem JobTrans.envelope : r'.signedEnvelope = r.signedEnvelope ∨ G.envelope r'.signedEnvelope := by
  cases h with
  | cancel _ | expire _ _ _ | release _ _ | lease _ _ _ _ | renew _ _ | complete _ _ _ _ _ _ => exact .inl rfl
  | reassign _ _ hG _ _ => exact .inr hG

theorem JobTrans.outcome : r'.resultOutcome = r.resultOutcome ∨
    ∃ rc, G.receipt rc ∧ r.id = rc.jobID ∧ r'.resultOutcome = some rc.outcome ∧ r'.status = .completed := by
  cases h with
  | cancel _ | expire _ _ _ | release _ _ | lease _ _ _ _ | renew _ _ | reassign _ _ _ _ _ => exact .inl rfl
  | complete rc _ _ hG _ hi => exact .inr ⟨rc, hG, hi, rfl, rfl⟩

theorem JobTrans.resultID : r'.resultID = r.resultID ∨
    ∃ rc, G.receipt rc ∧ r'.resultID = some rc.resultID := by
  cases h with
  | cancel _ | expire _ _ _ | release _ _ | lease _ _ _ _ | renew _ _ | reassign _ _ _ _ _ => exact .inl rfl
  | complete rc _ _ hG _ _ => exact .inr ⟨rc, hG, rfl⟩

theorem JobTrans.mono {G' : Grant} (hl : G.Le G') : JobTrans D G' r r' := by
  cases h with
  | cancel h => exact .cancel h
  | expire now h he => exact .expire now h he
  | release now h => exact .release now h
  | lease tok exp hG h => exact .lease tok exp (hl.token tok hG) h
  | renew req h => exact .renew req h
  | complete rc tok now hG h hi => exact .complete rc tok now (hl.receipt rc hG) h hi
  | reassign ev now hG h hi => exact .reassign ev now (hl.envelope ev hG) h hi

end

theorem evolves_mono {G' : Grant} {jobs jobs' : List JobRow} (h : Evolves (JobTrans D G) jobs jobs')
    (hl : G.Le G') : Evolves (JobTrans D G') jobs jobs' :=
  h.mono fun _ _ ht => ht.mono hl

section
variable (h : Relation.ReflTransGen (JobTrans D G) r r')
include h

theorem steps_id : r'.id = r.id := by
  induction h with
  | refl => rfl
  | tail _ hl ih => exact hl.frame.1.trans ih

theorem steps_token {t : TokenHash}
    (ht : r'.leaseTokenHash = some t) (hG : ¬ G.token t) : r.leaseTokenHash = some t := by
  induction h with
  | refl => exact ht
  | tail _ hl ih => exact ih ((hl.token ht).resolve_right hG)

theorem steps_envelope (hG : ∀ e, ¬ G.envelope e) : r'.signedEnvelope = r.signedEnvelope := by
  induction h with
  | refl => rfl
  | tail _ hl ih => exact (hl.envelope.resolve_right (hG _)).trans ih

theorem steps_resultID {rid : String}
    (hi : r'.resultID = some rid) (hG : ∀ rc, G.receipt rc → rc.resultID ≠ rid) :
    r.resultID = some rid := by
  induction h with
  | refl => exact hi
  | tail _ hl ih =>
    rcases hl.resultID with hs | ⟨rc, hr, hn⟩
    · exact ih (hs ▸ hi)
    · rw [hi, Option.some.injEq] at hn
      exact absurd hn.symm (hG rc hr)

theorem steps_scanID : r'.scanID = r.scanID := by
  induction h with
  | refl => rfl
  | tail _ hl ih => exact hl.frame.2.1.trans ih

theorem steps_leased (hG : ∀ t, ¬ G.token t) (hl : r'.status = .leased) : r.status = .leased := by
  induction h with
  | refl => exact hl
  | tail _ hla ih =>
    cases hla with
    | cancel _ | expire _ _ _ | release _ _ | complete _ _ _ _ _ _ | reassign _ _ _ _ _ => cases hl
    | lease t _ hT _ => exact absurd hT (hG t)
    | renew _ hr => exact ih hr

theorem steps_outcome : r'.resultOutcome = r.resultOutcome ∨
    ∃ rc, G.receipt rc ∧ r.id = rc.jobID ∧ r'.resultOutcome = some rc.outcome ∧ r'.status = .completed := by
  induction h with
  | refl => exact .inl rfl
  | tail hf hl ih =>
    rcases ih with ih | ⟨_, -, -, -, hs⟩
    · rcases hl.outcome with hou | ⟨rc, hG, hi, hou⟩
      · exact .inl (hou.trans ih)
      · exact .inr ⟨rc, hG, (steps_id hf).symm.trans hi, hou⟩
    · -- a completed row takes no further transition
      rcases hl.from_open with ho | ho <;> rw [hs] at ho <;> cases ho

end

theorem evolves_keyed {jobs jobs' : List JobRow} (h : Evolves (JobTrans D G) jobs jobs')
    (hk : Keyed JobRow.id jobs) : Keyed JobRow.id jobs' := by
  have := h.map_eq (g := JobRow.id) fun _ _ ht => ht.frame.1.symm
  unfold Keyed at hk ⊢
  rwa [← this]

/-- `completed`, `canceled` and `expired`. -/
def finalStatus : WorkerJobStatus → Bool
  | .completed | .canceled | .expired => true
  | _ => false

theorem final_steps (hf : finalStatus r.status) (h : Relation.ReflTransGen (JobTrans D G) r r') : r' = r := by
  induction h with
  | refl => rfl
  | tail _ hl ih =>
    subst ih
    rcases hl.from_open with ho | ho <;> rw [ho] at hf <;> cases hf

theorem final_mem {jobs jobs' : List JobRow} (h : Evolves (JobTrans D G) jobs jobs') (hr : r ∈ jobs)
    (hf : finalStatus r.status) : r ∈ jobs' := by
  obtain ⟨r', hr', hs⟩ := h.forward hr
  rwa [final_steps hf hs] at hr'

end

/-! ## What each operation does -/

theorem firstBy_mem {α : Type} {le : α → α → Bool} {l : List α} {x : α} (h : firstBy le l = some x) :
    x ∈ l := by
  induction l generalizing x with
  | nil => cases h
  | cons y ys ih =>
    simp only [firstBy] at h
    split at h
    · cases h
      exact mem_cons_self
    rename_i z hz
    split at h <;> cases h
    · exact mem_cons_self
    · exact mem_cons_of_mem _ (ih hz)

theorem firstBy_eq_none {α : Type} {le : α → α → Bool} {l : List α} : firstBy le l = none ↔ l = [] := by
  cases l with
  | nil => simp [firstBy]
  | cons a l =>
    simp only [firstBy]
    split
    · simp
    · split <;> simp

theorem firstBy_least {α κ : Type} [LinearOrder κ] {le : α → α → Bool} {key : α → κ}
    (hl : ∀ a b, le a b = true ↔ key a ≤ key b) {l : List α} {x : α} (h : firstBy le l = some x) :
    ∀ y ∈ l, key x ≤ key y := by
  induction l generalizing x with
  | nil => cases h
  | cons a l ih =>
    simp only [firstBy] at h
    split at h
    · rename_i hn
      cases h
      intro y hy
      rw [firstBy_eq_none.mp hn, mem_singleton] at hy
      rw [hy]
    rename_i z hz
    split at h
    · rename_i ha
      cases h
      intro y hy
      rcases mem_cons.mp hy with rfl | hy
      · exact le_rfl
      · exact ((hl _ _).mp ha).trans (ih hz y hy)
    rename_i ha
    cases h
    intro y hy
    rcases mem_cons.mp hy with rfl | hy
    · exact (le_total _ _).resolve_right fun hl' => ha ((hl _ _).mpr hl')
    · exact ih hz y hy

theorem decodeWorkerJob_ok {ev decoded : SignedWorkerJob}
    (h : decodeWorkerJob ev = .ok decoded) : decoded = ev := by
  simp only [decodeWorkerJob] at h
  split at h
  · cases h
  · cases h
    rfl

section
variable {D : Dialect} {db db' : DB} {workerID jobID : String} {tokenHash : TokenHash} {now : Time}

theorem quarantine_evolves (D : Dialect) (db : DB) (wid : String) (now : Time) :
    Evolves (JobTrans D Grant.none) db.worker.jobs
      (quarantineRepeatedWorkerJobs D db wid now).worker.jobs := by
  refine evolves_updateWhere fun r _ hp => .cancel ?_
  simp only [and_eq_true, decide_eq_true_eq] at hp
  exact hp.2

theorem mem_newDeadLetters {D : Dialect} {jobs : List JobRow} {wid : String} {now : Time}
    {l : DeadLetterRow} (hl : l ∈ newDeadLetters D jobs wid now) :
    ∃ r ∈ jobs, leaseLapsed D now r ∧ l.jobID = r.id ∧ l.scanID = r.scanID ∧ l.workerID = wid ∧
      l.quarantinedAt = now := by
  obtain ⟨r, hr, rfl⟩ := mem_map.mp hl
  obtain ⟨hr, hp⟩ := mem_filter.mp hr
  simp only [and_eq_true, decide_eq_true_eq] at hp
  exact ⟨r, hr, hp.1.2, rfl, rfl, hp.1.1, rfl⟩

theorem letter_of_lapsed {D : Dialect} {jobs : List JobRow} {r : JobRow} {now : Time} (hr : r ∈ jobs)
    (hl : leaseLapsed D now r) (ha : maximumWorkerLeaseAttempts ≤ r.leaseAttempt)
    (letters : List DeadLetterRow) :
    ∃ l ∈ insertIgnore (·.jobID) letters (newDeadLetters D jobs r.workerID now), l.jobID = r.id := by
  have hmem : { jobID := r.id, scanID := r.scanID, workerID := r.workerID, failureCount := r.leaseAttempt
                reason := workerLeaseFailureReason, quarantinedAt := now } ∈
      newDeadLetters D jobs r.workerID now := by
    refine mem_map.mpr ⟨r, mem_filter.mpr ⟨hr, ?_⟩, rfl⟩
    simp [hl, ha]
  exact exists_key_insertIgnore hmem letters

theorem sweep_evolves (D : Dialect) (wid : String) (now : Time) (jobs : List JobRow) :
    Evolves (JobTrans D Grant.none) jobs (releaseLeases D wid now (expireJobs D wid now jobs)) := by
  have he : Evolves (JobTrans D Grant.none) jobs (expireJobs D wid now jobs) := by
    refine evolves_updateWhere fun r _ hp => ?_
    simp only [and_eq_true, or_eq_true, decide_eq_true_eq] at hp
    exact .expire now hp.1.2 hp.2
  refine he.trans (evolves_updateWhere fun r _ hp => ?_)
  simp only [and_eq_true] at hp
  exact .release now hp.2

theorem maintenance_evolves (D : Dialect) (db : DB) (wid : String) (now : Time) :
    Evolves (JobTrans D Grant.none) db.worker.jobs (leaseMaintenance D db wid now).worker.jobs :=
  (quarantine_evolves D db wid now).trans (sweep_evolves D wid (D.bind now) _)

variable {context : String}

/-- A lease fails without effect, finds nothing but keeps its maintenance, or
hands out one pending job. -/
theorem lease_cases {cf : String} {exp : Time}
    {res : Except StoreError SignedWorkerJob}
    (h : lease D cf context db workerID tokenHash now exp = (res, db')) :
    (∃ e, res = .error e ∧ e ≠ .notFound ∧ db' = db) ∨
    (res = .error .notFound ∧ db' = leaseMaintenance D db workerID now) ∨
    ∃ j ∈ (leaseMaintenance D db workerID now).worker.jobs,
      leasable D (leaseMaintenance D db workerID now).worker workerID (D.bind now) j ∧
      decodeWorkerJob j.signedEnvelope = .ok j.signedEnvelope ∧ res = .ok j.signedEnvelope ∧
      db' = setJobs (leaseMaintenance D db workerID now) (updateWhere (pendingJob j.id workerID)
        (leasedAs D tokenHash exp) (leaseMaintenance D db workerID now).worker.jobs) := by
  simp only [lease] at h
  split at h
  · cases h
    exact .inr (.inl ⟨rfl, rfl⟩)
  rename_i j hj
  have hm := mem_filter.mp (firstBy_mem hj)
  split at h
  · cases h
    exact .inl ⟨_, rfl, by simp, rfl⟩
  split at h
  · cases h
    exact .inl ⟨_, rfl, by simp, rfl⟩
  rename_i ev hd
  cases h
  have he := decodeWorkerJob_ok hd
  rw [he] at hd ⊢
  exact .inr (.inr ⟨j, hm.1, hm.2, hd, rfl, rfl⟩)

theorem renew_cases {exp : Time} {res : Except StoreError Time}
    (h : renew D db workerID jobID tokenHash now exp = (res, db')) :
    (∃ e, res = .error e ∧ db' = db) ∨
    ∃ sto, res = .ok sto ∧ db.worker.jobs.countP (heldBy D jobID workerID tokenHash (D.bind now)) = 1 ∧
      db' = setJobs db (updateWhere (heldBy D jobID workerID tokenHash (D.bind now))
        (renewedUntil D exp) db.worker.jobs) ∧
      (db'.worker.jobs.find? (fun r => r.id = jobID)).bind (·.leaseExpiresAt) = some sto := by
  simp only [renew] at h
  split at h
  · cases h
    exact .inl ⟨_, rfl, rfl⟩
  rename_i hc
  split at h
  · cases h
    exact .inl ⟨_, rfl, rfl⟩
  · rename_i sto hf
    cases h
    exact .inr ⟨sto, rfl, not_not.mp hc, rfl, hf⟩

theorem accept_cases {same : Time → Time → Bool} {rc : WorkerJobResultReceipt}
    {res : Except StoreError Acceptance} (h : accept D same db rc tokenHash now = (res, db')) :
    (∃ e, res = .error e ∧ db' = db) ∨ (res = .ok .retry ∧ db' = db ∧
      ∃ r ∈ db.worker.jobs, r.resultID = some rc.resultID ∧ r.id = rc.jobID ∧
        r.workerID = rc.workerID ∧ r.resultOutcome = some rc.outcome) ∨
    (res = .ok .accepted ∧ (∀ r ∈ db.worker.jobs, r.resultID ≠ some rc.resultID) ∧
      db.worker.jobs.countP (completable D db.worker rc tokenHash (D.bind now)) = 1 ∧
      db' = setJobs db (updateWhere (completable D db.worker rc tokenHash (D.bind now))
        (completedAs D rc) db.worker.jobs)) := by
  simp only [accept] at h
  split at h
  · rename_i r hf
    have hi := find?_some hf
    have hm := mem_of_find?_eq_some hf
    split at h
    · rename_i hs
      simp only [and_eq_true, decide_eq_true_eq] at hs hi
      cases h
      exact .inr (.inl ⟨rfl, rfl, r, hm, hi, hs.1.1.1, hs.1.1.2, hs.1.2⟩)
    · cases h
      exact .inl ⟨_, rfl, rfl⟩
  · rename_i hn
    split at h
    · cases h
      exact .inl ⟨_, rfl, rfl⟩
    rename_i hc
    cases h
    refine .inr (.inr ⟨rfl, fun r hr he => ?_, not_not.mp hc, rfl⟩)
    have := find?_eq_none.mp hn r hr
    simp [he] at this

theorem resumeCandidate_cases {res : Except StoreError WorkerJobResumeCandidate}
    (h : resumeCandidate D context db jobID now = (res, db')) :
    (∃ e, res = .error e ∧ db' = db) ∨ (∃ c, res = .ok c ∧ db' = db) ∨
    ∃ r ∈ db.worker.jobs, r.id = jobID ∧ leaseLapsed D (D.bind now) r ∧
      maximumWorkerLeaseAttempts ≤ r.leaseAttempt ∧ res = .error .workerJobQuarantined ∧
      db' = quarantineRepeatedWorkerJobs D db r.workerID now := by
  simp only [resumeCandidate] at h
  split at h
  · cases h
    exact .inl ⟨_, rfl, rfl⟩
  rename_i r hf
  have hp := find?_some hf
  simp only [and_eq_true, decide_eq_true_eq] at hp
  split at h
  · rename_i ha
    cases h
    exact .inr (.inr ⟨r, mem_of_find?_eq_some hf, hp.1, hp.2, ha, rfl, rfl⟩)
  split at h
  · cases h
    exact .inl ⟨_, rfl, rfl⟩
  split at h
  · cases h
    exact .inl ⟨_, rfl, rfl⟩
  · cases h
    exact .inr (.inl ⟨_, rfl, rfl⟩)

theorem reassign_cases {prev : String} {ev : SignedWorkerJob}
    {res : Except StoreError Unit} (h : reassign D context db prev ev now = (res, db')) :
    (∃ e, res = .error e ∧ db' = db) ∨
    (res = .ok () ∧ db.worker.jobs.countP (lapsedAt D ev.job.id prev (D.bind now)) = 1 ∧
      db'.worker.jobs = updateWhere (lapsedAt D ev.job.id prev (D.bind now))
        (reassignedTo ev) db.worker.jobs ∧
      db'.worker.batches = db.worker.batches ∧ db'.worker.checkpoints = db.worker.checkpoints ∧
      db'.worker.deadLetters = db.worker.deadLetters ∧ db'.worker.workers = db.worker.workers ∧
      db'.worker.dispatchEnabled = db.worker.dispatchEnabled ∧ db'.scan = db.scan) := by
  simp only [reassign] at h
  split at h
  · cases h
    exact .inl ⟨_, rfl, rfl⟩
  split at h
  · cases h
    exact .inl ⟨_, rfl, rfl⟩
  split at h
  · cases h
    exact .inl ⟨_, rfl, rfl⟩
  split at h
  · cases h
    exact .inl ⟨_, rfl, rfl⟩
  split at h
  · cases h
    exact .inl ⟨_, rfl, rfl⟩
  · rename_i hc
    cases h
    exact .inr ⟨rfl, not_not.mp hc, rfl, rfl, rfl, rfl, rfl, rfl, rfl⟩

theorem completeWith_worker {project : DB → WorkerJobResultReceipt → Result Unit}
    (hp : ∀ db r, (project db r).2.worker = db.worker) (first : Result Acceptance)
    (rc : WorkerJobResultReceipt) :
    (completeWith project first rc).2.worker = first.2.worker := by
  unfold completeWith
  split
  · rfl
  · exact hp _ _
  · rename_i db
    split
    · rename_i e db'' he
      have := hp db rc
      rw [he] at this
      exact this
    · rename_i db'' he
      have := hp db rc
      rw [he] at this
      exact this

theorem lease_evolves {w : WorkerTables} {exp : Time} (j : JobRow) :
    Evolves (JobTrans D (.ofToken tokenHash)) w.jobs (updateWhere (pendingJob j.id workerID)
      (leasedAs D tokenHash exp) w.jobs) := by
  refine evolves_updateWhere fun r _ hp => .lease tokenHash exp rfl ?_
  simp only [pendingJob, and_eq_true, decide_eq_true_eq] at hp
  exact hp.2

variable (jobs : List JobRow)

theorem renew_evolves {exp : Time} :
    Evolves (JobTrans D Grant.none) jobs (updateWhere (heldBy D jobID workerID tokenHash now)
      (renewedUntil D exp) jobs) := by
  refine evolves_updateWhere fun r _ hp => .renew exp ?_
  simp only [heldBy, and_eq_true] at hp
  exact (leaseHeld_leased hp.2).1

theorem complete_evolves {w : WorkerTables} {rc : WorkerJobResultReceipt} :
    Evolves (JobTrans D (.ofReceipt rc)) jobs (updateWhere (completable D w rc tokenHash now)
      (completedAs D rc) jobs) := by
  refine evolves_updateWhere fun r _ hp => ?_
  simp only [completable, heldBy, and_eq_true, decide_eq_true_eq] at hp
  exact .complete rc tokenHash now rfl hp.1.2 hp.1.1.1

theorem reassign_evolves {prev : String} {ev : SignedWorkerJob} : Evolves (JobTrans D (.ofEnvelope ev)) jobs
      (updateWhere (lapsedAt D ev.job.id prev now) (reassignedTo ev) jobs) := by
  refine evolves_updateWhere fun r _ hp => ?_
  simp only [lapsedAt, and_eq_true, decide_eq_true_eq] at hp
  exact .reassign ev now rfl hp.2 hp.1.1

end

end Mossward.L2.WorkerJob
