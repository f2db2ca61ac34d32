import Mossward.Model

/-!
# Tables, errors and SQL dialects of the store

`SQLiteStore` keeps times as the text `formatTime` prints and compares those
texts; `PostgreSQLStore` keeps `TIMESTAMPTZ` values of microsecond precision.
Both run the same statements, so the tables hold `Time` values and a `Dialect`
says what a column keeps of a bound time and how two stored times compare.

Tables whose rows are written and deleted only with their parent row are fields
of that row: `scan_targets`, `scan_ports` and `scan_checkpoints` of a scan,
`observation_metadata` of an observation. Ordinals are positions.
-/
namespace Mossward.L2.Schema

open L1.Rfc3339 Model

/-! ## Errors -/

inductive Table
  | scans | scanPorts | scanCheckpoints | serviceObservations | findings | findingExceptions | cveMatches
  | assets | assetEvidence
  | scannerWorkerJobs | scannerWorkerJobAssignments | scannerWorkerEvidenceBatches
  | scannerWorkerJobCheckpoints
deriving DecidableEq, Repr

/-- What the database refuses a statement for. -/
inductive Constraint
  | primaryKey | unique | foreignKey | check | range
deriving DecidableEq, Repr

/-- The store's sentinel errors, what the driver reports, and both under the
contexts `fmt.Errorf("…: %w", err)` puts around them. -/
inductive StoreError
  | notFound
  | workerJobReplay
  | invalidWorkerJobLease
  | workerEvidenceAlreadyAccepted
  | workerEvidenceReplay
  | workerEvidenceSequence
  | workerResultAlreadyAccepted
  | workerResultReplay
  | workerJobNotResumable
  | workerJobQuarantined
  | findingNotFound
  | invalidFindingWorkflow
  | constraint (table : Table) (kind : Constraint)
  /-- `Target.UnmarshalJSON`: "target name and address are required". -/
  | targetIncomplete
  /-- `errors.New` with a text of its own. -/
  | message (text : String)
  | context (text : String) (cause : StoreError)
deriving DecidableEq, Repr

/-! ## Scanner-worker tables -/

structure JobRow where
  id : String
  workerID : String
  scanID : String
  status : WorkerJobStatus
  signedEnvelope : SignedWorkerJob
  issuedAt : Time
  expiresAt : Time
  createdAt : Time
  leaseTokenHash : Option TokenHash
  leaseExpiresAt : Option Time
  leaseAttempt : Nat
  resultID : Option String
  resultOutcome : Option WorkerJobResultOutcome
  completedAt : Option Time
deriving DecidableEq

structure AssignmentRow where
  jobID : String
  attempt : Nat
  workerID : String
  signedEnvelope : SignedWorkerJob
  assignedAt : Time
  reason : String
deriving DecidableEq

/-- The columns that repeat fields of the envelope (`worker_id`, `sequence`,
`final`, …) are the fields of `signedEnvelope.batch`. -/
structure BatchRow where
  signedEnvelope : SignedWorkerEvidenceBatch
  receivedAt : Time
deriving DecidableEq

namespace BatchRow
def batchID (r : BatchRow) : String := r.signedEnvelope.batch.id
def jobID (r : BatchRow) : String := r.signedEnvelope.batch.jobID
def workerID (r : BatchRow) : String := r.signedEnvelope.batch.workerID
def sequence (r : BatchRow) : Nat := r.signedEnvelope.batch.sequence
def final (r : BatchRow) : Bool := r.signedEnvelope.batch.final
end BatchRow

structure CheckpointRow where
  jobID : String
  workerID : String
  scanID : String
  address : String
  port : Int
  completedAt : Time
  batchID : String
deriving DecidableEq

/-- `PRIMARY KEY(job_id,address,port)`: the address is the text as reported. -/
def CheckpointRow.key (r : CheckpointRow) : String × String × Int := (r.jobID, r.address, r.port)

structure DeadLetterRow where
  jobID : String
  scanID : String
  workerID : String
  failureCount : Nat
  reason : String
  quarantinedAt : Time
deriving DecidableEq

structure WorkerTables where
  workers : List ScannerWorker
  /-- The single row of `scanner_worker_dispatch_settings`. -/
  dispatchEnabled : Bool
  jobs : List JobRow
  assignments : List AssignmentRow
  batches : List BatchRow
  checkpoints : List CheckpointRow
  deadLetters : List DeadLetterRow
deriving DecidableEq

/-! ## Scan tables -/

structure ScanRow where
  id : String
  name : String
  status : ScanStatus
  error : String
  totalChecks : Int
  doneChecks : Int
  createdAt : Time
  startedAt : Option Time
  completedAt : Option Time
  scopePolicyID : String
  maxConcurrent : Int
  scanPolicyID : String
  activeSeconds : Int
  windowEnd : Option Time
  rateLimitPerSecond : Int
  targets : List Target
  ports : List Int
  checkpoints : List ScanCheckpoint
deriving DecidableEq

structure ObservationRow where
  scanID : String
  observation : ServiceObservation
deriving DecidableEq

structure FindingRow where
  scanID : String
  finding : Finding
deriving DecidableEq

structure CVERow where
  id : String
  description : String
  publishedAt : Time
  modifiedAt : Time
  cvssScore : UInt64
  cvssVector : String
  severity : String
  knownExploited : Bool
  sourceURL : String
deriving DecidableEq

structure CVEProductRow where
  cveID : String
  product : AffectedProduct
deriving DecidableEq

structure CVEMatchRow where
  scanID : String
  observationID : String
  cveID : String
  target : String
  address : String
  port : Int
  product : String
  version : String
  confidence : String
  evidence : String
  matchedAt : Time
deriving DecidableEq

def CVEMatchRow.key (r : CVEMatchRow) : String × String × String := (r.scanID, r.observationID, r.cveID)

/-! ## Asset tables -/

structure AssetRow where
  id : String
  name : String
  address : String
  firstSeen : Time
  lastSeen : Time
  lastScanID : String
deriving DecidableEq

structure AssetAddressRow where
  assetID : String
  address : String
  firstSeen : Time
  lastSeen : Time
  lastScanID : String
deriving DecidableEq

structure AssetNameRow where
  assetID : String
  name : String
  normalizedName : String
deriving DecidableEq

inductive AssetServiceState
  | observed | notObserved
deriving DecidableEq, Repr

structure AssetServiceRow where
  assetID : String
  address : String
  port : Int
  protocol : String
  product : String
  version : String
  confidence : String
  state : AssetServiceState
  firstSeen : Time
  lastSeen : Time
  lastChecked : Time
  lastScanID : String
  observationCount : Int
deriving DecidableEq

inductive EvidenceSourceType
  | scanner | endpoint
deriving DecidableEq, Repr

structure AssetServiceEventRow where
  observationID : String
  assetID : String
  scanID : String
  address : String
  port : Int
  protocol : String
  product : String
  version : String
  confidence : String
  observedAt : Time
  findingIDs : List String
  cveIDs : List String
  sourceType : EvidenceSourceType
  sourceID : String
deriving DecidableEq

structure AssetEvidenceRow where
  id : String
  assetID : String
  sourceType : EvidenceSourceType
  sourceID : String
  recordType : String
  recordID : String
  scanID : String
  address : String
  summary : String
  collectedAt : Time
deriving DecidableEq

structure AssetTables where
  assets : List AssetRow
  addresses : List AssetAddressRow
  names : List AssetNameRow
  services : List AssetServiceRow
  serviceEvents : List AssetServiceEventRow
  evidence : List AssetEvidenceRow
deriving DecidableEq

structure ScanTables where
  scans : List ScanRow
  observations : List ObservationRow
  findings : List FindingRow
  exceptions : List FindingException
  cves : List CVERow
  cveProducts : List CVEProductRow
  cveMatches : List CVEMatchRow
  /-- `scan_long_alerts`, by scan. -/
  longAlerts : List String
  asset : AssetTables
deriving DecidableEq

structure DB where
  worker : WorkerTables
  scan : ScanTables
deriving DecidableEq

/-- What a store call returns, and the database it leaves behind. -/
abbrev Result (α : Type) := Except StoreError α × DB

/-! ## Dialects -/

structure Dialect where
  /-- What a column keeps of a time bound to a statement. -/
  bind : Time → Time
  /-- `a <= b` on stored times. -/
  le : Time → Time → Bool
  /-- The lease expiry a renewal sets, from the job's expiry, the lease's and
  the requested one. -/
  renewedExpiry : Time → Time → Time → Time
  /-- `ORDER BY` on texts: the first sorts no later than the second. -/
  collate : String → String → Bool
  /-- The largest value of an integer column. -/
  sequenceMax : Nat

/-- `CASE WHEN a<b THEN a ELSE b END`, for a comparison `le`. -/
def leastBy (le : Time → Time → Bool) (a b : Time) : Time := if !le b a then a else b
def greatestBy (le : Time → Time → Bool) (a b : Time) : Time := if !le b a then b else a

namespace Dialect

/-- `a < b` on stored times. -/
def lt (D : Dialect) (a b : Time) : Bool := !D.le b a
def eq (D : Dialect) (a b : Time) : Bool := D.le a b && D.le b a

/-- A comparison with `NULL` is not true. -/
def leOpt (D : Dialect) : Option Time → Time → Bool
  | none, _ => false
  | some a, b => D.le a b

/-- `a > b` for a column that may be `NULL`. -/
def gtOpt (D : Dialect) : Option Time → Time → Bool
  | none, _ => false
  | some a, b => D.lt b a

/-- `CASE WHEN a<b THEN a ELSE b END`, `LEAST(a,b)`. -/
def least (D : Dialect) (a b : Time) : Time := leastBy D.le a b

end Dialect

/-- The order of stored texts. -/
def textLe (a b : Time) : Bool := decide (formatTime a.ns ≤ formatTime b.ns)

/-- Times are the texts of `formatTime`; texts compare byte by byte. -/
def sqlite : Dialect where
  bind t := t
  le := textLe
  renewedExpiry expiresAt leaseExpiresAt requested :=
    if !textLe requested expiresAt then expiresAt
    else if !textLe leaseExpiresAt requested then leaseExpiresAt
    else requested
  collate a b := a ≤ b
  sequenceMax := 2 ^ 63 - 1

/-- The order of `TIMESTAMPTZ` values. -/
def timeLe (a b : Time) : Bool := a ≤ b

/-- `TIMESTAMPTZ` columns; the collation of texts is the database's own. -/
def postgres (collate : String → String → Bool) : Dialect where
  bind t := t.truncateMicros
  le := timeLe
  renewedExpiry expiresAt leaseExpiresAt requested :=
    leastBy timeLe expiresAt (greatestBy timeLe leaseExpiresAt requested)
  collate := collate
  sequenceMax := 2 ^ 31 - 1

/-- What the lease rules need of a dialect's comparison and renewal. -/
structure Dialect.Lawful (D : Dialect) : Prop where
  refl : ∀ a, D.le a a
  renewed_le : ∀ {e l} (q), D.le l e → D.le (D.renewedExpiry e l q) e
  le_renewed : ∀ {e l} (q), D.le l e → D.le l (D.renewedExpiry e l q)

theorem Dialect.Lawful.least_le {D : Dialect} (h : D.Lawful) (e q : Time) : D.le (D.least e q) e := by
  unfold Dialect.least leastBy
  split
  · exact h.refl e
  · rename_i hl
    simpa using hl

theorem sqlite_le : sqlite.le = textLe := rfl

theorem sqlite_renewedExpiry (e l q : Time) : sqlite.renewedExpiry e l q =
    if !textLe q e then e else if !textLe l q then l else q := by
  simp only [sqlite]

theorem textLe_iff {a b : Time} : textLe a b = true ↔ formatTime a.ns ≤ formatTime b.ns := by
  simp only [textLe, decide_eq_true_eq]

theorem textLe_refl (a : Time) : textLe a a = true := textLe_iff.mpr (le_refl _)

theorem sqlite_lawful : sqlite.Lawful where
  refl a := by rw [sqlite_le, textLe_refl]
  renewed_le {e l} q h := by
    rw [sqlite_le] at h ⊢
    rw [sqlite_renewedExpiry]
    cases hq : textLe q e <;> cases hl : textLe l q <;> simp [hq, h, textLe_refl]
  le_renewed {e l} q h := by
    rw [sqlite_le] at h ⊢
    rw [sqlite_renewedExpiry]
    cases hq : textLe q e <;> cases hl : textLe l q <;> simp [hl, h, textLe_refl]

theorem postgres_lawful (coll : String → String → Bool) : (postgres coll).Lawful where
  refl a := by simp [postgres, timeLe]
  renewed_le {e l} q h := by
    have hr : timeLe e e = true := by simp [timeLe]
    have h' : timeLe l e = true := h
    cases hq : timeLe q l <;> cases hl : timeLe q e <;>
      simp [postgres, leastBy, greatestBy, hq, hl, hr, h']
  le_renewed {e l} q h := by
    have hr : timeLe l l = true := by simp [timeLe]
    have h' : timeLe l e = true := h
    have ht : timeLe q l = false → timeLe l q = true := by
      simp only [timeLe, decide_eq_false_iff_not, decide_eq_true_eq, not_le]
      exact le_of_lt
    cases hq : timeLe q l <;> cases hl : timeLe q e <;>
      simp [postgres, leastBy, greatestBy, hq, hl, hr, h', ht]

/-- These workers enrolled, and nothing else stored. -/
def emptyTables (workers : List ScannerWorker) (dispatchEnabled : Bool) : DB where
  worker :=
    { workers := workers, dispatchEnabled := dispatchEnabled, jobs := [], assignments := [], batches := []
      checkpoints := [], deadLetters := [] }
  scan :=
    { scans := [], observations := [], findings := [], exceptions := [], cves := [], cveProducts := []
      cveMatches := [], longAlerts := []
      asset := { assets := [], addresses := [], names := [], services := [], serviceEvents := []
                 evidence := [] } }

/-! ## A small installation

One worker and no jobs, on which the results below are instantiated. -/

namespace Small

/-- `s` seconds after 2025-11-16T00:00:00Z. -/
def clock (s : Int) : Time :=
  if h : YearInRange (739570 * 24 * hour + s * second) then ⟨_, h⟩ else .zero

def worker (id : String) : ScannerWorker where
  id := id
  name := id
  siteID := ""
  status := .active
  allowedCIDRs := ["0.0.0.0/0", "::/0"]
  allowedPorts := [22, 80, 443]
  maxConcurrent := 4
  rateLimitPerSecond := 0
  expiresAt := clock 80000
  lastSeenAt := some (clock 0)
  capabilities := [.tcpConnect, .serviceIdentification, .http, .tls, .ssh]
  availableConcurrency := 4
  health := .healthy
  dispatchEnabled := true

def envelope (id workerID scanID : String) (addresses : List String) (ports : List Int) :
    SignedWorkerJob where
  algorithm := "Ed25519"
  keyID := "key"
  signature := "signature"
  job :=
    { schemaVersion := 1, id := id, workerID := workerID, scanID := scanID, siteID := ""
      issuedAt := clock 0, expiresAt := clock 3600
      targets := addresses.map fun a => { name := a, address := a, groupIDs := [] }
      ports := ports, maxConcurrent := 1, rateLimitPerSecond := 0
      requiredCapabilities := [.tcpConnect], resume := none, status := .pending }

def scan (id : String) (addresses : List String) (ports : List Int) : Scan where
  id := id
  name := id
  targets := addresses.map fun a => { name := a, address := a, groupIDs := [] }
  ports := ports
  status := .queued
  error := ""
  observations := []
  findings := []
  cveMatches := []
  totalChecks := addresses.length * ports.length
  doneChecks := 0
  createdAt := clock 0
  startedAt := none
  completedAt := none
  scopePolicyID := ""
  maxConcurrent := 1
  scanPolicyID := ""
  checkpoints := []
  activeSeconds := 0
  windowEnd := none
  longAlertSent := false
  rateLimitPerSecond := 0

def observation (id address : String) (port : Int) : ServiceObservation where
  id := id
  target := address
  address := address
  port := port
  protocol := "tcp"
  product := ""
  version := ""
  confidence := "high"
  evidence := ""
  metadata := .empty
  observedAt := clock 10

def finding (id address : String) (port : Int) : Finding where
  id := id
  checkID := "check"
  target := address
  address := address
  port := port
  service := ""
  severity := "high"
  title := id
  evidence := ""
  remediation := ""
  observedAt := clock 10
  status := .other ""
  assignedTo := ""
  workflowUpdatedAt := none

def batch (id jobID workerID scanID : String) (sequence : Nat) (final : Bool)
    (checkpoints : List WorkerCheckpoint) : SignedWorkerEvidenceBatch where
  algorithm := "ECDSA"
  certificateSerial := "1"
  signature := "signature"
  batch :=
    { schemaVersion := 1, id := id, workerID := workerID, jobID := jobID, scanID := scanID
      sequence := sequence, final := final, collectedAt := clock 10
      observations := [], findings := [], checkpoints := checkpoints }

/-- The batch with these observations and findings. -/
def reporting (b : SignedWorkerEvidenceBatch) (observations : List ServiceObservation)
    (findings : List Finding) : SignedWorkerEvidenceBatch :=
  { b with batch := { b.batch with observations := observations, findings := findings } }

def receipt (jobID workerID : String) (outcome : WorkerJobResultOutcome) : WorkerJobResultReceipt where
  resultID := "result-" ++ jobID
  jobID := jobID
  workerID := workerID
  outcome := outcome
  completedAt := clock 30

def tables (workers : List ScannerWorker) : DB := emptyTables workers true

end Small

end Mossward.L2.Schema
