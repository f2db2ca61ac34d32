import Mossward.L1Encoding.Rfc3339

/-!
# Records of `internal/model`

The records that scans, scanner workers, worker jobs and worker evidence are
made of. Named string types of the source are inductive types with an `other`
case, since a decoded text may be anything. JSON objects are the records
themselves. Fields that no modelled function reads or writes are left out.
-/
namespace Mossward.Model

open L1.Rfc3339

/-! ## Scans -/

inductive ScanStatus
  | queued | running | completed | failed | paused | canceled
  | other (text : String)
deriving DecidableEq, Repr

/-- The statuses after which nothing is left to do for a scan. -/
def ScanStatus.terminal : ScanStatus → Bool
  | .completed | .failed | .canceled => true
  | _ => false

/-- `status IN ('queued','running','paused')`. -/
def ScanStatus.active : ScanStatus → Bool
  | .queued | .running | .paused => true
  | _ => false

inductive FindingStatus
  | open | inProgress | resolved
  | other (text : String)
deriving DecidableEq, Repr

structure Finding where
  id : String
  checkID : String
  target : String
  address : String
  port : Int
  service : String
  severity : String
  title : String
  evidence : String
  remediation : String
  observedAt : Time
  status : FindingStatus
  assignedTo : String
  workflowUpdatedAt : Option Time
deriving DecidableEq

/-- `map[string]string`, its entries in the order of their keys. -/
structure StringMap where
  entries : List (String × String)
  sorted : (entries.map Prod.fst).Pairwise (· < ·)
deriving DecidableEq

def StringMap.empty : StringMap := ⟨[], .nil⟩

structure ServiceObservation where
  id : String
  target : String
  address : String
  port : Int
  protocol : String
  product : String
  version : String
  confidence : String
  evidence : String
  metadata : StringMap
  observedAt : Time
deriving DecidableEq

structure Target where
  name : String
  address : String
  groupIDs : List String
deriving DecidableEq

structure ScanCheckpoint where
  address : String
  port : Int
  completedAt : Time
deriving DecidableEq

/-- `cvssScore` is the bit pattern of the `float64`: it is copied, never
computed with. -/
structure CVEMatch where
  cveID : String
  observationID : String
  target : String
  address : String
  port : Int
  product : String
  version : String
  severity : String
  cvssScore : UInt64
  description : String
  confidence : String
  evidence : String
  knownExploited : Bool
  sourceURL : String
  matchedAt : Time
deriving DecidableEq

structure Scan where
  id : String
  name : String
  targets : List Target
  ports : List Int
  status : ScanStatus
  error : String
  observations : List ServiceObservation
  findings : List Finding
  cveMatches : List CVEMatch
  totalChecks : Int
  doneChecks : Int
  createdAt : Time
  startedAt : Option Time
  completedAt : Option Time
  scopePolicyID : String
  maxConcurrent : Int
  scanPolicyID : String
  checkpoints : List ScanCheckpoint
  activeSeconds : Int
  windowEnd : Option Time
  longAlertSent : Bool
  rateLimitPerSecond : Int
deriving DecidableEq

/-! ## Vulnerability records -/

structure AffectedProduct where
  cpe23 : String
  part : String
  vendor : String
  product : String
  version : String
  versionStartIncluding : String
  versionStartExcluding : String
  versionEndIncluding : String
  versionEndExcluding : String
  vulnerable : Bool
deriving DecidableEq

structure CVEReference where
  url : String
  source : String
deriving DecidableEq

structure CVERecord where
  id : String
  description : String
  publishedAt : Time
  modifiedAt : Time
  cvssScore : UInt64
  cvssVector : String
  severity : String
  knownExploited : Bool
  sourceURL : String
  products : List AffectedProduct
  references : List CVEReference
deriving DecidableEq

/-! ## Finding exceptions -/

inductive FindingExceptionStatus
  | pending | approved | rejected
  | other (text : String)
deriving DecidableEq, Repr

structure FindingException where
  id : String
  findingID : String
  reason : String
  status : FindingExceptionStatus
  requestedBy : String
  approvedBy : String
  createdAt : Time
  expiresAt : Option Time
  reminderDays : Int
  lastReminderAt : Option Time
deriving DecidableEq

/-! ## Scanner workers -/

inductive EndpointStatus
  | active | revoked
  | other (text : String)
deriving DecidableEq, Repr

/-- The texts that have a constant; any other text is a capability too. -/
def capabilityTexts : List String :=
  ["tcp_connect", "service_identification", "http_configuration", "tls_configuration", "ssh_configuration"]

inductive WorkerCapability
  | tcpConnect | serviceIdentification | http | tls | ssh
  | other (text : String) (unnamed : text ∉ capabilityTexts)
deriving DecidableEq, Repr

inductive WorkerHealth
  | healthy | degraded
  | other (text : String)
deriving DecidableEq, Repr

structure ScannerWorker where
  id : String
  name : String
  siteID : String
  status : EndpointStatus
  allowedCIDRs : List String
  allowedPorts : List Int
  maxConcurrent : Int
  rateLimitPerSecond : Int
  expiresAt : Time
  lastSeenAt : Option Time
  capabilities : List WorkerCapability
  availableConcurrency : Int
  health : WorkerHealth
  dispatchEnabled : Bool
deriving DecidableEq

/-! ## Worker jobs -/

def jobStatusTexts : List String := ["pending", "leased", "completed", "canceled", "expired"]

inductive WorkerJobStatus
  | pending | leased | completed | canceled | expired
  | other (text : String) (unnamed : text ∉ jobStatusTexts)
deriving DecidableEq, Repr

structure WorkerCheckpoint where
  address : String
  port : Int
  completedAt : Time
deriving DecidableEq

structure WorkerJobResume where
  previousWorkerID : String
  completed : List WorkerCheckpoint
  nextEvidenceSequence : Nat
deriving DecidableEq

structure WorkerJob where
  schemaVersion : Int
  id : String
  workerID : String
  scanID : String
  siteID : String
  issuedAt : Time
  expiresAt : Time
  targets : List Target
  ports : List Int
  maxConcurrent : Int
  rateLimitPerSecond : Int
  requiredCapabilities : List WorkerCapability
  resume : Option WorkerJobResume
  status : WorkerJobStatus
deriving DecidableEq

structure SignedWorkerJob where
  algorithm : String
  keyID : String
  job : WorkerJob
  signature : String
deriving DecidableEq

/-- What `Dispatcher.ReassignExpired` needs to move a job to another worker. -/
structure WorkerJobResumeCandidate where
  envelope : SignedWorkerJob
  completed : List WorkerCheckpoint
  nextEvidenceSequence : Nat
deriving DecidableEq

inductive WorkerJobResultOutcome
  | succeeded | failed | canceled
  | other (text : String)
deriving DecidableEq, Repr

structure WorkerJobResultReceipt where
  resultID : String
  jobID : String
  workerID : String
  outcome : WorkerJobResultOutcome
  completedAt : Time
deriving DecidableEq

structure WorkerJobLoad where
  activeJobs : Int
  reservedConcurrency : Int
deriving DecidableEq

/-- The SHA-256 digest of a lease token, as bytes. -/
abbrev TokenHash := List UInt8

/-! ## Worker evidence -/

structure WorkerEvidenceBatch where
  schemaVersion : Int
  id : String
  workerID : String
  jobID : String
  scanID : String
  sequence : Nat
  final : Bool
  collectedAt : Time
  observations : List ServiceObservation
  findings : List Finding
  checkpoints : List WorkerCheckpoint
deriving DecidableEq

structure SignedWorkerEvidenceBatch where
  algorithm : String
  certificateSerial : String
  batch : WorkerEvidenceBatch
  signature : String
deriving DecidableEq

end Mossward.Model
