import Mossward.L2Store.Projection

/-!
# Worker jobs: validation, signature, dispatch

A job is dispatched to the worker that its scope allows and that carries the
least load, signed for that worker and stored. When its lease has lapsed it is
signed again for another worker, with a manifest of what is done.
`internal/workerjob` and `internal/scanlaunch`.

The cryptography is a parameter: a `Key` signs and verifies, and accepts what
it signed.

Results:
* `verify_sign`: an envelope of the dispatcher's key verifies.
* `dispatch_cases`, `reassignExpired_cases`, `launchRemote_cases`.
-/
namespace Mossward.L3.JobDispatch

open Table L1.Rfc3339 L1.NetAddr Model L2.Schema
open L2.WorkerJob L2.Intelligence L2.ScanStore

/-! ## Validation -/

def jobSchemaVersion : Int := 1
def maximumJobLifetime : Int := 24 * hour
def jobClockSkew : Int := minute
def jobIdentityLimit : Nat := 200
def jobSiteIDLimit : Nat := 64
def maximumJobRate : Int := 1000

/-- `^[a-z0-9]+(?:-[a-z0-9]+)*$`: runs of lower-case letters and digits, joined
by single hyphens. -/
def jobSiteIDPattern (s : String) : Bool :=
  (s.toList.splitOn '-').all fun run =>
    run ≠ [] && run.all fun c => ('a' ≤ c && c ≤ 'z') || c.isDigit

def validJobIdentities (job : WorkerJob) : Bool :=
  job.id ≠ "" && job.id.utf8ByteSize ≤ jobIdentityLimit && job.workerID ≠ "" &&
    job.workerID.utf8ByteSize ≤ jobIdentityLimit && job.scanID ≠ "" &&
    job.scanID.utf8ByteSize ≤ jobIdentityLimit && job.siteID.utf8ByteSize ≤ jobSiteIDLimit

def validateJobResources (job : WorkerJob) (worker : ScannerWorker) : Except String Unit :=
  if job.maxConcurrent < 1 || worker.maxConcurrent < job.maxConcurrent then
    .error "worker job concurrency exceeds the assigned worker scope"
  else if job.rateLimitPerSecond < 0 || maximumJobRate < job.rateLimitPerSecond then
    .error "worker job rate limit is invalid"
  else if 0 < worker.rateLimitPerSecond &&
      (job.rateLimitPerSecond = 0 || worker.rateLimitPerSecond < job.rateLimitPerSecond) then
    .error "worker job rate exceeds the assigned worker scope"
  else .ok ()

def addressAllowed (address : Addr) (prefixes : List Prefix) : Bool :=
  prefixes.any fun p => p.contains address

/-- The loop over the targets; `seen` are the addresses before. -/
def checkTargets (prefixes : List Prefix) : List Addr → List Target → Except String Unit
  | _, [] => .ok ()
  | seen, t :: ts =>
    match parseAddr t.address with
    | none => .error "worker job contains a duplicate, invalid, or out-of-scope target"
    | some a =>
      if a ∈ seen || !addressAllowed a prefixes then
        .error "worker job contains a duplicate, invalid, or out-of-scope target"
      else checkTargets prefixes (a :: seen) ts

def validateJobTargets (targets : List Target) (allowedCIDRs : List String) : Except String Unit :=
  if targets = [] then .error "worker job requires at least one target"
  else
    match allowedCIDRs.mapM parsePrefix with
    | none => .error "scanner worker has an invalid assigned network"
    | some prefixes => checkTargets prefixes [] targets

/-- The loops over ports and capabilities: every entry is allowed, and none
stands twice. -/
def checkDistinct {α : Type} [DecidableEq α] (message : String) (allowed : List α) :
    List α → List α → Except String Unit
  | _, [] => .ok ()
  | seen, x :: xs =>
    if x ∉ allowed || x ∈ seen then .error message
    else checkDistinct message allowed (x :: seen) xs

def validateJobPorts (ports allowedPorts : List Int) : Except String Unit :=
  if ports = [] then .error "worker job requires at least one port"
  else checkDistinct "worker job contains a duplicate or out-of-scope port" allowedPorts [] ports

def validateJobCapabilities (required reported : List WorkerCapability) : Except String Unit :=
  if required = [] then .error "worker job requires at least one capability"
  else checkDistinct "worker job contains a duplicate or unavailable capability" reported [] required

/-- The loop over a resume manifest. The port was found among the job's ports,
which are not checked to fit the 16 bits it is truncated to. -/
def checkResume (job : WorkerJob) : List (Addr × Int) → List WorkerCheckpoint → Except String Unit
  | _, [] => .ok ()
  | seen, c :: cs =>
    match parseAddr c.address with
    | none => .error "worker job resume checkpoint is invalid or outside its scope"
    | some a =>
      if a ∉ job.targets.filterMap (fun t => parseAddr t.address) || c.port ∉ job.ports ||
          c.completedAt.isZero then
        .error "worker job resume checkpoint is invalid or outside its scope"
      else if (a, c.port % 65536) ∈ seen then .error "worker job resume checkpoint is duplicated"
      else checkResume job ((a, c.port % 65536) :: seen) cs

def validateJobResume (job : WorkerJob) : Except String Unit :=
  match job.resume with
  | none => .ok ()
  | some resume =>
    if resume.previousWorkerID = "" || resume.previousWorkerID = job.workerID ||
        resume.nextEvidenceSequence = 0 then
      .error "worker job resume identity or sequence is invalid"
    else checkResume job [] resume.completed

/-- Mirrors `Validate`, `internal/workerjob/validate.go:31-61`. -/
def validate (job : WorkerJob) (worker : ScannerWorker) (now : Time) : Except String Unit := do
  require (job.schemaVersion = jobSchemaVersion && job.status = .pending)
    "worker job schema or initial status is invalid"
  require (validJobIdentities job && job.workerID = worker.id) "worker job identity is invalid"
  require (job.siteID = "" || (job.siteID = worker.siteID && jobSiteIDPattern job.siteID))
    "worker job site affinity is invalid"
  require (job.issuedAt.ns ≤ now.ns + jobClockSkew && now < job.expiresAt && job.issuedAt < job.expiresAt &&
    job.expiresAt.ns - job.issuedAt.ns ≤ maximumJobLifetime) "worker job validity period is invalid"
  require (worker.status = .active && now < worker.expiresAt) "scanner worker is not active"
  validateJobResources job worker
  validateJobTargets job.targets worker.allowedCIDRs
  validateJobPorts job.ports worker.allowedPorts
  validateJobResume job
  validateJobCapabilities job.requiredCapabilities worker.capabilities

/-! ## Signatures -/

def algorithmEd25519 : String := "Ed25519"

/-- An Ed25519 key pair: `sign` yields the encoded signature of a job's JSON
text, `check` is the decoding and verification of one. -/
structure Key where
  keyID : String
  sign : WorkerJob → String
  check : WorkerJob → String → Except String Unit
  check_sign : ∀ job, check job (sign job) = .ok ()
  keyID_ne : keyID ≠ ""
  /-- the empty text encodes no signature -/
  check_ne : ∀ job signature, check job signature = .ok () → signature ≠ ""

theorem key_ne_empty : "key" ≠ "" := by decide

/-- A key with one signature; the check of any other text fails with this
error. -/
def plainKey (refusal : String) : Key where
  keyID := "key"
  sign _ := "signature"
  check _ signature := if signature = "signature" then .ok () else .error refusal
  check_sign _ := rfl
  keyID_ne := key_ne_empty
  check_ne job signature h := by
    rintro rfl
    cases h

/-- Mirrors `Signer.Sign`, `internal/workerjob/signer.go:52-60`. -/
def Key.signJob (k : Key) (job : WorkerJob) : SignedWorkerJob where
  algorithm := algorithmEd25519
  keyID := k.keyID
  job := job
  signature := k.sign job

/-- Mirrors `Verify`, `internal/workerjob/signer.go:68-88`. -/
def Key.verify (k : Key) (envelope : SignedWorkerJob) : Except String Unit :=
  if envelope.algorithm ≠ algorithmEd25519 then .error "unsupported worker-job signature algorithm"
  else if envelope.keyID ≠ k.keyID then .error "worker-job signing key identifier mismatch"
  else k.check envelope.job envelope.signature

theorem verify_sign (k : Key) (job : WorkerJob) : k.verify (k.signJob job) = .ok () := by
  simp [Key.verify, Key.signJob, k.check_sign]

/-- Mirrors `VerifyForWorker`, `internal/workerjob/validate.go:15-20`. -/
def verifyForWorker (k : Key) (envelope : SignedWorkerJob) (worker : ScannerWorker) (now : Time) :
    Except String Unit := do
  k.verify envelope
  validate envelope.job worker now

/-! ## Selection of a worker -/

inductive DispatchError
  | dispatchDisabled
  | noEligibleWorker
  | store (cause : StoreError)
  /-- A time of the job does not encode. -/
  | encoding
deriving DecidableEq, Repr

def assignmentHeartbeatFreshness : Int := 5 * minute

/-- Mirrors `ScannerWorkerJobLoads`, `internal/store/worker_job.go:58-80`: the
jobs that count, all of which must decode. -/
def activeJobs (w : WorkerTables) (now : Time) : List JobRow :=
  w.jobs.filter fun r => (r.status = .pending || r.status = .leased) && sqlite.lt now r.expiresAt

def scannerWorkerJobLoads (w : WorkerTables) (now : Time) : Except StoreError (String → WorkerJobLoad) :=
  if (activeJobs w now).any fun r => (decodeWorkerJob r.signedEnvelope).toOption.isNone then
    .error (.context "decode active scanner-worker job" .targetIncomplete)
  else .ok fun workerID =>
    let jobs := (activeJobs w now).filter fun r => r.workerID = workerID
    { activeJobs := jobs.length, reservedConcurrency := (jobs.map (·.signedEnvelope.job.maxConcurrent)).sum }

/-- Mirrors `internal/workerjob/dispatcher.go:173-179`. -/
def jobForWorker (job : WorkerJob) (worker : ScannerWorker) : WorkerJob :=
  { job with
    workerID := worker.id
    rateLimitPerSecond :=
      if job.rateLimitPerSecond = 0 && 0 < worker.rateLimitPerSecond then worker.rateLimitPerSecond
      else job.rateLimitPerSecond }

/-- Mirrors `internal/workerjob/dispatcher.go:181-192`. -/
def workerAvailableForAssignment (worker : ScannerWorker) (job : WorkerJob) (remaining : Int) (now : Time) :
    Bool :=
  match worker.lastSeenAt with
  | none => false
  | some lastSeenAt =>
    worker.status = .active && worker.dispatchEnabled && worker.health = .healthy &&
      now.ns - lastSeenAt.ns ≤ assignmentHeartbeatFreshness && now < worker.expiresAt &&
      job.expiresAt ≤ worker.expiresAt && (job.siteID = "" || worker.siteID = job.siteID) &&
      job.maxConcurrent ≤ remaining

structure WorkerCandidate where
  worker : ScannerWorker
  remaining : Int
  activeJobs : Int
  lastSeenUnixNS : Int

/-- The comparison of `sort.Slice`, reflexive here: fewer jobs, more room, seen
later, smaller identifier. -/
def WorkerCandidate.preferred (a b : WorkerCandidate) : Bool :=
  if a.activeJobs ≠ b.activeJobs then a.activeJobs < b.activeJobs
  else if a.remaining ≠ b.remaining then b.remaining < a.remaining
  else if a.lastSeenUnixNS ≠ b.lastSeenUnixNS then b.lastSeenUnixNS < a.lastSeenUnixNS
  else a.worker.id ≤ b.worker.id

def candidate (job : WorkerJob) (loads : String → WorkerJobLoad) (now : Time) (excludedWorkerID : String)
    (worker : ScannerWorker) : Option WorkerCandidate :=
  let load := loads worker.id
  let remaining := worker.availableConcurrency - load.reservedConcurrency
  if worker.id = excludedWorkerID || !workerAvailableForAssignment worker job remaining now ||
      !(validate (jobForWorker job worker) worker now).toOption.isSome then none
  else some
    { worker := worker, remaining := remaining - job.maxConcurrent, activeJobs := load.activeJobs
      lastSeenUnixNS := (worker.lastSeenAt.map fun t => unixNano t.ns).getD 0 }

/-- Mirrors `internal/workerjob/dispatcher.go:137-171`. -/
def selectWorkerExcluding (job : WorkerJob) (workers : List ScannerWorker) (loads : String → WorkerJobLoad)
    (now : Time) (excludedWorkerID : String) : Except DispatchError ScannerWorker :=
  match firstBy WorkerCandidate.preferred (workers.filterMap (candidate job loads now excludedWorkerID)) with
  | none => .error .noEligibleWorker
  | some c => .ok c.worker

/-! ## Dispatch -/

abbrev DispatchResult := Except DispatchError SignedWorkerJob × DB

/-- The selection on the store's tables, and the signed envelope for the
selected worker. -/
def assign (k : Key) (w : WorkerTables) (job : WorkerJob) (now : Time) (excludedWorkerID : String) :
    Except DispatchError SignedWorkerJob := do
  let loads ← (scannerWorkerJobLoads w now).mapError .store
  let worker ← selectWorkerExcluding job w.workers loads now excludedWorkerID
  return k.signJob (jobForWorker job worker)

/-- Mirrors `Dispatch`, `internal/workerjob/dispatcher.go:41-71`. -/
def dispatch (k : Key) (db : DB) (job : WorkerJob) (now : Time) : DispatchResult :=
  if !db.worker.dispatchEnabled then (.error .dispatchDisabled, db)
  else
    match assign k db.worker job now "" with
    | .error e => (.error e, db)
    | .ok envelope =>
      match Sqlite.createScannerWorkerJob db envelope now with
      | (.error e, db) => (.error (.store e), db)
      | (.ok (), db) => (.ok envelope, db)

/-- The job that a candidate's envelope is signed anew for. -/
def resumedJob (c : WorkerJobResumeCandidate) : WorkerJob :=
  { c.envelope.job with
    workerID := ""
    status := .pending
    resume := some
      { previousWorkerID := c.envelope.job.workerID, completed := c.completed
        nextEvidenceSequence := c.nextEvidenceSequence } }

/-- Mirrors `ReassignExpired`, `internal/workerjob/dispatcher.go:73-113`. The
candidate's quarantine stays even when the reassignment ends there. -/
def reassignExpired (k : Key) (db : DB) (jobID : String) (now : Time) : DispatchResult :=
  if !db.worker.dispatchEnabled then (.error .dispatchDisabled, db)
  else
    match Sqlite.scannerWorkerJobResumeCandidate db jobID now with
    | (.error e, db) => (.error (.store e), db)
    | (.ok c, db) =>
      match assign k db.worker (resumedJob c) now c.envelope.job.workerID with
      | .error e => (.error e, db)
      | .ok envelope =>
        match Sqlite.reassignScannerWorkerJob db c.envelope.job.workerID envelope now with
        | (.error e, db) => (.error (.store e), db)
        | (.ok (), db) => (.ok envelope, db)

/-! ## Launch of a remote scan -/

def defaultRemoteJobLifetime : Int := 12 * hour

/-- `requiredCapabilities`, `internal/scanlaunch/service.go:87-112`. -/
def requiredCapabilities (ports : List Int) : List WorkerCapability :=
  let web := ports.any fun p => p = 80 || p = 8080 || p = 443 || p = 8443
  let tls := ports.any fun p => p = 443 || p = 8443
  [.tcpConnect, .serviceIdentification] ++ (if web then [.http] else []) ++ (if tls then [.tls] else []) ++
    (if 22 ∈ ports then [.ssh] else [])

def remoteJob (scan : Scan) (siteID : String) (now expiresAt : Time) : WorkerJob where
  schemaVersion := 1
  id := "scan-" ++ scan.id
  workerID := ""
  scanID := scan.id
  siteID := siteID
  issuedAt := now
  expiresAt := expiresAt
  targets := scan.targets
  ports := scan.ports
  maxConcurrent := scan.maxConcurrent
  rateLimitPerSecond := scan.rateLimitPerSecond
  requiredCapabilities := requiredCapabilities scan.ports
  resume := none
  status := .pending

inductive LaunchError
  | windowEnded
  | persist (cause : StoreError)
  | dispatch (cause : DispatchError)
deriving DecidableEq, Repr

/-- The three readings of the clock during a launch: by the launcher, by the
dispatcher, and by the launcher again when the dispatch failed. -/
structure LaunchClock where
  launch : Time
  dispatch : Time
  failure : Time

/-- Twelve hours from now or the end of the window, whichever is first; `none`
for a time beyond year 9999. -/
def remoteExpiry (scan : Scan) (now : Time) : Option Time :=
  let lifetime := now.ns + defaultRemoteJobLifetime
  match scan.windowEnd with
  | some w => if w.ns < lifetime then some w else Time.ofNs lifetime
  | none => Time.ofNs lifetime

def queuedScan (scan : Scan) : Scan := { scan with status := .queued }

def failedScan (scan : Scan) (at_ : Time) : Scan :=
  { scan with status := .failed, error := "remote scanner-worker dispatch failed", completedAt := some at_ }

/-- The dispatch of the launched scan's job. -/
def dispatchScan (k : Key) (db : DB) (scan : Scan) (siteID : String) (clock : LaunchClock) : DispatchResult :=
  match remoteExpiry scan clock.launch with
  | none => (.error .encoding, db)
  | some expiresAt => dispatch k db (remoteJob scan siteID clock.launch expiresAt) clock.dispatch

/-- Mirrors `launchRemote`, `internal/scanlaunch/service.go:55-85`. -/
def launchRemote (h : Host) (k : Key) (db : DB) (scan : Scan) (siteID : String) (clock : LaunchClock) :
    Except LaunchError SignedWorkerJob × DB :=
  if (remoteExpiry scan clock.launch).any (· ≤ clock.launch) then (.error .windowEnded, db)
  else
    match save h db (queuedScan scan) with
    | (.error e, db) => (.error (.persist e), db)
    | (.ok (), db) =>
      match dispatchScan k db scan siteID clock with
      | (.error e, db) => (.error (.dispatch e), (save h db (failedScan scan clock.failure)).2)
      | (.ok envelope, db) => (.ok envelope, db)

/-! ## What a dispatch stores -/

section
variable {k : Key} {db db' : DB} {job : WorkerJob} {now : Time} {res : Except DispatchError SignedWorkerJob}

theorem assign_ok {w : WorkerTables} {exc : String} {ev : SignedWorkerJob}
    (h : assign k w job now exc = .ok ev) :
    ∃ wk ∈ w.workers, wk.id ≠ exc ∧ (validate (jobForWorker job wk) wk now).toOption.isSome ∧
      ev = k.signJob (jobForWorker job wk) := by
  unfold assign at h
  simp only [bind_eq_ok] at h
  obtain ⟨lds, -, wk, hs, he⟩ := h
  cases he
  unfold selectWorkerExcluding at hs
  split at hs
  · cases hs
  rename_i c hc
  cases hs
  obtain ⟨wk, hw, hca⟩ := List.mem_filterMap.mp (firstBy_mem hc)
  simp only [candidate] at hca
  split at hca
  · cases hca
  rename_i ho
  cases hca
  simp only [Bool.or_eq_true, Bool.not_eq_true', decide_eq_true_eq, not_or, Bool.not_eq_false] at ho
  exact ⟨wk, hw, ho.1.1, ho.2, rfl⟩

theorem createSqlite_cases {ev : SignedWorkerJob} {at1 : Time} {res : Except StoreError Unit}
    (h : Sqlite.createScannerWorkerJob db ev at1 = (res, db')) :
    (∃ e, res = .error e ∧ db' = db) ∨
    (res = .ok () ∧ (∀ r ∈ db.worker.jobs, r.id ≠ ev.job.id) ∧ db' = insertJob sqlite db ev at1) := by
  unfold Sqlite.createScannerWorkerJob at h
  split at h
  · cases h
    exact .inl ⟨_, rfl, rfl⟩
  rename_i hn
  split at h
  · cases h
    exact .inl ⟨_, rfl, rfl⟩
  split at h
  · cases h
    exact .inl ⟨_, rfl, rfl⟩
  split at h <;> cases h
  · exact .inl ⟨_, rfl, rfl⟩
  · refine .inr ⟨rfl, fun r hr he => hn ?_, rfl⟩
    exact List.any_eq_true.mpr ⟨r, hr, by simpa using he⟩

theorem dispatch_cases (h : dispatch k db job now = (res, db')) : (∃ e, res = .error e ∧ db' = db) ∨
    ∃ wk ∈ db.worker.workers, (validate (jobForWorker job wk) wk now).toOption.isSome ∧
      res = .ok (k.signJob (jobForWorker job wk)) ∧ (∀ r ∈ db.worker.jobs, r.id ≠ job.id) ∧
      db' = insertJob sqlite db (k.signJob (jobForWorker job wk)) now := by
  unfold dispatch at h
  split at h
  · cases h
    exact .inl ⟨_, rfl, rfl⟩
  split at h
  · cases h
    exact .inl ⟨_, rfl, rfl⟩
  rename_i ev ha
  obtain ⟨wk, hw, -, hv, rfl⟩ := assign_ok ha
  split at h
  · rename_i e db1 hc
    cases h
    rcases createSqlite_cases hc with ⟨e', -, rfl⟩ | ⟨ho, -⟩
    · exact .inl ⟨_, rfl, rfl⟩
    · cases ho
  rename_i db1 hc
  cases h
  rcases createSqlite_cases hc with ⟨e, he, -⟩ | ⟨-, hn, rfl⟩
  · cases he
  · exact .inr ⟨wk, hw, hv, rfl, hn, rfl⟩

theorem reassignExpired_cases {jid : String} (h : reassignExpired k db jid now = (res, db')) :
    (∃ e, res = .error e ∧ db' = db) ∨
    (∃ e wid, res = .error e ∧ db' = quarantineRepeatedWorkerJobs sqlite db wid now) ∨
    ∃ (c : WorkerJobResumeCandidate) (wk : ScannerWorker), wk ∈ db.worker.workers ∧
      wk.id ≠ c.envelope.job.workerID ∧
      Sqlite.scannerWorkerJobResumeCandidate db jid now = (.ok c, db) ∧
      (validate (jobForWorker (resumedJob c) wk) wk now).toOption.isSome ∧
      res = .ok (k.signJob (jobForWorker (resumedJob c) wk)) ∧
      Sqlite.reassignScannerWorkerJob db c.envelope.job.workerID
        (k.signJob (jobForWorker (resumedJob c) wk)) now = (.ok (), db') := by
  unfold reassignExpired at h
  split at h
  · cases h
    exact .inl ⟨_, rfl, rfl⟩
  split at h
  · rename_i e db1 hc
    cases h
    rcases resumeCandidate_cases hc with ⟨e', -, rfl⟩ | ⟨c, ho, -⟩ | ⟨r, -, -, -, -, -, rfl⟩
    · exact .inl ⟨_, rfl, rfl⟩
    · cases ho
    · exact .inr (.inl ⟨_, _, rfl, rfl⟩)
  rename_i c db1 hc
  have hd : db1 = db := by
    rcases resumeCandidate_cases hc with ⟨e', he, -⟩ | ⟨c', -, rfl⟩ | ⟨r, -, -, -, -, he, -⟩
    · cases he
    · rfl
    · cases he
  subst hd
  split at h
  · cases h
    exact .inl ⟨_, rfl, rfl⟩
  rename_i ev ha
  obtain ⟨wk, hw, hn, hv, rfl⟩ := assign_ok ha
  split at h
  · rename_i e db2 hr
    cases h
    rcases reassign_cases hr with ⟨e', -, rfl⟩ | ⟨ho, -⟩
    · exact .inl ⟨_, rfl, rfl⟩
    · cases ho
  · rename_i db2 hr
    cases h
    exact .inr (.inr ⟨c, wk, hw, hn, hc, hv, rfl, hr⟩)

/-- The job of a launched scan: named after the scan, and pending. -/
structure ScanJob (scan : Scan) (envelope : SignedWorkerJob) : Prop where
  id : envelope.job.id = "scan-" ++ scan.id
  scanID : envelope.job.scanID = scan.id
  status : envelope.job.status = .pending

theorem dispatchScan_cases {scan : Scan} {sid : String} {clock : LaunchClock}
    (h : dispatchScan k db scan sid clock = (res, db')) :
    (∃ e, res = .error e ∧ db' = db) ∨
    ∃ ev, res = .ok ev ∧ ScanJob scan ev ∧
      (∀ r ∈ db.worker.jobs, r.id ≠ ev.job.id) ∧ db' = insertJob sqlite db ev clock.dispatch := by
  unfold dispatchScan at h
  split at h
  · cases h
    exact .inl ⟨_, rfl, rfl⟩
  · rcases dispatch_cases h with he | ⟨wk, -, -, ho, hn, hd⟩
    · exact .inl he
    · exact .inr ⟨_, ho, ⟨rfl, rfl, rfl⟩, hn, hd⟩

/-- A launch changes nothing; or it leaves the scan queued, with a new job; or
queued and then failed, without one. -/
theorem launchRemote_cases (h : Host) (k : Key) (db : DB) (scan : Scan) (sid : String) (clock : LaunchClock) :
    (launchRemote h k db scan sid clock).2 = db ∨
    ∃ db1, save h db (queuedScan scan) = (.ok (), db1) ∧
      ((∃ ev, ScanJob scan ev ∧ (∀ r ∈ db1.worker.jobs, r.id ≠ ev.job.id) ∧
          (launchRemote h k db scan sid clock).2 = insertJob sqlite db1 ev clock.dispatch) ∨
        (launchRemote h k db scan sid clock).2 = (save h db1 (failedScan scan clock.failure)).2) := by
  unfold launchRemote
  split
  · exact .inl rfl
  split
  · rename_i e db1 hs
    rcases save_cases hs with ⟨e', -, rfl⟩ | ⟨ho, -⟩
    · exact .inl rfl
    · cases ho
  rename_i db1 hs
  refine .inr ⟨db1, hs, ?_⟩
  split
  · rename_i e db2 hd
    rcases dispatchScan_cases hd with ⟨e', -, rfl⟩ | ⟨ev, ho, -⟩
    · exact .inr rfl
    · cases ho
  · rename_i ev db2 hd
    rcases dispatchScan_cases hd with ⟨e', he, -⟩ | ⟨ev', -, hj, hn, rfl⟩
    · cases he
    · exact .inl ⟨ev', hj, hn, rfl⟩

end

end Mossward.L3.JobDispatch
