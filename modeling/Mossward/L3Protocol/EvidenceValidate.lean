import Mossward.L1Encoding.NetAddr
import Mossward.L2Store.WorkerEvidence

/-!
# Validation of worker evidence

`workerevidence.Validate` checks a batch against the job it claims to report
on: identity, times, size, and that every item lies on a target address and a
port of the job. Addresses are compared as parsed, and identifiers must be
distinct within the batch. `internal/workerevidence/validate.go`.

Result: `validate_ok`.
-/
namespace Mossward.L3.EvidenceValidate

open L1.Rfc3339 L1.NetAddr Model L2.Schema

def evidenceSchemaVersion : Int := 1
def maximumEvidenceItems : Nat := 250
def maximumEvidenceBytes : Nat := 1048576
def evidenceIdentityLimit : Nat := 200
def evidenceClockSkew : Int := minute

/-- `at` is set, not before `from` and not after `until`, a minute's skew
allowed on both sides. -/
def within (at_ from_ until_ : Time) : Bool :=
  !at_.isZero && from_.ns - evidenceClockSkew ≤ at_.ns && at_.ns ≤ until_.ns + evidenceClockSkew

/-- The addresses and ports of a job. An address that does not parse is in no
checked item's reach: `ParseAddr` never returns the zero address. -/
structure Scope where
  targets : List Addr
  ports : List Int

def scopeOf (job : WorkerJob) : Scope where
  targets := job.targets.filterMap fun t => parseAddr t.address
  ports := job.ports

def Scope.contains (s : Scope) (address : String) (port : Int) : Bool :=
  match parseAddr address with
  | none => false
  | some a => a ∈ s.targets && port ∈ s.ports

/-- What observations and findings are checked by. -/
structure Item where
  id : String
  address : String
  port : Int
  observedAt : Time

/-- Mirrors `validEvidenceItem`, `internal/workerevidence/validate.go:107-117`:
the identifiers seen, with this one added. -/
def validEvidenceItem (job : WorkerJob) (collectedAt : Time) (identities : List String) (i : Item) :
    Option (List String) :=
  if !(scopeOf job).contains i.address i.port || i.id = "" || evidenceIdentityLimit < i.id.utf8ByteSize ||
      i.id ∈ identities || !within i.observedAt job.issuedAt collectedAt then none
  else some (i.id :: identities)

def validateItems (message : String) (job : WorkerJob) (collectedAt : Time) :
    List String → List Item → Except String (List String)
  | identities, [] => .ok identities
  | identities, i :: is =>
    match validEvidenceItem job collectedAt identities i with
    | none => .error message
    | some identities => validateItems message job collectedAt identities is

def observationItem (o : ServiceObservation) : Item := ⟨o.id, o.address, o.port, o.observedAt⟩
def findingItem (f : Finding) : Item := ⟨f.id, f.address, f.port, f.observedAt⟩

def checkpointMessage : String := "worker checkpoint is duplicate, invalid, or outside its job"

/-- The checkpoints seen, by parsed address and port, with this one added. -/
def validCheckpoint (job : WorkerJob) (collectedAt : Time) (seen : List (Addr × Int))
    (c : WorkerCheckpoint) : Option (List (Addr × Int)) :=
  match parseAddr c.address with
  | none => none
  | some a =>
    if !L2.WorkerEvidence.portAllowed c.port || (a, c.port) ∈ seen ||
        !(scopeOf job).contains c.address c.port || !within c.completedAt job.issuedAt collectedAt then none
    else some ((a, c.port) :: seen)

def validateCheckpoints (job : WorkerJob) (collectedAt : Time) :
    List (Addr × Int) → List WorkerCheckpoint → Except String Unit
  | _, [] => .ok ()
  | seen, c :: cs =>
    match validCheckpoint job collectedAt seen c with
    | none => .error checkpointMessage
    | some seen => validateCheckpoints job collectedAt seen cs

/-- Mirrors `internal/workerevidence/validate.go:70-105`. Observations and
findings share one set of identifiers. -/
def validateEvidenceItems (batch : WorkerEvidenceBatch) (job : WorkerJob) : Except String Unit :=
  match validateItems "worker observation is duplicate, invalid, or outside its job" job batch.collectedAt []
      (batch.observations.map observationItem) with
  | .error e => .error e
  | .ok identities =>
    match validateItems "worker finding is duplicate, invalid, or outside its job" job batch.collectedAt
        identities (batch.findings.map findingItem) with
    | .error e => .error e
    | .ok _ => validateCheckpoints job batch.collectedAt [] batch.checkpoints

def validEvidenceIdentities (batch : WorkerEvidenceBatch) (job : WorkerJob) : Bool :=
  batch.id ≠ "" && batch.id.utf8ByteSize ≤ evidenceIdentityLimit && batch.workerID = job.workerID &&
    batch.jobID = job.id && batch.scanID = job.scanID

/-- Mirrors `internal/workerevidence/validate.go:41-63`. `encodedSize` is the
length of the batch's JSON text. -/
def validate (encodedSize : WorkerEvidenceBatch → Nat) (batch : WorkerEvidenceBatch) (job : WorkerJob)
    (now : Time) : Except String Unit :=
  let itemCount := batch.observations.length + batch.findings.length + batch.checkpoints.length
  if batch.schemaVersion ≠ evidenceSchemaVersion || batch.sequence = 0 then
    .error "worker evidence schema or sequence is invalid"
  else if !validEvidenceIdentities batch job then .error "worker evidence identity is invalid"
  else if !within batch.collectedAt job.issuedAt now then .error "worker evidence collection time is invalid"
  else if itemCount = 0 && !batch.final then .error "non-final worker evidence batch is empty"
  else if maximumEvidenceItems < itemCount then .error "worker evidence batch contains too many items"
  else if maximumEvidenceBytes < encodedSize batch then
    .error "worker evidence batch exceeds its encoded size limit"
  else validateEvidenceItems batch job

/-! ## What is accepted -/

/-- A row on a target address and a port of the job, however the address is
written. -/
def InScope (job : WorkerJob) (address : String) (port : Int) : Prop :=
  ∃ t ∈ job.targets, (parseAddr t.address).isSome ∧ parseAddr address = parseAddr t.address ∧ port ∈ job.ports

variable {job : WorkerJob}

theorem inScope_of_contains {adr : String} {port : Int}
    (h : (scopeOf job).contains adr port) : InScope job adr port := by
  unfold Scope.contains at h
  split at h
  · cases h
  rename_i a ha
  simp only [Bool.and_eq_true, decide_eq_true_eq, scopeOf, List.mem_filterMap] at h
  obtain ⟨⟨t, ht, hta⟩, hp⟩ := h
  exact ⟨t, ht, by rw [hta]; rfl, by rw [ha, hta], of_decide_eq_true hp⟩

theorem validateCheckpoints_ok {at1 : Time} {seen : List (Addr × Int)}
    {cs : List WorkerCheckpoint} (h : validateCheckpoints job at1 seen cs = .ok ()) :
    ∀ c ∈ cs, InScope job c.address c.port := by
  induction cs generalizing seen with
  | nil => exact fun c hc => by cases hc
  | cons d ds ih =>
    unfold validateCheckpoints at h
    split at h
    · cases h
    rename_i seen' hd
    intro c hc
    rcases List.mem_cons.mp hc with rfl | hc
    · unfold validCheckpoint at hd
      split at hd
      · cases hd
      split at hd
      · cases hd
      · rename_i hch
        simp only [Bool.or_eq_true, not_or, Bool.not_eq_true', Bool.not_eq_false] at hch
        exact inScope_of_contains hch.1.2
    · exact ih h c hc

theorem validate_ok {size : WorkerEvidenceBatch → Nat} {bt : WorkerEvidenceBatch} {now : Time}
    (h : validate size bt job now = .ok ()) :
    bt.jobID = job.id ∧ ∀ c ∈ bt.checkpoints, InScope job c.address c.port := by
  simp only [validate] at h
  split at h
  · cases h
  split at h
  · cases h
  rename_i hi
  split at h
  · cases h
  split at h
  · cases h
  split at h
  · cases h
  split at h
  · cases h
  simp only [validEvidenceIdentities, Bool.not_eq_true', Bool.not_eq_false, Bool.and_eq_true,
    decide_eq_true_eq] at hi
  refine ⟨hi.1.2, ?_⟩
  unfold validateEvidenceItems at h
  split at h
  · cases h
  · split at h
    · cases h
    · exact validateCheckpoints_ok h

end Mossward.L3.EvidenceValidate
