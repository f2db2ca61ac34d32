import Mossward.Core.Json
import Mossward.L1Encoding.Rfc3339Parse
import Mossward.Model

/-!
# Worker jobs as JSON

How `encoding/json` writes and reads a `SignedWorkerJob`: the names and
`omitempty` marks of the struct tags, times as RFC 3339 texts, and the reader
of a target, which has rules of its own (`internal/model/model.go:64-87`). A
field that is missing or `null` keeps its zero value.

Integers are not bounded here: a Go integer is in range by its type, so what a
job was written with is never out of range when it is read.

Result: `unmarshalSignedJob_marshal`.
-/
namespace Mossward.L1.JobJson

open Json Model L1.Rfc3339

/-! ## Enumerations -/

def capabilityText : WorkerCapability → String
  | .tcpConnect => "tcp_connect"
  | .serviceIdentification => "service_identification"
  | .http => "http_configuration"
  | .tls => "tls_configuration"
  | .ssh => "ssh_configuration"
  | .other text _ => text

def capabilityOf (text : String) : WorkerCapability :=
  if h : text ∉ capabilityTexts then .other text h
  else if text = "tcp_connect" then .tcpConnect
  else if text = "service_identification" then .serviceIdentification
  else if text = "http_configuration" then .http
  else if text = "tls_configuration" then .tls
  else .ssh

def jobStatusText : WorkerJobStatus → String
  | .pending => "pending"
  | .leased => "leased"
  | .completed => "completed"
  | .canceled => "canceled"
  | .expired => "expired"
  | .other text _ => text

def jobStatusOf (text : String) : WorkerJobStatus :=
  if h : text ∉ jobStatusTexts then .other text h
  else if text = "pending" then .pending
  else if text = "leased" then .leased
  else if text = "completed" then .completed
  else if text = "canceled" then .canceled
  else .expired

theorem capabilityOf_text (c : WorkerCapability) : capabilityOf (capabilityText c) = c := by
  cases c with
  | other text unnamed => simp [capabilityText, capabilityOf, unnamed]
  | tcpConnect => decide
  | serviceIdentification => decide
  | http => decide
  | tls => decide
  | ssh => decide

theorem jobStatusOf_text (s : WorkerJobStatus) : jobStatusOf (jobStatusText s) = s := by
  cases s with
  | other text unnamed => simp [jobStatusText, jobStatusOf, unnamed]
  | pending => decide
  | leased => decide
  | completed => decide
  | canceled => decide
  | expired => decide

/-! ## Decoding -/

inductive DecodeError
  /-- no JSON text -/
  | malformed
  /-- a value of another kind than the field -/
  | mismatch
  /-- `decode target: …` -/
  | target (cause : DecodeError)
  /-- `target name and address are required` -/
  | targetIncomplete
deriving DecidableEq, Repr

abbrev Decoded (α : Type) := Except DecodeError α

section Fields

variable {α : Type}

/-- `null` leaves the value that is there. -/
def orZero (zero : α) (dec : Value → Decoded α) : Value → Decoded α
  | .null => .ok zero
  | v => dec v

def decodeField (ms : List (String × Value)) (name : String) (zero : α) (dec : Value → Decoded α) : Decoded α :=
  match lookup name ms with
  | none => .ok zero
  | some v => orZero zero dec v

def decodeList (dec : Value → Decoded α) : Value → Decoded (List α)
  | .arr vs => vs.mapM dec
  | _ => .error .mismatch

def decodeString : Value → Decoded String
  | .str s => .ok s
  | _ => .error .mismatch

def decodeInt : Value → Decoded Int
  | .num n => .ok n
  | .literal l => if l.text = ['-', '0'] then .ok 0 else .error .mismatch
  | _ => .error .mismatch

def decodeUint : Value → Decoded Nat
  | .num (.ofNat n) => .ok n
  | _ => .error .mismatch

/-- `Time.UnmarshalJSON`. -/
def decodeTime : Value → Decoded Time
  | .str s =>
    match parseTime s with
    | some t => .ok t
    | none => .error .malformed
  | _ => .error .mismatch

def decodeObject (dec : List (String × Value) → Decoded α) : Value → Decoded α
  | .obj ms => dec ms
  | _ => .error .mismatch

variable {dec : Value → Decoded α}

/-- The field at a position of a written record is read by the decoder of its
value; when it was omitted, the zero value must be what the decoder would have
read. -/
theorem decodeField_members {fs : List Field} (hn : DistinctNames (fs.map (·.name))) (i : Nat)
    {name : String} {v : Value} {omitted : Bool} (hf : fs[i]? = some ⟨name, v, omitted⟩)
    {zero : α} {r : Decoded α} (hd : orZero zero dec v = r)
    (hz : omitted = true → r = .ok zero) : decodeField (members fs) name zero dec = r := by
  have hl := lookup_members hn (List.mem_of_getElem? hf)
  rw [decodeField, hl]
  cases omitted with
  | false => exact hd
  | true => exact (hz rfl).symm

theorem decodeField_written {fs : List Field} (hn : DistinctNames (fs.map (·.name))) (i : Nat)
    {name : String} {v : Value} (hf : fs[i]? = some ⟨name, v, false⟩)
    {zero : α} {r : Decoded α} (hd : orZero zero dec v = r) :
    decodeField (members fs) name zero dec = r :=
  decodeField_members hn i hf hd (by simp)

theorem decodeList_map {enc : α → Value} (h : ∀ x, dec (enc x) = .ok x)
    (xs : List α) : decodeList dec (.arr (xs.map enc)) = .ok xs := by
  rw [decodeList]
  induction xs with
  | nil => rfl
  | cons x xs ih => rw [List.map_cons, List.mapM_cons, h, ih]; rfl

end Fields

/-! ## Targets and resume manifests -/

def encodeTime (t : Time) : Value := .str (formatTime t.ns)

def encodeStrings (xs : List String) : Value := .arr (xs.map .str)

def decodeStrings : Value → Decoded (List String) := decodeList (orZero "" decodeString)

def targetFields (t : Target) : List Field :=
  [⟨"name", .str t.name, false⟩, ⟨"address", .str t.address, false⟩,
    ⟨"group_ids", encodeStrings t.groupIDs, t.groupIDs.isEmpty⟩]

def encodeTarget (t : Target) : Value := .obj (members (targetFields t))

/-- The target's own fields, without the checks of `UnmarshalJSON`. -/
def decodeTargetFields (ms : List (String × Value)) : Decoded Target := do
  let name ← decodeField ms "name" "" decodeString
  let address ← decodeField ms "address" "" decodeString
  let groupIDs ← decodeField ms "group_ids" [] decodeStrings
  return { name := name, address := address, groupIDs := groupIDs }

def incomplete (t : Target) : Bool := t.name = "" || t.address = ""

/-- Mirrors `Target.UnmarshalJSON`, `internal/model/model.go:70-87`. A string
stands for both name and address, and `null` is read as the empty string. -/
def decodeTarget : Value → Decoded Target
  | .str legacy => .ok { name := legacy, address := legacy, groupIDs := [] }
  | .null => .ok { name := "", address := "", groupIDs := [] }
  | v =>
    match decodeObject decodeTargetFields v with
    | .error e => .error (.target e)
    | .ok t => if incomplete t then .error .targetIncomplete else .ok t

def checkpointFields (c : WorkerCheckpoint) : List Field :=
  [⟨"address", .str c.address, false⟩, ⟨"port", .num c.port, false⟩,
    ⟨"completed_at", encodeTime c.completedAt, false⟩]

def decodeCheckpoint (ms : List (String × Value)) : Decoded WorkerCheckpoint := do
  let address ← decodeField ms "address" "" decodeString
  let port ← decodeField ms "port" 0 decodeInt
  let completedAt ← decodeField ms "completed_at" Time.zero decodeTime
  return { address := address, port := port, completedAt := completedAt }

def encodeCheckpoint (c : WorkerCheckpoint) : Value := .obj (members (checkpointFields c))

def zeroCheckpoint : WorkerCheckpoint := { address := "", port := 0, completedAt := Time.zero }

def resumeFields (r : WorkerJobResume) : List Field :=
  [⟨"previous_worker_id", .str r.previousWorkerID, false⟩,
    ⟨"completed", .arr (r.completed.map encodeCheckpoint), false⟩,
    ⟨"next_evidence_sequence", .num r.nextEvidenceSequence, false⟩]

def decodeResume (ms : List (String × Value)) : Decoded WorkerJobResume := do
  let previousWorkerID ← decodeField ms "previous_worker_id" "" decodeString
  let completed ← decodeField ms "completed" []
    (decodeList (orZero zeroCheckpoint (decodeObject decodeCheckpoint)))
  let nextEvidenceSequence ← decodeField ms "next_evidence_sequence" 0 decodeUint
  return { previousWorkerID := previousWorkerID, completed := completed
           nextEvidenceSequence := nextEvidenceSequence }

def encodeResume (r : WorkerJobResume) : Value := .obj (members (resumeFields r))

/-! ## Jobs and envelopes -/

/-- The struct tags of `WorkerJob`, `internal/model/worker_job.go:15-30`. -/
def jobFields (job : WorkerJob) : List Field :=
  [⟨"schema_version", .num job.schemaVersion, false⟩,
    ⟨"id", .str job.id, false⟩,
    ⟨"worker_id", .str job.workerID, false⟩,
    ⟨"scan_id", .str job.scanID, false⟩,
    ⟨"site_id", .str job.siteID, job.siteID = ""⟩,
    ⟨"issued_at", encodeTime job.issuedAt, false⟩,
    ⟨"expires_at", encodeTime job.expiresAt, false⟩,
    ⟨"targets", .arr (job.targets.map encodeTarget), false⟩,
    ⟨"ports", .arr (job.ports.map .num), false⟩,
    ⟨"max_concurrent", .num job.maxConcurrent, false⟩,
    ⟨"rate_limit_per_second", .num job.rateLimitPerSecond, false⟩,
    ⟨"required_capabilities", .arr (job.requiredCapabilities.map fun c => .str (capabilityText c)), false⟩,
    ⟨"resume", (job.resume.map encodeResume).getD .null, job.resume.isNone⟩,
    ⟨"status", .str (jobStatusText job.status), false⟩]

def encodeJob (job : WorkerJob) : Value := .obj (members (jobFields job))

def decodeCapability (v : Value) : Decoded WorkerCapability :=
  (orZero "" decodeString v).map capabilityOf

def decodeJob (ms : List (String × Value)) : Decoded WorkerJob := do
  let schemaVersion ← decodeField ms "schema_version" 0 decodeInt
  let id ← decodeField ms "id" "" decodeString
  let workerID ← decodeField ms "worker_id" "" decodeString
  let scanID ← decodeField ms "scan_id" "" decodeString
  let siteID ← decodeField ms "site_id" "" decodeString
  let issuedAt ← decodeField ms "issued_at" Time.zero decodeTime
  let expiresAt ← decodeField ms "expires_at" Time.zero decodeTime
  let targets ← decodeField ms "targets" [] (decodeList decodeTarget)
  let ports ← decodeField ms "ports" [] (decodeList (orZero 0 decodeInt))
  let maxConcurrent ← decodeField ms "max_concurrent" 0 decodeInt
  let rateLimitPerSecond ← decodeField ms "rate_limit_per_second" 0 decodeInt
  let requiredCapabilities ← decodeField ms "required_capabilities" [] (decodeList decodeCapability)
  let resume ← decodeField ms "resume" none fun v => (decodeObject decodeResume v).map some
  let status ← decodeField ms "status" (jobStatusOf "") fun v => (decodeString v).map jobStatusOf
  return { schemaVersion := schemaVersion, id := id, workerID := workerID, scanID := scanID, siteID := siteID
           issuedAt := issuedAt, expiresAt := expiresAt, targets := targets, ports := ports
           maxConcurrent := maxConcurrent, rateLimitPerSecond := rateLimitPerSecond
           requiredCapabilities := requiredCapabilities, resume := resume, status := status }

def zeroJob : WorkerJob where
  schemaVersion := 0
  id := ""
  workerID := ""
  scanID := ""
  siteID := ""
  issuedAt := Time.zero
  expiresAt := Time.zero
  targets := []
  ports := []
  maxConcurrent := 0
  rateLimitPerSecond := 0
  requiredCapabilities := []
  resume := none
  status := jobStatusOf ""

def signedJobFields (e : SignedWorkerJob) : List Field :=
  [⟨"algorithm", .str e.algorithm, false⟩, ⟨"key_id", .str e.keyID, false⟩, ⟨"job", encodeJob e.job, false⟩,
    ⟨"signature", .str e.signature, false⟩]

def encodeSignedJob (e : SignedWorkerJob) : Value := .obj (members (signedJobFields e))

def decodeSignedJob (ms : List (String × Value)) : Decoded SignedWorkerJob := do
  let algorithm ← decodeField ms "algorithm" "" decodeString
  let keyID ← decodeField ms "key_id" "" decodeString
  let job ← decodeField ms "job" zeroJob (decodeObject decodeJob)
  let signature ← decodeField ms "signature" "" decodeString
  return { algorithm := algorithm, keyID := keyID, job := job, signature := signature }

def zeroSignedJob : SignedWorkerJob := { algorithm := "", keyID := "", job := zeroJob, signature := "" }

/-- The nesting that `encoding/json` reads. -/
def maxNestingDepth : Nat := 10000

/-- `json.Marshal` of a job: `canonicalJob`, `internal/workerjob/signer.go:90-92`. -/
def canonicalJob (job : WorkerJob) : String := String.ofList (encodeJob job).text

def marshalSignedJob (e : SignedWorkerJob) : String := String.ofList (encodeSignedJob e).text

def unmarshalSignedJob (text : String) : Decoded SignedWorkerJob :=
  match parse maxNestingDepth text.toList with
  | none => .error .malformed
  | some v => orZero zeroSignedJob (decodeObject decodeSignedJob) v

/-! ## Values are read back -/

theorem decodeTime_encode (t : Time) : decodeTime (encodeTime t) = .ok t := by
  rw [encodeTime, decodeTime, parseTime_formatTime]

theorem targetFields_distinct (t : Target) : DistinctNames ((targetFields t).map (·.name)) := by
  have hn : (targetFields t).map (·.name) = ["name", "address", "group_ids"] := rfl
  rw [hn]
  decide +kernel

theorem decodeStrings_encode (xs : List String) : decodeStrings (encodeStrings xs) = .ok xs :=
  @decodeList_map String (orZero "" decodeString) .str (fun _ => rfl) xs

theorem decodeTargetFields_members (t : Target) : decodeTargetFields (members (targetFields t)) = .ok t := by
  have hn := targetFields_distinct t
  have hna : decodeField (members (targetFields t)) "name" "" decodeString = .ok t.name :=
    decodeField_written hn 0 rfl rfl
  have ha : decodeField (members (targetFields t)) "address" "" decodeString = .ok t.address :=
    decodeField_written hn 1 rfl rfl
  have hg : decodeField (members (targetFields t)) "group_ids" [] decodeStrings = .ok t.groupIDs :=
    decodeField_members hn 2 rfl (decodeStrings_encode t.groupIDs) fun h => by
      rw [List.isEmpty_iff.mp h]
  rw [decodeTargetFields, hna, ha, hg]
  rfl

theorem decodeTarget_encode (t : Target) :
    decodeTarget (encodeTarget t) = if incomplete t then .error .targetIncomplete else .ok t := by
  simp only [encodeTarget, decodeTarget, decodeObject]
  rw [decodeTargetFields_members]

theorem decodeTargets_encode (ts : List Target) : decodeList decodeTarget (.arr (ts.map encodeTarget)) =
      if ts.any incomplete then .error .targetIncomplete else .ok ts := by
  rw [decodeList]
  induction ts with
  | nil => rfl
  | cons t ts ih =>
    rw [List.map_cons, List.mapM_cons, decodeTarget_encode, ih, List.any_cons]
    by_cases ht : incomplete t = true
    · simp only [ht]
      rfl
    by_cases hts : ts.any incomplete = true
    · simp only [ht, hts]
      rfl
    · simp only [ht, hts]
      rfl

theorem checkpointFields_distinct (c : WorkerCheckpoint) : DistinctNames ((checkpointFields c).map (·.name)) := by
  have hn : (checkpointFields c).map (·.name) = ["address", "port", "completed_at"] := rfl
  rw [hn]
  decide +kernel

theorem decodeCheckpoint_members (c : WorkerCheckpoint) :
    decodeCheckpoint (members (checkpointFields c)) = .ok c := by
  have hn := checkpointFields_distinct c
  have ha : decodeField (members (checkpointFields c)) "address" "" decodeString = .ok c.address :=
    decodeField_written hn 0 rfl rfl
  have hp : decodeField (members (checkpointFields c)) "port" 0 decodeInt = .ok c.port :=
    decodeField_written hn 1 rfl rfl
  have ht : decodeField (members (checkpointFields c)) "completed_at" Time.zero decodeTime =
      .ok c.completedAt :=
    decodeField_written hn 2 rfl (decodeTime_encode c.completedAt)
  rw [decodeCheckpoint, ha, hp, ht]
  rfl

theorem resumeFields_distinct (r : WorkerJobResume) : DistinctNames ((resumeFields r).map (·.name)) := by
  have hn : (resumeFields r).map (·.name) =
      ["previous_worker_id", "completed", "next_evidence_sequence"] := rfl
  rw [hn]
  decide +kernel

theorem decodeResume_members (r : WorkerJobResume) : decodeResume (members (resumeFields r)) = .ok r := by
  have hn := resumeFields_distinct r
  have hp : decodeField (members (resumeFields r)) "previous_worker_id" "" decodeString =
      .ok r.previousWorkerID :=
    decodeField_written hn 0 rfl rfl
  have hc : decodeField (members (resumeFields r)) "completed" []
      (decodeList (orZero zeroCheckpoint (decodeObject decodeCheckpoint))) = .ok r.completed :=
    decodeField_written hn 1 rfl (decodeList_map decodeCheckpoint_members r.completed)
  have hs : decodeField (members (resumeFields r)) "next_evidence_sequence" 0 decodeUint =
      .ok r.nextEvidenceSequence :=
    decodeField_written hn 2 rfl rfl
  rw [decodeResume, hp, hc, hs]
  rfl

theorem jobFields_distinct (job : WorkerJob) : DistinctNames ((jobFields job).map (·.name)) := by
  have hn : (jobFields job).map (·.name) =
      ["schema_version", "id", "worker_id", "scan_id", "site_id", "issued_at", "expires_at", "targets", "ports",
        "max_concurrent", "rate_limit_per_second", "required_capabilities", "resume", "status"] := rfl
  rw [hn]
  decide +kernel

theorem decodeCapability_encode (c : WorkerCapability) : decodeCapability (.str (capabilityText c)) = .ok c := by
  simp only [decodeCapability, orZero, decodeString, Except.map, capabilityOf_text]

theorem decodeResume_encode (resume : Option WorkerJobResume) :
    orZero none (fun v => (decodeObject decodeResume v).map some) ((resume.map encodeResume).getD .null) =
      .ok resume := by
  cases resume with
  | none => rfl
  | some r =>
    simp only [Option.map_some, Option.getD_some, encodeResume, orZero, decodeObject]
    rw [decodeResume_members]
    rfl

theorem decodeJob_members (job : WorkerJob) : decodeJob (members (jobFields job)) =
      if job.targets.any incomplete then .error .targetIncomplete else .ok job := by
  have hn := jobFields_distinct job
  obtain ⟨ms, hm⟩ : ∃ ms, ms = members (jobFields job) := ⟨_, rfl⟩
  rw [← hm]
  have hsc : decodeField ms "schema_version" 0 decodeInt = .ok job.schemaVersion :=
    hm ▸ decodeField_written hn 0 rfl rfl
  have hid : decodeField ms "id" "" decodeString = .ok job.id := hm ▸ decodeField_written hn 1 rfl rfl
  have hw : decodeField ms "worker_id" "" decodeString = .ok job.workerID :=
    hm ▸ decodeField_written hn 2 rfl rfl
  have hsca : decodeField ms "scan_id" "" decodeString = .ok job.scanID :=
    hm ▸ decodeField_written hn 3 rfl rfl
  have hsi : decodeField ms "site_id" "" decodeString = .ok job.siteID :=
    hm ▸ decodeField_members hn 4 rfl rfl fun h => by rw [of_decide_eq_true h]
  have hi : decodeField ms "issued_at" Time.zero decodeTime = .ok job.issuedAt :=
    hm ▸ decodeField_written hn 5 rfl (decodeTime_encode job.issuedAt)
  have he : decodeField ms "expires_at" Time.zero decodeTime = .ok job.expiresAt :=
    hm ▸ decodeField_written hn 6 rfl (decodeTime_encode job.expiresAt)
  have ht : decodeField ms "targets" [] (decodeList decodeTarget) =
      if job.targets.any incomplete then .error .targetIncomplete else .ok job.targets :=
    hm ▸ decodeField_written hn 7 rfl (decodeTargets_encode job.targets)
  have hp : decodeField ms "ports" [] (decodeList (orZero 0 decodeInt)) = .ok job.ports :=
    hm ▸ decodeField_written hn 8 rfl (@decodeList_map Int (orZero 0 decodeInt) .num (fun _ => rfl) job.ports)
  have hma : decodeField ms "max_concurrent" 0 decodeInt = .ok job.maxConcurrent :=
    hm ▸ decodeField_written hn 9 rfl rfl
  have hra : decodeField ms "rate_limit_per_second" 0 decodeInt = .ok job.rateLimitPerSecond :=
    hm ▸ decodeField_written hn 10 rfl rfl
  have hc : decodeField ms "required_capabilities" [] (decodeList decodeCapability) =
      .ok job.requiredCapabilities :=
    hm ▸ decodeField_written hn 11 rfl (decodeList_map decodeCapability_encode job.requiredCapabilities)
  have hr : decodeField ms "resume" none (fun v => (decodeObject decodeResume v).map some) = .ok job.resume :=
    hm ▸ decodeField_members hn 12 rfl (decodeResume_encode job.resume) fun h => by
      rw [Option.isNone_iff_eq_none.mp h]
  have hs : decodeField ms "status" (jobStatusOf "") (fun v => (decodeString v).map jobStatusOf) =
      .ok job.status :=
    hm ▸ decodeField_written hn 13 rfl (congrArg Except.ok (jobStatusOf_text job.status))
  rw [decodeJob, hsc, hid, hw, hsca, hsi, hi, he, ht, hp, hma, hra, hc, hr, hs]
  cases job.targets.any incomplete <;> rfl

variable (e : SignedWorkerJob)

theorem signedJobFields_distinct : DistinctNames ((signedJobFields e).map (·.name)) := by
  have hn : (signedJobFields e).map (·.name) = ["algorithm", "key_id", "job", "signature"] := rfl
  rw [hn]
  decide +kernel

theorem decodeSignedJob_members : decodeSignedJob (members (signedJobFields e)) =
      if e.job.targets.any incomplete then .error .targetIncomplete else .ok e := by
  have hn := signedJobFields_distinct e
  have ha : decodeField (members (signedJobFields e)) "algorithm" "" decodeString = .ok e.algorithm :=
    decodeField_written hn 0 rfl rfl
  have hk : decodeField (members (signedJobFields e)) "key_id" "" decodeString = .ok e.keyID :=
    decodeField_written hn 1 rfl rfl
  have hj : decodeField (members (signedJobFields e)) "job" zeroJob (decodeObject decodeJob) =
      if e.job.targets.any incomplete then .error .targetIncomplete else .ok e.job :=
    decodeField_written hn 2 rfl (decodeJob_members e.job)
  have hs : decodeField (members (signedJobFields e)) "signature" "" decodeString = .ok e.signature :=
    decodeField_written hn 3 rfl rfl
  rw [decodeSignedJob, ha, hk, hj, hs]
  cases e.job.targets.any incomplete <;> rfl

/-! ## Texts are read back -/

theorem encodeTarget_depth (t : Target) : (encodeTarget t).depth ≤ 2 := by
  refine depth_members_le ?_
  have hg : (encodeStrings t.groupIDs).depth ≤ 1 :=
    @depth_arr_map_le 0 String .str (fun _ => Nat.le_refl 0) t.groupIDs
  simp [targetFields, hg]

theorem encodeResume_depth (r : WorkerJobResume) : (encodeResume r).depth ≤ 3 := by
  have hc : ∀ c, (encodeCheckpoint c).depth ≤ 1 := by
    intro c
    refine depth_members_le ?_
    simp [checkpointFields, encodeTime]
  refine depth_members_le ?_
  have hco := depth_arr_map_le hc r.completed
  simp [resumeFields, hco]

theorem encodeJob_depth (job : WorkerJob) : (encodeJob job).depth ≤ 4 := by
  refine depth_members_le ?_
  have ht := depth_arr_map_le encodeTarget_depth job.targets
  have hp := @depth_arr_map_le 0 Int .num (fun _ => Nat.le_refl 0) job.ports
  have hc := @depth_arr_map_le 0 WorkerCapability (fun c => .str (capabilityText c)) (fun _ => Nat.le_refl 0)
      job.requiredCapabilities
  have hr : ((job.resume.map encodeResume).getD .null).depth ≤ 3 := by
    cases job.resume with
    | none => exact Nat.zero_le 3
    | some r => exact encodeResume_depth r
  have hp' := hp.trans (show 0 + 1 ≤ 3 by decide)
  have hc' := hc.trans (show 0 + 1 ≤ 3 by decide)
  simp [jobFields, encodeTime, ht, hp', hc', hr]

theorem encodeSignedJob_depth : (encodeSignedJob e).depth ≤ 5 := by
  refine depth_members_le ?_
  have hj := encodeJob_depth e.job
  simp [signedJobFields, hj]

/-- **Result.** An envelope is read back as it was written, unless one of its
targets lacks a name or an address; then it is refused. -/
theorem unmarshalSignedJob_marshal : unmarshalSignedJob (marshalSignedJob e) =
      if e.job.targets.any incomplete then .error .targetIncomplete else .ok e := by
  have hd : (encodeSignedJob e).depth ≤ maxNestingDepth := (encodeSignedJob_depth e).trans (by decide)
  rw [unmarshalSignedJob, marshalSignedJob, String.toList_ofList, parse_text hd]
  exact decodeSignedJob_members e

end Mossward.L1.JobJson
