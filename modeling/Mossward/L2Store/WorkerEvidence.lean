import Mossward.L2Store.WorkerJob

/-!
# Worker evidence: the log of accepted batches

A worker reports its work in batches numbered from 1. A batch is accepted
while its job is leased to the worker, directly after the job's last batch,
and not after a final batch of the same worker; its checkpoints are added to
the job's, one row per reported address text and port.

Results:

* `validateEvidenceSequence_ok`: what an admitted batch finds in the tables.
* `Sqlite.record_cases`, `Postgres.record_cases`: a submission fails without
  effect or appends exactly its batch.
* `evidenceReplay_eq_none`, `evidenceReplay_of_mem`: the replay check.
-/
namespace Mossward.L2.WorkerEvidence

open Table L1.Rfc3339 Model L2.Schema L2.WorkerJob

/-- The lookup of a batch identifier: the error to return if it is taken. -/
def evidenceReplay (w : WorkerTables) (envelope : SignedWorkerEvidenceBatch) : Option StoreError :=
  match w.batches.find? (fun b => b.batchID = envelope.batch.id) with
  | none => none
  | some b =>
    some (if b.signedEnvelope = envelope then .workerEvidenceAlreadyAccepted else .workerEvidenceReplay)

section
variable (D : Dialect)

/-- Mirrors `validateEvidenceSequence`, `internal/store/worker_evidence.go:76-99`,
and `validatePostgreSQLWorkerEvidenceSequence`: both compare the stored times
with the received time itself, as texts or as instants. -/
def validateEvidenceSequence (w : WorkerTables) (batch : WorkerEvidenceBatch) (receivedAt : Time) :
    Except StoreError Unit :=
  match w.jobs.find? (fun r => r.id = batch.jobID) with
  | none => .error .invalidWorkerJobLease
  | some j =>
    if j.workerID ≠ batch.workerID || j.scanID ≠ batch.scanID || j.status ≠ .leased ||
        !D.lt receivedAt j.expiresAt || !D.gtOpt j.leaseExpiresAt receivedAt then
      .error .invalidWorkerJobLease
    else
      let last := lastBatch w batch.jobID
      if last.any (fun b => b.final && b.workerID = batch.workerID) ||
          batch.sequence ≠ (last.map (·.sequence)).getD 0 + 1 then
        .error .workerEvidenceSequence
      else .ok ()

def checkpointRow (batch : WorkerEvidenceBatch) (c : WorkerCheckpoint) : CheckpointRow where
  jobID := batch.jobID
  workerID := batch.workerID
  scanID := batch.scanID
  address := c.address
  port := c.port
  completedAt := D.bind c.completedAt
  batchID := batch.id

/-- `CHECK(port BETWEEN 1 AND 65535)`. -/
def portAllowed (port : Int) : Bool := 1 ≤ port && port ≤ 65535

/-- The tables with the batch and its checkpoints added. -/
def appendBatch (db : DB) (envelope : SignedWorkerEvidenceBatch) (receivedAt : Time) : DB :=
  { db with worker := { db.worker with
      batches := db.worker.batches ++ [{ signedEnvelope := envelope, receivedAt := D.bind receivedAt }]
      checkpoints := insertIgnore CheckpointRow.key db.worker.checkpoints
        (envelope.batch.checkpoints.map (checkpointRow D envelope.batch)) } }

/-- The inserts. The foreign keys and `UNIQUE(job_id,sequence)` hold after
`validateEvidenceSequence`: the job row has the batch's worker, and the
sequence number is one more than the largest. -/
def insertBatch (batchContext checkpointContext : String) (db : DB)
    (envelope : SignedWorkerEvidenceBatch) (receivedAt : Time) : Result Unit :=
  if D.sequenceMax < envelope.batch.sequence then
    (.error (.context batchContext (.constraint .scannerWorkerEvidenceBatches .range)), db)
  else if !envelope.batch.checkpoints.all (fun c => portAllowed c.port) then
    (.error (.context checkpointContext (.constraint .scannerWorkerJobCheckpoints .check)), db)
  else (.ok (), appendBatch D db envelope receivedAt)

end

/-- Mirrors `internal/store/worker_evidence.go:13-55`. -/
def Sqlite.recordScannerWorkerEvidenceBatch (db : DB) (envelope : SignedWorkerEvidenceBatch)
    (receivedAt : Time) : Result Unit :=
  match evidenceReplay db.worker envelope with
  | some e => (.error e, db)
  | none =>
    match validateEvidenceSequence sqlite db.worker envelope.batch receivedAt with
    | .error e => (.error e, db)
    | .ok () =>
      insertBatch sqlite "record scanner-worker evidence batch" "record scanner-worker checkpoint"
        db envelope receivedAt

/-- Mirrors `internal/store/postgres_worker_evidence.go:13-48`: the replay is
looked up again once the job row is locked. -/
def Postgres.recordScannerWorkerEvidenceBatch (collate : String → String → Bool) (db : DB)
    (envelope : SignedWorkerEvidenceBatch) (receivedAt : Time) : Result Unit :=
  match evidenceReplay db.worker envelope with
  | some e => (.error e, db)
  | none =>
    match validateEvidenceSequence (postgres collate) db.worker envelope.batch receivedAt with
    | .error e => (.error e, db)
    | .ok () =>
      match evidenceReplay db.worker envelope with
      | some e => (.error e, db)
      | none =>
        insertBatch (postgres collate) "record PostgreSQL scanner-worker evidence batch"
          "record PostgreSQL scanner-worker checkpoint" db envelope receivedAt

/-! ## What a submission does -/

variable {w : WorkerTables}

theorem evidenceReplay_eq_none {ev : SignedWorkerEvidenceBatch}
    (h : evidenceReplay w ev = none) : ∀ b ∈ w.batches, b.batchID ≠ ev.batch.id := by
  intro b hb he
  unfold evidenceReplay at h
  split at h
  · rename_i hn
    have := List.find?_eq_none.mp hn b hb
    simp [he] at this
  · cases h

theorem evidenceReplay_of_mem (hk : Keyed BatchRow.batchID w.batches)
    {b : BatchRow} (hb : b ∈ w.batches) {ev : SignedWorkerEvidenceBatch}
    (hi : ev.batch.id = b.batchID) :
    evidenceReplay w ev = some (if b.signedEnvelope = ev then
      .workerEvidenceAlreadyAccepted else .workerEvidenceReplay) := by
  unfold evidenceReplay
  rw [hi, hk.find?_eq hb]

/-- What the tables look like to a batch that is admitted. -/
structure Admitted (D : Dialect) (w : WorkerTables) (batch : WorkerEvidenceBatch) (receivedAt : Time) :
    Prop where
  /-- the job is leased to the batch's worker, for its scan, and not run out -/
  job : ∃ j ∈ w.jobs, j.id = batch.jobID ∧ j.workerID = batch.workerID ∧ j.scanID = batch.scanID ∧
    j.status = .leased ∧ D.lt receivedAt j.expiresAt ∧ D.gtOpt j.leaseExpiresAt receivedAt
  /-- the worker has not sent a final batch last -/
  open_ : ∀ b, lastBatch w batch.jobID = some b → b.final → b.workerID ≠ batch.workerID
  next : batch.sequence = lastSequence w batch.jobID + 1

theorem validateEvidenceSequence_ok {D : Dialect} {bt : WorkerEvidenceBatch}
    {at1 : Time} (h : validateEvidenceSequence D w bt at1 = .ok ()) :
    Admitted D w bt at1 := by
  unfold validateEvidenceSequence at h
  split at h
  · cases h
  rename_i j hfi
  have hi := List.find?_some hfi
  split at h
  · cases h
  rename_i hj
  simp only at h
  split at h
  · cases h
  rename_i hl
  simp only [Bool.or_eq_true, decide_eq_true_eq, not_or, not_not, Bool.not_eq_true,
    Bool.not_eq_false'] at hj hl hi
  obtain ⟨⟨⟨⟨hw, hs⟩, hst⟩, hex⟩, hle⟩ := hj
  refine ⟨⟨j, List.mem_of_find?_eq_some hfi, hi, hw, hs, hst, hex, hle⟩, ?_, hl.2⟩
  intro b hb hf he
  have := hl.1
  rw [hb] at this
  simp [hf, he] at this

/-- The batches and checkpoints are the same. -/
def SameLog (db db' : DB) : Prop :=
  db'.worker.batches = db.worker.batches ∧ db'.worker.checkpoints = db.worker.checkpoints

section
variable {D : Dialect} {db db' : DB} {envelope : SignedWorkerEvidenceBatch} {receivedAt : Time}
  {res : Except StoreError Unit}

theorem insertBatch_cases {c1 c2 : String} (h : insertBatch D c1 c2 db envelope receivedAt = (res, db')) :
    (∃ e, res = .error e ∧ db' = db) ∨
    (res = .ok () ∧ envelope.batch.sequence ≤ D.sequenceMax ∧
      db' = appendBatch D db envelope receivedAt) := by
  simp only [insertBatch] at h
  split at h
  · cases h
    exact .inl ⟨_, rfl, rfl⟩
  rename_i hm
  split at h <;> cases h
  · exact .inl ⟨_, rfl, rfl⟩
  · exact .inr ⟨rfl, Nat.not_lt.mp hm, rfl⟩

/-- The batch is new, admitted, and the tables are extended by it. -/
def Recorded (D : Dialect) (db db' : DB) (envelope : SignedWorkerEvidenceBatch) (receivedAt : Time) :
    Prop :=
  (∀ b ∈ db.worker.batches, b.batchID ≠ envelope.batch.id) ∧
    Admitted D db.worker envelope.batch receivedAt ∧ db' = appendBatch D db envelope receivedAt

theorem Sqlite.record_cases
    (h : Sqlite.recordScannerWorkerEvidenceBatch db envelope receivedAt = (res, db')) :
    (∃ e, res = .error e ∧ db' = db) ∨ (res = .ok () ∧ Recorded sqlite db db' envelope receivedAt) := by
  unfold Sqlite.recordScannerWorkerEvidenceBatch at h
  split at h
  · cases h
    exact .inl ⟨_, rfl, rfl⟩
  rename_i hn
  split at h
  · cases h
    exact .inl ⟨_, rfl, rfl⟩
  rename_i hv
  rcases insertBatch_cases h with he | ⟨ho, -, hd⟩
  · exact .inl he
  · exact .inr ⟨ho, evidenceReplay_eq_none hn, validateEvidenceSequence_ok hv, hd⟩

theorem Postgres.record_cases {coll : String → String → Bool}
    (h : Postgres.recordScannerWorkerEvidenceBatch coll db envelope receivedAt = (res, db')) :
    (∃ e, res = .error e ∧ db' = db) ∨
    (res = .ok () ∧ Recorded (postgres coll) db db' envelope receivedAt) := by
  unfold Postgres.recordScannerWorkerEvidenceBatch at h
  split at h
  · cases h
    exact .inl ⟨_, rfl, rfl⟩
  rename_i hn
  split at h
  · cases h
    exact .inl ⟨_, rfl, rfl⟩
  rename_i hv
  split at h
  · cases h
    exact .inl ⟨_, rfl, rfl⟩
  · rcases insertBatch_cases h with he | ⟨ho, -, hd⟩
    · exact .inl he
    · exact .inr ⟨ho, evidenceReplay_eq_none hn, validateEvidenceSequence_ok hv, hd⟩

end

end Mossward.L2.WorkerEvidence
