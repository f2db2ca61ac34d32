import Mossward.L3Protocol.LeaseLifecycle

/-!
# The evidence log of worker jobs on PostgreSQL

Each job has a log of accepted evidence batches. Several workers may extend it,
one after the other, as the job is reassigned; submissions are retried and
replayed at any time. The server is the one of `LeaseLifecycle`.

Results:
* `LogInv`, `logInv_run`: batch identifiers are unique, a job's batches are
  numbered 1 to n in the order of acceptance, and the worker changes after a
  final batch.
* `step_batches`, `evidence_log`.
-/
namespace Mossward.L3.EvidenceLog

open Table Run L1.Rfc3339 Model L2.Schema List Small Option
open L2.WorkerJob L2.WorkerEvidence L3.LeaseLifecycle

/-! ## The effect of one operation on the log -/

variable (S : Server)

theorem step_batches (db : DB) (op : Op) : SameLog db (step S db op) ∨
    ∃ ev at1, op = .record ev at1 ∧ exec S db op = (.ok (), step S db op) ∧
      Recorded S.dialect db (step S db op) ev at1 := by
  have hs := step_stepped S db op
  generalize step S db op = db' at hs ⊢
  cases hs with
  | recorded ev at1 ho hr => exact .inr ⟨ev, at1, rfl, ho, hr⟩
  | reassigned _ _ _ _ hl _ => exact .inl hl
  | unchanged _ hw =>
    rw [SameLog, hw]
    exact .inl ⟨rfl, rfl⟩
  | completed _ _ _ _ hw =>
    rw [SameLog, hw]
    exact .inl ⟨rfl, rfl⟩
  | created _ _ _ hd | swept _ _ _ _ hd | leased _ _ _ _ _ _ _ hd | renewed _ _ _ _ _ hd | quarantined _ _ _ hd =>
    subst hd
    exact .inl ⟨rfl, rfl⟩

theorem error_sameLog (db : DB) (op : Op) {e : StoreError}
    (h : (exec S db op).1 = .error e) : SameLog db (step S db op) := by
  rcases step_batches S db op with hs | ⟨ev, at1, -, ho, -⟩
  · exact hs
  · rw [ho] at h
    cases h

/-! ## The shape of a log -/

/-- The batches of a job in the order of acceptance. -/
def logOf (db : DB) (jobID : String) : List BatchRow :=
  db.worker.batches.filter fun b => b.jobID = jobID

structure LogInv (db : DB) : Prop where
  keyed : Keyed BatchRow.batchID db.worker.batches
  numbered : ∀ j, (logOf db j).map BatchRow.sequence = range' 1 (logOf db j).length
  handover : ∀ j, ∀ b ∈ logOf db j, ∀ b' ∈ logOf db j, b'.sequence = b.sequence + 1 → b.final →
    b.workerID ≠ b'.workerID

variable {db : DB}

theorem lastSequence_eq (h : LogInv db) (j : String) : lastSequence db.worker j = (logOf db j).length := by
  have hn := h.numbered j
  change ((firstBy _ (logOf db j)).map _).getD 0 = _
  cases hl : firstBy (fun b b' : BatchRow => decide (b'.sequence ≤ b.sequence)) (logOf db j) with
  | none => rw [firstBy_eq_none.mp hl]; rfl
  | some b =>
    have hm := firstBy_mem hl
    have hle : ∀ b' ∈ logOf db j, b'.sequence ≤ b.sequence :=
      @firstBy_least BatchRow ℕᵒᵈ _ _ (fun b => OrderDual.toDual b.sequence) (fun _ _ => by simp) _ _ hl
    have hs : b.sequence ∈ (logOf db j).map BatchRow.sequence := mem_map_of_mem hm
    rw [hn, mem_range'] at hs
    -- the number n occurs too, and nothing is larger than the selected one
    have ht : (logOf db j).length ∈ (logOf db j).map BatchRow.sequence := by
      rw [hn, mem_range']
      exact ⟨(logOf db j).length - 1, by omega, by omega⟩
    obtain ⟨b', hb', hb⟩ := mem_map.mp ht
    have := hle b' hb'
    simp only [map_some, getD_some]
    omega

variable {b : BatchRow}

theorem eq_of_sequence (h : LogInv db) {j : String} {b' : BatchRow} (hb : b ∈ logOf db j)
    (hb' : b' ∈ logOf db j) (hs : b.sequence = b'.sequence) : b = b' := by
  have hn : ((logOf db j).map BatchRow.sequence).Nodup := by
    rw [h.numbered j]
    exact nodup_range'
  exact inj_on_of_nodup_map hn hb hb' hs

theorem sequence_le (h : LogInv db) {j : String} (hb : b ∈ logOf db j) :
    b.sequence ≤ (logOf db j).length := by
  have hm : b.sequence ∈ (logOf db j).map BatchRow.sequence := mem_map_of_mem hb
  rw [h.numbered, mem_range'] at hm
  omega

theorem lastBatch_eq (h : LogInv db) {j : String} (hb : b ∈ logOf db j)
    (hn : b.sequence = (logOf db j).length) : lastBatch db.worker j = some b := by
  have hla := lastSequence_eq h j
  unfold lastSequence at hla
  cases hl : lastBatch db.worker j with
  | none =>
    have hp := length_pos_of_mem hb
    rw [hl] at hla
    simp only [map_none, getD_none] at hla
    omega
  | some b0 =>
    rw [hl] at hla
    rw [eq_of_sequence h (firstBy_mem hl) hb (hla.trans hn.symm)]

theorem logInv_recorded {D : Dialect} {db' : DB} {envelope : SignedWorkerEvidenceBatch}
    {receivedAt : Time} (h : LogInv db) (hrec : Recorded D db db' envelope receivedAt) : LogInv db' := by
  obtain ⟨hnew, hadm, rfl⟩ := hrec
  have hlog : ∀ j, logOf (appendBatch D db envelope receivedAt) j = logOf db j ++
      if envelope.batch.jobID = j then [⟨envelope, D.bind receivedAt⟩] else [] := by
    intro j
    simp only [logOf, appendBatch]
    by_cases hj : envelope.batch.jobID = j <;> simp [BatchRow.jobID, hj]
  have hseq : envelope.batch.sequence = (logOf db envelope.batch.jobID).length + 1 := by
    rw [hadm.next, lastSequence_eq h]
  refine ⟨h.keyed.append_singleton hnew, fun j => ?_, fun j b hb b' hb' hsucc hfinal => ?_⟩
  · rw [hlog]
    by_cases hj : envelope.batch.jobID = j
    · rw [if_pos hj, map_append, h.numbered j, length_append, length_singleton, range'_concat, map_cons,
        BatchRow.sequence, hseq, hj]
      congr 2
      omega
    · rw [if_neg hj, append_nil, h.numbered j]
  · rw [hlog] at hb hb'
    by_cases hj : envelope.batch.jobID = j
    · rw [if_pos hj] at hb hb'
      subst hj
      rcases mem_append.mp hb with hb | hb <;> rcases mem_append.mp hb' with hb' | hb'
      · exact h.handover _ b hb b' hb' hsucc hfinal
      · -- the new batch follows `b`, which therefore is the job's last one
        rw [mem_singleton.mp hb'] at hsucc ⊢
        change envelope.batch.sequence = b.sequence + 1 at hsucc
        exact hadm.open_ b (lastBatch_eq h hb (by omega)) hfinal
      · -- nothing comes after the new batch
        rw [mem_singleton.mp hb] at hsucc
        change b'.sequence = envelope.batch.sequence + 1 at hsucc
        have := sequence_le h hb'
        omega
      · rw [mem_singleton.mp hb, mem_singleton.mp hb'] at hsucc
        omega
    · rw [if_neg hj, append_nil] at hb hb'
      exact h.handover j b hb b' hb' hsucc hfinal

theorem logInv_sameLog {db' : DB} (h : LogInv db) (hs : SameLog db db') : LogInv db' := by
  have hl : ∀ j, logOf db' j = logOf db j := fun j => by rw [logOf, logOf, hs.1]
  refine ⟨hs.1 ▸ h.keyed, fun j => ?_, fun j => ?_⟩
  · rw [hl j]
    exact h.numbered j
  · rw [hl j]
    exact h.handover j

theorem logInv_step (db : DB) (op : Op) (h : LogInv db) : LogInv (step S db op) := by
  rcases step_batches S db op with hs | ⟨ev, receivedAt, -, -, hr⟩
  · exact logInv_sameLog h hs
  · exact logInv_recorded h hr

theorem logInv_fresh (h : Fresh db) : LogInv db := by
  have hb : db.worker.batches = [] := h.2.2.1
  refine ⟨by simp [Keyed, hb], fun j => by simp [logOf, hb], fun j b hbm => ?_⟩
  simp [logOf, hb] at hbm

theorem logInv_run (h : LogInv db) (ops : List Op) : LogInv (run (step S) db ops) :=
  run_invariant (fun db op => logInv_step S db op) h ops

/-! ## Replays -/

theorem batch_step (op : Op) (hb : b ∈ db.worker.batches) : b ∈ (step S db op).worker.batches := by
  rcases step_batches S db op with hs | ⟨ev, receivedAt, -, -, -, -, hd⟩
  · rwa [hs.1]
  · rw [hd]
    exact mem_append_left _ hb

theorem batch_run (ops : List Op) (hb : b ∈ db.worker.batches) : b ∈ (run (step S) db ops).worker.batches :=
  run_invariant (I := fun db : DB => b ∈ db.worker.batches) (fun _ op h => batch_step S op h) hb ops

theorem record_replay (h : LogInv db) (hb : b ∈ db.worker.batches)
    {ev : SignedWorkerEvidenceBatch} (hi : ev.batch.id = b.batchID) (receivedAt : Time) :
    exec S db (.record ev receivedAt) = (.error (if b.signedEnvelope = ev then
      .workerEvidenceAlreadyAccepted else .workerEvidenceReplay), db) := by
  simp only [exec, Postgres.recordScannerWorkerEvidenceBatch, evidenceReplay_of_mem h.keyed hb hi]

/-! ## The log -/

/-- **Result.** Over every run of the job operations from a store without
jobs:

1. the batches of each job are numbered 1 to n, in the order of acceptance;
2. an operation adds no batch, or is a submission whose job was leased to its
   worker, for its scan, with job and lease expiring after the received time;
3. when a batch follows a final one, it comes from another worker;
4. an accepted batch identifier answers every later submission: the same
   envelope is reported as accepted, another one as a replay;
5. a call that returns an error changes no batch and no checkpoint. -/
theorem evidence_log (S : Server) (db : DB) (h₀ : Fresh db) (ops : List Op) :
    (∀ j, (logOf (run (step S) db ops) j).map BatchRow.sequence =
      range' 1 (logOf (run (step S) db ops) j).length) ∧
    (∀ op, (step S (run (step S) db ops) op).worker.batches = (run (step S) db ops).worker.batches ∨
      ∃ envelope receivedAt, op = .record envelope receivedAt ∧
        (step S (run (step S) db ops) op).worker.batches = (run (step S) db ops).worker.batches ++
          [⟨envelope, S.dialect.bind receivedAt⟩] ∧
        ∃ j ∈ (run (step S) db ops).worker.jobs, j.id = envelope.batch.jobID ∧
          j.workerID = envelope.batch.workerID ∧ j.scanID = envelope.batch.scanID ∧
          j.status = .leased ∧ receivedAt < j.expiresAt ∧ ∃ l, j.leaseExpiresAt = some l ∧ receivedAt < l) ∧
    (∀ j, ∀ b ∈ logOf (run (step S) db ops) j, ∀ b' ∈ logOf (run (step S) db ops) j,
      b'.sequence = b.sequence + 1 → b.final → b.workerID ≠ b'.workerID) ∧
    (∀ ops₁ ops₂, ops = ops₁ ++ ops₂ → ∀ b ∈ (run (step S) db ops₁).worker.batches, ∀ envelope receivedAt,
      envelope.batch.id = b.batchID →
      exec S (run (step S) db ops) (.record envelope receivedAt) =
        (.error (if b.signedEnvelope = envelope then .workerEvidenceAlreadyAccepted
          else .workerEvidenceReplay), run (step S) db ops)) ∧
    (∀ op e, (exec S (run (step S) db ops) op).1 = .error e →
      (step S (run (step S) db ops) op).worker.batches = (run (step S) db ops).worker.batches ∧
      (step S (run (step S) db ops) op).worker.checkpoints = (run (step S) db ops).worker.checkpoints) := by
  have hinv := logInv_run S (logInv_fresh h₀) ops
  refine ⟨hinv.numbered, fun op => ?_, hinv.handover, ?_, fun op e he => error_sameLog S _ op he⟩
  · rcases step_batches S (run (step S) db ops) op with hsame | ⟨envelope, receivedAt, hop, -, hrec⟩
    · exact .inl hsame.1
    · obtain ⟨-, hadm, hdb⟩ := hrec
      obtain ⟨j, hj, hid, hworker, hscan, hstatus, hexp, hlease⟩ := hadm.job
      refine .inr ⟨envelope, receivedAt, hop, by rw [hdb]; rfl, j, hj, hid, hworker, hscan, hstatus, ?_, ?_⟩
      · simpa [Dialect.lt, postgres, timeLe] using hexp
      · cases hl : j.leaseExpiresAt with
        | none => rw [hl] at hlease; cases hlease
        | some l =>
          rw [hl] at hlease
          exact ⟨l, rfl, by simpa [Dialect.gtOpt, Dialect.lt, postgres, timeLe] using hlease⟩
  · rintro ops₁ ops₂ rfl b hb envelope receivedAt hid
    refine record_replay S hinv ?_ hid receivedAt
    rw [run_append]
    exact batch_run S ops₂ hb

/-- A job is leased and its worker reports its only check. -/
def reportRun : List Op :=
  [.create (envelope "j" "w" "s" ["10.0.0.1"] [80]) (clock 0),
   .lease "w" [1] (clock 0) (clock 60),
   .record (batch "b" "j" "w" "s" 1 true [⟨"10.0.0.1", 80, clock 10⟩]) (clock 11)]

/-- The batch is in the log, and a different one under its identifier is a
replay, also after the lease. -/
theorem evidence_log_replay :
    (logOf (run (step plainServer) (tables [worker "w"]) reportRun) "j").length = 1 ∧
    (exec plainServer (run (step plainServer) (tables [worker "w"]) reportRun)
      (.record (batch "b" "j" "w" "s" 2 true []) (clock 70))).1 = .error .workerEvidenceReplay := by
  have hlog := evidence_log plainServer (tables [worker "w"]) ⟨rfl, rfl, rfl, rfl, rfl⟩ reportRun
  obtain ⟨b, hb, hid, hne⟩ : ∃ b ∈ (run (step plainServer) (tables [worker "w"])
      reportRun).worker.batches, (batch "b" "j" "w" "s" 2 true []).batch.id = b.batchID ∧
      b.signedEnvelope ≠ batch "b" "j" "w" "s" 2 true [] := by decide +kernel
  refine ⟨by decide +kernel, ?_⟩
  rw [hlog.2.2.2.1 reportRun [] (by simp) b hb _ (clock 70) hid, if_neg hne]

end Mossward.L3.EvidenceLog
