import Mossward.L3Protocol.SqliteServer

/-!
# Complete jobs and covered targets

A worker may report success once the job has as many checkpoint rows as it has
targets times ports. Rows are keyed by the address as it was written, while
evidence is held against the job's scope by parsed address, so the rows of one
target under several spellings count several times.

Results:
* `CoverInv`, `coverInv_run`: every row lies in its job's scope, and a job that
  succeeded has the full number of rows.
* `succeeded_covers_iff`.
-/
namespace Mossward.L3.Coverage

open Table Run L1.Rfc3339 L1.NetAddr Model List
open L2.Schema L2.WorkerJob L2.WorkerEvidence L3.EvidenceValidate
open L3.SqliteServer

/-- The checkpoint rows of a job. -/
def rowsOf (db : DB) (jobID : String) : List CheckpointRow :=
  db.worker.checkpoints.filter fun c => c.jobID = jobID

/-- The number of target-port pairs of a job. -/
def matrixSize (job : WorkerJob) : Nat := job.targets.length * job.ports.length

/-- Calls that leave a job's signed envelope as it was created. -/
def Op.keepsEnvelopes : Op → Bool
  | .reassignExpired _ _ => false
  | _ => true

structure CoverInv (db : DB) : Prop where
  keyed : Keyed JobRow.id db.worker.jobs
  inScope : ∀ c ∈ db.worker.checkpoints, ∃ r ∈ db.worker.jobs, r.id = c.jobID ∧
    InScope r.signedEnvelope.job c.address c.port
  counted : ∀ r ∈ db.worker.jobs, r.resultOutcome = some .succeeded →
    r.status = .completed ∧ (rowsOf db r.id).length = matrixSize r.signedEnvelope.job

section
variable {S : Server} {db db' : DB}

theorem grants_envelope {op : Op} (ho : Op.keepsEnvelopes op) (e : SignedWorkerJob) :
    ¬ (op.grants db).envelope e := by
  cases op with
  | reassignExpired jid now => cases ho
  | _ => exact id

theorem grants_receipt {op : Op} {rc : WorkerJobResultReceipt} (h : (op.grants db).receipt rc)
    (ho : rc.outcome = .succeeded) :
    Sqlite.workerJobCheckpointsComplete db.worker rc.jobID = .ok true := by
  cases op with
  | complete rc' tok now wall =>
    obtain ⟨rfl, hc⟩ := h
    exact hc ho
  | _ => exact h.elim

theorem checkpointsComplete_length (hk : Keyed JobRow.id db.worker.jobs) {r : JobRow}
    (hr : r ∈ db.worker.jobs) (h : Sqlite.workerJobCheckpointsComplete db.worker r.id = .ok true) :
    (rowsOf db r.id).length = matrixSize r.signedEnvelope.job := by
  unfold Sqlite.workerJobCheckpointsComplete checkpointsComplete at h
  rw [hk.find?_eq hr] at h
  simp only at h
  split at h
  · cases h
  rename_i ev hd
  rw [decodeWorkerJob_ok hd] at h
  split at h
  · cases h
  · unfold rowsOf matrixSize
    rw [← countP_eq_length_filter]
    simpa using h

theorem coverInv_fresh (h : Fresh db) : CoverInv db := by
  obtain ⟨hj, -, -, hch, -⟩ := h
  refine ⟨by simp [Keyed, hj], fun c hc => ?_, fun r hr => ?_⟩
  · rw [hch] at hc
    cases hc
  · rw [hj] at hr
    cases hr

theorem scannerWorkerJob_ok {id : String} {job : SignedWorkerJob}
    (h : Sqlite.scannerWorkerJob db id = .ok job) :
    ∃ r ∈ db.worker.jobs, r.id = id ∧ r.signedEnvelope = job := by
  unfold Sqlite.scannerWorkerJob at h
  split at h
  · cases h
  rename_i r hf
  split at h
  · cases h
  rename_i ev hd
  cases h
  have hi := find?_some hf
  exact ⟨r, mem_of_find?_eq_some hf, of_decide_eq_true hi, (decodeWorkerJob_ok hd).symm⟩

theorem coverInv_rows {op : Op} (hop : Op.keepsEnvelopes op) (h : CoverInv db)
    (hro : Evolves (JobTrans sqlite (op.grants db)) db.worker.jobs db'.worker.jobs)
    (hl : SameLog db db') : CoverInv db' := by
  have hsa : ∀ id, rowsOf db' id = rowsOf db id := fun id => by rw [rowsOf, rowsOf, hl.2]
  refine ⟨evolves_keyed hro h.keyed, fun c hc => ?_, fun r' hr' ho => ?_⟩
  · rw [hl.2] at hc
    obtain ⟨r, hr, hi, hsc⟩ := h.inScope c hc
    obtain ⟨r', hr', hs⟩ := hro.forward hr
    refine ⟨r', hr', (steps_id hs).trans hi, ?_⟩
    rw [steps_envelope hs (grants_envelope hop)]
    exact hsc
  · obtain ⟨r, hr, hs⟩ := hro.backward hr'
    rcases steps_outcome hs with hk | ⟨rc, hG, hi, hre, hst⟩
    · -- it had succeeded before, and completed rows stay
      have hb := h.counted r hr (hk ▸ ho)
      have hf : r' = r := final_steps (by rw [hb.1]; rfl) hs
      rw [hf, hsa]
      exact hb
    -- it succeeds now, after the count
    have hsu : rc.outcome = .succeeded := by
      rw [hre] at ho
      exact Option.some.inj ho
    have hco := grants_receipt hG hsu
    rw [← hi] at hco
    rw [hsa, steps_id hs, steps_envelope hs (grants_envelope hop)]
    exact ⟨hst, checkpointsComplete_length h.keyed hr hco⟩

theorem coverInv_added {ev : SignedWorkerJob} {at1 : Time} (h : CoverInv db)
    (hn : ∀ r ∈ db.worker.jobs, r.id ≠ ev.job.id)
    (hj : db'.worker.jobs = db.worker.jobs ++ [newJobRow sqlite ev at1])
    (hl : SameLog db db') : CoverInv db' := by
  refine ⟨hj ▸ h.keyed.append_singleton hn, fun c hc => ?_, fun r hr ho => ?_⟩
  · rw [hl.2] at hc
    obtain ⟨r, hr, hs⟩ := h.inScope c hc
    exact ⟨r, hj ▸ mem_append_left _ hr, hs⟩
  · rw [hj] at hr
    rcases mem_append.mp hr with hr | hr
    · rw [rowsOf, hl.2]
      exact h.counted r hr ho
    · rw [mem_singleton.mp hr] at ho
      cases ho

theorem coverInv_recorded {ev : SignedWorkerEvidenceBatch} {now : Time} {job : SignedWorkerJob}
    (h : CoverInv db) (hjo : Sqlite.scannerWorkerJob db ev.batch.jobID = .ok job)
    (hv : validate S.encodedSize ev.batch job.job now = .ok ())
    (hre : Recorded sqlite db db' ev now) : CoverInv db' := by
  obtain ⟨-, ha, rfl⟩ := hre
  obtain ⟨r0, hr0, hi0, rfl⟩ := scannerWorkerJob_ok hjo
  refine ⟨h.keyed, fun c hc => ?_, fun r hr ho => ?_⟩
  · rcases mem_of_mem_insertIgnore hc with hc | hc
    · exact h.inScope c hc
    · obtain ⟨wc, hw, rfl⟩ := mem_map.mp hc
      exact ⟨r0, hr0, hi0, (validate_ok hv).2 wc hw⟩
  · -- the batch's job is leased, so it is not this one
    obtain ⟨hs, hco⟩ := h.counted r hr ho
    obtain ⟨j, hj, hji, -, -, hl, -⟩ := ha.job
    have hn : r.id ≠ ev.batch.jobID := by
      intro he
      rw [h.keyed.eq_of_key hr hj (he.trans hji.symm), hl] at hs
      cases hs
    refine ⟨hs, ?_⟩
    rw [← hco]
    unfold rowsOf appendBatch
    rw [filter_insertIgnore]
    intro c hc
    obtain ⟨wc, -, rfl⟩ := mem_map.mp hc
    simp [checkpointRow, Ne.symm hn]

theorem coverInv_step (S : Server) (h : CoverInv db) {op : Op} (ho : Op.keepsEnvelopes op) :
    CoverInv (step S db op) := by
  cases step_effect S db op with
  | rows hr hl => exact coverInv_rows ho h hr hl
  | added ev createdAt hn hj hl => exact coverInv_added h hn hj hl
  | recorded ev now job _ hjo hv hre => exact coverInv_recorded h hjo hv hre

theorem coverInv_run (S : Server) (h : CoverInv db) {ops : List Op}
    (ho : ∀ op ∈ ops, Op.keepsEnvelopes op) : CoverInv (run (step S) db ops) := by
  induction ops generalizing db with
  | nil => exact h
  | cons op ops ih =>
    exact ih (coverInv_step S h (ho op mem_cons_self)) fun op' ho' => ho op' (mem_cons_of_mem _ ho')

end

/-! ## Coverage -/

/-- Some accepted checkpoint is on the target's address, however written, and
on the port. -/
def Covered (db : DB) (jobID : String) (t : Target) (p : Int) : Prop :=
  ∃ c ∈ db.worker.checkpoints, c.jobID = jobID ∧ parseAddr c.address = parseAddr t.address ∧ c.port = p

instance (db : DB) (jobID : String) (t : Target) (p : Int) : Decidable (Covered db jobID t p) := by
  unfold Covered
  infer_instance

/-- Targets pairwise distinct as addresses, and ports pairwise distinct. -/
def Distinct (job : WorkerJob) : Prop :=
  (∀ t ∈ job.targets, (parseAddr t.address).isSome) ∧ Keyed (fun t : Target => parseAddr t.address) job.targets ∧
    job.ports.Nodup

instance (job : WorkerJob) : Decidable (Distinct job) := by
  unfold Distinct Keyed
  infer_instance

/-- **A job that succeeded** is covered, every target on every port, exactly
when its checkpoint rows are pairwise distinct as addresses and ports, and not
only as texts. -/
theorem succeeded_covers_iff (S : Server) {db : DB} (hdb : Fresh db) (ops : List Op)
    (hops : ∀ op ∈ ops, Op.keepsEnvelopes op) {r : JobRow} (hr : r ∈ (run (step S) db ops).worker.jobs)
    (hout : r.resultOutcome = some .succeeded) (hdistinct : Distinct r.signedEnvelope.job) :
    (∀ t ∈ r.signedEnvelope.job.targets, ∀ p ∈ r.signedEnvelope.job.ports,
        Covered (run (step S) db ops) r.id t p) ↔
      Keyed (fun c : CheckpointRow => (parseAddr c.address, c.port)) (rowsOf (run (step S) db ops) r.id) := by
  have hi := coverInv_run S (coverInv_fresh hdb) hops
  generalize run (step S) db ops = db' at hr hi ⊢
  obtain ⟨-, hcou⟩ := hi.counted r hr hout
  obtain ⟨-, hta, hpo⟩ := hdistinct
  -- the places to fill, and the rows' places
  let places := (r.signedEnvelope.job.targets.map fun t => parseAddr t.address) ×ˢ r.signedEnvelope.job.ports
  have hpl : places.Nodup := hta.product hpo
  have hs : (rowsOf db' r.id).map (fun c => (parseAddr c.address, c.port)) ⊆ places := by
    intro x hx
    obtain ⟨c, hc, rfl⟩ := mem_map.mp hx
    obtain ⟨hc, hci⟩ := mem_filter.mp hc
    obtain ⟨r0, hr0, hid, t, ht, -, had, hpor⟩ := hi.inScope c hc
    have hrr : r0 = r := hi.keyed.eq_of_key hr0 hr (hid.trans (of_decide_eq_true hci))
    subst hrr
    rw [mem_product, had]
    exact ⟨mem_map_of_mem ht, hpor⟩
  have hl : ((rowsOf db' r.id).map fun c => (parseAddr c.address, c.port)).length = places.length := by
    rw [length_map, hcou, length_product, length_map]
    rfl
  unfold Keyed
  rw [nodup_iff_covers hpl hs hl]
  constructor
  · rintro hco ⟨a, p⟩ hx
    obtain ⟨ha, hp⟩ := mem_product.mp hx
    obtain ⟨t, ht, rfl⟩ := mem_map.mp ha
    obtain ⟨c, hc, hid, had, rfl⟩ := hco t ht p hp
    exact mem_map.mpr ⟨c, mem_filter.mpr ⟨hc, decide_eq_true hid⟩, by rw [had]⟩
  · intro hco t ht p hp
    have hx : (parseAddr t.address, p) ∈ places := mem_product.mpr ⟨mem_map_of_mem ht, hp⟩
    obtain ⟨c, hc, he⟩ := mem_map.mp (hco hx)
    obtain ⟨hc, hid⟩ := mem_filter.mp hc
    exact ⟨c, hc, of_decide_eq_true hid, congrArg Prod.fst he, congrArg Prod.snd he⟩

open Small

/-- A job on `2001:db8::1` and `2001:db8::2` is leased, two batches check one
address each, and the worker reports success. -/
def twoChecks (first second : String) : List Op :=
  let batch := fun id n final address => batch id "job-1" "worker-1" "scan-1" n final
    [{ address := address, port := 443, completedAt := clock 10 }]
  [.create (envelope "job-1" "worker-1" "scan-1" ["2001:db8::1", "2001:db8::2"] [443]) (clock 0),
   .lease "worker-1" [1] (clock 0) (clock 60),
   .submit (batch "batch-1" 1 false first) (clock 20),
   .submit (batch "batch-2" 2 true second) (clock 21),
   .complete (receipt "job-1" "worker-1" .succeeded) [1] (clock 31) fun _ => clock 31]

/-- The tables after `twoChecks`. -/
def afterTwoChecks (first second : String) : DB :=
  run (step server) (tables [worker "worker-1"]) (twoChecks first second)

theorem succeeded_covers_two_targets :
    (∃ r ∈ (afterTwoChecks "2001:db8::1" "2001:DB8::2").worker.jobs, r.resultOutcome = some .succeeded) ∧
    ∀ r ∈ (afterTwoChecks "2001:db8::1" "2001:DB8::2").worker.jobs,
      ∀ t ∈ r.signedEnvelope.job.targets, ∀ p ∈ r.signedEnvelope.job.ports,
        Covered (afterTwoChecks "2001:db8::1" "2001:DB8::2") r.id t p := by
  have ha : ∀ r ∈ (afterTwoChecks "2001:db8::1" "2001:DB8::2").worker.jobs,
      r.resultOutcome = some .succeeded ∧ Distinct r.signedEnvelope.job ∧
      ((rowsOf (afterTwoChecks "2001:db8::1" "2001:DB8::2") r.id).map fun c =>
        (parseAddr c.address, c.port)).Nodup := by
    decide +kernel
  refine ⟨by decide +kernel, fun r hr => ?_⟩
  obtain ⟨ho, hd, hro⟩ := ha r hr
  exact (succeeded_covers_iff server ⟨rfl, rfl, rfl, rfl, rfl⟩ (twoChecks "2001:db8::1" "2001:DB8::2")
    (by decide) hr ho hd).mpr hro

/-- The first address checked under two spellings makes the job complete: the
second target is never checked, and the job succeeds. -/
theorem succeeded_without_coverage :
    JobDispatch.validate (envelope "job-1" "worker-1" "scan-1" ["2001:db8::1", "2001:db8::2"] [443]).job
        (worker "worker-1") (clock 0) = .ok () ∧
    ∃ r ∈ (afterTwoChecks "2001:db8::1" "2001:DB8::1").worker.jobs,
      r.status = .completed ∧ r.resultOutcome = some .succeeded ∧ Distinct r.signedEnvelope.job ∧
      ∃ t ∈ r.signedEnvelope.job.targets, ∃ p ∈ r.signedEnvelope.job.ports,
        ¬ Covered (afterTwoChecks "2001:db8::1" "2001:DB8::1") r.id t p := by
  decide +kernel

end Mossward.L3.Coverage
