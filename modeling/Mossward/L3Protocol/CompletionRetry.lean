import Mossward.L3Protocol.EvidenceLog

/-!
# Retried completions on PostgreSQL

A worker that does not see the answer to its completion sends the same receipt
again, and `CompleteScannerWorkerJob` tells a retry from a forged replay by
comparing the receipt with the row that carries its result identifier. The
completion time of that row went through a `TIMESTAMPTZ` column, which keeps
microseconds; the receipt's has nanoseconds.

Results:
* `settled_run`: once a receipt is accepted, its row stays as it is, stays the
  only one with its result identifier, and its checkpoints stay complete.
* `completion_retry_iff`, `completion_retry_refused`.
-/
namespace Mossward.L3.CompletionRetry

open Table Run L1.Rfc3339 Model L2.Schema Small List Option
open L2.WorkerJob L2.WorkerEvidence L3.LeaseLifecycle L3.EvidenceLog

/-! ## What an accepted receipt leaves -/

theorem checkpointsComplete_congr {context : String} {w w' : WorkerTables} {jid : String}
    (hj : (w'.jobs.find? fun r => r.id = jid).map JobRow.signedEnvelope =
      (w.jobs.find? fun r => r.id = jid).map JobRow.signedEnvelope)
    (hl : w'.checkpoints.countP (fun c => c.jobID = jid) = w.checkpoints.countP (fun c => c.jobID = jid)) :
    checkpointsComplete context w' jid = checkpointsComplete context w jid := by
  unfold checkpointsComplete
  rw [hl]
  cases h : w.jobs.find? (fun r => r.id = jid) with
  | none =>
    rw [h, map_none, map_eq_none_iff] at hj
    rw [hj]
  | some r =>
    rw [h, map_some, map_eq_some_iff] at hj
    obtain ⟨r', hr', he⟩ := hj
    rw [hr']
    dsimp only
    rw [he]

/-- `row` is the row the receipt completed: it is the only one with the
receipt's result identifier, and a success has its checkpoints. -/
structure Settled (S : Server) (receipt : WorkerJobResultReceipt) (row : JobRow) (w : WorkerTables) :
    Prop where
  keyed : Keyed JobRow.id w.jobs
  mem : row ∈ w.jobs
  completed : ∃ r, row = completedAs S.dialect receipt r ∧ r.id = receipt.jobID ∧
    r.workerID = receipt.workerID
  unique : ∀ r ∈ w.jobs, r.resultID = some receipt.resultID → r = row
  matrix : receipt.outcome = .succeeded →
    Postgres.workerJobCheckpointsComplete w receipt.jobID = .ok true

section
variable {S : Server} {receipt : WorkerJobResultReceipt} {row : JobRow}

variable {w : WorkerTables}

section
variable (h : Settled S receipt row w)
include h

theorem Settled.id : row.id = receipt.jobID := by
  obtain ⟨r, rfl, hi, -⟩ := h.completed
  exact hi

theorem Settled.resultID : row.resultID = some receipt.resultID := by
  obtain ⟨r, rfl, -, -⟩ := h.completed
  rfl

theorem Settled.status : row.status = .completed := by
  obtain ⟨r, rfl, -, -⟩ := h.completed
  rfl

theorem Settled.find : w.jobs.find? (fun r => r.id = receipt.jobID) = some row := by
  rw [← h.id]
  exact h.keyed.find?_eq h.mem

end

variable {db : DB}

theorem acceptResult_accepted {coll : String → String → Bool} {db' : DB} {tok : TokenHash}
    {now : Time}
    (h : Postgres.acceptResult coll db receipt tok now = (.ok .accepted, db')) :
    (receipt.outcome = .succeeded →
      Postgres.workerJobCheckpointsComplete db.worker receipt.jobID = .ok true) ∧
    accept (postgres coll) (fun a b => a = b) db receipt tok now = (.ok .accepted, db') := by
  unfold Postgres.acceptResult at h
  split at h
  · cases h
  split at h
  · split at h
    · cases h
    · cases h
    · rename_i hc
      exact ⟨fun _ => hc, h⟩
  · rename_i ho
    exact ⟨fun hs => absurd hs ho, h⟩

theorem settled_accepted {db' : DB} {tok : TokenHash} {now : Time} (hk : Keyed JobRow.id db.worker.jobs)
    (h : Postgres.acceptResult S.collate db receipt tok now = (.ok .accepted, db')) :
    ∃ row, Settled S receipt row db'.worker := by
  obtain ⟨hm, ha⟩ := acceptResult_accepted h
  rcases accept_cases ha with ⟨e, he, -⟩ | ⟨he, -⟩ | ⟨-, hn, hc, rfl⟩
  · cases he
  · cases he
  have hi : ∀ r, completable S.dialect db.worker receipt tok (S.dialect.bind now) r →
      r.id = receipt.jobID ∧ r.workerID = receipt.workerID := by
    intro r hr
    simp only [completable, heldBy, Bool.and_eq_true, decide_eq_true_eq] at hr
    exact hr.1.1
  obtain ⟨r0, hr0, hd⟩ := countP_pos_iff.mp (hc ▸ Nat.one_pos)
  have hke : Keyed JobRow.id (setJobs db (updateWhere
      (completable S.dialect db.worker receipt tok (S.dialect.bind now))
      (completedAs S.dialect receipt) db.worker.jobs)).worker.jobs :=
    evolves_keyed (complete_evolves _) hk
  refine ⟨completedAs S.dialect receipt r0, hke,
    mem_updateWhere.mpr ⟨r0, hr0, by rw [if_pos hd]⟩, ⟨r0, rfl, hi r0 hd⟩, ?_, fun hs => ?_⟩
  · intro r' hr' hre
    obtain ⟨r, hr, rfl⟩ := mem_updateWhere.mp hr'
    by_cases hp : completable S.dialect db.worker receipt tok (S.dialect.bind now) r
    · rw [if_pos hp, hk.eq_of_key hr hr0 ((hi r hp).1.trans (hi r0 hd).1.symm)]
    · rw [if_neg hp] at hre
      exact absurd hre (hn r hr)
  · rw [← hm hs]
    refine checkpointsComplete_congr ?_ rfl
    have hsa : ∀ r, completable S.dialect db.worker receipt tok (S.dialect.bind now) r →
        (completedAs S.dialect receipt r).id = r.id := fun _ _ => rfl
    simp only [setJobs]
    rw [find?_updateWhere JobRow.id hsa, Option.map_map]
    congr 1
    funext r
    simp only [Function.comp_apply]
    split <;> rfl

/-! ## It stays settled -/

theorem checkpoints_unleased (S : Server) (op : Op) {jid : String}
    (h : ∀ r ∈ db.worker.jobs, r.id = jid → r.status ≠ .leased) :
    (step S db op).worker.checkpoints.countP (fun c => c.jobID = jid) =
      db.worker.checkpoints.countP (fun c => c.jobID = jid) := by
  rcases step_batches S db op with hs | ⟨ev, receivedAt, -, -, -, ha, hd⟩
  · rw [hs.2]
  obtain ⟨j, hj, hi, -, -, hl, -⟩ := ha.job
  have ho : ev.batch.jobID ≠ jid := fun he => h j hj (hi.trans he) hl
  rw [hd, countP_eq_length_filter, countP_eq_length_filter]
  unfold appendBatch
  rw [filter_insertIgnore]
  intro c hc
  obtain ⟨cp, -, rfl⟩ := mem_map.mp hc
  exact decide_eq_false ho

theorem resultID_step (S : Server) (op : Op) {rid : String}
    (hta : ∃ r ∈ db.worker.jobs, r.resultID = some rid) {r' : JobRow}
    (hr' : r' ∈ (step S db op).worker.jobs) (hi : r'.resultID = some rid) :
    ∃ r ∈ db.worker.jobs, r.id = r'.id ∧ r.resultID = some rid := by
  rcases step_rows S db op with he | ⟨ev, at1, -, -, hj⟩
  · obtain ⟨r, hr, hs⟩ := he.backward hr'
    refine ⟨r, hr, (steps_id hs).symm, steps_resultID hs hi ?_⟩
    rintro rc ⟨-, hn⟩ rfl
    obtain ⟨r0, hr0, ht⟩ := hta
    exact hn r0 hr0 ht
  rw [hj] at hr'
  rcases mem_append.mp hr' with hr' | hr'
  · exact ⟨r', hr', rfl, hi⟩
  · rw [mem_singleton.mp hr'] at hi
    cases hi

theorem settled_step (op : Op) (h : Settled S receipt row db.worker) :
    Settled S receipt row (step S db op).worker := by
  have hk := keyed_step S db op h.keyed
  have hm : row ∈ (step S db op).worker.jobs := terminal_step S op h.mem (by rw [h.status]; rfl)
  refine ⟨hk, hm, h.completed, fun r' hr' hre => ?_, fun hs => ?_⟩
  · obtain ⟨r, hr, hi, hr0⟩ := resultID_step S op ⟨row, h.mem, h.resultID⟩ hr' hre
    rw [h.unique r hr hr0] at hi
    exact hk.eq_of_key hr' hm hi.symm
  · rw [← h.matrix hs]
    refine checkpointsComplete_congr ?_ (checkpoints_unleased S op fun r hr hi => ?_)
    · rw [h.find, ← h.id, hk.find?_eq hm]
    · rw [h.keyed.eq_of_key hr h.mem (hi.trans h.id.symm), h.status]
      decide

theorem settled_run (h : Settled S receipt row db.worker) (ops : List Op) :
    Settled S receipt row (run (step S) db ops).worker :=
  run_invariant (I := fun db : DB => Settled S receipt row db.worker) (fun _ op h => settled_step op h) h ops

/-! ## The answer to a retry -/

/-- The first transaction of a retry compares completion times, and nothing
else can differ. -/
theorem acceptResult_settled (h : Settled S receipt row db.worker) (tok : TokenHash) (now : Time) :
    Postgres.acceptResult S.collate db receipt tok now =
      (if receipt.completedAt.truncateMicros = receipt.completedAt then .ok .retry
        else .error .workerResultReplay, db) := by
  have han : db.worker.jobs.any (fun r => r.id = receipt.jobID) :=
    any_eq_true.mpr ⟨row, h.mem, by simpa using h.id⟩
  have hfi : db.worker.jobs.find? (fun r => r.resultID = some receipt.resultID) = some row := by
    cases hf : db.worker.jobs.find? (fun r => r.resultID = some receipt.resultID) with
    | none => simpa [h.resultID] using find?_eq_none.mp hf row h.mem
    | some r =>
      have hr := find?_some hf
      rw [h.unique r (mem_of_find?_eq_some hf) (by simpa using hr)]
  have ha : accept (postgres S.collate) (fun a b => a = b) db receipt tok now =
      (if receipt.completedAt.truncateMicros = receipt.completedAt then .ok .retry
        else .error .workerResultReplay, db) := by
    obtain ⟨r, rfl, hi, hw⟩ := h.completed
    unfold accept
    rw [hfi]
    by_cases hm : receipt.completedAt.truncateMicros = receipt.completedAt
    · simp [completedAs, withoutLease, hi, hw, hm, postgres]
    · simp [completedAs, hm, postgres]
  unfold Postgres.acceptResult
  rw [han]
  by_cases hs : receipt.outcome = .succeeded
  · simp [h.matrix hs, ha]
  · simp [hs, ha]

end

/-- **Result.** After any run in which a receipt is accepted and any further
operations, the same receipt is submitted again, with any token and at any
time. If its result can be projected, the retry is recognised exactly when the
completion time has no part below the microsecond. With such a part the retry
is refused as a replay, whatever the projection would do. -/
theorem completion_retry_iff (S : Server) (db : DB) (h₀ : Fresh db) (before after : List Op)
    (receipt : WorkerJobResultReceipt) (tokenHash tokenHash' : TokenHash) (now now' : Time)
    (haccepted : (Postgres.acceptResult S.collate (run (step S) db before) receipt tokenHash now).1 =
      .ok .accepted) :
    let later := run (step S) db (before ++ .complete receipt tokenHash now :: after)
    let retry := S.completeScannerWorkerJob later receipt tokenHash' now'
    ((S.project later receipt).1 = .ok () → (retry.1 = .error .workerResultAlreadyAccepted ↔
        receipt.completedAt.truncateMicros = receipt.completedAt)) ∧
    (receipt.completedAt.truncateMicros ≠ receipt.completedAt →
      retry = (.error .workerResultReplay, later)) := by
  intro later retry
  have hk : Keyed JobRow.id (run (step S) db before).worker.jobs := keyed_run S (by simp [Keyed, h₀.1]) before
  obtain ⟨row, hro⟩ := settled_accepted hk (Prod.ext haccepted rfl)
  -- the projection that follows the acceptance leaves the worker tables alone
  have hc : Settled S receipt row
      (step S (run (step S) db before) (.complete receipt tokenHash now)).worker := by
    simp only [step, exec, Server.completeScannerWorkerJob]
    rw [completeWith_worker fun _ _ => rfl]
    exact hro
  have hl : Settled S receipt row later.worker := by
    simp only [later, run_append]
    exact settled_run hc after
  have hf := acceptResult_settled hl tokenHash' now'
  have hr : receipt.completedAt.truncateMicros ≠ receipt.completedAt →
      retry = (.error .workerResultReplay, later) := by
    intro hn
    simp only [retry, Server.completeScannerWorkerJob]
    rw [hf, if_neg hn]
    rfl
  refine ⟨fun hp => ⟨fun ha => ?_, fun hm => ?_⟩, hr⟩
  · by_contra hn
    rw [hr hn] at ha
    cases ha
  · simp only [retry, Server.completeScannerWorkerJob]
    rw [hf, if_pos hm]
    simp only [completeWith, hp]

/-! ## A retry of each kind -/

/-- A failed job, finished `ns` nanoseconds after the half minute. -/
def failedReceipt (ns : Int) : WorkerJobResultReceipt where
  resultID := "result"
  jobID := "j"
  workerID := "w"
  outcome := .failed
  completedAt := (Time.ofNs ((clock 30).ns + ns)).getD .zero

def leasedRun : List Op :=
  [.create (envelope "j" "w" "s" ["10.0.0.1"] [80]) (clock 0),
   .lease "w" [1] (clock 0) (clock 60)]

theorem completion_retry_whole :
    (plainServer.completeScannerWorkerJob (run (step plainServer) (tables [worker "w"])
      (leasedRun ++ [.complete (failedReceipt 1000) [1] (clock 31)])) (failedReceipt 1000) [1]
      (clock 32)).1 = .error .workerResultAlreadyAccepted :=
  ((completion_retry_iff plainServer (tables [worker "w"]) ⟨rfl, rfl, rfl, rfl, rfl⟩ leasedRun []
    (failedReceipt 1000) [1] [1] (clock 31) (clock 32) (by decide +kernel)).1 rfl).mpr
    (by decide +kernel)

/-- One nanosecond is enough: the first submission succeeds, and the same
receipt, sent again, is refused. -/
theorem completion_retry_refused :
    (plainServer.completeScannerWorkerJob (run (step plainServer) (tables [worker "w"])
      leasedRun) (failedReceipt 1) [1] (clock 31)).1 = .ok () ∧
    (plainServer.completeScannerWorkerJob (run (step plainServer) (tables [worker "w"])
      (leasedRun ++ [.complete (failedReceipt 1) [1] (clock 31)])) (failedReceipt 1) [1]
      (clock 32)).1 = .error .workerResultReplay := by
  decide +kernel

end Mossward.L3.CompletionRetry
