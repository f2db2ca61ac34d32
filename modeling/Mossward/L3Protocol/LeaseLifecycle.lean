import Mossward.Core.Run
import Mossward.L2Store.WorkerEvidence

/-!
# The lease lifecycle of worker jobs on PostgreSQL

`Server` runs the job operations of `PostgreSQLStore` in any order, each one a
transaction. What `CompleteScannerWorkerJob` does to the scan tables after its
first transaction is left open: `project` may do anything to them, and may
fail. Times are whatever the callers pass.

Results:
* `LeaseInv`, `leaseInv_run`: a row holds a token hash and a lease expiry
  exactly while it is leased, and the lease never outlives the job.
* `terminal_run`: a job row in a final status is never touched again.
* `renew_monotone`: a renewal never shortens a lease.
* `tokenInv_run`, `holder_backward`: a token hash sits on one row, and
  comes back to none.
* `step_rows`, `lease_lifecycle`.
-/
namespace Mossward.L3.LeaseLifecycle

open Table Run L1.Rfc3339 Model L2.Schema List Small Bool
open L2.WorkerJob L2.WorkerEvidence

/-! ## The server -/

structure Server where
  collate : String → String → Bool
  /-- `projectPostgreSQLScannerWorkerResult`: its verdict, and the scan tables
  it leaves. -/
  project : DB → WorkerJobResultReceipt → Except StoreError Unit × ScanTables

namespace Server

abbrev dialect (S : Server) : Dialect := postgres S.collate

/-- Mirrors `internal/store/postgres_worker_result.go:13-78`. -/
def completeScannerWorkerJob (S : Server) (db : DB) (receipt : WorkerJobResultReceipt)
    (tokenHash : TokenHash) (now : Time) : Result Unit :=
  completeWith (fun db receipt => ((S.project db receipt).1, { db with scan := (S.project db receipt).2 }))
    (Postgres.acceptResult S.collate db receipt tokenHash now) receipt

end Server

inductive Op
  | create (envelope : SignedWorkerJob) (createdAt : Time)
  | lease (workerID : String) (tokenHash : TokenHash) (now leaseExpiresAt : Time)
  | renew (workerID jobID : String) (tokenHash : TokenHash) (now requestedExpiry : Time)
  | record (envelope : SignedWorkerEvidenceBatch) (receivedAt : Time)
  | complete (receipt : WorkerJobResultReceipt) (tokenHash : TokenHash) (now : Time)
  | resumeCandidate (jobID : String) (now : Time)
  | reassign (previousWorkerID : String) (envelope : SignedWorkerJob) (now : Time)

/-- Forget the value a call returns. -/
def verdict {α : Type} (r : Result α) : Result Unit :=
  (r.1.map fun _ => (), r.2)

/-- One call of the store. -/
def exec (S : Server) (db : DB) : Op → Result Unit
  | .create envelope createdAt => Postgres.createScannerWorkerJob S.collate db envelope createdAt
  | .lease workerID tokenHash now leaseExpiresAt =>
    verdict (Postgres.leaseScannerWorkerJob S.collate db workerID tokenHash now leaseExpiresAt)
  | .renew workerID jobID tokenHash now requestedExpiry =>
    verdict (Postgres.renewScannerWorkerJobLease S.collate db workerID jobID tokenHash now requestedExpiry)
  | .record envelope receivedAt =>
    Postgres.recordScannerWorkerEvidenceBatch S.collate db envelope receivedAt
  | .complete receipt tokenHash now => S.completeScannerWorkerJob db receipt tokenHash now
  | .resumeCandidate jobID now =>
    verdict (Postgres.scannerWorkerJobResumeCandidate S.collate db jobID now)
  | .reassign previousWorkerID envelope now =>
    Postgres.reassignScannerWorkerJob S.collate db previousWorkerID envelope now

def step (S : Server) (db : DB) (op : Op) : DB := (exec S db op).2

/-- The token hash an operation hands out. -/
def Op.token : Op → Option TokenHash
  | .lease _ tokenHash _ _ => some tokenHash
  | _ => none

def leaseTokens (ops : List Op) : List TokenHash := ops.filterMap Op.token

/-- Jobs are created with status `pending`. -/
def Op.createsPending : Op → Prop
  | .create envelope _ => envelope.job.status = .pending
  | _ => True

instance (op : Op) : Decidable op.createsPending := by
  cases op <;> unfold Op.createsPending <;> infer_instance

/-! ## The effect of one operation -/

section
variable {S : Server} {db : DB}

/-- The row transitions an operation may cause. -/
abbrev Trans (S : Server) (op : Op) : JobRow → JobRow → Prop :=
  JobTrans S.dialect ⟨fun t => op.token = some t, fun _ => True, fun _ => True⟩

theorem acceptResult_cases {coll : String → String → Bool} {db' : DB}
    {rc : WorkerJobResultReceipt} {tok : TokenHash} {now : Time}
    {res : Except StoreError Acceptance}
    (h : Postgres.acceptResult coll db rc tok now = (res, db')) :
    db' = db ∨ ∃ same, accept (postgres coll) same db rc tok now = (res, db') := by
  unfold Postgres.acceptResult at h
  split at h
  · cases h
    exact .inl rfl
  split at h
  · split at h
    · cases h
      exact .inl rfl
    · cases h
      exact .inl rfl
    · exact .inr ⟨_, h⟩
  · exact .inr ⟨_, h⟩

theorem complete_worker (S : Server) (db : DB) (rc : WorkerJobResultReceipt) (tok : TokenHash) (now : Time) :
    (S.completeScannerWorkerJob db rc tok now).2.worker = db.worker ∨
      ((∀ r ∈ db.worker.jobs, r.resultID ≠ some rc.resultID) ∧ db.worker.jobs.countP
          (completable S.dialect db.worker rc tok (S.dialect.bind now)) = 1 ∧
        (S.completeScannerWorkerJob db rc tok now).2.worker = (setJobs db (updateWhere
            (completable S.dialect db.worker rc tok (S.dialect.bind now))
            (completedAs S.dialect rc) db.worker.jobs)).worker) := by
  unfold Server.completeScannerWorkerJob
  rw [completeWith_worker (fun _ _ => rfl)]
  cases h : Postgres.acceptResult S.collate db rc tok now with
  | mk res db' =>
    rcases acceptResult_cases h with rfl | ⟨same, h⟩
    · exact .inl rfl
    rcases accept_cases h with ⟨e, -, rfl⟩ | ⟨-, rfl, -⟩ | ⟨-, hn, hc, rfl⟩
    · exact .inl rfl
    · exact .inl rfl
    · exact .inr ⟨hn, hc, rfl⟩

theorem create_cases {coll : String → String → Bool} {db' : DB} {ev : SignedWorkerJob}
    {at1 : Time} {res : Except StoreError Unit}
    (h : Postgres.createScannerWorkerJob coll db ev at1 = (res, db')) :
    (∃ e, res = .error e ∧ db' = db) ∨
    (res = .ok () ∧ (∀ r ∈ db.worker.jobs, r.id ≠ ev.job.id) ∧
      db' = insertJob (postgres coll) db ev at1) := by
  unfold Postgres.createScannerWorkerJob at h
  split at h
  · cases h
    exact .inl ⟨_, rfl, rfl⟩
  split at h
  · cases h
    exact .inl ⟨_, rfl, rfl⟩
  rename_i hn
  split at h
  · cases h
    exact .inl ⟨_, rfl, rfl⟩
  split at h <;> cases h
  · exact .inl ⟨_, rfl, rfl⟩
  · refine .inr ⟨rfl, fun r hr he => hn ?_, rfl⟩
    exact any_eq_true.mpr ⟨r, hr, by simpa using he⟩

/-- What an operation may put on the rows of `db`: a receipt only if no row
carries its result identifier. -/
def Op.grant (db : DB) (op : Op) : Grant where
  token t := op.token = some t
  envelope _ := True
  receipt receipt := (∃ tokenHash now, op = .complete receipt tokenHash now) ∧
    ∀ r ∈ db.worker.jobs, r.resultID ≠ some receipt.resultID

/-- How an operation ends: without a change to the worker tables, or with the
one change it makes. -/
inductive Stepped (S : Server) (db : DB) : Op → DB → Prop
  | unchanged (op : Op) {db' : DB} (hworker : db'.worker = db.worker) : Stepped S db op db'
  | created (envelope : SignedWorkerJob) (createdAt : Time) {db' : DB}
      (hnew : ∀ r ∈ db.worker.jobs, r.id ≠ envelope.job.id) (hdb : db' = insertJob S.dialect db envelope createdAt) :
      Stepped S db (.create envelope createdAt) db'
  | swept (workerID : String) (tokenHash : TokenHash) (now leaseExpiresAt : Time) {db' : DB}
      (hdb : db' = leaseMaintenance S.dialect db workerID now) :
      Stepped S db (.lease workerID tokenHash now leaseExpiresAt) db'
  | leased (workerID : String) (tokenHash : TokenHash) (now leaseExpiresAt : Time) (j : JobRow) {db' : DB}
      (hj : j ∈ (leaseMaintenance S.dialect db workerID now).worker.jobs)
      (hleasable : leasable S.dialect (leaseMaintenance S.dialect db workerID now).worker
        workerID (S.dialect.bind now) j)
      (hdb : db' = setJobs (leaseMaintenance S.dialect db workerID now) (updateWhere (pendingJob j.id workerID)
        (leasedAs S.dialect tokenHash leaseExpiresAt) (leaseMaintenance S.dialect db workerID now).worker.jobs)) :
      Stepped S db (.lease workerID tokenHash now leaseExpiresAt) db'
  | renewed (workerID jobID : String) (tokenHash : TokenHash) (now requestedExpiry : Time) {db' : DB}
      (hdb : db' = setJobs db (updateWhere (heldBy S.dialect jobID workerID tokenHash (S.dialect.bind now))
        (renewedUntil S.dialect requestedExpiry) db.worker.jobs)) :
      Stepped S db (.renew workerID jobID tokenHash now requestedExpiry) db'
  | recorded (envelope : SignedWorkerEvidenceBatch) (receivedAt : Time) {db' : DB}
      (hok : exec S db (.record envelope receivedAt) = (.ok (), db'))
      (hrec : Recorded S.dialect db db' envelope receivedAt) : Stepped S db (.record envelope receivedAt) db'
  | completed (receipt : WorkerJobResultReceipt) (tokenHash : TokenHash) (now : Time) {db' : DB}
      (hnew : ∀ r ∈ db.worker.jobs, r.resultID ≠ some receipt.resultID)
      (hworker : db'.worker = (setJobs db (updateWhere
        (completable S.dialect db.worker receipt tokenHash (S.dialect.bind now))
        (completedAs S.dialect receipt) db.worker.jobs)).worker) : Stepped S db (.complete receipt tokenHash now) db'
  | quarantined (jobID workerID : String) (now : Time) {db' : DB}
      (hdb : db' = quarantineRepeatedWorkerJobs S.dialect db workerID now) :
      Stepped S db (.resumeCandidate jobID now) db'
  | reassigned (previousWorkerID : String) (envelope : SignedWorkerJob) (now : Time) {db' : DB}
      (hjobs : db'.worker.jobs = updateWhere (lapsedAt S.dialect envelope.job.id previousWorkerID (S.dialect.bind now))
        (reassignedTo envelope) db.worker.jobs)
      (hlog : SameLog db db') (hletters : db'.worker.deadLetters = db.worker.deadLetters) :
      Stepped S db (.reassign previousWorkerID envelope now) db'

/-- **What an operation can do.** -/
theorem step_stepped (S : Server) (db : DB) (op : Op) : Stepped S db op (step S db op) := by
  cases op with
  | create ev at1 =>
    rcases create_cases (Prod.eta _).symm with ⟨e, -, h⟩ | ⟨-, hn, h⟩
    · exact .unchanged _ (congrArg DB.worker h)
    · exact .created ev at1 hn h
  | lease wid tok now exp =>
    rcases lease_cases (Prod.eta _).symm with ⟨e, -, -, h⟩ | ⟨-, h⟩ | ⟨j, hj, hl, -, -, h⟩
    · exact .unchanged _ (congrArg DB.worker h)
    · exact .swept wid tok now exp h
    · exact .leased wid tok now exp j hj hl h
  | renew wid jid tok now exp1 =>
    rcases renew_cases (Prod.eta _).symm with ⟨e, -, h⟩ | ⟨sto, -, -, h, -⟩
    · exact .unchanged _ (congrArg DB.worker h)
    · exact .renewed wid jid tok now exp1 h
  | record ev receivedAt =>
    rcases Postgres.record_cases (Prod.eta _).symm with ⟨e, -, h⟩ | ⟨ho, hr⟩
    · exact .unchanged _ (congrArg DB.worker h)
    · exact .recorded ev receivedAt (Prod.ext ho rfl) hr
  | complete rc tok now =>
    rcases complete_worker S db rc tok now with h | ⟨hn, -, h⟩
    · exact .unchanged _ h
    · exact .completed rc tok now hn h
  | resumeCandidate jid now =>
    rcases resumeCandidate_cases (Prod.eta _).symm with ⟨e, -, h⟩ | ⟨c, -, h⟩ | ⟨r, -, -, -, -, -, h⟩
    · exact .unchanged _ (congrArg DB.worker h)
    · exact .unchanged _ (congrArg DB.worker h)
    · exact .quarantined jid r.workerID now h
  | reassign prev ev now =>
    rcases reassign_cases (Prod.eta _).symm with ⟨e, -, h⟩ | ⟨-, -, hjo, hb, hc, hle, -⟩
    · exact .unchanged _ (congrArg DB.worker h)
    · exact .reassigned prev ev now hjo ⟨hb, hc⟩ hle

theorem Stepped.rows {op : Op} {db' : DB} (h : Stepped S db op db') :
    Evolves (JobTrans S.dialect (op.grant db)) db.worker.jobs db'.worker.jobs ∨
    ∃ ev createdAt, op = .create ev createdAt ∧ (∀ r ∈ db.worker.jobs, r.id ≠ ev.job.id) ∧
      db'.worker.jobs = db.worker.jobs ++ [newJobRow S.dialect ev createdAt] := by
  cases h with
  | unchanged op hw =>
    rw [hw]
    exact .inl (.refl _ _)
  | created ev createdAt hn hd =>
    subst hd
    exact .inr ⟨ev, createdAt, rfl, hn, rfl⟩
  | swept wid tok now exp hd =>
    subst hd
    exact .inl (evolves_mono (maintenance_evolves S.dialect db wid now) (Grant.none_le _))
  | leased wid tok now exp j _ _ hd =>
    subst hd
    have hm := evolves_mono (maintenance_evolves S.dialect db wid now)
      (Grant.none_le (Op.grant db (.lease wid tok now exp)))
    exact .inl (hm.trans (evolves_mono (lease_evolves j) (Grant.ofToken_le rfl)))
  | renewed wid jid tok now exp1 hd =>
    subst hd
    exact .inl (evolves_mono (renew_evolves _) (Grant.none_le _))
  | recorded ev at1 ho hr =>
    obtain ⟨-, -, rfl⟩ := hr
    exact .inl (.refl _ _)
  | completed rc tok now hn hw =>
    rw [hw]
    exact .inl (evolves_mono (complete_evolves _) (Grant.ofReceipt_le ⟨⟨tok, now, rfl⟩, hn⟩))
  | quarantined jid wid now hd =>
    subst hd
    exact .inl (evolves_mono (quarantine_evolves _ _ _ _) (Grant.none_le _))
  | reassigned prev ev now hj =>
    rw [hj]
    exact .inl (evolves_mono (reassign_evolves _) (Grant.ofEnvelope_le trivial))

theorem step_rows (S : Server) (db : DB) (op : Op) :
    Evolves (JobTrans S.dialect (op.grant db)) db.worker.jobs (step S db op).worker.jobs ∨
    ∃ ev createdAt, op = .create ev createdAt ∧ (∀ r ∈ db.worker.jobs, r.id ≠ ev.job.id) ∧
      (step S db op).worker.jobs = db.worker.jobs ++ [newJobRow S.dialect ev createdAt] :=
  (step_stepped S db op).rows

theorem step_jobs (S : Server) (db : DB) (op : Op) :
    Evolves (Trans S op) db.worker.jobs (step S db op).worker.jobs ∨
    ∃ ev createdAt, op = .create ev createdAt ∧ (∀ r ∈ db.worker.jobs, r.id ≠ ev.job.id) ∧
      (step S db op).worker.jobs = db.worker.jobs ++ [newJobRow S.dialect ev createdAt] := by
  rcases step_rows S db op with hev | hn
  · exact .inl (evolves_mono hev ⟨fun _ ht => ht, fun _ he => he, fun _ _ => trivial⟩)
  · exact .inr hn

theorem keyed_step (S : Server) (db : DB) (op : Op) (h : Keyed JobRow.id db.worker.jobs) :
    Keyed JobRow.id (step S db op).worker.jobs := by
  rcases step_jobs S db op with he | ⟨ev, createdAt, rfl, hn, hj⟩
  · exact evolves_keyed he h
  · exact hj ▸ h.append_singleton hn

theorem keyed_run (S : Server) {db : DB} (h : Keyed JobRow.id db.worker.jobs) (ops : List Op) :
    Keyed JobRow.id (run (step S) db ops).worker.jobs :=
  run_invariant (I := fun db : DB => Keyed JobRow.id db.worker.jobs) (keyed_step S) h ops

end

/-! ## Shape of a row -/

/-- A lease is a token hash and an expiry, both present exactly while the row
is leased, and the expiry does not pass the job's own. -/
structure LeaseShape (D : Dialect) (r : JobRow) : Prop where
  token : r.leaseTokenHash.isSome ↔ r.status = .leased
  expiry : r.leaseExpiresAt.isSome ↔ r.status = .leased
  bounded : ∀ l, r.leaseExpiresAt = some l → D.le l r.expiresAt

theorem leaseShape_withoutLease (D : Dialect) (r : JobRow) {s : WorkerJobStatus} (hs : s ≠ .leased) :
    LeaseShape D (withoutLease s r) :=
  ⟨by simp [withoutLease, hs], by simp [withoutLease, hs], fun l hl => by cases hl⟩

variable {r r' : JobRow}

theorem leaseShape_trans {D : Dialect} (hD : D.Lawful) {G : Grant}
    (h : JobTrans D G r r') (hr : LeaseShape D r) : LeaseShape D r' := by
  cases h with
  | lease tok exp1 _ _ =>
    refine ⟨by simp [leasedAs], by simp [leasedAs], fun l hl => ?_⟩
    cases hl
    exact hD.least_le _ _
  | renew exp _ =>
    refine ⟨hr.token, by simpa [renewedUntil] using hr.expiry, fun l hl => ?_⟩
    simp only [renewedUntil, Option.map_eq_some_iff] at hl
    obtain ⟨l0, hl0, rfl⟩ := hl
    exact hD.renewed_le _ (hr.bounded l0 hl0)
  | complete rc _ _ _ _ _ => exact ⟨by simp [completedAs, withoutLease], by simp [completedAs, withoutLease],
      fun l hl => by cases hl⟩
  | reassign ev _ _ _ _ => exact ⟨by simp [reassignedTo, withoutLease],
      by simp [reassignedTo, withoutLease], fun l hl => by cases hl⟩
  | _ => exact leaseShape_withoutLease D r (by decide)

theorem leaseShape_steps {D : Dialect} (hD : D.Lawful) {G : Grant}
    (h : Relation.ReflTransGen (JobTrans D G) r r') (hr : LeaseShape D r) : LeaseShape D r' := by
  induction h with
  | refl => exact hr
  | tail _ hl ih => exact leaseShape_trans hD hl ih

/-- What holds of the job table in every state. -/
structure LeaseInv (D : Dialect) (db : DB) : Prop where
  keyed : Keyed JobRow.id db.worker.jobs
  shape : ∀ r ∈ db.worker.jobs, LeaseShape D r

theorem leaseInv_step (S : Server) (db : DB) (op : Op) (ho : op.createsPending)
    (h : LeaseInv S.dialect db) : LeaseInv S.dialect (step S db op) := by
  refine ⟨keyed_step S db op h.keyed, ?_⟩
  rcases step_jobs S db op with he | ⟨ev, at1, rfl, hn, hj⟩
  · intro r' hr'
    obtain ⟨r, hr, hs⟩ := he.backward hr'
    exact leaseShape_steps (postgres_lawful S.collate) hs (h.shape r hr)
  rw [Op.createsPending] at ho
  intro r hr
  rw [hj] at hr
  rcases mem_append.mp hr with hr | hr
  · exact h.shape r hr
  · rw [mem_singleton.mp hr]
    exact ⟨by simp [newJobRow, ho], by simp [newJobRow, ho], fun l hl => by cases hl⟩

theorem leaseInv_fresh (D : Dialect) {db : DB} (h : Fresh db) : LeaseInv D db := by
  obtain ⟨hj, -⟩ := h
  exact ⟨by simp [Keyed, hj], fun r hr => by rw [hj] at hr; cases hr⟩

theorem leaseInv_run (S : Server) {db : DB} (h : LeaseInv S.dialect db) (ops : List Op)
    (ho : ∀ op ∈ ops, op.createsPending) : LeaseInv S.dialect (run (step S) db ops) := by
  induction ops generalizing db with
  | nil => exact h
  | cons op ops ih =>
    exact ih (leaseInv_step S db op (ho op mem_cons_self) h) fun op' ho' => ho op' (mem_cons_of_mem _ ho')

/-! ## Final statuses -/

theorem terminal_step (S : Server) {db : DB} (op : Op) (hr : r ∈ db.worker.jobs)
    (hf : finalStatus r.status) : r ∈ (step S db op).worker.jobs := by
  rcases step_jobs S db op with he | ⟨ev, at1, -, -, hj⟩
  · exact final_mem he hr hf
  · rw [hj]
    exact mem_append_left _ hr

theorem terminal_run (S : Server) {db : DB} (ops : List Op) (hr : r ∈ db.worker.jobs)
    (hf : finalStatus r.status) : r ∈ (run (step S) db ops).worker.jobs :=
  run_invariant (I := fun db : DB => r ∈ db.worker.jobs) (fun _ op h => terminal_step S op h hf) hr ops

/-! ## Renewals -/

theorem renew_monotone (S : Server) {db db' : DB} (h : LeaseInv S.dialect db) {wid jid : String}
    {tok : TokenHash} {now exp sto : Time}
    (ho : Postgres.renewScannerWorkerJobLease S.collate db wid jid tok now exp = (.ok sto, db')) :
    ∃ r ∈ db.worker.jobs, r.id = jid ∧ ∃ l, r.leaseExpiresAt = some l ∧ l ≤ sto ∧
      ∃ r' ∈ db'.worker.jobs, r'.id = jid ∧ r'.leaseExpiresAt = some sto := by
  rcases renew_cases ho with ⟨e, he, -⟩ | ⟨sto', he, hc, rfl, hf⟩
  · cases he
  cases he
  have hp : 0 < db.worker.jobs.countP (heldBy S.dialect jid wid tok (S.dialect.bind now)) := by
    rw [hc]
    decide
  obtain ⟨r, hr, hh⟩ := countP_pos_iff.mp hp
  have hi : r.id = jid := by
    simp only [heldBy, and_eq_true, decide_eq_true_eq] at hh
    exact hh.1.1
  obtain ⟨r', hf', hs⟩ := Option.bind_eq_some_iff.mp hf
  have hr' := mem_of_find?_eq_some hf'
  have hi' : r'.id = jid := by simpa using find?_some hf'
  obtain ⟨r0, hr0, hr'e⟩ := mem_updateWhere.mp hr'
  have hr₀i : r0.id = r'.id := by
    rw [hr'e]
    split <;> rfl
  obtain rfl : r0 = r := h.keyed.eq_of_key hr0 hr (hr₀i.trans (hi'.trans hi.symm))
  rw [if_pos hh] at hr'e
  rw [hr'e] at hs
  simp only [renewedUntil, Option.map_eq_some_iff] at hs
  obtain ⟨l, hl, hle⟩ := hs
  refine ⟨r0, hr, hi, l, hl, ?_, r', hr', hi', ?_⟩
  · have := (postgres_lawful S.collate).le_renewed (S.dialect.bind exp) ((h.shape r0 hr).bounded l hl)
    rw [hle] at this
    simpa [postgres, timeLe] using this
  · rw [hr'e]
    simp [renewedUntil, hl, hle]

/-! ## Token hashes -/

variable {t : TokenHash}

/-- A row that holds a token hash held it before the operation, unless the
operation hands it out. -/
theorem holder_step (S : Server) {db : DB} {op : Op} (ho : op.token ≠ some t)
    (hr' : r' ∈ (step S db op).worker.jobs) (ht : r'.leaseTokenHash = some t) :
    ∃ r ∈ db.worker.jobs, r.id = r'.id ∧ r.leaseTokenHash = some t := by
  rcases step_jobs S db op with he | ⟨ev, at1, -, -, hj⟩
  · obtain ⟨r, hr, hs⟩ := he.backward hr'
    exact ⟨r, hr, (steps_id hs).symm, steps_token hs ht ho⟩
  rw [hj] at hr'
  rcases mem_append.mp hr' with hr' | hr'
  · exact ⟨r', hr', rfl, ht⟩
  · rw [mem_singleton.mp hr'] at ht
    cases ht

theorem holder_backward (S : Server) {db : DB} {ops : List Op} (ho1 : t ∉ leaseTokens ops)
    (hr' : r' ∈ (run (step S) db ops).worker.jobs) (ht : r'.leaseTokenHash = some t) :
    ∃ r ∈ db.worker.jobs, r.id = r'.id ∧ r.leaseTokenHash = some t := by
  induction ops generalizing db with
  | nil => exact ⟨r', hr', rfl, ht⟩
  | cons op ops ih =>
    have hop : op.token ≠ some t := fun he => ho1 (mem_filterMap.mpr ⟨op, mem_cons_self, he⟩)
    have ho' : t ∉ leaseTokens ops := fun hm => ho1 (by
      obtain ⟨o, ho, he⟩ := mem_filterMap.mp hm
      exact mem_filterMap.mpr ⟨o, mem_cons_of_mem _ ho, he⟩)
    obtain ⟨r1, hr1, hi1, ht1⟩ := ih ho' hr'
    obtain ⟨r, hr, hi, ht0⟩ := holder_step S hop hr1 ht1
    exact ⟨r, hr, hi.trans hi1, ht0⟩

theorem lease_one_holder (S : Server) {db : DB} (wid : String) {tok : TokenHash}
    (now exp : Time) (hn : ∀ r ∈ db.worker.jobs, r.leaseTokenHash ≠ some tok) :
    ∃ id, ∀ r' ∈ (step S db (.lease wid tok now exp)).worker.jobs,
      r'.leaseTokenHash = some tok → r'.id = id := by
  have hm : ∀ r ∈ (leaseMaintenance S.dialect db wid now).worker.jobs, r.leaseTokenHash ≠ some tok := by
    intro r hr ht
    obtain ⟨r0, hr0, hs⟩ := (maintenance_evolves S.dialect db wid now).backward hr
    exact hn r0 hr0 (steps_token hs ht id)
  simp only [step, exec]
  cases h : Postgres.leaseScannerWorkerJob S.collate db wid tok now exp with
  | mk res db' =>
    rcases lease_cases h with ⟨e, -, -, rfl⟩ | ⟨-, rfl⟩ | ⟨j, -, -, -, -, rfl⟩
    · exact ⟨"", fun r' hr' ht => absurd ht (hn r' hr')⟩
    · exact ⟨"", fun r' hr' ht => absurd ht (hm r' hr')⟩
    · refine ⟨j.id, fun r' hr' ht => ?_⟩
      obtain ⟨r, hr, rfl⟩ := mem_updateWhere.mp hr'
      by_cases hp : pendingJob j.id wid r
      · rw [if_pos hp]
        simp only [pendingJob, and_eq_true, decide_eq_true_eq] at hp
        exact hp.1.1
      · rw [if_neg hp] at ht
        exact absurd ht (hm r hr)

/-- `used` are the token hashes handed out so far. -/
structure TokenInv (used : List TokenHash) (db : DB) : Prop where
  mem_used : ∀ r ∈ db.worker.jobs, ∀ t, r.leaseTokenHash = some t → t ∈ used
  unique : ∀ r ∈ db.worker.jobs, ∀ r' ∈ db.worker.jobs, ∀ t,
    r.leaseTokenHash = some t → r'.leaseTokenHash = some t → r.id = r'.id

theorem tokenInv_step (S : Server) {db : DB} {used : List TokenHash} (op : Op)
    (ho : ∀ t, op.token = some t → t ∉ used) (h : TokenInv used db) :
    TokenInv (used ++ op.token.toList) (step S db op) := by
  refine ⟨fun r' hr' t ht => ?_, fun r1 hr1 r2 hr2 t ht1 ht2 => ?_⟩
  · by_cases he : op.token = some t
    · simp [he]
    · obtain ⟨r, hr, -, ht0⟩ := holder_step S he hr' ht
      exact mem_append_left _ (h.mem_used r hr t ht0)
  · by_cases he : op.token = some t
    · cases op with
      | lease wid tok now exp =>
        cases he
        obtain ⟨id, hi⟩ := lease_one_holder S wid now exp fun r hr ht => ho t rfl (h.mem_used r hr t ht)
        rw [hi r1 hr1 ht1, hi r2 hr2 ht2]
      | _ => cases he
    · obtain ⟨s1, hs1, hi1, ht4⟩ := holder_step S he hr1 ht1
      obtain ⟨s2, hs2, hi2, ht3⟩ := holder_step S he hr2 ht2
      rw [← hi1, ← hi2]
      exact h.unique s1 hs1 s2 hs2 t ht4 ht3

theorem tokenInv_run (S : Server) {db : DB} {used : List TokenHash} (h : TokenInv used db)
    (ops : List Op) (hn : (used ++ leaseTokens ops).Nodup) :
    TokenInv (used ++ leaseTokens ops) (run (step S) db ops) := by
  induction ops generalizing db used with
  | nil => simpa [leaseTokens] using h
  | cons op ops ih =>
    have ha : used ++ leaseTokens (op :: ops) = (used ++ op.token.toList) ++ leaseTokens ops := by
      cases ho : op.token <;> simp [leaseTokens, ho]
    rw [ha] at hn ⊢
    refine ih (tokenInv_step S op (fun t ht hm => ?_) h) hn
    have := (nodup_append.mp (nodup_append.mp hn).1).2.2 t hm t (by simp [ht])
    exact this rfl

/-! ## The lifecycle -/

theorem unheld_token_inert (S : Server) {db : DB} (h : ∀ r ∈ db.worker.jobs, r.leaseTokenHash ≠ some t) :
    (∀ wid jid now exp, ∃ e,
      (Postgres.renewScannerWorkerJobLease S.collate db wid jid t now exp).1 = .error e) ∧
    ∀ rc now, (S.completeScannerWorkerJob db rc t now).2.worker.jobs = db.worker.jobs := by
  constructor
  · intro wid jid now exp
    cases hr : Postgres.renewScannerWorkerJobLease S.collate db wid jid t now exp with
    | mk res db' =>
      rcases renew_cases hr with ⟨e, he, -⟩ | ⟨sto, -, hc, -⟩
      · exact ⟨e, he⟩
      exfalso
      have hp : 0 < db.worker.jobs.countP (heldBy S.dialect jid wid t (S.dialect.bind now)) := by
        rw [hc]
        decide
      obtain ⟨r, hr, hh⟩ := countP_pos_iff.mp hp
      simp only [heldBy, and_eq_true] at hh
      exact h r hr (leaseHeld_leased hh.2).2
  · intro rc now
    rcases complete_worker S db rc t now with hw | ⟨-, hc, -⟩
    · rw [hw]
    exfalso
    have hp : 0 < db.worker.jobs.countP (completable S.dialect db.worker rc t (S.dialect.bind now)) := by
      rw [hc]
      decide
    obtain ⟨r, hr, hd⟩ := countP_pos_iff.mp hp
    simp only [completable, heldBy, and_eq_true] at hd
    exact h r hr (leaseHeld_leased hd.1.2).2

theorem lost_token_unheld (S : Server) {db : DB} (h0 : Fresh db) {ops1 ops2 ops3 : List Op}
    (hp : ∀ op ∈ ops1 ++ ops2 ++ ops3, op.createsPending)
    (hn : (leaseTokens (ops1 ++ ops2 ++ ops3)).Nodup) {r2 : JobRow}
    (hr : r ∈ (run (step S) db ops1).worker.jobs) (ht : r.leaseTokenHash = some t)
    (hr2 : r2 ∈ (run (step S) db (ops1 ++ ops2)).worker.jobs) (hid : r2.id = r.id)
    (hl : r2.leaseTokenHash ≠ some t) :
    ∀ r3 ∈ (run (step S) db (ops1 ++ ops2 ++ ops3)).worker.jobs, r3.leaseTokenHash ≠ some t := by
  have hto : leaseTokens (ops1 ++ ops2 ++ ops3) =
      leaseTokens ops1 ++ leaseTokens ops2 ++ leaseTokens ops3 := by simp [leaseTokens]
  rw [hto, append_assoc] at hn
  have hf : TokenInv [] db := by
    constructor <;> rw [h0.1] <;> intro r hr <;> cases hr
  have hi := tokenInv_run S hf ops1 (by simpa using (nodup_append.mp hn).1)
  have hu : t ∈ leaseTokens ops1 := by simpa using hi.mem_used r hr t ht
  have ho : t ∉ leaseTokens ops2 ++ leaseTokens ops3 := fun hme =>
    (nodup_append.mp hn).2.2 t hu t hme rfl
  have hk := (leaseInv_run S (leaseInv_fresh S.dialect h0) (ops1 ++ ops2) fun op hop =>
    hp op (mem_append_left _ hop)).keyed
  intro r3 hr3 ht3
  rw [run_append] at hr3
  -- back through ops₃: the holder is a row of the state in which the hash is lost
  obtain ⟨r', hr', -, ht'⟩ := holder_backward S (fun hm => ho (mem_append_right _ hm)) hr3 ht3
  -- back through ops₂: it is the job that held the hash, by uniqueness
  rw [run_append] at hr'
  obtain ⟨r0, hr0, hi0, ht0⟩ := holder_backward S (fun hm => ho (mem_append_left _ hm)) hr' ht'
  have hs : r0.id = r.id := hi.unique r0 hr0 r hr t ht0 ht
  rw [← run_append] at hr'
  obtain rfl : r' = r2 := hk.eq_of_key hr' hr2 (hi0.symm.trans (hs.trans hid.symm))
  exact hl ht'

/-- **Result.** Over every run of the job operations from a store without
jobs, jobs being created pending and leases handed out under distinct token
hashes:

1. token hash and lease expiry are present exactly while a job is leased, and
   the lease ends no later than the job;
2. a job in a final status keeps it, with its whole row;
3. a successful renewal stores an expiry no earlier than the one before;
4. a token hash that was a job's current one and is not any more neither
   renews nor completes anything, ever again. -/
theorem lease_lifecycle (S : Server) (db : DB) (h₀ : Fresh db) (ops : List Op)
    (hpending : ∀ op ∈ ops, op.createsPending) (hnodup : (leaseTokens ops).Nodup) :
    (∀ r ∈ (run (step S) db ops).worker.jobs,
      (r.leaseTokenHash.isSome ↔ r.status = .leased) ∧ (r.leaseExpiresAt.isSome ↔ r.status = .leased) ∧
      ∀ l, r.leaseExpiresAt = some l → l ≤ r.expiresAt) ∧
    (∀ ops₁ ops₂, ops = ops₁ ++ ops₂ → ∀ r ∈ (run (step S) db ops₁).worker.jobs,
      finalStatus r.status → r ∈ (run (step S) db ops).worker.jobs ∧
      ∀ r' ∈ (run (step S) db ops).worker.jobs, r'.id = r.id → r'.status = r.status) ∧
    (∀ workerID jobID tokenHash now requestedExpiry stored db',
      Postgres.renewScannerWorkerJobLease S.collate (run (step S) db ops) workerID jobID tokenHash now
        requestedExpiry = (.ok stored, db') →
      ∃ r ∈ (run (step S) db ops).worker.jobs, r.id = jobID ∧ ∃ l, r.leaseExpiresAt = some l ∧ l ≤ stored ∧
        ∃ r' ∈ db'.worker.jobs, r'.id = jobID ∧ r'.leaseExpiresAt = some stored) ∧
    (∀ ops₁ ops₂ ops₃, ops = ops₁ ++ ops₂ ++ ops₃ → ∀ t, ∀ r ∈ (run (step S) db ops₁).worker.jobs,
      r.leaseTokenHash = some t → ∀ r₂ ∈ (run (step S) db (ops₁ ++ ops₂)).worker.jobs, r₂.id = r.id →
      r₂.leaseTokenHash ≠ some t →
      (∀ workerID jobID now requestedExpiry, ∃ e,
        (Postgres.renewScannerWorkerJobLease S.collate (run (step S) db ops) workerID jobID t now
          requestedExpiry).1 = .error e) ∧
      ∀ receipt now, (S.completeScannerWorkerJob (run (step S) db ops) receipt t now).2.worker.jobs =
        (run (step S) db ops).worker.jobs) := by
  have hi := leaseInv_run S (leaseInv_fresh S.dialect h₀) ops hpending
  refine ⟨fun r hr => ?_, ?_, ?_, ?_⟩
  · have hs := hi.shape r hr
    refine ⟨hs.token, hs.expiry, fun l hl => ?_⟩
    simpa [postgres, timeLe] using hs.bounded l hl
  · rintro ops₁ ops₂ rfl r hr hf
    have hm : r ∈ (run (step S) db (ops₁ ++ ops₂)).worker.jobs := by
      rw [run_append]
      exact terminal_run S ops₂ hr hf
    exact ⟨hm, fun r' hr' hid => by rw [hi.keyed.eq_of_key hr' hm hid]⟩
  · intro workerID jobID tokenHash now requestedExpiry stored db' ho
    exact renew_monotone S hi ho
  · rintro ops₁ ops₂ ops₃ rfl t r hr ht r₂ hr2 hid hlo
    exact unheld_token_inert S (lost_token_unheld S h₀ hpending hnodup hr ht hr2 hid hlo)

/-- A server whose projections succeed and change nothing. -/
def plainServer : Server where
  collate a b := a ≤ b
  project db _ := (.ok (), db.scan)

/-- A job is leased, runs out of its lease, and is leased again. -/
def reletRun : List Op :=
  [.create (envelope "j" "w" "s" ["10.0.0.1"] [80]) (clock 0),
   .lease "w" [1] (clock 0) (clock 60), .lease "w" [2] (clock 120) (clock 180)]

/-- The token of the first lease renews nothing once the job is leased again. -/
theorem lease_lifecycle_relet : (∃ r ∈ (run (step plainServer) (tables [worker "w"]) reletRun).worker.jobs,
      r.leaseTokenHash = some [2]) ∧
    ∃ e, (Postgres.renewScannerWorkerJobLease plainServer.collate
      (run (step plainServer) (tables [worker "w"]) reletRun) "w" "j" [1] (clock 130)
      (clock 190)).1 = .error e := by
  have hl := lease_lifecycle plainServer (tables [worker "w"])
    ⟨rfl, rfl, rfl, rfl, rfl⟩ reletRun (by decide) (by decide)
  obtain ⟨r, hr, ht, hi⟩ : ∃ r ∈ (run (step plainServer) (tables [worker "w"])
      (reletRun.take 2)).worker.jobs, r.leaseTokenHash = some [1] ∧ r.id = "j" := by decide +kernel
  obtain ⟨r2, hr2, ht2, hi2⟩ : ∃ r ∈ (run (step plainServer) (tables [worker "w"])
      (reletRun.take 2 ++ reletRun.drop 2)).worker.jobs, r.leaseTokenHash = some [2] ∧ r.id = "j" := by
    decide +kernel
  refine ⟨⟨r2, hr2, ht2⟩, ?_⟩
  exact (hl.2.2.2 (reletRun.take 2) (reletRun.drop 2) [] rfl [1] r hr ht r2 hr2 (hi2.trans hi.symm)
    (by rw [ht2]; decide)).1 "w" "j" (clock 130) (clock 190)

end Mossward.L3.LeaseLifecycle
