import Mossward.L3Protocol.LeaseLifecycle
import Mossward.L3Protocol.WorkerChoice

/-!
# The capacity of a worker

The dispatcher gives a job to a worker only if the worker's free concurrency,
less what its unexpired jobs have reserved, covers the job.
`internal/workerjob/dispatcher.go`, `ScannerWorkerJobLoads` and the job calls of
both stores (`Backend`).

On PostgreSQL the load counts every unexpired job. On SQLite it compares times
as texts, in which `…00.5Z` comes before `…00Z`: at the full second the load
misses a job that expires within that second, and the dispatcher gives its
capacity away twice.

Results:
* `dispatch_sqlite`, `reassignExpired_sqlite`: the dispatcher over the SQLite
  backend is the one of `JobDispatch`.
* `dispatch_effect`, `reassignExpired_effect`, `capInv_step`, `capacity_run`,
  `counted_sqlite_iff`, `readsAll_postgres`, `capacity_and_choice`.
-/
namespace Mossward.L3.WorkerCapacity

open Table Run L1.Rfc3339 Model L2.Schema List Small
open L2.WorkerJob L3.JobDispatch L3.WorkerChoice

/-! ## The two stores -/

/-- The job calls of a store, as far as the stores differ. -/
structure Backend where
  dialect : Dialect
  loadContext : String
  leaseConflict : String
  leaseContext : String
  resumeContext : String
  reassignContext : String
  create : DB → SignedWorkerJob → Time → Result Unit
  /-- the first transaction of a completion -/
  accept : DB → WorkerJobResultReceipt → TokenHash → Time → Result Acceptance
  create_cases : ∀ {db db' : DB} {envelope createdAt res}, create db envelope createdAt = (res, db') →
    (∃ e, res = .error e ∧ db' = db) ∨
    (res = .ok () ∧ (∀ r ∈ db.worker.jobs, r.id ≠ envelope.job.id) ∧
      db' = insertJob dialect db envelope createdAt)
  accept_cases : ∀ {db db' : DB} {receipt tokenHash now res}, accept db receipt tokenHash now = (res, db') →
    db' = db ∨ ∃ same, L2.WorkerJob.accept dialect same db receipt tokenHash now = (res, db')

theorem acceptSqlite_cases {db db' : DB} {rc : WorkerJobResultReceipt} {tok : TokenHash} {now : Time}
    {res : Except StoreError Acceptance} (h : Sqlite.acceptResult db rc tok now = (res, db')) :
    db' = db ∨ ∃ same, L2.WorkerJob.accept sqlite same db rc tok now = (res, db') := by
  unfold Sqlite.acceptResult at h
  split at h
  · split at h
    · cases h
      exact .inl rfl
    · cases h
      exact .inl rfl
    · exact .inr ⟨_, h⟩
  · exact .inr ⟨_, h⟩

def sqliteBackend : Backend where
  dialect := sqlite
  loadContext := "decode active scanner-worker job"
  leaseConflict := "scanner-worker job lease conflict"
  leaseContext := "decode leased scanner-worker job"
  resumeContext := "decode scanner-worker resume candidate"
  reassignContext := "reassign scanner-worker job"
  create := Sqlite.createScannerWorkerJob
  accept := Sqlite.acceptResult
  create_cases := createSqlite_cases
  accept_cases := acceptSqlite_cases

def postgresBackend (collate : String → String → Bool) : Backend where
  dialect := postgres collate
  loadContext := "decode PostgreSQL scanner-worker job"
  leaseConflict := "PostgreSQL scanner-worker job lease conflict"
  leaseContext := "decode PostgreSQL scanner-worker job"
  resumeContext := "decode PostgreSQL scanner-worker job"
  reassignContext := "reassign PostgreSQL scanner-worker job"
  create := Postgres.createScannerWorkerJob collate
  accept := Postgres.acceptResult collate
  create_cases := LeaseLifecycle.create_cases
  accept_cases := LeaseLifecycle.acceptResult_cases

namespace Backend

/-- The jobs that `ScannerWorkerJobLoads` counts. -/
def activeJobs (B : Backend) (w : WorkerTables) (now : Time) : List JobRow :=
  w.jobs.filter fun r => (r.status = .pending || r.status = .leased) &&
    B.dialect.lt (B.dialect.bind now) r.expiresAt

/-- Mirrors `ScannerWorkerJobLoads`, `internal/store/worker_job.go:58-80` and
`internal/store/postgres_worker_job.go:59-82`. -/
def loads (B : Backend) (w : WorkerTables) (now : Time) : Except StoreError (String → WorkerJobLoad) :=
  if (B.activeJobs w now).any fun r => (decodeWorkerJob r.signedEnvelope).toOption.isNone then
    .error (.context B.loadContext .targetIncomplete)
  else .ok fun workerID =>
    let jobs := (B.activeJobs w now).filter fun r => r.workerID = workerID
    { activeJobs := jobs.length, reservedConcurrency := (jobs.map (·.signedEnvelope.job.maxConcurrent)).sum }

def assign (B : Backend) (k : Key) (w : WorkerTables) (job : WorkerJob) (now : Time) (excludedWorkerID : String) :
    Except DispatchError SignedWorkerJob := do
  let loads ← (B.loads w now).mapError .store
  let worker ← selectWorkerExcluding job w.workers loads now excludedWorkerID
  return k.signJob (jobForWorker job worker)

/-- Mirrors `Dispatch`, `internal/workerjob/dispatcher.go:41-71`. -/
def dispatch (B : Backend) (k : Key) (db : DB) (job : WorkerJob) (now : Time) : DispatchResult :=
  if !db.worker.dispatchEnabled then (.error .dispatchDisabled, db)
  else
    match B.assign k db.worker job now "" with
    | .error e => (.error e, db)
    | .ok envelope =>
      match B.create db envelope now with
      | (.error e, db) => (.error (.store e), db)
      | (.ok (), db) => (.ok envelope, db)

def scannerWorkerJobResumeCandidate (B : Backend) : DB → String → Time → Result WorkerJobResumeCandidate :=
  resumeCandidate B.dialect B.resumeContext

/-- Mirrors `ReassignExpired`, `internal/workerjob/dispatcher.go:73-113`. -/
def reassignExpired (B : Backend) (k : Key) (db : DB) (jobID : String) (now : Time) : DispatchResult :=
  if !db.worker.dispatchEnabled then (.error .dispatchDisabled, db)
  else
    match B.scannerWorkerJobResumeCandidate db jobID now with
    | (.error e, db) => (.error (.store e), db)
    | (.ok c, db) =>
      match B.assign k db.worker (resumedJob c) now c.envelope.job.workerID with
      | .error e => (.error e, db)
      | .ok envelope =>
        match reassign B.dialect B.reassignContext db c.envelope.job.workerID envelope now with
        | (.error e, db) => (.error (.store e), db)
        | (.ok (), db) => (.ok envelope, db)

end Backend

theorem dispatch_sqlite : sqliteBackend.dispatch = JobDispatch.dispatch := rfl

theorem reassignExpired_sqlite : sqliteBackend.reassignExpired = JobDispatch.reassignExpired := rfl

/-! ## Runs -/

structure World where
  db : DB
  /-- the time of the last call -/
  clock : Time

inductive Op
  | dispatch (job : WorkerJob) (now : Time)
  | reassignExpired (jobID : String) (now : Time)
  | lease (workerID : String) (tokenHash : TokenHash) (now leaseExpiresAt : Time)
  /-- a completion, and the scan tables that its projection leaves -/
  | complete (receipt : WorkerJobResultReceipt) (tokenHash : TokenHash) (now : Time) (scan : ScanTables)
  /-- heartbeats and settings -/
  | workers (workers : List ScannerWorker) (dispatchEnabled : Bool)

def Op.now : Op → Option Time
  | .dispatch _ now => some now
  | .reassignExpired _ now => some now
  | .lease _ _ now _ => some now
  | .complete _ _ now _ => some now
  | .workers _ _ => none

def apply (B : Backend) (k : Key) (db : DB) : Op → DB
  | .dispatch job now => (B.dispatch k db job now).2
  | .reassignExpired jobID now => (B.reassignExpired k db jobID now).2
  | .lease workerID tokenHash now leaseExpiresAt =>
    (lease B.dialect B.leaseConflict B.leaseContext db workerID tokenHash now leaseExpiresAt).2
  | .complete receipt tokenHash now scan => { (B.accept db receipt tokenHash now).2 with scan := scan }
  | .workers workers dispatchEnabled =>
    { db with worker := { db.worker with workers := workers, dispatchEnabled := dispatchEnabled } }

def World.step (B : Backend) (k : Key) (w : World) (op : Op) : World :=
  { db := apply B k w.db op, clock := op.now.getD w.clock }

/-- Times do not decrease, and the workers keep their identifiers and
capacities. -/
def Timely (w : World) (op : Op) : Prop :=
  (∀ now, op.now = some now → w.clock ≤ now) ∧
  ∀ workers enabled, op = .workers workers enabled →
    (workers.map fun x => (x.id, x.availableConcurrency)).Perm
      (w.db.worker.workers.map fun x => (x.id, x.availableConcurrency))

instance (w : World) : (op : Op) → Decidable (Timely w op)
  | .dispatch _ now => decidable_of_iff (w.clock ≤ now) (by simp [Timely, Op.now])
  | .reassignExpired _ now => decidable_of_iff (w.clock ≤ now) (by simp [Timely, Op.now])
  | .lease _ _ now _ => decidable_of_iff (w.clock ≤ now) (by simp [Timely, Op.now])
  | .complete _ _ now _ => decidable_of_iff (w.clock ≤ now) (by simp [Timely, Op.now])
  | .workers workers _ => decidable_of_iff
      ((workers.map fun x => (x.id, x.availableConcurrency)).Perm
        (w.db.worker.workers.map fun x => (x.id, x.availableConcurrency)))
      (by simp [Timely, Op.now])

def openJob (r : JobRow) : Bool := r.status = .pending || r.status = .leased

/-- Every unexpired job is one that the load counts. -/
def Counted (B : Backend) (jobs : List JobRow) (now : Time) : Prop :=
  ∀ r ∈ jobs, openJob r → now < r.expiresAt → B.dialect.lt (B.dialect.bind now) r.expiresAt

/-- A call that reads the load counts every unexpired job. -/
def ReadsAll (B : Backend) (w : World) : Op → Prop
  | .dispatch _ now => Counted B w.db.worker.jobs now
  | .reassignExpired _ now => Counted B w.db.worker.jobs now
  | _ => True

/-- The concurrency of a worker that its unexpired jobs reserve at a time. -/
def reserved (jobs : List JobRow) (workerID : String) (t : Time) : Int :=
  ((jobs.filter fun r => openJob r && r.workerID = workerID && t < r.expiresAt).map
    (·.signedEnvelope.job.maxConcurrent)).sum

/-- At every time from now on, the jobs of each worker fit. -/
def Fits (w : World) : Prop :=
  ∀ t, w.clock ≤ t → ∀ x ∈ w.db.worker.workers, reserved w.db.worker.jobs x.id t ≤ x.availableConcurrency

/-! ## What is reserved -/

/-- What a job reserves of a worker at a time. -/
def weight (workerID : String) (t : Time) (r : JobRow) : Int :=
  if openJob r && r.workerID = workerID && t < r.expiresAt then r.signedEnvelope.job.maxConcurrent else 0

/-- No job reserves less than nothing. -/
def Sized (jobs : List JobRow) : Prop := ∀ r ∈ jobs, 0 ≤ r.signedEnvelope.job.maxConcurrent

theorem sum_filter_map {α : Type} (p : α → Bool) (f : α → Int) (l : List α) :
    ((l.filter p).map f).sum = (l.map fun x => if p x then f x else 0).sum := by
  induction l with
  | nil => rfl
  | cons x l ih =>
    rw [filter_cons, map_cons, sum_cons, ← ih]
    by_cases hp : p x = true
    · rw [if_pos hp, if_pos hp, map_cons, sum_cons]
    · rw [if_neg hp, if_neg hp, zero_add]

section
variable {B : Backend} {k : Key} {jobs jobs' : List JobRow} {workerID : String} {t : Time}

theorem reserved_eq (jobs : List JobRow) (wid : String) (t : Time) :
    reserved jobs wid t = (jobs.map (weight wid t)).sum :=
  sum_filter_map _ _ jobs

theorem reserved_le {wid' : String} {t' : Time} (h : ∀ r ∈ jobs, weight workerID t r ≤ weight wid' t' r) :
    reserved jobs workerID t ≤ reserved jobs wid' t' := by
  rw [reserved_eq, reserved_eq]
  exact sum_le_sum h

/-- Jobs expire: what they reserve does not grow with time. -/
theorem reserved_antitone (hs : Sized jobs) {t' : Time} (h : t ≤ t') :
    reserved jobs workerID t' ≤ reserved jobs workerID t := by
  refine reserved_le fun r hr => ?_
  unfold weight
  by_cases ho : (openJob r && decide (r.workerID = workerID)) = true
  · by_cases hl : t' < r.expiresAt
    · simp [hl, lt_of_le_of_lt h hl]
    simp only [hl, decide_false, Bool.and_false, Bool.false_eq_true, if_false]
    split
    · exact hs r hr
    · exact le_rfl
  · simp [ho]

theorem reserved_le_load (hs : Sized jobs) {w : WorkerTables} (hw : w.jobs = jobs) {now : Time}
    (hco : Counted B jobs now) {lds : String → WorkerJobLoad} (hl : B.loads w now = .ok lds)
    (wid : String) : reserved jobs wid now ≤ (lds wid).reservedConcurrency := by
  unfold Backend.loads at hl
  split at hl
  · cases hl
  cases hl
  rw [reserved_eq]
  simp only [Backend.activeJobs, filter_filter, hw, sum_filter_map]
  refine sum_le_sum fun r hr => ?_
  unfold weight
  by_cases hc : (openJob r && decide (r.workerID = wid) && decide (now < r.expiresAt)) = true
  · rw [if_pos hc]
    simp only [Bool.and_eq_true, decide_eq_true_eq] at hc
    have hlt := hco r hr hc.1.1 hc.2
    have ho := hc.1.1
    unfold openJob at ho
    simp [ho, hlt, hc.1.2]
  · rw [if_neg hc]
    split
    · exact hs r hr
    · exact le_rfl

variable {D : Dialect} {G : Grant} {r : JobRow}

theorem steps_assigned {r' : JobRow} (h : Relation.ReflTransGen (JobTrans D G) r r')
    (hG : ∀ e, ¬ G.envelope e) :
    r'.signedEnvelope = r.signedEnvelope ∧ r'.workerID = r.workerID ∧ r'.expiresAt = r.expiresAt ∧
      (openJob r' → openJob r) := by
  induction h with
  | refl => exact ⟨rfl, rfl, rfl, fun ho => ho⟩
  | tail _ hl ih =>
    obtain ⟨hen, hw, hex, hop⟩ := ih
    refine ⟨(hl.envelope.resolve_right (hG _)).trans hen, ?_, hl.frame.2.2.1.trans hex, fun _ => hop ?_⟩
    · cases hl with
      | reassign _ _ he _ _ => exact absurd he (hG _)
      | _ => exact hw
    · unfold openJob
      simpa using hl.from_open

theorem steps_weight {r' : JobRow} (h : Relation.ReflTransGen (JobTrans D G) r r')
    (hG : ∀ e, ¬ G.envelope e) (hs : 0 ≤ r.signedEnvelope.job.maxConcurrent) (wid : String) (t : Time) :
    weight wid t r' ≤ weight wid t r := by
  obtain ⟨he, hw, hex, ho⟩ := steps_assigned h hG
  unfold weight
  rw [he, hw, hex]
  by_cases ho' : openJob r' = true
  · rw [ho', ho ho']
  rw [Bool.not_eq_true _ |>.mp ho']
  simp only [Bool.false_and, Bool.false_eq_true, if_false]
  split
  · exact hs
  · exact le_rfl

theorem evolves_reserved (h : Evolves (JobTrans D G) jobs jobs') (hG : ∀ e, ¬ G.envelope e)
    (hsi : Sized jobs) :
    Sized jobs' ∧ ∀ wid t, reserved jobs' wid t ≤ reserved jobs wid t := by
  constructor
  · intro r' hr'
    obtain ⟨r, hr, hs⟩ := h.backward hr'
    rw [(steps_assigned hs hG).1]
    exact hsi r hr
  · intro wid t
    rw [reserved_eq, reserved_eq]
    induction h with
    | nil => exact le_rfl
    | cons hs _ ih =>
      refine add_le_add (steps_weight hs hG (hsi _ mem_cons_self) wid t) (ih fun r hr => ?_)
      exact hsi r (mem_cons_of_mem _ hr)

theorem sum_updateWhere_le {α : Type} {p : α → Bool} {f : α → α} {g : α → Int} {b : Int} {l : List α}
    (h : ∀ x ∈ l, p x = true → g (f x) ≤ g x + b) :
    ((updateWhere p f l).map g).sum ≤ (l.map g).sum + l.countP p * b := by
  induction l with
  | nil => simp [updateWhere]
  | cons x l ih =>
    have hr := ih fun y hy => h y (mem_cons_of_mem _ hy)
    unfold updateWhere at hr ⊢
    rw [map_cons, map_cons, map_cons, sum_cons, sum_cons]
    by_cases hp : p x = true
    · have hx := h x mem_cons_self hp
      rw [if_pos hp, countP_cons_of_pos hp]
      push_cast
      linarith
    · rw [if_neg hp, countP_cons_of_neg hp]
      linarith

/-! ## What the dispatcher does -/

variable {now : Time}

theorem assign_eq_ok {w : WorkerTables} {job : WorkerJob} {exc : String} {ev : SignedWorkerJob} :
    B.assign k w job now exc = .ok ev ↔ ∃ lds, B.loads w now = .ok lds ∧ ∃ wk,
        selectWorkerExcluding job w.workers lds now exc = .ok wk ∧
        ev = k.signJob (jobForWorker job wk) := by
  unfold Backend.assign
  simp only [bind_eq_ok]
  constructor
  · rintro ⟨lds, hlo, wk, hs, he⟩
    cases hl : B.loads w now with
    | error e =>
      rw [hl] at hlo
      cases hlo
    | ok lds' =>
      rw [hl] at hlo
      cases hlo
      cases he
      exact ⟨lds, rfl, wk, hs, rfl⟩
  · rintro ⟨lds, hlo, wk, hs, rfl⟩
    exact ⟨lds, by rw [hlo]; rfl, wk, hs, rfl⟩

/-- **Result.** A dispatch changes nothing, or adds a job for the worker that
is selected on the loads of that moment. -/
theorem dispatch_effect (B : Backend) (k : Key) (db : DB) (job : WorkerJob) (now : Time) :
    (∃ e, B.dispatch k db job now = (.error e, db)) ∨
    ∃ lds wk, B.loads db.worker now = .ok lds ∧
      selectWorkerExcluding job db.worker.workers lds now "" = .ok wk ∧
      B.dispatch k db job now = (.ok (k.signJob (jobForWorker job wk)),
        insertJob B.dialect db (k.signJob (jobForWorker job wk)) now) := by
  unfold Backend.dispatch
  split
  · exact .inl ⟨_, rfl⟩
  cases ha : B.assign k db.worker job now "" with
  | error e => exact .inl ⟨e, rfl⟩
  | ok ev =>
    obtain ⟨lds, hl, wk, hs, rfl⟩ := assign_eq_ok.mp ha
    cases hc : B.create db (k.signJob (jobForWorker job wk)) now with
    | mk res db' =>
      rcases B.create_cases hc with ⟨e, rfl, rfl⟩ | ⟨rfl, -, rfl⟩
      · exact .inl ⟨.store e, by simp only [hc]⟩
      · exact .inr ⟨lds, wk, hl, hs, by simp only [hc]⟩

/-- **Result.** A reassignment that fails changes nothing but for a quarantine;
one that succeeds hands the one row of the job to the worker that is selected
on the loads of that moment, other than the previous one. -/
theorem reassignExpired_effect (B : Backend) (k : Key) (db : DB) (jid : String) (now : Time) :
    (∃ e, (B.reassignExpired k db jid now).1 = .error e ∧
      Evolves (JobTrans B.dialect Grant.none) db.worker.jobs (B.reassignExpired k db jid now).2.worker.jobs ∧
      (B.reassignExpired k db jid now).2.worker.workers = db.worker.workers) ∨
    ∃ c lds wk, B.scannerWorkerJobResumeCandidate db jid now = (.ok c, db) ∧ B.loads db.worker now = .ok lds ∧
      selectWorkerExcluding (resumedJob c) db.worker.workers lds now c.envelope.job.workerID = .ok wk ∧
      (B.reassignExpired k db jid now).1 = .ok (k.signJob (jobForWorker (resumedJob c) wk)) ∧
      db.worker.jobs.countP (lapsedAt B.dialect c.envelope.job.id c.envelope.job.workerID
        (B.dialect.bind now)) = 1 ∧
      (B.reassignExpired k db jid now).2.worker.jobs =
        updateWhere (lapsedAt B.dialect c.envelope.job.id c.envelope.job.workerID (B.dialect.bind now))
          (reassignedTo (k.signJob (jobForWorker (resumedJob c) wk))) db.worker.jobs ∧
      (B.reassignExpired k db jid now).2.worker.workers = db.worker.workers := by
  unfold Backend.reassignExpired
  split
  · exact .inl ⟨_, rfl, .refl _ _, rfl⟩
  cases hc : B.scannerWorkerJobResumeCandidate db jid now with
  | mk res db1 =>
    rcases resumeCandidate_cases hc with ⟨e, rfl, rfl⟩ | ⟨c, rfl, rfl⟩ | ⟨r, -, -, -, -, rfl, rfl⟩
    · exact .inl ⟨_, rfl, .refl _ _, rfl⟩
    · dsimp only
      cases ha : B.assign k db1.worker (resumedJob c) now c.envelope.job.workerID with
      | error e => exact .inl ⟨_, rfl, .refl _ _, rfl⟩
      | ok ev =>
        obtain ⟨lds, hl, wk, hs, rfl⟩ := assign_eq_ok.mp ha
        dsimp only
        cases hr : reassign B.dialect B.reassignContext db1 c.envelope.job.workerID
            (k.signJob (jobForWorker (resumedJob c) wk)) now with
        | mk res' db2 =>
          rcases reassign_cases hr with ⟨e, rfl, rfl⟩ | ⟨rfl, hco, hj, -, -, -, hw, -⟩
          · exact .inl ⟨_, rfl, .refl _ _, rfl⟩
          · exact .inr ⟨c, lds, wk, rfl, hl, hs, rfl, hco, hj, hw⟩
    · exact .inl ⟨_, rfl, quarantine_evolves _ _ _ _, rfl⟩

/-! ## The invariant -/

structure CapInv (w : World) : Prop where
  fits : Fits w
  sized : Sized w.db.worker.jobs
  keyed : Keyed ScannerWorker.id w.db.worker.workers

variable {w : World} {job : WorkerJob} {worker : ScannerWorker} {loads : String → WorkerJobLoad} {excluded : String}

theorem validate_size (h : (validate job worker now).toOption.isSome) : 1 ≤ job.maxConcurrent := by
  cases hv : validate job worker now with
  | error e =>
    rw [hv] at h
    cases h
  | ok u =>
    unfold validate at hv
    simp only [bind_eq_ok] at hv
    obtain ⟨_, -, _, -, _, -, _, -, _, -, _, hr, -⟩ := hv
    unfold validateJobResources at hr
    split at hr
    · cases hr
    · rename_i hs
      simp only [Bool.or_eq_true, decide_eq_true_eq, not_or, not_lt] at hs
      exact hs.1

theorem selected_room (h : CapInv w) (hco : Counted B w.db.worker.jobs now)
    (hl : B.loads w.db.worker now = .ok loads)
    (hs : selectWorkerExcluding job w.db.worker.workers loads now excluded = .ok worker) :
    worker ∈ w.db.worker.workers ∧ 1 ≤ job.maxConcurrent ∧
      reserved w.db.worker.jobs worker.id now + job.maxConcurrent ≤ worker.availableConcurrency := by
  obtain ⟨hm, c, hc, -⟩ := (select_ok_iff h.keyed).mp hs
  obtain ⟨-, -, hr, hv⟩ := candidate_some hc
  have hsi : 1 ≤ (jobForWorker job worker).maxConcurrent := validate_size hv
  have hlo := reserved_le_load h.sized rfl hco hl worker.id
  exact ⟨hm, hsi, by linarith⟩

theorem weight_nonneg (hs : 0 ≤ r.signedEnvelope.job.maxConcurrent) : 0 ≤ weight workerID t r := by
  unfold weight
  split
  · exact hs
  · exact le_rfl

theorem weight_le (hs : 0 ≤ r.signedEnvelope.job.maxConcurrent) :
    weight workerID t r ≤ if workerID = r.workerID then r.signedEnvelope.job.maxConcurrent else 0 := by
  unfold weight
  by_cases hi : workerID = r.workerID
  · split
    · exact le_rfl
    · exact hs
  · rw [if_neg hi]
    have ho : decide (r.workerID = workerID) = false := decide_eq_false fun he => hi he.symm
    simp [ho]

section
variable (h : CapInv w)
include h

theorem CapInv.added {db' : DB} (hn : w.clock ≤ now) (hm : worker ∈ w.db.worker.workers)
    (hr : reserved w.db.worker.jobs worker.id now + job.maxConcurrent ≤ worker.availableConcurrency)
    (hw : db'.worker.workers = w.db.worker.workers) (hs : Sized db'.worker.jobs)
    (ha : ∀ id t, reserved db'.worker.jobs id t ≤ reserved w.db.worker.jobs id t +
      if id = worker.id then job.maxConcurrent else 0) :
    CapInv { db := db', clock := now } := by
  refine ⟨fun t ht x hx => ?_, hs, by rw [hw]; exact h.keyed⟩
  rw [hw] at hx
  refine (ha x.id t).trans ?_
  by_cases hi : x.id = worker.id
  · -- the room was measured at the call; later on no more is reserved
    obtain rfl := h.keyed.eq_of_key hx hm hi
    rw [if_pos rfl]
    have hl : reserved w.db.worker.jobs x.id t ≤ reserved w.db.worker.jobs x.id now :=
      reserved_antitone h.sized ht
    linarith
  · rw [if_neg hi, add_zero]
    exact h.fits t (hn.trans ht) x hx

theorem CapInv.evolved {db' : DB} (hn : w.clock ≤ now)
    (hG : ∀ e, ¬ G.envelope e) (hw : db'.worker.workers = w.db.worker.workers)
    (hj : Evolves (JobTrans D G) w.db.worker.jobs db'.worker.jobs) :
    CapInv { db := db', clock := now } := by
  obtain ⟨hs, hr⟩ := evolves_reserved hj hG h.sized
  refine ⟨fun t ht x hx => ?_, hs, by rw [hw]; exact h.keyed⟩
  rw [hw] at hx
  exact (hr x.id t).trans (h.fits t (hn.trans ht) x hx)

theorem CapInv.unchanged (hn : w.clock ≤ now) : CapInv { db := w.db, clock := now } :=
  ⟨fun t ht => h.fits t (hn.trans ht), h.sized, h.keyed⟩

/-! ## One call -/

theorem capInv_dispatch (hno : w.clock ≤ now) (hc : Counted B w.db.worker.jobs now) :
    CapInv { db := (B.dispatch k w.db job now).2, clock := now } := by
  rcases dispatch_effect B k w.db job now with ⟨e, he⟩ | ⟨lds, wk, hl, hs, he⟩
  · rw [he]
    exact h.unchanged hno
  rw [he]
  obtain ⟨hm, hsi, hro⟩ := selected_room h hc hl hs
  have hn : 0 ≤ (newJobRow B.dialect (k.signJob (jobForWorker job wk)) now).signedEnvelope.job.maxConcurrent :=
    zero_le_one.trans hsi
  refine h.added hno hm hro rfl (fun r hr => ?_) fun id t => ?_
  · rcases mem_append.mp hr with ho | ha
    · exact h.sized r ho
    · rw [mem_singleton.mp ha]
      exact hn
  · rw [reserved_eq, reserved_eq]
    simp only [insertJob, map_append, sum_append, map_singleton, sum_singleton]
    exact add_le_add le_rfl (weight_le hn)

theorem capInv_reassignExpired {jid : String} (hn : w.clock ≤ now) (hc : Counted B w.db.worker.jobs now) :
    CapInv { db := (B.reassignExpired k w.db jid now).2, clock := now } := by
  rcases reassignExpired_effect B k w.db jid now with
    ⟨e, -, hj, hw⟩ | ⟨c, lds, wk, -, hl, hs, -, hco, hj, hw⟩
  · exact h.evolved hn (fun _ he => he) hw hj
  · obtain ⟨hme, hsi, hro⟩ := selected_room h hc hl hs
    have hm : ∀ r, 0 ≤
        (reassignedTo (k.signJob (jobForWorker (resumedJob c) wk)) r).signedEnvelope.job.maxConcurrent :=
      fun _ => zero_le_one.trans hsi
    refine h.added hn hme hro hw (fun r hr => ?_) fun id t => ?_
    · rw [hj] at hr
      obtain ⟨r0, hr0, rfl⟩ := mem_updateWhere.mp hr
      split
      · exact hm r0
      · exact h.sized r0 hr0
    · -- the row is the only one that moves, and it reserved no less than nothing before
      rw [reserved_eq, reserved_eq, hj]
      have hsu := sum_updateWhere_le (g := weight id t)
        (b := if id = wk.id then (resumedJob c).maxConcurrent else 0)
        (p := lapsedAt B.dialect c.envelope.job.id c.envelope.job.workerID (B.dialect.bind now))
        (l := w.db.worker.jobs) fun r hr _ =>
          (weight_le (hm r)).trans (le_add_of_nonneg_left (weight_nonneg (h.sized r hr)))
      rw [hco, Nat.cast_one, one_mul] at hsu
      exact hsu

theorem capInv_lease {cf context : String} {tok : TokenHash} {exp : Time} (hn : w.clock ≤ now) :
    CapInv { db := (lease D cf context w.db workerID tok now exp).2, clock := now } := by
  cases hl : lease D cf context w.db workerID tok now exp with
  | mk res db' =>
    have hm : CapInv { db := leaseMaintenance D w.db workerID now, clock := now } :=
      h.evolved hn (fun _ he => he) rfl (maintenance_evolves D w.db workerID now)
    rcases lease_cases hl with ⟨e, -, -, rfl⟩ | ⟨-, rfl⟩ | ⟨j, -, -, -, -, rfl⟩
    · exact h.unchanged hn
    · exact hm
    · exact hm.evolved le_rfl (fun _ he => he) rfl (lease_evolves j)

theorem capInv_complete {rc : WorkerJobResultReceipt} {tok : TokenHash} {scan : ScanTables} (hn : w.clock ≤ now) :
    CapInv { db := { (B.accept w.db rc tok now).2 with scan := scan }, clock := now } := by
  have hk : CapInv { db := { w.db with scan := scan }, clock := now } :=
    h.evolved hn (fun _ he => he) rfl (.refl (JobTrans B.dialect Grant.none) _)
  cases ha : B.accept w.db rc tok now with
  | mk res db' =>
    rcases B.accept_cases ha with rfl | ⟨same, hf⟩
    · exact hk
    rcases accept_cases hf with ⟨e, -, rfl⟩ | ⟨-, rfl, -⟩ | ⟨-, -, -, rfl⟩
    · exact hk
    · exact hk
    · exact h.evolved hn (fun _ he => he) rfl (complete_evolves _)

theorem capInv_workers {workers : List ScannerWorker} {dispatchEnabled : Bool}
    (hp : (workers.map fun x => (x.id, x.availableConcurrency)).Perm
      (w.db.worker.workers.map fun x => (x.id, x.availableConcurrency))) :
    CapInv { w with db := { w.db with worker :=
      { w.db.worker with workers := workers, dispatchEnabled := dispatchEnabled } } } := by
  refine ⟨fun t ht x hx => ?_, h.sized, ?_⟩
  · obtain ⟨y, hy, he⟩ := mem_map.mp (hp.mem_iff.mp (mem_map.mpr ⟨x, hx, rfl⟩))
    obtain ⟨hid, hc⟩ := Prod.mk.injEq .. |>.mp he
    rw [← hid, ← hc]
    exact h.fits t ht y hy
  · have hi := hp.map Prod.fst
    rw [map_map, map_map] at hi
    exact hi.nodup_iff.mpr h.keyed

end

/-- **Result.** A call that counts every unexpired job keeps the jobs of each
worker within its capacity. -/
theorem capInv_step (op : Op) (h : CapInv w) (ht : Timely w op) (hr : ReadsAll B w op) :
    CapInv (World.step B k w op) := by
  cases op with
  | dispatch job now => exact capInv_dispatch h (ht.1 now rfl) hr
  | reassignExpired jid now => exact capInv_reassignExpired h (ht.1 now rfl) hr
  | lease wid tok now exp => exact capInv_lease h (ht.1 now rfl)
  | complete rc tok now scan => exact capInv_complete h (ht.1 now rfl)
  | workers workers on => exact capInv_workers h (ht.2 workers on rfl)

/-! ## Runs from an empty table -/

/-- There are no jobs, and the workers are as the columns' constraints have
them. -/
structure Start (w : World) : Prop where
  jobs : w.db.worker.jobs = []
  keyed : Keyed ScannerWorker.id w.db.worker.workers
  capacity : ∀ x ∈ w.db.worker.workers, 0 ≤ x.availableConcurrency

theorem Start.capInv (h : Start w) : CapInv w := by
  refine ⟨fun t _ x hx => ?_, fun r hr => ?_, h.keyed⟩
  · rw [h.jobs]
    exact h.capacity x hx
  · rw [h.jobs] at hr
    cases hr

/-- **Result.** If no load misses an unexpired job, then no worker is given more
than its capacity. -/
theorem capacity_run (h : Start w) {ops : List Op}
    (ho1 : Along (World.step B k) (fun w op => Timely w op ∧ ReadsAll B w op) w ops) :
    Fits (run (World.step B k) w ops) :=
  (run_invariant_along (I := CapInv) (fun _ op hi ho => capInv_step op hi ho.1 ho.2) h.capInv ho1).fits

/-- The time is the expiry of an open job, cut off after some digit of its
fraction. -/
def Cut (jobs : List JobRow) (now : Time) : Prop :=
  ∃ r ∈ jobs, openJob r ∧ now < r.expiresAt ∧ ∃ n ≤ 9, now.ns = r.expiresAt.ns - r.expiresAt.ns % 10 ^ n

/-- No load is read at such a time. -/
def Uncut (w : World) : Op → Prop
  | .dispatch _ now => ¬ Cut w.db.worker.jobs now
  | .reassignExpired _ now => ¬ Cut w.db.worker.jobs now
  | _ => True

theorem sqlite_lt_iff {a b : Time} (h : a < b) :
    sqlite.lt a b = true ↔ ¬ ∃ n ≤ 9, a.ns = b.ns - b.ns % 10 ^ n := by
  rw [← formatTime_lt_iff a.inRange b.inRange (Time.lt_def.mp h)]
  simp [Dialect.lt, sqlite_le, textLe]

/-- **Result.** On SQLite the load counts every unexpired job exactly when it is
not read at an expiry cut off after some digit. -/
theorem counted_sqlite_iff : Counted sqliteBackend jobs now ↔ ¬ Cut jobs now := by
  constructor
  · rintro hc ⟨r, hr, ho, hl, hcu⟩
    exact (sqlite_lt_iff hl).mp (hc r hr ho hl) hcu
  · intro hcu r hr ho hl
    exact (sqlite_lt_iff hl).mpr fun hn => hcu ⟨r, hr, ho, hl, hn⟩

theorem Uncut.readsAll {op : Op} (h : Uncut w op) : ReadsAll sqliteBackend w op := by
  cases op with
  | dispatch job now => exact counted_sqlite_iff.mpr h
  | reassignExpired jid now => exact counted_sqlite_iff.mpr h
  | _ => trivial

theorem truncateMicros_le (t : Time) : t.truncateMicros ≤ t := by
  rw [Time.le_def]
  unfold Time.truncateMicros
  dsimp only
  omega

/-- PostgreSQL cuts the time of the query down to microseconds, so the load
counts every job whose stored expiry is ahead. -/
theorem readsAll_postgres (coll : String → String → Bool) (w : World) (op : Op) :
    ReadsAll (postgresBackend coll) w op := by
  have hc : ∀ now, Counted (postgresBackend coll) w.db.worker.jobs now := by
    intro now r _ _ hl
    have hb : now.truncateMicros < r.expiresAt := (truncateMicros_le now).trans_lt hl
    simpa [postgresBackend, Dialect.lt, postgres, timeLe] using hb
  cases op with
  | dispatch job now => exact hc now
  | reassignExpired jid now => exact hc now
  | _ => trivial

/-! ## The choice -/

/-- The envelope is signed for the worker that is chosen on the loads of that
moment, and would be for every other order of the worker table. -/
structure Assigns (B : Backend) (k : Key) (w : WorkerTables) (job : WorkerJob) (now : Time) (excluded : String)
    (loads : String → WorkerJobLoad) (worker : ScannerWorker) (envelope : SignedWorkerJob) : Prop where
  loaded : B.loads w now = .ok loads
  chosen : Chosen (·.lastSeenUnixNS) job w.workers loads now excluded worker
  latest : (∀ x ∈ w.workers, ∀ t ∈ x.lastSeenAt, Representable t.ns) →
    Chosen lastSeen job w.workers loads now excluded worker
  other : worker.id ≠ excluded
  signed : envelope = k.signJob (jobForWorker job worker)
  canonical : ∀ workers, workers.Perm w.workers →
    B.assign k { w with workers := workers } job now excluded = .ok envelope

theorem assigns_of_select {w : WorkerTables} (hk : Keyed ScannerWorker.id w.workers)
    (hl : B.loads w now = .ok loads)
    (hs : selectWorkerExcluding job w.workers loads now excluded = .ok worker) :
    Assigns B k w job now excluded loads worker (k.signJob (jobForWorker job worker)) := by
  have hch := (select_ok_iff hk).mp hs
  obtain ⟨c, hc, -⟩ := hch.2
  refine ⟨hl, hch, hch.lastSeen, (candidate_some hc).2.1, rfl, fun wks hp => ?_⟩
  exact assign_eq_ok.mpr ⟨loads, hl, worker, (select_perm hk hp.symm).symm.trans hs, rfl⟩

end

/-- **Result.** On PostgreSQL, and on SQLite unless a load is read at an open
job's expiry cut off after some digit, the unexpired jobs of every worker fit
its capacity at every time of every run that starts without jobs. On both, each
dispatch and each reassignment that succeeds goes to the least eligible worker,
which on a reassignment is not the previous one, whatever the order of the
worker table; heartbeats count by their `UnixNano`, and so by their time where
`int64` can express it. -/
theorem capacity_and_choice (k : Key) : (∀ w ops, Start w →
      Along (World.step sqliteBackend k) (fun w op => Timely w op ∧ Uncut w op) w ops →
      Fits (run (World.step sqliteBackend k) w ops)) ∧
    (∀ collate w ops, Start w → Along (World.step (postgresBackend collate) k) Timely w ops →
      Fits (run (World.step (postgresBackend collate) k) w ops)) ∧
    ∀ (B : Backend) (db : DB), Keyed ScannerWorker.id db.worker.workers →
      (∀ job now envelope, (B.dispatch k db job now).1 = .ok envelope →
        ∃ loads worker, Assigns B k db.worker job now "" loads worker envelope ∧
          (B.dispatch k db job now).2 = insertJob B.dialect db envelope now) ∧
      ∀ jobID now envelope, (B.reassignExpired k db jobID now).1 = .ok envelope →
        ∃ c loads worker, B.scannerWorkerJobResumeCandidate db jobID now = (.ok c, db) ∧
          Assigns B k db.worker (resumedJob c) now c.envelope.job.workerID loads worker envelope ∧
          (B.reassignExpired k db jobID now).2.worker.jobs =
            updateWhere (lapsedAt B.dialect c.envelope.job.id c.envelope.job.workerID (B.dialect.bind now))
              (reassignedTo envelope) db.worker.jobs := by
  refine ⟨fun w ops hst ho1 => ?_, fun collate w ops hst ho1 => ?_, fun B db hk => ⟨?_, ?_⟩⟩
  · exact capacity_run hst (ho1.imp fun _ _ hop => ⟨hop.1, hop.2.readsAll⟩)
  · exact capacity_run hst (ho1.imp fun w op hop => ⟨hop, readsAll_postgres collate w op⟩)
  · intro job now envelope ho
    rcases dispatch_effect B k db job now with ⟨e, heq⟩ | ⟨loads, worker, hl, hs, heq⟩
    · rw [heq] at ho
      cases ho
    · rw [heq] at ho ⊢
      cases ho
      exact ⟨loads, worker, assigns_of_select hk hl hs, rfl⟩
  · intro jobID now envelope ho
    rcases reassignExpired_effect B k db jobID now with
      ⟨e, he, -⟩ | ⟨c, loads, worker, hc, hl, hs, hr, -, hj, -⟩
    · rw [he] at ho
      cases ho
    · rw [hr] at ho
      cases ho
      exact ⟨c, loads, worker, hc, assigns_of_select hk hl hs, hj⟩

/-! ## One worker, two jobs -/

def oneKey : Key := plainKey "invalid"

/-- A job that takes the whole worker. -/
def fullJob (id : String) (expiresAt : Time) : WorkerJob :=
  { (envelope id "" "s" ["10.0.0.1"] [80]).job with maxConcurrent := 4, expiresAt := expiresAt }

def oneWorker : World where
  db := tables [worker "w"]
  clock := clock 0

/-- The first job expires half a second after the second one is dispatched. -/
def halfSecondLeft : List Op :=
  [.dispatch (fullJob "a" ((Time.ofNs ((clock 1).ns + 500000000)).getD .zero)) (clock 0),
   .dispatch (fullJob "b" (clock 3600)) (clock 1)]

theorem oneWorker_start : Start oneWorker := ⟨rfl, nodup_singleton _, by decide⟩

/-- Two workers, of which the first by identifier leases the job and lets the
lease lapse. -/
def lapsedLease : World :=
  run (World.step sqliteBackend oneKey)
    { db := tables [worker "w", worker "v"], clock := clock 0 }
    [.dispatch (fullJob "a" (clock 3600)) (clock 0), .lease "v" [1] (clock 0) (clock 60)]

/-- PostgreSQL refuses the second job; SQLite is within its condition up to it;
and the lapsed job goes to the other worker. -/
theorem capacity_and_choice_half_second :
    (Fits (run (World.step (postgresBackend fun _ _ => true) oneKey) oneWorker halfSecondLeft) ∧
      (run (World.step (postgresBackend fun _ _ => true) oneKey) oneWorker halfSecondLeft).db.worker.jobs.map (·.id) =
        ["a"]) ∧
    Fits (run (World.step sqliteBackend oneKey) oneWorker (halfSecondLeft.take 1)) ∧
    (∃ envelope loads worker, Assigns sqliteBackend oneKey oneWorker.db.worker
      (fullJob "b" (clock 3600)) (clock 1) "" loads worker envelope) ∧
    ∃ c loads worker envelope, envelope.job.workerID = "w" ∧ Assigns sqliteBackend oneKey lapsedLease.db.worker
      (resumedJob c) (clock 60) c.envelope.job.workerID loads worker envelope := by
  refine ⟨⟨?_, by decide +kernel⟩, ?_, ?_, ?_⟩
  · exact (capacity_and_choice oneKey).2.1 _ oneWorker halfSecondLeft oneWorker_start (by decide +kernel)
  · refine (capacity_and_choice oneKey).1 oneWorker _ oneWorker_start ⟨⟨by decide, ?_⟩, trivial⟩
    rintro ⟨r, hr, -⟩
    cases hr
  · obtain ⟨envelope, he⟩ : ∃ envelope, (sqliteBackend.dispatch oneKey oneWorker.db
        (fullJob "b" (clock 3600)) (clock 1)).1 = .ok envelope :=
      ⟨oneKey.signJob (jobForWorker (fullJob "b" (clock 3600)) (worker "w")), by decide +kernel⟩
    obtain ⟨loads, worker, ha, -⟩ :=
      ((capacity_and_choice oneKey).2.2 sqliteBackend oneWorker.db (nodup_singleton _)).1 _ _ _ he
    exact ⟨envelope, loads, worker, ha⟩
  · obtain ⟨envelope, he, hw⟩ : ∃ envelope, (sqliteBackend.reassignExpired oneKey lapsedLease.db "a"
        (clock 60)).1 = .ok envelope ∧ envelope.job.workerID = "w" := by
      have hre : (sqliteBackend.reassignExpired oneKey lapsedLease.db "a" (clock 60)).1.toOption.any
          (fun envelope => envelope.job.workerID = "w") = true := by decide +kernel
      cases heq : (sqliteBackend.reassignExpired oneKey lapsedLease.db "a" (clock 60)).1 with
      | error e =>
        rw [heq] at hre
        cases hre
      | ok envelope =>
        rw [heq] at hre
        exact ⟨envelope, rfl, of_decide_eq_true hre⟩
    have hk : (lapsedLease.db.worker.workers.map ScannerWorker.id).Nodup := by decide +kernel
    obtain ⟨c, loads, worker, -, ha, -⟩ :=
      ((capacity_and_choice oneKey).2.2 sqliteBackend lapsedLease.db hk).2 _ _ _ he
    exact ⟨c, loads, worker, envelope, hw, ha⟩

/-- SQLite takes `…01.5Z` to be before `…01Z`: the worker has room for four and
is given eight. -/
theorem capacity_exceeded :
    Start oneWorker ∧ Along (World.step sqliteBackend oneKey) Timely oneWorker halfSecondLeft ∧
    ∃ x ∈ (run (World.step sqliteBackend oneKey) oneWorker halfSecondLeft).db.worker.workers,
      x.availableConcurrency = 4 ∧
      reserved (run (World.step sqliteBackend oneKey) oneWorker halfSecondLeft).db.worker.jobs x.id
        (run (World.step sqliteBackend oneKey) oneWorker halfSecondLeft).clock = 8 := by
  exact ⟨oneWorker_start, by decide +kernel, by decide +kernel⟩

end Mossward.L3.WorkerCapacity
