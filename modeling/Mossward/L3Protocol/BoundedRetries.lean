import Mossward.L3Protocol.LeaseLifecycle
import Mossward.L3Protocol.JobDispatch

/-!
# Bounded retries of worker jobs on PostgreSQL

A job may be leased three times. The bound is not checked where a job is
leased: a lapsed lease of the third attempt is quarantined by the next lease of
its worker, and `ReassignExpired` refuses such a job when it reads it. The
reassignment commits in a transaction of its own, with the time of the first
one, and does not look at the attempts again. `World` is the server of
`LeaseLifecycle` with the reassignments that are between their two
transactions.

Results:
* `retryInv_step`, `retryInv_run`: no job is pending after three attempts, and
  none of three attempts is lapsed at the time of a reassignment in flight.
* `retries_unbounded`: a fourth attempt, after a lease that ends one nanosecond
  after its start.
* `lapsed_quarantined`, `retries_bounded`.
-/
namespace Mossward.L3.BoundedRetries

open Table Run L1.Rfc3339 Model L2.Schema Small List
open L2.WorkerJob L2.WorkerEvidence L3.LeaseLifecycle L3.JobDispatch

/-! ## Calls and reassignments -/

/-- Reassignments come from `ReassignExpired` alone. -/
def direct : Op → Bool
  | .reassign _ _ _ => false
  | _ => true

def callTime : Op → Time
  | .create _ createdAt => createdAt
  | .lease _ _ now _ => now
  | .renew _ _ _ now _ => now
  | .record _ receivedAt => receivedAt
  | .complete _ _ now => now
  | .resumeCandidate _ now => now
  | .reassign _ _ now => now

/-- A reassignment between its two transactions. -/
structure Flight where
  candidate : WorkerJobResumeCandidate
  now : Time

/-- The envelope it stores, for the worker that was selected. -/
def Flight.envelope (f : Flight) (k : Key) (worker : ScannerWorker) : SignedWorkerJob :=
  k.signJob (jobForWorker (resumedJob f.candidate) worker)

structure World where
  db : DB
  /-- the time of the last call -/
  clock : Time
  flights : List Flight

inductive WorldOp
  | call (op : Op) (h : direct op)
  /-- `ReassignExpired` up to its first transaction -/
  | candidate (jobID : String) (now : Time)
  /-- its second transaction -/
  | reassign (n : Nat) (worker : ScannerWorker)

/-- `ReassignExpired`, `internal/workerjob/dispatcher.go:73-113`, in two steps.
Whichever worker is selected, and whether any is, is left open. -/
def World.step (S : Server) (k : Key) (w : World) : WorldOp → World
  | .call op _ => { w with db := LeaseLifecycle.step S w.db op, clock := callTime op }
  | .candidate jobID now =>
    if !w.db.worker.dispatchEnabled then { w with clock := now }
    else
      match Postgres.scannerWorkerJobResumeCandidate S.collate w.db jobID now with
      | (.error _, db) => { w with db := db, clock := now }
      | (.ok c, db) => { db := db, clock := now, flights := w.flights ++ [⟨c, now⟩] }
  | .reassign n worker =>
    match w.flights[n]? with
    | none => w
    | some f =>
      { w with
        db := LeaseLifecycle.step S w.db
          (.reassign f.candidate.envelope.job.workerID (f.envelope k worker) f.now)
        flights := w.flights.eraseIdx n }

/-- A lease lasts, by a given comparison of its start and end. -/
def leaseLasts (lasts : Time → Time → Bool) : Op → Bool
  | .lease _ _ now leaseExpiresAt => lasts now leaseExpiresAt
  | _ => true

/-- Calls come in the order of their times. -/
def Timely (lasts : Time → Time → Bool) (w : World) : WorldOp → Prop
  | .call op _ => w.clock ≤ callTime op ∧ leaseLasts lasts op
  | .candidate _ now => w.clock ≤ now
  | .reassign _ _ => True

instance (lasts : Time → Time → Bool) (w : World) (op : WorldOp) : Decidable (Timely lasts w op) := by
  cases op <;> unfold Timely <;> infer_instance

/-- The lease ends in a later microsecond than it starts. -/
def laterMicros (now leaseExpiresAt : Time) : Bool := now.truncateMicros < leaseExpiresAt.truncateMicros

/-- The lease ends later than it starts. -/
def later (now leaseExpiresAt : Time) : Bool := now < leaseExpiresAt

/-! ## Rows -/

theorem truncateMicros_mono {a b : Time} (h : a ≤ b) : a.truncateMicros ≤ b.truncateMicros := by
  rw [Time.le_def] at h ⊢
  simp only [Time.truncateMicros]
  omega

theorem truncateMicros_le (a : Time) : a.truncateMicros ≤ a := by
  rw [Time.le_def]
  simp only [Time.truncateMicros]
  omega

theorem truncateMicros_idem (a : Time) : a.truncateMicros.truncateMicros = a.truncateMicros := by
  have hn : a.truncateMicros.truncateMicros.ns = a.truncateMicros.ns := by
    simp only [Time.truncateMicros]
    omega
  exact Time.ext hn

theorem leastBy_timeLe (a b : Time) : leastBy timeLe a b = min a b := by
  unfold leastBy
  by_cases h : b ≤ a
  · simp [timeLe, h]
  · simp [timeLe, h, min_eq_left (le_of_not_ge h)]

theorem greatestBy_timeLe (a b : Time) : greatestBy timeLe a b = max a b := by
  unfold greatestBy
  by_cases h : b ≤ a
  · simp [timeLe, h]
  · simp [timeLe, h, max_eq_right (le_of_not_ge h)]

theorem truncateMicros_min (a b : Time) : (min a b).truncateMicros = min a.truncateMicros b.truncateMicros :=
  Monotone.map_min fun _ _ h => truncateMicros_mono h

theorem truncateMicros_max (a b : Time) : (max a b).truncateMicros = max a.truncateMicros b.truncateMicros :=
  Monotone.map_max fun _ _ h => truncateMicros_mono h

section
variable (S : Server)

theorem leaseLapsed_iff (t : Time) (r : JobRow) :
    leaseLapsed S.dialect (S.dialect.bind t) r ↔ r.status = .leased ∧
      (∃ l, r.leaseExpiresAt = some l ∧ l ≤ t.truncateMicros) ∧ t.truncateMicros < r.expiresAt := by
  cases hl : r.leaseExpiresAt with
  | none => simp [leaseLapsed, Dialect.leOpt, hl]
  | some l => simp [leaseLapsed, Dialect.leOpt, Dialect.lt, postgres, timeLe, hl, and_assoc]

theorem leasedAs_leaseExpiresAt (tok : TokenHash) (exp : Time) (r : JobRow) :
    (leasedAs S.dialect tok exp r).leaseExpiresAt = some (min r.expiresAt exp.truncateMicros) :=
  congrArg some (leastBy_timeLe _ _)

theorem renewedUntil_leaseExpiresAt (exp : Time) (r : JobRow) :
    (renewedUntil S.dialect exp r).leaseExpiresAt =
      r.leaseExpiresAt.map fun l => min r.expiresAt (max l exp.truncateMicros) := by
  refine congrArg (r.leaseExpiresAt.map ·) (funext fun l => ?_)
  rw [← greatestBy_timeLe, ← leastBy_timeLe]
  rfl

end

/-- What holds of every job row. -/
structure RowInv (S : Server) (r : JobRow) : Prop where
  own : r.signedEnvelope.job.id = r.id
  bounded : ∀ l, r.leaseExpiresAt = some l → l ≤ r.expiresAt
  /-- columns hold whole microseconds -/
  expiresAt : r.expiresAt.truncateMicros = r.expiresAt
  leaseExpiresAt : ∀ l, r.leaseExpiresAt = some l → l.truncateMicros = l
  attempts : r.leaseAttempt ≤ maximumWorkerLeaseAttempts
  pending : r.status = .pending → r.leaseAttempt < maximumWorkerLeaseAttempts

/-- A job that has used its attempts is not lapsed at `t`. -/
def Shut (S : Server) (t : Time) (r : JobRow) : Prop :=
  maximumWorkerLeaseAttempts ≤ r.leaseAttempt → ¬ leaseLapsed S.dialect (S.dialect.bind t) r

theorem shut_of_unleased {S : Server} {t : Time} {r : JobRow} (h : r.status ≠ .leased) : Shut S t r := by
  intro _ hl
  exact h (leaseLapsed_leased hl)

/-- What a transaction at `now` keeps of a row. -/
structure Keeps (S : Server) (now : Time) (r r' : JobRow) : Prop where
  id : r'.id = r.id
  row : RowInv S r → RowInv S r'
  shut : RowInv S r → ∀ t ≤ now, Shut S t r → Shut S t r'

section
variable {S : Server} {now : Time}

variable {r : JobRow}

theorem keeps_steps {r' : JobRow} (h : Relation.ReflTransGen (Keeps S now) r r') : Keeps S now r r' := by
  induction h with
  | refl => exact ⟨rfl, fun h => h, fun _ _ _ h => h⟩
  | tail _ hl ih =>
    exact ⟨hl.id.trans ih.id, fun h => hl.row (ih.row h),
      fun h t ht hs => hl.shut (ih.row h) t ht (ih.shut h t ht hs)⟩

theorem keeps_withoutLease {s : WorkerJobStatus} (hs : s ≠ .leased)
    (hp : s = .pending → r.leaseAttempt < maximumWorkerLeaseAttempts) :
    Keeps S now r (withoutLease s r) := by
  refine ⟨rfl, fun h => ?_, fun _ _ _ _ => shut_of_unleased hs⟩
  exact ⟨h.own, fun _ hl => (by cases hl), h.expiresAt, fun _ hl => (by cases hl), h.attempts, hp⟩

theorem keeps_completedAs (rc : WorkerJobResultReceipt) : Keeps S now r (completedAs S.dialect rc r) := by
  refine ⟨rfl, fun h => ?_, fun _ _ _ _ => shut_of_unleased (by simp [completedAs, withoutLease])⟩
  exact ⟨h.own, fun _ hl => (by cases hl), h.expiresAt, fun _ hl => (by cases hl), h.attempts,
    fun hp => (by cases hp)⟩

theorem keeps_leasedAs {tok : TokenHash} {exp : Time}
    (hpe : r.status = .pending) (hlas : now.truncateMicros < exp.truncateMicros)
    (he : now.truncateMicros < r.expiresAt) :
    Keeps S now r (leasedAs S.dialect tok exp r) := by
  have hl := leasedAs_leaseExpiresAt S tok exp r
  refine ⟨rfl, fun h => ⟨h.own, fun l hl' => ?_, h.expiresAt, fun l hl' => ?_, h.pending hpe,
    fun hp => (by cases hp)⟩, fun _ t ht _ _ hla => ?_⟩
  · obtain rfl := Option.some.inj (hl.symm.trans hl')
    exact min_le_left _ _
  · obtain rfl := Option.some.inj (hl.symm.trans hl')
    rw [truncateMicros_min, h.expiresAt, truncateMicros_idem]
  · obtain ⟨-, ⟨l, hl', hle⟩, -⟩ := (leaseLapsed_iff S t _).mp hla
    obtain rfl := Option.some.inj (hl.symm.trans hl')
    have hlat : now.truncateMicros < min r.expiresAt exp.truncateMicros := lt_min he hlas
    exact absurd (hle.trans (truncateMicros_mono ht)) (not_le_of_gt hlat)

theorem keeps_renewedUntil (exp : Time) (hlea : r.status = .leased) :
    Keeps S now r (renewedUntil S.dialect exp r) := by
  have hl := renewedUntil_leaseExpiresAt S exp r
  refine ⟨rfl, fun h => ⟨h.own, fun l hl' => ?_, h.expiresAt, fun l hl' => ?_, h.attempts, fun hp => ?_⟩,
    fun h t _ hs hma hla => ?_⟩
  · rw [hl, Option.map_eq_some_iff] at hl'
    obtain ⟨l0, hl0, rfl⟩ := hl'
    exact min_le_left _ _
  · rw [hl, Option.map_eq_some_iff] at hl'
    obtain ⟨l0, hl0, rfl⟩ := hl'
    rw [truncateMicros_min, truncateMicros_max, h.expiresAt, h.leaseExpiresAt l0 hl0, truncateMicros_idem]
  · exact absurd (hlea.symm.trans hp) (by decide)
  · -- lapsed after the renewal would be lapsed before it
    obtain ⟨-, ⟨l, hl', hle⟩, he⟩ := (leaseLapsed_iff S t _).mp hla
    rw [hl, Option.map_eq_some_iff] at hl'
    obtain ⟨l0, hl0, rfl⟩ := hl'
    have hm : l0 ≤ min r.expiresAt (max l0 exp.truncateMicros) := le_min (h.bounded l0 hl0) (le_max_left _ _)
    exact hs hma ((leaseLapsed_iff S t r).mpr ⟨hlea, ⟨l0, hl0, hm.trans hle⟩, he⟩)

/-- A reassigned row keeps its attempts, so they must not be used up. -/
theorem keeps_reassignedTo {ev : SignedWorkerJob} (hi : r.id = ev.job.id)
    (ha : r.leaseAttempt < maximumWorkerLeaseAttempts) :
    Keeps S now r (reassignedTo ev r) := by
  refine ⟨rfl, fun h => ?_, fun _ _ _ _ => shut_of_unleased (by simp [reassignedTo, withoutLease])⟩
  exact ⟨hi.symm, fun _ hl => (by cases hl), h.expiresAt, fun _ hl => (by cases hl), h.attempts, fun _ => ha⟩

end

/-! ## One transaction -/

section
variable {S : Server} {db : DB}

variable {workerID : String}

theorem shut_quarantine {now : Time} {r : JobRow}
    (hr : r ∈ (quarantineRepeatedWorkerJobs S.dialect db workerID now).worker.jobs)
    (hw : r.workerID = workerID) : Shut S now r := by
  intro hm hla
  obtain ⟨r0, hr0, hro⟩ := mem_updateWhere.mp hr
  split at hro
  · rw [hro] at hla
    cases leaseLapsed_leased hla
  rename_i hk
  subst hro hw
  obtain ⟨l, hl, hi⟩ := letter_of_lapsed hr0 hla hm db.worker.deadLetters
  refine hk ?_
  simp only [Bool.and_eq_true, any_eq_true, decide_eq_true_eq]
  exact ⟨⟨l, hl, hi⟩, leaseLapsed_leased hla⟩

theorem quarantine_keeps (wid : String) (at_ now : Time) : Evolves (Keeps S now) db.worker.jobs
      (quarantineRepeatedWorkerJobs S.dialect db wid at_).worker.jobs :=
  evolves_updateWhere fun _ _ _ => keeps_withoutLease (by decide) fun h => by cases h

theorem maintenance_keeps (wid : String) (now : Time) :
    Evolves (Keeps S now) db.worker.jobs (leaseMaintenance S.dialect db wid now).worker.jobs := by
  refine (quarantine_keeps wid now now).trans (Evolves.trans
    (evolves_updateWhere fun _ _ _ => keeps_withoutLease (s := .expired) (by decide) fun h => by cases h)
    (evolves_updateWhere fun r hr hp => keeps_withoutLease (by decide) fun _ => ?_))
  simp only [Bool.and_eq_true, decide_eq_true_eq] at hp
  obtain ⟨r1, hr1, hro⟩ := mem_updateWhere.mp hr
  split at hro
  · rw [hro] at hp
    cases leaseLapsed_leased hp.2
  · subst hro
    by_contra hmax
    exact shut_quarantine hr1 hp.1 (Nat.le_of_not_lt hmax) hp.2

theorem leased_keeps (hk : Keyed JobRow.id db.worker.jobs) {tok : TokenHash}
    {now exp : Time} (hla : laterMicros now exp) {j : JobRow}
    (hj : j ∈ (leaseMaintenance S.dialect db workerID now).worker.jobs)
    (hl : leasable S.dialect (leaseMaintenance S.dialect db workerID now).worker workerID (S.dialect.bind now) j) :
    Evolves (Keeps S now) db.worker.jobs (updateWhere (pendingJob j.id workerID)
      (leasedAs S.dialect tok exp) (leaseMaintenance S.dialect db workerID now).worker.jobs) := by
  refine (maintenance_keeps workerID now).trans (evolves_updateWhere fun r hr hp => ?_)
  simp only [pendingJob, Bool.and_eq_true, decide_eq_true_eq] at hp
  have hkm := evolves_keyed (maintenance_evolves S.dialect db workerID now) hk
  obtain rfl : r = j := hkm.eq_of_key hr hj hp.1.1
  simp only [leasable, Dialect.lt, postgres, timeLe, Bool.and_eq_true, Bool.not_eq_true',
    decide_eq_false_iff_not, not_le] at hl
  exact keeps_leasedAs hp.2 (by simpa [laterMicros] using hla) hl.1.1.2

theorem step_keeps (hk : Keyed JobRow.id db.worker.jobs) (op : Op) (hdi : direct op)
    (hla : leaseLasts laterMicros op) :
    Evolves (Keeps S (callTime op)) db.worker.jobs (step S db op).worker.jobs ∨
    ∃ ev at1, (step S db op).worker.jobs = db.worker.jobs ++ [newJobRow S.dialect ev at1] := by
  have hs := step_stepped S db op
  generalize step S db op = db' at hs ⊢
  cases hs with
  | unchanged _ hw =>
    rw [hw]
    exact .inl (.refl _ _)
  | created ev at1 _ hd =>
    subst hd
    exact .inr ⟨ev, at1, rfl⟩
  | swept wid _ now _ hd =>
    subst hd
    exact .inl (maintenance_keeps wid now)
  | leased wid tok now exp1 j hj hl hd =>
    subst hd
    exact .inl (leased_keeps hk hla hj hl)
  | renewed wid jid tok now exp hd =>
    subst hd
    refine .inl (evolves_updateWhere fun r _ hp => keeps_renewedUntil exp ?_)
    simp only [heldBy, Bool.and_eq_true] at hp
    exact (leaseHeld_leased hp.2).1
  | recorded _ _ _ hr =>
    obtain ⟨-, -, rfl⟩ := hr
    exact .inl (.refl _ _)
  | completed rc _ _ _ hw =>
    rw [hw]
    exact .inl (evolves_updateWhere fun _ _ _ => keeps_completedAs rc)
  | quarantined jid wid now hd =>
    subst hd
    exact .inl (quarantine_keeps _ _ _)
  | reassigned => cases hdi

/-! ## Dead letters -/

variable {l : DeadLetterRow}

theorem quarantine_letters {now : Time}
    (hl : l ∈ (quarantineRepeatedWorkerJobs S.dialect db workerID now).worker.deadLetters) :
    l ∈ db.worker.deadLetters ∨
    ∃ r ∈ (quarantineRepeatedWorkerJobs S.dialect db workerID now).worker.jobs,
      r.id = l.jobID ∧ finalStatus r.status := by
  rcases mem_of_mem_insertIgnore hl with ho | hn
  · exact .inl ho
  obtain ⟨r, hr, hla, hj, -, -, -⟩ := mem_newDeadLetters hn
  refine .inr ⟨withoutLease .canceled r, mem_updateWhere.mpr ⟨r, hr, ?_⟩, hj.symm, rfl⟩
  rw [if_pos]
  simp only [Bool.and_eq_true, any_eq_true, decide_eq_true_eq]
  exact ⟨⟨l, hl, hj⟩, leaseLapsed_leased hla⟩

theorem maintenance_letters {now : Time}
    (hl : l ∈ (leaseMaintenance S.dialect db workerID now).worker.deadLetters) :
    l ∈ db.worker.deadLetters ∨
    ∃ r ∈ (leaseMaintenance S.dialect db workerID now).worker.jobs, r.id = l.jobID ∧ finalStatus r.status := by
  rcases quarantine_letters hl with ho | ⟨r, hr, hi, hf⟩
  · exact .inl ho
  · have hs := sweep_evolves S.dialect workerID (S.dialect.bind now)
      (quarantineRepeatedWorkerJobs S.dialect db workerID now).worker.jobs
    exact .inr ⟨r, final_mem hs hr hf, hi, hf⟩

theorem step_letters (op : Op) (hl : l ∈ (step S db op).worker.deadLetters) : l ∈ db.worker.deadLetters ∨
    ∃ r ∈ (step S db op).worker.jobs, r.id = l.jobID ∧ finalStatus r.status := by
  have hs := step_stepped S db op
  generalize step S db op = db' at hs hl ⊢
  cases hs with
  | unchanged _ hw =>
    rw [hw] at hl
    exact .inl hl
  | swept wid _ now _ hd =>
    subst hd
    exact maintenance_letters hl
  | leased wid _ now _ j _ _ hd =>
    subst hd
    have hsw : l ∈ (leaseMaintenance S.dialect db wid now).worker.deadLetters := hl
    rcases maintenance_letters hsw with ho | ⟨r, hr, hi, hf⟩
    · exact .inl ho
    · exact .inr ⟨r, final_mem (lease_evolves j) hr hf, hi, hf⟩
  | recorded _ _ _ hre =>
    obtain ⟨-, -, rfl⟩ := hre
    exact .inl hl
  | completed _ _ _ _ hw =>
    rw [hw] at hl
    exact .inl hl
  | quarantined jid wid now hd =>
    subst hd
    exact quarantine_letters hl
  | reassigned _ _ _ _ _ hle =>
    rw [hle] at hl
    exact .inl hl
  | created _ _ _ hd | renewed _ _ _ _ _ hd =>
    subst hd
    exact .inl hl

end

/-! ## Every run -/

structure RetryInv (S : Server) (w : World) : Prop where
  keyed : Keyed JobRow.id w.db.worker.jobs
  rows : ∀ r ∈ w.db.worker.jobs, RowInv S r
  letters : ∀ l ∈ w.db.worker.deadLetters, ∃ r ∈ w.db.worker.jobs, r.id = l.jobID ∧ finalStatus r.status
  /-- a reassignment in flight finds no job without a further attempt -/
  flights : ∀ f ∈ w.flights, f.now ≤ w.clock ∧
    ∀ r ∈ w.db.worker.jobs, r.id = f.candidate.envelope.job.id → Shut S f.now r

section
variable {S : Server} {k : Key} {w : World}

theorem retryInv_fresh {db : DB} (h0 : Fresh db) (clock : Time) : RetryInv S ⟨db, clock, []⟩ := by
  obtain ⟨hj, -, -, -, hle⟩ := h0
  refine ⟨by simp [Keyed, hj], ?_, ?_, fun f hf => by cases hf⟩
  · intro r hr
    rw [hj] at hr
    cases hr
  · intro l hl
    rw [hle] at hl
    cases hl

theorem letters_step (h : RetryInv S w) (op : Op) : ∀ l ∈ (step S w.db op).worker.deadLetters,
    ∃ r ∈ (step S w.db op).worker.jobs, r.id = l.jobID ∧ finalStatus r.status := by
  intro l hl
  rcases step_letters op hl with ho | hn
  · obtain ⟨r, hr, hi, hf⟩ := h.letters l ho
    exact ⟨r, terminal_step S op hr hf, hi, hf⟩
  · exact hn

theorem retryInv_keeps (h : RetryInv S w) (op : Op) {clock : Time} (hc : w.clock ≤ clock)
    (hro : Evolves (Keeps S clock) w.db.worker.jobs (step S w.db op).worker.jobs) {flights : List Flight}
    (hfl : flights ⊆ w.flights) : RetryInv S ⟨step S w.db op, clock, flights⟩ := by
  refine ⟨keyed_step S w.db op h.keyed, fun r' hr' => ?_, letters_step h op, fun f hf => ?_⟩
  · obtain ⟨r, hr, hs⟩ := hro.backward hr'
    exact (keeps_steps hs).row (h.rows r hr)
  · obtain ⟨hn, hsh⟩ := h.flights f (hfl hf)
    refine ⟨hn.trans hc, fun r' hr' hi => ?_⟩
    obtain ⟨r, hr, hs⟩ := hro.backward hr'
    have hk := keeps_steps hs
    exact hk.shut (h.rows r hr) f.now (hn.trans hc) (hsh r hr (hk.id.symm.trans hi))

theorem retryInv_call (h : RetryInv S w) (op : Op) (hd : direct op) (hc : w.clock ≤ callTime op)
    (hla : leaseLasts laterMicros op) : RetryInv S { w with db := step S w.db op, clock := callTime op } := by
  rcases step_keeps h.keyed op hd hla with hro | ⟨ev, at1, hj⟩
  · exact retryInv_keeps h op hc hro fun _ hf => hf
  -- a new row has no attempt yet
  have hca : ∀ r ∈ (step S w.db op).worker.jobs, r ∈ w.db.worker.jobs ∨ r = newJobRow S.dialect ev at1 := by
    intro r hr
    rw [hj] at hr
    exact (mem_append.mp hr).imp_right mem_singleton.mp
  refine ⟨keyed_step S w.db op h.keyed, fun r hr => ?_, letters_step h op, fun f hf => ?_⟩
  · rcases hca r hr with hr | rfl
    · exact h.rows r hr
    · exact ⟨rfl, fun _ hl => (by cases hl), truncateMicros_idem _, fun _ hl => (by cases hl),
        Nat.zero_le _, fun _ => Nat.succ_pos 2⟩
  · obtain ⟨hn, hs⟩ := h.flights f hf
    refine ⟨hn.trans hc, fun r hr hi => ?_⟩
    rcases hca r hr with hr | rfl
    · exact hs r hr hi
    · intro hm
      exact absurd hm (Nat.not_succ_le_zero 2)

theorem candidate_row {db db' : DB} {jid : String} {now : Time} {c : WorkerJobResumeCandidate}
    (h : Postgres.scannerWorkerJobResumeCandidate S.collate db jid now = (.ok c, db')) :
    db' = db ∧ ∃ r ∈ db.worker.jobs, r.leaseAttempt < maximumWorkerLeaseAttempts ∧
      c.envelope = r.signedEnvelope := by
  simp only [Postgres.scannerWorkerJobResumeCandidate, resumeCandidate] at h
  split at h
  · cases h
  rename_i r hf
  split at h
  · cases h
  rename_i ha
  split at h
  · cases h
  rename_i ev hd
  split at h
  · cases h
  cases h
  exact ⟨rfl, r, mem_of_find?_eq_some hf, Nat.lt_of_not_le ha, decodeWorkerJob_ok hd⟩

theorem retryInv_candidate (h : RetryInv S w) (jid : String) {now : Time} (hcl : w.clock ≤ now) :
    RetryInv S (World.step S k w (.candidate jid now)) := by
  simp only [World.step]
  split
  · exact ⟨h.keyed, h.rows, h.letters, fun f hf => ⟨(h.flights f hf).1.trans hcl, (h.flights f hf).2⟩⟩
  have hc := retryInv_call h (.resumeCandidate jid now) rfl hcl rfl
  simp only [step, exec] at hc
  split
  · rename_i e db' hre
    rw [hre] at hc
    exact hc
  rename_i c db' hre
  rw [hre] at hc
  obtain ⟨rfl, r, hr, ha, he⟩ := candidate_row hre
  refine ⟨hc.keyed, hc.rows, hc.letters, fun f hf => ?_⟩
  rcases mem_append.mp hf with hf | hf
  · exact hc.flights f hf
  obtain rfl := mem_singleton.mp hf
  refine ⟨le_refl _, fun r' hr' hi hm => ?_⟩
  rw [he, (h.rows r hr).own] at hi
  rw [h.keyed.eq_of_key hr' hr hi] at hm
  exact absurd hm (Nat.not_le_of_lt ha)

theorem retryInv_reassign (h : RetryInv S w) (n : Nat) (wk : ScannerWorker) :
    RetryInv S (World.step S k w (.reassign n wk)) := by
  simp only [World.step]
  split
  · exact h
  rename_i f hf
  refine retryInv_keeps h _ (le_refl _) ?_ (eraseIdx_subset)
  simp only [step, exec]
  cases hre : Postgres.reassignScannerWorkerJob S.collate w.db f.candidate.envelope.job.workerID
      (f.envelope k wk) f.now with
  | mk res db' =>
    rcases reassign_cases hre with ⟨e, -, rfl⟩ | ⟨-, -, hj, -⟩
    · exact .refl _ _
    rw [hj]
    refine evolves_updateWhere fun r hr hp => ?_
    simp only [lapsedAt, Bool.and_eq_true, decide_eq_true_eq] at hp
    refine keeps_reassignedTo hp.1.1 (Nat.lt_of_not_le fun hm => ?_)
    exact (h.flights f (mem_of_getElem? hf)).2 r hr hp.1.1 hm hp.2

theorem retryInv_step (op : WorldOp) (h : RetryInv S w) (ht : Timely laterMicros w op) :
    RetryInv S (World.step S k w op) := by
  cases op with
  | call op hd => exact retryInv_call h op hd ht.1 ht.2
  | candidate jid now => exact retryInv_candidate h jid ht
  | reassign n wk => exact retryInv_reassign h n wk

theorem retryInv_run (h : RetryInv S w) {ops : List WorldOp}
    (ho : Along (World.step S k) (Timely laterMicros) w ops) : RetryInv S (run (World.step S k) w ops) :=
  run_invariant_along (fun _ op h ht => retryInv_step op h ht) h ho

variable {r : JobRow}

theorem final_world (op : WorldOp) (hk : Keyed JobRow.id w.db.worker.jobs)
    (hr : r ∈ w.db.worker.jobs) (hf : finalStatus r.status) :
    Keyed JobRow.id (World.step S k w op).db.worker.jobs ∧ r ∈ (World.step S k w op).db.worker.jobs := by
  cases op with
  | call op _ => exact ⟨keyed_step S w.db op hk, terminal_step S op hr hf⟩
  | candidate jid now =>
    have hke := keyed_step S w.db (.resumeCandidate jid now) hk
    have hm := terminal_step S (.resumeCandidate jid now) hr hf
    simp only [step, exec] at hke hm
    simp only [World.step]
    split
    · exact ⟨hk, hr⟩
    split
    · rename_i hre
      rw [hre] at hke hm
      exact ⟨hke, hm⟩
    · rename_i hre
      rw [hre] at hke hm
      exact ⟨hke, hm⟩
  | reassign n wk =>
    simp only [World.step]
    split
    · exact ⟨hk, hr⟩
    · exact ⟨keyed_step S w.db _ hk, terminal_step S _ hr hf⟩

theorem final_world_run (ops : List WorldOp) {r' : JobRow} (hk : Keyed JobRow.id w.db.worker.jobs)
    (hr : r ∈ w.db.worker.jobs) (hf : finalStatus r.status)
    (hr' : r' ∈ (run (World.step S k) w ops).db.worker.jobs) (hid : r'.id = r.id) : r' = r := by
  have hi : Keyed JobRow.id (run (World.step S k) w ops).db.worker.jobs ∧
      r ∈ (run (World.step S k) w ops).db.worker.jobs :=
    run_invariant (I := fun w : World => Keyed JobRow.id w.db.worker.jobs ∧ r ∈ w.db.worker.jobs)
      (fun _ op h => final_world op h.1 h.2 hf) ⟨hk, hr⟩ ops
  exact hi.1.eq_of_key hr' hi.2 hid

/-! ## The third attempt -/

/-- The job is canceled and has a dead letter, and its scan, if it was queued,
running or paused, has failed. -/
structure Quarantined (r : JobRow) (before after : DB) : Prop where
  canceled : withoutLease .canceled r ∈ after.worker.jobs
  letter : ∃ l ∈ after.worker.deadLetters, l.jobID = r.id
  failed : ∀ s ∈ before.scan.scans, s.id = r.scanID → s.status.active →
    ∃ s' ∈ after.scan.scans, s'.id = s.id ∧ s'.status = .failed
  ended : ∀ s' ∈ after.scan.scans, s'.id = r.scanID → s'.status.active = false

/-- The dead letter of a quarantined job is a new one, so its scan fails too. -/
theorem lapsed_quarantined (h : RetryInv S w) (hr : r ∈ w.db.worker.jobs) {now : Time}
    (hla : leaseLapsed S.dialect (S.dialect.bind now) r)
    (hm : maximumWorkerLeaseAttempts ≤ r.leaseAttempt) :
    Quarantined r w.db (quarantineRepeatedWorkerJobs S.dialect w.db r.workerID now) := by
  obtain ⟨l, hl, hi⟩ := letter_of_lapsed hr hla hm w.db.worker.deadLetters
  have hsc : l.scanID = r.scanID ∧ l.workerID = r.workerID ∧ l.quarantinedAt = S.dialect.bind now := by
    rcases mem_of_mem_insertIgnore hl with ho | hn
    · obtain ⟨r0, hr0, hi0, hf⟩ := h.letters l ho
      rw [h.keyed.eq_of_key hr0 hr (hi0.trans hi), leaseLapsed_leased hla] at hf
      cases hf
    · obtain ⟨r0, hr0, -, hj, hsc, hw, hat⟩ := mem_newDeadLetters hn
      rw [h.keyed.eq_of_key hr0 hr (hj.symm.trans hi)] at hsc
      exact ⟨hsc, hw, hat⟩
  have hfa : ∀ s : ScanRow, s.id = r.scanID → s.status.active →
      ((insertIgnore (·.jobID) w.db.worker.deadLetters (newDeadLetters S.dialect w.db.worker.jobs r.workerID
        (S.dialect.bind now))).any (fun l => l.scanID = s.id && l.workerID = r.workerID &&
        S.dialect.eq l.quarantinedAt (S.dialect.bind now)) && s.status.active) = true := by
    intro s hs ha
    rw [ha, Bool.and_true]
    refine any_eq_true.mpr ⟨l, hl, ?_⟩
    simp [hsc, hs, Dialect.eq, (postgres_lawful S.collate).refl]
  refine ⟨mem_updateWhere.mpr ⟨r, hr, ?_⟩, ⟨l, hl, hi⟩, fun s hs hsi ha => ?_, fun s' hs' hsi => ?_⟩
  · rw [if_pos]
    simp only [Bool.and_eq_true, any_eq_true, decide_eq_true_eq]
    exact ⟨⟨l, hl, hi⟩, leaseLapsed_leased hla⟩
  · exact ⟨_, mem_updateWhere.mpr ⟨s, hs, (if_pos (hfa s hsi ha)).symm⟩, rfl, rfl⟩
  · obtain ⟨s, hs, hro⟩ := mem_updateWhere.mp hs'
    split at hro
    · rw [hro]
      rfl
    rename_i hk
    subst hro
    by_contra ha
    exact hk (hfa s' hsi (by simpa using ha))

theorem lapsed_lease (h : RetryInv S w) (hr : r ∈ w.db.worker.jobs) {now : Time}
    (hl : leaseLapsed S.dialect (S.dialect.bind now) r)
    (hm : maximumWorkerLeaseAttempts ≤ r.leaseAttempt) {tok : TokenHash} {exp : Time}
    {res : Except StoreError SignedWorkerJob} {db' : DB}
    (hle : Postgres.leaseScannerWorkerJob S.collate w.db r.workerID tok now exp = (res, db'))
    (hc : res = .error .notFound ∨ ∃ ev, res = .ok ev) : Quarantined r w.db db' := by
  have hq := lapsed_quarantined h hr hl hm
  have hs : withoutLease .canceled r ∈ (leaseMaintenance S.dialect w.db r.workerID now).worker.jobs :=
    final_mem (sweep_evolves S.dialect r.workerID (S.dialect.bind now) _) hq.canceled rfl
  rcases lease_cases hle with ⟨e, rfl, hn, -⟩ | ⟨-, rfl⟩ | ⟨j, -, -, -, -, rfl⟩
  · rcases hc with he | ⟨ev, he⟩
    · exact absurd (Except.error.inj he) hn
    · cases he
  · exact ⟨hs, hq.letter, hq.failed, hq.ended⟩
  · exact ⟨final_mem (lease_evolves j) hs rfl, hq.letter, hq.failed, hq.ended⟩

theorem lapsed_candidate (h : RetryInv S w) (hr : r ∈ w.db.worker.jobs) {now : Time}
    (hl : leaseLapsed S.dialect (S.dialect.bind now) r)
    (hm : maximumWorkerLeaseAttempts ≤ r.leaseAttempt) :
    Quarantined r w.db (Postgres.scannerWorkerJobResumeCandidate S.collate w.db r.id now).2 := by
  have hfi : w.db.worker.jobs.find?
      (fun r' => r'.id = r.id && leaseLapsed S.dialect (S.dialect.bind now) r') = some r := by
    cases hf : w.db.worker.jobs.find?
        (fun r' => r'.id = r.id && leaseLapsed S.dialect (S.dialect.bind now) r') with
    | none => simpa [hl] using find?_eq_none.mp hf r hr
    | some r' =>
      have hp := find?_some hf
      simp only [Bool.and_eq_true, decide_eq_true_eq] at hp
      rw [h.keyed.eq_of_key (mem_of_find?_eq_some hf) hr hp.1]
  simp only [Postgres.scannerWorkerJobResumeCandidate, resumeCandidate]
  rw [hfi]
  dsimp only
  rw [if_pos hm]
  exact lapsed_quarantined h hr hl hm

/-- Stored times are whole microseconds, so the truncated time of a call
compares with them as the time itself does. -/
theorem leaseLapsed_of_le (hr : RowInv S r) (hlea : r.status = .leased) {l now : Time}
    (hl : r.leaseExpiresAt = some l) (hle : l ≤ now) (hlt : now < r.expiresAt) :
    leaseLapsed S.dialect (S.dialect.bind now) r := by
  refine (leaseLapsed_iff S now r).mpr ⟨hlea, ⟨l, hl, ?_⟩, lt_of_le_of_lt (truncateMicros_le now) hlt⟩
  rw [← hr.leaseExpiresAt l hl]
  exact truncateMicros_mono hle

end

/-- **Result.** Over every run of calls and reassignments at non-decreasing
times from a store without jobs, in which each lease ends in a later
microsecond than it starts:

1. no job has more than three lease attempts;
2. when the third lease of a job has lapsed at `now` and the job has not, a
   lease of its worker that commits at `now` and the read of `ReassignExpired`
   both leave the job canceled, with a dead letter and with its scan failed;
   and the row stays as it is after any further calls at any times, so that the
   job is not leased, renewed, reassigned or completed any more. -/
theorem retries_bounded (S : Server) (k : Key) (db : DB) (h₀ : Fresh db) (clock : Time) (ops : List WorldOp)
    (hops : Along (World.step S k) (Timely laterMicros) ⟨db, clock, []⟩ ops) :
    let w := run (World.step S k) ⟨db, clock, []⟩ ops
    (∀ r ∈ w.db.worker.jobs, r.leaseAttempt ≤ 3) ∧
    ∀ r ∈ w.db.worker.jobs, r.leaseAttempt = 3 → r.status = .leased →
      ∀ l now, r.leaseExpiresAt = some l → l ≤ now → now < r.expiresAt → ∀ db',
        ((∃ tokenHash leaseExpiresAt res,
            Postgres.leaseScannerWorkerJob S.collate w.db r.workerID tokenHash now leaseExpiresAt = (res, db') ∧
            (res = .error .notFound ∨ ∃ envelope, res = .ok envelope)) ∨
          (Postgres.scannerWorkerJobResumeCandidate S.collate w.db r.id now).2 = db') →
        Quarantined r w.db db' ∧
        ∀ later, ∀ r' ∈ (run (World.step S k) { w with db := db' } later).db.worker.jobs, r'.id = r.id →
          r' = withoutLease .canceled r := by
  intro w
  have hi : RetryInv S w := retryInv_run (retryInv_fresh h₀ clock) hops
  refine ⟨fun r hr => (hi.rows r hr).attempts, fun r hr ha hl1 l now hl hle hlt db' hca => ?_⟩
  have hla := leaseLapsed_of_le (hi.rows r hr) hl1 hl hle hlt
  have hm : maximumWorkerLeaseAttempts ≤ r.leaseAttempt := ha.ge
  have hb : Quarantined r w.db db' ∧ Keyed JobRow.id db'.worker.jobs := by
    rcases hca with ⟨tokenHash, leaseExpiresAt, res, hlea, hc⟩ | rfl
    · have hk := keyed_step S w.db (.lease r.workerID tokenHash now leaseExpiresAt) hi.keyed
      simp only [step, exec, hlea] at hk
      exact ⟨lapsed_lease hi hr hla hm hlea hc, hk⟩
    · exact ⟨lapsed_candidate hi hr hla hm, keyed_step S w.db (.resumeCandidate r.id now) hi.keyed⟩
  exact ⟨hb.1, fun later r' hr' hid =>
    final_world_run (w := { w with db := db' }) later hb.2 hb.1.canceled rfl hr' hid⟩

/-! ## A third and a fourth attempt -/

def smallKey : Key := plainKey "invalid"

def twoWorkers : World where
  db := tables [worker "w", worker "v"]
  clock := clock 0
  flights := []

/-- Two leases of the job, both of a minute. -/
def twoLeases : List WorldOp :=
  [.call (.create (envelope "j" "w" "s" ["10.0.0.1"] [80]) (clock 0)) rfl,
   .call (.lease "w" [1] (clock 0) (clock 60)) rfl,
   .call (.lease "w" [2] (clock 60) (clock 120)) rfl]

def thirdLease : List WorldOp :=
  twoLeases ++ [.call (.lease "w" [3] (clock 120) (clock 180)) rfl]

/-- The third lease lapses and the job is not reassigned but quarantined. -/
theorem retries_bounded_third :
    ∃ r ∈ (run (World.step plainServer smallKey) twoWorkers thirdLease).db.worker.jobs, r.leaseAttempt = 3 ∧
      Quarantined r (run (World.step plainServer smallKey) twoWorkers thirdLease).db
        (Postgres.scannerWorkerJobResumeCandidate plainServer.collate
          (run (World.step plainServer smallKey) twoWorkers thirdLease).db r.id (clock 180)).2 := by
  obtain ⟨r, hr, ha, hle, hl, hlt⟩ :
      ∃ r ∈ (run (World.step plainServer smallKey) twoWorkers thirdLease).db.worker.jobs,
        r.leaseAttempt = 3 ∧ r.status = .leased ∧ r.leaseExpiresAt = some (clock 180) ∧
        clock 180 < r.expiresAt := by decide +kernel
  exact ⟨r, hr, ha, ((retries_bounded plainServer smallKey (tables [worker "w", worker "v"])
    ⟨rfl, rfl, rfl, rfl, rfl⟩ (clock 0) thirdLease (by decide +kernel)).2 r hr ha hle _
    (clock 180) hl (le_refl _) hlt _ (.inr rfl)).1⟩

/-- A reassignment reads the job after two attempts; a third lease ends one
nanosecond after it starts, which the column does not keep; the reassignment
takes it for the lapsed second one, and the new worker leases the job a fourth
time. -/
def fourthLease : List WorldOp :=
  twoLeases ++
  [.candidate "j" (clock 120),
   .call (.lease "w" [3] (clock 120) ((Time.ofNs ((clock 120).ns + 1)).getD .zero)) rfl,
   .reassign 0 (worker "v"),
   .call (.lease "v" [4] (clock 120) (clock 180)) rfl]

theorem retries_unbounded : Along (World.step plainServer smallKey) (Timely later) twoWorkers fourthLease ∧
    ∃ r ∈ (run (World.step plainServer smallKey) twoWorkers fourthLease).db.worker.jobs,
      r.leaseAttempt = 4 := by
  decide +kernel

end Mossward.L3.BoundedRetries
