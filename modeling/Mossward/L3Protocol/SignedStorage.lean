import Mossward.L1Encoding.JobJson
import Mossward.L3Protocol.JobDispatch

/-!
# Signed jobs in storage

A job is signed over its JSON text, stored as the JSON text of its envelope,
and verified by writing the job that was read back once more.

`Validate` asks for a target's address but not for its name, and
`Target.UnmarshalJSON` asks for both. So a job whose target has no name is
signed and stored, and cannot be read again: the lease that meets it fails and
is rolled back, and every job behind it waits until it expires.

Results:
* `lease_inLine`: what a lease does with the job that is next in line.
* `decodeWorkerJob_eq`, `signed_jobs_survive_iff`.
-/
namespace Mossward.L3.SignedStorage

open Table Run L1.Rfc3339 L1.NetAddr L1.JobJson List Bool
open Model L2.Schema L2.WorkerJob L3.JobDispatch

/-! ## Keys that sign texts -/

/-- An Ed25519 key pair on texts, with signatures in base64. -/
structure Signer where
  keyID : String
  sign : String → String
  check : String → String → Except String Unit
  check_sign : ∀ payload, check payload (sign payload) = .ok ()
  keyID_ne : keyID ≠ ""
  check_ne : ∀ payload signature, check payload signature = .ok () → signature ≠ ""

/-- The dispatcher's key: jobs are signed and verified as `canonicalJob`. -/
def Signer.key (s : Signer) : Key where
  keyID := s.keyID
  sign job := s.sign (canonicalJob job)
  check job signature := s.check (canonicalJob job) signature
  check_sign job := s.check_sign (canonicalJob job)
  keyID_ne := s.keyID_ne
  check_ne job signature h := s.check_ne (canonicalJob job) signature h

/-- Signed, written, read, verified and validated. -/
def Survives (s : Signer) (job : WorkerJob) (worker : ScannerWorker) (now : Time) : Prop :=
  ∃ envelope, unmarshalSignedJob (marshalSignedJob (s.key.signJob job)) = .ok envelope ∧
    s.key.verify envelope = .ok () ∧ validate envelope.job worker now = .ok ()

def Named (job : WorkerJob) : Prop := ∀ t ∈ job.targets, t.name ≠ ""

instance (job : WorkerJob) : Decidable (Named job) :=
  inferInstanceAs (Decidable (∀ t ∈ job.targets, t.name ≠ ""))

/-! ## What validation says about targets -/

theorem checkTargets_address {pfs : List Prefix} {seen : List Addr} {tgts : List Target}
    (h : checkTargets pfs seen tgts = .ok ()) : ∀ t ∈ tgts, t.address ≠ "" := by
  induction tgts generalizing seen with
  | nil => simp
  | cons t ts ih =>
    unfold checkTargets at h
    split at h
    · cases h
    rename_i a ha
    split at h
    · cases h
    intro t' ht'
    rcases mem_cons.mp ht' with rfl | ht'
    · intro he
      rw [he] at ha
      cases ha
    · exact ih h t' ht'

variable {job : WorkerJob}

theorem validate_address {wk : ScannerWorker} {now : Time}
    (h : validate job wk now = .ok ()) : ∀ t ∈ job.targets, t.address ≠ "" := by
  unfold validate at h
  simp only [bind_eq_ok] at h
  obtain ⟨_, -, _, -, _, -, _, -, _, -, _, -, _, ht, -⟩ := h
  unfold validateJobTargets at ht
  split at ht
  · cases ht
  · split at ht
    · cases ht
    · exact checkTargets_address ht

theorem incomplete_iff (h : ∀ t ∈ job.targets, t.address ≠ "") :
    job.targets.any incomplete = true ↔ ¬ Named job := by
  simp only [any_eq_true, incomplete, or_eq_true, decide_eq_true_eq, Named, not_forall]
  constructor
  · rintro ⟨t, ht, hn | ha⟩
    · exact ⟨t, ht, not_not.mpr hn⟩
    · exact absurd ha (h t ht)
  · rintro ⟨t, ht, hn⟩
    exact ⟨t, ht, .inl (not_not.mp hn)⟩

theorem survives_iff (s : Signer) {wk : ScannerWorker} {now : Time}
    (h : validate job wk now = .ok ()) : Survives s job wk now ↔ Named job := by
  have hr := unmarshalSignedJob_marshal (s.key.signJob job)
  have hin := incomplete_iff (validate_address h)
  rw [show (s.key.signJob job).job = job from rfl] at hr
  by_cases hn : Named job
  · rw [if_neg (fun hi => hin.mp hi hn)] at hr
    exact iff_of_true ⟨_, hr, verify_sign s.key job, h⟩ hn
  rw [if_pos (hin.mpr hn)] at hr
  refine iff_of_false ?_ hn
  rintro ⟨ev, ho, -⟩
  rw [hr] at ho
  cases ho

/-! ## The job next in line -/

/-- **Result.** Reading a stored envelope is reading its JSON text. -/
theorem decodeWorkerJob_eq (e : SignedWorkerJob) :
    decodeWorkerJob e = (unmarshalSignedJob (marshalSignedJob e)).mapError fun _ => .targetIncomplete := by
  rw [unmarshalSignedJob_marshal, decodeWorkerJob]
  have ha : (e.job.targets.any fun t => t.name = "" || t.address = "") = e.job.targets.any incomplete := rfl
  rw [ha]
  cases e.job.targets.any incomplete <;> rfl

section
variable (D : Dialect) (conflict context : String)

/-- The job that a lease selects, after the bulk statements. -/
def inLine (db : DB) (workerID : String) (now : Time) : Option JobRow :=
  nextJob D (leaseMaintenance D db workerID now).worker workerID (D.bind now)

theorem lease_inLine {db : DB} (hk : Keyed JobRow.id db.worker.jobs) {wid : String}
    {tok : TokenHash} {now exp : Time} {r : JobRow} (h : inLine D db wid now = some r) :
    (decodeWorkerJob r.signedEnvelope = .ok r.signedEnvelope ∧
      (lease D conflict context db wid tok now exp).1 = .ok r.signedEnvelope) ∨
    (decodeWorkerJob r.signedEnvelope = .error .targetIncomplete ∧
      lease D conflict context db wid tok now exp = (.error (.context context .targetIncomplete), db)) := by
  obtain ⟨hm, hl⟩ := mem_filter.mp (firstBy_mem h)
  simp only [leasable, and_eq_true] at hl
  obtain ⟨⟨⟨⟨hw, hp⟩, -⟩, -⟩, -⟩ := hl
  have hc : (leaseMaintenance D db wid now).worker.jobs.countP (pendingJob r.id wid) = 1 := by
    refine Keyed.countP_eq_one (evolves_keyed (maintenance_evolves D db wid now) hk) hm ?_ ?_
    · simp [pendingJob, hw, hp]
    · intro x _ hx
      simp only [pendingJob, and_eq_true, decide_eq_true_eq] at hx
      exact hx.1.1
  unfold inLine at h
  simp only [lease, h, ne_eq]
  unfold decodeWorkerJob
  split
  · exact .inr ⟨rfl, rfl⟩
  · exact .inl ⟨rfl, rfl⟩

/-- A worker asks for a job. -/
structure LeaseCall where
  tokenHash : TokenHash
  now : Time
  leaseExpiresAt : Time

def leaseStep (workerID : String) (db : DB) (c : LeaseCall) : DB :=
  (lease D conflict context db workerID c.tokenHash c.now c.leaseExpiresAt).2

theorem leases_blocked {db : DB} (hk : Keyed JobRow.id db.worker.jobs) {wid : String} {r : JobRow}
    (hd : decodeWorkerJob r.signedEnvelope = .error .targetIncomplete) (cs1 : List LeaseCall)
    (hl : ∀ c ∈ cs1, inLine D db wid c.now = some r) :
    run (leaseStep D conflict context wid) db cs1 = db := by
  induction cs1 with
  | nil => rfl
  | cons c cs ih =>
    have hs : leaseStep D conflict context wid db c = db := by
      rcases lease_inLine D conflict context hk (hl c mem_cons_self) with ⟨ho, -⟩ | ⟨-, hle⟩
      · rw [hd] at ho
        cases ho
      · rw [leaseStep, hle]
    rw [run_cons, hs]
    exact ih fun c' hc' => hl c' (mem_cons_of_mem _ hc')

end

/-- **Result.** A valid job can be signed, stored, read, verified and validated
exactly if all its targets have a name. A lease that meets it hands it out, or
fails and leaves everything as it was: as long as such a job is the next in
line of its worker, nothing moves. -/
theorem signed_jobs_survive_iff (s : Signer) (job : WorkerJob) (worker : ScannerWorker) (now : Time)
    (hvalid : validate job worker now = .ok ()) :
    (Survives s job worker now ↔ Named job) ∧
    ∀ (D : Dialect) (conflict context : String) (db : DB), Keyed JobRow.id db.worker.jobs →
      ∀ r : JobRow, r.signedEnvelope = s.key.signJob job →
      ∀ calls : List LeaseCall, (∀ c ∈ calls, inLine D db worker.id c.now = some r) →
        (Named job → ∀ c ∈ calls,
          (lease D conflict context db worker.id c.tokenHash c.now c.leaseExpiresAt).1 =
            .ok (s.key.signJob job)) ∧
        (¬ Named job → run (leaseStep D conflict context worker.id) db calls = db ∧ ∀ c ∈ calls,
          (lease D conflict context db worker.id c.tokenHash c.now c.leaseExpiresAt).1 =
            .error (.context context .targetIncomplete)) := by
  refine ⟨survives_iff s hvalid, ?_⟩
  intro D conflict context db hk r hen calls hl
  have hd : decodeWorkerJob r.signedEnvelope =
      if Named job then .ok r.signedEnvelope else .error .targetIncomplete := by
    have hin := incomplete_iff (validate_address hvalid)
    rw [decodeWorkerJob_eq, unmarshalSignedJob_marshal, hen, show (s.key.signJob job).job = job from rfl]
    by_cases hn : Named job
    · rw [if_neg (fun hi => hin.mp hi hn), if_pos hn]
      rfl
    · rw [if_pos (hin.mpr hn), if_neg hn]
      rfl
  constructor
  · intro hn c hc
    rw [if_pos hn] at hd
    rcases lease_inLine D conflict context hk (hl c hc) with ⟨-, ho⟩ | ⟨he, -⟩
    · rw [ho, hen]
    · rw [hd] at he
      cases he
  · intro hn
    rw [if_neg hn] at hd
    refine ⟨leases_blocked D conflict context hk hd calls hl, ?_⟩
    intro c hc
    rcases lease_inLine D conflict context hk (hl c hc) with ⟨ho, -⟩ | ⟨-, hle⟩
    · rw [hd] at ho
      cases ho
    · rw [hle]

def smallSigner : Signer where
  keyID := "key"
  sign _ := "signature"
  check _ signature := if signature = "signature" then .ok () else .error "invalid"
  check_sign _ := rfl
  keyID_ne := key_ne_empty
  check_ne payload signature h := by
    rintro rfl
    cases h

open Small

theorem signed_jobs_survive_small :
    Survives smallSigner (envelope "a" "w" "s" ["10.0.0.1"] [22]).job (worker "w") (clock 1) :=
  (signed_jobs_survive_iff smallSigner (envelope "a" "w" "s" ["10.0.0.1"] [22]).job (worker "w")
    (clock 1) (by decide +kernel)).1.mpr (by decide)

/-- A job for one target, which has no name. -/
def unnamedJob : WorkerJob :=
  { (envelope "a" "" "s" [] [22]).job with
    targets := [{ name := "", address := "10.0.0.1", groupIDs := [] }] }

/-- It is dispatched together with a job that is in order, and comes first. -/
def unnamedFirst : DB :=
  (dispatch smallSigner.key
    (dispatch smallSigner.key (tables [worker "w"]) (envelope "b" "" "t" ["10.0.0.2"] [22]).job
      (clock 1)).2 unnamedJob (clock 1)).2

/-- Both jobs were accepted, the one without a name does not come back from
storage, and the lease fails. -/
theorem signed_jobs_lost : validate (jobForWorker unnamedJob (worker "w")) (worker "w") (clock 1) = .ok () ∧
    unnamedFirst.worker.jobs.map (·.id) = ["b", "a"] ∧
    unmarshalSignedJob (marshalSignedJob (smallSigner.key.signJob (jobForWorker unnamedJob (worker "w")))) =
      .error .targetIncomplete ∧
    Sqlite.leaseScannerWorkerJob unnamedFirst "w" [1] (clock 2) (clock 60) =
      (.error (.context "decode leased scanner-worker job" .targetIncomplete), unnamedFirst) := by
  decide +kernel

end Mossward.L3.SignedStorage
