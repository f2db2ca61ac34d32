import Mossward.L3Protocol.SqliteServer

/-!
# Finished jobs and their scans

A remote scan waits for its job. Three paths end a job: a completion, whose
projection saves the scan; a quarantine, which fails the scan in the same
transaction; and the expiry sweep of a lease, which leaves the scan alone.

Results:
* `RemoteInv`, `remoteInv_step`: jobs are named after their scans, the scans are
  stored, and a dead letter belongs to a job that has ended.
* `released_quarantine`, `released_throughout_iff`.
-/
namespace Mossward.L3.ScanRelease

open Table Run L1.Rfc3339 Model L2.Schema List
open L2.WorkerJob L2.WorkerEvidence L2.Intelligence L2.ScanStore
open L2.Projection L3.JobDispatch L3.SqliteServer

/-- The calls of remote execution, and updates of the CVE tables. -/
def Op.remote : Op → Bool
  | .launch _ _ _ | .upsertCVEs _ | .lease _ _ _ _ | .renew _ _ _ _ _ | .submit _ _ | .complete _ _ _ _
  | .resumeCandidate _ _ => true
  | _ => false

/-- The scan is stored as `queued`, `running` or `paused`. -/
def scanActive (t : ScanTables) (id : String) : Bool := (storedStatus t id).any ScanStatus.active

/-- A job that has ended leaves no active scan behind. -/
def Released (db : DB) : Prop :=
  ∀ r ∈ db.worker.jobs, finalStatus r.status → scanActive db.scan r.scanID = false

instance (db : DB) : Decidable (Released db) := by
  unfold Released
  infer_instance

/-! ## The shape of remote jobs -/

structure RemoteInv (db : DB) : Prop where
  keyed : Keyed JobRow.id db.worker.jobs
  named : ∀ r ∈ db.worker.jobs, r.id = "scan-" ++ r.scanID ∧ r.signedEnvelope.job.scanID = r.scanID
  stored : ∀ r ∈ db.worker.jobs, (storedStatus db.scan r.scanID).isSome
  decodes : ∀ r ∈ db.worker.jobs, r.status = .leased →
    decodeWorkerJob r.signedEnvelope = .ok r.signedEnvelope
  letters : ∀ l ∈ db.worker.deadLetters, ∃ r ∈ db.worker.jobs,
    r.id = l.jobID ∧ r.scanID = l.scanID ∧ finalStatus r.status

theorem remoteInv_empty (wks : List ScannerWorker) (on : Bool) : RemoteInv (emptyTables wks on) := by
  refine ⟨?_, ?_, ?_, ?_, ?_⟩ <;> simp [emptyTables, Keyed]

section
variable {S : Server} {db db' : DB}

variable {r r' : JobRow}

theorem RemoteInv.eq_of_scanID (h : RemoteInv db) (hr : r ∈ db.worker.jobs)
    (hr' : r' ∈ db.worker.jobs) (he : r.scanID = r'.scanID) : r = r' := by
  refine h.keyed.eq_of_key hr hr' ?_
  rw [(h.named r hr).1, (h.named r' hr').1, he]

theorem RemoteInv.letter_ne (h : RemoteInv db) (hr : r ∈ db.worker.jobs)
    (ho : finalStatus r.status = false) {l : DeadLetterRow} (hl : l ∈ db.worker.deadLetters) :
    l.jobID ≠ r.id ∧ l.scanID ≠ r.scanID := by
  obtain ⟨r0, hr0, hi, hs, hf⟩ := h.letters l hl
  constructor
  · intro he
    rw [h.keyed.eq_of_key hr0 hr (hi.trans he), ho] at hf
    cases hf
  · intro he
    rw [h.eq_of_scanID hr0 hr (hs.trans he), ho] at hf
    cases hf

theorem remoteInv_rows {G : Grant} (h : RemoteInv db)
    (hro : Evolves (JobTrans sqlite G) db.worker.jobs db'.worker.jobs) (hG : ∀ e, ¬ G.envelope e)
    (hlea : ∀ r ∈ db'.worker.jobs, r.status = .leased →
      decodeWorkerJob r.signedEnvelope = .ok r.signedEnvelope)
    (hle : db'.worker.deadLetters = db.worker.deadLetters)
    (hst : ∀ id, (storedStatus db.scan id).isSome → (storedStatus db'.scan id).isSome) :
    RemoteInv db' := by
  refine ⟨evolves_keyed hro h.keyed, fun r' hr' => ?_, fun r' hr' => ?_, hlea, fun l hl => ?_⟩
  · obtain ⟨r, hr, hs⟩ := hro.backward hr'
    rw [steps_id hs, steps_scanID hs, steps_envelope hs hG]
    exact h.named r hr
  · obtain ⟨r, hr, hs⟩ := hro.backward hr'
    rw [steps_scanID hs]
    exact hst _ (h.stored r hr)
  · rw [hle] at hl
    obtain ⟨r, hr, hi, hsc, hf⟩ := h.letters l hl
    exact ⟨r, final_mem hro hr hf, hi, hsc, hf⟩

theorem decodes_rows {G : Grant} (h : RemoteInv db)
    (hro : Evolves (JobTrans sqlite G) db.worker.jobs db'.worker.jobs) (hG : ∀ e, ¬ G.envelope e)
    (hT : ∀ t, ¬ G.token t) : ∀ r ∈ db'.worker.jobs, r.status = .leased →
      decodeWorkerJob r.signedEnvelope = .ok r.signedEnvelope := by
  intro r' hr' hl
  obtain ⟨r, hr, hs⟩ := hro.backward hr'
  rw [steps_envelope hs hG]
  exact h.decodes r hr (steps_leased hs hT hl)

/-! ## Quarantine -/

theorem scanActive_quarantine (db : DB) (wid : String) (now : Time) (id : String) :
    scanActive (quarantineRepeatedWorkerJobs sqlite db wid now).scan id =
      (scanActive db.scan id && !letterNow db wid now id) := by
  unfold scanActive
  rw [storedStatus_quarantine]
  cases storedStatus db.scan id with
  | none => rfl
  | some st =>
    cases hl : letterNow db wid now id <;> cases ha : st.active <;> simp [ha]
    rfl

theorem not_final_of_leased (h : r.status = .leased) : finalStatus r.status = false := by
  rw [h]
  rfl

variable {workerID : String}

theorem letterNow_of_stopped (h : RemoteInv db) {now : Time}
    (hr : r ∈ db.worker.jobs) (hl : r.status = .leased)
    (ha : (lettersAfter db workerID now).any fun l => l.jobID = r.id) :
    letterNow db workerID now r.scanID := by
  obtain ⟨l, hm, hi⟩ := any_eq_true.mp ha
  simp only [decide_eq_true_eq] at hi
  rcases mem_of_mem_insertIgnore hm with ho | hn
  · exact absurd hi (h.letter_ne hr (not_final_of_leased hl) ho).1
  obtain ⟨r0, hr0, -, hj, hs, hw, hat⟩ := mem_newDeadLetters hn
  have hrr : r0 = r := h.keyed.eq_of_key hr0 hr (hj.symm.trans hi)
  refine any_eq_true.mpr ⟨l, hm, ?_⟩
  rw [hrr] at hs
  simp [hs, hw, hat, Dialect.eq, sqlite_lawful.refl]

theorem mem_quarantine {now : Time} :
    r' ∈ (quarantineRepeatedWorkerJobs sqlite db workerID now).worker.jobs ↔ ∃ r ∈ db.worker.jobs,
      r' = if ((lettersAfter db workerID now).any fun l => l.jobID = r.id) && r.status = .leased then
        withoutLease .canceled r else r :=
  mem_updateWhere

theorem remoteInv_quarantine (h : RemoteInv db) (wid : String) (now : Time) :
    RemoteInv (quarantineRepeatedWorkerJobs sqlite db wid now) := by
  have hro := quarantine_evolves sqlite db wid now
  refine ⟨evolves_keyed hro h.keyed, fun r' hr' => ?_, fun r' hr' => ?_,
    decodes_rows h hro (fun _ he => he) (fun _ ht => ht), fun l hl => ?_⟩
  · obtain ⟨r, hr, hs⟩ := hro.backward hr'
    rw [steps_id hs, steps_scanID hs, steps_envelope hs fun _ he => he]
    exact h.named r hr
  · obtain ⟨r, hr, hs⟩ := hro.backward hr'
    rw [steps_scanID hs, storedStatus_quarantine, Option.isSome_map]
    exact h.stored r hr
  · rcases mem_of_mem_insertIgnore hl with ho | hn
    · obtain ⟨r, hr, hi, hsc, hf⟩ := h.letters l ho
      exact ⟨r, final_mem hro hr hf, hi, hsc, hf⟩
    -- the job of a new letter is stopped
    obtain ⟨r, hr, hla, hj, hsc, -, -⟩ := mem_newDeadLetters hn
    have ha : (lettersAfter db wid now).any (fun l => l.jobID = r.id) :=
      any_eq_true.mpr ⟨l, hl, decide_eq_true hj⟩
    refine ⟨withoutLease .canceled r, mem_quarantine.mpr ⟨r, hr, ?_⟩, hj.symm, hsc.symm, rfl⟩
    simp [ha, leaseLapsed_leased hla]

/-- **A quarantine** ends jobs together with their scans. -/
theorem released_quarantine (h : RemoteInv db) (hre : Released db) (wid : String) (now : Time) :
    Released (quarantineRepeatedWorkerJobs sqlite db wid now) := by
  intro r' hr' hf
  obtain ⟨r, hr, rfl⟩ := mem_quarantine.mp hr'
  rw [scanActive_quarantine]
  cases hs : ((lettersAfter db wid now).any fun l => l.jobID = r.id) && r.status = .leased with
  | true =>
    simp only [Bool.and_eq_true, decide_eq_true_eq] at hs
    have hn := letterNow_of_stopped h hr hs.2 hs.1
    simp [withoutLease, hn]
  | false =>
    simp only [hs, Bool.false_eq_true, if_false] at hf ⊢
    rw [hre r hr hf]
    rfl

/-! ## The expiry sweep -/

/-- What the sweep of a lease expires. -/
def swept (workerID : String) (now : Time) (r : JobRow) : Bool :=
  r.workerID = workerID && (r.status = .pending || r.status = .leased) &&
    sqlite.le r.expiresAt (sqlite.bind now)

/-- The rows after the sweep and the release of lapsed leases. -/
def sweep (workerID : String) (now : Time) (jobs : List JobRow) : List JobRow :=
  releaseLeases sqlite workerID (sqlite.bind now) (expireJobs sqlite workerID (sqlite.bind now) jobs)

theorem swept_open {now : Time} (h : swept workerID now r) : finalStatus r.status = false := by
  simp only [swept, Bool.and_eq_true, Bool.or_eq_true, decide_eq_true_eq] at h
  rcases h.1.2 with hs | hs <;> rw [hs] <;> rfl

variable {jobs : List JobRow}

theorem mem_expire {now : Time} : r' ∈ expireJobs sqlite workerID (sqlite.bind now) jobs ↔
      ∃ r ∈ jobs, r' = if swept workerID now r then withoutLease .expired r else r :=
  mem_updateWhere

theorem mem_sweep_of_swept {now : Time} (hr : r ∈ jobs)
    (h : swept workerID now r) : withoutLease .expired r ∈ sweep workerID now jobs := by
  refine mem_updateWhere.mpr ⟨withoutLease .expired r, mem_expire.mpr ⟨r, hr, ?_⟩, ?_⟩
  · rw [if_pos h]
  · simp [leaseLapsed, withoutLease]

theorem mem_sweep_final {now : Time} (hr' : r' ∈ sweep workerID now jobs) (hf : finalStatus r'.status) :
    r' ∈ jobs ∨ ∃ r ∈ jobs, swept workerID now r ∧ r' = withoutLease .expired r := by
  obtain ⟨r1, hr1, rfl⟩ := mem_updateWhere.mp hr'
  split at hf
  · cases hf
  rename_i hk
  rw [if_neg hk]
  obtain ⟨r, hr, rfl⟩ := mem_expire.mp hr1
  by_cases hs : swept workerID now r
  · exact .inr ⟨r, hr, hs, if_pos hs⟩
  · exact .inl (by rwa [if_neg hs])

theorem swept_letter_ne (h : RemoteInv db) {now : Time}
    (hr : r ∈ db.worker.jobs) (hs : swept workerID now r) {l : DeadLetterRow}
    (hl : l ∈ lettersAfter db workerID now) : l.jobID ≠ r.id ∧ l.scanID ≠ r.scanID := by
  rcases mem_of_mem_insertIgnore hl with ho | hn1
  · exact h.letter_ne hr (swept_open hs) ho
  obtain ⟨r0, hr0, hla, hj, hsc, -, -⟩ := mem_newDeadLetters hn1
  have hn : r0 ≠ r := by
    rintro rfl
    -- a lapsed lease is quarantined before the job expires
    simp only [swept, leaseLapsed, Dialect.lt, Bool.and_eq_true] at hs hla
    rw [hs.2] at hla
    cases hla.2
  exact ⟨fun he => hn (h.keyed.eq_of_key hr0 hr (hj.symm.trans he)),
    fun he => hn (h.eq_of_scanID hr0 hr (hsc.symm.trans he))⟩

theorem released_maintenance_iff (h : RemoteInv db) (hre : Released db) (wid : String) (now : Time) :
    Released (leaseMaintenance sqlite db wid now) ↔
      ∀ r ∈ db.worker.jobs, swept wid now r → scanActive db.scan r.scanID = false := by
  have hsc : ∀ id, scanActive (leaseMaintenance sqlite db wid now).scan id =
      (scanActive db.scan id && !letterNow db wid now id) := scanActive_quarantine db wid now
  constructor
  · intro hm r hr hsw
    have hk : r ∈ (quarantineRepeatedWorkerJobs sqlite db wid now).worker.jobs := by
      refine mem_quarantine.mpr ⟨r, hr, ?_⟩
      rw [if_neg]
      simp only [Bool.and_eq_true, not_and, any_eq_true, decide_eq_true_eq]
      rintro ⟨l, hl, hi⟩
      exact absurd hi (swept_letter_ne h hr hsw hl).1
    have hn : letterNow db wid now r.scanID = false := by
      refine any_eq_false.mpr fun l hl => ?_
      simp [(swept_letter_ne h hr hsw hl).2]
    have hfi := hm (withoutLease .expired r) (mem_sweep_of_swept hk hsw) rfl
    rw [hsc] at hfi
    simpa [withoutLease, hn] using hfi
  · intro hs r' hr' hf
    rcases mem_sweep_final hr' hf with hq | ⟨r, hr, hsw, rfl⟩
    · exact released_quarantine h hre wid now r' hq hf
    obtain ⟨r0, hr0, rfl⟩ := mem_quarantine.mp hr
    split at hsw
    · simp [swept, withoutLease] at hsw
    · rename_i hst
      rw [if_neg hst, hsc]
      simp [withoutLease, hs r0 hr0 hsw]

theorem remoteInv_maintenance (h : RemoteInv db) (wid : String) (now : Time) :
    RemoteInv (leaseMaintenance sqlite db wid now) := by
  have hq := remoteInv_quarantine h wid now
  have hr := sweep_evolves sqlite wid (sqlite.bind now)
    (quarantineRepeatedWorkerJobs sqlite db wid now).worker.jobs
  exact remoteInv_rows hq hr (fun _ he => he)
    (decodes_rows hq hr (fun _ he => he) fun _ ht => ht) rfl fun _ hs => hs

/-! ## Leases -/

theorem released_leased_iff {w : String} {tok : TokenHash} {exp : Time} (j : JobRow) :
    Released (setJobs db (updateWhere (pendingJob j.id w) (leasedAs sqlite tok exp)
      db.worker.jobs)) ↔ Released db := by
  constructor
  · intro hre r hr hf
    refine hre r (mem_updateWhere.mpr ⟨r, hr, ?_⟩) hf
    rw [if_neg]
    intro hp
    simp only [pendingJob, Bool.and_eq_true, decide_eq_true_eq] at hp
    rw [hp.2] at hf
    cases hf
  · intro hre r' hr' hf
    obtain ⟨r, hr, rfl⟩ := mem_updateWhere.mp hr'
    split at hf
    · cases hf
    · rename_i hp
      rw [if_neg hp]
      exact hre r hr hf

theorem remoteInv_leased {w : String} {tok : TokenHash} {exp : Time} (h : RemoteInv db)
    {j : JobRow} (hj : j ∈ db.worker.jobs) (hd : decodeWorkerJob j.signedEnvelope = .ok j.signedEnvelope) :
    RemoteInv (setJobs db (updateWhere (pendingJob j.id w) (leasedAs sqlite tok exp) db.worker.jobs)) := by
  refine remoteInv_rows h (lease_evolves j) (fun _ he => he) (fun r' hr' hl => ?_) rfl fun _ hs => hs
  obtain ⟨r, hr, rfl⟩ := mem_updateWhere.mp hr'
  cases hp : pendingJob j.id w r with
  | true =>
    simp only [pendingJob, Bool.and_eq_true, decide_eq_true_eq] at hp
    rw [h.keyed.eq_of_key hr hj hp.1.1]
    split <;> exact hd
  | false =>
    simp only [hp] at hl ⊢
    exact h.decodes r hr hl

/-! ## Saves and launches -/

variable {scan : Scan}

section
variable {h : Host} (hs : save h db scan = (.ok (), db'))
include hs

theorem storedStatus_saved (id : String) :
    storedStatus db'.scan id = if id = scan.id then some scan.status else storedStatus db.scan id := by
  rcases save_cases hs with ⟨e, he, -⟩ | ⟨-, -, a, -, rfl⟩
  · cases he
  · exact storedStatus_replaced db.scan scan id

theorem scanActive_saved (id : String) :
    scanActive db'.scan id = if id = scan.id then scan.status.active else scanActive db.scan id := by
  unfold scanActive
  rw [storedStatus_saved hs]
  split <;> rfl

theorem saved_worker : db'.worker = db.worker := by
  have := save_worker h db scan
  rwa [hs] at this

end

theorem remoteInv_saved (h : RemoteInv db) {ho : Host}
    (hs : save ho db scan = (.ok (), db')) : RemoteInv db' := by
  have hw := saved_worker hs
  refine remoteInv_rows (G := Grant.none) h (by rw [hw]; exact .refl _ _) (fun _ he => he)
    (by rw [hw]; exact h.decodes) (by rw [hw]) fun id hi => ?_
  rw [storedStatus_saved hs]
  split
  · rfl
  · exact hi

/-- A scan saved in a terminal status is released, whatever its jobs. -/
theorem released_saved {ho : Host} (he : scan.status.active = false)
    (hre : ∀ r ∈ db.worker.jobs, finalStatus r.status → r.scanID ≠ scan.id →
      scanActive db.scan r.scanID = false)
    (hs : save ho db scan = (.ok (), db')) : Released db' := by
  intro r hr hf
  rw [saved_worker hs] at hr
  rw [scanActive_saved hs]
  split
  · exact he
  · rename_i hn
    exact hre r hr hf hn

theorem remoteInv_added (h : RemoteInv db) {ev : SignedWorkerJob} {at1 : Time}
    (hj : ScanJob scan ev) (hn : ∀ r ∈ db.worker.jobs, r.id ≠ ev.job.id)
    (hs : (storedStatus db.scan scan.id).isSome) : RemoteInv (insertJob sqlite db ev at1) := by
  have hm : ∀ r ∈ (insertJob sqlite db ev at1).worker.jobs,
      r ∈ db.worker.jobs ∨ r = newJobRow sqlite ev at1 := by
    intro r hr
    exact (mem_append.mp hr).imp_right mem_singleton.mp
  refine ⟨h.keyed.append_singleton hn, fun r hr => ?_, fun r hr => ?_, fun r hr hl => ?_, fun l hl => ?_⟩
  · rcases hm r hr with hr | rfl
    · exact h.named r hr
    · refine ⟨?_, rfl⟩
      change ev.job.id = "scan-" ++ ev.job.scanID
      rw [hj.id, hj.scanID]
  · rcases hm r hr with hr | rfl
    · exact h.stored r hr
    · change (storedStatus db.scan ev.job.scanID).isSome
      rwa [hj.scanID]
  · rcases hm r hr with hr | rfl
    · exact h.decodes r hr hl
    · change ev.job.status = .leased at hl
      rw [hj.status] at hl
      cases hl
  · obtain ⟨r, hr, hre⟩ := h.letters l hl
    exact ⟨r, mem_append_left _ hr, hre⟩

theorem failed_saved (hd : StoreInv db) {ho : Host} {db1 : DB}
    (hs : save ho db (queuedScan scan) = (.ok (), db1)) (at_ : Time) :
    ∃ db2, save ho db1 (failedScan scan at_) = (.ok (), db2) := by
  have hd1 : StoreInv db1 := by
    have := storeInv_save hd ho (queuedScan scan)
    rwa [hs] at this
  have hok : (save ho db1 (failedScan scan at_)).1 = .ok () := by
    refine (save_ok_iff hd1.asset ho _).mpr ⟨?_, fun hst => by cases hst⟩
    rcases save_cases hs with ⟨e, he, -⟩ | ⟨-, hf, a, -, rfl⟩
    · cases he
    · have ha := hf.elsewhere (elsewhere_replaced db.scan (queuedScan scan) a)
      exact ha.of_sameRows ⟨rfl, rfl, rfl, rfl, rfl, rfl, rfl⟩
  exact ⟨_, Prod.ext hok rfl⟩

theorem launch_keeps (hd : StoreInv db) (h : RemoteInv db) (S : Server) (scan : Scan) (sid : String)
    (clock : LaunchClock) : RemoteInv (launchRemote S.host S.key db scan sid clock).2 ∧
      (Released db → Released (launchRemote S.host S.key db scan sid clock).2) := by
  rcases launchRemote_cases S.host S.key db scan sid clock with he | ⟨db1, hs, he⟩
  · rw [he]
    exact ⟨h, id⟩
  have h1 := remoteInv_saved h hs
  rcases he with ⟨ev, hj, hn, he⟩ | he
  · rw [he]
    have hst : storedStatus db1.scan scan.id = some .queued := by
      rw [storedStatus_saved hs]
      exact if_pos rfl
    refine ⟨remoteInv_added h1 hj hn (by rw [hst]; rfl), fun hre r hr hf => ?_⟩
    rcases mem_append.mp hr with hr | hr
    · -- a job of the same scan would have the new job's name
      have hne : r.scanID ≠ scan.id := by
        intro hi
        refine hn r hr ?_
        rw [(h1.named r hr).1, hi, hj.id]
      refine ((scanActive_saved hs r.scanID).trans (if_neg hne)).trans ?_
      rw [saved_worker hs] at hr
      exact hre r hr hf
    · rw [mem_singleton.mp hr] at hf
      change finalStatus ev.job.status at hf
      rw [hj.status] at hf
      cases hf
  · rw [he]
    obtain ⟨db2, hs2⟩ := failed_saved hd hs clock.failure
    rw [hs2]
    refine ⟨remoteInv_saved h1 hs2, fun hre => ?_⟩
    refine released_saved rfl (fun r hr hf hne => ?_) hs2
    refine ((scanActive_saved hs r.scanID).trans (if_neg hne)).trans ?_
    rw [saved_worker hs] at hr
    exact hre r hr hf

/-! ## Completions -/

theorem projectedScan_ends (h : Host) (wall : ServiceObservation → Time) (db : DB) (job : WorkerJob)
    (rc : WorkerJobResultReceipt) (scan : Scan) :
    (projectedScan h wall db job rc scan).status.active = false := by
  change (projectedScanOutcome rc.outcome).1.active = false
  cases rc.outcome <;> rfl

theorem remoteInv_project (h : RemoteInv db) (ho : Host) (wall : ServiceObservation → Time)
    (rc : WorkerJobResultReceipt) : RemoteInv (projectScannerWorkerResult ho wall db rc).2 := by
  cases hp : projectScannerWorkerResult ho wall db rc with
  | mk res db' =>
    rcases project_cases hp with ⟨e, -, -, rfl⟩ | ⟨job, scan, -, -, hs⟩
    · exact h
    · exact remoteInv_saved h hs

theorem released_project (hre : Released db) (ho : Host) (wall : ServiceObservation → Time)
    (rc : WorkerJobResultReceipt) : Released (projectScannerWorkerResult ho wall db rc).2 := by
  cases hp : projectScannerWorkerResult ho wall db rc with
  | mk res db' =>
    rcases project_cases hp with ⟨e, -, -, rfl⟩ | ⟨job, scan, -, -, hs⟩
    · exact hre
    · exact released_saved (projectedScan_ends _ _ _ _ _ _) (fun r hr hf _ => hre r hr hf) hs

section
variable {receipt : WorkerJobResultReceipt} {tokenHash : TokenHash} {now : Time}

theorem completable_spec {w : WorkerTables} {r : JobRow} (h : completable sqlite w receipt tokenHash now r) :
    r.id = receipt.jobID ∧ r.status = .leased := by
  simp only [completable, heldBy, Bool.and_eq_true, decide_eq_true_eq] at h
  exact ⟨h.1.1.1, (leaseHeld_leased h.1.2).1⟩

theorem remoteInv_accepts (h : RemoteInv db) (ha : Accepts db receipt tokenHash now db') : RemoteInv db' := by
  have hr : Evolves (JobTrans sqlite (.ofReceipt receipt)) db.worker.jobs db'.worker.jobs := by
    rw [ha.jobs]
    exact complete_evolves _
  refine remoteInv_rows h hr (fun _ he => he) (decodes_rows h hr (fun _ he => he) fun _ ht => ht) ?_ ?_
  · rw [ha.jobs]
    rfl
  · rw [ha.jobs]
    exact fun _ hs => hs

theorem accepts_row (h : RemoteInv db) (ha : Accepts db receipt tokenHash now db') :
    ∃ r ∈ db.worker.jobs, r.id = receipt.jobID ∧ r.status = .leased ∧ ∀ r', r' ∈ db'.worker.jobs ↔
        (r' ∈ db.worker.jobs ∧ r' ≠ r) ∨ r' = completedAs sqlite receipt r := by
  have hp : 0 < db.worker.jobs.countP (completable sqlite db.worker receipt tokenHash (sqlite.bind now)) := by
    rw [ha.one]
    decide
  obtain ⟨r, hr, hc⟩ := countP_pos_iff.mp hp
  obtain ⟨hi, hl⟩ := completable_spec hc
  refine ⟨r, hr, hi, hl, fun r' => ?_⟩
  rw [ha.jobs]
  refine mem_updateWhere.trans ?_
  constructor
  · rintro ⟨r0, hr0, rfl⟩
    cases hc0 : completable sqlite db.worker receipt tokenHash (sqlite.bind now) r0 with
    | true =>
      have hrr : r0 = r := h.keyed.eq_of_key hr0 hr ((completable_spec hc0).1.trans hi.symm)
      exact .inr (by rw [hrr]; rfl)
    | false =>
      refine .inl ⟨hr0, fun he => ?_⟩
      change r0 = r at he
      rw [he, hc] at hc0
      cases hc0
  · rintro (⟨hr', hn⟩ | rfl)
    · refine ⟨r', hr', (if_neg fun hc' => hn ?_).symm⟩
      exact h.keyed.eq_of_key hr' hr ((completable_spec hc').1.trans hi.symm)
    · exact ⟨r, hr, (if_pos hc).symm⟩

/-- The accepted job can be read back: it was leased. -/
theorem accepts_job (h : RemoteInv db) (hac : Accepts db receipt tokenHash now db') {r : JobRow}
    (hr : r ∈ db.worker.jobs) (hi : r.id = receipt.jobID) (hl : r.status = .leased)
    (ha : completedAs sqlite receipt r ∈ db'.worker.jobs) :
    Sqlite.scannerWorkerJob db' receipt.jobID = .ok r.signedEnvelope := by
  have hf := (remoteInv_accepts h hac).keyed.find?_eq ha
  change db'.worker.jobs.find? (fun x => x.id = r.id) = _ at hf
  unfold Sqlite.scannerWorkerJob
  rw [← hi, hf]
  simp only
  rw [show (completedAs sqlite receipt r).signedEnvelope = r.signedEnvelope from rfl, h.decodes r hr hl]

theorem accepts_project_iff (hd : StoreInv db) (h : RemoteInv db) (hac : Accepts db receipt tokenHash now db')
    {r : JobRow} (hr : r ∈ db.worker.jobs) (hi : r.id = receipt.jobID) (hl : r.status = .leased)
    (ha : completedAs sqlite receipt r ∈ db'.worker.jobs) (ho : Host)
    (wall : ServiceObservation → Time) :
    (projectScannerWorkerResult ho wall db' receipt).1 = .ok () ↔ Projectable ho db' receipt r.scanID := by
  have hjo := accepts_job h hac hr hi hl ha
  have hsc : r.signedEnvelope.job.scanID = r.scanID := (h.named r hr).2
  rw [project_ok_iff (hac.storeInv hd)]
  constructor
  · rintro ⟨job, scan, ⟨hj, -⟩, hp⟩
    rw [hjo] at hj
    cases hj
    rwa [hsc] at hp
  · intro hp
    obtain ⟨s, hs⟩ := get_of_stored ((remoteInv_accepts h hac).stored _ ha)
    refine ⟨r.signedEnvelope, s, ⟨hjo, ?_⟩, ?_⟩
    · rw [hsc]
      exact hs
    · rwa [hsc]

theorem released_accepts_iff (hdb : StoreInv db) (h : RemoteInv db) (hrel : Released db)
    (hacc : Accepts db receipt tokenHash now db') (host : Host) (wall : ServiceObservation → Time) :
    Released (projectScannerWorkerResult host wall db' receipt).2 ↔
      ∀ r ∈ db.worker.jobs, r.id = receipt.jobID → scanActive db.scan r.scanID →
        Projectable host db' receipt r.scanID := by
  obtain ⟨r, hr, hid, hl, hmem⟩ := accepts_row h hacc
  have hafter : completedAs sqlite receipt r ∈ db'.worker.jobs := (hmem _).mpr (.inr rfl)
  have hproj := accepts_project_iff hdb h hacc hr hid hl hafter host wall
  have hscan : db'.scan = db.scan := by
    rw [hacc.jobs]
    rfl
  constructor
  · intro hrel' r₀ hr₀ hid₀ hactive
    rw [h.keyed.eq_of_key hr₀ hr (hid₀.trans hid.symm)] at hactive ⊢
    refine hproj.mp ?_
    cases hp : projectScannerWorkerResult host wall db' receipt with
    | mk res db₂ =>
      rw [hp] at hrel'
      rcases project_cases hp with ⟨e, rfl, -, rfl⟩ | ⟨job, scan, -, rfl, -⟩
      · -- the scan would still be active
        have hfree := hrel' (completedAs sqlite receipt r) hafter rfl
        change scanActive _ r.scanID = false at hfree
        rw [hscan, hactive] at hfree
        cases hfree
      · rfl
  · intro hC
    cases hp : projectScannerWorkerResult host wall db' receipt with
    | mk res db₂ =>
      rw [hp] at hproj
      have hothers : ∀ r' ∈ db'.worker.jobs, finalStatus r'.status → r'.scanID ≠ r.scanID →
          scanActive db'.scan r'.scanID = false := by
        intro r' hr' hf hne
        rw [hscan]
        rcases (hmem r').mp hr' with ⟨hr', -⟩ | rfl
        · exact hrel r' hr' hf
        · exact absurd rfl hne
      rcases project_cases hp with ⟨e, rfl, -, rfl⟩ | ⟨job, scan, hload, rfl, hs⟩
      · have hnot : scanActive db.scan r.scanID = false := by
          cases hactive : scanActive db.scan r.scanID with
          | false => rfl
          | true => cases hproj.mpr (hC r hr hid hactive)
        intro r' hr' hf
        by_cases hsame : r'.scanID = r.scanID
        · rwa [hsame, hscan]
        · exact hothers r' hr' hf hsame
      have hsid : (projectedScan host wall db' job.job receipt scan).id = r.scanID := by
        obtain ⟨hj, hg⟩ := hload
        rw [accepts_job h hacc hr hid hl hafter] at hj
        cases hj
        exact (get_status hg).1.trans (h.named r hr).2
      refine released_saved (projectedScan_ends _ _ _ _ _ _) (fun r' hr' hf hne => ?_) hs
      rw [hsid] at hne
      exact hothers r' hr' hf hne

end

/-! ## Runs -/

theorem remoteInv_step (S : Server) (hdb : StoreInv db) (h : RemoteInv db) {op : Op} (hop : Op.remote op) :
    RemoteInv (step S db op) := by
  cases op with
  | launch scan siteID clock => exact (launch_keeps hdb h S scan siteID clock).1
  | upsertCVEs records =>
    have hscans := (frame_upsertCVEs S.host db records).1
    refine remoteInv_rows (G := Grant.none) h (.refl _ _) (fun _ he => he) h.decodes rfl fun id hid => ?_
    unfold storedStatus at hid ⊢
    simp only [step]
    rwa [hscans]
  | lease workerID tokenHash now leaseExpiresAt =>
    simp only [step]
    have hm := remoteInv_maintenance h workerID now
    cases hl : Sqlite.leaseScannerWorkerJob db workerID tokenHash now leaseExpiresAt with
    | mk res db' =>
      rcases lease_cases hl with ⟨e, -, -, rfl⟩ | ⟨-, rfl⟩ | ⟨j, hj, -, hdec, -, rfl⟩
      · exact h
      · exact hm
      · exact remoteInv_leased hm hj hdec
  | renew workerID jobID tokenHash now requestedExpiry =>
    simp only [step]
    cases hr : Sqlite.renewScannerWorkerJobLease db workerID jobID tokenHash now requestedExpiry with
    | mk res db' =>
      rcases renew_cases hr with ⟨e, -, rfl⟩ | ⟨stored, -, -, rfl, -⟩
      · exact h
      · exact remoteInv_rows h (renew_evolves _) (fun _ he => he)
          (decodes_rows h (renew_evolves _) (fun _ he => he) fun _ ht => ht) rfl fun _ hs => hs
  | submit envelope now =>
    simp only [step]
    cases hs : submitEvidence S db envelope now with
    | mk res db' =>
      rcases submit_cases hs with ⟨e, -, rfl⟩ | ⟨job, -, -, -, -, -, rfl⟩
      · exact h
      · exact ⟨h.keyed, h.named, h.stored, h.decodes, h.letters⟩
  | complete receipt tokenHash now wall =>
    simp only [step]
    rcases complete_cases S.host wall db receipt tokenHash now with ⟨e, -, he⟩ | ⟨-, he⟩ | ⟨db', hacc, he⟩
    · rw [he]
      exact h
    · rw [he, retried_snd]
      exact remoteInv_project h S.host wall receipt
    · rw [he]
      exact remoteInv_project (remoteInv_accepts h hacc) S.host wall receipt
  | resumeCandidate jobID now =>
    simp only [step]
    cases hc : Sqlite.scannerWorkerJobResumeCandidate db jobID now with
    | mk res db' =>
      rcases resumeCandidate_cases hc with ⟨e, -, rfl⟩ | ⟨c, -, rfl⟩ | ⟨r, -, -, -, -, -, rfl⟩
      · exact h
      · exact h
      · exact remoteInv_quarantine h _ _
  | _ => cases hop

/-- The lease hands out a job or finds none; otherwise it is rolled back. -/
def leaseCommits : Except StoreError SignedWorkerJob → Bool
  | .ok _ => true
  | .error e => e = .notFound

/-- What a call must meet so that the jobs it ends release their scans: a
sweep expires no job of an active scan, and the evidence of an accepted result
is projectable if its scan is active. -/
def Releases (S : Server) (db : DB) : Op → Prop
  | .lease workerID tokenHash now leaseExpiresAt =>
    leaseCommits (Sqlite.leaseScannerWorkerJob db workerID tokenHash now leaseExpiresAt).1 →
      ∀ r ∈ db.worker.jobs, swept workerID now r → scanActive db.scan r.scanID = false
  | .complete receipt tokenHash now _ =>
    ∀ db', Sqlite.acceptResult db receipt tokenHash now = (.ok .accepted, db') →
      ∀ r ∈ db.worker.jobs, r.id = receipt.jobID → scanActive db.scan r.scanID →
        Projectable S.host db' receipt r.scanID
  | _ => True

theorem released_step_iff (S : Server) (hdb : StoreInv db) (h : RemoteInv db) (hrel : Released db) {op : Op}
    (hop : Op.remote op) : Released (step S db op) ↔ Releases S db op := by
  cases op with
  | launch scan siteID clock => exact iff_of_true ((launch_keeps hdb h S scan siteID clock).2 hrel) trivial
  | upsertCVEs records =>
    refine iff_of_true (fun r hr hf => ?_) trivial
    unfold scanActive storedStatus
    simp only [step]
    rw [(frame_upsertCVEs S.host db records).1]
    exact hrel r hr hf
  | lease workerID tokenHash now leaseExpiresAt =>
    simp only [step, Releases]
    have hm := released_maintenance_iff h hrel workerID now
    cases hl : Sqlite.leaseScannerWorkerJob db workerID tokenHash now leaseExpiresAt with
    | mk res db' =>
      rcases lease_cases hl with ⟨e, rfl, hne, rfl⟩ | ⟨rfl, rfl⟩ | ⟨j, -, -, -, rfl, rfl⟩
      · refine iff_of_true hrel fun hcommit => ?_
        simp only [leaseCommits, decide_eq_true_eq] at hcommit
        exact absurd hcommit hne
      · simpa only [leaseCommits, decide_true, true_implies] using hm
      · simpa only [leaseCommits, true_implies] using (released_leased_iff j).trans hm
  | renew workerID jobID tokenHash now requestedExpiry =>
    simp only [step]
    refine iff_of_true ?_ trivial
    cases hr : Sqlite.renewScannerWorkerJobLease db workerID jobID tokenHash now requestedExpiry with
    | mk res db' =>
      rcases renew_cases hr with ⟨e, -, rfl⟩ | ⟨stored, -, -, rfl, -⟩
      · exact hrel
      intro r' hr' hf
      obtain ⟨r, hr, rfl⟩ := mem_updateWhere.mp hr'
      split at hf <;> rename_i hheld
      · rw [if_pos hheld]
        exact hrel r hr hf
      · rw [if_neg hheld]
        exact hrel r hr hf
  | submit envelope now =>
    simp only [step]
    refine iff_of_true ?_ trivial
    cases hs : submitEvidence S db envelope now with
    | mk res db' =>
      rcases submit_cases hs with ⟨e, -, rfl⟩ | ⟨job, -, -, -, -, -, rfl⟩ <;> exact hrel
  | complete receipt tokenHash now wall =>
    simp only [step, Releases]
    rcases complete_cases S.host wall db receipt tokenHash now with ⟨e, ha, he⟩ | ⟨ha, he⟩ | ⟨db', hacc, he⟩
    · rw [he, ha]
      exact iff_of_true hrel (by simp)
    · rw [he, retried_snd, ha]
      exact iff_of_true (released_project hrel S.host wall receipt) (by simp)
    · rw [he, released_accepts_iff hdb h hrel hacc, hacc.result]
      simp
  | resumeCandidate jobID now =>
    simp only [step]
    refine iff_of_true ?_ trivial
    cases hc : Sqlite.scannerWorkerJobResumeCandidate db jobID now with
    | mk res db' =>
      rcases resumeCandidate_cases hc with ⟨e, -, rfl⟩ | ⟨c, -, rfl⟩ | ⟨r, -, -, -, -, -, rfl⟩
      · exact hrel
      · exact hrel
      · exact released_quarantine h hrel _ _
  | _ => cases hop

end

/-- **A run releases its scans**: no state of it has a finished job with an
active scan, exactly when no lease of it sweeps the job of an active scan and
the evidence of every result it accepts can be projected. -/
theorem released_throughout_iff (S : Server) (workers : List ScannerWorker) (dispatchEnabled : Bool)
    (ops : List Op) (hops : ∀ op ∈ ops, Op.remote op) :
    (∀ n, Released (run (step S) (emptyTables workers dispatchEnabled) (ops.take n))) ↔
      Along (step S) (Releases S) (emptyTables workers dispatchEnabled) ops := by
  refine run_invariant_iff (P := fun op => Op.remote op) (J := fun db => StoreInv db ∧ RemoteInv db)
    (fun db op ho hd => ⟨storeInv_step S hd.1 op, remoteInv_step S hd.1 hd.2 ho⟩)
    (fun db op ho hd hre => released_step_iff S hd.1 hd.2 hre ho)
    ⟨storeInv_empty workers dispatchEnabled, remoteInv_empty workers dispatchEnabled⟩ ?_ hops
  intro r hr
  cases hr

open Small

/-- A launch, a lease, evidence under two identifiers, and the result. -/
def reportedRun (first second : String) : List Op :=
  evidenceRun "s" first second ++
    [.complete (successOf "s") [1] (clock 31) fun _ => clock 31]

theorem released_throughout_report :
    Along (step server) (Releases server) (emptyTables [worker "worker-1"] true)
      (reportedRun "obs-1" "obs-2") := by
  refine (released_throughout_iff server [worker "worker-1"] true (reportedRun "obs-1" "obs-2")
    (by decide)).mp fun n => ?_
  have hf : ∀ n < 5, Released (run (step server) (emptyTables [worker "worker-1"] true)
      ((reportedRun "obs-1" "obs-2").take n)) := by decide +kernel
  rcases Nat.lt_or_ge n 5 with hn | hn
  · exact hf n hn
  · rw [take_of_length_le hn]
    decide +kernel

/-- A launch, and a request for work after the job's twelve hours. -/
def lateLease : List Op :=
  [.launch (scan "s" ["10.0.0.1"] [22]) "" ⟨clock 0, clock 0, clock 0⟩,
   .lease "worker-1" [1] (clock 50000) (clock 50060)]

/-- A swept job leaves its scan queued, and so does a result whose evidence
uses an identifier twice. -/
theorem finished_job_keeps_scan_active :
    (∃ r ∈ (run (step server) (emptyTables [worker "worker-1"] true) lateLease).worker.jobs,
      r.status = .expired ∧ storedStatus
        (run (step server) (emptyTables [worker "worker-1"] true) lateLease).scan r.scanID = some .queued) ∧
    ∃ r ∈ (run (step server) (emptyTables [worker "worker-1"] true)
        (reportedRun "obs-1" "obs-1")).worker.jobs,
      r.status = .completed ∧ storedStatus (run (step server)
        (emptyTables [worker "worker-1"] true) (reportedRun "obs-1" "obs-1")).scan r.scanID =
          some .queued := by
  decide +kernel

end Mossward.L3.ScanRelease
