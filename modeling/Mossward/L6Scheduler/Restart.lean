import Mossward.L6Scheduler.Occurrences

/-!
# A restart under a remote scan

When the server starts it pauses the policies' scans that the last process left
queued or running, the remote ones too. A tick inside the window then resumes a
paused scan by launching it, and the launch of a remote scan dispatches a job
named after the scan. That job exists, so the dispatch fails, and the scan is
stored as failed while its job goes on.

Results: `launch_replayed`, `waiting_step`, `restart_breaks_iff`.
-/
namespace Mossward.L6.Restart

open Table Run L1.Rfc3339 Model L2.Schema Small
open L2.Intelligence L2.Asset L2.ScanStore L2.Projection
open L3.JobDispatch L4.ScanEngine
open L5.ScanActors hiding World World.step
open L6.Schedule L6.Runner L6.Occurrences

/-! ## Restart -/

/-- The server starts anew on the database: `New`,
`internal/scanner/scanner.go:60-100`. -/
def restarted (w : World) (now : Time) : World :=
  { w with
    shared :=
      { db := reconcileInterrupted w.shared.db now, queue := [], closed := false, stopped := false
        locked := false, active := none, canceled := [], contexts := [], runs := 0 }
    listed := none
    clock := now }

/-- The scan's worker job is pending or leased; it expires at `expiry`. -/
def Unfinished (id : String) (expiry : Time) (db : DB) : Prop :=
  ∃ r ∈ db.worker.jobs, r.id = "scan-" ++ id ∧ (r.status = .pending ∨ r.status = .leased) ∧ r.expiresAt = expiry

instance (id : String) (expiry : Time) (db : DB) : Decidable (Unfinished id expiry db) :=
  inferInstanceAs (Decidable (∃ r ∈ db.worker.jobs, _))

/-- The scan has failed and its job has not. -/
def Broken (id : String) (expiry : Time) (w : World) : Prop :=
  storedStatus w.shared.db.scan id = some .failed ∧ Unfinished id expiry w.shared.db ∧ w.clock < expiry

/-- While the job is unfinished: turns come before it expires and draw other
identifiers for new scans; the other components leave the scan paused. -/
def During (id : String) (expiry : Time) : Op → Prop
  | .tick => True
  | .turn T => T.now < expiry ∧ T.sources.scheduleID ≠ some id
  | .other s => AssetInv s.db.scan.asset ∧ storedStatus s.db.scan id = some .paused ∧ Unfinished id expiry s.db

/-- A turn resumes the scan: it is the policy's active scan that the tick has
listed, and the launcher gets as far as storing it. -/
def TakesUp (Y : System) (C : Calendar) (id : String) (w : World) (op : Op) : Prop :=
  ∃ T policy scans scan passes, op = .turn T ∧ w.listed = some (policy, scans) ∧
    decision C policy scans T = .resume scan passes ∧ scan.id = id ∧
    Accepts w.shared policy.toPolicy scan T.clock ∧ (save Y.host w.shared.db (queuedScan scan)).1 = .ok ()

/-! ## Launches of remote scans -/

section
variable {Y : System} {C : Calendar} {s : Shared} {policy : Policy} {scan : Scan}

theorem save_row (h : Host) (db : DB) (scan : Scan) {id : String} (hi : id ≠ scan.id) :
    storedRow (save h db scan).2.scan id = storedRow db.scan id := by
  cases hs : save h db scan with
  | mk res db' =>
    rcases save_cases hs with ⟨e, -, rfl⟩ | ⟨rfl, -, a, -, rfl⟩
    · rfl
    · exact (storedRow_replaced db.scan scan id).trans (if_neg hi)

theorem launch_elsewhere (Y : System) (s : Shared) (clock : LaunchClock)
    (hm : policy.executionMode = .scanExecutionRemote) {id : String} (hi : id ≠ scan.id) :
    storedRow (launch Y s policy scan clock).2.db.scan id = storedRow s.db.scan id ∧
      ∀ r ∈ s.db.worker.jobs, r ∈ (launch Y s policy scan clock).2.db.worker.jobs := by
  have hd : (launch Y s policy scan clock).2.db =
      (launchRemote Y.host Y.server.key s.db scan policy.workerSiteID clock).2 := by
    simp only [launch, hm]
    cases launchRemote Y.host Y.server.key s.db scan policy.workerSiteID clock with
    | mk res db => cases res <;> rfl
  rw [hd]
  rcases launchRemote_cases Y.host Y.server.key s.db scan policy.workerSiteID clock with
    he | ⟨db, hs, hre⟩
  · rw [he]
    exact ⟨rfl, fun _ hr => hr⟩
  · have hro : storedRow (save Y.host s.db (queuedScan scan)).2.scan id = storedRow s.db.scan id :=
      save_row Y.host s.db (queuedScan scan) hi
    have hw := save_worker Y.host s.db (queuedScan scan)
    rw [hs] at hro hw
    have hj : ∀ r ∈ s.db.worker.jobs, r ∈ db.worker.jobs := fun r hr => by rwa [hw]
    rcases hre with ⟨ev, -, -, he⟩ | he
    · rw [he]
      exact ⟨hro, fun r hr => List.mem_append_left _ (hj r hr)⟩
    · rw [he, save_worker]
      exact ⟨(save_row Y.host db (failedScan scan clock.failure) hi).trans hro, hj⟩

/-- **Result.** A remote launch of a scan that has a job changes nothing, or
leaves the scan failed. -/
theorem launch_replayed (Y : System) (clock : LaunchClock) (hm : policy.executionMode = .scanExecutionRemote)
    (ha : AssetInv s.db.scan.asset) (hj : ∃ r ∈ s.db.worker.jobs, r.id = "scan-" ++ scan.id) :
    (¬ (Accepts s policy scan clock ∧ (save Y.host s.db (queuedScan scan)).1 = .ok ()) ∧
      (launch Y s policy scan clock).2 = s) ∨
    ((Accepts s policy scan clock ∧ (save Y.host s.db (queuedScan scan)).1 = .ok ()) ∧
      (launch Y s policy scan clock).2.db.worker = s.db.worker ∧
      storedStatus (launch Y s policy scan clock).2.db.scan scan.id = some .failed) := by
  simp only [launch, Accepts, hm, launchRemote]
  by_cases he : (remoteExpiry scan clock.launch).any (· ≤ clock.launch) = true
  · rw [if_pos he]
    exact .inl ⟨fun h => h.1 he, rfl⟩
  rw [if_neg he]
  cases hs : save Y.host s.db (queuedScan scan) with
  | mk res db =>
    rcases save_cases hs with ⟨e, rfl, rfl⟩ | ⟨rfl, hf, a, -, hdb⟩
    · exact .inl ⟨fun h => (by cases h.2), rfl⟩
    refine .inr ⟨⟨he, rfl⟩, ?_⟩
    have hw : db.worker = s.db.worker := by rw [hdb]
    have ha' : AssetInv db.scan.asset := by
      have hi := save_assetInv ha Y.host (queuedScan scan)
      rwa [hs] at hi
    cases hd : dispatchScan Y.server.key db scan policy.workerSiteID clock with
    | mk res' db' =>
      rcases dispatchScan_cases hd with ⟨e, rfl, rfl⟩ | ⟨ev, -, hen, hn, -⟩
      · -- the failed scan meets the constraints that the queued one met
        have hf' : Fits db'.scan (failedScan scan clock.failure) := by
          rw [hdb]
          exact (hf.elsewhere (elsewhere_replaced s.db.scan (queuedScan scan) a)).of_sameRows
            ⟨rfl, rfl, rfl, rfl, rfl, rfl, rfl⟩
        have ho : (save Y.host db' (failedScan scan clock.failure)).1 = .ok () :=
          (save_ok_iff ha' Y.host _).mpr ⟨hf', fun hc => by cases hc⟩
        simp only [hd]
        refine ⟨(save_worker Y.host db' _).trans hw, ?_⟩
        cases hs' : save Y.host db' (failedScan scan clock.failure) with
        | mk res'' db'' =>
          rw [hs'] at ho
          rcases save_cases hs' with ⟨e', rfl, -⟩ | ⟨-, -, a', -, rfl⟩
          · cases ho
          · exact (storedStatus_replaced db'.scan (failedScan scan clock.failure) scan.id).trans (if_pos rfl)
      · obtain ⟨r, hr, hid⟩ := hj
        exact absurd (hid.trans hen.id.symm) (hn r (hw ▸ hr))

end

/-! ## The scan waits -/

section
variable {Y : System} {C : Calendar} {id : String} {expiry : Time} {w : World}

/-- The remote scan was paused, or taken up since, and its job is unfinished. -/
structure Waiting (id : String) (expiry : Time) (w : World) : Prop where
  asset : AssetInv w.shared.db.scan.asset
  remote : w.policy.executionMode = .scanExecutionRemote
  listed : ∀ policy scans, w.listed = some (policy, scans) → policy = w.policy
  status : storedStatus w.shared.db.scan id = some .paused ∨ storedStatus w.shared.db.scan id = some .failed
  unfinished : Unfinished id expiry w.shared.db
  clock : w.clock < expiry

theorem Waiting.after (h : Waiting id expiry w) {s : Shared} {row : ReusableScanPolicy} {new : List (Time × String)}
    {now : Time} (ha : AssetInv s.db.scan.asset) (hro : row.executionMode = w.policy.executionMode)
    (hs : storedStatus s.db.scan id = storedStatus w.shared.db.scan id ∨
      storedStatus s.db.scan id = some .failed)
    (hj : ∀ r ∈ w.shared.db.worker.jobs, r ∈ s.db.worker.jobs) (hn : now < expiry) :
    Waiting id expiry { shared := s, policy := row, listed := none, created := new, clock := now } := by
  obtain ⟨r, hr, hi, hu⟩ := h.unfinished
  refine ⟨ha, hro.trans h.remote, fun _ _ hl => (by cases hl), ?_, ⟨r, hj r hr, hi, hu⟩, hn⟩
  rcases hs with hsa | hf
  · rw [hsa]
    exact h.status
  · exact .inr hf

theorem process_mode (Y : System) (C : Calendar) (s : Shared) (row pol : ReusableScanPolicy) (scans : List Scan)
    (T : Turn) : (process Y C s row pol scans T).2.executionMode = row.executionMode := by
  unfold process
  split
  · rfl
  · rfl
  · split <;> rfl
  · split <;> rfl

/-- What the turn of a listed policy does to the scan: it fails it if it takes
it up, and otherwise leaves it as it is. -/
theorem waiting_process (h : Waiting id expiry w) {T : Turn} {scans : List Scan}
    (hl : w.listed = some (w.policy, scans)) (hfr : T.sources.scheduleID ≠ some id) :
    let s := (process Y C w.shared w.policy w.policy scans T).1
    AssetInv s.db.scan.asset ∧ (∀ r ∈ w.shared.db.worker.jobs, r ∈ s.db.worker.jobs) ∧
      ((TakesUp Y C id w (.turn T) ∧ storedStatus s.db.scan id = some .failed) ∨
        (¬ TakesUp Y C id w (.turn T) ∧ storedStatus s.db.scan id = storedStatus w.shared.db.scan id)) := by
  -- a turn takes the scan up only by resuming it
  have ho : (∀ scan passes, decision C w.policy scans T = .resume scan passes → scan.id ≠ id) →
      ¬ TakesUp Y C id w (.turn T) := by
    rintro hno ⟨T', pol, scans', scan, passes, hop, hl', hd, hi, -⟩
    cases hop
    rw [hl] at hl'
    cases hl'
    exact hno scan passes hd hi
  have he : ∀ scan, id ≠ scan.id →
      storedStatus (launch Y w.shared w.policy.toPolicy scan T.clock).2.db.scan id =
        storedStatus w.shared.db.scan id := by
    intro scan hn
    rw [storedStatus_eq, storedStatus_eq, (launch_elsewhere Y w.shared T.clock h.remote hn).1]
  cases hd : decision C w.policy scans T with
  | start scan =>
    obtain ⟨_, _, -, -, -, -, -, hb⟩ := decision_start_iff.mp hd
    have hn : id ≠ scan.id := by
      rintro rfl
      exact hfr (buildScan_new hb).2.2.2
    rw [process_start hd]
    exact ⟨launch_assetInv Y _ scan T.clock h.asset, (launch_elsewhere Y w.shared T.clock h.remote hn).2,
      .inr ⟨ho (by simp [hd]), he scan hn⟩⟩
  | resume scan passes =>
    simp only [process, hd]
    refine ⟨launch_assetInv Y _ scan T.clock h.asset, ?_⟩
    by_cases hi : id = scan.id
    · subst hi
      obtain ⟨r, hr, hri, -⟩ := h.unfinished
      have ht : TakesUp Y C scan.id w (.turn T) ↔ Accepts w.shared w.policy.toPolicy scan T.clock ∧
            (save Y.host w.shared.db (queuedScan scan)).1 = .ok () := by
        constructor
        · rintro ⟨T', pol, scans', scan', passes', hop, hl', hd', -, hdo⟩
          cases hop
          rw [hl] at hl'
          cases hl'
          rw [hd] at hd'
          cases hd'
          exact hdo
        · intro hdo
          exact ⟨T, w.policy, scans, scan, passes, rfl, hl, hd, rfl, hdo⟩
      rw [ht]
      rcases launch_replayed Y T.clock h.remote h.asset ⟨r, hr, hri⟩ with ⟨hno, hs⟩ | ⟨hy, hw, hf⟩
      · rw [hs]
        exact ⟨fun _ hr => hr, .inr ⟨hno, rfl⟩⟩
      · rw [hw]
        exact ⟨fun _ hr => hr, .inl ⟨hy, hf⟩⟩
    · refine ⟨(launch_elsewhere Y w.shared T.clock h.remote hi).2, .inr ⟨ho ?_, he scan hi⟩⟩
      intro scan' passes' hd'
      rw [hd] at hd'
      cases hd'
      exact Ne.symm hi
  | _ =>
    simp only [process, hd]
    exact ⟨h.asset, fun _ hr => hr, .inr ⟨ho (by simp [hd]), trivial⟩⟩

/-- **Result.** A step keeps the scan waiting: it fails it if it takes it up,
and does not fail it otherwise. -/
theorem waiting_step (h : Waiting id expiry w) {op : Op} (ho : During id expiry op) :
    Waiting id expiry (w.step Y C op) ∧
      (TakesUp Y C id w op → storedStatus (w.step Y C op).shared.db.scan id = some .failed) ∧
      (¬ TakesUp Y C id w op → storedStatus (w.step Y C op).shared.db.scan id = some .failed →
        storedStatus w.shared.db.scan id = some .failed) := by
  cases op with
  | tick =>
    obtain ⟨scans, -, hst⟩ := step_tick Y C w
    rw [hst]
    refine ⟨⟨h.asset, h.remote, fun pol scans' hl => ?_, h.status, h.unfinished, h.clock⟩, ?_, fun _ hf => hf⟩
    · split at hl
      · cases hl
        rfl
      · cases hl
    · rintro ⟨_, _, _, _, _, ho, -⟩
      cases ho
  | other s =>
    obtain ⟨ha, hp, hu⟩ := ho
    refine ⟨⟨ha, h.remote, h.listed, .inl hp, hu, h.clock⟩, ?_, fun _ hf => ?_⟩
    · rintro ⟨_, _, _, _, _, ho, -⟩
      cases ho
    · change storedStatus s.db.scan id = some .failed at hf
      rw [hp] at hf
      cases hf
  | turn T =>
    cases hl : w.listed with
    | none =>
      have hst : w.step Y C (.turn T) = w := by simp only [World.step, hl]
      rw [hst]
      refine ⟨h, ?_, fun _ hf => hf⟩
      rintro ⟨_, _, _, _, _, -, hl', -⟩
      rw [hl] at hl'
      cases hl'
    | some lists =>
      obtain ⟨pol, scans⟩ := lists
      obtain rfl := h.listed pol scans hl
      obtain ⟨ha, hj, hs⟩ := @waiting_process Y C _ _ _ h T scans hl ho.2
      rw [step_turn hl]
      refine ⟨h.after ha (process_mode ..) ?_ hj ho.1, fun ht => ?_, fun hn hf => ?_⟩
      · exact hs.symm.imp And.right And.right
      · rcases hs with ⟨-, hfa⟩ | ⟨hn, -⟩
        · exact hfa
        · exact absurd ht hn
      · rcases hs with ⟨ht, -⟩ | ⟨-, hsa⟩
        · exact absurd ht hn
        · rw [← hsa]
          exact hf

theorem Waiting.broken_iff (h : Waiting id expiry w) :
    Broken id expiry w ↔ storedStatus w.shared.db.scan id = some .failed :=
  ⟨fun hb => hb.1, fun hf => ⟨hf, h.unfinished, h.clock⟩⟩

/-! ## From the restart on -/

/-- The policy's remote scan is queued or running, and its job is unfinished
when the server starts. -/
structure Interrupted (id : String) (expiry : Time) (w : World) (now : Time) : Prop where
  asset : AssetInv w.shared.db.scan.asset
  remote : w.policy.executionMode = .scanExecutionRemote
  named : w.policy.id ≠ ""
  row : ∃ r, storedRow w.shared.db.scan id = some r ∧ r.scanPolicyID = w.policy.id ∧
    (r.status = .queued ∨ r.status = .running)
  unfinished : Unfinished id expiry w.shared.db
  clock : now < expiry

theorem Interrupted.paused {now : Time} (h : Interrupted id expiry w now) :
    storedStatus (restarted w now).shared.db.scan id = some .paused := by
  obtain ⟨r, hr, hp, hs⟩ := h.row
  have hro : storedRow (restarted w now).shared.db.scan id = some (reconciledRow now r) := by
    have hre := storedRow_reconciled w.shared.db now id
    rwa [hr] at hre
  have hn : r.scanPolicyID ≠ "" := hp ▸ h.named
  rw [storedStatus_eq, hro]
  all_goals simp [reconciledRow, interruptedRow, hs, hn]

theorem Interrupted.waiting {now : Time} (h : Interrupted id expiry w now) :
    Waiting id expiry (restarted w now) :=
  ⟨h.asset, h.remote, fun _ _ hl => (by cases hl), .inl h.paused, h.unfinished, h.clock⟩

theorem Waiting.takesUp (h : Waiting id expiry w) (hp : storedStatus w.shared.db.scan id = some .paused)
    {T : Turn} {windowEnd : Option Time} {scans : List Scan} {scan : Scan} (he : w.policy.enabled = true)
    (hl : list w.shared.db.scan = .ok scans) (ha : activePolicyScan scans w.policy.id = some scan)
    (hi : scan.id = id) (hw : window C w.policy T.now = some (true, windowEnd))
    (hla : ¬ (remoteExpiry { scan with windowEnd := windowEnd } T.clock.launch).any (· ≤ T.clock.launch))
    (hsa : (save Y.host w.shared.db
      { scan with status := .queued, error := "", windowEnd := windowEnd }).1 = .ok ()) :
    TakesUp Y C id (w.step Y C .tick) (.turn T) := by
  have hste : w.step Y C .tick = { w with listed := some (w.policy, scans) } := by
    simp only [World.step, hl, he, if_true]
  have hst : scan.status = .paused := by
    obtain ⟨_, hl', hm⟩ := list_ok w.shared.db.scan
    rw [hl] at hl'
    cases hl'
    obtain ⟨r, -, hg⟩ := (hm scan).mp (List.mem_of_find?_eq_some ha)
    obtain ⟨hr, hs⟩ := get_status hg
    rw [← hr, hi, hp] at hs
    exact (Option.some.inj hs).symm
  have hd : decision C w.policy scans T =
      .resume { scan with status := .queued, error := "", windowEnd := windowEnd } (due w.policy T.now) := by
    simp [decision, hw, ha, hst]
  rw [hste]
  refine ⟨T, w.policy, scans, _, _, rfl, rfl, hd, hi, ?_, hsa⟩
  unfold Accepts
  rw [h.remote]
  exact hla

end

/-- **Result.** After a restart the remote scan is stored as failed, with its
job unfinished, exactly when some turn takes it up. The first tick inside the
window takes it up, if it is the policy's active scan, the window is open when
it is launched, and the store accepts it. -/
theorem restart_breaks_iff (Y : System) (C : Calendar) (id : String) (expiry : Time) (w : World) (now : Time)
    (h : Interrupted id expiry w now) :
    (∀ ops, (∀ op ∈ ops, During id expiry op) →
      ((∀ n, ¬ Broken id expiry (run (World.step Y C) (restarted w now) (ops.take n))) ↔
        Along (World.step Y C) (fun w op => ¬ TakesUp Y C id w op) (restarted w now) ops)) ∧
    (∀ T windowEnd scans scan, During id expiry (.turn T) → w.policy.enabled = true →
      list (restarted w now).shared.db.scan = .ok scans → activePolicyScan scans w.policy.id = some scan →
      scan.id = id → window C w.policy T.now = some (true, windowEnd) →
      ¬ (remoteExpiry { scan with windowEnd := windowEnd } T.clock.launch).any (· ≤ T.clock.launch) →
      (save Y.host (restarted w now).shared.db
        { scan with status := .queued, error := "", windowEnd := windowEnd }).1 = .ok () →
      Broken id expiry (run (World.step Y C) (restarted w now) [.tick, .turn T])) := by
  constructor
  · intro ops ho1
    refine run_invariant_iff (I := fun w => ¬ Broken id expiry w) (J := Waiting id expiry)
      (fun w op ho hw => (waiting_step hw ho).1) (fun w op ho hw hI => ?_) h.waiting (fun hb => ?_) ho1
    · obtain ⟨hw', hta, hle⟩ := @waiting_step Y C _ _ _ hw op ho
      rw [hw.broken_iff] at hI
      rw [hw'.broken_iff]
      exact ⟨fun hn ht => hn (hta ht), fun hn hf => hI (hle hn hf)⟩
    · have hp := h.paused
      rw [hb.1] at hp
      cases hp
  · intro T windowEnd scans scan hT he hli ha hi hwi hl hs
    have ht := h.waiting.takesUp h.paused he hli ha hi hwi hl hs
    obtain ⟨hti, -⟩ := @waiting_step Y C _ _ _ h.waiting .tick trivial
    obtain ⟨htu, hfa, -⟩ := @waiting_step Y C _ _ _ hti (.turn T) hT
    exact htu.broken_iff.mpr (hfa ht)

/-- A remote scan was started and is with its worker when the server restarts. -/
def dispatchedWorld : World :=
  run (World.step smallSystem smallCalendar)
    { smallWorld .scanExecutionRemote with
      shared := { (smallWorld .scanExecutionRemote).shared with db := emptyTables [worker "worker-1"] true } }
    [.tick, .turn (smallTurn 0 "a")]

/-- Its job ends after twelve hours. -/
def dispatchedExpiry : Time := clock 43200

theorem dispatchedWorld_interrupted : Interrupted "a" dispatchedExpiry dispatchedWorld (clock 10) := by
  have hro : (storedRow dispatchedWorld.shared.db.scan "a").map (fun r => (r.scanPolicyID, r.status)) =
      some (dispatchedWorld.policy.id, .queued) := by decide +kernel
  obtain ⟨r, hr, hro⟩ := Option.map_eq_some_iff.mp hro
  obtain ⟨hp, hs⟩ := Prod.mk.inj hro
  refine ⟨⟨?_, ?_, ?_, ?_⟩, ?_, ?_, ⟨r, hr, hp, .inl hs⟩, ?_, ?_⟩
  all_goals decide +kernel

/-- The scan is safe while its policy has no turn, and broken by the first
one. -/
theorem restart_breaks_iff_small : ¬ Broken "a" dispatchedExpiry (run (World.step smallSystem smallCalendar)
      (restarted dispatchedWorld (clock 10)) [.tick]) ∧
    Broken "a" dispatchedExpiry (run (World.step smallSystem smallCalendar)
      (restarted dispatchedWorld (clock 10)) [.tick, .turn (smallTurn 30 "b")]) := by
  obtain ⟨hi, hf⟩ := restart_breaks_iff smallSystem smallCalendar "a" dispatchedExpiry dispatchedWorld
    (clock 10) dispatchedWorld_interrupted
  constructor
  · refine (hi [.tick] (by simp [During])).mpr ⟨?_, trivial⟩ 1
    rintro ⟨_, _, _, _, _, ho, -⟩
    cases ho
  · obtain ⟨scans, hl, -⟩ := list_ok (restarted dispatchedWorld (clock 10)).shared.db.scan
    have hs : ((list (restarted dispatchedWorld (clock 10)).shared.db.scan).toOption.bind fun scans =>
        activePolicyScan scans dispatchedWorld.policy.id).map (fun scan =>
          (scan.id, (remoteExpiry { scan with windowEnd := none } (clock 30)).any (· ≤ clock 30),
            (save smallSystem.host (restarted dispatchedWorld (clock 10)).shared.db
              { scan with status := .queued, error := "", windowEnd := none }).1)) =
        some ("a", false, .ok ()) := by decide +kernel
    rw [hl] at hs
    obtain ⟨scan, ha, hs⟩ := Option.map_eq_some_iff.mp hs
    simp only [Prod.mk.injEq] at hs
    obtain ⟨hid, hla, hsa⟩ := hs
    exact hf (smallTurn 30 "b") none scans scan ⟨by decide +kernel, by decide⟩ (by decide +kernel) hl
      ha hid (by decide +kernel) (Bool.eq_false_iff.mp hla) hsa

/-- Right after the restart the scheduler fails the scan, whose job is pending
for another twelve hours. -/
theorem scan_failed_by_restart : storedStatus dispatchedWorld.shared.db.scan "a" = some .queued ∧
    (let w := run (World.step smallSystem smallCalendar) (restarted dispatchedWorld (clock 10))
      [.tick, .turn (smallTurn 30 "b")]
    storedStatus w.shared.db.scan "a" = some .failed ∧
      w.shared.db.worker.jobs.map (fun r => (r.id, r.status, r.expiresAt)) =
        [("scan-a", .pending, dispatchedExpiry)] ∧ w.clock < dispatchedExpiry) := by
  decide +kernel

end Mossward.L6.Restart
