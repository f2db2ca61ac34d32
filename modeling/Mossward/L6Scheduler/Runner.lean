import Mossward.L6Scheduler.Schedule

/-!
# The scheduler's turn for one policy

At every tick the scheduler lists the enabled policies and all scans, and then
takes one policy after the other: it resumes the policy's paused scan, skips
the occurrence, or builds a new scan and launches it.
`internal/scheduling/runner.go`, `internal/scanlaunch/service.go`. The target
lists, the authorization scopes and the random identifier of a new scan are
inputs of a turn (`Sources`).

Results: `launch_alone`, `launch_new`, `list_ok`, `activePolicyScan_list`.
-/
namespace Mossward.L6.Runner

open Table Run L1.Rfc3339 Model L2.Schema
open L2.WorkerJob L2.Intelligence L2.Asset L2.ScanStore
open L2.Projection L3.JobDispatch L4.ScanEngine L5.ScanActors L6.Schedule

/-! ## Launch -/

inductive LaunchFailure
  | invalidMode
  | shuttingDown
  | store (cause : StoreError)
  | queueFull
  | remote (cause : LaunchError)
deriving DecidableEq

/-- Mirrors `Schedule`, `internal/scanner/scanner.go:275-292`. -/
def schedule (Y : System) (s : Shared) (scan : Scan) (now : Time) : Except LaunchFailure Unit × Shared :=
  if s.closed then (.error .shuttingDown, s)
  else
    match save Y.host s.db scan with
    | (.error e, db) => (.error (.store e), { s with db := db })
    | (.ok (), db) =>
      if s.queue.length < Y.queueSize then (.ok (), { s with db := db, queue := s.queue ++ [scan] })
      else
        (.error .queueFull,
          { s with db := (save Y.host db (interruptedScan scan "scan queue is full" now)).2 })

/-- Mirrors `Launch`, `internal/scanlaunch/service.go:42-53`. -/
def launch (Y : System) (s : Shared) (policy : Policy) (scan : Scan) (clock : LaunchClock) :
    Except LaunchFailure Unit × Shared :=
  match policy.executionMode with
  | .unset | .scanExecutionLocal => schedule Y s scan clock.launch
  | .scanExecutionRemote =>
    match launchRemote Y.host Y.server.key s.db scan policy.workerSiteID clock with
    | (.error e, db) => (.error (.remote e), { s with db := db })
    | (.ok _, db) => (.ok (), { s with db := db })
  | .other _ => (.error .invalidMode, s)

/-! ## New scans -/

structure ScopePolicy where
  id : String
  enabled : Bool
  maxConcurrent : Int

/-- What `buildScan` reads: the policy's target addresses, its authorization
scope, the check of a request against the scope, and a random identifier. -/
structure Sources where
  targets : Option (List Target)
  scope : Option ScopePolicy
  validateWithPolicy : List String → List Int → ScopePolicy → Option (List Target × List Int)
  scheduleID : Option String

/-- Mirrors `buildScan`, `internal/scheduling/runner.go:183-212`. -/
def buildScan (S : Sources) (policy : ReusableScanPolicy) (windowEnd : Option Time) (now : Time) : Option Scan :=
  match S.targets, S.scope with
  | some source, some scope =>
    if source = [] || !scope.enabled then none
    else
      match S.validateWithPolicy (source.map (·.address)) policy.ports scope, S.scheduleID with
      | some (targets, ports), some id =>
        some
          { id := id, name := policy.name
            targets := targets.map fun t => (source.reverse.find? fun x => x.address = t.address).getD t
            ports := ports, status := .queued, error := "", observations := [], findings := [], cveMatches := []
            totalChecks := targets.length * ports.length, doneChecks := 0, createdAt := now, startedAt := none
            completedAt := none, scopePolicyID := scope.id, maxConcurrent := scope.maxConcurrent
            scanPolicyID := policy.id, checkpoints := [], activeSeconds := 0, windowEnd := windowEnd
            longAlertSent := false, rateLimitPerSecond := policy.rateLimitPerSecond }
      | _, _ => none
  | _, _ => none

/-! ## The turn of a policy -/

def tickInterval : Int := 30 * second

/-- The inputs of a turn: the tick's time, what a scan is built from, and the
readings of the clock during a launch. -/
structure Turn where
  now : Time
  sources : Sources
  clock : LaunchClock

def due (policy : ReusableScanPolicy) (now : Time) : Bool := policy.nextRunAt.any (· ≤ now)

inductive Decision
  | wait
  /-- the occurrence passes without a scan -/
  | skip
  /-- the paused scan goes on; its occurrence passes if it is due -/
  | resume (scan : Scan) (passes : Bool)
  | start (scan : Scan)

/-- What `process` decides, `internal/scheduling/runner.go:98-137`. -/
def decision (C : Calendar) (policy : ReusableScanPolicy) (scans : List Scan) (T : Turn) : Decision :=
  match window C policy T.now with
  | none => .wait
  | some (inside, windowEnd) =>
    match activePolicyScan scans policy.id with
    | some active =>
      if active.status = .paused && inside then
        .resume { active with status := .queued, error := "", windowEnd := windowEnd } (due policy T.now)
      else if due policy T.now then .skip
      else .wait
    | none =>
      match policy.nextRunAt with
      | none => .wait
      | some nextRunAt =>
        if T.now < nextRunAt then .wait
        else if !inside then .skip
        else if !policy.runMissed && 2 * tickInterval < T.now.ns - nextRunAt.ns then .skip
        else
          match buildScan T.sources policy windowEnd T.now with
          | none => .skip
          | some scan => .start scan

/-- The next run after this one. -/
def following (C : Calendar) (policy : ReusableScanPolicy) (now : Time) : Option Time :=
  if policy.scheduleKind = .once then none
  else (C.location policy.scheduleTimezone).bind fun l => (next C policy now l).toOption

/-- Mirrors `advance`, `internal/scheduling/runner.go:213-229`, and
`UpdateReusablePolicySchedule`: the policy's row. -/
def advance (C : Calendar) (policy row : ReusableScanPolicy) (now : Time) : ReusableScanPolicy :=
  { row with nextRunAt := following C policy now, lastScheduledAt := some now }

/-- Mirrors `process`, `internal/scheduling/runner.go:98-142`. -/
def process (Y : System) (C : Calendar) (s : Shared) (row policy : ReusableScanPolicy) (scans : List Scan)
    (T : Turn) : Shared × ReusableScanPolicy :=
  match decision C policy scans T with
  | .wait => (s, row)
  | .skip => (s, advance C policy row T.now)
  | .resume scan passes =>
    ((launch Y s policy.toPolicy scan T.clock).2, if passes then advance C policy row T.now else row)
  | .start scan =>
    match launch Y s policy.toPolicy scan T.clock with
    | (.error _, s) => (s, row)
    | (.ok (), s) => (s, advance C policy row T.now)

/-! ## What a launch does -/

section
variable {Y : System} {s : Shared} {policy : Policy} {scan : Scan}

/-- The calls of a launch, each made at its time. -/
def launching (Y : System) (s : Shared × Launching) (now : Time) : Shared × Launching := s.2.step Y s.1 now

theorem schedule_alone (Y : System) (s : Shared) (scan : Scan) (seen : Option ScanStatus) (now : Time)
    (hf : s.locked = false) :
    run (launching Y) (s, .scheduling scan seen) [now, now, now, now] = ((schedule Y s scan now).2, .done) := by
  obtain ⟨db, queue, closed, stopped, locked, active, canceled, contexts, runs⟩ := s
  subst hf
  cases closed with
  | true => simp [launching, Launching.step, schedule]
  | false =>
    cases hs : save Y.host db scan with
    | mk res db' =>
      cases res with
      | error e => simp [launching, Launching.step, schedule, hs]
      | ok _ =>
        by_cases hr : queue.length < Y.queueSize <;> simp [launching, Launching.step, schedule, hs, hr]

/-- A scan without any result. -/
structure Bare (scan : Scan) : Prop where
  observations : scan.observations = []
  findings : scan.findings = []
  cveMatches : scan.cveMatches = []
  checkpoints : scan.checkpoints = []

theorem buildScan_new {S : Sources} {p : ReusableScanPolicy} {wend : Option Time} {now : Time}
    (h : buildScan S p wend now = some scan) :
    Bare scan ∧ scan.status = .queued ∧ scan.scanPolicyID = p.id ∧ S.scheduleID = some scan.id := by
  unfold buildScan at h
  split at h
  · split at h
    · cases h
    split at h
    · rename_i hi
      cases h
      exact ⟨⟨rfl, rfl, rfl, rfl⟩, rfl, rfl, hi⟩
    · cases h
  · cases h

/-- What the store demands of a new scan. -/
def Admissible (scan : Scan) : Prop :=
  rateLimitAllowed scan.rateLimitPerSecond ∧ ∀ p ∈ scan.ports, L2.WorkerEvidence.portAllowed p

theorem Bare.fits_iff (hb : Bare scan) (t : ScanTables) : Fits t scan ↔ Admissible scan := by
  obtain ⟨ho, hfi, hm, hc⟩ := hb
  constructor
  · intro hf
    exact ⟨hf.rate, hf.ports⟩
  · rintro ⟨hr, hp⟩
    refine ⟨hr, hp, ?_, ?_, ?_, ?_, ?_, ?_, ?_, ?_⟩
    all_goals simp [ho, hfi, hm, hc, Keyed]

theorem Bare.save_ok_iff (hb : Bare scan) {db : DB} (ha : AssetInv db.scan.asset) (h : Host) :
    (save h db scan).1 = .ok () ↔ Admissible scan := by
  have hf : ProvenanceFree db scan := by
    intro _ o ho
    rw [hb.observations] at ho
    cases ho
  rw [L2.ScanStore.save_ok_iff ha, and_iff_left hf]
  exact hb.fits_iff db.scan

/-- The rows of `t'` are those of `t`, with `r` for the scan's own. -/
def Stored (id : String) (r : ScanRow) (t t' : ScanTables) : Prop :=
  ∀ id', storedRow t' id' = if id' = id then some r else storedRow t id'

theorem Stored.again {id : String} {r r' : ScanRow} {t t' t'' : ScanTables} (h : Stored id r t t')
    (h' : Stored id r' t' t'') : Stored id r' t t'' := by
  intro id'
  rw [h' id', h id']
  split <;> rfl

theorem Bare.save_admissible (hb : Bare scan) {db : DB} (ha : AssetInv db.scan.asset) (h : Host)
    (had : Admissible scan) :
    ∃ db', save h db scan = (.ok (), db') ∧ AssetInv db'.scan.asset ∧
      Stored scan.id (scanRow scan) db.scan db'.scan := by
  have ho := (hb.save_ok_iff ha h).mpr had
  have hi := save_assetInv ha h scan
  cases hs : save h db scan with
  | mk res db' =>
    rw [hs] at ho hi
    rcases save_cases hs with ⟨e, rfl, -⟩ | ⟨rfl, -, a, -, rfl⟩
    · cases ho
    · exact ⟨_, rfl, hi, storedRow_replaced db.scan scan⟩

theorem Bare.save_refused (hb : Bare scan) {db : DB} (ha : AssetInv db.scan.asset) (h : Host)
    (had : ¬ Admissible scan) : ∃ e, save h db scan = (.error e, db) := by
  cases hs : save h db scan with
  | mk res db' =>
    rcases save_cases hs with ⟨e, rfl, rfl⟩ | ⟨rfl, -⟩
    · exact ⟨e, rfl⟩
    · exact absurd ((hb.save_ok_iff ha h).mp (by rw [hs])) had

theorem launch_assetInv (Y : System) {s : Shared} (pol : Policy) (scan : Scan) (clock : LaunchClock)
    (ha : AssetInv s.db.scan.asset) : AssetInv (launch Y s pol scan clock).2.db.scan.asset := by
  have hsc : AssetInv (schedule Y s scan clock.launch).2.db.scan.asset := by
    have hsa := save_assetInv ha Y.host scan
    unfold schedule
    split
    · exact ha
    split
    · rename_i e db hs
      rwa [hs] at hsa
    rename_i db hs
    rw [hs] at hsa
    split
    · exact hsa
    · exact save_assetInv hsa Y.host _
  have hr : AssetInv (launchRemote Y.host Y.server.key s.db scan pol.workerSiteID clock).2.scan.asset := by
    rcases launchRemote_cases Y.host Y.server.key s.db scan pol.workerSiteID clock with
      he | ⟨db, hs, ⟨ev, -, -, he⟩ | he⟩
    · rwa [he]
    all_goals
      have hsa := save_assetInv ha Y.host (queuedScan scan)
      rw [hs] at hsa
      rw [he]
    · exact hsa
    · exact save_assetInv hsa Y.host _
  unfold launch
  split
  · exact hsc
  · exact hsc
  · split
    · rename_i hl
      rwa [hl] at hr
    · rename_i hl
      rwa [hl] at hr
  · exact ha

/-! ## What becomes of a new scan -/

/-- The failures after which nobody takes up the scan that was stored. -/
def LaunchFailure.loses (policyID : String) : LaunchFailure → Bool
  | .remote (.dispatch _) => true
  -- `interrupt` fails a scan that belongs to no policy
  | .queueFull => policyID = ""
  | _ => false

/-- The launcher gets as far as storing the scan. -/
def Accepts (s : Shared) (policy : Policy) (scan : Scan) (clock : LaunchClock) : Prop :=
  match policy.executionMode with
  | .unset | .scanExecutionLocal => s.closed = false
  | .scanExecutionRemote => ¬ (remoteExpiry scan clock.launch).any (· ≤ clock.launch)
  | .other _ => False

/-- The status that a launch leaves a stored scan in. -/
def statusAfter (policyID : String) : Except LaunchFailure Unit → ScanStatus
  | .ok () => .queued
  | .error e => if e.loses policyID then .failed else .paused

/-- A launch that changed nothing. -/
def Refused (s : Shared) (policyID : String) (launched : Except LaunchFailure Unit × Shared) : Prop :=
  launched.2 = s ∧ ∃ e, launched.1 = .error e ∧ e.loses policyID = false

/-- A launch that stored the scan. -/
structure Left (s : Shared) (scan : Scan) (launched : Except LaunchFailure Unit × Shared) : Prop where
  asset : AssetInv launched.2.db.scan.asset
  closed : launched.2.closed = s.closed
  row : ∃ r : ScanRow, r.scanPolicyID = scan.scanPolicyID ∧ r.status = statusAfter scan.scanPolicyID launched.1 ∧
    Stored scan.id r s.db.scan launched.2.db.scan

theorem schedule_new (Y : System) (s : Shared) (scan : Scan) (now : Time) (ha : AssetInv s.db.scan.asset)
    (hb : Bare scan) (hq : scan.status = .queued) :
    (¬ (s.closed = false ∧ Admissible scan) ∧ Refused s scan.scanPolicyID (schedule Y s scan now)) ∨
    ((s.closed = false ∧ Admissible scan) ∧ Left s scan (schedule Y s scan now)) := by
  unfold schedule
  by_cases hc : s.closed = true
  · rw [if_pos hc]
    exact .inl ⟨fun h => by simp [hc] at h, rfl, _, rfl, rfl⟩
  rw [if_neg hc]
  by_cases had : Admissible scan
  · obtain ⟨db, hs, ha', hro⟩ := hb.save_admissible ha Y.host had
    rw [hs]
    refine .inr ⟨⟨by simpa using hc, had⟩, ?_⟩
    by_cases hr : s.queue.length < Y.queueSize
    · simp only [hr]
      exact ⟨ha', rfl, scanRow scan, rfl, hq, hro⟩
    simp only [hr]
    -- the second save meets the constraints that the first one met
    have hb' : Bare (interruptedScan scan "scan queue is full" now) := by
      unfold interruptedScan failScan
      split <;> exact ⟨hb.observations, hb.findings, hb.cveMatches, hb.checkpoints⟩
    have had' : Admissible (interruptedScan scan "scan queue is full" now) := by
      unfold interruptedScan failScan
      split <;> exact had
    have hi : (interruptedScan scan "scan queue is full" now).id = scan.id := by
      unfold interruptedScan failScan
      split <;> rfl
    obtain ⟨db', hs', ha'', hr'⟩ := hb'.save_admissible ha' Y.host had'
    rw [hi] at hr'
    rw [hs']
    refine ⟨ha'', rfl, scanRow (interruptedScan scan "scan queue is full" now), ?_, ?_, hro.again hr'⟩
    · unfold interruptedScan failScan
      split <;> rfl
    · by_cases hp : scan.scanPolicyID = ""
      · simp [interruptedScan, failScan, scanRow, statusAfter, LaunchFailure.loses, hp]
      · simp [interruptedScan, scanRow, statusAfter, LaunchFailure.loses, hp]
  · obtain ⟨e, hs⟩ := hb.save_refused ha Y.host had
    rw [hs]
    exact .inl ⟨fun h => had h.2, rfl, _, rfl, rfl⟩

theorem launchRemote_new (Y : System) (s : Shared) (pol : Policy) (scan : Scan) (clock : LaunchClock)
    (hm : pol.executionMode = .scanExecutionRemote) (ha : AssetInv s.db.scan.asset) (hb : Bare scan)
    (hq : scan.status = .queued) :
    (¬ (Accepts s pol scan clock ∧ Admissible scan) ∧
      Refused s scan.scanPolicyID (launch Y s pol scan clock)) ∨
    ((Accepts s pol scan clock ∧ Admissible scan) ∧ Left s scan (launch Y s pol scan clock)) := by
  have hsa : queuedScan scan = scan := by
    unfold queuedScan
    rw [← hq]
  simp only [launch, Accepts, hm, launchRemote, hsa]
  by_cases he : (remoteExpiry scan clock.launch).any (· ≤ clock.launch) = true
  · rw [if_pos he]
    exact .inl ⟨fun h => h.1 he, rfl, _, rfl, rfl⟩
  rw [if_neg he]
  by_cases had : Admissible scan
  · obtain ⟨db, hs, ha', hr⟩ := hb.save_admissible ha Y.host had
    rw [hs]
    refine .inr ⟨⟨he, had⟩, ?_⟩
    cases hd : dispatchScan Y.server.key db scan pol.workerSiteID clock with
    | mk res db' =>
      rcases dispatchScan_cases hd with ⟨e, rfl, rfl⟩ | ⟨ev, rfl, -, -, rfl⟩
      · have hb' : Bare (failedScan scan clock.failure) :=
          ⟨hb.observations, hb.findings, hb.cveMatches, hb.checkpoints⟩
        obtain ⟨db'', hs', ha'', hr'⟩ := hb'.save_admissible ha' Y.host had
        simp only [hd, hs']
        exact ⟨ha'', rfl, scanRow (failedScan scan clock.failure), rfl, rfl, hr.again hr'⟩
      · simp only [hd]
        exact ⟨ha', rfl, scanRow scan, rfl, hq, hr⟩
  · obtain ⟨e, hs⟩ := hb.save_refused ha Y.host had
    rw [hs]
    exact .inl ⟨fun h => had h.2, rfl, _, rfl, rfl⟩

/-- **Result.** A launch of a new scan changes nothing, or stores the scan: as
queued if it succeeds, as paused if it will be resumed, as failed otherwise. -/
theorem launch_new (Y : System) (s : Shared) (pol : Policy) (scan : Scan) (clock : LaunchClock)
    (ha : AssetInv s.db.scan.asset) (hb : Bare scan) (hq : scan.status = .queued) :
    (¬ (Accepts s pol scan clock ∧ Admissible scan) ∧
      Refused s scan.scanPolicyID (launch Y s pol scan clock)) ∨
    ((Accepts s pol scan clock ∧ Admissible scan) ∧ Left s scan (launch Y s pol scan clock)) := by
  cases hm : pol.executionMode with
  | scanExecutionRemote => exact launchRemote_new Y s pol scan clock hm ha hb hq
  | other text =>
    simp only [launch, Accepts, hm]
    exact .inl ⟨fun h => h.1, rfl, _, rfl, rfl⟩
  | _ =>
    simp only [launch, Accepts, hm]
    exact schedule_new Y s scan clock.launch ha hb hq

end

/-! ## What a tick sees -/

/-- **Result.** A tick sees every stored scan, and nothing else. -/
theorem list_ok (t : ScanTables) :
    ∃ scans, list t = .ok scans ∧ ∀ s, s ∈ scans ↔ ∃ r ∈ t.scans, get t r.id = .ok s := by
  have ht : ∀ r ∈ t.scans.insertionSort fun a b => textLe b.createdAt a.createdAt,
      ∃ s, get t r.id = .ok s := by
    intro r hr
    have hm : r ∈ t.scans := (List.mem_insertionSort _).mp hr
    refine get_of_stored ?_
    rw [storedStatus, Option.isSome_map, List.find?_isSome]
    exact ⟨r, hm, by simp⟩
  obtain ⟨scans, hs⟩ := mapM_total ht
  refine ⟨scans, hs, fun s => (mem_mapM_ok hs).trans ?_⟩
  simp only [List.mem_insertionSort]

def activeStatus (status : ScanStatus) : Bool := status = .queued || status = .running || status = .paused

/-- A scan of the policy is stored as active. -/
def ActiveScan (policyID : String) (t : ScanTables) : Prop :=
  ∃ id r, storedRow t id = some r ∧ r.scanPolicyID = policyID ∧ activeStatus r.status

/-- **Result.** A tick finds an active scan of the policy exactly if one is
stored. -/
theorem activePolicyScan_list {t : ScanTables} {scans : List Scan} (h : list t = .ok scans) (policyID : String) :
    (activePolicyScan scans policyID).isSome ↔ ActiveScan policyID t := by
  obtain ⟨scans', hl, hm⟩ := list_ok t
  rw [h] at hl
  cases hl
  unfold activePolicyScan
  rw [List.find?_isSome]
  constructor
  · rintro ⟨s, hs, ha⟩
    simp only [Bool.and_eq_true, decide_eq_true_eq] at ha
    obtain ⟨r, -, hg⟩ := (hm s).mp hs
    obtain ⟨r', hr', rfl⟩ := get_ok_iff.mp hg
    exact ⟨r.id, r', hr', ha⟩
  · rintro ⟨id, r, hr, hp, ha⟩
    obtain ⟨hr', rfl⟩ := storedRow_mem hr
    refine ⟨loadScan t r, (hm _).mpr ⟨r, hr', get_ok_iff.mpr ⟨r, hr, rfl⟩⟩, ?_⟩
    · simpa [loadScan, hp, activeStatus] using ha

end Mossward.L6.Runner
