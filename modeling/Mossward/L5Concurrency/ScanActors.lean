import Mossward.Core.Register
import Mossward.L3Protocol.SqliteServer
import Mossward.L4App.ScanEngine

/-!
# The writers of scans

Four components store whole scans from copies of their own: the engine's run
of a scan, `Engine.Cancel`, the launch of a scan, and the projection of a
worker's result. Each store call is one step here, so that the calls of
different components interleave freely; a component waits where the source
takes `Engine.state`. `internal/scanner/scanner.go`,
`internal/scheduling/runner.go`, `internal/scanlaunch/service.go`,
`internal/store/worker_projection.go`. The components run next to the other
calls of the server. A dispatch is one step.

Result: `saves_effect`.
-/
namespace Mossward.L5.ScanActors

open Table Run Register L1.Rfc3339 Model L2.Schema
open L2.WorkerJob L2.Intelligence L2.ScanStore L2.Projection
open L3.JobDispatch L3.SqliteServer L4.ScanEngine

/-! ## What the components share -/

inductive ScanExecutionMode
  | unset
  | scanExecutionLocal
  | scanExecutionRemote
  | other (text : String)
deriving DecidableEq

/-- What launching and resuming read of a `ReusableScanPolicy`. -/
structure Policy where
  id : String
  executionMode : ScanExecutionMode
  workerSiteID : String
deriving DecidableEq

structure System where
  server : Server
  /-- `err.Error()`. -/
  errorText : StoreError → String
  queueSize : Nat
  /-- `Window`, `internal/scheduling/schedule.go:80-103`: whether the time is
  inside the policy's window and when that ends; `none` for an invalid window. -/
  window : Policy → Time → Option (Bool × Option Time)

def System.host (Y : System) : Host := Y.server.host

def System.engine (Y : System) : Engine where
  host := Y.server.host
  errorText := Y.errorText

/-- The database and the engine's own state. -/
structure Shared where
  db : DB
  queue : List Scan
  closed : Bool
  /-- `e.ctx` is canceled -/
  stopped : Bool
  /-- a `Schedule` holds `e.state` -/
  locked : Bool
  /-- the scan in `e.active`, and the number of its run -/
  active : Option (String × Nat)
  canceled : List String
  /-- the runs whose contexts are canceled -/
  contexts : List Nat
  runs : Nat

/-- A save that a component is about to make. `seen` is the stored status it
last read or wrote, none for a new scan. -/
structure Pending where
  scan : Scan
  seen : Option ScanStatus
  /-- by the projection of a result -/
  projected : Bool

/-! ## Cancel -/

inductive Canceling
  | start (id : String)
  | flagging (scan : Scan)
  /-- about to cancel the context of the run it found -/
  | signaling (scan : Scan) (context : Option Nat)
  | saving (scan : Scan) (seen : ScanStatus)
  | done

def cancelableScanStatus (status : ScanStatus) : Bool :=
  status = .queued || status = .running || status = .paused

/-- Mirrors `Cancel`, `internal/scanner/scanner.go:294-313`. -/
def Canceling.step (Y : System) (s : Shared) (now : Time) : Canceling → Shared × Canceling
  | .start id =>
    match get s.db.scan id with
    | .error _ => (s, .done)
    | .ok scan => (s, if cancelableScanStatus scan.status then .flagging scan else .done)
  | .flagging scan =>
    if s.locked then (s, .flagging scan)
    else
      let context := s.active.bind fun (id, run) => if id = scan.id then some run else none
      if context.isSome || scan.status = .queued || scan.status = .running then
        ({ s with canceled := scan.id :: s.canceled }, .signaling scan context)
      else (s, .signaling scan context)
  | .signaling scan context =>
    ({ s with contexts := context.toList ++ s.contexts }, .saving (canceledScan scan now) scan.status)
  | .saving scan _ => ({ s with db := (save Y.host s.db scan).2 }, .done)
  | .done => (s, .done)

def Canceling.pending : Canceling → Option Pending
  | .saving scan seen => some ⟨scan, some seen, false⟩
  | _ => none

/-! ## Launch -/

inductive Launching
  | start (policy : Policy) (scan : Scan) (seen : Option ScanStatus)
  /-- waits for `e.state` -/
  | scheduling (scan : Scan) (seen : Option ScanStatus)
  /-- holds `e.state` from here to the end of `Schedule` -/
  | saving (scan : Scan) (seen : Option ScanStatus)
  | enqueueing (scan : Scan)
  | interrupting (scan : Scan) (seen : Option ScanStatus)
  /-- about to store a remote scan, launched at a time -/
  | persisting (scan : Scan) (siteID : String) (launched : Time) (seen : Option ScanStatus)
  | dispatching (scan : Scan) (siteID : String) (launched : Time)
  | failing (scan : Scan) (seen : Option ScanStatus)
  | done

/-- Mirrors `Launch` and `launchRemote`, `internal/scanlaunch/service.go:42-85`,
and `Schedule`, `internal/scanner/scanner.go:275-292`. -/
def Launching.step (Y : System) (s : Shared) (now : Time) : Launching → Shared × Launching
  | .start policy scan seen =>
    match policy.executionMode with
    | .unset | .scanExecutionLocal => (s, .scheduling scan seen)
    | .scanExecutionRemote =>
      (s, if (remoteExpiry scan now).any (· ≤ now) then .done
        else .persisting scan policy.workerSiteID now seen)
    | .other _ => (s, .done)
  | .scheduling scan seen =>
    if s.locked then (s, .scheduling scan seen)
    else if s.closed then (s, .done)
    else ({ s with locked := true }, .saving scan seen)
  | .saving scan _ =>
    match save Y.host s.db scan with
    | (.error _, db) => ({ s with db := db, locked := false }, .done)
    | (.ok (), db) => ({ s with db := db }, .enqueueing scan)
  | .enqueueing scan =>
    if s.queue.length < Y.queueSize then ({ s with queue := s.queue ++ [scan], locked := false }, .done)
    else (s, .interrupting (interruptedScan scan "scan queue is full" now) (some scan.status))
  | .interrupting scan _ => ({ s with db := (save Y.host s.db scan).2, locked := false }, .done)
  | .persisting scan siteID launched _ =>
    match save Y.host s.db (queuedScan scan) with
    | (.error _, db) => ({ s with db := db }, .done)
    | (.ok (), db) => ({ s with db := db }, .dispatching scan siteID launched)
  | .dispatching scan siteID launched =>
    match dispatchScan Y.server.key s.db scan siteID ⟨launched, now, now⟩ with
    | (.error _, db) => ({ s with db := db }, .failing (failedScan scan now) (some .queued))
    | (.ok _, db) => ({ s with db := db }, .done)
  | .failing scan _ => ({ s with db := (save Y.host s.db scan).2 }, .done)
  | .done => (s, .done)

def Launching.pending : Launching → Option Pending
  | .saving scan seen => some ⟨scan, seen, false⟩
  | .interrupting scan seen => some ⟨scan, seen, false⟩
  | .persisting scan _ _ seen => some ⟨queuedScan scan, seen, false⟩
  | .failing scan seen => some ⟨scan, seen, false⟩
  | _ => none

/-! ## Resume -/

/-- Mirrors `List`, `internal/store/sqlite.go:777-807`: latest first. -/
def list (t : ScanTables) : Except StoreError (List Scan) :=
  (t.scans.insertionSort fun a b => textLe b.createdAt a.createdAt).mapM fun r => get t r.id

/-- Mirrors `activePolicyScan`, `internal/scheduling/runner.go:174-182`. -/
def activePolicyScan (scans : List Scan) (id : String) : Option Scan :=
  scans.find? fun s => s.scanPolicyID = id && (s.status = .queued || s.status = .running || s.status = .paused)

/-- What `process`, `internal/scheduling/runner.go:103-119`, launches again: the
policy's active scan in the snapshot, if it is paused and its window is open. -/
def resumed (Y : System) (scans : List Scan) (now : Time) (policy : Policy) : Option (Policy × Scan) := do
  let (inside, windowEnd) ← Y.window policy now
  let scan ← activePolicyScan scans policy.id
  if scan.status = .paused && inside then
    some (policy, { scan with status := .queued, error := "", windowEnd := windowEnd })
  else none

/-- The scheduler's tick: the scans it will launch, and the launch under way. -/
structure Ticking where
  todo : List (Policy × Scan)
  launching : Launching

/-- Mirrors the snapshot of `tick`, `internal/scheduling/runner.go:93-101`. New
scans of a policy are launches of their own. -/
def Ticking.start (Y : System) (t : ScanTables) (policies : List Policy) (now : Time) : Ticking → Ticking
  | ⟨[], .done⟩ =>
    match list t with
    | .error _ => ⟨[], .done⟩
    | .ok scans => ⟨policies.filterMap (resumed Y scans now), .done⟩
  | k => k

/-- The scan was paused when it was listed. -/
def Ticking.step (Y : System) (s : Shared) (now : Time) : Ticking → Shared × Ticking
  | ⟨(policy, scan) :: todo, .done⟩ => (s, ⟨todo, .start policy scan (some .paused)⟩)
  | ⟨todo, launching⟩ =>
    let (s, launching) := launching.step Y s now
    (s, ⟨todo, launching⟩)

/-! ## Projection -/

inductive Projecting
  | start (receipt : WorkerJobResultReceipt)
  | loadScan (receipt : WorkerJobResultReceipt) (job : WorkerJob)
  | loadEvidence (receipt : WorkerJobResultReceipt) (job : WorkerJob) (scan : Scan)
  | loadCheckpoints (receipt : WorkerJobResultReceipt) (job : WorkerJob) (scan : Scan)
      (observations : List ServiceObservation) (findings : List Finding)
  /-- the observations still to match; with none left it saves -/
  | matching (scan : Scan) (seen : ScanStatus) (observations : List ServiceObservation)
  | done

/-- The scan with the evidence, before the matches. -/
def collectedScan (job : WorkerJob) (receipt : WorkerJobResultReceipt) (scan : Scan)
    (observations : List ServiceObservation) (findings : List Finding) (checkpoints : List WorkerCheckpoint) :
    Scan :=
  { scan with
    observations := observations
    findings := findings
    checkpoints := workerScanCheckpoints checkpoints
    doneChecks := checkpoints.length
    startedAt := workerScanStartedAt scan.startedAt job.issuedAt
    completedAt := some receipt.completedAt
    status := (projectedScanOutcome receipt.outcome).1
    error := (projectedScanOutcome receipt.outcome).2
    cveMatches := [] }

/-- Mirrors `projectScannerWorkerResult`, `internal/store/worker_projection.go:13-45`,
one call at a time. -/
def Projecting.step (Y : System) (s : Shared) (now : Time) : Projecting → Shared × Projecting
  | .start receipt =>
    match Sqlite.scannerWorkerJob s.db receipt.jobID with
    | .error _ => (s, .done)
    | .ok job => (s, .loadScan receipt job.job)
  | .loadScan receipt job =>
    match get s.db.scan job.scanID with
    | .error _ => (s, .done)
    | .ok scan => (s, .loadEvidence receipt job scan)
  | .loadEvidence receipt job scan =>
    (s, .loadCheckpoints receipt job scan (evidenceObservations s.db.worker receipt.jobID)
      (evidenceFindings s.db.worker receipt.jobID))
  | .loadCheckpoints receipt job scan observations findings =>
    (s, .matching (collectedScan job receipt scan observations findings
      (checkpointsOf sqlite s.db.worker receipt.jobID)) scan.status observations)
  | .matching scan seen (o :: observations) =>
    (s, .matching { scan with cveMatches := scan.cveMatches ++ matchObservation Y.host s.db.scan o now } seen
      observations)
  | .matching scan _ [] => ({ s with db := (save Y.host s.db scan).2 }, .done)
  | .done => (s, .done)

def Projecting.pending : Projecting → Option Pending
  | .matching scan seen [] => some ⟨scan, some seen, true⟩
  | _ => none

/-! ## The engine's run -/

/-- The goroutine of the engine, which runs one scan after the other. -/
structure Runner where
  phase : Running
  /-- the stored status it last read or wrote -/
  seen : Option ScanStatus
  /-- between `beginScan` and `endScan` -/
  began : Bool
  /-- the number of its run -/
  number : Nat
  /-- it has left its loop, and `Shutdown` works through the queue -/
  exited : Bool

inductive RunEvent
  | take
  | begin (now : Time)
  | probe (r : ProbeResult)
  /-- the results loop ends, maybe by the end of the window -/
  | close (closedByWindow : Bool) (now : Time)
  | save (now : Time)
  | endScan
  | exit
  | drain (now : Time)

/-- The scan that a phase is about to store. -/
def saving : Running → Option Scan
  | .starting scan _ => some scan
  | .progressing scan _ => some scan
  | .concluding scan => some scan
  | .finishing scan => some scan
  | _ => none

def Runner.pending (r : Runner) : Option Pending :=
  (saving r.phase).map fun scan => ⟨scan, r.seen, false⟩

/-- How the results loop of the run ends, `internal/scanner/scanner.go:408-415`. -/
def closing (s : Shared) (number : Nat) (closedByWindow : Bool) : Closing :=
  if s.stopped then .shutdown else if number ∈ s.contexts then .canceled else .drained closedByWindow

/-- The stored status that a runner has seen after a save. -/
def seenAfter (Y : System) (db : DB) (scan : Scan) (seen : Option ScanStatus) : Option ScanStatus :=
  match (save Y.host db scan).1 with
  | .ok () => some scan.status
  | .error _ => seen

/-- Mirrors `schedule` with `run`, `beginScan` and `endScan`,
`internal/scanner/scanner.go:359-458`, and the end of `Shutdown`, `:318-341`. -/
def Runner.step (Y : System) (s : Shared) (r : Runner) : RunEvent → Shared × Runner
  | .take =>
    match s.queue with
    | scan :: queue =>
      if r.phase = .done && !r.began && !r.exited then
        ({ s with queue := queue }, { r with phase := .queued scan, seen := some scan.status })
      else (s, r)
    | [] => (s, r)
  | .begin now =>
    match r.phase with
    | .queued scan =>
      if s.locked then (s, r)
      else if scan.id ∈ s.canceled then
        ({ s with canceled := s.canceled.filter (· ≠ scan.id) },
          { r with phase := (r.phase.step Y.engine s.db (.begin true now)).2 })
      else
        ({ s with active := some (scan.id, s.runs), runs := s.runs + 1 },
          { r with phase := (r.phase.step Y.engine s.db (.begin false now)).2, began := true, number := s.runs })
    | _ => (s, r)
  | .probe p => (s, { r with phase := (r.phase.step Y.engine s.db (.probe p)).2 })
  | .close closedByWindow now =>
    (s, { r with phase := (r.phase.step Y.engine s.db (.close (closing s r.number closedByWindow) now)).2 })
  | .save now =>
    match saving r.phase with
    | none => (s, r)
    | some scan =>
      ({ s with db := (r.phase.step Y.engine s.db (.save now)).1 },
        { r with phase := (r.phase.step Y.engine s.db (.save now)).2, seen := seenAfter Y s.db scan r.seen })
  | .endScan =>
    if r.phase = .done && r.began && !s.locked then
      ({ s with
          active := none
          canceled := s.canceled.filter fun id => !(s.active.any fun a => a.1 = id) },
        { r with began := false })
    else (s, r)
  | .exit => (s, if s.stopped && r.phase = .done && !r.began then { r with exited := true } else r)
  | .drain now =>
    match s.queue with
    | scan :: queue =>
      if r.exited && r.phase = .done && !s.locked then
        if scan.id ∈ s.canceled then
          ({ s with queue := queue, canceled := s.canceled.filter (· ≠ scan.id) },
            { r with phase := .finishing (canceledScan scan now), seen := some scan.status })
        else
          ({ s with queue := queue },
            { r with
              phase := .finishing (interruptedScan scan "scan canceled during process shutdown" now)
              seen := some scan.status })
      else (s, r)
    | [] => (s, r)

/-! ## All together -/

/-- A request to the server that stores scans. -/
inductive Request
  | cancel (c : Canceling)
  | launch (l : Launching)
  | projection (p : Projecting)

def Request.step (Y : System) (s : Shared) (now : Time) : Request → Shared × Request
  | .cancel c => ((c.step Y s now).1, .cancel (c.step Y s now).2)
  | .launch l => ((l.step Y s now).1, .launch (l.step Y s now).2)
  | .projection p => ((p.step Y s now).1, .projection (p.step Y s now).2)

def Request.pending : Request → Option Pending
  | .cancel c => c.pending
  | .launch l => l.pending
  | .projection p => p.pending

structure World where
  shared : Shared
  runner : Runner
  scheduler : Ticking
  requests : List Request

/-- The process starts on a database. -/
def World.start (db : DB) : World where
  shared :=
    { db := db, queue := [], closed := false, stopped := false, locked := false, active := none
      canceled := [], contexts := [], runs := 0 }
  runner := { phase := .done, seen := none, began := false, number := 0, exited := false }
  scheduler := ⟨[], .done⟩
  requests := []

/-- The calls of the server that save no scan from a copy. -/
def offScans : Op → Bool
  | .create _ _ | .upsertCVEs _ | .lease _ _ _ _ | .renew _ _ _ _ _ | .submit _ _ | .resumeCandidate _ _
  | .reassignExpired _ _ => true
  | _ => false

inductive WorldOp
  | server (op : Op)
  /-- a worker reports a result; if it is accepted, now or before, its projection starts -/
  | complete (receipt : WorkerJobResultReceipt) (tokenHash : TokenHash) (now : Time)
  | cancel (id : String)
  | launch (policy : Policy) (scan : Scan)
  /-- the next step of a request -/
  | request (i : Nat) (now : Time)
  | tick (policies : List Policy) (now : Time)
  /-- the next step of the scheduler's tick -/
  | resume (now : Time)
  | run (event : RunEvent)
  /-- `Shutdown` sets `e.closed`, and then cancels `e.ctx` -/
  | shutdown
  | stop

def World.step (Y : System) (W : World) : WorldOp → World
  | .server op =>
    if offScans op then { W with shared.db := L3.SqliteServer.step Y.server W.shared.db op } else W
  | .complete receipt tokenHash now =>
    match Sqlite.acceptResult W.shared.db receipt tokenHash now with
    | (.error _, db) => { W with shared.db := db }
    | (.ok _, db) =>
      { W with shared.db := db, requests := W.requests ++ [.projection (.start receipt)] }
  | .cancel id => { W with requests := W.requests ++ [.cancel (.start id)] }
  | .launch policy scan =>
    { W with requests := W.requests ++ [.launch (.start policy (queuedScan scan) none)] }
  | .request i now =>
    match W.requests[i]? with
    | none => W
    | some r =>
      { W with shared := (r.step Y W.shared now).1, requests := W.requests.set i (r.step Y W.shared now).2 }
  | .tick policies now => { W with scheduler := W.scheduler.start Y W.shared.db.scan policies now }
  | .resume now =>
    { W with
      shared := (W.scheduler.step Y W.shared now).1
      scheduler := (W.scheduler.step Y W.shared now).2 }
  | .run event =>
    { W with shared := (W.runner.step Y W.shared event).1, runner := (W.runner.step Y W.shared event).2 }
  | .shutdown => if W.shared.locked then W else { W with shared.closed := true }
  | .stop => if W.shared.closed then { W with shared.stopped := true } else W

/-- The save that a step makes. -/
def World.saves (W : World) : WorldOp → Option Pending
  | .request i _ => W.requests[i]?.bind Request.pending
  | .resume _ => W.scheduler.launching.pending
  | .run (.save _) => W.runner.pending
  | _ => none

/-! ## What a step stores -/

/-- Terminal statuses stay as they are stored. -/
def TerminalLasts (db db' : DB) : Prop :=
  Lasts (fun st : ScanStatus => st.terminal) (storedStatus db.scan) (storedStatus db'.scan)

theorem TerminalLasts.of_scans {db db' : DB} (h : db'.scan.scans = db.scan.scans) : TerminalLasts db db' := by
  unfold TerminalLasts storedStatus
  rw [h]
  exact .refl _

/-- A step makes the pending save, if there is one. -/
def Effect (Y : System) (db db' : DB) : Option Pending → Prop
  | some p => db' = (save Y.host db p.scan).2
  | none => TerminalLasts db db'

section
variable {Y : System} {s : Shared} {now : Time}

theorem Effect.same (db : DB) : Effect Y db db none := .of_scans rfl

theorem canceling_effect (c : Canceling) : Effect Y s.db (c.step Y s now).1.db c.pending := by
  cases c with
  | start id =>
    simp only [Canceling.step]
    split <;> exact .same _
  | flagging scan =>
    simp only [Canceling.step]
    split
    · exact .same _
    · split <;> exact .same _
  | signaling scan context => exact .same _
  | saving scan seen => exact rfl
  | done => exact .same _

theorem launching_effect (l : Launching) : Effect Y s.db (l.step Y s now).1.db l.pending := by
  cases l with
  | start pol scan seen =>
    simp only [Launching.step]
    split <;> exact .same _
  | scheduling scan seen =>
    simp only [Launching.step]
    split
    · exact .same _
    · split <;> exact .same _
  | enqueueing scan =>
    simp only [Launching.step]
    split <;> exact .same _
  | interrupting scan seen => exact rfl
  | dispatching scan sid ln =>
    -- the dispatch adds a job, or nothing
    simp only [Launching.step]
    split <;> rename_i h <;>
      rcases dispatchScan_cases h with ⟨e, -, rfl⟩ | ⟨ev, -, -, -, rfl⟩ <;> exact .of_scans rfl
  | failing scan seen => exact rfl
  | done => exact .same _
  | _ =>
    simp only [Launching.step, Launching.pending, Effect]
    split
    · rename_i h
      rw [h]
    · rename_i h
      rw [h]

theorem ticking_effect (k : Ticking) : Effect Y s.db (k.step Y s now).1.db k.launching.pending := by
  obtain ⟨todo, launching⟩ := k
  unfold Ticking.step
  split
  · rename_i h
    cases h
    exact .same _
  · rename_i h
    cases h
    exact launching_effect launching

theorem projecting_effect (p : Projecting) : Effect Y s.db (p.step Y s now).1.db p.pending := by
  cases p with
  | loadEvidence rc job scan => exact .same _
  | loadCheckpoints rc job scan obs fnds => exact .same _
  | matching scan seen obs =>
    cases obs with
    | nil => exact rfl
    | cons o obs => exact .same _
  | done => exact .same _
  | _ =>
    simp only [Projecting.step]
    split <;> exact .same _

theorem request_effect (r : Request) : Effect Y s.db (r.step Y s now).1.db r.pending := by
  cases r with
  | cancel c => exact canceling_effect c
  | launch l => exact launching_effect l
  | projection p => exact projecting_effect p

theorem running_save (E : Engine) (db : DB) {ph : Running} {scan : Scan} (h : saving ph = some scan)
    (now : Time) : (ph.step E db (.save now)).1 = (save E.host db scan).2 := by
  cases ph <;> cases h
  · simp only [Running.step, saveOrFail]
    split <;> rename_i hs <;> rw [hs]
  · rfl
  · simp only [Running.step, saveOrFail]
    split <;> rename_i hs <;> rw [hs]
  · rfl

theorem runner_db (r : Runner) {e : RunEvent} (h : ∀ now, e ≠ .save now) : (r.step Y s e).1.db = s.db := by
  cases e with
  | save now => exact absurd rfl (h now)
  | take =>
    simp only [Runner.step]
    split
    · split <;> rfl
    · rfl
  | begin now =>
    simp only [Runner.step]
    split
    · split
      · rfl
      · split <;> rfl
    · rfl
  | probe p => rfl
  | close byw now => rfl
  | endScan =>
    simp only [Runner.step]
    split <;> rfl
  | exit => rfl
  | drain now =>
    simp only [Runner.step]
    split
    · split
      · split <;> rfl
      · rfl
    · rfl

theorem runner_effect (r : Runner) (now : Time) : Effect Y s.db (r.step Y s (.save now)).1.db r.pending := by
  simp only [Runner.step, Runner.pending]
  cases h : saving r.phase with
  | none => exact .same _
  | some scan => exact running_save Y.engine s.db h now

theorem terminalLasts_quarantine (db : DB) (wid : String) (now : Time) :
    TerminalLasts db (quarantineRepeatedWorkerJobs sqlite db wid now) := by
  intro id st hs ht
  rw [storedStatus_quarantine, hs]
  cases st <;> simp_all [ScanStatus.terminal, ScanStatus.active]

theorem terminalLasts_server (S : Server) (db : DB) {op : Op} (ho : offScans op) :
    TerminalLasts db (L3.SqliteServer.step S db op) := by
  have hoff (hs : op.storesScans = false) : TerminalLasts db (L3.SqliteServer.step S db op) := by
    rcases step_scans S db hs with hs | ⟨wid, now, hs⟩
    · exact .of_scans (by rw [hs])
    · intro id st hst ht
      have hq := terminalLasts_quarantine db wid now id st hst ht
      rwa [storedStatus, ← hs] at hq
  cases op with
  | upsertCVEs recs => exact .of_scans (frame_upsertCVEs S.host db recs).1
  | launch | saveScan | complete => cases ho
  | _ => exact hoff rfl

/-- **What a step stores.** It makes the save its component waits for; any
other step leaves terminal statuses alone. -/
theorem saves_effect (Y : System) (W : World) (op : WorldOp) :
    Effect Y W.shared.db (W.step Y op).shared.db (W.saves op) := by
  cases op with
  | server op =>
    simp only [World.step]
    split
    · rename_i ho
      exact terminalLasts_server Y.server W.shared.db ho
    · exact .same _
  | complete rc tok now =>
    simp only [World.step]
    have hs : (Sqlite.acceptResult W.shared.db rc tok now).2.scan.scans =
        W.shared.db.scan.scans := by
      rcases complete_cases Y.host (fun _ => now) W.shared.db rc tok now with
        ⟨e, h, -⟩ | ⟨h, -⟩ | ⟨db', ha, -⟩
      · rw [h]
      · rw [h]
      · rw [ha.result, ha.jobs]
        rfl
    split <;> rename_i h <;> rw [h] at hs <;> exact .of_scans hs
  | cancel id => exact .same _
  | launch pol scan => exact .same _
  | request i now =>
    simp only [World.step, World.saves]
    cases h : W.requests[i]? with
    | none => exact .same _
    | some r => exact request_effect r
  | tick pols now => exact .same _
  | resume now => exact ticking_effect W.scheduler
  | run e1 =>
    cases e1 with
    | save now => exact runner_effect W.runner now
    | _ => exact .of_scans (by
        simp only [World.step]
        rw [runner_db]
        intro now h
        cases h)
  | _ =>
    simp only [World.step]
    split <;> exact .same _

end

end Mossward.L5.ScanActors
