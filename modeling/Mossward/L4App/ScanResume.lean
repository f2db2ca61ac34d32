import Mathlib.Data.List.ProdSigma
import Mossward.Core.Json
import Mossward.L3Protocol.SqliteServer
import Mossward.L4App.ScanEngine

/-!
# The checks of a scan over its runs

A run of a scan skips the checks that its scan has checkpoints of, hands the
others to workers one after the other, and adds a checkpoint for each result it
gets. It may end before all are done: at the end of its window, with the
process, or by a crash. A scan that is paused runs again, from what is stored.
`internal/scanner/scanner.go`, `ReconcileInterrupted` in
`internal/store/sqlite.go`.

The queue of checks, the workers, the results loop and the store calls move one
step at a time and in any order that the channels allow. Other components may
change the database in between, but for the scan's own row.

Results:
* `lifeInv_step`, `lifeInv_run`: the invariant of a scan's life.
* `jobKey_inj`, `remaining_perm`, `scan_checks_resumed`.
-/
namespace Mossward.L4.ScanResume

open Table Run L1.Rfc3339 Model L2.Schema List Small Bool
open L2.Intelligence L2.ScanStore L4.ScanEngine
open scoped List

/-! ## Checks -/

structure ScanJob where
  target : Target
  port : Int
deriving DecidableEq

/-- The address and port that a job checks. -/
def ScanJob.check (job : ScanJob) : String × Int := (job.target.address, job.port)

/-- `fmt.Sprintf("%s:%d", address, port)`. -/
def jobKey (address : String) (port : Int) : List Char := address.toList ++ ':' :: Json.integer port

/-- All checks of a scan, in the order of `queueJobs`. -/
def scanJobs (targets : List Target) (ports : List Int) : List ScanJob :=
  targets.flatMap fun target => ports.map fun port => ⟨target, port⟩

/-- The checks that `queueJobs`, `internal/scanner/scanner.go:506-542`, does not
skip. -/
def remainingJobs (scan : Scan) : List ScanJob :=
  let completed := scan.checkpoints.map fun c => jobKey c.address c.port
  (scanJobs scan.targets scan.ports).filter fun job => jobKey job.target.address job.port ∉ completed

/-! ## The life of a scan -/

structure Config extends Engine where
  maxConcurrent : Int

/-- Mirrors `startWorkers`, `internal/scanner/scanner.go:461-466`. -/
def workerCount (E : Config) (scan : Scan) : Int :=
  if scan.maxConcurrent < 1 || E.maxConcurrent < scan.maxConcurrent then E.maxConcurrent else scan.maxConcurrent

/-- Where `queueJobs` is: before its loop, in it, or done with what it
returned. -/
inductive Sending
  | opening
  | sending
  | closed (byWindow : Bool)
deriving DecidableEq

/-- A run: its phase, and the checks that are not sent yet and those that
workers have. -/
structure Checking where
  phase : Running
  sending : Sending
  unsent : List ScanJob
  inFlight : List ScanJob
deriving DecidableEq

inductive Stage
  | idle
  /-- in the engine's queue -/
  | waiting (scan : Scan)
  | running (checking : Checking)
deriving DecidableEq

structure Life where
  db : DB
  stage : Stage
  /-- `e.ctx` is canceled -/
  stopped : Bool
  /-- the checkpoints in the stored scan when the run began -/
  base : List (String × Int)
  /-- the checks that workers took in this run -/
  probed : List (String × Int)
deriving DecidableEq

inductive Op
  /-- the scheduler resumes the paused scan; the queue may be full -/
  | schedule (windowEnd : Option Time) (full : Bool) (now : Time)
  | begin (now : Time)
  /-- `queueJobs` reads the clock, maybe after the window -/
  | openQueue (late : Bool)
  /-- a worker takes the next check -/
  | send
  | windowEnds
  /-- `queueJobs` is through, or sees the context canceled -/
  | closeQueue
  | report (r : ProbeResult)
  /-- a worker sees the context canceled instead of delivering its result -/
  | drop (job : ScanJob)
  | close (now : Time)
  /-- the store call that the run waits for -/
  | save (now : Time)
  /-- `Shutdown` cancels the context -/
  | shutdown
  /-- `Shutdown` interrupts what is left in the queue -/
  | drain (now : Time)
  /-- the process ends, in order or by a crash, and another one starts -/
  | restart (now : Time)
  | other (db : DB)

/-- The engine's copy while it probes. -/
def probingScan : Running → Option Scan
  | .probing scan _ => some scan
  | .progressing scan _ => some scan
  | _ => none

/-- A run is over when its phase is. -/
def staged (checking : Checking) : Stage := if checking.phase = .done then .idle else .running checking

/-- Mirrors `Schedule`, `internal/scanner/scanner.go:275-292`, of a scan that
the scheduler resumes. -/
def Life.schedule (E : Config) (id : String) (w : Life) (windowEnd : Option Time) (full : Bool) (now : Time) : Life :=
  match get w.db.scan id with
  | .error _ => w
  | .ok stored =>
    if stored.status ≠ .paused || w.stopped then w
    else
      let scan := { stored with status := .queued, error := "", windowEnd := windowEnd }
      match save E.host w.db scan with
      | (.error _, db) => { w with db := db }
      | (.ok (), db) =>
        if full then { w with db := (save E.host db (interruptedScan scan "scan queue is full" now)).2 }
        else { w with db := db, stage := .waiting scan }

/-- The start of `queueJobs`: it sends nothing if the window has ended. -/
def Checking.openQueue (c : Checking) (late : Bool) (scan : Scan) : Checking :=
  if c.sending = .opening then
    { c with sending := if scan.windowEnd.isSome && late then .closed true else .sending }
  else c

/-- The timer of the window fires while a check waits to be taken. -/
def Checking.windowEnds (c : Checking) (scan : Scan) : Checking :=
  if c.sending = .sending && c.unsent ≠ [] && scan.windowEnd.isSome then { c with sending := .closed true } else c

def Checking.closeQueue (c : Checking) (stopped : Bool) : Checking :=
  if c.sending = .sending && (c.unsent = [] || stopped) then { c with sending := .closed false } else c

/-- The check that an idle worker takes. -/
def Checking.next (E : Config) (c : Checking) (scan : Scan) : Option (ScanJob × Checking) :=
  match c.sending, c.unsent with
  | .sending, job :: rest =>
    if c.inFlight.length < workerCount E scan then
      some (job, { c with unsent := rest, inFlight := job :: c.inFlight })
    else none
  | _, _ => none

/-- A step of the queue and the workers, while the run probes. -/
def Life.check (E : Config) (w : Life) (c : Checking) (scan : Scan) : Op → Life
  | .openQueue late => { w with stage := .running (c.openQueue late scan) }
  | .send =>
    match c.next E scan with
    | some (job, c) => { w with stage := .running c, probed := w.probed ++ [job.check] }
    | none => w
  | .windowEnds => { w with stage := .running (c.windowEnds scan) }
  | .closeQueue => { w with stage := .running (c.closeQueue w.stopped) }
  | .drop job => if w.stopped then { w with stage := .running { c with inFlight := c.inFlight.erase job } } else w
  | _ => w

/-- The results loop takes a result. -/
def Life.report (E : Config) (w : Life) (c : Checking) (r : ProbeResult) : Life :=
  match c.phase with
  | .probing _ _ =>
    if ⟨r.target, r.port⟩ ∈ c.inFlight then
      { w with stage := .running { c with
          phase := (c.phase.step E.toEngine w.db (.probe r)).2
          inFlight := c.inFlight.erase ⟨r.target, r.port⟩ } }
    else w
  | _ => w

/-- The results loop ends when `queueJobs` and the workers have. -/
def Life.close (E : Config) (w : Life) (c : Checking) (now : Time) : Life :=
  match c.phase, c.sending with
  | .probing _ _, .closed byWindow =>
    if c.inFlight = [] then
      let how := if w.stopped then Closing.shutdown else .drained byWindow
      { w with stage := .running { c with phase := (c.phase.step E.toEngine w.db (.close how now)).2 } }
    else w
  | _, _ => w

/-- Mirrors `run`, `processJobs`, `queueJobs` and `Shutdown`,
`internal/scanner/scanner.go:319-542`. -/
def Life.step (E : Config) (id : String) (w : Life) (op : Op) : Life :=
  match op, w.stage with
  | .shutdown, _ => { w with stopped := true }
  | .restart now, _ => { w with db := reconcileInterrupted w.db now, stage := .idle, stopped := false }
  | .other db, _ => if storedRow db.scan id = storedRow w.db.scan id then { w with db := db } else w
  | .schedule windowEnd full now, .idle => w.schedule E id windowEnd full now
  | .begin now, .waiting scan =>
    { w with
      stage := .running
        { phase := .starting (startedScan scan now) now, sending := .opening, unsent := remainingJobs scan
          inFlight := [] }
      base := (storedRow w.db.scan id).elim [] fun r => r.checkpoints.map checkpointKey
      probed := [] }
  | .drain now, .waiting scan =>
    if w.stopped then
      { w with
        db := (save E.host w.db (interruptedScan scan "scan canceled during process shutdown" now)).2
        stage := .idle }
    else w
  | .report r, .running c => w.report E c r
  | .close now, .running c => w.close E c now
  | .save now, .running c =>
    { w with
      db := (c.phase.step E.toEngine w.db (.save now)).1
      stage := staged { c with phase := (c.phase.step E.toEngine w.db (.save now)).2 } }
  | op, .running c =>
    match probingScan c.phase with
    | some scan => w.check E c scan op
    | none => w
  | _, _ => w

/-- A new scan, stored and in the engine's queue. -/
def Life.start (E : Config) (db : DB) (scan : Scan) : Life where
  db := (save E.host db scan).2
  stage := .waiting scan
  stopped := false
  base := []
  probed := []

/-! ## All checks -/

def checks (targets : List Target) (ports : List Int) : List (String × Int) := (targets.map (·.address)) ×ˢ ports

/-- The checks that a scan has checkpoints of. -/
def checked (checkpoints : List ScanCheckpoint) : List (String × Int) := checkpoints.map checkpointKey

section
variable {targets : List Target} {ports : List Int}

theorem scanJobs_checks (tgts : List Target) (ports : List Int) :
    (scanJobs tgts ports).map ScanJob.check = checks tgts ports := by
  induction tgts with
  | nil => rfl
  | cons tgt tgts ih =>
    have hf : (ports.map fun port => (⟨tgt, port⟩ : ScanJob)).map ScanJob.check =
        ports.map fun port => (tgt.address, port) := by
      rw [map_map]
      rfl
    rw [scanJobs, flatMap_cons, map_append, hf]
    exact congrArg (_ ++ ·) ih

theorem length_checks (tgts : List Target) (ports : List Int) :
    (checks tgts ports).length = tgts.length * ports.length := by
  rw [checks, length_product, length_map]

theorem colon_notMem_integer (n : Int) : ':' ∉ Json.integer n := by
  have hd : ∀ m, ':' ∉ Nat.toDigits 10 m := by
    intro m hm
    have hdi := Json.isDigit_toDigits hm
    cases hdi
  cases n with
  | ofNat n => exact hd n
  | negSucc n =>
    intro hm
    rcases mem_cons.mp hm with hmi | hm
    · cases hmi
    · exact hd (n + 1) hm

theorem append_colon_inj {x x' y y' : List Char} (hy : ':' ∉ y) (hy' : ':' ∉ y')
    (h : x ++ ':' :: y = x' ++ ':' :: y') : x = x' ∧ y = y' := by
  have hl : ∀ {x y : List Char}, ':' ∉ y → ((x ++ ':' :: y).reverse.takeWhile (· ≠ ':')) = y.reverse := by
    intro x y hy
    rw [reverse_append, reverse_cons, append_assoc, takeWhile_append_of_pos]
    · simp
    · intro c hc
      refine decide_eq_true fun hco => hy ?_
      rw [← hco]
      exact mem_reverse.mp hc
  have hyy : y = y' := by
    have hb := congrArg (fun l : List Char => l.reverse.takeWhile (· ≠ ':')) h
    simp only [hl hy, hl hy'] at hb
    exact reverse_injective hb
  subst hyy
  exact ⟨append_cancel_right h, rfl⟩

/-- **Result.** Address and port can be read off the text that marks a check as
completed, also for IPv6 addresses: a port has no colon. -/
theorem jobKey_inj {a a' : String} {p p' : Int} : jobKey a p = jobKey a' p' ↔ a = a' ∧ p = p' := by
  constructor
  · intro h
    obtain ⟨ha, hp⟩ := append_colon_inj (colon_notMem_integer p) (colon_notMem_integer p') h
    have hr : ∀ n, Json.number (Json.integer n) = some (n, []) := by
      intro n
      have hn := Json.number_integer n (show Json.NoDigit [] from fun _ hc => by cases hc)
      rwa [append_nil] at hn
    have hs := (hr p).symm.trans ((congrArg Json.number hp).trans (hr p'))
    exact ⟨String.toList_inj.mp ha, congrArg Prod.fst (Option.some.inj hs)⟩
  · rintro ⟨rfl, rfl⟩
    rfl

theorem remainingJobs_checks (scan : Scan) : (remainingJobs scan).map ScanJob.check =
    (checks scan.targets scan.ports).filter (· ∉ checked scan.checkpoints) := by
  have hm : ∀ job : ScanJob,
      jobKey job.target.address job.port ∈ (scan.checkpoints.map fun c => jobKey c.address c.port) ↔
        job.check ∈ checked scan.checkpoints := by
    intro job
    simp only [checked, mem_map, jobKey_inj, checkpointKey, ScanJob.check, Prod.mk.injEq]
  rw [← scanJobs_checks, filter_map]
  unfold remainingJobs
  simp only [hm]
  rfl

theorem nodup_of_subperm {α : Type} {l l' : List α} (h : l <+~ l') (hn : l'.Nodup) : l.Nodup := by
  obtain ⟨m, hp, hs⟩ := h
  exact hp.nodup_iff.mp (hn.sublist hs)

theorem checks_nodup (ht : (targets.map (·.address)).Nodup) (hp : ports.Nodup) :
    (checks targets ports).Nodup :=
  ht.product hp

/-- **Result.** What is checkpointed and what a run is to do make up all
checks. -/
theorem remaining_perm {scan : Scan} (hn : (checks scan.targets scan.ports).Nodup)
    (hs : checked scan.checkpoints <+~ checks scan.targets scan.ports) :
    checked scan.checkpoints ++ (remainingJobs scan).map ScanJob.check ~ checks scan.targets scan.ports := by
  rw [remainingJobs_checks]
  exact append_filter_notMem_perm (nodup_of_subperm hs hn) hn hs.subset

end

/-! ## Sound copies -/

section
variable {targets : List Target} {ports : List Int} {id : String} {E : Config}

/-- A row of the scan whose checkpoints are checks of the scan, each once. -/
structure Sound (targets : List Target) (ports : List Int) (r : ScanRow) : Prop where
  sameTargets : r.targets = targets
  samePorts : r.ports = ports
  distinct : checked r.checkpoints <+~ checks targets ports
  done : r.doneChecks = r.checkpoints.length
  total : r.totalChecks = targets.length * ports.length
  all : r.status = .completed → checks targets ports <+~ checked r.checkpoints

theorem Sound.course {r r' : ScanRow} (h : Sound targets ports r) (ht : r'.targets = r.targets)
    (hp : r'.ports = r.ports) (hc : r'.checkpoints = r.checkpoints)
    (hd : r'.doneChecks = r.doneChecks) (hto : r'.totalChecks = r.totalChecks)
    (hco : r'.status = .completed → checks targets ports <+~ checked r.checkpoints) :
    Sound targets ports r' := by
  refine ⟨ht.trans h.sameTargets, hp.trans h.samePorts, ?_, ?_, hto.trans h.total, ?_⟩
  · rw [hc]
    exact h.distinct
  · rw [hd, hc]
    exact h.done
  · rw [hc]
    exact hco

/-- A copy of the scan that can be stored. -/
structure Copy (targets : List Target) (ports : List Int) (id : String) (scan : Scan) : Prop where
  id : scan.id = id
  sound : Sound targets ports (scanRow scan)

variable {scan : Scan}

section
variable (h : Copy targets ports id scan)
include h

theorem Copy.started (now : Time) : Copy targets ports id (startedScan scan now) := by
  refine ⟨h.id, h.sound.sameTargets, h.sound.samePorts, h.sound.distinct, rfl, ?_, fun hc => by cases hc⟩
  have ht : scan.targets = targets := h.sound.sameTargets
  have hp : scan.ports = ports := h.sound.samePorts
  simp only [scanRow, startedScan, ht, hp]

theorem Copy.failed (msg : String) (now : Time) : Copy targets ports id (failScan scan msg now) :=
  ⟨h.id, h.sound.course rfl rfl rfl rfl rfl fun hc => by cases hc⟩

theorem Copy.interrupted (msg : String) (now : Time) :
    Copy targets ports id (interruptedScan scan msg now) := by
  unfold interruptedScan
  split
  · exact h.failed msg now
  · exact ⟨h.id, h.sound.course rfl rfl rfl rfl rfl fun hc => by cases hc⟩

theorem Copy.paused (sta now : Time) : Copy targets ports id (pausedScan scan sta now) :=
  ⟨h.id, h.sound.course rfl rfl rfl rfl rfl fun hc => by cases hc⟩

theorem Copy.completed (ha : checks targets ports <+~ checked scan.checkpoints)
    (sta now : Time) : Copy targets ports id (completedScan scan sta now) :=
  ⟨h.id, h.sound.course rfl rfl rfl rfl rfl fun _ => ha⟩

end

theorem addResult_course (h : Host) (t : ScanTables) (scan : Scan) (r : ProbeResult) :
    (addResult h t scan r).targets = scan.targets ∧ (addResult h t scan r).ports = scan.ports ∧
      (addResult h t scan r).doneChecks = scan.doneChecks + 1 ∧
      (addResult h t scan r).totalChecks = scan.totalChecks ∧
      (addResult h t scan r).checkpoints = scan.checkpoints ++ [⟨r.target.address, r.port, r.completedAt⟩] := by
  unfold addResult
  cases r.found <;> exact ⟨rfl, rfl, rfl, rfl, rfl⟩

theorem checked_addResult (h : Host) (t : ScanTables) (scan : Scan) (r : ProbeResult) :
    checked (addResult h t scan r).checkpoints = checked scan.checkpoints ++ [(r.target.address, r.port)] := by
  rw [(addResult_course h t scan r).2.2.2.2]
  exact map_append

theorem Copy.result (hco : Copy targets ports id scan) (hr : scan.status ≠ .completed) (h : Host)
    (t : ScanTables) (r : ProbeResult)
    (hs : checked scan.checkpoints ++ [(r.target.address, r.port)] <+~ checks targets ports) :
    Copy targets ports id (addResult h t scan r) := by
  obtain ⟨ht, hp, hd, hto, hc⟩ := addResult_course h t scan r
  refine ⟨(addResult_id h t scan r).trans hco.id, ht.trans hco.sound.sameTargets, hp.trans hco.sound.samePorts, ?_,
    ?_, hto.trans hco.sound.total, fun hcom => ?_⟩
  · change checked (addResult h t scan r).checkpoints <+~ _
    rw [checked_addResult]
    exact hs
  · have hdo : scan.doneChecks = scan.checkpoints.length := hco.sound.done
    change (addResult h t scan r).doneChecks = ((addResult h t scan r).checkpoints.length : Int)
    rw [hd, hc, hdo, length_append]
    rfl
  · exact absurd ((addResult_status h t scan r).symm.trans hcom) hr

/-! ## What is stored -/

/-- The scan is stored, and its row is sound. -/
def Stored (targets : List Target) (ports : List Int) (id : String) (db : DB) : Prop :=
  ∃ r, storedRow db.scan id = some r ∧ Sound targets ports r

variable {db : DB}

theorem stored_save (hst : Stored targets ports id db) (hc : Copy targets ports id scan) (h : Host) :
    Stored targets ports id (save h db scan).2 := by
  cases hs : save h db scan with
  | mk res db' =>
    rcases save_cases hs with ⟨e, -, rfl⟩ | ⟨-, -, a, -, rfl⟩
    · exact hst
    · refine ⟨scanRow scan, ?_, hc.sound⟩
      exact (storedRow_replaced db.scan scan id).trans (if_pos hc.id.symm)

theorem Stored.reconciled (h : Stored targets ports id db) (now : Time) :
    Stored targets ports id (reconcileInterrupted db now) := by
  obtain ⟨r, hr, hs⟩ := h
  refine ⟨reconciledRow now r, ?_, ?_⟩
  · rw [storedRow_reconciled, hr]
    rfl
  · unfold reconciledRow interruptedRow
    split
    · split <;> exact hs.course rfl rfl rfl rfl rfl fun hc => by cases hc
    · exact hs

theorem Stored.copy (h : Stored targets ports id db) {sto : Scan} (hg : get db.scan id = .ok sto) :
    Copy targets ports id sto := by
  obtain ⟨r, hr, hs⟩ := h
  obtain ⟨r', hr', rfl⟩ := get_ok_iff.mp hg
  rw [hr] at hr'
  cases hr'
  have hp : (scanRow (loadScan db.scan r)).checkpoints ~ r.checkpoints := perm_insertionSort _ _
  have hch : checked (scanRow (loadScan db.scan r)).checkpoints ~ checked r.checkpoints := hp.map _
  refine ⟨(storedRow_mem hr).2, hs.sameTargets, hs.samePorts, ?_, ?_, hs.total, fun hc => ?_⟩
  · exact hch.subperm.trans hs.distinct
  · rw [hp.length_eq]
    exact hs.done
  · exact (hs.all hc).trans hch.symm.subperm

/-! ## A run -/

/-- The copy of a run that probes, or is about to. -/
def activeScan : Running → Option Scan
  | .starting scan _ => some scan
  | .probing scan _ => some scan
  | .progressing scan _ => some scan
  | _ => none

/-- The copy of a run that has only to store it. -/
def leavingScan : Running → Option Scan
  | .concluding scan => some scan
  | .finishing scan => some scan
  | _ => none

/-- The checks of a run: done, with workers, or to be sent. -/
def Checking.parts (c : Checking) (scan : Scan) : List (String × Int) :=
  checked scan.checkpoints ++ (c.inFlight.map ScanJob.check ++ c.unsent.map ScanJob.check)

structure Underway (targets : List Target) (ports : List Int) (id : String) (stopped : Bool)
    (base : List (String × Int)) (c : Checking) (scan : Scan) : Prop where
  copy : Copy targets ports id scan
  open_ : scan.status ≠ .completed
  distinct : c.parts scan <+~ checks targets ports
  /-- a check gets lost only when the context is canceled -/
  whole : stopped = false → checks targets ports <+~ c.parts scan
  through : c.sending = .closed false → stopped = false → c.unsent = []
  base : base ⊆ checked scan.checkpoints

variable {stopped : Bool} {base : List (String × Int)} {c : Checking}

section
variable (h : Underway targets ports id stopped base c scan)
include h

theorem Underway.sending {now : Sending} (ht : now = .closed false → stopped = false → c.unsent = []) :
    Underway targets ports id stopped base { c with sending := now } scan :=
  ⟨h.copy, h.open_, h.distinct, h.whole, ht, h.base⟩

theorem Underway.openQueue (late : Bool) :
    Underway targets ports id stopped base (c.openQueue late scan) scan := by
  unfold Checking.openQueue
  split
  · refine h.sending fun hc => ?_
    split at hc <;> cases hc
  · exact h

theorem Underway.windowEnds : Underway targets ports id stopped base (c.windowEnds scan) scan := by
  unfold Checking.windowEnds
  split
  · exact h.sending fun hc => by cases hc
  · exact h

theorem Underway.closeQueue : Underway targets ports id stopped base (c.closeQueue stopped) scan := by
  unfold Checking.closeQueue
  split
  · rename_i he
    simp only [and_eq_true, or_eq_true, decide_eq_true_eq] at he
    refine h.sending fun _ hr => ?_
    rcases he.2 with hn | hs
    · exact hn
    · rw [hr] at hs
      cases hs
  · exact h

theorem Underway.next (hno : (checks targets ports).Nodup)
    {job : ScanJob} {c' : Checking} (hn : c.next E scan = some (job, c')) :
    Underway targets ports id stopped base c' scan ∧ c'.phase = c.phase ∧ job.check ∉ base := by
  unfold Checking.next at hn
  split at hn
  · rename_i rest hse hu
    split at hn
    · cases hn
      have hp : Checking.parts { c with unsent := rest, inFlight := job :: c.inFlight } scan ~ c.parts scan := by
        refine List.Perm.append_left _ ?_
        rw [hu]
        exact perm_middle.symm
      refine ⟨⟨h.copy, h.open_, hp.subperm.trans h.distinct, fun hs => (h.whole hs).trans hp.symm.subperm,
        fun hc => ?_, h.base⟩, rfl, fun hb => ?_⟩
      · rw [show c.sending = .closed false from hc] at hse
        cases hse
      · have hpa := nodup_of_subperm h.distinct hno
        refine disjoint_of_nodup_append hpa (h.base hb) ?_
        rw [hu]
        simp
    · cases hn
  · cases hn

end

theorem Underway.drop (h : Underway targets ports id true base c scan) (job : ScanJob) :
    Underway targets ports id true base { c with inFlight := c.inFlight.erase job } scan := by
  refine ⟨h.copy, h.open_, List.Subperm.trans ?_ h.distinct, fun hs => (by cases hs), fun _ hs => (by cases hs),
    h.base⟩
  refine (List.Sublist.append_left (List.Sublist.append_right ?_ _) _).subperm
  exact (erase_sublist).map _

theorem Underway.report (h : Underway targets ports id stopped base c scan) (ho : Host) (t : ScanTables)
    {r : ProbeResult} (hr : ⟨r.target, r.port⟩ ∈ c.inFlight) (phase : Running) :
    Underway targets ports id stopped base
      { c with phase := phase, inFlight := c.inFlight.erase ⟨r.target, r.port⟩ } (addResult ho t scan r) := by
  have hp : Checking.parts { c with phase := phase, inFlight := c.inFlight.erase ⟨r.target, r.port⟩ }
      (addResult ho t scan r) ~ c.parts scan := by
    unfold Checking.parts
    rw [checked_addResult, append_assoc]
    refine List.Perm.append_left _ ?_
    exact List.Perm.append_right _ ((perm_cons_erase hr).map ScanJob.check).symm
  have hd := hp.subperm.trans h.distinct
  refine ⟨h.copy.result h.open_ ho t r ?_, ?_, hd, fun hs => (h.whole hs).trans hp.symm.subperm,
    h.through, fun k hk => ?_⟩
  · rw [← checked_addResult ho t]
    exact (sublist_append_left _ _).subperm.trans hd
  · rw [addResult_status]
    exact h.open_
  · rw [checked_addResult]
    exact mem_append_left _ (h.base hk)

theorem Underway.all (h : Underway targets ports id false base c scan) (hi : c.inFlight = []) {byWindow : Bool}
    (hc : c.sending = .closed byWindow)
    (he : (byWindow && scan.doneChecks < scan.totalChecks) = false) :
    checks targets ports <+~ checked scan.checkpoints := by
  have hw := h.whole rfl
  unfold Checking.parts at hw
  rw [hi, map_nil, nil_append] at hw
  cases byWindow with
  | false =>
    rw [h.through hc rfl, map_nil, append_nil] at hw
    exact hw
  | true =>
    -- as many checkpoints as checks, and all distinct
    have hd : scan.doneChecks = scan.checkpoints.length := h.copy.sound.done
    have ht : scan.totalChecks = targets.length * ports.length := h.copy.sound.total
    have hl : (checks targets ports).length ≤ (checked scan.checkpoints).length := by
      rw [length_checks, checked, length_map]
      simp only [Bool.true_and, decide_eq_false_iff_not] at he
      omega
    exact (h.copy.sound.distinct.perm_of_length_le hl).symm.subperm

/-! ## The life of a scan -/

structure LifeInv (targets : List Target) (ports : List Int) (id : String) (w : Life) : Prop where
  stored : Stored targets ports id w.db
  /-- no check that the stored scan had made is made again -/
  apart : ∀ k ∈ w.probed, k ∉ w.base
  waiting : ∀ scan, w.stage = .waiting scan → Copy targets ports id scan ∧ scan.status ≠ .completed ∧
    ∀ r, storedRow w.db.scan id = some r → checked r.checkpoints = checked scan.checkpoints
  running : ∀ c, w.stage = .running c → ∀ scan, activeScan c.phase = some scan →
    Underway targets ports id w.stopped w.base c scan
  leaving : ∀ c, w.stage = .running c → ∀ scan, leavingScan c.phase = some scan → Copy targets ports id scan

variable {w : Life}

section
variable (h : LifeInv targets ports id w)
include h

theorem LifeInv.idle (hd : Stored targets ports id db) (stopped : Bool) :
    LifeInv targets ports id { w with db := db, stage := .idle, stopped := stopped } :=
  ⟨hd, h.apart, fun _ hs => (by cases hs), fun _ hs => (by cases hs), fun _ hs => (by cases hs)⟩

theorem LifeInv.after {c : Checking} (hd : Stored targets ports id db)
    (ha : ∀ scan, activeScan c.phase = some scan → Underway targets ports id w.stopped w.base c scan)
    (hl : ∀ scan, leavingScan c.phase = some scan → Copy targets ports id scan) :
    LifeInv targets ports id { w with db := db, stage := .running c } := by
  refine ⟨hd, h.apart, fun _ hs => (by cases hs), fun c' hs => ?_, fun c' hs => ?_⟩
  · cases hs
    exact ha
  · cases hs
    exact hl

theorem lifeInv_shutdown : LifeInv targets ports id { w with stopped := true } := by
  refine ⟨h.stored, h.apart, h.waiting, fun c hc scan hsc => ?_, h.leaving⟩
  have hu := h.running c hc scan hsc
  exact ⟨hu.copy, hu.open_, hu.distinct, fun hs => (by cases hs), fun _ hs => (by cases hs), hu.base⟩

theorem lifeInv_other
    (hsa : storedRow db.scan id = storedRow w.db.scan id) : LifeInv targets ports id { w with db := db } := by
  refine ⟨?_, h.apart, fun scan hs => ?_, h.running, h.leaving⟩
  · obtain ⟨r, hr, hso⟩ := h.stored
    exact ⟨r, hsa.trans hr, hso⟩
  · obtain ⟨hc, ho, hro⟩ := h.waiting scan hs
    exact ⟨hc, ho, fun r hr => hro r (hsa.symm.trans hr)⟩

theorem lifeInv_schedule (windowEnd : Option Time) (full : Bool) (now : Time)
    (hi : w.stage = .idle) : LifeInv targets ports id (w.schedule E id windowEnd full now) := by
  have hk : ∀ {db : DB}, Stored targets ports id db → LifeInv targets ports id { w with db := db } := by
    intro db hd
    refine ⟨hd, h.apart, fun _ hs => ?_, fun _ hs => ?_, fun _ hs => ?_⟩
    all_goals
      rw [hi] at hs
      cases hs
  unfold Life.schedule
  split
  · exact h
  rename_i sto hg
  split
  · exact h
  have hco : Copy targets ports id { sto with status := .queued, error := "", windowEnd := windowEnd } := by
    have hst := h.stored.copy hg
    exact ⟨hst.id, hst.sound.course rfl rfl rfl rfl rfl fun hc => by cases hc⟩
  have hsa := stored_save h.stored hco E.host
  dsimp only
  split
  · rename_i e db hs
    rw [hs] at hsa
    exact hk hsa
  rename_i db hs
  rw [hs] at hsa
  split
  · exact hk (stored_save hsa (hco.interrupted _ now) E.host)
  refine ⟨hsa, h.apart, fun scan hsta => ?_, fun _ hs => (by cases hs), fun _ hs => (by cases hs)⟩
  cases hsta
  refine ⟨hco, fun hc => (by cases hc), fun r hr => ?_⟩
  rcases save_cases hs with ⟨e, hn, -⟩ | ⟨-, -, a, -, rfl⟩
  · cases hn
  have hro := (storedRow_replaced w.db.scan
    { sto with status := .queued, error := "", windowEnd := windowEnd } id).trans (if_pos hco.id.symm)
  cases hr.symm.trans hro
  rfl

theorem lifeInv_begin (hn : (checks targets ports).Nodup)
    (hst : w.stage = .waiting scan) (now : Time) : LifeInv targets ports id (w.step E id (.begin now)) := by
  obtain ⟨hco, ho, hro⟩ := h.waiting scan hst
  have ht : scan.targets = targets := hco.sound.sameTargets
  have hp : scan.ports = ports := hco.sound.samePorts
  have hpe : checked scan.checkpoints ++ (remainingJobs scan).map ScanJob.check ~ checks targets ports := by
    have hre := @remaining_perm scan
    rw [ht, hp] at hre
    exact hre hn hco.sound.distinct
  simp only [Life.step, hst]
  refine ⟨h.stored, fun k hk => (by cases hk), fun _ hs => (by cases hs), fun c hs scan' hs' => ?_,
    fun c hs scan' hs' => ?_⟩
  · cases hs
    cases hs'
    refine ⟨hco.started now, fun hc => (by cases hc), hpe.subperm, fun _ => hpe.symm.subperm,
      fun hcl => (by cases hcl), ?_⟩
    obtain ⟨r, hr, -⟩ := h.stored
    rw [hr]
    exact fun k hk => (hro r hr) ▸ hk
  · cases hs
    cases hs'

theorem lifeInv_report (hs : w.stage = .running c) (r : ProbeResult) :
    LifeInv targets ports id (w.report E c r) := by
  unfold Life.report
  split
  · rename_i scan sta hp
    split
    · rename_i hr
      have hre := fun ph => (h.running c hs scan (by rw [hp]; rfl)).report E.host w.db.scan hr ph
      rw [hp]
      -- the run goes on to probe, or to store its progress
      have hca : (Running.step E.toEngine w.db (.probing scan sta) (.probe r)).2 =
            .progressing (addResult E.host w.db.scan scan r) sta ∨
          (Running.step E.toEngine w.db (.probing scan sta) (.probe r)).2 =
            .probing (addResult E.host w.db.scan scan r) sta := by
        simp only [Running.step]
        split
        · exact .inl rfl
        · exact .inr rfl
      refine h.after h.stored (fun scan' hs' => ?_) fun scan' hs' => ?_
      all_goals
        rcases hca with hc | hc
        all_goals
          simp only [hc] at hs'
          cases hs'
      · exact hre _
      · exact hre _
    · exact h
  · exact h

/-- The outcome of a run is a sound copy; a completed one has made all
checks. -/
theorem lifeInv_close (hst : w.stage = .running c) (now : Time) :
    LifeInv targets ports id (w.close E c now) := by
  unfold Life.close
  split
  · rename_i scan sta byWindow hp hc
    split
    · rename_i hi
      have hu := h.running c hst scan (by rw [hp]; rfl)
      have hco : ∀ scan', leavingScan (closed scan sta now
          (if w.stopped then Closing.shutdown else .drained byWindow)) = some scan' → Copy targets ports id scan' := by
        intro scan' hs'
        cases hs : w.stopped with
        | true =>
          rw [hs] at hs'
          cases hs'
          exact hu.copy.interrupted _ now
        | false =>
          rw [hs] at hs' hu
          simp only [false_eq_true, if_false, closed] at hs'
          split at hs'
          · cases hs'
            exact hu.copy.paused sta now
          · rename_i he
            cases hs'
            exact hu.copy.completed (hu.all hi hc (by simpa using he)) sta now
      have ha : ∀ ho, activeScan (closed scan sta now ho) = none := by
        intro ho
        cases ho with
        | shutdown => rfl
        | canceled => rfl
        | drained b =>
          simp only [closed]
          split <;> rfl
      rw [hp]
      refine h.after h.stored (fun scan' hs' => ?_) hco
      cases (ha _).symm.trans hs'
    · exact h
  · exact h

end

/-- The copy that a run holds. -/
def heldScan (phase : Running) : Option Scan := (activeScan phase).or (leavingScan phase)

theorem save_phase (E : Engine) (db : DB) (ph : Running) (now : Time) : ((ph.step E db (.save now)).1 = db ∨
      ∃ scan, heldScan ph = some scan ∧ (ph.step E db (.save now)).1 = (save E.host db scan).2) ∧
    (∀ scan, activeScan (ph.step E db (.save now)).2 = some scan → activeScan ph = some scan) ∧
    ∀ scan, leavingScan (ph.step E db (.save now)).2 = some scan →
      ∃ he msg, heldScan ph = some he ∧ scan = failScan he msg now := by
  have ho : ∀ scan next, (saveOrFail E db scan now next).1 = (save E.host db scan).2 ∧
      ((saveOrFail E db scan now next).2 = next ∨
        ∃ msg, (saveOrFail E db scan now next).2 = .finishing (failScan scan msg now)) := by
    intro scan next
    unfold saveOrFail
    split
    · rename_i hs
      exact ⟨by rw [hs], .inl rfl⟩
    · rename_i e _ hs
      exact ⟨by rw [hs], .inr ⟨E.errorText e, rfl⟩⟩
  cases ph with
  | progressing scan sta => exact ⟨.inr ⟨scan, rfl, rfl⟩, fun _ h => h, fun _ h => by cases h⟩
  | finishing scan =>
    exact ⟨.inr ⟨scan, rfl, rfl⟩, fun _ h => (by cases h), fun _ h => by cases h⟩
  | starting scan sta =>
    obtain ⟨hd, hn⟩ := ho scan (.probing scan sta)
    refine ⟨.inr ⟨scan, rfl, hd⟩, fun scan' h => ?_, fun scan' h => ?_⟩
    all_goals
      simp only [Running.step] at h
      rcases hn with hn | ⟨msg, hn⟩
      all_goals
        rw [hn] at h
        cases h
    · rfl
    · exact ⟨scan, msg, rfl, rfl⟩
  | concluding scan =>
    obtain ⟨hd, hn⟩ := ho scan .done
    refine ⟨.inr ⟨scan, rfl, hd⟩, fun scan' h => ?_, fun scan' h => ?_⟩
    all_goals
      simp only [Running.step] at h
      rcases hn with hn | ⟨msg, hn⟩
      all_goals
        rw [hn] at h
        cases h
    exact ⟨scan, msg, rfl, rfl⟩
  | _ => exact ⟨.inl rfl, fun _ h => h, fun _ h => by cases h⟩

section
variable (h : LifeInv targets ports id w)
include h

theorem lifeInv_save (hst : w.stage = .running c) (now : Time) :
    LifeInv targets ports id (w.step E id (.save now)) := by
  have hh : ∀ scan, heldScan c.phase = some scan → Copy targets ports id scan := by
    intro scan hs
    rcases Option.or_eq_some_iff.mp hs with ha | ⟨-, hl⟩
    · exact (h.running c hst scan ha).copy
    · exact h.leaving c hst scan hl
  obtain ⟨hd, ha, hl⟩ := save_phase E.toEngine w.db c.phase now
  have hsto : Stored targets ports id (c.phase.step E.toEngine w.db (.save now)).1 := by
    rcases hd with hsam | ⟨scan, hs, hsa⟩
    · rw [hsam]
      exact h.stored
    · rw [hsa]
      exact stored_save h.stored (hh scan hs) E.host
  simp only [Life.step, hst, staged]
  split
  · exact h.idle hsto w.stopped
  refine h.after hsto (fun scan hs => ?_) fun scan hs => ?_
  · have hu := h.running c hst scan (ha scan hs)
    exact ⟨hu.copy, hu.open_, hu.distinct, hu.whole, hu.through, hu.base⟩
  · obtain ⟨he, msg, hs', rfl⟩ := hl scan hs
    exact (hh he hs').failed msg now

theorem lifeInv_check (hn : (checks targets ports).Nodup)
    (hsta : w.stage = .running c) (hs : probingScan c.phase = some scan) (op : Op) :
    LifeInv targets ports id (w.check E c scan op) := by
  have hac : activeScan c.phase = some scan := by
    cases hp : c.phase <;> rw [hp] at hs <;> first | exact hs | cases hs
  have hl : leavingScan c.phase = none := by
    cases hp : c.phase <;> rw [hp] at hs <;> first | rfl | cases hs
  have hu := h.running c hsta scan hac
  -- whatever the step does to the queue and the workers, the phase stays
  have ha : ∀ {c' : Checking}, c'.phase = c.phase → Underway targets ports id w.stopped w.base c' scan →
      LifeInv targets ports id { w with stage := .running c' } := by
    intro c' hp hu'
    refine h.after h.stored (fun scan' hs' => ?_) fun scan' hs' => ?_
    · rw [hp, hac] at hs'
      cases hs'
      exact hu'
    · rw [hp, hl] at hs'
      cases hs'
  cases op with
  | openQueue late =>
    refine ha ?_ (hu.openQueue late)
    unfold Checking.openQueue
    split <;> rfl
  | windowEnds =>
    refine ha ?_ hu.windowEnds
    unfold Checking.windowEnds
    split <;> rfl
  | closeQueue =>
    refine ha ?_ hu.closeQueue
    unfold Checking.closeQueue
    split <;> rfl
  | drop job =>
    simp only [Life.check]
    split
    · rename_i hst
      refine ha rfl ?_
      rw [hst] at hu ⊢
      exact hu.drop job
    · exact h
  | send =>
    simp only [Life.check]
    split
    · rename_i job c' hne
      obtain ⟨hu', hp, hn1⟩ := hu.next hn hne
      have hi := ha hp hu'
      refine ⟨hi.stored, fun k hk => ?_, hi.waiting, hi.running, hi.leaving⟩
      rcases mem_append.mp hk with hk | hk
      · exact h.apart k hk
      · rw [mem_singleton.mp hk]
        exact hn1
    · exact h
  | _ => exact h

/-- **Result.** Every step keeps the invariant. -/
theorem lifeInv_step (hn : (checks targets ports).Nodup) (op : Op) :
    LifeInv targets ports id (w.step E id op) := by
  -- the steps of the queue and the workers, in any stage
  have hc : ∀ op', (match w.stage with
      | .running c => match probingScan c.phase with
        | some scan => w.check E c scan op'
        | none => w
      | _ => w) = w.step E id op' → LifeInv targets ports id (w.step E id op') := by
    intro op' he
    rw [← he]
    split
    · rename_i c hs
      split
      · rename_i scan hsc
        exact lifeInv_check h hn hs hsc op'
      · exact h
    · exact h
  cases op with
  | shutdown => exact lifeInv_shutdown h
  | restart now => exact h.idle (h.stored.reconciled now) false
  | other db =>
    simp only [Life.step]
    split
    · rename_i hsa
      exact lifeInv_other h hsa
    · exact h
  | schedule wend full now =>
    cases hs : w.stage with
    | idle =>
      simp only [Life.step, hs]
      exact lifeInv_schedule h wend full now hs
    | waiting scan =>
      simp only [Life.step, hs]
      exact h
    | running c => exact hc _ (by simp only [Life.step, hs])
  | begin now =>
    cases hs : w.stage with
    | idle =>
      simp only [Life.step, hs]
      exact h
    | waiting scan => exact lifeInv_begin h hn hs now
    | running c => exact hc _ (by simp only [Life.step, hs])
  | drain now =>
    cases hs : w.stage with
    | idle =>
      simp only [Life.step, hs]
      exact h
    | waiting scan =>
      simp only [Life.step, hs]
      split
      · exact h.idle (stored_save h.stored ((h.waiting scan hs).1.interrupted _ now) E.host) w.stopped
      · exact h
    | running c => exact hc _ (by simp only [Life.step, hs])
  | report r =>
    cases hs : w.stage with
    | running c =>
      simp only [Life.step, hs]
      exact lifeInv_report h hs r
    | _ =>
      simp only [Life.step, hs]
      exact h
  | close now =>
    cases hs : w.stage with
    | running c =>
      simp only [Life.step, hs]
      exact lifeInv_close h hs now
    | _ =>
      simp only [Life.step, hs]
      exact h
  | save now =>
    cases hs : w.stage with
    | running c => exact lifeInv_save h hs now
    | _ =>
      simp only [Life.step, hs]
      exact h
  | _ => exact hc _ (by cases hs : w.stage <;> simp only [Life.step, hs])

theorem lifeInv_run (hn : (checks targets ports).Nodup) (ops : List Op) :
    LifeInv targets ports id (run (Life.step E id) w ops) :=
  run_invariant (I := LifeInv targets ports id) (fun _ op hw => lifeInv_step hw hn op) h ops

end

/-- A scan as it is created: queued, with nothing done. -/
structure Created (scan : Scan) : Prop where
  status : scan.status = .queued
  checkpoints : scan.checkpoints = []
  done : scan.doneChecks = 0
  total : scan.totalChecks = scan.targets.length * scan.ports.length

theorem lifeInv_start (hsc : Created scan) (hsa : (save E.host db scan).1 = .ok ()) :
    LifeInv scan.targets scan.ports scan.id (Life.start E db scan) := by
  have ho : scan.status ≠ .completed := by
    rw [hsc.status]
    decide
  have hco : Copy scan.targets scan.ports scan.id scan := by
    refine ⟨rfl, rfl, rfl, ?_, ?_, hsc.total, fun hc => absurd hc ho⟩
    · simp only [scanRow, hsc.checkpoints]
      exact nil_subperm
    · simp only [scanRow, hsc.checkpoints, hsc.done]
      rfl
  have hro : storedRow (Life.start E db scan).db.scan scan.id = some (scanRow scan) := by
    cases hs : save E.host db scan with
    | mk res db' =>
      rw [hs] at hsa
      simp only [Life.start, hs]
      rcases save_cases hs with ⟨e, rfl, -⟩ | ⟨-, -, a, -, rfl⟩
      · cases hsa
      · exact (storedRow_replaced db.scan scan scan.id).trans (if_pos rfl)
  refine ⟨⟨_, hro, hco.sound⟩, fun k hk => (by cases hk), fun scan' hs => ?_, fun _ hs => (by cases hs),
    fun _ hs => (by cases hs)⟩
  cases hs
  refine ⟨hco, ho, fun r hr => ?_⟩
  cases hro.symm.trans hr
  rfl

end

/-- **Result.** Whatever runs a scan goes through, and wherever they end: its
stored checkpoints are distinct checks of the scan and as many as it counts,
no run repeats a check of the stored scan it began with, and a scan that is
stored as completed has made all checks. -/
theorem scan_checks_resumed (E : Config) (db : DB) (scan : Scan) (ops : List Op)
    (htargets : (scan.targets.map (·.address)).Nodup) (hports : scan.ports.Nodup) (hscan : Created scan)
    (hsave : (save E.host db scan).1 = .ok ()) :
    let w := run (Life.step E scan.id) (Life.start E db scan) ops
    (∃ r, storedRow w.db.scan scan.id = some r ∧ r.targets = scan.targets ∧ r.ports = scan.ports ∧
      (checked r.checkpoints).Nodup ∧ checked r.checkpoints ⊆ checks scan.targets scan.ports ∧
      r.doneChecks = r.checkpoints.length ∧ r.doneChecks ≤ r.totalChecks ∧
      (r.status = .completed → checks scan.targets scan.ports ⊆ checked r.checkpoints)) ∧
    ∀ k ∈ w.probed, k ∉ w.base := by
  have hn := checks_nodup htargets hports
  have h := @lifeInv_run _ _ _ E _ (lifeInv_start hscan hsave) hn ops
  obtain ⟨r, hr, hs⟩ := h.stored
  refine ⟨⟨r, hr, hs.sameTargets, hs.samePorts, nodup_of_subperm hs.distinct hn,
    hs.distinct.subset, hs.done, ?_, fun hc => (hs.all hc).subset⟩, h.apart⟩
  have hl := hs.distinct.length_le
  rw [length_checks, checked, length_map] at hl
  rw [hs.done, hs.total]
  exact_mod_cast hl

def smallConfig : Config where
  host := L3.SqliteServer.Small.server.host
  errorText := fun _ => "constraint failed"
  maxConcurrent := 4

/-- Two ports of one address, within a window. -/
def smallScan : Scan :=
  { scan "s" ["10.0.0.1"] [22, 80] with scanPolicyID := "policy", windowEnd := some (clock 60) }

/-- A run begins, and its first check is taken. -/
def firstSteps (at_ : Int) : List Op :=
  [.begin (clock at_), .save (clock at_), .openQueue false, .send]

def reported (at_ : Int) (port : Int) : List Op :=
  [.report ⟨⟨"10.0.0.1", "10.0.0.1", []⟩, port, none, clock at_, clock at_⟩, .save (clock at_)]

/-- The first run is cut short by the window, the second one by a crash, and
the third one completes the scan. -/
def threeRuns : List Op :=
  firstSteps 1 ++ reported 2 22 ++ [.windowEnds, .close (clock 60), .save (clock 60)] ++
    [.schedule none false (clock 90)] ++ firstSteps 91 ++ [.restart (clock 92)] ++
    [.schedule none false (clock 120)] ++ firstSteps 121 ++ reported 122 80 ++
    [.closeQueue, .close (clock 123), .save (clock 123)]

theorem scan_checks_resumed_three_runs :
    let w := run (Life.step smallConfig "s") (Life.start smallConfig (emptyTables [] true) smallScan) threeRuns
    storedStatus w.db.scan "s" = some .completed ∧ w.base = [("10.0.0.1", 22)] ∧ w.probed = [("10.0.0.1", 80)] ∧
      ∃ r, storedRow w.db.scan "s" = some r ∧ checks smallScan.targets smallScan.ports ⊆ checked r.checkpoints := by
  have hs : storedStatus (run (Life.step smallConfig "s")
      (Life.start smallConfig (emptyTables [] true) smallScan) threeRuns).db.scan "s" = some .completed := by
    decide +kernel
  refine ⟨hs, by decide +kernel, by decide +kernel, ?_⟩
  obtain ⟨⟨r, hr, -, -, -, -, -, -, ha⟩, -⟩ := scan_checks_resumed smallConfig (emptyTables [] true) smallScan
    threeRuns (by decide) (by decide) ⟨rfl, rfl, rfl, by decide⟩ (by decide +kernel)
  refine ⟨r, hr, ha ?_⟩
  exact Option.some.inj ((congrArg (Option.map _) hr).symm.trans hs)

end Mossward.L4.ScanResume
