import Mossward.L2Store.Projection

/-!
# The local scan engine

`Engine.run` works on its own copy of a scan: it stores the scan as running,
adds what the probes report, stores it again from time to time, and stores the
outcome in the end. If the outcome cannot be stored it tries to store the scan
as failed, and only logs when that fails too. `internal/scanner/scanner.go`. A
phase that waits for the store does one call per step, so that other components
can act between any two of them.

Result: `runAlone_status`.
-/
namespace Mossward.L4.ScanEngine

open Table Run L1.Rfc3339 Model L2.Schema
open L2.Intelligence L2.ScanStore L2.Projection

/-! ## The engine's copies of a scan -/

structure Engine where
  host : Host
  /-- `err.Error()`. -/
  errorText : StoreError → String

def progressSaveDivisor : Int := 100

/-- Whole seconds between two readings of the clock, never negative. -/
def elapsed (start stop : Time) : Int := max 0 ((stop.ns - start.ns) / second)

/-- The active time that ends now, for a scan that was started. -/
def activeUntil (scan : Scan) (now : Time) : Int :=
  match scan.startedAt with
  | none => scan.activeSeconds
  | some started => scan.activeSeconds + elapsed started now

def startedScan (scan : Scan) (now : Time) : Scan :=
  { scan with
    status := .running
    startedAt := some now
    totalChecks := scan.targets.length * scan.ports.length
    doneChecks := scan.checkpoints.length }

/-- Mirrors `finishCanceled`, `internal/scanner/scanner.go:566-579`. -/
def canceledScan (scan : Scan) (now : Time) : Scan :=
  { scan with
    activeSeconds := activeUntil scan now
    status := .canceled
    error := "scan canceled by user"
    completedAt := some now }

/-- Mirrors `fail`, `internal/scanner/scanner.go:596-605`. -/
def failScan (scan : Scan) (message : String) (now : Time) : Scan :=
  { scan with status := .failed, error := message, completedAt := some now }

/-- Mirrors `interrupt`, `internal/scanner/scanner.go:607-625`: scheduled scans
pause, others fail. -/
def interruptedScan (scan : Scan) (message : String) (now : Time) : Scan :=
  if scan.scanPolicyID = "" then failScan scan message now
  else
    { scan with
      activeSeconds := activeUntil scan now
      status := .paused
      error := message
      startedAt := none
      completedAt := none }

def pausedScan (scan : Scan) (started now : Time) : Scan :=
  { scan with
    activeSeconds := scan.activeSeconds + elapsed started now
    status := .paused
    error := "scan paused at the end of its maintenance window"
    startedAt := none }

def completedScan (scan : Scan) (started now : Time) : Scan :=
  { scan with
    activeSeconds := scan.activeSeconds + elapsed started now
    status := .completed
    completedAt := some now }

/-! ## Probe results -/

/-- What a probe found at an address and port; nothing if it was not reachable. -/
structure ProbeResult where
  target : Target
  port : Int
  found : Option (ServiceObservation × List Finding)
  /-- when the checkpoint is taken -/
  completedAt : Time
  /-- when the observation is matched -/
  matchedAt : Time

/-- One iteration of the results loop, `internal/scanner/scanner.go:396-403`. -/
def addResult (h : Host) (t : ScanTables) (scan : Scan) (r : ProbeResult) : Scan :=
  let scan := { scan with
    doneChecks := scan.doneChecks + 1
    checkpoints := scan.checkpoints ++
      [{ address := r.target.address, port := r.port, completedAt := r.completedAt }] }
  match r.found with
  | none => scan
  | some (o, fs) => { scan with
      observations := scan.observations ++ [o]
      findings := scan.findings ++ fs
      cveMatches := scan.cveMatches ++ matchObservation h t o r.matchedAt }

def saveInterval (scan : Scan) : Int := max 1 (scan.totalChecks / progressSaveDivisor)

/-! ## The run -/

inductive Running
  /-- taken from the queue -/
  | queued (scan : Scan)
  /-- about to be stored as running -/
  | starting (scan : Scan) (started : Time)
  | probing (scan : Scan) (started : Time)
  /-- about to store intermediate progress -/
  | progressing (scan : Scan) (started : Time)
  /-- about to store the outcome -/
  | concluding (scan : Scan)
  /-- about to store a failure, an interruption or a cancelation -/
  | finishing (scan : Scan)
  | done
deriving DecidableEq

/-- How the results loop ends: by the engine's shutdown, by a cancelation of
the scan, or with the queue of checks closed, maybe by the window. -/
inductive Closing
  | shutdown
  | canceled
  | drained (closedByWindow : Bool)
deriving DecidableEq

inductive Event
  /-- `beginScan` finds the scan canceled, or not -/
  | begin (canceled : Bool) (now : Time)
  | probe (r : ProbeResult)
  | close (how : Closing) (now : Time)
  /-- the store call the phase waits for; `now` is read when it fails -/
  | save (now : Time)

def closed (scan : Scan) (started now : Time) : Closing → Running
  | .shutdown => .finishing (interruptedScan scan "scan canceled during process shutdown" now)
  | .canceled => .finishing (canceledScan scan now)
  | .drained closedByWindow =>
    if closedByWindow && scan.doneChecks < scan.totalChecks then .concluding (pausedScan scan started now)
    else .concluding (completedScan scan started now)

/-- A save whose failure turns the run into a failing one. -/
def saveOrFail (E : Engine) (db : DB) (scan : Scan) (now : Time) (next : Running) : DB × Running :=
  match save E.host db scan with
  | (.ok (), db) => (db, next)
  | (.error e, db) => (db, .finishing (failScan scan (E.errorText e) now))

/-- Mirrors `run`, `internal/scanner/scanner.go:371-437`, step by step. An event
that the phase does not wait for does nothing. -/
def Running.step (E : Engine) (db : DB) : Running → Event → DB × Running
  | .queued scan, .begin true now => (db, .finishing (canceledScan scan now))
  | .queued scan, .begin false now => (db, .starting (startedScan scan now) now)
  | .starting scan started, .save now => saveOrFail E db scan now (.probing scan started)
  | .probing scan started, .probe r =>
    let scan := addResult E.host db.scan scan r
    (db, if scan.doneChecks % saveInterval scan = 0 then .progressing scan started
      else .probing scan started)
  | .progressing scan started, .save _ => ((save E.host db scan).2, .probing scan started)
  | .probing scan started, .close how now => (db, closed scan started now how)
  | .concluding scan, .save now => saveOrFail E db scan now .done
  | .finishing scan, .save _ => ((save E.host db scan).2, .done)
  | phase, _ => (db, phase)

/-! ## An undisturbed run -/

/-- The events of a run whose probes all report and all finish. -/
def finishedRun (started completed : Time) (results : List ProbeResult) : List Event :=
  [.begin false started, .save started] ++
    results.flatMap (fun r => [.probe r, .save r.completedAt]) ++
    [.close (.drained false) completed, .save completed, .save completed]

def engineStep (E : Engine) (s : DB × Running) (event : Event) : DB × Running := s.2.step E s.1 event

/-- The engine alone: no other component acts on the store. -/
def runAlone (E : Engine) (db : DB) (scan : Scan) (started completed : Time) (results : List ProbeResult) :
    DB × Running :=
  run (engineStep E) (db, .queued scan) (finishedRun started completed results)

/-- The scan with all its results. -/
def probed (h : Host) (t : ScanTables) (scan : Scan) (started : Time) (results : List ProbeResult) : Scan :=
  results.foldl (addResult h t) (startedScan scan started)

section
variable {E : Engine} {db db' : DB} {scan : Scan} {started completed : Time}

@[simp] theorem addResult_id (h : Host) (t : ScanTables) (scan : Scan) (r : ProbeResult) :
    (addResult h t scan r).id = scan.id := by
  unfold addResult
  cases r.found <;> rfl

@[simp] theorem addResult_status (h : Host) (t : ScanTables) (scan : Scan) (r : ProbeResult) :
    (addResult h t scan r).status = scan.status := by
  unfold addResult
  cases r.found <;> rfl

theorem addResult_congr {h : Host} {t t' : ScanTables} (hc : t'.cves = t.cves)
    (hp : t'.cveProducts = t.cveProducts) (scan : Scan) (r : ProbeResult) :
    addResult h t' scan r = addResult h t scan r := by
  unfold addResult matchObservation
  rw [hc, hp]

/-- What the engine's own saves leave of the tables it started from: all that
the constraints of its scan look at, and the CVE tables. -/
structure OwnSaves (id : String) (db db' : DB) : Prop where
  elsewhere : Elsewhere id db.scan db'.scan
  products : db'.scan.cveProducts = db.scan.cveProducts
  store : StoreInv db'
  running : storedStatus db'.scan id = some .running

section
variable {s : Scan} (h : OwnSaves s.id db db')
include h

theorem ownSaves_save (hs : s.status = .running) (E : Engine) : OwnSaves s.id db (save E.host db' s).2 := by
  have hst := storeInv_save h.store E.host s
  cases hsa : save E.host db' s with
  | mk res db'' =>
    rw [hsa] at hst
    rcases save_cases hsa with ⟨e, -, rfl⟩ | ⟨-, -, a, -, rfl⟩
    · exact h
    · refine ⟨h.elsewhere.trans (elsewhere_replaced _ s a), h.products, hst, ?_⟩
      refine (storedStatus_replaced db'.scan s s.id).trans ?_
      rw [if_pos rfl, hs]

theorem probe_step (hs : s.status = .running) (sta : Time) (r : ProbeResult) (E : Engine) :
    ∃ db'', run (engineStep E) (db', Running.probing s sta)
        [.probe r, .save r.completedAt] = (db'', .probing (addResult E.host db.scan s r) sta) ∧
      OwnSaves s.id db db'' := by
  have ha : addResult E.host db'.scan s r = addResult E.host db.scan s r :=
    addResult_congr h.elsewhere.cves h.products s r
  have hi := addResult_id E.host db.scan s r
  simp only [run_cons, engineStep, Running.step, ha]
  by_cases hd : (addResult E.host db.scan s r).doneChecks % saveInterval (addResult E.host db.scan s r) = 0
  · rw [if_pos hd]
    refine ⟨_, rfl, ?_⟩
    rw [← hi] at h ⊢
    exact ownSaves_save h ((addResult_status E.host db.scan s r).trans hs) E
  · rw [if_neg hd]
    exact ⟨db', rfl, h⟩

theorem probes_run (hs : s.status = .running) (sta : Time) (rs1 : List ProbeResult) (E : Engine) :
    ∃ db'', run (engineStep E) (db', Running.probing s sta)
        (rs1.flatMap fun r => [.probe r, .save r.completedAt]) =
          (db'', .probing (rs1.foldl (addResult E.host db.scan) s) sta) ∧
      OwnSaves s.id db db'' := by
  induction rs1 generalizing s db' with
  | nil => exact ⟨db', rfl, h⟩
  | cons r rs ih =>
    obtain ⟨db1, hru, h1⟩ := probe_step h hs sta r E
    have hi := addResult_id E.host db.scan s r
    rw [← hi] at h1 ⊢
    obtain ⟨db2, hr, h2⟩ := ih h1 ((addResult_status E.host db.scan s r).trans hs)
    refine ⟨db2, ?_, h2⟩
    rw [List.flatMap_cons, run_append, hru]
    exact hr

/-- The outcome is stored, or else the failure; or else neither can be. -/
theorem conclude_run (hs : s.status = .completed) (now : Time)
    (E : Engine) : ∃ db'', run (engineStep E) (db', Running.concluding s)
        [.save now, .save now] = (db'', .done) ∧
      ((Fits db.scan s ∧ ∃ st, storedStatus db''.scan s.id = some st ∧ st.terminal) ∨
        (¬ Fits db.scan s ∧ storedStatus db''.scan s.id = some .running)) := by
  have hb : ∀ {x : Scan}, x.id = s.id → Fits db'.scan x → Fits db.scan x := by
    intro x hx hf
    refine hf.elsewhere (hx ▸ ⟨h.elsewhere.observations.symm, h.elsewhere.findings.symm,
      h.elsewhere.cves.symm⟩)
  simp only [run_cons, engineStep, Running.step, saveOrFail]
  cases hsa : save E.host db' s with
  | mk res db1 =>
    rcases save_cases hsa with ⟨e, rfl, hd1⟩ | ⟨rfl, hf, a, -, rfl⟩
    · -- the failure has the same rows, and no provenance
      rw [hd1]
      refine ⟨_, rfl, ?_⟩
      have ho := save_ok_iff h.store.asset E.host (failScan s (E.errorText e) now)
      cases hfa : save E.host db' (failScan s (E.errorText e) now) with
      | mk res2 db2 =>
        rw [hfa] at ho
        rcases save_cases hfa with ⟨e2, rfl, hd2⟩ | ⟨rfl, hf, a, -, rfl⟩
        · refine .inr ⟨fun hf => ?_, by rw [hd2]; exact h.running⟩
          have ha : Fits db'.scan (failScan s (E.errorText e) now) :=
            (hf.elsewhere h.elsewhere).of_sameRows ⟨rfl, rfl, rfl, rfl, rfl, rfl, rfl⟩
          cases ho.mpr ⟨ha, fun hst => by cases hst⟩
        · have hs' : Fits db.scan s := (hb (x := failScan s (E.errorText e) now) rfl hf).of_sameRows
              ⟨rfl, rfl, rfl, rfl, rfl, rfl, rfl⟩
          refine .inl ⟨hs', .failed, ?_, rfl⟩
          exact (storedStatus_replaced db'.scan (failScan s (E.errorText e) now) s.id).trans (if_pos rfl)
    · refine ⟨_, rfl, .inl ⟨hb rfl hf, s.status, ?_, by rw [hs]; rfl⟩⟩
      exact (storedStatus_replaced db'.scan s s.id).trans (if_pos rfl)

end

theorem probed_id (h : Host) (t : ScanTables) (scan : Scan) (sta : Time) (rs1 : List ProbeResult) :
    (probed h t scan sta rs1).id = scan.id := by
  have hf : ∀ s : Scan, (rs1.foldl (addResult h t) s).id = s.id := by
    intro s
    induction rs1 generalizing s with
    | nil => rfl
    | cons r rs ih => exact (ih _).trans (addResult_id h t s r)
  exact hf _

/-- **An undisturbed run** of a scan that can be stored as running comes to an
end. If its probes all finish, the scan is then stored in a terminal status
when it meets, with all its results, the constraints of its tables; otherwise
it stays stored as running. -/
theorem runAlone_status (hd : StoreInv db) (hsta : Fits db.scan (startedScan scan started)) (E : Engine)
    (done1 : Time) (rs : List ProbeResult) :
    (runAlone E db scan started done1 rs).2 = .done ∧
    ((Fits db.scan (probed E.host db.scan scan started rs) ∧
        ∃ st, storedStatus (runAlone E db scan started done1 rs).1.scan scan.id = some st ∧ st.terminal) ∨
      (¬ Fits db.scan (probed E.host db.scan scan started rs) ∧
        storedStatus (runAlone E db scan started done1 rs).1.scan scan.id = some .running)) := by
  -- the scan is stored as running
  have ho : (save E.host db (startedScan scan started)).1 = .ok () :=
    (save_ok_iff hd.asset E.host _).mpr ⟨hsta, fun hst => by cases hst⟩
  obtain ⟨db1, hs⟩ : ∃ db1, save E.host db (startedScan scan started) = (.ok (), db1) := ⟨_, Prod.ext ho rfl⟩
  have h1 : OwnSaves scan.id db db1 := by
    have hsto := storeInv_save hd E.host (startedScan scan started)
    rw [hs] at hsto
    rcases save_cases hs with ⟨e, he, -⟩ | ⟨-, -, a, -, rfl⟩
    · cases he
    · exact ⟨elsewhere_replaced db.scan (startedScan scan started) a, rfl, hsto,
        (storedStatus_replaced db.scan (startedScan scan started) scan.id).trans (if_pos rfl)⟩
  -- the probes report
  obtain ⟨db2, hp, h2⟩ := probes_run (s := startedScan scan started) h1 rfl started rs E
  -- the outcome is stored
  have hi := probed_id E.host db.scan scan started rs
  have h3 : OwnSaves (completedScan (probed E.host db.scan scan started rs) started done1).id db db2 := by
    rw [show (completedScan (probed E.host db.scan scan started rs) started done1).id = scan.id from hi]
    exact h2
  obtain ⟨db3, hco, hc⟩ := conclude_run h3 rfl done1 E
  have hr : runAlone E db scan started done1 rs = (db3, .done) := by
    unfold runAlone finishedRun
    rw [run_append, run_append]
    have hfi : run (engineStep E) (db, Running.queued scan)
        [.begin false started, .save started] = (db1, .probing (startedScan scan started) started) := by
      simp only [run_cons, run_nil, engineStep, Running.step, saveOrFail, hs]
    rw [hfi, hp]
    exact hco
  have hf1 : Fits db.scan (completedScan (probed E.host db.scan scan started rs) started done1) ↔
      Fits db.scan (probed E.host db.scan scan started rs) :=
    ⟨fun hf => hf.of_sameRows ⟨rfl, rfl, rfl, rfl, rfl, rfl, rfl⟩,
      fun hf => hf.of_sameRows ⟨rfl, rfl, rfl, rfl, rfl, rfl, rfl⟩⟩
  rw [hf1] at hc
  rw [hr]
  refine ⟨rfl, ?_⟩
  rw [show (completedScan (probed E.host db.scan scan started rs) started done1).id = scan.id from hi]
    at hc
  exact hc

end

end Mossward.L4.ScanEngine
