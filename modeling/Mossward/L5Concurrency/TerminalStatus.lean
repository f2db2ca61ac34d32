import Mossward.L5Concurrency.ScanActors

/-!
# Terminal statuses

A scan that is stored as completed, failed or canceled should stay so. The
writers of scans overwrite whole rows from copies, so a late writer can undo a
terminal status: `Cancel` that read the scan while it ran, a resume from an
earlier `List`, and the projection of a result onto a scan that was canceled.

Results: `open_step`, `terminal_final_iff`.
-/
namespace Mossward.L5.TerminalStatus

open Table Run Register L1.Rfc3339 Model L2.Schema List
open L2.WorkerJob L2.Intelligence L2.ScanStore L2.Projection
open L3.JobDispatch L3.SqliteServer L4.ScanEngine L5.ScanActors

/-! ## What the writers have seen -/

/-- The status a writer has seen is not terminal. -/
def Ongoing (seen : Option ScanStatus) : Prop := ∀ st ∈ seen, st.terminal = false

def OngoingScan (scan : Scan) : Prop := scan.status.terminal = false

theorem OngoingScan.seen {scan : Scan} (h : OngoingScan scan) : Ongoing (some scan.status) := by
  rintro st ⟨⟩
  exact h

def CancelingOpen : Canceling → Prop
  | .flagging scan | .signaling scan _ => OngoingScan scan
  | .saving _ seen => Ongoing (some seen)
  | .start _ | .done => True

def LaunchingOpen : Launching → Prop
  | .start _ scan seen | .scheduling scan seen | .saving scan seen => OngoingScan scan ∧ Ongoing seen
  | .enqueueing scan => OngoingScan scan
  | .interrupting _ seen | .persisting _ _ _ seen | .failing _ seen => Ongoing seen
  | .dispatching _ _ _ | .done => True

/-- The copies that the engine stores again are those of a running scan. -/
def RunnerOpen (r : Runner) : Prop :=
  match r.phase with
  | .starting scan _ | .probing scan _ | .progressing scan _ => OngoingScan scan ∧ Ongoing r.seen
  | .queued _ | .concluding _ | .finishing _ => Ongoing r.seen
  | .done => True

def RequestOpen : Request → Prop
  | .cancel c => CancelingOpen c
  | .launch l => LaunchingOpen l
  | .projection _ => True

/-- Projections apart, every writer has seen its scan before it ended. -/
structure Open (W : World) : Prop where
  queue : ∀ scan ∈ W.shared.queue, OngoingScan scan
  runner : RunnerOpen W.runner
  todo : ∀ x ∈ W.scheduler.todo, OngoingScan x.2
  launching : LaunchingOpen W.scheduler.launching
  requests : ∀ r ∈ W.requests, RequestOpen r

theorem open_start (db : DB) : Open (World.start db) := by
  refine ⟨?_, trivial, ?_, trivial, ?_⟩ <;> simp [World.start]

section
variable {Y : System} {s : Shared} {now : Time}

theorem canceling_open {c : Canceling} (h : CancelingOpen c) :
    CancelingOpen (c.step Y s now).2 ∧ (c.step Y s now).1.queue = s.queue := by
  cases c with
  | start id =>
    simp only [Canceling.step]
    split
    · exact ⟨trivial, rfl⟩
    rename_i scan _
    refine ⟨?_, rfl⟩
    split
    · rename_i hc
      -- a cancelable status is not terminal
      change OngoingScan scan
      unfold cancelableScanStatus at hc
      simp only [Bool.or_eq_true, decide_eq_true_eq] at hc
      rcases hc with (hc | hc) | hc <;> simp [OngoingScan, hc, ScanStatus.terminal]
    · trivial
  | flagging scan =>
    simp only [Canceling.step]
    split
    · exact ⟨h, rfl⟩
    · split <;> exact ⟨h, rfl⟩
  | signaling scan context => exact ⟨h.seen, rfl⟩
  | saving scan seen => exact ⟨trivial, rfl⟩
  | done => exact ⟨trivial, rfl⟩

theorem launching_open {l : Launching} (h : LaunchingOpen l) (hq : ∀ scan ∈ s.queue, OngoingScan scan) :
    LaunchingOpen (l.step Y s now).2 ∧ ∀ scan ∈ (l.step Y s now).1.queue, OngoingScan scan := by
  cases l with
  | start pol scan seen =>
    simp only [Launching.step]
    split
    · exact ⟨h, hq⟩
    · exact ⟨h, hq⟩
    · refine ⟨?_, hq⟩
      split
      · trivial
      · exact h.2
    · exact ⟨trivial, hq⟩
  | scheduling scan seen =>
    simp only [Launching.step]
    split
    · exact ⟨h, hq⟩
    · split
      · exact ⟨trivial, hq⟩
      · exact ⟨h, hq⟩
  | saving scan seen =>
    simp only [Launching.step]
    split
    · exact ⟨trivial, hq⟩
    · exact ⟨h.1, hq⟩
  | enqueueing scan =>
    simp only [Launching.step]
    split
    · refine ⟨trivial, fun x hx => ?_⟩
      rcases mem_append.mp hx with hx | hx
      · exact hq x hx
      · rw [mem_singleton.mp hx]
        exact h
    · exact ⟨OngoingScan.seen h, hq⟩
  | interrupting scan seen => exact ⟨trivial, hq⟩
  | persisting scan sid ln seen =>
    simp only [Launching.step]
    split <;> exact ⟨trivial, hq⟩
  | dispatching scan sid ln =>
    simp only [Launching.step]
    split
    · refine ⟨?_, hq⟩
      rintro st ⟨⟩
      rfl
    · exact ⟨trivial, hq⟩
  | failing scan seen => exact ⟨trivial, hq⟩
  | done => exact ⟨trivial, hq⟩

theorem projecting_queue (p : Projecting) : (p.step Y s now).1.queue = s.queue := by
  cases p with
  | loadEvidence rc job scan => rfl
  | loadCheckpoints rc job scan obs fnds => rfl
  | matching scan seen obs => cases obs <;> rfl
  | done => rfl
  | _ =>
    simp only [Projecting.step]
    split <;> rfl

theorem request_open {r : Request} (h : RequestOpen r) (hq : ∀ scan ∈ s.queue, OngoingScan scan) :
    RequestOpen (r.step Y s now).2 ∧ ∀ scan ∈ (r.step Y s now).1.queue, OngoingScan scan := by
  cases r with
  | cancel c =>
    obtain ⟨hc, hqu⟩ := @canceling_open Y s now c h
    refine ⟨hc, ?_⟩
    change ∀ scan ∈ (c.step Y s now).1.queue, _
    rwa [hqu]
  | launch l => exact launching_open h hq
  | projection p =>
    refine ⟨trivial, ?_⟩
    change ∀ scan ∈ (p.step Y s now).1.queue, _
    rwa [projecting_queue]

theorem resumed_ongoing {scans : List Scan} {pol : Policy} {x : Policy × Scan}
    (h : resumed Y scans now pol = some x) : OngoingScan x.2 := by
  simp only [resumed, bind, Option.bind_eq_some_iff] at h
  obtain ⟨w, -, scan, -, h⟩ := h
  split at h
  · cases h
    rfl
  · cases h

theorem runner_queue (hq : ∀ scan ∈ s.queue, OngoingScan scan) (r : Runner) (e : RunEvent) :
    ∀ scan ∈ (r.step Y s e).1.queue, OngoingScan scan := by
  have hsu : (r.step Y s e).1.queue ⊆ s.queue := by
    cases e with
    | take =>
      simp only [Runner.step]
      split
      · rename_i he
        split <;> simp [he]
      · exact List.Subset.refl _
    | begin now =>
      simp only [Runner.step]
      split
      · split
        · exact List.Subset.refl _
        · split <;> exact List.Subset.refl _
      · exact List.Subset.refl _
    | probe p => exact List.Subset.refl _
    | close byw now => exact List.Subset.refl _
    | exit => exact List.Subset.refl _
    | drain now =>
      simp only [Runner.step]
      split
      · rename_i he
        split
        · split <;> simp [he]
        · simp
      · exact List.Subset.refl _
    | _ =>
      simp only [Runner.step]
      split <;> exact List.Subset.refl _
  exact fun scan hs => hq scan (hsu hs)

variable {r : Runner}

theorem runnerOpen_probe (h : RunnerOpen r) (db : DB) (p : ProbeResult) :
    RunnerOpen { r with phase := (r.phase.step Y.engine db (.probe p)).2 } := by
  obtain ⟨phase, seen, began, number, exited⟩ := r
  cases phase with
  | probing scan sta =>
    have hs : OngoingScan (addResult Y.engine.host db.scan scan p) := by
      unfold OngoingScan
      rw [addResult_status]
      exact h.1
    simp only [Running.step]
    split <;> exact ⟨hs, h.2⟩
  | _ => exact h

theorem runnerOpen_close (h : RunnerOpen r) (db : DB) (ho : Closing) (now : Time) :
    RunnerOpen { r with phase := (r.phase.step Y.engine db (.close ho now)).2 } := by
  obtain ⟨phase, seen, began, number, exited⟩ := r
  cases phase with
  | probing scan sta =>
    cases ho with
    | shutdown => exact h.2
    | canceled => exact h.2
    | drained byw =>
      simp only [Running.step, closed]
      split <;> exact h.2
  | _ => exact h

theorem seenAfter_ongoing {scan : Scan} {seen : Option ScanStatus} (hsc : OngoingScan scan)
    (hs : Ongoing seen) (db : DB) : Ongoing (seenAfter Y db scan seen) := by
  unfold seenAfter
  split
  · exact hsc.seen
  · exact hs

/-- After a save that fails the runner has seen what it had seen before; the
outcome is the last that it saves. -/
theorem runnerOpen_save (h : RunnerOpen r) (db : DB) {scan : Scan}
    (hs : saving r.phase = some scan) (now : Time) :
    RunnerOpen { r with
      phase := (r.phase.step Y.engine db (.save now)).2, seen := seenAfter Y db scan r.seen } := by
  obtain ⟨phase, seen, began, number, exited⟩ := r
  have hh : Y.engine.host = Y.host := rfl
  cases phase with
  | starting x sta =>
    cases hs
    have hse := seenAfter_ongoing (Y := Y) h.1 h.2 db
    simp only [Running.step, saveOrFail]
    split
    · exact ⟨h.1, hse⟩
    · exact hse
  | progressing x sta =>
    cases hs
    exact ⟨h.1, seenAfter_ongoing h.1 h.2 db⟩
  | concluding x =>
    cases hs
    simp only [Running.step, saveOrFail]
    split
    · trivial
    · rename_i hsa
      rw [hh] at hsa
      simpa only [RunnerOpen, seenAfter, hsa] using h
  | finishing x => trivial
  | _ => cases hs

theorem runner_open (hq : ∀ scan ∈ s.queue, OngoingScan scan) (h : RunnerOpen r)
    (e : RunEvent) : RunnerOpen (r.step Y s e).2 := by
  cases e with
  | take =>
    simp only [Runner.step]
    split
    · rename_i scan queue he
      split
      · exact (hq scan (by simp [he])).seen
      · exact h
    · exact h
  | begin now =>
    obtain ⟨ph, seen, began, number, exited⟩ := r
    cases ph with
    | queued scan =>
      simp only [Runner.step]
      split
      · exact h
      · split
        · exact h
        · exact ⟨rfl, h⟩
    | _ => exact h
  | probe p => exact runnerOpen_probe h s.db p
  | close byw now => exact runnerOpen_close h s.db _ now
  | save now =>
    simp only [Runner.step]
    split
    · exact h
    · rename_i hs
      exact runnerOpen_save h s.db hs now
  | drain now =>
    simp only [Runner.step]
    split
    · rename_i scan queue he
      have hsc := (hq scan (by simp [he])).seen
      split
      · split <;> exact hsc
      · exact h
    · exact h
  | _ =>
    simp only [Runner.step]
    split <;> exact h

theorem ticking_open {k : Ticking} (ht : ∀ x ∈ k.todo, OngoingScan x.2) (hl : LaunchingOpen k.launching)
    (hq : ∀ scan ∈ s.queue, OngoingScan scan) :
    (∀ x ∈ (k.step Y s now).2.todo, OngoingScan x.2) ∧ LaunchingOpen (k.step Y s now).2.launching ∧
      ∀ scan ∈ (k.step Y s now).1.queue, OngoingScan scan := by
  obtain ⟨todo, launching⟩ := k
  unfold Ticking.step
  split
  · rename_i pol scan todo' he
    cases he
    refine ⟨fun x hx => ht x (mem_cons_of_mem _ hx), ⟨ht _ mem_cons_self, ?_⟩, hq⟩
    rintro st ⟨⟩
    rfl
  · rename_i he
    cases he
    obtain ⟨hl', hq'⟩ := @launching_open Y s now launching hl hq
    exact ⟨ht, hl', hq'⟩

/-- **Projections apart, the writers start from copies of scans that had not
ended**, in every interleaving. -/
theorem open_step (Y : System) {W : World} (h : Open W) (op : WorldOp) : Open (W.step Y op) := by
  have hnew : ∀ r : Request, RequestOpen r → ∀ x ∈ W.requests ++ [r], RequestOpen x := by
    intro r hr x hx
    rcases mem_append.mp hx with hx | hx
    · exact h.requests x hx
    · rw [mem_singleton.mp hx]
      exact hr
  cases op with
  | complete receipt tokenHash now =>
    simp only [World.step]
    split
    · exact ⟨h.queue, h.runner, h.todo, h.launching, h.requests⟩
    · exact ⟨h.queue, h.runner, h.todo, h.launching, hnew _ trivial⟩
  | cancel id => exact ⟨h.queue, h.runner, h.todo, h.launching, hnew _ trivial⟩
  | launch policy scan =>
    refine ⟨h.queue, h.runner, h.todo, h.launching, hnew _ ⟨rfl, ?_⟩⟩
    rintro st ⟨⟩
  | request i now =>
    simp only [World.step]
    cases hr : W.requests[i]? with
    | none => exact h
    | some r =>
      obtain ⟨hr', hq⟩ := @request_open Y W.shared now r (h.requests r (mem_of_getElem? hr)) h.queue
      refine ⟨hq, h.runner, h.todo, h.launching, fun x hx => ?_⟩
      rcases mem_or_eq_of_mem_set hx with hx | rfl
      · exact h.requests x hx
      · exact hr'
  | tick policies now =>
    have hstart : ∀ k : Ticking, (∀ x ∈ k.todo, OngoingScan x.2) → LaunchingOpen k.launching →
        (∀ x ∈ (k.start Y W.shared.db.scan policies now).todo, OngoingScan x.2) ∧
          LaunchingOpen (k.start Y W.shared.db.scan policies now).launching := by
      intro k htodo hl
      unfold Ticking.start
      split
      · split
        · exact ⟨by simp, trivial⟩
        · refine ⟨fun x hx => ?_, trivial⟩
          obtain ⟨policy, -, hx⟩ := mem_filterMap.mp hx
          exact resumed_ongoing hx
      · exact ⟨htodo, hl⟩
    obtain ⟨htodo, hl⟩ := hstart W.scheduler h.todo h.launching
    exact ⟨h.queue, h.runner, htodo, hl, h.requests⟩
  | resume now =>
    obtain ⟨htodo, hl, hq⟩ := @ticking_open Y W.shared now W.scheduler h.todo h.launching h.queue
    exact ⟨hq, h.runner, htodo, hl, h.requests⟩
  | run event =>
    exact ⟨runner_queue h.queue W.runner event, runner_open h.queue h.runner event, h.todo, h.launching,
      h.requests⟩
  | shutdown =>
    simp only [World.step]
    split
    · exact h
    · exact ⟨h.queue, h.runner, h.todo, h.launching, h.requests⟩
  | _ =>
    simp only [World.step]
    split
    · exact ⟨h.queue, h.runner, h.todo, h.launching, h.requests⟩
    · exact h

end

/-! ## Final statuses -/

/-- The stored status is no longer the one the writer has seen; or the writer
projects a result onto a scan that it has seen ended. -/
def Outdated (t : ScanTables) (p : Pending) : Prop :=
  storedStatus t p.scan.id ≠ p.seen ∨ p.projected ∧ ∃ st ∈ p.seen, st.terminal

instance (t : ScanTables) (p : Pending) : Decidable (Outdated t p) := by
  unfold Outdated
  infer_instance

/-- Where an outdated writer saves, it leaves a terminal status as it is. -/
def Harmless (Y : System) (W : World) (op : WorldOp) : Prop :=
  ∀ p ∈ W.saves op, (save Y.host W.shared.db p.scan).1 = .ok () → Outdated W.shared.db.scan p →
    ∀ st ∈ storedStatus W.shared.db.scan p.scan.id, st.terminal → p.scan.status = st

instance (Y : System) (W : World) (op : WorldOp) : Decidable (Harmless Y W op) := by
  unfold Harmless
  infer_instance

theorem saves_ongoing {W : World} (h : Open W) {op : WorldOp} {p : Pending} (hp : W.saves op = some p)
    (hpr : p.projected = false) : Ongoing p.seen := by
  have hla : ∀ l : Launching, LaunchingOpen l → l.pending = some p → Ongoing p.seen := by
    intro l hl hp
    cases l <;> cases hp
    · exact hl.2
    · exact hl
    · exact hl
    · exact hl
  cases op with
  | request i now =>
    simp only [World.saves, Option.bind_eq_some_iff] at hp
    obtain ⟨r, hr, hp⟩ := hp
    have ho := h.requests r (mem_of_getElem? hr)
    cases r with
    | cancel c =>
      cases c <;> cases hp
      exact ho
    | launch l => exact hla l ho hp
    | projection q =>
      cases q with
      | matching scan seen obs =>
        cases obs <;> cases hp
        cases hpr
      | _ => cases hp
  | resume now => exact hla _ h.launching hp
  | run e =>
    cases e with
    | save now =>
      simp only [World.saves, Runner.pending, Option.map_eq_some_iff] at hp
      obtain ⟨scan, hs, rfl⟩ := hp
      have ho := h.runner
      unfold RunnerOpen at ho
      revert hs ho
      cases W.runner.phase <;> intro hs ho <;> cases hs
      · exact ho.2
      · exact ho.2
      · exact ho
      · exact ho
    | _ => cases hp
  | _ => cases hp

theorem storedStatus_saved {h : Host} {db db' : DB} {scan : Scan} (hs : save h db scan = (.ok (), db')) :
    storedStatus db'.scan = Function.update (storedStatus db.scan) scan.id (some scan.status) := by
  rcases save_cases hs with ⟨e, he, -⟩ | ⟨-, -, a, -, rfl⟩
  · cases he
  · funext id
    refine (storedStatus_replaced db.scan scan id).trans ?_
    rw [Function.update_apply]

theorem terminalLasts_step_iff (Y : System) {W : World} (h : Open W) (op : WorldOp) :
    TerminalLasts W.shared.db (W.step Y op).shared.db ↔ Harmless Y W op := by
  have he := saves_effect Y W op
  unfold Harmless
  cases hp : W.saves op with
  | none =>
    rw [hp] at he
    exact iff_of_true he (by simp)
  | some p =>
    rw [hp] at he
    rw [he]
    cases hs : save Y.host W.shared.db p.scan with
    | mk res db' =>
      cases res with
      | error e =>
        rcases save_cases hs with ⟨_, -, rfl⟩ | ⟨hok, -⟩
        · refine iff_of_true (.of_scans rfl) ?_
          rintro _ ⟨⟩ hok
          rw [hs] at hok
          cases hok
        · cases hok
      | ok _ =>
        unfold TerminalLasts
        rw [storedStatus_saved hs, lasts_update_iff]
        constructor
        · rintro hl _ ⟨⟩ - - st hst ht
          exact hl st hst ht
        · intro hh st hst ht
          by_cases ho : Outdated W.shared.db.scan p
          · exact hh p rfl (by rw [hs]) ho st hst ht
          -- an up-to-date writer has seen the terminal status: it is a projection
          unfold Outdated at ho
          rw [not_or, not_not] at ho
          rw [ho.1] at hst
          cases hpr : p.projected with
          | true => exact absurd ⟨hpr, st, hst, ht⟩ ho.2
          | false =>
            rw [saves_ongoing h hp hpr st hst] at ht
            cases ht

/-- **When terminal statuses are final.** From any database, in every
interleaving of runs, cancelations, launches, resumes and projections, a scan
that is stored as completed, failed or canceled keeps its status from then on,
exactly when no outdated writer stores a scan over another terminal status. -/
theorem terminal_final_iff (Y : System) (db : DB) (ops : List WorldOp) :
    (∀ m n, m ≤ n → ∀ id st, storedStatus (run (World.step Y) (World.start db) (ops.take m)).shared.db.scan id =
        some st → st.terminal →
      storedStatus (run (World.step Y) (World.start db) (ops.take n)).shared.db.scan id = some st) ↔
    Along (World.step Y) (Harmless Y) (World.start db) ops :=
  @lasts_throughout_iff _ _ _ _ (fun st : ScanStatus => st.terminal) (World.step Y)
    (fun W => storedStatus W.shared.db.scan) (Harmless Y) Open (fun _ op h => open_step Y h op)
    (fun _ op h => terminalLasts_step_iff Y h op) _ (open_start db) ops

/-! ## Late writers -/

open Small

/-- One worker, and windows that are always open. -/
def smallSystem : System where
  server := server
  errorText _ := ""
  queueSize := 4
  window _ _ := some (true, none)

def smallWorld (ops : List WorldOp) : World :=
  run (World.step smallSystem) (World.start (emptyTables [worker "worker-1"] true)) ops

def storedIn (ops : List WorldOp) (id : String) : Option ScanStatus :=
  storedStatus (smallWorld ops).shared.db.scan id

def localPolicy : Policy := ⟨"policy", .scanExecutionLocal, ""⟩

/-- A scan of one address under a policy. -/
def policyScan : Scan := { scan "s" ["10.0.0.1"] [22] with scanPolicyID := "policy" }

/-- A request takes some steps. -/
def steps (i n : Nat) : List WorldOp := replicate n (.request i (clock 1))

/-- A scan is launched and runs up to its last save. -/
def concluded : List WorldOp :=
  .launch localPolicy policyScan :: steps 0 4 ++
    [.run .take, .run (.begin (clock 1)), .run (.save (clock 1)),
     .run (.probe ⟨⟨"10.0.0.1", "10.0.0.1", []⟩, 22, none, clock 2, clock 2⟩),
     .run (.save (clock 2)), .run (.close false (clock 3))]

/-- The run ends, and a cancelation comes too late to be accepted. -/
def canceledAfter : List WorldOp := concluded ++ [.run (.save (clock 3)), .run .endScan, .cancel "s"] ++ steps 1 4

theorem terminal_final_canceledAfter :
    ∀ m n, m ≤ n → ∀ id st, storedIn (canceledAfter.take m) id = some st → st.terminal →
      storedIn (canceledAfter.take n) id = some st :=
  (terminal_final_iff smallSystem (emptyTables [worker "worker-1"] true) canceledAfter).mpr
    (by decide +kernel)

/-- `Cancel` reads the scan while it runs, and the run ends before it saves. -/
def canceledBefore : List WorldOp := concluded ++ [.cancel "s"] ++ steps 1 1 ++ [.run (.save (clock 3))]

/-- A scan is paused at the end of its window, listed by a tick and then canceled. -/
def canceledPaused : List WorldOp :=
  .launch localPolicy policyScan :: steps 0 4 ++
    [.run .take, .run (.begin (clock 1)), .run (.save (clock 1)),
     .run (.close true (clock 3)), .run (.save (clock 3)), .run .endScan,
     .tick [localPolicy] (clock 4), .cancel "s"] ++ steps 1 4

/-- A remote scan is canceled while its worker has the job. -/
def canceledRemote : List WorldOp :=
  .launch ⟨"policy", .scanExecutionRemote, ""⟩ policyScan :: steps 0 3 ++
    [.server (.lease "worker-1" [1] (clock 1) (clock 60)), .cancel "s"] ++ steps 1 4

/-- The worker reports, and the result is projected. -/
def reported : List WorldOp :=
  .complete (receipt "scan-s" "worker-1" .failed) [1] (clock 31) :: steps 2 5

/-- A completed scan becomes canceled, a canceled one queued, and a canceled
one failed. -/
theorem terminal_status_overwritten : (storedIn canceledBefore "s" = some .completed ∧
      storedIn (canceledBefore ++ steps 1 3) "s" = some .canceled) ∧
    (storedIn canceledPaused "s" = some .canceled ∧
      storedIn (canceledPaused ++ replicate 4 (.resume (clock 4))) "s" = some .queued) ∧
    storedIn canceledRemote "s" = some .canceled ∧
      storedIn (canceledRemote ++ reported) "s" = some .failed := by
  decide +kernel

end Mossward.L5.TerminalStatus
