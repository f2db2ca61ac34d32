import Mossward.L6Scheduler.Runner

/-!
# How many scans one occurrence starts

The life of one policy: ticks that list it and the scans, its turn at the tick,
and whatever the other components do in between. A history keeps each scan
record that a turn created, with the `NextRunAt` it was created for.

A turn that gets an error from the launcher leaves `NextRunAt` as it is. That is
harmless when nothing was stored, or when the scan was left paused. But a remote
scan is stored before it is dispatched and left failed when the dispatch fails,
and the next tick starts the occurrence again. A cron expression without an
occurrence gives the zero time, which is always due.

Results: `decision_start_iff`, `occInv_run`, `one_scan_per_occurrence`.
-/
namespace Mossward.L6.Occurrences

open Table Run L1.Rfc3339 Model L2.Schema Small List Option
open L2.Intelligence L2.Asset L2.ScanStore L2.Projection
open L3.JobDispatch L4.ScanEngine L5.ScanActors
open L6.Schedule L6.Runner

/-! ## Histories -/

structure World where
  shared : Shared
  /-- the policy's row -/
  policy : ReusableScanPolicy
  /-- what the tick under way has listed -/
  listed : Option (ReusableScanPolicy × List Scan)
  /-- the scans that turns have created, each with the `NextRunAt` it was
  created for -/
  created : List (Time × String)
  /-- the time of the last turn -/
  clock : Time

inductive Op
  /-- the two lists at the start of a tick -/
  | tick
  | turn (T : Turn)
  /-- anything else -/
  | other (s : Shared)

/-- The record that a turn creates. -/
def creation (C : Calendar) (policy : ReusableScanPolicy) (scans : List Scan) (T : Turn) (before after : Shared) :
    List (Time × String) :=
  match decision C policy scans T, policy.nextRunAt with
  | .start scan, some nextRunAt =>
    if (storedRow before.db.scan scan.id).isNone && (storedRow after.db.scan scan.id).isSome then
      [(nextRunAt, scan.id)]
    else []
  | _, _ => []

/-- Mirrors `tick`, `internal/scheduling/runner.go:68-97`, for one policy. -/
def World.step (Y : System) (C : Calendar) (w : World) : Op → World
  | .tick =>
    match list w.shared.db.scan with
    | .error _ => { w with listed := none }
    | .ok scans => { w with listed := if w.policy.enabled then some (w.policy, scans) else none }
  | .turn T =>
    match w.listed with
    | none => w
    | some (policy, scans) =>
      let after := process Y C w.shared w.policy policy scans T
      { shared := after.1
        policy := after.2
        listed := none
        created := w.created ++ creation C policy scans T w.shared after.1
        clock := T.now }
  | .other s => { w with shared := s }

/-- The occurrences that started a scan. -/
def World.started (w : World) : List Time := w.created.map Prod.fst

/-! ## Orderly runs -/

/-- The turn loses no scan: `NextRunAt` is not the zero time, and the launch of
a new scan does not fail after storing it, unless the scan will be resumed. -/
def Settles (Y : System) (C : Calendar) (s : Shared) (policy : ReusableScanPolicy) (scans : List Scan) (T : Turn) :
    Prop :=
  ∀ scan, decision C policy scans T = .start scan →
    policy.nextRunAt ≠ some Time.zero ∧
    ∀ e, (launch Y s policy.toPolicy scan T.clock).1 = .error e → e.loses policy.id = false

/-- Turns come at non-decreasing times and lose no scan. The others keep the
inventory sound, and end no scan of the policy before its occurrence passed. -/
def Orderly (Y : System) (C : Calendar) (w : World) : Op → Prop
  | .tick => True
  | .turn T => w.clock ≤ T.now ∧ ∀ policy scans, w.listed = some (policy, scans) →
      Settles Y C w.shared policy scans T
  | .other s => AssetInv s.db.scan.asset ∧ ((∃ v ∈ w.started, w.policy.nextRunAt = some v) →
      ActiveScan w.policy.id w.shared.db.scan → ActiveScan w.policy.id s.db.scan)

/-! ## Decisions -/

section
variable {C : Calendar} {policy row : ReusableScanPolicy} {scans : List Scan} {T : Turn} {scan : Scan}

/-- **Result.** A turn starts a scan exactly if the policy has none that is
active, its run is due and not missed, the window is open, and a scan can be
built. -/
theorem decision_start_iff : decision C policy scans T = .start scan ↔
    ∃ wend nra, window C policy T.now = some (true, wend) ∧
      activePolicyScan scans policy.id = none ∧ policy.nextRunAt = some nra ∧ nra ≤ T.now ∧
      (policy.runMissed = true ∨ T.now.ns - nra.ns ≤ 2 * tickInterval) ∧
      buildScan T.sources policy wend T.now = some scan := by
  unfold decision
  cases hw : window C policy T.now with
  | none => simp
  | some bounds =>
    obtain ⟨inside, wend⟩ := bounds
    cases ha : activePolicyScan scans policy.id with
    | some active =>
      simp only [reduceCtorEq, false_and, and_false, exists_false]
      split
      · simp
      · split <;> simp
    | none =>
      cases hn : policy.nextRunAt with
      | none => simp
      | some nra =>
        by_cases he : T.now < nra
        · simp [he]
        cases inside with
        | false => simp [he]
        | true =>
          cases hm : policy.runMissed with
          | true =>
            cases hb : buildScan T.sources policy wend T.now <;>
              simp [he, hb, not_lt.mp he]
          | false =>
            by_cases hl : 2 * tickInterval < T.now.ns - nra.ns
            · simp [he, hl, -tsub_le_iff_right]
            · cases hb : buildScan T.sources policy wend T.now <;>
                simp [he, hl, hb, not_lt.mp he, not_lt.mp hl, -tsub_le_iff_right]

theorem decision_resume {passes : Bool} (h : decision C policy scans T = .resume scan passes) :
    passes = due policy T.now := by
  unfold decision at h
  split at h
  · cases h
  split at h
  · split at h
    · cases h
      rfl
    · split at h <;> cases h
  split at h
  · cases h
  split at h
  · cases h
  split at h
  · cases h
  split at h
  · cases h
  split at h <;> cases h

theorem following_later {now t : Time} (h : following C policy now = some t) : t = Time.zero ∨ now < t := by
  unfold following at h
  split at h
  · cases h
  obtain ⟨l, -, hne⟩ := bind_eq_some_iff.mp h
  cases hn : next C policy now l with
  | error e =>
    rw [hn] at hne
    cases hne
  | ok t' =>
    rw [hn] at hne
    cases hne
    exact next_later hn

theorem advance_passes {now v : Time} (hze : v ≠ Time.zero) (hv : v ≤ now) :
    (advance C policy row now).nextRunAt ≠ some v := by
  intro h
  rcases following_later h with hz | hl
  · exact hze hz
  · exact absurd hv (not_le.mpr hl)

end

/-! ## The invariant -/

section
variable {Y : System} {C : Calendar} {w : World} {T : Turn}

structure OccInv (w : World) : Prop where
  asset : AssetInv w.shared.db.scan.asset
  listed : ∀ policy scans, w.listed = some (policy, scans) → policy = w.policy
  /-- no occurrence started two scans -/
  once : w.started.Nodup
  past : ∀ v ∈ w.started, v ≤ w.clock ∧ v ≠ Time.zero
  /-- an occurrence that started a scan has passed, or its scan is active -/
  passed : ∀ v ∈ w.started, w.policy.nextRunAt = some v → ActiveScan w.policy.id w.shared.db.scan
  /-- and the tick under way has seen that scan -/
  seen : ∀ policy scans, w.listed = some (policy, scans) → ∀ v ∈ w.started, w.policy.nextRunAt = some v →
    (activePolicyScan scans policy.id).isSome

theorem step_tick (Y : System) (C : Calendar) (w : World) : ∃ scans, list w.shared.db.scan = .ok scans ∧
    w.step Y C .tick = { w with listed := if w.policy.enabled then some (w.policy, scans) else none } := by
  obtain ⟨scans, hl, -⟩ := list_ok w.shared.db.scan
  exact ⟨scans, hl, by simp only [World.step, hl]⟩

theorem occInv_tick (h : OccInv w) : OccInv (w.step Y C .tick) := by
  obtain ⟨scans, hlis, hs⟩ := step_tick Y C w
  have hli : ∀ pol scans', (if w.policy.enabled = true then some (w.policy, scans) else none) =
      some (pol, scans') → pol = w.policy ∧ scans' = scans := by
    intro pol scans' hl
    split at hl
    · cases hl
      exact ⟨rfl, rfl⟩
    · cases hl
  rw [hs]
  refine ⟨h.asset, fun pol scans' hl => (hli pol scans' hl).1, h.once, h.past, h.passed, ?_⟩
  intro pol scans' hl v hv hn
  obtain ⟨rfl, rfl⟩ := hli pol scans' hl
  exact (activePolicyScan_list hlis w.policy.id).mpr (h.passed v hv hn)

theorem occInv_other {s : Shared} (h : OccInv w) (ho : Orderly Y C w (.other s)) :
    OccInv (w.step Y C (.other s)) :=
  ⟨ho.1, h.listed, h.once, h.past, fun v hv hn => ho.2 ⟨v, hv, hn⟩ (h.passed v hv hn), h.seen⟩

theorem step_turn {policy : ReusableScanPolicy} {scans : List Scan} (hl : w.listed = some (policy, scans)) :
    w.step Y C (.turn T) =
      { shared := (process Y C w.shared w.policy policy scans T).1
        policy := (process Y C w.shared w.policy policy scans T).2
        listed := none
        created := w.created ++
          creation C policy scans T w.shared (process Y C w.shared w.policy policy scans T).1
        clock := T.now } := by
  simp only [World.step, hl]

/-- The world after a turn of the listed policy, whatever the turn has done. -/
theorem occInv_after {s : Shared} {row : ReusableScanPolicy} {new : List (Time × String)} (h : OccInv w)
    (hc : w.clock ≤ T.now) (ha : AssetInv s.db.scan.asset)
    (hne : new.map Prod.fst = [] ∨ ∃ v, new.map Prod.fst = [v] ∧ v ∉ w.started ∧ v ≤ T.now ∧ v ≠ Time.zero)
    (hr : ∀ v ∈ w.started ++ new.map Prod.fst, row.nextRunAt = some v → ActiveScan row.id s.db.scan) :
    OccInv { shared := s, policy := row, listed := none, created := w.created ++ new, clock := T.now } := by
  have hs : World.started ⟨s, row, none, w.created ++ new, T.now⟩ = w.started ++ new.map Prod.fst :=
    map_append
  have hp : ∀ v ∈ w.started, v ≤ T.now ∧ v ≠ Time.zero :=
    fun v hv => ⟨(h.past v hv).1.trans hc, (h.past v hv).2⟩
  refine ⟨ha, fun _ _ hl => (by cases hl), ?_, ?_, ?_, fun _ _ hl => (by cases hl)⟩
  all_goals rw [hs]
  · rcases hne with hn | ⟨v, hv, hf, -⟩
    · rw [hn, append_nil]
      exact h.once
    rw [hv]
    exact nodup_append.mpr ⟨h.once, nodup_singleton v, by
      rintro a ha b hb rfl
      exact hf (mem_singleton.mp hb ▸ ha)⟩
  · intro v hv
    rcases mem_append.mp hv with hv | hv
    · exact hp v hv
    rcases hne with hn | ⟨v', hv', -, hle, hz⟩
    · rw [hn] at hv
      cases hv
    · rw [hv', mem_singleton] at hv
      exact hv ▸ ⟨hle, hz⟩
  · exact hr

section
variable {pol : ReusableScanPolicy} {scan : Scan} {scans : List Scan} (hd : decision C pol scans T = .start scan)
include hd

theorem creation_start {v : Time} (hv : pol.nextRunAt = some v) (s s' : Shared) :
    creation C pol scans T s s' =
      if (storedRow s.db.scan scan.id).isNone && (storedRow s'.db.scan scan.id).isSome then [(v, scan.id)]
      else [] := by
  simp only [creation, hd, hv]

theorem process_start {row : ReusableScanPolicy} {s : Shared} :
    process Y C s row pol scans T = ((launch Y s pol.toPolicy scan T.clock).2,
      if (launch Y s pol.toPolicy scan T.clock).1 = .ok () then advance C pol row T.now else row) := by
  simp only [process, hd]
  cases launch Y s pol.toPolicy scan T.clock with
  | mk res s' => cases res <;> rfl

end

/-- A turn that starts a scan: either it stores nothing, or the occurrence
passes, or the scan is left to be resumed. -/
theorem occInv_start {scans : List Scan} {scan : Scan} (h : OccInv w) (hc : w.clock ≤ T.now)
    (hl : w.listed = some (w.policy, scans)) (hs : Settles Y C w.shared w.policy scans T)
    (hd : decision C w.policy scans T = .start scan) : OccInv (w.step Y C (.turn T)) := by
  obtain ⟨wend, v, -, ha, hn, hle, -, hb⟩ := decision_start_iff.mp hd
  obtain ⟨hba, hq, hp, -⟩ := buildScan_new hb
  obtain ⟨hz, hset⟩ := hs scan hd
  rw [hn] at hz
  have hz : v ≠ Time.zero := fun hv => hz (congrArg some hv)
  have hf : v ∉ w.started := by
    intro hv
    have hse := h.seen w.policy scans hl v hv hn
    rw [ha] at hse
    cases hse
  have hne : ∀ s', (creation C w.policy scans T w.shared s').map Prod.fst = [] ∨
      (creation C w.policy scans T w.shared s').map Prod.fst = [v] := by
    intro s'
    rw [creation_start hd hn]
    split
    · exact .inr rfl
    · exact .inl rfl
  have hm : ∀ s', ∀ v' ∈ w.started ++ (creation C w.policy scans T w.shared s').map Prod.fst,
      v' ∈ w.started ∨ v' = v := by
    intro s' v' hv'
    rcases hne s' with hni | hon
    · exact .inl (by simpa [hni] using hv')
    · simpa [hon] using hv'
  rw [step_turn hl, process_start hd]
  refine occInv_after h hc (launch_assetInv Y _ scan T.clock h.asset)
    ((hne _).imp_right fun hv => ⟨v, hv, hf, hle, hz⟩) ?_
  intro v' hv' hr
  rcases launch_new Y w.shared w.policy.toPolicy scan T.clock h.asset hba hq with
    ⟨-, hsa, e, he, -⟩ | ⟨-, -, -, r, hrp, hrs, hro⟩
  · -- nothing was stored, so the occurrence is none of those that started a scan
    exfalso
    simp only [he, reduceCtorEq, if_false, hn, some.injEq] at hr
    subst hr
    have hni : creation C w.policy scans T w.shared
        (launch Y w.shared w.policy.toPolicy scan T.clock).2 = [] := by
      rw [creation_start hd hn, hsa]
      cases storedRow w.shared.db.scan scan.id <;> rfl
    rw [hni] at hv'
    exact hf (by simpa using hv')
  · cases hre : (launch Y w.shared w.policy.toPolicy scan T.clock).1 with
    | ok u =>
      rw [hre] at hr
      refine absurd hr ?_
      rcases hm _ v' hv' with ho | rfl
      · exact advance_passes (h.past v' ho).2 ((h.past v' ho).1.trans hc)
      · exact advance_passes hz hle
    | error e =>
      have hpa : r.status = .paused := by
        have hlo := hset e hre
        rw [hrs, hre, hp]
        simp only [statusAfter, hlo, Bool.false_eq_true, if_false]
      refine ⟨scan.id, r, (hro scan.id).trans (if_pos rfl), ?_, ?_⟩
      · exact hrp.trans hp
      · rw [hpa]
        rfl

theorem occInv_turn (h : OccInv w) (ho : Orderly Y C w (.turn T)) : OccInv (w.step Y C (.turn T)) := by
  cases hl : w.listed with
  | none =>
    simp only [World.step, hl]
    exact h
  | some lists =>
    obtain ⟨pol, scans⟩ := lists
    obtain rfl := h.listed pol scans hl
    have hp : ∀ v ∈ w.started, (advance C w.policy w.policy T.now).nextRunAt ≠ some v :=
      fun v hv => advance_passes (h.past v hv).2 ((h.past v hv).1.trans ho.1)
    cases hd : decision C w.policy scans T with
    | wait =>
      rw [step_turn hl]
      simp only [process, creation, hd]
      refine occInv_after h ho.1 h.asset (.inl rfl) fun v hv => ?_
      exact h.passed v (by simpa using hv)
    | skip =>
      rw [step_turn hl]
      simp only [process, creation, hd]
      refine occInv_after h ho.1 h.asset (.inl rfl) fun v hv hn => ?_
      exact absurd hn (hp v (by simpa using hv))
    | resume scan passes =>
      obtain rfl := decision_resume hd
      rw [step_turn hl]
      simp only [process, creation, hd]
      refine occInv_after h ho.1 (launch_assetInv Y _ scan T.clock h.asset) (.inl rfl) fun v hv hn => ?_
      have hv : v ∈ w.started := by simpa using hv
      exfalso
      split at hn
      · exact hp v hv hn
      -- an occurrence of the past is due
      rename_i hdu
      refine hdu ?_
      simpa [due, hn] using (h.past v hv).1.trans ho.1
    | start scan => exact occInv_start h ho.1 hl (ho.2 w.policy scans hl) hd

/-- **Result.** In an orderly run, an occurrence that started a scan has passed
or has an active scan. -/
theorem occInv_run (h : OccInv w) {ops : List Op} (ho : Along (World.step Y C) (Orderly Y C) w ops) :
    OccInv (run (World.step Y C) w ops) := by
  refine run_invariant_along (fun w op hw hop => ?_) h ho
  cases op with
  | tick => exact occInv_tick hw
  | turn T => exact occInv_turn hw hop
  | other s => exact occInv_other hw hop

end

/-! ## The same occurrence again -/

/-- The same turn, with another random identifier. -/
def renamed (T : Turn) (id : String) : Turn := { T with sources := { T.sources with scheduleID := some id } }

/-- The next tick starts `scan` for the occurrence `v`. -/
structure Starting (C : Calendar) (w : World) (T : Turn) (scan : Scan) (v : Time) : Prop where
  asset : AssetInv w.shared.db.scan.asset
  enabled : w.policy.enabled = true
  idle : ¬ ActiveScan w.policy.id w.shared.db.scan
  next : w.policy.nextRunAt = some v
  start : decision C w.policy [] T = .start scan
  new : storedRow w.shared.db.scan scan.id = none

section
variable {Y : System} {C : Calendar} {w : World} {T : Turn} {scan : Scan} {v : Time}

theorem buildScan_renamed {pol : ReusableScanPolicy} {wend : Option Time} {now : Time}
    (h : buildScan T.sources pol wend now = some scan) (id : String) :
    buildScan (renamed T id).sources pol wend now = some { scan with id := id } := by
  unfold buildScan at h
  split at h
  · rename_i src scope ht hs
    split at h
    · cases h
    rename_i ho
    split at h
    · rename_i tgts ports id' hv hi
      cases h
      simp only [buildScan, renamed, ht, hs, ho, hv]
      rfl
    · cases h
  · cases h

theorem decision_renamed {pol : ReusableScanPolicy} {scans : List Scan} (id : String)
    (ha : activePolicyScan scans pol.id = none) (hd : decision C pol [] T = .start scan) :
    decision C pol scans (renamed T id) = .start { scan with id := id } := by
  obtain ⟨wend, v, hw, -, hn, hl, hm, hb⟩ := decision_start_iff.mp hd
  exact decision_start_iff.mpr ⟨wend, v, hw, ha, hn, hl, hm, buildScan_renamed hb id⟩

section
variable (h : Starting C w T scan v)
include h

theorem Starting.new_scan :
    Bare scan ∧ scan.status = .queued ∧ scan.scanPolicyID = w.policy.id ∧ T.sources.scheduleID = some scan.id := by
  obtain ⟨_, _, -, -, -, -, -, hb⟩ := decision_start_iff.mp h.start
  exact buildScan_new hb

theorem Starting.run (hst : Accepts w.shared w.policy.toPolicy scan T.clock ∧ Admissible scan) :
    Run.run (World.step Y C) w [.tick, .turn T] =
      { shared := (launch Y w.shared w.policy.toPolicy scan T.clock).2
        policy :=
          if (launch Y w.shared w.policy.toPolicy scan T.clock).1 = .ok () then advance C w.policy w.policy T.now
          else w.policy
        listed := none
        created := w.created ++ [(v, scan.id)]
        clock := T.now } := by
  obtain ⟨hb, hq, -, hi⟩ := h.new_scan
  obtain ⟨scans, hl, hs⟩ := step_tick Y C w
  rw [h.enabled] at hs
  have ha : activePolicyScan scans w.policy.id = none := by
    rw [← not_isSome_iff_eq_none, activePolicyScan_list hl]
    exact h.idle
  have hd : decision C w.policy scans T = .start scan := by
    have hT : renamed T scan.id = T := by
      unfold renamed
      rw [← hi]
    have hr := decision_renamed scan.id ha h.start
    rwa [hT] at hr
  have hc : creation C w.policy scans T w.shared (launch Y w.shared w.policy.toPolicy scan T.clock).2 =
      [(v, scan.id)] := by
    rcases launch_new Y w.shared w.policy.toPolicy scan T.clock h.asset hb hq with
      ⟨hn, -⟩ | ⟨-, -, -, r, -, -, hro⟩
    · exact absurd hst hn
    · rw [creation_start hd h.next, h.new, hro scan.id, if_pos rfl]
      rfl
  rw [run_cons, run_cons, run_nil, hs, step_turn rfl]
  simp only [process_start hd, hc]

/-- A turn that leaves `NextRunAt` as it was, seen from any later moment at
which the policy has no active scan: the same turn starts another. -/
theorem Starting.again (hs : Accepts w.shared w.policy.toPolicy scan T.clock ∧ Admissible scan)
    (hst : (launch Y w.shared w.policy.toPolicy scan T.clock).1 = .ok () → following C w.policy T.now = some v)
    {s : Shared} (ha : AssetInv s.db.scan.asset) (hi : ¬ ActiveScan w.policy.id s.db.scan)
    (hc : s.closed = w.shared.closed) {id : String} (hid : storedRow s.db.scan id = none) :
    (Run.run (World.step Y C) w [.tick, .turn T, .other s, .tick, .turn (renamed T id)]).created =
      w.created ++ [(v, scan.id), (v, id)] := by
  have hsp : ([.tick, .turn T, .other s, .tick, .turn (renamed T id)] : List Op) =
      [.tick, .turn T] ++ [.other s] ++ [.tick, .turn (renamed T id)] := rfl
  rw [hsp, run_append, run_append, h.run hs]
  -- the policy has changed at most in when it was last scheduled
  obtain ⟨last, hp⟩ : ∃ last,
      (if (launch Y w.shared w.policy.toPolicy scan T.clock).1 = .ok () then advance C w.policy w.policy T.now
        else w.policy) = { w.policy with lastScheduledAt := last } := by
    by_cases ho : (launch Y w.shared w.policy.toPolicy scan T.clock).1 = .ok ()
    · refine ⟨some T.now, ?_⟩
      have hsa : following C w.policy T.now = w.policy.nextRunAt := (hst ho).trans h.next.symm
      rw [if_pos ho]
      simp only [advance, hsa]
    · exact ⟨w.policy.lastScheduledAt, if_neg ho⟩
  rw [hp]
  have hn : Starting C
      { shared := s, policy := { w.policy with lastScheduledAt := last }, listed := none
        created := w.created ++ [(v, scan.id)], clock := T.now }
      (renamed T id) { scan with id := id } v :=
    ⟨ha, h.enabled, hi, h.next, decision_renamed id rfl h.start, hid⟩
  have hs' : Accepts s w.policy.toPolicy { scan with id := id } T.clock ∧ Admissible { scan with id := id } := by
    refine ⟨?_, hs.2⟩
    have hac := hs.1
    unfold Accepts at hac ⊢
    rw [hc]
    exact hac
  have hr := congrArg World.created (hn.run (Y := Y) hs')
  exact hr.trans (by simp)

theorem Starting.lost {e : LaunchFailure}
    (he : (launch Y w.shared w.policy.toPolicy scan T.clock).1 = .error e) (hl : e.loses w.policy.id = true) :
    (Accepts w.shared w.policy.toPolicy scan T.clock ∧ Admissible scan) ∧
      (launch Y w.shared w.policy.toPolicy scan T.clock).2.closed = w.shared.closed ∧
      ¬ ActiveScan w.policy.id (launch Y w.shared w.policy.toPolicy scan T.clock).2.db.scan ∧
      ∀ id, id ≠ scan.id → storedRow (launch Y w.shared w.policy.toPolicy scan T.clock).2.db.scan id =
        storedRow w.shared.db.scan id := by
  obtain ⟨hb, hq, hp, -⟩ := h.new_scan
  rcases launch_new Y w.shared w.policy.toPolicy scan T.clock h.asset hb hq with
    ⟨-, -, e', he', hn⟩ | ⟨hs, -, hc, r, -, hrs, hr⟩
  · rw [he] at he'
    cases he'
    rw [hp, hl] at hn
    cases hn
  · have hf : r.status = .failed := by
      rw [hrs, he, hp]
      simp only [statusAfter, hl, if_true]
    refine ⟨hs, hc, ?_, fun id hi => (hr id).trans (if_neg hi)⟩
    rintro ⟨id, r', hr', hp', ha⟩
    rw [hr id] at hr'
    split at hr'
    · cases hr'
      rw [hf] at ha
      cases ha
    · exact h.idle ⟨id, r', hr', hp', ha⟩

end

end

theorem settles_local (Y : System) (C : Calendar) (s : Shared) {pol : ReusableScanPolicy} (scans : List Scan)
    (T : Turn) (hm : pol.executionMode = .unset ∨ pol.executionMode = .scanExecutionLocal)
    (hi : pol.id ≠ "") (hz : pol.nextRunAt ≠ some Time.zero) : Settles Y C s pol scans T := by
  intro scan _
  refine ⟨hz, fun e he => ?_⟩
  have hs : (schedule Y s scan T.clock.launch).1 = .error e := by
    rcases hm with hm | hm
    all_goals
      simp only [launch, hm] at he
      exact he
  unfold schedule at hs
  split at hs
  · cases hs
    rfl
  split at hs
  · cases hs
    rfl
  split at hs
  · cases hs
  · cases hs
    exact decide_eq_false hi

/-- A world in which no turn was taken yet. -/
structure Fresh (w : World) : Prop where
  asset : AssetInv w.shared.db.scan.asset
  listed : w.listed = none
  created : w.created = []

/-- **Result.** In a run whose turns lose no scan, every `NextRunAt` starts at
most one scan. When the launch of a new scan fails and loses it, the same
occurrence starts another at the next tick; and the zero time starts another
whenever the policy has no active scan. -/
theorem one_scan_per_occurrence (Y : System) (C : Calendar) :
    (∀ w ops, Fresh w → Along (World.step Y C) (Orderly Y C) w ops →
      (run (World.step Y C) w ops).started.Nodup) ∧
    (∀ w T scan v e id, Starting C w T scan v →
      (launch Y w.shared w.policy.toPolicy scan T.clock).1 = .error e → e.loses w.policy.id = true →
      id ≠ scan.id → storedRow w.shared.db.scan id = none →
      (run (World.step Y C) w [.tick, .turn T, .tick, .turn (renamed T id)]).created =
        w.created ++ [(v, scan.id), (v, id)]) ∧
    (∀ w T scan s id, Starting C w T scan Time.zero →
      Accepts w.shared w.policy.toPolicy scan T.clock → Admissible scan →
      following C w.policy T.now = some Time.zero →
      AssetInv s.db.scan.asset → ¬ ActiveScan w.policy.id s.db.scan → s.closed = w.shared.closed →
      storedRow s.db.scan id = none →
      (run (World.step Y C) w [.tick, .turn T, .other s, .tick, .turn (renamed T id)]).created =
        w.created ++ [(Time.zero, scan.id), (Time.zero, id)]) := by
  refine ⟨fun w ops hw ho => ?_, fun w T scan v e id h he hl hn hid => ?_, ?_⟩
  · have hst : w.started = [] := congrArg (map Prod.fst) hw.created
    have hsta : OccInv w := by
      refine ⟨hw.asset, ?_, ?_, ?_, ?_, ?_⟩
      all_goals simp [hw.listed, hst]
    exact (occInv_run hsta ho).once
  · obtain ⟨hs, hc, hi, hr⟩ := h.lost he hl
    have hag := h.again (Y := Y) hs (fun hok => by rw [he] at hok; cases hok)
      (launch_assetInv Y _ scan T.clock h.asset) hi hc ((hr id hn).trans hid)
    -- the other components have done nothing
    have hsp : ∀ ops : List Op, run (World.step Y C) w (.tick :: .turn T :: ops) =
        run (World.step Y C) (run (World.step Y C) w [.tick, .turn T]) ops := fun _ => rfl
    rw [hsp, h.run hs] at hag ⊢
    exact hag
  · intro w T scan s id h hac had hz ha hi hc hid
    exact h.again ⟨hac, had⟩ (fun _ => hz) ha hi hc hid

def smallSystem : System where
  server := L3.SqliteServer.Small.server
  errorText := fun _ => "constraint failed"
  queueSize := 4
  window := fun _ _ => some (true, none)

/-- Every zone is UTC, and every cron expression means once a day. -/
def smallCalendar : Calendar where
  location := fun _ => some ⟨fun _ => 0, fun t => t⟩
  cron := fun _ => some fun _ t => (Time.ofNs (t.ns + 24 * hour)).getD Time.zero
  cron_next := by
    rintro _ _ ⟨⟩ _ t
    by_cases hyear : YearInRange (t.ns + 24 * hour)
    · simp only [Time.ofNs, dif_pos hyear, getD_some]
      exact .inr (Int.lt_add_of_pos_right t.ns (by decide))
    · simp only [Time.ofNs, dif_neg hyear]
      exact .inl rfl

def smallPolicy (mode : ScanExecutionMode) : ReusableScanPolicy where
  id := "policy"
  executionMode := mode
  workerSiteID := ""
  name := "nightly"
  scopePolicyID := "scope"
  ports := [22]
  enabled := true
  scheduleKind := .cron
  scheduleExpression := "0 0 * * *"
  scheduleTimezone := "UTC"
  windowStart := ""
  windowEnd := ""
  runMissed := false
  rateLimitPerSecond := 0
  nextRunAt := some (clock 0)
  lastScheduledAt := none

def smallTurn (at_ : Int) (id : String) : Turn where
  now := clock at_
  sources :=
    { targets := some [⟨"10.0.0.1", "10.0.0.1", []⟩]
      scope := some ⟨"scope", true, 1⟩
      validateWithPolicy := fun addresses ports _ => some (addresses.map fun a => ⟨a, a, []⟩, ports)
      scheduleID := some id }
  clock := ⟨clock at_, clock at_, clock at_⟩

/-- No scan, and no worker. -/
def smallWorld (mode : ScanExecutionMode) : World where
  shared :=
    { db := emptyTables [] true, queue := [], closed := false, stopped := false, locked := false, active := none
      canceled := [], contexts := [], runs := 0 }
  policy := smallPolicy mode
  listed := none
  created := []
  clock := clock 0

theorem smallWorld_asset (mode : ScanExecutionMode) : AssetInv (smallWorld mode).shared.db.scan.asset :=
  (storeInv_empty [] true).asset

/-- With a local policy the second tick finds the occurrence passed; with a
remote one it starts another scan. -/
theorem one_scan_per_occurrence_small :
    (run (World.step smallSystem smallCalendar) (smallWorld .scanExecutionLocal)
      [.tick, .turn (smallTurn 0 "a"), .tick, .turn (smallTurn 30 "b")]).started.Nodup ∧
    (run (World.step smallSystem smallCalendar) (smallWorld .scanExecutionRemote)
      [.tick, .turn (smallTurn 0 "a"), .tick, .turn (renamed (smallTurn 0 "a") "b")]).created =
        [(clock 0, "a"), (clock 0, "b")] := by
  obtain ⟨hlo, hre, -⟩ := one_scan_per_occurrence smallSystem smallCalendar
  constructor
  · -- what the ticks list is a local policy whose next run is not the zero time
    have hs : ∀ (w : World) (T : Turn), w.listed.all (fun l => l.1.executionMode = .scanExecutionLocal &&
        l.1.id = "policy" && l.1.nextRunAt ≠ some Time.zero) → ∀ pol scans, w.listed = some (pol, scans) →
        Settles smallSystem smallCalendar w.shared pol scans T := by
      intro w T ha pol scans hl
      rw [hl] at ha
      simp only [all_some, Bool.and_eq_true, decide_eq_true_eq] at ha
      exact settles_local _ _ _ _ _ (.inr ha.1.1) (by rw [ha.1.2]; decide) ha.2
    exact hlo _ _ ⟨smallWorld_asset _, rfl, rfl⟩ ⟨trivial, ⟨by decide +kernel, hs _ _ (by decide +kernel)⟩,
        trivial, ⟨by decide +kernel, hs _ _ (by decide +kernel)⟩, trivial⟩
  · refine hre (smallWorld .scanExecutionRemote) (smallTurn 0 "a")
      { scan "a" ["10.0.0.1"] [22] with
        name := "nightly", scopePolicyID := "scope", maxConcurrent := 1, scanPolicyID := "policy" } (clock 0)
      (.remote (.dispatch .noEligibleWorker)) "b"
      ⟨smallWorld_asset _, rfl, ?_, rfl, decision_start_iff.mpr ?_, rfl⟩ (by decide +kernel) rfl (by decide) rfl
    · rintro ⟨_, _, hr, -⟩
      cases hr
    · exact ⟨none, clock 0, rfl, rfl, rfl, le_rfl, .inr (by decide), rfl⟩

/-- Two ticks, half a minute apart, find no worker: the occurrence has started
two scans, and is still due. -/
theorem occurrence_started_twice :
    let w := run (World.step smallSystem smallCalendar) (smallWorld .scanExecutionRemote)
      [.tick, .turn (smallTurn 0 "a"), .tick, .turn (smallTurn 30 "b")]
    w.created = [(clock 0, "a"), (clock 0, "b")] ∧ w.policy.nextRunAt = some (clock 0) ∧
      w.shared.db.scan.scans.map (fun r => (r.id, r.status)) = [("a", .failed), ("b", .failed)] := by
  decide +kernel

end Mossward.L6.Occurrences
