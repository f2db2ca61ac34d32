import Mossward.L4App.ScanResume

/-!
# The checks a worker has still to make

A job that was reassigned carries the checks that the worker before has
completed. Validation finds their targets by parsed address; the executor of the
worker skips a check whose text `address:port` is among the completed ones:
`internal/workerclient/executor.go:114-133` and
`internal/workerjob/validate.go:63-92`.

Results: `validate_facts`, `pending_exact_iff`.
-/
namespace Mossward.L4.PendingChecks

open Table L1.Rfc3339 L1.NetAddr Model L3.JobDispatch List
open L4.ScanResume

def executionCheckKey (address : String) (port : Int) : List Char := jobKey address port

/-- The completed checks of the resume manifest. -/
def completedChecks (job : WorkerJob) : List WorkerCheckpoint := (job.resume.map (·.completed)).getD []

/-- The keys of the map `completed`. -/
def completedKeys (job : WorkerJob) : List (List Char) :=
  ((completedChecks job).map fun c => executionCheckKey c.address c.port).dedup

/-- The checks that are not skipped. -/
def pendingChecks (job : WorkerJob) : List ScanJob :=
  (scanJobs job.targets job.ports).filter fun check =>
    executionCheckKey check.target.address check.port ∉ completedKeys job

/-- Mirrors `pendingExecutionChecks`: the pending checks and the number of
completed ones. `make` panics for a negative capacity. -/
def pendingExecutionChecks (job : WorkerJob) : Option (List ScanJob × Nat) :=
  if job.targets.length * job.ports.length < (completedKeys job).length then none
  else some (pendingChecks job, (completedKeys job).length)

/-! ## What validation says -/

section
variable {α : Type} [DecidableEq α]

theorem checkDistinct_ok {msg : String} {allowed seen xs : List α}
    (h : checkDistinct msg allowed seen xs = .ok ()) : xs.Nodup ∧ ∀ x ∈ xs, x ∉ seen := by
  induction xs generalizing seen with
  | nil => simp
  | cons x xs ih =>
    unfold checkDistinct at h
    split at h
    · cases h
    rename_i hx
    simp only [Bool.or_eq_true, decide_eq_true_eq, not_or] at hx
    obtain ⟨hn, hf⟩ := ih h
    constructor
    · rw [nodup_cons]
      exact ⟨fun hm => hf x hm mem_cons_self, hn⟩
    · intro y hy
      rcases mem_cons.mp hy with rfl | hy
      · exact hx.2
      · exact fun hs => hf y hy (mem_cons_of_mem _ hs)

end

theorem checkTargets_ok {pfs : List Prefix} {seen : List Addr} {tgts : List Target}
    (h : checkTargets pfs seen tgts = .ok ()) :
    ∃ addrs : List Addr, tgts.map (fun t => parseAddr t.address) = addrs.map some ∧
      addrs.Nodup ∧ ∀ a ∈ addrs, a ∉ seen := by
  induction tgts generalizing seen with
  | nil => exact ⟨[], rfl, .nil, by simp⟩
  | cons t ts ih =>
    unfold checkTargets at h
    split at h
    · cases h
    rename_i a ha
    split at h
    · cases h
    rename_i hn
    simp only [Bool.or_eq_true, decide_eq_true_eq, not_or] at hn
    obtain ⟨addrs, hp, hno, hf⟩ := ih h
    refine ⟨a :: addrs, ?_, ?_, ?_⟩
    · rw [map_cons, map_cons, ha, hp]
    · rw [nodup_cons]
      exact ⟨fun hm => hf a hm mem_cons_self, hno⟩
    · intro b hb
      rcases mem_cons.mp hb with rfl | hb
      · exact hn.1
      · exact fun hs => hf b hb (mem_cons_of_mem _ hs)

theorem checkResume_ok {job : WorkerJob} {seen : List (Addr × Int)} {done : List WorkerCheckpoint}
    (h : checkResume job seen done = .ok ()) :
    (∀ c ∈ done, c.port ∈ job.ports ∧ ∃ t ∈ job.targets, parseAddr c.address = parseAddr t.address) ∧
    ∃ keys : List (Addr × Int), done.map (fun c => (parseAddr c.address, c.port % 65536)) =
      keys.map (fun k => (some k.1, k.2)) ∧
      keys.Nodup ∧ ∀ k ∈ keys, k ∉ seen := by
  induction done generalizing seen with
  | nil => exact ⟨by simp, [], rfl, .nil, by simp⟩
  | cons c cs ih =>
    unfold checkResume at h
    split at h
    · cases h
    rename_i a ha
    split at h
    · cases h
    rename_i hs
    split at h
    · cases h
    rename_i hne
    simp only [Bool.or_eq_true, decide_eq_true_eq, not_or, not_not, mem_filterMap] at hs
    obtain ⟨⟨⟨t, ht, hp⟩, hpo⟩, -⟩ := hs
    obtain ⟨hal, keys, hke, hn, hf⟩ := ih h
    refine ⟨?_, (a, c.port % 65536) :: keys, ?_, ?_, ?_⟩
    · intro c' hc'
      rcases mem_cons.mp hc' with rfl | hc'
      · exact ⟨hpo, t, ht, ha.trans hp.symm⟩
      · exact hal c' hc'
    · rw [map_cons, map_cons, ha, hke]
    · rw [nodup_cons]
      exact ⟨fun hm => hf _ hm mem_cons_self, hn⟩
    · intro k hk
      rcases mem_cons.mp hk with rfl | hk
      · exact hne
      · exact fun hse => hf k hk (mem_cons_of_mem _ hse)

/-- What validation says about the checks of a job. -/
structure Valid (job : WorkerJob) : Prop where
  targets : (job.targets.map fun t => parseAddr t.address).Nodup
  ports : job.ports.Nodup
  scope : ∀ c ∈ completedChecks job, c.port ∈ job.ports ∧ ∃ t ∈ job.targets, parseAddr c.address = parseAddr t.address
  distinct : ((completedChecks job).map fun c => (parseAddr c.address, c.port)).Nodup

/-- **Validation.** -/
theorem validate_facts {job : WorkerJob} {wk : ScannerWorker} {now : Time}
    (h : validate job wk now = .ok ()) : Valid job := by
  unfold validate at h
  simp only [bind_eq_ok] at h
  obtain ⟨_, -, _, -, _, -, _, -, _, -, _, -, _, ht, _, hp, _, hre, -⟩ := h
  have hc : (∀ c ∈ completedChecks job, c.port ∈ job.ports ∧
        ∃ t ∈ job.targets, parseAddr c.address = parseAddr t.address) ∧
      ((completedChecks job).map fun c => (parseAddr c.address, c.port)).Nodup := by
    unfold validateJobResume at hre
    unfold completedChecks
    cases hr : job.resume with
    | none => exact ⟨by simp, .nil⟩
    | some resume =>
      rw [hr] at hre
      dsimp only at hre
      split at hre
      · cases hre
      obtain ⟨hs, keys, hke, hn, -⟩ := checkResume_ok hre
      refine ⟨hs, ?_⟩
      -- the keys tell the ports apart even modulo 2^16
      apply List.Nodup.of_map fun k : Option Addr × Int => (k.1, k.2 % 65536)
      rw [map_map]
      show (resume.completed.map fun c => (parseAddr c.address, c.port % 65536)).Nodup
      rw [hke]
      apply hn.map
      intro k k' hk
      simp only [Prod.mk.injEq, Option.some.injEq] at hk
      exact Prod.ext hk.1 hk.2
  constructor
  · unfold validateJobTargets at ht
    split at ht
    · cases ht
    split at ht
    · cases ht
    · obtain ⟨addrs, hpa, hn, -⟩ := checkTargets_ok ht
      rw [hpa]
      exact hn.map (Option.some_injective _)
  · unfold validateJobPorts at hp
    split at hp
    · cases hp
    · exact (checkDistinct_ok hp).1
  · exact hc.1
  · exact hc.2

/-! ## Skipped and pending checks -/

/-- Every completed check is spelled like the target it stands for. -/
def Spelled (job : WorkerJob) : Prop :=
  ∀ c ∈ completedChecks job, ∀ t ∈ job.targets, parseAddr c.address = parseAddr t.address → c.address = t.address

/-- The checks are those that no completed one stands for, each once, and the
number of skipped ones is right. -/
structure Exact (job : WorkerJob) (checks : List ScanJob) (skipped : Nat) : Prop where
  pending : ∀ target port, ⟨target, port⟩ ∈ checks ↔ target ∈ job.targets ∧ port ∈ job.ports ∧
    ¬ ∃ c ∈ completedChecks job, c.port = port ∧ parseAddr c.address = parseAddr target.address
  once : checks.Nodup
  counted : checks.length + skipped = job.targets.length * job.ports.length

theorem mem_scanJobs {tgts : List Target} {ports : List Int} {check : ScanJob} :
    check ∈ scanJobs tgts ports ↔ check.target ∈ tgts ∧ check.port ∈ ports := by
  unfold scanJobs
  simp only [mem_flatMap, mem_map]
  constructor
  · intro ⟨tgt, ht, port, hp, he⟩
    subst he
    exact ⟨ht, hp⟩
  · intro ⟨ht, hp⟩
    exact ⟨check.target, ht, check.port, hp, rfl⟩

/-- The completed checks by text. -/
def completedTexts (job : WorkerJob) : List (String × Int) := (completedChecks job).map fun c => (c.address, c.port)

theorem mem_completedKeys {job : WorkerJob} {adr : String} {port : Int} :
    executionCheckKey adr port ∈ completedKeys job ↔ (adr, port) ∈ completedTexts job := by
  unfold completedKeys completedTexts executionCheckKey
  simp only [mem_dedup, mem_map, jobKey_inj, Prod.mk.injEq]

section
variable {job : WorkerJob}

section
variable (h : Valid job)
include h

theorem Valid.texts_nodup : (completedTexts job).Nodup := by
  apply List.Nodup.of_map fun k : String × Int => (parseAddr k.1, k.2)
  unfold completedTexts
  rw [map_map]
  exact h.distinct

theorem Valid.length_completedKeys : (completedKeys job).length = (completedTexts job).length := by
  have hke : (completedChecks job).map (fun c => executionCheckKey c.address c.port) =
      (completedTexts job).map fun k => jobKey k.1 k.2 := by
    unfold completedTexts
    rw [map_map]
    rfl
  have hn : ((completedTexts job).map fun k => jobKey k.1 k.2).Nodup := by
    apply h.texts_nodup.map
    intro k k' hk
    obtain ⟨ha, hp⟩ := jobKey_inj.mp hk
    exact Prod.ext ha hp
  unfold completedKeys
  rw [hke, hn.dedup, length_map]

theorem Valid.addresses_nodup : (job.targets.map (·.address)).Nodup := by
  apply List.Nodup.of_map parseAddr
  rw [map_map]
  exact h.targets

theorem Valid.scanJobs_nodup : (scanJobs job.targets job.ports).Nodup := by
  apply List.Nodup.of_map ScanJob.check
  rw [scanJobs_checks]
  exact checks_nodup h.addresses_nodup h.ports

theorem Valid.completed_le : (completedKeys job).length ≤ job.targets.length * job.ports.length := by
  have hs : (completedChecks job).map (fun c => (parseAddr c.address, c.port)) ⊆
      (job.targets.map fun t => parseAddr t.address) ×ˢ job.ports := by
    intro k hk
    obtain ⟨c, hc, rfl⟩ := mem_map.mp hk
    obtain ⟨hpo, t, ht, hp⟩ := h.scope c hc
    exact mem_product.mpr ⟨mem_map.mpr ⟨t, ht, hp.symm⟩, hpo⟩
  have hl := (subperm_of_subset h.distinct hs).length_le
  rw [length_product, length_map, length_map] at hl
  rw [h.length_completedKeys, completedTexts, length_map]
  exact hl

theorem Valid.pending_eq :
    pendingExecutionChecks job = some (pendingChecks job, (completedKeys job).length) := by
  unfold pendingExecutionChecks
  rw [if_neg (Nat.not_lt.mpr h.completed_le)]

end

theorem mem_pending {check : ScanJob} : check ∈ pendingChecks job ↔
    check.target ∈ job.targets ∧ check.port ∈ job.ports ∧ (check.target.address, check.port) ∉ completedTexts job := by
  unfold pendingChecks
  rw [mem_filter, mem_scanJobs, decide_eq_true_eq, mem_completedKeys, and_assoc]

theorem Spelled.mem_texts_iff (hs : Spelled job) {tgt : Target} (ht : tgt ∈ job.targets) {port : Int} :
    (tgt.address, port) ∈ completedTexts job ↔
      ∃ c ∈ completedChecks job, c.port = port ∧ parseAddr c.address = parseAddr tgt.address := by
  unfold completedTexts
  rw [mem_map]
  constructor
  · intro ⟨c, hc, he⟩
    rw [Prod.mk.injEq] at he
    exact ⟨c, hc, he.2, congrArg parseAddr he.1⟩
  · intro ⟨c, hc, hpo, hp⟩
    exact ⟨c, hc, Prod.ext (hs c hc tgt ht hp) hpo⟩

theorem Spelled.exact (h : Valid job) (hs : Spelled job) :
    Exact job (pendingChecks job) (completedKeys job).length where
  pending := by
    intro tgt port
    rw [mem_pending]
    refine and_congr_right fun ht => and_congr_right fun _ => ?_
    rw [hs.mem_texts_iff ht]
  once := h.scanJobs_nodup.filter _
  counted := by
    have hsu : completedTexts job ⊆ checks job.targets job.ports := by
      intro k hk
      obtain ⟨c, hc, rfl⟩ := mem_map.mp hk
      obtain ⟨hpo, t, ht, hp⟩ := h.scope c hc
      exact mem_product.mpr ⟨mem_map.mpr ⟨t, ht, (hs c hc t ht hp).symm⟩, hpo⟩
    have hpe := append_filter_notMem_perm h.texts_nodup (checks_nodup h.addresses_nodup h.ports) hsu
    have hl := hpe.length_eq
    rw [length_append, length_checks, ← scanJobs_checks, filter_map, length_map] at hl
    have hsa : pendingChecks job =
        (scanJobs job.targets job.ports).filter ((fun k => decide (k ∉ completedTexts job)) ∘ ScanJob.check) := by
      refine filter_congr fun check _ => ?_
      rw [Function.comp_apply, decide_eq_decide, mem_completedKeys]
      rfl
    rw [hsa, h.length_completedKeys]
    omega

theorem Exact.spelled (h : Valid job)
    (hex : Exact job (pendingChecks job) (completedKeys job).length) : Spelled job := by
  intro c hc t ht hp
  have hpo := (h.scope c hc).1
  have hn : ¬ (⟨t, c.port⟩ : ScanJob) ∈ pendingChecks job := by
    intro hm
    exact ((hex.pending t c.port).mp hm).2.2 ⟨c, hc, rfl, hp⟩
  rw [mem_pending] at hn
  have hm : (t.address, c.port) ∈ completedTexts job := by
    by_contra hne
    exact hn ⟨ht, hpo, hne⟩
  -- the completed check with that text stands for the same address and port
  obtain ⟨c', hc', he⟩ := mem_map.mp hm
  rw [Prod.mk.injEq] at he
  have hs : c' = c := by
    apply inj_on_of_nodup_map h.distinct hc' hc
    rw [he.1, he.2, hp]
  rw [← hs]
  exact he.1

end

/-- **Result.** For a validated job the call returns, and what it returns are
exactly the checks that are not completed exactly when every completed check is
spelled like its target. -/
theorem pending_exact_iff (job : WorkerJob) (worker : ScannerWorker) (now : Time)
    (hvalid : validate job worker now = .ok ()) :
    ∃ checks skipped, pendingExecutionChecks job = some (checks, skipped) ∧
      (Exact job checks skipped ↔ Spelled job) := by
  have h := validate_facts hvalid
  exact ⟨_, _, h.pending_eq, Exact.spelled h, Spelled.exact h⟩

namespace Small

open L2.Schema.Small

/-- A job on one IPv6 address and two ports; the first is completed. -/
def job (completedAddress : String) : WorkerJob :=
  { (envelope "job" "second" "scan" ["2001:db8::1"] [80, 443]).job with
    resume := some
      { previousWorkerID := "first", completed := [⟨completedAddress, 80, clock 1⟩], nextEvidenceSequence := 2 } }

end Small

/-- The resumed job with equal spellings. -/
theorem pending_exact_one_left :
    validate (Small.job "2001:db8::1") (L2.Schema.Small.worker "second") (L2.Schema.Small.clock 2) = .ok () ∧
    ∃ checks skipped, pendingExecutionChecks (Small.job "2001:db8::1") = some (checks, skipped) ∧
      (Exact (Small.job "2001:db8::1") checks skipped ↔ Spelled (Small.job "2001:db8::1")) :=
  have hvalid : validate (Small.job "2001:db8::1") (L2.Schema.Small.worker "second")
      (L2.Schema.Small.clock 2) = .ok () := by
    decide +kernel
  ⟨hvalid, pending_exact_iff _ _ _ hvalid⟩

/-- With capital letters in the manifest, the completed check is pending and
counted as skipped. -/
theorem completed_check_pending :
    validate (Small.job "2001:DB8::1") (L2.Schema.Small.worker "second") (L2.Schema.Small.clock 2) = .ok () ∧
    parseAddr "2001:DB8::1" = parseAddr "2001:db8::1" ∧
    (pendingExecutionChecks (Small.job "2001:DB8::1")).map (fun r => (r.1.map ScanJob.check, r.2)) =
      some ([("2001:db8::1", 80), ("2001:db8::1", 443)], 1) := by
  decide +kernel

end Mossward.L4.PendingChecks
