import Mathlib.Data.Prod.Lex
import Mossward.L3Protocol.JobDispatch

/-!
# Which worker gets a job

Among the workers that may take a job, the dispatcher sorts by the number of
active jobs, then by the room that is left (more first), then by the last
heartbeat (later first), then by identifier, and takes the first. With distinct
identifiers this is a strict order, so the choice does not depend on the order
in which the workers are listed. `internal/workerjob/dispatcher.go`.

Results:
* `preferred_iff`: the comparison is the lexicographic order of `rank`.
* `select_ok_iff`, `select_perm`.
-/
namespace Mossward.L3.WorkerChoice

open Table L1.Rfc3339 Model L2.WorkerJob L3.JobDispatch

/-- What candidates are compared by, the least one first: active jobs
ascending, room and last heartbeat descending, identifier ascending. -/
def rank (seen : WorkerCandidate → Int) (c : WorkerCandidate) : Int ×ₗ Int ×ₗ Int ×ₗ String :=
  toLex (c.activeJobs, toLex (-c.remaining, toLex (-seen c, c.worker.id)))

/-- The last heartbeat itself, of which the candidate has the `UnixNano`. -/
def lastSeen (c : WorkerCandidate) : Int := (c.worker.lastSeenAt.map (·.ns)).getD 0

theorem preferred_iff (a b : WorkerCandidate) : a.preferred b = true ↔
    rank (·.lastSeenUnixNS) a ≤ rank (·.lastSeenUnixNS) b := by
  simp only [rank, Prod.Lex.toLex_le_toLex, WorkerCandidate.preferred]
  by_cases hj : a.activeJobs = b.activeJobs
  · by_cases hr : a.remaining = b.remaining
    · by_cases hs : a.lastSeenUnixNS = b.lastSeenUnixNS <;> simp [hj, hr, hs]
    · simp [hj, hr]
  · simp [hj]

section
variable {job : WorkerJob} {workers workers' : List ScannerWorker} {loads : String → WorkerJobLoad} {now : Time}
  {excluded : String} {worker : ScannerWorker} {c : WorkerCandidate} {seen : WorkerCandidate → Int}

/-- The worker may take the job, and every other one that may ranks after
it. -/
def Chosen (seen : WorkerCandidate → Int) (job : WorkerJob) (workers : List ScannerWorker)
    (loads : String → WorkerJobLoad) (now : Time) (excluded : String) (worker : ScannerWorker) : Prop :=
  worker ∈ workers ∧ ∃ c, candidate job loads now excluded worker = some c ∧
    ∀ worker' ∈ workers, ∀ c', candidate job loads now excluded worker' = some c' → worker' ≠ worker →
      rank seen c < rank seen c'

theorem candidate_some (h : candidate job loads now excluded worker = some c) :
    c.worker = worker ∧ worker.id ≠ excluded ∧
      job.maxConcurrent ≤ worker.availableConcurrency - (loads worker.id).reservedConcurrency ∧
      (validate (jobForWorker job worker) worker now).toOption.isSome := by
  simp only [candidate] at h
  split at h
  · cases h
  rename_i ho
  cases h
  simp only [Bool.or_eq_true, Bool.not_eq_true', decide_eq_true_eq, not_or, Bool.not_eq_false] at ho
  refine ⟨rfl, ho.1.1, ?_, ho.2⟩
  have ha := ho.1.2
  unfold workerAvailableForAssignment at ha
  split at ha
  · cases ha
  · simp only [Bool.and_eq_true, decide_eq_true_eq] at ha
    exact ha.2

theorem candidate_seen (h : candidate job loads now excluded worker = some c) :
    c.worker = worker ∧ ∃ t, worker.lastSeenAt = some t ∧ c.lastSeenUnixNS = unixNano t.ns := by
  simp only [candidate] at h
  split at h
  · cases h
  rename_i ho
  cases h
  simp only [Bool.or_eq_true, Bool.not_eq_true', decide_eq_true_eq, not_or, Bool.not_eq_false] at ho
  have ha := ho.1.2
  unfold workerAvailableForAssignment at ha
  split at ha
  · cases ha
  · rename_i t ht
    exact ⟨rfl, t, ht, by rw [ht]; rfl⟩

theorem rank_ne (hk : Keyed ScannerWorker.id workers) {wk' : ScannerWorker} {c' : WorkerCandidate}
    (hw : worker ∈ workers) (hw' : wk' ∈ workers) (hc : candidate job loads now excluded worker = some c)
    (hc' : candidate job loads now excluded wk' = some c') (hn : wk' ≠ worker) : rank seen c ≠ rank seen c' := by
  intro he
  have hi : c.worker.id = c'.worker.id := congrArg (fun k => (ofLex (ofLex (ofLex k).2).2).2) he
  rw [(candidate_some hc).1, (candidate_some hc').1] at hi
  exact hn (hk.eq_of_key hw' hw hi.symm)

/-- **Result.** The selected worker is the least one that may take the job. -/
theorem select_ok_iff (hk : Keyed ScannerWorker.id workers) :
    selectWorkerExcluding job workers loads now excluded = .ok worker ↔
      Chosen (·.lastSeenUnixNS) job workers loads now excluded worker := by
  unfold selectWorkerExcluding
  cases hf : firstBy WorkerCandidate.preferred (workers.filterMap (candidate job loads now excluded)) with
  | none =>
    have hni := firstBy_eq_none.mp hf
    simp only [reduceCtorEq, false_iff]
    rintro ⟨hw, c, hc, -⟩
    have hm := List.mem_filterMap.mpr ⟨worker, hw, hc⟩
    rw [hni] at hm
    cases hm
  | some c =>
    obtain ⟨x, hx, hcx⟩ := List.mem_filterMap.mp (firstBy_mem hf)
    have hl := firstBy_least preferred_iff hf
    have hxc : c.worker = x := (candidate_some hcx).1
    simp only [Except.ok.injEq]
    rw [hxc]
    constructor
    · rintro rfl
      refine ⟨hx, c, hcx, fun worker' hw' c' hc' hn => lt_of_le_of_ne ?_ (rank_ne hk hx hw' hcx hc' hn)⟩
      exact hl c' (List.mem_filterMap.mpr ⟨worker', hw', hc'⟩)
    · rintro ⟨hw, c', hc', hmi⟩
      by_contra hn
      have hlt := hmi x hx c hcx hn
      exact absurd (hl c' (List.mem_filterMap.mpr ⟨worker, hw, hc'⟩)) (not_le.mpr hlt)

theorem chosen_perm (hp : workers.Perm workers') :
    Chosen seen job workers loads now excluded worker ↔ Chosen seen job workers' loads now excluded worker := by
  simp only [Chosen, hp.mem_iff]

/-- The `UnixNano` of heartbeats that `int64` can express are in the order of the
heartbeats. -/
theorem Chosen.lastSeen (hrep : ∀ x ∈ workers, ∀ t ∈ x.lastSeenAt, Representable t.ns)
    (h : Chosen (·.lastSeenUnixNS) job workers loads now excluded worker) :
    Chosen lastSeen job workers loads now excluded worker := by
  have hshift : ∀ x ∈ workers, ∀ c, candidate job loads now excluded x = some c →
      c.lastSeenUnixNS = WorkerChoice.lastSeen c - unixEpoch := by
    intro x hx c hc
    obtain ⟨hw, t, ht, hns⟩ := candidate_seen hc
    rw [WorkerChoice.lastSeen, hw, ht, hns, unixNano_eq (hrep x hx t ht)]
    rfl
  obtain ⟨hw, c, hc, hleast⟩ := h
  refine ⟨hw, c, hc, fun worker' hw' c' hc' hn => ?_⟩
  have hlt := hleast worker' hw' c' hc' hn
  simp only [rank, Prod.Lex.toLex_lt_toLex, hshift worker hw c hc, hshift worker' hw' c' hc', neg_sub,
    sub_lt_sub_iff_left, sub_right_inj, neg_lt_neg_iff, neg_inj] at hlt ⊢
  exact hlt

/-- **Result.** The order in which the workers are listed does not matter. -/
theorem select_perm (hk : Keyed ScannerWorker.id workers) (hp : workers.Perm workers') :
    selectWorkerExcluding job workers loads now excluded = selectWorkerExcluding job workers' loads now excluded := by
  have hk' : Keyed ScannerWorker.id workers' := (hp.map ScannerWorker.id).nodup_iff.mp hk
  have hs : ∀ x, selectWorkerExcluding job workers loads now excluded = .ok x ↔
      selectWorkerExcluding job workers' loads now excluded = .ok x := by
    intro x
    rw [select_ok_iff hk, select_ok_iff hk', chosen_perm hp]
  have her : ∀ ws e, selectWorkerExcluding job ws loads now excluded = .error e → e = .noEligibleWorker := by
    intro ws e he
    unfold selectWorkerExcluding at he
    split at he <;> cases he
    rfl
  cases hr : selectWorkerExcluding job workers loads now excluded with
  | ok x => exact ((hs x).mp hr).symm
  | error e =>
    cases hr' : selectWorkerExcluding job workers' loads now excluded with
    | ok x =>
      rw [(hs x).mpr hr'] at hr
      cases hr
    | error e' => rw [her _ _ hr, her _ _ hr']

end

end Mossward.L3.WorkerChoice
