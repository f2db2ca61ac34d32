import Mathlib.Data.Multiset.AddSub
import Mossward.L3Protocol.SignedStorage
import Mossward.L4App.PendingChecks

/-!
# The executor of a worker job

A worker's executor hands the pending checks of its job to as many goroutines as
the job allows, and emits one signed evidence batch for each result that
arrives: `internal/workerclient/executor.go:69-212`. The queue of checks, the
goroutines and the results loop move one step at a time, in any order that the
channels and the context allow. All goroutines are alike, so the machine counts
those that wait for a check. The channels are unbuffered. Sequence numbers are
`uint64` and wrap around.

Results:
* `inv_step`, `inv_run`: the invariant of the machine.
* `emitResult_cases`, `evidence_well_formed`.
-/
namespace Mossward.L5.Execution

open Table Run L1.Rfc3339 Model L3 L3.JobDispatch List
open L4 L4.ScanResume L4.PendingChecks

def maximumExecutionEvidenceItems : Nat := 250

/-- Why the call fails. -/
inductive ExecutionError
  | oversized | identifier | sign | emit | interrupted
deriving DecidableEq

structure ExecutionSummary where
  completedChecks : Nat
  skippedChecks : Nat
  finalSequence : Nat
deriving DecidableEq

structure ExecutionResult where
  check : ScanJob
  observation : Option ServiceObservation
  findings : List Finding
  completedAt : Time

/-- The zero value of the struct. -/
def ExecutionResult.zero : ExecutionResult := ⟨⟨⟨"", "", []⟩, 0⟩, none, [], .zero⟩

/-- What the random source, the clock, the signer and the emitter answer. -/
structure Answers where
  batchID : Option String
  collectedAt : Time
  signed : Bool
  emitted : Bool

def itemCount (result : ExecutionResult) : Nat :=
  result.findings.length + 1 + if result.observation.isSome then 1 else 0

/-- The batch of a result; the zero result has no checkpoint and no evidence. -/
def evidenceBatch (job : WorkerJob) (result : ExecutionResult) (sequence : Nat) (final : Bool) (batchID : String)
    (collectedAt : Time) : WorkerEvidenceBatch where
  schemaVersion := 1
  id := batchID
  workerID := job.workerID
  jobID := job.id
  scanID := job.scanID
  sequence := sequence
  final := final
  collectedAt := collectedAt
  observations := if result.check.target.address ≠ "" then result.observation.toList else []
  findings := if result.check.target.address ≠ "" then result.findings else []
  checkpoints :=
    if result.check.target.address ≠ "" then
      [⟨result.check.target.address, result.check.port, result.completedAt⟩]
    else []

/-- Mirrors `emitResult`: the batches passed to `emit`, and the error. -/
def emitResult (job : WorkerJob) (result : ExecutionResult) (sequence : Nat) (final : Bool) (answers : Answers) :
    List WorkerEvidenceBatch × Option ExecutionError :=
  if result.check.target.address ≠ "" && maximumExecutionEvidenceItems < itemCount result then ([], some .oversized)
  else
    match answers.batchID with
    | none => ([], some .identifier)
    | some batchID =>
      if !answers.signed then ([], some .sign)
      else
        ([evidenceBatch job result sequence final batchID answers.collectedAt],
          if answers.emitted then none else some .emit)

/-! ## The machine -/

/-- Where `executeClaimed` is: with no checks to make, in its loop over the
results, or back with its error. -/
inductive Phase
  | single
  | looping
  | returned (error : Option ExecutionError)
deriving DecidableEq

structure Machine where
  /-- the checks that are not sent yet -/
  queue : List ScanJob
  jobsClosed : Bool
  /-- goroutines that wait for a check, inspect, or have a result to send -/
  idle : Nat
  probing : List ScanJob
  delivering : List ExecutionResult
  resultsClosed : Bool
  /-- the context is done -/
  cancelled : Bool
  sequence : Nat
  summary : ExecutionSummary
  /-- the batches passed to `emit`, in order -/
  passed : List WorkerEvidenceBatch
  phase : Phase

def firstSequence (job : WorkerJob) : Nat := (job.resume.map (·.nextEvidenceSequence)).getD 1

/-- The machine before the first result. -/
def start (job : WorkerJob) : Machine where
  queue := pendingChecks job
  jobsClosed := false
  idle := if pendingChecks job = [] then 0 else job.maxConcurrent.toNat
  probing := []
  delivering := []
  resultsClosed := false
  cancelled := false
  sequence := firstSequence job
  summary := ⟨0, (completedKeys job).length, firstSequence job - 1⟩
  passed := []
  phase := if pendingChecks job = [] then .single else .looping

inductive Event
  /-- the deadline passes or the caller cancels -/
  | cancel
  /-- the only batch of a job without pending checks -/
  | emitSingle (answers : Answers)
  /-- the queue hands its next check to a goroutine -/
  | send
  /-- the queue sees that the context is done -/
  | stopQueue
  /-- the queue has sent all checks -/
  | endQueue
  | probed (i : Nat) (observation : Option ServiceObservation) (findings : List Finding) (completedAt : Time)
  /-- the loop takes a result and emits it -/
  | deliver (i : Nat) (answers : Answers)
  /-- a goroutine with a result sees that the context is done -/
  | abandon (i : Nat)
  /-- a waiting goroutine sees that there are no more checks -/
  | exit
  /-- all goroutines have ended -/
  | closeResults
  /-- the loop sees that there are no more results -/
  | finish

/-- The loop emits the result `result`. A failure cancels the context. -/
def Machine.receive (job : WorkerJob) (s : Machine) (result : ExecutionResult) (answers : Answers) : Machine :=
  let final := s.summary.completedChecks + 1 = (pendingChecks job).length
  match emitResult job result s.sequence final answers with
  | (batches, some e) =>
    { s with passed := s.passed ++ batches, phase := .returned (some e), cancelled := true }
  | (batches, none) =>
    { s with
      passed := s.passed ++ batches
      summary :=
        { s.summary with completedChecks := s.summary.completedChecks + 1, finalSequence := s.sequence }
      sequence := (s.sequence + 1) % 2 ^ 64 }

/-- A goroutine has sent its result and waits again. -/
def Machine.take (s : Machine) (i : Nat) : Machine :=
  { s with delivering := s.delivering.eraseIdx i, idle := s.idle + 1 }

/-- One step; an event that does not apply changes nothing. -/
def step (job : WorkerJob) (s : Machine) : Event → Machine
  | .cancel => { s with cancelled := true }
  | .emitSingle answers =>
    if s.phase = .single then
      let emission := emitResult job .zero s.sequence true answers
      { s with
        passed := s.passed ++ emission.1
        summary := if emission.2 = none then { s.summary with finalSequence := s.sequence } else s.summary
        phase := .returned emission.2
        cancelled := true }
    else s
  | .send =>
    match s.queue with
    | [] => s
    | check :: queue =>
      if s.jobsClosed = false ∧ 0 < s.idle then
        { s with queue, idle := s.idle - 1, probing := s.probing ++ [check] }
      else s
  | .stopQueue => if s.cancelled then { s with jobsClosed := true } else s
  | .endQueue => if s.queue = [] then { s with jobsClosed := true } else s
  | .probed i observation findings completedAt =>
    match s.probing[i]? with
    | none => s
    | some check =>
      { s with
        probing := s.probing.eraseIdx i
        delivering := s.delivering ++ [⟨check, observation, findings, completedAt⟩] }
  | .deliver i answers =>
    match s.delivering[i]? with
    | none => s
    | some result =>
      if s.phase = .looping then
        (s.take i).receive job result answers
      else s
  | .abandon i =>
    if s.cancelled then { s with delivering := s.delivering.eraseIdx i } else s
  | .exit => if s.jobsClosed then { s with idle := s.idle - 1 } else s
  | .closeResults =>
    if s.idle = 0 ∧ s.probing = [] ∧ s.delivering = [] then { s with resultsClosed := true } else s
  | .finish =>
    if s.phase = .looping ∧ s.resultsClosed then
      { s with phase := .returned (if s.cancelled then some .interrupted else none), cancelled := true }
    else s

/-! ## What is passed to `emit` -/

def checkpointKeys (batch : WorkerEvidenceBatch) : List (String × Int) :=
  batch.checkpoints.map fun c => (c.address, c.port)

section
variable {job : WorkerJob} {result : ExecutionResult} {sequence : Nat} {final : Bool} {answers : Answers}

/-- **One emission** passes on the result's batch, or fails before. -/
theorem emitResult_cases (ha : result.check.target.address ≠ "") :
    (∃ e, emitResult job result sequence final answers = ([], some e)) ∨
    ∃ bt e, emitResult job result sequence final answers = ([bt], e) ∧ bt.sequence = sequence ∧
      bt.final = final ∧ checkpointKeys bt = [result.check.check] := by
  unfold emitResult
  split
  · exact .inl ⟨_, rfl⟩
  split
  · exact .inl ⟨_, rfl⟩
  · split
    · exact .inl ⟨_, rfl⟩
    · simp [checkpointKeys, evidenceBatch, ha, ScanJob.check]

/-- **The loop takes a result**: it passes a batch on and goes on, or ends. -/
theorem receive_cases (s : Machine) (ha : result.check.target.address ≠ "") :
    (∃ e, s.receive job result answers = { s with phase := .returned (some e), cancelled := true }) ∨
    ∃ bt, bt.sequence = s.sequence ∧
      (bt.final = true ↔ s.summary.completedChecks + 1 = (pendingChecks job).length) ∧
      checkpointKeys bt = [result.check.check] ∧
      ((∃ e, s.receive job result answers =
          { s with passed := s.passed ++ [bt], phase := .returned (some e), cancelled := true }) ∨
        s.receive job result answers =
          { s with
            passed := s.passed ++ [bt]
            summary := { s.summary with completedChecks := s.summary.completedChecks + 1, finalSequence := s.sequence }
            sequence := (s.sequence + 1) % 2 ^ 64 }) := by
  unfold Machine.receive
  dsimp only
  rcases @emitResult_cases job result s.sequence (decide (s.summary.completedChecks + 1 = (pendingChecks job).length))
      answers ha with ⟨e, he⟩ | ⟨bt, e, he, hn, hf, hk⟩
  · rw [he]
    simp
  · rw [he]
    refine .inr ⟨bt, hn, by rw [hf, decide_eq_true_eq], hk, ?_⟩
    cases e with
    | some e => exact .inl ⟨e, rfl⟩
    | none => exact .inr rfl

theorem emitResult_zero :
    (∃ e, emitResult job .zero sequence final answers = ([], some e) ∧ (e = .identifier ∨ e = .sign)) ∨
    ∃ bt e, emitResult job .zero sequence final answers = ([bt], e) ∧ bt.sequence = sequence ∧
      bt.final = final ∧ bt.checkpoints = [] := by
  unfold emitResult
  rw [if_neg (by simp [ExecutionResult.zero])]
  split
  · exact .inl ⟨_, rfl, .inl rfl⟩
  · split
    · exact .inl ⟨_, rfl, .inr rfl⟩
    · exact .inr ⟨_, _, rfl, rfl, rfl, by simp [evidenceBatch, ExecutionResult.zero]⟩

end

/-! ## Where the checks are -/

def loadOf (queue probing : List ScanJob) (delivering : List ExecutionResult) (passed : List WorkerEvidenceBatch) :
    Multiset (String × Int) :=
  ↑(queue.map ScanJob.check) + ↑(probing.map ScanJob.check) + ↑(delivering.map fun r => r.check.check) +
    ↑(passed.flatMap checkpointKeys)

/-- The checks that the machine still holds or has passed on. -/
def Machine.load (s : Machine) : Multiset (String × Int) := loadOf s.queue s.probing s.delivering s.passed

/-- The checks that are to be made. -/
def pendingLoad (job : WorkerJob) : Multiset (String × Int) := ↑((pendingChecks job).map ScanJob.check)

theorem coe_map_eraseIdx {α β : Type} {l : List α} {i : Nat} {x : α} (h : l[i]? = some x) (f : α → β) :
    (↑(l.map f) : Multiset β) = f x ::ₘ ↑((l.eraseIdx i).map f) := by
  obtain ⟨hi, rfl⟩ := List.getElem?_eq_some_iff.mp h
  rw [Multiset.cons_coe, Multiset.coe_eq_coe]
  exact ((getElem_cons_eraseIdx_perm hi).map f).symm

theorem coe_map_concat {α β : Type} (l : List α) (x : α) (f : α → β) :
    (↑((l ++ [x]).map f) : Multiset β) = f x ::ₘ ↑(l.map f) := by
  rw [map_append, ← Multiset.coe_add, add_comm]
  rfl

/-- The batch at position `k` is the one after `k` others. -/
structure WellFormed (job : WorkerJob) (k : Nat) (batch : WorkerEvidenceBatch) : Prop where
  numbered : batch.sequence = (firstSequence job + k) % 2 ^ 64
  final : batch.final = true ↔ k + 1 = (pendingChecks job).length
  checkpoint : ∃ key, checkpointKeys batch = [key]

/-- The invariant of the machine while there are checks to make. -/
structure Inv (job : WorkerJob) (s : Machine) : Prop where
  /-- no check is in two places -/
  accounted : s.load ≤ pendingLoad job
  /-- before the context is done no check is lost -/
  lossless : s.phase = .looping → s.cancelled = false → s.load = pendingLoad job
  batches : ∀ k batch, s.passed[k]? = some batch → WellFormed job k batch
  counted : s.phase = .looping → s.summary.completedChecks = s.passed.length ∧
    s.sequence = (firstSequence job + s.passed.length) % 2 ^ 64
  /-- the queue stays until all is sent -/
  closed : s.jobsClosed = true → s.cancelled = false → s.queue = []
  /-- goroutines stay until the queue is closed -/
  ended : s.idle + s.probing.length + s.delivering.length < job.maxConcurrent.toNat →
    s.cancelled = true ∨ s.jobsClosed = true
  drained : s.resultsClosed = true → s.idle = 0 ∧ s.probing = [] ∧ s.delivering = []
  looped : s.phase ≠ .single
  complete : s.phase = .returned none → ↑(s.passed.flatMap checkpointKeys) = pendingLoad job

section
variable {job : WorkerJob} {s s' : Machine}

theorem inv_start (hp : pendingChecks job ≠ []) (hf : firstSequence job < 2 ^ 64) : Inv job (start job) where
  accounted := by simp [start, Machine.load, loadOf, pendingLoad]
  lossless _ _ := by simp [start, Machine.load, loadOf, pendingLoad]
  batches k batch h := by simp [start] at h
  counted _ := ⟨rfl, (Nat.mod_eq_of_lt hf).symm⟩
  closed h := by cases h
  ended h := by simp [start, hp] at h
  drained h := by cases h
  looped := by simp [start, hp]
  complete h := by simp [start, hp] at h

theorem WellFormed.append {bt : WorkerEvidenceBatch} (ho : ∀ k b, s.passed[k]? = some b → WellFormed job k b)
    (hn : WellFormed job s.passed.length bt) {k : Nat} {b : WorkerEvidenceBatch}
    (h : (s.passed ++ [bt])[k]? = some b) : WellFormed job k b := by
  rcases Nat.lt_trichotomy k s.passed.length with hk | hk | hk
  · rw [getElem?_append_left hk] at h
    exact ho k b h
  · subst hk
    rw [getElem?_concat_length, Option.some.injEq] at h
    exact h ▸ hn
  · rw [getElem?_eq_none (by simp; omega)] at h
    cases h

/-- A call that failed: the context is done, so only what was passed on matters. -/
theorem Inv.of_failed {e : ExecutionError} (hph : s.phase = .returned (some e)) (hca : s.cancelled = true)
    (hl : s.load ≤ pendingLoad job) (hb : ∀ k bt, s.passed[k]? = some bt → WellFormed job k bt)
    (hd : s.resultsClosed = true → s.idle = 0 ∧ s.probing = [] ∧ s.delivering = []) : Inv job s where
  accounted := hl
  lossless hp := by simp [hph] at hp
  batches := hb
  counted hp := by simp [hph] at hp
  closed _ hc := by simp [hca] at hc
  ended _ := .inl hca
  drained := hd
  looped := by simp [hph]
  complete hp := by simp [hph] at hp

section
variable (queue probing : List ScanJob) (delivering : List ExecutionResult) (passed : List WorkerEvidenceBatch)

theorem load_send (check : ScanJob) :
    loadOf queue (probing ++ [check]) delivering passed = loadOf (check :: queue) probing delivering passed := by
  unfold loadOf
  rw [coe_map_concat, map_cons, ← Multiset.cons_coe, ← Multiset.singleton_add, ← Multiset.singleton_add]
  abel

theorem load_probed {i : Nat} {check : ScanJob} (hc : probing[i]? = some check) {res : ExecutionResult}
    (hr : res.check = check) :
    loadOf queue (probing.eraseIdx i) (delivering ++ [res]) passed = loadOf queue probing delivering passed := by
  unfold loadOf
  rw [coe_map_concat, coe_map_eraseIdx hc, hr, ← Multiset.singleton_add, ← Multiset.singleton_add]
  abel

theorem load_take {i : Nat} {res : ExecutionResult} (hr : delivering[i]? = some res) :
    loadOf queue probing delivering passed =
      res.check.check ::ₘ loadOf queue probing (delivering.eraseIdx i) passed := by
  unfold loadOf
  rw [coe_map_eraseIdx hr fun r => r.check.check, ← Multiset.singleton_add, ← Multiset.singleton_add]
  abel

theorem load_pass {bt : WorkerEvidenceBatch} {key : String × Int} (hk : checkpointKeys bt = [key]) :
    loadOf queue probing delivering (passed ++ [bt]) = key ::ₘ loadOf queue probing delivering passed := by
  unfold loadOf
  rw [flatMap_append, flatMap_singleton, hk, ← Multiset.coe_add, ← Multiset.singleton_add]
  abel

theorem load_eraseIdx_le (i : Nat) :
    loadOf queue probing (delivering.eraseIdx i) passed ≤ loadOf queue probing delivering passed := by
  cases hr : delivering[i]? with
  | none =>
    rw [eraseIdx_of_length_le]
    exact getElem?_eq_none_iff.mp hr
  | some res =>
    rw [load_take _ _ _ _ hr]
    exact Multiset.le_cons_self _ _

end

section
variable (h : Inv job s)
include h

/-- **A result is taken.** -/
theorem inv_deliver (ha : ∀ key ∈ pendingLoad job, key.1 ≠ "") (hph : s.phase = .looping)
    {i : Nat} {res : ExecutionResult} (hr : s.delivering[i]? = some res) (anss : Answers) :
    Inv job ((s.take i).receive job res anss) := by
  have hl : s.load = res.check.check ::ₘ (s.take i).load := load_take _ _ _ _ hr
  have had : res.check.target.address ≠ "" := by
    apply ha res.check.check
    apply Multiset.mem_of_le h.accounted
    rw [hl]
    exact Multiset.mem_cons_self _ _
  have ho : s.resultsClosed = true → False := by
    intro hcl
    obtain ⟨-, -, hno⟩ := h.drained hcl
    rw [hno] at hr
    cases hr
  obtain ⟨hco, hs⟩ := h.counted hph
  rcases receive_cases (s.take i) had with ⟨e, he⟩ | ⟨bt, hn, hf, hk, hnex⟩
  · rw [he]
    apply Inv.of_failed rfl rfl
    · exact le_trans (Multiset.le_cons_self _ _) (hl ▸ h.accounted)
    · exact h.batches
    · exact fun hcl => (ho hcl).elim
  have hne : WellFormed job s.passed.length bt := by
    refine ⟨hn.trans hs, ?_, _, hk⟩
    rw [hf, ← hco]
    rfl
  rcases hnex with ⟨e, he⟩ | he
  · rw [he]
    apply Inv.of_failed rfl rfl
    · show loadOf _ _ _ (_ ++ [bt]) ≤ _
      rw [load_pass _ _ _ _ hk]
      exact hl ▸ h.accounted
    · exact fun k b hb => WellFormed.append h.batches hne hb
    · exact fun hcl => (ho hcl).elim
  rw [he]
  have hsa : loadOf (s.take i).queue (s.take i).probing (s.take i).delivering ((s.take i).passed ++ [bt]) =
      s.load := (load_pass _ _ _ _ hk).trans hl.symm
  constructor
  · exact hsa.trans_le h.accounted
  · exact fun _ hc => hsa.trans (h.lossless hph hc)
  · exact fun k b hb => WellFormed.append h.batches hne hb
  · intro _
    refine ⟨?_, ?_⟩
    · simp [Machine.take, hco]
    · simp only [Machine.take, length_append, length_singleton]
      omega
  · exact h.closed
  · intro hlt
    apply h.ended
    obtain ⟨hi, -⟩ := List.getElem?_eq_some_iff.mp hr
    simp only [Machine.take, length_eraseIdx_of_lt hi] at hlt
    omega
  · exact fun hcl => (ho hcl).elim
  · exact h.looped
  · intro hp
    simp [Machine.take, hph] at hp

theorem Inv.keep (hph : s'.phase = s.phase) (hpa : s'.passed = s.passed)
    (hsu : s'.summary = s.summary) (hs : s'.sequence = s.sequence) (hlo : s'.load ≤ s.load)
    (hl : s'.cancelled = false → s.cancelled = false ∧ s'.load = s.load)
    (hcl : s'.jobsClosed = true → s'.cancelled = false → s'.queue = [])
    (he : s'.idle + s'.probing.length + s'.delivering.length < job.maxConcurrent.toNat →
      s'.cancelled = true ∨ s'.jobsClosed = true)
    (hd : s'.resultsClosed = true → s'.idle = 0 ∧ s'.probing = [] ∧ s'.delivering = []) : Inv job s' where
  accounted := hlo.trans h.accounted
  lossless hp hc := by
    obtain ⟨hc', hsa⟩ := hl hc
    rw [hsa]
    exact h.lossless (hph ▸ hp) hc'
  batches := hpa ▸ h.batches
  counted hp := by
    rw [hsu, hpa, hs]
    exact h.counted (hph ▸ hp)
  closed := hcl
  ended := he
  drained := hd
  looped := hph ▸ h.looped
  complete hp := by
    rw [hpa]
    exact h.complete (hph ▸ hp)

theorem Inv.all_passed (hw : 0 < job.maxConcurrent.toNat) (hph : s.phase = .looping)
    (hcl : s.resultsClosed = true) (hc : s.cancelled = false) :
    ↑(s.passed.flatMap checkpointKeys) = pendingLoad job := by
  obtain ⟨hi, hp, hd⟩ := h.drained hcl
  have hj : s.jobsClosed = true := by
    have he := h.ended (by simp [hi, hp, hd, hw])
    simpa [hc] using he
  rw [← h.lossless hph hc]
  simp [Machine.load, loadOf, h.closed hj hc, hp, hd]

theorem inv_send : Inv job (step job s .send) := by
  unfold step
  dsimp only
  split
  · exact h
  rename_i check queue hq
  have hl : loadOf queue (s.probing ++ [check]) s.delivering s.passed = s.load := by
    rw [load_send, ← hq]
    rfl
  refine ite_keeps h fun hca => h.keep rfl rfl rfl rfl hl.le ?_ ?_ ?_ ?_
  · exact fun hc => ⟨hc, hl⟩
  · intro hcl
    simp [hca.1] at hcl
  · intro hlt
    apply h.ended
    simp only [length_append, length_singleton] at hlt
    omega
  · intro hcl
    have hi := (h.drained hcl).1
    omega

theorem inv_probed (i : Nat) (o : Option ServiceObservation) (fnds : List Finding)
    (at1 : Time) : Inv job (step job s (.probed i o fnds at1)) := by
  unfold step
  dsimp only
  split
  · exact h
  rename_i check hch
  have hl := load_probed s.queue s.probing s.delivering s.passed hch
    (show (⟨check, o, fnds, at1⟩ : ExecutionResult).check = check from rfl)
  obtain ⟨hi, -⟩ := List.getElem?_eq_some_iff.mp hch
  refine h.keep rfl rfl rfl rfl hl.le ?_ ?_ ?_ ?_
  · exact fun hc => ⟨hc, hl⟩
  · exact h.closed
  · intro hlt
    apply h.ended
    simp only [length_append, length_singleton, length_eraseIdx_of_lt hi] at hlt
    omega
  · intro hcl
    have hp := (h.drained hcl).2.1
    rw [hp] at hi
    exact absurd hi (Nat.not_lt_zero i)

theorem inv_finish (hw : 0 < job.maxConcurrent.toNat) : Inv job (step job s .finish) := by
  refine ite_keeps h fun hd => ?_
  cases hca : s.cancelled with
  | true => exact Inv.of_failed rfl rfl h.accounted h.batches h.drained
  | false =>
    constructor
    · exact h.accounted
    · intro hp
      cases hp
    · exact h.batches
    · intro hp
      cases hp
    · intro _ hc
      cases hc
    · exact fun _ => .inl rfl
    · exact h.drained
    · simp
    · exact fun _ => h.all_passed hw hd.1 hd.2 hca

end

/-- **One step.** -/
theorem inv_step (ha : ∀ key ∈ pendingLoad job, key.1 ≠ "") (hw : 0 < job.maxConcurrent.toNat)
    (h : Inv job s) (e : Event) : Inv job (step job s e) := by
  cases e with
  | cancel =>
    refine h.keep rfl rfl rfl rfl le_rfl ?_ ?_ ?_ ?_
    · intro hc
      cases hc
    · intro _ hc
      cases hc
    · exact fun _ => .inl rfl
    · exact h.drained
  | emitSingle anss =>
    unfold step
    dsimp only
    rw [if_neg h.looped]
    exact h
  | send => exact inv_send h
  | stopQueue =>
    refine ite_keeps h fun hca => h.keep rfl rfl rfl rfl le_rfl ?_ ?_ ?_ ?_
    · exact fun hc => ⟨hc, rfl⟩
    · intro _ hc
      simp [hca] at hc
    · exact fun _ => .inr rfl
    · exact h.drained
  | endQueue =>
    refine ite_keeps h fun hq => h.keep rfl rfl rfl rfl le_rfl ?_ ?_ ?_ ?_
    · exact fun hc => ⟨hc, rfl⟩
    · exact fun _ _ => hq
    · exact fun _ => .inr rfl
    · exact h.drained
  | probed i o fnds at1 => exact inv_probed h i o fnds at1
  | deliver i anss =>
    unfold step
    dsimp only
    split
    · exact h
    · rename_i res hr
      exact ite_keeps h fun hph => inv_deliver h ha hph hr anss
  | abandon i =>
    refine ite_keeps h fun hca => h.keep rfl rfl rfl rfl (load_eraseIdx_le _ _ _ _ i) ?_ ?_ ?_ ?_
    · intro hc
      simp [hca] at hc
    · intro _ hc
      simp [hca] at hc
    · exact fun _ => .inl hca
    · intro hcl
      obtain ⟨hi, hp, hd⟩ := h.drained hcl
      exact ⟨hi, hp, by simp [hd]⟩
  | exit =>
    refine ite_keeps h fun hj => h.keep rfl rfl rfl rfl le_rfl ?_ ?_ ?_ ?_
    · exact fun hc => ⟨hc, rfl⟩
    · exact h.closed
    · exact fun _ => .inr hj
    · intro hcl
      obtain ⟨hi, hre⟩ := h.drained hcl
      exact ⟨by simp [hi], hre⟩
  | closeResults =>
    refine ite_keeps h fun hn => h.keep rfl rfl rfl rfl le_rfl ?_ ?_ ?_ ?_
    · exact fun hc => ⟨hc, rfl⟩
    · exact h.closed
    · exact h.ended
    · exact fun _ => hn
  | finish => exact inv_finish h hw

theorem inv_run (ha : ∀ key ∈ pendingLoad job, key.1 ≠ "") (hw : 0 < job.maxConcurrent.toNat)
    (hp : pendingChecks job ≠ []) (hf : firstSequence job < 2 ^ 64) (evs : List Event) :
    Inv job (run (step job) (start job) evs) :=
  run_invariant (I := Inv job) (fun _ e h => inv_step ha hw h e) (inv_start hp hf) evs

/-! ## No pending checks -/

/-- The only batch of a job without pending checks. -/
structure Only (job : WorkerJob) (batch : WorkerEvidenceBatch) : Prop where
  numbered : batch.sequence = firstSequence job
  final : batch.final = true
  bare : batch.checkpoints = []

/-- Before and after the only emission. -/
def SingleInv (job : WorkerJob) (s : Machine) : Prop :=
  (s.phase = .single ∧ s.passed = [] ∧ s.sequence = firstSequence job) ∨
  ∃ e, s.phase = .returned e ∧
    ((∃ batch, s.passed = [batch] ∧ Only job batch) ∨ s.passed = [] ∧ (e = some .identifier ∨ e = some .sign))

theorem SingleInv.congr (h : SingleInv job s) (hph : s'.phase = s.phase) (hp : s'.passed = s.passed)
    (hs : s'.sequence = s.sequence) : SingleInv job s' := by
  unfold SingleInv at h ⊢
  rw [hph, hp, hs]
  exact h

theorem SingleInv.not_looping (h : SingleInv job s) : s.phase ≠ .looping := by
  rcases h with ⟨hp, -⟩ | ⟨e, hp, -⟩ <;> simp [hp]

theorem singleInv_emit (h : SingleInv job s) (anss : Answers) : SingleInv job (step job s (.emitSingle anss)) := by
  refine ite_keeps h fun hph => ?_
  rcases h with ⟨-, hp, hs⟩ | ⟨e, hr, -⟩
  · right
    rcases @emitResult_zero job s.sequence true anss with ⟨e, hem, he⟩ | ⟨bt, e, hem, hn, hf, hb⟩
    · refine ⟨some e, by rw [hem], .inr ⟨by rw [hem, hp]; rfl, ?_⟩⟩
      rcases he with rfl | rfl
      · exact .inl rfl
      · exact .inr rfl
    · exact ⟨e, by rw [hem], .inl ⟨bt, by rw [hem, hp]; rfl, hn.trans hs, hf, hb⟩⟩
  · simp [hr] at hph

theorem singleInv_step (h : SingleInv job s) (e : Event) : SingleInv job (step job s e) := by
  cases e with
  | emitSingle anss => exact singleInv_emit h anss
  | deliver i anss =>
    unfold step
    dsimp only
    split
    · exact h
    · rw [if_neg h.not_looping]
      exact h
  | finish =>
    unfold step
    dsimp only
    rw [if_neg fun hd => h.not_looping hd.1]
    exact h
  | cancel => exact h.congr rfl rfl rfl
  | _ =>
    unfold step
    dsimp only
    split
    all_goals first
      | exact h
      | exact h.congr rfl rfl rfl
      | (split <;> exact h.congr rfl rfl rfl)

theorem singleInv_run (hp : pendingChecks job = []) (evs : List Event) :
    SingleInv job (run (step job) (start job) evs) := by
  apply run_invariant (I := SingleInv job) (fun _ e h => singleInv_step h e)
  exact .inl ⟨by simp [start, hp], rfl, rfl⟩

end

/-! ## Every run -/

section
variable {job : WorkerJob} {now : Time} {wk : ScannerWorker} (h : validate job wk now = .ok ())
include h

theorem validate_workers : 0 < job.maxConcurrent.toNat := by
  unfold validate at h
  simp only [bind_eq_ok] at h
  obtain ⟨_, -, _, -, _, -, _, -, _, -, _, hr, -⟩ := h
  unfold validateJobResources at hr
  split at hr
  · cases hr
  · rename_i hm
    simp only [Bool.or_eq_true, decide_eq_true_eq] at hm
    omega

theorem validate_addresses : ∀ key ∈ pendingLoad job, key.1 ≠ "" := by
  intro key hk
  rw [pendingLoad, Multiset.mem_coe, mem_map] at hk
  obtain ⟨check, hc, rfl⟩ := hk
  exact SignedStorage.validate_address h _ (mem_pending.mp hc).1

end

theorem pendingLoad_nodup {job : WorkerJob} (h : Valid job) : (pendingLoad job).Nodup := by
  have hs : ((pendingChecks job).map ScanJob.check).Sublist (checks job.targets job.ports) := by
    rw [← scanJobs_checks]
    exact filter_sublist.map _
  exact (checks_nodup h.addresses_nodup h.ports).sublist hs

section
variable {job : WorkerJob} {s : Machine}

theorem Inv.passed_le (h : Inv job s) : ↑(s.passed.flatMap checkpointKeys) ≤ pendingLoad job :=
  le_trans (Multiset.le_add_left _ _) h.accounted

theorem Inv.checkpoint (h : Inv job s) {bt : WorkerEvidenceBatch} (hb : bt ∈ s.passed) :
    ∃ check ∈ pendingChecks job, ∃ at1, bt.checkpoints = [⟨check.target.address, check.port, at1⟩] := by
  obtain ⟨k, hk⟩ := mem_iff_getElem?.mp hb
  obtain ⟨key, hke⟩ := (h.batches k bt hk).checkpoint
  have hm : key ∈ pendingLoad job := by
    apply Multiset.mem_of_le h.passed_le
    rw [Multiset.mem_coe, mem_flatMap]
    exact ⟨bt, hb, by simp [hke]⟩
  rw [pendingLoad, Multiset.mem_coe, mem_map] at hm
  obtain ⟨check, hch, rfl⟩ := hm
  refine ⟨check, hch, ?_⟩
  obtain ⟨c, hc, he⟩ := map_eq_singleton_iff.mp hke
  simp only [ScanJob.check, Prod.mk.injEq] at he
  exact ⟨c.completedAt, by rw [hc, ← he.1, ← he.2]⟩

theorem Inv.every_check (h : Inv job s) (hr : s.phase = .returned none) {check : ScanJob}
    (hc : check ∈ pendingChecks job) : ∃ bt ∈ s.passed, checkpointKeys bt = [check.check] := by
  have hm : check.check ∈ (↑(s.passed.flatMap checkpointKeys) : Multiset (String × Int)) := by
    rw [h.complete hr]
    exact mem_map_of_mem hc
  rw [Multiset.mem_coe, mem_flatMap] at hm
  obtain ⟨bt, hb, hk1⟩ := hm
  obtain ⟨k, hk⟩ := mem_iff_getElem?.mp hb
  obtain ⟨key, hke⟩ := (h.batches k bt hk).checkpoint
  rw [hke, mem_singleton] at hk1
  exact ⟨bt, hb, by rw [hke, hk1]⟩

theorem Inv.passed_length (h : Inv job s) : s.passed.length ≤ (pendingChecks job).length := by
  have hl := Multiset.card_le_card h.passed_le
  have ho : ∀ bt ∈ s.passed, (checkpointKeys bt).length = 1 := by
    intro bt hb
    obtain ⟨check, -, at1, hc⟩ := h.checkpoint hb
    simp [checkpointKeys, hc]
  rw [Multiset.coe_card, length_flatMap, map_congr_left ho, pendingLoad] at hl
  simpa using hl

end

/-- **The evidence of a validated job**, for every order of the steps, every
cancellation and every failure. -/
theorem evidence_well_formed (job : WorkerJob) (worker : ScannerWorker) (now : Time)
    (hvalid : validate job worker now = .ok ())
    (hroom : firstSequence job + (pendingChecks job).length ≤ 2 ^ 64) (events : List Event) :
    let s := run (step job) (start job) events
    (∀ k batch, s.passed[k]? = some batch → batch.sequence = firstSequence job + k) ∧
    (pendingChecks job ≠ [] →
      (∀ k batch, s.passed[k]? = some batch → (batch.final = true ↔ k + 1 = (pendingChecks job).length)) ∧
      (∀ batch ∈ s.passed, ∃ check ∈ pendingChecks job, ∃ completedAt,
        batch.checkpoints = [⟨check.target.address, check.port, completedAt⟩]) ∧
      (s.passed.flatMap checkpointKeys).Nodup ∧
      (s.phase = .returned none →
        ∀ check ∈ pendingChecks job, ∃ batch ∈ s.passed, checkpointKeys batch = [check.check])) ∧
    (pendingChecks job = [] →
      (∀ batch ∈ s.passed, batch.final = true ∧ batch.checkpoints = []) ∧ s.passed.length ≤ 1 ∧
      ∀ e, s.phase = .returned e → s.passed.length = 1 ∨ e = some .identifier ∨ e = some .sign) := by
  intro s
  by_cases hp : pendingChecks job = []
  · have hru : SingleInv job s := singleInv_run hp events
    rcases hru with ⟨hph, hn, -⟩ | ⟨e, hph, ⟨batch, hon, ho⟩ | ⟨hn, he⟩⟩
    · refine ⟨by simp [hn], fun h => (h hp).elim, fun _ => ⟨by simp [hn], by simp [hn], ?_⟩⟩
      intro e hr
      rw [hph] at hr
      cases hr
    · refine ⟨?_, fun h => (h hp).elim, fun _ => ⟨?_, by simp [hon], fun _ _ => .inl (by simp [hon])⟩⟩
      · intro k b hb
        rw [hon] at hb
        obtain ⟨hk, rfl⟩ := List.getElem?_eq_some_iff.mp hb
        have hz : k = 0 := by simpa using hk
        subst hz
        exact ho.numbered
      · intro b hb
        rw [hon, mem_singleton] at hb
        rw [hb]
        exact ⟨ho.final, ho.bare⟩
    · refine ⟨by simp [hn], fun h => (h hp).elim, fun _ => ⟨by simp [hn], by simp [hn], ?_⟩⟩
      intro e' hr
      rw [hph, Phase.returned.injEq] at hr
      exact .inr (hr ▸ he)
  · have hpo : 0 < (pendingChecks job).length := length_pos_iff.mpr hp
    have hru : Inv job s := inv_run (validate_addresses hvalid) (validate_workers hvalid) hp (by omega) events
    refine ⟨?_, fun _ => ⟨?_, ?_, ?_, ?_⟩, fun h => (hp h).elim⟩
    · intro k batch hk
      rw [(hru.batches k batch hk).numbered]
      obtain ⟨hlt, -⟩ := List.getElem?_eq_some_iff.mp hk
      have hl := hru.passed_length
      omega
    · exact fun k batch hk => (hru.batches k batch hk).final
    · exact fun batch hba => hru.checkpoint hba
    · exact Multiset.coe_nodup.mp (Multiset.nodup_of_le hru.passed_le (pendingLoad_nodup (validate_facts hvalid)))
    · exact fun hr check hc => hru.every_check hr hc

namespace Small

open L2.Schema.Small

def answers : Answers := ⟨some "batch", clock 3, true, true⟩

/-- One check, from the queue to `emit`. -/
def oneCheck : List Event := [.send, .probed 0 none [] (clock 3), .deliver 0 answers]

/-- All goroutines end and the call returns. -/
def ending : List Event := [.endQueue, .exit, .closeResults, .finish]

/-- A job on two ports whose evidence goes on with this number. -/
def resumed (next : Nat) : WorkerJob :=
  { (envelope "job" "second" "scan" ["10.0.0.1"] [80, 443]).job with
    resume := some { previousWorkerID := "first", completed := [], nextEvidenceSequence := next } }

/-- A job whose only check is completed. -/
def completedJob : WorkerJob := { PendingChecks.Small.job "2001:db8::1" with ports := [80] }

end Small

open Small

/-- Both checks of a job, and its return. -/
theorem evidence_well_formed_two_checks :
    validate (resumed 7) (L2.Schema.Small.worker "second") (L2.Schema.Small.clock 2) = .ok () ∧
    (let s := run (step (resumed 7)) (start (resumed 7)) (oneCheck ++ oneCheck ++ ending)
    s.phase = .returned none ∧ s.passed.length = 2 ∧
      ∀ k batch, s.passed[k]? = some batch → batch.sequence = firstSequence (resumed 7) + k) :=
  have hvalid : validate (resumed 7) (L2.Schema.Small.worker "second") (L2.Schema.Small.clock 2) = .ok () := by
    decide +kernel
  ⟨hvalid, by decide +kernel, by decide +kernel,
    (evidence_well_formed _ _ _ hvalid (by decide +kernel) (oneCheck ++ oneCheck ++ ending)).1⟩

/-- After the largest number the next is zero, and a batch that is not signed is
not emitted even when it would be the only one. -/
theorem evidence_number_wraps :
    validate (resumed (2 ^ 64 - 1)) (L2.Schema.Small.worker "second") (L2.Schema.Small.clock 2) = .ok () ∧
    (run (step (resumed (2 ^ 64 - 1))) (start (resumed (2 ^ 64 - 1)))
      (oneCheck ++ oneCheck)).passed.map (·.sequence) = [2 ^ 64 - 1, 0] ∧
    validate completedJob (L2.Schema.Small.worker "second") (L2.Schema.Small.clock 2) = .ok () ∧
    pendingChecks completedJob = [] ∧
    (run (step completedJob) (start completedJob)
      [.emitSingle { answers with signed := false }]).passed = [] := by
  decide +kernel

end Mossward.L5.Execution
