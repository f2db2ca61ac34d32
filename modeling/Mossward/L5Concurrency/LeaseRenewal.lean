import Mossward.Model

/-!
# The end of a job: the executor and the renewal of its lease

`Runtime.executeLease` (`internal/workerclient/runtime.go:79-112`) runs the
executor in its own goroutine and the renewal of the lease in another one. When
the executor has returned, the shared context is cancelled and the result of
the renewal is awaited; an error of the renewal replaces the executor's result.

The renewal (`runtime.go:143-159`) waits for the ticker or for the end of the
context. A request that is under way when the context ends is taken to return an
error that wraps `context.Canceled` (`Event.AnswersCanceled`), which `executeLease`
cannot tell from a lost lease.

Results:
* `doomed_step`, `calm_step`: after the cancellation, a renewal under way ends
  in an error, and an idle one ends without unless it starts another request.
* `finishes`, `success_reported_iff`, `success_reported_canceled`.
-/
namespace Mossward.L5.LeaseRenewal

open Model Option List

/-- Errors, up to what `errors.Is` asks of them. -/
inductive RuntimeError
  /-- wraps `context.Canceled` -/
  | canceled
  /-- wraps `context.DeadlineExceeded` -/
  | deadlineExceeded
  | other
deriving DecidableEq, Repr

/-- Mirrors `internal/workerclient/runtime.go:95-105`. -/
def jobOutcome (executionErr renewalErr : Option RuntimeError) : WorkerJobResultOutcome :=
  match renewalErr.or executionErr with
  | none => .succeeded
  | some .canceled => .canceled
  | some .deadlineExceeded => .canceled
  | some .other => .failed

/-- The goroutine of `executeLease`. -/
inductive Main
  | executing
  /-- `Execute` has returned -/
  | returned (executionErr : Option RuntimeError)
  /-- the context is cancelled; waiting for the renewal's result -/
  | joining (executionErr : Option RuntimeError)
  | finished (outcome : WorkerJobResultOutcome)
deriving DecidableEq, Repr

/-- The goroutine of `renewLease`. -/
inductive Renewal
  | selecting
  /-- a `Renew` request is under way -/
  | requesting
  /-- `renewLease` has returned the error, `cancel` is next -/
  | failed (err : RuntimeError)
  /-- about to send its result -/
  | sending (err : Option RuntimeError)
  | ended
deriving DecidableEq, Repr

structure State where
  main : Main
  renewal : Renewal
  /-- a tick is waiting in the ticker's channel -/
  tick : Bool
  /-- the context of the execution is cancelled -/
  ctxDone : Bool
  /-- the buffered channel `renewed` -/
  renewed : Option (Option RuntimeError)
deriving DecidableEq, Repr

def State.start : State := ⟨.executing, .selecting, false, false, none⟩

inductive Event
  | tickFires
  /-- the caller's context is cancelled -/
  | callerCancels
  | executeReturns (err : Option RuntimeError)
  /-- `cancel()` after `Execute` -/
  | cancels
  /-- `<-renewed`, and the outcome -/
  | receives
  /-- the renewal's `select` takes the end of the context -/
  | selectsDone
  /-- the renewal's `select` takes a tick and a request begins -/
  | selectsTick
  | renewReturns (err : Option RuntimeError)
  /-- `cancel()` after a failed renewal -/
  | renewalCancels
  | renewalSends
deriving DecidableEq, Repr

/-- One event, if it is enabled. -/
def step (s : State) : Event → Option State
  | .tickFires => some { s with tick := true }
  | .callerCancels => some { s with ctxDone := true }
  | .executeReturns err =>
    match s.main with
    | .executing => some { s with main := .returned err }
    | _ => none
  | .cancels =>
    match s.main with
    | .returned err => some { s with main := .joining err, ctxDone := true }
    | _ => none
  | .receives =>
    match s.main, s.renewed with
    | .joining executionErr, some renewalErr =>
      some { s with main := .finished (jobOutcome executionErr renewalErr), renewed := none }
    | _, _ => none
  | .selectsDone =>
    match s.renewal, s.ctxDone with
    | .selecting, true => some { s with renewal := .sending none }
    | _, _ => none
  | .selectsTick =>
    match s.renewal, s.tick with
    | .selecting, true => some { s with renewal := .requesting, tick := false }
    | _, _ => none
  | .renewReturns err =>
    match s.renewal with
    | .requesting =>
      match err with
      | none => some { s with renewal := .selecting }
      | some err => some { s with renewal := .failed err }
    | _ => none
  | .renewalCancels =>
    match s.renewal with
    | .failed err => some { s with renewal := .sending (some err), ctxDone := true }
    | _ => none
  | .renewalSends =>
    match s.renewal, s.renewed with
    | .sending err, none => some { s with renewal := .ended, renewed := some err }
    | _, _ => none

/-- The state after a sequence of events, if each is enabled in its turn. -/
def exec (s : State) : List Event → Option State
  | [] => some s
  | e :: es => (step s e).bind fun s => exec s es

/-- What is assumed of a request whose context is cancelled: it returns an error
that wraps `context.Canceled`. -/
def Event.AnswersCanceled : Event → Prop
  | .renewReturns err => err = some .canceled
  | _ => True

/-! ## Reachable states -/

/-- The renewal sends its result once, and it stays until the executor's
goroutine takes it and is finished. -/
structure Consistent (s : State) : Prop where
  sent : s.renewal = .ended → s.renewed.isSome ∨ ∃ o, s.main = .finished o
  unsent : s.renewal ≠ .ended → s.renewed = none ∧ ∀ o, s.main ≠ .finished o

theorem consistent_start : Consistent .start :=
  ⟨fun h => (by cases h), fun _ => ⟨rfl, fun _ h => (by cases h)⟩⟩

variable {s s' : State} {e : Event}

theorem consistent_step (h : Consistent s) (hs : step s e = some s') : Consistent s' := by
  obtain ⟨hse, hu⟩ := h
  cases e with
  | tickFires | callerCancels =>
    cases hs
    exact ⟨hse, hu⟩
  | receives =>
    simp only [step] at hs
    split at hs <;> cases hs
    rename_i hr
    refine ⟨fun _ => .inr ⟨_, rfl⟩, fun he => ?_⟩
    rw [(hu he).1] at hr
    cases hr
  | selectsDone | selectsTick =>
    simp only [step] at hs
    split at hs <;> cases hs
    rename_i hr _
    have hop := hu (by rw [hr]; decide)
    exact ⟨fun he => (by cases he), fun _ => hop⟩
  | renewReturns err =>
    simp only [step] at hs
    split at hs
    · rename_i hr
      have hop := hu (by rw [hr]; decide)
      split at hs <;> cases hs <;> exact ⟨fun he => (by cases he), fun _ => hop⟩
    · cases hs
  | renewalCancels =>
    simp only [step] at hs
    split at hs <;> cases hs
    rename_i hr
    have hop := hu (by rw [hr]; simp)
    exact ⟨fun he => (by cases he), fun _ => hop⟩
  | renewalSends =>
    simp only [step] at hs
    split at hs <;> cases hs
    exact ⟨fun _ => .inl rfl, fun he => absurd rfl he⟩
  | _ =>
    simp only [step] at hs
    split at hs <;> cases hs
    rename_i hm
    refine ⟨fun he => ?_, fun he => ⟨(hu he).1, fun _ h => (by cases h)⟩⟩
    exact (hse he).imp_right fun ⟨o, ho⟩ => by rw [hm] at ho; cases ho

variable {es : List Event}

theorem consistent_exec (h : Consistent s) (hs : exec s es = some s') : Consistent s' := by
  induction es generalizing s with
  | nil =>
    cases hs
    exact h
  | cons e es ih =>
    obtain ⟨s1, hs1, hr⟩ := bind_eq_some_iff.mp hs
    exact ih (consistent_step h hs1) hr

/-! ## After the cancellation -/

/-- No request is under way, and none has failed. -/
def State.idle (s : State) : Bool :=
  match s.renewal with
  | .selecting => true
  | .requesting => false
  | .failed _ => false
  | .sending err => err.isNone
  | .ended => s.renewed = some none

/-- The executor has returned nil and its goroutine waits for the renewal. -/
def State.joined (s : State) : Prop := s.main = .joining none ∧ s.ctxDone = true

/-- The renewal will end without error, or the success is reported. -/
def Calm (s : State) : Prop :=
  Consistent s ∧ ((s.joined ∧ s.idle) ∨ s.main = .finished .succeeded)

/-- The renewal will end in an error, or something else is reported. -/
def Doomed (s : State) : Prop :=
  Consistent s ∧ ((s.joined ∧ s.idle = false) ∨ ∃ o, s.main = .finished o ∧ o ≠ .succeeded)

theorem jobOutcome_error (renewalErr : RuntimeError) : jobOutcome none (some renewalErr) ≠ .succeeded := by
  cases renewalErr <;> simp [jobOutcome]

/-- What is finished stays so. -/
theorem finished_step {o : WorkerJobResultOutcome} (h : s.main = .finished o)
    (hs : step s e = some s') : s'.main = .finished o := by
  cases e with
  | tickFires | callerCancels =>
    cases hs
    exact h
  | selectsDone | selectsTick | renewalCancels | renewalSends =>
    simp only [step] at hs
    split at hs <;> cases hs
    exact h
  | renewReturns err =>
    simp only [step] at hs
    split at hs
    · split at hs <;> cases hs <;> exact h
    · cases hs
  | _ => simp [step, h] at hs

/-- While the result is awaited: the goroutine takes it and is finished, or
still waits; only a new request ends the renewal's idleness, and nothing brings
it back. -/
theorem joined_step (hj : s.joined) (ha : e.AnswersCanceled) (hs : step s e = some s') :
    (∃ r, s.renewed = some r ∧ s'.main = .finished (jobOutcome none r)) ∨
    (s'.joined ∧ s'.idle = (s.idle && e ≠ .selectsTick)) := by
  obtain ⟨hm, hd⟩ := hj
  cases e with
  | tickFires =>
    cases hs
    exact .inr ⟨⟨hm, hd⟩, by simp [State.idle]⟩
  | callerCancels =>
    cases hs
    exact .inr ⟨⟨hm, rfl⟩, by simp [State.idle]⟩
  | executeReturns err => simp [step, hm] at hs
  | cancels => simp [step, hm] at hs
  | receives =>
    simp only [step, hm] at hs
    split at hs <;> cases hs
    rename_i r hma hr
    cases hma
    exact .inl ⟨r, hr, rfl⟩
  | selectsDone =>
    simp only [step] at hs
    split at hs <;> cases hs
    rename_i hr _
    exact .inr ⟨⟨hm, hd⟩, by simp [State.idle, hr]⟩
  | selectsTick =>
    simp only [step] at hs
    split at hs <;> cases hs
    exact .inr ⟨⟨hm, hd⟩, by simp [State.idle]⟩
  | renewReturns err =>
    obtain rfl : err = some .canceled := ha
    simp only [step] at hs
    split at hs <;> cases hs
    rename_i hr
    exact .inr ⟨⟨hm, hd⟩, by simp [State.idle, hr]⟩
  | renewalCancels =>
    simp only [step] at hs
    split at hs <;> cases hs
    rename_i hr
    exact .inr ⟨⟨hm, rfl⟩, by simp [State.idle, hr]⟩
  | renewalSends =>
    simp only [step] at hs
    split at hs <;> cases hs
    rename_i err hr _
    exact .inr ⟨⟨hm, hd⟩, by cases err <;> simp [State.idle, hr]⟩

theorem idle_of_renewed (hc : Consistent s) {r : Option RuntimeError} (hr : s.renewed = some r) :
    s.idle = r.isNone := by
  have hen : s.renewal = .ended := by
    by_contra he
    rw [(hc.unsent he).1] at hr
    cases hr
  cases r <;> simp [State.idle, hen, hr]

theorem doomed_step (h : Doomed s) (ha : e.AnswersCanceled) (hs : step s e = some s') : Doomed s' := by
  obtain ⟨hc, ⟨hj, hi⟩ | ⟨o, ho, hn⟩⟩ := h
  · refine ⟨consistent_step hc hs, ?_⟩
    rcases joined_step hj ha hs with ⟨r, hr, hm⟩ | ⟨hj', hi'⟩
    · rw [idle_of_renewed hc hr] at hi
      cases r with
      | none => cases hi
      | some err => exact .inr ⟨_, hm, jobOutcome_error err⟩
    · rw [hi] at hi'
      exact .inl ⟨hj', hi'⟩
  · exact ⟨consistent_step hc hs, .inr ⟨o, finished_step ho hs, hn⟩⟩

theorem calm_step (h : Calm s) (he : e ≠ .selectsTick) (ha : e.AnswersCanceled) (hs : step s e = some s') :
    Calm s' := by
  obtain ⟨hc, ⟨hj, hi⟩ | ho⟩ := h
  · refine ⟨consistent_step hc hs, ?_⟩
    rcases joined_step hj ha hs with ⟨r, hr, hm⟩ | ⟨hj', hi'⟩
    · rw [idle_of_renewed hc hr] at hi
      cases r with
      | none => exact .inr hm
      | some err => cases hi
    · exact .inl ⟨hj', by simp [hi', hi, he]⟩
  · exact ⟨consistent_step hc hs, .inr (finished_step ho hs)⟩

theorem calm_selectsTick (h : Calm s) (hs : step s .selectsTick = some s') : Doomed s' := by
  obtain ⟨hc, ⟨hj, -⟩ | ho⟩ := h
  · refine ⟨consistent_step hc hs, ?_⟩
    rcases joined_step hj (e := .selectsTick) trivial hs with ⟨r, hr, -⟩ | ⟨hj', hi'⟩
    · -- the renewal has ended and takes no tick
      have hen : s.renewal = .ended := by
        by_contra he
        rw [(hc.unsent he).1] at hr
        cases hr
      simp [step, hen] at hs
    · exact .inl ⟨hj', by simpa using hi'⟩
  · have hen : s.renewal = .ended := by
      by_contra he
      exact (hc.unsent he).2 _ ho
    simp [step, hen] at hs

theorem doomed_exec (h : Doomed s) (ha : ∀ e ∈ es, e.AnswersCanceled) (hs : exec s es = some s') : Doomed s' := by
  induction es generalizing s with
  | nil =>
    cases hs
    exact h
  | cons e es ih =>
    obtain ⟨s1, hs1, hr⟩ := bind_eq_some_iff.mp hs
    exact ih (doomed_step h (ha e mem_cons_self) hs1) (fun e he => ha e (mem_cons_of_mem _ he)) hr

theorem calm_exec (h : Calm s) (ha : ∀ e ∈ es, e.AnswersCanceled) (hs : exec s es = some s') :
    if .selectsTick ∈ es then Doomed s' else Calm s' := by
  induction es generalizing s with
  | nil =>
    cases hs
    simpa using h
  | cons e es ih =>
    obtain ⟨s1, hs1, hr⟩ := bind_eq_some_iff.mp hs
    have ha' : ∀ e ∈ es, e.AnswersCanceled := fun e he => ha e (mem_cons_of_mem _ he)
    by_cases he : e = .selectsTick
    · subst he
      exact doomed_exec (calm_selectsTick h hs1) ha' hr
    have hm : Event.selectsTick ∈ e :: es ↔ Event.selectsTick ∈ es := by
      simp [Ne.symm he]
    simp only [hm]
    exact ih (calm_step h he (ha e mem_cons_self) hs1) ha' hr

/-! ## The end of a run -/

theorem finishes (hc : Consistent s) (hj : s.joined) :
    ∃ es s' o, (∀ e ∈ es, e.AnswersCanceled) ∧ exec s es = some s' ∧ s'.main = .finished o := by
  obtain ⟨main, renewal, tick, ctxDone, renewed⟩ := s
  obtain ⟨rfl, rfl⟩ : main = .joining none ∧ ctxDone = true := hj
  cases renewal with
  | selecting =>
    obtain rfl : renewed = none := (hc.unsent (by simp)).1
    exact ⟨[.selectsDone, .renewalSends, .receives], _, _, by simp [Event.AnswersCanceled], rfl, rfl⟩
  | requesting =>
    obtain rfl : renewed = none := (hc.unsent (by simp)).1
    exact ⟨[.renewReturns (some .canceled), .renewalCancels, .renewalSends, .receives], _, _,
      by simp [Event.AnswersCanceled], rfl, rfl⟩
  | failed err =>
    obtain rfl : renewed = none := (hc.unsent (by simp)).1
    exact ⟨[.renewalCancels, .renewalSends, .receives], _, _, by simp [Event.AnswersCanceled], rfl, rfl⟩
  | sending err =>
    obtain rfl : renewed = none := (hc.unsent (by simp)).1
    exact ⟨[.renewalSends, .receives], _, _, by simp [Event.AnswersCanceled], rfl, rfl⟩
  | ended =>
    rcases hc.sent rfl with hr | ⟨o, ho⟩
    · obtain ⟨r, rfl⟩ := isSome_iff_exists.mp hr
      exact ⟨[.receives], _, _, by simp [Event.AnswersCanceled], rfl, rfl⟩
    · cases ho

/-- **Result.** For every interleaving in which `Execute` returns nil: the job
comes to its end, and however it does, it is reported as succeeded exactly when
no renewal request is under way or has failed at the cancellation that follows
`Execute`, and none starts after it. The answers to requests are arbitrary before
that cancellation. -/
theorem success_reported_iff (before : List Event) (s : State) (hbefore : exec .start before = some s)
    (hreturned : s.main = .returned none) :
    (∃ after s' o, (∀ e ∈ after, e.AnswersCanceled) ∧ exec s (.cancels :: after) = some s' ∧
      s'.main = .finished o) ∧
    ∀ after s' o, (∀ e ∈ after, e.AnswersCanceled) → exec s (.cancels :: after) = some s' →
      s'.main = .finished o → (o = .succeeded ↔ s.idle ∧ .selectsTick ∉ after) := by
  have hc : Consistent s := consistent_exec consistent_start hbefore
  obtain ⟨s1, hs1, hj1, hi1⟩ : ∃ s1, step s .cancels = some s1 ∧ s1.joined ∧ s1.idle = s.idle :=
    ⟨{ s with main := .joining none, ctxDone := true }, by simp only [step, hreturned], ⟨rfl, rfl⟩, rfl⟩
  have hc1 := consistent_step hc hs1
  constructor
  · obtain ⟨after, s', o, ha, he, hm⟩ := finishes hc1 hj1
    exact ⟨after, s', o, ha, by simp only [exec, hs1, bind_some, he], hm⟩
  · intro after s' o ha he hm
    simp only [exec, hs1] at he
    have hd : Doomed s' → o ≠ .succeeded := by
      rintro ⟨-, ⟨hj, -⟩ | ⟨o', ho', hn⟩⟩
      · rw [hj.1] at hm
        cases hm
      · rw [hm] at ho'
        cases ho'
        exact hn
    cases hi : s.idle with
    | false =>
      have := hd (doomed_exec ⟨hc1, .inl ⟨hj1, hi1.trans hi⟩⟩ ha he)
      simpa using this
    | true =>
      have hen := calm_exec ⟨hc1, .inl ⟨hj1, hi1.trans hi⟩⟩ ha he
      by_cases ht : .selectsTick ∈ after
      · rw [if_pos ht] at hen
        simpa [ht] using hd hen
      · rw [if_neg ht] at hen
        obtain ⟨-, ⟨hj, -⟩ | ho⟩ := hen
        · rw [hj.1] at hm
          cases hm
        · rw [hm] at ho
          simpa [ht] using Main.finished.inj ho

/-- A renewal returns before the executor does. -/
def renewedBefore : List Event := [.tickFires, .selectsTick, .renewReturns none, .executeReturns none]

theorem success_reported_renewed : ∃ s s', exec .start renewedBefore = some s ∧
      exec s [.cancels, .selectsDone, .renewalSends, .receives] = some s' ∧
      s'.main = .finished .succeeded := by
  obtain ⟨s, hs, hm, hi⟩ : ∃ s, exec .start renewedBefore = some s ∧ s.main = .returned none ∧ s.idle :=
    ⟨_, rfl, rfl, rfl⟩
  obtain ⟨s', o, hs', ho⟩ : ∃ s' o, exec s [.cancels, .selectsDone, .renewalSends, .receives] = some s' ∧
      s'.main = .finished o := by
    cases hs
    exact ⟨_, _, rfl, rfl⟩
  refine ⟨s, s', hs, hs', ?_⟩
  rw [ho, ((success_reported_iff renewedBefore s hs hm).2 _ s' o (by simp [Event.AnswersCanceled]) hs' ho).mpr
    ⟨hi, by decide⟩]

/-- A renewal is under way when the executor returns nil. Nobody has cancelled
the caller's context and no renewal has failed, and the finished job is
reported as canceled. The same happens when the renewal takes a tick although
the context has ended. -/
theorem success_reported_canceled :
    ((exec .start [.tickFires, .selectsTick, .executeReturns none, .cancels, .renewReturns (some .canceled),
      .renewalCancels, .renewalSends, .receives]).map State.main = some (.finished .canceled)) ∧
    (exec .start [.tickFires, .executeReturns none, .cancels, .selectsTick, .renewReturns (some .canceled),
      .renewalCancels, .renewalSends, .receives]).map State.main = some (.finished .canceled) := by
  decide

end Mossward.L5.LeaseRenewal
