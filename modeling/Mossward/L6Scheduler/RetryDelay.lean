import Mossward.L6Scheduler.Schedule

/-!
# How long a worker waits after a failed cycle

A worker waits longer after each failure in a row, up to a maximum, and no less
than the server asks for in `Retry-After`: `internal/workerclient/retry.go:44-104`
and `internal/workerapp/app.go:85-108`. The header is read by
`transportResponseError` (`transport.go:172-178`) as a duration in seconds.

Durations are nanoseconds. `time.ParseDuration` is modelled character by
character; what it makes of the digits after a point, the dates that
`http.ParseTime` reads and the random source are parameters.

Results: `exponentialDelay_eq`, `delay_bounds`, `parseDuration_seconds`,
`retry_after_honoured`, `delay64_bounds_iff`.
-/
namespace Mossward.L6.RetryDelay

open Run L1.Names L1.Rfc3339 L6.Schedule Option Bool

/-! ## The delay -/

structure RetryPolicy where
  initialDelay : Int
  maximumDelay : Int
  jitterPercent : Int

def defaultRetryPolicy : RetryPolicy := ⟨2 * second, 2 * minute, 20⟩

def percentageScale : Int := 100
def maximumJitterPercent : Int := 100

def validateRetryPolicy (policy : RetryPolicy) : Bool :=
  0 < policy.initialDelay && policy.initialDelay ≤ policy.maximumDelay && 0 ≤ policy.jitterPercent &&
    policy.jitterPercent ≤ maximumJitterPercent

/-- A random number below a positive bound, if the source does not fail. -/
structure Random where
  draw : Int → Option Int
  bounds : ∀ maximum value, draw maximum = some value → 0 ≤ value ∧ value < maximum

section
variable (policy : RetryPolicy)

/-- The loop of `exponentialDelay`, with the number of turns that are left. -/
def doubled : Nat → Int → Int
  | 0, delay => delay
  | turns + 1, delay =>
    if delay < policy.maximumDelay then
      if policy.maximumDelay / 2 < delay then policy.maximumDelay else doubled turns (delay * 2)
    else delay

def exponentialDelay (failures : Nat) : Int :=
  min (doubled policy (failures - 1) policy.initialDelay) policy.maximumDelay

/-- Mirrors `Delay`; `none` is an error. -/
def delay (random : Random) (consecutiveFailures : Nat) (retryAfter : Int) : Option Int :=
  if retryAfter < 0 then none
  else
    let delay := max (exponentialDelay policy consecutiveFailures) retryAfter
    if policy.maximumDelay ≤ delay || policy.jitterPercent = 0 then some (min delay policy.maximumDelay)
    else
      let jitterLimit := delay * policy.jitterPercent / percentageScale
      if jitterLimit < 1 then some delay
      else (random.draw (jitterLimit + 1)).map fun jitter => min (delay + jitter) policy.maximumDelay

end

/-! ## Durations -/

/-- `leadingInt`: the number at the start of the text, and the rest. -/
def leadingInt : Nat → List Char → Option (Nat × List Char)
  | x, [] => some (x, [])
  | x, c :: s =>
    match digitValue c with
    | none => some (x, c :: s)
    | some d =>
      if 2 ^ 63 / 10 < x then none
      else if 2 ^ 63 < x * 10 + d then none
      else leadingInt (x * 10 + d) s

/-- `leadingFraction`: the digits that still fit as a number, how many they are,
and the rest after all digits. -/
def leadingFraction : Nat → Nat → Bool → List Char → Nat × Nat × List Char
  | x, digits, _, [] => (x, digits, [])
  | x, digits, overflow, c :: s =>
    match digitValue c with
    | none => (x, digits, c :: s)
    | some d =>
      if overflow || (2 ^ 63 - 1) / 10 < x || 2 ^ 63 < x * 10 + d then leadingFraction x digits true s
      else leadingFraction (x * 10 + d) (digits + 1) false s

def unitOf (s : List Char) : Option Nat :=
  [("ns", 1), ("us", 1000), ("µs", 1000), ("μs", 1000), ("ms", 1000000), ("s", 1000000000),
    ("m", 60000000000), ("h", 3600000000000)].lookup (String.ofList s)

/-- What follows the integer: the fraction as a number, its digits, the rest, and
whether there were digits. -/
def fractionPart : List Char → Nat × Nat × List Char × Bool
  | '.' :: s =>
    let (f, digits, rest) := leadingFraction 0 0 false s
    (f, digits, rest, rest.length ≠ s.length)
  | s => (0, 0, s, false)

/-- The text of a unit and what follows it. -/
def unitPart (s : List Char) : List Char × List Char := s.span fun c => c ≠ '.' && !c.isDigit

section
variable (fraction : Nat → Nat → Nat → Nat)

/-- One number with its unit. `fraction f digits unit` are the nanoseconds of the
digits after the point. -/
def element (s : List Char) : Option (Nat × List Char) := do
  let (v, afterInt) ← leadingInt 0 s
  let (f, digits, afterNumber, post) := fractionPart afterInt
  if afterInt.length = s.length && !post then none
  else
    let unit ← unitOf (unitPart afterNumber).1
    if 2 ^ 63 / unit < v then none
    else
      let v := v * unit + if 0 < f then fraction f digits unit else 0
      if 2 ^ 63 < v then none else some (v, (unitPart afterNumber).2)

/-- The loop of `ParseDuration`; `fuel` is the length of the text. -/
def elements : Nat → Nat → List Char → Option Nat
  | _, d, [] => some d
  | 0, _, _ :: _ => none
  | fuel + 1, d, s@(_ :: _) => do
    let (v, rest) ← element fraction s
    let d := (d + v) % 2 ^ 64
    if 2 ^ 63 < d then none else elements fuel d rest

/-- The text after the sign, which decides how the sum is read. -/
def unsigned (negative : Bool) (s : List Char) : Option Int :=
  if s = ['0'] then some 0
  else if s = [] then none
  else
    (elements fraction s.length 0 s).bind fun d =>
      if negative then some (-(d : Int)) else if 2 ^ 63 - 1 < d then none else some d

/-- Mirrors `time.ParseDuration`. -/
def parseDuration : List Char → Option Int
  | '-' :: s => unsigned fraction true s
  | '+' :: s => unsigned fraction false s
  | s => unsigned fraction false s

/-- The `RetryAfter` of `transportResponseError`. -/
def headerDelay (header : String) : Int := (parseDuration fraction (trimSpace header.toList ++ ['s'])).getD 0

end

def maximumDuration : Int := 2 ^ 63 - 1

/-- Mirrors `ParseRetryAfter`; `Sub` ends at the largest duration. -/
def parseRetryAfter (httpTime : List Char → Option Int) (header : String) (now : Int) : Int :=
  let value := trimSpace header.toList
  if value = [] then 0
  else
    match atoi value with
    | some seconds =>
      if seconds ≤ 0 then 0
      else if maximumDuration / second < seconds then maximumDuration
      else seconds * second
    | none =>
      match httpTime value with
      | none => 0
      | some moment => if moment ≤ now then 0 else min (moment - now) maximumDuration

/-! ## The cycles -/

/-- How a cycle ends. A failure that no server response caused has no header. -/
inductive Cycle
  | done
  | failed (header : Option String) (random : Random)

structure Worker where
  consecutiveFailures : Nat
  /-- the wait before the next cycle -/
  wait : Int

/-- One turn of `Run`. The error of `Delay` is ignored, which leaves a delay of
zero. -/
def turn (fraction : Nat → Nat → Nat → Nat) (policy : RetryPolicy) (pollInterval : Int) (w : Worker) : Cycle → Worker
  | .done => ⟨0, pollInterval⟩
  | .failed header random =>
    let retryAfter := (header.map (headerDelay fraction)).getD 0
    ⟨w.consecutiveFailures + 1, (delay policy random (w.consecutiveFailures + 1) retryAfter).getD 0⟩

/-! ## Bounds of the delay -/

section
variable {policy : RetryPolicy}

theorem valid_policy (h : validateRetryPolicy policy = true) :
    0 < policy.initialDelay ∧ policy.initialDelay ≤ policy.maximumDelay ∧ 0 ≤ policy.jitterPercent ∧
      policy.jitterPercent ≤ 100 := by
  unfold validateRetryPolicy maximumJitterPercent at h
  simp only [and_eq_true, decide_eq_true_eq] at h
  omega

theorem min_doubled (turns : Nat) {delay : Int} (hp : 0 < delay) :
    min (doubled policy turns delay) policy.maximumDelay = min (delay * 2 ^ turns) policy.maximumDelay := by
  induction turns generalizing delay with
  | zero => simp [doubled]
  | succ turns ih =>
    have hpo : (0 : Int) < 2 ^ turns := by positivity
    have hg : delay * 2 ≤ delay * 2 ^ (turns + 1) := by
      rw [pow_succ']
      nlinarith
    unfold doubled
    split
    · split
      · omega
      · rw [ih (by omega), pow_succ', mul_assoc]
    · rw [min_eq_right (by omega), min_eq_right (by omega)]

/-- **The delay doubles** with each failure until it reaches the maximum. -/
theorem exponentialDelay_eq (h : validateRetryPolicy policy = true) (fails : Nat) :
    exponentialDelay policy fails = min (policy.initialDelay * 2 ^ (fails - 1)) policy.maximumDelay :=
  min_doubled _ (valid_policy h).1

theorem exponentialDelay_bounds (h : validateRetryPolicy policy = true) (fails : Nat) :
    policy.initialDelay ≤ exponentialDelay policy fails ∧ exponentialDelay policy fails ≤ policy.maximumDelay := by
  obtain ⟨hp, hl, -, -⟩ := valid_policy h
  rw [exponentialDelay_eq h]
  have hpo : (1 : Int) ≤ 2 ^ (fails - 1) := one_le_pow₀ (by decide)
  have hg : policy.initialDelay ≤ policy.initialDelay * 2 ^ (fails - 1) := by nlinarith
  omega

/-- **A delay** is between its bounds and honours the duration it is given, up to
the maximum. -/
theorem delay_bounds (h : validateRetryPolicy policy = true) (random : Random)
    (hr : ∀ max1, 0 < max1 → (random.draw max1).isSome) (fails : Nat) {ra : Int}
    (hre : 0 ≤ ra) :
    ∃ d, delay policy random fails ra = some d ∧ policy.initialDelay ≤ d ∧ d ≤ policy.maximumDelay ∧
      min policy.maximumDelay ra ≤ d := by
  obtain ⟨hl, hh⟩ := exponentialDelay_bounds h fails
  unfold delay
  rw [if_neg (by omega)]
  dsimp only
  generalize he : exponentialDelay policy fails = exponential at *
  split
  · exact ⟨_, rfl, by omega, by omega, by omega⟩
  rename_i hb
  simp only [or_eq_true, decide_eq_true_eq] at hb
  split
  · exact ⟨_, rfl, by omega, by omega, by omega⟩
  obtain ⟨jitter, hj⟩ := isSome_iff_exists.mp (hr
    (max exponential ra * policy.jitterPercent / percentageScale + 1) (by omega))
  have hbo := random.bounds _ _ hj
  rw [hj, map_some]
  exact ⟨_, rfl, by omega, by omega, by omega⟩

end

/-! ## The delay in 64 bits -/

section
variable (policy : RetryPolicy)

/-- `doubled` with a product that wraps around. -/
def doubled64 : Nat → Int → Int
  | 0, delay => delay
  | turns + 1, delay =>
    if delay < policy.maximumDelay then
      if policy.maximumDelay / 2 < delay then policy.maximumDelay
      else doubled64 turns ((delay * 2).bmod (2 ^ 64))
    else delay

/-- The product wraps around, and the division cuts towards zero. Mirrors
`retry.go:55`. -/
def jitterLimit64 (delay : Int) : Int := ((delay * policy.jitterPercent).bmod (2 ^ 64)).tdiv percentageScale

/-- Mirrors `Delay` (`retry.go:44-64`) in `int64`, where sums wrap around too. -/
def delay64 (random : Random) (consecutiveFailures : Nat) (retryAfter : Int) : Option Int :=
  if retryAfter < 0 then none
  else
    let exponential := min (doubled64 policy (consecutiveFailures - 1) policy.initialDelay) policy.maximumDelay
    let delay := max exponential retryAfter
    if policy.maximumDelay ≤ delay || policy.jitterPercent = 0 then some (min delay policy.maximumDelay)
    else
      let jitterLimit := jitterLimit64 policy delay
      if jitterLimit < 1 then some delay
      else
        (random.draw ((jitterLimit + 1).bmod (2 ^ 64))).map fun jitter =>
          min ((delay + jitter).bmod (2 ^ 64)) policy.maximumDelay

variable {policy}

theorem bmod_int64 {x : Int} (hl : -2 ^ 63 ≤ x) (hh : x ≤ maximumDuration) : x.bmod (2 ^ 64) = x := by
  unfold maximumDuration at hh
  apply Int.bmod_eq_of_le <;> omega

/-- The loop ends before its product can wrap around. -/
theorem doubled64_eq (hm : policy.maximumDelay ≤ maximumDuration) (turns : Nat) {delay : Int} (hp : 0 < delay) :
    doubled64 policy turns delay = doubled policy turns delay := by
  induction turns generalizing delay with
  | zero => rfl
  | succ turns ih =>
    unfold doubled64 doubled
    split
    · split
      · rfl
      · rw [bmod_int64 (by omega) (by omega)]
        exact ih (by omega)
    · rfl

theorem jitterLimit64_le (policy : RetryPolicy) (delay : Int) :
    jitterLimit64 policy delay ≤ maximumDuration / percentageScale := by
  have hw : (delay * policy.jitterPercent).bmod (2 ^ 64) < 2 ^ 63 := Int.bmod_lt (by decide)
  exact le_trans (Int.tdiv_le_tdiv (by decide) (Int.le_sub_one_of_lt hw)) (by decide)

/-- The jitter does not take the delay past the largest number. -/
def JitterFits (policy : RetryPolicy) (delay : Int) : Prop :=
  jitterLimit64 policy delay < 1 ∨ delay + jitterLimit64 policy delay ≤ maximumDuration

/-- The delay that is asked of the policy. -/
def InBounds (policy : RetryPolicy) (retryAfter d : Int) : Prop :=
  policy.initialDelay ≤ d ∧ d ≤ policy.maximumDelay ∧ min retryAfter policy.maximumDelay ≤ d

theorem delay64_of_fits (h : validateRetryPolicy policy = true) (hm : policy.maximumDelay ≤ maximumDuration)
    (hfits : ∀ delay, policy.initialDelay ≤ delay → delay < policy.maximumDelay → JitterFits policy delay)
    {random : Random} (hrandom : ∀ maximum, 0 < maximum → (random.draw maximum).isSome) (consecutiveFailures : Nat)
    {retryAfter : Int} (hretry : 0 ≤ retryAfter) :
    ∃ d, delay64 policy random consecutiveFailures retryAfter = some d ∧ InBounds policy retryAfter d := by
  obtain ⟨hp, -, -, -⟩ := valid_policy h
  obtain ⟨hl, hh⟩ := exponentialDelay_bounds h consecutiveFailures
  unfold InBounds delay64
  rw [if_neg (by omega), doubled64_eq hm _ hp]
  dsimp only
  rw [← exponentialDelay]
  generalize exponentialDelay policy consecutiveFailures = exponential at *
  split
  · exact ⟨_, rfl, by omega, by omega, by omega⟩
  rename_i hb
  simp only [or_eq_true, decide_eq_true_eq] at hb
  have hfit := hfits (max exponential retryAfter) (by omega) (by omega)
  have hlimit := jitterLimit64_le policy (max exponential retryAfter)
  unfold JitterFits at hfit
  unfold maximumDuration percentageScale at *
  generalize jitterLimit64 policy (max exponential retryAfter) = jitterLimit at *
  split
  · exact ⟨_, rfl, by omega, by omega, by omega⟩
  · rw [bmod_int64 (by omega) (by unfold maximumDuration; omega)]
    obtain ⟨jitter, hj⟩ := isSome_iff_exists.mp (hrandom (jitterLimit + 1) (by omega))
    have hbo := random.bounds _ _ hj
    rw [hj, map_some, bmod_int64 (by omega) (by unfold maximumDuration; omega)]
    exact ⟨_, rfl, by omega, by omega, by omega⟩

/-- A source that draws the largest number. -/
def largest : Random where
  draw maximum := if 0 < maximum then some (maximum - 1) else none
  bounds := by
    intro maximum value h
    split at h
    · cases h
      omega
    · cases h

theorem largest_draw {maximum : Int} (h : 0 < maximum) : largest.draw maximum = some (maximum - 1) := if_pos h

/-- A server that asks for this delay, and a source that draws the largest number. -/
theorem delay64_largest (h : validateRetryPolicy policy = true) (hm : policy.maximumDelay ≤ maximumDuration) {d : Int}
    (hl : policy.initialDelay ≤ d) (hh : d < policy.maximumDelay) (hfit : ¬ JitterFits policy d) :
    ∃ e, delay64 policy largest 0 d = some e ∧ e < 0 := by
  obtain ⟨hp, -, -, -⟩ := valid_policy h
  have hlimit := jitterLimit64_le policy d
  have hzero : policy.jitterPercent ≠ 0 := by
    intro hz
    refine hfit (.inl ?_)
    rw [jitterLimit64, hz, Int.mul_zero]
    decide
  have hmax : max (min (doubled64 policy (0 - 1) policy.initialDelay) policy.maximumDelay) d = d := by
    rw [doubled64]
    omega
  unfold delay64
  rw [if_neg (by omega)]
  dsimp only
  rw [hmax, if_neg (by simp only [or_eq_true, decide_eq_true_eq]; omega)]
  unfold JitterFits at hfit
  unfold percentageScale at hlimit
  unfold maximumDuration at hfit hlimit hm
  generalize jitterLimit64 policy d = limit at *
  rw [if_neg (by omega), bmod_int64 (by omega) (by unfold maximumDuration; omega), largest_draw (by omega), map_some]
  refine ⟨_, rfl, lt_of_le_of_lt (min_le_left _ _) ?_⟩
  -- the sum is past the largest number by less than a hundredth of it
  have hw : (d + (limit + 1 - 1)).bmod (2 ^ 64) = d + limit - 2 ^ 64 := by
    rw [show d + (limit + 1 - 1) = d + limit - 2 ^ 64 + 2 ^ 64 by omega]
    exact (Int.add_bmod_right ..).trans (bmod_int64 (by omega) (by unfold maximumDuration; omega))
  omega

/-- **The delay in 64 bits** keeps its bounds, whatever the failures, the server's
wish and the numbers drawn, exactly for the accepted policies under which no delay
below the maximum overflows with its jitter. A product that wraps around changes
the jitter only, and the sum with it is what must not. -/
theorem delay64_bounds_iff (h : validateRetryPolicy policy = true) (hm : policy.maximumDelay ≤ maximumDuration) :
    (∀ (random : Random) (consecutiveFailures : Nat) (retryAfter : Int),
        (∀ maximum, 0 < maximum → (random.draw maximum).isSome) → 0 ≤ retryAfter →
        ∃ d, delay64 policy random consecutiveFailures retryAfter = some d ∧ InBounds policy retryAfter d) ↔
      ∀ delay, policy.initialDelay ≤ delay → delay < policy.maximumDelay → JitterFits policy delay := by
  obtain ⟨hp, -, -, -⟩ := valid_policy h
  constructor
  · intro hall d hl hh
    by_contra hfit
    obtain ⟨e, he, hneg⟩ := delay64_largest h hm hl hh hfit
    obtain ⟨e', he', hb, -⟩ := hall largest 0 d (fun maximum hp => by rw [largest_draw hp]; rfl) (by omega)
    rw [he] at he'
    cases he'
    omega
  · intro hfits random consecutiveFailures retryAfter hrandom hretry
    exact delay64_of_fits h hm hfits hrandom consecutiveFailures hretry

theorem delay64_bounds_default : ∃ d, delay64 defaultRetryPolicy largest 3 (90 * second) = some d ∧
    InBounds defaultRetryPolicy (90 * second) d := by
  refine (delay64_bounds_iff (by decide) (by decide)).mpr (fun delay _ hh => .inr ?_) largest 3 (90 * second)
    (fun maximum hp => by rw [largest_draw hp]; rfl) (by decide)
  have hlimit := jitterLimit64_le defaultRetryPolicy delay
  have hmax : defaultRetryPolicy.maximumDelay = 120000000000 := by decide
  unfold maximumDuration percentageScale at *
  omega

/-- The jitter takes the sum past the largest number, and the delay is negative. -/
theorem delay64_negative : validateRetryPolicy ⟨2 ^ 63 - 2, maximumDuration, 99⟩ = true ∧
    delay64 ⟨2 ^ 63 - 2, maximumDuration, 99⟩ largest 1 0 = some (-9131138316486228054) := by
  decide +kernel

end

/-! ## A number of seconds -/

variable {s : List Char}

theorem number_le {x n : Nat} (h : number x s = some n) : x ≤ n := by
  induction s generalizing x with
  | nil =>
    rw [number, some.injEq] at h
    exact h.le
  | cons c s ih =>
    rw [number, bind_eq_some_iff] at h
    obtain ⟨d, -, h⟩ := h
    have hn := ih h
    omega

theorem leadingInt_number {x n : Nat} (h : number x s = some n) (hn : n ≤ 9223372036) :
    leadingInt x (s ++ ['s']) = some (n, ['s']) := by
  induction s generalizing x with
  | nil =>
    rw [number, some.injEq] at h
    rw [← h]
    rfl
  | cons c s ih =>
    rw [number, bind_eq_some_iff] at h
    obtain ⟨d, hd, h⟩ := h
    have hl := number_le h
    rw [List.cons_append, leadingInt, hd]
    dsimp only
    rw [if_neg (by omega), if_neg (by omega)]
    exact ih h

theorem element_seconds (frac : Nat → Nat → Nat → Nat) {n : Nat} (hs : s ≠ [])
    (h : number 0 s = some n) (hn : n ≤ 9223372036) :
    element frac (s ++ ['s']) = some (n * 1000000000, []) := by
  have hp : ¬ ((decide ((['s'] : List Char).length = (s ++ ['s']).length) && !false) = true) := by
    simp
    omega
  have hf : fractionPart ['s'] = (0, 0, ['s'], false) := rfl
  have hu : unitOf (unitPart ['s']).1 = some 1000000000 := by decide
  have hr : (unitPart ['s']).2 = [] := by decide
  unfold element
  rw [leadingInt_number h hn, bind_eq_bind, bind_some]
  dsimp only
  rw [hf]
  rw [if_neg hp, hu, bind_eq_bind, bind_some, if_neg (by omega), if_neg (Nat.lt_irrefl 0),
    Nat.add_zero, if_neg (by omega), hr]

theorem unsigned_seconds (frac : Nat → Nat → Nat → Nat) {n : Nat} (hs : s ≠ [])
    (h : number 0 s = some n) (hn : n ≤ 9223372036) :
    unsigned frac false (s ++ ['s']) = some (n * second) := by
  have hel : elements frac (s ++ ['s']).length 0 (s ++ ['s']) = some (n * 1000000000) := by
    have he := element_seconds frac hs h hn
    have hsm : n * 1000000000 < 2 ^ 64 := by omega
    cases hc : s ++ ['s'] with
    | nil => simp at hc
    | cons c rest =>
      rw [hc] at he
      rw [List.length_cons, elements, he, bind_eq_bind, bind_some]
      dsimp only
      rw [Nat.zero_add, Nat.mod_eq_of_lt hsm, if_neg (by omega), elements]
  unfold unsigned
  rw [if_neg (by cases s <;> simp), if_neg (by simp), hel, bind_some, if_neg (by decide), if_neg (by omega)]
  rfl

/-- **A number of seconds** is read as it is written. -/
theorem parseDuration_seconds (frac : Nat → Nat → Nat → Nat) {value : List Char} {secs : Int}
    (h : atoi value = some secs) (hpo : 0 < secs) (hl : secs ≤ 9223372036) :
    parseDuration frac (value ++ ['s']) = some (secs * second) := by
  have hd : ∀ (sign : Int) (s : List Char), sign = 1 → (if s = [] then none else (number 0 s).bind fun n =>
        if -(2 ^ 63) ≤ sign * n ∧ sign * n < 2 ^ 63 then some (sign * (n : Int)) else none) = some secs →
      unsigned frac false (s ++ ['s']) = some (secs * second) := by
    intro sign s hsi hs
    subst hsi
    split at hs
    · cases hs
    rename_i hne
    obtain ⟨n, hn, hs⟩ := bind_eq_some_iff.mp hs
    split at hs
    · rw [some.injEq, one_mul] at hs
      rw [← hs]
      exact unsigned_seconds frac hne hn (by omega)
    · cases hs
  cases value with
  | nil => cases h
  | cons c s =>
    by_cases hp : c = '+'
    · subst hp
      exact hd 1 s rfl h
    by_cases hm : c = '-'
    · -- a negative number is none of seconds
      subst hm
      have hn1 : (if s = [] then none else (number 0 s).bind fun n =>
          if -(2 ^ 63) ≤ -1 * (n : Int) ∧ -1 * (n : Int) < 2 ^ 63 then some (-1 * (n : Int)) else none) =
          some secs := h
      split at hn1
      · cases hn1
      obtain ⟨n, -, hn1⟩ := bind_eq_some_iff.mp hn1
      split at hn1
      · rw [some.injEq] at hn1
        omega
      · cases hn1
    · have hpa : parseDuration frac (c :: s ++ ['s']) = unsigned frac false (c :: s ++ ['s']) := by
        simp [parseDuration, hp, hm]
      rw [hpa]
      apply hd 1 (c :: s) rfl
      simpa [atoi, hp, hm] using h

/-! ## Every run of cycles -/

section
variable (fraction : Nat → Nat → Nat → Nat) (httpTime : List Char → Option Int)

/-- The transport reads no less than `ParseRetryAfter` would: the header is no
negative duration, no number of seconds beyond the largest duration, and no date
in the future. -/
structure ReadAlike (header : String) (now : Int) : Prop where
  nonnegative : 0 ≤ headerDelay fraction header
  fits : ∀ seconds, atoi (trimSpace header.toList) = some seconds → seconds ≤ 9223372036
  noDate : ∀ moment, atoi (trimSpace header.toList) = none → httpTime (trimSpace header.toList) = some moment →
    moment ≤ now

variable {fraction httpTime} {header : String} {now : Int}

theorem ReadAlike.le (h : ReadAlike fraction httpTime header now) :
    parseRetryAfter httpTime header now ≤ headerDelay fraction header := by
  have hn := h.nonnegative
  unfold parseRetryAfter
  dsimp only
  split
  · exact hn
  split
  · rename_i secs hs
    split
    · exact hn
    split
    · rename_i hb
      have hf := h.fits secs hs
      unfold maximumDuration second at hb
      omega
    · unfold headerDelay
      rw [parseDuration_seconds fraction hs (by omega) (h.fits secs hs)]
      exact le_rfl
  · rename_i hno
    split
    · exact hn
    · rename_i moment hm
      rw [if_pos (h.noDate moment hno hm)]
      exact hn

end

/-- **The wait after a failure**, after any cycles before it, when the header is
read alike and the random source does not fail. -/
theorem retry_after_honoured (fraction : Nat → Nat → Nat → Nat) (httpTime : List Char → Option Int)
    (pollInterval : Int) (cycles : List Cycle) (header : String) (random : Random) (now : Int)
    (hheader : ReadAlike fraction httpTime header now)
    (hrandom : ∀ maximum, 0 < maximum → (random.draw maximum).isSome) :
    let w := run (turn fraction defaultRetryPolicy pollInterval) ⟨0, pollInterval⟩
      (cycles ++ [.failed (some header) random])
    defaultRetryPolicy.initialDelay ≤ w.wait ∧ w.wait ≤ defaultRetryPolicy.maximumDelay ∧
      min defaultRetryPolicy.maximumDelay (parseRetryAfter httpTime header now) ≤ w.wait := by
  dsimp only
  rw [run_concat]
  generalize run (turn fraction defaultRetryPolicy pollInterval) ⟨0, pollInterval⟩ cycles = w
  obtain ⟨d, hd, hl, hh, hr⟩ := @delay_bounds defaultRetryPolicy (by decide) random hrandom
    (w.consecutiveFailures + 1) _ hheader.nonnegative
  have hw : (turn fraction defaultRetryPolicy pollInterval w (.failed (some header) random)).wait = d := by
    unfold turn
    dsimp only
    rw [map_some, getD_some, hd, getD_some]
  rw [hw]
  refine ⟨hl, hh, le_trans ?_ hr⟩
  exact min_le_min_left _ hheader.le

namespace Small

/-- A source that always draws zero. -/
def random : Random where
  draw maximum := if 0 < maximum then some 0 else none
  bounds := by
    intro maximum value h
    split at h
    · rename_i hpos
      cases h
      exact ⟨le_rfl, hpos⟩
    · cases h

/-- One date, an hour after the moment zero. -/
def httpTime (value : List Char) : Option Int :=
  if value = "Thu, 01 Jan 1970 01:00:00 GMT".toList then some hour else none

def waitAfter (header : String) : Int :=
  (run (turn (fun _ _ _ => 0) defaultRetryPolicy minute) ⟨0, minute⟩ [.failed (some header) random]).wait

end Small

open Small

/-- Ninety seconds, asked for by the second of two failures. -/
theorem retry_after_ninety_seconds : ReadAlike (fun _ _ _ => 0) httpTime "90" 0 ∧
    (let w := run (turn (fun _ _ _ => 0) defaultRetryPolicy minute) ⟨0, minute⟩
      ([.failed none random] ++ [.failed (some "90") random])
    defaultRetryPolicy.initialDelay ≤ w.wait ∧ w.wait ≤ defaultRetryPolicy.maximumDelay ∧
      min defaultRetryPolicy.maximumDelay (parseRetryAfter httpTime "90" 0) ≤ w.wait) :=
  have hninety : atoi (trimSpace "90".toList) = some 90 := by decide +kernel
  have hr : ReadAlike (fun _ _ _ => 0) httpTime "90" 0 :=
    { nonnegative := by decide +kernel
      fits := by
        intro secs h
        rw [hninety, some.injEq] at h
        omega
      noDate := by
        intro moment h
        cases h }
  ⟨hr, retry_after_honoured _ _ _ _ _ _ _ hr fun max hp => by simp [random, hp]⟩

/-- A negative number ends the wait at once; a date and a number of seconds that
is too large are passed over. -/
theorem retry_after_ignored : waitAfter "-5" = 0 ∧
    parseRetryAfter httpTime "Thu, 01 Jan 1970 01:00:00 GMT" 0 = hour ∧
    waitAfter "Thu, 01 Jan 1970 01:00:00 GMT" = 2 * second ∧
    parseRetryAfter httpTime "9223372037" 0 = maximumDuration ∧
    waitAfter "9223372037" = 2 * second := by
  decide +kernel

end Mossward.L6.RetryDelay
