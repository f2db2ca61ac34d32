import Mossward.L6Scheduler.Schedule

/-!
# What a maintenance window means

A policy is checked and completed by `Prepare` before it is stored, and `Window`
reads its clock times again whenever the scheduler asks:
`internal/scheduling/schedule.go:14-44` and `:80-135`. `Prepare` trims the clock
times to check them, but stores them as they were given, and `Window` does not
trim.

Results: `window_eq_windowNs`, `windowBounds_fixed`, `window_meaning_iff`.
-/
namespace Mossward.L6.MaintenanceWindow

open Table L1.Names L1.Rfc3339 L6.Schedule Bool

/-! ## Preparing a policy -/

def trimmed (value : String) : String := String.ofList (trimSpace value.toList)

/-- Mirrors `validateWindow`, `internal/scheduling/schedule.go:116-135`. -/
def validateWindow (start stop : String) : Except String Unit :=
  let start := trimmed start
  let stop := trimmed stop
  if (start = "") ≠ (stop = "") then .error "maintenance window requires both start and end times"
  else if start = "" then .ok ()
  else
    match parseClock start, parseClock stop with
    | .error e, _ => .error ("invalid window start: " ++ e)
    | .ok _, .error e => .error ("invalid window end: " ++ e)
    | .ok _, .ok _ => if start = stop then .error "maintenance window start and end must differ" else .ok ()

def kindText : ScheduleKind → String
  | .manual => "manual"
  | .once => "once"
  | .daily => "daily"
  | .weekly => "weekly"
  | .cron => "cron"
  | .other text => text

def kindOf (text : List Char) : ScheduleKind :=
  if text = "manual".toList then .manual
  else if text = "once".toList then .once
  else if text = "daily".toList then .daily
  else if text = "weekly".toList then .weekly
  else if text = "cron".toList then .cron
  else .other (String.ofList text)

section
variable (C : Calendar) (lower : Char → Char)

def preparedKind (kind : ScheduleKind) : ScheduleKind :=
  let text := toLower lower (trimSpace (kindText kind).toList)
  if text = [] then .manual else kindOf text

def preparedZone (zone : String) : String := if trimmed zone = "" then "UTC" else trimmed zone

/-- Mirrors `Prepare`; the threshold of the long-run alert is only checked. -/
def prepare (policy : ReusableScanPolicy) (longRunAlertSeconds : Int) (now : Time) :
    Except String ReusableScanPolicy :=
  let policy := { policy with
    scheduleKind := preparedKind lower policy.scheduleKind
    scheduleTimezone := preparedZone policy.scheduleTimezone }
  match C.location policy.scheduleTimezone with
  | none => .error "schedule timezone is invalid"
  | some location => do
    validateWindow policy.windowStart policy.windowEnd
    require (0 ≤ longRunAlertSeconds) "long-run alert threshold cannot be negative"
    if policy.scheduleKind = .manual then
      return { policy with nextRunAt := none, scheduleExpression := "" }
    else
      let next ← next C policy now location
      return { policy with nextRunAt := some next }

/-- `Window` for any moment, in nanoseconds. -/
def windowNs (policy : ReusableScanPolicy) (now : Int) : Option (Bool × Option Int) :=
  (C.location policy.scheduleTimezone).map fun location =>
    if policy.windowStart = "" then (true, none)
    else
      let (start, stop) := windowBounds location policy now
      (start ≤ now && now < stop, some stop)

end

theorem window_eq_windowNs (C : Calendar) (pol : ReusableScanPolicy) (now : Time) :
    window C pol now = (windowNs C pol now.ns).bind fun (inside, stop) =>
      match stop with
      | none => some (inside, none)
      | some stop => (Time.ofNs stop).map fun wend => (inside, some wend) := by
  unfold window windowNs
  cases C.location pol.scheduleTimezone with
  | none => rfl
  | some loc =>
    dsimp only [Option.bind_some]
    split <;> rfl

theorem prepare_ok {C : Calendar} {lower : Char → Char} {pol pol' : ReusableScanPolicy}
    {longRunAlertSeconds : Int} {now : Time} (h : prepare C lower pol longRunAlertSeconds now = .ok pol') :
    pol'.windowStart = pol.windowStart ∧ pol'.windowEnd = pol.windowEnd := by
  unfold prepare at h
  dsimp only at h
  split at h
  · cases h
  obtain ⟨_, -, h⟩ := bind_eq_ok.mp h
  obtain ⟨_, -, h⟩ := bind_eq_ok.mp h
  split at h
  · cases h
    exact ⟨rfl, rfl⟩
  · obtain ⟨_, -, h⟩ := bind_eq_ok.mp h
    cases h
    exact ⟨rfl, rfl⟩

/-! ## Zones with a fixed offset -/

/-- The zone's clock is always this far from UTC. -/
structure Fixed (location : Location) (offset : Int) : Prop where
  offset_eq : ∀ t, location.offset t = offset
  instant_eq : ∀ reading, location.instant reading = reading - offset

/-- The time of day on the zone's clock. -/
def timeOfDay (offset now : Int) : Int := (now + offset) % (24 * hour)

theorem Fixed.addDays {loc : Location} {offset : Int} (h : Fixed loc offset) (t n : Int) :
    loc.addDays t n = t + n * (24 * hour) := by
  unfold Location.addDays Location.wall
  rw [h.instant_eq, h.offset_eq]
  ring

variable {value : String} {min : Int}

theorem parseClock_range {hr : Int} (h : parseClock value = .ok (hr, min)) :
    0 ≤ hr ∧ hr ≤ 23 ∧ 0 ≤ min ∧ min ≤ 59 := by
  unfold parseClock at h
  split at h
  · split at h
    · split at h
      · cases h
      rename_i hra
      cases h
      simp only [or_eq_true, decide_eq_true_eq] at hra
      omega
    · cases h
  · cases h

theorem clock_lt_day {hr : Int} (h : 0 ≤ hr ∧ hr ≤ 23 ∧ 0 ≤ min ∧ min ≤ 59) :
    0 ≤ hr * hour + min * minute ∧ hr * hour + min * minute < 24 * hour := by
  unfold hour minute second
  omega

/-- The part of the day between two clock times, over midnight if the second is
not the later one. -/
def Between (start stop t : Int) : Prop := if start < stop then start ≤ t ∧ t < stop else start ≤ t ∨ t < stop

/-- The first moment after `now` at which the clock shows `clock`. -/
def IsNext (offset clock now t : Int) : Prop :=
  now < t ∧ timeOfDay offset t = clock ∧ ∀ t', now < t' → timeOfDay offset t' = clock → t ≤ t'

section
variable {location : Location} {offset start stop : Int}

theorem isNext_of_lt_day (hst : 0 ≤ stop ∧ stop < 24 * hour) {now t : Int} (hl : now < t)
    (hd : t ≤ now + 24 * hour) (hc : ∃ days, t + offset = days * (24 * hour) + stop) :
    IsNext offset stop now t := by
  unfold IsNext timeOfDay
  unfold hour minute second at *
  refine ⟨hl, by omega, fun t' ht' hs => ?_⟩
  omega

/-- **Start and end of the window** around a moment, as distances from the
midnight before it. -/
theorem windowBounds_fixed (h : Fixed location offset) {pol : ReusableScanPolicy}
    (hs : clockOffset pol.windowStart = start) (hst : clockOffset pol.windowEnd = stop) (now : Int) :
    windowBounds location pol now =
      let mid := (now + offset) / (24 * hour) * (24 * hour) - offset
      if stop ≤ start then
        if now < mid + stop then (mid + start - 24 * hour, mid + stop)
        else (mid + start, mid + stop + 24 * hour)
      else (mid + start, mid + stop) := by
  unfold windowBounds Location.wall
  dsimp only
  rw [h.offset_eq, h.instant_eq, h.instant_eq, h.addDays, h.addDays]
  generalize (now + offset) / (24 * hour) * (24 * hour) = mid
  by_cases hw : stop ≤ start
  · rw [if_pos (by omega), if_pos hw]
    by_cases hb : now < mid - offset + stop
    · rw [if_pos (by omega), if_pos hb]
      exact Prod.ext (by dsimp only; omega) (by dsimp only; omega)
    · rw [if_neg (by omega), if_neg hb]
      exact Prod.ext (by dsimp only; omega) (by dsimp only; omega)
  · rw [if_neg (by omega), if_neg hw]
    exact Prod.ext (by dsimp only; omega) (by dsimp only; omega)

/-- **The window of a day.** -/
theorem inside_iff (h : Fixed location offset) {pol : ReusableScanPolicy}
    (hst : clockOffset pol.windowStart = start) (hsto : clockOffset pol.windowEnd = stop)
    (hs : 0 ≤ start ∧ start < 24 * hour) (he : 0 ≤ stop ∧ stop < 24 * hour) (now : Int) :
    let bounds := windowBounds location pol now
    (bounds.1 ≤ now ∧ now < bounds.2 ↔ Between start stop (timeOfDay offset now)) ∧
    (bounds.1 ≤ now ∧ now < bounds.2 → IsNext offset stop now bounds.2) := by
  rw [windowBounds_fixed h hst hsto]
  -- the reading is so many days and a time of day
  have hr := Int.emod_add_mul_ediv (now + offset) (24 * hour)
  have hl := Int.emod_nonneg (now + offset) (show (24 * hour : Int) ≠ 0 by decide)
  have hh := Int.emod_lt_of_pos (now + offset) (show (0 : Int) < 24 * hour by decide)
  unfold Between timeOfDay
  generalize (now + offset) % (24 * hour) = tod at *
  generalize (now + offset) / (24 * hour) = days at *
  have hm : now = days * (24 * hour) - offset + tod := by
    rw [mul_comm] at hr
    omega
  generalize hmi : days * (24 * hour) - offset = midnight at *
  subst hm
  by_cases hw : stop ≤ start
  · have ho : ¬ start < stop := by omega
    rw [if_pos hw, if_neg ho]
    by_cases hb : midnight + tod < midnight + stop
    · rw [if_pos hb]
      exact ⟨by omega, fun _ => isNext_of_lt_day he hb (by omega) ⟨days, by omega⟩⟩
    rw [if_neg hb]
    refine ⟨by omega, fun hi => isNext_of_lt_day he hi.2 (by omega) ⟨days + 1, ?_⟩⟩
    rw [add_mul]
    omega
  · have hd : start < stop := by omega
    rw [if_neg hw, if_pos hd]
    exact ⟨by omega, fun hi => isNext_of_lt_day he hi.2 (by omega) ⟨days, by omega⟩⟩

end

/-! ## Prepared policies -/

theorem clockOffset_of_parse {hr : Int} (h : parseClock value = .ok (hr, min)) :
    clockOffset value = hr * hour + min * minute := by
  unfold clockOffset
  rw [h]

theorem clockOffset_range (value : String) : 0 ≤ clockOffset value ∧ clockOffset value < 24 * hour := by
  unfold clockOffset
  split
  · rename_i h
    exact clock_lt_day (parseClock_range h)
  · decide

theorem nonempty_of_trimmed {hr : Int} (h : parseClock (trimmed value) = .ok (hr, min)) : value ≠ "" := by
  intro he
  rw [he] at h
  cases h

/-- The times of the day between `start` and `stop` tell which `start` it is. -/
theorem start_of_between {start start' stop : Int} (h : Between start' stop start) (h' : Between start stop start') :
    start = start' := by
  unfold Between at h h'
  by_cases hs : start < stop
  · rw [if_pos hs] at h'
    rw [if_pos h'.2] at h
    omega
  · rw [if_neg hs] at h'
    by_cases hs' : start' < stop
    · rw [if_pos hs'] at h
      omega
    · rw [if_neg hs'] at h
      omega

theorem between_start (start stop : Int) : Between start stop start := by
  unfold Between
  split
  · exact ⟨le_refl _, by omega⟩
  · exact .inl (le_refl _)

theorem timeOfDay_sub {clock : Int} (offset : Int) (h : 0 ≤ clock ∧ clock < 24 * hour) :
    timeOfDay offset (clock - offset) = clock := by
  rw [timeOfDay, sub_add_cancel]
  exact Int.emod_eq_of_lt h.1 h.2

/-- `Window` reports, at every moment, whether it lies between the two clock times,
and if so the next moment of the second one as the end. -/
def Means (C : Calendar) (policy : ReusableScanPolicy) (offset start stop : Int) : Prop :=
  ∀ now, ∃ inside wend, windowNs C policy now = some (inside, some wend) ∧
    (inside = true ↔ Between start stop (timeOfDay offset now)) ∧ (inside = true → IsNext offset stop now wend)

section
variable {C : Calendar} {pol : ReusableScanPolicy} {location : Location} {offset : Int}

theorem means_read (hl : C.location pol.scheduleTimezone = some location) (hf : Fixed location offset)
    (hne : pol.windowStart ≠ "") : Means C pol offset (clockOffset pol.windowStart) (clockOffset pol.windowEnd) := by
  intro now
  obtain ⟨hi, hn⟩ := inside_iff hf rfl rfl (clockOffset_range pol.windowStart) (clockOffset_range pol.windowEnd) now
  unfold windowNs
  rw [hl, Option.map_some, if_neg hne]
  refine ⟨_, _, rfl, ?_, ?_⟩
  · rw [and_eq_true, decide_eq_true_eq, decide_eq_true_eq]
    exact hi
  · rw [and_eq_true, decide_eq_true_eq, decide_eq_true_eq]
    exact hn

/-- What the window means tells its clock times. -/
theorem Means.unique {start stop start' stop' : Int} (h : Means C pol offset start stop)
    (h' : Means C pol offset start' stop') (hs : 0 ≤ start ∧ start < 24 * hour)
    (hs' : 0 ≤ start' ∧ start' < 24 * hour) :
    start = start' ∧ stop = stop' := by
  have hboth : ∀ now, (Between start stop (timeOfDay offset now) ↔ Between start' stop' (timeOfDay offset now)) ∧
      (Between start stop (timeOfDay offset now) → stop = stop') := by
    intro now
    obtain ⟨inside, wend, hw, hi, hn⟩ := h now
    obtain ⟨inside', wend', hw', hi', hn'⟩ := h' now
    cases hw.symm.trans hw'
    exact ⟨hi.symm.trans hi', fun hb => (hn (hi.mpr hb)).2.1.symm.trans (hn' (hi.mpr hb)).2.1⟩
  have hat := hboth (start - offset)
  have hat' := (hboth (start' - offset)).1
  rw [timeOfDay_sub offset hs] at hat
  rw [timeOfDay_sub offset hs'] at hat'
  obtain rfl := hat.2 (between_start start stop)
  exact ⟨start_of_between (hat.1.mp (between_start start stop)) (hat'.mpr (between_start start' stop)), rfl⟩

end

/-- **Maintenance windows.** For a prepared policy in a zone with a fixed offset:
without clock times, `Window` always reports inside without an end exactly if the
start is empty untrimmed; with clock times, it means them exactly if the untrimmed
texts are read as the same ones, where a text that does not parse is midnight. -/
theorem window_meaning_iff (C : Calendar) (lower : Char → Char) (policy policy' : ReusableScanPolicy)
    (longRunAlertSeconds : Int) (preparedAt : Time)
    (hprepare : prepare C lower policy longRunAlertSeconds preparedAt = .ok policy')
    (location : Location) (offset : Int) (hlocation : C.location policy'.scheduleTimezone = some location)
    (hfixed : Fixed location offset) :
    (trimmed policy.windowStart = "" →
      ((∀ now, windowNs C policy' now = some (true, none)) ↔ policy.windowStart = "")) ∧
    ∀ startHour startMinute endHour endMinute,
      parseClock (trimmed policy.windowStart) = .ok (startHour, startMinute) →
      parseClock (trimmed policy.windowEnd) = .ok (endHour, endMinute) →
      (Means C policy' offset (startHour * hour + startMinute * minute) (endHour * hour + endMinute * minute) ↔
        clockOffset policy.windowStart = clockOffset (trimmed policy.windowStart) ∧
        clockOffset policy.windowEnd = clockOffset (trimmed policy.windowEnd)) := by
  obtain ⟨hk, hke⟩ := prepare_ok hprepare
  constructor
  · intro _
    constructor
    · intro h
      by_contra hne
      obtain ⟨inside, wend, hw, -⟩ := means_read hlocation hfixed (hk.trans_ne hne) 0
      cases hw.symm.trans (h 0)
    · intro he now
      unfold windowNs
      rw [hlocation, Option.map_some, hk, if_pos he]
  · intro startHour startMinute endHour endMinute hp hpa
    have hread := means_read hlocation hfixed (hk.trans_ne (nonempty_of_trimmed hp))
    rw [hk, hke] at hread
    rw [clockOffset_of_parse hp, clockOffset_of_parse hpa]
    constructor
    · intro hmeans
      exact hread.unique hmeans (clockOffset_range _) (clock_lt_day (parseClock_range hp))
    · rintro ⟨hs, hst⟩
      rwa [hs, hst] at hread

namespace Small

/-- Only UTC is known, and no cron expression. -/
def calendar : Calendar where
  location zone := if zone = "UTC" then some { offset := fun _ => 0, instant := fun reading => reading } else none
  cron _ := none
  cron_next := by simp

def policy (windowStart windowEnd : String) : ReusableScanPolicy where
  id := "policy"
  executionMode := .scanExecutionLocal
  workerSiteID := ""
  name := "policy"
  scopePolicyID := ""
  ports := [443]
  enabled := true
  scheduleKind := .manual
  scheduleExpression := ""
  scheduleTimezone := "UTC"
  windowStart := windowStart
  windowEnd := windowEnd
  runMissed := false
  rateLimitPerSecond := 0
  nextRunAt := none
  lastScheduledAt := none

theorem fixed_utc : Fixed { offset := fun _ => 0, instant := fun reading => reading } 0 where
  offset_eq _ := rfl
  instant_eq reading := (sub_zero reading).symm

end Small

open Small

/-- A window over midnight. -/
theorem window_meaning_overnight :
    prepare calendar id (policy "22:00" "06:00") 0 .zero = .ok (policy "22:00" "06:00") ∧
    Means calendar (policy "22:00" "06:00") 0 (22 * hour + 0 * minute) (6 * hour + 0 * minute) :=
  have hprepare : prepare calendar id (policy "22:00" "06:00") 0 .zero = .ok (policy "22:00" "06:00") := by
    decide +kernel
  ⟨hprepare, ((window_meaning_iff calendar id _ _ 0 .zero hprepare _ 0 rfl fixed_utc).2 22 0 6 0 (by decide +kernel)
    (by decide +kernel)).mpr (by decide +kernel)⟩

/-- With a space before the start, the window opens at midnight; with a blank
start and end, it is the whole day but has an end. -/
theorem window_opens_early :
    prepare calendar id (policy " 09:00" "17:00") 0 .zero = .ok (policy " 09:00" "17:00") ∧
    windowNs calendar (policy " 09:00" "17:00") (8 * hour) = some (true, some (17 * hour)) ∧
    prepare calendar id (policy " " "") 0 .zero = .ok (policy " " "") ∧
    windowNs calendar (policy " " "") (8 * hour) = some (true, some (24 * hour)) := by
  decide +kernel

end Mossward.L6.MaintenanceWindow
