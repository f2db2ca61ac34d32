import Mossward.L1Encoding.Rfc3339Parse
import Mossward.L5Concurrency.ScanActors

/-!
# Schedules and maintenance windows

When a scan policy runs next, and whether a moment lies in its maintenance
window. `internal/scheduling/schedule.go`. A `Calendar` is what the libraries
for time zones and cron expressions offer. A cron schedule gives a later time,
or the zero time when it finds no occurrence within five years. Wall clock
readings are counted in nanoseconds like times.

Result: `next_later`.
-/
namespace Mossward.L6.Schedule

open Table L1.Names L1.Rfc3339 Model L5.ScanActors

/-! ## Policies -/

inductive ScheduleKind
  | manual | once | daily | weekly | cron
  | other (text : String)
deriving DecidableEq

/-- What the scheduler reads of a `ReusableScanPolicy`, next to what a launch
reads. -/
structure ReusableScanPolicy extends Policy where
  name : String
  scopePolicyID : String
  ports : List Int
  enabled : Bool
  scheduleKind : ScheduleKind
  scheduleExpression : String
  scheduleTimezone : String
  windowStart : String
  windowEnd : String
  runMissed : Bool
  rateLimitPerSecond : Int
  nextRunAt : Option Time
  lastScheduledAt : Option Time
deriving DecidableEq

/-! ## Zones and cron expressions -/

structure Location where
  /-- nanoseconds east of UTC at a moment -/
  offset : Int → Int
  /-- `time.Date`: the moment of a reading of the wall clock -/
  instant : Int → Int

def Location.wall (l : Location) (t : Int) : Int := t + l.offset t

/-- `AddDate(0, 0, n)`. -/
def Location.addDays (l : Location) (t : Int) (n : Int) : Int := l.instant (l.wall t + n * (24 * hour))

structure Calendar where
  /-- `time.LoadLocation` -/
  location : String → Option Location
  /-- `cron.ParseStandard`, and `Next` of the schedule it returns -/
  cron : String → Option (Location → Time → Time)
  cron_next : ∀ expression next, cron expression = some next →
    ∀ l t, next l t = Time.zero ∨ t < next l t

/-! ## Clock times -/

/-- `strconv.Atoi`. -/
def atoi (s : List Char) : Option Int :=
  let (sign, digits) : Int × List Char :=
    match s with
    | '+' :: ds => (1, ds)
    | '-' :: ds => (-1, ds)
    | ds => (1, ds)
  if digits = [] then none
  else
    (number 0 digits).bind fun n =>
      let value := sign * n
      if -(2 ^ 63) ≤ value ∧ value < 2 ^ 63 then some value else none

/-- Mirrors `parseClock`, `internal/scheduling/schedule.go:104-115`. -/
def parseClock (value : String) : Except String (Int × Int) :=
  match value.toList.splitOn ':' with
  | [h, m] =>
    match atoi h, atoi m with
    | some hr, some min =>
      if hr < 0 || 23 < hr || min < 0 || 59 < min then .error "time must use HH:MM" else .ok (hr, min)
    | _, _ => .error "time must use HH:MM"
  | _ => .error "time must use HH:MM"

/-! ## The next run -/

def cronNext (C : Calendar) (expression : String) (after : Time) (l : Location) : Except String Time :=
  match C.cron expression with
  | none => .error "invalid schedule expression"
  | some next => .ok (next l after)

/-- Mirrors `Next`, `internal/scheduling/schedule.go:45-79`. -/
def next (C : Calendar) (policy : ReusableScanPolicy) (after : Time) (l : Location) : Except String Time :=
  let expression := trimSpace policy.scheduleExpression.toList
  match policy.scheduleKind with
  | .once =>
    match parseTime (String.ofList expression) with
    | some value =>
      if after < value then .ok value else .error "one-time schedule must be a future RFC3339 timestamp"
    | none => .error "one-time schedule must be a future RFC3339 timestamp"
  | .daily => do
    let (hr, min) ← parseClock (String.ofList expression)
    cronNext C (toString min ++ " " ++ toString hr ++ " * * *") after l
  | .weekly =>
    match fields expression with
    | [days, clock] => do
      let (hr, min) ← parseClock (String.ofList clock)
      cronNext C (toString min ++ " " ++ toString hr ++ " * * " ++ String.ofList days) after l
    | _ => .error "weekly schedule must use 'days HH:MM'"
  | .cron => cronNext C (String.ofList expression) after l
  | .manual | .other _ => .error "schedule kind must be manual, once, daily, weekly, or cron"

theorem cronNext_later {C : Calendar} {expr : String} {after t : Time} {l : Location}
    (h : cronNext C expr after l = .ok t) : t = Time.zero ∨ after < t := by
  unfold cronNext at h
  split at h
  · cases h
  · rename_i next hn
    cases h
    exact C.cron_next expr next hn l after

/-- **Result.** A next run lies in the future, or is the zero time. -/
theorem next_later {C : Calendar} {pol : ReusableScanPolicy} {after t : Time} {l : Location}
    (h : next C pol after l = .ok t) : t = Time.zero ∨ after < t := by
  dsimp only [next] at h
  split at h
  · split at h
    · split at h
      · rename_i value _ hl
        cases h
        exact .inr hl
      · cases h
    · cases h
  · obtain ⟨_, -, h⟩ := bind_eq_ok.mp h
    exact cronNext_later h
  · split at h
    · obtain ⟨_, -, h⟩ := bind_eq_ok.mp h
      exact cronNext_later h
    · cases h
  · exact cronNext_later h
  · cases h
  · cases h

/-! ## The window -/

/-- The clock time of a text; midnight for a text that is none. -/
def clockOffset (value : String) : Int :=
  match parseClock value with
  | .ok (hr, min) => hr * hour + min * minute
  | .error _ => 0

/-- Start and end of the window around a moment: over midnight, the window
that began yesterday or the one that ends tomorrow. -/
def windowBounds (l : Location) (policy : ReusableScanPolicy) (now : Int) : Int × Int :=
  let midnight := l.wall now / (24 * hour) * (24 * hour)
  let start := l.instant (midnight + clockOffset policy.windowStart)
  let stop := l.instant (midnight + clockOffset policy.windowEnd)
  if stop ≤ start then
    if now < stop then (l.addDays start (-1), stop) else (start, l.addDays stop 1)
  else (start, stop)

/-- Mirrors `Window`, `internal/scheduling/schedule.go:80-103`; also `none` when
the end lies beyond year 9999. -/
def window (C : Calendar) (policy : ReusableScanPolicy) (now : Time) : Option (Bool × Option Time) :=
  match C.location policy.scheduleTimezone with
  | none => none
  | some l =>
    if policy.windowStart = "" then some (true, none)
    else
      let (start, stop) := windowBounds l policy now.ns
      (Time.ofNs stop).map fun windowEnd => (start ≤ now.ns && now.ns < stop, some windowEnd)

end Mossward.L6.Schedule
