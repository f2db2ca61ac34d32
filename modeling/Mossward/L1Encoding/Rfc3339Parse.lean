import Mossward.L1Encoding.Rfc3339

/-!
# Reading RFC 3339 texts

`time.Parse(time.RFC3339Nano, …)` and `Time.UnmarshalJSON` both read a text
with Go's `parseRFC3339`: fixed-width fields with their ranges, a fraction of
any length of which nine digits count, and a zone. What `time.Parse` tries when
that fails (one-digit hours, a comma before the fraction) is left out; no text
that the program writes needs it.

Results: `daysFromDate_date`, `parseTime_formatTime`.
-/
namespace Mossward.L1.Rfc3339

open Decimal L1.Civil List Option

/-! ## Numbers -/

def digitValue (c : Char) : Option Nat :=
  if c.isDigit then some (c.toNat - '0'.toNat) else none

/-- The decimal number `s`, after the digits of `x`. -/
def number : Nat → List Char → Option Nat
  | x, [] => some x
  | x, c :: s => (digitValue c).bind fun d => number (x * 10 + d) s

/-- `parseUint` of the next `w` characters, and the rest. -/
def field (w lo hi : Nat) (s : List Char) : Option (Nat × List Char) :=
  if s.length < w then none
  else (number 0 (s.take w)).bind fun x => if lo ≤ x ∧ x ≤ hi then some (x, s.drop w) else none

def separator (c : Char) : List Char → Option (List Char)
  | d :: s => if d = c then some s else none
  | [] => none

theorem digitValue_digitChar {d : Nat} (h : d < 10) : digitValue (Nat.digitChar d) = some d := by
  have key : ∀ i : Fin 10, digitValue (Nat.digitChar i.val) = some i.val := by decide
  exact key ⟨d, h⟩

theorem number_digits (w x n : Nat) : number x (digits w n) = some (x * 10 ^ w + n % 10 ^ w) := by
  induction w generalizing x with
  | zero => simp [digits, number, Nat.mod_one]
  | succ w ih =>
    rw [digits, number, digitValue_digitChar (Nat.mod_lt _ (by decide)), bind_some, ih, mod_succ]
    congr 1
    ring

theorem number_zeros (x : Nat) (s : List Char) (k : Nat) :
    number x (s ++ replicate k '0') = (number x s).map (· * 10 ^ k) := by
  induction s generalizing x with
  | nil =>
    induction k generalizing x with
    | zero => simp [number]
    | succ k ih =>
      have hz : digitValue '0' = some 0 := by decide
      simp only [nil_append] at ih
      simp only [nil_append, replicate_succ, number, hz, bind_some, ih, map_some]
      congr 1
      ring
  | cons c s ih =>
    rw [cons_append, number, number]
    cases digitValue c with
    | none => rfl
    | some d => exact ih _

theorem field_digits {w lo hi n : Nat} (hlo : lo ≤ n) (hh : n ≤ hi) (hw : n < 10 ^ w) (s : List Char) :
    field w lo hi (digits w n ++ s) = some (n, s) := by
  have hl : (digits w n).length = w := digits_length w n
  have ht : (digits w n ++ s).take w = digits w n := take_left' hl
  unfold field
  rw [ht, number_digits, Nat.mod_eq_of_lt hw]
  simp [hlo, hh]

/-! ## The fraction -/

/-- `parseNanoseconds` of the digits after the dot: the first nine count. -/
def nanoseconds (s : List Char) : Nat :=
  ((number 0 (s.take 9)).getD 0) * 10 ^ (9 - (s.take 9).length)

def parseFraction : List Char → Nat × List Char
  | '.' :: c :: s =>
    if c.isDigit then (nanoseconds ((c :: s).takeWhile Char.isDigit), (c :: s).dropWhile Char.isDigit)
    else (0, '.' :: c :: s)
  | s => (0, s)

theorem nanoseconds_trimZeros {ns : Nat} (h : ns < 10 ^ 9) : nanoseconds (trimZeros (digits 9 ns)) = ns := by
  obtain ⟨k, hk⟩ := trimZeros_append_zeros (digits 9 ns)
  have hl : (trimZeros (digits 9 ns)).length + k = 9 := by
    have := congrArg length hk
    rw [length_append, length_replicate] at this
    exact this.symm
  have hn := number_zeros 0 (trimZeros (digits 9 ns)) k
  rw [← hk, number_digits, Nat.zero_mul, Nat.zero_add, Nat.mod_eq_of_lt h] at hn
  obtain ⟨x, hx, hxk⟩ := map_eq_some_iff.mp hn.symm
  unfold nanoseconds
  rw [take_of_length_le (by omega), hx, show 9 - (trimZeros (digits 9 ns)).length = k by omega]
  exact hxk

theorem parseFraction_fraction {ns : Nat} (h : ns < 10 ^ 9) :
    parseFraction (fraction ns ++ ['Z']) = (ns, ['Z']) := by
  have hn := nanoseconds_trimZeros h
  have ha : ∀ c ∈ trimZeros (digits 9 ns), c.isDigit := by
    intro c hc
    obtain ⟨k, hk⟩ := trimZeros_append_zeros (digits 9 ns)
    have hr := digits_range 9 ns c (hk ▸ mem_append_left _ hc)
    rw [Char.isDigit, Bool.and_eq_true, decide_eq_true_eq, decide_eq_true_eq]
    exact hr
  unfold fraction
  cases ht : trimZeros (digits 9 ns) with
  | nil =>
    rw [ht] at hn
    rw [← hn]
    rfl
  | cons c cs =>
    rw [ht] at hn ha
    have hZ : 'Z'.isDigit = false := by decide
    have hta : (c :: cs ++ ['Z']).takeWhile Char.isDigit = c :: cs := by
      rw [takeWhile_append_of_pos ha]
      simp [hZ]
    have hd : (c :: cs ++ ['Z']).dropWhile Char.isDigit = ['Z'] := by
      rw [dropWhile_append_of_pos ha]
      simp [hZ]
    change (if c.isDigit then (nanoseconds ((c :: cs ++ ['Z']).takeWhile Char.isDigit),
      (c :: cs ++ ['Z']).dropWhile Char.isDigit) else _) = _
    rw [if_pos (ha c mem_cons_self), hta, hd, hn]

/-! ## Dates -/

/-- `daysIn`. -/
def daysIn (month : Nat) (y : Int) : Nat := (monthLengths (isLeap y)).getD (month - 1) 0

/-- The day number of a date. -/
def daysFromDate (y : Int) (month day : Nat) : Int :=
  daysBeforeYear y + ((monthLengths (isLeap y)).take (month - 1)).sum + (day - 1 : Nat)

theorem monthDay_spec (m : Nat) (ls : List Nat) {r : Nat} (hr : r < ls.sum) :
    ∃ i < ls.length, (monthDay m ls r).1 = m + i ∧ 1 ≤ (monthDay m ls r).2 ∧
      (monthDay m ls r).2 ≤ ls.getD i 0 ∧ (ls.take i).sum + ((monthDay m ls r).2 - 1) = r := by
  induction ls generalizing m r with
  | nil => simp at hr
  | cons l ls ih =>
    unfold monthDay
    split
    · rename_i hl
      simpa using hl
    rw [sum_cons] at hr
    obtain ⟨i, hi, hm, hp, hle, hs⟩ := ih (m + 1) (r := r - l) (by omega)
    refine ⟨i + 1, by simpa using hi, by omega, hp, by simpa using hle, ?_⟩
    rw [take_succ_cons, sum_cons]
    omega

/-- **Result.** The date of a day is a valid one, and its day number is the
day. -/
theorem daysFromDate_date (d : Int) : 1 ≤ (date d).2.1 ∧ (date d).2.1 ≤ 12 ∧ 1 ≤ (date d).2.2 ∧
      (date d).2.2 ≤ daysIn (date d).2.1 (date d).1 ∧
      daysFromDate (date d).1 (date d).2.1 (date d).2.2 = d := by
  obtain ⟨i, hi, hm, hp, hle, hs⟩ := monthDay_spec 1 (monthLengths (isLeap (yearOf d))) (yearDay_lt d)
  have hl : (monthLengths (isLeap (yearOf d))).length = 12 := rfl
  have hd := yearDay_eq d
  simp only [date, daysIn, daysFromDate]
  rw [hm, Nat.add_sub_cancel_left]
  omega

/-! ## Whole texts -/

/-- Seconds east of UTC. -/
def parseZone (s : List Char) : Option Int :=
  match s with
  | ['Z'] => some 0
  | sign :: rest => do
    let (hr, rest) ← field 2 0 23 rest
    let rest ← separator ':' rest
    let (mm, rest) ← field 2 0 59 rest
    if rest ≠ [] then none
    else if sign = '+' then some ((hr * 60 + mm) * 60)
    else if sign = '-' then some (-((hr * 60 + mm) * 60))
    else none
  | [] => none

/-- The date and time up to the seconds, and the rest. -/
def parseStamp (s : List Char) : Option (Int × List Char) := do
  let (y, s) ← field 4 0 9999 s
  let s ← separator '-' s
  let (month, s) ← field 2 1 12 s
  let s ← separator '-' s
  let (day, s) ← field 2 1 (daysIn month y) s
  let s ← separator 'T' s
  let (hr, s) ← field 2 0 23 s
  let s ← separator ':' s
  let (mi, s) ← field 2 0 59 s
  let s ← separator ':' s
  let (sec, s) ← field 2 0 59 s
  return (daysFromDate y month day * 86400 + (hr * 3600 + mi * 60 + sec : Nat), s)

/-- `parseRFC3339`. The zone of the result is not kept. -/
def parseTime (s : String) : Option Time := do
  let (seconds, rest) ← parseStamp s.toList
  let (nsec, rest) := parseFraction rest
  let zone ← parseZone rest
  Time.ofNs ((seconds - zone) * 1000000000 + nsec)

theorem separator_cons (c : Char) (s : List Char) : separator c (c :: s) = some s := by
  simp [separator]

theorem parseStamp_stamp {s : Int} (hs : 0 ≤ (date (s / 86400)).1 ∧ (date (s / 86400)).1 ≤ 9999)
    (rest : List Char) : parseStamp (stamp s ++ rest) = some (s, rest) := by
  obtain ⟨hm1, hm12, hd1, hd, hda⟩ := daysFromDate_date (s / 86400)
  have hb := date_bounds (s / 86400)
  have ht : (s % 86400).toNat < 86400 := by omega
  have hy : ((date (s / 86400)).1.toNat : Int) = (date (s / 86400)).1 := by omega
  rw [← hy] at hd hda
  simp only [stamp]
  rw [appendInt_eq_digits hs.1 hs.2]
  obtain ⟨p, hp⟩ : ∃ p, p = (s % 86400).toNat := ⟨_, rfl⟩
  simp only [append_assoc, cons_append]
  unfold parseStamp
  rw [field_digits (Nat.zero_le _) (by omega) (by norm_num; omega)]
  simp only [bind_eq_bind, bind_some, separator_cons]
  rw [field_digits hm1 hm12 (by norm_num; omega)]
  simp only [bind_some, separator_cons]
  rw [field_digits hd1 hd (by norm_num; omega)]
  simp only [bind_some, separator_cons]
  rw [field_digits (Nat.zero_le _) (by omega) (by norm_num; omega)]
  simp only [bind_some, separator_cons]
  rw [field_digits (Nat.zero_le _) (by omega) (by norm_num; omega)]
  simp only [bind_some, separator_cons]
  rw [field_digits (Nat.zero_le _) (by omega) (by norm_num; omega)]
  simp only [bind_some]
  congr 2
  omega

/-- **Result.** A time the server handles is read back as it was written. -/
theorem parseTime_formatTime (t : Time) : parseTime (formatTime t.ns) = some t := by
  unfold parseTime formatTime
  simp only [String.toList_ofList]
  rw [parseStamp_stamp t.inRange]
  simp only [bind_eq_bind, bind_some]
  rw [parseFraction_fraction (nanosecond_lt t.ns)]
  have hn : (unixSeconds t.ns - 0) * 1000000000 + (nanosecond t.ns : Int) = t.ns := by
    unfold unixSeconds nanosecond
    omega
  simp only [parseZone, bind_some]
  rw [hn, Time.ofNs, dif_pos t.inRange]

end Mossward.L1.Rfc3339
