import Mathlib.Tactic

/-!
# The proleptic Gregorian calendar

`time.Time` in the source is an instant; everything it prints goes through the
civil date and clock of that instant in UTC. Days are counted from
0001-01-01, the day of Go's zero time.

Results: `yearOf_spec`, `date_lt`.
-/
namespace Mossward.L1.Civil

/-- Days of all the years before year `y`. -/
def daysBeforeYear (y : Int) : Int :=
  365 * (y - 1) + (y - 1) / 4 - (y - 1) / 100 + (y - 1) / 400

def isLeap (y : Int) : Bool :=
  y % 4 = 0 ∧ (y % 100 ≠ 0 ∨ y % 400 = 0)

/-- The year that day `d` lies in, by whole cycles of 400, 100, 4 and 1 years.
The last day of a leap cycle belongs to the cycle's last year, hence `min`. -/
def yearOf (d : Int) : Int :=
  let r400 := d % 146097
  let n100 := min (r400 / 36524) 3
  let r100 := r400 - n100 * 36524
  let n4 := r100 / 1461
  let n1 := min (r100 % 1461 / 365) 3
  400 * (d / 146097) + 100 * n100 + 4 * n4 + n1 + 1

/-- Day of the year, from 0. -/
def yearDay (d : Int) : Nat :=
  (d - daysBeforeYear (yearOf d)).toNat

def monthLengths (leap : Bool) : List Nat :=
  [31, if leap then 29 else 28, 31, 30, 31, 30, 31, 31, 30, 31, 30, 31]

/-- Month and day of the month of the `r`-th day after the start of month `m`. -/
def monthDay : Nat → List Nat → Nat → Nat × Nat
  | m, [], r => (m, r + 1)
  | m, l :: ls, r => if r < l then (m, r + 1) else monthDay (m + 1) ls (r - l)

/-- `Time.Date` in UTC. -/
def date (d : Int) : Int × Nat × Nat :=
  (yearOf d, monthDay 1 (monthLengths (isLeap (yearOf d))) (yearDay d))

/-! ## The year of a day -/

theorem daysBeforeYear_mono {y z : Int} (h : y < z) : daysBeforeYear y + 365 ≤ daysBeforeYear z := by
  unfold daysBeforeYear
  omega

theorem daysBeforeYear_succ (y : Int) :
    daysBeforeYear (y + 1) = daysBeforeYear y + 365 + if isLeap y then 1 else 0 := by
  simp only [daysBeforeYear, isLeap, decide_eq_true_eq]
  split <;> omega

/-- **Result.** Day `d` lies in year `yearOf d`. -/
theorem yearOf_spec (d : Int) : daysBeforeYear (yearOf d) ≤ d ∧ d < daysBeforeYear (yearOf d + 1) := by
  have h400 := Int.emod_nonneg d (show (146097 : Int) ≠ 0 by decide)
  have h400' := Int.emod_lt_of_pos d (show (0 : Int) < 146097 by decide)
  have hd := Int.mul_ediv_add_emod d 146097
  simp only [yearOf]
  generalize d / 146097 = a at *
  generalize d % 146097 = r at *
  obtain ⟨b, hb⟩ : ∃ b, b = min (r / 36524) 3 := ⟨_, rfl⟩
  rw [← hb]
  have hb1 : 0 ≤ b ∧ b ≤ 3 ∧ b * 36524 ≤ r ∧ (r < (b + 1) * 36524 ∨ b = 3) := by omega
  obtain ⟨q, hq⟩ : ∃ q, q = r - b * 36524 := ⟨_, rfl⟩
  rw [← hq]
  obtain ⟨c, hc⟩ : ∃ c, c = q / 1461 := ⟨_, rfl⟩
  rw [← hc]
  obtain ⟨e, he⟩ : ∃ e, e = min (q % 1461 / 365) 3 := ⟨_, rfl⟩
  rw [← he]
  have hc1 : 0 ≤ c ∧ c ≤ 24 ∧ c * 1461 ≤ q := by omega
  have he1 : 0 ≤ e ∧ e ≤ 3 ∧ c * 1461 + e * 365 ≤ q ∧ (q < c * 1461 + (e + 1) * 365 ∨ e = 3) := by omega
  have hq1 : q < (c + 1) * 1461 := by omega
  have hy4 : (400 * a + 100 * b + 4 * c + e + 1 - 1) / 4 = 100 * a + 25 * b + c := by omega
  have hy100 : (400 * a + 100 * b + 4 * c + e + 1 - 1) / 100 = 4 * a + b := by omega
  have hy400 : (400 * a + 100 * b + 4 * c + e + 1 - 1) / 400 = a := by omega
  have hz4 : (400 * a + 100 * b + 4 * c + e + 1 + 1 - 1) / 4 =
      100 * a + 25 * b + c + if e = 3 then 1 else 0 := by split <;> omega
  have hz100 : (400 * a + 100 * b + 4 * c + e + 1 + 1 - 1) / 100 =
      4 * a + b + if e = 3 ∧ c = 24 then 1 else 0 := by split <;> omega
  have hz400 : (400 * a + 100 * b + 4 * c + e + 1 + 1 - 1) / 400 =
      a + if e = 3 ∧ c = 24 ∧ b = 3 then 1 else 0 := by split <;> omega
  rw [daysBeforeYear, daysBeforeYear, hy4, hy100, hy400, hz4, hz100, hz400]
  constructor
  · omega
  · split <;> split <;> split <;> omega

theorem yearDay_eq (d : Int) : d = daysBeforeYear (yearOf d) + yearDay d := by
  have := (yearOf_spec d).1
  unfold yearDay
  omega

theorem yearOf_mono {d e : Int} (h : d < e) :
    yearOf d < yearOf e ∨ yearOf d = yearOf e ∧ yearDay d < yearDay e := by
  have hd := yearOf_spec d
  have he := yearOf_spec e
  rcases lt_trichotomy (yearOf d) (yearOf e) with hl | heq | hgt
  · exact .inl hl
  · refine .inr ⟨heq, ?_⟩
    have h1 := yearDay_eq d
    have h2 := yearDay_eq e
    rw [heq] at h1
    omega
  · exfalso
    rcases lt_or_eq_of_le (show yearOf e + 1 ≤ yearOf d from hgt) with hg | hg
    · have := daysBeforeYear_mono hg
      omega
    · rw [hg] at he
      omega

/-! ## Month and day -/

theorem monthDay_ge (m : Nat) (ls : List Nat) (r : Nat) : m ≤ (monthDay m ls r).1 := by
  induction ls generalizing m r with
  | nil => exact le_refl _
  | cons l ls ih =>
    simp only [monthDay]
    split
    · exact le_refl _
    · exact (Nat.le_succ m).trans (ih (m + 1) (r - l))

theorem monthDay_lt (m : Nat) (ls : List Nat) {r s : Nat} (h : r < s) :
    (monthDay m ls r).1 < (monthDay m ls s).1 ∨
      (monthDay m ls r).1 = (monthDay m ls s).1 ∧ (monthDay m ls r).2 < (monthDay m ls s).2 := by
  induction ls generalizing m r s with
  | nil => exact .inr ⟨rfl, by simp only [monthDay]; omega⟩
  | cons l ls ih =>
    simp only [monthDay]
    by_cases hr : r < l
    · rw [if_pos hr]
      by_cases hs : s < l
      · rw [if_pos hs]
        exact .inr ⟨rfl, by simp only; omega⟩
      · rw [if_neg hs]
        exact .inl (monthDay_ge (m + 1) ls (s - l))
    · rw [if_neg hr, if_neg (by omega)]
      exact ih (m + 1) (by omega)

theorem monthDay_le (m : Nat) (ls : List Nat) {r b : Nat} (hr : r < ls.sum) (hb : ∀ l ∈ ls, l ≤ b) :
    (monthDay m ls r).1 < m + ls.length ∧ (monthDay m ls r).2 ≤ b := by
  induction ls generalizing m r with
  | nil => simp at hr
  | cons l ls ih =>
    simp only [monthDay, List.length_cons]
    split
    · rename_i h
      have := hb l (by simp)
      exact ⟨by simp only; omega, by simp only; omega⟩
    rename_i h
    rw [List.sum_cons] at hr
    have := ih (m + 1) (r := r - l) (by omega) (fun x hx => hb x (by simp [hx]))
    exact ⟨by omega, this.2⟩

theorem yearDay_lt (d : Int) : yearDay d < (monthLengths (isLeap (yearOf d))).sum := by
  have h := (yearOf_spec d).2
  have he := yearDay_eq d
  rw [daysBeforeYear_succ] at h
  cases hl : isLeap (yearOf d) with
  | true => rw [hl, if_pos rfl] at h; simp [monthLengths]; omega
  | false => rw [hl, if_neg (by decide)] at h; simp [monthLengths]; omega

theorem date_bounds (d : Int) : (date d).2.1 < 100 ∧ (date d).2.2 < 100 := by
  have hle : ∀ leap : Bool, ∀ l ∈ monthLengths leap, l ≤ 31 := by decide
  have h := monthDay_le 1 _ (yearDay_lt d) (hle _)
  have hl : (monthLengths (isLeap (yearOf d))).length = 12 := rfl
  rw [hl] at h
  exact ⟨by simp only [date]; omega, by simp only [date]; omega⟩

/-- **Result.** A later day has a lexicographically later date. -/
theorem date_lt {d e : Int} (h : d < e) : (date d).1 < (date e).1 ∨ (date d).1 = (date e).1 ∧
      ((date d).2.1 < (date e).2.1 ∨ (date d).2.1 = (date e).2.1 ∧ (date d).2.2 < (date e).2.2) := by
  rcases yearOf_mono h with hy | ⟨hy, hyd⟩
  · exact .inl hy
  · refine .inr ⟨hy, ?_⟩
    simp only [date, hy]
    exact monthDay_lt 1 _ hyd

example : date 739570 = (2025, 11, 16) := by decide

end Mossward.L1.Civil
