import Mossward.Core.Decimal
import Mossward.L1Encoding.Civil

/-!
# Stored times: RFC 3339 text with a trimmed fraction

The SQLite store keeps every time as the text `formatTime` prints and compares
those texts byte by byte. The layout `time.RFC3339Nano` drops the trailing zeros
of the fraction, and the terminator `Z` sorts after every digit and after the
dot: among the instants of one second, a text that is cut short comes after its
longer continuations.

Results:
* `formatTime_lt_iff`: the texts of two instants are in the order of the
  instants unless the earlier one is the later one cut off after some digit.
* `formatTime_injective`, `formatTime_order_iff`, `formatTime_order_failure`.
-/
namespace Mossward.L1.Rfc3339

open Decimal L1.Civil List

/-! An instant is an `Int`: nanoseconds since 0001-01-01T00:00:00Z, the
instant of Go's zero `time.Time`. Durations are nanoseconds too. -/

def second : Int := 1000000000
def minute : Int := 60 * second
def hour : Int := 60 * minute

/-- Whole seconds since the epoch, rounded down. -/
def unixSeconds (t : Int) : Int := t / 1000000000
def nanosecond (t : Int) : Nat := (t % 1000000000).toNat

/-- `Time.Year` in UTC. -/
def year (t : Int) : Int := yearOf (unixSeconds t / 86400)

/-- Go's `appendInt`: a sign, then at least `w` digits. -/
def appendInt (x : Int) (w : Nat) : List Char :=
  (if x < 0 then ['-'] else []) ++
    if x.natAbs < 10 ^ w then digits w x.natAbs else Nat.toDigits 10 x.natAbs

/-- `2006-01-02T15:04:05`, the part of the layout before the fraction. -/
def stamp (s : Int) : List Char :=
  let d := date (s / 86400)
  let tod := (s % 86400).toNat
  appendInt d.1 4 ++ '-' :: (digits 2 d.2.1 ++ '-' :: (digits 2 d.2.2 ++ 'T' ::
    (digits 2 (tod / 3600) ++ ':' :: (digits 2 (tod % 3600 / 60) ++ ':' :: digits 2 (tod % 60)))))

/-- `.999999999` of the layout: trailing zeros go, and the dot with them when
nothing is left. -/
def fraction (ns : Nat) : List Char :=
  match trimZeros (digits 9 ns) with
  | [] => []
  | c :: cs => '.' :: c :: cs

/-- `value.UTC().Format(time.RFC3339Nano)`; mirrors
`internal/store/sqlite.go:1038-1040`. -/
def formatTime (value : Int) : String :=
  String.ofList (stamp (unixSeconds value) ++ (fraction (nanosecond value) ++ ['Z']))

example : formatTime (739570 * 24 * hour + 3661 * second + 50000000) = "2025-11-16T01:01:01.05Z" := by
  decide +kernel

/-- The years the layout prints with four digits and `parseTime` reads back. -/
def YearInRange (t : Int) : Prop := 0 ≤ year t ∧ year t ≤ 9999

instance (t : Int) : Decidable (YearInRange t) := inferInstanceAs (Decidable (_ ∧ _))

/-! ## Whole seconds -/

theorem appendInt_eq_digits {x : Int} (h0 : 0 ≤ x) (h1 : x ≤ 9999) : appendInt x 4 = digits 4 x.toNat := by
  have hn : x.natAbs = x.toNat := by omega
  rw [appendInt, if_neg (by omega), hn, if_pos (by norm_num; omega), nil_append]

section
variable {s : Int} (hs : 0 ≤ (date (s / 86400)).1 ∧ (date (s / 86400)).1 ≤ 9999)
include hs

theorem stamp_lt {t : Int} (ht : 0 ≤ (date (t / 86400)).1 ∧ (date (t / 86400)).1 ≤ 9999) (h : s < t) :
    stamp s < stamp t := by
  simp only [stamp]
  rw [appendInt_eq_digits hs.1 hs.2, appendInt_eq_digits ht.1 ht.2]
  have hb := date_bounds (t / 86400)
  have hc : s / 86400 < t / 86400 ∨ s / 86400 = t / 86400 ∧ s % 86400 < t % 86400 := by omega
  rcases hc with hda | ⟨hda, hto⟩
  · -- a later day: decided among year, month and day
    have hd := date_lt hda
    refine field_lt (by norm_num; omega) ?_
    rcases hd with hy | ⟨hy, hmd⟩
    · exact .inl (by omega)
    refine .inr ⟨by rw [hy], cons_lt_cons_iff.mpr (.inr ⟨rfl, field_lt (by norm_num; omega) ?_⟩)⟩
    rcases hmd with hm | ⟨hm, hdd⟩
    · exact .inl hm
    exact .inr ⟨hm, cons_lt_cons_iff.mpr (.inr ⟨rfl, field_lt (by norm_num; omega) (.inl hdd)⟩)⟩
  -- the same day: decided among hour, minute and second
  rw [hda]
  obtain ⟨p, hp⟩ : ∃ p, p = (s % 86400).toNat := ⟨_, rfl⟩
  obtain ⟨q, hq⟩ : ∃ q, q = (t % 86400).toNat := ⟨_, rfl⟩
  rw [← hp, ← hq]
  refine append_left_lt (cons_lt_cons_iff.mpr (.inr ⟨rfl, ?_⟩))
  refine append_left_lt (cons_lt_cons_iff.mpr (.inr ⟨rfl, ?_⟩))
  refine append_left_lt (cons_lt_cons_iff.mpr (.inr ⟨rfl, field_lt (by norm_num; omega) ?_⟩))
  by_cases hh : p / 3600 < q / 3600
  · exact .inl hh
  refine .inr ⟨by omega, cons_lt_cons_iff.mpr (.inr ⟨rfl, field_lt (by norm_num; omega) ?_⟩)⟩
  by_cases hm : p % 3600 / 60 < q % 3600 / 60
  · exact .inl hm
  exact .inr ⟨by omega, cons_lt_cons_iff.mpr (.inr ⟨rfl, digits_lt_of_lt (by norm_num; omega) (by omega)⟩)⟩

theorem stamp_length : (stamp s).length = 19 := by
  simp [stamp, appendInt_eq_digits hs.1 hs.2]

end

/-! ## Fractions of one second -/

theorem fraction_lt_iff {m n : Nat} (hn : n < 10 ^ 9) (h : m < n) :
    fraction m ++ ['Z'] < fraction n ++ ['Z'] ↔ ¬ trimZeros (digits 9 m) <+: trimZeros (digits 9 n) := by
  have hl := trimZeros_lt_iff (z := 'Z') (by simp) (digits_range 9 m) (digits_range 9 n) (by decide)
    (digits_lt_of_lt hn h)
  have hne : trimZeros (digits 9 n) ≠ [] := by
    rw [Ne, digits_trim_nil_iff]
    omega
  rw [← hl]
  unfold fraction
  cases hy : trimZeros (digits 9 n) with
  | nil => exact absurd hy hne
  | cons d ds =>
    cases hx : trimZeros (digits 9 m) with
    | nil =>
      -- the empty fraction starts with 'Z', above the dot and above any digit
      have hd : ¬ 'Z' < d ∧ 'Z' ≠ d := by
        have hm : d ∈ digits 9 n := by
          obtain ⟨k, hk⟩ := trimZeros_append_zeros (digits 9 n)
          rw [hk, hy]
          simp
        have h9 := (digits_range 9 n d hm).2
        have hZ : '9' < 'Z' := by decide
        exact ⟨not_lt.mpr (h9.trans hZ.le), fun e => absurd hZ (not_lt.mpr (e ▸ h9))⟩
      simp [cons_lt_cons_iff, hd]
    | cons c cs => simp [cons_lt_cons_iff]

theorem fraction_injective {m n : Nat} (hm : m < 10 ^ 9) (hn : n < 10 ^ 9)
    (h : fraction m = fraction n) : m = n := by
  have ht : trimZeros (digits 9 m) = trimZeros (digits 9 n) := by
    unfold fraction at h
    cases hx : trimZeros (digits 9 m) <;> cases hy : trimZeros (digits 9 n) <;> simp_all
  have hd := trimZeros_inj (by simp) ht
  have h1 := (digits_lt_iff 9 m n).not.mp (by rw [hd]; exact lt_irrefl _)
  have h2 := (digits_lt_iff 9 n m).not.mp (by rw [hd]; exact lt_irrefl _)
  omega

/-! ## Whole texts -/

theorem nanosecond_lt (t : Int) : nanosecond t < 10 ^ 9 := by
  unfold nanosecond
  omega

theorem cut_iff (a b : Int) (h : a ≤ b) : (∃ k ≤ 9, a = b - b % 10 ^ k) ↔ unixSeconds a = unixSeconds b ∧
      ∃ k ≤ 9, nanosecond a % 10 ^ 9 = nanosecond b % 10 ^ 9 - nanosecond b % 10 ^ 9 % 10 ^ k := by
  rw [Nat.mod_eq_of_lt (nanosecond_lt a), Nat.mod_eq_of_lt (nanosecond_lt b)]
  unfold unixSeconds nanosecond
  constructor
  · rintro ⟨k, hk, he⟩
    refine ⟨?_, k, hk, ?_⟩
    · interval_cases k <;> norm_num at he <;> omega
    · interval_cases k <;> norm_num at he ⊢ <;> omega
  · rintro ⟨hs, k, hk, he⟩
    exact ⟨k, hk, by interval_cases k <;> norm_num at he ⊢ <;> omega⟩

theorem formatTime_lt_iff {a b : Int} (ha : YearInRange a) (hb : YearInRange b) (h : a < b) :
    formatTime a < formatTime b ↔ ¬ ∃ k ≤ 9, a = b - b % 10 ^ k := by
  rw [cut_iff a b h.le, ← trimZeros_prefix_iff, String.lt_iff_toList_lt]
  simp only [formatTime, String.toList_ofList]
  have hs : unixSeconds a < unixSeconds b ∨ unixSeconds a = unixSeconds b := by
    unfold unixSeconds
    omega
  rcases hs with hl | he
  · have := append_lt_of_lt (fraction (nanosecond a) ++ ['Z']) (fraction (nanosecond b) ++ ['Z'])
      ((stamp_length ha).trans (stamp_length hb).symm) (stamp_lt ha hb hl)
    simp [this, hl.ne]
  have hn : nanosecond a < nanosecond b := by
    unfold unixSeconds at he
    unfold nanosecond
    omega
  rw [he, append_lt_append_left_iff, fraction_lt_iff (nanosecond_lt b) hn]
  simp

/-- **Result.** Distinct instants are stored as distinct texts. -/
theorem formatTime_injective {a b : Int} (ha : YearInRange a) (hb : YearInRange b)
    (h : formatTime a = formatTime b) : a = b := by
  have hl : stamp (unixSeconds a) ++ (fraction (nanosecond a) ++ ['Z']) =
      stamp (unixSeconds b) ++ (fraction (nanosecond b) ++ ['Z']) := by
    have := congrArg String.toList h
    simpa [formatTime] using this
  obtain ⟨hs, hf⟩ := append_inj hl ((stamp_length ha).trans (stamp_length hb).symm)
  have hse : unixSeconds a = unixSeconds b := by
    rcases lt_trichotomy (unixSeconds a) (unixSeconds b) with hlt | he | hg
    · exact absurd hs (stamp_lt ha hb hlt).ne
    · exact he
    · exact absurd hs (stamp_lt hb ha hg).ne'
  have hn := fraction_injective (nanosecond_lt a) (nanosecond_lt b) (append_cancel_right hf)
  unfold unixSeconds at hse
  unfold nanosecond at hn
  omega

/-- **Result.** For instants of the years 0 to 9999, the order of the stored
texts decides `a ≤ b` right exactly when neither instant is the other one cut
off after some digit of its fraction. -/
theorem formatTime_order_iff (a b : Int) (ha : YearInRange a) (hb : YearInRange b) :
    ((formatTime a ≤ formatTime b) ↔ a ≤ b) ↔
      ¬ (a ≠ b ∧ ∃ k ≤ 9, a = b - b % 10 ^ k ∨ b = a - a % 10 ^ k) := by
  have hc : ∀ (x y : Int) (k : Nat), x < y → y ≠ x - x % 10 ^ k := by
    omega
  rcases lt_trichotomy a b with hl | rfl | hg
  · have hn : formatTime a ≠ formatTime b := fun he => hl.ne (formatTime_injective ha hb he)
    have hi := formatTime_lt_iff ha hb hl
    rw [le_iff_lt_or_eq, or_iff_left hn, hi]
    simp [hl.le, hl.ne, hc a b _ hl]
  · simp
  · have hi := formatTime_lt_iff hb ha hg
    rw [← not_lt, hi]
    simp [not_le.mpr hg, hg.ne', hc b a _ hg]

/-- Midnight of 2025-11-16 and half a second later: neither hypothesis of
`formatTime_order_iff` is empty, and the text order is the wrong one there. -/
theorem formatTime_order_iff_half_second :
    ¬ ((formatTime (739570 * 24 * hour) ≤ formatTime (739570 * 24 * hour + 500000000)) ↔
      739570 * 24 * hour ≤ 739570 * 24 * hour + 500000000) := by
  rw [formatTime_order_iff _ _ (by decide) (by decide), not_not]
  exact ⟨by decide, 9, le_refl _, .inl (by decide)⟩

/-- The whole second is stored as `…00Z` and the later half second as
`…00.5Z`, which sorts before it. -/
theorem formatTime_order_failure :
    YearInRange (739570 * 24 * hour) ∧ YearInRange (739570 * 24 * hour + 500000000) ∧
      739570 * 24 * hour ≤ 739570 * 24 * hour + 500000000 ∧
      ¬ formatTime (739570 * 24 * hour) ≤ formatTime (739570 * 24 * hour + 500000000) := by
  decide +kernel

-- From here on texts are compared through the lemmas above.
attribute [irreducible] formatTime

/-! ## Times the server handles -/

/-- A `time.Time` as it passes through the server: JSON and `parseTime` both
refuse years outside 0 to 9999, so no other value is decoded, stored or read
back. The zone is not kept; every stored time is in UTC. -/
@[ext] structure Time where
  ns : Int
  inRange : YearInRange ns
deriving DecidableEq

instance : LinearOrder Time :=
  LinearOrder.lift' Time.ns fun _ _ => Time.ext

theorem Time.le_def {a b : Time} : a ≤ b ↔ a.ns ≤ b.ns := Iff.rfl
theorem Time.lt_def {a b : Time} : a < b ↔ a.ns < b.ns := Iff.rfl

/-- Go's zero `time.Time`. -/
def Time.zero : Time := ⟨0, by decide⟩

/-- `Time.IsZero`. -/
def Time.isZero (t : Time) : Bool := t.ns = 0

/-- The time at an instant, if its year can be written. -/
def Time.ofNs (ns : Int) : Option Time := if h : YearInRange ns then some ⟨ns, h⟩ else none

/-- What a PostgreSQL `TIMESTAMPTZ` column keeps: whole microseconds. -/
def Time.truncateMicros (t : Time) : Time where
  ns := t.ns - t.ns % 1000
  inRange := by
    have hsec : unixSeconds (t.ns - t.ns % 1000) = unixSeconds t.ns := by
      unfold unixSeconds
      omega
    have := t.inRange
    unfold YearInRange year at this ⊢
    rw [hsec]
    exact this

/-! ## Times as 64-bit numbers -/

/-- 1970-01-01T00:00:00Z. -/
def unixEpoch : Int := 719162 * 24 * hour

/-- `UnixNano`, which wraps around. -/
def unixNano (t : Int) : Int := (t - unixEpoch).bmod (2 ^ 64)

/-- The instant is one that `int64` nanoseconds can express. -/
def Representable (t : Int) : Prop := -2 ^ 63 ≤ t - unixEpoch ∧ t - unixEpoch < 2 ^ 63

instance (t : Int) : Decidable (Representable t) := inferInstanceAs (Decidable (_ ∧ _))

theorem unixNano_eq {t : Int} (h : Representable t) : unixNano t = t - unixEpoch := by
  obtain ⟨hl, hh⟩ := h
  apply Int.bmod_eq_of_le
  · omega
  · omega

theorem unixNano_lt_iff {a b : Int} (ha : Representable a) (hb : Representable b) :
    unixNano a < unixNano b ↔ a < b := by
  rw [unixNano_eq ha, unixNano_eq hb]
  omega

theorem unixNano_le_iff {a b : Int} (ha : Representable a) (hb : Representable b) :
    unixNano a ≤ unixNano b ↔ a ≤ b := by
  rw [unixNano_eq ha, unixNano_eq hb]
  omega

end Mossward.L1.Rfc3339
