import Mathlib.Data.String.Basic
import Mathlib.Data.List.Infix
import Mathlib.Tactic

/-!
# Fixed-width decimal fields and their order as text

A fixed-width field compares as text as its number does. A fraction whose
trailing zeros are dropped is no longer of fixed width: with a terminator above
the digits, the shorter of two fractions that agree comes *after* the longer
one.

Results:
* `digits_lt_iff`: text order of two fields of one width is the order of the
  numbers.
* `append_lt_of_lt`: what follows a smaller field does not matter.
* `trimZeros_lt_iff`, `trimZeros_prefix_iff`.
-/
namespace Mossward.Decimal

open List

/-- The `w` low decimal digits of `n`, most significant first. -/
def digits : Nat → Nat → List Char
  | 0, _ => []
  | w + 1, n => Nat.digitChar (n / 10 ^ w % 10) :: digits w n

@[simp] theorem digits_length (w n : Nat) : (digits w n).length = w := by
  induction w with
  | zero => rfl
  | succ w ih => simp [digits, ih]

variable {a : Nat}

theorem digitChar_lt_iff {b : Nat} (ha : a < 10) (hb : b < 10) :
    Nat.digitChar a < Nat.digitChar b ↔ a < b := by
  have key : ∀ i j : Fin 10, Nat.digitChar i.val < Nat.digitChar j.val ↔ i.val < j.val := by decide
  exact key ⟨a, ha⟩ ⟨b, hb⟩

theorem digitChar_inj {b : Nat} (ha : a < 10) (hb : b < 10)
    (h : Nat.digitChar a = Nat.digitChar b) : a = b := by
  have key : ∀ i j : Fin 10, Nat.digitChar i.val = Nat.digitChar j.val → i.val = j.val := by decide
  exact key ⟨a, ha⟩ ⟨b, hb⟩ h

theorem digitChar_range (ha : a < 10) : '0' ≤ Nat.digitChar a ∧ Nat.digitChar a ≤ '9' := by
  have key : ∀ i : Fin 10, '0' ≤ Nat.digitChar i.val ∧ Nat.digitChar i.val ≤ '9' := by decide
  exact key ⟨a, ha⟩

theorem digits_range (w n : Nat) : ∀ c ∈ digits w n, '0' ≤ c ∧ c ≤ '9' := by
  induction w with
  | zero => simp [digits]
  | succ w ih =>
    intro c hc
    simp only [digits, mem_cons] at hc
    rcases hc with rfl | hc
    · exact digitChar_range (Nat.mod_lt _ (by decide))
    · exact ih c hc

theorem mod_succ (w n : Nat) : n % 10 ^ (w + 1) = n / 10 ^ w % 10 * 10 ^ w + n % 10 ^ w := by
  rw [pow_succ, Nat.mod_mul]
  ring

theorem digits_lt_iff (w a b : Nat) : digits w a < digits w b ↔ a % 10 ^ w < b % 10 ^ w := by
  induction w with
  | zero => simp [digits, Nat.mod_one]
  | succ w ih =>
    have hp : 0 < 10 ^ w := by positivity
    have ha := Nat.mod_lt a hp
    have hb := Nat.mod_lt b hp
    have hda := Nat.mod_lt (a / 10 ^ w) (show 10 > 0 by decide)
    have hdb := Nat.mod_lt (b / 10 ^ w) (show 10 > 0 by decide)
    rw [digits, digits, cons_lt_cons_iff, ih, digitChar_lt_iff hda hdb, mod_succ, mod_succ]
    generalize a / 10 ^ w % 10 = x at *
    generalize b / 10 ^ w % 10 = y at *
    generalize a % 10 ^ w = p at *
    generalize b % 10 ^ w = q at *
    constructor
    · rintro (h | ⟨h, hpq⟩)
      · calc x * 10 ^ w + p < (x + 1) * 10 ^ w := by rw [add_mul]; omega
          _ ≤ y * 10 ^ w := Nat.mul_le_mul_right _ h
          _ ≤ y * 10 ^ w + q := Nat.le_add_right _ _
      · rw [digitChar_inj hda hdb h]; omega
    · intro h
      rcases Nat.lt_trichotomy x y with hlt | rfl | hgt
      · exact .inl hlt
      · exact .inr ⟨rfl, by omega⟩
      · have : y * 10 ^ w + q < x * 10 ^ w + p :=
          calc y * 10 ^ w + q < (y + 1) * 10 ^ w := by rw [add_mul]; omega
            _ ≤ x * 10 ^ w := Nat.mul_le_mul_right _ hgt
            _ ≤ x * 10 ^ w + p := Nat.le_add_right _ _
        omega

theorem digits_lt_of_lt {w b : Nat} (hb : b < 10 ^ w) (h : a < b) : digits w a < digits w b := by
  rw [digits_lt_iff, Nat.mod_eq_of_lt (by omega), Nat.mod_eq_of_lt hb]
  exact h

/-! ## Records of fields -/

theorem append_lt_of_lt {a b : List Char} (x y : List Char) (hl : a.length = b.length) (h : a < b) :
    a ++ x < b ++ y := by
  induction a generalizing b with
  | nil =>
    cases b with
    | nil => exact absurd h (lt_irrefl _)
    | cons c b => simp at hl
  | cons c a ih =>
    cases b with
    | nil => simp at hl
    | cons d b =>
      simp only [cons_append, cons_lt_cons_iff] at h ⊢
      rcases h with h | ⟨rfl, h⟩
      · exact .inl h
      · exact .inr ⟨rfl, ih (by simpa using hl) h⟩

theorem append_lt_append_left_iff (a x y : List Char) : a ++ x < a ++ y ↔ x < y := by
  refine ⟨fun h => ?_, append_left_lt⟩
  rcases lt_trichotomy x y with hl | rfl | hg
  · exact hl
  · exact absurd h (lt_irrefl _)
  · exact absurd h (lt_asymm (append_left_lt hg))

/-- Lexicographic step of a record: a field of width `w`, then the rest. -/
theorem field_lt {w b : Nat} {x y : List Char} (hb : b < 10 ^ w) (h : a < b ∨ a = b ∧ x < y) :
    digits w a ++ x < digits w b ++ y := by
  rcases h with h | ⟨rfl, h⟩
  · exact append_lt_of_lt x y (by simp) (digits_lt_of_lt hb h)
  · exact append_left_lt h

/-! ## Fractions without trailing zeros -/

/-- Drop trailing `'0'` characters. -/
def trimZeros : List Char → List Char
  | [] => []
  | c :: cs => if trimZeros cs = [] ∧ c = '0' then [] else c :: trimZeros cs

theorem trimZeros_eq_nil {l : List Char} (h : trimZeros l = []) : ∀ c ∈ l, c = '0' := by
  induction l with
  | nil => simp
  | cons c cs ih =>
    simp only [trimZeros] at h
    split at h
    · rename_i hc
      intro x hx
      rcases mem_cons.mp hx with rfl | hx
      · exact hc.2
      · exact ih hc.1 x hx
    · cases h

theorem trimZeros_append_zeros (l : List Char) : ∃ k, l = trimZeros l ++ replicate k '0' := by
  induction l with
  | nil => exact ⟨0, rfl⟩
  | cons c cs ih =>
    obtain ⟨k, hk⟩ := ih
    simp only [trimZeros]
    split
    · rename_i h
      rw [h.1] at hk
      exact ⟨k + 1, by rw [hk, h.2]; rfl⟩
    · exact ⟨k, by rw [cons_append, ← hk]⟩

variable {xs ys : List Char}

theorem trimZeros_inj (hl : xs.length = ys.length) (h : trimZeros xs = trimZeros ys) : xs = ys := by
  obtain ⟨j, hj⟩ := trimZeros_append_zeros xs
  obtain ⟨k, hk⟩ := trimZeros_append_zeros ys
  have hjk : j = k := by
    rw [hj, hk, h] at hl
    simpa using hl
  rw [hj, hk, h, hjk]

theorem not_lt_zeros (hl : xs.length = ys.length) (hx : ∀ c ∈ xs, '0' ≤ c)
    (hy : ∀ c ∈ ys, c = '0') : ¬ xs < ys := by
  induction xs generalizing ys with
  | nil =>
    cases ys with
    | nil => exact lt_irrefl _
    | cons y ys => simp at hl
  | cons x xs ih =>
    cases ys with
    | nil => simp at hl
    | cons y ys =>
      have hy0 : y = '0' := hy y (by simp)
      have hx0 : '0' ≤ x := hx x (by simp)
      rw [cons_lt_cons_iff]
      rintro (h | ⟨-, h⟩)
      · rw [hy0] at h; exact absurd h (not_lt.mpr hx0)
      · exact ih (by simpa using hl) (fun c hc => hx c (by simp [hc])) (fun c hc => hy c (by simp [hc])) h

/-- For `xs < ys` of one length, the trimmed texts followed by a terminator
`z` above every digit keep the order unless the smaller one is a prefix. -/
theorem trimZeros_lt_iff {z : Char} (hl : xs.length = ys.length)
    (hx : ∀ c ∈ xs, '0' ≤ c ∧ c ≤ '9') (hy : ∀ c ∈ ys, '0' ≤ c ∧ c ≤ '9') (hz : '9' < z)
    (h : xs < ys) :
    trimZeros xs ++ [z] < trimZeros ys ++ [z] ↔ ¬ trimZeros xs <+: trimZeros ys := by
  induction xs generalizing ys with
  | nil =>
    cases ys with
    | nil => exact absurd h (lt_irrefl _)
    | cons y ys => simp at hl
  | cons x xs ih =>
    cases ys with
    | nil => simp at hl
    | cons y ys =>
      have hl' : xs.length = ys.length := by simpa using hl
      have hx' : ∀ c ∈ xs, '0' ≤ c ∧ c ≤ '9' := fun c hc => hx c (by simp [hc])
      have hy' : ∀ c ∈ ys, '0' ≤ c ∧ c ≤ '9' := fun c hc => hy c (by simp [hc])
      have hyz : ¬ z < y := not_lt.mpr ((hy y (by simp)).2.trans hz.le)
      have hyz' : z ≠ y := fun e => absurd hz (not_lt.mpr (e ▸ (hy y (by simp)).2))
      rw [cons_lt_cons_iff] at h
      -- the larger text keeps its head: its first difference is above '0'
      have hty : trimZeros (y :: ys) = y :: trimZeros ys := by
        simp only [trimZeros]
        rw [if_neg]
        rintro ⟨hn, rfl⟩
        rcases h with h | ⟨-, h⟩
        · exact absurd h (not_lt.mpr (hx x (by simp)).1)
        · exact not_lt_zeros hl' (fun c hc => (hx' c hc).1) (trimZeros_eq_nil hn) h
      rw [hty]
      simp only [trimZeros]
      split
      · simp [cons_lt_cons_iff, hyz, hyz']
      simp only [cons_append, cons_lt_cons_iff]
      rcases h with h | ⟨rfl, h⟩
      · simp [h, h.ne]
      · simp [ih hl' hx' hy' h]

theorem digits_trim_nil_iff (w n : Nat) : trimZeros (digits w n) = [] ↔ n % 10 ^ w = 0 := by
  induction w with
  | zero => simp [digits, trimZeros, Nat.mod_one]
  | succ w ih =>
    have hp : 0 < 10 ^ w := by positivity
    have hd := Nat.mod_lt (n / 10 ^ w) (show 10 > 0 by decide)
    have h0 : Nat.digitChar (n / 10 ^ w % 10) = '0' ↔ n / 10 ^ w % 10 = 0 :=
      ⟨fun h => digitChar_inj hd (by decide) h, fun h => by rw [h]; rfl⟩
    rw [mod_succ, digits, trimZeros]
    constructor
    · intro h
      split at h
      · rename_i hc
        rw [ih.mp hc.1, h0.mp hc.2, Nat.zero_mul]
      · cases h
    · intro h
      have hx : n / 10 ^ w % 10 * 10 ^ w = 0 := by omega
      have hx0 : n / 10 ^ w % 10 = 0 := (Nat.mul_eq_zero.mp hx).resolve_right hp.ne'
      exact if_pos ⟨ih.mpr (by omega), h0.mpr hx0⟩

theorem cut_succ {w k : Nat} (hk : k ≤ w) (x p : Nat) :
    x * 10 ^ w + p - (x * 10 ^ w + p) % 10 ^ k = x * 10 ^ w + (p - p % 10 ^ k) := by
  have hd : 10 ^ k ∣ x * 10 ^ w := Dvd.dvd.mul_left (pow_dvd_pow 10 hk) x
  obtain ⟨q, hq⟩ := hd
  rw [hq, Nat.mul_add_mod]
  have := Nat.mod_le p (10 ^ k)
  omega

theorem trimZeros_prefix_iff (w a b : Nat) : trimZeros (digits w a) <+: trimZeros (digits w b) ↔
      ∃ k ≤ w, a % 10 ^ w = b % 10 ^ w - b % 10 ^ w % 10 ^ k := by
  induction w with
  | zero => simp [digits, Nat.mod_one]
  | succ w ih =>
    by_cases hA : a % 10 ^ (w + 1) = 0
    · rw [(digits_trim_nil_iff (w + 1) a).mpr hA]
      simp only [List.nil_prefix, true_iff]
      exact ⟨w + 1, le_refl _, by rw [Nat.mod_mod]; omega⟩
    by_cases hB : b % 10 ^ (w + 1) = 0
    · rw [(digits_trim_nil_iff (w + 1) b).mpr hB, hB, prefix_nil, digits_trim_nil_iff]
      simp [hA]
    have hta : trimZeros (digits (w + 1) a) = Nat.digitChar (a / 10 ^ w % 10) :: trimZeros (digits w a) := by
      have h := mt (digits_trim_nil_iff (w + 1) a).mp hA
      exact if_neg (fun hc => h (if_pos hc))
    have htb : trimZeros (digits (w + 1) b) = Nat.digitChar (b / 10 ^ w % 10) :: trimZeros (digits w b) := by
      have h := mt (digits_trim_nil_iff (w + 1) b).mp hB
      exact if_neg (fun hc => h (if_pos hc))
    have hp : 0 < 10 ^ w := by positivity
    have ha := Nat.mod_lt a hp
    have hb := Nat.mod_lt b hp
    have hda := Nat.mod_lt (a / 10 ^ w) (show 10 > 0 by decide)
    have hdb := Nat.mod_lt (b / 10 ^ w) (show 10 > 0 by decide)
    rw [hta, htb, cons_prefix_cons, ih, mod_succ, mod_succ]
    rw [mod_succ] at hA
    generalize a / 10 ^ w % 10 = x at *
    generalize b / 10 ^ w % 10 = y at *
    generalize a % 10 ^ w = p at *
    generalize b % 10 ^ w = q at *
    constructor
    · rintro ⟨hxy, k, hk, hpq⟩
      exact ⟨k, by omega, by rw [cut_succ hk, digitChar_inj hda hdb hxy, hpq]⟩
    · rintro ⟨k, hk, he⟩
      rcases Nat.lt_or_ge w k with hwk | hwk
      · -- cutting at the whole width leaves nothing, but `a` is not zero
        obtain rfl : k = w + 1 := by omega
        have hlt : y * 10 ^ w + q < 10 ^ (w + 1) := by
          have := Nat.mul_le_mul_right (10 ^ w) (show y ≤ 9 by omega)
          rw [pow_succ]; omega
        rw [Nat.mod_eq_of_lt hlt] at he
        omega
      rw [cut_succ hwk] at he
      obtain ⟨h1, h2⟩ : x = y ∧ p = q - q % 10 ^ k := by
        rcases Nat.lt_trichotomy x y with hlt | rfl | hgt
        · have := Nat.mul_le_mul_right (10 ^ w) (show x + 1 ≤ y from hlt)
          rw [add_mul] at this; omega
        · exact ⟨rfl, by omega⟩
        · have := Nat.mul_le_mul_right (10 ^ w) (show y + 1 ≤ x from hgt)
          rw [add_mul] at this; omega
      exact ⟨by rw [h1], k, hwk, h2⟩

end Mossward.Decimal
