import Mathlib.Data.List.Basic
import Mathlib.Tactic

/-!
# Digits, and texts split at a character

Results: `hexValue_digitChar`, `notMem_of_mem_splitOn`, `mem_splitOn`.
-/
namespace Mossward

open List

/-- The value of a hexadecimal digit. -/
def hexValue (c : Char) : Option Nat :=
  if c.isDigit then some (c.toNat - '0'.toNat)
  else if 'a' ≤ c && c ≤ 'f' then some (c.toNat - 'a'.toNat + 10)
  else if 'A' ≤ c && c ≤ 'F' then some (c.toNat - 'A'.toNat + 10)
  else none

theorem hexValue_digitChar {d : Nat} (h : d < 16) : hexValue (Nat.digitChar d) = some d := by
  have ha : ∀ d : Fin 16, hexValue (Nat.digitChar d) = some d.1 := by decide
  exact ha ⟨d, h⟩

variable {α : Type} [DecidableEq α] {a c : α} {l : List α}

/-- A piece does not hold the character that the text was split at. -/
theorem notMem_of_mem_splitOn {part : List α} (h : part ∈ l.splitOn a) : a ∉ part := by
  induction l generalizing part with
  | nil =>
    rw [splitOn_nil, mem_singleton] at h
    simp [h]
  | cons b l ih =>
    rw [splitOn_cons_eq_if_modifyHead] at h
    split at h
    · rcases mem_cons.mp h with rfl | h
      · simp
      · exact ih h
    rename_i hb
    obtain ⟨first, rest, hp⟩ := exists_cons_of_ne_nil (splitOn_ne_nil a l)
    rw [hp] at h ih
    rcases mem_cons.mp h with rfl | h
    · have hf := ih mem_cons_self
      rw [mem_cons, not_or]
      exact ⟨fun he => hb (by simp [he]), hf⟩
    · exact ih (mem_cons_of_mem _ h)

theorem mem_splitOn (h : c ∈ l) : c = a ∨ ∃ part ∈ l.splitOn a, c ∈ part := by
  induction l with
  | nil => cases h
  | cons b l ih =>
    rw [splitOn_cons_eq_if_modifyHead]
    obtain ⟨first, rest, hpa⟩ := exists_cons_of_ne_nil (splitOn_ne_nil a l)
    rw [hpa] at ih ⊢
    rcases mem_cons.mp h with rfl | h
    · by_cases hc : c = a
      · exact .inl hc
      · right
        rw [if_neg (by simpa using hc)]
        exact ⟨c :: first, mem_cons_self, mem_cons_self⟩
    rcases ih h with hc | ⟨part, hp, hm⟩
    · exact .inl hc
    right
    split
    · exact ⟨part, mem_cons_of_mem _ hp, hm⟩
    · rcases mem_cons.mp hp with rfl | hp
      · exact ⟨b :: part, mem_cons_self, mem_cons_of_mem _ hm⟩
      · exact ⟨part, mem_cons_of_mem _ hp, hm⟩

end Mossward
