import Mathlib.Data.List.Basic

/-!
# Computations that may fail

A computation ends with a value or with an error. `Ends I E` says what holds of
either: `I` of the value and `E` of the error. An error may carry what was done
before it, so `E` can be as strong as `I`.

Results:
* `Ends.bind`: one computation after the other.
* `Ends.foldlM`: a loop, from what one turn keeps.
-/
namespace Mossward

open List

variable {α β ε : Type}

def Ends (I : α → Prop) (E : ε → Prop) : Except ε α → Prop
  | .ok a => I a
  | .error e => E e

namespace Ends

variable {I : α → Prop} {J : β → Prop} {E : ε → Prop}

variable {x : Except ε α}

theorem bind {f : α → Except ε β} (hx : Ends I E x) (hf : ∀ a, I a → Ends J E (f a)) :
    Ends J E (x >>= f) := by
  cases x with
  | ok a => exact hf a hx
  | error e => exact hx

theorem foldlM {ι : Type} {step : α → ι → Except ε α} {xs : List ι}
    (hs : ∀ a, I a → ∀ x ∈ xs, Ends I E (step a x)) {a : α} (ha : I a) : Ends I E (xs.foldlM step a) := by
  induction xs generalizing a with
  | nil => exact ha
  | cons x xs ih =>
    refine (hs a ha x mem_cons_self).bind fun a' ha' => ?_
    exact ih (fun b hb y hy => hs b hb y (mem_cons_of_mem _ hy)) ha'

theorem foldlM_done {ι : Type} {P : List ι → α → Prop} {step : α → ι → Except ε α} {xs : List ι}
    (hstep : ∀ done x rest, xs = done ++ x :: rest → ∀ a, P done a → Ends (P (done ++ [x])) E (step a x)) {a : α}
    (ha : P [] a) : Ends (P xs) E (xs.foldlM step a) := by
  suffices h : ∀ rest done a, xs = done ++ rest → P done a → Ends (P xs) E (rest.foldlM step a) from h xs [] a rfl ha
  intro rest
  induction rest with
  | nil =>
    intro done a hxs ha
    rwa [hxs, append_nil]
  | cons x rest ih =>
    intro done a hxs ha
    exact (hstep done x rest hxs a ha).bind fun a' ha' => ih (done ++ [x]) a' (by simp [hxs]) ha'

theorem mono {I' : α → Prop} {E' : ε → Prop} (h : Ends I E x) (hI : ∀ a, I a → I' a)
    (hE : ∀ e, E e → E' e) : Ends I' E' x := by
  cases x with
  | ok a => exact hI a h
  | error e => exact hE e h

theorem of_ok (h : Ends I E x) {a : α} (hx : x = .ok a) : I a := by
  rw [hx] at h
  exact h

end Ends

/-- The computation succeeds, with such a value. -/
abbrev Yields (I : α → Prop) (x : Except ε α) : Prop := Ends I (fun _ => False) x

theorem Yields.exists_ok {I : α → Prop} {x : Except ε α} (h : Yields I x) : ∃ a, x = .ok a ∧ I a := by
  cases x with
  | ok a => exact ⟨a, rfl, h⟩
  | error e => exact h.elim

end Mossward
