import Mathlib.Data.List.Chain
import Mathlib.Logic.Function.Basic
import Mossward.Core.Run

/-!
# Registers that are overwritten

A register holds at most one value per key. Writers overwrite values with
copies they took earlier, so a write can meet another value than its writer
has seen. Some values are final: once stored they are meant to stay.

Results:
* `lasts_update_iff`: the overwrites that leave final values alone.
* `chain_changesOf`: a log of a register's changes leads from its first value to
  its last.
* `lasts_throughout_iff`.
-/
namespace Mossward.Register

open Run List Option

variable {κ σ τ ι : Type} {final : σ → Prop}

/-- Every final value of `r` is still there in `r'`. -/
def Lasts (final : σ → Prop) (r r' : κ → Option σ) : Prop :=
  ∀ k v, r k = some v → final v → r' k = some v

theorem Lasts.refl (r : κ → Option σ) : Lasts final r r := fun _ _ h _ => h

theorem Lasts.trans {r r' r'' : κ → Option σ} (h : Lasts final r r') (h' : Lasts final r' r'') :
    Lasts final r r'' :=
  fun k v hr hv => h' k v (h k v hr hv) hv

section
variable [DecidableEq κ]

theorem lasts_update_iff (r : κ → Option σ) (k : κ) (v : σ) :
    Lasts final r (Function.update r k (some v)) ↔ ∀ v', r k = some v' → final v' → v = v' := by
  constructor
  · intro h v' hr hv'
    have hn := h k v' hr hv'
    rw [Function.update_self] at hn
    exact some.inj hn
  · intro h k' v' hr hv'
    by_cases hk : k' = k
    · subst hk
      rw [Function.update_self, h v' hr hv']
    · rwa [Function.update_of_ne hk]

end

theorem lasts_throughout_iff {step : τ → ι → τ} {reg : τ → κ → Option σ} {C : τ → ι → Prop} {J : τ → Prop}
    (hJ : ∀ s op, J s → J (step s op))
    (hst : ∀ s op, J s → (Lasts final (reg s) (reg (step s op)) ↔ C s op)) {s : τ} (hs : J s) (ops : List ι) :
    (∀ m n, m ≤ n → Lasts final (reg (run step s (ops.take m))) (reg (run step s (ops.take n)))) ↔
      Along step C s ops := by
  induction ops generalizing s with
  | nil =>
    refine iff_of_true (fun m n _ => ?_) trivial
    rw [take_nil, take_nil]
    exact .refl _
  | cons op ops ih =>
    have hr := ih (hJ s op hs)
    constructor
    · intro h
      refine ⟨(hst s op hs).mp (h 0 1 (Nat.zero_le 1)), hr.mp fun m n hm => ?_⟩
      exact h (m + 1) (n + 1) (Nat.succ_le_succ hm)
    · rintro ⟨hC, hAlong⟩ m n hm
      have hl := hr.mpr hAlong
      cases n with
      | zero =>
        rw [Nat.le_zero.mp hm]
        exact .refl _
      | succ n =>
        cases m with
        | zero => exact ((hst s op hs).mpr hC).trans (hl 0 n (Nat.zero_le n))
        | succ m => exact hl m n (Nat.le_of_succ_le_succ hm)

/-! ## A log of changes -/

section
variable {α : Type}

/-- The log leads from `v` to `w`: every entry is a change, and each starts with
the value that the one before ended with. -/
structure Chain (v w : α) (log : List (α × α)) : Prop where
  differ : ∀ p ∈ log, p.1 ≠ p.2
  linked : log.IsChain fun p q => p.2 = q.1
  starts : ∀ p, log.head? = some p → p.1 = v
  ends : (log.getLast?.map Prod.snd).getD v = w

theorem Chain.nil (v : α) : Chain v v [] where
  differ := by simp
  linked := .nil
  starts := by simp
  ends := rfl

theorem Chain.cons {u v w : α} {log : List (α × α)} (h : Chain v w log) (huv : u ≠ v) :
    Chain u w ((u, v) :: log) where
  differ := by
    intro p hp
    rcases mem_cons.mp hp with rfl | hp
    · exact huv
    · exact h.differ p hp
  linked := by
    rw [isChain_cons]
    refine ⟨?_, h.linked⟩
    intro p hp
    exact (h.starts p (mem_def.mp hp)).symm
  starts := by
    intro p hp
    rw [head?_cons, some.injEq] at hp
    exact congrArg Prod.fst hp.symm
  ends := by
    have hends := h.ends
    rw [getLast?_cons]
    cases hlast : log.getLast? with
    | _ =>
      rw [hlast] at hends
      exact hends

variable [DecidableEq α]

/-- The changes of a register that holds `v` and then takes the values `vs`. -/
def changes : α → List α → List (α × α)
  | _, [] => []
  | v, w :: vs => (if v = w then [] else [(v, w)]) ++ changes w vs

theorem changes_concat (v : α) (vs : List α) (w : α) :
    changes v (vs ++ [w]) = changes v vs ++ if vs.getLastD v = w then [] else [(vs.getLastD v, w)] := by
  induction vs generalizing v with
  | nil => simp [changes]
  | cons u vs ih => rw [cons_append, changes, changes, ih, append_assoc, getLastD_cons]

/-- The changes of a register that takes the values `vs`, of which the first is
no change. -/
def changesOf : List α → List (α × α)
  | [] => []
  | v :: vs => changes v vs

theorem changesOf_concat (vs : List α) (v w : α) :
    changesOf (vs ++ [v] ++ [w]) = changesOf (vs ++ [v]) ++ if v = w then [] else [(v, w)] := by
  cases vs with
  | nil => simp [changesOf, changes]
  | cons u vs =>
    show changes u (vs ++ [v] ++ [w]) = changes u (vs ++ [v]) ++ _
    rw [changes_concat, getLastD_concat]

theorem chain_changes (v : α) (vs : List α) : Chain v (vs.getLastD v) (changes v vs) := by
  induction vs generalizing v with
  | nil => exact .nil v
  | cons w vs ih =>
    rw [changes, getLastD_cons]
    by_cases hv : v = w
    · rw [if_pos hv, hv]
      exact ih w
    · rw [if_neg hv]
      exact (ih w).cons hv

theorem chain_changesOf {vs front : List α} {v w : α} (hf : vs.head? = some v) (hl : vs = front ++ [w]) :
    Chain v w (changesOf vs) := by
  subst hl
  cases front with
  | nil =>
    rw [nil_append, head?_cons, some.injEq] at hf
    rw [hf]
    exact .nil v
  | cons u front =>
    rw [cons_append, head?_cons, some.injEq] at hf
    subst hf
    have hc := chain_changes u (front ++ [w])
    rw [getLastD_concat] at hc
    exact hc

end

end Mossward.Register
