import Mathlib.Data.List.Basic
import Mathlib.Logic.Relation

/-!
# Runs of a deterministic machine

A machine with atomic operations is a function from a state and an operation
to the next state; a run is a list of operations. Operations that fail are
steps too: what they leave behind is part of the machine.

Results:
* `run_invariant`: what the start satisfies and every step preserves holds
  after every run.
* `run_invariant_along`: invariants again, when the steps need a condition on the
  operation and the state it meets, assumed `Along` the run.
* `run_invariant_mem`, `run_invariant_iff`.
-/
namespace Mossward.Run

open List

variable {σ ι : Type} (step : σ → ι → σ)

/-- The state after the operations `ops`, applied in order. -/
def run (s : σ) (ops : List ι) : σ := ops.foldl step s

@[simp] theorem run_nil (s : σ) : run step s [] = s := rfl

@[simp] theorem run_cons (s : σ) (op : ι) (ops : List ι) :
    run step s (op :: ops) = run step (step s op) ops := rfl

@[simp] theorem run_append (s : σ) (ops1 ops2 : List ι) :
    run step s (ops1 ++ ops2) = run step (run step s ops1) ops2 := by
  simp [run]

theorem run_concat (s : σ) (ops : List ι) (op : ι) :
    run step s (ops ++ [op]) = step (run step s ops) op := by simp

variable {step}

variable {I : σ → Prop} {s : σ}

theorem run_invariant (hs : ∀ s op, I s → I (step s op)) (h : I s) (ops : List ι) : I (run step s ops) := by
  induction ops generalizing s with
  | nil => exact h
  | cons op ops ih => exact ih (hs s op h)

/-- A guarded step keeps what its action keeps. -/
theorem ite_keeps {c : Prop} [Decidable c] {s' : σ} (h : I s) (hs : c → I s') : I (if c then s' else s) := by
  split
  · exact hs ‹c›
  · exact h

variable {ops : List ι}

theorem run_invariant_mem (hs : ∀ s, ∀ op ∈ ops, I s → I (step s op)) (h : I s) : I (run step s ops) := by
  induction ops generalizing s with
  | nil => exact h
  | cons op ops ih =>
    exact ih (fun s' op' ho => hs s' op' (mem_cons_of_mem _ ho)) (hs s op mem_cons_self h)

/-- Every operation of the run meets `C` in the state it is applied to. -/
def Along (step : σ → ι → σ) (C : σ → ι → Prop) : σ → List ι → Prop
  | _, [] => True
  | s, op :: ops => C s op ∧ Along step C (step s op) ops

/-- Whether a run meets a decidable condition can be evaluated. -/
def decidableAlong {C : σ → ι → Prop} [∀ s op, Decidable (C s op)] :
    (s : σ) → (ops : List ι) → Decidable (Along step C s ops)
  | _, [] => isTrue trivial
  | s, op :: ops => @instDecidableAnd _ _ _ (decidableAlong (step s op) ops)

instance {C : σ → ι → Prop} [∀ s op, Decidable (C s op)] (s : σ) (ops : List ι) :
    Decidable (Along step C s ops) :=
  decidableAlong s ops

variable {C : σ → ι → Prop}

theorem Along.imp {C' : σ → ι → Prop} (hC : ∀ s op, C s op → C' s op)
    (h : Along step C s ops) : Along step C' s ops := by
  induction ops generalizing s with
  | nil => trivial
  | cons op ops ih => exact ⟨hC s op h.1, ih h.2⟩

theorem along_append {ops1 ops2 : List ι} :
    Along step C s (ops1 ++ ops2) ↔ Along step C s ops1 ∧ Along step C (run step s ops1) ops2 := by
  induction ops1 generalizing s with
  | nil => exact ⟨fun h => ⟨trivial, h⟩, fun h => h.2⟩
  | cons op ops1 ih =>
    simp only [cons_append, Along, run_cons, ih, and_assoc]

theorem run_invariant_along (hs : ∀ s op, I s → C s op → I (step s op)) (h : I s)
    (hC : Along step C s ops) : I (run step s ops) := by
  induction ops generalizing s with
  | nil => exact h
  | cons op ops ih => exact ih (hs s op h hC.1) hC.2

theorem run_invariant_iff {P : ι → Prop} {J : σ → Prop} (hJ : ∀ s op, P op → J s → J (step s op))
    (hs : ∀ s op, P op → J s → I s → (I (step s op) ↔ C s op)) (hJs : J s) (hIs : I s) (ho : ∀ op ∈ ops, P op) :
    (∀ n, I (run step s (ops.take n))) ↔ Along step C s ops := by
  induction ops generalizing s with
  | nil => exact ⟨fun _ => trivial, fun _ n => by simpa using hIs⟩
  | cons op ops ih =>
    have hop := ho op mem_cons_self
    have hr := fun hI => ih (hJ s op hop hJs) hI fun op' ho' => ho op' (mem_cons_of_mem _ ho')
    constructor
    · intro h
      have hI : I (step s op) := by simpa using h 1
      exact ⟨(hs s op hop hJs hIs).mp hI, (hr hI).mp fun n => by simpa using h (n + 1)⟩
    · rintro ⟨hC, hAlong⟩ n
      have hI := (hs s op hop hJs hIs).mpr hC
      cases n with
      | zero => simpa using hIs
      | succ n => simpa using (hr hI).mpr hAlong n

end Mossward.Run
