import Mossward.Core.Ends
import Mossward.Core.Run

/-!
# Programs that may be cut off

A script reads a state, asks for atomic actions on it and ends with a value or
an error. It is alone on the state while it runs. A crash or a failing action
cuts it off: some of its first actions have happened and the others have not.

`Runs step I p s Q E`: wherever a script that starts at `s` is cut off `I`
holds, and if it is not, `Q` holds of the value and the state at its end, or `E`
of the error and the state.

* `Runs.bind`: one script after the other.
* `Runs.act`: actions, from what holds after each of the first of them.
-/
namespace Mossward

open Run

variable {σ ι ε α β : Type} {step : σ → ι → σ}

/-- The actions and the result, from the state at the start. -/
def Script (_step : σ → ι → σ) (ε α : Type) : Type := σ → List ι × Except ε α

namespace Script

/-- The state when the script is cut off after `n` actions. -/
def cut (p : Script step ε α) (s : σ) (n : Nat) : σ := run step s ((p s).1.take n)

/-- The state at the end. -/
def final (p : Script step ε α) (s : σ) : σ := run step s (p s).1

def result (p : Script step ε α) (s : σ) : Except ε α := (p s).2

def ret (a : α) : Script step ε α := fun _ => ([], .ok a)

def fail (e : ε) : Script step ε α := fun _ => ([], .error e)

def read (g : σ → α) : Script step ε α := fun s => ([], .ok (g s))

def act (actions : List ι) : Script step ε Unit := fun _ => (actions, .ok ())

/-- The script with its result dropped. -/
def ignore (p : Script step ε α) : Script step ε Unit := fun s => ((p s).1, .ok ())

def andThen (p : Script step ε α) (f : α → Script step ε β) : Script step ε β := fun s =>
  match (p s).2 with
  | .error e => ((p s).1, .error e)
  | .ok a => ((p s).1 ++ (f a (p.final s)).1, (f a (p.final s)).2)

instance : Monad (Script step ε) where
  pure := ret
  bind := andThen

theorem act_append (a b : List ι) : (act (a ++ b) : Script step ε Unit) = (act a >>= fun _ => act b) := rfl

end Script

/-- What holds while the script runs and at its end. -/
structure Runs (step : σ → ι → σ) (I : σ → Prop) (p : Script step ε α) (s : σ) (Q : α → σ → Prop)
    (E : ε → σ → Prop) : Prop where
  during : ∀ n, I (p.cut s n)
  ends : Ends (Q · (p.final s)) (E · (p.final s)) (p.result s)

namespace Runs

variable {I : σ → Prop} {s : σ} {Q : α → σ → Prop} {R : β → σ → Prop} {E : ε → σ → Prop}

theorem pure {a : α} (hI : I s) (hQ : Q a s) : Runs step I (Pure.pure a : Script step ε α) s Q E :=
  ⟨fun n => by simpa [Script.cut, Pure.pure, Script.ret] using hI, hQ⟩

theorem fail {e : ε} (hI : I s) (hE : E e s) : Runs step I (Script.fail e : Script step ε α) s Q E :=
  ⟨fun n => by simpa [Script.cut, Script.fail] using hI, hE⟩

theorem read {g : σ → α} (hI : I s) (hQ : Q (g s) s) : Runs step I (Script.read g : Script step ε α) s Q E :=
  ⟨fun n => by simpa [Script.cut, Script.read] using hI, hQ⟩

theorem act {Q : Unit → σ → Prop} {actions : List ι} (hI : ∀ n, I (run step s (actions.take n)))
    (hQ : Q () (run step s actions)) : Runs step I (Script.act actions : Script step ε Unit) s Q E :=
  ⟨hI, hQ⟩

variable {p : Script step ε α}

theorem ignore {Q : Unit → σ → Prop}
    (h : Runs step I p s (fun _ s' => Q () s') fun _ s' => Q () s') : Runs step I p.ignore s Q E := by
  obtain ⟨hd, he⟩ := h
  refine ⟨hd, ?_⟩
  cases hr : p.result s with
  | _ =>
    rw [hr] at he
    exact he

theorem bind {f : α → Script step ε β}
    (h : Runs step I p s (fun a s' => Runs step I (f a) s' R E) E) : Runs step I (p >>= f) s R E := by
  obtain ⟨hd, he⟩ := h
  show Runs step I (p.andThen f) s R E
  cases hr : (p s).2 with
  | error e =>
    have hb : p.andThen f s = ((p s).1, .error e) := by rw [Script.andThen, hr]
    rw [Script.result, hr] at he
    refine ⟨fun n => ?_, ?_⟩
    · rw [Script.cut, hb]
      exact hd n
    · rw [Script.result, Script.final, hb]
      exact he
  | ok a =>
    have hb : p.andThen f s = ((p s).1 ++ (f a (p.final s)).1, (f a (p.final s)).2) := by
      rw [Script.andThen, hr]
    rw [Script.result, hr] at he
    obtain ⟨hre, hla⟩ := he
    refine ⟨fun n => ?_, ?_⟩
    · rw [Script.cut, hb, List.take_append, run_append]
      rcases Nat.le_total (p s).1.length n with hl | hl
      · rw [List.take_of_length_le hl]
        exact hre _
      · rw [Nat.sub_eq_zero_of_le hl]
        exact hd n
    · rw [Script.result, Script.final, hb, run_append]
      exact hla

theorem imp {Q' : α → σ → Prop} {E' : ε → σ → Prop} (h : Runs step I p s Q E)
    (hQ : ∀ a s', Q a s' → Q' a s') (hE : ∀ e s', E e s' → E' e s') : Runs step I p s Q' E' := by
  obtain ⟨hd, he⟩ := h
  refine ⟨hd, ?_⟩
  cases hr : p.result s with
  | ok a =>
    rw [hr] at he
    exact hQ a _ he
  | error e =>
    rw [hr] at he
    exact hE e _ he

theorem weaken {I' : σ → Prop} (h : Runs step I p s Q E) (hI : ∀ s', I s' → I' s') : Runs step I' p s Q E :=
  ⟨fun n => hI _ (h.during n), h.ends⟩

end Runs

end Mossward
