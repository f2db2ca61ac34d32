import Mathlib.Data.Fintype.Order
import Mathlib.Data.List.Sort
import Mathlib.Tactic

/-!
# Ordering by rounds

The elements of a finite set are put in an order, round by round: each round
appends, sorted, the elements whose dependencies are all there, and a round
without any fails.

Results:
* `rounds_result`: an order of the whole set with every element behind its
  dependencies, or a cycle.
* `rounds_congr`: in which order the elements are looked at does not matter.
-/
namespace Mossward.Layers

open Relation (TransGen)

section
variable {α : Type} [LinearOrder α] (deps : α → List α)

/-- The elements of a round. -/
def ready (order elements : List α) : List α :=
  (elements.filter fun x => decide (x ∉ order) && (deps x).all fun y => decide (y ∈ order)).mergeSort (· ≤ ·)

theorem mem_ready {order elements : List α} {x : α} :
    x ∈ ready deps order elements ↔ x ∈ elements ∧ x ∉ order ∧ ∀ y ∈ deps x, y ∈ order := by
  simp [ready, List.mem_mergeSort]

/-- The rounds from one on; `elements` lists the set for each of them. -/
def rounds (n : Nat) (elements : Nat → List α) (round : Nat) (order : List α) : Option (List α) :=
  if order.length < n then
    if h : ready deps order (elements round) = [] then none
    else
      have := List.length_pos_iff.mpr h
      rounds n elements (round + 1) (order ++ ready deps order (elements round))
  else some order
termination_by n - order.length
decreasing_by
  rw [List.length_append]
  omega

theorem ready_perm {order elements elements' : List α} (h : elements.Perm elements') :
    ready deps order elements = ready deps order elements' := by
  have hs : ∀ l : List α, (l.mergeSort (· ≤ ·)).Pairwise fun a b => decide (a ≤ b) = true := fun l =>
    List.pairwise_mergeSort (fun a b c hab hbc => by simp at *; exact le_trans hab hbc)
      (fun a b => by simpa using le_total a b) l
  refine List.Perm.eq_of_pairwise (fun a b _ _ hab hba => ?_) (hs _) (hs _) ?_
  · exact le_antisymm (of_decide_eq_true hab) (of_decide_eq_true hba)
  · exact (List.mergeSort_perm _ _).trans ((h.filter _).trans (List.mergeSort_perm _ _).symm)

/-- The order in which the elements are looked at does not matter. -/
theorem rounds_congr {n : Nat} {elements elements' : Nat → List α} (h : ∀ i, (elements i).Perm (elements' i))
    (round : Nat) (order : List α) : rounds deps n elements round order = rounds deps n elements' round order := by
  fun_induction rounds deps n elements round order with
  | case1 round order hl hr =>
    rw [ready_perm deps (h round)] at hr
    rw [rounds, if_pos hl, dif_pos hr]
  | case2 round order hl hr _ ih =>
    rw [ready_perm deps (h round)] at hr ih ⊢
    rw [ih, rounds.eq_def deps n elements' round, if_pos hl, dif_neg hr]
  | case3 round order hl => rw [rounds, if_neg hl]

/-- Elements of the set, each once and behind its dependencies. -/
structure Ordered (set order : List α) : Prop where
  nodup : order.Nodup
  subset : order ⊆ set
  behind : ∀ x ∈ order, ∀ y ∈ deps x, [y, x].Sublist order

variable {deps} {set order : List α} {elements : Nat → List α} {n round : Nat}

theorem Ordered.append (hn : set.Nodup) (h : Ordered deps set order) {l : List α} (hl : l.Perm set) :
    Ordered deps set (order ++ ready deps order l) where
  nodup := by
    refine List.nodup_append'.mpr ⟨h.nodup, ?_, fun x hx hr => ((mem_ready deps).mp hr).2.1 hx⟩
    exact (List.mergeSort_perm _ _).nodup_iff.mpr ((hl.nodup_iff.mpr hn).filter _)
  subset := List.append_subset.mpr ⟨h.subset, fun x hx => hl.mem_iff.mp ((mem_ready deps).mp hx).1⟩
  behind := by
    intro x hx y hy
    rcases List.mem_append.mp hx with hx | hx
    · exact (h.behind x hx y hy).trans (List.sublist_append_left _ _)
    · have hyo := ((mem_ready deps).mp hx).2.2 y hy
      exact (List.singleton_sublist.mpr hyo).append (List.singleton_sublist.mpr hx)

/-- What the rounds return is ordered, and where they fail nothing is ready. -/
theorem rounds_cases (hn : set.Nodup) (he : ∀ i, (elements i).Perm set) (h : Ordered deps set order) :
    (∃ order', rounds deps n elements round order = some order' ∧ Ordered deps set order' ∧ n ≤ order'.length) ∨
    (rounds deps n elements round order = none ∧ ∃ order', Ordered deps set order' ∧ order'.length < n ∧
      ∀ x ∈ set, x ∉ order' → ∃ y ∈ deps x, y ∉ order') := by
  fun_induction rounds deps n elements round order with
  | case1 round order hl hr =>
    refine .inr ⟨rfl, order, h, hl, fun x hx ho => ?_⟩
    by_contra hd
    push Not at hd
    exact absurd ((mem_ready deps).mpr ⟨(he round).mem_iff.mpr hx, ho, hd⟩) (by rw [hr]; exact List.not_mem_nil)
  | case2 round order hl hr _ ih => exact ih (h.append hn (he round))
  | case3 round order hl => exact .inl ⟨order, rfl, h, not_lt.mp hl⟩

/-- One element depends on another. -/
def Depends (deps : α → List α) (set : List α) (x y : α) : Prop := x ∈ set ∧ y ∈ deps x

omit [LinearOrder α] in
/-- Where each element that is left waits for another one, the dependencies have a
cycle. -/
theorem cycle_of_waiting (hc : ∀ x ∈ set, ∀ y ∈ deps x, y ∈ set) {x : α} (hx : x ∈ set) (ho : x ∉ order)
    (hw : ∀ x ∈ set, x ∉ order → ∃ y ∈ deps x, y ∉ order) : ∃ x, TransGen (Depends deps set) x x := by
  by_contra hn
  let r : {x // x ∈ set} → {x // x ∈ set} → Prop := fun y x => TransGen (Depends deps set) x.1 y.1
  have : Finite {x // x ∈ set} := set.finite_toSet
  have : IsTrans _ r := ⟨fun _ _ _ hab hbc => hbc.trans hab⟩
  have : Std.Irrefl r := ⟨fun x hxx => hn ⟨x.1, hxx⟩⟩
  obtain ⟨a, ha, hmin⟩ := (Finite.wellFounded_of_trans_of_irrefl r).has_min {x | x.1 ∉ order} ⟨⟨x, hx⟩, ho⟩
  obtain ⟨y, hy, hyo⟩ := hw a.1 a.2 ha
  exact hmin ⟨y, hc a.1 a.2 y hy⟩ hyo (.single ⟨a.2, hy⟩)

theorem Ordered.acyclic (h : Ordered deps set order) (hs : set ⊆ order) : ¬ ∃ x, TransGen (Depends deps set) x x := by
  have hp : order.Pairwise fun a b => order.idxOf a < order.idxOf b :=
    List.pairwise_iff_getElem.mpr fun i j hi hj hij => by rwa [h.nodup.idxOf_getElem, h.nodup.idxOf_getElem]
  have hlt : ∀ {x y}, TransGen (Depends deps set) x y → order.idxOf y < order.idxOf x := by
    intro x y ht
    induction ht with
    | single hd => exact List.pairwise_iff_forall_sublist.mp hp (h.behind _ (hs hd.1) _ hd.2)
    | tail _ hd ih => exact lt_trans (List.pairwise_iff_forall_sublist.mp hp (h.behind _ (hs hd.1) _ hd.2)) ih
  rintro ⟨x, hx⟩
  exact lt_irrefl _ (hlt hx)

section
variable (hn : set.Nodup) (hc : ∀ x ∈ set, ∀ y ∈ deps x, y ∈ set) (he : ∀ i, (elements i).Perm set)
include hn hc he

/-- An order of the whole set, or a cycle. -/
theorem rounds_result (round : Nat) :
    (∃ order, rounds deps set.length elements round [] = some order ∧ order.Perm set ∧ Ordered deps set order ∧
      ¬ ∃ x, TransGen (Depends deps set) x x) ∨
    (rounds deps set.length elements round [] = none ∧ ∃ x, TransGen (Depends deps set) x x) := by
  have hi : Ordered deps set [] := ⟨List.nodup_nil, List.nil_subset _, fun _ h => by cases h⟩
  rcases rounds_cases (n := set.length) hn he hi with ⟨order, hr, ho, hl⟩ | ⟨hr, order, ho, hl, hw⟩
  · have hp := (List.subperm_of_subset ho.nodup ho.subset).perm_of_length_le hl
    exact .inl ⟨order, hr, hp, ho, ho.acyclic hp.symm.subset⟩
  · obtain ⟨x, hx, hxo⟩ : ∃ x ∈ set, x ∉ order := by
      by_contra hall
      push Not at hall
      exact absurd (List.subperm_of_subset hn hall).length_le (not_le.mpr hl)
    exact .inr ⟨hr, cycle_of_waiting hc hx hxo hw⟩

end

end

end Mossward.Layers
