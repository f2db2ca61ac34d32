import Mathlib.Data.List.Basic
import Mathlib.Data.List.Forall2
import Mathlib.Data.List.Pairwise

/-!
# Queues with their history

A queue that hands its oldest item to a receiver until the receiver takes it.
Items may be equal, and an item may come back after it left, so the history
names them by their position among all accepted items.

Results:
* `Fifo.Inv`: items wait in the order of acceptance, are handed out in that
  order, and leave only when they were taken or removed.
* `inv_accept`, `inv_offer`, `inv_deliver`, `inv_removeWhere`: every operation
  keeps it.
* `contents_accept`, `contents_deliver`, `contents_removeWhere`: what the
  operations do to the items in the queue.
* `offered_offer`.
-/
namespace Mossward.Queue

open List

variable {α : Type}

structure Fifo (α : Type) where
  /-- all items ever accepted, in order -/
  accepted : List α
  /-- positions of the items in the queue -/
  waiting : List Nat
  /-- every offer to the receiver, and whether it took the item -/
  offers : List (Nat × Bool)
  /-- positions of the items removed otherwise -/
  removed : List Nat

namespace Fifo

def empty : Fifo α := ⟨[], [], [], []⟩

/-- The items in the queue, oldest first. -/
def contents (f : Fifo α) : List α := f.waiting.filterMap fun n => f.accepted[n]?

def accept (f : Fifo α) (a : α) : Fifo α :=
  { f with accepted := f.accepted ++ [a], waiting := f.waiting ++ [f.accepted.length] }

/-- The oldest item is offered to the receiver. -/
def offer (f : Fifo α) (taken : Bool) : Fifo α :=
  match f.waiting with
  | [] => f
  | n :: _ => { f with offers := f.offers ++ [(n, taken)] }

/-- The oldest item leaves. -/
def deliver (f : Fifo α) : Fifo α := { f with waiting := f.waiting.tail }

def selects (f : Fifo α) (p : α → Bool) (n : Nat) : Bool := f.accepted[n]?.any p

def removeWhere (f : Fifo α) (p : α → Bool) : Fifo α :=
  { f with
    waiting := f.waiting.filter fun n => !f.selects p n
    removed := f.removed ++ f.waiting.filter (f.selects p) }

structure Inv (f : Fifo α) : Prop where
  sorted : f.waiting.Pairwise (· < ·)
  bounded : ∀ n ∈ f.waiting, n < f.accepted.length
  /-- items are offered in the order of acceptance -/
  order : (f.offers.map Prod.fst).Pairwise (· ≤ ·)
  ahead : ∀ s ∈ f.offers, s.1 < f.accepted.length ∧ ∀ n ∈ f.waiting, s.1 ≤ n
  /-- what is not in the queue any more was taken or removed -/
  departed : ∀ n < f.accepted.length, n ∈ f.waiting ∨ (n, true) ∈ f.offers ∨ n ∈ f.removed

variable {f : Fifo α}

theorem inv_empty : (empty : Fifo α).Inv := by
  refine ⟨.nil, ?_, .nil, ?_, ?_⟩ <;> simp [empty]

theorem inv_accept (h : f.Inv) (a : α) : (f.accept a).Inv := by
  have hl : (f.accept a).accepted.length = f.accepted.length + 1 := by simp [accept]
  have hme : ∀ n, n ∈ (f.accept a).waiting ↔ n ∈ f.waiting ∨ n = f.accepted.length := by
    simp [accept]
  refine ⟨?_, fun n hn => ?_, h.order, fun s hs => ?_, fun n hn => ?_⟩
  · refine pairwise_append.mpr ⟨h.sorted, pairwise_singleton _ _, fun n hn m hm => ?_⟩
    rw [mem_singleton.mp hm]
    exact h.bounded n hn
  · rw [hl]
    rcases (hme n).mp hn with hn | rfl
    · exact Nat.lt_succ_of_lt (h.bounded n hn)
    · exact Nat.lt_succ_self _
  · obtain ⟨hlt, hle⟩ := h.ahead s hs
    rw [hl]
    refine ⟨Nat.lt_succ_of_lt hlt, fun n hn => ?_⟩
    rcases (hme n).mp hn with hn | rfl
    · exact hle n hn
    · exact Nat.le_of_lt hlt
  · rw [hl] at hn
    rcases Nat.lt_succ_iff_lt_or_eq.mp hn with hn | rfl
    · exact (h.departed n hn).imp_left fun hw => (hme n).mpr (.inl hw)
    · exact .inl ((hme _).mpr (.inr rfl))

theorem inv_offer (h : f.Inv) (taken : Bool) : (f.offer taken).Inv := by
  unfold offer
  split
  · exact h
  rename_i n rest hw
  have hn : n ∈ f.waiting := by simp [hw]
  have hmi : ∀ m ∈ f.waiting, n ≤ m := by
    have hso := h.sorted
    rw [hw] at hso ⊢
    intro m hm
    rcases mem_cons.mp hm with rfl | hm
    · exact Nat.le_refl _
    · exact Nat.le_of_lt ((pairwise_cons.mp hso).1 m hm)
  refine ⟨h.sorted, h.bounded, ?_, fun s hs => ?_, fun m hm => ?_⟩
  · rw [map_append]
    refine pairwise_append.mpr ⟨h.order, pairwise_singleton _ _, fun m hm k hk => ?_⟩
    obtain ⟨s, hs, rfl⟩ := mem_map.mp hm
    obtain rfl : k = n := by simpa using hk
    exact (h.ahead s hs).2 k hn
  · rcases mem_append.mp hs with hs | hs
    · exact h.ahead s hs
    · obtain rfl := mem_singleton.mp hs
      exact ⟨h.bounded n hn, hmi⟩
  · rcases h.departed m hm with hm | hm | hm
    · exact .inl hm
    · exact .inr (.inl (mem_append_left _ hm))
    · exact .inr (.inr hm)

theorem inv_deliver (h : f.Inv) : ((f.offer true).deliver).Inv := by
  have ho := inv_offer h true
  have hsu : ∀ m ∈ (f.offer true).deliver.waiting, m ∈ (f.offer true).waiting :=
    fun m hm => mem_of_mem_tail hm
  refine ⟨ho.sorted.tail, fun m hm => ho.bounded m (hsu m hm), ho.order,
    fun s hs => ⟨(ho.ahead s hs).1, fun m hm => (ho.ahead s hs).2 m (hsu m hm)⟩, fun m hm => ?_⟩
  rcases ho.departed m hm with hw | hd
  · -- the head was just taken, the others stay
    cases hq : f.waiting with
    | nil => simp [offer, hq] at hw
    | cons n rest =>
      have hof : f.offer true = { f with offers := f.offers ++ [(n, true)] } := by simp [offer, hq]
      rw [hof] at hw ⊢
      simp only [hq, mem_cons] at hw
      rcases hw with rfl | hw
      · exact .inr (.inl (mem_append_right _ (mem_singleton_self _)))
      · exact .inl (by simpa [deliver, hq] using hw)
  · exact .inr hd

theorem inv_removeWhere (h : f.Inv) (p : α → Bool) : (f.removeWhere p).Inv := by
  have hsu : ∀ m ∈ (f.removeWhere p).waiting, m ∈ f.waiting := fun m hm => mem_of_mem_filter hm
  refine ⟨h.sorted.filter _, fun m hm => h.bounded m (hsu m hm), h.order,
    fun s hs => ⟨(h.ahead s hs).1, fun m hm => (h.ahead s hs).2 m (hsu m hm)⟩, fun m hm => ?_⟩
  rcases h.departed m hm with hw | hd | hd
  · cases hp : f.selects p m with
    | false => exact .inl (mem_filter.mpr ⟨hw, by simp [hp]⟩)
    | true => exact .inr (.inr (mem_append_right _ (mem_filter.mpr ⟨hw, hp⟩)))
  · exact .inr (.inl hd)
  · exact .inr (.inr (mem_append_left _ hd))

/-! ## Contents -/

theorem contents_accept (h : f.Inv) (a : α) : (f.accept a).contents = f.contents ++ [a] := by
  have ho : f.waiting.filterMap (fun n => (f.accepted ++ [a])[n]?) = f.contents := by
    refine filterMap_congr fun n hn => ?_
    exact getElem?_append_left (h.bounded n hn)
  simp only [contents, accept, filterMap_append]
  rw [ho]
  simp [contents]

@[simp] theorem contents_offer (taken : Bool) : (f.offer taken).contents = f.contents := by
  unfold offer
  split <;> rfl

theorem contents_deliver (h : f.Inv) : f.deliver.contents = f.contents.tail := by
  unfold contents deliver
  cases hw : f.waiting with
  | nil => rfl
  | cons n rest =>
    have hn : n < f.accepted.length := h.bounded n (by simp [hw])
    simp [getElem?_eq_getElem hn]

theorem contents_removeWhere (p : α → Bool) :
    (f.removeWhere p).contents = f.contents.filter fun a => !p a := by
  unfold contents removeWhere
  induction f.waiting with
  | nil => rfl
  | cons n rest ih =>
    simp only [selects] at ih ⊢
    cases hn : f.accepted[n]? with
    | none => simpa [hn] using ih
    | some a => cases hp : p a <;> simpa [hn, hp] using ih

/-! ## Offers -/

/-- The offers, with their items. -/
def offered (f : Fifo α) : List (α × Bool) :=
  f.offers.filterMap fun o => f.accepted[o.1]?.map fun a => (a, o.2)

theorem offered_accept (h : f.Inv) (a : α) : (f.accept a).offered = f.offered := by
  refine filterMap_congr fun o ho => ?_
  simp only [accept]
  rw [getElem?_append_left (h.ahead o ho).1]

theorem offered_offer (h : f.Inv) {a : α} (ha : f.contents.head? = some a) (taken : Bool) :
    (f.offer taken).offered = f.offered ++ [(a, taken)] := by
  cases hw : f.waiting with
  | nil => simp [contents, hw] at ha
  | cons n rest =>
    have hn : n < f.accepted.length := h.bounded n (by simp [hw])
    have ha' : f.accepted[n]? = some a := by
      simpa [contents, hw, getElem?_eq_getElem hn] using ha
    simp [offered, offer, hw, ha']

theorem offered_length (h : f.Inv) : f.offered.length = f.offers.length := by
  have ha := h.ahead
  unfold offered
  generalize f.offers = os at ha ⊢
  induction os with
  | nil => rfl
  | cons o os ih =>
    have ho := (ha o mem_cons_self).1
    have hr := ih fun s hs => ha s (mem_cons_of_mem _ hs)
    rw [filterMap_cons_some (b := (f.accepted[o.1], o.2)) (by simp [getElem?_eq_getElem ho])]
    simp [hr]

theorem forall₂_contents {β : Type} {R : β → α → Prop} (h : f.Inv) {l : List β}
    (hl : List.Forall₂ R l f.contents) :
    List.Forall₂ (fun b n => ∃ a, f.accepted[n]? = some a ∧ R b a) l f.waiting := by
  have hbo := h.bounded
  unfold contents at hl
  generalize f.waiting = ns at hbo hl ⊢
  induction ns generalizing l with
  | nil =>
    rw [filterMap_nil, forall₂_nil_right_iff] at hl
    rw [hl]
    exact .nil
  | cons n rest ih =>
    have hn := getElem?_eq_getElem (hbo n mem_cons_self)
    rw [filterMap_cons_some hn] at hl
    cases hl with
    | cons hb hr => exact .cons ⟨_, hn, hb⟩ (ih (fun m hm => hbo m (mem_cons_of_mem _ hm)) hr)

end Fifo

end Mossward.Queue
