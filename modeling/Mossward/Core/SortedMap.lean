import Mathlib.Order.Basic
import Mathlib.Tactic
import Mossward.Core.Table

/-!
# Maps in the order of their keys

A finite map as the list of its entries, ordered by key. Two maps are equal
exactly when they have the same entries.

Results:
* `mem_insert`: the entries after an insertion.
* `insertAll_entries`: a map is what inserting its entries gives.
-/
namespace Mossward

structure SortedMap (κ ν : Type) [LinearOrder κ] where
  entries : List (κ × ν)
  sorted : (entries.map Prod.fst).Pairwise (· < ·)
deriving DecidableEq

namespace SortedMap

open Table List

variable {κ ν : Type} [LinearOrder κ]

def empty : SortedMap κ ν := ⟨[], .nil⟩

def get? (m : SortedMap κ ν) (k : κ) : Option ν := (m.entries.find? fun e => e.1 = k).map Prod.snd

variable {m : SortedMap κ ν}

@[ext] theorem ext {m' : SortedMap κ ν} (h : m.entries = m'.entries) : m = m' := by
  cases m
  congr

theorem keyed (m : SortedMap κ ν) : Keyed Prod.fst m.entries := m.sorted.imp fun h => h.ne

theorem get?_eq_some_iff {k : κ} {v : ν} : m.get? k = some v ↔ (k, v) ∈ m.entries := by
  rw [get?, Option.map_eq_some_iff]
  constructor
  · rintro ⟨e, he, rfl⟩
    have hk : e.1 = k := by simpa using find?_some he
    rw [← hk]
    exact mem_of_find?_eq_some he
  · intro hm
    exact ⟨(k, v), m.keyed.find?_eq hm, rfl⟩

/-- The entries after this key stay behind it. -/
def insert (m : SortedMap κ ν) (k : κ) (v : ν) : SortedMap κ ν where
  entries := m.entries.filter (fun e => e.1 < k) ++ (k, v) :: m.entries.filter fun e => k < e.1
  sorted := by
    have hpart : ∀ p : κ × ν → Bool, ((m.entries.filter p).map Prod.fst).Pairwise (· < ·) := fun p =>
      m.sorted.sublist (filter_sublist.map _)
    rw [map_append, map_cons, pairwise_append, pairwise_cons]
    refine ⟨hpart _, ⟨?_, hpart _⟩, ?_⟩
    · intro a ha
      obtain ⟨e, he, rfl⟩ := mem_map.mp ha
      simpa using (mem_filter.mp he).2
    · intro a ha b hb
      obtain ⟨e, he, rfl⟩ := mem_map.mp ha
      have hlt : e.1 < k := by simpa using (mem_filter.mp he).2
      rcases mem_cons.mp hb with rfl | hb
      · exact hlt
      · obtain ⟨e', he', rfl⟩ := mem_map.mp hb
        exact hlt.trans (by simpa using (mem_filter.mp he').2)

variable {e : κ × ν}

theorem mem_insert {k : κ} {v : ν} : e ∈ (m.insert k v).entries ↔ e = (k, v) ∨ e ∈ m.entries ∧ e.1 ≠ k := by
  simp only [insert, mem_append, mem_cons, mem_filter, decide_eq_true_eq]
  constructor
  · rintro (⟨he, hl⟩ | rfl | ⟨he, hl⟩)
    · exact .inr ⟨he, hl.ne⟩
    · exact .inl rfl
    · exact .inr ⟨he, hl.ne'⟩
  · rintro (rfl | ⟨he, hn⟩)
    · exact .inr (.inl rfl)
    · rcases lt_or_gt_of_ne hn with hl | hl
      · exact .inl ⟨he, hl⟩
      · exact .inr (.inr ⟨he, hl⟩)

theorem eq_of_mem_iff {m' : SortedMap κ ν} (h : ∀ e, e ∈ m.entries ↔ e ∈ m'.entries) : m = m' := by
  have hp : ∀ m : SortedMap κ ν, m.entries.Pairwise fun a b => a.1 < b.1 := fun m =>
    pairwise_map.mp m.sorted
  apply ext
  have hpe : m.entries.Perm m'.entries := (perm_ext_iff_of_nodup m.keyed.of_map m'.keyed.of_map).mpr h
  exact hpe.eq_of_pairwise (fun a b _ _ ha hb => absurd (ha.trans hb) (lt_irrefl _)) (hp m) (hp m')

theorem insert_comm (m : SortedMap κ ν) {k k' : κ} (h : k ≠ k') (v v' : ν) :
    (m.insert k v).insert k' v' = (m.insert k' v').insert k v := by
  apply eq_of_mem_iff
  intro e
  simp only [mem_insert]
  constructor
  · rintro (rfl | ⟨rfl | ⟨he, hk⟩, hk'⟩)
    · exact .inr ⟨.inl rfl, Ne.symm h⟩
    · exact .inl rfl
    · exact .inr ⟨.inr ⟨he, hk'⟩, hk⟩
  · rintro (rfl | ⟨rfl | ⟨he, hk'⟩, hk⟩)
    · exact .inr ⟨.inl rfl, h⟩
    · exact .inl rfl
    · exact .inr ⟨.inr ⟨he, hk⟩, hk'⟩

theorem insert_entries_last {k : κ} (h : ∀ e ∈ m.entries, e.1 < k) (v : ν) :
    (m.insert k v).entries = m.entries ++ [(k, v)] := by
  have hb : m.entries.filter (fun e => decide (e.1 < k)) = m.entries :=
    filter_eq_self.mpr fun e he => by simpa using h e he
  have ha : m.entries.filter (fun e => decide (k < e.1)) = [] :=
    filter_eq_nil_iff.mpr fun e he => by simpa using (h e he).le
  simp only [insert, hb, ha]

/-- One insertion after the other. -/
def insertAll (m : SortedMap κ ν) (es : List (κ × ν)) : SortedMap κ ν := es.foldl (fun m e => m.insert e.1 e.2) m

variable {es : List (κ × ν)}

theorem insertAll_after (hes : (es.map Prod.fst).Pairwise (· < ·))
    (ha : ∀ e ∈ m.entries, ∀ e' ∈ es, e.1 < e'.1) : (m.insertAll es).entries = m.entries ++ es := by
  induction es generalizing m with
  | nil => simp [insertAll]
  | cons e es ih =>
    obtain ⟨hf, hr⟩ := pairwise_cons.mp hes
    have he := insert_entries_last (fun e' he' => ha e' he' e mem_cons_self) e.2
    have hs : (insertAll m (e :: es)) = (m.insert e.1 e.2).insertAll es := rfl
    rw [hs, ih hr, he]
    · simp
    · intro e' he' e'' he''
      rw [he] at he'
      rcases mem_append.mp he' with ho | hn
      · exact ha e' ho e'' (mem_cons_of_mem _ he'')
      · rw [mem_singleton.mp hn]
        exact hf e''.1 (mem_map_of_mem he'')

theorem insertAll_entries (m : SortedMap κ ν) : empty.insertAll m.entries = m := by
  apply ext
  rw [insertAll_after m.sorted (by simp [empty])]
  rfl

theorem mem_of_mem_insertAll (h : e ∈ (m.insertAll es).entries) : e ∈ m.entries ∨ e ∈ es := by
  induction es generalizing m with
  | nil => exact .inl h
  | cons e' es ih =>
    rcases @ih (m.insert e'.1 e'.2) h with hf | hr
    · rcases mem_insert.mp hf with rfl | ⟨hm, -⟩
      · exact .inr mem_cons_self
      · exact .inl hm
    · exact .inr (mem_cons_of_mem _ hr)

theorem mem_keys_insertAll {k : κ} : k ∈ (m.insertAll es).entries.map Prod.fst ↔
    k ∈ m.entries.map Prod.fst ∨ k ∈ es.map Prod.fst := by
  induction es generalizing m with
  | nil => simp [insertAll]
  | cons e es ih =>
    have hi : k ∈ (m.insert e.1 e.2).entries.map Prod.fst ↔ k = e.1 ∨ k ∈ m.entries.map Prod.fst := by
      simp only [mem_map, mem_insert]
      constructor
      · rintro ⟨x, rfl | ⟨hx, -⟩, rfl⟩
        · exact .inl rfl
        · exact .inr ⟨x, hx, rfl⟩
      · rintro (rfl | ⟨x, hx, rfl⟩)
        · exact ⟨_, .inl rfl, rfl⟩
        · by_cases hk : x.1 = e.1
          · exact ⟨_, .inl rfl, hk.symm⟩
          · exact ⟨x, .inr ⟨hx, hk⟩, rfl⟩
    show k ∈ ((m.insert e.1 e.2).insertAll es).entries.map Prod.fst ↔ _
    rw [ih, hi, map_cons, mem_cons]
    tauto

/-- Entries whose key has one value are all there. -/
theorem mem_insertAll (hes : ∀ a ∈ es, ∀ b ∈ es, a.1 = b.1 → a = b) : e ∈ (empty.insertAll es).entries ↔ e ∈ es := by
  have hsub : ∀ x ∈ (empty.insertAll es).entries, x ∈ es := fun x hx =>
    (mem_of_mem_insertAll hx).resolve_left (by simp [empty])
  constructor
  · exact hsub e
  · intro he
    obtain ⟨x, hx, hk⟩ := mem_map.mp (mem_keys_insertAll.mpr (.inr (mem_map_of_mem he)))
    rw [← hes x (hsub x hx) e he hk]
    exact hx

theorem insert_insert (m : SortedMap κ ν) (k : κ) (v : ν) : (m.insert k v).insert k v = m.insert k v := by
  apply eq_of_mem_iff
  intro e
  simp only [mem_insert]
  tauto

end SortedMap

end Mossward
