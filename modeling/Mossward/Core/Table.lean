import Mathlib.Data.List.Forall2
import Mathlib.Data.List.Nodup
import Mathlib.Data.List.Perm.Subperm
import Mathlib.Logic.Relation
import Mossward.Core.Ends

/-!
# Tables as lists of rows

A table is the list of its rows in the order they were inserted. A statement
`UPDATE … SET f WHERE p` is `updateWhere p f`, and
`INSERT … ON CONFLICT(key) DO NOTHING` is `insertIgnore key`. A primary key is
a function of the row under which the rows are pairwise distinct (`Keyed`).

Results:
* `Keyed.eq_of_key`, `Keyed.find?_eq`: a key picks out one row.
* `mem_of_mem_insertIgnore`: what a table holds after a run of ignoring inserts.
* `ends_require`, `ends_insertAll`: how the statements of a transaction end.
* `Evolves`, `find?_upsert`, `foldl_upsert_fresh`, `nodup_iff_covers`,
  `append_filter_notMem_perm`, `insertAll_ok_iff`, `transact_error`,
  `transact_invariant`.
-/
namespace Mossward.Table

open List Bool

variable {α κ : Type}

theorem lt_succ_foldr_max {l : List Nat} {n : Nat} (h : n ∈ l) : n < l.foldr max 0 + 1 := by
  induction l with
  | nil => cases h
  | cons m l ih =>
    simp only [foldr_cons]
    rcases mem_cons.mp h with rfl | h
    · omega
    · have := ih h
      omega

/-! ## Update statements -/

/-- `UPDATE t SET f WHERE p`. -/
def updateWhere (p : α → Bool) (f : α → α) (t : List α) : List α :=
  t.map fun r => if p r then f r else r

variable {p : α → Bool} {f : α → α}

theorem mem_updateWhere {t : List α} {r' : α} :
    r' ∈ updateWhere p f t ↔ ∃ r ∈ t, r' = if p r then f r else r := by
  simp only [updateWhere, mem_map, eq_comm]

theorem updateWhere_map {β : Type} (g : α → β)
    (h : ∀ r, p r → g (f r) = g r) (t : List α) : (updateWhere p f t).map g = t.map g := by
  rw [updateWhere, map_map]
  refine map_congr_left fun r _ => ?_
  by_cases hp : p r
  · simp [hp, h r hp]
  · simp [hp]

theorem find?_updateWhere {κ : Type} [DecidableEq κ] (key : α → κ)
    (h : ∀ r, p r → key (f r) = key r) (t : List α) (k : κ) :
    (updateWhere p f t).find? (fun r => key r = k) =
      (t.find? fun r => key r = k).map fun r => if p r then f r else r := by
  unfold updateWhere
  rw [find?_map]
  congr 2
  funext r
  by_cases hp : p r
  · simp [hp, h r hp]
  · simp [hp]

theorem updateWhere_none {t : List α} (h : ∀ r ∈ t, p r = false) : updateWhere p f t = t := by
  conv_rhs => rw [← map_id t]
  exact map_congr_left fun r hr => by simp [h r hr]

variable {q : α → Bool}

/-- Rows that a selection sees neither before nor after their update. -/
theorem filter_updateWhere (h : ∀ r, q r = true → p r = false ∧ p (f r) = false)
    (t : List α) : (updateWhere q f t).filter p = t.filter p := by
  induction t with
  | nil => rfl
  | cons r t ih =>
    unfold updateWhere at ih ⊢
    rw [map_cons, filter_cons, filter_cons, ih]
    by_cases hq : q r = true
    · rw [if_pos hq, (h r hq).1, (h r hq).2]
      rfl
    · rw [if_neg hq]

theorem countP_updateWhere_le (h : ∀ r, p (f r) = true → p r = true) (t : List α) :
    (updateWhere q f t).countP p ≤ t.countP p := by
  unfold updateWhere
  rw [countP_map]
  apply countP_mono_left
  intro r _ hr
  rw [Function.comp_apply] at hr
  split at hr
  · exact h r hr
  · exact hr

theorem mem_updateWhere_of_not (h : ∀ r, q (f r) = false) {t : List α} {r : α}
    (hr : r ∈ updateWhere p f t) (hq : q r = true) : r ∈ t ∧ p r = false := by
  obtain ⟨r0, hr0, rfl⟩ := mem_updateWhere.mp hr
  by_cases hp : p r0 = true
  · rw [if_pos hp, h] at hq
    cases hq
  · rw [if_neg hp]
    exact ⟨hr0, by simpa using hp⟩

theorem updateWhere_perm (p : α → Bool) (f : α → α) (t : List α) :
    (updateWhere p f t).Perm ((t.filter fun r => !p r) ++ (t.filter p).map f) := by
  induction t with
  | nil => exact .nil
  | cons r t ih =>
    unfold updateWhere at ih ⊢
    cases hr : p r with
    | true =>
      rw [filter_cons_of_neg (by simp [hr]), filter_cons_of_pos hr, map_cons, if_pos hr]
      exact (ih.cons _).trans perm_middle.symm
    | false =>
      rw [map_cons, filter_cons_of_pos (by simp [hr]), filter_cons_of_neg (by simp [hr]), if_neg (by simp [hr])]
      exact ih.cons _

/-- A run of updates to one value is one update: the rows that some of them
select. -/
theorem foldl_updateWhere {ι : Type} {selects : ι → α → Bool}
    (hf : ∀ r, f (f r) = f r) (is : List ι) (t : List α) :
    is.foldl (fun t i => updateWhere (fun r => selects i r && q r) f t) t =
      updateWhere (fun r => is.any (fun i => selects i r) && q r) f t := by
  induction is generalizing t with
  | nil => exact (updateWhere_none fun _ _ => rfl).symm
  | cons i is ih =>
    rw [foldl_cons, ih]
    unfold updateWhere
    rw [map_map]
    refine map_congr_left fun r _ => ?_
    by_cases hr : selects i r && q r
    · have ha : (any (i :: is) fun i => selects i r) && q r := by
        simp only [any_cons, and_eq_true, or_eq_true] at hr ⊢
        exact ⟨.inl hr.1, hr.2⟩
      simp only [Function.comp_apply, if_pos hr, if_pos ha, hf, ite_self]
    · by_cases hq : q r
      · simp only [hq, Bool.and_true] at hr
        simp [hr]
      · simp [hq]

/-! ## Evolution of a table -/

/-- Row by row, the second table comes from the first by row transitions. -/
def Evolves (R : α → α → Prop) (t t' : List α) : Prop :=
  List.Forall₂ (Relation.ReflTransGen R) t t'

section
variable {R : α → α → Prop} {t t' t'' : List α}

theorem Evolves.refl (R : α → α → Prop) (t : List α) : Evolves R t t := forall₂_same.mpr fun _ _ => .refl

theorem Evolves.trans (h : Evolves R t t') (h' : Evolves R t' t'') : Evolves R t t'' := by
  induction h generalizing t'' with
  | nil => exact h'
  | cons hr _ ih =>
    cases h' with
    | cons hr' h' => exact .cons (hr.trans hr') (ih h')

theorem evolves_updateWhere {p : α → Bool} {f : α → α} (h : ∀ r ∈ t, p r → R r (f r)) :
    Evolves R t (updateWhere p f t) := by
  unfold Evolves updateWhere
  rw [forall₂_map_right_iff]
  refine forall₂_same.mpr fun r hr => ?_
  by_cases hp : p r
  · rw [if_pos hp]
    exact .single (h r hr hp)
  · rw [if_neg hp]

theorem Evolves.mono {S : α → α → Prop} (h : Evolves R t t') (hRS : ∀ a b, R a b → S a b) : Evolves S t t' :=
  List.Forall₂.imp (fun a b ha => Relation.ReflTransGen.mono hRS a b ha) h

theorem Evolves.backward (h : Evolves R t t') {r' : α} (hr' : r' ∈ t') :
    ∃ r ∈ t, Relation.ReflTransGen R r r' := by
  induction h with
  | nil => cases hr'
  | cons hr _ ih =>
    rcases mem_cons.mp hr' with rfl | hr'
    · exact ⟨_, mem_cons_self, hr⟩
    · obtain ⟨r, hm, hs⟩ := ih hr'
      exact ⟨r, mem_cons_of_mem _ hm, hs⟩

theorem Evolves.forward (h : Evolves R t t') {r : α} (hr : r ∈ t) :
    ∃ r' ∈ t', Relation.ReflTransGen R r r' := by
  induction h with
  | nil => cases hr
  | cons hr1 _ ih =>
    rcases mem_cons.mp hr with rfl | hr
    · exact ⟨_, mem_cons_self, hr1⟩
    · obtain ⟨r', hm, hs⟩ := ih hr
      exact ⟨r', mem_cons_of_mem _ hm, hs⟩

theorem Evolves.map_eq {β : Type} {g : α → β} (h : Evolves R t t') (hg : ∀ a b, R a b → g a = g b) :
    t.map g = t'.map g := by
  induction h with
  | nil => rfl
  | cons hr _ ih =>
    rw [map_cons]
    congr 1
    induction hr with
    | refl => rfl
    | tail _ hl ih' => exact ih'.trans (hg _ _ hl)

end

/-! ## Keys -/

/-- The rows have pairwise distinct keys. -/
def Keyed (key : α → κ) (t : List α) : Prop := (t.map key).Nodup

section
variable {key : α → κ} {t : List α}

variable {r : α}

theorem Keyed.eq_of_key (h : Keyed key t) {r' : α} (hr : r ∈ t) (hr' : r' ∈ t)
    (hk : key r = key r') : r = r' :=
  inj_on_of_nodup_map h hr hr' hk

theorem Keyed.append_singleton (h : Keyed key t) (hr : ∀ r' ∈ t, key r' ≠ key r) : Keyed key (t ++ [r]) := by
  rw [Keyed, map_append, nodup_append]
  refine ⟨h, by simp, ?_⟩
  intro a ha b hb
  obtain ⟨r', hr', rfl⟩ := mem_map.mp ha
  simp only [map_cons, map_nil, mem_singleton] at hb
  exact hb ▸ hr r' hr'

variable {p : α → Bool}

theorem Keyed.updateWhere {f : α → α} (h : Keyed key t) (hf : ∀ r, p r → key (f r) = key r) :
    Keyed key (updateWhere p f t) := by
  unfold Keyed
  rw [updateWhere_map _ hf]
  exact h

theorem Keyed.of_part {β : Type} {part : κ → β} (h : Keyed (fun r => part (key r)) t) : Keyed key t := by
  apply List.Nodup.of_map part
  rw [map_map]
  exact h

theorem Keyed.filter (h : Keyed key t) (p : α → Bool) : Keyed key (t.filter p) :=
  h.sublist (filter_sublist.map key)

variable [DecidableEq κ]

theorem Keyed.find?_eq (h : Keyed key t) (hr : r ∈ t) : t.find? (fun x => key x = key r) = some r := by
  cases hf : t.find? (fun x => key x = key r) with
  | none =>
    have := find?_eq_none.mp hf r hr
    simp at this
  | some r' =>
    have hk := find?_some hf
    have hm := mem_of_find?_eq_some hf
    rw [h.eq_of_key hm hr (by simpa using hk)]

theorem Keyed.filter_eq (h : Keyed key t) (hr : r ∈ t) : t.filter (fun x => key x = key r) = [r] := by
  induction t with
  | nil => cases hr
  | cons x xs ih =>
    obtain ⟨hn, h⟩ := nodup_cons.mp h
    rcases mem_cons.mp hr with rfl | hr
    · rw [filter_cons_of_pos (by simp), filter_eq_nil_iff.mpr]
      intro y hy
      simp only [decide_eq_true_eq]
      exact fun he => hn (mem_map.mpr ⟨y, hy, he⟩)
    · rw [filter_cons_of_neg, ih h hr]
      simp only [decide_eq_true_eq]
      exact fun he => hn (mem_map.mpr ⟨r, hr, he.symm⟩)

theorem Keyed.countP_eq_one (h : Keyed key t) (hr : r ∈ t) (hp : p r = true)
    (hke : ∀ x ∈ t, p x = true → key x = key r) : t.countP p = 1 := by
  have hf : t.filter p = t.filter (fun x => key x = key r) := by
    refine filter_congr fun x hx => ?_
    by_cases hk : key x = key r
    · simp [h.eq_of_key hx hr hk, hp]
    · have hpx : p x = false := eq_false_iff.mpr fun hpx => hk (hke x hx hpx)
      simp [hk, hpx]
  rw [countP_eq_length_filter, hf, h.filter_eq hr]
  rfl

theorem Keyed.none_of_countP_ne_one (h : Keyed key t) {k : κ}
    (hk : ∀ x ∈ t, p x = true → key x = k) (hc : t.countP p ≠ 1) : ∀ x ∈ t, p x = false := by
  intro x hx
  by_contra hp
  rw [not_eq_false] at hp
  apply hc
  apply h.countP_eq_one hx hp
  intro y hy hpy
  rw [hk y hy hpy, hk x hx hp]

/-- `INSERT INTO t … ON CONFLICT(key) DO NOTHING` for each of the rows. -/
def insertIgnore (key : α → κ) : List α → List α → List α
  | t, [] => t
  | t, r :: rs => insertIgnore key (if t.any (fun x => key x = key r) then t else t ++ [r]) rs

variable {rs : List α}

theorem mem_of_mem_insertIgnore {x : α} (hx : x ∈ insertIgnore key t rs) : x ∈ t ∨ x ∈ rs := by
  induction rs generalizing t with
  | nil => exact .inl hx
  | cons r rs ih =>
    rcases ih hx with h | h
    · split at h
      · exact .inl h
      · rcases mem_append.mp h with h | h
        · exact .inl h
        · exact .inr (by simp [mem_singleton.mp h])
    · exact .inr (mem_cons_of_mem _ h)

theorem subset_insertIgnore (t rs : List α) : t ⊆ insertIgnore key t rs := by
  induction rs generalizing t with
  | nil => exact List.Subset.refl _
  | cons r rs ih =>
    refine List.Subset.trans ?_ (ih _)
    split
    · exact List.Subset.refl _
    · exact subset_append_left _ _

theorem exists_key_insertIgnore (hr : r ∈ rs) (t : List α) : ∃ x ∈ insertIgnore key t rs, key x = key r := by
  induction rs generalizing t with
  | nil => cases hr
  | cons r0 rs ih =>
    unfold insertIgnore
    rcases mem_cons.mp hr with rfl | hr
    · split
      · rename_i ha
        obtain ⟨x, hx, hk⟩ := any_eq_true.mp ha
        exact ⟨x, subset_insertIgnore _ _ hx, by simpa using hk⟩
      · exact ⟨r, subset_insertIgnore _ _ (mem_append_right _ (mem_singleton_self r)), rfl⟩
    · exact ih hr _

theorem keyed_insertIgnore (h : Keyed key t) (rs : List α) : Keyed key (insertIgnore key t rs) := by
  induction rs generalizing t with
  | nil => exact h
  | cons r rs ih =>
    refine ih ?_
    split
    · exact h
    · rename_i ha
      refine h.append_singleton fun r' hr' he => ha ?_
      exact any_eq_true.mpr ⟨r', hr', by simpa using he⟩

theorem filter_insertIgnore (h : ∀ r ∈ rs, p r = false) (t : List α) :
    (insertIgnore key t rs).filter p = t.filter p := by
  induction rs generalizing t with
  | nil => rfl
  | cons r rs ih =>
    unfold insertIgnore
    rw [ih (fun x hx => h x (mem_cons_of_mem _ hx))]
    split
    · rfl
    · simp [h r mem_cons_self]

/-- `INSERT INTO t … ON CONFLICT(key) DO UPDATE SET merge`. -/
def upsert (key : α → κ) (merge : α → α) (t : List α) (r : α) : List α :=
  if t.any (fun x => key x = key r) then updateWhere (fun x => key x = key r) merge t else t ++ [r]

variable {merge : α → α}

theorem mem_of_mem_upsert {x : α} (h : x ∈ upsert key merge t r) :
    x ∈ t ∨ (∃ y ∈ t, key y = key r ∧ x = merge y) ∨ x = r ∧ ∀ y ∈ t, key y ≠ key r := by
  unfold upsert at h
  split at h
  · obtain ⟨y, hy, rfl⟩ := mem_updateWhere.mp h
    split
    · rename_i hk
      exact .inr (.inl ⟨y, hy, by simpa using hk, rfl⟩)
    · exact .inl hy
  rename_i ha
  rcases mem_append.mp h with h | h
  · exact .inl h
  · refine .inr (.inr ⟨mem_singleton.mp h, fun y hy he => ha ?_⟩)
    exact any_eq_true.mpr ⟨y, hy, by simpa using he⟩

theorem exists_key_upsert (hm : ∀ x, key (merge x) = key x) (r : α) :
    ∃ x ∈ upsert key merge t r, key x = key r := by
  unfold upsert
  split
  · rename_i ha
    obtain ⟨y, hy, hk⟩ := any_eq_true.mp ha
    refine ⟨merge y, mem_updateWhere.mpr ⟨y, hy, by rw [if_pos hk]⟩, ?_⟩
    rw [hm]
    simpa using hk
  · exact ⟨r, by simp, rfl⟩

theorem column_mem_upsert {β : Type} {col : α → β}
    (hm : ∀ x, col (merge x) = col x) (r : α) {x : α} (hx : x ∈ t) :
    ∃ x' ∈ upsert key merge t r, col x' = col x := by
  unfold upsert
  split
  · refine ⟨_, mem_updateWhere.mpr ⟨x, hx, rfl⟩, ?_⟩
    split
    · exact hm x
    · rfl
  · exact ⟨x, by simp [hx], rfl⟩

theorem upsert_fresh (h : ∀ x ∈ t, key x ≠ key r) : upsert key merge t r = t ++ [r] := by
  unfold upsert
  rw [if_neg]
  intro ha
  obtain ⟨x, hx, hk⟩ := any_eq_true.mp ha
  exact h x hx (by simpa using hk)

theorem keyed_upsert (h : Keyed key t) (hm : ∀ x, key (merge x) = key x) (r : α) :
    Keyed key (upsert key merge t r) := by
  by_cases hf : ∀ x ∈ t, key x ≠ key r
  · rw [upsert_fresh hf]
    exact h.append_singleton hf
  unfold upsert
  split
  · exact h.updateWhere fun x _ => hm x
  · rename_i ha
    refine absurd (fun x hx hk => ha ?_) hf
    exact any_eq_true.mpr ⟨x, hx, by simpa using hk⟩

theorem foldl_upsert_fresh {merge : α → α → α} (hr : Keyed key rs) (hf : ∀ r ∈ rs, ∀ x ∈ t, key x ≠ key r) :
    rs.foldl (fun t r => upsert key (merge r) t r) t = t ++ rs := by
  induction rs generalizing t with
  | nil => simp
  | cons r rs ih =>
    obtain ⟨hn, hr⟩ := nodup_cons.mp hr
    rw [foldl_cons, upsert_fresh (hf r mem_cons_self), ih hr]
    · simp
    · intro r' hr' x hx
      rcases mem_append.mp hx with hx | hx
      · exact hf r' (mem_cons_of_mem _ hr') x hx
      · rw [mem_singleton.mp hx]
        exact fun he => hn (mem_map.mpr ⟨r', hr', he.symm⟩)

theorem find?_upsert (hm : ∀ x, key x = key r → key (merge x) = key r) (t : List α) (k : κ) :
    (upsert key merge t r).find? (fun x => key x = k) =
      if k = key r then some (((t.find? fun x => key x = k).map merge).getD r)
      else t.find? fun x => key x = k := by
  by_cases hf : ∀ x ∈ t, key x ≠ key r
  · rw [upsert_fresh hf, find?_append]
    by_cases hk : k = key r
    · have hn : t.find? (fun x => key x = k) = none := by
        rw [find?_eq_none]
        intro x hx
        simpa [hk] using hf x hx
      rw [hn]
      simp [hk]
    · rw [if_neg hk]
      simp [Ne.symm hk]
  have ha : t.any (fun x => key x = key r) := by
    simp only [not_forall] at hf
    obtain ⟨x, hx, hk⟩ := hf
    exact any_eq_true.mpr ⟨x, hx, by simpa using hk⟩
  unfold upsert
  rw [if_pos ha, find?_updateWhere key fun x hx => by
    rw [decide_eq_true_eq] at hx
    rw [hm x hx, hx]]
  cases hfi : t.find? fun x => key x = k with
  | none =>
    have hk : k ≠ key r := by
      intro hk
      obtain ⟨x, hx, hxk⟩ := any_eq_true.mp ha
      exact find?_eq_none.mp hfi x hx (by simpa [hk] using hxk)
    simp [hk]
  | some y =>
    have hy : key y = k := by simpa using find?_some hfi
    by_cases hk : k = key r <;> simp [hy, hk]

end

/-- As many rows as there are places, all in place: they fill every place
exactly when no two share one. -/
theorem nodup_iff_covers {l m : List α} (hm : m.Nodup) (hs : l ⊆ m) (hle : l.length = m.length) :
    l.Nodup ↔ m ⊆ l := by
  constructor
  · intro hl
    have hp := (subperm_of_subset hl hs).perm_of_length_le (Nat.le_of_eq hle.symm)
    exact hp.symm.subset
  · intro hc
    have hp := (subperm_of_subset hm hc).perm_of_length_le (Nat.le_of_eq hle)
    exact hp.nodup_iff.mp hm

theorem append_filter_notMem_perm {l m : List α} [DecidablePred (· ∉ l)] (hl : l.Nodup) (hm : m.Nodup) (hs : l ⊆ m) :
    (l ++ m.filter (· ∉ l)).Perm m := by
  refine (perm_ext_iff_of_nodup ?_ hm).mpr fun x => ?_
  · refine hl.append (hm.filter _) fun x hx hx' => ?_
    exact of_decide_eq_true (mem_filter.mp hx').2 hx
  · simp only [mem_append, mem_filter, decide_eq_true_eq]
    constructor
    · intro hx
      rcases hx with hx | ⟨hx, -⟩
      · exact hs hx
      · exact hx
    · intro hx
      by_cases hd : x ∈ l
      · exact .inl hd
      · exact .inr ⟨hx, hd⟩

/-! ## Plain inserts -/

section
variable {ε : Type}

variable {β : Type}

theorem ite_error_eq_ok {c : Prop} [Decidable c] {e : ε} {x : Except ε α} {a : α} :
    (if c then .error e else x) = .ok a ↔ ¬ c ∧ x = .ok a := by
  split <;> simp [*]

theorem bind_eq_ok {x : Except ε α} {f : α → Except ε β} {b : β} :
    (x >>= f) = .ok b ↔ ∃ a, x = .ok a ∧ f a = .ok b := by
  cases x with
  | error e => simp [bind, Except.bind]
  | ok a => simp [bind, Except.bind]

theorem map_eq_ok {x : Except ε α} {f : α → β} {b : β} : x.map f = .ok b ↔ ∃ a, x = .ok a ∧ f a = b := by
  cases x with
  | error e => simp [Except.map]
  | ok a => simp [Except.map]

section
variable {f : α → Except ε β} {xs : List α} {ys : List β} (h : xs.mapM f = .ok ys)
include h

theorem mem_mapM_ok
    {y : β} : y ∈ ys ↔ ∃ x ∈ xs, f x = .ok y := by
  induction xs generalizing ys with
  | nil =>
    cases h
    simp
  | cons x xs ih =>
    rw [mapM_cons] at h
    obtain ⟨z, hz, hr⟩ := bind_eq_ok.mp h
    obtain ⟨zs, hzs, hy⟩ := bind_eq_ok.mp hr
    cases hy
    simp [ih hzs, hz, eq_comm]

theorem exists_of_mapM_ok
    {x : α} (hx : x ∈ xs) : ∃ y, f x = .ok y := by
  induction xs generalizing ys with
  | nil => cases hx
  | cons x' xs ih =>
    rw [mapM_cons] at h
    obtain ⟨z, hz, hr⟩ := bind_eq_ok.mp h
    obtain ⟨zs, hzs, -⟩ := bind_eq_ok.mp hr
    rcases mem_cons.mp hx with rfl | hx
    · exact ⟨z, hz⟩
    · exact ih hzs hx

end

theorem mapM_total {f : α → Except ε β} {xs : List α} (h : ∀ x ∈ xs, ∃ y, f x = .ok y) :
    ∃ ys, xs.mapM f = .ok ys := by
  induction xs with
  | nil => exact ⟨[], rfl⟩
  | cons x xs ih =>
    obtain ⟨y, hy⟩ := h x mem_cons_self
    obtain ⟨ys, hys⟩ := ih fun z hz => h z (mem_cons_of_mem _ hz)
    refine ⟨y :: ys, ?_⟩
    rw [mapM_cons, hy, hys]
    rfl

/-- A constraint of the statement: the error when it does not hold. -/
def require (holds : Bool) (e : ε) : Except ε Unit := if holds then .ok () else .error e

theorem require_eq_ok {ho : Bool} {e : ε} {u : Unit} : require ho e = .ok u ↔ ho := by
  cases ho <;> simp [require]

theorem ends_require {E : ε → Prop} {ho : Bool} {e : ε} (he : E e) : Ends (fun _ => ho) E (require ho e) := by
  cases ho with
  | true => exact rfl
  | false => exact he

/-- A transaction that ends with an error is rolled back. -/
def transact {σ : Type} (tx : σ → Except ε σ) (s : σ) : Except ε Unit × σ :=
  match tx s with
  | .error e => (.error e, s)
  | .ok s' => (.ok (), s')

section
variable {σ : Type} {tx : σ → Except ε σ} {s s' : σ}

theorem transact_of_ok (h : tx s = .ok s') : transact tx s = (.ok (), s') := by
  unfold transact
  rw [h]

theorem transact_of_error {e : ε} (h : tx s = .error e) : transact tx s = (.error e, s) := by
  unfold transact
  rw [h]

theorem transact_error {e : ε} (h : (transact tx s).1 = .error e) : (transact tx s).2 = s := by
  cases ht : tx s with
  | error e' => rw [transact_of_error ht]
  | ok s' =>
    rw [transact_of_ok ht] at h
    cases h

theorem transact_invariant {I : σ → Prop} (hs : I s) (ht : ∀ s', tx s = .ok s' → I s') : I (transact tx s).2 := by
  cases hr : tx s with
  | error e =>
    rw [transact_of_error hr]
    exact hs
  | ok s' =>
    rw [transact_of_ok hr]
    exact ht s' hr

end

/-- `INSERT INTO t` for each of the rows; `refuse` is the error for a row that
the table does not take, which ends the transaction. -/
def insertAll (refuse : List α → α → Option ε) : List α → List α → Except ε (List α)
  | t, [] => .ok t
  | t, r :: rs =>
    match refuse t r with
    | some e => .error e
    | none => insertAll refuse (t ++ [r]) rs

theorem ends_insertAll {refuse : List α → α → Option ε} {E : ε → Prop}
    (hE : ∀ t r e, refuse t r = some e → E e) (t rs : List α) :
    Ends (fun _ => True) E (insertAll refuse t rs) := by
  induction rs generalizing t with
  | nil => trivial
  | cons r rs ih =>
    cases hr : refuse t r with
    | some e =>
      simp only [insertAll, hr]
      exact hE t r e hr
    | none =>
      simp only [insertAll, hr]
      exact ih _

theorem insertAll_ok_iff {refuse : List α → α → Option ε} {key : α → κ} {P : α → Prop}
    (hrefuse : ∀ t r, refuse t r = none ↔ P r ∧ ∀ x ∈ t, key x ≠ key r) {t t' rs : List α} :
    insertAll refuse t rs = .ok t' ↔
      ((∀ r ∈ rs, P r) ∧ Keyed key rs ∧ ∀ r ∈ rs, ∀ x ∈ t, key x ≠ key r) ∧ t' = t ++ rs := by
  induction rs generalizing t with
  | nil => simp [insertAll, Keyed, eq_comm]
  | cons r rs ih =>
    cases hr : refuse t r with
    | some e =>
      have hnot : ¬ (P r ∧ ∀ x ∈ t, key x ≠ key r) := fun hp => by
        rw [(hrefuse t r).mpr hp] at hr
        cases hr
      simp only [insertAll, hr, reduceCtorEq, false_iff]
      intro ⟨⟨hP, _, hfresh⟩, _⟩
      exact hnot ⟨hP r mem_cons_self, hfresh r mem_cons_self⟩
    | none =>
      obtain ⟨hP, hfresh⟩ := (hrefuse t r).mp hr
      simp only [insertAll, hr]
      rw [ih, append_assoc]
      refine and_congr_left fun _ => ?_
      constructor
      · rintro ⟨hPs, hk, hf⟩
        refine ⟨fun x hx => ?_, ?_, fun x hx y hy => ?_⟩
        · rcases mem_cons.mp hx with rfl | hx
          · exact hP
          · exact hPs x hx
        · refine nodup_cons.mpr ⟨fun hmem => ?_, hk⟩
          obtain ⟨x, hx, he⟩ := mem_map.mp hmem
          exact hf x hx r (by simp) he.symm
        · rcases mem_cons.mp hx with rfl | hx
          · exact hfresh y hy
          · exact hf x hx y (by simp [hy])
      · rintro ⟨hPs, hk, hf⟩
        obtain ⟨hnot, hk⟩ := nodup_cons.mp hk
        refine ⟨fun x hx => hPs x (mem_cons_of_mem _ hx), hk, fun x hx y hy => ?_⟩
        rcases mem_append.mp hy with hy | hy
        · exact hf x (mem_cons_of_mem _ hx) y hy
        · rw [mem_singleton.mp hy]
          exact fun he => hnot (mem_map.mpr ⟨x, hx, he.symm⟩)

end

end Mossward.Table
