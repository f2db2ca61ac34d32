import Mathlib.Data.List.SplitBy
import Mathlib.Data.Sum.Order
import Mossward.Core.Compare
import Mossward.L1Encoding.Names

/-!
# The order of product versions (`internal/intelligence/version.go`)

A version is compared part by part, with the empty text for the parts that the
shorter one lacks. That is the lexicographic order of the parts without trailing
zeros, padded to any common length, so it is a total preorder; and the versions
that a set of bounds takes in lie together.

Result: `versions_ordered`.
-/
namespace Mossward.L1.Names

open Std (TransCmp OrientedCmp ReflCmp)
open Compare List
open L1.NetAddr

/-! ## Parts -/

/-- Texts below numbers. -/
def VersionPart.key : VersionPart → Lex (String ⊕ Nat)
  | .text s => toLex (.inl s)
  | .number n => toLex (.inr n)

theorem compare_of_tests {α : Type} [LinearOrder α] (a b : α) :
    (if a < b then Ordering.lt else if b < a then .gt else .eq) = compare a b := by
  rcases lt_trichotomy a b with h | rfl | h
  · rw [if_pos h, compare_lt_iff_lt.mpr h]
  · simp
  · rw [if_neg h.not_gt, if_pos h, compare_gt_iff_gt.mpr h]

theorem comparePart_eq (a b : VersionPart) : comparePart a b = compare a.key b.key := by
  cases a with
  | number m =>
    cases b with
    | number n =>
      rw [← compare_of_tests]
      simp only [VersionPart.key, Sum.Lex.inr_lt_inr_iff, comparePart]
    | text t =>
      exact compare_gt_iff_gt.mpr (Sum.Lex.inl_lt_inr t m)
  | text s =>
    cases b with
    | number n =>
      exact compare_lt_iff_lt.mpr (Sum.Lex.inl_lt_inr s n)
    | text t =>
      rw [← compare_of_tests]
      simp only [VersionPart.key, Sum.Lex.inl_lt_inl_iff, comparePart]

instance : TransCmp comparePart := transCmp_of_key VersionPart.key comparePart_eq

/-! ## Lists of parts -/

theorem compareParts_succ (n : Nat) :
    compareParts (n + 1) = compareLex (fun as bs => comparePart (as.headD .absent) (bs.headD .absent))
      (fun as bs => compareParts n as.tail bs.tail) := by
  funext as bs
  cases comparePart (as.headD .absent) (bs.headD .absent) <;> rfl

instance (n : Nat) : TransCmp (compareParts n) := by
  induction n with
  | zero =>
    exact { eq_swap := rfl, isLE_trans := fun _ _ => rfl }
  | succ n ih =>
    rw [compareParts_succ]
    have hhead : TransCmp fun as bs : List VersionPart => comparePart (as.headD .absent) (bs.headD .absent) :=
      transCmp_comap _
    have htail : TransCmp fun as bs : List VersionPart => compareParts n as.tail bs.tail := transCmp_comap _
    infer_instance

theorem compareParts_nil (n : Nat) : compareParts n [] [] = .eq := ReflCmp.compare_self

theorem compareParts_rounds {n m : Nat} {as bs : List VersionPart} (ha : as.length ≤ n) (hb : bs.length ≤ n)
    (ham : as.length ≤ m) (hbm : bs.length ≤ m) : compareParts n as bs = compareParts m as bs := by
  induction n generalizing m as bs with
  | zero =>
    rw [length_eq_zero_iff.mp (by omega : as.length = 0), length_eq_zero_iff.mp (by omega : bs.length = 0),
      compareParts_nil, compareParts_nil]
  | succ n ih =>
    cases m with
    | zero =>
      rw [length_eq_zero_iff.mp (by omega : as.length = 0), length_eq_zero_iff.mp (by omega : bs.length = 0),
        compareParts_nil, compareParts_nil]
    | succ m =>
      have hr : compareParts n as.tail bs.tail = compareParts m as.tail bs.tail := by
        apply ih <;> (rw [length_tail]; omega)
      rw [compareParts, compareParts, hr]

section
variable (lower : Char → Char)

/-- The parts that are compared. -/
def comparedParts (version : String) : List VersionPart :=
  trimTrailingZeroParts (versionParts (cleanVersion lower version))

theorem compareVersions_eq {n : Nat} {a b : String} (ha : (comparedParts lower a).length ≤ n)
    (hb : (comparedParts lower b).length ≤ n) :
    compareVersions lower a b = compareParts n (comparedParts lower a) (comparedParts lower b) :=
  compareParts_rounds (le_max_left _ _) (le_max_right _ _) ha hb

instance : TransCmp (compareVersions lower) where
  eq_swap {a b} := (compareVersions_swap lower b a).symm
  isLE_trans {a b c} hab hbc := by
    -- one number of rounds for the three of them
    let n := max (comparedParts lower a).length (max (comparedParts lower b).length (comparedParts lower c).length)
    have ha : (comparedParts lower a).length ≤ n := le_max_left _ _
    have hb : (comparedParts lower b).length ≤ n := (le_max_left _ _).trans (le_max_right _ _)
    have hc : (comparedParts lower c).length ≤ n := (le_max_right _ _).trans (le_max_right _ _)
    rw [compareVersions_eq lower ha hb] at hab
    rw [compareVersions_eq lower hb hc] at hbc
    rw [compareVersions_eq lower ha hc]
    exact TransCmp.isLE_trans hab hbc

/-! ## Trailing zeros -/

theorem digit_range {c : Char} (h : c.isDigit = true) : 48 ≤ c.toNat ∧ c.toNat ≤ 57 := by
  simp only [Char.isDigit, Bool.and_eq_true, decide_eq_true_eq] at h
  exact h

theorem isSpace_digit {c : Char} (h : c.isDigit = true) : isSpace c = false := by
  have hr := digit_range h
  simp only [isSpace, mem_cons, not_mem_nil, or_false, Bool.or_eq_false_iff, decide_eq_false_iff_not,
    Bool.and_eq_false_iff]
  omega

theorem toLower_digit {c : Char} (h : c.isDigit = true) : toLower lower [c] = [c] := by
  have hr := digit_range h
  have hl : c.toLower = c := by
    unfold Char.toLower
    rw [dif_neg]
    intro hu
    have hle : 65 ≤ c.toNat := UInt32.le_iff_toNat_le.mp hu.1
    omega
  simp [toLower, hl, show c.toNat < 128 by omega]

theorem dropWhile_digit (init : List Char) {d : Char} (hd : d.isDigit = true) (rest : List Char) :
    (init ++ d :: rest).dropWhile isSpace = init.dropWhile isSpace ++ d :: rest := by
  rw [dropWhile_append]
  split
  · rename_i he
    rw [isEmpty_iff.mp he, dropWhile_cons_of_neg (by simp [isSpace_digit hd]), nil_append]
  · rfl

theorem cleanVersion_append {v : String} {init : List Char} {d : Char} (hd : d.isDigit = true)
    (hv : v.toList = init ++ [d]) :
    cleanVersion lower (v ++ ".0") = cleanVersion lower v ++ ['.', '0'] ∧
      ∀ c ∈ (cleanVersion lower v).getLast?, c.isDigit = true := by
  have ht : trimSpace v.toList = init.dropWhile isSpace ++ [d] := by
    rw [hv, trimSpace, dropWhile_digit init hd, rdropWhile_concat_neg _ _ _ (by simp [isSpace_digit hd])]
  have ht' : trimSpace (v ++ ".0").toList = init.dropWhile isSpace ++ [d] ++ ['.', '0'] := by
    have hap : (v ++ ".0").toList = init ++ d :: ['.', '0'] := by
      rw [String.toList_append, hv]
      simp
    rw [hap, trimSpace, dropWhile_digit init hd]
    have hs : init.dropWhile isSpace ++ d :: ['.', '0'] = (init.dropWhile isSpace ++ [d, '.']) ++ ['0'] := by simp
    rw [hs, rdropWhile_concat_neg _ _ _ (by decide)]
    simp
  have hl : ∀ s t : List Char, toLower lower (s ++ t) = toLower lower s ++ toLower lower t := by
    intro s t
    exact map_append
  unfold cleanVersion
  rw [ht, ht', hl, hl, toLower_digit lower hd]
  have hz : toLower lower ['.', '0'] = ['.', '0'] := rfl
  rw [hz]
  generalize toLower lower (init.dropWhile isSpace) = s
  cases s with
  | nil =>
    have hn : d ≠ 'v' := by
      rintro rfl
      exact absurd hd (by decide)
    simp [hn, hd]
  | cons a s =>
    by_cases ha : a = 'v'
    · simp [ha, hd]
    have hla : (a :: (s ++ [d])).getLast? = some d := by
      rw [← cons_append]
      exact getLast?_concat
    simp [ha, hd, hla]

theorem versionParts_append {s : List Char} (h : ∀ c ∈ s.getLast?, c.isDigit = true) :
    versionParts (s ++ ['.', '0']) = versionParts s ++ [.number 0] := by
  unfold versionParts
  rw [splitBy_append, filterMap_append]
  · rfl
  · intro c hc y hy
    obtain rfl : '.' = y := Option.some.inj hy
    rw [h c hc]
    rfl

theorem comparedParts_append {v : String} {init : List Char} {d : Char} (hd : d.isDigit = true)
    (hv : v.toList = init ++ [d]) : comparedParts lower (v ++ ".0") = comparedParts lower v := by
  obtain ⟨hc, hl⟩ := cleanVersion_append lower hd hv
  rw [comparedParts, hc, versionParts_append hl, trimTrailingZeroParts, rdropWhile_concat_pos _ _ _ (by simp)]
  rfl

/-! ## Bounds -/

/-- What the bounds ask of a cleaned version. -/
structure Within (affected si se ei ee c : String) : Prop where
  version : affected = "" ∨ affected = "*" ∨ affected = "-" ∨ compareVersions lower c affected = .eq
  startIncluding : si = "" ∨ (compareVersions lower si c).isLE = true
  startExcluding : se = "" ∨ compareVersions lower se c = .lt
  endIncluding : ei = "" ∨ (compareVersions lower c ei).isLE = true
  endExcluding : ee = "" ∨ compareVersions lower c ee = .lt

theorem versionAffected_iff {aff si se ei ee o : String} : versionAffected lower o aff si se ei ee = true ↔
      cleanVersion lower o ≠ [] ∧ Within lower aff si se ei ee (String.ofList (cleanVersion lower o)) := by
  have hi : ∀ (p : Prop) [Decidable p] (b : Bool), (if p then false else b) = true ↔ ¬ p ∧ b = true := by
    intro p _ b
    by_cases hp : p <;> simp [hp]
  -- the tests with the versions the other way round
  have hno : ∀ a b, ¬ compareVersions lower a b = .lt ↔ (compareVersions lower b a).isLE = true := by
    intro a b
    rw [← compareVersions_swap]
    cases compareVersions lower b a <;> decide
  have hg : ∀ a b, compareVersions lower a b = .gt ↔ compareVersions lower b a = .lt := by
    intro a b
    rw [← compareVersions_swap]
    cases compareVersions lower b a <;> decide
  have hn : ∀ a b, ¬ compareVersions lower a b = .gt ↔ (compareVersions lower a b).isLE = true := by
    intro a b
    cases compareVersions lower a b <;> decide
  generalize hc : String.ofList (cleanVersion lower o) = c
  have he : cleanVersion lower o = [] ↔ c = "" := by
    rw [← hc]
    simp
  unfold versionAffected
  simp only [hc, hi, ne_eq, he, Bool.and_eq_true, decide_eq_true_eq, and_true, not_and_or, not_not, or_assoc]
  rw [hno c si, hg c se, hn c ei]
  exact ⟨fun ⟨h, h1, h2, h3, h4, h5⟩ => ⟨h, ⟨h1, h2, h3, h4, h5⟩⟩,
    fun ⟨h, w⟩ => ⟨h, w.version, w.startIncluding, w.startExcluding, w.endIncluding, w.endExcluding⟩⟩

theorem Within.convex {aff si se ei ee c1 c c2 : String} (h1 : Within lower aff si se ei ee c1)
    (h2 : Within lower aff si se ei ee c2) (hl1 : (compareVersions lower c1 c).isLE = true)
    (hl2 : (compareVersions lower c c2).isLE = true) : Within lower aff si se ei ee c where
  version := by
    rcases h1.version with h | h | h | h
    · exact .inl h
    · exact .inr (.inl h)
    · exact .inr (.inr (.inl h))
    rcases h2.version with h' | h' | h' | h'
    · exact .inl h'
    · exact .inr (.inl h')
    · exact .inr (.inr (.inl h'))
    have hu : (compareVersions lower c aff).isLE = true := by
      refine TransCmp.isLE_trans hl2 ?_
      rw [h']
      rfl
    have hd : (compareVersions lower aff c).isLE = true := by
      refine TransCmp.isLE_trans ?_ hl1
      rw [OrientedCmp.eq_comm.mp h]
      rfl
    exact .inr (.inr (.inr (OrientedCmp.isLE_antisymm hu hd)))
  startIncluding := h1.startIncluding.imp id fun h => TransCmp.isLE_trans h hl1
  startExcluding := h1.startExcluding.imp id fun h => TransCmp.lt_of_lt_of_isLE h hl1
  endIncluding := h2.endIncluding.imp id fun h => TransCmp.isLE_trans hl2 h
  endExcluding := h2.endExcluding.imp id fun h => TransCmp.lt_of_isLE_of_lt hl2 h

/-- **Versions are ordered.** Comparing the other way round gives the opposite
sign and "at most" is transitive, for all texts; a version that ends in a digit
equals itself with `.0` behind it; and for any bounds, a version between two
affected ones is affected. -/
theorem versions_ordered : (∀ a b, (compareVersions lower a b).swap = compareVersions lower b a) ∧
    (∀ a b c, (compareVersions lower a b).isLE = true → (compareVersions lower b c).isLE = true →
      (compareVersions lower a c).isLE = true) ∧
    (∀ (v : String) d, v.toList.getLast? = some d → d.isDigit = true → compareVersions lower v (v ++ ".0") = .eq) ∧
    ∀ affected si se ei ee o₁ o o₂, versionAffected lower o₁ affected si se ei ee = true →
      versionAffected lower o₂ affected si se ei ee = true → cleanVersion lower o ≠ [] →
      (compareVersions lower (String.ofList (cleanVersion lower o₁))
        (String.ofList (cleanVersion lower o))).isLE = true →
      (compareVersions lower (String.ofList (cleanVersion lower o))
        (String.ofList (cleanVersion lower o₂))).isLE = true →
      versionAffected lower o affected si se ei ee = true := by
  refine ⟨compareVersions_swap lower, fun a b c => TransCmp.isLE_trans, ?_, ?_⟩
  · intro v d hl hd
    obtain ⟨init, hv⟩ := getLast?_eq_some_iff.mp hl
    show compareParts _ (comparedParts lower v) (comparedParts lower (v ++ ".0")) = .eq
    rw [comparedParts_append lower hd hv]
    exact ReflCmp.compare_self
  · intro affected si se ei ee o₁ o o₂ h1 h2 hn hl1 hl2
    rw [versionAffected_iff] at h1 h2 ⊢
    exact ⟨hn, h1.2.convex lower h2.2 hl1 hl2⟩

end

end Mossward.L1.Names
