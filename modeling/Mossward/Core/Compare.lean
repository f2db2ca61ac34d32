import Mathlib.Order.Compare
import Mathlib.Tactic

/-!
# Comparisons

A function that answers how two values compare is a total preorder when it
answers the opposite the other way round and "at most" is transitive
(`Std.TransCmp`).

* `transCmp_of_key`: a comparison of keys in a linear order is one.
* `transCmp_comap`: so is a comparison of images.
-/
namespace Mossward.Compare

open Std

section
variable {α β κ : Type}

theorem transCmp_comap {cmp : α → α → Ordering} [TransCmp cmp] (f : β → α) :
    TransCmp fun a b => cmp (f a) (f b) where
  eq_swap := OrientedCmp.eq_swap
  isLE_trans := TransCmp.isLE_trans

theorem transCmp_of_key [LinearOrder κ] {cmp : α → α → Ordering} (key : α → κ)
    (h : ∀ a b, cmp a b = compare (key a) (key b)) : TransCmp cmp := by
  have hc : cmp = fun a b => compare (key a) (key b) := by
    funext a b
    exact h a b
  rw [hc]
  exact transCmp_comap key

end

end Mossward.Compare
