import Mathlib.Algebra.Order.Group.MinMax
import Mathlib.Algebra.Order.Monoid.Unbundled.Basic

/-!
# Levels with a cap

`topUp cap level added`: raise a level by `added`, what goes over `cap` being
lost. Topping up in steps is topping up at once (`topUp_topUp`), as long as no
step takes away.
-/
namespace Capped

variable {K : Type} [AddCommGroup K] [LinearOrder K]

def topUp (cap level added : K) : K := min (level + added) cap

theorem topUp_le_cap (cap level added : K) : topUp cap level added ≤ cap := min_le_right _ _

theorem topUp_le_add (cap level added : K) : topUp cap level added ≤ level + added :=
  min_le_left _ _

/-- A level within the cap is unchanged by nothing. -/
theorem topUp_zero {cap level : K} (h : level ≤ cap) : topUp cap level 0 = level := by
  rw [topUp, add_zero, min_eq_left h]

variable [IsOrderedAddMonoid K]

theorem topUp_nonneg {cap level added : K} (hc : 0 ≤ cap) (hl : 0 ≤ level) (ha : 0 ≤ added) :
    0 ≤ topUp cap level added := le_min (add_nonneg hl ha) hc

/-- **In steps or at once.** -/
theorem topUp_topUp (cap level : K) {added more : K} (hm : 0 ≤ more) :
    topUp cap (topUp cap level added) more = topUp cap level (added + more) := by
  have hcap : cap ≤ cap + more := le_add_of_nonneg_right hm
  unfold topUp
  rw [min_add, min_assoc, min_eq_right hcap, add_assoc]

end Capped
