import Mathlib.Algebra.Order.Group.MinMax

/-!
# Capped shares

Amounts that come one after the other fill a cap: each gets a share of what is left of it.
What is filled in the end does not depend on the order.
-/

namespace NawaraCore

section
variable {α : Type*} [AddCommGroup α] [LinearOrder α] {cap total amount : α}

def share (cap total amount : α) : α := max 0 (min amount (cap - total))

variable [IsOrderedAddMonoid α]

theorem add_share (ht : total ≤ cap) (ha : 0 ≤ amount) : total + share cap total amount = min cap (total + amount) := by
  unfold share
  rw [max_eq_right (le_min ha (sub_nonneg.mpr ht)), min_comm, ← min_add_add_left, add_sub_cancel]

theorem min_add_share {s : α} (ha : 0 ≤ amount) : min cap s + share cap (min cap s) amount = min cap (s + amount) := by
  rw [add_share (min_le_left _ _) ha, ← min_add_add_right, ← min_assoc, min_eq_left (le_add_of_nonneg_right ha)]

end

end NawaraCore
