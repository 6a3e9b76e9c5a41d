import Mathlib.Algebra.Order.Group.Int
import Mathlib.Algebra.Ring.Int.Defs
import Mathlib.Data.List.Induction
import Mathlib.Logic.Function.Basic
import NawaraCore.Lib.Capped
import NawaraCore.Payment.Payment

/-!
# The ledger of one captured money

What refunds of one captured money should do, with no other money in sight: every refund is
counted against its own authorization up to the approval, and once an authorization is
full the money is returned and whatever comes later is excess.
-/

namespace NawaraCore.Refunds

open Payments (Uuid)

structure Refunded where
  authorizationId : Uuid
  approved : Int
  amount : Int

structure Captured where
  paid : Uuid → Int
  closed : Bool

namespace Captured

def untouched : Captured := ⟨fun _ => 0, false⟩

def intended (m : Captured) (r : Refunded) : Int :=
  if m.closed then 0 else share r.approved (m.paid r.authorizationId) r.amount

def take (m : Captured) (r : Refunded) : Captured :=
  let total := m.paid r.authorizationId + m.intended r
  { paid := Function.update m.paid r.authorizationId total
    closed := m.closed || decide (total = r.approved) }

def after (m : Captured) (rs : List Refunded) : Captured := rs.foldl take m

def splits (m : Captured) : List Refunded → List Int
  | [] => []
  | r :: rs => m.intended r :: (m.take r).splits rs

theorem after_append (m : Captured) (rs : List Refunded) (r : Refunded) :
    m.after (rs ++ [r]) = (m.after rs).take r := by
  simp [after]

theorem splits_append (m : Captured) (rs : List Refunded) (r : Refunded) :
    m.splits (rs ++ [r]) = m.splits rs ++ [(m.after rs).intended r] := by
  induction rs generalizing m with
  | nil => rfl
  | cons q rs ih =>
    rw [List.cons_append, splits, splits, ih]
    rfl

theorem paid_eq_min {id : Uuid} {approved : Int} (ha : 0 < approved) :
    ∀ {rs : List Refunded}, (∀ r ∈ rs, r.authorizationId = id ∧ r.approved = approved ∧ 0 < r.amount) →
      (untouched.after rs).paid id = min approved (rs.map (·.amount)).sum ∧
        ((untouched.after rs).closed = true ↔ (untouched.after rs).paid id = approved) := by
  intro rs
  induction rs using List.reverseRecOn with
  | nil =>
    intro _
    refine ⟨(min_eq_right ha.le).symm, ?_⟩
    simpa [after, untouched] using ha.ne
  | append_singleton rs r ih =>
    intro h
    obtain ⟨hpaid, hclosed⟩ := ih fun q hq => h q (List.mem_append_left _ hq)
    obtain ⟨hid, happ, hpos⟩ := h r (List.mem_append_right _ (List.mem_singleton_self r))
    have hsum : ((rs ++ [r]).map (·.amount)).sum = (rs.map (·.amount)).sum + r.amount := by simp
    rw [after_append, hsum]
    have htake : ((untouched.after rs).take r).paid id = (untouched.after rs).paid id + (untouched.after rs).intended r := by
      simp [take, hid]
    have hstep : (untouched.after rs).paid id + (untouched.after rs).intended r =
        min approved ((rs.map (·.amount)).sum + r.amount) := by
      unfold intended
      by_cases hc : (untouched.after rs).closed = true
      · have hfull := hclosed.mp hc
        rw [if_pos hc, add_zero, hfull]
        rw [hfull] at hpaid
        have := min_eq_left_iff.mp hpaid.symm
        exact (min_eq_left (by omega)).symm
      · rw [if_neg hc, happ, hid, hpaid]
        exact min_add_share hpos.le
    refine ⟨htake.trans hstep, ?_⟩
    rw [htake]
    simp only [take, hid, happ, Bool.or_eq_true, decide_eq_true_eq, or_iff_right_iff_imp]
    intro hc
    have hfull := hclosed.mp hc
    unfold intended
    rw [if_pos hc, add_zero, hfull]

end Captured

end NawaraCore.Refunds
