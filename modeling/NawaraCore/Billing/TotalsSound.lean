import Mathlib.Algebra.Order.BigOperators.Group.List
import Mathlib.Algebra.Order.Group.Int
import NawaraCore.Billing.Totals
import NawaraCore.Lib.Outcome

/-!
# Totals are exact

The subtotal after some lines is the sum of their products, so that the loop goes on exactly
as long as no product and no such sum is above the bound; what is below it is a number.
-/

namespace NawaraCore.Totals

open PaymentRequests (JsonAmount isSafeInteger)

/-- Quantity times unit amount. -/
def LineInput.total (l : LineInput) : Int := match l.quantity with
  | .integer q => q * l.unitAmount
  | .other => 0

def sumOf (lines : List LineInput) : Int := (lines.map LineInput.total).sum

/-- What is accepted of a line. -/
structure LineInput.Accepted (l : LineInput) : Prop where
  quantity : ∃ q, l.quantity = .integer q ∧ 1 ≤ q ∧ q ≤ MAX_QUANTITY
  unitAmount : 1 ≤ l.unitAmount ∧ l.unitAmount ≤ MAX_MINOR_UNITS
  total : l.total ≤ MAX_MINOR_UNITS

theorem LineInput.Accepted.total_pos {l : LineInput} (h : l.Accepted) : 0 ≤ l.total := by
  obtain ⟨⟨q, hq, hmin, -⟩, ⟨humin, -⟩, -⟩ := h
  rw [LineInput.total, hq]
  exact Int.mul_nonneg (by omega) (by omega)

section
variable {l : LineInput} {ls : List LineInput} {i : Nat} {s t : Int} {line : ComputedLine} {lines : List ComputedLine}

theorem computeLine_ok (h : computeLine i l = .ok line) : l.Accepted ∧ line.lineTotal = l.total := by
  obtain ⟨q, hq, h⟩ := bind_eq_ok.mp h
  obtain ⟨u, hu, h⟩ := bind_eq_ok.mp h
  obtain ⟨v, hv, h⟩ := bind_eq_ok.mp h
  obtain ⟨p, hp, h⟩ := bind_eq_ok.mp h
  obtain ⟨hrange, hu⟩ := guard_ok hu
  obtain ⟨hpos, hv⟩ := guard_ok hv
  obtain ⟨hmax, hp⟩ := guard_ok hp
  cases h
  cases hu
  cases hv
  cases hp
  cases hquantity : l.quantity with
  | other =>
    rw [quantityOf, hquantity] at hq
    cases hq
  | integer n =>
    rw [quantityOf, hquantity] at hq
    obtain ⟨hn, hq⟩ := guard_ok hq
    cases hq
    have htotal : l.total = q * l.unitAmount := by rw [LineInput.total, hquantity]
    refine ⟨⟨⟨q, hquantity, by omega⟩, by omega, ?_⟩, htotal.symm⟩
    rw [htotal]
    omega

theorem computeLine_succeeds (h : l.Accepted) : ∃ line, computeLine i l = .ok line := by
  obtain ⟨⟨q, hq, hmin, hmax⟩, ⟨humin, humax⟩, htotal⟩ := h
  have hproduct : l.total = q * l.unitAmount := by rw [LineInput.total, hq]
  rw [hproduct] at htotal
  refine ⟨⟨i + 1, q, l.unitAmount, q * l.unitAmount, 0⟩, ?_⟩
  unfold computeLine quantityOf toMinorUnits assertInRange assertPositive mulMinor
  simp only [hq]
  rw [if_neg (by omega), if_neg (by omega)]
  simp only [bind, Except.bind]
  rw [if_neg (by omega)]
  dsimp only
  rw [if_neg (by omega)]

/-! ## The loop -/

theorem sumOf_cons : sumOf (l :: ls) = l.total + sumOf ls := by rw [sumOf, List.map_cons, List.sum_cons]; rfl

/-- Every line is accepted, and every subtotal within the bound. -/
structure Fits (s : Int) (ls : List LineInput) : Prop where
  lines : ∀ l ∈ ls, l.Accepted
  subtotals : ∀ n ≤ ls.length, s + sumOf (ls.take n) ≤ MAX_MINOR_UNITS

theorem Fits.nil (hs : s ≤ MAX_MINOR_UNITS) : Fits s [] := by
  refine ⟨nofun, fun n _ => ?_⟩
  rw [List.take_nil]
  simpa [sumOf] using hs

theorem fits_cons (hs : s ≤ MAX_MINOR_UNITS) : Fits s (l :: ls) ↔ l.Accepted ∧ Fits (s + l.total) ls := by
  constructor
  · intro h
    refine ⟨h.lines l List.mem_cons_self, fun x hx => h.lines x (List.mem_cons_of_mem l hx), fun n hn => ?_⟩
    have := h.subtotals (n + 1) (Nat.succ_le_succ hn)
    rw [List.take_succ_cons, sumOf_cons] at this
    omega
  · rintro ⟨hl, h⟩
    refine ⟨List.forall_mem_cons.mpr ⟨hl, h.lines⟩, fun n hn => ?_⟩
    cases n with
    | zero => simpa [sumOf] using hs
    | succ n =>
      have := h.subtotals n (Nat.le_of_succ_le_succ hn)
      rw [List.take_succ_cons, sumOf_cons]
      omega

theorem computeLines_ok : ∀ {ls : List LineInput} {i : Nat} {s t : Int} {lines : List ComputedLine}, s ≤ MAX_MINOR_UNITS →
    computeLines i s ls = .ok (lines, t) → Fits s ls ∧ t = s + sumOf ls
  | [], _, _, _, _, hs, h => by
    cases h
    exact ⟨.nil hs, by simp [sumOf]⟩
  | l :: ls, i, s, _, _, hs, h => by
    obtain ⟨line, hline, h⟩ := bind_eq_ok.mp h
    obtain ⟨s', hadd, h⟩ := bind_eq_ok.mp h
    obtain ⟨hl, htotal⟩ := computeLine_ok hline
    obtain ⟨hbound, hadd⟩ := guard_ok hadd
    cases hadd
    obtain ⟨rest, hrest, h⟩ := bind_eq_ok.mp h
    obtain ⟨-, rfl⟩ := Prod.mk.inj (Except.ok.inj h)
    rw [htotal] at hrest hbound
    obtain ⟨hfits, ht⟩ := computeLines_ok (by omega) hrest
    refine ⟨(fits_cons hs).mpr ⟨hl, hfits⟩, ?_⟩
    rw [ht, sumOf_cons]
    omega

theorem computeLines_succeeds : ∀ {ls : List LineInput} {i : Nat} {s : Int}, s ≤ MAX_MINOR_UNITS → Fits s ls →
    ∃ r, computeLines i s ls = .ok r
  | [], _, _, _, _ => ⟨_, rfl⟩
  | l :: ls, i, s, hs, h => by
    obtain ⟨hl, h⟩ := (fits_cons hs).mp h
    have hbound : s + l.total ≤ MAX_MINOR_UNITS := by simpa [sumOf] using h.subtotals 0 (Nat.zero_le _)
    obtain ⟨line, hline⟩ := computeLine_succeeds (i := i) hl
    obtain ⟨r, hr⟩ := computeLines_succeeds (i := i + 1) hbound h
    refine ⟨(line :: r.1, r.2), ?_⟩
    have htotal := (computeLine_ok hline).2
    rw [computeLines, hline]
    simp only [bind, Except.bind, addMinor, htotal]
    rw [if_neg (by omega)]
    dsimp only
    rw [hr]

/-! ## Numbers -/

theorem toNumber_exact {n : Nat} (h : n ≤ 9007199254740991) : toNumber n = n := by
  have he : n.log2 - 52 = 0 := by
    have : n.log2 < 53 := by
      by_cases hn : n = 0
      · subst hn
        decide
      · exact (Nat.log2_lt hn).mpr (by omega)
    omega
  unfold toNumber
  rw [he]
  simp [Nat.mod_one]

theorem toJsonAmount_exact (h₀ : 0 ≤ t) (h : t ≤ MAX_MINOR_UNITS) (field : String) :
    toJsonAmount t = .ok (.integer t) ∧ toMinorUnits (.json (.integer t)) field = .ok t := by
  have hmax : MAX_MINOR_UNITS = 9007199254740991 := rfl
  constructor
  · unfold toJsonAmount
    rw [if_neg (by omega), toNumber_exact (by omega), Int.toNat_of_nonneg h₀]
  · have hsafe : isSafeInteger t = true := by
      unfold isSafeInteger PaymentRequests.MAX_SAFE_INTEGER
      exact decide_eq_true (by omega)
    unfold toMinorUnits assertInRange
    dsimp only
    rw [if_pos hsafe, if_neg (by omega)]

end

/-- **Totals are exact.** They are computed exactly when the lines are accepted and no subtotal is above the bound, and then the total
is the sum of the products and comes back from JSON as it is. -/
theorem computeTotals_exact (lines : List LineInput) :
    ((∃ t, computeTotals lines = .ok t) ↔ (1 ≤ lines.length ∧ lines.length ≤ MAX_LINES) ∧ (∀ l ∈ lines, l.Accepted) ∧
      ∀ n ≤ lines.length, sumOf (lines.take n) ≤ MAX_MINOR_UNITS) ∧
      ∀ t, computeTotals lines = .ok t → t.total = sumOf lines ∧
        ∃ a, toJsonAmount t.total = .ok a ∧ ∀ field, toMinorUnits (.json a) field = .ok t.total := by
  have hmax : MAX_MINOR_UNITS = 9007199254740991 := rfl
  have hstart : (0 : Int) ≤ MAX_MINOR_UNITS := by decide
  have hfits {t : InvoiceTotals} (h : computeTotals lines = .ok t) :
      (1 ≤ lines.length ∧ lines.length ≤ MAX_LINES) ∧ Fits 0 lines ∧ t.total = sumOf lines := by
    obtain ⟨hlength, h⟩ := guard_ok h
    obtain ⟨⟨computed, subtotal⟩, hloop, h⟩ := bind_eq_ok.mp h
    obtain ⟨total, hadd, h⟩ := bind_eq_ok.mp h
    obtain ⟨-, hadd⟩ := guard_ok hadd
    cases h
    cases hadd
    obtain ⟨hfits, hsum⟩ := computeLines_ok hstart hloop
    refine ⟨by omega, hfits, ?_⟩
    show subtotal + 0 = sumOf lines
    omega
  refine ⟨⟨?_, ?_⟩, fun t h => ?_⟩
  · rintro ⟨t, h⟩
    obtain ⟨hlength, hf, -⟩ := hfits h
    exact ⟨hlength, hf.lines, fun n hn => by simpa using hf.subtotals n hn⟩
  · rintro ⟨hlength, haccepted, hsums⟩
    have hf : Fits 0 lines := ⟨haccepted, fun n hn => by simpa using hsums n hn⟩
    obtain ⟨⟨computed, subtotal⟩, hloop⟩ := computeLines_succeeds (i := 0) hstart hf
    have hsum := (computeLines_ok hstart hloop).2
    have hbound := hsums lines.length (le_refl _)
    rw [List.take_length] at hbound
    refine ⟨⟨computed, subtotal, 0, subtotal + 0⟩, ?_⟩
    unfold computeTotals addMinor
    rw [if_neg (by omega), hloop]
    simp only [bind, Except.bind]
    rw [if_neg (by omega)]
  · obtain ⟨-, hf, htotal⟩ := hfits h
    have hbound := hf.subtotals lines.length (le_refl _)
    rw [List.take_length] at hbound
    have hpos : 0 ≤ sumOf lines := List.sum_nonneg fun x hx => by
      obtain ⟨l, hl, rfl⟩ := List.mem_map.mp hx
      exact (hf.lines l hl).total_pos
    rw [htotal]
    exact ⟨rfl, .integer (sumOf lines), (toJsonAmount_exact hpos (by omega) "").1, fun field => (toJsonAmount_exact hpos (by omega) field).2⟩

end NawaraCore.Totals
