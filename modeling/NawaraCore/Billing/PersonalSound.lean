import Mathlib.Data.List.Chain
import NawaraCore.Billing.PersonalSubscription
import NawaraCore.Lib.Outcome

/-!
# The fold of the purchase ledger

The periods of a ledger follow one another, each one interval long on the anchor of its
chain, and what is laid at a purchase is what the fold lays afterwards.
-/

namespace NawaraCore.PersonalSubscriptions

open Subscriptions (Uuid IntervalUnit DAY_MS plusMonths monthOf intervalMonths billing_subscription_period_end)

section
variable {p : RecurringPrice} {start anchor : Int}

theorem periodEnd_eq {e : Int} (h : billing_subscription_period_end start (some anchor) p.unit p.count = some e) :
    p.periodEnd start anchor = e := by
  unfold RecurringPrice.periodEnd
  exact Option.get_of_eq_some _ h

theorem periodEnd_calendar (hc : p.unit.calendar) :
    p.periodEnd start anchor = plusMonths anchor (monthOf start - monthOf anchor + intervalMonths p.unit p.count) :=
  periodEnd_eq (Subscriptions.calendar_period_end hc start anchor p.count)

theorem intervalMonths_pos (p : RecurringPrice) : 0 < intervalMonths p.unit p.count := by
  have hp := p.positive
  unfold intervalMonths
  split <;> omega

def RecurringPrice.days (p : RecurringPrice) : Int :=
  match p.unit with
  | .week => p.count * 7
  | _ => p.count

theorem days_pos (p : RecurringPrice) : 0 < p.days := by
  have hp := p.positive
  unfold RecurringPrice.days
  split <;> omega

theorem periodEnd_days (hc : p.unit.calendar = false) : p.periodEnd start anchor = start + p.days * DAY_MS := by
  apply periodEnd_eq
  unfold RecurringPrice.days
  cases hu : p.unit with
  | day => rfl
  | week =>
    simp only [billing_subscription_period_end]
    rw [Int.mul_assoc]
  | month => rw [hu] at hc; cases hc
  | year => rw [hu] at hc; cases hc

theorem start_lt_periodEnd (p : RecurringPrice) (start anchor : Int) : start < p.periodEnd start anchor := by
  cases hc : p.unit.calendar with
  | true =>
    have hpos := intervalMonths_pos p
    apply Subscriptions.lt_of_monthOf
    rw [periodEnd_calendar hc, Subscriptions.monthOf_plusMonths]
    omega
  | false =>
    have hpos := Int.mul_pos (days_pos p) (show 0 < DAY_MS by decide)
    rw [periodEnd_days hc]
    omega

end

structure Laying where
  purchase : SubscriptionPurchase
  anchor : Int
  span : PersonalSpan

def Laying.Opens (l : Laying) : Prop :=
  l.span.effectiveStart = l.purchase.settled ∧ l.anchor = l.span.effectiveStart

/-- A period after another: at its end or later, and on the anchor of a month or year chain that it continues. -/
def Laying.Follows (k l : Laying) : Prop :=
  l.span.effectiveStart = max l.purchase.settled k.span.effectiveEnd ∧
    l.anchor = if l.purchase.settled ≤ k.span.effectiveEnd ∧ l.purchase.price.unit.calendar ∧
      k.purchase.price.unit.calendar then k.anchor else l.span.effectiveStart

/-- The period is one interval of its price: in days, or from one occurrence of the anchor to a later one. -/
def Laying.OneInterval (l : Laying) : Prop :=
  l.span.effectiveStart < l.span.effectiveEnd ∧
    if l.purchase.price.unit.calendar then ∃ n : Nat, l.span.effectiveStart = plusMonths l.anchor n ∧
      l.span.effectiveEnd = plusMonths l.anchor (n + intervalMonths l.purchase.price.unit l.purchase.price.count)
    else l.span.effectiveEnd = l.span.effectiveStart + l.purchase.price.days * DAY_MS

structure LaidOut (kept : List SubscriptionPurchase) (spans : List PersonalSpan) : Prop where
  laid : ∃ ls : List Laying, ls.map (·.purchase) = kept ∧ ls.map (·.span) = spans ∧ (∀ l ∈ ls.head?, l.Opens) ∧
    ls.IsChain Laying.Follows ∧ ∀ l ∈ ls, l.OneInterval
  ids : spans.map (·.purchaseId) = kept.map fun p => some p.id
  disjoint : spans.Pairwise fun a b => a.effectiveEnd ≤ b.effectiveStart

/-! ## The fold obeys the law -/

def layings (prev : Option Laid) : List SubscriptionPurchase → List Laying
  | [] => []
  | p :: ps => ⟨p, (next prev p.row).anchor, spanOf prev p.row⟩ :: layings (some (next prev p.row)) ps

variable {db db' : LedgerDb}

section
variable {prev : Laid} {o : Option Laid} {p : SubscriptionPurchase} {ps : List SubscriptionPurchase} {rows : List LedgerRow}

theorem layings_purchases (o : Option Laid) (ps : List SubscriptionPurchase) : (layings o ps).map (·.purchase) = ps := by
  induction ps generalizing o with
  | nil => rfl
  | cons p ps ih => simp only [layings, List.map_cons, ih]

theorem layings_spans (o : Option Laid) (ps : List SubscriptionPurchase) :
    (layings o ps).map (·.span) = layAll o (ps.map (·.row)) := by
  induction ps generalizing o with
  | nil => rfl
  | cons p ps ih => simp only [layings, layAll, List.map_cons, ih]

theorem layAll_ids (o : Option Laid) (rows : List LedgerRow) : (layAll o rows).map (·.purchaseId) = rows.map (·.id) := by
  induction rows generalizing o with
  | nil => rfl
  | cons r rows ih =>
    simp only [layAll, List.map_cons, ih]
    rfl

theorem lay_start (prev : Laid) (r : LedgerRow) : (lay (some prev) r).1 = max r.settled prev.prev_end := by
  unfold lay
  by_cases h : r.settled ≤ prev.prev_end
  · simp only [h, if_true]
    omega
  · simp only [h, if_false]
    omega

theorem lay_anchor (prev : Laid) (r : LedgerRow) : (lay (some prev) r).2 =
    if r.settled ≤ prev.prev_end ∧ r.price.unit.calendar ∧ prev.prev_unit.calendar then prev.anchor
    else (lay (some prev) r).1 := by
  unfold lay
  by_cases h : r.settled ≤ prev.prev_end
  · by_cases hc : r.price.unit.calendar ∧ prev.prev_unit.calendar
    · simp [h, hc]
    · simp only [h, if_true, true_and, hc, if_false]
  · simp [h]

theorem layings_chain (o : Option Laid) (p : SubscriptionPurchase) (ps : List SubscriptionPurchase) :
    (layings o (p :: ps)).IsChain Laying.Follows := by
  induction ps generalizing o p with
  | nil => exact .singleton _
  | cons q ps ih =>
    refine .cons_cons ⟨?_, ?_⟩ (ih (some (next o p.row)) q)
    · exact lay_start _ _
    · exact lay_anchor _ _

def Laid.OnAnchor (prev : Laid) : Prop := prev.prev_unit.calendar → ∃ n : Nat, prev.prev_end = plusMonths prev.anchor n

theorem lay_onAnchor (hprev : ∀ x ∈ o, x.OnAnchor) (r : LedgerRow) :
    ∃ n : Nat, (lay o r).1 = plusMonths (lay o r).2 n := by
  cases o with
  | none => exact ⟨0, (Subscriptions.plusMonths_zero _).symm⟩
  | some prev =>
    by_cases h : r.settled ≤ prev.prev_end ∧ r.price.unit.calendar ∧ prev.prev_unit.calendar
    · obtain ⟨n, hn⟩ := hprev prev rfl h.2.2
      refine ⟨n, ?_⟩
      rw [lay_anchor, if_pos h, lay_start, ← hn]
      omega
    · refine ⟨0, ?_⟩
      rw [lay_anchor, if_neg h]
      exact (Subscriptions.plusMonths_zero _).symm

theorem next_calendar (r : LedgerRow) (hc : r.price.unit.calendar) {n : Int} (hn : (lay o r).1 = plusMonths (lay o r).2 n) :
    (next o r).prev_end = plusMonths (lay o r).2 (n + intervalMonths r.price.unit r.price.count) := by
  have he : (next o r).prev_end = r.price.periodEnd (lay o r).1 (lay o r).2 := rfl
  rw [he, periodEnd_calendar hc, hn, Subscriptions.monthOf_plusMonths]
  congr 1
  omega

theorem next_onAnchor (hprev : ∀ x ∈ o, x.OnAnchor) (r : LedgerRow) : (next o r).OnAnchor := by
  intro hc
  obtain ⟨n, hn⟩ := lay_onAnchor hprev r
  refine ⟨n + (intervalMonths r.price.unit r.price.count).toNat, ?_⟩
  have hpos := intervalMonths_pos r.price
  rw [next_calendar r hc hn]
  have hanchor : (next o r).anchor = (lay o r).2 := rfl
  rw [hanchor]
  congr 1
  omega

theorem layings_oneInterval (hprev : ∀ x ∈ o, x.OnAnchor) : ∀ l ∈ layings o ps, l.OneInterval := by
  induction ps generalizing o with
  | nil =>
    intro l hl
    cases hl
  | cons p ps ih =>
    intro l hl
    rcases List.mem_cons.mp hl with rfl | hl
    · refine ⟨start_lt_periodEnd p.price (lay o p.row).1 (lay o p.row).2, ?_⟩
      by_cases hc : p.price.unit.calendar
      · rw [if_pos hc]
        obtain ⟨n, hn⟩ := lay_onAnchor hprev p.row
        exact ⟨n, hn, next_calendar p.row hc hn⟩
      · rw [if_neg hc]
        exact periodEnd_days (p := p.price) (by simpa using hc)
    · refine ih ?_ l hl
      intro x hx
      cases hx
      exact next_onAnchor hprev p.row

theorem layAll_after (prev : Laid) (rows : List LedgerRow) : ∀ s ∈ layAll (some prev) rows, prev.prev_end ≤ s.effectiveStart := by
  induction rows generalizing prev with
  | nil => nofun
  | cons r rows ih =>
    intro s hs
    have hstart := lay_start prev r
    have hend : (lay (some prev) r).1 < (next (some prev) r).prev_end := start_lt_periodEnd r.price _ _
    rcases List.mem_cons.mp hs with rfl | hs
    · show prev.prev_end ≤ (lay (some prev) r).1
      omega
    · have := ih (next (some prev) r) s hs
      omega

theorem layAll_disjoint (o : Option Laid) (rows : List LedgerRow) :
    (layAll o rows).Pairwise fun a b => a.effectiveEnd ≤ b.effectiveStart := by
  induction rows generalizing o with
  | nil => exact .nil
  | cons r rows ih =>
    simp only [layAll, List.pairwise_cons]
    exact ⟨layAll_after (next o r) rows, ih (some (next o r))⟩

theorem layAll_laidOut (ps : List SubscriptionPurchase) : LaidOut ps (layAll none (ps.map (·.row))) where
  laid := by
    have hfirst : ∀ x ∈ (none : Option Laid), x.OnAnchor := by
      intro x hx
      cases hx
    refine ⟨layings none ps, layings_purchases none ps, layings_spans none ps, ?_, ?_, layings_oneInterval hfirst⟩
    · cases ps with
      | nil =>
        intro l hl
        cases hl
      | cons p ps =>
        rintro l ⟨⟩
        exact ⟨rfl, rfl⟩
    · cases ps with
      | nil => exact .nil
      | cons p ps => exact layings_chain none p ps
  ids := by
    rw [layAll_ids, List.map_map]
    rfl
  disjoint := layAll_disjoint none _

/-! ## Laying at a purchase -/

def after (o : Option Laid) (rows : List LedgerRow) : Option Laid := rows.foldl (fun o r => some (next o r)) o

theorem layAll_append (o : Option Laid) (rows rows' : List LedgerRow) :
    layAll o (rows ++ rows') = layAll o rows ++ layAll (after o rows) rows' := by
  induction rows generalizing o with
  | nil => rfl
  | cons r rows ih => simp only [List.cons_append, layAll, ih, after, List.foldl_cons]

def LedgerDb.last (db : LedgerDb) (personal : Uuid) : Option Laid := after none ((db.kept personal).map (·.row))

theorem spans_candidate (db : LedgerDb) (personal : Uuid) (settled : Int) (price : RecurringPrice) :
    billing_personal_spans db personal (some (settled, price)) =
      billing_personal_spans db personal none ++ [spanOf (db.last personal) ⟨none, settled, price⟩] := by
  simp only [billing_personal_spans, Option.toList_some, Option.toList_none, List.map_cons, List.map_nil, List.append_nil,
    layAll_append]
  rfl

theorem billing_personal_spans_eq (db : LedgerDb) (personal : Uuid) :
    billing_personal_spans db personal none = layAll none ((db.kept personal).map (·.row)) := by
  simp [billing_personal_spans]

theorem spans_recorded (db : LedgerDb) (personal : Uuid) :
    ∀ s ∈ billing_personal_spans db personal none, s.purchaseId ≠ none := by
  intro s hs
  have hids := layAll_ids none ((db.kept personal).map (·.row))
  have hmem : s.purchaseId ∈ ((db.kept personal).map (·.row)).map (·.id) := by
    rw [← hids]
    refine List.mem_map_of_mem ?_
    simpa [billing_personal_spans] using hs
  simp only [List.map_map, List.mem_map, Function.comp] at hmem
  obtain ⟨q, -, hq⟩ := hmem
  rw [← hq]
  exact Option.some_ne_none _

def SettledPurchase.laid (p : SettledPurchase) (span : PersonalSpan) : SubscriptionPurchase :=
  { id := p.id
    personalSubscriptionId := p.personalSubscriptionId
    invoiceId := p.invoiceId
    receiptId := p.receiptId
    lateSuccessId := p.lateSuccessId
    assistanceRequestId := p.assistanceRequestId
    price := p.price
    settledAt := p.settledAt
    appliedAt := p.appliedAt
    originalStart := span.effectiveStart
    originalEnd := span.effectiveEnd }

def SettledPurchase.candidate (p : SettledPurchase) : LedgerRow := ⟨none, p.appliedAt.getD p.settledAt, p.price⟩

theorem insertGuard_eq (db : LedgerDb) (p : SettledPurchase) :
    insertGuard db p = some (p.laid (spanOf (db.last p.personalSubscriptionId) p.candidate)) := by
  unfold insertGuard
  have hnone : (billing_personal_spans db p.personalSubscriptionId none).find? (·.purchaseId = none) = none := by
    apply List.find?_eq_none.mpr
    intro s hs
    simpa using spans_recorded db p.personalSubscriptionId s hs
  have hlast : [spanOf (db.last p.personalSubscriptionId) p.candidate].find? (·.purchaseId = none) =
      some (spanOf (db.last p.personalSubscriptionId) p.candidate) := by
    apply List.find?_cons_of_pos
    simp [spanOf, SettledPurchase.candidate]
  simp only [spans_candidate, List.find?_append, hnone, Option.none_or]
  rw [show (⟨none, p.appliedAt.getD p.settledAt, p.price⟩ : LedgerRow) = p.candidate from rfl, hlast]
  rfl

variable {p : SettledPurchase}

theorem recordPurchase_recorded (h : recordPurchase db p = .ok (db', true)) :
    db' = { db with purchases := db.purchases ++ [p.laid (spanOf (db.last p.personalSubscriptionId) p.candidate)] } ∧
      ∀ q ∈ db.purchases, q.id ≠ p.id := by
  unfold recordPurchase at h
  rw [insertGuard_eq] at h
  dsimp only at h
  split at h
  · cases h
  split at h
  · cases h
  rename_i hconflict
  cases h
  refine ⟨rfl, fun q hq hid => ?_⟩
  simp only [List.any_eq_true, not_exists, not_and] at hconflict
  apply hconflict q hq
  simp only [conflicts, decide_eq_true_eq]
  exact .inl hid.symm

theorem recordPurchase_known (h : recordPurchase db p = .ok (db', false)) :
    db' = db := by
  unfold recordPurchase at h
  split at h
  · cases h
  split at h
  · cases h
  split at h
  · cases h
    rfl
  · cases h

theorem reversePurchase_ok {id : Uuid} {reversed : Bool}
    (h : reversePurchase db id = .ok (db', reversed)) : db'.purchases = db.purchases ∧
      if reversed then db'.reversals = db.reversals ++ [id] ∧ ∃ p ∈ db.purchases, p.id = id
      else db'.reversals = db.reversals := by
  unfold reversePurchase at h
  split at h
  · cases h
    exact ⟨rfl, rfl⟩
  split at h
  · rename_i hknown
    cases h
    refine ⟨rfl, rfl, ?_⟩
    simpa using hknown
  · cases h

theorem LedgerRuns.reversals (h : LedgerRuns db) : ∀ x ∈ db.reversals, ∃ p ∈ db.purchases, p.id = x := by
  refine h.invariant (P := fun db => ∀ x ∈ db.reversals, ∃ p ∈ db.purchases, p.id = x) ?_ ?_
  · rintro db rfl x hx
    cases hx
  · intro s t _ hi ht x hx
    cases ht with
    | recordPurchase p recorded h =>
      cases recorded with
      | true =>
        obtain ⟨rfl, -⟩ := recordPurchase_recorded h
        obtain ⟨q, hq, hid⟩ := hi x hx
        exact ⟨q, List.mem_append_left _ hq, hid⟩
      | false =>
        rw [recordPurchase_known h] at hx ⊢
        exact hi x hx
    | reversePurchase purchaseId reversed h =>
      obtain ⟨hp, hr⟩ := reversePurchase_ok h
      rw [hp]
      cases reversed with
      | true =>
        obtain ⟨hr, hknown⟩ := hr
        rw [hr] at hx
        rcases List.mem_append.mp hx with hx | hx
        · exact hi x hx
        · rw [List.mem_singleton.mp hx]
          exact hknown
      | false =>
        rw [show t.reversals = s.reversals from hr] at hx
        exact hi x hx

theorem kept_recorded (db : LedgerDb) (personal : Uuid) (row : SubscriptionPurchase)
    (hp : row.personalSubscriptionId = personal) (hr : row.id ∉ db.reversals) :
    ({ db with purchases := db.purchases ++ [row] } : LedgerDb).kept personal = db.kept personal ++ [row] := by
  simp [LedgerDb.kept, List.filter_append, hr, hp]

/-- **The ledger is laid by one fold.** The kept purchases follow one another in ledger order, and the
original span of a purchase is the span that the fold gives it once it is recorded. -/
theorem personal_ledger_fold :
    (∀ db personal, LaidOut (LedgerDb.kept db personal) (billing_personal_spans db personal none)) ∧
    ∀ db, LedgerRuns db → ∀ p db', recordPurchase db p = .ok (db', true) →
      ∃ row, db'.purchases = db.purchases ++ [row] ∧ row.id = p.id ∧
        billing_personal_spans db' p.personalSubscriptionId none =
          billing_personal_spans db p.personalSubscriptionId none ++
            [⟨some p.id, row.originalStart, row.originalEnd⟩] := by
  constructor
  · intro db personal
    rw [billing_personal_spans_eq]
    exact layAll_laidOut (db.kept personal)
  · intro db hr p db' h
    obtain ⟨rfl, hids⟩ := recordPurchase_recorded h
    refine ⟨_, rfl, rfl, ?_⟩
    have hfresh : p.id ∉ db.reversals := by
      intro hx
      obtain ⟨q, hq, hid⟩ := hr.reversals p.id hx
      exact hids q hq hid
    rw [billing_personal_spans_eq, billing_personal_spans_eq]
    have hkept := kept_recorded db p.personalSubscriptionId
      (p.laid (spanOf (db.last p.personalSubscriptionId) p.candidate)) rfl hfresh
    rw [hkept, List.map_append, layAll_append]
    rfl

end

def twoMonths : SettledPurchase := ⟨1, 7, 11, some 21, none, none, ⟨.month, 2, by decide⟩, 20849 * DAY_MS, none⟩

def oneMonth : SettledPurchase :=
  ⟨2, 7, 12, some 22, none, none, ⟨.month, 1, by decide⟩, 20907 * DAY_MS + 23 * 3600 * 1000, none⟩

def recorded (db : LedgerDb) (p : SettledPurchase) : LedgerDb :=
  match recordPurchase db p with
  | .ok r => r.1
  | .error _ => db

theorem LedgerRuns.recorded {db : LedgerDb} (h : LedgerRuns db) (p : SettledPurchase) : LedgerRuns (recorded db p) := by
  unfold PersonalSubscriptions.recorded
  split
  · rename_i r hr
    exact .step h (.recordPurchase p r.2 hr)
  · exact h

def renewed : LedgerDb := recorded (recorded ⟨[], []⟩ twoMonths) oneMonth

theorem renewed_runs : LedgerRuns renewed := by
  have h0 : LedgerRuns ⟨[], []⟩ := .init rfl
  exact (h0.recorded twoMonths).recorded oneMonth

theorem personal_ledger_fold_renewed :
    ∃ row, renewed.purchases = (recorded ⟨[], []⟩ twoMonths).purchases ++ [row] ∧ row.id = 2 ∧
      billing_personal_spans renewed 7 none = billing_personal_spans (recorded ⟨[], []⟩ twoMonths) 7 none ++
        [⟨some 2, row.originalStart, row.originalEnd⟩] := by
  have h0 : LedgerRuns ⟨[], []⟩ := .init rfl
  exact personal_ledger_fold.2 _ (h0.recorded twoMonths) oneMonth renewed rfl

end NawaraCore.PersonalSubscriptions
