import NawaraCore.Billing.PersonalSound
import NawaraCore.Lib.Rows

/-!
# Reversals

A reversal re-lays the purchases after it from an earlier end. The two folds keep their
distance in the month, then in the anchor's day, then in its time of day; only the last
is lost where a period end is clamped to the last day of its month.
-/

namespace NawaraCore.PersonalSubscriptions

open Calendar
open Subscriptions (Uuid DAY_MS plusMonths monthOf intervalMonths dayOfMonth timeOfDay NotLaterInMonth)

def Laid.base (x : Laid) : Int := if x.prev_unit.calendar then x.anchor else x.prev_end

structure NotLater (x y : Laid) : Prop where
  ends : x.prev_end ≤ y.prev_end
  base : monthOf x.prev_end < monthOf y.prev_end ∨
    (monthOf x.prev_end = monthOf y.prev_end ∧ NotLaterInMonth x.base y.base)

def Laid.Within (x : Laid) (T : Int) : Prop := timeOfDay x.prev_end ≤ T ∧ timeOfDay x.anchor ≤ T

variable {db : LedgerDb} {before rest : List SubscriptionPurchase} {p : SubscriptionPurchase}
variable {personal : Uuid}

section
variable {o : Option Laid} {x y : Laid} {r : LedgerRow} {T : Int}

/-! ## One row -/

theorem lay_base (r : LedgerRow) (hc : r.price.unit.calendar) : (lay (some x) r).2 =
    if r.settled ≤ x.prev_end then x.base else r.settled := by
  unfold lay Laid.base
  by_cases h : r.settled ≤ x.prev_end
  · simp [h, hc]
  · simp [h]

theorem base_notLater (hy : y.OnAnchor) {t : Int} (hle : t ≤ y.prev_end) (hm : monthOf t = monthOf y.prev_end) :
    NotLaterInMonth t y.base := by
  have ht := Subscriptions.notLater_of_le hle hm
  unfold Laid.base
  by_cases hc : y.prev_unit.calendar
  · rw [if_pos hc]
    obtain ⟨n, hn⟩ := hy hc
    unfold NotLaterInMonth at ht ⊢
    rw [hn, Subscriptions.dayOfMonth_plusMonths, Subscriptions.timeOfDay_plusMonths] at ht
    omega
  · rw [if_neg hc]
    exact ht

theorem lay_notLater (ho : ∀ x ∈ o, NotLater x y) (hy : y.OnAnchor) (hc : r.price.unit.calendar) :
    monthOf (lay o r).1 < monthOf (lay (some y) r).1 ∨
      (monthOf (lay o r).1 = monthOf (lay (some y) r).1 ∧ NotLaterInMonth (lay o r).2 (lay (some y) r).2) := by
  have hsettled : lay o r = (r.settled, r.settled) →
      monthOf (lay o r).1 < monthOf (lay (some y) r).1 ∨
        (monthOf (lay o r).1 = monthOf (lay (some y) r).1 ∧ NotLaterInMonth (lay o r).2 (lay (some y) r).2) := by
    intro hl
    rw [hl, lay_start, lay_base r hc]
    by_cases hle : r.settled ≤ y.prev_end
    · rw [if_pos hle, max_eq_right hle]
      rcases Subscriptions.month_cases hle with hlt | ⟨hm, -⟩
      · exact .inl hlt
      · exact .inr ⟨hm, base_notLater hy hle hm⟩
    · rw [if_neg hle, max_eq_left (not_le.mp hle).le]
      exact .inr ⟨rfl, .refl _⟩
  cases o with
  | none => exact hsettled rfl
  | some x =>
    have hx := ho x rfl
    by_cases hle : r.settled ≤ x.prev_end
    · rw [lay_start, lay_start, lay_base r hc, lay_base r hc, if_pos hle, if_pos (hle.trans hx.ends), max_eq_right hle,
        max_eq_right (hle.trans hx.ends)]
      exact hx.base
    · apply hsettled
      simp [lay, hle]

theorem lay_start_le (ho : ∀ x ∈ o, NotLater x y) : (lay o r).1 ≤ (lay (some y) r).1 := by
  rw [lay_start]
  cases o with
  | none => exact le_max_left _ _
  | some x =>
    have := (ho x rfl).ends
    rw [lay_start]
    omega

theorem next_base (o : Option Laid) (hc : r.price.unit.calendar) : (next o r).base = (lay o r).2 := by
  unfold Laid.base
  exact if_pos hc

theorem next_month (o : Option Laid) (hc : r.price.unit.calendar) :
    monthOf (next o r).prev_end = monthOf (lay o r).1 + intervalMonths r.price.unit r.price.count := by
  have he : (next o r).prev_end = r.price.periodEnd (lay o r).1 (lay o r).2 := rfl
  rw [he, periodEnd_calendar hc, Subscriptions.monthOf_plusMonths]
  omega

theorem next_day (o : Option Laid) (hc : r.price.unit.calendar) :
    dayOfMonth (next o r).prev_end = min (dayOfMonth (lay o r).2) (monthLength (monthOf (next o r).prev_end) - 1) ∧
      timeOfDay (next o r).prev_end = timeOfDay (lay o r).2 := by
  have he : (next o r).prev_end = r.price.periodEnd (lay o r).1 (lay o r).2 := rfl
  rw [next_month o hc, he, periodEnd_calendar hc, Subscriptions.dayOfMonth_plusMonths,
    Subscriptions.timeOfDay_plusMonths]
  refine ⟨?_, rfl⟩
  congr 3
  omega

def Clamped (e anchor : Int) : Prop := dayOfMonth e < dayOfMonth anchor

theorem next_notLater (ho : ∀ x ∈ o, NotLater x y) (hy : y.OnAnchor)
    (hclamp : r.price.unit.calendar → Clamped (next (some y) r).prev_end (lay (some y) r).2 →
      timeOfDay (lay o r).2 ≤ timeOfDay (lay (some y) r).2) : NotLater (next o r) (next (some y) r) := by
  cases hc : r.price.unit.calendar with
  | true =>
    have hm := next_month o hc
    have hm' := next_month (some y) hc
    rcases lay_notLater ho hy hc with hlt | ⟨heq, hanchor⟩
    · have hmonth : monthOf (next o r).prev_end < monthOf (next (some y) r).prev_end := by omega
      exact ⟨(Subscriptions.lt_of_monthOf hmonth).le, .inl hmonth⟩
    · have hmonth : monthOf (next o r).prev_end = monthOf (next (some y) r).prev_end := by omega
      obtain ⟨hd, ht⟩ := next_day o hc
      obtain ⟨hd', ht'⟩ := next_day (some y) hc
      refine ⟨Subscriptions.le_of_notLater hmonth ?_, .inr ⟨hmonth, ?_⟩⟩
      · -- the two ends differ by the anchors' times of day only where the later fold's is clamped
        have hlast := hclamp hc
        unfold Clamped at hlast
        unfold NotLaterInMonth at hanchor ⊢
        rw [hmonth] at hd
        omega
      · rw [next_base o hc, next_base (some y) hc]
        exact hanchor
  | false =>
    have he : (next o r).prev_end = (lay o r).1 + r.price.days * DAY_MS := periodEnd_days hc
    have he' : (next (some y) r).prev_end = (lay (some y) r).1 + r.price.days * DAY_MS := periodEnd_days hc
    have hle := lay_start_le (r := r) ho
    have hends : (next o r).prev_end ≤ (next (some y) r).prev_end := by omega
    have hbase : ∀ o, (next o r).base = (next o r).prev_end := by
      intro o
      unfold Laid.base
      exact if_neg (by simp [next, hc])
    refine ⟨hends, ?_⟩
    rw [hbase, hbase]
    exact Subscriptions.month_cases hends

theorem lay_within (ho : ∀ x ∈ o, x.Within T) (hr : timeOfDay r.settled ≤ T) :
    timeOfDay (lay o r).1 ≤ T ∧ timeOfDay (lay o r).2 ≤ T := by
  cases o with
  | none => exact ⟨hr, hr⟩
  | some x =>
    obtain ⟨hend, hanchor⟩ := ho x rfl
    unfold lay
    by_cases h : r.settled ≤ x.prev_end
    · simp only [h, if_true]
      split
      · exact ⟨hend, hanchor⟩
      · exact ⟨hend, hend⟩
    · simp only [h, if_false]
      exact ⟨hr, hr⟩

theorem next_within (ho : ∀ x ∈ o, x.Within T) (hr : timeOfDay r.settled ≤ T) : (next o r).Within T := by
  obtain ⟨hs, ha⟩ := lay_within ho hr
  refine ⟨?_, ha⟩
  cases hc : r.price.unit.calendar with
  | true =>
    rw [(next_day o hc).2]
    exact ha
  | false =>
    have he : (next o r).prev_end = (lay o r).1 + r.price.days * DAY_MS := periodEnd_days hc
    unfold timeOfDay at hs ⊢
    rw [he, Int.add_mul_emod_self_right]
    exact hs

/-! ## The rest of the ledger -/

def PersonalSpan.NotLater (s' s : PersonalSpan) : Prop :=
  s'.purchaseId = s.purchaseId ∧ s'.effectiveStart ≤ s.effectiveStart ∧ s'.effectiveEnd ≤ s.effectiveEnd

def ClampsLate (kept : List SubscriptionPurchase) (ls : List Laying) : Prop :=
  ∀ l ∈ ls, l.purchase.price.unit.calendar → Clamped l.span.effectiveEnd l.anchor →
    ∀ q ∈ kept, timeOfDay q.settled ≤ timeOfDay l.anchor

variable {ps : List SubscriptionPurchase}

theorem layAll_notLater (kept : List SubscriptionPurchase) (hps : ∀ p ∈ ps, p ∈ kept) (ho : ∀ x ∈ o, NotLater x y)
    (hy : y.OnAnchor) (hw : ∀ T, (∀ q ∈ kept, timeOfDay q.settled ≤ T) → ∀ x ∈ o, x.Within T)
    (hclamp : ClampsLate kept (layings (some y) ps)) :
    List.Forall₂ PersonalSpan.NotLater (layAll o (ps.map (·.row))) (layAll (some y) (ps.map (·.row))) := by
  induction ps generalizing o y with
  | nil => exact .nil
  | cons p ps ih =>
    have hstep : NotLater (next o p.row) (next (some y) p.row) := by
      refine next_notLater ho hy fun hc hcl => ?_
      have hT := hclamp _ List.mem_cons_self hc hcl
      exact (lay_within (hw _ hT) (hT p (hps p List.mem_cons_self))).2
    refine .cons ⟨rfl, lay_start_le ho, hstep.ends⟩ (ih (fun q hq => hps q (List.mem_cons_of_mem _ hq)) ?_ ?_ ?_ ?_)
    · rintro _ ⟨⟩
      exact hstep
    · refine next_onAnchor ?_ p.row
      rintro _ ⟨⟩
      exact hy
    · rintro T hT _ ⟨⟩
      exact next_within (hw T hT) (hT p (hps p List.mem_cons_self))
    · exact fun l hl => hclamp l (List.mem_cons_of_mem _ hl)

theorem notLater_removed (hx : x.OnAnchor) (r : LedgerRow) : NotLater x (next (some x) r) := by
  have hstart : x.prev_end ≤ (lay (some x) r).1 := by
    rw [lay_start]
    omega
  have hlt : (lay (some x) r).1 < (next (some x) r).prev_end := start_lt_periodEnd r.price _ _
  refine ⟨by omega, ?_⟩
  cases hc : r.price.unit.calendar with
  | true =>
    have hpos := intervalMonths_pos r.price
    have hm := next_month (some x) hc
    rcases Subscriptions.month_cases hstart with hms | ⟨hms, -⟩
    · exact .inl (by omega)
    · exact .inl (by omega)
  | false =>
    have hbase : (next (some x) r).base = (next (some x) r).prev_end := by
      unfold Laid.base
      exact if_neg (by simp [next, hc])
    rcases Subscriptions.month_cases (hstart.trans hlt.le) with hm | ⟨hm, hday⟩
    · exact .inl hm
    refine .inr ⟨hm, ?_⟩
    rw [hbase]
    unfold Laid.base
    by_cases hxc : x.prev_unit.calendar
    · rw [if_pos hxc]
      obtain ⟨n, hn⟩ := hx hxc
      -- a whole day later in the same month: the end before was not the month's last day
      have hdays := days_pos r.price
      have he : (next (some x) r).prev_end = (lay (some x) r).1 + r.price.days * DAY_MS := periodEnd_days hc
      have hnext : x.prev_end / DAY_MS + 1 ≤ (next (some x) r).prev_end / DAY_MS := by
        have hle : x.prev_end + 1 * DAY_MS ≤ (next (some x) r).prev_end := by
          have := Int.mul_le_mul_of_nonneg_right (show 1 ≤ r.price.days by omega) (show 0 ≤ DAY_MS by decide)
          omega
        rw [← Int.add_mul_ediv_right _ _ (show DAY_MS ≠ 0 by decide)]
        exact Int.ediv_le_ediv (by decide) hle
      have hlater : dayOfMonth x.prev_end < dayOfMonth (next (some x) r).prev_end := by
        unfold dayOfMonth
        rw [hm]
        omega
      have hlast := (Subscriptions.dayOfMonth_bounds (next (some x) r).prev_end).2
      have hd := Subscriptions.dayOfMonth_plusMonths x.anchor n
      rw [← Subscriptions.monthOf_plusMonths, ← hn, hm] at hd
      exact .inl (by omega)
    · rw [if_neg hxc]
      exact hday

/-! ## The whole ledger -/

theorem layings_append (o : Option Laid) (ps qs : List SubscriptionPurchase) :
    layings o (ps ++ qs) = layings o ps ++ layings (after o (ps.map (·.row))) qs := by
  induction ps generalizing o with
  | nil => rfl
  | cons p ps ih => simp only [List.cons_append, layings, ih, after, List.map_cons, List.foldl_cons]

theorem after_onAnchor (ho : ∀ x ∈ o, x.OnAnchor) (rows : List LedgerRow) : ∀ x ∈ after o rows, x.OnAnchor := by
  induction rows generalizing o with
  | nil => exact ho
  | cons r rows ih =>
    refine ih ?_
    rintro _ ⟨⟩
    exact next_onAnchor ho r

theorem after_within (ho : ∀ x ∈ o, x.Within T) (hps : ∀ p ∈ ps, timeOfDay p.settled ≤ T) :
    ∀ x ∈ after o (ps.map (·.row)), x.Within T := by
  induction ps generalizing o with
  | nil => exact ho
  | cons p ps ih =>
    refine ih ?_ fun q hq => hps q (List.mem_cons_of_mem _ hq)
    rintro _ ⟨⟩
    exact next_within ho (hps p List.mem_cons_self)

theorem layAll_reversal
    (hclamp : ClampsLate (before ++ p :: rest) (layings none (before ++ p :: rest))) :
    List.Forall₂ PersonalSpan.NotLater (layAll (after none (before.map (·.row))) (rest.map (·.row)))
      (layAll (some (next (after none (before.map (·.row))) p.row)) (rest.map (·.row))) := by
  have hfirst : ∀ x ∈ (none : Option Laid), x.OnAnchor := by
    intro x hx
    cases hx
  have hanchor := after_onAnchor hfirst (before.map (·.row))
  refine layAll_notLater (before ++ p :: rest) (fun q hq => by simp [hq]) ?_ (next_onAnchor hanchor p.row) ?_ ?_
  · intro x hx
    have hx' : after none (before.map (·.row)) = some x := hx
    rw [hx']
    exact notLater_removed (hanchor x hx) p.row
  · intro T hT
    refine after_within ?_ fun q hq => hT q (List.mem_append_left _ hq)
    intro x hx
    cases hx
  · intro l hl
    apply hclamp
    rw [layings_append]
    exact List.mem_append_right _ (List.mem_cons_of_mem _ hl)

theorem LedgerRuns.ids (h : LedgerRuns db) : (db.purchases.map (·.id)).Nodup := by
  refine h.invariant (P := fun db => (db.purchases.map (·.id)).Nodup) ?_ ?_
  · rintro db rfl
    exact .nil
  · intro s t _ hi ht
    cases ht with
    | recordPurchase p recorded h =>
      cases recorded with
      | true =>
        obtain ⟨rfl, hids⟩ := recordPurchase_recorded h
        exact nodup_append_row hi hids
      | false =>
        rw [recordPurchase_known h]
        exact hi
    | reversePurchase purchaseId reversed h =>
      rw [(reversePurchase_ok h).1]
      exact hi

theorem kept_reversed {db' : LedgerDb} {id : Uuid} (h : reversePurchase db id = .ok (db', true)) (personal : Uuid) :
    db'.kept personal = (db.kept personal).filter (·.id ≠ id) := by
  obtain ⟨hp, hr, -⟩ := reversePurchase_ok h
  unfold LedgerDb.kept
  rw [hp, hr, List.filter_filter]
  apply List.filter_congr
  intro q _
  by_cases hid : q.id = id
  · simp [hid]
  · simp [hid]

theorem spans_ids (db : LedgerDb) (personal : Uuid) : (billing_personal_spans db personal none).map (·.purchaseId) =
    (db.kept personal).map fun p => some p.id := by
  rw [billing_personal_spans_eq]
  exact (layAll_laidOut (db.kept personal)).ids

theorem spans_nodup (h : LedgerRuns db) (personal : Uuid) :
    ((billing_personal_spans db personal none).map (·.purchaseId)).Nodup := by
  rw [spans_ids]
  have hids : ((db.kept personal).map (·.id)).Nodup := h.ids.sublist (List.filter_sublist.map _)
  have hsome := hids.map (Option.some_injective _)
  rw [List.map_map] at hsome
  exact hsome

theorem spans_split {kept : List SubscriptionPurchase} (h : kept = before ++ p :: rest) :
    layAll none (kept.map (·.row)) = layAll none (before.map (·.row)) ++
      spanOf (after none (before.map (·.row))) p.row ::
        layAll (some (next (after none (before.map (·.row))) p.row)) (rest.map (·.row)) := by
  rw [h, List.map_append, layAll_append]
  rfl

theorem others_of_split (h : LedgerRuns db)
    (hsplit : db.kept personal = before ++ p :: rest) :
    (∀ q ∈ before, q.id ≠ p.id) ∧ ∀ q ∈ rest, q.id ≠ p.id := by
  have hids : ((db.kept personal).map (·.id)).Nodup := h.ids.sublist (List.filter_sublist.map _)
  rw [hsplit, List.map_append, List.map_cons] at hids
  obtain ⟨-, hcons, hdisj⟩ := List.nodup_append.mp hids
  refine ⟨fun q hq => hdisj q.id (List.mem_map_of_mem hq) p.id List.mem_cons_self, fun q hq hid => ?_⟩
  exact (List.nodup_cons.mp hcons).1 (hid ▸ List.mem_map_of_mem hq)

theorem kept_split (h : LedgerRuns db)
    (hsplit : db.kept personal = before ++ p :: rest) :
    (db.kept personal).filter (·.id ≠ p.id) = before ++ rest := by
  obtain ⟨hbefore, hrest⟩ := others_of_split h hsplit
  rw [hsplit, List.filter_append, List.filter_cons_of_neg (by simp)]
  congr 1
  · exact List.filter_eq_self.mpr fun q hq => by simpa using hbefore q hq
  · exact List.filter_eq_self.mpr fun q hq => by simpa using hrest q hq

theorem layAll_others (h : LedgerRuns db)
    (hsplit : db.kept personal = before ++ p :: rest) :
    ∀ s ∈ layAll none (before.map (·.row)), decide (s.purchaseId ≠ some p.id) = true := by
  intro s hs
  have hmem := List.mem_map_of_mem (f := (·.purchaseId)) hs
  rw [layAll_ids, List.map_map] at hmem
  obtain ⟨q, hq, hid⟩ := List.mem_map.mp hmem
  rw [← hid]
  simpa [SubscriptionPurchase.row] using (others_of_split h hsplit).1 q hq

theorem forall₂_mem {α β : Type} {R : α → β → Prop} {as : List α} {bs : List β} (h : List.Forall₂ R as bs) {a : α} (ha : a ∈ as) :
    ∃ b ∈ bs, R a b := by
  induction h with
  | nil => cases ha
  | cons hr _ ih =>
    rcases List.mem_cons.mp ha with rfl | ha
    · exact ⟨_, List.mem_cons_self, hr⟩
    · obtain ⟨b, hb, hab⟩ := ih ha
      exact ⟨b, List.mem_cons_of_mem _ hb, hab⟩

/-- **A reversal never moves another period later, but for the time of day of clamped ends.** The spans
before the reversed purchase stay as they are; the others start and end no later, where every end that
is clamped is on an anchor not earlier in the day than any settlement. -/
theorem reversal_not_later {db db' : LedgerDb} (h : LedgerRuns db) {id : Uuid}
    (hr : reversePurchase db id = .ok (db', true)) (personal : Uuid) :
    (billing_personal_spans db personal none).takeWhile (·.purchaseId ≠ some id) <+:
        billing_personal_spans db' personal none ∧
      (ClampsLate (db.kept personal) (layings none (db.kept personal)) →
        ∀ s ∈ billing_personal_spans db personal none, ∀ s' ∈ billing_personal_spans db' personal none,
          s'.purchaseId = s.purchaseId → s'.effectiveStart ≤ s.effectiveStart ∧ s'.effectiveEnd ≤ s.effectiveEnd) := by
  have hnodup := spans_nodup h personal
  have hkept := kept_reversed hr personal
  by_cases hmem : ∃ p ∈ db.kept personal, p.id = id
  · obtain ⟨p, hp, rfl⟩ := hmem
    obtain ⟨before, rest, hsplit⟩ := List.append_of_mem hp
    have hspans := (billing_personal_spans_eq db personal).trans (spans_split hsplit)
    have hspans' := billing_personal_spans_eq db' personal
    rw [hkept, kept_split h hsplit, List.map_append, layAll_append] at hspans'
    rw [hspans] at hnodup ⊢
    rw [hspans']
    constructor
    · rw [List.takeWhile_append_of_pos (layAll_others h hsplit), List.takeWhile_cons_of_neg (by simp [spanOf, SubscriptionPurchase.row]),
        List.append_nil]
      exact List.prefix_append _ _
    · intro hclamp s hs s' hs' hid
      rw [hsplit] at hclamp
      have hrest := layAll_reversal hclamp
      rcases List.mem_append.mp hs' with hs' | hs'
      · rw [eq_of_key hnodup (List.mem_append_left _ hs') hs hid]
        exact ⟨le_rfl, le_rfl⟩
      · obtain ⟨t, ht, hle⟩ := forall₂_mem hrest hs'
        have htmem := List.mem_append_right (layAll none (before.map (·.row)))
          (List.mem_cons_of_mem (spanOf (after none (before.map (·.row))) p.row) ht)
        rw [← eq_of_key hnodup htmem hs (hle.1.symm.trans hid)]
        exact hle.2
  · have hsame : db'.kept personal = db.kept personal := by
      rw [hkept, List.filter_eq_self]
      intro q hq
      simp only [decide_eq_true_eq]
      exact fun hid => hmem ⟨q, hq, hid⟩
    rw [billing_personal_spans_eq db', hsame, ← billing_personal_spans_eq]
    refine ⟨List.takeWhile_prefix _, fun _ s hs s' hs' hid => ?_⟩
    rw [eq_of_key hnodup hs' hs hid]
    exact ⟨le_rfl, le_rfl⟩

end

def reversed (db : LedgerDb) (purchaseId : Uuid) : LedgerDb :=
  match reversePurchase db purchaseId with
  | .ok r => r.1
  | .error _ => db

/-- Without the two months the month starts on March 30 at 23:00, and ends on April 30 at 23:00 and not at 00:00. -/
theorem reversal_moves_end_later :
    ¬ ∀ (db db' : LedgerDb) (id personal : Uuid), LedgerRuns db → reversePurchase db id = .ok (db', true) →
      ∀ s ∈ billing_personal_spans db personal none, ∀ s' ∈ billing_personal_spans db' personal none,
        s'.purchaseId = s.purchaseId → s'.effectiveStart ≤ s.effectiveStart ∧ s'.effectiveEnd ≤ s.effectiveEnd := by
  intro hall
  have hbefore : (⟨some 2, 20908 * DAY_MS, 20938 * DAY_MS⟩ : PersonalSpan) ∈ billing_personal_spans renewed 7 none := by
    decide
  have hafter : (⟨some 2, 20907 * DAY_MS + 23 * 3600 * 1000, 20938 * DAY_MS + 23 * 3600 * 1000⟩ : PersonalSpan) ∈
      billing_personal_spans (reversed renewed 1) 7 none := by
    decide
  have hle := (hall renewed (reversed renewed 1) 1 7 renewed_runs rfl _ hbefore _ hafter rfl).2
  revert hle
  decide

def atMidnight : LedgerDb := recorded (recorded ⟨[], []⟩ twoMonths) { oneMonth with settledAt := 20907 * DAY_MS }

theorem reversal_not_later_atMidnight :
    ∃ s ∈ billing_personal_spans atMidnight 7 none, ∃ s' ∈ billing_personal_spans (reversed atMidnight 1) 7 none,
      s'.purchaseId = s.purchaseId ∧ s'.effectiveStart ≤ s.effectiveStart ∧ s'.effectiveEnd ≤ s.effectiveEnd := by
  have h0 : LedgerRuns ⟨[], []⟩ := .init rfl
  have hr : reversePurchase atMidnight 1 = .ok (reversed atMidnight 1, true) := rfl
  have hmidnight : ∀ l ∈ layings none (atMidnight.kept 7), timeOfDay l.anchor = 0 := by decide
  have hsettled : ∀ q ∈ atMidnight.kept 7, timeOfDay q.settled = 0 := by decide
  have hclamps : ClampsLate (atMidnight.kept 7) (layings none (atMidnight.kept 7)) := by
    intro l hl _ _ q hq
    rw [hsettled q hq, hmidnight l hl]
  have hlater := (reversal_not_later ((h0.recorded twoMonths).recorded { oneMonth with settledAt := 20907 * DAY_MS }) hr 7).2 hclamps
  have hbefore : (⟨some 2, 20908 * DAY_MS, 20938 * DAY_MS⟩ : PersonalSpan) ∈ billing_personal_spans atMidnight 7 none := by decide
  have hafter : (⟨some 2, 20907 * DAY_MS, 20938 * DAY_MS⟩ : PersonalSpan) ∈ billing_personal_spans (reversed atMidnight 1) 7 none := by decide
  exact ⟨_, hbefore, _, hafter, rfl, hlater _ hbefore _ hafter rfl⟩

end NawaraCore.PersonalSubscriptions
