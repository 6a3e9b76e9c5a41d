import NawaraCore.Billing.CadenceSound

/-!
# What the lifecycle operations are refused for

An operation either writes rows that pass every database rule or is refused by
name. A termination of a row whose grace has passed, and a settlement at a price
that was retired, are the two that a database rule refuses instead.
-/

namespace NawaraCore.Subscriptions

/-! ## The rules of an update -/

section
variable {price : Option Price} {old new row : SubscriptionRow}

theorem checkRow_of_ok (h : RowOk new) : checkRow new = .ok new := by
  have hn : (checks new).find? (fun c => !c.2) = none := by
    rw [List.find?_eq_none]
    intro c hc
    simp [h c hc]
  unfold checkRow
  rw [hn]

def calendarPrice (price : Option Price) : Bool := (price.bind Price.interval).any fun i => i.1.calendar

def AnchorShape (price : Option Price) (row : SubscriptionRow) : Prop :=
  row.status = .pending ∨ (calendarPrice price = true ↔ row.billingAnchorAt ≠ none)

theorem billingAnchor_shape {r : SubscriptionRow} (h : billingAnchor price old new = .ok r) : AnchorShape price r := by
  have hr := billingAnchor_ok h
  subst hr
  unfold billingAnchor at h
  simp only at h
  split at h
  · rename_i hp
    exact .inl hp
  split at h
  · cases h
  rename_i hnone
  split at h
  · cases h
  rename_i hsome
  refine .inr ⟨fun hc hn => hnone ⟨hc, hn⟩, fun hn => ?_⟩
  by_contra hc
  exact hsome ⟨hc, hn⟩

theorem billingAnchor_total (hshape : AnchorShape price new) (hmove : new.billingAnchorAt = old.billingAnchorAt ∨
    (new.currentPeriodStart ≠ old.currentPeriodStart ∧ new.billingAnchorAt = new.currentPeriodStart)) :
    billingAnchor price old new = .ok new := by
  unfold billingAnchor
  simp only
  by_cases hp : new.status = .pending
  · rw [if_pos hp]
  have hiff : calendarPrice price = true ↔ new.billingAnchorAt ≠ none := hshape.resolve_left hp
  rw [if_neg hp, if_neg fun h => (hiff.mp h.1) h.2, if_neg fun h => h.1 (hiff.mpr h.2), if_neg]
  rintro ⟨hne, hstart⟩
  rcases hmove with hsame | ⟨hnew, hset⟩
  · exact hne hsame
  · exact hstart.elim hnew fun h => h hset

def lifecycleRow (old new : SubscriptionRow) : SubscriptionRow :=
  { new with
    cancelAtPeriodEnd := if new.currentPeriodEnd ≠ old.currentPeriodEnd then false else new.cancelAtPeriodEnd
    effectiveTerminationAt := if new.status = .active then none else new.effectiveTerminationAt }

def storedRow (old new : SubscriptionRow) : SubscriptionRow :=
  { lifecycleRow old new with revision := old.revision + 1 }

theorem guardedUpdate_eq (ht : transitionAllowed old.status new.status = true) (hshape : AnchorShape price new)
    (hmove : new.billingAnchorAt = old.billingAnchorAt ∨
      (new.currentPeriodStart ≠ old.currentPeriodStart ∧ new.billingAnchorAt = new.currentPeriodStart)) :
    guardedUpdate price old new = checkRow (storedRow old new) := by
  have hl : lifecycle old new = .ok (lifecycleRow old new) := by
    unfold lifecycle
    rw [if_pos ht]
    rfl
  have hb : billingAnchor price old (lifecycleRow old new) = .ok (lifecycleRow old new) := billingAnchor_total hshape hmove
  unfold guardedUpdate
  rw [hl]
  show (billingAnchor price old (lifecycleRow old new) >>= fun n => checkRow { n with revision := old.revision + 1 }) = _
  rw [hb]
  rfl

theorem rowOk_iff (hs : new.status ≠ .pending) {s e : Int} (hstart : new.currentPeriodStart = some s)
    (hend : new.currentPeriodEnd = some e) (hgrace : new.graceUntil = some (e + DAY_MS)) :
    RowOk new ↔ s < e ∧ ∀ t ∈ new.effectiveTerminationAt, t ≤ e + DAY_MS := by
  have hD : (0 : Int) < DAY_MS := by decide
  simp only [RowOk, checks, List.forall_mem_cons, decide_eq_true_eq, hs, ne_eq, false_or, not_false_eq_true, true_or,
    hstart, hend, hgrace, Option.mem_def, Option.some.injEq, forall_eq', reduceCtorEq, and_true, true_and, Option.or_some,
    List.not_mem_nil, false_implies, implies_true]
  constructor
  · rintro ⟨hse, -, ht⟩
    exact ⟨hse, ht⟩
  · rintro ⟨hse, ht⟩
    exact ⟨hse, by omega, ht⟩

theorem period_of_rowOk (hok : RowOk row) (hs : row.status ≠ .pending) :
    ∃ s e, row.currentPeriodStart = some s ∧ row.currentPeriodEnd = some e ∧ row.graceUntil = some (e + DAY_MS) ∧
      s < e ∧ ∀ t ∈ row.effectiveTerminationAt, t ≤ e + DAY_MS := by
  obtain ⟨s, e, hstart, hend, -, hgrace, -⟩ := entitlement_of_row hok hs
  obtain ⟨hse, ht⟩ := (rowOk_iff hs hstart hend hgrace).mp hok
  exact ⟨s, e, hstart, hend, hgrace, hse, ht⟩

end

/-! ## The anchor of every stored row -/

def Anchored (db : Db) : Prop := ∀ o row, db.subscriptions o = some row → AnchorShape (db.prices row.priceId) row

variable {p : SettlementParams} {reset : Bool}

section
variable {db db' : Db} {r : WriteResult} {row new : SubscriptionRow}

theorem guardedUpdate_shape {price : Option Price} {u : SubscriptionRow} (h : guardedUpdate price row new = .ok u) :
    AnchorShape price u := by
  unfold guardedUpdate at h
  obtain ⟨a, -, h⟩ := bind_eq_ok.mp h
  obtain ⟨b, hb, h⟩ := bind_eq_ok.mp h
  obtain ⟨rfl, -⟩ := checkRow_ok h
  have hshape : AnchorShape price b := billingAnchor_shape hb
  exact hshape

theorem put_anchored (hdb : Anchored db) (h : AnchorShape (db.prices row.priceId) row) : Anchored (db.put row) := by
  intro o x hx
  by_cases ho : o = row.organizationId
  · subst ho
    rw [put_self] at hx
    cases hx
    exact h
  · simp only [Db.put, Function.update_of_ne ho] at hx
    exact hdb o x hx

theorem rollPeriod_anchored {anchor : Int} (hdb : Anchored db)
    (h : rollPeriod db row anchor reset = .ok (db', r)) : Anchored db' := by
  unfold rollPeriod at h
  simp only at h
  split at h
  · cases h
  · obtain ⟨u, hu, h⟩ := bind_eq_ok.mp h
    have hshape := guardedUpdate_shape hu
    obtain ⟨-, -, hu⟩ := guardedUpdate_ok hu
    cases h
    refine put_anchored hdb ?_
    have hprice : u.priceId = row.priceId := by rw [hu]
    rw [hprice]
    exact hshape

theorem applySettlement_anchored (hdb : Anchored db) (h : applySettlement db p = .ok (db', r)) :
    Anchored db' := by
  unfold applySettlement at h
  obtain ⟨⟨d, _⟩, hc, h⟩ := bind_eq_ok.mp h
  obtain ⟨row, _, h⟩ := bind_eq_ok.mp h
  obtain ⟨o, hi, h⟩ := bind_eq_ok.mp h
  have hd : Anchored d := by
    rcases createTx_ok hc with ⟨rfl, -⟩ | ⟨-, -, rfl⟩
    · exact hdb
    · exact put_anchored hdb (.inl rfl)
  rcases insertSettlement_ok hi with ⟨-, rfl⟩ | ⟨-, x, -, rfl⟩
  · cases h
    exact hd
  · have hd' : Anchored { d with settlements := d.settlements ++ [x] } := hd
    simp only at h
    split at h
    · exact rollPeriod_anchored hd' h
    · exact rollPeriod_anchored hd' h
    · cases h

theorem KeepsPeriods.anchored (h : KeepsPeriods db db') (hdb : Anchored db) : Anchored db' := by
  intro o row' hrow'
  rw [h.1]
  rcases h.2 o row' hrow' with ⟨hp, -⟩ | ⟨row, hrow, hsame⟩
  · exact .inl hp
  · rcases hdb o row hrow with hp | hiff
    · exact .inl (hsame.pending hp)
    · refine .inr ?_
      rw [hsame.priceId, hsame.billingAnchorAt]
      exact hiff

theorem reachable_anchored (h : Reachable Init Step db) : Anchored db := by
  induction h with
  | init h0 =>
    intro o row hrow
    cases (h0.1 o).symm.trans hrow
  | @step db db' hr hs ih =>
    obtain ⟨n, hn⟩ := counted_runs.mp hr
    cases hs with
    | op o r h =>
      by_cases ho : ∃ p, o = .applySettlement p
      · obtain ⟨p, rfl⟩ := ho
        exact applySettlement_anchored ih h
      · exact (run_periods (reachable_rows hr) (fun p hp => ho ⟨p, hp⟩) h).anchored ih
    | record prices routed verified hp =>
      intro o row hrow
      obtain ⟨price, hprice⟩ := hn.cadence.priced o row hrow
      obtain ⟨q, hq, -, hinterval⟩ := hp _ price hprice
      have hsame : calendarPrice (prices row.priceId) = calendarPrice (db.prices row.priceId) := by
        have hprice : db.prices row.priceId = some price := hprice
        simp [calendarPrice, hq, hprice, hinterval]
      have hold := ih o row hrow
      unfold AnchorShape at hold ⊢
      rw [hsame]
      exact hold

end

/-! ## Refusals -/

/-- An operation writes rows that pass every rule, or its refusal has a name; a refused one is rolled back. -/
def Total (db : Db) (op : Op) : Prop :=
  match op.run db with
  | .ok (db', _) => RowsOk db' ∧ Anchored db'
  | .error (.refused _) => False
  | .error (.billing _ _) => True
  | .error .notFound => True

variable {count : Nat}

section
variable {db db' : Db} {op : Op} {row new : SubscriptionRow}

def Refuses {α : Type} (e : Except Failure α) : Prop := ∃ c, e = .error (.refused c)

theorem total_iff (hr : Reachable Init Step db) : Total db op ↔ ¬ Refuses (op.run db) := by
  unfold Total Refuses
  cases h : op.run db with
  | ok x =>
    have hr' : Reachable Init Step x.1 := hr.step (.op op x.2 h)
    simp [reachable_rows hr', reachable_anchored hr']
  | error e =>
    cases e with
    | billing s c => simp
    | notFound => simp
    | refused c => simp

theorem checkRow_refuses : Refuses (checkRow row) ↔ ¬ RowOk row := by
  constructor
  · rintro ⟨c, hc⟩ hok
    rw [checkRow_of_ok hok] at hc
    cases hc
  · intro hno
    unfold checkRow Refuses
    split
    · exact ⟨_, rfl⟩
    · rename_i hn
      exact absurd (fun c hc => by simpa using List.find?_eq_none.mp hn c hc) hno

theorem refuses_map {α β : Type} {e : Except Failure α} {f : α → β} :
    Refuses (e >>= fun a => .ok (f a)) ↔ Refuses e := by
  cases e with
  | error e =>
    constructor
    · rintro ⟨c, hc⟩
      cases hc
      exact ⟨c, rfl⟩
    · rintro ⟨c, hc⟩
      cases hc
      exact ⟨c, rfl⟩
  | ok a => simp [Refuses, bind, Except.bind]

theorem update_refuses (hok : RowOk row) (hs : row.status ≠ .pending) (hshape : AnchorShape (db.prices row.priceId) row)
    (hsame : SamePeriod row new) (hnew : new.status ≠ .pending) (ht : transitionAllowed row.status new.status = true) :
    Refuses (update db row new) ↔
      new.status ≠ .active ∧ ∃ t ∈ new.effectiveTerminationAt, ∃ g ∈ row.graceUntil, g < t := by
  obtain ⟨s, e, hstart, hend, hgrace, hse, -⟩ := period_of_rowOk hok hs
  have hshape' : AnchorShape (db.prices row.priceId) new := by
    refine .inr ?_
    rw [hsame.billingAnchorAt]
    exact hshape.resolve_left hs
  have hupdate : Refuses (update db row new) ↔
      Refuses (checkRow (storedRow row new)) := by
    unfold update
    rw [refuses_map, guardedUpdate_eq ht hshape' (.inl hsame.billingAnchorAt)]
  have hchecks : RowOk (storedRow row new) ↔
      s < e ∧ ∀ t ∈ (storedRow row new).effectiveTerminationAt, t ≤ e + DAY_MS :=
    @rowOk_iff (storedRow row new) hnew s e (hsame.currentPeriodStart.trans hstart)
      (hsame.currentPeriodEnd.trans hend) (hsame.graceUntil.trans hgrace)
  rw [hupdate, checkRow_refuses, hchecks]
  by_cases ha : new.status = .active
  · simp [storedRow, lifecycleRow, ha, hse]
  · simp [storedRow, lifecycleRow, ha, hse, hgrace]

/-! ## Settlements -/

/-- What the payment flow promises of a settlement: its evidence, its routing record, and an invoice line of a
recurring price of the product. -/
structure Routed (db : Db) (p : SettlementParams) : Prop where
  verified : db.verified p.receiptId p.paymentRequestId p.invoiceId = true
  routed : db.routed p.invoiceId = some (p.organizationId, p.productId)
  priced : ∃ price, db.prices p.priceId = some price ∧ price.productId = p.productId ∧ price.interval ≠ none

def CountsPositive (db : Db) : Prop :=
  ∀ i price unit count, db.prices i = some price → price.interval = some (unit, count) → 1 ≤ count

variable {unit : IntervalUnit}

theorem period_end_total (hcount : 1 ≤ count) (start : Int) {anchor : Option Int}
    (ha : unit.calendar = true → anchor ≠ none) :
    ∃ e, billing_subscription_period_end start anchor unit count = some e ∧ start < e := by
  have hD : (0 : Int) < DAY_MS := by decide
  have hc : (1 : Int) ≤ count := by exact_mod_cast hcount
  by_cases hu : unit.calendar = true
  · obtain ⟨a, rfl⟩ := Option.ne_none_iff_exists'.mp (ha hu)
    refine ⟨_, calendar_period_end hu start a count, ?_⟩
    have hpos : 0 < intervalMonths unit count := by
      unfold intervalMonths
      split <;> omega
    apply lt_of_monthOf
    rw [monthOf_plusMonths]
    omega
  · cases unit with
    | month => exact absurd rfl hu
    | year => exact absurd rfl hu
    | day =>
      refine ⟨_, rfl, ?_⟩
      have := Int.mul_pos (by omega : (0 : Int) < count) hD
      omega
    | week =>
      refine ⟨_, rfl, ?_⟩
      have := Int.mul_pos (by omega : (0 : Int) < count) (by omega : (0 : Int) < 7 * DAY_MS)
      omega

def rollAnchor (row : SubscriptionRow) (unit : IntervalUnit) (start : Int) (reset : Bool) : Option Int :=
  if unit.calendar then (if reset then some start else row.billingAnchorAt) else none

def rolledRow (row : SubscriptionRow) (start : Int) (anchor newEnd : Option Int) : SubscriptionRow :=
  { row with
    status := .active
    currentPeriodStart := some start
    currentPeriodEnd := newEnd
    billingAnchorAt := anchor
    graceUntil := newEnd.map (· + DAY_MS) }

theorem rollPeriod_eq {start : Int}
    (hi : (db.prices row.priceId).bind Price.interval = some (unit, count)) :
    rollPeriod db row start reset =
      update db row (rolledRow row start (rollAnchor row unit start reset)
        (billing_subscription_period_end start (rollAnchor row unit start reset) unit count)) := by
  unfold rollPeriod
  simp only [hi]
  rfl

structure Rolls (row : SubscriptionRow) (start : Int) (reset : Bool) : Prop where
  moves : reset = true → row.currentPeriodStart ≠ some start
  keeps : reset = false → row.status ≠ .pending

section
variable {unit : IntervalUnit} {start : Int} {reset : Bool} {price : Option Price}

theorem rollAnchor_calendar (hu : unit.calendar = true) :
    rollAnchor row unit start reset = if reset then some start else row.billingAnchorAt := by
  unfold rollAnchor
  rw [if_pos hu]

theorem rollAnchor_days (hu : unit.calendar = false) : rollAnchor row unit start reset = none := by
  unfold rollAnchor
  rw [if_neg (by simp [hu])]

theorem rollAnchor_some (hshape : AnchorShape price row) (hc : calendarPrice price = unit.calendar)
    (hroll : Rolls row start reset) (hu : unit.calendar = true) : rollAnchor row unit start reset ≠ none := by
  rw [rollAnchor_calendar hu]
  cases reset with
  | true => simp
  | false => exact (hshape.resolve_left (hroll.keeps rfl)).mp (hc.trans hu)

theorem noAnchor (hok : RowOk row) (hshape : AnchorShape price row) (hc : calendarPrice price = false) :
    row.billingAnchorAt = none := by
  rcases hshape with hp | hiff
  · have hcheck := hok ("subscription_pending_no_billing_anchor", row.status ≠ .pending ∨ row.billingAnchorAt = none)
      (by simp [checks])
    simpa [hp] using hcheck
  · by_contra hne
    rw [hiff.mpr hne] at hc
    cases hc

theorem rollAnchor_moves (hok : RowOk row) (hshape : AnchorShape price row) (hc : calendarPrice price = unit.calendar)
    (hroll : Rolls row start reset) : rollAnchor row unit start reset = row.billingAnchorAt ∨
      (some start ≠ row.currentPeriodStart ∧ rollAnchor row unit start reset = some start) := by
  cases hu : unit.calendar with
  | false =>
    left
    rw [rollAnchor_days hu, noAnchor hok hshape (hc.trans hu)]
  | true =>
    rw [rollAnchor_calendar hu]
    cases reset with
    | false => exact .inl rfl
    | true => exact .inr ⟨fun h => hroll.moves rfl h.symm, rfl⟩

end

variable {price : Price}

theorem rollPeriod_total {start : Int}
    (hok : RowOk row) (hshape : AnchorShape (db.prices row.priceId) row) (hprice : db.prices row.priceId = some price)
    (hi : price.interval = some (unit, count)) (hcount : 1 ≤ count) (hroll : Rolls row start reset) :
    ¬ Refuses (rollPeriod db row start reset) := by
  have hbind : (db.prices row.priceId).bind Price.interval = some (unit, count) := by
    rw [hprice]
    exact hi
  have hc : calendarPrice (db.prices row.priceId) = unit.calendar := by simp [calendarPrice, hbind]
  have hsome := rollAnchor_some hshape hc hroll
  obtain ⟨e, he, hlt⟩ := period_end_total hcount start hsome
  rw [rollPeriod_eq hbind, he]
  have ht : transitionAllowed row.status .active = true := by
    cases row.status <;> rfl
  have hnew : AnchorShape (db.prices row.priceId)
      (rolledRow row start (rollAnchor row unit start reset) (some e)) := by
    refine .inr ?_
    rw [hc]
    refine ⟨hsome, fun hne => ?_⟩
    by_contra hu
    exact hne (rollAnchor_days (by simpa using hu))
  have hmove := rollAnchor_moves hok hshape hc hroll
  have hstored : RowOk (storedRow row (rolledRow row start (rollAnchor row unit start reset) (some e))) := by
    refine (rowOk_iff (s := start) (e := e) (fun h => by cases h) rfl rfl rfl).mpr ⟨hlt, ?_⟩
    intro t ht
    cases ht
  unfold update
  rw [refuses_map, guardedUpdate_eq ht hnew hmove, checkRow_refuses]
  exact fun h => h hstored

def settleLocked (db : Db) (p : SettlementParams) : Except Failure (Db × WriteResult) := do
  let row ← lock db p.organizationId
  match ← insertSettlement db p with
  | none => .ok (db, ⟨row, false⟩)
  | some db =>
    match row.status, row.currentPeriodEnd with
    | .pending, _ => rollPeriod db row p.settledAt true
    | _, some currentPeriodEnd =>
      let basis : RenewalBasis := ⟨currentPeriodEnd, row.graceUntil⟩
      rollPeriod db row (renewalAnchor basis p.settledAt) (isLateRenewal basis p.settledAt)
    | _, none => .error (.refused "subscription_active_has_period")

theorem applySettlement_eq (db : Db) (p : SettlementParams) :
    applySettlement db p = createTx db p.organizationId p.productId p.priceId >>= fun x => settleLocked x.1 p := rfl

theorem refuses_billing {α : Type} {s : Nat} {c : String} : ¬ Refuses (Except.error (.billing s c) : Except Failure α) := by
  rintro ⟨c', h⟩
  cases h

theorem refuses_ok {α : Type} {a : α} : ¬ Refuses (Except.ok a) := by
  rintro ⟨c, h⟩
  cases h

theorem rolls_renewal (hok : RowOk row) (hs : row.status ≠ .pending) {e : Int} (hend : row.currentPeriodEnd = some e)
    (settledAt : Int) : Rolls row (renewalAnchor ⟨e, row.graceUntil⟩ settledAt) (isLateRenewal ⟨e, row.graceUntil⟩ settledAt) := by
  obtain ⟨s, e', hstart, hend', hgrace, hse, -⟩ := period_of_rowOk hok hs
  cases hend.symm.trans hend'
  have hD : (0 : Int) < DAY_MS := by decide
  refine ⟨fun hlate hsame => ?_, fun _ => hs⟩
  rw [hgrace] at hlate hsame
  have hafter : e + DAY_MS < settledAt := by simpa [isLateRenewal] using hlate
  rw [renewalAnchor, if_pos hlate, hstart] at hsame
  cases hsame
  omega

theorem settleLocked_total (hrows : RowsOk db) (hanch : Anchored db)
    (hp : Routed db p) (hrow : db.subscriptions p.organizationId = some row) (hid : row.priceId = p.priceId)
    (hprice : db.prices p.priceId = some price)
    (hi : price.interval = some (unit, count)) (hcount : 1 ≤ count) : ¬ Refuses (settleLocked db p) := by
  have hok := (hrows _ _ hrow).2
  have hshape := hanch _ _ hrow
  have hprice' : db.prices row.priceId = some price := by
    rw [hid]
    exact hprice
  have hlock : lock db p.organizationId = .ok row := by
    unfold lock
    rw [hrow]
  unfold settleLocked
  rw [hlock]
  show ¬ Refuses (insertSettlement db p >>= _)
  unfold insertSettlement
  rw [if_neg (by simp [hp.verified])]
  by_cases hsettled : (db.settlements.any fun s => s.invoiceId = p.invoiceId ∨ s.receiptId = p.receiptId) = true
  · rw [if_pos hsettled]
    exact refuses_ok
  rw [if_neg hsettled, if_neg (not_not.mpr hp.routed)]
  by_cases hs : row.status = .pending
  · have hstart : row.currentPeriodStart = none := by
      have hcheck := hok _ (List.mem_cons_self ..)
      simp only [hs, ne_eq, not_true_eq_false, false_or, decide_eq_true_eq] at hcheck
      exact hcheck.1
    have hroll : Rolls row p.settledAt true := ⟨fun _ h => (by rw [hstart] at h; cases h), nofun⟩
    simp only [bind, Except.bind, hs]
    exact rollPeriod_total hok hshape hprice' hi hcount hroll
  · obtain ⟨s, e, -, hend, -⟩ := period_of_rowOk hok hs
    simp only [bind, Except.bind, hend]
    exact rollPeriod_total hok hshape hprice' hi hcount
      (rolls_renewal hok hs hend p.settledAt)

theorem applySettlement_refuses (hrows : RowsOk db) (hanch : Anchored db) (hcounts : CountsPositive db)
    (hp : Routed db p) : Refuses (applySettlement db p) ↔ ∃ price ∈ db.prices p.priceId, price.retired = true := by
  obtain ⟨price, hprice, hproduct, hrecurring⟩ := hp.priced
  obtain ⟨⟨unit, count⟩, hi⟩ := Option.ne_none_iff_exists'.mp hrecurring
  have hcount := hcounts _ price unit count hprice hi
  have hretired : (∃ price ∈ db.prices p.priceId, price.retired = true) ↔ price.retired = true := by
    simp [hprice]
  rw [hretired, applySettlement_eq]
  unfold createTx
  simp only [hprice, Option.any_some, hi, reduceCtorEq, decide_false, Bool.false_eq_true, if_false]
  cases hr : price.retired with
  | true =>
    simp only [if_true]
    exact ⟨fun _ => trivial, fun _ => ⟨_, rfl⟩⟩
  | false =>
    simp only [Bool.false_eq_true, if_false, iff_false]
    cases hrow : db.subscriptions p.organizationId with
    | some row =>
      by_cases hother : row.productId ≠ p.productId ∨ row.priceId ≠ p.priceId
      · simp only [hother, if_true]
        exact refuses_billing
      · have hid : row.priceId = p.priceId := not_not.mp (not_or.mp hother).2
        simp only [hother, if_false]
        exact settleLocked_total hrows hanch hp hrow hid hprice hi hcount
    | none =>
      simp only [Option.map_some, hproduct, ne_eq, not_true_eq_false, if_false]
      have hpending := pendingRow_ok p.organizationId p.productId p.priceId
      have hanch' : Anchored (db.put (pendingRow p.organizationId p.productId p.priceId)) :=
        put_anchored hanch (.inl rfl)
      exact settleLocked_total (put_rows hrows hpending) hanch' ⟨hp.verified, hp.routed, hp.priced⟩ (put_self db _) rfl
        hprice hi hcount

/-! ## Totality -/

def Called (db : Db) : Op → Prop
  | .create _ _ _ => False
  | .applySettlement p => Routed db p
  | .enterGrace _ | .expire _ | .setCancellation _ _ | .terminate _ _ => True

def Clear (db : Db) : Op → Prop
  | .applySettlement p => ∀ price ∈ db.prices p.priceId, price.retired = false
  | .terminate organizationId now => ∀ row ∈ db.subscriptions organizationId, row.status = .active ∨ row.status = .grace →
      ∀ g ∈ row.graceUntil, now ≤ g
  | _ => True

theorem refuses_locked {o : Uuid} {f : SubscriptionRow → Except Failure (Db × WriteResult)} :
    Refuses (lock db o >>= f) ↔ ∃ row, db.subscriptions o = some row ∧ Refuses (f row) := by
  unfold lock
  cases hrow : db.subscriptions o with
  | none => simp [Refuses, bind, Except.bind]
  | some row => simp [bind, Except.bind]

theorem update_relabels (hok : RowOk row) (hs : row.status ≠ .pending) (hshape : AnchorShape (db.prices row.priceId) row)
    (hsame : SamePeriod row new) (hterm : new.effectiveTerminationAt = row.effectiveTerminationAt)
    (hnew : new.status ≠ .pending) (ht : transitionAllowed row.status new.status = true) :
    ¬ Refuses (update db row new) := by
  rw [update_refuses hok hs hshape hsame hnew ht]
  rintro ⟨-, t, htm, g, hg, hlt⟩
  obtain ⟨s, e, -, -, hgrace, -, hle⟩ := period_of_rowOk hok hs
  rw [hterm] at htm
  cases hgrace.symm.trans hg
  exact absurd (hle t htm) (not_le.mpr hlt)

theorem running (hs : ¬ (row.status ≠ .active ∧ row.status ≠ .grace)) :
    row.status ≠ .pending ∧ transitionAllowed row.status .expired = true := by
  cases h : row.status with
  | pending => simp [h] at hs
  | expired => simp [h] at hs
  | active => exact ⟨fun h => absurd h (by decide), rfl⟩
  | grace => exact ⟨fun h => absurd h (by decide), rfl⟩

/-- **Exactly a late termination and a settlement at a retired price are refused by a rule.** Every other call of
the five operations writes rows that pass every check and trigger, or is refused by name. -/
theorem lifecycle_total_iff (hr : Reachable Init Step db) (hcounts : CountsPositive db) (hop : Called db op) :
    Total db op ↔ Clear db op := by
  have hrows := reachable_rows hr
  have hanch := reachable_anchored hr
  rw [total_iff hr]
  cases op with
  | create o p i => cases hop
  | applySettlement p =>
    show ¬ Refuses (applySettlement db p) ↔ _
    rw [applySettlement_refuses hrows hanch hcounts hop]
    simp [Clear]
  | enterGrace o =>
    simp only [Clear, iff_true]
    show ¬ Refuses (enterGrace db o)
    unfold enterGrace
    rw [refuses_locked]
    rintro ⟨row, hrow, h⟩
    split at h
    · exact refuses_billing h
    rename_i hs
    have hs : row.status = .active := not_not.mp hs
    split at h
    · exact refuses_billing h
    have hne : row.status ≠ .pending := by simp [hs]
    have ht : transitionAllowed row.status .grace = true := by rw [hs]; rfl
    exact absurd h (update_relabels (hrows _ _ hrow).2 hne (hanch _ _ hrow)
      ⟨rfl, rfl, rfl, rfl, rfl, fun hp => absurd hp hne⟩ rfl nofun ht)
  | expire o =>
    simp only [Clear, iff_true]
    show ¬ Refuses (expire db o)
    unfold expire
    rw [refuses_locked]
    rintro ⟨row, hrow, h⟩
    split at h
    · exact refuses_billing h
    rename_i hs
    obtain ⟨hne, ht⟩ := running hs
    exact absurd h (update_relabels (hrows _ _ hrow).2 hne (hanch _ _ hrow)
      ⟨rfl, rfl, rfl, rfl, rfl, fun hp => absurd hp hne⟩ rfl nofun ht)
  | setCancellation o c =>
    simp only [Clear, iff_true]
    show ¬ Refuses (setCancellation db o c)
    unfold setCancellation
    rw [refuses_locked]
    rintro ⟨row, hrow, h⟩
    split at h
    · exact refuses_billing h
    rename_i hs
    have hs : row.status = .active := not_not.mp hs
    split at h
    · exact refuses_ok h
    have hne : row.status ≠ .pending := by simp [hs]
    have ht : transitionAllowed row.status .active = true := by rw [hs]; rfl
    exact absurd h (update_relabels (hrows _ _ hrow).2 hne (hanch _ _ hrow)
      ⟨rfl, rfl, rfl, rfl, rfl, fun hp => absurd hp hne⟩ rfl nofun ht)
  | terminate o now =>
    show ¬ Refuses (terminate db o now) ↔ _
    unfold terminate
    rw [refuses_locked]
    have hrun : ∀ row, db.subscriptions o = some row → row.status = .active ∨ row.status = .grace →
        (Refuses (update db row { row with status := .expired, effectiveTerminationAt := some now }) ↔
          ∃ g ∈ row.graceUntil, g < now) := by
      intro row hrow hs
      obtain ⟨hne, ht⟩ := running (fun h => h.elim fun h1 h2 => hs.elim h1 h2)
      have hsame : SamePeriod row { row with status := .expired, effectiveTerminationAt := some now } :=
        ⟨rfl, rfl, rfl, rfl, rfl, fun hp => absurd hp hne⟩
      rw [update_refuses (hrows _ _ hrow).2 hne (hanch _ _ hrow) hsame nofun ht]
      simp
    constructor
    · intro hno row hrow hs g hg
      by_contra hlt
      refine hno ⟨row, hrow, ?_⟩
      rw [if_neg fun h => hs.elim h.1 h.2]
      exact (hrun row hrow hs).mpr ⟨g, hg, not_le.mp hlt⟩
    · rintro hclear ⟨row, hrow, h⟩
      split at h
      · exact refuses_billing h
      rename_i hs
      have hs : row.status = .active ∨ row.status = .grace := by
        rcases not_and_or.mp hs with h1 | h2
        · exact .inl (not_not.mp h1)
        · exact .inr (not_not.mp h2)
      obtain ⟨g, hg, hlt⟩ := (hrun row hrow hs).mp h
      exact absurd (hclear row hrow hs g hg) (not_le.mpr hlt)

def staleDb : Db := settled earlyDb (settlementOf 10 0)

theorem staleDb_reachable : Reachable Init Step staleDb := settled_reachable earlyDb_reachable _

theorem staleDb_counts : CountsPositive staleDb := by
  intro i price unit count hprice hi
  have hprice : earlyDb.prices i = some price := hprice
  simp only [earlyDb] at hprice
  split at hprice
  · cases hprice
    cases hi
    decide
  · cases hprice

theorem stale_termination_refused :
    ¬ ∀ (db : Db) (op : Op), Reachable Init Step db → CountsPositive db → Called db op → Total db op := by
  intro hall
  have htotal := hall staleDb (.terminate 1 (40 * DAY_MS)) staleDb_reachable staleDb_counts trivial
  have hrun : (Op.terminate 1 (40 * DAY_MS)).run staleDb = .error (.refused "subscription_termination_shape") := rfl
  unfold Total at htotal
  rw [hrun] at htotal
  exact htotal

theorem lifecycle_total_iff_inPeriod : Total staleDb (.terminate 1 (20 * DAY_MS)) := by
  have hcalled : Called staleDb (.terminate 1 (20 * DAY_MS)) := trivial
  refine (lifecycle_total_iff staleDb_reachable staleDb_counts hcalled).mpr ?_
  intro row hrow _ g hg
  cases hrow
  cases hg
  decide

end

end NawaraCore.Subscriptions
