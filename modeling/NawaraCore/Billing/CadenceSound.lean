import NawaraCore.Billing.PeriodSound
import NawaraCore.Billing.SubscriptionSound

/-!
# The cadence of the billing anchor

Beside the database runs a count, for each organization, of the renewals since the
anchor was set. The stored period is the one that the count gives.
-/

namespace NawaraCore.Subscriptions

structure Counted where
  db : Db
  renewals : Uuid → Nat

def restarts (db : Db) (p : SettlementParams) : Bool :=
  match db.subscriptions p.organizationId with
  | none => true
  | some row =>
    match row.status, row.currentPeriodEnd with
    | .pending, _ => true
    | _, some currentPeriodEnd => isLateRenewal ⟨currentPeriodEnd, row.graceUntil⟩ p.settledAt
    | _, none => false

def countRenewal (s : Counted) (p : SettlementParams) (r : WriteResult) : Uuid → Nat :=
  if r.changed then
    Function.update s.renewals p.organizationId (if restarts s.db p then 0 else s.renewals p.organizationId + 1)
  else s.renewals

inductive CountedStep : Counted → Counted → Prop
  | settled {s : Counted} {db' : Db} (p : SettlementParams) (r : WriteResult)
    (h : applySettlement s.db p = .ok (db', r)) : CountedStep s ⟨db', countRenewal s p r⟩
  | other {s : Counted} {db' : Db} (o : Op) (r : WriteResult) (ho : ∀ p, o ≠ .applySettlement p)
    (h : o.run s.db = .ok (db', r)) : CountedStep s ⟨db', s.renewals⟩
  | record {s : Counted} (prices : Uuid → Option Price) (routed : Uuid → Option (Uuid × Uuid))
    (verified : Uuid → Uuid → Uuid → Bool) (hp : ∀ i p, s.db.prices i = some p → ∃ q, prices i = some q ∧
      q.productId = p.productId ∧ q.interval = p.interval) :
    CountedStep s ⟨{ s.db with prices := prices, routed := routed, verified := verified }, s.renewals⟩

def CountedRuns : Counted → Prop := Reachable (fun s => Init s.db) CountedStep

theorem counted_runs {db : Db} : Reachable Init Step db ↔ ∃ n, CountedRuns ⟨db, n⟩ := by
  constructor
  · intro h
    induction h with
    | init h => exact ⟨fun _ => 0, .init h⟩
    | step _ hs ih =>
      obtain ⟨n, hn⟩ := ih
      cases hs with
      | op o r h =>
        by_cases ho : ∃ p, o = .applySettlement p
        · obtain ⟨p, rfl⟩ := ho
          exact ⟨_, .step hn (.settled p r h)⟩
        · exact ⟨n, .step hn (.other o r (fun p hp => ho ⟨p, hp⟩) h)⟩
      | record prices routed verified hp => exact ⟨n, .step hn (.record prices routed verified hp)⟩
  · rintro ⟨n, hn⟩
    generalize hs : (⟨db, n⟩ : Counted) = s at hn
    have hdb : db = s.db := hs ▸ rfl
    rw [hdb]
    clear hs hdb
    induction hn with
    | init h => exact .init h
    | step _ hs ih =>
      cases hs with
      | settled p r h => exact .step ih (.op (.applySettlement p) r h)
      | other o r ho h => exact .step ih (.op o r h)
      | record prices routed verified hp => exact .step ih (.record prices routed verified hp)

/-! ## What the operations keep -/

structure SamePeriod (old new : SubscriptionRow) : Prop where
  priceId : new.priceId = old.priceId
  currentPeriodStart : new.currentPeriodStart = old.currentPeriodStart
  currentPeriodEnd : new.currentPeriodEnd = old.currentPeriodEnd
  graceUntil : new.graceUntil = old.graceUntil
  billingAnchorAt : new.billingAnchorAt = old.billingAnchorAt
  pending : old.status = .pending → new.status = .pending

variable {p : SettlementParams} {start : Int}
variable {reset : Bool}

section
variable {db db' : Db} {r : WriteResult} {row : SubscriptionRow}

theorem SamePeriod.refl (row : SubscriptionRow) : SamePeriod row row := ⟨rfl, rfl, rfl, rfl, rfl, id⟩

theorem createTx_price {o p i : Uuid} (h : createTx db o p i = .ok (db', r)) (hn : db.subscriptions o = none) :
    ∃ price, db.prices i = some price := by
  unfold createTx at h
  simp only [hn] at h
  split at h
  · cases h
  split at h
  · cases h
  split at h
  · cases h
  rename_i hp
  cases hprice : db.prices i with
  | none => simp [hprice] at hp
  | some price => exact ⟨price, rfl⟩

theorem update_same {new : SubscriptionRow} (h : update db row new = .ok (db', r)) (hs : SamePeriod row new)
    (ho : new.organizationId = row.organizationId) :
    db'.prices = db.prices ∧ ∃ row', db' = db.put row' ∧ row'.organizationId = row.organizationId ∧ SamePeriod row row' := by
  unfold update at h
  obtain ⟨u, hu, h⟩ := bind_eq_ok.mp h
  obtain ⟨-, -, hu⟩ := guardedUpdate_ok hu
  cases h
  subst hu
  exact ⟨rfl, _, rfl, ho, hs.priceId, hs.currentPeriodStart, hs.currentPeriodEnd, hs.graceUntil, hs.billingAnchorAt,
    hs.pending⟩

def KeepsPeriods (db db' : Db) : Prop :=
  db'.prices = db.prices ∧ ∀ o row', db'.subscriptions o = some row' →
    (row'.status = .pending ∧ ∃ price, db.prices row'.priceId = some price) ∨
    ∃ row, db.subscriptions o = some row ∧ SamePeriod row row'

theorem KeepsPeriods.refl (db : Db) : KeepsPeriods db db :=
  ⟨rfl, fun _ row h => .inr ⟨row, h, .refl row⟩⟩

theorem KeepsPeriods.put (hp : db'.prices = db.prices) {row' : SubscriptionRow} (hput : db' = db.put row')
    (hrow : (row'.status = .pending ∧ ∃ price, db.prices row'.priceId = some price) ∨
      ∃ row, db.subscriptions row'.organizationId = some row ∧ SamePeriod row row') : KeepsPeriods db db' := by
  refine ⟨hp, fun o x hx => ?_⟩
  rw [hput] at hx
  by_cases ho : o = row'.organizationId
  · subst ho
    rw [put_self] at hx
    cases hx
    exact hrow
  · simp only [Db.put, Function.update_of_ne ho] at hx
    exact .inr ⟨x, hx, .refl x⟩

theorem createTx_periods {o p i : Uuid} (h : createTx db o p i = .ok (db', r)) : KeepsPeriods db db' := by
  rcases createTx_ok h with ⟨rfl, -⟩ | ⟨hn, -, hput⟩
  · exact .refl _
  · exact .put (by rw [hput]; rfl) hput (.inl ⟨rfl, createTx_price h hn⟩)

theorem run_periods {o : Op} (hdb : RowsOk db) (ho : ∀ p, o ≠ .applySettlement p) (h : o.run db = .ok (db', r)) :
    KeepsPeriods db db' := by
  have hupdate : ∀ {o : Uuid} {row new : SubscriptionRow}, lock db o = .ok row → update db row new = .ok (db', r) →
      SamePeriod row new → new.organizationId = row.organizationId → KeepsPeriods db db' := by
    intro o row new hl h hs horg
    obtain ⟨hp, row', hput, horg', hsame⟩ := update_same h hs horg
    have hrow := lock_ok hl
    refine .put hp hput (.inr ⟨row, ?_, hsame⟩)
    rw [horg', (hdb o row hrow).1]
    exact hrow
  cases o with
  | create o p i => exact createTx_periods h
  | applySettlement p => exact absurd rfl (ho p)
  | enterGrace o =>
    obtain ⟨row, hl, h⟩ := bind_eq_ok.mp h
    split at h
    · cases h
    rename_i hs
    split at h
    · cases h
    · exact hupdate hl h ⟨rfl, rfl, rfl, rfl, rfl, fun hp => absurd hp (by simp_all)⟩ rfl
  | expire o =>
    obtain ⟨row, hl, h⟩ := bind_eq_ok.mp h
    split at h
    · cases h
    rename_i hs
    exact hupdate hl h ⟨rfl, rfl, rfl, rfl, rfl, fun hp => absurd hp (by simp_all)⟩ rfl
  | setCancellation o c =>
    obtain ⟨row, hl, h⟩ := bind_eq_ok.mp h
    split at h
    · cases h
    rename_i hs
    split at h
    · cases h
      exact .refl _
    · exact hupdate hl h ⟨rfl, rfl, rfl, rfl, rfl, fun hp => absurd hp (by simp_all)⟩ rfl
  | terminate o n =>
    obtain ⟨row, hl, h⟩ := bind_eq_ok.mp h
    split at h
    · cases h
    rename_i hs
    exact hupdate hl h ⟨rfl, rfl, rfl, rfl, rfl, fun hp => absurd hp (by simp_all)⟩ rfl

/-! ## What a settlement does -/

structure Rolled (price : Option Price) (row new : SubscriptionRow) (start : Int) (reset : Bool) : Prop where
  status : new.status = .active
  priceId : new.priceId = row.priceId
  ordered : RowOk new
  starts : new.currentPeriodStart = some start
  period : ∀ unit count, price.bind Price.interval = some (unit, count) → unit.calendar →
    new.billingAnchorAt = (if reset then some start else row.billingAnchorAt) ∧
      new.currentPeriodEnd = billing_subscription_period_end start new.billingAnchorAt unit count ∧
      new.graceUntil = new.currentPeriodEnd.map (· + DAY_MS)

theorem rollPeriod_rolled (h : rollPeriod db row start reset = .ok (db', r)) :
    Rolled (db.prices row.priceId) row r.subscription start reset ∧ r.changed = true := by
  obtain ⟨-, -, hok, hact, hstart, -⟩ := rollPeriod_ok h
  unfold rollPeriod at h
  simp only at h
  split at h
  · cases h
  rename_i unit count hprice
  obtain ⟨u, hu, h⟩ := bind_eq_ok.mp h
  obtain ⟨-, -, hu⟩ := guardedUpdate_ok hu
  cases h
  subst hu
  refine ⟨⟨hact, rfl, hok, hstart, ?_⟩, rfl⟩
  intro unit' count' hprice' hc
  cases hprice.symm.trans hprice'
  simp [hc]

def Priced (db : Db) : Prop := ∀ o row, db.subscriptions o = some row → ∃ price, db.prices row.priceId = some price

theorem restarts_some (hrow : db.subscriptions p.organizationId = some row)
    (hs : row.status ≠ .pending) {e : Int} (he : row.currentPeriodEnd = some e) :
    restarts db p = isLateRenewal ⟨e, row.graceUntil⟩ p.settledAt := by
  unfold restarts
  rw [hrow]
  dsimp only
  rw [he]
  cases hst : row.status with
  | pending => exact absurd hst hs
  | _ => rfl

theorem restarts_pending
    (hrow : ∀ row, db.subscriptions p.organizationId = some row → row.status = .pending) : restarts db p = true := by
  unfold restarts
  cases ho : db.subscriptions p.organizationId with
  | none => rfl
  | some row => simp [hrow row ho]

structure Settles (db db' : Db) (p : SettlementParams) (new : SubscriptionRow) : Prop where
  prices : db'.prices = db.prices
  row : db'.subscriptions p.organizationId = some new
  others : ∀ o, o ≠ p.organizationId → db'.subscriptions o = db.subscriptions o
  rolled : (restarts db p = true ∧ ∃ row, (∃ price, db.prices row.priceId = some price) ∧
      Rolled (db.prices row.priceId) row new p.settledAt true) ∨
    (restarts db p = false ∧ ∃ row e, db.subscriptions p.organizationId = some row ∧ row.status ≠ .pending ∧
      row.currentPeriodEnd = some e ∧ Rolled (db.prices row.priceId) row new e false)

theorem rollPeriod_settles (db : Db) (hdb : RowsOk db)
    (hrow : db.subscriptions p.organizationId = some row) (h : rollPeriod db row start reset = .ok (db', r)) :
    r.changed = true ∧ Rolled (db.prices row.priceId) row r.subscription start reset ∧ db'.prices = db.prices ∧
      db'.subscriptions p.organizationId = some r.subscription ∧
      ∀ o, o ≠ p.organizationId → db'.subscriptions o = db.subscriptions o := by
  obtain ⟨hrolled, hchanged⟩ := rollPeriod_rolled h
  obtain ⟨rfl, horg, -⟩ := rollPeriod_ok h
  have ho : r.subscription.organizationId = p.organizationId := horg.trans (hdb _ _ hrow).1
  refine ⟨hchanged, hrolled, rfl, ho ▸ put_self db r.subscription, fun o hne => ?_⟩
  simp only [Db.put, ho, Function.update_of_ne hne]

theorem applySettlement_settles (hdb : RowsOk db) (hp : Priced db)
    (h : applySettlement db p = .ok (db', r)) :
    (r.changed = false ∧ KeepsPeriods db db') ∨ (r.changed = true ∧ Settles db db' p r.subscription) := by
  unfold applySettlement at h
  obtain ⟨⟨d, c⟩, hc, hlock⟩ := bind_eq_ok.mp h
  obtain ⟨row, hl, hinsert⟩ := bind_eq_ok.mp hlock
  obtain ⟨o, hi, hperiod⟩ := bind_eq_ok.mp hinsert
  have hrow := lock_ok hl
  clear h hlock hinsert
  rcases insertSettlement_ok hi with ⟨-, rfl⟩ | ⟨-, x, -, rfl⟩
  · cases hperiod
    exact .inl ⟨rfl, createTx_periods hc⟩
  refine .inr ?_
  simp only at hperiod
  rcases createTx_ok hc with ⟨rfl, -⟩ | ⟨hn, -, rfl⟩
  · have hroll := fun {start reset} (h : rollPeriod { d with settlements := d.settlements ++ [x] } row start reset =
        .ok (db', r)) => rollPeriod_settles { d with settlements := d.settlements ++ [x] } hdb hrow h
    split at hperiod
    · rename_i hs
      obtain ⟨hch, hrolled, hprices, hnew, hothers⟩ := hroll hperiod
      refine ⟨hch, hprices, hnew, hothers, .inl ⟨restarts_pending ?_, row, hp _ _ hrow, hrolled⟩⟩
      intro row' hrow'
      cases hrow.symm.trans hrow'
      exact hs
    · rename_i e he hs
      obtain ⟨hch, hrolled, hprices, hnew, hothers⟩ := hroll hperiod
      have hrest := restarts_some hrow (fun hst => hs hst) he
      refine ⟨hch, hprices, hnew, hothers, ?_⟩
      cases hlate : isLateRenewal ⟨e, row.graceUntil⟩ p.settledAt with
      | true =>
        simp only [renewalAnchor, hlate, if_true] at hrolled
        exact .inl ⟨hrest.trans hlate, row, hp _ _ hrow, hrolled⟩
      | false =>
        simp only [renewalAnchor, hlate, Bool.false_eq_true, if_false] at hrolled
        exact .inr ⟨hrest.trans hlate, row, e, hrow, fun hst => hs hst, he, hrolled⟩
    · cases hperiod
  · have hd : RowsOk (db.put (pendingRow p.organizationId p.productId p.priceId)) := put_rows hdb (pendingRow_ok _ _ _)
    obtain rfl : row = pendingRow p.organizationId p.productId p.priceId :=
      Option.some.inj (hrow.symm.trans (put_self db _))
    have hroll : rollPeriod { db.put (pendingRow p.organizationId p.productId p.priceId) with
        settlements := db.settlements ++ [x] } (pendingRow p.organizationId p.productId p.priceId) p.settledAt true =
        .ok (db', r) := hperiod
    obtain ⟨hch, hrolled, hprices, hnew, hothers⟩ := rollPeriod_settles
      { db.put (pendingRow p.organizationId p.productId p.priceId) with settlements := db.settlements ++ [x] } hd hrow hroll
    refine ⟨hch, hprices, hnew, fun o ho => ?_, .inl ⟨restarts_pending ?_, _, createTx_price hc hn, hrolled⟩⟩
    · rw [hothers o ho]
      simp only [Db.put, pendingRow, Function.update_of_ne ho]
    · intro row' hrow'
      cases hn.symm.trans hrow'

end

/-! ## The cadence -/

structure OnCadence (row : SubscriptionRow) (anchor months : Int) (n : Nat) : Prop where
  anchorAt : row.billingAnchorAt = some anchor
  starts : row.currentPeriodStart = some (plusMonths anchor (n * months))
  ends : row.currentPeriodEnd = some (plusMonths anchor ((n + 1) * months))
  ordered : plusMonths anchor (n * months) < plusMonths anchor ((n + 1) * months)
  grace : row.graceUntil = some (plusMonths anchor ((n + 1) * months) + DAY_MS)

structure CadenceInv (s : Counted) : Prop where
  rows : RowsOk s.db
  priced : Priced s.db
  cadence : ∀ o row, s.db.subscriptions o = some row → row.status ≠ .pending → ∀ unit count,
    (s.db.prices row.priceId).bind Price.interval = some (unit, count) → unit.calendar →
    ∃ anchor, OnCadence row anchor (intervalMonths unit count) (s.renewals o)

variable {price : Option Price}

section
variable {s : Counted} {db' : Db} {r : WriteResult} {row new : SubscriptionRow} {unit : IntervalUnit} {count n : Nat}
  {anchor months : Int}

theorem OnCadence.same (h : OnCadence row anchor months n) (hs : SamePeriod row new) : OnCadence new anchor months n :=
  ⟨hs.billingAnchorAt.trans h.anchorAt, hs.currentPeriodStart.trans h.starts, hs.currentPeriodEnd.trans h.ends, h.ordered,
    hs.graceUntil.trans h.grace⟩

theorem period_ordered (hok : RowOk row) {a e : Int} (ha : row.currentPeriodStart = some a)
    (he : row.currentPeriodEnd = some e) : a < e := by
  have hc := hok ("subscription_period_order", ∀ s ∈ row.currentPeriodStart, ∀ e ∈ row.currentPeriodEnd, s < e)
    (by simp [checks])
  simp only [decide_eq_true_eq] at hc
  exact hc a ha e he

theorem Rolled.onCadence (h : Rolled price row new start reset)
    (hp : price.bind Price.interval = some (unit, count)) (hc : unit.calendar)
    (hstart : start = plusMonths anchor (n * intervalMonths unit count))
    (hanchor : new.billingAnchorAt = some anchor) : OnCadence new anchor (intervalMonths unit count) n := by
  obtain ⟨-, hend, hgrace⟩ := h.period unit count hp hc
  rw [hanchor, hstart, period_end_on_cadence hc] at hend
  rw [hend] at hgrace
  have hstarts := h.starts.trans (congrArg some hstart)
  exact ⟨hanchor, hstarts, hend, period_ordered h.ordered hstarts hend, hgrace⟩

theorem Rolled.first (h : Rolled price row new start true)
    (hp : price.bind Price.interval = some (unit, count)) (hc : unit.calendar) :
    OnCadence new start (intervalMonths unit count) 0 := by
  have hanchor : new.billingAnchorAt = some start := (h.period unit count hp hc).1
  exact h.onCadence hp hc (by simp) hanchor

theorem Rolled.next (h : Rolled price row new start false)
    (hp : price.bind Price.interval = some (unit, count)) (hc : unit.calendar)
    (ho : OnCadence row anchor (intervalMonths unit count) n) (he : row.currentPeriodEnd = some start) :
    OnCadence new anchor (intervalMonths unit count) (n + 1) := by
  have hanchor : new.billingAnchorAt = row.billingAnchorAt := (h.period unit count hp hc).1
  have hstart := Option.some.inj (he.symm.trans ho.ends)
  exact h.onCadence hp hc (by rw [hstart]; push_cast; rfl) (hanchor.trans ho.anchorAt)

theorem CadenceInv.keeps (hi : CadenceInv s) (hrows : RowsOk db') (hk : KeepsPeriods s.db db') :
    CadenceInv ⟨db', s.renewals⟩ where
  rows := hrows
  priced o row' hrow' := by
    rw [hk.1]
    rcases hk.2 o row' hrow' with ⟨-, hp⟩ | ⟨row, hrow, hsame⟩
    · exact hp
    · rw [hsame.priceId]
      exact hi.priced o row hrow
  cadence o row' hrow' hs unit count hp hc := by
    rw [hk.1] at hp
    rcases hk.2 o row' hrow' with ⟨hpending, -⟩ | ⟨row, hrow, hsame⟩
    · exact absurd hpending hs
    · rw [hsame.priceId] at hp
      obtain ⟨anchor, ha⟩ := hi.cadence o row hrow (fun hp => hs (hsame.pending hp)) unit count hp hc
      exact ⟨anchor, ha.same hsame⟩

theorem CadenceInv.record (hi : CadenceInv s) {prices : Uuid → Option Price} (routed : Uuid → Option (Uuid × Uuid))
    (verified : Uuid → Uuid → Uuid → Bool) (hp : ∀ i p, s.db.prices i = some p → ∃ q, prices i = some q ∧
      q.productId = p.productId ∧ q.interval = p.interval) :
    CadenceInv ⟨{ s.db with prices := prices, routed := routed, verified := verified }, s.renewals⟩ where
  rows := hi.rows
  priced o row hrow := by
    obtain ⟨price, hprice⟩ := hi.priced o row hrow
    obtain ⟨q, hq, -⟩ := hp _ price hprice
    exact ⟨q, hq⟩
  cadence o row hrow hs unit count hu hc := by
    obtain ⟨price, hprice⟩ := hi.priced o row hrow
    obtain ⟨q, hq, -, hinterval⟩ := hp _ price hprice
    have hold : (s.db.prices row.priceId).bind Price.interval = some (unit, count) := by
      have hnew : (prices row.priceId).bind Price.interval = some (unit, count) := hu
      rw [hq] at hnew
      rw [hprice]
      exact hinterval.symm.trans hnew
    exact hi.cadence o row hrow hs unit count hold hc

theorem CadenceInv.settles {p : SettlementParams} (hi : CadenceInv s) (hrows : RowsOk db') (hch : r.changed = true)
    (h : Settles s.db db' p r.subscription) : CadenceInv ⟨db', countRenewal s p r⟩ where
  rows := hrows
  priced o row hrow := by
    rw [h.prices]
    by_cases ho : o = p.organizationId
    · subst ho
      obtain rfl := Option.some.inj (h.row.symm.trans hrow)
      rcases h.rolled with ⟨-, row, hprice, hr⟩ | ⟨-, row, e, hrow, -, -, hr⟩ <;> rw [hr.priceId]
      · exact hprice
      · exact hi.priced _ row hrow
    · exact hi.priced o row (h.others o ho ▸ hrow)
  cadence o row hrow hs unit count hp hc := by
    rw [h.prices] at hp
    by_cases ho : o = p.organizationId
    · subst ho
      obtain rfl := Option.some.inj (h.row.symm.trans hrow)
      have hcount : countRenewal s p r p.organizationId =
          if restarts s.db p then 0 else s.renewals p.organizationId + 1 := by simp [countRenewal, hch]
      dsimp only
      rw [hcount]
      rcases h.rolled with ⟨hrest, row, -, hr⟩ | ⟨hrest, row, e, hrow, hs', he, hr⟩ <;> rw [hr.priceId] at hp
      · rw [if_pos hrest]
        exact ⟨_, hr.first hp hc⟩
      · rw [if_neg (by simp [hrest])]
        obtain ⟨anchor, ha⟩ := hi.cadence _ row hrow hs' unit count hp hc
        exact ⟨anchor, hr.next hp hc ha he⟩
    · have hcount : countRenewal s p r o = s.renewals o := by simp [countRenewal, hch, ho]
      dsimp only
      rw [hcount]
      exact hi.cadence o row (h.others o ho ▸ hrow) hs unit count hp hc

theorem CadenceInv.step {t : Counted} (hi : CadenceInv s) (h : CountedStep s t) : CadenceInv t := by
  cases h with
  | settled p r h =>
    have hrows := applySettlement_rows hi.rows h
    rcases applySettlement_settles hi.rows hi.priced h with ⟨hch, hk⟩ | ⟨hch, hsettles⟩
    · have hcount : countRenewal s p r = s.renewals := by simp [countRenewal, hch]
      rw [hcount]
      exact hi.keeps hrows hk
    · exact hi.settles hrows hch hsettles
  | other o r ho h => exact hi.keeps (run_rows hi.rows h) (run_periods hi.rows ho h)
  | record prices routed verified hp => exact hi.record routed verified hp

theorem CountedRuns.cadence (h : CountedRuns s) : CadenceInv s := by
  refine h.invariant (fun s h0 => ⟨?_, ?_, ?_⟩) fun s t _ hi ht => hi.step ht
  · intro o row hrow
    cases (h0.1 o).symm.trans hrow
  · intro o row hrow
    cases (h0.1 o).symm.trans hrow
  · intro o row hrow
    cases (h0.1 o).symm.trans hrow

def AnchorRule (s : Counted) (p : SettlementParams) (new : SubscriptionRow) : Prop :=
  if restarts s.db p then new.billingAnchorAt = some p.settledAt ∧ new.currentPeriodStart = some p.settledAt
  else ∃ row, s.db.subscriptions p.organizationId = some row ∧ new.billingAnchorAt = row.billingAnchorAt ∧
    new.currentPeriodStart = row.currentPeriodEnd

/-- **The billing anchor's cadence does not drift.** The stored period of a month or year price is
the one that the renewals since the anchor was set count to, each clamped from the anchor itself. -/
theorem billing_anchor_cadence (h : CountedRuns s) :
    (∀ o row, s.db.subscriptions o = some row → row.status ≠ .pending → ∀ unit count,
      (s.db.prices row.priceId).bind Price.interval = some (unit, count) → unit.calendar →
      ∃ anchor, OnCadence row anchor (intervalMonths unit count) (s.renewals o)) ∧
    ∀ p db' r, applySettlement s.db p = .ok (db', r) → r.changed → ∀ unit count,
      (s.db.prices r.subscription.priceId).bind Price.interval = some (unit, count) → unit.calendar →
      db'.subscriptions p.organizationId = some r.subscription ∧ AnchorRule s p r.subscription := by
  have hi := h.cadence
  refine ⟨hi.cadence, fun p db' r hp hch unit count hu hc => ?_⟩
  rcases applySettlement_settles hi.rows hi.priced hp with ⟨hno, -⟩ | ⟨-, hs⟩
  · rw [hno] at hch
    cases hch
  refine ⟨hs.row, ?_⟩
  unfold AnchorRule
  rcases hs.rolled with ⟨hrest, row, -, hr⟩ | ⟨hrest, row, e, hrow, -, he, hr⟩ <;> rw [hr.priceId] at hu
  · rw [if_pos hrest]
    exact ⟨(hr.period unit count hu hc).1, hr.starts⟩
  · rw [if_neg (by simp [hrest])]
    exact ⟨row, hrow, (hr.period unit count hu hc).1, he ▸ hr.starts⟩

end

def monthlyDb : Db := { earlyDb with prices := fun i => if i = 3 then some ⟨2, some (.month, 1), false⟩ else none }

def Counted.settle (s : Counted) (p : SettlementParams) : Counted :=
  match applySettlement s.db p with
  | .ok (db', r) => ⟨db', countRenewal s p r⟩
  | .error _ => s

theorem CountedRuns.settle {s : Counted} (h : CountedRuns s) (p : SettlementParams) : CountedRuns (s.settle p) := by
  unfold Counted.settle
  split
  · rename_i db' r hr
    exact .step h (.settled p r hr)
  · exact h

def january31 : Int := 20849 * DAY_MS

def clamped : Counted :=
  (Counted.settle ⟨monthlyDb, fun _ => 0⟩ (settlementOf 10 january31)).settle (settlementOf 20 january31)

theorem clamped_runs : CountedRuns clamped := by
  have h0 : CountedRuns ⟨monthlyDb, fun _ => 0⟩ := .init ⟨fun _ => rfl, rfl⟩
  exact (h0.settle _).settle _

theorem billing_anchor_cadence_clamped : clamped.renewals 1 = 1 ∧
    ∃ row anchor, clamped.db.subscriptions 1 = some row ∧ OnCadence row anchor 1 1 ∧
      row.currentPeriodStart = some (january31 + 28 * DAY_MS) ∧ row.currentPeriodEnd = some (january31 + 59 * DAY_MS) := by
  refine ⟨rfl, ?_⟩
  obtain ⟨row, hrow⟩ : ∃ row, clamped.db.subscriptions 1 = some row := ⟨_, rfl⟩
  have hstatus : row.status = .active := by
    cases hrow
    rfl
  have hprice : (clamped.db.prices row.priceId).bind Price.interval = some (.month, 1) := by
    cases hrow
    rfl
  obtain ⟨anchor, ha⟩ := (billing_anchor_cadence clamped_runs).1 1 row hrow (by simp [hstatus]) .month 1 hprice rfl
  refine ⟨row, anchor, hrow, ha, ?_, ?_⟩
  · cases hrow
    rfl
  · cases hrow
    rfl

end NawaraCore.Subscriptions
