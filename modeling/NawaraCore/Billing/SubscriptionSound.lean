import NawaraCore.Billing.Subscription
import NawaraCore.Lib.Outcome

/-!
# When a renewal keeps access

Every stored row passes its checks, so the entitlement of a row is read off its
period, its grace and its termination. A renewal settled before the end of the
running period starts the new period in the future, and until then the row grants
nothing; a renewal after that end keeps access and extends it.
-/

namespace NawaraCore.Subscriptions

def RowOk (r : SubscriptionRow) : Prop := ∀ c ∈ checks r, c.2 = true

theorem checkRow_ok {r r' : SubscriptionRow} (h : checkRow r = .ok r') : r' = r ∧ RowOk r := by
  unfold checkRow at h
  split at h
  · cases h
  · rename_i hn
    cases h
    exact ⟨rfl, fun c hc => by simpa using List.find?_eq_none.mp hn c hc⟩

variable {new row old : SubscriptionRow} {db db' : Db} {r : WriteResult} {p : SettlementParams}

theorem lifecycle_ok {r : SubscriptionRow} (h : lifecycle old new = .ok r) :
    transitionAllowed old.status new.status = true ∧ r = { new with
      cancelAtPeriodEnd := if new.currentPeriodEnd ≠ old.currentPeriodEnd then false else new.cancelAtPeriodEnd
      effectiveTerminationAt := if new.status = .active then none else new.effectiveTerminationAt } := by
  unfold lifecycle at h
  split at h
  · rename_i ht
    cases h
    exact ⟨ht, rfl⟩
  · cases h

variable {price : Option Price}

theorem billingAnchor_ok {r : SubscriptionRow}
    (h : billingAnchor price old new = .ok r) : r = new := by
  unfold billingAnchor at h
  simp only at h
  split at h
  · cases h; rfl
  · obtain ⟨-, h⟩ := passed h nofun
    split at h
    · cases h
    · split at h
      · cases h
      · cases h; rfl

theorem guardedUpdate_ok {r : SubscriptionRow} (h : guardedUpdate price old new = .ok r) :
    RowOk r ∧ transitionAllowed old.status new.status = true ∧ r = { new with
      cancelAtPeriodEnd := if new.currentPeriodEnd ≠ old.currentPeriodEnd then false else new.cancelAtPeriodEnd
      effectiveTerminationAt := if new.status = .active then none else new.effectiveTerminationAt
      revision := old.revision + 1 } := by
  unfold guardedUpdate at h
  obtain ⟨a, ha, h⟩ := bind_eq_ok.mp h
  obtain ⟨b, hb, h⟩ := bind_eq_ok.mp h
  obtain ⟨ht, rfl⟩ := lifecycle_ok ha
  have hb := billingAnchor_ok hb
  subst hb
  obtain ⟨rfl, hr⟩ := checkRow_ok h
  exact ⟨hr, ht, rfl⟩

theorem pendingRow_ok (o p r : Uuid) : RowOk (pendingRow o p r) := by
  simp [RowOk, checks, pendingRow]

/-! ## Stored rows -/

def RowsOk (db : Db) : Prop :=
  ∀ o row, db.subscriptions o = some row → row.organizationId = o ∧ RowOk row

@[simp] theorem put_self (db : Db) (row : SubscriptionRow) :
    (db.put row).subscriptions row.organizationId = some row := by
  simp [Db.put]

theorem put_rows {d : Db} (h : RowsOk d) (hr : RowOk row) : RowsOk (d.put row) := by
  intro o r hs
  by_cases e : o = row.organizationId
  · subst e
    rw [put_self] at hs
    cases hs
    exact ⟨rfl, hr⟩
  · simp only [Db.put, Function.update_of_ne e] at hs
    exact h o r hs

theorem createTx_ok {o p i : Uuid} (h : createTx db o p i = .ok (db', r)) :
    (db' = db ∧ db.subscriptions o = some r.subscription) ∨
    (db.subscriptions o = none ∧ r.subscription = pendingRow o p i ∧ db' = db.put (pendingRow o p i)) := by
  unfold createTx at h
  simp only at h
  obtain ⟨-, h⟩ := passed h nofun
  obtain ⟨-, h⟩ := passed h nofun
  split at h
  · rename_i existing he
    split at h
    · cases h
    · cases h; exact .inl ⟨rfl, he⟩
  · rename_i hn
    split at h
    · cases h
    · cases h; exact .inr ⟨hn, rfl, rfl⟩

theorem lock_ok {o : Uuid} (h : lock db o = .ok row) :
    db.subscriptions o = some row := by
  unfold lock at h
  split at h
  · rename_i hs; cases h; exact hs
  · cases h

theorem rollPeriod_ok {anchor : Int} {reset : Bool}
    (h : rollPeriod db row anchor reset = .ok (db', r)) :
    db' = db.put r.subscription ∧ r.subscription.organizationId = row.organizationId ∧ RowOk r.subscription ∧
    r.subscription.status = .active ∧ r.subscription.currentPeriodStart = some anchor ∧
    r.subscription.effectiveTerminationAt = none := by
  unfold rollPeriod at h
  simp only at h
  split at h
  · cases h
  · obtain ⟨u, hu, h⟩ := bind_eq_ok.mp h
    obtain ⟨hr, _, hu⟩ := guardedUpdate_ok hu
    cases h
    subst hu
    exact ⟨rfl, rfl, hr, rfl, rfl, rfl⟩

theorem update_ok (h : update db row new = .ok (db', r)) :
    db' = db.put r.subscription ∧ RowOk r.subscription := by
  unfold update at h
  obtain ⟨u, hu, h⟩ := bind_eq_ok.mp h
  cases h
  exact ⟨rfl, (guardedUpdate_ok hu).1⟩

def alreadySettled (db : Db) (p : SettlementParams) : Prop :=
  ∃ s ∈ db.settlements, s.invoiceId = p.invoiceId ∨ s.receiptId = p.receiptId

theorem insertSettlement_ok {d : Option Db} (h : insertSettlement db p = .ok d) :
    (alreadySettled db p ∧ d = none) ∨
    (¬ alreadySettled db p ∧ ∃ x : Settlement, x.invoiceId = p.invoiceId ∧
      d = some { db with settlements := db.settlements ++ [x] }) := by
  unfold insertSettlement at h
  obtain ⟨-, h⟩ := passed h nofun
  split at h
  · rename_i hs
    cases h
    exact .inl ⟨by simpa [alreadySettled] using hs, rfl⟩
  · rename_i hs
    split at h
    · cases h
    · cases h
      exact .inr ⟨by simpa [alreadySettled] using hs, _, rfl, rfl⟩

theorem applySettlement_rows (hdb : RowsOk db)
    (h : applySettlement db p = .ok (db', r)) : RowsOk db' := by
  unfold applySettlement at h
  obtain ⟨⟨d, _⟩, hc, h⟩ := bind_eq_ok.mp h
  obtain ⟨row, _, h⟩ := bind_eq_ok.mp h
  obtain ⟨o, hi, h⟩ := bind_eq_ok.mp h
  have hd : RowsOk d := by
    rcases createTx_ok hc with ⟨rfl, _⟩ | ⟨_, _, rfl⟩
    · exact hdb
    · exact put_rows hdb (pendingRow_ok _ _ _)
  rcases insertSettlement_ok hi with ⟨_, rfl⟩ | ⟨_, x, _, rfl⟩
  · cases h; exact hd
  · have hroll : ∀ {anchor reset}, rollPeriod { d with settlements := d.settlements ++ [x] } row anchor reset = .ok (db', r) →
        RowsOk db' := by
      intro anchor reset h
      obtain ⟨rfl, _, hr, _⟩ := rollPeriod_ok h
      exact put_rows (d := { d with settlements := d.settlements ++ [x] }) hd hr
    simp only at h
    split at h
    · exact hroll h
    · exact hroll h
    · cases h

theorem applySettlement_settlements
    (h : applySettlement db p = .ok (db', r)) : db'.settlements = db.settlements ∨
      ∃ x : Settlement, x.invoiceId = p.invoiceId ∧ db'.settlements = db.settlements ++ [x] := by
  unfold applySettlement at h
  obtain ⟨⟨d, _⟩, hc, h⟩ := bind_eq_ok.mp h
  obtain ⟨row, _, h⟩ := bind_eq_ok.mp h
  obtain ⟨o, hi, h⟩ := bind_eq_ok.mp h
  have hd : d.settlements = db.settlements := by
    rcases createTx_ok hc with ⟨rfl, _⟩ | ⟨_, _, rfl⟩ <;> rfl
  rw [← hd]
  rcases insertSettlement_ok hi with ⟨_, rfl⟩ | ⟨_, x, hx, rfl⟩
  · cases h; exact .inl rfl
  · refine .inr ⟨x, hx, ?_⟩
    simp only at h
    split at h
    · obtain ⟨rfl, _⟩ := rollPeriod_ok h; rfl
    · obtain ⟨rfl, _⟩ := rollPeriod_ok h; rfl
    · cases h

theorem run_rows {op : Op} (hdb : RowsOk db) (h : op.run db = .ok (db', r)) :
    RowsOk db' := by
  have hupd : ∀ {row new : SubscriptionRow}, update db row new = .ok (db', r) → RowsOk db' := by
    intro row new h
    obtain ⟨rfl, hr⟩ := update_ok h
    exact put_rows hdb hr
  cases op with
  | create o p i =>
    rcases createTx_ok h with ⟨rfl, _⟩ | ⟨_, _, rfl⟩
    · exact hdb
    · exact put_rows hdb (pendingRow_ok _ _ _)
  | applySettlement p => exact applySettlement_rows hdb h
  | enterGrace o =>
    obtain ⟨row, _, h⟩ := bind_eq_ok.mp h
    split at h
    · cases h
    · split at h
      · cases h
      · exact hupd h
  | expire o =>
    obtain ⟨row, _, h⟩ := bind_eq_ok.mp h
    split at h
    · cases h
    · exact hupd h
  | setCancellation o c =>
    obtain ⟨row, _, h⟩ := bind_eq_ok.mp h
    split at h
    · cases h
    · split at h
      · cases h; exact hdb
      · exact hupd h
  | terminate o n =>
    obtain ⟨row, _, h⟩ := bind_eq_ok.mp h
    split at h
    · cases h
    · exact hupd h

theorem reachable_rows (h : Reachable Init Step db) : RowsOk db := by
  refine h.invariant (fun s h0 o row hs => ?_) fun s t _ ih hst => ?_
  · rw [h0.1 o] at hs; cases hs
  · cases hst with
    | op op r h => exact run_rows ih h
    | record prices routed verified hp => exact ih

theorem entitlement_of_row (hok : RowOk row) (hs : row.status ≠ .pending) :
    ∃ s e, row.currentPeriodStart = some s ∧ row.currentPeriodEnd = some e ∧ s < e ∧
      row.graceUntil = some (e + DAY_MS) ∧ row.effectiveTerminationAt.getD (e + DAY_MS) ≤ e + DAY_MS ∧
      ∀ now, deriveEntitlement (some row) now =
        .ok (if s ≤ now ∧ now < row.effectiveTerminationAt.getD (e + DAY_MS) then
          ⟨true, some (row.effectiveTerminationAt.getD (e + DAY_MS))⟩ else INVALID) := by
  simp only [RowOk, checks, List.forall_mem_cons, decide_eq_true_eq, hs, ne_eq, false_or] at hok
  obtain ⟨-, ⟨h1, h2⟩, h3, -, h5, -, ⟨h6, h7⟩, -⟩ := hok
  obtain ⟨s, hs'⟩ := Option.ne_none_iff_exists'.mp h1
  obtain ⟨e, he⟩ := Option.ne_none_iff_exists'.mp h2
  obtain ⟨g, hg⟩ := Option.ne_none_iff_exists'.mp h6
  have hlt : s < e := h3 s hs' e he
  have hge : g = e + DAY_MS := h7 g hg e he
  subst hge
  have hD : (0 : Int) < DAY_MS := by decide
  have ht : row.effectiveTerminationAt.getD (e + DAY_MS) ≤ e + DAY_MS := by
    cases ht : row.effectiveTerminationAt with
    | none => simp
    | some t => exact h5 t ht _ (by rw [hg]; rfl)
  refine ⟨s, e, hs', he, hlt, hg, ht, fun now => ?_⟩
  have hno : ¬ ∃ t ∈ row.effectiveTerminationAt, e + DAY_MS < t := by
    rintro ⟨t, htm, hlt⟩
    rw [Option.mem_def.mp htm] at ht
    simp only [Option.getD_some] at ht
    omega
  simp only [deriveEntitlement, hs, if_false, hs', he, hg, Option.getD_some, if_neg hno]
  rw [if_neg (by omega), if_neg (by simp; omega)]
  by_cases h1 : now < s
  · rw [if_pos h1, if_neg (by omega)]
  · rw [if_neg h1]
    by_cases h2 : now < row.effectiveTerminationAt.getD (e + DAY_MS)
    · rw [if_pos h2, if_pos ⟨by omega, h2⟩]
    · rw [if_neg h2, if_neg (by omega)]

theorem entitlement_valid {o : Uuid} {now x : Int}
    (h : deriveEntitlement (db.subscriptions o) now = .ok ⟨true, some x⟩) :
    ∃ row, db.subscriptions o = some row ∧ row.status ≠ .pending := by
  cases hs : db.subscriptions o with
  | none => rw [hs] at h; cases h
  | some row =>
    refine ⟨row, rfl, fun hp => ?_⟩
    rw [hs] at h
    simp [deriveEntitlement, hp, INVALID] at h

/-! ## Renewals -/

theorem applySettlement_renewal {e : Int}
    (hdb : RowsOk db) (hrow : db.subscriptions p.organizationId = some row) (hs : row.status ≠ .pending)
    (he : row.currentPeriodEnd = some e) (h : applySettlement db p = .ok (db', r)) :
    (alreadySettled db p ∧ db' = db) ∨
    (¬ alreadySettled db p ∧ ∃ row', db'.subscriptions p.organizationId = some row' ∧ row'.status = .active ∧
      row'.currentPeriodStart = some (renewalAnchor ⟨e, row.graceUntil⟩ p.settledAt) ∧
      row'.effectiveTerminationAt = none) := by
  unfold applySettlement at h
  obtain ⟨⟨d, _⟩, hc, h⟩ := bind_eq_ok.mp h
  obtain ⟨row₁, hl, h⟩ := bind_eq_ok.mp h
  obtain ⟨o, hi, h⟩ := bind_eq_ok.mp h
  have hd : d = db := by
    rcases createTx_ok hc with ⟨rfl, _⟩ | ⟨hn, _⟩
    · rfl
    · rw [hn] at hrow; cases hrow
  subst hd
  have hrow₁ : row₁ = row := Option.some.inj ((lock_ok hl).symm.trans hrow)
  subst hrow₁
  rcases insertSettlement_ok hi with ⟨ha, rfl⟩ | ⟨ha, x, _, rfl⟩
  · cases h; exact .inl ⟨ha, rfl⟩
  · refine .inr ⟨ha, ?_⟩
    rw [he] at h
    simp only at h
    obtain ⟨rfl, horg, _, hact, hst, hterm⟩ := rollPeriod_ok h
    have ho : r.subscription.organizationId = p.organizationId := horg.trans (hdb _ _ hrow).1
    exact ⟨r.subscription, ho ▸ put_self _ _, hact, hst, hterm⟩

def KeepsAccess (db db' : Db) (organizationId : Uuid) (now : Int) : Prop :=
  ∀ x, deriveEntitlement (db.subscriptions organizationId) now = .ok ⟨true, some x⟩ →
    ∃ x', deriveEntitlement (db'.subscriptions organizationId) now = .ok ⟨true, some x'⟩ ∧ x ≤ x'

/-- The running period has ended by `now`: what is left of the access is grace. -/
def periodEnded (db : Db) (organizationId : Uuid) (now : Int) : Prop :=
  ∀ row ∈ db.subscriptions organizationId, ∀ e ∈ row.currentPeriodEnd, e ≤ now

/-- **A renewal keeps access exactly when the running period has ended.** A renewal
settled earlier takes the rest of the running period away; a settlement that was
recorded before changes nothing. -/
theorem renewal_keeps_access_iff {db db' : Db} (hr : Reachable Init Step db) {p : SettlementParams} {r : WriteResult}
    (h : applySettlement db p = .ok (db', r)) {now x : Int} (hnow : p.settledAt ≤ now)
    (hv : deriveEntitlement (db.subscriptions p.organizationId) now = .ok ⟨true, some x⟩) :
    KeepsAccess db db' p.organizationId now ↔
      alreadySettled db p ∨ periodEnded db p.organizationId now := by
  have hdb := reachable_rows hr
  have hdb' := applySettlement_rows hdb h
  obtain ⟨row, hrow, hs⟩ := entitlement_valid hv
  obtain ⟨s, e, -, he, -, hg, hle, hent⟩ := entitlement_of_row (hdb _ _ hrow).2 hs
  rw [hrow, hent] at hv
  split at hv
  swap
  · cases hv
  rename_i hin
  cases hv
  have hended : periodEnded db p.organizationId now ↔ e ≤ now := by
    simp [periodEnded, hrow, he]
  rcases applySettlement_renewal hdb hrow hs he h with ⟨ha, rfl⟩ | ⟨ha, row', hrow', hact, hst, hterm⟩
  · simp only [ha, true_or, iff_true]
    exact fun x hx => ⟨x, hx, le_rfl⟩
  · -- settled by `now`, and so inside the grace: the new period starts where the old one ended
    have hanchor : renewalAnchor ⟨e, row.graceUntil⟩ p.settledAt = e := by
      have : ¬ (e + DAY_MS < p.settledAt) := by omega
      simp [renewalAnchor, isLateRenewal, hg, this]
    obtain ⟨s', e', hs', he', hlt', -, -, hent'⟩ := entitlement_of_row (hdb' _ _ hrow').2 (by rw [hact]; decide)
    rw [hst, hanchor] at hs'
    cases hs'
    simp only [ha, false_or, hended]
    unfold KeepsAccess
    rw [hrow, hrow', hent, hent', if_pos hin, hterm]
    simp only [Option.getD_none]
    constructor
    · intro hk
      obtain ⟨x', hx', _⟩ := hk _ rfl
      split at hx'
      · rename_i h'; exact h'.1
      · cases hx'
    · intro hle' x hx
      cases hx
      rw [if_pos (by omega)]
      exact ⟨_, rfl, by omega⟩

def earlyDb : Db where
  prices := fun i => if i = 3 then some ⟨2, some (.day, 30), false⟩ else none
  routed := fun i => if i = 10 ∨ i = 20 then some (1, 2) else none
  verified := fun r q i => decide (q = i + 1 ∧ r = i + 2)
  subscriptions := fun _ => none
  settlements := []

def settlementOf (invoiceId : Uuid) (settledAt : Int) : SettlementParams :=
  ⟨1, 2, 3, settledAt, invoiceId, invoiceId + 1, invoiceId + 2⟩

def settled (db : Db) (p : SettlementParams) : Db :=
  match applySettlement db p with
  | .ok r => r.1
  | .error _ => db

theorem settled_reachable (h : Reachable Init Step db) (p : SettlementParams) :
    Reachable Init Step (settled db p) := by
  unfold settled
  split
  · rename_i r hr
    exact h.step (.op (.applySettlement p) r.2 hr)
  · exact h

theorem earlyDb_reachable : Reachable Init Step earlyDb := .init ⟨fun _ => rfl, rfl⟩

/-- Paid for 30 days at day 0 and renewed at day 10, the organization has no access at day 10. -/
theorem early_renewal_takes_access_away :
    ¬ ∀ (db db' : Db) (p : SettlementParams) (r : WriteResult) (now : Int), Reachable Init Step db →
      applySettlement db p = .ok (db', r) → p.settledAt ≤ now → KeepsAccess db db' p.organizationId now := by
  intro hall
  let db := settled earlyDb (settlementOf 10 0)
  let p := settlementOf 20 (10 * DAY_MS)
  have hok : ∃ r, applySettlement db p = .ok (settled db p, r) := ⟨_, rfl⟩
  obtain ⟨r, hok⟩ := hok
  have hbefore : deriveEntitlement (db.subscriptions 1) (10 * DAY_MS) = .ok ⟨true, some (31 * DAY_MS)⟩ := rfl
  have hafter : deriveEntitlement ((settled db p).subscriptions 1) (10 * DAY_MS) = .ok INVALID := rfl
  obtain ⟨x', hx', _⟩ := hall db _ p r (10 * DAY_MS) (settled_reachable earlyDb_reachable _) hok le_rfl _ hbefore
  have := hafter.symm.trans hx'
  cases this

theorem grace_renewal_keeps_access :
    KeepsAccess (settled earlyDb (settlementOf 10 0))
      (settled (settled earlyDb (settlementOf 10 0)) (settlementOf 20 (30 * DAY_MS))) 1 (30 * DAY_MS) := by
  have hok : ∃ r, applySettlement (settled earlyDb (settlementOf 10 0)) (settlementOf 20 (30 * DAY_MS)) =
      .ok (settled (settled earlyDb (settlementOf 10 0)) (settlementOf 20 (30 * DAY_MS)), r) := ⟨_, rfl⟩
  obtain ⟨r, hok⟩ := hok
  have hv : deriveEntitlement ((settled earlyDb (settlementOf 10 0)).subscriptions 1) (30 * DAY_MS) =
      .ok ⟨true, some (31 * DAY_MS)⟩ := rfl
  refine (renewal_keeps_access_iff (settled_reachable earlyDb_reachable _) hok le_rfl hv).mpr (.inr ?_)
  intro row hrow e he
  cases hrow
  cases he
  decide

end NawaraCore.Subscriptions
