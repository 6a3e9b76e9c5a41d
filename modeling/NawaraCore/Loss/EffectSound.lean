import NawaraCore.Loss.CapSound

/-!
# The effects of the chargeback losses

A chargeback reverses a direct purchase once, by the first full loss of its capture; an
assisted purchase has one obligation, a capture one write-off.
-/

namespace NawaraCore.Losses

/-! ## What a transaction writes -/

structure Kept (db db' : Db) : Prop where
  purchases : db.purchases ⊆ db'.purchases
  lateSuccesses : db.lateSuccesses ⊆ db'.lateSuccesses
  losses : db.losses ⊆ db'.losses
  caps : db.caps ⊆ db'.caps

theorem Kept.refl (db : Db) : Kept db db :=
  ⟨List.Subset.refl _, List.Subset.refl _, List.Subset.refl _, List.Subset.refl _⟩

variable {db db' db₀ : Db} {l : DisputeLoss} {evidence : Option RefundEvidenceVerdict}

theorem purchaseOfCapture_mono (hk : Kept db db') {s : Purchase}
    (h : db.purchaseOfCapture l s = true) : db'.purchaseOfCapture l s = true := by
  unfold Db.purchaseOfCapture at h ⊢
  cases hl : l.capture with
  | settling_capture f =>
    rw [hl] at h
    exact h
  | late_capture f =>
    simp only [hl, decide_eq_true_eq, List.any_eq_true] at h ⊢
    obtain ⟨hr, x, hx, hxs⟩ := h
    exact ⟨hr, x, hk.lateSuccesses hx, hxs⟩

/-- A loss of the settling capture that paid a direct purchase is the first full one of the capture. -/
def Db.firstFullOf (db : Db) (disputeId purchaseId : Uuid) : Prop :=
  ∃ l ∈ db.losses, ∃ c ∈ db.caps, ∃ p ∈ db.purchases, l.disputeId = disputeId ∧ c.disputeId = disputeId ∧ c.firstFull = true ∧
    p.id = purchaseId ∧ p.purpose = .direct_purchase ∧ l.capture.settling = true ∧ db.purchaseOfCapture l p = true

theorem firstFullOf_mono (hk : Kept db db') {d p : Uuid} (h : db.firstFullOf d p) : db'.firstFullOf d p := by
  obtain ⟨l, hl, c, hc, s, hs, h₁, h₂, h₃, h₄, h₅, h₆, h₇⟩ := h
  exact ⟨l, hk.losses hl, c, hk.caps hc, s, hk.purchases hs, h₁, h₂, h₃, h₄, h₅, h₆, purchaseOfCapture_mono hk h₇⟩

structure SameEffects (db db' : Db) : Prop where
  effects : db'.effects = db.effects
  reversals : db'.reversals = db.reversals
  obligations : db'.obligations = db.obligations
  writeOffs : db'.writeOffs = db.writeOffs

inductive Writes (db db' : Db) : Prop
  | nothing (h : SameEffects db db')
  | refunded (p : Uuid) (hn : ∀ v ∈ db.reversals, v.purchaseId ≠ p)
      (hv : db'.reversals = db.reversals ++ [⟨p, .refund_completion⟩]) (he : db'.effects = db.effects)
      (ho : db'.obligations = db.obligations) (hw : db'.writeOffs = db.writeOffs)
  | effect (l : DisputeLoss) (e : DisputeLossEffect) (hl : l ∈ db.losses) (hid : l.disputeId = e.disputeId)
      (hn : ∀ x ∈ db.effects, x.disputeId ≠ e.disputeId) (hp : db.effectPurchase l e = true)
      (ha : e.outcome = .none .assisted_purchase_preserved → db.effectReversal e = true)
      (hr : e.outcome ≠ .reversed_purchase) (he : db'.effects = db.effects ++ [e]) (hv : db'.reversals = db.reversals)
      (ho : db'.obligations = db.obligations) (hw : db'.writeOffs = db.writeOffs)
  | reversed (d p : Uuid) (hf : db.firstFullOf d p) (hn : ∀ x ∈ db.effects, x.disputeId ≠ d)
      (hr : ∀ v ∈ db.reversals, v.purchaseId ≠ p) (he : db'.effects = db.effects ++ [⟨d, .reversed_purchase, some p⟩])
      (hv : db'.reversals = db.reversals ++ [⟨p, .final_lost_chargeback⟩])
      (ho : db'.obligations = db.obligations) (hw : db'.writeOffs = db.writeOffs)
  | obligation (o : RecoveryObligation) (hn : ∀ x ∈ db.obligations, x.purchaseId ≠ o.purchaseId)
      (hc : ∃ c ∈ db.caps, c.disputeId = o.disputeId ∧ c.firstFull = true)
      (hp : ∃ l ∈ db.losses, l.disputeId = o.disputeId ∧ ∃ s ∈ db.purchases, s.id = o.purchaseId ∧ db.purchaseOfCapture l s = true)
      (ho : db' = { db with obligations := db.obligations ++ [o] })
  | writeOff (f : WriteOff) (hn : ∀ x ∈ db.writeOffs, x.paymentId ≠ f.paymentId)
      (hl : ∃ l ∈ db.losses, l.disputeId = f.disputeId ∧ l.chargebackFactId = f.evidenceKey ∧ l.key = .settling f.paymentId)
      (hr : ∃ e ∈ db.effects, e.disputeId = f.disputeId ∧ e.outcome = .reversed_purchase)
      (hw : db' = { db with writeOffs := db.writeOffs ++ [f] })

theorem Writes.refl (db : Db) : Writes db db := .nothing ⟨rfl, rfl, rfl, rfl⟩

/-! ## The guarded inserts -/

theorem insertEffect_ok {e : DisputeLossEffect} (h : db.insertEffect l e = .ok db') :
    db.effectPurchase l e = true ∧ db.effectReversal e = true ∧ (∀ x ∈ db.effects, x.disputeId ≠ e.disputeId) ∧
      db' = { db with effects := db.effects ++ [e] } := by
  unfold Db.insertEffect at h
  obtain ⟨-, hp, h⟩ := guards_ok h
  obtain ⟨hr, hf, h⟩ := guards_ok h
  cases h
  exact ⟨by simpa using hp, by simpa using hr, by simpa using hf, rfl⟩

theorem insertCause_ok {k : ChargebackCause} (h : db.insertCause l k = .ok db') :
    ∃ causes, db' = { db with causes } := by
  unfold Db.insertCause at h
  cases hp : db.purchase? k.purchaseId with
  | none =>
    rw [hp] at h
    cases h
  | some s =>
    simp only [hp] at h
    obtain ⟨-, -, h⟩ := guards_ok h
    cases h
    exact ⟨_, rfl⟩

theorem insertReversal_ok {v : PurchaseReversal} (h : db.insertReversal v = .ok db') :
    (∀ x ∈ db.reversals, x.purchaseId ≠ v.purchaseId) ∧ db' = { db with reversals := db.reversals ++ [v] } := by
  unfold Db.insertReversal at h
  obtain ⟨hf, h⟩ := guard_ok h
  cases h
  exact ⟨by simpa using hf, rfl⟩

theorem orFailed_ok {α : Type} {x : Except Failure α} {a : α} (h : orFailed x = .ok a) : x = .ok a := by
  cases x with
  | ok b =>
    cases h
    rfl
  | error e => cases h

theorem insertReview_ok {r : RecoveryReview} (h : db.insertReview r = .ok db') :
    (∀ x ∈ db.reviews, x.disputeId ≠ r.disputeId) ∧ db' = { db with reviews := db.reviews ++ [r] } := by
  unfold Db.insertReview at h
  obtain ⟨-, -, h⟩ := guards_ok h
  obtain ⟨hf, h⟩ := guard_ok h
  cases h
  exact ⟨by simpa using hf, rfl⟩

theorem insertObligation_ok {o : RecoveryObligation} (h : db.insertObligation o = .ok db') :
    (∃ l ∈ db.losses, l.disputeId = o.disputeId ∧ ∃ s ∈ db.purchases, s.id = o.purchaseId ∧ db.purchaseOfCapture l s = true) ∧
      (∃ c ∈ db.caps, c.disputeId = o.disputeId ∧ c.firstFull = true) ∧ (∀ x ∈ db.obligations, x.purchaseId ≠ o.purchaseId) ∧
      db' = { db with obligations := db.obligations ++ [o] } := by
  unfold Db.insertObligation at h
  cases hl : db.loss? o.disputeId with
  | none =>
    rw [hl] at h
    cases h
  | some l =>
    simp only [hl] at h
    split at h
    · rename_i pr s a hpr hs ha
      obtain ⟨-, -, h⟩ := guards_ok h
      obtain ⟨-, -, h⟩ := guards_ok h
      obtain ⟨hp, hc, h⟩ := guards_ok h
      obtain ⟨-, -, h⟩ := guards_ok h
      obtain ⟨-, hu, h⟩ := guards_ok h
      cases h
      have hid : l.disputeId = o.disputeId := by simpa using List.find?_some hl
      have hsid : s.id = o.purchaseId := by simpa using List.find?_some hs
      refine ⟨⟨l, List.mem_of_find?_eq_some hl, hid, s, List.mem_of_find?_eq_some hs, hsid, by simpa using hp⟩, ?_,
        by simpa using hu, rfl⟩
      simpa using hc
    · cases h

theorem insertWriteOff_ok {f : WriteOff} (h : db.insertWriteOff f = .ok db') :
    (∃ l ∈ db.losses, l.disputeId = f.disputeId ∧ l.chargebackFactId = f.evidenceKey ∧ l.key = .settling f.paymentId) ∧
      (∃ e ∈ db.effects, e.disputeId = f.disputeId ∧ e.outcome = .reversed_purchase) ∧
      (db' = db ∨ ((∀ x ∈ db.writeOffs, x.paymentId ≠ f.paymentId) ∧ db' = { db with writeOffs := db.writeOffs ++ [f] })) := by
  unfold Db.insertWriteOff at h
  cases hl : db.loss? f.disputeId with
  | none =>
    rw [hl] at h
    cases h
  | some l =>
    simp only [hl] at h
    cases hpr : db.request? l.paymentRequestId with
    | none =>
      rw [hpr] at h
      cases h
    | some pr =>
      simp only [hpr] at h
      obtain ⟨hb, hs, h⟩ := guards_ok h
      obtain ⟨he, -, h⟩ := guards_ok h
      simp only [not_or, not_not, Bool.not_eq_true] at hb hs
      have hkey : l.key = .settling f.paymentId := by
        unfold DisputeLoss.key
        cases hcap : l.capture with
        | settling_capture _ => exact congrArg _ hb.2.1
        | late_capture _ =>
          simp [hcap, Capture.settling] at hs
      have hid : l.disputeId = f.disputeId := by simpa using List.find?_some hl
      refine ⟨⟨l, List.mem_of_find?_eq_some hl, hid, hb.1, hkey⟩, by simpa using he, ?_⟩
      split at h
      · cases h
        exact .inl rfl
      · rename_i hn
        cases h
        have hn : ∀ x ∈ db.writeOffs, ¬ (x.evidenceKey = f.evidenceKey ∨ x.paymentId = f.paymentId) := by
          simpa using hn
        exact .inr ⟨fun x hx he => hn x hx (.inr he), rfl⟩

/-! ## The dispute loss worker -/

structure SameRecords (db db' : Db) : Prop where
  ledger : SameLedger db db'
  purchases : db'.purchases = db.purchases
  refundCases : db'.refundCases = db.refundCases
  assistance : db'.assistance_request = db.assistance_request
  platforms : db'.billing_platform = db.billing_platform

theorem SameRecords.refl (db : Db) : SameRecords db db := ⟨SameLedger.refl db, rfl, rfl, rfl, rfl⟩

structure SameNotes (db db' : Db) : Prop where
  reviews : db'.reviews = db.reviews
  overlapCases : db'.overlapCases = db.overlapCases

theorem SameRecords.kept (h : SameRecords db db') : Kept db db' :=
  ⟨by rw [h.purchases]; exact List.Subset.refl _, by rw [h.ledger.lateSuccesses]; exact List.Subset.refl _,
    by rw [h.ledger.losses]; exact List.Subset.refl _, by rw [h.ledger.caps]; exact List.Subset.refl _⟩

theorem recordEffect_writes {o : EffectOutcome} {p : Option Uuid} (hl : l ∈ db.losses)
    (ho : o ≠ .reversed_purchase) (h : recordEffect db l o p = .ok db') : Writes db db' ∧ SameRecords db db' ∧ SameNotes db db' := by
  obtain ⟨hp, hv, hf, rfl⟩ := insertEffect_ok (orFailed_ok h)
  exact ⟨.effect l ⟨l.disputeId, o, p⟩ hl rfl hf hp (fun _ => hv) ho rfl rfl rfl rfl, ⟨⟨rfl, rfl, rfl, rfl⟩, rfl, rfl, rfl, rfl⟩, ⟨rfl, rfl⟩⟩

variable {pr : PaymentRequest}

theorem applyLateCapture_writes {f : Uuid} (hl : l ∈ db.losses)
    (h : applyLateCapture db l f pr = .ok db') : Writes db db' ∧ SameRecords db db' ∧ SameNotes db db' := by
  unfold applyLateCapture at h
  cases hs : db.lateSuccessOf f with
  | none =>
    rw [hs] at h
    cases h
  | some ls =>
    simp only [hs] at h
    obtain ⟨-, -, h⟩ := guards_ok h
    cases hp : db.purchases.find? fun p => p.lateSuccessId = some ls.lateSuccessId with
    | none =>
      simp only [hp] at h
      obtain ⟨-, -, h⟩ := guards_ok h
      exact recordEffect_writes hl (by intro he; cases he) h
    | some p =>
      simp only [hp] at h
      split at h
      · exact recordEffect_writes hl (by intro he; cases he) h
      · obtain ⟨-, h⟩ := guard_ok h
        cases h

theorem applyDirect_writes {p : Purchase} (hl : l ∈ db.losses)
    (hp : p ∈ db.purchases) (hd : p.purpose = .direct_purchase) (hs : l.capture.settling = true) (hc : db.purchaseOfCapture l p = true)
    (h : applyDirect db l pr p = .ok db') : Writes db db' ∧ SameRecords db db' ∧ SameNotes db db' := by
  unfold applyDirect at h
  obtain ⟨-, -, h⟩ := guards_ok h
  obtain ⟨cap, hcap, h⟩ := bind_eq_ok.mp h
  obtain ⟨hin, hfull, h⟩ := guards_ok h
  rw [not_not] at hfull
  obtain ⟨db₁, hk, h⟩ := bind_eq_ok.mp h
  obtain ⟨causes, rfl⟩ := insertCause_ok (orFailed_ok hk)
  simp only [hfull, if_true] at h
  split at h
  · obtain ⟨hep, -, hf, rfl⟩ := insertEffect_ok (orFailed_ok h)
    exact ⟨.effect l ⟨l.disputeId, .none .already_reversed, some p.id⟩ hl rfl hf hep (by intro he; cases he) (by intro he; cases he) rfl rfl rfl rfl,
      ⟨⟨rfl, rfl, rfl, rfl⟩, rfl, rfl, rfl, rfl⟩, ⟨rfl, rfl⟩⟩
  · obtain ⟨db₂, hv, h⟩ := bind_eq_ok.mp h
    obtain ⟨hnv, rfl⟩ := insertReversal_ok (orFailed_ok hv)
    obtain ⟨-, -, hf, rfl⟩ := insertEffect_ok (orFailed_ok h)
    have hcap : db.cap? l.disputeId = some cap := by
      have hcap := orFailed_ok hcap
      unfold captureLossOf at hcap
      split at hcap
      · cases hcap
      · cases hcap
        assumption
    have hcm := List.mem_of_find?_eq_some hcap
    have hcd : cap.disputeId = l.disputeId := by simpa using List.find?_some hcap
    have hff : cap.firstFull = true := by
      by_contra hne
      exact hin (.inr ⟨hfull, hne⟩)
    exact ⟨.reversed l.disputeId p.id ⟨l, hl, cap, hcm, p, hp, rfl, hcd, hff, rfl, hd, hs, hc⟩ hf hnv rfl rfl rfl rfl,
      ⟨⟨rfl, rfl, rfl, rfl⟩, rfl, rfl, rfl, rfl⟩, ⟨rfl, rfl⟩⟩

theorem applyLoss_writes {d : Uuid} (h : applyLoss db d = .ok db') : Writes db db' ∧ SameRecords db db' ∧ SameNotes db db' := by
  unfold applyLoss at h
  cases hl : db.loss? d with
  | none =>
    rw [hl] at h
    cases h
  | some l =>
    have hm := List.mem_of_find?_eq_some hl
    simp only [hl] at h
    split at h
    · cases h
      exact ⟨Writes.refl _, SameRecords.refl _, ⟨rfl, rfl⟩⟩
    · cases hpr : db.request? l.paymentRequestId with
      | none =>
        rw [hpr] at h
        cases h
      | some pr =>
        have hpid : pr.id = l.paymentRequestId := by simpa using List.find?_some hpr
        simp only [hpr] at h
        obtain ⟨-, h⟩ := guard_ok h
        cases hcap : l.capture with
        | late_capture f =>
          simp only [hcap] at h
          exact applyLateCapture_writes hm h
        | settling_capture f =>
          simp only [hcap] at h
          cases hp : db.purchases.find? fun p => p.paymentRequestId = pr.id ∧ p.lateSuccessId = none with
          | none =>
            simp only [hp] at h
            obtain ⟨-, h⟩ := guard_ok h
            exact recordEffect_writes hm (by intro he; cases he) h
          | some p =>
            have hpm := List.mem_of_find?_eq_some hp
            have hpp : p.paymentRequestId = pr.id ∧ p.lateSuccessId = none := by simpa using List.find?_some hp
            simp only [hp] at h
            obtain ⟨-, h⟩ := guard_ok h
            cases hpur : p.purpose with
            | assisted_settlement =>
              simp only [hpur] at h
              exact recordEffect_writes hm (by intro he; cases he) h
            | direct_purchase =>
              simp only [hpur] at h
              refine applyDirect_writes hm hpm hpur (by rw [hcap]; rfl) ?_ h
              unfold Db.purchaseOfCapture
              simp [hcap, hpp.1, hpp.2, hpid]

theorem note_writes (db : Db) (d : Uuid) (a : AttemptState) :
    Writes db (db.note d a) ∧ SameRecords db (db.note d a) ∧ SameNotes db (db.note d a) :=
  ⟨.nothing ⟨rfl, rfl, rfl, rfl⟩, ⟨⟨rfl, rfl, rfl, rfl⟩, rfl, rfl, rfl, rfl⟩, ⟨rfl, rfl⟩⟩

theorem apply_writes (db : Db) (d : Uuid) :
    Writes db (apply db d) ∧ SameRecords db (apply db d) ∧ SameNotes db (apply db d) := by
  unfold apply
  split
  · exact note_writes db d .review
  · split
    · rename_i db' h
      exact applyLoss_writes h
    · exact note_writes db d .review
    · exact note_writes db d .held
    · exact note_writes db d .retry

/-! ## The steps -/

theorem record_writes {r : Record} (h : db.record r = .ok db') : Writes db db' ∧ Kept db db' := by
  have hsub : ∀ {α : Type} (l : List α), l ⊆ l := fun l => List.Subset.refl l
  cases r with
  | request r =>
    simp only [Db.record] at h
    obtain ⟨-, -, h⟩ := guards_ok h
    cases h
    exact ⟨.nothing ⟨rfl, rfl, rfl, rfl⟩, ⟨hsub _, hsub _, hsub _, hsub _⟩⟩
  | paymentId r p =>
    simp only [Db.record] at h
    obtain ⟨-, -, h⟩ := guards_ok h
    cases h
    exact ⟨.nothing ⟨rfl, rfl, rfl, rfl⟩, ⟨hsub _, hsub _, hsub _, hsub _⟩⟩
  | lateSuccess s =>
    simp only [Db.record] at h
    obtain ⟨-, -, h⟩ := guards_ok h
    obtain ⟨-, h⟩ := guard_ok h
    cases h
    exact ⟨.nothing ⟨rfl, rfl, rfl, rfl⟩, ⟨hsub _, List.subset_append_left _ _, hsub _, hsub _⟩⟩
  | purchase p =>
    simp only [Db.record] at h
    cases hr : db.request? p.paymentRequestId with
    | none =>
      rw [hr] at h
      cases h
    | some r =>
      simp only [hr] at h
      obtain ⟨-, -, h⟩ := guards_ok h
      obtain ⟨-, -, h⟩ := guards_ok h
      cases h
      exact ⟨.nothing ⟨rfl, rfl, rfl, rfl⟩, ⟨List.subset_append_left _ _, hsub _, hsub _, hsub _⟩⟩
  | refundCase r =>
    simp only [Db.record] at h
    obtain ⟨-, -, h⟩ := guards_ok h
    obtain ⟨-, h⟩ := guard_ok h
    cases h
    exact ⟨.nothing ⟨rfl, rfl, rfl, rfl⟩, ⟨hsub _, hsub _, hsub _, hsub _⟩⟩
  | refundStatus r status =>
    simp only [Db.record] at h
    obtain ⟨-, h⟩ := guard_ok h
    cases h
    exact ⟨.nothing ⟨rfl, rfl, rfl, rfl⟩, ⟨hsub _, hsub _, hsub _, hsub _⟩⟩
  | relay x =>
    simp only [Db.record] at h
    obtain ⟨-, -, h⟩ := guards_ok h
    cases h
    exact ⟨.nothing ⟨rfl, rfl, rfl, rfl⟩, ⟨hsub _, hsub _, hsub _, hsub _⟩⟩
  | relayStatus x status =>
    simp only [Db.record] at h
    obtain ⟨-, h⟩ := guard_ok h
    cases h
    exact ⟨.nothing ⟨rfl, rfl, rfl, rfl⟩, ⟨hsub _, hsub _, hsub _, hsub _⟩⟩
  | refundReversal p =>
    simp only [Db.record] at h
    obtain ⟨hn, rfl⟩ := insertReversal_ok h
    exact ⟨.refunded p hn rfl rfl rfl rfl, ⟨hsub _, hsub _, hsub _, hsub _⟩⟩
  | recoveryPayment l =>
    simp only [Db.record] at h
    cases h
    exact ⟨.nothing ⟨rfl, rfl, rfl, rfl⟩, ⟨hsub _, hsub _, hsub _, hsub _⟩⟩

theorem insertLoss_writes (h : db.insertLoss l = .ok db') : Writes db db' ∧ Kept db db' := by
  unfold Db.insertLoss at h
  obtain ⟨-, -, h⟩ := guards_ok h
  obtain ⟨-, -, h⟩ := guards_ok h
  cases h
  exact ⟨.nothing ⟨rfl, rfl, rfl, rfl⟩,
    ⟨List.Subset.refl _, List.Subset.refl _, List.subset_append_left _ _, List.Subset.refl _⟩⟩

theorem recordCaptureLoss_writes {d : Uuid} (h : recordCaptureLoss db d = .ok db') :
    Writes db db' ∧ Kept db db' := by
  rcases recordCaptureLoss_cases h with rfl | ⟨l, -, c, -, -, rfl⟩
  · exact ⟨Writes.refl _, Kept.refl _⟩
  · exact ⟨.nothing ⟨rfl, rfl, rfl, rfl⟩,
      ⟨List.Subset.refl _, List.Subset.refl _, List.Subset.refl _, List.subset_append_left _ _⟩⟩

variable {f : VisitFacts} {o : VisitOutcome}

theorem decideVisit_cases
    (h : decideVisit db f evidence = .ok (db', o)) :
    db' = db ∨
      (∃ cap reason, db.cap? f.disputeId = some cap ∧ (∀ o ∈ db.obligations, o.disputeId ≠ f.disputeId) ∧
        (∀ r ∈ db.reviews, r.disputeId ≠ f.disputeId) ∧ reviewReason f.refunded (db.obligations.any fun x => x.purchaseId = f.purchaseId)
          (db.otherFirst f.disputeId f.purchaseId) cap = some reason ∧ db.insertReview ⟨f.disputeId, reason⟩ = .ok db') ∨
      ∃ companyId, db.insertObligation ⟨f.disputeId, f.assistanceRequestId, f.purchaseId, f.organizationId, companyId,
        f.platformId, f.baseAmount, f.currency⟩ = .ok db' := by
  unfold decideVisit at h
  split at h
  · cases h
    exact .inl rfl
  · rename_i hun
    have hun : (∀ o ∈ db.obligations, o.disputeId ≠ f.disputeId) ∧ ∀ r ∈ db.reviews, r.disputeId ≠ f.disputeId := by
      simpa using hun
    cases hcap : db.cap? f.disputeId with
    | none =>
      simp only [captureLossOf, hcap] at h
      cases h
    | some cap =>
      simp only [captureLossOf, hcap] at h
      split at h
      · rename_i reason hr
        obtain ⟨db₁, hi, he⟩ := map_eq_ok.mp h
        cases he
        exact .inr (.inl ⟨cap, reason, rfl, hun.1, hun.2, hr, hi⟩)
      · split at h
        · cases h
        · rename_i companyId hc
          split at h
          · cases h
            exact .inl rfl
          · split at h
            · rename_i db₁ hi
              cases h
              exact .inr (.inr ⟨companyId, hi⟩)
            · cases h
              exact .inl rfl
            · cases h

theorem decideVisit_writes
    (h : decideVisit db f evidence = .ok (db', o)) : Writes db db' ∧ SameRecords db db' := by
  rcases decideVisit_cases h with rfl | ⟨cap, reason, -, -, -, -, hi⟩ | ⟨companyId, hi⟩
  · exact ⟨Writes.refl _, SameRecords.refl _⟩
  · obtain ⟨-, rfl⟩ := insertReview_ok hi
    exact ⟨.nothing ⟨rfl, rfl, rfl, rfl⟩, ⟨⟨rfl, rfl, rfl, rfl⟩, rfl, rfl, rfl, rfl⟩⟩
  · obtain ⟨hp, hc, hn, rfl⟩ := insertObligation_ok hi
    exact ⟨.obligation _ hn hc hp rfl, ⟨⟨rfl, rfl, rfl, rfl⟩, rfl, rfl, rfl, rfl⟩⟩

variable {f : WriteOffFacts}

theorem recognizeChargebackLoss_cases
    (h : recognizeChargebackLoss db f evidence = .ok db') :
    db' = db ∨ (f.refunded = true ∧ db' = { db with overlapCases := db.overlapCases ++ [f.disputeId] }) ∨
      db.insertWriteOff ⟨f.chargebackFactId, f.sellerId, f.paymentId, f.disputeId, f.amount, f.currency⟩ = .ok db' := by
  unfold recognizeChargebackLoss at h
  split at h
  · rename_i hr
    split at h
    · cases h
      exact .inl rfl
    · cases h
      exact .inr (.inl ⟨hr, rfl⟩)
  · split at h
    · cases h
      exact .inl rfl
    · split at h
      · cases h
        exact .inl rfl
      · exact .inr (.inr h)

theorem recognizeChargebackLoss_writes
    (h : recognizeChargebackLoss db f evidence = .ok db') : Writes db db' ∧ SameRecords db db' := by
  rcases recognizeChargebackLoss_cases h with rfl | ⟨-, rfl⟩ | hi
  · exact ⟨Writes.refl _, SameRecords.refl _⟩
  · exact ⟨.nothing ⟨rfl, rfl, rfl, rfl⟩, ⟨⟨rfl, rfl, rfl, rfl⟩, rfl, rfl, rfl, rfl⟩⟩
  · obtain ⟨hl, hr, rfl | ⟨hn, rfl⟩⟩ := insertWriteOff_ok hi
    · exact ⟨Writes.refl _, SameRecords.refl _⟩
    · exact ⟨.writeOff _ hn hl hr rfl, ⟨⟨rfl, rfl, rfl, rfl⟩, rfl, rfl, rfl, rfl⟩⟩

theorem commit_cases {s : Sys} (x : Except Failure Db) : s.commit x = s ∨ ∃ db, x = .ok db ∧ s.commit x = { s with db } := by
  cases x with
  | error e => exact .inl rfl
  | ok db => exact .inr ⟨db, rfl, rfl⟩

theorem step_writes (s : Sys) (a : Action) :
    Writes s.db (step s a).db ∧ Kept s.db (step s a).db ∧ (Ledger s.db → Ledger (step s a).db) := by
  have same : ∀ t : Sys, t.db = s.db → Writes s.db t.db ∧ Kept s.db t.db ∧ (Ledger s.db → Ledger t.db) := by
    intro t ht
    rw [ht]
    exact ⟨Writes.refl _, Kept.refl _, id⟩
  cases a with
  | record r =>
    rcases commit_cases (s := s) (s.db.record r) with h | ⟨db, hx, h⟩
    · exact same _ (congrArg Sys.db h)
    · simp only [step, h]
      exact ⟨(record_writes hx).1, (record_writes hx).2, fun hi => record_ledger hi hx⟩
  | recordLoss l =>
    rcases commit_cases (s := s) (s.db.insertLoss l) with h | ⟨db, hx, h⟩
    · exact same _ (congrArg Sys.db h)
    · simp only [step, h]
      exact ⟨(insertLoss_writes hx).1, (insertLoss_writes hx).2, fun hi => insertLoss_ledger hi hx⟩
  | recordCaptureLoss d =>
    rcases commit_cases (s := s) (recordCaptureLoss s.db d) with h | ⟨db, hx, h⟩
    · exact same _ (congrArg Sys.db h)
    · simp only [step, h]
      exact ⟨(recordCaptureLoss_writes hx).1, (recordCaptureLoss_writes hx).2, fun hi => recordCaptureLoss_ledger hi hx⟩
  | apply d =>
    obtain ⟨hw, hr, -⟩ := apply_writes s.db d
    exact ⟨hw, hr.kept, fun hi => hi.same hr.ledger⟩
  | visit d =>
    simp only [step]
    split
    · exact same _ rfl
    · exact same _ rfl
  | readEvidence f payment =>
    simp only [step]
    split
    · exact same _ rfl
    · exact same _ rfl
  | decide f evidence =>
    simp only [step]
    split
    · rcases commit_cases (s := s) ((decideVisit s.db f evidence).map Prod.fst) with h | ⟨db, hx, h⟩
      · exact same _ (congrArg Sys.db h)
      · simp only [h]
        obtain ⟨⟨db', o⟩, hd, hx⟩ := map_eq_ok.mp hx
        cases hx
        obtain ⟨hw, hr⟩ := decideVisit_writes hd
        exact ⟨hw, hr.kept, fun hi => hi.same hr.ledger⟩
    · exact same _ rfl
  | selectRow d =>
    simp only [step]
    split
    · exact same _ rfl
    · exact same _ rfl
  | readRowEvidence f payment =>
    simp only [step]
    split
    · exact same _ rfl
    · exact same _ rfl
  | writeOff f evidence =>
    simp only [step]
    split
    · rcases commit_cases (s := s) (recognizeChargebackLoss s.db f evidence) with h | ⟨db, hx, h⟩
      · exact same _ (congrArg Sys.db h)
      · simp only [h]
        obtain ⟨hw, hr⟩ := recognizeChargebackLoss_writes hx
        exact ⟨hw, hr.kept, fun hi => hi.same hr.ledger⟩
    · exact same _ rfl

/-! ## The invariant of the effects -/

/-- The rows of the effects, and where those that `db₀` did not have come from. -/
structure Effects (db₀ db : Db) : Prop where
  reversalKeys : (db.reversals.map PurchaseReversal.purchaseId).Nodup
  effectKeys : (db.effects.map DisputeLossEffect.disputeId).Nodup
  reversed : ∀ e ∈ db.effects, e.outcome = .reversed_purchase → ∃ v ∈ db.reversals, some v.purchaseId = e.purchaseId
  reversedOnce : UniqueOn (fun e => e.outcome = .reversed_purchase) DisputeLossEffect.purchaseId db.effects
  obligationPurchases : (db.obligations.map RecoveryObligation.purchaseId).Nodup
  writeOffPayments : (db.writeOffs.map WriteOff.paymentId).Nodup
  settling : ∀ f ∈ db.writeOffs, ∃ l ∈ db.losses, l.disputeId = f.disputeId ∧ l.chargebackFactId = f.evidenceKey ∧ l.key = .settling f.paymentId
  firstReversals : ∀ v ∈ db.reversals, v.cause = .final_lost_chargeback → v ∈ db₀.reversals ∨
    ∃ d, ⟨d, .reversed_purchase, some v.purchaseId⟩ ∈ db.effects ∧ db.firstFullOf d v.purchaseId
  firstObligations : ∀ o ∈ db.obligations, o ∈ db₀.obligations ∨ ∃ c ∈ db.caps, c.disputeId = o.disputeId ∧ c.firstFull = true

theorem Effects.same {db₀ db db' : Db} (h : Effects db₀ db) (hs : SameEffects db db') (hk : Kept db db') : Effects db₀ db' := by
  refine ⟨by rw [hs.reversals]; exact h.reversalKeys, by rw [hs.effects]; exact h.effectKeys,
    by rw [hs.effects, hs.reversals]; exact h.reversed, by rw [hs.effects]; exact h.reversedOnce,
    by rw [hs.obligations]; exact h.obligationPurchases, by rw [hs.writeOffs]; exact h.writeOffPayments, ?_, ?_, ?_⟩
  · rw [hs.writeOffs]
    intro f hf
    obtain ⟨l, hl, hlf⟩ := h.settling f hf
    exact ⟨l, hk.losses hl, hlf⟩
  · rw [hs.reversals, hs.effects]
    intro v hv hc
    refine (h.firstReversals v hv hc).imp_right ?_
    rintro ⟨d, hd, hf⟩
    exact ⟨d, hd, firstFullOf_mono hk hf⟩
  · rw [hs.obligations]
    intro o ho
    refine (h.firstObligations o ho).imp_right ?_
    rintro ⟨c, hc, hcf⟩
    exact ⟨c, hk.caps hc, hcf⟩

theorem Effects.append (h : Effects db₀ db) (hk : Kept db db') (es : List DisputeLossEffect)
    (vs : List PurchaseReversal) (he : db'.effects = db.effects ++ es) (hv : db'.reversals = db.reversals ++ vs)
    (ho : db'.obligations = db.obligations) (hw : db'.writeOffs = db.writeOffs)
    (hvk : (db'.reversals.map PurchaseReversal.purchaseId).Nodup) (hek : (db'.effects.map DisputeLossEffect.disputeId).Nodup)
    (hre : ∀ e ∈ es, e.outcome = .reversed_purchase → ∃ v ∈ vs, some v.purchaseId = e.purchaseId)
    (hro : UniqueOn (fun e => e.outcome = .reversed_purchase) DisputeLossEffect.purchaseId db'.effects)
    (hfv : ∀ v ∈ vs, v.cause = .final_lost_chargeback →
      ∃ d, ⟨d, .reversed_purchase, some v.purchaseId⟩ ∈ es ∧ db.firstFullOf d v.purchaseId) : Effects db₀ db' := by
  refine ⟨hvk, hek, ?_, hro, by rw [ho]; exact h.obligationPurchases, by rw [hw]; exact h.writeOffPayments, ?_, ?_, ?_⟩
  · rw [he, hv]
    intro e hm hr
    rcases List.mem_append.mp hm with hm | hm
    · obtain ⟨v, hv, hve⟩ := h.reversed e hm hr
      exact ⟨v, List.mem_append_left _ hv, hve⟩
    · obtain ⟨v, hv, hve⟩ := hre e hm hr
      exact ⟨v, List.mem_append_right _ hv, hve⟩
  · rw [hw]
    intro f hf
    obtain ⟨l, hl, hlf⟩ := h.settling f hf
    exact ⟨l, hk.losses hl, hlf⟩
  · rw [he, hv]
    intro v hm hc
    rcases List.mem_append.mp hm with hm | hm
    · refine (h.firstReversals v hm hc).imp_right ?_
      rintro ⟨d, hd, hf⟩
      exact ⟨d, List.mem_append_left _ hd, firstFullOf_mono hk hf⟩
    · obtain ⟨d, hd, hf⟩ := hfv v hm hc
      exact .inr ⟨d, List.mem_append_right _ hd, firstFullOf_mono hk hf⟩
  · rw [ho]
    intro o hm
    refine (h.firstObligations o hm).imp_right ?_
    rintro ⟨c, hc, hcf⟩
    exact ⟨c, hk.caps hc, hcf⟩

theorem Effects.writes (h : Effects db₀ db) (hw : Writes db db') (hk : Kept db db') : Effects db₀ db' := by
  cases hw with
  | nothing hs => exact h.same hs hk
  | refunded p hn hv he ho hw =>
    refine h.append hk [] _ (by rw [he, List.append_nil]) hv ho hw ?_ (by rw [he]; exact h.effectKeys)
      nofun (by rw [he]; exact h.reversedOnce) ?_
    · rw [hv]
      exact nodup_append_row h.reversalKeys hn
    · intro v hm hc
      rw [List.mem_singleton.mp hm] at hc
      cases hc
  | effect l e hl hid hn hp ha hr he hv ho hw =>
    refine h.append hk _ [] he (by rw [hv, List.append_nil]) ho hw (by rw [hv]; exact h.reversalKeys) ?_ ?_ ?_
      nofun
    · rw [he]
      exact nodup_append_row h.effectKeys hn
    · intro x hm hx
      rw [List.mem_singleton.mp hm] at hx
      exact absurd hx hr
    · rw [he]
      exact h.reversedOnce.append fun x _ _ hx => absurd hx hr
  | reversed d p hf hn hr he hv ho hw =>
    refine h.append hk _ _ he hv ho hw ?_ ?_ ?_ ?_ ?_
    · rw [hv]
      exact nodup_append_row h.reversalKeys hr
    · rw [he]
      exact nodup_append_row h.effectKeys hn
    · intro x hm _
      rw [List.mem_singleton.mp hm]
      exact ⟨_, List.mem_singleton_self _, rfl⟩
    · -- an effect that reversed the purchase before left its reversal
      rw [he]
      refine h.reversedOnce.append fun x hx hxr _ hxp => ?_
      obtain ⟨v, hv, hve⟩ := h.reversed x hx hxr
      exact hr v hv (Option.some.inj (hve.trans hxp))
    · intro v hm _
      rw [List.mem_singleton.mp hm]
      exact ⟨d, List.mem_singleton_self _, hf⟩
  | obligation o hn hc hp ho =>
    subst ho
    refine ⟨h.reversalKeys, h.effectKeys, h.reversed, h.reversedOnce, nodup_append_row h.obligationPurchases hn,
      h.writeOffPayments, h.settling, h.firstReversals, ?_⟩
    intro x hx
    rcases mem_append_row hx with hx | rfl
    · exact h.firstObligations x hx
    · exact .inr hc
  | writeOff f hn hl hr hw =>
    subst hw
    refine ⟨h.reversalKeys, h.effectKeys, h.reversed, h.reversedOnce, h.obligationPurchases,
      nodup_append_row h.writeOffPayments hn, ?_, h.firstReversals, h.firstObligations⟩
    intro x hx
    rcases mem_append_row hx with hx | rfl
    · exact h.settling x hx
    · exact hl

/-! ## Whole runs -/

/-- The records when the ledger begins: its tables meet their keys and it places no loss. -/
structure Historical (db : Db) : Prop where
  requestKeys : (db.requests.map PaymentRequest.id).Nodup
  paymentIds : UniqueOn (fun r => r.paymentId ≠ none) PaymentRequest.paymentId db.requests
  facts : UniqueOn (fun s => s.factId ≠ none) PaymentLateSuccess.factId db.lateSuccesses
  lossKeys : (db.losses.map DisputeLoss.disputeId).Nodup
  positive : ∀ l ∈ db.losses, 0 < l.chargebackAmount
  caps : db.caps = []
  reversalKeys : (db.reversals.map PurchaseReversal.purchaseId).Nodup
  effectKeys : (db.effects.map DisputeLossEffect.disputeId).Nodup
  reversed : ∀ e ∈ db.effects, e.outcome = .reversed_purchase → ∃ v ∈ db.reversals, some v.purchaseId = e.purchaseId
  reversedOnce : UniqueOn (fun e => e.outcome = .reversed_purchase) DisputeLossEffect.purchaseId db.effects
  obligationPurchases : (db.obligations.map RecoveryObligation.purchaseId).Nodup
  writeOffPayments : (db.writeOffs.map WriteOff.paymentId).Nodup
  settling : ∀ f ∈ db.writeOffs, ∃ l ∈ db.losses, l.disputeId = f.disputeId ∧ l.chargebackFactId = f.evidenceKey ∧ l.key = .settling f.paymentId

theorem Historical.ledger (h : Historical db) : Ledger db := by
  refine ⟨h.requestKeys, h.paymentIds, h.facts, h.lossKeys, h.positive, ?_, ?_, ?_⟩ <;> simp [h.caps]

theorem Historical.effects (h : Historical db) : Effects db db :=
  ⟨h.reversalKeys, h.effectKeys, h.reversed, h.reversedOnce, h.obligationPurchases, h.writeOffPayments, h.settling,
    fun _ hv _ => .inl hv, fun _ ho => .inl ho⟩

theorem run_effects {s : Sys} (hl : Ledger s.db) (he : Effects db₀ s.db) (actions : List Action) :
    Ledger (run s actions).db ∧ Effects db₀ (run s actions).db := by
  unfold run
  induction actions generalizing s with
  | nil => exact ⟨hl, he⟩
  | cons a actions ih =>
    obtain ⟨hw, hk, hs⟩ := step_writes s a
    exact ih (hs hl) (he.writes hw hk)

structure LossCap (db₀ db : Db) : Prop where
  firstFull : ∀ c ∈ db.caps, ∀ d ∈ db.caps, d.captureKey = c.captureKey → c.firstFull = true → d.firstFull = true → c = d
  within : ∀ c ∈ db.caps, db.capturedKey c.captureKey = some (c.gross, c.currency) ∧ withinSum db.caps c.captureKey ≤ c.gross
  reversedOnce : ∀ v ∈ db.reversals, ∀ w ∈ db.reversals, w.purchaseId = v.purchaseId → v = w
  effectOnce : UniqueOn (fun e => e.outcome = .reversed_purchase) DisputeLossEffect.purchaseId db.effects
  reversedByFirst : ∀ v ∈ db.reversals, v.cause = .final_lost_chargeback → v ∈ db₀.reversals ∨
    ∃ d, ⟨d, .reversed_purchase, some v.purchaseId⟩ ∈ db.effects ∧ db.firstFullOf d v.purchaseId
  obligationOnce : ∀ o ∈ db.obligations, ∀ x ∈ db.obligations, x.purchaseId = o.purchaseId → o = x
  obligationOfFirst : ∀ o ∈ db.obligations, o ∈ db₀.obligations ∨ ∃ c ∈ db.caps, c.disputeId = o.disputeId ∧ c.firstFull = true
  writeOffOnce : ∀ f ∈ db.writeOffs, ∀ g ∈ db.writeOffs, ∀ l ∈ db.losses, ∀ m ∈ db.losses,
    l.disputeId = f.disputeId → m.disputeId = g.disputeId → m.key = l.key → f = g

theorem Effects.writeOff_once (h : Effects db₀ db) (hl : Ledger db) {f g : WriteOff} (hf : f ∈ db.writeOffs)
    (hg : g ∈ db.writeOffs) {m : DisputeLoss} (hlm : l ∈ db.losses) (hmm : m ∈ db.losses) (hlf : l.disputeId = f.disputeId)
    (hmg : m.disputeId = g.disputeId) (hk : m.key = l.key) : f = g := by
  obtain ⟨l', hl', hd, -, hkey⟩ := h.settling f hf
  obtain ⟨m', hm', hd', -, hkey'⟩ := h.settling g hg
  obtain rfl := eq_of_key hl.lossKeys hlm hl' (hlf.trans hd.symm)
  obtain rfl := eq_of_key hl.lossKeys hmm hm' (hmg.trans hd'.symm)
  have hp := hkey'.symm.trans (hk.trans hkey)
  exact eq_of_key h.writeOffPayments hf hg (CaptureKey.settling.inj hp).symm

/-- **The chargeback loss cap.** In every run from the records that the ledger begins with. -/
theorem chargeback_loss_cap {s : Sys} (h : Historical s.db) (actions : List Action) : LossCap s.db (run s actions).db := by
  obtain ⟨hl, he⟩ := run_effects h.ledger h.effects actions
  refine ⟨fun c hc d hd hk hcf hdf => hl.firstFull_unique hc hd hk hcf hdf, fun c hc => ⟨?_, hl.within_le hc⟩,
    fun v hv w hw hk => eq_of_key he.reversalKeys hv hw hk.symm, he.reversedOnce, he.firstReversals,
    fun o ho x hx hk => eq_of_key he.obligationPurchases ho hx hk.symm, he.firstObligations,
    fun f hf g hg l hlm m hmm hlf hmg hk => he.writeOff_once hl hf hg hlm hmm hlf hmg hk⟩
  obtain ⟨m, -, hp⟩ := hl.placed c hc
  exact hp.captured

def soldDb : Db where
  requests := [⟨1, some 10, 100, "IRR", some 7⟩]
  lateSuccesses := []
  purchases := [⟨5, .direct_purchase, 1, none, none⟩]
  assistance_request := fun _ => none
  billing_platform := fun _ => none
  losses := []
  caps := []
  effects := []
  attempts := fun _ => none
  reversals := []
  causes := []
  refundCases := []
  relays := []
  recoveryPayments := []
  obligations := []
  reviews := []
  writeOffs := []
  overlapCases := []

def fullLoss (disputeId chargebackFactId : Uuid) : DisputeLoss :=
  ⟨disputeId, 10, 1, "IRR", chargebackFactId, 100, "IRR", .settling_capture none, false⟩

theorem soldDb_historical : Historical soldDb := by
  refine ⟨?_, ?_, ?_, ?_, ?_, rfl, ?_, ?_, ?_, ?_, ?_, ?_, ?_⟩ <;> simp [soldDb, UniqueOn]

def twoLosses : List Action :=
  [.recordLoss (fullLoss 21 31), .recordLoss (fullLoss 22 32), .recordCaptureLoss 21, .recordCaptureLoss 22, .apply 21, .apply 22]

theorem chargeback_loss_cap_twoLosses :
    (run ⟨soldDb, [], [], [], []⟩ twoLosses).db.reversals = [⟨5, .final_lost_chargeback⟩] ∧
      LossCap soldDb (run ⟨soldDb, [], [], [], []⟩ twoLosses).db :=
  ⟨by decide, chargeback_loss_cap (s := ⟨soldDb, [], [], [], []⟩) soldDb_historical twoLosses⟩

end NawaraCore.Losses
