import NawaraCore.Loss.RecordSound

/-!
# Refunds and chargebacks of one payment

A refund of another captured movement holds no effect back while it is live; once it is
completed the payment is refunded, and its losses are kept for reconciliation only.
-/

namespace NawaraCore.Losses

/-! ## The losses behind the effects -/

/-- The losses and purchases of the effects, the obligations and the write-offs. -/
structure Bound (db : Db) : Prop where
  assisted : ∀ e ∈ db.effects, e.outcome = .none .assisted_purchase_preserved → ∃ l ∈ db.losses, l.disputeId = e.disputeId ∧
    ∃ s ∈ db.purchases, e.purchaseId = some s.id ∧ s.purpose = .assisted_settlement ∧ db.purchaseOfCapture l s = true
  reversed : ∀ e ∈ db.effects, e.outcome = .reversed_purchase → db.sole e.disputeId ∧ ∃ l ∈ db.losses,
    l.disputeId = e.disputeId ∧ l.capture.settling = true ∧
      ∃ s ∈ db.purchases, s.paymentRequestId = l.paymentRequestId ∧ s.purpose = .direct_purchase
  obligations : ∀ o ∈ db.obligations, db.sole o.disputeId ∧ ∃ l ∈ db.losses, l.disputeId = o.disputeId ∧
    ∃ s ∈ db.purchases, s.id = o.purchaseId ∧ db.purchaseOfCapture l s = true
  writeOffs : ∀ w ∈ db.writeOffs, db.sole w.disputeId

variable {db db' db₀ : Db} {l : DisputeLoss} {f : VisitFacts} {c : CaptureLossCap} {evidence : Option RefundEvidenceVerdict} {e : DisputeLossEffect} {d : Uuid} {r : PaymentRequest} {s : Sys}

theorem Writes.effects_subset (h : Writes db db') : db.effects ⊆ db'.effects := by
  cases h with
  | nothing hs => exact hs.effects ▸ List.Subset.refl _
  | refunded p hn hv he ho hw => exact he ▸ List.Subset.refl _
  | effect l e hl hid hn hp ha hr he hv ho hw => exact he ▸ List.subset_append_left _ _
  | reversed d p hf hn hr he hv ho hw => exact he ▸ List.subset_append_left _ _
  | obligation o hn hc hp ho => exact ho ▸ List.Subset.refl _
  | writeOff f hn hl hr hw => exact hw ▸ List.Subset.refl _

structure NewRows (db db' : Db) (es : List DisputeLossEffect) (os : List RecoveryObligation) (ws : List WriteOff) : Prop where
  effects : db'.effects = db.effects ++ es
  obligations : db'.obligations = db.obligations ++ os
  writeOffs : db'.writeOffs = db.writeOffs ++ ws

theorem Bound.append (h : Bound db) (hk : Kept db db') (hm : ∀ d, db.sole d → db'.sole d)
    (es : List DisputeLossEffect) (os : List RecoveryObligation) (ws : List WriteOff) (hn : NewRows db db' es os ws)
    (hes : ∀ e ∈ es, (e.outcome = .none .assisted_purchase_preserved → ∃ l ∈ db.losses, l.disputeId = e.disputeId ∧
        ∃ s ∈ db.purchases, e.purchaseId = some s.id ∧ s.purpose = .assisted_settlement ∧ db.purchaseOfCapture l s = true) ∧
      (e.outcome = .reversed_purchase → db.sole e.disputeId ∧ ∃ l ∈ db.losses, l.disputeId = e.disputeId ∧
        l.capture.settling = true ∧ ∃ s ∈ db.purchases, s.paymentRequestId = l.paymentRequestId ∧ s.purpose = .direct_purchase))
    (hos : ∀ o ∈ os, db.sole o.disputeId ∧ ∃ l ∈ db.losses, l.disputeId = o.disputeId ∧
      ∃ s ∈ db.purchases, s.id = o.purchaseId ∧ db.purchaseOfCapture l s = true)
    (hws : ∀ w ∈ ws, db.sole w.disputeId) : Bound db' := by
  refine ⟨?_, ?_, ?_, ?_⟩
  · rw [hn.effects]
    intro e he ho
    have hold := (List.mem_append.mp he).elim (fun he => h.assisted e he ho) (fun he => (hes e he).1 ho)
    obtain ⟨l, hl, hld, s, hs, hes, hsp, hc⟩ := hold
    exact ⟨l, hk.losses hl, hld, s, hk.purchases hs, hes, hsp, purchaseOfCapture_mono hk hc⟩
  · rw [hn.effects]
    intro e he ho
    have hold := (List.mem_append.mp he).elim (fun he => h.reversed e he ho) (fun he => (hes e he).2 ho)
    obtain ⟨hsole, l, hl, hld, hls, s, hs, hsr, hsp⟩ := hold
    exact ⟨hm _ hsole, l, hk.losses hl, hld, hls, s, hk.purchases hs, hsr, hsp⟩
  · rw [hn.obligations]
    intro o ho
    have hold := (List.mem_append.mp ho).elim (fun ho => h.obligations o ho) (fun ho => hos o ho)
    obtain ⟨hsole, l, hl, hld, s, hs, hsi, hc⟩ := hold
    exact ⟨hm _ hsole, l, hk.losses hl, hld, s, hk.purchases hs, hsi, purchaseOfCapture_mono hk hc⟩
  · rw [hn.writeOffs]
    intro w hw
    exact hm _ ((List.mem_append.mp hw).elim (fun hw => h.writeOffs w hw) (fun hw => hws w hw))

theorem assisted_of_effect (ho : e.outcome = .none .assisted_purchase_preserved)
    (hp : db.effectPurchase l e = true) (hr : db.effectReversal e = true) :
    ∃ s ∈ db.purchases, e.purchaseId = some s.id ∧ s.purpose = .assisted_settlement ∧ db.purchaseOfCapture l s = true := by
  unfold Db.effectReversal at hr
  unfold Db.effectPurchase at hp
  cases hi : e.purchaseId with
  | none => simp [ho, hi] at hr
  | some i =>
    cases hs : db.purchase? i with
    | none => simp [ho, hi, hs] at hr
    | some s =>
      have hid : s.id = i := by simpa using List.find?_some hs
      simp only [ho, hi, Option.bind_some, hs, Option.any_some, decide_eq_true_eq] at hr hp
      exact ⟨s, List.mem_of_find?_eq_some hs, by rw [hid], hr.1, hp⟩

theorem Bound.writes (h : Bound db) (hw : Writes db db') (hk : Kept db db')
    (hm : ∀ d, db.sole d → db'.sole d) : Bound db' := by
  cases hw with
  | nothing hs =>
    exact h.append hk hm [] [] []
      ⟨by rw [hs.effects, List.append_nil], by rw [hs.obligations, List.append_nil], by rw [hs.writeOffs, List.append_nil]⟩
      (by simp) (by simp) (by simp)
  | refunded p hn hv he ho hw =>
    exact h.append hk hm [] [] []
      ⟨by rw [he, List.append_nil], by rw [ho, List.append_nil], by rw [hw, List.append_nil]⟩ (by simp) (by simp) (by simp)
  | effect l e hl hid hn hp ha hr he hv ho hw =>
    refine h.append hk hm _ [] [] ⟨he, by rw [ho, List.append_nil], by rw [hw, List.append_nil]⟩ ?_
      (by simp) (by simp)
    intro x hx
    rw [List.mem_singleton.mp hx]
    exact ⟨fun ho => ⟨l, hl, hid, assisted_of_effect ho hp (ha ho)⟩, fun hx => absurd hx hr⟩
  | reversed d p hf hn hr he hv ho hw =>
    refine h.append hk hm _ [] [] ⟨he, by rw [ho, List.append_nil], by rw [hw, List.append_nil]⟩ ?_
      (by simp) (by simp)
    intro x hx
    rw [List.mem_singleton.mp hx]
    refine ⟨nofun, fun _ => ?_⟩
    obtain ⟨l, hl, c, hc, s, hs, hld, hcd, hcf, -, hsp, hls, hcap⟩ := hf
    refine ⟨.inl ⟨c, hc, hcd, hcf⟩, l, hl, hld, hls, s, hs, ?_, hsp⟩
    unfold Db.purchaseOfCapture at hcap
    cases hlc : l.capture with
    | settling_capture f =>
      rw [hlc] at hcap
      exact (of_decide_eq_true hcap).1
    | late_capture f =>
      rw [hlc] at hls
      cases hls
  | obligation o hn hc hp ho =>
    refine h.append hk hm [] [o] []
      ⟨by rw [ho, List.append_nil], by rw [ho], by rw [ho, List.append_nil]⟩ (by simp) ?_ (by simp)
    intro x hx
    rw [List.mem_singleton.mp hx]
    exact ⟨.inl hc, hp⟩
  | writeOff f hn hl hr hw =>
    refine h.append hk hm [] [] [f]
      ⟨by rw [hw, List.append_nil], by rw [hw, List.append_nil], by rw [hw]⟩ (by simp) (by simp) ?_
    intro x hx
    rw [List.mem_singleton.mp hx]
    obtain ⟨e, he, hed, heo⟩ := hr
    exact hed ▸ (h.reversed e he heo).1

/-! ## What the workers hold -/

/-- What `visit` read is so, but for the refund that may have completed since. -/
structure Facts (db : Db) (f : VisitFacts) : Prop where
  loss : ∃ l ∈ db.losses, l.disputeId = f.disputeId ∧ (f.refunded = true → db.requestRefunded l.paymentRequestId = true) ∧
    ∃ s ∈ db.purchases, s.id = f.purchaseId ∧ s.purpose = .assisted_settlement ∧
      s.assistanceRequestId = some f.assistanceRequestId ∧ db.purchaseOfCapture l s = true
  assistance : ∃ a, db.assistance_request f.assistanceRequestId = some a ∧ a.organizationId = f.organizationId ∧
    a.platformId = f.platformId ∧ a.baseAmount = f.baseAmount ∧ a.currency = f.currency ∧
    db.billing_platform a.platformId = f.companyId

theorem Facts.mono (hk : Kept db db') (hg : Grown db db') (h : Facts db f) : Facts db' f := by
  obtain ⟨⟨l, hl, hld, hr, s, hs, hsi, hsp, hsa, hc⟩, ha⟩ := h
  refine ⟨⟨l, hk.losses hl, hld, fun hf => requestRefunded_mono hg (hr hf), s, hk.purchases hs, hsi, hsp, hsa,
    purchaseOfCapture_mono hk hc⟩, ?_⟩
  rw [hg.assistance, hg.platforms]
  exact ha

theorem visitFacts_isSome (hl : Ledger db) (hi : Records db) (he : (db.effects.map DisputeLossEffect.disputeId).Nodup)
    (hb : Bound db) (hm : e ∈ db.effects) (ho : e.outcome = .none .assisted_purchase_preserved) :
    ∃ f, visitFacts db e.disputeId = some f ∧ f.disputeId = e.disputeId ∧ Facts db f := by
  obtain ⟨l, hlm, hld, s, hs, hes, hsp, hc⟩ := hb.assisted e hm ho
  obtain ⟨i, a, hsi, ha⟩ := hi.assistedPurchase s hs hsp
  obtain ⟨r, hr, hri, -⟩ := hi.lossRequest l hlm
  have heff : (db.effects.find? fun x => x.disputeId = e.disputeId ∧ x.outcome = .none .assisted_purchase_preserved) = some e := by
    have hsome : (db.effects.find? fun x => x.disputeId = e.disputeId ∧ x.outcome = .none .assisted_purchase_preserved).isSome :=
      List.find?_isSome.mpr ⟨e, hm, by simp [ho]⟩
    obtain ⟨x, hx⟩ := Option.isSome_iff_exists.mp hsome
    have hxp : x.disputeId = e.disputeId ∧ x.outcome = .none .assisted_purchase_preserved := by simpa using List.find?_some hx
    rw [hx, eq_of_key he (List.mem_of_find?_eq_some hx) hm hxp.1]
  refine ⟨⟨e.disputeId, s.id, i, a.organizationId, a.platformId, db.billing_platform a.platformId, a.baseAmount, a.currency,
    db.requestRefunded r.id⟩, ?_, rfl, ⟨⟨l, hlm, hld, fun hf => by rw [← hri]; exact hf, s, hs, rfl, hsp, hsi, hc⟩, a, ha, rfl, rfl,
    rfl, rfl, rfl⟩⟩
  simp only [visitFacts, hl.loss_eq hlm hld, heff, hes, hi.purchase_eq hs rfl, hsi, ha, hl.request_eq hr hri, Option.bind_eq_bind,
    Option.bind_some]

theorem visitFacts_facts (hl : Ledger db) (hi : Records db) (he : (db.effects.map DisputeLossEffect.disputeId).Nodup)
    (hb : Bound db) (h : visitFacts db d = some f) : Facts db f := by
  have hv := h
  simp only [visitFacts, Option.bind_eq_bind, Option.bind_eq_some_iff] at h
  obtain ⟨-, -, e, hf, -⟩ := h
  have hed : e.disputeId = d ∧ e.outcome = .none .assisted_purchase_preserved := by simpa using List.find?_some hf
  obtain ⟨g, hg, -, hfacts⟩ := visitFacts_isSome hl hi he hb (List.mem_of_find?_eq_some hf) hed.2
  rw [hed.1] at hg
  rw [Option.some.inj (hv.symm.trans hg)]
  exact hfacts

/-- What the reconciliation pass read is so, but for the refund and the write-off that may have come since. -/
structure RowFacts (db : Db) (f : WriteOffFacts) : Prop where
  loss : ∃ l ∈ db.losses, l.disputeId = f.disputeId ∧ l.paymentId = f.paymentId ∧ l.chargebackFactId = f.chargebackFactId ∧
    l.chargebackAmount = f.amount ∧ l.chargebackCurrency = f.currency ∧ l.capture.settling = true ∧
    (f.refunded = true → db.paymentRefunded l.paymentId = true) ∧
    (f.refunded = false → ∃ e ∈ db.effects, e.disputeId = f.disputeId ∧ e.outcome = .reversed_purchase) ∧
    ∃ r ∈ db.requests, r.id = l.paymentRequestId ∧ r.amount = f.amount ∧ r.currency = f.currency ∧ r.sellerId = some f.sellerId ∧
      ∃ s ∈ db.purchases, s.paymentRequestId = r.id ∧ s.purpose = .direct_purchase

theorem RowFacts.mono (hk : Kept db db') (hg : Grown db db') (he : db.effects ⊆ db'.effects) {f : WriteOffFacts}
    (h : RowFacts db f) : RowFacts db' f := by
  obtain ⟨l, hl, hld, hlp, hlf, hla, hlc, hls, hr, hre, r, hrm, hri, hra, hrc, hrs, s, hs, hsr, hsp⟩ := h.loss
  obtain ⟨x, hx, hxi, hxa, hxc, hxs, -⟩ := hg.requests r hrm
  exact ⟨l, hk.losses hl, hld, hlp, hlf, hla, hlc, hls, fun hf => paymentRefunded_mono hg (hr hf),
    fun hf => (hre hf).imp fun e hme => ⟨he hme.1, hme.2⟩, x, hx, hxi.trans hri, hxa.trans hra, hxc.trans hrc, hxs.trans hrs,
    s, hk.purchases hs, hsr.trans hxi.symm, hsp⟩

theorem writeOffFacts_facts {f : WriteOffFacts} (h : writeOffFacts db d = some f) : RowFacts db f := by
  simp only [writeOffFacts, Option.bind_eq_bind, Option.bind_eq_some_iff] at h
  obtain ⟨l, hl, r, hr, sellerId, hs, h⟩ := h
  split at h
  · rename_i hc
    cases h
    obtain ⟨ha, hcur, hset, hp, -, -, hor⟩ := hc
    have hld : l.disputeId = d := by simpa using List.find?_some hl
    have hri : r.id = l.paymentRequestId := by simpa using List.find?_some hr
    have hp : ∃ s ∈ db.purchases, s.paymentRequestId = r.id ∧ s.purpose = .direct_purchase := by simpa using hp
    refine ⟨l, List.mem_of_find?_eq_some hl, hld, rfl, rfl, rfl, hcur, hset, id, fun hf => ?_, r,
      List.mem_of_find?_eq_some hr, hri, ha.symm, rfl, hs, hp⟩
    rcases hor with hor | ⟨hor, -⟩
    · exact absurd hor (by simpa using hf)
    · simpa using hor
  · cases h

/-! ## The decisions -/

theorem settling_captured (hl : Ledger db) (hi : Records db) {x : Nat × String}
    (hlm : l ∈ db.losses) (hs : l.capture.settling = true) (hcap : db.capturedKey l.key = some x) (hr : r ∈ db.requests)
    (hri : r.id = l.paymentRequestId) : x = (r.amount, r.currency) := by
  have hrec := (capturedKey_iff hl.paymentIds hl.facts).mp hcap
  unfold DisputeLoss.key at hrec
  cases hlc : l.capture with
  | settling_capture f =>
    simp only [hlc] at hrec
    obtain ⟨y, hy, hyp, hxe⟩ := hrec
    obtain ⟨q, hq, hqi, hqp⟩ := hi.lossRequest l hlm
    obtain rfl := hl.paymentIds y hy q hq (by simp [hyp]) (by simp [hqp]) (hyp.trans hqp.symm)
    obtain rfl := eq_of_key hl.requestKeys hy hr (hqi.trans hri.symm)
    exact hxe
  | late_capture f =>
    rw [hlc] at hs
    cases hs

theorem firstFull_request (hl : Ledger db) (hi : Records db) {s : Purchase}
    (hf : c.firstFull = true) (hp : Placed db l c) (hlm : l ∈ db.losses) (hs : s ∈ db.purchases)
    (hc : db.purchaseOfCapture l s = true) (hr : r ∈ db.requests) (hri : r.id = l.paymentRequestId) :
    l.chargebackAmount = r.amount ∧ l.chargebackCurrency = r.currency ∧ l.currency = r.currency := by
  obtain ⟨hw, hamt⟩ := hp.full hf
  have hcur := hp.currency (hp.within hw)
  have hkey := hp.captured
  rw [hp.key] at hkey
  have hcap : c.gross = r.amount ∧ c.currency = r.currency := by
    unfold Db.purchaseOfCapture at hc
    cases hlc : l.capture with
    | settling_capture f =>
      exact Prod.mk.inj (settling_captured hl hi hlm (by rw [hlc]; rfl) hkey hr hri)
    | late_capture f =>
      have hrec := (capturedKey_iff hl.paymentIds hl.facts).mp hkey
      unfold DisputeLoss.key at hrec
      simp only [hlc] at hrec
      simp only [hlc, List.any_eq_true, decide_eq_true_eq] at hc
      obtain ⟨x, hx, hxf, hxe⟩ := hrec
      obtain ⟨hsr, y, hy, hyf, -, hys⟩ := hc
      obtain rfl := hl.facts x hx y hy (by simp [hxf]) (by simp [hyf]) (hxf.trans hyf.symm)
      obtain ⟨z, hz, hzi, q, hq, hqi, ha, hcu⟩ := hi.latePurchase s hs _ hys
      obtain rfl := eq_of_key hi.lateSuccessKeys hz hy hzi
      obtain rfl := eq_of_key hl.requestKeys hq hr (by rw [hqi, hsr, hri])
      exact ⟨(Prod.mk.inj hxe).1.trans ha, (Prod.mk.inj hxe).2.trans hcu⟩
  exact ⟨by rw [← hcap.1, ← hamt, hp.amount], hcur.2.trans hcap.2, hcur.1.trans hcap.2⟩

theorem purchaseOfCapture_request {s : Purchase} (h : db.purchaseOfCapture l s = true) :
    s.paymentRequestId = l.paymentRequestId := by
  unfold Db.purchaseOfCapture at h
  cases hlc : l.capture with
  | settling_capture f =>
    rw [hlc] at h
    exact (of_decide_eq_true h).1
  | late_capture f =>
    rw [hlc] at h
    exact (of_decide_eq_true h).1

structure Undecided (db : Db) (disputeId : Uuid) (l : DisputeLoss) (c : CaptureLossCap) : Prop where
  loss : l ∈ db.losses
  dispute : l.disputeId = disputeId
  cap : c ∈ db.caps
  capDispute : c.disputeId = disputeId
  first : c.firstFull = true
  obligation : ∀ o ∈ db.obligations, o.disputeId ≠ disputeId
  review : ∀ r ∈ db.reviews, r.disputeId ≠ disputeId

theorem Undecided.placed (hl : Ledger db) (h : Undecided db d l c) :
    Placed db l c := by
  obtain ⟨m, hm, hp⟩ := hl.placed c h.cap
  obtain rfl := eq_of_key hl.lossKeys hm h.loss (by rw [← hp.dispute, h.capDispute, h.dispute])
  exact hp

theorem Undecided.unobligated (hl : Ledger db) (hi : Records db) (hb : Bound db)
    (h : Undecided db d l c) {s : Purchase} (hs : s ∈ db.purchases) (hc : db.purchaseOfCapture l s = true) :
    ∀ o ∈ db.obligations, o.purchaseId ≠ s.id := by
  intro o ho he
  obtain ⟨hsole, m, hm, hmd, x, hx, hxi, hxc⟩ := hb.obligations o ho
  obtain rfl := eq_of_key hi.purchaseKeys hx hs (hxi.trans he)
  have hkey := hi.purchase_key hl h.loss hm hc hxc
  have := hl.sole_unique h.cap h.first h.loss (h.placed hl) hm hkey (hmd ▸ hsole)
  exact h.obligation o ho (hmd.symm.trans (this.trans h.dispute))

theorem decideVisit_opens (hl : Ledger db) (hi : Records db) (hb : Bound db) (hf : Facts db f)
    (hu : Undecided db f.disputeId l c) (hr : db.paymentRefunded l.paymentId = false)
    (hlive : db.refundLive l = false) (he : ∀ v, evidence = some v → v = .clean) :
    ∃ db' o, decideVisit db f evidence = .ok (db', .opened) ∧ db'.obligations = db.obligations ++ [o] ∧
      o.disputeId = f.disputeId := by
  obtain ⟨⟨m, hm, hmd, href, s, hs, hsi, hsp, hsa, hc⟩, a, ha, hao, hap, hab, hac, hcomp⟩ := hf
  obtain rfl := eq_of_key hl.lossKeys hm hu.loss (hmd.trans hu.dispute.symm)
  have hreq : db.requestRefunded m.paymentRequestId = false := (hi.refunded_iff hl hm).trans hr
  have hnot : f.refunded = false := by
    by_contra hne
    rw [href (by simpa using hne)] at hreq
    cases hreq
  obtain ⟨r, hrm, hri, hrp⟩ := hi.lossRequest m hm
  obtain ⟨hpos, hmax, hcfg⟩ := hi.assistance _ a ha
  obtain ⟨company, hcompany⟩ := Option.isSome_iff_exists.mp hcfg
  have hnone := hu.unobligated hl hi hb hs hc
  rw [hsi] at hnone
  have hfull := firstFull_request hl hi hu.first (hu.placed hl) hm hs hc hrm hri
  have hover : db.overlap m = false := by
    by_contra hne
    rw [overlap_paymentRefunded (by simpa using hne)] at hr
    cases hr
  have hcaps : (db.caps.any fun c => c.disputeId = f.disputeId ∧ c.firstFull) = true :=
    List.any_eq_true.mpr ⟨c, hu.cap, by simp [hu.capDispute, hu.first]⟩
  have hcap : captureLossOf db f.disputeId = .ok c := by
    have := find_key hl.capKeys hu.cap
    rw [hu.capDispute] at this
    simp only [captureLossOf, Db.cap?, this]
  have hreason : reviewReason f.refunded (db.obligations.any fun x => x.purchaseId = f.purchaseId)
      (db.otherFirst f.disputeId f.purchaseId) c = none := by
    have hno : (db.obligations.any fun x => x.purchaseId = f.purchaseId) = false := by simpa using hnone
    unfold reviewReason
    rw [hnot, hno]
    simp [hu.first]
  refine ⟨{ db with obligations := db.obligations ++ [⟨f.disputeId, f.assistanceRequestId, f.purchaseId, f.organizationId, company,
    f.platformId, f.baseAmount, f.currency⟩] }, _, ?_, rfl, rfl⟩
  have hins : db.insertObligation ⟨f.disputeId, f.assistanceRequestId, f.purchaseId, f.organizationId, company, f.platformId,
      f.baseAmount, f.currency⟩ = .ok { db with obligations := db.obligations ++ [⟨f.disputeId, f.assistanceRequestId,
        f.purchaseId, f.organizationId, company, f.platformId, f.baseAmount, f.currency⟩] } := by
    have hd : (db.obligations.any fun x => x.disputeId = f.disputeId) = false := by simpa using hu.obligation
    have hp : (db.obligations.any fun x => x.purchaseId = f.purchaseId) = false := by simpa using hnone
    simp only [Db.insertObligation, hl.loss_eq hm hmd, hl.request_eq hrm hri, hi.purchase_eq hs hsi, ha]
    rw [if_neg (by simp [purchaseOfCapture_request hc, hsp, hsa, hao, hap, hap ▸ hcompany]), if_neg (by simp [hfull]),
      if_neg (by rw [hri, hreq]; simp), if_neg (by simp [hab, hac]), if_neg (by simp [hc]), if_neg (by rw [hcaps]; simp),
      if_neg (by simp [hlive, hover]), if_neg (by omega), if_neg (by rw [hd]; simp), if_neg (by rw [hp]; simp)]
  have hun : ¬ ((db.obligations.any fun o => o.disputeId = f.disputeId) = true ∨
      (db.reviews.any fun r => r.disputeId = f.disputeId) = true) := by
    simpa using ⟨hu.obligation, hu.review⟩
  have hev : (evidence.any fun v => v ≠ .clean) = false := by
    cases evidence with
    | none => rfl
    | some v => simp [he v rfl]
  unfold decideVisit
  rw [if_neg hun, hcap]
  simp only [hreason, ← hcomp, hcompany, hev, hins, Bool.false_eq_true, if_false]

theorem recognizeChargebackLoss_writesOff (hl : Ledger db) (hi : Records db) (he : Effects db₀ db) (hb : Bound db)
    {f : WriteOffFacts} (hf : RowFacts db f) (hlm : l ∈ db.losses)
    (hld : l.disputeId = f.disputeId) (hc : c ∈ db.caps) (hcd : c.disputeId = f.disputeId) (hcf : c.firstFull = true)
    (hr : db.paymentRefunded l.paymentId = false) (hlive : db.refundLive l = false)
    (hev : ∀ v, evidence = some v → v = .clean) :
    ∃ db', recognizeChargebackLoss db f evidence = .ok db' ∧ ∃ w ∈ db'.writeOffs, w.disputeId = f.disputeId := by
  obtain ⟨m, hm, hmd, hmp, hmf, hma, hmc, hms, href, hrev, r, hrm, hri, hra, hrc, hrs, s, hs, hsr, hsp⟩ := hf.loss
  obtain rfl := eq_of_key hl.lossKeys hm hlm (hmd.trans hld.symm)
  obtain ⟨n, hn, hp⟩ := hl.placed c hc
  obtain rfl := eq_of_key hl.lossKeys hn hm (by rw [← hp.dispute, hcd, hld])
  have hnot : f.refunded = false := by
    by_contra hne
    rw [href (by simpa using hne)] at hr
    cases hr
  obtain ⟨e, hem, hed, heo⟩ := hrev hnot
  have hover : db.overlap n = false := by
    by_contra hne
    rw [overlap_paymentRefunded (by simpa using hne)] at hr
    cases hr
  have hpur : (db.purchases.any fun s => s.paymentRequestId = r.id ∧ s.purpose = .direct_purchase) = true :=
    List.any_eq_true.mpr ⟨s, hs, by simp [hsr, hsp]⟩
  have heff : (db.effects.any fun e => e.disputeId = f.disputeId ∧ e.outcome = .reversed_purchase) = true :=
    List.any_eq_true.mpr ⟨e, hem, by simp [hed, heo]⟩
  have hve : (evidence.any fun v => v ≠ .clean) = false := by
    cases evidence with
    | none => rfl
    | some v => simp [hev v rfl]
  have hkey : n.key = .settling f.paymentId := by
    unfold DisputeLoss.key
    cases hcap : n.capture with
    | settling_capture _ => exact congrArg _ hmp
    | late_capture _ => simp [hcap, Capture.settling] at hms
  -- a write-off that stands in the way is this loss's own
  have hown : ∀ w ∈ db.writeOffs, w.evidenceKey = f.chargebackFactId ∨ w.paymentId = f.paymentId → w.disputeId = f.disputeId := by
    intro w hw hor
    obtain ⟨x, hx, hxd, hxf, hxk⟩ := he.settling w hw
    rcases hor with hor | hor
    · obtain rfl := eq_of_key hi.factKeys hx hm (hxf.trans (hor.trans hmf.symm))
      exact hxd.symm.trans hmd
    · have hxn : x.key = n.key := hxk.trans (by rw [hor, hkey])
      have := hl.sole_unique hc hcf hm hp hx hxn (hxd ▸ hb.writeOffs w hw)
      exact hxd.symm.trans (this.trans hmd)
  have hins : db.insertWriteOff ⟨f.chargebackFactId, f.sellerId, f.paymentId, f.disputeId, f.amount, f.currency⟩ =
      if db.writeOffs.any fun x => x.evidenceKey = f.chargebackFactId ∨ x.paymentId = f.paymentId then .ok db
      else .ok { db with writeOffs :=
        db.writeOffs ++ [⟨f.chargebackFactId, f.sellerId, f.paymentId, f.disputeId, f.amount, f.currency⟩] } := by
    simp only [Db.insertWriteOff, hl.loss_eq hm hmd, hl.request_eq hrm hri]
    rw [if_neg (by rw [hpur, hr]; simp [hmf, hmp, hma, hra, hmc, hrc, hrs]), if_neg (by simp [hms]), if_neg (by rw [heff]; simp),
      if_neg (by simp [hlive, hover])]
  unfold recognizeChargebackLoss
  rw [if_neg (by simp [hnot]), if_neg (by rw [hve]; simp), hins]
  by_cases hany : (db.writeOffs.any fun x => x.evidenceKey = f.chargebackFactId ∨ x.paymentId = f.paymentId) = true
  · rw [if_pos hany]
    obtain ⟨w, hw, hor⟩ := List.any_eq_true.mp hany
    exact ⟨db, rfl, w, hw, hown w hw (by simpa using hor)⟩
  · rw [if_neg hany]
    exact ⟨_, rfl, _, List.mem_append_right _ (List.mem_singleton_self _), rfl⟩

/-! ## Payment's evidence -/

/-- What Payment must say of an item whose attempt is known: nothing, when its relay is of another movement. -/
def Harmless (relays : List (Uuid × Bool)) (attemptId : Option Uuid) (evidence : Prop) : Prop :=
  ∃ a x, attemptId = some a ∧ relays.find? (fun r => r.1 = a) = some x ∧ (x.2 = true → ¬ evidence)

variable {relays : List (Uuid × Bool)}

theorem itemReason_none {attemptId : Option Uuid} {evidence : Bool} {reason : RefundEvidenceReason} :
    itemReason (fun i => i.bind fun a => (relays.find? fun r => r.1 = a).map Prod.snd) attemptId evidence reason = none ↔
      Harmless relays attemptId (evidence = true) := by
  unfold itemReason Harmless
  cases attemptId with
  | none => simp
  | some a =>
    cases hx : relays.find? fun r => r.1 = a with
    | none => simp [hx]
    | some x =>
      obtain ⟨i, b⟩ := x
      cases b <;> simp [hx]

/-- Payment's answer when it shows no refund of the movement: every attempt is known, and those of the movement did nothing. -/
def Shows (relays : List (Uuid × Bool)) (read : PaymentRefunds) : Prop :=
  ∃ facts, read.unallocatedFacts = some facts ∧
    (∀ a ∈ read.attempts, Harmless relays a.1 (a.2.dead = false)) ∧
    (∀ z ∈ read.authorizations, Harmless relays z.refundAttemptId (0 < z.allocations ∨ z.completed = true)) ∧
    ∀ i ∈ facts, Harmless relays i True

theorem judgeRefundEvidence_clean {read : Option PaymentRefunds} :
    judgeRefundEvidence read relays = .clean ↔ ∃ r, read = some r ∧ Shows relays r := by
  have hattempts : ∀ r : PaymentRefunds, firstReason (fun a => itemReason
      (fun i => i.bind fun a => (relays.find? fun r => r.1 = a).map Prod.snd) (some a.1) (¬ a.2.dead) .attempt_live) r.attempts = none ↔
      ∀ a ∈ r.attempts, Harmless relays a.1 (a.2.dead = false) := by
    intro r
    simp only [firstReason, List.findSome?_eq_none_iff, itemReason_none, decide_eq_true_eq, Bool.not_eq_true]
  have hauthorizations : ∀ r : PaymentRefunds, firstReason (fun z : RefundAuthorization => itemReason
      (fun i => i.bind fun a => (relays.find? fun r => r.1 = a).map Prod.snd) z.refundAttemptId (0 < z.allocations ∨ z.completed)
        .refund_evidence) r.authorizations = none ↔
      ∀ z ∈ r.authorizations, Harmless relays z.refundAttemptId (0 < z.allocations ∨ z.completed = true) := by
    intro r
    simp only [firstReason, List.findSome?_eq_none_iff, itemReason_none, decide_eq_true_eq]
  have hfacts : ∀ facts : List (Option Uuid), firstReason (fun f => itemReason
      (fun i => i.bind fun a => (relays.find? fun r => r.1 = a).map Prod.snd) f true .refund_evidence) facts = none ↔
      ∀ i ∈ facts, Harmless relays i True := by
    intro facts
    simp only [firstReason, List.findSome?_eq_none_iff, itemReason_none]
  cases read with
  | none => simp [judgeRefundEvidence]
  | some r =>
    unfold judgeRefundEvidence Shows
    cases hf : r.unallocatedFacts with
    | none => simp [hf]
    | some facts =>
      simp only [hf, Option.some.injEq, exists_eq_left', ← hattempts, ← hauthorizations, ← hfacts]
      split
      · simp_all
      · split
        · simp_all
        · split <;> simp_all

/-! ## Whole runs -/

def Db.lesser (db : Db) (l : DisputeLoss) : Prop :=
  (∃ c ∈ db.caps, c.disputeId = l.disputeId ∧ c.firstFull = false) ∨
    ∃ g cur, db.capturedKey l.key = some (g, cur) ∧ l.chargebackAmount ≠ g

structure Notes (db : Db) : Prop where
  reviews : ∀ r ∈ db.reviews, ∃ l ∈ db.losses, l.disputeId = r.disputeId ∧
    (r.reason = .refund_completed → db.requestRefunded l.paymentRequestId = true) ∧
    (db.requestRefunded l.paymentRequestId = true ∨ db.lesser l)
  overlapCases : ∀ d ∈ db.overlapCases, ∃ l ∈ db.losses, l.disputeId = d ∧ db.paymentRefunded l.paymentId = true

/-- The records when the ledger begins, each bound as its guards asked, and the workers idle. -/
structure Beginning (s : Sys) : Prop where
  historical : Historical s.db
  records : Records s.db
  bound : Bound s.db
  notes : Notes s.db
  visits : s.visits = []
  judged : s.judged = []
  rows : s.rows = []
  judgedRows : s.judgedRows = []

theorem lesser_mono (hl : Ledger db) (hl' : Ledger db') (hk : Kept db db') (hg : Grown db db')
    (h : db.lesser l) : db'.lesser l := by
  rcases h with ⟨c, hc, hcd⟩ | ⟨g, cur, hcap, hne⟩
  · exact .inl ⟨c, hk.caps hc, hcd⟩
  · exact .inr ⟨g, cur, capturedKey_mono hl hl' hk hg hcap, hne⟩

theorem Ledger.not_lesser (h : Ledger db) (hc : c ∈ db.caps)
    (hf : c.firstFull = true) (hp : Placed db l c) : ¬ db.lesser l := by
  rintro (⟨d, hd, hdd, hdf⟩ | ⟨g, cur, hcap, hne⟩)
  · obtain rfl := eq_of_key h.capKeys hd hc (hdd.trans hp.dispute.symm)
    rw [hf] at hdf
    cases hdf
  · rw [← hp.key, hp.captured] at hcap
    exact hne (by rw [← hp.amount, (hp.full hf).2, (Prod.mk.inj (Option.some.inj hcap)).1])

theorem Notes.keep (h : Notes db) (hl : Ledger db) (hl' : Ledger db') (hk : Kept db db') (hg : Grown db db')
    (rs : List RecoveryReview) (ds : List Uuid) (hr : db'.reviews = db.reviews ++ rs) (hd : db'.overlapCases = db.overlapCases ++ ds)
    (hrs : ∀ r ∈ rs, ∃ l ∈ db.losses, l.disputeId = r.disputeId ∧
      (r.reason = .refund_completed → db.requestRefunded l.paymentRequestId = true) ∧
      (db.requestRefunded l.paymentRequestId = true ∨ db.lesser l))
    (hds : ∀ d ∈ ds, ∃ l ∈ db.losses, l.disputeId = d ∧ db.paymentRefunded l.paymentId = true) : Notes db' := by
  constructor
  · rw [hr]
    intro r hm
    obtain ⟨l, hlm, hld, h₁, h₂⟩ := (List.mem_append.mp hm).elim (fun hm => h.reviews r hm) (fun hm => hrs r hm)
    exact ⟨l, hk.losses hlm, hld, fun hx => requestRefunded_mono hg (h₁ hx),
      h₂.imp (requestRefunded_mono hg) (lesser_mono hl hl' hk hg)⟩
  · rw [hd]
    intro d hm
    obtain ⟨l, hlm, hld, hp⟩ := (List.mem_append.mp hm).elim (fun hm => h.overlapCases d hm) (fun hm => hds d hm)
    exact ⟨l, hk.losses hlm, hld, paymentRefunded_mono hg hp⟩

theorem Notes.same {db db' : Db} (h : Notes db) (hl : Ledger db) (hl' : Ledger db') (hk : Kept db db') (hg : Grown db db')
    (hs : SameNotes db db') : Notes db' :=
  h.keep hl hl' hk hg [] [] (by rw [hs.reviews, List.append_nil]) (by rw [hs.overlapCases, List.append_nil])
    (by simp) (by simp)

variable {cap : CaptureLossCap} {reason : ReviewReason}

theorem reviewReason_some {refunded obligated otherFirst : Bool}
    (h : reviewReason refunded obligated otherFirst cap = some reason) :
    (reason = .refund_completed → refunded = true) ∧ (cap.firstFull = true → refunded = true ∨ obligated = true) := by
  unfold reviewReason at h
  split at h
  · rename_i hr
    exact ⟨fun _ => hr, fun _ => .inl hr⟩
  · split at h
    · rename_i ho
      exact ⟨(by rintro rfl; cases h), fun _ => .inr ho⟩
    · obtain ⟨hf, h⟩ := passed h nofun
      refine ⟨?_, fun hc => absurd hc hf⟩
      rintro rfl
      split at h
      · cases h
      · split at h <;> cases h

theorem decideVisit_review (hl : Ledger db) (hi : Records db) (hb : Bound db) (hf : Facts db f)
    (hcap : db.cap? f.disputeId = some cap)
    (ho : ∀ o ∈ db.obligations, o.disputeId ≠ f.disputeId) (hr : ∀ r ∈ db.reviews, r.disputeId ≠ f.disputeId)
    (hreason : reviewReason f.refunded (db.obligations.any fun x => x.purchaseId = f.purchaseId)
      (db.otherFirst f.disputeId f.purchaseId) cap = some reason) :
    ∃ l ∈ db.losses, l.disputeId = f.disputeId ∧
      (reason = .refund_completed → db.requestRefunded l.paymentRequestId = true) ∧
      (db.requestRefunded l.paymentRequestId = true ∨ db.lesser l) := by
  obtain ⟨⟨l, hm, hld, href, s, hs, hsi, -, -, hc⟩, -⟩ := hf
  have hcm := List.mem_of_find?_eq_some hcap
  have hcd : cap.disputeId = f.disputeId := by simpa using List.find?_some hcap
  obtain ⟨h₁, h₂⟩ := reviewReason_some hreason
  refine ⟨l, hm, hld, fun hx => href (h₁ hx), ?_⟩
  cases hx : cap.firstFull with
  | false => exact .inr (.inl ⟨cap, hcm, hcd.trans hld.symm, hx⟩)
  | true =>
    rcases h₂ hx with hx' | hx'
    · exact .inl (href hx')
    · obtain ⟨o, hom, hop⟩ := List.any_eq_true.mp hx'
      have hu : Undecided db f.disputeId l cap := ⟨hm, hld, hcm, hcd, hx, ho, hr⟩
      exact absurd ((of_decide_eq_true hop).trans hsi.symm) (hu.unobligated hl hi hb hs hc o hom)

structure Consistent (db₀ : Db) (s : Sys) : Prop where
  ledger : Ledger s.db
  records : Records s.db
  effects : Effects db₀ s.db
  bound : Bound s.db
  notes : Notes s.db
  visits : ∀ f ∈ s.visits, Facts s.db f
  judged : ∀ j ∈ s.judged, Facts s.db j.1
  rows : ∀ f ∈ s.rows, RowFacts s.db f
  judgedRows : ∀ j ∈ s.judgedRows, RowFacts s.db j.1

theorem Consistent.commit (h : Consistent db₀ s) (hl : Ledger db) (hw : Writes s.db db) (hk : Kept s.db db)
    (hi : Records db) (hg : Grown s.db db) (hn : Notes db) : Consistent db₀ { s with db } :=
  ⟨hl, hi, h.effects.writes hw hk, h.bound.writes hw hk fun _ => sole_mono h.ledger hl hk hg, hn,
    fun f hf => (h.visits f hf).mono hk hg, fun j hj => (h.judged j hj).mono hk hg,
    fun f hf => (h.rows f hf).mono hk hg hw.effects_subset, fun j hj => (h.judgedRows j hj).mono hk hg hw.effects_subset⟩

theorem Consistent.step {db₀ : Db} {s : Sys} (h : Consistent db₀ s) (a : Action) : Consistent db₀ (Losses.step s a) := by
  obtain ⟨hw, hk, hl⟩ := step_writes s a
  cases a with
  | record r =>
    rcases commit_cases (s := s) (s.db.record r) with hc | ⟨db, hx, hc⟩
    · simp only [Losses.step, hc]
      exact h
    · simp only [Losses.step, hc] at hw hk hl ⊢
      obtain ⟨hi, hg, hn⟩ := record_records h.ledger h.records hx
      exact h.commit (hl h.ledger) hw hk hi hg (h.notes.same h.ledger (hl h.ledger) hk hg hn)
  | recordLoss l =>
    rcases commit_cases (s := s) (s.db.insertLoss l) with hc | ⟨db, hx, hc⟩
    · simp only [Losses.step, hc]
      exact h
    · simp only [Losses.step, hc] at hw hk hl ⊢
      obtain ⟨hi, hg, hn⟩ := insertLoss_records h.records hx
      exact h.commit (hl h.ledger) hw hk hi hg (h.notes.same h.ledger (hl h.ledger) hk hg hn)
  | recordCaptureLoss d =>
    rcases commit_cases (s := s) (recordCaptureLoss s.db d) with hc | ⟨db, hx, hc⟩
    · simp only [Losses.step, hc]
      exact h
    · simp only [Losses.step, hc] at hw hk hl ⊢
      obtain ⟨hi, hg, hn⟩ := recordCaptureLoss_records h.records hx
      exact h.commit (hl h.ledger) hw hk hi hg (h.notes.same h.ledger (hl h.ledger) hk hg hn)
  | apply d =>
    obtain ⟨-, hr, hn⟩ := apply_writes s.db d
    exact h.commit (hl h.ledger) hw hk (h.records.same hr) hr.grown (h.notes.same h.ledger (hl h.ledger) hk hr.grown hn)
  | visit d =>
    simp only [Losses.step]
    cases hv : visitFacts s.db d with
    | none => exact h
    | some f =>
      refine ⟨h.ledger, h.records, h.effects, h.bound, h.notes, fun g hg => ?_, h.judged, h.rows, h.judgedRows⟩
      rcases List.mem_cons.mp hg with rfl | hg
      · exact visitFacts_facts h.ledger h.records h.effects.effectKeys h.bound hv
      · exact h.visits g hg
  | readEvidence f payment =>
    simp only [Losses.step]
    split
    · rename_i hf
      refine ⟨h.ledger, h.records, h.effects, h.bound, h.notes, h.visits, fun j hj => ?_, h.rows, h.judgedRows⟩
      rcases List.mem_cons.mp hj with rfl | hj
      · exact h.visits f hf
      · exact h.judged j hj
    · exact h
  | decide f evidence =>
    simp only [Losses.step] at hw hk hl ⊢
    by_cases hj : (f, evidence) ∈ s.judged
    · rw [if_pos hj] at hw hk hl ⊢
      rcases commit_cases (s := s) ((decideVisit s.db f evidence).map Prod.fst) with hc | ⟨db, hx, hc⟩
      · rw [hc]
        exact h
      · rw [hc] at hw hk hl ⊢
        obtain ⟨⟨db', o⟩, hd, hx⟩ := map_eq_ok.mp hx
        cases hx
        obtain ⟨-, hr⟩ := decideVisit_writes hd
        refine h.commit (hl h.ledger) hw hk (h.records.same hr) hr.grown ?_
        rcases decideVisit_cases hd with he | ⟨cap, reason, hcap, ho, hrev, hreason, hins⟩ | ⟨company, hins⟩
        · rw [he]
          exact h.notes
        · obtain ⟨-, he⟩ := insertReview_ok hins
          refine h.notes.keep h.ledger (hl h.ledger) hk hr.grown _ [] (by rw [he]) (by rw [he, List.append_nil]) ?_ (by simp)
          intro x hx
          rw [List.mem_singleton.mp hx]
          exact decideVisit_review h.ledger h.records h.bound (h.judged _ hj) hcap ho hrev hreason
        · obtain ⟨-, -, -, he⟩ := insertObligation_ok hins
          exact h.notes.same h.ledger (hl h.ledger) hk hr.grown ⟨by rw [he], by rw [he]⟩
    · rw [if_neg hj]
      exact h
  | selectRow d =>
    simp only [Losses.step]
    cases hv : writeOffFacts s.db d with
    | none => exact h
    | some f =>
      refine ⟨h.ledger, h.records, h.effects, h.bound, h.notes, h.visits, h.judged, fun g hg => ?_, h.judgedRows⟩
      rcases List.mem_cons.mp hg with rfl | hg
      · exact writeOffFacts_facts hv
      · exact h.rows g hg
  | readRowEvidence f payment =>
    simp only [Losses.step]
    split
    · rename_i hf
      refine ⟨h.ledger, h.records, h.effects, h.bound, h.notes, h.visits, h.judged, h.rows, fun j hj => ?_⟩
      rcases List.mem_cons.mp hj with rfl | hj
      · exact h.rows f hf
      · exact h.judgedRows j hj
    · exact h
  | writeOff f evidence =>
    simp only [Losses.step] at hw hk hl ⊢
    by_cases hj : (f, evidence) ∈ s.judgedRows
    · rw [if_pos hj] at hw hk hl ⊢
      rcases commit_cases (s := s) (recognizeChargebackLoss s.db f evidence) with hc | ⟨db, hx, hc⟩
      · rw [hc]
        exact h
      · rw [hc] at hw hk hl ⊢
        obtain ⟨-, hr⟩ := recognizeChargebackLoss_writes hx
        refine h.commit (hl h.ledger) hw hk (h.records.same hr) hr.grown ?_
        rcases recognizeChargebackLoss_cases hx with he | ⟨href, he⟩ | hins
        · rw [he]
          exact h.notes
        · refine h.notes.keep h.ledger (hl h.ledger) hk hr.grown [] _ (by rw [he, List.append_nil]) (by rw [he]) (by simp) ?_
          intro d hd
          rw [List.mem_singleton.mp hd]
          obtain ⟨l, hm, hld, -, -, -, -, -, hpr, -⟩ := (h.judgedRows _ hj).loss
          exact ⟨l, hm, hld, hpr href⟩
        · obtain ⟨-, -, he | ⟨-, he⟩⟩ := insertWriteOff_ok hins
          · rw [he]
            exact h.notes
          · exact h.notes.same h.ledger (hl h.ledger) hk hr.grown ⟨by rw [he], by rw [he]⟩
    · rw [if_neg hj]
      exact h

theorem Beginning.consistent (h : Beginning s) : Consistent s.db s := by
  refine ⟨h.historical.ledger, h.records, h.historical.effects, h.bound, h.notes, ?_, ?_, ?_, ?_⟩
  · simp [h.visits]
  · simp [h.judged]
  · simp [h.rows]
  · simp [h.judgedRows]

theorem run_consistent (h : Consistent db₀ s) (actions : List Action) : Consistent db₀ (run s actions) := by
  unfold run
  induction actions generalizing s with
  | nil => exact h
  | cons a actions ih => exact ih (h.step a)

/-- A loss is its capture's first full one, and no refund of the payment has completed. -/
structure Effective (db : Db) (l : DisputeLoss) : Prop where
  loss : l ∈ db.losses
  first : ∃ c ∈ db.caps, c.disputeId = l.disputeId ∧ c.firstFull = true
  unrefunded : db.paymentRefunded l.paymentId = false

/-- What a refund of another movement does to the effects of the losses: nothing until it is completed. -/
structure OverlapRule (s : Sys) : Prop where
  visited : ∀ e ∈ s.db.effects, e.outcome = .none .assisted_purchase_preserved → ∃ f, visitFacts s.db e.disputeId = some f
  opens : ∀ f evidence l, (f, evidence) ∈ s.judged → l.disputeId = f.disputeId → Effective s.db l →
    s.db.refundLive l = false → (∀ v, evidence = some v → v = .clean) →
    (∃ o ∈ s.db.obligations, o.disputeId = f.disputeId) ∨
      ∃ db' o, decideVisit s.db f evidence = .ok (db', .opened) ∧ db'.obligations = s.db.obligations ++ [o] ∧
        o.disputeId = f.disputeId
  selected : ∀ e ∈ s.db.effects, e.outcome = .reversed_purchase → ∀ l, l.disputeId = e.disputeId → Effective s.db l →
    (∃ r ∈ s.db.requests, r.id = l.paymentRequestId ∧ r.sellerId ≠ none) →
    (∃ w ∈ s.db.writeOffs, w.disputeId = e.disputeId) ∨ ∃ f, writeOffFacts s.db e.disputeId = some f
  writesOff : ∀ f evidence l, (f, evidence) ∈ s.judgedRows → l.disputeId = f.disputeId → Effective s.db l →
    s.db.refundLive l = false → (∀ v, evidence = some v → v = .clean) →
    ∃ db', recognizeChargebackLoss s.db f evidence = .ok db' ∧ ∃ w ∈ db'.writeOffs, w.disputeId = f.disputeId
  evidence : ∀ l ∈ s.db.losses, s.db.refundLive l = false → ∀ payment, check s.db l.disputeId payment = .clean ↔
    ∃ read, payment = .answer (some read) ∧ Shows (s.db.relaysOf l) read
  reviews : ∀ r ∈ s.db.reviews, ∃ l ∈ s.db.losses, l.disputeId = r.disputeId ∧
    (r.reason = .refund_completed ∨ (∃ c ∈ s.db.caps, c.disputeId = r.disputeId ∧ c.firstFull = true) →
      s.db.paymentRefunded l.paymentId = true)
  overlapCases : ∀ d ∈ s.db.overlapCases, ∃ l ∈ s.db.losses, l.disputeId = d ∧ s.db.paymentRefunded l.paymentId = true

theorem Consistent.review_refunded (h : Consistent db₀ s) {r : RecoveryReview} (hr : r ∈ s.db.reviews) :
    ∃ l ∈ s.db.losses, l.disputeId = r.disputeId ∧
      (r.reason = .refund_completed ∨ (∃ c ∈ s.db.caps, c.disputeId = r.disputeId ∧ c.firstFull = true) →
        s.db.paymentRefunded l.paymentId = true) := by
  obtain ⟨l, hl, hld, h₁, h₂⟩ := h.notes.reviews r hr
  have hiff := h.records.refunded_iff h.ledger hl
  refine ⟨l, hl, hld, ?_⟩
  rintro (hx | ⟨c, hc, hcd, hcf⟩)
  · rw [← hiff]
    exact h₁ hx
  · obtain ⟨m, hm, hp⟩ := h.ledger.placed c hc
    obtain rfl := eq_of_key h.ledger.lossKeys hm hl (by rw [← hp.dispute, hcd, hld])
    rw [← hiff]
    exact h₂.resolve_right (h.ledger.not_lesser hc hcf hp)

theorem Consistent.selected (h : Consistent db₀ s) (he : e ∈ s.db.effects)
    (ho : e.outcome = .reversed_purchase) (hld : l.disputeId = e.disputeId) (heff : Effective s.db l)
    (hr : r ∈ s.db.requests) (hri : r.id = l.paymentRequestId) (hs : r.sellerId ≠ none) :
    (∃ w ∈ s.db.writeOffs, w.disputeId = e.disputeId) ∨ ∃ f, writeOffFacts s.db e.disputeId = some f := by
  obtain ⟨hm, ⟨c, hc, hcd, hcf⟩, hun⟩ := heff
  obtain ⟨n, hn, hp⟩ := h.ledger.placed c hc
  obtain rfl := eq_of_key h.ledger.lossKeys hn hm (by rw [← hp.dispute, hcd])
  obtain ⟨-, m, hmm, hmd, hms, p, hpm, hpr, hpp⟩ := h.bound.reversed e he ho
  obtain rfl := eq_of_key h.ledger.lossKeys hmm hm (hmd.trans hld.symm)
  by_cases hw : ∃ w ∈ s.db.writeOffs, w.evidenceKey = m.chargebackFactId ∨ w.paymentId = m.paymentId
  · -- a write-off that stands in the way is this loss's own
    obtain ⟨w, hwm, hor⟩ := hw
    refine .inl ⟨w, hwm, ?_⟩
    obtain ⟨x, hx, hxd, hxf, hxk⟩ := h.effects.settling w hwm
    rcases hor with hor | hor
    · obtain rfl := eq_of_key h.records.factKeys hx hm (hxf.trans hor)
      exact hxd.symm.trans hld
    · have hkey : m.key = .settling m.paymentId := by
        unfold DisputeLoss.key
        cases hcap : m.capture with
        | settling_capture _ => rfl
        | late_capture _ => simp [hcap, Capture.settling] at hms
      have := h.ledger.sole_unique hc hcf hm hp hx (hxk.trans (by rw [hor, hkey])) (hxd ▸ h.bound.writeOffs w hwm)
      exact hxd.symm.trans (this.trans hld)
  · refine .inr ?_
    obtain ⟨seller, hseller⟩ := Option.ne_none_iff_exists'.mp hs
    have hkey := hp.captured
    rw [hp.key] at hkey
    obtain ⟨hg, hcur⟩ := Prod.mk.inj (settling_captured h.ledger h.records hm hms hkey hr hri)
    obtain ⟨hwc, hamt⟩ := hp.full hcf
    have hcc := (hp.currency (hp.within hwc)).2
    have hover : e.disputeId ∉ s.db.overlapCases := by
      intro hmem
      obtain ⟨x, hx, hxd, hxr⟩ := h.notes.overlapCases _ hmem
      obtain rfl := eq_of_key h.ledger.lossKeys hx hm (hxd.trans hld.symm)
      rw [hun] at hxr
      cases hxr
    have hsold : (s.db.purchases.any fun s => s.paymentRequestId = r.id ∧ s.purpose = .direct_purchase) = true :=
      List.any_eq_true.mpr ⟨p, hpm, by simp [hpr, hri, hpp]⟩
    have hrev : (s.db.effects.any fun x => x.disputeId = e.disputeId ∧ x.outcome = .reversed_purchase) = true :=
      List.any_eq_true.mpr ⟨e, he, by simp [ho]⟩
    have hnew : (s.db.writeOffs.any fun f => f.evidenceKey = m.chargebackFactId) = false ∧
        (s.db.writeOffs.any fun f => f.paymentId = m.paymentId) = false := by
      refine ⟨?_, ?_⟩ <;> rw [List.any_eq_false]
      · exact fun w hwm hk => hw ⟨w, hwm, .inl (of_decide_eq_true hk)⟩
      · exact fun w hwm hk => hw ⟨w, hwm, .inr (of_decide_eq_true hk)⟩
    refine ⟨⟨e.disputeId, m.paymentId, m.chargebackFactId, m.chargebackAmount, r.currency, seller,
      s.db.paymentRefunded m.paymentId⟩, ?_⟩
    simp only [writeOffFacts, h.ledger.loss_eq hm hld, h.ledger.request_eq hr hri, hseller, Option.bind_eq_bind, Option.bind_some]
    rw [if_pos ⟨by rw [← hp.amount, hamt, hg], by rw [hcc, hcur], hms, hsold, by rw [hnew.1]; simp, hover,
      .inr ⟨hrev, by rw [hnew.2]; simp⟩⟩]

theorem Consistent.opens (h : Consistent db₀ s)
    (hj : (f, evidence) ∈ s.judged) (hld : l.disputeId = f.disputeId) (heff : Effective s.db l)
    (hlive : s.db.refundLive l = false) (hev : ∀ v, evidence = some v → v = .clean) :
    (∃ o ∈ s.db.obligations, o.disputeId = f.disputeId) ∨
      ∃ db' o, decideVisit s.db f evidence = .ok (db', .opened) ∧ db'.obligations = s.db.obligations ++ [o] ∧
        o.disputeId = f.disputeId := by
  obtain ⟨hm, ⟨c, hc, hcd, hcf⟩, hun⟩ := heff
  by_cases ho : ∃ o ∈ s.db.obligations, o.disputeId = f.disputeId
  · exact .inl ho
  · have hno : ∀ o ∈ s.db.obligations, o.disputeId ≠ f.disputeId := fun o hom he => ho ⟨o, hom, he⟩
    have hnr : ∀ r ∈ s.db.reviews, r.disputeId ≠ f.disputeId := by
      intro r hr he
      obtain ⟨m, hmm, hmd, hi⟩ := h.review_refunded hr
      obtain rfl := eq_of_key h.ledger.lossKeys hmm hm (by rw [hmd, he, hld])
      rw [hi (.inr ⟨c, hc, by rw [hcd, hld, he], hcf⟩)] at hun
      cases hun
    exact .inr (decideVisit_opens h.ledger h.records h.bound (h.judged _ hj) ⟨hm, hld, hc, hcd.trans hld, hcf, hno, hnr⟩ hun hlive hev)

theorem check_clean (hl : Ledger db) (hm : l ∈ db.losses) (hlive : db.refundLive l = false)
    {payment : Answer} : check db l.disputeId payment = .clean ↔
      ∃ read, payment = .answer (some read) ∧ Shows (db.relaysOf l) read := by
  unfold check
  rw [hl.loss_eq hm rfl]
  simp only [hlive, Bool.false_eq_true, if_false]
  cases payment with
  | unavailable => simp
  | answer read => simp [judgeRefundEvidence_clean]

def assistedDb : Db :=
  { soldDb with
    purchases := [⟨5, .assisted_settlement, 1, none, some 3⟩]
    assistance_request := fun i => if i = 3 then some ⟨8, 4, 90, "IRR"⟩ else none
    billing_platform := fun _ => some 7 }

theorem assistedDb_beginning : Beginning ⟨assistedDb, [], [], [], []⟩ := by
  refine ⟨?_, ?_, ?_, ?_, rfl, rfl, rfl, rfl⟩
  · refine ⟨?_, ?_, ?_, ?_, ?_, rfl, ?_, ?_, ?_, ?_, ?_, ?_, ?_⟩ <;> simp [assistedDb, soldDb, UniqueOn]
  · refine ⟨?_, ?_, ?_, ?_, ?_, ?_, ?_, ?_, ?_⟩ <;> simp [assistedDb, soldDb, MAX_SAFE_INTEGER]
  · refine ⟨?_, ?_, ?_, ?_⟩ <;> simp [assistedDb, soldDb]
  · refine ⟨?_, ?_⟩ <;> simp [assistedDb, soldDb]

def duplicateRefund : List Action :=
  [.record (.refundCase ⟨61, 10, 1, some (.duplicate_capture, 99), .open⟩), .record (.relay ⟨62, 61, 10, none⟩)]

def duplicateCompleted : List Action :=
  [.record (.relayStatus ⟨62, 61, 10, none⟩ .succeeded),
    .record (.refundStatus ⟨61, 10, 1, some (.duplicate_capture, 99), .open⟩ .completed)]

def lossApplied : List Action := [.recordLoss (fullLoss 21 31), .recordCaptureLoss 21, .apply 21]

def visitOf (refunded : Bool) : VisitFacts := ⟨21, 5, 3, 8, 4, some 7, 90, "IRR", refunded⟩

def duplicateLive : Answer := .answer (some ⟨[(62, .submitted)], [], some []⟩)

end NawaraCore.Losses
