import Mathlib.Algebra.Order.BigOperators.Group.List
import Mathlib.Algebra.Order.Group.Nat
import NawaraCore.Loss.EffectSound

/-!
# The recorded movements of a loss

Every loss, purchase and refund case is bound to its payment request, so a purchase is of one
capture; the first full loss of a capture is the only one with effects.
-/

namespace NawaraCore.Losses

/-! ## The recorded movements -/

structure Records (db : Db) : Prop where
  lossRequest : ∀ l ∈ db.losses, ∃ r ∈ db.requests, r.id = l.paymentRequestId ∧ r.paymentId = some l.paymentId
  factKeys : (db.losses.map DisputeLoss.chargebackFactId).Nodup
  lateSuccessKeys : (db.lateSuccesses.map PaymentLateSuccess.lateSuccessId).Nodup
  purchaseKeys : (db.purchases.map Purchase.id).Nodup
  assistedPurchase : ∀ p ∈ db.purchases, p.purpose = .assisted_settlement → ∃ i a, p.assistanceRequestId = some i ∧
    db.assistance_request i = some a
  latePurchase : ∀ p ∈ db.purchases, ∀ i, p.lateSuccessId = some i → ∃ s ∈ db.lateSuccesses, s.lateSuccessId = i ∧
    ∃ r ∈ db.requests, r.id = p.paymentRequestId ∧ s.amount = r.amount ∧ s.currency = r.currency
  caseKeys : (db.refundCases.map RefundCase.id).Nodup
  caseRequest : ∀ c ∈ db.refundCases, ∃ r ∈ db.requests, r.id = c.paymentRequestId ∧ r.paymentId = some c.paymentId
  assistance : ∀ i a, db.assistance_request i = some a →
    0 < a.baseAmount ∧ a.baseAmount ≤ MAX_SAFE_INTEGER ∧ (db.billing_platform a.platformId).isSome

structure Grown (db db' : Db) : Prop where
  requests : ∀ r ∈ db.requests, ∃ x ∈ db'.requests, x.id = r.id ∧ x.amount = r.amount ∧ x.currency = r.currency ∧
    x.sellerId = r.sellerId ∧ (r.paymentId ≠ none → x.paymentId = r.paymentId)
  refunds : ∀ c ∈ db.refundCases, c.status = .completed → c ∈ db'.refundCases
  assistance : db'.assistance_request = db.assistance_request
  platforms : db'.billing_platform = db.billing_platform

theorem requests_grow {rs rs' : List PaymentRequest} (h : rs ⊆ rs') : ∀ r ∈ rs, ∃ x ∈ rs', x.id = r.id ∧ x.amount = r.amount ∧
    x.currency = r.currency ∧ x.sellerId = r.sellerId ∧ (r.paymentId ≠ none → x.paymentId = r.paymentId) :=
  fun r hr => ⟨r, h hr, rfl, rfl, rfl, rfl, fun _ => rfl⟩

theorem Grown.refl (db : Db) : Grown db db :=
  ⟨requests_grow (List.Subset.refl _), fun _ hc _ => hc, rfl, rfl⟩

variable {db db' : Db} {l m : DisputeLoss} {r : PaymentRequest} {i : Uuid}

theorem Grown.paid (h : Grown db db') (hr : r ∈ db.requests) {p : Uuid} (hi : r.id = i)
    (hp : r.paymentId = some p) : ∃ x ∈ db'.requests, x.id = i ∧ x.paymentId = some p := by
  obtain ⟨x, hx, hid, -, -, -, hxp⟩ := h.requests r hr
  exact ⟨x, hx, hid.trans hi, (hxp (by simp [hp])).trans hp⟩

theorem requestRefunded_mono (h : Grown db db') (hr : db.requestRefunded i = true) :
    db'.requestRefunded i = true := by
  simp only [Db.requestRefunded, List.any_eq_true, decide_eq_true_eq] at hr ⊢
  obtain ⟨c, hc, hci, hcs⟩ := hr
  exact ⟨c, h.refunds c hc hcs, hci, hcs⟩

theorem paymentRefunded_mono (h : Grown db db') {p : Uuid} (hr : db.paymentRefunded p = true) :
    db'.paymentRefunded p = true := by
  simp only [Db.paymentRefunded, List.any_eq_true, decide_eq_true_eq] at hr ⊢
  obtain ⟨c, hc, hci, hcs⟩ := hr
  exact ⟨c, h.refunds c hc hcs, hci, hcs⟩

theorem overlap_paymentRefunded (h : db.overlap l = true) : db.paymentRefunded l.paymentId = true := by
  simp only [Db.overlap, Db.paymentRefunded, onLossMovement, List.any_eq_true, decide_eq_true_eq] at h ⊢
  obtain ⟨c, hc, hs, hp, -⟩ := h
  exact ⟨c, hc, hp, hs⟩

theorem Records.requestRefunded (h : Records db) (hl : Ledger db) (hm : l ∈ db.losses)
    (hr : db.paymentRefunded l.paymentId = true) : db.requestRefunded l.paymentRequestId = true := by
  simp only [Db.requestRefunded, Db.paymentRefunded, List.any_eq_true, decide_eq_true_eq] at hr ⊢
  obtain ⟨c, hc, hp, hs⟩ := hr
  obtain ⟨r, hrm, hri, hrp⟩ := h.lossRequest l hm
  obtain ⟨q, hqm, hqi, hqp⟩ := h.caseRequest c hc
  have he : r = q := hl.paymentIds r hrm q hqm (by simp [hrp]) (by simp [hqp]) (by rw [hrp, hqp, hp])
  exact ⟨c, hc, by rw [← hqi, ← he, hri], hs⟩

theorem Records.refunded_iff (h : Records db) (hl : Ledger db) (hm : l ∈ db.losses) :
    db.requestRefunded l.paymentRequestId = db.paymentRefunded l.paymentId := by
  rw [Bool.eq_iff_iff]
  refine ⟨fun hr => ?_, h.requestRefunded hl hm⟩
  simp only [Db.requestRefunded, Db.paymentRefunded, List.any_eq_true, decide_eq_true_eq] at hr ⊢
  obtain ⟨c, hc, hp, hs⟩ := hr
  obtain ⟨r, hrm, hri, hrp⟩ := h.lossRequest l hm
  obtain ⟨q, hqm, hqi, hqp⟩ := h.caseRequest c hc
  obtain rfl := eq_of_key hl.requestKeys hrm hqm (by rw [hri, hqi, hp])
  exact ⟨c, hc, Option.some.inj (hqp.symm.trans hrp), hs⟩

variable {d : Uuid}

theorem Ledger.loss_eq (h : Ledger db) (hl : l ∈ db.losses) (hd : l.disputeId = d) :
    db.loss? d = some l := by
  subst hd
  exact find_key h.lossKeys hl

theorem Ledger.request_eq (h : Ledger db) (hr : r ∈ db.requests) (hi : r.id = i) :
    db.request? i = some r := by
  subst hi
  exact find_key h.requestKeys hr

theorem Records.purchase_eq (h : Records db) {s : Purchase} (hs : s ∈ db.purchases) (hi : s.id = i) :
    db.purchase? i = some s := by
  subst hi
  exact find_key h.purchaseKeys hs

theorem Records.same {db db' : Db} (h : Records db) (hs : SameRecords db db') : Records db' := by
  obtain ⟨⟨h₁, h₂, h₃, -⟩, h₄, h₅, h₆, h₇⟩ := hs
  refine ⟨?_, ?_, ?_, ?_, ?_, ?_, ?_, ?_, ?_⟩
  · rw [h₁, h₃]
    exact h.lossRequest
  · rw [h₃]
    exact h.factKeys
  · rw [h₂]
    exact h.lateSuccessKeys
  · rw [h₄]
    exact h.purchaseKeys
  · rw [h₄, h₆]
    exact h.assistedPurchase
  · rw [h₁, h₂, h₄]
    exact h.latePurchase
  · rw [h₅]
    exact h.caseKeys
  · rw [h₁, h₅]
    exact h.caseRequest
  · rw [h₆, h₇]
    exact h.assistance

theorem SameRecords.grown (h : SameRecords db db') : Grown db db' :=
  ⟨by rw [h.ledger.requests]; exact requests_grow (List.Subset.refl _), by rw [h.refundCases]; exact fun _ hc _ => hc,
    h.assistance, h.platforms⟩

theorem Records.grow (h : Records db) (hg : Grown db db') (hs : db.lateSuccesses ⊆ db'.lateSuccesses)
    (hsk : (db'.lateSuccesses.map PaymentLateSuccess.lateSuccessId).Nodup) (hl : db'.losses = db.losses)
    (hp : db'.purchases = db.purchases) (hc : db'.refundCases = db.refundCases) : Records db' := by
  refine ⟨?_, by rw [hl]; exact h.factKeys, hsk, by rw [hp]; exact h.purchaseKeys, by rw [hp, hg.assistance]; exact h.assistedPurchase, ?_, by rw [hc]; exact h.caseKeys, ?_, ?_⟩
  · rw [hl]
    intro l hm
    obtain ⟨r, hr, hi, hrp⟩ := h.lossRequest l hm
    exact hg.paid hr hi hrp
  · rw [hp]
    intro p hm i hi
    obtain ⟨s, hsm, hsi, r, hr, hri, ha, hcur⟩ := h.latePurchase p hm i hi
    obtain ⟨x, hx, hxi, hxa, hxc, -, -⟩ := hg.requests r hr
    exact ⟨s, hs hsm, hsi, x, hx, hxi.trans hri, ha.trans hxa.symm, hcur.trans hxc.symm⟩
  · rw [hc]
    intro c hm
    obtain ⟨r, hr, hi, hrp⟩ := h.caseRequest c hm
    exact hg.paid hr hi hrp
  · rw [hg.assistance, hg.platforms]
    exact h.assistance

theorem purchaseEvidence_late {p : Purchase} (h : db.purchaseEvidence p r = true)
    (hi : p.lateSuccessId = some i) : ∃ s ∈ db.lateSuccesses, s.lateSuccessId = i ∧ s.amount = r.amount ∧ s.currency = r.currency := by
  unfold Db.purchaseEvidence at h
  rw [hi] at h
  cases hp : p.purpose with
  | direct_purchase =>
    rw [hp] at h
    cases h
  | assisted_settlement =>
    simp only [hp, List.any_eq_true, decide_eq_true_eq] at h
    obtain ⟨s, hs, hsi, -, -, ha, hc⟩ := h
    exact ⟨s, hs, hsi, ha, hc⟩

theorem record_records {r : Record} (hl : Ledger db) (hi : Records db) (h : db.record r = .ok db') :
    Records db' ∧ Grown db db' ∧ SameNotes db db' := by
  cases r with
  | request r =>
    simp only [Db.record] at h
    obtain ⟨-, -, h⟩ := guards_ok h
    cases h
    have hg : Grown db { db with requests := db.requests ++ [r] } :=
      ⟨requests_grow (List.subset_append_left _ _), fun _ hc _ => hc, rfl, rfl⟩
    exact ⟨hi.grow hg (List.Subset.refl _) hi.lateSuccessKeys rfl rfl rfl, hg, ⟨rfl, rfl⟩⟩
  | paymentId r p =>
    simp only [Db.record] at h
    obtain ⟨hr, -, h⟩ := guards_ok h
    cases h
    simp only [not_or, not_not] at hr
    have hg : Grown db { db with requests := replaceRow PaymentRequest.id { r with paymentId := some p } db.requests } := by
      refine ⟨fun x hx => ?_, fun _ hc _ => hc, rfl, rfl⟩
      by_cases hk : x.id = r.id
      · obtain rfl := eq_of_key hl.requestKeys hx hr.1 hk
        exact ⟨_, replaceRow_mem (k := PaymentRequest.id) hx rfl, rfl, rfl, rfl, rfl, fun hn => absurd hr.2 hn⟩
      · exact ⟨x, replaceRow_other hx hk, rfl, rfl, rfl, rfl, fun _ => rfl⟩
    exact ⟨hi.grow hg (List.Subset.refl _) hi.lateSuccessKeys rfl rfl rfl, hg, ⟨rfl, rfl⟩⟩
  | lateSuccess s =>
    simp only [Db.record] at h
    obtain ⟨-, hf, h⟩ := guards_ok h
    obtain ⟨-, h⟩ := guard_ok h
    cases h
    have hf : ∀ x ∈ db.lateSuccesses, x.lateSuccessId ≠ s.lateSuccessId ∧ (s.factId ≠ none → x.factId ≠ s.factId) := by
      simpa using hf
    have hg : Grown db { db with lateSuccesses := db.lateSuccesses ++ [s] } :=
      ⟨requests_grow (List.Subset.refl _), fun _ hc _ => hc, rfl, rfl⟩
    exact ⟨hi.grow hg (List.subset_append_left _ _) (nodup_append_row hi.lateSuccessKeys fun x hx => (hf x hx).1) rfl rfl rfl,
      hg, ⟨rfl, rfl⟩⟩
  | purchase p =>
    simp only [Db.record] at h
    cases hr : db.request? p.paymentRequestId with
    | none =>
      rw [hr] at h
      cases h
    | some r =>
      simp only [hr] at h
      obtain ⟨he, hpu, h⟩ := guards_ok h
      obtain ⟨hfk, hf, h⟩ := guards_ok h
      cases h
      rw [not_not] at he hpu
      have hf : ∀ x ∈ db.purchases, x.id ≠ p.id ∧ x.paymentRequestId ≠ p.paymentRequestId := by simpa using hf
      have hid : r.id = p.paymentRequestId := by simpa using List.find?_some hr
      refine ⟨⟨hi.lossRequest, hi.factKeys, hi.lateSuccessKeys, nodup_append_row hi.purchaseKeys fun x hx => (hf x hx).1, ?_, ?_,
        hi.caseKeys, hi.caseRequest, hi.assistance⟩, ⟨requests_grow (List.Subset.refl _), fun _ hc _ => hc, rfl, rfl⟩, ⟨rfl, rfl⟩⟩
      · intro x hx hxp
        rcases mem_append_row hx with hx | rfl
        · exact hi.assistedPurchase x hx hxp
        · rw [hxp] at hpu
          obtain ⟨i, hpi⟩ := Option.isSome_iff_exists.mp (hpu.symm.trans (decide_eq_true rfl))
          obtain ⟨a, ha⟩ : ∃ a, db.assistance_request i = some a := by
            simpa [hpi, Option.ne_none_iff_exists'] using hfk
          exact ⟨i, a, hpi, ha⟩
      intro x hx i hxi
      rcases mem_append_row hx with hx | rfl
      · exact hi.latePurchase x hx i hxi
      · obtain ⟨s, hs, hsi, ha, hc⟩ := purchaseEvidence_late he hxi
        exact ⟨s, hs, hsi, r, List.mem_of_find?_eq_some hr, hid, ha, hc⟩
  | refundCase c =>
    simp only [Db.record] at h
    obtain ⟨hb, -, h⟩ := guards_ok h
    obtain ⟨hf, h⟩ := guard_ok h
    cases h
    have hb : ∃ x ∈ db.requests, x.id = c.paymentRequestId ∧ x.paymentId = some c.paymentId := by simpa using hb
    refine ⟨⟨hi.lossRequest, hi.factKeys, hi.lateSuccessKeys, hi.purchaseKeys, hi.assistedPurchase, hi.latePurchase,
      nodup_append_row hi.caseKeys (by simpa using hf), ?_, hi.assistance⟩,
      ⟨requests_grow (List.Subset.refl _), fun _ hc _ => List.mem_append_left _ hc, rfl, rfl⟩, ⟨rfl, rfl⟩⟩
    intro x hx
    rcases mem_append_row hx with hx | rfl
    · exact hi.caseRequest x hx
    · exact hb
  | refundStatus c status =>
    simp only [Db.record] at h
    obtain ⟨hc, h⟩ := guard_ok h
    cases h
    simp only [not_or, not_not] at hc
    refine ⟨⟨hi.lossRequest, hi.factKeys, hi.lateSuccessKeys, hi.purchaseKeys, hi.assistedPurchase, hi.latePurchase, ?_, ?_, hi.assistance⟩,
      ⟨requests_grow (List.Subset.refl _), fun x hx hxs => ?_, rfl, rfl⟩, ⟨rfl, rfl⟩⟩
    · dsimp only
      rw [map_replaceRow fun x _ hk => hk]
      exact hi.caseKeys
    · intro x hx
      rcases mem_replaceRow hx with rfl | ⟨hx, -⟩
      · exact hi.caseRequest c hc.1
      · exact hi.caseRequest x hx
    · refine replaceRow_other hx fun hk => ?_
      rw [eq_of_key hi.caseKeys hx hc.1 hk] at hxs
      exact hc.2 hxs
  | relay x =>
    simp only [Db.record] at h
    obtain ⟨-, -, h⟩ := guards_ok h
    cases h
    have hs : SameRecords db { db with relays := db.relays ++ [x] } := ⟨⟨rfl, rfl, rfl, rfl⟩, rfl, rfl, rfl, rfl⟩
    exact ⟨hi.same hs, hs.grown, ⟨rfl, rfl⟩⟩
  | relayStatus x status =>
    simp only [Db.record] at h
    obtain ⟨-, h⟩ := guard_ok h
    cases h
    have hs : SameRecords db { db with relays := replaceRow Relay.id { x with attemptStatus := some status } db.relays } :=
      ⟨⟨rfl, rfl, rfl, rfl⟩, rfl, rfl, rfl, rfl⟩
    exact ⟨hi.same hs, hs.grown, ⟨rfl, rfl⟩⟩
  | refundReversal p =>
    simp only [Db.record] at h
    obtain ⟨-, rfl⟩ := insertReversal_ok h
    have hs : SameRecords db { db with reversals := db.reversals ++ [⟨p, .refund_completion⟩] } :=
      ⟨⟨rfl, rfl, rfl, rfl⟩, rfl, rfl, rfl, rfl⟩
    exact ⟨hi.same hs, hs.grown, ⟨rfl, rfl⟩⟩
  | recoveryPayment i =>
    simp only [Db.record] at h
    cases h
    have hs : SameRecords db { db with recoveryPayments := db.recoveryPayments ++ [i] } :=
      ⟨⟨rfl, rfl, rfl, rfl⟩, rfl, rfl, rfl, rfl⟩
    exact ⟨hi.same hs, hs.grown, ⟨rfl, rfl⟩⟩

theorem insertLoss_records (hi : Records db) (h : db.insertLoss l = .ok db') :
    Records db' ∧ Grown db db' ∧ SameNotes db db' := by
  unfold Db.insertLoss at h
  obtain ⟨hb, -, h⟩ := guards_ok h
  obtain ⟨-, hf, h⟩ := guards_ok h
  cases h
  have hf : ∀ x ∈ db.losses, x.disputeId ≠ l.disputeId ∧ x.chargebackFactId ≠ l.chargebackFactId := by simpa using hf
  have hb : ∃ r ∈ db.requests, r.id = l.paymentRequestId ∧ r.paymentId = some l.paymentId := by simpa using hb
  refine ⟨⟨?_, nodup_append_row hi.factKeys fun x hx => (hf x hx).2, hi.lateSuccessKeys, hi.purchaseKeys, hi.assistedPurchase, hi.latePurchase, hi.caseKeys, hi.caseRequest, hi.assistance⟩,
    ⟨requests_grow (List.Subset.refl _), fun _ hc _ => hc, rfl, rfl⟩, ⟨rfl, rfl⟩⟩
  intro x hx
  rcases mem_append_row hx with hx | rfl
  · exact hi.lossRequest x hx
  · exact hb

theorem recordCaptureLoss_records (hi : Records db) (h : recordCaptureLoss db d = .ok db') :
    Records db' ∧ Grown db db' ∧ SameNotes db db' := by
  rcases recordCaptureLoss_cases h with rfl | ⟨l, -, c, -, -, rfl⟩
  · exact ⟨hi, Grown.refl _, ⟨rfl, rfl⟩⟩
  · exact ⟨⟨hi.lossRequest, hi.factKeys, hi.lateSuccessKeys, hi.purchaseKeys, hi.assistedPurchase, hi.latePurchase, hi.caseKeys, hi.caseRequest, hi.assistance⟩,
      ⟨requests_grow (List.Subset.refl _), fun _ hc _ => hc, rfl, rfl⟩, ⟨rfl, rfl⟩⟩

/-! ## The one loss of a capture with effects -/

def Db.fullLoss (db : Db) (l : DisputeLoss) : Prop :=
  ∃ cur, db.capturedKey l.key = some (l.chargebackAmount, cur) ∧ l.chargebackCurrency = cur ∧ l.currency = cur

def Db.sole (db : Db) (disputeId : Uuid) : Prop :=
  (∃ c ∈ db.caps, c.disputeId = disputeId ∧ c.firstFull = true) ∨
    ∃ l ∈ db.losses, l.disputeId = disputeId ∧ l.beforeS0c10 = true ∧ db.fullLoss l

theorem capturedKey_mono (hl : Ledger db) (hl' : Ledger db') (hk : Kept db db') (hg : Grown db db')
    {key : CaptureKey} {x : Nat × String} (h : db.capturedKey key = some x) : db'.capturedKey key = some x := by
  have hr := (capturedKey_iff hl.paymentIds hl.facts).mp h
  refine (capturedKey_iff hl'.paymentIds hl'.facts).mpr ?_
  cases key with
  | settling p =>
    obtain ⟨r, hm, hp, hx⟩ := hr
    obtain ⟨y, hy, -, hya, hyc, -, hyp⟩ := hg.requests r hm
    exact ⟨y, hy, (hyp (by simp [hp])).trans hp, by rw [hya, hyc]; exact hx⟩
  | late f =>
    obtain ⟨r, hm, hp, hx⟩ := hr
    exact ⟨r, hk.lateSuccesses hm, hp, hx⟩

theorem sole_mono (hl : Ledger db) (hl' : Ledger db') (hk : Kept db db') (hg : Grown db db')
    (h : db.sole d) : db'.sole d := by
  rcases h with ⟨c, hc, hcd⟩ | ⟨l, hm, hd, hb, cur, hcap, hcc, hc⟩
  · exact .inl ⟨c, hk.caps hc, hcd⟩
  · exact .inr ⟨l, hk.losses hm, hd, hb, cur, capturedKey_mono hl hl' hk hg hcap, hcc, hc⟩

variable {c : CaptureLossCap}

theorem Ledger.fullLoss_first (h : Ledger db) (hc : c ∈ db.caps)
    (hf : c.firstFull = true) (hl : l ∈ db.losses) (hp : Placed db l c) (hm : m ∈ db.losses) (hk : m.key = l.key)
    (hb : m.beforeS0c10 = true) (hfull : db.fullLoss m) : m.disputeId = l.disputeId := by
  obtain ⟨cur, hcap, hcc, hcu⟩ := hfull
  rw [hk, ← hp.key, hp.captured] at hcap
  obtain ⟨hg, hcur⟩ := Prod.mk.inj (Option.some.inj hcap)
  have hmh : m ∈ historical db.losses c.captureKey c.currency :=
    List.mem_filter.mpr ⟨hm, by simp [hb, hcc, hcu, hcur, hk, hp.key]⟩
  have hmle : m.chargebackAmount ≤ histSum db c.captureKey c.currency := by
    unfold histSum
    exact List.le_sum_of_mem (List.mem_map.mpr ⟨m, hmh, rfl⟩)
  obtain ⟨hw, hamt⟩ := hp.full hf
  have hpos := hp.gross
  by_contra hne
  cases hcb : c.beforeS0c10 with
  | false =>
    -- a later loss counts every historical one
    have hin : c.chargebackAmount ≤ withinOfSum false db.caps c.captureKey := by
      unfold withinOfSum withinOf
      exact List.le_sum_of_mem
        (List.mem_map.mpr ⟨c, List.mem_filter.mpr ⟨hc, by simp [hw, hcb]⟩, rfl⟩)
    rcases h.capped c hc with hz | hle <;> omega
  | true =>
    -- both losses are historical
    have hlc := hp.currency (hp.within hw)
    have hlb : l.beforeS0c10 = true := hp.before.symm.trans hcb
    have hlh : l ∈ historical db.losses c.captureKey c.currency :=
      List.mem_filter.mpr ⟨hl, by simp [hlb, hlc.1, hlc.2, hp.key]⟩
    have hkeys : ([l, m].map DisputeLoss.disputeId).Nodup := by
      simpa using fun he => hne (Eq.symm he)
    have hsum := sum_le_of_keys (m := historical db.losses c.captureKey c.currency) (j := DisputeLoss.disputeId)
      (f := DisputeLoss.chargebackAmount) (g := DisputeLoss.chargebackAmount) hkeys (by
        intro a ha
        simp only [List.mem_cons, List.not_mem_nil, or_false] at ha
        rcases ha with rfl | rfl
        · exact ⟨_, hlh, rfl, rfl⟩
        · exact ⟨_, hmh, rfl, rfl⟩)
    have hcap := hp.historical hw hcb
    have hla := hp.amount
    simp only [List.map_cons, List.map_nil, List.sum_cons, List.sum_nil] at hsum
    unfold histSum at hcap
    omega

theorem Ledger.sole_unique (h : Ledger db) (hc : c ∈ db.caps)
    (hf : c.firstFull = true) (hl : l ∈ db.losses) (hp : Placed db l c) (hm : m ∈ db.losses) (hk : m.key = l.key)
    (hs : db.sole m.disputeId) : m.disputeId = l.disputeId := by
  rcases hs with ⟨d, hd, hdd, hdf⟩ | ⟨n, hn, hnd, hb, hfull⟩
  · obtain ⟨n, hn, hq⟩ := h.placed d hd
    obtain rfl := eq_of_key h.lossKeys hn hm (hq.dispute.symm.trans hdd)
    obtain rfl := h.firstFull_unique hc hd (by rw [hq.key, hp.key, hk]) hf hdf
    exact hq.dispute.symm.trans hp.dispute
  · obtain rfl := eq_of_key h.lossKeys hn hm hnd
    exact h.fullLoss_first hc hf hl hp hm hk hb hfull

theorem Records.purchase_key (h : Records db) (hl : Ledger db) {s : Purchase} (hlm : l ∈ db.losses)
    (hmm : m ∈ db.losses) (hls : db.purchaseOfCapture l s = true) (hms : db.purchaseOfCapture m s = true) : m.key = l.key := by
  unfold Db.purchaseOfCapture at hls hms
  unfold DisputeLoss.key
  cases hlc : l.capture with
  | settling_capture f =>
    rw [hlc] at hls
    simp only [decide_eq_true_eq] at hls
    cases hmc : m.capture with
    | settling_capture g =>
      rw [hmc] at hms
      simp only [decide_eq_true_eq] at hms
      obtain ⟨r, hr, hri, hrp⟩ := h.lossRequest l hlm
      obtain ⟨q, hq, hqi, hqp⟩ := h.lossRequest m hmm
      obtain rfl := eq_of_key hl.requestKeys hr hq (by rw [hri, hqi, ← hls.1, hms.1])
      exact congrArg _ (Option.some.inj (hqp.symm.trans hrp))
    | late_capture g =>
      simp only [hmc, List.any_eq_true, decide_eq_true_eq] at hms
      obtain ⟨-, x, -, -, -, hx⟩ := hms
      rw [hls.2] at hx
      cases hx
  | late_capture f =>
    simp only [hlc, List.any_eq_true, decide_eq_true_eq] at hls
    obtain ⟨-, x, hx, hxf, -, hxs⟩ := hls
    cases hmc : m.capture with
    | settling_capture g =>
      rw [hmc] at hms
      simp only [decide_eq_true_eq] at hms
      rw [hms.2] at hxs
      cases hxs
    | late_capture g =>
      simp only [hmc, List.any_eq_true, decide_eq_true_eq] at hms
      obtain ⟨-, y, hy, hyf, -, hys⟩ := hms
      obtain rfl := eq_of_key h.lateSuccessKeys hx hy (Option.some.inj (hxs.symm.trans hys))
      exact congrArg _ (Option.some.inj (hyf.symm.trans hxf))

end NawaraCore.Losses
