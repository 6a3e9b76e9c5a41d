import NawaraCore.Payment.LateSuccessSound

/-!
# A verified capture settles

An eligible fact of an uncertain attempt, equal to its open payment, settles the
payment: no check of the service and no guard of the database stands in its way.
-/

namespace NawaraCore.Payments

variable {a : Attempt}
variable {f : CaptureFact}

section
variable {cfg : PaymentConfig} {s t : Db}

/-! ## The guards -/

theorem updateAttempt_succeeds {b : Attempt} (h : ∀ c ∈ attemptChecks s a b, c.2 = true) (hid : b.id = a.id) :
    s.updateAttempt a b = .ok { s with attempts := replaceAttempt s.attempts b } := by
  refine bind_eq_ok.mpr ⟨(), enforce_ok.mpr h, ?_⟩
  simp only [replaceAttempt, hid]
  rfl

theorem updatePayment_succeeds {p : Payment} (h : ∀ c ∈ paymentChecks s p, c.2 = true) :
    s.updatePayment p = .ok { s with payment := p } :=
  bind_eq_ok.mpr ⟨(), enforce_ok.mpr h, rfl⟩

theorem AttemptsInv.unconfirmed {as : List Attempt} (h : AttemptsInv cfg as) (ha : a ∈ as)
    (hu : a.uncertain) : a.failureConfirmedAt = none := by
  by_contra hc
  have hf := ((h.rows a ha).confirmed hc).1
  simp [Attempt.uncertain, Attempt.isOpen, hf, hc] at hu

theorem RunInv.attemptChecks_ok (h : RunInv cfg s) {b : Attempt} (ha : a ∈ s.attempts) (hu : a.uncertain)
    (hid : b.id = a.id) (hp : b.provider = a.provider) (ht : b.providerTransactionId = a.providerTransactionId)
    (hc : b.failureConfirmedAt = a.failureConfirmedAt) (hcc : b.confirmedFailureCode = a.confirmedFailureCode)
    (hst : canTransitionAttempt a.status b.status ∨
      (a.status = .failed ∧ b.status = .succeeded ∧ a.failureInferred ∧ a.failureConfirmedAt = none)) :
    ∀ c ∈ attemptChecks s a b, c.2 = true := by
  have hun := h.attempts.unconfirmed ha hu
  have hrow := h.attempts.rows a ha
  have hns := h.none_succeeded (not_succeeded_of_open (h.not_terminal ha hu))
  have hother : ∀ x ∈ s.attempts, x.id ≠ a.id → x.isOpen = false := by
    intro x hx hne
    by_contra ho
    exact hne (congrArg (·.id) (h.attempts.one_uncertain hx ha (uncertain_of_open (by simpa using ho)) hu))
  have hcode := hrow.unconfirmed hun
  simp only [attemptChecks, List.forall_mem_cons, decide_eq_true_eq, hid, hp, ht, hc, hcc, hun, hcode]
  refine ⟨.inr (by simpa only [hun] using hst), ?_, ?_, ?_, by simp, by simp, by simp, by simp⟩
  · simp only [Bool.or_eq_true, Bool.not_eq_true', List.any_eq_false, decide_eq_true_eq, not_and]
    exact .inr fun x hx hne => by simp [hother x hx hne]
  · simp only [Bool.not_eq_true', List.any_eq_false, decide_eq_true_eq, not_and]
    exact .inr fun x hx _ => hns.2 x hx
  · simp only [Bool.not_eq_true', List.any_eq_false, decide_eq_true_eq, not_and]
    exact hrow.txn.imp_right fun hx x hxm hne hpx => hx x hxm hne hpx

theorem RunInv.toUnknown_succeeds (h : RunInv cfg s) (ha : a ∈ s.attempts) (hu : a.uncertain) :
    ∃ as b, s.toUnknown a = .ok ({ s with attempts := as }, b) ∧ RunInv cfg { s with attempts := as } ∧ b ∈ as ∧
      b.uncertain ∧ b.id = a.id ∧ b.status ≠ .initiated ∧ b.failureInferred = a.failureInferred := by
  unfold Db.toUnknown
  by_cases hs : a.status = .initiated
  · have hk := h.attemptChecks_ok (b := { a with status := .unknown }) ha hu rfl rfl rfl rfl rfl (.inl (by rw [hs]; rfl))
    have hup := updateAttempt_succeeds hk rfl
    have ho : Attempt.isOpen { a with status := .unknown } := rfl
    refine ⟨_, { a with status := .unknown }, ?_, ?_, replaced_mem ha rfl, uncertain_of_open ho, rfl, by simp, rfl⟩
    · rw [if_pos hs]
      exact bind_eq_ok.mpr ⟨_, hup, rfl⟩
    · refine CoreStep.keeps (.acknowledged a _ ha ?_ ?_ (updateAttempt_row hup) ?_ ?_ rfl ?_) h
      · rfl
      · rfl
      · simp [Attempt.isOpen, hs]
      · rfl
      · rfl
  · exact ⟨s.attempts, a, if_neg hs, h, ha, hu, rfl, hs, rfl⟩

theorem Attempt.can_succeed (hu : a.uncertain) (hs : a.status ≠ .initiated) :
    canTransitionAttempt a.status .succeeded ∨
      (a.status = .failed ∧ AttemptStatus.succeeded = .succeeded ∧ a.failureInferred ∧ a.failureConfirmedAt = none) := by
  cases hst : a.status <;> simp_all [Attempt.uncertain, Attempt.isOpen, canTransitionAttempt]

/-! ## The decision -/

variable {id : Uuid}

theorem filter_binding_length (hi : EvidenceInv s) (hf : Eligible s f id) :
    s.facts.filter (fun g => g.binding = some ⟨s.payment.id, id⟩) = [f] := by
  have hmem : ∀ g ∈ s.facts.filter (fun g => g.binding = some ⟨s.payment.id, id⟩), g = f := by
    intro g hg
    simp only [List.mem_filter, decide_eq_true_eq] at hg
    exact hi.same_fact hg.1 hf.kept (hf.sole g hg.1 (onAttempt_iff.mpr ⟨_, hg.2, rfl⟩))
  have hin : f ∈ s.facts.filter (fun g => g.binding = some ⟨s.payment.id, id⟩) := by
    simp only [List.mem_filter, decide_eq_true_eq]
    exact ⟨hf.kept, hf.binding⟩
  have hle := length_filter_le_one (p := fun g => g.binding = some ⟨s.payment.id, id⟩) (hi.factIds.of_map _)
    fun a ha b hb hpa hpb =>
      (hmem a (List.mem_filter.mpr ⟨ha, hpa⟩)).trans (hmem b (List.mem_filter.mpr ⟨hb, hpb⟩)).symm
  match hl : s.facts.filter (fun g => g.binding = some ⟨s.payment.id, id⟩) with
  | [] => rw [hl] at hin; cases hin
  | [g] => rw [← hmem g (by rw [hl]; exact List.mem_singleton_self g)]; exact hl
  | _ :: _ :: _ => rw [hl] at hle; simp at hle

theorem evidence_of_eligible (hi : EvidenceInv s) (hf : Eligible s f id) :
    captureEvidence s id f.amount (trim f.currency) (some f.id) = ⟨true, 1⟩ := by
  have hv := verified_of_eligible hi hf
  obtain ⟨g, hg, hid, hb, -⟩ := captureEvidence_verified hv
  unfold captureEvidence at hv ⊢
  dsimp only at hv ⊢
  split at hv
  · cases hv
  · rw [filter_binding_length hi hf]
    exact congrArg (Evidence.mk · 1) hv

structure SettledBy (s t : Db) (attemptId : Uuid) : Prop where
  status : t.payment.status = .succeeded
  method : t.payment.settledMethod = some .gateway
  attempt : t.payment.succeededAttemptId = some attemptId
  event : t.outbox = s.outbox ++ [.paymentSucceeded attemptId]
  paymentId : t.payment.id = s.payment.id
  facts : t.facts = s.facts
  conflicts : t.conflicts = s.conflicts

variable {factId : Option Uuid}

theorem settlementEvidence_of_capture {db : Db} {p : Payment}
    (hev : captureEvidence db id p.amount p.currency factId = ⟨true, 1⟩) (hid : p.id = db.payment.id)
    (hs : p.succeededAttemptId = some id) (hc : isoCurrency p.currency) : settlementEvidence db p := by
  unfold captureEvidence at hev
  dsimp only at hev
  split at hev
  · cases hev
  rename_i f hf
  have hfm := List.mem_of_find?_eq_some hf
  have hfp := List.find?_some hf
  simp only [decide_eq_true_eq] at hfp
  injection hev with hv hl
  simp only [decide_eq_true_eq, Bool.not_eq_true'] at hv
  have hown : db.facts.filter (fun g => p.succeededAttemptId.any fun x => g.binding = some ⟨p.id, x⟩) =
      db.facts.filter fun g => g.binding = some ⟨db.payment.id, id⟩ := by
    simp only [hs, hid, Option.any_some]
  have hmem : f ∈ db.facts.filter fun g => g.binding = some ⟨db.payment.id, id⟩ := by
    simp only [List.mem_filter, decide_eq_true_eq]
    exact ⟨hfm, hfp.2⟩
  obtain ⟨g, hg⟩ := List.length_eq_one_iff.mp hl
  rw [hg] at hmem
  obtain rfl := List.mem_singleton.mp hmem
  unfold settlementEvidence
  dsimp only
  rw [hown, hg]
  simp [hv, trim_iso hc]

theorem RunInv.settlement_succeeds (h : RunInv cfg s) (hcur : isoCurrency s.payment.currency)
    (ha : a ∈ s.attempts) (hu : a.uncertain)
    (hev : captureEvidence s a.id s.payment.amount s.payment.currency factId = ⟨true, 1⟩) :
    ∃ u b v w, s.toUnknown a = .ok (u, b) ∧ u.updateAttempt b { b with status := .succeeded } = .ok v ∧
      v.updatePayment { s.payment with
        status := .succeeded, settledMethod := some .gateway, succeededAttemptId := some b.id } = .ok w ∧
      SettledBy s { w with outbox := w.outbox ++ [.paymentSucceeded b.id] } a.id := by
  have hnt := h.not_terminal ha hu
  have hns := h.none_succeeded (not_succeeded_of_open hnt)
  obtain ⟨as, b, hto, hr, hb, hbu, hbid, hbs, hbi⟩ := h.toUnknown_succeeds ha hu
  have hk := hr.attemptChecks_ok (b := { b with status := .succeeded }) hb hbu rfl rfl rfl rfl rfl (b.can_succeed hbu hbs)
  have hup := updateAttempt_succeeds hk rfl
  let v : Db := { s with attempts := replaceAttempt as { b with status := .succeeded } }
  let p : Payment :=
    { s.payment with status := .succeeded, settledMethod := some .gateway, succeededAttemptId := some b.id }
  have hbv : { b with status := .succeeded } ∈ v.attempts := replaced_mem hb rfl
  have hcheck : ∀ c ∈ paymentChecks v p, c.2 = true := by
    have hsame : captureEvidence v b.id p.amount p.currency factId = ⟨true, 1⟩ := by
      rw [hbid]
      exact hev
    have hev' : settlementEvidence v p := settlementEvidence_of_capture hsame rfl rfl hcur
    have hopen : s.payment.status = .created ∨ s.payment.status = .pending ∨ s.payment.status = .closing := by
      cases hst : s.payment.status <;> simp_all [isTerminalPaymentStatus]
    have hcr : s.payment.status = .created → b.failureInferred := by
      intro hc
      have hx := hu
      simp only [Attempt.uncertain, h.created hc a ha, Bool.false_or, decide_eq_true_eq] at hx
      rw [hbi]; exact hx.2.1
    have hsid : v.payment.succeededAttemptId = none := hns.1
    simp only [paymentChecks, List.forall_mem_cons, decide_eq_true_eq]
    refine ⟨.inr ?_, ?_, ?_, ?_, ?_, ?_, ?_, .inl rfl, .inr ⟨hsid, ?_⟩, ?_, ?_, ?_, ?_, by simp⟩
    · rcases hopen with hst | hst | hst <;> simp [v, p, hst, canTransitionPayment]
    · by_cases hst : s.payment.status = .created
      · right
        rw [List.any_eq_true]
        exact ⟨_, hbv, by simp [p, hcr hst]⟩
      · exact .inl fun hc => hst hc.1
    · exact .inl fun hc => by cases hc.2
    · exact .inr (.inl rfl)
    · exact .inr (.inl (by simp [p]))
    · simp [p]
    · cases hr : p.closingReason with
      | none => rfl
      | some r => cases r <;> simp [p]
    · rw [List.any_eq_true]
      exact ⟨_, hbv, by simp [p]⟩
    · exact .inr rfl
    · exact .inr (by simp [p])
    · exact .inr (by simp [p])
    · exact .inr (.inr (.inr hev'))
  refine ⟨_, b, v, { v with payment := p }, hto, hup, updatePayment_succeeds hcheck, ?_⟩
  exact ⟨rfl, rfl, congrArg some hbid, by rw [← hbid], rfl, rfl, rfl⟩

theorem applySucceeded_settles (h : RunInv cfg s) (hi : EvidenceInv s) (ha : a ∈ s.attempts)
    (hu : a.uncertain) (hf : Eligible s f a.id)
    (hm : s.payment.amount = f.amount ∧ s.payment.currency = trim f.currency) :
    ∃ t, applySucceeded s a f.amount (trim f.currency) (some f.id) = .ok (t, none) ∧ SettledBy s t a.id := by
  have hnt := h.not_terminal ha hu
  have hns := h.none_succeeded (not_succeeded_of_open hnt)
  have hun := h.attempts.unconfirmed ha hu
  have hev := evidence_of_eligible hi hf
  have hev' : captureEvidence s a.id s.payment.amount s.payment.currency (some f.id) = ⟨true, 1⟩ := by
    rw [hm.1, hm.2]
    exact hev
  obtain ⟨u, b, v, w, hto, hup, hpay, hset⟩ := h.settlement_succeeds hi.supported.currency ha hu hev'
  refine ⟨_, ?_, hset⟩
  unfold applySucceeded
  dsimp only
  have hns' := hns.2 a ha
  rw [hev, if_neg hns', if_neg (by simp [hm]), if_neg (by simp), if_neg (by simp [hnt]), if_neg, if_neg (by simp)]
  · exact bind_eq_ok.mpr ⟨_, hto, bind_eq_ok.mpr ⟨_, hup, bind_eq_ok.mpr ⟨_, hpay, rfl⟩⟩⟩
  · rintro ⟨hst | hst, hc⟩
    · simp_all [Attempt.uncertain, Attempt.isOpen]
    · simp [Attempt.uncertain, Attempt.isOpen, hst] at hu

/-! ## The fact before the decision -/

theorem findAttempt_of_mem (h : RunInv cfg s) (ha : a ∈ s.attempts) : s.findAttempt a.id = some a := by
  have hsome : (s.findAttempt a.id).isSome := by
    rw [Db.findAttempt, List.find?_isSome]
    exact ⟨a, ha, by simp⟩
  obtain ⟨b, hb⟩ := Option.isSome_iff_exists.mp hsome
  obtain ⟨hm, hid⟩ := findAttempt_some hb
  rw [hb, h.attempts.same_id hm ha hid]

theorem classify_iso {c : String} (h : isoCurrency c) : classifyCurrencyEvidence c = none := by
  simp only [isoCurrency, decide_eq_true_eq, List.all_eq_true] at h
  have hz : c.toList.any (·.toNat = 0) = false := by
    rw [List.any_eq_false]
    intro x hx
    have := (h.2 x hx).1
    have hA : 'A'.toNat ≤ x.toNat := this
    have : 'A'.toNat = 65 := rfl
    simp only [decide_eq_true_eq]
    omega
  unfold classifyCurrencyEvidence
  rw [if_neg (by omega), if_neg (by simp [hz]), if_neg (by omega)]

/-- The movement `(provider, txn)` of an attempt: any fact of it is this very capture, and the attempt has no other. -/
structure Matches (db : Db) (a : Attempt) (txn : String) (amount : Int) (currency : String) : Prop where
  stored : 1 ≤ txn.length ∧ txn.length ≤ 256
  sameAmount : db.payment.amount = amount
  sameCurrency : db.payment.currency = currency
  same : ∀ f ∈ db.facts, f.provider = a.provider → f.providerTxnId = txn →
    f.binding = some ⟨db.payment.id, a.id⟩ ∧ f.amount = amount ∧ f.currency = currency ∧ db.contested f.id = false
  sole : ∀ f ∈ db.facts, f.onAttempt a.id → f.provider = a.provider ∧ f.providerTxnId = txn

/-- What the first transaction leaves: the capture as an eligible fact of the attempt. -/
structure Attached (s t : Db) (a : Attempt) (amount : Int) (currency : String) (f : CaptureFact) : Prop where
  eligible : Eligible t f a.id
  figures : f.amount = amount ∧ f.currency = currency
  payment : t.payment = s.payment
  attempts : t.attempts = s.attempts

variable {currency : String} {txn : String} {amount : Int}

theorem Matches.attached_of {db : Db}
    (hm : Matches db a txn amount currency) (hi : EvidenceInv db) (hf : f ∈ db.facts)
    (hp : f.provider = a.provider) (ht : f.providerTxnId = txn) : Attached db db a amount currency f := by
  obtain ⟨hb, ha, hc, hu⟩ := hm.same f hf hp ht
  have hiso : isoCurrency currency := hm.sameCurrency ▸ hi.supported.currency
  refine ⟨⟨hf, hb, by rw [hc, trim_iso hiso]; exact hiso, hu, fun g hg ho => ?_⟩, ⟨ha, hc⟩, rfl, rfl⟩
  obtain ⟨hgp, hgt⟩ := hm.sole g hg ho
  have := List.inj_on_of_nodup_map hi.identity hg hf (by rw [hgp, hgt, hp, ht])
  rw [this]

variable {reported : Option String}

theorem observe_attaches (h : RunInv cfg s) (hi : EvidenceInv s) (ha : a ∈ s.attempts)
    (hm : Matches s a txn amount currency)
    (htxn : reported.or a.providerTransactionId = some txn) (event : Option Uuid) {fresh : Uuid}
    (hfresh : ∀ f ∈ s.facts, f.id ≠ fresh) :
    ∃ t f, observe s a.id (.succeeded amount currency reported) event fresh = .ok (t, some f.id) ∧
      Attached s t a amount currency f := by
  have hiso : isoCurrency currency := hm.sameCurrency ▸ hi.supported.currency
  have hne : txn ≠ "" := by rintro rfl; have := hm.stored.1; simp at this
  have hamount : ¬ (amount < 1 ∨ maxSafeInteger < amount) := by
    have := hi.supported.positive
    have := hi.supported.safe
    have := hm.sameAmount
    omega
  let row : CaptureFact := ⟨fresh, a.provider, txn, some ⟨s.payment.id, a.id⟩, amount, currency, event⟩
  have hadm : enforce
      [ ("provider_transaction_fact_pkey", !s.facts.any (·.id = row.id)),
        ("provider_transaction_fact_txn_length", 1 ≤ row.providerTxnId.length ∧ row.providerTxnId.length ≤ 256) ] =
      .ok () := by
    rw [enforce_ok]
    simp only [List.forall_mem_cons, Bool.not_eq_true', List.any_eq_false, decide_eq_true_eq]
    exact ⟨fun f hf => hfresh f hf, hm.stored, by simp⟩
  have hobs : observe s a.id (.succeeded amount currency reported) event fresh =
      recordCaptureFact s a s.payment.id amount currency reported event fresh := by
    simp only [observe, findAttempt_of_mem h ha]
  rw [hobs]
  unfold recordCaptureFact
  rw [if_neg (by simp [classify_iso hiso]), htxn]
  split
  · rename_i hnone; cases hnone
  · rename_i hempty; exact absurd (Option.some.inj hempty) hne
  rename_i x _ hx
  obtain rfl := Option.some.inj hx
  rw [if_neg hamount]
  by_cases hex : s.facts.any fun g => g.provider = a.provider ∧ g.providerTxnId = txn
  · have hsome : (s.facts.find? fun g => g.provider = a.provider ∧ g.providerTxnId = txn).isSome := by
      rw [List.find?_isSome]; simpa using hex
    obtain ⟨f, hf⟩ := Option.isSome_iff_exists.mp hsome
    have hfm := List.mem_of_find?_eq_some hf
    have hfp := List.find?_some hf
    simp only [decide_eq_true_eq] at hfp
    have hins : s.insertFact row = .ok (s, false) := bind_eq_ok.mpr ⟨(), hadm, if_pos hex⟩
    have hatt := hm.attached_of hi hfm hfp.1 hfp.2
    refine ⟨s, f, bind_eq_ok.mpr ⟨_, hins, ?_⟩, hatt⟩
    dsimp only
    rw [hf, if_neg (by simp)]
    exact if_pos ⟨hatt.eligible.binding, hatt.figures.1, hatt.figures.2⟩
  · have hins : s.insertFact row = .ok ({ s with facts := s.facts ++ [row] }, true) :=
      bind_eq_ok.mpr ⟨(), hadm, if_neg hex⟩
    refine ⟨{ s with facts := s.facts ++ [row] }, row, bind_eq_ok.mpr ⟨_, hins, rfl⟩, ?_, ⟨rfl, rfl⟩, rfl, rfl⟩
    refine ⟨List.mem_append_right _ (List.mem_singleton_self _), rfl, ?_, ?_, fun g hg ho => ?_⟩
    · exact (trim_iso hiso).symm ▸ hiso
    · rw [Db.contested, List.any_eq_false]
      intro c hc hcid
      obtain ⟨f, hf, hfid⟩ := hi.conflicts c hc
      exact hfresh f hf (hfid.trans (by simpa using hcid))
    · rcases List.mem_append.mp hg with hg | hg
      · obtain ⟨hgp, hgt⟩ := hm.sole g hg ho
        exact absurd (List.any_eq_true.mpr ⟨g, hg, by simp [hgp, hgt]⟩) hex
      · rw [List.mem_singleton.mp hg]

theorem settles {s : Sys} (h : Runs cfg s) {a : Attempt} (ha : a ∈ s.db.attempts) (hu : a.uncertain)
    (hm : Matches s.db a txn amount currency)
    (htxn : reported.or a.providerTransactionId = some txn) (event : Option Uuid) {fresh : Uuid}
    (hfresh : ∀ f ∈ s.db.facts, f.id ≠ fresh) (now : Int) :
    ∃ f t, let status : FetchStatusResult := .succeeded amount currency reported
      let call : ApplyCall := ⟨a.id, status, event, .deciding (some f.id)⟩
      let s' := step cfg s (.observe a.id status event fresh)
      s'.applies = call :: s.applies ∧ Attached s.db s'.db a amount currency f ∧
        resume cfg s' call now = { s' with db := t }.proceed call (.answered .returned) ∧ SettledBy s'.db t a.id := by
  obtain ⟨u, f, hobs, hatt⟩ := observe_attaches h.inv.core h.late.evidence ha hm htxn event hfresh
  let status : FetchStatusResult := .succeeded amount currency reported
  have hs' : step cfg s (.observe a.id status event fresh) =
      { s with db := u, applies := ⟨a.id, status, event, .deciding (some f.id)⟩ :: s.applies } := by
    simp only [step, status, hobs]
  have hruns : Runs cfg (step cfg s (.observe a.id status event fresh)) := .step h ⟨_, rfl⟩
  have hr := hruns.inv.core
  have hi := hruns.late.evidence
  rw [hs'] at hr hi
  have hau : a ∈ u.attempts := hatt.attempts ▸ ha
  have hiso : trim f.currency = currency := by
    rw [hatt.figures.2, trim_iso (hm.sameCurrency ▸ h.late.evidence.supported.currency)]
  obtain ⟨t, ht, hset⟩ := applySucceeded_settles hr hi hau hu hatt.eligible
    ⟨by rw [hatt.payment, hm.sameAmount, hatt.figures.1], by rw [hatt.payment, hm.sameCurrency, hiso]⟩
  rw [hatt.figures.1, hiso] at ht
  refine ⟨f, t, ?_⟩
  dsimp only
  rw [hs']
  refine ⟨rfl, hatt, ?_, hset⟩
  have hap : applyStatus cfg u now a.id status (some f.id) = .ok (t, none) := by
    unfold applyStatus
    rw [findAttempt_of_mem hr hau]
    exact ht
  simp only [resume, status] at hap ⊢
  rw [hap]

end

end NawaraCore.Payments
