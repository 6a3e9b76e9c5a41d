import NawaraCore.Assistance.AssistanceSound
import NawaraCore.Assistance.Settlement

/-!
# The assisted settlement invariant

Every transaction of the services and workers keeps the invariant of the assistance tables,
so every committed state of every interleaving has it; the sweep opens nothing while a
channel is open or uncertain or a purchase exists.
-/

namespace NawaraCore.Assistance

open Subscriptions (Uuid)
open PaymentRequests (PaymentRequest Invoice Routing PaymentEventFacts Failure)
open Reconciliation (RefundCase)

variable {start db db' : Db} {o : Obligation}

/-! ## The request and its channel -/

section
variable (h : Sound start db)
include h

theorem create_sound (input : AssistanceCreateInput) (offering : Option Offering) (id : Uuid) (now : Nat) :
    Yields (Sound start) (create db input offering id now) := by
  unfold create
  cases offering with
  | none => exact .error
  | some o =>
    refine .guard fun _ => .guard fun _ => ?_
    dsimp only
    split
    · exact insertRequest_sound h _
    · exact .error

theorem decline_sound (id : Uuid) : Yields (Sound start) (decline db id) := by
  unfold decline
  cases hr : db.request? id with
  | none => exact .error
  | some r => exact .guard fun _ => updateRequest_sound h (request_mem hr).1 _ _ _

theorem reportCashCollection_sound (id : Uuid) (t : Nat) (reportedBy : Uuid) (cap : Option Int) (now : Nat) :
    Yields (Sound start) (reportCashCollection db id t reportedBy cap now) := by
  unfold reportCashCollection
  cases hr : db.request? id with
  | none => exact .error
  | some r => exact .guard fun _ => .guard fun _ => .guard fun _ => .guard fun _ => updateRequest_sound h (request_mem hr).1 _ _ _

theorem settle_sound (id : Uuid) (companyId : Option Uuid) (invoiceId paymentRequestId : Uuid) (now : Nat) :
    Yields (Sound start) (settle db id companyId invoiceId paymentRequestId now) := by
  unfold settle
  cases db.request? id with
  | none => exact .error
  | some r =>
    refine .guard fun _ => .guard fun _ => ?_
    cases companyId with
    | none => exact .error
    | some companyId =>
      refine .guard fun _ => .guard fun _ => ?_
      have hi : Sound start { db with invoices := db.invoices ++ [r.settlementInvoice companyId invoiceId] } :=
        h.same ⟨rfl, rfl, rfl, rfl, rfl⟩
      refine (insertChannel_sound hi id invoiceId now).bind fun db hdb => ?_
      have hp : Sound start { db with paymentRequests :=
          db.paymentRequests ++ [requestFor (r.settlementInvoice companyId invoiceId) paymentRequestId] } :=
        hdb.same ⟨rfl, rfl, rfl, rfl, rfl⟩
      exact bindChannel_sound hp invoiceId paymentRequestId

theorem movePaymentRequest_sound (id : Uuid) (m : RequestMove) :
    Yields (Sound start) (movePaymentRequest db id m) := by
  unfold movePaymentRequest
  cases db.paymentRequest? id with
  | none => exact .error
  | some r =>
    cases m with
    | claimForDispatch stale => exact .ite (fun _ => updatePaymentRequest_sound h _ _) fun _ => .ok h
    | markRequested paymentId => exact .ite (fun _ => .ok h) fun _ => updatePaymentRequest_sound h _ _
    | markRejected => exact .ite (fun _ => .ok h) fun _ => updatePaymentRequest_sound h _ _
    | cancelUnsent => exact .guard fun _ => updatePaymentRequest_sound h _ _
    | markCancelRequested now => exact .guard fun _ => .ite (fun _ => updatePaymentRequest_sound h _ _) fun _ => .ok h

/-! ## Payment events -/

theorem payInvoice_sound (i : Invoice) (paidAt : Nat) : Yields (Sound start) (db.payInvoice i paidAt) :=
  .guard fun _ => .guard fun _ => .ok (h.same ⟨rfl, rfl, rfl, rfl, rfl⟩)

theorem insertLateSettlement_sound (s : LateSettlement) : Yields (Sound start) (db.insertLateSettlement s) := by
  unfold Db.insertLateSettlement
  dsimp only
  split
  · exact .error
  · exact .guard fun _ => .ok (h.same ⟨rfl, rfl, rfl, rfl, rfl⟩)

theorem keepLateSettlement_sound (s : LateSettlement) : Yields (Sound start) (db.keepLateSettlement s) := by
  unfold Db.keepLateSettlement
  split
  · exact .ok h
  · exact insertLateSettlement_sound h s

end

theorem recordPurchase_keeps {p : Purchase} (h : db.recordPurchase p = .ok db') : db'.channels = db.channels ∧ db'.requests = db.requests := by
  have h := (guard_ok (guard_ok (guard_ok (guard_ok h).2).2).2).2
  by_cases hc : db.purchases.any fun q => q.id = p.id ∨ q.invoiceId = p.invoiceId ∨ q.evidence = p.evidence ∨
      q.assistanceRequestId = p.assistanceRequestId
  · rw [if_pos hc] at h
    cases h
    exact ⟨rfl, rfl⟩
  · rw [if_neg hc] at h
    cases (guard_ok h).2
    exact ⟨rfl, rfl⟩

theorem updateChannel_requests {c : Reconciliation.Channel} {status : Reconciliation.ChannelStatus} (h : db.updateChannel c status = .ok db') :
    db'.requests = db.requests := by
  unfold Db.updateChannel at h
  by_cases hs : status = c.status
  · rw [if_pos hs] at h
    cases h
    rfl
  · rw [if_neg hs] at h
    obtain ⟨u, -, rfl⟩ := map_eq_ok.mp h
    rfl

theorem applyAssistedSettlement_sound (h : Sound start db) (i : Invoice) (routing : Routing) (requestId paymentRequestId : Uuid)
    (settledAt : Nat) (fresh : FreshIds) :
    Yields (Sound start) (applyAssistedSettlement db i routing requestId paymentRequestId settledAt fresh) := by
  unfold applyAssistedSettlement
  cases hr : db.request? requestId with
  | none => exact .error
  | some r =>
    dsimp only
    split
    · exact keepLateSettlement_sound h _
    · exact .ok h
    · rename_i channel _ hchannel
      split
      · intro db' he
        obtain ⟨db₁, h₁, he⟩ := bind_eq_ok.mp he
        obtain ⟨db₂, h₂, he⟩ := bind_eq_ok.mp he
        obtain ⟨hc, hq⟩ := recordPurchase_keeps h₁
        have hs₁ := recordPurchase_sound h _ db₁ h₁
        have hs₂ := updateChannel_sound hs₁ (hc ▸ List.mem_of_find?_eq_some hchannel) _ db₂ h₂
        have hmem : r ∈ db₂.requests := by
          rw [updateChannel_requests h₂, hq]
          exact (request_mem hr).1
        exact updateRequest_sound hs₂ hmem _ _ _ db' he
      · exact .ok h

theorem applyPaymentEvent_sound (h : Sound start db) (requireLive : Bool) (eventId : Uuid) (event : PaymentEventFacts) (settledAt now : Nat)
    (fresh : FreshIds) : Yields (Sound start) (applyPaymentEvent db requireLive eventId event settledAt now fresh) := by
  refine .ite (fun _ => .ok h) fun _ => .guard fun _ => ?_
  dsimp only
  have hs : ∀ receipts, Sound start { db with receipts := receipts } := fun _ => h.same ⟨rfl, rfl, rfl, rfl, rfl⟩
  split
  · refine (updatePaymentRequest_sound (hs _) _ _).bind fun db hdb => .ite (fun _ => ?_) fun _ => .ok hdb
    refine (payInvoice_sound hdb _ _).bind fun db hdb => ?_
    split
    · exact applyAssistedSettlement_sound hdb _ _ _ _ _ _
    · exact .ok hdb
  · exact .ok (hs _)

/-! ## The sweep, returns and disputes -/

theorem openOne_sound (h : Sound start db) (requestId obligationId : Uuid) (now : Nat) :
    Yields (Sound start) (openOne db requestId obligationId now) := by
  unfold openOne
  cases db.request? requestId with
  | none => exact .ok h
  | some r =>
    dsimp only
    cases r.collection with
    | none => exact .ok h
    | some c => exact .ite (fun _ => .ok h) fun _ => insertObligation_sound h _ _

theorem obligation_mem {id : Uuid} (h : db.obligation? id = some o) : o ∈ db.obligations :=
  List.mem_of_find?_eq_some h

section
variable (h : Sound start db)
include h

theorem reportReturn_sound (obligationId : Uuid) (returnedAt : Nat) (reportedBy : Uuid) (now : Nat) :
    Yields (Sound start) (reportReturn db obligationId returnedAt reportedBy now) := by
  unfold reportReturn
  cases ho : db.obligation? obligationId with
  | none => exact .error
  | some o => exact .guard fun _ => .guard fun _ => updateObligation_sound h (obligation_mem ho) (by simp) _

theorem confirmReturn_sound (obligationId : Uuid) : Yields (Sound start) (confirmReturn db obligationId) := by
  unfold confirmReturn
  cases ho : db.obligation? obligationId with
  | none => exact .error
  | some o =>
    dsimp only
    cases hr : db.request? o.assistanceRequestId with
    | none => exact .error
    | some r =>
      refine .guard fun _ => .guard fun _ => .guard fun _ => ?_
      exact confirm_sound h (obligation_mem ho) (request_mem hr).1 (request_mem hr).2 _ _

theorem openDispute_sound (requestId : Uuid) (reason : DisputeReason) (id : Uuid) (now : Nat) :
    Yields (Sound start) (openDispute db requestId reason id now) := by
  unfold openDispute
  cases db.request? requestId with
  | none => exact .error
  | some r =>
    refine .guard fun _ => .guard fun _ => ?_
    unfold Db.insertDispute
    split
    · exact .error
    · exact .guard fun _ => .guard fun _ => .guard fun _ => .guard fun _ => .ok (h.same ⟨rfl, rfl, rfl, rfl, rfl⟩)

theorem resolve_sound (disputeId correctionId : Uuid) : Yields (Sound start) (resolve db disputeId correctionId) := by
  unfold resolve
  split
  · exact .error
  · exact .guard fun _ => .guard fun _ => .guard fun _ => .ok (h.same ⟨rfl, rfl, rfl, rfl, rfl⟩)

theorem insertCorrection_sound (c : Correction) : Yields (Sound start) (db.insertCorrection c) := by
  unfold Db.insertCorrection
  split
  · exact .error
  · exact .guard fun _ => .guard fun _ => .ite (fun _ => .ok (h.same ⟨rfl, rfl, rfl, rfl, rfl⟩)) fun _ => .error

/-! ## Late settlements -/

theorem insertAttestation_sound (a : Attestation) (beneficiaryUserId : Uuid) :
    Yields (Sound start) (db.insertAttestation a beneficiaryUserId) :=
  .guard fun _ => .guard fun _ => .ok (h.same ⟨rfl, rfl, rfl, rfl, rfl⟩)

theorem classifyLateSettlement_sound (lateSuccessId id : Uuid) :
    Yields (Sound start) (classifyLateSettlement db lateSuccessId id) := by
  unfold classifyLateSettlement
  split
  · exact .error
  · split
    · exact .error
    · split
      · exact .ok h
      · exact .ite (fun _ => .ok h) fun _ => .ite (fun _ => .ok h) fun _ => insertLateSettlement_sound h _

end

theorem insertApplication_ok {a : Application} (h : db.insertApplication a = .ok db') : db' = { db with applications := db.applications ++ [a] } := by
  unfold Db.insertApplication at h
  split at h
  · split at h
    · cases h
    · cases (guard_ok (guard_ok (guard_ok (guard_ok h).2).2).2).2
      rfl
  · cases h

theorem insertEvidence_ok {applicationId lateSettlementId : Uuid} {grantIds : List Uuid}
    (h : db.insertEvidence applicationId lateSettlementId grantIds = .ok db') : ∃ evidence, db' = { db with evidence := evidence } := by
  cases (guard_ok h).2
  exact ⟨_, rfl⟩

theorem payLate_ok {l : LateSettlement} {i : Invoice} (h : payLate db l i = .ok db') : ∃ invoices, db' = { db with invoices := invoices } := by
  unfold payLate at h
  split at h
  · cases h
    exact ⟨db.invoices, rfl⟩
  · cases (guard_ok (guard_ok (guard_ok h).2).2).2
    exact ⟨_, rfl⟩

theorem settleChannel_sound (h : Sound start db) (invoiceId : Uuid) : Yields (Sound start) (settleChannel db invoiceId) := by
  unfold settleChannel
  split
  · exact .ok h
  · rename_i hc
    exact updateChannel_sound h (List.mem_of_find?_eq_some hc) _

theorem settleChannel_requests {invoiceId : Uuid} (h : settleChannel db invoiceId = .ok db') : db'.requests = db.requests := by
  unfold settleChannel at h
  split at h
  · cases h
    rfl
  · exact updateChannel_requests h

section
variable (h : Sound start db)
include h

theorem supersede_sound {live : Option Obligation} (hlive : ∀ o, live = some o → o ∈ db.obligations)
    (applicationId : Uuid) : Yields (fun db' => Sound start db' ∧ db'.requests = db.requests) (supersede db live applicationId) := by
  cases live with
  | none => exact .ok ⟨h, rfl⟩
  | some o =>
    intro db' he
    refine ⟨updateObligation_sound h (hlive o rfl) (by simp) _ db' he, ?_⟩
    obtain ⟨-, rfl⟩ := updateObligation_ok he
    rfl

theorem applyIn_sound (lateSettlementId : Uuid) (input : ApplicationInput) (applicationId purchaseId : Uuid) (now : Nat) :
    Yields (Sound start) (applyIn db lateSettlementId input applicationId purchaseId now) := by
  unfold applyIn
  split
  · exact .error
  · rename_i l _
    split
    · rename_i r i reason hr _ _
      intro db' h₀
      obtain ⟨db₁, h₁, h₀⟩ := bind_eq_ok.mp h₀
      obtain ⟨db₂, h₂, h₀⟩ := bind_eq_ok.mp h₀
      obtain ⟨db₃, h₃, he⟩ := bind_eq_ok.mp h₀
      clear h₀
      obtain rfl := insertApplication_ok h₁
      obtain ⟨evidence, rfl⟩ := insertEvidence_ok h₂
      have hs₂ : ∀ applications, Sound start { db with applications := applications, evidence := evidence } :=
        fun _ => h.same ⟨rfl, rfl, rfl, rfl, rfl⟩
      obtain ⟨hs₃, hq₃⟩ := supersede_sound (hs₂ _) (fun o ho => List.mem_of_find?_eq_some ho) applicationId db₃ h₃
      split at he
      · obtain ⟨db₄, h₄, hpay⟩ := bind_eq_ok.mp he
        obtain ⟨db₅, h₅, hbuy⟩ := bind_eq_ok.mp hpay
        obtain ⟨db₆, h₆, hchannel⟩ := bind_eq_ok.mp (guard_ok hbuy).2
        obtain ⟨db₇, h₇, hcommit⟩ := bind_eq_ok.mp hchannel
        obtain ⟨invoices, rfl⟩ := payLate_ok h₄
        have hs₄ : Sound start { db₃ with invoices := invoices } := hs₃.same ⟨rfl, rfl, rfl, rfl, rfl⟩
        have hs₅ := recordPurchase_sound hs₄ _ db₅ h₅
        have hs₆ := settleChannel_sound hs₅ _ db₆ h₆
        have hmem : r ∈ db₆.requests := by
          rw [settleChannel_requests h₆, (recordPurchase_keeps h₅).2]
          change r ∈ db₃.requests
          rw [hq₃]
          exact (request_mem hr).1
        have hs₇ := updateRequest_sound hs₆ hmem _ _ _ db₇ h₇
        have hc : db' = db₇ := by
          have hc := (guard_ok hcommit).2
          split at hc
          · cases hc
            rfl
          · cases hc
        exact hc ▸ hs₇
      · cases he
    · exact .error

theorem assisted_sound (c : RefundCase) (p : Purchase) (obligationId : Uuid) (now : Nat) :
    Yields (Sound start) (assisted db c p obligationId now) := by
  unfold assisted
  split
  · exact .error
  · refine .guard fun _ => .guard fun _ => .guard fun _ => .guard fun _ => ?_
    split
    · exact .error
    · refine (insertReversal_sound h _).bind fun db hdb => (insertObligation_sound hdb _ _).bind fun db hdb => .ok ?_
      exact hdb.same ⟨rfl, rfl, rfl, rfl, rfl⟩

theorem applyRefundEffect_sound (refundCaseId obligationId : Uuid) (now : Nat) :
    Yields (Sound start) (applyRefundEffect db refundCaseId obligationId now) := by
  unfold applyRefundEffect
  split
  · exact .error
  · refine .ite (fun _ => .ok h) fun _ => ?_
    split
    · exact .error
    · refine .guard fun _ => .guard fun _ => ?_
      split
      · split
        · exact .error
        · exact .guard fun _ => .guard fun _ => assisted_sound h _ _ _ _
      · exact .guard fun _ => .guard fun _ => .ok (h.same ⟨rfl, rfl, rfl, rfl, rfl⟩)
      · exact .ok (h.same ⟨rfl, rfl, rfl, rfl, rfl⟩)

theorem closeCase_sound (refundCaseId : Uuid) (status : Losses.RefundCaseStatus) (completions : List RefundCompletion) :
    Yields (Sound start) (db.closeCase refundCaseId status completions) := by
  unfold Db.closeCase
  split
  · exact .error
  · exact .guard fun _ => .ok (h.same ⟨rfl, rfl, rfl, rfl, rfl⟩)

theorem record_sound (r : Record) : Yields (Sound start) (db.record r) := by
  cases r with
  | lateSuccess l => exact .guard fun _ => .ok (h.same ⟨rfl, rfl, rfl, rfl, rfl⟩)
  | otherEffect id => exact .guard fun _ => .ok (h.same ⟨rfl, rfl, rfl, rfl, rfl⟩)
  | refundCase c => exact .guard fun _ => .ok (h.same ⟨rfl, rfl, rfl, rfl, rfl⟩)
  | completion k => exact closeCase_sound h _ _ _
  | cancellation id => exact closeCase_sound h _ _ _
  | relay id => exact .ok (h.same ⟨rfl, rfl, rfl, rfl, rfl⟩)
  | loss id => exact .ok (h.same ⟨rfl, rfl, rfl, rfl, rfl⟩)
  | reversal id => exact insertReversal_sound h _

theorem action_sound (a : Action) : Yields (Sound start) (a.run db) := by
  cases a with
  | create input offering id now => exact create_sound h _ _ _ _
  | decline id => exact decline_sound h _
  | reportCashCollection id t by' cap now => exact reportCashCollection_sound h _ _ _ _ _
  | settle id companyId invoiceId paymentRequestId now => exact settle_sound h _ _ _ _ _
  | movePaymentRequest id m => exact movePaymentRequest_sound h _ _
  | paymentEvent live eventId event settledAt now fresh => exact applyPaymentEvent_sound h _ _ _ _ _ _
  | sweep requestId obligationId now => exact openOne_sound h _ _ _
  | reportReturn id t by' now => exact reportReturn_sound h _ _ _ _
  | confirmReturn id => exact confirmReturn_sound h _
  | openDispute requestId reason id now => exact openDispute_sound h _ _ _ _
  | correct c => exact insertCorrection_sound h _
  | resolve disputeId correctionId => exact resolve_sound h _ _
  | attest a beneficiaryUserId => exact insertAttestation_sound h _ _
  | classifyLateSettlement lateSuccessId id => exact classifyLateSettlement_sound h _ _
  | apply id input applicationId purchaseId now => exact applyIn_sound h _ _ _ _ _
  | refundEffect refundCaseId obligationId now => exact applyRefundEffect_sound h _ _ _
  | record r => exact record_sound h _

theorem step_sound (a : Action) : Sound start (step db a) := by
  unfold step
  cases hr : a.run db with
  | ok db' => exact action_sound h a db' hr
  | error e => exact h

end

theorem run_sound : ∀ (actions : List Action) {db : Db}, Sound start db → Sound start (run db actions)
  | [], _, h => h
  | a :: actions, _, h => run_sound actions (step_sound h a)

theorem empty_sound : Sound .empty .empty where
  requestIds := .nil
  channelIds := .nil
  purchaseIds := .nil
  obligationIds := .nil
  oneChannel := .nil
  onePurchase := .nil
  oneLive := .nil
  oneDeadline := .nil
  exclusive := by intro p hp; cases hp
  settled := by intro r hr; cases hr
  returned := by intro r hr; cases hr
  frozen := by intro o ho; cases ho
  terms := by intro r hr; cases hr
  confirmed := by intro o ho; cases ho

theorem openOne_due {requestId obligationId : Uuid} {now : Nat} (h : openOne db requestId obligationId now = .ok db')
    (ho : o ∈ db'.obligations) : o ∈ db.obligations ∨
      (o.assistanceRequestId = requestId ∧ db.purchased requestId = false ∧ db.channelActive requestId = false ∧
        db'.purchases = db.purchases ∧ db'.channels = db.channels) := by
  unfold openOne at h
  cases hr : db.request? requestId with
  | none => rw [hr] at h; cases h; exact .inl ho
  | some r =>
    have hid := (request_mem hr).2
    rw [hr] at h
    dsimp only at h
    cases hc : r.collection with
    | none => rw [hc] at h; cases h; exact .inl ho
    | some c =>
      rw [hc] at h
      dsimp only at h
      by_cases hd : db.due r now
      · rw [if_neg (not_not_intro hd)] at h
        simp only [Db.due, Bool.decide_and, Bool.and_eq_true, decide_eq_true_eq, Bool.not_eq_true] at hd
        obtain ⟨-, -, hp, ha, -⟩ := hd
        obtain ⟨obligation, hob, rfl⟩ := insertObligation_ok h
        rcases mem_append_row ho with ho | rfl
        · exact .inl ho
        · exact .inr ⟨hob.trans hid, hid ▸ hp, hid ▸ ha, rfl, rfl⟩
      · rw [if_pos hd] at h
        cases h
        exact .inl ho

/-! ## The run invariant -/

theorem count_active (h : Core start db) (requestId : Uuid) :
    (db.channels.filter fun c => c.assistanceRequestId = requestId ∧ active c.status).length ≤ 1 :=
  h.oneChannel.length_filter h.channelIds requestId

theorem count_purchases (h : Core start db) (requestId : Uuid) :
    (db.purchases.filter fun p => p.assistanceRequestId = requestId).length ≤ 1 := by
  have hc := h.onePurchase.length_filter h.purchaseIds requestId
  simpa only [and_true] using hc

theorem count_live (h : Core start db) (requestId : Uuid) :
    (db.obligations.filter fun o => o.assistanceRequestId = requestId ∧ o.status.live).length ≤ 1 :=
  h.oneLive.length_filter h.obligationIds requestId

theorem count_deadline (h : Core start db) (requestId : Uuid) :
    (db.obligations.filter fun o => o.assistanceRequestId = requestId ∧ o.origin = .deadline).length ≤ 1 :=
  h.oneDeadline.length_filter h.obligationIds requestId

theorem not_superseded {s : ObligationStatus} (h : s.superseded) : ¬ s.live ∧ s ≠ .confirmed_returned := by
  cases s with
  | superseded_by_settlement _ => exact ⟨by simp [ObligationStatus.live], by simp⟩
  | _ => cases h

theorem sweep_opens (requestId obligationId : Uuid) (now : Nat)
    (ho : o ∈ (step db (.sweep requestId obligationId now)).obligations) : o ∈ db.obligations ∨
      ((step db (.sweep requestId obligationId now)).purchased o.assistanceRequestId = false ∧
        (step db (.sweep requestId obligationId now)).channelActive o.assistanceRequestId = false) := by
  unfold step at ho ⊢
  cases hr : (Action.sweep requestId obligationId now).run db with
  | error e => rw [hr] at ho; exact .inl ho
  | ok db' =>
    rw [hr] at ho
    rcases openOne_due hr ho with ho | ⟨hid, hp, ha, hps, hcs⟩
    · exact .inl ho
    · refine .inr ⟨?_, ?_⟩
      · simp only [Db.purchased, hps, hid]
        exact hp
      · simp only [Db.channelActive, hcs, hid]
        exact ha

/-- **The run invariant of assisted settlement**, of every interleaving of committed transactions. -/
theorem assistance_run_invariant (actions : List Action) :
    (∀ requestId,
      ((run .empty actions).channels.filter fun c => c.assistanceRequestId = requestId ∧ active c.status).length ≤ 1 ∧
      ((run .empty actions).purchases.filter fun p => p.assistanceRequestId = requestId).length ≤ 1 ∧
      ((run .empty actions).obligations.filter fun o => o.assistanceRequestId = requestId ∧ o.status.live).length ≤ 1 ∧
      ((run .empty actions).obligations.filter fun o => o.assistanceRequestId = requestId ∧ o.origin = .deadline).length ≤ 1) ∧
    (∀ p ∈ (run .empty actions).purchases, (run .empty actions).reversed p.id = false →
      ∀ o ∈ (run .empty actions).obligations, o.assistanceRequestId = p.assistanceRequestId →
        ¬ o.status.live ∧ o.status ≠ .confirmed_returned) ∧
    (∀ r ∈ (run .empty actions).requests,
      (r.status = .settled → ∃ p ∈ (run .empty actions).purchases, p.assistanceRequestId = r.id) ∧
      (r.status = .returned → ∃ o ∈ (run .empty actions).obligations, o.assistanceRequestId = r.id ∧ o.status = .confirmed_returned)) ∧
    (∀ o ∈ (run .empty actions).obligations, ∃ r ∈ (run .empty actions).requests, r.id = o.assistanceRequestId ∧
      o.amount = r.terms.baseAmount + r.terms.feeAmount ∧ o.currency = r.terms.currency) ∧
    (∀ later, ∀ r ∈ (run .empty actions).requests, ∃ r' ∈ (run (run .empty actions) later).requests,
      r'.id = r.id ∧ r'.terms = r.terms) ∧
    (∀ requestId obligationId now, ∀ o ∈ (step (run .empty actions) (.sweep requestId obligationId now)).obligations,
      o ∈ (run .empty actions).obligations ∨
        ((step (run .empty actions) (.sweep requestId obligationId now)).purchased o.assistanceRequestId = false ∧
          (step (run .empty actions) (.sweep requestId obligationId now)).channelActive o.assistanceRequestId = false)) := by
  have h : Sound .empty (run .empty actions) := run_sound actions empty_sound
  refine ⟨fun id => ⟨?_, ?_, ?_, ?_⟩, ?_, fun r hr => ⟨fun hs => ?_, fun hs => ?_⟩, h.frozen, ?_, ?_⟩
  · exact count_active h.toCore id
  · exact count_purchases h.toCore id
  · exact count_live h.toCore id
  · exact count_deadline h.toCore id
  · intro p hp hrev o ho he
    exact not_superseded (h.exclusive p hp hrev o ho he)
  · exact purchased_iff.mp (h.settled r hr hs)
  · exact confirmed_iff.mp (h.returned r hr hs)
  · intro later r hr
    exact (run_sound later h.restart).terms r hr
  · intro requestId obligationId now o ho
    exact sweep_opens requestId obligationId now ho

end NawaraCore.Assistance
