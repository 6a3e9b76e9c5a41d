import NawaraCore.Assistance.Assistance

/-!
# Assisted settlement

The services and workers that move an assistance request: `AssistanceService`,
`AssistanceSettlementService`, `AssistanceResolutionService`, the cash-return sweep, the
payment events of a settlement channel, `LateSettlementService` and the refund effect. Each
command is one transaction under the lock of its request; one that fails changes nothing.
-/

namespace NawaraCore.Assistance

open Subscriptions (Uuid)
open PaymentRequests (PaymentRequest Invoice InvoiceLine Routing Party PaymentEventFacts Failure LateReason MAX_SAFE_INTEGER
  decidePaymentEvent recurringLines)
open Reconciliation (Channel LateSuccess RefundCase)

structure AssistanceCreateInput where
  beneficiaryUserId : Uuid
  organizationId : Uuid
  platformId : Uuid
  productId : Uuid
  priceId : Uuid

structure Offering where
  currency : String
  unitAmount : Int
  fee : Option (Int × Bool)

def create (db : Db) (input : AssistanceCreateInput) (offering : Option Offering) (id : Uuid) (now : Nat) : Except Failure Db :=
  match offering with
  | none => .error (.billing 422 "price_not_available")
  | some o =>
    if db.requests.any fun x => x.unresolved ∧ x.beneficiaryUserId = input.beneficiaryUserId ∧
        x.organizationId = input.organizationId ∧ x.productId = input.productId then .error (.billing 409 "assistance_request_open")
    else if o.fee.any fun (_, usable) => ¬ usable then .error (.billing 409 "fee_not_usable")
    else
      let feeAmount := (o.fee.map Prod.fst).getD 0
      if h : 0 < o.unitAmount ∧ 0 ≤ feeAmount ∧ o.unitAmount + feeAmount = o.unitAmount + feeAmount ∧
          o.unitAmount + feeAmount ≤ MAX_SAFE_INTEGER then
        db.insertRequest ⟨id, input.beneficiaryUserId, input.organizationId, input.platformId, input.productId, input.priceId,
          ⟨o.currency, o.unitAmount, feeAmount, o.unitAmount + feeAmount, h⟩, now, .pending, none⟩
      else .error (.refused "assistance_request_amounts")

def decline (db : Db) (id : Uuid) : Except Failure Db :=
  match db.request? id with
  | none => .error .notFound
  | some r =>
    if r.status ≠ .pending then .error (.billing 409 "assistance_request_not_pending")
    else db.updateRequest r .declined none none

def reportCashCollection (db : Db) (id : Uuid) (cashCollectedAt : Nat) (reportedBy : Uuid) (feeCap : Option Int) (now : Nat) :
    Except Failure Db :=
  match db.request? id with
  | none => .error .notFound
  | some r =>
    if r.status.collected then .error (.billing 409 "cash_collection_already_reported")
    else if r.status ≠ .pending then .error (.billing 409 "assistance_request_not_pending")
    else if ¬ (r.consentAt ≤ cashCollectedAt ∧ cashCollectedAt ≤ now) then .error (.billing 422 "cash_collection_time_invalid")
    else if feeCap.getD 0 < r.terms.feeAmount then .error (.billing 409 "fee_not_usable")
    else db.updateRequest r .cash_collected (some ⟨cashCollectedAt, now, reportedBy, cashCollectedAt + SETTLE_WITHIN, rfl⟩) feeCap

/-! ## The settlement channel -/

/-- The invoice of a channel: one line of the frozen price, paid by the Organization, routed to the beneficiary. -/
def AssistanceRequest.settlementInvoice (r : AssistanceRequest) (companyId id : Uuid) : Invoice where
  id := id
  status := .open
  payer := ⟨"organization", toString r.organizationId⟩
  seller := ⟨"company", toString companyId⟩
  organizationId := some r.organizationId
  currency := r.terms.currency
  total := r.terms.baseAmount
  lines := [⟨r.productId, r.priceId, true⟩]
  routing := some ⟨"assisted_settlement", some r.beneficiaryRef, some r.organizationId, some r.productId, some r.id, none⟩

def requestFor (i : Invoice) (id : Uuid) : PaymentRequest :=
  ⟨id, i.id, i.total, i.currency, .created, none, 2, 0, none, 0⟩

def settle (db : Db) (id : Uuid) (companyId : Option Uuid) (invoiceId paymentRequestId : Uuid) (now : Nat) : Except Failure Db :=
  match db.request? id with
  | none => .error .notFound
  | some r =>
    if r.status ≠ .cash_collected ∨ (r.collection.any fun c => c.settleBy < now) ∨ db.purchased id ∨ db.obliged id then
      .error (.billing 409 "assistance_request_not_settleable")
    else if db.channelActive id then .error (.billing 409 "settlement_channel_open")
    else
      match companyId with
      | none => .error (.billing 409 "platform_not_configured")
      | some companyId =>
        let invoice := r.settlementInvoice companyId invoiceId
        if db.invoices.any fun i => i.id = invoiceId then .error (.refused "invoice_pkey")
        else if db.paymentRequests.any fun p => p.id = paymentRequestId then .error (.refused "payment_request_pkey")
        else do
          let db ← { db with invoices := db.invoices ++ [invoice] }.insertChannel id invoiceId now
          { db with paymentRequests := db.paymentRequests ++ [requestFor invoice paymentRequestId] }.bindChannel invoiceId paymentRequestId

inductive RequestMove
  | claimForDispatch (stale : Bool)
  | markRequested (paymentId : Uuid)
  | markRejected
  | cancelUnsent
  | markCancelRequested (now : Int)

def movePaymentRequest (db : Db) (id : Uuid) (m : RequestMove) : Except Failure Db :=
  match db.paymentRequest? id with
  | none => .error .notFound
  | some r =>
    match m with
    | .claimForDispatch stale =>
      if r.status = .created ∨ (r.status = .sending ∧ stale) then
        db.updatePaymentRequest r { r with status := .sending, sendAttempts := r.sendAttempts + 1 }
      else .ok db
    | .markRequested paymentId =>
      if r.status ≠ .sending then .ok db else db.updatePaymentRequest r { r with status := .requested, paymentId := some paymentId }
    | .markRejected => if r.status ≠ .sending then .ok db else db.updatePaymentRequest r { r with status := .rejected }
    | .cancelUnsent =>
      if r.status ≠ .created then .error (.billing 409 "payment_request_in_flight")
      else db.updatePaymentRequest r { r with status := .cancelled }
    | .markCancelRequested now =>
      if r.status ≠ .requested ∨ r.paymentId = none then .error (.billing 409 "payment_request_in_flight")
      else if r.cancelRequestedAt = none then db.updatePaymentRequest r { r with cancelRequestedAt := some now }
      else .ok db

/-! ## Payment events -/

/-- `billing_invoice_lifecycle` on an invoice that becomes paid: by its paid payment request, or by the application of its
late settlement from a late success. -/
def Db.payInvoice (db : Db) (i : Invoice) (paidAt : Nat) : Except Failure Db :=
  if i.status ≠ .open then .error (.refused "invoice_lifecycle")
  else if ¬ (db.paymentRequests.any fun r => r.invoiceId = i.id ∧ r.status = .paid ∧ r.amount = i.total) ∧
      ¬ (db.applications.any fun a => db.lateSettlements.any fun l => l.id = a.lateSettlementId ∧ l.invoiceId = i.id ∧
        db.lateSuccesses.any fun s => l.evidence = .lateSuccess s.lateSuccessId ∧ s.amount = i.total ∧ s.currency = i.currency ∧
          paidAt = s.recordedAt) then
    .error (.refused "invoice can become paid only through a paid payment request for its full total")
  else .ok { db with invoices := replaceRow Invoice.id { i with status := .paid } db.invoices }

def lateReason (db : Db) (r : AssistanceRequest) (channel : Option Channel) : Option LateReason :=
  if channel.all fun c => ¬ active c.status then some .channel_closed
  else if db.purchased r.id then some .purchase_exists
  else if db.obliged r.id then some .cash_return_obligation_exists
  else if r.status ≠ .cash_collected then some .request_not_settleable
  else none

def Db.keepLateSettlement (db : Db) (s : LateSettlement) : Except Failure Db :=
  match db.insertLateSettlement s with
  | .error (.refused "assistance_late_settlement_unique") => .ok db
  | r => r

structure FreshIds where
  receipt : Uuid
  purchase : Uuid
  lateSettlement : Uuid

def applyAssistedSettlement (db : Db) (i : Invoice) (routing : Routing) (requestId paymentRequestId : Uuid) (settledAt : Nat)
    (fresh : FreshIds) : Except Failure Db :=
  match db.request? requestId with
  | none => .error .notFound
  | some r =>
    let channel := db.channels.find? fun c => c.invoiceId = i.id
    match lateReason db r channel, channel with
    | some reason, _ =>
      db.keepLateSettlement ⟨fresh.lateSettlement, r.id, i.id, paymentRequestId, .receipt fresh.receipt, reason, settledAt⟩
    | none, none => .ok db
    | none, some channel =>
      match recurringLines i routing.productId, routing.beneficiaryUserId with
      | [line], some userId => do
        let db ← db.recordPurchase ⟨fresh.purchase, r.id, userId, line.productId, line.priceId, i.id, paymentRequestId,
          .receipt fresh.receipt, settledAt, none⟩
        let db ← db.updateChannel channel .settled
        db.updateRequest r .settled r.collection none
      | _, _ => .ok db

def applyPaymentEvent (db : Db) (requireLive : Bool) (eventId : Uuid) (event : PaymentEventFacts) (settledAt now : Nat)
    (fresh : FreshIds) : Except Failure Db :=
  if db.receipts.any fun r => r.eventId = eventId ∧ r.outcome = .applied then .ok db
  else if db.receipts.any fun r => r.id = fresh.receipt then .error (.refused "payment_event_receipt_pkey")
  else
    let request := db.paymentRequest? event.paymentRequestId
    let invoice := request.bind fun r => db.invoice? r.invoiceId
    let decision := decidePaymentEvent event (request.map PaymentRequest.facts) (invoice.map Invoice.facts) requireLive
    let db := { db with receipts := db.receipts ++
      [⟨fresh.receipt, eventId, event.name, event.paymentRequestId, request.bind PaymentRequest.paymentId, decision.outcome⟩] }
    match decision, request, invoice with
    | .applied requestTo toPaid, some r, some i => do
      let db ← db.updatePaymentRequest r { r with status := requestTo }
      if toPaid then
        let db ← db.payInvoice i now
        match i.routing.bind fun e => e.assistanceRequestId.map fun id => (e, id) with
        | some (routing, requestId) => applyAssistedSettlement db i routing requestId r.id settledAt fresh
        | none => .ok db
      else .ok db
    | _, _, _ => .ok db

def Db.due (db : Db) (r : AssistanceRequest) (now : Nat) : Bool :=
  r.status = .cash_collected ∧ (r.collection.any fun c => c.settleBy < now) ∧ ¬ db.purchased r.id ∧ ¬ db.channelActive r.id ∧
    ¬ db.obliged r.id

/-- `openOne`, for a request that an earlier read may have found due. -/
def openOne (db : Db) (requestId obligationId : Uuid) (now : Nat) : Except Failure Db :=
  match db.request? requestId with
  | none => .ok db
  | some r =>
    match r.collection with
    | none => .ok db
    | some c =>
      if ¬ db.due r now then .ok db
      else db.insertObligation ⟨obligationId, r.id, .deadline, r.terms.totalAmount, r.terms.currency, c.cashCollectedAt, now, .open, none⟩ now

def Db.obligation? (db : Db) (id : Uuid) : Option Obligation := db.obligations.find? fun o => o.id = id

def reportReturn (db : Db) (obligationId : Uuid) (returnedAt : Nat) (reportedBy : Uuid) (now : Nat) : Except Failure Db :=
  match db.obligation? obligationId with
  | none => .error .notFound
  | some o =>
    if o.status ≠ .open then .error (.billing 409 "cash_return_not_open")
    else if ¬ (o.cashCollectedAt ≤ returnedAt ∧ (db.effectiveTime o.assistanceRequestId .cashCollectedAt).any (· ≤ returnedAt) ∧
        returnedAt ≤ now) then .error (.billing 422 "cash_return_time_invalid")
    else db.updateObligation o .return_reported (some (returnedAt, now, reportedBy))

def confirmReturn (db : Db) (obligationId : Uuid) : Except Failure Db :=
  match db.obligation? obligationId with
  | none => .error .notFound
  | some o =>
    match db.request? o.assistanceRequestId with
    | none => .error .notFound
    | some r =>
      if o.status = .open then .error (.billing 409 "cash_return_not_reported")
      else if o.status ≠ .return_reported then .error (.billing 409 "cash_return_already_confirmed")
      else if db.disputed r.id then .error (.billing 409 "assistance_dispute_open")
      else do
        let db ← db.updateObligation o .confirmed_returned o.report
        db.updateRequest r .returned r.collection none

def openDispute (db : Db) (requestId : Uuid) (reasonCode : DisputeReason) (id : Uuid) (now : Nat) : Except Failure Db :=
  match db.request? requestId with
  | none => .error .notFound
  | some r =>
    let o := db.currentObligation requestId
    if ¬ r.status.collected ∨ (reasonCode = .cash_not_returned ∧ o.isNone) ∨
        (reasonCode = .return_time_incorrect ∧ (o.bind Obligation.report).isNone) then .error (.billing 409 "dispute_not_permitted")
    else if db.disputed requestId then .error (.billing 409 "assistance_dispute_open")
    else db.insertDispute ⟨id, requestId, reasonCode, now, none⟩

def resolve (db : Db) (disputeId correctionId : Uuid) : Except Failure Db :=
  match db.disputes.find? fun d => d.id = disputeId with
  | none => .error .notFound
  | some d =>
    if d.resolution ≠ none then .error (.billing 409 "assistance_dispute_not_open") else db.resolveDispute d correctionId

/-! ## Late settlements -/

/-- The late assisted settlement of an eligible late success; a second one of the invoice is none. -/
def classifyLateSettlement (db : Db) (lateSuccessId id : Uuid) : Except Failure Db :=
  match db.lateSuccess? lateSuccessId with
  | none => .error .notFound
  | some l =>
    match db.paymentRequest? l.paymentRequestId with
    | none => .error .notFound
    | some pr =>
      match (db.invoice? pr.invoiceId).bind fun i => i.routing.bind fun e => e.assistanceRequestId.map fun a => (i, a) with
      | none => .ok db
      | some (i, assistanceRequestId) =>
        if l.factId = none ∨ ¬ l.paymentStatus.endedAs pr.status ∨ l.amount ≠ i.total ∨ l.currency ≠ i.currency then .ok db
        else if (¬ db.channels.any fun c => c.invoiceId = i.id ∧ c.assistanceRequestId = assistanceRequestId ∧
            c.paymentRequestId = some pr.id ∧ c.status = .closed) ∨ db.lateSettlements.any fun s => s.invoiceId = i.id then .ok db
        else db.insertLateSettlement ⟨id, assistanceRequestId, i.id, pr.id, .lateSuccess lateSuccessId, .channel_closed, l.recordedAt⟩

inductive ReasonCode
  | cash_not_returned_attested | cash_not_returned_evidenced

structure ApplicationInput where
  reasonCode : ReasonCode
  grantIds : List Uuid
  captureFactId : Uuid

def ApplicationInput.reason (input : ApplicationInput) (db : Db) (l : LateSettlement) : Option ApplicationReason :=
  match input.reasonCode with
  | .cash_not_returned_evidenced => some .cash_not_returned_evidenced
  | .cash_not_returned_attested =>
    (db.attestations.find? fun t => t.lateSettlementId = l.id ∧ t.statement = .cash_not_returned).map fun t =>
      .cash_not_returned_attested t.id

def Db.insertEvidence (db : Db) (applicationId lateSettlementId : Uuid) (grantIds : List Uuid) : Except Failure Db :=
  if ¬ grantIds.Nodup ∨ db.evidence.any fun e => e.grantId ∈ grantIds then .error (.refused "late_settlement_evidence_grant_unique")
  else .ok { db with evidence := db.evidence ++ grantIds.map fun g => ⟨applicationId, lateSettlementId, g⟩ }

def payLate (db : Db) (l : LateSettlement) (i : Invoice) : Except Failure Db :=
  match l.evidence with
  | .receipt _ => .ok db
  | .lateSuccess _ =>
    if i.status ≠ .open then .error (.billing 409 "request_not_settleable") else db.payInvoice i l.settledAt

def settleChannel (db : Db) (invoiceId : Uuid) : Except Failure Db :=
  match db.channels.find? fun c => c.invoiceId = invoiceId ∧ active c.status with
  | none => .ok db
  | some c => db.updateChannel c .settled

def supersede (db : Db) (live : Option Obligation) (applicationId : Uuid) : Except Failure Db :=
  match live with
  | none => .ok db
  | some o => db.updateObligation o (.superseded_by_settlement applicationId) o.report

/-- `applyIn`, with the commit check of its application. -/
def applyIn (db : Db) (lateSettlementId : Uuid) (input : ApplicationInput) (applicationId purchaseId : Uuid) (now : Nat) :
    Except Failure Db :=
  match db.lateSettlements.find? fun l => l.id = lateSettlementId with
  | none => .error .notFound
  | some l =>
    match db.request? l.assistanceRequestId, db.invoice? l.invoiceId, input.reason db l with
    | some r, some i, some reason => do
      let live := db.live r.id
      let a : Application := ⟨applicationId, l.id, r.id, reason, live.map Obligation.id, some input.captureFactId, l.settledAt, now⟩
      let db ← db.insertApplication a
      let db ← db.insertEvidence applicationId l.id input.grantIds
      let db ← supersede db live applicationId
      match recurringLines i (some r.productId) with
      | [line] =>
        let db ← payLate db l i
        let db ← db.recordPurchase ⟨purchaseId, r.id, r.beneficiaryRef, r.productId, line.priceId, i.id, l.paymentRequestId, l.evidence,
          l.settledAt, some now⟩
        if ¬ db.purchases.any fun p => p.invoiceId = i.id ∧ p.appliedAt = some now then .error (.billing 409 "purchase_exists")
        else
          let db ← settleChannel db i.id
          let db ← db.updateRequest r .settled r.collection none
          db.applicationCommits a
      | _ => .error (.billing 409 "request_not_settleable")
    | _, _, _ => .error (.refused "late_settlement_evidence_insufficient")

/-! ## Refunds -/

def contradiction (reason : String) : Except Failure Db := .error (.error reason)

def assisted (db : Db) (c : RefundCase) (p : Purchase) (obligationId : Uuid) (now : Nat) : Except Failure Db :=
  match db.request? p.assistanceRequestId with
  | none => contradiction "request_missing"
  | some r =>
    if c.organizationId ≠ some r.organizationId ∨ p.beneficiaryUserId ≠ r.beneficiaryRef then contradiction "request_mismatch"
    else if r.status ≠ .settled then contradiction "request_not_settled"
    else if db.obligations.any fun o => o.assistanceRequestId = r.id ∧ ¬ o.status.superseded then contradiction "obligation_exists"
    else if db.reversed p.id then contradiction "assisted_purchase_already_reversed"
    else
      match r.collection with
      | none => contradiction "request_not_settled"
      | some k => do
        let db ← db.insertReversal ⟨p.id, .refund_completion⟩
        let db ← db.insertObligation ⟨obligationId, r.id, .refund_completion c.id, r.terms.totalAmount, r.terms.currency,
          k.cashCollectedAt, now, .open, none⟩ now
        .ok { db with effects := db.effects ++ [c.id] }

def applyRefundEffect (db : Db) (refundCaseId obligationId : Uuid) (now : Nat) : Except Failure Db :=
  match db.refundCases.find? fun c => c.id = refundCaseId with
  | none => contradiction "case_not_completed"
  | some c =>
    if c.id ∈ db.effects then .ok db
    else
      match db.completions.find? fun k => k.refundCaseId = c.id with
      | none => contradiction "case_not_completed"
      | some k =>
        if c.status ≠ .completed then contradiction "case_not_completed"
        else if k.paymentId ≠ c.paymentId ∨ k.approvedAmount ≠ c.amount ∨ k.currency ≠ c.currency then contradiction "completion_mismatch"
        else
          match c.eligibility with
          | .personal_purchase purchaseId =>
            match db.purchases.find? fun p => p.id = purchaseId with
            | none => contradiction "purchase_mismatch"
            | some p =>
              if p.paymentRequestId ≠ c.paymentRequestId ∨ p.invoiceId ≠ c.invoiceId then contradiction "purchase_mismatch"
              else if ¬ (db.invoices.any fun i => i.id = c.invoiceId ∧ i.seller = ⟨"company", toString c.companyId⟩) then
                contradiction "seller_mismatch"
              else assisted db c p obligationId now
          | .late_assisted_settlement lateSettlementId =>
            if ¬ db.lateSettlements.any fun l => l.id = lateSettlementId ∧ l.invoiceId = c.invoiceId ∧ l.paymentRequestId = c.paymentRequestId then
              contradiction "basis_mismatch"
            else if db.purchases.any fun p => p.invoiceId = c.invoiceId then contradiction "late_settlement_has_purchase"
            else .ok { db with effects := db.effects ++ [c.id] }
          | _ => .ok { db with effects := db.effects ++ [c.id] }

/-! ## The system -/

inductive Record
  | lateSuccess (l : LateSuccess)
  | otherEffect (lateSuccessId : Uuid)
  | refundCase (c : RefundCase)
  | completion (k : RefundCompletion)
  | cancellation (refundCaseId : Uuid)
  | relay (refundCaseId : Uuid)
  | loss (paymentRequestId : Uuid)
  | reversal (purchaseId : Uuid)

def Db.closeCase (db : Db) (refundCaseId : Uuid) (status : Losses.RefundCaseStatus) (completions : List RefundCompletion) : Except Failure Db :=
  match db.refundCases.find? fun c => c.id = refundCaseId with
  | none => .error .notFound
  | some c =>
    if c.status ≠ .open then .error (.refused "refund_case_not_open")
    else .ok { db with
      refundCases := replaceRow RefundCase.id { c with status } db.refundCases
      completions := db.completions ++ completions }

def Db.record (db : Db) : Record → Except Failure Db
  | .lateSuccess l =>
    if db.lateSuccesses.any fun x => x.lateSuccessId = l.lateSuccessId then .error (.refused "payment_late_success_pkey")
    else .ok { db with lateSuccesses := db.lateSuccesses ++ [l] }
  | .otherEffect id =>
    if db.lateSettlements.any fun l => l.evidence = .lateSuccess id then .error (.refused "late_success_one_effect")
    else .ok { db with otherEffects := db.otherEffects ++ [id] }
  | .refundCase c =>
    if c.status ≠ .open ∨ db.refundCases.any fun x => x.id = c.id then .error (.refused "refund_case_created_open")
    else .ok { db with refundCases := db.refundCases ++ [c] }
  | .completion k => db.closeCase k.refundCaseId .completed [k]
  | .cancellation id => db.closeCase id .cancelled []
  | .relay id => .ok { db with relays := db.relays ++ [id] }
  | .loss id => .ok { db with losses := db.losses ++ [id] }
  | .reversal id => db.insertReversal ⟨id, .final_lost_chargeback⟩

inductive Action
  | create (input : AssistanceCreateInput) (offering : Option Offering) (id : Uuid) (now : Nat)
  | decline (id : Uuid)
  | reportCashCollection (id : Uuid) (cashCollectedAt : Nat) (reportedBy : Uuid) (feeCap : Option Int) (now : Nat)
  | settle (id : Uuid) (companyId : Option Uuid) (invoiceId paymentRequestId : Uuid) (now : Nat)
  | movePaymentRequest (id : Uuid) (m : RequestMove)
  | paymentEvent (requireLive : Bool) (eventId : Uuid) (event : PaymentEventFacts) (settledAt now : Nat) (fresh : FreshIds)
  | sweep (requestId obligationId : Uuid) (now : Nat)
  | reportReturn (obligationId : Uuid) (returnedAt : Nat) (reportedBy : Uuid) (now : Nat)
  | confirmReturn (obligationId : Uuid)
  | openDispute (requestId : Uuid) (reasonCode : DisputeReason) (id : Uuid) (now : Nat)
  | correct (c : Correction)
  | resolve (disputeId correctionId : Uuid)
  | attest (a : Attestation) (beneficiaryUserId : Uuid)
  | classifyLateSettlement (lateSuccessId id : Uuid)
  | apply (lateSettlementId : Uuid) (input : ApplicationInput) (applicationId purchaseId : Uuid) (now : Nat)
  | refundEffect (refundCaseId obligationId : Uuid) (now : Nat)
  | record (r : Record)

def Action.run (db : Db) : Action → Except Failure Db
  | .create input offering id now => Assistance.create db input offering id now
  | .decline id => Assistance.decline db id
  | .reportCashCollection id t by' cap now => Assistance.reportCashCollection db id t by' cap now
  | .settle id companyId invoiceId paymentRequestId now => Assistance.settle db id companyId invoiceId paymentRequestId now
  | .movePaymentRequest id m => Assistance.movePaymentRequest db id m
  | .paymentEvent live eventId event settledAt now fresh => applyPaymentEvent db live eventId event settledAt now fresh
  | .sweep requestId obligationId now => openOne db requestId obligationId now
  | .reportReturn id t by' now => Assistance.reportReturn db id t by' now
  | .confirmReturn id => Assistance.confirmReturn db id
  | .openDispute requestId reason id now => Assistance.openDispute db requestId reason id now
  | .correct c => db.insertCorrection c
  | .resolve disputeId correctionId => Assistance.resolve db disputeId correctionId
  | .attest a beneficiaryUserId => db.insertAttestation a beneficiaryUserId
  | .classifyLateSettlement lateSuccessId id => Assistance.classifyLateSettlement db lateSuccessId id
  | .apply id input applicationId purchaseId now => applyIn db id input applicationId purchaseId now
  | .refundEffect refundCaseId obligationId now => applyRefundEffect db refundCaseId obligationId now
  | .record r => db.record r

def step (db : Db) (a : Action) : Db :=
  match a.run db with
  | .ok db' => db'
  | .error _ => db

def run (db : Db) (actions : List Action) : Db := actions.foldl step db

end NawaraCore.Assistance
