import NawaraCore.Reconciliation.LateSuccess

/-!
# Assistance requests

The tables of an assisted settlement and the triggers that guard their writes (migrations
0029 to 0031, 0036, 0040, 0043, 0044 and 0047): requests, settlement channels, purchases,
cash-return obligations, late settlements and their applications, disputes and corrections.
A write of another component that a guard reads is a row of its own table.
-/

namespace NawaraCore.Assistance

open Subscriptions (Uuid)
open PaymentRequests (PaymentRequest Invoice Receipt Failure LateReason MAX_SAFE_INTEGER)
open Recovery (Evidence)
open Reconciliation (Channel ChannelStatus LateSuccess RefundCase)

/-! ## Rows -/

/-- `interval '72 hours'`, in microseconds. -/
def SETTLE_WITHIN : Nat := 72 * 3600 * 1000000

/-- The terms frozen at creation, with `assistance_request_amounts`. -/
structure Terms where
  currency : String
  baseAmount : Int
  feeAmount : Int
  totalAmount : Int
  amounts : 0 < baseAmount ∧ 0 ≤ feeAmount ∧ totalAmount = baseAmount + feeAmount ∧ totalAmount ≤ MAX_SAFE_INTEGER

/-- The collection evidence, with `assistance_request_settle_by`. -/
structure Collection where
  cashCollectedAt : Nat
  reportedAt : Nat
  reportedBy : Uuid
  settleBy : Nat
  deadline : settleBy = cashCollectedAt + SETTLE_WITHIN
deriving DecidableEq

inductive RequestStatus
  | pending | declined | cash_collected | settled | returned
deriving DecidableEq

def RequestStatus.collected : RequestStatus → Bool
  | .cash_collected | .settled | .returned => true
  | .pending | .declined => false

structure AssistanceRequest where
  id : Uuid
  beneficiaryUserId : Uuid
  organizationId : Uuid
  platformId : Uuid
  productId : Uuid
  priceId : Uuid
  terms : Terms
  consentAt : Nat
  status : RequestStatus
  collection : Option Collection

def AssistanceRequest.beneficiaryRef (r : AssistanceRequest) : String := toString r.beneficiaryUserId

structure LateSettlement where
  id : Uuid
  assistanceRequestId : Uuid
  invoiceId : Uuid
  paymentRequestId : Uuid
  evidence : Evidence
  reason : LateReason
  settledAt : Nat

inductive Statement
  | cash_not_returned | cash_returned
deriving DecidableEq

structure Attestation where
  id : Uuid
  lateSettlementId : Uuid
  statement : Statement

/-- `reasonCode` with its `attestationId`. -/
inductive ApplicationReason
  | cash_not_returned_attested (attestationId : Uuid)
  | cash_not_returned_evidenced
deriving DecidableEq

structure Application where
  id : Uuid
  lateSettlementId : Uuid
  assistanceRequestId : Uuid
  reason : ApplicationReason
  obligationId : Option Uuid
  captureFactId : Option Uuid
  settledAt : Nat
  appliedAt : Nat

structure GrantedEvidence where
  applicationId : Uuid
  lateSettlementId : Uuid
  grantId : Uuid

/-- An assisted row of `subscription_purchase`. -/
structure Purchase where
  id : Uuid
  assistanceRequestId : Uuid
  beneficiaryUserId : String
  productId : Uuid
  priceId : Uuid
  invoiceId : Uuid
  paymentRequestId : Uuid
  evidence : Evidence
  settledAt : Nat
  appliedAt : Option Nat

inductive ReversalCause
  | refund_completion | final_lost_chargeback

structure Reversal where
  purchaseId : Uuid
  cause : ReversalCause

/-- `origin` with its `refundCaseId`. -/
inductive Origin
  | deadline
  | refund_completion (refundCaseId : Uuid)
deriving DecidableEq

inductive ObligationStatus
  | open
  | return_reported
  | confirmed_returned
  | superseded_by_settlement (applicationId : Uuid)
deriving DecidableEq

def ObligationStatus.live : ObligationStatus → Bool
  | .open | .return_reported => true
  | .confirmed_returned | .superseded_by_settlement _ => false

def ObligationStatus.superseded : ObligationStatus → Bool
  | .superseded_by_settlement _ => true
  | _ => false

/-- A row of `cash_return_obligation`; `report` is `returnedAt`, `returnReportedAt` and `returnReportedBy`. -/
structure Obligation where
  id : Uuid
  assistanceRequestId : Uuid
  origin : Origin
  amount : Int
  currency : String
  cashCollectedAt : Nat
  openedAt : Nat
  status : ObligationStatus
  report : Option (Nat × Nat × Uuid)

inductive DisputeReason
  | cash_not_returned | collection_not_made | collection_time_incorrect | return_time_incorrect
deriving DecidableEq

structure Dispute where
  id : Uuid
  assistanceRequestId : Uuid
  reasonCode : DisputeReason
  openedAt : Nat
  resolution : Option Uuid

inductive CorrectableField
  | cashCollectedAt | returnedAt
deriving DecidableEq

structure Correction where
  id : Uuid
  assistanceRequestId : Uuid
  field : CorrectableField
  correctedValue : Nat
  correctedBy : Uuid
  correctedAt : Nat

structure RefundCompletion where
  refundCaseId : Uuid
  paymentId : Uuid
  approvedAmount : Int
  currency : String

/-- Corrections stand in the order of their `sequence`; `relays` and `losses` are what an application reads of refunds
and chargebacks, `otherEffects` the late successes with an effect of another kind. -/
structure Db where
  requests : List AssistanceRequest
  channels : List Channel
  invoices : List Invoice
  paymentRequests : List PaymentRequest
  receipts : List Receipt
  lateSuccesses : List LateSuccess
  otherEffects : List Uuid
  lateSettlements : List LateSettlement
  attestations : List Attestation
  applications : List Application
  evidence : List GrantedEvidence
  purchases : List Purchase
  reversals : List Reversal
  obligations : List Obligation
  disputes : List Dispute
  corrections : List Correction
  refundCases : List RefundCase
  completions : List RefundCompletion
  effects : List Uuid
  relays : List Uuid
  /-- The payment requests with a row of `payment_dispute_loss`. -/
  losses : List Uuid

def Db.empty : Db := ⟨[], [], [], [], [], [], [], [], [], [], [], [], [], [], [], [], [], [], [], [], []⟩

/-- `open` or `uncertain`. -/
def active : ChannelStatus → Bool
  | .open | .uncertain => true
  | .settled | .closed => false

section
variable (db : Db) (requestId : Uuid)

def Db.request? : Option AssistanceRequest := db.requests.find? fun r => r.id = requestId

def Db.purchased : Bool := db.purchases.any fun p => p.assistanceRequestId = requestId

def Db.channelActive : Bool := db.channels.any fun c => c.assistanceRequestId = requestId ∧ active c.status

def Db.obliged : Bool := db.obligations.any fun o => o.assistanceRequestId = requestId

def Db.live : Option Obligation := db.obligations.find? fun o => o.assistanceRequestId = requestId ∧ o.status.live

def Db.confirmed : Bool :=
  db.obligations.any fun o => o.assistanceRequestId = requestId ∧ o.status = .confirmed_returned

def Db.disputed : Bool := db.disputes.any fun d => d.assistanceRequestId = requestId ∧ d.resolution = none

def Obligation.later (a b : Obligation) : Obligation :=
  if a.openedAt < b.openedAt ∨ (a.openedAt = b.openedAt ∧ a.id < b.id) then b else a

def Db.currentObligation : Option Obligation :=
  (db.obligations.filter fun o => o.assistanceRequestId = requestId ∧ ¬ o.status.superseded).foldl
    (fun best o => some (best.elim o fun b => b.later o)) none

def Db.effectiveTime (field : CorrectableField) : Option Nat :=
  match (db.corrections.filter fun c => c.assistanceRequestId = requestId ∧ c.field = field).getLast? with
  | some c => some c.correctedValue
  | none =>
    match field with
    | .cashCollectedAt => ((db.request? requestId).bind AssistanceRequest.collection).map Collection.cashCollectedAt
    | .returnedAt => ((db.currentObligation requestId).bind Obligation.report).map fun (returnedAt, _) => returnedAt

end

def Db.invoice? (db : Db) (id : Uuid) : Option Invoice := db.invoices.find? fun i => i.id = id

def Db.paymentRequest? (db : Db) (id : Uuid) : Option PaymentRequest := db.paymentRequests.find? fun r => r.id = id

def Db.lateSuccess? (db : Db) (id : Uuid) : Option LateSuccess := db.lateSuccesses.find? fun l => l.lateSuccessId = id

def Db.reversed (db : Db) (purchaseId : Uuid) : Bool := db.reversals.any fun v => v.purchaseId = purchaseId

/-! ## Requests -/

def AssistanceRequest.unresolved (r : AssistanceRequest) : Bool :=
  match r.status with
  | .pending | .cash_collected => true
  | .declined | .settled | .returned => false

def Db.insertRequest (db : Db) (r : AssistanceRequest) : Except Failure Db :=
  if r.status ≠ .pending ∨ r.collection ≠ none then .error (.refused "assistance_request_created_pending")
  else if db.requests.any fun x => x.id = r.id then .error (.refused "assistance_request_pkey")
  else if db.requests.any fun x => x.unresolved ∧ x.beneficiaryUserId = r.beneficiaryUserId ∧ x.organizationId = r.organizationId ∧
      x.productId = r.productId then .error (.refused "assistance_request_unresolved_unique")
  else .ok { db with requests := db.requests ++ [r] }

/-- `billing_assistance_request_transition_guard`; `feeCap` is the Platform's current cap. -/
def Db.requestTransition (db : Db) (old : AssistanceRequest) (status : RequestStatus) (collection : Option Collection)
    (feeCap : Option Int) : Except Failure Unit :=
  match old.status, status with
  | .settled, .returned =>
    if ¬ db.obligations.any fun o => o.assistanceRequestId = old.id ∧ o.status = .confirmed_returned ∧ o.origin ≠ .deadline then
      .error (.refused "assistance_request_returned_by_confirmation")
    else if collection ≠ old.collection then .error (.refused "assistance_request_collection_immutable")
    else .ok ()
  | .cash_collected, .settled =>
    if ¬ db.purchased old.id then .error (.refused "assistance_request_settled_by_purchase")
    else if collection ≠ old.collection then .error (.refused "assistance_request_collection_immutable")
    else .ok ()
  | .cash_collected, .returned =>
    if ¬ db.confirmed old.id then .error (.refused "assistance_request_returned_by_confirmation")
    else if collection ≠ old.collection then .error (.refused "assistance_request_collection_immutable")
    else .ok ()
  | .pending, .declined => .ok ()
  | .pending, .cash_collected =>
    if feeCap.getD 0 < old.terms.feeAmount then .error (.refused "assistance_request_fee_not_usable") else .ok ()
  | _, _ => .error (.refused "assistance_request_not_pending")

/-- An `UPDATE assistance_request`; its other columns are immutable. -/
def Db.updateRequest (db : Db) (old : AssistanceRequest) (status : RequestStatus) (collection : Option Collection)
    (feeCap : Option Int) : Except Failure Db :=
  match db.requestTransition old status collection feeCap with
  | .error e => .error e
  | .ok () =>
    if collection.isSome ≠ status.collected then .error (.refused "assistance_request_cash_shape")
    else if collection.any fun c => ¬ (old.consentAt ≤ c.cashCollectedAt ∧ c.cashCollectedAt ≤ c.reportedAt) then
      .error (.refused "assistance_request_cash_time_order")
    else .ok { db with requests := replaceRow AssistanceRequest.id { old with status, collection } db.requests }

/-! ## Channels -/

def Db.insertChannel (db : Db) (requestId invoiceId : Uuid) (now : Nat) : Except Failure Db :=
  match db.request? requestId with
  | none => .error (.refused "assistance_request_not_settleable")
  | some r =>
    if r.status ≠ .cash_collected ∨ (r.collection.any fun c => c.settleBy < now) ∨ db.purchased requestId ∨ db.obliged requestId then
      .error (.refused "assistance_request_not_settleable")
    else if db.channels.any fun c => c.invoiceId = invoiceId then .error (.refused "assistance_settlement_channel_invoice_unique")
    else if db.channelActive requestId then .error (.refused "assistance_settlement_channel_active_unique")
    else .ok { db with channels := db.channels ++ [⟨invoiceId, requestId, none, .open⟩] }

def unsuccessful : PaymentRequests.PaymentRequestStatus → Bool
  | .failed | .cancelled | .expired | .rejected => true
  | _ => false

/-- `billing_assistance_channel_update_guard` on a status that changes. -/
def Db.channelTransition (db : Db) (c : Channel) (status : ChannelStatus) : Except Failure Unit :=
  if ¬ active c.status then .error (.refused "assistance_settlement_channel_transition")
  else if status = .closed ∧ ¬ (db.paymentRequests.any fun r => some r.id = c.paymentRequestId ∧ unsuccessful r.status) then
    .error (.refused "assistance_settlement_channel_closed_final")
  else if status = .settled ∧ ¬ (db.purchases.any fun p => p.invoiceId = c.invoiceId) then
    .error (.refused "assistance_settlement_channel_settled_purchase")
  else .ok ()

def Db.updateChannel (db : Db) (c : Channel) (status : ChannelStatus) : Except Failure Db :=
  if status = c.status then .ok db
  else (db.channelTransition c status).map fun _ =>
    { db with channels := replaceRow Channel.invoiceId { c with status } db.channels }

def Db.bindChannel (db : Db) (invoiceId paymentRequestId : Uuid) : Except Failure Db :=
  match db.channels.find? fun c => c.invoiceId = invoiceId with
  | none => .ok db
  | some c =>
    if c.paymentRequestId ≠ none then .error (.refused "assistance_settlement_channel_immutable")
    else if db.channels.any fun x => x.paymentRequestId = some paymentRequestId then
      .error (.refused "assistance_settlement_channel_payment_request_unique")
    else .ok { db with channels := replaceRow Channel.invoiceId { c with paymentRequestId := some paymentRequestId } db.channels }

/-- The channel status that follows the status of the payment request; `paid` leaves it as it is. -/
def followed : PaymentRequests.PaymentRequestStatus → Option ChannelStatus
  | .created | .requested => some .open
  | .sending => some .uncertain
  | .paid => none
  | .failed | .cancelled | .expired | .rejected => some .closed

def Db.followRequest (db : Db) (r : PaymentRequest) : Except Failure Db :=
  match followed r.status, db.channels.find? fun c => c.paymentRequestId = some r.id ∧ active c.status with
  | some status, some c => db.updateChannel c status
  | _, _ => .ok db

def Db.updatePaymentRequest (db : Db) (old new : PaymentRequest) : Except Failure Db := do
  match db.invoice? old.invoiceId with
  | none => .error .notFound
  | some i =>
    let taken := (db.paymentRequests.filter fun r => r.id ≠ old.id).filterMap PaymentRequest.paymentId
    let updated ← PaymentRequests.updateRequest i.status taken old new
    let db := { db with paymentRequests := replaceRow PaymentRequest.id updated db.paymentRequests }
    if updated.status = old.status then .ok db else db.followRequest updated

/-! ## Purchases -/

/-- `billing_subscription_purchase_insert_guard`: the settlement that evidences the purchase. -/
def Db.purchaseVerified (db : Db) (p : Purchase) : Bool :=
  match p.evidence with
  | .lateSuccess lateSuccessId =>
    db.lateSuccesses.any fun s => s.lateSuccessId = lateSuccessId ∧ s.factId.isSome ∧ s.paymentRequestId = p.paymentRequestId ∧
      p.settledAt = s.recordedAt ∧
      (db.lateSettlements.any fun l => l.evidence = .lateSuccess lateSuccessId ∧ l.invoiceId = p.invoiceId ∧
        l.paymentRequestId = p.paymentRequestId) ∧
      (db.paymentRequests.any fun pr => pr.id = p.paymentRequestId ∧ pr.invoiceId = p.invoiceId ∧ s.paymentStatus.endedAs pr.status) ∧
      db.invoices.any fun i => i.id = p.invoiceId ∧ i.status = .paid ∧ i.total = s.amount ∧ i.currency = s.currency
  | .receipt receiptId =>
    (db.receipts.any fun r => r.id = receiptId ∧ r.outcome = .applied ∧ r.eventName = .succeeded ∧ r.paymentRequestId = p.paymentRequestId) ∧
      (db.paymentRequests.any fun pr => pr.id = p.paymentRequestId ∧ pr.invoiceId = p.invoiceId ∧ pr.status = .paid) ∧
      db.invoices.any fun i => i.id = p.invoiceId ∧ i.status = .paid

def Db.applicationOf (db : Db) (p : Purchase) (appliedAt : Nat) : Bool :=
  db.applications.any fun a => a.assistanceRequestId = p.assistanceRequestId ∧ a.appliedAt = appliedAt ∧ a.settledAt = p.settledAt ∧
    db.lateSettlements.any fun l => l.id = a.lateSettlementId ∧ l.invoiceId = p.invoiceId ∧ l.evidence = p.evidence

def Db.assistedApplicable (db : Db) (p : Purchase) : Bool :=
  match db.request? p.assistanceRequestId with
  | none => false
  | some r =>
    match p.appliedAt with
    | some appliedAt => r.status = .cash_collected ∧ (db.live r.id).isNone ∧ db.applicationOf p appliedAt
    | none =>
      r.status = .cash_collected ∧ ¬ db.obliged r.id ∧
        db.channels.any fun c => c.invoiceId = p.invoiceId ∧ c.assistanceRequestId = r.id ∧ active c.status

def Db.recordPurchase (db : Db) (p : Purchase) : Except Failure Db :=
  if ¬ db.assistedApplicable p then .error (.refused "subscription_purchase_assisted_applicable")
  else if ¬ db.purchaseVerified p then .error (.refused "subscription_purchase_verified")
  else if ¬ (db.invoices.any fun i => i.id = p.invoiceId ∧ i.lines.any fun l => l.priceId = p.priceId ∧ l.productId = p.productId) then
    .error (.refused "subscription_purchase_line")
  else if p.appliedAt.any fun t => t < p.settledAt then .error (.refused "subscription_purchase_applied")
  else if db.purchases.any fun q => q.id = p.id ∨ q.invoiceId = p.invoiceId ∨ q.evidence = p.evidence ∨
      q.assistanceRequestId = p.assistanceRequestId then .ok db
  else if ¬ (db.invoices.any fun i => i.id = p.invoiceId ∧
      i.routing.bind PaymentRequests.Routing.assistanceRequestId = some p.assistanceRequestId) then
    .error (.refused "subscription_purchase_assistance_fk")
  else .ok { db with purchases := db.purchases ++ [p] }

def Db.insertReversal (db : Db) (v : Reversal) : Except Failure Db :=
  if ¬ db.purchases.any fun p => p.id = v.purchaseId then .error (.refused "subscription_purchase_reversal_purchase_fk")
  else if db.reversed v.purchaseId then .error (.refused "subscription_purchase_reversal_pkey")
  else .ok { db with reversals := db.reversals ++ [v] }

/-! ## Cash-return obligations -/

def Db.refundDue (db : Db) (r : AssistanceRequest) (refundCaseId : Uuid) : Bool :=
  db.refundCases.any fun c => c.id = refundCaseId ∧ c.status = .completed ∧ c.organizationId = some r.organizationId ∧
    (db.completions.any fun k => k.refundCaseId = c.id) ∧
    db.purchases.any fun p => c.eligibility = .personal_purchase p.id ∧ db.reversed p.id ∧ p.assistanceRequestId = r.id ∧
      p.beneficiaryUserId = r.beneficiaryRef

/-- `billing_cash_return_obligation_insert_guard` and the unique indexes. -/
def Db.insertObligation (db : Db) (o : Obligation) (now : Nat) : Except Failure Db :=
  match db.request? o.assistanceRequestId with
  | none => .error (.refused "cash_return_obligation_request_fk")
  | some r =>
    if o.status ≠ .open ∨ o.report ≠ none then .error (.refused "cash_return_obligation_created_open")
    else if (db.live r.id).isSome then .error (.refused "cash_return_obligation_live_exists")
    else
      let due : Except Failure Unit := match o.origin with
        | .refund_completion refundCaseId =>
          if r.status ≠ .settled ∨ ¬ db.refundDue r refundCaseId then .error (.refused "cash_return_obligation_refund_not_due")
          else .ok ()
        | .deadline =>
          if r.status ≠ .cash_collected ∨ ¬ (r.collection.any fun c => c.settleBy < now) ∨ db.purchased r.id ∨ db.obliged r.id ∨
              db.channelActive r.id then .error (.refused "cash_return_obligation_not_due")
          else .ok ()
      match due with
      | .error e => .error e
      | .ok () =>
        if o.amount ≠ r.terms.totalAmount ∨ o.currency ≠ r.terms.currency ∨ some o.cashCollectedAt ≠ r.collection.map Collection.cashCollectedAt then
          .error (.refused "cash_return_obligation_terms")
        else if db.obligations.any fun x => x.id = o.id then .error (.refused "cash_return_obligation_pkey")
        else if o.origin ≠ .deadline ∧ db.obligations.any fun x => x.origin = o.origin then
          .error (.refused "cash_return_obligation_refund_case_unique")
        else .ok { db with obligations := db.obligations ++ [{ o with openedAt := now }] }

/-- `billing_cash_return_obligation_transition_guard`. -/
def Db.obligationTransition (db : Db) (old : Obligation) (status : ObligationStatus) : Except Failure Unit :=
  match old.status, status with
  | .superseded_by_settlement _, _ => .error (.refused "cash_return_not_open")
  | _, .superseded_by_settlement applicationId =>
    if old.status ≠ .open ∨ old.origin ≠ .deadline ∨
        ¬ (db.applications.any fun a => a.id = applicationId ∧ a.obligationId = some old.id) then
      .error (.refused "cash_return_obligation_supersession")
    else .ok ()
  | .open, .return_reported => .ok ()
  | .return_reported, .confirmed_returned =>
    if db.disputed old.assistanceRequestId then .error (.refused "assistance_dispute_open") else .ok ()
  | .open, _ => .error (.refused "cash_return_not_reported")
  | _, _ => .error (.refused "cash_return_not_open")

/-- An `UPDATE cash_return_obligation`; a confirmation keeps the report. -/
def Db.updateObligation (db : Db) (old : Obligation) (status : ObligationStatus) (report : Option (Nat × Nat × Uuid)) :
    Except Failure Db :=
  match db.obligationTransition old status with
  | .error e => .error e
  | .ok () =>
    if status ≠ .return_reported ∧ report ≠ old.report then .error (.refused "cash_return_obligation_report_immutable")
    else .ok { db with obligations := replaceRow Obligation.id { old with status, report } db.obligations }

/-! ## Late settlements -/

def Db.lateSettlementEligible (db : Db) (s : LateSettlement) (lateSuccessId : Uuid) : Bool :=
  match db.paymentRequest? s.paymentRequestId, db.lateSuccess? lateSuccessId with
  | some pr, some ls =>
    ls.paymentRequestId = pr.id ∧ pr.paymentId = some ls.paymentId ∧ pr.invoiceId = s.invoiceId ∧ ls.factId.isSome ∧
      ls.paymentStatus.endedAs pr.status ∧
      (db.channels.any fun c => c.invoiceId = s.invoiceId ∧ c.assistanceRequestId = s.assistanceRequestId ∧
        c.paymentRequestId = some pr.id ∧ c.status = .closed) ∧
      (db.invoices.any fun i => i.id = s.invoiceId ∧ i.total = ls.amount ∧ i.currency = ls.currency ∧
        i.routing.any fun e => e.purpose = "assisted_settlement" ∧ e.assistanceRequestId = some s.assistanceRequestId) ∧
      s.settledAt = ls.recordedAt
  | _, _ => false

def Db.insertLateSettlement (db : Db) (s : LateSettlement) : Except Failure Db :=
  let verified : Except Failure Unit := match s.evidence with
    | .receipt receiptId =>
      if (db.receipts.any fun r => r.id = receiptId ∧ r.outcome = .applied ∧ r.eventName = .succeeded ∧ r.paymentRequestId = s.paymentRequestId) ∧
          (db.paymentRequests.any fun pr => pr.id = s.paymentRequestId ∧ pr.invoiceId = s.invoiceId ∧ pr.status = .paid) ∧
          db.channels.any fun c => c.invoiceId = s.invoiceId ∧ c.assistanceRequestId = s.assistanceRequestId then .ok ()
      else .error (.refused "assistance_late_settlement_verified")
    | .lateSuccess lateSuccessId =>
      if ¬ db.lateSettlementEligible s lateSuccessId then .error (.refused "assistance_late_settlement_late_success")
      else if lateSuccessId ∈ db.otherEffects then .error (.refused "late_success_one_effect")
      else .ok ()
  match verified with
  | .error e => .error e
  | .ok () =>
    if db.lateSettlements.any fun x => x.id = s.id ∨ x.invoiceId = s.invoiceId ∨ x.evidence = s.evidence then
      .error (.refused "assistance_late_settlement_unique")
    else .ok { db with lateSettlements := db.lateSettlements ++ [s] }

/-- A refund case of the payment that is not cancelled or that ever relayed an authorization. -/
def Db.refundExists (db : Db) (paymentRequestId : Uuid) : Bool :=
  db.refundCases.any fun c => c.paymentRequestId = paymentRequestId ∧ (c.status ≠ .cancelled ∨ c.id ∈ db.relays)

def Db.lateSuccessStands (db : Db) (l : LateSettlement) : Bool :=
  match l.evidence with
  | .receipt _ => true
  | .lateSuccess lateSuccessId =>
    db.lateSuccesses.any fun s => s.lateSuccessId = lateSuccessId ∧ s.paymentRequestId = l.paymentRequestId ∧ s.factId.isSome ∧
      (db.paymentRequests.any fun pr => pr.id = s.paymentRequestId ∧ s.paymentStatus.endedAs pr.status) ∧
      db.channels.any fun c => c.invoiceId = l.invoiceId ∧ c.paymentRequestId = some l.paymentRequestId ∧ c.status = .closed

/-- The capture that an application relies on, with its guard and its unique index. -/
def Db.captureFits (db : Db) (l : LateSettlement) (captureFactId : Option Uuid) : Bool :=
  let own : Bool := match l.evidence with
    | .receipt _ => true
    | .lateSuccess lateSuccessId => (db.lateSuccess? lateSuccessId).bind LateSuccess.factId = captureFactId
  captureFactId.isSome ∧ own ∧ ¬ db.applications.any fun a => a.captureFactId = captureFactId

def Db.applicationGuard (db : Db) (l : LateSettlement) (r : AssistanceRequest) (a : Application) : Except Failure Unit :=
  let live := db.live r.id
  if l.assistanceRequestId ≠ r.id then .error (.refused "late_settlement_application_basis")
  else if db.purchased r.id then .error (.refused "late_settlement_purchase_exists")
  else if db.confirmed r.id then .error (.refused "late_settlement_cash_return_confirmed")
  else if r.status ≠ .cash_collected then .error (.refused "late_settlement_request_not_settleable")
  else if live.any fun o => o.status = .return_reported then .error (.refused "late_settlement_cash_return_reported")
  else if a.obligationId ≠ live.map Obligation.id ∨ (live.any fun o => o.origin ≠ .deadline) then
    .error (.refused "late_settlement_application_basis")
  else if db.disputed r.id then .error (.refused "late_settlement_dispute_open")
  else if db.channels.any fun c => c.assistanceRequestId = r.id ∧ c.invoiceId ≠ l.invoiceId ∧ active c.status then
    .error (.refused "late_settlement_channel_open")
  else if db.refundExists l.paymentRequestId then .error (.refused "late_settlement_refund_exists")
  else if l.paymentRequestId ∈ db.losses then .error (.refused "late_settlement_chargeback_recorded")
  else if ¬ db.lateSuccessStands l then .error (.refused "late_settlement_application_basis")
  else if db.attestations.any fun t => t.lateSettlementId = l.id ∧ t.statement = .cash_returned then
    .error (.refused "late_settlement_evidence_contradictory")
  else
    match a.reason with
    | .cash_not_returned_attested attestationId =>
      if db.attestations.any fun t => t.id = attestationId ∧ t.lateSettlementId = l.id ∧ t.statement = .cash_not_returned then .ok ()
      else .error (.refused "late_settlement_evidence_insufficient")
    | .cash_not_returned_evidenced => .ok ()

def Db.insertApplication (db : Db) (a : Application) : Except Failure Db :=
  match db.lateSettlements.find? fun l => l.id = a.lateSettlementId, db.request? a.assistanceRequestId with
  | some l, some r =>
    match db.applicationGuard l r a with
    | .error e => .error e
    | .ok () =>
      if ¬ db.captureFits l a.captureFactId then .error (.refused "late_settlement_application_capture")
      else if a.settledAt ≠ l.settledAt then .error (.refused "late_settlement_time_unavailable")
      else if a.appliedAt < a.settledAt then .error (.refused "late_settlement_application_order")
      else if db.applications.any fun x => x.id = a.id ∨ x.lateSettlementId = a.lateSettlementId ∨ x.assistanceRequestId = a.assistanceRequestId then
        .error (.refused "late_settlement_application_unique")
      else .ok { db with applications := db.applications ++ [a] }
  | _, _ => .error (.refused "late_settlement_application_basis")

def Db.applicationCommits (db : Db) (a : Application) : Except Failure Db :=
  if a.reason = .cash_not_returned_evidenced ∧ ¬ db.evidence.any fun e => e.applicationId = a.id then
    .error (.refused "late_settlement_evidence_insufficient")
  else if (db.lateSettlements.any fun l => l.id = a.lateSettlementId ∧ (db.invoices.any fun i => i.id = l.invoiceId ∧ i.status = .paid) ∧
        db.purchases.any fun p => p.invoiceId = l.invoiceId ∧ p.assistanceRequestId = a.assistanceRequestId ∧ p.appliedAt = some a.appliedAt) ∧
      (db.requests.any fun r => r.id = a.assistanceRequestId ∧ r.status = .settled) ∧
      (a.obligationId.all fun id => db.obligations.any fun o => o.id = id ∧ o.status = .superseded_by_settlement a.id) then .ok db
  else .error (.refused "late_settlement_application_atomic")

/-! ## Disputes and corrections -/

def Db.insertDispute (db : Db) (d : Dispute) : Except Failure Db :=
  match db.request? d.assistanceRequestId with
  | none => .error (.refused "assistance_dispute_not_permitted")
  | some r =>
    let o := db.currentObligation r.id
    if d.resolution ≠ none then .error (.refused "assistance_dispute_created_open")
    else if ¬ r.status.collected ∨ (d.reasonCode = .cash_not_returned ∧ o.isNone) ∨
        (d.reasonCode = .return_time_incorrect ∧ (o.bind Obligation.report).isNone) then
      .error (.refused "assistance_dispute_not_permitted")
    else if db.disputes.any fun x => x.id = d.id then .error (.refused "assistance_dispute_pkey")
    else if db.disputed r.id then .error (.refused "assistance_dispute_open_unique")
    else .ok { db with disputes := db.disputes ++ [d] }

def DisputeReason.field : DisputeReason → Option CorrectableField
  | .collection_time_incorrect => some .cashCollectedAt
  | .return_time_incorrect => some .returnedAt
  | .cash_not_returned | .collection_not_made => none

def Db.resolveDispute (db : Db) (d : Dispute) (correctionId : Uuid) : Except Failure Db :=
  if d.resolution ≠ none then .error (.refused "assistance_dispute_not_open")
  else if ¬ db.corrections.any fun c => c.id = correctionId ∧ c.assistanceRequestId = d.assistanceRequestId ∧ d.openedAt ≤ c.correctedAt ∧
      d.reasonCode.field = some c.field then .error (.refused "assistance_dispute_resolution_not_permitted")
  else .ok { db with disputes := replaceRow Dispute.id { d with resolution := some correctionId } db.disputes }

def Db.insertCorrection (db : Db) (c : Correction) : Except Failure Db :=
  match (db.request? c.assistanceRequestId).bind fun r => r.collection.map fun k => (r, k) with
  | none => .error (.refused "assistance_correction_not_permitted")
  | some (r, k) =>
    let report := (db.currentObligation r.id).bind Obligation.report
    let collected := db.effectiveTime r.id .cashCollectedAt
    let returned := db.effectiveTime r.id .returnedAt
    let superseded := match c.field with | .cashCollectedAt => collected | .returnedAt => returned
    let collected := if c.field = .cashCollectedAt then some c.correctedValue else collected
    let returned := if c.field = .returnedAt then some c.correctedValue else returned
    if ¬ r.status.collected ∨ (c.field = .returnedAt ∧ report.isNone) ∨ c.correctedBy = r.beneficiaryUserId ∨ c.correctedBy = k.reportedBy ∨
        (report.any fun (_, _, reportedBy) => c.correctedBy = reportedBy) then .error (.refused "assistance_correction_not_permitted")
    else if superseded = some c.correctedValue then .error (.refused "assistance_correction_changes")
    else if (collected.all fun v => r.consentAt ≤ v ∧ v ≤ k.reportedAt) ∧
        (returned.all fun v => (collected.all fun w => w ≤ v) ∧ report.all fun (_, reportedAt, _) => v ≤ reportedAt) then
      .ok { db with corrections := db.corrections ++ [c] }
    else .error (.refused "assistance_correction_time_order")

/-- `billing_late_settlement_attestation_guard`; `beneficiaryUserId` is who states it. -/
def Db.insertAttestation (db : Db) (a : Attestation) (beneficiaryUserId : Uuid) : Except Failure Db :=
  if ¬ (db.lateSettlements.any fun l => l.id = a.lateSettlementId ∧
      db.requests.any fun r => r.id = l.assistanceRequestId ∧ r.beneficiaryUserId = beneficiaryUserId) then
    .error (.refused "late_settlement_attestation_beneficiary")
  else if db.attestations.any fun x => x.id = a.id ∨ x.lateSettlementId = a.lateSettlementId then
    .error (.billing 409 "late_settlement_already_attested")
  else .ok { db with attestations := db.attestations ++ [a] }

end NawaraCore.Assistance
