import NawaraCore.Billing.Recovery
import NawaraCore.Loss.ChargebackLoss
import NawaraCore.Safety.FinancialSafety

/-!
# Reconciliation cases

Billing's evidence of captured money: late successes, late assisted settlements, refund cases
and losses, with the cases that list what is unresolved and the evidence that resolves them
(migrations 0041 to 0050). The recovery ledger and the captured movement of a loss are the
ones of their own components.
-/

namespace NawaraCore.Reconciliation

open Subscriptions (Uuid)
open PaymentRequests (PaymentRequestStatus Failure)
open Recovery (Evidence)
open Losses (RefundCaptureBasis RefundCaseStatus Capture)
open Safety (RelayStatus)

/-! ## Rows -/

inductive SellerType
  | user | organization | company
deriving DecidableEq

/-- The `invoice_entitlement` of an invoice, written before it leaves draft; its combinations are the purposes. -/
inductive Routing
  | organization_subscription
  | direct_purchase
  | non_entitlement
  | assisted_settlement (assistanceRequestId : Uuid)
  | recovery_settlement (recoveryObligationId : Uuid)
deriving DecidableEq

def Routing.purpose : Routing → String
  | .organization_subscription => "organization_subscription"
  | .direct_purchase => "direct_purchase"
  | .non_entitlement => "non_entitlement"
  | .assisted_settlement _ => "assisted_settlement"
  | .recovery_settlement _ => "recovery_settlement"

/-- `platforms` are the distinct Platforms of its lines' products. -/
structure Invoice where
  id : Uuid
  total : Int
  currency : String
  sellerType : SellerType
  sellerId : Uuid
  organizationId : Option Uuid
  platforms : List Uuid
  routing : Option Routing

structure PaymentRequest where
  id : Uuid
  paymentId : Option Uuid
  invoiceId : Uuid
  amount : Int
  currency : String
  status : PaymentRequestStatus

inductive ChannelStatus
  | open | uncertain | settled | closed
deriving DecidableEq

structure Channel where
  invoiceId : Uuid
  assistanceRequestId : Uuid
  paymentRequestId : Option Uuid
  status : ChannelStatus

inductive PaymentStatus
  | succeeded | failed | expired | cancelled
deriving DecidableEq

structure LateSuccess where
  lateSuccessId : Uuid
  paymentId : Uuid
  paymentRequestId : Uuid
  factId : Option Uuid
  amount : Int
  currency : String
  paymentStatus : PaymentStatus
  recordedAt : Nat

structure LateSettlement where
  id : Uuid
  assistanceRequestId : Uuid
  invoiceId : Uuid
  paymentRequestId : Uuid
  evidence : Evidence
  settledAt : Nat

structure Purchase where
  id : Uuid
  purpose : Losses.Purpose
  invoiceId : Uuid
  paymentRequestId : Uuid
  evidence : Evidence

/-- `refund_case_basis`: each eligibility with what it names. -/
inductive Eligibility
  | personal_purchase (purchaseId : Uuid)
  | late_assisted_settlement (lateSettlementId : Uuid)
  | non_entitlement
  | recovery_surplus (surplusId : Uuid)
  | capture_specific
deriving DecidableEq

structure RefundCase where
  id : Uuid
  paymentId : Uuid
  paymentRequestId : Uuid
  invoiceId : Uuid
  receiptId : Option Uuid
  eligibility : Eligibility
  companyId : Uuid
  platformId : Uuid
  organizationId : Option Uuid
  capture : Option (RefundCaptureBasis × Uuid)
  amount : Int
  currency : String
  status : RefundCaseStatus
deriving DecidableEq

structure Relay where
  id : Uuid
  refundCaseId : Uuid
  attemptStatus : Option RelayStatus

structure DisputeLoss where
  disputeId : Uuid
  paymentId : Uuid
  paymentRequestId : Uuid
  currency : String
  chargebackAmount : Int
  chargebackCurrency : String
  capture : Capture

inductive CaseType
  | late_assisted_settlement | recovery_surplus | late_success | unmatched_capture | unrouted_settlement | over_return
  | refund_discrepancy | partial_chargeback | second_reversal_cause | contradictory_effect | authorization_pending
  | chargeback_refund_overlap | capture_contradiction | chargeback_loss_review | chargeback_effect_waiting
deriving DecidableEq

structure ReconciliationCase where
  id : Uuid
  caseType : CaseType
  evidenceKey : Uuid
  companyId : Uuid
  platformId : Option Uuid
  organizationId : Option Uuid
  paymentId : Option Uuid
  paymentRequestId : Option Uuid
  captureFactId : Option Uuid
  amount : Option Int
  currency : Option String
  detail : Option String
deriving DecidableEq

inductive AcknowledgementReason
  | reviewed_no_financial_effect | provider_statement_reviewed | duplicate_evidence_reviewed
deriving DecidableEq

inductive ResolutionKind
  | refund_completed (refundCaseId : Uuid)
  | late_settlement_applied
  | surplus_refunded
  | surplus_repaid
  | recovery_counted (recoveryPaymentId : Uuid)
  | loss_recognized (lossId : Uuid)
  | effect_applied
  | authorization_resolved
  | acknowledged (userId : Uuid) (reason : AcknowledgementReason)
  | chargeback_returned (disputeId : Uuid)
deriving DecidableEq

structure Resolution where
  caseId : Uuid
  kind : ResolutionKind
deriving DecidableEq

structure Db where
  invoices : List Invoice
  requests : List PaymentRequest
  receipts : List Recovery.Receipt
  channels : List Channel
  lateSuccesses : List LateSuccess
  lateSettlements : List LateSettlement
  applications : List Uuid
  purchases : List Purchase
  reversals : List Uuid
  obligations : List Recovery.RecoveryObligation
  recoveryPayments : List Recovery.RecoveryPayment
  surpluses : List Recovery.RecoverySurplus
  writeOffs : List Recovery.FinancialLoss
  adjustments : List Recovery.FinancialLossAdjustment
  /-- The surpluses of `recovery_surplus_external`, `recovery_surplus_refund` and `recovery_surplus_confirmation`. -/
  surplusExternals : List Uuid
  surplusRefunds : List Uuid
  surplusConfirmations : List Uuid
  refundCases : List RefundCase
  relays : List Relay
  losses : List DisputeLoss
  /-- The disputes with a recovery obligation or a direct write-off. -/
  appliedLosses : List Uuid
  /-- The refund cases of `refund_case_effect` and the disputes of `dispute_loss_effect`. -/
  refundEffects : List Uuid
  lossEffects : List Uuid
  /-- The ids and the evidence of the `over_return` losses. -/
  overReturns : List (Uuid × Uuid)
  cases : List ReconciliationCase
  resolutions : List Resolution

def Db.empty : Db :=
  ⟨[], [], [], [], [], [], [], [], [], [], [], [], [], [], [], [], [], [], [], [], [], [], [], [], [], []⟩

def Db.invoice? (db : Db) (id : Uuid) : Option Invoice := db.invoices.find? fun i => i.id = id

def Db.request? (db : Db) (id : Uuid) : Option PaymentRequest := db.requests.find? fun r => r.id = id

def Db.requestOf (db : Db) (paymentId : Uuid) : Option PaymentRequest := db.requests.find? fun r => r.paymentId = some paymentId

def Db.lateSuccess? (db : Db) (id : Uuid) : Option LateSuccess := db.lateSuccesses.find? fun l => l.lateSuccessId = id

def Db.case? (db : Db) (id : Uuid) : Option ReconciliationCase := db.cases.find? fun c => c.id = id

def Db.ledger (db : Db) : Recovery.Db where
  invoices := db.invoices.map fun i => ⟨i.id, i.total, i.currency, i.routing.bind fun
    | .recovery_settlement o => some o
    | _ => none⟩
  requests := db.requests.map fun r => ⟨r.id, r.invoiceId, r.amount, r.currency, r.status⟩
  receipts := db.receipts
  lateSuccesses := db.lateSuccesses.map fun l => ⟨l.lateSuccessId, l.paymentRequestId, l.factId, l.amount, l.currency⟩
  lateSettlements := db.lateSettlements.filterMap fun s => match s.evidence with
    | .receipt _ => none
    | .lateSuccess l => some l
  obligations := db.obligations
  payments := db.recoveryPayments
  surpluses := db.surpluses
  losses := db.writeOffs
  adjustments := db.adjustments

def Db.withLedger (db : Db) (l : Recovery.Db) : Db :=
  { db with
    obligations := l.obligations
    recoveryPayments := l.payments
    surpluses := l.surpluses
    adjustments := l.adjustments }

def Db.counted (db : Db) (lateSuccessId : Uuid) : List Recovery.RecoveryPayment :=
  db.recoveryPayments.filter fun p => p.evidence = .lateSuccess lateSuccessId

def Db.settled (db : Db) (lateSuccessId : Uuid) : List LateSettlement :=
  db.lateSettlements.filter fun s => s.evidence = .lateSuccess lateSuccessId

def Db.listed (db : Db) (caseType : CaseType) (evidenceKey : Uuid) : List ReconciliationCase :=
  db.cases.filter fun c => c.caseType = caseType ∧ c.evidenceKey = evidenceKey

structure CaseInput where
  caseType : CaseType
  evidenceKey : Uuid
  paymentRequestId : Option Uuid
  paymentId : Option Uuid
  captureFactId : Option Uuid
  amount : Option Int
  currency : Option String
  detail : Option String

structure Scope where
  companyId : Uuid
  platformId : Option Uuid
  organizationId : Option Uuid

/-- `open`: nothing is opened twice for one type and evidence. -/
def openCase (db : Db) (c : CaseInput) (scope : Scope) (id : Uuid) : Except Failure (Db × Option Uuid) :=
  if c.caseType = .late_success ∧ db.settled c.evidenceKey ≠ [] then .error (.refused "late_success_one_effect")
  else if c.caseType = .chargeback_effect_waiting ∧ ¬ db.losses.any fun l => l.disputeId = c.evidenceKey then
    .error (.refused "reconciliation_case_waiting_evidence")
  else if c.amount.any fun a => a ≤ 0 then .error (.refused "reconciliation_case_amount")
  else if db.listed c.caseType c.evidenceKey ≠ [] then .ok (db, none)
  else if db.cases.any fun x => x.id = id then .error (.refused "reconciliation_case_pkey")
  else
    let row : ReconciliationCase := ⟨id, c.caseType, c.evidenceKey, scope.companyId, scope.platformId, scope.organizationId, c.paymentId,
      c.paymentRequestId, c.captureFactId, c.amount, if c.amount.isSome then c.currency else none, c.detail⟩
    .ok ({ db with cases := db.cases ++ [row] }, some id)

def openForPayment (db : Db) (c : CaseInput) (id : Uuid) : Except Failure (Db × Option Uuid) :=
  let pr := match c.paymentRequestId with
    | some r => db.request? r
    | none => c.paymentId.bind db.requestOf
  match pr with
  | none => .ok (db, none)
  | some pr =>
    match db.invoice? pr.invoiceId with
    | none => .ok (db, none)
    | some i =>
      if i.sellerType ≠ .company then .ok (db, none)
      else
        let platformId := match i.platforms with
          | [p] => some p
          | _ => none
        openCase db { c with paymentRequestId := some pr.id, paymentId := c.paymentId.or pr.paymentId }
          ⟨i.sellerId, platformId, i.organizationId⟩ id

/-- The late success that `billing_assistance_late_settlement_guard` requires. -/
def Db.lateSettlementEligible (db : Db) (s : LateSettlement) (lateSuccessId : Uuid) : Bool :=
  match db.request? s.paymentRequestId, db.lateSuccess? lateSuccessId with
  | some pr, some ls =>
    ls.paymentRequestId = pr.id ∧ pr.paymentId = some ls.paymentId ∧ pr.invoiceId = s.invoiceId ∧ ls.factId.isSome ∧
      ((ls.paymentStatus = .failed ∧ pr.status = .failed) ∨ (ls.paymentStatus = .cancelled ∧ pr.status = .cancelled) ∨
        (ls.paymentStatus = .expired ∧ pr.status = .expired)) ∧
      (db.channels.any fun c => c.invoiceId = s.invoiceId ∧ c.assistanceRequestId = s.assistanceRequestId ∧
        c.paymentRequestId = some pr.id ∧ c.status = .closed) ∧
      (db.invoices.any fun i => i.id = s.invoiceId ∧ i.routing = some (.assisted_settlement s.assistanceRequestId) ∧
        i.total = ls.amount ∧ i.currency = ls.currency) ∧
      s.settledAt = ls.recordedAt
  | _, _ => false

def Db.insertLateSettlement (db : Db) (s : LateSettlement) : Except Failure Db :=
  let verified : Except Failure Unit := match s.evidence with
    | .receipt receiptId =>
      if (db.requests.any fun pr => pr.id = s.paymentRequestId ∧ pr.invoiceId = s.invoiceId ∧ pr.status = .paid ∧
          db.receipts.any fun r => r.id = receiptId ∧ r.paymentRequestId = pr.id ∧ r.eventName = .succeeded ∧ r.outcome = .applied) ∧
          db.channels.any fun c => c.invoiceId = s.invoiceId ∧ c.assistanceRequestId = s.assistanceRequestId then .ok ()
      else .error (.refused "assistance_late_settlement_verified")
    | .lateSuccess lateSuccessId =>
      if ¬ db.lateSettlementEligible s lateSuccessId then .error (.refused "assistance_late_settlement_late_success")
      else if db.counted lateSuccessId ≠ [] ∨ db.listed .late_success lateSuccessId ≠ [] then .error (.refused "late_success_one_effect")
      else .ok ()
  match verified with
  | .error e => .error e
  | .ok () =>
    if db.lateSettlements.any fun x => x.id = s.id ∨ x.invoiceId = s.invoiceId ∨ x.evidence = s.evidence then
      .error (.refused "assistance_late_settlement_unique")
    else .ok { db with lateSettlements := db.lateSettlements ++ [s] }

/-! ## Refund cases -/

def Db.settlesLate (db : Db) (factId : Uuid) (p : LateSettlement → LateSuccess → Bool) : Bool :=
  db.lateSettlements.any fun s => db.lateSuccesses.any fun l =>
    s.evidence = .lateSuccess l.lateSuccessId ∧ l.factId = some factId ∧ p s l

def Db.recoveryCaptureRefundable (db : Db) (pr : PaymentRequest) (i : Invoice) (r : RefundCase) : Bool :=
  match r.capture with
  | some (.late_capture, factId) =>
    db.lateSuccesses.any fun l => l.paymentRequestId = pr.id ∧ l.factId = some factId ∧ (l.amount ≠ i.total ∨ l.currency ≠ i.currency) ∧
      l.amount = r.amount ∧ l.currency = r.currency ∧ db.counted l.lateSuccessId = []
  | _ => false

def unsuccessful : PaymentRequestStatus → Bool
  | .failed | .expired | .cancelled => true
  | _ => false

def Db.appliedSuccess (db : Db) (pr : PaymentRequest) (receiptId : Option Uuid) : Bool :=
  db.receipts.any fun x => some x.id = receiptId ∧ x.paymentRequestId = pr.id ∧ x.eventName = .succeeded ∧ x.outcome = .applied

def Db.captureBasis (db : Db) (pr : PaymentRequest) (i : Invoice) (r : RefundCase) : RefundCaptureBasis → Bool
  | .late_capture => unsuccessful pr.status ∧ ¬ db.purchases.any fun s => s.paymentRequestId = pr.id
  | .duplicate_capture => pr.status = .paid
  | .unrouted_capture => pr.status = .paid ∧ i.routing = none ∧ (¬ db.purchases.any fun s => s.invoiceId = pr.invoiceId) ∧
      (¬ db.lateSettlements.any fun l => l.paymentRequestId = pr.id) ∧ db.appliedSuccess pr r.receiptId

def RefundCase.specific (r : RefundCase) : Bool := r.eligibility = .capture_specific

def Db.paymentCases (db : Db) (paymentId : Uuid) : List RefundCase := db.refundCases.filter fun c => c.paymentId = paymentId

def Db.captureCase (db : Db) (pr : PaymentRequest) (i : Invoice) (r : RefundCase) (basis : RefundCaptureBasis) (factId : Uuid) :
    Except Failure Unit :=
  if pr.paymentId ≠ some r.paymentId ∨ pr.invoiceId ≠ r.invoiceId ∨ i.routing = some .organization_subscription ∨
      (i.routing.any (fun e => e.purpose = "recovery_settlement") ∧ ¬ db.recoveryCaptureRefundable pr i r) then
    .error (.refused "refund_case_not_eligible")
  else if ¬ db.captureBasis pr i r basis then .error (.refused "refund_case_not_eligible")
  else if db.settlesLate factId fun _ _ => true then .error (.refused "refund_case_not_eligible")
  else if (db.paymentCases r.paymentId).any fun c => ¬ c.specific ∧
      (c.status = .open ∨ (basis = .unrouted_capture ∧ c.status = .completed)) then .error (.refused "refund_case_exposure")
  else .ok ()

def Db.lateCase (db : Db) (pr : PaymentRequest) (i : Invoice) (r : RefundCase) (factId : Uuid) : Bool :=
  match r.eligibility with
  | .late_assisted_settlement lateSettlementId =>
    i.routing.any (fun e => e.purpose = "assisted_settlement") ∧
      (db.settlesLate factId fun s l => s.id = lateSettlementId ∧ s.invoiceId = pr.invoiceId ∧ s.paymentRequestId = pr.id ∧
        l.amount = r.amount ∧ l.currency = r.currency) ∧ ¬ db.purchases.any fun s => s.invoiceId = pr.invoiceId
  | .personal_purchase purchaseId =>
    i.routing.any (fun e => e.purpose = "assisted_settlement") ∧
      db.purchases.any fun p => p.id = purchaseId ∧ p.invoiceId = pr.invoiceId ∧ p.paymentRequestId = pr.id ∧
        p.purpose = .assisted_settlement ∧ p.id ∉ db.reversals ∧
        db.lateSuccesses.any fun l => p.evidence = .lateSuccess l.lateSuccessId ∧ l.factId = some factId ∧ l.amount = r.amount ∧
          l.currency = r.currency
  | .recovery_surplus surplusId =>
    i.routing.any (fun e => e.purpose = "recovery_settlement") ∧
      db.surpluses.any fun su => su.id = surplusId ∧ su.amount = r.amount ∧ su.currency = r.currency ∧ su.id ∉ db.surplusExternals ∧
        db.recoveryPayments.any fun p => p.id = su.recoveryPaymentId ∧ p.paymentRequestId = pr.id ∧ p.principalAmount = 0 ∧
          db.lateSuccesses.any fun l => p.evidence = .lateSuccess l.lateSuccessId ∧ l.factId = some factId
  | _ => false

def Db.ordinaryCase (db : Db) (pr : PaymentRequest) (i : Invoice) (r : RefundCase) : Bool :=
  match i.routing with
  | none | some .organization_subscription => false
  | some routing =>
    match r.eligibility with
    | .personal_purchase purchaseId => routing.purpose ≠ "recovery_settlement" ∧ db.purchases.any fun s => s.id = purchaseId ∧
        s.invoiceId = pr.invoiceId ∧ s.paymentRequestId = pr.id ∧ r.receiptId.any (fun x => s.evidence = .receipt x) ∧ s.id ∉ db.reversals
    | .late_assisted_settlement lateSettlementId => routing.purpose ≠ "recovery_settlement" ∧
        (db.lateSettlements.any fun l => l.id = lateSettlementId ∧ l.invoiceId = pr.invoiceId ∧ l.paymentRequestId = pr.id ∧
          r.receiptId.any fun x => l.evidence = .receipt x) ∧ ¬ db.purchases.any fun s => s.invoiceId = pr.invoiceId
    | .non_entitlement => routing = .non_entitlement
    | .recovery_surplus surplusId => routing.purpose = "recovery_settlement" ∧ db.surpluses.any fun su => su.id = surplusId ∧
        su.amount = pr.amount ∧ su.id ∉ db.surplusExternals ∧ db.recoveryPayments.any fun p => p.id = su.recoveryPaymentId ∧
          p.paymentRequestId = pr.id ∧ p.principalAmount = 0 ∧ r.receiptId.any fun x => p.evidence = .receipt x
    | .capture_specific => false

/-- The surplus of a late success is refunded whatever the Platforms of its invoice. -/
def Eligibility.anyPlatform : Eligibility → Bool
  | .recovery_surplus _ => true
  | _ => false

def Db.refundCaseGuard (db : Db) (r : RefundCase) : Except Failure Unit :=
  if r.status ≠ .open then .error (.refused "refund_case_created_open")
  else
    match db.request? r.paymentRequestId with
    | none => .error (.refused "refund_case_not_eligible")
    | some pr =>
      match db.invoice? pr.invoiceId with
      | none => .error (.refused "refund_case_not_eligible")
      | some i =>
        let seller : Bool := i.sellerType = .company ∧ i.sellerId = r.companyId ∧ r.organizationId = i.organizationId
        let sameScope : Bool := seller ∧ i.platforms = [r.platformId]
        match r.eligibility, r.capture with
        | .capture_specific, some (basis, factId) =>
          if ¬ sameScope then .error (.refused "refund_case_seller") else db.captureCase pr i r basis factId
        | eligibility, some (_, factId) =>
          if pr.paymentId ≠ some r.paymentId ∨ pr.invoiceId ≠ r.invoiceId ∨ ¬ seller ∨
              (¬ eligibility.anyPlatform ∧ ¬ sameScope) ∨ ¬ db.lateCase pr i r factId then
            .error (.refused "refund_case_not_eligible")
          else if (db.paymentCases r.paymentId).any fun c => c.specific ∧ c.status = .open then .error (.refused "refund_case_exposure")
          else .ok ()
        | _, none =>
          if pr.status ≠ .paid ∨ pr.paymentId ≠ some r.paymentId ∨ pr.invoiceId ≠ r.invoiceId ∨ ¬ db.appliedSuccess pr r.receiptId then
            .error (.refused "refund_case_capture_unverified")
          else if r.amount ≠ pr.amount ∨ r.currency ≠ pr.currency then .error (.refused "refund_case_full_amount")
          else if ¬ sameScope then .error (.refused "refund_case_seller")
          else if ¬ db.ordinaryCase pr i r then .error (.refused "refund_case_not_eligible")
          else if (db.paymentCases r.paymentId).any fun c => c.specific ∧ (c.status = .open ∨
              (c.status = .completed ∧ c.capture.any fun x => x.1 = .unrouted_capture)) then .error (.refused "refund_case_exposure")
          else .ok ()

def RefundCase.captureShape (r : RefundCase) : Bool :=
  match r.eligibility, r.capture with
  | .capture_specific, some (basis, _) => r.receiptId.isSome = (basis = .unrouted_capture)
  | .capture_specific, none => false
  | .non_entitlement, some _ => false
  | _, some (basis, _) => basis = .late_capture ∧ r.receiptId.isNone
  | _, none => r.receiptId.isSome

/-- The unique indexes: one live ordinary case of a payment, one live case of a capture. -/
def Db.refundCaseTaken (db : Db) (r : RefundCase) : Bool :=
  db.refundCases.any fun c => c.id = r.id ∨ (c.status ≠ .cancelled ∧
    ((¬ r.specific ∧ ¬ c.specific ∧ c.paymentId = r.paymentId) ∨
      r.capture.any fun x => c.capture.any fun y => y.2 = x.2))

def Db.insertRefundCase (db : Db) (r : RefundCase) : Except Failure Db :=
  match db.refundCaseGuard r with
  | .error e => .error e
  | .ok () =>
    if ¬ r.captureShape then .error (.refused "refund_case_capture_shape")
    else if r.amount ≤ 0 then .error (.refused "refund_case_amount")
    else if db.refundCaseTaken r then .error (.refused "refund_case_unique")
    else .ok { db with refundCases := db.refundCases ++ [r] }

def onLossMovement (r : RefundCase) (l : DisputeLoss) : Bool :=
  r.paymentId = l.paymentId ∧ l.capture.refundedBy r.capture

def relayLive : RelayStatus → Bool
  | .attempt .authorizationPending | .attempt .authorized | .attempt .dispatching | .attempt .submitted | .attempt .unknown
  | .attempt .discrepancy => true
  | _ => false

def Db.refundLive (db : Db) (l : DisputeLoss) : Bool :=
  db.relays.any fun x => db.refundCases.any fun r => r.id = x.refundCaseId ∧ onLossMovement r l ∧
    (x.attemptStatus = none ∨ x.attemptStatus.any relayLive ∨
      (x.attemptStatus = some (.attempt .succeeded) ∧ r.status ≠ .completed))

def Db.overlap (db : Db) (l : DisputeLoss) : Bool :=
  db.refundCases.any fun r => r.status = .completed ∧ onLossMovement r l

/-! ## Resolving a case -/

def DisputeLoss.captureFactId (l : DisputeLoss) : Option Uuid :=
  match l.capture with
  | .settling_capture f => f
  | .late_capture f => some f

/-- `billing_case_movement_overlap`: the case's own loss, a loss of its payment and capture, or one of its purchase. -/
def Db.caseOverlap (db : Db) (c : ReconciliationCase) : Bool :=
  let paymentId := c.paymentId.or ((c.paymentRequestId.bind db.request?).bind PaymentRequest.paymentId)
  db.losses.any fun l => db.overlap l ∧
    (l.disputeId = c.evidenceKey ∨
      (some l.paymentId = paymentId ∧ (c.captureFactId = none ∨ l.captureFactId = none ∨ l.captureFactId = c.captureFactId)) ∨
      db.purchases.any fun s => s.id = c.evidenceKey ∧ s.paymentRequestId = l.paymentRequestId)

def Db.captureRefundExists (db : Db) (paymentId : Option Uuid) (factId : Uuid) : Bool :=
  db.refundCases.any fun r => some r.paymentId = paymentId ∧ (r.capture.all fun x => x.2 = factId) ∧
    (r.status ≠ .cancelled ∨ db.relays.any fun x => x.refundCaseId = r.id)

def Db.returned (db : Db) (c : ReconciliationCase) (factId disputeId : Uuid) : Bool :=
  db.losses.any fun l => l.disputeId = disputeId ∧ l.capture = .late_capture factId ∧ some l.paymentId = c.paymentId ∧
    db.lateSuccesses.any fun s => s.factId = some factId ∧ some s.paymentId = c.paymentId ∧ s.paymentRequestId = l.paymentRequestId ∧
      l.chargebackAmount = s.amount ∧ l.chargebackCurrency = s.currency ∧ l.currency = s.currency ∧
      ¬ db.purchases.any fun p => p.evidence = .lateSuccess s.lateSuccessId

/-- The refund case matches the case: a case without a capture fact takes any of its payment. -/
def ReconciliationCase.matches (c : ReconciliationCase) (r : RefundCase) : Bool :=
  r.status = .completed ∧ some r.paymentId = c.paymentId ∧ c.captureFactId.all fun f => r.capture.any fun x => x.2 = f

def CaseType.capturedMoney : CaseType → Bool
  | .late_assisted_settlement | .late_success | .unmatched_capture | .unrouted_settlement => true
  | _ => false

def Eligibility.lateSettlement : Eligibility → Bool
  | .late_assisted_settlement _ => true
  | _ => false

/-- `billing_reconciliation_resolution_guard`: what the evidence of a case supports. -/
def Db.supports (db : Db) (c : ReconciliationCase) : ResolutionKind → Bool
  | .refund_completed refundCaseId =>
    db.refundCases.any fun r => r.id = refundCaseId ∧
      ((c.caseType.capturedMoney ∧ c.matches r ∧ (c.caseType = .late_assisted_settlement → r.eligibility.lateSettlement)) ∨
        (c.caseType = .chargeback_effect_waiting ∧ r.status = .completed ∧ c.evidenceKey ∉ db.appliedLosses ∧
          db.losses.any fun l => l.disputeId = c.evidenceKey ∧ onLossMovement r l))
  | .late_settlement_applied => c.caseType = .late_assisted_settlement ∧ c.evidenceKey ∈ db.applications
  | .surplus_refunded => c.caseType = .recovery_surplus ∧ c.evidenceKey ∈ db.surplusRefunds
  | .surplus_repaid => c.caseType = .recovery_surplus ∧ c.evidenceKey ∈ db.surplusConfirmations
  | .recovery_counted recoveryPaymentId => c.caseType = .late_success ∧
      db.recoveryPayments.any fun p => p.id = recoveryPaymentId ∧ p.evidence = .lateSuccess c.evidenceKey
  | .loss_recognized lossId => c.caseType = .over_return ∧ (lossId, c.evidenceKey) ∈ db.overReturns
  | .effect_applied => (c.caseType = .contradictory_effect ∧ (c.evidenceKey ∈ db.refundEffects ∨ c.evidenceKey ∈ db.lossEffects)) ∨
      (c.caseType = .chargeback_effect_waiting ∧ c.evidenceKey ∈ db.appliedLosses)
  | .authorization_resolved => c.caseType = .authorization_pending ∧
      db.relays.any fun x => x.id = c.evidenceKey ∧ x.attemptStatus.any fun a => a ≠ .attempt .authorizationPending
  | .acknowledged _ reason =>
    (c.caseType = .refund_discrepancy ∨ c.caseType = .partial_chargeback ∨ c.caseType = .second_reversal_cause) ∧
      ¬ (reason = .reviewed_no_financial_effect ∧ db.caseOverlap c)
  | .chargeback_returned disputeId =>
    (c.caseType = .late_assisted_settlement ∨ c.caseType = .late_success) ∧
      (c.captureFactId.any fun f => db.returned c f disputeId ∧ ¬ db.captureRefundExists c.paymentId f) ∧
      ¬ (c.caseType = .late_assisted_settlement ∧ c.evidenceKey ∈ db.applications)

/-- `resolve`: a case that is resolved stays as it is. -/
def resolve (db : Db) (caseId : Uuid) (kind : ResolutionKind) : Except Failure (Db × Bool) :=
  match db.case? caseId with
  | none => .error (.refused "reconciliation_case_resolution_evidence")
  | some c =>
    if ¬ db.supports c kind then .error (.refused "reconciliation_case_resolution_evidence")
    else if db.resolutions.any fun r => r.caseId = caseId then .ok (db, false)
    else .ok ({ db with resolutions := db.resolutions ++ [⟨caseId, kind⟩] }, true)

/-- What the query of `resolveOpen` finds of an open case. -/
inductive Ref
  | applied
  | refund (refundCaseId : Uuid)
  | surplusRefund
  | surplusRepaid
  | effect
  | definitive
deriving DecidableEq

/-- The refund cases among which the query takes one, by the type of the case. -/
def Db.fits (db : Db) (c : ReconciliationCase) (r : RefundCase) : Bool :=
  match c.caseType with
  | .late_assisted_settlement => c.evidenceKey ∉ db.applications ∧ some r.paymentId = c.paymentId ∧ r.eligibility.lateSettlement
  | .late_success | .unmatched_capture | .unrouted_settlement => c.matches r
  | .chargeback_effect_waiting => c.evidenceKey ∉ db.appliedLosses ∧
      db.losses.any fun l => l.disputeId = c.evidenceKey ∧ onLossMovement r l
  | _ => false

def Db.finds (db : Db) (c : ReconciliationCase) : Ref → Bool
  | .applied => c.caseType = .late_assisted_settlement ∧ c.evidenceKey ∈ db.applications
  | .refund id => db.refundCases.any fun r => r.id = id ∧ r.status = .completed ∧ db.fits c r
  | .surplusRefund => c.caseType = .recovery_surplus ∧ c.evidenceKey ∈ db.surplusRefunds
  | .surplusRepaid => c.caseType = .recovery_surplus ∧ c.evidenceKey ∉ db.surplusRefunds ∧ c.evidenceKey ∈ db.surplusConfirmations
  | .effect => (c.caseType = .contradictory_effect ∧ (c.evidenceKey ∈ db.refundEffects ∨ c.evidenceKey ∈ db.lossEffects)) ∨
      (c.caseType = .chargeback_effect_waiting ∧ c.evidenceKey ∈ db.appliedLosses)
  | .definitive => c.caseType = .authorization_pending ∧
      db.relays.any fun x => x.id = c.evidenceKey ∧ x.attemptStatus.any fun a => a ≠ .attempt .authorizationPending

def Ref.kind : Ref → ResolutionKind
  | .applied => .late_settlement_applied
  | .refund id => .refund_completed id
  | .surplusRefund => .surplus_refunded
  | .surplusRepaid => .surplus_repaid
  | .effect => .effect_applied
  | .definitive => .authorization_resolved

end NawaraCore.Reconciliation
