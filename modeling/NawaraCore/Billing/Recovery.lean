import NawaraCore.Billing.PaymentRequest
import NawaraCore.Lib.Rows

/-!
# Recovery obligations

The ledger of what an Organization owes after a lost chargeback: the obligations, the
verified payments that recover them, the surplus owed back and the write-off with its
adjustments (`applyRecoveryPayment` and migrations 0039, 0042, 0043 and 0048). Every
operation is one transaction under the advisory lock of its obligation, with `now` the
instant it began.
-/

namespace NawaraCore.Recovery

open Subscriptions (Uuid)
open PaymentRequests (PaymentRequestStatus ReceiptOutcome PaymentEventName Failure transitionAllowed)

/-- An invoice with its routing: the obligation of a `recovery_settlement`. -/
structure Invoice where
  id : Uuid
  total : Int
  currency : String
  recoveryObligationId : Option Uuid

structure PaymentRequest where
  id : Uuid
  invoiceId : Uuid
  amount : Int
  currency : String
  status : PaymentRequestStatus
deriving DecidableEq

structure Receipt where
  id : Uuid
  paymentRequestId : Uuid
  eventName : PaymentEventName
  outcome : ReceiptOutcome

structure PaymentLateSuccess where
  lateSuccessId : Uuid
  paymentRequestId : Uuid
  factId : Option Uuid
  amount : Int
  currency : String

inductive ObligationStatus
  | open | recovered
deriving DecidableEq

structure RecoveryObligation where
  id : Uuid
  organizationId : Uuid
  companyId : Uuid
  baseAmount : Int
  currency : String
  status : ObligationStatus

/-- `recovery_payment_evidence`: a receipt or a late success, never both. -/
inductive Evidence
  | receipt (receiptId : Uuid)
  | lateSuccess (lateSuccessId : Uuid)
deriving DecidableEq

structure RecoveryPayment where
  id : Uuid
  obligationId : Uuid
  invoiceId : Uuid
  paymentRequestId : Uuid
  evidence : Evidence
  amount : Int
  currency : String
  principalAmount : Int
  surplusAmount : Int
  recordedAt : Int

structure RecoverySurplus where
  id : Uuid
  recoveryPaymentId : Uuid
  obligationId : Uuid
  organizationId : Uuid
  amount : Int
  currency : String

/-- A row of `financial_loss` of the kind `recovery_write_off`. -/
structure FinancialLoss where
  id : Uuid
  obligationId : Uuid
  companyId : Uuid
  organizationId : Uuid
  amount : Int
  currency : String
  recordedAt : Int

structure FinancialLossAdjustment where
  lossId : Uuid
  amount : Int
  recoveryPaymentId : Uuid

structure Db where
  invoices : List Invoice
  requests : List PaymentRequest
  receipts : List Receipt
  lateSuccesses : List PaymentLateSuccess
  /-- The late successes that are late assisted settlements. -/
  lateSettlements : List Uuid
  obligations : List RecoveryObligation
  payments : List RecoveryPayment
  surpluses : List RecoverySurplus
  losses : List FinancialLoss
  adjustments : List FinancialLossAdjustment

def MAX_SAFE_INTEGER : Int := 9007199254740991

def paid (column : RecoveryPayment → Int) (obligationId : Uuid) (payments : List RecoveryPayment) : Int :=
  ((payments.filter fun p => p.obligationId = obligationId).map column).sum

def Db.billing_recovery_outstanding (db : Db) (o : RecoveryObligation) : Int :=
  o.baseAmount - paid RecoveryPayment.principalAmount o.id db.payments

def adjusted (lossId : Uuid) (adjustments : List FinancialLossAdjustment) : Int :=
  ((adjustments.filter fun a => a.lossId = lossId).map FinancialLossAdjustment.amount).sum

def Db.remaining (db : Db) (f : FinancialLoss) : Int := f.amount + adjusted f.id db.adjustments

/-! ## Guarded inserts -/

structure Success where
  obligationId : Uuid
  invoiceId : Uuid
  paymentRequestId : Uuid
  evidence : Evidence
  amount : Int
  currency : String

def Db.verified (db : Db) (p : Success) : Bool :=
  match db.requests.find? fun r => r.id = p.paymentRequestId, p.evidence with
  | none, _ => false
  | some r, .receipt receiptId =>
    r.invoiceId = p.invoiceId ∧ r.status = .paid ∧ p.amount = r.amount ∧ p.currency = r.currency ∧
      db.receipts.any fun x => x.id = receiptId ∧ x.paymentRequestId = r.id ∧ x.eventName = .succeeded ∧ x.outcome = .applied
  | some r, .lateSuccess lateSuccessId =>
    db.lateSuccesses.any fun l => l.lateSuccessId = lateSuccessId ∧ l.paymentRequestId = p.paymentRequestId ∧
      r.invoiceId = p.invoiceId ∧ l.amount = p.amount ∧ l.currency = p.currency

def Db.lateSuccessEqual (db : Db) (p : Success) : Bool :=
  match p.evidence with
  | .receipt _ => true
  | .lateSuccess lateSuccessId =>
    db.lateSuccesses.any fun l => l.lateSuccessId = lateSuccessId ∧
      db.invoices.any fun i => i.id = p.invoiceId ∧ l.amount = i.total ∧ l.currency = i.currency

/-- `billing_late_success_one_effect`: already a late assisted settlement. -/
def Db.settledLate (db : Db) (e : Evidence) : Bool :=
  match e with
  | .receipt _ => false
  | .lateSuccess lateSuccessId => lateSuccessId ∈ db.lateSettlements

/-- The unique indexes on the evidence: one ordinary success of a request, one payment of a late success. -/
def sameEvidence (p : Success) (q : RecoveryPayment) : Bool :=
  match p.evidence, q.evidence with
  | .receipt a, .receipt b => a = b ∨ p.paymentRequestId = q.paymentRequestId
  | .lateSuccess a, .lateSuccess b => a = b
  | _, _ => false

def Db.insertPayment (db : Db) (o : RecoveryObligation) (p : Success) (id : Uuid) (now : Int) :
    Except Failure (Db × RecoveryPayment) :=
  if db.settledLate p.evidence then .error (.refused "late_success_one_effect")
  else if ¬ db.verified p then .error (.refused "recovery_payment_verified")
  else if p.currency ≠ o.currency then .error (.refused "recovery_payment_currency")
  else
    let outstanding := max 0 (db.billing_recovery_outstanding o)
    let principalAmount := min p.amount outstanding
    let pay : RecoveryPayment := ⟨id, p.obligationId, p.invoiceId, p.paymentRequestId, p.evidence, p.amount, p.currency,
      principalAmount, p.amount - principalAmount, now⟩
    if ¬ db.lateSuccessEqual p then .error (.refused "recovery_payment_late_success_equal")
    else if p.amount ≤ 0 then .error (.refused "recovery_payment_split")
    else if ¬ db.invoices.any fun i => i.id = p.invoiceId ∧ i.recoveryObligationId = some p.obligationId then
      .error (.refused "recovery_payment_routing")
    else if db.payments.any fun q => q.id = id ∨ sameEvidence p q then .error (.refused "recovery_payment_unique")
    else .ok ({ db with payments := db.payments ++ [pay] }, pay)

def Db.insertSurplus (db : Db) (s : RecoverySurplus) : Except Failure Db :=
  if ¬ db.payments.any fun p => p.id = s.recoveryPaymentId ∧ p.obligationId = s.obligationId ∧
      p.surplusAmount = s.amount ∧ p.currency = s.currency ∧
      db.obligations.any fun o => o.id = p.obligationId ∧ o.organizationId = s.organizationId then
    .error (.refused "recovery_surplus_payment")
  else if s.amount ≤ 0 then .error (.refused "recovery_surplus_amount")
  else if db.surpluses.any fun x => x.id = s.id ∨ x.recoveryPaymentId = s.recoveryPaymentId then
    .error (.refused "recovery_surplus_unique")
  else .ok { db with surpluses := db.surpluses ++ [s] }

def Db.insertAdjustment (db : Db) (a : FinancialLossAdjustment) : Except Failure Db :=
  match db.losses.find? fun f => f.id = a.lossId, db.payments.find? fun p => p.id = a.recoveryPaymentId with
  | some f, some p =>
    if p.obligationId ≠ f.obligationId ∨ p.recordedAt < f.recordedAt ∨
        -a.amount ≠ min p.principalAmount (db.remaining f) ∨ db.remaining f ≤ 0 then
      .error (.refused "financial_loss_adjustment_evidence")
    else if 0 ≤ a.amount then .error (.refused "financial_loss_adjustment_shape")
    else if db.adjustments.any fun x => x.recoveryPaymentId = a.recoveryPaymentId then
      .error (.refused "financial_loss_adjustment_recoveryPaymentId_key")
    else .ok { db with adjustments := db.adjustments ++ [a] }
  | _, _ => .error (.refused "financial_loss_adjustment_evidence")

def Db.insertWriteOff (db : Db) (f : FinancialLoss) : Except Failure Db :=
  match db.obligations.find? fun o => o.id = f.obligationId with
  | none => .error (.refused "financial_loss_write_off")
  | some o =>
    let outstanding := db.billing_recovery_outstanding o
    if o.status ≠ .open ∨ o.companyId ≠ f.companyId ∨ o.organizationId ≠ f.organizationId ∨ o.currency ≠ f.currency ∨
        outstanding ≤ 0 ∨ f.amount ≠ outstanding then .error (.refused "financial_loss_write_off")
    else if db.losses.any fun x => x.id = f.id ∨ x.obligationId = f.obligationId then
      .error (.refused "financial_loss_once")
    else .ok { db with losses := db.losses ++ [f] }

def Db.updateStatus (db : Db) (o : RecoveryObligation) (status : ObligationStatus) : Except Failure Db :=
  if status ≠ o.status ∧ (o.status ≠ .open ∨ status ≠ .recovered ∨ 0 < db.billing_recovery_outstanding o) then
    .error (.refused "recovery_obligation_recovered")
  else .ok { db with obligations := replaceRow RecoveryObligation.id { o with status } db.obligations }

inductive Applied
  | recovered | recovery

def Db.keepSurplus (db : Db) (o : RecoveryObligation) (pay : RecoveryPayment) (id : Uuid) : Except Failure Db :=
  if 0 < pay.surplusAmount then
    db.insertSurplus ⟨id, pay.id, pay.obligationId, o.organizationId, pay.surplusAmount, pay.currency⟩
  else .ok db

def Db.adjustLoss (db : Db) (pay : RecoveryPayment) : Except Failure Db :=
  if 0 < pay.principalAmount then
    match db.losses.find? fun f => f.obligationId = pay.obligationId with
    | none => .ok db
    | some loss =>
      if 0 < db.remaining loss then
        db.insertAdjustment ⟨loss.id, -(min pay.principalAmount (db.remaining loss)), pay.id⟩
      else .ok db
  else .ok db

def Db.closeRecovered (db : Db) (o : RecoveryObligation) : Except Failure (Db × Applied) :=
  if o.status = .open ∧ db.billing_recovery_outstanding o ≤ 0 then
    (db.updateStatus o .recovered).map fun db => (db, .recovered)
  else .ok (db, .recovery)

structure FreshIds where
  payment : Uuid
  surplus : Uuid

def applyRecoveryPayment (db : Db) (p : Success) (ids : FreshIds) (now : Int) : Except Failure (Db × Applied) :=
  match db.obligations.find? fun o => o.id = p.obligationId with
  | none => .error (.error "recovery_obligation")
  | some o => do
    let (db, pay) ← db.insertPayment o p ids.payment now
    let db ← db.keepSurplus o pay ids.surplus
    let db ← db.adjustLoss pay
    db.closeRecovered o

/-! ## The operations -/

def Db.recoveryObligation (db : Db) (r : PaymentRequest) : Option Uuid :=
  (db.invoices.find? fun i => i.id = r.invoiceId).bind Invoice.recoveryObligationId

/-- The applied `payment.succeeded` of a request, with the effect of a recovery invoice. -/
def paymentSucceeded (db : Db) (paymentRequestId receiptId : Uuid) (ids : FreshIds) (now : Int) : Except Failure Db :=
  match db.requests.find? fun r => r.id = paymentRequestId with
  | none => .error .notFound
  | some r =>
    if ¬ transitionAllowed r.status .paid then .error (.refused "payment_request_lifecycle")
    else if db.receipts.any fun x => x.id = receiptId then .error (.refused "payment_event_receipt_pkey")
    else
      let db := { db with
        receipts := db.receipts ++ [⟨receiptId, r.id, .succeeded, .applied⟩]
        requests := replaceRow PaymentRequest.id { r with status := .paid } db.requests }
      match db.recoveryObligation r with
      | none => .ok db
      | some obligationId =>
        (applyRecoveryPayment db ⟨obligationId, r.invoiceId, r.id, .receipt receiptId, r.amount, r.currency⟩ ids now).map Prod.fst

/-- The recovery branch of `classify`: the late success of a recovery invoice, as it is recorded. -/
def lateSuccessRecovers (db : Db) (lateSuccessId : Uuid) (ids : FreshIds) (now : Int) : Except Failure Db :=
  match db.lateSuccesses.find? fun l => l.lateSuccessId = lateSuccessId with
  | none => .error .notFound
  | some l =>
    match db.requests.find? fun r => r.id = l.paymentRequestId with
    | none => .error .notFound
    | some r =>
      match db.recoveryObligation r with
      | none => .ok db
      | some obligationId =>
        (applyRecoveryPayment db ⟨obligationId, r.invoiceId, r.id, .lateSuccess lateSuccessId, l.amount, l.currency⟩
          ids now).map Prod.fst

inductive Record
  | obligation (o : RecoveryObligation)
  | invoice (i : Invoice)
  | request (r : PaymentRequest)
  | requestStatus (r : PaymentRequest) (status : PaymentRequestStatus)
  | receipt (r : Receipt)
  | lateSuccess (l : PaymentLateSuccess)
  | lateSettlement (lateSuccessId : Uuid)

def Db.record (db : Db) : Record → Except Failure Db
  | .obligation o =>
    if db.obligations.any fun x => x.id = o.id then .error (.refused "recovery_obligation_pkey")
    else if o.status ≠ .open then .error (.refused "recovery_obligation_created_open")
    else if o.baseAmount ≤ 0 ∨ MAX_SAFE_INTEGER < o.baseAmount then .error (.refused "recovery_obligation_amount")
    else .ok { db with obligations := db.obligations ++ [o] }
  | .invoice i =>
    if db.invoices.any fun x => x.id = i.id then .error (.refused "invoice_pkey")
    else if i.recoveryObligationId.any fun id => ¬ db.obligations.any fun o => o.id = id then
      .error (.refused "invoice_entitlement_recovery_fk")
    else .ok { db with invoices := db.invoices ++ [i] }
  | .request r =>
    if db.requests.any fun x => x.id = r.id then .error (.refused "payment_request_pkey")
    else if ¬ db.invoices.any fun i => i.id = r.invoiceId ∧ i.total = r.amount then
      .error (.refused "a payment request is for the full invoice total until B-010 is decided")
    else if r.status ≠ .created then .error (.refused "a payment request is created as created with no lifecycle data")
    else .ok { db with requests := db.requests ++ [r] }
  | .requestStatus r status =>
    if r ∉ db.requests then .error .notFound
    else if ¬ transitionAllowed r.status status ∨ status = .paid then .error (.refused "payment_request_lifecycle")
    else .ok { db with requests := replaceRow PaymentRequest.id { r with status } db.requests }
  | .receipt r =>
    if db.receipts.any fun x => x.id = r.id then .error (.refused "payment_event_receipt_pkey")
    -- the receipt of an applied success is written with its effect, by `paymentSucceeded`
    else if r.eventName = .succeeded ∧ r.outcome = .applied then .error .notFound
    else .ok { db with receipts := db.receipts ++ [r] }
  | .lateSuccess l =>
    if db.lateSuccesses.any fun x => x.lateSuccessId = l.lateSuccessId ∨ (l.factId ≠ none ∧ x.factId = l.factId) then
      .error (.refused "payment_late_success_unique")
    else if l.amount ≤ 0 ∨ MAX_SAFE_INTEGER < l.amount then .error (.refused "payment_late_success_amount")
    else .ok { db with lateSuccesses := db.lateSuccesses ++ [l] }
  | .lateSettlement id =>
    if db.payments.any fun p => p.evidence = .lateSuccess id then .error (.refused "late_success_one_effect")
    else .ok { db with lateSettlements := db.lateSettlements ++ [id] }

inductive Op
  | paymentSucceeded (paymentRequestId receiptId : Uuid) (ids : FreshIds) (now : Int)
  | lateSuccessRecovers (lateSuccessId : Uuid) (ids : FreshIds) (now : Int)
  | writeOff (f : FinancialLoss)
  | record (r : Record)

def Op.run (db : Db) : Op → Except Failure Db
  | .paymentSucceeded r x ids now => Recovery.paymentSucceeded db r x ids now
  | .lateSuccessRecovers l ids now => Recovery.lateSuccessRecovers db l ids now
  | .writeOff f => db.insertWriteOff f
  | .record r => db.record r

def Step (db db' : Db) : Prop := ∃ o : Op, o.run db = .ok db'

def Init (db : Db) : Prop := db = ⟨[], [], [], [], [], [], [], [], [], []⟩

abbrev Runs : Db → Prop := Reachable Init Step

end NawaraCore.Recovery
