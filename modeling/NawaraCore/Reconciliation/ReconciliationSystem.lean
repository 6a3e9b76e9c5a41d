import NawaraCore.Reconciliation.LateSuccess

/-!
# The reconciliation system

The statements of Payment, the reconciliation workers and the rest of Billing, one
transaction or one read at a time. What a worker read may be stale when it writes.
-/

namespace NawaraCore.Reconciliation

open Subscriptions (Uuid)
open PaymentRequests (PaymentRequestStatus Failure transitionAllowed)

/-! ## The rest of Billing -/

inductive Record
  | invoice (i : Invoice)
  | request (r : PaymentRequest)
  | requestStatus (id : Uuid) (status : PaymentRequestStatus) (paymentId : Option Uuid)
  | success (id receiptId : Uuid)
  | channel (c : Channel)
  | channelStatus (invoiceId : Uuid) (status : ChannelStatus) (paymentRequestId : Option Uuid)
  | lateSettlement (s : LateSettlement)
  | application (lateSettlementId : Uuid)
  | purchase (p : Purchase)
  | reversal (purchaseId : Uuid)
  | obligation (o : Recovery.RecoveryObligation) (disputeId : Uuid)
  | recovery (id receiptId : Uuid) (ids : Recovery.FreshIds) (now : Int)
  | writeOff (f : Recovery.FinancialLoss)
  | directWriteOff (disputeId : Uuid)
  | surplusExternal (surplusId : Uuid)
  | surplusRefund (surplusId : Uuid)
  | surplusConfirmation (surplusId : Uuid)
  | refundCase (r : RefundCase)
  | refundCaseStatus (id : Uuid) (status : Losses.RefundCaseStatus)
  | relay (x : Relay)
  | relayStatus (id : Uuid) (status : Safety.RelayStatus)
  | loss (l : DisputeLoss)
  | refundEffect (refundCaseId : Uuid)
  | lossEffect (disputeId : Uuid)
  | overReturn (id evidenceKey : Uuid)

/-- A refund or a completed refund of its movement holds the effect of a loss back. -/
def Db.heldBack (db : Db) (disputeId : Uuid) : Bool :=
  db.losses.any fun l => l.disputeId = disputeId ∧ (db.refundLive l ∨ db.overlap l)

def Db.record (db : Db) : Record → Except Failure Db
  | .invoice i =>
    if db.invoices.any fun x => x.id = i.id then .error (.refused "invoice_pkey")
    else .ok { db with invoices := db.invoices ++ [i] }
  | .request r =>
    if db.requests.any fun x => x.id = r.id then .error (.refused "payment_request_pkey")
    else if (db.invoice? r.invoiceId).isNone then .error (.refused "payment_request_invoiceId_fkey")
    else if r.status ≠ .created ∨ r.paymentId.isSome then
      .error (.refused "a payment request is created as created with no lifecycle data")
    else .ok { db with requests := db.requests ++ [r] }
  | .requestStatus id status paymentId =>
    match db.request? id with
    | none => .error .notFound
    | some r =>
      if ¬ transitionAllowed r.status status ∨ status = .paid then .error (.refused "payment_request_lifecycle")
      else if paymentId.isSome ∧ (r.paymentId.isSome ∨ db.requests.any fun x => x.paymentId = paymentId) then
        .error (.refused "payment_request_payment_id")
      else .ok { db with requests := replaceRow PaymentRequest.id { r with status, paymentId := r.paymentId.or paymentId } db.requests }
  | .success id receiptId =>
    match db.request? id with
    | none => .error .notFound
    | some r =>
      if ¬ transitionAllowed r.status .paid then .error (.refused "payment_request_lifecycle")
      else if db.receipts.any fun x => x.id = receiptId then .error (.refused "payment_event_receipt_pkey")
      else .ok { db with
        requests := replaceRow PaymentRequest.id { r with status := .paid } db.requests
        receipts := db.receipts ++ [⟨receiptId, id, .succeeded, .applied⟩] }
  | .channel c =>
    if db.channels.any fun x => x.invoiceId = c.invoiceId then .error (.refused "assistance_settlement_channel_invoice")
    else .ok { db with channels := db.channels ++ [c] }
  | .channelStatus invoiceId status paymentRequestId =>
    .ok { db with channels := db.channels.map fun c =>
      if c.invoiceId = invoiceId then { c with status, paymentRequestId := c.paymentRequestId.or paymentRequestId } else c }
  | .lateSettlement s =>
    match s.evidence with
    | .receipt _ => db.insertLateSettlement s
    -- the one of a late success is recorded by its classification
    | .lateSuccess _ => .error .notFound
  | .application id =>
    if db.lateSettlements.any fun s => s.id = id then .ok { db with applications := db.applications ++ [id] } else .error .notFound
  | .purchase p =>
    if db.purchases.any fun x => x.id = p.id then .error (.refused "subscription_purchase_pkey")
    else .ok { db with purchases := db.purchases ++ [p] }
  | .reversal id => .ok { db with reversals := db.reversals ++ [id] }
  | .obligation o disputeId =>
    if db.heldBack disputeId then .error (.refused "recovery_obligation_refund_live")
    else (db.ledger.record (.obligation o)).map fun l => { db.withLedger l with appliedLosses := db.appliedLosses ++ [disputeId] }
  | .recovery id receiptId ids now =>
    match db.request? id with
    | none => .error .notFound
    | some r =>
      match (db.invoice? r.invoiceId).bind Invoice.routing with
      | some (.recovery_settlement o) =>
        (Recovery.applyRecoveryPayment db.ledger ⟨o, r.invoiceId, r.id, .receipt receiptId, r.amount, r.currency⟩ ids now).map
          fun (l, _) => db.withLedger l
      | _ => .error .notFound
  | .writeOff f => (db.ledger.insertWriteOff f).map fun l => { db with writeOffs := l.losses }
  | .directWriteOff disputeId =>
    if db.heldBack disputeId then .error (.refused "financial_loss_refund_live")
    else .ok { db with appliedLosses := db.appliedLosses ++ [disputeId] }
  | .surplusExternal id => .ok { db with surplusExternals := db.surplusExternals ++ [id] }
  | .surplusRefund id => .ok { db with surplusRefunds := db.surplusRefunds ++ [id] }
  | .surplusConfirmation id => .ok { db with surplusConfirmations := db.surplusConfirmations ++ [id] }
  | .refundCase r => db.insertRefundCase r
  | .refundCaseStatus id status =>
    match db.refundCases.find? fun r => r.id = id with
    | none => .error .notFound
    | some r =>
      if r.status ≠ .open then .error (.refused "refund_case_not_open")
      else .ok { db with refundCases := replaceRow RefundCase.id { r with status } db.refundCases }
  | .relay x =>
    if db.relays.any fun y => y.id = x.id then .error (.refused "refund_authorization_relay_pkey")
    else .ok { db with relays := db.relays ++ [{ x with attemptStatus := none }] }
  | .relayStatus id status =>
    match db.relays.find? fun x => x.id = id with
    | none => .error .notFound
    | some x =>
      if ¬ Safety.canMirror x.attemptStatus status then .error (.refused "refund_authorization_relay_transition")
      else .ok { db with relays := replaceRow Relay.id { x with attemptStatus := some status } db.relays }
  | .loss l =>
    if db.losses.any fun x => x.disputeId = l.disputeId then .error (.refused "payment_dispute_loss_pkey")
    else .ok { db with losses := db.losses ++ [l] }
  | .refundEffect id => .ok { db with refundEffects := db.refundEffects ++ [id] }
  | .lossEffect id => .ok { db with lossEffects := db.lossEffects ++ [id] }
  | .overReturn id key => .ok { db with overReturns := db.overReturns ++ [(id, key)] }

/-- What `discoverLocal` and Payment's reads open a case for; a row may be stale by the time its case is opened. -/
inductive Discovery
  | lateSettlement (lateSettlementId : Uuid)
  | unroutedSettlement (paymentRequestId : Uuid)
  | unmatchedCapture (factId paymentId : Uuid) (amount : Option Int) (currency : Option String) (reason : Option String)
  | other (c : CaseInput) (scope : Option Scope)

def Db.captureOf (db : Db) (s : LateSettlement) : Option Uuid :=
  match s.evidence with
  | .receipt _ => none
  | .lateSuccess id => (db.lateSuccess? id).bind LateSuccess.factId

def Db.discover (db : Db) (d : Discovery) (id : Uuid) : Except Failure (Db × Option Uuid) :=
  match d with
  | .lateSettlement lateSettlementId =>
    match db.lateSettlements.find? fun s => s.id = lateSettlementId with
    | none => .ok (db, none)
    | some s =>
      match db.request? s.paymentRequestId with
      | none => .ok (db, none)
      | some r =>
        openForPayment db ⟨.late_assisted_settlement, s.id, some r.id, r.paymentId, db.captureOf s, some r.amount, some r.currency, none⟩ id
  | .unroutedSettlement paymentRequestId =>
    match db.request? paymentRequestId with
    | none => .ok (db, none)
    | some r =>
      if r.status = .paid ∧ (db.invoice? r.invoiceId).any fun i => i.routing = none then
        openForPayment db ⟨.unrouted_settlement, r.id, some r.id, r.paymentId, none, some r.amount, some r.currency, none⟩ id
      else .ok (db, none)
  | .unmatchedCapture factId paymentId amount currency reason =>
    openForPayment db ⟨.unmatched_capture, factId, none, some paymentId, some factId, amount, currency, reason⟩ id
  | .other c scope =>
    if c.caseType.capturedMoney then .ok (db, none)
    else match scope with
      | none => openForPayment db c id
      | some scope => openCase db c scope id

/-! ## The system -/

structure Sys where
  db : Db
  stated : List PaymentLateSuccess
  reads : List (PaymentLateSuccess × Option RecoveryCaptureEvidence)
  discovered : List Uuid
  evidenced : List (Uuid × Option RecoveryCaptureEvidence)
  checked : List (Uuid × Option RecoveryCaptureEvidence)
  found : List (Uuid × Ref)
  outcomes : List (Uuid × ClassifyOutcome)

inductive Action
  | record (r : Record)
  | state (l : PaymentLateSuccess)
  | readStated (l : PaymentLateSuccess) (read : CaptureReadOutcome)
  | recordStated (l : PaymentLateSuccess) (evidence : Option RecoveryCaptureEvidence) (fresh : Fresh)
  | discover (lateSuccessId : Uuid)
  | readEvidence (lateSuccessId : Uuid) (read : CaptureReadOutcome)
  | check (lateSuccessId : Uuid) (evidence : Option RecoveryCaptureEvidence)
  | classify (lateSuccessId : Uuid) (evidence : Option RecoveryCaptureEvidence) (fresh : Fresh)
  | openCase (d : Discovery) (id : Uuid)
  | findEvidence (caseId : Uuid) (ref : Ref)
  | resolveOpen (caseId : Uuid) (ref : Ref)
  | resolve (caseId : Uuid) (kind : ResolutionKind)

def Sys.commit (s : Sys) (r : Except Failure Db) : Sys :=
  match r with
  | .ok db => { s with db }
  | .error _ => s

/-- A late success without any effect, as `discoverLocal` lists it. -/
def Db.unclassified (db : Db) (lateSuccessId : Uuid) : Bool :=
  (db.lateSuccess? lateSuccessId).isSome ∧ db.counted lateSuccessId = [] ∧ db.settled lateSuccessId = [] ∧
    db.listed .late_success lateSuccessId = []

def step (s : Sys) : Action → Sys
  | .record r => s.commit (s.db.record r)
  | .state l => { s with stated := l :: s.stated }
  | .readStated l read =>
    if l ∈ s.stated then
      { s with reads := (l, recoveryEvidence s.db l.paymentId l.factId l.amount l.currency read) :: s.reads }
    else s
  | .recordStated l evidence fresh =>
    if (l, evidence) ∈ s.reads then
      match Reconciliation.record s.db l evidence fresh with
      | .ok (db, _, outcome) => { s with db, outcomes := (outcome.map fun o => (l.lateSuccessId, o)).toList ++ s.outcomes }
      | .error _ => s
    else s
  | .discover id => if s.db.unclassified id then { s with discovered := id :: s.discovered } else s
  | .readEvidence id read =>
    match s.db.lateSuccess? id with
    | none => s
    | some l =>
      if id ∈ s.discovered then
        { s with evidenced := (id, recoveryEvidence s.db l.paymentId l.factId l.amount l.currency read) :: s.evidenced }
      else s
  | .check id evidence =>
    if (id, evidence) ∈ s.evidenced then
      if s.db.classified id then { s with outcomes := (id, .done) :: s.outcomes }
      else { s with checked := (id, evidence) :: s.checked }
    else s
  | .classify id evidence fresh =>
    if (id, evidence) ∈ s.checked then
      match classifyLocked s.db id evidence fresh with
      | .ok (db, outcome) => { s with db, outcomes := (id, outcome) :: s.outcomes }
      | .error _ => s
    else s
  | .openCase d id => s.commit ((s.db.discover d id).map Prod.fst)
  | .findEvidence caseId ref =>
    if (s.db.case? caseId).any fun c => (¬ s.db.resolutions.any fun r => r.caseId = caseId) ∧ s.db.finds c ref then
      { s with found := (caseId, ref) :: s.found }
    else s
  | .resolveOpen caseId ref =>
    if (caseId, ref) ∈ s.found then s.commit ((Reconciliation.resolve s.db caseId ref.kind).map Prod.fst) else s
  | .resolve caseId kind =>
    match kind with
    -- only the worker resolves by a refund
    | .refund_completed _ => s
    | kind => s.commit ((Reconciliation.resolve s.db caseId kind).map Prod.fst)

def run (s : Sys) (actions : List Action) : Sys := actions.foldl step s

def init : Sys := ⟨.empty, [], [], [], [], [], [], []⟩

end NawaraCore.Reconciliation
