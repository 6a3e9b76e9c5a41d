import NawaraCore.Billing.PaymentEvent

/-!
# Payment requests

One payment request of an invoice: the operations of `PaymentRequestRepository`
that change it, the receipts of the payment events and the settlement effects a
paid invoice has. Every operation is one transaction under the locks of the
invoice and the request, so a run is a sequence of operations; a failed operation
changes nothing.
-/

namespace NawaraCore.PaymentRequests

open Subscriptions (Uuid SubscriptionRow)

/-! ## Rows -/

structure PaymentRequest where
  id : Uuid
  invoiceId : Uuid
  amount : Int
  currency : String
  status : PaymentRequestStatus
  paymentId : Option Uuid
  mappingVersion : Nat
  sendAttempts : Nat
  cancelRequestedAt : Option Int
  revision : Nat

structure InvoiceLine where
  productId : Uuid
  priceId : Uuid
  recurring : Bool

structure Routing where
  purpose : String
  beneficiaryUserId : Option String
  organizationId : Option Uuid
  productId : Option Uuid
  assistanceRequestId : Option Uuid
  recoveryObligationId : Option Uuid

structure Invoice where
  id : Uuid
  status : InvoiceStatus
  payer : Party
  seller : Party
  organizationId : Option Uuid
  currency : String
  total : Int
  lines : List InvoiceLine
  routing : Option Routing

inductive ReceiptOutcome
  | applied | ignored | conflict | deferred
deriving DecidableEq

structure Receipt where
  id : Uuid
  eventId : Uuid
  eventName : PaymentEventName
  paymentRequestId : Uuid
  paymentId : Option Uuid
  outcome : ReceiptOutcome

structure Purchase where
  userId : String
  productId : Uuid
  priceId : Uuid
  invoiceId : Uuid
  paymentRequestId : Uuid
  receiptId : Uuid
  settledAt : Int
  assistanceRequestId : Option Uuid

inductive LateReason
  | channel_closed | purchase_exists | cash_return_obligation_exists | request_not_settleable

structure LateSettlement where
  assistanceRequestId : Uuid
  invoiceId : Uuid
  paymentRequestId : Uuid
  receiptId : Uuid
  reason : LateReason
  settledAt : Int

structure RecoveryPayment where
  obligationId : Uuid
  invoiceId : Uuid
  paymentRequestId : Uuid
  receiptId : Uuid
  amount : Int
  principalAmount : Int
  surplusAmount : Int

structure RecoveryObligation where
  baseAmount : Int
  currency : String
  recovered : Bool

inductive AssistanceStatus
  | cash_collected | settled | other
deriving DecidableEq

inductive ChannelStatus
  | open | uncertain | closed | settled
deriving DecidableEq

structure AssistanceRequest where
  status : AssistanceStatus
  cashReturnObligation : Bool

structure Books where
  subs : Subscriptions.Db
  personalProduct : Uuid → Bool
  purchases : List Purchase
  assistance : Uuid → Option AssistanceRequest
  channels : Uuid → Option ChannelStatus
  lateSettlements : List LateSettlement
  obligations : Uuid → Option RecoveryObligation
  recoveryPayments : List RecoveryPayment

structure State where
  request : PaymentRequest
  invoice : Invoice
  receipts : List Receipt
  books : Books
  takenPaymentIds : List Uuid

inductive Failure
  | notFound
  | billing (status : Nat) (code : String)
  | refused (constraint : String)
  | subscription (failure : Subscriptions.Failure)
  | error (message : String)

def PaymentRequestStatus.terminal : PaymentRequestStatus → Bool
  | .paid | .failed | .cancelled | .expired | .rejected => true
  | .created | .sending | .requested => false

def transitionAllowed : PaymentRequestStatus → PaymentRequestStatus → Bool
  | .created, .sending | .created, .cancelled | .sending, .requested | .sending, .rejected
  | .requested, .paid | .requested, .failed | .requested, .expired | .requested, .cancelled => true
  | _, _ => false

def paymentIdShape (r : PaymentRequest) : Bool :=
  match r.status with
  | .created | .sending | .rejected => r.paymentId.isNone
  | .requested | .paid | .failed | .expired => r.paymentId.isSome
  | .cancelled => true

/-- An `UPDATE payment_request`: the lifecycle trigger, the checks and the unique payment id. -/
def updateRequest (invoiceStatus : InvoiceStatus) (taken : List Uuid) (old new : PaymentRequest) :
    Except Failure PaymentRequest :=
  if new.status ≠ old.status ∧ ¬ transitionAllowed old.status new.status then .error (.refused "payment_request_lifecycle")
  else if new.status ≠ old.status ∧ new.status = .paid ∧ invoiceStatus ≠ .open then
    .error (.refused "a payment request can become paid only for an open invoice")
  else if new.paymentId ≠ old.paymentId ∧
      ¬ (old.paymentId = none ∧ old.status = .sending ∧ new.status = .requested) then
    .error (.refused "paymentId is set once, when it becomes requested")
  else if old.cancelRequestedAt ≠ none ∧ new.cancelRequestedAt ≠ old.cancelRequestedAt then
    .error (.refused "cancelRequestedAt is set once")
  else if ¬ paymentIdShape new then .error (.refused "payment_request_payment_id")
  else if new.paymentId ≠ old.paymentId ∧ taken.any fun p => some p = new.paymentId then
    .error (.refused "payment_request_payment_id_unique")
  else .ok { new with revision := if new.status ≠ old.status then old.revision + 1 else old.revision }

/-- The `UPDATE invoice` to `paid`: only through a request that is `paid` for the full total. -/
def payInvoice (request : PaymentRequest) (invoice : Invoice) : Except Failure Invoice :=
  if invoice.status ≠ .open then .error (.refused "invoice_lifecycle")
  else if request.status ≠ .paid ∨ request.amount ≠ invoice.total then
    .error (.refused "invoice can become paid only through a paid payment request for its full total")
  else .ok { invoice with status := .paid }

/-! ## Settlement effects -/

inductive SettlementOutcome
  | settled | purchased | late | conflict | unrouted | recovery | recovered

/-- `recordPurchase`; `verified` is the insert guard's evidence. -/
def recordPurchase (b : Books) (verified : Bool) (p : Purchase) : Except Failure Books :=
  if ¬ b.personalProduct p.productId then
    .error (.error "personal purchase: the product is not a personal subscription product")
  else if ¬ verified then .error (.refused "subscription_purchase_verified")
  else if b.purchases.any fun q => q.invoiceId = p.invoiceId ∨ q.receiptId = p.receiptId ∨
      (p.assistanceRequestId ≠ none ∧ q.assistanceRequestId = p.assistanceRequestId) then .ok b
  else .ok { b with purchases := b.purchases ++ [p] }

def lateReason (b : Books) (request : AssistanceRequest) (requestId invoiceId : Uuid) : Option LateReason :=
  if b.channels invoiceId = none ∨ b.channels invoiceId = some .closed ∨ b.channels invoiceId = some .settled then
    some .channel_closed
  else if b.purchases.any fun q => q.assistanceRequestId = some requestId then some .purchase_exists
  else if request.cashReturnObligation then some .cash_return_obligation_exists
  else if request.status ≠ .cash_collected then some .request_not_settleable
  else none

def recurringLines (invoice : Invoice) (productId : Option Uuid) : List InvoiceLine :=
  invoice.lines.filter fun l => l.recurring ∧ some l.productId = productId

def applyAssistedSettlement (b : Books) (verified : Bool) (invoice : Invoice) (routing : Routing)
    (assistanceRequestId paymentRequestId receiptId : Uuid) (settledAt : Int) :
    Except Failure (Books × Option SettlementOutcome) := do
  match b.assistance assistanceRequestId with
  | none => .error (.error "assistance_request")
  | some request =>
    match lateReason b request assistanceRequestId invoice.id with
    | some reason =>
      if b.lateSettlements.any fun l => l.invoiceId = invoice.id ∨ l.receiptId = receiptId then .ok (b, some .late)
      else .ok ({ b with lateSettlements := b.lateSettlements ++
        [⟨assistanceRequestId, invoice.id, paymentRequestId, receiptId, reason, settledAt⟩] }, some .late)
    | none =>
      match recurringLines invoice routing.productId, routing.beneficiaryUserId with
      | [line], some userId =>
        let b ← recordPurchase b verified ⟨userId, line.productId, line.priceId, invoice.id, paymentRequestId, receiptId,
          settledAt, some assistanceRequestId⟩
        .ok ({ b with
          channels := Function.update b.channels invoice.id (some .settled)
          assistance := Function.update b.assistance assistanceRequestId (some { request with status := .settled }) },
          some .purchased)
      | _, _ => .ok (b, some .unrouted)

def outstanding (b : Books) (obligationId : Uuid) (o : RecoveryObligation) : Int :=
  o.baseAmount - ((b.recoveryPayments.filter fun p => p.obligationId = obligationId).map RecoveryPayment.principalAmount).sum

def applyRecoveryPayment (b : Books) (verified : Bool) (invoice : Invoice) (request : PaymentRequest)
    (obligationId receiptId : Uuid) : Except Failure (Books × Option SettlementOutcome) :=
  match b.obligations obligationId with
  | none => .error (.error "recovery_obligation")
  | some o =>
    if ¬ verified then .error (.refused "recovery_payment_verified")
    else if request.currency ≠ o.currency then .error (.refused "recovery_payment_currency")
    else if b.recoveryPayments.any fun p => p.paymentRequestId = request.id ∨ p.receiptId = receiptId then
      .error (.refused "recovery_payment_unique")
    else
      let principal := min request.amount (max 0 (outstanding b obligationId o))
      let b := { b with recoveryPayments := b.recoveryPayments ++
        [⟨obligationId, invoice.id, request.id, receiptId, request.amount, principal, request.amount - principal⟩] }
      if ¬ o.recovered ∧ outstanding b obligationId o ≤ 0 then
        .ok ({ b with obligations := Function.update b.obligations obligationId (some { o with recovered := true }) },
          some .recovered)
      else .ok (b, some .recovery)

/-- The Organization arm of `linkSubscription`: a different offering is reported, never a rollback of the payment. -/
def settleOrganization (b : Books) (verified : Bool) (invoice : Invoice) (line : InvoiceLine)
    (organizationId paymentRequestId receiptId : Uuid) (settledAt : Int) :
    Except Failure (Books × Option SettlementOutcome) :=
  let subs := { b.subs with
    routed := Function.update b.subs.routed invoice.id (some (organizationId, line.productId))
    verified := fun _ _ _ => verified }
  match Subscriptions.applySettlement subs
      ⟨organizationId, line.productId, line.priceId, settledAt, invoice.id, paymentRequestId, receiptId⟩ with
  | .ok r => .ok ({ b with subs := r.1 }, some .settled)
  | .error (.billing _ "subscription_conflict") => .ok (b, some .conflict)
  | .error e => .error (.subscription e)

def linkSubscription (b : Books) (verified : Bool) (invoice : Invoice) (request : PaymentRequest) (receiptId : Uuid)
    (settledAt : Int) : Except Failure (Books × Option SettlementOutcome) := do
  match invoice.routing with
  | some r =>
    match r.purpose, r.assistanceRequestId, r.recoveryObligationId with
    | "assisted_settlement", some assistanceRequestId, _ =>
      applyAssistedSettlement b verified invoice r assistanceRequestId request.id receiptId settledAt
    | "recovery_settlement", _, some obligationId =>
      applyRecoveryPayment b verified invoice request obligationId receiptId
    | "direct_purchase", _, _ =>
      match recurringLines invoice r.productId, r.beneficiaryUserId with
      | [line], some userId =>
        let b ← recordPurchase b verified ⟨userId, line.productId, line.priceId, invoice.id, request.id, receiptId,
          settledAt, none⟩
        .ok (b, some .purchased)
      | _, _ => .ok (b, some .unrouted)
    | purpose, _, _ =>
      match invoice.organizationId, invoice.lines.filter InvoiceLine.recurring with
      | some organizationId, [line] =>
        if purpose ≠ "organization_subscription" then .ok (b, none)
        else if r.organizationId ≠ some organizationId ∨ r.productId ≠ some line.productId then .ok (b, some .unrouted)
        else settleOrganization b verified invoice line organizationId request.id receiptId settledAt
      | _, _ => .ok (b, none)
  | none =>
    match invoice.organizationId, invoice.lines.filter InvoiceLine.recurring with
    | some _, [_] => .ok (b, some .unrouted)
    | _, _ => .ok (b, none)

/-! ## Payment events -/

structure Config where
  requireLive : Bool
  deterministicEventId : Uuid → String → Uuid

structure EventApplication where
  outcome : ReceiptOutcome
  decision : Option Decision
  firstDelivery : Bool
  subscription : Option SettlementOutcome

def Decision.outcome : Decision → ReceiptOutcome
  | .ignored _ => .ignored
  | .deferred => .deferred
  | .conflict _ => .conflict
  | .applied _ _ => .applied

def PaymentRequest.facts (r : PaymentRequest) : RequestFacts :=
  ⟨r.id, r.status, r.paymentId, r.amount, r.currency, some r.mappingVersion⟩

def Invoice.facts (i : Invoice) : InvoiceFacts :=
  ⟨i.id, i.status, i.payer, i.seller, i.organizationId, i.currency, i.total, i.routing.map Routing.purpose,
    i.routing.bind Routing.beneficiaryUserId⟩

/-- The request and invoice an event is about: no row when it names another request. -/
def decisionOf (cfg : Config) (s : State) (event : PaymentEventFacts) : Decision :=
  if event.paymentRequestId = s.request.id then
    decidePaymentEvent event (some s.request.facts) (some s.invoice.facts) cfg.requireLive
  else decidePaymentEvent event none none cfg.requireLive

/-- The effect of an applied decision on the request, the invoice and the books. -/
def applyDecision (s : State) (requestTo : PaymentRequestStatus) (invoiceToPaid : Bool) (receiptId : Uuid)
    (settledAt : Int) : Except Failure (State × Option SettlementOutcome) := do
  let request ← updateRequest s.invoice.status s.takenPaymentIds s.request { s.request with status := requestTo }
  if invoiceToPaid then
    let invoice ← payInvoice request s.invoice
    -- the guards of the effect tables: the applied receipt, the request and the invoice are paid
    let verified := s.receipts.any fun r => r.id = receiptId ∧ r.outcome = .applied ∧ r.eventName = .succeeded ∧
      r.paymentRequestId = request.id
    let (books, outcome) ← linkSubscription s.books verified invoice request receiptId settledAt
    .ok ({ s with request := request, invoice := invoice, books := books }, outcome)
  else .ok ({ s with request := request }, none)

/-- `receiptId` is the id the database generates for the receipt. -/
def applyPaymentEvent (cfg : Config) (s : State) (eventId : Uuid) (event : PaymentEventFacts) (settledAt : Int)
    (receiptId : Uuid) : Except Failure (State × EventApplication) := do
  if s.receipts.any fun r => r.eventId = eventId ∧ r.outcome = .applied then
    .ok (s, ⟨.applied, none, false, none⟩)
  else
    let decision := decisionOf cfg s event
    if s.receipts.any fun r => r.id = receiptId then .error (.refused "payment_event_receipt_pkey")
    else
      let paymentId := if event.paymentRequestId = s.request.id then s.request.paymentId else none
      let s := { s with receipts := s.receipts ++
        [⟨receiptId, eventId, event.name, event.paymentRequestId, paymentId, decision.outcome⟩] }
      match decision with
      | .applied requestTo invoiceToPaid =>
        let (s, outcome) ← applyDecision s requestTo invoiceToPaid receiptId settledAt
        .ok (s, ⟨.applied, some decision, true, outcome⟩)
      | d => .ok (s, ⟨d.outcome, some d, true, none⟩)

structure PaymentSnapshot where
  paymentId : Uuid
  paymentRequestId : Uuid
  status : String
  amount : JsonAmount
  currency : String
  sourceType : String
  sourceId : Uuid
  payer : Party
  seller : Party
  organizationId : Option Uuid
  closedAt : Option Int
  purpose : Option String
  beneficiaryUserId : Option String
  liveMode : Option Bool

def snapshotEvent (status : String) : Option PaymentEventName :=
  match status with
  | "succeeded" => some .succeeded
  | "failed" => some .failed
  | "cancelled" => some .cancelled
  | "expired" => some .expired
  | _ => none

def snapshotFacts (name : PaymentEventName) (p : PaymentSnapshot) : PaymentEventFacts where
  name := name
  source := "payment-service"
  paymentId := p.paymentId
  producer := EXPECTED_PRODUCER
  paymentRequestId := p.paymentRequestId
  sourceType := p.sourceType
  sourceId := p.sourceId
  payer := p.payer
  seller := p.seller
  organizationId := p.organizationId
  amount := p.amount
  currency := p.currency
  revision := 0
  purpose := p.purpose
  beneficiaryUserId := p.beneficiaryUserId
  liveMode := p.liveMode

/-- A snapshot that is not terminal is `none`; `now` stands in for a missing `closedAt`. -/
def applyReconciledSnapshot (cfg : Config) (s : State) (p : PaymentSnapshot) (now : Int) (receiptId : Uuid) :
    Except Failure (State × Option EventApplication) := do
  match snapshotEvent p.status with
  | none => .ok (s, none)
  | some name =>
    let (s, a) ← applyPaymentEvent cfg s (cfg.deterministicEventId p.paymentId p.status) (snapshotFacts name p)
      (p.closedAt.getD now) receiptId
    .ok (s, some a)

def State.update (s : State) (new : PaymentRequest) : Except Failure State := do
  let request ← updateRequest s.invoice.status s.takenPaymentIds s.request new
  .ok { s with request := request }

def claimForDispatch (s : State) (stale : Bool) : Except Failure State :=
  if s.request.status = .created ∨ (s.request.status = .sending ∧ stale) then
    s.update { s.request with status := .sending, sendAttempts := s.request.sendAttempts + 1 }
  else .ok s

def markRequested (s : State) (paymentId : Uuid) : Except Failure State :=
  if s.request.status ≠ .sending then .ok s
  else s.update { s.request with status := .requested, paymentId := some paymentId }

def markRejected (s : State) : Except Failure State :=
  if s.request.status ≠ .sending then .ok s else s.update { s.request with status := .rejected }

/-- `related` is whether the caller is a party of the invoice. -/
def cancelUnsent (s : State) (related : Bool) : Except Failure State :=
  if ¬ related then .error .notFound
  else if s.request.status ≠ .created then .error (.billing 409 "payment_request_in_flight")
  else s.update { s.request with status := .cancelled }

def markCancelRequested (s : State) (related : Bool) (now : Int) : Except Failure State :=
  if ¬ related then .error .notFound
  else if s.request.status ≠ .requested ∨ s.request.paymentId = none then
    .error (.billing 409 "payment_request_in_flight")
  else if s.request.cancelRequestedAt = none then s.update { s.request with cancelRequestedAt := some now }
  else .ok s

inductive Op
  | deliver (eventId : Uuid) (event : PaymentEventFacts) (settledAt : Int) (receiptId : Uuid)
  | reconcile (snapshot : PaymentSnapshot) (now : Int) (receiptId : Uuid)
  | claimForDispatch (stale : Bool)
  | markRequested (paymentId : Uuid)
  | markRejected
  | cancelUnsent (related : Bool)
  | markCancelRequested (related : Bool) (now : Int)

def Op.run (cfg : Config) (s : State) : Op → Except Failure State
  | .deliver e f t r => (applyPaymentEvent cfg s e f t r).map Prod.fst
  | .reconcile p n r => (applyReconciledSnapshot cfg s p n r).map Prod.fst
  | .claimForDispatch st => PaymentRequests.claimForDispatch s st
  | .markRequested p => PaymentRequests.markRequested s p
  | .markRejected => PaymentRequests.markRejected s
  | .cancelUnsent r => PaymentRequests.cancelUnsent s r
  | .markCancelRequested r n => PaymentRequests.markCancelRequested s r n

/-- The settlement effects of an invoice: subscription settlements and personal purchases. -/
def effects (b : Books) (invoiceId : Uuid) : Nat :=
  (b.subs.settlements.filter fun s => s.invoiceId = invoiceId).length +
    (b.purchases.filter fun p => p.invoiceId = invoiceId).length

/-- A committed operation on the request, or the rest of Billing at work: receipts of other requests, and books that
keep the effects of this invoice. -/
inductive Step (cfg : Config) (s : State) : Option Op → State → Prop
  | op {t : State} (o : Op) (h : o.run cfg s = .ok t) : Step cfg s (some o) t
  | other (rs : List Receipt) (books : Books) (taken : List Uuid)
      (hr : ∀ r ∈ rs, r.paymentRequestId ≠ s.request.id)
      (hb : effects books s.invoice.id = effects s.books s.invoice.id) :
      Step cfg s none { s with receipts := s.receipts ++ rs, books := books, takenPaymentIds := taken }

def Next (cfg : Config) (s t : State) : Prop := ∃ o, Step cfg s o t

def Init (s : State) : Prop :=
  s.request.status = .created ∧ s.request.paymentId = none ∧ s.request.invoiceId = s.invoice.id ∧
  s.invoice.status = .open ∧ s.request.amount = s.invoice.total ∧ effects s.books s.invoice.id = 0

end NawaraCore.PaymentRequests
