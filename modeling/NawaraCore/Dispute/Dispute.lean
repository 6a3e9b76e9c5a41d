import Mathlib.Algebra.Ring.Int.Defs
import NawaraCore.Payment.Webhook
import NawaraCore.Refund.RefundService

/-!
# Disputes, chargebacks and dispute exposure

The rows that payment-service keeps for disputes, and the writes its database admits. What
payments, attempts and captures say is read from the books, which change beside the disputes.
-/

namespace NawaraCore.Disputes

open Payments (Uuid PaymentError PaymentStatus WebhookEventState enforce trim isoCurrency maxSafeInteger)
open Refunds (failureCodeShape hasNoNul)

structure PaymentRef where
  id : Uuid
  status : PaymentStatus
  succeededAttemptId : Option Uuid
  liveMode : Option Bool
deriving DecidableEq

structure AttemptRef where
  id : Uuid
  paymentId : Uuid
  provider : String
  providerTransactionId : Option String
deriving DecidableEq

/-- A capture fact; `named` by a recorded late success. -/
structure Capture where
  id : Uuid
  paymentId : Uuid
  attemptId : Uuid
  provider : String
  amount : Int
  currency : String
  contested : Bool
  named : Bool

structure Books where
  payments : List PaymentRef
  attempts : List AttemptRef
  captures : List Capture

inductive DisputeKind
  | opened | won | lost
deriving DecidableEq

structure Chargeback where
  txnId : String
  amount : Int
  currency : String
deriving DecidableEq

structure DisputeNotice where
  kind : DisputeKind
  providerDisputeId : String
  amount : Int
  currency : String
  reason : Option String
  chargeback : Option Chargeback
  providerOccurredAt : Option Int
deriving DecidableEq

def isAmount (v : Int) : Bool := 0 < v ∧ v ≤ maxSafeInteger

def isCurrency (v : String) : Bool := 1 ≤ utf16Length v ∧ utf16Length v ≤ 16

def isReference (v : String) : Bool := 1 ≤ utf16Length v ∧ utf16Length v ≤ 256

def DisputeNotice.parses (n : DisputeNotice) : Bool :=
  isReference n.providerDisputeId && isAmount n.amount && isCurrency n.currency &&
    (n.reason.map failureCodeShape).getD true &&
    n.chargeback.all fun c => n.kind = .lost && isReference c.txnId && isAmount c.amount && isCurrency c.currency

inductive DisputeStatus
  | opened | won | lost
deriving DecidableEq

inductive CaptureBasis
  | settlingCapture | lateCapture

structure Dispute where
  id : Uuid
  provider : String
  providerDisputeId : String
  paymentId : Uuid
  attemptId : Uuid
  captureFactId : Uuid
  captureBasis : CaptureBasis
  amount : Int
  currency : String
  reason : Option String
  status : DisputeStatus
  providerOpenedAt : Option Int
  providerClosedAt : Option Int
  chargebackFactId : Option Uuid

structure ChargebackFact where
  id : Uuid
  provider : String
  providerTxnId : String
  paymentId : Uuid
  attemptId : Uuid
  disputeId : Uuid
  amount : Int
  currency : String
  webhookEventId : Uuid

inductive Disposition
  | applied | duplicate | conflict
deriving DecidableEq

inductive Reason
  | chargebackEvidence | afterTerminal
  | captureUnverified | exposureMismatch | paymentMismatch | terminalContradiction
  | chargebackMismatch | chargebackUnverifiable
deriving DecidableEq

def Reason.text : Reason → String
  | .chargebackEvidence => "chargeback_evidence"
  | .afterTerminal => "after_terminal"
  | .captureUnverified => "capture_unverified"
  | .exposureMismatch => "exposure_mismatch"
  | .paymentMismatch => "payment_mismatch"
  | .terminalContradiction => "terminal_contradiction"
  | .chargebackMismatch => "chargeback_mismatch"
  | .chargebackUnverifiable => "chargeback_unverifiable"

structure Observation where
  webhookEventId : Uuid
  provider : String
  providerDisputeId : String
  kind : DisputeKind
  paymentId : Uuid
  attemptId : Uuid
  disputeId : Option Uuid
  amount : Int
  currency : String
  chargeback : Option Chargeback
  disposition : Disposition
  reason : Option Reason

inductive DisputeEvent
  | opened (disputeId : Uuid)
  | lost (disputeId : Uuid) (chargebackFactId : Option Uuid)

/-- A stored `payment.dispute.*` notification; `notice` is `none` when its claim is malformed. -/
structure DisputeNotification where
  id : Uuid
  provider : String
  reference : String
  notice : Option DisputeNotice
  state : WebhookEventState
  outcome : Option String
  attempts : Nat
  matchedAttemptId : Option Uuid
deriving DecidableEq

structure Db where
  books : Books
  notifications : List DisputeNotification
  disputes : List Dispute
  chargebacks : List ChargebackFact
  observations : List Observation
  outbox : List DisputeEvent

inductive ExposureState
  | clear | exposed | unresolved
deriving DecidableEq

structure DisputeExposure where
  state : ExposureState
  openDisputes : Nat
  disputeExposure : Int
  chargedBack : Int
  conflicts : Nat
  lostWithoutChargeback : Nat

def DisputeNotification.pendingAt (b : Books) (paymentId : Uuid) (e : DisputeNotification) : Bool :=
  !e.state.settled && b.attempts.any fun a => some a.id = e.matchedAttemptId ∧ a.paymentId = paymentId

def Db.netExposure (db : Db) (d : Dispute) : Int :=
  max 0 (d.amount - ((db.chargebacks.filter (·.disputeId = d.id)).map (·.amount)).sum)

def disputeExposure (db : Db) (paymentId : Uuid) : DisputeExposure :=
  let live := db.disputes.filter fun d => d.paymentId = paymentId ∧ d.status = .opened
  let exposure := (live.map db.netExposure).sum
  let charged := ((db.chargebacks.filter (·.paymentId = paymentId)).map (·.amount)).sum
  let conflicts := (db.observations.filter fun o => o.paymentId = paymentId ∧ o.disposition = .conflict).length
  let unfunded := (db.disputes.filter fun d =>
    d.paymentId = paymentId ∧ d.status = .lost ∧ d.chargebackFactId = none).length
  let pending := (db.notifications.filter (·.pendingAt db.books paymentId)).length
  { state :=
      if 0 < conflicts ∨ 0 < unfunded ∨ 0 < pending then .unresolved
      else if 0 < live.length ∨ 0 < exposure ∨ 0 < charged then .exposed
      else .clear
    openDisputes := live.length
    disputeExposure := exposure
    chargedBack := charged
    conflicts
    lostWithoutChargeback := unfunded }

/-! ## Guarded writes -/

/-- A settling capture is of the succeeded attempt; a late one is the named, single capture of a payment that ended. -/
def basisHolds (b : Books) (p : PaymentRef) (d : Dispute) : Bool :=
  match d.captureBasis with
  | .settlingCapture => p.succeededAttemptId = some d.attemptId
  | .lateCapture => Payments.finalUnsuccessful p.status ∧ p.succeededAttemptId = none ∧
      (b.captures.filter fun f => f.paymentId = d.paymentId ∧ f.attemptId = d.attemptId).length = 1 ∧
      b.captures.any fun f => f.id = d.captureFactId ∧ f.named

def disputeChecks (db : Db) (d : Dispute) : List (String × Bool) :=
  [ ("payment_dispute_pkey", !db.disputes.any (·.id = d.id)),
    ("character_not_in_repertoire", hasNoNul d.providerDisputeId),
    ("payment_dispute_reference_length", 1 ≤ d.providerDisputeId.length ∧ d.providerDisputeId.length ≤ 256),
    ("payment_dispute_amount", 0 < d.amount ∧ d.amount ≤ maxSafeInteger),
    ("payment_dispute_currency", isoCurrency d.currency),
    ("payment_dispute_reason", (d.reason.map failureCodeShape).getD true),
    ("payment_dispute_identity",
      !db.disputes.any fun x => x.provider = d.provider ∧ x.providerDisputeId = d.providerDisputeId),
    ("payment_dispute_capture", db.books.captures.any fun f => f.id = d.captureFactId ∧ f.paymentId = d.paymentId ∧
      f.attemptId = d.attemptId ∧ f.provider = d.provider ∧ !f.contested),
    ("payment_dispute_exposure", db.books.captures.any fun f => f.id = d.captureFactId ∧ d.currency = f.currency ∧
      d.amount ≤ f.amount),
    ("payment_dispute_capture_basis", db.books.payments.any fun p => p.id = d.paymentId && basisHolds db.books p d),
    ("payment_dispute_chargeback_order", d.chargebackFactId = none) ]

def Db.insertDispute (db : Db) (d : Dispute) : Except PaymentError Db := do
  enforce (disputeChecks db d)
  return { db with disputes := db.disputes ++ [d] }

/-- The transition guard; what identifies and binds the dispute is the same in both rows. -/
def disputeUpdateChecks (db : Db) (d x : Dispute) : List (String × Bool) :=
  [ ("payment_dispute_terminal", d.status = x.status ∨ d.status = .opened),
    ("payment_dispute_closing", d.status ≠ x.status ∨ d.providerClosedAt = x.providerClosedAt),
    ("payment_dispute_chargeback_lost", x.chargebackFactId = none ∨ x.status = .lost),
    ("payment_dispute_chargeback_once", d.chargebackFactId = none ∨ x.chargebackFactId = d.chargebackFactId),
    ("payment_dispute_chargeback_fact",
      x.chargebackFactId = none ∨ db.chargebacks.any fun f => some f.id = x.chargebackFactId ∧ f.disputeId = x.id) ]

def Db.replaceDispute (db : Db) (x : Dispute) : Db :=
  { db with disputes := db.disputes.map fun y => if y.id = x.id then x else y }

/-- `UPDATE payment_dispute`: the row `d` becomes `x`, which keeps its id. -/
def Db.updateDispute (db : Db) (d x : Dispute) : Except PaymentError Db := do
  enforce (disputeUpdateChecks db d x)
  return db.replaceDispute x

def chargebackChecks (db : Db) (f : ChargebackFact) : List (String × Bool) :=
  [ ("provider_transaction_fact_pkey", !db.chargebacks.any (·.id = f.id)),
    ("character_not_in_repertoire", hasNoNul f.providerTxnId ∧ hasNoNul f.currency),
    ("provider_transaction_fact_txn_length", 1 ≤ f.providerTxnId.length ∧ f.providerTxnId.length ≤ 256),
    ("provider_transaction_fact_amount", 0 < f.amount ∧ f.amount ≤ maxSafeInteger),
    ("provider_transaction_fact_currency", 1 ≤ f.currency.length ∧ f.currency.length ≤ 16),
    ("provider_transaction_fact_identity",
      !db.chargebacks.any fun g => g.provider = f.provider ∧ g.providerTxnId = f.providerTxnId),
    ("provider_transaction_fact_chargeback_dispute", db.disputes.any fun d => d.id = f.disputeId ∧
      d.paymentId = f.paymentId ∧ d.attemptId = f.attemptId ∧ d.provider = f.provider ∧ d.status = .lost) ]

def Db.insertChargeback (db : Db) (f : ChargebackFact) : Except PaymentError Db := do
  enforce (chargebackChecks db f)
  return { db with chargebacks := db.chargebacks ++ [f] }

def observationShape (o : Observation) : Bool :=
  (o.chargeback = none ∨ o.kind = .lost) &&
    match o.disposition, o.reason with
    | .applied, none | .applied, some .chargebackEvidence => true
    | .duplicate, none | .duplicate, some .afterTerminal => true
    | .conflict, some .chargebackEvidence | .conflict, some .afterTerminal => false
    | .conflict, some _ => true
    | _, _ => false

def chargebackShape (c : Chargeback) : Bool :=
  1 ≤ c.txnId.length ∧ c.txnId.length ≤ 256 ∧ 0 < c.amount ∧ c.amount ≤ maxSafeInteger ∧
    1 ≤ c.currency.length ∧ c.currency.length ≤ 16 ∧ hasNoNul c.txnId ∧ hasNoNul c.currency

def observationChecks (db : Db) (o : Observation) : List (String × Bool) :=
  [ ("payment_dispute_observation_webhook",
      db.notifications.any fun e => e.id = o.webhookEventId ∧ e.provider = o.provider),
    ("payment_dispute_observation_dispute",
      (o.disputeId.map fun id => db.disputes.any fun d =>
        d.id = id ∧ d.provider = o.provider ∧ d.providerDisputeId = o.providerDisputeId).getD (o.disposition ≠ .applied)),
    ("payment_dispute_observation_webhookEventId_key", !db.observations.any (·.webhookEventId = o.webhookEventId)),
    ("character_not_in_repertoire", hasNoNul o.providerDisputeId ∧ hasNoNul o.currency),
    ("payment_dispute_observation_reference_length", 1 ≤ o.providerDisputeId.length ∧ o.providerDisputeId.length ≤ 256),
    ("payment_dispute_observation_amount", 0 < o.amount ∧ o.amount ≤ maxSafeInteger),
    ("payment_dispute_observation_currency", 1 ≤ o.currency.length ∧ o.currency.length ≤ 16),
    ("payment_dispute_observation_chargeback", (o.chargeback.map chargebackShape).getD true),
    ("payment_dispute_observation_reason", observationShape o) ]

def Db.insertObservation (db : Db) (o : Observation) : Except PaymentError Db := do
  enforce (observationChecks db o)
  return { db with observations := db.observations ++ [o] }

end NawaraCore.Disputes
