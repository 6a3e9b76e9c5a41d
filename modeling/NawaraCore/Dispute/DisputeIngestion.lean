import NawaraCore.Dispute.Dispute

/-!
# The dispute ingestion service

One verified notice about a dispute, in one transaction under the payment's lock: the
dispute's change, its chargeback fact, the observation and the events commit together.
-/

namespace NawaraCore.Disputes

open Payments (Uuid PaymentError PaymentStatus enforce trim)

inductive Attribution
  | bound (capture : Capture) (basis : CaptureBasis)
  | held
  | unverified

def AttemptRef.referenced (provider reference : String) (a : AttemptRef) : Bool :=
  a.provider = provider ∧ (a.providerTransactionId = some reference ∨ toString a.id = reference)

def Books.findAttempt (b : Books) (provider reference : String) : Option AttemptRef :=
  b.attempts.find? (·.referenced provider reference)

def attributeDispute (b : Books) (payment : PaymentRef) (attempt : AttemptRef) : Attribution :=
  if payment.liveMode ≠ some false then .unverified
  else
    match b.captures.filter fun f => f.attemptId = attempt.id ∧ f.paymentId = payment.id with
    | [] =>
      if payment.succeededAttemptId = some attempt.id ∨ payment.status = .succeeded then .unverified else .held
    | [fact] =>
      if fact.contested then .unverified
      else if payment.succeededAttemptId = some attempt.id then .bound fact .settlingCapture
      else if payment.status = .succeeded then .unverified
      else if fact.named ∧ Payments.finalUnsuccessful payment.status then .bound fact .lateCapture
      else .held
    | _ => .unverified

/-! ## Outcomes -/

/-- `held` is no observation. -/
inductive Outcome
  | observed (disposition : Disposition) (reason : Option Reason) (disputeId : Option Uuid)
  | held

def conflict (reason : Reason) (disputeId : Option Uuid) : Outcome := .observed .conflict (some reason) disputeId

/-- The rows that a notice is about, and the ids that its inserts are given. -/
structure Delivery where
  webhookEventId : Uuid
  payment : PaymentRef
  attempt : AttemptRef
  notice : DisputeNotice
  lastChance : Bool
  freshDisputeId : Uuid
  freshFactId : Uuid

def DisputeKind.status : DisputeKind → DisputeStatus
  | .opened => .opened
  | .won => .won
  | .lost => .lost

def Db.chargebackTaken (db : Db) (provider txnId : String) : Bool :=
  db.chargebacks.any fun f => f.provider = provider ∧ f.providerTxnId = txnId

def Delivery.fact (v : Delivery) (d : Dispute) (c : Chargeback) : ChargebackFact :=
  { id := v.freshFactId
    provider := d.provider
    providerTxnId := c.txnId
    paymentId := v.payment.id
    attemptId := d.attemptId
    disputeId := d.id
    amount := c.amount
    currency := c.currency
    webhookEventId := v.webhookEventId }

def linkChargeback (db : Db) (d : Dispute) (c : Chargeback) (v : Delivery) : Except PaymentError (Db × Uuid) := do
  let db ← db.insertChargeback (v.fact d c)
  let db ← db.updateDispute d { d with chargebackFactId := some v.freshFactId }
  return (db, v.freshFactId)

def close (db : Db) (d : Dispute) (v : Delivery) : Except PaymentError Db :=
  if d.status ≠ .lost then .ok db
  else
    match v.notice.chargeback with
    | none => .ok { db with outbox := db.outbox ++ [.lost d.id none] }
    | some c => do
      let (db, factId) ← linkChargeback db d c v
      return { db with outbox := db.outbox ++ [.lost d.id (some factId)] }

def Delivery.dispute (v : Delivery) (capture : Capture) (basis : CaptureBasis) : Dispute :=
  { id := v.freshDisputeId
    provider := v.attempt.provider
    providerDisputeId := v.notice.providerDisputeId
    paymentId := v.payment.id
    attemptId := v.attempt.id
    captureFactId := capture.id
    captureBasis := basis
    amount := v.notice.amount
    currency := v.notice.currency
    reason := v.notice.reason
    status := v.notice.kind.status
    providerOpenedAt := if v.notice.kind = .opened then v.notice.providerOccurredAt else none
    providerClosedAt := if v.notice.kind = .opened then none else v.notice.providerOccurredAt
    chargebackFactId := none }

def Db.taken (db : Db) (provider : String) (n : DisputeNotice) : Bool :=
  n.chargeback.any fun c => db.chargebackTaken provider c.txnId

def onNew (db : Db) (v : Delivery) : Except PaymentError (Db × Outcome) :=
  match attributeDispute db.books v.payment v.attempt with
  | .held => .ok (db, if v.lastChance then conflict .captureUnverified none else .held)
  | .unverified => .ok (db, conflict .captureUnverified none)
  | .bound capture basis =>
    if v.notice.currency ≠ trim capture.currency ∨ capture.amount < v.notice.amount then
      .ok (db, conflict .exposureMismatch none)
    else if db.taken v.attempt.provider v.notice then .ok (db, conflict .chargebackUnverifiable none)
    else do
      let d := v.dispute capture basis
      let db ← db.insertDispute d
      let db := { db with outbox := db.outbox ++ [.opened d.id] }
      let db ← (if d.status ≠ .opened then close db d v else .ok db)
      return (db, .observed .applied none (some d.id))

def Db.sameChargeback (db : Db) (factId : Uuid) (c : Chargeback) : Bool :=
  db.chargebacks.any fun f => f.id = factId ∧ f.providerTxnId = c.txnId ∧ f.amount = c.amount ∧ f.currency = c.currency

def onKnown (db : Db) (d : Dispute) (v : Delivery) : Except PaymentError (Db × Outcome) :=
  let n := v.notice
  if d.paymentId ≠ v.payment.id ∨ d.attemptId ≠ v.attempt.id then .ok (db, conflict .paymentMismatch (some d.id))
  else if d.amount ≠ n.amount ∨ trim d.currency ≠ n.currency then .ok (db, conflict .exposureMismatch (some d.id))
  else if n.kind = .opened then
    .ok (db, .observed .duplicate (if d.status = .opened then none else some .afterTerminal) (some d.id))
  else if d.status = .opened then
    if db.taken d.provider n then .ok (db, conflict .chargebackUnverifiable (some d.id))
    else do
      let closed := { d with status := n.kind.status, providerClosedAt := n.providerOccurredAt }
      let db ← db.updateDispute d closed
      let db ← close db closed v
      return (db, .observed .applied none (some d.id))
  else if d.status ≠ n.kind.status then .ok (db, conflict .terminalContradiction (some d.id))
  else
    match if n.kind = .lost then n.chargeback else none with
    | none => .ok (db, .observed .duplicate none (some d.id))
    | some c =>
      match d.chargebackFactId with
      | none =>
        if db.chargebackTaken d.provider c.txnId then .ok (db, conflict .chargebackUnverifiable (some d.id))
        else do
          let (db, _) ← linkChargeback db d c v
          return (db, .observed .applied (some .chargebackEvidence) (some d.id))
      | some factId =>
        if db.sameChargeback factId c then .ok (db, .observed .duplicate none (some d.id))
        else .ok (db, conflict .chargebackMismatch (some d.id))

/-! ## One notification -/

structure Ingestion where
  state : Payments.WebhookEventState
  outcome : Option String
  attemptId : Option Uuid

def disputeHeldOutcome : String := "dispute_held:capture_pending"

def answer (disposition : Disposition) (reason : Option Reason) (disputeId : Option Uuid) (attemptId : Uuid) : Ingestion :=
  let suffix := ((reason.map Reason.text).map (":" ++ ·)).getD ""
  let id := (disputeId.map toString).getD "null"
  match disposition with
  | .conflict => ⟨.conflict, some ("dispute_" ++ (reason.map Reason.text).getD "null"), some attemptId⟩
  | .applied => ⟨.processed, some ("payment_dispute:" ++ id ++ ":applied" ++ suffix), some attemptId⟩
  | .duplicate => ⟨.processed, some ("payment_dispute:" ++ id ++ ":duplicate" ++ suffix), some attemptId⟩

def Delivery.observation (v : Delivery) (provider : String) (disposition : Disposition) (reason : Option Reason)
    (disputeId : Option Uuid) : Observation :=
  { webhookEventId := v.webhookEventId
    provider
    providerDisputeId := v.notice.providerDisputeId
    kind := v.notice.kind
    paymentId := v.payment.id
    attemptId := v.attempt.id
    disputeId
    amount := v.notice.amount
    currency := v.notice.currency
    chargeback := v.notice.chargeback
    disposition
    reason }

def Db.findDispute (db : Db) (provider providerDisputeId : String) : Option Dispute :=
  db.disputes.find? fun d => d.provider = provider ∧ d.providerDisputeId = providerDisputeId

def observe (db : Db) (provider : String) (v : Delivery) : Except PaymentError (Db × Ingestion) := do
  let (db, outcome) ← (match db.findDispute provider v.notice.providerDisputeId with
    | some d => onKnown db d v
    | none => onNew db v)
  match outcome with
  | .held => return (db, ⟨.unmatched, some disputeHeldOutcome, some v.attempt.id⟩)
  | .observed disposition reason disputeId =>
    let db ← db.insertObservation (v.observation provider disposition reason disputeId)
    return (db, answer disposition reason disputeId v.attempt.id)

/-- `ingest`; an observation that is there already answers again. -/
def ingest (db : Db) (webhookEventId : Uuid) (provider reference : String) (n : DisputeNotice) (lastChance : Bool)
    (freshDisputeId freshFactId : Uuid) : Except PaymentError (Db × Ingestion) :=
  match db.books.findAttempt provider reference with
  | none => .ok (db, ⟨.unmatched, none, none⟩)
  | some attempt =>
    match db.books.payments.find? (·.id = attempt.paymentId) with
    | none => .error (.refused "payment_attempt_paymentId_fkey")
    | some payment =>
      match db.observations.find? (·.webhookEventId = webhookEventId) with
      | some o => .ok (db, answer o.disposition o.reason o.disputeId attempt.id)
      | none => observe db provider ⟨webhookEventId, payment, attempt, n, lastChance, freshDisputeId, freshFactId⟩

end NawaraCore.Disputes
