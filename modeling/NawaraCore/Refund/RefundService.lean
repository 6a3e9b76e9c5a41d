import NawaraCore.Lib.Text
import NawaraCore.Refund.Refund

/-!
# Refund services

The transactions of the refund attempt service, the refund worker, the refund evidence
service and the refund allocation service. Each function below is one transaction
under the payment's lock.
-/

namespace NawaraCore.Refunds

open Payments (Uuid PaymentError enforce trim maxSafeInteger)

def notFound : PaymentError := .http 404 "not_found"

/-- `captureFactId` is given for a capture-specific refund only. -/
structure RefundRequestInput where
  refundAttemptId : Uuid
  refundCaseId : Uuid
  captureFactId : Option Uuid

/-- The durable intent; the amount, the currency and the provider are the capture's own. -/
def request (cs : Captures) (db : Db) (paymentId : Uuid) (input : RefundRequestInput) : Except PaymentError Db :=
  let capture := input.captureFactId.getD (cs.settling paymentId)
  db.insertAttempt cs
    { id := input.refundAttemptId
      paymentId
      refundCaseId := input.refundCaseId
      amount := cs.amountOf capture
      currency := cs.currencyOf capture
      captureFactId := capture
      captureSpecific := input.captureFactId.isSome
      provider := cs.providerOf capture
      status := .authorizationPending
      receiptId := none
      providerRefundId := none
      failureCode := none
      succeededFactId := none }

def refuse (db : Db) (id : Uuid) : Except PaymentError Db := do
  enforce
    [ ("refund_attempt_refusal_pkey", id ∉ db.refusals),
      ("refund_attempt_refusal_not_attempt", !db.attempts.any (·.id = id)) ]
  return { db with refusals := db.refusals ++ [id] }

def lockAttempt (db : Db) (id : Uuid) : Except PaymentError RefundAttempt :=
  match db.findAttempt id with
  | none => .error notFound
  | some a => .ok a

/-- Auth's consumption, with the authorization that allocations are counted against. -/
def commitAuthorized (db : Db) (id receiptId authorizationId : Uuid) : Except PaymentError Db := do
  let a ← lockAttempt db id
  if a.status = .authorizationPending then
    let db ← db.updateAttempt a { a with status := .authorized, receiptId := some receiptId }
    db.insertAuthorization
      { id := authorizationId
        refundAttemptId := id
        paymentId := a.paymentId
        refundCaseId := a.refundCaseId
        receiptId
        approvedAmount := a.amount
        currency := a.currency
        captureFactId := a.captureFactId
        captureSpecific := a.captureSpecific
        allocatedIntended := 0
        completedAt := none }
  else return db

def commitUnauthorized (db : Db) (id : Uuid) (expired : Bool) : Except PaymentError Db := do
  let a ← lockAttempt db id
  if a.status = .authorizationPending then
    db.updateAttempt a { a with status := if expired then .authorizationExpired else .authorizationRefused }
  else return db

inductive RefundDispatchResult
  | accepted (providerRefundId : String)
  | rejected (failureCode : String)
  | ambiguous

def failureCode (code : String) : String := if failureCodeShape code then code else "provider_failure"

def startDispatch (db : Db) (id : Uuid) : Except PaymentError Db := do
  let a ← lockAttempt db id
  if a.status = .authorized then db.updateAttempt a { a with status := .dispatching } else return db

/-- What the worker commits of a provider's answer; evidence that got there first wins. -/
def finishDispatch (db : Db) (id : Uuid) (result : RefundDispatchResult) : Except PaymentError Db := do
  let a ← lockAttempt db id
  if a.status ≠ .dispatching ∧ a.status ≠ .unknown then return db
  match result with
  | .accepted providerRefundId =>
    db.updateAttempt a
      { a with status := .submitted, providerRefundId := a.providerRefundId.or (some providerRefundId) }
  | .rejected code => db.updateAttempt a { a with status := .failed, failureCode := some (failureCode code) }
  | .ambiguous => if a.status = .dispatching then db.updateAttempt a { a with status := .unknown } else return db

/-! ## Evidence -/

inductive RefundStatusResult
  | succeeded (amount : Int) (currency : String) (providerRefundId : String)
  | failed (failureCode : String)
  | pending
  | notFound
deriving DecidableEq

structure RecordedFact where
  id : Uuid
  matched : Bool
deriving DecidableEq

def recordRefundFact (db : Db) (attemptId : Uuid) (amount : Int) (currency providerRefundId : String)
    (webhookEventId : Option Uuid) (freshId : Uuid) : Except PaymentError (Db × Option RecordedFact) := do
  let a ← lockAttempt db attemptId
  if providerRefundId = "" ∨ amount < 1 ∨ maxSafeInteger < amount ∨ utf16Length currency < 1 ∨
      16 < utf16Length currency then
    return (db, none)
  let binding : RefundFactBinding := ⟨a.paymentId, a.id⟩
  let (db, inserted) ← db.insertFact
    { id := freshId
      provider := a.provider
      providerTxnId := providerRefundId
      binding := some binding
      amount
      currency
      webhookEventId }
  if inserted then return (db, some ⟨freshId, amount = a.amount ∧ currency = trim a.currency⟩)
  match db.facts.find? fun f => f.provider = a.provider ∧ f.providerTxnId = providerRefundId with
  | none => return (db, none)
  | some stored =>
    let same : Bool := stored.binding = some binding ∧ stored.amount = amount ∧ stored.currency = currency
    let db := if same then db else
      db.insertConflict ⟨stored.id, a.paymentId, a.id, amount, currency, webhookEventId⟩
    let storedExact : Bool := stored.binding.any (·.refundAttemptId = a.id) ∧ stored.amount = a.amount ∧
      stored.currency = trim a.currency
    return (db, some ⟨stored.id, same && storedExact⟩)

def recordUnmatchedFact (db : Db) (provider providerTransactionId : String) (amount : Int) (currency : String)
    (webhookEventId freshId : Uuid) : Except PaymentError Db :=
  if providerTransactionId = "" ∨ amount < 1 ∨ maxSafeInteger < amount then .ok db
  else do
    let (db, _) ← db.insertFact
      { id := freshId
        provider
        providerTxnId := providerTransactionId
        binding := none
        amount
        currency
        webhookEventId := some webhookEventId }
    return db

def applySucceeded (db : Db) (a : RefundAttempt) (providerRefundId : String) (fact : RecordedFact) :
    Except PaymentError Db :=
  let exact : Bool := fact.matched ∧ (a.providerRefundId = none ∨ a.providerRefundId = some providerRefundId)
  if a.status.inFlight ∧ exact then
    db.updateAttempt a
      { a with
        status := .succeeded
        succeededFactId := some fact.id
        providerRefundId := a.providerRefundId.or (some providerRefundId) }
  else if a.status.inFlight ∨ a.status = .failed then
    db.updateAttempt a
      { a with status := .discrepancy, providerRefundId := a.providerRefundId.or (some providerRefundId) }
  else .ok db

def applyStatus (db : Db) (attemptId : Uuid) (status : RefundStatusResult) (fact : Option RecordedFact) :
    Except PaymentError Db := do
  let a ← lockAttempt db attemptId
  match status, fact with
  | .succeeded _ _ providerRefundId, some fact => applySucceeded db a providerRefundId fact
  | .failed code, _ =>
    if a.status.inFlight then
      db.updateAttempt a { a with status := .failed, failureCode := some (failureCode code) }
    else return db
  | _, _ => return db

/-! ## Allocation -/

inductive AllocationOutcome
  | allocated (intended excess : Int) (completed : Bool)
  | alreadyAllocated
  | blocked (reason : BlockReason)

def Db.done (db : Db) (z : RefundAuthorization) : Bool :=
  db.authorizations.any fun x => x.completedAt.isSome ∧ (x.refundCaseId = z.refundCaseId ∨ x.paymentId = z.paymentId)

def Db.remaining (db : Db) (z : RefundAuthorization) : Int :=
  if db.done z then 0 else z.approvedAmount - z.allocatedIntended

def RefundAuthorization.caseCompleted (z : RefundAuthorization) : CaseCompleted :=
  { refundAuthorizationId := z.id
    refundCaseId := z.refundCaseId
    refundAttemptId := z.refundAttemptId
    paymentId := z.paymentId
    approvedAmount := z.approvedAmount
    currency := z.currency
    completedAt := z.completedAt }

def Db.intended (db : Db) (z : RefundAuthorization) (amount : Int) : Int := max 0 (min amount (db.remaining z))

def RefundAuthorization.allocation (z : RefundAuthorization) (fact : RefundFact) (intended : Int) : RefundAllocation :=
  { factId := fact.id
    refundAuthorizationId := z.id
    paymentId := z.paymentId
    refundAttemptId := z.refundAttemptId
    amount := fact.amount
    currency := z.currency
    intended
    excess := fact.amount - intended }

def RefundAuthorization.advance (z : RefundAuthorization) (intended now : Int) : RefundAuthorization :=
  { z with
    allocatedIntended := z.allocatedIntended + intended
    completedAt := if z.allocatedIntended + intended = z.approvedAmount then some now else none }

def Db.complete (db : Db) (z : RefundAuthorization) : Db :=
  if z.completedAt.isSome then { db with outbox := db.outbox ++ [z.caseCompleted] } else db

def allocateTo (db : Db) (fact : RefundFact) (z : RefundAuthorization) (now : Int) :
    Except PaymentError (Db × AllocationOutcome) := do
  let intended := db.intended z fact.amount
  let excess := fact.amount - intended
  let db ← db.insertAllocation (z.allocation fact intended)
  if intended ≤ 0 then
    db.sumCheck z.id
    return (db, .allocated intended excess false)
  let after := z.advance intended now
  let db ← db.updateAuthorization z after
  db.sumCheck z.id
  return (db.complete after, .allocated intended excess after.completedAt.isSome)

def blockFact (db : Db) (factId : Uuid) (reason : BlockReason) : Except PaymentError (Db × AllocationOutcome) := do
  let db ← db.insertBlock ⟨factId, reason⟩
  return (db, .blocked reason)

def allocate (db : Db) (factId : Uuid) (now : Int) : Except PaymentError (Db × AllocationOutcome) :=
  match db.facts.find? (·.id = factId) with
  | none => .error (.refused "refund_allocation_not_a_refund_fact")
  | some fact =>
    match db.target fact with
    | none => .error (.refused "refund_allocation_not_a_refund_fact")
    | some binding =>
      if db.allocations.any (·.factId = fact.id) then .ok (db, .alreadyAllocated)
      else match db.blocks.find? (·.factId = fact.id) with
        | some block => .ok (db, .blocked block.reason)
        | none =>
          match db.authorizations.find? (·.refundAttemptId = binding.refundAttemptId) with
          | none => blockFact db fact.id .noAuthorization
          | some z =>
            if db.contested fact.id then blockFact db fact.id .contested
            else if fact.currency ≠ trim z.currency then blockFact db fact.id .currencyMismatch
            else allocateTo db fact z now

end NawaraCore.Refunds
