import Mathlib.Data.Option.Basic
import NawaraCore.Billing.Subscription

/-!
# The decision on a payment event

`decidePaymentEvent` of `payment-event-decision.ts`: a pure function of the event,
the payment request and the invoice. The checks stand in the order of the source.
-/

namespace NawaraCore.PaymentRequests

open Subscriptions (Uuid)

inductive PaymentEventName
  | succeeded | failed | cancelled | expired
deriving DecidableEq

def EXPECTED_PRODUCER : String := "billing-service"

structure Party where
  type : String
  id : String
deriving DecidableEq

/-- A JSON value where an amount is expected: an integral number, or anything else. -/
inductive JsonAmount
  | integer (n : Int)
  | other

structure PaymentEventFacts where
  name : PaymentEventName
  source : String
  paymentId : Uuid
  producer : String
  paymentRequestId : Uuid
  sourceType : String
  sourceId : Uuid
  payer : Party
  seller : Party
  organizationId : Option Uuid
  amount : JsonAmount
  currency : String
  revision : Nat
  purpose : Option String
  beneficiaryUserId : Option String
  liveMode : Option Bool

inductive PaymentRequestStatus
  | created | sending | requested | paid | failed | cancelled | expired | rejected
deriving DecidableEq

inductive InvoiceStatus
  | draft | open | paid | void
deriving DecidableEq

structure RequestFacts where
  id : Uuid
  status : PaymentRequestStatus
  paymentId : Option Uuid
  amount : Int
  currency : String
  mappingVersion : Option Nat

structure InvoiceFacts where
  id : Uuid
  status : InvoiceStatus
  payer : Party
  seller : Party
  organizationId : Option Uuid
  currency : String
  total : Int
  purpose : Option String
  beneficiaryUserId : Option String

inductive IgnoredDetail
  | unknown_payment_request | already_applied
deriving DecidableEq

inductive ConflictDetail
  | wrong_source | producer_mismatch | payment_id_mismatch | snapshot_mismatch | amount_mismatch | invalid_amount
  | request_already_terminal | invoice_not_open | invoice_missing | non_live_event
deriving DecidableEq

inductive Decision
  | ignored (detail : IgnoredDetail)
  | deferred
  | conflict (detail : ConflictDetail)
  | applied (requestTo : PaymentRequestStatus) (invoiceToPaid : Bool)
deriving DecidableEq

def TARGET : PaymentEventName → PaymentRequestStatus
  | .succeeded => .paid
  | .failed => .failed
  | .expired => .expired
  | .cancelled => .cancelled

def MAX_SAFE_INTEGER : Int := 2 ^ 53 - 1

def isSafeInteger (n : Int) : Bool := decide (-MAX_SAFE_INTEGER ≤ n ∧ n ≤ MAX_SAFE_INTEGER)

/-- The amount of an event when it is a safe integer of at least one minor unit. -/
def JsonAmount.valid : JsonAmount → Option Int
  | .integer n => if isSafeInteger n ∧ 1 ≤ n then some n else none
  | .other => none

def sameSnapshot (event : PaymentEventFacts) (invoice : InvoiceFacts) : Bool :=
  decide (event.sourceType = "invoice" ∧ event.sourceId = invoice.id ∧ event.payer = invoice.payer ∧
    event.seller = invoice.seller ∧ event.organizationId = invoice.organizationId)

/-- From mapping version 2 on the payment carries the purpose and the beneficiary of the routing record, before it neither. -/
def sameRouting (event : PaymentEventFacts) (request : RequestFacts) (invoice : InvoiceFacts) : Bool :=
  match request.mappingVersion with
  | none => true
  | some v =>
    let v2 := decide (2 ≤ v)
    decide (event.purpose = (if v2 then invoice.purpose else none) ∧
      event.beneficiaryUserId = (if v2 then invoice.beneficiaryUserId else none))

def decidePaymentEvent (event : PaymentEventFacts) (request : Option RequestFacts) (invoice : Option InvoiceFacts)
    (requireLive : Bool) : Decision :=
  match request, invoice with
  | none, _ => .ignored .unknown_payment_request
  | some _, none => .conflict .invoice_missing
  | some request, some invoice =>
    if requireLive ∧ event.liveMode ≠ some true then .conflict .non_live_event
    else
      match request.paymentId with
      | none => .deferred
      | some paymentId =>
        if event.source ≠ "payment-service" then .conflict .wrong_source
        else if event.producer ≠ EXPECTED_PRODUCER then .conflict .producer_mismatch
        else if event.paymentId ≠ paymentId then .conflict .payment_id_mismatch
        else
          match event.amount.valid with
          | none => .conflict .invalid_amount
          | some amount =>
            if amount ≠ request.amount ∨ event.currency ≠ request.currency then .conflict .amount_mismatch
            else if ¬ sameSnapshot event invoice then .conflict .snapshot_mismatch
            else if ¬ sameRouting event request invoice then .conflict .snapshot_mismatch
            else if request.status = TARGET event.name then .ignored .already_applied
            else if request.status ≠ .requested then .conflict .request_already_terminal
            else if TARGET event.name = .paid then
              if invoice.status ≠ .open then .conflict .invoice_not_open else .applied .paid true
            else .applied (TARGET event.name) false

end NawaraCore.PaymentRequests
