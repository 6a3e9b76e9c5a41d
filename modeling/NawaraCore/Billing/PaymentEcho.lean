import NawaraCore.Lib.Text
import NawaraCore.Billing.PaymentEvent
import NawaraCore.Payment.Creation

/-!
# The echo of a payment request

The body that Billing sends for a payment request, the request that Payment reads from
it, and what Billing reads back: from an event of the payment, and from the payment's
representation. Identifiers are texts here; the decision compares their codes.
-/

namespace NawaraCore.PaymentEcho

open Payments (Uuid PaymentStatus)
open PaymentCreation (CreatePaymentDto PaymentRow NewEvent EventName isHexDigit)
open PaymentRequests (PaymentEventFacts PaymentEventName RequestFacts InvoiceFacts PaymentRequestStatus InvoiceStatus
  Decision ConflictDetail EXPECTED_PRODUCER)

/-! ## The mapping -/

def PAYMENT_MAPPING_VERSIONS : List Nat := [1, 2]

def MAX_MINOR_UNITS : Int := 9007199254740991

def isCanonicalUuid (s : String) : Bool := PaymentCreation.isUuid s && s.toList.all fun c => !c.isUpper

structure InvoiceForMapping where
  id : String
  number : Option String
  payerType : String
  payerId : String
  sellerType : String
  sellerId : String
  organizationId : Option String
  currency : String
  description : Option String
  purpose : Option String
  beneficiaryUserId : Option String

structure RequestForMapping where
  id : String
  amount : Int
  expiresAt : Option Int

structure PaymentCreateBody where
  paymentRequestId : String
  sourceType : String
  sourceId : String
  payer : PaymentCreation.Party
  seller : PaymentCreation.Party
  organizationId : Option String
  amount : Int
  currency : String
  expiresAt : Option Int
  description : Option String
  reference : String
  purpose : Option String
  beneficiaryUserId : Option String
deriving DecidableEq

/-- From version 2 on with the purpose and the beneficiary of the invoice's routing record. -/
def InvoiceForMapping.body (invoice : InvoiceForMapping) (request : RequestForMapping) (number : String) (version : Nat) :
    PaymentCreateBody :=
  { paymentRequestId := request.id
    sourceType := "invoice"
    sourceId := invoice.id
    payer := ⟨invoice.payerType, invoice.payerId⟩
    seller := ⟨invoice.sellerType, invoice.sellerId⟩
    organizationId := invoice.organizationId
    amount := request.amount
    currency := invoice.currency
    expiresAt := request.expiresAt
    description := invoice.description
    reference := number
    purpose := if 2 ≤ version then invoice.purpose else none
    beneficiaryUserId := if 2 ≤ version then invoice.beneficiaryUserId else none }

def checkParty (who type id : String) : Except String Unit :=
  if !PaymentCreation.PARTY_TYPES.contains type then .error (who ++ " type is not one Payment accepts")
  else if utf16Length id < 1 ∨ 128 < utf16Length id then .error (who ++ " id must be 1 to 128 characters")
  else .ok ()

def buildPaymentRequestBody (invoice : InvoiceForMapping) (request : RequestForMapping) (version : Nat) :
    Except String PaymentCreateBody := do
  if !PAYMENT_MAPPING_VERSIONS.contains version then .error "unknown payment mapping version"
  else match invoice.number with
    | none | some "" => .error "a payment request needs an issued invoice (it has no number yet)"
    | some number =>
      if 64 < utf16Length number then .error "the invoice number is longer than 64 characters"
      else if invoice.description.any (140 < utf16Length ·) then .error "the description is longer than 140 characters"
      else
        checkParty "payer" invoice.payerType invoice.payerId
        checkParty "seller" invoice.sellerType invoice.sellerId
        if invoice.payerType = invoice.sellerType ∧ invoice.payerId = invoice.sellerId then
          .error "payer and seller must differ"
        else if invoice.sellerType = "organization" ∧ !isCanonicalUuid invoice.sellerId then
          .error "an organization seller id must be a canonical lower-case uuid"
        else if invoice.sellerType = "organization" ∧ invoice.organizationId ≠ some invoice.sellerId then
          .error "an organization seller must name itself as the organization"
        else if invoice.organizationId.any (!isCanonicalUuid ·) then
          .error "organizationId must be a canonical lower-case uuid"
        else if !Payments.isoCurrency invoice.currency then .error "currency must be three upper-case letters"
        else if request.amount < 1 ∨ MAX_MINOR_UNITS < request.amount then .error "amount must be between 1 and 2^53-1"
        else if 128 < utf16Length invoice.id then .error "sourceId is too long"
        else if 2 ≤ version ∧ invoice.purpose = none then .error "mapping version 2 needs the invoice routing record"
        else .ok (invoice.body request number version)

def PaymentCreateBody.dto (b : PaymentCreateBody) : CreatePaymentDto :=
  { paymentRequestId := b.paymentRequestId
    sourceType := b.sourceType
    sourceId := b.sourceId
    payer := b.payer
    seller := b.seller
    organizationId := b.organizationId
    amount := b.amount
    currency := b.currency
    expiresAt := b.expiresAt.map some
    description := b.description
    reference := some b.reference
    purpose := b.purpose
    beneficiaryUserId := b.beneficiaryUserId }

def keyOf (text : String) : Uuid := textCode text

def party (p : PaymentCreation.Party) : PaymentRequests.Party := ⟨p.type, p.id⟩

def consumed : EventName → Option PaymentEventName
  | .created => none
  | .succeeded => some .succeeded
  | .failed => some .failed
  | .cancelled => some .cancelled
  | .expired => some .expired

def parseFacts (e : NewEvent) : Option PaymentEventFacts :=
  (consumed e.name).map fun name =>
    { name
      source := "payment-service"
      paymentId := e.payload.paymentId
      producer := e.payload.producer
      paymentRequestId := keyOf e.payload.paymentRequestId
      sourceType := e.payload.sourceType
      sourceId := keyOf e.payload.sourceId
      payer := party e.payload.payer
      seller := party e.payload.seller
      organizationId := e.payload.organizationId.map keyOf
      amount := .integer e.payload.amount
      currency := e.payload.currency
      revision := e.payload.revision
      purpose := e.payload.purpose
      beneficiaryUserId := e.payload.beneficiaryUserId
      liveMode := e.payload.liveMode }

def reconciledName : PaymentStatus → Option PaymentEventName
  | .succeeded => some .succeeded
  | .failed => some .failed
  | .cancelled => some .cancelled
  | .expired => some .expired
  | _ => none

def reconciledFacts (r : PaymentRow) : Option PaymentEventFacts :=
  (reconciledName r.status).map fun name =>
    { name
      source := "payment-service"
      paymentId := r.id
      producer := EXPECTED_PRODUCER
      paymentRequestId := keyOf r.paymentRequestId
      sourceType := r.snapshot.sourceType
      sourceId := keyOf r.snapshot.sourceId
      payer := party r.snapshot.payer
      seller := party r.snapshot.seller
      organizationId := r.snapshot.organizationId.map keyOf
      amount := .integer r.snapshot.amount
      currency := r.snapshot.currency
      revision := 0
      purpose := r.snapshot.purpose
      beneficiaryUserId := r.snapshot.beneficiaryUserId
      liveMode := r.liveMode }

structure BillingRequest where
  mapped : RequestForMapping
  currency : String
  mappingVersion : Nat

def BillingRequest.facts (r : BillingRequest) (status : PaymentRequestStatus) (paymentId : Option Uuid) : RequestFacts :=
  { id := keyOf r.mapped.id
    status
    paymentId
    amount := r.mapped.amount
    currency := r.currency
    mappingVersion := some r.mappingVersion }

def InvoiceForMapping.facts (i : InvoiceForMapping) (status : InvoiceStatus) (total : Int) : InvoiceFacts :=
  { id := keyOf i.id
    status
    payer := ⟨i.payerType, i.payerId⟩
    seller := ⟨i.sellerType, i.sellerId⟩
    organizationId := i.organizationId.map keyOf
    currency := i.currency
    total
    purpose := i.purpose
    beneficiaryUserId := i.beneficiaryUserId }

/-- What Billing accepts: a request has its invoice's currency, and an Organization that pays, with a settlement of
its own, is the invoice's Organization. -/
structure Accepted (i : InvoiceForMapping) (r : BillingRequest) : Prop where
  currency : r.currency = i.currency
  payer : i.payerType = "user" ∨
    (i.payerType = "organization" ∧ (i.purpose = some "assisted_settlement" ∨ i.purpose = some "recovery_settlement") ∧
      i.organizationId = some i.payerId)

def Mismatch (d : Decision) : Prop :=
  d = .conflict .producer_mismatch ∨ d = .conflict .invalid_amount ∨ d = .conflict .amount_mismatch ∨
    d = .conflict .snapshot_mismatch

end NawaraCore.PaymentEcho
