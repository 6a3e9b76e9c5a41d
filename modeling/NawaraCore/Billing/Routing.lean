import NawaraCore.Billing.PaymentEcho

/-!
# The routing of an invoice

What an invoice is for as it leaves `draft`, decided from its payer, its Organization, the
targets of its lines' products and the settlement channel it belongs to, and the record of
it that the payment request's body is built from.
-/

namespace NawaraCore.InvoiceRouting

inductive RoutingPurpose
  | organization_subscription | direct_purchase | assisted_settlement | non_entitlement | recovery_settlement
deriving DecidableEq

def RoutingPurpose.text : RoutingPurpose → String
  | organization_subscription => "organization_subscription"
  | direct_purchase => "direct_purchase"
  | assisted_settlement => "assisted_settlement"
  | non_entitlement => "non_entitlement"
  | recovery_settlement => "recovery_settlement"

inductive RoutingTarget
  | organization | personal | none
deriving DecidableEq

structure RoutingLine where
  productId : String
  subscriptionTarget : RoutingTarget
  platformId : Option String

structure AssistanceChannel where
  id : String
  beneficiaryUserId : String
  organizationId : String
  productId : String

structure RecoveryChannel where
  obligationId : String
  organizationId : String

structure RoutingInput where
  payerType : String
  payerId : String
  organizationId : Option String
  lines : List RoutingLine
  assistance : Option AssistanceChannel
  recovery : Option RecoveryChannel

structure Routing where
  purpose : RoutingPurpose
  target : RoutingTarget
  beneficiaryUserId : Option String
  organizationId : Option String
  productId : Option String
  platformId : Option String
  assistanceRequestId : Option String
  recoveryObligationId : Option String
deriving DecidableEq

inductive RoutingRefusal
  | multiple_subscription_lines | organization_payer | organization_missing | assisted_settlement_unavailable
  | payer_not_user | recovery_settlement_unavailable
deriving DecidableEq

abbrev RoutingDecision := Except RoutingRefusal Routing

def subscriptionLines (input : RoutingInput) : List RoutingLine :=
  input.lines.filter fun l => l.subscriptionTarget ≠ .none

/-! ## The decision -/

/-- The payer and the Organization of a recovery invoice are its obligation's Organization. -/
def routeRecovery (input : RoutingInput) (r : RecoveryChannel) : RoutingDecision :=
  if input.payerType ≠ "organization" ∨ input.payerId ≠ r.organizationId ∨ input.organizationId ≠ some r.organizationId ∨
      0 < (subscriptionLines input).length then
    .error .recovery_settlement_unavailable
  else
    .ok
      { purpose := .recovery_settlement
        target := .none
        beneficiaryUserId := none
        organizationId := some r.organizationId
        productId := none
        platformId := input.lines.head?.bind (·.platformId)
        assistanceRequestId := none
        recoveryObligationId := some r.obligationId }

def routeOrdinary (input : RoutingInput) : RoutingDecision :=
  if input.payerType = "organization" then .error .organization_payer
  else
    .ok
      { purpose := .non_entitlement
        target := .none
        beneficiaryUserId := none
        organizationId := none
        productId := none
        platformId := none
        assistanceRequestId := none
        recoveryObligationId := none }

def routeOrganizationLine (input : RoutingInput) (line : RoutingLine) : RoutingDecision :=
  if input.payerType ≠ "user" then .error .organization_payer
  else match input.organizationId with
    | none => .error .organization_missing
    | some organizationId =>
      .ok
        { purpose := .organization_subscription
          target := .organization
          beneficiaryUserId := none
          organizationId := some organizationId
          productId := some line.productId
          platformId := line.platformId
          assistanceRequestId := none
          recoveryObligationId := none }

/-- An Organization pays its own request's product, for that request's beneficiary. -/
def routeAssisted (input : RoutingInput) (line : RoutingLine) : RoutingDecision :=
  match input.assistance with
  | none => .error .assisted_settlement_unavailable
  | some a =>
    if some a.organizationId ≠ input.organizationId ∨ input.payerId ≠ a.organizationId ∨ a.productId ≠ line.productId then
      .error .assisted_settlement_unavailable
    else
      .ok
        { purpose := .assisted_settlement
          target := .personal
          beneficiaryUserId := some a.beneficiaryUserId
          organizationId := some a.organizationId
          productId := some line.productId
          platformId := line.platformId
          assistanceRequestId := some a.id
          recoveryObligationId := none }

def routeDirect (input : RoutingInput) (line : RoutingLine) : RoutingDecision :=
  if input.payerType ≠ "user" then .error .payer_not_user
  else
    .ok
      { purpose := .direct_purchase
        target := .personal
        beneficiaryUserId := some input.payerId
        organizationId := none
        productId := some line.productId
        platformId := line.platformId
        assistanceRequestId := none
        recoveryObligationId := none }

def decideRouting (input : RoutingInput) : RoutingDecision :=
  match input.recovery with
  | some r => routeRecovery input r
  | none =>
    match subscriptionLines input with
    | [] => routeOrdinary input
    | [line] =>
      if line.subscriptionTarget = .organization then routeOrganizationLine input line
      else if input.payerType = "organization" then routeAssisted input line
      else routeDirect input line
    | _ :: _ :: _ => .error .multiple_subscription_lines

/-- `invoice_entitlement_combination`, over the invoice's payer. -/
def combination (payerType payerId : String) (r : Routing) : Bool :=
  match r.purpose with
  | .organization_subscription =>
    r.target = .organization ∧ payerType = "user" ∧ r.beneficiaryUserId = none ∧ r.organizationId ≠ none ∧
      r.productId ≠ none ∧ r.assistanceRequestId = none ∧ r.recoveryObligationId = none
  | .direct_purchase =>
    r.target = .personal ∧ payerType = "user" ∧ r.beneficiaryUserId = some payerId ∧ r.organizationId = none ∧
      r.productId ≠ none ∧ r.assistanceRequestId = none ∧ r.recoveryObligationId = none
  | .assisted_settlement =>
    r.target = .personal ∧ payerType = "organization" ∧ r.beneficiaryUserId ≠ none ∧ r.organizationId = some payerId ∧
      r.productId ≠ none ∧ r.assistanceRequestId ≠ none ∧ r.recoveryObligationId = none
  | .non_entitlement =>
    r.target = .none ∧ r.beneficiaryUserId = none ∧ r.organizationId = none ∧ r.productId = none ∧
      r.assistanceRequestId = none ∧ r.recoveryObligationId = none
  | .recovery_settlement =>
    r.target = .none ∧ payerType = "organization" ∧ r.beneficiaryUserId = none ∧ r.organizationId = some payerId ∧
      r.productId = none ∧ r.assistanceRequestId = none ∧ r.recoveryObligationId ≠ none

/-- What `claimForDispatch` reads for a payment request: the invoice's row joined with its routing record. -/
structure ClaimedInvoice (input : RoutingInput) (r : Routing) where
  invoice : PaymentEcho.InvoiceForMapping
  payerType : invoice.payerType = input.payerType
  payerId : invoice.payerId = input.payerId
  purpose : invoice.purpose = some r.purpose.text
  beneficiaryUserId : invoice.beneficiaryUserId = r.beneficiaryUserId

end NawaraCore.InvoiceRouting
