import NawaraCore.Billing.EchoSound
import NawaraCore.Billing.Routing

/-!
# A routed invoice is payable

Each routing is one of five, and each of the five passes the table's check on the record and
Payment's pairing of payer, purpose and beneficiary.
-/

namespace NawaraCore.InvoiceRouting

open PaymentCreation (assertPurposePairing ORGANIZATION_PAYER_PURPOSES)
open PaymentEcho (InvoiceForMapping RequestForMapping PaymentCreateBody buildPaymentRequestBody)

/-! ## The five routes -/

inductive Routed (input : RoutingInput) (r : Routing) : Prop
  | recovery (o : RecoveryChannel) (hchannel : input.recovery = some o) (hpurpose : r.purpose = .recovery_settlement)
      (htype : input.payerType = "organization") (hid : input.payerId = o.organizationId)
      (hlines : subscriptionLines input = []) (htarget : r.target = .none) (hbeneficiary : r.beneficiaryUserId = none)
      (horganization : r.organizationId = some o.organizationId) (hproduct : r.productId = none)
      (hrequest : r.assistanceRequestId = none) (hobligation : r.recoveryObligationId = some o.obligationId)
  | ordinary (hpurpose : r.purpose = .non_entitlement) (htype : input.payerType ≠ "organization")
      (hlines : subscriptionLines input = []) (htarget : r.target = .none) (hbeneficiary : r.beneficiaryUserId = none)
      (horganization : r.organizationId = none) (hproduct : r.productId = none) (hrequest : r.assistanceRequestId = none)
      (hobligation : r.recoveryObligationId = none)
  | organization (line : RoutingLine) (hpurpose : r.purpose = .organization_subscription)
      (htype : input.payerType = "user") (hlines : subscriptionLines input = [line]) (htarget : r.target = .organization)
      (hbeneficiary : r.beneficiaryUserId = none) (horganization : r.organizationId ≠ none)
      (hproduct : r.productId = some line.productId) (hrequest : r.assistanceRequestId = none)
      (hobligation : r.recoveryObligationId = none)
  | assisted (line : RoutingLine) (a : AssistanceChannel) (hchannel : input.assistance = some a)
      (hpurpose : r.purpose = .assisted_settlement) (htype : input.payerType = "organization")
      (hid : input.payerId = a.organizationId) (hlines : subscriptionLines input = [line]) (htarget : r.target = .personal)
      (hbeneficiary : r.beneficiaryUserId = some a.beneficiaryUserId) (horganization : r.organizationId = some a.organizationId)
      (hproduct : r.productId = some a.productId) (hrequest : r.assistanceRequestId = some a.id)
      (hobligation : r.recoveryObligationId = none)
  | direct (line : RoutingLine) (hpurpose : r.purpose = .direct_purchase) (htype : input.payerType = "user")
      (hlines : subscriptionLines input = [line]) (htarget : r.target = .personal)
      (hbeneficiary : r.beneficiaryUserId = some input.payerId) (horganization : r.organizationId = none)
      (hproduct : r.productId = some line.productId) (hrequest : r.assistanceRequestId = none)
      (hobligation : r.recoveryObligationId = none)

variable {input : RoutingInput} {r : Routing} {line : RoutingLine}

theorem routeRecovery_routed {o : RecoveryChannel} (hchannel : input.recovery = some o)
    (h : routeRecovery input o = .ok r) : Routed input r := by
  unfold routeRecovery at h
  split at h
  next => cases h
  next hchecks =>
    push Not at hchecks
    obtain ⟨htype, hid, -, hlines⟩ := hchecks
    cases h
    have hnone : subscriptionLines input = [] := List.length_eq_zero_iff.mp (by omega)
    exact .recovery o hchannel rfl htype hid hnone rfl rfl rfl rfl rfl rfl

theorem routeOrdinary_routed (hlines : subscriptionLines input = []) (h : routeOrdinary input = .ok r) :
    Routed input r := by
  unfold routeOrdinary at h
  split at h
  next => cases h
  next htype =>
    cases h
    exact .ordinary rfl htype hlines rfl rfl rfl rfl rfl rfl

theorem routeOrganizationLine_routed (hlines : subscriptionLines input = [line])
    (h : routeOrganizationLine input line = .ok r) : Routed input r := by
  unfold routeOrganizationLine at h
  split at h
  next => cases h
  next htype =>
    split at h
    next => cases h
    next =>
      cases h
      exact .organization line rfl (not_not.mp htype) hlines rfl rfl (Option.some_ne_none _) rfl rfl rfl

theorem routeAssisted_routed (htype : input.payerType = "organization")
    (hlines : subscriptionLines input = [line]) (h : routeAssisted input line = .ok r) : Routed input r := by
  unfold routeAssisted at h
  split at h
  next => cases h
  next a hchannel =>
    split at h
    next => cases h
    next hchecks =>
      push Not at hchecks
      obtain ⟨-, hid, hproduct⟩ := hchecks
      cases h
      exact .assisted line a hchannel rfl htype hid hlines rfl rfl rfl (congrArg some hproduct.symm) rfl rfl

theorem routeDirect_routed (hlines : subscriptionLines input = [line])
    (h : routeDirect input line = .ok r) : Routed input r := by
  unfold routeDirect at h
  split at h
  next => cases h
  next htype =>
    cases h
    exact .direct line rfl (not_not.mp htype) hlines rfl rfl rfl rfl rfl rfl

theorem decideRouting_routed (h : decideRouting input = .ok r) : Routed input r := by
  unfold decideRouting at h
  split at h
  next o hchannel => exact routeRecovery_routed hchannel h
  next =>
    split at h
    next hlines => exact routeOrdinary_routed hlines h
    next line hlines =>
      by_cases htarget : line.subscriptionTarget = .organization
      · rw [if_pos htarget] at h
        exact routeOrganizationLine_routed hlines h
      · rw [if_neg htarget] at h
        by_cases htype : input.payerType = "organization"
        · rw [if_pos htype] at h
          exact routeAssisted_routed htype hlines h
        · rw [if_neg htype] at h
          exact routeDirect_routed hlines h
    next => cases h

def OwnSettlement (input : RoutingInput) (r : Routing) : Prop :=
  (r.purpose = .assisted_settlement ∧ ∃ a, input.assistance = some a ∧ a.organizationId = input.payerId ∧
      r.assistanceRequestId = some a.id ∧ r.beneficiaryUserId = some a.beneficiaryUserId ∧ r.productId = some a.productId) ∨
    (r.purpose = .recovery_settlement ∧ ∃ o, input.recovery = some o ∧ o.organizationId = input.payerId ∧
      r.recoveryObligationId = some o.obligationId)

section
variable (h : Routed input r)
include h

theorem Routed.own_settlement (htype : input.payerType = "organization") : OwnSettlement input r := by
  cases h with
  | recovery o hchannel hpurpose _ hid _ _ _ _ _ _ hobligation =>
    exact .inr ⟨hpurpose, o, hchannel, hid.symm, hobligation⟩
  | ordinary _ hother => exact absurd htype hother
  | organization _ _ huser => exact absurd (huser.symm.trans htype) (by decide)
  | assisted _ a hchannel hpurpose _ hid _ _ hbeneficiary _ hproduct hrequest =>
    exact .inl ⟨hpurpose, a, hchannel, hid.symm, hrequest, hbeneficiary, hproduct⟩
  | direct _ _ huser => exact absurd (huser.symm.trans htype) (by decide)

theorem Routed.lines_le : (subscriptionLines input).length ≤ 1 := by
  cases h
  all_goals simp [*]

theorem Routed.beneficiary {b : String} (hb : r.beneficiaryUserId = some b) :
    (r.purpose = .direct_purchase ∧ b = input.payerId) ∨ r.purpose = .assisted_settlement := by
  cases h with
  | recovery _ _ _ _ _ _ _ hnone => exact absurd (hb.symm.trans hnone) (Option.some_ne_none b)
  | ordinary _ _ _ _ hnone => exact absurd (hb.symm.trans hnone) (Option.some_ne_none b)
  | organization _ _ _ _ _ hnone => exact absurd (hb.symm.trans hnone) (Option.some_ne_none b)
  | assisted _ _ _ hpurpose => exact .inr hpurpose
  | direct _ hpurpose _ _ _ hpayer => exact .inl ⟨hpurpose, Option.some.inj (hb.symm.trans hpayer)⟩

theorem Routed.combination : combination input.payerType input.payerId r = true := by
  cases h
  all_goals simp [InvoiceRouting.combination, *]

theorem Routed.paired :
    assertPurposePairing r.purpose.text ⟨input.payerType, input.payerId⟩ r.beneficiaryUserId = .ok () := by
  cases h
  all_goals simp [assertPurposePairing, ORGANIZATION_PAYER_PURPOSES, RoutingPurpose.text, *]

end

def PairingAccepted (body : PaymentCreateBody) : Prop :=
  ∃ purpose, body.dto.purpose = some purpose ∧
    assertPurposePairing purpose body.dto.payer body.dto.beneficiaryUserId = .ok ()

theorem Routed.pairing_accepted (h : Routed input r) (c : ClaimedInvoice input r) {request : RequestForMapping}
    {version : Nat} (hversion : 2 ≤ version) {body : PaymentCreateBody}
    (hbody : buildPaymentRequestBody c.invoice request version = .ok body) : PairingAccepted body := by
  obtain ⟨number, rfl⟩ := (PaymentEcho.buildPaymentRequestBody_ok hbody).body
  have hpurpose : (c.invoice.body request number version).dto.purpose = some r.purpose.text := by
    simp only [InvoiceForMapping.body, PaymentCreateBody.dto, if_pos hversion, c.purpose]
  have hpayer : (c.invoice.body request number version).dto.payer = ⟨input.payerType, input.payerId⟩ := by
    simp only [InvoiceForMapping.body, PaymentCreateBody.dto, c.payerType, c.payerId]
  have hbeneficiary : (c.invoice.body request number version).dto.beneficiaryUserId = r.beneficiaryUserId := by
    simp only [InvoiceForMapping.body, PaymentCreateBody.dto, if_pos hversion, c.beneficiaryUserId]
  refine ⟨r.purpose.text, hpurpose, ?_⟩
  rw [hpayer, hbeneficiary]
  exact h.paired

/-- **A routing is one that the table and Payment accept, and it is of the invoice's own payer and channel.** -/
theorem routing_accepted (input : RoutingInput) (r : Routing) (h : decideRouting input = .ok r) :
    (input.payerType = "organization" → OwnSettlement input r) ∧
    (subscriptionLines input).length ≤ 1 ∧
    (∀ b, r.beneficiaryUserId = some b →
      (r.purpose = .direct_purchase ∧ b = input.payerId) ∨ r.purpose = .assisted_settlement) ∧
    InvoiceRouting.combination input.payerType input.payerId r = true ∧
    assertPurposePairing r.purpose.text ⟨input.payerType, input.payerId⟩ r.beneficiaryUserId = .ok () ∧
    (∀ (c : ClaimedInvoice input r) (request : RequestForMapping) (version : Nat) (body : PaymentCreateBody),
      2 ≤ version → buildPaymentRequestBody c.invoice request version = .ok body → PairingAccepted body) := by
  have hr := decideRouting_routed h
  exact ⟨hr.own_settlement, hr.lines_le, fun b => hr.beneficiary, hr.combination, hr.paired,
    fun c request version body hversion hbody => hr.pairing_accepted c hversion hbody⟩

def assistedInvoice : RoutingInput :=
  { payerType := "organization"
    payerId := "org-1"
    organizationId := some "org-1"
    lines := [⟨"product-0", .none, none⟩, ⟨"product-1", .personal, some "platform-1"⟩]
    assistance := some ⟨"request-1", "user-1", "org-1", "product-1"⟩
    recovery := none }

def assistedRouting : Routing :=
  { purpose := .assisted_settlement
    target := .personal
    beneficiaryUserId := some "user-1"
    organizationId := some "org-1"
    productId := some "product-1"
    platformId := some "platform-1"
    assistanceRequestId := some "request-1"
    recoveryObligationId := none }

theorem routing_accepted_assisted :
    OwnSettlement assistedInvoice assistedRouting ∧
      assertPurposePairing "assisted_settlement" ⟨"organization", "org-1"⟩ (some "user-1") = .ok () := by
  have h := routing_accepted assistedInvoice assistedRouting (by decide)
  exact ⟨h.1 rfl, h.2.2.2.2.1⟩

end NawaraCore.InvoiceRouting
