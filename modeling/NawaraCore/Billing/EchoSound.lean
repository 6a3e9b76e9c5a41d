import NawaraCore.Billing.PaymentEcho
import NawaraCore.Payment.CreationSound

/-!
# Soundness of the echo

A payment built from Billing's body has the snapshot of the invoice and the request,
so nothing that Payment says about it later looks like another payment.
-/

namespace NawaraCore.PaymentEcho

open Payments (Uuid PaymentStatus)
open PaymentCreation (CreatePaymentDto PaymentRow NewEvent EventName Prepared Candidate Snapshot SameSnapshot Describes
  toLowerCase)
open PaymentRequests (PaymentEventFacts RequestFacts InvoiceFacts PaymentRequestStatus InvoiceStatus decidePaymentEvent
  EXPECTED_PRODUCER)

theorem toLowerCase_canonical {s : String} (h : isCanonicalUuid s) : toLowerCase s = s := by
  simp only [isCanonicalUuid, Bool.and_eq_true, List.all_eq_true, Bool.not_eq_true'] at h
  unfold toLowerCase
  rw [map_toLower_eq h.2, String.ofList_toList]

structure Mapped (i : InvoiceForMapping) (r : RequestForMapping) (version : Nat) (body : PaymentCreateBody) : Prop where
  body : ∃ number, body = i.body r number version
  seller : i.sellerType = "organization" → i.organizationId = some i.sellerId
  organization : ∀ o, i.organizationId = some o → isCanonicalUuid o
  amount : 1 ≤ r.amount ∧ r.amount ≤ MAX_MINOR_UNITS

theorem buildPaymentRequestBody_ok {i : InvoiceForMapping} {r : RequestForMapping} {version : Nat}
    {body : PaymentCreateBody} (h : buildPaymentRequestBody i r version = .ok body) : Mapped i r version body := by
  unfold buildPaymentRequestBody at h
  obtain ⟨-, h⟩ := guard_ok h
  split at h
  · cases h
  · cases h
  rename_i number _ _
  obtain ⟨-, -, h⟩ := guards_ok h
  obtain ⟨u, -, h⟩ := bind_eq_ok.mp h
  obtain ⟨v, -, h⟩ := bind_eq_ok.mp h
  obtain ⟨-, -, h⟩ := guards_ok h
  obtain ⟨hself, horg, h⟩ := guards_ok h
  obtain ⟨-, ham, h⟩ := guards_ok h
  obtain ⟨-, -, h⟩ := guards_ok h
  cases h
  refine ⟨⟨number, rfl⟩, fun hs => ?_, fun o ho => ?_, by omega⟩
  · by_contra hne
    exact hself ⟨hs, hne⟩
  · simpa [ho] using horg

/-! ## The snapshot -/

structure Echo (i : InvoiceForMapping) (r : RequestForMapping) (version : Nat) (s : Snapshot) : Prop where
  sourceType : s.sourceType = "invoice"
  sourceId : s.sourceId = i.id
  payer : s.payer = ⟨i.payerType, i.payerId⟩
  seller : s.seller = ⟨i.sellerType, i.sellerId⟩
  organizationId : s.organizationId = i.organizationId
  amount : s.amount = r.amount
  currency : s.currency = i.currency
  purpose : s.purpose = if 2 ≤ version then i.purpose else none
  beneficiaryUserId : s.beneficiaryUserId = if 2 ≤ version then i.beneficiaryUserId else none

variable {facts : PaymentEventFacts}

section
variable {i : InvoiceForMapping} {r : BillingRequest} {body : PaymentCreateBody} {cfg : PaymentCreation.CreationConfig} {s : PaymentCreation.Sys}

theorem normaliseSeller_body (hm : Mapped i r.mapped r.mappingVersion body) {seller : PaymentCreation.Party}
    {organizationId : Option String} (h : PaymentCreation.normaliseSeller body.dto = .ok (seller, organizationId)) :
    seller = ⟨i.sellerType, i.sellerId⟩ ∧ organizationId = i.organizationId := by
  obtain ⟨number, rfl⟩ := hm.body
  rcases PaymentCreation.normaliseSeller_ok h with ⟨-, rfl, rfl⟩ | ⟨hs, rfl, rfl⟩
  · refine ⟨rfl, ?_⟩
    have hdto : (i.body r.mapped number r.mappingVersion).dto.organizationId = i.organizationId := rfl
    rw [hdto]
    cases ho : i.organizationId with
    | none => rfl
    | some o => exact congrArg some (toLowerCase_canonical (hm.organization o ho))
  · have ho := hm.seller hs
    have hl : toLowerCase (i.body r.mapped number r.mappingVersion).dto.seller.id = i.sellerId :=
      toLowerCase_canonical (hm.organization _ ho)
    rw [hl]
    exact ⟨rfl, ho.symm⟩

theorem normalisePayer_body (ha : Accepted i r) (hm : Mapped i r.mapped r.mappingVersion body)
    {payer : PaymentCreation.Party} {scopeId : Option String}
    (h : PaymentCreation.normalisePayer body.dto i.organizationId = .ok (payer, scopeId)) :
    payer = ⟨i.payerType, i.payerId⟩ ∧ scopeId = i.organizationId := by
  obtain ⟨number, rfl⟩ := hm.body
  rcases PaymentCreation.normalisePayer_ok h with ⟨-, rfl, rfl⟩ | ⟨hp, rfl, rfl⟩
  · exact ⟨rfl, rfl⟩
  · rcases ha.payer with hu | ⟨-, -, ho⟩
    · exact absurd (hu.symm.trans hp) (by decide)
    · have hl : toLowerCase (i.body r.mapped number r.mappingVersion).dto.payer.id = i.payerId :=
        toLowerCase_canonical (hm.organization _ ho)
      rw [hl]
      exact ⟨rfl, ho.symm⟩

theorem echo_of_prepared (ha : Accepted i r) (hm : Mapped i r.mapped r.mappingVersion body) {producer : String}
    {c : Candidate} {st : PaymentCreation.Stage} (h : Prepared producer body.dto c st) :
    Echo i r.mapped r.mappingVersion c.snapshot := by
  cases h with
  | historical seller scopeId hs hp hst hc =>
    obtain ⟨rfl, rfl⟩ := normaliseSeller_body hm hs
    obtain ⟨number, rfl⟩ := hm.body
    subst hc
    exact ⟨rfl, rfl, rfl, rfl, rfl, rfl, rfl, rfl, rfl⟩
  | new seller payer organizationId scopeId hs hp hpay hst hc =>
    obtain ⟨rfl, rfl⟩ := normaliseSeller_body hm hs
    obtain ⟨rfl, rfl⟩ := normalisePayer_body ha hm hpay
    obtain ⟨number, rfl⟩ := hm.body
    subst hc
    exact ⟨rfl, rfl, rfl, rfl, rfl, rfl, rfl, rfl, rfl⟩

/-! ## The decision -/

structure Reads (facts : PaymentEventFacts) (s : Snapshot) : Prop where
  source : facts.source = "payment-service"
  producer : facts.producer = EXPECTED_PRODUCER
  sourceType : facts.sourceType = s.sourceType
  sourceId : facts.sourceId = keyOf s.sourceId
  payer : facts.payer = party s.payer
  seller : facts.seller = party s.seller
  organizationId : facts.organizationId = s.organizationId.map keyOf
  amount : facts.amount = .integer s.amount
  currency : facts.currency = s.currency
  purpose : facts.purpose = s.purpose
  beneficiaryUserId : facts.beneficiaryUserId = s.beneficiaryUserId

theorem amount_valid {n : Int} (h : 1 ≤ n ∧ n ≤ MAX_MINOR_UNITS) : (PaymentRequests.JsonAmount.integer n).valid = some n := by
  unfold MAX_MINOR_UNITS at h
  have hmax : PaymentRequests.MAX_SAFE_INTEGER = 9007199254740991 := rfl
  have hs : PaymentRequests.isSafeInteger n := by
    unfold PaymentRequests.isSafeInteger
    rw [hmax]
    exact decide_eq_true ⟨by omega, h.2⟩
  simp [PaymentRequests.JsonAmount.valid, hs, h.1]

theorem decide_echo (ha : Accepted i r) (hm : Mapped i r.mapped r.mappingVersion body) {s : Snapshot}
    (he : Echo i r.mapped r.mappingVersion s) (hr : Reads facts s)
    (status : PaymentRequestStatus) (paymentId : Option Uuid) (invoiceStatus : InvoiceStatus) (total : Int)
    (requireLive : Bool) :
    ¬ Mismatch (decidePaymentEvent facts (some (r.facts status paymentId)) (some (i.facts invoiceStatus total))
      requireLive) := by
  have hamount : facts.amount.valid = some r.mapped.amount := by
    rw [hr.amount, he.amount, amount_valid hm.amount]
  have hsnapshot : PaymentRequests.sameSnapshot facts (i.facts invoiceStatus total) = true := by
    simp [PaymentRequests.sameSnapshot, InvoiceForMapping.facts, hr.sourceType, hr.sourceId, hr.payer, hr.seller,
      hr.organizationId, he.sourceType, he.sourceId, he.payer, he.seller, he.organizationId, party]
  have hrouting : PaymentRequests.sameRouting facts (r.facts status paymentId) (i.facts invoiceStatus total) = true := by
    simp [PaymentRequests.sameRouting, InvoiceForMapping.facts, BillingRequest.facts, hr.purpose, hr.beneficiaryUserId,
      he.purpose, he.beneficiaryUserId]
  have hsource : ¬ (facts.source ≠ "payment-service") := not_not.mpr hr.source
  have hproducer : ¬ (facts.producer ≠ EXPECTED_PRODUCER) := not_not.mpr hr.producer
  have hmoney : ¬ (r.mapped.amount ≠ (r.facts status paymentId).amount ∨
      facts.currency ≠ (r.facts status paymentId).currency) := by
    simp [BillingRequest.facts, hr.currency, he.currency, ha.currency]
  unfold decidePaymentEvent
  dsimp only
  -- whatever the event meets before the comparison is not a mismatch either
  by_cases hlive : requireLive ∧ facts.liveMode ≠ some true
  · rw [if_pos hlive]
    simp [Mismatch]
  rw [if_neg hlive]
  cases hrequest : (r.facts status paymentId).paymentId with
  | none => simp [Mismatch]
  | some known =>
  dsimp only
  rw [if_neg hsource, if_neg hproducer]
  by_cases hid : facts.paymentId ≠ known
  · rw [if_pos hid]
    simp [Mismatch]
  rw [if_neg hid, hamount]
  dsimp only
  rw [if_neg hmoney, if_neg (not_not.mpr hsnapshot), if_neg (not_not.mpr hrouting)]
  repeat' split
  all_goals simp [Mismatch]

/-! ## The trip -/

variable {q : PaymentRow}

theorem parseFacts_reads {e : NewEvent} (hd : Describes e q) (hp : q.producer = EXPECTED_PRODUCER)
    (hf : parseFacts e = some facts) : Reads facts q.snapshot := by
  obtain ⟨name, -, rfl⟩ := Option.map_eq_some_iff.mp hf
  unfold Describes at hd
  rw [hd]
  constructor
  all_goals first | rfl | exact hp

theorem reconciledFacts_reads (hf : reconciledFacts q = some facts) :
    Reads facts q.snapshot := by
  obtain ⟨name, -, rfl⟩ := Option.map_eq_some_iff.mp hf
  constructor
  all_goals rfl

inductive ReadBack (s : PaymentCreation.Sys) (p : PaymentRow) (facts : PaymentEventFacts) : Prop
  | event (e : NewEvent) (he : e ∈ s.db.outbox) (hid : e.payload.paymentId = p.id) (hf : parseFacts e = some facts)
  | answer (hf : reconciledFacts p = some facts)
  | snapshot (q : PaymentRow) (hq : q ∈ s.db.rows) (hid : q.id = p.id) (hf : reconciledFacts q = some facts)

variable {x : PaymentCreation.Answered}

theorem ReadBack.reads (hs : PaymentCreation.Runs cfg s) (hx : x ∈ s.answers)
    (hp : x.producer = EXPECTED_PRODUCER) {p : PaymentRow} {replayed : Bool} (hret : x.answer = .returned p replayed)
    (h : ReadBack s p facts) : Reads facts p.snapshot := by
  obtain ⟨⟨row, hrow, hsame⟩, c, st, hprep, hkey, -⟩ := hs.inv.answers x hx p replayed hret
  have hproducer : row.producer = EXPECTED_PRODUCER := by
    have hk : p.producer = c.producer := congrArg Prod.fst hkey
    rw [hsame.producer, hk, (PaymentCreation.prepare_ok hprep).producer, hp]
  rw [← hsame.snapshot]
  cases h with
  | event e he hid hf =>
    obtain ⟨q, hq, hd⟩ := hs.inv.db.events e he
    have hqid : q.id = row.id := by
      have hdid : e.payload.paymentId = q.id := congrArg (·.payload.paymentId) hd
      rw [hsame.id, ← hid, hdid]
    obtain rfl := eq_of_key hs.inv.db.ids hq hrow hqid
    exact parseFacts_reads hd hproducer hf
  | answer hf =>
    rw [hsame.snapshot]
    exact reconciledFacts_reads hf
  | snapshot q hq hid hf =>
    obtain rfl := eq_of_key hs.inv.db.ids hq hrow (hid.trans hsame.id.symm)
    exact reconciledFacts_reads hf

/-- **What Payment says about the payment of a body is never another payment for Billing.** -/
theorem echo_never_mismatches (hs : PaymentCreation.Runs cfg s) (ha : Accepted i r)
    (hb : buildPaymentRequestBody i r.mapped r.mappingVersion = .ok body) {x : PaymentCreation.Answered}
    (hx : x ∈ s.answers) (hp : x.producer = EXPECTED_PRODUCER) (hd : x.dto = body.dto) {p : PaymentRow} {replayed : Bool}
    (hret : x.answer = .returned p replayed) {facts : PaymentEventFacts} (hf : ReadBack s p facts)
    (status : PaymentRequestStatus) (paymentId : Option Uuid) (invoiceStatus : InvoiceStatus) (total : Int)
    (requireLive : Bool) :
    ¬ Mismatch (decidePaymentEvent facts (some (r.facts status paymentId)) (some (i.facts invoiceStatus total))
      requireLive) := by
  have hm := buildPaymentRequestBody_ok hb
  obtain ⟨-, c, st, hprep, -, hsnap⟩ := hs.inv.answers x hx p replayed hret
  have he : Echo i r.mapped r.mappingVersion p.snapshot := by
    rw [hsnap]
    exact echo_of_prepared ha hm (hd ▸ PaymentCreation.prepare_ok hprep)
  exact decide_echo ha hm he (hf.reads hs hx hp hret) status paymentId invoiceStatus total requireLive

end

/-! ## An assisted settlement -/

def assistedConfig : PaymentCreation.CreationConfig :=
  ⟨["EUR"], fun _ => ["payment.create.assisted_settlement"], ["EUR"]⟩

def assistingOrganization : String := "0b7e6a52-0000-4000-8000-00000000000b"

def assistedInvoice : InvoiceForMapping :=
  { id := "0b7e6a52-0000-4000-8000-00000000000c"
    number := some "2026-1"
    payerType := "organization"
    payerId := assistingOrganization
    sellerType := "company"
    sellerId := "c-1"
    organizationId := some assistingOrganization
    currency := "EUR"
    description := none
    purpose := some "assisted_settlement"
    beneficiaryUserId := some "u-1" }

def assistedRequest : BillingRequest := ⟨⟨"0b7e6a52-0000-4000-8000-00000000000a", 1000, none⟩, "EUR", 2⟩

def assistedBody : PaymentCreateBody := assistedInvoice.body assistedRequest.mapped "2026-1" 2

def assistedCall (stage : PaymentCreation.Stage) : PaymentCreation.CreateCall :=
  let d := assistedBody.dto
  ⟨EXPECTED_PRODUCER, d, d.candidate EXPECTED_PRODUCER (d.snapshot d.payer d.seller d.organizationId none), stage⟩

def assistedPayment : List PaymentCreation.Action :=
  [ .create EXPECTED_PRODUCER assistedBody.dto, .proceed (assistedCall .lookUp) 1, .scopeAnswer (assistedCall .scope) none,
    .proceed (assistedCall .insert) 1, .transition 1 .succeeded (some .succeeded) ]

def assistedRow : PaymentRow := (assistedCall .insert).candidate.row 1

theorem echo_never_mismatches_assisted :
    let s := PaymentCreation.run assistedConfig PaymentCreation.emptySys assistedPayment
    let e := PaymentCreation.paymentEvent .succeeded (assistedRow.moved .succeeded)
    e ∈ s.db.outbox ∧ ∃ facts, parseFacts e = some facts ∧
      (let d := decidePaymentEvent facts (some (assistedRequest.facts .requested (some 1)))
        (some (assistedInvoice.facts .open 1000)) false
      d = .applied .paid true ∧ ¬ Mismatch d) := by
  have hs : PaymentCreation.Runs assistedConfig
      (PaymentCreation.run assistedConfig PaymentCreation.emptySys assistedPayment) :=
    PaymentCreation.Runs.run (.init PaymentCreation.initial_empty) assistedPayment
  have hb : buildPaymentRequestBody assistedInvoice assistedRequest.mapped assistedRequest.mappingVersion =
      .ok assistedBody := by decide
  have hx : (⟨EXPECTED_PRODUCER, assistedBody.dto, .returned assistedRow false⟩ : PaymentCreation.Answered) ∈
      (PaymentCreation.run assistedConfig PaymentCreation.emptySys assistedPayment).answers := by decide
  have he : PaymentCreation.paymentEvent .succeeded (assistedRow.moved .succeeded) ∈
      (PaymentCreation.run assistedConfig PaymentCreation.emptySys assistedPayment).db.outbox := by decide
  exact ⟨he, _, rfl, by decide,
    echo_never_mismatches hs ⟨by decide, by decide⟩ hb hx rfl rfl rfl (.event _ he rfl rfl) _ _ _ _ _⟩

end NawaraCore.PaymentEcho
