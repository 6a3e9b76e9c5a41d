import NawaraCore.Lib.Runs
import NawaraCore.Payment.Payment

/-!
# Creating a payment

`PaymentService.create`: the request, its normalisation and its snapshot, the row that
the database admits, and the events that describe a row. Identifiers and enumerations
of the wire are texts, as the request spells them.
-/

namespace NawaraCore.PaymentCreation

open Payments (Uuid PaymentStatus PaymentError enforce)

def toLowerCase (s : String) : String := String.ofList (s.toList.map Char.toLower)

def isHexDigit (c : Char) : Bool :=
  ('0' ≤ c ∧ c ≤ '9') ∨ ('a' ≤ c ∧ c ≤ 'f') ∨ ('A' ≤ c ∧ c ≤ 'F')

/-- `UUID`: hexadecimal digits of either case in groups of 8, 4, 4, 4 and 12. -/
def isUuid (s : String) : Bool :=
  s.length = 36 ∧ s.toList.zipIdx.all fun c =>
    if c.2 = 8 ∨ c.2 = 13 ∨ c.2 = 18 ∨ c.2 = 23 then c.1 = '-' else isHexDigit c.1

def isLowerLetter (c : Char) : Bool := 'a' ≤ c ∧ c ≤ 'z'

def isDigit (c : Char) : Bool := '0' ≤ c ∧ c ≤ '9'

def isSourceType (s : String) : Bool :=
  match s.toList with
  | [] => false
  | c :: cs => isLowerLetter c ∧ 1 ≤ cs.length ∧ cs.length ≤ 62 ∧
      cs.all fun d => isLowerLetter d || isDigit d || d = '_'

/-! ## The request -/

structure Party where
  type : String
  id : String
deriving DecidableEq

def PARTY_TYPES : List String := ["user", "organization", "company"]

/-- A given `expiresAt` is read as an instant, which its shape does not ensure. -/
structure CreatePaymentDto where
  paymentRequestId : String
  sourceType : String
  sourceId : String
  payer : Party
  seller : Party
  organizationId : Option String
  amount : Int
  currency : String
  expiresAt : Option (Option Int)
  description : Option String
  reference : Option String
  purpose : Option String
  beneficiaryUserId : Option String
deriving DecidableEq

def lengthBetween (low high : Nat) (s : String) : Bool := low ≤ s.length ∧ s.length ≤ high

def Party.valid (p : Party) : Bool := PARTY_TYPES.contains p.type && lengthBetween 1 128 p.id

def CreatePaymentDto.valid (d : CreatePaymentDto) : Bool :=
  isUuid d.paymentRequestId && isSourceType d.sourceType && lengthBetween 1 128 d.sourceId && d.payer.valid &&
    d.seller.valid && d.organizationId.all isUuid && decide (1 ≤ d.amount ∧ d.amount ≤ 9007199254740991) &&
    Payments.isoCurrency d.currency && d.description.all (lengthBetween 0 140) && d.reference.all (lengthBetween 0 64) &&
    d.beneficiaryUserId.all (lengthBetween 1 128)

structure CreationConfig where
  supportedCurrencies : List String
  /-- The operations that the service policy grants a caller. -/
  operations : String → List String
  /-- The codes of the `currency` table. -/
  currencies : List String

def ACCEPTED_PURPOSES : List String :=
  ["organization_subscription", "direct_purchase", "assisted_settlement", "recovery_settlement", "non_entitlement"]

def ORGANIZATION_PAYER_PURPOSES : List String := ["assisted_settlement", "recovery_settlement"]

def organizationPayerGrant (purpose payerType : String) : Option String :=
  if ¬ (payerType = "organization" ∨ ORGANIZATION_PAYER_PURPOSES.contains purpose) then none
  else if purpose = "assisted_settlement" then some "payment.create.assisted_settlement"
  else if purpose = "recovery_settlement" then some "payment.create.recovery_settlement"
  else some "payment.create.organization_payer"

def assertPurposePairing (purpose : String) (payer : Party) (beneficiaryUserId : Option String) :
    Except PaymentError Unit :=
  let mismatch : Except PaymentError Unit := .error (.http 422 "payer_purpose_mismatch")
  if decide (payer.type = "organization") ≠ ORGANIZATION_PAYER_PURPOSES.contains purpose then mismatch
  else if (purpose = "organization_subscription" ∨ purpose = "direct_purchase") ∧ payer.type ≠ "user" then mismatch
  else if purpose = "direct_purchase" ∨ purpose = "assisted_settlement" then
    match beneficiaryUserId with
    | none => .error (.http 400 "invalid_payment_request")
    | some b => if purpose = "direct_purchase" ∧ b ≠ payer.id then mismatch else .ok ()
  else if beneficiaryUserId ≠ none then .error (.http 400 "invalid_payment_request")
  else .ok ()

/-! ## The snapshot -/

structure Snapshot where
  sourceType : String
  sourceId : String
  payer : Party
  seller : Party
  organizationId : Option String
  amount : Int
  currency : String
  description : Option String
  reference : Option String
  purpose : Option String
  beneficiaryUserId : Option String
  expiresAt : Option Int
deriving DecidableEq

structure Candidate where
  producer : String
  paymentRequestId : String
  snapshot : Snapshot
deriving DecidableEq

def CreatePaymentDto.snapshot (d : CreatePaymentDto) (payer seller : Party) (organizationId : Option String)
    (expiresAt : Option Int) : Snapshot :=
  { sourceType := d.sourceType
    sourceId := d.sourceId
    payer
    seller
    organizationId
    amount := d.amount
    currency := d.currency
    description := d.description
    reference := d.reference
    purpose := d.purpose
    beneficiaryUserId := d.beneficiaryUserId
    expiresAt }

def CreatePaymentDto.candidate (d : CreatePaymentDto) (producer : String) (snapshot : Snapshot) : Candidate :=
  ⟨producer, toLowerCase d.paymentRequestId, snapshot⟩

def normaliseSeller (d : CreatePaymentDto) : Except PaymentError (Party × Option String) :=
  let organizationId := d.organizationId.map toLowerCase
  if d.seller.type ≠ "organization" then .ok (d.seller, organizationId)
  else if !isUuid d.seller.id then .error (.http 400 "invalid_payment_request")
  else
    let id := toLowerCase d.seller.id
    if organizationId ≠ none ∧ organizationId ≠ some id then .error (.http 400 "invalid_payment_request")
    else .ok (⟨d.seller.type, id⟩, some id)

def normalisePayer (d : CreatePaymentDto) (organizationId : Option String) :
    Except PaymentError (Party × Option String) :=
  if d.payer.type ≠ "organization" then .ok (d.payer, organizationId)
  else if !isUuid d.payer.id then .error (.http 400 "invalid_payment_request")
  else
    let id := toLowerCase d.payer.id
    if organizationId ≠ none ∧ organizationId ≠ some id then .error (.http 400 "invalid_payment_request")
    else .ok (⟨d.payer.type, id⟩, some id)

inductive Stage
  | replayHistorical
  /-- With an Organization: the look-up before the Organization's scope is asked for. -/
  | lookUp
  | scope
  | insert
deriving DecidableEq

/-- `create` up to its first statement. -/
def prepare (cfg : CreationConfig) (producer : String) (d : CreatePaymentDto) :
    Except PaymentError (Candidate × Stage) := do
  if !cfg.supportedCurrencies.contains d.currency then .error (.http 422 "unsupported_currency")
  else if d.payer.type = d.seller.type ∧ d.payer.id = d.seller.id then .error (.http 400 "invalid_payment_request")
  else
    let (seller, organizationId) ← normaliseSeller d
    if d.expiresAt = some none then .error (.http 400 "invalid_payment_request")
    else
      let expiresAt := d.expiresAt.join
      match d.purpose with
      | none => .ok (d.candidate producer (d.snapshot d.payer seller organizationId expiresAt), .replayHistorical)
      | some purpose =>
        if !ACCEPTED_PURPOSES.contains purpose then .error (.http 400 "invalid_payment_request")
        else if (organizationPayerGrant purpose d.payer.type).any fun g => !(cfg.operations producer).contains g then
          .error (.http 403 "operation_not_permitted")
        else
          assertPurposePairing purpose d.payer d.beneficiaryUserId
          let (payer, organizationId) ← normalisePayer d organizationId
          let c := d.candidate producer (d.snapshot payer seller organizationId expiresAt)
          .ok (c, if organizationId = none then .insert else .lookUp)

/-! ## Rows and events -/

/-- `liveMode` is absent on a payment older than it. -/
structure PaymentRow where
  id : Uuid
  producer : String
  paymentRequestId : String
  snapshot : Snapshot
  liveMode : Option Bool
  status : PaymentStatus
  revision : Nat
deriving DecidableEq

def PaymentRow.key (r : PaymentRow) : String × String := (r.producer, r.paymentRequestId)

def Candidate.key (c : Candidate) : String × String := (c.producer, c.paymentRequestId)

def isIdenticalSnapshot (existing : PaymentRow) (c : Candidate) : Bool :=
  existing.producer = c.producer ∧ existing.snapshot = c.snapshot

inductive EventName
  | created | succeeded | failed | cancelled | expired
deriving DecidableEq

structure EventPayload where
  paymentId : Uuid
  paymentRequestId : String
  sourceType : String
  sourceId : String
  organizationId : Option String
  payer : Party
  seller : Party
  amount : Int
  currency : String
  status : PaymentStatus
  revision : Nat
  purpose : Option String
  beneficiaryUserId : Option String
  liveMode : Option Bool
  producer : String
deriving DecidableEq

structure NewEvent where
  name : EventName
  payload : EventPayload
deriving DecidableEq

def NewEvent.id (e : NewEvent) : Uuid × EventName := (e.payload.paymentId, e.name)

def paymentEvent (name : EventName) (p : PaymentRow) : NewEvent :=
  { name
    payload :=
      { paymentId := p.id
        paymentRequestId := p.paymentRequestId
        sourceType := p.snapshot.sourceType
        sourceId := p.snapshot.sourceId
        organizationId := p.snapshot.organizationId
        payer := p.snapshot.payer
        seller := p.snapshot.seller
        amount := p.snapshot.amount
        currency := p.snapshot.currency
        status := p.status
        revision := p.revision
        purpose := p.snapshot.purpose
        beneficiaryUserId := p.snapshot.beneficiaryUserId
        liveMode := p.liveMode
        producer := p.producer } }

structure Db where
  rows : List PaymentRow
  outbox : List NewEvent

def Db.enqueue (db : Db) (e : NewEvent) : Db :=
  if db.outbox.any (·.id = e.id) then db else { db with outbox := db.outbox ++ [e] }

def snapshotChecks (s : Snapshot) : List (String × Bool) :=
  let organizationPurpose := s.purpose.any ORGANIZATION_PAYER_PURPOSES.contains
  let userPurpose := s.purpose = some "organization_subscription" ∨ s.purpose = some "direct_purchase"
  let beneficiaryPurpose := s.purpose = some "direct_purchase" ∨ s.purpose = some "assisted_settlement"
  [ ("payment_amount_positive", 0 < s.amount),
    ("payment_amount_safe_integer", s.amount ≤ 9007199254740991),
    ("payment_source_type_shape", isSourceType s.sourceType),
    ("payment_source_id_length", lengthBetween 1 128 s.sourceId),
    ("payment_payer_type_valid", PARTY_TYPES.contains s.payer.type),
    ("payment_seller_type_valid", PARTY_TYPES.contains s.seller.type),
    ("payment_payer_seller_distinct", s.payer ≠ s.seller),
    ("payment_organization_matches_seller", s.seller.type ≠ "organization" ∨ s.organizationId = some s.seller.id),
    ("payment_description_length", s.description.all (lengthBetween 0 140)),
    ("payment_reference_length", s.reference.all (lengthBetween 0 64)),
    ("payment_purpose_valid", s.purpose.all ACCEPTED_PURPOSES.contains),
    ("payment_payer_purpose_pairing", s.purpose = none ∨ decide (s.payer.type = "organization") = organizationPurpose),
    ("payment_purpose_user_payer", ¬ userPurpose ∨ s.payer.type = "user"),
    ("payment_beneficiary_pairing",
      s.purpose = none ∨ decide beneficiaryPurpose = s.beneficiaryUserId.isSome),
    ("payment_direct_purchase_beneficiary",
      s.purpose ≠ some "direct_purchase" ∨ s.beneficiaryUserId = some s.payer.id),
    ("payment_beneficiary_length", s.beneficiaryUserId.all (lengthBetween 1 128)),
    ("payment_beneficiary_needs_purpose", s.purpose ≠ none ∨ s.beneficiaryUserId = none) ]

def rowChecks (db : Db) (r : PaymentRow) : List (String × Bool) :=
  snapshotChecks r.snapshot ++ [("payment_pkey", !db.rows.any (·.id = r.id))]

def insertedChecks (cfg : CreationConfig) (r : PaymentRow) : List (String × Bool) :=
  [ ("payment_currency_fkey", cfg.currencies.contains r.snapshot.currency),
    ("payment_s4a_required", r.snapshot.purpose ≠ none ∧ r.liveMode ≠ none),
    ("payment_organization_payer_scope",
      r.snapshot.payer.type ≠ "organization" ∨ r.snapshot.organizationId = some r.snapshot.payer.id) ]

def Candidate.row (c : Candidate) (freshId : Uuid) : PaymentRow :=
  { id := freshId
    producer := c.producer
    paymentRequestId := c.paymentRequestId
    snapshot := c.snapshot
    liveMode := some false
    status := .created
    revision := 0 }

def Db.find (db : Db) (c : Candidate) : Option PaymentRow := db.rows.find? (·.key = c.key)

def conflict : PaymentError := .http 409 "payment_request_conflict"

inductive Answer
  | returned (payment : PaymentRow) (replayed : Bool)
  | refused (e : PaymentError)
deriving DecidableEq

def replay (existing : PaymentRow) (c : Candidate) : Answer :=
  if isIdenticalSnapshot existing c then .returned existing true else .refused conflict

/-- The transaction of `create`: the insert with its event, or the answer for the row that was there first. -/
def createTx (cfg : CreationConfig) (db : Db) (c : Candidate) (freshId : Uuid) : Except PaymentError (Db × Answer) := do
  enforce (rowChecks db (c.row freshId))
  match db.find c with
  | some existing => .ok (db, replay existing c)
  | none =>
    enforce (insertedChecks cfg (c.row freshId))
    .ok ({ db with rows := db.rows ++ [c.row freshId] }.enqueue (paymentEvent .created (c.row freshId)),
      .returned (c.row freshId) false)

/-! ## Concurrent requests -/

structure CreateCall where
  producer : String
  dto : CreatePaymentDto
  candidate : Candidate
  stage : Stage
deriving DecidableEq

structure Answered where
  producer : String
  dto : CreatePaymentDto
  answer : Answer
deriving DecidableEq

structure Sys where
  db : Db
  calls : List CreateCall
  answers : List Answered

inductive Action
  | create (producer : String) (dto : CreatePaymentDto)
  | proceed (c : CreateCall) (freshId : Uuid)
  | scopeAnswer (c : CreateCall) (refusal : Option PaymentError)
  | lose (c : CreateCall)
  /-- Any other operation of Payment moves a payment and announces it. -/
  | transition (id : Uuid) (status : PaymentStatus) (announced : Option EventName)

def Sys.answer (s : Sys) (c : CreateCall) (a : Answer) : Sys :=
  { s with calls := s.calls.erase c, answers := ⟨c.producer, c.dto, a⟩ :: s.answers }

def Sys.goOn (s : Sys) (c : CreateCall) (stage : Stage) : Sys :=
  { s with calls := { c with stage } :: s.calls.erase c }

def proceed (cfg : CreationConfig) (s : Sys) (c : CreateCall) (freshId : Uuid) : Sys :=
  match c.stage with
  | .replayHistorical =>
    match s.db.find c.candidate with
    | some prior =>
      if prior.snapshot.purpose = none ∧ isIdenticalSnapshot prior c.candidate then s.answer c (.returned prior true)
      else s.answer c (.refused (.http 400 "invalid_payment_request"))
    | none => s.answer c (.refused (.http 400 "invalid_payment_request"))
  | .lookUp =>
    match s.db.find c.candidate with
    | some prior => s.answer c (replay prior c.candidate)
    | none => s.goOn c .scope
  | .scope => s
  | .insert =>
    match createTx cfg s.db c.candidate freshId with
    | .ok (db, a) => { s with db }.answer c a
    | .error e => s.answer c (.refused e)

def PaymentRow.moved (r : PaymentRow) (status : PaymentStatus) : PaymentRow :=
  { r with status, revision := if r.status = status then r.revision else r.revision + 1 }

/-- The columns of the snapshot are immutable, and no other operation announces a creation. -/
def transition (db : Db) (id : Uuid) (status : PaymentStatus) (announced : Option EventName) : Db :=
  match db.rows.find? (·.id = id) with
  | none => db
  | some r =>
    let db := { db with rows := db.rows.map fun x => if x.id = id then r.moved status else x }
    match announced with
    | none | some .created => db
    | some name => db.enqueue (paymentEvent name (r.moved status))

def step (cfg : CreationConfig) (s : Sys) : Action → Sys
  | .create producer dto =>
    if !dto.valid then { s with answers := ⟨producer, dto, .refused (.http 400 "validation_error")⟩ :: s.answers }
    else match prepare cfg producer dto with
      | .error e => { s with answers := ⟨producer, dto, .refused e⟩ :: s.answers }
      | .ok (candidate, stage) => { s with calls := ⟨producer, dto, candidate, stage⟩ :: s.calls }
  | .proceed c freshId => if c ∈ s.calls then proceed cfg s c freshId else s
  | .scopeAnswer c refusal =>
    if c ∈ s.calls ∧ c.stage = .scope then
      match refusal with
      | none => s.goOn c .insert
      | some e => s.answer c (.refused e)
    else s
  | .lose c => { s with calls := s.calls.erase c }
  | .transition id status announced => { s with db := transition s.db id status announced }

def run (cfg : CreationConfig) (s : Sys) (actions : List Action) : Sys := actions.foldl (step cfg) s

def Describes (e : NewEvent) (r : PaymentRow) : Prop :=
  e = paymentEvent e.name { r with liveMode := e.payload.liveMode, status := e.payload.status, revision := e.payload.revision }

def Db.createdIds (db : Db) : List Uuid := (db.outbox.filter (·.name = .created)).map (·.payload.paymentId)

structure Initial (s : Sys) : Prop where
  ids : (s.db.rows.map (·.id)).Nodup
  keys : (s.db.rows.map (·.key)).Nodup
  checked : ∀ r ∈ s.db.rows, Payments.Admitted (snapshotChecks r.snapshot)
  created : s.db.createdIds = s.db.rows.map (·.id)
  events : ∀ e ∈ s.db.outbox, ∃ r ∈ s.db.rows, Describes e r
  calls : s.calls = []
  answers : s.answers = []

def Steps (cfg : CreationConfig) (s t : Sys) : Prop := ∃ a, t = step cfg s a

def Runs (cfg : CreationConfig) : Sys → Prop := Reachable Initial (Steps cfg)

end NawaraCore.PaymentCreation
