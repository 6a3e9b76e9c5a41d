import Mathlib.Algebra.Ring.Int.Defs
import NawaraCore.Payment.AttemptService

/-!
# Refund attempts, authorizations and allocations

The rows that payment-service keeps for refunds, and the writes its database admits.
The captured money that a refund returns is one verified capture fact; what payments
and captures say about it does not change.
-/

namespace NawaraCore.Refunds

open Payments (Uuid PaymentError enforce trim maxSafeInteger)

inductive RefundAttemptStatus
  | authorizationPending | authorized | authorizationExpired | authorizationRefused
  | dispatching | submitted | succeeded | failed | unknown | discrepancy
deriving DecidableEq

def canTransition : RefundAttemptStatus → RefundAttemptStatus → Bool
  | .authorizationPending, .authorized | .authorizationPending, .authorizationExpired
  | .authorizationPending, .authorizationRefused => true
  | .authorized, .dispatching => true
  | .dispatching, .submitted | .dispatching, .unknown | .dispatching, .failed
  | .dispatching, .succeeded | .dispatching, .discrepancy => true
  | .unknown, .submitted | .unknown, .succeeded | .unknown, .failed | .unknown, .discrepancy => true
  | .submitted, .succeeded | .submitted, .failed | .submitted, .discrepancy => true
  | .failed, .discrepancy => true
  | _, _ => false

def RefundAttemptStatus.terminal : RefundAttemptStatus → Bool
  | .authorizationExpired | .authorizationRefused | .succeeded | .discrepancy => true
  | _ => false

def RefundAttemptStatus.unauthorized : RefundAttemptStatus → Bool
  | .authorizationPending | .authorizationExpired | .authorizationRefused => true
  | _ => false

def RefundAttemptStatus.effective : RefundAttemptStatus → Bool
  | .authorizationExpired | .authorizationRefused | .failed => false
  | _ => true

def RefundAttemptStatus.inFlight : RefundAttemptStatus → Bool
  | .dispatching | .submitted | .unknown => true
  | _ => false

inductive AssociationStatus
  | authorizationPending | associated | authorizationRefused | authorizationExpired
deriving DecidableEq

inductive BlockReason
  | contested | currencyMismatch | noAuthorization
deriving DecidableEq

/-! ## Rows -/

structure RefundAttempt where
  id : Uuid
  paymentId : Uuid
  refundCaseId : Uuid
  amount : Int
  currency : String
  captureFactId : Uuid
  captureSpecific : Bool
  provider : String
  status : RefundAttemptStatus
  receiptId : Option Uuid
  providerRefundId : Option String
  failureCode : Option String
  succeededFactId : Option Uuid
deriving DecidableEq

structure RefundFactBinding where
  paymentId : Uuid
  refundAttemptId : Uuid
deriving DecidableEq

/-- A `provider_transaction_fact` of kind `refund`; `binding` is `none` while no attempt is known. -/
structure RefundFact where
  id : Uuid
  provider : String
  providerTxnId : String
  binding : Option RefundFactBinding
  amount : Int
  currency : String
  webhookEventId : Option Uuid
deriving DecidableEq

structure RefundFactConflict where
  factId : Uuid
  paymentId : Uuid
  refundAttemptId : Uuid
  amount : Int
  currency : String
  webhookEventId : Option Uuid
deriving DecidableEq

/-- A `provider_fact_association` whose target is a refund authorization. -/
structure FactAssociation where
  id : Uuid
  factId : Uuid
  refundAuthorizationId : Uuid
  status : AssociationStatus
deriving DecidableEq

structure RefundAuthorization where
  id : Uuid
  refundAttemptId : Uuid
  paymentId : Uuid
  refundCaseId : Uuid
  receiptId : Uuid
  approvedAmount : Int
  currency : String
  captureFactId : Uuid
  captureSpecific : Bool
  allocatedIntended : Int
  completedAt : Option Int
deriving DecidableEq

structure RefundAllocation where
  factId : Uuid
  refundAuthorizationId : Uuid
  paymentId : Uuid
  refundAttemptId : Uuid
  amount : Int
  currency : String
  intended : Int
  excess : Int
deriving DecidableEq

structure AllocationBlock where
  factId : Uuid
  reason : BlockReason
deriving DecidableEq

/-- `refund.case_completed`; its id is derived from the authorization's. -/
structure CaseCompleted where
  refundAuthorizationId : Uuid
  refundCaseId : Uuid
  refundAttemptId : Uuid
  paymentId : Uuid
  approvedAmount : Int
  currency : String
  completedAt : Option Int
deriving DecidableEq

structure Db where
  attempts : List RefundAttempt
  refusals : List Uuid
  facts : List RefundFact
  conflicts : List RefundFactConflict
  associations : List FactAssociation
  authorizations : List RefundAuthorization
  allocations : List RefundAllocation
  blocks : List AllocationBlock
  outbox : List CaseCompleted
deriving DecidableEq

/-- What the verified captures say: whose they are, what they captured, and which one settled a payment. -/
structure Captures where
  paymentOf : Uuid → Uuid
  amountOf : Uuid → Int
  currencyOf : Uuid → String
  providerOf : Uuid → String
  settling : Uuid → Uuid

def RefundAttempt.effective (a : RefundAttempt) : Bool := a.status.effective

def Db.findAttempt (db : Db) (id : Uuid) : Option RefundAttempt := db.attempts.find? (·.id = id)

def Db.contested (db : Db) (factId : Uuid) : Bool := db.conflicts.any (·.factId = factId)

def Db.captureHasEvidence (db : Db) (capture : Uuid) : Bool :=
  db.attempts.any fun a => a.captureFactId = capture ∧
    (db.facts.any (fun f => f.binding.any (·.refundAttemptId = a.id)) ∨
      db.associations.any fun s => (s.status = .authorizationPending ∨ s.status = .associated) ∧
        db.authorizations.any fun z => z.id = s.refundAuthorizationId ∧ z.refundAttemptId = a.id)

/-- What an allocation is about: a fact of its own attempt, or one associated with an authorization. -/
def Db.target (db : Db) (f : RefundFact) : Option RefundFactBinding :=
  match f.binding with
  | some b => some b
  | none =>
    match db.associations.find? fun s => s.factId = f.id ∧ s.status = .associated with
    | none => none
    | some s =>
      (db.authorizations.find? fun z => z.id = s.refundAuthorizationId).map fun z => ⟨z.paymentId, z.refundAttemptId⟩

/-! ## Guarded writes -/

def failureCodeShape (code : String) : Bool :=
  match code.toList with
  | [] => false
  | c :: cs => 'a' ≤ c ∧ c ≤ 'z' ∧ cs.length ≤ 63 ∧
      cs.all fun c => ('a' ≤ c ∧ c ≤ 'z') ∨ ('0' ≤ c ∧ c ≤ '9') ∨ c = '_'

def attemptIndexes (db : Db) (b : RefundAttempt) : List (String × Bool) :=
  let others := db.attempts.filter (·.id ≠ b.id)
  [ ("refund_attempt_receipt_unique", b.receiptId = none ∨ !others.any (·.receiptId = b.receiptId)),
    ("refund_attempt_provider_refund_unique",
      b.providerRefundId = none ∨ !others.any fun x => x.provider = b.provider ∧ x.providerRefundId = b.providerRefundId),
    ("refund_attempt_one_effective",
      !b.effective || b.captureSpecific ||
        !others.any fun x => x.effective ∧ !x.captureSpecific ∧ x.paymentId = b.paymentId),
    ("refund_attempt_one_effective_capture",
      !b.effective || !others.any fun x => x.effective ∧ x.captureFactId = b.captureFactId) ]

def attemptShape (b : RefundAttempt) : List (String × Bool) :=
  [ ("refund_attempt_amount", 0 < b.amount ∧ b.amount ≤ maxSafeInteger),
    ("refund_attempt_authorization_shape", b.status.unauthorized = b.receiptId.isNone),
    ("refund_attempt_provider_refund_shape",
      match b.providerRefundId with
      | none => true
      | some id => 1 ≤ id.length ∧ id.length ≤ 256),
    ("refund_attempt_submitted_shape", b.status ≠ .submitted ∨ b.providerRefundId ≠ none),
    ("refund_attempt_failure_shape",
      decide (b.status = .failed) = b.failureCode.isSome ∨ b.status = .discrepancy),
    ("refund_attempt_failure_code", (b.failureCode.map failureCodeShape).getD true),
    ("refund_attempt_succeeded_shape", decide (b.status = .succeeded) = b.succeededFactId.isSome) ]

def attemptInsertChecks (cs : Captures) (db : Db) (a : RefundAttempt) : List (String × Bool) :=
  [ ("refund_attempt_case_completed",
      !db.authorizations.any fun z => z.completedAt.isSome ∧ (z.refundCaseId = a.refundCaseId ∨
        z.captureFactId = a.captureFactId ∨ (!a.captureSpecific ∧ !z.captureSpecific ∧ z.paymentId = a.paymentId))),
    ("refund_attempt_insert_state", a.status = .authorizationPending),
    ("refund_attempt_capture_verified",
      cs.paymentOf a.captureFactId = a.paymentId ∧ cs.amountOf a.captureFactId = a.amount ∧
        cs.currencyOf a.captureFactId = a.currency ∧ cs.providerOf a.captureFactId = a.provider ∧
        (a.captureSpecific ∨ a.captureFactId = cs.settling a.paymentId)),
    ("refund_attempt_no_refund_fact", !db.captureHasEvidence a.captureFactId),
    ("refund_attempt_refused_id", a.id ∉ db.refusals),
    ("refund_attempt_pkey", !db.attempts.any (·.id = a.id)) ] ++ attemptShape a ++ attemptIndexes db a

def Db.insertAttempt (cs : Captures) (db : Db) (a : RefundAttempt) : Except PaymentError Db := do
  enforce (attemptInsertChecks cs db a)
  return { db with attempts := db.attempts ++ [a] }

def attemptUpdateChecks (db : Db) (a b : RefundAttempt) : List (String × Bool) :=
  [ ("refund_attempt_terminal", !a.status.terminal),
    ("refund_attempt_transition", a.status = b.status ∨ canTransition a.status b.status),
    ("refund_attempt_authorization_immutable", a.status = b.status ∨ a.receiptId = none ∨ b.receiptId = a.receiptId),
    ("refund_attempt_provider_refund_immutable",
      a.status = b.status ∨ a.providerRefundId = none ∨ b.providerRefundId = a.providerRefundId),
    ("refund_attempt_success_evidence",
      a.status = b.status ∨ b.status ≠ .succeeded ∨ db.facts.any fun f => some f.id = b.succeededFactId ∧
        f.binding.any (·.refundAttemptId = b.id) ∧ f.amount = b.amount ∧ f.currency = trim b.currency),
    ("refund_attempt_outcome_with_status",
      a.status ≠ b.status ∨ (b.receiptId = a.receiptId ∧ b.succeededFactId = a.succeededFactId ∧
        b.failureCode = a.failureCode)) ] ++ attemptShape b ++ attemptIndexes db b

def Db.replaceAttempt (db : Db) (b : RefundAttempt) : Db :=
  { db with attempts := db.attempts.map fun x => if x.id = b.id then b else x }

def Db.updateAttempt (db : Db) (a b : RefundAttempt) : Except PaymentError Db := do
  enforce (attemptUpdateChecks db a b)
  return db.replaceAttempt b

def hasNoNul (s : String) : Bool := s.toList.all (·.toNat ≠ 0)

def factChecks (db : Db) (f : RefundFact) : List (String × Bool) :=
  [ ("provider_transaction_fact_pkey", !db.facts.any (·.id = f.id)),
    ("provider_transaction_fact_txn_length", 1 ≤ f.providerTxnId.length ∧ f.providerTxnId.length ≤ 256),
    ("provider_transaction_fact_amount", 0 < f.amount ∧ f.amount ≤ maxSafeInteger),
    ("provider_transaction_fact_currency", 1 ≤ f.currency.length ∧ f.currency.length ≤ 16),
    ("character_not_in_repertoire", hasNoNul f.providerTxnId ∧ hasNoNul f.currency) ]

def Db.insertFact (db : Db) (f : RefundFact) : Except PaymentError (Db × Bool) := do
  enforce (factChecks db f)
  if db.facts.any fun g => g.provider = f.provider ∧ g.providerTxnId = f.providerTxnId then return (db, false)
  return ({ db with facts := db.facts ++ [f] }, true)

def Db.insertConflict (db : Db) (c : RefundFactConflict) : Db :=
  if c ∈ db.conflicts then db else { db with conflicts := db.conflicts ++ [c] }

def authorizationInsertChecks (db : Db) (z : RefundAuthorization) : List (String × Bool) :=
  [ ("refund_authorization_from_attempt", db.attempts.any fun a => a.id = z.refundAttemptId ∧
      a.receiptId = some z.receiptId ∧ a.paymentId = z.paymentId ∧ a.refundCaseId = z.refundCaseId ∧
      a.amount = z.approvedAmount ∧ a.currency = z.currency ∧ a.captureFactId = z.captureFactId ∧
      a.captureSpecific = z.captureSpecific),
    ("refund_authorization_created_empty", z.allocatedIntended = 0 ∧ z.completedAt = none),
    ("refund_authorization_amount", 0 < z.approvedAmount ∧ z.approvedAmount ≤ maxSafeInteger),
    ("refund_authorization_pkey", !db.authorizations.any (·.id = z.id)),
    ("refund_authorization_attempt_unique", !db.authorizations.any (·.refundAttemptId = z.refundAttemptId)),
    ("refund_authorization_receipt_unique", !db.authorizations.any (·.receiptId = z.receiptId)) ]

def Db.insertAuthorization (db : Db) (z : RefundAuthorization) : Except PaymentError Db := do
  enforce (authorizationInsertChecks db z)
  return { db with authorizations := db.authorizations ++ [z] }

def authorizationUpdateChecks (db : Db) (z w : RefundAuthorization) : List (String × Bool) :=
  let completed := db.authorizations.filter fun x => x.id ≠ w.id ∧ x.completedAt.isSome
  [ ("refund_authorization_bounded", 0 ≤ w.allocatedIntended ∧ w.allocatedIntended ≤ w.approvedAmount),
    ("refund_authorization_completion", w.completedAt.isSome = decide (w.allocatedIntended = w.approvedAmount)),
    ("refund_authorization_monotonic", z.allocatedIntended ≤ w.allocatedIntended),
    ("refund_authorization_completed_once", z.completedAt = none ∨ w.completedAt = z.completedAt),
    ("refund_authorization_case_completed",
      w.completedAt = none ∨ !completed.any (·.refundCaseId = w.refundCaseId)),
    ("refund_authorization_payment_completed",
      w.completedAt = none ∨ w.captureSpecific ∨
        !completed.any fun x => !x.captureSpecific ∧ x.paymentId = w.paymentId),
    ("refund_authorization_capture_completed",
      w.completedAt = none ∨ !completed.any (·.captureFactId = w.captureFactId)) ]

def Db.replaceAuthorization (db : Db) (w : RefundAuthorization) : Db :=
  { db with authorizations := db.authorizations.map fun x => if x.id = w.id then w else x }

def Db.updateAuthorization (db : Db) (z w : RefundAuthorization) : Except PaymentError Db := do
  enforce (authorizationUpdateChecks db z w)
  return db.replaceAuthorization w

def Db.bound (db : Db) (f : RefundFact) (x : RefundAllocation) : Bool :=
  match f.binding with
  | some b => b.refundAttemptId = x.refundAttemptId ∧ b.paymentId = x.paymentId
  | none => db.associations.any fun s =>
      s.factId = f.id ∧ s.status = .associated ∧ s.refundAuthorizationId = x.refundAuthorizationId

def allocationChecks (db : Db) (x : RefundAllocation) : List (String × Bool) :=
  [ ("refund_allocation_amounts", 0 < x.amount ∧ 0 ≤ x.intended ∧ 0 ≤ x.excess ∧ x.intended + x.excess = x.amount),
    ("refund_allocation_factId_key", !db.allocations.any (·.factId = x.factId)),
    ("refund_allocation_binding",
      (db.facts.any fun f => f.id = x.factId ∧ f.amount = x.amount ∧ f.currency = trim x.currency ∧ db.bound f x) ∧
      db.authorizations.any fun z => z.id = x.refundAuthorizationId ∧ z.refundAttemptId = x.refundAttemptId ∧
        z.paymentId = x.paymentId ∧ z.currency = x.currency),
    ("refund_allocation_eligible", !db.contested x.factId ∧ !db.blocks.any (·.factId = x.factId)) ]

def Db.insertAllocation (db : Db) (x : RefundAllocation) : Except PaymentError Db := do
  enforce (allocationChecks db x)
  return { db with allocations := db.allocations ++ [x] }

def Db.insertBlock (db : Db) (b : AllocationBlock) : Except PaymentError Db := do
  enforce [("refund_fact_allocation_block_pkey", !db.blocks.any (·.factId = b.factId))]
  return { db with blocks := db.blocks ++ [b] }

def Db.intendedTotal (db : Db) (authorizationId : Uuid) : Int :=
  ((db.allocations.filter (·.refundAuthorizationId = authorizationId)).map (·.intended)).sum

/-- `refund_authorization_sum_check`, deferred to the commit. -/
def Db.sumCheck (db : Db) (authorizationId : Uuid) : Except PaymentError Unit :=
  enforce
    [ ("refund_authorization_sum", db.authorizations.all fun z =>
        z.id ≠ authorizationId ∨ z.allocatedIntended = db.intendedTotal authorizationId) ]

def Db.insertAssociation (db : Db) (s : FactAssociation) : Except PaymentError Db := do
  enforce
    [ ("provider_fact_association_created_pending", s.status = .authorizationPending),
      ("provider_fact_association_match", db.facts.any fun f => f.id = s.factId ∧ f.binding = none ∧
        db.authorizations.any fun z => z.id = s.refundAuthorizationId ∧ f.currency = trim z.currency ∧
          db.attempts.any fun a => a.id = z.refundAttemptId ∧ a.provider = f.provider),
      ("provider_fact_association_pkey", !db.associations.any (·.id = s.id)),
      ("provider_fact_association_live", !db.associations.any fun x => x.factId = s.factId ∧
        (x.status = .authorizationPending ∨ x.status = .associated)) ]
  return { db with associations := db.associations ++ [s] }

def Db.decideAssociation (db : Db) (s : FactAssociation) (status : AssociationStatus) : Except PaymentError Db := do
  enforce
    [ ("provider_fact_association_transition",
        s ∈ db.associations ∧ s.status = .authorizationPending ∧ status ≠ .authorizationPending) ]
  return { db with associations := db.associations.map fun x => if x.id = s.id then { x with status } else x }

end NawaraCore.Refunds
