import NawaraCore.Lib.Outcome

/-!
# Payments, attempts and provider facts

The rows that payment-service keeps for one gateway payment, and the writes its
database admits. A write carries the triggers, CHECKs and unique indexes of its
table: a refused write fails its transaction, and the transaction then changes
nothing.
-/

namespace NawaraCore.Payments

abbrev Uuid := Nat

/-! ## Statuses -/

inductive PaymentStatus
  | created | pending | closing | succeeded | failed | cancelled | expired
deriving DecidableEq

inductive AttemptStatus
  | initiated | submitted | succeeded | failed | expired | unknown
deriving DecidableEq

inductive FailureClass
  | retryable | terminal | ambiguous
deriving DecidableEq

inductive ClosingReason
  | cancel | expiry
deriving DecidableEq

inductive SettledMethod
  | gateway | cash
deriving DecidableEq

def isTerminalPaymentStatus : PaymentStatus → Bool
  | .succeeded | .failed | .cancelled | .expired => true
  | _ => false

def finalUnsuccessful : PaymentStatus → Bool
  | .failed | .cancelled | .expired => true
  | _ => false

def canTransitionPayment : PaymentStatus → PaymentStatus → Bool
  | .created, .pending | .created, .cancelled | .created, .expired | .created, .succeeded
  | .created, .failed | .created, .closing => true
  | .pending, .created | .pending, .succeeded | .pending, .failed | .pending, .cancelled
  | .pending, .expired | .pending, .closing => true
  | .closing, .succeeded | .closing, .cancelled | .closing, .expired => true
  | _, _ => false

/-- The database's edges without `failed → succeeded`, which depends on the row. -/
def canTransitionAttempt : AttemptStatus → AttemptStatus → Bool
  | .initiated, .submitted | .initiated, .failed | .initiated, .unknown => true
  | .submitted, .succeeded | .submitted, .failed | .submitted, .expired => true
  | .unknown, .submitted | .unknown, .succeeded | .unknown, .failed => true
  | _, _ => false

/-- `canTransitionAttempt` with its option: only a failure by inference can still succeed. -/
def canTransitionAttemptWith (failureInferred : Bool) (source target : AttemptStatus) : Bool :=
  if source = .failed ∧ target = .succeeded then failureInferred else canTransitionAttempt source target

/-- `payment_status_transition_guard`: its list of edges. -/
def guardedPaymentEdges : List (PaymentStatus × PaymentStatus) :=
  [ (.created, .pending), (.pending, .created), (.pending, .succeeded), (.pending, .failed),
    (.created, .cancelled), (.pending, .cancelled), (.created, .expired), (.pending, .expired),
    (.created, .succeeded), (.created, .failed),
    (.created, .closing), (.pending, .closing), (.closing, .succeeded), (.closing, .cancelled), (.closing, .expired) ]

/-- `payment_attempt_status_transition_guard`: its list of edges, without the one that depends on the row. -/
def guardedAttemptEdges : List (AttemptStatus × AttemptStatus) :=
  [ (.initiated, .submitted), (.initiated, .failed), (.initiated, .unknown),
    (.submitted, .succeeded), (.submitted, .failed), (.submitted, .expired),
    (.unknown, .submitted), (.unknown, .succeeded), (.unknown, .failed) ]

structure Payment where
  id : Uuid
  amount : Int
  currency : String
  status : PaymentStatus
  expiresAt : Option Int
  closingReason : Option ClosingReason
  settledMethod : Option SettledMethod
  succeededAttemptId : Option Uuid
deriving DecidableEq

structure Attempt where
  id : Uuid
  attemptNumber : Nat
  provider : String
  providerTransactionId : Option String
  status : AttemptStatus
  failureCode : Option String
  failureClass : Option FailureClass
  failureInferred : Bool
  failureConfirmedAt : Option Int
  confirmedFailureCode : Option String

structure FactBinding where
  paymentId : Uuid
  attemptId : Uuid
deriving DecidableEq

/-- A `provider_transaction_fact` of kind `capture`. Its payment and its attempt are known together or not at all. -/
structure CaptureFact where
  id : Uuid
  provider : String
  providerTxnId : String
  binding : Option FactBinding
  amount : Int
  currency : String
  webhookEventId : Option Uuid
deriving DecidableEq

structure FactConflict where
  factId : Uuid
  paymentId : Uuid
  attemptId : Uuid
  amount : Int
  currency : String
  webhookEventId : Option Uuid
deriving DecidableEq

/-- The source column is `webhook` exactly when `webhookEventId` is set. -/
structure LateSuccess where
  paymentId : Uuid
  attemptId : Uuid
  webhookEventId : Option Uuid
  amount : Int
  currency : String
  paymentStatus : PaymentStatus
  factId : Uuid

inductive PaymentEvent
  | paymentSucceeded (succeededAttemptId : Uuid)
  | paymentFailed (failureCode : Option String)
  | paymentCancelled
  | paymentExpired
  | lateSuccessRecorded (factId : Uuid) (paymentStatus : PaymentStatus)

structure Db where
  payment : Payment
  attempts : List Attempt
  facts : List CaptureFact
  conflicts : List FactConflict
  lateSuccesses : List LateSuccess
  outbox : List PaymentEvent

inductive PaymentError
  | http (status : Nat) (code : String)
  | refused (constraint : String)
deriving DecidableEq

def Attempt.isOpen (a : Attempt) : Bool :=
  a.status = .initiated ∨ a.status = .submitted ∨ a.status = .unknown

def Attempt.uncertain (a : Attempt) : Bool :=
  a.isOpen || (a.status = .failed ∧ a.failureInferred ∧ a.failureConfirmedAt = none)

def isPaymentUncertain (db : Db) : Bool := db.attempts.any Attempt.uncertain

def Db.findAttempt (db : Db) (id : Uuid) : Option Attempt := db.attempts.find? (·.id = id)

def CaptureFact.onAttempt (f : CaptureFact) (attemptId : Uuid) : Bool :=
  f.binding.any (·.attemptId = attemptId)

def Db.contested (db : Db) (factId : Uuid) : Bool := db.conflicts.any (·.factId = factId)

/-- SQL `trim`: spaces only. -/
def trim (s : String) : String :=
  String.ofList ((s.toList.dropWhile (· = ' ')).reverse.dropWhile (· = ' ')).reverse

def isoCurrency (s : String) : Bool :=
  s.length = 3 ∧ s.toList.all fun c => 'A' ≤ c ∧ c ≤ 'Z'

theorem dropWhile_spaces {cs : List Char} (h : ∀ c ∈ cs, c ≠ ' ') : cs.dropWhile (· = ' ') = cs := by
  cases cs with
  | nil => rfl
  | cons c cs => simp [h c (by simp)]

theorem trim_iso {c : String} (h : isoCurrency c) : trim c = c := by
  have hs : ∀ x ∈ c.toList, x ≠ ' ' := by
    rintro x hx rfl
    simp only [isoCurrency, decide_eq_true_eq, List.all_eq_true] at h
    exact absurd (h.2 ' ' hx).1 (by decide)
  unfold trim
  rw [dropWhile_spaces hs, dropWhile_spaces (by simpa using hs), List.reverse_reverse, String.ofList_toList]

/-! ## Guarded writes -/

def enforce (checks : List (String × Bool)) : Except PaymentError Unit :=
  match checks.find? fun c => !c.2 with
  | some c => .error (.refused c.1)
  | none => .ok ()

variable {checks : List (String × Bool)}

theorem enforce_ok : enforce checks = .ok () ↔ ∀ c ∈ checks, c.2 = true := by
  unfold enforce
  split
  · rename_i c hc
    refine ⟨nofun, fun h => ?_⟩
    have hf := List.find?_some hc
    simp [h c (List.mem_of_find?_eq_some hc)] at hf
  · rename_i hn
    exact ⟨fun _ c hc => by simpa using List.find?_eq_none.mp hn c hc, fun _ => rfl⟩

def Admitted (checks : List (String × Bool)) : Prop := ∀ c ∈ checks, c.2 = true

theorem Admitted.append {xs ys : List (String × Bool)} : Admitted (xs ++ ys) ↔ Admitted xs ∧ Admitted ys :=
  List.forall_mem_append

theorem enforce_bind_ok {α : Type} {x : α} {y : α}
    (h : (do enforce checks; return x) = (Except.ok y : Except PaymentError α)) : Admitted checks ∧ x = y := by
  obtain ⟨u, hu, h⟩ := bind_eq_ok.mp h
  cases h
  exact ⟨enforce_ok.mp hu, rfl⟩

def attemptChecks (db : Db) (a b : Attempt) : List (String × Bool) :=
  [ ("payment_attempt_status_transition",
      a.status = b.status ∨ canTransitionAttempt a.status b.status ∨
        (a.status = .failed ∧ b.status = .succeeded ∧ a.failureInferred ∧ a.failureConfirmedAt = none)),
    ("payment_attempt_one_open", !b.isOpen || !db.attempts.any fun x => x.id ≠ b.id ∧ x.isOpen),
    ("payment_attempt_one_succeeded",
      b.status ≠ .succeeded ∨ !db.attempts.any fun x => x.id ≠ b.id ∧ x.status = .succeeded),
    ("payment_attempt_provider_txn_unique",
      b.providerTransactionId = none ∨ !db.attempts.any fun x =>
        x.id ≠ b.id ∧ x.provider = b.provider ∧ x.providerTransactionId = b.providerTransactionId),
    ("payment_attempt_confirmation_shape",
      if b.failureConfirmedAt = none then b.confirmedFailureCode = none
      else b.status = .failed ∧ b.failureInferred),
    ("payment_attempt_confirmed_code_length",
      match b.confirmedFailureCode with
      | none => true
      | some code => 1 ≤ code.length ∧ code.length ≤ 128),
    ("payment_attempt_confirmation_once",
      a.failureConfirmedAt = none ∨
        (b.failureConfirmedAt = a.failureConfirmedAt ∧ b.confirmedFailureCode = a.confirmedFailureCode)) ]

def Db.updateAttempt (db : Db) (a b : Attempt) : Except PaymentError Db := do
  enforce (attemptChecks db a b)
  return { db with attempts := db.attempts.map fun x => if x.id = a.id then b else x }

/-- The primary key holds across payments, whose attempts only facts name here. -/
def Db.insertAttempt (db : Db) (a : Attempt) : Except PaymentError Db := do
  enforce
    [ ("payment_attempt_while_uncertain", db.payment.status = .created ∧ !isPaymentUncertain db),
      ("payment_attempt_pkey", !db.attempts.any (·.id = a.id) ∧ !db.facts.any (·.onAttempt a.id)),
      ("payment_attempt_number_unique", !db.attempts.any (·.attemptNumber = a.attemptNumber)),
      ("payment_attempt_one_open", !a.isOpen || !db.attempts.any (·.isOpen)) ]
  return { db with attempts := db.attempts ++ [a] }

/-- A settlement needs one capture fact on its attempt, equal to the payment and uncontested. -/
def settlementEvidence (db : Db) (p : Payment) : Bool :=
  let own := db.facts.filter fun f => p.succeededAttemptId.any fun a => f.binding = some ⟨p.id, a⟩
  own.length = 1 ∧ own.all fun f => f.amount = p.amount ∧ trim f.currency = trim p.currency ∧ !db.contested f.id

def paymentChecks (db : Db) (p : Payment) : List (String × Bool) :=
  let old := db.payment
  [ ("payment_status_transition", old.status = p.status ∨ canTransitionPayment old.status p.status),
    ("payment_created_succeeded", ¬ (old.status = .created ∧ p.status = .succeeded) ∨
      db.attempts.any fun a => p.succeededAttemptId = some a.id ∧ a.status = .succeeded ∧ a.failureInferred),
    ("payment_created_failed", ¬ (old.status = .created ∧ p.status = .failed) ∨
      db.attempts.any fun a => a.status = .failed ∧ a.failureInferred ∧ a.failureConfirmedAt ≠ none),
    ("payment_not_final_while_uncertain",
      old.status = p.status ∨ !finalUnsuccessful p.status ∨ !isPaymentUncertain db),
    ("payment_closing_only_while_uncertain",
      old.status = p.status ∨ p.status ≠ .closing ∨ isPaymentUncertain db),
    ("payment_closing_has_reason", p.status ≠ .closing ∨ p.closingReason ≠ none),
    ("payment_closing_outcome",
      match p.closingReason with
      | none => true
      | some .cancel => p.status = .closing ∨ p.status = .succeeded ∨ p.status = .cancelled
      | some .expiry => p.status = .closing ∨ p.status = .succeeded ∨ p.status = .expired),
    ("payment_closing_fields_once",
      p.closingReason = old.closingReason ∨
        (old.closingReason = none ∧ (old.status = .created ∨ old.status = .pending) ∧ p.status = .closing)),
    ("payment_succeeded_attempt_integrity",
      p.succeededAttemptId = old.succeededAttemptId ∨
        (old.succeededAttemptId = none ∧
          db.attempts.any fun a => p.succeededAttemptId = some a.id ∧ a.status = .succeeded)),
    ("payment_settled_method_only_when_succeeded", p.settledMethod = none ∨ p.status = .succeeded),
    ("payment_succeeded_has_method", p.status ≠ .succeeded ∨ p.settledMethod ≠ none),
    ("payment_gateway_has_attempt", p.settledMethod ≠ some .gateway ∨ p.succeededAttemptId ≠ none),
    ("payment_settlement_capture_evidence",
      old.status = .succeeded ∨ p.status ≠ .succeeded ∨ p.settledMethod ≠ some .gateway ∨ settlementEvidence db p) ]

def Db.updatePayment (db : Db) (p : Payment) : Except PaymentError Db := do
  enforce (paymentChecks db p)
  return { db with payment := p }

def Db.insertFact (db : Db) (f : CaptureFact) : Except PaymentError (Db × Bool) := do
  enforce
    [ ("provider_transaction_fact_pkey", !db.facts.any (·.id = f.id)),
      ("provider_transaction_fact_txn_length", 1 ≤ f.providerTxnId.length ∧ f.providerTxnId.length ≤ 256) ]
  if db.facts.any fun g => g.provider = f.provider ∧ g.providerTxnId = f.providerTxnId then return (db, false)
  return ({ db with facts := db.facts ++ [f] }, true)

def Db.insertConflict (db : Db) (c : FactConflict) : Db :=
  if c ∈ db.conflicts then db else { db with conflicts := db.conflicts ++ [c] }

def lateSuccessChecks (db : Db) (l : LateSuccess) : List (String × Bool) :=
  [ ("payment_late_success_fact_binding",
      db.facts.any fun f => f.id = l.factId ∧ f.binding = some ⟨l.paymentId, l.attemptId⟩ ∧
        f.amount = l.amount ∧ trim f.currency = trim l.currency ∧ !db.contested f.id),
    ("payment_late_success_not_final", isTerminalPaymentStatus db.payment.status ∧ l.paymentStatus = db.payment.status),
    ("payment_late_success_ambiguous_attempt",
      !db.facts.any fun g => g.onAttempt l.attemptId ∧ g.id ≠ l.factId) ]

def LateSuccess.clashes (l m : LateSuccess) : Bool :=
  (l.attemptId = m.attemptId ∧ l.webhookEventId = m.webhookEventId) ∨ l.factId = m.factId

/-- `ON CONFLICT DO NOTHING`; a row that is new comes with its event. -/
def Db.insertLateSuccess (db : Db) (l : LateSuccess) : Except PaymentError Db := do
  enforce (lateSuccessChecks db l)
  if db.lateSuccesses.any l.clashes then return db
  return { db with
    lateSuccesses := db.lateSuccesses ++ [l]
    outbox := db.outbox ++ [.lateSuccessRecorded l.factId l.paymentStatus] }

end NawaraCore.Payments
