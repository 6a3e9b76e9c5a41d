import NawaraCore.Payment.Payment

/-!
# Attempts of a payment

The transactions of the attempt service, of the cancel, of the expiry sweep and of
the capture reconciler over one payment. Each function below is one transaction
under the payment's lock.
-/

namespace NawaraCore.Payments

inductive InitiateResult
  | accepted (providerTransactionId : String)
  | rejected (failureClass : FailureClass) (failureCode : String)
  | ambiguous

/-- Amounts are integers: a fraction is refused where a non-positive amount is. -/
inductive FetchStatusResult
  | succeeded (amount : Int) (currency : String) (providerTransactionId : Option String)
  | failed (failureClass : FailureClass) (failureCode : String)
  | pending
  | expired
  | notFound
deriving DecidableEq

structure Capabilities where
  notFoundIsAuthoritative : Bool
  paymentFatalCodes : List String

structure PaymentConfig where
  maxAttempts : Nat
  maxAttempts_pos : 1 ≤ maxAttempts
  capabilities : String → Capabilities

def qualifies (db : Db) (f : CaptureFact) : Bool :=
  match f.binding with
  | none => false
  | some b =>
    b.paymentId = db.payment.id ∧ isoCurrency (trim f.currency) ∧ !db.contested f.id ∧
      !db.lateSuccesses.any (·.factId = f.id) ∧ !db.facts.any fun g => g.onAttempt b.attemptId ∧ g.id ≠ f.id

def recordFact (db : Db) (f : CaptureFact) : Except PaymentError Db :=
  match f.binding with
  | none => .ok db
  | some b => db.insertLateSuccess
    { paymentId := db.payment.id
      attemptId := b.attemptId
      webhookEventId := f.webhookEventId
      amount := f.amount
      currency := trim f.currency
      paymentStatus := db.payment.status
      factId := f.id }

def recordQualifyingLateSuccesses (db : Db) (onlyFactId : Option Uuid) : Except PaymentError Db :=
  if !finalUnsuccessful db.payment.status then .ok db
  else (db.facts.filter fun f => qualifies db f ∧ (onlyFactId = none ∨ onlyFactId = some f.id)).foldlM recordFact db

def closePayment (db : Db) (status : PaymentStatus) (event : PaymentEvent) : Except PaymentError Db := do
  let db ← db.updatePayment { db.payment with status }
  recordQualifyingLateSuccesses { db with outbox := db.outbox ++ [event] } none

def completeClosingIfResolved (db : Db) : Except PaymentError Db :=
  if db.payment.status ≠ .closing ∨ isPaymentUncertain db then .ok db
  else if db.payment.closingReason = some .cancel then closePayment db .cancelled .paymentCancelled
  else closePayment db .expired .paymentExpired

def settlePaymentAfterFailure (cfg : PaymentConfig) (db : Db) (attemptNumber : Nat) (failureCode : String)
    (provider : String) : Except PaymentError Db :=
  if db.payment.status = .closing then completeClosingIfResolved db
  else if db.payment.status ≠ .pending ∧ db.payment.status ≠ .created then .ok db
  else
    let paymentFatal := (cfg.capabilities provider).paymentFatalCodes.contains failureCode
    let limitReached := decide (cfg.maxAttempts ≤ attemptNumber)
    if !isPaymentUncertain db && (paymentFatal || limitReached) then
      closePayment db .failed (.paymentFailed (some failureCode))
    else if db.payment.status = .created then .ok db
    else db.updatePayment { db.payment with status := .created }

def isExpired (p : Payment) (now : Int) : Bool := p.expiresAt.any (· ≤ now)

/-- The first transaction of `start` for a key that is not replayed. -/
def startAttempt (db : Db) (attemptId : Uuid) (provider : String) (now : Int) : Except PaymentError (Db × Attempt) :=
  if isExpired db.payment now then .error (.http 409 "payment_expired")
  else if db.payment.status = .pending then .error (.http 409 "payment_has_open_attempt")
  else if db.payment.status = .closing then .error (.http 409 "payment_uncertain")
  else if db.payment.status ≠ .created then .error (.http 409 "payment_not_payable")
  else if db.attempts.any Attempt.isOpen then .error (.http 409 "payment_has_open_attempt")
  else if isPaymentUncertain db then .error (.http 409 "payment_uncertain")
  else do
    let attempt : Attempt :=
      { id := attemptId
        attemptNumber := db.attempts.length + 1
        provider
        providerTransactionId := none
        status := .initiated
        failureCode := none
        failureClass := none
        failureInferred := false
        failureConfirmedAt := none
        confirmedFailureCode := none }
    let db ← db.insertAttempt attempt
    let db ← db.updatePayment { db.payment with status := .pending }
    return (db, attempt)

/-- What the first transaction of `start` hands to the second. -/
structure StartCall where
  attemptId : Uuid
  attemptNumber : Nat
  provider : String
deriving DecidableEq

/-- The second transaction of `start`, with the provider's answer. -/
def finishStart (cfg : PaymentConfig) (db : Db) (c : StartCall) (r : InitiateResult) : Except PaymentError Db :=
  match db.findAttempt c.attemptId with
  | none => .error (.http 404 "not_found")
  | some current =>
    if current.status ≠ .initiated ∧ current.status ≠ .unknown then .ok db
    else match r with
      | .accepted txn =>
        db.updateAttempt current { current with status := .submitted, providerTransactionId := some txn }
      | .ambiguous =>
        if current.status = .unknown then .ok db else db.updateAttempt current { current with status := .unknown }
      | .rejected failureClass failureCode => do
        let db ← db.updateAttempt current
          { current with status := .failed, failureCode := some failureCode, failureClass := some failureClass }
        settlePaymentAfterFailure cfg db c.attemptNumber failureCode c.provider

inductive CurrencyEvidenceShape
  | empty | unstorable | overlength

/-- `none` when a fact can hold the currency. -/
def classifyCurrencyEvidence (currency : String) : Option CurrencyEvidenceShape :=
  if currency.length = 0 then some .empty
  else if currency.toList.any (·.toNat = 0) then some .unstorable
  else if 16 < currency.length then some .overlength
  else none

def maxSafeInteger : Int := 9007199254740991

/-- The transaction that commits a reported capture before anything is decided about it. -/
def recordCaptureFact (db : Db) (attempt : Attempt) (paymentId : Uuid) (amount : Int) (currency : String)
    (providerTransactionId : Option String) (webhookEventId : Option Uuid) (freshId : Uuid) :
    Except PaymentError (Db × Option Uuid) :=
  if classifyCurrencyEvidence currency ≠ none then .ok (db, none)
  else match providerTransactionId.or attempt.providerTransactionId with
    | none | some "" => .ok (db, none)
    | some txn =>
      if amount < 1 ∨ maxSafeInteger < amount then .ok (db, none)
      else do
        let (db, inserted) ← db.insertFact
          { id := freshId
            provider := attempt.provider
            providerTxnId := txn
            binding := some ⟨paymentId, attempt.id⟩
            amount
            currency
            webhookEventId }
        if inserted then return (db, some freshId)
        match db.facts.find? fun f => f.provider = attempt.provider ∧ f.providerTxnId = txn with
        | none => return (db, none)
        | some fact =>
          let same := fact.binding = some ⟨paymentId, attempt.id⟩ ∧ fact.amount = amount ∧ fact.currency = currency
          if same then return (db, some fact.id)
          return (db.insertConflict ⟨fact.id, paymentId, attempt.id, amount, currency, webhookEventId⟩, some fact.id)

structure Evidence where
  verified : Bool
  captures : Nat

def captureEvidence (db : Db) (attemptId : Uuid) (amount : Int) (currency : String) (factId : Option Uuid) : Evidence :=
  let binding : FactBinding := ⟨db.payment.id, attemptId⟩
  match db.facts.find? fun f => factId = some f.id ∧ f.binding = some binding with
  | none => ⟨false, 0⟩
  | some f => ⟨!db.contested f.id ∧ f.amount = amount ∧ trim f.currency = currency,
      (db.facts.filter fun g => g.binding = some binding).length⟩

/-! ## Applying a provider status -/

inductive Conflict
  | final | confirmedFailure
deriving DecidableEq

structure LateFinding where
  amount : Int
  currency : String
  paymentStatus : PaymentStatus
  conflict : Conflict
deriving DecidableEq

/-- The attempt as `unknown`, when the provider has not answered `initiate` yet. -/
def Db.toUnknown (db : Db) (a : Attempt) : Except PaymentError (Db × Attempt) :=
  if a.status = .initiated then do
    let b := { a with status := .unknown }
    return (← db.updateAttempt a b, b)
  else .ok (db, a)

def applyNotFound (cfg : PaymentConfig) (db : Db) (current : Attempt) : Except PaymentError Db :=
  if current.status ≠ .initiated ∧ current.status ≠ .unknown then .ok db
  else if !(cfg.capabilities current.provider).notFoundIsAuthoritative then .ok db
  else do
    let (db, a) ← db.toUnknown current
    let db ← db.updateAttempt a
      { a with
        status := .failed, failureCode := some "not_found", failureClass := some .terminal, failureInferred := true }
    settlePaymentAfterFailure cfg db current.attemptNumber "not_found" current.provider

/-- `none`: the payment is settled, or was by this very attempt. -/
def applySucceeded (db : Db) (current : Attempt) (amount : Int) (currency : String) (factId : Option Uuid) :
    Except PaymentError (Db × Option LateFinding) :=
  let payment := db.payment
  let evidence := captureEvidence db current.id amount currency factId
  let late (conflict : Conflict) : LateFinding := ⟨amount, currency, payment.status, conflict⟩
  if current.status = .succeeded then .ok (db, none)
  else if payment.amount ≠ amount ∨ payment.currency ≠ currency then
    if finalUnsuccessful payment.status && isoCurrency currency && evidence.verified then .ok (db, some (late .final))
    else .error (.http 502 "provider_error")
  else if !evidence.verified then .error (.http 502 "provider_error")
  else if isTerminalPaymentStatus payment.status then .ok (db, some (late .final))
  else if (current.status = .failed ∨ current.status = .expired) ∧
      (!current.failureInferred ∨ current.failureConfirmedAt ≠ none) then
    .ok (db, some (late .confirmedFailure))
  else if evidence.captures ≠ 1 then .error (.http 502 "provider_error")
  else do
    let (db, a) ← db.toUnknown current
    let db ← db.updateAttempt a { a with status := .succeeded }
    let db ← db.updatePayment
      { payment with status := .succeeded, settledMethod := some .gateway, succeededAttemptId := some a.id }
    return ({ db with outbox := db.outbox ++ [.paymentSucceeded a.id] }, none)

def confirmFailure (cfg : PaymentConfig) (db : Db) (now : Int) (current : Attempt) (code : String) :
    Except PaymentError Db := do
  let db ← db.updateAttempt current
    { current with failureConfirmedAt := some now, confirmedFailureCode := some code }
  settlePaymentAfterFailure cfg db current.attemptNumber code current.provider

def applyExpired (cfg : PaymentConfig) (db : Db) (now : Int) (current : Attempt) : Except PaymentError Db :=
  if current.status = .succeeded then .error (.http 409 "invalid_state_transition")
  else if current.status = .failed ∧ current.failureInferred ∧ current.failureConfirmedAt = none then
    confirmFailure cfg db now current "expired"
  else if current.status ≠ .submitted then .ok db
  else do
    let db ← db.updateAttempt current
      { current with status := .expired, failureCode := some "expired", failureClass := some .terminal }
    settlePaymentAfterFailure cfg db current.attemptNumber "expired" current.provider

def applyFailed (cfg : PaymentConfig) (db : Db) (now : Int) (current : Attempt) (failureClass : FailureClass)
    (failureCode : String) : Except PaymentError Db :=
  if current.status = .succeeded then .error (.http 409 "invalid_state_transition")
  else if current.status = .failed ∧ current.failureInferred ∧ current.failureConfirmedAt = none then
    confirmFailure cfg db now current failureCode
  else if current.status = .failed ∨ current.status = .expired then .ok db
  else do
    let db ← db.updateAttempt current
      { current with status := .failed, failureCode := some failureCode, failureClass := some failureClass }
    settlePaymentAfterFailure cfg db current.attemptNumber failureCode current.provider

/-- The deciding transaction of `applyStatus`. -/
def applyStatus (cfg : PaymentConfig) (db : Db) (now : Int) (attemptId : Uuid) (status : FetchStatusResult)
    (factId : Option Uuid) : Except PaymentError (Db × Option LateFinding) :=
  match db.findAttempt attemptId with
  | none => .error (.http 404 "not_found")
  | some current =>
    match status with
    | .pending => .ok (db, none)
    | .notFound => (applyNotFound cfg db current).map (·, none)
    | .succeeded amount currency _ => applySucceeded db current amount currency factId
    | .expired => (applyExpired cfg db now current).map (·, none)
    | .failed failureClass failureCode => (applyFailed cfg db now current failureClass failureCode).map (·, none)

/-- The transaction after a `final` finding, before the caller is refused. -/
def recordLateSuccess (db : Db) (attemptId : Uuid) (f : LateFinding) (webhookEventId factId : Option Uuid) :
    Except PaymentError Db :=
  if db.facts.any fun g => g.onAttempt attemptId ∧ factId ≠ some g.id then .ok db
  else match factId with
    | none => .error (.refused "payment_late_success_fact_binding")
    | some factId => db.insertLateSuccess
      { paymentId := db.payment.id
        attemptId
        webhookEventId
        amount := f.amount
        currency := f.currency
        paymentStatus := db.payment.status
        factId }

def cancel (db : Db) : Except PaymentError Db :=
  if db.payment.status = .closing then .ok db
  else if isTerminalPaymentStatus db.payment.status || !canTransitionPayment db.payment.status .cancelled then
    .error (.http 409 "invalid_state_transition")
  else if isPaymentUncertain db then
    db.updatePayment { db.payment with status := .closing, closingReason := some .cancel }
  else closePayment db .cancelled .paymentCancelled

def trySweepOne (db : Db) (now : Int) : Except PaymentError Db :=
  if !isExpired db.payment now then .ok db
  else if db.payment.status ≠ .created ∧ db.payment.status ≠ .pending then .ok db
  else if isPaymentUncertain db then
    db.updatePayment { db.payment with status := .closing, closingReason := some .expiry }
  else closePayment db .expired .paymentExpired

def processFact (db : Db) (factId : Uuid) : Except PaymentError Db :=
  recordQualifyingLateSuccesses db (some factId)

def recordUnmatchedFact (db : Db) (provider providerTransactionId : String) (amount : Int) (currency : String)
    (webhookEventId freshId : Uuid) : Except PaymentError (Db × Option Uuid) :=
  if providerTransactionId = "" ∨ amount < 1 ∨ maxSafeInteger < amount then .ok (db, none)
  else do
    let (db, inserted) ← db.insertFact
      { id := freshId
        provider
        providerTxnId := providerTransactionId
        binding := none
        amount
        currency
        webhookEventId := some webhookEventId }
    if inserted then return (db, some freshId)
    return (db, (db.facts.find? fun f => f.provider = provider ∧ f.providerTxnId = providerTransactionId).map (·.id))

end NawaraCore.Payments
