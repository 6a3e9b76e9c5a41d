import NawaraCore.Lib.Rows
import NawaraCore.Lib.Transactions
import NawaraCore.Refund.Refund

/-!
# Requests for a refund attempt

Payment commits a durable intent under the id that Billing chose, consumes the Owner's receipt at
Auth with that id as the reference, and commits what Auth answered. No transaction spans a call of
Auth: a request may end at any point, and a later one or the worker takes the intent up again.
-/

namespace NawaraCore.RefundRequests

open Payments (Uuid PaymentError)
open Refunds (RefundAttemptStatus canTransition)

inductive RefundReason
  | duplicateCharge | serviceNotProvided | customerRequest | lateSettlementUnapplied | legalRequirement | recoverySurplus
deriving DecidableEq

/-- The body without the receipt's secret; a capture-specific refund names its capture fact. -/
structure Input where
  refundAttemptId : Uuid
  refundCaseId : Uuid
  amount : Int
  currency : String
  reason : RefundReason
  legalOverride : Bool
  captureFactId : Option Uuid
deriving DecidableEq

structure Request where
  caller : String
  key : String
  paymentId : Uuid
  input : Input
  receiptSecret : String

inductive RefusalCode
  | paymentNotRefundable | refundCaptureUnverified | refundAmountNotFull | refundDisputeOpen | refundInProgress
  | refundAlreadyRecorded | refundCaseCompleted | refundCaptureNotEligible

inductive AuthorizationRefusal
  | receiptInvalid | receiptBindingInvalid | receiptExpired | refundCaptureNotEligible

structure Payment where
  id : Uuid
  producer : String
  sellerId : Uuid

structure Attempt where
  id : Uuid
  paymentId : Uuid
  producer : String
  refundCaseId : Uuid
  companyId : Uuid
  amount : Int
  currency : String
  reason : RefundReason
  legalOverride : Bool
  captureFactId : Uuid
  captureSpecific : Bool
  capturedAttemptId : Uuid
  provider : String
  receiptDigest : String
  status : RefundAttemptStatus
  authorizationRefusal : Option AuthorizationRefusal
  receiptId : Option Uuid
  approvedByUserId : Option Uuid

structure Refusal where
  id : Uuid
  paymentId : Uuid
  producer : String
  refundCaseId : Uuid
  code : RefusalCode

/-- An `idempotency_key`; the request hash is of the path, which names the payment, and of the body. -/
structure Key where
  caller : String
  key : String
  paymentId : Uuid
  input : Input
  resourceId : Uuid

def RefusalCode.error : RefusalCode → PaymentError
  | .paymentNotRefundable => .http 409 "payment_not_refundable"
  | .refundCaptureUnverified => .http 409 "refund_capture_unverified"
  | .refundAmountNotFull => .http 422 "refund_amount_not_full"
  | .refundDisputeOpen => .http 409 "refund_dispute_open"
  | .refundInProgress => .http 409 "refund_in_progress"
  | .refundAlreadyRecorded => .http 409 "refund_already_recorded"
  | .refundCaseCompleted => .http 409 "refund_case_completed"
  | .refundCaptureNotEligible => .http 409 "refund_capture_not_eligible"

def notFound : PaymentError := .http 404 "not_found"

def attemptConflict : PaymentError := .http 409 "refund_attempt_conflict"

def idempotencyKeyReused : PaymentError := .http 422 "idempotency_key_reused"

def refundDisputeUnavailable : PaymentError := .http 503 "refund_dispute_unavailable"

def refundAuthorizationUnresolved : PaymentError := .http 503 "refund_authorization_unresolved"

inductive Answer
  | attempt (a : Attempt) (created : Bool)
  | error (e : PaymentError)

/-- A terminal authorization outcome is answered as the error it is, on every replay too. -/
def Attempt.answer (a : Attempt) (created : Bool) : Answer :=
  match a.status with
  | .authorizationRefused => .error (.http 409 "refund_authorization_invalid")
  | .authorizationExpired => .error (.http 409 "refund_authorization_expired")
  | .authorizationPending => .error refundAuthorizationUnresolved
  | _ => .attempt a created

structure Binding where
  companyId : Uuid
  refundCaseId : Uuid
  paymentId : Uuid
  amount : Int
  currency : String
  reason : RefundReason
  legalOverride : Bool
  captureFactId : Option Uuid
deriving DecidableEq

def bindingOf (a : Attempt) : Binding where
  companyId := a.companyId
  refundCaseId := a.refundCaseId
  paymentId := a.paymentId
  amount := a.amount
  currency := a.currency
  reason := a.reason
  legalOverride := a.legalOverride
  captureFactId := if a.captureSpecific then some a.captureFactId else none

structure Consumption where
  receiptId : Uuid
  approvedByUserId : Uuid
deriving DecidableEq

inductive ConsumeOutcome
  | consumed (c : Consumption)
  | refused (binding : Bool)
  | expired
  | conflict
  | unresolved
deriving DecidableEq

inductive LookupOutcome
  | consumed (c : Consumption)
  | absent
  | unresolved
deriving DecidableEq

inductive Exchange
  | consume (secret : String) (binding : Binding) (consumeRef : Uuid) (outcome : ConsumeOutcome)
  | lookup (binding : Binding) (consumeRef : Uuid) (outcome : LookupOutcome)
deriving DecidableEq

/-- `captures` holds the attempt and the payment of each capture fact, `permitted` the providers that permit a refund of one
capture among several; `exchanges` and `answers` are what Auth and the callers have seen. -/
structure Db where
  payments : List Payment
  attempts : List Attempt
  refusals : List Refusal
  keys : List Key
  captures : List (Uuid × Uuid)
  permitted : List String
  exchanges : List Exchange
  answers : List (Request × Answer)

def Db.new : Db := ⟨[], [], [], [], [], [], [], []⟩

def Attempt.same (a : Attempt) (r : Request) : Bool :=
  a.paymentId = r.paymentId ∧ a.producer = r.caller ∧ a.refundCaseId = r.input.refundCaseId ∧ a.amount = r.input.amount ∧
    a.currency = r.input.currency ∧ a.reason = r.input.reason ∧ a.legalOverride = r.input.legalOverride ∧
    (if a.captureSpecific then some a.captureFactId else none) = r.input.captureFactId

def Key.names (k : Key) (r : Request) : Bool := k.caller = r.caller ∧ k.key = r.key

def Key.same (k : Key) (r : Request) : Bool := k.paymentId = r.paymentId ∧ k.input = r.input

/-- The attempt that a request already names; an error for a key or an id of another request, and for a refused id. -/
def Db.known (db : Db) (r : Request) : Except PaymentError (Option Attempt) :=
  let stored := db.keys.find? fun k => k.names r
  if stored.any fun k => k.same r = false then .error idempotencyKeyReused
  else match db.refusals.find? fun f => f.id = r.input.refundAttemptId with
    | some f =>
      if f.paymentId ≠ r.paymentId ∨ f.producer ≠ r.caller ∨ f.refundCaseId ≠ r.input.refundCaseId then .error attemptConflict
      else .error f.code.error
    | none => match db.attempts.find? fun a => a.id = r.input.refundAttemptId with
      | none => if stored.isSome then .error attemptConflict else .ok none
      | some a => if a.same r then .ok (some a) else .error attemptConflict

def Db.ambiguousWithoutPermission (db : Db) (a : Attempt) : Bool :=
  1 < db.captures.count (a.capturedAttemptId, a.paymentId) ∧ a.provider ∉ db.permitted

/-! ## Calls -/

structure Verified where
  captureFactId : Uuid
  provider : String
  capturedAttemptId : Uuid

/-- What `verify` and `verifyCapture` make of the payment; `raised` is an error of the database. -/
inductive Verdict
  | refusal (code : RefusalCode)
  | verified (v : Verified)
  | unavailable
  | raised

inductive Operation
  | request (r : Request) (verdict : Verdict) (consume : ConsumeOutcome) (lookup : LookupOutcome)
  /-- The worker, for an intent whose authorization is not known. -/
  | recover (id : Uuid) (lookup : LookupOutcome)

inductive Write
  | refusal (f : Refusal)
  | attempt (a : Attempt)

def Write.id : Write → Uuid
  | .refusal f => f.id
  | .attempt a => a.id

def Write.paymentId : Write → Uuid
  | .refusal f => f.paymentId
  | .attempt a => a.paymentId

inductive Settlement
  | authorized (c : Consumption)
  | unauthorized (status : RefundAttemptStatus) (code : AuthorizationRefusal)

inductive Phase
  | known
  | lock
  | raced (p : Payment)
  | insert (p : Payment)
  | reserve (w : Write)
  | publish (w : Write) (key : Option Key)
  | authorize (a : Attempt) (created : Bool)
  | early (a : Attempt) (created : Bool)
  | consume (a : Attempt) (created : Bool)
  | scan
  | late (a : Attempt) (created : Bool)
  | settle (id : Uuid) (s : Settlement) (created : Bool)
  | store (a : Attempt) (created : Bool)
  | finish (answer : Answer)

structure Session where
  op : Operation
  phase : Phase

def Session.payment (x : Session) : Option Uuid :=
  match x.phase with
  | .raced p | .insert p => some p.id
  | .reserve w | .publish w _ => some w.paymentId
  | .store a _ => some a.paymentId
  | _ => none

def Session.write (x : Session) : Option Write :=
  match x.phase with
  | .reserve w | .publish w _ => some w
  | _ => none

def Session.attempt (x : Session) : Option Uuid :=
  match x.write with
  | some (.attempt a) => some a.id
  | _ => none

def Session.refusal (x : Session) : Option Uuid :=
  match x.write with
  | some (.refusal f) => some f.id
  | _ => none

def Session.key (x : Session) : Option (String × String) :=
  match x.phase with
  | .publish _ (some k) => some (k.caller, k.key)
  | _ => none

def Session.receipt (x : Session) : Option Uuid :=
  match x.phase with
  | .store a _ => a.receiptId
  | _ => none

section
variable (digest : String → String) (db : Db) (others : (Session → Bool) → Bool) (x : Session)

def Session.go (phase : Phase) : Reply Session := .next { x with phase }

def Request.attempt (r : Request) (p : Payment) (v : Verified) : Attempt where
  id := r.input.refundAttemptId
  paymentId := r.paymentId
  producer := r.caller
  refundCaseId := r.input.refundCaseId
  companyId := p.sellerId
  amount := r.input.amount
  currency := r.input.currency
  reason := r.input.reason
  legalOverride := r.input.legalOverride
  -- `verifyCapture` answers the capture that was asked for
  captureFactId := r.input.captureFactId.getD v.captureFactId
  captureSpecific := r.input.captureFactId.isSome
  capturedAttemptId := v.capturedAttemptId
  provider := v.provider
  receiptDigest := digest r.receiptSecret
  status := .authorizationPending
  authorizationRefusal := none
  receiptId := none
  approvedByUserId := none

/-- The insert of a row, after the guard of its table has looked into the other one. -/
def Session.inserts (w : Write) : Reply Session :=
  match w with
  | .refusal f =>
    if db.attempts.any fun a => a.id = f.id then .refused
    else if others fun y => y.refusal = some f.id then .wait
    else if db.refusals.any fun g => g.id = f.id then .refused
    else x.go (.reserve w)
  | .attempt a =>
    if db.refusals.any fun f => f.id = a.id then .refused
    else if others fun y => y.attempt = some a.id then .wait
    else if db.attempts.any fun b => b.id = a.id then .refused
    else x.go (.reserve w)

def Session.insert (r : Request) (verdict : Verdict) (p : Payment) : Reply Session :=
  match verdict with
  | .refusal code => x.inserts db others (.refusal ⟨r.input.refundAttemptId, r.paymentId, r.caller, r.input.refundCaseId, code⟩)
  | .verified v => x.inserts db others (.attempt (r.attempt digest p v))
  | .unavailable => x.go (.finish (.error refundDisputeUnavailable))
  | .raised => .refused

/-- `reserveKey`; a duplicate rolls back to its savepoint and reads the row. -/
def Session.reserve (r : Request) (w : Write) : Reply Session :=
  if others fun y => y.key = some (r.caller, r.key) then .wait
  else match db.keys.find? fun k => k.names r with
    | none => x.go (.publish w (some ⟨r.caller, r.key, r.paymentId, r.input, w.id⟩))
    | some k =>
      if k.same r = false then x.go (.finish (.error idempotencyKeyReused))
      else if k.resourceId ≠ w.id then x.go (.finish (.error attemptConflict))
      else x.go (.publish w none)

def Session.authorize (r : Request) (a : Attempt) (created : Bool) : Reply Session :=
  if a.status ≠ .authorizationPending then x.go (.finish (a.answer created))
  else if a.receiptDigest ≠ digest r.receiptSecret then x.go (.finish (.error attemptConflict))
  else if a.captureSpecific ∧ db.ambiguousWithoutPermission a then x.go (.early a created)
  else x.go (.consume a created)

def Attempt.settled (a : Attempt) : Settlement → Attempt
  | .authorized c => { a with
    status := .authorized
    receiptId := some c.receiptId
    approvedByUserId := some c.approvedByUserId }
  | .unauthorized status code => { a with
    status
    authorizationRefusal := some code }

def Session.settle (id : Uuid) (s : Settlement) (created : Bool) : Reply Session :=
  match db.attempts.find? fun a => a.id = id with
  | none => .refused
  | some a =>
    if others fun y => y.payment = some a.paymentId then .wait
    else if a.status ≠ .authorizationPending then x.go (.finish (a.answer created))
    else if (a.settled s).receiptId ≠ none ∧ others fun y => y.receipt = (a.settled s).receiptId then .wait
    else if (a.settled s).receiptId ≠ none ∧ db.attempts.any fun b => b.receiptId = (a.settled s).receiptId then .refused
    else x.go (.store (a.settled s) created)

/-- `known()` of a request, before its transaction and in it. -/
def Session.look (r : Request) (absent : Phase) : Reply Session :=
  match db.known r with
  | .error e => x.go (.finish (.error e))
  | .ok (some a) => x.go (.authorize a false)
  | .ok none => x.go absent

def Session.exec : Reply Session :=
  match x.op, x.phase with
  | .request r _ _ _, .known => x.look db r .lock
  | .request r _ _ _, .lock =>
    if others fun y => y.payment = some r.paymentId then .wait
    else match db.payments.find? fun p => p.id = r.paymentId with
      | none => x.go (.finish (.error notFound))
      | some p => if p.producer = r.caller then x.go (.raced p) else x.go (.finish (.error notFound))
  | .request r _ _ _, .raced p => x.look db r (.insert p)
  | .request r verdict _ _, .insert p => x.insert digest db others r verdict p
  | .request r _ _ _, .reserve w => x.reserve db others r w
  | .request r _ _ _, .authorize a created => x.authorize digest db r a created
  | .recover id _, .scan =>
    match db.attempts.find? fun a => a.id = id with
    | none => .refused
    | some a => if a.status = .authorizationPending then x.go (.late a false) else .refused
  | _, .settle id s created => x.settle db others id s created
  | _, _ => .wait

def ConsumeOutcome.phase (a : Attempt) (created : Bool) : ConsumeOutcome → Phase
  | .consumed c => .settle a.id (.authorized c) created
  | .refused binding => .settle a.id (.unauthorized .authorizationRefused (if binding then .receiptBindingInvalid else .receiptInvalid)) created
  | .expired => .settle a.id (.unauthorized .authorizationExpired .receiptExpired) created
  | .conflict | .unresolved => .late a created

def LookupOutcome.early (a : Attempt) (created : Bool) : LookupOutcome → Phase
  | .consumed c => .settle a.id (.authorized c) created
  | .absent => .settle a.id (.unauthorized .authorizationRefused .refundCaptureNotEligible) created
  | .unresolved => .finish (.error refundAuthorizationUnresolved)

def LookupOutcome.late (a : Attempt) (created : Bool) : LookupOutcome → Phase
  | .consumed c => .settle a.id (.authorized c) created
  | .absent | .unresolved => .finish (.error refundAuthorizationUnresolved)

def Operation.lookup : Operation → LookupOutcome
  | .request _ _ _ lookup | .recover _ lookup => lookup

def Operation.answers (op : Operation) (answer : Answer) : List (Request × Answer) :=
  match op with
  | .request r _ _ _ => [(r, answer)]
  | .recover _ _ => []

def Session.commit : Option (Db × Option Session) :=
  match x.op, x.phase with
  | _, .publish (.refusal f) key => some (
    { db with
      refusals := db.refusals ++ [f]
      keys := db.keys ++ key.toList }, some { x with phase := .finish (.error f.code.error) })
  | _, .publish (.attempt a) key => some (
    { db with
      attempts := db.attempts ++ [a]
      keys := db.keys ++ key.toList }, some { x with phase := .authorize a true })
  | .request r _ outcome _, .consume a created => some (
    { db with exchanges := db.exchanges ++ [.consume r.receiptSecret (bindingOf a) a.id outcome] }, some { x with phase := outcome.phase a created })
  | op, .early a created => some (
    { db with exchanges := db.exchanges ++ [.lookup (bindingOf a) a.id op.lookup] }, some { x with phase := op.lookup.early a created })
  | op, .late a created => some (
    { db with exchanges := db.exchanges ++ [.lookup (bindingOf a) a.id op.lookup] }, some { x with phase := op.lookup.late a created })
  | _, .store a created => some (
    { db with attempts := replaceRow Attempt.id a db.attempts }, some { x with phase := .finish (a.answer created) })
  | op, .finish answer => some ({ db with answers := db.answers ++ op.answers answer }, none)
  | _, _ => none

end

inductive Change
  | payment (p : Payment)
  | capture (attemptId paymentId : Uuid)
  | permission (provider : String) (granted : Bool)
  /-- An authorized attempt is dispatched and comes to its outcome. -/
  | progress (id : Uuid) (status : RefundAttemptStatus)

def Attempt.progress (a : Attempt) (status : RefundAttemptStatus) : Attempt :=
  if a.status ≠ .authorizationPending ∧ canTransition a.status status then { a with status } else a

def Db.elapse (db : Db) : Change → Db
  | .payment p => if db.payments.any fun q => q.id = p.id then db else { db with payments := db.payments ++ [p] }
  | .capture attemptId paymentId => { db with captures := db.captures ++ [(attemptId, paymentId)] }
  | .permission provider granted =>
    { db with permitted := if granted then provider :: db.permitted else db.permitted.filter (· ≠ provider) }
  | .progress id status => { db with attempts := db.attempts.map fun a => if a.id = id then a.progress status else a }

def Operation.start : Operation → Session
  | .request r verdict outcome lookup => ⟨.request r verdict outcome lookup, .known⟩
  | .recover id lookup => ⟨.recover id lookup, .scan⟩

/-- `digest` is the digest of a receipt's secret. -/
def requests (digest : String → String) : Transactions Db Session Operation Change where
  start _ _ op := some op.start
  exec db others _ x := x.exec digest db others
  commit db _ x := x.commit db
  elapse := Db.elapse

end NawaraCore.RefundRequests
