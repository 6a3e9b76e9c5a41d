import Mathlib.Algebra.Ring.Int.Defs
import Mathlib.Logic.Function.Basic
import NawaraCore.Payment.PaymentSystem

/-!
# The webhook pipeline

A verified notification is stored, then processed by the same `applyStatus` that a
status read uses. Storing, looking the attempt up, keeping an unmatched fact, applying
and marking the row are separate transactions, so a processing is kept as a task beside
the rows and can be lost between any two of them. A notification is identified with the
row that its `(provider, providerEventId)` has.
-/

namespace NawaraCore.Payments

/-- The payment notifications; refunds and disputes have their own pipelines. -/
inductive NotificationType
  | paymentSucceeded | paymentFailed | paymentExpired | unknown (name : String)
deriving DecidableEq

def NotificationType.name : NotificationType → String
  | .paymentSucceeded => "payment.succeeded"
  | .paymentFailed => "payment.failed"
  | .paymentExpired => "payment.expired"
  | .unknown name => name

/-- `currency` is `none` when the message has no text there. -/
structure Notification where
  provider : String
  type : NotificationType
  reference : String
  amount : Option Int
  currency : Option String
  providerTransactionId : Option String
  failureClass : FailureClass
  failureCode : String

inductive WebhookEventState
  | received | processing | processed | ignored | unmatched | conflict | failed
deriving DecidableEq

/-- `notification` is `none` when the stored body does not parse. -/
structure WebhookEvent where
  notification : Option Notification
  receivedAt : Int
  state : WebhookEventState
  outcome : Option String
  attempts : Nat
  matchedAttemptId : Option Uuid

def WebhookEventState.settled : WebhookEventState → Bool
  | .processed | .ignored | .conflict => true
  | _ => false

def quarantineOutcome : String := "quarantined_invalid_currency"

def unmatchedFactGraceMs : Int := 5 * 60000

def webhookRetryMaxAttempts : Nat := 10

def stuckThresholdMs : Int := 10000

def toStatus (n : Notification) : Option FetchStatusResult :=
  match n.type with
  | .paymentSucceeded =>
    match n.amount, n.currency with
    | some amount, some currency => some (.succeeded amount currency n.providerTransactionId)
    | _, _ => none
  | .paymentFailed => some (.failed n.failureClass n.failureCode)
  | .paymentExpired => some .expired
  | .unknown _ => none

def quarantined (n : Notification) : Bool :=
  n.type = .paymentSucceeded ∧ (n.currency.map classifyCurrencyEvidence).getD (some .empty) ≠ none

def findAttemptByReference (db : Db) (provider reference : String) : Option Attempt :=
  db.attempts.find? fun a =>
    a.provider = provider ∧ (a.providerTransactionId = some reference ∨ toString a.id = reference)

def WebhookEvent.markState (e : WebhookEvent) (state : WebhookEventState) (outcome : Option String)
    (matchedAttemptId : Option Uuid) : WebhookEvent :=
  { e with state, outcome, attempts := e.attempts + 1, matchedAttemptId := matchedAttemptId.or e.matchedAttemptId }

def WebhookEvent.retryable (e : WebhookEvent) : Bool :=
  !e.state.settled && !(e.state = .failed ∧
    (e.outcome = some "malformed_body" ∨ e.outcome = some "retries_exhausted"))

def WebhookEvent.due (e : WebhookEvent) (now : Int) : Bool :=
  e.receivedAt ≤ now - stuckThresholdMs * 2 ^ (min e.attempts 30)

inductive Task
  | process
  | keepUnmatched
  | await (attemptId : Uuid) (status : FetchStatusResult)
  | mark (state : WebhookEventState) (outcome : Option String) (matchedAttemptId : Option Uuid)
deriving DecidableEq

structure Inbox where
  sys : Sys
  rows : Uuid → Option WebhookEvent
  tasks : Uuid → List Task

inductive InboxAction
  | payment (a : Action)
  | receive (eventId : Uuid) (notification : Option Notification) (now : Int)
  | retry (eventId : Uuid) (now : Int)
  | exhaust (eventId : Uuid)
  | advance (eventId : Uuid) (task : Task) (now : Int) (freshId : Uuid)
  | drop (eventId : Uuid) (task : Task)

/-! ## Steps -/

def Inbox.setRow (w : Inbox) (id : Uuid) (e : WebhookEvent) : Inbox :=
  { w with rows := Function.update w.rows id (some e) }

def Inbox.addTask (w : Inbox) (id : Uuid) (t : Task) : Inbox :=
  { w with tasks := Function.update w.tasks id (t :: w.tasks id) }

def Inbox.dropTask (w : Inbox) (id : Uuid) (t : Task) : Inbox :=
  { w with tasks := Function.update w.tasks id ((w.tasks id).erase t) }

/-- The task of a notification just read: a body that does not parse ends at once. -/
def firstTask : Option Notification → Task
  | none => .mark .failed (some "malformed_body") none
  | some _ => .process

def receive (w : Inbox) (id : Uuid) (notification : Option Notification) (now : Int) : Inbox :=
  match w.rows id with
  | none => (w.setRow id ⟨notification, now, .received, none, 0, none⟩).addTask id (firstTask notification)
  | some e => if e.state.settled then w else w.addTask id (firstTask e.notification)

def retry (w : Inbox) (id : Uuid) (now : Int) : Inbox :=
  match w.rows id with
  | none => w
  | some e =>
    if e.retryable && decide (e.attempts < webhookRetryMaxAttempts) && e.due now then
      w.addTask id (firstTask e.notification)
    else w

def exhaust (w : Inbox) (id : Uuid) : Inbox :=
  match w.rows id with
  | none => w
  | some e =>
    if e.retryable && decide (webhookRetryMaxAttempts ≤ e.attempts) then
      w.setRow id { e with state := .failed, outcome := some "retries_exhausted" }
    else w

/-- A status is applied for an attempt that is visible; a success that names none may be kept. -/
def process (cfg : PaymentConfig) (w : Inbox) (id : Uuid) (n : Notification) (freshId : Uuid) : Inbox :=
  if quarantined n then
    w.addTask id (.mark .conflict (some quarantineOutcome) ((findAttemptByReference w.sys.db n.provider n.reference).map (·.id)))
  else match toStatus n with
    | none => w.addTask id (.mark .ignored (some ("unknown_event_type:" ++ n.type.name)) none)
    | some status =>
      match findAttemptByReference w.sys.db n.provider n.reference with
      | some a =>
        { w with sys := step cfg w.sys (.observe a.id status (some id) freshId) }.addTask id (.await a.id status)
      | none =>
        match status with
        | .succeeded .. => w.addTask id .keepUnmatched
        | _ => w.addTask id (.mark .unmatched none none)

/-- `recordUnmatchedFact` of a notification that is still unmatched after the grace window. -/
def keepUnmatched (w : Inbox) (id : Uuid) (e : WebhookEvent) (n : Notification) (now : Int) (freshId : Uuid) : Inbox :=
  match n.amount, n.currency, n.providerTransactionId with
  | some amount, some currency, some txn =>
    if e.receivedAt ≤ now - unmatchedFactGraceMs then
      match recordUnmatchedFact w.sys.db n.provider txn amount currency id freshId with
      | .ok (db, factId) =>
        { w with sys := { w.sys with db } }.addTask id (.mark .unmatched (factId.map ("unmatched_fact:" ++ toString ·)) none)
      | .error _ => w
    else w.addTask id (.mark .unmatched none none)
  | _, _, _ => w.addTask id (.mark .unmatched none none)

def answerMark (attemptId : Uuid) : Answer → Task
  | .returned => .mark .processed none (some attemptId)
  | .refused (.http _ code) =>
    if code = "provider_error" ∨ code = "invalid_state_transition" then .mark .conflict (some code) (some attemptId)
    else .mark .failed (some "transient_error") (some attemptId)
  | .refused (.refused _) => .mark .failed (some "transient_error") (some attemptId)

def answerOf (s : Sys) (id attemptId : Uuid) (status : FetchStatusResult) : Option (ApplyCall × Answer) :=
  s.applies.findSome? fun c =>
    if c.attemptId = attemptId ∧ c.status = status ∧ c.webhookEventId = some id then
      match c.stage with
      | .answered a => some (c, a)
      | _ => none
    else none

def advance (cfg : PaymentConfig) (w : Inbox) (id : Uuid) (task : Task) (now : Int) (freshId : Uuid) : Inbox :=
  if task ∈ w.tasks id then
    match w.rows id with
    | none => w
    | some e =>
      match task with
      | .process =>
        match e.notification with
        | none => w
        | some n => process cfg (w.dropTask id task) id n freshId
      | .keepUnmatched =>
        match e.notification with
        | none => w
        | some n => keepUnmatched (w.dropTask id task) id e n now freshId
      | .await attemptId status =>
        match answerOf w.sys id attemptId status with
        | none => w
        | some (c, answer) =>
          { w with sys := step cfg w.sys (.lose c) }.dropTask id task |>.addTask id (answerMark attemptId answer)
      | .mark state outcome matched => (w.setRow id (e.markState state outcome matched)).dropTask id task
  else w

def Inbox.step (cfg : PaymentConfig) (w : Inbox) : InboxAction → Inbox
  | .payment a => { w with sys := Payments.step cfg w.sys a }
  | .receive id notification now => receive w id notification now
  | .retry id now => retry w id now
  | .exhaust id => exhaust w id
  | .advance id task now freshId => advance cfg w id task now freshId
  | .drop id task => w.dropTask id task

def Inbox.run (cfg : PaymentConfig) (w : Inbox) (as : List InboxAction) : Inbox := as.foldl (Inbox.step cfg) w

def InboxAction.eventId : InboxAction → Option Uuid
  | .payment _ => none
  | .receive id _ _ | .retry id _ | .exhaust id | .advance id _ _ _ | .drop id _ => some id

def Inbox.new (s : Sys) : Inbox := ⟨s, fun _ => none, fun _ => []⟩

end NawaraCore.Payments
