import NawaraCore.Events.Trust

/-!
# The consumer side of the event bus

One delivery: the envelope checks, the admission, the trust decision, the handler, and
what a failure ends in: a copy in the retry queue, a copy in the dead-letter queue, or
a hold and a requeue.
-/

namespace NawaraCore.Events

structure Envelope (Payload : Type) where
  id : String
  name : String
  payload : Payload
  occurredAt : String
  correlationId : Option String
  source : String
  /-- Nothing when the header does not read as an integer. -/
  version : Option Int
  retryCount : Nat
  replayCount : Nat

def counter (value : Option HeaderValue) : Nat :=
  match numberOf 0 value with
  | some n => n.toNat
  | none => 0

def retryCountHeader := "x-nawara-retry-count"
def replayCountHeader := "x-nawara-replay-count"
def replayedAtHeader := "x-nawara-replayed-at"
def failureHeader := "x-nawara-failure"
def failureReasonHeader := "x-nawara-failure-reason"
def failureErrorHeader := "x-nawara-failure-error"
def failedAtHeader := "x-nawara-failed-at"
def consumerHeader := "x-nawara-consumer"
def bodyRedactedHeader := "x-nawara-body-redacted"

/-- `parse` is `JSON.parse` of the body's text, when it gives an object. -/
def envelopeOf {Payload : Type} (parse : Body → Option Payload) (msg : Message) : Option (Envelope Payload) :=
  match msg.messageId, msg.type with
  | some id, some name =>
    if EVENT_NAME name = false then none
    else (parse msg.content).map fun payload => {
      id
      name
      payload
      occurredAt := shownOf (msg.headers "occurredAt")
      correlationId := textOf (msg.headers "correlationId")
      source := shownOf (msg.headers "source")
      version := numberOf 1 (msg.headers "version")
      retryCount := counter (msg.headers retryCountHeader)
      replayCount := counter (msg.headers replayCountHeader) }
  | _, _ => none

inductive FailureClass | malformed | permanent | retries_exhausted

def FailureClass.text : FailureClass → String
  | .malformed => "malformed"
  | .permanent => "permanent"
  | .retries_exhausted => "retries_exhausted"

inductive EventAdmission | admitted | refused (reason : String)

structure DeadLetterInput (Payload : Type) where
  event : Option (Envelope Payload)
  failure : FailureClass
  reason : Option String
  body : Body

inductive KeptBody | original | redacted

structure DeadLetterDecision where
  body : KeptBody
  headers : Headers

structure EventSubscription (H : Hashing) (Payload : Type) where
  context : TrustContext H
  parse : Body → Option Payload
  /-- Whether deliveries are recorded when the policy below is absent. -/
  provenance : Bool
  enforcement : Option EnforcementPolicy
  /-- A check that throws, or answers anything but an explicit admission, refuses. -/
  admission : Option (Envelope Payload → Body → EventAdmission)
  deadLetterPolicy : Option (DeadLetterInput Payload → Option DeadLetterDecision)
  maxRetries : Nat
  publisherUserId : Option String

inductive HandlerError
  | permanent (reason : String)
  | transient (errorName : Option String)

/-- How the broker answers one publish to a queue: whether the copy reached it, whether it confirmed in time, and the ids of
the other messages it returned on the channel meanwhile. -/
structure PublishOutcome where
  routed : Bool
  confirmed : Bool
  returned : List (Option String)

structure Outcomes where
  store : StoreOutcome
  handler : Option HandlerError
  retry : PublishOutcome
  dead : PublishOutcome
  failedAt : String

/-! ## Copies -/

def safeToken (value : Option String) (pattern : String → Bool) (fallback : String) : String :=
  match value with
  | some s => if pattern s then s else fallback
  | none => fallback

def ERROR_NAME (s : String) : Bool := isToken (fun c => isLower c || isUpper c) (fun c => isAlnum c || oneOf "_" c) 0 63 (codes s)

def REASON_CODE (s : String) : Bool := isToken isLower wordChar 0 63 (codes s)

def MESSAGE_ID (s : String) : Bool := isToken idChar idChar 0 127 (codes s)

def BROKER_HISTORY : List String :=
  ["x-death", "x-first-death-exchange", "x-first-death-queue", "x-first-death-reason", "x-last-death-exchange", "x-last-death-queue",
    "x-last-death-reason"]

def withoutBrokerHistory (headers : Headers) : Headers := fun k => if k ∈ BROKER_HISTORY then none else headers k

def withHeader (headers : Headers) (key : String) (value : HeaderValue) : Headers := fun k => if k = key then some value else headers k

def withText (headers : Headers) (key value : String) : Headers := withHeader headers key (.text value none)

def withNumber (headers : Headers) (key : String) (n : Nat) : Headers := withHeader headers key (.other (toString n) (some n))

structure DeadLetterCopy where
  content : Body
  contentType : Option String
  messageId : Option String
  type : Option String
  headers : Headers
  redacted : Bool

def bytes (s : String) : Body := s.toUTF8.toList

def redactedDocument (failure : FailureClass) (reason : Option String) (size : Nat) : Body :=
  bytes ("\x7b\"redacted\":true,\"failure\":\"" ++ failure.text ++ "\"" ++
    (match reason with | some r => ",\"reason\":\"" ++ r ++ "\"" | none => "") ++ ",\"bodyBytes\":" ++ toString size ++ "\x7d")

def keptHeader : Option HeaderValue → Option HeaderValue
  | some (.text s n) => some (.text s n)
  | some (.other s n) => some (.other s n)
  | _ => none

/-- The copy's headers: what the policy returned, and the kit's own replay bookkeeping. -/
def keptHeaders (decision original : Headers) : Headers :=
  let kept : Headers := fun k => keptHeader (decision k)
  let replays := counter (original replayCountHeader)
  let counted := if 0 < replays then withNumber kept replayCountHeader replays else kept
  match textOf (original replayedAtHeader) with
  | some at_ => if isTimestamp (codes at_) then withText counted replayedAtHeader at_ else counted
  | none => counted

variable {H : Hashing} {Payload : Type}

def deadLetterDecision (policy : DeadLetterInput Payload → Option DeadLetterDecision) (input : DeadLetterInput Payload) : DeadLetterDecision :=
  (policy input).getD { body := .redacted, headers := fun _ => none }

def deadLetterCopy (policy : DeadLetterInput Payload → Option DeadLetterDecision) (msg : Message) (event : Option (Envelope Payload))
    (failure : FailureClass) (reason : Option String) : DeadLetterCopy :=
  let decision := deadLetterDecision policy { event, failure, reason, body := msg.content }
  let headers := keptHeaders decision.headers msg.headers
  match decision.body with
  | .original => {
      content := msg.content
      contentType := msg.contentType
      messageId := msg.messageId
      type := msg.type
      headers
      redacted := false }
  | .redacted => {
      content := redactedDocument failure reason msg.content.length
      contentType := some "application/json"
      messageId := msg.messageId.filter MESSAGE_ID
      type := msg.type.filter EVENT_NAME
      headers
      redacted := true }

/-- A publish of a copy to a queue, through the default exchange and with `mandatory`. -/
structure Published where
  queue : String
  message : Message
  outcome : PublishOutcome

def copyMessage (userId : String) (queue : String) (msg : Message) (annotate : Headers → Headers) (copy : Option DeadLetterCopy) : Message where
  exchange := ""
  routingKey := queue
  userId := some userId
  messageId := match copy with | some c => c.messageId | none => msg.messageId
  type := match copy with | some c => c.type | none => msg.type
  contentType := match copy with | some c => c.contentType | none => msg.contentType
  timestamp := msg.timestamp
  headers := annotate (match copy with | some c => c.headers | none => withoutBrokerHistory msg.headers)
  content := match copy with | some c => c.content | none => msg.content

/-- The ids of the messages the broker returned before it confirmed: an unroutable mandatory message is among them. -/
def returnedIds (m : Message) (o : PublishOutcome) : List (Option String) := if o.routed then o.returned else m.messageId :: o.returned

/-- Publishes a copy and waits for the confirm; `false` is a throw. A return is matched to `msg` by its message id. -/
def republish (publisherUserId : Option String) (queue : String) (msg : Message) (annotate : Headers → Headers) (copy : Option DeadLetterCopy)
    (o : PublishOutcome) : List Published × Bool :=
  match publisherUserId with
  | none => ([], false)
  | some user =>
    let m := copyMessage user queue msg annotate copy
    ([{ queue, message := m, outcome := o }], o.confirmed && !(returnedIds m o).contains msg.messageId)

/-! ## One delivery -/

inductive Settlement | ack | requeue

/-- What a delivery did: how it was settled, whether its handler resolved, the copies it published, and whether a retry was
scheduled. -/
structure Delivery where
  settlement : Settlement
  resolved : Bool
  published : List Published
  scheduled : Bool

def HandlerError.isPermanent : HandlerError → Bool
  | .permanent _ => true
  | .transient _ => false

def HandlerError.reason : HandlerError → Option String
  | .permanent r => some (safeToken (some r) REASON_CODE "unspecified")
  | .transient _ => none

def HandlerError.name : HandlerError → String
  | .permanent _ => "PermanentEventFailure"
  | .transient name => safeToken name ERROR_NAME "Error"

def failureOf (event : Option (Envelope Payload)) (error : HandlerError) : FailureClass :=
  if event.isNone then .malformed else if error.isPermanent then .permanent else .retries_exhausted

/-- The retry of a failure that may pass: the copy in the retry queue, and whether it was taken for scheduled. -/
def scheduleRetry (sub : EventSubscription H Payload) (msg : Message) (error : HandlerError) (o : PublishOutcome) : List Published × Bool :=
  let retryCount := counter (msg.headers retryCountHeader)
  if error.isPermanent = false ∧ retryCount < sub.maxRetries then
    republish sub.publisherUserId (sub.context.queue ++ ".retry") msg (fun h => withNumber h retryCountHeader (retryCount + 1)) none o
  else ([], false)

def annotateDead (queue : String) (failure : FailureClass) (error : HandlerError) (failedAt : String) (retryCount : Nat) (redacted : Bool)
    (h : Headers) : Headers :=
  let named := withText h failureHeader failure.text
  let reasoned := match error.reason with | some r => withText named failureReasonHeader r | none => named
  let told := withText (withText (withText reasoned failureErrorHeader error.name) failedAtHeader failedAt) consumerHeader queue
  let counted := withNumber told retryCountHeader retryCount
  if redacted then withText counted bodyRedactedHeader "true" else counted

/-- The copy in the dead-letter queue, and whether it was taken for stored there. -/
def deadLetter (sub : EventSubscription H Payload) (msg : Message) (event : Option (Envelope Payload)) (error : HandlerError) (failedAt : String)
    (o : PublishOutcome) : List Published × Bool :=
  let failure := failureOf event error
  let copy := sub.deadLetterPolicy.map fun policy => deadLetterCopy policy msg event failure error.reason
  let annotate := annotateDead sub.context.queue failure error failedAt (counter (msg.headers retryCountHeader)) (copy.any (·.redacted))
  republish sub.publisherUserId (sub.context.queue ++ ".dead") msg annotate copy o

def onFailure (sub : EventSubscription H Payload) (msg : Message) (event : Option (Envelope Payload)) (error : HandlerError) (o : Outcomes) : Delivery :=
  let retried := scheduleRetry sub msg error o.retry
  if retried.2 then { settlement := .ack, resolved := false, published := retried.1, scheduled := true }
  else
    let dead := deadLetter sub msg event error o.failedAt o.dead
    { settlement := if dead.2 then .ack else .requeue
      resolved := false
      published := retried.1 ++ dead.1
      scheduled := false }

/-- What the delivery comes to before its handler: an error, a hold, or a handler call with the trust it is given. -/
inductive Verdict (Payload : Type)
  | fails (event : Option (Envelope Payload)) (reason : String)
  | holds
  | handles (event : Envelope Payload) (trust : Option TrustDecision)

def admissionRefusal (sub : EventSubscription H Payload) (event : Envelope Payload) (body : Body) : Option String :=
  match sub.admission with
  | none => none
  | some check => match check event body with
    | .admitted => none
    | .refused reason => some reason

def verdict (sub : EventSubscription H Payload) (rows : List (StoredRow H)) (msg : Message) (store : StoreOutcome) :
    List (StoredRow H) × Verdict Payload :=
  match envelopeOf sub.parse msg with
  | none => (rows, .fails none "malformed_envelope")
  | some event =>
    match admissionRefusal sub event msg.content with
    | some reason => (rows, .fails (some event) reason)
    | none =>
      match sub.enforcement with
      | some policy =>
        let (rows', decision) := trustDecision sub.context policy rows msg store
        match decision with
        | .hold => (rows', .holds)
        | .refuse basis => (rows', .fails (some event) (refusalReason basis))
        | trust => (rows', .handles event (some trust))
      | none =>
        if sub.provenance then
          let (rows', committed) := provenanceCommitted sub.context rows msg store
          if committed then (rows', .handles event none) else (rows', .holds)
        else (rows, .handles event none)

def conclude (sub : EventSubscription H Payload) (msg : Message) (v : Verdict Payload) (o : Outcomes) : Delivery :=
  match v with
  | .holds => { settlement := .requeue, resolved := false, published := [], scheduled := false }
  | .fails event reason => onFailure sub msg event (.permanent reason) o
  | .handles event _ => match o.handler with
    | none => { settlement := .ack, resolved := true, published := [], scheduled := false }
    | some error => onFailure sub msg (some event) error o

def deliver (sub : EventSubscription H Payload) (rows : List (StoredRow H)) (msg : Message) (o : Outcomes) : List (StoredRow H) × Delivery :=
  let (rows', v) := verdict sub rows msg o.store
  (rows', conclude sub msg v o)

end NawaraCore.Events
