import NawaraCore.Events.Bus
import NawaraCore.Lib.Json

/-!
# What a dead-letter queue keeps

The check of canonical bytes, the headers a policy lets through, the notification
policy, and the operator's replay of one dead-lettered message.
-/

namespace NawaraCore.Events

variable {Payload : Type}

abbrev Parse := Body → Option JsonValue

def bytesOf (text : List Nat) : Body := (Json.utf8 text).map UInt8.ofNat

def isCanonicalJsonBody (parse : Parse) (body : Body) : Bool :=
  match parse body with
  | none => false
  | some v => bytesOf v.val.stringify == body

def parsePayload (parse : Parse) (body : Body) : Option JsonValue :=
  (parse body).filter fun v => match v.val with
    | .obj _ => true
    | _ => false

def SAFE_SERVICE (s : String) : Bool := isToken isLower (fun c => isLower c || isDigit c || oneOf "-" c) 1 62 (codes s)

def SAFE_OCCURRED_AT (s : String) : Bool := isTimestamp (codes s) || isShape (shapeOf "9999-99-99T99:99:99Z") (codes s)

def SAFE_CORRELATION (s : String) : Bool := isToken idChar idChar 7 127 (codes s)

def checkedHeader (p : Bool) (value : HeaderValue) : Option HeaderValue := if p then some value else none

def replayHeaders : Option (Envelope Payload) → Headers
  | none => fun _ => none
  | some e => fun k =>
    if k = "eventId" then checkedHeader (isUuid (codes e.id)) (.text e.id none)
    else if k = "source" then checkedHeader (SAFE_SERVICE e.source) (.text e.source none)
    else if k = "occurredAt" then checkedHeader (SAFE_OCCURRED_AT e.occurredAt) (.text e.occurredAt none)
    else if k = "version" then e.version.bind fun n => checkedHeader (decide (1 ≤ n ∧ n ≤ 1000)) (.other (toString n) (some n))
    else if k = "correlationId" then e.correlationId.bind fun c => checkedHeader (SAFE_CORRELATION c) (.text c none)
    else none

mutual
/-- Whether a member named `code` occurs anywhere in a value. -/
def carriesCode : Json → Bool
  | .arr items => itemsCarryCode items
  | .obj members => membersCarryCode members
  | _ => false

def itemsCarryCode : List Json → Bool
  | [] => false
  | j :: js => carriesCode j || itemsCarryCode js

def membersCarryCode : Members → Bool
  | [] => false
  | (k, j) :: ms => k == codes "code" || carriesCode j || membersCarryCode ms
end

structure EventMapping where
  source : String
  name : String
  payload : List String

def DEST : List String := ["userId", "channel", "destination"]

def codeMapping (name : String) (withTimestamp : Bool) : EventMapping where
  source := "auth-service"
  name
  payload := DEST ++ ["code", "expiresAt"] ++ if withTimestamp then ["timestamp"] else []

def alertMapping (name : String) (extra : List String) : EventMapping where
  source := "auth-service"
  name
  payload := DEST ++ ["ipAddress", "timestamp"] ++ extra

def membershipMapping (name : String) : EventMapping where
  source := "auth-service"
  name
  payload := DEST ++ ["organizationId", "timestamp"]

def EVENT_MAP : List EventMapping :=
  [codeMapping "member.contact_verification_requested" false, codeMapping "admin.operator_code_issued" true,
    codeMapping "admin.operator_confirmation_code_issued" true, alertMapping "admin.owner_recovery_requested" ["availableAt"],
    alertMapping "admin.owner_recovery_completed" [], alertMapping "admin.owner_login_from_new_device" [],
    membershipMapping "membership.approved", membershipMapping "membership.rejected", membershipMapping "membership.revoked"]

def CODE_BEARING_EVENTS : List String := (EVENT_MAP.filter fun m => m.payload.contains "code").map (·.name)

def mappingFor (source name : String) : Option EventMapping := EVENT_MAP.find? fun m => m.source == source && m.name == name

def mayKeepOriginal (parse : Parse) (event : Option (Envelope Payload)) (body : Body) : Bool :=
  match event with
  | none => false
  | some e =>
    isCanonicalJsonBody parse body && (match mappingFor e.source e.name with
      | none => false
      | some m => !CODE_BEARING_EVENTS.contains m.name && (parse body).any fun v => !carriesCode v.val)

def notificationDeadLetterPolicy (parse : Parse) (input : DeadLetterInput Payload) : Option DeadLetterDecision :=
  some {
    body := if mayKeepOriginal parse input.event input.body then .original else .redacted
    headers := replayHeaders input.event }

def REPLAY_DROPPED : List String := [failureHeader, failureReasonHeader, failureErrorHeader, failedAtHeader, consumerHeader]

def replayDeadLetter (target : String) (at_ : String) (found : Message) : Option Message :=
  if (found.headers bodyRedactedHeader).isSome then none
  else
    let h : Headers := fun k => if k ∈ REPLAY_DROPPED then none else withoutBrokerHistory found.headers k
    let replayCount := counter (h replayCountHeader) + 1
    some {
      exchange := ""
      routingKey := target
      userId := none
      messageId := found.messageId
      type := found.type
      contentType := found.contentType
      timestamp := found.timestamp
      headers := withNumber (withText (withNumber h replayCountHeader replayCount) replayedAtHeader at_) retryCountHeader 0
      content := found.content }

end NawaraCore.Events
