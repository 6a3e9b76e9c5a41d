import NawaraCore.Lib.Calendar
import NawaraCore.Lib.Json
import NawaraCore.Lib.Outcome

/-!
# The audit contract

The grammars, the sensitive-data checks and the validator of a received audit event,
over any catalog, and the screen that decides whether a refused body may be kept.
-/

namespace NawaraCore.Audit

abbrev Text := List Nat

def EVENT_NAME : Text → Bool := isDotted isLower wordChar

def MAX_ACTION_LENGTH : Nat := 100

def EVENT_TYPE_PREFIX : Text := codes "audit."

def UUID : Text → Bool := isUuid

def SERVICE_NAME : Text → Bool := isToken isLower (fun c => isLower c || isDigit c || oneOf "-" c) 1 62

def TYPE_CODE : Text → Bool := isToken isLower wordChar 0 63

def CHANGE_KEY : Text → Bool := isToken isLower wordChar 0 31

def CODE_VALUE : Text → Bool := isToken isLower (fun c => wordChar c || oneOf "." c) 0 63

def TOKEN_VALUE : Text → Bool := isToken isLower wordChar 0 63

def TIMESTAMP : Text → Bool := isTimestamp

def CORRELATION_ID : Text → Bool := isToken idChar idChar 7 127

def OCCURRED_AT (s : Text) : Bool := isTimestamp s || isShape (shapeOf "9999-99-99T99:99:99Z") s

def MAX_CHANGE_INTEGER : Int := 9007199254740991

def MAX_CHANGE_KEYS : Nat := 8

def MAX_CHANGES_JSONB_BYTES : Nat := 1024

def MAX_PAYLOAD_BYTES : Nat := 4096

def digitsAt (s : Text) (i n : Nat) : Nat := ((s.drop i).take n).foldl (fun a c => 10 * a + (c - 48)) 0

/-- The fields name a real instant: a `Date` made of them prints as they are. -/
def isRealInstant (s : Text) : Bool :=
  let month := digitsAt s 5 2
  let day := digitsAt s 8 2
  decide (1 ≤ month ∧ month ≤ 12) && decide (1 ≤ day ∧ (day : Int) ≤ Calendar.monthLength (digitsAt s 0 4 * 12 + month)) &&
    decide (digitsAt s 11 2 ≤ 23) && decide (digitsAt s 14 2 ≤ 59) && decide (digitsAt s 17 2 ≤ 59)

def isExactUtcTimestamp (value : Text) (grammar : Text → Bool) : Bool := grammar value && isRealInstant value

/-! ## Sensitive data -/

def lowerCase (c : Nat) : List Nat :=
  if isUpper c then [c + 32] else if c = 8490 then [107] else if c = 304 then [105, 775] else [c]

def includes (s fragment : Text) : Bool := s.tails.any fun t => fragment.isPrefixOf t

def FORBIDDEN_FRAGMENTS : List String :=
  ["password", "passwd", "passphrase", "secret", "token", "apikey", "authorization", "bearer", "cookie", "credential",
    "privatekey", "recoverycode", "resetcode", "ticket", "storagekey", "objectkey", "signedurl", "presigned", "cardnumber",
    "iban", "swift", "email", "phone", "msisdn", "ipaddress", "useragent", "fullname", "firstname", "lastname", "address",
    "birth", "assertion", "attestation", "hash", "salt", "nonce", "session"]

def FORBIDDEN_WORDS : List String :=
  ["otp", "pin", "pan", "cvv", "cvc", "ip", "jwt", "sid", "mfa", "totp", "key", "ua", "name", "dob"]

/-- A blank between a lower-case letter or a digit and the upper-case letter after it. -/
def camelSpaced : Text → Text
  | [] => []
  | [c] => [c]
  | c :: d :: ds => if (isLower c || isDigit c) && isUpper d then c :: 32 :: camelSpaced (d :: ds) else c :: camelSpaced (d :: ds)

def words (key : Text) : List Text :=
  (((camelSpaced key).splitOnP fun c => !isAlnum c).filter (· ≠ [])).map fun w => w.flatMap lowerCase

def isSensitiveKey (key : Text) : Bool :=
  let flat := (key.flatMap lowerCase).filter fun c => isLower c || isDigit c
  FORBIDDEN_FRAGMENTS.any (fun f => includes flat (codes f)) || (words key).any fun w => FORBIDDEN_WORDS.any fun f => w == codes f

def urlChar (c : Nat) : Bool := isAlnum c || oneOf "_-" c

def isHex (c : Nat) : Bool := isHexLower c || (decide (65 ≤ c) && decide (c ≤ 70))

def jwtLike (value : Text) : Bool :=
  let parts := value.splitOn 46
  decide (parts.length = 3) && parts.all fun p => decide (8 ≤ p.length) && p.all urlChar

/-- Every UUID, in either case, is a blank. The first argument counts the characters of one that are still to skip. -/
def withoutUuids : Nat → Text → Text
  | _, [] => []
  | n + 1, _ :: cs => withoutUuids n cs
  | 0, c :: cs =>
    if isShape ((shapeOf "hhhhhhhh-hhhh-hhhh-hhhh-hhhhhhhhhhhh").map fun p d => p d || (isHex d && p 48)) ((c :: cs).take 36)
    then 32 :: withoutUuids 35 cs else c :: withoutUuids 0 cs

def runsOf (p : Nat → Bool) (s : Text) : List Text := (s.splitOnP fun c => !p c).filter (· ≠ [])

def isSecretShaped (value : Text) : Bool :=
  let rest := withoutUuids 0 value
  jwtLike value || (runsOf isHex rest).any (fun r => decide (32 ≤ r.length)) ||
    (runsOf (fun c => isAlnum c || oneOf "+/_-" c) rest).any fun r => decide (32 ≤ r.length) &&
      ((r.any isDigit && r.any fun c => isLower c || isUpper c) || (r.any isLower && r.any isUpper))

inductive AuditCategory | security | business | commercial | administrative

inductive UserKind | member | owner | operator
  deriving DecidableEq

inductive AuditOutcome | succeeded | denied
  deriving DecidableEq

inductive ChangeType
  | code (values : List Text)
  | integer (min max : Int)
  | uuid | boolean | timestamp | token

inductive ChangeShape | value | transition

structure ChangeSpec where
  type : ChangeType
  shape : ChangeShape
  required : Bool

inductive OrganizationRule | required | none | optional | self | resource

inductive SubjectRule
  | forbidden
  | required (type : Text)
  | optional (type : Text)

inductive Level | required | optional
  deriving DecidableEq

structure ApprovalRule where
  required : Bool
  userKinds : List UserKind

structure CatalogEntry where
  producer : Text
  category : AuditCategory
  since : Nat
  users : Option (List UserKind)
  service : Bool
  system : Option (List Text)
  organization : OrganizationRule
  resource : List Text
  subject : SubjectRule
  outcomes : List AuditOutcome
  changes : List (Text × ChangeSpec)
  changes_nodup : (changes.map Prod.fst).Nodup
  company : Option Level
  platform : Option Level
  approval : Option ApprovalRule

abbrev Catalog := Text → Option CatalogEntry

/-! ## The canonical payload -/

inductive AuditRefusal
  | invalid_payload | payload_too_large | unknown_field | sensitive_field | sensitive_value | unknown_action | producer_not_admitted
  | event_type_mismatch | invalid_actor | invalid_organization | invalid_scope | invalid_live_mode | invalid_approval | invalid_resource
  | invalid_subject | invalid_outcome | invalid_changes | invalid_causation | invalid_correlation | invalid_envelope | unsupported_version

inductive AuditActor
  | user (id : Text) (userKind : UserKind)
  | service (id : Text)
  | system (id : Text)

@[ext] structure AuditReference where
  type : Text
  id : Text
  deriving DecidableEq

inductive ChangeScalar
  | str (s : Text)
  | int (n : Int)
  | bool (b : Bool)
  deriving DecidableEq

inductive ChangeValue
  | value (s : ChangeScalar)
  | transition («from» «to» : ChangeScalar)

abbrev Changes := List (Text × ChangeValue)

@[ext] structure UserReference where
  id : Text
  userKind : UserKind
  deriving DecidableEq

structure AuditPayload where
  action : Text
  actor : AuditActor
  organizationId : Option Text
  resource : AuditReference
  subject : Option AuditReference
  outcome : AuditOutcome
  changes : Option Changes
  causationId : Option Text
  companyId : Option Text
  platformId : Option Text
  liveMode : Option Bool
  approvedBy : Option UserReference

def UserKind.text : UserKind → Text
  | .member => codes "member"
  | .owner => codes "owner"
  | .operator => codes "operator"

def AuditOutcome.text : AuditOutcome → Text
  | .succeeded => codes "succeeded"
  | .denied => codes "denied"

def ChangeScalar.toJson : ChangeScalar → Json
  | .str s => .str s
  | .int n => .num (.int n)
  | .bool b => .bool b

def ChangeValue.toJson : ChangeValue → Json
  | .value s => s.toJson
  | .transition a b => .obj [(codes "from", a.toJson), (codes "to", b.toJson)]

def changesJson (c : Changes) : Json := .obj (c.map fun m => (m.1, m.2.toJson))

def AuditActor.toJson : AuditActor → Json
  | .user id kind => .obj [(codes "type", .str (codes "user")), (codes "id", .str id), (codes "userKind", .str kind.text)]
  | .service id => .obj [(codes "type", .str (codes "service")), (codes "id", .str id)]
  | .system id => .obj [(codes "type", .str (codes "system")), (codes "id", .str id)]

def AuditReference.toJson (r : AuditReference) : Json := .obj [(codes "type", .str r.type), (codes "id", .str r.id)]

def field {α : Type} (key : String) (v : Option α) (f : α → Json) : Members := (v.map fun a => (codes key, f a)).toList

def AuditPayload.members (p : AuditPayload) : Members :=
  [(codes "action", .str p.action), (codes "actor", p.actor.toJson),
    (codes "organizationId", p.organizationId.elim .null .str), (codes "resource", p.resource.toJson)] ++
  field "subject" p.subject AuditReference.toJson ++ [(codes "outcome", .str p.outcome.text)] ++
  field "changes" p.changes changesJson ++ field "causationId" p.causationId .str ++ field "companyId" p.companyId .str ++
  field "platformId" p.platformId .str ++ field "liveMode" p.liveMode .bool ++
  field "approvedBy" p.approvedBy fun a => (AuditActor.user a.id a.userKind).toJson

def AuditPayload.toJson (p : AuditPayload) : Json := .obj p.members

/-! ## The validator -/

def TOP_LEVEL : List Text := ["action", "actor", "organizationId", "resource", "subject", "outcome", "changes", "causationId"].map codes

def V2_FIELDS : List Text := ["companyId", "platformId", "liveMode", "approvedBy"].map codes

def MAX_KEYS_PER_OBJECT : Nat := 16

def MAX_DEPTH : Nat := 3

def refuse {α : Type} (code : AuditRefusal) : Except AuditRefusal α := .error code

def plainRecord : Json → Option Members
  | .obj members => some members
  | _ => none

def member (o : Members) (key : String) : Option Json := o.lookup (codes key)

def textOf : Option Json → Option Text
  | some (.str s) => some s
  | _ => none

def finite : JsNumber → Bool
  | .int _ => true
  | .other _ f => f

mutual
def scan : Json → Nat → Except AuditRefusal Unit
  | .str s, _ => if isSecretShaped s then .error .sensitive_value else .ok ()
  | .num n, _ => if finite n = false then .error .invalid_payload else .ok ()
  | .bool _, _ | .null, _ => .ok ()
  | .arr items, depth =>
    if MAX_KEYS_PER_OBJECT < items.length ∨ MAX_DEPTH ≤ depth then .error .invalid_payload else scanItems items (depth + 1)
  | .obj members, depth =>
    if MAX_KEYS_PER_OBJECT < members.length then .error .unknown_field
    else if members.any (fun m => isSensitiveKey m.1) then .error .sensitive_field
    else if MAX_DEPTH ≤ depth ∧ members ≠ [] then .error .invalid_payload
    else scanMembers members (depth + 1)

def scanItems : List Json → Nat → Except AuditRefusal Unit
  | [], _ => .ok ()
  | j :: js, depth => scan j depth >>= fun _ => scanItems js depth

def scanMembers : Members → Nat → Except AuditRefusal Unit
  | [], _ => .ok ()
  | (_, j) :: ms, depth => scan j depth >>= fun _ => scanMembers ms depth
end

def onlyKeys (o : Members) (allowed : List Text) : Bool := o.all fun m => allowed.contains m.1

def userKindOf (v : Option Json) : Option UserKind :=
  (textOf v).bind fun s => [UserKind.member, .owner, .operator].find? fun k => k.text == s

def outcomeOf (v : Option Json) : Option AuditOutcome :=
  (textOf v).bind fun s => [AuditOutcome.succeeded, .denied].find? fun k => k.text == s

def actorKeys : List Text := ["type", "id", "userKind"].map codes

def referenceKeys : List Text := ["type", "id"].map codes

def actorOf (v : Option Json) (entry : CatalogEntry) : Except AuditRefusal AuditActor :=
  match v.bind plainRecord with
  | none => refuse .invalid_actor
  | some a =>
    if textOf (member a "type") = some (codes "user") then
      if onlyKeys a actorKeys = false then refuse .unknown_field
      else match entry.users, textOf (member a "id"), userKindOf (member a "userKind") with
        | some kinds, some id, some kind =>
          if UUID id = false then refuse .invalid_actor
          else if kind ∉ kinds then refuse .invalid_actor
          else .ok (.user id kind)
        | _, _, _ => refuse .invalid_actor
    else if textOf (member a "type") = some (codes "service") then
      if onlyKeys a referenceKeys = false then refuse .unknown_field
      else if entry.service = false then refuse .invalid_actor
      else match textOf (member a "id") with
        | some id => if SERVICE_NAME id = false then refuse .invalid_actor else .ok (.service id)
        | none => refuse .invalid_actor
    else if textOf (member a "type") = some (codes "system") then
      if onlyKeys a referenceKeys = false then refuse .unknown_field
      else match entry.system, textOf (member a "id") with
        | some processes, some id => if TYPE_CODE id = false ∨ id ∉ processes then refuse .invalid_actor else .ok (.system id)
        | _, _ => refuse .invalid_actor
    else refuse .invalid_actor

def referenceOf (v : Option Json) (types : List Text) (code : AuditRefusal) : Except AuditRefusal AuditReference :=
  match v.bind plainRecord with
  | none => refuse code
  | some r =>
    if onlyKeys r referenceKeys = false then refuse .unknown_field
    else match textOf (member r "type"), textOf (member r "id") with
      | some type, some id =>
        if TYPE_CODE type = false ∨ type ∉ types then refuse code
        else if UUID id = false then refuse code
        else .ok { type, id }
      | _, _ => refuse code

def organizationIdOf : Json → Except AuditRefusal (Option Text)
  | .null => .ok none
  | .str s => if UUID s = false then refuse .invalid_organization else .ok (some s)
  | _ => refuse .invalid_organization

def organizationOf (o : Members) (entry : CatalogEntry) (resource : AuditReference) : Except AuditRefusal (Option Text) :=
  match member o "organizationId" with
  | none => refuse .invalid_organization
  | some v => do
    let org ← organizationIdOf v
    match entry.organization with
    | .required => if org = none then refuse .invalid_organization else .ok org
    | .none => if org ≠ none then refuse .invalid_organization else .ok org
    | .optional => .ok org
    | .self => if org ≠ some resource.id then refuse .invalid_organization else .ok org
    | .resource =>
      if org ≠ (if resource.type = codes "organization" then some resource.id else none) then refuse .invalid_organization else .ok org

def scopeField (o : Members) (key : String) (level : Option Level) (kind : String) (resource : AuditReference) : Except AuditRefusal (Option Text) :=
  match member o key with
  | none => if level = some .required then refuse .invalid_scope else .ok none
  | some v => match textOf (some v) with
    | none => refuse .invalid_scope
    | some s =>
      if level = none ∨ UUID s = false then refuse .invalid_scope
      else if resource.type = codes kind ∧ resource.id ≠ s then refuse .invalid_scope
      else .ok (some s)

def scopeOf (o : Members) (entry : CatalogEntry) (resource : AuditReference) (organizationId : Option Text) :
    Except AuditRefusal (Option Text × Option Text) := do
  let companyId ← scopeField o "companyId" entry.company "company" resource
  let platformId ← scopeField o "platformId" entry.platform "platform" resource
  let ids := companyId.toList ++ platformId.toList ++ organizationId.toList
  if ¬ ids.Nodup then refuse .invalid_scope else .ok (companyId, platformId)

def approvalOf (o : Members) (entry : CatalogEntry) : Except AuditRefusal (Option UserReference) :=
  match member o "approvedBy" with
  | none => if entry.approval.any (·.required) then refuse .invalid_approval else .ok none
  | some v => match entry.approval, plainRecord v with
    | some rule, some a =>
      if onlyKeys a actorKeys = false then refuse .invalid_approval
      else if textOf (member a "type") ≠ some (codes "user") then refuse .invalid_approval
      else match textOf (member a "id"), userKindOf (member a "userKind") with
        | some id, some kind =>
          if UUID id = false ∨ kind ∉ rule.userKinds then refuse .invalid_approval else .ok (some { id, userKind := kind })
        | _, _ => refuse .invalid_approval
    | _, _ => refuse .invalid_approval

def scalarOf (v : Json) (spec : ChangeSpec) : Except AuditRefusal ChangeScalar :=
  match spec.type, v with
  | .code values, .str s => if CODE_VALUE s = false ∨ s ∉ values then refuse .invalid_changes else .ok (.str s)
  | .uuid, .str s => if UUID s = false then refuse .invalid_changes else .ok (.str s)
  | .boolean, .bool b => .ok (.bool b)
  | .integer lo hi, .num (.int n) =>
    if MAX_CHANGE_INTEGER < n ∨ n < -MAX_CHANGE_INTEGER ∨ n < lo ∨ hi < n then refuse .invalid_changes else .ok (.int n)
  | .timestamp, .str s => if isExactUtcTimestamp s TIMESTAMP = false then refuse .invalid_changes else .ok (.str s)
  | .token, .str s => if TOKEN_VALUE s = false then refuse .invalid_changes else .ok (.str s)
  | _, _ => refuse .invalid_changes

mutual
/-- The byte length of `value::text` when every string is plain. -/
def jsonbTextLength : Json → Nat
  | .str s => s.length + 2
  | .num n => (Json.numberText n).length
  | .bool b => if b then 4 else 5
  | .null => 4
  | .arr items => if items = [] then 2 else 2 + itemsLength items 0 + 2 * (items.length - 1)
  | .obj members => if members = [] then 2 else 2 + membersLength members + 2 * (members.length - 1)

def itemsLength : List Json → Nat → Nat
  | [], _ => 0
  | j :: js, i => (toString i).length + 2 + 2 + jsonbTextLength j + itemsLength js (i + 1)

def membersLength : Members → Nat
  | [] => 0
  | (k, j) :: ms => k.length + 2 + 2 + jsonbTextLength j + membersLength ms
end

def changeOf (c : Members) (declared : Text × ChangeSpec) : Except AuditRefusal (Option (Text × ChangeValue)) :=
  match c.lookup declared.1 with
  | none => if declared.2.required then refuse .invalid_changes else .ok none
  | some raw => match declared.2.shape with
    | .value => do
      let s ← scalarOf raw declared.2
      return some (declared.1, .value s)
    | .transition => match plainRecord raw with
      | none => refuse .invalid_changes
      | some t => match t.length, member t "from", member t "to" with
        | 2, some a, some b => do
          let a ← scalarOf a declared.2
          let b ← scalarOf b declared.2
          if a = b then refuse .invalid_changes else return some (declared.1, .transition a b)
        | _, _, _ => refuse .invalid_changes

def changesOf (v : Option Json) (entry : CatalogEntry) : Except AuditRefusal (Option Changes) :=
  match v with
  | none => if entry.changes.any (·.2.required) then refuse .invalid_changes else .ok none
  | some v => match plainRecord v with
    | none => refuse .invalid_changes
    | some c =>
      if c = [] ∨ MAX_CHANGE_KEYS < c.length then refuse .invalid_changes
      else if c.any fun m => !CHANGE_KEY m.1 || !(entry.changes.map Prod.fst).contains m.1 then refuse .invalid_changes
      else do
        let out ← entry.changes.mapM (changeOf c)
        let out := out.filterMap id
        if MAX_CHANGES_JSONB_BYTES < jsonbTextLength (changesJson out) then refuse .invalid_changes else .ok (some out)

def subjectOf (o : Members) (entry : CatalogEntry) : Except AuditRefusal (Option AuditReference) :=
  match member o "subject", entry.subject with
  | some _, .forbidden => refuse .invalid_subject
  | some v, .required type | some v, .optional type => (referenceOf (some v) [type] .invalid_subject).map some
  | none, .required _ => refuse .invalid_subject
  | none, _ => .ok none

def validOutcome (o : Members) (entry : CatalogEntry) : Except AuditRefusal AuditOutcome :=
  match outcomeOf (member o "outcome") with
  | some outcome => if outcome ∈ entry.outcomes then .ok outcome else refuse .invalid_outcome
  | none => refuse .invalid_outcome

def causationOf (o : Members) : Except AuditRefusal (Option Text) :=
  match member o "causationId" with
  | none => .ok none
  | some v => match textOf (some v) with
    | some s => if UUID s = false then refuse .invalid_causation else .ok (some s)
    | none => refuse .invalid_causation

def liveModeOf (o : Members) : Except AuditRefusal (Option Bool) :=
  match member o "liveMode" with
  | none => .ok none
  | some (.bool b) => .ok (some b)
  | some _ => refuse .invalid_live_mode

def entryFor (entryOf : Catalog) (o : Members) (sourceService : Text) : Except AuditRefusal (Text × CatalogEntry) :=
  match textOf (member o "action") with
  | none => refuse .unknown_action
  | some action =>
    if MAX_ACTION_LENGTH < action.length ∨ EVENT_NAME action = false then refuse .unknown_action
    else match entryOf action with
      | none => refuse .unknown_action
      | some entry =>
        if SERVICE_NAME sourceService = false ∨ entry.producer ≠ sourceService then refuse .producer_not_admitted else .ok (action, entry)

def allowedKeys (version : Int) : List Text := if 2 ≤ version then TOP_LEVEL ++ V2_FIELDS else TOP_LEVEL

def validateAuditPayloadWith (entryOf : Catalog) (input : Json) (sourceService : Text) (version : Int) : Except AuditRefusal AuditPayload :=
  match plainRecord input with
  | none => refuse .invalid_payload
  | some o => do
    scan input 0
    if onlyKeys o (allowedKeys version) = false then refuse .unknown_field
    else do
      let (action, entry) ← entryFor entryOf o sourceService
      let actor ← actorOf (member o "actor") entry
      let resource ← referenceOf (member o "resource") entry.resource .invalid_resource
      let organizationId ← organizationOf o entry resource
      let subject ← subjectOf o entry
      let outcome ← validOutcome o entry
      let changes ← changesOf (member o "changes") entry
      let causationId ← causationOf o
      let scope ← scopeOf o entry resource organizationId
      let approvedBy ← approvalOf o entry
      let liveMode ← liveModeOf o
      let payload : AuditPayload := {
        action
        actor
        organizationId
        resource
        subject
        outcome
        changes
        causationId
        companyId := scope.1
        platformId := scope.2
        liveMode
        approvedBy }
      if MAX_PAYLOAD_BYTES < payload.toJson.stringify.length then refuse .payload_too_large else .ok payload

/-! ## The envelope -/

/-- A received envelope: each part may be any value, and an absent part is `null`. -/
structure AuditEnvelopeInput where
  id : Json
  name : Json
  payload : JsonValue
  headers : Json

structure ValidatedAuditEvent where
  eventId : Text
  eventType : Text
  sourceService : Text
  category : AuditCategory
  schemaVersion : Int
  occurredAt : Text
  correlationId : Option Text
  payload : AuditPayload

def integerOf : Option Json → Option Int
  | some (.num (.int n)) => some n
  | _ => none

def correlationOf (v : Option Json) : Except AuditRefusal (Option Text) :=
  match v with
  | none | some .null => .ok none
  | some (.str s) => if CORRELATION_ID s = false then refuse .invalid_correlation else .ok (some s)
  | some _ => refuse .invalid_correlation

structure EnvelopeFacts where
  id : Text
  source : Text
  occurredAt : Text
  version : Int
  correlationId : Option Text

def envelopeFacts (event : AuditEnvelopeInput) : Except AuditRefusal EnvelopeFacts :=
  match plainRecord event.headers with
  | none => refuse .invalid_envelope
  | some headers =>
    match textOf (some event.id) with
    | none => refuse .invalid_envelope
    | some id =>
      if UUID id = false ∨ textOf (member headers "eventId") ≠ some id then refuse .invalid_envelope
      else match textOf (member headers "source") with
        | none => refuse .invalid_envelope
        | some source =>
          if SERVICE_NAME source = false then refuse .invalid_envelope
          else match textOf (member headers "occurredAt") with
            | none => refuse .invalid_envelope
            | some occurredAt =>
              if isExactUtcTimestamp occurredAt OCCURRED_AT = false then refuse .invalid_envelope
              else match integerOf (member headers "version") with
                | none => refuse .unsupported_version
                | some version =>
                  if version ≠ 1 ∧ version ≠ 2 then refuse .unsupported_version
                  else do
                    let correlationId ← correlationOf (member headers "correlationId")
                    return { id, source, occurredAt, version, correlationId }

def validateAuditEvent (entryOf : Catalog) (event : AuditEnvelopeInput) : Except AuditRefusal ValidatedAuditEvent := do
  let e ← envelopeFacts event
  match textOf (some event.name) with
  | none => refuse .event_type_mismatch
  | some name =>
    if EVENT_TYPE_PREFIX.isPrefixOf name = false then refuse .event_type_mismatch
    -- a version-1 event of an action of version 2 is refused for its version, before its payload is judged
    else if (entryOf (name.drop EVENT_TYPE_PREFIX.length)).any (fun entry => decide (e.version < entry.since)) then refuse .unsupported_version
    else do
      let payload ← validateAuditPayloadWith entryOf event.payload.val e.source e.version
      if name ≠ EVENT_TYPE_PREFIX ++ payload.action then refuse .event_type_mismatch
      else if payload.causationId = some e.id then refuse .invalid_causation
      else match entryOf payload.action with
        | none => refuse .unknown_action
        | some entry =>
          if e.version < entry.since then refuse .unsupported_version
          else return {
            eventId := e.id
            eventType := name
            sourceService := e.source
            category := entry.category
            schemaVersion := e.version
            occurredAt := e.occurredAt
            correlationId := e.correlationId
            payload }

/-! ## The screen of refused bodies -/

def MAX_VERSION : Int := 1000

def stringThat (p : Text → Bool) (v : Option Json) : Bool := (textOf v).any p

def optionally (p : Json → Bool) (v : Option Json) : Bool := v.all p

def screenCorrelation : Option Json → Bool
  | none | some .null => true
  | v => stringThat CORRELATION_ID v

def envelopeIsTokens (event : AuditEnvelopeInput) : Bool :=
  match plainRecord event.headers with
  | none => false
  | some h =>
    stringThat UUID (some event.id) && decide (textOf (member h "eventId") = textOf (some event.id)) &&
    stringThat SERVICE_NAME (member h "source") && stringThat OCCURRED_AT (member h "occurredAt") &&
    (integerOf (member h "version")).any (fun n => decide (1 ≤ n ∧ n ≤ MAX_VERSION)) && screenCorrelation (member h "correlationId") &&
    stringThat (fun s => EVENT_TYPE_PREFIX.isPrefixOf s && EVENT_NAME s && decide (s.length ≤ EVENT_TYPE_PREFIX.length + MAX_ACTION_LENGTH))
      (some event.name)

def screenReference (v : Json) : Bool :=
  match plainRecord v with
  | none => false
  | some r => onlyKeys r referenceKeys && stringThat TYPE_CODE (member r "type") && stringThat UUID (member r "id")

def isActorType (s : Text) : Bool := ["user", "service", "system"].any fun t => s == codes t

def screenActor (v : Json) : Bool :=
  match plainRecord v with
  | none => false
  | some a =>
    onlyKeys a actorKeys && stringThat isActorType (member a "type") &&
    stringThat (fun s => UUID s || SERVICE_NAME s || TYPE_CODE s) (member a "id") &&
    optionally (fun v => (userKindOf (some v)).isSome) (member a "userKind")

def screenScalar : Json → Bool
  | .bool _ => true
  | .num (.int n) => decide (-MAX_CHANGE_INTEGER ≤ n ∧ n ≤ MAX_CHANGE_INTEGER)
  | .str s => CODE_VALUE s || UUID s || TIMESTAMP s
  | _ => false

def screenChange (v : Json) : Bool :=
  match plainRecord v with
  | none => screenScalar v
  | some t => onlyKeys t (["from", "to"].map codes) && decide (t.length = 2) && (member t "from").any screenScalar && (member t "to").any screenScalar

def screenChanges (v : Json) : Bool :=
  match plainRecord v with
  | none => false
  | some c => decide (c ≠ []) && decide (c.length ≤ MAX_CHANGE_KEYS) && c.all fun m => CHANGE_KEY m.1 && screenChange m.2

def nullOrUuid : Json → Bool
  | .null => true
  | v => stringThat UUID (some v)

def isBoolean : Json → Bool
  | .bool _ => true
  | _ => false

def payloadIsTokens (payload : Json) : Bool :=
  match plainRecord payload with
  | none => false
  | some o =>
    (scan payload 0).isOk && onlyKeys o (TOP_LEVEL ++ V2_FIELDS) &&
    stringThat (fun s => decide (s.length ≤ MAX_ACTION_LENGTH) && EVENT_NAME s) (member o "action") &&
    optionally screenActor (member o "actor") && optionally nullOrUuid (member o "organizationId") &&
    optionally screenReference (member o "resource") && optionally screenReference (member o "subject") &&
    optionally (fun v => (outcomeOf (some v)).isSome) (member o "outcome") && optionally screenChanges (member o "changes") &&
    optionally (fun v => stringThat UUID (some v)) (member o "causationId") && optionally (fun v => stringThat UUID (some v)) (member o "companyId") &&
    optionally (fun v => stringThat UUID (some v)) (member o "platformId") && optionally isBoolean (member o "liveMode") &&
    optionally screenActor (member o "approvedBy") && decide (payload.stringify.length ≤ MAX_PAYLOAD_BYTES)

def mayRetainRefusedAuditBody (event : Option AuditEnvelopeInput) : Bool :=
  event.any fun e => envelopeIsTokens e && payloadIsTokens e.payload.val

end NawaraCore.Audit
