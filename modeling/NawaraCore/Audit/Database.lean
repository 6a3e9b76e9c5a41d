import NawaraCore.Audit.Contract

/-!
# The audit database

The record an accepted event is stored as, the constraints of its table, and the one
statement that stores it with its trusted scope.
-/

namespace NawaraCore.Audit

structure DeliveryAssessment where
  producerIdentityVerified : Bool
  replayed : Bool

structure NewAuditRecord where
  eventId : Text
  sourceService : Text
  action : Text
  category : AuditCategory
  schemaVersion : Int
  actor : AuditActor
  organizationId : Option Text
  resource : AuditReference
  subject : Option AuditReference
  outcome : AuditOutcome
  changes : Option Changes
  correlationId : Option Text
  causationId : Option Text
  occurredAt : Text
  companyId : Option Text
  platformId : Option Text
  liveMode : Option Bool
  approvedBy : Option UserReference
  delivery : Option DeliveryAssessment

def toNewAuditRecord (event : ValidatedAuditEvent) (delivery : Option DeliveryAssessment) : NewAuditRecord where
  eventId := event.eventId
  sourceService := event.sourceService
  action := event.payload.action
  category := event.category
  schemaVersion := event.schemaVersion
  actor := event.payload.actor
  organizationId := event.payload.organizationId
  resource := event.payload.resource
  subject := event.payload.subject
  outcome := event.payload.outcome
  changes := event.payload.changes
  correlationId := event.correlationId
  causationId := event.payload.causationId
  occurredAt := event.occurredAt
  companyId := event.payload.companyId
  platformId := event.payload.platformId
  liveMode := event.payload.liveMode
  approvedBy := event.payload.approvedBy
  delivery

def instantOf (s : Text) : Option Int :=
  if isExactUtcTimestamp s OCCURRED_AT then
    let days := Calendar.monthStart (digitsAt s 0 4 * 12 + digitsAt s 5 2) + (digitsAt s 8 2 - 1 : Int)
    some (((days * 24 + digitsAt s 11 2) * 60 + digitsAt s 14 2) * 60000 + digitsAt s 17 2 * 1000 + digitsAt s 20 3)
  else none

structure AuditRecordRow where
  id : Nat
  eventId : Text
  sourceService : Text
  action : Text
  category : Text
  schemaVersion : Int
  actorType : Text
  actorId : Text
  userKind : Option Text
  organizationId : Option Text
  resourceType : Text
  resourceId : Text
  subjectType : Option Text
  subjectId : Option Text
  outcome : Text
  changes : Option Json
  correlationId : Option Text
  causationId : Option Text
  occurredAt : Int
  companyId : Option Text
  platformId : Option Text
  liveMode : Option Bool
  producerIdentityVerified : Option Bool
  replayed : Option Bool
  approvedByUserId : Option Text
  approvedByUserKind : Option Text

def AuditCategory.text : AuditCategory → Text
  | .security => codes "security"
  | .business => codes "business"
  | .commercial => codes "commercial"
  | .administrative => codes "administrative"

def AuditActor.type : AuditActor → Text
  | .user .. => codes "user"
  | .service _ => codes "service"
  | .system _ => codes "system"

def AuditActor.id : AuditActor → Text
  | .user id _ | .service id | .system id => id

def AuditActor.userKind : AuditActor → Option Text
  | .user _ kind => some kind.text
  | .service _ | .system _ => none

def rowOf (id : Nat) (r : NewAuditRecord) (occurredAt : Int) : AuditRecordRow where
  id
  eventId := r.eventId
  sourceService := r.sourceService
  action := r.action
  category := r.category.text
  schemaVersion := r.schemaVersion
  actorType := r.actor.type
  actorId := r.actor.id
  userKind := r.actor.userKind
  organizationId := r.organizationId
  resourceType := r.resource.type
  resourceId := r.resource.id
  subjectType := r.subject.map (·.type)
  subjectId := r.subject.map (·.id)
  outcome := r.outcome.text
  changes := r.changes.map changesJson
  correlationId := r.correlationId
  causationId := r.causationId
  occurredAt
  companyId := r.companyId
  platformId := r.platformId
  liveMode := r.liveMode
  producerIdentityVerified := r.delivery.map (·.producerIdentityVerified)
  replayed := r.delivery.map (·.replayed)
  approvedByUserId := r.approvedBy.map (·.id)
  approvedByUserKind := r.approvedBy.map (·.userKind.text)

/-! ## Constraints -/

def octetLength (text : Text) : Nat := (Json.utf8 text).length

def scalarChar (c : Nat) : Bool := isAlnum c || oneOf "._:+-" c

def referenceId : Text → Bool := isToken idChar idChar 0 127

def oneOfTexts (values : List String) (s : Text) : Bool := values.any fun v => s == codes v

/-- `numeric` values are exact, so an integer is one whose text is; other numbers are stored by no accepted change. -/
def audit_change_scalar_valid : Json → Bool
  | .str s => isToken scalarChar scalarChar 0 63 s
  | .num (.int n) => decide (-MAX_CHANGE_INTEGER ≤ n ∧ n ≤ MAX_CHANGE_INTEGER)
  | .bool _ | .null => true
  | _ => false

def audit_change_valid : Json → Bool
  | .obj members => decide (members.length = 2) && (member members "from").any audit_change_scalar_valid &&
      (member members "to").any audit_change_scalar_valid
  | v => audit_change_scalar_valid v

def audit_changes_valid : Json → Bool
  | .obj members => decide (octetLength (Json.jsonbText (.obj members)) ≤ 1024) && decide (1 ≤ members.length ∧ members.length ≤ 8) &&
      members.all fun m => isToken isLower wordChar 0 31 m.1 && audit_change_valid m.2
  | _ => false

namespace AuditRecordRow

variable (r : AuditRecordRow)

def source_shape : Bool := isToken isLower (fun c => isLower c || isDigit c || oneOf "-" c) 1 62 r.sourceService

def action_shape : Bool := decide (r.action.length ≤ 100) && isDotted isLower wordChar r.action

def category_valid : Bool := oneOfTexts ["security", "business", "commercial", "administrative"] r.category

def schema_version_bounded : Bool := decide (1 ≤ r.schemaVersion ∧ r.schemaVersion ≤ 1000)

def actor_type_valid : Bool := oneOfTexts ["user", "service", "system"] r.actorType

def actor_consistent : Bool :=
  (r.actorType == codes "user" && isUuid r.actorId && r.userKind.any (oneOfTexts ["member", "owner", "operator"])) ||
  (r.actorType == codes "service" && isToken isLower (fun c => isLower c || isDigit c || oneOf "-" c) 1 62 r.actorId && r.userKind.isNone) ||
  (r.actorType == codes "system" && isToken isLower wordChar 0 63 r.actorId && r.userKind.isNone)

def resource_shape : Bool := isToken isLower wordChar 0 63 r.resourceType && referenceId r.resourceId

def subject_shape : Bool :=
  (r.subjectType.isNone && r.subjectId.isNone) || (r.subjectType.any (isToken isLower wordChar 0 63) && r.subjectId.any referenceId)

def outcome_valid : Bool := oneOfTexts ["succeeded", "denied"] r.outcome

def changes_valid : Bool := r.changes.all audit_changes_valid

def correlation_shape : Bool := r.correlationId.all (isToken idChar idChar 7 127)

def causation_not_self : Bool := decide (r.causationId ≠ some r.eventId)

/-- The range of `timestamptz`, in which every instant is finite: from 4713 BC to 294276 AD. -/
def occurred_finite : Bool := decide (-210866803200000 ≤ r.occurredAt ∧ r.occurredAt < 9224318016000000)

def v2_fields_need_v2 : Bool := decide (2 ≤ r.schemaVersion) || (r.companyId.isNone && r.platformId.isNone && r.liveMode.isNone)

def apart (a b : Option Text) : Bool := a.isNone || b.isNone || decide (a ≠ b)

def scope_levels_distinct : Bool :=
  apart r.companyId r.platformId && apart r.companyId r.organizationId && apart r.platformId r.organizationId

def replayed_needs_assessment : Bool := r.replayed.isNone || r.producerIdentityVerified.isSome

def approved_by_valid : Bool :=
  (r.approvedByUserId.isNone && r.approvedByUserKind.isNone) ||
  (decide (2 ≤ r.schemaVersion) && r.approvedByUserId.isSome && r.approvedByUserKind.any (oneOfTexts ["member", "owner", "operator"]))

/-- The columns of type `uuid` take their text. -/
def uuids_valid : Bool :=
  isUuid r.eventId && r.organizationId.all isUuid && r.causationId.all isUuid && r.companyId.all isUuid && r.platformId.all isUuid &&
    r.approvedByUserId.all isUuid

def checks : Bool :=
  r.uuids_valid && r.source_shape && r.action_shape && r.category_valid && r.schema_version_bounded && r.actor_type_valid &&
    r.actor_consistent && r.resource_shape && r.subject_shape && r.outcome_valid && r.changes_valid && r.correlation_shape &&
    r.causation_not_self && r.occurred_finite && r.v2_fields_need_v2 && r.scope_levels_distinct && r.replayed_needs_assessment &&
    r.approved_by_valid

end AuditRecordRow

/-- A row of `audit_record_scope`, of the basis `verified_producer`. -/
structure AuditScopeRow where
  recordId : Nat
  companyId : Option Text
  platformId : Option Text

structure AuditDb where
  records : List AuditRecordRow
  scopes : List AuditScopeRow
  nextId : Nat

inductive InsertOutcome
  | inserted (record : AuditRecordRow)
  | duplicate (existing : AuditRecordRow)

inductive AuditPersistenceError | invalid_record

def AuditRecordRow.isOf (sourceService eventId : Text) (r : AuditRecordRow) : Bool := r.sourceService == sourceService && r.eventId == eventId

/-- The insert-time proof of a scope row: its record is of this transaction, verified, and asserts exactly these ids. -/
def audit_record_scope_guard (record : AuditRecordRow) (scope : AuditScopeRow) : Bool :=
  decide (scope.recordId = record.id) && decide (record.producerIdentityVerified = some true) &&
    decide (scope.companyId = record.companyId) && decide (scope.platformId = record.platformId)

def audit_record_scope_not_empty (scope : AuditScopeRow) : Bool := scope.companyId.isSome || scope.platformId.isSome

/-- The record unless its source and event id are stored, with its scope row when the producer was verified and asserted one. -/
def insertOnce (db : AuditDb) (r : NewAuditRecord) : Except AuditPersistenceError (AuditDb × InsertOutcome) :=
  match instantOf r.occurredAt with
  | none => .error .invalid_record
  | some occurredAt =>
    let row := rowOf db.nextId r occurredAt
    if row.checks = false then .error .invalid_record
    else match db.records.find? (AuditRecordRow.isOf r.sourceService r.eventId) with
      | some existing => .ok (db, .duplicate existing)
      | none =>
        let trustedScope := decide (r.delivery.map (·.producerIdentityVerified) = some true) && (r.companyId.isSome || r.platformId.isSome)
        let scope : AuditScopeRow := { recordId := row.id, companyId := row.companyId, platformId := row.platformId }
        if trustedScope && !(audit_record_scope_guard row scope && audit_record_scope_not_empty scope) then .error .invalid_record
        else .ok ({
          records := db.records ++ [row]
          scopes := if trustedScope then db.scopes ++ [scope] else db.scopes
          nextId := db.nextId + 1 }, .inserted row)

end NawaraCore.Audit
