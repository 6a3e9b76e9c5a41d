import NawaraCore.Audit.Contract
import NawaraCore.Events.DeadLetterPolicy

/-!
# The audit consumer's admission and dead-letter policy
-/

namespace NawaraCore.Audit

open Events

def inputOf (e : Envelope JsonValue) : AuditEnvelopeInput where
  id := .str (codes e.id)
  name := .str (codes e.name)
  payload := e.payload
  headers := .obj ([(codes "eventId", .str (codes e.id)), (codes "occurredAt", .str (codes e.occurredAt))] ++
    field "correlationId" e.correlationId (fun c => .str (codes c)) ++ [(codes "source", .str (codes e.source)),
    (codes "version", .num (match e.version with
      | some n => .int n
      | none => .other (codes "NaN") false))])

def auditDeadLetterPolicy (parse : Parse) (input : DeadLetterInput JsonValue) : Option DeadLetterDecision :=
  some {
    body := if isCanonicalJsonBody parse input.body && mayRetainRefusedAuditBody (input.event.map inputOf) then .original else .redacted
    headers := replayHeaders input.event }

def SERVICE_NAME_OWN : String := "audit-service"

def AuditRefusal.text : AuditRefusal → String
  | .invalid_payload => "invalid_payload"
  | .payload_too_large => "payload_too_large"
  | .unknown_field => "unknown_field"
  | .sensitive_field => "sensitive_field"
  | .sensitive_value => "sensitive_value"
  | .unknown_action => "unknown_action"
  | .producer_not_admitted => "producer_not_admitted"
  | .event_type_mismatch => "event_type_mismatch"
  | .invalid_actor => "invalid_actor"
  | .invalid_organization => "invalid_organization"
  | .invalid_scope => "invalid_scope"
  | .invalid_live_mode => "invalid_live_mode"
  | .invalid_approval => "invalid_approval"
  | .invalid_resource => "invalid_resource"
  | .invalid_subject => "invalid_subject"
  | .invalid_outcome => "invalid_outcome"
  | .invalid_changes => "invalid_changes"
  | .invalid_causation => "invalid_causation"
  | .invalid_correlation => "invalid_correlation"
  | .invalid_envelope => "invalid_envelope"
  | .unsupported_version => "unsupported_version"

def contractRefusal (entryOf : Catalog) (event : AuditEnvelopeInput) : Option String :=
  match validateAuditEvent entryOf event with
  | .ok _ => none
  | .error code => some code.text

def auditAdmission (entryOf : Catalog) (parse : Parse) (event : Envelope JsonValue) (body : Body) : EventAdmission :=
  if isCanonicalJsonBody parse body = false then .refused "noncanonical_body"
  else if mayRetainRefusedAuditBody (some (inputOf event)) = false then
    .refused ((contractRefusal entryOf (inputOf event)).getD "confidentiality_screen")
  else match contractRefusal entryOf (inputOf event) with
    | some refusal => .refused refusal
    | none => if event.source = SERVICE_NAME_OWN then .refused "producer_not_admitted" else .admitted

end NawaraCore.Audit
