import NawaraCore.Audit.Database
import NawaraCore.Audit.DeadLetterPolicy

/-!
# The ingestion of audit events

The handler of one delivery: the checks before its insert, the one statement that stores
its record, and the comparison of a duplicate with what is stored. Deliveries run side by
side, each statement committing by itself.
-/

namespace NawaraCore.Audit

open Events

def deliveryAssessment : Option TrustDecision → Option DeliveryAssessment
  | some (.accept basis _) => some { producerIdentityVerified := true, replayed := replays basis }
  | some (.compatibility basis) | some (.refuse basis) => some { producerIdentityVerified := false, replayed := replays basis }
  | some .hold => some { producerIdentityVerified := false, replayed := replays .provenance_unavailable }
  | none => none
where
  replays (basis : TrustBasis) : Bool := [TrustBasis.verified_replay, .unverified_replay, .replay_no_provenance].contains basis

def untrustedReason (mode : EnforcementPolicy) (event : Envelope JsonValue) (trust : Option TrustDecision) : Option String :=
  match trust with
  | some (.compatibility _) => if mode = .audit_compatibility then none else some "untrusted_no_decision"
  | some (.accept _ o) =>
    if o.eventId = event.id ∧ o.source = event.source ∧ o.name = event.name then none else some "untrusted_origin_mismatch"
  | _ => some "untrusted_no_decision"

structure IngestConfig where
  entryOf : Catalog
  mode : EnforcementPolicy
  isProduction : Bool

def candidateOf (cfg : IngestConfig) (event : Envelope JsonValue) (trust : Option TrustDecision) : Except String NewAuditRecord :=
  match untrustedReason cfg.mode event trust with
  | some reason => .error reason
  | none => match validateAuditEvent cfg.entryOf (inputOf event) with
    | .error code => .error code.text
    | .ok validated =>
      -- the service's own action is never delivered over the bus
      if validated.sourceService = codes SERVICE_NAME_OWN then .error "producer_not_admitted"
      else if cfg.isProduction ∧ validated.payload.liveMode = some false then .error "non_live_record"
      else .ok (toNewAuditRecord validated (deliveryAssessment trust))

def canonicalJson (v : Json) : Text := v.sortKeys.stringify

/-- Whether a stored record carries exactly the evidence of the candidate. The delivery facts are not evidence. -/
def sameEvidence (stored : AuditRecordRow) (candidate : NewAuditRecord) : Bool :=
  decide (stored.eventId = candidate.eventId) && decide (stored.sourceService = candidate.sourceService) &&
    decide (stored.action = candidate.action) && decide (stored.category = candidate.category.text) &&
    decide (stored.schemaVersion = candidate.schemaVersion) && decide (stored.actorType = candidate.actor.type) &&
    decide (stored.actorId = candidate.actor.id) && decide (stored.userKind = candidate.actor.userKind) &&
    decide (stored.organizationId = candidate.organizationId) && decide (stored.resourceType = candidate.resource.type) &&
    decide (stored.resourceId = candidate.resource.id) && decide (stored.subjectType = candidate.subject.map (·.type)) &&
    decide (stored.subjectId = candidate.subject.map (·.id)) && decide (stored.outcome = candidate.outcome.text) &&
    decide (canonicalJson (stored.changes.getD .null) = canonicalJson ((candidate.changes.map changesJson).getD .null)) &&
    decide (stored.correlationId = candidate.correlationId) && decide (stored.causationId = candidate.causationId) &&
    decide (some stored.occurredAt = instantOf candidate.occurredAt) && decide (stored.companyId = candidate.companyId) &&
    decide (stored.platformId = candidate.platformId) && decide (stored.liveMode = candidate.liveMode) &&
    decide (stored.approvedByUserId = candidate.approvedBy.map (·.id)) &&
    decide (stored.approvedByUserKind = candidate.approvedBy.map (·.userKind.text))

/-! ## Deliveries side by side -/

inductive IngestResult
  | persisted
  | duplicate
  | refused (reason : String)
  | failed

def IngestResult.error : IngestResult → Option HandlerError
  | .persisted | .duplicate => none
  | .refused reason => some (.permanent reason)
  | .failed => some (.transient none)

inductive IngestPhase
  | taken
  /-- The insert found its key taken, and the stored record is to be read. -/
  | conflicted (record : NewAuditRecord)
  | done (result : IngestResult)

structure IngestFlight where
  event : Envelope JsonValue
  trust : Option TrustDecision
  phase : IngestPhase

structure IngestWrite where
  row : AuditRecordRow
  record : NewAuditRecord
  «by» : Option Nat

structure IngestState where
  db : AuditDb
  flights : List IngestFlight
  writes : List IngestWrite

inductive IngestAction
  | take (event : Envelope JsonValue) (trust : Option TrustDecision)
  /-- The checks and the insert; without an answer the caller does not learn what was committed. -/
  | insert (i : Nat) (answered : Bool)
  | compare (i : Nat)
  | fail (i : Nat)
  | own (record : NewAuditRecord)

def IngestState.settle (s : IngestState) (i : Nat) (phase : IngestPhase) : IngestState :=
  { s with flights := s.flights.modify i fun f => { f with phase } }

def IngestState.inserting (s : IngestState) (i : Nat) (record : NewAuditRecord) (answered : Bool) : IngestState :=
  match insertOnce s.db record with
  | .error _ => s.settle i (.done (.refused "invalid_record"))
  | .ok (_, .duplicate _) => s.settle i (if answered then .conflicted record else .done .failed)
  | .ok (db, .inserted row) =>
    { s.settle i (.done (if answered then .persisted else .failed)) with
      db
      writes := s.writes ++ [{ row, record, «by» := some i }] }

def IngestState.step (cfg : IngestConfig) (s : IngestState) : IngestAction → IngestState
  | .take event trust => { s with flights := s.flights ++ [{ event, trust, phase := .taken }] }
  | .insert i answered => match s.flights[i]? with
    | some { event, trust, phase := .taken } => match candidateOf cfg event trust with
      | .error reason => s.settle i (.done (.refused reason))
      | .ok record => s.inserting i record answered
    | _ => s
  | .compare i => match s.flights[i]? with
    | some { event := _, trust := _, phase := .conflicted record } =>
      match s.db.records.find? (AuditRecordRow.isOf record.sourceService record.eventId) with
      | none => s.settle i (.done .failed)
      | some existing => s.settle i (.done (if sameEvidence existing record then .duplicate else .refused "event_id_conflict"))
    | _ => s
  | .fail i => match s.flights[i]? with
    | some { event := _, trust := _, phase := .done _ } | none => s
    | some _ => s.settle i (.done .failed)
  | .own record =>
    if record.delivery = none ∧ record.sourceService = codes SERVICE_NAME_OWN then
      match insertOnce s.db record with
      | .ok (db, .inserted row) => { s with
        db
        writes := s.writes ++ [{ row, record, «by» := none }] }
      | _ => s
    else s

def IngestState.start : IngestState := { db := { records := [], scopes := [], nextId := 0 }, flights := [], writes := [] }

end NawaraCore.Audit
