import NawaraCore.Events.Provenance

/-!
# The trust decision

What a subscription with an enforcement policy makes of a delivery, before its handler
runs: an original from its facts and the store's assessment, a copy from its
classification, anything else refused.
-/

namespace NawaraCore.Events

inductive EnforcementPolicy | strict | audit_compatibility
  deriving DecidableEq

inductive TrustBasis
  | verified_original | verified_duplicate | verified_replay | unverified_original | unverified_replay | replay_no_provenance
  | verified_conflict | verified_unverifiable | replay_mismatch | replay_unverifiable | unknown_path | provenance_unavailable
  deriving DecidableEq

inductive TrustedFrom | verified_delivery | stored_verified_observation

/-- The original publication a handler may rely on. A field that is not stored, or absent, is nothing. -/
structure TrustedOrigin where
  «from» : TrustedFrom
  source : String
  eventId : String
  name : String
  routingKey : String
  producerUserId : String
  occurredAt : Option String
  version : Option Int
  correlationId : Option String

inductive TrustDecision
  | accept (basis : TrustBasis) (origin : TrustedOrigin)
  | compatibility (basis : TrustBasis)
  | refuse (basis : TrustBasis)
  | hold

def unverified (policy : EnforcementPolicy) (basis : TrustBasis) : TrustDecision :=
  match policy with
  | .audit_compatibility => .compatibility basis
  | .strict => .refuse basis

def safeInteger (n : Int) : Bool := decide (-9007199254740991 ≤ n ∧ n ≤ 9007199254740991)

def trustedVersion (headers : Headers) : Option Int :=
  match headers "version" with
  | none => none
  | some .null => some 0
  | some (.text _ n) | some (.other _ n) => n.filter safeInteger

def acceptOriginal (facts : ProvenanceFacts) (basis : TrustBasis) (headers : Headers) : TrustDecision :=
  .accept basis {
    «from» := .verified_delivery
    source := facts.source
    eventId := facts.eventId
    name := facts.name
    routingKey := facts.routingKey
    producerUserId := facts.producerUserId.getD ""
    occurredAt := textOf (headers "occurredAt")
    version := trustedVersion headers
    correlationId := textOf (headers "correlationId") }

def decideOriginal (facts : ProvenanceFacts) (assessment : ProvenanceAssessment) (policy : EnforcementPolicy) (headers : Headers) : TrustDecision :=
  if facts.verified = false then unverified policy .unverified_original
  else match assessment.verified with
    | .first => acceptOriginal facts .verified_original headers
    | .matches => acceptOriginal facts .verified_duplicate headers
    | .contradicts => .refuse .verified_conflict
    | .unverifiable => .refuse .verified_unverifiable
    | .not_applicable => .refuse .verified_conflict

/-- The decision of a copy from its classification, nothing when the lookup failed or timed out. -/
def decideReplayTrust (classification : Option ReplayClassification) (policy : EnforcementPolicy) : TrustDecision :=
  match classification with
  | none => .hold
  | some c => match c.outcome with
    | .replay_lookup_failure => .hold
    | .replay_matched_verified => match c.matched with
      | some { source, eventId, name, routingKey, producerUserId := some user } =>
        .accept .verified_replay {
          «from» := .stored_verified_observation
          source
          eventId
          name
          routingKey
          producerUserId := user
          occurredAt := none
          version := none
          correlationId := none }
      | _ => .refuse .replay_mismatch
    | .replay_matched_unverified => unverified policy .unverified_replay
    | .replay_no_provenance => unverified policy .replay_no_provenance
    | .replay_mismatch => .refuse .replay_mismatch
    | .replay_unverifiable => .refuse .replay_unverifiable

/-! ## The decision of a delivery -/

/-- How the store's transaction ends: it answers, or it rejects with its writes kept or not, or a lookup takes too long. -/
inductive StoreOutcome | answers | rejects (committed : Bool)

structure TrustContext (H : Hashing) where
  exchange : String
  queue : String
  ownerOf : String → Option String
  store : Store H

variable {H : Hashing}

def trustDecision (cx : TrustContext H) (policy : EnforcementPolicy) (rows : List (StoredRow H)) (msg : Message) (outcome : StoreOutcome) :
    List (StoredRow H) × TrustDecision :=
  match evaluateProvenanceFacts msg cx.exchange cx.ownerOf with
  | some o => match assess cx.store rows cx.queue o msg.content with
    | .error _ => (rows, .hold)
    | .ok (rows', assessment) => match outcome with
      | .answers => (rows', decideOriginal o assessment policy msg.headers)
      | .rejects committed => (if committed then rows' else rows, .hold)
  | none =>
    if msg.exchange ≠ "" then (rows, .refuse .unknown_path)
    else match outcome with
      | .rejects _ => (rows, decideReplayTrust none policy)
      | .answers => match classifyReplay cx.store rows cx.queue (replayCandidate msg) msg.content with
        | .error _ => (rows, decideReplayTrust none policy)
        | .ok c => (rows, decideReplayTrust (some c) policy)

/-- The observe-only path: the rows after it, and whether the delivery's provenance is committed. -/
def provenanceCommitted (cx : TrustContext H) (rows : List (StoredRow H)) (msg : Message) (outcome : StoreOutcome) : List (StoredRow H) × Bool :=
  match evaluateProvenanceFacts msg cx.exchange cx.ownerOf with
  | none => (rows, true)
  | some o => match assess cx.store rows cx.queue o msg.content with
    | .error _ => (rows, false)
    | .ok (rows', _) => match outcome with
      | .answers => (rows', true)
      | .rejects committed => (if committed then rows' else rows, false)

def TrustBasis.text : TrustBasis → String
  | .verified_original => "verified_original"
  | .verified_duplicate => "verified_duplicate"
  | .verified_replay => "verified_replay"
  | .unverified_original => "unverified_original"
  | .unverified_replay => "unverified_replay"
  | .replay_no_provenance => "replay_no_provenance"
  | .verified_conflict => "verified_conflict"
  | .verified_unverifiable => "verified_unverifiable"
  | .replay_mismatch => "replay_mismatch"
  | .replay_unverifiable => "replay_unverifiable"
  | .unknown_path => "unknown_path"
  | .provenance_unavailable => "provenance_unavailable"

def refusalReason (basis : TrustBasis) : String := "untrusted_" ++ basis.text

end NawaraCore.Events
