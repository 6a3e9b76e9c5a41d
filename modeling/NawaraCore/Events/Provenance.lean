import NawaraCore.Lib.Token

/-!
# Provenance of delivered events

What a consumer verifies of an event delivered through the exchange, the stores that
keep one verified and one unverified observation of an event id, and the
classification of a retried or replayed copy against what was stored.
-/

namespace NawaraCore.Events

abbrev Body := List UInt8

/-- A header as the broker delivered it: the text it is, or the text it prints as, and the integer it reads as. -/
inductive HeaderValue
  | null
  | text (s : String) (number : Option Int)
  | other (shown : String) (number : Option Int)

abbrev Headers := String → Option HeaderValue

def textOf : Option HeaderValue → Option String
  | some (.text s _) => some s
  | _ => none

def shownOf : Option HeaderValue → String
  | none | some .null => ""
  | some (.text s _) => s
  | some (.other s _) => s

def numberOf (default : Int) : Option HeaderValue → Option Int
  | none | some .null => some default
  | some (.text _ n) => n
  | some (.other _ n) => n

structure Message where
  exchange : String
  routingKey : String
  userId : Option String
  messageId : Option String
  type : Option String
  contentType : Option String
  timestamp : Option Int
  headers : Headers
  content : Body

def SERVICE (s : String) : Bool := isToken isLower (fun c => isLower c || isDigit c || oneOf "-" c) 0 62 (codes s)

def userChar (c : Nat) : Bool := isAlnum c || oneOf "._-" c

def BROKER_USER (s : String) : Bool := isToken userChar userChar 0 63 (codes s)

def ID_TOKEN (s : String) : Bool := isToken idChar idChar 0 127 (codes s)

def EVENT_ID (s : String) : Bool := isUuid (codes s)

def EVENT_NAME (s : String) : Bool := isDotted isLower wordChar (codes s)

def token (value : Option String) (pattern : String → Bool) : String :=
  match value with
  | some s => if pattern s then s else ""
  | none => ""

def eventName (value : Option String) : String := token value fun s => decide (s.length ≤ 255) && EVENT_NAME s

inductive ProvenanceReason
  | verified | missing_user_id | source_mismatch | unknown_event | not_family_owner | routing_key_mismatch | invalid_event_id
  deriving DecidableEq

structure ProvenanceFacts where
  source : String
  eventId : String
  name : String
  routingKey : String
  exchange : String
  producerUserId : Option String
  verified : Bool
  reason : ProvenanceReason

structure ReplayCandidate where
  source : String
  eventId : String
  name : String

def replayCandidate (d : Message) : ReplayCandidate where
  source := token (textOf (d.headers "source")) SERVICE
  eventId := token d.messageId ID_TOKEN
  name := eventName d.type

/-- The first criterion the delivery fails. `ownerOf` answers nothing for a name it does not know and when it throws. -/
def provenanceReason (d : Message) (ownerOf : String → Option String) : ProvenanceReason :=
  let name := eventName d.type
  let user := token d.userId BROKER_USER
  let owner := if name = "" then none else ownerOf name
  let eventId := token d.messageId ID_TOKEN
  if user = "" then .missing_user_id
  else if token (textOf (d.headers "source")) SERVICE ≠ user then .source_mismatch
  else if owner = none then .unknown_event
  else if owner ≠ some user then .not_family_owner
  else if name = "" ∨ eventName (some d.routingKey) ≠ name then .routing_key_mismatch
  else if EVENT_ID eventId = false ∨ textOf (d.headers "eventId") ≠ some eventId then .invalid_event_id
  else .verified

def evaluateProvenanceFacts (d : Message) (exchange : String) (ownerOf : String → Option String) : Option ProvenanceFacts :=
  if d.exchange ≠ exchange then none
  else
    let user := token d.userId BROKER_USER
    let reason := provenanceReason d ownerOf
    some {
      source := token (textOf (d.headers "source")) SERVICE
      eventId := token d.messageId ID_TOKEN
      name := eventName d.type
      routingKey := eventName (some d.routingKey)
      exchange := d.exchange
      producerUserId := if user = "" then none else some user
      verified := decide (reason = .verified)
      reason }

structure Hashing where
  Digest : Type
  Key : Type
  Mac : Type
  [digestEq : DecidableEq Digest]
  [macEq : DecidableEq Mac]
  sha256 : Body → Digest
  hmac : Key → Body → Mac
  sha256_injective : ∀ {a b}, sha256 a = sha256 b → a = b
  hmac_injective : ∀ {k l a b}, hmac k a = hmac l b → k = l ∧ a = b

attribute [instance] Hashing.digestEq Hashing.macEq

def BODY_COMMITMENT_VERSION : Nat := 1

/-- The keys of a keyed consumer. A stored key id in neither set is unavailable. -/
structure ProvenanceKeyRing (Key : Type) where
  activeKeyId : String
  keys : String → Option Key
  retiredKeyIds : String → Bool
  activeKey : Key
  active : keys activeKeyId = some activeKey
  retired_absent : ∀ id, retiredKeyIds id = true → keys id = none

inductive Commitment (H : Hashing)
  | digest (bodySha256 : H.Digest)
  | mac (bodyCommitmentVersion : Nat) (bodyMacKeyId : String) (bodyMac : H.Mac)

inductive Store (H : Hashing)
  | plain
  | keyed (ring : ProvenanceKeyRing H.Key)

inductive StoreError | provenance_key_unavailable | provenance_commitment_version_unknown | database

inductive Comparison | same | different | unverifiable
  deriving DecidableEq

structure StoredRow (H : Hashing) where
  consumer : String
  source : String
  eventId : String
  name : String
  routingKey : String
  exchange : String
  commitment : Commitment H
  producerUserId : Option String
  verified : Bool
  reason : ProvenanceReason

variable {H : Hashing}

def Store.commit : Store H → Body → Commitment H
  | .plain, body => .digest (H.sha256 body)
  | .keyed ring, body => .mac BODY_COMMITMENT_VERSION ring.activeKeyId (H.hmac ring.activeKey body)

def Store.bodyOf : Store H → Body → Commitment H → Except StoreError Comparison
  | .plain, body, .digest d => .ok (if d = H.sha256 body then .same else .different)
  | .keyed ring, body, .mac version keyId mac =>
    if version ≠ BODY_COMMITMENT_VERSION then .error .provenance_commitment_version_unknown
    else match ring.keys keyId with
      | some key => .ok (if H.hmac key body = mac then .same else .different)
      | none => if ring.retiredKeyIds keyId then .ok .unverifiable else .error .provenance_key_unavailable
  -- the tables of the two stores have different columns
  | .plain, _, .mac .. | .keyed _, _, .digest _ => .error .database

/-! ## Recording an original -/

inductive RecordResult | recorded | duplicate | conflict | unverifiable

inductive VerifiedAssessment | first | matches | contradicts | unverifiable | not_applicable

structure ProvenanceAssessment where
  result : RecordResult
  verified : VerifiedAssessment

def StoredRow.isFor (consumer source eventId : String) (r : StoredRow H) : Bool :=
  r.consumer == consumer && r.source == source && r.eventId == eventId

def sameFacts (r : StoredRow H) (o : ProvenanceFacts) : Bool :=
  r.name == o.name && r.routingKey == o.routingKey && r.producerUserId == o.producerUserId && r.verified == o.verified

def rowOf (store : Store H) (consumer : String) (o : ProvenanceFacts) (body : Body) : StoredRow H where
  consumer
  source := o.source
  eventId := o.eventId
  name := o.name
  routingKey := o.routingKey
  exchange := o.exchange
  commitment := store.commit body
  producerUserId := o.producerUserId
  verified := o.verified
  reason := o.reason

def compareRow (store : Store H) (o : ProvenanceFacts) (body : Body) (r : StoredRow H) : Except StoreError Comparison :=
  if sameFacts r o then store.bodyOf body r.commitment else .ok .different

/-- What a verified delivery is against the verified row that was stored before it. -/
def assessVerified (store : Store H) (o : ProvenanceFacts) (body : Body) (inserted : Bool) (stored : List (StoredRow H)) :
    Except StoreError VerifiedAssessment :=
  if o.verified = false then .ok .not_applicable
  else if inserted then .ok .first
  else match stored.find? (·.verified) with
    | none => .ok .contradicts
    | some r => do match ← compareRow store o body r with
      | .same => .ok .matches
      | .different => .ok .contradicts
      | .unverifiable => .ok .unverifiable

/-- One transaction: at most one verified and one unverified row for an id, then the delivery against the rows stored before it. -/
def assess (store : Store H) (rows : List (StoredRow H)) (consumer : String) (o : ProvenanceFacts) (body : Body) :
    Except StoreError (List (StoredRow H) × ProvenanceAssessment) := do
  let stored := rows.filter (StoredRow.isFor consumer o.source o.eventId)
  let inserted := !stored.any fun r => r.verified == o.verified
  let comparisons ← stored.mapM (compareRow store o body)
  let verified ← assessVerified store o body inserted stored
  let result := if .different ∈ comparisons then .conflict else if .unverifiable ∈ comparisons then .unverifiable
    else if inserted then .recorded else .duplicate
  return (if inserted then rows ++ [rowOf store consumer o body] else rows, { result, verified })

/-! ## Classifying a copy -/

inductive ReplayOutcome
  | replay_matched_verified | replay_matched_unverified | replay_no_provenance | replay_mismatch | replay_unverifiable | replay_lookup_failure

inductive ReplayOriginal | verified | unverified | none

structure MatchedOriginal where
  source : String
  eventId : String
  name : String
  routingKey : String
  producerUserId : Option String

structure ReplayClassification where
  outcome : ReplayOutcome
  original : ReplayOriginal
  matched : Option MatchedOriginal

def originalOf (r : StoredRow H) : ReplayOriginal := if r.verified then .verified else .unverified

def decideReplayFrom (name : String) (body : StoredRow H → Except StoreError Comparison) (key : ReplayCandidate) (fallback : ReplayClassification) :
    List (StoredRow H) → Option (StoredRow H) → Except StoreError ReplayClassification
  | [], some u => .ok { outcome := .replay_unverifiable, original := originalOf u, matched := none }
  | [], none => .ok fallback
  | r :: rest, unverifiable =>
    if r.name ≠ name then decideReplayFrom name body key fallback rest unverifiable
    else do match ← body r with
      | .same => .ok {
          outcome := if r.verified then .replay_matched_verified else .replay_matched_unverified
          original := originalOf r
          matched := some {
            source := key.source
            eventId := key.eventId
            name := r.name
            routingKey := r.routingKey
            producerUserId := r.producerUserId } }
      | .unverifiable => decideReplayFrom name body key fallback rest (unverifiable.or (some r))
      | .different => decideReplayFrom name body key fallback rest unverifiable

def verifiedFirst (rows : List (StoredRow H)) : List (StoredRow H) :=
  rows.filter (·.verified) ++ rows.filter (!·.verified)

def decideReplay (rows : List (StoredRow H)) (key : ReplayCandidate) (body : StoredRow H → Except StoreError Comparison) :
    Except StoreError ReplayClassification :=
  match verifiedFirst rows with
  | [] => .ok { outcome := .replay_no_provenance, original := .none, matched := none }
  | r :: rest =>
    decideReplayFrom key.name body key { outcome := .replay_mismatch, original := originalOf r, matched := none } (r :: rest) none

def classifyReplay (store : Store H) (rows : List (StoredRow H)) (consumer : String) (c : ReplayCandidate) (body : Body) :
    Except StoreError ReplayClassification :=
  decideReplay (rows.filter (StoredRow.isFor consumer c.source c.eventId)) c fun r => store.bodyOf body r.commitment

end NawaraCore.Events
