import NawaraCore.File.FileAccess
import NawaraCore.File.Streams
import NawaraCore.Lib.CanonicalJson

/-!
# Uploads

Redemptions of upload tickets and service uploads, each statement of the database and each
call of the store a step of its own. A request is served under the configuration of the
process that admitted it.
-/

namespace NawaraCore.FileUpload

open FileAccess (FileStatus)
open FileStreams

structure Declared where
  organizationId : Option String
  fileName : Option (List Nat)
  declaredType : Option String
  sizeBytes : Nat
  sha256 : Option String
  deriving DecidableEq

def orNull : Option (List Nat) → Json
  | none => .null
  | some s => .str s

def Declared.members (d : Declared) : Members :=
  [(codes "organizationId", orNull (d.organizationId.map codes)), (codes "fileName", orNull d.fileName),
    (codes "declaredType", orNull (d.declaredType.map codes)), (codes "sizeBytes", .num (.int d.sizeBytes)),
    (codes "sha256", orNull (d.sha256.map codes))]

inductive Organizations
  | none | request
  deriving DecidableEq

structure CallerPolicy where
  upload : Bool
  issueTicket : Bool
  organizations : Organizations
  mediaTypes : List FileMediaType
  maxBytes : Option Nat

structure Config where
  maxBytes : Nat
  callerPolicy : List (String × CallerPolicy)
  ticketTtlSeconds : Nat
  attachTtlSeconds : Nat
  leaseSeconds : Nat
  requestHashKey : String
  requestHashPreviousKeys : List String

def Config.requestHashKeys (config : Config) : List String := config.requestHashKey :: config.requestHashPreviousKeys

structure FileRow where
  id : String
  ownerService : String
  organizationId : Option String
  originalName : Option (List Nat)
  declaredMediaType : Option String
  idempotencyKey : Option String
  requestHash : Option String
  storageKey : String
  status : FileStatus
  content : Option Accepted
  uploadExpiresAt : Int
  attachDeadline : Option Int
  attachedAt : Option Int
  failureCode : Option String
  deriving DecidableEq

/-- Not `FAILED` or `REJECTED`. -/
def FileRow.live (f : FileRow) : Bool := f.status ≠ .failed ∧ f.status ≠ .rejected

structure Ticket where
  tokenDigest : String
  issuedBy : String
  organizationId : Option String
  maxBytes : Nat
  mediaTypes : List FileMediaType
  attach : Bool
  useCount : Nat
  revoked : Bool
  expiresAt : Int
  fileId : Option String
  deriving DecidableEq

inductive Answer
  | created (file : FileRow)
  | existing (file : FileRow)
  | error (status : Nat) (code : String)
  deriving DecidableEq

def ticketInvalid : Answer := .error 404 "ticket_invalid"

def fileTooLarge : Answer := .error 413 "file_too_large"

def uploadInProgress : Answer := .error 409 "upload_in_progress"

def idempotencyKeyReused : Answer := .error 422 "idempotency_key_reused"

def internalError : Answer := .error 500 "internal_error"

inductive Route
  | ticket (tokenDigest : String)
  | service (caller key : String)
  deriving DecidableEq

inductive Phase
  | arrived
  | replaying
  | retrying
  | usedTicket (used : Ticket)
  | receiving (limit : Nat) (allowed : List FileMediaType) (attach : Bool)
  | stored (accepted : Accepted) (attach : Bool)
  | abandoning
  | refusing (status : FileStatus) (failureCode : String) (answer : Answer)
  | answered (answer : Answer)
  | crashed
  deriving DecidableEq

structure Request where
  route : Route
  declared : Declared
  attach : Bool
  config : Config
  phase : Phase
  file : Option FileRow
  /-- The body that the request has read, and what it was checked against. -/
  body : Option (IngestInput × List Bytes)

structure State where
  files : List FileRow
  tickets : List Ticket
  store : List (String × Bytes)
  clock : Int
  requests : List Request
  /-- The uploads that the sweep has found, by id and storage key. -/
  found : List (String × String)

def State.empty : State := ⟨[], [], [], 0, [], []⟩

def State.put (s : State) (i : Nat) (r : Request) : State := { s with requests := s.requests.set i r }

def State.go (s : State) (i : Nat) (r : Request) (phase : Phase) : State := s.put i { r with phase }

def State.answer (s : State) (i : Nat) (r : Request) (a : Answer) : State := s.go i r (.answered a)

/-! ## Statements -/

def seconds (n : Nat) : Int := n * 1000000

def updateRow (id : String) (p : FileRow → Bool) (set : FileRow → FileRow) (rows : List FileRow) : List FileRow :=
  rows.map fun f => if f.id = id ∧ p f then set f else f

def uploading (f : FileRow) : Bool := f.status = .uploading

def completeUpload (now : Int) (id : String) (content : Accepted) (attach : Bool) : List FileRow → List FileRow :=
  updateRow id uploading fun f => { f with
    status := .available
    content := some content
    attachedAt := if attach ∧ f.attachedAt = none then some now else f.attachedAt }

def refuseUpload (id : String) (status : FileStatus) (failureCode : String) : List FileRow → List FileRow :=
  updateRow id uploading fun f => { f with
    status
    failureCode := some failureCode }

def abandoned (now : Int) (f : FileRow) : Bool := f.status = .uploading ∧ f.uploadExpiresAt ≤ now

def failAbandonedUpload (now : Int) (id : String) : List FileRow → List FileRow :=
  updateRow id (abandoned now) fun f => { f with
    status := .failed
    failureCode := some "upload_abandoned" }

def requestDeletion (id : String) : List FileRow → List FileRow :=
  updateRow id (fun f => f.status = .available) fun f => { f with status := .deleting }

def completeDeletion (id : String) : List FileRow → List FileRow :=
  updateRow id (fun f => f.status = .deleting) fun f => { f with status := .deleted }

def keyInUse (rows : List FileRow) (f : FileRow) : Bool :=
  f.idempotencyKey.isSome ∧ rows.any fun g => g.ownerService = f.ownerService ∧ g.idempotencyKey = f.idempotencyKey ∧ g.live

inductive Violation
  | idempotencyKeyInUse
  | other

def insertFile (rows : List FileRow) (f : FileRow) : Except Violation (List FileRow) :=
  if rows.any fun g => g.id = f.id ∨ g.storageKey = f.storageKey then .error .other
  else if keyInUse rows f then .error .idempotencyKeyInUse
  else .ok (rows ++ [f])

def findLiveByIdempotencyKey (rows : List FileRow) (ownerService key : String) : Option FileRow :=
  rows.find? fun f => f.ownerService = ownerService ∧ f.idempotencyKey = some key ∧ f.live

def findOwned (rows : List FileRow) (ownerService : String) (organizationId : Option String) (id : String) : Option FileRow :=
  rows.find? fun f => f.id = id ∧ f.ownerService = ownerService ∧ f.organizationId = organizationId

def claimUse (now : Int) (tokenDigest : String) (tickets : List Ticket) : Option Ticket :=
  tickets.find? fun t => t.tokenDigest = tokenDigest ∧ ¬ t.revoked ∧ now < t.expiresAt ∧ t.useCount = 0

def findUsedUpload (now : Int) (tokenDigest : String) (tickets : List Ticket) : Option Ticket :=
  tickets.find? fun t => t.tokenDigest = tokenDigest ∧ ¬ t.revoked ∧ now < t.expiresAt ∧ t.fileId.isSome

def bindCreatedFile (tokenDigest fileId : String) (tickets : List Ticket) : List Ticket :=
  tickets.map fun t => if t.tokenDigest = tokenDigest then { t with
    useCount := t.useCount + 1
    fileId := some fileId } else t

def newRow (now : Int) (config : Config) (id storageKey ownerService : String) (declared : Declared) (organizationId : Option String)
    (idempotency : Option (String × String)) (attached : Bool) : FileRow where
  id := id
  ownerService := ownerService
  organizationId := organizationId
  originalName := declared.fileName
  declaredMediaType := declared.declaredType
  idempotencyKey := idempotency.map Prod.fst
  requestHash := idempotency.map Prod.snd
  storageKey := storageKey
  status := .uploading
  content := none
  uploadExpiresAt := now + seconds config.leaseSeconds
  attachDeadline := if attached then none else some (now + seconds config.attachTtlSeconds)
  attachedAt := if attached then some now else none
  failureCode := none

def admitTicket (config : Config) (length : Nat) (ticket : Ticket) : Except Answer (Nat × List FileMediaType) :=
  match config.callerPolicy.lookup ticket.issuedBy with
  | none => .error ticketInvalid
  | some policy =>
    if policy.issueTicket = false ∨ ticket.organizationId.isSome ∧ policy.organizations = .none then .error ticketInvalid
    else
      let allowed := ticket.mediaTypes.filter fun t => t ∈ policy.mediaTypes
      let limit := min config.maxBytes (min (policy.maxBytes.getD 0) ticket.maxBytes)
      if length > limit then .error fileTooLarge else .ok (limit, allowed)

/-- The transaction of `redeemAdmitted`; a refusal rolls it back. -/
def State.redeemAdmitted (s : State) (i : Nat) (r : Request) (tokenDigest id storageKey : String) : State :=
  match claimUse s.clock tokenDigest s.tickets with
  | none => s.go i r .retrying
  | some ticket => match admitTicket r.config r.declared.sizeBytes ticket with
    | .error a => s.answer i r a
    | .ok (limit, allowed) =>
      let row := newRow s.clock r.config id storageKey ticket.issuedBy r.declared ticket.organizationId none false
      match insertFile s.files row with
      | .error _ => s.answer i r internalError
      | .ok files => { s with
        files
        tickets := bindCreatedFile tokenDigest id s.tickets
        requests := s.requests.set i { r with
          file := some row
          phase := .receiving limit allowed ticket.attach } }

def redemptionRetry (rows : List FileRow) (used : Ticket) : Answer :=
  match used.fileId.bind (findOwned rows used.issuedBy used.organizationId) with
  | none => ticketInvalid
  | some file =>
    if file.status = .available then .existing file else if file.status = .uploading then uploadInProgress else ticketInvalid

section
variable (hmac : String → List Nat → String) (digest : Bytes → String) (agrees : Declared → FileMediaType → Bool)

def uploadRequestHash (key : String) (declared : Declared) : String :=
  hmac key (codes "nawara.file.upload.v1|" ++ (Json.canonicalJson (.obj declared.members)).getD [])

def State.serviceUploadAdmitted (s : State) (i : Nat) (r : Request) (caller key id storageKey : String) : State :=
  match r.config.callerPolicy.lookup caller with
  | none => s
  | some policy =>
    let row := newRow s.clock r.config id storageKey caller r.declared r.declared.organizationId
      (some (key, uploadRequestHash hmac r.config.requestHashKey r.declared)) r.attach
    match insertFile s.files row with
    | .error .idempotencyKeyInUse => s.go i r .replaying
    | .error .other => s.answer i r internalError
    | .ok files => { s with
      files
      requests := s.requests.set i { r with
        file := some row
        phase := .receiving (min r.config.maxBytes (policy.maxBytes.getD 0)) policy.mediaTypes false } }

def sameHash (stored : Option String) (computed : String) : Bool := stored = some computed

def idempotentReplay (rows : List FileRow) (config : Config) (declared : Declared) (caller key : String) : Answer :=
  match findLiveByIdempotencyKey rows caller key with
  | none => uploadInProgress
  | some existing =>
    if ¬ config.requestHashKeys.any fun k => sameHash existing.requestHash (uploadRequestHash hmac k declared) then idempotencyKeyReused
    else if existing.status = .uploading then uploadInProgress
    else .existing existing

/-! ## The bytes -/

def refusalStatus : UploadRefusal → FileStatus
  | .tooLarge | .unsupported | .mismatch | .checksum => .rejected
  | .incomplete | .storageUnavailable _ | .storageFault _ => .failed

def storageCode : StorageCode → String
  | .checksumMismatch => "storage_checksum_mismatch"
  | .lengthMismatch => "storage_length_mismatch"
  | .unavailable => "storage_unavailable"
  | .timeout => "storage_timeout"
  | .rejected => "storage_rejected"
  | .invalidKey => "storage_invalid_key"
  | .alreadyExists => "storage_already_exists"

def failureCode : UploadRefusal → String
  | .tooLarge => "file_too_large"
  | .unsupported => "unsupported_media_type"
  | .mismatch => "media_type_mismatch"
  | .checksum => "checksum_mismatch"
  | .incomplete => "upload_incomplete"
  | .storageUnavailable code | .storageFault code => storageCode code

def refusalError : UploadRefusal → Answer
  | .tooLarge => fileTooLarge
  | .unsupported => .error 415 "unsupported_media_type"
  | .mismatch => .error 422 "media_type_mismatch"
  | .checksum => .error 422 "checksum_mismatch"
  | .incomplete => .error 400 "upload_incomplete"
  | .storageUnavailable _ => .error 503 "storage_unavailable"
  | .storageFault _ => .error 500 "storage_error"

def Request.input (r : Request) (limit : Nat) (allowed : List FileMediaType) (fault : Option StorageCode) : IngestInput where
  declaredLength := r.declared.sizeBytes
  limit := limit
  allowed := fun t => t ∈ allowed
  agrees := agrees r.declared
  expectedSha256 := match r.route with
    | .ticket _ => none
    | .service _ _ => r.declared.sha256
  fault := fault

def published (input : IngestInput) (chunks : List Bytes) : Bytes :=
  (stream digest (verifiedBody input.declaredLength input.expectedSha256) (meter input.limit 0 chunks).1).1

/-- `put` never replaces an object. -/
def State.receive (s : State) (i : Nat) (r : Request) (row : FileRow) (limit : Nat) (allowed : List FileMediaType) (attach : Bool)
    (chunks : List Bytes) (fault : Option StorageCode) : State :=
  let input := r.input agrees limit allowed (if (s.store.lookup row.storageKey).isSome then some .alreadyExists else fault)
  match ingest digest input chunks with
  | .error refusal => s.put i { r with
    body := some (input, chunks)
    phase := .refusing (refusalStatus refusal) (failureCode refusal) (refusalError refusal) }
  | .ok accepted => { s with
    store := (row.storageKey, published digest input chunks) :: s.store
    requests := s.requests.set i { r with
      body := some (input, chunks)
      phase := .stored accepted attach } }

def State.remove (s : State) (storageKey : String) : State := { s with store := s.store.filter fun o => o.1 ≠ storageKey }

/-! ## Runs -/

inductive Action
  | tick (d : Nat)
  | issueUploadTicket (t : Ticket)
  | revoke (tokenDigest : String)
  /-- A request is admitted by a process with this configuration. -/
  | arrive (route : Route) (declared : Declared) (attach : Bool) (config : Config)
  /-- A redemption or the insert of a service upload, with the id and the key that are drawn for the row. -/
  | create (request : Nat) (id storageKey : String)
  | lookup (request : Nat)
  | receive (request : Nat) (chunks : List Bytes) (fault : Option StorageCode)
  | abort (request : Nat) (idle : Bool)
  /-- The completion; a lost one is committed, or not, and fails. -/
  | complete (request : Nat)
  | completeLost (request : Nat) (committed : Bool)
  /-- The best-effort removal and refusal, which may fail. -/
  | forget (request : Nat) (removed : Bool)
  | refuse (request : Nat) (written : Bool)
  /-- A statement of the request fails and its transaction is rolled back. -/
  | fail (request : Nat)
  | crash (request : Nat)
  | attach (id : String)
  | findAbandoned (id : String)
  | deleteAbandoned (found : Nat)
  | failAbandoned (found : Nat)
  | requestDeletion (id : String)
  | deleteObject (id : String)
  | completeDeletion (id : String)

def admission (config : Config) (declared : Declared) : Route → Option Answer
  | .ticket _ => if declared.sizeBytes > config.maxBytes then some fileTooLarge else none
  | .service caller _ => match config.callerPolicy.lookup caller with
    | none => some (.error 403 "operation_not_allowed")
    | some policy =>
      if policy.upload = false then some (.error 403 "operation_not_allowed")
      else if declared.organizationId.isSome ∧ policy.organizations = .none then some (.error 403 "organization_not_allowed")
      else if declared.sizeBytes > min config.maxBytes (policy.maxBytes.getD 0) then some fileTooLarge
      else none

def serve (s : State) (i : Nat) (r : Request) : Action → State
  | .create _ id storageKey => match r.phase, r.route with
    | .arrived, .ticket tokenDigest => s.redeemAdmitted i r tokenDigest id storageKey
    | .arrived, .service caller key => s.serviceUploadAdmitted hmac i r caller key id storageKey
    | _, _ => s
  | .lookup _ => match r.phase, r.route with
    | .replaying, .service caller key => s.answer i r (idempotentReplay hmac s.files r.config r.declared caller key)
    | .retrying, .ticket tokenDigest => match findUsedUpload s.clock tokenDigest s.tickets with
      | none => s.answer i r ticketInvalid
      | some used => s.go i r (.usedTicket used)
    | .usedTicket used, .ticket _ => s.answer i r (redemptionRetry s.files used)
    | _, _ => s
  | .receive _ chunks fault => match r.phase, r.file with
    | .receiving limit allowed attach, some row => s.receive digest agrees i r row limit allowed attach chunks fault
    | _, _ => s
  | .abort _ idle => match r.phase with
    | .receiving _ _ _ => s.go i r (if idle then .refusing .failed "upload_timeout" (.error 408 "upload_timeout")
      else .refusing .failed "client_aborted" (.error 400 "upload_aborted"))
    | _ => s
  | .complete _ => match r.phase, r.file with
    | .stored accepted attach, some row => match s.files.find? fun f => f.id = row.id ∧ uploading f with
      | none => s.go i r .abandoning
      | some _ =>
        let files := completeUpload s.clock row.id accepted attach s.files
        match files.find? fun f => f.id = row.id with
        | none => s.go i r .abandoning
        | some done => { s with
          files
          requests := s.requests.set i { r with phase := .answered (.created done) } }
    | _, _ => s
  | .completeLost _ committed => match r.phase, r.file with
    | .stored accepted attach, some row => { s with
      files := if committed then completeUpload s.clock row.id accepted attach s.files else s.files
      requests := s.requests.set i { r with phase := .abandoning } }
    | _, _ => s
  | .forget _ removed => match r.phase, r.file with
    | .abandoning, some row =>
      (if removed then s.remove row.storageKey else s).go i r (.refusing .failed "finalize_failed" (.error 500 "upload_failed"))
    | _, _ => s
  | .refuse _ written => match r.phase, r.file with
    | .refusing status failureCode a, some row => { s with
      files := if written then refuseUpload row.id status failureCode s.files else s.files
      requests := s.requests.set i { r with phase := .answered a } }
    | _, _ => s
  | .fail _ => match r.phase with
    | .arrived | .replaying | .retrying | .usedTicket _ => s.answer i r internalError
    | _ => s
  | .crash _ => match r.phase with
    | .answered _ => s
    | _ => s.go i r .crashed
  | _ => s

def Action.request : Action → Option Nat
  | .create i _ _ | .lookup i | .receive i _ _ | .abort i _ | .complete i | .completeLost i _ | .forget i _ | .refuse i _ | .fail i | .crash i => some i
  | _ => none

def step (s : State) (a : Action) : State := match a with
  | .tick d => { s with clock := s.clock + d }
  | .issueUploadTicket t =>
    if s.tickets.any fun u => u.tokenDigest = t.tokenDigest then s
    else { s with tickets := s.tickets ++ [{ t with
      useCount := 0
      fileId := none }] }
  | .revoke tokenDigest => { s with tickets := s.tickets.map fun t => if t.tokenDigest = tokenDigest then { t with revoked := true } else t }
  | .arrive route declared attach config => { s with
    requests := s.requests ++ [⟨route, declared, attach, config, match admission config declared route with
      | none => .arrived
      | some a => .answered a, none, none⟩] }
  | .attach id => { s with
    files := updateRow id (fun f => f.attachedAt = none ∧ (f.status = .uploading ∨ f.status = .available)) (fun f => { f with
      attachedAt := some s.clock }) s.files }
  | .findAbandoned id => { s with found := s.found ++ ((s.files.filter fun f => f.id = id ∧ abandoned s.clock f).map fun f => (f.id, f.storageKey)) }
  | .deleteAbandoned n => match s.found[n]? with
    | none => s
    | some upload => s.remove upload.2
  | .failAbandoned n => match s.found[n]? with
    | none => s
    | some upload => { s with files := failAbandonedUpload s.clock upload.1 s.files }
  | .requestDeletion id => { s with
    files := requestDeletion id s.files
    tickets := if s.files.any fun f => f.id = id ∧ f.status = .available then
      s.tickets.map fun t => if t.fileId = some id then { t with revoked := true } else t else s.tickets }
  | .deleteObject id => match s.files.find? fun f => f.id = id ∧ f.status = .deleting with
    | none => s
    | some f => s.remove f.storageKey
  | .completeDeletion id => { s with files := completeDeletion id s.files }
  | a => match a.request.bind fun i => (s.requests[i]?).map fun r => (i, r) with
    | none => s
    | some (i, r) => serve hmac digest agrees s i r a

end

end NawaraCore.FileUpload
