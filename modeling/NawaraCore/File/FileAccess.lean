import NawaraCore.Lib.Transactions

/-!
# Access to one file

Deletion, evidence holds, evidence grants, download tickets and redemptions of one file of
file-service. An update locks its row against every other lock, `FOR SHARE` only against
updates; a row is named by the session that inserted it.
-/

namespace NawaraCore.FileAccess

/-- No scanner is configured, so `VERIFYING` is never entered. -/
inductive FileStatus
  | uploading | available | rejected | failed | deleting | deleted
deriving DecidableEq

structure FileScope where
  ownerService : String
  organizationId : Option String
deriving DecidableEq

structure Hold where
  id : Nat
  holdRef : String
deriving DecidableEq

structure Grant where
  id : Nat
  granteeService : String
  purpose : String
  idempotencyKey : String
  expiresAt : Int
  revoked : Bool
deriving DecidableEq

structure Ticket where
  id : Nat
  grantId : Option Nat
  singleUse : Bool
  useCount : Nat
  reserved : Bool
  revoked : Bool
  expiresAt : Int
deriving DecidableEq

inductive Change
  | completed (attachOnCompletion : Bool)
  | refused (status : FileStatus)
  | attached
  | deleting (expired : Bool)
  | deleted
  | holdPlaced (h : Hold)
  | holdReleased (hold : Nat)
  | grantIssued (g : Grant)
  | grantRevoked (grant : Nat)
  | ticketIssued (t : Ticket)
  /-- The claim of a ticket, in a transaction that began at `now`. -/
  | redeemed (t : Ticket) (now : Int)
  | granted (grant : Nat) (now : Int)
deriving DecidableEq

inductive Intent
  | deleted
  | holdPlaced (hold : Nat)
  | holdReleased (hold : Nat)
  | grantIssued (grant : Nat)
  | grantRevoked (grant : Nat)
  | grantedRead (grant : Nat)

def Change.intent : Change → Option Intent
  | .deleting false => some .deleted
  | .holdPlaced h => some (.holdPlaced h.id)
  | .holdReleased hold => some (.holdReleased hold)
  | .grantIssued g => some (.grantIssued g.id)
  | .grantRevoked grant => some (.grantRevoked grant)
  | .ticketIssued t => t.grantId.map .grantedRead
  | .redeemed t _ => t.grantId.map .grantedRead
  | .granted grant _ => some (.grantedRead grant)
  | .completed _ | .refused _ | .attached | .deleting true | .deleted => none

structure FileDb where
  scope : FileScope
  status : FileStatus
  attachDeadline : Option Int
  attached : Bool
  clock : Int
  holds : List Hold
  releases : List Nat
  grants : List Grant
  tickets : List Ticket
  outbox : List Intent
  history : List Change

def FileDb.held (db : FileDb) : Bool := db.holds.any fun h => h.id ∉ db.releases

def FileDb.gone (db : FileDb) : Bool := db.status = .deleting ∨ db.status = .deleted

inductive Operation
  | completeUpload (attachOnCompletion : Bool)
  | refuseUpload (status : FileStatus)
  | attach (scope : FileScope)
  | requestDeletion (scope : FileScope)
  | expireUnattached
  | completeDeletion
  | placeHold (scope : FileScope) (holdRef : String)
  | releaseHold (scope : FileScope) (holdRef : String)
  | issueGrant (scope : FileScope) (granteeService purpose idempotencyKey : String) (lifetimeSeconds : Nat)
  | revokeGrant (scope : FileScope) (grant : Nat)
  | recordDownload (scope : FileScope) (lifetimeSeconds : Nat) (singleUse : Bool)
  | recordGrantDownload (grant : Nat) (granteeService : String) (purposes : List String) (lifetimeSeconds : Nat) (singleUse : Bool)
  | redeem (ticket maxUses : Nat)
  | grantedRead (grant : Nat) (granteeService : String) (purposes : List String)

inductive Phase
  | first | find | insert | claim | revoke
  | revoking (todo : List Nat)
  | audit | commit
deriving DecidableEq

inductive Lock
  | share | update
deriving DecidableEq

structure Writes where
  change : Option Change
  revoked : List Nat
  intents : List Intent

structure Session where
  op : Operation
  phase : Phase
  now : Int
  fileLock : Option Lock
  grantLock : Option (Nat × Lock)
  ticketLocks : List Nat
  writes : Writes

def Operation.firstPhase : Operation → Phase
  | .placeHold .. | .issueGrant .. | .releaseHold .. => .find
  | _ => .first

def Session.start (db : FileDb) (op : Operation) : Session := ⟨op, op.firstPhase, db.clock, none, none, [], ⟨none, [], []⟩⟩

/-! ## Statements -/

def TICKET_LIFETIME_MIN_SECONDS : Int := 60

section
variable (db : FileDb) (others : (Session → Bool) → Bool) (n : Nat) (x : Session)

def fileLocked : Bool := others fun y => y.fileLock.isSome

def fileUpdated : Bool := others fun y => y.fileLock = some .update

def grantLocked (grant : Nat) : Bool := others fun y => y.grantLock.any fun l => l.1 = grant

def grantUpdated (grant : Nat) : Bool := others fun y => y.grantLock = some (grant, .update)

def ticketLocked (ticket : Nat) : Bool := others fun y => ticket ∈ y.ticketLocks

def pending (p : Change → Bool) : Bool := others fun y => y.writes.change.any p

def Session.go (phase : Phase) : Reply Session := .next { x with phase }

/-- After the changing statement: the tickets, the audit intent, or the commit. -/
def Session.written (fileLock : Option Lock) (grantLock : Option (Nat × Lock)) (ticketLocks : List Nat) (phase : Phase) (c : Change) : Session :=
  { x with
    phase
    fileLock
    grantLock
    ticketLocks
    writes := ⟨some c, [], []⟩ }

def Session.write (phase : Phase) (c : Change) : Reply Session := .next (x.written x.fileLock x.grantLock x.ticketLocks phase c)

def Session.update (phase : Phase) (c : Change) : Reply Session := .next (x.written (some .update) x.grantLock x.ticketLocks phase c)

def completeUpload (attachOnCompletion : Bool) : Reply Session :=
  if fileLocked others then .wait
  else if db.status = .uploading then x.update .commit (.completed attachOnCompletion) else .refused

def refuseUpload (status : FileStatus) : Reply Session :=
  if fileLocked others then .wait
  else if db.status = .uploading ∧ (status = .rejected ∨ status = .failed) then x.update .commit (.refused status) else .refused

def attach (scope : FileScope) : Reply Session :=
  if fileLocked others then .wait
  else if scope = db.scope ∧ ¬ db.attached ∧ (db.status = .uploading ∨ db.status = .available) then x.update .commit .attached else .refused

def requestDeletion (scope : FileScope) : Reply Session :=
  if fileLocked others then .wait
  else if scope = db.scope ∧ db.status = .available ∧ ¬ db.held then x.update .revoke (.deleting false) else .refused

def expireUnattached : Reply Session :=
  if ¬ fileLocked others ∧ db.status = .available ∧ ¬ db.attached ∧ (db.attachDeadline.any fun d => d ≤ x.now) ∧ ¬ db.held then
    x.update .revoke (.deleting true)
  else .refused

def completeDeletion : Reply Session :=
  if fileLocked others then .wait
  else if db.status = .deleting ∧ ¬ db.held then x.update .commit .deleted else .refused

def find (used : Bool) : Reply Session := if used then .refused else x.go .first

/-- `SELECT … FOR SHARE` of the owner's file. -/
def shareFile (scope : FileScope) (ok : Bool) : Reply Session :=
  if fileUpdated others then .wait
  else if scope = db.scope ∧ db.status = .available ∧ ok then .next { x with
    phase := .insert
    fileLock := some .share }
  else .refused

def insertHold (holdRef : String) : Reply Session :=
  if pending others fun c => match c with | .holdPlaced h => h.holdRef = holdRef | _ => false then .wait
  else if db.holds.any fun h => h.holdRef = holdRef then .refused
  else x.write .audit (.holdPlaced ⟨n, holdRef⟩)

def releaseHold (holdRef : String) : Reply Session :=
  match db.holds.find? fun h => h.holdRef = holdRef with
  | none => .refused
  | some h =>
    if pending others fun c => c = .holdReleased h.id then .wait
    else if h.id ∈ db.releases then .refused
    else x.write .audit (.holdReleased h.id)

def insertGrant (granteeService purpose idempotencyKey : String) (lifetimeSeconds : Nat) : Reply Session :=
  if pending others fun c => match c with | .grantIssued g => g.idempotencyKey = idempotencyKey | _ => false then .wait
  else if db.grants.any fun g => g.idempotencyKey = idempotencyKey then .refused
  else x.write .audit (.grantIssued ⟨n, granteeService, purpose, idempotencyKey, x.now + lifetimeSeconds, false⟩)

def revokeGrant (scope : FileScope) (grant : Nat) : Reply Session :=
  if grantLocked others grant then .wait
  else if scope = db.scope ∧ db.grants.any fun g => g.id = grant ∧ ¬ g.revoked then
    .next (x.written x.fileLock (some (grant, .update)) x.ticketLocks .revoke (.grantRevoked grant))
  else .refused

def recordDownload (scope : FileScope) (lifetimeSeconds : Nat) (singleUse : Bool) : Reply Session :=
  if fileUpdated others then .wait
  else if scope = db.scope ∧ db.status = .available then
    .next (x.written (some .share) x.grantLock x.ticketLocks .commit (.ticketIssued ⟨n, none, singleUse, 0, false, false, x.now + lifetimeSeconds⟩))
  else .refused

def usable (grant : Nat) (granteeService : String) (purposes : List String) : Option Grant :=
  if db.status = .available then
    db.grants.find? fun g => g.id = grant ∧ g.granteeService = granteeService ∧ g.purpose ∈ purposes ∧ ¬ g.revoked ∧ x.now < g.expiresAt
  else none

def authorize (grant : Nat) (granteeService : String) (purposes : List String) (next : Session) : Reply Session :=
  if fileUpdated others ∨ grantUpdated others grant then .wait
  else if (usable db x grant granteeService purposes).isSome then .next next
  else .refused

def Session.sharing (grant : Nat) : Session :=
  { x with
    fileLock := some .share
    grantLock := some (grant, .share) }

def insertGrantTicket (grant : Nat) (granteeService : String) (purposes : List String) (lifetimeSeconds : Nat) (singleUse : Bool) : Reply Session :=
  match usable db x grant granteeService purposes with
  | none => .refused
  | some g =>
    if x.now + TICKET_LIFETIME_MIN_SECONDS ≤ g.expiresAt then
      x.write .audit (.ticketIssued ⟨n, some grant, singleUse, 0, false, false, min (x.now + lifetimeSeconds) g.expiresAt⟩)
    else .refused

def claimable (ticket : Nat) : Bool :=
  db.status = .available ∧ db.tickets.any fun t => t.id = ticket ∧ t.grantId.all fun i => db.grants.any fun g => g.id = i ∧ ¬ g.revoked ∧ x.now < g.expiresAt

def claimDownload (ticket maxUses : Nat) : Reply Session :=
  if ticketLocked others ticket then .wait
  else match db.tickets.find? fun t => t.id = ticket with
    | none => .refused
    | some t =>
      if ¬ t.revoked ∧ x.now < t.expiresAt ∧ (t.singleUse → t.useCount = 0 ∧ ¬ t.reserved) ∧ t.useCount < maxUses then
        .next (x.written x.fileLock x.grantLock [ticket] (if t.grantId.isSome then .audit else .commit) (.redeemed t x.now))
      else .refused

def Change.ends (t : Ticket) : Change → Bool
  | .deleting _ => true
  | .grantRevoked grant => t.grantId = some grant
  | _ => false

def revokeTickets (c : Change) : Reply Session := x.go (.revoking ((db.tickets.filter fun t => ¬ t.revoked ∧ c.ends t).map Ticket.id))

def revokeTicket (ticket : Nat) (todo : List Nat) : Reply Session :=
  if ticketLocked others ticket then .wait
  else if db.tickets.any fun t => t.id = ticket ∧ ¬ t.revoked then .next { x with
    phase := .revoking todo
    ticketLocks := ticket :: x.ticketLocks
    writes := { x.writes with revoked := ticket :: x.writes.revoked } }
  else x.go (.revoking todo)

def Session.first : Reply Session :=
  match x.op with
  | .completeUpload attachOnCompletion => completeUpload db others x attachOnCompletion
  | .refuseUpload status => refuseUpload db others x status
  | .attach scope => attach db others x scope
  | .requestDeletion scope => requestDeletion db others x scope
  | .expireUnattached => expireUnattached db others x
  | .completeDeletion => completeDeletion db others x
  | .placeHold scope _ => shareFile db others x scope true
  | .releaseHold _ holdRef => releaseHold db others x holdRef
  | .issueGrant scope .. => shareFile db others x scope db.attached
  | .revokeGrant scope grant => revokeGrant db others x scope grant
  | .recordDownload scope lifetimeSeconds singleUse => recordDownload db others n x scope lifetimeSeconds singleUse
  | .recordGrantDownload grant granteeService purposes _ _ => authorize db others x grant granteeService purposes { x.sharing grant with phase := .insert }
  | .redeem ticket _ => if claimable db x ticket then x.go .claim else .refused
  | .grantedRead grant granteeService purposes =>
    authorize db others x grant granteeService purposes (x.written (some .share) (some (grant, .share)) [] .audit (.granted grant x.now))

def Session.exec : Reply Session :=
  match x.phase with
  | .find => match x.op with
    | .placeHold _ holdRef => find x (db.holds.any fun h => h.holdRef = holdRef)
    | .releaseHold scope holdRef => find x (¬ (scope = db.scope ∧ db.holds.any fun h => h.holdRef = holdRef))
    | .issueGrant _ _ _ idempotencyKey _ => find x (db.grants.any fun g => g.idempotencyKey = idempotencyKey)
    | _ => .refused
  | .first => x.first db others n
  | .insert => match x.op with
    | .placeHold _ holdRef => insertHold db others n x holdRef
    | .issueGrant _ granteeService purpose idempotencyKey lifetimeSeconds => insertGrant db others n x granteeService purpose idempotencyKey lifetimeSeconds
    | .recordGrantDownload grant granteeService purposes lifetimeSeconds singleUse =>
      insertGrantTicket db n x grant granteeService purposes lifetimeSeconds singleUse
    | _ => .refused
  | .claim => match x.op with
    | .redeem ticket maxUses => claimDownload db others x ticket maxUses
    | _ => .refused
  | .revoke => match x.writes.change with
    | some c => revokeTickets db x c
    | none => .refused
  | .revoking (ticket :: todo) => revokeTicket db others x ticket todo
  | .revoking [] => x.go (if (x.writes.change.bind Change.intent).isSome then .audit else .commit)
  | .audit => .next { x with
    phase := .commit
    writes := { x.writes with intents := (x.writes.change.bind Change.intent).toList } }
  | .commit => .wait

end

def Change.status : Change → Option FileStatus
  | .completed _ => some .available
  | .refused status => some status
  | .deleting _ => some .deleting
  | .deleted => some .deleted
  | _ => none

def Change.attaches : Change → Bool
  | .completed attachOnCompletion => attachOnCompletion
  | .attached => true
  | _ => false

def Change.hold : Change → Option Hold
  | .holdPlaced h => some h
  | _ => none

def Change.release : Change → Option Nat
  | .holdReleased hold => some hold
  | _ => none

def Change.grant : Change → Option Grant
  | .grantIssued g => some g
  | _ => none

def Change.ticket : Change → Option Ticket
  | .ticketIssued t => some t
  | _ => none

def Change.redeems (ticket : Nat) : Change → Bool
  | .redeemed t _ => t.id = ticket
  | _ => false

def Grant.after (w : Writes) (g : Grant) : Grant := { g with revoked := g.revoked || w.change = some (.grantRevoked g.id) }

def Ticket.after (w : Writes) (t : Ticket) : Ticket :=
  { t with
    revoked := t.revoked || t.id ∈ w.revoked
    reserved := t.reserved || (t.singleUse && w.change.any (Change.redeems t.id))
    useCount := if w.change.any (Change.redeems t.id) ∧ ¬ t.singleUse then t.useCount + 1 else t.useCount }

def FileDb.apply (db : FileDb) (w : Writes) : FileDb :=
  { db with
    status := (w.change.bind Change.status).getD db.status
    attached := db.attached || w.change.any Change.attaches
    holds := db.holds ++ (w.change.bind Change.hold).toList
    releases := db.releases ++ (w.change.bind Change.release).toList
    grants := db.grants.map (Grant.after w) ++ (w.change.bind Change.grant).toList
    tickets := db.tickets.map (Ticket.after w) ++ (w.change.bind Change.ticket).toList
    outbox := db.outbox ++ w.intents
    history := db.history ++ w.change.toList }

def fileAccess : Transactions FileDb Session Operation Nat where
  start db _ op := some (Session.start db op)
  exec := Session.exec
  commit db _ x := if x.phase = .commit then some (db.apply x.writes, none) else none
  elapse db d := { db with clock := db.clock + d }

def FileDb.created (scope : FileScope) (attachDeadline : Option Int) (attached : Bool) (clock : Int) : FileDb :=
  ⟨scope, .uploading, attachDeadline, attached, clock, [], [], [], [], [], []⟩

def Change.uses : Change → Bool
  | .attached | .deleting _ | .holdPlaced _ | .grantIssued _ | .ticketIssued _ | .redeemed .. | .granted .. => true
  | _ => false

def Change.through : Change → Option Nat
  | .ticketIssued t | .redeemed t _ => t.grantId
  | .granted grant _ => some grant
  | _ => none

def Change.cuts (a c : Change) : Prop :=
  (∃ expired, a = .deleting expired) ∧ c.uses ∨ (∃ grant, a = .grantRevoked grant ∧ c.through = some grant) ∨ a.attaches ∧ c = .deleting true

structure AccessLaw (db : FileDb) : Prop where
  held : db.held → db.status = .available
  cut : db.history.Pairwise fun a b => ¬ a.cuts b
  tickets : db.gone → ∀ t ∈ db.tickets, t.revoked
  grantTickets : ∀ t ∈ db.tickets, ∀ g ∈ db.grants, t.grantId = some g.id → g.revoked → t.revoked
  lifetime : ∀ t ∈ db.tickets, ∀ i, t.grantId = some i → ∃ g ∈ db.grants, g.id = i ∧ t.expiresAt ≤ g.expiresAt
  redeemed : ∀ t now, .redeemed t now ∈ db.history → now < t.expiresAt ∧ ∀ i, t.grantId = some i → ∃ g ∈ db.grants, g.id = i ∧ now < g.expiresAt
  granted : ∀ i now, .granted i now ∈ db.history → ∃ g ∈ db.grants, g.id = i ∧ now < g.expiresAt
  deleting : db.gone ↔ ∃ expired, .deleting expired ∈ db.history
  revokedGrants : ∀ g ∈ db.grants, g.revoked ↔ .grantRevoked g.id ∈ db.history
  attached : (∃ c ∈ db.history, c.attaches) → db.attached
  holds : db.holds = db.history.filterMap Change.hold
  releases : db.releases = db.history.filterMap Change.release
  grantIds : db.grants.map Grant.id = (db.history.filterMap Change.grant).map Grant.id
  ticketIds : db.tickets.map Ticket.id = (db.history.filterMap Change.ticket).map Ticket.id
  audited : db.outbox = db.history.filterMap Change.intent

end NawaraCore.FileAccess
