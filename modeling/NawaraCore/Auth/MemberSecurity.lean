import NawaraCore.Lib.Transactions

/-!
# Suspension and restoration of a member

The memberships of one member identity, in the organizations of any companies, and the owners
who suspend or restore it. `FOR UPDATE` on the user row excludes the key lock that the foreign
key of a new membership takes; a decision on a membership locks that membership only.
-/

namespace NawaraCore.MemberSecurity

inductive UserKind
  | member | owner | operator
deriving DecidableEq

structure User where
  kind : UserKind
  isActive : Bool
deriving DecidableEq

inductive MembershipStatus
  | pending | active | rejected | revoked
deriving DecidableEq

structure Membership where
  id : Nat
  organization : Nat
  status : MembershipStatus

inductive StepUpMethod
  | totp | webauthn | secretKey
deriving DecidableEq

inductive Purpose
  | suspend | restore | other
deriving DecidableEq

structure StepUp where
  id : Nat
  owner : Nat
  sid : Nat
  purpose : Purpose
  method : StepUpMethod
  expiresAt : Int
  consumed : Bool

structure Evidence where
  suspended : Bool
  owner : Nat

/-- The anchors that no update changes: an organization's company through its platform, and an owner's company. -/
structure Directory where
  company : Nat → Nat
  ownerCompany : Nat → Option Nat

structure MemberDb where
  user : Option User
  memberships : List Membership
  stepUps : List StepUp
  /-- The session families of the user that are not revoked. -/
  families : List Nat
  audits : List Evidence
  outbox : List Evidence
  clock : Int

/-! ## Sessions -/

structure Call where
  owner : Nat
  sid : Nat
  company : Nat
  suspend : Bool
  token : Option Nat

inductive Stmt
  | issueStepUp (s : StepUp)
  | consume (c : Call)
  | lockTarget (c : Call)
  | eligibleMember (c : Call)
  | setActive (active : Bool)
  | revokeAllForUser
  | record (e : Evidence)
  | createUser (kind : UserKind)
  | createMembership (organization : Nat) (status : MembershipStatus)
  | issueFamily
  | lockMembership (id : Nat) (status : MembershipStatus)
  | setStatus (id : Nat) (status next : MembershipStatus)

inductive RowLock
  | forKeyShare | forUpdate
deriving DecidableEq

structure Work where
  call : Option Call
  userLock : Option RowLock
  membership : Option Nat
  issued : Option StepUp
  consumed : Option Nat
  created : Option User
  joined : Option (Nat × MembershipStatus)
  status : Option (Nat × MembershipStatus)
  active : Option Bool
  revokes : Bool
  family : Bool
  evidence : List Evidence
  /-- The active memberships in the company that the eligibility check read. -/
  seen : List Nat

structure Session where
  todo : List Stmt
  work : Work

def Work.empty : Work := ⟨none, none, none, none, none, none, none, none, none, false, false, [], []⟩

inductive Operation
  | issue (owner sid : Nat) (purpose : Purpose) (method : StepUpMethod) (ttl : Nat)
  | apply (owner sid : Nat) (suspend : Bool) (token : Option Nat)
  | register (organization : Nat) (requiresApproval : Bool)
  | accept (organization : Nat)
  | createOther (kind : UserKind)
  | join (organization : Nat) (requiresApproval : Bool)
  | approve (id : Nat)
  | reject (id : Nat)
  | revoke (id : Nat)

def joinStatus (requiresApproval : Bool) : MembershipStatus := if requiresApproval then .pending else .active

section
variable (dir : Directory)

def Session.of (todo : List Stmt) : Session := ⟨todo, .empty⟩

def start (now : Int) (n : Nat) : Operation → Option Session
  | .issue owner sid purpose method ttl => some (.of [.issueStepUp ⟨n, owner, sid, purpose, method, now + ttl, false⟩])
  | .apply owner sid suspend token => (dir.ownerCompany owner).map fun company =>
    let c := ⟨owner, sid, company, suspend, token⟩
    ⟨[.consume c, .lockTarget c, .eligibleMember c], { Work.empty with call := some c }⟩
  | .register organization requiresApproval => some (.of [.createUser .member, .createMembership organization (joinStatus requiresApproval), .issueFamily])
  | .accept organization => some (.of [.createUser .member, .createMembership organization .active, .issueFamily])
  | .createOther kind => some (.of [.createUser kind])
  | .join organization requiresApproval => some (.of [.createMembership organization (joinStatus requiresApproval)])
  | .approve id => some (.of [.lockMembership id .pending, .setStatus id .pending .active])
  | .reject id => some (.of [.lockMembership id .pending, .setStatus id .pending .rejected])
  | .revoke id => some (.of [.lockMembership id .active, .setStatus id .active .revoked])

def Session.creates (x : Session) : Bool := x.work.created.isSome

def Session.locksUser (x : Session) : Bool := x.work.userLock.isSome

def Session.locksForUpdate (x : Session) : Bool := x.work.userLock = some .forUpdate

def Session.locksMembership (id : Nat) (x : Session) : Bool := x.work.membership = some id

def Session.consumes (id : Nat) (x : Session) : Bool := x.work.consumed = some id

def Session.joins (organization : Nat) (x : Session) : Bool := x.work.joined.any fun j => j.1 = organization

variable (db : MemberDb) (others : (Session → Bool) → Bool) (todo : List Stmt) (w : Work)

def Call.purpose (c : Call) : Purpose := if c.suspend then .suspend else .restore

def allowed (method : StepUpMethod) : Bool := method = .totp ∨ method = .webauthn

def usable (c : Call) (s : StepUp) : Bool :=
  some s.id = c.token ∧ s.owner = c.owner ∧ s.sid = c.sid ∧ s.purpose = c.purpose ∧ ¬ s.consumed ∧ db.clock < s.expiresAt

def consume (c : Call) : Reply Session :=
  match c.token with
  | none => .refused
  | some token =>
    if others (Session.consumes token) then .wait
    else match db.stepUps.find? (usable db c) with
      | none => .refused
      | some s => if allowed s.method then .next ⟨todo, { w with consumed := some token }⟩ else .refused

def lockTarget : Reply Session :=
  if others Session.locksUser then .wait
  else match db.user with
    | none => .refused
    | some u => if u.kind = .member then .next ⟨todo, { w with userLock := some .forUpdate }⟩ else .refused

def inCompany (c : Call) (m : Membership) : Bool := m.status = .active ∧ dir.company m.organization = c.company

def elsewhere (c : Call) (m : Membership) : Bool := (m.status = .active ∨ m.status = .pending) ∧ dir.company m.organization ≠ c.company

def eligibleMember (c : Call) : Reply Session :=
  match db.user with
  | none => .refused
  | some u =>
    if db.memberships.any (elsewhere dir c) then .refused
    else if ¬ db.memberships.any (inCompany dir c) then .refused
    else
      let w := { w with seen := (db.memberships.filter (inCompany dir c)).map Membership.id }
      if u.isActive = ! c.suspend then .next ⟨todo, w⟩
      else .next ⟨.setActive (! c.suspend) :: (if c.suspend then [.revokeAllForUser] else []) ++ .record ⟨c.suspend, c.owner⟩ :: todo, w⟩

def createUser (kind : UserKind) : Reply Session :=
  if db.user.isSome ∨ others Session.creates then .refused else .next ⟨todo, { w with created := some ⟨kind, true⟩ }⟩

/-- The foreign key reads the user row under a key lock; the user's own transaction has it already. -/
def createMembership (organization : Nat) (status : MembershipStatus) : Reply Session :=
  if others Session.locksForUpdate ∨ others (Session.joins organization) then .wait
  else match w.created <|> db.user with
    | none => .refused
    | some u =>
      if u.kind = .member ∧ ¬ db.memberships.any (fun m => m.organization = organization) then
        .next ⟨todo, { w with
          userLock := some .forKeyShare
          joined := some (organization, status) }⟩
      else .refused

def lockMembership (id : Nat) (status : MembershipStatus) : Reply Session :=
  if others (Session.locksMembership id) then .wait
  else match db.memberships.find? fun m => m.id = id with
    | none => .refused
    | some m => if m.status = status then .next ⟨todo, { w with membership := some id }⟩ else .refused

def setStatus (id : Nat) (status next : MembershipStatus) : Reply Session :=
  match db.memberships.find? fun m => m.id = id with
  | none => .refused
  | some m => if m.status = status then .next ⟨todo, { w with status := some (id, next) }⟩ else .refused

def runStmt : Stmt → Reply Session
  | .issueStepUp s => .next ⟨todo, { w with issued := some s }⟩
  | .consume c => consume db others todo w c
  | .lockTarget _ => lockTarget db others todo w
  | .eligibleMember c => eligibleMember dir db todo w c
  | .setActive active => .next ⟨todo, { w with active := some active }⟩
  | .revokeAllForUser => .next ⟨todo, { w with revokes := true }⟩
  | .record e => .next ⟨todo, { w with evidence := w.evidence ++ [e] }⟩
  | .createUser kind => createUser db others todo w kind
  | .createMembership organization status => createMembership db others todo w organization status
  | .issueFamily => .next ⟨todo, { w with family := true }⟩
  | .lockMembership id status => lockMembership db others todo w id status
  | .setStatus id status next => setStatus db todo w id status next

def Session.exec (x : Session) : Reply Session :=
  match x.todo with
  | [] => .wait
  | s :: todo => runStmt dir db others todo x.work s

def Membership.after (w : Work) (m : Membership) : Membership :=
  match w.status with
  | some (id, status) => if m.id = id then { m with status } else m
  | none => m

def StepUp.after (w : Work) (s : StepUp) : StepUp := if w.consumed = some s.id then { s with consumed := true } else s

def User.after (w : Work) (u : User) : User := { u with isActive := w.active.getD u.isActive }

def MemberDb.apply (n : Nat) : MemberDb :=
  { db with
    user := w.created <|> db.user.map (User.after w)
    memberships := db.memberships.map (Membership.after w) ++ (w.joined.map fun (organization, status) => ⟨n, organization, status⟩).toList
    stepUps := db.stepUps.map (StepUp.after w) ++ w.issued.toList
    families := (if w.revokes then [] else db.families) ++ (if w.family then [n] else [])
    audits := db.audits ++ w.evidence
    outbox := db.outbox ++ w.evidence }

def commit (n : Nat) (x : Session) : Option (MemberDb × Option Session) := if x.todo = [] then some (db.apply x.work n, none) else none

end

def members (dir : Directory) : Transactions MemberDb Session Operation Nat where
  start db n op := start dir db.clock n op
  exec db others _ x := x.exec dir db others
  commit db n x := commit db n x
  elapse db d := { db with clock := db.clock + d }

def MemberDb.new : MemberDb := ⟨none, [], [], [], [], [], 0⟩

/-- What the check of a call has read stands: the memberships of the company that it saw are active unless revoked since, and no
other company has one. -/
structure Eligible (dir : Directory) (db : MemberDb) (c : Call) (seen : List Nat) : Prop where
  member : seen ≠ []
  seen : ∀ id ∈ seen, ∃ m ∈ db.memberships, m.id = id ∧ dir.company m.organization = c.company ∧ (m.status = .active ∨ m.status = .revoked)
  apart : ∀ m ∈ db.memberships, elsewhere dir c m = false

def Changes (db db' : MemberDb) : Prop := ∃ u u', db.user = some u ∧ db'.user = some u' ∧ u'.isActive ≠ u.isActive

def Answers (s : Transactions.State MemberDb Session) (a : Transactions.Action Operation Nat) (x : Session) (c : Call) : Prop :=
  ∃ n, a = .commit n ∧ s.session n = some x ∧ x.todo = [] ∧ x.work.call = some c

structure ChangeLaw (dir : Directory) (s : Transactions.State MemberDb Session) (a : Transactions.Action Operation Nat) (db' : MemberDb) : Prop where
  changed : Changes s.db db' → ∃ x c, Answers s a x c ∧ Eligible dir s.db c x.work.seen ∧ ∃ u, db'.user = some u ∧ u.isActive = ! c.suspend
  /-- An unchanged answer consumes the step-up and writes nothing else. -/
  unchanged : ∀ x c, Answers s a x c → ¬ Changes s.db db' → db' = { s.db with stepUps := s.db.stepUps.map (StepUp.after x.work) }
  spent : ∀ t ∈ s.db.stepUps, t ∉ db'.stepUps → ∃ x c, Answers s a x c ∧ c.token = some t.id

end NawaraCore.MemberSecurity
