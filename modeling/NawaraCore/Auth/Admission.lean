import NawaraCore.Lib.Rows
import NawaraCore.Lib.Transactions

/-!
# Join codes and admin invitations

A member registers or joins with an organization's join code, or accepts an admin invitation. The
code is looked up before the transaction; inside it one conditional `UPDATE` spends a use or consumes
the invitation, and the account, the membership, the session and the events are written beside it. A
row that another transaction has updated or inserted makes the statement wait for its end.
-/

namespace NawaraCore.Admission

abbrev Uuid := Nat

structure JoinCode where
  id : Uuid
  organizationId : Uuid
  codeHash : String
  audience : String
  requiresApproval : Bool
  expiresAt : Option Int
  maxUses : Option Nat
  usedCount : Nat
  isActive : Bool
  revokedAt : Option Int

structure Invitation where
  id : Uuid
  organizationId : Uuid
  codeHash : String
  invitationType : String
  inviteeContactHash : Option String
  expiresAt : Int
  createdBy : Uuid
  consumedAt : Option Int
  consumedBy : Option Uuid
  revokedAt : Option Int

structure User where
  id : Uuid
  email : Option String
  phone : Option String

inductive MembershipStatus
  | pending | active
deriving DecidableEq

structure Membership where
  userId : Uuid
  organizationId : Uuid
  status : MembershipStatus
  joinCodeId : Option Uuid
  invitationId : Option Uuid
  audience : String
  approvedAt : Option Int
  approvedBy : Option Uuid
  isOrganizationAdmin : Bool
  createdAt : Int

inductive DomainEvent
  | userRegistered (userId : Uuid) (role : String) (organizationId : Uuid)
  | membershipRequested (userId organizationId : Uuid) (audience : String)
  | membershipAdminProvisioned (userId organizationId : Uuid) (invitationType : String)

/-- The committed rows; `sessions` holds the user of each session that was issued, `events` is the outbox. -/
structure Db where
  codes : List JoinCode
  invitations : List Invitation
  users : List User
  memberships : List Membership
  sessions : List Uuid
  events : List DomainEvent
  clock : Int

def Db.new (clock : Int) : Db := ⟨[], [], [], [], [], [], clock⟩

def JoinCode.usable (c : JoinCode) (now : Int) : Bool :=
  c.isActive ∧ c.revokedAt = none ∧ (∀ e ∈ c.expiresAt, now < e) ∧ ∀ m ∈ c.maxUses, c.usedCount < m

def JoinCode.spend (c : JoinCode) : JoinCode := { c with usedCount := c.usedCount + 1 }

def JoinCode.revoke (c : JoinCode) (now : Int) : JoinCode :=
  { c with
    isActive := false
    revokedAt := some now }

def Invitation.usable (i : Invitation) (now : Int) (contactHash : String) : Bool :=
  i.consumedAt = none ∧ i.revokedAt = none ∧ now < i.expiresAt ∧ ∀ h ∈ i.inviteeContactHash, h = contactHash

def Invitation.consume (i : Invitation) (now : Int) (userId : Uuid) : Invitation :=
  { i with
    consumedAt := some now
    consumedBy := some userId }

def Invitation.revoke (i : Invitation) (now : Int) : Invitation := { i with revokedAt := some now }

def clash (a b : Option String) : Bool := a.isSome && a = b

def User.clashes (u v : User) : Bool := clash u.email v.email || clash u.phone v.phone

def Membership.clashes (m k : Membership) : Bool := m.userId = k.userId && m.organizationId = k.organizationId

/-! ## Calls -/

inductive Contact
  | email (e : String)
  | phone (p : String)

def Contact.user (c : Contact) (id : Uuid) : User :=
  match c with
  | .email e => ⟨id, some e, none⟩
  | .phone p => ⟨id, none, some p⟩

/-- `code` is the hash of the normalised code that was submitted, `none` when it is malformed; e-mails and phones
are normalised. -/
inductive Operation
  | register (email phone : Option String) (code : Option String)
  | join (userId : Uuid) (code : Option String)
  | accept (contact : Contact) (code : Option String)
  | revokeCode (organizationId id : Uuid)
  | revokeInvitation (organizationId id : Uuid)
  | enroll (email phone : Option String)

inductive Stage
  | lookup | clock | spend | create | admission | issue | ready
deriving DecidableEq

/-- A call with what its transaction has written: the new version of the code or invitation row that it has
locked, and the rows that it has inserted. `found` is the invitation of the lookup. -/
structure Session where
  op : Operation
  stage : Stage
  now : Int
  found : Option Invitation
  code : Option JoinCode
  invitation : Option Invitation
  user : Option User
  membership : Option Membership
  session : Option Uuid
  events : List DomainEvent

def Session.holdsCode (id : Uuid) (x : Session) : Bool := x.code.any fun c => c.id = id

def Session.holdsInvitation (id : Uuid) (x : Session) : Bool := x.invitation.any fun i => i.id = id

def Session.holdsUser (u : User) (x : Session) : Bool := x.user.any u.clashes

def Session.holdsMembership (m : Membership) (x : Session) : Bool := x.membership.any m.clashes

section
variable (contactHash : Contact → String) (db : Db) (others : (Session → Bool) → Bool) (n : Nat) (x : Session)

def Db.codeOf (code : Option String) : Option JoinCode := code.bind fun h => db.codes.find? fun c => c.codeHash = h

def Db.invitationOf (code : Option String) : Option Invitation := code.bind fun h => db.invitations.find? fun i => i.codeHash = h

def Session.lookup : Reply Session :=
  match x.op with
  | .register _ _ code | .join _ code =>
    match db.codeOf code with
    | none => .refused
    | some c => if c.usable db.clock then .next { x with stage := .clock } else .refused
  | .accept contact code =>
    match db.invitationOf code with
    | none => .refused
    | some i =>
      if i.usable db.clock (contactHash contact) then .next { x with
        found := some i
        stage := .create } else .refused
  | _ => .refused

def Session.spendCode (c : JoinCode) (stage : Stage) : Reply Session :=
  if c.usable x.now = false then .refused
  else if others (Session.holdsCode c.id) then .wait
  else .next { x with
    code := some c.spend
    stage }

/-- The conditional `UPDATE`; its `now` was read before it. -/
def Session.spend : Reply Session :=
  match x.op with
  | .register _ _ code => match db.codeOf code with
    | none => .refused
    | some c => x.spendCode others c .create
  | .join _ code => match db.codeOf code with
    | none => .refused
    | some c => x.spendCode others c .admission
  | .accept contact code => match db.invitationOf code with
    | none => .refused
    | some i =>
      if i.usable x.now (contactHash contact) = false then .refused
      else if others (Session.holdsInvitation i.id) then .wait
      else .next { x with
        invitation := some (i.consume x.now n)
        stage := .admission }
  | .revokeCode organizationId id => match db.codes.find? fun c => c.id = id ∧ c.organizationId = organizationId with
    | none => .refused
    | some c =>
      if c.revokedAt ≠ none then .refused
      else if others (Session.holdsCode c.id) then .wait
      else .next { x with
        code := some (c.revoke x.now)
        stage := .ready }
  | .revokeInvitation organizationId id => match db.invitations.find? fun i => i.id = id ∧ i.organizationId = organizationId with
    | none => .refused
    | some i =>
      if i.consumedAt ≠ none ∨ i.revokedAt ≠ none then .refused
      else if others (Session.holdsInvitation i.id) then .wait
      else .next { x with
        invitation := some (i.revoke x.now)
        stage := .ready }
  | .enroll _ _ => .refused

def Session.insertUser (u : User) (stage : Stage) : Reply Session :=
  if others (Session.holdsUser u) then .wait
  else if db.users.any u.clashes then .refused
  else .next { x with
    user := some u
    stage }

def Session.create : Reply Session :=
  match x.op with
  | .register email phone _ => x.insertUser db others ⟨n, email, phone⟩ .admission
  | .accept contact _ => x.insertUser db others (contact.user n) .clock
  | .enroll email phone => x.insertUser db others ⟨n, email, phone⟩ .ready
  | _ => .refused

def membershipOf (userId : Uuid) (c : JoinCode) (now : Int) : Membership where
  userId
  organizationId := c.organizationId
  status := if c.requiresApproval then .pending else .active
  joinCodeId := some c.id
  invitationId := none
  audience := c.audience
  approvedAt := if c.requiresApproval then none else some now
  approvedBy := none
  isOrganizationAdmin := false
  createdAt := now

def adminMembership (userId : Uuid) (i : Invitation) (now : Int) : Membership where
  userId
  organizationId := i.organizationId
  status := .active
  joinCodeId := none
  invitationId := some i.id
  audience := i.invitationType
  approvedAt := some now
  approvedBy := some i.createdBy
  isOrganizationAdmin := true
  createdAt := now

/-- The insert of a membership: one for each user and organization, of an account that exists. -/
def Session.insertMembership (m : Membership) : Reply Session :=
  if others (Session.holdsMembership m) then .wait
  else if db.memberships.any m.clashes then .refused
  else if x.user = none ∧ ¬ db.users.any fun u => u.id = m.userId then .refused
  else .next { x with
    membership := some m
    stage := .issue }

def Session.admission : Reply Session :=
  match x.op, x.code, x.found with
  | .register _ _ _, some c, _ => x.insertMembership db others (membershipOf n c db.clock)
  | .join userId _, some c, _ => x.insertMembership db others (membershipOf userId c db.clock)
  | .accept _ _, _, some i => x.insertMembership db others (adminMembership n i x.now)
  | _, _, _ => .refused

def requested (m : Membership) : List DomainEvent :=
  if m.status = .pending then [.membershipRequested m.userId m.organizationId m.audience] else []

def Session.issue : Reply Session :=
  match x.op, x.membership with
  | .register _ _ _, some m => .next { x with
    events := .userRegistered m.userId m.audience m.organizationId :: requested m
    session := some m.userId
    stage := .ready }
  | .join _ _, some m => .next { x with
    events := requested m
    stage := .ready }
  | .accept _ _, some m => .next { x with
    events := [.userRegistered m.userId m.audience m.organizationId,
      .membershipAdminProvisioned m.userId m.organizationId m.audience]
    session := some m.userId
    stage := .ready }
  | _, _ => .refused

def Session.exec : Reply Session :=
  match x.stage with
  | .lookup => x.lookup contactHash db
  | .clock => .next { x with
    now := db.clock
    stage := .spend }
  | .spend => x.spend contactHash db others n
  | .create => x.create db others n
  | .admission => x.admission db others n
  | .issue => x.issue
  | .ready => .wait

def Session.publish : Db :=
  { db with
    codes := x.code.elim db.codes fun c => replaceRow JoinCode.id c db.codes
    invitations := x.invitation.elim db.invitations fun i => replaceRow Invitation.id i db.invitations
    users := db.users ++ x.user.toList
    memberships := db.memberships ++ x.membership.toList
    sessions := db.sessions ++ x.session.toList
    events := db.events ++ x.events }

def Session.commit : Option (Db × Option Session) :=
  if x.stage = .ready then some (x.publish db, none) else none

end

inductive Change
  | tick (d : Nat)
  | createCode (id organizationId : Uuid) (codeHash audience : String) (requiresApproval : Bool) (expiresAt : Option Int)
    (maxUses : Option Nat)
  | createInvitation (id organizationId : Uuid) (codeHash invitationType : String) (inviteeContactHash : Option String)
    (expiresAt : Int) (createdBy : Uuid)

def Db.elapse (db : Db) : Change → Db
  | .tick d => { db with clock := db.clock + d }
  | .createCode id organizationId codeHash audience requiresApproval expiresAt maxUses =>
    if db.codes.any fun c => c.id = id ∨ c.codeHash = codeHash then db
    else { db with codes := db.codes ++
      [⟨id, organizationId, codeHash, audience, requiresApproval, expiresAt, maxUses, 0, true, none⟩] }
  | .createInvitation id organizationId codeHash invitationType inviteeContactHash expiresAt createdBy =>
    if db.invitations.any fun i => i.id = id ∨ i.codeHash = codeHash then db
    else { db with invitations := db.invitations ++
      [⟨id, organizationId, codeHash, invitationType, inviteeContactHash, expiresAt, createdBy, none, none, none⟩] }

def Operation.first : Operation → Stage
  | .register _ _ _ | .join _ _ | .accept _ _ => .lookup
  | .revokeCode _ _ | .revokeInvitation _ _ => .clock
  | .enroll _ _ => .create

def Operation.start (clock : Int) (op : Operation) : Session :=
  ⟨op, op.first, clock, none, none, none, none, none, none, []⟩

def admissions (contactHash : Contact → String) : Transactions Db Session Operation Change where
  start db _ op := some (op.start db.clock)
  exec := Session.exec contactHash
  commit db _ x := x.commit db
  elapse := Db.elapse

end NawaraCore.Admission
