import NawaraCore.Lib.Transactions

/-!
# The sessions of one account

Refresh tokens and operator codes of one user of auth-service, beside its suspension or
blocking. Each operation runs its statements at READ COMMITTED: a set-based update takes the
rows of its snapshot, waits for each that another transaction has locked, and checks it again.
-/

namespace NawaraCore.AccountSessions

inductive UserKind
  | member | operator | owner
deriving DecidableEq

inductive CodePurpose
  | confirmation | login
deriving DecidableEq

structure RefreshToken where
  id : Nat
  family : Nat
  revoked : Bool
  replacedBy : Option Nat
  expiresAt : Int
  sessionExpiresAt : Option Int
  /-- The deactivations of the user that had committed when its operation began. -/
  begun : Nat
deriving DecidableEq

/-- An operator code, closed when consumed or superseded. The confirmation code of a new operator is number 0. -/
structure OperatorCode where
  id : Nat
  purpose : CodePurpose
  closed : Bool
  attempts : Nat
  expiresAt : Int
  begun : Nat

structure Account where
  kind : UserKind
  active : Bool
  confirmed : Bool
  clock : Int
  tokens : List RefreshToken
  codes : List OperatorCode
  period : Nat
  cut : List Nat
  /-- For each access token, whether the user was active when its transaction committed. -/
  issued : List Bool

/-! ## Operations -/

inductive Operation
  /-- A member's password login, or an owner's at its second factor. -/
  | login
  | refresh (token : Nat)
  | logout (token : Nat)
  | setActive (active eligible : Bool)
  | setBlocked (blocked : Bool)
  | requestLoginCode (available : Bool) (expiresAt : Int)
  | redeem (purpose : CodePurpose) (right available : Bool) (ceiling : Int)
  | recover
  | endOtherSessions (family : Nat)

inductive Sweep
  | family (f : Nat)
  | user (exceptFamily : Option Nat)
  /-- The update of `revokeByRaw` does not ask whether the token is revoked. -/
  | raw (f : Nat)

def Sweep.names : Sweep → RefreshToken → Bool
  | .family f, t => t.family = f ∧ t.revoked = false
  | .user exceptFamily, t => t.revoked = false ∧ exceptFamily ≠ some t.family
  | .raw f, t => t.family = f

def Sweep.families (tokens : List RefreshToken) : Sweep → List Nat
  | .family f => [f]
  | .user exceptFamily => (tokens.filter (Sweep.user exceptFamily).names).map RefreshToken.family
  | .raw f => [f]

inductive Phase
  | lockUser | updateUser | lockToken | insertToken | replaceToken
  | sweep (w : Sweep)
  | sweeping (w : Sweep) (todo : List Nat)
  | supersede (purpose : Option CodePurpose)
  | superseding (todo : List Nat)
  | insertCode | selectCode
  | checkCode (code : Nat)
  | commit
  | access (active : Bool)

inductive UserLock
  | keyShare | noKeyUpdate | update
deriving DecidableEq

def UserLock.conflicts : UserLock → UserLock → Bool
  | .keyShare, l => l = .update
  | .noKeyUpdate, l => l ≠ .keyShare
  | .update, _ => true

structure Writes where
  active : Option Bool
  confirmed : Bool
  token : Option RefreshToken
  revoked : List Nat
  replaced : Option Nat
  code : Option OperatorCode
  closed : List Nat
  attempted : Option Nat

def Writes.none : Writes := ⟨.none, false, .none, [], .none, .none, [], .none⟩

structure Session where
  op : Operation
  phase : Phase
  /-- `clock.now()` as the operation begins. -/
  now : Int
  begun : Nat
  /-- `isActive` as the operation's first statement saw it. -/
  active : Bool
  userLock : Option UserLock
  tokenLocks : List Nat
  codeLocks : List Nat
  rotating : Option RefreshToken
  /-- The rows that a sweep's snapshot held, and the families it is to end. -/
  seen : List Nat
  seenCodes : List Nat
  cut : List Nat
  writes : Writes

def MAX_CODE_ATTEMPTS : Nat := 5

section
variable (db : Account)

def Operation.begins : Operation → Option Phase
  | .login => if db.kind ≠ .operator ∧ db.active then some .insertToken else none
  | .refresh token => if db.tokens.any fun t => t.id = token then some .lockToken else none
  | .logout token => (db.tokens.find? fun t => t.id = token).map fun t => .sweep (.raw t.family)
  | .setActive _ eligible => if db.kind = .member ∧ eligible then some .lockUser else none
  | .setBlocked _ => if db.kind = .operator then some .updateUser else none
  | .requestLoginCode available expiresAt =>
    if db.kind = .operator ∧ db.active ∧ db.confirmed ∧ available ∧ db.clock < expiresAt then some (.supersede (some .login)) else none
  | .redeem purpose .. =>
    if db.kind = .operator ∧ db.active ∧ (db.confirmed ↔ purpose = .login) then some .selectCode else none
  | .recover => if db.kind = .owner ∧ db.active then some (.sweep (.user none)) else none
  | .endOtherSessions family => if db.kind = .owner then some (.sweep (.user (some family))) else none

def Session.start (op : Operation) : Option Session :=
  (op.begins db).map fun phase => ⟨op, phase, db.clock, db.period, db.active, none, [], [], none, [], [], [], .none⟩

end

/-! ## Statements -/

section
variable (ttl : Int) (db : Account) (others : (Session → Bool) → Bool) (n : Nat) (x : Session)

def userLocked (l : UserLock) : Bool := others fun y => y.userLock.any fun k => l.conflicts k

def tokenLocked (id : Nat) : Bool := others fun y => id ∈ y.tokenLocks

def codeLocked (id : Nat) : Bool := others fun y => id ∈ y.codeLocks

def Session.go (phase : Phase) : Reply Session := .next { x with phase }

def expiry (now : Int) (ceiling : Option Int) : Int := ceiling.elim (now + ttl) fun c => min c (now + ttl)

def Session.ceiling : Option Int :=
  match x.rotating, x.op with
  | some t, _ => t.sessionExpiresAt
  | none, .redeem _ _ _ ceiling => some ceiling
  | none, _ => none

def Session.issues : RefreshToken :=
  { id := n
    family := x.rotating.elim n RefreshToken.family
    revoked := false
    replacedBy := none
    expiresAt := expiry ttl x.now x.ceiling
    sessionExpiresAt := x.ceiling
    begun := x.begun }

def insertToken : Reply Session :=
  if userLocked others .keyShare then .wait
  else .next { x with
    phase := if x.rotating.isSome then .replaceToken else .commit
    userLock := some .keyShare
    writes := { x.writes with token := some (x.issues ttl n) } }

def rotate (t : RefreshToken) : Reply Session :=
  if (t.sessionExpiresAt.any fun c => c ≤ x.now) ∨ t.replacedBy.isSome then .next { x with
    phase := .sweep (.family t.family)
    tokenLocks := [t.id] }
  else if t.revoked ∨ t.expiresAt ≤ x.now then .refused
  else if ¬ x.active then .next { x with
    phase := .sweep (.family t.family)
    tokenLocks := [t.id] }
  else .next { x with
    phase := .insertToken
    tokenLocks := [t.id]
    rotating := some t }

def lockToken (token : Nat) : Reply Session :=
  if tokenLocked others token then .wait
  else match db.tokens.find? fun t => t.id = token with
    | none => .refused
    | some t => rotate x t

def sweep (w : Sweep) : Reply Session :=
  let seen := (db.tokens.filter w.names).map RefreshToken.id
  .next { x with
    phase := .sweeping w seen
    seen
    cut := w.families db.tokens }

def sweepRow (w : Sweep) (id : Nat) (todo : List Nat) : Reply Session :=
  if tokenLocked others id then .wait
  else if db.tokens.any fun t => t.id = id ∧ w.names t then .next { x with
    phase := .sweeping w todo
    tokenLocks := id :: x.tokenLocks
    writes := { x.writes with revoked := id :: x.writes.revoked } }
  else x.go (.sweeping w todo)

def supersedes (purpose : Option CodePurpose) (c : OperatorCode) : Bool := c.closed = false ∧ purpose.all fun p => c.purpose = p

def supersede (purpose : Option CodePurpose) : Reply Session :=
  let seenCodes := (db.codes.filter (supersedes purpose)).map OperatorCode.id
  .next { x with
    phase := .superseding seenCodes
    seenCodes }

def supersedeRow (id : Nat) (todo : List Nat) : Reply Session :=
  if codeLocked others id then .wait
  else if db.codes.any fun c => c.id = id ∧ c.closed = false then .next { x with
    phase := .superseding todo
    codeLocks := id :: x.codeLocks
    writes := { x.writes with closed := id :: x.writes.closed } }
  else x.go (.superseding todo)

/-- After the codes: the new code of a request, the sessions of a blocked operator. -/
def Session.superseded : Reply Session :=
  match x.op with
  | .requestLoginCode .. => x.go .insertCode
  | _ => x.go (.sweep (.user none))

def insertCode (expiresAt : Int) : Reply Session :=
  if others fun y => y.writes.code.isSome then .wait
  else if others fun y => db.codes.any fun c => c.closed = false ∧ c.purpose = .login ∧ c.id ∈ y.codeLocks then .wait
  else if db.codes.any fun c => c.closed = false ∧ c.purpose = .login ∧ c.id ∉ x.writes.closed then .refused
  else .next { x with
    phase := .commit
    writes := { x.writes with code := some ⟨n + 1, .login, false, 0, expiresAt, x.begun⟩ } }

def selectCode (purpose : CodePurpose) : Reply Session :=
  match db.codes.find? (supersedes (some purpose)) with
  | none => .refused
  | some c => x.go (.checkCode c.id)

/-- The code is locked; `verify` decides. A wrong guess is counted and committed. -/
def verify (purpose : CodePurpose) (right available : Bool) (ceiling : Int) (c : OperatorCode) : Reply Session :=
  if c.closed ∨ c.expiresAt ≤ x.now ∨ MAX_CODE_ATTEMPTS ≤ c.attempts then .refused
  else if ¬ right then .next { x with
    phase := .commit
    codeLocks := [c.id]
    writes := { x.writes with attempted := some c.id } }
  else match purpose with
    | .login =>
      if ¬ available ∨ ceiling ≤ x.now then .refused
      else .next { x with
        phase := .insertToken
        codeLocks := [c.id]
        writes := { x.writes with closed := c.id :: x.writes.closed } }
    | .confirmation => .next { x with
      phase := .commit
      codeLocks := [c.id]
      writes := { x.writes with
        closed := c.id :: x.writes.closed
        confirmed := true } }

def checkCode (purpose : CodePurpose) (right available : Bool) (ceiling : Int) (code : Nat) : Reply Session :=
  if codeLocked others code then .wait
  else match db.codes.find? fun c => c.id = code with
    | none => .refused
    | some c => verify x purpose right available ceiling c

/-- `eligibleMember`, with the lock of the user row. -/
def lockUser (active : Bool) : Reply Session :=
  if userLocked others .update then .wait
  else .next { x with
    phase := if db.active = active then .commit else .updateUser
    userLock := some .update }

def updateUser (active : Bool) (next : Phase) : Reply Session :=
  if x.userLock = none ∧ userLocked others .noKeyUpdate then .wait
  else .next { x with
    phase := if active then .commit else next
    userLock := if x.userLock = some .update then some .update else some .noKeyUpdate
    writes := { x.writes with active := some active } }

def Session.exec : Reply Session :=
  match x.phase, x.op with
  | .lockUser, .setActive active _ => lockUser db others x active
  | .updateUser, .setActive active _ => updateUser others x active (.sweep (.user none))
  | .updateUser, .setBlocked blocked => updateUser others x (!blocked) (.supersede none)
  | .lockToken, .refresh token => lockToken db others x token
  | .insertToken, _ => insertToken ttl others n x
  | .replaceToken, _ => .next { x with
    phase := .commit
    writes := { x.writes with replaced := x.rotating.map RefreshToken.id } }
  | .sweep w, _ => sweep db x w
  | .sweeping w (id :: todo), _ => sweepRow db others x w id todo
  | .sweeping _ [], _ => x.go .commit
  | .supersede purpose, _ => supersede db x purpose
  | .superseding (id :: todo), _ => supersedeRow db others x id todo
  | .superseding [], _ => x.superseded
  | .insertCode, .requestLoginCode _ expiresAt => insertCode db others n x expiresAt
  | .selectCode, .redeem purpose .. => selectCode db x purpose
  | .checkCode code, .redeem purpose right available ceiling => checkCode db others x purpose right available ceiling code
  | _, _ => .wait

end

def RefreshToken.after (w : Writes) (n : Nat) (t : RefreshToken) : RefreshToken :=
  if w.replaced = some t.id then { t with
    revoked := true
    replacedBy := some n }
  else if t.id ∈ w.revoked then { t with revoked := true }
  else t

def OperatorCode.after (w : Writes) (c : OperatorCode) : OperatorCode :=
  { c with
    closed := c.closed || c.id ∈ w.closed
    attempts := if w.attempted = some c.id then c.attempts + 1 else c.attempts }

def Account.apply (db : Account) (n : Nat) (x : Session) : Account :=
  { db with
    active := x.writes.active.getD db.active
    confirmed := db.confirmed || x.writes.confirmed
    tokens := db.tokens.map (RefreshToken.after x.writes n) ++ x.writes.token.toList
    codes := db.codes.map (OperatorCode.after x.writes) ++ x.writes.code.toList
    period := if x.writes.active = some false then db.period + 1 else db.period
    cut := db.cut ++ x.cut
    -- a login and a redemption sign the access token inside the transaction
    issued := db.issued ++ if x.writes.token.isSome ∧ x.rotating = none then [db.active] else [] }

def Session.answers (db : Account) (x : Session) : Option Session :=
  if x.writes.token.isSome ∧ x.rotating.isSome then some { x with
    phase := .access db.active
    userLock := none
    tokenLocks := []
    codeLocks := []
    rotating := none
    seen := []
    seenCodes := []
    cut := []
    writes := .none }
  else none

def Session.commit (db : Account) (n : Nat) (x : Session) : Option (Account × Option Session) :=
  match x.phase with
  | .commit => some (db.apply n x, x.answers db)
  | .access active => some ({ db with issued := db.issued ++ if db.active then [active] else [] }, none)
  | _ => none

def accountSessions (ttl : Int) : Transactions Account Session Operation Nat where
  start db _ op := Session.start db op
  exec := Session.exec ttl
  commit := Session.commit
  elapse db d := { db with clock := db.clock + d }

def Account.created (kind : UserKind) (clock : Int) (confirmationExpiresAt : Int) : Account :=
  ⟨kind, true, false, clock, [], if kind = .operator then [⟨0, .confirmation, false, 0, confirmationExpiresAt, 0⟩] else [], 0, [], []⟩

/-- An inactive user has no live token and no open code, nothing that began before a deactivation is live, and access tokens were
issued to an active user. -/
structure Account.CleanCut (db : Account) : Prop where
  tokens : db.active = false → ∀ t ∈ db.tokens, t.revoked
  codes : db.active = false → ∀ c ∈ db.codes, c.closed
  tokenBegun : ∀ t ∈ db.tokens, t.revoked = false → t.begun = db.period
  codeBegun : ∀ c ∈ db.codes, c.closed = false → c.begun = db.period
  access : ∀ active ∈ db.issued, active

def Session.Cuts (db : Account) (x : Session) : Prop :=
  match x.op with
  | .login | .requestLoginCode .. => x.begun = db.period
  | .redeem .. => x.writes.token.isSome → x.begun = db.period
  | .setBlocked true => (∀ t ∈ db.tokens, t.revoked = false → t.id ∈ x.seen) ∧ ∀ c ∈ db.codes, c.closed = false → c.id ∈ x.seenCodes
  | _ => True

/-- A revoked family has no live token, a family has at most one, and the ceiling of a family bounds its expiries. -/
structure Account.Revoked (db : Account) : Prop where
  cut : ∀ t ∈ db.tokens, t.family ∈ db.cut → t.revoked
  one : ∀ t ∈ db.tokens, ∀ u ∈ db.tokens, t.family = u.family → t.revoked = false → u.revoked = false → t = u
  ceiling : ∀ t ∈ db.tokens, ∀ u ∈ db.tokens, t.family = u.family → t.sessionExpiresAt = u.sessionExpiresAt
  expiry : ∀ t ∈ db.tokens, ∀ c, t.sessionExpiresAt = some c → t.expiresAt ≤ c

/-- Every live token of the families that the transaction revokes was in its update's snapshot. -/
def Session.Revokes (db : Account) (x : Session) : Prop :=
  match x.op with
  | .setActive .. => True
  | _ => ∀ t ∈ db.tokens, t.revoked = false → t.family ∈ x.cut → t.id ∈ x.seen

end NawaraCore.AccountSessions
