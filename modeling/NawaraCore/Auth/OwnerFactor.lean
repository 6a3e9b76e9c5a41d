import NawaraCore.Lib.Transactions

/-!
# Owner factors

Enrolment, confirmation, verification and removal of the factors of owners. An `UPDATE`, a
`DELETE` and a `FOR UPDATE` find their rows in a snapshot, then lock each and look at it again.
-/

namespace NawaraCore.OwnerFactor

inductive FactorType
  | totp | webauthn
deriving DecidableEq

structure Factor where
  id : Nat
  ownerId : Nat
  type : FactorType
  secretCiphertext : String
  secretKeyId : String
  confirmedAt : Option Int
  lastUsedCounter : Option Int
  lastUsedAt : Option Int
  revokedAt : Option Int
  createdAt : Int
deriving DecidableEq

structure EnrollmentToken where
  id : Nat
  ownerId : Nat
  createdAt : Int
  expiresAt : Int
  consumedAt : Option Int

structure Acceptance where
  factorId : Nat
  timeStep : Int
deriving DecidableEq

structure Enrolment where
  ownerId : Nat
  challenge : Option Nat
  factorId : Nat

structure FactorDb where
  factors : List Factor
  tokens : List EnrollmentToken
  nextId : Nat
  /-- What the next reading of the clock gives, in milliseconds. -/
  clock : Int
  accepted : List Acceptance
  enrolled : List Enrolment

structure Totp (Secret : Type) where
  opens : String → String → Nat → Nat → Option Secret
  verifySync : Secret → String → Int → Nat → Option Int
  epochToleranceSec : Nat

section
variable {Secret : Type} (T : Totp Secret)

def checkCode (clock : Int) (secret : Secret) (code : String) : Option Int :=
  if code.length = 6 ∧ code.toList.all Char.isDigit then T.verifySync secret code (clock / 1000) T.epochToleranceSec else none

def checkFactor (clock : Int) (f : Factor) (code : String) : Option Int :=
  (T.opens f.secretCiphertext f.secretKeyId f.ownerId f.id).bind fun secret => checkCode T clock secret code

end

/-! ## Sessions -/

/-- How an owner enrols; `stepUp` answers for the consumption of the step-up. -/
inductive EnrollBy
  | token (id : Nat)
  | session (ownerId : Nat) (stepUp : Bool)

structure EnrollCtx where
  ownerId : Nat
  enrollmentChallengeId : Option Nat
  stepUp : Bool
  /-- The enrolments of the owner when the confirmed factors were counted. -/
  seen : Nat

inductive Removal
  | one (factorId : Nat)
  | all
  | safely (factorId : Nat)

def Removal.names : Removal → Nat → Bool
  | .one factorId, id => id = factorId
  | _, _ => true

inductive Operation
  | issueToken (ownerId : Nat) (expiresAt : Int)
  | beginTotp (ownerId : Nat) (ciphertext keyId : String)
  | confirmTotp (e : EnrollBy) (factorId : Nat) (code : String)
  | registerWebauthn (e : EnrollBy)
  | verifyTotp (ownerId : Nat) (code : String)
  | remove (ownerId : Nat) (r : Removal)

/-- What a session does next; `held` are the factors it has locked. -/
inductive Session
  | issuing (ownerId : Nat) (expiresAt : Int)
  | beginTotp (ownerId : Nat) (ciphertext keyId : String)
  | deleting (ownerId : Nat) (ciphertext keyId : String) (todo held : List Nat)
  | inserting (ownerId : Nat) (ciphertext keyId : String)
  | fromToken (id : Nat) (totp : Option (Nat × String))
  | finish (ownerId : Nat) (challenge : Option Nat) (stepUp : Bool) (totp : Option (Nat × String))
  | consume (c : EnrollCtx) (totp : Option (Nat × String))
  | confirm (c : EnrollCtx) (factorId : Nat) (code : String)
  | confirming (c : EnrollCtx) (a : Acceptance)
  | registered (c : EnrollCtx)
  | verify (ownerId : Nat) (code : String)
  | verifying (code : String) (todo : List Factor)
  | consuming (code : String) (a : Acceptance) (todo : List Factor)
  | accepted (a : Acceptance) (c : Option EnrollCtx) (now : Int) (held : List Nat)
  | remove (ownerId : Nat) (r : Removal)
  | removing (r : Removal) (todo held : List Nat)
  | removed (ids : List Nat) (now : Int) (held : List Nat)

def Session.held : Session → List Nat
  | .deleting _ _ _ _ held | .accepted _ _ _ held | .removing _ _ held | .removed _ _ held => held
  | _ => []

def Session.holds (id : Nat) (x : Session) : Bool := id ∈ x.held

def Session.enrols : Session → Option EnrollCtx
  | .confirm c _ _ | .confirming c _ | .registered c => some c
  | .accepted _ c _ _ => c
  | _ => none

def Session.holdsToken (id : Nat) (x : Session) : Bool := x.enrols.any fun c => c.enrollmentChallengeId = some id

def EnrollBy.begins : EnrollBy → Option (Nat × String) → Session
  | .token id, totp => .fromToken id totp
  | .session ownerId stepUp, totp => .finish ownerId none stepUp totp

def start : Operation → Session
  | .issueToken ownerId expiresAt => .issuing ownerId expiresAt
  | .beginTotp ownerId ciphertext keyId => .beginTotp ownerId ciphertext keyId
  | .confirmTotp e factorId code => e.begins (some (factorId, code))
  | .registerWebauthn e => e.begins none
  | .verifyTotp ownerId code => .verify ownerId code
  | .remove ownerId r => .remove ownerId r

/-! ## Statements -/

def Factor.confirmed (f : Factor) : Bool := f.confirmedAt.isSome ∧ f.revokedAt = none

def countConfirmed (db : FactorDb) (ownerId : Nat) : Nat := db.factors.countP fun f => f.ownerId = ownerId ∧ f.confirmed

def FactorDb.has (db : FactorDb) (id : Nat) (p : Factor → Bool) : Bool := db.factors.any fun f => f.id = id ∧ p f

def FactorDb.ids (db : FactorDb) (p : Factor → Bool) : List Nat := (db.factors.filter p).map Factor.id

section
variable {Secret : Type} (T : Totp Secret) (db : FactorDb) (others : (Session → Bool) → Bool)

def EnrollmentToken.live (now : Int) (k : EnrollmentToken) : Bool := k.consumedAt = none ∧ now < k.expiresAt

/-- A token serves an owner without a confirmed factor, and not if it is older than the first one ever. -/
def fromToken (id : Nat) (totp : Option (Nat × String)) : Reply Session :=
  match db.tokens.find? fun k => k.id = id ∧ k.live db.clock with
  | none => .refused
  | some k =>
    let first := ((db.factors.filter fun f => f.ownerId = k.ownerId).filterMap Factor.confirmedAt).min?
    if 0 < countConfirmed db k.ownerId ∨ first.any (k.createdAt ≤ ·) then .refused
    else .next (.finish k.ownerId (some id) false totp)

def enrolments (ownerId : Nat) : Nat := db.enrolled.countP fun e => e.ownerId = ownerId

/-- The confirmed factors are counted; a token needs none, a session with some a step-up. -/
def finish (ownerId : Nat) (challenge : Option Nat) (stepUp : Bool) (totp : Option (Nat × String)) : Reply Session :=
  let hadFactors : Bool := 0 < countConfirmed db ownerId
  if hadFactors && (challenge.isSome || !stepUp) then .refused
  else .next (.consume ⟨ownerId, challenge, stepUp, enrolments db ownerId⟩ totp)

def EnrollCtx.confirms (c : EnrollCtx) : Option (Nat × String) → Session
  | some (factorId, code) => .confirm c factorId code
  | none => .registered c

def consume (c : EnrollCtx) (totp : Option (Nat × String)) : Reply Session :=
  match c.enrollmentChallengeId with
  | none => .next (c.confirms totp)
  | some id =>
    if others (Session.holdsToken id) then .wait
    else if db.tokens.any fun k => k.id = id ∧ k.live db.clock then .next (c.confirms totp)
    else .refused

def confirmTotp (c : EnrollCtx) (factorId : Nat) (code : String) : Reply Session :=
  match db.factors.find? fun f => f.id = factorId ∧ f.ownerId = c.ownerId ∧ f.type = .totp ∧ f.confirmedAt = none ∧ f.revokedAt = none with
  | none => .refused
  | some f => match checkFactor T db.clock f code with
    | none => .refused
    | some timeStep => .next (.confirming c ⟨factorId, timeStep⟩)

def removeLocked (r : Removal) (held : List Nat) : Reply Session :=
  match r with
  | .safely factorId =>
    if factorId ∉ held then .refused
    else if db.has factorId (fun f => f.confirmedAt.isSome) ∧ (db.factors.countP fun f => f.id ∈ held ∧ f.confirmedAt.isSome) ≤ 1 then .refused
    else .next (.removed [factorId] db.clock held)
  | _ => .next (.removed held db.clock held)

def exec : Session → Reply Session
  | .beginTotp ownerId ciphertext keyId =>
    .next (.deleting ownerId ciphertext keyId (db.ids fun f => f.ownerId = ownerId ∧ f.type = .totp ∧ f.confirmedAt = none) [])
  | .deleting ownerId ciphertext keyId (id :: todo) held =>
    if others (Session.holds id) then .wait
    else .next (.deleting ownerId ciphertext keyId todo (if db.has id fun f => f.confirmedAt = none then id :: held else held))
  | .fromToken id totp => fromToken db id totp
  | .finish ownerId challenge stepUp totp => finish db ownerId challenge stepUp totp
  | .consume c totp => consume db others c totp
  | .confirm c factorId code => confirmTotp T db c factorId code
  | .confirming c a =>
    if others (Session.holds a.factorId) then .wait
    else .next (.accepted a (some c) db.clock (if db.has a.factorId fun _ => true then [a.factorId] else []))
  | .verify ownerId code => .next (.verifying code (db.factors.filter fun f => f.ownerId = ownerId ∧ f.type = .totp ∧ f.confirmed))
  | .verifying code (f :: todo) => match checkFactor T db.clock f code with
    | none => .next (.verifying code todo)
    | some timeStep => .next (.consuming code ⟨f.id, timeStep⟩ todo)
  | .consuming code a todo =>
    if others (Session.holds a.factorId) then .wait
    else if db.has a.factorId fun f => f.lastUsedCounter.all (· < a.timeStep) then .next (.accepted a none db.clock [a.factorId])
    else .next (.verifying code todo)
  | .verifying _ [] => .refused
  | .remove ownerId r =>
    .next (.removing r (db.ids fun f => f.ownerId = ownerId ∧ f.revokedAt = none ∧ r.names f.id) [])
  | .removing r (id :: todo) held =>
    if others (Session.holds id) then .wait
    else .next (.removing r todo (if db.has id fun f => f.revokedAt = none then id :: held else held))
  | .removing r [] held => removeLocked db r held
  | .issuing .. | .deleting _ _ _ [] _ | .inserting .. | .registered _ | .accepted .. | .removed .. => .wait

end

def Factor.accept (a : Acceptance) (confirms : Bool) (now : Int) (f : Factor) : Factor :=
  { f with
    confirmedAt := if confirms then some now else f.confirmedAt
    lastUsedCounter := some a.timeStep
    lastUsedAt := some now }

def FactorDb.accept (db : FactorDb) (a : Acceptance) (confirms : Bool) (now : Int) : FactorDb :=
  { db with
    factors := db.factors.map fun f => if f.id = a.factorId then f.accept a confirms now else f
    accepted := a :: db.accepted }

def FactorDb.insert (db : FactorDb) (f : Factor) : FactorDb :=
  { db with
    factors := db.factors ++ [f]
    nextId := db.nextId + 1 }

def EnrollmentToken.spend (c : EnrollCtx) (now : Int) (k : EnrollmentToken) : EnrollmentToken :=
  if c.enrollmentChallengeId = some k.id then { k with consumedAt := some now } else k

def FactorDb.enrol (db : FactorDb) (c : EnrollCtx) (factorId : Nat) : FactorDb :=
  { db with
    tokens := db.tokens.map (EnrollmentToken.spend c db.clock)
    enrolled := ⟨c.ownerId, c.enrollmentChallengeId, factorId⟩ :: db.enrolled }

def commit (db : FactorDb) : Session → Option (FactorDb × Option Session)
  | .issuing ownerId expiresAt =>
    some ({ db with tokens := db.tokens ++ [⟨db.nextId, ownerId, db.clock, expiresAt, none⟩], nextId := db.nextId + 1 }, none)
  | .deleting ownerId ciphertext keyId [] held =>
    some ({ db with factors := db.factors.filter fun f => f.id ∉ held }, some (.inserting ownerId ciphertext keyId))
  | .inserting ownerId ciphertext keyId =>
    some (db.insert ⟨db.nextId, ownerId, .totp, ciphertext, keyId, none, none, none, none, db.clock⟩, none)
  | .registered c => some ((db.insert ⟨db.nextId, c.ownerId, .webauthn, "", "", some db.clock, none, none, none, db.clock⟩).enrol c db.nextId, none)
  | .accepted a none now _ => some (db.accept a false now, none)
  | .accepted a (some c) now _ => some ((db.accept a true now).enrol c a.factorId, none)
  | .removed ids now _ =>
    some ({ db with factors := db.factors.map fun f => if f.id ∈ ids then { f with revokedAt := some now } else f }, none)
  | _ => none

def factorService {Secret : Type} (T : Totp Secret) : Transactions FactorDb Session Operation Int where
  start _ _ op := some (start op)
  exec db others _ x := exec T db others x
  commit db _ x := commit db x
  elapse db clock := { db with clock }

def FactorDb.empty : FactorDb := ⟨[], [], 0, 0, [], []⟩

/-- From one state to the next no counter decreases, no time step is accepted again, and what is accepted is of a factor that is there, not revoked. -/
structure AcceptsOnce (db db' : FactorDb) : Prop where
  counters : ∀ f ∈ db.factors, ∀ f' ∈ db'.factors, f'.id = f.id → ∀ c, f.lastUsedCounter = some c → ∃ c', f'.lastUsedCounter = some c' ∧ c ≤ c'
  once : db'.accepted.Nodup
  live : ∀ a ∈ db'.accepted, a ∉ db.accepted → ∃ f ∈ db.factors, f.id = a.factorId ∧ f.revokedAt = none

def Session.accepts : Session → Option Acceptance
  | .accepted a _ _ _ => some a
  | _ => none

/-- An accepted step is of a factor that is there, not revoked, and later than its counter. -/
def Unused (db : FactorDb) (_ : Nat) (x : Session) : Prop :=
  ∀ a, x.accepts = some a → ∃ f ∈ db.factors, f.id = a.factorId ∧ f.revokedAt = none ∧ ∀ c, f.lastUsedCounter = some c → c < a.timeStep

/-- An enrolment that is reported leaves its factor confirmed; by a token, it finds no other confirmed one. -/
structure EnrolsAlone (db db' : FactorDb) : Prop where
  alone : ∀ e, db'.enrolled = e :: db.enrolled → e.challenge.isSome → ∀ f ∈ db.factors, f.ownerId = e.ownerId → f.confirmed → f.id = e.factorId
  left : ∀ e, db'.enrolled = e :: db.enrolled → ∃ f ∈ db'.factors, f.id = e.factorId ∧ f.ownerId = e.ownerId ∧ f.confirmed

/-- Since a token's enrolment counted the factors of its owner no other enrolment has ended, and
the factor that is confirmed is there, not revoked. -/
def Undisturbed (db : FactorDb) (_ : Nat) (x : Session) : Prop :=
  (∀ c, x.enrols = some c → c.enrollmentChallengeId.isSome → enrolments db c.ownerId = c.seen) ∧
    ∀ a, x.enrols.isSome → x.accepts = some a → ∃ f ∈ db.factors, f.id = a.factorId ∧ f.revokedAt = none

end NawaraCore.OwnerFactor
