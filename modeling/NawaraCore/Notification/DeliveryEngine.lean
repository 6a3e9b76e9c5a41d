import NawaraCore.Lib.Transactions
import NawaraCore.Notification.Intake

/-!
# The deliveries of one notification

Workers, recovery, cancellation and the purge of one notification. An update locks the row of
its delivery, and finds it as the committed state or the session itself has it; a purge locks
the intent first. Times are in milliseconds.
-/

namespace NawaraCore.Notification

inductive FailureClass
  | retryable | terminal

inductive ProviderResult
  | accepted
  | rejected (failureClass : FailureClass) (retryDelayMs : Nat)
  | ambiguous

/-- A claim is refused before the call (a limit, a render error), or the provider answers. -/
inductive Sending
  | refused
  | answered (r : ProviderResult)

structure DeliveryContext where
  cancelled : Bool
  expiresAt : Option Int
  secret : Bool
  ambiguousResends : Nat

structure EngineConfig where
  leaseMs : Nat
  maxAttempts : Nat

/-! ## Sessions -/

structure NotificationDb (Value : Type) where
  intent : Option (Intent Value)
  deliveries : List Delivery
  clock : Int
  /-- The last commit that ended a delivery was the API's cancellation. -/
  recalled : Bool

inductive Stmt (Value : Type)
  | insert (n : Intent Value) (ds : List Delivery)
  | claim (picked : List Nat)
  | context (d : Nat) (token : Int) (s : Sending)
  | startAttempt (d : Nat) (token : Int) (ctx : DeliveryContext) (r : ProviderResult)
  | finish (d : Nat) (token : Int) (ctx : DeliveryContext) (number : Nat) (r : ProviderResult)
  | transition (d : Nat) (token : Int) (status : DeliveryStatus)
  | cancelClaimed (d : Nat) (token : Int)
  | release (d : Nat) (token : Int)
  | renew (d : Nat) (token : Int)
  | selectStale (picked : List Nat)
  | recover (d : Nat)
  | purgeIfFinished
  | lockOwn
  | stampCancelled
  | cancelPending
  | cancelOne (d : Nat)
  | purgeDue
  | commit

structure Work (Value : Type) where
  inserted : Option (Intent Value × List Delivery)
  locked : List Nat
  writes : List Delivery
  intentLocked : Bool
  purge : Bool
  stamp : Bool
  recalls : Bool

structure Session (Value : Type) where
  todo : List (Stmt Value)
  work : Work Value

variable {Value : Type}

def Work.empty : Work Value := ⟨none, [], [], false, false, false, false⟩

inductive Operation (Value : Type)
  | handle (e : EventIntake Value)
  | send (r : SendRequest Value)
  | claim (picked : List Nat)
  | processOne (d : Nat) (token : Int) (s : Sending)
  | release (d : Nat) (token : Int)
  | renew (d : Nat) (token : Int)
  | recoverStale (picked : List Nat)
  | cancel
  | purgeOnce

section
variable {Value : Type} (intake : IntakeConfig Value) (catalog : Catalog) (cfg : EngineConfig)

def Session.of (todo : List (Stmt Value)) : Session Value := ⟨todo, .empty⟩

def start (now : Int) : Operation Value → Option (Session Value)
  | .handle e => (handle intake catalog now e).map fun (n, ds) => .of [.insert n ds]
  | .send r => (send intake catalog now r).map fun (n, ds) => .of [.insert n ds]
  | .claim picked => some (.of [.claim picked])
  | .processOne d token s => some (.of [.context d token s])
  | .release d token => some (.of [.release d token])
  | .renew d token => some (.of [.renew d token])
  | .recoverStale picked => some (.of [.selectStale picked])
  | .cancel => some (.of [.lockOwn, .stampCancelled, .cancelPending])
  | .purgeOnce => some (.of [.purgeDue])

def Session.holds (d : Nat) (x : Session Value) : Bool := d ∈ x.work.locked

def Session.holdsIntent (x : Session Value) : Bool := x.work.intentLocked

/-! ## Statements -/

variable (db : NotificationDb Value) (others : (Session Value → Bool) → Bool) (todo : List (Stmt Value)) (w : Work Value)

def Work.row (d : Nat) : Option Delivery := (w.writes.find? fun r => r.id = d) <|> db.deliveries.find? fun r => r.id = d

def Work.see (r : Delivery) : Delivery := (w.writes.find? fun r' => r'.id = r.id).getD r

def Work.write (r : Delivery) : Work Value := { w with
  locked := r.id :: w.locked
  writes := r :: w.writes }

/-- `WHERE id AND status = 'SENDING' AND "leaseUntil" = token`; without a row the claim is lost. -/
def claimed (d : Nat) (token : Int) (f : Delivery → Reply (Session Value)) : Reply (Session Value) :=
  if others (Session.holds d) then .wait
  else match w.row db d with
    | none => .refused
    | some r => if r.status = .sending ∧ r.leaseUntil = some token then f r else .refused

def settle (r : Delivery) (status : DeliveryStatus) : Reply (Session Value) :=
  .next ⟨.purgeIfFinished :: todo, w.write { r with status, leaseUntil := none, nextAttemptAt := none }⟩

def retry (r : Delivery) (due : Int) (resends : Nat) : Reply (Session Value) :=
  .next ⟨todo, w.write { r with status := .pending, leaseUntil := none, nextAttemptAt := some due, ambiguousResends := resends }⟩

def ambiguous (ctx : DeliveryContext) (r : Delivery) : Reply (Session Value) :=
  if ctx.secret ∧ ctx.ambiguousResends = 0 ∧ ctx.expiresAt.any (db.clock < ·) then retry todo w r db.clock 1
  else settle todo w r .unconfirmed

def context (r : Delivery) (n : Intent Value) : DeliveryContext := ⟨n.cancelledAt.isSome, n.expiresAt, n.secret.isSome, r.ambiguousResends⟩

def checks (d : Nat) (token : Int) (s : Sending) : Reply (Session Value) :=
  match w.row db d, db.intent with
  | some r, some n =>
    let ctx := context r n
    if ctx.cancelled then .next ⟨.cancelClaimed d token :: todo, w⟩
    else if ctx.expiresAt.any (· ≤ db.clock) then .next ⟨.transition d token .expired :: todo, w⟩
    else match s with
      | .refused => .next ⟨.transition d token .failed :: todo, w⟩
      | .answered result => .next ⟨.startAttempt d token ctx result :: todo, w⟩
  | _, _ => .refused

/-- The attempt is committed before the call, whose answer the next transaction records. -/
def startAttempt (d : Nat) (ctx : DeliveryContext) (result : ProviderResult) (r : Delivery) : Reply (Session Value) :=
  .next ⟨.commit :: .finish d (db.clock + cfg.leaseMs) ctx (r.attempts + 1) result :: todo,
    w.write { r with attempts := r.attempts + 1, started := some (r.attempts + 1), leaseUntil := some (db.clock + cfg.leaseMs) }⟩

def finish (ctx : DeliveryContext) (number : Nat) (result : ProviderResult) (r : Delivery) : Reply (Session Value) :=
  if r.started ≠ some number then .refused
  else
    let r := { r with started := none }
    match result with
    | .accepted => settle todo w r .sent
    | .ambiguous => ambiguous db todo w ctx r
    | .rejected .terminal _ => settle todo w r .failed
    | .rejected .retryable retryDelayMs =>
      if cfg.maxAttempts ≤ number then settle todo w r .failed
      else if ctx.expiresAt.any (· ≤ db.clock + retryDelayMs) then settle todo w r .expired
      else retry todo w r (db.clock + retryDelayMs) r.ambiguousResends

def claim (picked : List Nat) : Reply (Session Value) :=
  let due := db.deliveries.filter fun r => r.id ∈ picked ∧ r.status = .pending ∧ r.nextAttemptAt.any (· ≤ db.clock) ∧ ¬ others (Session.holds r.id)
  .next ⟨todo, { w with
    locked := due.map Delivery.id ++ w.locked
    writes := due.map (fun r => { r with status := .sending, nextAttemptAt := none, leaseUntil := some (db.clock + cfg.leaseMs) }) ++ w.writes }⟩

def selectStale (picked : List Nat) : Reply (Session Value) :=
  let stale := db.deliveries.filter fun r => r.id ∈ picked ∧ r.status = .sending ∧ r.leaseUntil.any (· < db.clock) ∧ ¬ others (Session.holds r.id)
  .next ⟨(stale.map fun r => .recover r.id) ++ todo, { w with locked := stale.map Delivery.id ++ w.locked }⟩

def recover (d : Nat) : Reply (Session Value) :=
  if others (Session.holds d) then .wait
  else match w.row db d, db.intent with
    | some r, some n =>
      if ¬ (r.status = .sending ∧ r.leaseUntil.any (· < db.clock)) then .refused
      else if r.started.isNone then retry todo w r db.clock r.ambiguousResends
      else ambiguous db todo w (context r n) { r with started := none }
    | _, _ => .refused

def purgeIfFinished : Reply (Session Value) :=
  if ¬ w.intentLocked then
    if others Session.holdsIntent then .wait else .next ⟨.purgeIfFinished :: todo, { w with intentLocked := true }⟩
  else .next ⟨todo, { w with
    purge := w.purge || (db.intent.any (fun n => n.secret.isSome) && db.deliveries.all fun r => (w.see r).status.terminal) }⟩

def lockOwn : Reply (Session Value) :=
  if others Session.holdsIntent then .wait
  else if db.intent.isNone then .refused
  else .next ⟨todo, { w with intentLocked := true }⟩

def cancelOne (d : Nat) : Reply (Session Value) :=
  if others (Session.holds d) then .wait
  else match db.deliveries.find? fun r => r.id = d with
    | none => .next ⟨todo, w⟩
    | some r =>
      if r.status = .pending then .next ⟨todo, { w.write { r with status := .cancelled, nextAttemptAt := none } with recalls := true }⟩
      else .next ⟨todo, w⟩

def purgeDue : Reply (Session Value) :=
  match db.intent with
  | none => .refused
  | some n =>
    if others Session.holdsIntent then .refused
    else if n.secret.isSome ∧ (n.expiresAt.any (· ≤ db.clock) ∨ ¬ db.deliveries.any fun r => r.status = .pending ∨ r.status = .sending) then
      .next ⟨todo, { w with
        intentLocked := true
        purge := true }⟩
    else .refused

def runStmt : Stmt Value → Reply (Session Value)
  | .insert n ds => .next ⟨todo, { w with inserted := some (n, ds) }⟩
  | .claim picked => claim cfg db others todo w picked
  | .context d token s => checks db todo w d token s
  | .startAttempt d token ctx r => claimed db others w d token (startAttempt cfg db todo w d ctx r)
  | .finish d token ctx number r => claimed db others w d token (finish cfg db todo w ctx number r)
  | .transition d token status => claimed db others w d token fun r => settle todo w r status
  | .cancelClaimed d token => claimed db others w d token fun r => settle todo w r .cancelled
  | .release d token => claimed db others w d token fun r => retry todo w r db.clock r.ambiguousResends
  | .renew d token => claimed db others w d token fun r => .next ⟨todo, w.write { r with leaseUntil := some (db.clock + cfg.leaseMs) }⟩
  | .selectStale picked => selectStale db others todo w picked
  | .recover d => recover db others todo w d
  | .purgeIfFinished => purgeIfFinished db others todo w
  | .lockOwn => lockOwn db others todo w
  | .stampCancelled => .next ⟨todo, { w with stamp := w.stamp || db.deliveries.any fun r => ¬ r.status.terminal }⟩
  | .cancelPending => .next ⟨((db.deliveries.filter fun r => r.status = .pending).map fun r => .cancelOne r.id) ++ todo, w⟩
  | .cancelOne d => cancelOne db others todo w d
  | .purgeDue => purgeDue db others todo w
  | .commit => .wait

def Session.exec (x : Session Value) : Reply (Session Value) :=
  match x.todo with
  | [] => .wait
  | s :: todo => runStmt cfg db others todo x.work s

def Intent.after (w : Work Value) (now : Int) (n : Intent Value) : Intent Value :=
  { n with
    secret := if w.purge then none else n.secret
    cancelledAt := if w.stamp ∧ n.cancelledAt.isNone then some now else n.cancelledAt }

def NotificationDb.apply (db : NotificationDb Value) (w : Work Value) : NotificationDb Value :=
  match db.intent, w.inserted with
  | none, some (n, ds) =>
    { db with
      intent := some n
      deliveries := ds }
  | _, _ =>
    { db with
      intent := db.intent.map (Intent.after w db.clock)
      deliveries := db.deliveries.map w.see
      recalled := if w.writes.any fun r => r.status.terminal then w.recalls else db.recalled }

def commit (db : NotificationDb Value) (x : Session Value) : Option (NotificationDb Value × Option (Session Value)) :=
  match x.todo with
  | [] => some (db.apply x.work, none)
  | .commit :: todo => some (db.apply x.work, some (.of todo))
  | _ => none

end

def engine (intake : IntakeConfig Value) (catalog : Catalog) (cfg : EngineConfig) :
    Transactions (NotificationDb Value) (Session Value) (Operation Value) Nat where
  start db _ op := start intake catalog db.clock op
  exec db others _ x := x.exec cfg db others
  commit db _ x := commit db x
  elapse db d := { db with clock := db.clock + d }

def NotificationDb.new (Value : Type) : NotificationDb Value := ⟨none, [], 0, false⟩

structure SecretLaw {Value : Type} (db : NotificationDb Value) : Prop where
  /-- A finished notification keeps its secret only when the API's cancellation finished it. -/
  finished : ∀ n, db.intent = some n → (∀ r ∈ db.deliveries, r.status.terminal) → n.secret.isSome → db.recalled
  plain : ∀ n, db.intent = some n → ∀ v ∈ n.data, ∀ r ∈ db.deliveries, r.version.schema.secret v.1 = false

def SecretKept (db db' : NotificationDb Value) : Prop :=
  ∀ n, db.intent = some n → ∃ n', db'.intent = some n' ∧ n'.data = n.data ∧ (n'.secret = n.secret ∨ n'.secret = none)

end NawaraCore.Notification
