import Mathlib.Algebra.Order.Floor.Div
import Mathlib.Data.Prod.Lex
import NawaraCore.Lib.Keyset

/-!
# The outbox relay

A batch is published in the order of the rows and stops at its first failure, which backs the
row off; a pass takes batches while they come back full. Times are in milliseconds.
-/

namespace NawaraCore.Events

structure OutboxRow (Payload : Type) where
  id : Nat
  name : String
  payload : Payload
  correlationId : Option String
  eventVersion : Int
  occurredAt : Nat
  attempts : Nat
  availableAt : Nat
  publishedAt : Option Nat
  lastError : Option String
deriving DecidableEq

structure OutboxHeaders where
  eventId : Nat
  occurredAt : Nat
  correlationId : Option String
  source : String
  version : Int

structure OutboxEnvelope (Payload : Type) where
  id : Nat
  name : String
  payload : Payload
  headers : OutboxHeaders

structure RelayOptions where
  source : String
  batchSize : Nat
  baseBackoffMs : Nat
  maxBackoffMs : Nat
  batch : 0 < batchSize

def DEFAULT_MAX_BACKOFF_MS : Nat := 15000

def RelayOptions.default (source : String) : RelayOptions := ⟨source, 50, 1000, DEFAULT_MAX_BACKOFF_MS, by decide⟩

section
variable {Payload : Type}

def outboxEnvelope (row : OutboxRow Payload) (source : String) : OutboxEnvelope Payload :=
  ⟨row.id, row.name, row.payload, ⟨row.id, row.occurredAt, row.correlationId, source, row.eventVersion⟩⟩

def OutboxRow.key (row : OutboxRow Payload) : ℕ ×ₗ ℕ := toLex (row.occurredAt, row.id)

def OutboxRow.due (now : Nat) (row : OutboxRow Payload) : Bool := row.publishedAt = none ∧ row.availableAt ≤ now

def RelayOptions.delay (opts : RelayOptions) (attempts : Nat) : Nat := min opts.maxBackoffMs (opts.baseBackoffMs * 2 ^ min attempts 20)

def updateRow (id : Nat) (f : OutboxRow Payload → OutboxRow Payload) (db : List (OutboxRow Payload)) : List (OutboxRow Payload) :=
  db.map fun row => if row.id = id then f row else row

def OutboxRow.backOff (delay now : Nat) (reason : String) (row : OutboxRow Payload) : OutboxRow Payload :=
  { row with
    attempts := row.attempts + 1
    lastError := some reason
    availableAt := now + delay }

def OutboxRow.stamp (now : Nat) (row : OutboxRow Payload) : OutboxRow Payload :=
  { row with
    publishedAt := some now
    attempts := row.attempts + 1
    lastError := none }

structure Relayed where
  published : Nat
  failed : Nat

variable (opts : RelayOptions) (publish : OutboxEnvelope Payload → Option String) (now : Nat)

/-- The claimed rows one by one; `publish` gives the reason of a failure. -/
def relayRows (db : List (OutboxRow Payload)) (published : Nat) : List (OutboxRow Payload) → List (OutboxRow Payload) × Relayed
  | [] => (db, ⟨published, 0⟩)
  | r :: rows => match publish (outboxEnvelope r opts.source) with
    | some reason => (updateRow r.id (OutboxRow.backOff (opts.delay r.attempts) now reason) db, ⟨published, 1⟩)
    | none => relayRows (updateRow r.id (OutboxRow.stamp now) db) (published + 1) rows

def drainOnce (db : List (OutboxRow Payload)) : List (OutboxRow Payload) × Relayed :=
  relayRows opts publish now db 0 (page OutboxRow.key opts.batchSize none (db.filter (OutboxRow.due now)))

/-- The batches of a pass, each with its clock; none begins after `maxPassMs`. -/
def drainPass (published : Nat) : List Nat → List (OutboxRow Payload) → List (OutboxRow Payload) × Relayed
  | [], db => (db, ⟨published, 0⟩)
  | now :: later, db =>
    let (db, r) := drainOnce opts publish now db
    if 0 < r.failed ∨ r.published < opts.batchSize then (db, ⟨published + r.published, r.failed⟩)
    else drainPass (published + r.published) later db

def relay (polls : List (List Nat)) (db : List (OutboxRow Payload)) : List (OutboxRow Payload) :=
  polls.foldl (fun db poll => (drainPass opts publish 0 poll db).1) db

structure Outbox (Payload : Type) where
  rows : List (OutboxRow Payload)
  ids : (rows.map OutboxRow.id).Nodup

/-- Every poll begins after the one before, and its clocks are at most `gap` after those. -/
def Paced (gap : Nat) (polls : List (List Nat)) : Prop :=
  (∀ poll ∈ polls, poll ≠ []) ∧ polls.IsChain fun p q => ∀ a ∈ p, ∀ b ∈ q, a ≤ b ∧ b ≤ a + gap

def publishable (row : OutboxRow Payload) : Bool := (publish (outboxEnvelope row opts.source)).isNone

def poisonAhead (db : List (OutboxRow Payload)) (row : OutboxRow Payload) : Nat :=
  db.countP fun r => r.publishedAt = none ∧ r.key < row.key ∧ ¬ publishable opts publish r

/-- Within `n` polls that find it due, the row is published. -/
def PublishedWithin (gap : Nat) (db : List (OutboxRow Payload)) (row : OutboxRow Payload) (n : Nat) : Prop :=
  ∀ polls : List (List Nat), polls.length = n → Paced gap polls → (∀ poll ∈ polls, ∀ now ∈ poll, row.availableAt ≤ now) →
    ∃ r ∈ relay opts publish polls db, r.id = row.id ∧ r.publishedAt.isSome

def RelayOptions.polls (opts : RelayOptions) (gap : Nat) : Nat := max 1 (opts.delay 20 ⌈/⌉ gap)

end

end NawaraCore.Events
