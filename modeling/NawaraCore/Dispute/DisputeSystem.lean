import NawaraCore.Dispute.DisputeIngestion

/-!
# Runs of the dispute pipeline

A verified notification is stored, ingested and marked in separate transactions, so what a
processing still has to do is kept beside the rows and can be lost between any two of them.
The books change at any time.
-/

namespace NawaraCore.Disputes

open Payments (Uuid PaymentError WebhookEventState webhookRetryMaxAttempts)

def DisputeNotification.names (e : DisputeNotification) (a : AttemptRef) : Bool := a.referenced e.provider e.reference

def DisputeNotification.markState (e : DisputeNotification) (state : WebhookEventState) (outcome : Option String)
    (matchedAttemptId : Option Uuid) : DisputeNotification :=
  { e with state, outcome, attempts := e.attempts + 1, matchedAttemptId := matchedAttemptId.or e.matchedAttemptId }

def DisputeNotification.retryable (e : DisputeNotification) : Bool :=
  !e.state.settled && !(e.state = .failed ∧
    (e.outcome = some "malformed_body" ∨ e.outcome = some "retries_exhausted"))

def Db.findNotification (db : Db) (id : Uuid) : Option DisputeNotification := db.notifications.find? (·.id = id)

def Db.replaceNotification (db : Db) (e : DisputeNotification) : Db :=
  { db with notifications := db.notifications.map fun x => if x.id = e.id then e else x }

/-! ## The system -/

inductive Task
  | process
  | mark (state : WebhookEventState) (outcome : Option String) (matchedAttemptId : Option Uuid)
deriving DecidableEq

structure Sys where
  db : Db
  tasks : List (Uuid × Task)

structure Received where
  id : Uuid
  provider : String
  reference : String
  notice : Option DisputeNotice

inductive Action
  | keep (books : Books)
  | receive (r : Received)
  | retry (id : Uuid)
  | exhaust (id : Uuid)
  | process (id freshDisputeId freshFactId : Uuid)
  | fail (id : Uuid) (task : Task)
  | mark (id : Uuid) (state : WebhookEventState) (outcome : Option String) (matchedAttemptId : Option Uuid)
  | drop (id : Uuid) (task : Task)

def Books.keeps (b c : Books) : Bool :=
  (c.attempts.map (·.id)).Nodup && b.attempts.all fun a => c.attempts.any fun x => x.id = a.id ∧ x.paymentId = a.paymentId ∧ x.provider = a.provider ∧
    (a.providerTransactionId = none ∨ x.providerTransactionId = a.providerTransactionId)

def Received.row (r : Received) : DisputeNotification :=
  { id := r.id
    provider := r.provider
    reference := r.reference
    notice := r.notice
    state := .received
    outcome := none
    attempts := 0
    matchedAttemptId := none }

def receive (s : Sys) (r : Received) : Sys :=
  match s.db.findNotification r.id with
  | none => ⟨{ s.db with notifications := s.db.notifications ++ [r.row] }, (r.id, .process) :: s.tasks⟩
  | some e => if e.state.settled then s else { s with tasks := (e.id, .process) :: s.tasks }

def retry (s : Sys) (id : Uuid) : Sys :=
  match s.db.findNotification id with
  | none => s
  | some e =>
    if e.retryable ∧ e.attempts < webhookRetryMaxAttempts then { s with tasks := (id, .process) :: s.tasks } else s

def exhaust (s : Sys) (id : Uuid) : Sys :=
  match s.db.findNotification id with
  | none => s
  | some e =>
    if e.retryable ∧ webhookRetryMaxAttempts ≤ e.attempts then
      { s with db := s.db.replaceNotification { e with state := .failed, outcome := some "retries_exhausted" } }
    else s

def process (enabled : Bool) (s : Sys) (e : DisputeNotification) (freshDisputeId freshFactId : Uuid) : Sys :=
  let tasks := s.tasks.erase (e.id, .process)
  if !enabled then { s with tasks := (e.id, .mark .ignored (some "disputes_not_enabled") none) :: tasks }
  else match e.notice with
    | none => { s with tasks := (e.id, .mark .conflict (some "malformed_dispute") none) :: tasks }
    | some n =>
      match ingest s.db e.id e.provider e.reference n (webhookRetryMaxAttempts ≤ e.attempts + 1) freshDisputeId freshFactId with
      | .ok (db, r) => ⟨db, (e.id, .mark r.state r.outcome r.attemptId) :: tasks⟩
      | .error _ => { s with tasks := (e.id, .mark .failed (some "transient_error") none) :: tasks }

def step (enabled : Bool) (s : Sys) : Action → Sys
  | .keep books => if s.db.books.keeps books then { s with db := { s.db with books } } else s
  | .receive r => receive s r
  | .retry id => retry s id
  | .exhaust id => exhaust s id
  | .process id freshDisputeId freshFactId =>
    if (id, .process) ∈ s.tasks then
      match s.db.findNotification id with
      | none => s
      | some e => process enabled s e freshDisputeId freshFactId
    else s
  | .fail id task =>
    if (id, task) ∈ s.tasks then
      { s with tasks := (id, .mark .failed (some "transient_error") none) :: s.tasks.erase (id, task) }
    else s
  | .mark id state outcome matched =>
    if (id, .mark state outcome matched) ∈ s.tasks then
      match s.db.findNotification id with
      | none => s
      | some e =>
        ⟨s.db.replaceNotification (e.markState state outcome matched), s.tasks.erase (id, .mark state outcome matched)⟩
    else s
  | .drop id task => { s with tasks := s.tasks.erase (id, task) }

def run (enabled : Bool) (s : Sys) (actions : List Action) : Sys := actions.foldl (step enabled) s

def Sys.new (books : Books) : Sys := ⟨⟨books, [], [], [], [], []⟩, []⟩

def Steps (enabled : Bool) (s t : Sys) : Prop := ∃ a, t = step enabled s a

def Runs (enabled : Bool) : Sys → Prop := Reachable (fun s => ∃ books : Books, (books.attempts.map (·.id)).Nodup ∧ s = Sys.new books) (Steps enabled)

theorem Runs.run {enabled : Bool} {s : Sys} (h : Runs enabled s) : ∀ as, Runs enabled (run enabled s as)
  | [] => h
  | a :: as => Runs.run (.step h ⟨a, rfl⟩) as

end NawaraCore.Disputes
