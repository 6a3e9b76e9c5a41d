import NawaraCore.Lib.Runs
import NawaraCore.Payment.AttemptService

/-!
# Runs of one payment

Calls of `start` and `applyStatus` take several transactions. What a call carries from
one transaction to the next is kept beside the database, so the transactions of different
calls interleave freely and a call can be lost between any two of them.
-/

namespace NawaraCore.Payments

inductive Answer
  | returned
  | refused (e : PaymentError)
deriving DecidableEq

inductive Stage
  | deciding (factId : Option Uuid)
  | late (factId : Option Uuid) (f : LateFinding)
  | answered (a : Answer)
deriving DecidableEq

structure ApplyCall where
  attemptId : Uuid
  status : FetchStatusResult
  webhookEventId : Option Uuid
  stage : Stage
deriving DecidableEq

structure Sys where
  db : Db
  starts : List StartCall
  applies : List ApplyCall

inductive Action
  | start (attemptId : Uuid) (provider : String) (now : Int)
  | finishStart (c : StartCall) (r : InitiateResult)
  | loseStart (c : StartCall)
  | observe (attemptId : Uuid) (status : FetchStatusResult) (webhookEventId : Option Uuid) (freshId : Uuid)
  | resume (c : ApplyCall) (now : Int)
  | lose (c : ApplyCall)
  | cancel
  | sweep (now : Int)
  | reconcile (factId : Uuid)
  | otherPayment (paymentId : Uuid) (attempt : Attempt) (amount : Int) (currency : String)
      (providerTransactionId : Option String) (webhookEventId : Option Uuid) (freshId : Uuid)
  | keepUnmatched (provider providerTransactionId : String) (amount : Int) (currency : String)
      (webhookEventId freshId : Uuid)

def Sys.commit (s : Sys) : Except PaymentError Db → Sys
  | .ok db => { s with db }
  | .error _ => s

def Sys.proceed (s : Sys) (c : ApplyCall) (stage : Stage) : Sys :=
  { s with applies := { c with stage } :: s.applies.erase c }

/-- The first transaction of `applyStatus`; only a success reports a capture. -/
def observe (db : Db) (attemptId : Uuid) (status : FetchStatusResult) (webhookEventId : Option Uuid) (freshId : Uuid) :
    Except PaymentError (Db × Option Uuid) :=
  match status, db.findAttempt attemptId with
  | .succeeded amount currency txn, some attempt =>
    recordCaptureFact db attempt db.payment.id amount currency txn webhookEventId freshId
  | _, _ => .ok (db, none)

def resume (cfg : PaymentConfig) (s : Sys) (c : ApplyCall) (now : Int) : Sys :=
  match c.stage with
  | .deciding factId =>
    match applyStatus cfg s.db now c.attemptId c.status factId with
    | .error e => s.proceed c (.answered (.refused e))
    | .ok (db, none) => { s with db }.proceed c (.answered .returned)
    | .ok (db, some f) =>
      if f.conflict = .final then { s with db }.proceed c (.late factId f)
      else { s with db }.proceed c (.answered (.refused (.http 409 "invalid_state_transition")))
  | .late factId f =>
    match recordLateSuccess s.db c.attemptId f c.webhookEventId factId with
    | .error e => s.proceed c (.answered (.refused e))
    | .ok db => { s with db }.proceed c (.answered (.refused (.http 409 "invalid_state_transition")))
  | .answered _ => s

def step (cfg : PaymentConfig) (s : Sys) : Action → Sys
  | .start attemptId provider now =>
    match startAttempt s.db attemptId provider now with
    | .ok (db, a) => { s with db, starts := ⟨a.id, a.attemptNumber, a.provider⟩ :: s.starts }
    | .error _ => s
  | .finishStart c r =>
    if c ∈ s.starts then { s with starts := s.starts.erase c }.commit (finishStart cfg s.db c r) else s
  | .loseStart c => { s with starts := s.starts.erase c }
  | .observe attemptId status webhookEventId freshId =>
    match observe s.db attemptId status webhookEventId freshId with
    | .ok (db, factId) => { s with db, applies := ⟨attemptId, status, webhookEventId, .deciding factId⟩ :: s.applies }
    | .error e => { s with applies := ⟨attemptId, status, webhookEventId, .answered (.refused e)⟩ :: s.applies }
  | .resume c now => if c ∈ s.applies then resume cfg s c now else s
  | .lose c => { s with applies := s.applies.erase c }
  | .cancel => s.commit (cancel s.db)
  | .sweep now => s.commit (trySweepOne s.db now)
  | .reconcile factId => s.commit (processFact s.db factId)
  | .otherPayment paymentId attempt amount currency txn webhookEventId freshId =>
    if paymentId = s.db.payment.id ∨ s.db.attempts.any (·.id = attempt.id) then s
    else s.commit ((recordCaptureFact s.db attempt paymentId amount currency txn webhookEventId freshId).map (·.1))
  | .keepUnmatched provider txn amount currency webhookEventId freshId =>
    s.commit ((recordUnmatchedFact s.db provider txn amount currency webhookEventId freshId).map (·.1))

def run (cfg : PaymentConfig) (s : Sys) (actions : List Action) : Sys := actions.foldl (step cfg) s

structure NewPayment where
  id : Uuid
  amount : Int
  currency : String
  expiresAt : Option Int
  amount_pos : 1 ≤ amount
  amount_safe : amount ≤ maxSafeInteger
  currency_iso : isoCurrency currency

def NewPayment.row (n : NewPayment) : Payment :=
  { id := n.id
    amount := n.amount
    currency := n.currency
    status := .created
    expiresAt := n.expiresAt
    closingReason := none
    settledMethod := none
    succeededAttemptId := none }

/-- No attempt yet; the provider's transactions of other payments may have facts and contradictions already. -/
structure Initial (s : Sys) : Prop where
  created : ∃ n : NewPayment, s.db.payment = n.row
  attempts : s.db.attempts = []
  facts : ∀ f ∈ s.db.facts, ∀ b, f.binding = some b → b.paymentId ≠ s.db.payment.id
  factIds : (s.db.facts.map (·.id)).Nodup
  identity : (s.db.facts.map fun f => (f.provider, f.providerTxnId)).Nodup
  conflicts : ∀ c ∈ s.db.conflicts, ∃ f ∈ s.db.facts, f.id = c.factId
  lateSuccesses : s.db.lateSuccesses = []
  outbox : s.db.outbox = []
  starts : s.starts = []
  applies : s.applies = []

def Sys.new (n : NewPayment) : Sys := ⟨⟨n.row, [], [], [], [], []⟩, [], []⟩

theorem initial_new (n : NewPayment) : Initial (.new n) := by
  constructor <;> simp [Sys.new]

def Steps (cfg : PaymentConfig) (s t : Sys) : Prop := ∃ a, t = step cfg s a

def Runs (cfg : PaymentConfig) : Sys → Prop := Reachable Initial (Steps cfg)

theorem run_append (cfg : PaymentConfig) (s : Sys) (as bs : List Action) :
    run cfg s (as ++ bs) = run cfg (run cfg s as) bs :=
  List.foldl_append

theorem Runs.run {cfg : PaymentConfig} {s : Sys} (h : Runs cfg s) : ∀ as, Runs cfg (run cfg s as)
  | [] => h
  | a :: as => Runs.run (.step h ⟨a, rfl⟩) as

end NawaraCore.Payments
