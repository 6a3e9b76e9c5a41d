import NawaraCore.Refund.RefundSystem

/-!
# Refund dispatch

The consumptions that Auth records, the passes of the refund worker and the calls that
the provider receives, beside the refund ledger. A pass is cut between any two of its
statements, and any number of passes run over one attempt.
-/

namespace NawaraCore.RefundDispatch

open Payments (Uuid PaymentError)
open Refunds (RefundAttempt RefundAttemptStatus RefundDispatchResult RefundStatusResult Captures startDispatch)

structure DispatchConfig where
  captures : Captures
  /-- The capture's own transaction, or the one of the payment's attempt. -/
  transactionOf : Bool → Uuid → String
  refunds : String → Bool

structure Consumption where
  consumeRef : Uuid
  receiptId : Uuid

structure ProviderCall where
  refundAttemptId : Uuid
  idempotencyKey : Uuid
  paymentId : Uuid
  capturedTransactionId : String
  amount : Int
  currency : String

def callOf (cfg : DispatchConfig) (a : RefundAttempt) : ProviderCall :=
  { refundAttemptId := a.id
    idempotencyKey := a.id
    paymentId := a.paymentId
    capturedTransactionId := cfg.transactionOf a.captureSpecific a.captureFactId
    amount := a.amount
    currency := Payments.trim a.currency }

/-! ## The worker -/

def workable : RefundAttemptStatus → Bool
  | .authorizationPending | .authorized | .dispatching | .unknown | .submitted => true
  | _ => false

def dispatched : RefundAttemptStatus → Bool
  | .dispatching | .submitted | .succeeded | .failed | .unknown | .discrepancy => true
  | _ => false

inductive WorkStage
  | scanned | claimed | sending | sent
deriving DecidableEq

structure Work where
  attempt : RefundAttempt
  stage : WorkStage
deriving DecidableEq

structure Sys where
  ledger : Refunds.Sys
  consumptions : List Consumption
  works : List Work
  calls : List ProviderCall

inductive Action
  | ledger (a : Refunds.Action)
  | consume (consumeRef receiptId : Uuid)
  | authorize (id authorizationId : Uuid)
  | scan (a : RefundAttempt)
  | proceed (w : Work)
  | statusRead (w : Work) (status : RefundStatusResult)
  | finish (w : Work) (result : RefundDispatchResult)
  | lose (w : Work)

def Sys.drop (s : Sys) (w : Work) : Sys := { s with works := s.works.erase w }

def Sys.goOn (s : Sys) (w : Work) (stage : WorkStage) : Sys := { s with works := { w with stage } :: s.works.erase w }

def Sys.rowIn (s : Sys) (id : Uuid) (status : RefundAttemptStatus) : Bool :=
  s.ledger.db.attempts.any fun b => b.id = id ∧ b.status = status

/-- `dispatching` is committed before the provider can learn the key. -/
def startSending (s : Sys) (w : Work) : Sys :=
  if !s.rowIn w.attempt.id .authorized then s.drop w
  else match startDispatch s.ledger.db w.attempt.id with
    | .ok db => { s with ledger := { s.ledger with db } }.goOn w .sending
    | .error _ => s.drop w

/-- The next statement of a pass. An authorization is recovered by the commit of Auth's answer. -/
def proceed (cfg : DispatchConfig) (s : Sys) (w : Work) : Sys :=
  match w.stage with
  | .scanned => if s.rowIn w.attempt.id w.attempt.status then s.goOn w .claimed else s.drop w
  | .claimed =>
    if w.attempt.status = .authorizationPending then s.drop w
    else if !cfg.refunds w.attempt.provider then s.drop w
    else if w.attempt.status = .authorized then startSending s w
    else if w.attempt.status = .dispatching then s.goOn w .sending
    else s
  | .sending => { s with calls := callOf cfg w.attempt :: s.calls }.goOn w .sent
  | .sent => s

def statusRead (cfg : DispatchConfig) (s : Sys) (w : Work) (status : RefundStatusResult) : Sys :=
  if !cfg.refunds w.attempt.provider then s.drop w
  else if status = .notFound ∧ w.attempt.status = .unknown then s.goOn w .sending
  else s.drop w

def ownAction : Refunds.Action → Bool
  | .commitAuthorized .. | .startDispatch _ | .finishDispatch .. => true
  | _ => false

def step (cfg : DispatchConfig) (s : Sys) : Action → Sys
  | .ledger a => if ownAction a then s else { s with ledger := Refunds.step cfg.captures s.ledger a }
  | .consume consumeRef receiptId =>
    if s.consumptions.any fun c => c.consumeRef = consumeRef ∨ c.receiptId = receiptId then s
    else { s with consumptions := ⟨consumeRef, receiptId⟩ :: s.consumptions }
  | .authorize id authorizationId =>
    match s.consumptions.find? (·.consumeRef = id) with
    | none => s
    | some c => { s with ledger := Refunds.step cfg.captures s.ledger (.commitAuthorized id c.receiptId authorizationId) }
  | .scan a => if a ∈ s.ledger.db.attempts ∧ workable a.status then { s with works := ⟨a, .scanned⟩ :: s.works } else s
  | .proceed w => if w ∈ s.works then proceed cfg s w else s
  | .statusRead w status =>
    if w ∈ s.works ∧ w.stage = .claimed ∧ (w.attempt.status = .unknown ∨ w.attempt.status = .submitted) then
      statusRead cfg s w status
    else s
  | .finish w result =>
    if w ∈ s.works ∧ w.stage = .sent then
      { s with ledger := Refunds.step cfg.captures s.ledger (.finishDispatch w.attempt.id result) }.drop w
    else s
  | .lose w => s.drop w

def run (cfg : DispatchConfig) (s : Sys) (actions : List Action) : Sys := actions.foldl (step cfg) s

def Sys.new : Sys := ⟨.new, [], [], []⟩

def Steps (cfg : DispatchConfig) (s t : Sys) : Prop := ∃ a, t = step cfg s a

def Runs (cfg : DispatchConfig) : Sys → Prop := Reachable (· = Sys.new) (Steps cfg)

theorem Runs.run {cfg : DispatchConfig} {s : Sys} (h : Runs cfg s) (as : List Action) : Runs cfg (run cfg s as) := by
  induction as generalizing s with
  | nil => exact h
  | cons a as ih => exact ih (.step h ⟨a, rfl⟩)

end NawaraCore.RefundDispatch
