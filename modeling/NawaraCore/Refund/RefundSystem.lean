import NawaraCore.Lib.Runs
import NawaraCore.Refund.RefundService

/-!
# Runs of the refund ledger

A success is recorded, applied and allocated in separate transactions. What a call of
`apply` carries from the first to the second is kept beside the database, so the
transactions of different calls interleave freely and a call can be lost between them.
-/

namespace NawaraCore.Refunds

open Payments (Uuid PaymentError)

structure EvidenceCall where
  refundAttemptId : Uuid
  status : RefundStatusResult
  fact : Option RecordedFact
deriving DecidableEq

structure Sys where
  db : Db
  calls : List EvidenceCall

inductive Action
  | request (paymentId : Uuid) (input : RefundRequestInput)
  | refuse (id : Uuid)
  | commitAuthorized (id receiptId authorizationId : Uuid)
  | commitUnauthorized (id : Uuid) (expired : Bool)
  | startDispatch (id : Uuid)
  | finishDispatch (id : Uuid) (result : RefundDispatchResult)
  | observe (attemptId : Uuid) (status : RefundStatusResult) (webhookEventId : Option Uuid) (freshId : Uuid)
  | applyStatus (c : EvidenceCall)
  | lose (c : EvidenceCall)
  | keepUnmatched (provider providerTransactionId : String) (amount : Int) (currency : String)
      (webhookEventId freshId : Uuid)
  | associate (s : FactAssociation)
  | decideAssociation (s : FactAssociation) (status : AssociationStatus)
  | allocate (factId : Uuid) (now : Int)

def Sys.commit (s : Sys) : Except PaymentError Db → Sys
  | .ok db => { s with db }
  | .error _ => s

def observe (db : Db) (attemptId : Uuid) (status : RefundStatusResult) (webhookEventId : Option Uuid) (freshId : Uuid) :
    Except PaymentError (Db × Option RecordedFact) :=
  match status with
  | .succeeded amount currency providerRefundId =>
    recordRefundFact db attemptId amount currency providerRefundId webhookEventId freshId
  | _ => .ok (db, none)

def apply (db : Db) (attemptId : Uuid) (status : RefundStatusResult) (webhookEventId : Option Uuid) (freshId : Uuid) :
    Except PaymentError Db := do
  let (db, fact) ← observe db attemptId status webhookEventId freshId
  applyStatus db attemptId status fact

def step (cs : Captures) (s : Sys) : Action → Sys
  | .request paymentId input => s.commit (request cs s.db paymentId input)
  | .refuse id => s.commit (refuse s.db id)
  | .commitAuthorized id receiptId authorizationId => s.commit (commitAuthorized s.db id receiptId authorizationId)
  | .commitUnauthorized id expired => s.commit (commitUnauthorized s.db id expired)
  | .startDispatch id => s.commit (startDispatch s.db id)
  | .finishDispatch id result => s.commit (finishDispatch s.db id result)
  | .observe attemptId status webhookEventId freshId =>
    match observe s.db attemptId status webhookEventId freshId with
    | .ok (db, fact) => { db, calls := ⟨attemptId, status, fact⟩ :: s.calls }
    | .error _ => s
  | .applyStatus c =>
    if c ∈ s.calls then { s with calls := s.calls.erase c }.commit (applyStatus s.db c.refundAttemptId c.status c.fact)
    else s
  | .lose c => { s with calls := s.calls.erase c }
  | .keepUnmatched provider txn amount currency webhookEventId freshId =>
    s.commit (recordUnmatchedFact s.db provider txn amount currency webhookEventId freshId)
  | .associate a => s.commit (s.db.insertAssociation a)
  | .decideAssociation a status => s.commit (s.db.decideAssociation a status)
  | .allocate factId now => s.commit ((allocate s.db factId now).map (·.1))

def run (cs : Captures) (s : Sys) (actions : List Action) : Sys := actions.foldl (step cs) s

def Sys.new : Sys := ⟨⟨[], [], [], [], [], [], [], [], []⟩, []⟩

def Steps (cs : Captures) (s t : Sys) : Prop := ∃ a, t = step cs s a

def Runs (cs : Captures) : Sys → Prop := Reachable (· = Sys.new) (Steps cs)

theorem Runs.run {cs : Captures} {s : Sys} (h : Runs cs s) : ∀ as, Runs cs (run cs s as)
  | [] => h
  | a :: as => Runs.run (.step h ⟨a, rfl⟩) as

end NawaraCore.Refunds
