import Mathlib.Logic.Function.Basic
import NawaraCore.Lib.Runs
import NawaraCore.Refund.CaseRelay

/-!
# Relays beside their attempts

Payment keeps a record for each refund attempt id and answers what the record says at some
instant. Billing applies the answers in any order and any number of times, from the HTTP
response or from a reconciliation read.
-/

namespace NawaraCore.RefundRelays

open Refunds (RefundAttemptStatus canTransition)

inductive PaymentRecord
  | absent
  | attempt (status : RefundAttemptStatus) (receiptId : Option Uuid)
  | refused (code : PaymentRefusal)
deriving DecidableEq

def PaymentRecord.consumed : PaymentRecord → Bool
  | .attempt _ receiptId => receiptId.isSome
  | _ => false

def PaymentRecord.move (record : PaymentRecord) (status : RefundAttemptStatus) (receiptId : Option Uuid) : PaymentRecord :=
  match record with
  | .attempt old stored =>
    if canTransition old status ∧ (stored.isSome → receiptId = stored) ∧ status.unauthorized = receiptId.isNone then .attempt status receiptId
    else record
  | _ => record

def PaymentRecord.answers : PaymentRecord → RefundRelayOutcome → Bool
  | _, .conflict | _, .unknown => true
  | .attempt status _, .attempt s => s = status
  | .attempt status _, .terminal s => s = status ∧ (s = .authorizationRefused ∨ s = .authorizationExpired)
  | .attempt status _, .pending => status = .authorizationPending
  | .refused code, .refused c => c = code
  | _, _ => false

/-! ## Runs -/

structure State where
  db : Db
  payment : Uuid → PaymentRecord
  /-- What Payment answered, and for which attempt id: answers arrive late, more than once, or never. -/
  answers : List (Uuid × RefundRelayOutcome)
  /-- The stored statuses that passes of the reconciler read. -/
  reads : List (Uuid × Option RelayStatus)
  /-- The statuses that Billing was told, for which attempt id. -/
  applied : List (Uuid × RelayStatus)

inductive Action
  | openCase (id paymentId : Uuid) (amount : Nat) (currency : String)
  | relay (id refundCaseId : Uuid)
  | cancel (refundCaseId : Uuid)
  | complete (z : PaymentRefundCompletion)
  | intend (id : Uuid)
  | refuse (id : Uuid) (code : PaymentRefusal)
  | move (id : Uuid) (status : RefundAttemptStatus) (receiptId : Option Uuid)
  | answer (id : Uuid) (outcome : RefundRelayOutcome)
  | lease (id : Uuid)
  | apply (id : Uuid) (outcome : RefundRelayOutcome) (now : Int)
  | reconcile (id : Uuid) (seen : Option RelayStatus) (outcome : RefundRelayOutcome) (now : Int)

def Db.openCase (db : Db) (id paymentId : Uuid) (amount : Nat) (currency : String) : Db :=
  if db.cases.any fun c => c.id = id then db
  else { db with cases := db.cases ++ [⟨id, paymentId, amount, currency, .open, none⟩] }

def State.record (s : State) (id : Uuid) (record : PaymentRecord) : State :=
  if s.payment id = .absent ∧ (s.db.relays.any fun r => r.id = id) then { s with payment := Function.update s.payment id record } else s

def State.appliedTo (s : State) (id : Uuid) : List RelayStatus := (s.applied.filter fun x => x.1 = id).map Prod.snd

def State.told (s : State) (id : Uuid) (outcome : RefundRelayOutcome) : List (Uuid × RelayStatus) :=
  match outcome.next with
  | none => s.applied
  | some (status, _) => s.applied ++ [(id, status)]

def State.apply (s : State) (id : Uuid) (outcome : RefundRelayOutcome) (now : Int) : State :=
  { s with
    db := s.db.apply id outcome now
    applied := s.told id outcome }

def step (s : State) : Action → State
  | .openCase id paymentId amount currency => { s with db := s.db.openCase id paymentId amount currency }
  | .relay id refundCaseId => { s with db := s.db.relay id refundCaseId }
  | .cancel refundCaseId => { s with db := s.db.cancel refundCaseId }
  | .complete z => { s with db := (s.db.complete z).1 }
  | .intend id => s.record id (.attempt .authorizationPending none)
  | .refuse id code => s.record id (.refused code)
  | .move id status receiptId => { s with payment := Function.update s.payment id ((s.payment id).move status receiptId) }
  | .answer id outcome => if (s.payment id).answers outcome then { s with answers := (id, outcome) :: s.answers } else s
  | .lease id => match s.db.relay? id with
    | none => s
    | some r => { s with reads := (id, r.attemptStatus) :: s.reads }
  | .apply id outcome now => if (id, outcome) ∈ s.answers then s.apply id outcome now else s
  | .reconcile id seen outcome now =>
    if (id, outcome) ∈ s.answers ∧ (id, seen) ∈ s.reads then
      -- the status that the pass read is not written again
      if outcome.next.map Prod.fst = seen then { s with applied := s.told id outcome } else s.apply id outcome now
    else s

def State.new : State := ⟨⟨[], [], []⟩, fun _ => .absent, [], [], []⟩

def run (actions : List Action) : State := actions.foldl step .new

/-- The furthest of the statuses, `none` of none. -/
def Furthest (l : List RelayStatus) : Option RelayStatus → Prop
  | none => l = []
  | some m => m ∈ l ∧ ∀ t ∈ l, t = m ∨ t.allowed m

/-- A relay is left as it is, or a status that its own can reach is written whole. -/
def Relay.Moves (r r' : Relay) : Prop :=
  r' = r ∨ ∃ (status : RelayStatus) (refusal : Option PaymentRefusal) (now : Int), (∀ old ∈ r.attemptStatus, old.allowed status) ∧
    (status = .rejected ↔ refusal.isSome) ∧ r' = { r with
      attemptStatus := some status
      refusal
      statusAt := some now }

structure MirrorLaw (s : State) : Prop where
  forward : ∀ a, ∀ r ∈ s.db.relays, ∃ r' ∈ (step s a).db.relays, r.Moves r'
  furthest : ∀ r ∈ s.db.relays, Furthest (s.appliedTo r.id) r.attemptStatus
  rejected : ∀ r ∈ s.db.relays, r.attemptStatus = some .rejected → ∃ code, r.refusal = some code ∧ s.payment r.id = .refused code
  cancelled : ∀ c ∈ s.db.cases, c.status = .cancelled → ∀ actions : List Action,
    ∀ r ∈ (actions.foldl step s).db.relays, r.refundCaseId = c.id → ((actions.foldl step s).payment r.id).consumed = false

/-- The answer is not the refusal that the relays' check leaves out, nor a discrepancy of a failed attempt while another relay
holds the case. -/
def State.Mirrors (s : State) (id : Uuid) (outcome : RefundRelayOutcome) : Prop :=
  outcome ≠ .refused .refund_case_completed ∧
    (outcome.next = some (.attempt .discrepancy, none) → ∀ r ∈ s.db.relays, r.id = id → r.attemptStatus = some (.attempt .failed) → s.db.otherLive r = false)

def State.Mirrored (s : State) : Action → Prop
  | .apply id outcome _ => (id, outcome) ∈ s.answers → s.Mirrors id outcome
  | .reconcile id seen outcome _ => (id, outcome) ∈ s.answers → (id, seen) ∈ s.reads → outcome.next.map Prod.fst ≠ seen → s.Mirrors id outcome
  | _ => True

end NawaraCore.RefundRelays
