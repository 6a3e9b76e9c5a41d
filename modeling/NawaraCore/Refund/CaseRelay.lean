import Mathlib.Data.Prod.Lex
import NawaraCore.Lib.BatchScan
import NawaraCore.Lib.Rows
import NawaraCore.Refund.Refund

/-!
# Relays of refund cases

Billing relays an authorization receipt for an open refund case to Payment and mirrors what
Payment's answers prove of the attempt; a case is cancelled only while nothing of it was
consumed, and completed from Payment's completion (migrations 0034, 0035 and 0041).
-/

namespace NawaraCore.RefundRelays

open Refunds (RefundAttemptStatus canTransition)

abbrev Uuid := Nat

inductive PaymentRefusal
  | payment_not_refundable | refund_capture_unverified | refund_amount_not_full | refund_dispute_open | refund_in_progress
  | refund_already_recorded | refund_case_completed | refund_capture_not_eligible
deriving DecidableEq

/-- `attemptStatus`: Payment's status of the attempt, or its permanent refusal of the id. -/
inductive RelayStatus
  | attempt (status : RefundAttemptStatus)
  | rejected
deriving DecidableEq

def allowed : RefundAttemptStatus → RefundAttemptStatus → Bool
  | .authorizationPending, .authorized | .authorizationPending, .authorizationExpired | .authorizationPending, .authorizationRefused
  | .authorizationPending, .dispatching | .authorizationPending, .submitted | .authorizationPending, .unknown
  | .authorizationPending, .succeeded | .authorizationPending, .failed | .authorizationPending, .discrepancy => true
  | .authorized, .dispatching | .authorized, .submitted | .authorized, .unknown | .authorized, .succeeded | .authorized, .failed
  | .authorized, .discrepancy => true
  | .dispatching, .submitted | .dispatching, .unknown | .dispatching, .succeeded | .dispatching, .failed | .dispatching, .discrepancy => true
  | .unknown, .submitted | .unknown, .succeeded | .unknown, .failed | .unknown, .discrepancy => true
  | .submitted, .succeeded | .submitted, .failed | .submitted, .discrepancy => true
  | .failed, .discrepancy => true
  | _, _ => false

def RelayStatus.allowed : RelayStatus → RelayStatus → Bool
  | .attempt a, .attempt b => RefundRelays.allowed a b
  | _, _ => false

def refusalCodes : List PaymentRefusal :=
  [.payment_not_refundable, .refund_capture_unverified, .refund_amount_not_full, .refund_dispute_open, .refund_in_progress,
    .refund_already_recorded, .refund_capture_not_eligible]

def RelayStatus.unconsumedFinal : RelayStatus → Bool
  | .attempt .authorizationExpired | .attempt .authorizationRefused | .rejected => true
  | _ => false

/-- `NOT_EFFECTIVE`: the case may have a new relay. -/
def RelayStatus.notEffective : RelayStatus → Bool
  | .attempt .failed => true
  | s => s.unconsumedFinal

structure Relay where
  id : Uuid
  refundCaseId : Uuid
  paymentId : Uuid
  attemptStatus : Option RelayStatus
  refusal : Option PaymentRefusal
  statusAt : Option Int
deriving DecidableEq

inductive CaseStatus
  | open | cancelled | completed
deriving DecidableEq

structure RefundCase where
  id : Uuid
  paymentId : Uuid
  amount : Nat
  currency : String
  status : CaseStatus
  completedAt : Option Int
deriving DecidableEq

structure RefundCaseCompletion where
  refundCaseId : Uuid
  paymentId : Uuid
  refundAttemptId : Uuid
  refundAuthorizationId : Uuid
  approvedAmount : Nat
  currency : String
  completedAt : Int
deriving DecidableEq

structure Db where
  cases : List RefundCase
  relays : List Relay
  completions : List RefundCaseCompletion
deriving DecidableEq

def Db.case? (db : Db) (id : Uuid) : Option RefundCase := db.cases.find? fun c => c.id = id

def Db.relay? (db : Db) (id : Uuid) : Option Relay := db.relays.find? fun r => r.id = id

/-- The relay holds its case: the rows of `refund_authorization_relay_one_live`. -/
def Relay.live (r : Relay) : Bool := ¬ r.attemptStatus.any RelayStatus.notEffective

def Relay.unconsumed (r : Relay) : Bool := r.attemptStatus.any RelayStatus.unconsumedFinal

def Db.otherLive (db : Db) (r : Relay) : Bool := db.relays.any fun x => x.refundCaseId = r.refundCaseId ∧ x.id ≠ r.id ∧ x.live

inductive RefundRelayOutcome
  | attempt (status : RefundAttemptStatus)
  | terminal (status : RefundAttemptStatus)
  | refused (code : PaymentRefusal)
  | pending
  | conflict
  | unknown
deriving DecidableEq

def RefundRelayOutcome.next : RefundRelayOutcome → Option (RelayStatus × Option PaymentRefusal)
  | .attempt status | .terminal status => some (.attempt status, none)
  | .refused code => some (.rejected, some code)
  | .pending => some (.attempt .authorizationPending, none)
  | .conflict | .unknown => none

/-- An `UPDATE` of the status and the refusal, with the guards, the checks and the unique index. -/
def Db.updateRelay (db : Db) (r : Relay) (status : RelayStatus) (refusal : Option PaymentRefusal) (now : Int) : Except String Relay :=
  if r.attemptStatus = some status then
    if r.refusal = refusal then .ok r else .error "refund_authorization_relay_status_facts"
  else if r.attemptStatus.any fun s => ¬ s.allowed status then .error "refund_authorization_relay_transition"
  else if decide (status = .rejected) ≠ refusal.isSome ∨ refusal.any (· ∉ refusalCodes) then .error "refund_authorization_relay_refusal"
  else
    let updated := { r with
      attemptStatus := some status
      refusal
      statusAt := some now }
    if updated.live ∧ db.otherLive r then .error "refund_authorization_relay_one_live" else .ok updated

/-- `mirror`: a refused update rolls back to its savepoint. -/
def Db.mirror (db : Db) (id : Uuid) (status : RelayStatus) (refusal : Option PaymentRefusal) (now : Int) : Db :=
  match db.relay? id with
  | none => db
  | some current =>
    if current.attemptStatus = some status then db
    else match db.updateRelay current status refusal now with
      | .error _ => db
      | .ok updated => { db with relays := replaceRow Relay.id updated db.relays }

/-- `apply`: an answer that proves nothing leaves the relay. -/
def Db.apply (db : Db) (id : Uuid) (outcome : RefundRelayOutcome) (now : Int) : Db :=
  match outcome.next with
  | none => db
  | some (status, refusal) => db.mirror id status refusal now

def Db.relay (db : Db) (id refundCaseId : Uuid) : Db :=
  match db.case? refundCaseId with
  | none => db
  | some c =>
    if c.status ≠ .open ∨ (db.relays.any fun r => r.refundCaseId = refundCaseId ∧ r.live) ∨ (db.relays.any fun r => r.id = id) then db
    else { db with relays := db.relays ++ [⟨id, refundCaseId, c.paymentId, none, none, none⟩] }

def Db.cancel (db : Db) (refundCaseId : Uuid) : Db :=
  match db.case? refundCaseId with
  | none => db
  | some c =>
    if c.status ≠ .open ∨ (db.relays.any fun r => r.refundCaseId = refundCaseId ∧ ¬ r.unconsumed) then db
    else { db with cases := replaceRow RefundCase.id { c with status := .cancelled } db.cases }

structure PaymentRefundCompletion where
  refundCaseId : Uuid
  refundAuthorizationId : Uuid
  refundAttemptId : Uuid
  paymentId : Uuid
  approvedAmount : Nat
  currency : String
  completedAt : Int

inductive CompletionOutcome
  | completed | duplicate | binding_mismatch | conflict
deriving DecidableEq

/-- `complete`: one transaction under the case's row lock. -/
def Db.complete (db : Db) (z : PaymentRefundCompletion) : Db × CompletionOutcome :=
  match db.case? z.refundCaseId with
  | none => (db, .binding_mismatch)
  | some c =>
    match db.completions.find? fun k => k.refundCaseId = z.refundCaseId with
    | some prior => (db, if prior.refundAuthorizationId = z.refundAuthorizationId then .duplicate else .conflict)
    | none =>
      if c.paymentId ≠ z.paymentId then (db, .binding_mismatch)
      else if c.amount ≠ z.approvedAmount ∨ c.currency ≠ z.currency then (db, .binding_mismatch)
      else if ¬ db.relays.any fun r => r.id = z.refundAttemptId ∧ r.refundCaseId = z.refundCaseId ∧ r.paymentId = z.paymentId then
        (db, .binding_mismatch)
      else if c.status ≠ .open then (db, .conflict)
      else
        ({ db with
          completions := db.completions ++
            [⟨z.refundCaseId, z.paymentId, z.refundAttemptId, z.refundAuthorizationId, z.approvedAmount, z.currency, z.completedAt⟩]
          cases := replaceRow RefundCase.id { c with
            status := .completed
            completedAt := some z.completedAt } db.cases }, .completed)

structure RefundAuthorizationSnapshot where
  refundAuthorizationId : Uuid
  refundAttemptId : Uuid
  refundCaseId : Uuid
  approvedAmount : Nat
  currency : String
  completedAt : Option Int

/-- What a pass reads beside the database: the `openedAt` of the cases, and the authorizations that Payment's refunds read
answers for a payment, `none` for no answer or an unknown payment. -/
structure PassEnv where
  openedAt : Uuid → Int
  refunds : Uuid → Option (List RefundAuthorizationSnapshot)

def BATCH_SIZE : Nat := 50

def Db.awaiting (db : Db) : List Uuid :=
  (db.cases.filter fun c => c.status = .open ∧ db.relays.any fun r => r.refundCaseId = c.id ∧ ¬ r.unconsumed).map RefundCase.id

def PassEnv.order (env : PassEnv) (refundCaseId : Uuid) : Lex (Int × Nat) := toLex (env.openedAt refundCaseId, refundCaseId)

def PassEnv.completion (env : PassEnv) (c : RefundCase) : Option PaymentRefundCompletion :=
  (env.refunds c.paymentId).bind fun authorizations => authorizations.findSome? fun z =>
    if z.refundCaseId = c.id then
      z.completedAt.map fun t => ⟨c.id, z.refundAuthorizationId, z.refundAttemptId, c.paymentId, z.approvedAmount, z.currency, t⟩
    else none

def PassEnv.visit (env : PassEnv) (db : Db) (refundCaseId : Uuid) : Db × Option CompletionOutcome :=
  match (db.case? refundCaseId).bind env.completion with
  | none => (db, none)
  | some z => ((db.complete z).1, some (db.complete z).2)

/-- `completeFromPayment`: the next database, and how many cases it completed. -/
def PassEnv.completeFromPayment (env : PassEnv) (db : Db) : Db × Nat :=
  (batch env.order Db.awaiting BATCH_SIZE db).foldl (fun (db, completed) refundCaseId =>
    let (db, outcome) := env.visit db refundCaseId
    (db, if outcome = some .completed then completed + 1 else completed)) (db, 0)

end NawaraCore.RefundRelays
