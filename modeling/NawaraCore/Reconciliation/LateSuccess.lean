import NawaraCore.Reconciliation.ReconciliationCases

/-!
# Late successes

`LateSuccessService`: the verified late success of a payment is recorded once and classified
as a recovery payment, a late assisted settlement or a refund-only case. The evidence of a
recovery capture is read from Payment before the classifying transaction, and the first
look-up of a classification comes before the lock of its payment request.
-/

namespace NawaraCore.Reconciliation

open Subscriptions (Uuid)
open PaymentRequests (PaymentRequestStatus Failure)

structure PaymentCapture where
  factId : Uuid
  paymentId : Uuid
  amount : Int
  currency : String
  conflicted : Bool
  attemptCaptures : Nat

inductive CaptureNotFoundReason
  | capture_not_found | collapsed | unrecognized

/-- What Payment's capture read proves; a read that throws proves nothing. -/
inductive CaptureReadOutcome
  | capture (capture : PaymentCapture)
  | not_found (reason : CaptureNotFoundReason)
  | ineligible_currency
  | unknown

inductive RecoveryCaptureEvidence
  | verified | contested | unverified
deriving DecidableEq

structure PaymentLateSuccess where
  lateSuccessId : Uuid
  paymentId : Uuid
  factId : Option Uuid
  amount : Int
  currency : String
  paymentStatus : PaymentStatus
  recordedAt : Nat
deriving DecidableEq

def Db.invoiceOf (db : Db) (paymentId : Uuid) : Option Invoice := (db.requestOf paymentId).bind fun r => db.invoice? r.invoiceId

def Invoice.equalRecovery (i : Invoice) (amount : Int) (currency : String) : Option Uuid :=
  match i.routing with
  | some (.recovery_settlement o) => if amount = i.total ∧ currency = i.currency then some o else none
  | _ => none

def recoveryEvidence (db : Db) (paymentId : Uuid) (factId : Option Uuid) (amount : Int) (currency : String)
    (read : CaptureReadOutcome) : Option RecoveryCaptureEvidence :=
  match (db.invoiceOf paymentId).bind fun i => i.equalRecovery amount currency with
  | none => none
  | some _ =>
    match factId with
    | none => some .unverified
    | some factId =>
      match read with
      | .capture c =>
        if c.paymentId = paymentId ∧ c.factId = factId then
          if c.conflicted then some .contested
          else if c.attemptCaptures ≠ 1 then some .unverified
          else if c.amount = amount ∧ c.currency = currency then some .verified else some .unverified
        else none
      | .not_found .capture_not_found => some .unverified
      | _ => none

/-! ## The classification -/

inductive ClassifyOutcome
  | recovery | recovered | case | late_settlement | deferred | done
deriving DecidableEq

structure Fresh where
  recovery : Recovery.FreshIds
  lateSettlement : Uuid
  case : Uuid
  now : Int

/-- The first look-up of `classify`, before the lock. -/
def Db.classified (db : Db) (lateSuccessId : Uuid) : Bool := db.counted lateSuccessId ≠ [] ∨ db.settled lateSuccessId ≠ []

def finalRequest : PaymentRequestStatus → Bool
  | .paid | .failed | .cancelled | .expired | .rejected => true
  | _ => false

/-- Payment's payment and Billing's request ended in the same unsuccessful state. -/
def PaymentStatus.endedAs : PaymentStatus → PaymentRequestStatus → Bool
  | .failed, .failed | .cancelled, .cancelled | .expired, .expired => true
  | _, _ => false

def lateSettlement (db : Db) (l : LateSuccess) (pr : PaymentRequest) (i : Invoice) (assistanceRequestId : Uuid) (fresh : Fresh) :
    Except Failure (Option (Db × Uuid)) :=
  if l.factId = none ∨ ¬ l.paymentStatus.endedAs pr.status ∨ l.amount ≠ i.total ∨ l.currency ≠ i.currency then .ok none
  else if (¬ db.channels.any fun c => c.invoiceId = i.id ∧ c.assistanceRequestId = assistanceRequestId ∧
      c.paymentRequestId = some pr.id ∧ c.status = .closed) ∨ db.lateSettlements.any fun s => s.invoiceId = i.id then .ok none
  else
    (db.insertLateSettlement ⟨fresh.lateSettlement, assistanceRequestId, i.id, pr.id, .lateSuccess l.lateSuccessId, l.recordedAt⟩).map
      fun db => some (db, fresh.lateSettlement)

def openLateSuccess (db : Db) (l : LateSuccess) (i : Invoice) (fresh : Fresh) : Except Failure (Db × ClassifyOutcome) :=
  (openForPayment db ⟨.late_success, l.lateSuccessId, some l.paymentRequestId, none, l.factId, some l.amount, some l.currency,
    some ((i.routing.map Routing.purpose).getD "unrouted")⟩ fresh.case).map fun (db, opened) =>
      (db, if opened.isNone then .done else .case)

/-- `classify` once it holds the lock of the payment request. -/
def classifyLocked (db : Db) (lateSuccessId : Uuid) (evidence : Option RecoveryCaptureEvidence) (fresh : Fresh) :
    Except Failure (Db × ClassifyOutcome) :=
  match db.lateSuccess? lateSuccessId with
  | none => .error .notFound
  | some l =>
    match db.request? l.paymentRequestId with
    | none => .error .notFound
    | some pr =>
      match db.invoice? pr.invoiceId with
      | none => .error .notFound
      | some i =>
        match i.equalRecovery l.amount l.currency, evidence with
        | some _, none => .ok (db, .deferred)
        | some obligationId, some .verified =>
          (Recovery.applyRecoveryPayment db.ledger ⟨obligationId, i.id, pr.id, .lateSuccess lateSuccessId, l.amount, l.currency⟩
            fresh.recovery fresh.now).map fun (ledger, applied) =>
              (db.withLedger ledger, match applied with | .recovered => .recovered | .recovery => .recovery)
        | _, _ =>
          match i.routing with
          | some (.assisted_settlement assistanceRequestId) =>
            if db.listed .late_success lateSuccessId ≠ [] then .ok (db, .done)
            else if ¬ finalRequest pr.status then .ok (db, .deferred)
            else do
              match ← lateSettlement db l pr i assistanceRequestId fresh with
              | some (db, id) =>
                let (db, _) ← openForPayment db ⟨.late_assisted_settlement, id, some pr.id, some l.paymentId, l.factId, some l.amount,
                  some l.currency, none⟩ fresh.case
                .ok (db, .late_settlement)
              | none => openLateSuccess db l i fresh
          | _ => openLateSuccess db l i fresh

def classify (db : Db) (lateSuccessId : Uuid) (evidence : Option RecoveryCaptureEvidence) (fresh : Fresh) :
    Except Failure (Db × ClassifyOutcome) :=
  if db.classified lateSuccessId then .ok (db, .done) else classifyLocked db lateSuccessId evidence fresh

inductive LateSuccessOutcome
  | recorded | duplicate | binding_mismatch | conflict

def MAX_SAFE_INTEGER : Int := 9007199254740991

def currencyCode (s : String) : Bool := s.length = 3 ∧ s.toList.all fun c => 'A' ≤ c ∧ c ≤ 'Z'

/-- The transaction of `record`, on the evidence that was read before it. -/
def record (db : Db) (l : PaymentLateSuccess) (evidence : Option RecoveryCaptureEvidence) (fresh : Fresh) :
    Except Failure (Db × LateSuccessOutcome × Option ClassifyOutcome) :=
  if l.amount < 1 ∨ MAX_SAFE_INTEGER < l.amount ∨ ¬ currencyCode l.currency then .ok (db, .binding_mismatch, none)
  else
    match db.requestOf l.paymentId with
    | none => .ok (db, .binding_mismatch, none)
    | some pr =>
      match db.lateSuccess? l.lateSuccessId with
      | some prior =>
        if prior.paymentId = l.paymentId ∧ prior.factId = l.factId ∧ prior.amount = l.amount ∧ prior.currency = l.currency then
          .ok (db, .duplicate, none)
        else .ok (db, .conflict, none)
      | none =>
        -- a fact is never recorded twice: the violation of its unique index answers `duplicate`
        if l.factId.isSome ∧ db.lateSuccesses.any fun x => x.factId = l.factId then .ok (db, .duplicate, none)
        else
          let row : LateSuccess := ⟨l.lateSuccessId, l.paymentId, pr.id, l.factId, l.amount, l.currency, l.paymentStatus, l.recordedAt⟩
          (classify { db with lateSuccesses := db.lateSuccesses ++ [row] } l.lateSuccessId evidence fresh).map fun (db, o) =>
            (db, .recorded, some o)

end NawaraCore.Reconciliation
