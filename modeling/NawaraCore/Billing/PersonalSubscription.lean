import NawaraCore.Billing.PeriodSound

/-!
# Personal subscriptions

The purchase ledger of `subscription_purchase`, its reversals and the one fold that lays
its periods (migrations 0022, 0040 and 0044). The verified settlement behind a purchase
is checked before; what is left are the rules of the row itself.
-/

namespace NawaraCore.PersonalSubscriptions

open Subscriptions (Uuid IntervalUnit billing_subscription_period_end)

/-- A price of a subscription product; `intervalCount` is at least 1. -/
structure RecurringPrice where
  unit : IntervalUnit
  count : Nat
  positive : 0 < count

structure SubscriptionPurchase where
  id : Uuid
  personalSubscriptionId : Uuid
  invoiceId : Uuid
  receiptId : Option Uuid
  lateSuccessId : Option Uuid
  assistanceRequestId : Option Uuid
  price : RecurringPrice
  settledAt : Int
  appliedAt : Option Int
  originalStart : Int
  originalEnd : Int

def SubscriptionPurchase.settled (p : SubscriptionPurchase) : Int := p.appliedAt.getD p.settledAt

/-- The rows of `subscription_purchase`, in the order of their `ledgerSeq`, and the purchases reversed. -/
structure LedgerDb where
  purchases : List SubscriptionPurchase
  reversals : List Uuid

structure LedgerRow where
  id : Option Uuid
  settled : Int
  price : RecurringPrice

structure PersonalSpan where
  purchaseId : Option Uuid
  effectiveStart : Int
  effectiveEnd : Int
deriving DecidableEq

theorem period_end_isSome (start anchor : Int) (unit : IntervalUnit) (count : Nat) :
    (billing_subscription_period_end start (some anchor) unit count).isSome := by
  cases unit <;> rfl

def RecurringPrice.periodEnd (p : RecurringPrice) (start anchor : Int) : Int :=
  (billing_subscription_period_end start (some anchor) p.unit p.count).get (period_end_isSome start anchor p.unit p.count)

/-- `prev_end`, `prev_unit` and `anchor` after a row. -/
structure Laid where
  prev_end : Int
  prev_unit : IntervalUnit
  anchor : Int

def lay (prev : Option Laid) (r : LedgerRow) : Int × Int :=
  match prev with
  | none => (r.settled, r.settled)
  | some prev =>
    if r.settled ≤ prev.prev_end then
      (prev.prev_end, if r.price.unit.calendar ∧ prev.prev_unit.calendar then prev.anchor else prev.prev_end)
    else (r.settled, r.settled)

def next (prev : Option Laid) (r : LedgerRow) : Laid :=
  ⟨r.price.periodEnd (lay prev r).1 (lay prev r).2, r.price.unit, (lay prev r).2⟩

def spanOf (prev : Option Laid) (r : LedgerRow) : PersonalSpan :=
  ⟨r.id, (lay prev r).1, (next prev r).prev_end⟩

def layAll (prev : Option Laid) : List LedgerRow → List PersonalSpan
  | [] => []
  | r :: rs => spanOf prev r :: layAll (some (next prev r)) rs

def SubscriptionPurchase.row (p : SubscriptionPurchase) : LedgerRow := ⟨some p.id, p.settled, p.price⟩

def LedgerDb.kept (db : LedgerDb) (personal : Uuid) : List SubscriptionPurchase :=
  db.purchases.filter fun p => p.personalSubscriptionId = personal ∧ p.id ∉ db.reversals

/-- `candidate` is `p_settled_at` and the price `p_price`. -/
def billing_personal_spans (db : LedgerDb) (personal : Uuid) (candidate : Option (Int × RecurringPrice)) :
    List PersonalSpan :=
  layAll none ((db.kept personal).map (·.row) ++ candidate.toList.map fun c => ⟨none, c.1, c.2⟩)

/-! ## The repository -/

inductive Failure
  | refused (constraint : String)

structure SettledPurchase where
  id : Uuid
  personalSubscriptionId : Uuid
  invoiceId : Uuid
  receiptId : Option Uuid
  lateSuccessId : Option Uuid
  assistanceRequestId : Option Uuid
  price : RecurringPrice
  settledAt : Int
  appliedAt : Option Int

def insertGuard (db : LedgerDb) (p : SettledPurchase) : Option SubscriptionPurchase :=
  let spans := billing_personal_spans db p.personalSubscriptionId (some (p.appliedAt.getD p.settledAt, p.price))
  (spans.find? (·.purchaseId = none)).map fun span =>
    { id := p.id
      personalSubscriptionId := p.personalSubscriptionId
      invoiceId := p.invoiceId
      receiptId := p.receiptId
      lateSuccessId := p.lateSuccessId
      assistanceRequestId := p.assistanceRequestId
      price := p.price
      settledAt := p.settledAt
      appliedAt := p.appliedAt
      originalStart := span.effectiveStart
      originalEnd := span.effectiveEnd }

def checks (r : SubscriptionPurchase) : List (String × Bool) := [
  ("subscription_purchase_evidence", r.receiptId.isNone ≠ r.lateSuccessId.isNone),
  ("subscription_purchase_late_success_shape",
    r.lateSuccessId = none ∨ (r.assistanceRequestId ≠ none ∧ r.appliedAt ≠ none)),
  ("subscription_purchase_applied",
    r.appliedAt = none ∨ (r.assistanceRequestId ≠ none ∧ ∀ t ∈ r.appliedAt, r.settledAt ≤ t)),
  ("subscription_purchase_span", r.originalStart < r.originalEnd ∧ r.settledAt ≤ r.originalStart)]

def conflicts (p q : SubscriptionPurchase) : Bool :=
  p.id = q.id ∨ p.invoiceId = q.invoiceId ∨ (p.receiptId ≠ none ∧ p.receiptId = q.receiptId) ∨
    (p.lateSuccessId ≠ none ∧ p.lateSuccessId = q.lateSuccessId) ∨
    (p.assistanceRequestId ≠ none ∧ p.assistanceRequestId = q.assistanceRequestId)

def recordPurchase (db : LedgerDb) (p : SettledPurchase) : Except Failure (LedgerDb × Bool) :=
  match insertGuard db p with
  | none => .error (.refused "subscription_purchase_span")
  | some row =>
    match (checks row).find? fun c => !c.2 with
    | some c => .error (.refused c.1)
    | none =>
      if db.purchases.any (conflicts row) then .ok (db, false)
      else .ok ({ db with purchases := db.purchases ++ [row] }, true)

def reversePurchase (db : LedgerDb) (purchaseId : Uuid) : Except Failure (LedgerDb × Bool) :=
  if purchaseId ∈ db.reversals then .ok (db, false)
  else if db.purchases.any (·.id = purchaseId) then .ok ({ db with reversals := db.reversals ++ [purchaseId] }, true)
  else .error (.refused "subscription_purchase_reversal_purchaseId_fkey")

inductive LedgerStep : LedgerDb → LedgerDb → Prop
  | recordPurchase {db db' : LedgerDb} (p : SettledPurchase) (recorded : Bool)
    (h : PersonalSubscriptions.recordPurchase db p = .ok (db', recorded)) : LedgerStep db db'
  | reversePurchase {db db' : LedgerDb} (purchaseId : Uuid) (reversed : Bool)
    (h : PersonalSubscriptions.reversePurchase db purchaseId = .ok (db', reversed)) : LedgerStep db db'

def LedgerRuns : LedgerDb → Prop := Reachable (· = ⟨[], []⟩) LedgerStep

end NawaraCore.PersonalSubscriptions
