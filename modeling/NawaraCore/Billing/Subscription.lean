import Mathlib.Logic.Function.Basic
import NawaraCore.Lib.Calendar
import NawaraCore.Lib.Runs

/-!
# Organization subscriptions

The rows of `subscription`, the database rules that guard an update (migrations
0013, 0015 and 0024), the operations of `SubscriptionRepository` and the derivation
of entitlement. Instants are integer milliseconds; a database `CHECK` or trigger
that refuses a row is an error of the operation that wrote it.
-/

namespace NawaraCore.Subscriptions

open Calendar

abbrev Uuid := Nat

def DAY_MS : Int := 24 * 3600 * 1000

inductive IntervalUnit
  | day | week | month | year
deriving DecidableEq

structure Price where
  productId : Uuid
  interval : Option (IntervalUnit × Nat)
  retired : Bool

inductive SubscriptionStatus
  | pending | active | grace | expired
deriving DecidableEq

def SubscriptionStatus.text : SubscriptionStatus → String
  | .pending => "pending"
  | .active => "active"
  | .grace => "grace"
  | .expired => "expired"

structure SubscriptionRow where
  organizationId : Uuid
  productId : Uuid
  priceId : Uuid
  status : SubscriptionStatus
  currentPeriodStart : Option Int
  currentPeriodEnd : Option Int
  graceUntil : Option Int
  cancelAtPeriodEnd : Bool
  effectiveTerminationAt : Option Int
  billingAnchorAt : Option Int
  revision : Nat

structure EffectiveEntitlement where
  valid : Bool
  expiresAt : Option Int

def INVALID : EffectiveEntitlement := ⟨false, none⟩

/-- An `EntitlementError` is its message. -/
def deriveEntitlement (subscription : Option SubscriptionRow) (now : Int) : Except String EffectiveEntitlement :=
  match subscription with
  | none => .ok INVALID
  | some s =>
    if s.status = .pending then .ok INVALID
    else
      match s.currentPeriodStart, s.currentPeriodEnd with
      | some currentPeriodStart, some currentPeriodEnd =>
        if currentPeriodEnd ≤ currentPeriodStart then .error "currentPeriodEnd must be after currentPeriodStart"
        else if ∃ g ∈ s.graceUntil, g ≤ currentPeriodEnd then .error "graceUntil must be after currentPeriodEnd"
        else
          let boundary := s.graceUntil.getD currentPeriodEnd
          if ∃ t ∈ s.effectiveTerminationAt, boundary < t then
            .error "effectiveTerminationAt cannot extend access past the period/grace boundary"
          else
            let boundary := s.effectiveTerminationAt.getD boundary
            if now < currentPeriodStart then .ok INVALID
            else if now < boundary then .ok ⟨true, some boundary⟩ else .ok INVALID
      | _, _ => .error ("a subscription with status '" ++ s.status.text ++ "' must have a period")

structure RenewalBasis where
  currentPeriodEnd : Int
  graceUntil : Option Int

def isLateRenewal (sub : RenewalBasis) (now : Int) : Bool :=
  decide (sub.graceUntil.getD sub.currentPeriodEnd < now)

def renewalAnchor (sub : RenewalBasis) (now : Int) : Int :=
  if isLateRenewal sub now then now else sub.currentPeriodEnd

def IntervalUnit.calendar : IntervalUnit → Bool
  | .month | .year => true
  | .day | .week => false

def monthOf (t : Int) : Int := monthIndex (t / DAY_MS)

def plusMonths (t n : Int) : Int := addMonths (t / DAY_MS) n * DAY_MS + t % DAY_MS

/-- `billing_subscription_period_end`; the SQL result is NULL for a month or year price without an anchor. -/
def billing_subscription_period_end (start : Int) (anchor : Option Int) (unit : IntervalUnit) (count : Nat) : Option Int :=
  match unit with
  | .month => anchor.map fun a => plusMonths a (monthOf start - monthOf a + count * 1)
  | .year => anchor.map fun a => plusMonths a (monthOf start - monthOf a + count * 12)
  | .day => some (start + count * DAY_MS)
  | .week => some (start + count * (7 * DAY_MS))

/-! ## The database rules -/

inductive Failure
  /-- A `billingError`: the HTTP status and the code. -/
  | billing (status : Nat) (code : String)
  | notFound
  | refused (constraint : String)

def checks (r : SubscriptionRow) : List (String × Bool) := [
  ("subscription_pending_shape", r.status ≠ .pending ∨ (r.currentPeriodStart = none ∧ r.currentPeriodEnd = none ∧
    r.graceUntil = none ∧ r.effectiveTerminationAt = none ∧ r.cancelAtPeriodEnd = false)),
  ("subscription_active_has_period", r.status = .pending ∨ (r.currentPeriodStart ≠ none ∧ r.currentPeriodEnd ≠ none)),
  ("subscription_period_order", ∀ s ∈ r.currentPeriodStart, ∀ e ∈ r.currentPeriodEnd, s < e),
  ("subscription_grace_after_period", ∀ g ∈ r.graceUntil, ∀ e ∈ r.currentPeriodEnd, e < g),
  ("subscription_termination_shape", ∀ t ∈ r.effectiveTerminationAt, ∀ b ∈ r.graceUntil.or r.currentPeriodEnd, t ≤ b),
  ("subscription_pending_no_billing_anchor", r.status ≠ .pending ∨ r.billingAnchorAt = none),
  ("subscription_grace_fixed", r.status = .pending ∨ (r.graceUntil ≠ none ∧
    ∀ g ∈ r.graceUntil, ∀ e ∈ r.currentPeriodEnd, g = e + DAY_MS))]

/-- The first `CHECK` that refuses a row. -/
def checkRow (r : SubscriptionRow) : Except Failure SubscriptionRow :=
  match (checks r).find? fun c => !c.2 with
  | some c => .error (.refused c.1)
  | none => .ok r

def transitionAllowed : SubscriptionStatus → SubscriptionStatus → Bool
  | .pending, .active | .active, .grace | .active, .expired | .grace, .active | .grace, .expired
  | .expired, .active => true
  | old, new => old == new && old == .active

def lifecycle (old new : SubscriptionRow) : Except Failure SubscriptionRow :=
  if transitionAllowed old.status new.status then
    .ok { new with
      cancelAtPeriodEnd := if new.currentPeriodEnd ≠ old.currentPeriodEnd then false else new.cancelAtPeriodEnd
      effectiveTerminationAt := if new.status = .active then none else new.effectiveTerminationAt }
  else .error (.refused "billing_subscription_lifecycle")

def billingAnchor (price : Option Price) (old new : SubscriptionRow) : Except Failure SubscriptionRow :=
  let calendar := (price.bind Price.interval).any fun i => i.1.calendar
  if new.status = .pending then .ok new
  else if calendar ∧ new.billingAnchorAt = none then .error (.refused "billing_subscription_billing_anchor")
  else if ¬ calendar ∧ new.billingAnchorAt ≠ none then .error (.refused "billing_subscription_billing_anchor")
  else if new.billingAnchorAt ≠ old.billingAnchorAt ∧
      (new.currentPeriodStart = old.currentPeriodStart ∨ new.billingAnchorAt ≠ new.currentPeriodStart) then
    .error (.refused "billing_subscription_billing_anchor")
  else .ok new

/-- The triggers and checks of an `UPDATE` of a row, in the order they fire. -/
def guardedUpdate (price : Option Price) (old new : SubscriptionRow) : Except Failure SubscriptionRow := do
  let new ← lifecycle old new
  let new ← billingAnchor price old new
  checkRow { new with revision := old.revision + 1 }

/-! ## The repository -/

structure Settlement where
  invoiceId : Uuid
  organizationId : Uuid
  productId : Uuid
  paymentRequestId : Uuid
  receiptId : Uuid
  settledAt : Int

/-- The rows an operation reads or writes; `routed` is the routing record of an organization-subscription
invoice, `verified` the applied receipt of a paid request and a paid invoice. -/
structure Db where
  prices : Uuid → Option Price
  routed : Uuid → Option (Uuid × Uuid)
  verified : Uuid → Uuid → Uuid → Bool
  subscriptions : Uuid → Option SubscriptionRow
  settlements : List Settlement

structure SettlementParams where
  organizationId : Uuid
  productId : Uuid
  priceId : Uuid
  settledAt : Int
  invoiceId : Uuid
  paymentRequestId : Uuid
  receiptId : Uuid

structure WriteResult where
  subscription : SubscriptionRow
  changed : Bool

def Db.put (db : Db) (row : SubscriptionRow) : Db :=
  { db with subscriptions := Function.update db.subscriptions row.organizationId (some row) }

def pendingRow (organizationId productId priceId : Uuid) : SubscriptionRow where
  organizationId := organizationId
  productId := productId
  priceId := priceId
  status := .pending
  currentPeriodStart := none
  currentPeriodEnd := none
  graceUntil := none
  cancelAtPeriodEnd := false
  effectiveTerminationAt := none
  billingAnchorAt := none
  revision := 0

/-- `createTx`. The insert guard reads the price before the conflict on the organization is looked at. -/
def createTx (db : Db) (organizationId productId priceId : Uuid) : Except Failure (Db × WriteResult) :=
  let price := db.prices priceId
  if price.any fun p => p.interval = none then .error (.refused "a subscription must reference a recurring price")
  else if price.any Price.retired then .error (.refused "a subscription cannot be created against a retired price")
  else
    match db.subscriptions organizationId with
    | some existing =>
      if existing.productId ≠ productId ∨ existing.priceId ≠ priceId then .error (.billing 409 "subscription_conflict")
      else .ok (db, ⟨existing, false⟩)
    | none =>
      if price.map Price.productId ≠ some productId then .error (.refused "subscription_price_product_fk")
      else
        let row := pendingRow organizationId productId priceId
        .ok (db.put row, ⟨row, true⟩)

def lock (db : Db) (organizationId : Uuid) : Except Failure SubscriptionRow :=
  match db.subscriptions organizationId with
  | some row => .ok row
  | none => .error .notFound

def rollPeriod (db : Db) (row : SubscriptionRow) (anchor : Int) (resetBillingAnchor : Bool) :
    Except Failure (Db × WriteResult) := do
  let price := db.prices row.priceId
  match price.bind Price.interval with
  | none => .error (.refused "subscription_active_has_period")
  | some (unit, count) =>
    let billingAnchorAt := if unit.calendar then (if resetBillingAnchor then some anchor else row.billingAnchorAt) else none
    let newEnd := billing_subscription_period_end anchor billingAnchorAt unit count
    let updated ← guardedUpdate price row { row with
      status := .active
      currentPeriodStart := some anchor
      currentPeriodEnd := newEnd
      billingAnchorAt := billingAnchorAt
      graceUntil := newEnd.map (· + DAY_MS) }
    .ok (db.put updated, ⟨updated, true⟩)

/-- The insert of a `subscription_settlement`: `none` when its invoice or receipt is already settled. -/
def insertSettlement (db : Db) (p : SettlementParams) : Except Failure (Option Db) :=
  if db.verified p.receiptId p.paymentRequestId p.invoiceId = false then .error (.refused "subscription_settlement_verified")
  else if db.settlements.any fun s => s.invoiceId = p.invoiceId ∨ s.receiptId = p.receiptId then .ok none
  else if db.routed p.invoiceId ≠ some (p.organizationId, p.productId) then
    .error (.refused "subscription_settlement_routing_fk")
  else .ok (some { db with settlements := db.settlements ++
    [⟨p.invoiceId, p.organizationId, p.productId, p.paymentRequestId, p.receiptId, p.settledAt⟩] })

def applySettlement (db : Db) (p : SettlementParams) : Except Failure (Db × WriteResult) := do
  let (db, _) ← createTx db p.organizationId p.productId p.priceId
  let row ← lock db p.organizationId
  match ← insertSettlement db p with
  | none => .ok (db, ⟨row, false⟩)
  | some db =>
    match row.status, row.currentPeriodEnd with
    | .pending, _ => rollPeriod db row p.settledAt true
    | _, some currentPeriodEnd =>
      let basis : RenewalBasis := ⟨currentPeriodEnd, row.graceUntil⟩
      rollPeriod db row (renewalAnchor basis p.settledAt) (isLateRenewal basis p.settledAt)
    | _, none => .error (.refused "subscription_active_has_period")

def create (db : Db) (organizationId productId priceId : Uuid) : Except Failure (Db × WriteResult) :=
  createTx db organizationId productId priceId

def update (db : Db) (row new : SubscriptionRow) : Except Failure (Db × WriteResult) := do
  let updated ← guardedUpdate (db.prices row.priceId) row new
  .ok (db.put updated, ⟨updated, true⟩)

def enterGrace (db : Db) (organizationId : Uuid) : Except Failure (Db × WriteResult) := do
  let row ← lock db organizationId
  if row.status ≠ .active then .error (.billing 409 "invalid_subscription_transition")
  else if row.graceUntil = none then .error (.billing 409 "subscription_grace_unavailable")
  else update db row { row with status := .grace }

def expire (db : Db) (organizationId : Uuid) : Except Failure (Db × WriteResult) := do
  let row ← lock db organizationId
  if row.status ≠ .active ∧ row.status ≠ .grace then .error (.billing 409 "invalid_subscription_transition")
  else update db row { row with status := .expired }

def setCancellation (db : Db) (organizationId : Uuid) (cancelAtPeriodEnd : Bool) : Except Failure (Db × WriteResult) := do
  let row ← lock db organizationId
  if row.status ≠ .active then .error (.billing 409 "invalid_subscription_transition")
  else if row.cancelAtPeriodEnd = cancelAtPeriodEnd then .ok (db, ⟨row, false⟩)
  else update db row { row with cancelAtPeriodEnd := cancelAtPeriodEnd, status := .active }

/-- `now` is the database's own clock. -/
def terminate (db : Db) (organizationId : Uuid) (now : Int) : Except Failure (Db × WriteResult) := do
  let row ← lock db organizationId
  if row.status ≠ .active ∧ row.status ≠ .grace then .error (.billing 409 "invalid_subscription_transition")
  else update db row { row with status := .expired, effectiveTerminationAt := some now }

inductive Op
  | create (organizationId productId priceId : Uuid)
  | applySettlement (p : SettlementParams)
  | enterGrace (organizationId : Uuid)
  | expire (organizationId : Uuid)
  | setCancellation (organizationId : Uuid) (cancelAtPeriodEnd : Bool)
  | terminate (organizationId : Uuid) (now : Int)

def Op.run (db : Db) : Op → Except Failure (Db × WriteResult)
  | .create o p r => Subscriptions.create db o p r
  | .applySettlement p => Subscriptions.applySettlement db p
  | .enterGrace o => Subscriptions.enterGrace db o
  | .expire o => Subscriptions.expire db o
  | .setCancellation o c => Subscriptions.setCancellation db o c
  | .terminate o n => Subscriptions.terminate db o n

/-- A committed operation, or another part of Billing recording prices, routing or verified receipts. -/
inductive Step : Db → Db → Prop
  | op {db db' : Db} (o : Op) (r : WriteResult) (h : o.run db = .ok (db', r)) : Step db db'
  | record {db : Db} (prices : Uuid → Option Price) (routed : Uuid → Option (Uuid × Uuid))
      (verified : Uuid → Uuid → Uuid → Bool) (hp : ∀ i p, db.prices i = some p → ∃ q, prices i = some q ∧
        q.productId = p.productId ∧ q.interval = p.interval) :
      Step db { db with prices := prices, routed := routed, verified := verified }

def Init (db : Db) : Prop := (∀ o, db.subscriptions o = none) ∧ db.settlements = []

end NawaraCore.Subscriptions
