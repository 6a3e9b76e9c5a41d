import NawaraCore.Lib.Rows
import NawaraCore.Lib.Runs

/-!
# Chargeback losses

The verified losses of disputes and what Billing makes of them: the place of a loss in its
capture's cumulative loss, the reversal of a direct purchase, the recovery obligation of an
assisted one, the direct write-off, and the refunds that hold them back (migrations 0037,
0039, 0042, 0045, 0049 and 0050).
-/

namespace NawaraCore.Losses

abbrev Uuid := Nat

/-! ## Rows -/

structure PaymentRequest where
  id : Uuid
  paymentId : Option Uuid
  amount : Nat
  currency : String
  sellerId : Option Uuid
deriving DecidableEq

structure PaymentLateSuccess where
  lateSuccessId : Uuid
  paymentId : Uuid
  paymentRequestId : Uuid
  factId : Option Uuid
  amount : Nat
  currency : String

inductive Purpose
  | direct_purchase | assisted_settlement
deriving DecidableEq

structure Purchase where
  id : Uuid
  purpose : Purpose
  paymentRequestId : Uuid
  lateSuccessId : Option Uuid
  assistanceRequestId : Option Uuid

structure AssistanceRequest where
  organizationId : Uuid
  platformId : Uuid
  baseAmount : Nat
  currency : String

/-- `captureBasis` and `captureFactId` of a loss: a late capture always names its fact. -/
inductive Capture
  | settling_capture (factId : Option Uuid)
  | late_capture (factId : Uuid)
deriving DecidableEq

def Capture.settling : Capture → Bool
  | .settling_capture _ => true
  | .late_capture _ => false

structure DisputeLoss where
  disputeId : Uuid
  paymentId : Uuid
  paymentRequestId : Uuid
  currency : String
  chargebackFactId : Uuid
  chargebackAmount : Nat
  chargebackCurrency : String
  capture : Capture
  beforeS0c10 : Bool
deriving DecidableEq

inductive CaptureKey
  | settling (paymentId : Uuid)
  | late (factId : Uuid)
deriving DecidableEq

structure CaptureLossCap where
  disputeId : Uuid
  captureKey : CaptureKey
  beforeS0c10 : Bool
  gross : Nat
  currency : String
  chargebackAmount : Nat
  sameCurrency : Bool
  cumulativeBefore : Option Nat
  withinCap : Bool
  firstFull : Bool
deriving DecidableEq

inductive EffectReason
  | assisted_purchase_preserved | already_reversed | not_a_personal_purchase | late_capture_unsold
deriving DecidableEq

/-- `outcome` and `reason` of an effect. -/
inductive EffectOutcome
  | reversed_purchase
  | none (reason : EffectReason)
deriving DecidableEq

def EffectOutcome.namesPurchase : EffectOutcome → Bool
  | .none .not_a_personal_purchase | .none .late_capture_unsold => false
  | _ => true

structure DisputeLossEffect where
  disputeId : Uuid
  outcome : EffectOutcome
  purchaseId : Option Uuid

inductive ReversalCause
  | refund_completion | final_lost_chargeback
deriving DecidableEq

structure PurchaseReversal where
  purchaseId : Uuid
  cause : ReversalCause
deriving DecidableEq

structure ChargebackCause where
  purchaseId : Uuid
  disputeId : Uuid
deriving DecidableEq

inductive RefundCaptureBasis
  | late_capture | duplicate_capture | unrouted_capture
deriving DecidableEq

inductive RefundCaseStatus
  | open | completed | cancelled
deriving DecidableEq

/-- `capture` is `captureBasis` and `captureFactId`: both or neither. -/
structure RefundCase where
  id : Uuid
  paymentId : Uuid
  paymentRequestId : Uuid
  capture : Option (RefundCaptureBasis × Uuid)
  status : RefundCaseStatus
deriving DecidableEq

inductive AttemptStatus
  | authorization_pending | authorized | dispatching | submitted | unknown | discrepancy | succeeded | failed
  | authorization_expired | authorization_refused
deriving DecidableEq

structure Relay where
  id : Uuid
  refundCaseId : Uuid
  paymentId : Uuid
  attemptStatus : Option AttemptStatus
deriving DecidableEq

structure RecoveryObligation where
  disputeId : Uuid
  assistanceRequestId : Uuid
  purchaseId : Uuid
  organizationId : Uuid
  companyId : Uuid
  platformId : Uuid
  baseAmount : Nat
  currency : String
deriving DecidableEq

inductive ReviewReason
  | partial_chargeback | refund_completed | repeated_loss | chargeback_exceeds_capture
deriving DecidableEq

structure RecoveryReview where
  disputeId : Uuid
  reason : ReviewReason
deriving DecidableEq

structure WriteOff where
  evidenceKey : Uuid
  companyId : Uuid
  paymentId : Uuid
  disputeId : Uuid
  amount : Nat
  currency : String

inductive AttemptState
  | retry | review | held
deriving DecidableEq

structure Db where
  requests : List PaymentRequest
  lateSuccesses : List PaymentLateSuccess
  purchases : List Purchase
  assistance_request : Uuid → Option AssistanceRequest
  billing_platform : Uuid → Option Uuid
  losses : List DisputeLoss
  caps : List CaptureLossCap
  effects : List DisputeLossEffect
  attempts : Uuid → Option AttemptState
  reversals : List PurchaseReversal
  causes : List ChargebackCause
  refundCases : List RefundCase
  relays : List Relay
  recoveryPayments : List Uuid
  obligations : List RecoveryObligation
  reviews : List RecoveryReview
  writeOffs : List WriteOff
  /-- The disputes with a `chargeback_refund_overlap` case. -/
  overlapCases : List Uuid

inductive Failure
  | refused (constraint : String)
  | error (message : String)
deriving DecidableEq

def MAX_SAFE_INTEGER : Nat := 9007199254740991

def Db.loss? (db : Db) (disputeId : Uuid) : Option DisputeLoss := db.losses.find? fun l => l.disputeId = disputeId

def Db.request? (db : Db) (id : Uuid) : Option PaymentRequest := db.requests.find? fun r => r.id = id

def Db.purchase? (db : Db) (id : Uuid) : Option Purchase := db.purchases.find? fun p => p.id = id

def Db.cap? (db : Db) (disputeId : Uuid) : Option CaptureLossCap := db.caps.find? fun c => c.disputeId = disputeId

def Db.lateSuccessOf (db : Db) (factId : Uuid) : Option PaymentLateSuccess :=
  db.lateSuccesses.find? fun s => s.factId = some factId

def Db.reversal? (db : Db) (purchaseId : Uuid) : Option PurchaseReversal :=
  db.reversals.find? fun v => v.purchaseId = purchaseId

def DisputeLoss.key (l : DisputeLoss) : CaptureKey :=
  match l.capture with
  | .settling_capture _ => .settling l.paymentId
  | .late_capture factId => .late factId

def Capture.refundedBy : Capture → Option (RefundCaptureBasis × Uuid) → Bool
  | .late_capture factId, c => c.any fun c => c.2 = factId
  | .settling_capture factId, c =>
    c.isNone ∨ (c.any fun c => some c.2 = factId) ∨ (c.any fun c => c.1 = .unrouted_capture)

def onLossMovement (r : RefundCase) (l : DisputeLoss) : Bool :=
  r.paymentId = l.paymentId ∧ l.capture.refundedBy r.capture

def AttemptStatus.live : AttemptStatus → Bool
  | .authorization_pending | .authorized | .dispatching | .submitted | .unknown | .discrepancy => true
  | .succeeded | .failed | .authorization_expired | .authorization_refused => false

def Db.refundLive (db : Db) (l : DisputeLoss) : Bool :=
  db.relays.any fun x => db.refundCases.any fun r => r.id = x.refundCaseId ∧ onLossMovement r l ∧
    (x.attemptStatus = none ∨ x.attemptStatus.any AttemptStatus.live ∨
      (x.attemptStatus = some .succeeded ∧ r.status ≠ .completed))

def Db.overlap (db : Db) (l : DisputeLoss) : Bool :=
  db.refundCases.any fun r => r.status = .completed ∧ onLossMovement r l

def Db.requestRefunded (db : Db) (paymentRequestId : Uuid) : Bool :=
  db.refundCases.any fun c => c.paymentRequestId = paymentRequestId ∧ c.status = .completed

def Db.paymentRefunded (db : Db) (paymentId : Uuid) : Bool :=
  db.refundCases.any fun c => c.paymentId = paymentId ∧ c.status = .completed

def Db.purchaseOfCapture (db : Db) (l : DisputeLoss) (s : Purchase) : Bool :=
  match l.capture with
  | .settling_capture _ => s.paymentRequestId = l.paymentRequestId ∧ s.lateSuccessId = none
  | .late_capture factId =>
    s.paymentRequestId = l.paymentRequestId ∧ db.lateSuccesses.any fun x => x.factId = some factId ∧
      x.paymentRequestId = l.paymentRequestId ∧ s.lateSuccessId = some x.lateSuccessId

/-! ## The capture's cumulative loss -/

def Db.captured (db : Db) (l : DisputeLoss) : Option (Nat × String) :=
  match l.capture with
  | .late_capture factId =>
    (db.lateSuccesses.find? fun s => s.factId = some factId ∧ s.paymentId = l.paymentId ∧
      s.paymentRequestId = l.paymentRequestId).map fun s => (s.amount, s.currency)
  | .settling_capture _ =>
    (db.requests.find? fun r => r.id = l.paymentRequestId ∧ r.paymentId = some l.paymentId).map fun r => (r.amount, r.currency)

def historical (losses : List DisputeLoss) (key : CaptureKey) (currency : String) : List DisputeLoss :=
  losses.filter fun h => h.beforeS0c10 ∧ h.currency = currency ∧ h.chargebackCurrency = currency ∧ h.key = key

def placed (caps : List CaptureLossCap) (key : CaptureKey) : List CaptureLossCap :=
  caps.filter fun c => c.captureKey = key ∧ ¬ c.beforeS0c10 ∧ c.sameCurrency

def Db.derive (db : Db) (l : DisputeLoss) : Except Failure CaptureLossCap :=
  match db.captured l with
  | none => .error (.refused "capture_loss_cap_capture")
  | some (g, cur) =>
    let hist := historical db.losses l.key cur
    let hist_sum := (hist.map DisputeLoss.chargebackAmount).sum
    let sameCurrency : Bool := l.currency = cur ∧ l.chargebackCurrency = cur
    let (cumulativeBefore, withinCap) : Option Nat × Bool :=
      if ¬ sameCurrency then (none, false)
      else if l.beforeS0c10 then
        if hist.length = 1 then (some 0, l.chargebackAmount ≤ g)
        -- several historical losses: their order cannot be proven
        else (none, hist_sum ≤ g)
      else
        let led_sum := ((placed db.caps l.key).map CaptureLossCap.chargebackAmount).sum
        (some (hist_sum + led_sum), hist_sum + led_sum + l.chargebackAmount ≤ g)
    let firstFull := sameCurrency && withinCap && decide (cumulativeBefore = some 0) && decide (l.chargebackAmount = g)
    if g = 0 then .error (.refused "capture_loss_cap_amounts")
    else .ok ⟨l.disputeId, l.key, l.beforeS0c10, g, cur, l.chargebackAmount, sameCurrency, cumulativeBefore, withinCap, firstFull⟩

/-- `recordCaptureLoss`: a loss that is already placed, and one whose capture is not recorded, changes nothing. -/
def recordCaptureLoss (db : Db) (disputeId : Uuid) : Except Failure Db :=
  match db.loss? disputeId with
  | none => .error (.refused "capture_loss_cap_loss")
  | some l =>
    match db.derive l with
    | .error (.refused "capture_loss_cap_capture") => .ok db
    | .error e => .error e
    | .ok c =>
      if db.caps.any fun x => x.disputeId = disputeId then .ok db else .ok { db with caps := db.caps ++ [c] }

def Db.captureOfAnother (db : Db) (l : DisputeLoss) : Bool :=
  match l.capture with
  | .settling_capture _ => false
  | .late_capture factId => (db.lateSuccessOf factId).any fun s =>
      s.paymentId ≠ l.paymentId ∨ s.paymentRequestId ≠ l.paymentRequestId

def Db.insertLoss (db : Db) (l : DisputeLoss) : Except Failure Db :=
  if ¬ db.requests.any fun r => r.id = l.paymentRequestId ∧ r.paymentId = some l.paymentId then
    .error (.refused "payment_dispute_loss_payment")
  else if db.captureOfAnother l then .error (.refused "payment_dispute_loss_capture_binding")
  else if l.chargebackAmount = 0 ∨ MAX_SAFE_INTEGER < l.chargebackAmount then .error (.refused "payment_dispute_loss_amounts")
  else if db.losses.any fun x => x.disputeId = l.disputeId ∨ x.chargebackFactId = l.chargebackFactId then
    .error (.refused "payment_dispute_loss_pkey")
  else .ok { db with losses := db.losses ++ [{ l with beforeS0c10 := false }] }

/-! ## Guarded inserts of the effects -/

def Db.effectPurchase (db : Db) (l : DisputeLoss) (e : DisputeLossEffect) : Bool :=
  match e.purchaseId, e.outcome, l.capture with
  | some p, _, _ => (db.purchase? p).any fun s => db.purchaseOfCapture l s
  | none, .none .late_capture_unsold, .late_capture factId =>
    (db.lateSuccessOf factId).any fun ls => ls.paymentRequestId = l.paymentRequestId ∧
      ¬ db.purchases.any fun p => p.lateSuccessId = some ls.lateSuccessId
  | none, .none .late_capture_unsold, .settling_capture _ => false
  | none, _, .late_capture _ => false
  | none, _, .settling_capture _ => ¬ db.purchases.any fun p => p.paymentRequestId = l.paymentRequestId

def Db.reversedBy (db : Db) (e : DisputeLossEffect) (purchase : Option Purchase) (p : ReversalCause → Bool) : Bool :=
  purchase.any fun s => s.purpose = .direct_purchase ∧ (db.reversals.any fun v => v.purchaseId = s.id ∧ p v.cause) ∧
    db.causes.any fun k => k.purchaseId = s.id ∧ k.disputeId = e.disputeId

def Db.effectReversal (db : Db) (e : DisputeLossEffect) : Bool :=
  let purchase := e.purchaseId.bind db.purchase?
  match e.outcome with
  | .reversed_purchase => db.reversedBy e purchase (· = .final_lost_chargeback)
  | .none .already_reversed => db.reversedBy e purchase (· ≠ .final_lost_chargeback)
  | .none .assisted_purchase_preserved =>
    purchase.any fun s => s.purpose = .assisted_settlement ∧
      ¬ db.reversals.any fun v => v.purchaseId = s.id ∧ v.cause = .final_lost_chargeback
  | .none _ => true

def Db.insertEffect (db : Db) (l : DisputeLoss) (e : DisputeLossEffect) : Except Failure Db :=
  if e.outcome.namesPurchase ≠ e.purchaseId.isSome then .error (.refused "dispute_loss_effect_shape")
  else if ¬ db.effectPurchase l e then .error (.refused "dispute_loss_effect_purchase")
  else if ¬ db.effectReversal e then .error (.refused "dispute_loss_effect_reversal")
  else if db.effects.any fun x => x.disputeId = e.disputeId then .error (.refused "dispute_loss_effect_pkey")
  else .ok { db with effects := db.effects ++ [e] }

def Db.insertCause (db : Db) (l : DisputeLoss) (k : ChargebackCause) : Except Failure Db :=
  match db.purchase? k.purchaseId with
  | none => .error (.refused "subscription_purchase_reversal_cause_dispute")
  | some s =>
    if s.purpose ≠ .direct_purchase ∨ ¬ db.purchaseOfCapture l s then
      .error (.refused "subscription_purchase_reversal_cause_dispute")
    else if db.causes.any (· = k) then .error (.refused "subscription_purchase_reversal_cause_once")
    else .ok { db with causes := db.causes ++ [k] }

def Db.insertReversal (db : Db) (v : PurchaseReversal) : Except Failure Db :=
  if db.reversals.any fun x => x.purchaseId = v.purchaseId then .error (.refused "subscription_purchase_reversal_pkey")
  else .ok { db with reversals := db.reversals ++ [v] }

def Db.insertObligation (db : Db) (o : RecoveryObligation) : Except Failure Db :=
  match db.loss? o.disputeId with
  | none => .error (.refused "recovery_obligation_basis")
  | some l =>
    match db.request? l.paymentRequestId, db.purchase? o.purchaseId, db.assistance_request o.assistanceRequestId with
    | some pr, some s, some a =>
      if s.paymentRequestId ≠ l.paymentRequestId ∨ s.purpose ≠ .assisted_settlement ∨
          s.assistanceRequestId ≠ some o.assistanceRequestId ∨ a.organizationId ≠ o.organizationId ∨
          a.platformId ≠ o.platformId ∨ db.billing_platform a.platformId ≠ some o.companyId then
        .error (.refused "recovery_obligation_basis")
      else if l.chargebackAmount ≠ pr.amount ∨ l.chargebackCurrency ≠ pr.currency ∨ l.currency ≠ pr.currency then
        .error (.refused "recovery_obligation_full_loss")
      else if db.requestRefunded pr.id then .error (.refused "recovery_obligation_refunded")
      else if o.baseAmount ≠ a.baseAmount ∨ o.currency ≠ a.currency then .error (.refused "recovery_obligation_base")
      else if ¬ db.purchaseOfCapture l s then .error (.refused "recovery_obligation_basis")
      else if ¬ db.caps.any fun c => c.disputeId = o.disputeId ∧ c.firstFull then
        .error (.refused "recovery_obligation_loss_cap")
      else if db.refundLive l ∨ db.overlap l then .error (.refused "recovery_obligation_refund_live")
      else if o.baseAmount = 0 ∨ MAX_SAFE_INTEGER < o.baseAmount then .error (.refused "recovery_obligation_amount")
      else if db.obligations.any fun x => x.disputeId = o.disputeId then .error (.refused "recovery_obligation_disputeId_key")
      else if db.obligations.any fun x => x.purchaseId = o.purchaseId then .error (.refused "recovery_obligation_purchase")
      else .ok { db with obligations := db.obligations ++ [o] }
    | _, _, _ => .error (.refused "recovery_obligation_basis")

def Db.samePurchase (db : Db) (disputeId other : Uuid) : Bool :=
  disputeId ≠ other ∧ db.effects.any fun e => e.disputeId = disputeId ∧ e.purchaseId.isSome ∧
    db.effects.any fun x => x.disputeId = other ∧ x.purchaseId = e.purchaseId

def Db.insertReview (db : Db) (r : RecoveryReview) : Except Failure Db :=
  let otherObligation := db.effects.any fun e => e.disputeId = r.disputeId ∧
    db.obligations.any fun o => some o.purchaseId = e.purchaseId ∧ o.disputeId ≠ r.disputeId
  let otherFirst := db.caps.any fun c => c.firstFull ∧ db.samePurchase r.disputeId c.disputeId
  if r.reason = .repeated_loss ∧ ¬ otherObligation ∧ ¬ otherFirst then .error (.refused "recovery_review_evidence")
  else if r.reason = .chargeback_exceeds_capture ∧
      ¬ db.caps.any fun c => c.disputeId = r.disputeId ∧ ¬ c.firstFull ∧ ¬ (c.withinCap ∧ c.chargebackAmount < c.gross) then
    .error (.refused "recovery_review_evidence")
  else if db.reviews.any fun x => x.disputeId = r.disputeId then .error (.refused "recovery_review_pkey")
  else .ok { db with reviews := db.reviews ++ [r] }

def Db.insertWriteOff (db : Db) (f : WriteOff) : Except Failure Db :=
  match db.loss? f.disputeId with
  | none => .error (.refused "financial_loss_evidence")
  | some l =>
    match db.request? l.paymentRequestId with
    | none => .error (.refused "financial_loss_evidence")
    | some pr =>
      if l.chargebackFactId ≠ f.evidenceKey ∨ l.paymentId ≠ f.paymentId ∨ l.chargebackAmount ≠ pr.amount ∨
          l.chargebackCurrency ≠ pr.currency ∨ f.amount ≠ l.chargebackAmount ∨ f.currency ≠ pr.currency ∨
          pr.sellerId ≠ some f.companyId ∨
          ¬ (db.purchases.any fun s => s.paymentRequestId = pr.id ∧ s.purpose = .direct_purchase) ∨
          db.paymentRefunded l.paymentId then .error (.refused "financial_loss_evidence")
      else if ¬ l.capture.settling then .error (.refused "financial_loss_evidence")
      else if ¬ db.effects.any fun e => e.disputeId = f.disputeId ∧ e.outcome = .reversed_purchase then
        .error (.refused "financial_loss_reversal")
      else if db.refundLive l ∨ db.overlap l then .error (.refused "financial_loss_refund_live")
      else if db.writeOffs.any fun x => x.evidenceKey = f.evidenceKey ∨ x.paymentId = f.paymentId then .ok db
      else .ok { db with writeOffs := db.writeOffs ++ [f] }

end NawaraCore.Losses
