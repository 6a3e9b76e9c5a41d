import NawaraCore.Loss.ChargebackLoss

/-!
# The workers of the chargeback losses

`DisputeLossService.apply` decides the effect of a loss, `RecoveryService.visit` opens the
obligation of an assisted one and the reconciliation pass writes a direct one off. The last
two read first and decide in a later transaction, on Payment's refunds read in between.
-/

namespace NawaraCore.Losses

/-! ## The dispute loss worker -/

inductive Stop
  | review (reason : String)
  | held (reason : String)
  | failed (e : Failure)

def orFailed {α : Type} : Except Failure α → Except Stop α
  | .ok a => .ok a
  | .error e => .error (.failed e)

def captureLossOf (db : Db) (disputeId : Uuid) : Except Failure CaptureLossCap :=
  match db.cap? disputeId with
  | none => .error (.error "capture_loss_cap_missing")
  | some c => .ok c

def recordEffect (db : Db) (l : DisputeLoss) (outcome : EffectOutcome) (purchaseId : Option Uuid) : Except Stop Db :=
  orFailed (db.insertEffect l ⟨l.disputeId, outcome, purchaseId⟩)

def applyLateCapture (db : Db) (l : DisputeLoss) (factId : Uuid) (pr : PaymentRequest) : Except Stop Db :=
  match db.lateSuccessOf factId with
  | none => .error (.held "late_success_not_recorded")
  | some ls =>
    if ls.paymentId ≠ l.paymentId ∨ ls.paymentRequestId ≠ pr.id then .error (.review "capture_mismatch")
    else if l.currency ≠ ls.currency ∨ l.chargebackCurrency ≠ ls.currency then .error (.review "currency_mismatch")
    else
      match db.purchases.find? fun p => p.lateSuccessId = some ls.lateSuccessId with
      | some p =>
        if p.purpose = .assisted_settlement then recordEffect db l (.none .assisted_purchase_preserved) (some p.id)
        else if l.chargebackAmount > ls.amount then .error (.review "chargeback_exceeds_capture")
        else .error (.review "purchase_mismatch")
      | none =>
        if l.chargebackAmount > ls.amount then .error (.review "chargeback_exceeds_capture")
        else if ls.lateSuccessId ∈ db.recoveryPayments then .error (.review "recovery_payment_capture")
        else recordEffect db l (.none .late_capture_unsold) none

/-- The direct purchase of a settling capture: only the capture's first full loss reverses it. -/
def applyDirect (db : Db) (l : DisputeLoss) (pr : PaymentRequest) (p : Purchase) : Except Stop Db :=
  if l.chargebackAmount > pr.amount then .error (.review "chargeback_exceeds_payment")
  else
    let full := l.chargebackAmount = pr.amount
    let prior := if full then db.reversal? p.id else none
    if prior.any fun v => v.cause = .final_lost_chargeback then .error (.review "reversed_by_another_chargeback")
    else do
      let cap ← orFailed (captureLossOf db l.disputeId)
      if ¬ cap.withinCap ∨ (full ∧ ¬ cap.firstFull) then .error (.review "chargeback_exceeds_capture")
      else if ¬ full then .error (.review "partial_chargeback_threshold_open")
      else do
        let db ← orFailed (db.insertCause l ⟨p.id, l.disputeId⟩)
        if prior.isSome then recordEffect db l (.none .already_reversed) (some p.id)
        else do
          let db ← orFailed (db.insertReversal ⟨p.id, .final_lost_chargeback⟩)
          recordEffect db l .reversed_purchase (some p.id)

def applyLoss (db : Db) (disputeId : Uuid) : Except Stop Db :=
  match db.loss? disputeId with
  | none => .error (.review "loss_missing")
  | some l =>
    if db.effects.any fun e => e.disputeId = disputeId then .ok db
    else
      match db.request? l.paymentRequestId with
      | none => .error (.review "payment_mismatch")
      | some pr =>
        if pr.paymentId ≠ some l.paymentId then .error (.review "payment_mismatch")
        else
          match l.capture with
          | .late_capture factId => applyLateCapture db l factId pr
          | .settling_capture _ =>
            match db.purchases.find? fun p => p.paymentRequestId = pr.id ∧ p.lateSuccessId = none with
            | none =>
              if db.purchases.any fun p => p.paymentRequestId = pr.id then .error (.review "capture_mismatch")
              else recordEffect db l (.none .not_a_personal_purchase) none
            | some p =>
              if l.currency ≠ pr.currency ∨ l.chargebackCurrency ≠ pr.currency then .error (.review "currency_mismatch")
              else
                match p.purpose with
                | .assisted_settlement => recordEffect db l (.none .assisted_purchase_preserved) (some p.id)
                | .direct_purchase => applyDirect db l pr p

def Db.note (db : Db) (disputeId : Uuid) (state : AttemptState) : Db :=
  { db with attempts := Function.update db.attempts disputeId (some state) }

/-- `apply`: a historical loss in review keeps its review; a stop is noted. -/
def apply (db : Db) (disputeId : Uuid) : Db :=
  if db.attempts disputeId = some .review ∧ db.losses.any (fun l => l.disputeId = disputeId ∧ l.beforeS0c10) then
    db.note disputeId .review
  else
    match applyLoss db disputeId with
    | .ok db => db
    | .error (.review _) => db.note disputeId .review
    | .error (.held _) => db.note disputeId .held
    | .error (.failed _) => db.note disputeId .retry

/-! ## Payment's refunds -/

structure RefundAuthorization where
  refundAttemptId : Option Uuid
  allocations : Nat
  completed : Bool

structure PaymentRefunds where
  attempts : List (Uuid × AttemptStatus)
  authorizations : List RefundAuthorization
  /-- The attempts of the facts not allocated yet; `none` when the answer does not carry them. -/
  unallocatedFacts : Option (List (Option Uuid))

inductive RefundEvidenceReason
  | relay_live | payment_unavailable | payment_not_found | unallocated_facts_unknown | attempt_unknown_to_billing
  | attempt_live | refund_evidence
deriving DecidableEq

inductive RefundEvidenceVerdict
  | clean
  | unclean (reason : RefundEvidenceReason)
deriving DecidableEq

def AttemptStatus.dead : AttemptStatus → Bool
  | .authorization_expired | .authorization_refused | .failed => true
  | _ => false

def firstReason {α : Type} (reason : α → Option RefundEvidenceReason) (items : List α) : Option RefundEvidenceReason :=
  items.findSome? reason

/-- What one item of the answer says: the movement of its attempt, unknown to Billing or not, and its evidence. -/
def itemReason (onMovement : Option Uuid → Option Bool) (attemptId : Option Uuid) (evidence : Bool)
    (reason : RefundEvidenceReason) : Option RefundEvidenceReason :=
  match onMovement attemptId with
  | none => some .attempt_unknown_to_billing
  | some true => if evidence then some reason else none
  | some false => none

/-- `relays` says of each relay of the payment whether it is on the movement. -/
def judgeRefundEvidence (read : Option PaymentRefunds) (relays : List (Uuid × Bool)) : RefundEvidenceVerdict :=
  match read with
  | none => .unclean .payment_not_found
  | some read =>
    match read.unallocatedFacts with
    | none => .unclean .unallocated_facts_unknown
    | some facts =>
      let onMovement (attemptId : Option Uuid) : Option Bool :=
        attemptId.bind fun a => (relays.find? fun r => r.1 = a).map Prod.snd
      match firstReason (fun a => itemReason onMovement (some a.1) (¬ a.2.dead) .attempt_live) read.attempts with
      | some r => .unclean r
      | none =>
        match firstReason (fun z => itemReason onMovement z.refundAttemptId (0 < z.allocations ∨ z.completed) .refund_evidence)
            read.authorizations with
        | some r => .unclean r
        | none =>
          match firstReason (fun f => itemReason onMovement f true .refund_evidence) facts with
          | some r => .unclean r
          | none => .clean

/-- What Payment answers; `unavailable` is a failed or unreadable call. -/
inductive Answer
  | unavailable
  | answer (read : Option PaymentRefunds)

/-- The relays of a payment, and whether their refund cases are on the movement of a loss. -/
def Db.relaysOf (db : Db) (l : DisputeLoss) : List (Uuid × Bool) :=
  (db.relays.filter fun x => x.paymentId = l.paymentId).map fun x =>
    (x.id, db.refundCases.any fun r => r.id = x.refundCaseId ∧ onLossMovement r l)

def check (db : Db) (disputeId : Uuid) (payment : Answer) : RefundEvidenceVerdict :=
  match db.loss? disputeId with
  | none => .unclean .payment_not_found
  | some l =>
    if db.refundLive l then .unclean .relay_live
    else
      match payment with
      | .unavailable => .unclean .payment_unavailable
      | .answer read => judgeRefundEvidence read (db.relaysOf l)

/-! ## The recovery worker -/

structure VisitFacts where
  disputeId : Uuid
  purchaseId : Uuid
  assistanceRequestId : Uuid
  organizationId : Uuid
  platformId : Uuid
  companyId : Option Uuid
  baseAmount : Nat
  currency : String
  refunded : Bool
deriving DecidableEq

def visitFacts (db : Db) (disputeId : Uuid) : Option VisitFacts := do
  let l ← db.loss? disputeId
  let e ← db.effects.find? fun e => e.disputeId = disputeId ∧ e.outcome = .none .assisted_purchase_preserved
  let purchaseId ← e.purchaseId
  let s ← db.purchase? purchaseId
  let assistanceRequestId ← s.assistanceRequestId
  let a ← db.assistance_request assistanceRequestId
  let pr ← db.request? l.paymentRequestId
  some ⟨disputeId, purchaseId, assistanceRequestId, a.organizationId, a.platformId, db.billing_platform a.platformId,
    a.baseAmount, a.currency, db.requestRefunded pr.id⟩

inductive VisitOutcome
  | opened | review | waiting | already
deriving DecidableEq

def reviewReason (refunded obligated otherFirst : Bool) (cap : CaptureLossCap) : Option ReviewReason :=
  if refunded then some .refund_completed
  else if obligated then some .repeated_loss
  else if cap.firstFull then none
  else if otherFirst then some .repeated_loss
  else if cap.withinCap ∧ cap.chargebackAmount < cap.gross then some .partial_chargeback
  else some .chargeback_exceeds_capture

def Db.otherFirst (db : Db) (disputeId purchaseId : Uuid) : Bool :=
  db.caps.any fun c => c.firstFull ∧ c.disputeId ≠ disputeId ∧
    db.effects.any fun e => e.disputeId = c.disputeId ∧ e.purchaseId = some purchaseId

/-- The transaction of `decide`; `evidence` is not read for a refunded payment. -/
def decideVisit (db : Db) (f : VisitFacts) (evidence : Option RefundEvidenceVerdict) : Except Failure (Db × VisitOutcome) :=
  if (db.obligations.any fun o => o.disputeId = f.disputeId) ∨ (db.reviews.any fun r => r.disputeId = f.disputeId) then
    .ok (db, .already)
  else
    match captureLossOf db f.disputeId with
    | .error e => .error e
    | .ok cap =>
      let obligated := db.obligations.any fun o => o.purchaseId = f.purchaseId
      match reviewReason f.refunded obligated (db.otherFirst f.disputeId f.purchaseId) cap with
      | some reason => (db.insertReview ⟨f.disputeId, reason⟩).map fun db => (db, .review)
      | none =>
        match f.companyId with
        | none => .error (.error "platform_not_configured")
        | some companyId =>
          if evidence.any fun v => v ≠ .clean then .ok (db, .waiting)
          else
            match db.insertObligation ⟨f.disputeId, f.assistanceRequestId, f.purchaseId, f.organizationId, companyId,
                f.platformId, f.baseAmount, f.currency⟩ with
            | .ok db => .ok (db, .opened)
            | .error (.refused "recovery_obligation_refund_live") => .ok (db, .waiting)
            | .error e => .error e

structure WriteOffFacts where
  disputeId : Uuid
  paymentId : Uuid
  chargebackFactId : Uuid
  amount : Nat
  currency : String
  sellerId : Uuid
  refunded : Bool
deriving DecidableEq

def writeOffFacts (db : Db) (disputeId : Uuid) : Option WriteOffFacts := do
  let l ← db.loss? disputeId
  let r ← db.request? l.paymentRequestId
  let sellerId ← r.sellerId
  if l.chargebackAmount = r.amount ∧ l.chargebackCurrency = r.currency ∧ l.capture.settling ∧
      (db.purchases.any fun s => s.paymentRequestId = r.id ∧ s.purpose = .direct_purchase) ∧
      ¬ (db.writeOffs.any fun f => f.evidenceKey = l.chargebackFactId) ∧ disputeId ∉ db.overlapCases ∧
      (db.paymentRefunded l.paymentId ∨
        ((db.effects.any fun e => e.disputeId = disputeId ∧ e.outcome = .reversed_purchase) ∧
          ¬ db.writeOffs.any fun f => f.paymentId = l.paymentId)) then
    some ⟨disputeId, l.paymentId, l.chargebackFactId, l.chargebackAmount, r.currency, sellerId, db.paymentRefunded l.paymentId⟩
  else none

def recognizeChargebackLoss (db : Db) (f : WriteOffFacts) (evidence : Option RefundEvidenceVerdict) : Except Failure Db :=
  if f.refunded then
    if f.disputeId ∈ db.overlapCases then .ok db else .ok { db with overlapCases := db.overlapCases ++ [f.disputeId] }
  else if evidence.any fun v => v ≠ .clean then .ok db
  else
    match db.insertWriteOff ⟨f.chargebackFactId, f.sellerId, f.paymentId, f.disputeId, f.amount, f.currency⟩ with
    | .error (.refused "financial_loss_refund_live") => .ok db
    | r => r

/-! ## The system -/

structure Sys where
  db : Db
  visits : List VisitFacts
  judged : List (VisitFacts × Option RefundEvidenceVerdict)
  rows : List WriteOffFacts
  judgedRows : List (WriteOffFacts × Option RefundEvidenceVerdict)

inductive Record
  | request (r : PaymentRequest)
  | paymentId (r : PaymentRequest) (paymentId : Uuid)
  | lateSuccess (s : PaymentLateSuccess)
  | purchase (p : Purchase)
  | refundCase (r : RefundCase)
  | refundStatus (r : RefundCase) (status : RefundCaseStatus)
  | relay (x : Relay)
  | relayStatus (x : Relay) (status : AttemptStatus)
  | refundReversal (purchaseId : Uuid)
  | recoveryPayment (lateSuccessId : Uuid)

/-- A late purchase is its late success's, for exactly the total of its request. -/
def Db.purchaseEvidence (db : Db) (p : Purchase) (r : PaymentRequest) : Bool :=
  match p.purpose, p.lateSuccessId with
  | _, none => true
  | .direct_purchase, some _ => false
  | .assisted_settlement, some lateSuccessId =>
    db.lateSuccesses.any fun s => s.lateSuccessId = lateSuccessId ∧ s.paymentRequestId = r.id ∧ s.factId.isSome ∧
      s.amount = r.amount ∧ s.currency = r.currency

def Db.record (db : Db) : Record → Except Failure Db
  | .request r =>
    if db.requests.any fun x => x.id = r.id then .error (.refused "payment_request_pkey")
    else if r.paymentId ≠ none ∨ r.amount = 0 then .error (.refused "a payment request is created with no lifecycle data")
    else .ok { db with requests := db.requests ++ [r] }
  | .paymentId r paymentId =>
    if r ∉ db.requests ∨ r.paymentId ≠ none then .error (.refused "paymentId is set once, when it becomes requested")
    else if db.requests.any fun x => x.paymentId = some paymentId then .error (.refused "payment_request_payment_id_unique")
    else .ok { db with requests := replaceRow PaymentRequest.id { r with paymentId := some paymentId } db.requests }
  | .lateSuccess s =>
    if ¬ db.requests.any fun r => r.id = s.paymentRequestId ∧ r.paymentId = some s.paymentId then
      .error (.refused "payment_late_success_payment")
    else if db.lateSuccesses.any fun x => x.lateSuccessId = s.lateSuccessId ∨ (s.factId ≠ none ∧ x.factId = s.factId) then
      .error (.refused "payment_late_success_unique")
    else if s.amount = 0 ∨ MAX_SAFE_INTEGER < s.amount then .error (.refused "payment_late_success_amount")
    else .ok { db with lateSuccesses := db.lateSuccesses ++ [s] }
  | .purchase p =>
    match db.request? p.paymentRequestId with
    | none => .error (.refused "subscription_purchase_verified")
    | some r =>
      if ¬ db.purchaseEvidence p r then .error (.refused "subscription_purchase_verified")
      else if decide (p.purpose = .assisted_settlement) ≠ p.assistanceRequestId.isSome then
        .error (.refused "subscription_purchase_purpose")
      else if p.assistanceRequestId.any fun i => (db.assistance_request i).isNone then
        .error (.refused "subscription_purchase_assistance_fk")
      else if db.purchases.any fun x => x.id = p.id ∨ x.paymentRequestId = p.paymentRequestId then
        .error (.refused "subscription_purchase_invoice_unique")
      else .ok { db with purchases := db.purchases ++ [p] }
  | .refundCase r =>
    if ¬ db.requests.any fun x => x.id = r.paymentRequestId ∧ x.paymentId = some r.paymentId then
      .error (.refused "refund_case_not_eligible")
    else if r.status ≠ .open then .error (.refused "refund_case_created_open")
    else if db.refundCases.any fun x => x.id = r.id then .error (.refused "refund_case_pkey")
    else .ok { db with refundCases := db.refundCases ++ [r] }
  | .refundStatus r status =>
    -- a completed case stays completed
    if r ∉ db.refundCases ∨ r.status = .completed then .error (.refused "refund_case_transition")
    else .ok { db with refundCases := replaceRow RefundCase.id { r with status } db.refundCases }
  | .relay x =>
    if ¬ db.refundCases.any fun r => r.id = x.refundCaseId ∧ r.paymentId = x.paymentId then
      .error (.refused "refund_authorization_relay_case")
    else if db.relays.any fun y => y.id = x.id then .error (.refused "refund_authorization_relay_pkey")
    else .ok { db with relays := db.relays ++ [x] }
  | .relayStatus x status =>
    if x ∉ db.relays then .error (.refused "refund_authorization_relay")
    else .ok { db with relays := replaceRow Relay.id { x with attemptStatus := some status } db.relays }
  | .refundReversal purchaseId => db.insertReversal ⟨purchaseId, .refund_completion⟩
  | .recoveryPayment lateSuccessId => .ok { db with recoveryPayments := db.recoveryPayments ++ [lateSuccessId] }

inductive Action
  | record (r : Record)
  | recordLoss (l : DisputeLoss)
  | recordCaptureLoss (disputeId : Uuid)
  | apply (disputeId : Uuid)
  | visit (disputeId : Uuid)
  | readEvidence (f : VisitFacts) (payment : Answer)
  | decide (f : VisitFacts) (evidence : Option RefundEvidenceVerdict)
  | selectRow (disputeId : Uuid)
  | readRowEvidence (f : WriteOffFacts) (payment : Answer)
  | writeOff (f : WriteOffFacts) (evidence : Option RefundEvidenceVerdict)

def Sys.commit (s : Sys) : Except Failure Db → Sys
  | .ok db => { s with db }
  | .error _ => s

/-- One action; whatever a worker holds may also be lost, by never being used. -/
def step (s : Sys) : Action → Sys
  | .record r => s.commit (s.db.record r)
  | .recordLoss l => s.commit (s.db.insertLoss l)
  | .recordCaptureLoss d => s.commit (Losses.recordCaptureLoss s.db d)
  | .apply d => { s with db := Losses.apply s.db d }
  | .visit d =>
    match visitFacts s.db d with
    | none => s
    | some f => { s with visits := f :: s.visits }
  | .readEvidence f payment =>
    if f ∈ s.visits then
      { s with judged := (f, if f.refunded then none else some (check s.db f.disputeId payment)) :: s.judged }
    else s
  | .decide f evidence =>
    if (f, evidence) ∈ s.judged then s.commit ((decideVisit s.db f evidence).map Prod.fst) else s
  | .selectRow d =>
    match writeOffFacts s.db d with
    | none => s
    | some f => { s with rows := f :: s.rows }
  | .readRowEvidence f payment =>
    if f ∈ s.rows then
      { s with judgedRows := (f, if f.refunded then none else some (check s.db f.disputeId payment)) :: s.judgedRows }
    else s
  | .writeOff f evidence =>
    if (f, evidence) ∈ s.judgedRows then s.commit (recognizeChargebackLoss s.db f evidence) else s

def run (s : Sys) (actions : List Action) : Sys := actions.foldl step s

end NawaraCore.Losses
