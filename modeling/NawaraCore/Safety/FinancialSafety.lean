import NawaraCore.Lib.Keyset
import NawaraCore.Lib.Rows
import NawaraCore.Refund.Refund

/-!
# The financial safety check

Before its financial workers start, Billing pages Payment's losses, then its own losses,
relays and completed cases, reads Payment's refunds of every payment they name and compares
the two, while consumers and requests keep running. Each step takes one tick of a clock.
-/

namespace NawaraCore.Safety

open Refunds (RefundAttemptStatus canTransition)

abbrev Uuid := Nat

/-- A lost dispute with its chargeback; `committedAt` is when Payment's losses read first lists it. -/
structure PaymentLoss where
  disputeId : Uuid
  paymentId : Uuid
  committedAt : Nat

structure RefundAttempt where
  refundAttemptId : Uuid
  paymentId : Uuid
  status : RefundAttemptStatus
deriving DecidableEq

structure Refusal where
  refundAttemptId : Uuid
  paymentId : Uuid

/-- `completed` is a `completedAt` that is not null. -/
structure RefundAuthorization where
  refundAttemptId : Uuid
  refundCaseId : Uuid
  paymentId : Uuid
  completed : Bool

structure Payment where
  payments : List Uuid
  losses : List PaymentLoss
  attempts : List RefundAttempt
  refusals : List Refusal
  authorizations : List RefundAuthorization

structure BillingLoss where
  disputeId : Uuid
  paymentId : Uuid

inductive RelayStatus
  | attempt (status : RefundAttemptStatus)
  | rejected
deriving DecidableEq

structure Relay where
  id : Uuid
  paymentId : Uuid
  refundCaseId : Uuid
  attemptStatus : Option RelayStatus
  requestedAt : Nat

structure CompletedCase where
  id : Uuid
  paymentId : Uuid

structure Billing where
  losses : List BillingLoss
  relays : List Relay
  completed : List CompletedCase

def MOVES : RefundAttemptStatus → List RefundAttemptStatus
  | .authorizationPending => [.authorized, .authorizationExpired, .authorizationRefused, .dispatching, .submitted, .unknown,
      .succeeded, .failed, .discrepancy]
  | .authorized => [.dispatching, .submitted, .unknown, .succeeded, .failed, .discrepancy]
  | .dispatching => [.submitted, .unknown, .succeeded, .failed, .discrepancy]
  | .unknown => [.submitted, .succeeded, .failed, .discrepancy]
  | .submitted => [.succeeded, .failed, .discrepancy]
  | .failed => [.discrepancy]
  | _ => []

def follow (payment : RefundAttemptStatus) :
    List RefundAttemptStatus → List RefundAttemptStatus → List RefundAttemptStatus →
      Option (List RefundAttemptStatus × List RefundAttemptStatus)
  | [], queue, seen => some (queue, seen)
  | next :: rest, queue, seen =>
    if next = payment then none
    else if next ∈ seen then follow payment rest queue seen
    else follow payment rest (queue ++ [next]) (next :: seen)

def search (payment : RefundAttemptStatus) : Nat → List RefundAttemptStatus → List RefundAttemptStatus → Bool
  | 0, _, _ => false
  | _ + 1, [], _ => false
  | fuel + 1, s :: queue, seen =>
    match follow payment (MOVES s) queue seen with
    | none => true
    | some (queue, seen) => search payment fuel queue seen

/-- Payment is at the same status as Billing's mirror, or at one reachable from it. -/
def paymentNotBehind (billing payment : RefundAttemptStatus) : Bool :=
  billing = payment ∨ search payment 11 [billing] [billing]

def canMirror : Option RelayStatus → RelayStatus → Bool
  | none, _ => true
  | some (.attempt s), .attempt t => t ∈ MOVES s
  | some _, _ => false

inductive Finding
  | billing_loss_unknown_to_payment (dispute : Uuid)
  | payment_unknown (payment : Uuid)
  | attempt_without_relay (payment attempt : Uuid)
  | rejected_relay_unknown_to_payment (payment relay : Uuid)
  | relay_unknown_to_payment (payment relay : Uuid)
  | relay_ahead_of_payment (payment relay : Uuid) (billing payment : RefundAttemptStatus)
  | completion_unknown_to_payment (payment case : Uuid)
deriving DecidableEq

structure PaymentRefunds where
  attempts : List RefundAttempt
  refusals : List Uuid
  authorizations : List RefundAuthorization

def compareRelay (paymentId : Uuid) (read : PaymentRefunds) (r : Relay) : List Finding :=
  match r.attemptStatus with
  | none => []
  | some .rejected =>
    if r.id ∉ read.refusals ∧ ¬ read.attempts.any fun a => a.refundAttemptId = r.id then
      [.rejected_relay_unknown_to_payment paymentId r.id]
    else []
  | some (.attempt status) =>
    match read.attempts.find? fun a => a.refundAttemptId = r.id with
    | none => [.relay_unknown_to_payment paymentId r.id]
    | some a =>
      if ¬ paymentNotBehind status a.status then [.relay_ahead_of_payment paymentId r.id status a.status] else []

def compareRefunds (paymentId : Uuid) (read : Option PaymentRefunds) (relays : List Relay) (completedCases : List Uuid) :
    List Finding :=
  match read with
  | none => [.payment_unknown paymentId]
  | some read =>
    ((read.attempts.filter fun a => ¬ relays.any fun r => r.id = a.refundAttemptId).map fun a =>
        .attempt_without_relay paymentId a.refundAttemptId) ++
      relays.flatMap (compareRelay paymentId read) ++
      (completedCases.filter fun c => ¬ read.authorizations.any fun z => z.refundCaseId = c ∧ z.completed).map fun c =>
        .completion_unknown_to_payment paymentId c

/-! ## The scan -/

def PAGE : Nat := 200

/-- Payment's refunds read runs its queries one after another: the attempts, the refusals, the authorizations. -/
inductive Phase
  | losses
  | billingLosses
  | relays
  | completed
  | refunds (todo : List Uuid)
  | refusals (paymentId : Uuid) (attempts : List RefundAttempt) (todo : List Uuid)
  | authorizations (paymentId : Uuid) (attempts : List RefundAttempt) (refusals : List Uuid) (todo : List Uuid)
deriving DecidableEq

structure Scan where
  phase : Phase
  losses : Pager PaymentLoss Uuid
  billingLosses : Pager BillingLoss Uuid
  relays : Pager Relay Uuid
  completed : Pager CompletedCase Uuid
  findings : List Finding

def Scan.start : Scan := ⟨.losses, .start, .start, .start, .start, []⟩

inductive SafetyCheckOutcome
  | passed
  | mismatch (findings : List Finding)
deriving DecidableEq

def Scan.outcome (c : Scan) : Option SafetyCheckOutcome :=
  match c.phase with
  | .refunds [] => some (if c.findings = [] then .passed else .mismatch c.findings)
  | _ => none

def Scan.payments (c : Scan) : List Uuid :=
  (c.billingLosses.rows.map BillingLoss.paymentId ++ c.relays.rows.map Relay.paymentId ++
    c.completed.rows.map CompletedCase.paymentId).dedup.insertionSort (· ≤ ·)

def Scan.step (c : Scan) (now : Nat) (payment : Payment) (billing : Billing) : Scan :=
  match c.phase with
  | .losses =>
    let g := c.losses.read PaymentLoss.disputeId PAGE now payment.losses
    { c with losses := g, phase := if g.finished then .billingLosses else .losses }
  | .billingLosses =>
    let rows := page BillingLoss.disputeId PAGE c.billingLosses.after billing.losses
    let g := c.billingLosses.read BillingLoss.disputeId PAGE now billing.losses
    let unknown := rows.filter fun l => ¬ c.losses.rows.any fun x => x.disputeId = l.disputeId
    { c with
      billingLosses := g
      phase := if g.finished then .relays else .billingLosses
      findings := c.findings ++ unknown.map fun l => .billing_loss_unknown_to_payment l.disputeId }
  | .relays =>
    let g := c.relays.read Relay.id PAGE now billing.relays
    { c with relays := g, phase := if g.finished then .completed else .relays }
  | .completed =>
    let g := c.completed.read CompletedCase.id PAGE now billing.completed
    let c := { c with completed := g }
    { c with phase := if g.finished then .refunds c.payments else .completed }
  | .refunds [] => c
  | .refunds (p :: todo) =>
    if p ∈ payment.payments then { c with phase := .refusals p (payment.attempts.filter fun a => a.paymentId = p) todo }
    else { c with phase := .refunds todo, findings := c.findings ++ compareRefunds p none [] [] }
  | .refusals p attempts todo =>
    let refusals := (payment.refusals.filter fun r => r.paymentId = p).map Refusal.refundAttemptId
    { c with phase := .authorizations p attempts refusals todo }
  | .authorizations p attempts refusals todo =>
    let read : PaymentRefunds := ⟨attempts, refusals, payment.authorizations.filter fun z => z.paymentId = p⟩
    let relays := c.relays.rows.filter fun r => r.paymentId = p
    let completedCases := (c.completed.rows.filter fun x => x.paymentId = p).map CompletedCase.id
    { c with phase := .refunds todo, findings := c.findings ++ compareRefunds p (some read) relays completedCases }

/-! ## The system -/

structure Sys where
  clock : Nat
  payment : Payment
  billing : Billing
  answers : List (Uuid × RelayStatus)
  scan : Scan

inductive Action
  | createPayment (paymentId : Uuid)
  | commitLoss (disputeId paymentId : Uuid)
  | recordLoss (disputeId : Uuid)
  | relay (id paymentId refundCaseId : Uuid)
  | createAttempt (id : Uuid)
  | moveAttempt (id : Uuid) (status : RefundAttemptStatus)
  | refuse (id : Uuid)
  | authorize (id : Uuid)
  | completeAuthorization (id : Uuid)
  | answer (id : Uuid)
  | mirror (id : Uuid) (status : RelayStatus)
  | completeCase (refundCaseId : Uuid)
  | scan

def Payment.answer (p : Payment) (id : Uuid) : Option RelayStatus :=
  match p.attempts.find? fun a => a.refundAttemptId = id with
  | some a => some (.attempt a.status)
  | none => if p.refusals.any fun r => r.refundAttemptId = id then some .rejected else none

def Payment.unused (p : Payment) (id : Uuid) : Bool :=
  (p.attempts.all fun a => a.refundAttemptId ≠ id) ∧ p.refusals.all fun r => r.refundAttemptId ≠ id

/-- The activity of both services. Payment acts on an attempt id only after Billing committed its relay, and Billing records
a loss, a status or a completion only after Payment committed it. -/
def act (s : Sys) : Action → Payment × Billing
  | .createPayment p => ({ s.payment with payments := s.payment.payments ++ [p] }, s.billing)
  | .commitLoss d p =>
    if p ∈ s.payment.payments ∧ s.payment.losses.all fun l => l.disputeId ≠ d then
      ({ s.payment with losses := s.payment.losses ++ [⟨d, p, s.clock⟩] }, s.billing)
    else (s.payment, s.billing)
  | .recordLoss d =>
    match s.payment.losses.find? fun l => l.disputeId = d with
    | none => (s.payment, s.billing)
    | some l =>
      if s.billing.losses.all fun x => x.disputeId ≠ d then
        (s.payment, { s.billing with losses := s.billing.losses ++ [⟨d, l.paymentId⟩] })
      else (s.payment, s.billing)
  | .relay id p c =>
    if p ∈ s.payment.payments ∧ s.billing.relays.all fun r => r.id ≠ id then
      (s.payment, { s.billing with relays := s.billing.relays ++ [⟨id, p, c, none, s.clock⟩] })
    else (s.payment, s.billing)
  | .createAttempt id =>
    match s.billing.relays.find? fun r => r.id = id with
    | none => (s.payment, s.billing)
    | some r =>
      if s.payment.unused id then
        ({ s.payment with attempts := s.payment.attempts ++ [⟨id, r.paymentId, .authorizationPending⟩] }, s.billing)
      else (s.payment, s.billing)
  | .moveAttempt id status =>
    match s.payment.attempts.find? fun a => a.refundAttemptId = id with
    | none => (s.payment, s.billing)
    | some a =>
      if canTransition a.status status then
        ({ s.payment with attempts := replaceRow RefundAttempt.refundAttemptId { a with status } s.payment.attempts }, s.billing)
      else (s.payment, s.billing)
  | .refuse id =>
    match s.billing.relays.find? fun r => r.id = id with
    | none => (s.payment, s.billing)
    | some r =>
      if s.payment.unused id then ({ s.payment with refusals := s.payment.refusals ++ [⟨id, r.paymentId⟩] }, s.billing)
      else (s.payment, s.billing)
  | .authorize id =>
    match s.billing.relays.find? fun r => r.id = id with
    | none => (s.payment, s.billing)
    | some r =>
      ({ s.payment with authorizations := s.payment.authorizations ++ [⟨id, r.refundCaseId, r.paymentId, false⟩] }, s.billing)
  | .completeAuthorization id =>
    ({ s.payment with
      authorizations := s.payment.authorizations.map fun z => if z.refundAttemptId = id then { z with completed := true } else z },
      s.billing)
  | .mirror id status =>
    match s.billing.relays.find? fun r => r.id = id with
    | none => (s.payment, s.billing)
    | some r =>
      if (id, status) ∈ s.answers ∧ canMirror r.attemptStatus status then
        (s.payment, { s.billing with relays := replaceRow Relay.id { r with attemptStatus := some status } s.billing.relays })
      else (s.payment, s.billing)
  | .completeCase c =>
    match s.payment.authorizations.find? fun z => z.refundCaseId = c ∧ z.completed with
    | none => (s.payment, s.billing)
    | some z =>
      if s.billing.completed.all fun x => x.id ≠ c then
        (s.payment, { s.billing with completed := s.billing.completed ++ [⟨c, z.paymentId⟩] })
      else (s.payment, s.billing)
  | .answer _ | .scan => (s.payment, s.billing)

def step (s : Sys) (a : Action) : Sys where
  clock := s.clock + 1
  payment := (act s a).1
  billing := (act s a).2
  answers :=
    match a with
    | .answer id => (s.payment.answer id).toList.map (id, ·) ++ s.answers
    | _ => s.answers
  scan :=
    match a with
    | .scan => s.scan.step s.clock s.payment s.billing
    | _ => s.scan

def run (s : Sys) (actions : List Action) : Sys := actions.foldl step s

end NawaraCore.Safety
