import Mathlib.Data.Prod.Lex
import NawaraCore.Billing.PaymentEvent
import NawaraCore.Lib.Keyset
import NawaraCore.Lib.Rows

/-!
# The walk over stale payment requests

The passes of one reconciler over the requests that Payment has not answered for a while, batch by
batch in the order of their last write, and the writes that other transactions commit between
them. A write's instant is the start of its transaction, in no order with the other writes.
-/

namespace NawaraCore.StaleScan

open PaymentRequests (PaymentRequestStatus)

abbrev Uuid := Fin (2 ^ 128)

structure PaymentRequestRow where
  id : Uuid
  status : PaymentRequestStatus
  paymentId : Option Uuid
  cancelRequestedAt : Option Nat
  updatedAt : Nat
deriving DecidableEq

abbrev ScanPosition := Nat ×ₗ Uuid

def PaymentRequestRow.position (r : PaymentRequestRow) : ScanPosition := toLex (r.updatedAt, r.id)

structure ReconcileConfig where
  staleRequested : Nat
  batchSize : Nat

def PaymentRequestRow.stale (cfg : ReconcileConfig) (now : Nat) (r : PaymentRequestRow) : Bool :=
  r.status = .requested ∧ r.paymentId ≠ none ∧ r.updatedAt + cfg.staleRequested < now

def findStaleRequested (cfg : ReconcileConfig) (now : Nat) (after : Option ScanPosition) (rows : List PaymentRequestRow) :
    List PaymentRequestRow :=
  page PaymentRequestRow.position cfg.batchSize after (rows.filter (·.stale cfg now))

def canMove : PaymentRequestStatus → PaymentRequestStatus → Bool
  | .created, .sending | .created, .cancelled => true
  | .sending, .requested | .sending, .rejected => true
  | .requested, .paid | .requested, .failed | .requested, .expired | .requested, .cancelled => true
  | _, _ => false

inductive Write
  | move (status : PaymentRequestStatus) (paymentId : Uuid)
  /-- The dispatcher claims a stale `sending` request again, or renews its claim. -/
  | renew
  | markCancelRequested

/-- The row after a write in a transaction that started then, unless the row does not admit it. -/
def Write.apply (started : Nat) (r : PaymentRequestRow) : Write → Option PaymentRequestRow
  | .move status paymentId =>
    if canMove r.status status then
      some { r with
        status
        paymentId := if status = .requested then some paymentId else r.paymentId
        updatedAt := started }
    else none
  | .renew => if r.status = .sending then some { r with updatedAt := started } else none
  | .markCancelRequested =>
    if r.status = .requested ∧ r.paymentId ≠ none ∧ r.cancelRequestedAt = none then
      some { r with cancelRequestedAt := some started, updatedAt := started }
    else none

/-- `sweep` lists the positions examined since the walk last started over; nothing reads it. -/
structure Sys where
  rows : List PaymentRequestRow
  cursor : Option ScanPosition
  sweep : List ScanPosition

inductive Event
  | insert (id : Uuid) (started : Nat)
  | write (id : Uuid) (started : Nat) (w : Write)
  | pass (now : Nat)

variable (cfg : ReconcileConfig)

def Sys.batch (s : Sys) (now : Nat) : List PaymentRequestRow := findStaleRequested cfg now s.cursor s.rows

/-- `reconcileOnce`. A full page without a last row is a `TypeError`, before any request is examined. -/
def Sys.reconcileOnce (s : Sys) (now : Nat) : Sys :=
  let stale := s.batch cfg now
  if stale.length < cfg.batchSize then { s with cursor := none, sweep := [] }
  else match stale.getLast? with
    | none => s
    | some last => { s with cursor := some last.position, sweep := s.sweep ++ stale.map (·.position) }

def Sys.step (s : Sys) : Event → Sys
  | .insert id started =>
    if s.rows.any (·.id = id) then s
    else { s with rows := s.rows ++ [⟨id, .created, none, none, started⟩] }
  | .write id started w =>
    match (s.rows.find? (·.id = id)).bind fun r => w.apply started r with
    | none => s
    | some r => { s with rows := replaceRow (·.id) r s.rows }
  | .pass now => s.reconcileOnce cfg now

def Sys.start : Sys := ⟨[], none, []⟩

def examined : Sys → List Event → List ScanPosition
  | _, [] => []
  | s, .pass now :: es => (s.batch cfg now).map (·.position) ++ examined (s.step cfg (.pass now)) es
  | s, e :: es => examined (s.step cfg e) es

def passes (es : List Event) : Nat := es.countP fun e => match e with
  | .pass _ => true
  | _ => false

def StaysStale (r : PaymentRequestRow) : Sys → List Event → Prop :=
  Along (Sys.step cfg) fun s e => r ∈ s.rows ∧ ∀ now, e = .pass now → r.stale cfg now = true

def Sys.swept (s : Sys) (now : Nat) : List ScanPosition := s.sweep ++ (s.batch cfg now).map (·.position)

end NawaraCore.StaleScan
