import NawaraCore.Billing.Recovery

/-!
# A recovery against a write-off

One transaction applies a verified success of a recovery invoice, another writes the same
obligation off. Each takes its `now()` when it begins, waits for the advisory lock of the
obligation, and holds it until it commits.
-/

namespace NawaraCore.Recovery

open Subscriptions (Uuid)
open PaymentRequests (Failure)

inductive VerifiedSuccess
  | ordinary (paymentRequestId receiptId : Uuid)
  | late (lateSuccessId : Uuid)

structure Contest where
  success : VerifiedSuccess
  ids : FreshIds
  loss : FinancialLoss

inductive Party
  | recovery | writeOff
deriving DecidableEq

def Party.other : Party → Party
  | .recovery => .writeOff
  | .writeOff => .recovery

def Contest.op (c : Contest) (now : Int) : Party → Op
  | .recovery => match c.success with
    | .ordinary paymentRequestId receiptId => .paymentSucceeded paymentRequestId receiptId c.ids now
    | .late lateSuccessId => .lateSuccessRecovers lateSuccessId c.ids now
  | .writeOff => .writeOff { c.loss with recordedAt := now }

def VerifiedSuccess.obligation (db : Db) : VerifiedSuccess → Option Uuid
  | .ordinary paymentRequestId _ => (db.requests.find? fun r => r.id = paymentRequestId).bind db.recoveryObligation
  | .late lateSuccessId => (db.lateSuccesses.find? fun l => l.lateSuccessId = lateSuccessId).bind fun l =>
    (db.requests.find? fun r => r.id = l.paymentRequestId).bind db.recoveryObligation

inductive Phase
  | idle
  | begun (now : Int)
  | holding (now : Int) (db : Db)
  | committed (now : Int)
  | rolledBack (now : Int) (e : Failure)

def Phase.isHolding : Phase → Bool
  | .holding _ _ => true
  | _ => false

structure Race where
  db : Db
  clock : Int
  phase : Party → Phase

def Race.set (s : Race) (p : Party) (phase : Phase) : Race := { s with phase := Function.update s.phase p phase }

inductive RaceAction
  | tick (d : Nat)
  | begin (p : Party)
  | lock (p : Party)
  | commit (p : Party)

def Race.step (c : Contest) (s : Race) : RaceAction → Race
  | .tick d => { s with clock := s.clock + d }
  | .begin p => match s.phase p with
    | .idle => s.set p (.begun s.clock)
    | _ => s
  | .lock p => match s.phase p with
    | .begun now =>
      if (s.phase p.other).isHolding then s
      else match (c.op now p).run s.db with
        | .ok db => s.set p (.holding now db)
        | .error e => s.set p (.rolledBack now e)
    | _ => s
  | .commit p => match s.phase p with
    | .holding now db => { s.set p (.committed now) with db }
    | _ => s

def Race.start (db : Db) (clock : Int) : Race := { db, clock, phase := fun _ => .idle }

def Db.unwritten (db : Db) : Db := { db with losses := [] }

/-- No write-off of the obligation, not yet recovered, began after `now`. -/
def Db.inOrder (db : Db) (obligationId : Uuid) (now : Int) : Prop :=
  ∀ f ∈ db.losses, f.obligationId = obligationId → 0 < db.remaining f → f.recordedAt ≤ now

instance (db : Db) (obligationId : Uuid) (now : Int) : Decidable (db.inOrder obligationId now) :=
  inferInstanceAs (Decidable (∀ f ∈ db.losses, _))

/-- The recovery does not take the lock behind a write-off that began after it. -/
def Race.InOrder (c : Contest) (s : Race) (a : RaceAction) : Prop :=
  a = .lock .recovery → (s.phase .writeOff).isHolding = false → ∀ now, s.phase .recovery = .begun now → s.db.inOrder c.loss.obligationId now

end NawaraCore.Recovery
