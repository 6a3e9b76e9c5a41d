import Mathlib.Data.Prod.Lex
import NawaraCore.Lib.BatchScan
import NawaraCore.Loss.LossWorkers

/-!
# The passes of the recovery worker

`RecoveryService.drainOnce`: the oldest fifty losses with no obligation and no review, each
visited in turn with Payment's answers.
-/

namespace NawaraCore.Losses

def BATCH : Nat := 50

/-- What a pass reads beside the database: the `recordedAt` of the losses, and what Payment answers for each payment. -/
structure PassEnv where
  recordedAt : Uuid → Int
  payment : Uuid → Answer

def Db.undecided (db : Db) : List Uuid :=
  (db.losses.filter fun l =>
    (db.effects.any fun e => e.disputeId = l.disputeId ∧ e.outcome = .none .assisted_purchase_preserved) ∧
      ¬ (db.obligations.any fun o => o.disputeId = l.disputeId) ∧ ¬ db.reviews.any fun r => r.disputeId = l.disputeId).map DisputeLoss.disputeId

def PassEnv.order (env : PassEnv) (disputeId : Uuid) : Lex (Int × Nat) := toLex (env.recordedAt disputeId, disputeId)

/-- `visit`: the place of the loss is written first, then the decision on what was read. -/
def PassEnv.visit (env : PassEnv) (db : Db) (disputeId : Uuid) : Db × Except Failure VisitOutcome :=
  match visitFacts db disputeId with
  | none => (db, .ok .already)
  | some f => match recordCaptureLoss db disputeId with
    | .error e => (db, .error e)
    | .ok placed =>
      let payment := (placed.loss? disputeId).elim .unavailable fun l => env.payment l.paymentId
      match decideVisit placed f (if f.refunded then none else some (check placed disputeId payment)) with
      | .error e => (placed, .error e)
      | .ok (decided, outcome) => (decided, .ok outcome)

structure Tally where
  opened : Nat
  review : Nat
  waiting : Nat
  failed : Nat

def Tally.count (t : Tally) : Except Failure VisitOutcome → Tally
  | .ok .opened => { t with opened := t.opened + 1 }
  | .ok .review => { t with review := t.review + 1 }
  | .ok .waiting => { t with waiting := t.waiting + 1 }
  | .ok .already => t
  | .error _ => { t with failed := t.failed + 1 }

def PassEnv.drainOnce (env : PassEnv) (db : Db) : Db × Tally :=
  (batch env.order Db.undecided BATCH db).foldl (fun (db, tally) disputeId =>
    let (db, outcome) := env.visit db disputeId
    (db, tally.count outcome)) (db, ⟨0, 0, 0, 0⟩)

end NawaraCore.Losses
