import NawaraCore.Assistance.Settlement

/-!
# Owner corrections

`AssistanceResolutionService.correct` checks a correction before the database does. A party to
a request is an ordinary member, an Owner never is, and the kind of a user never changes.
-/

namespace NawaraCore.Assistance

open Subscriptions (Uuid)
open PaymentRequests (Failure)

inductive UserKind
  | member | owner | operator
deriving DecidableEq

/-- `correctable`: the time was reported, the value changes it, and the order holds with the other effective time. -/
def correctable (db : Db) (c : Correction) : Except Failure Unit :=
  match db.request? c.assistanceRequestId with
  | none => .error .notFound
  | some r =>
    let report := (db.currentObligation r.id).bind Obligation.report
    let collected := if c.field = .cashCollectedAt then some c.correctedValue else db.effectiveTime r.id .cashCollectedAt
    let returned := if c.field = .returnedAt then some c.correctedValue else db.effectiveTime r.id .returnedAt
    if ¬ r.status.collected ∨ (c.field = .returnedAt ∧ report.isNone) ∨ db.effectiveTime r.id c.field = some c.correctedValue then
      .error (.billing 409 "correction_not_permitted")
    else if (collected.any fun v => r.consentAt ≤ v ∧ r.collection.any fun k => v ≤ k.reportedAt) ∧
        (returned.all fun w => collected.any (· ≤ w) ∧ report.any fun (_, reportedAt, _) => w ≤ reportedAt) then .ok ()
    else .error (.billing 422 "correction_time_invalid")

def correct (db : Db) (c : Correction) : Except Failure Db := do
  correctable db c
  db.insertCorrection c

/-- The user whom the command is taken from: `isOrdinaryActiveMember` of a party, the guard of an Owner. -/
def Action.permitted (kind : Uuid → UserKind) : Action → Bool
  | .create input .. => kind input.beneficiaryUserId = .member
  | .reportCashCollection _ _ reportedBy _ _ | .reportReturn _ _ reportedBy _ => kind reportedBy = .member
  | .correct c => kind c.correctedBy = .owner
  | _ => true

def Action.serve (kind : Uuid → UserKind) (db : Db) (a : Action) : Except Failure Db :=
  if ¬ a.permitted kind then .error (.billing 403 "operation_not_permitted")
  else
    match a with
    | .correct c => Assistance.correct db c
    | a => a.run db

def serveStep (kind : Uuid → UserKind) (db : Db) (a : Action) : Db :=
  match a.serve kind db with
  | .ok db' => db'
  | .error _ => db

def serve (kind : Uuid → UserKind) (db : Db) (actions : List Action) : Db := actions.foldl (serveStep kind) db

/-- The effective times of a request, against what was recorded with them. -/
structure Db.Ordered (db : Db) (r : AssistanceRequest) : Prop where
  collected : ∀ v, db.effectiveTime r.id .cashCollectedAt = some v → r.consentAt ≤ v ∧ ∃ k, r.collection = some k ∧ v ≤ k.reportedAt
  returned : ∀ w, db.effectiveTime r.id .returnedAt = some w → (∃ v, db.effectiveTime r.id .cashCollectedAt = some v ∧ v ≤ w) ∧
    ∃ o p, db.currentObligation r.id = some o ∧ o.report = some p ∧ w ≤ p.2.1
  effective : (r.collection.isSome → (db.effectiveTime r.id .cashCollectedAt).isSome) ∧
    ∀ o, db.currentObligation r.id = some o → o.report.isSome → (db.effectiveTime r.id .returnedAt).isSome

structure Recorded (db db' : Db) : Prop where
  collections : ∀ r ∈ db.requests, ∀ k, r.collection = some k → ∃ r' ∈ db'.requests, r'.id = r.id ∧ r'.consentAt = r.consentAt ∧ r'.collection = some k
  reports : ∀ o ∈ db.obligations, ∀ p, o.report = some p → ∃ o' ∈ db'.obligations, o'.id = o.id ∧ o'.assistanceRequestId = o.assistanceRequestId ∧
    o'.report = some p
  corrections : db.corrections <+: db'.corrections

end NawaraCore.Assistance
