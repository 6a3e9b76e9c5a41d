import NawaraCore.Billing.FraudHoldIntervals
import NawaraCore.Billing.PersonalSubscription

/-!
# Personal entitlement

The calculation of a personal subscription's entitlement from the spans of its ledger and its
fraud holds. Without holds the spans are walked directly, from the one that holds the instant.
-/

namespace NawaraCore.Entitlements

open FraudHolds PersonalSubscriptions
open Subscriptions (Uuid)

def startsBy (a b : PersonalSpan) : Prop := a.effectiveStart ≤ b.effectiveStart

instance : DecidableRel startsBy := fun _ _ => inferInstanceAs (Decidable (_ ≤ _))

def holdsInstant (now : Int) (s : PersonalSpan) : Bool := s.effectiveStart ≤ now ∧ now < s.effectiveEnd

def runEnd (stop : Int) : List PersonalSpan → Int
  | [] => stop
  | s :: rest => if s.effectiveStart = stop then runEnd s.effectiveEnd rest else stop

def personalEntitlementAt (spans : List PersonalSpan) (now : Int) : EntitlementAt :=
  match (spans.insertionSort startsBy).dropWhile fun s => !holdsInstant now s with
  | [] => ⟨false, none⟩
  | s :: rest => ⟨true, some (runEnd s.effectiveEnd rest)⟩

def spanInterval (s : PersonalSpan) : Interval := ⟨s.effectiveStart, s.effectiveEnd⟩

def entitlementOf (db : LedgerDb) (personal : Uuid) (holds : List HoldWindow) (now : Int) : EntitlementAt :=
  let spans := billing_personal_spans db personal none
  if holds.length = 0 then personalEntitlementAt spans now else entitlementAt (spans.map spanInterval) holds now

end NawaraCore.Entitlements
