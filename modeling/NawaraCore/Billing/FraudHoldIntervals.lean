import Mathlib.Data.List.Sort
import NawaraCore.Lib.HalfOpen

/-!
# Interval algebra of fraud holds

The pure functions of `fraud-hold-intervals.ts`, in exact milliseconds. Half-open
intervals `[start, end)`; the field `end` of the source is `stop` here. A hold
window ends at the earlier of its release and its review deadline, so every window
is closed.
-/

namespace NawaraCore.FraudHolds

open HalfOpen

abbrev Interval := HalfOpen Int

structure HoldWindow where
  id : String
  start : Int
  stop : Int

def HOLD_REVIEW_MS : Int := 14 * 24 * 3600 * 1000

def HoldWindow.interval (h : HoldWindow) : Interval := ⟨h.start, h.stop⟩

def byStart (a b : Interval) : Prop := a.start < b.start ∨ (a.start = b.start ∧ a.stop ≤ b.stop)

instance : DecidableRel byStart := fun _ _ => inferInstanceAs (Decidable (_ ∨ _))

/-- The loop of `merge`; `last` is the last entry of `out`. -/
def mergeFrom (last : Interval) : List Interval → List Interval
  | [] => [last]
  | i :: rest =>
    if i.start ≤ last.stop then mergeFrom ⟨last.start, max last.stop i.stop⟩ rest
    else last :: mergeFrom i rest

def mergeSorted : List Interval → List Interval
  | [] => []
  | i :: rest => mergeFrom i rest

def merge (list : List Interval) : List Interval :=
  mergeSorted ((list.filter fun i => i.start < i.stop).insertionSort byStart)

def overlap (x y : Interval) : List Interval :=
  let start := max x.start y.start
  let stop := min x.stop y.stop
  if start < stop then [⟨start, stop⟩] else []

def intersectLoop : List Interval → List Interval → List Interval
  | [], _ => []
  | _ :: _, [] => []
  | x :: xs, y :: ys =>
    if x.stop < y.stop then overlap x y ++ intersectLoop xs (y :: ys)
    else overlap x y ++ intersectLoop (x :: xs) ys
termination_by x y => x.length + y.length

def intersect (a b : List Interval) : List Interval := intersectLoop (merge a) (merge b)

/-- The inner loop of `subtract` for the interval `i`, from the cursor `s`. -/
def cutLoop (i : Interval) : Int → List Interval → List Interval
  | s, [] => if s < i.stop then [⟨s, i.stop⟩] else []
  | s, c :: cut =>
    if c.stop ≤ s ∨ i.stop ≤ c.start then cutLoop i s cut
    else
      let out := if s < c.start then [(⟨s, c.start⟩ : Interval)] else []
      let s' := max s c.stop
      -- the `break`: the cursor has passed `i`, so the last push adds nothing
      if i.stop ≤ s' then out else out ++ cutLoop i s' cut

def subtract (a b : List Interval) : List Interval :=
  (merge a).flatMap fun i => cutLoop i i.start (merge b)

def length (list : List Interval) : Int := (merge list).foldl (fun n i => n + (i.stop - i.start)) 0

def touching (holds : List HoldWindow) (run : Interval) : List HoldWindow :=
  holds.filter fun h => h.start < run.stop ∧ run.start < h.stop ∧ h.start < h.stop

/-- Where the compensation of a run may start: the run's end or the end of the last hold that touched it. -/
def compensationStart (holds : List HoldWindow) (run : Interval) : Int :=
  ((touching holds run).map HoldWindow.stop).foldl max run.stop

def compensationLoop (held : List Interval) (holds : List HoldWindow) : Int → List Interval → List Interval
  | _, [] => []
  | carry, run :: rest =>
    let denied := length (intersect [run] held)
    let total := carry + denied
    if total = 0 then compensationLoop held holds carry rest
    else
      let start := compensationStart holds run
      match rest.head? with
      | some next =>
        if next.start ≤ start then compensationLoop held holds total rest
        else
          let n := min total (next.start - start)
          ⟨start, start + n⟩ :: compensationLoop held holds (total - n) rest
      | none => ⟨start, start + total⟩ :: compensationLoop held holds 0 rest

def compensation (paid : List Interval) (holds : List HoldWindow) : List Interval :=
  compensationLoop (merge (holds.map HoldWindow.interval)) holds 0 (merge paid)

def effective (paid : List Interval) (holds : List HoldWindow) : List Interval :=
  subtract (merge (paid ++ compensation paid holds)) (holds.map HoldWindow.interval)

structure EntitlementAt where
  valid : Bool
  expiresAt : Option Int

def entitlementAt (paid : List Interval) (holds : List HoldWindow) (now : Int) : EntitlementAt :=
  match (merge (effective paid holds)).find? fun x => x.start ≤ now ∧ now < x.stop with
  | some i => ⟨true, some i.stop⟩
  | none => ⟨false, none⟩

end NawaraCore.FraudHolds
