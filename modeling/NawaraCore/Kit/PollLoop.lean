import Mathlib.Data.List.Basic

/-!
# Poll loops

A loop runs its pass some time after the previous one ended. Its state is a flag, the timer it has
set and the pass it has in flight; the timers that are set and the passes that run are the event loop's.
-/

namespace NawaraCore.PollLoop

structure Timer where
  id : Nat
  delayMs : Nat
  intervalMs : Nat

/-- A pass, with the interval that its continuation schedules the next one after. -/
structure Pass where
  id : Nat
  intervalMs : Nat

/-- The fields of a loop, then what the event loop holds: the timers that are set, the passes that run, the ones that have ended and
whose continuation has not run yet, and how many have begun. `stopping` is whether a drain is kept. -/
structure State where
  stopped : Bool
  timer : Option Nat
  inFlight : Option Nat
  stopping : Bool
  pending : List Timer
  running : List Pass
  ended : List Pass
  begun : Nat
  fresh : Nat

def State.new : State := ⟨true, none, none, false, [], [], [], 0, 0⟩

inductive Action
  | start (intervalMs firstDelayMs : Nat)
  | stop (drainTimeoutMs : Nat)
  /-- A timer comes due; `raised` is a pass that throws before it returns a promise. -/
  | fire (id : Nat) (raised : Bool)
  | settle (id : Nat)
  | continue_ (id : Nat)

def State.schedule (s : State) (delayMs intervalMs : Nat) : State :=
  if s.stopped then s
  else
    { s with
      timer := some s.fresh
      pending := s.pending ++ [⟨s.fresh, delayMs, intervalMs⟩]
      fresh := s.fresh + 1 }

def State.start (s : State) (intervalMs firstDelayMs : Nat) : State :=
  if ¬ s.stopped then s
  else State.schedule
    { s with
      stopped := false
      stopping := false } firstDelayMs intervalMs

/-- A drain waits for the pass in flight, bounded; whatever comes of it, the loop is left as it is. -/
def State.stop (s : State) : State :=
  if s.stopping then s
  else
    { s with
      stopping := true
      stopped := true
      pending := s.pending.filter fun t => some t.id ≠ s.timer
      timer := none }

def State.fire (s : State) (id : Nat) (raised : Bool) : State :=
  match s.pending.find? fun t => t.id = id with
  | none => s
  | some t =>
    let s := { s with
      pending := s.pending.filter fun t => t.id ≠ id
      timer := none }
    if s.stopped then s
    else if raised then { s with begun := s.begun + 1 }
    else
      { s with
        inFlight := some s.fresh
        running := s.running ++ [⟨s.fresh, t.intervalMs⟩]
        begun := s.begun + 1
        fresh := s.fresh + 1 }

def State.settle (s : State) (id : Nat) : State :=
  { s with
    running := s.running.filter fun p => p.id ≠ id
    ended := s.ended ++ s.running.filter fun p => p.id = id }

def State.continue_ (s : State) (id : Nat) : State :=
  match s.ended.find? fun p => p.id = id with
  | none => s
  | some p => State.schedule
    { s with
      ended := s.ended.filter fun p => p.id ≠ id
      inFlight := none } p.intervalMs p.intervalMs

def step (s : State) : Action → State
  | .start intervalMs firstDelayMs => s.start intervalMs firstDelayMs
  | .stop _ => s.stop
  | .fire id raised => s.fire id raised
  | .settle id => s.settle id
  | .continue_ id => s.continue_ id

def run (actions : List Action) : State := actions.foldl step .new

end NawaraCore.PollLoop
