import NawaraCore.Kit.PollLoop
import NawaraCore.Lib.Runs

/-!
# When a poll loop never overlaps itself

A loop that is not restarted while a pass of it is in flight has one timer set or one pass running. A
restart before that sets a timer beside the pass, and the pass sets another when it ends.
-/

namespace NawaraCore.PollLoop

def Single (s : State) : Prop := s.running.length ≤ 1 ∧ s.pending.length ≤ 1

instance (s : State) : Decidable (Single s) := inferInstanceAs (Decidable (_ ∧ _))

def Idle (s : State) : Action → Prop
  | .start _ _ => s.stopped = true → s.inFlight = none
  | _ => True

/-! ## One timer, or one pass -/

/-- Where a loop is: nothing is set or runs, a timer is set, or a pass is in flight, running or ended. -/
inductive Place (s : State) : Prop
  | empty (hp : s.pending = []) (hr : s.running = []) (he : s.ended = []) (hf : s.inFlight = none)
  | timer (t : Timer) (hp : s.pending = [t]) (ht : s.timer = some t.id) (hr : s.running = []) (he : s.ended = []) (hf : s.inFlight = none)
    (hs : s.stopped = false)
  | running (p : Pass) (hp : s.pending = []) (hr : s.running = [p]) (he : s.ended = []) (hf : s.inFlight = some p.id)
  | ended (p : Pass) (hp : s.pending = []) (hr : s.running = []) (he : s.ended = [p]) (hf : s.inFlight = some p.id)

structure Inv (s : State) : Prop where
  place : Place s
  stopping : s.stopping = true → s.stopped = true

section
variable {s : State} {id : Nat}

theorem Place.single (h : Place s) : Single s := by
  cases h with
  | empty hp hr he hf => simp [Single, hp, hr]
  | timer t hp ht hr he hf hs => simp [Single, hp, hr]
  | running p hp hr he hf => simp [Single, hp, hr]
  | ended p hp hr he hf => simp [Single, hp, hr]

theorem Inv.new : Inv .new := ⟨.empty rfl rfl rfl rfl, nofun⟩

theorem schedule_inv (hp : s.pending = []) (hr : s.running = []) (he : s.ended = []) (hf : s.inFlight = none)
    (hstop : s.stopping = true → s.stopped = true) (delayMs intervalMs : Nat) : Inv (s.schedule delayMs intervalMs) := by
  unfold State.schedule
  split
  · exact ⟨.empty hp hr he hf, hstop⟩
  next hs =>
    have hs : s.stopped = false := by simpa using hs
    exact ⟨.timer ⟨s.fresh, delayMs, intervalMs⟩ (by rw [hp]; rfl) rfl hr he hf hs, hstop⟩

theorem Inv.start (h : Inv s) (intervalMs firstDelayMs : Nat) (hok : s.stopped = true → s.inFlight = none) : Inv (s.start intervalMs firstDelayMs) := by
  unfold State.start
  split
  · exact h
  next hs =>
  have hs : s.stopped = true := not_not.mp hs
  have hidle := hok hs
  cases h.place with
  | empty hp hr he hf =>
    apply schedule_inv
    · exact hp
    · exact hr
    · exact he
    · exact hf
    · exact fun hc => absurd hc Bool.false_ne_true
  | timer t hp ht hr he hf hs' =>
    rw [hs] at hs'
    cases hs'
  | running p hp hr he hf =>
    rw [hf] at hidle
    cases hidle
  | ended p hp hr he hf =>
    rw [hf] at hidle
    cases hidle

theorem Inv.stop (h : Inv s) : Inv s.stop := by
  unfold State.stop
  split
  · exact h
  refine ⟨?_, fun _ => rfl⟩
  cases h.place with
  | empty hp hr he hf => exact .empty (by simp [hp]) hr he hf
  | timer t hp ht hr he hf hs => exact .empty (by simp [hp, ht]) hr he hf
  | running p hp hr he hf => exact .running p (by simp [hp]) hr he hf
  | ended p hp hr he hf => exact .ended p (by simp [hp]) hr he hf

theorem Inv.fire (h : Inv s) (raised : Bool) : Inv (s.fire id raised) := by
  unfold State.fire
  split
  · exact h
  next t ht =>
  have hid : t.id = id := by simpa using List.find?_some ht
  cases h.place with
  | timer t' hp htimer hr he hf hs =>
    have htt : t = t' := by
      have hm := List.mem_of_find?_eq_some ht
      rw [hp] at hm
      exact List.mem_singleton.mp hm
    subst htt
    have hnone : (s.pending.filter fun t => t.id ≠ id) = [] := by simp [hp, hid]
    have hstopping : s.stopping ≠ true := fun hst => absurd (h.stopping hst) (by simp [hs])
    simp only [hs, Bool.false_eq_true, if_false]
    split
    · exact ⟨.empty hnone hr he hf, fun hst => absurd hst hstopping⟩
    · exact ⟨.running ⟨s.fresh, t.intervalMs⟩ hnone (by simp [hr]) he rfl, fun hst => absurd hst hstopping⟩
  | empty hp hr he hf =>
    rw [hp] at ht
    cases ht
  | running p hp hr he hf =>
    rw [hp] at ht
    cases ht
  | ended p hp hr he hf =>
    rw [hp] at ht
    cases ht

theorem Inv.settle (h : Inv s) : Inv (s.settle id) := by
  refine ⟨?_, h.stopping⟩
  unfold State.settle
  cases h.place with
  | empty hp hr he hf => exact .empty hp (by simp [hr]) (by simp [hr, he]) hf
  | timer t hp ht hr he hf hs => exact .timer t hp ht (by simp [hr]) (by simp [hr, he]) hf hs
  | running p hp hr he hf =>
    by_cases hid : p.id = id
    · exact .ended p hp (by simp [hr, hid]) (by simp [hr, he, hid]) hf
    · exact .running p hp (by simp [hr, hid]) (by simp [hr, he, hid]) hf
  | ended p hp hr he hf => exact .ended p hp (by simp [hr]) (by simp [hr, he]) hf

theorem Inv.continue_ (h : Inv s) : Inv (s.continue_ id) := by
  unfold State.continue_
  split
  · exact h
  next p hfind =>
  have hid : p.id = id := by simpa using List.find?_some hfind
  have hm := List.mem_of_find?_eq_some hfind
  cases h.place with
  | ended q hp hr he hf =>
    rw [he] at hm
    obtain rfl := List.mem_singleton.mp hm
    apply schedule_inv
    · exact hp
    · exact hr
    · simp [he, hid]
    · rfl
    · exact h.stopping
  | empty hp hr he hf =>
    rw [he] at hm
    cases hm
  | timer t hp ht hr he hf hs =>
    rw [he] at hm
    cases hm
  | running q hp hr he hf =>
    rw [he] at hm
    cases hm

theorem Inv.step {a : Action} (h : Inv s) (hok : Idle s a) : Inv (step s a) := by
  cases a with
  | start intervalMs firstDelayMs => exact h.start intervalMs firstDelayMs hok
  | stop drainTimeoutMs => exact h.stop
  | fire id raised => exact h.fire raised
  | settle id => exact h.settle
  | continue_ id => exact h.continue_

/-! ## After the last stop -/

def Action.starts : Action → Bool
  | .start _ _ => true
  | _ => false

theorem stopped_step {a : Action} (hs : s.stopped = true) (ha : a.starts = false) :
    (PollLoop.step s a).stopped = true ∧ (PollLoop.step s a).begun = s.begun := by
  cases a with
  | start intervalMs firstDelayMs => cases ha
  | stop drainTimeoutMs =>
    simp only [PollLoop.step, State.stop]
    split
    · exact ⟨hs, rfl⟩
    · exact ⟨rfl, rfl⟩
  | fire id raised =>
    simp only [PollLoop.step, State.fire]
    split
    · exact ⟨hs, rfl⟩
    · simp [hs]
  | settle id => exact ⟨hs, rfl⟩
  | continue_ id =>
    simp only [PollLoop.step, State.continue_]
    split
    · exact ⟨hs, rfl⟩
    · simp [State.schedule, hs]

theorem stopped_run : ∀ (actions : List Action) {s : State}, s.stopped = true → (∀ a ∈ actions, a.starts = false) →
    (actions.foldl PollLoop.step s).begun = s.begun
  | [], _, _, _ => rfl
  | a :: actions, s, hs, ha => by
    obtain ⟨hs', hb⟩ := stopped_step hs (ha a List.mem_cons_self)
    rw [List.foldl_cons, stopped_run actions hs' fun b hb => ha b (List.mem_cons_of_mem _ hb), hb]

theorem Inv.stops (h : Inv s) : s.stop.stopped = true := by
  unfold State.stop
  split
  next hs => exact h.stopping hs
  next => rfl

theorem along_take : ∀ (actions : List Action) (k : Nat) {s : State}, Along PollLoop.step Idle s actions →
    Along PollLoop.step Idle s (actions.take k)
  | _, 0, _, _ => trivial
  | [], _ + 1, _, _ => trivial
  | _ :: actions, k + 1, _, h => ⟨h.1, along_take actions k h.2⟩

theorem run_inv (actions : List Action) (h : Along PollLoop.step Idle .new actions) : Inv (run actions) :=
  Along.invariant (fun _ _ hs ha => hs.step ha) actions .new h

/-- **A loop that is not restarted while a pass is in flight never overlaps itself.** -/
theorem poll_loop_single (actions : List Action) (h : Along PollLoop.step Idle .new actions) :
    (∀ k, Single (run (actions.take k))) ∧ ∀ before after drainTimeoutMs, actions = before ++ .stop drainTimeoutMs :: after →
      (∀ a ∈ after, a.starts = false) → (run actions).begun = (run before).begun := by
  refine ⟨fun k => (run_inv _ (along_take actions k h)).place.single, ?_⟩
  rintro before after drainTimeoutMs rfl ha
  have hbefore : Along PollLoop.step Idle .new before := by
    have ht := along_take _ before.length h
    rwa [List.take_left] at ht
  have hinv := run_inv before hbefore
  have hrun : run (before ++ .stop drainTimeoutMs :: after) = after.foldl PollLoop.step (run before).stop := by
    unfold run
    rw [List.foldl_append, List.foldl_cons]
    rfl
  rw [hrun, stopped_run after hinv.stops ha]
  unfold State.stop
  split <;> rfl

end

theorem poll_loop_single_restart : Single (run
    (([.start 10 0, .fire 0 false, .stop 5, .settle 1, .continue_ 1, .start 10 0, .fire 2 false] : List Action).take 7)) :=
  (poll_loop_single _ (by simp [Along, Idle, step, State.start, State.stop, State.fire, State.settle, State.continue_, State.schedule, State.new])).1 7

/-- A stop that times out and a start again: the pass that was in flight runs beside the next one. -/
theorem overlapping_restart : ¬ Single (run [.start 10 0, .fire 0 false, .stop 5, .start 10 0, .fire 2 false]) := by
  decide

end NawaraCore.PollLoop
