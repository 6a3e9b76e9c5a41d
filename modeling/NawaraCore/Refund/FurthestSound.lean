import NawaraCore.Refund.RelaySound

/-!
# The furthest status

An answer leaves the mirror at the furthest status told exactly when the mirror takes it.
-/

namespace NawaraCore.RefundRelays

variable {l : List RelayStatus} {x : RelayStatus}

section
variable {s : State} {id : Uuid} {status : RelayStatus} {refusal : Option PaymentRefusal} {outcome : RefundRelayOutcome} {now : Int} {r : Relay}

/-! ## The furthest status -/

def FurthestLaw (s : State) : Prop := ∀ r ∈ s.db.relays, Furthest (s.appliedTo r.id) r.attemptStatus

variable {m : Option RelayStatus}

theorem Furthest.le (h : Furthest l m) (hx : x ∈ l) :
    ∃ y, m = some y ∧ (x = y ∨ x.allowed y) := by
  cases m with
  | none =>
    rw [show l = [] from h] at hx
    cases hx
  | some y => exact ⟨y, rfl, h.2 x hx⟩

theorem Furthest.behind {m : RelayStatus} (h : Furthest l (some m)) (hx : x = m ∨ x.allowed m) :
    Furthest (l ++ [x]) (some m) := by
  refine ⟨List.mem_append_left _ h.1, fun t ht => ?_⟩
  rcases mem_append_row ht with ht | rfl
  · exact h.2 t ht
  · exact hx

theorem Furthest.ahead (h : Furthest l m) (hx : ∀ y ∈ m, y.allowed x) :
    Furthest (l ++ [x]) (some x) := by
  refine ⟨List.mem_append_right _ List.mem_cons_self, fun t ht => ?_⟩
  rcases mem_append_row ht with ht | ht
  · obtain ⟨y, rfl, hy⟩ := h.le ht
    rcases hy with rfl | hy
    · exact .inr (hx t rfl)
    · exact .inr (RelayStatus.allowed_trans hy (hx y rfl))
  · exact .inl ht

theorem appliedTo_tell (l : List (Uuid × RelayStatus)) (id i : Uuid) (status : RelayStatus) :
    (((l ++ [(id, status)]).filter fun x => x.1 = i).map Prod.snd) =
      ((l.filter fun x => x.1 = i).map Prod.snd) ++ if id = i then [status] else [] := by
  rw [List.filter_append, List.map_append]
  by_cases hi : id = i <;> simp [hi]

theorem RelayInv.furthest_left (h : RelayInv s) (hl : FurthestLaw s) (hr : r ∈ s.db.relays) :
    FurthestLaw { s with applied := s.applied ++ [(r.id, status)] } ↔ Furthest (s.appliedTo r.id ++ [status]) r.attemptStatus := by
  constructor
  · intro hf
    have hrf := hf r hr
    unfold State.appliedTo at hrf ⊢
    rwa [appliedTo_tell, if_pos rfl] at hrf
  · intro hf x hx
    unfold State.appliedTo
    rw [appliedTo_tell]
    by_cases hxr : r.id = x.id
    · obtain rfl := eq_of_key h.keys hr hx hxr
      rw [if_pos rfl]
      exact hf
    · rw [if_neg hxr, List.append_nil]
      exact hl x hx

theorem FurthestLaw.written (hl : FurthestLaw s) (hf : Furthest (s.appliedTo r.id ++ [status]) (some status)) :
    FurthestLaw { s with
      db := { s.db with relays := replaceRow Relay.id (r.told status refusal now) s.db.relays }
      applied := s.applied ++ [(r.id, status)] } := by
  intro x hx
  unfold State.appliedTo
  rw [appliedTo_tell]
  rcases mem_replaceRow hx with rfl | ⟨hx, hne⟩
  · rw [if_pos (show r.id = (r.told status refusal now).id from rfl)]
    exact hf
  · rw [if_neg (show ¬ r.id = x.id from fun he => hne he.symm), List.append_nil]
    exact hl x hx

theorem RelayInv.unconfirmed (h : RelayInv s) (hr : r ∈ s.db.relays) (hp : s.payment r.id = .refused .refund_case_completed) :
    r.attemptStatus = none := by
  cases ho : r.attemptStatus with
  | none => rfl
  | some old =>
    obtain ⟨refusal, hw⟩ := h.was hr ho
    cases old with
    | attempt old =>
      obtain ⟨-, _, _, he, -⟩ := hw
      rw [hp] at he
      cases he
    | rejected =>
      obtain ⟨code, hc, -, he⟩ := h.rejected r hr ho
      rw [hp] at he
      cases he
      exact absurd hc (by decide)

theorem next_refused (hn : outcome.next = some (status, refusal)) (hc : outcome = .refused .refund_case_completed) :
    status = .rejected ∧ refusal = some .refund_case_completed := by
  subst hc
  cases hn
  exact ⟨rfl, rfl⟩

theorem next_unmapped (hn : outcome.next = some (status, refusal)) :
    ((status = .rejected ↔ refusal.isSome) ∧ ∀ c ∈ refusal, c ∈ refusalCodes) ↔ outcome ≠ .refused .refund_case_completed := by
  cases outcome with
  | refused code =>
    cases hn
    cases code <;> simp [refusalCodes]
  | attempt | terminal | pending =>
    cases hn
    simp
  | conflict | unknown => cases hn

theorem live_of_none (h : r.attemptStatus = none) : r.live := by
  unfold Relay.live
  rw [h]
  rfl

theorem live_again {old : RelayStatus} (ho : r.attemptStatus = some old) (hr : r.live = false) (hs : old.allowed status) :
    old = .attempt .failed ∧ status = .attempt .discrepancy := by
  have hold : old.notEffective := by
    unfold Relay.live at hr
    rw [ho] at hr
    simpa using hr
  revert hs hold
  cases old with
  | rejected => exact nofun
  | attempt old =>
    cases status with
    | rejected => exact nofun
    | attempt status => cases old <;> cases status <;> decide

theorem RelayInv.furthest_apply (h : RelayInv s) (hl : FurthestLaw s) (ha : (id, outcome) ∈ s.answers) :
    FurthestLaw (s.apply id outcome now) ↔ s.Mirrors id outcome := by
  cases hn : outcome.next with
  | none =>
    rw [apply_none hn]
    refine ⟨fun _ => ⟨?_, fun hd => ?_⟩, fun _ => hl⟩
    · rintro rfl
      cases hn
    · rw [hn] at hd
      cases hd
  | some next =>
    obtain ⟨status, refusal⟩ := next
    have hw : (s.payment id).Was status refusal := h.answers _ ha status refusal hn
    obtain ⟨r, hr⟩ := h.relay? hw.known
    have hm : Mirror s.db r status refusal now (s.db.mirror id status refusal now) := mirror_cases hr
    obtain ⟨hrm, rfl⟩ := relay?_some hr
    rw [apply_some hn]
    generalize s.db.mirror r.id status refusal now = db at hm
    have hone : ∀ x ∈ s.db.relays, x.id = r.id → x = r := fun x hx he => eq_of_key h.keys hx hrm he
    have hfresh : outcome = .refused .refund_case_completed → r.attemptStatus = none := by
      intro hc
      obtain ⟨rfl, rfl⟩ := next_refused hn hc
      obtain ⟨code, hcode, hp⟩ := hw
      cases hcode
      exact h.unconfirmed hrm hp
    cases hm with
    | same hs =>
      rw [h.furthest_left hl hrm, hs]
      refine ⟨fun _ => ⟨fun hc => ?_, fun hd x hx hxr hf => ?_⟩, fun _ => (hs ▸ hl r hrm).behind (.inl rfl)⟩
      · rw [hfresh hc] at hs
        cases hs
      · obtain rfl := hone x hx hxr
        rw [hn] at hd
        cases hd
        rw [hf] at hs
        cases hs
    | behind old ho hb =>
      have hback : status = old ∨ status.allowed old := by
        obtain ⟨_, hold⟩ := h.was hrm ho
        rcases hold.chain hw with he | ha | ha
        · exact .inl he.symm
        · rw [hb] at ha
          cases ha
        · exact .inr ha
      rw [h.furthest_left hl hrm, ho]
      refine ⟨fun _ => ⟨fun hc => ?_, fun hd x hx hxr hf => ?_⟩, fun _ => (ho ▸ hl r hrm).behind hback⟩
      · rw [hfresh hc] at ho
        cases ho
      · obtain rfl := hone x hx hxr
        rw [hn] at hd
        cases hd
        rw [hf] at ho
        cases ho
        cases hb
    | unmapped hu =>
      have hc : outcome = .refused .refund_case_completed := not_not.mp fun hc => hu ((next_unmapped hn).mpr hc)
      rw [h.furthest_left hl hrm, hfresh hc]
      exact ⟨fun hf => absurd hf (by simp [Furthest]), fun hm => absurd hc hm.1⟩
    | held hs hlive hother =>
      have hdead : r.live = false := by
        by_contra hl
        rw [h.not_otherLive hrm (by simpa using hl)] at hother
        cases hother
      cases ho : r.attemptStatus with
      | none =>
        rw [live_of_none ho] at hdead
        cases hdead
      | some old =>
        obtain ⟨rfl, rfl⟩ := live_again ho hdead (hs old ho)
        obtain ⟨rfl, -⟩ := hw
        rw [h.furthest_left hl hrm, ho]
        refine ⟨fun hf => ?_, fun hm => ?_⟩
        · exact absurd (hf.2 _ (List.mem_append_right _ List.mem_cons_self)) (by decide)
        · rw [hm.2 hn r hrm rfl ho] at hother
          cases hother
    | written hs hmap hc hfree =>
      refine ⟨fun _ => ⟨(next_unmapped hn).mp ⟨hmap, hc⟩, fun hd x hx hxr _ => ?_⟩, fun _ => hl.written ((hl r hrm).ahead hs)⟩
      obtain rfl := hone x hx hxr
      rw [hn] at hd
      cases hd
      exact hfree rfl

theorem RelayInv.furthest_skip (h : RelayInv s) (hl : FurthestLaw s) {seen : Option RelayStatus} (hr : (id, seen) ∈ s.reads)
    (hn : outcome.next.map Prod.fst = seen) : FurthestLaw { s with applied := s.told id outcome } := by
  unfold State.told
  cases ho : outcome.next with
  | none => exact hl
  | some next =>
    rw [ho] at hn
    subst hn
    have hm : (id, next.1) ∈ s.applied := h.reads _ hr next.1 rfl
    obtain ⟨_, hw⟩ := h.applied _ hm
    obtain ⟨r, hrm, rfl⟩ := h.known id hw.known
    obtain ⟨m, hs, hle⟩ := (hl r hrm).le (mem_appliedTo.mpr hm)
    refine (h.furthest_left hl hrm).mpr ?_
    rw [hs]
    exact (hs ▸ hl r hrm).behind hle

theorem RelayInv.furthest_relay (h : RelayInv s) (hl : FurthestLaw s) (id refundCaseId : Uuid) :
    FurthestLaw { s with db := s.db.relay id refundCaseId } := by
  rcases relay_cases s.db id refundCaseId with he | ⟨c, -, -, -, -, hfresh, he⟩
  · rw [he]
    exact hl
  · rw [he]
    intro r hr
    rcases mem_append_row hr with hr | rfl
    · exact hl r hr
    · refine List.eq_nil_iff_forall_not_mem.mpr fun status hs => ?_
      obtain ⟨_, hw⟩ := h.applied _ (mem_appliedTo.mp hs)
      obtain ⟨x, hx, hxi⟩ := h.known _ hw.known
      exact hfresh x hx hxi

theorem RelayInv.furthest_step (h : RelayInv s) (hl : FurthestLaw s) (a : Action) : FurthestLaw (RefundRelays.step s a) ↔ s.Mirrored a := by
  rcases step_cases s a with ⟨hr, ha, hm⟩ | ⟨id, refundCaseId, rfl⟩ | ⟨id, outcome, now, rfl⟩ | ⟨id, seen, outcome, now, rfl⟩
  · refine ⟨fun _ => hm s, fun _ r hrm => ?_⟩
    unfold State.appliedTo
    rw [ha]
    exact hl r (hr ▸ hrm)
  · exact ⟨fun _ => trivial, fun _ => h.furthest_relay hl id refundCaseId⟩
  · unfold RefundRelays.step State.Mirrored
    dsimp only
    split
    · rename_i ha
      rw [h.furthest_apply hl ha]
      exact ⟨fun hm _ => hm, fun hm => hm ha⟩
    · rename_i ha
      exact ⟨fun _ hm => absurd hm ha, fun _ => hl⟩
  · unfold RefundRelays.step State.Mirrored
    dsimp only
    split
    · rename_i ha
      split
      · rename_i hn
        exact ⟨fun _ _ _ hne => absurd hn hne, fun _ => h.furthest_skip hl ha.2 hn⟩
      · rename_i hn
        rw [h.furthest_apply hl ha.1]
        exact ⟨fun hm _ _ _ => hm, fun hm => hm ha.1 ha.2 hn⟩
    · rename_i ha
      exact ⟨fun _ h₁ h₂ => absurd ⟨h₁, h₂⟩ ha, fun _ => hl⟩

/-! ## Cancelled cases -/

theorem apply_cases_kept : (s.apply id outcome now).db.cases = s.db.cases := by
  cases hn : outcome.next with
  | none => rw [apply_none hn]
  | some next =>
    rw [apply_some hn]
    dsimp only
    unfold Db.mirror
    cases s.db.relay? id with
    | none => rfl
    | some current =>
      dsimp only
      split
      · rfl
      · cases s.db.updateRelay current next.1 next.2 now <;> rfl

theorem RelayInv.stays_cancelled (h : RelayInv s) (a : Action) {c : RefundCase} (hc : c ∈ s.db.cases) (hs : c.status = .cancelled) :
    ∃ c' ∈ (RefundRelays.step s a).db.cases, c'.id = c.id ∧ c'.status = .cancelled := by
  have same : ∀ {t : State}, t.db.cases = s.db.cases → ∃ c' ∈ t.db.cases, c'.id = c.id ∧ c'.status = .cancelled :=
    fun he => ⟨c, he ▸ hc, rfl, hs⟩
  -- a case that is not cancelled has another id
  have others : ∀ x ∈ s.db.cases, x.status ≠ .cancelled → c.id ≠ x.id := by
    rintro x hx hne he
    obtain rfl := eq_of_key h.caseKeys hc hx he
    exact hne hs
  unfold RefundRelays.step
  cases a with
  | openCase id paymentId amount currency =>
    dsimp only
    unfold Db.openCase
    split
    · exact same rfl
    · exact ⟨c, List.mem_append_left _ hc, rfl, hs⟩
  | relay id refundCaseId =>
    refine same ?_
    dsimp only
    rcases relay_cases s.db id refundCaseId with he | ⟨_, -, -, -, -, -, he⟩ <;> rw [he]
  | cancel refundCaseId =>
    dsimp only
    unfold Db.cancel
    cases hx : s.db.case? refundCaseId with
    | none => exact same rfl
    | some x =>
      dsimp only
      split
      · exact same rfl
      · rename_i hn
        have hopen : x.status = .open := not_not.mp (not_or.mp hn).1
        exact ⟨c, replaceRow_other hc (others x (case?_some hx).1 (by simp [hopen])), rfl, hs⟩
  | complete z =>
    dsimp only
    rcases complete_cases s.db z with he | ⟨x, hx, hxid, hopen, y, hy, -, completions, he⟩
    · rw [he]
      exact same rfl
    · rw [he]
      exact ⟨c, replaceRow_other hc (hy.trans hxid.symm ▸ others x hx (by simp [hopen])), rfl, hs⟩
  | intend id | refuse id code =>
    refine same ?_
    dsimp only [State.record]
    split <;> rfl
  | move id status receiptId => exact same rfl
  | answer id outcome =>
    refine same ?_
    dsimp only
    split <;> rfl
  | lease id =>
    refine same ?_
    dsimp only
    cases s.db.relay? id <;> rfl
  | apply id outcome now =>
    refine same ?_
    dsimp only
    split
    · exact apply_cases_kept
    · rfl
  | reconcile id seen outcome now =>
    refine same ?_
    dsimp only
    split
    · split
      · rfl
      · exact apply_cases_kept
    · rfl

theorem RelayInv.law (h : RelayInv s) (hl : FurthestLaw s) : MirrorLaw s where
  forward _ _ hr := h.forward _ hr
  furthest := hl
  rejected r hr hs := by
    obtain ⟨code, -, hc⟩ := h.rejected r hr hs
    exact ⟨code, hc⟩
  cancelled c hc hs actions r hr hrc := by
    obtain ⟨c', hc', hid, hs'⟩ : ∃ c' ∈ (actions.foldl RefundRelays.step s).db.cases, c'.id = c.id ∧ c'.status = .cancelled := by
      clear hr hl
      induction actions generalizing s c with
      | nil => exact ⟨c, hc, rfl, hs⟩
      | cons a actions ih =>
        obtain ⟨c₁, hc₁, hid₁, hs₁⟩ := h.stays_cancelled a hc hs
        obtain ⟨c', hc', hid, hs'⟩ := ih (h.step a) c₁ hc₁ hs₁ (hrc.trans hid₁.symm)
        exact ⟨c', hc', hid.trans hid₁, hs'⟩
    obtain ⟨status, hstatus, hu⟩ := (Option.any_eq_true _ _).mp ((h.run actions).cancelled c' hc' hs' r hr (hrc.trans hid.symm))
    obtain ⟨_, hw⟩ := (h.run actions).was hr hstatus
    exact hw.unconsumed hu ((h.run actions).shaped r.id)

theorem FurthestLaw.new : FurthestLaw .new := fun _ hr => absurd hr List.not_mem_nil

/-- **The mirror follows Payment.** In every interleaving, each state of the run keeps the law exactly when every answer that was
applied is one that the mirror takes. -/
theorem relay_mirror (actions : List Action) : (∀ n, MirrorLaw (RefundRelays.run (actions.take n))) ↔ Along RefundRelays.step State.Mirrored .new actions := by
  rw [← Along.everywhere (fun _ a h => h.step a) (fun _ a h hl => h.furthest_step hl a) actions RelayInv.new FurthestLaw.new]
  exact forall_congr' fun n => ⟨fun hl => hl.furthest, fun hl => (RelayInv.new.run _).law hl⟩

/-- What every answer keeps, taken by the mirror or not. -/
structure RelaysLaw (s : State) : Prop where
  live : UniqueOn (fun r => r.live = true) Relay.refundCaseId s.db.relays
  forward : ∀ a, ∀ r ∈ s.db.relays, ∃ r' ∈ (RefundRelays.step s a).db.relays, r.Moves r'
  told : ∀ r ∈ s.db.relays, ∀ status ∈ r.attemptStatus, status ∈ s.appliedTo r.id ∧ ∃ refusal, (s.payment r.id).Was status refusal
  rejected : ∀ r ∈ s.db.relays, r.attemptStatus = some .rejected → ∃ code, r.refusal = some code ∧ s.payment r.id = .refused code
  cancelled : ∀ c ∈ s.db.cases, c.status = .cancelled → (∀ r ∈ s.db.relays, r.refundCaseId = c.id → (s.payment r.id).consumed = false) ∧
    ∀ a, ∃ c' ∈ (RefundRelays.step s a).db.cases, c'.id = c.id ∧ c'.status = .cancelled

/-- **Relays are safe in every run**: one live relay for each case, mirrors that only move forward and only to what Payment said, and
no consumed receipt under a cancelled case. -/
theorem relays_safe (actions : List Action) : RelaysLaw (RefundRelays.run actions) := by
  have h := RelayInv.new.run actions
  refine ⟨h.live, fun a _ hr => h.forward a hr, fun r hr status hs => ⟨?_, h.was hr hs⟩, fun r hr hs => ?_, fun c hc hs => ⟨fun r hr hrc => ?_, ?_⟩⟩
  · exact List.mem_map.mpr ⟨_, List.mem_filter.mpr ⟨h.mirrored r hr status hs, decide_eq_true rfl⟩, rfl⟩
  · obtain ⟨code, -, hcode⟩ := h.rejected r hr hs
    exact ⟨code, hcode⟩
  · obtain ⟨status, hstatus, hu⟩ := (Option.any_eq_true _ _).mp (h.cancelled c hc hs r hr hrc)
    obtain ⟨_, hw⟩ := h.was hr hstatus
    exact hw.unconsumed hu (h.shaped r.id)
  · exact fun a => h.stays_cancelled a hc hs

/-- The first attempt fails, a second relay is sent, and the provider's refund of the first completes the case at Payment. -/
def lateRefund : List Action :=
  [.openCase 1 2 10 "EUR", .relay 3 1, .intend 3, .move 3 .authorized (some 5), .move 3 .dispatching (some 5), .move 3 .failed (some 5),
    .answer 3 (.attempt .failed), .apply 3 (.attempt .failed) 0, .relay 4 1, .move 3 .discrepancy (some 5), .refuse 4 .refund_case_completed,
    .answer 4 (.refused .refund_case_completed), .apply 4 (.refused .refund_case_completed) 0]

theorem lateRefund_unconfirmed : ¬ ∀ (actions : List Action) (n : Nat), MirrorLaw (RefundRelays.run (actions.take n)) := by
  intro h
  have hf := (h lateRefund lateRefund.length).furthest ⟨4, 1, 2, none, none, none⟩ (by decide)
  exact absurd hf (by decide : ¬ ((RefundRelays.run lateRefund).appliedTo 4 = []))


end

end NawaraCore.RefundRelays
