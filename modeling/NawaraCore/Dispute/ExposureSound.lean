import NawaraCore.Dispute.DisputeSound

/-!
# Dispute exposure

Exposure is read from the disputes, the chargebacks, the observations and the notifications
that are recorded at the payment. A notification that is stored but not recorded is none of these.
-/

namespace NawaraCore.Disputes

open Payments (Uuid PaymentError WebhookEventState)

/-! ## When the exposure is clear -/

/-- Neither a dispute nor a chargeback nor a conflict of the payment is left. -/
structure Quiet (s : Db) (paymentId : Uuid) : Prop where
  conflicts : ∀ o ∈ s.observations, o.paymentId = paymentId → o.disposition ≠ .conflict
  disputes : ∀ d ∈ s.disputes, d.paymentId = paymentId →
    d.status ≠ .opened ∧ (d.status = .lost → d.chargebackFactId ≠ none)
  chargebacks : ∀ f ∈ s.chargebacks, f.paymentId ≠ paymentId

theorem sum_pos_of_mem {l : List ChargebackFact} (h : ∀ f ∈ l, 0 < f.amount) (hne : l ≠ []) : 0 < (l.map (·.amount)).sum := by
  induction l with
  | nil => exact absurd rfl hne
  | cons f l ih =>
    rw [List.map_cons, List.sum_cons]
    have hf := h f List.mem_cons_self
    by_cases hl : l = []
    · rw [hl]
      simpa using hf
    · have := ih (fun g hg => h g (List.mem_cons_of_mem f hg)) hl
      omega

section
variable {s t : Db} {paymentId : Uuid}

theorem exposure_clear_iff (h : ∀ f ∈ s.chargebacks, 0 < f.amount) :
    (disputeExposure s paymentId).state = .clear ↔
      Quiet s paymentId ∧ ∀ e ∈ s.notifications, e.pendingAt s.books paymentId = false := by
  have hlen : ∀ {α : Type} (l : List α) (p : α → Bool), 0 < (l.filter p).length ↔ ∃ x ∈ l, p x := by
    intro α l p
    rw [List.length_pos_iff_exists_mem]
    simp only [List.mem_filter]
  unfold disputeExposure
  simp only [hlen, decide_eq_true_eq]
  constructor
  · intro hc
    split at hc
    · cases hc
    rename_i hun
    split at hc
    · cases hc
    rename_i hex
    simp only [not_or, not_exists, not_and] at hun hex
    obtain ⟨hconf, hlost, hpend⟩ := hun
    obtain ⟨hopen, -, hcharged⟩ := hex
    refine ⟨⟨hconf, fun d hd hp => ⟨hopen d hd hp, hlost d hd hp⟩, fun f hf hp => hcharged ?_⟩, ?_⟩
    · refine sum_pos_of_mem (fun g hg => h g (List.mem_of_mem_filter hg)) fun hnil => ?_
      exact List.filter_eq_nil_iff.mp hnil f hf (decide_eq_true hp)
    · intro e he
      simpa using hpend e he
  · rintro ⟨⟨hconf, hdis, hcb⟩, hpend⟩
    have hlive : s.disputes.filter (fun d => d.paymentId = paymentId ∧ d.status = .opened) = [] := by
      rw [List.filter_eq_nil_iff]
      intro d hd hp
      simp only [decide_eq_true_eq] at hp
      exact (hdis d hd hp.1).1 hp.2
    have hnone : s.chargebacks.filter (fun f => f.paymentId = paymentId) = [] := by
      rw [List.filter_eq_nil_iff]
      intro f hf hp
      exact hcb f hf (of_decide_eq_true hp)
    rw [if_neg, if_neg]
    · rw [hlive, hnone]
      rintro (⟨d, hd, hp, hs⟩ | hlt | hlt)
      · exact (hdis d hd hp).1 hs
      · simp at hlt
      · simp at hlt
    · rintro (⟨o, ho, hp, hd⟩ | ⟨d, hd, hp, hs, hn⟩ | ⟨e, he, hp⟩)
      · exact hconf o ho hp hd
      · exact (hdis d hd hp).2 hs hn
      · rw [hpend e he] at hp
        cases hp

end

/-- The notification names an attempt of the payment, and is neither processed nor ignored nor a conflict. -/
def DisputeNotification.waits (b : Books) (paymentId : Uuid) (e : DisputeNotification) : Prop :=
  e.state.settled = false ∧ ∃ a ∈ b.attempts, e.names a ∧ a.paymentId = paymentId

def Db.exposed (s : Db) (paymentId : Uuid) : Prop := (disputeExposure s paymentId).state ≠ .clear

def FailsClosed (s : Db) : Prop := ∀ e ∈ s.notifications, ∀ p, e.waits s.books p → s.exposed p

/-! ## The condition -/

def Db.held (s : Db) (paymentId : Uuid) : Prop :=
  ¬ Quiet s paymentId ∨ ∃ e ∈ s.notifications, e.pendingAt s.books paymentId

def Held (s : Db) : Prop := ∀ e ∈ s.notifications, ∀ p, e.waits s.books p → s.held p

def Db.withoutNotification (s : Db) (id : Uuid) : Db :=
  { s with notifications := s.notifications.filter (·.id ≠ id) }

def Db.withoutDispute (s : Db) (id : Uuid) : Db := { s with disputes := s.disputes.filter (·.id ≠ id) }

/-- A notification comes to wait for a payment only while the payment is held by a row already, and the last row that
holds a payment does not go while another notification waits for it. -/
def Watched (s : Sys) : Action → Prop
  | .keep books => s.db.books.keeps books → ∀ e ∈ s.db.notifications, ∀ p, e.waits books p → s.db.held p
  | .receive r => s.db.findNotification r.id = none → ∀ p, r.row.waits s.db.books p → s.db.held p
  | .process id _ _ => (id, .process) ∈ s.tasks → ∀ e ∈ s.db.notifications, e.id = id →
      ∀ n, e.notice = some n → n.kind = .won →
      ∀ d ∈ s.db.disputes, d.provider = e.provider → d.providerDisputeId = n.providerDisputeId → d.status = .opened →
        Held (s.db.withoutDispute d.id)
  | .mark id state outcome matched => (id, .mark state outcome matched) ∈ s.tasks →
      ∀ e ∈ s.db.notifications, e.id = id →
        let x := e.markState state outcome matched
        if state.settled then Held (s.db.withoutNotification id)
        -- finished by another processing already, and failed by this one
        else if e.state.settled then ∀ p, x.waits s.db.books p → x.pendingAt s.db.books p ∨ s.db.held p
        -- recorded at another attempt before
        else e.matchedAttemptId ≠ none → x.matchedAttemptId ≠ e.matchedAttemptId →
          Held (s.db.replaceNotification { e with matchedAttemptId := none })
  | _ => True

variable {enabled : Bool}

section
variable {s t : Db} {p : Uuid} {e x : DisputeNotification}

theorem exposed_iff (h : ∀ f ∈ s.chargebacks, 0 < f.amount) : s.exposed p ↔ s.held p := by
  rw [Db.exposed, ne_eq, exposure_clear_iff h, not_and_or, Db.held]
  simp

theorem failsClosed_iff (h : DisputeInv s) : FailsClosed s ↔ Held s := by
  unfold FailsClosed Held
  simp only [exposed_iff fun f hf => (h.facts f hf).positive]

theorem held_mono (hq : Quiet t p → Quiet s p)
    (hp : ∀ e ∈ s.notifications, e.pendingAt s.books p → ∃ x ∈ t.notifications, x.pendingAt t.books p)
    (h : s.held p) : t.held p := by
  rcases h with h | ⟨e, hmem, he⟩
  · exact .inl fun hquiet => h (hq hquiet)
  · exact .inr (hp e hmem he)

theorem Quiet.congr (h : Quiet s p) (hd : t.disputes = s.disputes) (hc : t.chargebacks = s.chargebacks)
    (ho : t.observations = s.observations) : Quiet t p :=
  ⟨ho ▸ h.conflicts, hd ▸ h.disputes, hc ▸ h.chargebacks⟩

theorem pendingAt_iff {b : Books} : e.pendingAt b p = true ↔
    e.state.settled = false ∧ ∃ a ∈ b.attempts, some a.id = e.matchedAttemptId ∧ a.paymentId = p := by
  simp [DisputeNotification.pendingAt]

theorem DbStep.ids (h : DbStep s t) (hn : (s.notifications.map (·.id)).Nodup) : (t.notifications.map (·.id)).Nodup := by
  cases h with
  | unchanged => exact hn
  | kept books hk => exact hn
  | stored r hr => exact nodup_append_row hn hr
  | marked e x he hx => exact (map_replaceRow (l := s.notifications) (f := (·.id)) fun _ _ he => he) ▸ hn
  | ingested e n u he hn' hi =>
    cases hi with
    | unchanged => exact hn
    | observed v disposition reason disputeId w hv hp hobs hc => exact hc.rows.2 ▸ hn

theorem Runs.ids {s : Sys} (h : Runs enabled s) : (s.db.notifications.map (·.id)).Nodup := by
  refine h.invariant (P := fun s => (s.db.notifications.map (·.id)).Nodup) ?_ ?_
  · rintro s ⟨books, -, rfl⟩
    exact List.nodup_nil
  · rintro s t hr hi ⟨a, rfl⟩
    exact (step_dbStep enabled (Runs.disputes hr) a).ids hi

/-! ## Steps -/

theorem held_kept {books : Books} (hk : s.books.keeps books) (h : s.held p) : Db.held { s with books } p := by
  simp only [Books.keeps, Bool.and_eq_true, List.all_eq_true, List.any_eq_true, decide_eq_true_eq] at hk
  refine held_mono (s := s) (fun hq => hq.congr rfl rfl rfl) (fun e he hp => ⟨e, he, ?_⟩) h
  obtain ⟨hs, a, ha, hid, hap⟩ := pendingAt_iff.mp hp
  obtain ⟨y, hy, hya, hyp, -⟩ := hk.2 a ha
  exact pendingAt_iff.mpr ⟨hs, y, hy, by rw [hya, hid], hyp.trans hap⟩

theorem held_stored {row : DisputeNotification} (h : s.held p) :
    Db.held { s with notifications := s.notifications ++ [row] } p :=
  held_mono (s := s) (fun hq => hq.congr rfl rfl rfl) (fun e he hp => ⟨e, List.mem_append_left _ he, hp⟩) h

theorem Held.stored {r : Received} (h : Held s) (hw : ∀ p, r.row.waits s.books p → s.held p) :
    Held { s with notifications := s.notifications ++ [r.row] } := by
  intro e he p hp
  rcases mem_append_row he with he | rfl
  · exact held_stored (h e he p hp)
  · exact held_stored (hw p hp)

theorem Reported.unquiet {cs : List ChargebackFact} {v : Delivery} {d : Dispute} {f : ChargebackFact}
    (hf : Reported cs v d (some f)) (ha : AboutDispute v d) (ht : f ∈ t.chargebacks) : ¬ Quiet t d.paymentId :=
  fun hq => hq.chargebacks f ht ((hf.disputeId rfl).2.trans ha.paymentId.symm)

theorem Change.quiet (hn : (s.disputes.map (·.id)).Nodup) {v : Delivery} {o : Outcome} (hc : Change s v o t) (hq : Quiet t p) :
    Quiet s p ∨ ∃ d ∈ s.disputes, AboutDispute v d ∧ d.status = .opened ∧ v.notice.kind = .won ∧
      Quiet (s.withoutDispute d.id) p := by
  have hsole : ∀ d ∈ s.disputes, ∀ y ∈ s.disputes, y.id = d.id → y = d := fun d hd y hy => eq_of_key hn hy hd
  cases hc with
  | noted o ho => exact .inl hq
  | recorded capture basis fact hb hx hc hf =>
    exact .inl ⟨hq.conflicts, fun d hd => hq.disputes d (List.mem_append_left _ hd),
      fun f hf => hq.chargebacks f (List.mem_append_left _ hf)⟩
  | closed d fact hd ha hs hk hf =>
    have hother : ∀ y ∈ s.disputes, y.id ≠ d.id → y.paymentId = p →
        y.status ≠ .opened ∧ (y.status = .lost → y.chargebackFactId ≠ none) :=
      fun y hy hne => hq.disputes y (replaceRow_other hy hne)
    by_cases hwon : v.notice.kind = .won
    · refine .inr ⟨d, hd, ha, hs, hwon, hq.conflicts, fun y hy => ?_, fun f hf => hq.chargebacks f (List.mem_append_left _ hf)⟩
      obtain ⟨hy, hne⟩ := List.mem_filter.mp hy
      exact hother y hy (of_decide_eq_true hne)
    · have hlost : v.notice.kind = .lost := by
        cases hv : v.notice.kind with
        | opened => exact absurd hv hk
        | won => exact absurd hv hwon
        | lost => rfl
      refine .inl ⟨hq.conflicts, fun y hy hp => ?_, fun f hf => hq.chargebacks f (List.mem_append_left _ hf)⟩
      by_cases hid : y.id = d.id
      · obtain rfl := hsole d hd y hy hid
        cases fact with
        | none =>
          have hrow := hq.disputes ((y.closed v.notice).link none) (replaceRow_mem hd rfl) hp
          exact absurd rfl (hrow.2 (congrArg DisputeKind.status hlost))
        | some f => exact absurd (hp ▸ hq) (hf.unquiet ha (List.mem_append_right _ (List.mem_singleton_self f)))
      · exact hother y hy hid hp
  | evidence d fact hd ha hs hn' hf =>
    refine .inl ⟨hq.conflicts, fun y hy hp => ?_, fun f hf => hq.chargebacks f (List.mem_append_left _ hf)⟩
    by_cases hid : y.id = d.id
    · obtain rfl := hsole d hd y hy hid
      exact absurd (hp ▸ hq) (hf.unquiet ha (List.mem_append_right _ (List.mem_singleton_self fact)))
    · exact hq.disputes y (replaceRow_other hy hid) hp

theorem Held.ingested (h : Held s) (hn : (s.disputes.map (·.id)).Nodup) {id : Uuid} {provider : String} {n : DisputeNotice}
    (hi : Ingested s id provider n t) (hw : n.kind = .won → ∀ d ∈ s.disputes, d.provider = provider →
      d.providerDisputeId = n.providerDisputeId → d.status = .opened → Held (s.withoutDispute d.id)) : Held t := by
  cases hi with
  | unchanged => exact h
  | observed v disposition reason disputeId u hv hp hobs hc =>
    obtain ⟨rfl, rfl⟩ := hv
    obtain ⟨hb, hnot⟩ := hc.rows
    intro e he p hwait
    have he : e ∈ s.notifications := hnot ▸ he
    have hwait : e.waits s.books p := hb ▸ hwait
    by_cases hq : Quiet u p
    · rcases hc.quiet hn hq with hq' | ⟨d, hd, ha, hs, hk, hq'⟩
      · refine held_mono (fun _ => hq') (fun x hx hpx => ⟨x, hnot ▸ hx, ?_⟩) (h e he p hwait)
        show x.pendingAt u.books p
        rw [hb]; exact hpx
      · have hheld := hw hk d hd (ha.provider.trans hp) ha.providerDisputeId hs e he p hwait
        refine held_mono (fun _ => hq') (fun x hx hpx => ⟨x, hnot ▸ hx, ?_⟩) hheld
        show x.pendingAt u.books p
        rw [hb]; exact hpx
    · exact .inl fun hq' => hq ⟨fun o ho => hq'.conflicts o (List.mem_append_left _ ho), hq'.disputes, hq'.chargebacks⟩

theorem held_replaced (hn : (s.notifications.map (·.id)).Nodup) (he : e ∈ s.notifications) (hx : x.id = e.id)
    (hkeep : e.pendingAt s.books p → x.pendingAt s.books p) (h : s.held p) : (s.replaceNotification x).held p := by
  refine held_mono (s := s) (fun hq => hq.congr rfl rfl rfl) (fun z hz hp => ?_) h
  by_cases hid : z.id = x.id
  · obtain rfl := eq_of_key hn hz he (hid.trans hx)
    exact ⟨x, replaceRow_mem hz hid, hkeep hp⟩
  · exact ⟨z, replaceRow_other hz hid, hp⟩

theorem Held.replaced (h : Held s) (hn : (s.notifications.map (·.id)).Nodup) (he : e ∈ s.notifications) (hx : x.id = e.id)
    (hkeep : ∀ p, e.pendingAt s.books p → x.pendingAt s.books p)
    (hw : ∀ p, x.waits s.books p → x.pendingAt s.books p ∨ s.held p) : Held (s.replaceNotification x) := by
  intro y hy p hp
  rcases mem_replaceRow hy with rfl | ⟨hy, -⟩
  · rcases hw p hp with hpend | hheld
    · exact .inr ⟨y, hy, hpend⟩
    · exact held_replaced hn he hx (hkeep p) hheld
  · exact held_replaced hn he hx (hkeep p) (h y hy p hp)

variable {outcome : Option String}

theorem Held.marked (h : Held s) (hn : (s.notifications.map (·.id)).Nodup) (he : e ∈ s.notifications)
    {state : WebhookEventState} {matched : Option Uuid}
    (hw : let x := e.markState state outcome matched
      if state.settled then Held (s.withoutNotification e.id)
      else if e.state.settled then ∀ p, x.waits s.books p → x.pendingAt s.books p ∨ s.held p
      else e.matchedAttemptId ≠ none → x.matchedAttemptId ≠ e.matchedAttemptId →
        Held (s.replaceNotification { e with matchedAttemptId := none })) :
    Held (s.replaceNotification (e.markState state outcome matched)) := by
  dsimp only at hw
  split at hw
  · rename_i hset
    intro y hy p hp
    rcases mem_replaceRow hy with rfl | ⟨hy, hne⟩
    · rw [DisputeNotification.waits, show (e.markState state outcome matched).state.settled = true from hset] at hp
      exact absurd hp.1 nofun
    · refine held_mono (s := s.withoutNotification e.id) (fun hq => hq.congr rfl rfl rfl) (fun z hz hp => ?_)
        (hw y (List.mem_filter.mpr ⟨hy, decide_eq_true hne⟩) p hp)
      obtain ⟨hz, hid⟩ := List.mem_filter.mp hz
      exact ⟨z, replaceRow_other hz (of_decide_eq_true hid), hp⟩
  rename_i hset
  split at hw
  · rename_i heset
    refine h.replaced hn he rfl (fun p hp => ?_) hw
    rw [(pendingAt_iff.mp hp).1] at heset
    cases heset
  rename_i heset
  have hset : (e.markState state outcome matched).state.settled = false := Bool.eq_false_iff.mpr hset
  have heset : e.state.settled = false := Bool.eq_false_iff.mpr heset
  by_cases hmoved : e.matchedAttemptId ≠ none ∧ (e.markState state outcome matched).matchedAttemptId ≠ e.matchedAttemptId
  · let e' : DisputeNotification := { e with matchedAttemptId := none }
    have hcleared := hw hmoved.1 hmoved.2
    have he' : e' ∈ (s.replaceNotification e').notifications := replaceRow_mem he rfl
    have hn' : ((s.replaceNotification e').notifications.map (·.id)).Nodup :=
      (map_replaceRow (l := s.notifications) (f := (·.id)) fun _ _ h => h) ▸ hn
    have hnone : ∀ p, ¬ e'.pendingAt s.books p := by
      intro p hp
      obtain ⟨-, a, -, hid, -⟩ := pendingAt_iff.mp hp
      cases hid
    have htwice : s.replaceNotification (e.markState state outcome matched) =
        (s.replaceNotification e').replaceNotification (e.markState state outcome matched) := by
      have := replaceRow_replaceRow (k := (·.id)) (l := s.notifications) (a := e') (b := e.markState state outcome matched) rfl
      exact congrArg (fun l => { s with notifications := l }) this.symm
    rw [htwice]
    refine hcleared.replaced hn' he' rfl (fun p hp => absurd hp (hnone p)) fun p hp => .inr (hcleared e' he' p ?_)
    exact ⟨heset, hp.2⟩
  · refine h.replaced hn he rfl (fun p hp => ?_) fun p hp => .inr (h e he p ⟨heset, hp.2⟩)
    obtain ⟨-, a, ha, hid, hap⟩ := pendingAt_iff.mp hp
    refine pendingAt_iff.mpr ⟨hset, a, ha, ?_, hap⟩
    have hsame : (e.markState state outcome matched).matchedAttemptId = e.matchedAttemptId := by
      by_contra hne
      exact hmoved ⟨by rw [← hid]; nofun, hne⟩
    rw [hsame, hid]

theorem Held.exhausted (h : Held s) (hn : (s.notifications.map (·.id)).Nodup) (he : e ∈ s.notifications)
    (hs : e.state.settled = false) :
    Held (s.replaceNotification { e with state := .failed, outcome }) := by
  refine h.replaced hn he rfl (fun p hp => ?_) fun p hp => .inr (h e he p ⟨hs, hp.2⟩)
  exact pendingAt_iff.mpr ⟨rfl, (pendingAt_iff.mp hp).2⟩

end

section
variable {enabled : Bool} {s : Sys}

theorem Held.process (h : Runs enabled s) (hh : Held s.db) {e : DisputeNotification} {fd ff : Uuid}
    (hw : ∀ n, e.notice = some n → n.kind = .won → ∀ d ∈ s.db.disputes, d.provider = e.provider →
      d.providerDisputeId = n.providerDisputeId → d.status = .opened → Held (s.db.withoutDispute d.id)) :
    Held (process enabled s e fd ff).db := by
  have hinv := Runs.disputes h
  unfold Disputes.process
  dsimp only
  split
  · exact hh
  split
  · exact hh
  rename_i n hn
  split
  · rename_i t r hr
    exact hh.ingested hinv.ids (ingest_ok (fun d hd hs => (hinv.disputes d hd).unfunded (by rw [hs]; nofun)) hr) (hw n hn)
  · exact hh

theorem Held.step (h : Runs enabled s) (hh : Held s.db) (a : Action) (hw : Watched s a) : Held (step enabled s a).db := by
  have hn := Runs.ids h
  cases a with
  | keep books =>
    simp only [Disputes.step]
    split
    · rename_i hk
      exact fun e he p hp => held_kept hk (hw hk e he p hp)
    · exact hh
  | receive r =>
    simp only [Disputes.step, receive]
    split
    · rename_i hnone
      exact hh.stored (hw hnone)
    · split <;> exact hh
  | retry id =>
    simp only [Disputes.step, retry]
    split
    · exact hh
    · split <;> exact hh
  | exhaust id =>
    simp only [Disputes.step, exhaust]
    split
    · exact hh
    rename_i e he
    split
    · rename_i hr
      simp only [DisputeNotification.retryable, Bool.and_eq_true, Bool.not_eq_true'] at hr
      exact hh.exhausted hn (findNotification_mem he).1 hr.1.1
    · exact hh
  | process id fd ff =>
    simp only [Disputes.step]
    split
    · rename_i ht
      split
      · exact hh
      rename_i e he
      obtain ⟨hmem, hid⟩ := findNotification_mem he
      exact Held.process h hh (hw ht e hmem hid)
    · exact hh
  | fail id task =>
    simp only [Disputes.step]
    split <;> exact hh
  | mark id state outcome matched =>
    simp only [Disputes.step]
    split
    · rename_i ht
      split
      · exact hh
      rename_i e he
      obtain ⟨hmem, rfl⟩ := findNotification_mem he
      exact hh.marked hn hmem (hw ht e hmem rfl)
    · exact hh
  | drop id task => exact hh

end

theorem Held.run {as : List Action} : ∀ {s : Sys}, Runs enabled s → Held s.db →
    Along (Disputes.step enabled) Watched s as → Held (run enabled s as).db := by
  induction as with
  | nil => exact fun _ hh _ => hh
  | cons a as ih =>
    intro s h hh hw
    have hnext : Runs enabled (Disputes.step enabled s a) := .step h ⟨a, rfl⟩
    exact ih hnext (Held.step h hh a hw.1) hw.2

def settledBooks : Books :=
  { payments := [⟨1, .succeeded, some 10, some false⟩]
    attempts := [⟨10, 1, "fake", some "tx-10"⟩]
    captures := [⟨100, 1, 10, "fake", 1000, "EUR", false, false⟩] }

def openedNotice : DisputeNotice := ⟨.opened, "dp-1", 1000, "EUR", none, none, none⟩

def disputeActions : List Action :=
  [.receive ⟨1, "fake", "tx-10", some openedNotice⟩, .process 1 50 60,
    .mark 1 .processed (some "payment_dispute:50:applied") (some 10)]

def lossActions : List Action :=
  [.receive ⟨2, "fake", "tx-10", some { openedNotice with kind := .lost }⟩, .fail 2 .process,
    .mark 2 .failed (some "transient_error") none]

end NawaraCore.Disputes
