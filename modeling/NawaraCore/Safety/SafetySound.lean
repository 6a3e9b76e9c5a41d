import Mathlib.Data.List.Dedup
import NawaraCore.Lib.Runs
import NawaraCore.Safety.FinancialSafety

/-!
# When the financial safety check raises a false alarm

Whatever Billing holds was caused by Payment, so a scan of both at one instant finds nothing.
The scan reads Payment's losses before Billing's, and Billing's relays before Payment's
attempts: it finds something exactly when a record reached the other side between the two.
-/

namespace NawaraCore.Safety

open Refunds (RefundAttemptStatus canTransition)

def allStatuses : List RefundAttemptStatus :=
  [.authorizationPending, .authorized, .authorizationExpired, .authorizationRefused, .dispatching, .submitted, .succeeded,
    .failed, .unknown, .discrepancy]

theorem mem_allStatuses (s : RefundAttemptStatus) : s ∈ allStatuses := by
  cases s <;> decide

theorem paymentNotBehind_refl (s : RefundAttemptStatus) : paymentNotBehind s s = true := by
  simp [paymentNotBehind]

theorem paymentNotBehind_moves : ∀ b ∈ allStatuses, ∀ p ∈ allStatuses, ∀ q ∈ allStatuses, canTransition p q = true →
    paymentNotBehind b p = true → paymentNotBehind b q = true := by
  decide

theorem paymentNotBehind_step {b p q : RefundAttemptStatus} (h : canTransition p q = true) (hb : paymentNotBehind b p = true) :
    paymentNotBehind b q = true :=
  paymentNotBehind_moves b (mem_allStatuses b) p (mem_allStatuses p) q (mem_allStatuses q) h hb

/-! ## What Payment caused -/

def Payment.holds (p : Payment) (id : Uuid) : RelayStatus → Prop
  | .attempt status => ∃ a ∈ p.attempts, a.refundAttemptId = id ∧ paymentNotBehind status a.status = true
  | .rejected => ∃ r ∈ p.refusals, r.refundAttemptId = id

/-- Every record that Billing holds was caused by Payment's committed state. -/
structure Caused (s : Sys) : Prop where
  lossKeys : (s.payment.losses.map PaymentLoss.disputeId).Nodup
  lossTimes : ∀ l ∈ s.payment.losses, l.committedAt < s.clock
  lossPayments : ∀ l ∈ s.payment.losses, l.paymentId ∈ s.payment.payments
  billingLosses : ∀ l ∈ s.billing.losses, ∃ x ∈ s.payment.losses, x.disputeId = l.disputeId ∧ x.paymentId = l.paymentId
  relayKeys : (s.billing.relays.map Relay.id).Nodup
  relayTimes : ∀ r ∈ s.billing.relays, r.requestedAt < s.clock
  relayPayments : ∀ r ∈ s.billing.relays, r.paymentId ∈ s.payment.payments
  mirrored : ∀ r ∈ s.billing.relays, ∀ status, r.attemptStatus = some status → s.payment.holds r.id status
  answered : ∀ x ∈ s.answers, s.payment.holds x.1 x.2
  attemptKeys : (s.payment.attempts.map RefundAttempt.refundAttemptId).Nodup
  attemptRelay : ∀ a ∈ s.payment.attempts, ∃ r ∈ s.billing.relays, r.id = a.refundAttemptId ∧ r.paymentId = a.paymentId
  refusalRelay : ∀ x ∈ s.payment.refusals, ∃ r ∈ s.billing.relays, r.id = x.refundAttemptId ∧ r.paymentId = x.paymentId
  authorizationPayments : ∀ z ∈ s.payment.authorizations, z.paymentId ∈ s.payment.payments
  completed : ∀ c ∈ s.billing.completed, ∃ z ∈ s.payment.authorizations, z.refundCaseId = c.id ∧ z.paymentId = c.paymentId ∧
    z.completed = true

/-- What a step keeps of Payment's records and of the identity of the relays. -/
structure Grown (s t : Sys) : Prop where
  payments : s.payment.payments ⊆ t.payment.payments
  holds : ∀ id status, s.payment.holds id status → t.payment.holds id status
  completions : ∀ c p, (∃ z ∈ s.payment.authorizations, z.refundCaseId = c ∧ z.paymentId = p ∧ z.completed = true) →
    ∃ z ∈ t.payment.authorizations, z.refundCaseId = c ∧ z.paymentId = p ∧ z.completed = true
  relays : ∀ r ∈ s.billing.relays, ∃ x ∈ t.billing.relays, x.id = r.id ∧ x.paymentId = r.paymentId
  lossPages : ∀ g : Pager PaymentLoss Uuid, g.Covers PaymentLoss.disputeId PaymentLoss.committedAt s.clock s.payment.losses →
    g.Covers PaymentLoss.disputeId PaymentLoss.committedAt t.clock t.payment.losses
  relayPages : ∀ g : Pager Relay Uuid, g.Covers Relay.id Relay.requestedAt s.clock s.billing.relays →
    g.Covers Relay.id Relay.requestedAt t.clock t.billing.relays

variable {s t : Sys}

theorem Grown.of_same (hc : t.clock = s.clock + 1) (hp : t.payment.payments = s.payment.payments)
    (hl : t.payment.losses = s.payment.losses) (hr : t.billing.relays = s.billing.relays)
    (hh : ∀ id status, s.payment.holds id status → t.payment.holds id status)
    (hz : ∀ c p, (∃ z ∈ s.payment.authorizations, z.refundCaseId = c ∧ z.paymentId = p ∧ z.completed = true) →
      ∃ z ∈ t.payment.authorizations, z.refundCaseId = c ∧ z.paymentId = p ∧ z.completed = true) : Grown s t := by
  refine ⟨by rw [hp]; exact List.Subset.refl _, hh, hz, by rw [hr]; exact fun r hr => ⟨r, hr, rfl, rfl⟩, fun g hg => ?_, fun g hg => ?_⟩
  · rw [hl, hc]
    exact hg.keep rfl (Nat.le_succ _)
  · rw [hr, hc]
    exact hg.keep rfl (Nat.le_succ _)

theorem Caused.of_grown (h : Caused s) (hg : Grown s t) (hc : t.clock = s.clock + 1)
    (hl : t.payment.losses = s.payment.losses) (hbl : t.billing.losses = s.billing.losses) (hr : t.billing.relays = s.billing.relays)
    (ha : ∀ x ∈ t.answers, t.payment.holds x.1 x.2) (hak : (t.payment.attempts.map RefundAttempt.refundAttemptId).Nodup)
    (har : ∀ a ∈ t.payment.attempts, ∃ r ∈ s.billing.relays, r.id = a.refundAttemptId ∧ r.paymentId = a.paymentId)
    (hrr : ∀ x ∈ t.payment.refusals, ∃ r ∈ s.billing.relays, r.id = x.refundAttemptId ∧ r.paymentId = x.paymentId)
    (hz : ∀ z ∈ t.payment.authorizations, z.paymentId ∈ t.payment.payments)
    (hcc : ∀ c ∈ t.billing.completed, ∃ z ∈ t.payment.authorizations, z.refundCaseId = c.id ∧ z.paymentId = c.paymentId ∧
      z.completed = true) : Caused t := by
  refine ⟨by rw [hl]; exact h.lossKeys, ?_, ?_, ?_, by rw [hr]; exact h.relayKeys, ?_, ?_, ?_, ha, hak, by rw [hr]; exact har,
    by rw [hr]; exact hrr, hz, hcc⟩
  · rw [hl, hc]
    exact fun l hm => Nat.lt_succ_of_lt (h.lossTimes l hm)
  · rw [hl]
    exact fun l hm => hg.payments (h.lossPayments l hm)
  · rw [hl, hbl]
    exact h.billingLosses
  · rw [hr, hc]
    exact fun r hm => Nat.lt_succ_of_lt (h.relayTimes r hm)
  · rw [hr]
    exact fun r hm => hg.payments (h.relayPayments r hm)
  · rw [hr]
    exact fun r hm status hs => hg.holds _ _ (h.mirrored r hm status hs)

variable {id : Uuid} {status : RelayStatus}

theorem answer_holds {p : Payment} (h : p.answer id = some status) : p.holds id status := by
  unfold Payment.answer at h
  split at h
  · rename_i a ha
    cases h
    exact ⟨a, List.mem_of_find?_eq_some ha, by simpa using List.find?_some ha, paymentNotBehind_refl _⟩
  · split at h
    · rename_i hr
      cases h
      simpa [Payment.holds] using hr
    · cases h

theorem holds_mono {p q : Payment} (h : p.holds id status) (hr : p.refusals ⊆ q.refusals)
    (ha : ∀ a ∈ p.attempts, ∃ b ∈ q.attempts, b.refundAttemptId = a.refundAttemptId ∧
      ∀ s, paymentNotBehind s a.status = true → paymentNotBehind s b.status = true) : q.holds id status := by
  cases status with
  | attempt st =>
    obtain ⟨a, hm, hid, hb⟩ := h
    obtain ⟨b, hbm, hbi, hbs⟩ := ha a hm
    exact ⟨b, hbm, hbi.trans hid, hbs st hb⟩
  | rejected =>
    obtain ⟨r, hm, hid⟩ := h
    exact ⟨r, hr hm, hid⟩

theorem attempts_keep {as bs : List RefundAttempt} (h : as ⊆ bs) : ∀ a ∈ as, ∃ b ∈ bs, b.refundAttemptId = a.refundAttemptId ∧
    ∀ s, paymentNotBehind s a.status = true → paymentNotBehind s b.status = true :=
  fun a ha => ⟨a, h ha, rfl, fun _ hs => hs⟩

/-! ## The activity -/

theorem relay_find {relays : List Relay} {r : Relay} (h : (relays.find? fun r => r.id = id) = some r) :
    r ∈ relays ∧ r.id = id :=
  ⟨List.mem_of_find?_eq_some h, by simpa using List.find?_some h⟩

theorem unused_iff {p : Payment} : p.unused id = true ↔
    (∀ a ∈ p.attempts, a.refundAttemptId ≠ id) ∧ ∀ r ∈ p.refusals, r.refundAttemptId ≠ id := by
  simp [Payment.unused]

inductive Acted (s : Sys) : Payment → Billing → Prop
  | nothing : Acted s s.payment s.billing
  | payment (p : Uuid) : Acted s { s.payment with payments := s.payment.payments ++ [p] } s.billing
  | loss {d p : Uuid} (hp : p ∈ s.payment.payments) (hf : ∀ l ∈ s.payment.losses, l.disputeId ≠ d) :
    Acted s { s.payment with losses := s.payment.losses ++ [⟨d, p, s.clock⟩] } s.billing
  | billingLoss {l : PaymentLoss} (hl : l ∈ s.payment.losses) :
    Acted s s.payment { s.billing with losses := s.billing.losses ++ [⟨l.disputeId, l.paymentId⟩] }
  | relay {id p : Uuid} (c : Uuid) (hp : p ∈ s.payment.payments) (hf : ∀ r ∈ s.billing.relays, r.id ≠ id) :
    Acted s s.payment { s.billing with relays := s.billing.relays ++ [⟨id, p, c, none, s.clock⟩] }
  | attempt {r : Relay} (hr : r ∈ s.billing.relays) (hn : s.payment.unused r.id = true) :
    Acted s { s.payment with attempts := s.payment.attempts ++ [⟨r.id, r.paymentId, .authorizationPending⟩] } s.billing
  | moved {a : RefundAttempt} {status : RefundAttemptStatus} (ha : a ∈ s.payment.attempts) (ht : canTransition a.status status = true) :
    Acted s { s.payment with attempts := replaceRow RefundAttempt.refundAttemptId { a with status } s.payment.attempts } s.billing
  | refusal {r : Relay} (hr : r ∈ s.billing.relays) :
    Acted s { s.payment with refusals := s.payment.refusals ++ [⟨r.id, r.paymentId⟩] } s.billing
  | authorization {r : Relay} (id : Uuid) (hr : r ∈ s.billing.relays) :
    Acted s { s.payment with authorizations := s.payment.authorizations ++ [⟨id, r.refundCaseId, r.paymentId, false⟩] } s.billing
  | completion (id : Uuid) : Acted s { s.payment with
      authorizations := s.payment.authorizations.map fun z => if z.refundAttemptId = id then { z with completed := true } else z } s.billing
  | mirrored {r : Relay} {status : RelayStatus} (hr : r ∈ s.billing.relays) (ha : (r.id, status) ∈ s.answers) :
    Acted s s.payment { s.billing with relays := replaceRow Relay.id { r with attemptStatus := some status } s.billing.relays }
  | closed {z : RefundAuthorization} (hz : z ∈ s.payment.authorizations) (hc : z.completed = true) :
    Acted s s.payment { s.billing with completed := s.billing.completed ++ [⟨z.refundCaseId, z.paymentId⟩] }

theorem act_acted (s : Sys) (a : Action) : Acted s (act s a).1 (act s a).2 := by
  cases a with
  | createPayment p => exact .payment p
  | commitLoss d p =>
    rw [act]
    split
    · rename_i h
      exact .loss h.1 (by simpa using h.2)
    · exact .nothing
  | recordLoss d =>
    rw [act]
    split
    · exact .nothing
    · rename_i l hl
      split
      · obtain rfl : l.disputeId = d := by simpa using List.find?_some hl
        exact .billingLoss (List.mem_of_find?_eq_some hl)
      · exact .nothing
  | relay id p c =>
    rw [act]
    split
    · rename_i h
      exact .relay c h.1 (by simpa using h.2)
    · exact .nothing
  | createAttempt id =>
    rw [act]
    split
    · exact .nothing
    · rename_i r hr
      obtain ⟨hm, rfl⟩ := relay_find hr
      split
      · exact .attempt hm ‹_›
      · exact .nothing
  | moveAttempt id status =>
    rw [act]
    split
    · exact .nothing
    · rename_i a ha
      split
      · exact .moved (List.mem_of_find?_eq_some ha) ‹_›
      · exact .nothing
  | refuse id =>
    rw [act]
    split
    · exact .nothing
    · rename_i r hr
      obtain ⟨hm, rfl⟩ := relay_find hr
      split
      · exact .refusal hm
      · exact .nothing
  | authorize id =>
    rw [act]
    split
    · exact .nothing
    · exact .authorization id (relay_find ‹_›).1
  | completeAuthorization id => exact .completion id
  | mirror id status =>
    rw [act]
    split
    · exact .nothing
    · rename_i r hr
      obtain ⟨hm, rfl⟩ := relay_find hr
      split
      · rename_i h
        exact .mirrored hm h.1
      · exact .nothing
  | completeCase c =>
    rw [act]
    split
    · exact .nothing
    · rename_i z hz
      have hc : z.refundCaseId = c ∧ z.completed = true := by simpa using List.find?_some hz
      obtain ⟨rfl, hc⟩ := hc
      split
      · exact .closed (List.mem_of_find?_eq_some hz) hc
      · exact .nothing
  | answer _ => exact .nothing
  | scan => exact .nothing

section
variable {s : Sys} {p : Payment} {b : Billing}

theorem Acted.caused (ha : Acted s p b) (h : Caused s) (scan : Scan) :
    Caused ⟨s.clock + 1, p, b, s.answers, scan⟩ ∧ Grown s ⟨s.clock + 1, p, b, s.answers, scan⟩ := by
  -- the actions that leave the losses and the relays as they are
  have others : ∀ {p' : Payment} {b' : Billing}, p'.losses = s.payment.losses → b'.losses = s.billing.losses → b'.relays = s.billing.relays →
      Grown s ⟨s.clock + 1, p', b', s.answers, scan⟩ → (p'.attempts.map RefundAttempt.refundAttemptId).Nodup →
      (∀ a ∈ p'.attempts, ∃ r ∈ s.billing.relays, r.id = a.refundAttemptId ∧ r.paymentId = a.paymentId) →
      (∀ x ∈ p'.refusals, ∃ r ∈ s.billing.relays, r.id = x.refundAttemptId ∧ r.paymentId = x.paymentId) →
      (∀ z ∈ p'.authorizations, z.paymentId ∈ p'.payments) →
      (∀ c ∈ b'.completed, ∃ z ∈ p'.authorizations, z.refundCaseId = c.id ∧ z.paymentId = c.paymentId ∧ z.completed = true) →
      Caused ⟨s.clock + 1, p', b', s.answers, scan⟩ ∧ Grown s ⟨s.clock + 1, p', b', s.answers, scan⟩ :=
    fun hl hbl hr hg h₁ h₂ h₃ h₄ h₅ => ⟨h.of_grown hg rfl hl hbl hr (fun x hx => hg.holds _ _ (h.answered x hx)) h₁ h₂ h₃ h₄ h₅, hg⟩
  have later : ∀ l ∈ s.payment.losses, l.committedAt < s.clock + 1 := fun l hl => Nat.lt_succ_of_lt (h.lossTimes l hl)
  have asked : ∀ r ∈ s.billing.relays, r.requestedAt < s.clock + 1 := fun r hr => Nat.lt_succ_of_lt (h.relayTimes r hr)
  have keeps : ∀ {q : Payment}, s.payment.refusals ⊆ q.refusals → s.payment.attempts ⊆ q.attempts →
      ∀ id status, s.payment.holds id status → q.holds id status := fun hr ha _ _ hh => holds_mono hh hr (attempts_keep ha)
  have same := List.Subset.refl s.payment.attempts
  cases ha with
  | nothing =>
    exact others rfl rfl rfl (.of_same rfl rfl rfl rfl (fun _ _ hh => hh) (fun _ _ hz => hz)) h.attemptKeys h.attemptRelay h.refusalRelay
      h.authorizationPayments h.completed
  | payment p =>
    have hg : Grown s ⟨s.clock + 1, { s.payment with payments := s.payment.payments ++ [p] }, s.billing, s.answers, scan⟩ :=
      ⟨List.subset_append_left _ _, keeps (List.Subset.refl _) same, fun _ _ hz => hz, fun r hr => ⟨r, hr, rfl, rfl⟩,
        fun g hg => hg.keep rfl (Nat.le_succ _), fun g hg => hg.keep rfl (Nat.le_succ _)⟩
    exact others rfl rfl rfl hg h.attemptKeys h.attemptRelay h.refusalRelay (fun z hz => hg.payments (h.authorizationPayments z hz)) h.completed
  | @loss d p hp hf =>
    have hh := @keeps { s.payment with losses := s.payment.losses ++ [⟨d, p, s.clock⟩] } (List.Subset.refl _) same
    exact ⟨⟨nodup_append_row h.lossKeys hf, forall_mem_append_row later (Nat.lt_succ_self _), forall_mem_append_row h.lossPayments hp,
      fun l hl => (by obtain ⟨x, hx, hxl⟩ := h.billingLosses l hl; exact ⟨x, List.mem_append_left _ hx, hxl⟩), h.relayKeys, asked, h.relayPayments,
      fun r hr st hs => hh _ _ (h.mirrored r hr st hs), fun x hx => hh _ _ (h.answered x hx), h.attemptKeys, h.attemptRelay, h.refusalRelay,
      h.authorizationPayments, h.completed⟩, ⟨List.Subset.refl _, hh, fun _ _ hz => hz, fun r hr => ⟨r, hr, rfl, rfl⟩,
      fun g hg => hg.append hf rfl (Nat.le_succ _), fun g hg => hg.keep rfl (Nat.le_succ _)⟩⟩
  | @billingLoss l hl =>
    exact ⟨⟨h.lossKeys, later, h.lossPayments, forall_mem_append_row h.billingLosses ⟨l, hl, rfl, rfl⟩, h.relayKeys, asked, h.relayPayments,
      h.mirrored, h.answered, h.attemptKeys, h.attemptRelay, h.refusalRelay, h.authorizationPayments, h.completed⟩,
      .of_same rfl rfl rfl rfl (fun _ _ hh => hh) (fun _ _ hz => hz)⟩
  | @relay id p c hp hf =>
    have kept : ∀ {x y : Uuid}, (∃ r ∈ s.billing.relays, r.id = x ∧ r.paymentId = y) →
        ∃ r ∈ s.billing.relays ++ [⟨id, p, c, none, s.clock⟩], r.id = x ∧ r.paymentId = y := by
      rintro x y ⟨r, hr, hra⟩
      exact ⟨r, List.mem_append_left _ hr, hra⟩
    exact ⟨⟨h.lossKeys, later, h.lossPayments, h.billingLosses, nodup_append_row h.relayKeys hf, forall_mem_append_row asked (Nat.lt_succ_self _),
      forall_mem_append_row h.relayPayments hp, forall_mem_append_row h.mirrored nofun, h.answered, h.attemptKeys,
      fun a ha => kept (h.attemptRelay a ha), fun x hx => kept (h.refusalRelay x hx), h.authorizationPayments, h.completed⟩,
      ⟨List.Subset.refl _, fun _ _ hh => hh, fun _ _ hz => hz, fun r hr => ⟨r, List.mem_append_left _ hr, rfl, rfl⟩,
        fun g hg => hg.keep rfl (Nat.le_succ _), fun g hg => hg.append hf rfl (Nat.le_succ _)⟩⟩
  | @attempt r hr hn =>
    exact others rfl rfl rfl (.of_same rfl rfl rfl rfl (keeps (List.Subset.refl _) (List.subset_append_left _ _)) (fun _ _ hz => hz))
      (nodup_append_row h.attemptKeys (unused_iff.mp hn).1) (forall_mem_append_row h.attemptRelay ⟨r, hr, rfl, rfl⟩) h.refusalRelay
      h.authorizationPayments h.completed
  | @moved a status ha ht =>
    refine others rfl rfl rfl (.of_same rfl rfl rfl rfl (fun _ _ hh => holds_mono hh (List.Subset.refl _) fun b hb => ?_) (fun _ _ hz => hz)) ?_
      (fun b hb => ?_) h.refusalRelay h.authorizationPayments h.completed
    · by_cases hk : b.refundAttemptId = a.refundAttemptId
      · obtain rfl := eq_of_key h.attemptKeys hb ha hk
        exact ⟨_, replaceRow_mem (k := RefundAttempt.refundAttemptId) hb rfl, rfl, fun _ hs => paymentNotBehind_step ht hs⟩
      · exact ⟨b, replaceRow_other hb hk, rfl, fun _ hs => hs⟩
    · rw [map_replaceRow fun x _ hk => hk]
      exact h.attemptKeys
    · rcases mem_replaceRow hb with rfl | ⟨hb, -⟩
      · exact h.attemptRelay a ha
      · exact h.attemptRelay b hb
  | @refusal r hr =>
    exact others rfl rfl rfl (.of_same rfl rfl rfl rfl (keeps (List.subset_append_left _ _) same) (fun _ _ hz => hz)) h.attemptKeys
      h.attemptRelay (forall_mem_append_row h.refusalRelay ⟨r, hr, rfl, rfl⟩) h.authorizationPayments h.completed
  | @authorization r id hr =>
    have kept : ∀ c q, (∃ z ∈ s.payment.authorizations, z.refundCaseId = c ∧ z.paymentId = q ∧ z.completed = true) →
        ∃ z ∈ s.payment.authorizations ++ [⟨id, r.refundCaseId, r.paymentId, false⟩], z.refundCaseId = c ∧ z.paymentId = q ∧ z.completed = true := by
      rintro c q ⟨z, hz, hzc⟩
      exact ⟨z, List.mem_append_left _ hz, hzc⟩
    exact others rfl rfl rfl (.of_same rfl rfl rfl rfl (keeps (List.Subset.refl _) same) kept) h.attemptKeys h.attemptRelay h.refusalRelay
      (forall_mem_append_row h.authorizationPayments (h.relayPayments r hr)) (fun c hc => kept _ _ (h.completed c hc))
  | completion id =>
    have kept : ∀ c q, (∃ z ∈ s.payment.authorizations, z.refundCaseId = c ∧ z.paymentId = q ∧ z.completed = true) →
        ∃ z ∈ s.payment.authorizations.map fun z => if z.refundAttemptId = id then { z with completed := true } else z,
          z.refundCaseId = c ∧ z.paymentId = q ∧ z.completed = true := by
      rintro c q ⟨z, hz, hzc, hzp, hzd⟩
      refine ⟨_, List.mem_map.mpr ⟨z, hz, rfl⟩, ?_⟩
      split
      · exact ⟨hzc, hzp, rfl⟩
      · exact ⟨hzc, hzp, hzd⟩
    refine others rfl rfl rfl (.of_same rfl rfl rfl rfl (keeps (List.Subset.refl _) same) kept) h.attemptKeys h.attemptRelay h.refusalRelay
      (fun z hz => ?_) (fun c hc => kept _ _ (h.completed c hc))
    obtain ⟨y, hy, rfl⟩ := List.mem_map.mp hz
    have := h.authorizationPayments y hy
    split <;> exact this
  | @mirrored r status hr ha =>
    have kept : ∀ x ∈ s.billing.relays, ∃ y ∈ replaceRow Relay.id { r with attemptStatus := some status } s.billing.relays,
        y.id = x.id ∧ y.paymentId = x.paymentId := by
      intro x hx
      by_cases hk : x.id = r.id
      · obtain rfl := eq_of_key h.relayKeys hx hr hk
        exact ⟨_, replaceRow_mem (k := Relay.id) hx rfl, rfl, rfl⟩
      · exact ⟨x, replaceRow_other hx hk, rfl, rfl⟩
    have hkeys : (replaceRow Relay.id { r with attemptStatus := some status } s.billing.relays).map
        (fun x => (x.id, x.requestedAt)) = s.billing.relays.map fun x => (x.id, x.requestedAt) :=
      map_replaceRow fun x hx hk => by rw [eq_of_key h.relayKeys hx hr hk]
    have replaced : ∀ {P : Relay → Prop}, P { r with attemptStatus := some status } → (∀ x ∈ s.billing.relays, P x) →
        ∀ x ∈ replaceRow Relay.id { r with attemptStatus := some status } s.billing.relays, P x := by
      intro P hP hall x hx
      rcases mem_replaceRow hx with rfl | ⟨hx, -⟩
      · exact hP
      · exact hall x hx
    refine ⟨⟨h.lossKeys, later, h.lossPayments, h.billingLosses, ?_, replaced (asked r hr) asked, replaced (h.relayPayments r hr) h.relayPayments,
      replaced (fun st hs => ?_) h.mirrored, h.answered, h.attemptKeys, fun a ha => ?_, fun x hx => ?_, h.authorizationPayments, h.completed⟩,
      ⟨List.Subset.refl _, fun _ _ hh => hh, fun _ _ hz => hz, kept, fun g hg => hg.keep rfl (Nat.le_succ _),
        fun g hg => hg.keep hkeys (Nat.le_succ _)⟩⟩
    · dsimp only
      rw [map_replaceRow fun x _ hk => hk]
      exact h.relayKeys
    · cases hs
      exact h.answered _ ha
    · obtain ⟨x, hx, hxa, hxp⟩ := h.attemptRelay a ha
      obtain ⟨y, hy, hyi, hyp⟩ := kept x hx
      exact ⟨y, hy, hyi.trans hxa, hyp.trans hxp⟩
    · obtain ⟨z, hz, hza, hzp⟩ := h.refusalRelay x hx
      obtain ⟨y, hy, hyi, hyp⟩ := kept z hz
      exact ⟨y, hy, hyi.trans hza, hyp.trans hzp⟩
  | @closed z hz hc =>
    exact others rfl rfl rfl (.of_same rfl rfl rfl rfl (fun _ _ hh => hh) (fun _ _ hz => hz)) h.attemptKeys h.attemptRelay h.refusalRelay
      h.authorizationPayments (forall_mem_append_row h.completed ⟨z, hz, rfl, rfl, hc⟩)

end

variable {s : Sys}

theorem act_caused (h : Caused s) (a : Action) : Caused (step s a) ∧ Grown s (step s a) := by
  obtain ⟨hc, hg⟩ := (act_acted s a).caused h (step s a).scan
  cases a with
  | answer id =>
    refine ⟨{ hc with answered := fun x hx => ?_ }, { hg with }⟩
    rcases List.mem_append.mp hx with hx | hx
    · obtain ⟨status, hs, rfl⟩ := List.mem_map.mp hx
      exact answer_holds (Option.mem_toList.mp hs)
    · exact h.answered x hx
  | _ => exact ⟨hc, hg⟩

/-! ## What the scan has read -/

def Phase.lossesRead : Phase → Bool
  | .losses => false
  | _ => true

def Phase.relaysRead : Phase → Bool
  | .losses | .billingLosses | .relays => false
  | _ => true

def Phase.todo : Phase → List Uuid
  | .refunds todo | .refusals _ _ todo | .authorizations _ _ _ todo => todo
  | _ => []

/-- The attempts that a read answered: not behind what Billing's relays of the payment mirrored. -/
def Scan.answered (c : Scan) (p : Uuid) (attempts : List RefundAttempt) : Prop :=
  ∀ r ∈ c.relays.rows, r.paymentId = p → ∀ status, r.attemptStatus = some (.attempt status) →
    ∃ a, (attempts.find? fun a => a.refundAttemptId = r.id) = some a ∧ paymentNotBehind status a.status = true

def Scan.reading (c : Scan) : Prop :=
  match c.phase with
  | .refusals p attempts _ => c.answered p attempts
  | .authorizations p attempts refusals _ => c.answered p attempts ∧
      ∀ r ∈ c.relays.rows, r.paymentId = p → r.attemptStatus = some .rejected → r.id ∈ refusals
  | _ => True

structure Scanned (s : Sys) : Prop where
  lossPages : s.scan.losses.Covers PaymentLoss.disputeId PaymentLoss.committedAt s.clock s.payment.losses
  relayPages : s.scan.relays.Covers Relay.id Relay.requestedAt s.clock s.billing.relays
  lossesRead : s.scan.losses.finished = s.scan.phase.lossesRead
  relaysRead : s.scan.relays.finished = s.scan.phase.relaysRead
  billingRows : ∀ l ∈ s.scan.billingLosses.rows, l.paymentId ∈ s.payment.payments
  relayRows : ∀ r ∈ s.scan.relays.rows, (∃ x ∈ s.billing.relays, x.id = r.id ∧ x.paymentId = r.paymentId) ∧
    ∀ status, r.attemptStatus = some status → s.payment.holds r.id status
  completedRows : ∀ c ∈ s.scan.completed.rows, ∃ z ∈ s.payment.authorizations, z.refundCaseId = c.id ∧
    z.paymentId = c.paymentId ∧ z.completed = true
  todo : ∀ p ∈ s.scan.phase.todo, p ∈ s.payment.payments
  reading : s.scan.reading

theorem Scanned.start (h : s.scan = .start) : Scanned s := by
  rw [Scan.start] at h
  refine ⟨?_, ?_, ?_, ?_, ?_, ?_, ?_, ?_, ?_⟩ <;> rw [h]
  · exact .start _ _ _
  · exact .start _ _ _
  · rfl
  · rfl
  · simp [Pager.start]
  · simp [Pager.start]
  · simp [Pager.start]
  · simp [Phase.todo]
  · trivial

theorem Scanned.grow (h : Scanned s) (hg : Grown s t) (hs : t.scan = s.scan) : Scanned t := by
  refine ⟨?_, ?_, ?_, ?_, ?_, ?_, ?_, ?_, ?_⟩ <;> rw [hs]
  · exact hg.lossPages _ h.lossPages
  · exact hg.relayPages _ h.relayPages
  · exact h.lossesRead
  · exact h.relaysRead
  · exact fun l hl => hg.payments (h.billingRows l hl)
  · intro r hr
    obtain ⟨⟨x, hx, hxi, hxp⟩, hst⟩ := h.relayRows r hr
    obtain ⟨y, hy, hyi, hyp⟩ := hg.relays x hx
    exact ⟨⟨y, hy, hyi.trans hxi, hyp.trans hxp⟩, fun status hs => hg.holds _ _ (hst status hs)⟩
  · exact fun c hc => hg.completions _ _ (h.completedRows c hc)
  · exact fun p hp => hg.payments (h.todo p hp)
  · exact h.reading

def Scan.unrelayed (c : Scan) : Prop :=
  match c.phase with
  | .refusals p attempts _ | .authorizations p attempts _ _ =>
    ∃ a ∈ attempts, ∀ r ∈ c.relays.rows, r.paymentId = p → r.id ≠ a.refundAttemptId
  | _ => False

def Scan.quiet (c : Scan) : Prop := c.findings = [] ∧ ¬ c.unrelayed

theorem PAGE_pos : 0 < PAGE := by decide

theorem payments_mem {c : Scan} {p : Uuid} (h : p ∈ c.payments) : (∃ l ∈ c.billingLosses.rows, l.paymentId = p) ∨
    (∃ r ∈ c.relays.rows, r.paymentId = p) ∨ ∃ x ∈ c.completed.rows, x.paymentId = p := by
  unfold Scan.payments at h
  rw [List.mem_insertionSort, List.mem_dedup] at h
  simpa [or_assoc] using h

theorem answered_of_held (h : Caused s) (hs : Scanned s) {p : Uuid} :
    s.scan.answered p (s.payment.attempts.filter fun a => a.paymentId = p) := by
  intro r hr hp status hst
  obtain ⟨⟨x, hx, hxi, hxp⟩, hheld⟩ := hs.relayRows r hr
  obtain ⟨a, ha, hai, hb⟩ := hheld _ hst
  obtain ⟨y, hy, hyi, hyp⟩ := h.attemptRelay a ha
  obtain rfl := eq_of_key h.relayKeys hx hy (by rw [hxi, hyi, hai])
  have hap : a.paymentId = p := by rw [← hyp, hxp, hp]
  have hmem : a ∈ s.payment.attempts.filter fun a => a.paymentId = p := List.mem_filter.mpr ⟨ha, by simp [hap]⟩
  refine ⟨a, ?_, hb⟩
  rw [← hai]
  exact find_key (h.attemptKeys.sublist (List.filter_sublist.map _)) hmem

theorem scan_scanned (h : Caused s) (hs : Scanned s) : Scanned (step s .scan) := by
  have base : Scanned ⟨s.clock + 1, s.payment, s.billing, s.answers, s.scan⟩ := { hs with
    lossPages := hs.lossPages.keep rfl (Nat.le_succ s.clock)
    relayPages := hs.relayPages.keep rfl (Nat.le_succ s.clock) }
  have hlr := hs.lossesRead
  have hrr := hs.relaysRead
  have htd := hs.todo
  have hrd := hs.reading
  -- the phase after a page leaves nothing to do yet
  have idle : ∀ (g : Bool) (x y : Phase), x.todo = [] → y.todo = [] → ∀ p ∈ (if g then x else y).todo, p ∈ s.payment.payments := by
    intro g x y hx hy p hp
    cases g <;> simp [hx, hy] at hp
  show Scanned ⟨s.clock + 1, s.payment, s.billing, s.answers, s.scan.step s.clock s.payment s.billing⟩
  cases hph : s.scan.phase with
  | losses =>
    rw [hph] at hlr hrr
    have hread := hs.lossPages.read h.lossKeys PAGE_pos hlr h.lossTimes (Nat.lt_succ_self _)
    simp only [Scan.step, hph]
    generalize s.scan.losses.read PaymentLoss.disputeId PAGE s.clock s.payment.losses = g at hread
    exact { base with
      lossPages := hread
      lossesRead := by cases g.finished <;> simp [Phase.lossesRead]
      relaysRead := by cases g.finished <;> simp [hrr, Phase.relaysRead]
      todo := idle g.finished .billingLosses .losses rfl rfl
      reading := by cases g.finished <;> simp [Scan.reading] }
  | billingLosses =>
    rw [hph] at hlr hrr
    have hrows : ∀ l ∈ (s.scan.billingLosses.read BillingLoss.disputeId PAGE s.clock s.billing.losses).rows, l.paymentId ∈ s.payment.payments := by
      refine List.forall_mem_append.mpr ⟨hs.billingRows, fun l hl => ?_⟩
      obtain ⟨x, hx, -, hxp⟩ := h.billingLosses l (mem_of_mem_page hl).1
      rw [← hxp]
      exact h.lossPayments x hx
    simp only [Scan.step, hph]
    generalize s.scan.billingLosses.read BillingLoss.disputeId PAGE s.clock s.billing.losses = g at hrows
    exact { base with
      lossesRead := by cases g.finished <;> simp [hlr, Phase.lossesRead]
      relaysRead := by cases g.finished <;> simp [hrr, Phase.relaysRead]
      billingRows := hrows
      todo := idle g.finished .relays .billingLosses rfl rfl
      reading := by cases g.finished <;> simp [Scan.reading] }
  | relays =>
    rw [hph] at hlr hrr
    have hread := hs.relayPages.read h.relayKeys PAGE_pos hrr h.relayTimes (Nat.lt_succ_self _)
    have hrows : ∀ r ∈ (s.scan.relays.read Relay.id PAGE s.clock s.billing.relays).rows,
        (∃ x ∈ s.billing.relays, x.id = r.id ∧ x.paymentId = r.paymentId) ∧ ∀ status, r.attemptStatus = some status → s.payment.holds r.id status := by
      refine List.forall_mem_append.mpr ⟨hs.relayRows, fun r hr => ?_⟩
      have hm := (mem_of_mem_page hr).1
      exact ⟨⟨r, hm, rfl, rfl⟩, h.mirrored r hm⟩
    simp only [Scan.step, hph]
    generalize s.scan.relays.read Relay.id PAGE s.clock s.billing.relays = g at hread hrows
    exact { base with
      relayPages := hread
      lossesRead := by cases g.finished <;> simp [hlr, Phase.lossesRead]
      relaysRead := by cases g.finished <;> simp [Phase.relaysRead]
      relayRows := hrows
      todo := idle g.finished .completed .relays rfl rfl
      reading := by cases g.finished <;> simp [Scan.reading] }
  | completed =>
    rw [hph] at hlr hrr
    have hcompleted : ∀ c ∈ (s.scan.completed.read CompletedCase.id PAGE s.clock s.billing.completed).rows,
        ∃ z ∈ s.payment.authorizations, z.refundCaseId = c.id ∧ z.paymentId = c.paymentId ∧ z.completed = true :=
      List.forall_mem_append.mpr ⟨hs.completedRows, fun c hc => h.completed c (mem_of_mem_page hc).1⟩
    simp only [Scan.step, hph]
    generalize s.scan.completed.read CompletedCase.id PAGE s.clock s.billing.completed = g at hcompleted
    exact { base with
      lossesRead := by cases g.finished <;> simp [hlr, Phase.lossesRead]
      relaysRead := by cases g.finished <;> simp [hrr, Phase.relaysRead]
      completedRows := hcompleted
      todo := by
        dsimp only
        split
        · intro p hp
          rcases payments_mem hp with ⟨l, hl, rfl⟩ | ⟨r, hr, rfl⟩ | ⟨c, hc, rfl⟩
          · exact hs.billingRows l hl
          · obtain ⟨⟨x, hx, -, hxp⟩, -⟩ := hs.relayRows r hr
            rw [← hxp]
            exact h.relayPayments x hx
          · obtain ⟨z, hz, -, hzp, -⟩ := hcompleted c hc
            rw [← hzp]
            exact h.authorizationPayments z hz
        · simp [Phase.todo]
      reading := by cases g.finished <;> simp [Scan.reading] }
  | refunds todo =>
    rw [hph] at hlr hrr htd
    cases todo with
    | nil =>
      have hst : s.scan.step s.clock s.payment s.billing = s.scan := by simp only [Scan.step, hph]
      rw [hst]
      exact base
    | cons p todo =>
      have hst : s.scan.step s.clock s.payment s.billing = { s.scan with
          phase := .refusals p (s.payment.attempts.filter fun a => a.paymentId = p) todo } := by
        simp only [Scan.step, hph, if_pos (htd p List.mem_cons_self)]
      rw [hst]
      exact { base with
        lossesRead := hlr
        relaysRead := hrr
        todo := fun q hq => htd q (List.mem_cons_of_mem _ hq)
        reading := answered_of_held h hs }
  | refusals p attempts todo =>
    rw [hph] at hlr hrr htd
    simp only [Scan.reading, hph] at hrd
    have hst : s.scan.step s.clock s.payment s.billing = { s.scan with
        phase := .authorizations p attempts ((s.payment.refusals.filter fun r => r.paymentId = p).map Refusal.refundAttemptId)
          todo } := by simp only [Scan.step, hph]
    rw [hst]
    refine { base with lossesRead := hlr, relaysRead := hrr, todo := htd, reading := ⟨hrd, fun r hr hp hst => ?_⟩ }
    obtain ⟨⟨x, hx, hxi, hxp⟩, hheld⟩ := hs.relayRows r hr
    obtain ⟨z, hz, hzi⟩ := hheld _ hst
    obtain ⟨y, hy, hyi, hyp⟩ := h.refusalRelay z hz
    obtain rfl := eq_of_key h.relayKeys hx hy (by rw [hxi, hyi, hzi])
    exact List.mem_map.mpr ⟨z, List.mem_filter.mpr ⟨hz, by simp [← hyp, hxp, hp]⟩, hzi⟩
  | authorizations p attempts refusals todo =>
    rw [hph] at hlr hrr htd
    simp only [Scan.step, hph]
    exact { base with lossesRead := hlr, relaysRead := hrr, todo := htd, reading := trivial }

/-! ## When a read is in order -/

/-- When the scan reads a page of Billing's losses, Payment had committed each of them before the scan read the page of Payment's
losses that covers it; when it reads a payment's attempts, Billing had committed the relay of each before the scan read the
page of its relays that covers it. -/
def Sys.inOrder (s : Sys) : Action → Prop
  | .scan =>
    match s.scan.phase with
    | .billingLosses => ∀ l ∈ page BillingLoss.disputeId PAGE s.scan.billingLosses.after s.billing.losses,
        ∀ x ∈ s.payment.losses, x.disputeId = l.disputeId → ∀ t, s.scan.losses.readAt l.disputeId = some t → x.committedAt < t
    | .refunds (p :: _) => ∀ a ∈ s.payment.attempts, a.paymentId = p → ∀ r ∈ s.billing.relays, r.id = a.refundAttemptId →
        ∀ t, s.scan.relays.readAt r.id = some t → r.requestedAt < t
    | _ => True
  | _ => True

theorem compareRelay_nil {p : Uuid} {read : PaymentRefunds} {r : Relay}
    (ha : ∀ status, r.attemptStatus = some (.attempt status) →
      ∃ a, (read.attempts.find? fun a => a.refundAttemptId = r.id) = some a ∧ paymentNotBehind status a.status = true)
    (hr : r.attemptStatus = some .rejected → r.id ∈ read.refusals) : compareRelay p read r = [] := by
  unfold compareRelay
  cases hst : r.attemptStatus with
  | none => rfl
  | some st =>
    cases st with
    | rejected => simp [hr hst]
    | attempt status =>
      obtain ⟨a, hf, hb⟩ := ha status hst
      simp [hf, hb]

theorem compareRefunds_nil (hs : Scanned s) {p : Uuid} {attempts : List RefundAttempt} {refusals todo : List Uuid}
    (hph : s.scan.phase = .authorizations p attempts refusals todo) :
    compareRefunds p (some ⟨attempts, refusals, s.payment.authorizations.filter fun z => z.paymentId = p⟩)
      (s.scan.relays.rows.filter fun r => r.paymentId = p)
      ((s.scan.completed.rows.filter fun x => x.paymentId = p).map CompletedCase.id) = [] ↔ ¬ s.scan.unrelayed := by
  have hread := hs.reading
  simp only [Scan.reading, hph] at hread
  have hrelays : (s.scan.relays.rows.filter fun r => r.paymentId = p).flatMap
      (compareRelay p ⟨attempts, refusals, s.payment.authorizations.filter fun z => z.paymentId = p⟩) = [] := by
    refine List.flatMap_eq_nil_iff.mpr fun r hr => ?_
    obtain ⟨hr, hp⟩ := List.mem_filter.mp hr
    have hp : r.paymentId = p := of_decide_eq_true hp
    exact compareRelay_nil (hread.1 r hr hp) (hread.2 r hr hp)
  have hcompleted : (((s.scan.completed.rows.filter fun x => x.paymentId = p).map CompletedCase.id).filter fun c =>
      ¬ (s.payment.authorizations.filter fun z => z.paymentId = p).any fun z => z.refundCaseId = c ∧ z.completed) = [] := by
    refine List.filter_eq_nil_iff.mpr fun c hc => ?_
    obtain ⟨x, hx, rfl⟩ := List.mem_map.mp hc
    obtain ⟨hx, hp⟩ := List.mem_filter.mp hx
    have hp : x.paymentId = p := of_decide_eq_true hp
    obtain ⟨z, hz, hzc, hzp, hzd⟩ := hs.completedRows x hx
    have hany : ((s.payment.authorizations.filter fun z => z.paymentId = p).any fun z => z.refundCaseId = x.id ∧ z.completed) =
        true := List.any_eq_true.mpr ⟨z, List.mem_filter.mpr ⟨hz, by simp [hzp, hp]⟩, by simp [hzc, hzd]⟩
    rw [hany]
    decide
  simp only [compareRefunds, hrelays, hcompleted, List.map_nil, List.append_nil, List.map_eq_nil_iff, List.filter_eq_nil_iff,
    Scan.unrelayed, hph]
  simp

theorem quiet_step (h : Caused s) (hs : Scanned s) (a : Action) :
    (step s a).scan.quiet ↔ s.scan.quiet ∧ s.inOrder a := by
  cases a with
  | scan =>
    have hscan : (step s .scan).scan = s.scan.step s.clock s.payment s.billing := rfl
    rw [hscan]
    cases hph : s.scan.phase with
    | losses =>
      simp only [Scan.step, Sys.inOrder, Scan.quiet, Scan.unrelayed, hph]
      cases (s.scan.losses.read PaymentLoss.disputeId PAGE s.clock s.payment.losses).finished <;> simp
    | billingLosses =>
      have hfin : s.scan.losses.finished = true := by rw [hs.lossesRead, hph]; rfl
      have hiff : ((page BillingLoss.disputeId PAGE s.scan.billingLosses.after s.billing.losses).filter fun l =>
          ¬ s.scan.losses.rows.any fun x => x.disputeId = l.disputeId) = [] ↔ s.inOrder .scan := by
        simp only [Sys.inOrder, hph, List.filter_eq_nil_iff]
        refine forall₂_congr fun l hl => ?_
        obtain ⟨x, hx, hxd, -⟩ := h.billingLosses l (mem_of_mem_page hl).1
        obtain ⟨t, ht⟩ := hs.lossPages.finished_readAt hfin l.disputeId
        have hfound := hs.lossPages.found x hx t (by rw [hxd]; exact ht)
        have hrow : (s.scan.losses.rows.any fun x => x.disputeId = l.disputeId) = true ↔
            x.disputeId ∈ s.scan.losses.rows.map PaymentLoss.disputeId := by simp [hxd]
        rw [decide_not, Bool.not_eq_true', Bool.not_eq_false, decide_eq_true_eq, hrow, ← hfound]
        refine ⟨fun hlt y hy hyd u hu => ?_, fun hall => hall x hx hxd t ht⟩
        obtain rfl := eq_of_key h.lossKeys hx hy (hxd.trans hyd.symm)
        rw [ht] at hu
        exact Option.some.inj hu ▸ hlt
      rw [← hiff]
      simp only [Scan.step, Scan.quiet, Scan.unrelayed, hph, List.append_eq_nil_iff, List.map_eq_nil_iff]
      cases (s.scan.billingLosses.read BillingLoss.disputeId PAGE s.clock s.billing.losses).finished <;> simp
    | relays =>
      simp only [Scan.step, Sys.inOrder, Scan.quiet, Scan.unrelayed, hph]
      cases (s.scan.relays.read Relay.id PAGE s.clock s.billing.relays).finished <;> simp
    | completed =>
      simp only [Scan.step, Sys.inOrder, Scan.quiet, Scan.unrelayed, hph]
      cases (s.scan.completed.read CompletedCase.id PAGE s.clock s.billing.completed).finished <;> simp
    | refunds todo =>
      cases todo with
      | nil => simp [Scan.step, Sys.inOrder, hph]
      | cons p todo =>
        have hp : p ∈ s.payment.payments := hs.todo p (by rw [hph]; exact List.mem_cons_self)
        have hfin : s.scan.relays.finished = true := by rw [hs.relaysRead, hph]; rfl
        have hiff : (¬ ∃ a ∈ s.payment.attempts.filter fun a => a.paymentId = p, ∀ r ∈ s.scan.relays.rows, r.paymentId = p →
            r.id ≠ a.refundAttemptId) ↔ s.inOrder .scan := by
          simp only [Sys.inOrder, hph]
          push Not
          refine ⟨fun hall a ha hap r hr hra t ht => ?_, fun hall a ha => ?_⟩
          · obtain ⟨x, hx, -, hxa⟩ := hall a (List.mem_filter.mpr ⟨ha, by simp [hap]⟩)
            exact (hs.relayPages.found r hr t ht).mpr (List.mem_map.mpr ⟨x, hx, hxa.trans hra.symm⟩)
          · obtain ⟨ha, hap⟩ := List.mem_filter.mp ha
            have hap : a.paymentId = p := of_decide_eq_true hap
            obtain ⟨r, hr, hra, hrp⟩ := h.attemptRelay a ha
            obtain ⟨t, ht⟩ := hs.relayPages.finished_readAt hfin r.id
            obtain ⟨x, hx, hxr⟩ := List.mem_map.mp ((hs.relayPages.found r hr t ht).mp (hall a ha hap r hr hra t ht))
            obtain ⟨⟨y, hy, hyi, hyp⟩, -⟩ := hs.relayRows x hx
            obtain rfl := eq_of_key h.relayKeys hr hy (hxr.symm.trans hyi.symm)
            exact ⟨x, hx, by rw [← hyp, hrp, hap], hxr.trans hra⟩
        rw [← hiff]
        simp only [Scan.step, Scan.quiet, Scan.unrelayed, hph, if_pos hp]
        simp
    | refusals p attempts todo => simp [Scan.step, Sys.inOrder, Scan.quiet, Scan.unrelayed, hph]
    | authorizations p attempts refusals todo =>
      have hnil := compareRefunds_nil hs hph
      simp only [Scan.step, Scan.quiet, Sys.inOrder, hph, List.append_eq_nil_iff, hnil, and_true]
      simp [Scan.unrelayed]
  | _ => simp [step, Sys.inOrder]

theorem along_scanned (s : Sys) (a : Action) (h : Caused s ∧ Scanned s) : Caused (step s a) ∧ Scanned (step s a) := by
  obtain ⟨h, hs⟩ := h
  refine ⟨(act_caused h a).1, ?_⟩
  cases a with
  | scan => exact scan_scanned h hs
  | _ => exact hs.grow (act_caused h _).2 rfl

/-- **The false alarms.** The scan reports a mismatch exactly when it completes and one of its reads was out of order. -/
theorem scan_mismatch_iff (s : Sys) (actions : List Action) (h : Caused s) (hs : s.scan = .start) :
    (∃ findings, (run s actions).scan.outcome = some (.mismatch findings)) ↔
      (run s actions).scan.phase = .refunds [] ∧ ¬ Along step Sys.inOrder s actions := by
  have hquiet : s.scan.quiet := by simp [hs, Scan.start, Scan.quiet, Scan.unrelayed]
  have hrun : (run s actions).scan.quiet ↔ s.scan.quiet ∧ Along step Sys.inOrder s actions :=
    Along.detects (P := fun t => t.scan.quiet) along_scanned (fun t a ht => quiet_step ht.1 ht.2 a) actions s ⟨h, .start hs⟩
  by_cases hph : (run s actions).scan.phase = .refunds []
  · have hfind : (run s actions).scan.quiet ↔ (run s actions).scan.findings = [] := by
      simp [Scan.quiet, Scan.unrelayed, hph]
    have halong : Along step Sys.inOrder s actions ↔ (run s actions).scan.findings = [] := by
      rw [← hfind, hrun, and_iff_right hquiet]
    rw [halong]
    by_cases hf : (run s actions).scan.findings = []
    · simp [Scan.outcome, hph, hf]
    · simp [Scan.outcome, hph, hf]
  · refine ⟨fun ⟨fs, hfs⟩ => ?_, fun hc => absurd hc.1 hph⟩
    unfold Scan.outcome at hfs
    split at hfs
    · exact absurd ‹_› hph
    · cases hfs

def quietSystem : Sys := ⟨0, ⟨[1], [], [], [], []⟩, ⟨[], [], []⟩, [], .start⟩

theorem quietSystem_caused : Caused quietSystem := by
  refine ⟨?_, ?_, ?_, ?_, ?_, ?_, ?_, ?_, ?_, ?_, ?_, ?_, ?_, ?_⟩ <;> simp [quietSystem]

def lossInTransit : List Action :=
  [.scan, .commitLoss 7 1, .recordLoss 7, .scan, .scan, .scan, .scan, .scan, .scan]

def relayInTransit : List Action :=
  [.relay 4 1 9, .refuse 4, .answer 4, .mirror 4 .rejected, .scan, .scan, .scan, .relay 5 1 9, .createAttempt 5, .scan, .scan, .scan,
    .scan]

theorem scan_mismatch_iff_lossInTransit :
    Caused quietSystem ∧ quietSystem.scan = .start ∧ ¬ Along step Sys.inOrder quietSystem lossInTransit :=
  ⟨quietSystem_caused, rfl,
    ((scan_mismatch_iff quietSystem lossInTransit quietSystem_caused rfl).mp ⟨[.billing_loss_unknown_to_payment 7], by decide⟩).2⟩

/-- Both alarms are false: what Billing holds was caused by Payment. -/
theorem scan_false_alarms : Caused quietSystem ∧ quietSystem.scan = .start ∧
    (run quietSystem lossInTransit).scan.outcome = some (.mismatch [.billing_loss_unknown_to_payment 7]) ∧
    (run quietSystem relayInTransit).scan.outcome = some (.mismatch [.attempt_without_relay 1 5]) :=
  ⟨quietSystem_caused, rfl, by decide, by decide⟩

end NawaraCore.Safety
