import NawaraCore.Refund.AttemptSound

/-!
# Verified refund evidence

A provider's success is recorded first and applied after. It is recorded whenever it can be
stored; it ends its attempt whenever no other attempt holds what the attempt then takes.
-/

namespace NawaraCore.Refunds

open Payments (Uuid PaymentError Admitted enforce enforce_ok enforce_bind_ok trim maxSafeInteger)

structure Success where
  amount : Int
  currency : String
  providerRefundId : String

def Success.status (v : Success) : RefundStatusResult := .succeeded v.amount v.currency v.providerRefundId

structure Success.Storable (v : Success) : Prop where
  providerRefundId : v.providerRefundId ≠ "" ∧ v.providerRefundId.length ≤ 256 ∧ hasNoNul v.providerRefundId
  amount : 1 ≤ v.amount ∧ v.amount ≤ maxSafeInteger
  currency : 1 ≤ utf16Length v.currency ∧ utf16Length v.currency ≤ 16 ∧ hasNoNul v.currency

/-- No other attempt holds the refund's id nor, for a failed attempt, the captured money. -/
structure Unclaimed (s : Db) (a : RefundAttempt) (providerRefundId : String) : Prop where
  providerRefund : a.providerRefundId = none → ∀ x ∈ s.attempts, x.id ≠ a.id →
    x.provider = a.provider → x.providerRefundId ≠ some providerRefundId
  money : a.status = .failed → ∀ x ∈ s.attempts, x.id ≠ a.id → x.effective → x.captureFactId ≠ a.captureFactId

def Kept (s : Db) (a : RefundAttempt) (v : Success) (webhookEventId : Option Uuid) : Prop :=
  ∃ f ∈ s.facts, f.provider = a.provider ∧ f.providerTxnId = v.providerRefundId ∧
    ((f.binding = some ⟨a.paymentId, a.id⟩ ∧ f.amount = v.amount ∧ f.currency = v.currency) ∨
      ⟨f.id, a.paymentId, a.id, v.amount, v.currency, webhookEventId⟩ ∈ s.conflicts)

def Ended (s : Db) (attemptId : Uuid) : Prop :=
  ∃ b ∈ s.attempts, b.id = attemptId ∧ (b.status = .succeeded ∨ b.status = .discrepancy)

def Matches (s : Db) (a : RefundAttempt) (fact : RecordedFact) : Prop :=
  fact.matched → ∃ f ∈ s.facts, f.id = fact.id ∧ f.binding.any (·.refundAttemptId = a.id) ∧
    f.amount = a.amount ∧ f.currency = trim a.currency

variable {x : RefundAttemptStatus} {r : String}

section
variable {cs : Captures} {s t : Db} {a b : RefundAttempt} {v : Success} {event : Option Uuid} {fresh : Uuid}
  {fact : RecordedFact}

/-! ## The first transaction -/

theorem lockAttempt_eq (hn : (s.attempts.map (·.id)).Nodup) (ha : a ∈ s.attempts) : lockAttempt s a.id = .ok a := by
  unfold lockAttempt Db.findAttempt
  rw [find_key hn ha]

theorem mem_insertConflict (s : Db) (c : RefundFactConflict) : c ∈ (s.insertConflict c).conflicts := by
  unfold Db.insertConflict
  split
  · assumption
  · exact List.mem_append_right _ (List.mem_singleton_self c)

theorem recordRefundFact_some (hl : lockAttempt s a.id = .ok a)
    (h : recordRefundFact s a.id v.amount v.currency v.providerRefundId event fresh = .ok (t, some fact)) :
    v.Storable ∧ t.attempts = s.attempts ∧ Kept t a v event ∧ Matches t a fact := by
  unfold recordRefundFact at h
  rw [hl] at h
  obtain ⟨a', ha', h⟩ := bind_eq_ok.mp h
  obtain rfl : a = a' := by cases ha'; rfl
  split at h
  · cases h
  rename_i hguard
  simp only [not_or, not_lt] at hguard
  obtain ⟨⟨u, inserted⟩, hins, hrest⟩ := bind_eq_ok.mp h
  obtain ⟨hc, hu⟩ := insertFact_ok hins
  clear h hins ha'
  simp only [Admitted, factChecks, List.forall_mem_cons, Bool.not_eq_true', List.any_eq_false, decide_eq_true_eq] at hc
  have hstore : v.Storable :=
    ⟨⟨hguard.1, hc.2.1.2, hc.2.2.2.2.1.1⟩, ⟨hguard.2.1, hguard.2.2.1⟩, hguard.2.2.2.1, hguard.2.2.2.2, hc.2.2.2.2.1.2⟩
  cases inserted with
  | true =>
    obtain ⟨rfl, -⟩ := hu
    cases hrest
    have hmem := List.mem_append_right s.facts (List.mem_singleton_self (⟨fresh, a.provider, v.providerRefundId,
      some ⟨a.paymentId, a.id⟩, v.amount, v.currency, event⟩ : RefundFact))
    refine ⟨hstore, rfl, ⟨_, hmem, rfl, rfl, .inl ⟨rfl, rfl, rfl⟩⟩, fun hm => ⟨_, hmem, rfl, by simp, ?_⟩⟩
    simpa using hm
  | false =>
    obtain ⟨rfl, -⟩ := hu
    simp only [Bool.false_eq_true, if_false] at hrest
    split at hrest
    · cases hrest
    rename_i stored hstored
    have hmem := List.mem_of_find?_eq_some hstored
    have hid := List.find?_some hstored
    simp only [decide_eq_true_eq] at hid
    cases hrest
    obtain ⟨hattempts, hfacts, -⟩ := insertConflict_tables u ⟨stored.id, a.paymentId, a.id, v.amount, v.currency, event⟩
    by_cases hsame : stored.binding = some ⟨a.paymentId, a.id⟩ ∧ stored.amount = v.amount ∧ stored.currency = v.currency
    · simp only [hsame, and_self, decide_true, if_true]
      refine ⟨hstore, trivial, ⟨stored, hmem, hid.1, hid.2, .inl hsame⟩, fun hm => ⟨stored, hmem, rfl, ?_⟩⟩
      simpa [hsame] using hm
    · simp only [hsame, decide_false, Bool.false_eq_true, if_false]
      exact ⟨hstore, hattempts, ⟨stored, hfacts ▸ hmem, hid.1, hid.2, .inr (mem_insertConflict _ _)⟩,
        fun hm => absurd hm (by simp)⟩

theorem recordRefundFact_none {id : Uuid} (h : recordRefundFact s id v.amount v.currency v.providerRefundId event fresh =
    .ok (t, none)) : t.attempts = s.attempts := by
  unfold recordRefundFact at h
  obtain ⟨a, -, h⟩ := bind_eq_ok.mp h
  split at h
  · cases h; rfl
  obtain ⟨⟨u, inserted⟩, hins, hrest⟩ := bind_eq_ok.mp h
  have hu := (insertFact_ok hins).2
  clear h hins
  cases inserted with
  | true => cases hrest
  | false =>
    obtain ⟨rfl, -⟩ := hu
    simp only [Bool.false_eq_true, if_false] at hrest
    split at hrest
    · cases hrest; rfl
    · cases hrest

variable {f : RefundFact}

theorem insertFact_new (hc : Admitted (factChecks s f))
    (hn : ∀ g ∈ s.facts, ¬ (g.provider = f.provider ∧ g.providerTxnId = f.providerTxnId)) :
    s.insertFact f = .ok ({ s with facts := s.facts ++ [f] }, true) :=
  bind_eq_ok.mpr ⟨(), enforce_ok.mpr hc, if_neg (by simpa using hn)⟩

theorem insertFact_known (hc : Admitted (factChecks s f))
    (hk : ∃ g ∈ s.facts, g.provider = f.provider ∧ g.providerTxnId = f.providerTxnId) :
    s.insertFact f = .ok (s, false) :=
  bind_eq_ok.mpr ⟨(), enforce_ok.mpr hc, if_pos (by simpa using hk)⟩

theorem recordRefundFact_succeeds (event : Option Uuid) (hl : lockAttempt s a.id = .ok a) (hv : v.Storable)
    (hf : ∀ f ∈ s.facts, f.id ≠ fresh) :
    ∃ t fact, recordRefundFact s a.id v.amount v.currency v.providerRefundId event fresh = .ok (t, some fact) := by
  obtain ⟨⟨hne, hlen, hnul⟩, ⟨hpos, hmax⟩, hcur, hcurmax, hcurnul⟩ := hv
  have hchecks : Admitted (factChecks s
      ⟨fresh, a.provider, v.providerRefundId, some ⟨a.paymentId, a.id⟩, v.amount, v.currency, event⟩) := by
    simp only [Admitted, factChecks, List.forall_mem_cons, Bool.not_eq_true', List.any_eq_false, decide_eq_true_eq]
    exact ⟨hf, ⟨Nat.pos_of_ne_zero (String.length_eq_zero_iff.not.mpr hne), hlen⟩, ⟨hpos, hmax⟩,
      ⟨length_pos_of_utf16Length hcur, (length_le_utf16Length _).trans hcurmax⟩, ⟨hnul, hcurnul⟩, fun _ hx => absurd hx List.not_mem_nil⟩
  have hguard : ¬ (v.providerRefundId = "" ∨ v.amount < 1 ∨ maxSafeInteger < v.amount ∨ utf16Length v.currency < 1 ∨
      16 < utf16Length v.currency) := by
    simp only [not_or, not_lt]
    exact ⟨hne, hpos, hmax, hcur, hcurmax⟩
  by_cases hnew : ∀ g ∈ s.facts, ¬ (g.provider = a.provider ∧ g.providerTxnId = v.providerRefundId)
  · exact ⟨_, _, bind_eq_ok.mpr ⟨a, hl, (if_neg hguard).trans
      (bind_eq_ok.mpr ⟨_, insertFact_new hchecks hnew, rfl⟩)⟩⟩
  · have hknown : ∃ g ∈ s.facts, g.provider = a.provider ∧ g.providerTxnId = v.providerRefundId := by simpa using hnew
    cases hstored : s.facts.find? fun f => f.provider = a.provider ∧ f.providerTxnId = v.providerRefundId with
    | none =>
      obtain ⟨g, hg, hsame⟩ := hknown
      exact absurd (decide_eq_true hsame) (List.find?_eq_none.mp hstored g hg)
    | some stored =>
      exact ⟨_, _, bind_eq_ok.mpr ⟨a, hl, (if_neg hguard).trans
        (bind_eq_ok.mpr ⟨_, insertFact_known hchecks hknown, by
          simp only [Bool.false_eq_true, if_false, hstored]; rfl⟩)⟩⟩

/-! ## The second transaction -/

structure EndedBy (a b : RefundAttempt) (providerRefundId : String) (fact : RecordedFact) : Prop where
  same : SameMoney a b
  receiptId : b.receiptId = a.receiptId
  providerRefund : b.providerRefundId = a.providerRefundId.or (some providerRefundId)
  failureCode : b.failureCode = a.failureCode
  status : (b.status = .succeeded ∧ a.status.inFlight ∧ fact.matched ∧ b.succeededFactId = some fact.id) ∨
    (b.status = .discrepancy ∧ b.succeededFactId = a.succeededFactId)

theorem inFlight_effective (h : x.inFlight) : x.effective := by
  cases x <;> first | rfl | cases h

theorem sent_status (h : x.inFlight ∨ x = .failed) :
    x.unauthorized = false ∧ x.terminal = false ∧ canTransition x .discrepancy ∧ x ≠ .succeeded ∧ x ≠ .discrepancy := by
  cases x <;> simp_all [RefundAttemptStatus.inFlight, RefundAttemptStatus.unauthorized, RefundAttemptStatus.terminal,
    canTransition]

theorem inFlight_status (h : x.inFlight) : canTransition x .succeeded ∧ x ≠ .failed := by
  cases x <;> simp_all [RefundAttemptStatus.inFlight, canTransition]

theorem EndedBy.ended (h : EndedBy a b r fact) : b.status = .succeeded ∨ b.status = .discrepancy :=
  h.status.imp (·.1) (·.1)

theorem EndedBy.effective (h : EndedBy a b r fact) : b.effective := by
  unfold RefundAttempt.effective
  rcases h.ended with hb | hb <;> rw [hb] <;> rfl

theorem applySucceeded_eq (hs : a.status.inFlight ∨ a.status = .failed) (r : String) (fact : RecordedFact) :
    ∃ b, applySucceeded s a r fact = s.updateAttempt a b ∧ EndedBy a b r fact := by
  by_cases hin : a.status.inFlight ∧ fact.matched ∧ (a.providerRefundId = none ∨ a.providerRefundId = some r)
  · refine ⟨_, if_pos (by simpa using hin), ⟨rfl, rfl, rfl, rfl, rfl, rfl, rfl, rfl⟩, rfl, rfl, rfl, .inl ?_⟩
    exact ⟨rfl, hin.1, hin.2.1, rfl⟩
  · exact ⟨_, (if_neg (by simpa using hin)).trans (if_pos hs), ⟨rfl, rfl, rfl, rfl, rfl, rfl, rfl, rfl⟩, rfl, rfl, rfl,
      .inr ⟨rfl, rfl⟩⟩

theorem EndedBy.free_iff (hi : Indexed s.attempts) (hon : ∀ x ∈ s.attempts, OnMoney cs x) (ha : a ∈ s.attempts)
    (hs : a.status.inFlight ∨ a.status = .failed) (h : EndedBy a b r fact) :
    Free s.attempts b ↔ Unclaimed s a r := by
  have hid : ∀ {x : RefundAttempt}, x.id ≠ b.id ↔ x.id ≠ a.id := by rw [h.same.id]
  constructor
  · intro hfree
    refine ⟨fun hnone x hx hxa hp hr => ?_, fun _ x hx hxa he => ?_⟩
    · have hb : b.providerRefundId = some r := by rw [h.providerRefund, hnone]; rfl
      exact hfree.providerRefund (by rw [hb]; simp) x hx (hid.mpr hxa) (by rw [hp, hr, hb, h.same.provider])
    · rw [← h.same.captureFactId]
      exact hfree.capture h.effective x hx (hid.mpr hxa) he
  · intro hun
    have hcapture : ∀ x ∈ s.attempts, x.id ≠ a.id → x.effective → x.captureFactId ≠ a.captureFactId := by
      intro x hx hxa he
      by_cases hf : a.status = .failed
      · exact hun.money hf x hx hxa he
      · exact hi.capture.ne (k := (·.id)) ha (inFlight_effective (hs.resolve_right hf)) hx hxa he
    refine ⟨fun hr x hx hxb hxr => ?_, fun hr x hx hxb he => ?_, fun _ ho x hx hxb hxe hxo hxp => ?_,
      fun _ x hx hxb he => by rw [h.same.captureFactId]; exact hcapture x hx (hid.mp hxb) he⟩
    · rw [h.receiptId] at hr hxr
      exact hi.receipt.ne (k := (·.id)) ha hr hx (hid.mp hxb) (by rw [hxr]; exact hr) hxr
    · obtain ⟨hp, hxr⟩ := Prod.ext_iff.mp he
      rw [h.same.provider] at hp
      cases har : a.providerRefundId with
      | none =>
        rw [h.providerRefund, har] at hxr
        exact hun.providerRefund har x hx (hid.mp hxb) hp hxr
      | some y =>
        rw [h.providerRefund, har] at hxr
        have hxr : x.providerRefundId = a.providerRefundId := hxr.trans har.symm
        exact hi.providerRefund.ne (k := (·.id)) ha (by rw [har]; simp) hx (hid.mp hxb)
          (by rw [hxr, har]; simp) (Prod.ext hp hxr)
    · -- two ordinary attempts of a payment return its settling capture
      have hxm := (hon x hx).2.resolve_left (by simp [hxo])
      have ham := (hon a ha).2.resolve_left (by simp [← h.same.captureSpecific, ho])
      exact hcapture x hx (hid.mp hxb) hxe (by rw [hxm, ham, hxp, h.same.paymentId])

theorem EndedBy.shape (hsh : Admitted (attemptShape a)) (hs : a.status.inFlight ∨ a.status = .failed)
    (hr : 1 ≤ r.length ∧ r.length ≤ 256) (h : EndedBy a b r fact) : Admitted (attemptShape b) := by
  obtain ⟨hunauth, -, -, hnots, hnotd⟩ := sent_status hs
  simp only [Admitted, attemptShape, List.forall_mem_cons, decide_eq_true_eq] at hsh ⊢
  obtain ⟨hamount, hauth, hrefund, -, hfail, hcode, hsucc, -⟩ := hsh
  have hsub : b.status ≠ .submitted ∧ b.status.unauthorized = false ∧ b.status ≠ .failed := by
    rcases h.ended with hb | hb <;> rw [hb] <;> decide
  refine ⟨by rw [h.same.amount]; exact hamount, ?_, ?_, .inl hsub.1, ?_, by rw [h.failureCode]; exact hcode, ?_, fun _ hx => absurd hx List.not_mem_nil⟩
  · rw [hsub.2.1, h.receiptId, ← hauth, hunauth]
  · rw [h.providerRefund]
    cases har : a.providerRefundId with
    | none => simpa using hr
    | some y => rw [har] at hrefund; exact hrefund
  · rcases h.status with ⟨hb, hin, -, -⟩ | ⟨hb, -⟩
    · refine .inl ?_
      rw [h.failureCode, ← hfail.resolve_right hnotd, hb]
      exact (decide_eq_false (inFlight_status hin).2).symm
    · exact .inr hb
  · rcases h.status with ⟨hb, -, -, hf⟩ | ⟨hb, hf⟩
    · rw [hb, hf]; rfl
    · rw [hb, hf, ← hsucc]
      exact (decide_eq_false hnots).symm

theorem EndedBy.admitted_iff (hsh : Admitted (attemptShape a)) (hs : a.status.inFlight ∨ a.status = .failed)
    (hr : 1 ≤ r.length ∧ r.length ≤ 256) (hm : Matches s a fact) (h : EndedBy a b r fact) :
    Admitted (attemptUpdateChecks s a b) ↔ Free s.attempts b := by
  rw [← attemptIndexes_admitted]
  refine ⟨fun hc => (Admitted.append.mp hc).2, fun hc => Admitted.append.mpr ⟨Admitted.append.mpr ⟨?_, ?_⟩, hc⟩⟩
  · obtain ⟨-, hterm, hdis, hnots, hnotd⟩ := sent_status hs
    have hmove : canTransition a.status b.status ∧ a.status ≠ b.status := by
      rcases h.status with ⟨hb, hin, -, -⟩ | ⟨hb, -⟩ <;> rw [hb]
      · exact ⟨(inFlight_status hin).1, hnots⟩
      · exact ⟨hdis, hnotd⟩
    simp only [Admitted, List.forall_mem_cons, decide_eq_true_eq, Bool.not_eq_true']
    refine ⟨hterm, .inr hmove.1, .inr (.inr h.receiptId), ?_, ?_, .inl hmove.2, fun _ hx => absurd hx List.not_mem_nil⟩
    · rw [h.providerRefund]
      cases a.providerRefundId with
      | none => exact .inr (.inl rfl)
      | some y => exact .inr (.inr rfl)
    · rcases h.status with ⟨hb, -, hmatched, hf⟩ | ⟨hb, -⟩
      · obtain ⟨f, hmem, hid, hbind, hamount, hcur⟩ := hm hmatched
        refine .inr (.inr (List.any_eq_true.mpr ⟨f, hmem, decide_eq_true ⟨?_, ?_, ?_, ?_⟩⟩))
        · rw [hf, hid]
        · rw [h.same.id]; exact hbind
        · rw [h.same.amount]; exact hamount
        · rw [h.same.currency]; exact hcur
      · exact .inr (.inl (by simp [hb]))
  · exact h.shape hsh hs hr

theorem applyStatus_eq (hl : lockAttempt s a.id = .ok a) (hs : a.status.inFlight ∨ a.status = .failed) (v : Success)
    (fact : RecordedFact) : ∃ b, applyStatus s a.id v.status (some fact) = s.updateAttempt a b ∧
      EndedBy a b v.providerRefundId fact := by
  obtain ⟨b, hb, he⟩ := applySucceeded_eq (s := s) hs v.providerRefundId fact
  refine ⟨b, ?_, he⟩
  unfold applyStatus
  rw [hl, ← hb]
  rfl

theorem applyStatus_evidence (hl : lockAttempt s a.id = .ok a) (hs : a.status.inFlight ∨ a.status = .failed)
    (h : applyStatus s a.id v.status (some fact) = .ok t) : t.facts = s.facts ∧ t.conflicts = s.conflicts := by
  obtain ⟨b, hb, -⟩ := applyStatus_eq hl hs v fact
  rw [hb] at h
  obtain ⟨-, rfl⟩ := updateAttempt_ok h
  exact ⟨rfl, rfl⟩

theorem applyStatus_ends_iff (hi : Indexed s.attempts) (hinv : LedgerInv cs s) (ha : a ∈ s.attempts)
    (hs : a.status.inFlight ∨ a.status = .failed) (hv : v.Storable) (hm : Matches s a fact) :
    (∃ u, applyStatus s a.id v.status (some fact) = .ok u ∧ Ended u a.id) ↔ Unclaimed s a v.providerRefundId := by
  obtain ⟨b, hb, he⟩ := applyStatus_eq (lockAttempt_eq hinv.attemptIds ha) hs v fact
  have hr : 1 ≤ v.providerRefundId.length ∧ v.providerRefundId.length ≤ 256 :=
    ⟨Nat.pos_of_ne_zero (String.length_eq_zero_iff.not.mpr hv.providerRefundId.1), hv.providerRefundId.2.1⟩
  rw [← he.free_iff hi hinv.attempts ha hs, ← he.admitted_iff (hi.shapes a ha) hs hr hm, hb]
  constructor
  · rintro ⟨u, hu, -⟩
    exact (updateAttempt_ok hu).1
  · intro hc
    exact ⟨s.replaceAttempt b, bind_eq_ok.mpr ⟨(), enforce_ok.mpr hc, rfl⟩, b, replaceRow_mem (k := (·.id)) ha he.same.id.symm, he.same.id, he.ended⟩

def CallsOk (s : Sys) : Prop :=
  ∀ c ∈ s.calls, ∀ v fact, c.status = Success.status v → c.fact = some fact →
    v.Storable ∧ ∃ a ∈ s.db.attempts, a.id = c.refundAttemptId ∧ Matches s.db a fact

theorem Matches.kept (h : Matches s a fact) (hm : SameMoney a b) (hf : ∀ f ∈ s.facts, f ∈ t.facts) : Matches t b fact := by
  intro hmatched
  obtain ⟨f, hmem, hid, hbind, hamount, hcur⟩ := h hmatched
  refine ⟨f, hf f hmem, hid, ?_, ?_, ?_⟩
  · rw [hm.id]; exact hbind
  · rw [hm.amount]; exact hamount
  · rw [hm.currency]; exact hcur

theorem step_calls (cs : Captures) (s : Sys) (x : Action) : ∀ c ∈ (step cs s x).calls, c ∈ s.calls ∨
    ∃ event fresh, observe s.db c.refundAttemptId c.status event fresh = .ok ((step cs s x).db, c.fact) := by
  have hcommit : ∀ {s : Sys} (r : Except PaymentError Db), (s.commit r).calls = s.calls := by
    intro s r
    cases r <;> rfl
  intro c hc
  cases x with
  | observe attemptId status event fresh =>
    simp only [step] at hc ⊢
    split at hc
    · rename_i db fact h
      rcases List.mem_cons.mp hc with rfl | hc
      · exact .inr ⟨event, fresh, by simp only [h]⟩
      · exact .inl hc
    · exact .inl hc
  | applyStatus d =>
    simp only [step] at hc
    split at hc
    · rw [hcommit] at hc
      exact .inl (List.mem_of_mem_erase hc)
    · exact .inl hc
  | lose d => exact .inl (List.mem_of_mem_erase hc)
  | _ => exact .inl (hcommit _ ▸ hc)

variable {s : Sys}

theorem CallsOk.step (hi : LedgerInv cs s.db) (h : CallsOk s) (x : Action) : CallsOk (step cs s x) := by
  obtain ⟨o, hs, -⟩ := step_dbStep cs s x
  intro c hc v fact hv hf
  rcases step_calls cs s x c hc with hc | ⟨event, fresh, hobs⟩
  · obtain ⟨hstore, a, ha, hid, hm⟩ := h c hc v fact hv hf
    obtain ⟨b, hb, hsame⟩ := hs.sameMoney hi a ha
    exact ⟨hstore, b, hb, hsame.id.trans hid, hm.kept hsame hs.facts_kept⟩
  · rw [hv, hf] at hobs
    obtain ⟨a, ha, -⟩ := bind_eq_ok.mp hobs
    obtain ⟨hmem, hid⟩ := lockAttempt_ok ha
    rw [← hid] at ha hobs
    obtain ⟨hstore, hattempts, -, hm⟩ := recordRefundFact_some ha hobs
    exact ⟨hstore, a, hattempts ▸ hmem, hid, hm⟩

theorem Runs.callsOk (h : Runs cs s) : CallsOk s := by
  refine h.invariant (fun s hs => hs ▸ nofun) ?_
  rintro s t hr hi ⟨x, rfl⟩
  exact hi.step (Runs.ledger hr) x

/-! ## Evidence is applicable -/

theorem apply_ends_iff (h : Runs cs s) (ha : a ∈ s.db.attempts) (hs : a.status.inFlight ∨ a.status = .failed)
    (hf : ∀ f ∈ s.db.facts, f.id ≠ fresh) :
    (∃ u, apply s.db a.id v.status event fresh = .ok u ∧ Kept u a v event ∧ Ended u a.id) ↔
      v.Storable ∧ Unclaimed s.db a v.providerRefundId := by
  have hl := lockAttempt_eq h.ledger.attemptIds ha
  -- a success that is not recorded leaves its attempt as it is
  have hsent : ¬ Ended s.db a.id := by
    rintro ⟨b, hb, hid, hended⟩
    obtain rfl := eq_of_key h.ledger.attemptIds hb ha hid
    obtain ⟨-, -, -, hnots, hnotd⟩ := sent_status hs
    exact hended.elim hnots hnotd
  have hsecond : ∀ {t : Db} {fact : RecordedFact},
      recordRefundFact s.db a.id v.amount v.currency v.providerRefundId event fresh = .ok (t, some fact) →
      t.attempts = s.db.attempts ∧ Kept t a v event ∧
      ((∃ u, applyStatus t a.id v.status (some fact) = .ok u ∧ Ended u a.id) ↔
        Unclaimed s.db a v.providerRefundId) := by
    intro t fact hrec
    obtain ⟨hv, hattempts, hkept, hm⟩ := recordRefundFact_some hl hrec
    obtain ⟨o, hstep⟩ : ∃ o, DbStep cs s.db o t := ⟨none, recordRefundFact_step hrec⟩
    refine ⟨hattempts, hkept, (applyStatus_ends_iff (h.indexed.step hstep) (h.ledger.step hstep) (hattempts ▸ ha) hs hv hm).trans ?_⟩
    constructor <;> rintro ⟨hr, hmoney⟩
    · exact ⟨hattempts ▸ hr, hattempts ▸ hmoney⟩
    · exact ⟨hattempts.symm ▸ hr, hattempts.symm ▸ hmoney⟩
  constructor
  · rintro ⟨u, hu, -, hended⟩
    obtain ⟨⟨t, fact⟩, hobs, happ⟩ := bind_eq_ok.mp hu
    cases fact with
    | none =>
      obtain ⟨a', -, happ⟩ := bind_eq_ok.mp happ
      cases happ
      rw [Ended, recordRefundFact_none hobs] at hended
      exact absurd hended hsent
    | some fact => exact ⟨(recordRefundFact_some hl hobs).1, (hsecond hobs).2.2.mp ⟨u, happ, hended⟩⟩
  · rintro ⟨hv, hun⟩
    obtain ⟨t, fact, hrec⟩ := recordRefundFact_succeeds event hl hv hf
    obtain ⟨hattempts, ⟨f, hfact, hkept⟩, hiff⟩ := hsecond hrec
    obtain ⟨u, happ, hended⟩ := hiff.mpr hun
    have ht : lockAttempt t a.id = .ok a := by
      unfold lockAttempt Db.findAttempt at hl ⊢
      rw [hattempts]
      exact hl
    obtain ⟨hfacts, hconflicts⟩ := applyStatus_evidence ht hs happ
    exact ⟨u, bind_eq_ok.mpr ⟨(t, some fact), hrec, happ⟩,
      ⟨f, hfacts.symm ▸ hfact, hconflicts.symm ▸ hkept⟩, hended⟩

theorem refund_evidence_ends_iff {s : Sys} (h : Runs cs s) (ha : a ∈ s.db.attempts)
    (hs : a.status.inFlight ∨ a.status = .failed) :
    (∀ (v : Success) event fresh, (∀ f ∈ s.db.facts, f.id ≠ fresh) →
      ((∃ u, apply s.db a.id v.status event fresh = .ok u ∧ Kept u a v event ∧ Ended u a.id) ↔
        v.Storable ∧ Unclaimed s.db a v.providerRefundId)) ∧
    ∀ (v : Success) fact, ⟨a.id, v.status, some fact⟩ ∈ s.calls →
      ((∃ u, applyStatus s.db a.id v.status (some fact) = .ok u ∧ Ended u a.id) ↔
        Unclaimed s.db a v.providerRefundId) := by
  refine ⟨fun v event fresh hf => apply_ends_iff h ha hs hf, fun v fact hc => ?_⟩
  obtain ⟨hv, b, hb, hid, hm⟩ := h.callsOk _ hc v fact rfl rfl
  obtain rfl := eq_of_key h.ledger.attemptIds hb ha hid
  exact applyStatus_ends_iff h.indexed h.ledger ha hs hv hm

end

def oneCapture : Captures where
  paymentOf _ := 1
  amountOf _ := 1000
  currencyOf _ := "EUR"
  providerOf _ := "test"
  settling _ := 1

def rejected : List Action :=
  [ .request 1 ⟨10, 100, none⟩, .commitAuthorized 10 1010 11, .startDispatch 10,
    .finishDispatch 10 (.rejected "provider_timeout") ]

def refundedAfterAll : Success := ⟨1000, "EUR", "re-1"⟩

/-- A second attempt was started meanwhile: the first one's refund is refused by the index, and stays unapplied. -/
theorem replacement_refuses_evidence :
    let s := run oneCapture Sys.new (rejected ++ [.request 1 ⟨20, 200, none⟩])
    let t := run oneCapture s
      [.observe 10 refundedAfterAll.status none 12, .applyStatus ⟨10, refundedAfterAll.status, some ⟨12, true⟩⟩]
    Runs oneCapture s ∧ (s.db.findAttempt 10).map (·.status) = some .failed ∧
      apply s.db 10 refundedAfterAll.status none 12 = .error (.refused "refund_attempt_one_effective") ∧
      (t.db.findAttempt 10).map (·.status) = some .failed ∧ t.calls = [] := by
  refine ⟨Runs.run (.init rfl) _, ?_, ?_, ?_, ?_⟩ <;> decide

def rejectedAttempt : RefundAttempt :=
  ⟨10, 1, 100, 1000, "EUR", 1, false, "test", .failed, some 1010, none, some "provider_timeout", none⟩

def observedAfterAll : List Action := rejected ++ [.observe 10 refundedAfterAll.status none 12]

theorem refundedAfterAll_storable : refundedAfterAll.Storable := ⟨by decide, by decide, by decide⟩

theorem refund_evidence_ends_rejected :
    (∃ u, apply (run oneCapture Sys.new rejected).db 10 refundedAfterAll.status none 12 = .ok u ∧
      Kept u rejectedAttempt refundedAfterAll none ∧ Ended u 10) ∧
    ∃ u, applyStatus (run oneCapture Sys.new observedAfterAll).db 10 refundedAfterAll.status (some ⟨12, true⟩) = .ok u ∧
      Ended u 10 :=
  ⟨((refund_evidence_ends_iff (Runs.run (.init rfl) rejected) (a := rejectedAttempt) (by decide) (.inr rfl)).1
      refundedAfterAll none 12 (by decide)).mpr ⟨refundedAfterAll_storable, by decide, by decide⟩,
    ((refund_evidence_ends_iff (Runs.run (.init rfl) observedAfterAll) (a := rejectedAttempt) (by decide) (.inr rfl)).2
      refundedAfterAll ⟨12, true⟩ (by decide)).mpr ⟨by decide, by decide⟩⟩

end NawaraCore.Refunds
