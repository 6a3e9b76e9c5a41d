import NawaraCore.Refund.AllocationSound

/-!
# The attempts table

In every reachable ledger each attempt has the shape that the table admits and the unique
indexes hold. An update is admitted by an index when no other attempt holds the value.
-/

namespace NawaraCore.Refunds

open Payments (Uuid PaymentError Admitted enforce enforce_ok enforce_bind_ok trim maxSafeInteger)

/-! ## The unique indexes -/

structure Free (l : List RefundAttempt) (b : RefundAttempt) : Prop where
  receipt : b.receiptId ≠ none → ∀ x ∈ l, x.id ≠ b.id → x.receiptId ≠ b.receiptId
  providerRefund : b.providerRefundId ≠ none → ∀ x ∈ l, x.id ≠ b.id →
    (x.provider, x.providerRefundId) ≠ (b.provider, b.providerRefundId)
  ordinary : b.effective → b.captureSpecific = false → ∀ x ∈ l, x.id ≠ b.id →
    x.effective → x.captureSpecific = false → x.paymentId ≠ b.paymentId
  capture : b.effective → ∀ x ∈ l, x.id ≠ b.id → x.effective → x.captureFactId ≠ b.captureFactId

structure Indexed (l : List RefundAttempt) : Prop where
  shapes : ∀ a ∈ l, Admitted (attemptShape a)
  receipt : UniqueOn (·.receiptId ≠ none) (·.receiptId) l
  providerRefund : UniqueOn (·.providerRefundId ≠ none) (fun a => (a.provider, a.providerRefundId)) l
  ordinary : UniqueOn (fun a => a.effective ∧ a.captureSpecific = false) (·.paymentId) l
  capture : UniqueOn (fun a => a.effective) (·.captureFactId) l

variable {o : Option Uuid}

section
variable {cs : Captures} {s t : Db} {l : List RefundAttempt} {a b x : RefundAttempt}

theorem attemptIndexes_admitted : Admitted (attemptIndexes s b) ↔ Free s.attempts b := by
  simp only [Admitted, attemptIndexes, List.forall_mem_cons, Bool.or_eq_true, List.any_eq_false, List.mem_filter,
    decide_eq_true_eq, and_imp, Bool.not_eq_eq_eq_not, Bool.not_true, not_and]
  constructor
  · rintro ⟨hr, hp, ho, hc, -⟩
    refine ⟨fun hn x hx hid => hr.resolve_left hn x hx hid, fun hn x hx hid he => ?_, fun he hs x hx hid hxe hxs => ?_,
      fun he x hx hid => hc.resolve_left (by simp [he]) x hx hid⟩
    · exact hp.resolve_left hn x hx hid (Prod.ext_iff.mp he).1 (Prod.ext_iff.mp he).2
    · exact (ho.resolve_left (by simp [he, hs])) x hx hid hxe hxs
  · rintro ⟨hr, hp, ho, hc⟩
    refine ⟨or_iff_not_imp_left.mpr fun hn x hx hid => hr hn x hx hid,
      or_iff_not_imp_left.mpr fun hn x hx hid hxp hxr => hp hn x hx hid (Prod.ext hxp hxr),
      or_iff_not_imp_left.mpr fun hn x hx hid hxe hxs => ?_,
      or_iff_not_imp_left.mpr fun hn x hx hid => hc (by simpa using hn) x hx hid,
      fun c hc => absurd hc List.not_mem_nil⟩
    have hn : b.effective = true ∧ b.captureSpecific = false := by simpa using hn
    exact ho hn.1 hn.2 x hx hid hxe hxs

theorem Indexed.nil : Indexed [] := ⟨fun _ ha => absurd ha List.not_mem_nil, .nil, .nil, .nil, .nil⟩

theorem Indexed.append (h : Indexed l) (hs : Admitted (attemptShape b)) (hid : ∀ x ∈ l, x.id ≠ b.id) (hb : Free l b) :
    Indexed (l ++ [b]) where
  shapes x hx := by
    rcases mem_append_row hx with hx | rfl
    · exact h.shapes x hx
    · exact hs
  receipt := h.receipt.append fun x hx _ hn => hb.receipt hn x hx (hid x hx)
  providerRefund := h.providerRefund.append fun x hx _ hn => hb.providerRefund hn x hx (hid x hx)
  ordinary := h.ordinary.append fun x hx hp hn => hb.ordinary hn.1 hn.2 x hx (hid x hx) hp.1 hp.2
  capture := h.capture.append fun x hx hp hn => hb.capture hn x hx (hid x hx) hp

theorem Indexed.replace (h : Indexed l) (hs : Admitted (attemptShape b)) (hb : Free l b) :
    Indexed (replaceRow (·.id) b l) where
  shapes x hx := by
    rcases mem_replaceRow hx with rfl | ⟨hx, -⟩
    · exact hs
    · exact h.shapes x hx
  receipt := h.receipt.replace fun x hx hid _ hn => hb.receipt hn x hx hid
  providerRefund := h.providerRefund.replace fun x hx hid _ hn => hb.providerRefund hn x hx hid
  ordinary := h.ordinary.replace fun x hx hid hp hn => hb.ordinary hn.1 hn.2 x hx hid hp.1 hp.2
  capture := h.capture.replace fun x hx hid hp hn => hb.capture hn x hx hid hp

/-! ## Runs -/

theorem DbStep.attempts_cases (h : DbStep cs s o t) :
    t.attempts = s.attempts ∨
      (∃ a, Admitted (attemptInsertChecks cs s a) ∧ t.attempts = s.attempts ++ [a]) ∨
      ∃ a b, a ∈ s.attempts ∧ SameMoney a b ∧ Admitted (attemptUpdateChecks s a b) ∧
        t.attempts = replaceRow (·.id) b s.attempts := by
  cases h with
  | requested a hc => exact .inr (.inl ⟨a, hc, rfl⟩)
  | updated a b ha hm hc => exact .inr (.inr ⟨a, b, ha, hm, hc, rfl⟩)
  | authorized a b z ha hm hc hz => exact .inr (.inr ⟨a, b, ha, hm, hc, rfl⟩)
  | contradicted c => exact .inl (insertConflict_tables s c).1
  | allocated f z now he hc hu => exact .inl allocated_attempts
  | _ => exact .inl rfl

theorem DbStep.facts_kept (h : DbStep cs s o t) : ∀ f ∈ s.facts, f ∈ t.facts := by
  cases h with
  | observed f hc hb hn => exact fun g hg => List.mem_append_left _ hg
  | contradicted c => rw [(insertConflict_tables s c).2.1]; exact fun g hg => hg
  | allocated f z now he hc hu => rw [allocated_facts]; exact fun g hg => hg
  | _ => exact fun g hg => hg

theorem DbStep.sameMoney (hi : LedgerInv cs s) (h : DbStep cs s o t) :
    ∀ a ∈ s.attempts, ∃ b ∈ t.attempts, SameMoney a b := by
  intro a ha
  have hsame : SameMoney a a := ⟨rfl, rfl, rfl, rfl, rfl, rfl, rfl, rfl⟩
  rcases h.attempts_cases with ht | ⟨b, -, ht⟩ | ⟨c, b, hc, hm, -, ht⟩ <;> rw [ht]
  · exact ⟨a, ha, hsame⟩
  · exact ⟨a, List.mem_append_left _ ha, hsame⟩
  · by_cases hid : a.id = b.id
    · obtain rfl := eq_of_key hi.attemptIds ha hc (hid.trans hm.id)
      exact ⟨b, replaceRow_mem ha hid, hm⟩
    · exact ⟨a, replaceRow_other ha hid, hsame⟩

theorem Indexed.step (h : Indexed s.attempts) {o : Option Uuid} (hs : DbStep cs s o t) : Indexed t.attempts := by
  rcases hs.attempts_cases with ht | ⟨a, hc, ht⟩ | ⟨a, b, -, -, hc, ht⟩ <;> rw [ht]
  · exact h
  · obtain ⟨hfront, hindexes⟩ := Admitted.append.mp hc
    obtain ⟨hguards, hshape⟩ := Admitted.append.mp hfront
    refine h.append hshape ?_ (attemptIndexes_admitted.mp hindexes)
    simpa [Admitted] using hguards ("refund_attempt_pkey", !s.attempts.any (·.id = a.id)) (by simp)
  · obtain ⟨hfront, hindexes⟩ := Admitted.append.mp hc
    exact h.replace (Admitted.append.mp hfront).2 (attemptIndexes_admitted.mp hindexes)

theorem Runs.indexed {s : Sys} (h : Runs cs s) : Indexed s.db.attempts := by
  refine h.invariant (P := fun s => Indexed s.db.attempts) (fun s hs => hs ▸ .nil) ?_
  rintro s t - hi ⟨a, rfl⟩
  obtain ⟨o, hs, -⟩ := step_dbStep cs s a
  exact hi.step hs

end

end NawaraCore.Refunds
