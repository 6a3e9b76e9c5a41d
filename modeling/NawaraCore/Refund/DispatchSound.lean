import NawaraCore.Refund.Dispatch
import NawaraCore.Refund.EvidenceSound

/-!
# Soundness of the refund dispatch

A receipt on an attempt was consumed for it, a row that was dispatched stays so, and a
pass that is about to call has seen its row dispatched. The indexes of the attempts
table do the rest.
-/

namespace NawaraCore.Refunds

open Payments (Uuid PaymentError Admitted enforce enforce_bind_ok)
open RefundDispatch (dispatched)

variable {id : Uuid} {l : List RefundAttempt}

section
variable {cs : Captures} {s t : Db} {a b c : RefundAttempt}

theorem SameMoney.refl (a : RefundAttempt) : SameMoney a a := ⟨rfl, rfl, rfl, rfl, rfl, rfl, rfl, rfl⟩

theorem SameMoney.trans (h : SameMoney a b) (h' : SameMoney b c) : SameMoney a c :=
  ⟨h'.id.trans h.id, h'.paymentId.trans h.paymentId, h'.refundCaseId.trans h.refundCaseId, h'.amount.trans h.amount,
    h'.currency.trans h.currency, h'.captureFactId.trans h.captureFactId, h'.captureSpecific.trans h.captureSpecific,
    h'.provider.trans h.provider⟩

theorem canTransition_dispatched {x y : RefundAttemptStatus} (h : canTransition x y) (hx : dispatched x) : dispatched y := by
  revert h hx
  cases x <;> cases y <;> decide

theorem DbStep.dispatched_kept (hi : LedgerInv cs s) {o : Option Uuid} (h : DbStep cs s o t) :
    ∀ a ∈ s.attempts, ∃ b ∈ t.attempts, SameMoney a b ∧ (dispatched a.status → dispatched b.status) := by
  intro a ha
  rcases h.attempts_cases with ht | ⟨b, -, ht⟩ | ⟨c, b, hc, hm, hup, ht⟩ <;> rw [ht]
  · exact ⟨a, ha, .refl a, id⟩
  · exact ⟨a, List.mem_append_left _ ha, .refl a, id⟩
  · by_cases hid : a.id = b.id
    · obtain rfl := eq_of_key hi.attemptIds ha hc (hid.trans hm.id)
      refine ⟨b, replaceRow_mem ha hid, hm, fun hd => ?_⟩
      have hmove : a.status = b.status ∨ canTransition a.status b.status := by
        simpa using hup ("refund_attempt_transition", a.status = b.status ∨ canTransition a.status b.status)
          (by simp [attemptUpdateChecks])
      rcases hmove with he | hmove
      · exact he ▸ hd
      · exact canTransition_dispatched hmove hd
    · exact ⟨a, replaceRow_other ha hid, .refl a, id⟩

theorem Indexed.receipt_of_dispatched (h : Indexed l) (ha : a ∈ l) (hd : dispatched a.status) :
    ∃ r, a.receiptId = some r := by
  have hs : a.status.unauthorized = a.receiptId.isNone := by
    simpa using h.shapes a ha ("refund_attempt_authorization_shape", a.status.unauthorized = a.receiptId.isNone)
      (by simp [attemptShape])
  apply Option.ne_none_iff_exists'.mp
  intro hn
  rw [hn] at hs
  revert hs hd
  cases a.status <;> decide

/-! ## Receipts -/

def OldReceipts (s t : Db) : Prop :=
  ∀ b ∈ t.attempts, ∀ r, b.receiptId = some r → ∃ a ∈ s.attempts, a.id = b.id ∧ a.receiptId = some r

theorem OldReceipts.of_attempts (h : t.attempts = s.attempts) : OldReceipts s t := by
  intro b hb r hr
  exact ⟨b, h ▸ hb, rfl, hr⟩

theorem OldReceipts.update (h : s.updateAttempt a b = .ok t) (ha : a ∈ s.attempts) (hid : b.id = a.id)
    (hr : b.receiptId = a.receiptId) : OldReceipts s t := by
  obtain ⟨-, rfl⟩ := updateAttempt_ok h
  intro x hx r hxr
  rcases mem_replaceRow hx with rfl | ⟨hx, -⟩
  · exact ⟨a, ha, hid.symm, hr ▸ hxr⟩
  · exact ⟨x, hx, rfl, hxr⟩

theorem OldReceipts.request {paymentId : Uuid} {input : RefundRequestInput} (h : request cs s paymentId input = .ok t) :
    OldReceipts s t := by
  obtain ⟨-, rfl⟩ := enforce_bind_ok h
  intro b hb r hr
  rcases mem_append_row hb with hb | rfl
  · exact ⟨b, hb, rfl, hr⟩
  · cases hr

theorem OldReceipts.commitUnauthorized {expired : Bool} (h : commitUnauthorized s id expired = .ok t) :
    OldReceipts s t := by
  obtain ⟨a, ha, h⟩ := bind_eq_ok.mp h
  split at h
  · exact .update h (lockAttempt_ok ha).1 rfl rfl
  · cases h
    exact .of_attempts rfl

theorem OldReceipts.startDispatch (h : startDispatch s id = .ok t) : OldReceipts s t := by
  obtain ⟨a, ha, h⟩ := bind_eq_ok.mp h
  split at h
  · exact .update h (lockAttempt_ok ha).1 rfl rfl
  · cases h
    exact .of_attempts rfl

theorem OldReceipts.finishDispatch {result : RefundDispatchResult}
    (h : finishDispatch s id result = .ok t) : OldReceipts s t := by
  obtain ⟨a, ha, h⟩ := bind_eq_ok.mp h
  have hmem := (lockAttempt_ok ha).1
  split at h
  · cases h
    exact .of_attempts rfl
  cases result with
  | accepted providerRefundId => exact .update h hmem rfl rfl
  | rejected code => exact .update h hmem rfl rfl
  | ambiguous =>
    dsimp only at h
    split at h
    · exact .update h hmem rfl rfl
    · cases h
      exact .of_attempts rfl

variable {status : RefundStatusResult} {fact : Option RecordedFact}

theorem OldReceipts.applyStatus
    (h : applyStatus s id status fact = .ok t) : OldReceipts s t := by
  obtain ⟨a, ha, h⟩ := bind_eq_ok.mp h
  have hmem := (lockAttempt_ok ha).1
  split at h
  · unfold applySucceeded at h
    dsimp only at h
    split at h
    · exact .update h hmem rfl rfl
    split at h
    · exact .update h hmem rfl rfl
    · cases h
      exact .of_attempts rfl
  · split at h
    · exact .update h hmem rfl rfl
    · cases h
      exact .of_attempts rfl
  · cases h
    exact .of_attempts rfl

theorem insertFact_attempts {f : RefundFact} {inserted : Bool} (h : s.insertFact f = .ok (t, inserted)) :
    t.attempts = s.attempts := by
  have ht := (insertFact_ok h).2
  cases inserted with
  | true => rw [ht.1]
  | false => rw [ht.1]

theorem observe_attempts {fresh : Uuid} {event : Option Uuid}
    (h : observe s id status event fresh = .ok (t, fact)) : t.attempts = s.attempts := by
  cases status with
  | succeeded amount currency providerRefundId =>
    have h' : recordRefundFact s id amount currency providerRefundId event fresh = .ok (t, fact) := h
    obtain ⟨a, ha, -⟩ := bind_eq_ok.mp h'
    obtain ⟨-, rfl⟩ := lockAttempt_ok ha
    cases fact with
    | none => exact recordRefundFact_none (v := ⟨amount, currency, providerRefundId⟩) h'
    | some fact => exact (recordRefundFact_some (v := ⟨amount, currency, providerRefundId⟩) ha h').2.1
  | _ =>
    cases h
    rfl

theorem allocate_attempts (cs : Captures) {factId : Uuid} {now : Int} {o : AllocationOutcome}
    (h : allocate s factId now = .ok (t, o)) : t.attempts = s.attempts := by
  rcases allocate_cases h with ⟨rfl, -⟩ | ⟨b, rfl, -⟩ | ⟨f, z, -, he, h⟩
  · rfl
  · rfl
  · rw [(@allocateTo_step _ cs _ _ _ _ _ he h).2]
    exact allocated_attempts

theorem OldReceipts.commitAuthorized {receiptId authorizationId : Uuid}
    (h : commitAuthorized s id receiptId authorizationId = .ok t) :
    ∀ b ∈ t.attempts, ∀ r, b.receiptId = some r →
      (∃ a ∈ s.attempts, a.id = b.id ∧ a.receiptId = some r) ∨ (b.id = id ∧ r = receiptId) := by
  obtain ⟨a, ha, h⟩ := bind_eq_ok.mp h
  intro b hb r hr
  split at h
  · obtain ⟨u, hu, h⟩ := bind_eq_ok.mp h
    obtain ⟨-, rfl⟩ := updateAttempt_ok hu
    obtain ⟨-, rfl⟩ := enforce_bind_ok h
    rcases mem_replaceRow hb with rfl | ⟨hb, -⟩
    · exact .inr ⟨(lockAttempt_ok ha).2, (Option.some.inj hr).symm⟩
    · exact .inl ⟨b, hb, rfl, hr⟩
  · cases h
    exact .inl ⟨b, hb, rfl, hr⟩

theorem step_receipts (s : Sys) (x : Action) : ∀ b ∈ (step cs s x).db.attempts, ∀ r, b.receiptId = some r →
    (∃ a ∈ s.db.attempts, a.id = b.id ∧ a.receiptId = some r) ∨ ∃ z, x = .commitAuthorized b.id r z := by
  have hcommit : ∀ {s : Sys} {p : Except PaymentError Db}, (∀ t, p = .ok t → OldReceipts s.db t) →
      OldReceipts s.db (s.commit p).db := by
    intro s p h
    cases p with
    | error e => exact .of_attempts rfl
    | ok t => exact h t rfl
  intro b hb r hr
  cases x with
  | commitAuthorized id receiptId authorizationId =>
    simp only [step] at hb
    cases hc : Refunds.commitAuthorized s.db id receiptId authorizationId with
    | error e =>
      rw [hc] at hb
      exact .inl ⟨b, hb, rfl, hr⟩
    | ok t =>
      rw [hc] at hb
      rcases OldReceipts.commitAuthorized hc b hb r hr with h | ⟨rfl, rfl⟩
      · exact .inl h
      · exact .inr ⟨_, rfl⟩
  | request paymentId input => exact .inl (hcommit (fun t h => .request h) b hb r hr)
  | refuse id =>
    refine .inl (hcommit (fun t h => ?_) b hb r hr)
    obtain ⟨-, rfl⟩ := enforce_bind_ok h
    exact .of_attempts rfl
  | commitUnauthorized id expired => exact .inl (hcommit (fun t h => .commitUnauthorized h) b hb r hr)
  | startDispatch id => exact .inl (hcommit (fun t h => .startDispatch h) b hb r hr)
  | finishDispatch id result => exact .inl (hcommit (fun t h => .finishDispatch h) b hb r hr)
  | observe attemptId status event fresh =>
    simp only [step] at hb
    split at hb
    · rename_i db fact h
      exact .inl (OldReceipts.of_attempts (observe_attempts h) b hb r hr)
    · exact .inl ⟨b, hb, rfl, hr⟩
  | applyStatus c =>
    simp only [step] at hb
    split at hb
    · exact .inl (hcommit (s := { s with calls := s.calls.erase c }) (fun t h => .applyStatus h) b hb r hr)
    · exact .inl ⟨b, hb, rfl, hr⟩
  | lose c => exact .inl ⟨b, hb, rfl, hr⟩
  | keepUnmatched provider txn amount currency event fresh =>
    refine .inl (hcommit (fun t h => ?_) b hb r hr)
    unfold recordUnmatchedFact at h
    split at h
    · cases h
      exact .of_attempts rfl
    · obtain ⟨⟨u, inserted⟩, hins, h⟩ := bind_eq_ok.mp h
      cases h
      exact .of_attempts (insertFact_attempts hins)
  | associate x =>
    refine .inl (hcommit (fun t h => ?_) b hb r hr)
    obtain ⟨-, rfl⟩ := enforce_bind_ok h
    exact .of_attempts rfl
  | decideAssociation x status =>
    refine .inl (hcommit (fun t h => ?_) b hb r hr)
    obtain ⟨-, rfl⟩ := enforce_bind_ok h
    exact .of_attempts rfl
  | allocate factId now =>
    refine .inl (hcommit (fun t h => ?_) b hb r hr)
    obtain ⟨p, hp, rfl⟩ := map_eq_ok.mp h
    exact .of_attempts (allocate_attempts cs (o := p.2) hp)

end

end NawaraCore.Refunds

namespace NawaraCore.RefundDispatch

open Payments (Uuid PaymentError Admitted)
open Refunds (RefundAttempt RefundDispatchResult SameMoney LedgerInv Indexed startDispatch)

/-! ## Steps -/

inductive SysStep (cfg : DispatchConfig) (s : Sys) : Sys → Prop
  | idle : SysStep cfg s s
  | ledger (y : Refunds.Action) (hy : ∀ id r z, y = .commitAuthorized id r z → ⟨id, r⟩ ∈ s.consumptions) :
    SysStep cfg s { s with ledger := Refunds.step cfg.captures s.ledger y }
  | consumed (c : Consumption) : SysStep cfg s { s with consumptions := c :: s.consumptions }
  | scanned (a : RefundAttempt) (ha : a ∈ s.ledger.db.attempts) :
    SysStep cfg s { s with works := ⟨a, .scanned⟩ :: s.works }
  | dropped (w : Work) : SysStep cfg s (s.drop w)
  | moved (w : Work) (stage : WorkStage) (hw : w ∈ s.works)
    (hd : stage = .claimed ∨ (stage = .sending ∧ dispatched w.attempt.status)) : SysStep cfg s (s.goOn w stage)
  | started (w : Work) (db : Refunds.Db) (hw : w ∈ s.works) (hr : s.rowIn w.attempt.id .authorized)
    (hdb : startDispatch s.ledger.db w.attempt.id = .ok db) :
    SysStep cfg s ({ s with ledger := { s.ledger with db } }.goOn w .sending)
  | called (w : Work) (hw : w ∈ s.works) (hs : w.stage = .sending) :
    SysStep cfg s ({ s with calls := callOf cfg w.attempt :: s.calls }.goOn w .sent)
  | finished (w : Work) (result : RefundDispatchResult) :
    SysStep cfg s ({ s with ledger := Refunds.step cfg.captures s.ledger (.finishDispatch w.attempt.id result) }.drop w)

variable {a : RefundAttempt}
variable {db : Refunds.Db} {b : RefundAttempt}

section
variable {cfg : DispatchConfig} {s t : Sys} {w : Work}

theorem startSending_step (hw : w ∈ s.works) : SysStep cfg s (startSending s w) := by
  unfold startSending
  split
  · exact .dropped w
  rename_i hr
  split
  · rename_i db hdb
    exact .started w db hw (by simpa using hr) hdb
  · exact .dropped w

theorem proceed_step (hw : w ∈ s.works) : SysStep cfg s (proceed cfg s w) := by
  unfold proceed
  split
  · split
    · exact .moved w .claimed hw (.inl rfl)
    · exact .dropped w
  · split
    · exact .dropped w
    split
    · exact .dropped w
    split
    · exact startSending_step hw
    split
    · rename_i hd
      exact .moved w .sending hw (.inr ⟨rfl, by rw [hd]; rfl⟩)
    · exact .idle
  · rename_i hs
    exact .called w hw hs
  · exact .idle

theorem statusRead_step (hw : w ∈ s.works) (status : Refunds.RefundStatusResult) :
    SysStep cfg s (statusRead cfg s w status) := by
  unfold statusRead
  split
  · exact .dropped w
  split
  · rename_i hd
    exact .moved w .sending hw (.inr ⟨rfl, by rw [hd.2]; rfl⟩)
  · exact .dropped w

theorem step_sysStep (cfg : DispatchConfig) (s : Sys) (x : Action) : SysStep cfg s (step cfg s x) := by
  cases x with
  | ledger y =>
    simp only [step]
    split
    · exact .idle
    · rename_i hown
      refine .ledger y ?_
      rintro id r z rfl
      exact absurd rfl hown
  | consume consumeRef receiptId =>
    simp only [step]
    split
    · exact .idle
    · exact .consumed _
  | authorize id authorizationId =>
    simp only [step]
    split
    · exact .idle
    · rename_i c hc
      refine .ledger _ ?_
      rintro _ _ _ ⟨⟩
      obtain rfl : c.consumeRef = id := by simpa using List.find?_some hc
      exact List.mem_of_find?_eq_some hc
  | scan a =>
    simp only [step]
    split
    · rename_i ha
      exact .scanned a ha.1
    · exact .idle
  | proceed w =>
    simp only [step]
    split
    · rename_i hw
      exact proceed_step hw
    · exact .idle
  | statusRead w status =>
    simp only [step]
    split
    · rename_i hw
      exact statusRead_step hw.1 status
    · exact .idle
  | finish w result =>
    simp only [step]
    split
    · exact .finished w result
    · exact .idle
  | lose w => exact .dropped w

theorem SysStep.ledger_step (h : SysStep cfg s t) : t.ledger = s.ledger ∨
    ∃ y, t.ledger = Refunds.step cfg.captures s.ledger y ∧
      ∀ id r z, y = .commitAuthorized id r z → ⟨id, r⟩ ∈ s.consumptions := by
  cases h with
  | ledger y hy => exact .inr ⟨y, rfl, hy⟩
  | started w db hw hr hdb =>
    refine .inr ⟨.startDispatch w.attempt.id, ?_, fun id r z hy => by cases hy⟩
    simp only [Refunds.step, hdb]
    rfl
  | finished w result => exact .inr ⟨.finishDispatch w.attempt.id result, rfl, fun id r z hy => by cases hy⟩
  | _ => exact .inl rfl

theorem SysStep.consumptions (h : SysStep cfg s t) : ∀ c ∈ s.consumptions, c ∈ t.consumptions := by
  intro c hc
  cases h with
  | consumed d => exact List.mem_cons_of_mem _ hc
  | _ => exact hc

theorem SysStep.calls (h : SysStep cfg s t) : t.calls = s.calls ∨
    ∃ w ∈ s.works, w.stage = .sending ∧ t.calls = callOf cfg w.attempt :: s.calls := by
  cases h with
  | called w hw hs => exact .inr ⟨w, hw, hs, rfl⟩
  | _ => exact .inl rfl

theorem Runs.refunds (h : Runs cfg s) : Refunds.Runs cfg.captures s.ledger := by
  induction h with
  | init h => exact h ▸ .init rfl
  | step _ ha ih =>
    obtain ⟨x, rfl⟩ := ha
    rcases (step_sysStep cfg _ x).ledger_step with h | ⟨y, h, -⟩ <;> rw [h]
    · exact ih
    · exact .step ih ⟨y, rfl⟩

/-! ## Runs -/

def OnRow (s : Sys) (w : Work) : Prop :=
  ∃ b ∈ s.ledger.db.attempts, SameMoney w.attempt b ∧
    (dispatched w.attempt.status ∨ w.stage = .sending ∨ w.stage = .sent → dispatched b.status)

structure DispatchInv (cfg : DispatchConfig) (s : Sys) : Prop where
  receipts : ∀ a ∈ s.ledger.db.attempts, ∀ r, a.receiptId = some r → ⟨a.id, r⟩ ∈ s.consumptions
  works : ∀ w ∈ s.works, OnRow s w
  calls : ∀ c ∈ s.calls, ∃ a ∈ s.ledger.db.attempts, c = callOf cfg a ∧ dispatched a.status

theorem SysStep.rows (h : SysStep cfg s t) (hi : LedgerInv cfg.captures s.ledger.db) :
    ∀ a ∈ s.ledger.db.attempts, ∃ b ∈ t.ledger.db.attempts, SameMoney a b ∧ (dispatched a.status → dispatched b.status) := by
  intro a ha
  rcases h.ledger_step with he | ⟨y, he, -⟩ <;> rw [he]
  · exact ⟨a, ha, .refl a, id⟩
  · obtain ⟨o, hs, -⟩ := Refunds.step_dbStep cfg.captures s.ledger y
    exact hs.dispatched_kept hi a ha

theorem SysStep.receipts (h : SysStep cfg s t) (hi : DispatchInv cfg s) :
    ∀ a ∈ t.ledger.db.attempts, ∀ r, a.receiptId = some r → ⟨a.id, r⟩ ∈ t.consumptions := by
  intro a ha r hr
  apply h.consumptions
  rcases h.ledger_step with he | ⟨y, he, hy⟩ <;> rw [he] at ha
  · exact hi.receipts a ha r hr
  rcases Refunds.step_receipts s.ledger y a ha r hr with ⟨b, hb, hid, hbr⟩ | ⟨z, hz⟩
  · exact hid ▸ hi.receipts b hb r hbr
  · exact hy _ _ _ hz

theorem callOf_same (h : SameMoney a b) : callOf cfg b = callOf cfg a := by
  unfold callOf
  rw [h.id, h.paymentId, h.captureFactId, h.captureSpecific, h.amount, h.currency]

theorem startDispatch_row {u : Refunds.Db} (hi : LedgerInv cfg.captures db)
    (h : startDispatch db a.id = .ok u) (ha : a ∈ db.attempts) (hs : a.status = .authorized) :
    ∃ b ∈ u.attempts, b.id = a.id ∧ dispatched b.status := by
  obtain ⟨c, hc, hup⟩ := bind_eq_ok.mp h
  obtain ⟨hmem, hid⟩ := Refunds.lockAttempt_ok hc
  obtain rfl := eq_of_key hi.attemptIds hmem ha hid
  rw [if_pos hs] at hup
  obtain ⟨-, rfl⟩ := Refunds.updateAttempt_ok hup
  exact ⟨_, replaceRow_mem ha rfl, rfl, rfl⟩

theorem SysStep.onRow (h : SysStep cfg s t) (hi : LedgerInv cfg.captures s.ledger.db) (hw : OnRow s w) : OnRow t w := by
  obtain ⟨b, hb, hm, hd⟩ := hw
  obtain ⟨c, hc, hm', hd'⟩ := h.rows hi b hb
  exact ⟨c, hc, hm.trans hm', fun hx => hd' (hd hx)⟩

theorem SysStep.works (h : SysStep cfg s t) : ∀ v ∈ t.works, v ∈ s.works ∨
    (v.stage = .scanned ∧ v.attempt ∈ s.ledger.db.attempts) ∨
    ∃ w ∈ s.works, v.attempt = w.attempt ∧
      (v.stage = .claimed ∨ dispatched w.attempt.status ∨ w.stage = .sending ∨
        (s.rowIn w.attempt.id .authorized ∧ ∃ db, startDispatch s.ledger.db w.attempt.id = .ok db ∧ t.ledger.db = db)) := by
  intro v hv
  cases h with
  | scanned a ha =>
    rcases List.mem_cons.mp hv with rfl | hv
    · exact .inr (.inl ⟨rfl, ha⟩)
    · exact .inl hv
  | dropped w => exact .inl (List.mem_of_mem_erase hv)
  | finished w result => exact .inl (List.mem_of_mem_erase hv)
  | moved w stage hw hd =>
    rcases List.mem_cons.mp hv with rfl | hv
    · exact .inr (.inr ⟨w, hw, rfl, hd.imp_right fun hd => .inl hd.2⟩)
    · exact .inl (List.mem_of_mem_erase hv)
  | started w db hw hr hdb =>
    rcases List.mem_cons.mp hv with rfl | hv
    · exact .inr (.inr ⟨w, hw, rfl, .inr (.inr (.inr ⟨hr, db, hdb, rfl⟩))⟩)
    · exact .inl (List.mem_of_mem_erase hv)
  | called w hw hs =>
    rcases List.mem_cons.mp hv with rfl | hv
    · exact .inr (.inr ⟨w, hw, rfl, .inr (.inr (.inl hs))⟩)
    · exact .inl (List.mem_of_mem_erase hv)
  | _ => exact .inl hv

theorem DispatchInv.step (hi : DispatchInv cfg s) (hl : LedgerInv cfg.captures s.ledger.db)
    (hl' : LedgerInv cfg.captures t.ledger.db) (h : SysStep cfg s t) : DispatchInv cfg t where
  receipts := h.receipts hi
  works v hv := by
    rcases h.works v hv with hv | ⟨hs, ha⟩ | ⟨w, hw, hva, hd⟩
    · exact h.onRow hl (hi.works v hv)
    · obtain ⟨b, hb, hm, hd⟩ := h.rows hl v.attempt ha
      refine ⟨b, hb, hm, fun hx => hd ?_⟩
      simpa [hs] using hx
    · obtain ⟨b, hb, hm, hrow⟩ := hi.works w hw
      obtain ⟨c, hc, hm', hkept⟩ := h.rows hl b hb
      refine ⟨c, hc, hva ▸ hm.trans hm', fun hx => ?_⟩
      rcases hd with hs | hs | hs | ⟨hr, db, hdb, rfl⟩
      · refine hkept (hrow (.inl ?_))
        rw [hs, hva] at hx
        simpa using hx
      · exact hkept (hrow (.inl hs))
      · exact hkept (hrow (.inr (.inl hs)))
      · obtain ⟨d, hd, hid⟩ := List.any_eq_true.mp hr
        simp only [decide_eq_true_eq] at hid
        obtain ⟨e, he, hed, hdisp⟩ := startDispatch_row hl (a := d) (hid.1 ▸ hdb) hd hid.2
        obtain rfl := eq_of_key hl'.attemptIds he hc (hed.trans (hid.1.trans ((hm.trans hm').id.symm)))
        exact hdisp
  calls c hc := by
    have hnext : ∀ a ∈ s.ledger.db.attempts, dispatched a.status →
        ∃ b ∈ t.ledger.db.attempts, callOf cfg a = callOf cfg b ∧ dispatched b.status := by
      intro a ha hd
      obtain ⟨b, hb, hm, hkept⟩ := h.rows hl a ha
      exact ⟨b, hb, (callOf_same hm).symm, hkept hd⟩
    have hold : c ∈ s.calls → ∃ b ∈ t.ledger.db.attempts, c = callOf cfg b ∧ dispatched b.status := by
      intro hc
      obtain ⟨a, ha, rfl, hd⟩ := hi.calls c hc
      exact hnext a ha hd
    rcases h.calls with he | ⟨w, hw, hs, he⟩ <;> rw [he] at hc
    · exact hold hc
    rcases List.mem_cons.mp hc with rfl | hc
    · obtain ⟨a, ha, hm, hd⟩ := hi.works w hw
      rw [← callOf_same hm]
      exact hnext a ha (hd (.inr (.inl hs)))
    · exact hold hc

theorem Runs.dispatch (h : Runs cfg s) : DispatchInv cfg s := by
  induction h with
  | init h =>
    subst h
    exact ⟨fun a ha => absurd ha List.not_mem_nil, fun w hw => absurd hw List.not_mem_nil, fun c hc => absurd hc List.not_mem_nil⟩
  | step hr ha ih =>
    have hr' : Runs cfg _ := .step hr ha
    obtain ⟨x, rfl⟩ := ha
    exact ih.step (Runs.refunds hr).ledger (Runs.refunds hr').ledger (step_sysStep cfg _ x)

/-! ## One captured money -/

def OfMoney (a b : RefundAttempt) : Prop :=
  b.captureFactId = a.captureFactId ∨
    (a.captureSpecific = false ∧ b.captureSpecific = false ∧ b.paymentId = a.paymentId)

def SuccessEvidence (db : Refunds.Db) (a : RefundAttempt) : Prop :=
  (∃ f ∈ db.facts, f.binding.any (·.refundAttemptId = a.id)) ∨
    ∃ s ∈ db.associations, (s.status = .authorizationPending ∨ s.status = .associated) ∧
      ∃ z ∈ db.authorizations, z.id = s.refundAuthorizationId ∧ z.refundAttemptId = a.id

structure Created (db : Refunds.Db) (a : RefundAttempt) : Prop where
  pending : a.status = .authorizationPending
  alone : ∀ b ∈ db.attempts, OfMoney a b → ¬ b.effective
  unrefunded : ∀ b ∈ db.attempts, OfMoney a b → ¬ SuccessEvidence db b

structure DispatchRules (cfg : DispatchConfig) (s : Sys) : Prop where
  one : ∀ a ∈ s.ledger.db.attempts, ∀ b ∈ s.ledger.db.attempts, a.effective → b.effective → OfMoney a b → b.id = a.id
  created : ∀ x, ∀ a ∈ (step cfg s x).ledger.db.attempts, (∀ b ∈ s.ledger.db.attempts, b.id ≠ a.id) →
    Created s.ledger.db a
  called : ∀ x, (step cfg s x).calls = s.calls ∨ ∃ a ∈ s.ledger.db.attempts,
    (step cfg s x).calls = callOf cfg a :: s.calls ∧ dispatched a.status ∧
      ∃ r, a.receiptId = some r ∧ ⟨a.id, r⟩ ∈ s.consumptions
  keys : ∀ c ∈ s.calls, ∃ a ∈ s.ledger.db.attempts,
    c.refundAttemptId = a.id ∧ c.idempotencyKey = a.id ∧ dispatched a.status

theorem Indexed.one (h : Indexed l) (ha : a ∈ l) (hb : b ∈ l)
    (hea : a.effective) (heb : b.effective) (hm : OfMoney a b) : b.id = a.id := by
  by_contra hid
  rcases hm with hc | ⟨hsa, hsb, hp⟩
  · exact h.capture.ne (k := (·.id)) ha hea hb hid heb hc
  · exact h.ordinary.ne (k := (·.id)) ha ⟨hea, hsa⟩ hb hid ⟨heb, hsb⟩ hp

theorem not_successEvidence (h : db.captureHasEvidence a.captureFactId = false)
    (hb : b ∈ db.attempts) (hc : b.captureFactId = a.captureFactId) : ¬ SuccessEvidence db b := by
  simp only [Refunds.Db.captureHasEvidence, List.any_eq_false, decide_eq_true_eq, not_and, not_or] at h
  obtain ⟨hf, hs⟩ := h b hb hc
  rintro (⟨f, hfm, hfb⟩ | ⟨x, hx, hlive, z, hz, hzx⟩)
  · exact hf (List.any_eq_true.mpr ⟨f, hfm, hfb⟩)
  · refine hs (List.any_eq_true.mpr ⟨x, hx, ?_⟩)
    simp only [decide_eq_true_eq]
    exact ⟨hlive, List.any_eq_true.mpr ⟨z, hz, by simpa using hzx⟩⟩

theorem created_of_checks (hi : LedgerInv cfg.captures db)
    (hc : Admitted (Refunds.attemptInsertChecks cfg.captures db a)) : Created db a := by
  obtain ⟨hfront, hindexes⟩ := Admitted.append.mp hc
  have hfree := Refunds.attemptIndexes_admitted.mp hindexes
  have hguards := (Admitted.append.mp hfront).1
  simp only [Admitted, List.forall_mem_cons, decide_eq_true_eq, Bool.not_eq_true', List.any_eq_false] at hguards
  obtain ⟨-, hpending, hcapture, hevidence, -, hfresh, -⟩ := hguards
  have heff : a.effective := by
    unfold RefundAttempt.effective
    rw [hpending]
    rfl
  have hids : ∀ b ∈ db.attempts, b.id ≠ a.id := hfresh
  refine ⟨hpending, ?_, ?_⟩
  · intro b hb hm heb
    rcases hm with hm | ⟨hsa, hsb, hp⟩
    · exact hfree.capture heff b hb (hids b hb) heb hm
    · exact hfree.ordinary heff hsa b hb (hids b hb) heb hsb hp
  · intro b hb hm
    apply not_successEvidence hevidence hb
    rcases hm with hm | ⟨hsa, hsb, hp⟩
    · exact hm
    -- both ordinary: the settling capture of the one payment
    have hb' := (hi.attempts b hb).2.resolve_left (by simp [hsb])
    have ha' := hcapture.2.2.2.2.resolve_left (by simp [hsa])
    rw [hb', ha', hp]

theorem SysStep.created (h : SysStep cfg s t) (hi : LedgerInv cfg.captures s.ledger.db) :
    ∀ a ∈ t.ledger.db.attempts, (∀ b ∈ s.ledger.db.attempts, b.id ≠ a.id) → Created s.ledger.db a := by
  intro a ha hnew
  rcases h.ledger_step with he | ⟨y, he, -⟩ <;> rw [he] at ha
  · exact absurd rfl (hnew a ha)
  obtain ⟨o, hs, -⟩ := Refunds.step_dbStep cfg.captures s.ledger y
  rcases hs.attempts_cases with ht | ⟨b, hc, ht⟩ | ⟨c, b, hcm, hm, -, ht⟩ <;> rw [ht] at ha
  · exact absurd rfl (hnew a ha)
  · rcases mem_append_row ha with ha | rfl
    · exact absurd rfl (hnew a ha)
    · exact created_of_checks hi hc
  · rcases mem_replaceRow ha with rfl | ⟨ha, -⟩
    · exact absurd hm.id.symm (hnew c hcm)
    · exact absurd rfl (hnew a ha)

theorem SysStep.called_row (h : SysStep cfg s t) (hi : DispatchInv cfg s) (hx : Indexed s.ledger.db.attempts) :
    t.calls = s.calls ∨ ∃ a ∈ s.ledger.db.attempts, t.calls = callOf cfg a :: s.calls ∧ dispatched a.status ∧
      ∃ r, a.receiptId = some r ∧ ⟨a.id, r⟩ ∈ s.consumptions := by
  rcases h.calls with he | ⟨w, hw, hs, he⟩
  · exact .inl he
  obtain ⟨a, ha, hm, hd⟩ := hi.works w hw
  have hdisp := hd (.inr (.inl hs))
  obtain ⟨r, hr⟩ := hx.receipt_of_dispatched ha hdisp
  refine .inr ⟨a, ha, ?_, hdisp, r, hr, hi.receipts a ha r hr⟩
  rw [he, callOf_same hm]

/-- **No double refund dispatch.** -/
theorem dispatch_rules (h : Runs cfg s) : DispatchRules cfg s where
  one a ha b hb hea heb hm := Indexed.one h.refunds.indexed ha hb hea heb hm
  created x := (step_sysStep cfg s x).created h.refunds.ledger
  called x := (step_sysStep cfg s x).called_row h.dispatch h.refunds.indexed
  keys c hc := by
    obtain ⟨a, ha, rfl, hd⟩ := h.dispatch.calls c hc
    exact ⟨a, ha, rfl, rfl, hd⟩

end

def oneProvider : DispatchConfig where
  captures := Refunds.oneCapture
  transactionOf _ _ := "tx-1"
  refunds _ := true

def attemptIn (status : Refunds.RefundAttemptStatus) (receiptId : Option Uuid) : RefundAttempt :=
  ⟨10, 1, 100, 1000, "EUR", 1, false, "test", status, receiptId, none, none, none⟩

def calledTwice : List Action :=
  [ .ledger (.request 1 ⟨10, 100, none⟩), .consume 10 1010, .authorize 10 11, .scan (attemptIn .authorized (some 1010)),
    .proceed ⟨attemptIn .authorized (some 1010), .scanned⟩, .proceed ⟨attemptIn .authorized (some 1010), .claimed⟩,
    .proceed ⟨attemptIn .authorized (some 1010), .sending⟩, .lose ⟨attemptIn .authorized (some 1010), .sent⟩,
    .scan (attemptIn .dispatching (some 1010)), .proceed ⟨attemptIn .dispatching (some 1010), .scanned⟩,
    .proceed ⟨attemptIn .dispatching (some 1010), .claimed⟩, .proceed ⟨attemptIn .dispatching (some 1010), .sending⟩ ]

theorem dispatch_rules_calledTwice :
    (run oneProvider Sys.new calledTwice).calls.map (·.idempotencyKey) = [10, 10] ∧
      DispatchRules oneProvider (run oneProvider Sys.new calledTwice) :=
  ⟨by decide, dispatch_rules (Runs.run (.init rfl) calledTwice)⟩

end NawaraCore.RefundDispatch
