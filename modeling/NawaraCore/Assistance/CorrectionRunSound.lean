import NawaraCore.Assistance.CorrectionSound

/-!
# Runs with corrections

The commands and workers keep the effective times in order: most write other tables, and the
others write a status, an obligation, a report or a correction.
-/

namespace NawaraCore.Assistance

open Subscriptions (Uuid)
open PaymentRequests (PaymentRequest PaymentEventFacts)

variable {kind : Uuid → UserKind} {start db db' start' : Db} {now : Nat} {obligationId id : Uuid}

/-! ## Writes of other tables -/

theorem updateChannel_untimed {c : Reconciliation.Channel} {status : Reconciliation.ChannelStatus} : Yields (Untimed db) (db.updateChannel c status) := by
  refine .ite (fun _ => .ok ⟨rfl, rfl, rfl⟩) fun _ => ?_
  intro db' he
  obtain ⟨u, -, rfl⟩ := map_eq_ok.mp he
  exact ⟨rfl, rfl, rfl⟩

theorem updatePaymentRequest_untimed {old new : PaymentRequest} : Yields (Untimed db) (db.updatePaymentRequest old new) := by
  unfold Db.updatePaymentRequest
  cases db.invoice? old.invoiceId with
  | none => exact .error
  | some i =>
    refine Yields.bind (Q := fun _ => True) (fun _ _ => trivial) fun updated _ => .ite (fun _ => .ok ⟨rfl, rfl, rfl⟩) fun _ => ?_
    intro db' he
    unfold Db.followRequest at he
    split at he
    · have hu := updateChannel_untimed db' he
      exact ⟨hu.requests, hu.obligations, hu.corrections⟩
    · cases he
      exact ⟨rfl, rfl, rfl⟩

theorem insertLateSettlement_untimed {s : LateSettlement} : Yields (Untimed db) (db.insertLateSettlement s) := by
  unfold Db.insertLateSettlement
  dsimp only
  split
  · exact .error
  · exact .guard fun _ => .ok ⟨rfl, rfl, rfl⟩

theorem recordPurchase_untimed {p : Purchase} : Yields (Untimed db) (db.recordPurchase p) :=
  .guard fun _ => .guard fun _ => .guard fun _ => .guard fun _ => .ite (fun _ => .ok ⟨rfl, rfl, rfl⟩) fun _ => .guard fun _ => .ok ⟨rfl, rfl, rfl⟩

theorem settle_untimed {companyId : Option Uuid} {invoiceId paymentRequestId : Uuid} :
    Yields (Untimed db) (settle db id companyId invoiceId paymentRequestId now) := by
  unfold settle
  split
  · exact .error
  · refine .guard fun _ => .guard fun _ => ?_
    split
    · exact .error
    · refine .guard fun _ => .guard fun _ => ?_
      refine Yields.bind (Q := Untimed db) ?_ fun db₁ h₁ => ?_
      · unfold Db.insertChannel
        split
        · exact .error
        · exact .guard fun _ => .guard fun _ => .guard fun _ => .ok ⟨rfl, rfl, rfl⟩
      · unfold Db.bindChannel
        split
        · exact .ok ⟨h₁.requests, h₁.obligations, h₁.corrections⟩
        · exact .guard fun _ => .guard fun _ => .ok ⟨h₁.requests, h₁.obligations, h₁.corrections⟩

theorem movePaymentRequest_untimed {m : RequestMove} : Yields (Untimed db) (movePaymentRequest db id m) := by
  unfold movePaymentRequest
  split
  · exact .error
  · cases m with
    | claimForDispatch stale => exact .ite (fun _ => updatePaymentRequest_untimed) fun _ => .ok ⟨rfl, rfl, rfl⟩
    | markRequested paymentId => exact .ite (fun _ => .ok ⟨rfl, rfl, rfl⟩) fun _ => updatePaymentRequest_untimed
    | markRejected => exact .ite (fun _ => .ok ⟨rfl, rfl, rfl⟩) fun _ => updatePaymentRequest_untimed
    | cancelUnsent => exact .guard fun _ => updatePaymentRequest_untimed
    | markCancelRequested now => exact .guard fun _ => .ite (fun _ => updatePaymentRequest_untimed) fun _ => .ok ⟨rfl, rfl, rfl⟩

theorem record_untimed {r : Record} : Yields (Untimed db) (db.record r) := by
  have hclose : ∀ {id : Uuid} {status : Losses.RefundCaseStatus} {l : List RefundCompletion}, Yields (Untimed db) (db.closeCase id status l) := by
    intro id status l
    unfold Db.closeCase
    split
    · exact .error
    · exact .guard fun _ => .ok ⟨rfl, rfl, rfl⟩
  cases r with
  | lateSuccess l => exact .guard fun _ => .ok ⟨rfl, rfl, rfl⟩
  | otherEffect id => exact .guard fun _ => .ok ⟨rfl, rfl, rfl⟩
  | refundCase c => exact .guard fun _ => .ok ⟨rfl, rfl, rfl⟩
  | completion k => exact hclose
  | cancellation id => exact hclose
  | relay id => exact .ok ⟨rfl, rfl, rfl⟩
  | loss id => exact .ok ⟨rfl, rfl, rfl⟩
  | reversal id => exact .guard fun _ => .guard fun _ => .ok ⟨rfl, rfl, rfl⟩

theorem openDispute_untimed {requestId : Uuid} {reason : DisputeReason} : Yields (Untimed db) (openDispute db requestId reason id now) := by
  unfold openDispute
  split
  · exact .error
  · refine .guard fun _ => .guard fun _ => ?_
    unfold Db.insertDispute
    split
    · exact .error
    · exact .guard fun _ => .guard fun _ => .guard fun _ => .guard fun _ => .ok ⟨rfl, rfl, rfl⟩

theorem resolve_untimed {disputeId correctionId : Uuid} : Yields (Untimed db) (resolve db disputeId correctionId) := by
  unfold resolve
  split
  · exact .error
  · exact .guard fun _ => .guard fun _ => .guard fun _ => .ok ⟨rfl, rfl, rfl⟩

theorem classifyLateSettlement_untimed {lateSuccessId : Uuid} : Yields (Untimed db) (classifyLateSettlement db lateSuccessId id) := by
  unfold classifyLateSettlement
  split
  · exact .error
  · split
    · exact .error
    · split
      · exact .ok ⟨rfl, rfl, rfl⟩
      · exact .ite (fun _ => .ok ⟨rfl, rfl, rfl⟩) fun _ => .ite (fun _ => .ok ⟨rfl, rfl, rfl⟩) fun _ => insertLateSettlement_untimed

/-! ## Transactions -/

section
variable (h : Times kind start db)
include h

theorem updateStatus_times {r : AssistanceRequest} (hr : r ∈ db.requests) {status : RequestStatus} {cap : Option Int} :
    Yields (Times kind start) (db.updateRequest r status r.collection cap) :=
  updateRequest_times h hr fun k hk => (h.parties.1 r hr).2 k hk

theorem applyPaymentEvent_times {live : Bool} {eventId : Uuid} {event : PaymentEventFacts} {settledAt : Nat} {fresh : FreshIds} :
    Yields (Times kind start) (applyPaymentEvent db live eventId event settledAt now fresh) := by
  refine .ite (fun _ => .ok h) fun _ => .guard fun _ => ?_
  dsimp only
  have hs : ∀ receipts, Times kind start { db with receipts := receipts } := fun _ => h.untimed ⟨rfl, rfl, rfl⟩
  split
  · refine Yields.bind (Q := Times kind start) (fun db₁ h₁ => (hs _).untimed (updatePaymentRequest_untimed db₁ h₁)) fun db₁ h₁ => .ite (fun _ => ?_) fun _ => .ok h₁
    refine Yields.bind (Q := Times kind start) (.guard fun _ => .guard fun _ => .ok (h₁.untimed ⟨rfl, rfl, rfl⟩)) fun db₂ h₂ => ?_
    split
    · unfold applyAssistedSettlement
      cases hr : db₂.request? _ with
      | none => exact .error
      | some r =>
        dsimp only
        split
        · unfold Db.keepLateSettlement
          split
          · exact .ok h₂
          · exact fun db₃ h₃ => h₂.untimed (insertLateSettlement_untimed db₃ h₃)
        · exact .ok h₂
        · split
          · refine Yields.bind (Q := Untimed db₂) recordPurchase_untimed fun db₃ h₃ => ?_
            refine Yields.bind (Q := Untimed db₂) (fun db₄ h₄ => h₃.trans (updateChannel_untimed db₄ h₄)) fun db₄ h₄ => ?_
            exact updateStatus_times (h₂.untimed h₄) (h₄.requests ▸ (request_mem hr).1)
          · exact .ok h₂
    · exact .ok h₂
  · exact .ok (hs _)

theorem reportReturn_times {returnedAt : Nat} {reportedBy : Uuid} (hmember : kind reportedBy = .member) :
    Yields (Times kind start) (reportReturn db obligationId returnedAt reportedBy now) := by
  unfold reportReturn
  cases ho : db.obligation? obligationId with
  | none => exact .error
  | some o =>
    refine .guard fun hst => .guard fun htime => ?_
    simp only [Decidable.not_not] at hst htime
    obtain ⟨-, hcol, hnow⟩ := htime
    have hmem := obligation_mem ho
    obtain ⟨v, hv, hle⟩ := Option.any_eq_true _ _ |>.mp hcol
    refine updateObligation_times h hmem (fun hs => absurd hst (h.reported o hmem hs).2.1) fun _ _ => ⟨rfl, ?_, ?_⟩
    · rw [effectiveTime_eq] at hv
      rcases Option.or_eq_some_iff.mp hv with hc | ⟨-, hc⟩
      · exact h.collectedCorrections _ (by rw [hc]; rfl)
      · obtain ⟨k, hk, -⟩ := Option.map_eq_some_iff.mp hc
        obtain ⟨r, hr, hrk⟩ := Option.bind_eq_some_iff.mp hk
        exact ⟨r, (request_mem hr).1, (request_mem hr).2, by rw [hrk]; rfl⟩
    · intro p hp
      cases hp
      refine ⟨hmember, hnow, fun r hr hid k hk => ?_⟩
      rw [← hid, h.effectiveCollected hr, hk] at hv
      cases hv
      exact of_decide_eq_true hle

theorem confirmReturn_times : Yields (Times kind start) (confirmReturn db obligationId) := by
  unfold confirmReturn
  cases ho : db.obligation? obligationId with
  | none => exact .error
  | some o =>
    dsimp only
    cases hr : db.request? o.assistanceRequestId with
    | none => exact .error
    | some r =>
      refine .guard fun _ => .guard fun _ => .guard fun _ => ?_
      intro db' he
      obtain ⟨db₁, h₁, h₂⟩ := bind_eq_ok.mp he
      have hkept := updateObligation_times h (obligation_mem ho) (fun _ => rfl) (fun hn hs => by rw [hn] at hs; cases hs) db₁ h₁
      obtain ⟨-, rfl⟩ := updateObligation_ok h₁
      exact updateStatus_times hkept (request_mem hr).1 db' h₂

theorem applyIn_times {lateSettlementId : Uuid} {input : ApplicationInput} {applicationId purchaseId : Uuid} :
    Yields (Times kind start) (applyIn db lateSettlementId input applicationId purchaseId now) := by
  unfold applyIn
  split
  · exact .error
  · rename_i l _
    split
    · rename_i r i reason hr _ _
      intro db' h₀
      obtain ⟨db₁, h₁, h₀⟩ := bind_eq_ok.mp h₀
      obtain ⟨db₂, h₂, h₀⟩ := bind_eq_ok.mp h₀
      obtain ⟨db₃, h₃, he⟩ := bind_eq_ok.mp h₀
      clear h₀
      obtain rfl := insertApplication_ok h₁
      obtain ⟨evidence, rfl⟩ := insertEvidence_ok h₂
      have ht : ∀ applications, Times kind start { db with applications, evidence } := fun _ => h.untimed ⟨rfl, rfl, rfl⟩
      have ht₃ : Times kind start db₃ ∧ db₃.requests = db.requests := by
        cases hlive : db.live r.id with
        | none =>
          rw [hlive] at h₃
          cases h₃
          exact ⟨ht _, rfl⟩
        | some o =>
          rw [hlive] at h₃
          have hkept := updateObligation_times (ht _) (List.mem_of_find?_eq_some hlive) (fun _ => rfl) (fun hn hs => by rw [hn] at hs; cases hs) db₃ h₃
          obtain ⟨-, rfl⟩ := updateObligation_ok h₃
          exact ⟨hkept, rfl⟩
      split at he
      · obtain ⟨db₄, h₄, hpay⟩ := bind_eq_ok.mp he
        obtain ⟨db₅, h₅, hbuy⟩ := bind_eq_ok.mp hpay
        obtain ⟨db₆, h₆, hchannel⟩ := bind_eq_ok.mp (guard_ok hbuy).2
        obtain ⟨db₇, h₇, hcommit⟩ := bind_eq_ok.mp hchannel
        obtain ⟨invoices, rfl⟩ := payLate_ok h₄
        have hu₅ := recordPurchase_untimed db₅ h₅
        have hu₆ : Untimed db₅ db₆ := by
          unfold settleChannel at h₆
          split at h₆
          · cases h₆
            exact ⟨rfl, rfl, rfl⟩
          · exact updateChannel_untimed db₆ h₆
        have hu : Untimed db₃ db₆ :=
          ⟨hu₆.requests.trans hu₅.requests, hu₆.obligations.trans hu₅.obligations, hu₆.corrections.trans hu₅.corrections⟩
        have hmem : r ∈ db₆.requests := by
          rw [hu.requests, ht₃.2]
          exact (request_mem hr).1
        have hc : db' = db₇ := by
          have hc := (guard_ok hcommit).2
          split at hc
          · cases hc
            rfl
          · cases hc
        exact hc ▸ updateStatus_times (ht₃.1.untimed hu) hmem db₇ h₇
      · cases he
    · exact .error

end

theorem applyRefundEffect_times (hs : Sound start' db) (h : Times kind start db) {refundCaseId : Uuid} :
    Yields (Times kind start) (applyRefundEffect db refundCaseId obligationId now) := by
  unfold applyRefundEffect
  split
  · exact .error
  · refine .ite (fun _ => .ok h) fun _ => ?_
    split
    · exact .error
    · refine .guard fun _ => .guard fun _ => ?_
      split
      · split
        · exact .error
        · refine .guard fun _ => .guard fun _ => ?_
          unfold assisted
          split
          · exact .error
          · refine .guard fun _ => .guard fun _ => .guard fun _ => .guard fun _ => ?_
            split
            · exact .error
            · intro db' he
              obtain ⟨db₁, h₁, he⟩ := bind_eq_ok.mp he
              obtain ⟨db₂, h₂, he⟩ := bind_eq_ok.mp he
              cases he
              have hs₁ := insertReversal_sound hs _ db₁ h₁
              have hu₁ : Untimed db db₁ := by
                cases (guard_ok (guard_ok h₁).2).2
                exact ⟨rfl, rfl, rfl⟩
              exact (insertObligation_times hs₁ (h.untimed hu₁) _ _ db₂ h₂).untimed ⟨rfl, rfl, rfl⟩
      · exact .guard fun _ => .guard fun _ => .ok (h.untimed ⟨rfl, rfl, rfl⟩)
      · exact .ok (h.untimed ⟨rfl, rfl, rfl⟩)

/-! ## Runs -/

theorem serve_times (hs : Sound start' db) (h : Times kind start db) (a : Action) : Yields (Times kind start) (a.serve kind db) := by
  refine .guard fun hp => ?_
  replace hp : a.permitted kind = true := Decidable.not_not.mp hp
  cases a with
  | create input offering id now =>
    change Yields _ (Assistance.create db input offering id now)
    unfold Assistance.create
    cases offering with
    | none => exact .error
    | some o =>
      refine .guard fun _ => .guard fun _ => ?_
      dsimp only
      split
      · exact insertRequest_times h (of_decide_eq_true hp)
      · exact .error
  | decline id =>
    change Yields _ (Assistance.decline db id)
    unfold Assistance.decline
    cases hr : db.request? id with
    | none => exact .error
    | some r => exact .guard fun _ => updateRequest_times h (request_mem hr).1 fun _ hk => by cases hk
  | reportCashCollection id t reportedBy cap now =>
    change Yields _ (Assistance.reportCashCollection db id t reportedBy cap now)
    unfold Assistance.reportCashCollection
    cases hr : db.request? id with
    | none => exact .error
    | some r =>
      refine .guard fun _ => .guard fun _ => .guard fun _ => .guard fun _ => updateRequest_times h (request_mem hr).1 fun k hk => ?_
      cases hk
      exact of_decide_eq_true hp
  | settle id companyId invoiceId paymentRequestId now => exact fun db' he => h.untimed (settle_untimed db' he)
  | movePaymentRequest id m => exact fun db' he => h.untimed (movePaymentRequest_untimed db' he)
  | paymentEvent live eventId event settledAt now fresh => exact applyPaymentEvent_times h
  | sweep requestId obligationId now =>
    change Yields _ (openOne db requestId obligationId now)
    unfold openOne
    split
    · exact .ok h
    · split
      · exact .ok h
      · exact .ite (fun _ => .ok h) fun _ => insertObligation_times hs h _ _
  | reportReturn id t reportedBy now => exact reportReturn_times h (of_decide_eq_true hp)
  | confirmReturn id => exact confirmReturn_times h
  | openDispute requestId reason id now => exact fun db' he => h.untimed (openDispute_untimed db' he)
  | correct c => exact correct_times h (of_decide_eq_true hp)
  | resolve disputeId correctionId => exact fun db' he => h.untimed (resolve_untimed db' he)
  | attest a beneficiaryUserId => exact .guard fun _ => .guard fun _ => .ok (h.untimed ⟨rfl, rfl, rfl⟩)
  | classifyLateSettlement lateSuccessId id => exact fun db' he => h.untimed (classifyLateSettlement_untimed db' he)
  | apply id input applicationId purchaseId now => exact applyIn_times h
  | refundEffect refundCaseId obligationId now => exact applyRefundEffect_times hs h
  | record r => exact fun db' he => h.untimed (record_untimed db' he)

theorem serve_sound (h : Sound start db) (a : Action) : Yields (Sound start) (a.serve kind db) := by
  refine .guard fun _ => ?_
  cases a with
  | correct c =>
    intro db' he
    obtain ⟨u, -, hins⟩ := bind_eq_ok.mp he
    exact insertCorrection_sound h c db' hins
  | _ => exact action_sound h _

theorem serveStep_times (h : Sound start' db ∧ Times kind start db) (a : Action) :
    Sound start' (serveStep kind db a) ∧ Times kind start (serveStep kind db a) := by
  unfold serveStep
  cases hr : a.serve kind db with
  | ok db' => exact ⟨serve_sound h.1 a db' hr, serve_times h.1 h.2 a db' hr⟩
  | error e => exact h

theorem serveRun_times (actions : List Action) : ∀ {start' start db : Db}, Sound start' db ∧ Times kind start db →
    Sound start' (serve kind db actions) ∧ Times kind start (serve kind db actions) := by
  induction actions with
  | nil => exact id
  | cons a actions ih => exact fun h => ih (serveStep_times h a)

theorem empty_times : Times kind .empty .empty where
  requestIds := .nil
  obligationIds := .nil
  shape _ hr := by cases hr
  current := .nil
  reported _ ho := by cases ho
  parties := ⟨fun _ hr => (by cases hr), fun _ ho => (by cases ho)⟩
  collectedCorrections _ hc := by cases hc
  returnedCorrections _ hc := by cases hc
  collected _ hr := by cases hr
  returned _ hr := by cases hr
  recorded := ⟨fun _ hr => (by cases hr), fun _ ho => (by cases ho), List.prefix_refl _⟩

/-- **Effective times stay ordered under corrections**, in every run of the commands and workers. -/
theorem corrections_ordered (kind : Uuid → UserKind) (actions later : List Action) :
    (∀ r ∈ (serve kind .empty actions).requests, (serve kind .empty actions).Ordered r) ∧
      Recorded (serve kind .empty actions) (serve kind .empty (actions ++ later)) ∧
      ∀ c, kind c.correctedBy = .owner → correctable (serve kind .empty actions) c = .ok () →
        ∃ db', (serve kind .empty actions).insertCorrection c = .ok db' := by
  obtain ⟨hs, ht⟩ := serveRun_times actions ⟨empty_sound, (@empty_times kind)⟩
  refine ⟨fun r hr => ht.ordered hr, ?_, fun c hc hok => ⟨_, insertCorrection_accepts ht hc hok⟩⟩
  have hsplit : serve kind .empty (actions ++ later) = serve kind (serve kind .empty actions) later := List.foldl_append
  rw [hsplit]
  exact (serveRun_times later ⟨hs, ht.restart⟩).2.recorded

end NawaraCore.Assistance
