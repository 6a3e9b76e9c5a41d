import NawaraCore.Payment.SettlementSound

/-!
# Soundness of the transitions

In every reachable state the updates of the operations pass the guards of the
database, so the only refusals left are those of a unique index or of a length. The
tables of transitions of the service and of the database are the same.
-/

namespace NawaraCore.Payments

variable {e : PaymentError}

theorem enforce_refused {checks : List (String × Bool)} (h : enforce checks = .error e) :
    ∃ c ∈ checks, c.2 = false ∧ e = .refused c.1 := by
  unfold enforce at h
  split at h
  · rename_i c hc
    cases h
    exact ⟨c, List.mem_of_find?_eq_some hc, by simpa using List.find?_some hc, rfl⟩
  · cases h

/-- Only the check with this name can fail, and only because of `P`. -/
def OnlyRefusedBy (name : String) (P : Prop) (checks : List (String × Bool)) : Prop :=
  ∀ c ∈ checks, c.2 = false → c.1 = name ∧ P

def NeverRefused {α : Type} (r : Except PaymentError α) : Prop := ∀ k, r ≠ .error (.refused k)

variable {a b : Attempt} {status : PaymentStatus} {now : Int}

section
variable {s t : Db} {name k : String} {P : Prop}

theorem updateAttempt_refused (ho : OnlyRefusedBy name P (attemptChecks s a b))
    (h : s.updateAttempt a b = .error (.refused k)) : k = name ∧ P := by
  have he : enforce (attemptChecks s a b) = .error (.refused k) := by
    unfold Db.updateAttempt at h
    cases hc : enforce (attemptChecks s a b) with
    | ok u => rw [hc] at h; cases h
    | error e => rw [hc] at h; cases h; rfl
  obtain ⟨c, hc, hf, hk⟩ := enforce_refused he
  cases hk
  exact ho c hc hf

theorem bind_refused {α β : Type} {x : Except PaymentError α} {f : α → Except PaymentError β}
    (h : x >>= f = .error e) : x = .error e ∨ ∃ a, x = .ok a ∧ f a = .error e := by
  cases x with
  | error e' => cases h; exact .inl rfl
  | ok a => exact .inr ⟨a, rfl, h⟩

end

structure FieldsInv (p : Payment) : Prop where
  unsettled : p.status ≠ .succeeded → p.settledMethod = none
  unclosed : p.status = .created ∨ p.status = .pending → p.closingReason = none
  reason : p.status = .closing → p.closingReason ≠ none

variable {as : List Attempt} {code : String} {c : StartCall} {r : InitiateResult} {id : Uuid} {factId : Option Uuid} {provider : String}

section
variable {cfg : PaymentConfig} {s t : Db} {k : String}

theorem FieldsInv.ends {p : Payment} (h : FieldsInv p) (hs : p.status ≠ .succeeded)
    (hf : finalUnsuccessful status) : FieldsInv { p with status } := by
  refine ⟨fun _ => h.unsettled hs, fun ho => ?_, fun hc => ?_⟩
  · rcases ho with rfl | rfl <;> cases hf
  · cases show status = .closing from hc
    cases hf

theorem FieldsInv.closes (h : FieldsInv s.payment) (hc : Closes s t status) :
    FieldsInv t.payment := by
  rw [hc.payment]
  exact h.ends (not_succeeded_of_open hc.open_) hc.final

theorem CoreStep.fields (hc : CoreStep cfg s t) (h : FieldsInv s.payment) : FieldsInv t.payment := by
  cases hc with
  | idle ht => exact ht ▸ h
  | started a hs _ _ _ _ _ _ ht =>
    subst ht
    exact ⟨fun _ => h.unsettled (by simp [hs]), fun _ => h.unclosed (.inl hs), by simp⟩
  | acknowledged a b _ _ _ _ _ _ ht => exact ht ▸ h
  | settled a b _ _ _ _ _ _ _ ht =>
    subst ht
    exact ⟨fun hn => absurd rfl hn, by simp, by simp⟩
  | failed a b _ _ _ _ _ _ hf =>
    cases hf with
    | kept ht => exact ht ▸ h
    | reopened hp ht =>
      subst ht
      exact ⟨fun _ => h.unsettled (by rw [hp]; simp), fun _ => h.unclosed (.inr hp), by simp⟩
    | closed status hcl => exact FieldsInv.closes (s := { s with attempts := replaceAttempt s.attempts b }) h hcl
  | closed status _ hcl => exact h.closes hcl
  | closing reason hs _ ht =>
    subst ht
    refine ⟨fun _ => h.unsettled ?_, by simp, by simp⟩
    rcases hs with hs | hs <;> simp [hs]

theorem Runs.fields {s : Sys} (h : Runs cfg s) : FieldsInv s.db.payment := by
  induction h with
  | init h =>
    obtain ⟨n, hn⟩ := h.created
    rw [hn]
    exact ⟨fun _ => rfl, fun _ => rfl, by simp [NewPayment.row]⟩
  | step hr ha ih =>
    obtain ⟨a, rfl⟩ := ha
    rcases ((Runs.inv hr).db_step a).core with hc | hc
    · exact hc.fields ih
    · rw [hc.payment]
      exact ih

/-! ## The guards of the payment -/

def Confirmed (db : Db) : Prop :=
  ∃ a ∈ db.attempts, a.status = .failed ∧ a.failureInferred ∧ a.failureConfirmedAt ≠ none

def closingOutcome (p : Payment) : PaymentStatus :=
  if p.closingReason = some .cancel then .cancelled else .expired

theorem open_of_edge {source target : PaymentStatus} (h : canTransitionPayment source target) :
    source = .created ∨ source = .pending ∨ source = .closing := by
  cases source <;> simp_all [canTransitionPayment]

theorem FieldsInv.move_ok (h : FieldsInv s.payment)
    (hedge : canTransitionPayment s.payment.status status) (hns : status ≠ .succeeded) (hnc : status ≠ .closing)
    (hfinal : finalUnsuccessful status → isPaymentUncertain s = false)
    (hfailed : s.payment.status = .created → status = .failed → Confirmed s)
    (hclosing : s.payment.status = .closing → status = closingOutcome s.payment) :
    Admitted (paymentChecks s { s.payment with status }) := by
  have hopen := open_of_edge hedge
  have hmethod : s.payment.settledMethod = none := h.unsettled (by rcases hopen with ho | ho | ho <;> simp [ho])
  simp only [Admitted, paymentChecks, List.forall_mem_cons, decide_eq_true_eq, hmethod]
  refine ⟨.inr hedge, .inl fun hc => hns hc.2, ?_, ?_, .inr (.inl hnc), .inl hnc, ?_, .inl trivial, .inl trivial,
    .inl trivial, .inl hns, .inl (by simp), .inr (.inl hns), by simp⟩
  · by_cases hc : s.payment.status = .created ∧ status = .failed
    · obtain ⟨a, ha, hf⟩ := hfailed hc.1 hc.2
      exact .inr (List.any_eq_true.mpr ⟨a, ha, by simpa using hf⟩)
    · exact .inl hc
  · by_cases hf : finalUnsuccessful status
    · exact .inr (.inr (by rw [hfinal hf]; rfl))
    · exact .inr (.inl (by simpa using hf))
  · cases hr : s.payment.closingReason with
    | none => rfl
    | some r =>
      have hc : s.payment.status = .closing := by
        rcases hopen with ho | ho | ho
        · rw [h.unclosed (.inl ho)] at hr; cases hr
        · rw [h.unclosed (.inr ho)] at hr; cases hr
        · exact ho
      have hout := hclosing hc
      cases r <;> simp [hout, closingOutcome, hr]

theorem FieldsInv.closing_ok (h : FieldsInv s.payment) (hs : s.payment.status = .created ∨ s.payment.status = .pending)
    (hu : isPaymentUncertain s) (reason : ClosingReason) :
    Admitted (paymentChecks s { s.payment with status := .closing, closingReason := some reason }) := by
  have hmethod : s.payment.settledMethod = none := h.unsettled (by rcases hs with hs | hs <;> simp [hs])
  simp only [Admitted, paymentChecks, List.forall_mem_cons, decide_eq_true_eq, hmethod]
  refine ⟨.inr ?_, .inl (by simp), .inl (by simp), .inr (.inl rfl), .inr (.inr hu), .inr (by simp), ?_,
    .inr ⟨h.unclosed hs, hs, trivial⟩, .inl trivial, .inl trivial, .inl (by simp), .inl (by simp), .inr (.inl (by simp)),
    by simp⟩
  · rcases hs with hs | hs <;> rw [hs] <;> rfl
  · cases reason <;> simp

/-! ## The ends of the payment -/

theorem closePayment_succeeds (hf : FieldsInv s.payment) (he : EvidenceInv s)
    (event : PaymentEvent) (hs : s.payment.succeededAttemptId = none) (hfin : finalUnsuccessful status)
    (hedge : canTransitionPayment s.payment.status status) (hu : isPaymentUncertain s = false)
    (hfailed : s.payment.status = .created → status = .failed → Confirmed s)
    (hclosing : s.payment.status = .closing → status = closingOutcome s.payment) :
    ∃ t, closePayment s status event = .ok t := by
  have hopen : isTerminalPaymentStatus s.payment.status = false := by
    rcases open_of_edge hedge with ho | ho | ho <;> rw [ho] <;> rfl
  have hup := updatePayment_succeeds (hf.move_ok hedge (by rintro rfl; cases hfin) (by rintro rfl; cases hfin)
    (fun _ => hu) hfailed hclosing)
  let u : Db := { s with payment := { s.payment with status }, outbox := s.outbox ++ [event] }
  have hu' : EvidenceInv u := he.before [] hopen rfl rfl rfl rfl rfl rfl (by simp [u]) (by simp)
  obtain ⟨t, ht⟩ := recordQualifying_succeeds (s := u) hfin hs none hu'
  exact ⟨t, bind_eq_ok.mpr ⟨_, hup, ht⟩⟩

theorem completeClosing_succeeds (hf : FieldsInv s.payment) (he : EvidenceInv s)
    (hs : s.payment.succeededAttemptId = none) : ∃ t, completeClosingIfResolved s = .ok t := by
  unfold completeClosingIfResolved
  by_cases hc : s.payment.status ≠ .closing ∨ isPaymentUncertain s
  · exact ⟨s, if_pos hc⟩
  · rw [if_neg hc]
    push Not at hc
    have hu : isPaymentUncertain s = false := by simpa using hc.2
    by_cases hr : s.payment.closingReason = some .cancel
    · rw [if_pos hr]
      refine closePayment_succeeds hf he _ hs rfl (by rw [hc.1]; rfl) hu (fun hcr => ?_) fun _ => ?_
      · rw [hc.1] at hcr; cases hcr
      · simp [closingOutcome, hr]
    · rw [if_neg hr]
      refine closePayment_succeeds hf he _ hs rfl (by rw [hc.1]; rfl) hu (fun hcr => ?_) fun _ => ?_
      · rw [hc.1] at hcr; cases hcr
      · simp [closingOutcome, hr]

theorem settleAfterFailure_succeeds (cfg : PaymentConfig) (hf : FieldsInv s.payment) (he : EvidenceInv s)
    (hs : s.payment.succeededAttemptId = none) (hconf : s.payment.status = .created → Confirmed s) (n : Nat)
    (code provider : String) : ∃ t, settlePaymentAfterFailure cfg s n code provider = .ok t := by
  unfold settlePaymentAfterFailure
  by_cases hc : s.payment.status = .closing
  · rw [if_pos hc]
    exact completeClosing_succeeds hf he hs
  rw [if_neg hc]
  by_cases ho : s.payment.status ≠ .pending ∧ s.payment.status ≠ .created
  · exact ⟨s, if_pos ho⟩
  rw [if_neg ho]
  have ho' : s.payment.status = .created ∨ s.payment.status = .pending := by tauto
  dsimp only
  split
  · rename_i hend
    simp only [Bool.and_eq_true, Bool.not_eq_true'] at hend
    refine closePayment_succeeds hf he _ hs rfl ?_ hend.1 (fun hcr _ => hconf hcr) fun h => absurd h hc
    rcases ho' with ho' | ho' <;> rw [ho'] <;> rfl
  · by_cases hcr : s.payment.status = .created
    · exact ⟨s, if_pos hcr⟩
    · rw [if_neg hcr]
      have hp := ho'.resolve_left hcr
      refine ⟨_, updatePayment_succeeds (hf.move_ok (by rw [hp]; rfl) (by simp) (by simp) ?_ ?_ ?_)⟩
      · intro h; cases h
      · exact fun h => absurd h hcr
      · exact fun h => absurd h hc

def InferredInv (as : List Attempt) : Prop := ∀ a ∈ as, a.failureInferred → a.status = .failed ∨ a.status = .succeeded

theorem InferredInv.replace (h : InferredInv as)
    (hb : b.failureInferred → b.status = .failed ∨ b.status = .succeeded) : InferredInv (replaceAttempt as b) := by
  intro x hx hi
  rcases mem_replaceAttempt hx with ⟨rfl, -⟩ | ⟨hx, -⟩
  · exact hb hi
  · exact h x hx hi

theorem InferredInv.of_open (h : InferredInv as) (ha : a ∈ as) (ho : a.isOpen) :
    a.failureInferred = false := by
  by_contra hi
  rcases h a ha (by simpa using hi) with hs | hs <;> simp [Attempt.isOpen, hs] at ho

theorem CoreStep.inferred (hc : CoreStep cfg s t) (h : InferredInv s.attempts) : InferredInv t.attempts := by
  cases hc with
  | idle ht => exact ht ▸ h
  | started a _ _ _ _ _ _ _ ht hi =>
    subst ht
    intro x hx hxi
    rcases List.mem_append.mp hx with hx | hx
    · exact h x hx hxi
    · rw [List.mem_singleton.mp hx, hi] at hxi
      cases hxi
  | acknowledged a b ha _ _ _ hoa _ ht hi =>
    subst ht
    refine h.replace fun hbi => ?_
    rw [hi, h.of_open ha hoa] at hbi
    cases hbi
  | settled a b _ _ _ _ _ hb _ ht =>
    subst ht
    exact h.replace fun _ => .inr hb
  | failed a b ha _ _ _ _ hb hf hi =>
    have hr : InferredInv (replaceAttempt s.attempts b) := by
      refine h.replace fun hbi => ?_
      rcases hb with hb | hb
      · exact .inl hb
      · obtain ⟨hoa, heq⟩ := hi hb
        rw [heq, h.of_open ha hoa] at hbi
        cases hbi
    cases hf with
    | kept ht => exact ht ▸ hr
    | reopened _ ht => exact ht ▸ hr
    | closed status hcl => exact hcl.attempts ▸ hr
  | closed status _ hcl => exact hcl.attempts ▸ h
  | closing reason _ _ ht => exact ht ▸ h

theorem Runs.inferred {s : Sys} (h : Runs cfg s) : InferredInv s.db.attempts := by
  induction h with
  | init h =>
    rw [h.attempts]
    intro a ha
    cases ha
  | step hr ha ih =>
    obtain ⟨a, rfl⟩ := ha
    rcases ((Runs.inv hr).db_step a).core with hc | hc
    · exact hc.inferred ih
    · rw [hc.attempts]
      exact ih

/-! ## The operations -/

structure Guarded (cfg : PaymentConfig) (s : Db) : Prop where
  run : RunInv cfg s
  evidence : EvidenceInv s
  fields : FieldsInv s.payment
  inferred : InferredInv s.attempts

theorem Runs.guarded {s : Sys} (h : Runs cfg s) : Guarded cfg s.db :=
  ⟨h.inv.core, h.late.evidence, h.fields, h.inferred⟩

section
variable (h : Guarded cfg s)
include h

theorem Guarded.failure_succeeds (ha : a ∈ s.attempts) (hu : a.uncertain)
    (hid : b.id = a.id)
    (hconf : s.payment.status = .created → b.status = .failed ∧ b.failureInferred ∧ b.failureConfirmedAt ≠ none)
    (n : Nat) (code provider : String) :
    ∃ t, settlePaymentAfterFailure cfg { s with attempts := replaceAttempt s.attempts b } n code provider = .ok t := by
  have hnt := h.run.not_terminal ha hu
  have he : EvidenceInv { s with attempts := replaceAttempt s.attempts b } :=
    h.evidence.before [] hnt rfl rfl rfl rfl rfl rfl (by simp [map_id_replaceAttempt]) (by simp)
  have hns := (h.run.none_succeeded (not_succeeded_of_open hnt)).1
  exact settleAfterFailure_succeeds (s := { s with attempts := replaceAttempt s.attempts b }) cfg h.fields he hns
    (fun hc => ⟨b, replaced_mem ha hid, hconf hc⟩) n code provider

theorem Guarded.not_created (ha : a ∈ s.attempts) (ho : a.isOpen) :
    s.payment.status ≠ .created := by
  intro hc
  rw [h.run.created hc a ha] at ho
  cases ho

theorem Guarded.open_fails (ha : a ∈ s.attempts) (ho : a.isOpen) (hid : b.id = a.id)
    (hp : b.provider = a.provider) (ht : b.providerTransactionId = a.providerTransactionId)
    (hc : b.failureConfirmedAt = a.failureConfirmedAt) (hcc : b.confirmedFailureCode = a.confirmedFailureCode)
    (hst : canTransitionAttempt a.status b.status) (n : Nat) (code provider : String) :
    ∃ t, (do settlePaymentAfterFailure cfg (← s.updateAttempt a b) n code provider) = .ok t := by
  have hu := uncertain_of_open ho
  have hup := updateAttempt_succeeds (h.run.attemptChecks_ok ha hu hid hp ht hc hcc (.inl hst)) hid
  obtain ⟨t, hset⟩ := h.failure_succeeds ha hu hid (fun hcr => absurd hcr (h.not_created ha ho)) n code provider
  exact ⟨t, bind_eq_ok.mpr ⟨_, hup, hset⟩⟩

theorem Guarded.submitted_checks (ha : a ∈ s.attempts)
    (hs : a.status = .initiated ∨ a.status = .unknown) (txn : String) :
    OnlyRefusedBy "payment_attempt_provider_txn_unique"
      (∃ x ∈ s.attempts, x.id ≠ a.id ∧ x.provider = a.provider ∧ x.providerTransactionId = some txn)
      (attemptChecks s a { a with status := .submitted, providerTransactionId := some txn }) := by
  have ho : a.isOpen := by
    simp only [Attempt.isOpen, decide_eq_true_eq]
    tauto
  have hedge : canTransitionAttempt a.status .submitted := by
    rcases hs with hs | hs <;> rw [hs] <;> rfl
  have hk := h.run.attemptChecks_ok (b := { a with status := .submitted }) ha (uncertain_of_open ho) rfl rfl rfl rfl rfl
    (.inl hedge)
  simp only [attemptChecks, List.forall_mem_cons] at hk
  simp only [OnlyRefusedBy, attemptChecks, List.forall_mem_cons]
  obtain ⟨h1, h2, h3, -, h5, h6, h7, -⟩ := hk
  refine ⟨fun hf => ?_, fun hf => ?_, fun hf => ?_, fun hf => ⟨trivial, ?_⟩, fun hf => ?_, fun hf => ?_,
    fun hf => ?_, by simp⟩
  · cases h1.symm.trans hf
  · cases h2.symm.trans hf
  · cases h3.symm.trans hf
  · simpa using hf
  · cases h5.symm.trans hf
  · cases h6.symm.trans hf
  · cases h7.symm.trans hf

theorem Guarded.finishStart_refused
    (he : finishStart cfg s c r = .error (.refused k)) :
    k = "payment_attempt_provider_txn_unique" ∧ ∃ txn, r = .accepted txn ∧
      ∃ x ∈ s.attempts, x.id ≠ c.attemptId ∧ x.providerTransactionId = some txn := by
  unfold finishStart at he
  split at he
  · cases he
  rename_i a hf
  obtain ⟨ha, hid⟩ := findAttempt_some hf
  by_cases hs : a.status ≠ .initiated ∧ a.status ≠ .unknown
  · rw [if_pos hs] at he
    cases he
  rw [if_neg hs] at he
  have hs' : a.status = .initiated ∨ a.status = .unknown := by tauto
  have ho : a.isOpen := by
    simp only [Attempt.isOpen, decide_eq_true_eq]
    tauto
  cases r with
  | accepted txn =>
    obtain ⟨hk, x, hx, hne, -, htxn⟩ := updateAttempt_refused (h.submitted_checks ha hs' txn) he
    exact ⟨hk, txn, rfl, x, hx, hid ▸ hne, htxn⟩
  | rejected cls code =>
    have hedge : canTransitionAttempt a.status .failed := by
      rcases hs' with hs' | hs' <;> rw [hs'] <;> rfl
    obtain ⟨t, ht⟩ := h.open_fails (b := { a with status := .failed, failureCode := some code, failureClass := some cls })
      ha ho rfl rfl rfl rfl rfl hedge c.attemptNumber code c.provider
    cases ht.symm.trans he
  | ambiguous =>
    by_cases hun : a.status = .unknown
    · simp only [if_pos hun] at he
      cases he
    · simp only [if_neg hun] at he
      have hin := hs'.resolve_right hun
      have hup := updateAttempt_succeeds (h.run.attemptChecks_ok (b := { a with status := .unknown }) ha
        (uncertain_of_open ho) rfl rfl rfl rfl rfl (.inl (by rw [hin]; rfl))) rfl
      rw [hup] at he
      cases he

end

theorem toUnknown_status {u : Db} (h : s.toUnknown a = .ok (u, b))
    (hs : a.status = .initiated ∨ a.status = .unknown) : b.status = .unknown := by
  unfold Db.toUnknown at h
  split at h
  · obtain ⟨v, -, h⟩ := bind_eq_ok.mp h
    cases h
    rfl
  · rename_i hn
    cases h
    exact hs.resolve_left hn

section
variable (h : Guarded cfg s)
include h

section
variable (ha : a ∈ s.attempts)
include ha

theorem Guarded.applyNotFound_succeeds :
    ∃ t, applyNotFound cfg s a = .ok t := by
  unfold applyNotFound
  by_cases hs : a.status ≠ .initiated ∧ a.status ≠ .unknown
  · exact ⟨s, if_pos hs⟩
  rw [if_neg hs]
  by_cases hn : !(cfg.capabilities a.provider).notFoundIsAuthoritative
  · exact ⟨s, if_pos hn⟩
  rw [if_neg hn]
  have hs' : a.status = .initiated ∨ a.status = .unknown := by tauto
  have ho : a.isOpen := by
    simp only [Attempt.isOpen, decide_eq_true_eq]
    tauto
  have hu := uncertain_of_open ho
  obtain ⟨as, b, hto, hr, hb, hbu, hbid, -⟩ := h.run.toUnknown_succeeds ha hu
  have hbs := toUnknown_status hto hs'
  let c : Attempt :=
    { b with status := .failed, failureCode := some "not_found", failureClass := some .terminal, failureInferred := true }
  have hup := updateAttempt_succeeds (hr.attemptChecks_ok (b := c) hb hbu rfl rfl rfl rfl rfl (.inl (by rw [hbs]; rfl))) rfl
  obtain ⟨t, ht⟩ := h.failure_succeeds (b := c) ha hu hbid (fun hcr => absurd hcr (h.not_created ha ho)) a.attemptNumber
    "not_found" a.provider
  refine ⟨t, bind_eq_ok.mpr ⟨_, hto, bind_eq_ok.mpr ⟨_, hup, ?_⟩⟩⟩
  have heq := toUnknown_update hto hup rfl
  rw [heq]
  exact ht

/-! ## Confirmed failures -/

theorem Guarded.confirmed_checks
    (hf : a.status = .failed ∧ a.failureInferred ∧ a.failureConfirmedAt = none) (now : Int) (code : String) :
    OnlyRefusedBy "payment_attempt_confirmed_code_length" (¬ (1 ≤ code.length ∧ code.length ≤ 128))
      (attemptChecks s a { a with failureConfirmedAt := some now, confirmedFailureCode := some code }) := by
  have hrow := h.run.attempts.rows a ha
  have htxn : a.providerTransactionId = none ∨ !s.attempts.any fun x =>
      x.id ≠ a.id ∧ x.provider = a.provider ∧ x.providerTransactionId = a.providerTransactionId := by
    simp only [Bool.not_eq_true', List.any_eq_false, decide_eq_true_eq, not_and]
    exact hrow.txn.imp_right fun hx x hxm hne hpx => hx x hxm hne hpx
  simp only [OnlyRefusedBy, attemptChecks, List.forall_mem_cons]
  refine ⟨fun hx => ?_, fun hx => ?_, fun hx => ?_, fun hx => ?_, fun hx => ?_, fun hx => ⟨trivial, ?_⟩,
    fun hx => ?_, by simp⟩
  · simp at hx
  · simp [Attempt.isOpen, hf] at hx
  · simp [hf] at hx
  · exact absurd htxn (of_decide_eq_false hx)
  · simp [hf] at hx
  · exact of_decide_eq_false hx
  · simp [hf] at hx

theorem Guarded.confirmFailure_refused
    (hf : a.status = .failed ∧ a.failureInferred ∧ a.failureConfirmedAt = none)
    (he : confirmFailure cfg s now a code = .error (.refused k)) :
    k = "payment_attempt_confirmed_code_length" ∧ ¬ (1 ≤ code.length ∧ code.length ≤ 128) := by
  have hu : a.uncertain := by simp [Attempt.uncertain, hf]
  rcases bind_refused he with he | ⟨u, hup, he⟩
  · exact updateAttempt_refused (h.confirmed_checks ha hf now code) he
  · rw [updateAttempt_replace hup rfl] at he
    obtain ⟨t, ht⟩ := h.failure_succeeds
      (b := { a with failureConfirmedAt := some now, confirmedFailureCode := some code }) ha hu rfl
      (fun _ => ⟨hf.1, hf.2.1, by simp⟩) a.attemptNumber code a.provider
    rw [ht] at he
    cases he

theorem Guarded.applyExpired_never (now : Int) :
    NeverRefused (applyExpired cfg s now a) := by
  intro k he
  unfold applyExpired at he
  split at he
  · cases he
  split at he
  · rename_i hf
    exact absurd (by decide) (h.confirmFailure_refused ha hf he).2
  split at he
  · cases he
  rename_i hs
  have hs' := not_not.mp hs
  have ho : a.isOpen := by simp [Attempt.isOpen, hs']
  obtain ⟨t, ht⟩ := h.open_fails
    (b := { a with status := .expired, failureCode := some "expired", failureClass := some .terminal })
    ha ho rfl rfl rfl rfl rfl (by rw [hs']; rfl) a.attemptNumber "expired" a.provider
  cases ht.symm.trans he

theorem Guarded.applyFailed_refused
    {cls : FailureClass} (he : applyFailed cfg s now a cls code = .error (.refused k)) :
    k = "payment_attempt_confirmed_code_length" ∧ ¬ (1 ≤ code.length ∧ code.length ≤ 128) := by
  unfold applyFailed at he
  split at he
  · cases he
  rename_i hns
  split at he
  · rename_i hf
    exact h.confirmFailure_refused ha hf he
  split at he
  · cases he
  rename_i hs
  push Not at hs
  have ho : a.isOpen := by
    cases hst : a.status <;> simp_all [Attempt.isOpen]
  have hedge : canTransitionAttempt a.status .failed := by
    cases hst : a.status <;> simp_all [canTransitionAttempt]
  obtain ⟨t, ht⟩ := h.open_fails (b := { a with status := .failed, failureCode := some code, failureClass := some cls })
    ha ho rfl rfl rfl rfl rfl hedge a.attemptNumber code a.provider
  cases ht.symm.trans he

/-! ## Successes -/

theorem Guarded.uncertain_of_applicable
    (hs : a.status ≠ .succeeded)
    (hf : ¬ ((a.status = .failed ∨ a.status = .expired) ∧ (!a.failureInferred ∨ a.failureConfirmedAt ≠ none))) :
    a.uncertain := by
  have hexp : a.status ≠ .expired := by
    intro he
    by_cases hi : a.failureInferred
    · rcases h.inferred a ha hi with hs' | hs' <;> rw [he] at hs' <;> cases hs'
    · exact hf ⟨.inr he, .inl (by simpa using hi)⟩
  by_cases hst : a.status = .failed
  · have hfc : ¬ ((!a.failureInferred) = true ∨ a.failureConfirmedAt ≠ none) := fun hc => hf ⟨.inl hst, hc⟩
    push Not at hfc
    simp only [Attempt.uncertain, hst, Bool.or_eq_true, decide_eq_true_eq]
    exact .inr ⟨trivial, by simpa using hfc.1, hfc.2⟩
  · apply uncertain_of_open
    cases hs' : a.status <;> simp_all [Attempt.isOpen]

theorem Guarded.applySucceeded_never (amount : Int)
    (currency : String) (factId : Option Uuid) : NeverRefused (applySucceeded s a amount currency factId) := by
  intro k he
  unfold applySucceeded at he
  dsimp only at he
  split at he
  · cases he
  rename_i hns
  split at he
  · split at he <;> cases he
  rename_i hm
  push Not at hm
  split at he
  · cases he
  rename_i hv
  split at he
  · cases he
  split at he
  · cases he
  rename_i hf
  split at he
  · cases he
  rename_i hone
  have hu := h.uncertain_of_applicable ha hns hf
  have hev : captureEvidence s a.id s.payment.amount s.payment.currency factId = ⟨true, 1⟩ := by
    have hvt : (captureEvidence s a.id amount currency factId).verified = true := by simpa using hv
    rw [hm.1, hm.2]
    exact congrArg₂ Evidence.mk hvt (not_not.mp hone)
  obtain ⟨u, b, v, w, hto, hup, hpay, -⟩ := h.run.settlement_succeeds h.evidence.supported.currency ha hu hev
  rcases bind_refused he with he | ⟨x, hx, he⟩
  · cases hto.symm.trans he
  cases hto.symm.trans hx
  rcases bind_refused he with he | ⟨x, hx, he⟩
  · cases hup.symm.trans he
  cases hup.symm.trans hx
  rcases bind_refused he with he | ⟨x, hx, he⟩
  · cases hpay.symm.trans he
  cases he

end

theorem Guarded.applyStatus_refused {status : FetchStatusResult}
    (he : applyStatus cfg s now id status factId = .error (.refused k)) :
    k = "payment_attempt_confirmed_code_length" ∧
      ∃ cls code, status = .failed cls code ∧ ¬ (1 ≤ code.length ∧ code.length ≤ 128) := by
  unfold applyStatus at he
  split at he
  · cases he
  rename_i a hf
  obtain ⟨ha, -⟩ := findAttempt_some hf
  cases status with
  | pending => cases he
  | notFound =>
    obtain ⟨t, ht⟩ := h.applyNotFound_succeeds ha
    simp only [ht, Except.map] at he
    cases he
  | succeeded amount currency txn => exact absurd he (h.applySucceeded_never ha amount currency factId k)
  | expired =>
    cases hx : applyExpired cfg s now a with
    | ok t =>
      simp only [hx, Except.map] at he
      cases he
    | error e =>
      simp only [hx, Except.map, Except.error.injEq] at he
      subst he
      exact absurd hx (h.applyExpired_never ha now k)
  | failed cls code =>
    cases hx : applyFailed cfg s now a cls code with
    | ok t =>
      simp only [hx, Except.map] at he
      cases he
    | error e =>
      simp only [hx, Except.map, Except.error.injEq] at he
      subst he
      obtain ⟨hk, hl⟩ := h.applyFailed_refused ha hx
      exact ⟨hk, cls, code, rfl, hl⟩

/-! ## Cancel, expiry, start -/

theorem Guarded.closes_never (event : PaymentEvent)
    (hs : s.payment.status = .created ∨ s.payment.status = .pending) (hu : isPaymentUncertain s = false)
    (hst : status = .cancelled ∨ status = .expired) : ∃ t, closePayment s status event = .ok t := by
  have hns : s.payment.status ≠ .succeeded := by rcases hs with hs | hs <;> simp [hs]
  refine closePayment_succeeds h.fields h.evidence event (h.run.unsettled hns) ?_ ?_ hu (fun _ hf => ?_) fun hc => ?_
  · rcases hst with rfl | rfl <;> rfl
  · rcases hs with hs | hs <;> rcases hst with rfl | rfl <;> rw [hs] <;> rfl
  · rcases hst with rfl | rfl <;> cases hf
  · rcases hs with hs | hs <;> rw [hs] at hc <;> cases hc

theorem Guarded.cancel_never : NeverRefused (cancel s) := by
  intro k he
  unfold cancel at he
  split at he
  · cases he
  rename_i hnc
  split at he
  · cases he
  rename_i ho
  simp only [Bool.or_eq_true, Bool.not_eq_true', not_or, Bool.not_eq_false] at ho
  have hs : s.payment.status = .created ∨ s.payment.status = .pending := by
    rcases open_of_edge ho.2 with hs | hs | hs
    · exact .inl hs
    · exact .inr hs
    · exact absurd hs hnc
  split at he
  · rename_i hu
    rw [updatePayment_succeeds (h.fields.closing_ok hs hu _)] at he
    cases he
  · rename_i hu
    obtain ⟨t, ht⟩ := h.closes_never .paymentCancelled hs (by simpa using hu) (.inl rfl)
    rw [ht] at he
    cases he

theorem Guarded.sweep_succeeds (now : Int) : ∃ t, trySweepOne s now = .ok t := by
  unfold trySweepOne
  by_cases hx : !isExpired s.payment now
  · exact ⟨s, if_pos hx⟩
  rw [if_neg hx]
  by_cases ho : s.payment.status ≠ .created ∧ s.payment.status ≠ .pending
  · exact ⟨s, if_pos ho⟩
  rw [if_neg ho]
  have hs : s.payment.status = .created ∨ s.payment.status = .pending := by tauto
  by_cases hu : isPaymentUncertain s
  · rw [if_pos hu]
    exact ⟨_, updatePayment_succeeds (h.fields.closing_ok hs hu _)⟩
  · rw [if_neg hu]
    exact h.closes_never .paymentExpired hs (by simpa using hu) (.inr rfl)

theorem Guarded.number_fresh : s.attempts.any (·.attemptNumber = s.attempts.length + 1) = false := by
  rw [List.any_eq_false]
  intro x hx
  have hm : x.attemptNumber ∈ s.attempts.map (·.attemptNumber) := List.mem_map_of_mem hx
  rw [h.run.attempts.numbers, List.mem_range'_1] at hm
  simp only [decide_eq_true_eq]
  omega

theorem Guarded.start_refused
    (he : startAttempt s id provider now = .error (.refused k)) : k = "payment_attempt_pkey" := by
  unfold startAttempt at he
  split at he
  · cases he
  split at he
  · cases he
  split at he
  · cases he
  split at he
  · cases he
  rename_i hs
  have hcreated := not_not.mp hs
  split at he
  · cases he
  rename_i hopen
  split at he
  · cases he
  rename_i hu
  rcases bind_refused he with he | ⟨u, hins, he⟩
  · rcases bind_refused he with he | ⟨-, -, he⟩
    · obtain ⟨c, hc, hf, hk⟩ := enforce_refused he
      cases hk
      simp only [List.mem_cons, List.not_mem_nil, or_false] at hc
      rcases hc with rfl | rfl | rfl | rfl
      · simp [hcreated, hu] at hf
      · rfl
      · simp [h.number_fresh] at hf
      · simp [hopen] at hf
    · cases he
  · have hp : u.payment = s.payment := by rw [(insertAttempt_ok hins).1]
    have hfields : FieldsInv u.payment := hp ▸ h.fields
    have hmove : Admitted (paymentChecks u { u.payment with status := .pending }) := by
      refine hfields.move_ok (by rw [hp, hcreated]; rfl) (by simp) (by simp) ?_ ?_ fun hf => ?_
      · intro hf; cases hf
      · intro _ hf; cases hf
      · rw [hp, hcreated] at hf; cases hf
    have hup := updatePayment_succeeds hmove
    rcases bind_refused he with he | ⟨v, -, he⟩
    · cases hup.symm.trans he
    · cases he

end

end

/-! ## Which transaction acknowledges an attempt -/

/-- Every attempt of `t` in doubt or submitted was so before, except those of `P`. -/
def OnlyNew (P : Attempt → Prop) (as bs : List Attempt) : Prop :=
  ∀ b ∈ bs, b.status = .unknown ∨ b.status = .submitted → b ∈ as ∨ P b

section
variable {cfg : PaymentConfig} {s t : Db} {P : Attempt → Prop}

theorem OnlyNew.refl (as : List Attempt) : OnlyNew P as as := fun _ hb _ => .inl hb

theorem OnlyNew.of_eq {bs : List Attempt} (h : bs = as) : OnlyNew P as bs := h ▸ .refl _

theorem OnlyNew.replace (as : List Attempt) (hb : b.status = .unknown ∨ b.status = .submitted → P b) :
    OnlyNew P as (replaceAttempt as b) := by
  intro x hx hs
  rcases mem_replaceAttempt hx with ⟨rfl, -⟩ | ⟨hx, -⟩
  · exact .inr (hb hs)
  · exact .inl hx

theorem OnlyNew.ended (as : List Attempt)
    (hb : b.status = .failed ∨ b.status = .succeeded ∨ b.status = .expired) : OnlyNew P as (replaceAttempt as b) := by
  refine .replace as fun hs => ?_
  rcases hb with hb | hb | hb <;> rw [hb] at hs <;> rcases hs with hs | hs <;> cases hs

theorem settleAfterFailure_attempts {n : Nat}
    (h : settlePaymentAfterFailure cfg s n code provider = .ok t) : t.attempts = s.attempts := by
  cases settleAfterFailure_ok h with
  | kept ht => rw [ht]
  | reopened _ ht => rw [ht]
  | closed status hc => exact hc.attempts

theorem closePayment_attempts {event : PaymentEvent}
    (h : closePayment s status event = .ok t) : t.attempts = s.attempts := by
  obtain ⟨u, hu, h⟩ := bind_eq_ok.mp h
  obtain ⟨rfl, -⟩ := updatePayment_ok hu
  exact (recordQualifying_core h).attempts

theorem cancel_attempts (h : cancel s = .ok t) : t.attempts = s.attempts := by
  unfold cancel at h
  split at h
  · cases h; rfl
  obtain ⟨-, h⟩ := guard_ok h
  split at h
  · obtain ⟨rfl, -⟩ := updatePayment_ok h
    rfl
  · exact closePayment_attempts h

theorem sweep_attempts (h : trySweepOne s now = .ok t) : t.attempts = s.attempts := by
  unfold trySweepOne at h
  split at h
  · cases h; rfl
  split at h
  · cases h; rfl
  split at h
  · obtain ⟨rfl, -⟩ := updatePayment_ok h
    rfl
  · exact closePayment_attempts h

theorem confirmFailure_new (hs : a.status = .failed)
    (h : confirmFailure cfg s now a code = .ok t) : OnlyNew P s.attempts t.attempts := by
  obtain ⟨u, hu, h⟩ := bind_eq_ok.mp h
  rw [settleAfterFailure_attempts h, updateAttempt_replace hu rfl]
  exact .ended _ (.inl hs)

theorem applyStatus_new {status : FetchStatusResult}
    {f : Option LateFinding} (h : applyStatus cfg s now id status factId = .ok (t, f)) :
    OnlyNew P s.attempts t.attempts := by
  unfold applyStatus at h
  split at h
  · cases h
  rename_i a hf
  cases status with
  | pending => cases h; exact .refl _
  | notFound =>
    obtain ⟨u, hu, h⟩ := map_eq_ok.mp h
    cases h
    unfold applyNotFound at hu
    split at hu
    · cases hu; exact .refl _
    split at hu
    · cases hu; exact .refl _
    obtain ⟨⟨v, b⟩, hv, hu⟩ := bind_eq_ok.mp hu
    obtain ⟨w, hw, hu⟩ := bind_eq_ok.mp hu
    rw [settleAfterFailure_attempts hu, toUnknown_update hv hw rfl]
    exact .ended _ (.inl rfl)
  | succeeded amount currency txn =>
    cases applySucceeded_ok h with
    | already _ ht => exact ht ▸ .refl _
    | settled b _ _ _ hb _ _ _ _ _ ht =>
      subst ht
      exact .ended _ (.inr (.inl hb))
    | final _ _ _ _ ht => exact ht ▸ .refl _
    | confirmed _ _ ht => exact ht ▸ .refl _
  | expired =>
    obtain ⟨u, hu, h⟩ := map_eq_ok.mp h
    cases h
    unfold applyExpired at hu
    obtain ⟨-, hu⟩ := guard_ok hu
    split at hu
    · rename_i hc
      exact confirmFailure_new hc.1 hu
    split at hu
    · cases hu; exact .refl _
    obtain ⟨w, hw, hu⟩ := bind_eq_ok.mp hu
    rw [settleAfterFailure_attempts hu, updateAttempt_replace hw rfl]
    exact .ended _ (.inr (.inr rfl))
  | failed cls code =>
    obtain ⟨u, hu, h⟩ := map_eq_ok.mp h
    cases h
    unfold applyFailed at hu
    obtain ⟨-, hu⟩ := guard_ok hu
    split at hu
    · rename_i hc
      exact confirmFailure_new hc.1 hu
    split at hu
    · cases hu; exact .refl _
    obtain ⟨w, hw, hu⟩ := bind_eq_ok.mp hu
    rw [settleAfterFailure_attempts hu, updateAttempt_replace hw rfl]
    exact .ended _ (.inl rfl)

theorem finishStart_new (h : finishStart cfg s c r = .ok t) :
    OnlyNew (·.id = c.attemptId) s.attempts t.attempts := by
  unfold finishStart at h
  split at h
  · cases h
  rename_i a hf
  have hid := (findAttempt_some hf).2
  split at h
  · cases h; exact .refl _
  split at h
  · rw [updateAttempt_replace h rfl]
    exact .replace _ fun _ => hid
  · split at h
    · cases h; exact .refl _
    · rw [updateAttempt_replace h rfl]
      exact .replace _ fun _ => hid
  · obtain ⟨u, hu, h⟩ := bind_eq_ok.mp h
    rw [settleAfterFailure_attempts h, updateAttempt_replace hu rfl]
    exact .ended _ (.inl rfl)

end

section
variable {cfg : PaymentConfig} {s t : Sys}

/-- What a step does to the calls of `start` and to the attempts they are about. -/
inductive CallsStep (s t : Sys) : Prop
  | kept (hs : t.starts.Sublist s.starts) (ha : OnlyNew (fun _ => False) s.db.attempts t.db.attempts)
  | started (a : Attempt) (c : StartCall) (hs : t.starts = c :: s.starts) (hc : c.attemptId = a.id)
      (hid : ∀ x ∈ s.db.attempts, x.id ≠ a.id) (ho : a.status = .initiated) (ht : t.db.attempts = s.db.attempts ++ [a])
  | finished (c : StartCall) (hc : c ∈ s.starts) (hs : t.starts = s.starts.erase c)
      (ha : OnlyNew (·.id = c.attemptId) s.db.attempts t.db.attempts)

theorem CallsStep.same (hs : t.starts = s.starts) (ha : t.db.attempts = s.db.attempts) : CallsStep s t :=
  .kept (hs ▸ List.Sublist.refl _) (.of_eq ha)

theorem commit_calls {r : Except PaymentError Db} (h : ∀ u, r = .ok u → u.attempts = s.db.attempts) :
    CallsStep s (s.commit r) := by
  unfold Sys.commit
  split
  · exact .same rfl (h _ rfl)
  · exact .same rfl rfl

theorem resume_calls_step (cfg : PaymentConfig) (s : Sys) (c : ApplyCall) (now : Int) :
    CallsStep s (resume cfg s c now) := by
  have hstarts := resume_starts cfg s c now
  refine .kept (hstarts ▸ List.Sublist.refl _) ?_
  unfold resume
  split
  · split
    · exact .refl _
    · rename_i h
      exact applyStatus_new h
    · rename_i h
      split <;> exact applyStatus_new h
  · split
    · exact .refl _
    · rename_i h
      exact .of_eq (recordLateSuccess_core h).attempts
  · exact .refl _

theorem step_calls_step (cfg : PaymentConfig) (s : Sys) (a : Action) : CallsStep s (step cfg s a) := by
  cases a with
  | start id provider now =>
    simp only [step]
    split
    · rename_i db x h
      obtain ⟨-, -, -, ho, hid, -, -, ht, -⟩ := startAttempt_ok h
      exact .started x _ rfl rfl hid ho (by rw [ht])
    · exact .same rfl rfl
  | finishStart c r =>
    simp only [step]
    split
    · rename_i hc
      unfold Sys.commit
      split
      · rename_i h
        exact .finished c hc rfl (finishStart_new h)
      · exact .finished c hc rfl (.refl _)
    · exact .same rfl rfl
  | loseStart c => exact .kept List.erase_sublist (.refl _)
  | observe id status event fresh =>
    simp only [step]
    split
    · rename_i h
      exact .same rfl (observe_ok h).core.attempts
    · exact .same rfl rfl
  | resume c now =>
    simp only [step]
    split
    · exact resume_calls_step cfg s c now
    · exact .same rfl rfl
  | lose c => exact .same rfl rfl
  | cancel => exact commit_calls fun u hu => cancel_attempts hu
  | sweep now => exact commit_calls fun u hu => sweep_attempts hu
  | reconcile factId => exact commit_calls fun u hu => (recordQualifying_core hu).attempts
  | otherPayment paymentId attempt amount currency txn event fresh =>
    simp only [step]
    split
    · exact .same rfl rfl
    · rename_i ho
      refine commit_calls fun u hu => ?_
      obtain ⟨⟨v, factId⟩, hv, rfl⟩ := map_eq_ok.mp hu
      have hb : BoundHere s.db ⟨paymentId, attempt.id⟩ := by
        refine ⟨fun hp => absurd (.inl hp) ho, fun ha => absurd (.inr ?_) ho⟩
        simpa using ha
      exact (recordCaptureFact_ok hb hv).core.attempts
  | keepUnmatched provider txn amount currency event fresh =>
    refine commit_calls fun u hu => ?_
    obtain ⟨⟨v, factId⟩, hv, rfl⟩ := map_eq_ok.mp hu
    exact (recordUnmatchedFact_ok hv).core.attempts

/-- A call of `start` is the only one for its attempt, which the provider has not left in doubt. -/
structure CallsInv (s : Sys) : Prop where
  nodup : (s.starts.map (·.attemptId)).Nodup
  known : ∀ c ∈ s.starts, ∀ a ∈ s.db.attempts, a.id = c.attemptId → a.status ≠ .unknown

theorem CallsStep.inv (h : CallsStep s t) (ho : StartsOk s) (hi : CallsInv s) : CallsInv t := by
  cases h with
  | kept hs ha =>
    refine ⟨hi.nodup.sublist (hs.map _), fun c hc a hat hid hst => ?_⟩
    have hm := (ha a hat (.inl hst)).resolve_right id
    exact hi.known c (hs.subset hc) a hm hid hst
  | started x c hs hc hid hst ht =>
    have hnew : ∀ d ∈ s.starts, d.attemptId ≠ x.id := by
      intro d hd heq
      obtain ⟨y, hy, hyid, -⟩ := ho d hd
      exact hid y hy (hyid.trans heq)
    refine ⟨?_, fun d hd a hat hida => ?_⟩
    · rw [hs, List.map_cons, List.nodup_cons]
      refine ⟨fun hm => ?_, hi.nodup⟩
      obtain ⟨d, hd, hdc⟩ := List.mem_map.mp hm
      exact hnew d hd (hdc.trans hc)
    · rw [ht] at hat
      rcases List.mem_append.mp hat with hat | hat
      · rw [hs] at hd
        rcases List.mem_cons.mp hd with rfl | hd
        · exact absurd (hida.trans hc) (hid a hat)
        · exact hi.known d hd a hat hida
      · rw [List.mem_singleton.mp hat, hst]
        simp
  | finished c hc hs ha =>
    refine ⟨hs ▸ hi.nodup.sublist (List.erase_sublist.map _), fun d hd a hat hid hst => ?_⟩
    rw [hs] at hd
    have hds := List.mem_of_mem_erase hd
    rcases ha a hat (.inl hst) with hm | hm
    · exact hi.known d hds a hm hid hst
    · have hdc : d = c := List.inj_on_of_nodup_map hi.nodup hds hc (hid.symm.trans hm)
      subst hdc
      exact (List.Nodup.mem_erase_iff (hi.nodup.of_map _)).mp hd |>.1 rfl

theorem Runs.calls (h : Runs cfg s) : CallsInv s := by
  induction h with
  | init h =>
    refine ⟨by rw [h.starts]; exact List.nodup_nil, fun c hc => ?_⟩
    rw [h.starts] at hc
    cases hc
  | step hr ha ih =>
    obtain ⟨a, rfl⟩ := ha
    exact (step_calls_step cfg _ a).inv (Runs.inv hr).starts ih

theorem CoreStep.pending_ends {u v : Db} (hc : CoreStep cfg u v) (h : RunInv cfg u) (hp : u.payment.status = .pending) :
    v.payment.status ≠ .cancelled ∧ v.payment.status ≠ .expired := by
  have hsame : u.payment.status ≠ .cancelled ∧ u.payment.status ≠ .expired := by simp [hp]
  cases hc with
  | idle ht => exact ht ▸ hsame
  | started a hs => rw [hp] at hs; cases hs
  | acknowledged a b _ _ _ _ _ _ ht => exact ht ▸ hsame
  | settled a b _ _ _ _ _ _ _ ht =>
    subst ht
    simp
  | failed a b _ _ _ _ _ _ hf =>
    cases hf with
    | kept ht => exact ht ▸ hsame
    | reopened _ ht =>
      subst ht
      simp
    | closed status hcl hs =>
      rcases hs with hs | rfl
      · rw [show u.payment.status = .closing from hs] at hp
        cases hp
      · rw [hcl.payment]
        simp
  | closed status _ hcl =>
    obtain ⟨a, ha, ho⟩ := h.pending hp
    have hr := mem_resolved.mp hcl.resolved a (hcl.attempts ▸ ha)
    rw [uncertain_of_open ho] at hr
    cases hr
  | closing reason _ _ ht =>
    subst ht
    simp

theorem Runs.pending_ends (h : Runs cfg s) (a : Action) (hp : s.db.payment.status = .pending) :
    (step cfg s a).db.payment.status ≠ .cancelled ∧ (step cfg s a).db.payment.status ≠ .expired := by
  rcases (h.inv.db_step a).core with hc | hc
  · exact hc.pending_ends h.inv.core hp
  · rw [hc.payment, hp]
    simp

theorem Runs.unknown_stays (h : Runs cfg s) (a : Action) {x y : Attempt} (hx : x ∈ s.db.attempts)
    (hy : y ∈ (step cfg s a).db.attempts) (hid : y.id = x.id) (hs : x.status = .unknown) : y.status ≠ .submitted := by
  intro hsub
  have hold : y ∉ s.db.attempts := by
    intro hm
    rw [h.inv.core.attempts.same_id hm hx hid, hs] at hsub
    cases hsub
  cases step_calls_step cfg s a with
  | kept _ ha => exact hold ((ha y hy (.inr hsub)).resolve_right id)
  | started z c _ _ hz ho ht =>
    rw [ht] at hy
    rcases List.mem_append.mp hy with hy | hy
    · exact hold hy
    · rw [List.mem_singleton.mp hy, ho] at hsub
      cases hsub
  | finished c hc _ ha =>
    have hyc := (ha y hy (.inr hsub)).resolve_left hold
    exact h.calls.known c hc x hx (hid.symm.trans hyc) hs

end

/-! ## Edges that an operation takes -/

section
variable {α : Type} {cfg : PaymentConfig}

def visits (cfg : PaymentConfig) (f : Sys → α) : Sys → List Action → List (α × α)
  | _, [] => []
  | s, a :: as => (f s, f (step cfg s a)) :: visits cfg f (step cfg s a) as

theorem visits_reachable {f : Sys → α} {s : Sys} (h : Runs cfg s) {as : List Action} {e : α × α}
    (he : e ∈ visits cfg f s as) : ∃ t a, Runs cfg t ∧ f t = e.1 ∧ f (step cfg t a) = e.2 := by
  induction as generalizing s with
  | nil => cases he
  | cons a as ih =>
    rcases List.mem_cons.mp he with rfl | he
    · exact ⟨s, a, h, rfl, rfl⟩
    · exact ih (.step h ⟨a, rfl⟩) he

end

def Sys.paymentStatus (s : Sys) : PaymentStatus := s.db.payment.status

def Sys.attemptStatus (id : Uuid) (s : Sys) : Option AttemptStatus := (s.db.findAttempt id).map (·.status)

def PaymentMoves (source target : PaymentStatus) : Prop :=
  ∃ cfg s a, Runs cfg s ∧ s.paymentStatus = source ∧ (step cfg s a).paymentStatus = target

def AttemptMoves (source target : AttemptStatus) : Prop :=
  ∃ cfg s a id, Runs cfg s ∧ s.attemptStatus id = some source ∧ (step cfg s a).attemptStatus id = some target

def firstAttempt (r : InitiateResult) : List Action := [.start 10 "test" 0, .finishStart ⟨10, 1, "test"⟩ r]

def answer (status : FetchStatusResult) (factId : Option Uuid) : List Action :=
  [.observe 10 status none 20, .resume ⟨10, status, none, .deciding factId⟩ 0]

def paidAnswer : List Action := answer (.succeeded 1000 "EUR" (some "txn-1")) (some 20)

def declinedAnswer : List Action := answer (.failed .terminal "card_stolen") none

def guessedFailure : List Action := firstAttempt .ambiguous ++ answer .notFound none

def usedRuns : List (List Action) :=
  [ firstAttempt (.rejected .retryable "card_declined"),
    firstAttempt (.rejected .terminal "card_stolen"),
    firstAttempt (.accepted "txn-1") ++ paidAnswer,
    firstAttempt (.accepted "txn-1") ++ declinedAnswer,
    firstAttempt (.accepted "txn-1") ++ answer .expired none,
    firstAttempt .ambiguous ++ paidAnswer,
    guessedFailure ++ paidAnswer,
    guessedFailure ++ declinedAnswer,
    guessedFailure ++ .cancel :: declinedAnswer,
    .start 10 "test" 0 :: .cancel :: paidAnswer,
    .start 10 "test" 0 :: .sweep 60 :: declinedAnswer,
    [.cancel],
    [.sweep 60] ]

def unusedPaymentEdges : List (PaymentStatus × PaymentStatus) := [(.pending, .cancelled), (.pending, .expired)]

theorem payment_edges_used : ∀ e ∈ guardedPaymentEdges, e ∉ unusedPaymentEdges →
    ∃ as ∈ usedRuns, e ∈ visits threeAttempts Sys.paymentStatus (.new tenEuros) as := by decide

theorem attempt_edges_used : ∀ e ∈ (.failed, .succeeded) :: guardedAttemptEdges, e ≠ (.unknown, .submitted) →
    ∃ as ∈ usedRuns, (some e.1, some e.2) ∈ visits threeAttempts (Sys.attemptStatus 10) (.new tenEuros) as := by decide

theorem paymentMoves_of_edge {a b : PaymentStatus} (h : (a, b) ∈ guardedPaymentEdges) (hu : (a, b) ∉ unusedPaymentEdges) :
    PaymentMoves a b := by
  obtain ⟨as, -, he⟩ := payment_edges_used _ h hu
  obtain ⟨s, x, hs, hf, ht⟩ := visits_reachable (.init (initial_new tenEuros)) he
  exact ⟨_, s, x, hs, hf, ht⟩

theorem attemptMoves_of_edge {a b : AttemptStatus} (h : (a, b) ∈ (.failed, .succeeded) :: guardedAttemptEdges)
    (hu : (a, b) ≠ (.unknown, .submitted)) : AttemptMoves a b := by
  obtain ⟨as, -, he⟩ := attempt_edges_used _ h hu
  obtain ⟨s, x, hs, hf, ht⟩ := visits_reachable (.init (initial_new tenEuros)) he
  exact ⟨_, s, x, 10, hs, hf, ht⟩

/-! ## The two tables -/

theorem canTransitionPayment_iff (a b : PaymentStatus) : canTransitionPayment a b = true ↔ (a, b) ∈ guardedPaymentEdges := by
  cases a <;> cases b <;> decide

theorem canTransitionAttempt_iff (a b : AttemptStatus) : canTransitionAttempt a b = true ↔ (a, b) ∈ guardedAttemptEdges := by
  cases a <;> cases b <;> decide

theorem updatePayment_edge {s t : Db} {p : Payment} (h : s.updatePayment p = .ok t) :
    s.payment.status = p.status ∨ canTransitionPayment s.payment.status p.status := by
  have hk := (updatePayment_ok h).2
  simp only [paymentChecks, List.forall_mem_cons, decide_eq_true_eq] at hk
  exact hk.1

theorem updateAttempt_edge {s t : Db} (h : s.updateAttempt a b = .ok t) :
    a.status = b.status ∨ canTransitionAttemptWith a.failureInferred a.status b.status := by
  have hk := (updateAttempt_ok h).2
  simp only [attemptChecks, List.forall_mem_cons, decide_eq_true_eq] at hk
  unfold canTransitionAttemptWith
  rcases hk.1 with hs | hs | hs
  · exact .inl hs
  · right
    rw [if_neg]
    · exact hs
    · rintro ⟨hf, -⟩
      rw [hf] at hs
      cases hs
  · right
    rw [if_pos ⟨hs.1, hs.2.1⟩]
    exact hs.2.2.1

/-- The service allows what the database guards, and the operations use it. -/
structure TablesMatch : Prop where
  payment : ∀ a b, canTransitionPayment a b = true ↔ (a, b) ∈ guardedPaymentEdges
  attempt : ∀ inferred a b, ¬ (a = .failed ∧ b = .succeeded) →
    (canTransitionAttemptWith inferred a b = true ↔ (a, b) ∈ guardedAttemptEdges)
  notInferred : canTransitionAttemptWith false .failed .succeeded = false
  paymentUpdates : ∀ s t p, Db.updatePayment s p = .ok t →
    s.payment.status = p.status ∨ canTransitionPayment s.payment.status p.status
  attemptUpdates : ∀ s t a b, Db.updateAttempt s a b = .ok t →
    a.status = b.status ∨ canTransitionAttemptWith a.failureInferred a.status b.status
  paymentUsed : ∀ a b, canTransitionPayment a b → ¬ (a = .pending ∧ (b = .cancelled ∨ b = .expired)) → PaymentMoves a b
  attemptUsed : ∀ a b, canTransitionAttempt a b → ¬ (a = .unknown ∧ b = .submitted) → AttemptMoves a b
  inferredUsed : AttemptMoves .failed .succeeded

theorem tables_match : TablesMatch := by
  refine ⟨canTransitionPayment_iff, fun inferred a b hne => ?_, rfl, fun s t p => updatePayment_edge,
    fun s t a b => updateAttempt_edge, fun a b h hu => ?_, fun a b h hu => ?_, ?_⟩
  · unfold canTransitionAttemptWith
    rw [if_neg hne]
    exact canTransitionAttempt_iff a b
  · refine paymentMoves_of_edge ((canTransitionPayment_iff a b).mp h) fun hm => hu ?_
    simp only [unusedPaymentEdges, List.mem_cons, Prod.mk.injEq, List.not_mem_nil, or_false] at hm
    rcases hm with ⟨ha, hb⟩ | ⟨ha, hb⟩
    · exact ⟨ha, .inl hb⟩
    · exact ⟨ha, .inr hb⟩
  · refine attemptMoves_of_edge (List.mem_cons_of_mem _ ((canTransitionAttempt_iff a b).mp h)) fun hm => hu ?_
    exact Prod.mk.inj hm
  · exact attemptMoves_of_edge List.mem_cons_self (by decide)

/-! ## The rules -/

/-- What the constraints of the database can still refuse in a reachable state, and the edges that stay unused. -/
structure TransitionRules (cfg : PaymentConfig) (s : Sys) : Prop where
  start : ∀ id provider now k, startAttempt s.db id provider now = .error (.refused k) → k = "payment_attempt_pkey"
  finishStart : ∀ c r k, finishStart cfg s.db c r = .error (.refused k) →
    k = "payment_attempt_provider_txn_unique" ∧ ∃ txn, r = .accepted txn ∧
      ∃ x ∈ s.db.attempts, x.id ≠ c.attemptId ∧ x.providerTransactionId = some txn
  applyStatus : ∀ now id status factId k, applyStatus cfg s.db now id status factId = .error (.refused k) →
    k = "payment_attempt_confirmed_code_length" ∧
      ∃ cls code, status = .failed cls code ∧ ¬ (1 ≤ code.length ∧ code.length ≤ 128)
  cancel : NeverRefused (cancel s.db)
  sweep : ∀ now, ∃ t, trySweepOne s.db now = .ok t
  pendingCloses : ∀ a, s.db.payment.status = .pending →
    (step cfg s a).db.payment.status ≠ .cancelled ∧ (step cfg s a).db.payment.status ≠ .expired
  unknownStays : ∀ a, ∀ x ∈ s.db.attempts, ∀ y ∈ (step cfg s a).db.attempts, y.id = x.id → x.status = .unknown →
    y.status ≠ .submitted

/-- **Every update passes the guards of transition, of finality and of evidence.** -/
theorem transition_rules {cfg : PaymentConfig} {s : Sys} (h : Runs cfg s) : TransitionRules cfg s ∧ TablesMatch := by
  have hg := h.guarded
  refine ⟨⟨?_, ?_, ?_, hg.cancel_never, hg.sweep_succeeds, h.pending_ends, ?_⟩, tables_match⟩
  · exact fun _ _ _ _ he => hg.start_refused he
  · exact fun _ _ _ he => hg.finishStart_refused he
  · exact fun _ _ _ _ _ he => hg.applyStatus_refused he
  · exact fun a x hx y hy hid hs => h.unknown_stays a hx hy hid hs

theorem transition_rules_inferred :
    let s := run threeAttempts (.new tenEuros) guessedFailure
    s.paymentStatus = .created ∧ s.attemptStatus 10 = some .failed ∧
      (run threeAttempts s paidAnswer).paymentStatus = .succeeded ∧ TransitionRules threeAttempts s :=
  ⟨by decide, by decide, by decide, (transition_rules (Runs.run (.init (initial_new tenEuros)) guessedFailure)).1⟩

/-- Two transitions of a payment are allowed, and guarded, and no operation takes them. -/
theorem pending_never_ends_unsettled :
    (canTransitionPayment .pending .cancelled ∧ ¬ PaymentMoves .pending .cancelled) ∧
    (canTransitionPayment .pending .expired ∧ ¬ PaymentMoves .pending .expired) := by
  refine ⟨⟨rfl, ?_⟩, rfl, ?_⟩
  · rintro ⟨cfg, s, a, h, hs, ht⟩
    exact (h.pending_ends a hs).1 ht
  · rintro ⟨cfg, s, a, h, hs, ht⟩
    exact (h.pending_ends a hs).2 ht

end NawaraCore.Payments
