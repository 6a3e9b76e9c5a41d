import NawaraCore.Lib.Rows
import NawaraCore.Payment.PaymentSystem

/-!
# Soundness of the payment runs

What one transaction can do to the payment and its attempts, the invariant that
every such change keeps, and the run theorem.
-/

namespace NawaraCore.Payments

variable {db : Db} {a b x : Attempt} {status : PaymentStatus} {now amount : Int} {currency code provider : String} {factId event : Option Uuid} {id fresh : Uuid} {f : Option LateFinding}

variable {t : Db}

theorem updateAttempt_ok (h : db.updateAttempt a b = .ok t) :
    t = { db with attempts := db.attempts.map fun x => if x.id = a.id then b else x } ∧
      ∀ c ∈ attemptChecks db a b, c.2 = true := by
  obtain ⟨u, hu, h⟩ := bind_eq_ok.mp h
  cases h
  exact ⟨rfl, enforce_ok.mp hu⟩

theorem updatePayment_ok {p : Payment} (h : db.updatePayment p = .ok t) :
    t = { db with payment := p } ∧ ∀ c ∈ paymentChecks db p, c.2 = true := by
  obtain ⟨u, hu, h⟩ := bind_eq_ok.mp h
  cases h
  exact ⟨rfl, enforce_ok.mp hu⟩

theorem findAttempt_some (h : db.findAttempt id = some a) :
    a ∈ db.attempts ∧ a.id = id := by
  refine ⟨List.mem_of_find?_eq_some h, ?_⟩
  simpa using List.find?_some h

theorem insertFact_ok {f : CaptureFact} {inserted : Bool} (h : db.insertFact f = .ok (t, inserted)) :
    (∀ g ∈ db.facts, g.id ≠ f.id) ∧
      (if inserted then t = { db with facts := db.facts ++ [f] } ∧
          ∀ g ∈ db.facts, ¬ (g.provider = f.provider ∧ g.providerTxnId = f.providerTxnId)
        else t = db) := by
  obtain ⟨u, hu, h⟩ := bind_eq_ok.mp h
  have hk := enforce_ok.mp hu
  simp only [List.forall_mem_cons, Bool.not_eq_true', List.any_eq_false, decide_eq_true_eq] at hk
  refine ⟨hk.1, ?_⟩
  split at h
  · cases h; simp
  · rename_i hne
    cases h
    simpa using hne

variable {l : LateSuccess}

theorem insertLateSuccess_ok (h : db.insertLateSuccess l = .ok t) :
    (∀ c ∈ lateSuccessChecks db l, c.2 = true) ∧
      ((t = db ∧ ∃ m ∈ db.lateSuccesses, l.clashes m) ∨
        (t = { db with
          lateSuccesses := db.lateSuccesses ++ [l]
          outbox := db.outbox ++ [.lateSuccessRecorded l.factId l.paymentStatus] } ∧
          ∀ m ∈ db.lateSuccesses, ¬ l.clashes m)) := by
  obtain ⟨u, hu, h⟩ := bind_eq_ok.mp h
  refine ⟨enforce_ok.mp hu, ?_⟩
  split at h
  · rename_i hc
    cases h
    exact .inl ⟨rfl, by simpa using hc⟩
  · rename_i hc
    cases h
    exact .inr ⟨rfl, by simpa using hc⟩

def PaymentEvent.announces : PaymentEvent → Option PaymentStatus
  | .paymentSucceeded _ => some .succeeded
  | .paymentFailed _ => some .failed
  | .paymentCancelled => some .cancelled
  | .paymentExpired => some .expired
  | .lateSuccessRecorded _ _ => none

def Db.announced (db : Db) : List PaymentStatus := db.outbox.filterMap PaymentEvent.announces

structure SameCore (s t : Db) : Prop where
  payment : t.payment = s.payment
  attempts : t.attempts = s.attempts
  announced : t.announced = s.announced

theorem SameCore.refl (s : Db) : SameCore s s := ⟨rfl, rfl, rfl⟩

variable {s t u : Db}

theorem SameCore.trans (h : SameCore s t) (k : SameCore t u) : SameCore s u :=
  ⟨k.payment.trans h.payment, k.attempts.trans h.attempts, k.announced.trans h.announced⟩

variable {s t : Db}

theorem insertLateSuccess_core (h : s.insertLateSuccess l = .ok t) : SameCore s t := by
  obtain ⟨-, ⟨rfl, -⟩ | ⟨rfl, -⟩⟩ := insertLateSuccess_ok h
  · exact .refl _
  · exact ⟨rfl, rfl, by simp [Db.announced, PaymentEvent.announces]⟩

theorem recordFact_core {f : CaptureFact} (h : recordFact s f = .ok t) : SameCore s t := by
  unfold recordFact at h
  split at h
  · cases h; exact .refl _
  · exact insertLateSuccess_core h

theorem recordQualifying_core {only : Option Uuid} (h : recordQualifyingLateSuccesses s only = .ok t) :
    SameCore s t := by
  unfold recordQualifyingLateSuccesses at h
  split at h
  · cases h; exact .refl _
  · exact foldlM_invariant (P := SameCore s) (fun b f c _ hb hf => hb.trans (recordFact_core hf)) (.refl _) h

/-! ## What a transaction does -/

/-- The payment ends without success, nothing being uncertain, says so once and records its late successes. -/
structure Closes (s t : Db) (status : PaymentStatus) : Prop where
  final : finalUnsuccessful status
  open_ : isTerminalPaymentStatus s.payment.status = false
  resolved : isPaymentUncertain t = false
  payment : t.payment = { s.payment with status }
  attempts : t.attempts = s.attempts
  announced : t.announced = s.announced ++ [status]
  recorded : ∃ event, recordQualifyingLateSuccesses
    { s with payment := { s.payment with status }, outbox := s.outbox ++ [event] } none = .ok t

def replaceAttempt (as : List Attempt) (b : Attempt) : List Attempt := as.map fun x => if x.id = b.id then b else x

structure RowOk (as : List Attempt) (b : Attempt) : Prop where
  txn : b.providerTransactionId = none ∨ ∀ x ∈ as, x.id ≠ b.id → x.provider = b.provider →
    x.providerTransactionId ≠ b.providerTransactionId
  unconfirmed : b.failureConfirmedAt = none → b.confirmedFailureCode = none
  confirmed : b.failureConfirmedAt ≠ none → b.status = .failed ∧ b.failureInferred

/-- What `settlePaymentAfterFailure` leaves, for the attempt with number `n` that just failed. -/
inductive AfterFailure (cfg : PaymentConfig) (n : Nat) (s t : Db) : Prop
  | kept (ht : t = s)
      (hs : s.payment.status = .closing → isPaymentUncertain s)
      (hc : s.payment.status = .created → isPaymentUncertain s ∨ n < cfg.maxAttempts)
      (hp : s.payment.status ≠ .pending)
  | reopened (hp : s.payment.status = .pending) (ht : t = { s with payment := { s.payment with status := .created } })
      (hc : isPaymentUncertain s ∨ n < cfg.maxAttempts)
  | closed (status : PaymentStatus) (h : Closes s t status) (hs : s.payment.status = .closing ∨ status = .failed)

inductive CoreStep (cfg : PaymentConfig) (s t : Db) : Prop
  | idle (ht : t = s)
  | started (a : Attempt) (hs : s.payment.status = .created) (hu : isPaymentUncertain s = false)
      (hn : a.attemptNumber = s.attempts.length + 1) (ho : a.status = .initiated)
      (hid : ∀ x ∈ s.attempts, x.id ≠ a.id) (hk : RowOk s.attempts a) (hf : ∀ f ∈ s.facts, f.onAttempt a.id = false)
      (ht : t = { s with payment := { s.payment with status := .pending }, attempts := s.attempts ++ [a] })
      (hi : a.failureInferred = false)
  | acknowledged (a b : Attempt) (ha : a ∈ s.attempts) (hid : b.id = a.id) (hn : b.attemptNumber = a.attemptNumber)
      (hk : RowOk s.attempts b) (hoa : a.isOpen) (hob : b.isOpen) (ht : t = { s with attempts := replaceAttempt s.attempts b })
      (hi : b.failureInferred = a.failureInferred)
  | settled (a b : Attempt) (ha : a ∈ s.attempts) (hid : b.id = a.id) (hn : b.attemptNumber = a.attemptNumber)
      (hk : RowOk s.attempts b) (hu : a.uncertain) (hb : b.status = .succeeded) (hs : isTerminalPaymentStatus s.payment.status = false)
      (ht : t = { s with
        payment := { s.payment with
          status := .succeeded, settledMethod := some .gateway, succeededAttemptId := some a.id }
        attempts := replaceAttempt s.attempts b
        outbox := s.outbox ++ [.paymentSucceeded a.id] })
      (he : ∃ factId, captureEvidence s a.id s.payment.amount s.payment.currency factId = ⟨true, 1⟩)
  | failed (a b : Attempt) (ha : a ∈ s.attempts) (hid : b.id = a.id) (hn : b.attemptNumber = a.attemptNumber)
      (hk : RowOk s.attempts b) (hu : a.uncertain) (hb : b.status = .failed ∨ b.status = .expired)
      (h : AfterFailure cfg a.attemptNumber { s with attempts := replaceAttempt s.attempts b } t)
      (hi : b.status = .expired → a.isOpen ∧ b.failureInferred = a.failureInferred)
  | closed (status : PaymentStatus) (hs : s.payment.status ≠ .closing) (h : Closes s t status)
  | closing (reason : ClosingReason) (hs : s.payment.status = .created ∨ s.payment.status = .pending)
      (hu : isPaymentUncertain s)
      (ht : t = { s with payment := { s.payment with status := .closing, closingReason := some reason } })

theorem uncertain_congr (h : t.attempts = s.attempts) : isPaymentUncertain t = isPaymentUncertain s := by
  simp only [isPaymentUncertain, h]

theorem uncertain_of_open (h : a.isOpen) : a.uncertain := by simp [Attempt.uncertain, h]

theorem closePayment_ok {event : PaymentEvent}
    (h : closePayment s status event = .ok t) (hf : finalUnsuccessful status) (he : event.announces = some status)
    (hs : isTerminalPaymentStatus s.payment.status = false) (hu : isPaymentUncertain s = false) : Closes s t status := by
  obtain ⟨u, hup, h⟩ := bind_eq_ok.mp h
  obtain ⟨rfl, -⟩ := updatePayment_ok hup
  have hc := recordQualifying_core h
  refine ⟨hf, hs, ?_, hc.payment, hc.attempts, hc.announced.trans ?_, event, h⟩
  · rw [uncertain_congr hc.attempts, ← hu]; rfl
  · simp [Db.announced, he]

theorem completeClosing_ok (h : completeClosingIfResolved s = .ok t) (hs : s.payment.status = .closing) :
    (t = s ∧ isPaymentUncertain s) ∨ ∃ status, Closes s t status := by
  have hn : isTerminalPaymentStatus s.payment.status = false := by rw [hs]; rfl
  unfold completeClosingIfResolved at h
  split at h
  · rename_i hc
    cases h
    exact .inl ⟨rfl, by simpa [hs] using hc⟩
  · rename_i hc
    have hu : isPaymentUncertain s = false := by simpa [hs] using hc
    split at h
    · exact .inr ⟨_, closePayment_ok h rfl rfl hn hu⟩
    · exact .inr ⟨_, closePayment_ok h rfl rfl hn hu⟩

variable {cfg : PaymentConfig}

theorem settleAfterFailure_ok {n : Nat}
    (h : settlePaymentAfterFailure cfg s n code provider = .ok t) : AfterFailure cfg n s t := by
  unfold settlePaymentAfterFailure at h
  split at h
  · rename_i hs
    rcases completeClosing_ok h hs with ⟨hc, hu⟩ | ⟨status, hc⟩
    · exact .kept hc (fun _ => hu) (by simp [hs]) (by simp [hs])
    · exact .closed status hc (.inl hs)
  · rename_i hs
    split at h
    · rename_i ho
      cases h
      exact .kept rfl (fun hc => absurd hc hs) (fun hc => absurd hc ho.2) ho.1
    · rename_i ho
      have hs' : s.payment.status = .pending ∨ s.payment.status = .created := by tauto
      have hn : isTerminalPaymentStatus s.payment.status = false := by
        rcases hs' with hs' | hs' <;> rw [hs'] <;> rfl
      dsimp only at h
      split at h
      · rename_i hc
        simp only [Bool.and_eq_true, Bool.not_eq_true'] at hc
        exact .closed _ (closePayment_ok h rfl rfl hn hc.1) (.inr rfl)
      · rename_i hc
        have hl : isPaymentUncertain s ∨ n < cfg.maxAttempts := by
          by_cases hu : isPaymentUncertain s
          · exact .inl hu
          · simp only [hu, Bool.not_false, Bool.true_and, Bool.or_eq_true, decide_eq_true_eq, not_or] at hc
            exact .inr (by omega)
        split at h
        · rename_i hcr
          cases h
          exact .kept rfl (fun hc => absurd hc hs) (fun _ => hl) (by simp [hcr])
        · rename_i hcr
          obtain ⟨rfl, -⟩ := updatePayment_ok h
          exact .reopened (hs'.resolve_right hcr) rfl hl

theorem insertAttempt_ok (h : s.insertAttempt a = .ok t) :
    t = { s with attempts := s.attempts ++ [a] } ∧ s.payment.status = .created ∧ isPaymentUncertain s = false ∧
      (∀ x ∈ s.attempts, x.id ≠ a.id) ∧ ∀ f ∈ s.facts, f.onAttempt a.id = false := by
  obtain ⟨u, hu, h⟩ := bind_eq_ok.mp h
  have hk := enforce_ok.mp hu
  simp only [List.forall_mem_cons, decide_eq_true_eq, Bool.not_eq_true', List.any_eq_false] at hk
  cases h
  exact ⟨rfl, hk.1.1, hk.1.2, hk.2.1.1, by simpa using hk.2.1.2⟩

theorem startAttempt_ok
    (h : startAttempt s id provider now = .ok (t, a)) :
    s.payment.status = .created ∧ isPaymentUncertain s = false ∧ a.attemptNumber = s.attempts.length + 1 ∧
      a.status = .initiated ∧ (∀ x ∈ s.attempts, x.id ≠ a.id) ∧ RowOk s.attempts a ∧
      (∀ f ∈ s.facts, f.onAttempt a.id = false) ∧
      t = { s with payment := { s.payment with status := .pending }, attempts := s.attempts ++ [a] } ∧
      a.failureInferred = false := by
  unfold startAttempt at h
  obtain ⟨-, -, h⟩ := guards_ok h
  obtain ⟨-, -, h⟩ := guards_ok h
  obtain ⟨-, -, h⟩ := guards_ok h
  obtain ⟨u, hi, h⟩ := bind_eq_ok.mp h
  obtain ⟨v, hp, h⟩ := bind_eq_ok.mp h
  obtain ⟨rfl, hs, hu, hid, hf⟩ := insertAttempt_ok hi
  obtain ⟨rfl, -⟩ := updatePayment_ok hp
  cases h
  exact ⟨hs, hu, rfl, rfl, hid, ⟨.inl rfl, fun _ => rfl, fun hc => absurd rfl hc⟩, hf, rfl, rfl⟩

theorem updateAttempt_replace (h : s.updateAttempt a b = .ok t) (hid : b.id = a.id) :
    t = { s with attempts := replaceAttempt s.attempts b } := by
  obtain ⟨rfl, -⟩ := updateAttempt_ok h
  simp only [replaceAttempt, hid]

theorem updateAttempt_row (h : s.updateAttempt a b = .ok t) : RowOk s.attempts b := by
  have hk := (updateAttempt_ok h).2
  simp only [attemptChecks, List.forall_mem_cons, decide_eq_true_eq, Bool.not_eq_true', List.any_eq_false, not_and] at hk
  obtain ⟨-, -, -, htxn, hshape, -⟩ := hk
  refine ⟨?_, fun hn => ?_, fun hn => ?_⟩
  · exact htxn.imp_right fun h x hx hid hp => h x hx hid hp
  · simpa [hn] using hshape
  · simpa [hn] using hshape

variable {c : StartCall}

theorem finishStart_ok {r : InitiateResult}
    (hc : ∀ a ∈ s.attempts, a.id = c.attemptId → a.attemptNumber = c.attemptNumber)
    (h : finishStart cfg s c r = .ok t) : CoreStep cfg s t := by
  unfold finishStart at h
  split at h
  · cases h
  · rename_i current hf
    obtain ⟨hm, hid⟩ := findAttempt_some hf
    split at h
    · cases h; exact .idle rfl
    · rename_i ho
      have ho' : current.isOpen := by simp only [Attempt.isOpen, decide_eq_true_eq]; tauto
      split at h
      · have ht := updateAttempt_replace h rfl
        refine .acknowledged current _ hm ?_ ?_ (updateAttempt_row h) ho' ?_ ht ?_ <;> rfl
      · split at h
        · cases h; exact .idle rfl
        · have ht := updateAttempt_replace h rfl
          refine .acknowledged current _ hm ?_ ?_ (updateAttempt_row h) ho' ?_ ht ?_ <;> rfl
      · obtain ⟨u, hu, h⟩ := bind_eq_ok.mp h
        rw [updateAttempt_replace hu rfl, ← hc _ hm hid] at h
        have hk := settleAfterFailure_ok h
        refine .failed current _ hm ?_ ?_ (updateAttempt_row hu) (uncertain_of_open ho') ?_ hk ?_
        · rfl
        · rfl
        · exact .inl rfl
        · intro hx; cases hx

/-! ## Provider statuses -/

theorem replaceAttempt_twice (as : List Attempt) (h : b.id = a.id) :
    replaceAttempt (replaceAttempt as a) b = replaceAttempt as b := by
  unfold replaceAttempt
  rw [List.map_map]
  refine List.map_congr_left fun x _ => ?_
  by_cases hx : x.id = a.id
  · simp [hx, h]
  · simp [hx, h]

theorem toUnknown_ok (h : s.toUnknown a = .ok (t, b)) :
    b.id = a.id ∧ b.attemptNumber = a.attemptNumber ∧ (a.status = .initiated ∨ b = a) ∧ t.payment = s.payment ∧ t.facts = s.facts ∧
      t.conflicts = s.conflicts ∧ t.lateSuccesses = s.lateSuccesses ∧ t.outbox = s.outbox ∧
      ∀ c : Attempt, c.id = a.id → replaceAttempt t.attempts c = replaceAttempt s.attempts c := by
  unfold Db.toUnknown at h
  split at h
  · rename_i hi
    obtain ⟨u, hu, h⟩ := bind_eq_ok.mp h
    cases h
    rw [updateAttempt_replace hu rfl]
    refine ⟨rfl, rfl, .inl hi, rfl, rfl, rfl, rfl, rfl, fun c hc => ?_⟩
    exact replaceAttempt_twice _ hc
  · cases h
    exact ⟨rfl, rfl, .inr rfl, rfl, rfl, rfl, rfl, rfl, fun c _ => rfl⟩

variable {as : List Attempt}

theorem RowOk.of_replace (h : RowOk (replaceAttempt as a) b) (hid : b.id = a.id) :
    RowOk as b := by
  refine ⟨h.txn.imp_right fun ht x hx hxid => ?_, h.unconfirmed, h.confirmed⟩
  refine ht x (List.mem_map.mpr ⟨x, hx, if_neg fun hxa => ?_⟩) hxid
  exact hxid (hxa.trans hid.symm)

theorem toUnknown_row {c : Attempt} (h : s.toUnknown a = .ok (t, b))
    (hu : t.updateAttempt b c = .ok u) (hc : c.id = b.id) : RowOk s.attempts c := by
  have hr := updateAttempt_row hu
  unfold Db.toUnknown at h
  split at h
  · obtain ⟨v, hv, h⟩ := bind_eq_ok.mp h
    cases h
    rw [updateAttempt_replace hv rfl] at hr
    exact hr.of_replace hc
  · cases h
    exact hr

theorem toUnknown_update {c : Attempt} (h : s.toUnknown a = .ok (t, b))
    (hu : t.updateAttempt b c = .ok u) (hc : c.id = b.id) : u = { s with attempts := replaceAttempt s.attempts c } := by
  obtain ⟨hid, -, -, hp, hf, hk, hl, ho, hr⟩ := toUnknown_ok h
  rw [updateAttempt_replace hu hc, hr c (hc.trans hid)]
  cases t
  cases s
  simp_all

theorem uncertain_of_succeeds (h : s.updateAttempt a b = .ok t) (hb : b.status = .succeeded)
    (ha : a.status ≠ .succeeded) : a.uncertain := by
  have hk := (updateAttempt_ok h).2
  simp only [attemptChecks, List.forall_mem_cons, hb, decide_eq_true_eq] at hk
  rcases hk.1 with hs | hs | hs
  · exact absurd hs ha
  · cases hs' : a.status <;> simp_all [canTransitionAttempt, Attempt.uncertain, Attempt.isOpen]
  · simp [Attempt.uncertain, hs]

section
variable (hm : a ∈ s.attempts)
include hm

theorem applyNotFound_ok
    (h : applyNotFound cfg s a = .ok t) : CoreStep cfg s t := by
  unfold applyNotFound at h
  split at h
  · cases h; exact .idle rfl
  · rename_i ho
    have hu : a.uncertain := uncertain_of_open (by simp only [Attempt.isOpen, decide_eq_true_eq]; tauto)
    split at h
    · cases h; exact .idle rfl
    · obtain ⟨⟨v, b⟩, hv, h⟩ := bind_eq_ok.mp h
      obtain ⟨w, hw, h⟩ := bind_eq_ok.mp h
      obtain ⟨hid, hn, -⟩ := toUnknown_ok hv
      rw [toUnknown_update hv hw rfl] at h
      have hk := settleAfterFailure_ok h
      refine .failed a _ hm ?_ ?_ (toUnknown_row hv hw rfl) hu ?_ hk ?_
      · exact hid
      · exact hn
      · exact .inl rfl
      · intro hx; cases hx

theorem confirmFailure_ok
    (hs : a.status = .failed) (hu : a.uncertain) (h : confirmFailure cfg s now a code = .ok t) :
    CoreStep cfg s t := by
  obtain ⟨v, hv, h⟩ := bind_eq_ok.mp h
  rw [updateAttempt_replace hv rfl] at h
  have hk := settleAfterFailure_ok h
  refine .failed a _ hm ?_ ?_ (updateAttempt_row hv) hu ?_ hk ?_
  · rfl
  · rfl
  · exact .inl hs
  · intro hx
    rw [show a.status = .expired from hx] at hs
    cases hs

theorem applyExpired_ok
    (h : applyExpired cfg s now a = .ok t) : CoreStep cfg s t := by
  unfold applyExpired at h
  obtain ⟨-, h⟩ := guard_ok h
  split at h
  · rename_i hf
    exact confirmFailure_ok hm hf.1 (by simp [Attempt.uncertain, hf]) h
  · split at h
    · cases h; exact .idle rfl
    · rename_i ho
      have hoa : a.isOpen := by simp only [Attempt.isOpen, decide_eq_true_eq]; tauto
      obtain ⟨v, hv, h⟩ := bind_eq_ok.mp h
      rw [updateAttempt_replace hv rfl] at h
      have hk := settleAfterFailure_ok h
      refine .failed a _ hm ?_ ?_ (updateAttempt_row hv) (uncertain_of_open hoa) ?_ hk ?_
      · rfl
      · rfl
      · exact .inr rfl
      · exact fun _ => ⟨hoa, rfl⟩

theorem applyFailed_ok {cls : FailureClass}
    (h : applyFailed cfg s now a cls code = .ok t) : CoreStep cfg s t := by
  unfold applyFailed at h
  obtain ⟨hn, h⟩ := guard_ok h
  split at h
  · rename_i hf
    exact confirmFailure_ok hm hf.1 (by simp [Attempt.uncertain, hf]) h
  · split at h
    · cases h; exact .idle rfl
    · rename_i ho
      have hu : a.uncertain := by
        refine uncertain_of_open ?_
        cases hs : a.status <;> simp_all [Attempt.isOpen]
      obtain ⟨v, hv, h⟩ := bind_eq_ok.mp h
      rw [updateAttempt_replace hv rfl] at h
      have hk := settleAfterFailure_ok h
      refine .failed a _ hm ?_ ?_ (updateAttempt_row hv) hu ?_ hk ?_
      · rfl
      · rfl
      · exact .inl rfl
      · intro hx; cases hx

end

/-- An answered success either settles an uncertain attempt, or leaves everything as it was. -/
inductive SuccessOutcome (s t : Db) (a : Attempt) (amount : Int) (currency : String) (factId : Option Uuid) :
    Option LateFinding → Prop
  | already (hs : a.status = .succeeded) (ht : t = s) : SuccessOutcome s t a amount currency factId none
  | settled (b : Attempt) (hid : b.id = a.id) (hn : b.attemptNumber = a.attemptNumber) (hk : RowOk s.attempts b)
      (hb : b.status = .succeeded) (hu : a.uncertain) (hs : isTerminalPaymentStatus s.payment.status = false)
      (hm : s.payment.amount = amount ∧ s.payment.currency = currency)
      (he : (captureEvidence s a.id amount currency factId).verified)
      (h1 : (captureEvidence s a.id amount currency factId).captures = 1)
      (ht : t = { s with
        payment := { s.payment with
          status := .succeeded, settledMethod := some .gateway, succeededAttemptId := some a.id }
        attempts := replaceAttempt s.attempts b
        outbox := s.outbox ++ [.paymentSucceeded a.id] }) :
      SuccessOutcome s t a amount currency factId none
  | final (hs : isTerminalPaymentStatus s.payment.status) (ha : a.status ≠ .succeeded)
      (he : (captureEvidence s a.id amount currency factId).verified)
      (hc : finalUnsuccessful s.payment.status ∧ isoCurrency currency ∨
        s.payment.amount = amount ∧ s.payment.currency = currency) (ht : t = s) :
      SuccessOutcome s t a amount currency factId (some ⟨amount, currency, s.payment.status, .final⟩)
  | confirmed (hs : isTerminalPaymentStatus s.payment.status = false) (hu : a.uncertain = false) (ht : t = s) :
      SuccessOutcome s t a amount currency factId (some ⟨amount, currency, s.payment.status, .confirmedFailure⟩)

theorem applySucceeded_ok
    (h : applySucceeded s a amount currency factId = .ok (t, f)) :
    SuccessOutcome s t a amount currency factId f := by
  unfold applySucceeded at h
  dsimp only at h
  split at h
  · rename_i hs
    cases h; exact .already hs rfl
  · rename_i hns
    split at h
    · split at h
      · rename_i hc
        simp only [Bool.and_eq_true] at hc
        cases h
        have ht : isTerminalPaymentStatus s.payment.status := by
          cases hs : s.payment.status <;> simp_all [finalUnsuccessful, isTerminalPaymentStatus]
        exact .final ht hns hc.2 (.inl hc.1) rfl
      · cases h
    · rename_i hm
      push Not at hm
      obtain ⟨hv, h⟩ := guard_ok h
      simp only [Bool.not_eq_true', Bool.not_eq_false] at hv
      split at h
      · rename_i hs
        cases h; exact .final hs hns hv (.inr hm) rfl
      · rename_i hs
        simp only [Bool.not_eq_true] at hs
        split at h
        · rename_i hf
          cases h
          refine .confirmed hs ?_ rfl
          obtain ⟨hf | hf, hi⟩ := hf <;> simp [Attempt.uncertain, Attempt.isOpen, hf]
          simpa [imp_iff_not_or] using hi
        · rename_i hf
          obtain ⟨hone, h⟩ := guard_ok h
          simp only [ne_eq, not_not] at hone
          obtain ⟨⟨v, b⟩, hv', h⟩ := bind_eq_ok.mp h
          obtain ⟨w, hw, h⟩ := bind_eq_ok.mp h
          obtain ⟨x, hx, h⟩ := bind_eq_ok.mp h
          obtain ⟨hid, hn, hi, -⟩ := toUnknown_ok hv'
          have hu : a.uncertain := by
            rcases hi with hi | rfl
            · exact uncertain_of_open (by simp [Attempt.isOpen, hi])
            · exact uncertain_of_succeeds hw rfl hns
          have hk := toUnknown_row hv' hw rfl
          obtain rfl := toUnknown_update hv' hw rfl
          obtain ⟨rfl, -⟩ := updatePayment_ok hx
          cases h
          exact .settled { b with status := .succeeded } hid hn hk rfl hu hs hm hv hone (by simp only [hid])

theorem applySucceeded_core
    (hm : a ∈ s.attempts)
    (h : applySucceeded s a amount currency factId = .ok (t, f)) : CoreStep cfg s t := by
  cases applySucceeded_ok h with
  | already _ ht => exact .idle ht
  | final _ _ _ _ ht => exact .idle ht
  | confirmed _ _ ht => exact .idle ht
  | settled b hid hn hk hb hu hs heq hv hone ht =>
    subst ht
    refine .settled a b hm hid hn hk hu hb hs rfl ⟨factId, ?_⟩
    rw [heq.1, heq.2]
    exact congrArg₂ Evidence.mk hv hone

theorem applyStatus_ok {status : FetchStatusResult}
    (h : applyStatus cfg s now id status factId = .ok (t, f)) :
    CoreStep cfg s t := by
  unfold applyStatus at h
  split at h
  · cases h
  · rename_i a hf
    obtain ⟨hm, -⟩ := findAttempt_some hf
    split at h
    · cases h; exact .idle rfl
    · obtain ⟨u, hu, h⟩ := map_eq_ok.mp h
      cases h; exact applyNotFound_ok hm hu
    · exact applySucceeded_core hm h
    · obtain ⟨u, hu, h⟩ := map_eq_ok.mp h
      cases h; exact applyExpired_ok hm hu
    · obtain ⟨u, hu, h⟩ := map_eq_ok.mp h
      cases h; exact applyFailed_ok hm hu

theorem recordLateSuccess_core {f : LateFinding}
    (h : recordLateSuccess s id f event factId = .ok t) : SameCore s t := by
  unfold recordLateSuccess at h
  split at h
  · cases h; exact .refl _
  · split at h
    · cases h
    · exact insertLateSuccess_core h

/-! ## Facts -/

def BoundHere (db : Db) (b : FactBinding) : Prop :=
  b.paymentId = db.payment.id ↔ b.attemptId ∈ db.attempts.map (·.id)

/-- What the evidence tables gain: nothing, one fact of an unseen movement, or one contradiction of a kept fact. -/
inductive Recorded (s t : Db) : Prop
  | same (h : t = s)
  | fact (f : CaptureFact) (hid : ∀ g ∈ s.facts, g.id ≠ f.id)
      (hnew : ∀ g ∈ s.facts, ¬ (g.provider = f.provider ∧ g.providerTxnId = f.providerTxnId))
      (hb : ∀ b, f.binding = some b → BoundHere s b)
      (ht : t = { s with facts := s.facts ++ [f] })
  | conflict (c : FactConflict) (hf : ∃ f ∈ s.facts, f.id = c.factId)
      (ht : t = { s with conflicts := s.conflicts ++ [c] }) (hn : c ∉ s.conflicts)

theorem insertConflict_recorded {s : Db} {c : FactConflict} (hf : ∃ f ∈ s.facts, f.id = c.factId) :
    Recorded s (s.insertConflict c) := by
  unfold Db.insertConflict
  split
  · exact .same rfl
  · rename_i hn
    exact .conflict c hf rfl hn

theorem Recorded.core (h : Recorded s t) : SameCore s t := by
  cases h with
  | same h => exact h ▸ .refl _
  | fact f _ _ _ ht => exact ht ▸ ⟨rfl, rfl, rfl⟩
  | conflict c _ ht => exact ht ▸ ⟨rfl, rfl, rfl⟩

theorem recordCaptureFact_ok {paymentId : Uuid}
    {txn : Option String}
    (hb : BoundHere s ⟨paymentId, a.id⟩)
    (h : recordCaptureFact s a paymentId amount currency txn event fresh = .ok (t, factId)) : Recorded s t := by
  unfold recordCaptureFact at h
  split at h
  · cases h; exact .same rfl
  · split at h
    · cases h; exact .same rfl
    · cases h; exact .same rfl
    · split at h
      · cases h; exact .same rfl
      · obtain ⟨⟨v, inserted⟩, hv, hr⟩ := bind_eq_ok.mp h
        obtain ⟨hid, hi⟩ := insertFact_ok hv
        clear h
        cases inserted with
        | true =>
          cases hr
          exact .fact _ hid hi.2 (fun b hbb => Option.some.inj hbb ▸ hb) hi.1
        | false =>
          obtain rfl : v = s := hi
          simp only [Bool.false_eq_true, if_false] at hr
          split at hr
          · cases hr; exact .same rfl
          · rename_i fact hfind
            split at hr
            · cases hr; exact .same rfl
            · cases hr
              exact insertConflict_recorded ⟨fact, List.mem_of_find?_eq_some hfind, rfl⟩

theorem recordUnmatchedFact_ok {txn : String}
    {event : Uuid}
    (h : recordUnmatchedFact s provider txn amount currency event fresh = .ok (t, factId)) : Recorded s t := by
  unfold recordUnmatchedFact at h
  split at h
  · cases h; exact .same rfl
  · obtain ⟨⟨v, inserted⟩, hv, hr⟩ := bind_eq_ok.mp h
    obtain ⟨hid, hi⟩ := insertFact_ok hv
    clear h
    cases inserted with
    | true => cases hr; exact .fact _ hid hi.2 nofun hi.1
    | false =>
      obtain rfl : v = s := hi
      cases hr
      exact .same rfl

theorem observe_ok {status : FetchStatusResult}
    (h : observe s id status event fresh = .ok (t, factId)) : Recorded s t := by
  unfold observe at h
  split at h
  · rename_i a hf
    obtain ⟨hm, -⟩ := findAttempt_some hf
    exact recordCaptureFact_ok ⟨fun _ => List.mem_map_of_mem hm, fun _ => rfl⟩ h
  · cases h; exact .same rfl

theorem cancel_ok (h : cancel s = .ok t) : CoreStep cfg s t := by
  unfold cancel at h
  split at h
  · cases h; exact .idle rfl
  · rename_i hc
    obtain ⟨ho, h⟩ := guard_ok h
    simp only [Bool.or_eq_true, Bool.not_eq_true', not_or, Bool.not_eq_true] at ho
    split at h
    · rename_i hu
      obtain ⟨rfl, -⟩ := updatePayment_ok h
      refine .closing _ ?_ hu rfl
      cases hs : s.payment.status <;> simp_all [isTerminalPaymentStatus]
    · rename_i hu
      exact .closed _ hc (closePayment_ok h rfl rfl ho.1 (by simpa using hu))

theorem trySweepOne_ok (h : trySweepOne s now = .ok t) :
    CoreStep cfg s t := by
  unfold trySweepOne at h
  split at h
  · cases h; exact .idle rfl
  · split at h
    · cases h; exact .idle rfl
    · rename_i ho
      have hs : s.payment.status = .created ∨ s.payment.status = .pending := by tauto
      split at h
      · rename_i hu
        obtain ⟨rfl, -⟩ := updatePayment_ok h
        exact .closing _ hs hu rfl
      · rename_i hu
        refine .closed _ ?_ (closePayment_ok h rfl rfl ?_ (by simpa using hu))
        · rcases hs with hs | hs <;> simp [hs]
        · rcases hs with hs | hs <;> rw [hs] <;> rfl

/-! ## One step -/

def StartsOk (s : Sys) : Prop :=
  ∀ c ∈ s.starts, ∃ a ∈ s.db.attempts, a.id = c.attemptId ∧ a.attemptNumber = c.attemptNumber

variable {s : Sys}

theorem commit_db {r : Except PaymentError Db} {P : Db → Prop} (h0 : P s.db) (h : ∀ t, r = .ok t → P t) :
    P (s.commit r).db := by
  unfold Sys.commit
  split
  · exact h _ rfl
  · exact h0

/-- A pending record of a late success belongs to a call that is under way. -/
inductive DbStep (cfg : PaymentConfig) (s : Sys) (t : Db) : Prop
  | decided (h : CoreStep cfg s.db t)
  | recorded (h : Recorded s.db t)
  | late (c : ApplyCall) (factId : Option Uuid) (f : LateFinding) (hc : c ∈ s.applies) (hst : c.stage = .late factId f)
      (h : recordLateSuccess s.db c.attemptId f c.webhookEventId factId = .ok t)
  | reconciled (factId : Uuid) (h : processFact s.db factId = .ok t)

theorem DbStep.same (cfg : PaymentConfig) (s : Sys) : DbStep cfg s s.db := .recorded (.same rfl)

theorem resume_ok (cfg : PaymentConfig) {c : ApplyCall} (hc : c ∈ s.applies) (now : Int) :
    DbStep cfg s (resume cfg s c now).db := by
  unfold resume
  split
  · split
    · exact .same cfg s
    · rename_i h
      exact .decided (applyStatus_ok h)
    · rename_i h
      split
      · exact .decided (applyStatus_ok h)
      · exact .decided (applyStatus_ok h)
  · rename_i hst
    split
    · exact .same cfg s
    · rename_i h
      exact .late c _ _ hc hst h
  · exact .same cfg s

theorem step_ok (hs : StartsOk s) (hids : (s.db.attempts.map (·.id)).Nodup) (a : Action) :
    DbStep cfg s (step cfg s a).db := by
  cases a with
  | start id provider now =>
    simp only [step]
    split
    · rename_i db a h
      obtain ⟨hst, hu, hn, ho, hid, hk, hf, ht, hi⟩ := startAttempt_ok h
      exact .decided (.started a hst hu hn ho hid hk hf ht hi)
    · exact .same cfg s
  | finishStart c r =>
    simp only [step]
    split
    · rename_i hc
      refine commit_db (s := { s with starts := s.starts.erase c }) (.same cfg s) fun t ht => ?_
      refine .decided (finishStart_ok (fun x hx hxid => ?_) ht)
      obtain ⟨y, hy, hyid, hyn⟩ := hs c hc
      rw [← hyn, List.inj_on_of_nodup_map hids hx hy (hxid.trans hyid.symm)]
    · exact .same cfg s
  | loseStart c => exact .same cfg s
  | observe id status event fresh =>
    simp only [step]
    split
    · rename_i h
      exact .recorded (observe_ok h)
    · exact .same cfg s
  | resume c now =>
    simp only [step]
    split
    · rename_i hc
      exact resume_ok cfg hc now
    · exact .same cfg s
  | lose c => exact .same cfg s
  | cancel => exact commit_db (.same cfg s) fun t ht => .decided (cancel_ok ht)
  | sweep now => exact commit_db (.same cfg s) fun t ht => .decided (trySweepOne_ok ht)
  | reconcile factId => exact commit_db (.same cfg s) fun t ht => .reconciled factId ht
  | otherPayment paymentId attempt amount currency txn event fresh =>
    simp only [step]
    split
    · exact .same cfg s
    · rename_i ho
      refine commit_db (.same cfg s) fun t ht => ?_
      obtain ⟨⟨u, factId⟩, hu, rfl⟩ := map_eq_ok.mp ht
      have hb : BoundHere s.db ⟨paymentId, attempt.id⟩ := by
        refine ⟨fun hp => absurd (.inl hp) ho, fun ha => absurd (.inr ?_) ho⟩
        simpa using ha
      exact .recorded (recordCaptureFact_ok hb hu)
  | keepUnmatched provider txn amount currency event fresh =>
    refine commit_db (.same cfg s) fun t ht => ?_
    obtain ⟨⟨u, factId⟩, hu, rfl⟩ := map_eq_ok.mp ht
    exact .recorded (recordUnmatchedFact_ok hu)

theorem DbStep.core (h : DbStep cfg s t) :
    CoreStep cfg s.db t ∨ SameCore s.db t := by
  cases h with
  | decided h => exact .inl h
  | recorded h => exact .inr h.core
  | late c factId f hc hst h => exact .inr (recordLateSuccess_core h)
  | reconciled factId h => exact .inr (recordQualifying_core h)

/-! ## The invariant -/

structure AttemptsInv (cfg : PaymentConfig) (as : List Attempt) : Prop where
  ids : (as.map (·.id)).Nodup
  numbers : as.map (·.attemptNumber) = List.range' 1 as.length
  /-- Only the newest attempt can still settle the payment. -/
  latest : ∀ a ∈ as, a.uncertain → a.attemptNumber = as.length
  bounded : as.length ≤ cfg.maxAttempts
  rows : ∀ a ∈ as, RowOk as a

structure RunInv (cfg : PaymentConfig) (db : Db) : Prop where
  attempts : AttemptsInv cfg db.attempts
  room : db.payment.status = .created → isPaymentUncertain db ∨ db.attempts.length < cfg.maxAttempts
  created : db.payment.status = .created → ∀ a ∈ db.attempts, a.isOpen = false
  pending : db.payment.status = .pending → ∃ a ∈ db.attempts, a.isOpen
  closing : db.payment.status = .closing → isPaymentUncertain db
  resolved : isTerminalPaymentStatus db.payment.status → isPaymentUncertain db = false
  settling : ∀ a ∈ db.attempts, a.status = .succeeded ↔ db.payment.succeededAttemptId = some a.id
  succeeded : db.payment.status = .succeeded ↔ ∃ a ∈ db.attempts, db.payment.succeededAttemptId = some a.id
  unsettled : db.payment.status ≠ .succeeded → db.payment.succeededAttemptId = none
  announced : db.announced = if isTerminalPaymentStatus db.payment.status then [db.payment.status] else []

theorem mem_replaceAttempt (h : x ∈ replaceAttempt as b) :
    (x = b ∧ ∃ y ∈ as, y.id = b.id) ∨ (x ∈ as ∧ x.id ≠ b.id) := by
  obtain ⟨y, hy, hx⟩ := List.mem_map.mp h
  split at hx
  · exact .inl ⟨hx.symm, y, hy, ‹_›⟩
  · exact .inr ⟨hx ▸ hy, hx ▸ ‹_›⟩

theorem replaced_mem (ha : a ∈ as) (hid : b.id = a.id) :
    b ∈ replaceAttempt as b := List.mem_map.mpr ⟨a, ha, by simp [hid]⟩

theorem map_replaceAttempt {β : Type} (f : Attempt → β)
    (h : ∀ x ∈ as, x.id = b.id → f b = f x) : (replaceAttempt as b).map f = as.map f := by
  unfold replaceAttempt
  rw [List.map_map]
  refine List.map_congr_left fun x hx => ?_
  by_cases hid : x.id = b.id
  · simp [hid, h x hx hid]
  · simp [hid]

theorem mem_uncertain : isPaymentUncertain db = true ↔ ∃ a ∈ db.attempts, a.uncertain := by
  simp [isPaymentUncertain]

theorem mem_resolved : isPaymentUncertain db = false ↔ ∀ a ∈ db.attempts, a.uncertain = false := by
  simp [isPaymentUncertain]

section
variable {cfg : PaymentConfig} {as : List Attempt}

section
variable (h : AttemptsInv cfg as)
include h

theorem AttemptsInv.same_id (ha : a ∈ as) (hb : b ∈ as) (hid : a.id = b.id) :
    a = b := List.inj_on_of_nodup_map h.ids ha hb hid

theorem AttemptsInv.one_uncertain (ha : a ∈ as) (hb : b ∈ as)
    (hua : a.uncertain) (hub : b.uncertain) : a = b := by
  have hn : (as.map (·.attemptNumber)).Nodup := by rw [h.numbers]; exact List.nodup_range'
  exact List.inj_on_of_nodup_map hn ha hb ((h.latest a ha hua).trans (h.latest b hb hub).symm)

theorem AttemptsInv.replace (ha : a ∈ as) (hid : b.id = a.id)
    (hn : b.attemptNumber = a.attemptNumber) (hk : RowOk as b) (hu : a.uncertain) :
    AttemptsInv cfg (replaceAttempt as b) := by
  have hl : (replaceAttempt as b).length = as.length := List.length_map ..
  constructor
  · rw [map_replaceAttempt _ fun x _ hx => hx.symm]
    exact h.ids
  · rw [map_replaceAttempt _ fun x hx hxid => ?_, hl]
    · exact h.numbers
    · rw [h.same_id hx ha (hxid.trans hid), hn]
  · intro x hx hux
    rw [hl]
    rcases mem_replaceAttempt hx with ⟨rfl, -⟩ | ⟨hx, -⟩
    · rw [hn]; exact h.latest a ha hu
    · exact h.latest x hx hux
  · rw [hl]; exact h.bounded
  · intro x hx
    rcases mem_replaceAttempt hx with ⟨rfl, -⟩ | ⟨hxo, hne⟩
    · refine ⟨hk.txn.imp_right fun ht y hy hyid => ?_, hk.unconfirmed, hk.confirmed⟩
      exact ht y ((mem_replaceAttempt hy).resolve_left fun hy => hyid (hy.1 ▸ rfl)).1 hyid
    · refine ⟨?_, (h.rows x hxo).unconfirmed, (h.rows x hxo).confirmed⟩
      by_cases hxt : x.providerTransactionId = none
      · exact .inl hxt
      · refine .inr fun y hy hyid hp ht => ?_
        rcases mem_replaceAttempt hy with ⟨rfl, -⟩ | ⟨hyo, -⟩
        · exact (hk.txn.resolve_left (ht ▸ hxt)) x hxo hne hp.symm ht.symm
        · exact ((h.rows x hxo).txn.resolve_left hxt) y hyo hyid hp ht

theorem AttemptsInv.rest_resolved (ha : a ∈ as) (hid : b.id = a.id)
    (hu : a.uncertain) (hx : x ∈ replaceAttempt as b) : x = b ∨ (x ∈ as ∧ x.uncertain = false) := by
  rcases mem_replaceAttempt hx with ⟨rfl, -⟩ | ⟨hx, hne⟩
  · exact .inl rfl
  · refine .inr ⟨hx, ?_⟩
    by_contra hux
    exact hne (h.one_uncertain hx ha (by simpa using hux) hu ▸ hid.symm)

theorem AttemptsInv.snoc (hid : ∀ x ∈ as, x.id ≠ a.id)
    (hn : a.attemptNumber = as.length + 1) (hk : RowOk as a) (hu : ∀ x ∈ as, x.uncertain = false)
    (hm : as.length < cfg.maxAttempts) :
    AttemptsInv cfg (as ++ [a]) := by
  constructor
  · rw [List.map_append, List.nodup_append]
    refine ⟨h.ids, List.nodup_singleton _, fun i hi j hj => ?_⟩
    obtain ⟨x, hx, rfl⟩ := List.mem_map.mp hi
    obtain rfl := List.mem_singleton.mp hj
    exact hid x hx
  · rw [List.map_append, h.numbers, List.length_append, List.length_singleton, List.range'_concat]
    simp [hn, Nat.add_comm]
  · intro x hx hux
    rw [List.length_append, List.length_singleton]
    rcases mem_append_row hx with hx | rfl
    · rw [hu x hx] at hux; cases hux
    · exact hn
  · rw [List.length_append, List.length_singleton]
    exact hm
  · intro x hx
    rcases mem_append_row hx with hxo | rfl
    · refine ⟨?_, (h.rows x hxo).unconfirmed, (h.rows x hxo).confirmed⟩
      by_cases hxt : x.providerTransactionId = none
      · exact .inl hxt
      · refine .inr fun y hy hyid hp ht => ?_
        rcases mem_append_row hy with hyo | rfl
        · exact ((h.rows x hxo).txn.resolve_left hxt) y hyo hyid hp ht
        · exact (hk.txn.resolve_left (ht ▸ hxt)) x hxo (hid x hxo) hp.symm ht.symm
    · refine ⟨hk.txn.imp_right fun ht y hy hyid => ?_, hk.unconfirmed, hk.confirmed⟩
      exact ht y ((List.mem_append.mp hy).resolve_right fun hy => hyid (List.mem_singleton.mp hy ▸ rfl)) hyid

end

end

section
variable {cfg : PaymentConfig} {s t : Db}

theorem RunInv.idle (h : RunInv cfg s) (hc : SameCore s t) : RunInv cfg t := by
  have hu : isPaymentUncertain t = isPaymentUncertain s := uncertain_congr hc.attempts
  obtain ⟨hp, ha, he⟩ := hc
  constructor
  all_goals simp only [hp, ha, he, hu]
  · exact h.attempts
  · exact h.room
  · exact h.created
  · exact h.pending
  · exact h.closing
  · exact h.resolved
  · exact h.settling
  · exact h.succeeded
  · exact h.unsettled
  · exact h.announced

theorem RunInv.not_terminal (h : RunInv cfg s) (ha : a ∈ s.attempts) (hu : a.uncertain) :
    isTerminalPaymentStatus s.payment.status = false := by
  by_contra hs
  have hr := mem_resolved.mp (h.resolved (by simpa using hs)) a ha
  rw [hu] at hr; cases hr

theorem RunInv.none_succeeded (h : RunInv cfg s) (hs : s.payment.status ≠ .succeeded) :
    s.payment.succeededAttemptId = none ∧ ∀ a ∈ s.attempts, a.status ≠ .succeeded := by
  have hn := h.unsettled hs
  refine ⟨hn, fun a ha hsu => ?_⟩
  have := (h.settling a ha).mp hsu
  rw [hn] at this; cases this

theorem RunInv.open (ha : AttemptsInv cfg t.attempts) (hno : ∀ a ∈ t.attempts, a.status ≠ .succeeded)
    (hsid : t.payment.succeededAttemptId = none) (hst : t.payment.status ≠ .succeeded)
    (hroom : t.payment.status = .created → isPaymentUncertain t ∨ t.attempts.length < cfg.maxAttempts)
    (hcreated : t.payment.status = .created → ∀ a ∈ t.attempts, a.isOpen = false)
    (hpending : t.payment.status = .pending → ∃ a ∈ t.attempts, a.isOpen)
    (hclosing : t.payment.status = .closing → isPaymentUncertain t)
    (hres : isTerminalPaymentStatus t.payment.status → isPaymentUncertain t = false)
    (hann : t.announced = if isTerminalPaymentStatus t.payment.status then [t.payment.status] else []) :
    RunInv cfg t := by
  refine ⟨ha, hroom, hcreated, hpending, hclosing, hres, fun a hm => ?_, ?_, fun _ => hsid, hann⟩
  · simp [hsid, hno a hm]
  · simp [hsid, hst]

theorem not_succeeded_of_open (h : isTerminalPaymentStatus status = false) :
    status ≠ .succeeded := by rintro rfl; cases h

theorem isTerminal_of_final (h : finalUnsuccessful status) : isTerminalPaymentStatus status := by
  cases status <;> simp_all [finalUnsuccessful, isTerminalPaymentStatus]

theorem RunInv.closed {status : PaymentStatus} (ha : AttemptsInv cfg s.attempts)
    (hno : s.payment.succeededAttemptId = none ∧ ∀ a ∈ s.attempts, a.status ≠ .succeeded)
    (hann : s.announced = []) (h : Closes s t status) : RunInv cfg t := by
  obtain ⟨hf, -, hu, hp, hat, he, -⟩ := h
  have ht := isTerminal_of_final hf
  refine .open (hat ▸ ha) (hat ▸ hno.2) (by rw [hp]; exact hno.1) ?_ ?_ ?_ ?_ ?_ (fun _ => hu) ?_
  all_goals simp only [hp]
  · rintro rfl; cases hf
  · rintro rfl; cases hf
  · rintro rfl; cases hf
  · rintro rfl; cases hf
  · rintro rfl; cases hf
  · rw [he, hann, ht]; rfl

theorem RunInv.announced_nil (h : RunInv cfg s) (hs : isTerminalPaymentStatus s.payment.status = false) :
    s.announced = [] := by rw [h.announced, hs]; rfl

theorem RunInv.after_failure (h : RunInv cfg s) (ha : a ∈ s.attempts) (hid : b.id = a.id)
    (hn : b.attemptNumber = a.attemptNumber) (hk : RowOk s.attempts b) (hu : a.uncertain) (hb : b.status = .failed ∨ b.status = .expired)
    (hf : AfterFailure cfg a.attemptNumber { s with attempts := replaceAttempt s.attempts b } t) : RunInv cfg t := by
  have hnt := h.not_terminal ha hu
  have hns := h.none_succeeded (not_succeeded_of_open hnt)
  have hA := h.attempts.replace ha hid hn hk hu
  have hl : (replaceAttempt s.attempts b).length = a.attemptNumber := by
    rw [h.attempts.latest a ha hu]; exact List.length_map ..
  have hrest : ∀ x ∈ replaceAttempt s.attempts b, x.isOpen = false ∧ x.status ≠ .succeeded := by
    intro x hx
    rcases h.attempts.rest_resolved ha hid hu hx with rfl | ⟨hx, hxu⟩
    · rcases hb with hb | hb <;> simp [Attempt.isOpen, hb]
    · refine ⟨?_, hns.2 x hx⟩
      by_contra ho
      rw [uncertain_of_open (by simpa using ho)] at hxu; cases hxu
  cases hf with
  | kept ht hs hcr hp =>
    subst ht
    refine .open hA (fun x hx => (hrest x hx).2) hns.1 (not_succeeded_of_open hnt) ?_
      (fun _ x hx => (hrest x hx).1) (fun hpending => absurd hpending hp) hs ?_ h.announced
    · exact fun hcreated => by rw [hl]; exact hcr hcreated
    · exact fun hterm => by rw [hnt] at hterm; cases hterm
  | reopened hp ht hroom =>
    subst ht
    refine .open hA (fun x hx => (hrest x hx).2) hns.1 (by simp) ?_ (fun _ x hx => (hrest x hx).1)
      (by simp) (by simp) ?_ ?_
    · exact fun _ => by rw [hl]; exact hroom
    · intro hc; cases hc
    · exact h.announced_nil hnt
  | closed status hc =>
    exact .closed (s := { s with attempts := replaceAttempt s.attempts b }) hA ⟨hns.1, fun x hx => (hrest x hx).2⟩ (h.announced_nil hnt) hc

theorem RunInv.after_success (h : RunInv cfg s) (ha : a ∈ s.attempts) (hid : b.id = a.id)
    (hn : b.attemptNumber = a.attemptNumber) (hk : RowOk s.attempts b) (hu : a.uncertain) (hb : b.status = .succeeded) :
    RunInv cfg { s with
      payment := { s.payment with
        status := .succeeded, settledMethod := some .gateway, succeededAttemptId := some a.id }
      attempts := replaceAttempt s.attempts b
      outbox := s.outbox ++ [.paymentSucceeded a.id] } := by
  have hnt := h.not_terminal ha hu
  have hns := h.none_succeeded (not_succeeded_of_open hnt)
  constructor
  · exact h.attempts.replace ha hid hn hk hu
  · intro hc; cases hc
  · intro hc; cases hc
  · intro hc; cases hc
  · intro hc; cases hc
  · refine fun _ => mem_resolved.mpr fun x hx => ?_
    rcases h.attempts.rest_resolved ha hid hu hx with rfl | ⟨-, hxu⟩
    · simp [Attempt.uncertain, Attempt.isOpen, hb]
    · exact hxu
  · intro x hx
    rcases mem_replaceAttempt hx with ⟨rfl, -⟩ | ⟨hx, hne⟩
    · simp [hb, hid]
    · simpa [hns.2 x hx, ← hid] using hne.symm
  · exact ⟨fun _ => ⟨b, replaced_mem ha hid, by rw [hid]⟩, fun _ => rfl⟩
  · intro hc; exact absurd rfl hc
  · have hnil := h.announced_nil hnt
    simp_all [Db.announced, PaymentEvent.announces, isTerminalPaymentStatus]

theorem CoreStep.keeps (hc : CoreStep cfg s t) (h : RunInv cfg s) : RunInv cfg t := by
  cases hc with
  | idle ht => exact ht ▸ h
  | started a hs hu hn ho hid hk _ ht =>
    subst ht
    have hr := mem_resolved.mp hu
    have hns := h.none_succeeded (by simp [hs])
    have hm := (h.room hs).resolve_left (by simp [hu])
    have hoa : a.isOpen := by simp [Attempt.isOpen, ho]
    refine .open (h.attempts.snoc hid hn hk hr hm) ?_ hns.1 (by simp) (by simp) (by simp) ?_ (by simp) ?_ ?_
    · intro x hx
      rcases mem_append_row hx with hx | rfl
      · exact hns.2 x hx
      · simp [ho]
    · exact fun _ => ⟨a, by simp, hoa⟩
    · intro hc; cases hc
    · exact h.announced_nil (by rw [hs]; rfl)
  | acknowledged a b ha hid hn hk hoa hob ht =>
    subst ht
    have hua := uncertain_of_open hoa
    have hnt := h.not_terminal ha hua
    have hns := h.none_succeeded (not_succeeded_of_open hnt)
    have hb := replaced_mem ha hid
    have hub : isPaymentUncertain { s with attempts := replaceAttempt s.attempts b } :=
      mem_uncertain.mpr ⟨b, hb, uncertain_of_open hob⟩
    refine .open (h.attempts.replace ha hid hn hk hua) ?_ hns.1 (not_succeeded_of_open hnt) (fun _ => .inl hub) ?_
      (fun _ => ⟨b, hb, hob⟩) (fun _ => hub) ?_ h.announced
    · intro x hx
      rcases mem_replaceAttempt hx with ⟨rfl, -⟩ | ⟨hx, -⟩
      · intro hs; simp [Attempt.isOpen, hs] at hob
      · exact hns.2 x hx
    · intro hs
      have := h.created hs a ha
      rw [hoa] at this; cases this
    · intro hs
      rw [hnt] at hs; cases hs
  | settled a b ha hid hn hk hu hb _ ht => exact ht ▸ h.after_success ha hid hn hk hu hb
  | failed a b ha hid hn hk hu hb hf => exact h.after_failure ha hid hn hk hu hb hf
  | closed status hs hc =>
    exact .closed h.attempts (h.none_succeeded (not_succeeded_of_open hc.open_)) (h.announced_nil hc.open_) hc
  | closing reason hs hu ht =>
    subst ht
    have hnt : isTerminalPaymentStatus s.payment.status = false := by
      rcases hs with hs | hs <;> rw [hs] <;> rfl
    have hns := h.none_succeeded (not_succeeded_of_open hnt)
    refine .open h.attempts hns.2 hns.1 (by simp) (by simp) (by simp) (by simp) (fun _ => hu) ?_ ?_
    · intro hc; cases hc
    · exact h.announced_nil hnt

/-! ## What a step leaves alone -/

/-- A terminal payment stays as it is, so does an attempt that is not uncertain, and a terminal event comes with
the transaction that makes the payment terminal. -/
structure StepEffect (s t : Db) : Prop where
  payment : isTerminalPaymentStatus s.payment.status → t.payment.status = s.payment.status
  attempt : ∀ a ∈ s.attempts, a.uncertain = false → a ∈ t.attempts
  announced : t.announced = s.announced ++
    if isTerminalPaymentStatus t.payment.status ∧ isTerminalPaymentStatus s.payment.status = false
    then [t.payment.status] else []

theorem RunInv.resolved_kept (h : RunInv cfg s) (ha : a ∈ s.attempts) (hid : b.id = a.id)
    (hu : a.uncertain) (hx : x ∈ s.attempts) (hxu : x.uncertain = false) : x ∈ replaceAttempt s.attempts b := by
  refine List.mem_map.mpr ⟨x, hx, if_neg fun hxid => ?_⟩
  rw [h.attempts.same_id hx ha (hxid.trans hid), hu] at hxu
  cases hxu

theorem StepEffect.of_closes {u : Db} (h : Closes u t status)
    (hp : u.payment = s.payment) (he : u.announced = s.announced)
    (ha : ∀ a ∈ s.attempts, a.uncertain = false → a ∈ u.attempts) : StepEffect s t := by
  obtain ⟨hf, ho, -, hpay, hat, hann, -⟩ := h
  rw [hp] at ho
  refine ⟨fun hs => ?_, fun a hm hu => hat ▸ ha a hm hu, ?_⟩
  · rw [ho] at hs; cases hs
  · rw [hann, he]
    simp [hpay, isTerminal_of_final hf, ho]

theorem StepEffect.of_same (h : SameCore s t) : StepEffect s t := by
  obtain ⟨hp, ha, he⟩ := h
  refine ⟨fun _ => by rw [hp], fun a hm _ => ha ▸ hm, ?_⟩
  rw [he, hp]
  cases isTerminalPaymentStatus s.payment.status <;> simp

theorem CoreStep.effect (hc : CoreStep cfg s t) (h : RunInv cfg s) : StepEffect s t := by
  cases hc with
  | idle ht => exact .of_same (ht ▸ .refl _)
  | started a hs hu hn ho hid _ _ ht =>
    subst ht
    refine ⟨fun hterm => ?_, fun x hx _ => List.mem_append_left _ hx, ?_⟩
    · rw [hs] at hterm; cases hterm
    · simp [Db.announced, isTerminalPaymentStatus]
  | acknowledged a b ha hid hn _ hoa hob ht =>
    subst ht
    refine ⟨fun _ => rfl, fun x hx hxu => h.resolved_kept ha hid (uncertain_of_open hoa) hx hxu, ?_⟩
    simp [Db.announced, h.not_terminal ha (uncertain_of_open hoa)]
  | settled a b ha hid hn _ hu hb hs ht =>
    subst ht
    refine ⟨fun hterm => ?_, fun x hx hxu => h.resolved_kept ha hid hu hx hxu, ?_⟩
    · rw [hs] at hterm; cases hterm
    · have hsu : isTerminalPaymentStatus .succeeded = true := rfl
      simp [Db.announced, PaymentEvent.announces, hs, hsu]
  | failed a b ha hid hn _ hu hb hf =>
    have hnt := h.not_terminal ha hu
    have hkeep : ∀ x ∈ s.attempts, x.uncertain = false → x ∈ replaceAttempt s.attempts b :=
      fun x hx hxu => h.resolved_kept ha hid hu hx hxu
    cases hf with
    | kept ht hs hcr hpn =>
      subst ht
      exact ⟨fun _ => rfl, hkeep, by simp [Db.announced, hnt]⟩
    | reopened hp ht hroom =>
      subst ht
      refine ⟨fun hterm => ?_, hkeep, by simp [Db.announced, isTerminalPaymentStatus]⟩
      rw [hnt] at hterm; cases hterm
    | closed status hc => exact .of_closes hc rfl rfl hkeep
  | closed status hs hc => exact .of_closes hc rfl rfl fun x hx _ => hx
  | closing reason hs hu ht =>
    subst ht
    refine ⟨fun hterm => ?_, fun x hx _ => hx, by simp [Db.announced, isTerminalPaymentStatus]⟩
    rcases hs with hs | hs <;> rw [hs] at hterm <;> cases hterm

theorem CoreStep.keeps_attempt (hc : CoreStep cfg s t) (hx : x ∈ s.attempts)
    (h : RunInv cfg s) : ∃ y ∈ t.attempts, y.id = x.id ∧ y.attemptNumber = x.attemptNumber := by
  have hr : ∀ a b : Attempt, a ∈ s.attempts → b.id = a.id → b.attemptNumber = a.attemptNumber →
      ∃ y ∈ replaceAttempt s.attempts b, y.id = x.id ∧ y.attemptNumber = x.attemptNumber := by
    intro a b ha hid hn
    refine ⟨if x.id = b.id then b else x, List.mem_map_of_mem hx, ?_⟩
    split
    · rename_i hxid
      obtain rfl := h.attempts.same_id hx ha (hxid.trans hid)
      exact ⟨hid, hn⟩
    · exact ⟨rfl, rfl⟩
  cases hc with
  | idle ht => exact ⟨x, ht ▸ hx, rfl, rfl⟩
  | started a _ _ _ _ _ _ _ ht => exact ⟨x, by rw [ht]; exact List.mem_append_left _ hx, rfl, rfl⟩
  | acknowledged a b ha hid hn _ _ _ ht => rw [ht]; exact hr a b ha hid hn
  | settled a b ha hid hn _ _ _ _ ht => rw [ht]; exact hr a b ha hid hn
  | failed a b ha hid hn _ _ _ hf =>
    cases hf with
    | kept ht _ _ _ => rw [ht]; exact hr a b ha hid hn
    | reopened _ ht _ => rw [ht]; exact hr a b ha hid hn
    | closed _ hc => rw [hc.attempts]; exact hr a b ha hid hn
  | closed _ _ hc => exact ⟨x, hc.attempts ▸ hx, rfl, rfl⟩
  | closing _ _ _ ht => exact ⟨x, by rw [ht]; exact hx, rfl, rfl⟩

end

/-! ## Runs -/

section
variable {cfg : PaymentConfig} {s : Sys}

structure SysInv (cfg : PaymentConfig) (s : Sys) : Prop where
  core : RunInv cfg s.db
  starts : StartsOk s

theorem initial_inv (h : Initial s) : SysInv cfg s := by
  obtain ⟨n, hn⟩ := h.created
  constructor
  · refine .open ?_ ?_ ?_ ?_ ?_ ?_ ?_ ?_ ?_ ?_
    · rw [h.attempts]
      exact ⟨List.nodup_nil, rfl, by simp, Nat.zero_le _, by simp⟩
    · simp [h.attempts]
    · rw [hn]; rfl
    · rw [hn]; simp [NewPayment.row]
    · intro _; rw [h.attempts]; exact .inr cfg.maxAttempts_pos
    · simp [h.attempts]
    · rw [hn]; intro hc; cases hc
    · rw [hn]; intro hc; cases hc
    · rw [hn]; intro hc; cases hc
    · rw [hn]; simp [Db.announced, h.outbox, NewPayment.row, isTerminalPaymentStatus]
  · intro c hc
    rw [h.starts] at hc; cases hc

theorem SysInv.db_step (h : SysInv cfg s) (a : Action) : DbStep cfg s (step cfg s a).db :=
  step_ok h.starts h.core.attempts.ids a

theorem resume_starts (cfg : PaymentConfig) (s : Sys) (c : ApplyCall) (now : Int) :
    (resume cfg s c now).starts = s.starts := by
  unfold resume
  split
  · split
    · rfl
    · rfl
    · split <;> rfl
  · split <;> rfl
  · rfl

theorem step_starts (cfg : PaymentConfig) (s : Sys) (a : Action) (hc : c ∈ (step cfg s a).starts) :
    c ∈ s.starts ∨ ∃ x ∈ (step cfg s a).db.attempts, x.id = c.attemptId ∧ x.attemptNumber = c.attemptNumber := by
  cases a with
  | start id provider now =>
    simp only [step] at hc ⊢
    split at hc
    · rename_i db x h
      obtain ⟨-, -, -, -, -, -, -, ht, -⟩ := startAttempt_ok h
      rcases List.mem_cons.mp hc with rfl | hc
      · exact .inr ⟨x, by simp [ht], rfl, rfl⟩
      · exact .inl hc
    · exact .inl hc
  | finishStart c' r =>
    simp only [step] at hc
    split at hc
    · unfold Sys.commit at hc
      split at hc <;> exact .inl (List.mem_of_mem_erase hc)
    · exact .inl hc
  | loseStart c' => exact .inl (List.mem_of_mem_erase hc)
  | observe id status event fresh =>
    simp only [step] at hc
    split at hc <;> exact .inl hc
  | resume c' now =>
    simp only [step] at hc
    split at hc
    · rw [resume_starts] at hc; exact .inl hc
    · exact .inl hc
  | lose c' => exact .inl hc
  | cancel =>
    simp only [step, Sys.commit] at hc
    split at hc <;> exact .inl hc
  | sweep now =>
    simp only [step, Sys.commit] at hc
    split at hc <;> exact .inl hc
  | reconcile factId =>
    simp only [step, Sys.commit] at hc
    split at hc <;> exact .inl hc
  | otherPayment paymentId attempt amount currency txn event fresh =>
    simp only [step, Sys.commit] at hc
    split at hc
    · exact .inl hc
    · split at hc <;> exact .inl hc
  | keepUnmatched provider txn amount currency event fresh =>
    simp only [step, Sys.commit] at hc
    split at hc <;> exact .inl hc

theorem SysInv.step (h : SysInv cfg s) (a : Action) : SysInv cfg (step cfg s a) := by
  have hc := (h.db_step a).core
  refine ⟨hc.elim (·.keeps h.core) h.core.idle, fun c hm => ?_⟩
  rcases step_starts cfg s a hm with hm | hm
  · obtain ⟨x, hx, hid, hn⟩ := h.starts c hm
    rcases hc with hc | hc
    · obtain ⟨y, hy, hyid, hyn⟩ := hc.keeps_attempt hx h.core
      exact ⟨y, hy, hyid.trans hid, hyn.trans hn⟩
    · exact ⟨x, hc.attempts ▸ hx, hid, hn⟩
  · exact hm

theorem SysInv.effect (h : SysInv cfg s) (a : Action) : StepEffect s.db (NawaraCore.Payments.step cfg s a).db :=
  (h.db_step a).core.elim (·.effect h.core) .of_same

theorem Runs.inv (h : Runs cfg s) : SysInv cfg s :=
  h.invariant (fun _ h0 => initial_inv h0) fun _ _ _ ih ⟨a, ha⟩ => ha ▸ ih.step a

theorem length_filter_le_one {α : Type} {p : α → Bool} {as : List α} (hn : as.Nodup)
    (h : ∀ a ∈ as, ∀ b ∈ as, p a → p b → a = b) : (as.filter p).length ≤ 1 := by
  match hf : as.filter p with
  | [] => exact Nat.zero_le _
  | [_] => exact Nat.le_refl _
  | a :: b :: rest =>
    have ha : a ∈ as.filter p := by rw [hf]; simp
    have hb : b ∈ as.filter p := by rw [hf]; simp
    rw [List.mem_filter] at ha hb
    have hd : (a :: b :: rest).Nodup := hf ▸ hn.filter _
    obtain rfl := h a ha.1 b hb.1 ha.2 hb.2
    simp at hd

structure PaymentInvariant (cfg : PaymentConfig) (db : Db) : Prop where
  one_uncertain : (db.attempts.filter Attempt.uncertain).length ≤ 1
  one_succeeded : (db.attempts.filter (·.status = .succeeded)).length ≤ 1
  settled : db.payment.status = .succeeded ↔
    ∃ a ∈ db.attempts, a.status = .succeeded ∧ db.payment.succeededAttemptId = some a.id
  closing : db.payment.status = .closing → ∃ a ∈ db.attempts, a.uncertain
  final : finalUnsuccessful db.payment.status → ∀ a ∈ db.attempts, a.uncertain = false
  bounded : db.attempts.length ≤ cfg.maxAttempts
  announced : db.announced = if isTerminalPaymentStatus db.payment.status then [db.payment.status] else []

theorem RunInv.holds (h : RunInv cfg db) : PaymentInvariant cfg db := by
  have hn : db.attempts.Nodup := h.attempts.ids.of_map _
  refine ⟨?_, ?_, ?_, fun hc => mem_uncertain.mp (h.closing hc), fun hf => ?_, h.attempts.bounded, h.announced⟩
  · exact length_filter_le_one hn fun a ha b hb => h.attempts.one_uncertain ha hb
  · refine length_filter_le_one hn fun a ha b hb hsa hsb => h.attempts.same_id ha hb ?_
    have ha' := (h.settling a ha).mp (by simpa using hsa)
    have hb' := (h.settling b hb).mp (by simpa using hsb)
    exact Option.some.inj (ha'.symm.trans hb')
  · rw [h.succeeded]
    exact ⟨fun ⟨a, ha, hs⟩ => ⟨a, ha, (h.settling a ha).mpr hs, hs⟩, fun ⟨a, ha, _, hs⟩ => ⟨a, ha, hs⟩⟩
  · exact mem_resolved.mp (h.resolved (isTerminal_of_final hf))

theorem payment_run_invariant (h : Runs cfg s) :
    PaymentInvariant cfg s.db ∧ ∀ a, StepEffect s.db (step cfg s a).db :=
  ⟨h.inv.core.holds, h.inv.effect⟩

end

def threeAttempts : PaymentConfig := ⟨3, by decide, fun _ => ⟨true, ["card_stolen"]⟩⟩

def tenEuros : NewPayment := ⟨1, 1000, "EUR", some 50, by decide, by decide, by decide⟩

def settledWhileClosing : List Action :=
  let paid : FetchStatusResult := .succeeded 1000 "EUR" (some "txn-1")
  [ .start 10 "test" 0, .finishStart ⟨10, 1, "test"⟩ (.accepted "txn-1"), .cancel,
    .observe 10 paid none 20, .resume ⟨10, paid, none, .deciding (some 20)⟩ 0 ]

theorem payment_run_invariant_closing :
    let s := run threeAttempts (.new tenEuros) settledWhileClosing
    s.db.payment.status = .succeeded ∧ s.db.payment.closingReason = some .cancel ∧ PaymentInvariant threeAttempts s.db :=
  ⟨by decide, by decide, (payment_run_invariant (Runs.run (.init (initial_new tenEuros)) settledWhileClosing)).1⟩

end NawaraCore.Payments
