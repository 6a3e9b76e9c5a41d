import NawaraCore.Payment.PaymentSound

/-!
# Late successes

When a capture fact that settled nothing gets its late success: at the finality of
an unsuccessful payment, from its own processing afterwards, or from a pass of the
capture reconciler; and what no fact ever gets.
-/

namespace NawaraCore.Payments

/-- A supported, uncontested fact of the payment that is the only one of its attempt. -/
structure Eligible (db : Db) (f : CaptureFact) (attemptId : Uuid) : Prop where
  kept : f ∈ db.facts
  binding : f.binding = some ⟨db.payment.id, attemptId⟩
  currency : isoCurrency (trim f.currency)
  uncontested : db.contested f.id = false
  sole : ∀ g ∈ db.facts, g.onAttempt attemptId → g.id = f.id

def Db.lateCount (db : Db) (factId : Uuid) : Nat := (db.lateSuccesses.map (·.factId)).count factId

structure SameEvidence (s t : Db) : Prop where
  payment : t.payment = s.payment
  attempts : t.attempts = s.attempts
  facts : t.facts = s.facts
  conflicts : t.conflicts = s.conflicts

theorem SameEvidence.refl (s : Db) : SameEvidence s s := ⟨rfl, rfl, rfl, rfl⟩

theorem SameEvidence.trans {s t u : Db} (h : SameEvidence s t) (k : SameEvidence t u) : SameEvidence s u :=
  ⟨k.payment.trans h.payment, k.attempts.trans h.attempts, k.facts.trans h.facts, k.conflicts.trans h.conflicts⟩

theorem SameEvidence.symm {s t : Db} (h : SameEvidence s t) : SameEvidence t s :=
  ⟨h.payment.symm, h.attempts.symm, h.facts.symm, h.conflicts.symm⟩

variable {f : CaptureFact} {id : Uuid} {l : LateSuccess} {factId : Option Uuid}

theorem Eligible.congr {s t : Db} (h : SameEvidence s t) (he : Eligible s f id) :
    Eligible t f id := by
  obtain ⟨hp, -, hf, hc⟩ := h
  obtain ⟨hk, hb, hi, hu, hs⟩ := he
  exact ⟨hf ▸ hk, hp ▸ hb, hi, by rw [Db.contested, hc]; exact hu, hf ▸ hs⟩

theorem onAttempt_iff : f.onAttempt id = true ↔ ∃ b, f.binding = some b ∧ b.attemptId = id := by
  unfold CaptureFact.onAttempt
  cases f.binding <;> simp

/-! ## The invariant of the evidence -/

/-- A late success belongs to a final payment, names its status and another attempt than the settling one, and has
the figures of its fact. -/
structure LateSound (db : Db) (l : LateSuccess) : Prop where
  final : isTerminalPaymentStatus db.payment.status
  status : l.paymentStatus = db.payment.status
  elsewhere : db.payment.succeededAttemptId ≠ some l.attemptId
  currency : isoCurrency l.currency
  fact : ∃ f ∈ db.facts, f.id = l.factId ∧ f.binding = some ⟨db.payment.id, l.attemptId⟩ ∧ f.amount = l.amount ∧
    trim f.currency = l.currency

structure Supported (p : Payment) : Prop where
  currency : isoCurrency p.currency
  positive : 1 ≤ p.amount
  safe : p.amount ≤ maxSafeInteger

theorem Supported.congr {p q : Payment} (h : Supported p) (hc : q.currency = p.currency) (ha : q.amount = p.amount) :
    Supported q := ⟨hc ▸ h.currency, ha ▸ h.positive, ha ▸ h.safe⟩

structure EvidenceInv (db : Db) : Prop where
  supported : Supported db.payment
  factIds : (db.facts.map (·.id)).Nodup
  identity : (db.facts.map fun f => (f.provider, f.providerTxnId)).Nodup
  conflicts : ∀ c ∈ db.conflicts, ∃ f ∈ db.facts, f.id = c.factId
  bound : ∀ f ∈ db.facts, ∀ b, f.binding = some b → BoundHere db b
  once : (db.lateSuccesses.map (·.factId)).Nodup
  sound : ∀ l ∈ db.lateSuccesses, LateSound db l

variable {currency : String}

section
variable {s t : Db} {g : CaptureFact}

theorem EvidenceInv.same_fact (h : EvidenceInv s) (hf : f ∈ s.facts) (hg : g ∈ s.facts)
    (hid : f.id = g.id) : f = g := List.inj_on_of_nodup_map h.factIds hf hg hid

theorem LateSound.congr (h : LateSound s l) (hp : t.payment = s.payment)
    (hf : ∀ f ∈ s.facts, f ∈ t.facts) : LateSound t l := by
  obtain ⟨h1, h2, h3, h4, f, hm, hfl⟩ := h
  rw [← hp] at h1 h2 h3 hfl
  exact ⟨h1, h2, h3, h4, f, hf f hm, hfl⟩

theorem EvidenceInv.none_before (h : EvidenceInv s) (hs : isTerminalPaymentStatus s.payment.status = false) :
    s.lateSuccesses = [] := by
  refine List.eq_nil_iff_forall_not_mem.mpr fun l hl => ?_
  have := (h.sound l hl).final
  rw [hs] at this; cases this

theorem EvidenceInv.count_le (h : EvidenceInv s) (id : Uuid) : s.lateCount id ≤ 1 :=
  List.nodup_iff_count_le_one.mp h.once id

theorem EvidenceInv.count_eq_one (h : EvidenceInv s) (hl : ∃ l ∈ s.lateSuccesses, l.factId = id) :
    s.lateCount id = 1 := by
  obtain ⟨l, hl, rfl⟩ := hl
  exact List.count_eq_one_of_mem h.once (List.mem_map_of_mem hl)

theorem EvidenceInv.own (h : EvidenceInv s) (he : Eligible s f id)
    (hl : l ∈ s.lateSuccesses) (ha : l.attemptId = id) : l.factId = f.id := by
  obtain ⟨g, hg, hid, hb, -⟩ := (h.sound l hl).fact
  rw [← hid]
  exact he.sole g hg (onAttempt_iff.mpr ⟨_, hb, ha⟩)

/-! ## Writing a late success -/

theorem insertLateSuccess_evidence (h : s.insertLateSuccess l = .ok t) :
    SameEvidence s t ∧ ∀ m ∈ s.lateSuccesses, m ∈ t.lateSuccesses := by
  obtain ⟨-, ⟨rfl, -⟩ | ⟨rfl, -⟩⟩ := insertLateSuccess_ok h
  · exact ⟨.refl _, fun m hm => hm⟩
  · exact ⟨⟨rfl, rfl, rfl, rfl⟩, fun m hm => List.mem_append_left _ hm⟩

theorem lateSuccessChecks_ok (h : ∀ c ∈ lateSuccessChecks s l, c.2 = true) :
    (∃ f ∈ s.facts, f.id = l.factId ∧ f.binding = some ⟨l.paymentId, l.attemptId⟩ ∧ f.amount = l.amount ∧
      trim f.currency = trim l.currency ∧ s.contested f.id = false) ∧
    isTerminalPaymentStatus s.payment.status ∧ l.paymentStatus = s.payment.status ∧
      ∀ g ∈ s.facts, g.onAttempt l.attemptId → g.id = l.factId := by
  simp only [lateSuccessChecks, List.forall_mem_cons, decide_eq_true_eq, List.any_eq_true, Bool.not_eq_true',
    List.any_eq_false, not_and, not_not] at h
  obtain ⟨⟨f, hf, hid, hb, ha, hc, hu⟩, ⟨ht, hs⟩, hg, -⟩ := h
  exact ⟨⟨f, hf, hid, hb, ha, hc, hu⟩, ht, hs, fun g hm ho => hg g hm ho⟩

theorem EvidenceInv.insert (h : EvidenceInv s) (hs : LateSound s l)
    (hins : s.insertLateSuccess l = .ok t) : EvidenceInv t := by
  obtain ⟨-, ⟨rfl, -⟩ | ⟨rfl, hc⟩⟩ := insertLateSuccess_ok hins
  · exact h
  · refine ⟨h.supported, h.factIds, h.identity, h.conflicts, h.bound, ?_, fun m hm => ?_⟩
    · rw [List.map_append, List.nodup_append]
      refine ⟨h.once, List.nodup_singleton _, fun i hi j hj hij => ?_⟩
      obtain ⟨m, hm, rfl⟩ := List.mem_map.mp hi
      obtain rfl := List.mem_singleton.mp hj
      exact hc m hm (by simp [LateSuccess.clashes, hij])
    · rcases mem_append_row hm with hm | rfl
      · exact (h.sound m hm).congr rfl fun f hf => hf
      · exact hs.congr rfl fun f hf => hf

theorem insertLateSuccess_succeeds (hf : Eligible s f l.attemptId)
    (hid : f.id = l.factId) (hp : l.paymentId = s.payment.id) (ha : f.amount = l.amount)
    (hc : trim f.currency = trim l.currency) (ht : isTerminalPaymentStatus s.payment.status)
    (hs : l.paymentStatus = s.payment.status) :
    ∃ t, s.insertLateSuccess l = .ok t := by
  have hadm : enforce (lateSuccessChecks s l) = .ok () := by
    rw [enforce_ok]
    simp only [lateSuccessChecks, List.forall_mem_cons, Bool.not_eq_true', decide_eq_true_eq, List.any_eq_true,
      List.any_eq_false, not_and, not_not]
    refine ⟨⟨f, hf.kept, hid, hp ▸ hf.binding, ha, hc, hf.uncontested⟩, ⟨ht, hs⟩, fun g hg ho => ?_, by simp⟩
    exact (hf.sole g hg ho).trans hid
  unfold Db.insertLateSuccess
  by_cases hcl : s.lateSuccesses.any l.clashes
  · exact ⟨s, bind_eq_ok.mpr ⟨(), hadm, if_pos hcl⟩⟩
  · exact ⟨_, bind_eq_ok.mpr ⟨(), hadm, if_neg hcl⟩⟩

theorem insertLateSuccess_sets (h : s.insertLateSuccess l = .ok t) :
    ∃ m ∈ t.lateSuccesses, m.factId = l.factId ∨ m.attemptId = l.attemptId := by
  obtain ⟨-, ⟨rfl, m, hm, hc⟩ | ⟨rfl, -⟩⟩ := insertLateSuccess_ok h
  · simp only [LateSuccess.clashes, decide_eq_true_eq] at hc
    exact ⟨m, hm, hc.elim (fun hc => .inr hc.1.symm) (fun hc => .inl hc.symm)⟩
  · exact ⟨l, List.mem_append_right _ (List.mem_singleton_self _), .inl rfl⟩

theorem recordFact_keeps (h : recordFact s f = .ok t)
    (hl : l ∈ s.lateSuccesses) : l ∈ t.lateSuccesses := by
  unfold recordFact at h
  split at h
  · cases h; exact hl
  · exact (insertLateSuccess_evidence h).2 l hl

theorem recordFact_sets {b : FactBinding} (hb : f.binding = some b) (h : recordFact s f = .ok t) :
    ∃ l ∈ t.lateSuccesses, l.factId = f.id ∨ l.attemptId = b.attemptId := by
  unfold recordFact at h
  rw [hb] at h
  exact insertLateSuccess_sets h

/-! ## Finality -/

theorem qualifies_iff (hf : f ∈ s.facts) :
    qualifies s f ↔ ∃ id, Eligible s f id ∧ ∀ l ∈ s.lateSuccesses, l.factId ≠ f.id := by
  unfold qualifies
  split
  · rename_i hb
    simp only [Bool.false_eq_true, false_iff, not_exists, not_and]
    intro id he
    rw [he.binding] at hb; cases hb
  · rename_i b hb
    simp only [decide_eq_true_eq, Bool.not_eq_true', List.any_eq_false, not_and, not_not]
    constructor
    · rintro ⟨hp, hi, hc, hl, hg⟩
      exact ⟨b.attemptId, ⟨hf, by rw [hb, ← hp], hi, hc, hg⟩, hl⟩
    · rintro ⟨id, ⟨-, hb', hi, hc, hg⟩, hl⟩
      obtain rfl := Option.some.inj (hb.symm.trans hb')
      exact ⟨rfl, hi, hc, hl, hg⟩

structure PassInv (s u : Db) : Prop where
  inv : EvidenceInv u
  same : SameEvidence s u
  kept : ∀ l ∈ s.lateSuccesses, l ∈ u.lateSuccesses
  added : ∀ l ∈ u.lateSuccesses, l ∈ s.lateSuccesses ∨ ∃ f id, Eligible s f id ∧ f.id = l.factId

theorem PassInv.refl (h : EvidenceInv s) : PassInv s s :=
  ⟨h, .refl s, fun _ hl => hl, fun _ hl => .inl hl⟩

section
variable (hfin : finalUnsuccessful s.payment.status) (hn : s.payment.succeededAttemptId = none)
include hfin hn

theorem PassInv.record {u v : Db} (he : Eligible s f id) (h : PassInv s u)
    (hr : recordFact u f = .ok v) : PassInv s v := by
  have heu := he.congr h.same
  unfold recordFact at hr
  rw [he.binding] at hr
  have hs : LateSound u
      { paymentId := u.payment.id, attemptId := id, webhookEventId := f.webhookEventId, amount := f.amount,
        currency := trim f.currency, paymentStatus := u.payment.status, factId := f.id } := by
    refine ⟨?_, rfl, ?_, he.currency, f, heu.kept, rfl, heu.binding, rfl, rfl⟩
    · rw [h.same.payment]; exact isTerminal_of_final hfin
    · rw [h.same.payment, hn]; simp
  obtain ⟨hsame, hkept⟩ := insertLateSuccess_evidence hr
  refine ⟨h.inv.insert hs hr, h.same.trans hsame, fun l hl => hkept l (h.kept l hl), fun l hl => ?_⟩
  obtain ⟨-, ⟨rfl, -⟩ | ⟨rfl, -⟩⟩ := insertLateSuccess_ok hr
  · exact h.added l hl
  · rcases mem_append_row hl with hl | rfl
    · exact h.added l hl
    · exact .inr ⟨f, id, he, rfl⟩

omit hn in
theorem PassInv.record_succeeds {u : Db} (he : Eligible s f id) (h : PassInv s u) :
    ∃ v, recordFact u f = .ok v := by
  have heu := he.congr h.same
  unfold recordFact
  rw [he.binding]
  refine insertLateSuccess_succeeds heu rfl rfl rfl (trim_iso he.currency).symm ?_ rfl
  rw [h.same.payment]; exact isTerminal_of_final hfin

theorem recordQualifying_inv {only : Option Uuid} (h : EvidenceInv s)
    (hr : recordQualifyingLateSuccesses s only = .ok t) :
    PassInv s t ∧ ∀ f id, Eligible s f id → (only = none ∨ only = some f.id) → t.lateCount f.id = 1 := by
  unfold recordQualifyingLateSuccesses at hr
  rw [if_neg (by simp [hfin])] at hr
  have helig : ∀ f ∈ s.facts.filter (fun f => qualifies s f ∧ (only = none ∨ only = some f.id)), ∃ id, Eligible s f id := by
    intro f hf
    simp only [List.mem_filter, decide_eq_true_eq] at hf
    obtain ⟨id, he, -⟩ := (qualifies_iff hf.1).mp hf.2.1
    exact ⟨id, he⟩
  have hP : PassInv s t := by
    refine foldlM_invariant (fun u f v hf hu huv => ?_) (.refl h) hr
    obtain ⟨id, he⟩ := helig f hf
    exact hu.record hfin hn he huv
  refine ⟨hP, fun f id he ho => hP.inv.count_eq_one ?_⟩
  by_cases hl : ∃ l ∈ s.lateSuccesses, l.factId = f.id
  · obtain ⟨l, hl, hid⟩ := hl
    exact ⟨l, hP.kept l hl, hid⟩
  · have hq : f ∈ s.facts.filter (fun f => qualifies s f ∧ (only = none ∨ only = some f.id)) := by
      simp only [List.mem_filter, decide_eq_true_eq]
      refine ⟨he.kept, (qualifies_iff he.kept).mpr ⟨id, he, fun l hm hid => hl ⟨l, hm, hid⟩⟩, ho⟩
    obtain ⟨l, hm, hor⟩ := foldlM_reaches
      (Q := fun g u => ∀ b, g.binding = some b → ∃ l ∈ u.lateSuccesses, l.factId = g.id ∨ l.attemptId = b.attemptId)
      (fun u g v _ huv b hb => recordFact_sets hb huv)
      (fun u g v x huv hx b hb => by
        obtain ⟨l, hm, hor⟩ := hx b hb
        exact ⟨l, recordFact_keeps huv hm, hor⟩) hr f hq _ he.binding
    exact ⟨l, hm, hor.elim (fun hid => hid) fun ha => hP.inv.own (he.congr hP.same) hm ha⟩

theorem recordQualifying_succeeds (only : Option Uuid) (h : EvidenceInv s) :
    ∃ t, recordQualifyingLateSuccesses s only = .ok t := by
  unfold recordQualifyingLateSuccesses
  rw [if_neg (by simp [hfin])]
  refine foldlM_succeeds (P := PassInv s) (fun u f hf hu => ?_) (.refl h)
  simp only [List.mem_filter, decide_eq_true_eq] at hf
  obtain ⟨id, he, -⟩ := (qualifies_iff hf.1).mp hf.2.1
  obtain ⟨v, hv⟩ := hu.record_succeeds hfin he
  exact ⟨v, hv, hu.record hfin hn he hv⟩

end

/-! ## What a step does to the evidence -/

/-- The invariant is kept, only eligible facts gain a late success, and all of them have one at an unsuccessful end. -/
structure StepEvidence (s t : Db) : Prop where
  inv : EvidenceInv t
  kept : ∀ l ∈ s.lateSuccesses, l ∈ t.lateSuccesses
  added : ∀ l ∈ t.lateSuccesses, l ∈ s.lateSuccesses ∨ ∃ f id, Eligible t f id ∧ f.id = l.factId
  complete : isTerminalPaymentStatus s.payment.status = false → finalUnsuccessful t.payment.status →
    ∀ f id, Eligible t f id → t.lateCount f.id = 1

theorem EvidenceInv.before (ids : List Uuid) (h : EvidenceInv s) (hs : isTerminalPaymentStatus s.payment.status = false)
    (hl : t.lateSuccesses = s.lateSuccesses) (hf : t.facts = s.facts) (hc : t.conflicts = s.conflicts)
    (hid : t.payment.id = s.payment.id) (hcur : t.payment.currency = s.payment.currency)
    (ham : t.payment.amount = s.payment.amount)
    (hids : t.attempts.map (·.id) = s.attempts.map (·.id) ++ ids)
    (hnew : ∀ f ∈ s.facts, ∀ id ∈ ids, f.onAttempt id = false) : EvidenceInv t := by
  have hnil := h.none_before hs
  refine ⟨h.supported.congr hcur ham, hf ▸ h.factIds, hf ▸ h.identity, by rw [hf, hc]; exact h.conflicts, ?_, ?_, ?_⟩
  · intro f hm b hb
    rw [hf] at hm
    have hbound : b.paymentId = s.payment.id ↔ b.attemptId ∈ s.attempts.map (·.id) := h.bound f hm b hb
    rw [BoundHere, hid, hids, List.mem_append, hbound]
    refine ⟨.inl, fun ho => ho.resolve_right fun hi => ?_⟩
    have := hnew f hm _ hi
    rw [onAttempt_iff.mpr ⟨b, hb, rfl⟩] at this
    cases this
  · rw [hl, hnil]; exact List.nodup_nil
  · rw [hl, hnil]; intro l hl; cases hl

theorem StepEvidence.quiet (ids : List Uuid) (h : EvidenceInv s) (hs : isTerminalPaymentStatus s.payment.status = false)
    (hl : t.lateSuccesses = s.lateSuccesses) (hf : t.facts = s.facts) (hc : t.conflicts = s.conflicts)
    (hid : t.payment.id = s.payment.id) (hcur : t.payment.currency = s.payment.currency)
    (ham : t.payment.amount = s.payment.amount)
    (hids : t.attempts.map (·.id) = s.attempts.map (·.id) ++ ids)
    (hnew : ∀ f ∈ s.facts, ∀ id ∈ ids, f.onAttempt id = false) (hfin : finalUnsuccessful t.payment.status = false) :
    StepEvidence s t := by
  refine ⟨h.before ids hs hl hf hc hid hcur ham hids hnew, fun l hm => hl ▸ hm, fun l hm => .inl (hl ▸ hm), fun _ ht => ?_⟩
  rw [hfin] at ht; cases ht

theorem StepEvidence.refl (h : EvidenceInv s) : StepEvidence s s := by
  refine ⟨h, fun l hl => hl, fun l hl => .inl hl, fun hs hf => ?_⟩
  rw [isTerminal_of_final hf] at hs; cases hs

variable {status : PaymentStatus}

theorem StepEvidence.closes {u : Db} (h : EvidenceInv s)
    (hn : s.payment.succeededAttemptId = none) (hp : u.payment = s.payment) (hf : u.facts = s.facts)
    (hc : u.conflicts = s.conflicts) (hl : u.lateSuccesses = s.lateSuccesses)
    (hids : u.attempts.map (·.id) = s.attempts.map (·.id)) (hcl : Closes u t status) : StepEvidence s t := by
  obtain ⟨hfin, ho, -, -, -, -, event, hr⟩ := hcl
  have hu : EvidenceInv { u with payment := { u.payment with status }, outbox := u.outbox ++ [event] } :=
    h.before [] (hp ▸ ho) hl hf hc (by rw [hp]) (by rw [hp]) (by rw [hp]) (by simp [hids]) (by simp)
  obtain ⟨hP, hcount⟩ := recordQualifying_inv hfin (by simpa [hp] using hn) hu hr
  refine ⟨hP.inv, fun l hm => hP.kept l (hl ▸ hm), fun l hm => ?_, fun _ _ f id he => ?_⟩
  · rcases hP.added l hm with hm | ⟨f, id, he, hid⟩
    · exact .inl (hl ▸ hm)
    · exact .inr ⟨f, id, he.congr hP.same, hid⟩
  · refine hcount f id (he.congr ?_) (.inl rfl)
    exact hP.same.symm

theorem not_final_of_open (h : isTerminalPaymentStatus status = false) :
    finalUnsuccessful status = false := by
  cases status <;> simp_all [finalUnsuccessful, isTerminalPaymentStatus]

section
variable {cfg : PaymentConfig}

theorem CoreStep.frozen (hc : CoreStep cfg s t) (h : RunInv cfg s) (hs : isTerminalPaymentStatus s.payment.status) :
    t = s := by
  cases hc with
  | idle ht => exact ht
  | started a hst => rw [hst] at hs; cases hs
  | acknowledged a b ha _ _ _ hoa =>
    rw [h.not_terminal ha (uncertain_of_open hoa)] at hs; cases hs
  | settled a b ha _ _ _ hu => rw [h.not_terminal ha hu] at hs; cases hs
  | failed a b ha _ _ _ hu => rw [h.not_terminal ha hu] at hs; cases hs
  | closed status _ hc => rw [hc.open_] at hs; cases hs
  | closing reason hst => rcases hst with hst | hst <;> rw [hst] at hs <;> cases hs

theorem map_id_replaceAttempt (as : List Attempt) (b : Attempt) :
    (replaceAttempt as b).map (·.id) = as.map (·.id) := map_replaceAttempt _ fun _ _ hx => hx.symm

theorem CoreStep.evidence (hc : CoreStep cfg s t) (hr : RunInv cfg s) (h : EvidenceInv s) : StepEvidence s t := by
  cases hc with
  | idle ht => subst ht; exact .refl h
  | started a hs hu hn ho hid _ hf ht =>
    subst ht
    refine .quiet [a.id] h (by rw [hs]; rfl) rfl rfl rfl rfl rfl rfl (by simp) ?_ rfl
    simpa using hf
  | acknowledged a b ha hid hn _ hoa hob ht =>
    subst ht
    have hnt := hr.not_terminal ha (uncertain_of_open hoa)
    exact .quiet [] h hnt rfl rfl rfl rfl rfl rfl (by simp [map_id_replaceAttempt]) (by simp)
      (not_final_of_open hnt)
  | settled a b ha hid hn _ hu hb hs ht =>
    subst ht
    exact .quiet [] h hs rfl rfl rfl rfl rfl rfl (by simp [map_id_replaceAttempt]) (by simp) rfl
  | failed a b ha hid hn _ hu hb hf =>
    have hnt := hr.not_terminal ha hu
    cases hf with
    | kept ht hs hcr hp =>
      subst ht
      exact .quiet [] h hnt rfl rfl rfl rfl rfl rfl (by simp [map_id_replaceAttempt]) (by simp)
        (not_final_of_open hnt)
    | reopened hp ht hroom =>
      subst ht
      exact .quiet [] h hnt rfl rfl rfl rfl rfl rfl (by simp [map_id_replaceAttempt]) (by simp) rfl
    | closed status hc =>
      exact .closes (u := { s with attempts := replaceAttempt s.attempts b }) h
        (hr.unsettled (not_succeeded_of_open hnt)) rfl rfl rfl rfl (map_id_replaceAttempt _ _) hc
  | closed status hs hc =>
    exact .closes h (hr.unsettled (not_succeeded_of_open hc.open_)) rfl rfl rfl rfl rfl hc
  | closing reason hs hu ht =>
    subst ht
    have hnt : isTerminalPaymentStatus s.payment.status = false := by
      rcases hs with hs | hs <;> rw [hs] <;> rfl
    exact .quiet [] h hnt rfl rfl rfl rfl rfl rfl (by simp) (by simp) rfl

end

theorem Recorded.evidence (hr : Recorded s t) (h : EvidenceInv s) : StepEvidence s t := by
  have hopen : ∀ {u : Db}, u.payment = s.payment → isTerminalPaymentStatus s.payment.status = false →
      finalUnsuccessful u.payment.status → ∀ f id, Eligible u f id → u.lateCount f.id = 1 := by
    intro u hp hs hf
    rw [hp, not_final_of_open hs] at hf; cases hf
  cases hr with
  | same ht => subst ht; exact .refl h
  | fact f hid hnew hb ht =>
    subst ht
    refine ⟨⟨h.supported, ?_, ?_, fun c hc => ?_, fun g hg b hgb => ?_, h.once, fun l hl => ?_⟩, fun l hl => hl, fun l hl => .inl hl, hopen rfl⟩
    · rw [List.map_append, List.nodup_append]
      refine ⟨h.factIds, List.nodup_singleton _, fun i hi j hj => ?_⟩
      obtain ⟨g, hg, rfl⟩ := List.mem_map.mp hi
      obtain rfl := List.mem_singleton.mp hj
      exact hid g hg
    · rw [List.map_append, List.nodup_append]
      refine ⟨h.identity, List.nodup_singleton _, fun i hi j hj hij => ?_⟩
      obtain ⟨g, hg, rfl⟩ := List.mem_map.mp hi
      obtain rfl := List.mem_singleton.mp hj
      exact hnew g hg (Prod.mk.inj hij)
    · obtain ⟨g, hg, hgid⟩ := h.conflicts c hc
      exact ⟨g, List.mem_append_left _ hg, hgid⟩
    · rcases mem_append_row hg with hg | rfl
      · exact h.bound g hg b hgb
      · exact hb b hgb
    · exact (h.sound l hl).congr rfl fun g hg => List.mem_append_left _ hg
  | conflict c hf ht =>
    subst ht
    refine ⟨⟨h.supported, h.factIds, h.identity, fun d hd => ?_, h.bound, h.once, fun l hl => ?_⟩, fun l hl => hl, fun l hl => .inl hl, hopen rfl⟩
    · rcases mem_append_row hd with hd | rfl
      · exact h.conflicts d hd
      · exact hf
    · exact (h.sound l hl).congr rfl fun g hg => hg

theorem StepEvidence.of_pass (hP : PassInv s t) : StepEvidence s t := by
  refine ⟨hP.inv, hP.kept, fun l hl => ?_, fun hs hf => ?_⟩
  · rcases hP.added l hl with hl | ⟨f, id, he, hid⟩
    · exact .inl hl
    · exact .inr ⟨f, id, he.congr hP.same, hid⟩
  · rw [hP.same.payment, not_final_of_open hs] at hf; cases hf

variable {cfg : PaymentConfig}

theorem processFact_pass (h : processFact s id = .ok t) (hr : RunInv cfg s)
    (hi : EvidenceInv s) : PassInv s t := by
  unfold processFact at h
  by_cases hf : finalUnsuccessful s.payment.status
  · refine (recordQualifying_inv hf (hr.unsettled ?_) hi h).1
    intro hs; rw [hs] at hf; cases hf
  · unfold recordQualifyingLateSuccesses at h
    rw [if_pos (by simpa using hf)] at h
    cases h
    exact .refl hi

/-! ## A late success after finality -/

structure LateCallOk (db : Db) (attemptId : Uuid) (factId : Option Uuid) (f : LateFinding) : Prop where
  final : isTerminalPaymentStatus db.payment.status
  elsewhere : db.payment.succeededAttemptId ≠ some attemptId
  currency : isoCurrency f.currency
  fact : ∃ g ∈ db.facts, factId = some g.id ∧ g.binding = some ⟨db.payment.id, attemptId⟩ ∧ g.amount = f.amount ∧
    trim g.currency = f.currency

theorem captureEvidence_verified {amount : Int}
    (h : (captureEvidence s id amount currency factId).verified) :
    ∃ g ∈ s.facts, factId = some g.id ∧ g.binding = some ⟨s.payment.id, id⟩ ∧ g.amount = amount ∧
      trim g.currency = currency ∧ s.contested g.id = false := by
  unfold captureEvidence at h
  dsimp only at h
  split at h
  · cases h
  · rename_i g hg
    have hp := List.find?_some hg
    simp only [decide_eq_true_eq, Bool.not_eq_true'] at hp h
    exact ⟨g, List.mem_of_find?_eq_some hg, hp.1, hp.2, h.2.1, h.2.2, h.1⟩

theorem applyStatus_finding {now : Int} {status : FetchStatusResult}
    {f : LateFinding} (h : applyStatus cfg s now id status factId = .ok (t, some f))
    (hf : f.conflict = .final) (hr : RunInv cfg s) (hi : EvidenceInv s) : LateCallOk t id factId f := by
  unfold applyStatus at h
  split at h
  · cases h
  · rename_i a ha
    obtain ⟨hm, rfl⟩ := findAttempt_some ha
    split at h
    · cases h
    · obtain ⟨u, -, h⟩ := map_eq_ok.mp h
      cases h
    · cases applySucceeded_ok h with
      | confirmed => cases hf
      | final hs hns he hc ht =>
        subst ht
        obtain ⟨g, hg, hid, hb, hga, hgc, -⟩ := captureEvidence_verified he
        refine ⟨hs, fun hset => hns ((hr.settling a hm).mpr hset), ?_, g, hg, hid, hb, hga, hgc⟩
        rcases hc with hc | hc
        · exact hc.2
        · exact hc.2 ▸ hi.supported.currency
    · obtain ⟨u, -, h⟩ := map_eq_ok.mp h
      cases h
    · obtain ⟨u, -, h⟩ := map_eq_ok.mp h
      cases h

theorem recordLateSuccess_pass {event : Option Uuid} {f : LateFinding}
    (hc : LateCallOk s id factId f) (hi : EvidenceInv s) (h : recordLateSuccess s id f event factId = .ok t) :
    PassInv s t := by
  unfold recordLateSuccess at h
  split at h
  · cases h; exact .refl hi
  · obtain ⟨g, hg, rfl, hb, ha, hcur⟩ := hc.fact
    have hs : LateSound s
        { paymentId := s.payment.id, attemptId := id, webhookEventId := event, amount := f.amount,
          currency := f.currency, paymentStatus := s.payment.status, factId := g.id } :=
      ⟨hc.final, rfl, hc.elsewhere, hc.currency, g, hg, rfl, hb, ha, hcur⟩
    obtain ⟨hsame, hkept⟩ := insertLateSuccess_evidence h
    refine ⟨hi.insert hs h, hsame, hkept, fun l hl => ?_⟩
    obtain ⟨hk, ⟨rfl, -⟩ | ⟨rfl, -⟩⟩ := insertLateSuccess_ok h
    · exact .inl hl
    · rcases mem_append_row hl with hl | rfl
      · exact .inl hl
      · obtain ⟨⟨k, -, hkid, -, -, -, hu⟩, -, -, hsole⟩ := lateSuccessChecks_ok hk
        have hgu : s.contested g.id = false := by
          rw [show g.id = k.id from hkid.symm]; exact hu
        exact .inr ⟨g, id, ⟨hg, hb, hcur ▸ hc.currency, hgu, hsole⟩, rfl⟩

theorem recordLateSuccess_complete (event : Option Uuid) {f : LateFinding}
    (hc : LateCallOk s id (some g.id) f) (hi : EvidenceInv s) (hg : Eligible s g id) :
    ∃ t, recordLateSuccess s id f event (some g.id) = .ok t ∧ t.lateCount g.id = 1 := by
  have hsib : s.facts.any (fun k => k.onAttempt id ∧ some g.id ≠ some k.id) = false := by
    rw [List.any_eq_false]
    intro k hk hko
    simp only [decide_eq_true_eq] at hko
    exact hko.2 (congrArg some (hg.sole k hk hko.1).symm)
  obtain ⟨k, hk, hid, hb, ha, hcur⟩ := hc.fact
  obtain rfl := hi.same_fact hg.kept hk (Option.some.inj hid)
  obtain ⟨t, ht⟩ := insertLateSuccess_succeeds (s := s) (f := g)
    (l := { paymentId := s.payment.id, attemptId := id, webhookEventId := event, amount := f.amount,
            currency := f.currency, paymentStatus := s.payment.status, factId := g.id })
    hg rfl rfl ha (by rw [hcur, trim_iso hc.currency]) hc.final rfl
  have h : recordLateSuccess s id f event (some g.id) = .ok t := by
    unfold recordLateSuccess
    rw [if_neg (by simpa using hsib)]
    exact ht
  have hP := recordLateSuccess_pass hc hi h
  refine ⟨t, h, hP.inv.count_eq_one ?_⟩
  obtain ⟨m, hm, hor⟩ := insertLateSuccess_sets ht
  exact ⟨m, hm, hor.elim (fun hid => hid) fun hma => hP.inv.own (hg.congr hP.same) hm hma⟩

end

/-! ## Runs -/

section
variable {cfg : PaymentConfig} {s : Sys} {t : Db}

structure LateInv (s : Sys) : Prop where
  evidence : EvidenceInv s.db
  calls : ∀ c ∈ s.applies, ∀ factId f, c.stage = .late factId f → LateCallOk s.db c.attemptId factId f

theorem DbStep.evidence (h : DbStep cfg s t) (hr : RunInv cfg s.db) (hi : LateInv s) : StepEvidence s.db t := by
  cases h with
  | decided h => exact h.evidence hr hi.evidence
  | recorded h => exact h.evidence hi.evidence
  | late c factId f hc hst h => exact .of_pass (recordLateSuccess_pass (hi.calls c hc factId f hst) hi.evidence h)
  | reconciled factId h => exact .of_pass (processFact_pass h hr hi.evidence)

theorem DbStep.after_final (h : DbStep cfg s t) (hr : RunInv cfg s.db) (hi : LateInv s)
    (hs : isTerminalPaymentStatus s.db.payment.status) :
    t.payment = s.db.payment ∧ ∀ f ∈ s.db.facts, f ∈ t.facts := by
  cases h with
  | decided h => rw [h.frozen hr hs]; exact ⟨rfl, fun f hf => hf⟩
  | recorded h =>
    cases h with
    | same ht => rw [ht]; exact ⟨rfl, fun f hf => hf⟩
    | fact f _ _ _ ht => rw [ht]; exact ⟨rfl, fun g hg => List.mem_append_left _ hg⟩
    | conflict c _ ht => rw [ht]; exact ⟨rfl, fun f hf => hf⟩
  | late c factId f hc hst h =>
    have hP := recordLateSuccess_pass (hi.calls c hc factId f hst) hi.evidence h
    exact ⟨hP.same.payment, fun g hg => hP.same.facts ▸ hg⟩
  | reconciled factId h =>
    have hP := processFact_pass h hr hi.evidence
    exact ⟨hP.same.payment, fun g hg => hP.same.facts ▸ hg⟩

theorem LateCallOk.step (h : DbStep cfg s t) (hr : RunInv cfg s.db) (hi : LateInv s) {id : Uuid}
    {factId : Option Uuid} {f : LateFinding} (hc : LateCallOk s.db id factId f) : LateCallOk t id factId f := by
  obtain ⟨hp, hf⟩ := h.after_final hr hi hc.final
  obtain ⟨h1, h2, h3, g, hg, h4⟩ := hc
  rw [← hp] at h1 h2 h4
  exact ⟨h1, h2, h3, g, hf g hg, h4⟩

variable {c d : ApplyCall}

theorem mem_proceed {stage : Stage} (h : d ∈ (s.proceed c stage).applies) :
    d = { c with stage } ∨ d ∈ s.applies := by
  rcases List.mem_cons.mp h with h | h
  · exact .inl h
  · exact .inr (List.mem_of_mem_erase h)

theorem resume_calls (hr : RunInv cfg s.db) (hi : LateInv s) {now : Int}
    (hd : d ∈ (resume cfg s c now).applies) {f : LateFinding} (hst : d.stage = .late factId f) :
    d ∈ s.applies ∨ LateCallOk (resume cfg s c now).db d.attemptId factId f := by
  unfold resume at hd ⊢
  split at hd
  · split at hd
    · rcases mem_proceed hd with rfl | hd
      · cases hst
      · exact .inl hd
    · rcases mem_proceed hd with rfl | hd
      · cases hst
      · exact .inl hd
    · rename_i hap
      split at hd
      · rename_i hf
        rcases mem_proceed hd with rfl | hd
        · cases hst
          right
          simp only [hf, if_true]
          exact applyStatus_finding hap hf hr hi.evidence
        · exact .inl hd
      · rcases mem_proceed hd with rfl | hd
        · cases hst
        · exact .inl hd
  · split at hd
    · rcases mem_proceed hd with rfl | hd
      · cases hst
      · exact .inl hd
    · rcases mem_proceed hd with rfl | hd
      · cases hst
      · exact .inl hd
  · exact .inl hd

theorem step_calls (hr : RunInv cfg s.db) (hi : LateInv s) (a : Action) {d : ApplyCall}
    (hd : d ∈ (step cfg s a).applies) {f : LateFinding} (hst : d.stage = .late factId f) :
    d ∈ s.applies ∨ LateCallOk (step cfg s a).db d.attemptId factId f := by
  cases a with
  | start id provider now =>
    simp only [step] at hd
    split at hd <;> exact .inl hd
  | finishStart c r =>
    simp only [step, Sys.commit] at hd
    split at hd
    · split at hd <;> exact .inl hd
    · exact .inl hd
  | loseStart c => exact .inl hd
  | observe id status event fresh =>
    simp only [step] at hd
    split at hd
    · rcases List.mem_cons.mp hd with rfl | hd
      · cases hst
      · exact .inl hd
    · rcases List.mem_cons.mp hd with rfl | hd
      · cases hst
      · exact .inl hd
  | resume c now =>
    simp only [step] at hd ⊢
    split at hd
    · rename_i hc
      rw [if_pos hc]
      exact resume_calls hr hi hd hst
    · exact .inl hd
  | lose c => exact .inl (List.mem_of_mem_erase hd)
  | cancel =>
    simp only [step, Sys.commit] at hd
    split at hd <;> exact .inl hd
  | sweep now =>
    simp only [step, Sys.commit] at hd
    split at hd <;> exact .inl hd
  | reconcile factId =>
    simp only [step, Sys.commit] at hd
    split at hd <;> exact .inl hd
  | otherPayment paymentId attempt amount currency txn event fresh =>
    simp only [step, Sys.commit] at hd
    split at hd
    · exact .inl hd
    · split at hd <;> exact .inl hd
  | keepUnmatched provider txn amount currency event fresh =>
    simp only [step, Sys.commit] at hd
    split at hd <;> exact .inl hd

theorem initial_late (h : Initial s) : LateInv s := by
  obtain ⟨n, hn⟩ := h.created
  constructor
  · refine ⟨by rw [hn]; exact ⟨n.currency_iso, n.amount_pos, n.amount_safe⟩, h.factIds, h.identity, h.conflicts, fun f hf b hb => ?_, ?_, ?_⟩
    · refine ⟨fun hp => absurd hp (h.facts f hf b hb), fun ha => ?_⟩
      rw [h.attempts] at ha; cases ha
    · rw [h.lateSuccesses]; exact List.nodup_nil
    · rw [h.lateSuccesses]; intro l hl; cases hl
  · rw [h.applies]; intro c hc; cases hc

theorem Runs.late (h : Runs cfg s) : LateInv s := by
  refine h.invariant (fun _ h0 => initial_late h0) fun u v hu ih ⟨a, ha⟩ => ?_
  subst ha
  have hr := (Runs.inv hu).core
  have hd := (Runs.inv hu).db_step a
  refine ⟨(hd.evidence hr ih).inv, fun c hc factId f hst => ?_⟩
  rcases step_calls hr ih a hc hst with hc | hok
  · exact (ih.calls c hc factId f hst).step hd hr ih
  · exact hok

variable {db : Db}

theorem findAttempt_of_fact (hi : EvidenceInv db) (hf : Eligible db f id) :
    ∃ a ∈ db.attempts, a.id = id ∧ db.findAttempt id = some a := by
  have hb : db.payment.id = db.payment.id ↔ id ∈ db.attempts.map (·.id) := hi.bound f hf.kept _ hf.binding
  obtain ⟨x, hx, hxid⟩ := List.mem_map.mp (hb.mp rfl)
  have hsome : (db.findAttempt id).isSome := by
    rw [Db.findAttempt, List.find?_isSome]
    exact ⟨x, hx, by simpa using hxid⟩
  obtain ⟨a, ha⟩ := Option.isSome_iff_exists.mp hsome
  obtain ⟨hm, haid⟩ := findAttempt_some ha
  exact ⟨a, hm, haid, ha⟩

theorem verified_of_eligible (hi : EvidenceInv db) (hf : Eligible db f id) :
    (captureEvidence db id f.amount (trim f.currency) (some f.id)).verified := by
  have hfind : db.facts.find? (fun g => some f.id = some g.id ∧ g.binding = some ⟨db.payment.id, id⟩) = some f := by
    have hsome : (db.facts.find? (fun g => some f.id = some g.id ∧ g.binding = some ⟨db.payment.id, id⟩)).isSome := by
      rw [List.find?_isSome]
      exact ⟨f, hf.kept, by simp [hf.binding]⟩
    obtain ⟨g, hg⟩ := Option.isSome_iff_exists.mp hsome
    have hp := List.find?_some hg
    simp only [decide_eq_true_eq] at hp
    rw [hg, hi.same_fact hf.kept (List.mem_of_find?_eq_some hg) (Option.some.inj hp.1)]
  unfold captureEvidence
  dsimp only
  rw [hfind]
  simp [hf.uncontested]

theorem applySucceeded_late {a : Attempt} {amount : Int}
    (hs : isTerminalPaymentStatus db.payment.status) (ha : a.status ≠ .succeeded)
    (hv : (captureEvidence db a.id amount currency factId).verified)
    (hc : finalUnsuccessful db.payment.status ∧ isoCurrency currency ∨
      db.payment.amount = amount ∧ db.payment.currency = currency) :
    applySucceeded db a amount currency factId =
      .ok (db, some ⟨amount, currency, db.payment.status, .final⟩) := by
  unfold applySucceeded
  dsimp only
  rw [if_neg ha]
  by_cases hm : db.payment.amount ≠ amount ∨ db.payment.currency ≠ currency
  · have hf := hc.resolve_right fun h => hm.elim (fun h' => h' h.1) fun h' => h' h.2
    rw [if_pos hm, if_pos (by simp [hf, hv])]
  · rw [if_neg hm, if_neg (by simp [hv]), if_pos hs]

structure LateSuccessRules (cfg : PaymentConfig) (s : Sys) : Prop where
  sound : ∀ l ∈ s.db.lateSuccesses, LateSound s.db l
  atMostOnce : ∀ factId, s.db.lateCount factId ≤ 1
  kept : ∀ a, ∀ l ∈ s.db.lateSuccesses, l ∈ (step cfg s a).db.lateSuccesses
  onlyEligible : ∀ a, ∀ l ∈ (step cfg s a).db.lateSuccesses, l ∈ s.db.lateSuccesses ∨
    ∃ f id, Eligible (step cfg s a).db f id ∧ f.id = l.factId
  /-- The transaction that ends the payment without success leaves no eligible fact out. -/
  atFinality : ∀ a, isTerminalPaymentStatus s.db.payment.status = false →
    finalUnsuccessful (step cfg s a).db.payment.status →
    ∀ f id, Eligible (step cfg s a).db f id → (step cfg s a).db.lateCount f.id = 1
  byReconciler : finalUnsuccessful s.db.payment.status → ∀ f id, Eligible s.db f id →
    (step cfg s (.reconcile f.id)).db.lateCount f.id = 1
  /-- Once the payment is final, the processing of an observation decides for a late success ... -/
  byDecision : isTerminalPaymentStatus s.db.payment.status → ∀ c ∈ s.applies, ∀ now f txn,
    c.stage = .deciding (some f.id) → c.status = .succeeded f.amount (trim f.currency) txn →
    Eligible s.db f c.attemptId → s.db.payment.succeededAttemptId ≠ some c.attemptId →
    (s.db.payment.status = .succeeded → f.amount = s.db.payment.amount ∧ trim f.currency = s.db.payment.currency) →
    ∃ finding, { c with stage := .late (some f.id) finding } ∈ (step cfg s (.resume c now)).applies
  byProcessing : ∀ c ∈ s.applies, ∀ now f finding, c.stage = .late (some f.id) finding →
    Eligible s.db f c.attemptId → (step cfg s (.resume c now)).db.lateCount f.id = 1

theorem late_success_rules (h : Runs cfg s) : LateSuccessRules cfg s := by
  have hr := h.inv.core
  have hi := h.late
  have hstep := fun a => (h.inv.db_step a).evidence hr hi
  refine ⟨hi.evidence.sound, hi.evidence.count_le, fun a => (hstep a).kept, fun a => (hstep a).added,
    fun a => (hstep a).complete, fun hf f id he => ?_, fun hs c hc now f txn hst hcs he hset hsu => ?_,
    fun c hc now f finding hst he => ?_⟩
  · have hn : s.db.payment.succeededAttemptId = none := by
      refine hr.unsettled fun hs => ?_
      rw [hs] at hf; cases hf
    obtain ⟨t, ht⟩ := recordQualifying_succeeds hf hn (some f.id) hi.evidence
    have hcount := (recordQualifying_inv hf hn hi.evidence ht).2 f id he (.inr rfl)
    simp only [step, processFact, ht, Sys.commit]
    exact hcount
  · obtain ⟨a, ha, haid, hfind⟩ := findAttempt_of_fact hi.evidence he
    have hns : a.status ≠ .succeeded := fun hsuc => hset (by rw [(hr.settling a ha).mp hsuc, haid])
    have hcond : finalUnsuccessful s.db.payment.status ∧ isoCurrency (trim f.currency) ∨
        s.db.payment.amount = f.amount ∧ s.db.payment.currency = trim f.currency := by
      by_cases hsu' : s.db.payment.status = .succeeded
      · exact .inr ⟨(hsu hsu').1.symm, (hsu hsu').2.symm⟩
      · refine .inl ⟨?_, he.currency⟩
        cases hp : s.db.payment.status <;> simp_all [finalUnsuccessful, isTerminalPaymentStatus]
    have hap : applyStatus cfg s.db now c.attemptId c.status (some f.id) =
        .ok (s.db, some ⟨f.amount, trim f.currency, s.db.payment.status, .final⟩) := by
      unfold applyStatus
      rw [hfind, hcs]
      exact applySucceeded_late hs hns (haid ▸ verified_of_eligible hi.evidence he) hcond
    refine ⟨⟨f.amount, trim f.currency, s.db.payment.status, .final⟩, ?_⟩
    simp only [step, if_pos hc, resume, hst, hap]
    exact List.mem_cons_self
  · have hok := hi.calls c hc _ _ hst
    obtain ⟨t, ht, hcount⟩ := recordLateSuccess_complete c.webhookEventId hok hi.evidence he
    simp only [step, if_pos hc, resume, hst, ht]
    exact hcount

end

def twoAttempts : List Action :=
  let failed : FetchStatusResult := .failed .retryable "declined"
  [ .start 10 "test" 0, .finishStart ⟨10, 1, "test"⟩ (.accepted "txn-1"),
    .observe 10 failed none 20, .resume ⟨10, failed, none, .deciding none⟩ 0,
    .start 11 "test" 0, .finishStart ⟨11, 2, "test"⟩ (.accepted "txn-2") ]

def firstCaptured : List Action :=
  let paid : FetchStatusResult := .succeeded 1000 "EUR" (some "txn-1")
  [ .observe 10 paid none 21, .resume ⟨10, paid, none, .deciding (some 21)⟩ 0,
    .resume ⟨10, paid, none, .late (some 21) ⟨1000, "EUR", .succeeded, .final⟩⟩ 0, .reconcile 21 ]

def secondCaptured : List Action :=
  let paid : FetchStatusResult := .succeeded 1000 "EUR" (some "txn-2")
  [ .observe 11 paid none 22, .resume ⟨11, paid, none, .deciding (some 22)⟩ 0 ]

def firstFact : CaptureFact := ⟨21, "test", "txn-1", some ⟨1, 10⟩, 1000, "EUR", none⟩

theorem late_success_depends_on_order :
    let before := run threeAttempts (.new tenEuros) (twoAttempts ++ firstCaptured ++ secondCaptured)
    let after := run threeAttempts (.new tenEuros) (twoAttempts ++ secondCaptured ++ firstCaptured)
    (Runs threeAttempts before ∧ before.db.payment.status = .succeeded ∧
      before.db.payment.succeededAttemptId = some 11 ∧ Eligible before.db firstFact 10 ∧ before.db.lateCount 21 = 0) ∧
    (Runs threeAttempts after ∧ after.db.payment.status = .succeeded ∧
      after.db.payment.succeededAttemptId = some 11 ∧ Eligible after.db firstFact 10 ∧ after.db.lateCount 21 = 1) := by
  refine ⟨⟨Runs.run (.init (initial_new _)) _, by decide, by decide, ?_, by decide⟩,
    Runs.run (.init (initial_new _)) _, by decide, by decide, ?_, by decide⟩
  · exact ⟨by decide, by decide, by decide, by decide, by decide⟩
  · exact ⟨by decide, by decide, by decide, by decide, by decide⟩

def cancelledAfterCapture : List Action :=
  let failed : FetchStatusResult := .failed .retryable "declined"
  twoAttempts ++ firstCaptured ++
    [.observe 11 failed none 23, .resume ⟨11, failed, none, .deciding none⟩ 0]

theorem late_success_rules_cancelled :
    let s := run threeAttempts (.new tenEuros) cancelledAfterCapture
    s.db.payment.status = .created ∧ s.db.lateCount 21 = 0 ∧
      (step threeAttempts s .cancel).db.lateCount 21 = 1 :=
  ⟨by decide, by decide, (late_success_rules (Runs.run (.init (initial_new _)) _)).atFinality .cancel (by decide)
    (by decide) firstFact 10 ⟨by decide, by decide, by decide, by decide, by decide⟩⟩

end NawaraCore.Payments
