import NawaraCore.Payment.SettlementSound

/-!
# Settlement evidence

A payment settles on the one capture fact of its attempt, equal to it and
uncontested. Facts and contradictions are only ever added, and a contradiction
is added once.
-/

namespace NawaraCore.Payments

/-- The attempt's only capture fact, uncontested and equal to the payment. -/
structure SettlingFact (db : Db) (f : CaptureFact) (attemptId : Uuid) : Prop where
  sole : db.facts.filter (·.onAttempt attemptId) = [f]
  binding : f.binding = some ⟨db.payment.id, attemptId⟩
  amount : f.amount = db.payment.amount
  currency : trim f.currency = db.payment.currency
  uncontested : db.contested f.id = false

/-! ## Facts and contradictions are kept -/

structure Kept (s t : Db) : Prop where
  facts : ∃ new, t.facts = s.facts ++ new
  conflicts : ∀ c ∈ s.conflicts, t.conflicts.count c = s.conflicts.count c

theorem Kept.of_same {s t : Db} (hf : t.facts = s.facts) (hc : t.conflicts = s.conflicts) : Kept s t :=
  ⟨⟨[], by simp [hf]⟩, fun c _ => by rw [hc]⟩

theorem Kept.trans {s t u : Db} (h : Kept s t) (k : Kept t u) : Kept s u := by
  obtain ⟨xs, hx⟩ := h.facts
  obtain ⟨ys, hy⟩ := k.facts
  refine ⟨⟨xs ++ ys, by rw [hy, hx, List.append_assoc]⟩, fun c hc => ?_⟩
  have hn : 0 < t.conflicts.count c := by
    rw [h.conflicts c hc]
    exact List.count_pos_iff.mpr hc
  rw [k.conflicts c (List.count_pos_iff.mp hn), h.conflicts c hc]

variable {factId : Option Uuid} {currency : String}
variable {f : CaptureFact} {event : Option Uuid} {status : PaymentStatus}

section
variable {s t : Db}

theorem recordFact_same (h : recordFact s f = .ok t) : SameEvidence s t := by
  unfold recordFact at h
  split at h
  · cases h; exact .refl _
  · exact (insertLateSuccess_evidence h).1

theorem recordQualifying_same {only : Option Uuid} (h : recordQualifyingLateSuccesses s only = .ok t) :
    SameEvidence s t := by
  unfold recordQualifyingLateSuccesses at h
  split at h
  · cases h; exact .refl _
  · exact foldlM_invariant (P := SameEvidence s) (fun b f c _ hb hf => hb.trans (recordFact_same hf)) (.refl _) h

theorem recordLateSuccess_same {id : Uuid} {f : LateFinding}
    (h : recordLateSuccess s id f event factId = .ok t) : SameEvidence s t := by
  unfold recordLateSuccess at h
  split at h
  · cases h; exact .refl _
  · split at h
    · cases h
    · exact (insertLateSuccess_evidence h).1

theorem Kept.of_evidence (h : SameEvidence s t) : Kept s t := .of_same h.facts h.conflicts

theorem Kept.of_closes (h : Closes s t status) : Kept s t := by
  obtain ⟨event, hr⟩ := h.recorded
  have hs := recordQualifying_same hr
  exact .of_same hs.facts hs.conflicts

theorem CoreStep.kept {cfg : PaymentConfig} (h : CoreStep cfg s t) : Kept s t := by
  cases h with
  | idle ht => exact .of_same (by rw [ht]) (by rw [ht])
  | started a _ _ _ _ _ _ _ ht => exact .of_same (by rw [ht]) (by rw [ht])
  | acknowledged a b _ _ _ _ _ _ ht => exact .of_same (by rw [ht]) (by rw [ht])
  | settled a b _ _ _ _ _ _ _ ht => exact .of_same (by rw [ht]) (by rw [ht])
  | failed a b _ _ _ _ _ _ hf =>
    cases hf with
    | kept ht => exact .of_same (by rw [ht]) (by rw [ht])
    | reopened _ ht => exact .of_same (by rw [ht]) (by rw [ht])
    | closed status hc =>
      obtain ⟨hf, hk⟩ := Kept.of_closes hc
      exact ⟨hf, hk⟩
  | closed status _ hc => exact .of_closes hc
  | closing reason _ _ ht => exact .of_same (by rw [ht]) (by rw [ht])

theorem Recorded.kept (h : Recorded s t) : Kept s t := by
  cases h with
  | same ht => exact .of_same (by rw [ht]) (by rw [ht])
  | fact f _ _ _ ht => exact ⟨⟨[f], by rw [ht]⟩, fun c _ => by rw [ht]⟩
  | conflict c _ ht hn =>
    refine ⟨⟨[], by rw [ht, List.append_nil]⟩, fun d hd => ?_⟩
    have hne : c ≠ d := fun hcd => hn (hcd ▸ hd)
    rw [ht, List.count_append, List.count_singleton, if_neg (by simpa using hne), Nat.add_zero]

end

variable {db : Db} {x : Attempt} {amount : Int} {txn : Option String}

section
variable {cfg : PaymentConfig} {s : Sys} {t : Db}

theorem DbStep.kept (h : DbStep cfg s t) : Kept s.db t := by
  cases h with
  | decided h => exact h.kept
  | recorded h => exact h.kept
  | late c factId f hc hst h => exact .of_evidence (recordLateSuccess_same h)
  | reconciled factId h => exact .of_evidence (recordQualifying_same h)

theorem Runs.kept (h : Runs cfg s) (as : List Action) : Kept s.db (Payments.run cfg s as).db := by
  induction as generalizing s with
  | nil => exact .of_same rfl rfl
  | cons a as ih => exact (h.inv.db_step a).kept.trans (ih (.step h ⟨a, rfl⟩))

/-! ## Settlement -/

theorem settlingFact_of_evidence (hi : EvidenceInv db) {id : Uuid}
    (h : captureEvidence db id db.payment.amount db.payment.currency factId = ⟨true, 1⟩) :
    ∃ f, factId = some f.id ∧ SettlingFact db f id := by
  obtain ⟨f, hf, hid, hb, ha, hc, hu⟩ := captureEvidence_verified (by rw [h])
  refine ⟨f, hid, ?_, hb, ha, hc, hu⟩
  have hown : ∀ g ∈ db.facts, g.onAttempt id = true ↔ g.binding = some ⟨db.payment.id, id⟩ := by
    intro g hg
    rw [onAttempt_iff]
    refine ⟨fun ⟨b, hgb, hbid⟩ => ?_, fun hgb => ⟨_, hgb, rfl⟩⟩
    -- every binding that names an attempt of the payment names the payment
    have hp : b.paymentId = db.payment.id := (hi.bound g hg b hgb).mpr (hbid ▸ (hi.bound f hf _ hb).mp rfl)
    rw [hgb, ← hp, ← hbid]
  have hlen : (db.facts.filter fun g => g.binding = some ⟨db.payment.id, id⟩).length = 1 := by
    unfold captureEvidence at h
    dsimp only at h
    split at h
    · cases h
    · exact (Evidence.mk.inj h).2
  have hfil : db.facts.filter (·.onAttempt id) = db.facts.filter fun g => g.binding = some ⟨db.payment.id, id⟩ := by
    apply List.filter_congr
    intro g hg
    rw [Bool.eq_iff_iff, hown g hg, decide_eq_true_eq]
  obtain ⟨g, hg⟩ := List.length_eq_one_iff.mp hlen
  have hm : f ∈ db.facts.filter fun g => g.binding = some ⟨db.payment.id, id⟩ := by simp [hf, hb]
  rw [hg, List.mem_singleton] at hm
  rw [hfil, hg, hm]

structure Settles (s t : Db) (a : Attempt) : Prop where
  attempt : a ∈ s.attempts
  open_ : isTerminalPaymentStatus s.payment.status = false
  payment : t.payment = { s.payment with
    status := .succeeded, settledMethod := some .gateway, succeededAttemptId := some a.id }
  facts : t.facts = s.facts
  conflicts : t.conflicts = s.conflicts

theorem Closes.not_succeeded {u v : Db} (h : Closes u v status) :
    v.payment.status ≠ .succeeded := by
  have hf := h.final
  rw [h.payment]
  rintro rfl
  cases hf

theorem CoreStep.settles {u v : Db} (h : CoreStep cfg u v) (hi : EvidenceInv u) (hv : v.payment.status = .succeeded)
    (hu : u.payment.status ≠ .succeeded) : ∃ a f, Settles u v a ∧ SettlingFact u f a.id := by
  cases h with
  | idle ht => rw [ht] at hv; exact absurd hv hu
  | started a _ _ _ _ _ _ _ ht => rw [ht] at hv; cases hv
  | acknowledged a b _ _ _ _ _ _ ht => rw [ht] at hv; exact absurd hv hu
  | settled a b ha _ _ _ _ _ hs ht he =>
    obtain ⟨factId, he⟩ := he
    obtain ⟨f, -, hf⟩ := settlingFact_of_evidence hi he
    refine ⟨a, f, ⟨ha, hs, ?_, ?_, ?_⟩, hf⟩ <;> rw [ht]
  | failed a b _ _ _ _ _ _ hf =>
    cases hf with
    | kept ht => rw [ht] at hv; exact absurd hv hu
    | reopened _ ht => rw [ht] at hv; cases hv
    | closed status hc => exact absurd hv hc.not_succeeded
  | closed status _ hc => exact absurd hv hc.not_succeeded
  | closing reason _ _ ht => rw [ht] at hv; cases hv

theorem Runs.settles (h : Runs cfg s) (a : Action) (ht : (Payments.step cfg s a).db.payment.status = .succeeded)
    (hs : s.db.payment.status ≠ .succeeded) :
    ∃ x f, Settles s.db (Payments.step cfg s a).db x ∧ SettlingFact s.db f x.id := by
  rcases (h.inv.db_step a).core with hc | hc
  · exact hc.settles h.late.evidence ht hs
  · rw [hc.payment] at ht
    exact absurd ht hs

def SettledOn (cfg : PaymentConfig) (s : Sys) : Prop :=
  ∃ before a as x f, Runs cfg before ∧ s = run cfg (step cfg before a) as ∧
    Settles before.db (step cfg before a).db x ∧ SettlingFact before.db f x.id ∧
    f ∈ s.db.facts ∧ s.db.payment = (step cfg before a).db.payment

theorem Runs.settledOn (h : Runs cfg s) (hs : s.db.payment.status = .succeeded) : SettledOn cfg s := by
  induction h with
  | init h0 =>
    obtain ⟨n, hn⟩ := h0.created
    rw [hn] at hs
    cases hs
  | step hu h ih =>
    rename_i u v
    obtain ⟨b, rfl⟩ := h
    have hinv := Runs.inv hu
    by_cases hprev : u.db.payment.status = .succeeded
    · obtain ⟨before, a, as, x, f, hb, hrun, hset, hfact, hf, hp⟩ := ih hprev
      obtain ⟨hpay, hkeep⟩ := (hinv.db_step b).after_final hinv.core (Runs.late hu) (by rw [hprev]; rfl)
      refine ⟨before, a, as ++ [b], x, f, hb, ?_, hset, hfact, hkeep f hf, hpay.trans hp⟩
      rw [run_append, ← hrun]
      rfl
    · obtain ⟨x, f, hset, hfact⟩ := Runs.settles hu b hs hprev
      refine ⟨u, b, [], x, f, hu, rfl, hset, hfact, ?_, rfl⟩
      have hm : f ∈ u.db.facts.filter (·.onAttempt x.id) := by rw [hfact.sole]; exact List.mem_singleton_self f
      rw [hset.facts]
      exact (List.mem_filter.mp hm).1

theorem applySucceeded_unsettled {u : Db}
    {f : Option LateFinding} (hi : EvidenceInv db) (hno : ∀ g, factId = some g.id → ¬ SettlingFact db g x.id)
    (h : applySucceeded db x amount currency factId = .ok (u, f)) : u = db := by
  cases applySucceeded_ok h with
  | already _ ht => exact ht
  | final _ _ _ _ ht => exact ht
  | confirmed _ _ ht => exact ht
  | settled b _ _ _ _ _ _ heq hv hone _ =>
    have he : captureEvidence db x.id db.payment.amount db.payment.currency factId = ⟨true, 1⟩ := by
      rw [heq.1, heq.2]
      exact congrArg₂ Evidence.mk hv hone
    obtain ⟨g, hg, hset⟩ := settlingFact_of_evidence hi he
    exact absurd hset (hno g hg)

theorem resume_unsettled (hi : EvidenceInv s.db) {c : ApplyCall} {now : Int}
    (hst : c.stage = .deciding factId)
    (hc : c.status = .succeeded amount currency txn)
    (hno : ∀ f, factId = some f.id → ¬ SettlingFact s.db f c.attemptId) : (resume cfg s c now).db = s.db := by
  have hap : ∀ u f, applyStatus cfg s.db now c.attemptId c.status factId = .ok (u, f) → u = s.db := by
    intro u f hu
    unfold applyStatus at hu
    rw [hc] at hu
    split at hu
    · cases hu
    · rename_i x hx
      obtain ⟨-, hid⟩ := findAttempt_some hx
      apply applySucceeded_unsettled hi _ hu
      rw [hid]
      exact hno
  unfold resume
  rw [hst]
  dsimp only
  split
  · rfl
  · rename_i u hu
    exact hap u _ hu
  · rename_i u f hu
    split
    · exact hap u _ hu
    · exact hap u _ hu

/-! ## Contradictions -/

/-- A reported capture of the fact's own provider transaction that is not the fact. -/
structure Contradicts (db : Db) (f : CaptureFact) (x : Attempt) (amount : Int) (currency : String)
    (txn : Option String) : Prop where
  attempt : x ∈ db.attempts
  fact : f ∈ db.facts
  provider : f.provider = x.provider
  transaction : txn.or x.providerTransactionId = some f.providerTxnId
  differs : ¬ (f.binding = some ⟨db.payment.id, x.id⟩ ∧ f.amount = amount ∧ f.currency = currency)

theorem recordCaptureFact_contradicts {u : Db}
    {fresh : Uuid} {r : Option Uuid} (hi : EvidenceInv db)
    (hd : Contradicts db f x amount currency txn)
    (h : recordCaptureFact db x db.payment.id amount currency txn event fresh = .ok (u, r)) :
    u = db ∨ u = db.insertConflict ⟨f.id, db.payment.id, x.id, amount, currency, event⟩ := by
  have hany : db.facts.any fun g => g.provider = x.provider ∧ g.providerTxnId = f.providerTxnId :=
    List.any_eq_true.mpr ⟨f, hd.fact, by simp [hd.provider]⟩
  unfold recordCaptureFact at h
  rw [hd.transaction] at h
  split at h
  · cases h; exact .inl rfl
  split at h
  · cases h; exact .inl rfl
  · cases h; exact .inl rfl
  rename_i t _ heq
  obtain rfl := Option.some.inj heq
  split at h
  · cases h; exact .inl rfl
  obtain ⟨⟨v, inserted⟩, hv, hr⟩ := bind_eq_ok.mp h
  obtain ⟨-, hins⟩ := insertFact_ok hv
  clear h
  cases inserted with
  | true => exact absurd ⟨hd.provider, rfl⟩ (hins.2 f hd.fact)
  | false =>
    obtain rfl : v = db := hins
    simp only [Bool.false_eq_true, if_false] at hr
    split at hr
    · cases hr; exact .inl rfl
    · rename_i g hg
      have hp := List.find?_some hg
      simp only [decide_eq_true_eq] at hp
      obtain rfl : g = f := List.inj_on_of_nodup_map hi.identity (List.mem_of_find?_eq_some hg) hd.fact
        (by rw [hp.1, hp.2, hd.provider])
      rw [if_neg hd.differs] at hr
      cases hr
      exact .inr rfl

theorem recordCaptureFact_records
    {fresh : Uuid} (hi : EvidenceInv db)
    (hd : Contradicts db f x amount currency txn) (hcur : classifyCurrencyEvidence currency = none)
    (ham : 1 ≤ amount ∧ amount ≤ maxSafeInteger) (hlen : 1 ≤ f.providerTxnId.length ∧ f.providerTxnId.length ≤ 256)
    (hfresh : ∀ g ∈ db.facts, g.id ≠ fresh) :
    recordCaptureFact db x db.payment.id amount currency txn event fresh =
      .ok (db.insertConflict ⟨f.id, db.payment.id, x.id, amount, currency, event⟩, some f.id) := by
  have hany : db.facts.any fun g => g.provider = x.provider ∧ g.providerTxnId = f.providerTxnId :=
    List.any_eq_true.mpr ⟨f, hd.fact, by simp [hd.provider]⟩
  have hins : db.insertFact ⟨fresh, x.provider, f.providerTxnId, some ⟨db.payment.id, x.id⟩, amount, currency, event⟩ =
      .ok (db, false) := by
    refine bind_eq_ok.mpr ⟨(), enforce_ok.mpr ?_, if_pos hany⟩
    simp only [List.forall_mem_cons, Bool.not_eq_true', List.any_eq_false, decide_eq_true_eq]
    exact ⟨fun g hg => hfresh g hg, hlen, by simp⟩
  have hfind : (db.facts.find? fun g => g.provider = x.provider ∧ g.providerTxnId = f.providerTxnId) = some f := by
    have hsome : (db.facts.find? fun g => g.provider = x.provider ∧ g.providerTxnId = f.providerTxnId).isSome := by
      rw [List.find?_isSome]; simpa using hany
    obtain ⟨g, hg⟩ := Option.isSome_iff_exists.mp hsome
    have hp := List.find?_some hg
    simp only [decide_eq_true_eq] at hp
    rw [hg, List.inj_on_of_nodup_map hi.identity (List.mem_of_find?_eq_some hg) hd.fact (by rw [hp.1, hp.2, hd.provider])]
  have hne : f.providerTxnId ≠ "" := by
    intro he
    rw [he] at hlen
    exact absurd hlen.1 (by decide)
  unfold recordCaptureFact
  rw [if_neg (by simp [hcur]), hd.transaction]
  split
  · rename_i hnone; cases hnone
  · rename_i hempty; exact absurd (Option.some.inj hempty) hne
  rename_i t _ heq
  obtain rfl := Option.some.inj heq
  rw [if_neg (by omega)]
  refine bind_eq_ok.mpr ⟨_, hins, ?_⟩
  dsimp only
  rw [hfind, if_neg (by simp)]
  exact if_neg hd.differs

/-! ## Runs -/

structure EvidenceRules (cfg : PaymentConfig) (s : Sys) : Prop where
  settled : s.db.payment.status = .succeeded → SettledOn cfg s
  onlyOnFact : ∀ a, (step cfg s a).db.payment.status = .succeeded → s.db.payment.status ≠ .succeeded →
    ∃ x f, Settles s.db (step cfg s a).db x ∧ SettlingFact s.db f x.id
  /-- ... and a provider success that lacks it changes nothing. -/
  noEvidence : ∀ c ∈ s.applies, ∀ now factId amount currency txn, c.stage = .deciding factId →
    c.status = .succeeded amount currency txn → (∀ f, factId = some f.id → ¬ SettlingFact s.db f c.attemptId) →
    (step cfg s (.resume c now)).db = s.db
  kept : ∀ as, Kept s.db (run cfg s as).db
  contradiction : ∀ f x amount currency txn event fresh, Contradicts s.db f x amount currency txn →
    (step cfg s (.observe x.id (.succeeded amount currency txn) event fresh)).db = s.db ∨
      (step cfg s (.observe x.id (.succeeded amount currency txn) event fresh)).db =
        s.db.insertConflict ⟨f.id, s.db.payment.id, x.id, amount, currency, event⟩
  recorded : ∀ f x amount currency txn event fresh, Contradicts s.db f x amount currency txn →
    classifyCurrencyEvidence currency = none → 1 ≤ amount ∧ amount ≤ maxSafeInteger →
    1 ≤ f.providerTxnId.length ∧ f.providerTxnId.length ≤ 256 → (∀ g ∈ s.db.facts, g.id ≠ fresh) →
    ⟨f.id, s.db.payment.id, x.id, amount, currency, event⟩ ∈
      (step cfg s (.observe x.id (.succeeded amount currency txn) event fresh)).db.conflicts

theorem insertConflict_mem (db : Db) (c : FactConflict) : c ∈ (db.insertConflict c).conflicts := by
  unfold Db.insertConflict
  split
  · assumption
  · exact List.mem_append_right _ (List.mem_singleton_self c)

theorem observe_capture (hr : RunInv cfg s.db) (hx : x ∈ s.db.attempts) (amount : Int)
    (currency : String) (txn : Option String) (event : Option Uuid) (fresh : Uuid) :
    observe s.db x.id (.succeeded amount currency txn) event fresh =
      recordCaptureFact s.db x s.db.payment.id amount currency txn event fresh := by
  simp only [observe, findAttempt_of_mem hr hx]

theorem settlement_evidence (h : Runs cfg s) : EvidenceRules cfg s := by
  have hi := h.late.evidence
  refine ⟨h.settledOn, h.settles, ?_, h.kept, ?_, ?_⟩
  · intro c hc now factId amount currency txn hst hcs hno
    simp only [step, if_pos hc]
    exact resume_unsettled hi hst hcs hno
  · intro f x amount currency txn event fresh hd
    simp only [step, observe_capture h.inv.core hd.attempt]
    split
    · rename_i hu
      exact recordCaptureFact_contradicts hi hd hu
    · exact .inl rfl
  · intro f x amount currency txn event fresh hd hcur ham hlen hfresh
    simp only [step, observe_capture h.inv.core hd.attempt, recordCaptureFact_records hi hd hcur ham hlen hfresh]
    exact insertConflict_mem _ _

end

def contradictedTwice : List Action :=
  let less : FetchStatusResult := .succeeded 999 "EUR" (some "txn-1")
  settledWhileClosing ++ [.observe 10 less (some 7) 21, .observe 10 less (some 7) 22]

theorem settlement_evidence_contradicted :
    let s := run threeAttempts (.new tenEuros) contradictedTwice
    s.db.payment.status = .succeeded ∧ s.db.facts.length = 1 ∧ s.db.conflicts = [⟨20, 1, 10, 999, "EUR", some 7⟩] ∧
      EvidenceRules threeAttempts s :=
  ⟨by decide, by decide, by decide, settlement_evidence (Runs.run (.init (initial_new tenEuros)) contradictedTwice)⟩

end NawaraCore.Payments
