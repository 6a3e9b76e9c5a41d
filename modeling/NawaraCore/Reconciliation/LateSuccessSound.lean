import NawaraCore.Reconciliation.Writes

/-!
# How a late success is classified

A late assisted settlement excludes the other effects whatever the interleaving. A recovery
payment and a refund-only case exclude each other as long as Payment's answers about the
capture agree, and a classification that decides leaves the late success of a Company with an
effect that stays.
-/

namespace NawaraCore.Reconciliation

open Subscriptions (Uuid)
open PaymentRequests (PaymentRequestStatus Failure)

def Db.effects (db : Db) (id : Uuid) : Nat :=
  (db.counted id).length + (db.settled id).length + (db.listed .late_success id).length

def Db.lateSale (db : Db) (id : Uuid) : Option (LateSuccess × Invoice) :=
  (db.lateSuccess? id).bind fun l => (db.saleOf l.paymentRequestId).map fun i => (l, i)

def equalRecovery (x : LateSuccess × Invoice) : Option Uuid := x.2.equalRecovery x.1.amount x.1.currency

variable {id : Uuid} {db : Db} {l : LateSuccess}

theorem lateSale_of {pr : PaymentRequest} {i : Invoice} (hl : db.lateSuccess? id = some l)
    (hpr : db.request? l.paymentRequestId = some pr) (hi : db.invoice? pr.invoiceId = some i) : db.lateSale id = some (l, i) := by
  simp [Db.lateSale, Db.saleOf, hl, hpr, hi]

variable {x : LateSuccess × Invoice} {db db' : Db}

theorem Kept.lateSale (h : Kept db db') (hx : db.lateSale id = some x) :
    db'.lateSale id = some x := by
  obtain ⟨l, hl, hx⟩ := Option.bind_eq_some_iff.mp hx
  obtain ⟨i, hi, rfl⟩ := Option.map_eq_some_iff.mp hx
  simp [Db.lateSale, h.recorded id l hl, h.sales _ i hi]

theorem equalRecovery_assisted {a : Uuid} (h : x.2.routing = some (.assisted_settlement a)) :
    NawaraCore.Reconciliation.equalRecovery x = none := by
  simp [NawaraCore.Reconciliation.equalRecovery, Invoice.equalRecovery, h]

/-! ## At most one of each -/

structure Exclusive (db : Db) : Prop where
  sold : ∀ id l, db.lateSuccess? id = some l → ∃ i, db.lateSale id = some (l, i)
  counted : ∀ id, db.counted id ≠ [] → ∃ x, db.lateSale id = some x ∧ equalRecovery x ≠ none
  settled : ∀ id, db.settled id ≠ [] → (∃ x a, db.lateSale id = some x ∧ x.2.routing = some (.assisted_settlement a)) ∧
    db.listed .late_success id = []
  listed : ∀ id, db.listed .late_success id ≠ [] → ∃ x, db.lateSale id = some x ∧ x.2.sellerType = .company
  countedOnce : ∀ id, (db.counted id).length ≤ 1
  settledOnce : ∀ id, (db.settled id).length ≤ 1
  listedOnce : ∀ id, (db.listed .late_success id).length ≤ 1

theorem Exclusive.settled_counted (h : Exclusive db) (hs : db.settled id ≠ []) : db.counted id = [] := by
  obtain ⟨⟨x, a, hx, ha⟩, -⟩ := h.settled id hs
  by_contra hc
  obtain ⟨y, hy, he⟩ := h.counted id hc
  rw [hx] at hy
  cases hy
  exact he (equalRecovery_assisted ha)

theorem Exclusive.unrecorded (h : Exclusive db) (hn : db.lateSuccess? id = none) :
    db.counted id = [] ∧ db.settled id = [] ∧ db.listed .late_success id = [] := by
  have hx : db.lateSale id = none := by simp [Db.lateSale, hn]
  refine ⟨by_contra fun hc => ?_, by_contra fun hc => ?_, by_contra fun hc => ?_⟩
  · obtain ⟨x, hs, -⟩ := h.counted id hc
    rw [hx] at hs
    cases hs
  · obtain ⟨⟨x, a, hs, -⟩, -⟩ := h.settled id hc
    rw [hx] at hs
    cases hs
  · obtain ⟨x, hs, -⟩ := h.listed id hc
    rw [hx] at hs
    cases hs

theorem Exclusive.one (h : Exclusive db) (hc : db.counted id = [] ∨ db.listed .late_success id = []) :
    db.effects id ≤ 1 := by
  have h₁ := h.countedOnce id
  have h₂ := h.settledOnce id
  have h₃ := h.listedOnce id
  unfold Db.effects
  by_cases hs : db.settled id = []
  · rcases hc with hc | hc <;> rw [hs, hc] <;> simpa
  · rw [h.settled_counted hs, (h.settled id hs).2]
    simpa

theorem Exclusive.quiet (h : Exclusive db) (hq : Quiet db db') : Exclusive db' := by
  refine ⟨fun id l hl => ?_, fun id hc => ?_, fun id hc => ?_, fun id hc => ?_, fun id => ?_, fun id => ?_, fun id => ?_⟩
  · have hl' : db.lateSuccess? id = some l := by simpa [Db.lateSuccess?, hq.lateSuccesses] using hl
    obtain ⟨i, hi⟩ := h.sold id l hl'
    exact ⟨i, hq.toKept.lateSale hi⟩
  · rw [hq.counted] at hc
    obtain ⟨x, hx, he⟩ := h.counted id hc
    exact ⟨x, hq.toKept.lateSale hx, he⟩
  · rw [hq.settled] at hc
    obtain ⟨⟨x, a, hx, ha⟩, hl⟩ := h.settled id hc
    exact ⟨⟨x, a, hq.toKept.lateSale hx, ha⟩, by rw [hq.listed]; exact hl⟩
  · rw [hq.listed] at hc
    obtain ⟨x, hx, he⟩ := h.listed id hc
    exact ⟨x, hq.toKept.lateSale hx, he⟩
  · rw [hq.counted]
    exact h.countedOnce id
  · rw [hq.settled]
    exact h.settledOnce id
  · rw [hq.listed]
    exact h.listedOnce id

/-- What a step does to the effects: the sale and the effects of every late success stay. -/
structure Grows (db db' : Db) : Prop extends Kept db db' where
  effects : ∀ id, db.effects id ≤ db'.effects id

theorem Quiet.grows (h : Quiet db db') : Grows db db' :=
  ⟨h.toKept, fun id => by rw [Db.effects, Db.effects, h.counted, h.settled, h.listed]⟩

theorem Grows.refl (db : Db) : Grows db db := ⟨.refl db, fun _ => le_rfl⟩

section
variable {db db' : Db} {l : LateSuccess} {pr : PaymentRequest} {i : Invoice} {evidence : Option RecoveryCaptureEvidence} {o : ClassifyOutcome}

def Db.decided (db : Db) (id : Uuid) : Prop := 1 ≤ db.effects id ∨ ∃ x, db.lateSale id = some x ∧ x.2.sellerType ≠ .company

theorem Grows.decided (h : Grows db db') (hd : db.decided id) : db'.decided id :=
  hd.imp (fun he => he.trans (h.effects id)) fun ⟨x, hx, hs⟩ => ⟨x, h.toKept.lateSale hx, hs⟩

theorem classified_decided (h : db.classified id = true) : db.decided id := by
  have hc : db.counted id ≠ [] ∨ db.settled id ≠ [] := of_decide_eq_true h
  refine .inl ?_
  unfold Db.effects
  rcases hc with hc | hc
  · have := List.length_pos_iff.mpr hc
    omega
  · have := List.length_pos_iff.mpr hc
    omega

variable {s : LateSettlement} {cs : List ReconciliationCase}

theorem settled_cases (id : Uuid)
    (hcs : ∀ c ∈ cs, c.caseType = .late_assisted_settlement) :
    ({ db with lateSettlements := db.lateSettlements ++ [s], cases := db.cases ++ cs } : Db).settled id =
      db.settled id ++ (if s.evidence = .lateSuccess id then [s] else []) ∧
    ({ db with lateSettlements := db.lateSettlements ++ [s], cases := db.cases ++ cs } : Db).listed .late_success id =
      db.listed .late_success id := by
  refine ⟨settled_append id, ?_⟩
  have hnil : cs.filter (fun c => c.caseType = .late_success ∧ c.evidenceKey = id) = [] :=
    List.filter_eq_nil_iff.mpr fun c hc he => by
      have := hcs c hc
      have he := (of_decide_eq_true he).1
      rw [this] at he
      cases he
  simp only [Db.listed, List.filter_append, hnil, List.append_nil]

theorem opened_type
    (h : cs = [] ∨ ∃ row, cs = [row] ∧ row.caseType = .late_assisted_settlement ∧ row.evidenceKey = s.id ∧
      row.paymentId = some l.paymentId ∧ row.captureFactId = l.factId ∧ (∀ x ∈ db.cases, x.id ≠ row.id) ∧
      db.listed .late_assisted_settlement s.id = []) : ∀ c ∈ cs, c.caseType = .late_assisted_settlement := by
  rcases h with rfl | ⟨row, rfl, ht, -⟩
  · intro c hc
    cases hc
  · intro c hc
    rw [List.mem_singleton.mp hc]
    exact ht

theorem Classifies.exclusive (h : Classifies db l pr i evidence db' o) (he : Exclusive db) (hid : l.lateSuccessId = id)
    (hx : db.lateSale id = some (l, i)) : Exclusive db' ∧ Grows db db' ∧ (o ≠ .deferred → db'.decided id) := by
  subst hid
  cases h with
  | waits => exact ⟨he, .refl db, fun h => absurd rfl h⟩
  | already hl =>
    refine ⟨he, .refl db, fun _ => .inl ?_⟩
    have := List.length_pos_iff.mpr hl
    unfold Db.effects
    omega
  | unseen hs => exact ⟨he, .refl db, fun _ => .inr ⟨_, hx, hs⟩⟩
  | counts ledger pay o equal verified uncounted unsettled pays payments outcome =>
    have hk : Kept db (db.withLedger ledger) := .of_eq rfl rfl rfl
    have hc : ∀ id, (db.withLedger ledger).counted id = db.counted id ++ if l.lateSuccessId = id then [pay] else [] := by
      intro id
      rw [counted_append payments, pays]
      simp
    refine ⟨⟨fun id x hl => ?_, fun id hn => ?_, fun id hn => ?_, fun id hn => ?_, fun id => ?_, he.settledOnce, he.listedOnce⟩,
      ⟨hk, fun id => ?_⟩, fun _ => .inl ?_⟩
    · obtain ⟨y, hy⟩ := he.sold id x hl
      exact ⟨y, hk.lateSale hy⟩
    · rw [hc] at hn
      by_cases hid : l.lateSuccessId = id
      · subst hid
        exact ⟨_, hk.lateSale hx, equal⟩
      · rw [if_neg hid, List.append_nil] at hn
        obtain ⟨x, hx, hr⟩ := he.counted id hn
        exact ⟨x, hk.lateSale hx, hr⟩
    · obtain ⟨⟨x, a, hx, ha⟩, hl⟩ := he.settled id hn
      exact ⟨⟨x, a, hk.lateSale hx, ha⟩, hl⟩
    · obtain ⟨x, hx, hs⟩ := he.listed id hn
      exact ⟨x, hk.lateSale hx, hs⟩
    · rw [hc]
      by_cases hid : l.lateSuccessId = id
      · subst hid
        rw [uncounted, if_pos rfl]
        simp
      · rw [if_neg hid, List.append_nil]
        exact he.countedOnce id
    · unfold Db.effects
      rw [hc, List.length_append]
      exact Nat.add_le_add_right (Nat.add_le_add_right (Nat.le_add_right _ _) _) _
    · unfold Db.effects
      rw [hc, if_pos rfl]
      simp
      omega
  | settles s a cs purpose settles request invoice fact fresh uncounted unlisted rows =>
    have hk : Kept db { db with lateSettlements := db.lateSettlements ++ [s], cases := db.cases ++ cs } := .of_eq rfl rfl rfl
    have hsc := fun id => @settled_cases db s _ id (opened_type rows)
    simp only [settles, Recovery.Evidence.lateSuccess.injEq] at hsc
    have hnot : db.settled l.lateSuccessId = [] := by
      refine List.filter_eq_nil_iff.mpr fun x hm hev => ?_
      exact (fresh x hm).2.2 ((of_decide_eq_true hev).trans settles.symm)
    refine ⟨⟨fun id x hl => ?_, fun id hn => ?_, fun id hn => ?_, fun id hn => ?_, he.countedOnce, fun id => ?_, fun id => ?_⟩,
      ⟨hk, fun id => ?_⟩, fun _ => .inl ?_⟩
    · obtain ⟨y, hy⟩ := he.sold id x hl
      exact ⟨y, hk.lateSale hy⟩
    · obtain ⟨x, hx, hr⟩ := he.counted id hn
      exact ⟨x, hk.lateSale hx, hr⟩
    · rw [(hsc id).1] at hn
      rw [(hsc id).2]
      by_cases hid : l.lateSuccessId = id
      · subst hid
        exact ⟨⟨_, a, hk.lateSale hx, purpose⟩, unlisted⟩
      · rw [if_neg hid, List.append_nil] at hn
        obtain ⟨⟨x, b, hx, hb⟩, hl⟩ := he.settled id hn
        exact ⟨⟨x, b, hk.lateSale hx, hb⟩, hl⟩
    · rw [(hsc id).2] at hn
      obtain ⟨x, hx, hs⟩ := he.listed id hn
      exact ⟨x, hk.lateSale hx, hs⟩
    · rw [(hsc id).1]
      by_cases hid : l.lateSuccessId = id
      · subst hid
        rw [hnot, if_pos rfl]
        simp
      · rw [if_neg hid, List.append_nil]
        exact he.settledOnce id
    · rw [(hsc id).2]
      exact he.listedOnce id
    · unfold Db.effects
      rw [(hsc id).1, (hsc id).2, List.length_append]
      exact Nat.add_le_add_right (Nat.add_le_add_left (Nat.le_add_right _ _) _) _
    · unfold Db.effects
      rw [(hsc _).1, if_pos rfl]
      simp
      omega
  | opens row uncounts company caseType key capture payment fresh unlisted unsettled =>
    have hk : Kept db { db with cases := db.cases ++ [row] } := .of_eq rfl rfl rfl
    have hlist : ∀ id, ({ db with cases := db.cases ++ [row] } : Db).listed .late_success id =
        db.listed .late_success id ++ if l.lateSuccessId = id then [row] else [] := by
      intro id
      rw [listed_append, caseType, key]
      simp
    refine ⟨⟨fun id x hl => ?_, fun id hn => ?_, fun id hn => ?_, fun id hn => ?_, he.countedOnce, he.settledOnce, fun id => ?_⟩,
      ⟨hk, fun id => ?_⟩, fun _ => .inl ?_⟩
    · obtain ⟨y, hy⟩ := he.sold id x hl
      exact ⟨y, hk.lateSale hy⟩
    · obtain ⟨x, hx, hr⟩ := he.counted id hn
      exact ⟨x, hk.lateSale hx, hr⟩
    · obtain ⟨⟨x, a, hx, ha⟩, hl⟩ := he.settled id hn
      refine ⟨⟨x, a, hk.lateSale hx, ha⟩, ?_⟩
      have hne : l.lateSuccessId ≠ id := by
        rintro rfl
        exact hn unsettled
      rw [hlist, hl, if_neg hne]
      rfl
    · rw [hlist] at hn
      by_cases hid : l.lateSuccessId = id
      · subst hid
        exact ⟨_, hk.lateSale hx, company⟩
      · rw [if_neg hid, List.append_nil] at hn
        obtain ⟨x, hx, hs⟩ := he.listed id hn
        exact ⟨x, hk.lateSale hx, hs⟩
    · rw [hlist]
      by_cases hid : l.lateSuccessId = id
      · subst hid
        rw [unlisted, if_pos rfl]
        simp
      · rw [if_neg hid, List.append_nil]
        exact he.listedOnce id
    · unfold Db.effects
      rw [hlist, List.length_append]
      exact Nat.add_le_add_left (Nat.le_add_right _ _) _
    · unfold Db.effects
      rw [hlist, if_pos rfl]
      simp
      omega

end

/-! ## The record of a late success -/

variable {row : LateSuccess}

section
variable {db db' : Db} {id : Uuid} {evidence : Option RecoveryCaptureEvidence} {fresh : Fresh}

theorem classifyLocked_exclusive {o : ClassifyOutcome} (he : Exclusive db) (h : classifyLocked db id evidence fresh = .ok (db', o)) :
    Exclusive db' ∧ Grows db db' ∧ (o ≠ .deferred → db'.decided id) := by
  obtain ⟨l, pr, i, hl, hpr, hi, hc⟩ := classifyLocked_ok h
  exact hc.exclusive he (by simpa using List.find?_some hl) (lateSale_of hl hpr hi)

theorem Exclusive.recorded (he : Exclusive db) (hn : db.lateSuccess? row.lateSuccessId = none)
    (hs : ∃ i, db.saleOf row.paymentRequestId = some i) : Exclusive { db with lateSuccesses := db.lateSuccesses ++ [row] } := by
  have hk : Kept db { db with lateSuccesses := db.lateSuccesses ++ [row] } := ⟨fun _ _ h => h, fun _ _ h => lateSuccess_append h⟩
  refine ⟨fun id l hl => ?_, fun id hc => ?_, fun id hc => ?_, fun id hc => ?_, he.countedOnce, he.settledOnce, he.listedOnce⟩
  · unfold Db.lateSuccess? at hl
    rw [List.find?_append] at hl
    rcases Option.or_eq_some_iff.mp hl with hl | ⟨hnone, hl⟩
    · obtain ⟨i, hi⟩ := he.sold id l hl
      exact ⟨i, hk.lateSale hi⟩
    · have hrow : l = row := List.mem_singleton.mp (List.mem_of_find?_eq_some hl)
      subst hrow
      obtain ⟨i, hi⟩ := hs
      refine ⟨i, ?_⟩
      have hfind : ({ db with lateSuccesses := db.lateSuccesses ++ [l] } : Db).lateSuccess? id = some l := by
        unfold Db.lateSuccess?
        rw [List.find?_append]
        exact Option.or_eq_some_iff.mpr (.inr ⟨hnone, hl⟩)
      have hsale : ({ db with lateSuccesses := db.lateSuccesses ++ [l] } : Db).saleOf l.paymentRequestId = some i := hi
      simp [Db.lateSale, hfind, hsale]
  · obtain ⟨x, hx, hr⟩ := he.counted id hc
    exact ⟨x, hk.lateSale hx, hr⟩
  · obtain ⟨⟨x, a, hx, ha⟩, hl⟩ := he.settled id hc
    exact ⟨⟨x, a, hk.lateSale hx, ha⟩, hl⟩
  · obtain ⟨x, hx, hr⟩ := he.listed id hc
    exact ⟨x, hk.lateSale hx, hr⟩

theorem record_exclusive {l : PaymentLateSuccess} {o : LateSuccessOutcome} {c : Option ClassifyOutcome} (he : Exclusive db)
    (h : Reconciliation.record db l evidence fresh = .ok (db', o, c)) :
    Exclusive db' ∧ Grows db db' ∧ ∀ oc, c = some oc → oc ≠ .deferred → db'.decided l.lateSuccessId := by
  rcases record_ok h with ⟨rfl, rfl⟩ | ⟨row, outcome, hid, -, -, -, -, -, -, hn, -, rfl, hc⟩
  · exact ⟨he, .refl db', nofun⟩
  · have hnone := he.unrecorded hn
    have hk : Kept db { db with lateSuccesses := db.lateSuccesses ++ [row] } := ⟨fun _ _ h => h, fun _ _ h => lateSuccess_append h⟩
    unfold classify at hc
    have hfresh : ({ db with lateSuccesses := db.lateSuccesses ++ [row] } : Db).classified l.lateSuccessId = false := by
      have h₁ : ({ db with lateSuccesses := db.lateSuccesses ++ [row] } : Db).counted l.lateSuccessId = [] := hnone.1
      have h₂ : ({ db with lateSuccesses := db.lateSuccesses ++ [row] } : Db).settled l.lateSuccessId = [] := hnone.2.1
      simp [Db.classified, h₁, h₂]
    rw [if_neg (by rw [hfresh]; simp)] at hc
    have hsale : ∃ i, db.saleOf row.paymentRequestId = some i := by
      obtain ⟨x, pr, i, hx, hpr, hi, -⟩ := classifyLocked_ok hc
      have hfind : ({ db with lateSuccesses := db.lateSuccesses ++ [row] } : Db).lateSuccess? l.lateSuccessId = some row := by
        unfold Db.lateSuccess? at hn ⊢
        rw [List.find?_append, hn]
        simp [hid]
      rw [hfind] at hx
      cases hx
      exact ⟨i, Option.bind_eq_some_iff.mpr ⟨pr, hpr, hi⟩⟩
    obtain ⟨he', hg, hd⟩ := classifyLocked_exclusive (he.recorded (by rw [hid]; exact hn) hsale) hc
    refine ⟨he', ⟨⟨fun r i hr => hg.sales r i hr, fun id x hx => hg.recorded id x (hk.recorded id x hx)⟩, fun id => hg.effects id⟩, ?_⟩
    intro oc hoc hne
    cases hoc
    exact hd hne

end

/-! ## Runs -/

structure Classified (s : Sys) : Prop where
  exclusive : Exclusive s.db
  decided : ∀ id o, (id, o) ∈ s.outcomes → o ≠ .deferred → s.db.decided id

theorem init_classified : Classified init := by
  refine ⟨⟨?_, ?_, ?_, ?_, ?_, ?_, ?_⟩, ?_⟩ <;> simp [init, Db.empty, Db.lateSuccess?, Db.counted, Db.settled, Db.listed]

variable {s : Sys}

theorem Classified.grow {t : Sys} (h : Classified s) (he : Exclusive t.db) (hg : Grows s.db t.db) (ho : t.outcomes = s.outcomes) :
    Classified t :=
  ⟨he, fun id o hm hne => hg.decided (h.decided id o (ho ▸ hm) hne)⟩

variable {r : Except Failure Db}

theorem Classified.commit (h : Classified s) (hr : ∀ db, r = .ok db → Quiet s.db db) :
    Classified (s.commit r) := by
  cases r with
  | error e => exact h
  | ok db => exact h.grow (h.exclusive.quiet (hr db rfl)) (hr db rfl).grows rfl

theorem step_classified (h : Classified s) (a : Action) : Classified (step s a) ∧ Grows s.db (step s a).db := by
  have commit : ∀ r : Except Failure Db, (∀ db, r = .ok db → Quiet s.db db) → Classified (s.commit r) ∧ Grows s.db (s.commit r).db := by
    intro r hr
    refine ⟨h.commit hr, ?_⟩
    cases r with
    | error e => exact .refl _
    | ok db => exact (hr db rfl).grows
  cases a with
  | record r => exact commit _ fun db hr => record_quiet hr
  | state l => exact ⟨⟨h.exclusive, h.decided⟩, .refl _⟩
  | readStated l read =>
    simp only [step]
    split
    · exact ⟨⟨h.exclusive, h.decided⟩, .refl _⟩
    · exact ⟨h, .refl _⟩
  | recordStated l evidence fresh =>
    simp only [step]
    split
    · split
      · rename_i db o c hr
        obtain ⟨he, hg, hd⟩ := record_exclusive h.exclusive hr
        refine ⟨⟨he, fun id oc hm hne => ?_⟩, hg⟩
        rcases List.mem_append.mp hm with hm | hm
        · obtain ⟨oc', hoc, heq⟩ := Option.map_eq_some_iff.mp (Option.mem_toList.mp hm)
          cases heq
          exact hd _ hoc hne
        · exact hg.decided (h.decided id oc hm hne)
      · exact ⟨h, .refl _⟩
    · exact ⟨h, .refl _⟩
  | discover id =>
    simp only [step]
    split
    · exact ⟨⟨h.exclusive, h.decided⟩, .refl _⟩
    · exact ⟨h, .refl _⟩
  | readEvidence id read =>
    simp only [step]
    split
    · exact ⟨h, .refl _⟩
    · split
      · exact ⟨⟨h.exclusive, h.decided⟩, .refl _⟩
      · exact ⟨h, .refl _⟩
  | check id evidence =>
    simp only [step]
    split
    · split
      · rename_i hc
        refine ⟨⟨h.exclusive, fun id' o hm hne => ?_⟩, .refl _⟩
        rcases List.mem_cons.mp hm with heq | hm
        · cases heq
          exact classified_decided hc
        · exact h.decided id' o hm hne
      · exact ⟨⟨h.exclusive, h.decided⟩, .refl _⟩
    · exact ⟨h, .refl _⟩
  | classify id evidence fresh =>
    simp only [step]
    split
    · split
      · rename_i db o hr
        obtain ⟨he, hg, hd⟩ := classifyLocked_exclusive h.exclusive hr
        refine ⟨⟨he, fun id' oc hm hne => ?_⟩, hg⟩
        rcases List.mem_cons.mp hm with heq | hm
        · cases heq
          exact hd hne
        · exact hg.decided (h.decided id' oc hm hne)
      · exact ⟨h, .refl _⟩
    · exact ⟨h, .refl _⟩
  | openCase d id =>
    exact commit _ fun db hr => by
      obtain ⟨b, hr⟩ := map_fst_ok hr
      exact discover_quiet hr
  | findEvidence caseId ref =>
    simp only [step]
    split
    · exact ⟨⟨h.exclusive, h.decided⟩, .refl _⟩
    · exact ⟨h, .refl _⟩
  | resolveOpen caseId ref =>
    simp only [step]
    split
    · exact commit _ fun db hr => by
        obtain ⟨b, hr⟩ := map_fst_ok hr
        exact resolve_quiet hr
    · exact ⟨h, .refl _⟩
  | resolve caseId kind =>
    simp only [step]
    split
    · exact ⟨h, .refl _⟩
    · exact commit _ fun db hr => by
        obtain ⟨b, hr⟩ := map_fst_ok hr
        exact resolve_quiet hr

/-! ## When Payment's answers agree -/

def Sys.answers (v : Uuid → Bool) (s : Sys) : Action → Prop
  | .readStated l read => ∀ e, recoveryEvidence s.db l.paymentId l.factId l.amount l.currency read = some e →
      (e = .verified ↔ v l.lateSuccessId = true)
  | .readEvidence id read => ∀ l e, s.db.lateSuccess? id = some l →
      recoveryEvidence s.db l.paymentId l.factId l.amount l.currency read = some e → (e = .verified ↔ v id = true)
  | _ => True

def Verdict (v : Uuid → Bool) (db : Db) : Prop :=
  ∀ id x, db.lateSale id = some x → equalRecovery x ≠ none →
    (v id = true → db.listed .late_success id = []) ∧ (v id = false → db.counted id = [])

structure Agreed (v : Uuid → Bool) (s : Sys) : Prop where
  reads : ∀ l e, (l, some e) ∈ s.reads → (e = .verified ↔ v l.lateSuccessId = true)
  evidenced : ∀ id e, (id, some e) ∈ s.evidenced → (e = .verified ↔ v id = true)
  checked : ∀ id e, (id, some e) ∈ s.checked → (e = .verified ↔ v id = true)
  verdict : Verdict v s.db

section
variable {v : Uuid → Bool} {db db' : Db} {l : LateSuccess} {pr : PaymentRequest} {i : Invoice}
  {evidence : Option RecoveryCaptureEvidence} {o : ClassifyOutcome}

theorem Exclusive.sale (he : Exclusive db) (hk : Kept db db')
    (hl : db.lateSuccess? id = some l) (hx : db'.lateSale id = some x) : db.lateSale id = some x := by
  obtain ⟨i, hi⟩ := he.sold id l hl
  have := hk.lateSale hi
  rw [hx] at this
  cases this
  exact hi

theorem Verdict.quiet (hv : Verdict v db) (he : Exclusive db) (hq : Quiet db db') : Verdict v db' := by
  intro id x hx hr
  cases hl : db.lateSuccess? id with
  | none =>
    have hn : db'.lateSuccess? id = none := by simpa [Db.lateSuccess?, hq.lateSuccesses] using hl
    simp [Db.lateSale, hn] at hx
  | some l =>
    rw [hq.listed, hq.counted]
    exact hv id x (he.sale hq.toKept hl hx) hr

theorem Verdict.classifies (hv : Verdict v db) (hid : l.lateSuccessId = id) (hx : db.lateSale id = some (l, i))
    (hagree : ∀ e, evidence = some e → (e = .verified ↔ v id = true)) (h : Classifies db l pr i evidence db' o) : Verdict v db' := by
  subst hid
  cases h with
  | waits => exact hv
  | already => exact hv
  | unseen => exact hv
  | counts ledger pay o equal verified uncounted unsettled pays payments outcome =>
    intro id x hs hr
    change db.lateSale id = some x at hs
    obtain ⟨h₁, h₂⟩ := hv id x hs hr
    refine ⟨h₁, fun hf => ?_⟩
    have hne : l.lateSuccessId ≠ id := by
      rintro rfl
      rw [(hagree _ verified).mp rfl] at hf
      cases hf
    rw [counted_append payments, pays, h₂ hf, if_neg (by simpa using hne)]
    rfl
  | settles s a cs purpose settles request invoice fact fresh uncounted unlisted rows =>
    intro id x hs hr
    change db.lateSale id = some x at hs
    obtain ⟨h₁, h₂⟩ := hv id x hs hr
    exact ⟨fun ht => ((@settled_cases db s _ id (opened_type rows)).2).trans (h₁ ht), h₂⟩
  | opens row uncounts company caseType key capture payment fresh unlisted unsettled =>
    intro id x hs hr
    change db.lateSale id = some x at hs
    obtain ⟨h₁, h₂⟩ := hv id x hs hr
    refine ⟨fun ht => ?_, h₂⟩
    have hne : l.lateSuccessId ≠ id := by
      rintro rfl
      rw [hx] at hs
      cases hs
      rcases uncounts with hn | ⟨e, hev, hne⟩
      · exact hr hn
      · exact hne ((hagree e hev).mpr ht)
    rw [listed_append, h₁ ht, if_neg (fun hc => hne (key.symm.trans hc.2))]
    rfl

theorem Verdict.recorded (hv : Verdict v db) (he : Exclusive db) :
    Verdict v { db with lateSuccesses := db.lateSuccesses ++ [row] } := by
  have hk : Kept db { db with lateSuccesses := db.lateSuccesses ++ [row] } := ⟨fun _ _ h => h, fun _ _ h => lateSuccess_append h⟩
  intro id x hx hr
  cases hl : db.lateSuccess? id with
  | none =>
    obtain ⟨hc, -, hls⟩ := he.unrecorded hl
    exact ⟨fun _ => hls, fun _ => hc⟩
  | some l => exact hv id x (he.sale hk hl hx) hr

end

variable {v : Uuid → Bool}

theorem Agreed.commit (h : Agreed v s) (he : Exclusive s.db)
    (hr : ∀ db, r = .ok db → Quiet s.db db) : Agreed v (s.commit r) := by
  cases r with
  | error e => exact h
  | ok db => exact ⟨h.reads, h.evidenced, h.checked, h.verdict.quiet he (hr db rfl)⟩

theorem step_agreed {a : Action} (hc : Classified s) (h : Agreed v s) (ha : s.answers v a) :
    Agreed v (step s a) := by
  cases a with
  | record r => exact h.commit hc.exclusive fun db hr => record_quiet hr
  | state l => exact ⟨h.reads, h.evidenced, h.checked, h.verdict⟩
  | readStated l read =>
    simp only [step]
    split
    · refine ⟨fun l' e hm => ?_, h.evidenced, h.checked, h.verdict⟩
      rcases List.mem_cons.mp hm with heq | hm
      · obtain ⟨rfl, he⟩ := Prod.mk.inj heq
        exact ha e he.symm
      · exact h.reads l' e hm
    · exact h
  | recordStated l evidence fresh =>
    simp only [step]
    split
    · rename_i hread
      split
      · rename_i db o c hr
        refine ⟨h.reads, h.evidenced, h.checked, ?_⟩
        rcases record_ok hr with ⟨rfl, -⟩ | ⟨row, outcome, hid, -, -, -, -, -, -, hn, -, -, hcl⟩
        · exact h.verdict
        · unfold classify at hcl
          split at hcl
          · cases hcl
            exact h.verdict.recorded hc.exclusive
          · obtain ⟨x, pr, i, hx, hpr, hi, hcl⟩ := classifyLocked_ok hcl
            refine (h.verdict.recorded hc.exclusive).classifies (by simpa using List.find?_some hx) (lateSale_of hx hpr hi)
              (fun e he => h.reads l e (he ▸ hread)) hcl
      · exact h
    · exact h
  | discover id =>
    simp only [step]
    split
    · exact ⟨h.reads, h.evidenced, h.checked, h.verdict⟩
    · exact h
  | readEvidence id read =>
    simp only [step]
    split
    · exact h
    · rename_i l hl
      split
      · refine ⟨h.reads, fun id' e hm => ?_, h.checked, h.verdict⟩
        rcases List.mem_cons.mp hm with heq | hm
        · obtain ⟨rfl, he⟩ := Prod.mk.inj heq
          exact ha l e hl he.symm
        · exact h.evidenced id' e hm
      · exact h
  | check id evidence =>
    simp only [step]
    split
    · rename_i hev
      split
      · exact ⟨h.reads, h.evidenced, h.checked, h.verdict⟩
      · refine ⟨h.reads, h.evidenced, fun id' e hm => ?_, h.verdict⟩
        rcases List.mem_cons.mp hm with heq | hm
        · obtain ⟨rfl, rfl⟩ := Prod.mk.inj heq
          exact h.evidenced _ e hev
        · exact h.checked id' e hm
    · exact h
  | classify id evidence fresh =>
    simp only [step]
    split
    · rename_i hch
      split
      · rename_i db o hr
        refine ⟨h.reads, h.evidenced, h.checked, ?_⟩
        obtain ⟨x, pr, i, hx, hpr, hi, hcl⟩ := classifyLocked_ok hr
        exact h.verdict.classifies (by simpa using List.find?_some hx) (lateSale_of hx hpr hi)
          (fun e he => h.checked id e (he ▸ hch)) hcl
      · exact h
    · exact h
  | openCase d id =>
    exact h.commit hc.exclusive fun db hr => by
      obtain ⟨b, hr⟩ := map_fst_ok hr
      exact discover_quiet hr
  | findEvidence caseId ref =>
    simp only [step]
    split
    · exact ⟨h.reads, h.evidenced, h.checked, h.verdict⟩
    · exact h
  | resolveOpen caseId ref =>
    simp only [step]
    split
    · exact h.commit hc.exclusive fun db hr => by
        obtain ⟨b, hr⟩ := map_fst_ok hr
        exact resolve_quiet hr
    · exact h
  | resolve caseId kind =>
    simp only [step]
    split
    · exact h
    · exact h.commit hc.exclusive fun db hr => by
        obtain ⟨b, hr⟩ := map_fst_ok hr
        exact resolve_quiet hr

theorem run_classified (actions : List Action) : Classified (run init actions) :=
  List.foldlRecOn actions step init_classified fun _ h a _ => (step_classified h a).1

/-! ## The classification of a late success -/

structure ClassifiedOnce (s : Sys) (id : Uuid) : Prop where
  countedOnce : (s.db.counted id).length ≤ 1
  settledOnce : (s.db.settled id).length ≤ 1
  listedOnce : (s.db.listed .late_success id).length ≤ 1
  settledAlone : s.db.settled id ≠ [] → s.db.counted id = [] ∧ s.db.listed .late_success id = []
  /-- One that is not an equal recovery never has two effects. -/
  ordinary : ∀ x, s.db.lateSale id = some x → equalRecovery x = none → s.db.effects id ≤ 1
  seen : ∀ x, s.db.lateSale id = some x → x.2.sellerType ≠ .company → s.db.listed .late_success id = []
  decided : ∀ o x, (id, o) ∈ s.outcomes → o ≠ .deferred → s.db.lateSale id = some x → x.2.sellerType = .company →
    1 ≤ s.db.effects id
  /-- A classification waits only for Payment's answer, or for the final state of an assisted request. -/
  waits : ∀ evidence fresh db, classifyLocked s.db id evidence fresh = .ok (db, .deferred) → ∃ x, s.db.lateSale id = some x ∧
    ((equalRecovery x ≠ none ∧ evidence = none) ∨ ∃ pr, s.db.request? x.1.paymentRequestId = some pr ∧
      (x.2.routing.any fun e => e.purpose = "assisted_settlement") = true ∧ finalRequest pr.status = false)

def companyless : List Action :=
  let l : PaymentLateSuccess := ⟨20, 9, some 30, 100, "USD", .failed, 5⟩
  [.record (.invoice ⟨1, 100, "USD", .organization, 7, some 7, [3], some .non_entitlement⟩),
   .record (.request ⟨2, none, 1, 100, "USD", .created⟩), .record (.requestStatus 2 .sending none),
   .record (.requestStatus 2 .requested (some 9)), .record (.requestStatus 2 .failed none), .state l, .readStated l .unknown,
   .recordStated l none ⟨⟨50, 51⟩, 52, 53, 0⟩]

def contestedBetween : List Action :=
  let l : PaymentLateSuccess := ⟨20, 9, some 30, 100, "USD", .failed, 5⟩
  [.record (.obligation ⟨40, 7, 6, 100, "USD", .open⟩ 60),
   .record (.invoice ⟨1, 100, "USD", .company, 6, some 7, [3], some (.recovery_settlement 40)⟩),
   .record (.request ⟨2, none, 1, 100, "USD", .created⟩), .record (.requestStatus 2 .sending none),
   .record (.requestStatus 2 .requested (some 9)), .record (.requestStatus 2 .failed none), .state l, .readStated l .unknown,
   .recordStated l none ⟨⟨50, 51⟩, 52, 53, 0⟩, .discover 20,
   .readEvidence 20 (.capture ⟨30, 9, 100, "USD", false, 1⟩), .check 20 (some .verified),
   .readEvidence 20 (.capture ⟨30, 9, 100, "USD", true, 1⟩), .check 20 (some .contested),
   .classify 20 (some .contested) ⟨⟨50, 51⟩, 52, 53, 0⟩, .classify 20 (some .verified) ⟨⟨50, 51⟩, 52, 54, 0⟩]

-- without the agreement it is counted beside its refund-only case
example : (run init contestedBetween).db.effects 20 = 2 := by decide

end NawaraCore.Reconciliation
