import NawaraCore.Billing.RecoverySound
import NawaraCore.Reconciliation.ReconciliationSystem

/-!
# What the reconciliation writes

Every transaction is described once by the rows it adds: the opening of a case, a late
settlement, a classification and the rest of Billing.
-/

namespace NawaraCore.Reconciliation

open Subscriptions (Uuid)
open PaymentRequests (PaymentRequestStatus Failure transitionAllowed)

/-! ## Cases -/

structure Row (c : CaseInput) (row : ReconciliationCase) : Prop where
  caseType : row.caseType = c.caseType
  evidenceKey : row.evidenceKey = c.evidenceKey
  paymentId : row.paymentId = c.paymentId
  captureFactId : row.captureFactId = c.captureFactId

section
variable {db db' : Db} {c : CaseInput} {id : Uuid} {o : Option Uuid}

theorem openCase_ok {scope : Scope} (h : openCase db c scope id = .ok (db', o)) :
    (db' = db ∧ o = none ∧ db.listed c.caseType c.evidenceKey ≠ []) ∨
      ∃ row, Row c row ∧ row.id = id ∧ (∀ x ∈ db.cases, x.id ≠ id) ∧ o = some id ∧ db.listed c.caseType c.evidenceKey = [] ∧
        (c.caseType = .late_success → db.settled c.evidenceKey = []) ∧ db' = { db with cases := db.cases ++ [row] } := by
  unfold openCase at h
  obtain ⟨hs, -, h⟩ := guards_ok h
  obtain ⟨-, h⟩ := guard_ok h
  by_cases hl : db.listed c.caseType c.evidenceKey ≠ []
  · rw [if_pos hl] at h
    cases h
    exact .inl ⟨rfl, rfl, hl⟩
  · rw [if_neg hl] at h
    obtain ⟨hid, h⟩ := guard_ok h
    cases h
    exact .inr ⟨_, ⟨rfl, rfl, rfl, rfl⟩, rfl, by simpa using hid, rfl, not_not.mp hl,
      fun ht => by_contra fun hne => hs ⟨ht, hne⟩, rfl⟩

def Db.saleOf (db : Db) (paymentRequestId : Uuid) : Option Invoice :=
  (db.request? paymentRequestId).bind fun r => db.invoice? r.invoiceId

def Db.about (db : Db) (c : CaseInput) : Option PaymentRequest :=
  match c.paymentRequestId with
  | some r => db.request? r
  | none => c.paymentId.bind db.requestOf

theorem openForPayment_ok (h : openForPayment db c id = .ok (db', o)) :
    (db' = db ∧ o = none ∧ (db.listed c.caseType c.evidenceKey ≠ [] ∨
      ∀ pr i, db.about c = some pr → db.invoice? pr.invoiceId = some i → i.sellerType ≠ .company)) ∨
      ∃ pr i row, db.about c = some pr ∧ db.invoice? pr.invoiceId = some i ∧ i.sellerType = .company ∧
        Row { c with paymentId := c.paymentId.or pr.paymentId } row ∧ row.id = id ∧ (∀ x ∈ db.cases, x.id ≠ id) ∧ o = some id ∧
        db.listed c.caseType c.evidenceKey = [] ∧ (c.caseType = .late_success → db.settled c.evidenceKey = []) ∧
        db' = { db with cases := db.cases ++ [row] } := by
  unfold openForPayment at h
  dsimp only at h
  split at h
  · rename_i hpr
    have hpr : db.about c = none := hpr
    cases h
    exact .inl ⟨rfl, rfl, .inr fun pr i hp => by rw [hpr] at hp; cases hp⟩
  · rename_i pr hpr
    have hpr : db.about c = some pr := hpr
    rw [hpr]
    cases hi : db.invoice? pr.invoiceId with
    | none =>
      rw [hi] at h
      cases h
      exact .inl ⟨rfl, rfl, .inr fun pr' i hp hi' => by cases hp; rw [hi] at hi'; cases hi'⟩
    | some i =>
      simp only [hi] at h
      by_cases hc : i.sellerType ≠ .company
      · rw [if_pos hc] at h
        cases h
        exact .inl ⟨rfl, rfl, .inr fun pr' i' hp hi' => by cases hp; rw [hi] at hi'; cases hi'; exact hc⟩
      · rw [if_neg hc] at h
        rcases openCase_ok h with ⟨rfl, rfl, hl⟩ | ⟨row, hrow, hid, hfresh, rfl, hl, hs, rfl⟩
        · exact .inl ⟨rfl, rfl, .inl hl⟩
        · exact .inr ⟨pr, i, row, rfl, hi, not_not.mp hc,
            ⟨hrow.caseType, hrow.evidenceKey, hrow.paymentId, hrow.captureFactId⟩, hid, hfresh, rfl, hl, hs, rfl⟩

end

variable {s : LateSettlement}

theorem insertLateSettlement_ok {db db' : Db} (h : db.insertLateSettlement s = .ok db') :
    (∀ x ∈ db.lateSettlements, x.id ≠ s.id ∧ x.invoiceId ≠ s.invoiceId ∧ x.evidence ≠ s.evidence) ∧
      (∀ l, s.evidence = .lateSuccess l → db.lateSettlementEligible s l = true ∧ db.counted l = [] ∧ db.listed .late_success l = []) ∧
      (∀ x, s.evidence = .receipt x → ∃ pr ∈ db.requests, pr.id = s.paymentRequestId ∧ pr.invoiceId = s.invoiceId ∧ pr.status = .paid) ∧
      db' = { db with lateSettlements := db.lateSettlements ++ [s] } := by
  unfold Db.insertLateSettlement at h
  cases he : s.evidence with
  | receipt r =>
    simp only [he] at h
    split at h
    · cases h
    · rename_i hv
      obtain ⟨hu, h⟩ := guard_ok h
      cases h
      refine ⟨by simpa [he] using hu, nofun, fun x hx => ?_, rfl⟩
      split at hv
      · rename_i hg
        obtain ⟨pr, hpr, hp⟩ := List.any_eq_true.mp hg.1
        have hp := of_decide_eq_true hp
        exact ⟨pr, hpr, hp.1, hp.2.1, hp.2.2.1⟩
      · cases hv
  | lateSuccess id =>
    simp only [he] at h
    split at h
    · cases h
    · rename_i hv
      obtain ⟨hu, h⟩ := guard_ok h
      cases h
      obtain ⟨hel, hv⟩ := guard_ok hv
      obtain ⟨hone, -⟩ := guard_ok hv
      refine ⟨by simpa [he] using hu, fun l hl => ?_, nofun, rfl⟩
      cases hl
      exact ⟨by simpa using hel, by_contra fun hne => hone (.inl hne), by_contra fun hne => hone (.inr hne)⟩

/-! ## A classification -/

inductive Classifies (db : Db) (l : LateSuccess) (pr : PaymentRequest) (i : Invoice) (evidence : Option RecoveryCaptureEvidence) :
    Db → ClassifyOutcome → Prop
  | waits (h : (i.equalRecovery l.amount l.currency ≠ none ∧ evidence = none) ∨
      (i.routing.any fun e => e.purpose = "assisted_settlement") = true ∧ finalRequest pr.status = false) :
      Classifies db l pr i evidence db .deferred
  | counts (ledger : Recovery.Db) (pay : Recovery.RecoveryPayment) (o : ClassifyOutcome)
      (equal : i.equalRecovery l.amount l.currency ≠ none) (verified : evidence = some .verified)
      (uncounted : db.counted l.lateSuccessId = []) (unsettled : db.settled l.lateSuccessId = [])
      (pays : pay.evidence = .lateSuccess l.lateSuccessId) (payments : ledger.payments = db.recoveryPayments ++ [pay])
      (outcome : o = .recovery ∨ o = .recovered) :
      Classifies db l pr i evidence (db.withLedger ledger) o
  | settles (s : LateSettlement) (assistanceRequestId : Uuid) (opened : List ReconciliationCase)
      (purpose : i.routing = some (.assisted_settlement assistanceRequestId)) (settles : s.evidence = .lateSuccess l.lateSuccessId)
      (request : s.paymentRequestId = pr.id) (invoice : s.invoiceId = i.id) (fact : l.factId ≠ none)
      (fresh : ∀ x ∈ db.lateSettlements, x.id ≠ s.id ∧ x.invoiceId ≠ s.invoiceId ∧ x.evidence ≠ s.evidence)
      (uncounted : db.counted l.lateSuccessId = []) (unlisted : db.listed .late_success l.lateSuccessId = [])
      (rows : opened = [] ∨ ∃ row, opened = [row] ∧ row.caseType = .late_assisted_settlement ∧ row.evidenceKey = s.id ∧
        row.paymentId = some l.paymentId ∧ row.captureFactId = l.factId ∧ (∀ x ∈ db.cases, x.id ≠ row.id) ∧
        db.listed .late_assisted_settlement s.id = []) :
      Classifies db l pr i evidence
        { db with lateSettlements := db.lateSettlements ++ [s], cases := db.cases ++ opened } .late_settlement
  | opens (row : ReconciliationCase) (uncounts : i.equalRecovery l.amount l.currency = none ∨ ∃ e, evidence = some e ∧ e ≠ .verified)
      (company : i.sellerType = .company) (caseType : row.caseType = .late_success) (key : row.evidenceKey = l.lateSuccessId)
      (capture : row.captureFactId = l.factId) (payment : row.paymentId = pr.paymentId) (fresh : ∀ x ∈ db.cases, x.id ≠ row.id)
      (unlisted : db.listed .late_success l.lateSuccessId = []) (unsettled : db.settled l.lateSuccessId = []) :
      Classifies db l pr i evidence { db with cases := db.cases ++ [row] } .case
  | already (h : db.listed .late_success l.lateSuccessId ≠ []) : Classifies db l pr i evidence db .done
  | unseen (h : i.sellerType ≠ .company) : Classifies db l pr i evidence db .done

variable {ledger : Recovery.Db} {ids : Recovery.FreshIds} {p : Recovery.Success} {a : Recovery.Applied}

section
variable {db db' : Db} {l : LateSuccess} {pr : PaymentRequest} {i : Invoice} {evidence : Option RecoveryCaptureEvidence} {fresh : Fresh}
  {o : ClassifyOutcome}

variable {id : Uuid}

theorem settledLate_ledger (h : db.ledger.settledLate (.lateSuccess id) = false) : db.settled id = [] := by
  refine List.filter_eq_nil_iff.mpr fun s hs he => ?_
  have he : s.evidence = .lateSuccess id := of_decide_eq_true he
  have hm : id ∈ db.ledger.lateSettlements := List.mem_filterMap.mpr ⟨s, hs, by rw [he]⟩
  simp [Recovery.Db.settledLate, hm] at h

theorem applyRecoveryPayment_late {now : Int}
    (hp : p.evidence = .lateSuccess id) (h : Recovery.applyRecoveryPayment db.ledger p ids now = .ok (ledger, a)) :
    ∃ pay : Recovery.RecoveryPayment, pay.evidence = .lateSuccess id ∧ ledger.payments = db.recoveryPayments ++ [pay] ∧
      db.counted id = [] ∧ db.settled id = [] := by
  obtain ⟨o, pay, surpluses, hr⟩ := Recovery.applyRecoveryPayment_ok h
  refine ⟨pay, hr.split.evidence.trans hp, by rw [hr.writes]; rfl, ?_, settledLate_ledger (hp ▸ hr.split.unsettled)⟩
  refine List.filter_eq_nil_iff.mpr fun q hq he => ?_
  have := hr.split.unique q hq
  simp [Recovery.sameEvidence, hp, of_decide_eq_true he] at this

theorem openLateSuccess_ok (hpr : db.request? l.paymentRequestId = some pr) (hi : db.invoice? pr.invoiceId = some i)
    (huncounts : i.equalRecovery l.amount l.currency = none ∨ ∃ e, evidence = some e ∧ e ≠ .verified)
    (h : openLateSuccess db l i fresh = .ok (db', o)) : Classifies db l pr i evidence db' o := by
  unfold openLateSuccess at h
  obtain ⟨⟨db₁, opened⟩, h₁, h⟩ := map_eq_ok.mp h
  obtain ⟨rfl, rfl⟩ := Prod.mk.inj h
  rcases openForPayment_ok h₁ with ⟨rfl, rfl, hl | hc⟩ | ⟨pr', i', row, hab, hi', hcomp, hrow, hid, hfresh, rfl, hl, hs, rfl⟩
  · exact .already hl
  · exact .unseen (hc pr i (by simpa [Db.about] using hpr) hi)
  · have hab : db.request? l.paymentRequestId = some pr' := by simpa [Db.about] using hab
    rw [hpr] at hab
    cases hab
    rw [hi] at hi'
    cases hi'
    exact .opens row huncounts hcomp hrow.caseType hrow.evidenceKey hrow.captureFactId hrow.paymentId
      (fun x hx => by rw [hid]; exact hfresh x hx) hl (hs rfl)

theorem lateSettlement_ok {assistanceRequestId : Uuid} (h : lateSettlement db l pr i assistanceRequestId fresh = .ok (some (db', id))) :
    ∃ s : LateSettlement, s.evidence = .lateSuccess l.lateSuccessId ∧ s.paymentRequestId = pr.id ∧ s.invoiceId = i.id ∧ s.id = id ∧
      l.factId ≠ none ∧
      (∀ x ∈ db.lateSettlements, x.id ≠ s.id ∧ x.invoiceId ≠ s.invoiceId ∧ x.evidence ≠ s.evidence) ∧
      db.counted l.lateSuccessId = [] ∧ db.listed .late_success l.lateSuccessId = [] ∧
      db' = { db with lateSettlements := db.lateSettlements ++ [s] } := by
  unfold lateSettlement at h
  obtain ⟨heligible, h⟩ := passed h nofun
  obtain ⟨-, h⟩ := passed h nofun
  obtain ⟨db₁, h₁, h⟩ := map_eq_ok.mp h
  cases h
  obtain ⟨hu, hlate, -, rfl⟩ := insertLateSettlement_ok h₁
  obtain ⟨-, hc, hl⟩ := hlate _ rfl
  exact ⟨_, rfl, rfl, rfl, rfl, fun hf => heligible (.inl hf), hu, hc, hl, rfl⟩

theorem classifyRouted_ok (hid : l.lateSuccessId = id) (hpr : db.request? l.paymentRequestId = some pr)
    (hi : db.invoice? pr.invoiceId = some i)
    (hun : i.equalRecovery l.amount l.currency = none ∨ ∃ e, evidence = some e ∧ e ≠ .verified)
    (h : (match i.routing with
      | some (.assisted_settlement assistanceRequestId) =>
        if db.listed .late_success id ≠ [] then (.ok (db, .done) : Except Failure (Db × ClassifyOutcome))
        else if ¬ finalRequest pr.status then .ok (db, .deferred)
        else do
          match ← lateSettlement db l pr i assistanceRequestId fresh with
          | some (db, id) =>
            let (db, _) ← openForPayment db ⟨.late_assisted_settlement, id, some pr.id, some l.paymentId, l.factId, some l.amount,
              some l.currency, none⟩ fresh.case
            .ok (db, .late_settlement)
          | none => openLateSuccess db l i fresh
      | _ => openLateSuccess db l i fresh) = .ok (db', o)) : Classifies db l pr i evidence db' o := by
  split at h
  · rename_i a hroute
    by_cases hlist : db.listed .late_success id ≠ []
    · rw [if_pos hlist] at h
      cases h
      exact .already (by rw [hid]; exact hlist)
    · rw [if_neg hlist] at h
      by_cases hf : ¬ finalRequest pr.status
      · rw [if_pos hf] at h
        cases h
        exact .waits (.inr ⟨by simp [hroute, Routing.purpose], by simpa using hf⟩)
      · rw [if_neg hf] at h
        obtain ⟨r, hr, h⟩ := bind_eq_ok.mp h
        cases r with
        | none => exact openLateSuccess_ok hpr hi hun h
        | some p =>
          obtain ⟨db₁, sid⟩ := p
          obtain ⟨⟨db₂, o₂⟩, h₂, h⟩ := bind_eq_ok.mp h
          cases h
          obtain ⟨s, hs, hsr, hsi, rfl, hf, hu, hc, hlate, rfl⟩ := lateSettlement_ok hr
          rcases openForPayment_ok h₂ with ⟨rfl, -, -⟩ | ⟨pr', i', row, -, -, -, hrow, hrid, hfresh, -, hls, -, rfl⟩
          · have := @Classifies.settles db _ _ _ evidence s a [] hroute hs hsr hsi hf hu hc hlate (.inl rfl)
            simpa using this
          · exact .settles s a [row] hroute hs hsr hsi hf hu hc hlate
              (.inr ⟨row, rfl, hrow.caseType, hrow.evidenceKey, hrow.paymentId, hrow.captureFactId,
                fun x hx => by rw [hrid]; exact hfresh x hx, hls⟩)
  · exact openLateSuccess_ok hpr hi hun h

theorem classifyLocked_ok (h : classifyLocked db id evidence fresh = .ok (db', o)) :
    ∃ l pr i, db.lateSuccess? id = some l ∧ db.request? l.paymentRequestId = some pr ∧ db.invoice? pr.invoiceId = some i ∧
      Classifies db l pr i evidence db' o := by
  unfold classifyLocked at h
  cases hl : db.lateSuccess? id with
  | none =>
    rw [hl] at h
    cases h
  | some l =>
    have hid : l.lateSuccessId = id := by simpa using List.find?_some hl
    simp only [hl] at h
    cases hpr : db.request? l.paymentRequestId with
    | none =>
      rw [hpr] at h
      cases h
    | some pr =>
      simp only [hpr] at h
      cases hi : db.invoice? pr.invoiceId with
      | none =>
        rw [hi] at h
        cases h
      | some i =>
        simp only [hi] at h
        refine ⟨l, pr, i, rfl, hpr, hi, ?_⟩
        cases heq : i.equalRecovery l.amount l.currency with
        | none =>
          simp only [heq] at h
          exact classifyRouted_ok hid hpr hi (.inl heq) h
        | some obligationId =>
          simp only [heq] at h
          cases evidence with
          | none =>
            cases h
            exact .waits (.inl ⟨by rw [heq]; simp, rfl⟩)
          | some e =>
            cases e with
            | verified =>
              obtain ⟨⟨ledger, a⟩, ha, h⟩ := map_eq_ok.mp h
              cases h
              obtain ⟨pay, hpe, hpay, hc, hs⟩ := applyRecoveryPayment_late rfl ha
              refine .counts ledger pay _ (by rw [heq]; simp) rfl (by rw [hid]; exact hc) (by rw [hid]; exact hs)
                (by rw [hid]; exact hpe) hpay ?_
              cases a <;> simp
            | contested => exact classifyRouted_ok hid hpr hi (.inr ⟨_, rfl, by simp⟩) h
            | unverified => exact classifyRouted_ok hid hpr hi (.inr ⟨_, rfl, by simp⟩) h

end

section
variable {db db' : Db} {evidence : Option RecoveryCaptureEvidence} {fresh : Fresh}

theorem record_ok {l : PaymentLateSuccess} {o : LateSuccessOutcome} {c : Option ClassifyOutcome}
    (h : Reconciliation.record db l evidence fresh = .ok (db', o, c)) :
    (db' = db ∧ c = none) ∨ ∃ row outcome, row.lateSuccessId = l.lateSuccessId ∧ row.paymentId = l.paymentId ∧ row.factId = l.factId ∧
      row.amount = l.amount ∧ row.currency = l.currency ∧ db.requestOf l.paymentId ≠ none ∧
      (∃ pr ∈ db.requests, pr.paymentId = some row.paymentId ∧ pr.id = row.paymentRequestId) ∧
      db.lateSuccess? l.lateSuccessId = none ∧ (∀ f, row.factId = some f → ∀ x ∈ db.lateSuccesses, x.factId ≠ some f) ∧ c = some outcome ∧
      classify { db with lateSuccesses := db.lateSuccesses ++ [row] } l.lateSuccessId evidence fresh = .ok (db', outcome) := by
  unfold Reconciliation.record at h
  split at h
  · cases h
    exact .inl ⟨rfl, rfl⟩
  · cases hpr : db.requestOf l.paymentId with
    | none =>
      rw [hpr] at h
      cases h
      exact .inl ⟨rfl, rfl⟩
    | some pr =>
      simp only [hpr] at h
      cases hl : db.lateSuccess? l.lateSuccessId with
      | some prior =>
        simp only [hl] at h
        split at h <;> cases h <;> exact .inl ⟨rfl, rfl⟩
      | none =>
        simp only [hl] at h
        split at h
        · cases h
          exact .inl ⟨rfl, rfl⟩
        · rename_i hfact
          obtain ⟨⟨db₁, oc⟩, h₁, h⟩ := map_eq_ok.mp h
          cases h
          refine .inr ⟨_, oc, rfl, rfl, rfl, rfl, rfl, by simp, ?_, rfl, fun f hf x hx hxf => ?_, rfl, h₁⟩
          · exact ⟨pr, List.mem_of_find?_eq_some hpr, by simpa using List.find?_some hpr, rfl⟩
          · have hf : l.factId = some f := hf
            exact hfact ⟨by rw [hf]; rfl, List.any_eq_true.mpr ⟨x, hx, by simp [hxf, hf]⟩⟩

end

/-! ## What stays -/

structure Kept (db db' : Db) : Prop where
  sales : ∀ r i, db.saleOf r = some i → db'.saleOf r = some i
  recorded : ∀ id l, db.lateSuccess? id = some l → db'.lateSuccess? id = some l

structure Quiet (db db' : Db) : Prop extends Kept db db' where
  lateSuccesses : db'.lateSuccesses = db.lateSuccesses
  counted : ∀ id, db'.counted id = db.counted id
  settled : ∀ id, db'.settled id = db.settled id
  listed : ∀ id, db'.listed .late_success id = db.listed .late_success id

section
variable {db db' : Db} {id : Uuid}

theorem Kept.refl (db : Db) : Kept db db := ⟨fun _ _ h => h, fun _ _ h => h⟩

theorem Kept.of_eq (hi : db'.invoices = db.invoices) (hr : db'.requests = db.requests) (hl : db'.lateSuccesses = db.lateSuccesses) :
    Kept db db' :=
  ⟨fun r i h => by simpa [Db.saleOf, Db.request?, Db.invoice?, hi, hr] using h, fun id l h => by simpa [Db.lateSuccess?, hl] using h⟩

theorem Quiet.of_kept (hk : Kept db db') (hl : db'.lateSuccesses = db.lateSuccesses) (hp : db'.recoveryPayments = db.recoveryPayments)
    (hs : db'.lateSettlements = db.lateSettlements) (hc : db'.cases = db.cases) : Quiet db db' :=
  ⟨hk, hl, fun id => by rw [Db.counted, hp]; rfl, fun id => by rw [Db.settled, hs]; rfl, fun id => by rw [Db.listed, hc]; rfl⟩

theorem Quiet.of_eq (hi : db'.invoices = db.invoices) (hr : db'.requests = db.requests) (hl : db'.lateSuccesses = db.lateSuccesses)
    (hp : db'.recoveryPayments = db.recoveryPayments) (hs : db'.lateSettlements = db.lateSettlements) (hc : db'.cases = db.cases) :
    Quiet db db' :=
  .of_kept (.of_eq hi hr hl) hl hp hs hc

variable {r : Uuid}

theorem saleOf_append_invoice {i j : Invoice} (h : db.saleOf r = some i) :
    ({ db with invoices := db.invoices ++ [j] } : Db).saleOf r = some i := by
  obtain ⟨pr, hpr, hi⟩ := Option.bind_eq_some_iff.mp h
  refine Option.bind_eq_some_iff.mpr ⟨pr, hpr, ?_⟩
  unfold Db.invoice? at hi ⊢
  rw [List.find?_append, hi]
  rfl

theorem saleOf_append_request {i : Invoice} {x : PaymentRequest} (h : db.saleOf r = some i) :
    ({ db with requests := db.requests ++ [x] } : Db).saleOf r = some i := by
  obtain ⟨pr, hpr, hi⟩ := Option.bind_eq_some_iff.mp h
  refine Option.bind_eq_some_iff.mpr ⟨pr, ?_, hi⟩
  unfold Db.request? at hpr ⊢
  rw [List.find?_append, hpr]
  rfl

theorem saleOf_replace_request {i : Invoice} {x y : PaymentRequest} (hx : db.request? id = some x) (hid : y.id = x.id)
    (hy : y.invoiceId = x.invoiceId) (h : db.saleOf r = some i) :
    ({ db with requests := replaceRow PaymentRequest.id y db.requests } : Db).saleOf r = some i := by
  obtain ⟨pr, hpr, hi⟩ := Option.bind_eq_some_iff.mp h
  refine Option.bind_eq_some_iff.mpr ⟨if pr.id = y.id then y else pr, ?_, ?_⟩
  · unfold Db.request? at hpr ⊢
    rw [find_replaceRow, hpr]
    rfl
  · by_cases hk : pr.id = y.id
    · rw [if_pos hk]
      have hxid : x.id = id := by simpa using List.find?_some hx
      have hprid : pr.id = r := by simpa using List.find?_some hpr
      have hrid : r = id := by rw [← hprid, hk, hid, hxid]
      rw [hrid, hx] at hpr
      cases hpr
      rw [hy]
      exact hi
    · rw [if_neg hk]
      exact hi

theorem lateSuccess_append {l x : LateSuccess} (h : db.lateSuccess? id = some l) :
    ({ db with lateSuccesses := db.lateSuccesses ++ [x] } : Db).lateSuccess? id = some l := by
  unfold Db.lateSuccess? at h ⊢
  rw [List.find?_append, h]
  rfl

theorem counted_append {pay : Recovery.RecoveryPayment} (h : ledger.payments = db.recoveryPayments ++ [pay])
    (id : Uuid) : (db.withLedger ledger).counted id = db.counted id ++ if pay.evidence = .lateSuccess id then [pay] else [] := by
  simp only [Db.counted, Db.withLedger, h, List.filter_append]
  by_cases hp : pay.evidence = .lateSuccess id <;> simp [hp]

theorem settled_append (id : Uuid) : ({ db with lateSettlements := db.lateSettlements ++ [s] } : Db).settled id =
    db.settled id ++ if s.evidence = .lateSuccess id then [s] else [] := by
  simp only [Db.settled, List.filter_append]
  by_cases hp : s.evidence = .lateSuccess id <;> simp [hp]

theorem listed_append {c : ReconciliationCase} (t : CaseType) (id : Uuid) : ({ db with cases := db.cases ++ [c] } : Db).listed t id =
    db.listed t id ++ if c.caseType = t ∧ c.evidenceKey = id then [c] else [] := by
  simp only [Db.listed, List.filter_append]
  by_cases hp : c.caseType = t ∧ c.evidenceKey = id <;> simp [hp]

theorem quiet_recovery {now : Int} {x : Uuid}
    (hp : p.evidence = .receipt x) (h : Recovery.applyRecoveryPayment db.ledger p ids now = .ok (ledger, a)) :
    Quiet db (db.withLedger ledger) := by
  obtain ⟨o, pay, surpluses, hr⟩ := Recovery.applyRecoveryPayment_ok h
  have hpay : ledger.payments = db.recoveryPayments ++ [pay] := by rw [hr.writes]; rfl
  have he : pay.evidence = .receipt x := hr.split.evidence.trans hp
  refine ⟨.of_eq rfl rfl rfl, rfl, fun id => ?_, fun id => rfl, fun id => rfl⟩
  rw [counted_append hpay, if_neg (by rw [he]; simp), List.append_nil]

theorem record_quiet {r : Record} (h : db.record r = .ok db') : Quiet db db' := by
  cases r with
  | invoice i =>
    simp only [Db.record] at h
    obtain ⟨-, h⟩ := guard_ok h
    cases h
    exact .of_kept ⟨fun r i h => saleOf_append_invoice h, fun _ _ h => h⟩ rfl rfl rfl rfl
  | request x =>
    simp only [Db.record] at h
    obtain ⟨-, -, h⟩ := guards_ok h
    obtain ⟨-, h⟩ := guard_ok h
    cases h
    exact .of_kept ⟨fun r i h => saleOf_append_request h, fun _ _ h => h⟩ rfl rfl rfl rfl
  | requestStatus id status paymentId =>
    simp only [Db.record] at h
    cases hr : db.request? id with
    | none =>
      rw [hr] at h
      cases h
    | some x =>
      simp only [hr] at h
      obtain ⟨-, -, h⟩ := guards_ok h
      cases h
      exact .of_kept ⟨fun r i h => saleOf_replace_request hr rfl rfl h, fun _ _ h => h⟩ rfl rfl rfl rfl
  | success id receiptId =>
    simp only [Db.record] at h
    cases hr : db.request? id with
    | none =>
      rw [hr] at h
      cases h
    | some x =>
      simp only [hr] at h
      obtain ⟨-, -, h⟩ := guards_ok h
      cases h
      exact .of_kept ⟨fun r i h => saleOf_replace_request hr rfl rfl h, fun _ _ h => h⟩ rfl rfl rfl rfl
  | lateSettlement s =>
    simp only [Db.record] at h
    split at h
    · rename_i x he
      obtain ⟨-, -, -, rfl⟩ := insertLateSettlement_ok h
      refine ⟨.of_eq rfl rfl rfl, rfl, fun id => rfl, fun id => ?_, fun id => rfl⟩
      rw [settled_append, if_neg (by rw [he]; simp), List.append_nil]
    · cases h
  | application id =>
    simp only [Db.record] at h
    split at h
    · cases h
      exact .of_eq rfl rfl rfl rfl rfl rfl
    · cases h
  | obligation o disputeId =>
    simp only [Db.record] at h
    obtain ⟨-, h⟩ := guard_ok h
    obtain ⟨l, hl, h⟩ := map_eq_ok.mp h
    cases h
    simp only [Recovery.Db.record] at hl
    obtain ⟨-, -, hl⟩ := guards_ok hl
    obtain ⟨-, hl⟩ := guard_ok hl
    cases hl
    exact .of_eq rfl rfl rfl rfl rfl rfl
  | recovery id receiptId ids now =>
    simp only [Db.record] at h
    cases hr : db.request? id with
    | none =>
      rw [hr] at h
      cases h
    | some x =>
      simp only [hr] at h
      split at h
      · obtain ⟨⟨l, a⟩, hl, h⟩ := map_eq_ok.mp h
        cases h
        exact quiet_recovery rfl hl
      · cases h
  | writeOff f =>
    simp only [Db.record] at h
    obtain ⟨l, -, h⟩ := map_eq_ok.mp h
    cases h
    exact .of_eq rfl rfl rfl rfl rfl rfl
  | refundCase r =>
    simp only [Db.record, Db.insertRefundCase] at h
    split at h
    · cases h
    · obtain ⟨-, -, h⟩ := guards_ok h
      obtain ⟨-, h⟩ := guard_ok h
      cases h
      exact .of_eq rfl rfl rfl rfl rfl rfl
  | refundCaseStatus id status =>
    simp only [Db.record] at h
    split at h
    · cases h
    · obtain ⟨-, h⟩ := guard_ok h
      cases h
      exact .of_eq rfl rfl rfl rfl rfl rfl
  | relayStatus id status =>
    simp only [Db.record] at h
    split at h
    · cases h
    · obtain ⟨-, h⟩ := guard_ok h
      cases h
      exact .of_eq rfl rfl rfl rfl rfl rfl
  | channel _ | purchase _ | directWriteOff _ | relay _ | loss _ =>
    simp only [Db.record] at h
    obtain ⟨-, h⟩ := guard_ok h
    cases h
    exact .of_eq rfl rfl rfl rfl rfl rfl
  | channelStatus _ _ _ | reversal _ | surplusExternal _ | surplusRefund _ | surplusConfirmation _ | refundEffect _ | lossEffect _
  | overReturn _ _ =>
    simp only [Db.record] at h
    cases h
    exact .of_eq rfl rfl rfl rfl rfl rfl

theorem quiet_case {row : ReconciliationCase} (h : row.caseType ≠ .late_success) : Quiet db { db with cases := db.cases ++ [row] } := by
  refine ⟨.of_eq rfl rfl rfl, rfl, fun id => rfl, fun id => rfl, fun id => ?_⟩
  rw [listed_append, if_neg (fun hc => h hc.1), List.append_nil]

variable {o : Option Uuid}

theorem openForPayment_quiet {c : CaseInput} (hc : c.caseType ≠ .late_success)
    (h : openForPayment db c id = .ok (db', o)) : Quiet db db' := by
  rcases openForPayment_ok h with ⟨rfl, -, -⟩ | ⟨pr, i, row, -, -, -, hrow, -, -, -, -, -, rfl⟩
  · exact .of_eq rfl rfl rfl rfl rfl rfl
  · exact quiet_case (by rw [hrow.caseType]; exact hc)

theorem discover_quiet {d : Discovery} (h : db.discover d id = .ok (db', o)) : Quiet db db' := by
  cases d with
  | lateSettlement sid =>
    simp only [Db.discover] at h
    split at h
    · cases h
      exact .of_eq rfl rfl rfl rfl rfl rfl
    · split at h
      · cases h
        exact .of_eq rfl rfl rfl rfl rfl rfl
      · exact openForPayment_quiet (by simp) h
  | unroutedSettlement rid =>
    simp only [Db.discover] at h
    split at h
    · cases h
      exact .of_eq rfl rfl rfl rfl rfl rfl
    · split at h
      · exact openForPayment_quiet (by simp) h
      · cases h
        exact .of_eq rfl rfl rfl rfl rfl rfl
  | unmatchedCapture f p a cu re =>
    simp only [Db.discover] at h
    exact openForPayment_quiet (by simp) h
  | other c scope =>
    simp only [Db.discover] at h
    split at h
    · cases h
      exact .of_eq rfl rfl rfl rfl rfl rfl
    · rename_i hc
      have hne : c.caseType ≠ .late_success := by
        intro he
        rw [he] at hc
        exact hc rfl
      cases scope with
      | none => exact openForPayment_quiet hne h
      | some sc =>
        rcases openCase_ok h with ⟨rfl, -, -⟩ | ⟨row, hrow, -, -, -, -, -, rfl⟩
        · exact .of_eq rfl rfl rfl rfl rfl rfl
        · exact quiet_case (by rw [hrow.caseType]; exact hne)

theorem resolve_quiet {kind : ResolutionKind} {b : Bool} (h : resolve db id kind = .ok (db', b)) : Quiet db db' := by
  unfold resolve at h
  split at h
  · cases h
  · obtain ⟨-, h⟩ := guard_ok h
    split at h
    · cases h
      exact .of_eq rfl rfl rfl rfl rfl rfl
    · cases h
      exact .of_eq rfl rfl rfl rfl rfl rfl

end

/-! ## Transactions -/

inductive Transaction (db : Db) : Db → Prop
  | none : Transaction db db
  | record {r : Record} {db' : Db} (h : db.record r = .ok db') : Transaction db db'
  | stated {l : PaymentLateSuccess} {evidence : Option RecoveryCaptureEvidence} {fresh : Fresh} {db' : Db} {o : LateSuccessOutcome}
      {c : Option ClassifyOutcome} (h : Reconciliation.record db l evidence fresh = .ok (db', o, c)) : Transaction db db'
  | classified {id : Uuid} {evidence : Option RecoveryCaptureEvidence} {fresh : Fresh} {db' : Db} {o : ClassifyOutcome}
      (h : classifyLocked db id evidence fresh = .ok (db', o)) : Transaction db db'
  | opened {d : Discovery} {id : Uuid} {db' : Db} {o : Option Uuid} (h : db.discover d id = .ok (db', o)) : Transaction db db'
  | resolved {id : Uuid} {kind : ResolutionKind} {db' : Db} {b : Bool} (h : resolve db id kind = .ok (db', b)) : Transaction db db'

theorem Transaction.commit {s : Sys} {r : Except Failure Db} (h : ∀ db, r = .ok db → Transaction s.db db) :
    Transaction s.db (s.commit r).db := by
  cases r with
  | error e => exact .none
  | ok db => exact h db rfl

theorem step_transaction (s : Sys) (a : Action) : Transaction s.db (step s a).db := by
  cases a with
  | record r => exact .commit fun db h => .record h
  | state l => exact .none
  | readStated l read =>
    simp only [step]
    split <;> exact .none
  | recordStated l evidence fresh =>
    simp only [step]
    split
    · split
      · rename_i h
        exact .stated h
      · exact .none
    · exact .none
  | discover id =>
    simp only [step]
    split <;> exact .none
  | readEvidence id read =>
    simp only [step]
    split
    · exact .none
    · split <;> exact .none
  | check id evidence =>
    simp only [step]
    split
    · split <;> exact .none
    · exact .none
  | classify id evidence fresh =>
    simp only [step]
    split
    · split
      · rename_i h
        exact .classified h
      · exact .none
    · exact .none
  | openCase d id =>
    exact .commit fun db h => by
      obtain ⟨o, h⟩ := map_fst_ok h
      exact .opened h
  | findEvidence caseId ref =>
    simp only [step]
    split <;> exact .none
  | resolveOpen caseId ref =>
    simp only [step]
    split
    · exact .commit fun db h => by
        obtain ⟨b, h⟩ := map_fst_ok h
        exact .resolved h
    · exact .none
  | resolve caseId kind =>
    simp only [step]
    split
    · exact .none
    · exact .commit fun db h => by
        obtain ⟨b, h⟩ := map_fst_ok h
        exact .resolved h

end NawaraCore.Reconciliation
