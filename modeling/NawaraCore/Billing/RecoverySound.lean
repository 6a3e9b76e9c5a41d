import NawaraCore.Billing.Recovery
import NawaraCore.Lib.Capped
import NawaraCore.Lib.Outcome

/-!
# The recovery ledger is conserved

A payment fills what is left of the base, its surplus is owed back, and a write-off with
its adjustments stays the outstanding principal.
-/

namespace NawaraCore.Recovery

open Subscriptions (Uuid)
open PaymentRequests (PaymentRequestStatus ReceiptOutcome PaymentEventName Failure transitionAllowed)

theorem paid_append (f : RecoveryPayment → Int) (o : Uuid) (l : List RecoveryPayment) (p : RecoveryPayment) :
    paid f o (l ++ [p]) = paid f o l + if p.obligationId = o then f p else 0 := by
  unfold paid
  rw [List.filter_append, List.map_append, List.sum_append]
  by_cases h : p.obligationId = o
  · rw [if_pos h, List.filter_cons_of_pos (by simpa using h)]
    simp
  · rw [if_neg h, List.filter_cons_of_neg (by simpa using h)]
    simp

theorem adjusted_append (f : Uuid) (l : List FinancialLossAdjustment) (a : FinancialLossAdjustment) :
    adjusted f (l ++ [a]) = adjusted f l + if a.lossId = f then a.amount else 0 := by
  unfold adjusted
  rw [List.filter_append, List.map_append, List.sum_append]
  by_cases h : a.lossId = f
  · rw [if_pos h, List.filter_cons_of_pos (by simpa using h)]
    simp
  · rw [if_neg h, List.filter_cons_of_neg (by simpa using h)]
    simp

theorem paid_none {f : RecoveryPayment → Int} {o : Uuid} {l : List RecoveryPayment}
    (h : ∀ p ∈ l, p.obligationId ≠ o) : paid f o l = 0 := by
  unfold paid
  rw [List.filter_eq_nil_iff.mpr (by simpa using h)]
  rfl

theorem adjusted_none {f : Uuid} {l : List FinancialLossAdjustment} (h : ∀ a ∈ l, a.lossId ≠ f) : adjusted f l = 0 := by
  unfold adjusted
  rw [List.filter_eq_nil_iff.mpr (by simpa using h)]
  rfl

/-! ## What the guarded inserts write -/

section
variable {db db' : Db} {o : RecoveryObligation} {p : Success} {pay : RecoveryPayment} {id : Uuid} {now : Int}

structure Split (db : Db) (o : RecoveryObligation) (p : Success) (pay : RecoveryPayment) : Prop where
  obligation : pay.obligationId = p.obligationId
  invoice : pay.invoiceId = p.invoiceId
  request : pay.paymentRequestId = p.paymentRequestId
  evidence : pay.evidence = p.evidence
  amount : pay.amount = p.amount
  currency : pay.currency = p.currency
  positive : 0 < p.amount
  principal : pay.principalAmount = min p.amount (max 0 (db.billing_recovery_outstanding o))
  surplus : pay.surplusAmount = p.amount - pay.principalAmount
  verified : db.verified p
  fresh : ∀ q ∈ db.payments, q.id ≠ pay.id
  unique : ∀ q ∈ db.payments, sameEvidence p q = false
  unsettled : db.settledLate p.evidence = false

theorem insertPayment_ok (h : db.insertPayment o p id now = .ok (db', pay)) :
    Split db o p pay ∧ db' = { db with payments := db.payments ++ [pay] } := by
  unfold Db.insertPayment at h
  obtain ⟨hlate, hver, h⟩ := guards_ok h
  obtain ⟨hcur, heq, h⟩ := guards_ok h
  obtain ⟨hpos, hroute, h⟩ := guards_ok h
  obtain ⟨huniq, h⟩ := guard_ok h
  cases h
  have hq : ∀ q ∈ db.payments, q.id ≠ id ∧ sameEvidence p q = false := by simpa using huniq
  exact ⟨⟨rfl, rfl, rfl, rfl, rfl, rfl, not_le.mp hpos, rfl, rfl, by simpa using hver,
    fun q hm => (hq q hm).1, fun q hm => (hq q hm).2, by simpa using hlate⟩, rfl⟩

theorem insertSurplus_ok {s : RecoverySurplus} (h : db.insertSurplus s = .ok db') :
    (∀ x ∈ db.surpluses, x.id ≠ s.id ∧ x.recoveryPaymentId ≠ s.recoveryPaymentId) ∧
      db' = { db with surpluses := db.surpluses ++ [s] } := by
  unfold Db.insertSurplus at h
  obtain ⟨-, -, h⟩ := guards_ok h
  obtain ⟨hu, h⟩ := guard_ok h
  cases h
  exact ⟨by simpa using hu, rfl⟩

theorem insertAdjustment_ok {a : FinancialLossAdjustment} (h : db.insertAdjustment a = .ok db') :
    db' = { db with adjustments := db.adjustments ++ [a] } := by
  unfold Db.insertAdjustment at h
  split at h
  · obtain ⟨-, -, h⟩ := guards_ok h
    obtain ⟨-, h⟩ := guard_ok h
    cases h
    rfl
  · cases h

theorem updateStatus_ok {status : ObligationStatus} (h : db.updateStatus o status = .ok db') :
    db' = { db with obligations := replaceRow RecoveryObligation.id { o with status } db.obligations } := by
  unfold Db.updateStatus at h
  obtain ⟨-, h⟩ := guard_ok h
  cases h
  rfl

theorem closeRecovered_ok {a : Applied} (h : db.closeRecovered o = .ok (db', a)) :
    db' = { db with
      obligations :=
        if o.status = .open ∧ db.billing_recovery_outstanding o ≤ 0 then
          replaceRow RecoveryObligation.id { o with status := .recovered } db.obligations
        else db.obligations } := by
  unfold Db.closeRecovered at h
  by_cases hc : o.status = .open ∧ db.billing_recovery_outstanding o ≤ 0
  · rw [if_pos hc] at h
    obtain ⟨db₁, h₁, h⟩ := map_eq_ok.mp h
    cases h
    rw [if_pos hc]
    exact updateStatus_ok h₁
  · rw [if_neg hc] at h
    cases h
    rw [if_neg hc]

structure SurplusOf (pay : RecoveryPayment) (s : RecoverySurplus) : Prop where
  payment : s.recoveryPaymentId = pay.id
  obligation : s.obligationId = pay.obligationId
  amount : s.amount = pay.surplusAmount

theorem keepSurplus_ok (h : db.keepSurplus o pay id = .ok db') :
    ∃ surpluses, db' = { db with surpluses := db.surpluses ++ surpluses } ∧
      if 0 < pay.surplusAmount then
        ∃ s, surpluses = [s] ∧ SurplusOf pay s ∧ ∀ x ∈ db.surpluses, x.recoveryPaymentId ≠ pay.id
      else surpluses = [] := by
  unfold Db.keepSurplus at h
  by_cases hs : 0 < pay.surplusAmount
  · rw [if_pos hs] at h
    obtain ⟨hu, rfl⟩ := insertSurplus_ok h
    refine ⟨_, rfl, ?_⟩
    rw [if_pos hs]
    exact ⟨_, rfl, ⟨rfl, rfl, rfl⟩, fun x hx => (hu x hx).2⟩
  · rw [if_neg hs] at h
    cases h
    exact ⟨[], by simp, by rw [if_neg hs]⟩

def Db.adjustment (db : Db) (pay : RecoveryPayment) : List FinancialLossAdjustment :=
  match db.losses.find? fun f => f.obligationId = pay.obligationId with
  | none => []
  | some loss =>
    if 0 < pay.principalAmount ∧ 0 < db.remaining loss then
      [⟨loss.id, -(min pay.principalAmount (db.remaining loss)), pay.id⟩]
    else []

theorem adjustLoss_ok (h : db.adjustLoss pay = .ok db') :
    db' = { db with adjustments := db.adjustments ++ db.adjustment pay } := by
  unfold Db.adjustLoss at h
  unfold Db.adjustment
  by_cases hp : 0 < pay.principalAmount
  · rw [if_pos hp] at h
    cases hf : db.losses.find? fun f => f.obligationId = pay.obligationId with
    | none =>
      rw [hf] at h
      cases h
      simp
    | some loss =>
      simp only [hf] at h
      by_cases hr : 0 < db.remaining loss
      · rw [if_pos hr] at h
        simp only [if_pos (And.intro hp hr)]
        exact insertAdjustment_ok h
      · rw [if_neg hr] at h
        cases h
        simp [hr]
  · rw [if_neg hp] at h
    cases h
    split <;> simp [hp]

end

structure Recovers (db : Db) (o : RecoveryObligation) (p : Success) (pay : RecoveryPayment)
    (surpluses : List RecoverySurplus) (db' : Db) : Prop where
  mem : o ∈ db.obligations
  key : o.id = p.obligationId
  split : Split db o p pay
  surplus : if 0 < pay.surplusAmount then
      ∃ s, surpluses = [s] ∧ SurplusOf pay s ∧ ∀ x ∈ db.surpluses, x.recoveryPaymentId ≠ pay.id
    else surpluses = []
  writes : db' = { db with
    payments := db.payments ++ [pay]
    surpluses := db.surpluses ++ surpluses
    adjustments := db.adjustments ++ db.adjustment pay
    obligations :=
      if o.status = .open ∧ o.baseAmount - paid RecoveryPayment.principalAmount o.id (db.payments ++ [pay]) ≤ 0 then
        replaceRow RecoveryObligation.id { o with status := .recovered } db.obligations
      else db.obligations }

variable {ids : FreshIds} {db db' : Db} {p : Success} {now : Int}

theorem applyRecoveryPayment_ok {a : Applied}
    (h : applyRecoveryPayment db p ids now = .ok (db', a)) :
    ∃ o pay surpluses, Recovers db o p pay surpluses db' := by
  unfold applyRecoveryPayment at h
  cases hf : db.obligations.find? fun o => o.id = p.obligationId with
  | none =>
    rw [hf] at h
    cases h
  | some o =>
    simp only [hf] at h
    obtain ⟨⟨db₁, pay⟩, h₁, h⟩ := bind_eq_ok.mp h
    obtain ⟨db₂, h₂, h⟩ := bind_eq_ok.mp h
    obtain ⟨db₃, h₃, h₄⟩ := bind_eq_ok.mp h
    obtain ⟨hsplit, rfl⟩ := insertPayment_ok h₁
    obtain ⟨surpluses, rfl, hs⟩ := keepSurplus_ok h₂
    have hadj := adjustLoss_ok h₃
    subst hadj
    have hclose := closeRecovered_ok h₄
    exact ⟨o, pay, surpluses, List.mem_of_find?_eq_some hf, by simpa using List.find?_some hf, hsplit, hs, hclose⟩

/-! ## The accounts of the obligations -/

structure Accounts (db : Db) : Prop where
  keys : (db.obligations.map RecoveryObligation.id).Nodup
  payments : ∀ p ∈ db.payments, ∃ o ∈ db.obligations, o.id = p.obligationId
  losses : ∀ f ∈ db.losses, ∃ o ∈ db.obligations, o.id = f.obligationId
  lossKeys : ∀ f ∈ db.losses, ∀ g ∈ db.losses, f.id = g.id → f = g
  adjustments : ∀ a ∈ db.adjustments, ∃ f ∈ db.losses, f.id = a.lossId
  writtenOffOnce : ∀ f ∈ db.losses, ∀ g ∈ db.losses, f.obligationId = g.obligationId → f = g
  principal : ∀ o ∈ db.obligations,
    paid RecoveryPayment.principalAmount o.id db.payments = min o.baseAmount (paid RecoveryPayment.amount o.id db.payments)
  recovered : ∀ o ∈ db.obligations, o.status = .recovered ↔ db.billing_recovery_outstanding o = 0
  writtenOff : ∀ o ∈ db.obligations, ∀ f ∈ db.losses, f.obligationId = o.id →
    db.remaining f = db.billing_recovery_outstanding o ∧ 0 ≤ db.remaining f

theorem Accounts.congr (h : Accounts db) (ho : db'.obligations = db.obligations)
    (hp : db'.payments = db.payments) (hl : db'.losses = db.losses) (ha : db'.adjustments = db.adjustments) :
    Accounts db' := by
  have hout : ∀ o, db'.billing_recovery_outstanding o = db.billing_recovery_outstanding o := by
    intro o
    unfold Db.billing_recovery_outstanding
    rw [hp]
  have hrem : ∀ f, db'.remaining f = db.remaining f := by
    intro f
    unfold Db.remaining
    rw [ha]
  constructor
  · rw [ho]; exact h.keys
  · rw [hp, ho]; exact h.payments
  · rw [hl, ho]; exact h.losses
  · rw [hl]; exact h.lossKeys
  · rw [ha, hl]; exact h.adjustments
  · rw [hl]; exact h.writtenOffOnce
  · rw [ho, hp]; exact h.principal
  · rw [ho]; simpa only [hout] using h.recovered
  · rw [ho, hl]; simpa only [hout, hrem] using h.writtenOff

theorem eq_open {s : ObligationStatus} (h : s ≠ .recovered) : s = .open := by
  cases s <;> trivial

variable {f : FinancialLoss}

section
variable {db db' : Db} {o o' : RecoveryObligation} {p : Success} {pay : RecoveryPayment} {surpluses : List RecoverySurplus}

section
variable (h : Recovers db o p pay surpluses db')
include h

theorem Recovers.fills (ha : Accounts db) :
    pay.obligationId = o.id ∧
    paid RecoveryPayment.principalAmount o.id db'.payments = min o.baseAmount (paid RecoveryPayment.amount o.id db'.payments) ∧
    db'.billing_recovery_outstanding o = db.billing_recovery_outstanding o - pay.principalAmount ∧
    0 ≤ pay.principalAmount ∧ pay.principalAmount ≤ db.billing_recovery_outstanding o := by
  have hk : pay.obligationId = o.id := h.split.obligation.trans h.key.symm
  have hold := ha.principal o h.mem
  have hs := h.split.principal
  have hpos := h.split.positive
  have hamount := h.split.amount
  have hp' : db'.payments = db.payments ++ [pay] := by rw [h.writes]
  unfold Db.billing_recovery_outstanding at hs ⊢
  rw [hp', paid_append, paid_append, if_pos hk, if_pos hk]
  refine ⟨hk, ?_, ?_, ?_, ?_⟩ <;> omega

theorem Recovers.others (ha : Accounts db) (hne : o'.id ≠ o.id) :
    (∀ f, paid f o'.id db'.payments = paid f o'.id db.payments) ∧
    ∀ f ∈ db.losses, f.obligationId = o'.id → db'.remaining f = db.remaining f := by
  have hk : pay.obligationId = o.id := h.split.obligation.trans h.key.symm
  have hp' : db'.payments = db.payments ++ [pay] := by rw [h.writes]
  have ha' : db'.adjustments = db.adjustments ++ db.adjustment pay := by rw [h.writes]
  refine ⟨fun f => ?_, fun f hf hfo => ?_⟩
  · rw [hp', paid_append, if_neg (by rw [hk]; exact Ne.symm hne), Int.add_zero]
  · unfold Db.remaining
    rw [ha']
    unfold Db.adjustment
    cases hl : db.losses.find? fun f => f.obligationId = pay.obligationId with
    | none => simp
    | some loss =>
      have hlo : loss.obligationId = pay.obligationId := by simpa using List.find?_some hl
      have hid : loss.id ≠ f.id := by
        intro he
        have := ha.lossKeys loss (List.mem_of_find?_eq_some hl) f hf he
        apply hne
        rw [← hfo, ← this, hlo, hk]
      dsimp only
      split
      · rw [adjusted_append, if_neg hid, Int.add_zero]
      · simp

theorem Recovers.reduces (ha : Accounts db)
    (hf : f ∈ db.losses) (hfo : f.obligationId = o.id) :
    db'.remaining f = db'.billing_recovery_outstanding o ∧ 0 ≤ db'.remaining f := by
  obtain ⟨hk, -, hout, hnn, hle⟩ := h.fills ha
  obtain ⟨hold, -⟩ := ha.writtenOff o h.mem f hf hfo
  have hl : db.losses.find? (fun f => f.obligationId = pay.obligationId) = some f := by
    have hs : (db.losses.find? fun f => f.obligationId = pay.obligationId).isSome :=
      List.find?_isSome.mpr ⟨f, hf, by simp [hfo, hk]⟩
    obtain ⟨g, hg⟩ := Option.isSome_iff_exists.mp hs
    have hgo : g.obligationId = pay.obligationId := by simpa using List.find?_some hg
    rw [hg, ha.writtenOffOnce g (List.mem_of_find?_eq_some hg) f hf (by rw [hgo, hk, hfo])]
  have ha' : db'.adjustments = db.adjustments ++ db.adjustment pay := by rw [h.writes]
  have hrem : db'.remaining f = db.remaining f - pay.principalAmount := by
    unfold Db.adjustment at ha'
    rw [hl] at ha'
    dsimp only at ha'
    by_cases hc : 0 < pay.principalAmount ∧ 0 < db.remaining f
    · rw [if_pos hc] at ha'
      unfold Db.remaining at hold ⊢
      rw [ha', adjusted_append, if_pos rfl]
      unfold Db.remaining
      dsimp only
      omega
    · rw [if_neg hc, List.append_nil] at ha'
      unfold Db.remaining at hold hc ⊢
      rw [ha']
      omega
  rw [hrem, hout, hold]
  exact ⟨rfl, by omega⟩

theorem Recovers.accounts (ha : Accounts db) : Accounts db' := by
  obtain ⟨hk, hprincipal, hout, hnn, hle⟩ := h.fills ha
  have hp' : db'.payments = db.payments ++ [pay] := by rw [h.writes]
  have hl' : db'.losses = db.losses := by rw [h.writes]
  have ha' : db'.adjustments = db.adjustments ++ db.adjustment pay := by rw [h.writes]
  have hids : db'.obligations.map RecoveryObligation.id = db.obligations.map RecoveryObligation.id := by
    rw [h.writes]
    dsimp only
    split
    · exact map_replaceRow fun x _ hx => hx
    · rfl
  have hsame : ∀ id, (∃ x ∈ db.obligations, x.id = id) → ∃ x ∈ db'.obligations, x.id = id := by
    intro id hx
    have : id ∈ db'.obligations.map RecoveryObligation.id := by rw [hids]; simpa using hx
    simpa using this
  -- a row of the obligation is the row with its new status; every other row is as it was
  have hrow : ∀ x ∈ db'.obligations, (x.id ≠ o.id ∧ x ∈ db.obligations) ∨
      (x.id = o.id ∧ x.baseAmount = o.baseAmount ∧
        (x.status = .recovered ↔ db'.billing_recovery_outstanding o = 0)) := by
    intro x hx
    have hrec := ha.recovered o h.mem
    rw [h.writes] at hx
    unfold Db.billing_recovery_outstanding at hout hle hrec ⊢
    rw [hp'] at hout ⊢
    dsimp only at hx
    split at hx
    · rename_i hc
      rcases mem_replaceRow hx with rfl | ⟨hx, hne⟩
      · refine .inr ⟨rfl, rfl, ?_⟩
        simp only [true_iff]
        omega
      · exact .inl ⟨hne, hx⟩
    · rename_i hc
      by_cases hx' : x.id = o.id
      · have : x = o := eq_of_key ha.keys hx h.mem hx'
        subst this
        refine .inr ⟨rfl, rfl, ?_⟩
        by_cases hs : x.status = .recovered
        · have := hrec.mp hs
          rw [hs]
          simp only [true_iff]
          omega
        · have : ¬ x.baseAmount - paid RecoveryPayment.principalAmount x.id (db.payments ++ [pay]) ≤ 0 :=
            fun h => hc ⟨eq_open hs, h⟩
          simp only [hs, false_iff]
          omega
      · exact .inl ⟨hx', hx⟩
  constructor
  · rw [hids]; exact ha.keys
  · intro q hq
    apply hsame
    rw [hp'] at hq
    rcases mem_append_row hq with hq | rfl
    · exact ha.payments q hq
    · exact ⟨o, h.mem, hk.symm⟩
  · intro f hf
    rw [hl'] at hf
    exact hsame _ (ha.losses f hf)
  · rw [hl']; exact ha.lossKeys
  · rw [hl', ha']
    intro a hm
    rcases List.mem_append.mp hm with hm | hm
    · exact ha.adjustments a hm
    · unfold Db.adjustment at hm
      cases hl : db.losses.find? fun f => f.obligationId = pay.obligationId with
      | none => simp [hl] at hm
      | some loss =>
        rw [hl] at hm
        dsimp only at hm
        split at hm
        · rw [List.mem_singleton.mp hm]
          exact ⟨loss, List.mem_of_find?_eq_some hl, rfl⟩
        · cases hm
  · rw [hl']; exact ha.writtenOffOnce
  · intro x hx
    rcases hrow x hx with ⟨hne, hx⟩ | ⟨hid, hbase, -⟩
    · rw [(h.others ha hne).1, (h.others ha hne).1]
      exact ha.principal x hx
    · rw [hid, hbase]
      exact hprincipal
  · intro x hx
    rcases hrow x hx with ⟨hne, hx⟩ | ⟨hid, hbase, hs⟩
    · unfold Db.billing_recovery_outstanding
      rw [(h.others ha hne).1]
      exact ha.recovered x hx
    · unfold Db.billing_recovery_outstanding at hs ⊢
      rw [hid, hbase]
      exact hs
  · intro x hx f hf hfo
    rw [hl'] at hf
    rcases hrow x hx with ⟨hne, hx⟩ | ⟨hid, hbase, -⟩
    · obtain ⟨ho₁, ho₂⟩ := h.others ha hne
      rw [ho₂ f hf hfo]
      unfold Db.billing_recovery_outstanding
      rw [ho₁]
      exact ha.writtenOff x hx f hf hfo
    · have := h.reduces ha hf (hfo.trans hid)
      unfold Db.billing_recovery_outstanding at this ⊢
      rw [hid, hbase]
      exact this

end

end

theorem insertWriteOff_ok (h : db.insertWriteOff f = .ok db') :
    ∃ o ∈ db.obligations, o.id = f.obligationId ∧ f.amount = db.billing_recovery_outstanding o ∧ 0 < f.amount ∧
      (∀ x ∈ db.losses, x.id ≠ f.id ∧ x.obligationId ≠ f.obligationId) ∧ db' = { db with losses := db.losses ++ [f] } := by
  unfold Db.insertWriteOff at h
  cases hf : db.obligations.find? fun o => o.id = f.obligationId with
  | none =>
    rw [hf] at h
    cases h
  | some o =>
    simp only [hf] at h
    obtain ⟨hg, hu, h⟩ := guards_ok h
    cases h
    simp only [not_or, not_not] at hg
    obtain ⟨-, -, -, -, hpos, hamount⟩ := hg
    exact ⟨o, List.mem_of_find?_eq_some hf, by simpa using List.find?_some hf, hamount, by omega, by simpa using hu, rfl⟩

theorem Accounts.writeOff (ha : Accounts db) (h : db.insertWriteOff f = .ok db') :
    Accounts db' := by
  obtain ⟨o, ho, hk, hamount, hpos, hfresh, rfl⟩ := insertWriteOff_ok h
  have hmem : ∀ g ∈ db.losses ++ [f], g ∈ db.losses ∨ g = f := by
    intro g hg
    simpa using hg
  constructor
  · exact ha.keys
  · exact ha.payments
  · intro g hg
    rcases hmem g hg with hg | rfl
    · exact ha.losses g hg
    · exact ⟨o, ho, hk⟩
  · intro g hg g' hg' he
    rcases hmem g hg with hm | rfl <;> rcases hmem g' hg' with hm' | rfl
    · exact ha.lossKeys g hm g' hm' he
    · exact absurd he (hfresh g hm).1
    · exact absurd he.symm (hfresh g' hm').1
    · rfl
  · intro a hm
    obtain ⟨g, hg, he⟩ := ha.adjustments a hm
    exact ⟨g, List.mem_append_left _ hg, he⟩
  · intro g hg g' hg' he
    rcases hmem g hg with hm | rfl <;> rcases hmem g' hg' with hm' | rfl
    · exact ha.writtenOffOnce g hm g' hm' he
    · exact absurd he (hfresh g hm).2
    · exact absurd he.symm (hfresh g' hm').2
    · rfl
  · exact ha.principal
  · exact ha.recovered
  · intro x hx g hg hgo
    rcases hmem g hg with hg | rfl
    · exact ha.writtenOff x hx g hg hgo
    · have hxo : x = o := eq_of_key ha.keys hx ho (hgo.symm.trans hk.symm)
      have hnone : adjusted g.id db.adjustments = 0 := by
        refine adjusted_none fun a hm he => ?_
        obtain ⟨f', hf', hid⟩ := ha.adjustments a hm
        exact (hfresh f' hf').1 (hid.trans he)
      subst hxo
      have hrem : g.amount + adjusted g.id db.adjustments = db.billing_recovery_outstanding x := by omega
      exact ⟨hrem, by unfold Db.remaining; dsimp only; omega⟩

variable {o : RecoveryObligation}

theorem Accounts.opened (ha : Accounts db)
    (h : db.record (.obligation o) = .ok db') : Accounts db' := by
  unfold Db.record at h
  obtain ⟨hfresh, hopen, h⟩ := guards_ok h
  obtain ⟨hbase, h⟩ := guard_ok h
  cases h
  have hfresh : ∀ x ∈ db.obligations, x.id ≠ o.id := by simpa using hfresh
  have hopen : o.status = .open := by simpa using hopen
  have hnone : ∀ f, paid f o.id db.payments = 0 := by
    intro f
    refine paid_none fun p hp he => ?_
    obtain ⟨x, hx, hid⟩ := ha.payments p hp
    exact hfresh x hx (hid.trans he)
  have hmem : ∀ x ∈ db.obligations ++ [o], x ∈ db.obligations ∨ x = o := by
    intro x hx
    simpa using hx
  constructor
  · exact nodup_append_row ha.keys hfresh
  · intro p hp
    obtain ⟨x, hx, he⟩ := ha.payments p hp
    exact ⟨x, List.mem_append_left _ hx, he⟩
  · intro f hf
    obtain ⟨x, hx, he⟩ := ha.losses f hf
    exact ⟨x, List.mem_append_left _ hx, he⟩
  · exact ha.lossKeys
  · exact ha.adjustments
  · exact ha.writtenOffOnce
  · intro x hx
    rcases hmem x hx with hx | rfl
    · exact ha.principal x hx
    · rw [hnone, hnone]
      omega
  · intro x hx
    rcases hmem x hx with hx | rfl
    · exact ha.recovered x hx
    · unfold Db.billing_recovery_outstanding
      rw [hnone, hopen]
      simp only [reduceCtorEq, false_iff]
      omega
  · intro x hx f hf hfo
    rcases hmem x hx with hx | rfl
    · exact ha.writtenOff x hx f hf hfo
    · obtain ⟨y, hy, hid⟩ := ha.losses f hf
      exact absurd (hid.trans hfo) (hfresh y hy)

/-! ## Surpluses -/

structure Surpluses (db : Db) : Prop where
  keys : (db.payments.map RecoveryPayment.id).Nodup
  split : ∀ p ∈ db.payments, 0 ≤ p.principalAmount ∧ 0 ≤ p.surplusAmount ∧ p.principalAmount + p.surplusAmount = p.amount
  owed : ∀ p ∈ db.payments, (0 < p.surplusAmount ↔ ∃ s ∈ db.surpluses, SurplusOf p s)
  once : ∀ s ∈ db.surpluses, ∀ t ∈ db.surpluses, s.recoveryPaymentId = t.recoveryPaymentId → s = t
  paid : ∀ s ∈ db.surpluses, ∃ p ∈ db.payments, SurplusOf p s

theorem Surpluses.congr (h : Surpluses db) (hp : db'.payments = db.payments)
    (hs : db'.surpluses = db.surpluses) : Surpluses db' := by
  constructor
  · rw [hp]; exact h.keys
  · rw [hp]; exact h.split
  · rw [hp, hs]; exact h.owed
  · rw [hs]; exact h.once
  · rw [hp, hs]; exact h.paid

variable {pay : RecoveryPayment}

theorem Recovers.surpluses
    {surpluses : List RecoverySurplus} (h : Recovers db o p pay surpluses db') (hs : Surpluses db) : Surpluses db' := by
  have hp' : db'.payments = db.payments ++ [pay] := by rw [h.writes]
  have hs' : db'.surpluses = db.surpluses ++ surpluses := by rw [h.writes]
  have hfresh := h.split.fresh
  -- an old surplus belongs to an old payment
  have hold : ∀ s ∈ db.surpluses, s.recoveryPaymentId ≠ pay.id := by
    intro s hm he
    obtain ⟨q, hq, hsq⟩ := hs.paid s hm
    exact hfresh q hq (hsq.payment.symm.trans he)
  have hnew : ∀ s ∈ surpluses, SurplusOf pay s ∧ 0 < pay.surplusAmount := by
    intro s hm
    have := h.surplus
    split at this
    · obtain ⟨t, rfl, ht, -⟩ := this
      rw [List.mem_singleton.mp hm]
      exact ⟨ht, by assumption⟩
    · rw [this] at hm
      cases hm
  constructor
  · rw [hp']
    exact nodup_append_row hs.keys hfresh
  · intro q hq
    rw [hp'] at hq
    rcases mem_append_row hq with hq | hq
    · exact hs.split q hq
    · have hprincipal := h.split.principal
      have hsurplus := h.split.surplus
      have hpos := h.split.positive
      have hamount := h.split.amount
      rw [hq]
      refine ⟨?_, ?_, ?_⟩ <;> omega
  · intro q hq
    rw [hp'] at hq
    rw [hs']
    rcases mem_append_row hq with hq | rfl
    · refine (hs.owed q hq).trans ⟨?_, ?_⟩
      · rintro ⟨s, hm, hsq⟩
        exact ⟨s, List.mem_append_left _ hm, hsq⟩
      · rintro ⟨s, hm, hsq⟩
        rcases List.mem_append.mp hm with hm | hm
        · exact ⟨s, hm, hsq⟩
        · exact absurd (hsq.payment.symm.trans (hnew s hm).1.payment) (hfresh q hq)
    · refine ⟨fun hpos => ?_, ?_⟩
      · have := h.surplus
        rw [if_pos hpos] at this
        obtain ⟨s, rfl, hsp, -⟩ := this
        exact ⟨s, by simp, hsp⟩
      · rintro ⟨s, hm, hsp⟩
        rcases List.mem_append.mp hm with hm | hm
        · exact absurd hsp.payment (hold s hm)
        · exact (hnew s hm).2
  · rw [hs']
    intro s hm t ht he
    rcases List.mem_append.mp hm with hm | hm <;> rcases List.mem_append.mp ht with ht | ht
    · exact hs.once s hm t ht he
    · exact absurd (he.trans (hnew t ht).1.payment) (hold s hm)
    · exact absurd (he.symm.trans (hnew s hm).1.payment) (hold t ht)
    · have := h.surplus
      split at this
      · obtain ⟨u, rfl, -, -⟩ := this
        rw [List.mem_singleton.mp hm, List.mem_singleton.mp ht]
      · rw [this] at hm
        cases hm
  · rw [hs', hp']
    intro s hm
    rcases List.mem_append.mp hm with hm | hm
    · obtain ⟨q, hq, hsq⟩ := hs.paid s hm
      exact ⟨q, List.mem_append_left _ hq, hsq⟩
    · exact ⟨pay, by simp, (hnew s hm).1⟩

/-! ## The evidence of a payment -/

def Db.behind (db : Db) (p : RecoveryPayment) : Prop :=
  match p.evidence with
  | .receipt receiptId =>
    ∃ r ∈ db.requests, r.id = p.paymentRequestId ∧ r.invoiceId = p.invoiceId ∧ r.status = .paid ∧ r.amount = p.amount ∧
      r.currency = p.currency ∧
      ∃ x ∈ db.receipts, x.id = receiptId ∧ x.paymentRequestId = r.id ∧ x.eventName = .succeeded ∧ x.outcome = .applied
  | .lateSuccess lateSuccessId =>
    ∃ l ∈ db.lateSuccesses, l.lateSuccessId = lateSuccessId ∧ l.paymentRequestId = p.paymentRequestId ∧
      l.amount = p.amount ∧ l.currency = p.currency

def Db.counted (db : Db) (x : Receipt) : Prop :=
  x.eventName = .succeeded → x.outcome = .applied → ∀ r ∈ db.requests, r.id = x.paymentRequestId →
    ∀ o, db.recoveryObligation r = some o →
      ∃ p ∈ db.payments, p.evidence = .receipt x.id ∧ p.obligationId = o ∧ p.amount = r.amount

structure SameRequest (r s : PaymentRequest) : Prop where
  id : s.id = r.id
  invoice : s.invoiceId = r.invoiceId
  amount : s.amount = r.amount
  currency : s.currency = r.currency
  paid : r.status = .paid → s.status = .paid

structure Later (db db' : Db) : Prop where
  kept : ∀ r ∈ db.requests, ∃ s ∈ db'.requests, SameRequest r s
  known : ∀ s ∈ db'.requests, (∃ r ∈ db.requests, SameRequest r s) ∨ ∀ r ∈ db.requests, r.id ≠ s.id
  invoices : ∀ r ∈ db.requests, db'.recoveryObligation r = db.recoveryObligation r
  receipts : db.receipts ⊆ db'.receipts
  lateSuccesses : db.lateSuccesses ⊆ db'.lateSuccesses
  payments : db.payments ⊆ db'.payments

theorem SameRequest.refl (r : PaymentRequest) : SameRequest r r := ⟨rfl, rfl, rfl, rfl, fun h => h⟩

variable {r : PaymentRequest} {db : Db}

theorem recoveryObligation_congr {s : PaymentRequest} (h : SameRequest r s) :
    db.recoveryObligation s = db.recoveryObligation r := by
  unfold Db.recoveryObligation
  rw [h.invoice]

theorem Later.behind (h : Later db db') {p : RecoveryPayment} (hp : db.behind p) : db'.behind p := by
  unfold Db.behind at hp ⊢
  cases he : p.evidence with
  | receipt receiptId =>
    rw [he] at hp
    obtain ⟨r, hr, hid, hinv, hpaid, hamount, hcur, x, hx, hxs⟩ := hp
    obtain ⟨s, hs, hsame⟩ := h.kept r hr
    refine ⟨s, hs, hsame.id.trans hid, hsame.invoice.trans hinv, hsame.paid hpaid, hsame.amount.trans hamount,
      hsame.currency.trans hcur, x, h.receipts hx, ?_⟩
    rw [hsame.id]
    exact hxs
  | lateSuccess l =>
    rw [he] at hp
    obtain ⟨x, hx, hxs⟩ := hp
    exact ⟨x, h.lateSuccesses hx, hxs⟩

theorem Later.counted (h : Later db db') {x : Receipt}
    (hreq : x.eventName = .succeeded → x.outcome = .applied → ∃ r ∈ db.requests, r.id = x.paymentRequestId)
    (hx : db.counted x) : db'.counted x := by
  intro hn ho s hs hid o hobl
  rcases h.known s hs with ⟨r, hr, hsame⟩ | hfresh
  · rw [recoveryObligation_congr hsame, h.invoices r hr] at hobl
    obtain ⟨p, hp, he, hpo, ha⟩ := hx hn ho r hr (hsame.id.symm.trans hid) o hobl
    exact ⟨p, h.payments hp, he, hpo, ha.trans hsame.amount.symm⟩
  · obtain ⟨r, hr, hrid⟩ := hreq hn ho
    exact absurd (hrid.trans hid.symm) (hfresh r hr)

structure Evidenced (db : Db) : Prop where
  requestKeys : (db.requests.map PaymentRequest.id).Nodup
  receiptKeys : (db.receipts.map Receipt.id).Nodup
  lateKeys : (db.lateSuccesses.map PaymentLateSuccess.lateSuccessId).Nodup
  facts : UniqueOn (fun l => l.factId ≠ none) PaymentLateSuccess.factId db.lateSuccesses
  invoiced : ∀ r ∈ db.requests, ∃ i ∈ db.invoices, i.id = r.invoiceId
  applied : ∀ x ∈ db.receipts, x.eventName = .succeeded → x.outcome = .applied → ∃ r ∈ db.requests, r.id = x.paymentRequestId
  behind : ∀ p ∈ db.payments, db.behind p
  once : ∀ p ∈ db.payments, ∀ q ∈ db.payments, p.evidence = q.evidence → p = q
  requestOnce : ∀ p ∈ db.payments, ∀ q ∈ db.payments, ∀ a b, p.evidence = .receipt a → q.evidence = .receipt b →
    p.paymentRequestId = q.paymentRequestId → p = q

theorem Recovers.later
    {surpluses : List RecoverySurplus} (h : Recovers db o p pay surpluses db') : Later db db' := by
  rw [h.writes]
  exact ⟨fun r hr => ⟨r, hr, .refl r⟩, fun s hs => .inl ⟨s, hs, .refl s⟩, fun _ _ => rfl, fun _ hx => hx, fun _ hx => hx,
    fun _ hx => List.mem_append_left _ hx⟩

theorem Split.behind (h : Split db o p pay) :
    db.behind pay := by
  have hv := h.verified
  unfold Db.verified at hv
  unfold Db.behind
  rw [h.evidence, h.request, h.invoice, h.amount, h.currency]
  cases hf : db.requests.find? fun r => r.id = p.paymentRequestId with
  | none => simp [hf] at hv
  | some r =>
    have hr := List.mem_of_find?_eq_some hf
    have hid : r.id = p.paymentRequestId := by simpa using List.find?_some hf
    simp only [hf] at hv
    cases he : p.evidence with
    | receipt receiptId =>
      simp only [he] at hv
      obtain ⟨hinv, hpaid, hamount, hcur, hx⟩ := of_decide_eq_true hv
      obtain ⟨x, hx, hxs⟩ := List.any_eq_true.mp hx
      exact ⟨r, hr, hid, hinv, hpaid, hamount.symm, hcur.symm, x, hx, of_decide_eq_true hxs⟩
    | lateSuccess l =>
      simp only [he] at hv
      obtain ⟨x, hx, hxs⟩ := List.any_eq_true.mp hv
      obtain ⟨hlid, hreq, -, hamount, hcur⟩ := of_decide_eq_true hxs
      exact ⟨x, hx, hlid, hreq, hamount, hcur⟩

theorem Recovers.evidenced
    {surpluses : List RecoverySurplus} (h : Recovers db o p pay surpluses db') (hi : Evidenced db) : Evidenced db' := by
  have hlater := h.later
  have hpay : db'.behind pay := hlater.behind h.split.behind
  have hu : ∀ q ∈ db.payments, q.evidence ≠ pay.evidence ∧
      ∀ a b, q.evidence = .receipt a → pay.evidence = .receipt b → q.paymentRequestId ≠ pay.paymentRequestId := by
    intro q hq
    have := h.split.unique q hq
    unfold sameEvidence at this
    rw [h.split.evidence, h.split.request]
    refine ⟨fun he => ?_, fun a b ha hb hr => ?_⟩
    · rw [he] at this
      cases hp : p.evidence <;> simp [hp] at this
    · simp [ha, hb, hr] at this
  rw [h.writes] at hlater hpay ⊢
  have hmem : ∀ q ∈ db.payments ++ [pay], q ∈ db.payments ∨ q = pay := by
    intro q hq
    simpa using hq
  constructor
  · exact hi.requestKeys
  · exact hi.receiptKeys
  · exact hi.lateKeys
  · exact hi.facts
  · exact hi.invoiced
  · exact hi.applied
  · intro q hq
    rcases hmem q hq with hm | rfl
    · exact hlater.behind (hi.behind q hm)
    · exact hpay
  · intro q hq q' hq' he
    rcases hmem q hq with hm | rfl <;> rcases hmem q' hq' with hm' | rfl
    · exact hi.once q hm q' hm' he
    · exact absurd he (hu q hm).1
    · exact absurd he.symm (hu q' hm').1
    · rfl
  · intro q hq q' hq' a b ha hb he
    rcases hmem q hq with hm | rfl <;> rcases hmem q' hq' with hm' | rfl
    · exact hi.requestOnce q hm q' hm' a b ha hb he
    · exact absurd he ((hu q hm).2 a b ha hb)
    · exact absurd he.symm ((hu q' hm').2 b a hb ha)
    · rfl

/-! ## The rest of Billing -/

theorem recoveryObligation_append {i : Invoice}
    (hr : ∃ i ∈ db.invoices, i.id = r.invoiceId) :
    Db.recoveryObligation { db with invoices := db.invoices ++ [i] } r = db.recoveryObligation r := by
  obtain ⟨j, hj, hid⟩ := hr
  unfold Db.recoveryObligation
  dsimp only
  rw [List.find?_append]
  have hs : (db.invoices.find? fun i => i.id = r.invoiceId).isSome :=
    List.find?_isSome.mpr ⟨j, hj, by simpa using hid⟩
  rw [Option.or_of_isSome hs]

theorem Later.same (hr : db'.requests = db.requests) (hi : db'.invoices = db.invoices)
    (hx : db'.receipts = db.receipts) (hl : db'.lateSuccesses = db.lateSuccesses) (hp : db'.payments = db.payments) :
    Later db db' := by
  refine ⟨fun r hm => ⟨r, hr ▸ hm, .refl r⟩, fun s hm => .inl ⟨s, hr ▸ hm, .refl s⟩, fun r _ => ?_, hx ▸ fun _ h => h,
    hl ▸ fun _ h => h, hp ▸ fun _ h => h⟩
  unfold Db.recoveryObligation
  rw [hi]

theorem Later.restatus (hi : Evidenced db) {status : PaymentRequestStatus}
    (hr : r ∈ db.requests) (ht : transitionAllowed r.status status) :
    Later db { db with requests := replaceRow PaymentRequest.id { r with status } db.requests } := by
  have hsame : SameRequest r { r with status } := by
    refine ⟨rfl, rfl, rfl, rfl, fun hp => ?_⟩
    rw [hp] at ht
    cases ht
  have heq : ∀ x ∈ db.requests, x.id = r.id → x = r := fun x hx he => eq_of_key hi.requestKeys hx hr he
  refine ⟨fun x hx => ?_, fun s hs => .inl ?_, fun _ _ => rfl, fun _ hx => hx, fun _ hx => hx, fun _ hx => hx⟩
  · by_cases he : x.id = r.id
    · rw [heq x hx he]
      exact ⟨_, replaceRow_mem hr rfl, hsame⟩
    · exact ⟨x, replaceRow_other hx he, .refl x⟩
  · rcases mem_replaceRow hs with rfl | ⟨hs, -⟩
    · exact ⟨r, hr, hsame⟩
    · exact ⟨s, hs, .refl s⟩

theorem Evidenced.later (hi : Evidenced db) (h : Later db db') (hp : db'.payments = db.payments)
    (hreq : (db'.requests.map PaymentRequest.id).Nodup) (hrec : (db'.receipts.map Receipt.id).Nodup)
    (hlate : (db'.lateSuccesses.map PaymentLateSuccess.lateSuccessId).Nodup)
    (hfacts : UniqueOn (fun l => l.factId ≠ none) PaymentLateSuccess.factId db'.lateSuccesses)
    (hinv : ∀ r ∈ db'.requests, ∃ i ∈ db'.invoices, i.id = r.invoiceId)
    (happ : ∀ x ∈ db'.receipts, x ∈ db.receipts ∨
      (x.eventName = .succeeded → x.outcome = .applied → ∃ r ∈ db'.requests, r.id = x.paymentRequestId)) :
    Evidenced db' := by
  refine ⟨hreq, hrec, hlate, hfacts, hinv, ?_, ?_, ?_, ?_⟩
  · intro x hx hn ho
    rcases happ x hx with hx | hx
    · obtain ⟨r, hr, hid⟩ := hi.applied x hx hn ho
      obtain ⟨s, hs, hsame⟩ := h.kept r hr
      exact ⟨s, hs, hsame.id.trans hid⟩
    · exact hx hn ho
  · rw [hp]
    exact fun p hm => h.behind (hi.behind p hm)
  · rw [hp]; exact hi.once
  · rw [hp]; exact hi.requestOnce

structure Holds (db : Db) : Prop where
  accounts : Accounts db
  surpluses : Surpluses db
  evidenced : Evidenced db
  counted : ∀ x ∈ db.receipts, db.counted x

theorem Holds.counted_later (hi : Holds db) (h : Later db db') {x : Receipt} (hx : x ∈ db.receipts) :
    db'.counted x :=
  h.counted (hi.evidenced.applied x hx) (hi.counted x hx)

theorem Recovers.holds
    {surpluses : List RecoverySurplus} (h : Recovers db o p pay surpluses db') (ha : Accounts db) (hs : Surpluses db)
    (he : Evidenced db) (hc : ∀ x ∈ db.receipts, x.eventName = .succeeded → x.outcome = .applied →
      p.evidence ≠ .receipt x.id → db.counted x)
    (hnew : ∀ x ∈ db.receipts, p.evidence = .receipt x.id → db'.counted x) : Holds db' := by
  refine ⟨h.accounts ha, h.surpluses hs, h.evidenced he, fun x hx => ?_⟩
  have hx : x ∈ db.receipts := by rwa [h.writes] at hx
  by_cases hp : p.evidence = .receipt x.id
  · exact hnew x hx hp
  · intro hn ho
    exact h.later.counted (he.applied x hx) (hc x hx hn ho hp) hn ho

section
variable (hi : Holds db)
include hi

theorem record_holds {r : Record} (h : db.record r = .ok db') : Holds db' := by
  obtain ⟨ha, hs, he, hc⟩ := id hi
  cases r with
  | obligation o =>
    have ha' := ha.opened h
    unfold Db.record at h
    obtain ⟨-, -, h⟩ := guards_ok h
    obtain ⟨-, h⟩ := guard_ok h
    cases h
    exact ⟨ha', hs.congr rfl rfl, he.later (.same rfl rfl rfl rfl rfl) rfl he.requestKeys he.receiptKeys he.lateKeys he.facts he.invoiced
      fun x hx => .inl hx, hc⟩
  | invoice i =>
    unfold Db.record at h
    obtain ⟨-, -, h⟩ := guards_ok h
    cases h
    have hl : Later db { db with invoices := db.invoices ++ [i] } :=
      ⟨fun r hr => ⟨r, hr, .refl r⟩, fun s hs => .inl ⟨s, hs, .refl s⟩,
        fun r hr => recoveryObligation_append (he.invoiced r hr), fun _ hx => hx, fun _ hx => hx, fun _ hx => hx⟩
    refine ⟨ha.congr rfl rfl rfl rfl, hs.congr rfl rfl, he.later hl rfl he.requestKeys he.receiptKeys he.lateKeys he.facts
      (fun r hr => ?_) fun x hx => .inl hx, fun x hx => hi.counted_later hl hx⟩
    obtain ⟨j, hj, hid⟩ := he.invoiced r hr
    exact ⟨j, List.mem_append_left _ hj, hid⟩
  | request r =>
    unfold Db.record at h
    obtain ⟨hfresh, hinv, h⟩ := guards_ok h
    obtain ⟨-, h⟩ := guard_ok h
    cases h
    have hfresh : ∀ x ∈ db.requests, x.id ≠ r.id := by simpa using hfresh
    have hl : Later db { db with requests := db.requests ++ [r] } := by
      refine ⟨fun x hx => ⟨x, List.mem_append_left _ hx, .refl x⟩, fun s hs => ?_, fun _ _ => rfl, fun _ hx => hx,
        fun _ hx => hx, fun _ hx => hx⟩
      rcases mem_append_row hs with hs | rfl
      · exact .inl ⟨s, hs, .refl s⟩
      · exact .inr hfresh
    refine ⟨ha.congr rfl rfl rfl rfl, hs.congr rfl rfl, he.later hl rfl (nodup_append_row he.requestKeys hfresh)
      he.receiptKeys he.lateKeys he.facts (fun x hx => ?_) fun x hx => .inl hx, fun x hx => hi.counted_later hl hx⟩
    rcases mem_append_row hx with hx | rfl
    · exact he.invoiced x hx
    · simp only [not_not, List.any_eq_true, decide_eq_true_eq] at hinv
      obtain ⟨i, hi, hid, -⟩ := hinv
      exact ⟨i, hi, hid⟩
  | requestStatus r status =>
    unfold Db.record at h
    obtain ⟨hr, ht, h⟩ := guards_ok h
    cases h
    have hr : r ∈ db.requests := not_not.mp hr
    have ht : transitionAllowed r.status status := by
      simp only [not_or, not_not] at ht
      exact ht.1
    have hl := Later.restatus he hr ht
    refine ⟨ha.congr rfl rfl rfl rfl, hs.congr rfl rfl, he.later hl rfl ?_ he.receiptKeys he.lateKeys he.facts
      (fun x hx => ?_) fun x hx => .inl hx, fun x hx => hi.counted_later hl hx⟩
    · dsimp only
      rw [map_replaceRow fun x _ hx => hx]
      exact he.requestKeys
    · rcases mem_replaceRow hx with rfl | ⟨hx, -⟩
      · exact he.invoiced r hr
      · exact he.invoiced x hx
  | receipt x =>
    unfold Db.record at h
    obtain ⟨hfresh, hx, h⟩ := guards_ok h
    cases h
    have hl : Later db { db with receipts := db.receipts ++ [x] } :=
      ⟨fun r hr => ⟨r, hr, .refl r⟩, fun s hs => .inl ⟨s, hs, .refl s⟩, fun _ _ => rfl,
        fun _ hx => List.mem_append_left _ hx, fun _ hx => hx, fun _ hx => hx⟩
    refine ⟨ha.congr rfl rfl rfl rfl, hs.congr rfl rfl, he.later hl rfl he.requestKeys
      (nodup_append_row he.receiptKeys (by simpa using hfresh)) he.lateKeys he.facts he.invoiced (fun y hy => ?_),
      fun y hy => ?_⟩
    · rcases mem_append_row hy with hy | rfl
      · exact .inl hy
      · exact .inr fun hn ho => absurd ⟨hn, ho⟩ hx
    · rcases mem_append_row hy with hy | rfl
      · exact hi.counted_later hl hy
      · exact fun hn ho => absurd ⟨hn, ho⟩ hx
  | lateSuccess l =>
    unfold Db.record at h
    obtain ⟨hfresh, -, h⟩ := guards_ok h
    cases h
    have hfresh : ∀ x ∈ db.lateSuccesses, x.lateSuccessId ≠ l.lateSuccessId ∧ (l.factId ≠ none → x.factId ≠ l.factId) := by
      simpa using hfresh
    have hl : Later db { db with lateSuccesses := db.lateSuccesses ++ [l] } :=
      ⟨fun r hr => ⟨r, hr, .refl r⟩, fun s hs => .inl ⟨s, hs, .refl s⟩, fun _ _ => rfl, fun _ hx => hx,
        fun _ hx => List.mem_append_left _ hx, fun _ hx => hx⟩
    exact ⟨ha.congr rfl rfl rfl rfl, hs.congr rfl rfl, he.later hl rfl he.requestKeys he.receiptKeys
      (nodup_append_row he.lateKeys fun x hx => (hfresh x hx).1)
      (he.facts.append fun x hx _ hn => (hfresh x hx).2 hn) he.invoiced fun x hx => .inl hx, fun x hx => hi.counted_later hl hx⟩
  | lateSettlement l =>
    unfold Db.record at h
    obtain ⟨-, h⟩ := guard_ok h
    cases h
    exact ⟨ha.congr rfl rfl rfl rfl, hs.congr rfl rfl, he.later (.same rfl rfl rfl rfl rfl) rfl he.requestKeys he.receiptKeys he.lateKeys
      he.facts he.invoiced fun x hx => .inl hx, hc⟩

/-! ## The operations -/

theorem writeOff_holds (h : db.insertWriteOff f = .ok db') :
    Holds db' := by
  obtain ⟨ha, hs, he, hc⟩ := hi
  have ha' := ha.writeOff h
  obtain ⟨o, -, -, -, -, -, rfl⟩ := insertWriteOff_ok h
  exact ⟨ha', hs.congr rfl rfl, he.later (.same rfl rfl rfl rfl rfl) rfl he.requestKeys he.receiptKeys he.lateKeys he.facts he.invoiced
    fun x hx => .inl hx, hc⟩

theorem lateSuccessRecovers_holds {l : Uuid}
    (h : lateSuccessRecovers db l ids now = .ok db') : Holds db' := by
  unfold lateSuccessRecovers at h
  split at h
  · cases h
  · split at h
    · cases h
    · split at h
      · cases h
        exact hi
      · obtain ⟨⟨db₁, a⟩, h₁, rfl⟩ := map_eq_ok.mp h
        obtain ⟨o, pay, surpluses, hr⟩ := applyRecoveryPayment_ok h₁
        exact hr.holds hi.accounts hi.surpluses hi.evidenced (fun x hx _ _ _ => hi.counted x hx)
          nofun

theorem paymentSucceeded_holds {requestId receiptId : Uuid}
    (h : paymentSucceeded db requestId receiptId ids now = .ok db') : Holds db' := by
  unfold paymentSucceeded at h
  cases hf : db.requests.find? fun r => r.id = requestId with
  | none =>
    rw [hf] at h
    cases h
  | some r =>
    simp only [hf] at h
    obtain ⟨ht, hfresh, h⟩ := guards_ok h
    have hr : r ∈ db.requests := List.mem_of_find?_eq_some hf
    have ht : transitionAllowed r.status .paid := not_not.mp ht
    have hfresh : ∀ x ∈ db.receipts, x.id ≠ receiptId := by simpa using hfresh
    generalize hdb₁ : ({ db with
        receipts := db.receipts ++ [⟨receiptId, r.id, .succeeded, .applied⟩]
        requests := replaceRow PaymentRequest.id { r with status := .paid } db.requests } : Db) = db₁ at h
    have hpaid : { r with status := PaymentRequestStatus.paid } ∈ db₁.requests := by
      rw [← hdb₁]
      exact replaceRow_mem hr rfl
    have hl : Later db db₁ := by
      have := Later.restatus hi.evidenced hr ht
      rw [← hdb₁]
      exact ⟨this.kept, this.known, this.invoices, fun _ hx => List.mem_append_left _ hx, this.lateSuccesses, this.payments⟩
    have hmem : ∀ x ∈ db₁.receipts, x ∈ db.receipts ∨ x = ⟨receiptId, r.id, .succeeded, .applied⟩ := by
      intro x hx
      rw [← hdb₁] at hx
      simpa using hx
    have ha : Accounts db₁ := by rw [← hdb₁]; exact hi.accounts.congr rfl rfl rfl rfl
    have hs : Surpluses db₁ := by rw [← hdb₁]; exact hi.surpluses.congr rfl rfl
    have he : Evidenced db₁ := by
      have he := hi.evidenced
      refine he.later hl (by rw [← hdb₁]) ?_ ?_ (by rw [← hdb₁]; exact he.lateKeys) (by rw [← hdb₁]; exact he.facts) ?_ ?_
      · rw [← hdb₁]
        dsimp only
        rw [map_replaceRow fun x _ hx => hx]
        exact he.requestKeys
      · rw [← hdb₁]
        exact nodup_append_row he.receiptKeys hfresh
      · rw [← hdb₁]
        intro x hx
        rcases mem_replaceRow hx with rfl | ⟨hx, -⟩
        · exact he.invoiced r hr
        · exact he.invoiced x hx
      · intro x hx
        rcases hmem x hx with hx | rfl
        · exact .inl hx
        · exact .inr fun _ _ => ⟨_, hpaid, rfl⟩
    have hobl : db₁.recoveryObligation r = db.recoveryObligation r := hl.invoices r hr
    -- the one request of the new receipt
    have honly : ∀ s ∈ db₁.requests, s.id = r.id → s = { r with status := .paid } :=
      fun s hs hid => eq_of_key he.requestKeys hs hpaid hid
    cases hob : db₁.recoveryObligation r with
    | none =>
      simp only [hob] at h
      cases h
      refine ⟨ha, hs, he, fun x hx => ?_⟩
      rcases hmem x hx with hx | rfl
      · exact hi.counted_later hl hx
      · intro _ _ s hs hid o ho
        rw [honly s hs hid] at ho
        have ho : db'.recoveryObligation r = some o := ho
        rw [hob] at ho
        cases ho
    | some obligationId =>
      simp only [hob] at h
      obtain ⟨⟨db₂, a⟩, h₂, rfl⟩ := map_eq_ok.mp h
      obtain ⟨o, pay, surpluses, hrec⟩ := applyRecoveryPayment_ok h₂
      refine hrec.holds ha hs he (fun x hx hn ho hne => ?_) (fun x hx hev => ?_)
      · rcases hmem x hx with hx | rfl
        · exact hi.counted_later hl hx
        · exact absurd rfl hne
      · intro _ _ s hs hid o' ho'
        have hxid : x.id = receiptId := by
          cases hev
          rfl
        have hx' : x = ⟨receiptId, r.id, .succeeded, .applied⟩ := by
          rcases hmem x hx with hx | rfl
          · exact absurd hxid (hfresh x hx)
          · rfl
        rw [hx'] at hid
        rw [hrec.writes] at hs ho' ⊢
        rw [honly s hs hid] at ho' ⊢
        have : o' = obligationId := by
          have ho'' : db₁.recoveryObligation r = some o' := ho'
          rw [hob] at ho''
          exact (Option.some.inj ho'').symm
        refine ⟨pay, by simp, ?_, ?_, ?_⟩
        · rw [hrec.split.evidence, hxid]
        · rw [hrec.split.obligation, this]
        · exact hrec.split.amount

theorem step_holds (h : Step db db') : Holds db' := by
  obtain ⟨op, h⟩ := h
  cases op with
  | paymentSucceeded r x ids now => exact paymentSucceeded_holds hi h
  | lateSuccessRecovers l ids now => exact lateSuccessRecovers_holds hi h
  | writeOff f => exact writeOff_holds hi h
  | record r => exact record_holds hi h

end

theorem init_holds (h : Init db) : Holds db := by
  cases h
  refine ⟨⟨List.nodup_nil, ?_, ?_, ?_, ?_, ?_, ?_, ?_, ?_⟩, ⟨List.nodup_nil, ?_, ?_, ?_, ?_⟩,
    ⟨List.nodup_nil, List.nodup_nil, List.nodup_nil, .nil, ?_, ?_, ?_, ?_, ?_⟩, ?_⟩ <;> intro x hx <;> cases hx

theorem runs_hold (h : Runs db) : Holds db :=
  h.invariant (fun _ => init_holds) fun _ _ _ hi hs => step_holds hi hs

/-! ## A recovered obligation stays recovered -/

def Keeps (db db' : Db) : Prop :=
  ∀ o ∈ db.obligations, o.status = .recovered → ∃ o' ∈ db'.obligations, o'.id = o.id ∧ o'.status = .recovered

theorem Keeps.of_eq (h : db'.obligations = db.obligations) : Keeps db db' :=
  fun o ho hs => ⟨o, h ▸ ho, rfl, hs⟩

theorem Recovers.keeps
    {surpluses : List RecoverySurplus} (h : Recovers db o p pay surpluses db') : Keeps db db' := by
  intro x hx hs
  rw [h.writes]
  dsimp only
  split
  · by_cases he : x.id = o.id
    · exact ⟨_, replaceRow_mem hx he, he.symm, rfl⟩
    · exact ⟨x, replaceRow_other hx he, rfl, hs⟩
  · exact ⟨x, hx, rfl, hs⟩

theorem record_keeps {r : Record} (h : db.record r = .ok db') : Keeps db db' := by
  cases r <;> unfold Db.record at h <;> obtain ⟨-, h⟩ := guard_ok h
  case obligation o =>
    obtain ⟨-, -, h⟩ := guards_ok h
    cases h
    exact fun x hx hs => ⟨x, List.mem_append_left _ hx, rfl, hs⟩
  case request r =>
    obtain ⟨-, -, h⟩ := guards_ok h
    cases h
    exact .of_eq rfl
  case lateSettlement l =>
    cases h
    exact .of_eq rfl
  all_goals
    obtain ⟨-, h⟩ := guard_ok h
    cases h
    exact .of_eq rfl

theorem step_keeps (h : Step db db') : Keeps db db' := by
  obtain ⟨op, h⟩ := h
  cases op with
  | paymentSucceeded r x ids now =>
    simp only [Op.run, paymentSucceeded] at h
    split at h
    · cases h
    · obtain ⟨-, -, h⟩ := guards_ok h
      split at h
      · cases h
        exact .of_eq rfl
      · obtain ⟨⟨db₁, a⟩, h₁, rfl⟩ := map_eq_ok.mp h
        obtain ⟨o, pay, surpluses, hr⟩ := applyRecoveryPayment_ok h₁
        exact hr.keeps
  | lateSuccessRecovers l ids now =>
    simp only [Op.run, lateSuccessRecovers] at h
    split at h
    · cases h
    · split at h
      · cases h
      · split at h
        · cases h
          exact .of_eq rfl
        · obtain ⟨⟨db₁, a⟩, h₁, rfl⟩ := map_eq_ok.mp h
          obtain ⟨o, pay, surpluses, hr⟩ := applyRecoveryPayment_ok h₁
          exact hr.keeps
  | writeOff f =>
    obtain ⟨o, -, -, -, -, -, rfl⟩ := insertWriteOff_ok h
    exact .of_eq rfl
  | record r => exact record_keeps h

theorem run_keeps (h : Relation.ReflTransGen Step db db') : Keeps db db' := by
  induction h with
  | refl => exact .of_eq rfl
  | tail _ hs ih =>
    intro o ho hrec
    obtain ⟨o₁, ho₁, hid₁, hrec₁⟩ := ih o ho hrec
    obtain ⟨o₂, ho₂, hid₂, hrec₂⟩ := step_keeps hs o₁ ho₁ hrec₁
    exact ⟨o₂, ho₂, hid₂.trans hid₁, hrec₂⟩

/-! ## Conservation -/

def Db.countedOnce (db : Db) (e : Evidence) : Prop :=
  ∃ p ∈ db.payments, p.evidence = e ∧ ∀ q ∈ db.payments, q.evidence = e → q = p

structure Conserved (db : Db) : Prop where
  /-- A payment has its verified success, of exactly its amount. -/
  verified : ∀ p ∈ db.payments, db.behind p
  /-- No success, no ordinary success of a request and no captured fact is counted twice. -/
  once : ∀ p ∈ db.payments, ∀ q ∈ db.payments, p.evidence = q.evidence → p = q
  requestOnce : ∀ p ∈ db.payments, ∀ q ∈ db.payments, ∀ a b, p.evidence = .receipt a → q.evidence = .receipt b →
    p.paymentRequestId = q.paymentRequestId → p = q
  factOnce : ∀ l ∈ db.lateSuccesses, ∀ m ∈ db.lateSuccesses, l.factId ≠ none → l.factId = m.factId →
    ∀ p ∈ db.payments, ∀ q ∈ db.payments, p.evidence = .lateSuccess l.lateSuccessId →
      q.evidence = .lateSuccess m.lateSuccessId → p = q
  /-- Every applied success of a recovery invoice is counted. -/
  counted : ∀ x ∈ db.receipts, x.eventName = .succeeded → x.outcome = .applied →
    ∀ r ∈ db.requests, r.id = x.paymentRequestId → (db.recoveryObligation r).isSome → db.countedOnce (.receipt x.id)
  /-- A late success that is applied to its recovery invoice is counted. -/
  lateCounted : ∀ l ids now db', lateSuccessRecovers db l ids now = .ok db' →
    (∃ x ∈ db.lateSuccesses, x.lateSuccessId = l ∧
      ∃ r ∈ db.requests, r.id = x.paymentRequestId ∧ (db.recoveryObligation r).isSome) →
    db'.countedOnce (.lateSuccess l)
  split : ∀ p ∈ db.payments, 0 ≤ p.principalAmount ∧ 0 ≤ p.surplusAmount ∧ p.principalAmount + p.surplusAmount = p.amount
  principal : ∀ o ∈ db.obligations,
    paid RecoveryPayment.principalAmount o.id db.payments = min o.baseAmount (paid RecoveryPayment.amount o.id db.payments) ∧
    paid RecoveryPayment.principalAmount o.id db.payments ≤ o.baseAmount
  surplus : ∀ p ∈ db.payments, (0 < p.surplusAmount ↔ ∃ s ∈ db.surpluses, SurplusOf p s)
  surplusOnce : ∀ s ∈ db.surpluses, ∀ t ∈ db.surpluses, s.recoveryPaymentId = t.recoveryPaymentId → s = t
  surplusPaid : ∀ s ∈ db.surpluses, ∃ p ∈ db.payments, SurplusOf p s
  recovered : ∀ o ∈ db.obligations, o.status = .recovered ↔ db.billing_recovery_outstanding o = 0
  neverReopened : ∀ db', Relation.ReflTransGen Step db db' → Keeps db db'
  writtenOffOnce : ∀ f ∈ db.losses, ∀ g ∈ db.losses, f.obligationId = g.obligationId → f = g
  /-- The loss with its adjustments is what is outstanding. -/
  writtenOff : ∀ o ∈ db.obligations, ∀ f ∈ db.losses, f.obligationId = o.id →
    f.amount + adjusted f.id db.adjustments = db.billing_recovery_outstanding o ∧
    0 ≤ f.amount + adjusted f.id db.adjustments

theorem Holds.countedOnce (hi : Holds db) {p : RecoveryPayment} (hp : p ∈ db.payments) :
    db.countedOnce p.evidence :=
  ⟨p, hp, rfl, fun q hq he => hi.evidenced.once q hq p hp he⟩

theorem Holds.lateCounted (hi : Holds db) {l : Uuid}
    (h : lateSuccessRecovers db l ids now = .ok db') {x : PaymentLateSuccess}
    (hx : x ∈ db.lateSuccesses) (hl : x.lateSuccessId = l) (hr : r ∈ db.requests) (hid : r.id = x.paymentRequestId)
    (ho : (db.recoveryObligation r).isSome) : db'.countedOnce (.lateSuccess l) := by
  have hi' := lateSuccessRecovers_holds hi h
  have hfx : (db.lateSuccesses.find? fun y => y.lateSuccessId = l) = some x :=
    hl ▸ find_key hi.evidenced.lateKeys hx
  have hfr : (db.requests.find? fun y => y.id = x.paymentRequestId) = some r :=
    hid ▸ find_key hi.evidenced.requestKeys hr
  obtain ⟨o, ho⟩ := Option.isSome_iff_exists.mp ho
  unfold lateSuccessRecovers at h
  simp only [hfx, hfr, ho] at h
  obtain ⟨⟨db₁, a⟩, h₁, rfl⟩ := map_eq_ok.mp h
  obtain ⟨o, pay, surpluses, hrec⟩ := applyRecoveryPayment_ok h₁
  have hpay : pay ∈ db₁.payments := by
    rw [hrec.writes]
    simp
  have := hi'.countedOnce hpay
  rwa [hrec.split.evidence] at this

/-- **The recovery ledger.** In every run of payments, late successes and write-offs the ledger is conserved. -/
theorem recovery_ledger {db : Db} (h : Runs db) : Conserved db := by
  have hi := runs_hold h
  constructor
  · exact hi.evidenced.behind
  · exact hi.evidenced.once
  · exact hi.evidenced.requestOnce
  · intro l hl m hm hn hf p hp q hq hpe hqe
    rw [hi.evidenced.facts l hl m hm hn (fun hmn => hn (hf.trans hmn)) hf] at hpe
    exact hi.evidenced.once p hp q hq (hpe.trans hqe.symm)
  · intro x hx hn ho r hr hid hobl
    obtain ⟨o, hobl⟩ := Option.isSome_iff_exists.mp hobl
    obtain ⟨p, hp, he, -, -⟩ := hi.counted x hx hn ho r hr hid o hobl
    rw [← he]
    exact hi.countedOnce hp
  · rintro l ids now db' h ⟨x, hx, hl, r, hr, hid, ho⟩
    exact hi.lateCounted h hx hl hr hid ho
  · exact hi.surpluses.split
  · intro o ho
    have := hi.accounts.principal o ho
    exact ⟨this, this ▸ min_le_left _ _⟩
  · exact hi.surpluses.owed
  · exact hi.surpluses.once
  · exact hi.surpluses.paid
  · exact hi.accounts.recovered
  · exact fun db' => run_keeps
  · exact hi.accounts.writtenOffOnce
  · exact hi.accounts.writtenOff

theorem Runs.run (ops : List Op) (hr : Runs db) (h : ops.foldlM Op.run db = .ok db') : Runs db' :=
  foldlM_invariant (fun _ a _ _ hs ha => .step hs ⟨a, ha⟩) hr h

def writtenOffRun : List Op :=
  [.record (.obligation ⟨1, 2, 3, 100, "EUR", .open⟩),
    .record (.invoice ⟨10, 60, "EUR", some 1⟩),
    .record (.request ⟨20, 10, 60, "EUR", .created⟩),
    .record (.request ⟨21, 10, 60, "EUR", .created⟩),
    .record (.requestStatus ⟨20, 10, 60, "EUR", .created⟩ .sending),
    .record (.requestStatus ⟨20, 10, 60, "EUR", .sending⟩ .requested),
    .paymentSucceeded 20 30 ⟨40, 41⟩ 7,
    .writeOff ⟨50, 1, 3, 2, 40, "EUR", 8⟩,
    .record (.lateSuccess ⟨60, 21, some 61, 60, "EUR"⟩),
    .lateSuccessRecovers 60 ⟨42, 43⟩ 9]

theorem recovery_ledger_writtenOff :
    ∃ db, writtenOffRun.foldlM Op.run ⟨[], [], [], [], [], [], [], [], [], []⟩ = .ok db ∧ Conserved db ∧
      db.adjustments = [⟨50, -40, 42⟩] ∧ db.surpluses = [⟨43, 42, 1, 2, 20, "EUR"⟩] ∧
      db.obligations = [⟨1, 2, 3, 100, "EUR", .recovered⟩] :=
  ⟨_, rfl, recovery_ledger (.run writtenOffRun (.init rfl) rfl), rfl, rfl, rfl⟩

end NawaraCore.Recovery
