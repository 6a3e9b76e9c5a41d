import NawaraCore.Billing.RecoverySound
import NawaraCore.Billing.WriteOffRace

/-!
# When a write-off refuses a recovery

A verified recovery is applied beside a write-off of its obligation exactly when it does not
take the lock behind a write-off that began after it, and what it recovers after a write-off
is what the loss is adjusted by.
-/

namespace NawaraCore.Recovery

open Subscriptions (Uuid)
open PaymentRequests (Failure)

/-! ## The inserts do not read the write-offs -/

section
variable {db db' : Db} {o : RecoveryObligation} {p : Success} {pay : RecoveryPayment} {id : Uuid} {now : Int}

def RecoveryPayment.at (pay : RecoveryPayment) (recordedAt : Int) : RecoveryPayment := { pay with recordedAt }

theorem insertPayment_at (h : db.insertPayment o p id now = .ok (db', pay)) (losses : List FinancialLoss) (now' : Int) :
    Db.insertPayment { db with losses } o p id now' =
      .ok ({ db with
        losses
        payments := db.payments ++ [pay.at now'] }, pay.at now') := by
  unfold Db.insertPayment at h ⊢
  obtain ⟨hlate, hver, h⟩ := guards_ok h
  obtain ⟨hcur, heq, h⟩ := guards_ok h
  obtain ⟨hpos, hroute, h⟩ := guards_ok h
  obtain ⟨huniq, h⟩ := guard_ok h
  cases h
  exact (if_neg hlate).trans ((if_neg hver).trans ((if_neg hcur).trans ((if_neg heq).trans ((if_neg hpos).trans
    ((if_neg hroute).trans (if_neg huniq))))))

theorem keepSurplus_at {payments : List RecoveryPayment} (h : Db.keepSurplus { db with payments := payments ++ [pay] } o pay id = .ok db')
    (losses : List FinancialLoss) (now' : Int) :
    ∃ db'', Db.keepSurplus { db with
      losses
      payments := payments ++ [pay.at now'] } o (pay.at now') id = .ok db'' := by
  unfold Db.keepSurplus at h ⊢
  by_cases hs : 0 < pay.surplusAmount
  · rw [if_pos hs] at h
    rw [if_pos (show 0 < (pay.at now').surplusAmount from hs)]
    unfold Db.insertSurplus at h ⊢
    obtain ⟨hpay, hamount, h⟩ := guards_ok h
    obtain ⟨hu, h⟩ := guard_ok h
    have hpay' : ¬ ¬ (payments ++ [pay.at now']).any (fun p => p.id = pay.id ∧ p.obligationId = pay.obligationId ∧
        p.surplusAmount = pay.surplusAmount ∧ p.currency = pay.currency ∧
        db.obligations.any fun x => x.id = p.obligationId ∧ x.organizationId = o.organizationId) := by
      rw [List.any_append] at hpay ⊢
      exact hpay
    exact ⟨_, (if_neg hpay').trans ((if_neg hamount).trans (if_neg hu))⟩
  · exact ⟨_, if_neg hs⟩

theorem closeRecovered_total (db : Db) (o : RecoveryObligation) : ∃ r, db.closeRecovered o = .ok r := by
  unfold Db.closeRecovered
  by_cases hc : o.status = .open ∧ db.billing_recovery_outstanding o ≤ 0
  · rw [if_pos hc]
    have hg : ¬ (ObligationStatus.recovered ≠ o.status ∧
        (o.status ≠ .open ∨ ObligationStatus.recovered ≠ .recovered ∨ 0 < db.billing_recovery_outstanding o)) := by
      rintro ⟨-, h | h | h⟩
      · exact h hc.1
      · exact h rfl
      · omega
    unfold Db.updateStatus
    rw [if_neg hg]
    exact ⟨_, rfl⟩
  · rw [if_neg hc]
    exact ⟨_, rfl⟩

end

/-! ## Every adjustment is for a payment -/

inductive LedgerStep (db db' : Db) : Prop
  | recovers (db₁ : Db) (o : RecoveryObligation) (p : Success) (pay : RecoveryPayment) (surpluses : List RecoverySurplus)
      (payments : db₁.payments = db.payments) (adjustments : db₁.adjustments = db.adjustments)
      (losses : db₁.losses = db.losses) (obligations : db₁.obligations = db.obligations)
      (h : Recovers db₁ o p pay surpluses db')
  | writesOff (f : FinancialLoss) (h : db.insertWriteOff f = .ok db')
  | same (payments : db'.payments = db.payments) (adjustments : db'.adjustments = db.adjustments)
      (losses : db'.losses = db.losses) (obligations : ∀ o ∈ db.obligations, o ∈ db'.obligations)

variable {db db' : Db}

theorem record_ledger {r : Record} (h : db.record r = .ok db') : LedgerStep db db' := by
  cases r <;> unfold Db.record at h <;> obtain ⟨-, h⟩ := guard_ok h
  case obligation o =>
    obtain ⟨-, -, h⟩ := guards_ok h
    cases h
    exact .same rfl rfl rfl fun _ ho => List.mem_append_left _ ho
  case request r =>
    obtain ⟨-, -, h⟩ := guards_ok h
    cases h
    exact .same rfl rfl rfl fun _ ho => ho
  case lateSettlement l =>
    cases h
    exact .same rfl rfl rfl fun _ ho => ho
  all_goals
    obtain ⟨-, h⟩ := guard_ok h
    cases h
    exact .same rfl rfl rfl fun _ ho => ho

theorem step_ledger (h : Step db db') : LedgerStep db db' := by
  obtain ⟨op, h⟩ := h
  cases op with
  | paymentSucceeded r x ids now =>
    simp only [Op.run, paymentSucceeded] at h
    split at h
    · cases h
    · obtain ⟨-, -, h⟩ := guards_ok h
      split at h
      · cases h
        exact .same rfl rfl rfl fun _ ho => ho
      · obtain ⟨⟨db₁, a⟩, h₁, rfl⟩ := map_eq_ok.mp h
        obtain ⟨o, pay, surpluses, hr⟩ := applyRecoveryPayment_ok h₁
        refine .recovers _ o _ pay surpluses ?_ ?_ ?_ ?_ hr <;> rfl
  | lateSuccessRecovers l ids now =>
    simp only [Op.run, lateSuccessRecovers] at h
    split at h
    · cases h
    · split at h
      · cases h
      · split at h
        · cases h
          exact .same rfl rfl rfl fun _ ho => ho
        · obtain ⟨⟨db₁, a⟩, h₁, rfl⟩ := map_eq_ok.mp h
          obtain ⟨o, pay, surpluses, hr⟩ := applyRecoveryPayment_ok h₁
          refine .recovers _ o _ pay surpluses ?_ ?_ ?_ ?_ hr <;> rfl
  | writeOff f => exact .writesOff f h
  | record r => exact record_ledger h

def AdjustmentsPaid (db : Db) : Prop := ∀ a ∈ db.adjustments, ∃ p ∈ db.payments, p.id = a.recoveryPaymentId

variable {db : Db}

theorem adjustment_payment {pay : RecoveryPayment} {a : FinancialLossAdjustment} (h : a ∈ db.adjustment pay) :
    a.recoveryPaymentId = pay.id := by
  unfold Db.adjustment at h
  split at h
  · cases h
  · split at h
    · rw [List.mem_singleton.mp h]
    · cases h

theorem LedgerStep.adjustmentsPaid (h : LedgerStep db db') (ha : AdjustmentsPaid db) : AdjustmentsPaid db' := by
  cases h with
  | writesOff f h =>
    obtain ⟨o, -, -, -, -, -, rfl⟩ := insertWriteOff_ok h
    exact ha
  | same hp had _ _ =>
    intro a hm
    rw [had] at hm
    rw [hp]
    exact ha a hm
  | recovers db₁ o p pay surpluses hp had _ _ hr =>
    intro a hm
    rw [hr.writes] at hm ⊢
    rcases List.mem_append.mp hm with hm | hm
    · rw [had] at hm
      obtain ⟨q, hq, he⟩ := ha a hm
      exact ⟨q, List.mem_append_left _ (hp ▸ hq), he⟩
    · exact ⟨pay, List.mem_append_right _ List.mem_cons_self, (adjustment_payment hm).symm⟩

theorem runs_adjustmentsPaid (h : Runs db) : AdjustmentsPaid db :=
  h.invariant (P := AdjustmentsPaid) (fun db h0 a ha => by
    cases h0
    cases ha) fun _ _ _ hi hs => (step_ledger hs).adjustmentsPaid hi

/-! ## When the effect is refused -/

section
variable {db db' : Db} {o : RecoveryObligation} {p : Success} {pay : RecoveryPayment} {ids : FreshIds} {now : Int}

/-- The ledger in the middle of the effect: the payment is new, the write-offs stand as before it. -/
structure Middle (db : Db) (o : RecoveryObligation) (pay : RecoveryPayment) (mid : Db) : Prop where
  payments : mid.payments = db.payments ++ [pay]
  losses : mid.losses = db.losses
  adjustments : mid.adjustments = db.adjustments
  fresh : ∀ q ∈ db.payments, q.id ≠ pay.id
  obligation : pay.obligationId = o.id
  principal : pay.principalAmount = min pay.amount (max 0 (db.billing_recovery_outstanding o))
  positive : 0 < pay.amount

theorem adjustLoss_iff {mid : Db} (hm : Middle db o pay mid) (ha : Accounts db) (hp : AdjustmentsPaid db) (ho : o ∈ db.obligations) :
    (∃ r, mid.adjustLoss pay = .ok r) ↔ db.inOrder o.id pay.recordedAt := by
  have hrem : ∀ f, mid.remaining f = db.remaining f := fun f => by rw [Db.remaining, Db.remaining, hm.adjustments]
  have hprincipal := hm.principal
  have hpos := hm.positive
  -- what is left of a write-off of the obligation is what is outstanding
  have hleft : ∀ f ∈ db.losses, f.obligationId = o.id → (0 < db.remaining f ↔ 0 < pay.principalAmount) := by
    intro f hf hfo
    obtain ⟨hout, -⟩ := ha.writtenOff o ho f hf hfo
    rw [hout]
    omega
  unfold Db.adjustLoss Db.inOrder
  rw [hm.losses]
  cases hf : db.losses.find? fun f => f.obligationId = pay.obligationId with
  | none =>
    have hnone : ∀ f ∈ db.losses, f.obligationId ≠ o.id := fun f hmem he =>
      List.find?_eq_none.mp hf f hmem (by simp [he, hm.obligation])
    refine ⟨fun _ f hmem he => absurd he (hnone f hmem), fun _ => ?_⟩
    split <;> exact ⟨_, rfl⟩
  | some loss =>
    have hmem := List.mem_of_find?_eq_some hf
    have hlo : loss.obligationId = o.id := by
      have : loss.obligationId = pay.obligationId := by simpa using List.find?_some hf
      rw [this, hm.obligation]
    have honly : ∀ f ∈ db.losses, f.obligationId = o.id → f = loss := fun f hmf he =>
      ha.writtenOffOnce f hmf loss hmem (he.trans hlo.symm)
    have hiff := hleft loss hmem hlo
    by_cases hprin : 0 < pay.principalAmount
    · have hr := hiff.mpr hprin
      have hr' : 0 < mid.remaining loss := by rwa [hrem]
      simp only [if_pos hprin, if_pos hr']
      have hfind : mid.losses.find? (fun f => f.id = loss.id) = some loss := by
        rw [hm.losses]
        obtain ⟨g, hg⟩ := Option.isSome_iff_exists.mp (List.find?_isSome.mpr ⟨loss, hmem, by simp⟩ :
          (db.losses.find? fun f => decide (f.id = loss.id)).isSome = true)
        have hgid : g.id = loss.id := by simpa using List.find?_some hg
        rw [hg, ha.lossKeys g (List.mem_of_find?_eq_some hg) loss hmem hgid]
      have hfindp : mid.payments.find? (fun q => q.id = pay.id) = some pay := by
        rw [hm.payments, List.find?_append, List.find?_eq_none.mpr fun q hq => by simpa using hm.fresh q hq]
        simp
      have hnoadj : ¬ mid.adjustments.any (fun x => x.recoveryPaymentId = pay.id) = true := by
        rw [hm.adjustments]
        intro hany
        obtain ⟨a, hain, hae⟩ := List.any_eq_true.mp hany
        obtain ⟨q, hq, he⟩ := hp a hain
        exact hm.fresh q hq (he.trans (of_decide_eq_true hae))
      unfold Db.insertAdjustment
      simp only [hfind, hfindp]
      by_cases hearly : pay.recordedAt < loss.recordedAt
      · rw [if_pos (by exact .inr (.inl hearly))]
        refine ⟨fun ⟨r, h⟩ => (by cases h), fun h => ?_⟩
        have := h loss hmem hlo hr
        omega
      · have hg : ¬ (pay.obligationId ≠ loss.obligationId ∨ pay.recordedAt < loss.recordedAt ∨
            - -min pay.principalAmount (mid.remaining loss) ≠ min pay.principalAmount (mid.remaining loss) ∨ mid.remaining loss ≤ 0) := by
          rintro (h | h | h | h)
          · exact h (hm.obligation.trans hlo.symm)
          · exact hearly h
          · exact h (Int.neg_neg _)
          · omega
        rw [if_neg hg, if_neg (by omega), if_neg hnoadj]
        refine ⟨fun _ f hmf he _ => ?_, fun _ => ⟨_, rfl⟩⟩
        rw [honly f hmf he]
        omega
    · rw [if_neg hprin]
      refine ⟨fun _ f hmf he hpos => absurd ((hleft f hmf he).mp hpos) hprin, fun _ => ⟨_, rfl⟩⟩

theorem applyRecoveryPayment_iff (ha : Accounts db) (hp : AdjustmentsPaid db) {now₀ : Int} {r₀ : Db × Applied}
    (h₀ : applyRecoveryPayment db.unwritten p ids now₀ = .ok r₀) :
    (∃ r, applyRecoveryPayment db p ids now = .ok r) ↔ db.inOrder p.obligationId now := by
  unfold applyRecoveryPayment at h₀ ⊢
  cases hf : db.obligations.find? fun o => o.id = p.obligationId with
  | none =>
    have hf' : db.unwritten.obligations.find? (fun o => o.id = p.obligationId) = none := hf
    rw [hf'] at h₀
    cases h₀
  | some o =>
    have hf' : db.unwritten.obligations.find? (fun o => o.id = p.obligationId) = some o := hf
    rw [hf'] at h₀
    have ho : o ∈ db.obligations := List.mem_of_find?_eq_some hf
    have hid : o.id = p.obligationId := by simpa using List.find?_some hf
    obtain ⟨⟨db₁, pay₀⟩, h₁, h₀⟩ := bind_eq_ok.mp h₀
    obtain ⟨db₂, h₂, -⟩ := bind_eq_ok.mp h₀
    obtain ⟨hsplit, hdb₁⟩ := insertPayment_ok h₁
    have h₁' := insertPayment_at h₁ db.losses now
    have h₂' : Db.keepSurplus { db.unwritten with payments := db.payments ++ [pay₀] } o pay₀ ids.surplus = .ok db₂ := by
      rw [hdb₁] at h₂
      exact h₂
    obtain ⟨mid, hmid⟩ := keepSurplus_at h₂' db.losses now
    have hmiddle : Middle db o (pay₀.at now) mid := by
      obtain ⟨surpluses, hm, -⟩ := keepSurplus_ok hmid
      rw [hm]
      exact {
        payments := rfl
        losses := rfl
        adjustments := rfl
        fresh := hsplit.fresh
        obligation := hsplit.obligation.trans hid.symm
        principal := hsplit.principal.trans (by rw [← hsplit.amount]; rfl)
        positive := by rw [show (pay₀.at now).amount = p.amount from hsplit.amount]; exact hsplit.positive }
    have hadjust := adjustLoss_iff hmiddle ha hp ho
    rw [hid] at hadjust
    constructor
    · rintro ⟨r, h⟩
      obtain ⟨⟨db₃, pay⟩, hi, h⟩ := bind_eq_ok.mp h
      have hi' : Db.insertPayment db o p ids.payment now = _ := h₁'
      rw [hi] at hi'
      cases hi'
      obtain ⟨db₄, hk, h⟩ := bind_eq_ok.mp h
      have hk' := hk.symm.trans hmid
      cases hk'
      obtain ⟨db₅, hadj, -⟩ := bind_eq_ok.mp h
      exact hadjust.mp ⟨db₅, hadj⟩
    · intro hord
      obtain ⟨db₅, hadj⟩ := hadjust.mpr hord
      obtain ⟨r, hr⟩ := closeRecovered_total db₅ o
      exact ⟨r, bind_eq_ok.mpr ⟨_, h₁', bind_eq_ok.mpr ⟨_, hmid, bind_eq_ok.mpr ⟨_, hadj, hr⟩⟩⟩⟩

end

/-! ## What a loss is adjusted by -/

structure Extends (db db' : Db) : Prop where
  losses : ∀ f ∈ db.losses, f ∈ db'.losses
  bases : ∀ o ∈ db.obligations, ∃ o' ∈ db'.obligations, o'.id = o.id ∧ o'.baseAmount = o.baseAmount

theorem Extends.refl (db : Db) : Extends db db := ⟨fun _ hf => hf, fun o ho => ⟨o, ho, rfl, rfl⟩⟩

theorem Extends.trans {a b c : Db} (h : Extends a b) (h' : Extends b c) : Extends a c where
  losses f hf := h'.losses f (h.losses f hf)
  bases o ho := by
    obtain ⟨o', ho', hid, hbase⟩ := h.bases o ho
    obtain ⟨o'', ho'', hid', hbase'⟩ := h'.bases o' ho'
    exact ⟨o'', ho'', hid'.trans hid, hbase'.trans hbase⟩

theorem step_extends (ha : Accounts db) (h : Step db db') : Extends db db' := by
  cases step_ledger h with
  | writesOff f h =>
    obtain ⟨o, -, -, -, -, -, rfl⟩ := insertWriteOff_ok h
    exact ⟨fun _ hf => List.mem_append_left _ hf, fun o ho => ⟨o, ho, rfl, rfl⟩⟩
  | same _ _ hl ho => exact ⟨fun f hf => hl ▸ hf, fun o h => ⟨o, ho o h, rfl, rfl⟩⟩
  | recovers db₁ o p pay surpluses _ _ hl ho hr =>
    rw [hr.writes]
    refine ⟨fun f hf => hl ▸ hf, fun x hx => ?_⟩
    rw [← ho] at hx
    dsimp only
    split
    · by_cases he : x.id = o.id
      · refine ⟨_, replaceRow_mem hx he, he.symm, ?_⟩
        have hox : o = x := eq_of_key ha.keys (ho ▸ hr.mem) (ho ▸ hx) he.symm
        rw [hox]
      · exact ⟨x, replaceRow_other hx he, rfl, rfl⟩
    · exact ⟨x, hx, rfl, rfl⟩

variable {f : FinancialLoss}

theorem Extends.adjusted (h : Extends db db') (ha : Accounts db) (ha' : Accounts db') (hf : f ∈ db.losses) :
    adjusted f.id db.adjustments - adjusted f.id db'.adjustments =
      paid RecoveryPayment.principalAmount f.obligationId db'.payments - paid RecoveryPayment.principalAmount f.obligationId db.payments := by
  obtain ⟨o, ho, hid⟩ := ha.losses f hf
  obtain ⟨o', ho', hid', hbase⟩ := h.bases o ho
  have h₁ := (ha.writtenOff o ho f hf hid.symm).1
  have h₂ := (ha'.writtenOff o' ho' f (h.losses f hf) (hid.symm.trans hid'.symm)).1
  unfold Db.remaining Db.billing_recovery_outstanding at h₁ h₂
  rw [hid', hid] at h₂
  rw [hid] at h₁
  omega

theorem step_unadjusted (h : Step db db') (ha : Accounts db) (hf : f ∈ db'.losses) (hnew : f ∉ db.losses) :
    adjusted f.id db'.adjustments = 0 := by
  cases step_ledger h with
  | same _ _ hl _ => exact absurd (hl ▸ hf) hnew
  | recovers db₁ o p pay surpluses _ _ hl _ hr =>
    rw [hr.writes] at hf
    exact absurd (hl ▸ hf) hnew
  | writesOff g h =>
    obtain ⟨o, -, -, -, -, hfresh, rfl⟩ := insertWriteOff_ok h
    rcases mem_append_row hf with hf | rfl
    · exact absurd hf hnew
    · refine adjusted_none fun a hm he => ?_
      obtain ⟨x, hx, hxid⟩ := ha.adjustments a hm
      exact (hfresh x hx).1 (hxid.trans he)

/-! ## The race -/

section
variable {c : Contest} {db₀ : Db} {clock : Int} {s : Race}

theorem recovery_iff {db r₀ : Db} {now₀ now : Int} {obligationId : Uuid} (hh : Holds db) (hp : AdjustmentsPaid db)
    (h₀ : (c.op now₀ .recovery).run db.unwritten = .ok r₀) (ho : c.success.obligation db = some obligationId) :
    (∃ r, (c.op now .recovery).run db = .ok r) ↔ db.inOrder obligationId now := by
  unfold Contest.op at h₀ ⊢
  unfold VerifiedSuccess.obligation at ho
  cases hs : c.success with
  | ordinary paymentRequestId receiptId =>
    simp only [hs] at h₀ ho ⊢
    simp only [Op.run, paymentSucceeded] at h₀ ⊢
    cases hf : db.requests.find? fun r => r.id = paymentRequestId with
    | none =>
      rw [hf] at ho
      cases ho
    | some r =>
      rw [hf, Option.bind_some] at ho
      have hf' : db.unwritten.requests.find? (fun r => r.id = paymentRequestId) = some r := hf
      simp only [hf'] at h₀
      obtain ⟨ht, hx, h₀⟩ := guards_ok h₀
      have hx : ¬ (db.receipts.any fun x => x.id = receiptId) = true := hx
      simp only [if_neg ht]
      rw [if_neg hx]
      generalize hdb₁ : ({ db with
        receipts := db.receipts ++ [⟨receiptId, r.id, .succeeded, .applied⟩]
        requests := replaceRow PaymentRequest.id { r with status := .paid } db.requests } : Db) = db₁
      have hob : db₁.recoveryObligation r = some obligationId := by rw [← hdb₁]; exact ho
      simp only [hob]
      split at h₀
      · rename_i hnone
        cases hnone.symm.trans ho
      rename_i o hsome
      cases hsome.symm.trans ho
      obtain ⟨x₀, h₀, -⟩ := map_eq_ok.mp h₀
      have h₀ : applyRecoveryPayment db₁.unwritten ⟨obligationId, r.invoiceId, r.id, .receipt receiptId, r.amount, r.currency⟩ c.ids now₀ = .ok x₀ := by
        rw [← hdb₁]
        exact h₀
      have ha : Accounts db₁ := by rw [← hdb₁]; exact hh.accounts.congr rfl rfl rfl rfl
      have hp : AdjustmentsPaid db₁ := by rw [← hdb₁]; exact hp
      have hin : db₁.inOrder obligationId now ↔ db.inOrder obligationId now := by rw [← hdb₁]; exact Iff.rfl
      rw [← hin, ← (@applyRecoveryPayment_iff _ _ c.ids now) ha hp h₀]
      exact map_returns
  | late lateSuccessId =>
    simp only [hs] at h₀ ho ⊢
    simp only [Op.run, lateSuccessRecovers] at h₀ ⊢
    cases hl : db.lateSuccesses.find? fun l => l.lateSuccessId = lateSuccessId with
    | none =>
      rw [hl] at ho
      cases ho
    | some l =>
      rw [hl, Option.bind_some] at ho
      cases hf : db.requests.find? fun r => r.id = l.paymentRequestId with
      | none =>
        rw [hf] at ho
        cases ho
      | some r =>
        rw [hf, Option.bind_some] at ho
        have hl' : db.unwritten.lateSuccesses.find? (fun l => l.lateSuccessId = lateSuccessId) = some l := hl
        have hf' : db.unwritten.requests.find? (fun r => r.id = l.paymentRequestId) = some r := hf
        have ho' : db.unwritten.recoveryObligation r = some obligationId := ho
        simp only [hl', hf', ho'] at h₀
        simp only [hf, ho]
        obtain ⟨x₀, h₀, -⟩ := map_eq_ok.mp h₀
        rw [← (@applyRecoveryPayment_iff _ _ c.ids now) hh.accounts hp h₀]
        exact map_returns

structure RaceInv (c : Contest) (db₀ : Db) (s : Race) : Prop where
  runs : Runs s.db
  /-- Until the recovery commits, only write-offs are new. -/
  pending : (∀ now, s.phase .recovery ≠ .committed now) → s.db.unwritten = db₀.unwritten
  holding : ∀ p now db, s.phase p = .holding now db → (c.op now p).run s.db = .ok db
  alone : ∀ p, (s.phase p).isHolding → (s.phase p.other).isHolding = false

theorem obligation_unwritten (db : Db) (v : VerifiedSuccess) : v.obligation db.unwritten = v.obligation db := by
  cases v <;> rfl

theorem phase_set (p q : Party) (phase : Phase) : (s.set p phase).phase q = if q = p then phase else s.phase q := by
  simp only [Race.set, Function.update_apply]

theorem other_ne (p : Party) : p.other ≠ p := by cases p <;> decide

variable {p : Party}

theorem RaceInv.set (h : RaceInv c db₀ s) {phase : Phase} (hold : ∀ now db, phase ≠ .holding now db)
    (hc : ∀ now, s.phase p ≠ .committed now) : RaceInv c db₀ (s.set p phase) := by
  have hnot : phase.isHolding = false := by
    cases phase with
    | holding now db => exact absurd rfl (hold now db)
    | _ => rfl
  refine ⟨h.runs, fun hn => h.pending fun now he => ?_, fun q now db he => ?_, fun q hq => ?_⟩
  · by_cases hp : Party.recovery = p
    · exact hc now (hp ▸ he)
    · refine hn now ?_
      rw [phase_set, if_neg hp]
      exact he
  · rw [phase_set] at he
    split at he
    · exact absurd he (hold now db)
    · exact h.holding q now db he
  · rw [phase_set] at hq ⊢
    split at hq
    · rw [hnot] at hq
      cases hq
    · split
      · exact hnot
      · exact h.alone q hq

theorem RaceInv.lock (h : RaceInv c db₀ s) {now : Int} (hb : s.phase p = .begun now)
    (hfree : (s.phase p.other).isHolding = false) (hrun : (c.op now p).run s.db = .ok db) : RaceInv c db₀ (s.set p (.holding now db)) := by
  refine ⟨h.runs, fun hn => h.pending fun t he => ?_, fun q t d he => ?_, fun q hq => ?_⟩
  · by_cases hp : Party.recovery = p
    · rw [hp, hb] at he
      cases he
    · refine hn t ?_
      rw [phase_set, if_neg hp]
      exact he
  · rw [phase_set] at he
    split at he
    · rename_i hq
      cases he
      rw [hq]
      exact hrun
    · exact h.holding q t d he
  · rw [phase_set]
    rcases eq_or_ne q p with rfl | hq'
    · rw [if_neg (other_ne q)]
      exact hfree
    · have hqo : q = p.other := by cases q <;> cases p <;> first | rfl | exact absurd rfl hq'
      rw [phase_set, if_neg hq', hqo, hfree] at hq
      cases hq

theorem RaceInv.commit (h : RaceInv c db₀ s) {now : Int} (hh : s.phase p = .holding now db) :
    RaceInv c db₀ { s.set p (.committed now) with db } := by
  have hrun := h.holding p now db hh
  have hother : ∀ q, q ≠ p → (s.phase q).isHolding = false := by
    intro q hq
    have hqo : q = p.other := by cases q <;> cases p <;> first | rfl | exact absurd rfl hq
    rw [hqo]
    exact h.alone p (by rw [hh]; rfl)
  have hset : ∀ q, ({ s.set p (.committed now) with db } : Race).phase q = if q = p then .committed now else s.phase q :=
    fun q => phase_set p q _
  refine ⟨h.runs.step ⟨_, hrun⟩, fun hn => ?_, fun q t d he => ?_, fun q hq => ?_⟩
  · have hp : p = .writeOff := by
      cases p with
      | recovery => exact absurd (by rw [hset, if_pos rfl]) (hn now)
      | writeOff => rfl
    subst hp
    obtain ⟨o, -, -, -, -, -, he⟩ := insertWriteOff_ok hrun
    change db.unwritten = _
    rw [he]
    refine h.pending fun t ht => hn t ?_
    rw [hset, if_neg (by decide)]
    exact ht
  · rw [hset] at he
    obtain ⟨hq, he⟩ := passed he nofun
    have := hother q hq
    rw [he] at this
    cases this
  · rw [hset] at hq
    split at hq
    · cases hq
    · rename_i hqp
      rw [hother q hqp] at hq
      cases hq

theorem RaceInv.step (h : RaceInv c db₀ s) (a : RaceAction) : RaceInv c db₀ (s.step c a) := by
  cases a with
  | tick d => exact ⟨h.runs, h.pending, h.holding, h.alone⟩
  | begin p =>
    simp only [Race.step]
    split
    · rename_i hi
      exact h.set nofun fun now he => by rw [hi] at he; cases he
    · exact h
  | lock p =>
    simp only [Race.step]
    split
    · rename_i now hb
      split
      · exact h
      · rename_i hfree
        split
        · rename_i db hrun
          exact h.lock hb (by simpa using hfree) hrun
        · exact h.set nofun fun t he => by rw [hb] at he; cases he
    · exact h
  | commit p =>
    simp only [Race.step]
    split
    · rename_i now db hh
      exact h.commit hh
    · exact h

theorem start_raceInv (hr : Runs db₀) : RaceInv c db₀ (.start db₀ clock) where
  runs := hr
  pending _ := rfl
  holding p now db he := by cases he
  alone p hp := by cases hp

def Race.NotRefused (s : Race) : Prop := ∀ now e, s.phase .recovery ≠ .rolledBack now e

theorem RaceInv.notRefused (h : RaceInv c db₀ s) {now₀ : Int} {r₀ : Db} (hv : (c.op now₀ .recovery).run db₀.unwritten = .ok r₀)
    (ho : c.success.obligation db₀ = some c.loss.obligationId) (a : RaceAction) :
    (s.step c a).NotRefused ↔ s.NotRefused ∧ s.InOrder c a := by
  have hkeep : ∀ {t : Race}, t.phase .recovery = s.phase .recovery → s.InOrder c a → (t.NotRefused ↔ s.NotRefused ∧ s.InOrder c a) :=
    fun he hin => ⟨fun hn => ⟨fun now e hc => hn now e (he.trans hc), hin⟩, fun hn now e hc => hn.1 now e (he.symm.trans hc)⟩
  cases a with
  | tick d => exact hkeep rfl nofun
  | begin p =>
    simp only [Race.step]
    split
    · rename_i hi
      cases p with
      | writeOff => exact hkeep (by rw [phase_set, if_neg (by decide)]) nofun
      | recovery =>
        refine ⟨fun _ => ⟨fun now e hc => (by rw [hi] at hc; cases hc), nofun⟩, fun _ now e hc => ?_⟩
        rw [phase_set, if_pos rfl] at hc
        cases hc
    · exact hkeep rfl nofun
  | commit p =>
    simp only [Race.step]
    split
    · rename_i now db hh
      cases p with
      | writeOff =>
        refine hkeep ?_ nofun
        change (s.set .writeOff (.committed now)).phase .recovery = _
        rw [phase_set, if_neg (by decide)]
      | recovery =>
        refine ⟨fun _ => ⟨fun now e hc => (by rw [hh] at hc; cases hc), nofun⟩, fun _ t e hc => ?_⟩
        change (s.set .recovery (.committed now)).phase .recovery = _ at hc
        rw [phase_set, if_pos rfl] at hc
        cases hc
    · exact hkeep rfl nofun
  | lock p =>
    simp only [Race.step]
    cases p with
    | writeOff =>
      have hother : ∀ phase, (s.set .writeOff phase).phase .recovery = s.phase .recovery := fun phase => by
        rw [phase_set, if_neg (by decide)]
      split
      · split
        · exact hkeep rfl nofun
        · split
          · exact hkeep (hother _) nofun
          · exact hkeep (hother _) nofun
      · exact hkeep rfl nofun
    | recovery =>
      split
      · rename_i now hb
        have hnr : s.NotRefused := fun t e hc => by rw [hb] at hc; cases hc
        by_cases hfree : (s.phase (Party.other .recovery)).isHolding
        · rw [if_pos hfree]
          refine hkeep rfl fun _ hno => ?_
          have hfree : (s.phase .writeOff).isHolding = true := hfree
          rw [hno] at hfree
          cases hfree
        · rw [if_neg hfree]
          -- the recovery waits for its lock, so only write-offs are new
          have hun : s.db.unwritten = db₀.unwritten := h.pending fun t he => by rw [hb] at he; cases he
          have ho' : c.success.obligation s.db.unwritten = some c.loss.obligationId := by
            rw [hun, obligation_unwritten]
            exact ho
          rw [obligation_unwritten] at ho'
          have hiff := (@recovery_iff _ _ _ _ now) (runs_hold h.runs) (runs_adjustmentsPaid h.runs) (by rw [hun]; exact hv) ho'
          have hin : s.InOrder c (.lock .recovery) ↔ s.db.inOrder c.loss.obligationId now := by
            constructor
            · exact fun hi => hi rfl (Bool.eq_false_iff.mpr hfree) now hb
            · intro hi _ _ t ht
              rw [hb] at ht
              cases ht
              exact hi
          rw [hin, ← hiff]
          cases hrun : (c.op now .recovery).run s.db with
          | ok db =>
            refine ⟨fun _ => ⟨hnr, db, rfl⟩, fun _ t e hc => ?_⟩
            rw [phase_set, if_pos rfl] at hc
            cases hc
          | error e =>
            refine ⟨fun hn => absurd ?_ (hn now e), fun ⟨_, r, hr⟩ => by cases hr⟩
            rw [phase_set, if_pos rfl]
      · rename_i hb
        exact hkeep rfl fun _ _ now hbegun => absurd hbegun (hb now)

/-! ### The ledger along a run -/

theorem RaceInv.publishes (h : RaceInv c db₀ s) (a : RaceAction) : (s.step c a).db = s.db ∨ Step s.db (s.step c a).db := by
  cases a with
  | tick d => exact .inl rfl
  | begin p =>
    simp only [Race.step]
    split <;> exact .inl rfl
  | lock p =>
    simp only [Race.step]
    split
    · split
      · exact .inl rfl
      · split <;> exact .inl rfl
    · exact .inl rfl
  | commit p =>
    simp only [Race.step]
    split
    · rename_i now db hh
      exact .inr ⟨_, h.holding p now db hh⟩
    · exact .inl rfl

theorem RaceInv.run (h : RaceInv c db₀ s) (actions : List RaceAction) :
    RaceInv c db₀ (actions.foldl (Race.step c) s) ∧ Extends s.db (actions.foldl (Race.step c) s).db := by
  induction actions generalizing s with
  | nil => exact ⟨h, .refl _⟩
  | cons a actions ih =>
    obtain ⟨hi, he⟩ := ih (h.step a)
    refine ⟨hi, .trans ?_ he⟩
    rcases h.publishes a with hdb | hstep
    · rw [hdb]
      exact .refl _
    · exact step_extends (runs_hold h.runs).accounts hstep

end

/-- A write-off recorded on the way is adjusted, in the end, by exactly the principal recovered after it. -/
def AdjustedExactly (c : Contest) (start : Race) (actions : List RaceAction) : Prop :=
  ∀ before a after, actions = before ++ a :: after →
    let s := before.foldl (Race.step c) start
    let t := actions.foldl (Race.step c) start
    ∀ f ∈ (s.step c a).db.losses, f ∉ s.db.losses →
      f ∈ t.db.losses ∧ adjusted f.id t.db.adjustments =
        -(paid RecoveryPayment.principalAmount f.obligationId t.db.payments -
          paid RecoveryPayment.principalAmount f.obligationId (s.step c a).db.payments)

theorem adjustedExactly {c : Contest} {db₀ : Db} {s₀ : Race} (h : RaceInv c db₀ s₀) (actions : List RaceAction) :
    AdjustedExactly c s₀ actions := by
  rintro before a after rfl s t f hf hnew
  have hs : RaceInv c db₀ s := (h.run before).1
  have hstep : Step s.db (s.step c a).db := by
    rcases hs.publishes a with hdb | hstep
    · rw [hdb] at hf
      exact absurd hf hnew
    · exact hstep
  have hfresh := step_unadjusted hstep (runs_hold hs.runs).accounts hf hnew
  obtain ⟨ht, he⟩ := (hs.step a).run after
  have htt : t = after.foldl (Race.step c) (s.step c a) := List.foldl_append
  rw [htt]
  have hadj := he.adjusted (runs_hold (hs.step a).runs).accounts (runs_hold ht.runs).accounts hf
  rw [hfresh] at hadj
  exact ⟨he.losses f hf, by omega⟩

/-- **When a write-off refuses a recovery.** In every interleaving the recovery goes through exactly when it never takes the lock
behind a write-off that began after it, and what it recovers after a write-off is what the loss is adjusted by. -/
theorem recovery_beside_writeOff (c : Contest) {db₀ : Db} (clock : Int) (hr : Runs db₀)
    (hv : ∃ now r, (c.op now .recovery).run db₀.unwritten = .ok r) (ho : c.success.obligation db₀ = some c.loss.obligationId)
    (actions : List RaceAction) :
    ((actions.foldl (Race.step c) (.start db₀ clock)).NotRefused ∧ AdjustedExactly c (.start db₀ clock) actions) ↔
      Along (Race.step c) (Race.InOrder c) (.start db₀ clock) actions := by
  obtain ⟨now, r, hv⟩ := hv
  have h := Along.detects (I := RaceInv c db₀) (P := Race.NotRefused) (fun s a hs => hs.step a) (fun s a hs => hs.notRefused hv ho a)
    actions _ ((@start_raceInv _ _ clock) hr)
  have h0 : (Race.start db₀ clock).NotRefused := nofun
  rw [h]
  exact ⟨fun hs => hs.1.2, fun hs => ⟨⟨h0, hs⟩, adjustedExactly (start_raceInv hr) actions⟩⟩

def owedRun : List Op :=
  [.record (.obligation ⟨1, 2, 3, 100, "EUR", .open⟩),
    .record (.invoice ⟨10, 60, "EUR", some 1⟩),
    .record (.request ⟨20, 10, 60, "EUR", .created⟩),
    .record (.lateSuccess ⟨60, 20, some 61, 60, "EUR"⟩)]

def owedDb : Db :=
  { invoices := [⟨10, 60, "EUR", some 1⟩]
    requests := [⟨20, 10, 60, "EUR", .created⟩]
    receipts := []
    lateSuccesses := [⟨60, 20, some 61, 60, "EUR"⟩]
    lateSettlements := []
    obligations := [⟨1, 2, 3, 100, "EUR", .open⟩]
    payments := []
    surpluses := []
    losses := []
    adjustments := [] }

def owedContest : Contest := ⟨.late 60, ⟨40, 41⟩, ⟨50, 1, 3, 2, 100, "EUR", 0⟩⟩

def writeOffFirst : List RaceAction :=
  [.begin .writeOff, .tick 1, .begin .recovery, .lock .writeOff, .commit .writeOff, .lock .recovery, .commit .recovery]

theorem recovery_beside_writeOff_first :
    Along (Race.step owedContest) (Race.InOrder owedContest) (.start owedDb 10) writeOffFirst ∧
      (writeOffFirst.foldl (Race.step owedContest) (.start owedDb 10)).db.adjustments = [⟨50, -60, 40⟩] :=
  ⟨(recovery_beside_writeOff owedContest 10 (.run owedRun (.init rfl) rfl) ⟨0, _, rfl⟩ rfl writeOffFirst).mp
    ⟨nofun, adjustedExactly (start_raceInv (.run owedRun (.init rfl) rfl)) _⟩, rfl⟩

def overtaken : List RaceAction :=
  [.begin .recovery, .tick 1, .begin .writeOff, .lock .writeOff, .commit .writeOff, .lock .recovery]

theorem recovery_refused_behind_writeOff : ¬ ∀ (c : Contest) (db₀ : Db) (clock : Int) (actions : List RaceAction), Runs db₀ →
    (∃ now r, (c.op now .recovery).run db₀.unwritten = .ok r) → c.success.obligation db₀ = some c.loss.obligationId →
    (actions.foldl (Race.step c) (.start db₀ clock)).NotRefused := by
  intro h
  have hrun := h owedContest owedDb 10 overtaken (.run owedRun (.init rfl) rfl) ⟨0, _, rfl⟩ rfl
  exact hrun 10 (.refused "financial_loss_adjustment_evidence") rfl

end NawaraCore.Recovery
