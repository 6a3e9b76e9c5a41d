import NawaraCore.Refund.AllocationSound
import NawaraCore.Refund.CapturedMoney

/-!
# Allocation refines the ledger of each captured money

As long as no authorization of other captured money is complete in the payment or the case,
an allocation does what the ledger of its own captured money says.
-/

namespace NawaraCore.Refunds

open Payments (Uuid PaymentError Admitted trim)

/-! ## One captured money of the database -/

def Db.approvedOf (s : Db) (id : Uuid) : Int := ((s.authorizations.find? (·.id = id)).map (·.approvedAmount)).getD 0

def Db.captureOf (s : Db) (id : Uuid) : Option Uuid := (s.authorizations.find? (·.id = id)).map (·.captureFactId)

def Db.on (s : Db) (capture : Uuid) : List RefundAllocation :=
  s.allocations.filter fun x => s.captureOf x.refundAuthorizationId = some capture

def Db.refunded (s : Db) (capture : Uuid) : List Refunded :=
  (s.on capture).map fun x => ⟨x.refundAuthorizationId, s.approvedOf x.refundAuthorizationId, x.amount⟩

/-- The database's rows of one captured money are the abstract ledger after the refunds of that money. -/
structure Tracks (s : Db) (capture : Uuid) (m : Captured) : Prop where
  after : m = Captured.untouched.after (s.refunded capture)
  splits : (s.on capture).map (·.intended) = Captured.untouched.splits (s.refunded capture)
  paid : ∀ z ∈ s.authorizations, z.captureFactId = capture → m.paid z.id = z.allocatedIntended
  closed : m.closed = true ↔ ∃ z ∈ s.authorizations, z.captureFactId = capture ∧ z.completedAt.isSome
  fresh : ∀ id, (∀ z ∈ s.authorizations, z.id ≠ id) → m.paid id = 0

def Undisturbed (s : Db) (z : RefundAuthorization) : Prop :=
  (∃ x ∈ s.authorizations, x.completedAt.isSome ∧ x.captureFactId = z.captureFactId) ∨
    ∀ x ∈ s.authorizations, x.completedAt.isSome → x.refundCaseId = z.refundCaseId ∨ x.paymentId = z.paymentId →
      x.captureFactId = z.captureFactId

def Db.ownIntended (s : Db) (z : RefundAuthorization) (amount : Int) : Int :=
  if s.authorizations.any fun x => x.completedAt.isSome ∧ x.captureFactId = z.captureFactId then 0
  else share z.approvedAmount z.allocatedIntended amount

section
variable {cs : Captures} {s t : Db} {f : RefundFact} {z : RefundAuthorization} {capture : Uuid} {m : Captured}

theorem own_completed : (s.authorizations.any fun x => x.completedAt.isSome ∧ x.captureFactId = z.captureFactId) = true ↔
    ∃ x ∈ s.authorizations, x.completedAt.isSome ∧ x.captureFactId = z.captureFactId := by
  simp only [List.any_eq_true, decide_eq_true_eq]

section
variable (h : LedgerInv cs s)
include h

theorem intended_own_iff (he : Eligible s f z) :
    s.intended z f.amount = s.ownIntended z f.amount ↔ Undisturbed s z := by
  have hz := he.mem_authorization
  have hpos := (h.facts f he.mem).positive
  have hk := h.counters z hz
  unfold Undisturbed Db.ownIntended
  by_cases hown : ∃ x ∈ s.authorizations, x.completedAt.isSome ∧ x.captureFactId = z.captureFactId
  · rw [if_pos (own_completed.mpr hown)]
    refine iff_of_true ?_ (.inl hown)
    obtain ⟨x, hx, hc, hcap⟩ := hown
    have hdone : s.done z = true := by
      rw [Db.done, List.any_eq_true]
      refine ⟨x, hx, ?_⟩
      simp only [decide_eq_true_eq]
      exact ⟨hc, .inr (by rw [← h.payment_of hx, ← h.payment_of hz, hcap])⟩
    simp only [Db.intended, Db.remaining, hdone, if_true]
    omega
  · rw [if_neg (fun h => hown (own_completed.mp h))]
    simp only [hown, false_or]
    have hopen : z.allocatedIntended < z.approvedAmount := by
      refine lt_of_le_of_ne hk.bounded fun hfull => hown ⟨z, hz, ?_, rfl⟩
      exact hk.completed.mpr hfull
    constructor
    · intro heq x hx hc hxz
      exfalso
      have hdone : s.done z = true := by
        rw [Db.done, List.any_eq_true]
        exact ⟨x, hx, by simpa only [decide_eq_true_eq] using ⟨hc, hxz⟩⟩
      simp only [Db.intended, Db.remaining, hdone, if_true, share] at heq
      omega
    · intro hall
      have hdone : s.done z = false := by
        simp only [Db.done, List.any_eq_false, decide_eq_true_eq, not_and]
        exact fun x hx hc hxz => hown ⟨x, hx, hc, hall x hx hc hxz⟩
      simp only [Db.intended, Db.remaining, hdone, share]
      rfl

theorem find_authorization (hz : z ∈ s.authorizations) :
    s.authorizations.find? (·.id = z.id) = some z := find_key h.authorizationIds hz

theorem captureOf_mem (hz : z ∈ s.authorizations) :
    s.captureOf z.id = some z.captureFactId := by
  rw [Db.captureOf, find_authorization h hz]; rfl

theorem approvedOf_mem (hz : z ∈ s.authorizations) : s.approvedOf z.id = z.approvedAmount := by
  rw [Db.approvedOf, find_authorization h hz]; rfl

end

def KeepsMoney (s t : Db) : Prop :=
  ∀ z ∈ s.authorizations, ∃ w ∈ t.authorizations, w.id = z.id ∧ w.captureFactId = z.captureFactId ∧
    w.approvedAmount = z.approvedAmount

theorem KeepsMoney.allocation (hk : KeepsMoney s t) (h : LedgerInv cs s) (ht : LedgerInv cs t) {x : RefundAllocation}
    (hx : x ∈ s.allocations) : t.captureOf x.refundAuthorizationId = s.captureOf x.refundAuthorizationId ∧
      t.approvedOf x.refundAuthorizationId = s.approvedOf x.refundAuthorizationId := by
  obtain ⟨z, hz, hid, -⟩ := (h.allocations x hx).authorization
  obtain ⟨w, hw, hwid, hcap, happ⟩ := hk z hz
  have hw1 := captureOf_mem ht hw
  have hw2 := approvedOf_mem ht hw
  rw [hwid, hid] at hw1 hw2
  rw [← hid] at hw1 hw2 ⊢
  rw [hw1, hw2, captureOf_mem h hz, approvedOf_mem h hz, hcap, happ]
  exact ⟨rfl, rfl⟩

theorem KeepsMoney.on (capture : Uuid) (hk : KeepsMoney s t) (h : LedgerInv cs s) (ht : LedgerInv cs t)
    (hx : t.allocations = s.allocations) : t.on capture = s.on capture ∧ t.refunded capture = s.refunded capture := by
  have hon : t.on capture = s.on capture := by
    unfold Db.on
    rw [hx]
    exact List.filter_congr fun x hm => by rw [(hk.allocation h ht hm).1]
  refine ⟨hon, ?_⟩
  unfold Db.refunded
  rw [hon]
  exact List.map_congr_left fun x hm => by rw [(hk.allocation h ht (List.mem_of_mem_filter hm)).2]

/-! ## Steps -/

theorem Tracks.congr (h : Tracks s capture m) (hz : t.authorizations = s.authorizations)
    (hx : t.allocations = s.allocations) : Tracks t capture m := by
  have hon : t.on capture = s.on capture := by
    unfold Db.on Db.captureOf
    rw [hz, hx]
  have href : t.refunded capture = s.refunded capture := by
    unfold Db.refunded Db.approvedOf
    rw [hon, hz]
  refine ⟨by rw [href]; exact h.after, by rw [hon, href]; exact h.splits, ?_, ?_, ?_⟩ <;> rw [hz]
  · exact h.paid
  · exact h.closed
  · exact h.fresh

theorem Tracks.authorized (h : Tracks s capture m) (hi : LedgerInv cs s) (ht : LedgerInv cs t)
    (hz : t.authorizations = s.authorizations ++ [z]) (hx : t.allocations = s.allocations)
    (hzero : z.allocatedIntended = 0) (hnone : z.completedAt = none) (hnew : ∀ y ∈ s.authorizations, y.id ≠ z.id) :
    Tracks t capture m := by
  have hkeep : KeepsMoney s t := fun y hy => ⟨y, by rw [hz]; exact List.mem_append_left _ hy, rfl, rfl, rfl⟩
  obtain ⟨hon, href⟩ := hkeep.on capture hi ht hx
  refine ⟨by rw [href]; exact h.after, by rw [hon, href]; exact h.splits, ?_, ?_, ?_⟩
  · intro y hy hc
    rw [hz] at hy
    rcases mem_append_row hy with hy | hy
    · exact h.paid y hy hc
    · rw [hy, hzero]
      exact h.fresh z.id hnew
  · rw [h.closed, hz]
    constructor
    · rintro ⟨y, hy, hc⟩
      exact ⟨y, List.mem_append_left _ hy, hc⟩
    · rintro ⟨y, hy, hc, hd⟩
      rcases mem_append_row hy with hy | rfl
      · exact ⟨y, hy, hc, hd⟩
      · rw [hnone] at hd
        cases hd
  · intro id hid
    exact h.fresh id fun y hy => hid y (by rw [hz]; exact List.mem_append_left _ hy)

section
variable {n : Int}

theorem allocated_keeps (h : LedgerInv cs s) (hz : z ∈ s.authorizations) : KeepsMoney s (s.allocated f z n) := by
  intro y hy
  rw [allocated_authorizations h hz]
  obtain ⟨-, -, hcap, happ, -⟩ := allocatedRow_same (s := s) (f := f) (z := z) (n := n)
  have hid := allocatedRow_id (s := s) (f := f) (z := z) (n := n)
  by_cases hyz : y.id = (allocatedRow s f z n).id
  · obtain rfl := eq_of_key h.authorizationIds hy hz (hyz.trans hid)
    exact ⟨_, replaceRow_mem hy hyz, hid, hcap, happ⟩
  · exact ⟨y, replaceRow_other hy hyz, rfl, rfl, rfl⟩

theorem allocated_on (capture : Uuid) (h : LedgerInv cs s) (ht : LedgerInv cs (s.allocated f z n)) (hz : z ∈ s.authorizations) :
    (s.allocated f z n).on capture = s.on capture ++
      if z.captureFactId = capture then [z.allocation f (s.intended z f.amount)] else [] := by
  have hkeep := allocated_keeps (f := f) (n := n) h hz
  have hcap : (s.allocated f z n).captureOf z.id = some z.captureFactId := by
    obtain ⟨w, hw, hwid, hwc, -⟩ := hkeep z hz
    rw [← hwid, captureOf_mem ht hw, hwc]
  unfold Db.on
  rw [allocated_allocations, List.filter_append]
  congr 1
  · exact List.filter_congr fun x hx => by rw [(hkeep.allocation h ht hx).1]
  · have hx : (z.allocation f (s.intended z f.amount)).refundAuthorizationId = z.id := rfl
    by_cases hc : z.captureFactId = capture <;> simp [hx, hcap, hc]

theorem allocated_refunded (capture : Uuid) (h : LedgerInv cs s) (ht : LedgerInv cs (s.allocated f z n)) (hz : z ∈ s.authorizations) :
    (s.allocated f z n).refunded capture = s.refunded capture ++
      if z.captureFactId = capture then [⟨z.id, z.approvedAmount, f.amount⟩] else [] := by
  have hkeep := allocated_keeps (f := f) (n := n) h hz
  have happ : (s.allocated f z n).approvedOf z.id = z.approvedAmount := by
    obtain ⟨w, hw, hwid, -, hwa⟩ := hkeep z hz
    rw [← hwid, approvedOf_mem ht hw, hwa]
  unfold Db.refunded
  rw [allocated_on capture h ht hz, List.map_append]
  congr 1
  · exact List.map_congr_left fun x hx => by rw [(hkeep.allocation h ht (List.mem_of_mem_filter hx)).2]
  · by_cases hc : z.captureFactId = capture <;> simp [hc, RefundAuthorization.allocation, happ]

theorem Tracks.other (h : Tracks s capture m) (hi : LedgerInv cs s) (ht : LedgerInv cs (s.allocated f z n))
    (hz : z ∈ s.authorizations) (hne : z.captureFactId ≠ capture) : Tracks (s.allocated f z n) capture m := by
  have hcap := (allocatedRow_same (s := s) (f := f) (z := z) (n := n)).2.2.1
  have hid := allocatedRow_id (s := s) (f := f) (z := z) (n := n)
  have hon := allocated_on capture hi ht hz
  have href := allocated_refunded capture hi ht hz
  rw [if_neg hne, List.append_nil] at hon href
  have hmem : ∀ y, y.captureFactId = capture → (y ∈ (s.allocated f z n).authorizations ↔ y ∈ s.authorizations) := by
    intro y hy
    rw [allocated_authorizations hi hz]
    constructor
    · intro hm
      rcases mem_replaceRow hm with rfl | ⟨hm, -⟩
      · exact absurd (hcap.symm.trans hy) hne
      · exact hm
    · intro hm
      refine replaceRow_other hm fun he => hne ?_
      rw [← eq_of_key hi.authorizationIds hm hz (he.trans hid)]
      exact hy
  refine ⟨by rw [href]; exact h.after, by rw [hon, href]; exact h.splits,
    fun y hy hc => h.paid y ((hmem y hc).mp hy) hc, ?_, fun id hall => h.fresh id fun y hy => ?_⟩
  · rw [h.closed]
    constructor
    · rintro ⟨y, hy, hc, hd⟩
      exact ⟨y, (hmem y hc).mpr hy, hc, hd⟩
    · rintro ⟨y, hy, hc, hd⟩
      exact ⟨y, (hmem y hc).mp hy, hc, hd⟩
  · obtain ⟨w, hw, hwid, -⟩ := allocated_keeps (f := f) (n := n) hi hz y hy
    rw [← hwid]
    exact hall w hw

theorem Tracks.own (h : Tracks s capture m) (hi : LedgerInv cs s) (ht : LedgerInv cs (s.allocated f z n))
    (he : Eligible s f z) (hc : z.captureFactId = capture) (hu : Undisturbed s z) :
    Tracks (s.allocated f z n) capture (m.take ⟨z.id, z.approvedAmount, f.amount⟩) := by
  have hz := he.mem_authorization
  let r : Refunded := ⟨z.id, z.approvedAmount, f.amount⟩
  have hint : m.intended r = s.intended z f.amount := by
    rw [(intended_own_iff hi he).mpr hu, Db.ownIntended, Captured.intended]
    have hclosed : (m.closed = true) = ((s.authorizations.any fun x =>
        x.completedAt.isSome ∧ x.captureFactId = z.captureFactId) = true) := by
      rw [own_completed, h.closed, hc]
      exact propext ⟨fun ⟨x, hx, ha, hb⟩ => ⟨x, hx, hb, ha⟩, fun ⟨x, hx, ha, hb⟩ => ⟨x, hx, hb, ha⟩⟩
    simp only [hclosed, r, h.paid z hz hc]
  have hafter : (allocatedRow s f z n).allocatedIntended = z.allocatedIntended + s.intended z f.amount := by
    unfold allocatedRow
    split
    · rename_i h0
      have := le_antisymm h0 intended_nonneg
      omega
    · rfl
  have hid := allocatedRow_id (s := s) (f := f) (z := z) (n := n)
  have hzs := allocated_authorizations (f := f) (n := n) hi hz
  have hcap := (allocatedRow_same (s := s) (f := f) (z := z) (n := n)).2.2.1
  have hon := allocated_on capture hi ht hz
  have href := allocated_refunded capture hi ht hz
  rw [if_pos hc] at hon href
  have hamem : allocatedRow s f z n ∈ (s.allocated f z n).authorizations := by
    rw [hzs]; exact replaceRow_mem hz hid.symm
  have hfull := (ht.counters _ hamem).completed
  have happ := (allocatedRow_same (s := s) (f := f) (z := z) (n := n)).2.2.2.1
  refine ⟨?_, ?_, ?_, ?_, ?_⟩
  · rw [href, Captured.after_append, ← h.after]
  · rw [hon, href, List.map_append, Captured.splits_append, h.splits, ← h.after]
    exact congrArg (_ ++ [·]) hint.symm
  · intro y hy hyc
    rw [hzs] at hy
    rcases mem_replaceRow hy with rfl | ⟨hy, hne⟩
    · rw [hid, hafter, ← h.paid z hz hc, ← hint]
      simp [Captured.take, r]
    · rw [← h.paid y hy hyc]
      exact Function.update_of_ne (by rw [← hid]; exact hne) _ _
  · have htotal : m.paid z.id + m.intended r = z.approvedAmount ↔ (allocatedRow s f z n).completedAt.isSome := by
      rw [hfull, hafter, happ, hint, h.paid z hz hc]
    simp only [Captured.take, Bool.or_eq_true, decide_eq_true_eq]
    rw [h.closed]
    constructor
    · rintro (⟨y, hy, hyc, hd⟩ | hd)
      · by_cases hyz : y.id = z.id
        · obtain rfl := eq_of_key hi.authorizationIds hy hz hyz
          refine ⟨_, hamem, hcap.trans hc, ?_⟩
          unfold allocatedRow
          split
          · exact hd
          · rename_i hp
            rw [(open_of_intended (s := s) (f := f) hz (not_le.mp hp)).2] at hd
            cases hd
        · exact ⟨y, by rw [hzs]; exact replaceRow_other hy (by rw [hid]; exact hyz), hyc, hd⟩
      · exact ⟨_, hamem, hcap.trans hc, htotal.mp hd⟩
    · rintro ⟨y, hy, hyc, hd⟩
      rw [hzs] at hy
      rcases mem_replaceRow hy with rfl | ⟨hy, -⟩
      · exact .inr (htotal.mpr hd)
      · exact .inl ⟨y, hy, hyc, hd⟩
  · intro id hall
    have hne : id ≠ z.id := by
      rintro rfl
      exact hall _ hamem hid
    have hold : ∀ y ∈ s.authorizations, y.id ≠ id := by
      intro y hy
      obtain ⟨w, hw, hwid, -⟩ := allocated_keeps (f := f) (n := n) hi hz y hy
      rw [← hwid]
      exact hall w hw
    exact (Function.update_of_ne hne _ _).trans (h.fresh id hold)

end

def Clear (capture : Uuid) (s : Sys) (a : Action) : Prop :=
  ∀ f z now, a = .allocate f.id now → Eligible s.db f z → z.captureFactId = capture → Undisturbed s.db z

theorem Tracks.step (h : Tracks s capture m) (hi : LedgerInv cs s) {l : Option Uuid} (hs : DbStep cs s l t)
    (hclear : ∀ f z, l = some f.id → Eligible s f z → z.captureFactId = capture → Undisturbed s z) :
    ∃ m, Tracks t capture m := by
  have ht := hi.step hs
  cases hs with
  | unchanged => exact ⟨m, h⟩
  | requested a hc => exact ⟨m, h.congr rfl rfl⟩
  | refused ids => exact ⟨m, h.congr rfl rfl⟩
  | updated a b ha hm hc => exact ⟨m, h.congr rfl rfl⟩
  | authorized a b z ha hm hc hz =>
    simp only [Admitted, authorizationInsertChecks, List.forall_mem_cons, Bool.not_eq_true', List.any_eq_false,
      decide_eq_true_eq] at hz
    exact ⟨m, h.authorized hi ht rfl rfl hz.2.1.1 hz.2.1.2 hz.2.2.2.1⟩
  | observed f hc hb hn => exact ⟨m, h.congr rfl rfl⟩
  | contradicted c =>
    obtain ⟨-, -, hz, hx, -⟩ := insertConflict_tables s c
    exact ⟨m, h.congr hz hx⟩
  | associated as => exact ⟨m, h.congr rfl rfl⟩
  | blocked b => exact ⟨m, h.congr rfl rfl⟩
  | allocated f z n he hc hu =>
    by_cases hcap : z.captureFactId = capture
    · exact ⟨_, h.own hi ht he hcap (hclear f z rfl he hcap)⟩
    · exact ⟨m, h.other hi ht he.mem_authorization hcap⟩

theorem tracks_new (capture : Uuid) : Tracks Sys.new.db capture Captured.untouched := by
  refine ⟨rfl, rfl, nofun, ?_, fun _ _ => rfl⟩
  simp [Captured.untouched, Sys.new]

theorem tracks_run : ∀ (as : List Action) {s : Sys}, Runs cs s → (∃ m, Tracks s.db capture m) →
    Along (step cs) (Clear capture) s as → ∃ m, Tracks (run cs s as).db capture m
  | [], _, _, ht, _ => ht
  | a :: as, s, hr, ⟨m, ht⟩, h => by
    obtain ⟨l, hl, hlabel⟩ := step_dbStep cs s a
    refine tracks_run as (.step hr ⟨a, rfl⟩) (ht.step hr.ledger hl ?_) h.2
    intro f z hf he hc
    obtain ⟨now, hn⟩ := hlabel f.id hf
    exact h.1 f z now hn he hc

end

/-- The splits, the counters and the completions of one captured money follow from its own refunds. -/
structure OwnMoney (s : Db) (capture : Uuid) : Prop where
  splits : (s.on capture).map (·.intended) = Captured.untouched.splits (s.refunded capture)
  counters : ∀ z ∈ s.authorizations, z.captureFactId = capture →
    z.allocatedIntended = (Captured.untouched.after (s.refunded capture)).paid z.id
  completed : ∀ z ∈ s.authorizations, z.captureFactId = capture →
    (z.completedAt.isSome ↔ (Captured.untouched.after (s.refunded capture)).paid z.id = z.approvedAmount)

/-- **Refund allocation is per captured money** exactly as long as no other money of the payment or the case is complete. -/
theorem allocation_per_captured_money (cs : Captures) :
    (∀ s f z now, Runs cs s → Eligible s.db f z → ∃ t intended excess completed,
      allocate s.db f.id now = .ok (t, .allocated intended excess completed) ∧
        (intended = s.db.ownIntended z f.amount ↔ Undisturbed s.db z)) ∧
    ∀ capture as, Along (step cs) (Clear capture) Sys.new as → OwnMoney (run cs Sys.new as).db capture := by
  constructor
  · intro s f z now hr he
    obtain ⟨completed, ha⟩ := he.allocate_succeeds hr.ledger now
    exact ⟨_, _, _, _, ha, intended_own_iff hr.ledger he⟩
  · intro capture as h
    obtain ⟨m, ht⟩ := tracks_run as (.init rfl) ⟨_, tracks_new capture⟩ h
    have hi : LedgerInv cs (run cs Sys.new as).db := (Runs.run (.init rfl) as).ledger
    have hpaid := ht.paid
    rw [ht.after] at hpaid
    refine ⟨ht.splits, fun z hz hc => (hpaid z hz hc).symm, fun z hz hc => ?_⟩
    rw [hpaid z hz hc]
    exact (hi.counters z hz).completed

def twoCaptures : Captures where
  paymentOf _ := 1
  amountOf capture := if capture = 1 then 1000 else 500
  currencyOf _ := "EUR"
  providerOf _ := "test"
  settling _ := 1

def bothRefunded : List Action :=
  [ .request 1 ⟨10, 100, none⟩, .commitAuthorized 10 1010 11, .startDispatch 10,
    .observe 10 (.succeeded 1000 "EUR" "re-1") none 12,
    .request 1 ⟨20, 200, some 2⟩, .commitAuthorized 20 1020 21, .startDispatch 20,
    .observe 20 (.succeeded 500 "EUR" "re-2") none 22 ]

theorem completed_capture_starves_other :
    let s := run twoCaptures Sys.new (bothRefunded ++ [.allocate 12 0, .allocate 22 0])
    let t := run twoCaptures Sys.new (bothRefunded ++ [.allocate 22 0, .allocate 12 0])
    Runs twoCaptures s ∧ Runs twoCaptures t ∧
      ((s.db.on 2).map fun x => (x.amount, x.intended, x.excess)) = [(500, 0, 500)] ∧
      ((s.db.authorizations.filter (·.captureFactId = 2)).map (·.completedAt)) = [none] ∧
      ((t.db.on 2).map fun x => (x.amount, x.intended, x.excess)) = [(500, 500, 0)] ∧
      ((t.db.authorizations.filter (·.captureFactId = 2)).map (·.completedAt)) = [some 0] := by
  refine ⟨Runs.run (.init rfl) _, Runs.run (.init rfl) _, ?_, ?_, ?_, ?_⟩ <;> decide

def otherFirst : List Action := bothRefunded ++ [.allocate 22 0]

theorem other_capture_first (capture : Uuid) :
    Along (step twoCaptures) (Clear capture) Sys.new otherFirst := by
  have hother : ∀ (s : Sys) (a : Action), (∀ id now, a ≠ .allocate id now) → Clear capture s a := fun s a ha f z now he => absurd he (ha f.id now)
  refine ⟨hother _ _ nofun, hother _ _ nofun, hother _ _ nofun,
    hother _ _ nofun, hother _ _ nofun, hother _ _ nofun,
    hother _ _ nofun, hother _ _ nofun, fun f z now _ _ _ => .inr fun x hx hc => ?_, trivial⟩
  have hnone : ∀ x ∈ (run twoCaptures Sys.new bothRefunded).db.authorizations, x.completedAt.isSome = false := by decide
  rw [hnone x hx] at hc
  cases hc

theorem allocation_per_captured_money_first :
    ((run twoCaptures Sys.new otherFirst).db.on 2).map (·.intended) = [500] ∧
      OwnMoney (run twoCaptures Sys.new otherFirst).db 2 :=
  ⟨by decide, (allocation_per_captured_money twoCaptures).2 2 otherFirst (other_capture_first 2)⟩

/-! ## The ledger of one authorization -/

structure AllocationLedger (s : Db) : Prop where
  once : (s.allocations.map (·.factId)).Nodup
  split : ∀ x ∈ s.allocations, 0 ≤ x.intended ∧ 0 ≤ x.excess ∧ x.intended + x.excess = x.amount ∧
    ∃ f ∈ s.facts, f.id = x.factId ∧ f.amount = x.amount
  counter : ∀ z ∈ s.authorizations, z.allocatedIntended = s.intendedTotal z.id ∧ z.allocatedIntended ≤ z.approvedAmount
  completed : ∀ z ∈ s.authorizations, z.completedAt.isSome ↔ z.allocatedIntended = z.approvedAmount
  event : ∀ z ∈ s.authorizations,
    s.outbox.filter (·.refundAuthorizationId = z.id) = if z.completedAt.isSome then [z.caseCompleted] else []

def Alone (s : Db) (z : RefundAuthorization) : Prop :=
  z ∈ s.authorizations ∧ ∀ y ∈ s.authorizations, y.captureFactId = z.captureFactId → y = z

section
variable {cs : Captures} {s : Db} {z : RefundAuthorization}

theorem LedgerInv.ledger (h : LedgerInv cs s) : AllocationLedger s where
  once := h.allocationFacts
  split x hx := by
    obtain ⟨hi, he, hs⟩ := (h.allocations x hx).shares
    obtain ⟨f, hf, hid, ha, -⟩ := (h.allocations x hx).fact
    exact ⟨hi, he, hs, f, hf, hid, ha⟩
  counter z hz := ⟨(h.counters z hz).total, (h.counters z hz).bounded⟩
  completed z hz := (h.counters z hz).completed
  event z hz := (h.counters z hz).event

theorem LedgerInv.alone_total (h : LedgerInv cs s) (ha : Alone s z) (ho : OwnMoney s z.captureFactId) :
    z.allocatedIntended = min z.approvedAmount ((s.on z.captureFactId).map (·.amount)).sum := by
  obtain ⟨hz, hsole⟩ := ha
  have hall : ∀ r ∈ s.refunded z.captureFactId, r.authorizationId = z.id ∧ r.approved = z.approvedAmount ∧ 0 < r.amount := by
    intro r hr
    obtain ⟨x, hx, rfl⟩ := List.mem_map.mp hr
    obtain ⟨hx, hcap⟩ := List.mem_filter.mp hx
    obtain ⟨y, hy, hyx, -⟩ := (h.allocations x hx).authorization
    obtain ⟨f, hf, -, hamount, -⟩ := (h.allocations x hx).fact
    rw [← hyx, captureOf_mem h hy] at hcap
    obtain rfl := hsole y hy (by simpa using hcap)
    refine ⟨hyx.symm, ?_, by rw [← hamount]; exact (h.facts f hf).positive⟩
    rw [← hyx]
    exact approvedOf_mem h hy
  have hsum : (s.refunded z.captureFactId).map (·.amount) = (s.on z.captureFactId).map (·.amount) := by
    unfold Db.refunded
    rw [List.map_map]
    rfl
  rw [ho.counters z hz rfl, (Captured.paid_eq_min (h.authorizations z hz).positive hall).1, hsum]

end

/-- **The allocation ledger.** -/
theorem refund_allocation_ledger (cs : Captures) :
    (∀ s, Runs cs s → AllocationLedger s.db ∧ (∀ a, LedgerStep s.db (step cs s a).db) ∧
      ∀ f z now, Eligible s.db f z → ∃ t intended excess completed,
        allocate s.db f.id now = .ok (t, .allocated intended excess completed) ∧ intended + excess = f.amount) ∧
    ∀ as z, Alone (run cs Sys.new as).db z → Along (step cs) (Clear z.captureFactId) Sys.new as →
      z.allocatedIntended = min z.approvedAmount (((run cs Sys.new as).db.on z.captureFactId).map (·.amount)).sum := by
  constructor
  · intro s hr
    refine ⟨hr.ledger.ledger, fun a => ?_, fun f z now he => ?_⟩
    · obtain ⟨l, hl, -⟩ := step_dbStep cs s a
      exact hr.ledger.ledgerStep hl
    · obtain ⟨completed, ha⟩ := he.allocate_succeeds hr.ledger now
      exact ⟨_, _, _, _, ha, by omega⟩
  · intro as z halone h
    have hi : LedgerInv cs (run cs Sys.new as).db := (Runs.run (.init rfl) as).ledger
    obtain ⟨m, ht⟩ := tracks_run as (.init rfl) ⟨_, tracks_new z.captureFactId⟩ h
    refine hi.alone_total halone ⟨ht.splits, fun y hy hc => ?_, fun y hy hc => ?_⟩
    · rw [← ht.paid y hy hc, ht.after]
    · rw [← ht.after, ht.paid y hy hc]
      exact (hi.counters y hy).completed

theorem alone_case_gets_nothing :
    let s := run twoCaptures Sys.new (bothRefunded ++ [.allocate 12 0, .allocate 22 0])
    Runs twoCaptures s ∧ ∃ z, Alone s.db z ∧ z.approvedAmount = 500 ∧ ((s.db.on z.captureFactId).map (·.amount)).sum = 500 ∧
      z.allocatedIntended = 0 := by
  refine ⟨Runs.run (.init rfl) _,
    ⟨21, 20, 1, 200, 1020, 500, "EUR", 2, true, 0, none⟩, ⟨by decide, by decide⟩, rfl, by decide, rfl⟩

def captureTwoReturned : RefundAuthorization := ⟨21, 20, 1, 200, 1020, 500, "EUR", 2, true, 500, some 0⟩

theorem alone_captureTwo : Alone (run twoCaptures Sys.new otherFirst).db captureTwoReturned :=
  ⟨by decide, by decide⟩

theorem refund_allocation_ledger_first :
    AllocationLedger (run twoCaptures Sys.new otherFirst).db ∧
      captureTwoReturned.allocatedIntended = min captureTwoReturned.approvedAmount
        (((run twoCaptures Sys.new otherFirst).db.on captureTwoReturned.captureFactId).map (·.amount)).sum :=
  ⟨((refund_allocation_ledger twoCaptures).1 (run twoCaptures Sys.new otherFirst)
      (Runs.run (.init rfl) otherFirst)).1,
    (refund_allocation_ledger twoCaptures).2 otherFirst captureTwoReturned alone_captureTwo
      (other_capture_first captureTwoReturned.captureFactId)⟩

end NawaraCore.Refunds
