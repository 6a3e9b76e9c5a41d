import NawaraCore.Lib.Outcome
import NawaraCore.Loss.LossWorkers

/-!
# The chargeback loss cap

The losses of a capture that are within its cap add up to at most its gross, so one of them
at most is its first full loss; what a chargeback reverses, recovers or writes off follows
that loss alone.
-/

namespace NawaraCore.Losses

def Db.capturedKey (db : Db) : CaptureKey → Option (Nat × String)
  | .settling paymentId =>
    (db.requests.find? fun r => r.paymentId = some paymentId).map fun r => (r.amount, r.currency)
  | .late factId => (db.lateSuccessOf factId).map fun s => (s.amount, s.currency)

def histSum (db : Db) (key : CaptureKey) (currency : String) : Nat :=
  ((historical db.losses key currency).map DisputeLoss.chargebackAmount).sum

def within (caps : List CaptureLossCap) (key : CaptureKey) : List CaptureLossCap :=
  caps.filter fun c => c.captureKey = key ∧ c.withinCap

def withinSum (caps : List CaptureLossCap) (key : CaptureKey) : Nat :=
  ((within caps key).map CaptureLossCap.chargebackAmount).sum

def withinOf (before : Bool) (caps : List CaptureLossCap) (key : CaptureKey) : List CaptureLossCap :=
  caps.filter fun c => c.captureKey = key ∧ c.withinCap ∧ c.beforeS0c10 = before

def withinOfSum (before : Bool) (caps : List CaptureLossCap) (key : CaptureKey) : Nat :=
  ((withinOf before caps key).map CaptureLossCap.chargebackAmount).sum

theorem withinSum_eq (caps : List CaptureLossCap) (key : CaptureKey) :
    withinSum caps key = withinOfSum true caps key + withinOfSum false caps key := by
  unfold withinSum withinOfSum within withinOf
  induction caps with
  | nil => rfl
  | cons c caps ih =>
    by_cases h : c.captureKey = key ∧ c.withinCap
    · cases hb : c.beforeS0c10 <;> simp [h.1, h.2, hb] at ih ⊢ <;> omega
    · have h₁ : ∀ b, ¬ (c.captureKey = key ∧ c.withinCap ∧ c.beforeS0c10 = b) := fun b hb => h ⟨hb.1, hb.2.1⟩
      rw [List.filter_cons_of_neg (by simpa using h), List.filter_cons_of_neg (by simpa using h₁ true),
        List.filter_cons_of_neg (by simpa using h₁ false)]
      exact ih

theorem withinOfSum_append (before : Bool) (caps : List CaptureLossCap) (c : CaptureLossCap) (key : CaptureKey) :
    withinOfSum before (caps ++ [c]) key = withinOfSum before caps key +
      if c.captureKey = key ∧ c.withinCap ∧ c.beforeS0c10 = before then c.chargebackAmount else 0 := by
  unfold withinOfSum withinOf
  rw [List.filter_append, List.map_append, List.sum_append]
  by_cases h : c.captureKey = key ∧ c.withinCap ∧ c.beforeS0c10 = before
  · rw [if_pos h, List.filter_cons_of_pos (by simpa using h)]
    simp
  · rw [if_neg h, List.filter_cons_of_neg (by simpa using h)]
    simp

/-! ## The invariant of the ledger -/

structure Placed (db : Db) (l : DisputeLoss) (c : CaptureLossCap) : Prop where
  dispute : c.disputeId = l.disputeId
  key : c.captureKey = l.key
  before : c.beforeS0c10 = l.beforeS0c10
  amount : c.chargebackAmount = l.chargebackAmount
  captured : db.capturedKey c.captureKey = some (c.gross, c.currency)
  gross : 0 < c.gross
  currency : c.sameCurrency = true → l.currency = c.currency ∧ l.chargebackCurrency = c.currency
  within : c.withinCap = true → c.sameCurrency = true
  historical : c.withinCap = true → c.beforeS0c10 = true → histSum db c.captureKey c.currency ≤ c.gross
  full : c.firstFull = true → c.withinCap = true ∧ c.chargebackAmount = c.gross

structure Ledger (db : Db) : Prop where
  requestKeys : (db.requests.map PaymentRequest.id).Nodup
  paymentIds : UniqueOn (fun r => r.paymentId ≠ none) PaymentRequest.paymentId db.requests
  facts : UniqueOn (fun s => s.factId ≠ none) PaymentLateSuccess.factId db.lateSuccesses
  lossKeys : (db.losses.map DisputeLoss.disputeId).Nodup
  positive : ∀ l ∈ db.losses, 0 < l.chargebackAmount
  capKeys : (db.caps.map CaptureLossCap.disputeId).Nodup
  placed : ∀ c ∈ db.caps, ∃ l ∈ db.losses, Placed db l c
  capped : ∀ c ∈ db.caps, withinOfSum false db.caps c.captureKey = 0 ∨
    histSum db c.captureKey c.currency + withinOfSum false db.caps c.captureKey ≤ c.gross

variable {db db' : Db} {l : DisputeLoss} {c d : CaptureLossCap}

theorem Placed.capture {m : DisputeLoss} (hc : Placed db l c) (hd : Placed db m d)
    (hk : d.captureKey = c.captureKey) : d.gross = c.gross ∧ d.currency = c.currency := by
  have h := hd.captured
  rw [hk, hc.captured] at h
  have := Prod.mk.inj (Option.some.inj h)
  exact ⟨this.1.symm, this.2.symm⟩

variable {x : Nat × String}

section
variable (h : Ledger db)
include h

theorem Ledger.historical_le (hc : c ∈ db.caps) :
    withinOfSum true db.caps c.captureKey ≤ histSum db c.captureKey c.currency := by
  unfold withinOfSum histSum
  refine sum_le_of_keys (k := CaptureLossCap.disputeId) (j := DisputeLoss.disputeId)
    (h.capKeys.sublist (List.filter_sublist.map _)) fun d hd => ?_
  obtain ⟨hdm, hd⟩ := List.mem_filter.mp hd
  simp only [decide_eq_true_eq] at hd
  obtain ⟨hk, hw, hb⟩ := hd
  obtain ⟨l, hl, hp⟩ := h.placed d hdm
  obtain ⟨lc, -, hpc⟩ := h.placed c hc
  have hcur := (hpc.capture hp hk).2
  refine ⟨l, List.mem_filter.mpr ⟨hl, ?_⟩, hp.dispute.symm, hp.amount.symm⟩
  have := hp.currency (hp.within hw)
  simp only [decide_eq_true_eq]
  exact ⟨hp.before ▸ hb, this.1.trans hcur, this.2.trans hcur, hp.key.symm.trans hk⟩

theorem Ledger.within_le (hc : c ∈ db.caps) :
    withinSum db.caps c.captureKey ≤ c.gross := by
  obtain ⟨l, -, hp⟩ := h.placed c hc
  have hle := h.historical_le hc
  rw [withinSum_eq]
  rcases h.capped c hc with hnew | hnew
  · -- only historical losses: one of them within the cap bounds them all
    rw [hnew]
    by_cases hz : withinOfSum true db.caps c.captureKey = 0
    · omega
    · have hne : withinOf true db.caps c.captureKey ≠ [] := by
        intro he
        apply hz
        unfold withinOfSum
        rw [he]
        rfl
      obtain ⟨d, hd⟩ := List.exists_mem_of_ne_nil _ hne
      obtain ⟨hdm, hd⟩ := List.mem_filter.mp hd
      simp only [decide_eq_true_eq] at hd
      obtain ⟨m, -, hq⟩ := h.placed d hdm
      have hcap := hq.historical hd.2.1 hd.2.2
      obtain ⟨hg, hcur⟩ := hp.capture hq hd.1
      rw [hd.1, hg, hcur] at hcap
      omega
  · omega

theorem Ledger.two_within (hc : c ∈ db.caps) (hd : d ∈ db.caps)
    (hk : d.captureKey = c.captureKey) (hcw : c.withinCap) (hdw : d.withinCap) (hne : c ≠ d) :
    c.chargebackAmount + d.chargebackAmount ≤ c.gross := by
  refine Nat.le_trans ?_ (h.within_le hc)
  have hmc : c ∈ within db.caps c.captureKey := List.mem_filter.mpr ⟨hc, by simp [hcw]⟩
  have hmd : d ∈ within db.caps c.captureKey := List.mem_filter.mpr ⟨hd, by simp [hk, hdw]⟩
  have hkeys : ([c, d].map CaptureLossCap.disputeId).Nodup := by
    simp only [List.map_cons, List.map_nil, List.nodup_cons, List.mem_singleton, List.not_mem_nil, not_false_eq_true,
      List.nodup_nil, and_true]
    exact fun he => hne (eq_of_key h.capKeys hc hd he)
  have := sum_le_of_keys (m := within db.caps c.captureKey) (j := CaptureLossCap.disputeId)
    (f := CaptureLossCap.chargebackAmount) (g := CaptureLossCap.chargebackAmount) hkeys (by
      intro a ha
      simp only [List.mem_cons, List.not_mem_nil, or_false] at ha
      rcases ha with rfl | rfl
      · exact ⟨_, hmc, rfl, rfl⟩
      · exact ⟨_, hmd, rfl, rfl⟩)
  simpa [withinSum] using this

theorem Ledger.firstFull_unique (hc : c ∈ db.caps) (hd : d ∈ db.caps)
    (hk : d.captureKey = c.captureKey) (hcf : c.firstFull) (hdf : d.firstFull) : c = d := by
  by_contra hne
  obtain ⟨l, -, hp⟩ := h.placed c hc
  obtain ⟨m, -, hq⟩ := h.placed d hd
  have hsum := h.two_within hc hd hk (hp.full hcf).1 (hq.full hdf).1 hne
  have hg := hp.gross
  have hgross := (hp.capture hq hk).1
  have h₁ := (hp.full hcf).2
  have h₂ := (hq.full hdf).2
  omega

/-! ## The place of a loss -/

theorem captured_key (hc : db.captured l = some x) :
    db.capturedKey l.key = some x := by
  unfold Db.captured at hc
  unfold Db.capturedKey DisputeLoss.key
  cases hl : l.capture with
  | settling_capture f =>
    simp only [hl, Option.map_eq_some_iff] at hc ⊢
    obtain ⟨r, hr, hx⟩ := hc
    have hm := List.mem_of_find?_eq_some hr
    have hid : r.id = l.paymentRequestId ∧ r.paymentId = some l.paymentId := by simpa using List.find?_some hr
    refine ⟨r, ?_, hx⟩
    rw [← hid.2]
    exact h.paymentIds.find hm (by simp [hid.2]) fun y hy => by simp [hy, hid.2]
  | late_capture f =>
    simp only [hl, Option.map_eq_some_iff] at hc ⊢
    obtain ⟨s, hs, hx⟩ := hc
    have hm := List.mem_of_find?_eq_some hs
    have hid : s.factId = some f ∧ s.paymentId = l.paymentId ∧ s.paymentRequestId = l.paymentRequestId := by
      simpa using List.find?_some hs
    refine ⟨s, ?_, hx⟩
    unfold Db.lateSuccessOf
    rw [← hid.1]
    exact h.facts.find hm (by simp [hid.1]) fun y hy => by simp [hy, hid.1]

theorem Ledger.within_le_placed (key : CaptureKey) :
    withinOfSum false db.caps key ≤ ((Losses.placed db.caps key).map CaptureLossCap.chargebackAmount).sum := by
  unfold withinOfSum
  refine sum_le_of_keys (k := CaptureLossCap.disputeId) (j := CaptureLossCap.disputeId)
    (h.capKeys.sublist (List.filter_sublist.map _)) fun d hd => ⟨d, ?_, rfl, rfl⟩
  obtain ⟨hdm, hd⟩ := List.mem_filter.mp hd
  simp only [decide_eq_true_eq] at hd
  obtain ⟨l, -, hp⟩ := h.placed d hdm
  refine List.mem_filter.mpr ⟨hdm, ?_⟩
  simp [hd.1, hd.2.2, hp.within hd.2.1]

theorem derive_ok (hl : l ∈ db.losses)
    (hd : db.derive l = .ok c) : Placed db l c ∧ (c.withinCap = true → c.beforeS0c10 = false →
      histSum db c.captureKey c.currency + withinOfSum false db.caps c.captureKey + c.chargebackAmount ≤ c.gross) := by
  unfold Db.derive at hd
  cases hcap : db.captured l with
  | none =>
    rw [hcap] at hd
    cases hd
  | some x =>
    obtain ⟨g, cur⟩ := x
    simp only [hcap] at hd
    obtain ⟨hg, hd⟩ := guard_ok hd
    cases hd
    have hkey := captured_key h hcap
    have hle := h.within_le_placed l.key
    by_cases hsame : l.currency = cur ∧ l.chargebackCurrency = cur
    · have hmem : l.beforeS0c10 = true → l ∈ historical db.losses l.key cur := fun hb =>
        List.mem_filter.mpr ⟨hl, by simp [hb, hsame.1, hsame.2]⟩
      have hone : (historical db.losses l.key cur).length = 1 → l.beforeS0c10 = true →
          histSum db l.key cur = l.chargebackAmount := by
        intro hlen hb
        obtain ⟨m, hm⟩ := List.length_eq_one_iff.mp hlen
        have := hmem hb
        rw [hm, List.mem_singleton] at this
        unfold histSum
        rw [hm, ← this]
        simp
      refine ⟨⟨rfl, rfl, rfl, rfl, hkey, Nat.pos_of_ne_zero hg, fun _ => hsame, ?_, ?_, ?_⟩, ?_⟩
      · simp [hsame]
      · intro hw hb
        dsimp only at hw hb ⊢
        simp only [hsame, hb, and_self, decide_true, not_true_eq_false, if_false, if_true] at hw
        by_cases hlen : (historical db.losses l.key cur).length = 1
        · rw [if_pos hlen] at hw
          rw [hone hlen hb]
          simpa using hw
        · rw [if_neg hlen] at hw
          simpa [histSum] using hw
      · intro hf
        simp only [Bool.and_eq_true, decide_eq_true_eq] at hf
        exact ⟨by simpa using hf.1.1.2, hf.2⟩
      · intro hw hb
        dsimp only at hw hb ⊢
        simp only [hsame, hb, and_self, decide_true, not_true_eq_false, if_false, Bool.false_eq_true, decide_eq_true_eq] at hw
        unfold histSum
        omega
    · refine ⟨⟨rfl, rfl, rfl, rfl, hkey, Nat.pos_of_ne_zero hg, ?_, ?_, ?_, ?_⟩, ?_⟩ <;> simp [hsame]

end

/-! ## The steps of the ledger -/

def Db.records (db : Db) (key : CaptureKey) (x : Nat × String) : Prop :=
  match key with
  | .settling paymentId => ∃ r ∈ db.requests, r.paymentId = some paymentId ∧ x = (r.amount, r.currency)
  | .late factId => ∃ s ∈ db.lateSuccesses, s.factId = some factId ∧ x = (s.amount, s.currency)

theorem capturedKey_iff (hr : UniqueOn (fun r => r.paymentId ≠ none) PaymentRequest.paymentId db.requests)
    (hs : UniqueOn (fun s => s.factId ≠ none) PaymentLateSuccess.factId db.lateSuccesses) {key : CaptureKey}
    : db.capturedKey key = some x ↔ db.records key x := by
  unfold Db.capturedKey Db.records
  cases key with
  | settling p =>
    simp only [Option.map_eq_some_iff]
    constructor
    · rintro ⟨r, hf, hx⟩
      exact ⟨r, List.mem_of_find?_eq_some hf, by simpa using List.find?_some hf, hx.symm⟩
    · rintro ⟨r, hm, hp, hx⟩
      refine ⟨r, ?_, hx.symm⟩
      rw [← hp]
      exact hr.find hm (by simp [hp]) fun y hy => by simp [hy, hp]
  | late f =>
    simp only [Option.map_eq_some_iff]
    constructor
    · rintro ⟨s, hf, hx⟩
      exact ⟨s, List.mem_of_find?_eq_some hf, by simpa using List.find?_some hf, hx.symm⟩
    · rintro ⟨s, hm, hp, hx⟩
      refine ⟨s, ?_, hx.symm⟩
      unfold Db.lateSuccessOf
      rw [← hp]
      exact hs.find hm (by simp [hp]) fun y hy => by simp [hy, hp]

structure KeepsPlaces (db db' : Db) : Prop where
  records : ∀ key x, db.records key x → db'.records key x
  historical : ∀ key cur, historical db'.losses key cur = historical db.losses key cur
  losses : db.losses ⊆ db'.losses
  caps : db'.caps = db.caps

theorem Placed.keep (h : Ledger db) (hk : KeepsPlaces db db')
    (hr : UniqueOn (fun r => r.paymentId ≠ none) PaymentRequest.paymentId db'.requests)
    (hs : UniqueOn (fun s => s.factId ≠ none) PaymentLateSuccess.factId db'.lateSuccesses)
    (hp : Placed db l c) : Placed db' l c := by
  refine ⟨hp.dispute, hp.key, hp.before, hp.amount, ?_, hp.gross, hp.currency, hp.within, ?_, hp.full⟩
  · exact (capturedKey_iff hr hs).mpr (hk.records _ _ ((capturedKey_iff h.paymentIds h.facts).mp hp.captured))
  · unfold histSum
    rw [hk.historical]
    exact hp.historical

theorem Ledger.keep (h : Ledger db) (hk : KeepsPlaces db db')
    (hrk : (db'.requests.map PaymentRequest.id).Nodup)
    (hr : UniqueOn (fun r => r.paymentId ≠ none) PaymentRequest.paymentId db'.requests)
    (hs : UniqueOn (fun s => s.factId ≠ none) PaymentLateSuccess.factId db'.lateSuccesses)
    (hl : (db'.losses.map DisputeLoss.disputeId).Nodup) (hpos : ∀ l ∈ db'.losses, 0 < l.chargebackAmount) : Ledger db' := by
  refine ⟨hrk, hr, hs, hl, hpos, by rw [hk.caps]; exact h.capKeys, ?_, ?_⟩
  · rw [hk.caps]
    intro c hc
    obtain ⟨l, hm, hp⟩ := h.placed c hc
    exact ⟨l, hk.losses hm, hp.keep h hk hr hs⟩
  · unfold histSum
    rw [hk.caps]
    simp only [hk.historical]
    exact h.capped

structure SameLedger (db db' : Db) : Prop where
  requests : db'.requests = db.requests
  lateSuccesses : db'.lateSuccesses = db.lateSuccesses
  losses : db'.losses = db.losses
  caps : db'.caps = db.caps

theorem SameLedger.refl (db : Db) : SameLedger db db := ⟨rfl, rfl, rfl, rfl⟩

theorem SameLedger.keeps {db db' : Db} (h : SameLedger db db') : KeepsPlaces db db' := by
  refine ⟨fun key x hx => ?_, fun key cur => by rw [h.losses], by rw [h.losses]; exact fun _ hm => hm, h.caps⟩
  unfold Db.records at hx ⊢
  rw [h.requests, h.lateSuccesses]
  exact hx

theorem Ledger.same {db db' : Db} (h : Ledger db) (hk : SameLedger db db') : Ledger db' :=
  h.keep hk.keeps (by rw [hk.requests]; exact h.requestKeys) (by rw [hk.requests]; exact h.paymentIds)
    (by rw [hk.lateSuccesses]; exact h.facts) (by rw [hk.losses]; exact h.lossKeys) (by rw [hk.losses]; exact h.positive)

theorem recordCaptureLoss_cases {d : Uuid} (h : recordCaptureLoss db d = .ok db') :
    db' = db ∨ ∃ l ∈ db.losses, ∃ c, db.derive l = .ok c ∧ (∀ x ∈ db.caps, x.disputeId ≠ c.disputeId) ∧
      db' = { db with caps := db.caps ++ [c] } := by
  unfold recordCaptureLoss at h
  cases hl : db.loss? d with
  | none =>
    rw [hl] at h
    cases h
  | some l =>
    have hm := List.mem_of_find?_eq_some hl
    have hid : l.disputeId = d := by simpa using List.find?_some hl
    simp only [hl] at h
    split at h
    · cases h
      exact .inl rfl
    · cases h
    · rename_i c hd
      split at h
      · cases h
        exact .inl rfl
      · rename_i hf
        cases h
        have hcd : c.disputeId = d := by
          unfold Db.derive at hd
          split at hd
          · cases hd
          · obtain ⟨-, hd⟩ := guard_ok hd
            cases hd
            exact hid
        exact .inr ⟨l, hm, c, hd, by simpa [hcd] using hf, rfl⟩

theorem recordCaptureLoss_ledger {d : Uuid} (hi : Ledger db) (h : recordCaptureLoss db d = .ok db') :
    Ledger db' := by
  rcases recordCaptureLoss_cases h with rfl | ⟨l, hl, c, hd, hf, rfl⟩
  · exact hi
  · obtain ⟨hp, hcap⟩ := derive_ok hi hl hd
    have hp' : Placed { db with caps := db.caps ++ [c] } l c :=
      ⟨hp.dispute, hp.key, hp.before, hp.amount, hp.captured, hp.gross, hp.currency, hp.within, hp.historical, hp.full⟩
    have hold : ∀ {m : DisputeLoss} {x : CaptureLossCap}, Placed db m x → Placed { db with caps := db.caps ++ [c] } m x :=
      fun hx => ⟨hx.dispute, hx.key, hx.before, hx.amount, hx.captured, hx.gross, hx.currency, hx.within, hx.historical, hx.full⟩
    refine ⟨hi.requestKeys, hi.paymentIds, hi.facts, hi.lossKeys, hi.positive, nodup_append_row hi.capKeys hf, ?_, ?_⟩
    · intro x hx
      rcases mem_append_row hx with hx | rfl
      · obtain ⟨m, hm, hxm⟩ := hi.placed x hx
        exact ⟨m, hm, hold hxm⟩
      · exact ⟨l, hl, hp'⟩
    · intro x hx
      dsimp only at hx ⊢
      change _ ∨ histSum db x.captureKey x.currency + _ ≤ _
      rw [withinOfSum_append]
      have hxc : x.captureKey = c.captureKey → c.withinCap = true → c.beforeS0c10 = false →
          histSum db x.captureKey x.currency + (withinOfSum false db.caps x.captureKey + c.chargebackAmount) ≤ x.gross := by
        intro hk hw hb
        have hxy : x.gross = c.gross ∧ x.currency = c.currency := by
          rcases mem_append_row hx with hx | rfl
          · obtain ⟨m, -, hxm⟩ := hi.placed x hx
            exact hp.capture hxm hk
          · exact ⟨rfl, rfl⟩
        have := hcap hw hb
        rw [hk, hxy.1, hxy.2]
        omega
      by_cases hnew : c.captureKey = x.captureKey ∧ c.withinCap = true ∧ c.beforeS0c10 = false
      · rw [if_pos hnew]
        exact .inr (hxc hnew.1.symm hnew.2.1 hnew.2.2)
      · rw [if_neg hnew, Nat.add_zero]
        rcases mem_append_row hx with hx | hx
        · exact hi.capped x hx
        · -- the first row of its capture
          rw [hx] at hnew ⊢
          by_cases hz : withinOfSum false db.caps c.captureKey = 0
          · exact .inl hz
          · refine .inr ?_
            obtain ⟨y, hy⟩ : ∃ y, y ∈ withinOf false db.caps c.captureKey := by
              apply List.exists_mem_of_ne_nil
              intro he
              apply hz
              unfold withinOfSum
              rw [he]
              rfl
            obtain ⟨hym, hy⟩ := List.mem_filter.mp hy
            simp only [decide_eq_true_eq] at hy
            obtain ⟨m, -, hym'⟩ := hi.placed y hym
            obtain ⟨hg, hcur⟩ := hp.capture hym' hy.1
            have := hi.capped y hym
            rw [hy.1, hg, hcur] at this
            exact this.resolve_left hz

theorem insertLoss_ledger (hi : Ledger db) (h : db.insertLoss l = .ok db') :
    Ledger db' := by
  unfold Db.insertLoss at h
  obtain ⟨-, -, h⟩ := guards_ok h
  obtain ⟨hpos, hf, h⟩ := guards_ok h
  cases h
  have hf : ∀ x ∈ db.losses, x.disputeId ≠ l.disputeId ∧ x.chargebackFactId ≠ l.chargebackFactId := by simpa using hf
  refine hi.keep ⟨fun _ _ hx => hx, fun key cur => ?_, fun _ hm => List.mem_append_left _ hm, rfl⟩ hi.requestKeys hi.paymentIds
    hi.facts (nodup_append_row hi.lossKeys fun x hx => (hf x hx).1) ?_
  · unfold historical
    rw [List.filter_append, List.filter_cons_of_neg (by simp)]
    simp
  · intro x hx
    rcases mem_append_row hx with hx | rfl
    · exact hi.positive x hx
    · dsimp only
      omega

theorem record_ledger {r : Record} (hi : Ledger db) (h : db.record r = .ok db') : Ledger db' := by
  cases r with
  | request r =>
    unfold Db.record at h
    obtain ⟨hf, hn, h⟩ := guards_ok h
    cases h
    have hnone : r.paymentId = none := by
      by_contra hne
      exact hn (.inl hne)
    refine hi.keep ⟨fun key x hx => ?_, fun _ _ => rfl, fun _ hm => hm, rfl⟩ (nodup_append_row hi.requestKeys (by simpa using hf))
      (hi.paymentIds.append fun _ _ _ hp => absurd hnone hp) hi.facts hi.lossKeys hi.positive
    cases key with
    | settling p =>
      obtain ⟨y, hy, hyx⟩ := hx
      exact ⟨y, List.mem_append_left _ hy, hyx⟩
    | late f => exact hx
  | paymentId r p =>
    unfold Db.record at h
    obtain ⟨hr, hu, h⟩ := guards_ok h
    cases h
    simp only [not_or, not_not] at hr
    have hu : ∀ x ∈ db.requests, x.paymentId ≠ some p := by simpa using hu
    refine hi.keep ⟨fun key x hx => ?_, fun _ _ => rfl, fun _ hm => hm, rfl⟩
      (by dsimp only; rw [map_replaceRow fun x _ hx => hx]; exact hi.requestKeys)
      (hi.paymentIds.replace fun x hx _ _ _ => hu x hx) hi.facts hi.lossKeys hi.positive
    cases key with
    | settling q =>
      obtain ⟨y, hy, hyp, hyx⟩ := hx
      refine ⟨y, replaceRow_other hy ?_, hyp, hyx⟩
      intro he
      rw [eq_of_key hi.requestKeys hy hr.1 he, hr.2] at hyp
      cases hyp
    | late f => exact hx
  | lateSuccess s =>
    unfold Db.record at h
    obtain ⟨-, hf, h⟩ := guards_ok h
    obtain ⟨-, h⟩ := guard_ok h
    cases h
    have hf : ∀ x ∈ db.lateSuccesses, x.lateSuccessId ≠ s.lateSuccessId ∧ (s.factId ≠ none → x.factId ≠ s.factId) := by
      simpa using hf
    refine hi.keep ⟨fun key x hx => ?_, fun _ _ => rfl, fun _ hm => hm, rfl⟩ hi.requestKeys hi.paymentIds
      (hi.facts.append fun x hx _ hn => (hf x hx).2 hn) hi.lossKeys hi.positive
    cases key with
    | settling p => exact hx
    | late f =>
      obtain ⟨y, hy, hyx⟩ := hx
      exact ⟨y, List.mem_append_left _ hy, hyx⟩
  | purchase p =>
    simp only [Db.record] at h
    cases hr : db.request? p.paymentRequestId with
    | none =>
      rw [hr] at h
      cases h
    | some r =>
      simp only [hr] at h
      obtain ⟨-, -, h⟩ := guards_ok h
      obtain ⟨-, -, h⟩ := guards_ok h
      cases h
      exact hi.same ⟨rfl, rfl, rfl, rfl⟩
  | refundCase r =>
    unfold Db.record at h
    obtain ⟨-, -, h⟩ := guards_ok h
    obtain ⟨-, h⟩ := guard_ok h
    cases h
    exact hi.same ⟨rfl, rfl, rfl, rfl⟩
  | refundStatus r status =>
    unfold Db.record at h
    obtain ⟨-, h⟩ := guard_ok h
    cases h
    exact hi.same ⟨rfl, rfl, rfl, rfl⟩
  | relay x =>
    unfold Db.record at h
    obtain ⟨-, -, h⟩ := guards_ok h
    cases h
    exact hi.same ⟨rfl, rfl, rfl, rfl⟩
  | relayStatus x status =>
    unfold Db.record at h
    obtain ⟨-, h⟩ := guard_ok h
    cases h
    exact hi.same ⟨rfl, rfl, rfl, rfl⟩
  | refundReversal p =>
    unfold Db.record Db.insertReversal at h
    obtain ⟨-, h⟩ := guard_ok h
    cases h
    exact hi.same ⟨rfl, rfl, rfl, rfl⟩
  | recoveryPayment l =>
    unfold Db.record at h
    cases h
    exact hi.same ⟨rfl, rfl, rfl, rfl⟩

end NawaraCore.Losses
