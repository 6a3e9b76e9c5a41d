import NawaraCore.Reconciliation.Writes

/-!
# The evidence of a case

The captured movement that a case of captured money is about, what every transaction keeps of
the evidence behind a case, and the agreement of a case with its evidence.
-/

namespace NawaraCore.Reconciliation

open Subscriptions (Uuid)
open PaymentRequests (PaymentRequestStatus Failure transitionAllowed)
open Losses (Capture)

inductive Movement
  | settling (paymentId : Uuid)
  | capture (paymentId factId : Uuid)
deriving DecidableEq

def Movement.returnedBy : Movement → RefundCase → Bool
  | .settling paymentId, r => r.paymentId = paymentId ∧ (Capture.settling_capture none).refundedBy r.capture
  | .capture paymentId factId, r => r.paymentId = paymentId ∧ (Capture.late_capture factId).refundedBy r.capture

def PaymentRequest.movement (r : PaymentRequest) : Option Movement := r.paymentId.map .settling

def LateSuccess.movement (l : LateSuccess) : Option Movement := l.factId.map (.capture l.paymentId)

def Db.settlement? (db : Db) (id : Uuid) : Option LateSettlement := db.lateSettlements.find? fun s => s.id = id

def Db.movement (db : Db) (c : ReconciliationCase) : Option Movement :=
  match c.caseType with
  | .late_success => (db.lateSuccess? c.evidenceKey).bind LateSuccess.movement
  | .unmatched_capture => c.paymentId.map fun p => .capture p c.evidenceKey
  | .unrouted_settlement => (db.request? c.evidenceKey).bind PaymentRequest.movement
  | .late_assisted_settlement => (db.settlement? c.evidenceKey).bind fun s => match s.evidence with
    | .receipt _ => (db.request? s.paymentRequestId).bind PaymentRequest.movement
    | .lateSuccess id => (db.lateSuccess? id).bind LateSuccess.movement
  | _ => none

def Db.returnedBy (db : Db) (c : ReconciliationCase) (r : RefundCase) : Prop :=
  r.status = .completed ∧ ∃ m, db.movement c = some m ∧ m.returnedBy r = true

/-! ## What stays -/

def Relay.definitive (x : Relay) : Bool := x.attemptStatus.any fun a => a ≠ .attempt .authorizationPending

/-- What a transaction keeps of the evidence: rows are appended, a payment is bound once, a completed refund stays completed,
and the effect of a loss is held back by the completed refund of its movement. -/
structure Later (db db' : Db) : Prop where
  requests : ∀ id r, db.request? id = some r → ∃ r', db'.request? id = some r' ∧ r'.invoiceId = r.invoiceId ∧
    ∀ p, r.paymentId = some p → r'.paymentId = some p
  lateSuccesses : ∀ id l, db.lateSuccess? id = some l → db'.lateSuccess? id = some l
  lateSettlements : db.lateSettlements <+: db'.lateSettlements
  refundCases : ∀ r ∈ db.refundCases, ∃ status, { r with status } ∈ db'.refundCases ∧ (r.status = .completed → status = .completed)
  relays : ∀ x ∈ db.relays, x.definitive = true → ∃ y ∈ db'.relays, y.id = x.id ∧ y.definitive = true
  applications : db.applications ⊆ db'.applications
  surplusRefunds : db.surplusRefunds ⊆ db'.surplusRefunds
  surplusConfirmations : db.surplusConfirmations ⊆ db'.surplusConfirmations
  refundEffects : db.refundEffects ⊆ db'.refundEffects
  lossEffects : db.lossEffects ⊆ db'.lossEffects
  appliedLosses : db.appliedLosses ⊆ db'.appliedLosses
  losses : db.losses ⊆ db'.losses
  held : ∀ l ∈ db.losses, db.overlap l = true → l.disputeId ∉ db.appliedLosses → l.disputeId ∉ db'.appliedLosses
  cases : ∀ id c, db.case? id = some c → db'.case? id = some c

variable {c : ReconciliationCase}
variable {r : RefundCase}

section
variable {db db' db'' : Db}

theorem Later.refl (db : Db) : Later db db where
  requests _ r h := ⟨r, h, rfl, fun _ hp => hp⟩
  lateSuccesses _ _ h := h
  lateSettlements := List.prefix_refl _
  refundCases r h := ⟨r.status, h, id⟩
  relays x hx hd := ⟨x, hx, rfl, hd⟩
  applications := List.Subset.refl _
  surplusRefunds := List.Subset.refl _
  surplusConfirmations := List.Subset.refl _
  refundEffects := List.Subset.refl _
  lossEffects := List.Subset.refl _
  appliedLosses := List.Subset.refl _
  losses := List.Subset.refl _
  held _ _ _ h := h
  cases _ _ h := h

theorem Later.overlap (h : Later db db') {l : DisputeLoss} (ho : db.overlap l = true) : db'.overlap l = true := by
  obtain ⟨r, hr, ho⟩ := List.any_eq_true.mp ho
  obtain ⟨hs, hm⟩ : r.status = .completed ∧ onLossMovement r l = true := by simpa using ho
  obtain ⟨status, hr', hc⟩ := h.refundCases r hr
  exact List.any_eq_true.mpr ⟨_, hr', by simpa using ⟨hc hs, hm⟩⟩

theorem Later.trans (h₁ : Later db db') (h₂ : Later db' db'') : Later db db'' where
  requests id r h := by
    obtain ⟨r', h', hi, hp⟩ := h₁.requests id r h
    obtain ⟨r'', h'', hi', hp'⟩ := h₂.requests id r' h'
    exact ⟨r'', h'', hi'.trans hi, fun p h => hp' p (hp p h)⟩
  lateSuccesses id l h := h₂.lateSuccesses id l (h₁.lateSuccesses id l h)
  lateSettlements := h₁.lateSettlements.trans h₂.lateSettlements
  refundCases r h := by
    obtain ⟨status, h', hc⟩ := h₁.refundCases r h
    obtain ⟨status', h'', hc'⟩ := h₂.refundCases _ h'
    exact ⟨status', h'', fun h => hc' (hc h)⟩
  relays x hx hd := by
    obtain ⟨y, hy, hi, hd'⟩ := h₁.relays x hx hd
    obtain ⟨z, hz, hi', hd''⟩ := h₂.relays y hy hd'
    exact ⟨z, hz, hi'.trans hi, hd''⟩
  applications := List.Subset.trans h₁.applications h₂.applications
  surplusRefunds := List.Subset.trans h₁.surplusRefunds h₂.surplusRefunds
  surplusConfirmations := List.Subset.trans h₁.surplusConfirmations h₂.surplusConfirmations
  refundEffects := List.Subset.trans h₁.refundEffects h₂.refundEffects
  lossEffects := List.Subset.trans h₁.lossEffects h₂.lossEffects
  appliedLosses := List.Subset.trans h₁.appliedLosses h₂.appliedLosses
  losses := List.Subset.trans h₁.losses h₂.losses
  held l hl ho hn := h₂.held l (h₁.losses hl) (h₁.overlap ho) (h₁.held l hl ho hn)
  cases id c h := h₂.cases id c (h₁.cases id c h)

theorem Later.movement (h : Later db db') {m : Movement} (hm : db.movement c = some m) :
    db'.movement c = some m := by
  have late : ∀ {id : Uuid}, (db.lateSuccess? id).bind LateSuccess.movement = some m →
      (db'.lateSuccess? id).bind LateSuccess.movement = some m := by
    intro id hm
    obtain ⟨l, hl, hm⟩ := Option.bind_eq_some_iff.mp hm
    exact Option.bind_eq_some_iff.mpr ⟨l, h.lateSuccesses id l hl, hm⟩
  have settling : ∀ {id : Uuid}, (db.request? id).bind PaymentRequest.movement = some m →
      (db'.request? id).bind PaymentRequest.movement = some m := by
    intro id hm
    obtain ⟨r, hr, hm⟩ := Option.bind_eq_some_iff.mp hm
    obtain ⟨p, hp, rfl⟩ := Option.map_eq_some_iff.mp hm
    obtain ⟨r', hr', -, hp'⟩ := h.requests id r hr
    exact Option.bind_eq_some_iff.mpr ⟨r', hr', Option.map_eq_some_iff.mpr ⟨p, hp' p hp, rfl⟩⟩
  unfold Db.movement at hm ⊢
  cases ht : c.caseType with
  | late_success =>
    simp only [ht] at hm ⊢
    exact late hm
  | unmatched_capture =>
    simp only [ht] at hm ⊢
    exact hm
  | unrouted_settlement =>
    simp only [ht] at hm ⊢
    exact settling hm
  | late_assisted_settlement =>
    simp only [ht] at hm ⊢
    obtain ⟨s, hs, hm⟩ := Option.bind_eq_some_iff.mp hm
    refine Option.bind_eq_some_iff.mpr ⟨s, h.lateSettlements.find?_eq_some hs, ?_⟩
    cases he : s.evidence with
    | receipt x =>
      simp only [he] at hm ⊢
      exact settling hm
    | lateSuccess id =>
      simp only [he] at hm ⊢
      exact late hm
  | _ =>
    simp only [ht] at hm
    cases hm

theorem Later.returnedBy (h : Later db db') {status : Losses.RefundCaseStatus}
    (hs : r.status = .completed → status = .completed) (hr : db.returnedBy c r) : db'.returnedBy c { r with status } := by
  obtain ⟨hc, m, hm, hb⟩ := hr
  refine ⟨hs hc, m, h.movement hm, ?_⟩
  cases m <;> exact hb

end

/-! ## Cases and their evidence -/

def Db.names (db : Db) (s : LateSettlement) (factId : Option Uuid) : Prop :=
  match s.evidence with
  | .receipt _ => factId = none
  | .lateSuccess id => ∃ l f, db.lateSuccess? id = some l ∧ l.paymentRequestId = s.paymentRequestId ∧ l.factId = some f ∧ factId = some f

def Db.bound (db : Db) (paymentRequestId paymentId : Uuid) : Prop :=
  ∃ r, db.request? paymentRequestId = some r ∧ r.paymentId = some paymentId

def Db.states (db : Db) (c : ReconciliationCase) : Prop :=
  match c.caseType with
  | .late_success => ∃ l, db.lateSuccess? c.evidenceKey = some l ∧ c.captureFactId = l.factId ∧ c.paymentId = some l.paymentId
  | .unmatched_capture => c.captureFactId = some c.evidenceKey
  | .unrouted_settlement => c.captureFactId = none ∧ ∀ p, c.paymentId = some p → db.bound c.evidenceKey p
  | .late_assisted_settlement => ∃ s ∈ db.lateSettlements, s.id = c.evidenceKey ∧ db.names s c.captureFactId ∧
      ∀ p, c.paymentId = some p → db.bound s.paymentRequestId p
  | _ => True

/-- A refund case of a late settlement names its capture, and none when a success settled it. -/
def Db.refunds (db : Db) (r : RefundCase) : Prop :=
  ∃ s ∈ db.lateSettlements, db.bound s.paymentRequestId r.paymentId ∧ db.names s (r.capture.map Prod.snd)

structure Evidenced (db : Db) : Prop where
  requestOnce : (db.requests.map PaymentRequest.id).Nodup
  paymentOnce : UniqueOn (fun r => r.paymentId.isSome = true) PaymentRequest.paymentId db.requests
  lateOnce : (db.lateSuccesses.map LateSuccess.lateSuccessId).Nodup
  settlementOnce : (db.lateSettlements.map LateSettlement.id).Nodup
  invoiceOnce : (db.lateSettlements.map LateSettlement.invoiceId).Nodup
  refundOnce : (db.refundCases.map RefundCase.id).Nodup
  relayOnce : (db.relays.map Relay.id).Nodup
  late : ∀ l ∈ db.lateSuccesses, db.bound l.paymentRequestId l.paymentId
  settlement : ∀ s ∈ db.lateSettlements, (∃ f, db.names s f) ∧
    ∃ r, db.request? s.paymentRequestId = some r ∧ r.invoiceId = s.invoiceId
  refund : ∀ r ∈ db.refundCases, r.eligibility.lateSettlement = true → db.refunds r
  case : ∀ c ∈ db.cases, db.states c

variable {s : LateSettlement} {f : Option Uuid}

section
variable {db db' : Db}

theorem Later.bound (h : Later db db') {r p : Uuid} (hb : db.bound r p) : db'.bound r p := by
  obtain ⟨x, hx, hp⟩ := hb
  obtain ⟨y, hy, -, hp'⟩ := h.requests r x hx
  exact ⟨y, hy, hp' p hp⟩

theorem Later.names (h : Later db db') (hn : db.names s f) : db'.names s f := by
  unfold Db.names at hn ⊢
  cases he : s.evidence with
  | receipt x =>
    simp only [he] at hn ⊢
    exact hn
  | lateSuccess id =>
    simp only [he] at hn ⊢
    obtain ⟨l, f, hl, hr⟩ := hn
    exact ⟨l, f, h.lateSuccesses id l hl, hr⟩

theorem Later.states (h : Later db db') (hs : db.states c) : db'.states c := by
  unfold Db.states at hs ⊢
  cases ht : c.caseType with
  | late_success =>
    simp only [ht] at hs ⊢
    obtain ⟨l, hl, hf⟩ := hs
    exact ⟨l, h.lateSuccesses _ l hl, hf⟩
  | unmatched_capture =>
    simp only [ht] at hs ⊢
    exact hs
  | unrouted_settlement =>
    simp only [ht] at hs ⊢
    exact ⟨hs.1, fun p hp => h.bound (hs.2 p hp)⟩
  | late_assisted_settlement =>
    simp only [ht] at hs ⊢
    obtain ⟨s, hm, hid, hn, hb⟩ := hs
    exact ⟨s, h.lateSettlements.subset hm, hid, h.names hn, fun p hp => h.bound (hb p hp)⟩
  | _ => trivial

theorem Later.refunds (h : Later db db') (hr : db.refunds r) : db'.refunds r := by
  obtain ⟨s, hs, hb, hn⟩ := hr
  exact ⟨s, h.lateSettlements.subset hs, h.bound hb, h.names hn⟩

theorem names_once {g : Option Uuid} (hf : db.names s f) (hg : db.names s g) : f = g := by
  unfold Db.names at hf hg
  cases he : s.evidence with
  | receipt x =>
    simp only [he] at hf hg
    rw [hf, hg]
  | lateSuccess id =>
    simp only [he] at hf hg
    obtain ⟨l, x, hl, -, hx, rfl⟩ := hf
    obtain ⟨l', y, hl', -, hy, rfl⟩ := hg
    rw [hl] at hl'
    cases hl'
    rw [← hx, ← hy]

theorem names_captureOf (h : db.names s f) : db.captureOf s = f := by
  unfold Db.names at h
  unfold Db.captureOf
  cases he : s.evidence with
  | receipt x =>
    simp only [he] at h ⊢
    exact h.symm
  | lateSuccess id =>
    simp only [he] at h ⊢
    obtain ⟨l, x, hl, -, hx, rfl⟩ := h
    rw [hl]
    exact hx

theorem Evidenced.bound_once (he : Evidenced db) {r r' p : Uuid} (h : db.bound r p) (h' : db.bound r' p) : r = r' := by
  obtain ⟨x, hx, hp⟩ := h
  obtain ⟨y, hy, hp'⟩ := h'
  have hxy : x = y := he.paymentOnce x (List.mem_of_find?_eq_some hx) y (List.mem_of_find?_eq_some hy) (by simp [hp]) (by simp [hp'])
    (hp.trans hp'.symm)
  have hxr : x.id = r := by simpa using List.find?_some hx
  have hyr : y.id = r' := by simpa using List.find?_some hy
  rw [← hxr, ← hyr, hxy]

theorem bound_unique {r p p' : Uuid} (h : db.bound r p) (h' : db.bound r p') : p = p' := by
  obtain ⟨x, hx, hp⟩ := h
  obtain ⟨y, hy, hp'⟩ := h'
  rw [hx] at hy
  cases hy
  rw [hp] at hp'
  exact Option.some.inj hp'

theorem Evidenced.names_refunded (he : Evidenced db) (hs : s ∈ db.lateSettlements)
    (hb : db.bound s.paymentRequestId r.paymentId) (hr : db.refunds r) : db.names s (r.capture.map Prod.snd) := by
  obtain ⟨t, ht, hb', hn⟩ := hr
  obtain ⟨-, x, hx, hix⟩ := he.settlement s hs
  obtain ⟨-, y, hy, hiy⟩ := he.settlement t ht
  rw [← he.bound_once hb hb', hx] at hy
  cases hy
  rwa [eq_of_key he.invoiceOnce hs ht (hix.symm.trans hiy)]

theorem Evidenced.settlement_returned (he : Evidenced db) (hc : db.states c)
    (ht : c.caseType = .late_assisted_settlement) (hp : some r.paymentId = c.paymentId) (hl : r.eligibility.lateSettlement = true)
    (hr : r ∈ db.refundCases) (hs : r.status = .completed) :
    db.returnedBy c r ∧ c.captureFactId = r.capture.map Prod.snd := by
  unfold Db.states at hc
  simp only [ht] at hc
  obtain ⟨s, hm, hid, hn, hb⟩ := hc
  have hb := hb _ hp.symm
  have hn' := he.names_refunded hm hb (he.refund r hr hl)
  have hcap := names_once hn hn'
  have hfind : db.settlement? c.evidenceKey = some s := by
    rw [← hid]
    exact find_key he.settlementOnce hm
  refine ⟨⟨hs, ?_⟩, hcap⟩
  unfold Db.movement Db.names at *
  cases hev : s.evidence with
  | receipt x =>
    simp only [hev] at hn'
    obtain ⟨pr, hpr, hp⟩ := hb
    refine ⟨.settling r.paymentId, by simp [ht, hfind, hev, hpr, PaymentRequest.movement, hp], ?_⟩
    simp [Movement.returnedBy, Capture.refundedBy, Option.map_eq_none_iff.mp hn']
  | lateSuccess id =>
    simp only [hev] at hn'
    obtain ⟨l, f, hl, hlr, hlf, hcf⟩ := hn'
    obtain ⟨x, hx, hxf⟩ := Option.map_eq_some_iff.mp hcf
    have hlp := he.late l (List.mem_of_find?_eq_some hl)
    rw [hlr] at hlp
    refine ⟨.capture l.paymentId f, by simp [ht, hfind, hev, hl, LateSuccess.movement, hlf], ?_⟩
    simp [Movement.returnedBy, Capture.refundedBy, bound_unique hb hlp, hx, hxf]

end

end NawaraCore.Reconciliation
