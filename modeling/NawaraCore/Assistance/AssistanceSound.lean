import NawaraCore.Assistance.Assistance

/-!
# What the guarded writes keep

The invariant of the assistance tables: the unique rows of a request, the exclusion of its
purchase and its cash return, and its frozen terms. Each guarded write keeps it; the
confirmation of an obligation keeps it together with the update of its request.
-/

namespace NawaraCore.Assistance

open Subscriptions (Uuid)
open PaymentRequests (Failure)
open Reconciliation (Channel ChannelStatus)

/-- What holds between the writes of a transaction; the terms of the requests of `start` stay. -/
structure Core (start db : Db) : Prop where
  requestIds : (db.requests.map AssistanceRequest.id).Nodup
  channelIds : (db.channels.map Channel.invoiceId).Nodup
  purchaseIds : (db.purchases.map Purchase.id).Nodup
  obligationIds : (db.obligations.map Obligation.id).Nodup
  oneChannel : UniqueOn (fun c => active c.status) Channel.assistanceRequestId db.channels
  onePurchase : UniqueOn (fun _ => True) Purchase.assistanceRequestId db.purchases
  oneLive : UniqueOn (fun o => o.status.live) Obligation.assistanceRequestId db.obligations
  oneDeadline : UniqueOn (fun o => o.origin = .deadline) Obligation.assistanceRequestId db.obligations
  exclusive : ∀ p ∈ db.purchases, db.reversed p.id = false → ∀ o ∈ db.obligations,
    o.assistanceRequestId = p.assistanceRequestId → o.status.superseded
  settled : ∀ r ∈ db.requests, r.status = .settled → db.purchased r.id
  returned : ∀ r ∈ db.requests, r.status = .returned → db.confirmed r.id
  frozen : ∀ o ∈ db.obligations, ∃ r ∈ db.requests, r.id = o.assistanceRequestId ∧
    o.amount = r.terms.baseAmount + r.terms.feeAmount ∧ o.currency = r.terms.currency
  terms : ∀ r ∈ start.requests, ∃ r' ∈ db.requests, r'.id = r.id ∧ r'.terms = r.terms

structure Sound (start db : Db) : Prop extends Core start db where
  confirmed : ∀ o ∈ db.obligations, o.status = .confirmed_returned → ∀ r ∈ db.requests, r.id = o.assistanceRequestId →
    r.status = .returned

structure Same (db db' : Db) : Prop where
  requests : db'.requests = db.requests
  channels : db'.channels = db.channels
  purchases : db'.purchases = db.purchases
  reversals : db'.reversals = db.reversals
  obligations : db'.obligations = db.obligations

variable {start db db' : Db} {o : Obligation} {old r : AssistanceRequest} {id : Uuid} {status : RequestStatus} {k : Option Collection} {cap : Option Int}

theorem Sound.same (h : Sound start db) (hs : Same db db') : Sound start db' := by
  obtain ⟨h1, h2, h3, h4, h5⟩ := hs
  refine ⟨⟨?_, ?_, ?_, ?_, ?_, ?_, ?_, ?_, ?_, ?_, ?_, ?_, ?_⟩, ?_⟩
  all_goals simp only [Db.reversed, Db.purchased, Db.confirmed, h1, h2, h3, h4, h5]
  · exact h.requestIds
  · exact h.channelIds
  · exact h.purchaseIds
  · exact h.obligationIds
  · exact h.oneChannel
  · exact h.onePurchase
  · exact h.oneLive
  · exact h.oneDeadline
  · exact h.exclusive
  · exact h.settled
  · exact h.returned
  · exact h.frozen
  · exact h.terms
  · exact h.confirmed

theorem Sound.restart (h : Sound start db) : Sound db db :=
  { h with terms := fun r hr => ⟨r, hr, rfl, rfl⟩ }

theorem request_mem (h : db.request? id = some r) : r ∈ db.requests ∧ r.id = id :=
  ⟨List.mem_of_find?_eq_some h, by simpa using List.find?_some h⟩

theorem purchased_iff : db.purchased id ↔ ∃ p ∈ db.purchases, p.assistanceRequestId = id := by
  simp [Db.purchased]

theorem confirmed_iff :
    db.confirmed id ↔ ∃ o ∈ db.obligations, o.assistanceRequestId = id ∧ o.status = .confirmed_returned := by
  simp [Db.confirmed]

theorem not_obliged (h : ¬ db.obliged id) (ho : o ∈ db.obligations) : o.assistanceRequestId ≠ id := by
  intro he
  exact h (List.any_eq_true.mpr ⟨o, ho, by simpa using he⟩)

theorem not_purchased (h : ¬ db.purchased id) {p : Purchase} (hp : p ∈ db.purchases) : p.assistanceRequestId ≠ id :=
  fun he => h (purchased_iff.mpr ⟨p, hp, he⟩)

theorem live_none (h : db.live id = none) (ho : o ∈ db.obligations) (hl : o.status.live) :
    o.assistanceRequestId ≠ id := by
  intro he
  have hf := List.find?_eq_none.mp h o ho
  simp [he, hl] at hf

theorem superseded_of {s : ObligationStatus} (hl : ¬ s.live) (hc : s ≠ .confirmed_returned) : s.superseded := by
  cases s with
  | «open» => exact absurd rfl hl
  | return_reported => exact absurd rfl hl
  | confirmed_returned => exact absurd rfl hc
  | superseded_by_settlement _ => rfl

/-! ## Requests -/

theorem insertRequest_sound (h : Sound start db) (r : AssistanceRequest) : Yields (Sound start) (db.insertRequest r) := by
  refine .guard fun hp => .guard fun hid => .guard fun _ => .ok ?_
  have hpending : r.status = .pending := Decidable.not_not.mp fun hn => hp (.inl hn)
  have hfresh : ∀ x ∈ db.requests, x.id ≠ r.id := fun x hx he => hid (List.any_eq_true.mpr ⟨x, hx, by simpa using he⟩)
  refine { h with
    requestIds := nodup_append_row h.requestIds hfresh
    settled := ?_
    returned := ?_
    frozen := ?_
    terms := ?_
    confirmed := ?_ }
  · intro x hx hs
    rcases mem_append_row hx with hx | rfl
    · exact h.settled x hx hs
    · rw [hpending] at hs
      cases hs
  · intro x hx hs
    rcases mem_append_row hx with hx | rfl
    · exact h.returned x hx hs
    · rw [hpending] at hs
      cases hs
  · intro o ho
    obtain ⟨x, hx, hrest⟩ := h.frozen o ho
    exact ⟨x, List.mem_append_left _ hx, hrest⟩
  · intro x hx
    obtain ⟨y, hy, hrest⟩ := h.terms x hx
    exact ⟨y, List.mem_append_left _ hy, hrest⟩
  · intro o ho hc x hx he
    rcases mem_append_row hx with hx | rfl
    · exact h.confirmed o ho hc x hx he
    · obtain ⟨y, hy, hye, -⟩ := h.frozen o ho
      exact absurd (hye.trans he.symm) (hfresh y hy)

theorem requestTransition_ok
    (h : db.requestTransition old status k cap = .ok ()) :
    (status = .settled ∧ db.purchased old.id) ∨ (status = .returned ∧ db.confirmed old.id) ∨ (status = .declined) ∨
      (status = .cash_collected) := by
  unfold Db.requestTransition at h
  split at h
  · obtain ⟨hc, -⟩ := guard_ok h
    simp only [Decidable.not_not, List.any_eq_true, decide_eq_true_eq] at hc
    obtain ⟨o, ho, he, hs, -⟩ := hc
    exact .inr (.inl ⟨rfl, confirmed_iff.mpr ⟨o, ho, he, hs⟩⟩)
  · exact .inl ⟨rfl, Decidable.not_not.mp (guard_ok h).1⟩
  · exact .inr (.inl ⟨rfl, Decidable.not_not.mp (guard_ok h).1⟩)
  · exact .inr (.inr (.inl rfl))
  · exact .inr (.inr (.inr rfl))
  · cases h

theorem requestTransition_open
    (h : db.requestTransition old status k cap = .ok ()) : old.status ≠ .returned := by
  intro he
  unfold Db.requestTransition at h
  rw [he] at h
  cases status <;> cases h

theorem updateRequest_core (h : Core start db) (hold : old ∈ db.requests) (status : RequestStatus)
    (k : Option Collection) (cap : Option Int) : Yields (Core start) (db.updateRequest old status k cap) := by
  unfold Db.updateRequest
  cases ht : db.requestTransition old status k cap with
  | error e => exact .error
  | ok u =>
    refine .guard fun _ => .guard fun _ => .ok ?_
    refine { h with
      requestIds := ?_
      settled := ?_
      returned := ?_
      frozen := ?_
      terms := ?_ }
    · change ((replaceRow AssistanceRequest.id _ db.requests).map AssistanceRequest.id).Nodup
      rw [map_replaceRow fun x _ he => he]
      exact h.requestIds
    · intro x hx hs
      rcases mem_replaceRow hx with rfl | ⟨hx, -⟩
      · rcases requestTransition_ok ht with ⟨-, hp⟩ | ⟨hr, -⟩ | hr | hr
        · exact hp
        all_goals rw [hr] at hs; cases hs
      · exact h.settled x hx hs
    · intro x hx hs
      rcases mem_replaceRow hx with rfl | ⟨hx, -⟩
      · rcases requestTransition_ok ht with ⟨hr, -⟩ | ⟨-, hc⟩ | hr | hr
        · rw [hr] at hs; cases hs
        · exact hc
        all_goals rw [hr] at hs; cases hs
      · exact h.returned x hx hs
    · intro o ho
      obtain ⟨x, hx, he, hterms⟩ := h.frozen o ho
      by_cases hid : x.id = old.id
      · obtain rfl := eq_of_key h.requestIds hx hold hid
        exact ⟨_, replaceRow_mem hx rfl, he, hterms⟩
      · exact ⟨x, replaceRow_other hx hid, he, hterms⟩
    · intro x hx
      obtain ⟨y, hy, he, hterms⟩ := h.terms x hx
      by_cases hid : y.id = old.id
      · obtain rfl := eq_of_key h.requestIds hy hold hid
        exact ⟨_, replaceRow_mem hy rfl, he, hterms⟩
      · exact ⟨y, replaceRow_other hy hid, he, hterms⟩

theorem updateRequest_ok
    (h : db.updateRequest old status k cap = .ok db') :
    db.requestTransition old status k cap = .ok () ∧
      db' = { db with requests := replaceRow AssistanceRequest.id { old with status := status, collection := k } db.requests } := by
  unfold Db.updateRequest at h
  cases ht : db.requestTransition old status k cap with
  | error e => rw [ht] at h; cases h
  | ok u =>
    rw [ht] at h
    cases (guard_ok (guard_ok h).2).2
    exact ⟨rfl, rfl⟩

section
variable (h : Sound start db)
include h

theorem updateRequest_sound (hold : old ∈ db.requests) (status : RequestStatus)
    (k : Option Collection) (cap : Option Int) : Yields (Sound start) (db.updateRequest old status k cap) := by
  intro db' he
  refine { updateRequest_core h.toCore hold status k cap db' he with confirmed := ?_ }
  obtain ⟨ht, rfl⟩ := updateRequest_ok he
  intro o ho hc x hx hid
  rcases mem_replaceRow hx with rfl | ⟨hx, -⟩
  · exact absurd (h.confirmed o ho hc old hold hid) (requestTransition_open ht)
  · exact h.confirmed o ho hc x hx hid

/-! ## Channels -/

theorem insertChannel_sound (requestId invoiceId : Uuid) (now : Nat) :
    Yields (Sound start) (db.insertChannel requestId invoiceId now) := by
  unfold Db.insertChannel
  cases db.request? requestId with
  | none => exact .error
  | some r =>
    refine .guard fun _ => .guard fun hid => .guard fun hact => .ok ?_
    refine { h with
      channelIds := nodup_append_row h.channelIds fun x hx he => hid (List.any_eq_true.mpr ⟨x, hx, by simpa using he⟩)
      oneChannel := h.oneChannel.append ?_ }
    intro x hx hax _ he
    exact hact (List.any_eq_true.mpr ⟨x, hx, by simpa using ⟨he, hax⟩⟩)

theorem replaceChannel_sound {c c' : Channel} (hc : c ∈ db.channels) (hid : c'.invoiceId = c.invoiceId)
    (hreq : c'.assistanceRequestId = c.assistanceRequestId) (hact : active c'.status → active c.status) :
    Sound start { db with channels := replaceRow Channel.invoiceId c' db.channels } := by
  refine { h with channelIds := ?_, oneChannel := ?_ }
  · change ((replaceRow Channel.invoiceId c' db.channels).map Channel.invoiceId).Nodup
    rw [map_replaceRow fun x _ he => he]
    exact h.channelIds
  · refine h.oneChannel.replace fun x hx hne hax hac => ?_
    rw [hreq]
    exact h.oneChannel.ne hc (hact hac) hx (hid ▸ hne) hax

theorem updateChannel_sound {c : Channel} (hc : c ∈ db.channels) (status : ChannelStatus) :
    Yields (Sound start) (db.updateChannel c status) := by
  refine .ite (fun _ => .ok h) fun _ => ?_
  intro db' he
  obtain ⟨u, ht, rfl⟩ := map_eq_ok.mp he
  exact replaceChannel_sound h hc rfl rfl fun _ => Decidable.not_not.mp (guard_ok ht).1

theorem bindChannel_sound (invoiceId paymentRequestId : Uuid) :
    Yields (Sound start) (db.bindChannel invoiceId paymentRequestId) := by
  unfold Db.bindChannel
  cases hf : db.channels.find? fun c => c.invoiceId = invoiceId with
  | none => exact .ok h
  | some c =>
    exact .guard fun _ => .guard fun _ => .ok (replaceChannel_sound h (List.mem_of_find?_eq_some hf) rfl rfl id)

theorem followRequest_sound (r : PaymentRequests.PaymentRequest) : Yields (Sound start) (db.followRequest r) := by
  unfold Db.followRequest
  split
  · rename_i hf
    exact updateChannel_sound h (List.mem_of_find?_eq_some hf) _
  · exact .ok h

theorem updatePaymentRequest_sound (old new : PaymentRequests.PaymentRequest) :
    Yields (Sound start) (db.updatePaymentRequest old new) := by
  unfold Db.updatePaymentRequest
  cases db.invoice? old.invoiceId with
  | none => exact .error
  | some i =>
    refine Yields.bind (Q := fun _ => True) (fun _ _ => trivial) fun updated _ => .ite (fun _ => .ok ?_) fun _ => ?_
    · exact h.same ⟨rfl, rfl, rfl, rfl, rfl⟩
    · have hs : Sound start { db with paymentRequests := replaceRow PaymentRequests.PaymentRequest.id updated db.paymentRequests } :=
        h.same ⟨rfl, rfl, rfl, rfl, rfl⟩
      exact followRequest_sound hs updated

/-! ## Purchases -/

theorem assistedApplicable_superseded {p : Purchase} (hp : db.assistedApplicable p)
    (ho : o ∈ db.obligations) (he : o.assistanceRequestId = p.assistanceRequestId) : o.status.superseded := by
  unfold Db.assistedApplicable at hp
  cases hr : db.request? p.assistanceRequestId with
  | none => rw [hr] at hp; cases hp
  | some r =>
    obtain ⟨hmem, hid⟩ := request_mem hr
    rw [hr] at hp
    cases ha : p.appliedAt with
    | none =>
      simp only [ha, Bool.decide_and, Bool.and_eq_true, decide_eq_true_eq] at hp
      exact absurd (he.trans hid.symm) (not_obliged hp.2.1 ho)
    | some t =>
      simp only [ha, Bool.decide_and, Bool.and_eq_true, decide_eq_true_eq] at hp
      obtain ⟨hs, hl, -⟩ := hp
      refine superseded_of (fun hlive => live_none (Option.isNone_iff_eq_none.mp hl) ho hlive (he.trans hid.symm)) fun hc => ?_
      have hret := h.confirmed o ho hc r hmem (hid.trans he.symm)
      rw [hs] at hret
      cases hret

theorem recordPurchase_sound (p : Purchase) : Yields (Sound start) (db.recordPurchase p) := by
  refine .guard fun happ => .guard fun _ => .guard fun _ => .guard fun _ => .ite (fun _ => .ok h) fun hany => .guard fun _ => .ok ?_
  have hfresh : ∀ q ∈ db.purchases, q.id ≠ p.id ∧ q.assistanceRequestId ≠ p.assistanceRequestId := by
    intro q hq
    have hn : ¬ (q.id = p.id ∨ q.invoiceId = p.invoiceId ∨ q.evidence = p.evidence ∨ q.assistanceRequestId = p.assistanceRequestId) :=
      fun he => hany (List.any_eq_true.mpr ⟨q, hq, by simpa using he⟩)
    exact ⟨fun he => hn (.inl he), fun he => hn (.inr (.inr (.inr he)))⟩
  have hmore : ∀ id, db.purchased id → Db.purchased { db with purchases := db.purchases ++ [p] } id := by
    intro id hid
    obtain ⟨q, hq, he⟩ := purchased_iff.mp hid
    exact purchased_iff.mpr ⟨q, List.mem_append_left _ hq, he⟩
  refine { h with
    purchaseIds := nodup_append_row h.purchaseIds fun q hq => (hfresh q hq).1
    onePurchase := h.onePurchase.append fun q hq _ _ => (hfresh q hq).2
    exclusive := ?_
    settled := fun r hr hs => hmore _ (h.settled r hr hs) }
  intro q hq hrev o ho he
  rcases mem_append_row hq with hq | rfl
  · exact h.exclusive q hq hrev o ho he
  · exact assistedApplicable_superseded h (Decidable.not_not.mp happ) ho he

theorem insertReversal_sound (v : Reversal) : Yields (Sound start) (db.insertReversal v) := by
  refine .guard fun _ => .guard fun _ => .ok ?_
  refine { h with exclusive := ?_ }
  intro p hp hrev
  refine h.exclusive p hp ?_
  have hr : (db.reversals ++ [v]).any (fun v => v.purchaseId = p.id) = false := hrev
  rw [List.any_append, Bool.or_eq_false_iff] at hr
  exact hr.1

end

/-! ## Cash-return obligations -/

theorem insertObligation_ok {now : Nat} (h : db.insertObligation o now = .ok db') :
    ∃ o' : Obligation, o'.assistanceRequestId = o.assistanceRequestId ∧ db' = { db with obligations := db.obligations ++ [o'] } := by
  unfold Db.insertObligation at h
  split at h
  · cases h
  · have h := (guard_ok (guard_ok h).2).2
    dsimp only at h
    split at h
    · cases h
    · cases (guard_ok (guard_ok (guard_ok h).2).2).2
      exact ⟨{ o with openedAt := now }, rfl, rfl⟩

theorem addObligation_sound (h : Sound start db) (hr : r ∈ db.requests)
    (hid : r.id = o.assistanceRequestId) (hopen : o.status = .open) (hlive : db.live o.assistanceRequestId = none)
    (hfresh : ∀ x ∈ db.obligations, x.id ≠ o.id) (hamount : o.amount = r.terms.totalAmount) (hcurrency : o.currency = r.terms.currency)
    (hdeadline : o.origin = .deadline → ¬ db.obliged o.assistanceRequestId)
    (hrev : ∀ p ∈ db.purchases, p.assistanceRequestId = o.assistanceRequestId → db.reversed p.id) :
    Sound start { db with obligations := db.obligations ++ [o] } := by
  refine { h with
    obligationIds := nodup_append_row h.obligationIds hfresh
    oneLive := h.oneLive.append fun x hx hlx _ => live_none hlive hx hlx
    oneDeadline := h.oneDeadline.append fun x hx _ hd => not_obliged (hdeadline hd) hx
    exclusive := ?_
    returned := ?_
    frozen := ?_
    confirmed := ?_ }
  · intro p hp hp' x hx he
    rcases mem_append_row hx with hx | rfl
    · exact h.exclusive p hp hp' x hx he
    · exact absurd (hrev p hp he.symm) (by change db.reversed p.id = false at hp'; simp [hp'])
  · intro x hx hs
    obtain ⟨y, hy, hrest⟩ := confirmed_iff.mp (h.returned x hx hs)
    exact confirmed_iff.mpr ⟨y, List.mem_append_left _ hy, hrest⟩
  · intro x hx
    rcases mem_append_row hx with hx | rfl
    · exact h.frozen x hx
    · exact ⟨r, hr, hid, hamount.trans r.terms.amounts.2.2.1, hcurrency⟩
  · intro x hx hc
    rcases mem_append_row hx with hx | rfl
    · exact h.confirmed x hx hc
    · rw [hopen] at hc
      cases hc

theorem insertObligation_sound (h : Sound start db) (o : Obligation) (now : Nat) : Yields (Sound start) (db.insertObligation o now) := by
  unfold Db.insertObligation
  cases hr : db.request? o.assistanceRequestId with
  | none => exact .error
  | some r =>
    obtain ⟨hmem, hid⟩ := request_mem hr
    refine .guard fun hnew => .guard fun hlive => ?_
    have hopen : o.status = .open := Decidable.not_not.mp fun hn => hnew (.inl hn)
    have hnone : db.live o.assistanceRequestId = none := by rw [← hid]; simpa using hlive
    dsimp only
    cases ho : o.origin with
    | deadline =>
      dsimp only
      split
      · exact .error
      · rename_i hdue
        refine .guard fun hterms => .guard fun hpk => .guard fun _ => .ok ?_
        have hdue := (guard_ok hdue).1
        push Not at hdue hterms
        have hpur : ¬ db.purchased r.id := by simpa using hdue.2.2.1
        have hobl : ¬ db.obliged r.id := by simpa using hdue.2.2.2.1
        refine addObligation_sound h hmem hid hopen hnone (fun x hx he => hpk (List.any_eq_true.mpr ⟨x, hx, by simpa using he⟩))
          hterms.1 hterms.2.1 (fun _ => hid ▸ hobl) fun p hp he => ?_
        exact absurd (he.trans hid.symm) (not_purchased hpur hp)
    | refund_completion caseId =>
      dsimp only
      split
      · exact .error
      · rename_i hdue
        refine .guard fun hterms => .guard fun hpk => .guard fun _ => .ok ?_
        have hdue := (guard_ok hdue).1
        push Not at hdue hterms
        obtain ⟨c, -, hc⟩ := List.any_eq_true.mp hdue.2
        simp only [Bool.decide_and, Bool.and_eq_true, decide_eq_true_eq, List.any_eq_true] at hc
        obtain ⟨-, -, -, -, p, hp, -, hrev, hpr, -⟩ := hc
        refine addObligation_sound h hmem hid hopen hnone (fun x hx he => hpk (List.any_eq_true.mpr ⟨x, hx, by simpa using he⟩))
          hterms.1 hterms.2.1 nofun fun q hq he => ?_
        obtain rfl := h.onePurchase q hq p hp trivial trivial (he.trans (hid.symm.trans hpr.symm))
        exact hrev

variable {old : Obligation} {status : ObligationStatus}

theorem obligationTransition_ok (h : db.obligationTransition old status = .ok ()) :
    old.status.live ∧ ((status.live ∨ status = .confirmed_returned) ∨ status.superseded) := by
  unfold Db.obligationTransition at h
  split at h
  · cases h
  · have hopen := (guard_ok h).1
    push Not at hopen
    rw [hopen.1]
    exact ⟨rfl, .inr rfl⟩
  · rename_i he
    rw [he]
    exact ⟨rfl, .inl (.inl rfl)⟩
  · rename_i he
    rw [he]
    exact ⟨rfl, .inl (.inr rfl)⟩
  all_goals cases h

theorem updateObligation_ok {report : Option (Nat × Nat × Uuid)}
    (h : db.updateObligation old status report = .ok db') :
    db.obligationTransition old status = .ok () ∧
      db' = { db with obligations := replaceRow Obligation.id { old with status := status, report := report } db.obligations } := by
  unfold Db.updateObligation at h
  cases ht : db.obligationTransition old status with
  | error e => rw [ht] at h; cases h
  | ok u =>
    rw [ht] at h
    cases (guard_ok h).2
    exact ⟨rfl, rfl⟩

theorem updateObligation_core (h : Core start db) (hold : old ∈ db.obligations) (status : ObligationStatus)
    (report : Option (Nat × Nat × Uuid)) : Yields (Core start) (db.updateObligation old status report) := by
  intro db' he
  obtain ⟨ht, rfl⟩ := updateObligation_ok he
  obtain ⟨hlive, hstatus⟩ := obligationTransition_ok ht
  refine { h with
    obligationIds := ?_
    oneLive := ?_
    oneDeadline := ?_
    exclusive := ?_
    returned := ?_
    frozen := ?_ }
  · change ((replaceRow Obligation.id _ db.obligations).map Obligation.id).Nodup
    rw [map_replaceRow fun x _ he => he]
    exact h.obligationIds
  · refine h.oneLive.replace fun x hx hne hlx _ => ?_
    exact h.oneLive.ne (k := Obligation.id) (a := old) hold hlive hx hne hlx
  · refine h.oneDeadline.replace fun x hx hne hdx hd => ?_
    exact h.oneDeadline.ne (k := Obligation.id) (a := old) hold hd hx hne hdx
  · intro p hp hrev x hx hid
    rcases mem_replaceRow hx with rfl | ⟨hx, -⟩
    · -- its live row would have been superseded
      have hs := h.exclusive p hp hrev old hold hid
      cases hos : old.status with
      | superseded_by_settlement a => rw [hos] at hlive; cases hlive
      | _ => rw [hos] at hs; cases hs
    · exact h.exclusive p hp hrev x hx hid
  · intro r hr hs
    obtain ⟨y, hy, hyid, hyc⟩ := confirmed_iff.mp (h.returned r hr hs)
    refine confirmed_iff.mpr ⟨y, replaceRow_other hy fun hk => ?_, hyid, hyc⟩
    obtain rfl := eq_of_key h.obligationIds hy hold hk
    rw [hyc] at hlive
    cases hlive
  · intro x hx
    rcases mem_replaceRow hx with rfl | ⟨hx, -⟩
    · exact h.frozen old hold
    · exact h.frozen x hx

theorem updateObligation_sound (h : Sound start db) (hold : old ∈ db.obligations)
    (hstatus : status ≠ .confirmed_returned) (report : Option (Nat × Nat × Uuid)) :
    Yields (Sound start) (db.updateObligation old status report) := by
  intro db' he
  refine { updateObligation_core h.toCore hold status report db' he with confirmed := ?_ }
  obtain ⟨-, rfl⟩ := updateObligation_ok he
  intro x hx hc
  rcases mem_replaceRow hx with rfl | ⟨hx, -⟩
  · exact absurd hc hstatus
  · exact h.confirmed x hx hc

theorem confirm_sound (h : Sound start db) (ho : o ∈ db.obligations) (hr : r ∈ db.requests)
    (hid : r.id = o.assistanceRequestId) (k : Option Collection) (report : Option (Nat × Nat × Uuid)) :
    Yields (Sound start) (db.updateObligation o .confirmed_returned report >>= fun db => db.updateRequest r .returned k none) := by
  intro db' he
  obtain ⟨db₁, h₁, h₂⟩ := bind_eq_ok.mp he
  have hcore := updateObligation_core h.toCore ho _ _ db₁ h₁
  obtain ⟨-, rfl⟩ := updateObligation_ok h₁
  refine { updateRequest_core hcore hr .returned k none db' h₂ with confirmed := ?_ }
  obtain ⟨-, rfl⟩ := updateRequest_ok h₂
  intro x hx hc y hy hxy
  rcases mem_replaceRow hy with rfl | ⟨hy, hne⟩
  · rfl
  · rcases mem_replaceRow hx with rfl | ⟨hx, -⟩
    · exact absurd (hxy.trans hid.symm) hne
    · exact h.confirmed x hx hc y hy hxy

end NawaraCore.Assistance
