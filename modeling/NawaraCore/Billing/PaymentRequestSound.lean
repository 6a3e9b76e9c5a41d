import NawaraCore.Billing.PaymentRequest
import NawaraCore.Billing.SubscriptionSound

/-!
# Payment events are applied exactly once

Every step of a run either leaves the invoice and its effects alone or is the one
move that pays the request and the invoice together and records at most one
effect. The invariants of a run follow from that description of a step alone.
-/

namespace NawaraCore.PaymentRequests

open Subscriptions (Uuid)

variable {target : PaymentRequestStatus} {x : Option SettlementOutcome} {s t : State} {cfg : Config} {paid v : Bool} {b b' : Books} {r : Uuid} {f : PaymentEventFacts}

theorem decide_applied {event : PaymentEventFacts} {r : RequestFacts} {i : InvoiceFacts} {live : Bool}
    (h : decidePaymentEvent event (some r) (some i) live = .applied target paid) :
    r.status = .requested ∧ target = TARGET event.name ∧ (paid = true ↔ target = .paid) ∧
      (paid = true → i.status = .open) := by
  unfold decidePaymentEvent at h
  obtain ⟨-, h⟩ := passed h nofun
  cases hp : r.paymentId with
  | none => rw [hp] at h; cases h
  | some p =>
    rw [hp] at h
    obtain ⟨-, h⟩ := passed h nofun
    obtain ⟨-, h⟩ := passed h nofun
    obtain ⟨-, h⟩ := passed h nofun
    cases ha : event.amount.valid with
    | none => rw [ha] at h; cases h
    | some n =>
      rw [ha] at h
      obtain ⟨-, h⟩ := passed h nofun
      obtain ⟨-, h⟩ := passed h nofun
      obtain ⟨-, h⟩ := passed h nofun
      obtain ⟨-, h⟩ := passed h nofun
      obtain ⟨hr, h⟩ := passed h nofun
      split at h
      · rename_i ht
        obtain ⟨hi, h⟩ := passed h nofun
        cases h
        exact ⟨by simpa using hr, ht.symm, by simp, fun _ => by simpa using hi⟩
      · rename_i ht
        cases h
        exact ⟨by simpa using hr, rfl, by simpa using ht, by simp⟩

theorem target_reachable (name : PaymentEventName) : transitionAllowed .requested (TARGET name) = true := by
  cases name <;> rfl

theorem updateRequest_ok {inv : InvoiceStatus} {taken : List Uuid} {old new r : PaymentRequest}
    (h : updateRequest inv taken old new = .ok r) :
    (new.status = old.status ∨ transitionAllowed old.status new.status = true) ∧
    (new.paymentId = old.paymentId ∨ (old.paymentId = none ∧ old.status = .sending ∧ new.status = .requested)) ∧
    r = { new with revision := if new.status ≠ old.status then old.revision + 1 else old.revision } := by
  unfold updateRequest at h
  obtain ⟨h1, _, h⟩ := guards_ok h
  obtain ⟨h3, _, h⟩ := guards_ok h
  obtain ⟨_, _, h⟩ := guards_ok h
  refine ⟨?_, ?_, (Except.ok.inj h).symm⟩
  · by_cases e : new.status = old.status
    · exact .inl e
    · exact .inr (by simpa [e] using h1)
  · by_cases e : new.paymentId = old.paymentId
    · exact .inl e
    · exact .inr (by simpa [e] using h3)

theorem payInvoice_ok {request : PaymentRequest} {invoice r : Invoice} (h : payInvoice request invoice = .ok r) :
    invoice.status = .open ∧ request.status = .paid ∧ r = { invoice with status := .paid } := by
  unfold payInvoice at h
  obtain ⟨h1, h2, h⟩ := guards_ok h
  simp only [not_or, ne_eq, not_not] at h1 h2
  exact ⟨h1, h2.1, (Except.ok.inj h).symm⟩

/-! ## Settlement effects -/

theorem recordPurchase_effects {p : Purchase} (h : recordPurchase b v p = .ok b') :
    ∀ i, effects b' i ≤ effects b i + 1 := by
  intro i
  unfold recordPurchase at h
  obtain ⟨_, _, h⟩ := guards_ok h
  split at h
  · cases h; omega
  · cases h
    unfold effects
    simp only [List.filter_append, List.length_append]
    have := List.length_filter_le (fun q : Purchase => decide (q.invoiceId = i)) [p]
    simp only [List.length_singleton] at this
    omega

theorem settleOrganization_effects {inv : Invoice} {line : InvoiceLine} {o q : Uuid}
    {t : Int} (h : settleOrganization b v inv line o q r t = .ok (b', x)) :
    ∀ i, effects b' i ≤ effects b i + 1 := by
  intro i
  unfold settleOrganization at h
  simp only at h
  split at h
  · rename_i d hd
    cases h
    unfold effects
    simp only
    rcases Subscriptions.applySettlement_settlements hd with e | ⟨y, _, e⟩
    · rw [e]; simp only; omega
    · rw [e]
      simp only [List.filter_append, List.length_append]
      have := List.length_filter_le (fun s : Subscriptions.Settlement => decide (s.invoiceId = i)) [y]
      simp only [List.length_singleton] at this
      omega
  · cases h; omega
  · cases h

variable {req : PaymentRequest}

theorem applyRecoveryPayment_effects {inv : Invoice} {o : Uuid}
    (h : applyRecoveryPayment b v inv req o r = .ok (b', x)) :
    ∀ i, effects b' i = effects b i := by
  intro i
  unfold applyRecoveryPayment at h
  split at h
  · cases h
  · obtain ⟨_, _, h⟩ := guards_ok h
    obtain ⟨_, h⟩ := guard_ok h
    simp only at h
    split at h
    · cases h; rfl
    · cases h; rfl

theorem applyAssistedSettlement_effects {inv : Invoice} {rt : Routing} {a q : Uuid}
    {t : Int} (h : applyAssistedSettlement b v inv rt a q r t = .ok (b', x)) :
    ∀ i, effects b' i ≤ effects b i + 1 := by
  intro i
  unfold applyAssistedSettlement at h
  split at h
  · cases h
  · split at h
    · split at h
      · cases h; omega
      · cases h; exact Nat.le_succ _
    · split at h
      · obtain ⟨c, hc, h⟩ := bind_eq_ok.mp h
        cases h
        exact recordPurchase_effects hc i
      · cases h; omega

theorem linkSubscription_effects {inv : Invoice}
    {t : Int} (h : linkSubscription b v inv req r t = .ok (b', x)) :
    ∀ i, effects b' i ≤ effects b i + 1 := by
  intro i
  unfold linkSubscription at h
  split at h
  · split at h
    · exact applyAssistedSettlement_effects h i
    · exact (applyRecoveryPayment_effects h i).le.trans (Nat.le_succ _)
    · split at h
      · obtain ⟨c, hc, h⟩ := bind_eq_ok.mp h
        cases h
        exact recordPurchase_effects hc i
      · cases h; omega
    · split at h
      · split at h
        · cases h; omega
        · split at h
          · cases h; omega
          · exact settleOrganization_effects h i
      · cases h; omega
  · split at h
    · cases h; omega
    · cases h; omega

/-! ## What a step does -/

/-- A step that does not pay leaves the invoice and its effects alone; the one that pays moves the request and the
invoice together. -/
inductive Move (s t : State) : Prop
  | quiet (hid : t.request.id = s.request.id) (hinv : t.invoice = s.invoice)
      (hst : t.request.status = s.request.status ∨
        (transitionAllowed s.request.status t.request.status = true ∧ t.request.status ≠ .paid))
      (heff : effects t.books s.invoice.id = effects s.books s.invoice.id)
  | paid (hid : t.request.id = s.request.id) (hs : s.request.status = .requested) (ht : t.request.status = .paid)
      (hopen : s.invoice.status = .open) (hinv : t.invoice = { s.invoice with status := .paid })
      (heff : effects t.books s.invoice.id ≤ effects s.books s.invoice.id + 1)

variable {at' : Int}

theorem applyDecision_ok
    {o : Option SettlementOutcome} (h : applyDecision s target paid r at' = .ok (t, o))
    (hs : s.request.status = .requested) (htgt : transitionAllowed .requested target = true)
    (hp : paid = true ↔ target = .paid) :
    Move s t ∧ t.request.paymentId = s.request.paymentId ∧ t.receipts = s.receipts := by
  unfold applyDecision at h
  obtain ⟨q, hq, h⟩ := bind_eq_ok.mp h
  obtain ⟨_, _, rfl⟩ := updateRequest_ok hq
  cases paid with
  | false =>
    cases h
    refine ⟨.quiet rfl rfl (.inr ⟨hs ▸ htgt, fun e => ?_⟩) rfl, rfl, rfl⟩
    exact absurd (hp.mpr e) (by decide)
  | true =>
    obtain ⟨i, hi, h⟩ := bind_eq_ok.mp h
    obtain ⟨⟨b, x⟩, hb, h⟩ := bind_eq_ok.mp h
    cases h
    obtain ⟨hopen, _, rfl⟩ := payInvoice_ok hi
    exact ⟨.paid rfl hs (hp.mp rfl) hopen rfl (linkSubscription_effects hb _), rfl, rfl⟩

variable {a : EventApplication}

theorem applyPaymentEvent_cases {e : Uuid}
    (h : applyPaymentEvent cfg s e f at' r = .ok (t, a)) :
    ((∃ c ∈ s.receipts, c.eventId = e ∧ c.outcome = .applied) ∧ t = s ∧ a.firstDelivery = false) ∨
    (∃ c : Receipt, c.outcome = a.outcome ∧ a.outcome ≠ .applied ∧ t = { s with receipts := s.receipts ++ [c] }) ∨
    (∃ (c : Receipt) (target : PaymentRequestStatus) (paid : Bool) (o : Option SettlementOutcome),
      a.outcome = .applied ∧ decisionOf cfg s f = .applied target paid ∧
      applyDecision { s with receipts := s.receipts ++ [c] } target paid r at' = .ok (t, o)) := by
  unfold applyPaymentEvent at h
  split at h
  · rename_i hseen
    cases h
    exact .inl ⟨by simpa using hseen, rfl, rfl⟩
  · obtain ⟨_, h⟩ := guard_ok h
    simp only at h
    cases hd : decisionOf cfg s f with
    | applied target paid =>
      rw [hd] at h
      obtain ⟨⟨u, o⟩, hu, h⟩ := bind_eq_ok.mp h
      cases h
      exact .inr (.inr ⟨_, target, paid, o, rfl, rfl, hu⟩)
    | ignored d => rw [hd] at h; cases h; exact .inr (.inl ⟨_, rfl, nofun, rfl⟩)
    | deferred => rw [hd] at h; cases h; exact .inr (.inl ⟨_, rfl, nofun, rfl⟩)
    | conflict d => rw [hd] at h; cases h; exact .inr (.inl ⟨_, rfl, nofun, rfl⟩)

theorem decisionOf_applied
    (h : decisionOf cfg s f = .applied target paid) :
    s.request.status = .requested ∧ transitionAllowed .requested target = true ∧ (paid = true ↔ target = .paid) := by
  unfold decisionOf at h
  split at h
  · obtain ⟨hr, rfl, hp, _⟩ := decide_applied h
    exact ⟨hr, target_reachable _, hp⟩
  · cases h

theorem Move.of_receipts {rs : List Receipt} (h : Move { s with receipts := rs } t) : Move s t := by
  cases h with
  | quiet h1 h2 h3 h4 => exact .quiet h1 h2 h3 h4
  | paid h1 h2 h3 h4 h5 h6 => exact .paid h1 h2 h3 h4 h5 h6

theorem Move.refl (s : State) : Move s s := .quiet rfl rfl (.inl rfl) rfl

theorem applyPaymentEvent_move {e : Uuid}
    (h : applyPaymentEvent cfg s e f at' r = .ok (t, a)) :
    Move s t ∧ t.request.paymentId = s.request.paymentId := by
  rcases applyPaymentEvent_cases h with ⟨_, rfl, _⟩ | ⟨c, _, _, rfl⟩ | ⟨c, target, paid, o, _, hd, ha⟩
  · exact ⟨.refl _, rfl⟩
  · exact ⟨.of_receipts (.refl _), rfl⟩
  · obtain ⟨hr, ht, hp⟩ := decisionOf_applied hd
    obtain ⟨hm, hid, _⟩ := applyDecision_ok ha hr ht hp
    exact ⟨.of_receipts hm, hid⟩

theorem update_move {new : PaymentRequest} (h : s.update new = .ok t) (hid : new.id = s.request.id)
    (hp : new.status ≠ .paid) : Move s t ∧ t.request.paymentId = new.paymentId := by
  obtain ⟨q, hq, h⟩ := bind_eq_ok.mp h
  obtain ⟨hst, _, rfl⟩ := updateRequest_ok hq
  cases h
  exact ⟨.quiet hid rfl (hst.imp id fun h => ⟨h, hp⟩) rfl, rfl⟩

theorem run_move {o : Op} (h : o.run cfg s = .ok t) : Move s t ∧
    (t.request.paymentId = s.request.paymentId ∨ ∃ p, o = .markRequested p) := by
  cases o with
  | deliver e f at' r =>
    obtain ⟨⟨u, a⟩, hu, rfl⟩ := map_eq_ok.mp h
    obtain ⟨hm, hid⟩ := applyPaymentEvent_move hu
    exact ⟨hm, .inl hid⟩
  | reconcile p n r =>
    obtain ⟨⟨u, a⟩, hu, rfl⟩ := map_eq_ok.mp h
    unfold applyReconciledSnapshot at hu
    split at hu
    · cases hu; exact ⟨.refl s, .inl rfl⟩
    · obtain ⟨⟨v, b⟩, hv, hu⟩ := bind_eq_ok.mp hu
      cases hu
      obtain ⟨hm, hid⟩ := applyPaymentEvent_move hv
      exact ⟨hm, .inl hid⟩
  | claimForDispatch st =>
    simp only [Op.run, claimForDispatch] at h
    split at h
    · obtain ⟨hm, hid⟩ := update_move h rfl (by simp)
      exact ⟨hm, .inl hid⟩
    · cases h; exact ⟨.refl s, .inl rfl⟩
  | markRequested p =>
    simp only [Op.run, markRequested] at h
    split at h
    · cases h; exact ⟨.refl s, .inl rfl⟩
    · exact ⟨(update_move h rfl (by simp)).1, .inr ⟨p, rfl⟩⟩
  | markRejected =>
    simp only [Op.run, markRejected] at h
    split at h
    · cases h; exact ⟨.refl s, .inl rfl⟩
    · obtain ⟨hm, hid⟩ := update_move h rfl (by simp)
      exact ⟨hm, .inl hid⟩
  | cancelUnsent rel =>
    obtain ⟨_, _, h⟩ := guards_ok h
    obtain ⟨hm, hid⟩ := update_move h rfl (by simp)
    exact ⟨hm, .inl hid⟩
  | markCancelRequested rel n =>
    obtain ⟨_, hr, h⟩ := guards_ok h
    have hr : s.request.status = .requested := by
      simp only [not_or, ne_eq, not_not] at hr; exact hr.1
    split at h
    · obtain ⟨hm, hid⟩ := update_move h rfl (by simp [hr])
      exact ⟨hm, .inl hid⟩
    · cases h; exact ⟨.refl s, .inl rfl⟩

theorem step_move {o : Option Op} (h : Step cfg s o t) : Move s t := by
  cases h with
  | op o h => exact (run_move h).1
  | other rs books taken hr hb => exact .quiet rfl rfl (.inl rfl) hb

/-! ## Runs -/

def Run (cfg : Config) : State → State → Prop := Relation.ReflTransGen (Next cfg)

theorem terminal_no_transition {a b : PaymentRequestStatus} (h : a.terminal = true) : transitionAllowed a b = false := by
  cases a <;> first | cases h; done | rfl

theorem requested_transition {b : PaymentRequestStatus} (h : transitionAllowed .requested b = true) :
    b.terminal = true := by
  cases b <;> first | cases h; done | rfl

theorem move_terminal (h : Move s t) (hs : s.request.status.terminal = true) :
    t.request.status = s.request.status := by
  cases h with
  | quiet _ _ hst _ =>
    rcases hst with h | ⟨h, _⟩
    · exact h
    · rw [terminal_no_transition hs] at h; cases h
  | paid _ hr _ _ _ _ => rw [hr] at hs; cases hs

theorem move_requested (h : Move s t) (hs : s.request.status = .requested) :
    t.request.status = .requested ∨ t.request.status.terminal = true := by
  cases h with
  | quiet _ _ hst _ =>
    rw [hs] at hst
    exact hst.imp id fun h => requested_transition h.1
  | paid _ _ ht _ _ _ => exact .inr (by rw [ht]; rfl)

theorem run_terminal (h : Run cfg s t) (hs : s.request.status.terminal = true) :
    t.request.status = s.request.status := by
  induction h with
  | refl => rfl
  | tail _ h ih =>
    obtain ⟨o, h⟩ := h
    exact (move_terminal (step_move h) (ih ▸ hs)).trans ih

theorem run_requested (h : Run cfg s t) (hs : s.request.status = .requested) :
    t.request.status = .requested ∨ t.request.status.terminal = true := by
  induction h with
  | refl => exact .inl hs
  | tail _ h ih =>
    obtain ⟨o, h⟩ := h
    rcases ih with ih | ih
    · exact move_requested (step_move h) ih
    · exact .inr (move_terminal (step_move h) ih ▸ ih)

structure Inv (s : State) : Prop where
  paid : s.invoice.status = .paid ↔ s.request.status = .paid
  issued : s.invoice.status = .open ∨ s.invoice.status = .paid
  one : effects s.books s.invoice.id ≤ 1
  none : s.request.status ≠ .paid → effects s.books s.invoice.id = 0

theorem Move.inv (h : Move s t) (hi : Inv s) : Inv t := by
  cases h with
  | quiet _ hinv hst heff =>
    have hpaid : t.request.status = .paid ↔ s.request.status = .paid := by
      rcases hst with e | ⟨hall, hne⟩
      · rw [e]
      · refine ⟨fun e => absurd e hne, fun e => ?_⟩
        rw [e] at hall; cases hall
    refine ⟨by rw [hinv, hpaid]; exact hi.paid, hinv ▸ hi.issued, ?_, fun hne => ?_⟩
    · rw [hinv, heff]; exact hi.one
    · rw [hinv, heff]; exact hi.none fun e => hne (hpaid.mpr e)
  | paid _ hs ht _ hinv heff =>
    have h0 := hi.none (by rw [hs]; decide)
    refine ⟨by rw [hinv, ht]; simp, .inr (by rw [hinv]), ?_, fun hne => absurd ht hne⟩
    rw [hinv]
    simp only
    omega

theorem reachable_inv (h : Reachable Init (Next cfg) s) : Inv s := by
  refine h.invariant (fun s h0 => ?_) fun s t _ ih ⟨o, hst⟩ => (step_move hst).inv ih
  obtain ⟨hc, _, _, hopen, _, heff⟩ := h0
  exact ⟨by rw [hc, hopen]; simp, .inl hopen, by omega, fun _ => heff⟩

/-! ## Receipts that were not applied -/

def forget {α : Type} (x : State × α) : State × α := ({ x.1 with receipts := [] }, x.2)

theorem applyDecision_receipts (s : State) (rs rs' : List Receipt) (target : PaymentRequestStatus) (paid : Bool)
    (r : Uuid) (at' : Int)
    (hv : ∀ q : Uuid, (rs.any fun c => c.id = r ∧ c.outcome = .applied ∧ c.eventName = .succeeded ∧ c.paymentRequestId = q) =
      (rs'.any fun c => c.id = r ∧ c.outcome = .applied ∧ c.eventName = .succeeded ∧ c.paymentRequestId = q)) :
    (applyDecision { s with receipts := rs } target paid r at').map forget =
      (applyDecision { s with receipts := rs' } target paid r at').map forget := by
  unfold applyDecision
  simp only [hv]
  cases updateRequest s.invoice.status s.takenPaymentIds s.request { s.request with status := target } with
  | error e => rfl
  | ok q =>
    cases paid with
    | false => rfl
    | true =>
      simp only [bind, Except.bind, if_true]
      cases payInvoice q s.invoice with
      | error e => rfl
      | ok i =>
        simp only
        cases linkSubscription s.books _ i q r at' with
        | error e => rfl
        | ok b => rfl

theorem forget_bind {α β : Type} {x y : Except Failure (State × α)} (g : α → β) (h : x.map forget = y.map forget) :
    (x >>= fun p => Except.ok (p.1, g p.2)).map forget = (y >>= fun p => Except.ok (p.1, g p.2)).map forget := by
  cases x with
  | error e =>
    cases y with
    | error e' => cases h; rfl
    | ok b => cases h
  | ok a =>
    cases y with
    | error e' => cases h
    | ok b =>
      have h := Except.ok.inj h
      simp only [forget, Prod.mk.injEq] at h
      simp only [bind, Except.bind, Except.map, forget, h.1, h.2]

theorem applyPaymentEvent_receipts (cfg : Config) (s : State) (rs : List Receipt) (e : Uuid) (f : PaymentEventFacts)
    (at' : Int) (r : Uuid) (h : ∀ c ∈ rs, c.outcome ≠ .applied ∧ c.id ≠ r) :
    (applyPaymentEvent cfg { s with receipts := s.receipts ++ rs } e f at' r).map forget =
      (applyPaymentEvent cfg s e f at' r).map forget := by
  have hseen : (rs.any fun c => c.eventId = e ∧ c.outcome = .applied) = false := by
    simp only [List.any_eq_false, decide_eq_true_eq, not_and]
    exact fun c hc _ => (h c hc).1
  have hkey : (rs.any fun c => c.id = r) = false := by
    simp only [List.any_eq_false, decide_eq_true_eq]
    exact fun c hc => (h c hc).2
  unfold applyPaymentEvent
  simp only [List.any_append, hseen, hkey, Bool.or_false]
  split
  · rfl
  · split
    · rfl
    · have hd : decisionOf cfg { s with receipts := s.receipts ++ rs } f = decisionOf cfg s f := rfl
      rw [hd]
      cases decisionOf cfg s f with
      | ignored d => rfl
      | deferred => rfl
      | conflict d => rfl
      | applied target paid =>
        refine forget_bind (fun o => (⟨.applied, some (.applied target paid), true, o⟩ : EventApplication))
          (applyDecision_receipts s _ _ target paid r at' fun q => ?_)
        -- the guards look for the receipt just written, never for one of the others
        have hrs : (rs.any fun c => c.id = r ∧ c.outcome = .applied ∧ c.eventName = .succeeded ∧
            c.paymentRequestId = q) = false := by
          simp only [List.any_eq_false, decide_eq_true_eq, not_and]
          exact fun c hc hid => absurd hid (h c hc).2
        simp only [List.any_append, hrs, Bool.or_false]

/-- **Payment events are applied exactly once.** In every reachable state the invoice is paid exactly when the request
is and has at most one effect; the request leaves `requested` at most once and never leaves a terminal status; only
`markRequested` sets the payment id; a delivery that applies nothing changes no request, invoice or book; and receipts
that were not applied change nothing for a later delivery. -/
theorem payment_events_exactly_once (cfg : Config) (s : State) (h : Reachable Init (Next cfg) s) :
    (s.invoice.status = .paid ↔ s.request.status = .paid) ∧
    effects s.books s.invoice.id ≤ 1 ∧
    (∀ t, Run cfg s t → s.request.status.terminal = true → t.request.status = s.request.status) ∧
    (∀ t u, Run cfg s t → s.request.status = .requested → t.request.status ≠ .requested → Run cfg t u →
      u.request.status = t.request.status) ∧
    (∀ o t, Step cfg s o t → t.request.paymentId ≠ s.request.paymentId → ∃ p, o = some (.markRequested p)) ∧
    (∀ e f at' r t a, applyPaymentEvent cfg s e f at' r = .ok (t, a) → a.outcome ≠ .applied →
      t.request = s.request ∧ t.invoice = s.invoice ∧ t.books = s.books) ∧
    (∀ e f at' r rs, (∀ c ∈ rs, c.outcome ≠ ReceiptOutcome.applied ∧ c.id ≠ r) →
      (applyPaymentEvent cfg { s with receipts := s.receipts ++ rs } e f at' r).map forget =
        (applyPaymentEvent cfg s e f at' r).map forget) := by
  have hi := reachable_inv h
  refine ⟨hi.paid, hi.one, fun t ht hs => run_terminal ht hs, ?_, ?_, ?_, ?_⟩
  · intro t u ht hs hne hu
    exact run_terminal hu ((run_requested ht hs).resolve_left hne)
  · intro o t hst hne
    cases hst with
    | op o h =>
      rcases (run_move h).2 with e | ⟨p, rfl⟩
      · exact absurd e hne
      · exact ⟨p, rfl⟩
    | other rs books taken hr hb => exact absurd rfl hne
  · intro e f at' r t a ha hne
    rcases applyPaymentEvent_cases ha with ⟨hseen, rfl, _⟩ | ⟨c, _, _, rfl⟩ | ⟨_, _, _, _, e, _⟩
    · exact ⟨rfl, rfl, rfl⟩
    · exact ⟨rfl, rfl, rfl⟩
    · exact absurd e hne
  · exact fun e f at' r rs hrs => applyPaymentEvent_receipts cfg s rs e f at' r hrs

def freshState : State where
  request := ⟨5, 4, 500, "EUR", .created, none, 2, 0, none, 0⟩
  invoice := ⟨4, .open, ⟨"user", "u"⟩, ⟨"platform", "p"⟩, some 1, "EUR", 500, [⟨2, 3, true⟩],
    some ⟨"organization_subscription", none, some 1, some 2, none, none⟩⟩
  receipts := []
  books := {
    subs := { Subscriptions.earlyDb with settlements := [] }
    personalProduct := fun _ => false
    purchases := []
    assistance := fun _ => none
    channels := fun _ => none
    lateSettlements := []
    obligations := fun _ => none
    recoveryPayments := [] }
  takenPaymentIds := []

def testConfig : Config := ⟨false, fun paymentId _ => paymentId⟩

def succeededEvent : PaymentEventFacts where
  name := .succeeded
  source := "payment-service"
  paymentId := 7
  producer := EXPECTED_PRODUCER
  paymentRequestId := 5
  sourceType := "invoice"
  sourceId := 4
  payer := ⟨"user", "u"⟩
  seller := ⟨"platform", "p"⟩
  organizationId := some 1
  amount := .integer 500
  currency := "EUR"
  revision := 3
  purpose := some "organization_subscription"
  beneficiaryUserId := none
  liveMode := none

def after (s : State) (o : Op) : State :=
  match o.run testConfig s with
  | .ok t => t
  | .error _ => s

theorem after_reachable (h : Reachable Init (Next testConfig) s) (o : Op) :
    Reachable Init (Next testConfig) (after s o) := by
  unfold after
  split
  · rename_i t ht
    exact h.step ⟨some o, .op o ht⟩
  · exact h

def paidState : State :=
  after (after (after freshState (.claimForDispatch false)) (.markRequested 7)) (.deliver 9 succeededEvent 0 11)

theorem payment_events_exactly_once_paid :
    paidState.invoice.status = .paid ∧ effects paidState.books 4 = 1 ∧ effects paidState.books paidState.invoice.id ≤ 1 := by
  have h : Reachable Init (Next testConfig) paidState :=
    after_reachable (after_reachable (after_reachable (.init ⟨rfl, rfl, rfl, rfl, rfl, rfl⟩) _) _) _
  have hx := payment_events_exactly_once testConfig paidState h
  exact ⟨hx.1.mpr rfl, rfl, hx.2.1⟩

end NawaraCore.PaymentRequests
