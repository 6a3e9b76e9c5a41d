import NawaraCore.Lib.Rows
import NawaraCore.Dispute.DisputeSystem

/-!
# Soundness of the dispute ingestion

What one notification can do to the dispute tables.
-/

namespace NawaraCore.Disputes

open Payments (Uuid PaymentError Admitted enforce enforce_bind_ok trim)
open Refunds (hasNoNul)

/-! ## What a notice changes -/

structure SameDispute (d x : Dispute) : Prop where
  id : x.id = d.id
  provider : x.provider = d.provider
  providerDisputeId : x.providerDisputeId = d.providerDisputeId
  paymentId : x.paymentId = d.paymentId
  attemptId : x.attemptId = d.attemptId
  captureFactId : x.captureFactId = d.captureFactId
  captureBasis : x.captureBasis = d.captureBasis
  amount : x.amount = d.amount
  currency : x.currency = d.currency

def Dispute.link (d : Dispute) (fact : Option ChargebackFact) : Dispute := { d with chargebackFactId := fact.map (·.id) }

def Dispute.closed (d : Dispute) (n : DisputeNotice) : Dispute :=
  { d with status := n.kind.status, providerClosedAt := n.providerOccurredAt }

def DisputeNotice.loss (n : DisputeNotice) : Option Chargeback := if n.kind = .lost then n.chargeback else none

def lostEvents (d : Dispute) (fact : Option ChargebackFact) : List DisputeEvent :=
  if d.status = .lost then [.lost d.id (fact.map (·.id))] else []

structure Reported (chargebacks : List ChargebackFact) (v : Delivery) (d : Dispute) (fact : Option ChargebackFact) : Prop where
  reported : fact = v.notice.loss.map (v.fact d)
  fresh : ∀ f ∈ fact, ∀ g ∈ chargebacks, g.id ≠ f.id
  untaken : ∀ f ∈ fact, ∀ g ∈ chargebacks, ¬ (g.provider = f.provider ∧ g.providerTxnId = f.providerTxnId)
  text : ∀ f ∈ fact, hasNoNul f.providerTxnId ∧ hasNoNul f.currency
  positive : ∀ f ∈ fact, 0 < f.amount

structure AboutDispute (v : Delivery) (d : Dispute) : Prop where
  provider : d.provider = v.attempt.provider
  providerDisputeId : d.providerDisputeId = v.notice.providerDisputeId
  paymentId : d.paymentId = v.payment.id
  attemptId : d.attemptId = v.attempt.id
  amount : d.amount = v.notice.amount
  currency : trim d.currency = v.notice.currency

inductive Change (s : Db) (v : Delivery) : Outcome → Db → Prop
  | noted (o : Outcome) (ho : ∀ r id, o ≠ .observed .applied r id) : Change s v o s
  | recorded (capture : Capture) (basis : CaptureBasis) (fact : Option ChargebackFact)
    (hb : attributeDispute s.books v.payment v.attempt = .bound capture basis)
    (hx : v.notice.currency = trim capture.currency ∧ v.notice.amount ≤ capture.amount)
    (hc : Admitted (disputeChecks s (v.dispute capture basis))) (hf : Reported s.chargebacks v (v.dispute capture basis) fact) :
    Change s v (.observed .applied none (some v.freshDisputeId))
      { s with
        disputes := s.disputes ++ [(v.dispute capture basis).link fact]
        chargebacks := s.chargebacks ++ fact.toList
        outbox := s.outbox ++ .opened v.freshDisputeId :: lostEvents (v.dispute capture basis) fact }
  | closed (d : Dispute) (fact : Option ChargebackFact) (hd : d ∈ s.disputes) (ha : AboutDispute v d)
    (hs : d.status = .opened) (hk : v.notice.kind ≠ .opened) (hf : Reported s.chargebacks v d fact) :
    Change s v (.observed .applied none (some d.id))
      { s with
        disputes := replaceRow (·.id) ((d.closed v.notice).link fact) s.disputes
        chargebacks := s.chargebacks ++ fact.toList
        outbox := s.outbox ++ lostEvents (d.closed v.notice) fact }
  | evidence (d : Dispute) (fact : ChargebackFact) (hd : d ∈ s.disputes) (ha : AboutDispute v d)
    (hs : d.status = .lost) (hn : d.chargebackFactId = none) (hf : Reported s.chargebacks v d (some fact)) :
    Change s v (.observed .applied (some .chargebackEvidence) (some d.id))
      { s with
        disputes := replaceRow (·.id) (d.link (some fact)) s.disputes
        chargebacks := s.chargebacks ++ [fact] }

variable {id : Uuid} {n : DisputeNotice}

section
variable {s t : Db} {v : Delivery} {d : Dispute} {o : Outcome}

theorem link_none (h : d.chargebackFactId = none) : d.link none = d := by
  cases d
  cases h
  rfl

variable {c : Chargeback}

theorem linkChargeback_ok (h : linkChargeback s d c v = .ok (t, id)) :
    id = v.freshFactId ∧ Admitted (chargebackChecks s (v.fact d c)) ∧
      t = { s with
        disputes := replaceRow (·.id) (d.link (some (v.fact d c))) s.disputes
        chargebacks := s.chargebacks ++ [v.fact d c] } := by
  obtain ⟨u, hu, h⟩ := bind_eq_ok.mp h
  obtain ⟨hc, rfl⟩ := enforce_bind_ok hu
  obtain ⟨w, hw, h⟩ := bind_eq_ok.mp h
  obtain ⟨-, rfl⟩ := enforce_bind_ok hw
  cases h
  exact ⟨rfl, hc, rfl⟩

theorem reported_some (hl : v.notice.loss = some c) (hc : Admitted (chargebackChecks s (v.fact d c))) :
    Reported s.chargebacks v d (some (v.fact d c)) := by
  simp only [Admitted, chargebackChecks, List.forall_mem_cons, Bool.not_eq_true', List.any_eq_false,
    decide_eq_true_eq] at hc
  refine ⟨by rw [hl]; rfl, ?_, ?_, ?_, ?_⟩ <;> rintro f hf <;> obtain rfl := Option.some.inj hf
  · exact hc.1
  · exact hc.2.2.2.2.2.1
  · exact hc.2.1
  · exact hc.2.2.2.1.1

theorem close_ok (hk : d.status = v.notice.kind.status) (h : close s d v = .ok t) :
    ∃ fact, Reported s.chargebacks v d fact ∧
      t = { s with
        disputes := if fact = none then s.disputes else replaceRow (·.id) (d.link fact) s.disputes
        chargebacks := s.chargebacks ++ fact.toList
        outbox := s.outbox ++ lostEvents d fact } := by
  have hlost : d.status = .lost ↔ v.notice.kind = .lost := by
    rw [hk]
    cases v.notice.kind <;> decide
  unfold close at h
  split at h
  · rename_i hs
    cases h
    refine ⟨none, ⟨?_, nofun, nofun, nofun, nofun⟩, ?_⟩
    · rw [DisputeNotice.loss, if_neg (hlost.not.mp hs)]; rfl
    · simp [lostEvents, hs]
  · rename_i hs
    have hs : d.status = .lost := not_not.mp hs
    have hloss : v.notice.loss = v.notice.chargeback := if_pos (hlost.mp hs)
    split at h
    · rename_i hc
      cases h
      refine ⟨none, ⟨by rw [hloss, hc]; rfl, nofun, nofun, nofun, nofun⟩, ?_⟩
      simp [lostEvents, hs]
    · rename_i c hc
      obtain ⟨⟨u, id⟩, hu, h⟩ := bind_eq_ok.mp h
      obtain ⟨rfl, hchecks, rfl⟩ := linkChargeback_ok hu
      cases h
      exact ⟨some (v.fact d c), reported_some (hloss.trans hc) hchecks, by simp [lostEvents, hs]; rfl⟩

theorem dispute_new (hc : Admitted (disputeChecks s d)) : (∀ x ∈ s.disputes, x.id ≠ d.id) ∧
    ∀ x ∈ s.disputes, ¬ (x.provider = d.provider ∧ x.providerDisputeId = d.providerDisputeId) := by
  simp only [Admitted, disputeChecks, List.forall_mem_cons, Bool.not_eq_true', List.any_eq_false,
    decide_eq_true_eq] at hc
  exact ⟨hc.1, hc.2.2.2.2.2.2.1⟩

theorem onNew_change (h : onNew s v = .ok (t, o)) : Change s v o t := by
  unfold onNew at h
  split at h
  · cases h
    refine .noted _ fun r id => ?_
    split <;> nofun
  · cases h; exact .noted _ nofun
  rename_i capture basis hb
  split at h
  · cases h; exact .noted _ nofun
  rename_i hx
  simp only [not_or, not_not, Int.not_lt] at hx
  split at h
  · cases h; exact .noted _ nofun
  obtain ⟨u, hu, h⟩ := bind_eq_ok.mp h
  obtain ⟨hc, rfl⟩ := enforce_bind_ok hu
  obtain ⟨w, hw, h⟩ := bind_eq_ok.mp h
  cases h
  have hfresh : ∀ x ∈ s.disputes, x.id ≠ v.freshDisputeId := (dispute_new hc).1
  have hnone : (v.dispute capture basis).link none = v.dispute capture basis := link_none rfl
  split at hw
  · obtain ⟨fact, hf, rfl⟩ := close_ok rfl hw
    have hr := Change.recorded capture basis fact hb hx hc hf
    cases fact with
    | none =>
      rw [hnone] at hr
      convert hr using 2
      · rfl
      · exact if_pos rfl
      · exact List.append_assoc _ _ _
    | some f =>
      convert hr using 2
      · rfl
      · exact (if_neg (by simp)).trans (replaceRow_append (k := fun x : Dispute => x.id) hfresh rfl)
      · exact List.append_assoc _ _ _
  · rename_i hs
    cases hw
    have hs : v.notice.kind.status = .opened := not_not.mp hs
    have hkind : v.notice.kind ≠ .lost := by intro hk; rw [hk] at hs; cases hs
    have hloss : v.notice.loss = none := if_neg hkind
    have hr := Change.recorded capture basis none hb hx hc ⟨by rw [hloss]; rfl, nofun, nofun, nofun, nofun⟩
    rw [hnone] at hr
    have hnl : (v.dispute capture basis).status ≠ .lost := by
      intro hl
      rw [show (v.dispute capture basis).status = v.notice.kind.status from rfl, hs] at hl
      cases hl
    have hev : lostEvents (v.dispute capture basis) none = [] := if_neg hnl
    rw [hev] at hr
    convert hr using 2
    · rfl
    · exact (List.append_nil _).symm
    · rfl

theorem onKnown_change (hopen : d.status = .opened → d.chargebackFactId = none) (hd : d ∈ s.disputes)
    (hr : d.provider = v.attempt.provider ∧ d.providerDisputeId = v.notice.providerDisputeId) (h : onKnown s d v = .ok (t, o)) : Change s v o t := by
  unfold onKnown at h
  dsimp only at h
  split at h
  · cases h; exact .noted _ nofun
  rename_i hbind
  split at h
  · cases h; exact .noted _ nofun
  rename_i hexp
  have habout : AboutDispute v d := by
    simp only [not_or, not_not] at hbind hexp
    exact ⟨hr.1, hr.2, hbind.1, hbind.2, hexp.1, hexp.2⟩
  split at h
  · cases h; exact .noted _ nofun
  rename_i hkind
  split at h
  · rename_i hs
    split at h
    · cases h; exact .noted _ nofun
    obtain ⟨u, hu, h⟩ := bind_eq_ok.mp h
    obtain ⟨-, rfl⟩ := enforce_bind_ok hu
    obtain ⟨w, hw, h⟩ := bind_eq_ok.mp h
    cases h
    obtain ⟨fact, hf, rfl⟩ := close_ok rfl hw
    have hr := Change.closed d fact hd habout hs hkind ⟨hf.reported, hf.fresh, hf.untaken, hf.text, hf.positive⟩
    cases fact with
    | none =>
      have hn : (d.closed v.notice).link none = d.closed v.notice := link_none (hopen hs)
      rw [hn] at hr
      exact hr
    | some f =>
      rw [if_neg (by simp)]
      have hrr : replaceRow (·.id) ((d.closed v.notice).link (some f)) (s.replaceDispute (d.closed v.notice)).disputes =
          replaceRow (·.id) ((d.closed v.notice).link (some f)) s.disputes := replaceRow_replaceRow rfl
      rw [← hrr] at hr
      exact hr
  rename_i hs
  split at h
  · cases h; exact .noted _ nofun
  rename_i hsame
  split at h
  · cases h; exact .noted _ nofun
  rename_i c hc
  split at h
  · rename_i hn
    split at h
    · cases h; exact .noted _ nofun
    obtain ⟨⟨u, id⟩, hu, h⟩ := bind_eq_ok.mp h
    obtain ⟨-, hchecks, rfl⟩ := linkChargeback_ok hu
    cases h
    have hlost : d.status = .lost := by
      rw [not_not.mp hsame]
      have hk : v.notice.kind = .lost := by by_contra hk; rw [if_neg hk] at hc; cases hc
      rw [hk]; rfl
    exact .evidence d _ hd habout hlost hn (reported_some hc hchecks)
  · split at h <;> cases h <;> exact .noted _ nofun

/-- An ingestion changes nothing, or changes the dispute and observes the notification, which was not observed before. -/
inductive Ingested (s : Db) (id : Uuid) (provider : String) (n : DisputeNotice) : Db → Prop
  | unchanged : Ingested s id provider n s
  | observed (v : Delivery) (disposition : Disposition) (reason : Option Reason) (disputeId : Option Uuid) (t : Db)
    (hv : v.webhookEventId = id ∧ v.notice = n) (hp : v.attempt.provider = provider)
    (hn : ∀ o ∈ s.observations, o.webhookEventId ≠ id) (hc : Change s v (.observed disposition reason disputeId) t) :
    Ingested s id provider n { t with observations := t.observations ++ [v.observation provider disposition reason disputeId] }

theorem ingest_ok (hopen : ∀ d ∈ s.disputes, d.status = .opened → d.chargebackFactId = none) {fd ff : Uuid}
    {provider reference : String} {last : Bool} {r : Ingestion}
    (h : ingest s id provider reference n last fd ff = .ok (t, r)) : Ingested s id provider n t := by
  unfold ingest at h
  split at h
  · cases h; exact .unchanged
  rename_i a ha
  have hprov : a.provider = provider := by
    have hr := List.find?_some ha
    simp only [AttemptRef.referenced, decide_eq_true_eq] at hr
    exact hr.1
  split at h
  · cases h
  rename_i p hp
  split at h
  · cases h; exact .unchanged
  rename_i hfind
  have hnew : ∀ o ∈ s.observations, o.webhookEventId ≠ id := by simpa using hfind
  unfold observe at h
  obtain ⟨⟨u, o⟩, hu, h⟩ := bind_eq_ok.mp h
  have hchange : Change s ⟨id, p, a, n, last, fd, ff⟩ o u := by
    split at hu
    · rename_i d hd
      have hmem := List.mem_of_find?_eq_some hd
      have href := List.find?_some hd
      simp only [decide_eq_true_eq] at href
      exact onKnown_change (hopen d hmem) hmem ⟨href.1.trans hprov.symm, href.2⟩ hu
    · exact onNew_change hu
  cases o with
  | held =>
    cases h
    cases hchange
    exact .unchanged
  | observed disposition reason disputeId =>
    obtain ⟨w, hw, h⟩ := bind_eq_ok.mp h
    obtain ⟨-, rfl⟩ := enforce_bind_ok hw
    cases h
    exact .observed _ disposition reason disputeId u ⟨rfl, rfl⟩ hprov hnew hchange

end

/-! ## The invariant -/

def DisputeEvent.disputeId : DisputeEvent → Uuid
  | .opened id => id
  | .lost id _ => id

def Announced (outbox : List DisputeEvent) (d : Dispute) : Prop :=
  ∃ factId, outbox.filter (·.disputeId = d.id) =
    .opened d.id :: if d.status = .lost then [.lost d.id factId] else []

/-- A chargeback is the one of its dispute, and moved money of the dispute's payment. -/
structure FactOk (disputes : List Dispute) (f : ChargebackFact) : Prop where
  positive : 0 < f.amount
  linked : ∃ d ∈ disputes, d.id = f.disputeId ∧ d.chargebackFactId = some f.id ∧ d.paymentId = f.paymentId

structure DisputeOk (s : Db) (d : Dispute) : Prop where
  unfunded : d.status ≠ .lost → d.chargebackFactId = none
  funded : ∀ id, d.chargebackFactId = some id → ∃ f ∈ s.chargebacks, f.id = id ∧ f.disputeId = d.id
  announced : Announced s.outbox d

structure DisputeInv (s : Db) : Prop where
  ids : (s.disputes.map (·.id)).Nodup
  references : (s.disputes.map fun d => (d.provider, d.providerDisputeId)).Nodup
  disputes : ∀ d ∈ s.disputes, DisputeOk s d
  factIds : (s.chargebacks.map (·.id)).Nodup
  facts : ∀ f ∈ s.chargebacks, FactOk s.disputes f
  events : ∀ e ∈ s.outbox, ∃ d ∈ s.disputes, d.id = e.disputeId
  observations : (s.observations.map (·.webhookEventId)).Nodup

theorem disputeInv_new (books : Books) : DisputeInv (Sys.new books).db := by
  constructor <;> simp [Sys.new]

variable {cs : List ChargebackFact}
variable {f : ChargebackFact}

section
variable {s t : Db} {v : Delivery} {d x : Dispute} {fact : Option ChargebackFact}

theorem Reported.disputeId (h : Reported cs v d fact) (hf : f ∈ fact) :
    f.disputeId = d.id ∧ f.paymentId = v.payment.id := by
  obtain ⟨c, -, rfl⟩ := Option.map_eq_some_iff.mp (h.reported.symm.trans hf)
  exact ⟨rfl, rfl⟩

theorem Reported.lost (h : Reported cs v d fact) (hf : fact ≠ none) : v.notice.kind = .lost := by
  by_contra hk
  rw [h.reported, DisputeNotice.loss, if_neg hk] at hf
  exact hf rfl

theorem Reported.factIds (h : Reported cs v d fact) (hn : (cs.map (·.id)).Nodup) :
    ((cs ++ fact.toList).map (·.id)).Nodup := by
  cases fact with
  | none => rw [Option.toList_none, List.append_nil]; exact hn
  | some f => exact nodup_append_row hn (h.fresh f rfl)

theorem DisputeOk.other (h : DisputeOk s d) (hne : d.id ≠ x.id) {events : List DisputeEvent}
    (he : ∀ e ∈ events, e.disputeId = x.id) (hf : ∀ f ∈ s.chargebacks, f ∈ t.chargebacks)
    (ho : t.outbox = s.outbox ++ events) : DisputeOk t d where
  unfunded := h.unfunded
  funded id hid := by
    obtain ⟨f, hmem, hf'⟩ := h.funded id hid
    exact ⟨f, hf f hmem, hf'⟩
  announced := by
    obtain ⟨factId, ha⟩ := h.announced
    refine ⟨factId, ?_⟩
    have hnone : events.filter (·.disputeId = d.id) = [] := by
      rw [List.filter_eq_nil_iff]
      intro e hmem
      simpa [he e hmem] using hne.symm
    rw [ho, List.filter_append, hnone, List.append_nil, ha]

theorem lostEvents_disputeId : ∀ e ∈ lostEvents d fact, e.disputeId = d.id := by
  intro e he
  unfold lostEvents at he
  split at he
  · rw [List.mem_singleton.mp he]; rfl
  · cases he

theorem FactOk.append {l : List Dispute} (h : FactOk l f) : FactOk (l ++ [x]) f := by
  obtain ⟨hp, d, hd, hl⟩ := h
  exact ⟨hp, d, List.mem_append_left _ hd, hl⟩

theorem mem_toList_append :
    f ∈ cs ++ fact.toList ↔ f ∈ cs ∨ f ∈ fact := by
  rw [List.mem_append, Option.mem_toList]
  rfl

theorem DisputeInv.replaced (h : DisputeInv s) (hd : d ∈ s.disputes) (hx : SameDispute d x)
    (hn : d.chargebackFactId = none) (hfact : x.chargebackFactId = fact.map (·.id)) (hlost : fact ≠ none → x.status = .lost)
    (hkeep : d.status = .lost → x.status = .lost) (hp : d.paymentId = v.payment.id) (hf : Reported s.chargebacks v d fact)
    (events : List DisputeEvent)
    (he : ∃ factId, events = if d.status ≠ .lost ∧ x.status = .lost then [.lost d.id factId] else []) :
    DisputeInv { s with
      disputes := replaceRow (·.id) x s.disputes
      chargebacks := s.chargebacks ++ fact.toList
      outbox := s.outbox ++ events } := by
  have hsole : ∀ y ∈ s.disputes, y.id = x.id → y = d := fun y hy hid => eq_of_key h.ids hy hd (hid.trans hx.id)
  obtain ⟨factId, rfl⟩ := he
  have hev : ∀ e ∈ (if d.status ≠ .lost ∧ x.status = .lost then [DisputeEvent.lost d.id factId] else []),
      e.disputeId = x.id := by
    intro e he
    split at he
    · rw [List.mem_singleton.mp he]; exact hx.id.symm
    · cases he
  refine ⟨?_, ?_, fun y hy => ?_, hf.factIds h.factIds, fun f hmem => ?_, fun e he => ?_, h.observations⟩
  · exact (map_replaceRow (l := s.disputes) (f := (·.id)) fun _ _ he => he) ▸ h.ids
  · have hmap := map_replaceRow (l := s.disputes) (k := (·.id)) (b := x) (f := fun d => (d.provider, d.providerDisputeId))
      fun y hy hid => by rw [hsole y hy hid, hx.provider, hx.providerDisputeId]
    exact hmap ▸ h.references
  · rcases mem_replaceRow hy with rfl | ⟨hy, hne⟩
    · refine ⟨fun hs => ?_, fun id hid => ?_, ?_⟩
      · rw [hfact, not_imp_comm.mp hlost hs]; rfl
      · obtain ⟨f, hsome, rfl⟩ := Option.map_eq_some_iff.mp (hfact.symm.trans hid)
        exact ⟨f, mem_toList_append.mpr (.inr hsome), rfl, (hf.disputeId hsome).1.trans hx.id.symm⟩
      · obtain ⟨id, ha⟩ := (h.disputes d hd).announced
        rw [← hx.id] at ha
        have hself := List.filter_eq_self.mpr fun e he => decide_eq_true (hev e he)
        by_cases hs : d.status = .lost
        · refine ⟨id, ?_⟩
          show (s.outbox ++ _).filter (·.disputeId = y.id) = _
          rw [List.filter_append, ha, hself]
          simp [hs, hkeep hs, hx.id]
        · refine ⟨factId, ?_⟩
          show (s.outbox ++ _).filter (·.disputeId = y.id) = _
          rw [List.filter_append, ha, hself]
          simp [hs, hx.id]
    · exact (h.disputes y hy).other hne hev (fun f hf' => List.mem_append_left _ hf') rfl
  · rcases mem_toList_append.mp hmem with hmem | hmem
    · obtain ⟨hpos, y, hy, hid, hl, hpay⟩ := h.facts f hmem
      refine ⟨hpos, y, replaceRow_other hy fun hyx => ?_, hid, hl, hpay⟩
      rw [hsole y hy hyx, hn] at hl
      cases hl
    · refine ⟨hf.positive f hmem, x, replaceRow_mem hd hx.id.symm, hx.id.trans (hf.disputeId hmem).1.symm, ?_,
        hx.paymentId.trans (hp.trans (hf.disputeId hmem).2.symm)⟩
      rw [hfact]
      exact congrArg (Option.map (·.id)) hmem
  · rcases List.mem_append.mp he with he | he
    · obtain ⟨y, hy, hye⟩ := h.events e he
      by_cases hid : y.id = x.id
      · exact ⟨x, replaceRow_mem hd hx.id.symm, hid.symm.trans hye⟩
      · exact ⟨y, replaceRow_other hy hid, hye⟩
    · exact ⟨x, replaceRow_mem hd hx.id.symm, (hev e he).symm⟩

theorem DisputeInv.recorded (h : DisputeInv s) (hid : ∀ y ∈ s.disputes, y.id ≠ d.id)
    (href : ∀ y ∈ s.disputes, ¬ (y.provider = d.provider ∧ y.providerDisputeId = d.providerDisputeId))
    (hp : d.paymentId = v.payment.id) (hk : d.status = v.notice.kind.status) (hf : Reported s.chargebacks v d fact) :
    DisputeInv { s with
      disputes := s.disputes ++ [d.link fact]
      chargebacks := s.chargebacks ++ fact.toList
      outbox := s.outbox ++ .opened d.id :: lostEvents d fact } := by
  have hev : ∀ e ∈ .opened d.id :: lostEvents d fact, e.disputeId = d.id := by
    intro e he
    rcases List.mem_cons.mp he with rfl | he
    · rfl
    · exact lostEvents_disputeId e he
  have hnone : s.outbox.filter (·.disputeId = d.id) = [] := by
    rw [List.filter_eq_nil_iff]
    intro e he
    obtain ⟨y, hy, hye⟩ := h.events e he
    simpa [← hye] using hid y hy
  refine ⟨nodup_append_row h.ids hid, nodup_append_row h.references ?_, fun y hy => ?_, hf.factIds h.factIds,
    fun f hmem => ?_, fun e he => ?_, h.observations⟩
  · intro y hy he
    exact href y hy ⟨(Prod.ext_iff.mp he).1, (Prod.ext_iff.mp he).2⟩
  · rcases mem_append_row hy with hy | rfl
    · exact (h.disputes y hy).other (hid y hy) hev (fun f hf' => List.mem_append_left _ hf') rfl
    · refine ⟨fun hs => ?_, fun id hfact => ?_, fact.map (·.id), ?_⟩
      · by_contra hne
        have hk' := hf.lost (by rintro rfl; exact hne rfl)
        exact hs (hk.trans (by rw [hk']; rfl))
      · obtain ⟨f, hsome, rfl⟩ := Option.map_eq_some_iff.mp hfact
        exact ⟨f, mem_toList_append.mpr (.inr hsome), rfl, (hf.disputeId hsome).1⟩
      · show (s.outbox ++ _).filter (·.disputeId = d.id) = _
        rw [List.filter_append, hnone, List.nil_append, List.filter_eq_self.mpr fun e he => decide_eq_true (hev e he)]
        rfl
  · rcases mem_toList_append.mp hmem with hmem | hmem
    · exact (h.facts f hmem).append
    · refine ⟨hf.positive f hmem, _, List.mem_append_right _ (List.mem_singleton_self _), ?_, ?_, ?_⟩
      · exact (hf.disputeId hmem).1.symm
      · exact congrArg (Option.map (·.id)) hmem
      · exact hp.trans (hf.disputeId hmem).2.symm
  · rcases List.mem_append.mp he with he | he
    · obtain ⟨y, hy, hye⟩ := h.events e he
      exact ⟨y, List.mem_append_left _ hy, hye⟩
    · exact ⟨_, List.mem_append_right _ (List.mem_singleton_self _), (hev e he).symm⟩

variable {o : Outcome}

theorem Change.inv (h : DisputeInv s) (hc : Change s v o t) : DisputeInv t := by
  cases hc with
  | noted o ho => exact h
  | recorded capture basis fact hb hx hc hf =>
    obtain ⟨hid, href⟩ := dispute_new hc
    exact h.recorded hid href rfl rfl hf
  | closed d fact hd ha hs hk hf =>
    have hn := (h.disputes d hd).unfunded (by rw [hs]; nofun)
    refine h.replaced (x := (d.closed v.notice).link fact) hd ⟨rfl, rfl, rfl, rfl, rfl, rfl, rfl, rfl, rfl⟩ hn rfl
      (fun hne => ?_) (fun hl => ?_) ha.paymentId hf _ ⟨fact.map (·.id), ?_⟩
    · show v.notice.kind.status = .lost
      rw [hf.lost hne]; rfl
    · rw [hs] at hl; cases hl
    · have hl : d.status ≠ .lost := by rw [hs]; nofun
      simp only [hl, ne_eq, not_false_eq_true, true_and]
      rfl
  | evidence d fact hd ha hs hn hf =>
    have hr := h.replaced (x := d.link (some fact)) hd ⟨rfl, rfl, rfl, rfl, rfl, rfl, rfl, rfl, rfl⟩ hn rfl
      (fun _ => hs) (fun _ => hs) ha.paymentId hf [] ⟨none, by simp [hs]⟩
    rw [List.append_nil] at hr
    exact hr

theorem Change.observations (hc : Change s v o t) : t.observations = s.observations := by
  cases hc <;> rfl

theorem Change.rows (hc : Change s v o t) : t.books = s.books ∧ t.notifications = s.notifications := by
  cases hc <;> exact ⟨rfl, rfl⟩

theorem DisputeInv.observed (h : DisputeInv t) {o : Observation} (hn : ∀ x ∈ t.observations, x.webhookEventId ≠ o.webhookEventId) :
    DisputeInv { t with observations := t.observations ++ [o] } where
  ids := h.ids
  references := h.references
  disputes d hd := ⟨(h.disputes d hd).unfunded, (h.disputes d hd).funded, (h.disputes d hd).announced⟩
  factIds := h.factIds
  facts := h.facts
  events := h.events
  observations := nodup_append_row h.observations hn

theorem Ingested.inv (h : DisputeInv s) {provider : String} (hi : Ingested s id provider n t) : DisputeInv t := by
  cases hi with
  | unchanged => exact h
  | observed v disposition reason disputeId u hv hp hn hc =>
    refine (hc.inv h).observed fun x hx => ?_
    rw [hc.observations] at hx
    exact fun he => hn x hx (he.trans hv.1)

/-! ## Steps -/

inductive DbStep (s : Db) : Db → Prop
  | unchanged : DbStep s s
  | kept (books : Books) (hk : s.books.keeps books) : DbStep s { s with books }
  | stored (r : Received) (hn : ∀ e ∈ s.notifications, e.id ≠ r.id) :
    DbStep s { s with notifications := s.notifications ++ [r.row] }
  | marked (e x : DisputeNotification) (he : e ∈ s.notifications)
    (hx : x.id = e.id ∧ x.provider = e.provider ∧ x.reference = e.reference ∧ x.notice = e.notice) :
    DbStep s (s.replaceNotification x)
  | ingested (e : DisputeNotification) (n : DisputeNotice) (t : Db) (he : e ∈ s.notifications) (hn : e.notice = some n)
    (hi : Ingested s e.id e.provider n t) : DbStep s t

theorem findNotification_mem {e : DisputeNotification} (h : s.findNotification id = some e) :
    e ∈ s.notifications ∧ e.id = id :=
  ⟨List.mem_of_find?_eq_some h, by simpa using List.find?_some h⟩

theorem step_dbStep (enabled : Bool) {s : Sys} (h : DisputeInv s.db) (a : Action) : DbStep s.db (step enabled s a).db := by
  cases a with
  | keep books =>
    simp only [step]
    split
    · rename_i hk; exact .kept books hk
    · exact .unchanged
  | receive r =>
    simp only [step, receive]
    split
    · rename_i hn
      refine .stored r fun e he => ?_
      simpa using List.find?_eq_none.mp hn e he
    · split <;> exact .unchanged
  | retry id =>
    simp only [step, retry]
    split
    · exact .unchanged
    · split <;> exact .unchanged
  | exhaust id =>
    simp only [step, exhaust]
    split
    · exact .unchanged
    · rename_i e he
      split
      · exact .marked e _ (findNotification_mem he).1 ⟨rfl, rfl, rfl, rfl⟩
      · exact .unchanged
  | process id fd ff =>
    simp only [step]
    split
    · split
      · exact .unchanged
      · rename_i e he
        have hmem := (findNotification_mem he).1
        unfold process
        dsimp only
        split
        · exact .unchanged
        · split
          · exact .unchanged
          · rename_i n hn
            split
            · rename_i t r hr
              exact .ingested e n t hmem hn (ingest_ok (fun d hd hs => (h.disputes d hd).unfunded (by rw [hs]; nofun)) hr)
            · exact .unchanged
    · exact .unchanged
  | fail id task =>
    simp only [step]
    split <;> exact .unchanged
  | mark id state outcome matched =>
    simp only [step]
    split
    · split
      · exact .unchanged
      · rename_i e he
        exact .marked e _ (findNotification_mem he).1 ⟨rfl, rfl, rfl, rfl⟩
    · exact .unchanged
  | drop id task => exact .unchanged

theorem DisputeInv.step (h : DisputeInv s) (hs : DbStep s t) : DisputeInv t := by
  cases hs with
  | unchanged => exact h
  | ingested e n t he hn hi => exact hi.inv h
  | _ =>
    exact ⟨h.ids, h.references, fun d hd => ⟨(h.disputes d hd).unfunded, (h.disputes d hd).funded, (h.disputes d hd).announced⟩,
      h.factIds, h.facts, h.events, h.observations⟩

theorem Runs.disputes {enabled : Bool} {s : Sys} (h : Runs enabled s) : DisputeInv s.db := by
  refine h.invariant (P := fun s => DisputeInv s.db) ?_ ?_
  · rintro s ⟨books, -, rfl⟩
    exact disputeInv_new books
  · rintro s t - hi ⟨a, rfl⟩
    exact hi.step (step_dbStep enabled hi a)

end

end NawaraCore.Disputes
