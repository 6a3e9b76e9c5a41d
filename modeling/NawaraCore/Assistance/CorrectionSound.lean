import NawaraCore.Assistance.Correction
import NawaraCore.Assistance.SettlementSound

/-!
# Effective times stay in order

Corrections are only appended, so a time is in effect until the next correction of it. A
request has one obligation that is not superseded, and only that one is reported.
-/

namespace NawaraCore.Assistance

open Subscriptions (Uuid)
open PaymentRequests (PaymentRequest Invoice Routing PaymentEventFacts Failure)
open Reconciliation (RefundCase)

variable {kind : Uuid → UserKind} {start db db' : Db} {r old : AssistanceRequest} {status : RequestStatus} {cap : Option Int} {o : Obligation} {c : Correction}

/-! ## The invariant -/

def Db.corrected (db : Db) (requestId : Uuid) (field : CorrectableField) : Option Nat :=
  (db.corrections.filter fun c => c.assistanceRequestId = requestId ∧ c.field = field).getLast?.map Correction.correctedValue

def Db.collectedAt (db : Db) (id : Uuid) (k : Collection) : Nat := (db.corrected id .cashCollectedAt).getD k.cashCollectedAt

def Db.returnedAt (db : Db) (id : Uuid) (p : Nat × Nat × Uuid) : Nat := (db.corrected id .returnedAt).getD p.1

structure Times (kind : Uuid → UserKind) (start db : Db) : Prop where
  requestIds : (db.requests.map AssistanceRequest.id).Nodup
  obligationIds : (db.obligations.map Obligation.id).Nodup
  shape : ∀ r ∈ db.requests, r.collection.isSome = r.status.collected
  current : UniqueOn (fun o => o.status.superseded = false) Obligation.assistanceRequestId db.obligations
  reported : ∀ o ∈ db.obligations, o.report.isSome → o.status.superseded = false ∧ o.status ≠ .open ∧
    ∃ r ∈ db.requests, r.id = o.assistanceRequestId ∧ r.collection.isSome
  parties : (∀ r ∈ db.requests, kind r.beneficiaryUserId = .member ∧ ∀ k, r.collection = some k → kind k.reportedBy = .member) ∧
    ∀ o ∈ db.obligations, ∀ p, o.report = some p → kind p.2.2 = .member
  collectedCorrections : ∀ id, (db.corrected id .cashCollectedAt).isSome → ∃ r ∈ db.requests, r.id = id ∧ r.collection.isSome
  returnedCorrections : ∀ id, (db.corrected id .returnedAt).isSome → ∃ o ∈ db.obligations, o.assistanceRequestId = id ∧ o.report.isSome
  collected : ∀ r ∈ db.requests, ∀ k, r.collection = some k → r.consentAt ≤ db.collectedAt r.id k ∧ db.collectedAt r.id k ≤ k.reportedAt
  returned : ∀ r ∈ db.requests, ∀ k, r.collection = some k → ∀ o ∈ db.obligations, o.assistanceRequestId = r.id → ∀ p, o.report = some p →
    db.collectedAt r.id k ≤ db.returnedAt r.id p ∧ db.returnedAt r.id p ≤ p.2.1
  recorded : Recorded start db

structure Untimed (db db' : Db) : Prop where
  requests : db'.requests = db.requests
  obligations : db'.obligations = db.obligations
  corrections : db'.corrections = db.corrections

theorem Untimed.trans {db'' : Db} (h : Untimed db db') (h' : Untimed db' db'') : Untimed db db'' :=
  ⟨h'.requests.trans h.requests, h'.obligations.trans h.obligations, h'.corrections.trans h.corrections⟩

theorem Times.untimed (h : Times kind start db) (hu : Untimed db db') : Times kind start db' := by
  obtain ⟨h1, h2, h3⟩ := hu
  refine ⟨?_, ?_, ?_, ?_, ?_, ?_, ?_, ?_, ?_, ?_, ?_, ?_, ?_⟩
  all_goals simp only [Db.collectedAt, Db.returnedAt, Db.corrected, h1, h2, h3]
  · exact h.requestIds
  · exact h.obligationIds
  · exact h.shape
  · exact h.current
  · exact h.reported
  · exact h.parties
  · exact h.collectedCorrections
  · exact h.returnedCorrections
  · exact h.collected
  · exact h.returned
  · exact h.recorded.collections
  · exact h.recorded.reports
  · exact h.recorded.corrections

theorem Times.restart (h : Times kind start db) : Times kind db db :=
  { h with recorded := ⟨fun r hr _ hk => ⟨r, hr, rfl, rfl, hk⟩, fun o ho _ hp => ⟨o, ho, rfl, rfl, hp⟩, List.prefix_refl _⟩ }

/-! ## Requests -/

theorem insertRequest_times (h : Times kind start db) (hmember : kind r.beneficiaryUserId = .member) :
    Yields (Times kind start) (db.insertRequest r) := by
  refine .guard fun hp => .guard fun hid => .guard fun _ => .ok ?_
  have hpending : r.status = .pending := Decidable.not_not.mp fun hn => hp (.inl hn)
  have hnone : r.collection = none := Decidable.not_not.mp fun hn => hp (.inr hn)
  have hmore : ∀ {x : AssistanceRequest} {q : AssistanceRequest → Prop}, (∀ y ∈ db.requests, q y) → q r → x ∈ db.requests ++ [r] → q x := by
    intro x q hall hr hx
    rcases mem_append_row hx with hx | hx
    · exact hall x hx
    · exact hx ▸ hr
  refine { h with
    requestIds := nodup_append_row h.requestIds fun x hx he => hid (List.any_eq_true.mpr ⟨x, hx, by simpa using he⟩)
    shape := fun x hx => hmore h.shape (by rw [hnone, hpending]; rfl) hx
    reported := ?_
    parties := ⟨fun x hx => hmore h.parties.1 ⟨hmember, fun k hk => by rw [hnone] at hk; cases hk⟩ hx, h.parties.2⟩
    collectedCorrections := ?_
    collected := fun x hx => hmore h.collected (fun k hk => by rw [hnone] at hk; cases hk) hx
    returned := fun x hx => hmore h.returned (fun k hk => by rw [hnone] at hk; cases hk) hx
    recorded := {
      collections := ?_
      reports := h.recorded.reports
      corrections := h.recorded.corrections } }
  · intro o ho hs
    obtain ⟨h1, h2, x, hx, hrest⟩ := h.reported o ho hs
    exact ⟨h1, h2, x, List.mem_append_left _ hx, hrest⟩
  · intro id hc
    obtain ⟨x, hx, hrest⟩ := h.collectedCorrections id hc
    exact ⟨x, List.mem_append_left _ hx, hrest⟩
  · intro x hx k hk
    obtain ⟨y, hy, hrest⟩ := h.recorded.collections x hx k hk
    exact ⟨y, List.mem_append_left _ hy, hrest⟩

theorem requestTransition_keeps {c : Option Collection}
    (h : db.requestTransition old status c cap = .ok ()) (hc : old.status.collected) : c = old.collection := by
  unfold Db.requestTransition at h
  split at h
  · exact Decidable.not_not.mp (guard_ok (guard_ok h).2).1
  · exact Decidable.not_not.mp (guard_ok (guard_ok h).2).1
  · exact Decidable.not_not.mp (guard_ok (guard_ok h).2).1
  · rename_i hs
    rw [hs] at hc
    cases hc
  · rename_i hs
    rw [hs] at hc
    cases hc
  · cases h

theorem updateRequest_shape (h : Times kind start db) (hold : old ∈ db.requests)
    {c : Option Collection} (he : db.updateRequest old status c cap = .ok db') :
    c.isSome = status.collected ∧ (∀ k, c = some k → old.consentAt ≤ k.cashCollectedAt ∧ k.cashCollectedAt ≤ k.reportedAt) ∧
      (old.collection.isSome → c = old.collection) := by
  have hshape := h.shape old hold
  unfold Db.updateRequest at he
  cases ht : db.requestTransition old status c cap with
  | error e => rw [ht] at he; cases he
  | ok u =>
    rw [ht] at he
    obtain ⟨hs, he⟩ := guard_ok he
    obtain ⟨hord, -⟩ := guard_ok he
    refine ⟨Decidable.not_not.mp hs, fun k hk => ?_, fun hsome => ?_⟩
    · rw [hk] at hord
      simpa using hord
    · exact requestTransition_keeps ht (hshape ▸ hsome)

theorem updateRequest_times (h : Times kind start db) (hold : old ∈ db.requests)
    {c : Option Collection} (hmember : ∀ k, c = some k → kind k.reportedBy = .member) :
    Yields (Times kind start) (db.updateRequest old status c cap) := by
  intro db' he
  obtain ⟨hshape, hord, hkeep⟩ := updateRequest_shape h hold he
  obtain ⟨-, rfl⟩ := updateRequest_ok he
  have hall : ∀ {x : AssistanceRequest}, x ∈ db.requests → ∃ y ∈ replaceRow AssistanceRequest.id { old with status, collection := c } db.requests,
      y.id = x.id ∧ y.consentAt = x.consentAt ∧ (x.collection.isSome → y.collection = x.collection) := by
    intro x hx
    by_cases hid : x.id = old.id
    · obtain rfl := eq_of_key h.requestIds hx hold hid
      exact ⟨_, replaceRow_mem hx rfl, rfl, rfl, hkeep⟩
    · exact ⟨x, replaceRow_other hx hid, rfl, rfl, fun _ => rfl⟩
  have hsome : ∀ {id : Uuid}, (∃ x ∈ db.requests, x.id = id ∧ x.collection.isSome) →
      ∃ y ∈ replaceRow AssistanceRequest.id { old with status, collection := c } db.requests, y.id = id ∧ y.collection.isSome := by
    rintro id ⟨x, hx, hid, hs⟩
    obtain ⟨y, hy, hyid, -, hyc⟩ := hall hx
    exact ⟨y, hy, hyid.trans hid, by rw [hyc hs]; exact hs⟩
  -- a first collection has no correction and no report yet
  have hfirst : old.collection = none → db.corrected old.id .cashCollectedAt = none ∧ ∀ o ∈ db.obligations, o.assistanceRequestId = old.id → o.report = none := by
    intro hnone
    constructor
    · rw [← Option.not_isSome_iff_eq_none]
      intro hc
      obtain ⟨x, hx, hid, hs⟩ := h.collectedCorrections _ hc
      obtain rfl := eq_of_key h.requestIds hx hold hid
      rw [hnone] at hs
      cases hs
    · intro o ho hid
      rw [← Option.not_isSome_iff_eq_none]
      intro hs
      obtain ⟨-, -, x, hx, hxid, hxs⟩ := h.reported o ho hs
      obtain rfl := eq_of_key h.requestIds hx hold (hxid.trans hid)
      rw [hnone] at hxs
      cases hxs
  refine { h with
    requestIds := ?_
    shape := ?_
    reported := fun o ho hs => ⟨(h.reported o ho hs).1, (h.reported o ho hs).2.1, hsome (h.reported o ho hs).2.2⟩
    parties := ⟨?_, h.parties.2⟩
    collectedCorrections := fun id hc => hsome (h.collectedCorrections id hc)
    collected := ?_
    returned := ?_
    recorded := {
      collections := ?_
      reports := h.recorded.reports
      corrections := h.recorded.corrections } }
  · change ((replaceRow AssistanceRequest.id _ db.requests).map AssistanceRequest.id).Nodup
    rw [map_replaceRow fun x _ he => he]
    exact h.requestIds
  · intro x hx
    rcases mem_replaceRow hx with rfl | ⟨hx, -⟩
    · exact hshape
    · exact h.shape x hx
  · intro x hx
    rcases mem_replaceRow hx with rfl | ⟨hx, -⟩
    · exact ⟨(h.parties.1 old hold).1, hmember⟩
    · exact h.parties.1 x hx
  · intro x hx k hk
    rcases mem_replaceRow hx with rfl | ⟨hx, -⟩
    · cases hc : old.collection with
      | some k' => exact h.collected old hold k ((hkeep (by rw [hc]; rfl)).symm.trans hk)
      | none =>
        have hcorr := (hfirst hc).1
        obtain ⟨h1, h2⟩ := hord k hk
        change old.consentAt ≤ (db.corrected old.id .cashCollectedAt).getD k.cashCollectedAt ∧ (db.corrected old.id .cashCollectedAt).getD k.cashCollectedAt ≤ k.reportedAt
        rw [hcorr]
        exact ⟨h1, h2⟩
    · exact h.collected x hx k hk
  · intro x hx k hk o ho hid p hp
    rcases mem_replaceRow hx with rfl | ⟨hx, -⟩
    · cases hc : old.collection with
      | some k' => exact h.returned old hold k ((hkeep (by rw [hc]; rfl)).symm.trans hk) o ho hid p hp
      | none =>
        have hnone := (hfirst hc).2 o ho hid
        rw [hnone] at hp
        cases hp
    · exact h.returned x hx k hk o ho hid p hp
  · intro x hx k hk
    obtain ⟨y, hy, hyid, hcons, hyk⟩ := h.recorded.collections x hx k hk
    obtain ⟨z, hz, hzid, hzcons, hzk⟩ := hall hy
    exact ⟨z, hz, hzid.trans hyid, hzcons.trans hcons, (hzk (by rw [hyk]; rfl)).trans hyk⟩

/-! ## Obligations -/

theorem insertObligation_due {start' : Db} (hs : Sound start' db) {now : Nat} (he : db.insertObligation o now = .ok db') :
    (∃ o' : Obligation, o'.assistanceRequestId = o.assistanceRequestId ∧ o'.report = none ∧ (∀ x ∈ db.obligations, x.id ≠ o'.id) ∧
      db' = { db with obligations := db.obligations ++ [o'] }) ∧
      ∀ x ∈ db.obligations, x.assistanceRequestId = o.assistanceRequestId → x.status.superseded := by
  unfold Db.insertObligation at he
  cases hr : db.request? o.assistanceRequestId with
  | none => rw [hr] at he; cases he
  | some r =>
    obtain ⟨hmem, hid⟩ := request_mem hr
    rw [hr] at he
    obtain ⟨hnew, hlive, he⟩ := guards_ok he
    dsimp only at he
    split at he
    · cases he
    · rename_i hdue
      obtain ⟨-, hpk, he⟩ := guards_ok he
      cases (guard_ok he).2
      refine ⟨⟨{ o with openedAt := now }, rfl, Decidable.not_not.mp fun hn => hnew (.inr hn), fun x hx he => ?_, rfl⟩, fun x hx hxid => ?_⟩
      · exact hpk (List.any_eq_true.mpr ⟨x, hx, by simpa using he⟩)
      have hnone : db.live o.assistanceRequestId = none := by rw [← hid]; simpa using hlive
      refine superseded_of (fun hl => live_none hnone hx hl hxid) fun hc => ?_
      have hret := hs.confirmed x hx hc r hmem (hid.trans hxid.symm)
      split at hdue
      · have hd := (guard_ok hdue).1
        rw [hret] at hd
        exact hd (.inl (by decide))
      · have hd := (guard_ok hdue).1
        rw [hret] at hd
        exact hd (.inl (by decide))

theorem insertObligation_times {start' : Db} (hs : Sound start' db) (h : Times kind start db) (o : Obligation) (now : Nat) :
    Yields (Times kind start) (db.insertObligation o now) := by
  intro db' he
  obtain ⟨⟨o', hreq, hnone, hfresh, rfl⟩, hsup⟩ := insertObligation_due hs he
  have hmore : ∀ {x : Obligation} {q : Obligation → Prop}, (∀ y ∈ db.obligations, q y) → q o' → x ∈ db.obligations ++ [o'] → q x := by
    intro x q hall ho hx
    rcases mem_append_row hx with hx | hx
    · exact hall x hx
    · exact hx ▸ ho
  refine { h with
    obligationIds := nodup_append_row h.obligationIds hfresh
    current := h.current.append fun x hx hlive _ hid => ?_
    reported := fun x hx => hmore h.reported (fun hs => by rw [hnone] at hs; cases hs) hx
    parties := ⟨h.parties.1, fun x hx => hmore h.parties.2 (fun p hp => by rw [hnone] at hp; cases hp) hx⟩
    returnedCorrections := ?_
    returned := fun r hr k hk x hx => hmore (h.returned r hr k hk) (fun _ p hp => by rw [hnone] at hp; cases hp) hx
    recorded := {
      collections := h.recorded.collections
      reports := ?_
      corrections := h.recorded.corrections } }
  · rw [hsup x hx (hid.trans hreq)] at hlive
    cases hlive
  · intro id hc
    obtain ⟨x, hx, hrest⟩ := h.returnedCorrections id hc
    exact ⟨x, List.mem_append_left _ hx, hrest⟩
  · intro x hx p hp
    obtain ⟨y, hy, hrest⟩ := h.recorded.reports x hx p hp
    exact ⟨y, List.mem_append_left _ hy, hrest⟩

variable {status : ObligationStatus} {old : Obligation}

theorem obligationTransition_reported (h : db.obligationTransition old status = .ok ())
    (ho : old.status ≠ .open) : status.superseded = false ∧ status ≠ .open := by
  unfold Db.obligationTransition at h
  split at h
  · cases h
  · exact absurd (Decidable.not_not.mp fun hn => (guard_ok h).1 (.inl hn)) ho
  · exact ⟨rfl, by decide⟩
  · exact ⟨rfl, by decide⟩
  all_goals cases h

theorem updateObligation_times (h : Times kind start db) (hold : old ∈ db.obligations)
    {report : Option (Nat × Nat × Uuid)} (hkeep : old.report.isSome → report = old.report)
    (hnew : old.report = none → report.isSome → status = .return_reported ∧ (∃ r ∈ db.requests, r.id = old.assistanceRequestId ∧ r.collection.isSome) ∧
      ∀ p, report = some p → kind p.2.2 = .member ∧ p.1 ≤ p.2.1 ∧
        ∀ r ∈ db.requests, r.id = old.assistanceRequestId → ∀ k, r.collection = some k → db.collectedAt r.id k ≤ p.1) :
    Yields (Times kind start) (db.updateObligation old status report) := by
  intro db' he
  obtain ⟨ht, rfl⟩ := updateObligation_ok he
  have hlive : old.status.superseded = false := by
    have hl := (obligationTransition_ok ht).1
    cases hs : old.status <;> first | rfl | (rw [hs] at hl; cases hl)
  have hall : ∀ {x : Obligation}, x ∈ db.obligations → ∃ y ∈ replaceRow Obligation.id { old with status, report } db.obligations,
      y.id = x.id ∧ y.assistanceRequestId = x.assistanceRequestId ∧ (x.report.isSome → y.report = x.report) := by
    intro x hx
    by_cases hid : x.id = old.id
    · obtain rfl := eq_of_key h.obligationIds hx hold hid
      exact ⟨_, replaceRow_mem hx rfl, rfl, rfl, hkeep⟩
    · exact ⟨x, replaceRow_other hx hid, rfl, rfl, fun _ => rfl⟩
  -- a first report has no correction yet
  have hfirst : old.report = none → db.corrected old.assistanceRequestId .returnedAt = none := by
    intro hnone
    rw [← Option.not_isSome_iff_eq_none]
    intro hc
    obtain ⟨x, hx, hid, hs⟩ := h.returnedCorrections _ hc
    obtain rfl := h.current x hx old hold (h.reported x hx hs).1 hlive hid
    rw [hnone] at hs
    cases hs
  refine { h with
    obligationIds := ?_
    current := h.current.replace fun x hx hne hpx _ => ?_
    reported := ?_
    parties := ⟨h.parties.1, ?_⟩
    returnedCorrections := ?_
    returned := ?_
    recorded := {
      collections := h.recorded.collections
      reports := ?_
      corrections := h.recorded.corrections } }
  · change ((replaceRow Obligation.id _ db.obligations).map Obligation.id).Nodup
    rw [map_replaceRow fun x _ he => he]
    exact h.obligationIds
  · have hneq := h.current.ne hold hlive hx hne hpx
    exact hneq
  · intro x hx hs
    rcases mem_replaceRow hx with rfl | ⟨hx, -⟩
    · cases hc : old.report with
      | none =>
        obtain ⟨rfl, hr, -⟩ := hnew hc hs
        exact ⟨rfl, nofun, hr⟩
      | some p =>
        have hold' := h.reported old hold (by rw [hc]; rfl)
        have hst := obligationTransition_reported ht hold'.2.1
        exact ⟨hst.1, hst.2, hold'.2.2⟩
    · exact h.reported x hx hs
  · intro x hx p hp
    rcases mem_replaceRow hx with rfl | ⟨hx, -⟩
    · cases hc : old.report with
      | none => exact ((hnew hc (by rw [show report = some p from hp]; rfl)).2.2 p hp).1
      | some q => exact h.parties.2 old hold p ((hkeep (by rw [hc]; rfl)).symm.trans hp)
    · exact h.parties.2 x hx p hp
  · intro id hc
    obtain ⟨x, hx, hid, hs⟩ := h.returnedCorrections id hc
    obtain ⟨y, hy, -, hyr, hyc⟩ := hall hx
    exact ⟨y, hy, hyr.trans hid, by rw [hyc hs]; exact hs⟩
  · intro r hr k hk x hx hid p hp
    rcases mem_replaceRow hx with rfl | ⟨hx, -⟩
    · cases hc : old.report with
      | none =>
        obtain ⟨-, -, hall⟩ := hnew hc (by rw [show report = some p from hp]; rfl)
        obtain ⟨-, hle, hcol⟩ := hall p hp
        have hcorr := hfirst hc
        change db.collectedAt r.id k ≤ (db.corrected r.id .returnedAt).getD p.1 ∧ (db.corrected r.id .returnedAt).getD p.1 ≤ p.2.1
        rw [← show old.assistanceRequestId = r.id from hid, hcorr]
        refine ⟨?_, hle⟩
        have hc := hcol r hr hid.symm k hk
        rwa [← show old.assistanceRequestId = r.id from hid] at hc
      | some q => exact h.returned r hr k hk old hold hid p ((hkeep (by rw [hc]; rfl)).symm.trans hp)
    · exact h.returned r hr k hk x hx hid p hp
  · intro x hx p hp
    obtain ⟨y, hy, hyid, hyr, hyp⟩ := h.recorded.reports x hx p hp
    obtain ⟨z, hz, hzid, hzr, hzp⟩ := hall hy
    exact ⟨z, hz, hzid.trans hyid, hzr.trans hyr, (hzp (by rw [hyp]; rfl)).trans hyp⟩

/-! ## Effective times -/

variable {l : List Obligation}

theorem currentObligation_foldl {best : Option Obligation}
    (h : (l.foldl (fun best o => some (best.elim o fun b => b.later o)) best) = some o) : o ∈ l ∨ best = some o := by
  induction l generalizing best with
  | nil => exact .inr h
  | cons x l ih =>
    rcases ih h with hl | hb
    · exact .inl (List.mem_cons_of_mem _ hl)
    · cases best with
      | none => exact .inl (Option.some.inj hb ▸ List.mem_cons_self)
      | some b =>
        have hb := Option.some.inj hb
        simp only [Option.elim_some, Obligation.later] at hb
        split at hb
        · exact .inl (hb ▸ List.mem_cons_self)
        · exact .inr (hb ▸ rfl)

theorem currentObligation_some : ∀ {best : Option Obligation}, best.isSome ∨ l ≠ [] →
    (l.foldl (fun best o => some (best.elim o fun b => b.later o)) best).isSome := by
  induction l with
  | nil => exact fun h => h.elim id fun hn => absurd rfl hn
  | cons x l ih => exact fun _ => ih (.inl rfl)

theorem currentObligation_mem {id : Uuid} (h : db.currentObligation id = some o) :
    o ∈ db.obligations ∧ o.assistanceRequestId = id ∧ o.status.superseded = false := by
  rcases currentObligation_foldl h with hm | hb
  · simpa using List.mem_filter.mp hm
  · cases hb

theorem Times.currentObligation (h : Times kind start db) (ho : o ∈ db.obligations) (hs : o.status.superseded = false) :
    db.currentObligation o.assistanceRequestId = some o := by
  have hsome : (db.currentObligation o.assistanceRequestId).isSome := by
    refine currentObligation_some (.inr fun hnil => ?_)
    have hno := List.filter_eq_nil_iff.mp hnil o ho
    simp [hs] at hno
  obtain ⟨o', ho'⟩ := Option.isSome_iff_exists.mp hsome
  obtain ⟨hmem, hid, hsup⟩ := currentObligation_mem ho'
  exact h.current o' hmem o ho hsup hs hid ▸ ho'

theorem effectiveTime_eq (requestId : Uuid) (field : CorrectableField) : db.effectiveTime requestId field =
    (db.corrected requestId field).or (match field with
      | .cashCollectedAt => ((db.request? requestId).bind AssistanceRequest.collection).map Collection.cashCollectedAt
      | .returnedAt => ((db.currentObligation requestId).bind Obligation.report).map fun (returnedAt, _) => returnedAt) := by
  unfold Db.effectiveTime Db.corrected
  cases (db.corrections.filter fun c => c.assistanceRequestId = requestId ∧ c.field = field).getLast? with
  | none => rfl
  | some c => rfl

section
variable (h : Times kind start db)
include h

theorem Times.request (hr : r ∈ db.requests) : db.request? r.id = some r :=
  find_key h.requestIds hr

theorem Times.effectiveCollected (hr : r ∈ db.requests) :
    db.effectiveTime r.id .cashCollectedAt = r.collection.map (db.collectedAt r.id) := by
  rw [effectiveTime_eq]
  dsimp only
  rw [h.request hr]
  unfold Db.collectedAt
  cases hc : db.corrected r.id .cashCollectedAt with
  | none => cases hk : r.collection <;> simp [hk]
  | some v =>
    obtain ⟨x, hx, hid, hs⟩ := h.collectedCorrections r.id (by rw [hc]; rfl)
    obtain rfl := eq_of_key h.requestIds hx hr hid
    obtain ⟨k, hk⟩ := Option.isSome_iff_exists.mp hs
    rw [hk]
    rfl

theorem Times.effectiveReturned (id : Uuid) :
    db.effectiveTime id .returnedAt = ((db.currentObligation id).bind Obligation.report).map (db.returnedAt id) := by
  rw [effectiveTime_eq]
  dsimp only
  unfold Db.returnedAt
  cases hc : db.corrected id .returnedAt with
  | none => cases (db.currentObligation id).bind Obligation.report <;> rfl
  | some v =>
    obtain ⟨o, ho, rfl, hs⟩ := h.returnedCorrections id (by rw [hc]; rfl)
    obtain ⟨p, hp⟩ := Option.isSome_iff_exists.mp hs
    rw [h.currentObligation ho (h.reported o ho hs).1, Option.bind_some, hp]
    rfl

theorem Times.ordered (hr : r ∈ db.requests) : db.Ordered r where
  collected v hv := by
    rw [h.effectiveCollected hr] at hv
    obtain ⟨k, hk, rfl⟩ := Option.map_eq_some_iff.mp hv
    obtain ⟨h1, h2⟩ := h.collected r hr k hk
    exact ⟨h1, k, hk, h2⟩
  returned w hw := by
    rw [h.effectiveReturned r.id] at hw
    obtain ⟨p, hp, rfl⟩ := Option.map_eq_some_iff.mp hw
    obtain ⟨o, ho, hop⟩ := Option.bind_eq_some_iff.mp hp
    obtain ⟨hmem, hid, -⟩ := currentObligation_mem ho
    obtain ⟨-, -, x, hx, hxid, hs⟩ := h.reported o hmem (by rw [hop]; rfl)
    obtain rfl := eq_of_key h.requestIds hx hr (hxid.trans hid)
    obtain ⟨k, hk⟩ := Option.isSome_iff_exists.mp hs
    obtain ⟨h1, h2⟩ := h.returned x hr k hk o hmem hid p hop
    refine ⟨⟨_, ?_, h1⟩, o, p, ho, hop, h2⟩
    rw [h.effectiveCollected hr, hk]
    rfl
  effective := by
    refine ⟨fun hs => ?_, fun o ho hs => ?_⟩
    · rw [h.effectiveCollected hr, Option.isSome_map]
      exact hs
    · rw [h.effectiveReturned, ho, Option.isSome_map]
      exact hs

end

/-! ## Corrections -/

theorem corrected_append {id : Uuid} {field : CorrectableField} :
    Db.corrected { db with corrections := db.corrections ++ [c] } id field =
      if c.assistanceRequestId = id ∧ c.field = field then some c.correctedValue else db.corrected id field := by
  unfold Db.corrected
  dsimp only
  rw [List.filter_append, List.filter_cons]
  split
  · rename_i hc
    rw [if_pos (of_decide_eq_true hc), List.filter_nil, List.getLast?_append]
    rfl
  · rename_i hc
    rw [if_neg fun h => hc (decide_eq_true h), List.filter_nil, List.append_nil]

theorem correctable_ok (h : correctable db c = .ok ()) (ht : Times kind start db) :
    ∃ r k, r ∈ db.requests ∧ r.id = c.assistanceRequestId ∧ r.collection = some k ∧ r.status.collected ∧
      db.effectiveTime r.id c.field ≠ some c.correctedValue ∧
      match c.field with
      | .cashCollectedAt => r.consentAt ≤ c.correctedValue ∧ c.correctedValue ≤ k.reportedAt ∧
          ∀ o ∈ db.obligations, o.assistanceRequestId = r.id → ∀ p, o.report = some p → c.correctedValue ≤ db.returnedAt r.id p
      | .returnedAt => ∃ o p, db.currentObligation r.id = some o ∧ o.report = some p ∧ c.correctedValue ≤ p.2.1 ∧
          db.collectedAt r.id k ≤ c.correctedValue := by
  unfold correctable at h
  cases hr : db.request? c.assistanceRequestId with
  | none => rw [hr] at h; cases h
  | some r =>
    rw [hr] at h
    obtain ⟨hmem, hid⟩ := request_mem hr
    obtain ⟨hno, h⟩ := guard_ok h
    simp only [not_or, Decidable.not_not] at hno
    obtain ⟨hcol, hrep, hch⟩ := hno
    have hk := ht.shape r hmem
    rw [hcol] at hk
    obtain ⟨k, hk⟩ := Option.isSome_iff_exists.mp hk
    refine ⟨r, k, hmem, hid, hk, hcol, hch, ?_⟩
    rw [ht.effectiveCollected hmem, ht.effectiveReturned, hk] at h
    cases hf : c.field with
    | cashCollectedAt =>
      simp only [hf, if_true, reduceCtorEq, if_false, Option.any_some] at h
      split at h
      · rename_i hok
        simp only [decide_eq_true_eq, Option.all_map] at hok
        obtain ⟨⟨h1, h2⟩, hall⟩ := hok
        refine ⟨h1, h2, fun o ho hoid p hp => ?_⟩
        have hcur := ht.currentObligation ho (ht.reported o ho (by rw [hp]; rfl)).1
        rw [hoid] at hcur
        rw [hcur, Option.bind_some, hp] at hall
        simp only [Option.all_some, decide_eq_true_eq] at hall
        exact hall.1
      · cases h
    | returnedAt =>
      simp only [hf, if_true, reduceCtorEq, if_false, Option.map_some, Option.any_some, Option.all_some] at h
      split at h
      · rename_i hok
        simp only [decide_eq_true_eq] at hok
        obtain ⟨p, hp, hle⟩ := Option.any_eq_true _ _ |>.mp hok.2.2
        obtain ⟨o, ho, hop⟩ := Option.bind_eq_some_iff.mp hp
        exact ⟨o, p, ho, hop, of_decide_eq_true hle, hok.2.1⟩
      · cases h

theorem insertCorrection_accepts (h : Times kind start db) (howner : kind c.correctedBy = .owner) (hc : correctable db c = .ok ()) :
    db.insertCorrection c = .ok { db with corrections := db.corrections ++ [c] } := by
  obtain ⟨r, k, hr, hid, hk, hcol, hch, hfield⟩ := correctable_ok hc h
  obtain ⟨hben, hrep⟩ := h.parties.1 r hr
  have hparty : ∀ u, kind u = .member → c.correctedBy ≠ u := by
    rintro u hu rfl
    rw [howner] at hu
    cases hu
  have hreq : (db.request? c.assistanceRequestId).bind (fun r => r.collection.map fun k => (r, k)) = some (r, k) := by
    rw [← hid, h.request hr, Option.bind_some, hk]
    rfl
  unfold Db.insertCorrection
  rw [hreq]
  dsimp only
  have hreport : ∀ p, (db.currentObligation r.id).bind Obligation.report = some p → c.correctedBy ≠ p.2.2 := by
    intro p hp
    obtain ⟨o, ho, hop⟩ := Option.bind_eq_some_iff.mp hp
    exact hparty _ (h.parties.2 o (currentObligation_mem ho).1 p hop)
  have hbefore := h.collected r hr k hk
  cases hf : c.field with
  | cashCollectedAt =>
    rw [hf] at hfield hch
    obtain ⟨h1, h2, hall⟩ := hfield
    rw [if_neg, if_neg, if_pos]
    · rw [if_pos rfl, if_neg (by decide), h.effectiveReturned]
      refine ⟨by simp [h1, h2], ?_⟩
      cases hp : (db.currentObligation r.id).bind Obligation.report with
      | none => rfl
      | some p =>
        obtain ⟨o, ho, hop⟩ := Option.bind_eq_some_iff.mp hp
        obtain ⟨hmem, hoid, -⟩ := currentObligation_mem ho
        have hle := hall o hmem hoid p hop
        have hlast := (h.returned r hr k hk o hmem hoid p hop).2
        simp [hle, hlast]
    · exact hch
    · rintro (hn | ⟨hn, -⟩ | hn | hn | hn)
      · exact hn hcol
      · cases hn
      · exact hparty _ hben hn
      · exact hparty _ (hrep k hk) hn
      · obtain ⟨p, hp, he⟩ := Option.any_eq_true _ _ |>.mp hn
        exact hreport p hp (of_decide_eq_true he)
  | returnedAt =>
    rw [hf] at hfield hch
    obtain ⟨o, p, ho, hop, hle, hfirst⟩ := hfield
    have hp : (db.currentObligation r.id).bind Obligation.report = some p := by rw [ho, Option.bind_some, hop]
    rw [if_neg, if_neg, if_pos]
    · rw [if_neg (by decide), if_pos rfl, h.effectiveCollected hr, hk, hp]
      simp [hle, hfirst, hbefore.1, hbefore.2]
    · exact hch
    · rintro (hn | ⟨-, hn⟩ | hn | hn | hn)
      · exact hn hcol
      · rw [hp] at hn
        cases hn
      · exact hparty _ hben hn
      · exact hparty _ (hrep k hk) hn
      · obtain ⟨q, hq, he⟩ := Option.any_eq_true _ _ |>.mp hn
        exact hreport q hq (of_decide_eq_true he)

theorem correct_times (h : Times kind start db) (howner : kind c.correctedBy = .owner) : Yields (Times kind start) (correct db c) := by
  intro db' he
  obtain ⟨⟨⟩, hc, hins⟩ := bind_eq_ok.mp he
  rw [insertCorrection_accepts h howner hc] at hins
  cases hins
  obtain ⟨r, k, hr, hid, hk, -, -, hfield⟩ := correctable_ok hc h
  have hother : ∀ {id : Uuid} {field : CorrectableField}, ¬ (c.assistanceRequestId = id ∧ c.field = field) →
      Db.corrected { db with corrections := db.corrections ++ [c] } id field = db.corrected id field := fun hn => by rw [corrected_append, if_neg hn]
  have hthis : ∀ {field : CorrectableField}, c.field = field →
      Db.corrected { db with corrections := db.corrections ++ [c] } r.id field = some c.correctedValue :=
    fun hf => by rw [corrected_append, if_pos ⟨hid.symm, hf⟩]
  refine { h with
    collectedCorrections := fun id hc => ?_
    returnedCorrections := fun id hc => ?_
    collected := fun x hx k' hk' => ?_
    returned := fun x hx k' hk' o ho hoid p hp => ?_
    recorded := {
      collections := h.recorded.collections
      reports := h.recorded.reports
      corrections := h.recorded.corrections.trans (List.prefix_append _ _) } }
  · rw [corrected_append] at hc
    split at hc
    · rename_i hsame
      exact ⟨r, hr, hid.trans hsame.1, by rw [hk]; rfl⟩
    · exact h.collectedCorrections id hc
  · rw [corrected_append] at hc
    split at hc
    · rename_i hsame
      rw [hsame.2] at hfield
      obtain ⟨o, p, ho, hop, -⟩ := hfield
      obtain ⟨hmem, hoid, -⟩ := currentObligation_mem ho
      exact ⟨o, hmem, hoid.trans (hid.trans hsame.1), by rw [hop]; rfl⟩
    · exact h.returnedCorrections id hc
  · unfold Db.collectedAt
    by_cases hsame : c.assistanceRequestId = x.id ∧ c.field = .cashCollectedAt
    · obtain rfl := eq_of_key h.requestIds hr hx (hid.trans hsame.1)
      obtain rfl := Option.some.inj (hk.symm.trans hk')
      rw [hsame.2] at hfield
      rw [hthis hsame.2]
      exact ⟨hfield.1, hfield.2.1⟩
    · rw [hother hsame]
      exact h.collected x hx k' hk'
  · unfold Db.collectedAt Db.returnedAt
    have hbefore := h.returned x hx k' hk' o ho hoid p hp
    by_cases hreq : c.assistanceRequestId = x.id
    · obtain rfl := eq_of_key h.requestIds hr hx (hid.trans hreq)
      obtain rfl := Option.some.inj (hk.symm.trans hk')
      cases hf : c.field with
      | cashCollectedAt =>
        rw [hf] at hfield
        rw [hthis hf, hother fun hn => by rw [hf] at hn; cases hn.2]
        exact ⟨hfield.2.2 o ho hoid p hp, hbefore.2⟩
      | returnedAt =>
        rw [hf] at hfield
        obtain ⟨o', p', ho', hop', hle, hfirst⟩ := hfield
        have hcur := h.currentObligation ho (h.reported o ho (by rw [hp]; rfl)).1
        rw [hoid] at hcur
        obtain rfl := Option.some.inj (hcur.symm.trans ho')
        obtain rfl := Option.some.inj (hp.symm.trans hop')
        rw [hthis hf, hother fun hn => by rw [hf] at hn; cases hn.2]
        exact ⟨hfirst, hle⟩
    · rw [hother fun hn => hreq hn.1, hother fun hn => hreq hn.1]
      exact hbefore

end NawaraCore.Assistance
