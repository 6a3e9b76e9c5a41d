import NawaraCore.Reconciliation.Evidence

/-!
# The evidence stays

Every transaction keeps the evidence of the cases, and every case and refund case that it
writes agrees with its evidence.
-/

namespace NawaraCore.Reconciliation

open Subscriptions (Uuid)
open PaymentRequests (PaymentRequestStatus Failure transitionAllowed)

/-! ## Refund cases -/

variable {s : LateSettlement} {l : LateSuccess}

section
variable {db db' : Db} {r : RefundCase}

theorem Evidenced.names_late (he : Evidenced db) {f : Uuid} (hs : s ∈ db.lateSettlements)
    (hl : l ∈ db.lateSuccesses) (hev : s.evidence = .lateSuccess l.lateSuccessId) (hf : l.factId = some f) : db.names s (some f) := by
  obtain ⟨⟨g, hg⟩, -⟩ := he.settlement s hs
  have hfind : db.lateSuccess? l.lateSuccessId = some l := find_key he.lateOnce hl
  unfold Db.names at hg ⊢
  simp only [hev] at hg ⊢
  obtain ⟨x, y, hx, hr, hy, rfl⟩ := hg
  rw [hfind] at hx
  cases hx
  exact ⟨l, f, hfind, hr, hf, rfl⟩

theorem refundCaseGuard_refunds (he : Evidenced db) (h : db.refundCaseGuard r = .ok ()) (hr : r.eligibility.lateSettlement = true) :
    db.refunds r := by
  unfold Db.refundCaseGuard at h
  obtain ⟨-, h⟩ := guard_ok h
  cases hpr : db.request? r.paymentRequestId with
  | none =>
    rw [hpr] at h
    cases h
  | some pr =>
    simp only [hpr] at h
    have hid : pr.id = r.paymentRequestId := by simpa using List.find?_some hpr
    cases hi : db.invoice? pr.invoiceId with
    | none =>
      rw [hi] at h
      cases h
    | some i =>
      simp only [hi] at h
      cases hel : r.eligibility with
      | late_assisted_settlement sid =>
        cases hcap : r.capture with
        | some x =>
          obtain ⟨basis, f⟩ := x
          simp only [hel, hcap] at h
          obtain ⟨hg, -⟩ := guard_ok h
          simp only [not_or, not_not] at hg
          obtain ⟨hp, -, -, -, hlate⟩ := hg
          unfold Db.lateCase at hlate
          simp only [hel] at hlate
          have hlate := of_decide_eq_true hlate
          obtain ⟨-, hset, -⟩ := hlate
          obtain ⟨s, hs, hset⟩ := List.any_eq_true.mp hset
          obtain ⟨l, hl, hset⟩ := List.any_eq_true.mp hset
          have hset := of_decide_eq_true hset
          obtain ⟨hev, hf, hrest⟩ := hset
          have hrest := of_decide_eq_true hrest
          refine ⟨s, hs, ⟨pr, ?_, hp⟩, ?_⟩
          · rw [hrest.2.2.1, hid, hpr]
          · rw [hcap]
            exact he.names_late hs hl hev hf
        | none =>
          simp only [hel, hcap] at h
          obtain ⟨hg, h⟩ := guard_ok h
          simp only [not_or, not_not] at hg
          obtain ⟨-, hp, -, -⟩ := hg
          obtain ⟨-, -, h⟩ := guards_ok h
          obtain ⟨hord, -⟩ := guard_ok h
          have hord := not_not.mp hord
          unfold Db.ordinaryCase at hord
          simp only [hel] at hord
          split at hord
          · cases hord
          · cases hord
          · have hord := of_decide_eq_true hord
            obtain ⟨-, hany, -⟩ := hord
            obtain ⟨s, hs, hany⟩ := List.any_eq_true.mp hany
            have hany := of_decide_eq_true hany
            obtain ⟨-, -, hsr, hrec⟩ := hany
            obtain ⟨x, hx, hxe⟩ := (Option.any_eq_true _ _).mp hrec
            refine ⟨s, hs, ⟨pr, ?_, hp⟩, ?_⟩
            · rw [hsr, hid, hpr]
            · rw [hcap]
              unfold Db.names
              rw [of_decide_eq_true hxe]
              rfl
      | _ =>
        rw [hel] at hr
        cases hr

end

/-! ## The keys -/

structure Stays (db db' : Db) : Prop where
  later : Later db db'
  evidenced : Evidenced db'
  resolutions : db'.resolutions = db.resolutions

theorem Stays.refl {db : Db} (he : Evidenced db) : Stays db db := ⟨.refl db, he, rfl⟩

theorem Stays.trans {db db' db'' : Db} (h₁ : Stays db db') (h₂ : Stays db' db'') : Stays db db'' :=
  ⟨h₁.later.trans h₂.later, h₂.evidenced, h₂.resolutions.trans h₁.resolutions⟩

variable {id : Uuid} {evidence : Option RecoveryCaptureEvidence}

section
variable {db db' : Db}

theorem Evidenced.grow (he : Evidenced db) (h : Later db db') (hreq : (db'.requests.map PaymentRequest.id).Nodup)
    (hpay : UniqueOn (fun r => r.paymentId.isSome = true) PaymentRequest.paymentId db'.requests)
    (hlate : db'.lateSuccesses = db.lateSuccesses) (hset : db'.lateSettlements = db.lateSettlements)
    (href : (db'.refundCases.map RefundCase.id).Nodup) (hrel : (db'.relays.map Relay.id).Nodup)
    (hrefunds : ∀ r ∈ db'.refundCases, r.eligibility.lateSettlement = true → db'.refunds r)
    (hcases : ∀ c ∈ db'.cases, db'.states c) : Evidenced db' where
  requestOnce := hreq
  paymentOnce := hpay
  lateOnce := by rw [hlate]; exact he.lateOnce
  settlementOnce := by rw [hset]; exact he.settlementOnce
  invoiceOnce := by rw [hset]; exact he.invoiceOnce
  refundOnce := href
  relayOnce := hrel
  late l hl := by
    rw [hlate] at hl
    exact h.bound (he.late l hl)
  settlement s hs := by
    rw [hset] at hs
    obtain ⟨⟨f, hf⟩, r, hr, hi⟩ := he.settlement s hs
    obtain ⟨r', hr', hi', -⟩ := h.requests _ r hr
    exact ⟨⟨f, h.names hf⟩, r', hr', hi'.trans hi⟩
  refund := hrefunds
  case := hcases

theorem Evidenced.requests (he : Evidenced db) (h : Later db db') (hreq : (db'.requests.map PaymentRequest.id).Nodup)
    (hpay : UniqueOn (fun r => r.paymentId.isSome = true) PaymentRequest.paymentId db'.requests)
    (hlate : db'.lateSuccesses = db.lateSuccesses) (hset : db'.lateSettlements = db.lateSettlements)
    (href : db'.refundCases = db.refundCases) (hrel : db'.relays = db.relays) (hcases : db'.cases = db.cases) : Evidenced db' :=
  he.grow h hreq hpay hlate hset (by rw [href]; exact he.refundOnce) (by rw [hrel]; exact he.relayOnce)
    (fun r hr hl => h.refunds (he.refund r (href ▸ hr) hl)) fun c hc => h.states (he.case c (hcases ▸ hc))

theorem Evidenced.of_eq (he : Evidenced db) (h : Later db db') (hreq : db'.requests = db.requests)
    (hlate : db'.lateSuccesses = db.lateSuccesses) (hset : db'.lateSettlements = db.lateSettlements)
    (href : db'.refundCases = db.refundCases) (hrel : db'.relays = db.relays) (hcases : db'.cases = db.cases) : Evidenced db' :=
  he.requests h (by rw [hreq]; exact he.requestOnce) (by rw [hreq]; exact he.paymentOnce) hlate hset href hrel hcases

theorem Evidenced.cases {cs : List ReconciliationCase} (he : Evidenced db) (h : ∀ c ∈ cs, db.states c) :
    Stays db { db with cases := db.cases ++ cs } := by
  have hl : Later db { db with cases := db.cases ++ cs } :=
    { Later.refl db with cases := fun id c hc => (List.prefix_append _ _).find?_eq_some hc }
  refine ⟨hl, he.grow hl he.requestOnce he.paymentOnce rfl rfl he.refundOnce he.relayOnce
    (fun r hr hs => hl.refunds (he.refund r hr hs)) (fun c hc => hl.states ?_), rfl⟩
  rcases List.mem_append.mp hc with hc | hc
  · exact he.case c hc
  · exact h c hc

theorem requests_replaced {x y : PaymentRequest} (hx : db.request? id = some x) (hid : y.id = x.id)
    (hi : y.invoiceId = x.invoiceId) (hp : ∀ p, x.paymentId = some p → y.paymentId = some p) (i : Uuid) (r : PaymentRequest)
    (hr : db.request? i = some r) : ∃ r', (replaceRow PaymentRequest.id y db.requests).find? (fun a => a.id = i) = some r' ∧
      r'.invoiceId = r.invoiceId ∧ ∀ p, r.paymentId = some p → r'.paymentId = some p := by
  refine ⟨if r.id = y.id then y else r, ?_, ?_⟩
  · rw [find_replaceRow]
    exact Option.map_eq_some_iff.mpr ⟨r, hr, rfl⟩
  · by_cases hk : r.id = y.id
    · rw [if_pos hk]
      have hxid : x.id = id := by simpa using List.find?_some hx
      have hrid : r.id = i := by simpa using List.find?_some hr
      rw [← hrid, hk, hid, hxid, hx] at hr
      cases hr
      exact ⟨hi, hp⟩
    · rw [if_neg hk]
      exact ⟨rfl, fun _ h => h⟩

theorem request_ids_replaced (he : Evidenced db) (y : PaymentRequest) :
    ((replaceRow PaymentRequest.id y db.requests).map PaymentRequest.id).Nodup := by
  rw [map_replaceRow fun x _ hk => hk]
  exact he.requestOnce

theorem settlement_later (s : LateSettlement) : Later db { db with lateSettlements := db.lateSettlements ++ [s] } :=
  { Later.refl db with lateSettlements := List.prefix_append _ _ }

theorem Evidenced.settles (he : Evidenced db) {r : PaymentRequest} {f : Option Uuid}
    (hfresh : ∀ x ∈ db.lateSettlements, x.id ≠ s.id ∧ x.invoiceId ≠ s.invoiceId ∧ x.evidence ≠ s.evidence)
    (hr : db.request? s.paymentRequestId = some r) (hi : r.invoiceId = s.invoiceId) (hn : db.names s f) :
    Evidenced { db with lateSettlements := db.lateSettlements ++ [s] } := by
  have hl := @settlement_later db s
  refine { he with
    settlementOnce := nodup_append_row he.settlementOnce fun x hx => (hfresh x hx).1
    invoiceOnce := nodup_append_row he.invoiceOnce fun x hx => (hfresh x hx).2.1
    settlement := fun x hx => ?_
    refund := fun x hx hs => hl.refunds (he.refund x hx hs)
    case := fun c hc => hl.states (he.case c hc) }
  rcases mem_append_row hx with hx | rfl
  · exact he.settlement x hx
  · exact ⟨⟨f, hn⟩, r, hr, hi⟩

theorem Evidenced.recorded (he : Evidenced db) {row : LateSuccess} (hn : db.lateSuccess? row.lateSuccessId = none)
    (hb : db.bound row.paymentRequestId row.paymentId) : Stays db { db with lateSuccesses := db.lateSuccesses ++ [row] } := by
  have hl : Later db { db with lateSuccesses := db.lateSuccesses ++ [row] } :=
    { Later.refl db with lateSuccesses := fun _ _ h => lateSuccess_append h }
  refine ⟨hl, { he with
    lateOnce := nodup_append_row he.lateOnce fun x hx => by simpa using List.find?_eq_none.mp hn x hx
    late := fun l h => ?_
    settlement := fun s hs => ?_
    refund := fun x hx hs => hl.refunds (he.refund x hx hs)
    case := fun c hc => hl.states (he.case c hc) }, rfl⟩
  · rcases mem_append_row h with h | rfl
    · exact he.late l h
    · exact hb
  · obtain ⟨⟨f, hf⟩, hr⟩ := he.settlement s hs
    exact ⟨⟨f, hl.names hf⟩, hr⟩

end

/-! ## The rest of Billing -/

section
variable {db db' : Db}

theorem heldBack_held {disputeId : Uuid} (h : ¬ db.heldBack disputeId = true) (l : DisputeLoss) (hl : l ∈ db.losses)
    (ho : db.overlap l = true) (hn : l.disputeId ∉ db.appliedLosses) : l.disputeId ∉ db.appliedLosses ++ [disputeId] := by
  intro hm
  rcases mem_append_row hm with hm | hm
  · exact hn hm
  · exact h (List.any_eq_true.mpr ⟨l, hl, by simp [hm, ho]⟩)

theorem canMirror_definitive {a : Option Safety.RelayStatus} {b : Safety.RelayStatus} (h : Safety.canMirror a b = true)
    (ha : (a.any fun s => s ≠ .attempt .authorizationPending) = true) : b ≠ .attempt .authorizationPending := by
  rintro rfl
  cases a with
  | none => cases ha
  | some s =>
    cases s with
    | rejected => cases h
    | attempt s => cases s <;> simp [Safety.canMirror, Safety.MOVES] at h ha

theorem record_later (he : Evidenced db) {r : Record} (h : db.record r = .ok db') : Stays db db' := by
  have others : Later db db' → db'.requests = db.requests → db'.lateSuccesses = db.lateSuccesses →
      db'.lateSettlements = db.lateSettlements → db'.refundCases = db.refundCases → db'.relays = db.relays → db'.cases = db.cases →
      db'.resolutions = db.resolutions → Stays db db' := fun hl h₁ h₂ h₃ h₄ h₅ h₆ h₇ => ⟨hl, he.of_eq hl h₁ h₂ h₃ h₄ h₅ h₆, h₇⟩
  cases r with
  | invoice i =>
    simp only [Db.record] at h
    obtain ⟨-, h⟩ := guard_ok h
    cases h
    exact others { Later.refl db with } rfl rfl rfl rfl rfl rfl rfl
  | request x =>
    simp only [Db.record] at h
    obtain ⟨hid, -, h⟩ := guards_ok h
    obtain ⟨hnew, h⟩ := guard_ok h
    cases h
    have hnone : x.paymentId = none := by simpa using fun hp => hnew (.inr hp)
    have hl : Later db { db with requests := db.requests ++ [x] } := { Later.refl db with
      requests := fun id r hr => ⟨r, (List.prefix_append _ _).find?_eq_some hr, rfl, fun _ hp => hp⟩ }
    refine ⟨hl, he.requests hl (nodup_append_row he.requestOnce (by simpa using hid)) (he.paymentOnce.append fun y _ _ hp => ?_)
      rfl rfl rfl rfl rfl, rfl⟩
    rw [hnone] at hp
    cases hp
  | requestStatus id status paymentId =>
    simp only [Db.record] at h
    cases hr : db.request? id with
    | none =>
      rw [hr] at h
      cases h
    | some x =>
      simp only [hr] at h
      obtain ⟨-, hbind, h⟩ := guards_ok h
      cases h
      have hx := List.mem_of_find?_eq_some hr
      have hl : Later db { db with
          requests := replaceRow PaymentRequest.id { x with status, paymentId := x.paymentId.or paymentId } db.requests } := { Later.refl db with
        requests := requests_replaced hr rfl rfl fun p hp => by rw [hp]; rfl }
      refine ⟨hl, he.requests hl (request_ids_replaced he _) (he.paymentOnce.replace fun y hy hk hpy hpb => ?_) rfl rfl rfl rfl rfl, rfl⟩
      cases hxp : x.paymentId with
      | some p =>
        have := he.paymentOnce.ne hx (by rw [hxp]; rfl) hy hk hpy
        rw [hxp] at this
        exact this
      | none =>
        cases hp : paymentId with
        | none => simp [hxp, hp] at hpb
        | some p =>
          intro heq
          simp only [Option.or] at heq
          exact hbind ⟨by rw [hp]; rfl, .inr (List.any_eq_true.mpr ⟨y, hy, by simp [heq, hp]⟩)⟩
  | success id receiptId =>
    simp only [Db.record] at h
    cases hr : db.request? id with
    | none =>
      rw [hr] at h
      cases h
    | some x =>
      simp only [hr] at h
      obtain ⟨-, -, h⟩ := guards_ok h
      cases h
      have hx := List.mem_of_find?_eq_some hr
      have hl : Later db { db with
          requests := replaceRow PaymentRequest.id { x with status := .paid } db.requests
          receipts := db.receipts ++ [⟨receiptId, id, .succeeded, .applied⟩] } := { Later.refl db with
        requests := requests_replaced hr rfl rfl fun p hp => hp }
      refine ⟨hl, he.requests hl (request_ids_replaced he _) (he.paymentOnce.replace fun y hy hk hpy hpb => ?_) rfl rfl rfl rfl rfl, rfl⟩
      have := he.paymentOnce.ne (k := PaymentRequest.id) hx hpb hy hk hpy
      exact this
  | lateSettlement s =>
    simp only [Db.record] at h
    split at h
    · rename_i x hev
      obtain ⟨hfresh, -, hpaid, rfl⟩ := insertLateSettlement_ok h
      obtain ⟨pr, hpr, hid, hi, -⟩ := hpaid x hev
      refine ⟨settlement_later s, he.settles (f := none) hfresh (r := pr) ?_ hi ?_, rfl⟩
      · rw [← hid]
        exact find_key he.requestOnce hpr
      · unfold Db.names
        rw [hev]
    · cases h
  | application id =>
    simp only [Db.record] at h
    split at h
    · cases h
      exact others { Later.refl db with applications := List.subset_append_left _ _ } rfl rfl rfl rfl rfl rfl rfl
    · cases h
  | obligation o disputeId =>
    simp only [Db.record] at h
    obtain ⟨hheld, h⟩ := guard_ok h
    obtain ⟨l, hl, h⟩ := map_eq_ok.mp h
    cases h
    exact others { Later.refl db with
      appliedLosses := List.subset_append_left _ _
      held := heldBack_held hheld } rfl rfl rfl rfl rfl rfl rfl
  | directWriteOff disputeId =>
    simp only [Db.record] at h
    obtain ⟨hheld, h⟩ := guard_ok h
    cases h
    exact others { Later.refl db with
      appliedLosses := List.subset_append_left _ _
      held := heldBack_held hheld } rfl rfl rfl rfl rfl rfl rfl
  | recovery id receiptId ids now =>
    simp only [Db.record] at h
    cases hr : db.request? id with
    | none =>
      rw [hr] at h
      cases h
    | some x =>
      simp only [hr] at h
      split at h
      · obtain ⟨⟨l, a⟩, hl, h⟩ := map_eq_ok.mp h
        cases h
        exact others { Later.refl db with } rfl rfl rfl rfl rfl rfl rfl
      · cases h
  | writeOff f =>
    simp only [Db.record] at h
    obtain ⟨l, -, h⟩ := map_eq_ok.mp h
    cases h
    exact others { Later.refl db with } rfl rfl rfl rfl rfl rfl rfl
  | refundCase r =>
    simp only [Db.record, Db.insertRefundCase] at h
    split at h
    · cases h
    · rename_i hguard
      obtain ⟨-, -, h⟩ := guards_ok h
      obtain ⟨htaken, h⟩ := guard_ok h
      cases h
      have hl : Later db { db with refundCases := db.refundCases ++ [r] } := { Later.refl db with
        refundCases := fun x hx => ⟨x.status, List.mem_append_left _ hx, id⟩ }
      have hfresh : ∀ x ∈ db.refundCases, x.id ≠ r.id := fun x hx heq =>
        htaken (List.any_eq_true.mpr ⟨x, hx, decide_eq_true (.inl heq)⟩)
      refine ⟨hl, he.grow hl he.requestOnce he.paymentOnce rfl rfl (nodup_append_row he.refundOnce hfresh) he.relayOnce
        (fun x hx hs => hl.refunds ?_) (fun c hc => hl.states (he.case c hc)), rfl⟩
      rcases mem_append_row hx with hx | rfl
      · exact he.refund x hx hs
      · exact refundCaseGuard_refunds he hguard hs
  | refundCaseStatus id status =>
    simp only [Db.record] at h
    split at h
    · cases h
    · rename_i r hr
      obtain ⟨hopen, h⟩ := guard_ok h
      cases h
      have hm := List.mem_of_find?_eq_some hr
      have hl : Later db { db with refundCases := replaceRow RefundCase.id { r with status } db.refundCases } := { Later.refl db with
        refundCases := fun x hx => by
          by_cases hk : x.id = r.id
          · have := eq_of_key he.refundOnce hx hm hk
            subst this
            refine ⟨status, replaceRow_mem hx rfl, fun hs => ?_⟩
            rw [hs] at hopen
            exact absurd (by simp) hopen
          · exact ⟨x.status, replaceRow_other hx hk, fun h => h⟩ }
      refine ⟨hl, he.grow hl he.requestOnce he.paymentOnce rfl rfl ?_ he.relayOnce (fun x hx hs => hl.refunds ?_)
        (fun c hc => hl.states (he.case c hc)), rfl⟩
      · rw [map_replaceRow fun x _ hk => hk]
        exact he.refundOnce
      · rcases mem_replaceRow hx with rfl | ⟨hx, -⟩
        · exact he.refund r hm hs
        · exact he.refund x hx hs
  | relay x =>
    simp only [Db.record] at h
    obtain ⟨hid, h⟩ := guard_ok h
    cases h
    have hl : Later db { db with relays := db.relays ++ [{ x with attemptStatus := none }] } := { Later.refl db with
      relays := fun y hy hd => ⟨y, List.mem_append_left _ hy, rfl, hd⟩ }
    exact ⟨hl, he.grow hl he.requestOnce he.paymentOnce rfl rfl he.refundOnce (nodup_append_row he.relayOnce (by simpa using hid))
      (fun x hx hs => hl.refunds (he.refund x hx hs)) (fun c hc => hl.states (he.case c hc)), rfl⟩
  | relayStatus id status =>
    simp only [Db.record] at h
    split at h
    · cases h
    · rename_i x hx
      obtain ⟨hmirror, h⟩ := guard_ok h
      cases h
      have hm := List.mem_of_find?_eq_some hx
      have hl : Later db { db with relays := replaceRow Relay.id { x with attemptStatus := some status } db.relays } := { Later.refl db with
        relays := fun y hy hd => by
          by_cases hk : y.id = x.id
          · have := eq_of_key he.relayOnce hy hm hk
            subst this
            exact ⟨_, replaceRow_mem hy rfl, rfl, by
              simpa [Relay.definitive] using canMirror_definitive (not_not.mp hmirror) hd⟩
          · exact ⟨y, replaceRow_other hy hk, rfl, hd⟩ }
      refine ⟨hl, he.grow hl he.requestOnce he.paymentOnce rfl rfl he.refundOnce ?_ (fun x hx hs => hl.refunds (he.refund x hx hs))
        (fun c hc => hl.states (he.case c hc)), rfl⟩
      rw [map_replaceRow fun x _ hk => hk]
      exact he.relayOnce
  | loss l =>
    simp only [Db.record] at h
    obtain ⟨-, h⟩ := guard_ok h
    cases h
    exact others { Later.refl db with losses := List.subset_append_left _ _ } rfl rfl rfl rfl rfl rfl rfl
  | channel _ | purchase _ =>
    simp only [Db.record] at h
    obtain ⟨-, h⟩ := guard_ok h
    cases h
    exact others { Later.refl db with } rfl rfl rfl rfl rfl rfl rfl
  | surplusRefund _ =>
    simp only [Db.record] at h
    cases h
    exact others { Later.refl db with surplusRefunds := List.subset_append_left _ _ } rfl rfl rfl rfl rfl rfl rfl
  | surplusConfirmation _ =>
    simp only [Db.record] at h
    cases h
    exact others { Later.refl db with surplusConfirmations := List.subset_append_left _ _ } rfl rfl rfl rfl rfl rfl rfl
  | refundEffect _ =>
    simp only [Db.record] at h
    cases h
    exact others { Later.refl db with refundEffects := List.subset_append_left _ _ } rfl rfl rfl rfl rfl rfl rfl
  | lossEffect _ =>
    simp only [Db.record] at h
    cases h
    exact others { Later.refl db with lossEffects := List.subset_append_left _ _ } rfl rfl rfl rfl rfl rfl rfl
  | channelStatus _ _ _ | reversal _ | surplusExternal _ | overReturn _ _ =>
    simp only [Db.record] at h
    cases h
    exact others { Later.refl db with } rfl rfl rfl rfl rfl rfl rfl

end

/-! ## Cases -/

section
variable {db db' : Db}

theorem states_other {c : ReconciliationCase} (h : c.caseType.capturedMoney = false) : db.states c := by
  unfold Db.states
  cases ht : c.caseType with
  | late_success | unmatched_capture | unrouted_settlement | late_assisted_settlement =>
    rw [ht] at h
    cases h
  | _ => trivial

section
variable (he : Evidenced db)
include he

variable {o : Option Uuid}

theorem openForPayment_later {c : CaseInput}
    (hs : ∀ pr row, db.about c = some pr → Row { c with paymentId := c.paymentId.or pr.paymentId } row → db.states row)
    (h : openForPayment db c id = .ok (db', o)) : Stays db db' := by
  rcases openForPayment_ok h with ⟨rfl, -, -⟩ | ⟨pr, i, row, hpr, -, -, hrow, -, -, -, -, -, rfl⟩
  · exact .refl he
  · refine he.cases fun x hx => ?_
    rw [List.mem_singleton.mp hx]
    exact hs pr row hpr hrow

theorem discover_later {d : Discovery} (h : db.discover d id = .ok (db', o)) :
    Stays db db' := by
  cases d with
  | lateSettlement sid =>
    simp only [Db.discover] at h
    split at h
    · cases h
      exact .refl he
    · rename_i s hs
      cases hr : db.request? s.paymentRequestId with
      | none =>
        rw [hr] at h
        cases h
        exact .refl he
      | some r =>
        simp only [hr] at h
        refine openForPayment_later he (fun pr row hpr hrow => ?_) h
        have hm := List.mem_of_find?_eq_some hs
        obtain ⟨⟨f, hf⟩, -⟩ := he.settlement s hm
        have hid : r.id = s.paymentRequestId := by simpa using List.find?_some hr
        have hpr : db.request? r.id = some pr := hpr
        rw [hid, hr] at hpr
        cases hpr
        unfold Db.states
        simp only [hrow.caseType]
        refine ⟨s, hm, hrow.evidenceKey.symm, ?_, fun p hp => ⟨r, hr, ?_⟩⟩
        · rw [hrow.captureFactId]
          change db.names s (db.captureOf s)
          rw [names_captureOf hf]
          exact hf
        · rw [hrow.paymentId] at hp
          simpa using hp
  | unroutedSettlement rid =>
    simp only [Db.discover] at h
    cases hr : db.request? rid with
    | none =>
      rw [hr] at h
      cases h
      exact .refl he
    | some r =>
      simp only [hr] at h
      split at h
      · refine openForPayment_later he (fun pr row hpr hrow => ?_) h
        have hid : r.id = rid := by simpa using List.find?_some hr
        have hpr : db.request? r.id = some pr := hpr
        rw [hid, hr] at hpr
        cases hpr
        unfold Db.states
        simp only [hrow.caseType]
        refine ⟨hrow.captureFactId, fun p hp => ⟨r, ?_, ?_⟩⟩
        · rw [hrow.evidenceKey]
          exact hid ▸ hr
        · rw [hrow.paymentId] at hp
          simpa using hp
      · cases h
        exact .refl he
  | unmatchedCapture f p a cu re =>
    simp only [Db.discover] at h
    refine openForPayment_later he (fun pr row hpr hrow => ?_) h
    unfold Db.states
    simp only [hrow.caseType]
    rw [hrow.captureFactId, hrow.evidenceKey]
  | other c scope =>
    simp only [Db.discover] at h
    split at h
    · cases h
      exact .refl he
    · rename_i hc
      cases scope with
      | none =>
        refine openForPayment_later he (fun pr row hpr hrow => states_other ?_) h
        rw [hrow.caseType]
        exact Bool.eq_false_iff.mpr hc
      | some sc =>
        rcases openCase_ok h with ⟨rfl, -, -⟩ | ⟨row, hrow, -, -, -, -, -, rfl⟩
        · exact .refl he
        · refine he.cases fun x hx => states_other ?_
          rw [List.mem_singleton.mp hx, hrow.caseType]
          exact Bool.eq_false_iff.mpr hc

/-! ## Late successes -/

variable {o : ClassifyOutcome}

theorem Classifies.later {pr : PaymentRequest} {i : Invoice}
    (hl : db.lateSuccess? id = some l)
    (hpr : db.request? l.paymentRequestId = some pr) (hi : db.invoice? pr.invoiceId = some i) (h : Classifies db l pr i evidence db' o) :
    Stays db db' := by
  have hid : l.lateSuccessId = id := by simpa using List.find?_some hl
  subst hid
  have hprid : pr.id = l.paymentRequestId := by simpa using List.find?_some hpr
  have hbound := he.late l (List.mem_of_find?_eq_some hl)
  have hpay : pr.paymentId = some l.paymentId := by
    obtain ⟨x, hx, hp⟩ := hbound
    rw [hpr] at hx
    cases hx
    exact hp
  cases h with
  | waits => exact .refl he
  | already => exact .refl he
  | unseen => exact .refl he
  | counts ledger pay o equal verified uncounted unsettled pays payments outcome =>
    have hlater : Later db (db.withLedger ledger) := { Later.refl db with }
    exact ⟨hlater, he.of_eq hlater rfl rfl rfl rfl rfl rfl, rfl⟩
  | settles s a cs purpose settles request invoice fact fresh uncounted unlisted rows =>
    obtain ⟨f, hf⟩ := Option.ne_none_iff_exists'.mp fact
    have hs : db.request? s.paymentRequestId = some pr := by rw [request, hprid, hpr]
    have hnames : db.names s (some f) := by
      unfold Db.names
      simp only [settles]
      exact ⟨l, f, hl, by rw [request, hprid], hf, rfl⟩
    have hinv : pr.invoiceId = s.invoiceId := by
      have : i.id = pr.invoiceId := by simpa using List.find?_some hi
      rw [invoice, this]
    have hsl := @settlement_later db s
    have hcs := @Evidenced.cases _ cs (he.settles fresh hs hinv hnames) fun c hc => by
      rcases rows with rfl | ⟨row, rfl, ht, hk, hp, hcap, -⟩
      · cases hc
      · rw [List.mem_singleton.mp hc]
        unfold Db.states
        simp only [ht]
        refine ⟨s, List.mem_append_right _ List.mem_cons_self, hk.symm, ?_, fun p hrp => ?_⟩
        · rw [hcap, hf]
          exact hsl.names hnames
        · rw [hp] at hrp
          cases hrp
          exact hsl.bound ⟨pr, hs, hpay⟩
    exact ⟨hsl.trans hcs.later, hcs.evidenced, hcs.resolutions⟩
  | opens row uncounts company caseType key capture payment fresh unlisted unsettled =>
    refine he.cases fun c hc => ?_
    rw [List.mem_singleton.mp hc]
    unfold Db.states
    simp only [caseType]
    exact ⟨l, by rw [key]; exact hl, capture, payment.trans hpay⟩

variable {fresh : Fresh}

theorem classifyLocked_later
    (h : classifyLocked db id evidence fresh = .ok (db', o)) : Stays db db' := by
  obtain ⟨l, pr, i, hl, hpr, hi, hc⟩ := classifyLocked_ok h
  exact hc.later he hl hpr hi

theorem stated_later {l : PaymentLateSuccess}
    {o : LateSuccessOutcome} {c : Option ClassifyOutcome} (h : Reconciliation.record db l evidence fresh = .ok (db', o, c)) :
    Stays db db' := by
  rcases record_ok h with ⟨rfl, -⟩ | ⟨row, outcome, hid, -, -, -, -, -, ⟨pr, hpr, hp, hprid⟩, hn, -, -, hc⟩
  · exact .refl he
  · have hfind : db.request? pr.id = some pr := find_key he.requestOnce hpr
    have hl := @Evidenced.recorded _ he row (by rw [hid]; exact hn) ⟨pr, hprid ▸ hfind, hp⟩
    unfold classify at hc
    split at hc
    · cases hc
      exact hl
    · exact hl.trans (classifyLocked_later hl.evidenced hc)

end

variable {kind : ResolutionKind}

theorem resolve_ok {b : Bool} (h : resolve db id kind = .ok (db', b)) :
    ∃ c, db.case? id = some c ∧ db.supports c kind = true ∧
      ((db' = db ∧ ∃ r ∈ db.resolutions, r.caseId = id) ∨
        (∀ r ∈ db.resolutions, r.caseId ≠ id) ∧ db' = { db with resolutions := db.resolutions ++ [⟨id, kind⟩] }) := by
  unfold resolve at h
  cases hc : db.case? id with
  | none =>
    rw [hc] at h
    cases h
  | some c =>
    simp only [hc] at h
    obtain ⟨hs, h⟩ := guard_ok h
    refine ⟨c, rfl, by simpa using hs, ?_⟩
    by_cases hr : (db.resolutions.any fun r => r.caseId = id) = true
    · rw [if_pos hr] at h
      cases h
      exact .inl ⟨rfl, by simpa using hr⟩
    · rw [if_neg hr] at h
      cases h
      exact .inr ⟨by simpa using hr, rfl⟩

theorem resolve_later (he : Evidenced db) {b : Bool} (h : resolve db id kind = .ok (db', b)) :
    Later db db' ∧ Evidenced db' := by
  obtain ⟨c, -, -, ⟨rfl, -⟩ | ⟨-, rfl⟩⟩ := resolve_ok h
  · exact ⟨.refl _, he⟩
  · have hl : Later db { db with resolutions := db.resolutions ++ [⟨id, kind⟩] } :=
      { Later.refl db with }
    exact ⟨hl, he.of_eq hl rfl rfl rfl rfl rfl rfl⟩

theorem Transaction.later (he : Evidenced db) (h : Transaction db db') : Later db db' ∧ Evidenced db' := by
  cases h with
  | none => exact ⟨.refl _, he⟩
  | record h => exact ⟨(record_later he h).later, (record_later he h).evidenced⟩
  | stated h => exact ⟨(stated_later he h).later, (stated_later he h).evidenced⟩
  | classified h => exact ⟨(classifyLocked_later he h).later, (classifyLocked_later he h).evidenced⟩
  | opened h => exact ⟨(discover_later he h).later, (discover_later he h).evidenced⟩
  | resolved h => exact resolve_later he h

end

theorem init_evidenced : Evidenced init.db := by
  refine ⟨?_, ?_, ?_, ?_, ?_, ?_, ?_, ?_, ?_, ?_, ?_⟩ <;> simp [init, Db.empty, UniqueOn]

end NawaraCore.Reconciliation
