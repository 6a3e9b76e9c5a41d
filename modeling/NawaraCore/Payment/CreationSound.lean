import NawaraCore.Lib.Rows
import NawaraCore.Payment.Creation

/-!
# Soundness of the creation

One row and one announcement for a natural key, whatever requests run at the same
time, and what a request is answered when the row is there.
-/

namespace NawaraCore.PaymentCreation

open Payments (Uuid PaymentStatus PaymentError enforce enforce_ok Admitted)

/-! ## Preparing -/

variable {d : CreatePaymentDto} {freshId : Uuid}

theorem normaliseSeller_ok {seller : Party} {o : Option String}
    (h : normaliseSeller d = .ok (seller, o)) :
    (d.seller.type ≠ "organization" ∧ seller = d.seller ∧ o = d.organizationId.map toLowerCase) ∨
      (d.seller.type = "organization" ∧ seller = ⟨d.seller.type, toLowerCase d.seller.id⟩ ∧
        o = some (toLowerCase d.seller.id)) := by
  unfold normaliseSeller at h
  dsimp only at h
  split at h
  · rename_i hs
    cases h
    exact .inl ⟨hs, rfl, rfl⟩
  · rename_i hs
    obtain ⟨-, -, h⟩ := guards_ok h
    cases h
    exact .inr ⟨not_not.mp hs, rfl, rfl⟩

theorem normalisePayer_ok {payer : Party} {o scopeId : Option String}
    (h : normalisePayer d o = .ok (payer, scopeId)) :
    (d.payer.type ≠ "organization" ∧ payer = d.payer ∧ scopeId = o) ∨
      (d.payer.type = "organization" ∧ payer = ⟨d.payer.type, toLowerCase d.payer.id⟩ ∧
        scopeId = some (toLowerCase d.payer.id)) := by
  unfold normalisePayer at h
  dsimp only at h
  split at h
  · rename_i hp
    cases h
    exact .inl ⟨hp, rfl, rfl⟩
  · rename_i hp
    obtain ⟨-, -, h⟩ := guards_ok h
    cases h
    exact .inr ⟨not_not.mp hp, rfl, rfl⟩

inductive Prepared (producer : String) (d : CreatePaymentDto) (c : Candidate) (st : Stage) : Prop
  | historical (seller : Party) (scopeId : Option String) (hs : normaliseSeller d = .ok (seller, scopeId))
      (hp : d.purpose = none) (hst : st = .replayHistorical)
      (hc : c = d.candidate producer (d.snapshot d.payer seller scopeId d.expiresAt.join))
  | new (seller payer : Party) (organizationId scopeId : Option String)
      (hs : normaliseSeller d = .ok (seller, organizationId)) (hp : d.purpose ≠ none)
      (hpay : normalisePayer d organizationId = .ok (payer, scopeId))
      (hst : st = if scopeId = none then .insert else .lookUp)
      (hc : c = d.candidate producer (d.snapshot payer seller scopeId d.expiresAt.join))

variable {st : Stage}

theorem prepare_ok {cfg : CreationConfig} {producer : String} {c : Candidate}
    (h : prepare cfg producer d = .ok (c, st)) : Prepared producer d c st := by
  unfold prepare at h
  obtain ⟨-, -, h⟩ := guards_ok h
  obtain ⟨⟨seller, organizationId⟩, hs, h⟩ := bind_eq_ok.mp h
  obtain ⟨-, h⟩ := guard_ok h
  dsimp only at h
  split at h
  · rename_i hp
    cases h
    exact .historical seller organizationId hs hp rfl rfl
  · rename_i purpose hp
    obtain ⟨-, -, h⟩ := guards_ok h
    obtain ⟨u, -, h⟩ := bind_eq_ok.mp h
    obtain ⟨⟨payer, scopeId⟩, hpay, h⟩ := bind_eq_ok.mp h
    cases h
    exact .new seller payer organizationId scopeId hs (by simp [hp]) hpay rfl rfl

theorem Prepared.purpose {producer : String} {c : Candidate}
    (h : Prepared producer d c st) : c.snapshot.purpose = none ↔ st = .replayHistorical := by
  cases h with
  | historical seller scopeId hs hp hst hc => simp [hc, hst, CreatePaymentDto.candidate, CreatePaymentDto.snapshot, hp]
  | new seller payer organizationId scopeId hs hp hpay hst hc =>
    subst hc hst
    refine ⟨fun hn => absurd hn hp, fun hn => ?_⟩
    split at hn <;> cases hn

theorem Prepared.producer {producer : String} {c : Candidate}
    (h : Prepared producer d c st) : c.producer = producer := by
  cases h with
  | historical _ _ _ _ _ hc => rw [hc]; rfl
  | new _ _ _ _ _ _ _ _ hc => rw [hc]; rfl

variable {e : NewEvent} {q : PaymentRow} {t : Db} {a : Answer}

section
variable {db : Db} {c : Candidate} {r : PaymentRow} {cfg : CreationConfig}

theorem find_some (h : db.find c = some r) : r ∈ db.rows ∧ r.key = c.key :=
  ⟨List.mem_of_find?_eq_some h, by simpa using List.find?_some h⟩

theorem find_none (h : db.find c = none) : ∀ r ∈ db.rows, r.key ≠ c.key := by
  simpa [Db.find] using h

theorem find_of_key (hk : (db.rows.map (·.key)).Nodup) (hr : r ∈ db.rows) (h : r.key = c.key) : db.find c = some r := by
  have hf := find_key (k := PaymentRow.key) hk hr
  unfold Db.find
  rw [← h]
  exact hf

theorem identical_iff (hk : r.key = c.key) : isIdenticalSnapshot r c = true ↔ r.snapshot = c.snapshot := by
  have hp : r.producer = c.producer := congrArg Prod.fst hk
  simp [isIdenticalSnapshot, hp]

theorem enqueue_rows (e : NewEvent) : (db.enqueue e).rows = db.rows := by
  unfold Db.enqueue
  split <;> rfl

theorem mem_created : r ∈ (({ db with rows := db.rows ++ [r] } : Db).enqueue e).rows := by
  rw [enqueue_rows]
  exact List.mem_append_right _ (List.mem_singleton_self r)

theorem enqueue_outbox {x : NewEvent} (h : x ∈ (db.enqueue e).outbox) : x ∈ db.outbox ∨ x = e := by
  unfold Db.enqueue at h
  split at h
  · exact .inl h
  · simpa using h

theorem enqueue_created (h : e.name ≠ .created) : (db.enqueue e).createdIds = db.createdIds := by
  unfold Db.enqueue
  split
  · rfl
  · simp [Db.createdIds, List.filter_append, h]

theorem enqueue_creation (h : r.id ∉ db.createdIds) :
    (db.enqueue (paymentEvent .created r)).createdIds = db.createdIds ++ [r.id] := by
  have hn : ¬ db.outbox.any (·.id = (paymentEvent .created r).id) := by
    rw [List.any_eq_true]
    rintro ⟨e, he, heq⟩
    simp only [NewEvent.id, paymentEvent, decide_eq_true_eq, Prod.mk.injEq] at heq
    exact h (List.mem_map.mpr ⟨e, by simp [he, heq.2], heq.1⟩)
  unfold Db.enqueue
  rw [if_neg hn]
  simp [Db.createdIds, List.filter_append, paymentEvent]

/-! ## The invariant of the tables -/

structure Inv (db : Db) : Prop where
  ids : (db.rows.map (·.id)).Nodup
  keys : (db.rows.map (·.key)).Nodup
  checked : ∀ r ∈ db.rows, Admitted (snapshotChecks r.snapshot)
  created : db.createdIds = db.rows.map (·.id)
  events : ∀ e ∈ db.outbox, ∃ r ∈ db.rows, Describes e r

structure SameSnapshot (r q : PaymentRow) : Prop where
  id : q.id = r.id
  producer : q.producer = r.producer
  paymentRequestId : q.paymentRequestId = r.paymentRequestId
  snapshot : q.snapshot = r.snapshot

theorem SameSnapshot.refl (r : PaymentRow) : SameSnapshot r r := ⟨rfl, rfl, rfl, rfl⟩

theorem SameSnapshot.trans {p : PaymentRow} (h : SameSnapshot r q) (k : SameSnapshot q p) : SameSnapshot r p :=
  ⟨k.id.trans h.id, k.producer.trans h.producer, k.paymentRequestId.trans h.paymentRequestId, k.snapshot.trans h.snapshot⟩

theorem SameSnapshot.key (h : SameSnapshot r q) : q.key = r.key := by
  simp [PaymentRow.key, h.producer, h.paymentRequestId]

theorem Describes.congr (h : Describes e r) (hs : SameSnapshot r q) : Describes e q := by
  obtain ⟨h1, h2, h3, h4⟩ := hs
  unfold Describes at h ⊢
  rw [h]
  simp only [paymentEvent, h1, h2, h3, h4]

theorem describes_paymentEvent (name : EventName) (r : PaymentRow) : Describes (paymentEvent name r) r := rfl

def RowsKept (s t : Db) : Prop := ∀ r ∈ s.rows, ∃ q ∈ t.rows, SameSnapshot r q

/-- What `createTx` does: it answers for the row that is there, or it writes the row and announces it. -/
inductive Created (cfg : CreationConfig) (s : Db) (c : Candidate) (freshId : Uuid) : Db → Answer → Prop
  | existing (r : PaymentRow) (hr : r ∈ s.rows) (hk : r.key = c.key) : Created cfg s c freshId s (replay r c)
  | inserted (hid : ∀ r ∈ s.rows, r.id ≠ freshId) (hk : ∀ r ∈ s.rows, r.key ≠ c.key)
      (hc : Admitted (snapshotChecks c.snapshot)) (hp : c.snapshot.purpose ≠ none) :
      Created cfg s c freshId ({ s with rows := s.rows ++ [c.row freshId] }.enqueue (paymentEvent .created (c.row freshId)))
        (.returned (c.row freshId) false)

theorem rowChecks_ok : Admitted (rowChecks db (c.row freshId)) ↔
    Admitted (snapshotChecks c.snapshot) ∧ ∀ r ∈ db.rows, r.id ≠ freshId := by
  unfold rowChecks
  rw [Admitted.append]
  have hone : Admitted [("payment_pkey", !db.rows.any (·.id = (c.row freshId).id))] ↔ ∀ r ∈ db.rows, r.id ≠ freshId := by
    simp only [Admitted, List.forall_mem_cons, Bool.not_eq_true', List.any_eq_false, decide_eq_true_eq]
    exact ⟨fun h => h.1, fun h => ⟨h, by simp⟩⟩
  rw [hone]
  rfl

theorem createTx_ok
    (h : createTx cfg db c freshId = .ok (t, a)) : Created cfg db c freshId t a := by
  obtain ⟨u, hu, h⟩ := bind_eq_ok.mp h
  obtain ⟨hchk, hid⟩ := rowChecks_ok.mp (enforce_ok.mp hu)
  clear hu
  split at h
  · rename_i r hr
    cases h
    obtain ⟨hm, hk⟩ := find_some hr
    exact .existing r hm hk
  · rename_i hn
    obtain ⟨v, hv, h⟩ := bind_eq_ok.mp h
    have hin := enforce_ok.mp hv
    simp only [insertedChecks, List.forall_mem_cons, decide_eq_true_eq] at hin
    cases h
    exact .inserted hid (find_none hn) hchk hin.2.1.1

theorem Created.inv (h : Created cfg db c freshId t a)
    (hi : Inv db) : Inv t := by
  cases h with
  | existing r hr hk => exact hi
  | inserted hid hk hc hp =>
    have hfresh : (c.row freshId).id ∉ ({ db with rows := db.rows ++ [c.row freshId] } : Db).createdIds := by
      have hsame : ({ db with rows := db.rows ++ [c.row freshId] } : Db).createdIds = db.createdIds := rfl
      rw [hsame, hi.created]
      intro hm
      obtain ⟨r, hr, hrid⟩ := List.mem_map.mp hm
      exact hid r hr hrid
    constructor
    · rw [enqueue_rows]
      exact nodup_append_row hi.ids hid
    · rw [enqueue_rows]
      exact nodup_append_row hi.keys hk
    · intro r hr
      rw [enqueue_rows] at hr
      rcases mem_append_row hr with hr | rfl
      · exact hi.checked r hr
      · exact hc
    · rw [enqueue_creation hfresh, enqueue_rows, List.map_append]
      exact congrArg (· ++ _) hi.created
    · intro e he
      rw [enqueue_rows]
      rcases enqueue_outbox he with he | rfl
      · obtain ⟨r, hr, hd⟩ := hi.events e he
        exact ⟨r, List.mem_append_left _ hr, hd⟩
      · exact ⟨_, List.mem_append_right _ (List.mem_singleton_self _), describes_paymentEvent _ _⟩

theorem Created.kept (h : Created cfg db c freshId t a) :
    RowsKept db t := by
  cases h with
  | existing r hr hk => exact fun q hq => ⟨q, hq, .refl q⟩
  | inserted hid hk hc hp =>
    intro q hq
    rw [enqueue_rows]
    exact ⟨q, List.mem_append_left _ hq, .refl q⟩

inductive Moved (s t : Db) : Prop
  | same (h : t = s)
  | moved (r q : PaymentRow) (hr : r ∈ s.rows) (hq : SameSnapshot r q)
      (ht : t.rows = replaceRow (·.id) q s.rows)
      (ho : t.outbox = s.outbox ∨ ∃ name, name ≠ .created ∧ t = (({ s with rows := t.rows } : Db).enqueue (paymentEvent name q)))

theorem transition_moved (db : Db) (id : Uuid) (status : PaymentStatus) (announced : Option EventName) :
    Moved db (transition db id status announced) := by
  unfold transition
  split
  · exact .same rfl
  · rename_i r hr
    have hid : r.id = id := by simpa using List.find?_some hr
    have hm := List.mem_of_find?_eq_some hr
    subst hid
    dsimp only
    split
    · exact .moved r (r.moved status) hm ⟨rfl, rfl, rfl, rfl⟩ rfl (.inl rfl)
    · exact .moved r (r.moved status) hm ⟨rfl, rfl, rfl, rfl⟩ rfl (.inl rfl)
    · rename_i name hname
      refine .moved r (r.moved status) hm ⟨rfl, rfl, rfl, rfl⟩ ?_ (.inr ⟨name, hname, ?_⟩)
      · rw [enqueue_rows]
        rfl
      · rw [enqueue_rows]

theorem Moved.kept (h : Moved db t) (hi : Inv db) : RowsKept db t := by
  cases h with
  | same h => exact fun r hr => ⟨r, h ▸ hr, .refl r⟩
  | moved r q hr hq ht ho =>
    intro x hx
    rw [ht]
    by_cases hid : x.id = q.id
    · obtain rfl : x = r := eq_of_key hi.ids hx hr (hid.trans hq.id)
      exact ⟨q, replaceRow_mem hx hid, hq⟩
    · exact ⟨x, replaceRow_other hx hid, .refl x⟩

theorem Moved.inv (h : Moved db t) (hi : Inv db) : Inv t := by
  have hkept := h.kept hi
  cases h with
  | same h => exact h ▸ hi
  | moved r q hr hq ht ho =>
    have hids : t.rows.map (·.id) = db.rows.map (·.id) := by
      rw [ht]
      exact map_replaceRow (f := fun x : PaymentRow => x.id) fun x hx hid => hid
    have hkeys : t.rows.map (·.key) = db.rows.map (·.key) := by
      rw [ht]
      refine map_replaceRow (f := PaymentRow.key) fun x hx hid => ?_
      rw [eq_of_key hi.ids hx hr (hid.trans hq.id)]
      exact hq.key.symm
    refine ⟨hids ▸ hi.ids, hkeys ▸ hi.keys, ?_, ?_, ?_⟩
    · intro x hx
      rw [ht] at hx
      rcases mem_replaceRow hx with rfl | ⟨hx, -⟩
      · rw [hq.snapshot]
        exact hi.checked r hr
      · exact hi.checked x hx
    · rw [hids, ← hi.created]
      rcases ho with ho | ⟨name, hne, ho⟩
      · simp only [Db.createdIds, ho]
      · rw [ho]
        exact enqueue_created (e := paymentEvent name q) hne
    · have hold : ∀ e ∈ db.outbox, ∃ x ∈ t.rows, Describes e x := by
        intro e he
        obtain ⟨x, hx, hd⟩ := hi.events e he
        obtain ⟨y, hy, hs⟩ := hkept x hx
        exact ⟨y, hy, hd.congr hs⟩
      intro e he
      rcases ho with ho | ⟨name, hne, ho⟩
      · exact hold e (ho ▸ he)
      · rw [ho] at he
        rcases enqueue_outbox he with he | rfl
        · exact hold e he
        · exact ⟨q, by rw [ht]; exact replaceRow_mem hr hq.id.symm, describes_paymentEvent _ _⟩

end

/-! ## The invariant of the requests -/

section
variable {cfg : CreationConfig} {s : Sys} {c : CreateCall} {r : PaymentRow}

/-- A call carries the candidate of its request, and stands where `create` is. -/
structure CallOk (cfg : CreationConfig) (c : CreateCall) : Prop where
  prepared : ∃ st, prepare cfg c.producer c.dto = .ok (c.candidate, st) ∧
    (c.stage = .replayHistorical ↔ st = .replayHistorical)

def AnswerOk (cfg : CreationConfig) (db : Db) (x : Answered) : Prop :=
  ∀ p replayed, x.answer = .returned p replayed → (∃ r ∈ db.rows, SameSnapshot p r) ∧
    ∃ c st, prepare cfg x.producer x.dto = .ok (c, st) ∧ p.key = c.key ∧ p.snapshot = c.snapshot

structure SysInv (cfg : CreationConfig) (s : Sys) : Prop where
  db : Inv s.db
  calls : ∀ c ∈ s.calls, CallOk cfg c
  answers : ∀ x ∈ s.answers, AnswerOk cfg s.db x

theorem AnswerOk.kept {u : Db} {x : Answered} (h : AnswerOk cfg u x) (hk : RowsKept u t) : AnswerOk cfg t x := by
  intro p replayed hp
  obtain ⟨⟨r, hr, hs⟩, hc⟩ := h p replayed hp
  obtain ⟨q, hq, hsq⟩ := hk r hr
  exact ⟨⟨q, hq, hs.trans hsq⟩, hc⟩

variable {db : Db}

theorem answerOk_refused {producer : String} {dto : CreatePaymentDto} {e : PaymentError} :
    AnswerOk cfg db ⟨producer, dto, .refused e⟩ := by
  intro p replayed hp
  cases hp

theorem CallOk.answer (h : CallOk cfg c) (hr : r ∈ db.rows)
    (hk : r.key = c.candidate.key) (hs : r.snapshot = c.candidate.snapshot) (replayed : Bool) :
    AnswerOk cfg db ⟨c.producer, c.dto, .returned r replayed⟩ := by
  intro p b hp
  cases hp
  obtain ⟨st, hst, -⟩ := h.prepared
  exact ⟨⟨r, hr, .refl r⟩, c.candidate, st, hst, hk, hs⟩

theorem CallOk.replay (h : CallOk cfg c) (hr : r ∈ db.rows)
    (hk : r.key = c.candidate.key) : AnswerOk cfg db ⟨c.producer, c.dto, PaymentCreation.replay r c.candidate⟩ := by
  unfold PaymentCreation.replay
  split
  · rename_i hid
    exact h.answer hr hk ((identical_iff hk).mp hid) true
  · exact answerOk_refused

structure StepEffect (cfg : CreationConfig) (s t : Sys) : Prop where
  inv : Inv t.db
  kept : RowsKept s.db t.db
  calls : ∀ c ∈ t.calls, c ∈ s.calls ∨ CallOk cfg c
  answered : t.answers = s.answers ∨ ∃ x, t.answers = x :: s.answers ∧ AnswerOk cfg t.db x ∧
    ((∃ p, x.answer = .returned p false) ∨ t.db = s.db)

theorem rowsKept_refl (db : Db) : RowsKept db db := fun r hr => ⟨r, hr, .refl r⟩

section
variable (h : SysInv cfg s)
include h

theorem StepEffect.idle : StepEffect cfg s s :=
  ⟨h.db, rowsKept_refl s.db, fun _ hc => .inl hc, .inl rfl⟩

theorem StepEffect.answer (c : CreateCall)
    (ha : AnswerOk cfg s.db ⟨c.producer, c.dto, a⟩) : StepEffect cfg s (s.answer c a) :=
  ⟨h.db, rowsKept_refl s.db, fun _ hd => .inl (List.mem_of_mem_erase hd), .inr ⟨_, rfl, ha, .inr rfl⟩⟩

theorem StepEffect.goOn (hc : c ∈ s.calls) {stage : Stage}
    (hst : stage ≠ .replayHistorical) (hcs : c.stage ≠ .replayHistorical) : StepEffect cfg s (s.goOn c stage) := by
  refine ⟨h.db, rowsKept_refl s.db, fun d hd => ?_, .inl rfl⟩
  rcases List.mem_cons.mp hd with rfl | hd
  · obtain ⟨st, hp, hiff⟩ := (h.calls c hc).prepared
    exact .inr ⟨st, hp, by simp [hst, ← hiff, hcs]⟩
  · exact .inl (List.mem_of_mem_erase hd)

theorem proceed_effect (hc : c ∈ s.calls) (freshId : Uuid) :
    StepEffect cfg s (proceed cfg s c freshId) := by
  have hok := h.calls c hc
  unfold proceed
  split
  · split
    · rename_i prior hf
      obtain ⟨hr, hk⟩ := find_some hf
      split
      · rename_i hid
        exact .answer h c (hok.answer hr hk ((identical_iff hk).mp hid.2) true)
      · exact .answer h c answerOk_refused
    · exact .answer h c answerOk_refused
  · rename_i hst
    split
    · rename_i prior hf
      obtain ⟨hr, hk⟩ := find_some hf
      exact .answer h c (hok.replay hr hk)
    · exact .goOn h hc (by simp) (by simp [hst])
  · exact .idle h
  · split
    · rename_i t a ht
      have hcr := createTx_ok ht
      refine ⟨hcr.inv h.db, hcr.kept, fun d hd => .inl (List.mem_of_mem_erase hd), .inr ⟨_, rfl, ?_, ?_⟩⟩
      · cases hcr with
        | existing r hr hk => exact hok.replay hr hk
        | inserted hid hk hchk hp =>
          exact hok.answer mem_created rfl rfl false
      · cases hcr with
        | existing r hr hk => exact .inr rfl
        | inserted hid hk hchk hp => exact .inl ⟨_, rfl⟩
    · exact .answer h c answerOk_refused

theorem step_effect (a : Action) : StepEffect cfg s (step cfg s a) := by
  cases a with
  | create producer dto =>
    simp only [step]
    split
    · exact ⟨h.db, rowsKept_refl s.db, fun c hc => .inl hc, .inr ⟨_, rfl, answerOk_refused, .inr rfl⟩⟩
    · split
      · exact ⟨h.db, rowsKept_refl s.db, fun c hc => .inl hc, .inr ⟨_, rfl, answerOk_refused, .inr rfl⟩⟩
      · rename_i candidate stage hp
        refine ⟨h.db, rowsKept_refl s.db, fun c hc => ?_, .inl rfl⟩
        rcases List.mem_cons.mp hc with rfl | hc
        · exact .inr ⟨stage, hp, Iff.rfl⟩
        · exact .inl hc
  | proceed c freshId =>
    simp only [step]
    split
    · rename_i hc
      exact proceed_effect h hc freshId
    · exact .idle h
  | scopeAnswer c refusal =>
    simp only [step]
    split
    · rename_i hc
      split
      · exact .goOn h hc.1 (by simp) (by simp [hc.2])
      · exact .answer h c answerOk_refused
    · exact .idle h
  | lose c => exact ⟨h.db, rowsKept_refl s.db, fun d hd => .inl (List.mem_of_mem_erase hd), .inl rfl⟩
  | transition id status announced =>
    have hm := transition_moved s.db id status announced
    exact ⟨hm.inv h.db, hm.kept h.db, fun c hc => .inl hc, .inl rfl⟩

end

theorem SysInv.step (h : SysInv cfg s) (a : Action) : SysInv cfg (step cfg s a) := by
  obtain ⟨hinv, hkept, hcalls, hans⟩ := step_effect h a
  refine ⟨hinv, fun c hc => (hcalls c hc).elim (h.calls c) id, fun x hx => ?_⟩
  rcases hans with hans | ⟨y, hans, hy, -⟩
  · rw [hans] at hx
    exact (h.answers x hx).kept hkept
  · rw [hans] at hx
    rcases List.mem_cons.mp hx with rfl | hx
    · exact hy
    · exact (h.answers x hx).kept hkept

theorem initial_inv (h : Initial s) : SysInv cfg s := by
  refine ⟨⟨h.ids, h.keys, h.checked, h.created, h.events⟩, ?_, ?_⟩
  · rw [h.calls]; intro c hc; cases hc
  · rw [h.answers]; intro x hx; cases hx

theorem Runs.inv (h : Runs cfg s) : SysInv cfg s :=
  h.invariant (fun _ h0 => initial_inv h0) fun _ _ _ ih ⟨a, ha⟩ => ha ▸ ih.step a

theorem Runs.run (h : Runs cfg s) (as : List Action) : Runs cfg (run cfg s as) := by
  induction as generalizing s with
  | nil => exact h
  | cons a as ih => exact ih (.step h ⟨a, rfl⟩)

/-! ## A request when the payment is there -/

theorem createTx_first {c : Candidate} (hnew : ∀ q ∈ s.db.rows, q.id ≠ freshId ∧ q.key ≠ c.key)
    (hchk : Admitted (snapshotChecks c.snapshot)) (hins : Admitted (insertedChecks cfg (c.row freshId))) :
    createTx cfg s.db c freshId =
      .ok ({ s.db with rows := s.db.rows ++ [c.row freshId] }.enqueue (paymentEvent .created (c.row freshId)),
        .returned (c.row freshId) false) := by
  have hfind : s.db.find c = none := by
    simpa [Db.find] using fun q hq => (hnew q hq).2
  refine bind_eq_ok.mpr ⟨(), enforce_ok.mpr (rowChecks_ok.mpr ⟨hchk, fun q hq => (hnew q hq).1⟩), ?_⟩
  rw [hfind]
  exact bind_eq_ok.mpr ⟨(), enforce_ok.mpr hins, rfl⟩

/-- The transaction of a request whose key is taken: the payment for the same snapshot, and otherwise the conflict,
unless the request's own row breaks a CHECK of the table. -/
theorem createTx_taken {c : Candidate} {r : PaymentRow} {freshId : Uuid} (h : Inv s.db) (hr : r ∈ s.db.rows)
    (hk : r.key = c.key) (hid : ∀ q ∈ s.db.rows, q.id ≠ freshId) :
    (r.snapshot = c.snapshot → createTx cfg s.db c freshId = .ok (s.db, .returned r true)) ∧
    (r.snapshot ≠ c.snapshot → createTx cfg s.db c freshId = .ok (s.db, .refused conflict) ∨
      ∃ e, createTx cfg s.db c freshId = .error e ∧ ¬ Admitted (snapshotChecks c.snapshot)) := by
  have hfind := find_of_key h.keys hr hk
  have hpass : Admitted (snapshotChecks c.snapshot) → createTx cfg s.db c freshId = .ok (s.db, replay r c) := by
    intro hc
    refine bind_eq_ok.mpr ⟨(), enforce_ok.mpr (rowChecks_ok.mpr ⟨hc, hid⟩), ?_⟩
    rw [hfind]
  constructor
  · intro hs
    rw [hpass (hs ▸ h.checked r hr), replay, if_pos ((identical_iff hk).mpr hs)]
  · intro hs
    by_cases hc : Admitted (snapshotChecks c.snapshot)
    · left
      rw [hpass hc, replay, if_neg (fun hi => hs ((identical_iff hk).mp hi))]
    · right
      cases ht : createTx cfg s.db c freshId with
      | error e => exact ⟨e, rfl, hc⟩
      | ok p =>
        obtain ⟨u, hu, -⟩ := bind_eq_ok.mp ht
        exact absurd (rowChecks_ok.mp (enforce_ok.mp hu)).1 hc

theorem proceed_identical (h : SysInv cfg s) (hc : c ∈ s.calls) (hr : r ∈ s.db.rows)
    (hk : r.key = c.candidate.key) (hs : r.snapshot = c.candidate.snapshot)
    (hid : ∀ q ∈ s.db.rows, q.id ≠ freshId) (hst : c.stage ≠ .scope) :
    proceed cfg s c freshId = s.answer c (.returned r true) := by
  have hfind := find_of_key h.db.keys hr hk
  have hsame := (identical_iff hk).mpr hs
  obtain ⟨st, hp, hiff⟩ := (h.calls c hc).prepared
  unfold proceed
  split
  · rename_i hst
    have hn : r.snapshot.purpose = none := by
      rw [hs, (prepare_ok hp).purpose]
      exact hiff.mp hst
    rw [hfind]
    exact if_pos ⟨hn, hsame⟩
  · rw [hfind]
    simp only [replay, if_pos hsame]
  · rename_i hscope
    exact absurd hscope hst
  · rw [(createTx_taken h.db hr hk hid).1 hs]

theorem proceed_different (h : SysInv cfg s) (hr : r ∈ s.db.rows)
    (hk : r.key = c.candidate.key) (hs : r.snapshot ≠ c.candidate.snapshot)
    (hid : ∀ q ∈ s.db.rows, q.id ≠ freshId) (hst : c.stage ≠ .scope) :
    ∃ e, proceed cfg s c freshId = s.answer c (.refused e) ∧
      (e = conflict ∨ c.stage = .replayHistorical ∨
        (c.stage = .insert ∧ ¬ Admitted (snapshotChecks c.candidate.snapshot))) := by
  have hfind := find_of_key h.db.keys hr hk
  have hdiff : ¬ isIdenticalSnapshot r c.candidate := fun hi => hs ((identical_iff hk).mp hi)
  unfold proceed
  split
  · rename_i hh
    rw [hfind]
    exact ⟨_, if_neg fun hi => hdiff hi.2, .inr (.inl hh)⟩
  · rw [hfind]
    refine ⟨conflict, ?_, .inl rfl⟩
    simp only [replay, if_neg hdiff]
  · rename_i hscope
    exact absurd hscope hst
  · rename_i hins
    rcases (@createTx_taken cfg _ _ _ _ h.db hr hk hid).2 hs with ht | ⟨e, ht, hc⟩
    · rw [ht]
      exact ⟨conflict, rfl, .inl rfl⟩
    · rw [ht]
      exact ⟨e, rfl, .inr (.inr ⟨hins, hc⟩)⟩

/-! ## The rules of creation -/

structure CreationRules (cfg : CreationConfig) (s : Sys) : Prop where
  oneRow : ∀ r ∈ s.db.rows, ∀ q ∈ s.db.rows, r.key = q.key → r = q
  oneEvent : ∀ r ∈ s.db.rows, s.db.createdIds.count r.id = 1
  noOtherEvent : ∀ id ∈ s.db.createdIds, ∃ r ∈ s.db.rows, r.id = id
  kept : ∀ a, RowsKept s.db (step cfg s a).db
  /-- A payment that was given back is the request's, and it is there. -/
  returned : ∀ x ∈ s.answers, AnswerOk cfg s.db x
  /-- A step that refuses a request, or gives it a payment that was there, changes nothing. -/
  unchanged : ∀ a, (step cfg s a).answers = s.answers ∨ ∃ x, (step cfg s a).answers = x :: s.answers ∧
    ((∃ p, x.answer = .returned p false) ∨ (step cfg s a).db = s.db)
  /-- A request that its own checks refuse is answered at once. -/
  invalid : ∀ producer dto e, dto.valid → prepare cfg producer dto = .error e →
    step cfg s (.create producer dto) = { s with answers := ⟨producer, dto, .refused e⟩ :: s.answers }
  first : ∀ c ∈ s.calls, ∀ freshId, c.stage = .insert → (∀ q ∈ s.db.rows, q.id ≠ freshId ∧ q.key ≠ c.candidate.key) →
    Admitted (snapshotChecks c.candidate.snapshot) → Admitted (insertedChecks cfg (c.candidate.row freshId)) →
    c.candidate.row freshId ∈ (step cfg s (.proceed c freshId)).db.rows
  identical : ∀ c ∈ s.calls, ∀ r ∈ s.db.rows, ∀ freshId, (∀ q ∈ s.db.rows, q.id ≠ freshId) →
    r.key = c.candidate.key → r.snapshot = c.candidate.snapshot → c.stage ≠ .scope →
    step cfg s (.proceed c freshId) = s.answer c (.returned r true)
  different : ∀ c ∈ s.calls, ∀ r ∈ s.db.rows, ∀ freshId, (∀ q ∈ s.db.rows, q.id ≠ freshId) →
    r.key = c.candidate.key → r.snapshot ≠ c.candidate.snapshot → c.stage ≠ .scope →
    ∃ e, step cfg s (.proceed c freshId) = s.answer c (.refused e) ∧
      (e = conflict ∨ c.dto.purpose = none ∨ ¬ Admitted (snapshotChecks c.candidate.snapshot))
  /-- The Organization's scope refuses, or lets the request go on to its insert. -/
  inScope : ∀ c ∈ s.calls, c.stage = .scope → ∀ refusal, step cfg s (.scopeAnswer c refusal) =
    match refusal with
    | none => s.goOn c .insert
    | some e => s.answer c (.refused e)

theorem CallOk.historical (h : CallOk cfg c) (hst : c.stage = .replayHistorical) :
    c.dto.purpose = none := by
  obtain ⟨st, hp, hiff⟩ := h.prepared
  cases prepare_ok hp with
  | historical _ _ _ hp => exact hp
  | new _ _ _ scopeId _ _ _ hst' =>
    rw [hiff.mp hst] at hst'
    split at hst' <;> cases hst'

theorem creation_rules (h : Runs cfg s) : CreationRules cfg s := by
  have hi := h.inv
  refine ⟨?_, ?_, ?_, fun a => (step_effect hi a).kept, hi.answers, fun a => ?_, ?_, ?_, ?_, ?_, ?_⟩
  · intro r hr q hq hk
    exact eq_of_key hi.db.keys hr hq hk
  · intro r hr
    rw [hi.db.created]
    exact List.count_eq_one_of_mem hi.db.ids (List.mem_map_of_mem hr)
  · intro id hid
    rw [hi.db.created] at hid
    exact List.mem_map.mp hid
  · rcases (step_effect hi a).answered with hs | ⟨x, hx, -, ha⟩
    · exact .inl hs
    · exact .inr ⟨x, hx, ha⟩
  · intro producer dto e hv hp
    simp only [step, hv, Bool.not_true, Bool.false_eq_true, if_false, hp]
  · intro c hc freshId hst hnew hchk hins
    simp only [step, if_pos hc, proceed, hst, createTx_first hnew hchk hins]
    exact mem_created
  · intro c hc r hr freshId hid hk hs hst
    simp only [step, if_pos hc]
    exact proceed_identical hi hc hr hk hs hid hst
  · intro c hc r hr freshId hid hk hs hst
    simp only [step, if_pos hc]
    obtain ⟨e, he, hor⟩ := proceed_different hi hr hk hs hid hst
    refine ⟨e, he, hor.imp id fun hor => hor.imp (fun hh => ?_) And.right⟩
    exact (hi.calls c hc).historical hh
  · intro c hc hst refusal
    cases refusal with
    | none => exact if_pos ⟨hc, hst⟩
    | some e => exact if_pos ⟨hc, hst⟩

end

/-! ## Requests that never reach the comparison -/

def oneCurrency : CreationConfig := ⟨["EUR"], fun _ => [], ["EUR"]⟩

def emptySys : Sys := ⟨⟨[], []⟩, [], []⟩

theorem initial_empty : Initial emptySys := by
  constructor <;> simp [emptySys, Db.createdIds]

def purchase (organizationId : Option String) (currency : String) : CreatePaymentDto :=
  { paymentRequestId := "0b7e6a52-0000-4000-8000-00000000000A"
    sourceType := "invoice"
    sourceId := "i-1"
    payer := ⟨"user", "u-1"⟩
    seller := ⟨"company", "c-1"⟩
    organizationId
    amount := 1000
    currency
    expiresAt := none
    description := none
    reference := none
    purpose := some "non_entitlement"
    beneficiaryUserId := none }

def organization : String := "0b7e6a52-0000-4000-8000-00000000000b"

def purchaseCall (organizationId : Option String) (stage : Stage) : CreateCall :=
  let d := purchase organizationId "EUR"
  ⟨"billing-service", d, d.candidate "billing-service" (d.snapshot d.payer d.seller organizationId none), stage⟩

def otherCurrency : List Action :=
  [ .create "billing-service" (purchase none "EUR"), .proceed (purchaseCall none .insert) 1,
    .create "billing-service" (purchase none "USD") ]

def scopeUnavailable : List Action :=
  let call := purchaseCall (some organization)
  [ .create "billing-service" (purchase (some organization) "EUR"),
    .create "billing-service" (purchase (some organization) "EUR"),
    .proceed (call .lookUp) 1, .proceed (call .lookUp) 1,
    .scopeAnswer (call .scope) none, .proceed (call .insert) 1,
    .scopeAnswer (call .scope) (some (.http 503 "hierarchy_unavailable")) ]

/-- A different request is refused without the conflict, and an identical one is refused although its payment exists. -/
theorem not_every_request_is_compared :
    let compared := run oneCurrency emptySys otherCurrency
    let refused := run oneCurrency emptySys scopeUnavailable
    (Runs oneCurrency compared ∧ compared.db.rows.map (·.key) = [(purchaseCall none .insert).candidate.key] ∧
      compared.answers.head?.map (·.answer) = some (.refused (.http 422 "unsupported_currency"))) ∧
    (Runs oneCurrency refused ∧
      refused.db.rows.map (·.snapshot) = [(purchaseCall (some organization) .insert).candidate.snapshot] ∧
      refused.answers.head?.map (·.answer) = some (.refused (.http 503 "hierarchy_unavailable"))) :=
  ⟨⟨Runs.run (.init initial_empty) _, by decide, by decide⟩, Runs.run (.init initial_empty) _, by decide, by decide⟩

theorem creation_rules_replayed :
    let s := run oneCurrency emptySys (otherCurrency.take 2 ++
      [.transition 1 .cancelled (some .cancelled), .create "billing-service" (purchase none "EUR")])
    (step oneCurrency s (.proceed (purchaseCall none .insert) 2)).answers.head?.map (·.answer) =
        some (.returned ⟨1, "billing-service", "0b7e6a52-0000-4000-8000-00000000000a",
          (purchaseCall none .insert).candidate.snapshot, some false, .cancelled, 1⟩ true) ∧
      CreationRules oneCurrency s :=
  ⟨by decide, creation_rules (Runs.run (.init initial_empty) _)⟩

end NawaraCore.PaymentCreation
