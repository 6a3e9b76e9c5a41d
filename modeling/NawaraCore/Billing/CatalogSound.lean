import NawaraCore.Billing.Catalog

/-!
# When a creation is idempotent

Whatever else runs, a natural key has one row and no update changes its content. A call that
meets the row of its key answers it or names the conflict, unless it is a producer's price: its
replay reads in the transaction that the unique violation has aborted.
-/

namespace NawaraCore.Catalog

open Subscriptions (Uuid)

/-! ## Rows keep their content -/

@[simp] theorem content_archive (id : Uuid) (r : Row) : (r.archive id).content = r.content := by
  cases r with
  | product p => by_cases h : p.id = id <;> simp [Row.archive, Row.content, h]
  | price p => rfl

@[simp] theorem content_retire (id : Uuid) (now : Int) (r : Row) : (r.retire id now).content = r.content := by
  cases r with
  | product p => rfl
  | price p => by_cases h : p.id = id ∧ p.retiredAt = none <;> simp [Row.retire, Row.content, h]

theorem key_content (r : Row) : r.content.key = r.key := by
  cases r <;> rfl

theorem key_of_content {r s : Row} (h : r.content = s.content) : r.key = s.key := by
  rw [← key_content r, h, key_content]

theorem content_product {p q : ProductRow} (h : (Row.product p).content = (Row.product q).content) :
    p.subscriptionTarget = q.subscriptionTarget ∧ p.platformId = q.platformId := by
  simp only [Row.content, Row.product.injEq, ProductRow.mk.injEq] at h
  obtain ⟨-, -, -, -, -, -, -, -, ht, hp, -⟩ := h
  exact ⟨ht, hp⟩

/-- A change of the rows that keeps their content, with what other calls leave. -/
structure Grows (db db' : Db) : Prop where
  platforms : db.platforms <+: db'.platforms
  rows : db.rows.map Row.content <+: db'.rows.map Row.content

variable {b : BillingPlatform}

section
variable {db db' : Db} {row : Row} {n m : Nat} {call : Call} {id : Uuid}

theorem Grows.refl (db : Db) : Grows db db := ⟨List.prefix_rfl, List.prefix_rfl⟩

theorem find_prefix {α : Type} {l l' : List α} {p : α → Bool} {a : α} (h : l <+: l') (hf : l.find? p = some a) :
    l'.find? p = some a := by
  obtain ⟨t, rfl⟩ := h
  rw [List.find?_append, hf]
  rfl

theorem Grows.platform (h : Grows db db') (hb : db.platform id = some b) : db'.platform id = some b :=
  find_prefix h.platforms hb

theorem product_content (db : Db) (id : Uuid) : (db.product id).map (fun p => (Row.product p).content) =
    ((db.rows.map Row.content).findSome? (Row.productOf id)).map Row.product := by
  unfold Db.product
  induction db.rows with
  | nil => rfl
  | cons r rows ih =>
    rw [List.map_cons, List.findSome?_cons, List.findSome?_cons]
    cases r with
    | price p => exact ih
    | product p =>
      by_cases hp : p.id = id
      · simp [Row.content, Row.productOf, hp]
      · simp only [Row.content, Row.productOf, hp, if_false]
        exact ih

theorem Grows.product (h : Grows db db') {p : ProductRow} (hp : db.product id = some p) :
    ∃ p', db'.product id = some p' ∧ (Row.product p').content = (Row.product p).content := by
  have hold := product_content db id
  have hnew := product_content db' id
  rw [hp, Option.map_some] at hold
  obtain ⟨q, hq, hqp⟩ := Option.map_eq_some_iff.mp hold.symm
  obtain ⟨t, ht⟩ := h.rows
  rw [← ht, List.findSome?_append, hq] at hnew
  obtain ⟨p', hp', he⟩ := Option.map_eq_some_iff.mp hnew
  exact ⟨p', hp', he.trans hqp⟩

theorem Grows.mem (h : Grows db db') {r : Row} (hr : r ∈ db.rows) : ∃ r' ∈ db'.rows, r'.content = r.content := by
  have hm : r.content ∈ db'.rows.map Row.content := h.rows.subset (List.mem_map_of_mem hr)
  obtain ⟨r', hr', he⟩ := List.mem_map.mp hm
  exact ⟨r', hr', he⟩

theorem elapse_grows (db : Db) (e : Event) : Grows db (db.elapse e) := by
  cases e with
  | configure b =>
    unfold Db.elapse
    dsimp only
    split
    · exact .refl db
    · exact ⟨List.prefix_append _ _, List.prefix_rfl⟩
  | archive id => exact ⟨List.prefix_rfl, by simp [Db.elapse, Function.comp_def]⟩
  | retire id now => exact ⟨List.prefix_rfl, by simp [Db.elapse, Function.comp_def]⟩

theorem commit_grows {x : Session} {y : Option Session} (h : x.commit db n = some (db', y)) : Grows db db' := by
  unfold Session.commit at h
  split at h
  · cases h
    exact ⟨List.prefix_rfl, by simp⟩
  · cases h
    exact ⟨List.prefix_rfl, List.prefix_rfl⟩
  · cases h

/-! ## The row of a call -/

def Inserts (db : Db) (n : Nat) (row : Row) : Call → Prop
  | .createProduct producer input => row = .product (productRow n producer input) ∧ producer ≠ OWNER_CATALOG_PRODUCER
  | .createPrice _ input _ => row = .price (priceRow n input) ∧
    ∃ p, db.product input.productId = some p ∧ (p.subscriptionTarget = .none ∨ input.interval = .recurring)
  | .ownerProduct companyId platformId input => row = .product (ownerProductRow n companyId platformId input) ∧
    ∃ b, db.platform platformId = some b ∧ b.companyId = companyId
  | .ownerPrice _ platformId productId input _ => ∃ b, db.platform platformId = some b ∧
    row = .price (ownerPriceRow n productId b.currency input) ∧ ∃ p, db.product productId = some p ∧ p.platformId = some platformId

theorem Inserts.grows (h : Inserts db n row call) (hg : Grows db db') : Inserts db' n row call := by
  cases call with
  | createProduct producer input => exact h
  | createPrice caller input supported =>
    obtain ⟨hrow, p, hp, ht⟩ := h
    obtain ⟨p', hp', hc⟩ := hg.product hp
    refine ⟨hrow, p', hp', ?_⟩
    rw [(content_product hc).1]
    exact ht
  | ownerProduct companyId platformId input =>
    obtain ⟨hrow, b, hb, hc⟩ := h
    exact ⟨hrow, b, hg.platform hb, hc⟩
  | ownerPrice companyId platformId productId input supported =>
    obtain ⟨b, hb, hrow, p, hp, ht⟩ := h
    obtain ⟨p', hp', hc⟩ := hg.product hp
    refine ⟨b, hg.platform hb, hrow, p', hp', ?_⟩
    rw [(content_product hc).2]
    exact ht

theorem Inserts.before (h : Inserts db n row call) : db.before row = none := by
  cases call with
  | createProduct producer input =>
    obtain ⟨rfl, hp⟩ := h
    simp [Db.before, productRow, hp]
  | createPrice caller input supported =>
    obtain ⟨rfl, p, hp, ht⟩ := h
    unfold Db.before
    dsimp only [priceRow]
    rw [if_neg]
    rintro ⟨hi, x, hx, hxt⟩
    cases hp.symm.trans hx
    exact ht.elim hxt hi
  | ownerProduct companyId platformId input =>
    obtain ⟨rfl, b, hb, hc⟩ := h
    unfold Db.before
    dsimp only [ownerProductRow]
    rw [if_neg]
    rintro ⟨-, hno⟩
    exact hno ⟨rfl, rfl, platformId, rfl, b, hb, hc⟩
  | ownerPrice companyId platformId productId input supported =>
    obtain ⟨b, hb, rfl, -⟩ := h
    simp [Db.before, ownerPriceRow]

theorem Inserts.after (h : Inserts db n row call) {guard : String} (hg : db.after row = some guard) :
    (call.caught guard).named = true := by
  cases call with
  | createProduct producer input =>
    obtain ⟨rfl, -⟩ := h
    unfold Db.after at hg
    dsimp only at hg
    split at hg
    · cases hg
      rfl
    · cases hg
  | createPrice caller input supported =>
    obtain ⟨rfl, -⟩ := h
    unfold Db.after at hg
    dsimp only at hg
    split at hg
    · cases hg
      rfl
    · cases hg
  | ownerProduct companyId platformId input =>
    obtain ⟨rfl, b, hb, -⟩ := h
    simp [Db.after, ownerProductRow, hb] at hg
  | ownerPrice companyId platformId productId input supported =>
    obtain ⟨b, hb, rfl, p, hp, hpl⟩ := h
    simp [Db.after, ownerPriceRow, hb, hp, hpl] at hg

end

/-! ## Sessions -/

/-- Neither a savepoint nor `ON CONFLICT`: the producer's price. -/
def Call.bare (call : Call) : Bool := !call.savepoint && !call.onConflict

def Named (a : Answer) : Prop := ∃ e, a = .failed e ∧ e.named = true

def Met (db : Db) (row existing : Row) : Prop := existing.key = row.key ∧ ∃ r ∈ db.rows, r.content = existing.content

def Decided (db : Db) (n : Nat) (call : Call) (a : Answer) : Decision → Prop
  | .refused => Named a
  | .inserts row none => Inserts db n row call ∧ Named a
  | .inserts row (some existing) => Inserts db n row call ∧ Met db row existing ∧
    a = if call.bare then .failed (.database "25P02") else call.replayed row existing

def Taken (db : Db) (key : Key) : Prop := ∃ r ∈ db.rows, r.key = key

def Phase.Sound (db : Db) (n : Nat) (call : Call) : Phase → Prop
  | .begun => True
  | .insert row => Inserts db n row call
  | .aborted row => Inserts db n row call ∧ Taken db row.key ∧ call.onConflict = false
  | .replay row => Inserts db n row call ∧ Taken db row.key ∧ call.bare = false
  | .inserted row => Inserts db n row call ∧ ¬ Taken db row.key
  | .answered decision a => Decided db n call a decision

def Call.Admitted : Call → Prop
  | .createProduct producer _ => producer ≠ OWNER_CATALOG_PRODUCER
  | _ => True

structure Session.Sound (db : Db) (n : Nat) (x : Session) : Prop where
  admitted : x.call.Admitted
  phase : x.phase.Sound db n x.call

def Apart (x y : Session) : Prop := ∀ row row', x.phase = .inserted row → y.phase = .inserted row' → row.key ≠ row'.key

def Unique (db : Db) : Prop := (db.rows.map Row.key).Nodup

variable {key : Key}

section
variable {db db' : Db} {row existing : Row} {n m : Nat} {call : Call} {x y z : Session} {others : (Session → Bool) → Bool}

theorem Taken.grows (h : Taken db key) (hg : Grows db db') : Taken db' key := by
  obtain ⟨r, hr, hk⟩ := h
  obtain ⟨r', hr', hc⟩ := hg.mem hr
  exact ⟨r', hr', (key_of_content hc).trans hk⟩

theorem Met.grows (h : Met db row existing) (hg : Grows db db') : Met db' row existing := by
  obtain ⟨hk, r, hr, hc⟩ := h
  obtain ⟨r', hr', hc'⟩ := hg.mem hr
  exact ⟨hk, r', hr', hc'.trans hc⟩

theorem Decided.grows {a : Answer} {d : Decision} (h : Decided db n call a d) (hg : Grows db db') : Decided db' n call a d := by
  cases d with
  | refused => exact h
  | inserts row existing =>
    cases existing with
    | none => exact ⟨h.1.grows hg, h.2⟩
    | some existing => exact ⟨h.1.grows hg, h.2.1.grows hg, h.2.2⟩

theorem Session.Sound.grows (h : x.Sound db n) (hg : Grows db db')
    (hfree : ∀ row, x.phase = .inserted row → Taken db' row.key → Taken db row.key) : x.Sound db' n := by
  refine ⟨h.admitted, ?_⟩
  have hp := h.phase
  cases hx : x.phase with
  | begun => trivial
  | insert row =>
    rw [hx] at hp
    exact Inserts.grows hp hg
  | aborted row =>
    rw [hx] at hp
    exact ⟨hp.1.grows hg, hp.2.1.grows hg, hp.2.2⟩
  | replay row =>
    rw [hx] at hp
    exact ⟨hp.1.grows hg, hp.2.1.grows hg, hp.2.2⟩
  | inserted row =>
    rw [hx] at hp
    exact ⟨hp.1.grows hg, fun ht => hp.2 (hfree row hx ht)⟩
  | answered d a =>
    rw [hx] at hp
    exact Decided.grows hp hg

theorem read_some (h : db.read key = some row) : row ∈ db.rows ∧ row.key = key := by
  have hk := List.find?_some h
  exact ⟨List.mem_of_find?_eq_some h, by simpa using hk⟩

theorem read_none (h : db.read key = none) : ¬ Taken db key := by
  rintro ⟨r, hr, hk⟩
  have hno := List.find?_eq_none.mp h r hr
  simp [hk] at hno

theorem met_of_read (h : db.read row.key = some existing) : Met db row existing :=
  ⟨(read_some h).2, existing, (read_some h).1, rfl⟩

/-! ### The statements -/

theorem moveTo_next {phase : Phase} (h : x.moveTo phase = .next y) : y.call = x.call ∧ y.phase = phase := by
  unfold Session.moveTo at h
  cases h
  exact ⟨rfl, rfl⟩

def Begins (db : Db) (n : Nat) (x y : Session) : Prop :=
  y.call = x.call ∧ ((∃ e : Failure, e.named = true ∧ y.phase = .answered .refused (.failed e)) ∨
    ∃ row, y.phase = .insert row ∧ Inserts db n row x.call)

theorem begins_refused {e : Failure} (he : e.named = true) (h : x.refuse e = .next y) : Begins db n x y := by
  obtain ⟨hc, hp⟩ := moveTo_next h
  exact ⟨hc, .inl ⟨e, he, hp⟩⟩

variable {companyId : String} {platformId : Uuid}

theorem ownerPlatform_ok
    (h : db.ownerPlatform companyId platformId = .ok b) : db.platform platformId = some b ∧ b.companyId = companyId := by
  unfold Db.ownerPlatform at h
  split at h
  · cases h
  · rename_i b' hb
    split at h
    · cases h
    · rename_i hc
      cases h
      exact ⟨hb, not_not.mp hc⟩

theorem ownerPlatform_error {e : Failure}
    (h : db.ownerPlatform companyId platformId = .error e) : e.named = true := by
  unfold Db.ownerPlatform at h
  split at h
  · cases h
    rfl
  · split at h <;> cases h
    rfl

theorem begin_begins (ha : x.call.Admitted) (h : x.begin db others n = .next y) : Begins db n x y := by
  unfold Session.begin at h
  cases hcall : x.call with
  | createProduct producer input =>
    rw [hcall] at h ha
    obtain ⟨hc, hp⟩ := moveTo_next h
    exact ⟨hc, .inr ⟨_, hp, by rw [hcall]; exact ⟨rfl, ha⟩⟩⟩
  | createPrice caller input supported =>
    simp only [hcall] at h
    split at h
    · exact begins_refused rfl h
    split at h
    · cases h
    split at h
    · exact begins_refused rfl h
    rename_i p hp
    split at h
    · exact begins_refused rfl h
    split at h
    · exact begins_refused rfl h
    rename_i ht
    cases h
    refine ⟨hcall.symm, .inr ⟨_, rfl, ?_⟩⟩
    rw [hcall]
    refine ⟨rfl, p, hp, ?_⟩
    by_contra hno
    exact ht (not_or.mp hno)
  | ownerProduct companyId platformId input =>
    simp only [hcall] at h
    split at h
    · rename_i e he
      exact begins_refused (ownerPlatform_error he) h
    rename_i b hb
    obtain ⟨hb, hcompany⟩ := ownerPlatform_ok hb
    obtain ⟨hc, hp⟩ := moveTo_next h
    refine ⟨hc, .inr ⟨_, hp, ?_⟩⟩
    rw [hcall, hcompany]
    exact ⟨rfl, b, hb, hcompany⟩
  | ownerPrice companyId platformId productId input supported =>
    simp only [hcall] at h
    split at h
    · rename_i e he
      exact begins_refused (ownerPlatform_error he) h
    rename_i b hb
    obtain ⟨hb, -⟩ := ownerPlatform_ok hb
    split at h
    · cases h
    split at h
    · exact begins_refused rfl h
    rename_i p hp
    split at h
    · exact begins_refused rfl h
    rename_i howner
    split at h
    · exact begins_refused rfl h
    cases h
    refine ⟨hcall.symm, .inr ⟨_, rfl, ?_⟩⟩
    rw [hcall]
    exact ⟨b, hb, rfl, p, hp, not_not.mp (not_or.mp howner).2⟩

section
variable (hi : Inserts db n row x.call)
include hi

theorem insert_sound (h : x.insert db others row = .next y) :
    y.call = x.call ∧ y.phase.Sound db n x.call ∧
      ∀ r, y.phase = .inserted r → r = row ∧ others (Session.inserted row.key) = false := by
  unfold Session.insert at h
  rw [hi.before] at h
  dsimp only at h
  split at h
  · cases h
  rename_i hothers
  split at h
  · rename_i existing hread
    obtain ⟨hc, hp⟩ := moveTo_next h
    have htaken : Taken db row.key := ⟨existing, read_some hread⟩
    rw [hp]
    cases ho : x.call.onConflict with
    | true => exact ⟨hc, ⟨hi, htaken, by simp [Call.bare, ho]⟩, nofun⟩
    | false => exact ⟨hc, ⟨hi, htaken, ho⟩, nofun⟩
  rename_i hread
  split at h
  · rename_i guard hguard
    obtain ⟨hc, hp⟩ := moveTo_next h
    rw [hp]
    exact ⟨hc, ⟨hi, _, rfl, hi.after hguard⟩, fun r hr => by cases hr⟩
  · obtain ⟨hc, hp⟩ := moveTo_next h
    rw [hp]
    refine ⟨hc, ⟨hi, read_none hread⟩, fun r hr => ?_⟩
    cases hr
    exact ⟨rfl, by simpa using hothers⟩

theorem recover_sound (ht : Taken db row.key) (ho : x.call.onConflict = false)
    (h : x.recover db row = .next y) : y.call = x.call ∧ y.phase.Sound db n x.call ∧ ∀ r, y.phase ≠ .inserted r := by
  unfold Session.recover at h
  split at h
  · rename_i hs
    obtain ⟨hc, hp⟩ := moveTo_next h
    rw [hp]
    exact ⟨hc, ⟨hi, ht, by simp [Call.bare, hs]⟩, fun r hr => by cases hr⟩
  · rename_i hs
    obtain ⟨hc, hp⟩ := moveTo_next h
    rw [hp]
    have hbare : x.call.bare = true := by simp [Call.bare, hs, ho]
    refine ⟨hc, ?_, fun r hr => by cases hr⟩
    cases hread : db.read row.key with
    | none => exact absurd ht (read_none hread)
    | some existing => exact ⟨hi, met_of_read hread, by rw [if_pos hbare]⟩

theorem replay_sound (ht : Taken db row.key) (hb : x.call.bare = false)
    (h : x.replay db row = .next y) : y.call = x.call ∧ y.phase.Sound db n x.call ∧ ∀ r, y.phase ≠ .inserted r := by
  unfold Session.replay at h
  split at h
  · rename_i hread
    exact absurd ht (read_none hread)
  · rename_i existing hread
    obtain ⟨hc, hp⟩ := moveTo_next h
    rw [hp]
    exact ⟨hc, ⟨hi, met_of_read hread, by simp [hb]⟩, fun r hr => by cases hr⟩

end

theorem exec_sound (hx : x.Sound db n) (h : x.exec db others n = .next y) :
    y.Sound db n ∧ ∀ r, y.phase = .inserted r → others (Session.inserted r.key) = false := by
  have hp := hx.phase
  unfold Session.exec at h
  split at h
  · obtain ⟨hc, hbegin⟩ := begin_begins hx.admitted h
    refine ⟨⟨by rw [hc]; exact hx.admitted, ?_⟩, ?_⟩
    · rw [hc]
      rcases hbegin with ⟨e, he, hy⟩ | ⟨row, hy, hi⟩ <;> rw [hy]
      · exact ⟨e, rfl, he⟩
      · exact hi
    · intro r hr
      rcases hbegin with ⟨e, he, hy⟩ | ⟨row, hy, hi⟩ <;> rw [hy] at hr <;> cases hr
  · rename_i row hphase
    rw [hphase] at hp
    obtain ⟨hc, hs, hins⟩ := insert_sound hp h
    refine ⟨⟨by rw [hc]; exact hx.admitted, by rw [hc]; exact hs⟩, fun r hr => ?_⟩
    obtain ⟨rfl, ho⟩ := hins r hr
    exact ho
  · rename_i row hphase
    rw [hphase] at hp
    obtain ⟨hc, hs, hno⟩ := recover_sound hp.1 hp.2.1 hp.2.2 h
    exact ⟨⟨by rw [hc]; exact hx.admitted, by rw [hc]; exact hs⟩, fun r hr => absurd hr (hno r)⟩
  · rename_i row hphase
    rw [hphase] at hp
    obtain ⟨hc, hs, hno⟩ := replay_sound hp.1 hp.2.1 hp.2.2 h
    exact ⟨⟨by rw [hc]; exact hx.admitted, by rw [hc]; exact hs⟩, fun r hr => absurd hr (hno r)⟩
  · cases h
  · cases h

end

/-! ## The law of a step -/

def Answer.created : Answer → Option Row
  | .row r true => some r
  | _ => none

/-- What a call that has ended answered: a refusal by name; its own row, or a named refusal of it; the row that
its insert met when that is the same, else the conflict. -/
def Lawful (db : Db) (f : Finished) : Prop :=
  match f.decision with
  | .refused => Named f.answer
  | .inserts row none => Inserts db f.id row f.call ∧ (f.answer = .row row true ∨ Named f.answer)
  | .inserts row (some existing) => Inserts db f.id row f.call ∧ Met db row existing ∧ f.answer = f.call.replayed row existing

def newAnswers (db db' : Db) : List Finished := db'.answers.drop db.answers.length

/-- Rows keep their content, and only what a call answers as created is new. -/
structure StepLaw (db db' : Db) : Prop where
  unique : Unique db'
  written : db'.rows.map Row.content =
    db.rows.map Row.content ++ ((newAnswers db db').filterMap fun f => f.answer.created).map Row.content
  answers : db.answers <+: db'.answers
  lawful : ∀ f ∈ newAnswers db db', Lawful db' f

def Recovers (_ : Db) (_ : Nat) (x : Session) : Prop :=
  ∀ row existing a, x.phase = .answered (.inserts row (some existing)) a → x.call.bare = false

section
variable {db db' : Db} {row existing : Row} {n m : Nat} {x y z : Session}

theorem Unique.of_content (hc : db'.rows.map Row.content = db.rows.map Row.content) (h : Unique db) : Unique db' := by
  have hkeys : ∀ l : List Row, l.map Row.key = (l.map Row.content).map Row.key := by
    intro l
    rw [List.map_map]
    exact List.map_congr_left fun r _ => (key_content r).symm
  unfold Unique at h ⊢
  rw [hkeys, hc, ← hkeys]
  exact h

theorem elapse_content (db : Db) (e : Event) : (db.elapse e).rows.map Row.content = db.rows.map Row.content := by
  cases e with
  | configure b =>
    unfold Db.elapse
    dsimp only
    split <;> rfl
  | archive id => simp [Db.elapse, Function.comp_def]
  | retire id now => simp [Db.elapse, Function.comp_def]

theorem elapse_answers (db : Db) (e : Event) : (db.elapse e).answers = db.answers := by
  cases e with
  | configure b =>
    unfold Db.elapse
    dsimp only
    split <;> rfl
  | archive id => rfl
  | retire id now => rfl

theorem taken_of_content (hc : db'.rows.map Row.content = db.rows.map Row.content) (h : Taken db' key) : Taken db key := by
  obtain ⟨r, hr, hk⟩ := h
  have hm : r.content ∈ db.rows.map Row.content := hc ▸ List.mem_map_of_mem hr
  obtain ⟨r', hr', he⟩ := List.mem_map.mp hm
  exact ⟨r', hr', (key_of_content he).trans hk⟩

variable {o : Option Session}

theorem commit_cases (h : x.commit db n = some (db', o)) : o = none ∧
    ((∃ row, x.phase = .inserted row ∧ db' = { db with
        rows := db.rows ++ [row]
        answers := db.answers ++ [⟨n, x.call, .inserts row none, .row row true⟩] }) ∨
      ∃ d a, x.phase = .answered d a ∧ db' = { db with answers := db.answers ++ [⟨n, x.call, d, a⟩] }) := by
  unfold Session.commit at h
  split at h
  · rename_i row hp
    cases h
    exact ⟨rfl, .inl ⟨row, hp, rfl⟩⟩
  · rename_i d a hp
    cases h
    exact ⟨rfl, .inr ⟨d, a, hp, rfl⟩⟩
  · cases h

theorem unique_append (h : Unique db) (hfree : ¬ Taken db row.key) (answers : List Finished) :
    Unique { db with
      rows := db.rows ++ [row]
      answers } :=
  nodup_append_row h fun r hr hk => hfree ⟨r, hr, hk⟩

theorem catalog_keeps (ok : Db → Nat → Session → Prop) :
    catalog.Keeps (fun _ => Unique) (fun db n x => x.Sound db n) Apart ok where
  symm x y h := fun r r' hr hr' he => h r' r hr' hr he.symm
  fresh _ _ h := h
  start n db call x h hx := by
    have hstart : x.call.Admitted ∧ x.phase = .begun := by
      cases call with
      | createProduct producer input =>
        simp only [catalog, Call.start] at hx
        split at hx
        · cases hx
        · rename_i hp
          cases hx
          exact ⟨hp, rfl⟩
      | _ =>
        cases hx
        exact ⟨trivial, rfl⟩
    obtain ⟨ha, hp⟩ := hstart
    refine ⟨⟨ha, by rw [hp]; trivial⟩, fun y r r' hr => ?_⟩
    rw [hp] at hr
    cases hr
  exec n db others m x y h hx hy := by
    obtain ⟨hs, hins⟩ := exec_sound hx hy
    refine ⟨hs, fun z hz hxz r r' hr hr' he => ?_⟩
    have hno := hz _ (hins r hr)
    simp [Session.inserted, hr', he] at hno
  commit n db m x db' o hm h hx hc := by
    intro hcommit
    have hg := commit_grows hcommit
    obtain ⟨rfl, hcase⟩ := commit_cases hcommit
    rcases hcase with ⟨row, hp, rfl⟩ | ⟨d, a, hp, rfl⟩
    · have hphase := hx.phase
      rw [hp] at hphase
      refine ⟨unique_append h hphase.2 _, fun z hz => (by cases hz), fun k z hk hz hapart => ?_⟩
      refine hz.grows hg fun r hr ht => ?_
      obtain ⟨r', hr', hkey⟩ := ht
      rcases mem_append_row hr' with hr' | hr'
      · exact ⟨r', hr', hkey⟩
      · rw [hr'] at hkey
        exact absurd hkey.symm (hapart r row hr hp)
    · exact ⟨h, fun z hz => (by cases hz), fun k z hk hz hapart => hz.grows hg fun r hr ht => ht⟩
  elapse n db e h := by
    refine ⟨h.of_content (elapse_content db e), fun m x hx => ?_⟩
    exact hx.grows (elapse_grows db e) fun r hr ht => taken_of_content (elapse_content db e) ht

theorem stepLaw_same (h : Unique db') (hc : db'.rows.map Row.content = db.rows.map Row.content)
    (ha : db'.answers = db.answers) : StepLaw db db' := by
  have hnew : newAnswers db db' = [] := by
    unfold newAnswers
    rw [ha, List.drop_length]
  refine ⟨h, ?_, ha ▸ List.prefix_rfl, ?_⟩
  · rw [hnew, hc]
    simp
  · rw [hnew]
    intro f hf
    cases hf

theorem newAnswers_append (db : Db) (rows : List Row) (f : Finished) : newAnswers db { db with
    rows
    answers := db.answers ++ [f] } = [f] := by
  unfold newAnswers
  dsimp only
  rw [List.drop_left]

theorem stepLaw_answer (h : Unique db) {f : Finished} (hf : f.answer.created = none) :
    StepLaw db { db with answers := db.answers ++ [f] } ↔ Lawful { db with answers := db.answers ++ [f] } f := by
  have hnew := newAnswers_append db db.rows f
  constructor
  · intro hl
    exact hl.lawful f (by rw [hnew]; exact List.mem_singleton_self f)
  · intro hl
    refine ⟨h, ?_, List.prefix_append _ _, ?_⟩
    · rw [hnew]
      simp [hf]
    · rw [hnew]
      intro g hg
      rw [List.mem_singleton.mp hg]
      exact hl

theorem Named.created {a : Answer} (h : Named a) : a.created = none := by
  obtain ⟨e, rfl, -⟩ := h
  rfl

theorem replayed_created (call : Call) (row existing : Row) : (call.replayed row existing).created = none := by
  unfold Call.replayed
  split <;> rfl

theorem replayed_named (call : Call) (row existing : Row) (code : String) :
    call.replayed row existing ≠ .failed (.database code) := by
  unfold Call.replayed
  split
  · exact fun h => by cases h
  · cases row <;> exact fun h => by cases h

theorem commit_law (h : Unique db) (hx : x.Sound db m) (hcommit : x.commit db m = some (db', o)) :
    StepLaw db db' ↔ Recovers db m x := by
  have hg := commit_grows hcommit
  obtain ⟨rfl, hcase⟩ := commit_cases hcommit
  have hphase := hx.phase
  rcases hcase with ⟨row, hp, rfl⟩ | ⟨d, a, hp, rfl⟩ <;> rw [hp] at hphase
  · have hnew := newAnswers_append db (db.rows ++ [row]) ⟨m, x.call, .inserts row none, .row row true⟩
    refine iff_of_true ⟨unique_append h hphase.2 _, ?_, List.prefix_append _ _, ?_⟩ ?_
    · rw [hnew]
      simp [Answer.created]
    · rw [hnew]
      intro f hf
      rw [List.mem_singleton.mp hf]
      exact ⟨hphase.1.grows hg, .inl rfl⟩
    · intro r e a ha
      rw [hp] at ha
      cases ha
  cases d with
  | refused =>
    have hnamed : Named a := hphase
    refine iff_of_true ((stepLaw_answer h hnamed.created).mpr hnamed) fun r e b hb => ?_
    rw [hp] at hb
    cases hb
  | inserts row existing =>
    cases existing with
    | none =>
      obtain ⟨hi, hnamed⟩ := hphase
      refine iff_of_true ((stepLaw_answer h hnamed.created).mpr ⟨hi.grows hg, .inr hnamed⟩) fun r e b hb => ?_
      rw [hp] at hb
      cases hb
    | some existing =>
      obtain ⟨hi, hm, ha⟩ := hphase
      cases hb : x.call.bare with
      | true =>
        rw [hb, if_pos rfl] at ha
        refine iff_of_false (fun hl => ?_) fun hr => ?_
        · have hlaw := (stepLaw_answer h (by rw [ha]; rfl)).mp hl
          have hreplayed := hlaw.2.2
          rw [ha] at hreplayed
          exact replayed_named _ _ _ _ hreplayed.symm
        · rw [hr row existing a hp] at hb
          cases hb
      | false =>
        rw [hb, if_neg (by simp)] at ha
        refine iff_of_true ((stepLaw_answer h (by rw [ha]; exact replayed_created _ _ _)).mpr ⟨hi.grows hg, hm.grows hg, ha⟩) ?_
        exact fun _ _ _ _ => hb

end

/-- **One row for each natural key**, whose content stays, in every run, also when a price of a producer is created twice. -/
theorem catalog_kept (actions : List (Transactions.Action Call Event)) : Unique (catalog.run Db.new actions).db ∧
    Along catalog.step (fun s a => Grows s.db (catalog.step s a).db) (.new Db.new) actions := by
  have hnew : Unique Db.new := List.nodup_nil
  have hkeeps := catalog_keeps fun _ _ _ => True
  refine ⟨(Transactions.Inv.run hnew hkeeps actions).committed, hkeeps.holds (fun _ db _ => .refl db) (fun _ db e _ => elapse_grows db e) ?_ hnew actions ?_⟩
  · exact fun _ _ _ _ _ _ _ _ _ h => commit_grows h
  · exact Transactions.meets_true actions _

def lesson : Call := .createProduct "school" ⟨.user, "u", "lesson", "Lesson", none, .none, .none, none⟩

def lessonPrice : Call := .createPrice "school" ⟨0, "p1", "EUR", 500, .one_time, none, none, 0⟩ ["EUR"]

def repeated : List (Transactions.Action Call Event) :=
  [.start lesson, .exec 0, .exec 0, .commit 0, .start lessonPrice, .exec 1, .exec 1, .commit 1,
    .start lessonPrice, .exec 2, .exec 2, .exec 2]

def lessonPriceRow (id : Uuid) : Row := .price ⟨id, 0, "p1", "EUR", 500, .one_time, none, none, 0, none⟩

theorem repeated_answer : newAnswers (catalog.run Db.new repeated).db (catalog.run Db.new (repeated ++ [.commit 2])).db =
    [⟨2, lessonPrice, .inserts (lessonPriceRow 2) (some (lessonPriceRow 1)), .failed (.database "25P02")⟩] := by
  rfl

end NawaraCore.Catalog
