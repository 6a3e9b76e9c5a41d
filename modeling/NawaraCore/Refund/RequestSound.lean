import NawaraCore.Refund.Request

/-!
# Requests are idempotent

Auth is asked to consume a receipt only for the intent that the receipt was presented with, under the
intent's own id. An intent ends by what Auth answered about it and never changes again, and a request
whose id or key is taken reaches the same attempt or is refused.
-/

namespace NawaraCore.RefundRequests

open Payments (Uuid PaymentError)
open Refunds (RefundAttemptStatus canTransition)

/-! ## Intents -/

def Attempt.identity (a : Attempt) : Attempt :=
  { a with
    status := .authorizationPending
    authorizationRefusal := none
    receiptId := none
    approvedByUserId := none }

def Operation.asked : Operation → Option Request
  | .request r _ _ _ => some r
  | .recover _ _ => none

def Names (op : Operation) (a : Attempt) : Prop := ∀ r, op.asked = some r → a.same r = true ∧ a.id = r.input.refundAttemptId

def Db.Holds (db : Db) (a : Attempt) : Prop := ∃ b ∈ db.attempts, b.identity = a.identity

/-- What Auth has answered about an intent; the last is for a capture among several without the provider's permission. -/
inductive Heard (digest : String → String) (db : Db) (a : Attempt) : Settlement → Prop
  | consumed {secret : String} {c : Consumption} (hs : digest secret = a.receiptDigest)
    (he : .consume secret (bindingOf a) a.id (.consumed c) ∈ db.exchanges) : Heard digest db a (.authorized c)
  | found {c : Consumption} (he : .lookup (bindingOf a) a.id (.consumed c) ∈ db.exchanges) : Heard digest db a (.authorized c)
  | refused {secret : String} {binding : Bool} (hs : digest secret = a.receiptDigest)
    (he : .consume secret (bindingOf a) a.id (.refused binding) ∈ db.exchanges) :
    Heard digest db a (.unauthorized .authorizationRefused (if binding then .receiptBindingInvalid else .receiptInvalid))
  | expired {secret : String} (hs : digest secret = a.receiptDigest) (he : .consume secret (bindingOf a) a.id .expired ∈ db.exchanges) :
    Heard digest db a (.unauthorized .authorizationExpired .receiptExpired)
  | ambiguous (hs : a.captureSpecific = true) (hc : 1 < db.captures.count (a.capturedAttemptId, a.paymentId))
    (he : .lookup (bindingOf a) a.id .absent ∈ db.exchanges) : Heard digest db a (.unauthorized .authorizationRefused .refundCaptureNotEligible)

def Settlement.Reached (a : Attempt) : Settlement → Prop
  | .authorized c => a.status.unauthorized = false ∧ a.receiptId = some c.receiptId ∧ a.approvedByUserId = some c.approvedByUserId
  | .unauthorized status code => a.status = status ∧ a.authorizationRefusal = some code

def Settled (digest : String → String) (db : Db) (a : Attempt) : Prop :=
  a.status = .authorizationPending ∨ ∃ s, Heard digest db a s ∧ s.Reached a

/-- A request to Auth is for an attempt of the database, with its own receipt and under its own id. -/
def Exchange.Sound (digest : String → String) (db : Db) : Exchange → Prop
  | .consume secret binding consumeRef _ => ∃ a ∈ db.attempts, consumeRef = a.id ∧ binding = bindingOf a ∧ digest secret = a.receiptDigest
  | .lookup binding consumeRef _ => ∃ a ∈ db.attempts, consumeRef = a.id ∧ binding = bindingOf a

def Answered (db : Db) (r : Request) : Answer → Prop
  | .attempt a _ => db.Holds a ∧ a.same r = true ∧ a.id = r.input.refundAttemptId ∧ a.status.unauthorized = false
  | .error _ => True

structure Ledger (digest : String → String) (db : Db) : Prop where
  ids : (db.attempts.map Attempt.id).Nodup
  exchanges : ∀ e ∈ db.exchanges, e.Sound digest db
  settled : ∀ a ∈ db.attempts, Settled digest db a
  apart : ∀ f ∈ db.refusals, ∀ a ∈ db.attempts, a.id = f.id → a.paymentId ≠ f.paymentId
  answered : ∀ p ∈ db.answers, Answered db p.1 p.2

structure Db.Sound (digest : String → String) (db : Db) : Prop extends Ledger digest db where
  keys : (db.keys.map fun k => (k.caller, k.key)).Nodup

/-! ## Sessions -/

def Write.Sound (digest : String → String) (db : Db) (r : Request) : Write → Prop
  | .refusal f => f.id = r.input.refundAttemptId ∧ f.paymentId = r.paymentId ∧ ∀ a ∈ db.attempts, a.id = f.id → a.paymentId ≠ f.paymentId
  | .attempt a => (∃ p v, a = r.attempt digest p v) ∧ (∀ b ∈ db.attempts, b.id ≠ a.id) ∧ ∀ f ∈ db.refusals, f.id = a.id → a.paymentId ≠ f.paymentId

def Phase.Sound (digest : String → String) (db : Db) (op : Operation) : Phase → Prop
  | .raced p | .insert p => ∃ r, op.asked = some r ∧ p.id = r.paymentId
  | .reserve w => ∃ r, op.asked = some r ∧ w.Sound digest db r
  | .publish w key => ∃ r, op.asked = some r ∧ w.Sound digest db r ∧ ∀ k ∈ key, ∀ k' ∈ db.keys, (k'.caller, k'.key) ≠ (k.caller, k.key)
  | .authorize a _ => db.Holds a ∧ Names op a
  | .early a _ => db.Holds a ∧ Names op a ∧ a.captureSpecific = true ∧ 1 < db.captures.count (a.capturedAttemptId, a.paymentId)
  | .consume a _ => db.Holds a ∧ ∃ r, op.asked = some r ∧ a.same r = true ∧ a.id = r.input.refundAttemptId ∧ digest r.receiptSecret = a.receiptDigest
  | .late a _ => db.Holds a ∧ Names op a
  | .settle id s _ => ∃ a ∈ db.attempts, a.id = id ∧ Heard digest db a s ∧ Names op a
  | .store a _ => ∃ b ∈ db.attempts, ∃ s, a = b.settled s ∧ b.status = .authorizationPending ∧ Heard digest db b s ∧ Names op b
  | .finish answer => ∀ r, op.asked = some r → Answered db r answer
  | .known | .lock | .scan => True

structure Apart (x y : Session) : Prop where
  payment : ∀ p, x.payment = some p → y.payment ≠ some p
  attempt : ∀ id, x.attempt = some id → y.attempt ≠ some id
  key : ∀ k, x.key = some k → y.key ≠ some k

/-- What a session holds after a statement it held before, or nobody else holds it. -/
structure Locks (others : (Session → Bool) → Bool) (x y : Session) : Prop where
  payment : ∀ p, y.payment = some p → x.payment = some p ∨ (others fun z => z.payment = some p) = false
  attempt : ∀ id, y.attempt = some id → x.attempt = some id ∨ (others fun z => z.attempt = some id) = false
  key : ∀ k, y.key = some k → x.key = some k ∨ (others fun z => z.key = some k) = false

variable {created : Bool} {status : RefundAttemptStatus}
variable {phase : Phase} {key : Option Key}

section
variable {digest : String → String} {db db' : Db} {x y z : Session} {others : (Session → Bool) → Bool} {op : Operation} {a b : Attempt}
  {r : Request} {s : Settlement}

theorem Locks.apart (h : Locks others x y) (hz : ∀ p, others p = false → p z = false) (hx : Apart x z) : Apart y z where
  payment p hp := by
    rcases h.payment p hp with hp | hno
    · exact hx.payment p hp
    · simpa using hz _ hno
  attempt id hid := by
    rcases h.attempt id hid with hid | hno
    · exact hx.attempt id hid
    · simpa using hz _ hno
  key k hk := by
    rcases h.key k hk with hk | hno
    · exact hx.key k hk
    · simpa using hz _ hno

theorem Locks.free (hp : y.payment = none) (ha : y.attempt = none) (hk : y.key = none) : Locks others x y where
  payment p h := absurd (hp.symm.trans h) (by simp)
  attempt id h := absurd (ha.symm.trans h) (by simp)
  key k h := absurd (hk.symm.trans h) (by simp)

/-! ## Identities -/

@[simp] theorem identity_settled : (a.settled s).identity = a.identity := by
  cases s <;> rfl

@[simp] theorem settled_id : (a.settled s).id = a.id := by
  cases s <;> rfl

@[simp] theorem settled_paymentId : (a.settled s).paymentId = a.paymentId := by
  cases s <;> rfl

section
variable (h : a.identity = b.identity)
include h

theorem identity_id : a.id = b.id := (congrArg Attempt.id h :)

theorem identity_paymentId : a.paymentId = b.paymentId := (congrArg Attempt.paymentId h :)

theorem identity_bindingOf : bindingOf a = bindingOf b := (congrArg bindingOf h :)

theorem identity_same : a.same r = b.same r := (congrArg (Attempt.same · r) h :)

theorem identity_receiptDigest : a.receiptDigest = b.receiptDigest := (congrArg Attempt.receiptDigest h :)

end

theorem Names.identity (h : Names op a) (he : b.identity = a.identity) : Names op b := by
  intro r hr
  obtain ⟨hsame, hid⟩ := h r hr
  exact ⟨(identity_same he).trans hsame, (identity_id he).trans hid⟩

theorem Heard.identity (h : Heard digest db a s) (he : b.identity = a.identity) : Heard digest db b s := by
  have hid := identity_id he
  have hpay := identity_paymentId he
  have hbind := identity_bindingOf he
  have hdigest := identity_receiptDigest he
  have hcap : b.capturedAttemptId = a.capturedAttemptId := (congrArg Attempt.capturedAttemptId he :)
  have hspec : b.captureSpecific = a.captureSpecific := (congrArg Attempt.captureSpecific he :)
  cases h with
  | consumed hs hx => exact .consumed (hs.trans hdigest.symm) (by rwa [hid, hbind])
  | found hx => exact .found (by rwa [hid, hbind])
  | refused hs hx => exact .refused (hs.trans hdigest.symm) (by rwa [hid, hbind])
  | expired hs hx => exact .expired (hs.trans hdigest.symm) (by rwa [hid, hbind])
  | ambiguous hs hc hx => exact .ambiguous (hspec.trans hs) (by rwa [hcap, hpay]) (by rwa [hid, hbind])

structure Grows (db db' : Db) : Prop where
  attempts : ∀ a ∈ db.attempts, ∃ b ∈ db'.attempts, b.identity = a.identity
  exchanges : ∀ e ∈ db.exchanges, e ∈ db'.exchanges
  captures : ∀ c, db.captures.count c ≤ db'.captures.count c

theorem Heard.grows (h : Heard digest db a s) (hg : Grows db db') : Heard digest db' a s := by
  cases h with
  | consumed hs hx => exact .consumed hs (hg.exchanges _ hx)
  | found hx => exact .found (hg.exchanges _ hx)
  | refused hs hx => exact .refused hs (hg.exchanges _ hx)
  | expired hs hx => exact .expired hs (hg.exchanges _ hx)
  | ambiguous hs hc hx => exact .ambiguous hs (Nat.lt_of_lt_of_le hc (hg.captures _)) (hg.exchanges _ hx)

theorem Db.Holds.grows (h : db.Holds a) (hg : Grows db db') : db'.Holds a := by
  obtain ⟨b, hb, he⟩ := h
  obtain ⟨c, hc, hcb⟩ := hg.attempts b hb
  exact ⟨c, hc, hcb.trans he⟩

theorem Answered.grows {answer : Answer} (h : Answered db r answer) (hg : Grows db db') : Answered db' r answer := by
  cases answer with
  | error e => trivial
  | attempt a created => exact ⟨h.1.grows hg, h.2⟩

variable {e : Exchange}

theorem Exchange.Sound.grows (h : e.Sound digest db) (hg : Grows db db') : e.Sound digest db' := by
  cases e with
  | consume secret binding consumeRef outcome =>
    obtain ⟨a, ha, hid, hbind, hdigest⟩ := h
    obtain ⟨b, hb, he⟩ := hg.attempts a ha
    exact ⟨b, hb, hid.trans (identity_id he).symm, hbind.trans (identity_bindingOf he).symm, hdigest.trans (identity_receiptDigest he).symm⟩
  | lookup binding consumeRef outcome =>
    obtain ⟨a, ha, hid, hbind⟩ := h
    obtain ⟨b, hb, he⟩ := hg.attempts a ha
    exact ⟨b, hb, hid.trans (identity_id he).symm, hbind.trans (identity_bindingOf he).symm⟩

/-! ## Statements -/

theorem known_some (h : db.known r = .ok (some a)) : a ∈ db.attempts ∧ a.id = r.input.refundAttemptId ∧ a.same r = true := by
  unfold Db.known at h
  dsimp only at h
  split at h
  · cases h
  split at h
  · split at h <;> cases h
  split at h
  · split at h <;> cases h
  next b hb =>
  split at h
  next hsame =>
    cases h
    exact ⟨List.mem_of_find?_eq_some hb, by simpa using List.find?_some hb, hsame⟩
  · cases h

theorem names_of_asked (ho : op.asked = some r) (hsame : a.same r = true) (hid : a.id = r.input.refundAttemptId) : Names op a := by
  intro q hq
  obtain rfl := Option.some.inj (ho.symm.trans hq)
  exact ⟨hsame, hid⟩

/-- What a statement leaves of a session: its operation, the facts that its phase rests on, and its locks. -/
structure Goes (digest : String → String) (db : Db) (others : (Session → Bool) → Bool) (x y : Session) : Prop where
  op : y.op = x.op
  phase : y.phase.Sound digest db x.op
  locks : Locks others x y

theorem Goes.free (hy : x.go phase = .next y) (hs : phase.Sound digest db x.op) (hp : Session.payment ⟨x.op, phase⟩ = none)
    (ha : Session.attempt ⟨x.op, phase⟩ = none) (hk : Session.key ⟨x.op, phase⟩ = none) : Goes digest db others x y := by
  cases hy
  exact ⟨rfl, hs, .free hp ha hk⟩

theorem look_goes (hr : x.op.asked = some r) {absent : Phase} (habsent : absent.Sound digest db x.op)
    (hlocks : Locks others x { x with phase := absent }) (hy : x.look db r absent = .next y) : Goes digest db others x y := by
  unfold Session.look at hy
  split at hy
  · exact .free hy (fun q hq => trivial) rfl rfl rfl
  next a ha =>
    obtain ⟨hm, hid, hsame⟩ := known_some ha
    exact .free hy ⟨⟨a, hm, rfl⟩, names_of_asked hr hsame hid⟩ rfl rfl rfl
  · cases hy
    exact ⟨rfl, habsent, hlocks⟩

variable {outcome : ConsumeOutcome} {verdict : Verdict}

theorem lock_goes {lookup : LookupOutcome} (hop : x.op = .request r verdict outcome lookup)
    (hphase : x.phase = .lock) (hy : x.exec digest db others = .next y) : Goes digest db others x y := by
  unfold Session.exec at hy
  simp only [hop, hphase] at hy
  split at hy
  · cases hy
  next hno =>
  split at hy
  · exact .free hy (fun q hq => trivial) rfl rfl rfl
  next p hp =>
  split at hy
  · cases hy
    have hid : p.id = r.paymentId := by simpa using List.find?_some hp
    refine ⟨rfl, ⟨r, by rw [hop]; rfl, hid⟩, fun q hq => .inr ?_, nofun, nofun⟩
    obtain rfl : p.id = q := Option.some.inj hq
    rw [hid]
    exact Bool.eq_false_iff.mpr hno
  · exact .free hy (fun q hq => trivial) rfl rfl rfl

variable {w : Write}

theorem inserts_goes {p : Payment} (hr : x.op.asked = some r) (hphase : x.phase = .insert p) (hp : p.id = r.paymentId)
    (hw : w.paymentId = r.paymentId) (hid : w.id = r.input.refundAttemptId) (hrow : ∀ a, w = .attempt a → ∃ p v, a = r.attempt digest p v)
    (hy : x.inserts db others w = .next y) : Goes digest db others x y := by
  have hpay : x.payment = some r.paymentId := by
    unfold Session.payment
    rw [hphase]
    exact congrArg some hp
  cases w with
  | refusal f =>
    simp only [Session.inserts] at hy
    split at hy
    · cases hy
    next hno =>
    split at hy
    · cases hy
    split at hy
    · cases hy
    cases hy
    refine ⟨rfl, ⟨r, hr, hid, hw, fun a ha he => ?_⟩, fun q hq => .inl ?_, nofun, nofun⟩
    · exact absurd (List.any_eq_true.mpr ⟨a, ha, decide_eq_true he⟩) hno
    · exact hpay.trans ((congrArg some hw).symm.trans hq)
  | attempt a =>
    simp only [Session.inserts] at hy
    split at hy
    · cases hy
    next hno =>
    split at hy
    · cases hy
    next hothers =>
    split at hy
    · cases hy
    next hnew =>
    cases hy
    refine ⟨rfl, ⟨r, hr, hrow a rfl, fun b hb he => ?_, fun f hf he => ?_⟩, fun q hq => .inl ?_, fun id h => .inr ?_, nofun⟩
    · exact hnew (List.any_eq_true.mpr ⟨b, hb, decide_eq_true he⟩)
    · exact absurd (List.any_eq_true.mpr ⟨f, hf, decide_eq_true he⟩) hno
    · exact hpay.trans ((congrArg some hw).symm.trans hq)
    · obtain rfl : a.id = id := Option.some.inj h
      exact Bool.eq_false_iff.mpr hothers

theorem insert_goes {p : Payment} (hr : x.op.asked = some r) (hphase : x.phase = .insert p) (hp : p.id = r.paymentId)
    (hy : x.insert digest db others r verdict p = .next y) : Goes digest db others x y := by
  unfold Session.insert at hy
  split at hy
  · exact inserts_goes hr hphase hp rfl rfl (fun a ha => by cases ha) hy
  next v => exact inserts_goes hr hphase hp rfl rfl (fun a ha => ⟨p, v, (Write.attempt.inj ha).symm⟩) hy
  · exact .free hy (fun q hq => trivial) rfl rfl rfl
  · cases hy

theorem reserve_goes (hr : x.op.asked = some r) (hphase : x.phase = .reserve w) (hw : w.Sound digest db r)
    (hy : x.reserve db others r w = .next y) : Goes digest db others x y := by
  unfold Session.reserve at hy
  split at hy
  · cases hy
  next hno =>
  have hpay : x.payment = some w.paymentId := by
    unfold Session.payment
    rw [hphase]
  have hat : ∀ key, x.attempt = Session.attempt ⟨x.op, .publish w key⟩ := by
    intro key
    unfold Session.attempt Session.write
    rw [hphase]
  split at hy
  next hnone =>
    cases hy
    refine ⟨rfl, ⟨r, hr, hw, fun k hk k' hk' he => ?_⟩, fun q hq => .inl (hpay.trans hq), fun id h => .inl ((hat _).trans h), fun k h => .inr ?_⟩
    · obtain rfl := Option.some.inj hk
      have hnone := List.find?_eq_none.mp hnone k' hk'
      simp only [Key.names, decide_eq_true_eq] at hnone
      exact hnone ⟨congrArg Prod.fst he, congrArg Prod.snd he⟩
    · obtain rfl : (r.caller, r.key) = k := Option.some.inj h
      exact Bool.eq_false_iff.mpr hno
  next k hk =>
    split at hy
    · exact .free hy (fun q hq => trivial) rfl rfl rfl
    split at hy
    · exact .free hy (fun q hq => trivial) rfl rfl rfl
    cases hy
    exact ⟨rfl, ⟨r, hr, hw, nofun⟩, fun q hq => .inl (hpay.trans hq), fun id h => .inl ((hat _).trans h), nofun⟩

theorem answer_sound (ha : db.Holds a) (hn : Names op a) : (Phase.finish (a.answer created)).Sound digest db op := by
  intro r hr
  obtain ⟨hsame, hid⟩ := hn r hr
  unfold Attempt.answer
  cases hs : a.status with
  | authorizationPending => exact trivial
  | authorizationRefused => exact trivial
  | authorizationExpired => exact trivial
  | _ => exact ⟨ha, hsame, hid, by rw [hs]; rfl⟩

theorem authorize_goes (hr : x.op.asked = some r) (ha : db.Holds a) (hn : Names x.op a)
    (hy : x.authorize digest db r a created = .next y) : Goes digest db others x y := by
  unfold Session.authorize at hy
  split at hy
  · exact .free hy (answer_sound ha hn) rfl rfl rfl
  split at hy
  · exact .free hy (fun q hq => trivial) rfl rfl rfl
  next hd =>
  split at hy
  next hamb =>
    simp only [Db.ambiguousWithoutPermission, decide_eq_true_eq] at hamb
    exact .free hy ⟨ha, hn, hamb.1, hamb.2.1⟩ rfl rfl rfl
  next hamb =>
    obtain ⟨hsame, hid⟩ := hn r hr
    exact .free hy ⟨ha, r, hr, hsame, hid, (not_not.mp hd).symm⟩ rfl rfl rfl

theorem settle_goes {id : Uuid} (hids : (db.attempts.map Attempt.id).Nodup)
    (hs : (Phase.settle id s created).Sound digest db x.op) (hy : x.settle db others id s created = .next y) : Goes digest db others x y := by
  obtain ⟨a, ha, rfl, hheard, hn⟩ := hs
  unfold Session.settle at hy
  rw [find_key hids ha] at hy
  dsimp only at hy
  split at hy
  · cases hy
  next hno =>
  split at hy
  · exact .free hy (answer_sound ⟨a, ha, rfl⟩ hn) rfl rfl rfl
  next hpending =>
  split at hy
  · cases hy
  split at hy
  · cases hy
  cases hy
  refine ⟨rfl, ⟨a, ha, s, rfl, not_not.mp hpending, hheard, hn⟩, fun q hq => .inr ?_, nofun, nofun⟩
  obtain rfl : (a.settled s).paymentId = q := Option.some.inj hq
  rw [settled_paymentId]
  exact Bool.eq_false_iff.mpr hno

theorem exec_goes (hids : (db.attempts.map Attempt.id).Nodup) (h : x.phase.Sound digest db x.op) (hy : x.exec digest db others = .next y) :
    Goes digest db others x y := by
  have hexec := hy
  unfold Session.exec at hy
  split at hy
  next r _ _ _ hop hphase => exact look_goes (by rw [hop]; rfl) (show Phase.Sound digest db x.op .lock from trivial) (.free rfl rfl rfl) hy
  next r _ _ _ hop hphase => exact lock_goes hop hphase hexec
  next r _ _ _ p hop hphase =>
    rw [hphase] at h
    refine look_goes (by rw [hop]; rfl) (show Phase.Sound digest db x.op (.insert p) from h) ⟨fun q hq => .inl ?_, fun id hid => (by cases hid), fun k hk => (by cases hk)⟩ hy
    unfold Session.payment at hq ⊢
    rw [hphase]
    exact hq
  next r verdict _ _ p hop hphase =>
    rw [hphase] at h
    obtain ⟨q, hq, hp⟩ := h
    rw [hop] at hq
    obtain rfl : r = q := Option.some.inj hq
    exact insert_goes (by rw [hop]; rfl) hphase hp hy
  next r _ _ _ w hop hphase =>
    rw [hphase] at h
    obtain ⟨q, hq, hw⟩ := h
    rw [hop] at hq
    obtain rfl : r = q := Option.some.inj hq
    exact reserve_goes (by rw [hop]; rfl) hphase hw hy
  next r _ _ _ a created hop hphase =>
    rw [hphase] at h
    exact authorize_goes (by rw [hop]; rfl) h.1 h.2 hy
  next id _ hop hphase =>
    split at hy
    · cases hy
    next a ha =>
    split at hy
    · refine .free hy ⟨⟨a, List.mem_of_find?_eq_some ha, rfl⟩, fun r hr => ?_⟩ rfl rfl rfl
      rw [hop] at hr
      cases hr
    · cases hy
  next id t created hphase =>
    rw [hphase] at h
    exact settle_goes hids h hy
  next => cases hy

/-! ## Beside another session -/

structure Beside (db db' : Db) (x : Session) : Prop extends Grows db db' where
  rows : ∀ b ∈ db'.attempts, (∃ a ∈ db.attempts, b.identity = a.identity) ∨ (x.attempt ≠ some b.id ∧ x.payment ≠ some b.paymentId)
  refusals : ∀ f ∈ db'.refusals, f ∈ db.refusals ∨ x.payment ≠ some f.paymentId
  keys : ∀ k ∈ db'.keys, k ∈ db.keys ∨ x.key ≠ some (k.caller, k.key)
  pending : ∀ b ∈ db.attempts, b.status = .authorizationPending → x.payment = some b.paymentId → b ∈ db'.attempts

theorem Write.Sound.beside (h : w.Sound digest db r) (hb : Beside db db' x) (hw : x.write = some w) (hp : x.payment = some w.paymentId) :
    w.Sound digest db' r := by
  cases w with
  | refusal f =>
    obtain ⟨hid, hpay, hrows⟩ := h
    refine ⟨hid, hpay, fun b hb' he => ?_⟩
    rcases hb.rows b hb' with ⟨a, ha, hab⟩ | ⟨-, hne⟩
    · rw [identity_paymentId hab]
      exact hrows a ha ((identity_id hab).symm.trans he)
    · exact fun hpay => hne (hp.trans (congrArg some hpay.symm))
  | attempt c =>
    obtain ⟨hrow, hnew, href⟩ := h
    refine ⟨hrow, fun b hb' he => ?_, fun f hf he => ?_⟩
    · rcases hb.rows b hb' with ⟨a, ha, hab⟩ | ⟨hne, -⟩
      · exact hnew a ha ((identity_id hab).symm.trans he)
      · refine hne ?_
        unfold Session.attempt
        rw [hw]
        exact congrArg some he.symm
    · rcases hb.refusals f hf with hf | hne
      · exact href f hf he
      · exact fun hpay => hne (hp.trans (congrArg some hpay))

theorem Phase.Sound.beside (h : phase.Sound digest db op) (hb : Beside db db' ⟨op, phase⟩) : phase.Sound digest db' op := by
  cases phase with
  | reserve w =>
    obtain ⟨r, hr, hw⟩ := h
    exact ⟨r, hr, hw.beside hb rfl rfl⟩
  | publish w key =>
    obtain ⟨r, hr, hw, hkey⟩ := h
    refine ⟨r, hr, hw.beside hb rfl rfl, fun k hk k' hk' => ?_⟩
    rcases hb.keys k' hk' with hk' | hne
    · exact hkey k hk k' hk'
    · obtain rfl : key = some k := hk
      exact fun he => hne (congrArg some he.symm)
  | authorize a created => exact ⟨h.1.grows hb.toGrows, h.2⟩
  | early a created => exact ⟨h.1.grows hb.toGrows, h.2.1, h.2.2.1, Nat.lt_of_lt_of_le h.2.2.2 (hb.captures _)⟩
  | consume a created => exact ⟨h.1.grows hb.toGrows, h.2⟩
  | late a created => exact ⟨h.1.grows hb.toGrows, h.2⟩
  | settle id s created =>
    obtain ⟨a, ha, hid, hheard, hn⟩ := h
    obtain ⟨b, hb', he⟩ := hb.attempts a ha
    exact ⟨b, hb', (identity_id he).trans hid, (hheard.grows hb.toGrows).identity he, hn.identity he⟩
  | store a created =>
    obtain ⟨b, hb', s, rfl, hs, hheard, hn⟩ := h
    exact ⟨b, hb.pending b hb' hs (congrArg some settled_paymentId), s, rfl, hs, hheard.grows hb.toGrows, hn⟩
  | finish answer => exact fun r hr => (h r hr).grows hb.toGrows
  | raced p => exact h
  | insert p => exact h
  | known => trivial
  | lock => trivial
  | scan => trivial

/-! ## Commits -/

/-- What a commit keeps, and what it leaves to the session itself and to the others. -/
structure Commits (digest : String → String) (db : Db) (x : Session) (db' : Db) (y : Option Session) : Prop where
  sound : db'.Sound digest
  phase : ∀ z, y = some z → z.op = x.op ∧ z.phase.Sound digest db' z.op ∧ z.payment = none ∧ z.attempt = none ∧ z.key = none
  beside : ∀ w : Session, w.phase.Sound digest db w.op → Apart w x → Beside db db' w

theorem Ledger.grows (h : Ledger digest db) (hg : Grows db db') (hids : (db'.attempts.map Attempt.id).Nodup)
    (hex : ∀ e ∈ db'.exchanges, e ∈ db.exchanges ∨ e.Sound digest db')
    (hrows : ∀ b ∈ db'.attempts, b ∈ db.attempts ∨ Settled digest db' b)
    (hapart : ∀ f ∈ db'.refusals, ∀ a ∈ db'.attempts, a.id = f.id → a.paymentId ≠ f.paymentId)
    (hans : ∀ p ∈ db'.answers, p ∈ db.answers ∨ Answered db' p.1 p.2) : Ledger digest db' where
  ids := hids
  exchanges e he := (hex e he).elim (fun he => (h.exchanges e he).grows hg) id
  settled b hb := by
    rcases hrows b hb with hb | hb
    · exact (h.settled b hb).imp id fun ⟨s, hs, hr⟩ => ⟨s, hs.grows hg, hr⟩
    · exact hb
  apart := hapart
  answered p hp := (hans p hp).elim (fun hp => (h.answered p hp).grows hg) id

theorem exchange_commits (h : db.Sound digest) (he : e.Sound digest db)
    (hphase : Phase.Sound digest { db with exchanges := db.exchanges ++ [e] } x.op phase) (hp : Session.payment ⟨x.op, phase⟩ = none)
    (ha : Session.attempt ⟨x.op, phase⟩ = none) (hk : Session.key ⟨x.op, phase⟩ = none) :
    Commits digest db x { db with exchanges := db.exchanges ++ [e] } (some { x with phase }) := by
  have hg : Grows db { db with exchanges := db.exchanges ++ [e] } :=
    ⟨fun a ha => ⟨a, ha, rfl⟩, fun e' he' => List.mem_append_left _ he', fun c => Nat.le_refl _⟩
  refine ⟨⟨h.toLedger.grows hg h.ids (fun e' he' => ?_) (fun b hb => .inl hb) h.apart fun p hp => .inl hp, h.keys⟩, fun z hz => ?_, fun w _ _ => ?_⟩
  · rcases mem_append_row he' with he' | he'
    · exact .inl he'
    · exact .inr (he' ▸ he.grows hg)
  · cases hz
    exact ⟨rfl, hphase, hp, ha, hk⟩
  · exact ⟨hg, fun b hb => .inl ⟨b, hb, rfl⟩, fun f hf => .inl hf, fun k hk => .inl hk, fun b hb _ _ => hb⟩

theorem heard_exchange {t : Settlement} (ha : db.Holds a) (hn : Names op a)
    (hheard : ∀ b, b.identity = a.identity → Heard digest { db with exchanges := db.exchanges ++ [e] } b t) (created : Bool) :
    Phase.Sound digest { db with exchanges := db.exchanges ++ [e] } op (.settle a.id t created) := by
  obtain ⟨b, hb, he⟩ := ha
  exact ⟨b, hb, identity_id he, hheard b he, hn.identity he⟩

theorem consume_commits (h : db.Sound digest) (ha : db.Holds a) (hn : Names x.op a)
    (hd : digest r.receiptSecret = a.receiptDigest) :
    Commits digest db x { db with exchanges := db.exchanges ++ [.consume r.receiptSecret (bindingOf a) a.id outcome] }
      (some { x with phase := outcome.phase a created }) := by
  have hmem : ∀ e : Exchange, e ∈ db.exchanges ++ [e] := fun e => List.mem_append_right _ List.mem_cons_self
  have hsound : Exchange.Sound digest db (.consume r.receiptSecret (bindingOf a) a.id outcome) := by
    obtain ⟨b, hb, he⟩ := ha
    exact ⟨b, hb, (identity_id he).symm, (identity_bindingOf he).symm, hd.trans (identity_receiptDigest he).symm⟩
  cases outcome with
  | consumed c =>
    refine exchange_commits h hsound (heard_exchange ha hn (fun b he => ?_) created) rfl rfl rfl
    exact Heard.identity (.consumed hd (hmem _)) he
  | refused binding =>
    refine exchange_commits h hsound (heard_exchange ha hn (fun b he => ?_) created) rfl rfl rfl
    exact Heard.identity (.refused hd (hmem _)) he
  | expired =>
    refine exchange_commits h hsound (heard_exchange ha hn (fun b he => ?_) created) rfl rfl rfl
    exact Heard.identity (.expired hd (hmem _)) he
  | conflict => exact exchange_commits h hsound ⟨ha, hn⟩ rfl rfl rfl
  | unresolved => exact exchange_commits h hsound ⟨ha, hn⟩ rfl rfl rfl

theorem lookup_sound {outcome : LookupOutcome} (ha : db.Holds a) : Exchange.Sound digest db (.lookup (bindingOf a) a.id outcome) := by
  obtain ⟨b, hb, he⟩ := ha
  exact ⟨b, hb, (identity_id he).symm, (identity_bindingOf he).symm⟩

theorem early_commits (h : db.Sound digest) {outcome : LookupOutcome} (ha : db.Holds a) (hn : Names x.op a)
    (hs : a.captureSpecific = true) (hc : 1 < db.captures.count (a.capturedAttemptId, a.paymentId)) :
    Commits digest db x { db with exchanges := db.exchanges ++ [.lookup (bindingOf a) a.id outcome] }
      (some { x with phase := outcome.early a created }) := by
  have hmem : ∀ e : Exchange, e ∈ db.exchanges ++ [e] := fun e => List.mem_append_right _ List.mem_cons_self
  cases outcome with
  | consumed c =>
    refine exchange_commits h (lookup_sound ha) (heard_exchange ha hn (fun b he => ?_) created) rfl rfl rfl
    exact Heard.identity (.found (hmem _)) he
  | absent =>
    refine exchange_commits h (lookup_sound ha) (heard_exchange ha hn (fun b he => ?_) created) rfl rfl rfl
    exact Heard.identity (.ambiguous hs hc (hmem _)) he
  | unresolved => exact exchange_commits h (lookup_sound ha) (fun r hr => trivial) rfl rfl rfl

theorem late_commits (h : db.Sound digest) {outcome : LookupOutcome} (ha : db.Holds a) (hn : Names x.op a) :
    Commits digest db x { db with exchanges := db.exchanges ++ [.lookup (bindingOf a) a.id outcome] }
      (some { x with phase := outcome.late a created }) := by
  have hmem : ∀ e : Exchange, e ∈ db.exchanges ++ [e] := fun e => List.mem_append_right _ List.mem_cons_self
  cases outcome with
  | consumed c =>
    refine exchange_commits h (lookup_sound ha) (heard_exchange ha hn (fun b he => ?_) created) rfl rfl rfl
    exact Heard.identity (.found (hmem _)) he
  | absent => exact exchange_commits h (lookup_sound ha) (fun r hr => trivial) rfl rfl rfl
  | unresolved => exact exchange_commits h (lookup_sound ha) (fun r hr => trivial) rfl rfl rfl

theorem keys_append (h : db.Sound digest) (hk : ∀ k ∈ key, ∀ k' ∈ db.keys, (k'.caller, k'.key) ≠ (k.caller, k.key)) :
    ((db.keys ++ key.toList).map fun k => (k.caller, k.key)).Nodup := by
  cases key with
  | none => simpa using h.keys
  | some k => exact nodup_append_row h.keys fun k' hk' => hk k rfl k' hk'

theorem keys_beside {w : Session} {write : Write} (hx : x.phase = .publish write key) (hw : Apart w x) :
    ∀ k ∈ db.keys ++ key.toList, k ∈ db.keys ∨ w.key ≠ some (k.caller, k.key) := by
  intro k hk
  rcases List.mem_append.mp hk with hk | hk
  · exact .inl hk
  · obtain rfl : key = some k := Option.mem_toList.mp hk
    refine .inr fun he => hw.key _ he ?_
    unfold Session.key
    rw [hx]

section
variable (h : db.Sound digest)
include h

theorem refusal_commits {f : Refusal} (hx : x.phase = .publish (.refusal f) key)
    (hp : x.phase.Sound digest db x.op) : Commits digest db x
      { db with
        refusals := db.refusals ++ [f]
        keys := db.keys ++ key.toList } (some { x with phase := .finish (.error f.code.error) }) := by
  rw [hx] at hp
  obtain ⟨r, hr, ⟨hid, hpay, hrows⟩, hkey⟩ := hp
  have hg : Grows db { db with
      refusals := db.refusals ++ [f]
      keys := db.keys ++ key.toList } := ⟨fun a ha => ⟨a, ha, rfl⟩, fun e he => he, fun c => Nat.le_refl _⟩
  refine ⟨⟨h.toLedger.grows hg h.ids (fun e he => .inl he) (fun b hb => .inl hb) (fun g hgm => ?_) fun p hp => .inl hp, keys_append h hkey⟩,
    fun z hz => ?_, fun w hws hw => ⟨hg, fun b hb => .inl ⟨b, hb, rfl⟩, fun g hgm => ?_, keys_beside hx hw, fun b hb _ _ => hb⟩⟩
  · rcases mem_append_row hgm with hgm | hgm
    · exact h.apart g hgm
    · exact hgm ▸ hrows
  · cases hz
    exact ⟨rfl, fun r hr => trivial, rfl, rfl, rfl⟩
  · rcases mem_append_row hgm with hgm | rfl
    · exact .inl hgm
    · refine .inr fun he => hw.payment _ he ?_
      unfold Session.payment
      rw [hx]
      rfl

theorem attempt_commits (hx : x.phase = .publish (.attempt a) key)
    (hp : x.phase.Sound digest db x.op) : Commits digest db x
      { db with
        attempts := db.attempts ++ [a]
        keys := db.keys ++ key.toList } (some { x with phase := .authorize a true }) := by
  rw [hx] at hp
  obtain ⟨r, hr, ⟨⟨p, v, rfl⟩, hnew, href⟩, hkey⟩ := hp
  have hg : Grows db { db with
      attempts := db.attempts ++ [r.attempt digest p v]
      keys := db.keys ++ key.toList } := ⟨fun a ha => ⟨a, List.mem_append_left _ ha, rfl⟩, fun e he => he, fun c => Nat.le_refl _⟩
  refine ⟨⟨h.toLedger.grows hg (nodup_append_row h.ids hnew) (fun e he => .inl he) (fun b hb => ?_) (fun f hf b hb => ?_) fun p hp => .inl hp,
    keys_append h hkey⟩, fun z hz => ?_, fun w hws hw => ⟨hg, fun b hb => ?_, fun f hf => .inl hf, keys_beside hx hw,
      fun b hb _ _ => List.mem_append_left _ hb⟩⟩
  · rcases mem_append_row hb with hb | hb
    · exact .inl hb
    · exact .inr (.inl (hb ▸ rfl))
  · rcases mem_append_row hb with hb | rfl
    · exact h.apart f hf b hb
    · exact fun he => href f hf he.symm
  · cases hz
    refine ⟨rfl, ⟨⟨_, List.mem_append_right _ List.mem_cons_self, rfl⟩, names_of_asked hr ?_ rfl⟩, rfl, rfl, rfl⟩
    unfold Attempt.same Request.attempt
    cases hc : r.input.captureFactId <;> simp
  · rcases mem_append_row hb with hb | rfl
    · exact .inl ⟨b, hb, rfl⟩
    · refine .inr ⟨fun he => hw.attempt _ he ?_, fun he => hw.payment _ he ?_⟩
      · unfold Session.attempt Session.write
        rw [hx]
      · unfold Session.payment
        rw [hx]
        rfl

theorem store_commits (hx : x.phase = .store a created) (hp : x.phase.Sound digest db x.op) :
    Commits digest db x { db with attempts := replaceRow Attempt.id a db.attempts } (some { x with phase := .finish (a.answer created) }) := by
  rw [hx] at hp
  obtain ⟨b, hb, s, rfl, hpending, hheard, hn⟩ := hp
  have hident : ∀ c ∈ db.attempts, c.id = (b.settled s).id → (b.settled s).identity = c.identity := by
    intro c hc he
    rw [settled_id] at he
    rw [eq_of_key h.ids hc hb he, identity_settled]
  have hg : Grows db { db with attempts := replaceRow Attempt.id (b.settled s) db.attempts } := by
    refine ⟨fun c hc => ?_, fun e he => he, fun c => Nat.le_refl _⟩
    by_cases he : c.id = (b.settled s).id
    · exact ⟨_, replaceRow_mem hc he, hident c hc he⟩
    · exact ⟨c, replaceRow_other hc he, rfl⟩
  have hids : ((replaceRow Attempt.id (b.settled s) db.attempts).map Attempt.id).Nodup := by
    rw [map_replaceRow fun _ _ hk => hk]
    exact h.ids
  have hmem : b.settled s ∈ replaceRow Attempt.id (b.settled s) db.attempts := replaceRow_mem hb settled_id.symm
  refine ⟨⟨h.toLedger.grows hg hids (fun e he => .inl he) (fun c hc => ?_) (fun f hf c hc => ?_) fun p hp => .inl hp, h.keys⟩,
    fun z hz => ?_, fun w hws hw => ⟨hg, fun c hc => ?_, fun f hf => .inl hf, fun k hk => .inl hk, fun c hc _ hpay => ?_⟩⟩
  · rcases mem_replaceRow hc with rfl | ⟨hc, -⟩
    · refine .inr (.inr ⟨s, (hheard.grows hg).identity identity_settled, ?_⟩)
      cases s with
      | authorized c => exact ⟨rfl, rfl, rfl⟩
      | unauthorized status code => exact ⟨rfl, rfl⟩
    · exact .inl hc
  · rcases mem_replaceRow hc with rfl | ⟨hc, -⟩
    · rw [settled_id, settled_paymentId]
      exact h.apart f hf b hb
    · exact h.apart f hf c hc
  · cases hz
    exact ⟨rfl, answer_sound ⟨_, hmem, rfl⟩ (hn.identity identity_settled), rfl, rfl, rfl⟩
  · rcases mem_replaceRow hc with rfl | ⟨hc, -⟩
    · exact .inl ⟨b, hb, identity_settled⟩
    · exact .inl ⟨c, hc, rfl⟩
  · refine replaceRow_other hc fun he => hw.payment _ hpay ?_
    unfold Session.payment
    rw [hx]
    exact congrArg some (identity_paymentId (hident c hc he))

theorem commit_commits {y : Option Session} (hp : x.phase.Sound digest db x.op) (hy : x.commit db = some (db', y)) :
    Commits digest db x db' y := by
  unfold Session.commit at hy
  split at hy
  next f key hphase =>
    cases hy
    exact refusal_commits h hphase hp
  next a key hphase =>
    cases hy
    exact attempt_commits h hphase hp
  next r _ outcome _ a created hop hphase =>
    cases hy
    rw [hphase] at hp
    obtain ⟨ha, q, hq, hsame, hid, hd⟩ := hp
    rw [hop] at hq
    obtain rfl : r = q := Option.some.inj hq
    exact consume_commits h ha (names_of_asked (by rw [hop]; rfl) hsame hid) hd
  next a created hphase =>
    cases hy
    rw [hphase] at hp
    exact early_commits h hp.1 hp.2.1 hp.2.2.1 hp.2.2.2
  next a created hphase =>
    cases hy
    rw [hphase] at hp
    exact late_commits h hp.1 hp.2
  next a created hphase =>
    cases hy
    exact store_commits h hphase hp
  next answer hphase =>
    cases hy
    rw [hphase] at hp
    have hg : Grows db { db with answers := db.answers ++ x.op.answers answer } := ⟨fun a ha => ⟨a, ha, rfl⟩, fun e he => he, fun c => Nat.le_refl _⟩
    refine ⟨⟨h.toLedger.grows hg h.ids (fun e he => .inl he) (fun b hb => .inl hb) h.apart fun p hpm => ?_, h.keys⟩, fun z hz => (by cases hz),
      fun w _ _ => ⟨hg, fun b hb => .inl ⟨b, hb, rfl⟩, fun f hf => .inl hf, fun k hk => .inl hk, fun b hb _ _ => hb⟩⟩
    rcases List.mem_append.mp hpm with hpm | hpm
    · exact .inl hpm
    · unfold Operation.answers at hpm
      split at hpm
      next r _ _ _ hop =>
        obtain rfl := List.mem_singleton.mp hpm
        exact .inr ((hp r (by rw [hop]; rfl)).grows hg)
      next => cases hpm
  next => cases hy

end

/-! ## Other changes -/

theorem progress_identity : (a.progress status).identity = a.identity := by
  unfold Attempt.progress
  split <;> rfl

theorem progress_pending (h : a.status = .authorizationPending) : a.progress status = a :=
  if_neg fun hp => hp.1 h

theorem progress_unauthorized (h : a.status.unauthorized = true) : a.progress status = a := by
  unfold Attempt.progress
  rw [if_neg]
  rintro ⟨hne, hp⟩
  revert h hne hp
  cases a.status <;> cases status <;> simp [RefundAttemptStatus.unauthorized, canTransition]

theorem progress_authorized {status : RefundAttemptStatus} (h : a.status.unauthorized = false) :
    (a.progress status).status.unauthorized = false ∧ (a.progress status).receiptId = a.receiptId ∧
      (a.progress status).approvedByUserId = a.approvedByUserId := by
  unfold Attempt.progress
  split
  next hp =>
    refine ⟨?_, rfl, rfl⟩
    obtain ⟨-, hp⟩ := hp
    revert h hp
    cases a.status <;> cases status <;> simp [RefundAttemptStatus.unauthorized, canTransition]
  next => exact ⟨h, rfl, rfl⟩

theorem Heard.unauthorized {code : AuthorizationRefusal} (h : Heard digest db a (.unauthorized status code)) :
    status.unauthorized = true := by
  cases h <;> rfl

theorem Settled.progress (h : Settled digest db a) : Settled digest db (a.progress status) := by
  rcases h with h | ⟨s, hs, hr⟩
  · rw [progress_pending h]
    exact .inl h
  · refine .inr ⟨s, hs.identity progress_identity, ?_⟩
    cases s with
    | authorized c =>
      obtain ⟨hu, hreceipt, happroved⟩ := hr
      obtain ⟨hu', hreceipt', happroved'⟩ := @progress_authorized a status hu
      exact ⟨hu', hreceipt'.trans hreceipt, happroved'.trans happroved⟩
    | unauthorized status' code =>
      rw [progress_unauthorized (hr.1 ▸ hs.unauthorized)]
      exact hr

theorem elapse_rows (h : db.Sound digest) {f : Attempt → Attempt} (hid : ∀ a, (f a).identity = a.identity)
    (hpending : ∀ a : Attempt, a.status = .authorizationPending → f a = a) (hset : ∀ a, Settled digest db a → Settled digest db (f a)) :
    Db.Sound digest { db with attempts := db.attempts.map f } ∧ ∀ x, Beside db { db with attempts := db.attempts.map f } x := by
  have hg : Grows db { db with attempts := db.attempts.map f } :=
    ⟨fun a ha => ⟨f a, List.mem_map_of_mem ha, hid a⟩, fun e he => he, fun c => Nat.le_refl _⟩
  have hids : ((db.attempts.map f).map Attempt.id).Nodup := by
    have hsame : Attempt.id ∘ f = Attempt.id := funext fun a => identity_id (hid a)
    rw [List.map_map, hsame]
    exact h.ids
  refine ⟨⟨h.toLedger.grows hg hids (fun e he => .inl he) (fun b hb => ?_) (fun g hgm b hb => ?_) fun p hp => .inl hp, h.keys⟩, fun x =>
    ⟨hg, fun b hb => ?_, fun g hgm => .inl hgm, fun k hk => .inl hk, fun b hb hs _ => ?_⟩⟩
  · obtain ⟨a, ha, rfl⟩ := List.mem_map.mp hb
    rcases hset a (h.settled a ha) with hp | ⟨s, hs, hr⟩
    · exact .inr (.inl hp)
    · exact .inr (.inr ⟨s, hs.grows hg, hr⟩)
  · obtain ⟨a, ha, rfl⟩ := List.mem_map.mp hb
    rw [identity_id (hid a), identity_paymentId (hid a)]
    exact h.apart g hgm a ha
  · obtain ⟨a, ha, rfl⟩ := List.mem_map.mp hb
    exact .inl ⟨a, ha, hid a⟩
  · exact List.mem_map.mpr ⟨b, hb, hpending b hs⟩

theorem elapse_sound (h : db.Sound digest) (e : Change) : (db.elapse e).Sound digest ∧ ∀ x, Beside db (db.elapse e) x := by
  have hsame : ∀ x, Beside db db x := fun x =>
    ⟨⟨fun a ha => ⟨a, ha, rfl⟩, fun e he => he, fun c => Nat.le_refl _⟩, fun b hb => .inl ⟨b, hb, rfl⟩, fun f hf => .inl hf, fun k hk => .inl hk,
      fun b hb _ _ => hb⟩
  cases e with
  | payment p =>
    unfold Db.elapse
    dsimp only
    split
    · exact ⟨h, hsame⟩
    · have hg : Grows db { db with payments := db.payments ++ [p] } := ⟨fun a ha => ⟨a, ha, rfl⟩, fun e he => he, fun c => Nat.le_refl _⟩
      exact ⟨⟨h.toLedger.grows hg h.ids (fun e he => .inl he) (fun b hb => .inl hb) h.apart fun p hp => .inl hp, h.keys⟩, fun x =>
        ⟨hg, fun b hb => .inl ⟨b, hb, rfl⟩, fun f hf => .inl hf, fun k hk => .inl hk, fun b hb _ _ => hb⟩⟩
  | capture attemptId paymentId =>
    have hg : Grows db { db with captures := db.captures ++ [(attemptId, paymentId)] } := by
      refine ⟨fun a ha => ⟨a, ha, rfl⟩, fun e he => he, fun c => ?_⟩
      rw [List.count_append]
      exact Nat.le_add_right _ _
    exact ⟨⟨h.toLedger.grows hg h.ids (fun e he => .inl he) (fun b hb => .inl hb) h.apart fun p hp => .inl hp, h.keys⟩, fun x =>
      ⟨hg, fun b hb => .inl ⟨b, hb, rfl⟩, fun f hf => .inl hf, fun k hk => .inl hk, fun b hb _ _ => hb⟩⟩
  | permission provider granted =>
    have hg : Grows db (db.elapse (.permission provider granted)) := ⟨fun a ha => ⟨a, ha, rfl⟩, fun e he => he, fun c => Nat.le_refl _⟩
    exact ⟨⟨h.toLedger.grows hg h.ids (fun e he => .inl he) (fun b hb => .inl hb) h.apart fun p hp => .inl hp, h.keys⟩, fun x =>
      ⟨hg, fun b hb => .inl ⟨b, hb, rfl⟩, fun f hf => .inl hf, fun k hk => .inl hk, fun b hb _ _ => hb⟩⟩
  | progress id status =>
    refine elapse_rows h (fun a => ?_) (fun a hs => ?_) fun a hs => ?_
    · split
      · exact progress_identity
      · rfl
    · rw [progress_pending hs, ite_self]
    · split
      · exact hs.progress
      · exact hs

theorem keeps (digest : String → String) : (requests digest).Keeps (fun _ db => db.Sound digest) (fun db _ x => x.phase.Sound digest db x.op)
    Apart fun _ _ _ => True where
  symm x y h := ⟨fun p hy hx => h.payment p hx hy, fun id hy hx => h.attempt id hx hy, fun k hy hx => h.key k hx hy⟩
  fresh n db h := h
  start n db op x h hx := by
    obtain rfl := Option.some.inj hx
    cases op with
    | request r verdict outcome lookup => exact ⟨trivial, fun y => ⟨nofun, nofun, nofun⟩⟩
    | recover id lookup => exact ⟨trivial, fun y => ⟨nofun, nofun, nofun⟩⟩
  exec n db others m x y hdb hx hy := by
    obtain ⟨hop, hphase, hlocks⟩ := exec_goes hdb.ids hx hy
    exact ⟨hop ▸ hphase, fun z hz hxz => hlocks.apart hz hxz⟩
  commit n db m x db' y hm hdb hx _ hy := by
    obtain ⟨hsound, hphase, hbeside⟩ := commit_commits hdb hx hy
    refine ⟨hsound, fun z hz => ?_, fun k z hk hz hzx => hz.beside (hbeside z hz hzx)⟩
    obtain ⟨-, hz, hp, ha, hkey⟩ := hphase z hz
    exact ⟨hz, fun w => ⟨fun p h => absurd (hp.symm.trans h) (by simp), fun id h => absurd (ha.symm.trans h) (by simp),
      fun k h => absurd (hkey.symm.trans h) (by simp)⟩⟩
  elapse n db e h := ⟨(elapse_sound h e).1, fun m x hx => hx.beside ((elapse_sound h e).2 x)⟩

/-! ## Replays -/

def Taken (db : Db) (r : Request) : Prop :=
  (∃ k ∈ db.keys, k.names r = true ∧ k.same r = false) ∨
    ((∃ a ∈ db.attempts, a.id = r.input.refundAttemptId ∧ a.same r = false) ∧ ∀ f ∈ db.refusals, f.id ≠ r.input.refundAttemptId)

structure Replays (db : Db) (r : Request) (a : Attempt) : Prop where
  row : a ∈ db.attempts
  id : a.id = r.input.refundAttemptId
  same : a.same r = true
  refusals : ∀ f ∈ db.refusals, f.id ≠ r.input.refundAttemptId
  keys : ∀ k ∈ db.keys, k.names r = true → k.same r = true

theorem find_names (h : db.Sound digest) {k : Key} (hk : k ∈ db.keys) (hn : k.names r = true) : (db.keys.find? fun k => k.names r) = some k := by
  have hs : (db.keys.find? fun k => k.names r).isSome := List.find?_isSome.mpr ⟨k, hk, hn⟩
  obtain ⟨k', hk'⟩ := Option.isSome_iff_exists.mp hs
  have hn' := List.find?_some hk'
  simp only [Key.names, decide_eq_true_eq] at hn hn'
  rw [hk', eq_of_key h.keys (List.mem_of_find?_eq_some hk') hk (Prod.ext (hn'.1.trans hn.1.symm) (hn'.2.trans hn.2.symm))]

theorem find_refusal (h : ∀ f ∈ db.refusals, f.id ≠ r.input.refundAttemptId) :
    (db.refusals.find? fun f => f.id = r.input.refundAttemptId) = none :=
  List.find?_eq_none.mpr fun f hf he => h f hf (of_decide_eq_true he)

theorem find_attempt (h : db.Sound digest) (ha : a ∈ db.attempts) (hid : a.id = r.input.refundAttemptId) :
    (db.attempts.find? fun a => a.id = r.input.refundAttemptId) = some a := by
  rw [← hid]
  exact find_key h.ids ha

theorem known_taken (h : db.Sound digest) (ht : Taken db r) : db.known r = .error idempotencyKeyReused ∨ db.known r = .error attemptConflict := by
  unfold Db.known
  dsimp only
  by_cases hs : ((db.keys.find? fun k => k.names r).any fun k => k.same r = false) = true
  · rw [if_pos hs]
    exact .inl rfl
  · rw [if_neg hs]
    rcases ht with ⟨k, hk, hn, hsame⟩ | ⟨⟨a, ha, hid, hsame⟩, href⟩
    · rw [find_names h hk hn] at hs
      simp [hsame] at hs
    · rw [find_refusal href, find_attempt h ha hid]
      simp [hsame]

theorem known_replay (h : db.Sound digest) (hr : Replays db r a) : db.known r = .ok (some a) := by
  unfold Db.known
  dsimp only
  rw [if_neg, find_refusal hr.refusals, find_attempt h hr.row hr.id]
  · exact if_pos hr.same
  · cases hf : db.keys.find? fun k => k.names r with
    | none => simp
    | some k => simp [hr.keys k (List.mem_of_find?_eq_some hf) (by simpa using List.find?_some hf)]

def Phase.looks : Phase → Bool
  | .known | .raced _ => true
  | _ => false

theorem exec_looks (hr : x.op.asked = some r) (hl : x.phase.looks = true) : ∃ absent, x.exec digest db others = x.look db r absent := by
  obtain ⟨op, phase⟩ := x
  cases op with
  | recover id lookup => cases hr
  | request q verdict outcome lookup =>
    cases hr
    cases phase with
    | known => exact ⟨_, rfl⟩
    | raced p => exact ⟨_, rfl⟩
    | _ => cases hl

theorem exec_unrefused (hy : x.exec digest db others = .next y) (hx : x.attempt = none) {id : Uuid} (hid : y.attempt = some id) :
    ∀ f ∈ db.refusals, f.id ≠ id := by
  obtain ⟨op, phase⟩ := x
  cases phase with
  | insert p =>
    cases op with
    | recover id' lookup => cases hy
    | request r verdict outcome lookup =>
      simp only [Session.exec, Session.insert] at hy
      cases verdict with
      | refusal code => grind [Session.inserts, Session.go, Session.attempt, Session.write]
      | verified v =>
        simp only [Session.inserts] at hy
        split at hy
        · cases hy
        next hno =>
        split at hy
        · cases hy
        split at hy
        · cases hy
        cases hy
        obtain rfl : (r.attempt digest p v).id = id := Option.some.inj hid
        exact fun f hf he => hno (List.any_eq_true.mpr ⟨f, hf, decide_eq_true he⟩)
      | unavailable => grind [Session.go, Session.attempt, Session.write]
      | raised => cases hy
  | reserve w => grind [Session.exec, Session.reserve, Session.go, Session.attempt, Session.write]
  | settle id' s created => grind [Session.exec, Session.settle, Session.go, Session.attempt, Session.write]
  | authorize a created => grind [Session.exec, Session.authorize, Session.go, Session.attempt, Session.write]
  | _ => grind [Session.exec, Session.look, Session.go, Session.attempt, Session.write]

/-- What a step does: an ended intent stays as it is, a request whose key or id is taken is refused, a replay reaches its attempt, an
intent is not inserted under a refused id, and Auth is asked to consume only for the content and the receipt of the request. -/
def Lawful (digest : String → String) (s : Transactions.State Db Session) (act : Transactions.Action Operation Change) : Prop :=
  let s' := (requests digest).step s act
  (∀ a ∈ s.db.attempts, ∃ b ∈ s'.db.attempts, b.identity = a.identity ∧
    (a.status = .authorizationRefused ∨ a.status = .authorizationExpired → b = a)) ∧
  (∀ f ∈ s.db.refusals, f ∈ s'.db.refusals) ∧
  match act with
  | .exec n => s'.db = s.db ∧ ∀ x r, s.session n = some x → x.op.asked = some r →
    (x.phase.looks = true → Taken s.db r → s'.session n = some { x with phase := .finish (.error idempotencyKeyReused) } ∨
      s'.session n = some { x with phase := .finish (.error attemptConflict) }) ∧
    (∀ a, x.phase.looks = true → Replays s.db r a → s'.session n = some { x with phase := .authorize a false }) ∧
    ∀ y id, x.attempt = none → s'.session n = some y → y.attempt = some id → ∀ f ∈ s.db.refusals, f.id ≠ id
  | .commit n => ∀ secret binding consumeRef outcome, .consume secret binding consumeRef outcome ∈ s'.db.exchanges →
    .consume secret binding consumeRef outcome ∈ s.db.exchanges ∨ ∃ x r a, s.session n = some x ∧ x.op.asked = some r ∧
      secret = r.receiptSecret ∧ consumeRef = r.input.refundAttemptId ∧ a ∈ s.db.attempts ∧ a.id = consumeRef ∧ a.same r = true
  | _ => s'.db.exchanges = s.db.exchanges

theorem commit_kept {y : Option Session} (h : db.Sound digest) (hp : x.phase.Sound digest db x.op) (hy : x.commit db = some (db', y)) :
    (∀ a ∈ db.attempts, ∃ b ∈ db'.attempts, b.identity = a.identity ∧
      (a.status = .authorizationRefused ∨ a.status = .authorizationExpired → b = a)) ∧ ∀ f ∈ db.refusals, f ∈ db'.refusals := by
  have hsame : ∀ {l : List Attempt}, (∀ a ∈ db.attempts, a ∈ l) → ∀ a ∈ db.attempts, ∃ b ∈ l, b.identity = a.identity ∧
      (a.status = .authorizationRefused ∨ a.status = .authorizationExpired → b = a) := fun hl a ha => ⟨a, hl a ha, rfl, fun _ => rfl⟩
  unfold Session.commit at hy
  split at hy
  · cases hy
    exact ⟨hsame fun a ha => ha, fun f hf => List.mem_append_left _ hf⟩
  · cases hy
    exact ⟨hsame fun a ha => List.mem_append_left _ ha, fun f hf => hf⟩
  · cases hy
    exact ⟨hsame fun a ha => ha, fun f hf => hf⟩
  · cases hy
    exact ⟨hsame fun a ha => ha, fun f hf => hf⟩
  · cases hy
    exact ⟨hsame fun a ha => ha, fun f hf => hf⟩
  next a created hphase =>
    cases hy
    rw [hphase] at hp
    obtain ⟨b, hb, t, rfl, hpending, -⟩ := hp
    refine ⟨fun c hc => ?_, fun f hf => hf⟩
    by_cases he : c.id = (b.settled t).id
    · have hcb : c = b := eq_of_key h.ids hc hb (he.trans settled_id)
      refine ⟨b.settled t, replaceRow_mem hc he, hcb ▸ identity_settled, fun hended => ?_⟩
      rw [hcb, hpending] at hended
      rcases hended with hended | hended <;> cases hended
    · exact ⟨c, replaceRow_other hc he, rfl, fun _ => rfl⟩
  · cases hy
    exact ⟨hsame fun a ha => ha, fun f hf => hf⟩
  · cases hy

theorem commit_consumes {y : Option Session} (hp : x.phase.Sound digest db x.op) (hy : x.commit db = some (db', y))
    {secret : String} {binding : Binding} {consumeRef : Uuid} (he : .consume secret binding consumeRef outcome ∈ db'.exchanges) :
    .consume secret binding consumeRef outcome ∈ db.exchanges ∨ ∃ r a, x.op.asked = some r ∧ secret = r.receiptSecret ∧
      consumeRef = r.input.refundAttemptId ∧ a ∈ db.attempts ∧ a.id = consumeRef ∧ a.same r = true := by
  unfold Session.commit at hy
  split at hy
  · cases hy
    exact .inl he
  · cases hy
    exact .inl he
  next r _ _ _ a created hop hphase =>
    cases hy
    rcases mem_append_row he with he | he
    · exact .inl he
    · cases he
      rw [hphase] at hp
      obtain ⟨⟨b, hb, hident⟩, q, hq, hsame, hid, -⟩ := hp
      rw [hop] at hq
      obtain rfl : r = q := Option.some.inj hq
      exact .inr ⟨r, b, by rw [hop]; rfl, rfl, hid, hb, identity_id hident, (identity_same hident).trans hsame⟩
  · cases hy
    rcases mem_append_row he with he | he
    · exact .inl he
    · cases he
  · cases hy
    rcases mem_append_row he with he | he
    · exact .inl he
    · cases he
  · cases hy
    exact .inl he
  · cases hy
    exact .inl he
  · cases hy

theorem elapse_kept (db : Db) (e : Change) : (∀ a ∈ db.attempts, ∃ b ∈ (db.elapse e).attempts, b.identity = a.identity ∧
      (a.status = .authorizationRefused ∨ a.status = .authorizationExpired → b = a)) ∧ (db.elapse e).refusals = db.refusals ∧
    (db.elapse e).exchanges = db.exchanges := by
  cases e with
  | payment p =>
    unfold Db.elapse
    dsimp only
    split <;> exact ⟨fun a ha => ⟨a, ha, rfl, fun _ => rfl⟩, rfl, rfl⟩
  | capture attemptId paymentId => exact ⟨fun a ha => ⟨a, ha, rfl, fun _ => rfl⟩, rfl, rfl⟩
  | permission provider granted => exact ⟨fun a ha => ⟨a, ha, rfl, fun _ => rfl⟩, rfl, rfl⟩
  | progress id status =>
    refine ⟨fun a ha => ⟨_, List.mem_map_of_mem ha, ?_, fun hended => ?_⟩, rfl, rfl⟩
    · split
      · exact progress_identity
      · rfl
    · have hu : a.status.unauthorized = true := by rcases hended with h | h <;> rw [h] <;> rfl
      rw [progress_unauthorized hu, ite_self]

theorem step_lawful {s : Transactions.State Db Session}
    (hs : Transactions.Inv (fun _ db => db.Sound digest) (fun db _ x => x.phase.Sound digest db x.op) Apart s)
    (act : Transactions.Action Operation Change) : Lawful digest s act := by
  have hstay : ∀ a ∈ s.db.attempts, ∃ b ∈ s.db.attempts, b.identity = a.identity ∧
      (a.status = .authorizationRefused ∨ a.status = .authorizationExpired → b = a) := fun a ha => ⟨a, ha, rfl, fun _ => rfl⟩
  cases act with
  | start op => exact ⟨hstay, fun f hf => hf, rfl⟩
  | abort n => exact ⟨hstay, fun f hf => hf, rfl⟩
  | elapse e =>
    obtain ⟨hrows, href, hex⟩ := elapse_kept s.db e
    exact ⟨hrows, fun f hf => href ▸ hf, hex⟩
  | exec n =>
    have hdb : ((requests digest).step s (.exec n)).db = s.db := Transactions.step_exec_db
    unfold Lawful
    dsimp only
    rw [hdb]
    refine ⟨hstay, fun f hf => hf, rfl, fun x r hx hr => ⟨fun hl ht => ?_, fun a hl hrep => ?_, fun y id hnone hy hid => ?_⟩⟩
    · obtain ⟨absent, he⟩ := @exec_looks digest s.db x (s.others n) r hr hl
      unfold Session.look at he
      rcases known_taken hs.committed ht with hk | hk
      · rw [hk] at he
        rw [Transactions.step_next hx he]
        exact .inl (by simp [Transactions.State.set])
      · rw [hk] at he
        rw [Transactions.step_next hx he]
        exact .inr (by simp [Transactions.State.set])
    · obtain ⟨absent, he⟩ := @exec_looks digest s.db x (s.others n) r hr hl
      unfold Session.look at he
      rw [known_replay hs.committed hrep] at he
      rw [Transactions.step_next hx he]
      simp [Transactions.State.set]
    · cases hr : (requests digest).exec s.db (s.others n) n x with
      | wait =>
        have hsame : (requests digest).step s (.exec n) = s := by
          unfold Transactions.step
          simp only [hx, hr]
        rw [hsame, hx] at hy
        obtain rfl := Option.some.inj hy
        rw [hnone] at hid
        cases hid
      | refused =>
        rw [Transactions.step_refused hx hr] at hy
        simp [Transactions.State.set] at hy
      | next z =>
        rw [Transactions.step_next hx hr] at hy
        obtain rfl : z = y := by simpa [Transactions.State.set] using hy
        exact exec_unrefused hr hnone hid
  | commit n =>
    cases hx : s.session n with
    | none =>
      have hsame : (requests digest).step s (.commit n) = s := Transactions.step_closed hx
      unfold Lawful
      dsimp only
      rw [hsame]
      exact ⟨hstay, fun f hf => hf, fun _ _ _ _ he => .inl he⟩
    | some x =>
      cases hc : (requests digest).commit s.db n x with
      | none =>
        have hsame : (requests digest).step s (.commit n) = s := Transactions.step_unready hx hc
        unfold Lawful
        dsimp only
        rw [hsame]
        exact ⟨hstay, fun f hf => hf, fun _ _ _ _ he => .inl he⟩
      | some p =>
        obtain ⟨db', y⟩ := p
        have hstep := Transactions.step_commit hx hc
        obtain ⟨hrows, href⟩ := commit_kept hs.committed (hs.sessions.each n x hx) hc
        unfold Lawful
        dsimp only
        rw [hstep]
        refine ⟨hrows, href, fun secret binding consumeRef outcome he => ?_⟩
        rcases commit_consumes (hs.sessions.each n x hx) hc he with he | ⟨r, a, hr, hrest⟩
        · exact .inl he
        · obtain ⟨hsecret, hrest⟩ := hrest
          exact .inr ⟨x, r, a, hx, hr, hsecret, hrest⟩

/-- **The authorization of a refund is idempotent.** -/
theorem authorization_idempotent (digest : String → String) (actions : List (Transactions.Action Operation Change)) :
    (∀ k, Ledger digest ((requests digest).run .new (actions.take k)).db) ∧ Along (requests digest).step (Lawful digest) (.new .new) actions := by
  have hnew : Db.Sound digest .new :=
    ⟨⟨List.nodup_nil, fun e he => (by cases he), fun a ha => (by cases ha), fun f hf => (by cases hf), fun p hp => (by cases hp)⟩, List.nodup_nil⟩
  refine ⟨fun k => (Transactions.Inv.run hnew (keeps digest) (actions.take k)).committed.toLedger, ?_⟩
  refine Along.imp (fun s act hs _ => hs.step (keeps digest) act ?_) (fun s act hs _ => step_lawful hs act) actions (.new hnew)
    (Transactions.meets_true actions _)
  cases act with
  | commit n => exact fun _ _ _ => trivial
  | _ => exact trivial

end

def captureRequest : Request := ⟨"billing", "k", 1, ⟨5, 6, 100, "USD", .duplicateCharge, false, some 7⟩, "s"⟩

def ambiguityArrives : List (Transactions.Action Operation Change) :=
  let request := .start (.request captureRequest (.verified ⟨7, "p", 3⟩) .unresolved .absent)
  [.elapse (.payment ⟨1, "billing", 9⟩), .elapse (.capture 3 1), request, .exec 0, .exec 0, .exec 0, .exec 0, .exec 0, .commit 0, .abort 0,
    .elapse (.capture 3 1), request, .exec 1, .exec 1, .commit 1, .exec 1, .commit 1]

theorem intent_ends_unasked : ∃ a ∈ ((requests id).run .new ambiguityArrives).db.attempts, a.status = .authorizationRefused ∧
    ((requests id).run .new ambiguityArrives).db.exchanges = [.lookup (bindingOf a) a.id .absent] := by
  decide

end NawaraCore.RefundRequests
