import NawaraCore.Auth.OwnerFactor
import NawaraCore.Lib.Rows

/-!
# Time steps are accepted once

The counter of a factor is the last time step that was accepted of it, so a step later than
the counter is a new one. A locked row stays as its session found it.
-/

namespace NawaraCore.OwnerFactor

variable {Secret : Type} {T : Totp Secret} {db db' : FactorDb} {x y : Session} {others : (Session → Bool) → Bool} {id : Nat} {tokens : List EnrollmentToken} {enrolled : List Enrolment} {totp : Option (Nat × String)}

structure FactorDb.Sound (db : FactorDb) : Prop where
  ids : (db.factors.map Factor.id).Nodup
  bound : ∀ f ∈ db.factors, f.id < db.nextId
  accepted : ∀ a ∈ db.accepted, ∃ f ∈ db.factors, f.id = a.factorId ∧ f.confirmedAt.isSome ∧ ∃ c, f.lastUsedCounter = some c ∧ a.timeStep ≤ c
  counters : ∀ f ∈ db.factors, ∀ c, f.lastUsedCounter = some c → ⟨f.id, c⟩ ∈ db.accepted
  once : db.accepted.Nodup

def Session.verifies : Session → List Nat
  | .verifying _ todo => todo.map Factor.id
  | .consuming _ a todo => a.factorId :: todo.map Factor.id
  | .accepted a none _ _ => [a.factorId]
  | _ => []

def Session.confirms : Session → Option Nat
  | .confirming _ a => some a.factorId
  | .accepted a _ _ _ => some a.factorId
  | _ => none

def Session.deletes : Session → List Nat
  | .deleting _ _ _ _ held => held
  | _ => []

structure Session.Sound (db : FactorDb) (x : Session) : Prop where
  deletes : ∀ id ∈ x.deletes, ∃ f ∈ db.factors, f.id = id ∧ f.confirmedAt = none
  verifies : ∀ id ∈ x.verifies, ∃ f ∈ db.factors, f.id = id ∧ f.confirmedAt.isSome
  confirms : ∀ id, x.confirms = some id → id < db.nextId
  locked : ∀ a, x.accepts = some a → (∃ f ∈ db.factors, f.id = a.factorId) → a.factorId ∈ x.held

def Session.Apart (x y : Session) : Prop := ∀ id ∈ x.held, id ∉ y.held

theorem Session.Apart.symm (h : x.Apart y) : y.Apart x := fun id hy hx => h id hx hy

theorem has_iff {p : Factor → Bool} : db.has id p ↔ ∃ f ∈ db.factors, f.id = id ∧ p f := by
  unfold FactorDb.has
  rw [List.any_eq_true]
  simp only [decide_eq_true_eq]

theorem Session.Sound.idle (hd : x.deletes = []) (hv : x.verifies = []) (hc : x.confirms = none) (ha : x.accepts = none) : x.Sound db where
  deletes _ hid := by rw [hd] at hid; cases hid
  verifies _ hid := by rw [hv] at hid; cases hid
  confirms _ hid := by rw [hc] at hid; cases hid
  locked _ hx := by rw [ha] at hx; cases hx

theorem Session.Apart.idle (hx : x.held = []) : x.Apart y := fun _ hid => by rw [hx] at hid; cases hid

theorem Session.Apart.cons {x' : Session} (h : x.Apart y) (hno : y.holds id = false) (hx : ∀ i ∈ x'.held, i = id ∨ i ∈ x.held) : x'.Apart y := by
  intro i hi
  rcases hx i hi with rfl | hi
  · exact of_decide_eq_false hno
  · exact h i hi

/-! ## Statements -/

theorem begins_idle (e : EnrollBy) (totp : Option (Nat × String)) : (e.begins totp).held = [] ∧ (e.begins totp).deletes = [] ∧
    (e.begins totp).verifies = [] ∧ (e.begins totp).confirms = none ∧ (e.begins totp).accepts = none := by
  cases e <;> exact ⟨rfl, rfl, rfl, rfl, rfl⟩

theorem fromToken_next {id : Nat} (hy : fromToken db id totp = .next y) : ∃ ownerId, y = .finish ownerId (some id) false totp := by
  unfold fromToken at hy
  split at hy
  · cases hy
  · dsimp only at hy
    split at hy
    · cases hy
    · exact ⟨_, (Reply.next.inj hy).symm⟩

theorem finish_next {ownerId : Nat} {challenge : Option Nat} {stepUp : Bool}
    (hy : finish db ownerId challenge stepUp totp = .next y) :
    y = .consume ⟨ownerId, challenge, stepUp, enrolments db ownerId⟩ totp ∧ (challenge.isSome → countConfirmed db ownerId = 0) := by
  unfold finish at hy
  dsimp only at hy
  split at hy
  · cases hy
  · rename_i hno
    refine ⟨(Reply.next.inj hy).symm, fun hc => ?_⟩
    simp only [hc, Bool.true_or, Bool.and_true, decide_eq_true_eq] at hno
    omega

variable {c : EnrollCtx}

theorem consume_next (hy : consume db others c totp = .next y) : y = c.confirms totp := by
  unfold consume at hy
  split at hy
  · exact (Reply.next.inj hy).symm
  · split at hy
    · cases hy
    · split at hy
      · exact (Reply.next.inj hy).symm
      · cases hy

theorem confirms_idle (c : EnrollCtx) (totp : Option (Nat × String)) : (c.confirms totp).held = [] ∧ (c.confirms totp).deletes = [] ∧
    (c.confirms totp).verifies = [] ∧ (c.confirms totp).confirms = none ∧ (c.confirms totp).accepts = none := by
  cases totp <;> exact ⟨rfl, rfl, rfl, rfl, rfl⟩

theorem confirmTotp_next {factorId : Nat} {code : String} (hy : confirmTotp T db c factorId code = .next y) :
    ∃ timeStep, y = .confirming c ⟨factorId, timeStep⟩ ∧ ∃ f ∈ db.factors, f.id = factorId ∧ f.ownerId = c.ownerId := by
  unfold confirmTotp at hy
  split at hy
  · cases hy
  · rename_i f hf
    split at hy
    · cases hy
    · rename_i timeStep _
      have hp := List.find?_some hf
      simp only [decide_eq_true_eq] at hp
      exact ⟨timeStep, (Reply.next.inj hy).symm, f, List.mem_of_find?_eq_some hf, hp.1, hp.2.1⟩

theorem removeLocked_next {r : Removal} {held : List Nat} (hy : removeLocked db r held = .next y) : ∃ ids now, y = .removed ids now held := by
  unfold removeLocked at hy
  split at hy
  · split at hy
    · cases hy
    · split at hy
      · cases hy
      · exact ⟨_, _, (Reply.next.inj hy).symm⟩
  · exact ⟨_, _, (Reply.next.inj hy).symm⟩

theorem Session.Sound.removed {ids held : List Nat} {now : Int} : (Session.removed ids now held).Sound db :=
  ⟨nofun, nofun, nofun, nofun⟩

theorem Session.Sound.removing {r : Removal} {todo held : List Nat} : (Session.removing r todo held).Sound db :=
  ⟨nofun, nofun, nofun, nofun⟩

theorem exec_sound (hdb : db.Sound) (hx : x.Sound db) (hy : exec T db others x = .next y) :
    y.Sound db ∧ ∀ z, (∀ p, others p = false → p z = false) → x.Apart z → y.Apart z := by
  cases x with
  | beginTotp ownerId ciphertext keyId =>
    obtain rfl := Reply.next.inj hy
    exact ⟨⟨nofun, nofun, nofun, nofun⟩, fun z _ _ => .idle rfl⟩
  | deleting ownerId ciphertext keyId todo held =>
    cases todo with
    | nil => cases hy
    | cons id todo =>
      dsimp only [exec] at hy
      split at hy
      · cases hy
      · rename_i hfree
        obtain rfl := Reply.next.inj hy
        refine ⟨⟨fun i hi => ?_, nofun, nofun, nofun⟩, fun z hz hxz => ?_⟩
        · dsimp only [Session.deletes] at hi
          split at hi
          · rename_i hrow
            rcases List.mem_cons.mp hi with rfl | hi
            · obtain ⟨f, hf, hid, hnone⟩ := has_iff.mp hrow
              exact ⟨f, hf, hid, of_decide_eq_true hnone⟩
            · exact hx.deletes i hi
          · exact hx.deletes i hi
        · refine hxz.cons (hz _ (Bool.eq_false_iff.mpr hfree)) fun i hi => ?_
          dsimp only [Session.held] at hi
          split at hi
          · exact List.mem_cons.mp hi
          · exact .inr hi
  | fromToken id totp =>
    obtain ⟨ownerId, rfl⟩ := fromToken_next hy
    exact ⟨.idle rfl rfl rfl rfl, fun z _ _ => .idle rfl⟩
  | finish ownerId challenge stepUp totp =>
    obtain ⟨rfl, -⟩ := finish_next hy
    exact ⟨.idle rfl rfl rfl rfl, fun z _ _ => .idle rfl⟩
  | consume c totp =>
    obtain rfl := consume_next hy
    obtain ⟨hheld, hd, hv, hc, ha⟩ := confirms_idle c totp
    exact ⟨.idle hd hv hc ha, fun z _ _ => .idle hheld⟩
  | confirm c factorId code =>
    obtain ⟨timeStep, rfl, f, hf, hid, -⟩ := confirmTotp_next hy
    refine ⟨⟨nofun, nofun, fun i hi => ?_, nofun⟩, fun z _ _ => .idle rfl⟩
    exact Option.some.inj hi ▸ hid ▸ hdb.bound f hf
  | confirming c a =>
    dsimp only [exec] at hy
    split at hy
    · cases hy
    · rename_i hfree
      obtain rfl := Reply.next.inj hy
      refine ⟨⟨nofun, nofun, hx.confirms, fun b hb hrow => ?_⟩, fun z hz hxz => ?_⟩
      · obtain rfl := Option.some.inj hb
        obtain ⟨f, hf, hid⟩ := hrow
        have hhas : db.has a.factorId (fun _ => true) = true := has_iff.mpr ⟨f, hf, hid, rfl⟩
        dsimp only [Session.held]
        rw [if_pos hhas]
        exact List.mem_singleton_self _
      · refine hxz.cons (hz _ (Bool.eq_false_iff.mpr hfree)) fun i hi => ?_
        dsimp only [Session.held] at hi
        split at hi
        · exact .inl (List.mem_singleton.mp hi)
        · cases hi
  | verify ownerId code =>
    obtain rfl := Reply.next.inj hy
    refine ⟨⟨nofun, fun i hi => ?_, nofun, nofun⟩, fun z _ _ => .idle rfl⟩
    obtain ⟨f, hf, rfl⟩ := List.mem_map.mp hi
    obtain ⟨hf, -, -, hc⟩ := List.mem_filter.mp hf |>.imp_right of_decide_eq_true
    exact ⟨f, hf, rfl, (of_decide_eq_true hc).1⟩
  | verifying code todo =>
    cases todo with
    | nil => cases hy
    | cons f todo =>
      dsimp only [exec] at hy
      split at hy
      · obtain rfl := Reply.next.inj hy
        refine ⟨⟨nofun, fun i hi => ?_, nofun, nofun⟩, fun z _ _ => .idle rfl⟩
        exact hx.verifies i (List.mem_cons_of_mem _ hi)
      · obtain rfl := Reply.next.inj hy
        exact ⟨⟨nofun, hx.verifies, nofun, nofun⟩, fun z _ _ => .idle rfl⟩
  | consuming code a todo =>
    dsimp only [exec] at hy
    split at hy
    · cases hy
    · rename_i hfree
      split at hy
      · obtain rfl := Reply.next.inj hy
        have hown : ∃ f ∈ db.factors, f.id = a.factorId ∧ f.confirmedAt.isSome := hx.verifies _ List.mem_cons_self
        refine ⟨⟨nofun, fun i hi => ?_, fun i hi => ?_, fun b hb _ => ?_⟩, fun z hz hxz => ?_⟩
        · exact List.mem_singleton.mp hi ▸ hown
        · obtain ⟨f, hf, hid, -⟩ := hown
          exact Option.some.inj hi ▸ hid ▸ hdb.bound f hf
        · exact Option.some.inj hb ▸ List.mem_singleton_self _
        · exact hxz.cons (hz _ (Bool.eq_false_iff.mpr hfree)) fun i hi => .inl (List.mem_singleton.mp hi)
      · obtain rfl := Reply.next.inj hy
        refine ⟨⟨nofun, fun i hi => ?_, nofun, nofun⟩, fun z _ _ => .idle rfl⟩
        exact hx.verifies i (List.mem_cons_of_mem _ hi)
  | remove ownerId r =>
    obtain rfl := Reply.next.inj hy
    exact ⟨.removing, fun z _ _ => .idle rfl⟩
  | removing r todo held =>
    cases todo with
    | nil =>
      obtain ⟨ids, now, rfl⟩ := removeLocked_next hy
      exact ⟨.removed, fun z _ hxz => hxz⟩
    | cons id todo =>
      dsimp only [exec] at hy
      split at hy
      · cases hy
      · rename_i hfree
        obtain rfl := Reply.next.inj hy
        refine ⟨.removing, fun z hz hxz => hxz.cons (hz _ (Bool.eq_false_iff.mpr hfree)) fun i hi => ?_⟩
        dsimp only [Session.held] at hi
        split at hi
        · exact List.mem_cons.mp hi
        · exact .inr hi
  | issuing ownerId expiresAt => cases hy
  | inserting ownerId ciphertext keyId => cases hy
  | registered c => cases hy
  | accepted a c now held => cases hy
  | removed ids now held => cases hy

/-! ## Commits -/

theorem Session.Sound.keeps (h : x.Sound db) (hd : ∀ f ∈ db.factors, f.id ∈ x.held → f.confirmedAt = none → ∃ f' ∈ db'.factors, f'.id = f.id ∧ f'.confirmedAt = none)
    (hv : ∀ f ∈ db.factors, f.confirmedAt.isSome → ∃ f' ∈ db'.factors, f'.id = f.id ∧ f'.confirmedAt.isSome)
    (hn : db.nextId ≤ db'.nextId) (hb : ∀ f' ∈ db'.factors, f'.id < db.nextId → ∃ f ∈ db.factors, f.id = f'.id) : x.Sound db' where
  deletes id hid := by
    obtain ⟨f, hf, rfl, hnone⟩ := h.deletes id hid
    have hheld : f.id ∈ x.held := by
      cases x with
      | deleting ownerId ciphertext keyId todo held => exact hid
      | _ => cases hid
    exact hd f hf hheld hnone
  verifies id hid := by
    obtain ⟨f, hf, rfl, hsome⟩ := h.verifies id hid
    exact hv f hf hsome
  confirms id hid := Nat.lt_of_lt_of_le (h.confirms id hid) hn
  locked a ha hrow := by
    refine h.locked a ha ?_
    obtain ⟨f', hf', hid⟩ := hrow
    have hknown : a.factorId < db.nextId := by
      cases x with
      | accepted b confirms now held =>
        obtain rfl := Option.some.inj ha
        exact h.confirms _ rfl
      | _ => cases ha
    obtain ⟨f, hf, he⟩ := hb f' hf' (hid ▸ hknown)
    exact ⟨f, hf, he.trans hid⟩

variable {f : Factor}

section
variable {held : List Nat} (hdb : db.Sound)
include hdb

theorem delete_sound (hheld : ∀ id ∈ held, ∃ f ∈ db.factors, f.id = id ∧ f.confirmedAt = none) :
    FactorDb.Sound { db with factors := db.factors.filter fun f => f.id ∉ held } where
  ids := hdb.ids.sublist (List.filter_sublist.map _)
  bound f hf := hdb.bound f (List.mem_filter.mp hf).1
  accepted a ha := by
    obtain ⟨f, hf, hid, hsome, hc⟩ := hdb.accepted a ha
    refine ⟨f, List.mem_filter.mpr ⟨hf, decide_eq_true fun hm => ?_⟩, hid, hsome, hc⟩
    obtain ⟨g, hg, he, hnone⟩ := hheld _ hm
    obtain rfl := eq_of_key hdb.ids hg hf he
    rw [hnone] at hsome
    cases hsome
  counters f hf := hdb.counters f (List.mem_filter.mp hf).1
  once := hdb.once

theorem delete_keeps (hheld : ∀ id ∈ held, ∃ f ∈ db.factors, f.id = id ∧ f.confirmedAt = none) (hy : y.Sound db) (hdis : ∀ id ∈ held, id ∉ y.held) :
    y.Sound { db with factors := db.factors.filter fun f => f.id ∉ held } := by
  refine hy.keeps (fun f hf hm hnone => ?_) (fun f hf hsome => ?_) (Nat.le_refl _) fun f' hf' _ => ⟨f', (List.mem_filter.mp hf').1, rfl⟩
  · exact ⟨f, List.mem_filter.mpr ⟨hf, decide_eq_true fun hh => hdis _ hh hm⟩, rfl, hnone⟩
  · refine ⟨f, List.mem_filter.mpr ⟨hf, decide_eq_true fun hh => ?_⟩, rfl, hsome⟩
    obtain ⟨g, hg, he, hnone⟩ := hheld _ hh
    obtain rfl := eq_of_key hdb.ids hg hf he
    rw [hnone] at hsome
    cases hsome

theorem insert_sound (hid : f.id = db.nextId) (hc : f.lastUsedCounter = none) : (db.insert f).Sound where
  ids := nodup_append_row hdb.ids fun g hg => by
    have := hdb.bound g hg
    omega
  bound g hg := by
    rcases mem_append_row hg with hg | rfl
    · exact Nat.lt_succ_of_lt (hdb.bound g hg)
    · rw [hid]
      exact Nat.lt_succ_self _
  accepted a ha := by
    obtain ⟨g, hg, h⟩ := hdb.accepted a ha
    exact ⟨g, List.mem_append_left _ hg, h⟩
  counters g hg c hcc := by
    rcases mem_append_row hg with hg | rfl
    · exact hdb.counters g hg c hcc
    · rw [hc] at hcc
      cases hcc
  once := hdb.once

omit hdb in
theorem insert_keeps (hid : f.id = db.nextId) (hy : y.Sound db) : y.Sound (db.insert f) := by
  refine hy.keeps (fun g hg _ hnone => ⟨g, List.mem_append_left _ hg, rfl, hnone⟩) (fun g hg hsome => ⟨g, List.mem_append_left _ hg, rfl, hsome⟩)
    (Nat.le_succ _) fun g hg hlt => ?_
  rcases mem_append_row hg with hg | rfl
  · exact ⟨g, hg, rfl⟩
  · rw [hid] at hlt
    exact absurd hlt (Nat.lt_irrefl _)

variable {g : Factor → Factor}

theorem update_sound (hid : ∀ f, (g f).id = f.id) (hc : ∀ f, (g f).confirmedAt = f.confirmedAt)
    (hn : ∀ f, (g f).lastUsedCounter = f.lastUsedCounter) : FactorDb.Sound { db with factors := db.factors.map g } where
  ids := by
    rw [List.map_map]
    exact (List.map_congr_left fun f _ => hid f) ▸ hdb.ids
  bound f' hf' := by
    obtain ⟨f, hf, rfl⟩ := List.mem_map.mp hf'
    exact hid f ▸ hdb.bound f hf
  accepted a ha := by
    obtain ⟨f, hf, h1, h2, h3⟩ := hdb.accepted a ha
    exact ⟨g f, List.mem_map_of_mem hf, (hid f).trans h1, (hc f).symm ▸ h2, (hn f).symm ▸ h3⟩
  counters f' hf' c h := by
    obtain ⟨f, hf, rfl⟩ := List.mem_map.mp hf'
    exact hid f ▸ hdb.counters f hf c (hn f ▸ h)
  once := hdb.once

omit hdb in
theorem update_keeps (hid : ∀ f, (g f).id = f.id) (hc : ∀ f, f.id ∈ y.held → f.confirmedAt = none → (g f).confirmedAt = none)
    (hs : ∀ f, f.confirmedAt.isSome → (g f).confirmedAt.isSome) (hy : y.Sound db) {accepted : List Acceptance} :
    y.Sound { db with factors := db.factors.map g, accepted := accepted } := by
  refine hy.keeps (fun f hf hm hnone => ⟨g f, List.mem_map_of_mem hf, hid f, hc f hm hnone⟩) (fun f hf hsome => ⟨g f, List.mem_map_of_mem hf, hid f, hs f hsome⟩)
    (Nat.le_refl _) fun f' hf' _ => ?_
  obtain ⟨f, hf, rfl⟩ := List.mem_map.mp hf'
  exact ⟨f, hf, (hid f).symm⟩

end

/-! ## Acceptances -/

section
variable {f : Factor} {a : Acceptance} {confirms : Bool} {now : Int} (hdb : db.Sound)
include hdb

theorem unused_new (hf : f ∈ db.factors) (hid : f.id = a.factorId) (hlt : ∀ c, f.lastUsedCounter = some c → c < a.timeStep) : a ∉ db.accepted := by
  intro hm
  obtain ⟨g, hg, he, -, c, hc, hle⟩ := hdb.accepted a hm
  obtain rfl := eq_of_key hdb.ids hf hg (hid.trans he.symm)
  exact absurd (hlt c hc) (by omega)

theorem accept_sound (hf : f ∈ db.factors) (hid : f.id = a.factorId) (hlt : ∀ c, f.lastUsedCounter = some c → c < a.timeStep)
    (hconf : confirms = false → f.confirmedAt.isSome) : (db.accept a confirms now).Sound where
  ids := by
    unfold FactorDb.accept
    dsimp only
    rw [List.map_map, List.map_congr_left fun g _ => show _ = g.id from ?_]
    · exact hdb.ids
    · rw [Function.comp_apply]
      split <;> rfl
  bound g' hg' := by
    obtain ⟨g, hg, rfl⟩ := List.mem_map.mp hg'
    split
    · exact hdb.bound g hg
    · exact hdb.bound g hg
  accepted b hb := by
    have hown : f.accept a confirms now ∈ (db.accept a confirms now).factors := List.mem_map.mpr ⟨f, hf, if_pos hid⟩
    have hsome : (f.accept a confirms now).confirmedAt.isSome := by
      cases confirms with
      | true => rfl
      | false => exact hconf rfl
    rcases List.mem_cons.mp hb with rfl | hb
    · exact ⟨_, hown, hid, hsome, b.timeStep, rfl, Int.le_refl _⟩
    · obtain ⟨g, hg, he, hgs, c, hc, hle⟩ := hdb.accepted b hb
      by_cases hga : g.id = a.factorId
      · obtain rfl := eq_of_key hdb.ids hg hf (hga.trans hid.symm)
        exact ⟨_, hown, he, hsome, a.timeStep, rfl, by have := hlt c hc; omega⟩
      · exact ⟨g, List.mem_map.mpr ⟨g, hg, if_neg hga⟩, he, hgs, c, hc, hle⟩
  counters g' hg' c hc := by
    obtain ⟨g, hg, rfl⟩ := List.mem_map.mp hg'
    by_cases hga : g.id = a.factorId
    · rw [if_pos hga] at hc ⊢
      obtain rfl := Option.some.inj hc
      exact List.mem_cons.mpr (.inl (congrArg (Acceptance.mk · a.timeStep) hga))
    · rw [if_neg hga] at hc ⊢
      exact List.mem_cons_of_mem _ (hdb.counters g hg c hc)
  once := List.nodup_cons.mpr ⟨unused_new hdb hf hid hlt, hdb.once⟩

theorem accept_once : AcceptsOnce db (db.accept a confirms now) ↔
    ∃ f ∈ db.factors, f.id = a.factorId ∧ f.revokedAt = none ∧ ∀ c, f.lastUsedCounter = some c → c < a.timeStep := by
  constructor
  · intro h
    have hnew : a ∉ db.accepted := (List.nodup_cons.mp h.once).1
    obtain ⟨f, hf, hid, hlive⟩ := h.live a List.mem_cons_self hnew
    refine ⟨f, hf, hid, hlive, fun c hc => ?_⟩
    obtain ⟨c', hc', hle⟩ := h.counters f hf (f.accept a confirms now) (List.mem_map.mpr ⟨f, hf, if_pos hid⟩) rfl c hc
    obtain rfl := Option.some.inj hc'
    have hne : c ≠ a.timeStep := fun he => hnew (by
      have hm := hdb.counters f hf c hc
      rwa [hid, he] at hm)
    omega
  · rintro ⟨f, hf, hid, hlive, hlt⟩
    refine ⟨fun g hg g' hg' he c hc => ?_, List.nodup_cons.mpr ⟨unused_new hdb hf hid hlt, hdb.once⟩, fun b hb hno => ?_⟩
    · obtain ⟨g₂, hg₂, rfl⟩ := List.mem_map.mp hg'
      by_cases hga : g₂.id = a.factorId
      · rw [if_pos hga] at he ⊢
        obtain rfl := eq_of_key hdb.ids hg hf (he.symm.trans (hga.trans hid.symm))
        exact ⟨_, rfl, Int.le_of_lt (hlt c hc)⟩
      · rw [if_neg hga] at he ⊢
        obtain rfl := eq_of_key hdb.ids hg₂ hg he
        exact ⟨c, hc, Int.le_refl _⟩
    · rcases List.mem_cons.mp hb with rfl | hb
      · exact ⟨f, hf, hid, hlive⟩
      · exact absurd hb hno

end

/-! ## The whole service -/

theorem AcceptsOnce.same (hdb : db.Sound) (h : db'.accepted = db.accepted)
    (hf : ∀ f ∈ db.factors, ∀ f' ∈ db'.factors, f'.id = f.id → f'.lastUsedCounter = f.lastUsedCounter) : AcceptsOnce db db' where
  counters f hm f' hm' he c hc := ⟨c, (hf f hm f' hm' he).trans hc, Int.le_refl _⟩
  once := h ▸ hdb.once
  live _ ha hno := absurd (h ▸ ha) hno

theorem AcceptsOnce.refl (hdb : db.Sound) (h : db'.accepted = db.accepted) (hf : db'.factors = db.factors) : AcceptsOnce db db' :=
  .same hdb h fun f hm f' hm' he => by rw [eq_of_key hdb.ids (hf ▸ hm') hm he]

theorem insert_once (hdb : db.Sound) (hid : f.id = db.nextId) (hf : db'.factors = db.factors ++ [f]) (ha : db'.accepted = db.accepted) :
    AcceptsOnce db db' := by
  refine .same hdb ha fun g hg g' hg' he => ?_
  rw [hf] at hg'
  rcases mem_append_row hg' with hg' | hg'
  · rw [eq_of_key hdb.ids hg' hg he]
  · have := hdb.bound g hg
    rw [hg'] at he
    omega

theorem AcceptsOnce.beside :
    AcceptsOnce db { db' with tokens := tokens, enrolled := enrolled } ↔ AcceptsOnce db db' :=
  ⟨fun h => ⟨h.counters, h.once, h.live⟩, fun h => ⟨h.counters, h.once, h.live⟩⟩

theorem FactorDb.Sound.beside (h : db.Sound) :
    FactorDb.Sound { db with tokens := tokens, enrolled := enrolled } := ⟨h.ids, h.bound, h.accepted, h.counters, h.once⟩

theorem Session.Sound.beside (h : x.Sound db) :
    x.Sound { db with tokens := tokens, enrolled := enrolled } := ⟨h.deletes, h.verifies, h.confirms, h.locked⟩

theorem commit_once {m : Nat} {next : Option Session} (hdb : db.Sound) (hx : commit db x = some (db', next)) : AcceptsOnce db db' ↔ Unused db m x := by
  cases x with
  | issuing ownerId expiresAt =>
    obtain ⟨rfl, -⟩ := Prod.mk.inj (Option.some.inj hx)
    exact iff_of_true (.refl hdb rfl rfl) nofun
  | deleting ownerId ciphertext keyId todo held =>
    cases todo with
    | cons id todo => cases hx
    | nil =>
      obtain ⟨rfl, -⟩ := Prod.mk.inj (Option.some.inj hx)
      refine iff_of_true (.same hdb rfl fun f hf f' hf' he => ?_) nofun
      rw [eq_of_key hdb.ids (List.mem_filter.mp hf').1 hf he]
  | inserting ownerId ciphertext keyId =>
    obtain ⟨rfl, -⟩ := Prod.mk.inj (Option.some.inj hx)
    exact iff_of_true (insert_once hdb rfl rfl rfl) nofun
  | registered c =>
    obtain ⟨rfl, -⟩ := Prod.mk.inj (Option.some.inj hx)
    exact iff_of_true (insert_once hdb rfl rfl rfl) nofun
  | removed ids now held =>
    obtain ⟨rfl, -⟩ := Prod.mk.inj (Option.some.inj hx)
    refine iff_of_true (.same hdb rfl fun f hf f' hf' he => ?_) nofun
    obtain ⟨g, hg, rfl⟩ := List.mem_map.mp hf'
    have hgf : g.id = f.id := by
      split at he <;> exact he
    obtain rfl := eq_of_key hdb.ids hg hf hgf
    split <;> rfl
  | accepted a c now held =>
    have hunused : Unused db m (.accepted a c now held) ↔
        ∃ f ∈ db.factors, f.id = a.factorId ∧ f.revokedAt = none ∧ ∀ c, f.lastUsedCounter = some c → c < a.timeStep :=
      ⟨fun h => h a rfl, fun h b hb => Option.some.inj hb ▸ h⟩
    rw [hunused]
    cases c with
    | none =>
      obtain ⟨rfl, -⟩ := Prod.mk.inj (Option.some.inj hx)
      exact accept_once hdb
    | some c =>
      obtain ⟨rfl, -⟩ := Prod.mk.inj (Option.some.inj hx)
      exact AcceptsOnce.beside.trans (accept_once hdb)
  | _ => cases hx

theorem accept_keeps {a : Acceptance} {confirms : Bool} {now : Int} (hy : y.Sound db) (hno : a.factorId ∉ y.held) : y.Sound (db.accept a confirms now) := by
  refine update_keeps (fun g => ?_) (fun g hg hnone => ?_) (fun g hsome => ?_) hy
  · split <;> rfl
  · rw [if_neg fun he : g.id = a.factorId => hno (he ▸ hg)]
    exact hnone
  · split
    · unfold Factor.accept
      dsimp only
      split
      · rfl
      · exact hsome
    · exact hsome

theorem factorService_keeps (T : Totp Secret) :
    (factorService T).Keeps (fun _ db => db.Sound) (fun db _ x => x.Sound db) Session.Apart Unused where
  symm _ _ h := h.symm
  fresh _ _ h := h
  start _ db op x _ hx := by
    obtain rfl := Option.some.inj hx
    cases op with
    | confirmTotp e factorId code =>
      obtain ⟨hheld, hd, hv, hc, ha⟩ := begins_idle e (some (factorId, code))
      exact ⟨.idle hd hv hc ha, fun _ => .idle hheld⟩
    | registerWebauthn e =>
      obtain ⟨hheld, hd, hv, hc, ha⟩ := begins_idle e none
      exact ⟨.idle hd hv hc ha, fun _ => .idle hheld⟩
    | _ => exact ⟨.idle rfl rfl rfl rfl, fun _ => .idle rfl⟩
  exec _ _ _ _ _ _ hdb hx hy := exec_sound hdb hx hy
  commit _ db m x db' next hm hdb hx hok hc := by
    cases x with
    | issuing ownerId expiresAt =>
      obtain ⟨rfl, rfl⟩ := Prod.mk.inj (Option.some.inj hc)
      refine ⟨⟨hdb.ids, fun f hf => Nat.lt_succ_of_lt (hdb.bound f hf), hdb.accepted, hdb.counters, hdb.once⟩, nofun, fun k z _ hz _ => ?_⟩
      exact ⟨hz.deletes, hz.verifies, fun id hid => Nat.lt_succ_of_lt (hz.confirms id hid), hz.locked⟩
    | deleting ownerId ciphertext keyId todo held =>
      cases todo with
      | cons id todo => cases hc
      | nil =>
        obtain ⟨rfl, rfl⟩ := Prod.mk.inj (Option.some.inj hc)
        refine ⟨delete_sound hdb hx.deletes, fun z hz => ?_, fun k z _ hz hzx => delete_keeps hdb hx.deletes hz hzx.symm⟩
        obtain rfl := Option.some.inj hz
        exact ⟨.idle rfl rfl rfl rfl, fun _ => .idle rfl⟩
    | inserting ownerId ciphertext keyId =>
      obtain ⟨rfl, rfl⟩ := Prod.mk.inj (Option.some.inj hc)
      exact ⟨insert_sound hdb rfl rfl, nofun, fun k z _ hz _ => insert_keeps rfl hz⟩
    | registered c =>
      obtain ⟨rfl, rfl⟩ := Prod.mk.inj (Option.some.inj hc)
      exact ⟨(insert_sound hdb rfl rfl).beside, nofun, fun k z _ hz _ => (insert_keeps rfl hz).beside⟩
    | removed ids now held =>
      obtain ⟨rfl, rfl⟩ := Prod.mk.inj (Option.some.inj hc)
      refine ⟨update_sound hdb ?_ ?_ ?_, nofun, fun k z _ hz _ => update_keeps ?_ ?_ ?_ hz⟩
      · intro f; split <;> rfl
      · intro f; split <;> rfl
      · intro f; split <;> rfl
      · intro f; split <;> rfl
      · intro f _ hnone; split <;> exact hnone
      · intro f hsome; split <;> exact hsome
    | accepted a c now held =>
      obtain ⟨f, hf, hid, -, hlt⟩ := hok a rfl
      have hheld : a.factorId ∈ held := hx.locked a rfl ⟨f, hf, hid⟩
      cases c with
      | none =>
        obtain ⟨rfl, rfl⟩ := Prod.mk.inj (Option.some.inj hc)
        have hconf : f.confirmedAt.isSome := by
          obtain ⟨g, hg, he, hsome⟩ := hx.verifies a.factorId (List.mem_singleton_self _)
          exact eq_of_key hdb.ids hg hf (he.trans hid.symm) ▸ hsome
        exact ⟨accept_sound hdb hf hid hlt fun _ => hconf, fun _ hz => (by cases hz), fun k z _ hz hzx => accept_keeps hz (hzx.symm _ hheld)⟩
      | some c =>
        obtain ⟨rfl, rfl⟩ := Prod.mk.inj (Option.some.inj hc)
        refine ⟨(accept_sound hdb hf hid hlt fun hno => by cases hno).beside, fun _ hz => (by cases hz), fun k z _ hz hzx => ?_⟩
        exact (accept_keeps hz (hzx.symm _ hheld)).beside
    | _ => cases hc
  elapse _ _ _ hdb := by
    refine ⟨⟨hdb.ids, hdb.bound, hdb.accepted, hdb.counters, hdb.once⟩, fun _ _ hx => ⟨hx.deletes, hx.verifies, hx.confirms, hx.locked⟩⟩

theorem empty_sound : FactorDb.empty.Sound :=
  ⟨List.nodup_nil, fun _ h => (by cases h), fun _ h => (by cases h), fun _ h => (by cases h), List.nodup_nil⟩

/-- In every run, no counter decreases, every time step is accepted once and only of a factor that
is there and not revoked, exactly when every accepting update finds such a factor, its counter
earlier than the step. -/
theorem totp_once (T : Totp Secret) (actions : List (Transactions.Action Operation Int)) :
    Along (factorService T).step (fun s a => AcceptsOnce s.db ((factorService T).step s a).db) (.new .empty) actions ↔
      Along (factorService T).step ((factorService T).Meets Unused) (.new .empty) actions := by
  refine (factorService_keeps T).along (fun _ _ hdb => .refl hdb rfl rfl) (fun _ _ _ hdb => .refl hdb rfl rfl) ?_ empty_sound actions
  exact fun _ _ _ _ _ _ hdb _ hx => commit_once hdb hx

def stepNow : Totp Unit := ⟨fun _ _ _ _ => some (), fun _ _ epoch _ => some (epoch / 30), 30⟩

def confirmedTwice : List (Transactions.Action Operation Int) :=
  [.elapse 90000, .start (.issueToken 1 180000), .commit 0, .start (.issueToken 1 180000), .commit 1,
    .start (.beginTotp 1 "sealed" "k1"), .exec 2, .commit 2, .commit 2,
    .start (.confirmTotp (.token 0) 2 "123456"), .start (.confirmTotp (.token 1) 2 "123456"),
    .exec 3, .exec 3, .exec 3, .exec 3, .exec 4, .exec 4, .exec 4, .exec 4, .exec 3, .commit 3, .exec 4, .commit 4]

theorem totp_twice : ¬ Along (factorService stepNow).step (fun s a => AcceptsOnce s.db ((factorService stepNow).step s a).db) (.new .empty) confirmedTwice := by
  intro h
  have hnodup : ((factorService stepNow).run .empty confirmedTwice).db.accepted.Nodup :=
    Along.invariant (I := fun s : Transactions.State FactorDb Session => s.db.accepted.Nodup) (fun _ _ _ ha => ha.once) _ List.nodup_nil h
  revert hnodup
  decide +kernel

end NawaraCore.OwnerFactor
