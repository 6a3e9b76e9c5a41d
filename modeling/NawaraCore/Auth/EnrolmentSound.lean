import NawaraCore.Auth.OwnerFactorSound

/-!
# Enrolments by a token

A token's enrolment counts the confirmed factors of its owner once. While no other enrolment of
the owner ends, no factor of the owner becomes confirmed.
-/

namespace NawaraCore.OwnerFactor

variable {Secret : Type} {T : Totp Secret} {db db' : FactorDb} {x y : Session} {others : (Session → Bool) → Bool}

structure FactorDb.Keyed (db : FactorDb) : Prop where
  ids : (db.factors.map Factor.id).Nodup
  bound : ∀ f ∈ db.factors, f.id < db.nextId

def Session.counted : Session → Option EnrollCtx
  | .consume c _ => some c
  | x => x.enrols

def Session.names : Session → Option (EnrollCtx × Nat)
  | .confirming c a => some (c, a.factorId)
  | .accepted a (some c) _ _ => some (c, a.factorId)
  | _ => none

structure Session.Counted (db : FactorDb) (x : Session) : Prop where
  seen : ∀ c, x.counted = some c → c.seen ≤ enrolments db c.ownerId
  none : ∀ c, x.counted = some c → c.enrollmentChallengeId.isSome → enrolments db c.ownerId = c.seen →
    ∀ f ∈ db.factors, f.ownerId = c.ownerId → f.confirmed = false
  known : ∀ c id, x.names = some (c, id) → id < db.nextId
  owned : ∀ c id, x.names = some (c, id) → ∀ f ∈ db.factors, f.id = id → f.ownerId = c.ownerId

theorem Session.Counted.idle (hc : x.counted = Option.none) (hn : x.names = Option.none) : x.Counted db where
  seen _ h := by rw [hc] at h; cases h
  none _ h := by rw [hc] at h; cases h
  known _ _ h := by rw [hn] at h; cases h
  owned _ _ h := by rw [hn] at h; cases h

/-! ## Statements -/

theorem exec_counted (hdb : db.Keyed) (hx : x.Counted db) (hy : exec T db others x = .next y) : y.Counted db := by
  cases x with
  | finish ownerId challenge stepUp totp =>
    obtain ⟨rfl, hzero⟩ := finish_next hy
    refine ⟨fun c hc => ?_, fun c hc hsome _ f hf how => ?_, nofun, nofun⟩
    · obtain rfl := Option.some.inj hc
      exact Nat.le_refl _
    · obtain rfl := Option.some.inj hc
      have hno := List.countP_eq_zero.mp (hzero hsome) f hf
      simpa [how] using hno
  | consume c totp =>
    obtain rfl := consume_next hy
    have hcount : (c.confirms totp).counted = some c := by cases totp <;> rfl
    have hnames : (c.confirms totp).names = none := by cases totp <;> rfl
    refine ⟨fun d hd => hx.seen d (hcount.symm.trans hd), fun d hd => hx.none d (hcount.symm.trans hd), fun _ _ h => ?_, fun _ _ h => ?_⟩
    · rw [hnames] at h; cases h
    · rw [hnames] at h; cases h
  | confirm c factorId code =>
    obtain ⟨timeStep, rfl, f, hf, hid, how⟩ := confirmTotp_next hy
    refine ⟨hx.seen, hx.none, fun d id h => ?_, fun d id h g hg he => ?_⟩
    · obtain ⟨rfl, rfl⟩ := Prod.mk.inj (Option.some.inj h)
      exact hid ▸ hdb.bound f hf
    · obtain ⟨rfl, rfl⟩ := Prod.mk.inj (Option.some.inj h)
      exact eq_of_key hdb.ids hf hg (hid.trans he.symm) ▸ how
  | confirming c a =>
    dsimp only [exec] at hy
    split at hy
    · cases hy
    · obtain rfl := Reply.next.inj hy
      exact ⟨hx.seen, hx.none, hx.known, hx.owned⟩
  | fromToken id totp =>
    obtain ⟨ownerId, rfl⟩ := fromToken_next hy
    exact .idle rfl rfl
  | beginTotp ownerId ciphertext keyId =>
    obtain rfl := Reply.next.inj hy
    exact .idle rfl rfl
  | verify ownerId code =>
    obtain rfl := Reply.next.inj hy
    exact .idle rfl rfl
  | remove ownerId r =>
    obtain rfl := Reply.next.inj hy
    exact .idle rfl rfl
  | deleting ownerId ciphertext keyId todo held =>
    cases todo with
    | nil => cases hy
    | cons id todo =>
      dsimp only [exec] at hy
      split at hy
      · cases hy
      · obtain rfl := Reply.next.inj hy
        exact .idle rfl rfl
  | verifying code todo =>
    cases todo with
    | nil => cases hy
    | cons f todo =>
      dsimp only [exec] at hy
      split at hy
      · obtain rfl := Reply.next.inj hy
        exact .idle rfl rfl
      · obtain rfl := Reply.next.inj hy
        exact .idle rfl rfl
  | consuming code a todo =>
    dsimp only [exec] at hy
    split at hy
    · cases hy
    · split at hy
      · obtain rfl := Reply.next.inj hy
        exact .idle rfl rfl
      · obtain rfl := Reply.next.inj hy
        exact .idle rfl rfl
  | removing r todo held =>
    cases todo with
    | nil =>
      obtain ⟨ids, now, rfl⟩ := removeLocked_next hy
      exact .idle rfl rfl
    | cons id todo =>
      dsimp only [exec] at hy
      split at hy
      · cases hy
      · obtain rfl := Reply.next.inj hy
        exact .idle rfl rfl
  | issuing ownerId expiresAt => cases hy
  | inserting ownerId ciphertext keyId => cases hy
  | registered c => cases hy
  | accepted a c now held => cases hy
  | removed ids now held => cases hy

/-! ## Commits -/

/-- What a commit leaves the other sessions: enrolments only join, and a row that becomes
confirmed is of an owner who enrols. -/
theorem Session.Counted.keeps (hx : x.Counted db) (hn : db.nextId ≤ db'.nextId) (he : ∀ o, enrolments db o ≤ enrolments db' o)
    (hc : ∀ f' ∈ db'.factors, f'.confirmed → enrolments db' f'.ownerId = enrolments db f'.ownerId → ∃ f ∈ db.factors, f.ownerId = f'.ownerId ∧ f.confirmed)
    (hrows : ∀ f' ∈ db'.factors, f'.id < db.nextId → ∃ f ∈ db.factors, f.id = f'.id ∧ f.ownerId = f'.ownerId) : x.Counted db' where
  seen c h := Nat.le_trans (hx.seen c h) (he _)
  none c h hsome heq f' hf' how := by
    have hsame : enrolments db c.ownerId = c.seen := Nat.le_antisymm (heq ▸ he _) (hx.seen c h)
    rw [Bool.eq_false_iff]
    intro hconf
    obtain ⟨f, hf, hfo, hfc⟩ := hc f' hf' hconf (by rw [how, heq, hsame])
    rw [hx.none c h hsome hsame f hf (hfo.trans how)] at hfc
    cases hfc
  known c id h := Nat.lt_of_lt_of_le (hx.known c id h) hn
  owned c id h f' hf' hid := by
    obtain ⟨f, hf, hfi, hfo⟩ := hrows f' hf' (hid ▸ hx.known c id h)
    exact hfo ▸ hx.owned c id h f hf (hfi.trans hid)

theorem enrolments_same (h : db'.enrolled = db.enrolled) (o : Nat) : enrolments db' o = enrolments db o := by
  unfold enrolments
  rw [h]

theorem enrolments_enrol (db : FactorDb) (c : EnrollCtx) (id o : Nat) :
    enrolments (db.enrol c id) o = enrolments db o + if c.ownerId = o then 1 else 0 := by
  unfold enrolments FactorDb.enrol
  rw [List.countP_cons]
  simp only [decide_eq_true_eq]

theorem Session.Counted.quiet (hx : x.Counted db) (hn : db.nextId ≤ db'.nextId) (he : db'.enrolled = db.enrolled)
    (hc : ∀ f' ∈ db'.factors, (f'.confirmed = false ∧ db.nextId ≤ f'.id) ∨ ∃ f ∈ db.factors, f.id = f'.id ∧ f.ownerId = f'.ownerId ∧ (f'.confirmed → f.confirmed)) :
    x.Counted db' := by
  refine hx.keeps hn (fun o => Nat.le_of_eq (enrolments_same he o).symm) (fun f' hf' hconf _ => ?_) fun f' hf' hlt => ?_
  · rcases hc f' hf' with ⟨hno, -⟩ | ⟨f, hf, -, how, himp⟩
    · rw [hno] at hconf
      cases hconf
    · exact ⟨f, hf, how, himp hconf⟩
  · rcases hc f' hf' with ⟨-, hge⟩ | ⟨f, hf, hid, how, -⟩
    · exact absurd hlt (by omega)
    · exact ⟨f, hf, hid, how⟩

theorem EnrolsAlone.same (h : db'.enrolled = db.enrolled) : EnrolsAlone db db' where
  alone e he := absurd (h.symm.trans he) (List.cons_ne_self e _).symm
  left e he := absurd (h.symm.trans he) (List.cons_ne_self e _).symm

variable {f : Factor}

theorem insert_keyed (hdb : db.Keyed) (hid : f.id = db.nextId) : (db.insert f).Keyed where
  ids := nodup_append_row hdb.ids fun g hg => by
    have := hdb.bound g hg
    omega
  bound g hg := by
    rcases mem_append_row hg with hg | rfl
    · exact Nat.lt_succ_of_lt (hdb.bound g hg)
    · rw [hid]
      exact Nat.lt_succ_self _

theorem map_keyed {g : Factor → Factor} (hdb : db.Keyed) (hid : ∀ f, (g f).id = f.id) (hf : db'.factors = db.factors.map g) (hn : db'.nextId = db.nextId) :
    db'.Keyed where
  ids := by
    rw [hf, List.map_map]
    exact (List.map_congr_left fun f _ => hid f) ▸ hdb.ids
  bound f' hf' := by
    rw [hf] at hf'
    obtain ⟨f, hm, rfl⟩ := List.mem_map.mp hf'
    rw [hn, hid f]
    exact hdb.bound f hm

/-! ## Ends of enrolments -/

section
variable {c : EnrollCtx} {a : Acceptance} {now : Int} {held : List Nat}

theorem alone_of (hx : x.Counted db) (hok : Undisturbed db 0 x) (hc : x.enrols = some c) (hcount : x.counted = some c) {id : Nat} :
    ∀ e, (⟨c.ownerId, c.enrollmentChallengeId, id⟩ :: db.enrolled : List Enrolment) = e :: db.enrolled → e.challenge.isSome →
      ∀ f ∈ db.factors, f.ownerId = e.ownerId → f.confirmed → f.id = e.factorId := by
  intro e he hsome f hf how hconf
  obtain ⟨rfl, -⟩ := List.cons.inj he
  rw [hx.none c hcount hsome (hok.1 c hc hsome) f hf how] at hconf
  cases hconf

theorem registered_alone (hx : (Session.registered c).Counted db) (hok : Undisturbed db 0 (.registered c)) (hid : f.id = db.nextId)
    (how : f.ownerId = c.ownerId) (hf : f.confirmed) : EnrolsAlone db ((db.insert f).enrol c db.nextId) where
  alone := alone_of hx hok rfl rfl
  left e he := by
    obtain ⟨rfl, -⟩ := List.cons.inj he
    exact ⟨f, List.mem_append_right _ (List.mem_singleton_self _), hid, how, hf⟩

theorem accepted_alone (hx : (Session.accepted a (some c) now held).Counted db) (hok : Undisturbed db 0 (.accepted a (some c) now held)) :
    EnrolsAlone db ((db.accept a true now).enrol c a.factorId) where
  alone := alone_of hx hok rfl rfl
  left e he := by
    obtain ⟨rfl, -⟩ := List.cons.inj he
    obtain ⟨f, hf, hid, hlive⟩ := hok.2 a rfl rfl
    refine ⟨f.accept a true now, List.mem_map.mpr ⟨f, hf, if_pos hid⟩, hid, hx.owned c a.factorId rfl f hf hid, ?_⟩
    exact decide_eq_true ⟨rfl, hlive⟩

theorem registered_keeps (hid : f.id = db.nextId) (how : f.ownerId = c.ownerId) (hy : y.Counted db) :
    y.Counted ((db.insert f).enrol c db.nextId) := by
  refine hy.keeps (Nat.le_succ _) (fun o => ?_) (fun g hg _ heq => ?_) fun g hg hlt => ?_
  · rw [enrolments_enrol]
    exact Nat.le_add_right _ _
  · rw [enrolments_enrol] at heq
    rcases mem_append_row hg with hg | rfl
    · exact ⟨g, hg, rfl, by assumption⟩
    · rw [how, if_pos rfl] at heq
      exact absurd heq (Nat.succ_ne_self _)
  · rcases mem_append_row hg with hg | rfl
    · exact ⟨g, hg, rfl, rfl⟩
    · rw [hid] at hlt
      exact absurd hlt (Nat.lt_irrefl _)

theorem accepted_keeps (hx : (Session.accepted a (some c) now held).Counted db) (hy : y.Counted db) :
    y.Counted ((db.accept a true now).enrol c a.factorId) := by
  refine hy.keeps (Nat.le_refl _) (fun o => ?_) (fun g' hg' hconf heq => ?_) fun g' hg' _ => ?_
  · rw [enrolments_enrol]
    exact Nat.le_add_right _ _
  · rw [enrolments_enrol] at heq
    obtain ⟨g, hg, rfl⟩ := List.mem_map.mp hg'
    by_cases hid : g.id = a.factorId
    · -- the row that it confirms is of the owner who enrols
      rw [if_pos hid] at heq
      rw [show (g.accept a true now).ownerId = c.ownerId from hx.owned c a.factorId rfl g hg hid, if_pos rfl] at heq
      exact absurd heq (Nat.succ_ne_self _)
    · rw [if_neg hid] at hconf ⊢
      exact ⟨g, hg, rfl, hconf⟩
  · obtain ⟨g, hg, rfl⟩ := List.mem_map.mp hg'
    refine ⟨g, hg, ?_, ?_⟩
    · split <;> rfl
    · split <;> rfl

end

/-! ## The whole service -/

theorem removed_quiet {ids : List Nat} {now : Int} (hy : y.Counted db) :
    y.Counted { db with factors := db.factors.map fun f => if f.id ∈ ids then { f with revokedAt := some now } else f } := by
  refine hy.quiet (Nat.le_refl _) rfl fun f' hf' => ?_
  obtain ⟨f, hf, rfl⟩ := List.mem_map.mp hf'
  refine .inr ⟨f, hf, ?_, ?_, fun hconf => ?_⟩
  · split <;> rfl
  · split <;> rfl
  · split at hconf
    · exact absurd (of_decide_eq_true hconf).2 nofun
    · exact hconf

theorem factorService_counts (T : Totp Secret) :
    (factorService T).Keeps (fun _ db => db.Keyed) (fun db _ x => x.Counted db) (fun _ _ => True) Undisturbed where
  symm _ _ _ := trivial
  fresh _ _ h := h
  start _ db op x _ hx := by
    refine ⟨?_, fun _ => trivial⟩
    obtain rfl := Option.some.inj hx
    cases op with
    | confirmTotp e factorId code => cases e <;> exact .idle rfl rfl
    | registerWebauthn e => cases e <;> exact .idle rfl rfl
    | _ => exact .idle rfl rfl
  exec _ _ _ _ _ _ hdb hx hy := ⟨exec_counted hdb hx hy, fun _ _ _ => trivial⟩
  commit _ db m x db' next hm hdb hx hok hc := by
    cases x with
    | issuing ownerId expiresAt =>
      obtain ⟨rfl, rfl⟩ := Prod.mk.inj (Option.some.inj hc)
      refine ⟨⟨hdb.ids, fun f hf => Nat.lt_succ_of_lt (hdb.bound f hf)⟩, nofun, fun k z _ hz _ => ?_⟩
      exact hz.quiet (Nat.le_succ _) rfl fun f hf => .inr ⟨f, hf, rfl, rfl, fun h => h⟩
    | deleting ownerId ciphertext keyId todo held =>
      cases todo with
      | cons id todo => cases hc
      | nil =>
        obtain ⟨rfl, rfl⟩ := Prod.mk.inj (Option.some.inj hc)
        refine ⟨⟨hdb.ids.sublist (List.filter_sublist.map _), fun f hf => hdb.bound f (List.mem_filter.mp hf).1⟩, fun z hz => ?_, fun k z _ hz _ => ?_⟩
        · obtain rfl := Option.some.inj hz
          exact ⟨.idle rfl rfl, fun _ => trivial⟩
        · exact hz.quiet (Nat.le_refl _) rfl fun f hf => .inr ⟨f, (List.mem_filter.mp hf).1, rfl, rfl, fun h => h⟩
    | inserting ownerId ciphertext keyId =>
      obtain ⟨rfl, rfl⟩ := Prod.mk.inj (Option.some.inj hc)
      refine ⟨insert_keyed hdb rfl, nofun, fun k z _ hz _ => hz.quiet (Nat.le_succ _) rfl fun f hf => ?_⟩
      rcases mem_append_row hf with hf | rfl
      · exact .inr ⟨f, hf, rfl, rfl, fun h => h⟩
      · exact .inl ⟨rfl, Nat.le_refl _⟩
    | registered c =>
      obtain ⟨rfl, rfl⟩ := Prod.mk.inj (Option.some.inj hc)
      have hkeyed := insert_keyed (f := ⟨db.nextId, c.ownerId, .webauthn, "", "", some db.clock, none, none, none, db.clock⟩) hdb rfl
      exact ⟨⟨hkeyed.ids, hkeyed.bound⟩, nofun, fun k z _ hz _ => registered_keeps rfl rfl hz⟩
    | removed ids now held =>
      obtain ⟨rfl, rfl⟩ := Prod.mk.inj (Option.some.inj hc)
      refine ⟨map_keyed hdb (fun f => ?_) rfl rfl, nofun, fun k z _ hz _ => removed_quiet hz⟩
      split <;> rfl
    | accepted a c now held =>
      have hid : ∀ (confirms : Bool) (f : Factor), (if f.id = a.factorId then f.accept a confirms now else f).id = f.id := by
        intro confirms f
        split <;> rfl
      cases c with
      | none =>
        obtain ⟨rfl, rfl⟩ := Prod.mk.inj (Option.some.inj hc)
        refine ⟨map_keyed hdb (hid false) rfl rfl, nofun, fun k z _ hz _ => hz.quiet (Nat.le_refl _) rfl fun f' hf' => ?_⟩
        obtain ⟨f, hf, rfl⟩ := List.mem_map.mp hf'
        refine .inr ⟨f, hf, (hid false f).symm, ?_, fun hconf => ?_⟩
        · split <;> rfl
        · split at hconf <;> exact hconf
      | some c =>
        obtain ⟨rfl, rfl⟩ := Prod.mk.inj (Option.some.inj hc)
        exact ⟨map_keyed hdb (hid true) rfl rfl, nofun, fun k z _ hz _ => accepted_keeps hx hz⟩
    | _ => cases hc
  elapse _ _ _ hdb := ⟨⟨hdb.ids, hdb.bound⟩, fun _ _ hx => ⟨hx.seen, hx.none, hx.known, hx.owned⟩⟩

theorem commit_alone {m : Nat} {next : Option Session} (hx : x.Counted db) (hok : Undisturbed db m x) (hc : commit db x = some (db', next)) :
    EnrolsAlone db db' := by
  cases x with
  | registered c =>
    obtain ⟨rfl, -⟩ := Prod.mk.inj (Option.some.inj hc)
    exact registered_alone hx hok rfl rfl rfl
  | accepted a c now held =>
    cases c with
    | none =>
      obtain ⟨rfl, -⟩ := Prod.mk.inj (Option.some.inj hc)
      exact .same rfl
    | some c =>
      obtain ⟨rfl, -⟩ := Prod.mk.inj (Option.some.inj hc)
      exact accepted_alone hx hok
  | deleting ownerId ciphertext keyId todo held =>
    cases todo with
    | cons id todo => cases hc
    | nil =>
      obtain ⟨rfl, -⟩ := Prod.mk.inj (Option.some.inj hc)
      exact .same rfl
  | issuing ownerId expiresAt =>
    obtain ⟨rfl, -⟩ := Prod.mk.inj (Option.some.inj hc)
    exact .same rfl
  | inserting ownerId ciphertext keyId =>
    obtain ⟨rfl, -⟩ := Prod.mk.inj (Option.some.inj hc)
    exact .same rfl
  | removed ids now held =>
    obtain ⟨rfl, -⟩ := Prod.mk.inj (Option.some.inj hc)
    exact .same rfl
  | _ => cases hc

end NawaraCore.OwnerFactor
