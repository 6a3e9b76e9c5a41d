import NawaraCore.Release.RegistrySound

/-!
# Commits of the registry

A commit keeps what every other session rests on, and the law of the registry with it.
-/

namespace NawaraCore.Releases

/-! ## What a commit keeps -/

variable {db' : Db}

section
variable {db : Db} {x y : Session} {c : ComponentId} {id : ReleaseId} {v : Version} {w : Writes}

theorem apply_none : db.apply .none = db := by
  unfold Db.apply Writes.none
  simp

theorem component_mono {d : Component} (h : d ∈ db.components) : d ∈ (db.apply w).components := List.mem_append_left _ h

theorem product_mono {k : String} (h : k ∈ db.products) : k ∈ (db.apply w).products := List.mem_append_left _ h

theorem mem_apply_ids : (∃ r ∈ (db.apply w).releases, r.id = id) ↔ (∃ r ∈ db.releases, r.id = id) ∨ w.registers id := by
  unfold Db.apply Writes.registers
  cases w.change with
  | none => simp
  | some ch =>
    cases ch with
    | registered r => simp [Change.releases, or_and_right, exists_or]
    | moved r =>
      have hids : ∀ l : List Release, (∃ o ∈ l, o.id = id) ↔ id ∈ l.map Release.id := fun l => List.mem_map.symm
      dsimp only [Option.elim, Change.releases]
      rw [hids, hids, map_replaceRow fun _ _ he => he]
      simp
    | appended p => simp [Change.releases]

variable {r : Release}

theorem mem_apply (hr : r ∈ db.releases) (hm : w.moves r.id = false) : r ∈ (db.apply w).releases := by
  unfold Db.apply
  unfold Writes.moves at hm
  cases hw : w.change with
  | none => exact hr
  | some ch =>
    rw [hw] at hm
    cases ch with
    | registered o => exact List.mem_append_left _ hr
    | moved o => exact replaceRow_other hr (Ne.symm (by simpa using hm))
    | appended p => exact hr

theorem Session.Sound.keeps (h : y.Sound db) (hreg : Registered db) (hl : y.lock ≠ some c) :
    (db.apply y.writes).policyHistory c = db.policyHistory c ∧
      ∀ r ∈ db.releases, r.id.component = c → r.offered → r ∈ (db.apply y.writes).releases := by
  have hr := h.ready
  constructor
  · unfold Db.policyHistory Db.apply
    cases hw : y.writes.change with
    | none => rfl
    | some ch =>
      cases ch with
      | registered r => rfl
      | moved r => rfl
      | appended p =>
        obtain ⟨_, -, -, -, hlock⟩ := hr _ hw
        have hne : p.component ≠ c := fun he => hl (he ▸ hlock)
        simp [Change.policies, List.filter_append, hne]
  · intro r hrm hrc hro
    refine mem_apply hrm ?_
    by_contra hm
    unfold Writes.moves at hm
    cases hw : y.writes.change with
    | none => simp [hw] at hm
    | some ch =>
      cases ch with
      | registered o => simp [hw] at hm
      | appended p => simp [hw] at hm
      | moved o =>
        have hid : o.id = r.id := by simpa [hw] using hm
        obtain ⟨o', ho', hop | ⟨-, -, -, hlock, -⟩⟩ := hr _ hw
        · obtain ⟨-, hs, t, rfl⟩ := hop
          obtain rfl := eq_of_key hreg.releases ho' hrm hid
          simp [Release.offered, hs] at hro
        · exact hl (by rw [hlock, hid, hrc])

theorem policyVersion_congr (h : db'.policyHistory c = db.policyHistory c) : db'.policyVersion c = db.policyVersion c := by
  unfold Db.policyVersion Db.currentPolicy
  rw [h]

theorem currentPolicy_congr (h : db'.policyHistory c = db.policyHistory c) : db'.currentPolicy c = db.currentPolicy c := by
  unfold Db.currentPolicy
  rw [h]

theorem atOrBelowLatest_mono (hk : ∀ r ∈ db.releases, r.id.component = c → r.offered → r ∈ db'.releases)
    (h : db.atOrBelowLatest c v) : db'.atOrBelowLatest c v := by
  obtain ⟨r, hr, hc, ho, hle⟩ := atOrBelowLatest_iff.mp h
  exact atOrBelowLatest_iff.mpr ⟨r, hk r hr hc ho, hc, ho, hle⟩

theorem not_breaks_mono (hp : db'.policyHistory id.component = db.policyHistory id.component)
    (hk : ∀ r ∈ db.releases, r.id.component = id.component → r.offered → r ∈ db'.releases)
    (h : db.withdrawalBreaksMinimum id = false) : db'.withdrawalBreaksMinimum id = false := by
  refine not_breaks_iff.mpr fun p hcur => ?_
  rw [currentPolicy_congr hp] at hcur
  obtain ⟨r, hr, hc, hne, ho, hle⟩ := not_breaks_iff.mp h p hcur
  exact ⟨r, hk r hr hc ho, hc, hne, ho, hle⟩

theorem Session.Sound.after (hx : x.Sound db) (hy : y.Sound db) (ha : x.Apart y) (hreg : Registered db) : x.Sound (db.apply y.writes) where
  product k hk := by
    obtain ⟨he, hnew⟩ := hx.product k hk
    refine ⟨he, fun hm => ?_⟩
    rcases List.mem_append.mp hm with hm | hm
    · exact hnew hm
    · exact ha.product k hk (Option.mem_toList.mp hm)
  component d hd := by
    obtain ⟨hr, he, hnew⟩ := hx.component d hd
    refine ⟨hr, he, fun e hm => ?_⟩
    rcases List.mem_append.mp hm with hm | hm
    · exact hnew e hm
    · exact (ha.component d e hd (Option.mem_toList.mp hm)).symm
  hasProduct hr hp := (hx.hasProduct hr hp).imp_left product_mono
  hasComponent hr hp hp' := (hx.hasComponent hr hp hp').imp_left fun ⟨d, hd, he⟩ => ⟨d, component_mono hd, he⟩
  stage := hx.stage
  ready ch hch := by
    have hr := hx.ready ch hch
    cases ch with
    | registered r =>
      refine ⟨hr.1, hr.2.1, fun o ho he => ?_⟩
      rcases mem_apply_ids.mp ⟨o, ho, he⟩ with ⟨o', ho', he'⟩ | hreg'
      · exact hr.2.2 o' ho' he'
      · have hxr : x.writes.registers r.id := by
          unfold Writes.registers
          rw [hch]
          exact decide_eq_true rfl
        rw [ha.registered _ hxr] at hreg'
        cases hreg'
    | moved r =>
      have hxm : x.writes.moves r.id := by
        unfold Writes.moves
        rw [hch]
        exact decide_eq_true rfl
      obtain ⟨o, ho, hcase⟩ := hr
      have hid : o.id = r.id := by
        rcases hcase with ⟨-, -, t, rfl⟩ | ⟨-, -, ⟨t, rfl⟩, -⟩ <;> rfl
      refine ⟨o, mem_apply ho (hid ▸ ha.moved _ hxm), hcase.imp_right fun ⟨hop, hs, hrow, hlock, hkeeps⟩ => ⟨hop, hs, hrow, hlock, ?_⟩⟩
      have hk := hy.keeps hreg (ha.lock _ hlock)
      exact not_breaks_mono hk.1 hk.2 hkeeps
    | appended p =>
      obtain ⟨minimumVersion, hop, hp, hbelow, hlock⟩ := hr
      have hk := hy.keeps hreg (ha.lock _ hlock)
      rw [← policyVersion_congr hk.1] at hop hp
      exact ⟨minimumVersion, hop, hp, atOrBelowLatest_mono hk.2 hbelow, hlock⟩

/-! ## The tables after a commit -/

theorem Session.Sound.moves (h : x.Sound db) (hr : x.writes.change = some (.moved r)) : ∃ o ∈ db.releases, o.id = r.id ∧ o.Moves r := by
  obtain ⟨o, ho, ⟨-, hs, t, rfl⟩ | ⟨-, hs, ⟨t, rfl⟩, -⟩⟩ := h.ready _ hr
  · exact ⟨o, ho, rfl, .inr (.inl ⟨hs, t, rfl⟩)⟩
  · exact ⟨o, ho, rfl, .inr (.inr ⟨hs, t, rfl⟩)⟩

theorem Session.Sound.forward (h : x.Sound db) (hreg : Registered db) (hr : r ∈ db.releases) :
    ∃ r' ∈ (db.apply x.writes).releases, r.Moves r' := by
  by_cases hm : x.writes.moves r.id
  · unfold Writes.moves at hm
    cases hw : x.writes.change with
    | none => simp [hw] at hm
    | some ch =>
      cases ch with
      | registered o => simp [hw] at hm
      | appended p => simp [hw] at hm
      | moved r' =>
        have hid : r'.id = r.id := by simpa [hw] using hm
        obtain ⟨o, ho, hoid, hmoves⟩ := h.moves hw
        obtain rfl := eq_of_key hreg.releases ho hr (hoid.trans hid)
        refine ⟨r', ?_, hmoves⟩
        unfold Db.apply
        rw [hw]
        exact replaceRow_mem ho hoid
  · exact ⟨r, mem_apply hr (by simpa using hm), .inl rfl⟩

theorem apply_policies : (db.apply w).policies = db.policies ++ (match w.change with
    | some (.appended p) => [p]
    | _ => []) := by
  unfold Db.apply
  cases w.change with
  | none => simp
  | some ch => cases ch <;> simp [Change.policies]

theorem apply_policyHistory : (db.apply w).policyHistory c = db.policyHistory c ++ (match w.change with
    | some (.appended p) => if p.component = c then [p] else []
    | _ => []) := by
  unfold Db.policyHistory
  rw [apply_policies, List.filter_append]
  congr 1
  cases w.change with
  | none => rfl
  | some ch =>
    cases ch with
    | appended p => by_cases hc : p.component = c <;> simp [hc]
    | _ => rfl

theorem Session.Sound.numbered (h : x.Sound db) (hn : db.Numbered) : (db.apply x.writes).Numbered := by
  intro c
  rw [apply_policyHistory]
  cases hw : x.writes.change with
  | none => simpa using hn c
  | some ch =>
    cases ch with
    | registered r => simpa using hn c
    | moved r => simpa using hn c
    | appended p =>
      dsimp only
      by_cases hc : p.component = c
      · subst hc
        obtain ⟨_, -, hp, -⟩ := h.ready _ hw
        have hv : p.policyVersion = (db.policyHistory p.component).length + 1 := by
          rw [← hn.policyVersion]
          exact congrArg CompatibilityPolicy.policyVersion hp
        rw [if_pos rfl, List.map_append, List.map_singleton, List.length_append, List.length_singleton, hn, hv, List.range'_1_concat, Nat.add_comm 1]
      · rw [if_neg hc, List.append_nil]
        exact hn c

theorem Session.Sound.current (h : x.Sound db) {p : CompatibilityPolicy} (hw : x.writes.change = some (.appended p)) :
    (db.apply x.writes).currentPolicy p.component = some p := by
  obtain ⟨_, -, hp, -⟩ := h.ready _ hw
  have hv : p.policyVersion = db.policyVersion p.component + 1 := congrArg CompatibilityPolicy.policyVersion hp
  unfold Db.policyVersion at hv
  unfold Db.currentPolicy at hv ⊢
  rw [apply_policyHistory, hw]
  dsimp only
  rw [if_pos rfl, List.argmax_concat]
  cases hc : (db.policyHistory p.component).argmax CompatibilityPolicy.policyVersion with
  | none => rfl
  | some q =>
    rw [hc] at hv
    dsimp only
    rw [if_pos (by rw [hv]; exact Nat.lt_succ_self _)]

theorem Session.Sound.minimum (h : x.Sound db) (hreg : Registered db) (c : ComponentId) (p : CompatibilityPolicy)
    (hp : (db.apply x.writes).currentPolicy c = some p) : (db.apply x.writes).atOrBelowLatest c p.minimumVersion := by
  have kept : (db.apply x.writes).policyHistory c = db.policyHistory c →
      (∀ r ∈ db.releases, r.id.component = c → r.offered → r ∈ (db.apply x.writes).releases) → (db.apply x.writes).atOrBelowLatest c p.minimumVersion := by
    intro hh hk
    rw [currentPolicy_congr hh] at hp
    exact atOrBelowLatest_mono hk (hreg.minimum c p hp)
  by_cases hl : x.lock = some c
  · cases hw : x.writes.change with
    | none => exact kept (by rw [apply_policyHistory, hw]; simp) fun r hr _ _ => mem_apply hr (by simp [Writes.moves, hw])
    | some ch =>
      cases ch with
      | registered r => exact kept (by rw [apply_policyHistory, hw]; simp) fun r hr _ _ => mem_apply hr (by simp [Writes.moves, hw])
      | moved r =>
        have hh : (db.apply x.writes).policyHistory c = db.policyHistory c := by
          rw [apply_policyHistory, hw]
          simp
        obtain ⟨o, ho, ⟨-, hs, t, rfl⟩ | ⟨-, hs, ⟨t, rfl⟩, hlock, hkeeps⟩⟩ := h.ready _ hw
        · refine kept hh fun r hr _ hro => mem_apply hr ?_
          by_contra hm
          obtain rfl := eq_of_key hreg.releases ho hr (by simpa [Writes.moves, hw] using hm)
          simp [Release.offered, hs] at hro
        · -- another offered release is at least the minimum
          obtain rfl : o.id.component = c := Option.some.inj (hlock.symm.trans hl)
          rw [currentPolicy_congr hh] at hp
          obtain ⟨r, hr, hrc, hne, hro, hle⟩ := not_breaks_iff.mp hkeeps p hp
          exact atOrBelowLatest_iff.mpr ⟨r, mem_apply hr (by simpa [Writes.moves, hw] using Ne.symm hne), hrc, hro, hle⟩
      | appended q =>
        obtain ⟨minimumVersion, -, hq, hbelow, hlock⟩ := h.ready _ hw
        obtain rfl : q.component = c := Option.some.inj (hlock.symm.trans hl)
        obtain rfl := Option.some.inj ((h.current hw).symm.trans hp)
        rw [congrArg CompatibilityPolicy.minimumVersion hq]
        exact atOrBelowLatest_mono (fun r hr _ _ => mem_apply hr (by simp [Writes.moves, hw])) hbelow
  · obtain ⟨hh, hk⟩ := h.keeps hreg hl
    exact kept hh hk

theorem Registered.apply (hreg : Registered db) (h : x.Sound db) (hp : x.phase = .commit) : Registered (db.apply x.writes) where
  componentProduct c hc := by
    rcases List.mem_append.mp hc with hc | hc
    · exact product_mono (hreg.componentProduct c hc)
    · obtain ⟨hr, hid, -⟩ := h.component c (Option.mem_toList.mp hc)
      rw [hid]
      rcases h.hasProduct hr (by rw [hp]; nofun) with hm | hm
      · exact product_mono hm
      · exact List.mem_append_right _ (Option.mem_toList.mpr hm)
  releaseComponent r hr := by
    rcases mem_apply_ids.mp ⟨r, hr, rfl⟩ with ⟨o, ho, hid⟩ | hnew
    · obtain ⟨c, hc, he⟩ := hreg.releaseComponent o ho
      exact ⟨c, component_mono hc, he.trans (congrArg ReleaseId.component hid)⟩
    · unfold Writes.registers at hnew
      cases hw : x.writes.change with
      | none => simp [hw] at hnew
      | some ch =>
        cases ch with
        | moved o => simp [hw] at hnew
        | appended p => simp [hw] at hnew
        | registered o =>
          have hid : o.id = r.id := by simpa [hw] using hnew
          have hop : x.op.registers = some o.id := (h.ready _ hw).1
          have hcomp : x.op.component = r.id.component := by
            rw [← hid]
            cases hx : x.op with
            | register => rw [hx] at hop; exact congrArg ReleaseId.component (Option.some.inj hop)
            | _ => rw [hx] at hop; cases hop
          rcases h.hasComponent (by rw [hop]; rfl) (by rw [hp]; nofun) (by rw [hp]; nofun) with ⟨c, hc, he⟩ | ⟨c, hc, he⟩
          · exact ⟨c, component_mono hc, he.trans hcomp⟩
          · exact ⟨c, List.mem_append_right _ (Option.mem_toList.mpr hc), he.trans hcomp⟩
  releases := by
    unfold Db.apply
    cases hw : x.writes.change with
    | none => exact hreg.releases
    | some ch =>
      cases ch with
      | registered r => exact nodup_append_row hreg.releases (h.ready _ hw).2.2
      | moved r =>
        dsimp only [Option.elim, Change.releases]
        rw [map_replaceRow fun _ _ he => he]
        exact hreg.releases
      | appended p => exact hreg.releases
  numbered := h.numbered hreg.numbered
  minimum := h.minimum hreg

/-! ## Operations that are done -/

theorem Operation.Done.apply {op : Operation} (hd : op.Done db) (h : x.Sound db) (hreg : Registered db) : op.Done (db.apply x.writes) := by
  cases op with
  | register component _ version => exact mem_apply_ids.mpr (.inl hd)
  | publish id =>
    obtain ⟨r, hr, rfl, hs⟩ := hd
    obtain ⟨r', hr', rfl | ⟨hs', -⟩ | ⟨-, t, rfl⟩⟩ := h.forward hreg hr
    · exact ⟨r', hr', rfl, hs⟩
    · exact absurd hs' hs
    · exact ⟨_, hr', rfl, nofun⟩
  | withdraw id =>
    obtain ⟨r, hr, rfl, hs⟩ := hd
    obtain ⟨r', hr', rfl | ⟨hs', -⟩ | ⟨hs', -⟩⟩ := h.forward hreg hr
    · exact ⟨r', hr', rfl, hs⟩
    · rw [hs] at hs'; cases hs'
    · rw [hs] at hs'; cases hs'
  | changePolicy c _ expected =>
    have hle : db.policyVersion c ≤ (db.apply x.writes).policyVersion c := by
      rw [hreg.numbered.policyVersion, (h.numbered hreg.numbered).policyVersion, apply_policyHistory, List.length_append]
      exact Nat.le_add_right _ _
    exact lt_of_lt_of_le hd hle

theorem Session.Sound.does (h : x.Sound db) (hreg : Registered db) (hc : x.writes.change.isSome) : ¬ x.op.Done db ∧ x.op.Done (db.apply x.writes) := by
  obtain ⟨ch, hw⟩ := Option.isSome_iff_exists.mp hc
  cases ch with
  | registered r =>
    obtain ⟨hop, -, hnew⟩ := h.ready _ hw
    cases hx : x.op with
    | register component kind version =>
      rw [hx] at hop
      have hid : (⟨component, version⟩ : ReleaseId) = r.id := Option.some.inj hop
      refine ⟨fun ⟨o, ho, he⟩ => hnew o ho (he.trans hid), mem_apply_ids.mpr (.inr ?_)⟩
      simpa [Writes.registers, hw] using hid.symm
    | _ =>
      rw [hx] at hop
      cases hop
  | moved r =>
    have hin : ∀ o ∈ db.releases, o.id = r.id → r ∈ (db.apply x.writes).releases := by
      intro o ho hid
      unfold Db.apply
      rw [hw]
      exact replaceRow_mem ho hid
    obtain ⟨o, ho, ⟨hop, hs, t, rfl⟩ | ⟨hop, hs, ⟨t, rfl⟩, -⟩⟩ := h.ready _ hw
    · rw [hop]
      refine ⟨fun ⟨o', ho', hid, hs'⟩ => ?_, ⟨_, hin o ho rfl, rfl, fun hs => by cases hs⟩⟩
      obtain rfl := eq_of_key hreg.releases ho' ho hid
      exact hs' hs
    · rw [hop]
      refine ⟨fun ⟨o', ho', hid, hs'⟩ => ?_, ⟨_, hin o ho rfl, rfl, rfl⟩⟩
      obtain rfl := eq_of_key hreg.releases ho' ho hid
      rw [hs] at hs'
      cases hs'
  | appended p =>
    obtain ⟨minimumVersion, hop, hp, -⟩ := h.ready _ hw
    rw [hop]
    refine ⟨fun hd : db.policyVersion p.component < db.policyVersion p.component => lt_irrefl _ hd, ?_⟩
    have hv : (db.apply x.writes).policyVersion p.component = db.policyVersion p.component + 1 := by
      unfold Db.policyVersion
      rw [h.current hw]
      exact congrArg CompatibilityPolicy.policyVersion hp
    show db.policyVersion p.component < (db.apply x.writes).policyVersion p.component
    rw [hv]
    exact Nat.lt_succ_self _

end

/-! ## Runs -/

section
variable {ι : Type*} [Fintype ι] [DecidableEq ι] {s : State ι} {t : ι} {x y : Session}

def StateInv (s : State ι) : Prop :=
  SessionsInv (fun db => Registered db ∧ ∀ op ∈ s.changed, op.Done db) (fun db _ x => ∀ a, x = some a → a.Sound db)
    (fun x y => ∀ a b, x = some a → y = some b → a.Apart b) s.db s.session

theorem not_othersHave {p : Session → Bool} (h : othersHave s.session t p = false) {u : ι} (hu : u ≠ t) (hy : s.session u = some y) : p y = false := by
  by_contra hp
  exact of_decide_eq_false h ⟨u, hu, by rw [hy]; simpa using hp⟩

theorem Session.Grows.apart (h : x.Grows (s.others t) y) {u : ι} (hu : u ≠ t) {z : Session} (hz : s.session u = some z) (ha : x.Apart z) : y.Apart z where
  product k hk := by
    rcases h.product k hk with hx | hn
    · exact ha.product k hx
    · exact of_decide_eq_false (not_othersHave hn hu hz)
  component c d hc hd := by
    rcases h.component c hc with hx | hn
    · exact ha.component c d hx hd
    · have hno := not_othersHave hn hu hz
      rw [hd] at hno
      exact Ne.symm (by simpa using hno)
  registered id hid := by
    rcases h.registered id hid with hx | hn
    · exact ha.registered id hx
    · exact not_othersHave hn hu hz
  moved id hid := by
    rcases h.moved id hid with hx | hn
    · exact ha.moved id hx
    · exact not_othersHave hn hu hz
  lock c hc := by
    rcases h.lock c hc with hx | hn
    · exact ha.lock c hx
    · exact of_decide_eq_false (not_othersHave hn hu hz)

omit [Fintype ι] [DecidableEq ι] in
theorem StateInv.new (clock : Int) : StateInv (.new clock : State ι) where
  committed :=
    ⟨⟨fun _ h => absurd h List.not_mem_nil, fun _ h => absurd h List.not_mem_nil, .nil, fun _ => rfl, fun _ _ h => by cases h⟩,
      fun _ h => absurd h List.not_mem_nil⟩
  each _ _ h := by cases h
  pair _ _ _ _ _ h := by cases h

omit [Fintype ι] [DecidableEq ι] in
theorem start_sound (op : Operation) (now : Int) : (Session.start op now).Sound s.db where
  product _ h := by cases h
  component _ h := by cases h
  hasProduct hr hp := by
    cases op with
    | register => exact absurd rfl hp
    | _ => cases hr
  hasComponent hr hp := by
    cases op with
    | register => exact absurd rfl hp
    | _ => cases hr
  stage := by cases op <;> rfl
  ready _ h := by cases h

theorem start_apart (op : Operation) (now : Int) : (Session.start op now).Apart y where
  product _ h := by cases h
  component _ _ h := by cases h
  registered _ h := by cases h
  moved _ h := by cases h
  lock _ h := by cases h

omit [Fintype ι] in
theorem StateInv.set (h : StateInv s) (hy : y.Sound s.db) (ha : ∀ u z, u ≠ t → s.session u = some z → y.Apart z) : StateInv (s.set t (some y)) := by
  refine h.statement (fun a ha' => ?_) fun u hu => ⟨fun a b ha' hb => ?_, fun a b ha' hb => ?_⟩
  · obtain rfl := Option.some.inj ha'
    exact hy
  · obtain rfl := Option.some.inj ha'
    exact ha u b hu hb
  · obtain rfl := Option.some.inj hb
    exact (ha u a hu ha').symm

omit [Fintype ι] in
theorem StateInv.clear (h : StateInv s) : StateInv (s.set t none) :=
  h.statement (fun _ ha => by cases ha) fun _ _ => ⟨fun _ _ ha => (by cases ha), fun _ _ _ hb => (by cases hb)⟩

omit [Fintype ι] in
theorem StateInv.commit (h : StateInv s) (hx : s.session t = some x) (hp : x.phase = .commit) :
    StateInv (s.commit t x) := by
  obtain ⟨hreg, hdone⟩ := h.committed
  have hxs := h.each t x hx
  refine h.step ⟨hreg.apply hxs hp, fun op hop => ?_⟩ ?_ (fun u hu a ha => ?_) ?_
  · rcases List.mem_append.mp hop with hop | hop
    · exact (hdone op hop).apply hxs hreg
    · split at hop
      · obtain rfl := List.mem_singleton.mp hop
        exact (hxs.does hreg ‹_›).2
      · cases hop
  · intro a ha
    cases ha
  · exact (h.each u a ha).after hxs (h.pair u t hu a x ha hx) hreg
  · exact fun u hu => ⟨fun _ _ ha => (by cases ha), fun _ _ _ hb => (by cases hb)⟩

theorem StateInv.step (h : StateInv s) (a : Action ι) : StateInv (step s a) := by
  cases a with
  | tick d => exact h
  | start t op =>
    unfold Releases.step
    dsimp only
    split
    · exact h.set (start_sound op s.clock) fun _ _ _ _ => start_apart op s.clock
    · exact h
  | exec t =>
    unfold Releases.step
    dsimp only
    cases hx : s.session t with
    | none => exact h
    | some x =>
      dsimp only
      cases hy : x.exec s.db s.clock (s.others t) with
      | wait => exact h
      | refused => exact h.clear
      | next y =>
        obtain ⟨hs, hg⟩ := exec_sound (h.each t x hx) h.committed.1 hy
        exact h.set hs fun u z hu hz => hg.apart hu hz (h.pair t u (Ne.symm hu) x z hx hz)
  | abort t => exact h.clear
  | commit t =>
    unfold Releases.step
    dsimp only
    cases hx : s.session t with
    | none => exact h
    | some x =>
      dsimp only
      split
      · exact h.commit hx ‹_›
      · exact h

theorem StateInv.run (clock : Int) (actions : List (Action ι)) : StateInv (Releases.run clock actions) := by
  unfold Releases.run
  generalize hs : (State.new clock : State ι) = s
  have h : StateInv s := hs ▸ .new clock
  clear hs
  induction actions generalizing s with
  | nil => exact h
  | cons a actions ih => exact ih _ (h.step a)

/-! ## The law -/

theorem step_cases (s : State ι) (a : Action ι) :
    ((Releases.step s a).db = s.db ∧ (Releases.step s a).changed = s.changed) ∨
      ∃ t x, a = .commit t ∧ s.session t = some x ∧ x.phase = .commit ∧ (Releases.step s a).db = s.db.apply x.writes ∧
        (Releases.step s a).changed = s.changed ++ if x.writes.change.isSome then [x.op] else [] := by
  unfold Releases.step
  cases a with
  | tick d => exact .inl ⟨rfl, rfl⟩
  | start t op =>
    left
    dsimp only
    split <;> exact ⟨rfl, rfl⟩
  | exec t =>
    left
    dsimp only
    cases s.session t with
    | none => exact ⟨rfl, rfl⟩
    | some x =>
      dsimp only
      cases x.exec s.db s.clock (s.others t) <;> exact ⟨rfl, rfl⟩
  | abort t => exact .inl ⟨rfl, rfl⟩
  | commit t =>
    dsimp only
    cases hx : s.session t with
    | none => exact .inl ⟨rfl, rfl⟩
    | some x =>
      dsimp only
      by_cases hp : x.phase = .commit
      · rw [if_pos hp]
        exact .inr ⟨t, x, rfl, hx, hp, rfl, rfl⟩
      · rw [if_neg hp]
        exact .inl ⟨rfl, rfl⟩

theorem StateInv.law (h : StateInv s) : RegistryLaw s where
  minimum c p hp := latest_of_atOrBelow (h.committed.1.minimum c p hp)
  releases := h.committed.1.releases
  statuses a r hr := by
    rcases step_cases s a with ⟨he, -⟩ | ⟨t, x, -, hx, -, he, -⟩
    · exact ⟨r, he ▸ hr, .inl rfl⟩
    · rw [he]
      exact (h.each t x hx).forward h.committed.1 hr
  policies := h.committed.1.numbered
  predecessor a := by
    rcases step_cases s a with ⟨he, -⟩ | ⟨t, x, rfl, hx, -, he, -⟩
    · exact .inl (congrArg Db.policies he)
    · rw [he, apply_policies]
      cases hw : x.writes.change with
      | none => exact .inl (List.append_nil _)
      | some ch =>
        cases ch with
        | registered r => exact .inl (List.append_nil _)
        | moved r => exact .inl (List.append_nil _)
        | appended p =>
          obtain ⟨minimumVersion, hop, hp, -⟩ := (h.each t x hx).ready _ hw
          exact .inr ⟨t, x, p.component, minimumVersion, x.now, rfl, hx, hop, by rw [← hp]⟩
  audited a := by
    rcases step_cases s a with ⟨he, hc⟩ | ⟨t, x, -, hx, hp, he, hc⟩
    · exact .inl ⟨he, hc⟩
    · have hxs := h.each t x hx
      have hstage := hxs.stage
      unfold Session.Stage at hstage
      rw [hp] at hstage
      rcases hstage with ⟨hsome, hintents⟩ | hnone
      · rw [if_pos hsome] at hc
        refine .inr ⟨x.op, fun hm => (hxs.does h.committed.1 hsome).1 (h.committed.2 _ hm), hc, ?_⟩
        rw [he, ← hintents]
        rfl
      · rw [hnone, apply_none] at he
        rw [hnone, if_neg (by simp [Writes.none]), List.append_nil] at hc
        exact .inl ⟨he, hc⟩

/-- **The registry.** The law holds in every state of every run. -/
theorem registry_law (clock : Int) (actions : List (Action ι)) : RegistryLaw (Releases.run clock actions) := (StateInv.run clock actions).law

end

end NawaraCore.Releases
