import NawaraCore.Release.Compatibility
import NawaraCore.Release.CommitSound
import NawaraCore.Release.VersionSound

/-!
# Soundness of compatibility answers

The minimum is stable and at or below the latest, so whatever is below either is below the
latest. A policy is fixed by its number and a version by its id, so the parts of a tag's
basis fix the answer.
-/

namespace NawaraCore.Compatibility

open Releases Versions Std

variable {v : Version} {c : ComponentId} {phase : Phase}

theorem semver_stable (h : v.stable = true) : (semver v).prerelease = [] := by
  rw [Version.stable, Option.isNone_iff_eq_none] at h
  rw [semver, h]
  rfl

variable {w : Version}

theorem precedence_le (hv : v.stable = true) (hw : w.stable = true) (h : v.core ≤ w.core) :
    (precedence (semver v) (semver w)).isLE = true := by
  have hnot : precedence (semver w) (semver v) ≠ .lt := fun hlt =>
    absurd ((precedence_core (semver_stable hw) (semver_stable hv)).mp hlt) h.not_gt
  rw [(@OrientedCmp.eq_swap _ precedence)] at hnot
  revert hnot
  cases precedence (semver v) (semver w) <;> decide

theorem compareVersions_neg : compareVersions v w < 0 ↔ precedence (semver v) (semver w) = .lt := sign_neg

theorem compareVersions_pos : compareVersions v w > 0 ↔ precedence (semver w) (semver v) = .lt := by
  rw [compareVersions, (@OrientedCmp.eq_swap _ precedence _ (semver w))]
  cases precedence (semver v) (semver w) <;> decide

/-! ## Sessions keep their operation -/

section
variable {db : Db} {others : Others} {x y : Session} {clock : Int}

theorem go_op (h : x.go phase = .next y) : y.op = x.op := by
  cases h
  rfl

theorem write_op {lock : Option ComponentId} {c : Change} (h : x.write lock c = .next y) : y.op = x.op := by
  cases h
  rfl

theorem lockComponent_op {now : Int} (h : lockComponent others x now c phase = .next y) : y.op = x.op := by
  unfold lockComponent at h
  split at h
  · cases h
  · cases h
    rfl

theorem minimumRelease_op (h : minimumRelease db x c v phase = .next y) : y.op = x.op := by
  unfold minimumRelease at h
  split at h
  · exact go_op h
  · cases h

theorem registering_op {component : ComponentId} {kind : ComponentKind} {version : Version} {buildId sourceRevision notesRef : Option String}
    (h : registering db others x component kind version buildId sourceRevision notesRef phase = .next y) : y.op = x.op := by
  unfold registering at h
  split at h
  · unfold ensureProduct at h
    split at h
    · cases h
    · cases h
      rfl
  · unfold ensureComponent at h
    split at h
    · cases h
    · split at h
      · split at h
        · exact go_op h
        · cases h
      · cases h
        rfl
  · unfold registerRelease at h
    split at h
    · cases h
    · split at h
      · split at h
        · exact go_op h
        · cases h
      · exact write_op h
  · cases h

variable {id : ReleaseId}

theorem publishing_op (h : publishing db others x id phase = .next y) : y.op = x.op := by
  unfold publishing at h
  split at h
  · split at h
    · exact go_op h
    · cases h
  · unfold publishRelease at h
    split at h
    · cases h
    · split at h
      · split at h
        · cases h
        · split at h
          · cases h
          · exact write_op h
      · exact go_op h
      · cases h
  · cases h

theorem withdrawing_op (h : withdrawing db clock others x id phase = .next y) : y.op = x.op := by
  unfold withdrawing at h
  split at h
  · split at h
    · cases h
    · split at h
      · cases h
      · exact go_op h
  · split at h
    · cases h
    · exact go_op h
  · exact lockComponent_op h
  · unfold withdrawRelease at h
    split at h
    · cases h
    · split at h
      · cases h
      · split at h
        · cases h
        · split at h
          · cases h
          · split at h
            · cases h
            · exact write_op h
      · exact go_op h
  · cases h

theorem changingPolicy_op {expected : Nat}
    (h : changingPolicy db clock others x c v expected phase = .next y) : y.op = x.op := by
  unfold changingPolicy at h
  split at h
  · split at h
    · exact go_op h
    · cases h
  · split at h
    · exact go_op h
    · split at h
      · cases h
      · exact minimumRelease_op h
  · exact lockComponent_op h
  · split at h
    · exact go_op h
    · exact go_op h
  · exact minimumRelease_op h
  · unfold appendPolicy at h
    split at h
    · cases h
    · split at h
      · cases h
      · split at h
        · cases h
        · split at h
          · cases h
          · exact write_op h
  · cases h

theorem exec_op (h : x.exec db clock others = .next y) : y.op = x.op := by
  unfold Session.exec at h
  split at h
  · cases h
    rfl
  · cases h
  · split at h
    · exact registering_op h
    · exact publishing_op h
    · exact withdrawing_op h
    · exact changingPolicy_op h

end

/-! ## Runs -/

variable {id : ComponentId} {p : CompatibilityPolicy} {ids : Ids}

section
variable {ι : Type*} [Fintype ι] [DecidableEq ι] {s : State ι} {db : Db}

/-- Every minimum is stable, since every change that is admitted names a stable one. -/
structure StableMinimums (s : State ι) : Prop where
  sessions : ∀ t x, s.session t = some x → x.op.valid = true
  policies : ∀ p ∈ s.db.policies, p.minimumVersion.stable = true

omit [Fintype ι] in
theorem StableMinimums.set (h : StableMinimums s) {t : ι} {x : Option Session} (hx : ∀ y, x = some y → y.op.valid = true) :
    StableMinimums (s.set t x) where
  sessions u y hy := by
    by_cases hu : u = t
    · have hsame : (s.set t x).session u = x := hu ▸ Function.update_self ..
      exact hx y (hsame.symm.trans hy)
    · have hsame : (s.set t x).session u = s.session u := Function.update_of_ne hu ..
      exact h.sessions u y (hsame.symm.trans hy)
  policies := h.policies

theorem step_policies (hinv : StateInv s) (h : StableMinimums s) (a : Action ι) :
    ∃ more, (Releases.step s a).db.policies = s.db.policies ++ more ∧ ∀ p ∈ more, p.minimumVersion.stable = true := by
  rcases hinv.law.predecessor a with he | ⟨t, x, c, minimumVersion, now, -, hx, hop, he⟩
  · exact ⟨[], by rw [he, List.append_nil], fun p hp => (by cases hp)⟩
  · refine ⟨_, he, fun p hp => ?_⟩
    rw [List.mem_singleton.mp hp]
    have hvalid := h.sessions t x hx
    rw [hop, Operation.valid, decide_eq_true_eq] at hvalid
    exact hvalid.1

theorem StableMinimums.step (hinv : StateInv s) (h : StableMinimums s) (a : Action ι) : StableMinimums (Releases.step s a) where
  policies := by
    obtain ⟨more, he, hmore⟩ := step_policies hinv h a
    rw [he]
    exact fun p hp => (List.mem_append.mp hp).elim (h.policies p) (hmore p)
  sessions := by
    have hclear : ∀ t, StableMinimums (s.set t none) := fun t => h.set fun y hy => by cases hy
    unfold Releases.step
    cases a with
    | tick d => exact h.sessions
    | start t op =>
      dsimp only
      split
      · rename_i hvalid
        refine (h.set fun y hy => ?_).sessions
        rw [← Option.some.inj hy]
        exact hvalid.2
      · exact h.sessions
    | exec t =>
      dsimp only
      cases hx : s.session t with
      | none => exact h.sessions
      | some x =>
        dsimp only
        cases hy : x.exec s.db s.clock (s.others t) with
        | wait => exact h.sessions
        | refused => exact (hclear t).sessions
        | next y =>
          refine (h.set fun z hz => ?_).sessions
          rw [← Option.some.inj hz, exec_op hy]
          exact h.sessions t x hx
    | abort t => exact (hclear t).sessions
    | commit t =>
      dsimp only
      cases hx : s.session t with
      | none => exact h.sessions
      | some x =>
        dsimp only
        split
        · exact (hclear t).sessions
        · exact h.sessions

structure GoesOn (db db' : Db) : Prop where
  policies : db.policies <+: db'.policies
  releases : ∀ r ∈ db.releases, ∃ r' ∈ db'.releases, r'.id = r.id

theorem StableMinimums.foldl (hinv : StateInv s) (h : StableMinimums s) (actions : List (Action ι)) :
    StateInv (actions.foldl Releases.step s) ∧ StableMinimums (actions.foldl Releases.step s) ∧ GoesOn s.db (actions.foldl Releases.step s).db := by
  induction actions generalizing s with
  | nil => exact ⟨hinv, h, List.prefix_refl _, fun r hr => ⟨r, hr, rfl⟩⟩
  | cons a actions ih =>
    obtain ⟨more, he, -⟩ := step_policies hinv h a
    obtain ⟨hinv', h', hon⟩ := ih (hinv.step a) (h.step hinv a)
    refine ⟨hinv', h', List.IsPrefix.trans ⟨more, he.symm⟩ hon.policies, fun r hr => ?_⟩
    obtain ⟨r₁, hr₁, hmoves⟩ := hinv.law.statuses a r hr
    have hid : r₁.id = r.id := by
      rcases hmoves with rfl | ⟨-, t, rfl⟩ | ⟨-, t, rfl⟩ <;> rfl
    obtain ⟨r₂, hr₂, hid₂⟩ := hon.releases r₁ hr₁
    exact ⟨r₂, hr₂, hid₂.trans hid⟩

omit [Fintype ι] [DecidableEq ι] in
theorem StableMinimums.new (clock : Int) : StableMinimums (.new clock : State ι) where
  sessions _ _ hx := by cases hx
  policies _ hp := by cases hp

/-! ## Decisions -/

theorem current_minimum (hinv : StateInv s) (h : StableMinimums s) (hp : s.db.currentPolicy c = some p) :
    ∃ r, s.db.latestRelease c = some r ∧ (precedence (semver p.minimumVersion) (semver r.id.version)).isLE = true := by
  obtain ⟨r, hr, hle⟩ := hinv.law.minimum c p hp
  have hoffered := of_decide_eq_true (List.mem_filter.mp (List.argmax_mem hr)).2
  have hstable := (of_decide_eq_true hoffered.2).2
  exact ⟨r, hr, precedence_le (h.policies p (currentPolicy_mem hp).1) hstable hle⟩

theorem latest_offered (hnodup : (db.releases.map Release.id).Nodup) {r : Release} (h : db.latestRelease c = some r) :
    db.findRelease ⟨c, r.id.version⟩ = some r ∧ r.status = .published ∧ r.id.version.stable = true := by
  obtain ⟨hmem, hkept⟩ := List.mem_filter.mp (List.argmax_mem h)
  obtain ⟨hc, hoffered⟩ := of_decide_eq_true hkept
  obtain ⟨hstatus, hstable⟩ := of_decide_eq_true hoffered
  have hid : r.id = ⟨c, r.id.version⟩ := by rw [← hc]
  refine ⟨?_, hstatus, hstable⟩
  rw [Db.findRelease, ← hid]
  exact find_key hnodup hmem

theorem decide_ok {d : Decision} (h : decide v (compatibilityState ids db id v) = .ok d) :
    ∃ c r, db.findComponent id = some c ∧ db.findRelease ⟨c.id, v⟩ = some r ∧
      compatibilityState ids db id v =
        { component := some ⟨ids.component c.id, c.kind⟩
          release := some ⟨ids.release r.id, r.status⟩
          policy := (db.currentPolicy c.id).map fun p => ⟨p.policyVersion, p.minimumVersion⟩
          latest := (db.latestRelease c.id).map fun r => ⟨ids.release r.id, r.id.version⟩ } ∧
      d = (compatibilityState ids db id v).answered ((compatibilityState ids db id v).update v r.status) := by
  unfold compatibilityState at h ⊢
  cases hc : (db.findComponent id).filter fun c => c.id.product ∈ db.products with
  | none =>
    rw [hc] at h
    cases h
  | some c =>
    rw [hc] at h
    dsimp only at h ⊢
    cases hr : db.findRelease ⟨c.id, v⟩ with
    | none =>
      rw [hr] at h
      unfold decide at h
      split at h <;> cases h
    | some r =>
      rw [hr] at h
      unfold decide at h
      split at h
      · cases h
      · cases h
        exact ⟨c, r, (Option.filter_eq_some_iff.mp hc).1, hr, rfl, rfl⟩

theorem decide_registered {s : CompatibilityState} {f : ComponentFacts} {r : ReleaseFacts} (hf : s.component = some f)
    (hkind : f.kind ≠ .backend) (hr : s.release = some r) : ∃ d, decide v s = .ok d := by
  have hclient : ¬ (s.component.all fun c => c.kind = .backend) = true := by simp [hf, hkind]
  exact ⟨s.answered (s.update v r.status), by rw [decide, if_neg hclient, hr]⟩

theorem findComponent_id {c : Component} (h : db.findComponent id = some c) : c.id = id := by
  simpa using List.find?_some h

theorem decide_actionable (hinv : StateInv s) (h : StableMinimums s) {d : Decision}
    (hd : decide v (compatibilityState ids s.db id v) = .ok d) :
    (d.update = .required .below_minimum ∨ d.update = .available → ∃ l, d.latestVersion = some l ∧ precedence (semver v) (semver l) = .lt) ∧
    (∀ r, s.db.findRelease ⟨id, v⟩ = some r → r.status = .withdrawn → d.update = .required .withdrawn) ∧
    ∀ l, d.latestVersion = some l → ∃ r, s.db.findRelease ⟨id, l⟩ = some r ∧ r.status = .published ∧ l.stable = true := by
  obtain ⟨c, r, hc, hr, hstate, rfl⟩ := decide_ok hd
  obtain rfl := findComponent_id hc
  have hlatest : ((compatibilityState ids s.db c.id v).answered ((compatibilityState ids s.db c.id v).update v r.status)).latestVersion =
      (s.db.latestRelease c.id).map fun r => r.id.version := by
    rw [hstate, CompatibilityState.answered, Option.map_map]
    rfl
  refine ⟨fun hupdate => ?_, fun r' hr' hwithdrawn => ?_, fun l hl => ?_⟩
  · rw [hlatest]
    rw [hstate] at hupdate
    simp only [CompatibilityState.answered, CompatibilityState.update] at hupdate
    split at hupdate
    · simp at hupdate
    · split at hupdate
      · -- below the minimum, which is at or below the latest
        rename_i hbelow
        rw [Option.any_map, Option.any_eq_true] at hbelow
        obtain ⟨p, hp, hlt⟩ := hbelow
        obtain ⟨l, hl, hle⟩ := current_minimum hinv h hp
        refine ⟨l.id.version, by rw [hl]; rfl, TransCmp.lt_of_lt_of_isLE ?_ hle⟩
        exact compareVersions_neg.mp (of_decide_eq_true hlt)
      · split at hupdate
        · rename_i habove
          rw [Option.any_map, Option.any_eq_true] at habove
          obtain ⟨l, hl, hgt⟩ := habove
          exact ⟨l.id.version, by rw [hl]; rfl, compareVersions_pos.mp (of_decide_eq_true hgt)⟩
        · simp at hupdate
  · obtain rfl := Option.some.inj (hr.symm.trans hr')
    rw [CompatibilityState.answered, CompatibilityState.update, if_pos hwithdrawn]
  · rw [hlatest] at hl
    obtain ⟨o, ho, rfl⟩ := Option.map_eq_some_iff.mp hl
    obtain ⟨hfind, hpublished, hstable⟩ := latest_offered hinv.law.releases ho
    exact ⟨o, hfind, hpublished, hstable⟩

/-! ## The entity tag -/

/-- Ids are uuids: no text of one has the separator or is the mark of none, and two rows differ in theirs. -/
structure Ids.Unique (ids : Ids) (db : Db) : Prop where
  componentText : ∀ c, 124 ∉ ids.component c
  releaseText : ∀ r, 124 ∉ ids.release r ∧ ids.release r ≠ codes "-"
  release : ∀ r ∈ db.releases, ∀ r' ∈ db.releases, ids.release r.id = ids.release r'.id → r.id = r'.id

theorem numberText_injective : Function.Injective numberText := fun m n h => by
  rw [← toBigint_numberText m, h, toBigint_numberText]

theorem statusText_injective : Function.Injective statusText := by
  intro a b
  cases a <;> cases b <;> decide

structure CompatibilityState.Plain (s : CompatibilityState) : Prop where
  component : ∀ f, s.component = some f → 124 ∉ f.id
  release : ∀ f, s.release = some f → 124 ∉ f.id
  latest : ∀ f, s.latest = some f → 124 ∉ f.id

theorem state_plain {rows : Db} (hids : ids.Unique rows) (db : Db) (id : ComponentId) (v : Version) : (compatibilityState ids db id v).Plain := by
  unfold compatibilityState
  cases (db.findComponent id).filter fun c => c.id.product ∈ db.products with
  | none => exact ⟨nofun, nofun, nofun⟩
  | some c =>
    refine ⟨fun f hf => ?_, fun f hf => ?_, fun f hf => ?_⟩
    · rw [← Option.some.inj hf]
      exact hids.componentText c.id
    · obtain ⟨r, -, rfl⟩ := Option.map_eq_some_iff.mp hf
      exact (hids.releaseText r.id).1
    · obtain ⟨r, -, rfl⟩ := Option.map_eq_some_iff.mp hf
      exact (hids.releaseText r.id).1

theorem elim_plain {α : Type*} {o : Option α} {d : Text} {f : α → Text} (hd : 124 ∉ d) (hf : ∀ a, o = some a → 124 ∉ f a) : 124 ∉ o.elim d f := by
  cases o with
  | none => exact hd
  | some a => exact hf a rfl

theorem splitOn_etagBasis {s : CompatibilityState} (h : s.Plain) : (etagBasis s).splitOn 124 = basisParts s := by
  have hstatus : ∀ status, 124 ∉ statusText status := by
    intro status
    cases status <;> decide
  have hnumber : 124 ∉ numberText (s.policy.elim 0 PolicyFacts.policyVersion) := fun hmem => absurd (numberText_digits _ 124 hmem) (by decide)
  refine List.splitOn_intercalate 124 ?_ (List.cons_ne_nil _ _)
  simp only [basisParts, List.forall_mem_cons]
  exact ⟨by decide, elim_plain (by decide) h.component, elim_plain (by decide) h.release, elim_plain (by decide) fun f _ => hstatus f.status,
    hnumber, elim_plain (by decide) h.latest, nofun⟩

theorem policy_of_number (hnumbered : db.Numbered) {q : CompatibilityPolicy} (hp : p ∈ db.policies) (hq : q ∈ db.policies)
    (hc : p.component = q.component) (hn : p.policyVersion = q.policyVersion) : p = q := by
  have hnodup : ((db.policyHistory q.component).map CompatibilityPolicy.policyVersion).Nodup := by
    rw [hnumbered q.component]
    exact List.nodup_range'
  exact List.inj_on_of_nodup_map hnodup (mem_policyHistory.mpr ⟨hp, hc⟩) (mem_policyHistory.mpr ⟨hq, rfl⟩) hn

theorem policyVersion_pos (hnumbered : db.Numbered) (hp : p ∈ db.policies) : p.policyVersion ≠ 0 := by
  have hmem : p.policyVersion ∈ (db.policyHistory p.component).map CompatibilityPolicy.policyVersion :=
    List.mem_map_of_mem (mem_policyHistory.mpr ⟨hp, rfl⟩)
  rw [hnumbered p.component, List.mem_range'_1] at hmem
  omega

theorem currentPolicy_of_number {db' : Db} (hnumbered : db'.Numbered) (hpolicies : db.policies <+: db'.policies)
    (hn : (db.currentPolicy c).elim 0 CompatibilityPolicy.policyVersion = (db'.currentPolicy c).elim 0 CompatibilityPolicy.policyVersion) :
    db.currentPolicy c = db'.currentPolicy c := by
  cases hp : db.currentPolicy c with
  | none =>
    cases hq : db'.currentPolicy c with
    | none => rfl
    | some q =>
      rw [hp, hq] at hn
      exact absurd hn.symm (policyVersion_pos hnumbered (currentPolicy_mem hq).1)
  | some p =>
    obtain ⟨hpmem, hpc⟩ := currentPolicy_mem hp
    have hpmem' : p ∈ db'.policies := hpolicies.subset hpmem
    cases hq : db'.currentPolicy c with
    | none =>
      rw [hp, hq] at hn
      exact absurd hn (policyVersion_pos hnumbered hpmem')
    | some q =>
      obtain ⟨hqmem, hqc⟩ := currentPolicy_mem hq
      rw [hp, hq] at hn
      exact congrArg some (policy_of_number hnumbered hpmem' hqmem (hpc.trans hqc.symm) hn)

theorem answered_congr {s s' : CompatibilityState} (hlatest : s.latest.map LatestFacts.version = s'.latest.map LatestFacts.version)
    (hpolicy : s.policy = s'.policy) (v : Version) (status : ReleaseStatus) :
    s.answered (s.update v status) = s'.answered (s'.update v status) := by
  have habove : (s.latest.any fun l => compareVersions l.version v > 0) = s'.latest.any fun l => compareVersions l.version v > 0 := by
    have hany : ∀ o : Option LatestFacts, (o.any fun l => compareVersions l.version v > 0) =
        (o.map LatestFacts.version).any fun w => compareVersions w v > 0 := fun o => by rw [Option.any_map]
    rw [hany, hany, hlatest]
  simp only [CompatibilityState.answered, CompatibilityState.update, hlatest, hpolicy, habove]

theorem decision_of_basis {db' : Db} (hnumbered : db'.Numbered) (hon : GoesOn db db') (hids : ids.Unique db')
    {d d' : Decision} (hd : decide v (compatibilityState ids db id v) = .ok d)
    (hd' : decide v (compatibilityState ids db' id v) = .ok d')
    (hbasis : etagBasis (compatibilityState ids db id v) = etagBasis (compatibilityState ids db' id v)) : d = d' := by
  have hparts : basisParts (compatibilityState ids db id v) = basisParts (compatibilityState ids db' id v) := by
    rw [← splitOn_etagBasis (state_plain hids db id v), ← splitOn_etagBasis (state_plain hids db' id v), hbasis]
  obtain ⟨c, r, hc, hr, hstate, rfl⟩ := decide_ok hd
  obtain ⟨c', r', hc', hr', hstate', rfl⟩ := decide_ok hd'
  obtain rfl := findComponent_id hc
  have hcc := findComponent_id hc'
  rw [hcc] at hstate'
  rw [hstate, hstate'] at hparts
  simp only [basisParts, List.cons.injEq, Option.elim_some] at hparts
  obtain ⟨-, -, -, hstatus, hnumber, hlatest, -⟩ := hparts
  have hsamestatus : r.status = r'.status := statusText_injective hstatus
  have hpolicy : db.currentPolicy c.id = db'.currentPolicy c.id := by
    refine currentPolicy_of_number hnumbered hon.policies ?_
    have hn := numberText_injective hnumber
    rw [Option.elim_map, Option.elim_map] at hn
    exact hn
  have hversion : (db.latestRelease c.id).map (fun r => r.id.version) = (db'.latestRelease c.id).map fun r => r.id.version := by
    rw [Option.elim_map, Option.elim_map] at hlatest
    cases hl : db.latestRelease c.id with
    | none =>
      cases hl' : db'.latestRelease c.id with
      | none => rfl
      | some l' =>
        rw [hl, hl'] at hlatest
        exact absurd hlatest.symm (hids.releaseText l'.id).2
    | some l =>
      cases hl' : db'.latestRelease c.id with
      | none =>
        rw [hl, hl'] at hlatest
        exact absurd hlatest (hids.releaseText l.id).2
      | some l' =>
        rw [hl, hl'] at hlatest
        have hid : l.id = l'.id := by
          obtain ⟨o, ho, hoid⟩ := hon.releases l (List.mem_filter.mp (List.argmax_mem hl)).1
          rw [← hoid]
          refine hids.release o ho l' (List.mem_filter.mp (List.argmax_mem hl')).1 ?_
          rw [hoid]
          exact hlatest
        rw [Option.map_some, Option.map_some, hid]
  rw [hstate, hstate', hsamestatus, hpolicy]
  apply answered_congr
  · rw [Option.map_map, Option.map_map]
    exact hversion
  · rfl

theorem matches_tag {digest : Text → Text} (hdigest : ∀ t, 44 ∉ digest t) (s s' : CompatibilityState) :
    matchesIfNoneMatch (some (compatibilityEtag digest s)) (compatibilityEtag digest s') = true ↔
      compatibilityEtag digest s = compatibilityEtag digest s' := by
  have hone : (compatibilityEtag digest s).splitOn 44 = [compatibilityEtag digest s] := by
    have hnone : ∀ l ∈ [compatibilityEtag digest s], 44 ∉ l := by
      intro l hl
      rw [List.mem_singleton.mp hl, compatibilityEtag]
      simp [hdigest]
    simpa only [List.intercalate_singleton] using List.splitOn_intercalate 44 hnone (List.cons_ne_nil _ _)
  have htrim : trim (compatibilityEtag digest s) = compatibilityEtag digest s := by
    have hquote : ¬ isWhitespace 34 = true := by decide
    rw [trim, compatibilityEtag, List.dropWhile_cons_of_neg hquote, ← List.cons_append, List.reverse_append, List.reverse_singleton,
      List.singleton_append, List.dropWhile_cons_of_neg hquote, List.reverse_cons, List.reverse_reverse]
  have hstrong : withoutWeak (compatibilityEtag digest s) = compatibilityEtag digest s := by
    refine if_neg fun h => ?_
    have hhead := congrArg List.head? h
    rw [compatibilityEtag, List.take_succ_cons] at hhead
    exact absurd (Option.some.inj hhead) (by decide)
  have hstar : compatibilityEtag digest s ≠ codes "*" := fun h => by
    rw [compatibilityEtag] at h
    exact absurd (List.cons.inj h).1 (by decide)
  rw [matchesIfNoneMatch, Option.any_some, hone]
  simp [htrim, hstrong, hstar]

/-! ## The law -/

structure Actionable (db : Db) (id : ComponentId) (v : Version) (d : Decision) : Prop where
  /-- Below the minimum, or with an update, the latest is above. -/
  update : d.update = .required .below_minimum ∨ d.update = .available → ∃ l, d.latestVersion = some l ∧ precedence (semver v) (semver l) = .lt
  withdrawn : ∀ r, db.findRelease ⟨id, v⟩ = some r → r.status = .withdrawn → d.update = .required .withdrawn
  latest : ∀ l, d.latestVersion = some l → ∃ r, db.findRelease ⟨id, l⟩ = some r ∧ r.status = .published ∧ l.stable = true

/-- Answers in every reachable state, and the tags of two states of one history. -/
theorem compatibility_law (clock : Int) (actions more : List (Action ι)) (ids : Ids)
    (hids : ids.Unique (Releases.run clock (actions ++ more)).db) (digest : Text → Text)
    (hdigest : ∀ t, 44 ∉ digest t) (id : ComponentId) (v : Version) :
    (∀ c r, (Releases.run clock actions).db.findComponent id = some c → c.kind ≠ .backend →
      (Releases.run clock actions).db.findRelease ⟨id, v⟩ = some r →
      ∃ d, decide v (compatibilityState ids (Releases.run clock actions).db id v) = .ok d) ∧
    (∀ d, decide v (compatibilityState ids (Releases.run clock actions).db id v) = .ok d → Actionable (Releases.run clock actions).db id v d) ∧
    ∀ s s' d d', s = compatibilityState ids (Releases.run clock actions).db id v →
      s' = compatibilityState ids (Releases.run clock (actions ++ more)).db id v → decide v s = .ok d → decide v s' = .ok d' →
      (digest (etagBasis s) = digest (etagBasis s') → etagBasis s = etagBasis s') →
      (compatibilityEtag digest s = compatibilityEtag digest s' → d = d') ∧
      (answer digest ids (Releases.run clock (actions ++ more)).db (some (compatibilityEtag digest s)) id v =
        .ok (.not_modified (compatibilityEtag digest s')) → d = d') := by
  obtain ⟨hinv, hstable, -⟩ := StableMinimums.foldl (.new clock) (.new clock) actions
  obtain ⟨hinv', -, hon⟩ := StableMinimums.foldl hinv hstable more
  rw [← List.foldl_append] at hinv' hon
  refine ⟨fun c r hc hkind hr => ?_, fun d hd => ?_, ?_⟩
  · obtain rfl := findComponent_id hc
    have hproduct : c.id.product ∈ (Releases.run clock actions).db.products :=
      hinv.committed.1.componentProduct c (List.mem_of_find?_eq_some hc)
    have hkept : ((Releases.run clock actions).db.findComponent c.id).filter (fun c => c.id.product ∈ (Releases.run clock actions).db.products) = some c :=
      Option.filter_eq_some_iff.mpr ⟨hc, decide_eq_true hproduct⟩
    rw [compatibilityState, hkept]
    exact decide_registered rfl hkind (congrArg (Option.map _) hr)
  · obtain ⟨hupdate, hwithdrawn, hlatest⟩ := decide_actionable hinv hstable hd
    exact ⟨hupdate, hwithdrawn, hlatest⟩
  · rintro s s' d d' rfl rfl hd hd' hhash
    have hsame : compatibilityEtag digest (compatibilityState ids (Releases.run clock actions).db id v) =
        compatibilityEtag digest (compatibilityState ids (Releases.run clock (actions ++ more)).db id v) → d = d' := by
      intro htag
      have hdigests := List.append_cancel_right (List.cons.inj htag).2
      exact decision_of_basis hinv'.law.policies hon hids hd hd' (hhash hdigests)
    refine ⟨hsame, fun hanswer => hsame ?_⟩
    rw [answer, hd'] at hanswer
    simp only [Except.ok.injEq] at hanswer
    split at hanswer
    · rename_i hmatch
      exact (matches_tag hdigest _ _).mp hmatch
    · cases hanswer

end

def app : ComponentId := ⟨"nawara", "web"⟩

def version (major : Nat) : Version := ⟨major, 0, 0, none⟩

def registered (major : Nat) : List (Action (Fin 1)) :=
  .start 0 (.register app .web (version major) none none none) :: (List.replicate 4 (.exec 0) ++ [.commit 0])

def published (major : Nat) : List (Action (Fin 1)) := .start 0 (.publish ⟨app, version major⟩) :: (List.replicate 3 (.exec 0) ++ [.commit 0])

def uuids : Ids := ⟨fun _ => codes "7b3e", fun r => codes "5a0c-" ++ numberText r.version.major⟩

def checksum (t : Text) : Text := numberText (t.foldl (fun n c => (n * 31 + c) % 1000003) 7)

theorem number_plain {c : Nat} (hc : isDigit c = false) (n : Nat) : c ∉ numberText n := fun h => by
  rw [numberText_digits n c h] at hc
  cases hc

def history : List (Action (Fin 1)) := registered 1 ++ published 1 ++ registered 2 ++ published 2

theorem compatibility_law_sample :
    ∃ d d', decide (version 1) (compatibilityState uuids (Releases.run 0 history).db app (version 1)) = .ok d ∧
      decide (version 1) (compatibilityState uuids (Releases.run 0 (history ++ registered 3)).db app (version 1)) = .ok d' ∧
      d.update = .available ∧ Actionable (Releases.run 0 history).db app (version 1) d ∧ d = d' := by
  have hids : uuids.Unique (Releases.run 0 (history ++ registered 3)).db := by
    refine ⟨fun c => (by decide : 124 ∉ codes "7b3e"), fun r => ⟨fun h => ?_, fun h => ?_⟩, by decide +kernel⟩
    · rcases List.mem_append.mp h with h | h
      · exact absurd h (by decide)
      · exact number_plain (by decide) _ h
    · have hhead : some 53 = some 45 := congrArg List.head? h
      exact absurd hhead (by decide)
  obtain ⟨-, hactionable, htags⟩ := compatibility_law 0 history (registered 3) uuids hids checksum (fun t => number_plain (by decide) _) app (version 1)
  have hd : decide (version 1) (compatibilityState uuids (Releases.run 0 history).db app (version 1)) = .ok ⟨.available, some (version 2), none⟩ := by
    decide +kernel
  have hd' : decide (version 1) (compatibilityState uuids (Releases.run 0 (history ++ registered 3)).db app (version 1)) =
      .ok ⟨.available, some (version 2), none⟩ := by
    decide +kernel
  exact ⟨_, _, hd, hd', rfl, hactionable _ hd, (htags _ _ _ _ rfl rfl hd hd' fun _ => by decide +kernel).1 (by decide +kernel)⟩

end NawaraCore.Compatibility
