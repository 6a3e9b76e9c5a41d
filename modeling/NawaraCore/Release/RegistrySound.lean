import NawaraCore.Lib.Sessions
import NawaraCore.Release.Registry

/-!
# Soundness of the registry

A pending policy and a pending withdrawal hold the lock of their component, so what either
read stays true until its commit.
-/

namespace NawaraCore.Releases

/-! ## Policies -/

section
variable {db : Db} {c : ComponentId} {v : Version} {p : CompatibilityPolicy} {id : ReleaseId}

theorem mem_policyHistory : p ∈ db.policyHistory c ↔ p ∈ db.policies ∧ p.component = c := by
  unfold Db.policyHistory
  simp

def Db.Numbered (db : Db) : Prop :=
  ∀ c, (db.policyHistory c).map CompatibilityPolicy.policyVersion = List.range' 1 (db.policyHistory c).length

theorem Db.Numbered.policyVersion (h : db.Numbered) (c : ComponentId) : db.policyVersion c = (db.policyHistory c).length := by
  have hmem : ∀ n, n ∈ (db.policyHistory c).map CompatibilityPolicy.policyVersion ↔ 1 ≤ n ∧ n ≤ (db.policyHistory c).length := by
    intro n
    rw [h c, List.mem_range'_1]
    omega
  unfold Db.policyVersion Db.currentPolicy
  cases hp : (db.policyHistory c).argmax CompatibilityPolicy.policyVersion with
  | none =>
    rw [List.argmax_eq_none.mp hp]
    rfl
  | some p =>
    have hin := List.argmax_mem hp
    have hle := ((hmem p.policyVersion).mp (List.mem_map_of_mem hin)).2
    have hpos : 0 < (db.policyHistory c).length := List.length_pos_of_mem hin
    obtain ⟨q, hq, hqn⟩ := List.mem_map.mp ((hmem (db.policyHistory c).length).mpr ⟨hpos, le_rfl⟩)
    have hge := List.le_of_mem_argmax hq hp
    exact le_antisymm hle (hqn ▸ hge)

theorem currentPolicy_mem (h : db.currentPolicy c = some p) : p ∈ db.policies ∧ p.component = c := mem_policyHistory.mp (List.argmax_mem h)

theorem atOrBelowLatest_iff : db.atOrBelowLatest c v ↔ ∃ r ∈ db.releases, r.id.component = c ∧ r.offered ∧ v.core ≤ r.id.version.core := by
  unfold Db.atOrBelowLatest
  rw [List.any_eq_true]
  exact exists_congr fun r => and_congr_right fun _ => decide_eq_true_iff

theorem not_breaks_iff : db.withdrawalBreaksMinimum id = false ↔ ∀ p, db.currentPolicy id.component = some p →
    ∃ r ∈ db.releases, r.id.component = id.component ∧ r.id ≠ id ∧ r.offered ∧ p.minimumVersion.core ≤ r.id.version.core := by
  unfold Db.withdrawalBreaksMinimum
  cases db.currentPolicy id.component with
  | none => simp
  | some p =>
    rw [Option.any_some, decide_eq_false_iff_not, not_not, List.any_eq_true]
    constructor
    · rintro ⟨r, hr, hd⟩ q ⟨⟩
      exact ⟨r, hr, of_decide_eq_true hd⟩
    · intro h
      obtain ⟨r, hr, hd⟩ := h p rfl
      exact ⟨r, hr, decide_eq_true hd⟩

theorem latest_of_atOrBelow (h : db.atOrBelowLatest c v) : ∃ r, db.latestRelease c = some r ∧ v.core ≤ r.id.version.core := by
  obtain ⟨r, hr, hc, ho, hle⟩ := atOrBelowLatest_iff.mp h
  have hin : r ∈ db.releases.filter fun r => r.id.component = c ∧ r.offered := List.mem_filter.mpr ⟨hr, decide_eq_true ⟨hc, ho⟩⟩
  unfold Db.latestRelease
  cases hm : (db.releases.filter fun r => r.id.component = c ∧ r.offered).argmax fun r => r.id.version.core with
  | none =>
    rw [List.argmax_eq_none.mp hm] at hin
    cases hin
  | some m => exact ⟨m, rfl, hle.trans (List.le_of_mem_argmax (f := fun r : Release => r.id.version.core) hin hm)⟩

end

/-! ## The invariant -/

structure Registered (db : Db) : Prop where
  componentProduct : ∀ c ∈ db.components, c.id.product ∈ db.products
  releaseComponent : ∀ r ∈ db.releases, ∃ c ∈ db.components, c.id = r.id.component
  releases : (db.releases.map Release.id).Nodup
  numbered : db.Numbered
  minimum : ∀ c p, db.currentPolicy c = some p → db.atOrBelowLatest c p.minimumVersion

def Operation.component : Operation → ComponentId
  | .register component .. => component
  | .publish id | .withdraw id => id.component
  | .changePolicy component .. => component

def Operation.registers : Operation → Option ReleaseId
  | .register component _ version .. => some ⟨component, version⟩
  | _ => none

def Operation.Done (db : Db) : Operation → Prop
  | .register component _ version .. => ∃ r ∈ db.releases, r.id = ⟨component, version⟩
  | .publish id => ∃ r ∈ db.releases, r.id = id ∧ r.status ≠ .registered
  | .withdraw id => ∃ r ∈ db.releases, r.id = id ∧ r.status = .withdrawn
  | .changePolicy c _ expected => expected < db.policyVersion c

def Change.Ready (db : Db) (x : Session) : Change → Prop
  | .registered r => x.op.registers = some r.id ∧ r.status = .registered ∧ ∀ o ∈ db.releases, o.id ≠ r.id
  | .moved r => ∃ o ∈ db.releases,
      (x.op = .publish r.id ∧ o.status = .registered ∧ ∃ t, r = { o with
        status := .published
        publishedAt := some t }) ∨
      (x.op = .withdraw r.id ∧ o.status = .published ∧ (∃ t, r = { o with
        status := .withdrawn
        withdrawnAt := some t }) ∧ x.lock = some r.id.component ∧ db.withdrawalBreaksMinimum r.id = false)
  | .appended p => ∃ minimumVersion, x.op = .changePolicy p.component minimumVersion (db.policyVersion p.component) ∧
      p = ⟨p.component, db.policyVersion p.component + 1, minimumVersion, x.now⟩ ∧ db.atOrBelowLatest p.component minimumVersion ∧
      x.lock = some p.component

def Session.Stage (x : Session) : Prop :=
  match x.phase with
  | .audit => x.writes.change.isSome ∧ x.writes.intents = []
  | .commit => (x.writes.change.isSome ∧ x.writes.intents = [x.op.intent]) ∨ x.writes = .none
  | .ensureComponent => x.writes.change = none ∧ x.writes.intents = [] ∧ x.writes.component = none
  | .change => x.writes.change = none ∧ x.writes.intents = [] ∧ (x.op.registers = none → x.writes = .none)
  | _ => x.writes = .none

structure Session.Sound (db : Db) (x : Session) : Prop where
  product : ∀ k, x.writes.product = some k → k = x.op.component.product ∧ k ∉ db.products
  component : ∀ c, x.writes.component = some c → x.op.registers.isSome ∧ c.id = x.op.component ∧ ∀ d ∈ db.components, d.id ≠ c.id
  hasProduct : x.op.registers.isSome → x.phase ≠ .ensureProduct →
    x.op.component.product ∈ db.products ∨ x.writes.product = some x.op.component.product
  hasComponent : x.op.registers.isSome → x.phase ≠ .ensureProduct → x.phase ≠ .ensureComponent →
    (∃ c ∈ db.components, c.id = x.op.component) ∨ ∃ c, x.writes.component = some c ∧ c.id = x.op.component
  stage : x.Stage
  ready : ∀ ch, x.writes.change = some ch → ch.Ready db x

structure Session.Apart (x y : Session) : Prop where
  product : ∀ k, x.writes.product = some k → y.writes.product ≠ some k
  component : ∀ c d, x.writes.component = some c → y.writes.component = some d → c.id ≠ d.id
  registered : ∀ id, x.writes.registers id → y.writes.registers id = false
  moved : ∀ id, x.writes.moves id → y.writes.moves id = false
  lock : ∀ c, x.lock = some c → y.lock ≠ some c

variable {x y : Session}

theorem Session.Apart.symm (h : x.Apart y) : y.Apart x where
  product k hy hx := h.product k hx hy
  component c d hc hd he := h.component d c hd hc he.symm
  registered id hy := by
    cases hx : x.writes.registers id with
    | false => rfl
    | true => rw [h.registered id hx] at hy; cases hy
  moved id hy := by
    cases hx : x.writes.moves id with
    | false => rfl
    | true => rw [h.moved id hx] at hy; cases hy
  lock c hy hx := h.lock c hx hy

/-- What a statement takes beyond what its session has, the others do not have. -/
structure Session.Grows (others : Others) (x y : Session) : Prop where
  product : ∀ k, y.writes.product = some k → x.writes.product = some k ∨ others.product k = false
  component : ∀ c, y.writes.component = some c → x.writes.component = some c ∨ others.component c.id = false
  registered : ∀ id, y.writes.registers id → x.writes.registers id ∨ others.release id = false
  moved : ∀ id, y.writes.moves id → x.writes.moves id ∨ others.row id = false
  lock : ∀ c, y.lock = some c → x.lock = some c ∨ others.lock c = false

theorem Session.Grows.of_same {others : Others} (hw : y.writes = x.writes) (hl : ∀ c, y.lock = some c → x.lock = some c ∨ others.lock c = false) :
    x.Grows others y where
  product _ h := .inl (hw ▸ h)
  component _ h := .inl (hw ▸ h)
  registered _ h := .inl (hw ▸ h)
  moved _ h := .inl (hw ▸ h)
  lock := hl

/-! ## Statements -/

variable {minimumVersion : Version}
variable {sourceRevision : Option String} {clock : Int}

section
variable {db : Db} {others : Others} {x y : Session} {phase : Phase} {id : ReleaseId} {c : ComponentId}

theorem Session.Sound.go (h : x.Sound db) (hs : ({ x with phase } : Session).Stage)
    (hp : x.op.registers.isSome → x.op.component.product ∈ db.products ∨ x.writes.product = some x.op.component.product)
    (hc : x.op.registers.isSome → (∃ c ∈ db.components, c.id = x.op.component) ∨ ∃ c, x.writes.component = some c ∧ c.id = x.op.component) :
    ({ x with phase } : Session).Sound db where
  product := h.product
  component := h.component
  hasProduct hr _ := hp hr
  hasComponent hr _ _ := hc hr
  stage := hs
  ready ch hch := by
    have hr := h.ready ch hch
    cases ch with
    | registered r => exact hr
    | moved r => exact hr
    | appended p => exact hr

theorem Session.Sound.of_none (hw : x.writes = .none) (hs : x.Stage) (hr : x.op.registers = none) : x.Sound db where
  product k hk := by rw [hw] at hk; cases hk
  component c hc := by rw [hw] at hc; cases hc
  hasProduct h := by rw [hr] at h; cases h
  hasComponent h := by rw [hr] at h; cases h
  stage := hs
  ready ch hch := by rw [hw] at hch; cases hch

variable {lock : Option ComponentId}

theorem Session.Sound.write {ch : Change} (h : x.Sound db) (hp : x.phase = .change)
    (hr : ch.Ready db (x.written lock ch)) : (x.written lock ch).Sound db where
  product := h.product
  component := h.component
  hasProduct hs _ := h.hasProduct hs (by rw [hp]; nofun)
  hasComponent hs _ _ := h.hasComponent hs (by rw [hp]; nofun) (by rw [hp]; nofun)
  stage := by
    have hs := h.stage
    unfold Session.Stage at hs
    rw [hp] at hs
    exact ⟨rfl, hs.2.1⟩
  ready ch' hch := by
    obtain rfl := Option.some.inj hch
    exact hr

theorem ensureProduct_sound {key : String} (h : x.Sound db) (hp : x.phase = .ensureProduct) (hk : key = x.op.component.product)
    (hy : ensureProduct db others x key = .next y) : y.Sound db ∧ x.Grows others y := by
  have hw : x.writes = .none := by
    have hs := h.stage
    unfold Session.Stage at hs
    rw [hp] at hs
    exact hs
  unfold ensureProduct at hy
  split at hy
  · cases hy
  · rename_i hfree
    cases hy
    constructor
    · exact {
        product := fun k hk' => by
          dsimp only at hk'
          split at hk'
          · cases hk'
          · rename_i hnew
            obtain rfl := Option.some.inj hk'
            exact ⟨hk, hnew⟩
        component := h.component
        hasProduct := fun _ _ => by
          subst hk
          dsimp only
          split
          · exact .inl ‹_›
          · exact .inr rfl
        hasComponent := fun _ _ hn => absurd rfl hn
        stage := by
          rw [hw]
          exact ⟨rfl, rfl, rfl⟩
        ready := fun ch hch => by
          rw [hw] at hch
          cases hch }
    · exact {
        product := fun k hk' => by
          dsimp only at hk'
          split at hk'
          · cases hk'
          · obtain rfl := Option.some.inj hk'
            exact .inr (by simpa using hfree)
        component := fun c hc => .inl hc
        registered := fun id hid => .inl hid
        moved := fun id hid => .inl hid
        lock := fun c hc => .inl hc }

variable {kind : ComponentKind}

theorem ensureComponent_sound (h : x.Sound db) (hp : x.phase = .ensureComponent) (hr : x.op.registers.isSome)
    (hy : ensureComponent db others x x.op.component kind = .next y) : y.Sound db ∧ x.Grows others y := by
  have hs := h.stage
  unfold Session.Stage at hs
  rw [hp] at hs
  have hprod := h.hasProduct hr (by rw [hp]; nofun)
  have hnr : x.op.registers ≠ none := Option.isSome_iff_ne_none.mp hr
  unfold ensureComponent at hy
  split at hy
  · cases hy
  · rename_i hfree
    cases hc : db.findComponent x.op.component with
    | some c =>
      rw [hc] at hy
      dsimp only at hy
      split at hy
      · cases hy
        refine ⟨h.go ⟨hs.1, hs.2.1, fun hn => absurd hn hnr⟩ (fun _ => hprod) fun _ => .inl ⟨c, List.mem_of_find?_eq_some hc, ?_⟩, .of_same rfl fun _ => .inl⟩
        simpa using List.find?_some hc
      · cases hy
    | none =>
      rw [hc] at hy
      cases hy
      constructor
      · exact {
          product := h.product
          component := fun c hc' => by
            obtain rfl := Option.some.inj hc'
            refine ⟨hr, rfl, fun d hd he => ?_⟩
            exact absurd (List.find?_eq_none.mp hc d hd) (by simpa using he)
          hasProduct := fun _ _ => hprod
          hasComponent := fun _ _ _ => .inr ⟨_, rfl, rfl⟩
          stage := ⟨hs.1, hs.2.1, fun hn => absurd hn hnr⟩
          ready := fun ch hch => by
            rw [hs.1] at hch
            cases hch }
      · exact {
          product := fun k hk => .inl hk
          component := fun c hc' => by
            obtain rfl := Option.some.inj hc'
            exact .inr (by simpa using hfree)
          registered := fun id hid => .inl hid
          moved := fun id hid => .inl hid
          lock := fun c hc => .inl hc }

theorem findRelease_some {r : Release} (h : db.findRelease id = some r) : r ∈ db.releases ∧ r.id = id :=
  ⟨List.mem_of_find?_eq_some h, by simpa using List.find?_some h⟩

theorem Session.Sound.changing (h : x.Sound db) (hp : x.phase = .change) :
    x.writes.change = none ∧ x.writes.intents = [] ∧ (x.op.registers = none → x.writes = .none) := by
  have hs := h.stage
  unfold Session.Stage at hs
  rw [hp] at hs
  exact hs

theorem Session.Grows.write {ch : Change} (hl : ∀ c, lock = some c → x.lock = some c ∨ others.lock c = false)
    (hr : ∀ r, ch = .registered r → others.release r.id = false) (hm : ∀ r, ch = .moved r → others.row r.id = false) :
    x.Grows others (x.written lock ch) where
  product _ hk := .inl hk
  component _ hc := .inl hc
  registered id hid := by
    cases ch with
    | registered r => exact .inr (of_decide_eq_true hid ▸ hr r rfl)
    | moved r => cases hid
    | appended p => cases hid
  moved id hid := by
    cases ch with
    | registered r => cases hid
    | moved r => exact .inr (of_decide_eq_true hid ▸ hm r rfl)
    | appended p => cases hid
  lock := hl

variable {buildId notesRef : Option String}

theorem registerRelease_sound (h : x.Sound db) (hp : x.phase = .change)
    (hid : x.op.registers = some id) (hc : id.component = x.op.component) (hreg : Registered db)
    (hy : registerRelease db others x id buildId sourceRevision notesRef = .next y) : y.Sound db ∧ x.Grows others y := by
  unfold registerRelease at hy
  split at hy
  · cases hy
  · rename_i hfree
    cases hr : db.findRelease id with
    | some r =>
      rw [hr] at hy
      dsimp only at hy
      split at hy
      · -- the release exists, and with it its component and product: neither is pending
        cases hy
        obtain ⟨hrm, hrid⟩ := findRelease_some hr
        obtain ⟨c, hcm, hcid⟩ := hreg.releaseComponent r hrm
        have hcop : c.id = x.op.component := hcid.trans ((congrArg ReleaseId.component hrid).trans hc)
        have hprod : x.op.component.product ∈ db.products := hcop ▸ hreg.componentProduct c hcm
        have hnone : x.writes = .none := by
          obtain ⟨hchange, hintents, -⟩ := h.changing hp
          have hproduct : x.writes.product = none := by
            cases hk : x.writes.product with
            | none => rfl
            | some k =>
              obtain ⟨rfl, hnew⟩ := h.product k hk
              exact absurd hprod hnew
          have hcomponent : x.writes.component = none := by
            cases hk : x.writes.component with
            | none => rfl
            | some d =>
              obtain ⟨-, hd, hnew⟩ := h.component d hk
              exact absurd (hcop.trans hd.symm) (hnew c hcm)
          cases hw : x.writes
          rw [hw] at hchange hintents hproduct hcomponent
          cases hchange
          cases hintents
          cases hproduct
          cases hcomponent
          rfl
        exact ⟨h.go (.inr hnone) (fun _ => .inl hprod) fun _ => .inl ⟨c, hcm, hcop⟩, .of_same rfl fun _ => .inl⟩
      · cases hy
    | none =>
      rw [hr] at hy
      cases hy
      refine ⟨h.write hp ⟨hid, rfl, fun o ho he => ?_⟩, .write (fun _ => .inl) ?_ fun _ he => (by cases he)⟩
      · exact absurd (List.find?_eq_none.mp hr o ho) (by simpa using he)
      · rintro r ⟨⟩
        simpa using hfree

theorem publishRelease_sound (h : x.Sound db) (hp : x.phase = .change) (hop : x.op = .publish id)
    (hy : publishRelease db others x id = .next y) : y.Sound db ∧ x.Grows others y := by
  have hnone : x.writes = .none := (h.changing hp).2.2 (by rw [hop]; rfl)
  unfold publishRelease at hy
  cases hr : db.findRelease id with
  | none =>
    rw [hr] at hy
    cases hy
  | some r =>
    rw [hr] at hy
    obtain ⟨hrm, rfl⟩ := findRelease_some hr
    cases hs : r.status with
    | registered =>
      simp only [hs] at hy
      split at hy
      · cases hy
      · rename_i hfree
        split at hy
        · cases hy
        · cases hy
          refine ⟨h.write hp ⟨r, hrm, .inl ⟨hop, hs, x.now, rfl⟩⟩, .write (fun _ => .inl) (fun _ he => by cases he) ?_⟩
          rintro r' ⟨⟩
          simpa using hfree
    | published =>
      simp only [hs] at hy
      cases hy
      exact ⟨.of_none hnone (.inr hnone) (by dsimp only; rw [hop]; rfl), .of_same rfl fun _ => .inl⟩
    | withdrawn =>
      simp only [hs] at hy
      cases hy

theorem withdrawRelease_sound (h : x.Sound db) (hp : x.phase = .change) (hop : x.op = .withdraw id)
    (hy : withdrawRelease db others x id = .next y) : y.Sound db ∧ x.Grows others y := by
  have hnone : x.writes = .none := (h.changing hp).2.2 (by rw [hop]; rfl)
  unfold withdrawRelease at hy
  cases hr : db.findRelease id with
  | none =>
    rw [hr] at hy
    cases hy
  | some r =>
    rw [hr] at hy
    obtain ⟨hrm, rfl⟩ := findRelease_some hr
    cases hs : r.status with
    | registered =>
      simp only [hs] at hy
      cases hy
    | published =>
      simp only [hs] at hy
      split at hy
      · cases hy
      · rename_i hfree
        obtain ⟨hrow, hlock⟩ := not_or.mp hfree
        split at hy
        · cases hy
        · rename_i hkeeps
          split at hy
          · cases hy
          · cases hy
            refine ⟨h.write hp ⟨r, hrm, .inr ⟨hop, hs, ⟨x.now, rfl⟩, rfl, by simpa using hkeeps⟩⟩, .write ?_ (fun _ he => by cases he) ?_⟩
            · rintro c ⟨⟩
              exact .inr (by simpa using hlock)
            · rintro r' ⟨⟩
              simpa using hrow
    | withdrawn =>
      simp only [hs] at hy
      cases hy
      exact ⟨.of_none hnone (.inr hnone) (by dsimp only; rw [hop]; rfl), .of_same rfl fun _ => .inl⟩

variable {expected : Nat}

theorem appendPolicy_sound (h : x.Sound db) (hp : x.phase = .change)
    (hop : x.op = .changePolicy c minimumVersion expected) (hy : appendPolicy db others x c expected minimumVersion = .next y) :
    y.Sound db ∧ x.Grows others y := by
  unfold appendPolicy at hy
  split at hy
  · cases hy
  · rename_i hlock
    split at hy
    · cases hy
    · split at hy
      · cases hy
      · rename_i hnext
        split at hy
        · cases hy
        · rename_i hbelow
          cases hy
          have he : expected = db.policyVersion c := by omega
          subst he
          refine ⟨h.write hp ⟨minimumVersion, hop, rfl, by simpa using hbelow, rfl⟩, .write ?_ (fun _ he => by cases he) fun _ he => (by cases he)⟩
          rintro c' ⟨⟩
          exact .inr (by simpa using hlock)

theorem lockComponent_sound {now : Int} (hw : x.writes = .none) (hr : x.op.registers = none)
    (hs : ∀ y : Session, y.phase = phase → y.writes = .none → y.Stage) (hy : lockComponent others x now c phase = .next y) :
    y.Sound db ∧ x.Grows others y := by
  unfold lockComponent at hy
  split at hy
  · cases hy
  · rename_i hfree
    cases hy
    refine ⟨.of_none hw (hs _ rfl hw) hr, .of_same rfl fun c' hc' => .inr ?_⟩
    obtain rfl := Option.some.inj hc'
    simpa using hfree

theorem read_sound (hw : x.writes = .none) (hr : x.op.registers = none) (hs : ∀ z : Session, z.phase = phase → z.writes = .none → z.Stage)
    (hy : x.go phase = .next y) : y.Sound db ∧ x.Grows others y := by
  cases hy
  exact ⟨.of_none hw (hs _ rfl hw) hr, .of_same rfl fun _ => .inl⟩

theorem stage_none {z : Session} (hp : z.phase ≠ .audit ∧ z.phase ≠ .ensureComponent) (hw : z.writes = .none) : z.Stage := by
  unfold Session.Stage
  cases h : z.phase with
  | audit => exact absurd h hp.1
  | ensureComponent => exact absurd h hp.2
  | commit => exact .inr hw
  | change => exact ⟨by rw [hw]; rfl, by rw [hw]; rfl, fun _ => hw⟩
  | _ => exact hw

theorem Session.Sound.unwritten (h : x.Sound db) (hp : x.phase = .find ∨ x.phase = .check ∨ x.phase = .lock ∨ x.phase = .reread ∨ x.phase = .target) :
    x.writes = .none := by
  have hs := h.stage
  unfold Session.Stage at hs
  rcases hp with hp | hp | hp | hp | hp <;> (rw [hp] at hs; exact hs)

theorem reads_sound (hr : x.op.registers = none) (hw : x.writes = .none) (hp : phase ≠ .audit ∧ phase ≠ .ensureComponent) (hy : x.go phase = .next y) :
    y.Sound db ∧ x.Grows others y :=
  read_sound hw hr (fun _ hz hzw => stage_none (hz ▸ hp) hzw) hy

theorem registering_sound {component : ComponentId} {version : Version}
    (h : x.Sound db) (hreg : Registered db) (hop : x.op = .register component kind version buildId sourceRevision notesRef)
    (hy : registering db others x component kind version buildId sourceRevision notesRef x.phase = .next y) : y.Sound db ∧ x.Grows others y := by
  have hc : component = x.op.component := by rw [hop]; rfl
  unfold registering at hy
  split at hy
  · exact ensureProduct_sound h ‹_› (congrArg ComponentId.product hc) hy
  · exact ensureComponent_sound h ‹_› (by rw [hop]; rfl) (hc ▸ hy)
  · exact registerRelease_sound h ‹_› (by rw [hop]; rfl) hc hreg hy
  · cases hy

theorem publishing_sound (h : x.Sound db) (hop : x.op = .publish id) (hy : publishing db others x id x.phase = .next y) :
    y.Sound db ∧ x.Grows others y := by
  have hr : x.op.registers = none := by rw [hop]; rfl
  unfold publishing at hy
  split at hy
  · rename_i hp
    split at hy
    · exact reads_sound hr (h.unwritten (.inl hp)) (by decide) hy
    · cases hy
  · exact publishRelease_sound h ‹_› hop hy
  · cases hy

theorem withdrawing_sound (h : x.Sound db) (hop : x.op = .withdraw id)
    (hy : withdrawing db clock others x id x.phase = .next y) : y.Sound db ∧ x.Grows others y := by
  have hr : x.op.registers = none := by rw [hop]; rfl
  unfold withdrawing at hy
  split at hy
  · rename_i hp
    have hw := h.unwritten (.inl hp)
    split at hy
    · cases hy
    · split at hy
      · cases hy
      · split at hy
        · exact reads_sound hr hw (by decide) hy
        · exact reads_sound hr hw (by decide) hy
  · rename_i hp
    split at hy
    · cases hy
    · exact reads_sound hr (h.unwritten (.inr (.inl hp))) (by decide) hy
  · rename_i hp
    exact lockComponent_sound (h.unwritten (.inr (.inr (.inl hp)))) hr (fun _ hz hzw => stage_none (hz ▸ by decide) hzw) hy
  · exact withdrawRelease_sound h ‹_› hop hy
  · cases hy

theorem minimumRelease_sound (hr : x.op.registers = none) (hw : x.writes = .none)
    (hp : phase ≠ .audit ∧ phase ≠ .ensureComponent) (hy : minimumRelease db x c minimumVersion phase = .next y) : y.Sound db ∧ x.Grows others y := by
  unfold minimumRelease at hy
  split at hy
  · exact reads_sound hr hw hp hy
  · cases hy

theorem changingPolicy_sound (h : x.Sound db)
    (hop : x.op = .changePolicy c minimumVersion expected)
    (hy : changingPolicy db clock others x c minimumVersion expected x.phase = .next y) : y.Sound db ∧ x.Grows others y := by
  have hr : x.op.registers = none := by rw [hop]; rfl
  unfold changingPolicy at hy
  split at hy
  · rename_i hp
    split at hy
    · exact reads_sound hr (h.unwritten (.inl hp)) (by decide) hy
    · cases hy
  · rename_i hp
    have hw := h.unwritten (.inr (.inl hp))
    split at hy
    · exact reads_sound hr hw (by decide) hy
    · split at hy
      · cases hy
      · exact minimumRelease_sound hr hw (by decide) hy
  · rename_i hp
    exact lockComponent_sound (h.unwritten (.inr (.inr (.inl hp)))) hr (fun _ hz hzw => stage_none (hz ▸ by decide) hzw) hy
  · rename_i hp
    have hw := h.unwritten (.inr (.inr (.inr (.inl hp))))
    split at hy
    · exact reads_sound hr hw (by decide) hy
    · exact reads_sound hr hw (by decide) hy
  · rename_i hp
    exact minimumRelease_sound hr (h.unwritten (.inr (.inr (.inr (.inr hp))))) (by decide) hy
  · exact appendPolicy_sound h ‹_› hop hy
  · cases hy

theorem exec_sound (h : x.Sound db) (hreg : Registered db) (hy : x.exec db clock others = .next y) : y.Sound db ∧ x.Grows others y := by
  unfold Session.exec at hy
  split at hy
  · rename_i hp
    cases hy
    have hs := h.stage
    unfold Session.Stage at hs
    rw [hp] at hs
    refine ⟨⟨h.product, h.component, fun hr _ => h.hasProduct hr (by rw [hp]; nofun), fun hr _ _ => h.hasComponent hr (by rw [hp]; nofun) (by rw [hp]; nofun),
      .inl ⟨hs.1, by rw [hs.2]; rfl⟩, h.ready⟩, ?_⟩
    exact ⟨fun _ => .inl, fun _ => .inl, fun _ => .inl, fun _ => .inl, fun _ => .inl⟩
  · cases hy
  · split at hy
    · exact registering_sound h hreg ‹_› hy
    · exact publishing_sound h ‹_› hy
    · exact withdrawing_sound h ‹_› hy
    · exact changingPolicy_sound h ‹_› hy

end

end NawaraCore.Releases
