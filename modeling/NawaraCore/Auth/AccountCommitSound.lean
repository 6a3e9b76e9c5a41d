import NawaraCore.Auth.StatementSound

/-!
# Commits of the account's sessions

A commit revokes only tokens that its session has locked, and inserts at most one, named by
the session. What the other sessions rest on survives it.
-/

namespace NawaraCore.AccountSessions

/-! ## The rows after a commit -/

section
variable {w : Writes} {n : Nat} {t : RefreshToken} {c : OperatorCode} {db : Account} {x : Session}

theorem after_kept (w : Writes) (n : Nat) (t : RefreshToken) : (t.after w n).id = t.id ∧ (t.after w n).family = t.family ∧
    (t.after w n).expiresAt = t.expiresAt ∧ (t.after w n).sessionExpiresAt = t.sessionExpiresAt ∧ (t.after w n).begun = t.begun := by
  unfold RefreshToken.after
  split
  · exact ⟨rfl, rfl, rfl, rfl, rfl⟩
  · split <;> exact ⟨rfl, rfl, rfl, rfl, rfl⟩

theorem after_live (h : (t.after w n).revoked = false) : t.revoked = false ∧ w.replaced ≠ some t.id ∧ t.id ∉ w.revoked ∧ t.after w n = t := by
  unfold RefreshToken.after at h ⊢
  split at h
  · cases h
  · rename_i hrep
    split at h
    · cases h
    · rename_i hrev
      exact ⟨h, hrep, hrev, by rw [if_neg hrep, if_neg hrev]⟩

theorem after_same (hrep : w.replaced ≠ some t.id) (hrev : t.id ∉ w.revoked) : t.after w n = t := by
  unfold RefreshToken.after
  rw [if_neg hrep, if_neg hrev]

theorem mem_tokens : t ∈ (db.apply n x).tokens ↔ (∃ u ∈ db.tokens, u.after x.writes n = t) ∨ x.writes.token = some t := by
  unfold Account.apply
  simp

theorem mem_codes : c ∈ (db.apply n x).codes ↔ (∃ d ∈ db.codes, d.after x.writes = c) ∨ x.writes.code = some c := by
  unfold Account.apply
  simp

theorem live_cases (ht : t ∈ (db.apply n x).tokens) (hlive : t.revoked = false) :
    (t ∈ db.tokens ∧ x.writes.replaced ≠ some t.id ∧ t.id ∉ x.writes.revoked) ∨ x.writes.token = some t := by
  rcases mem_tokens.mp ht with ⟨u, hu, rfl⟩ | hnew
  · obtain ⟨-, hrep, hrev, he⟩ := after_live hlive
    rw [he]
    exact .inl ⟨hu, hrep, hrev⟩
  · exact .inr hnew

theorem open_cases (hc : c ∈ (db.apply n x).codes) (hopen : c.closed = false) :
    (∃ d ∈ db.codes, d.id = c.id ∧ d.begun = c.begun ∧ d.closed = false ∧ d.id ∉ x.writes.closed) ∨ x.writes.code = some c := by
  rcases mem_codes.mp hc with ⟨d, hd, rfl⟩ | hnew
  · unfold OperatorCode.after at hopen
    simp only [Bool.or_eq_false_iff, decide_eq_false_iff_not] at hopen
    exact .inl ⟨d, hd, rfl, rfl, hopen.1, hopen.2⟩
  · exact .inr hnew

theorem token_mono (ht : t ∈ db.tokens) : ∃ u ∈ (db.apply n x).tokens, u.id = t.id ∧ u.family = t.family :=
  ⟨t.after x.writes n, mem_tokens.mpr (.inl ⟨t, ht, rfl⟩), (after_kept x.writes n t).1, (after_kept x.writes n t).2.1⟩

theorem code_mono (hc : c ∈ db.codes) : ∃ d ∈ (db.apply n x).codes, d.id = c.id :=
  ⟨c.after x.writes, mem_codes.mpr (.inl ⟨c, hc, rfl⟩), rfl⟩

theorem period_apply (ha : x.writes.active ≠ some false) : (db.apply n x).period = db.period := if_neg ha

theorem active_apply {b : Nat} (hb : b ≤ db.period) (h : b = db.period → db.active) (he : b = (db.apply n x).period) : (db.apply n x).active := by
  unfold Account.apply at he ⊢
  dsimp only at he ⊢
  cases hw : x.writes.active with
  | none =>
    rw [hw] at he
    exact h he
  | some active =>
    cases active with
    | true => rfl
    | false =>
      rw [hw, if_pos rfl] at he
      omega

theorem period_le : db.period ≤ (db.apply n x).period := by
  unfold Account.apply
  dsimp only
  split <;> omega

end

/-! ## The tables -/

section
variable {ttl : Int} {db : Account} {n m : Nat} {x y : Session} {t u : RefreshToken}

theorem Session.Sound.new_cases (h : x.Sound ttl db n) (ht : x.writes.token = some t) :
    t.id = n ∧ t.begun = x.begun ∧ t.revoked = false ∧
      ((x.rotating = none ∧ t.family = n) ∨ ∃ r, x.rotating = some r ∧ t.family = r.family ∧ t.sessionExpiresAt = r.sessionExpiresAt) := by
  obtain ⟨rfl, -⟩ := h.inserts.token t ht
  refine ⟨rfl, rfl, rfl, ?_⟩
  unfold Session.issues Session.ceiling
  cases hr : x.rotating with
  | none => exact .inl ⟨rfl, rfl⟩
  | some r => exact .inr ⟨r, rfl, rfl, rfl⟩

theorem issues_expiry {c : Int} (hc : (x.issues ttl n).sessionExpiresAt = some c) : (x.issues ttl n).expiresAt ≤ c := by
  have hx : x.ceiling = some c := hc
  show expiry ttl x.now x.ceiling ≤ c
  rw [hx]
  exact Int.min_le_left c _

theorem Session.Sound.new_family (h : x.Sound ttl db n) (hp : x.phase = .commit) (ht : x.writes.token = some t) (hu : u ∈ db.tokens)
    (hf : u.family = t.family) : ∃ r, x.rotating = some r ∧ u.family = r.family ∧ t.sessionExpiresAt = r.sessionExpiresAt := by
  obtain ⟨-, -, -, ⟨-, hn⟩ | ⟨r, hr, hrf, hrc⟩⟩ := h.new_cases ht
  · exact absurd (hf.trans hn) ((h.fresh (by rw [hp]; rfl)).1 u hu).2
  · exact ⟨r, hr, hf.trans hrf, hrc⟩

theorem Account.Sound.one_new (hdb : db.Sound m) (h : x.Sound ttl db n) (hp : x.phase = .commit) (ht : t ∈ (db.apply n x).tokens)
    (hlive : t.revoked = false) (hu : x.writes.token = some u) (hf : t.family = u.family) : t = u := by
  rcases live_cases ht hlive with ⟨htm, hrep, -⟩ | hnew
  · obtain ⟨r, hr, hrf, -⟩ := h.new_family hp hu htm hf
    have hrot := h.inserts.rotating r hr
    obtain rfl := hdb.one t htm r hrot.live.1 hrf hlive hrot.live.2
    rcases hrot.stage with hs | ⟨hs, -⟩ | ⟨-, -, hs⟩
    · rw [hp] at hs
      cases hs
    · rw [hp] at hs
      cases hs
    · exact absurd hs hrep
  · exact Option.some.inj (hnew.symm.trans hu)

theorem Account.Sound.apply (hdb : db.Sound m) (h : x.Sound ttl db n) (hn : n < m) (hp : x.phase = .commit) : (db.apply n x).Sound m where
  ids := by
    have hids : (db.tokens.map (RefreshToken.after x.writes n)).map RefreshToken.id = db.tokens.map RefreshToken.id := by
      rw [List.map_map]
      exact List.map_congr_left fun t _ => (after_kept x.writes n t).1
    unfold Account.apply
    cases ht : x.writes.token with
    | none => simpa [hids] using hdb.ids
    | some t =>
      refine nodup_append_row (hids ▸ hdb.ids) fun u hu => ?_
      obtain ⟨v, hv, rfl⟩ := List.mem_map.mp hu
      rw [(after_kept x.writes n v).1, (h.new_cases ht).1]
      exact ((h.fresh (by rw [hp]; rfl)).1 v hv).1
  tokens t ht := by
    rcases mem_tokens.mp ht with ⟨u, hu, rfl⟩ | hnew
    · obtain ⟨hid, hf, -, -, hb⟩ := after_kept x.writes n u
      obtain ⟨h1, h2, h3⟩ := hdb.tokens u hu
      rw [hid, hf, hb]
      exact ⟨h1, h2, Nat.le_trans h3 period_le⟩
    · obtain ⟨hid, hb, -, hf⟩ := h.new_cases hnew
      refine ⟨hid ▸ hn, ?_, hb ▸ Nat.le_trans h.begun period_le⟩
      rcases hf with ⟨-, hf⟩ | ⟨r, hr, hf, -⟩
      · exact hf ▸ hn
      · exact hf ▸ (hdb.tokens r (h.inserts.rotating r hr).live.1).2.1
  codes c hc := by
    rcases mem_codes.mp hc with ⟨d, hd, rfl⟩ | hnew
    · exact hdb.codes d hd
    · rw [(h.codes.code c hnew).1]
      exact hn
  cut f hf := by
    have hold : ∃ t ∈ db.tokens, t.family = f := by
      rcases List.mem_append.mp hf with hf | hf
      · exact hdb.cut f hf
      · exact h.sweeps.cut f hf
    obtain ⟨t, ht, rfl⟩ := hold
    obtain ⟨u, hu, -, huf⟩ := token_mono ht
    exact ⟨u, hu, huf⟩
  noCodes hk := by
    have hnone : x.writes.code = none := by
      cases hc : x.writes.code with
      | none => rfl
      | some c =>
        obtain ⟨-, -, -, available, expiresAt, hop⟩ := h.codes.code c hc
        exact absurd (h.operator (by rw [hop]; rfl) (by rw [hop]; nofun)) hk
    show db.codes.map _ ++ x.writes.code.toList = []
    rw [hdb.noCodes hk, hnone]
    rfl
  one t ht u hu hf htl hul := by
    rcases live_cases ht htl with ⟨htm, -⟩ | hnew
    · rcases live_cases hu hul with ⟨hum, -⟩ | hnew
      · exact hdb.one t htm u hum hf htl hul
      · exact hdb.one_new h hp ht htl hnew hf
    · exact (hdb.one_new h hp hu hul hnew hf.symm).symm
  ceiling t ht u hu hf := by
    have hnew : ∀ t u, t ∈ db.tokens → x.writes.token = some u → t.family = u.family → u.sessionExpiresAt = t.sessionExpiresAt := by
      intro t u ht hu hf
      obtain ⟨r, hr, hrf, hrc⟩ := h.new_family hp hu ht hf
      exact hrc.trans (hdb.ceiling r (h.inserts.rotating r hr).live.1 t ht hrf.symm)
    rcases mem_tokens.mp ht with ⟨v, hv, rfl⟩ | htn
    · obtain ⟨-, hvf, -, hvc, -⟩ := after_kept x.writes n v
      rw [hvf] at hf
      rw [hvc]
      rcases mem_tokens.mp hu with ⟨w, hw, rfl⟩ | hun
      · obtain ⟨-, hwf, -, hwc, -⟩ := after_kept x.writes n w
        rw [hwf] at hf
        rw [hwc]
        exact hdb.ceiling v hv w hw hf
      · exact (hnew v u hv hun hf).symm
    · rcases mem_tokens.mp hu with ⟨w, hw, rfl⟩ | hun
      · obtain ⟨-, hwf, -, hwc, -⟩ := after_kept x.writes n w
        rw [hwf] at hf
        rw [hwc]
        exact hnew w t hw htn hf.symm
      · rw [Option.some.inj (htn.symm.trans hun)]
  expiry t ht c hc := by
    rcases mem_tokens.mp ht with ⟨u, hu, rfl⟩ | hnew
    · obtain ⟨-, -, he, hce, -⟩ := after_kept x.writes n u
      rw [he]
      exact hdb.expiry u hu c (hce ▸ hc)
    · obtain ⟨rfl, -⟩ := h.inserts.token t hnew
      exact issues_expiry hc

theorem Account.Sound.next (hdb : db.Sound n) : db.Sound (n + 1) := {
  hdb with
  tokens := fun t ht => ⟨Nat.lt_succ_of_lt (hdb.tokens t ht).1, Nat.lt_succ_of_lt (hdb.tokens t ht).2.1, (hdb.tokens t ht).2.2⟩
  codes := fun c hc => Nat.le_succ_of_le (hdb.codes c hc) }

/-! ## The other sessions -/

theorem Session.Rotates.after {r : RefreshToken} (hr : y.Rotates db r) (h : x.Sound ttl db n) (ha : y.Apart x) : y.Rotates (db.apply n x) r where
  live := by
    have hfree := ha.token _ hr.locked
    have hrev : r.id ∉ x.writes.revoked := fun hi => hfree (h.sweeps.revoked _ hi).1
    have hrep : x.writes.replaced ≠ some r.id := by
      intro he
      obtain ⟨q, hq, hid⟩ := h.inserts.replaced _ he
      exact hfree (hid ▸ (h.inserts.rotating q hq).locked)
    exact ⟨mem_tokens.mpr (.inl ⟨r, hr.live.1, after_same hrep hrev⟩), hr.live.2⟩
  locked := hr.locked
  active := hr.active
  refresh := hr.refresh
  alone := hr.alone
  stage := hr.stage

theorem Session.Sound.after {k : Nat} (hy : y.Sound ttl db k) (h : x.Sound ttl db n) (hp : x.phase = .commit) (hne : k ≠ n) (ha : y.Apart x) :
    y.Sound ttl (db.apply n x) k := by
  obtain ⟨hft, hfc⟩ := h.fresh (by rw [hp]; rfl)
  have hfamily : ∀ f, (∃ t ∈ db.tokens, t.family = f) → ∃ t ∈ (db.apply n x).tokens, t.family = f := by
    rintro f ⟨t, ht, rfl⟩
    obtain ⟨u, hu, -, hf⟩ := token_mono ht
    exact ⟨u, hu, hf⟩
  -- a live row that the session has seen was there
  have hseen : ∀ t ∈ (db.apply n x).tokens, t.id ∈ y.seen → t.revoked = false → t ∈ db.tokens := by
    intro t ht hi hlive
    rcases live_cases ht hlive with ⟨htm, -⟩ | hnew
    · exact htm
    · obtain ⟨u, hu, hid⟩ := hy.sweeps.seen _ hi
      exact absurd (hid.trans (h.new_cases hnew).1) (hft u hu).1
  have hcodes : ∀ c ∈ (db.apply n x).codes, c.id ∈ y.seenCodes → c.closed = false → ∃ d ∈ db.codes, d.id = c.id ∧ d.closed = false := by
    intro c hc hi hopen
    rcases open_cases hc hopen with ⟨d, hd, hid, -, hdo, -⟩ | hnew
    · exact ⟨d, hd, hid, hdo⟩
    · obtain ⟨d, hd, hid⟩ := hy.codes.seen _ hi
      exact absurd (hid.trans (h.codes.code c hnew).1) (hfc d hd)
  exact {
    route := hy.route
    begun := Nat.le_trans hy.begun period_le
    active := fun hb hact => active_apply hy.begun (fun he => hy.active he hact) hb
    creates := hy.creates
    operator := hy.operator
    member := hy.member
    fresh := fun hq => by
      obtain ⟨hyt, hyc⟩ := hy.fresh hq
      constructor
      · intro t ht
        rcases mem_tokens.mp ht with ⟨u, hu, rfl⟩ | hnew
        · obtain ⟨hid, hf, -⟩ := after_kept x.writes n u
          rw [hid, hf]
          exact hyt u hu
        · obtain ⟨hid, -, -, hf⟩ := h.new_cases hnew
          refine ⟨hid ▸ Ne.symm hne, ?_⟩
          rcases hf with ⟨-, hf⟩ | ⟨r, hr, hf, -⟩
          · exact hf ▸ Ne.symm hne
          · exact hf ▸ (hyt r (h.inserts.rotating r hr).live.1).2
      · intro c hc
        rcases mem_codes.mp hc with ⟨d, hd, rfl⟩ | hnew
        · exact hyc d hd
        · rw [(h.codes.code c hnew).1]
          omega
    inserts := {
      hy.inserts with
      rotating := fun t ht => (hy.inserts.rotating t ht).after h ha }
    sweeps := {
      revoked := hy.sweeps.revoked
      seen := fun i hi => by
        obtain ⟨t, ht, rfl⟩ := hy.sweeps.seen i hi
        obtain ⟨u, hu, hid, -⟩ := token_mono ht
        exact ⟨u, hu, hid⟩
      named := fun w f hw hf => hfamily f (hy.sweeps.named w f hw hf)
      cut := fun f hf => hfamily f (hy.sweeps.cut f hf)
      creates := hy.sweeps.creates
      rows := by
        have hrows := hy.sweeps.rows
        unfold Session.Rows at hrows ⊢
        split at hrows
        · exact ⟨hrows.1, fun t ht hi hlive => hrows.2 t (hseen t ht hi hlive) hi hlive⟩
        · exact fun t ht hi hlive => hrows t (hseen t ht hi hlive) hi hlive
        · exact hrows }
    deactivates := {
      hy.deactivates with
      seen := fun active eligible ho hph hw t ht hlive => by
        rcases live_cases ht hlive with ⟨htm, -⟩ | hnew
        · exact hy.deactivates.seen active eligible ho hph hw t htm hlive
        · -- the suspension holds the user row against the insert
          have hlock : y.userLock = some .update := by
            refine hy.deactivates.locks active eligible ho ?_
            rcases hph with ⟨w, todo, hph⟩ | hph <;> (rw [hph]; nofun)
          exact absurd (ha.user _ _ hlock (h.inserts.token t hnew).2) (by decide) }
    codes := {
      seen := fun i hi => by
        obtain ⟨c, hc, rfl⟩ := hy.codes.seen i hi
        exact code_mono hc
      closed := hy.codes.closed
      rows := by
        have hrows := hy.codes.rows
        unfold Session.CodeRows at hrows ⊢
        split at hrows
        · refine ⟨hrows.1, fun c hc hi hopen => ?_⟩
          obtain ⟨d, hd, hid, hdo⟩ := hcodes c hc hi hopen
          exact hid ▸ hrows.2 d hd (hid ▸ hi) hdo
        · intro c hc hi hopen
          obtain ⟨d, hd, hid, hdo⟩ := hcodes c hc hi hopen
          exact hid ▸ hrows d hd (hid ▸ hi) hdo
      uncoded := hy.codes.uncoded
      code := hy.codes.code
      coded := hy.codes.coded } }

/-! ## After a refresh, and as time passes -/

theorem Session.Sound.congr {db' : Account} (h : x.Sound ttl db n) (ht : db'.tokens = db.tokens) (hc : db'.codes = db.codes)
    (hs : db'.kind = db.kind ∧ db'.active = db.active ∧ db'.period = db.period) : x.Sound ttl db' n := by
  cases db
  cases db'
  obtain ⟨rfl, rfl, rfl⟩ := hs
  cases ht
  cases hc
  exact {
    h with
    inserts := {
      h.inserts with
      rotating := fun t ht => { h.inserts.rotating t ht with live := (h.inserts.rotating t ht).live } }
    sweeps := {
      h.sweeps with
      rows := h.sweeps.rows }
    deactivates := { h.deactivates with seen := h.deactivates.seen }
    codes := {
      h.codes with
      rows := h.codes.rows } }

theorem Session.Sound.answers (h : x.Sound ttl db n) (hy : x.answers db = some y) :
    y.Sound ttl (db.apply n x) n ∧ (∃ r, x.rotating = some r ∧ y.rotating = none ∧ y.phase = .access db.active) ∧ ∀ z, y.Apart z := by
  unfold Session.answers at hy
  split at hy
  · rename_i hcond
    cases hy
    obtain ⟨r, hr⟩ := Option.isSome_iff_exists.mp hcond.2
    have hrot := h.inserts.rotating r hr
    obtain ⟨token, hop⟩ := hrot.refresh
    have hroute : x.op.route (.access db.active) := by
      rw [hop]
      exact .inr (.inr (.inr (.inr (.inr (.inr ⟨_, rfl⟩)))))
    refine ⟨?_, ⟨r, hr, rfl, rfl⟩, fun z => ⟨nofun, nofun⟩⟩
    exact {
      route := hroute
      begun := Nat.le_trans h.begun period_le
      active := fun hb hact => active_apply h.begun (fun he => h.active he hact) hb
      creates := h.creates
      operator := h.operator
      member := h.member
      fresh := nofun
      inserts := .of_idle ⟨rfl, rfl, rfl⟩ nofun nofun
      sweeps := .of_none ⟨rfl, rfl, rfl⟩ nofun nofun
      deactivates := {
        first := fun _ => rfl
        unlocked := fun _ _ _ => rfl
        op := nofun
        blocks := fun ho => by rw [hop] at ho; cases ho
        locks := fun _ _ ho => by rw [hop] at ho; cases ho
        sweeps := fun _ _ ho => by rw [hop] at ho; cases ho
        uncut := fun _ _ _ _ => rfl
        seen := fun _ _ ho => by rw [hop] at ho; cases ho }
      codes := {
        seen := nofun
        closed := nofun
        rows := .of_not rfl nofun
        uncoded := fun _ => rfl
        code := nofun
        coded := fun _ _ ho => by rw [hop] at ho; cases ho } }
  · cases hy

theorem created_sound (kind : UserKind) (clock confirmationExpiresAt : Int) :
    (Account.created kind clock confirmationExpiresAt).Sound 0 ∧ (Account.created kind clock confirmationExpiresAt).CleanCut := by
  have hcode : ∀ c ∈ (Account.created kind clock confirmationExpiresAt).codes, c.id = 0 ∧ c.begun = 0 := by
    intro c hc
    unfold Account.created at hc
    dsimp only at hc
    split at hc
    · obtain rfl := List.mem_singleton.mp hc
      exact ⟨rfl, rfl⟩
    · cases hc
  constructor
  · exact {
      ids := List.nodup_nil
      tokens := nofun
      codes := fun c hc => Nat.le_of_eq (hcode c hc).1
      cut := nofun
      noCodes := fun hk => if_neg hk
      one := nofun
      ceiling := nofun
      expiry := fun _ ht => by cases ht }
  · exact {
      tokens := nofun
      codes := nofun
      tokenBegun := nofun
      codeBegun := fun c hc _ => (hcode c hc).2
      access := fun _ ha => by cases ha }

end

end NawaraCore.AccountSessions
