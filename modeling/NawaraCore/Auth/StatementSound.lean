import NawaraCore.Auth.AccountSound

/-!
# Statements of the account's sessions

Every statement keeps the invariant of its session, and locks only what the others leave free.
-/

namespace NawaraCore.AccountSessions

/-! ## Suspensions and sweeps -/

section
variable {ttl : Int} {db : Account} {others : (Session → Bool) → Bool} {n n' : Nat} {x y : Session}

section
variable (h : x.Sound ttl db n)
include h

theorem lockUser_sound {active eligible : Bool} (hp : x.phase = .lockUser) (hop : x.op = .setActive active eligible)
    (hy : lockUser db others x active = .next y) : y.Sound ttl db n ∧ x.Takes others y := by
  have hidle := h.inserts.idle (by rw [hp]; rfl)
  have hun := h.sweeps.unswept (by rw [hp]; rfl)
  have hfirst := h.deactivates.first (.inl hp)
  unfold lockUser at hy
  split at hy
  · cases hy
  · rename_i hfree
    cases hy
    refine ⟨?_, ⟨fun i hi => .inl hi, fun l hl => .inr ?_⟩⟩
    · exact {
        h with
        route := by
          rw [hop]
          dsimp only
          split
          · exact .inr (.inr (.inl rfl))
          · exact .inr (.inl rfl)
        fresh := fun _ => h.fresh (by rw [hp]; rfl)
        inserts := .of_idle hidle (fun hi => by dsimp only at hi; split at hi <;> cases hi) fun hl => by rw [hop] at hl; cases hl
        sweeps := .of_none hun (fun w f hi => by dsimp only at hi; split at hi <;> cases hi) fun w todo hi => by dsimp only at hi; split at hi <;> cases hi
        deactivates := {
          first := fun _ => hfirst
          unlocked := fun _ hb => by rw [hop] at hb; cases hb
          op := h.deactivates.op
          blocks := fun hb => by rw [hop] at hb; cases hb
          locks := fun _ _ _ _ => rfl
          sweeps := fun _ _ _ hs => by
            dsimp only at hs
            rcases hs with ⟨w, hs⟩ | ⟨w, todo, hs⟩ <;> (split at hs <;> cases hs)
          uncut := fun _ _ _ _ => hun.2.2
          seen := fun _ _ _ _ ha => by rw [hfirst] at ha; cases ha }
        codes := h.codes.go rfl rfl rfl rfl rfl (by rw [hp]; rfl) (by dsimp only; split <;> rfl) (fun _ => by rw [hp]; rfl) (by rw [hop]; nofun) }
    · obtain rfl := Option.some.inj hl
      simpa using hfree

theorem updateUser_sound {active : Bool} {next : Phase} (hp : x.phase = .updateUser)
    (hop : (∃ eligible, x.op = .setActive active eligible ∧ next = .sweep (.user none)) ∨ x.op = .setBlocked (!active) ∧ next = .supersede none)
    (hy : updateUser others x active next = .next y) : y.Sound ttl db n ∧ x.Takes others y := by
  have hidle := h.inserts.idle (by rw [hp]; rfl)
  have hun := h.sweeps.unswept (by rw [hp]; rfl)
  have hfirst := h.deactivates.first (.inr hp)
  unfold updateUser at hy
  split at hy
  · cases hy
  · rename_i hfree
    cases hy
    rcases hop with ⟨eligible, hop, rfl⟩ | ⟨hop, rfl⟩
    · -- the member's row has been locked since the first statement
      have hlock : x.userLock = some .update := h.deactivates.locks active eligible hop (by rw [hp]; nofun)
      have hphase : ∀ q, (if active = true then Phase.commit else Phase.sweep (.user none)) = q → q = .commit ∨ active = false ∧ q = .sweep (.user none) := by
        rintro q rfl
        cases active
        · exact .inr ⟨rfl, rfl⟩
        · exact .inl rfl
      refine ⟨?_, ⟨fun i hi => .inl hi, fun l hl => .inl ?_⟩⟩
      · exact {
          h with
          route := by
            rw [hop]
            rcases hphase _ rfl with hq | ⟨ha, hq⟩
            · exact .inr (.inr (.inl hq))
            · exact .inr (.inr (.inr ⟨ha, .inl hq⟩))
          fresh := fun _ => h.fresh (by rw [hp]; rfl)
          inserts := .of_idle hidle (fun hi => by rcases hphase _ hi with hq | ⟨-, hq⟩ <;> cases hq) fun hl => by rw [hop] at hl; cases hl
          sweeps := .of_none hun (fun w f hi hf => by rcases hphase _ hi with hq | ⟨-, hq⟩ <;> cases hq; cases hf)
            fun w todo hi => by rcases hphase _ hi with hq | ⟨-, hq⟩ <;> cases hq
          deactivates := {
            first := fun hq => by rcases hq with hq | hq <;> (rcases hphase _ hq with hq | ⟨-, hq⟩ <;> cases hq)
            unlocked := fun _ hb => by rw [hop] at hb; cases hb
            op := fun ha => .inr ⟨eligible, by rw [hop, Option.some.inj ha]⟩
            blocks := fun hb => by rw [hop] at hb; cases hb
            locks := fun _ _ _ _ => if_pos hlock
            sweeps := fun _ _ _ hs => by
              rcases hs with ⟨w, hs⟩ | ⟨w, todo, hs⟩ <;> rcases hphase _ hs with hq | ⟨ha, hq⟩ <;> cases hq
              exact congrArg some ha
            uncut := fun _ _ _ _ => hun.2.2
            seen := fun _ _ _ hs ha => by
              obtain rfl : active = false := Option.some.inj ha
              rcases hs with ⟨w, todo, hs⟩ | hs <;> cases hs }
          codes := h.codes.go rfl rfl rfl rfl rfl (by rw [hp]; rfl) (by dsimp only; split <;> rfl) (fun _ => by rw [hp]; rfl) (by rw [hop]; nofun) }
      · dsimp only at hl
        rw [if_pos hlock] at hl
        exact hlock.trans hl
    · have hnone : x.userLock = none := h.deactivates.unlocked _ hop hp
      have hphase : ∀ q, (if active = true then Phase.commit else Phase.supersede none) = q → q = .commit ∨ active = false ∧ q = .supersede none := by
        rintro q rfl
        cases active
        · exact .inr ⟨rfl, rfl⟩
        · exact .inl rfl
      refine ⟨?_, ⟨fun i hi => .inl hi, fun l hl => .inr ?_⟩⟩
      · exact {
          h with
          route := by
            rw [hop]
            rcases hphase _ rfl with hq | ⟨ha, hq⟩
            · exact .inr (.inl hq)
            · exact .inr (.inr ⟨by rw [ha]; rfl, .inl hq⟩)
          fresh := fun _ => h.fresh (by rw [hp]; rfl)
          inserts := .of_idle hidle (fun hi => by rcases hphase _ hi with hq | ⟨-, hq⟩ <;> cases hq) fun hl => by rw [hop] at hl; cases hl
          sweeps := .of_none hun (fun w f hi => by rcases hphase _ hi with hq | ⟨-, hq⟩ <;> cases hq)
            fun w todo hi => by rcases hphase _ hi with hq | ⟨-, hq⟩ <;> cases hq
          deactivates := {
            first := fun hq => by rcases hq with hq | hq <;> (rcases hphase _ hq with hq | ⟨-, hq⟩ <;> cases hq)
            unlocked := fun _ _ hq => by rcases hphase _ hq with hq | ⟨-, hq⟩ <;> cases hq
            op := fun ha => .inl (by rw [hop, Option.some.inj ha]; rfl)
            blocks := fun hb _ => by
              rw [hop] at hb
              have ha : (!active) = true := by injection hb
              exact congrArg some (by simpa using ha)
            locks := fun _ _ ho => by rw [hop] at ho; cases ho
            sweeps := fun _ _ ho => by rw [hop] at ho; cases ho
            uncut := fun _ _ ho => by rw [hop] at ho; cases ho
            seen := fun _ _ ho => by rw [hop] at ho; cases ho }
          codes := h.codes.go rfl rfl rfl rfl rfl (by rw [hp]; rfl) (by dsimp only; split <;> rfl) (fun _ => by rw [hp]; rfl) (by rw [hop]; nofun) }
      · dsimp only at hl
        rw [hnone] at hl
        obtain rfl := Option.some.inj hl
        simpa [hnone] using hfree

variable {w : Sweep}

theorem sweep_sound (hdb : db.Sound n') (hp : x.phase = .sweep w) (hy : sweep db x w = .next y) :
    y.Sound ttl db n ∧ x.Takes others y := by
  have hidle := h.inserts.idle (by rw [hp]; rfl)
  have hun := h.sweeps.unswept (by rw [hp]; rfl)
  have hroute : x.op.route (.sweep w) := hp ▸ h.route
  obtain ⟨hcreates, hwhich⟩ := (@route_sweep_login _ _ []) (.inl hroute)
  unfold sweep at hy
  cases hy
  refine ⟨?_, .of_same rfl rfl⟩
  exact {
    h with
    route := route_sweeping hroute _
    fresh := fun _ => h.fresh (by rw [hp]; rfl)
    inserts := .of_idle hidle nofun nofun
    sweeps := {
      revoked := fun i hi => by
        dsimp only at hi
        rw [hun.2.1] at hi
        cases hi
      seen := fun i hi => by
        obtain ⟨t, ht, rfl⟩ := List.mem_map.mp hi
        exact ⟨t, (List.mem_filter.mp ht).1, rfl⟩
      named := nofun
      cut := fun f hf => by
        cases w with
        | family g =>
          obtain rfl := List.mem_singleton.mp hf
          exact h.sweeps.named _ _ hp rfl
        | raw g =>
          obtain rfl := List.mem_singleton.mp hf
          exact h.sweeps.named _ _ hp rfl
        | user e =>
          obtain ⟨t, ht, rfl⟩ := List.mem_map.mp hf
          exact ⟨t, (List.mem_filter.mp ht).1, rfl⟩
      creates := fun hc => by rw [hcreates] at hc; cases hc
      rows := by
        refine ⟨fun i hi => hi, ?_⟩
        intro t ht hi _
        obtain ⟨u, hu, hid⟩ := List.mem_map.mp hi
        obtain ⟨hum, hun⟩ := List.mem_filter.mp hu
        obtain rfl := eq_of_key hdb.ids hum ht hid
        exact ⟨hun, .inl hi⟩ }
    deactivates := {
      first := fun hi => by rcases hi with hi | hi <;> cases hi
      unlocked := nofun
      op := h.deactivates.op
      blocks := fun hb _ => h.deactivates.blocks hb (by rw [hp]; nofun)
      locks := fun _ _ ho _ => h.deactivates.locks _ _ ho (by rw [hp]; nofun)
      sweeps := fun _ _ ho _ => h.deactivates.sweeps _ _ ho (.inl ⟨w, hp⟩)
      uncut := fun _ _ ho ha => absurd (h.deactivates.sweeps _ _ ho (.inl ⟨w, hp⟩)) ha
      seen := fun active eligible ho _ _ t ht hlive => by
        have hw : w = .user none := by
          rw [ho] at hroute
          exact (show active = false ∧ w = .user none by simpa [Operation.route] using hroute).2
        subst hw
        exact List.mem_map_of_mem (List.mem_filter.mpr ⟨ht, by simp [Sweep.names, hlive]⟩) }
    codes := h.codes.keep rfl rfl rfl rfl rfl (by rw [hp]; rfl) rfl nofun fun _ _ _ hi => by cases hi }

variable {todo : List Nat}

theorem sweepRow_sound {id : Nat} (hp : x.phase = .sweeping w (id :: todo))
    (hy : sweepRow db others x w id todo = .next y) : y.Sound ttl db n ∧ x.Takes others y := by
  have hidle := h.inserts.idle (by rw [hp]; rfl)
  have hroute : x.op.route (.sweeping w (id :: todo)) := hp ▸ h.route
  have hall := h.sweeps.rows
  unfold Session.Rows at hall
  rw [hp] at hall
  obtain ⟨hseen, hrows⟩ := hall
  unfold sweepRow at hy
  split at hy
  · cases hy
  · rename_i hfree
    split at hy
    · rename_i hnamed
      cases hy
      refine ⟨?_, ⟨fun i hi => ?_, fun l hl => .inl hl⟩⟩
      · exact {
          h with
          route := route_next hroute
          fresh := fun _ => h.fresh (by rw [hp]; rfl)
          inserts := .of_idle hidle nofun nofun
          sweeps := {
            revoked := fun i hi => by
              rcases List.mem_cons.mp hi with rfl | hi
              · exact ⟨List.mem_cons_self, hseen _ List.mem_cons_self⟩
              · exact (h.sweeps.revoked i hi).imp_left (List.mem_cons_of_mem _)
            seen := h.sweeps.seen
            named := nofun
            cut := h.sweeps.cut
            creates := h.sweeps.creates
            rows := by
              refine ⟨fun i hi => hseen i (List.mem_cons_of_mem _ hi), ?_⟩
              intro t ht hi hlive
              obtain ⟨hn, htodo⟩ := hrows t ht hi hlive
              refine ⟨hn, ?_⟩
              rcases htodo with htodo | hrev
              · rcases List.mem_cons.mp htodo with hid | htodo
                · exact .inr (hid ▸ List.mem_cons_self)
                · exact .inl htodo
              · exact .inr (List.mem_cons_of_mem _ hrev) }
          deactivates := h.deactivates.sweeping hp ⟨nofun, nofun⟩ rfl rfl rfl rfl rfl
          codes := h.codes.keep rfl rfl rfl rfl rfl (by rw [hp]; rfl) rfl nofun fun _ _ _ hi => by cases hi }
      · rcases List.mem_cons.mp hi with rfl | hi
        · exact .inr (by simpa using hfree)
        · exact .inl hi
    · rename_i hnone
      cases hy
      refine ⟨?_, .of_same rfl rfl⟩
      exact {
        h with
        route := route_next hroute
        fresh := fun _ => h.fresh (by rw [hp]; rfl)
        inserts := .of_idle hidle nofun nofun
        sweeps := {
          revoked := h.sweeps.revoked
          seen := h.sweeps.seen
          named := nofun
          cut := h.sweeps.cut
          creates := h.sweeps.creates
          rows := by
            refine ⟨fun i hi => hseen i (List.mem_cons_of_mem _ hi), ?_⟩
            intro t ht hi hlive
            obtain ⟨hn, htodo⟩ := hrows t ht hi hlive
            refine ⟨hn, htodo.imp_left fun htodo => ?_⟩
            rcases List.mem_cons.mp htodo with rfl | htodo
            · exact absurd (List.any_eq_true.mpr ⟨t, ht, by simpa using hn⟩) hnone
            · exact htodo }
        deactivates := h.deactivates.sweeping hp ⟨nofun, nofun⟩ rfl rfl rfl rfl rfl
        codes := h.codes.keep rfl rfl rfl rfl rfl (by rw [hp]; rfl) rfl nofun fun _ _ _ hi => by cases hi }

theorem swept_sound (hp : x.phase = .sweeping w []) (hy : x.go .commit = .next y) :
    y.Sound ttl db n ∧ x.Takes others y := by
  have hidle := h.inserts.idle (by rw [hp]; rfl)
  have hroute : x.op.route (.sweeping w []) := hp ▸ h.route
  obtain ⟨hcreates, -⟩ := route_sweep_login (.inr hroute)
  have hall := h.sweeps.rows
  unfold Session.Rows at hall
  rw [hp] at hall
  cases hy
  refine ⟨?_, .of_same rfl rfl⟩
  exact {
    h with
    route := route_swept hroute
    fresh := fun _ => h.fresh (by rw [hp]; rfl)
    inserts := .of_idle hidle nofun fun hl => by rw [hl] at hcreates; cases hcreates
    sweeps := {
      revoked := h.sweeps.revoked
      seen := h.sweeps.seen
      named := nofun
      cut := h.sweeps.cut
      creates := h.sweeps.creates
      rows := by
        intro t ht hi hlive
        rcases (hall.2 t ht hi hlive).2 with hn | hrev
        · cases hn
        · exact hrev }
    deactivates := h.deactivates.sweeping hp ⟨nofun, nofun⟩ rfl rfl rfl rfl rfl
    codes := h.codes.go rfl rfl rfl rfl rfl (by rw [hp]; rfl) rfl nofun fun _ _ ho => by rw [ho] at hcreates; cases hcreates }

/-! ## Statements on codes -/

theorem Session.Sound.onCodes {z : Session} (hx : x.phase.unswept ∧ x.phase.inserts = false)
    (hop : z.op = x.op) (hbegun : z.begun = x.begun) (hactive : z.active = x.active)
    (hsame : z.rotating = x.rotating ∧ z.seen = x.seen ∧ z.cut = x.cut ∧ z.writes.token = x.writes.token ∧ z.writes.replaced = x.writes.replaced ∧
      z.writes.revoked = x.writes.revoked ∧ z.writes.active = x.writes.active)
    (hr : x.op.route z.phase) (hins : z.phase = .insertToken → x.op.creates) (hlogin : x.op ≠ .login)
    (hp : (∀ w, z.phase = .sweep w → w.named = none) ∧ ∀ w todo, z.phase ≠ .sweeping w todo)
    (hno : ∀ active eligible, x.op ≠ .setActive active eligible) (hb : x.phase ≠ .updateUser ∧ z.phase ≠ .updateUser)
    (hfresh : x.phase.answered = false) (hc : z.Codes db n) : z.Sound ttl db n := by
  obtain ⟨hrot, hs, hcut, ht, hrep, hrev, hact⟩ := hsame
  obtain ⟨i1, i2, i3⟩ := h.inserts.idle hx.2
  obtain ⟨u1, u2, u3⟩ := h.sweeps.unswept hx.1
  constructor
  · rw [hop]; exact hr
  · rw [hbegun]; exact h.begun
  · rw [hbegun, hactive]; exact h.active
  · rw [hop, hactive]; exact h.creates
  · rw [hop]; exact h.operator
  · rw [hop]; exact h.member
  · exact fun _ => h.fresh hfresh
  · exact .of_idle ⟨hrot.trans i1, ht.trans i2, hrep.trans i3⟩ (by rw [hop]; exact hins) fun hl => absurd (hop ▸ hl) hlogin
  · exact .of_none ⟨hs.trans u1, hrev.trans u2, hcut.trans u3⟩ (fun w f hw hn => by rw [hp.1 w hw] at hn; cases hn) hp.2
  · exact {
      first := fun hi => by
        rcases hi with hi | hi
        · rw [hi] at hr
          cases ho : x.op <;> rw [ho] at hr <;> simp [Operation.route] at hr
          exact absurd ho (hno _ _)
        · exact absurd hi hb.2
      unlocked := fun _ _ hi => absurd hi hb.2
      op := by rw [hop, hact]; exact h.deactivates.op
      blocks := fun hblock _ => by rw [hact]; exact h.deactivates.blocks (hop ▸ hblock) hb.1
      locks := fun _ _ ho => absurd (hop ▸ ho) (hno _ _)
      sweeps := fun _ _ ho => absurd (hop ▸ ho) (hno _ _)
      uncut := fun _ _ ho => absurd (hop ▸ ho) (hno _ _)
      seen := fun _ _ ho => absurd (hop ▸ ho) (hno _ _) }
  · exact hc

theorem supersede_sound {purpose : Option CodePurpose} (hp : x.phase = .supersede purpose)
    (hy : supersede db x purpose = .next y) : y.Sound ttl db n ∧ x.Takes others y := by
  have hroute : x.op.route (.supersede purpose) := hp ▸ h.route
  have hclosed := h.codes.uncoded (by rw [hp]; rfl)
  unfold supersede at hy
  cases hy
  refine ⟨?_, .of_same rfl rfl⟩
  refine h.onCodes (by rw [hp]; exact ⟨rfl, rfl⟩) rfl rfl rfl ⟨rfl, rfl, rfl, rfl, rfl, rfl, rfl⟩ (route_superseding hroute _) (fun hi => by cases hi) ?_
    ⟨fun _ hi => (by cases hi), fun _ _ hi => by cases hi⟩ ?_ ⟨by simp [hp], fun hi => by cases hi⟩ (by rw [hp]; rfl) ?_
  · intro ho
    rw [ho] at hroute
    simp [Operation.route] at hroute
  · intro active eligible ho
    rw [ho] at hroute
    simp [Operation.route] at hroute
  · exact {
      seen := fun i hi => by
        obtain ⟨c, hc, rfl⟩ := List.mem_map.mp hi
        exact ⟨c, (List.mem_filter.mp hc).1, rfl⟩
      closed := fun _ i hi => by
        dsimp only at hi
        rw [hclosed] at hi
        cases hi
      rows := ⟨fun i hi => hi, fun c _ hi _ => .inl hi⟩
      uncoded := fun hi => by cases hi
      code := h.codes.code
      coded := fun _ _ _ hi => by cases hi }

theorem supersedeRow_sound {id : Nat} (hp : x.phase = .superseding (id :: todo))
    (hy : supersedeRow db others x id todo = .next y) : y.Sound ttl db n ∧ x.Takes others y := by
  have hroute : x.op.route (.superseding (id :: todo)) := hp ▸ h.route
  have hlogin : x.op ≠ .login := by
    intro ho
    rw [ho] at hroute
    simp [Operation.route] at hroute
  have hno : ∀ active eligible, x.op ≠ .setActive active eligible := by
    intro active eligible ho
    rw [ho] at hroute
    simp [Operation.route] at hroute
  have hall := h.codes.rows
  unfold Session.CodeRows at hall
  rw [hp] at hall
  obtain ⟨hseen, hrows⟩ := hall
  unfold supersedeRow at hy
  split at hy
  · cases hy
  · split at hy
    · cases hy
      refine ⟨?_, .of_same rfl rfl⟩
      refine h.onCodes (by rw [hp]; exact ⟨rfl, rfl⟩) rfl rfl rfl ⟨rfl, rfl, rfl, rfl, rfl, rfl, rfl⟩ (route_nextCode hroute) (fun hi => by cases hi) hlogin
        ⟨fun _ hi => (by cases hi), fun _ _ hi => by cases hi⟩ hno ⟨by simp [hp], fun hi => by cases hi⟩ (by rw [hp]; rfl) ?_
      exact {
        seen := h.codes.seen
        closed := fun hb i hi => by
          rcases List.mem_cons.mp hi with rfl | hi
          · exact hseen _ List.mem_cons_self
          · exact h.codes.closed hb i hi
        rows := by
          refine ⟨fun i hi => hseen i (List.mem_cons_of_mem _ hi), ?_⟩
          intro c hc hi hopen
          rcases hrows c hc hi hopen with htodo | hcl
          · rcases List.mem_cons.mp htodo with hid | htodo
            · exact .inr (hid ▸ List.mem_cons_self)
            · exact .inl htodo
          · exact .inr (List.mem_cons_of_mem _ hcl)
        uncoded := fun hi => by cases hi
        code := h.codes.code
        coded := fun _ _ _ hi => by cases hi }
    · rename_i hnone
      cases hy
      refine ⟨?_, .of_same rfl rfl⟩
      refine h.onCodes (by rw [hp]; exact ⟨rfl, rfl⟩) rfl rfl rfl ⟨rfl, rfl, rfl, rfl, rfl, rfl, rfl⟩ (route_nextCode hroute) (fun hi => by cases hi) hlogin
        ⟨fun _ hi => (by cases hi), fun _ _ hi => by cases hi⟩ hno ⟨by simp [hp], fun hi => by cases hi⟩ (by rw [hp]; rfl) ?_
      exact {
        seen := h.codes.seen
        closed := h.codes.closed
        rows := by
          refine ⟨fun i hi => hseen i (List.mem_cons_of_mem _ hi), ?_⟩
          intro c hc hi hopen
          refine (hrows c hc hi hopen).imp_left fun htodo => ?_
          rcases List.mem_cons.mp htodo with rfl | htodo
          · exact absurd (List.any_eq_true.mpr ⟨c, hc, by simpa using hopen⟩) hnone
          · exact htodo
        uncoded := fun hi => by cases hi
        code := h.codes.code
        coded := fun _ _ _ hi => by cases hi }

theorem superseded_sound (hp : x.phase = .superseding []) (hy : x.superseded = .next y) :
    y.Sound ttl db n ∧ x.Takes others y := by
  have hroute : x.op.route (.superseding []) := hp ▸ h.route
  have hall := h.codes.rows
  unfold Session.CodeRows at hall
  rw [hp] at hall
  have hrows : ∀ c ∈ db.codes, c.id ∈ x.seenCodes → c.closed = false → c.id ∈ x.writes.closed := by
    intro c hc hi hopen
    rcases hall.2 c hc hi hopen with hn | hcl
    · cases hn
    · exact hcl
  have hcodes : ∀ phase, phase.inCodes = false → phase.uncoded = false → phase ≠ .commit → ({ x with phase } : Session).Codes db n := by
    intro phase hph hun hne
    exact {
      seen := h.codes.seen
      closed := h.codes.closed
      rows := .of_not hph hrows
      uncoded := fun hi => by rw [hun] at hi; cases hi
      code := h.codes.code
      coded := fun _ _ _ hi => absurd hi hne }
  unfold Session.superseded at hy
  rcases route_superseded hroute with ⟨available, expiresAt, ho⟩ | ho
  · rw [ho] at hy
    cases hy
    refine ⟨?_, .of_same rfl rfl⟩
    exact h.onCodes (by rw [hp]; exact ⟨rfl, rfl⟩) rfl rfl rfl ⟨rfl, rfl, rfl, rfl, rfl, rfl, rfl⟩ (by rw [ho]; exact .inr (.inr (.inl rfl)))
      nofun (by rw [ho]; nofun) ⟨nofun, nofun⟩ (by rw [ho]; nofun)
      ⟨by rw [hp]; nofun, nofun⟩ (by rw [hp]; rfl) (hcodes _ rfl rfl nofun)
  · rw [ho] at hy
    cases hy
    refine ⟨?_, .of_same rfl rfl⟩
    exact h.onCodes (by rw [hp]; exact ⟨rfl, rfl⟩) rfl rfl rfl ⟨rfl, rfl, rfl, rfl, rfl, rfl, rfl⟩
      (by rw [ho]; exact .inr (.inr ⟨rfl, .inr (.inr (.inl rfl))⟩)) nofun (by rw [ho]; nofun)
      ⟨fun w hi => (by cases hi; rfl), nofun⟩ (by rw [ho]; nofun) ⟨by rw [hp]; nofun, nofun⟩ (by rw [hp]; rfl)
      (hcodes _ rfl rfl nofun)

theorem insertCode_sound {available : Bool} {expiresAt : Int} (hp : x.phase = .insertCode)
    (hop : x.op = .requestLoginCode available expiresAt) (hy : insertCode db others n x expiresAt = .next y) : y.Sound ttl db n ∧ x.Takes others y := by
  unfold insertCode at hy
  split at hy
  · cases hy
  · split at hy
    · cases hy
    · split at hy
      · cases hy
      · cases hy
        refine ⟨?_, .of_same rfl rfl⟩
        refine h.onCodes (by rw [hp]; exact ⟨rfl, rfl⟩) rfl rfl rfl ⟨rfl, rfl, rfl, rfl, rfl, rfl, rfl⟩ (by rw [hop]; exact .inr (.inr (.inr rfl)))
          nofun (by rw [hop]; nofun) ⟨nofun, nofun⟩ (by rw [hop]; nofun)
          ⟨by rw [hp]; nofun, nofun⟩ (by rw [hp]; rfl) ?_
        exact {
          seen := h.codes.seen
          closed := h.codes.closed
          rows := .of_not rfl (h.codes.rows.rows (by rw [hp]; rfl))
          uncoded := nofun
          code := fun c hc => by
            obtain rfl := Option.some.inj hc
            exact ⟨rfl, rfl, rfl, available, expiresAt, hop⟩
          coded := fun _ _ _ _ => rfl }

end

section
variable {purpose : CodePurpose} {right available : Bool} {ceiling : Int}

theorem Session.Sound.redeem {z : Session} (h : x.Sound ttl db n) (hop : x.op = .redeem purpose right available ceiling)
    (hx : x.phase = .selectCode ∨ ∃ code, x.phase = .checkCode code) (ho : z.op = x.op) (hbegun : z.begun = x.begun) (hactive : z.active = x.active)
    (hsame : z.rotating = x.rotating ∧ z.seen = x.seen ∧ z.cut = x.cut ∧ z.writes.token = x.writes.token ∧ z.writes.replaced = x.writes.replaced ∧
      z.writes.revoked = x.writes.revoked ∧ z.writes.active = x.writes.active)
    (hcodes : z.seenCodes = x.seenCodes ∧ z.writes.code = x.writes.code ∧ ∀ i ∈ x.writes.closed, i ∈ z.writes.closed)
    (hz : (∃ code, z.phase = .checkCode code) ∨ z.phase = .insertToken ∨ z.phase = .commit) : z.Sound ttl db n := by
  have hquiet : x.phase.unswept ∧ x.phase.inserts = false ∧ x.phase ≠ .updateUser ∧ x.phase.answered = false ∧ x.phase.inCodes = false := by
    rcases hx with hx | ⟨code, hx⟩ <;> (rw [hx]; exact ⟨rfl, rfl, nofun, rfl, rfl⟩)
  refine h.onCodes ⟨hquiet.1, hquiet.2.1⟩ ho hbegun hactive hsame ?_ (fun _ => by rw [hop]; rfl) (by rw [hop]; nofun) ?_ (by rw [hop]; nofun) ?_ hquiet.2.2.2.1 ?_
  · rw [hop]
    exact .inr hz
  · rcases hz with ⟨code, hz⟩ | hz | hz <;> (rw [hz]; exact ⟨nofun, nofun⟩)
  · refine ⟨hquiet.2.2.1, ?_⟩
    rcases hz with ⟨code, hz⟩ | hz | hz <;> (rw [hz]; nofun)
  · obtain ⟨hs, hw, hc⟩ := hcodes
    exact {
      seen := hs ▸ h.codes.seen
      closed := fun hb => by rw [ho, hop] at hb; cases hb
      rows := by
        refine .of_not (by rcases hz with ⟨code, hz⟩ | hz | hz <;> (rw [hz]; rfl)) fun c hcm hi hopen => ?_
        exact hc _ (h.codes.rows.rows hquiet.2.2.2.2 c hcm (hs ▸ hi) hopen)
      uncoded := fun hi => by rcases hz with ⟨code, hz⟩ | hz | hz <;> (rw [hz] at hi; cases hi)
      code := fun c hcw => by
        obtain ⟨-, -, -, _, _, hr⟩ := h.codes.code c (hw ▸ hcw)
        rw [hop] at hr
        cases hr
      coded := fun _ _ hr => by rw [ho, hop] at hr; cases hr }

theorem selectCode_sound (h : x.Sound ttl db n) (hp : x.phase = .selectCode) (hop : x.op = .redeem purpose right available ceiling)
    (hy : selectCode db x purpose = .next y) : y.Sound ttl db n ∧ x.Takes others y := by
  unfold selectCode at hy
  split at hy
  · cases hy
  · cases hy
    refine ⟨?_, .of_same rfl rfl⟩
    exact h.redeem hop (.inl hp) rfl rfl rfl ⟨rfl, rfl, rfl, rfl, rfl, rfl, rfl⟩ ⟨rfl, rfl, fun _ hi => hi⟩ (.inl ⟨_, rfl⟩)

theorem checkCode_sound {code : Nat} (h : x.Sound ttl db n) (hp : x.phase = .checkCode code) (hop : x.op = .redeem purpose right available ceiling)
    (hy : checkCode db others x purpose right available ceiling code = .next y) : y.Sound ttl db n ∧ x.Takes others y := by
  unfold checkCode at hy
  split at hy
  · cases hy
  · split at hy
    · cases hy
    · unfold verify at hy
      split at hy
      · cases hy
      · split at hy
        · cases hy
          refine ⟨?_, .of_same rfl rfl⟩
          exact h.redeem hop (.inr ⟨_, hp⟩) rfl rfl rfl ⟨rfl, rfl, rfl, rfl, rfl, rfl, rfl⟩ ⟨rfl, rfl, fun _ hi => hi⟩ (.inr (.inr rfl))
        · cases purpose with
          | login =>
            dsimp only at hy
            split at hy
            · cases hy
            · cases hy
              refine ⟨?_, .of_same rfl rfl⟩
              exact h.redeem hop (.inr ⟨_, hp⟩) rfl rfl rfl ⟨rfl, rfl, rfl, rfl, rfl, rfl, rfl⟩ ⟨rfl, rfl, fun _ => List.mem_cons_of_mem _⟩
                (.inr (.inl rfl))
          | confirmation =>
            cases hy
            refine ⟨?_, .of_same rfl rfl⟩
            exact h.redeem hop (.inr ⟨_, hp⟩) rfl rfl rfl ⟨rfl, rfl, rfl, rfl, rfl, rfl, rfl⟩ ⟨rfl, rfl, fun _ => List.mem_cons_of_mem _⟩
              (.inr (.inr rfl))

end

/-! ## Statements on tokens -/

section
variable (h : x.Sound ttl db n)
include h

theorem lockToken_sound {token : Nat} (hp : x.phase = .lockToken) (hop : x.op = .refresh token)
    (hy : lockToken db others x token = .next y) : y.Sound ttl db n ∧ x.Takes others y := by
  have hidle := h.inserts.idle (by rw [hp]; rfl)
  have hun := h.sweeps.unswept (by rw [hp]; rfl)
  unfold lockToken at hy
  split at hy
  · cases hy
  · rename_i hfree
    split at hy
    · cases hy
    · rename_i t ht
      have htm : t ∈ db.tokens := List.mem_of_find?_eq_some ht
      obtain rfl : t.id = token := by simpa using List.find?_some ht
      have htakes : ∀ z : Session, z.tokenLocks = [t.id] → z.userLock = x.userLock → x.Takes others z := by
        intro z hl hu
        refine ⟨fun i hi => .inr ?_, fun l hl' => .inl (hu ▸ hl')⟩
        rw [hl] at hi
        obtain rfl := List.mem_singleton.mp hi
        simpa using hfree
      have hdeact : ∀ z : Session, z.writes.active = x.writes.active → z.op = x.op → z.op.route z.phase → z.Deactivates db := fun z ha ho hr =>
        h.deactivates.go ha ho (by rw [hop]; nofun) (by rw [hop]; nofun) hr
      have hsweep : ({ x with
          phase := .sweep (.family t.family)
          tokenLocks := [t.id] } : Session).Sound ttl db n := by
        have hroute : x.op.route (.sweep (.family t.family)) := by
          rw [hop]
          exact .inr (.inr (.inr (.inl ⟨_, rfl⟩)))
        exact {
          h with
          route := hroute
          fresh := fun _ => h.fresh (by rw [hp]; rfl)
          inserts := .of_idle hidle nofun nofun
          sweeps := .of_none hun (fun w f hi hf => by cases hi; cases hf; exact ⟨t, htm, rfl⟩) nofun
          deactivates := hdeact _ rfl rfl hroute
          codes := h.codes.go rfl rfl rfl rfl rfl (by rw [hp]; rfl) rfl nofun (by rw [hop]; nofun) }
      unfold rotate at hy
      split at hy
      · cases hy
        exact ⟨hsweep, htakes _ rfl rfl⟩
      · split at hy
        · cases hy
        · rename_i hlive
          split at hy
          · cases hy
            exact ⟨hsweep, htakes _ rfl rfl⟩
          · rename_i hactive
            cases hy
            refine ⟨?_, htakes _ rfl rfl⟩
            have hroute : x.op.route .insertToken := by
              rw [hop]
              exact .inr (.inl rfl)
            exact {
              h with
              route := hroute
              fresh := fun _ => h.fresh (by rw [hp]; rfl)
              inserts := {
                token := fun u hu => by
                  dsimp only at hu
                  rw [hidle.2.1] at hu
                  cases hu
                inserts := fun _ => .inl rfl
                written := fun _ => rfl
                inserted := fun ho => by rw [hop] at ho; cases ho
                rotating := fun u hu => by
                  obtain rfl := Option.some.inj hu
                  have hnot := (not_or.mp hlive).1
                  exact ⟨⟨htm, by simpa using hnot⟩, List.mem_singleton_self _, by simpa using hactive, ⟨_, hop⟩, hun, .inl rfl⟩
                replaced := fun i hi => by
                  dsimp only at hi
                  rw [hidle.2.2] at hi
                  cases hi }
              sweeps := .of_none hun nofun nofun
              deactivates := hdeact _ rfl rfl hroute
              codes := h.codes.go rfl rfl rfl rfl rfl (by rw [hp]; rfl) rfl nofun (by rw [hop]; nofun) }

theorem insertToken_sound (hp : x.phase = .insertToken) (hy : insertToken ttl others n x = .next y) :
    y.Sound ttl db n ∧ x.Takes others y := by
  have hun := h.sweeps.unswept (by rw [hp]; rfl)
  have hroute := route_insert (hp ▸ h.route)
  have hwhich : ((∃ token, x.op = .refresh token) ∨ x.op.creates) ∧ (∀ active eligible, x.op ≠ .setActive active eligible) ∧
      (∀ blocked, x.op ≠ .setBlocked blocked) ∧ ∀ available expiresAt, x.op ≠ .requestLoginCode available expiresAt := by
    have hr := h.route
    rw [hp] at hr
    cases ho : x.op <;> rw [ho] at hr <;> simp [Operation.route, Operation.creates] at hr ⊢
  obtain ⟨-, hno, hnb, hnr⟩ := hwhich
  unfold insertToken at hy
  split at hy
  · cases hy
  · rename_i hfree
    cases hy
    have hphase : ∀ q, (if x.rotating.isSome then Phase.replaceToken else Phase.commit) = q →
        (x.rotating.isSome ∧ q = .replaceToken) ∨ x.rotating = none ∧ q = .commit := by
      rintro q rfl
      cases x.rotating
      · exact .inr ⟨rfl, rfl⟩
      · exact .inl ⟨rfl, rfl⟩
    have hrefresh : x.rotating.isSome → ∃ token, x.op = .refresh token := by
      intro hs
      obtain ⟨t, ht⟩ := Option.isSome_iff_exists.mp hs
      exact (h.inserts.rotating t ht).refresh
    have hr : x.op.route (if x.rotating.isSome then Phase.replaceToken else Phase.commit) := by
      rcases hphase _ rfl with ⟨hs, hq⟩ | ⟨-, hq⟩
      · rw [hq]
        exact hroute.2 (hrefresh hs)
      · rw [hq]
        exact hroute.1
    refine ⟨?_, ⟨fun i hi => .inl hi, fun l hl => .inr ?_⟩⟩
    · exact {
        h with
        route := hr
        fresh := fun _ => h.fresh (by rw [hp]; rfl)
        inserts := {
          token := fun t ht => ⟨(Option.some.inj ht).symm, rfl⟩
          inserts := fun _ => h.inserts.inserts (.inr hp)
          written := fun _ => by
            dsimp only
            split <;> rfl
          inserted := fun _ _ => rfl
          rotating := fun t ht => by
            have hrot := h.inserts.rotating t ht
            refine ⟨hrot.live, hrot.locked, hrot.active, hrot.refresh, hrot.alone, .inr (.inl ⟨?_, rfl⟩)⟩
            exact if_pos (by rw [show x.rotating = some t from ht]; rfl)
          replaced := h.inserts.replaced }
        sweeps := by
          refine .of_none hun (fun _ _ hi => ?_) fun _ _ hi => ?_
          · rcases hphase _ hi with ⟨-, hq⟩ | ⟨-, hq⟩ <;> cases hq
          · rcases hphase _ hi with ⟨-, hq⟩ | ⟨-, hq⟩ <;> cases hq
        deactivates := h.deactivates.go rfl rfl hno hnb hr
        codes := h.codes.go rfl rfl rfl rfl rfl (by rw [hp]; rfl) (by dsimp only; split <;> rfl) (fun hi => by dsimp only at hi; split at hi <;> cases hi) hnr }
    · obtain rfl := Option.some.inj hl
      simpa using hfree

theorem replaceToken_sound (hp : x.phase = .replaceToken) : ({ x with
    phase := .commit
    writes := { x.writes with replaced := x.rotating.map RefreshToken.id } } : Session).Sound ttl db n := by
  obtain ⟨token, hop⟩ := route_replace (hp ▸ h.route)
  have hun := h.sweeps.unswept (by rw [hp]; rfl)
  have hroute : x.op.route .commit := by
    rw [hop]
    exact .inr (.inr (.inr (.inr (.inr (.inl rfl)))))
  exact {
    h with
    route := hroute
    fresh := fun _ => h.fresh (by rw [hp]; rfl)
    inserts := {
      token := h.inserts.token
      inserts := fun hi => by
        rcases hi with hi | hi
        · exact h.inserts.inserts (.inl hi)
        · cases hi
      written := fun _ => rfl
      inserted := fun ho => by rw [hop] at ho; cases ho
      rotating := fun t ht => by
        have hrot := h.inserts.rotating t ht
        refine ⟨hrot.live, hrot.locked, hrot.active, hrot.refresh, hrot.alone, .inr (.inr ⟨rfl, ?_, ?_⟩)⟩
        · rcases hrot.stage with hs | ⟨-, hs⟩ | ⟨hs, -⟩
          · rw [hp] at hs
            cases hs
          · exact hs
          · rw [hp] at hs
            cases hs
        · dsimp only at ht ⊢
          rw [ht]
          rfl
      replaced := fun i hi => by simpa using hi }
    sweeps := .of_none hun nofun nofun
    deactivates := h.deactivates.go rfl rfl (by rw [hop]; nofun) (by rw [hop]; nofun) hroute
    codes := h.codes.go rfl rfl rfl rfl rfl (by rw [hp]; rfl) rfl nofun (by rw [hop]; nofun) }

theorem exec_sound (hdb : db.Sound n') (hy : x.exec ttl db others n = .next y) : y.Sound ttl db n ∧ x.Takes others y := by
  unfold Session.exec at hy
  split at hy
  · exact lockUser_sound h ‹_› ‹_› hy
  · rename_i hp hop
    exact updateUser_sound h hp (.inl ⟨_, hop, rfl⟩) hy
  · rename_i hp hop
    exact updateUser_sound h hp (.inr ⟨by rw [hop, Bool.not_not], rfl⟩) hy
  · exact lockToken_sound h ‹_› ‹_› hy
  · exact insertToken_sound h ‹_› hy
  · rename_i hp
    cases hy
    exact ⟨replaceToken_sound h hp, .of_same rfl rfl⟩
  · exact sweep_sound h hdb ‹_› hy
  · exact sweepRow_sound h ‹_› hy
  · exact swept_sound h ‹_› hy
  · exact supersede_sound h ‹_› hy
  · exact supersedeRow_sound h ‹_› hy
  · exact superseded_sound h ‹_› hy
  · exact insertCode_sound h ‹_› ‹_› hy
  · exact selectCode_sound h ‹_› ‹_› hy
  · exact checkCode_sound h ‹_› ‹_› hy
  · cases hy

end

end

/-! ## Beginnings -/

section
variable {ttl : Int} {db : Account} {n : Nat} {op : Operation} {x : Session}

structure Operation.Begins (db : Account) (op : Operation) (phase : Phase) : Prop where
  route : op.route phase
  plain : phase ≠ .commit ∧ phase ≠ .replaceToken ∧ phase.unswept ∧ phase.inCodes = false ∧ phase.answered = false
  creates : op.creates → db.active ∧ (op ≠ .login → db.kind = .operator)
  member : ∀ active eligible, op = .setActive active eligible → phase = .lockUser ∧ db.kind = .member
  operator : ∀ blocked, op = .setBlocked blocked → phase = .updateUser
  inserts : phase = .insertToken → op = .login
  named : ∀ w f, phase = .sweep w → w.named = some f → ∃ t ∈ db.tokens, t.family = f

theorem begins_sound {phase : Phase} (h : op.begins db = some phase) : op.Begins db phase := by
  unfold Operation.begins at h
  cases op with
  | login =>
    dsimp only at h
    split at h
    · rename_i hk
      cases h
      exact ⟨.inl rfl, ⟨nofun, nofun, rfl, rfl, rfl⟩, fun _ => ⟨hk.2, fun hn => absurd rfl hn⟩, nofun, nofun, fun _ => rfl, nofun⟩
    · cases h
  | refresh token =>
    dsimp only at h
    split at h
    · cases h
      exact ⟨.inl rfl, ⟨nofun, nofun, rfl, rfl, rfl⟩, nofun, nofun, nofun, nofun, nofun⟩
    · cases h
  | logout token =>
    obtain ⟨t, ht, rfl⟩ := Option.map_eq_some_iff.mp h
    refine ⟨.inl ⟨_, rfl⟩, ⟨nofun, nofun, rfl, rfl, rfl⟩, nofun, nofun, nofun, nofun, fun w f hw hf => ?_⟩
    cases hw
    cases hf
    exact ⟨t, List.mem_of_find?_eq_some ht, rfl⟩
  | setActive active eligible =>
    dsimp only at h
    split at h
    · rename_i hk
      cases h
      exact ⟨.inl rfl, ⟨nofun, nofun, rfl, rfl, rfl⟩, nofun, fun _ _ _ => ⟨rfl, hk.1⟩, nofun, nofun, nofun⟩
    · cases h
  | setBlocked blocked =>
    dsimp only at h
    split at h
    · cases h
      exact ⟨.inl rfl, ⟨nofun, nofun, rfl, rfl, rfl⟩, nofun, nofun, fun _ _ => rfl, nofun, nofun⟩
    · cases h
  | requestLoginCode available expiresAt =>
    dsimp only at h
    split at h
    · rename_i hk
      cases h
      exact ⟨.inl rfl, ⟨nofun, nofun, rfl, rfl, rfl⟩, fun _ => ⟨hk.2.1, fun _ => hk.1⟩, nofun, nofun, nofun, nofun⟩
    · cases h
  | redeem purpose right available ceiling =>
    dsimp only at h
    split at h
    · rename_i hk
      cases h
      exact ⟨.inl rfl, ⟨nofun, nofun, rfl, rfl, rfl⟩, fun _ => ⟨hk.2.1, fun _ => hk.1⟩, nofun, nofun, nofun, nofun⟩
    · cases h
  | recover =>
    dsimp only at h
    split at h
    · cases h
      exact ⟨.inl ⟨_, rfl⟩, ⟨nofun, nofun, rfl, rfl, rfl⟩, nofun, nofun, nofun, nofun, fun w f hw hf => by cases hw; cases hf⟩
    · cases h
  | endOtherSessions family =>
    dsimp only at h
    split at h
    · cases h
      exact ⟨.inl ⟨_, rfl⟩, ⟨nofun, nofun, rfl, rfl, rfl⟩, nofun, nofun, nofun, nofun, fun w f hw hf => by cases hw; cases hf⟩
    · cases h

theorem start_sound (hdb : db.Sound n) (h : Session.start db op = some x) : x.Sound ttl db n ∧ ∀ y, x.Apart y := by
  obtain ⟨phase, hphase, rfl⟩ := Option.map_eq_some_iff.mp h
  have hb := begins_sound hphase
  obtain ⟨hcommit, hreplace, hun, hcodes, hanswered⟩ := hb.plain
  refine ⟨?_, fun y => ⟨nofun, nofun⟩⟩
  exact {
    route := hb.route
    begun := Nat.le_refl _
    active := fun _ ha => ha
    creates := fun hc => (hb.creates hc).1
    operator := fun hc hl => (hb.creates hc).2 hl
    member := fun _ _ ho => (hb.member _ _ ho).2
    fresh := fun _ => ⟨fun t ht => ⟨Nat.ne_of_lt (hdb.tokens t ht).1, Nat.ne_of_lt (hdb.tokens t ht).2.1⟩, fun c hc => Nat.ne_of_lt (Nat.lt_succ_of_le (hdb.codes c hc))⟩
    inserts := .of_idle ⟨rfl, rfl, rfl⟩ (fun hp => by dsimp only at hp ⊢; rw [hb.inserts hp]; rfl) fun _ => hcommit
    sweeps := by
      refine .of_none ⟨rfl, rfl, rfl⟩ hb.named fun w todo hp => ?_
      dsimp only at hp
      rw [hp] at hun
      cases hun
    deactivates := {
      first := fun _ => rfl
      unlocked := fun _ _ _ => rfl
      op := nofun
      blocks := fun ho hp => absurd (hb.operator _ ho) hp
      locks := fun _ _ ho hp => absurd (hb.member _ _ ho).1 hp
      sweeps := fun _ _ ho hp => by
        have hlock := (hb.member _ _ ho).1
        dsimp only at hp
        rw [hlock] at hp
        rcases hp with ⟨w, hp⟩ | ⟨w, todo, hp⟩ <;> cases hp
      uncut := fun _ _ _ _ => rfl
      seen := fun _ _ _ _ ha => by cases ha }
    codes := {
      seen := nofun
      closed := nofun
      rows := .of_not hcodes nofun
      uncoded := fun _ => rfl
      code := nofun
      coded := fun _ _ _ hp => absurd hp hcommit } }

end

end NawaraCore.AccountSessions
