import NawaraCore.Auth.AccountCommitSound

/-!
# Suspension and blocking

A refresh never crosses a deactivation: its token is live and locked. A login, a code request
and a redemption can, for they read the account before their transaction; and a block misses
what commits after its statements' snapshots.
-/

namespace NawaraCore.AccountSessions

section
variable {ttl : Int} {db : Account} {others : (Session → Bool) → Bool} {n m k : Nat} {x y : Session} {op : Operation}

structure Session.InPeriod (db : Account) (x : Session) : Prop where
  rotating : ∀ t, x.rotating = some t → t.begun = x.begun
  refreshing : ∀ token, x.op = .refresh token → x.phase = .lockToken →
    (∃ t ∈ db.tokens, t.id = token) ∧ ∀ t ∈ db.tokens, t.id = token → t.revoked = false → t.begun = x.begun
  access : ∀ active, x.phase = .access active → active

theorem start_inPeriod (hl : db.CleanCut) (h : Session.start db op = some x) : x.InPeriod db := by
  obtain ⟨phase, hphase, rfl⟩ := Option.map_eq_some_iff.mp h
  refine ⟨fun _ ht => (by cases ht), fun token ho _ => ?_, fun active ha => ?_⟩
  · dsimp only at ho
    subst ho
    unfold Operation.begins at hphase
    dsimp only at hphase
    split at hphase
    · rename_i hany
      obtain ⟨t, ht, hid⟩ := List.any_eq_true.mp hany
      exact ⟨⟨t, ht, of_decide_eq_true hid⟩, fun u hu _ hlive => hl.tokenBegun u hu hlive⟩
    · cases hphase
  · have hb := (begins_sound hphase).plain.2.2.2.2
    dsimp only at ha
    rw [ha] at hb
    cases hb

structure Session.Leaves (x y : Session) : Prop where
  op : y.op = x.op
  begun : y.begun = x.begun
  phase : y.phase ≠ .lockToken ∧ ∀ active, y.phase ≠ .access active
  rotating : y.rotating = x.rotating

theorem Session.Leaves.go {phase : Phase} (hy : x.go phase = .next y) (hp : phase ≠ .lockToken ∧ ∀ active, phase ≠ .access active) : x.Leaves y := by
  cases hy
  exact ⟨rfl, rfl, hp, rfl⟩

theorem exec_rotating (hy : x.exec ttl db others n = .next y) : x.Leaves y ∨
    ∃ token t, x.op = .refresh token ∧ x.phase = .lockToken ∧ y.op = x.op ∧ y.begun = x.begun ∧ (y.phase ≠ .lockToken ∧ ∀ active, y.phase ≠ .access active) ∧
      (y.rotating = x.rotating ∨ y.rotating = some t ∧ t ∈ db.tokens ∧ t.id = token ∧ t.revoked = false) := by
  have hif : ∀ (c : Prop) [Decidable c] (p q : Phase), (p ≠ .lockToken ∧ ∀ active, p ≠ .access active) → (q ≠ .lockToken ∧ ∀ active, q ≠ .access active) →
      (if c then p else q) ≠ .lockToken ∧ ∀ active, (if c then p else q) ≠ .access active := by
    intro c _ p q hp hq
    split
    · exact hp
    · exact hq
  unfold Session.exec at hy
  split at hy
  · left
    unfold lockUser at hy
    split at hy
    · cases hy
    · cases hy
      exact ⟨rfl, rfl, hif _ _ _ ⟨nofun, nofun⟩ ⟨nofun, nofun⟩, rfl⟩
  · left
    unfold updateUser at hy
    split at hy
    · cases hy
    · cases hy
      exact ⟨rfl, rfl, hif _ _ _ ⟨nofun, nofun⟩ ⟨nofun, nofun⟩, rfl⟩
  · left
    unfold updateUser at hy
    split at hy
    · cases hy
    · cases hy
      exact ⟨rfl, rfl, hif _ _ _ ⟨nofun, nofun⟩ ⟨nofun, nofun⟩, rfl⟩
  · rename_i token hp hop
    right
    unfold lockToken at hy
    split at hy
    · cases hy
    · split at hy
      · cases hy
      · rename_i t ht
        refine ⟨token, t, hop, hp, ?_⟩
        unfold rotate at hy
        split at hy
        · cases hy
          exact ⟨rfl, rfl, ⟨nofun, nofun⟩, .inl rfl⟩
        · split at hy
          · cases hy
          · rename_i hlive
            split at hy
            · cases hy
              exact ⟨rfl, rfl, ⟨nofun, nofun⟩, .inl rfl⟩
            · cases hy
              refine ⟨rfl, rfl, ⟨nofun, nofun⟩, .inr ⟨rfl, List.mem_of_find?_eq_some ht, by simpa using List.find?_some ht, ?_⟩⟩
              simpa using (not_or.mp hlive).1
  · left
    unfold insertToken at hy
    split at hy
    · cases hy
    · cases hy
      exact ⟨rfl, rfl, hif _ _ _ ⟨nofun, nofun⟩ ⟨nofun, nofun⟩, rfl⟩
  · cases hy
    exact .inl ⟨rfl, rfl, ⟨nofun, nofun⟩, rfl⟩
  · cases hy
    exact .inl ⟨rfl, rfl, ⟨nofun, nofun⟩, rfl⟩
  · left
    unfold sweepRow at hy
    split at hy
    · cases hy
    · split at hy
      · cases hy
        exact ⟨rfl, rfl, ⟨nofun, nofun⟩, rfl⟩
      · exact .go hy ⟨nofun, nofun⟩
  · exact .inl (.go hy ⟨nofun, nofun⟩)
  · cases hy
    exact .inl ⟨rfl, rfl, ⟨nofun, nofun⟩, rfl⟩
  · left
    unfold supersedeRow at hy
    split at hy
    · cases hy
    · split at hy
      · cases hy
        exact ⟨rfl, rfl, ⟨nofun, nofun⟩, rfl⟩
      · exact .go hy ⟨nofun, nofun⟩
  · left
    unfold Session.superseded at hy
    split at hy
    · exact .go hy ⟨nofun, nofun⟩
    · exact .go hy ⟨nofun, nofun⟩
  · left
    unfold insertCode at hy
    split at hy
    · cases hy
    · split at hy
      · cases hy
      · split at hy
        · cases hy
        · cases hy
          exact ⟨rfl, rfl, ⟨nofun, nofun⟩, rfl⟩
  · left
    unfold selectCode at hy
    split at hy
    · cases hy
    · exact .go hy ⟨nofun, nofun⟩
  · left
    unfold checkCode at hy
    split at hy
    · cases hy
    · split at hy
      · cases hy
      · unfold verify at hy
        split at hy
        · cases hy
        · split at hy
          · cases hy
            exact ⟨rfl, rfl, ⟨nofun, nofun⟩, rfl⟩
          · split at hy
            · split at hy
              · cases hy
              · cases hy
                exact ⟨rfl, rfl, ⟨nofun, nofun⟩, rfl⟩
            · cases hy
              exact ⟨rfl, rfl, ⟨nofun, nofun⟩, rfl⟩
  · cases hy

theorem exec_inPeriod (h : x.InPeriod db) (hy : x.exec ttl db others n = .next y) : y.InPeriod db := by
  rcases exec_rotating hy with hl | ⟨token, t, hop, hp, -, hb, ⟨hlock, haccess⟩, hrot⟩
  · refine ⟨?_, fun _ _ hp => absurd hp hl.phase.1, fun active ha => absurd ha (hl.phase.2 active)⟩
    rw [hl.rotating, hl.begun]
    exact h.rotating
  · refine ⟨fun u hu => ?_, fun _ _ hp => absurd hp hlock, fun active ha => absurd ha (haccess active)⟩
    rw [hb]
    rcases hrot with hrot | ⟨hrot, htm, hid, hlive⟩
    · exact h.rotating u (hrot.symm.trans hu)
    · obtain rfl := Option.some.inj (hrot.symm.trans hu)
      exact (h.refreshing token hop hp).2 t htm hid hlive

/-! ## Commits -/

theorem Session.Sound.creating (h : x.Sound ttl db n) (hl : db.CleanCut) (hx : x.InPeriod db) (hok : x.Cuts db)
    (hc : x.writes.token.isSome ∨ x.writes.code.isSome) : x.begun = db.period ∧ db.active ∧ x.writes.active ≠ some false := by
  have hboth : x.begun = db.period ∧ x.active ∧ ((∃ token, x.op = .refresh token) ∨ x.op.creates) := by
    have hcreates : x.op.creates → x.begun = db.period := by
      intro hcr
      unfold Session.Cuts at hok
      cases ho : x.op with
      | login => rw [ho] at hok; exact hok
      | requestLoginCode => rw [ho] at hok; exact hok
      | redeem =>
        rw [ho] at hok
        rcases hc with hc | hc
        · exact hok hc
        · obtain ⟨c, hc⟩ := Option.isSome_iff_exists.mp hc
          obtain ⟨-, -, -, _, _, hop⟩ := h.codes.code c hc
          rw [ho] at hop
          cases hop
      | _ => rw [ho] at hcr; cases hcr
    have hcase : x.rotating.isSome ∨ x.op.creates := by
      rcases hc with hc | hc
      · exact h.inserts.inserts (.inl hc)
      · obtain ⟨c, hc⟩ := Option.isSome_iff_exists.mp hc
        obtain ⟨-, -, -, _, _, hop⟩ := h.codes.code c hc
        exact .inr (by rw [hop]; rfl)
    rcases hcase with hr | hcr
    · obtain ⟨r, hr⟩ := Option.isSome_iff_exists.mp hr
      have hrot := h.inserts.rotating r hr
      exact ⟨(hx.rotating r hr).symm.trans (hl.tokenBegun r hrot.live.1 hrot.live.2), hrot.active, .inl hrot.refresh⟩
    · exact ⟨hcreates hcr, h.creates hcr, .inr hcr⟩
  obtain ⟨hb, hact, hop⟩ := hboth
  refine ⟨hb, h.active hb hact, fun hw => ?_⟩
  rcases h.deactivates.op hw with ho | ⟨_, ho⟩ <;> rcases hop with ⟨_, hop⟩ | hop <;> (rw [ho] at hop; cases hop)

theorem Session.Sound.deactivated (h : x.Sound ttl db n) (hdb : db.Sound m) (hok : x.Cuts db) (hp : x.phase = .commit) (hw : x.writes.active = some false) :
    (∀ t ∈ db.tokens, t.revoked = false → t.id ∈ x.writes.revoked) ∧ ∀ c ∈ db.codes, c.closed = false → c.id ∈ x.writes.closed := by
  have hrows := h.sweeps.rows
  unfold Session.Rows at hrows
  rw [hp] at hrows
  have hcodes := h.codes.rows.rows (by rw [hp]; rfl)
  rcases h.deactivates.op hw with ho | ⟨eligible, ho⟩
  · unfold Session.Cuts at hok
    rw [ho] at hok
    exact ⟨fun t ht hlive => hrows t ht (hok.1 t ht hlive) hlive, fun c hc hopen => hcodes c hc (hok.2 c hc hopen) hopen⟩
  · refine ⟨fun t ht hlive => hrows t ht (h.deactivates.seen _ _ ho (.inr hp) hw t ht hlive) hlive, fun c hc _ => ?_⟩
    have hmember := h.member _ _ ho
    rw [hdb.noCodes (by rw [hmember]; nofun)] at hc
    cases hc

theorem Account.CleanCut.apply (hl : db.CleanCut) (h : x.Sound ttl db n) (hdb : db.Sound m) (hx : x.InPeriod db) (hok : x.Cuts db) (hp : x.phase = .commit) :
    (db.apply n x).CleanCut := by
  -- what is live after a deactivation was not there before it
  have hnone : x.writes.active = some false → (∀ t ∈ (db.apply n x).tokens, t.revoked) ∧ ∀ c ∈ (db.apply n x).codes, c.closed := by
    intro hw
    obtain ⟨htok, hcod⟩ := h.deactivated hdb hok hp hw
    refine ⟨fun t ht => ?_, fun c hc => ?_⟩
    · by_contra hlive
      rcases live_cases ht (by simpa using hlive) with ⟨htm, -, hrev⟩ | hnew
      · exact hrev (htok t htm (by simpa using hlive))
      · exact (h.creating hl hx hok (.inl (by rw [hnew]; rfl))).2.2 hw
    · by_contra hopen
      rcases open_cases hc (by simpa using hopen) with ⟨d, hd, -, -, hdo, hcl⟩ | hnew
      · exact hcl (hcod d hd hdo)
      · exact (h.creating hl hx hok (.inr (by rw [hnew]; rfl))).2.2 hw
  have hinactive : (db.apply n x).active = false → x.writes.active = some false ∨ db.active = false := by
    intro ha
    unfold Account.apply at ha
    dsimp only at ha
    cases hw : x.writes.active with
    | none => rw [hw] at ha; exact .inr ha
    | some active => rw [hw] at ha; exact .inl (congrArg some ha)
  constructor
  · intro ha t ht
    rcases hinactive ha with hw | hdbi
    · exact (hnone hw).1 t ht
    · by_contra hlive
      rcases live_cases ht (by simpa using hlive) with ⟨htm, -⟩ | hnew
      · exact hlive (hl.tokens hdbi t htm)
      · have hact := (h.creating hl hx hok (.inl (by rw [hnew]; rfl))).2.1
        rw [hdbi] at hact
        cases hact
  · intro ha c hc
    rcases hinactive ha with hw | hdbi
    · exact (hnone hw).2 c hc
    · by_contra hopen
      rcases open_cases hc (by simpa using hopen) with ⟨d, hd, -, -, hdo, -⟩ | hnew
      · exact absurd (hl.codes hdbi d hd) (by rw [hdo]; decide)
      · have hact := (h.creating hl hx hok (.inr (by rw [hnew]; rfl))).2.1
        rw [hdbi] at hact
        cases hact
  · intro t ht hlive
    by_cases hw : x.writes.active = some false
    · exact absurd ((hnone hw).1 t ht) (by rw [hlive]; decide)
    · rw [period_apply hw]
      rcases live_cases ht hlive with ⟨htm, -⟩ | hnew
      · exact hl.tokenBegun t htm hlive
      · exact (h.new_cases hnew).2.1.trans (h.creating hl hx hok (.inl (by rw [hnew]; rfl))).1
  · intro c hc hopen
    by_cases hw : x.writes.active = some false
    · exact absurd ((hnone hw).2 c hc) (by rw [hopen]; decide)
    · rw [period_apply hw]
      rcases open_cases hc hopen with ⟨d, hd, -, hb, hdo, -⟩ | hnew
      · exact hb ▸ hl.codeBegun d hd hdo
      · exact (h.codes.code c hnew).2.2.1.trans (h.creating hl hx hok (.inr (by rw [hnew]; rfl))).1
  · intro active ha
    rcases List.mem_append.mp ha with ha | ha
    · exact hl.access active ha
    · split at ha
      · rename_i hcond
        obtain rfl := List.mem_singleton.mp ha
        exact (h.creating hl hx hok (.inl hcond.1)).2.1
      · cases ha

theorem Session.Sound.cuts (h : x.Sound ttl db n) (hp : x.phase = .commit) (hl : (db.apply n x).CleanCut) : x.Cuts db := by
  have hother : x.op.creates → x.writes.active ≠ some false := by
    intro hc hw
    rcases h.deactivates.op hw with ho | ⟨_, ho⟩ <;> (rw [ho] at hc; cases hc)
  have htoken : x.op.creates → x.writes.token.isSome → x.begun = db.period := by
    intro hc hs
    obtain ⟨t, ht⟩ := Option.isSome_iff_exists.mp hs
    obtain ⟨-, hb, hlive, -⟩ := h.new_cases ht
    rw [← hb, hl.tokenBegun t (mem_tokens.mpr (.inr ht)) hlive, period_apply (hother hc)]
  unfold Session.Cuts
  cases ho : x.op with
  | login => exact htoken (by rw [ho]; rfl) (h.inserts.inserted ho hp)
  | requestLoginCode available expiresAt =>
    obtain ⟨c, hc⟩ := Option.isSome_iff_exists.mp (h.codes.coded _ _ ho hp)
    obtain ⟨-, hopen, hb, -⟩ := h.codes.code c hc
    show x.begun = db.period
    rw [← hb, hl.codeBegun c (mem_codes.mpr (.inr hc)) hopen, period_apply (hother (by rw [ho]; rfl))]
  | redeem purpose right available ceiling => exact htoken (by rw [ho]; rfl)
  | setBlocked blocked =>
    cases blocked with
    | false => exact trivial
    | true =>
      have hinactive : (db.apply n x).active = false := by
        unfold Account.apply
        dsimp only
        rw [h.deactivates.blocks ho (by rw [hp]; nofun)]
        rfl
      refine ⟨fun t ht hlive => ?_, fun c hc hopen => ?_⟩
      · by_contra hunseen
        have hrep : x.writes.replaced ≠ some t.id := by
          intro he
          obtain ⟨r, hr, -⟩ := h.inserts.replaced _ he
          obtain ⟨_, hop⟩ := (h.inserts.rotating r hr).refresh
          rw [ho] at hop
          cases hop
        have hrev : t.id ∉ x.writes.revoked := fun hi => hunseen (h.sweeps.revoked _ hi).2
        have hdead := hl.tokens hinactive t (mem_tokens.mpr (.inl ⟨t, ht, after_same hrep hrev⟩))
        rw [hlive] at hdead
        cases hdead
      · by_contra hunseen
        have hcl : c.id ∉ x.writes.closed := fun hi => hunseen (h.codes.closed ho _ hi)
        have hdead := hl.codes hinactive (c.after x.writes) (mem_codes.mpr (.inl ⟨c, hc, rfl⟩))
        unfold OperatorCode.after at hdead
        simp [hopen, hcl] at hdead
  | _ => exact trivial

theorem Session.InPeriod.after (hy : y.InPeriod db) (h : x.Sound ttl db n) (hp : x.phase = .commit) : y.InPeriod (db.apply n x) where
  rotating := hy.rotating
  access := hy.access
  refreshing token ho hlock := by
    obtain ⟨⟨t, ht, hid⟩, hall⟩ := hy.refreshing token ho hlock
    refine ⟨?_, fun u hu huid hlive => ?_⟩
    · obtain ⟨u, hu, huid, -⟩ := token_mono ht
      exact ⟨u, hu, huid.trans hid⟩
    · rcases live_cases hu hlive with ⟨hum, -⟩ | hnew
      · exact hall u hum huid hlive
      · -- the new token has a number that no token had
        exact absurd (hid.trans (huid.symm.trans (h.new_cases hnew).1)) ((h.fresh (by rw [hp]; rfl)).1 t ht).1

/-! ## Runs -/

theorem accountSessions_keeps_cut (ttl : Int) : (accountSessions ttl).Keeps (fun n db => db.Sound n ∧ db.CleanCut) (fun db n x => x.Sound ttl db n ∧ x.InPeriod db)
    Session.Apart fun db _ x => x.phase = .commit → x.Cuts db where
  symm _ _ := Session.Apart.symm
  fresh _ _ h := ⟨h.1.next, h.2⟩
  start _ _ _ _ h hx := by
    obtain ⟨hs, ha⟩ := start_sound h.1 hx
    exact ⟨⟨hs, start_inPeriod h.2 hx⟩, ha⟩
  exec _ _ _ _ _ _ h hx hy := by
    obtain ⟨hs, ht⟩ := exec_sound hx.1 h.1 hy
    exact ⟨⟨hs, exec_inPeriod hx.2 hy⟩, fun _ hz ha => ht.apart hz ha⟩
  commit m db n x db' y hn h hx hok hc := by
    change x.commit db n = some (db', y) at hc
    unfold Session.commit at hc
    split at hc
    · rename_i hp
      cases hc
      obtain ⟨hdb, hl⟩ := h
      refine ⟨⟨hdb.apply hx.1 hn hp, hl.apply hx.1 hdb hx.2 (hok hp) hp⟩, fun z hz => ?_, fun k z hk hz ha => ⟨hz.1.after hx.1 hp hk ha, hz.2.after hx.1 hp⟩⟩
      obtain ⟨hzs, ⟨r, hr, hzr, hph⟩, hza⟩ := hx.1.answers hz
      have hrot := hx.1.inserts.rotating r hr
      have hin : x.writes.token.isSome := by
        rcases hrot.stage with hs | ⟨hs, -⟩ | ⟨-, hs, -⟩
        · rw [hp] at hs
          cases hs
        · rw [hp] at hs
          cases hs
        · exact hs
      refine ⟨⟨hzs, fun u hlock => ?_, fun _ _ hlock => ?_, fun active ha => ?_⟩, hza⟩
      · rw [hzr] at hlock
        cases hlock
      · rw [hph] at hlock
        cases hlock
      · rw [hph] at ha
        cases ha
        exact (hx.1.creating hl hx.2 (hok hp) (.inl hin)).2.1
    · rename_i active hp
      cases hc
      obtain ⟨hdb, hl⟩ := h
      refine ⟨⟨{ hdb with ids := hdb.ids }, { hl with access := fun a ha => ?_ }⟩, fun z hz => (by cases hz), fun k z _ hz _ => ⟨hz.1.congr rfl rfl ⟨rfl, rfl, rfl⟩, ?_⟩⟩
      · rcases List.mem_append.mp ha with ha | ha
        · exact hl.access a ha
        · split at ha
          · obtain rfl := List.mem_singleton.mp ha
            exact hx.2.access _ hp
          · cases ha
      · exact { hz.2 with refreshing := hz.2.refreshing }
    · cases hc
  elapse _ _ _ h := by
    obtain ⟨hdb, hl⟩ := h
    refine ⟨⟨{ hdb with ids := hdb.ids }, { hl with access := hl.access }⟩, fun _ x hx => ⟨hx.1.congr rfl rfl ⟨rfl, rfl, rfl⟩, ?_⟩⟩
    exact { hx.2 with refreshing := hx.2.refreshing }

/-- **Suspension and blocking are a clean cut** in exactly the runs whose commits meet the condition. -/
theorem suspension_cut (ttl : Int) (kind : UserKind) (clock confirmationExpiresAt : Int) (actions : List (Transactions.Action Operation Nat)) :
    (∀ k, ((accountSessions ttl).run (.created kind clock confirmationExpiresAt) (actions.take k)).db.CleanCut) ↔
      Along (accountSessions ttl).step ((accountSessions ttl).Meets fun db _ x => x.phase = .commit → x.Cuts db)
        (.new (.created kind clock confirmationExpiresAt)) actions := by
  refine (accountSessions_keeps_cut ttl).everywhere (fun _ _ h => h.2) ?_ (created_sound kind clock confirmationExpiresAt) actions
  intro m db n x db' y h hx hc hl hp
  change x.commit db n = some (db', y) at hc
  unfold Session.commit at hc
  rw [hp] at hc
  cases hc
  exact hx.1.cuts hp hl

theorem lateLogin_live : ¬ ((accountSessions 100).run (.created .member 0 0)
    [.start .login, .start (.setActive false true), .exec 1, .exec 1, .exec 1, .exec 1, .commit 1, .exec 0, .commit 0]).db.CleanCut := by
  intro h
  have hdead := h.tokens (by decide +kernel) ⟨0, 0, false, none, 100, none, 0⟩ (by decide +kernel)
  cases hdead

end

end NawaraCore.AccountSessions
