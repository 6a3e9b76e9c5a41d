import NawaraCore.Auth.AccountCommitSound

/-!
# Revocation of families

A suspension holds the user row, so no token is inserted beside its update. Every other
revocation misses the successor that a rotation in flight commits after its snapshot.
-/

namespace NawaraCore.AccountSessions

section
variable {ttl : Int} {db : Account} {n m : Nat} {x : Session} {t : RefreshToken}

theorem Session.Sound.sees (h : x.Sound ttl db n) (hok : x.Revokes db) (hp : x.phase = .commit) (ht : t ∈ db.tokens) (hlive : t.revoked = false)
    (hf : t.family ∈ x.cut) : t.id ∈ x.seen := by
  unfold Session.Revokes at hok
  split at hok
  · rename_i active eligible ho
    have hw : x.writes.active = some false := by
      by_contra hw
      rw [h.deactivates.uncut _ _ ho hw] at hf
      cases hf
    exact h.deactivates.seen _ _ ho (.inr hp) hw t ht hlive
  · exact hok t ht hlive hf

theorem Session.Sound.cut_apply (h : x.Sound ttl db n) (hl : ∀ t ∈ db.tokens, t.family ∈ db.cut → t.revoked) (hdb : db.Sound m) (hok : x.Revokes db)
    (hp : x.phase = .commit) : ∀ t ∈ (db.apply n x).tokens, t.family ∈ (db.apply n x).cut → t.revoked := by
  have hrows := h.sweeps.rows
  unfold Session.Rows at hrows
  rw [hp] at hrows
  have hfresh := (h.fresh (by rw [hp]; rfl)).1
  intro t ht hf
  by_contra hlive
  rw [Bool.not_eq_true] at hlive
  rcases live_cases ht hlive with ⟨htm, -, hrev⟩ | hnew
  · rcases List.mem_append.mp hf with hf | hf
    · rw [hl t htm hf] at hlive
      cases hlive
    · exact hrev (hrows t htm (h.sees hok hp htm hlive hf) hlive)
  · obtain ⟨-, -, -, ⟨-, hn⟩ | ⟨r, hr, hrf, -⟩⟩ := h.new_cases hnew
    · -- a family that begins with its session was never cut
      rw [hn] at hf
      rcases List.mem_append.mp hf with hf | hf
      · obtain ⟨u, hu, huf⟩ := hdb.cut n hf
        exact (hfresh u hu).2 huf
      · obtain ⟨u, hu, huf⟩ := h.sweeps.cut n hf
        exact (hfresh u hu).2 huf
    · have hrot := h.inserts.rotating r hr
      rw [hrf] at hf
      rcases List.mem_append.mp hf with hf | hf
      · have hdead := hl r hrot.live.1 hf
        rw [hrot.live.2] at hdead
        cases hdead
      · rw [hrot.alone.2.2] at hf
        cases hf

theorem Session.Sound.revokes (h : x.Sound ttl db n) (hl : ∀ t ∈ (db.apply n x).tokens, t.family ∈ (db.apply n x).cut → t.revoked) : x.Revokes db := by
  unfold Session.Revokes
  split
  · exact trivial
  · intro t ht hlive hf
    by_contra hunseen
    have hrep : x.writes.replaced ≠ some t.id := by
      intro he
      obtain ⟨r, hr, -⟩ := h.inserts.replaced _ he
      rw [(h.inserts.rotating r hr).alone.2.2] at hf
      cases hf
    have hrev : t.id ∉ x.writes.revoked := fun hi => hunseen (h.sweeps.revoked _ hi).2
    have hdead := hl t (mem_tokens.mpr (.inl ⟨t, ht, after_same hrep hrev⟩)) (List.mem_append_right _ hf)
    rw [hlive] at hdead
    cases hdead

theorem accountSessions_keeps_revoked (ttl : Int) :
    (accountSessions ttl).Keeps (fun n db => db.Sound n ∧ ∀ t ∈ db.tokens, t.family ∈ db.cut → t.revoked) (fun db n x => x.Sound ttl db n)
      Session.Apart fun db _ x => x.phase = .commit → x.Revokes db where
  symm _ _ := Session.Apart.symm
  fresh _ _ h := ⟨h.1.next, h.2⟩
  start _ _ _ _ h hx := start_sound h.1 hx
  exec _ _ _ _ _ _ h hx hy := by
    obtain ⟨hs, ht⟩ := exec_sound hx h.1 hy
    exact ⟨hs, fun _ hz ha => ht.apart hz ha⟩
  commit m db n x db' y hn h hx hok hc := by
    change x.commit db n = some (db', y) at hc
    obtain ⟨hdb, hl⟩ := h
    unfold Session.commit at hc
    split at hc
    · rename_i hp
      cases hc
      refine ⟨⟨hdb.apply hx hn hp, hx.cut_apply hl hdb (hok hp) hp⟩, fun z hz => ?_, fun k z hk hz ha => hz.after hx hp hk ha⟩
      obtain ⟨hzs, -, hza⟩ := hx.answers hz
      exact ⟨hzs, hza⟩
    · cases hc
      exact ⟨⟨{ hdb with ids := hdb.ids }, hl⟩, fun z hz => (by cases hz), fun k z _ hz _ => hz.congr rfl rfl ⟨rfl, rfl, rfl⟩⟩
    · cases hc
  elapse _ _ _ h := by
    obtain ⟨hdb, hl⟩ := h
    exact ⟨⟨{ hdb with ids := hdb.ids }, hl⟩, fun _ x hx => hx.congr rfl rfl ⟨rfl, rfl, rfl⟩⟩

/-- **Revocation is complete** in exactly the runs in which every revoking update has seen the live tokens of its families. -/
theorem revocation_complete (ttl : Int) (kind : UserKind) (clock confirmationExpiresAt : Int) (actions : List (Transactions.Action Operation Nat)) :
    (∀ k, ((accountSessions ttl).run (.created kind clock confirmationExpiresAt) (actions.take k)).db.Revoked) ↔
      Along (accountSessions ttl).step ((accountSessions ttl).Meets fun db _ x => x.phase = .commit → x.Revokes db)
        (.new (.created kind clock confirmationExpiresAt)) actions := by
  refine (accountSessions_keeps_revoked ttl).everywhere (fun n db h => ⟨h.2, h.1.one, h.1.ceiling, h.1.expiry⟩) ?_
    ⟨(created_sound kind clock confirmationExpiresAt).1, nofun⟩ actions
  intro m db n x db' y h hx hc hl hp
  change x.commit db n = some (db', y) at hc
  unfold Session.commit at hc
  rw [hp] at hc
  cases hc
  exact hx.revokes hl.cut

theorem lateSuccessor_live : ¬ ((accountSessions 100).run (.created .member 0 0)
    [.start .login, .exec 0, .commit 0, .start (.refresh 0), .exec 1, .exec 1, .exec 1, .start (.logout 0), .exec 2, .commit 1, .exec 2, .exec 2,
      .commit 2]).db.Revoked := by
  intro h
  have hdead := h.cut ⟨1, 0, false, none, 100, none, 0⟩ (by decide +kernel) (by decide +kernel)
  cases hdead

end

end NawaraCore.AccountSessions
