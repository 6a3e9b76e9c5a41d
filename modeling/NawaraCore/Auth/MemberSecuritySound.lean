import NawaraCore.Auth.MemberSecurity
import NawaraCore.Lib.Rows

/-!
# A suspension stays within its company

From its check to its commit a call holds the user row for update, so no membership joins; a
decision moves a membership only to a status that is no reason to refuse.
-/

namespace NawaraCore.MemberSecurity

variable {dir : Directory}

def Legal (s t : MembershipStatus) : Prop := (s = .pending ∧ (t = .active ∨ t = .rejected)) ∨ (s = .active ∧ t = .revoked)

/-! ## The stages of a call -/

def Closing (todo : List Stmt) : Prop := ∀ s ∈ todo, s = .revokeAllForUser ∨ ∃ e, s = .record e

inductive Stage (dir : Directory) (db : MemberDb) (c : Call) : Session → Prop
  | begun : Stage dir db c ⟨[.consume c, .lockTarget c, .eligibleMember c], { Work.empty with call := some c }⟩
  | consumed {t : Nat} (ht : c.token = some t) :
    Stage dir db c ⟨[.lockTarget c, .eligibleMember c], { Work.empty with call := some c, consumed := some t }⟩
  | locked {t : Nat} (ht : c.token = some t) :
    Stage dir db c ⟨[.eligibleMember c], { Work.empty with call := some c, consumed := some t, userLock := some .forUpdate }⟩
  | unchanged {t : Nat} (seen : List Nat) (ht : c.token = some t) :
    Stage dir db c ⟨[], { Work.empty with call := some c, consumed := some t, userLock := some .forUpdate, seen }⟩
  | changing {t : Nat} {todo : List Stmt} (active : Option Bool) (revokes : Bool) (evidence : List Evidence) (seen : List Nat) (ht : c.token = some t)
    (he : Eligible dir db c seen) (hu : ∃ u, db.user = some u ∧ u.isActive = c.suspend)
    (hactive : (∃ rest, todo = .setActive (! c.suspend) :: rest ∧ Closing rest ∧ active = none) ∨ (Closing todo ∧ active = some (! c.suspend))) :
    Stage dir db c ⟨todo, { Work.empty with call := some c, consumed := some t, userLock := some .forUpdate, active, revokes, evidence, seen }⟩

inductive Deciding (db : MemberDb) : Session → Prop
  | begun {id : Nat} {status next : MembershipStatus} (hl : Legal status next) :
    Deciding db ⟨[.lockMembership id status, .setStatus id status next], Work.empty⟩
  | locked {id : Nat} {status next : MembershipStatus} (hl : Legal status next) :
    Deciding db ⟨[.setStatus id status next], { Work.empty with membership := some id }⟩
  | decided {m : Membership} {next : MembershipStatus} (hm : m ∈ db.memberships) (hl : Legal m.status next) :
    Deciding db ⟨[], { Work.empty with membership := some m.id, status := some (m.id, next) }⟩

def Stmt.adds : Stmt → Bool
  | .issueStepUp _ | .createUser _ | .createMembership _ _ | .issueFamily => true
  | _ => false

structure Adding (db : MemberDb) (x : Session) : Prop where
  todo : ∀ s ∈ x.todo, s.adds
  plain : x.work.call = none ∧ x.work.consumed = none ∧ x.work.active = none ∧ x.work.revokes = false ∧ x.work.membership = none ∧ x.work.status = none
  userLock : x.work.userLock ≠ some .forUpdate
  created : x.work.created.isSome → db.user = none
  joined : x.work.joined.isSome → x.work.userLock = some .forKeyShare

structure Session.Sound (dir : Directory) (db : MemberDb) (n : Nat) (x : Session) : Prop where
  kind : (∃ c, Stage dir db c x) ∨ Deciding db x ∨ Adding db x
  fresh : ∀ m ∈ db.memberships, m.id ≠ n

structure MemberDb.Sound (n : Nat) (db : MemberDb) : Prop where
  ids : (db.memberships.map Membership.id).Nodup
  below : ∀ m ∈ db.memberships, m.id < n

structure Apart (x y : Session) : Prop where
  left : x.work.userLock = some .forUpdate → y.work.userLock = none
  right : y.work.userLock = some .forUpdate → x.work.userLock = none
  created : ¬ (x.work.created.isSome ∧ y.work.created.isSome)
  membership : ∀ id, ¬ (x.work.membership = some id ∧ y.work.membership = some id)

theorem Apart.symm {x y : Session} (h : Apart x y) : Apart y x :=
  ⟨h.right, h.left, fun hb => h.created hb.symm, fun id hb => h.membership id hb.symm⟩

/-! ## Statements -/

variable {status : MembershipStatus} {x : Session} {next : MembershipStatus} {id : Nat} {n : Nat}

section
variable {db : MemberDb} {others : (Session → Bool) → Bool} {todo : List Stmt} {w : Work} {c : Call} {y z x : Session}

theorem Apart.same (h : Apart x z) (hu : y.work.userLock = x.work.userLock) (hc : y.work.created = x.work.created) (hm : y.work.membership = x.work.membership) :
    Apart y z :=
  ⟨fun he => h.left (hu ▸ he), fun he => hu ▸ h.right he, hc ▸ h.created, hm ▸ h.membership⟩

theorem consume_next (h : consume db others todo w c = .next y) : ∃ t, c.token = some t ∧ y = ⟨todo, { w with consumed := some t }⟩ := by
  unfold consume at h
  split at h
  · cases h
  · rename_i t ht
    split at h
    · cases h
    · split at h
      · cases h
      · split at h
        · exact ⟨t, ht, (Reply.next.inj h).symm⟩
        · cases h

theorem lockTarget_next (h : lockTarget db others todo w = .next y) :
    others Session.locksUser = false ∧ y = ⟨todo, { w with userLock := some .forUpdate }⟩ := by
  unfold lockTarget at h
  split at h
  · cases h
  · rename_i ho
    split at h
    · cases h
    · split at h
      · exact ⟨Bool.eq_false_iff.mpr ho, (Reply.next.inj h).symm⟩
      · cases h

theorem eligible_of (h₁ : db.memberships.any (elsewhere dir c) = false) (h₂ : db.memberships.any (inCompany dir c) = true) :
    Eligible dir db c ((db.memberships.filter (inCompany dir c)).map Membership.id) where
  member := by
    obtain ⟨m, hm, hin⟩ := List.any_eq_true.mp h₂
    exact List.ne_nil_of_mem (List.mem_map_of_mem (List.mem_filter.mpr ⟨hm, hin⟩))
  seen id hid := by
    obtain ⟨m, hm, rfl⟩ := List.mem_map.mp hid
    obtain ⟨hm, hin⟩ := List.mem_filter.mp hm
    unfold inCompany at hin
    rw [decide_eq_true_eq] at hin
    exact ⟨m, hm, rfl, hin.2, .inl hin.1⟩
  apart m hm := Bool.eq_false_iff.mpr (List.any_eq_false.mp h₁ m hm)

theorem eligibleMember_next {t : Nat} (ht : c.token = some t)
    (h : eligibleMember dir db [] { Work.empty with call := some c, consumed := some t, userLock := some .forUpdate } c = .next y) :
    Stage dir db c y ∧ y.work.userLock = some .forUpdate ∧ y.work.created = none ∧ y.work.membership = none := by
  unfold eligibleMember at h
  split at h
  · cases h
  · rename_i u hu
    split at h
    · cases h
    · rename_i helse
      split at h
      · cases h
      · rename_i hin
        dsimp only at h
        split at h
        · obtain rfl := Reply.next.inj h
          exact ⟨.unchanged _ ht, rfl, rfl, rfl⟩
        · rename_i hactive
          obtain rfl := Reply.next.inj h
          have hcase : u.isActive = c.suspend := by cases hs : c.suspend <;> cases ha : u.isActive <;> simp_all
          have he := (@eligible_of dir) (Bool.eq_false_iff.mpr helse) (Decidable.not_not.mp hin)
          refine ⟨.changing none false [] _ ht he ⟨u, hu, hcase⟩ (.inl ⟨_, rfl, ?_, rfl⟩), rfl, rfl, rfl⟩
          intro s hs
          rcases mem_append_row hs with hs | hs
          · split at hs
            · exact .inl (List.mem_singleton.mp hs)
            · cases hs
          · exact .inr ⟨_, hs⟩

theorem Stage.exec (hx : Stage dir db c x) (h : x.exec dir db others = .next y) :
    Stage dir db c y ∧ (y.work.userLock = x.work.userLock ∨ others Session.locksUser = false) ∧ y.work.created = x.work.created ∧ y.work.membership = x.work.membership := by
  cases hx with
  | begun =>
    obtain ⟨t, ht, rfl⟩ := consume_next h
    exact ⟨.consumed ht, .inl rfl, rfl, rfl⟩
  | consumed ht =>
    obtain ⟨ho, rfl⟩ := lockTarget_next h
    exact ⟨.locked ht, .inr ho, rfl, rfl⟩
  | locked ht =>
    obtain ⟨hs, hl, hc, hm⟩ := eligibleMember_next ht h
    exact ⟨hs, .inl hl, hc, hm⟩
  | unchanged seen ht => cases h
  | changing active revokes evidence seen ht he hu hactive =>
    rcases hactive with ⟨rest, rfl, hrest, rfl⟩ | ⟨hclosing, rfl⟩
    · obtain rfl := Reply.next.inj h
      exact ⟨.changing _ revokes evidence seen ht he hu (.inr ⟨hrest, rfl⟩), .inl rfl, rfl, rfl⟩
    · rename_i todo
      cases todo with
      | nil => cases h
      | cons s todo =>
        have hrest : Closing todo := fun s' hs' => hclosing s' (List.mem_cons_of_mem _ hs')
        rcases hclosing s List.mem_cons_self with rfl | ⟨e, rfl⟩
        · obtain rfl := Reply.next.inj h
          exact ⟨.changing _ true evidence seen ht he hu (.inr ⟨hrest, rfl⟩), .inl rfl, rfl, rfl⟩
        · obtain rfl := Reply.next.inj h
          exact ⟨.changing _ revokes _ seen ht he hu (.inr ⟨hrest, rfl⟩), .inl rfl, rfl, rfl⟩

theorem lockMembership_next (h : lockMembership db others todo w id status = .next y) :
    others (Session.locksMembership id) = false ∧ y = ⟨todo, { w with membership := some id }⟩ := by
  unfold lockMembership at h
  split at h
  · cases h
  · rename_i ho
    split at h
    · cases h
    · split at h
      · exact ⟨Bool.eq_false_iff.mpr ho, (Reply.next.inj h).symm⟩
      · cases h

theorem setStatus_next (h : setStatus db todo w id status next = .next y) :
    ∃ m ∈ db.memberships, m.id = id ∧ m.status = status ∧ y = ⟨todo, { w with status := some (id, next) }⟩ := by
  unfold setStatus at h
  split at h
  · cases h
  · rename_i m hm
    have hid := List.find?_some hm
    simp only [decide_eq_true_eq] at hid
    split at h
    · rename_i hs
      exact ⟨m, List.mem_of_find?_eq_some hm, hid, hs, (Reply.next.inj h).symm⟩
    · cases h

theorem Deciding.exec (hx : Deciding db x) (h : x.exec dir db others = .next y) :
    Deciding db y ∧ y.work.userLock = none ∧ y.work.created = none ∧
      ∀ id, y.work.membership = some id → x.work.membership = some id ∨ others (Session.locksMembership id) = false := by
  cases hx with
  | begun hl =>
    obtain ⟨ho, rfl⟩ := lockMembership_next h
    exact ⟨.locked hl, rfl, rfl, fun id hid => .inr (Option.some.inj hid ▸ ho)⟩
  | locked hl =>
    obtain ⟨m, hm, rfl, rfl, rfl⟩ := setStatus_next h
    exact ⟨.decided hm hl, rfl, rfl, fun id hid => .inl hid⟩
  | decided hm hl => cases h

theorem createUser_next {kind : UserKind} (h : createUser db others todo w kind = .next y) :
    db.user = none ∧ others Session.creates = false ∧ y = ⟨todo, { w with created := some ⟨kind, true⟩ }⟩ := by
  unfold createUser at h
  split at h
  · cases h
  · rename_i hno
    obtain ⟨hu, ho⟩ := not_or.mp hno
    exact ⟨Option.not_isSome_iff_eq_none.mp hu, Bool.eq_false_iff.mpr ho, (Reply.next.inj h).symm⟩

theorem createMembership_next {organization : Nat} (h : createMembership db others todo w organization status = .next y) :
    others Session.locksForUpdate = false ∧ y = ⟨todo, { w with userLock := some .forKeyShare, joined := some (organization, status) }⟩ := by
  unfold createMembership at h
  split at h
  · cases h
  · rename_i hno
    split at h
    · cases h
    · split at h
      · exact ⟨Bool.eq_false_iff.mpr (not_or.mp hno).1, (Reply.next.inj h).symm⟩
      · cases h

theorem Adding.exec (hx : Adding db x) (h : x.exec dir db others = .next y) :
    Adding db y ∧ (y.work.userLock = x.work.userLock ∨ others Session.locksForUpdate = false) ∧
      (y.work.created = x.work.created ∨ others Session.creates = false) := by
  obtain ⟨todo, w⟩ := x
  cases todo with
  | nil => cases h
  | cons s todo =>
    have hrest : ∀ s ∈ todo, s.adds := fun s' hs' => hx.todo s' (List.mem_cons_of_mem _ hs')
    have hhead := hx.todo s List.mem_cons_self
    cases s with
    | issueStepUp t =>
      obtain rfl := Reply.next.inj h
      exact ⟨⟨hrest, hx.plain, hx.userLock, hx.created, hx.joined⟩, .inl rfl, .inl rfl⟩
    | issueFamily =>
      obtain rfl := Reply.next.inj h
      exact ⟨⟨hrest, hx.plain, hx.userLock, hx.created, hx.joined⟩, .inl rfl, .inl rfl⟩
    | createUser kind =>
      obtain ⟨hu, ho, rfl⟩ := createUser_next h
      exact ⟨⟨hrest, hx.plain, hx.userLock, fun _ => hu, hx.joined⟩, .inl rfl, .inr ho⟩
    | createMembership organization status =>
      obtain ⟨ho, rfl⟩ := createMembership_next h
      exact ⟨⟨hrest, hx.plain, fun he => (by cases he), hx.created, fun _ => rfl⟩, .inr ho, .inl rfl⟩
    | _ => cases hhead

theorem exec_sound (hx : x.Sound dir db n) (h : x.exec dir db others = .next y) :
    y.Sound dir db n ∧ ∀ z, (∀ p, others p = false → p z = false) → Apart x z → Apart y z := by
  rcases hx.kind with ⟨c, hs⟩ | hd | ha
  · obtain ⟨hy, hlock, hcreated, hmembership⟩ := hs.exec h
    refine ⟨⟨.inl ⟨c, hy⟩, hx.fresh⟩, fun z hz hapart => ?_⟩
    rcases hlock with hlock | ho
    · exact hapart.same hlock hcreated hmembership
    · have hfree : z.work.userLock = none := by
        have hno := hz _ ho
        unfold Session.locksUser at hno
        exact Option.not_isSome_iff_eq_none.mp (Bool.eq_false_iff.mp hno)
      refine ⟨fun _ => hfree, fun he => ?_, hcreated ▸ hapart.created, hmembership ▸ hapart.membership⟩
      rw [hfree] at he
      cases he
  · obtain ⟨hy, hlock, hcreated, hmembership⟩ := hd.exec h
    refine ⟨⟨.inr (.inl hy), hx.fresh⟩, fun z hz hapart => ⟨fun he => ?_, fun _ => hlock, fun hb => ?_, fun id hb => ?_⟩⟩
    · rw [hlock] at he
      cases he
    · rw [hcreated] at hb
      cases hb.1
    · rcases hmembership id hb.1 with hsame | ho
      · exact hapart.membership id ⟨hsame, hb.2⟩
      · have hno := hz _ ho
        unfold Session.locksMembership at hno
        exact of_decide_eq_false hno hb.2
  · obtain ⟨hy, hlock, hcreated⟩ := ha.exec h
    refine ⟨⟨.inr (.inr hy), hx.fresh⟩, fun z hz hapart => ⟨fun he => absurd he hy.userLock, fun he => ?_, fun hb => ?_, fun id hb => ?_⟩⟩
    · rcases hlock with hlock | ho
      · exact hlock ▸ hapart.right he
      · have hno := hz _ ho
        unfold Session.locksForUpdate at hno
        exact absurd he (of_decide_eq_false hno)
    · rcases hcreated with hcreated | ho
      · exact hapart.created ⟨hcreated ▸ hb.1, hb.2⟩
      · have hno := hz _ ho
        unfold Session.creates at hno
        rw [hb.2] at hno
        cases hno
    · rw [hy.plain.2.2.2.2.1] at hb
      cases hb.1

end

/-! ## Commits -/

variable {m : Membership}

section
variable {db : MemberDb} {w : Work} {n : Nat} {x : Session}

@[simp] theorem after_id (m : Membership) : (m.after w).id = m.id := by
  unfold Membership.after
  split
  · split <;> rfl
  · rfl

@[simp] theorem after_organization (m : Membership) : (m.after w).organization = m.organization := by
  unfold Membership.after
  split
  · split <;> rfl
  · rfl

section
variable (hx : x.Sound dir db n)
include hx

theorem writes_status (h : x.work.status = some (id, next)) :
    x.work.membership = some id ∧ ∃ m ∈ db.memberships, m.id = id ∧ Legal m.status next := by
  rcases hx.kind with ⟨c, hs⟩ | hd | ha
  · cases hs <;> cases h
  · cases hd with
    | decided hm hl =>
      obtain ⟨rfl, rfl⟩ := Prod.mk.inj (Option.some.inj h)
      exact ⟨rfl, _, hm, rfl, hl⟩
    | _ => cases h
  · rw [ha.plain.2.2.2.2.2] at h
    cases h

theorem writes_joined (h : x.work.joined.isSome) : x.work.userLock = some .forKeyShare := by
  rcases hx.kind with ⟨c, hs⟩ | hd | ha
  · cases hs <;> cases h
  · cases hd <;> cases h
  · exact ha.joined h

theorem writes_created (h : x.work.created.isSome) : db.user = none := by
  rcases hx.kind with ⟨c, hs⟩ | hd | ha
  · cases hs <;> cases h
  · cases hd <;> cases h
  · exact ha.created h

theorem writes_active (h : x.work.active.isSome) : x.work.userLock = some .forUpdate := by
  rcases hx.kind with ⟨c, hs⟩ | hd | ha
  · cases hs with
    | changing => rfl
    | _ => cases h
  · cases hd <;> cases h
  · rw [ha.plain.2.2.1] at h
    cases h

end

theorem after_other (h : ∀ next, w.status ≠ some (m.id, next)) : m.after w = m := by
  unfold Membership.after
  split
  · rename_i id next hs
    refine if_neg fun he => h next ?_
    rw [hs, he]
  · rfl

theorem after_status (hdb : (db.memberships.map Membership.id).Nodup) (hx : x.Sound dir db n) (hm : m ∈ db.memberships) :
    (m.after x.work).status = m.status ∨ Legal m.status (m.after x.work).status := by
  by_cases h : ∃ next, x.work.status = some (m.id, next)
  · obtain ⟨next, hs⟩ := h
    obtain ⟨-, m', hm', hid, hl⟩ := writes_status hx hs
    obtain rfl := eq_of_key hdb hm' hm hid
    unfold Membership.after
    rw [hs]
    exact .inr (by simpa using hl)
  · rw [after_other fun next he => h ⟨next, he⟩]
    exact .inl rfl

theorem mem_apply (h : m ∈ (db.apply w n).memberships) : (∃ m₀ ∈ db.memberships, m = m₀.after w) ∨ (w.joined.isSome ∧ m.id = n) := by
  rcases List.mem_append.mp h with h | h
  · obtain ⟨m₀, hm₀, rfl⟩ := List.mem_map.mp h
    exact .inl ⟨m₀, hm₀, rfl⟩
  · cases hj : w.joined with
    | none =>
      rw [hj] at h
      cases h
    | some j =>
      rw [hj] at h
      exact .inr ⟨rfl, congrArg Membership.id (List.mem_singleton.mp h)⟩

theorem apply_mem (h : m ∈ db.memberships) : m.after w ∈ (db.apply w n).memberships := List.mem_append_left _ (List.mem_map_of_mem h)

theorem apply_sound {fresh : Nat} (hn : n < fresh) (hdb : db.Sound fresh) (hx : x.Sound dir db n) : (db.apply x.work n).Sound fresh where
  ids := by
    have hmap : (db.memberships.map (Membership.after x.work)).map Membership.id = db.memberships.map Membership.id := by
      rw [List.map_map]
      exact List.map_congr_left fun m _ => after_id m
    show ((db.memberships.map (Membership.after x.work) ++ _).map Membership.id).Nodup
    cases x.work.joined with
    | none =>
      rw [Option.map_none, Option.toList_none, List.append_nil, hmap]
      exact hdb.ids
    | some j =>
      refine nodup_append_row (hmap ▸ hdb.ids) fun m hm => ?_
      obtain ⟨m₀, hm₀, rfl⟩ := List.mem_map.mp hm
      rw [after_id]
      exact hx.fresh m₀ hm₀
  below m hm := by
    rcases mem_apply hm with ⟨m₀, hm₀, rfl⟩ | ⟨-, rfl⟩
    · rw [after_id]
      exact hdb.below m₀ hm₀
    · exact hn

theorem Eligible.apply {c : Call} {seen : List Nat} (hdb : (db.memberships.map Membership.id).Nodup) (hx : x.Sound dir db n) (hjoined : x.work.joined = none)
    (h : Eligible dir db c seen) : Eligible dir (db.apply x.work n) c seen where
  member := h.member
  seen id hid := by
    obtain ⟨m, hm, hmid, hcompany, hstatus⟩ := h.seen id hid
    refine ⟨m.after x.work, apply_mem hm, (after_id m).trans hmid, by rw [after_organization, hcompany], ?_⟩
    rcases after_status hdb hx hm with hsame | hl
    · exact hsame ▸ hstatus
    · rcases hl with ⟨hp, -⟩ | ⟨-, hr⟩
      · rcases hstatus with hs | hs <;> rw [hs] at hp <;> cases hp
      · exact .inr hr
  apart m hm := by
    rcases mem_apply hm with ⟨m₀, hm₀, rfl⟩ | ⟨hj, -⟩
    · have hno := h.apart m₀ hm₀
      unfold elsewhere at hno ⊢
      rw [decide_eq_false_iff_not] at hno ⊢
      rintro ⟨hs, hcompany⟩
      rw [after_organization] at hcompany
      refine hno ⟨?_, hcompany⟩
      -- a move starts from a status that refuses already
      rcases after_status hdb hx hm₀ with hsame | hl
      · exact hsame ▸ hs
      · exact hl.elim (fun hp => .inr hp.1) fun ha => .inl ha.1
    · rw [hjoined] at hj
      cases hj

theorem user_apply (hactive : x.work.active = none) (hcreated : x.work.created = none) : (db.apply x.work n).user = db.user := by
  show (x.work.created <|> db.user.map (User.after x.work)) = db.user
  rw [hcreated]
  cases db.user with
  | none => rfl
  | some u =>
    show some (User.after x.work u) = some u
    unfold User.after
    rw [hactive]
    rfl

theorem none_of {α : Type} {o : Option α} (h : ¬ o.isSome) : o = none := Option.not_isSome_iff_eq_none.mp h

theorem Session.Sound.apply {z : Session} {k : Nat} (hdb : (db.memberships.map Membership.id).Nodup) (hx : x.Sound dir db n) (hz : z.Sound dir db k) (hk : k ≠ n)
    (hapart : Apart z x) : z.Sound dir (db.apply x.work n) k where
  fresh m hm := by
    rcases mem_apply hm with ⟨m₀, hm₀, rfl⟩ | ⟨-, rfl⟩
    · rw [after_id]
      exact hz.fresh m₀ hm₀
    · exact hk.symm
  kind := by
    rcases hz.kind with ⟨c, hs⟩ | hd | ha
    · refine .inl ⟨c, ?_⟩
      cases hs with
      | begun => exact .begun
      | consumed ht => exact .consumed ht
      | locked ht => exact .locked ht
      | unchanged seen ht => exact .unchanged seen ht
      | changing active revokes evidence seen ht he hu hactive =>
        have hfree : x.work.userLock = none := hapart.left rfl
        have hjoined : x.work.joined = none := none_of fun hj => by
          have := writes_joined hx hj
          rw [hfree] at this
          cases this
        have hstill : x.work.active = none := none_of fun ha => by
          have := writes_active hx ha
          rw [hfree] at this
          cases this
        have hcreated : x.work.created = none := none_of fun hc => by
          obtain ⟨u, hu, -⟩ := hu
          rw [writes_created hx hc] at hu
          cases hu
        exact .changing active revokes evidence seen ht (he.apply hdb hx hjoined) (by rw [user_apply hstill hcreated]; exact hu) hactive
    · refine .inr (.inl ?_)
      cases hd with
      | begun hl => exact .begun hl
      | locked hl => exact .locked hl
      | @decided m next hm hl =>
        have hsame : m.after x.work = m := after_other fun next' hs => hapart.membership m.id ⟨rfl, (writes_status hx hs).1⟩
        exact .decided (hsame ▸ apply_mem hm) hl
    · refine .inr (.inr ⟨ha.todo, ha.plain, ha.userLock, fun hc => ?_, ha.joined⟩)
      have hnone := ha.created hc
      have hcreated : x.work.created = none := none_of fun hxc => hapart.created ⟨hc, hxc⟩
      show (x.work.created <|> db.user.map (User.after x.work)) = none
      rw [hcreated, hnone]
      rfl

end

/-! ## Runs -/

theorem start_sound {db : MemberDb} {now : Int} {op : Operation} (hdb : db.Sound n) (h : start dir now n op = some x) :
    x.Sound dir db n ∧ x.work.userLock = none ∧ x.work.created = none ∧ x.work.membership = none := by
  have hfresh : ∀ m ∈ db.memberships, m.id ≠ n := fun m hm => Nat.ne_of_lt (hdb.below m hm)
  have hadding : ∀ todo : List Stmt, (∀ s ∈ todo, s.adds) → (Session.of todo).Sound dir db n := fun todo ht =>
    ⟨.inr (.inr ⟨ht, ⟨rfl, rfl, rfl, rfl, rfl, rfl⟩, fun he => (by cases he), fun he => (by cases he), fun he => (by cases he)⟩), hfresh⟩
  have hdeciding : ∀ (id : Nat) (status next : MembershipStatus), Legal status next →
      (Session.of [.lockMembership id status, .setStatus id status next]).Sound dir db n := fun id status next hl => ⟨.inr (.inl (.begun hl)), hfresh⟩
  cases op with
  | apply owner sid suspend token =>
    obtain ⟨company, -, rfl⟩ := Option.map_eq_some_iff.mp h
    exact ⟨⟨.inl ⟨_, .begun⟩, hfresh⟩, rfl, rfl, rfl⟩
  | approve id =>
    obtain rfl := Option.some.inj h
    exact ⟨hdeciding _ _ _ (.inl ⟨rfl, .inl rfl⟩), rfl, rfl, rfl⟩
  | reject id =>
    obtain rfl := Option.some.inj h
    exact ⟨hdeciding _ _ _ (.inl ⟨rfl, .inr rfl⟩), rfl, rfl, rfl⟩
  | revoke id =>
    obtain rfl := Option.some.inj h
    exact ⟨hdeciding _ _ _ (.inr ⟨rfl, rfl⟩), rfl, rfl, rfl⟩
  | issue owner sid purpose method ttl | register organization requiresApproval | accept organization | createOther kind | join organization requiresApproval =>
    obtain rfl := Option.some.inj h
    exact ⟨hadding _ (by simp [Stmt.adds]), rfl, rfl, rfl⟩

theorem commit_eq {db db' : MemberDb} {y : Option Session} (h : commit db n x = some (db', y)) :
    x.todo = [] ∧ db' = db.apply x.work n ∧ y = none := by
  unfold commit at h
  split at h
  · rename_i ht
    obtain ⟨rfl, rfl⟩ := Prod.mk.inj (Option.some.inj h)
    exact ⟨ht, rfl, rfl⟩
  · cases h

theorem members_keeps (dir : Directory) : (members dir).Keeps MemberDb.Sound (fun db n x => x.Sound dir db n) Apart fun _ _ _ => True where
  symm _ _ h := h.symm
  fresh n db h := ⟨h.ids, fun m hm => Nat.lt_succ_of_lt (h.below m hm)⟩
  start n db op x hdb hx := by
    obtain ⟨hs, hu, hc, hm⟩ := start_sound hdb hx
    refine ⟨hs, fun y => ⟨fun he => ?_, fun _ => hu, fun hb => ?_, fun id hb => ?_⟩⟩
    · rw [hu] at he
      cases he
    · rw [hc] at hb
      cases hb.1
    · rw [hm] at hb
      cases hb.1
  exec _ db others n x y _ hx hy := exec_sound hx hy
  commit fresh db n x db' y hn hdb hx _ hc := by
    obtain ⟨-, rfl, rfl⟩ := commit_eq hc
    exact ⟨apply_sound hn hdb hx, fun _ hz => (by cases hz), fun k z hk hz hapart => Session.Sound.apply hdb.ids hx hz hk hapart⟩
  elapse _ db d hdb := by
    refine ⟨⟨hdb.ids, hdb.below⟩, fun n x hx => ⟨?_, hx.fresh⟩⟩
    rcases hx.kind with ⟨c, hs⟩ | hd | ha
    · refine .inl ⟨c, ?_⟩
      cases hs with
      | begun => exact .begun
      | consumed ht => exact .consumed ht
      | locked ht => exact .locked ht
      | unchanged seen ht => exact .unchanged seen ht
      | changing active revokes evidence seen ht he hu hactive =>
        exact .changing active revokes evidence seen ht ⟨he.member, he.seen, he.apart⟩ hu hactive
    · refine .inr (.inl ?_)
      cases hd with
      | begun hl => exact .begun hl
      | locked hl => exact .locked hl
      | decided hm hl => exact .decided hm hl
    · exact .inr (.inr ⟨ha.todo, ha.plain, ha.userLock, ha.created, ha.joined⟩)

/-! ## The law -/

section
variable {db : MemberDb} {n : Nat} {x : Session}

theorem apply_changed (hx : x.Sound dir db n) (htodo : x.todo = []) (h : Changes db (db.apply x.work n)) :
    ∃ c, x.work.call = some c ∧ Eligible dir db c x.work.seen ∧ ∃ u, (db.apply x.work n).user = some u ∧ u.isActive = ! c.suspend := by
  obtain ⟨u, u', hu, hu', hne⟩ := h
  have hcreated : x.work.created = none := none_of fun hc => by
    rw [writes_created hx hc] at hu
    cases hu
  have hactive : x.work.active ≠ none := fun ha => by
    rw [user_apply ha hcreated, hu] at hu'
    exact hne (congrArg User.isActive (Option.some.inj hu').symm)
  rcases hx.kind with ⟨c, hs⟩ | hd | ha
  · cases hs with
    | changing active revokes evidence seen ht he _ hcase =>
      rcases hcase with ⟨rest, rfl, -⟩ | ⟨-, rfl⟩
      · cases htodo
      · refine ⟨c, rfl, he, { u with isActive := ! c.suspend }, ?_, rfl⟩
        show db.user.map (User.after _) = some _
        rw [hu]
        rfl
    | _ => exact absurd rfl hactive
  · cases hd <;> exact absurd rfl hactive
  · exact absurd ha.plain.2.2.1 hactive

theorem apply_unchanged {c : Call} (hx : x.Sound dir db n) (htodo : x.todo = []) (hcall : x.work.call = some c) (h : ¬ Changes db (db.apply x.work n)) :
    db.apply x.work n = { db with stepUps := db.stepUps.map (StepUp.after x.work) } := by
  rcases hx.kind with ⟨c', hs⟩ | hd | ha
  · cases hs with
    | @unchanged t seen ht =>
      unfold MemberDb.apply
      have huser : (none <|> db.user.map (User.after { Work.empty with call := some c', consumed := some t, userLock := some .forUpdate, seen })) = db.user := by
        cases db.user <;> rfl
      have hmember : db.memberships.map (Membership.after { Work.empty with call := some c', consumed := some t, userLock := some .forUpdate, seen }) = db.memberships :=
        List.map_id' _
      simp only [Work.empty] at huser hmember ⊢
      simp [huser, hmember]
    | changing active revokes evidence seen ht he hu hcase =>
      rcases hcase with ⟨rest, rfl, -⟩ | ⟨-, rfl⟩
      · cases htodo
      · obtain ⟨u, hu, hsame⟩ := hu
        refine absurd ⟨u, { u with isActive := ! c'.suspend }, hu, ?_, ?_⟩ h
        · show db.user.map (User.after _) = some _
          rw [hu]
          rfl
        · show (! c'.suspend) ≠ u.isActive
          rw [hsame]
          cases c'.suspend <;> decide
    | _ => cases htodo
  · cases hd <;> cases hcall
  · rw [ha.plain.1] at hcall
    cases hcall

theorem apply_spent (hx : x.Sound dir db n) {t : StepUp} (ht : t ∈ db.stepUps) (hno : t ∉ (db.apply x.work n).stepUps) :
    ∃ c, x.work.call = some c ∧ c.token = some t.id := by
  have hconsumed : x.work.consumed = some t.id := by
    by_contra hne
    refine hno (List.mem_append_left _ (List.mem_map.mpr ⟨t, ht, ?_⟩))
    exact if_neg hne
  rcases hx.kind with ⟨c, hs⟩ | hd | ha
  · refine ⟨c, ?_⟩
    cases hs with
    | begun => cases hconsumed
    | consumed ht => exact ⟨rfl, ht.trans hconsumed⟩
    | locked ht => exact ⟨rfl, ht.trans hconsumed⟩
    | unchanged seen ht => exact ⟨rfl, ht.trans hconsumed⟩
    | changing active revokes evidence seen ht he hu hcase => exact ⟨rfl, ht.trans hconsumed⟩
  · cases hd <;> cases hconsumed
  · rw [ha.plain.2.1] at hconsumed
    cases hconsumed

end

theorem step_law {s : Transactions.State MemberDb Session} (hs : Transactions.Inv MemberDb.Sound (fun db n x => x.Sound dir db n) Apart s)
    (a : Transactions.Action Operation Nat) : ChangeLaw dir s a ((members dir).step s a).db := by
  have hstay : ∀ db', db'.user = s.db.user → db'.stepUps = s.db.stepUps → (∀ x c, ¬ Answers s a x c) → ChangeLaw dir s a db' := by
    intro db' hu ht hno
    refine ⟨fun ⟨u, u', h, h', hne⟩ => ?_, fun x c hans => absurd hans (hno x c), fun t hmem hout => absurd (ht ▸ hmem) hout⟩
    rw [hu, h] at h'
    exact absurd (congrArg User.isActive (Option.some.inj h').symm) hne
  cases a with
  | commit n =>
    cases hx : s.session n with
    | none =>
      rw [Transactions.step_closed hx]
      refine hstay _ rfl rfl fun x c ⟨m, hm, hx', _⟩ => ?_
      cases hm
      rw [hx] at hx'
      cases hx'
    | some x =>
      by_cases htodo : x.todo = []
      · have hsound := hs.sessions.each n x hx
        have hc : (members dir).commit s.db n x = some (s.db.apply x.work n, none) := if_pos htodo
        rw [Transactions.step_commit hx hc]
        have hcall : ∀ c, x.work.call = some c → Answers s (.commit n) x c := fun c hc => ⟨n, rfl, hx, htodo, hc⟩
        refine ⟨fun hch => ?_, fun x' c ⟨m, hm, hx', _, hc'⟩ hch => ?_, fun t ht hout => ?_⟩
        · obtain ⟨c, hc', he, hu⟩ := apply_changed hsound htodo hch
          exact ⟨x, c, hcall c hc', he, hu⟩
        · cases hm
          obtain rfl := Option.some.inj (hx.symm.trans hx')
          exact apply_unchanged hsound htodo hc' hch
        · obtain ⟨c, hc', htoken⟩ := apply_spent hsound ht hout
          exact ⟨x, c, hcall c hc', htoken⟩
      · have hc : (members dir).commit s.db n x = none := if_neg htodo
        rw [Transactions.step_unready hx hc]
        refine hstay _ rfl rfl fun x' c ⟨m, hm, hx', htodo', _⟩ => ?_
        cases hm
        obtain rfl := Option.some.inj (hx.symm.trans hx')
        exact htodo htodo'
  | start op => exact hstay _ rfl rfl fun x c ⟨m, hm, _⟩ => by cases hm
  | abort n => exact hstay _ rfl rfl fun x c ⟨m, hm, _⟩ => by cases hm
  | elapse d => exact hstay _ rfl rfl fun x c ⟨m, hm, _⟩ => by cases hm
  | exec n =>
    rw [Transactions.step_exec_db]
    exact hstay _ rfl rfl fun x c ⟨m, hm, _⟩ => by cases hm

/-- **A suspension stays within its company.** Along every run. -/
theorem suspension_law (dir : Directory) (actions : List (Transactions.Action Operation Nat)) :
    Along (members dir).step (fun s a => ChangeLaw dir s a ((members dir).step s a).db) (.new .new) actions := by
  have hkeeps := members_keeps dir
  have hnew : MemberDb.new.Sound 0 := ⟨List.nodup_nil, nofun⟩
  exact Along.imp (fun s a hs ha => hs.step hkeeps a ha) (fun s a hs _ => step_law hs a) actions (Transactions.Inv.new hnew) (Transactions.meets_true _ _)

def oneCompany : Directory := ⟨fun _ => 0, fun _ => some 0⟩

/-- The only membership is revoked between the check of a suspension and its commit: the commit suspends the account of a member who
has no membership in the company. -/
theorem revoked_meanwhile :
    let actions : List (Transactions.Action Operation Nat) := [.start (.register 0 false), .exec 0, .exec 0, .exec 0, .commit 0,
      .start (.issue 7 1 .suspend .totp 300000), .exec 1, .commit 1, .start (.apply 7 1 true (some 1)), .exec 2, .exec 2, .exec 2,
      .start (.revoke 0), .exec 3, .exec 3, .commit 3, .exec 2, .exec 2, .exec 2]
    let s := (members oneCompany).run .new actions
    (∀ m ∈ s.db.memberships, m.status ≠ .active) ∧ s.db.user = some ⟨.member, true⟩ ∧
      ((members oneCompany).step s (.commit 2)).db.user = some ⟨.member, false⟩ := by
  decide +kernel

end NawaraCore.MemberSecurity
