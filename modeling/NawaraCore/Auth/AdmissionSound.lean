import NawaraCore.Auth.Admission

/-!
# What a use of a code is spent on

Every use that a join code counts has its membership, and a consumed invitation has one, of the
account that its acceptance created. A call that is refused, or whose transaction ends before its
commit, leaves the rows as they were.
-/

namespace NawaraCore.Admission

/-! ## What a session has written -/

def CodeWrite (op : Operation) (now : Int) (c c' : JoinCode) : Prop :=
  match op with
  | .register _ _ code | .join _ code => code = some c.codeHash ∧ c.usable now = true ∧ c' = c.spend
  | .revokeCode organizationId id => c.id = id ∧ c.organizationId = organizationId ∧ c.revokedAt = none ∧ c' = c.revoke now
  | _ => False

def InvitationWrite (contactHash : Contact → String) (op : Operation) (n : Nat) (now : Int) (i i' : Invitation) : Prop :=
  match op with
  | .accept contact code => code = some i.codeHash ∧ i.usable now (contactHash contact) = true ∧ i' = i.consume now n
  | .revokeInvitation organizationId id =>
    i.id = id ∧ i.organizationId = organizationId ∧ i.consumedAt = none ∧ i.revokedAt = none ∧ i' = i.revoke now
  | _ => False

def Operation.user (op : Operation) (n : Nat) : Option User :=
  match op with
  | .register email phone _ | .enroll email phone => some ⟨n, email, phone⟩
  | .accept contact _ => some (contact.user n)
  | _ => none

def MembershipWrite (n : Nat) (x : Session) (m : Membership) : Prop :=
  match x.op with
  | .register _ _ _ => ∃ c t, x.code = some c ∧ m = membershipOf n c t
  | .join userId _ => ∃ c t, x.code = some c ∧ m = membershipOf userId c t
  | .accept _ _ => ∃ i t, x.invitation = some i ∧ m = adminMembership n i t
  | _ => False

def Operation.outputs (op : Operation) (m : Option Membership) : Option Uuid × List DomainEvent :=
  match op, m with
  | .register _ _ _, some m => (some m.userId, .userRegistered m.userId m.audience m.organizationId :: requested m)
  | .join _ _, some m => (none, requested m)
  | .accept _ _, some m => (some m.userId, [.userRegistered m.userId m.audience m.organizationId,
      .membershipAdminProvisioned m.userId m.organizationId m.audience])
  | _, _ => (none, [])

/-- Which of the code, the invitation, the account and the membership are written at a stage. -/
structure Written where
  code : Bool
  invitation : Bool
  user : Bool
  membership : Bool

def Session.written (x : Session) : Written := ⟨x.code.isSome, x.invitation.isSome, x.user.isSome, x.membership.isSome⟩

def Operation.written : Operation → Stage → Option Written
  | .register _ _ _, .lookup | .register _ _ _, .clock | .register _ _ _, .spend => some ⟨false, false, false, false⟩
  | .register _ _ _, .create => some ⟨true, false, false, false⟩
  | .register _ _ _, .admission => some ⟨true, false, true, false⟩
  | .register _ _ _, .issue | .register _ _ _, .ready => some ⟨true, false, true, true⟩
  | .join _ _, .lookup | .join _ _, .clock | .join _ _, .spend => some ⟨false, false, false, false⟩
  | .join _ _, .admission => some ⟨true, false, false, false⟩
  | .join _ _, .issue | .join _ _, .ready => some ⟨true, false, false, true⟩
  | .accept _ _, .lookup | .accept _ _, .create => some ⟨false, false, false, false⟩
  | .accept _ _, .clock | .accept _ _, .spend => some ⟨false, false, true, false⟩
  | .accept _ _, .admission => some ⟨false, true, true, false⟩
  | .accept _ _, .issue | .accept _ _, .ready => some ⟨false, true, true, true⟩
  | .revokeCode _ _, .clock | .revokeCode _ _, .spend => some ⟨false, false, false, false⟩
  | .revokeCode _ _, .ready => some ⟨true, false, false, false⟩
  | .revokeInvitation _ _, .clock | .revokeInvitation _ _, .spend => some ⟨false, false, false, false⟩
  | .revokeInvitation _ _, .ready => some ⟨false, true, false, false⟩
  | .enroll _ _, .create => some ⟨false, false, false, false⟩
  | .enroll _ _, .ready => some ⟨false, false, true, false⟩
  | _, _ => none

def Invitation.offer (i : Invitation) : Uuid × Uuid × String × String × Option String × Uuid :=
  (i.id, i.organizationId, i.codeHash, i.invitationType, i.inviteeContactHash, i.createdBy)

structure Session.Sound (contactHash : Contact → String) (db : Db) (n : Nat) (x : Session) : Prop where
  now : x.now ≤ db.clock
  fresh : ∀ u ∈ db.users, u.id ≠ n
  written : x.op.written x.stage = some x.written
  code : ∀ c', x.code = some c' → ∃ c ∈ db.codes, CodeWrite x.op x.now c c'
  invitation : ∀ i', x.invitation = some i' → ∃ i ∈ db.invitations, InvitationWrite contactHash x.op n x.now i i'
  found : ∀ f, x.found = some f → (∃ i ∈ db.invitations, i.offer = f.offer) ∧ ∃ contact, x.op = .accept contact (some f.codeHash)
  user : ∀ u, x.user = some u → x.op.user n = some u
  membership : ∀ m, x.membership = some m → MembershipWrite n x m
  outputs : (x.session, x.events) = if x.stage = .ready then x.op.outputs x.membership else (none, [])

structure Apart (x y : Session) : Prop where
  codes : ∀ c c', x.code = some c → y.code = some c' → c.id ≠ c'.id
  invitations : ∀ i i', x.invitation = some i → y.invitation = some i' → i.id ≠ i'.id

variable {stage : Stage} {c : JoinCode} {i : Invitation}
variable {code : Option String} {k : Membership}

section
variable {contactHash : Contact → String} {db db' : Db} {n m : Nat} {x y z : Session} {others : (Session → Bool) → Bool}
  {op : Operation} {now : Int}

theorem codeOf_some (h : db.codeOf code = some c) : c ∈ db.codes ∧ code = some c.codeHash := by
  unfold Db.codeOf at h
  obtain ⟨s, hs, h⟩ := Option.bind_eq_some_iff.mp h
  have hk : c.codeHash = s := by simpa using List.find?_some h
  exact ⟨List.mem_of_find?_eq_some h, hs.trans (congrArg some hk.symm)⟩

theorem invitationOf_some (h : db.invitationOf code = some i) :
    i ∈ db.invitations ∧ code = some i.codeHash := by
  unfold Db.invitationOf at h
  obtain ⟨s, hs, h⟩ := Option.bind_eq_some_iff.mp h
  have hk : i.codeHash = s := by simpa using List.find?_some h
  exact ⟨List.mem_of_find?_eq_some h, hs.trans (congrArg some hk.symm)⟩

variable {c' : JoinCode}

theorem CodeWrite.id (h : CodeWrite op now c c') : c'.id = c.id := by
  unfold CodeWrite at h
  split at h
  · rw [h.2.2]; rfl
  · rw [h.2.2]; rfl
  · rw [h.2.2.2]; rfl
  · exact h.elim

variable {i' : Invitation}

theorem InvitationWrite.offer (h : InvitationWrite contactHash op n now i i') : i'.offer = i.offer := by
  unfold InvitationWrite at h
  split at h
  · rw [h.2.2]; rfl
  · rw [h.2.2.2.2]; rfl
  · exact h.elim

/-! ## Statements -/

theorem Session.Sound.moves (h : x.Sound contactHash db n) (hs : x.op.written stage = x.op.written x.stage)
    (hready : x.stage ≠ .ready) (hready' : stage ≠ .ready) : Session.Sound contactHash db n { x with stage } where
  now := h.now
  fresh := h.fresh
  written := hs.trans h.written
  code := h.code
  invitation := h.invitation
  found := h.found
  user := h.user
  membership m hm := h.membership m hm
  outputs := by
    have ho := h.outputs
    rw [if_neg hready] at ho
    rw [if_neg hready']
    exact ho

/-- The rows that a session holds after a statement are those that it held, or nobody else holds them. -/
structure Locks (others : (Session → Bool) → Bool) (x y : Session) : Prop where
  codes : ∀ c, y.code = some c → x.code = some c ∨ others (Session.holdsCode c.id) = false
  invitations : ∀ i, y.invitation = some i → x.invitation = some i ∨ others (Session.holdsInvitation i.id) = false

theorem Locks.same (hc : y.code = x.code) (hi : y.invitation = x.invitation) : Locks others x y :=
  ⟨fun _ h => .inl (hc ▸ h), fun _ h => .inl (hi ▸ h)⟩

theorem Locks.apart (h : Locks others x y) (hz : ∀ p, others p = false → p z = false) (hx : Apart x z) : Apart y z where
  codes c c' hc hc' := by
    rcases h.codes c hc with hc | hno
    · exact hx.codes c c' hc hc'
    · have hne := hz _ hno
      simp only [Session.holdsCode, hc', Option.any_some, decide_eq_false_iff_not] at hne
      exact Ne.symm hne
  invitations i i' hi hi' := by
    rcases h.invitations i hi with hi | hno
    · exact hx.invitations i i' hi hi'
    · have hne := hz _ hno
      simp only [Session.holdsInvitation, hi', Option.any_some, decide_eq_false_iff_not] at hne
      exact Ne.symm hne

section
variable (h : x.Sound contactHash db n)
include h

theorem Session.Sound.unwritten {user : Bool} (hw : x.op.written x.stage = some ⟨false, false, user, false⟩) :
    x.code = none ∧ x.invitation = none ∧ x.user.isSome = user ∧ x.membership = none := by
  have he := h.written.symm.trans hw
  simp only [Session.written, Option.some.injEq, Written.mk.injEq, Option.isSome_eq_false_iff, Option.isNone_iff_eq_none] at he
  exact he

theorem Session.Sound.silent (hs : x.stage ≠ .ready) : (x.session, x.events) = (none, []) :=
  h.outputs.trans (if_neg hs)

theorem Session.Sound.lookup (hs : x.stage = .lookup) (hy : x.lookup contactHash db = .next y) :
    y.Sound contactHash db n ∧ Locks others x y := by
  obtain ⟨op, stage, now, found, code, invitation, user, membership, session, events⟩ := x
  dsimp only at hs
  subst hs
  cases op with
  | register email phone c =>
    simp only [Session.lookup] at hy
    split at hy
    · cases hy
    · split at hy
      · cases hy
        exact ⟨h.moves rfl (by simp) (by simp), .same rfl rfl⟩
      · cases hy
  | join userId c =>
    simp only [Session.lookup] at hy
    split at hy
    · cases hy
    · split at hy
      · cases hy
        exact ⟨h.moves rfl (by simp) (by simp), .same rfl rfl⟩
      · cases hy
  | accept contact c =>
    simp only [Session.lookup] at hy
    split at hy
    · cases hy
    next i hi =>
    split at hy
    · cases hy
      obtain ⟨hm, rfl⟩ := invitationOf_some hi
      have hmoves : Session.Sound contactHash db n ⟨_, .create, _, _, _, _, _, _, _, _⟩ := h.moves rfl (by simp) (by simp)
      refine ⟨{ hmoves with found := fun f hf => ?_ }, .same rfl rfl⟩
      obtain rfl := Option.some.inj hf
      exact ⟨⟨i, hm, rfl⟩, contact, rfl⟩
    · cases hy
  | revokeCode organizationId id => cases hy
  | revokeInvitation organizationId id => cases hy
  | enroll email phone => cases hy

theorem Session.Sound.clock (hs : x.stage = .clock) :
    Session.Sound contactHash db n { x with
      now := db.clock
      stage := .spend } := by
  obtain ⟨op, stage, now, found, code, invitation, user, membership, session, events⟩ := x
  dsimp only at hs
  subst hs
  have hw : ∃ user, op.written .clock = some ⟨false, false, user, false⟩ ∧ op.written .spend = op.written .clock := by
    have he := h.written
    cases op with
    | enroll email phone => cases he
    | _ => exact ⟨_, rfl, rfl⟩
  obtain ⟨u, hw, hsame⟩ := hw
  obtain ⟨hc, hi, -⟩ := h.unwritten hw
  have hmoves : Session.Sound contactHash db n ⟨op, .spend, now, found, code, invitation, user, membership, session, events⟩ :=
    h.moves hsame (by simp) (by simp)
  exact { hmoves with
    now := Int.le_refl db.clock
    code := fun c' hc' => absurd (hc.symm.trans hc') (by simp)
    invitation := fun i' hi' => absurd (hi.symm.trans hi') (by simp) }

section
variable (hs : x.stage = .spend)
include hs

theorem Session.Sound.locksCode
    (hw : x.op.written .spend = some ⟨false, false, false, false⟩)
    (hw' : x.op.written stage = some ⟨true, false, false, false⟩) (ho : stage = .ready → x.op.outputs none = (none, []))
    (hc : c ∈ db.codes) (hwrite : CodeWrite x.op x.now c c') (hno : others (Session.holdsCode c.id) = false) :
    Session.Sound contactHash db n { x with
      code := some c'
      stage } ∧ Locks others x { x with
      code := some c'
      stage } := by
  obtain ⟨-, hinv, huser, hmem⟩ := h.unwritten (hs ▸ hw)
  refine ⟨{ h with
    written := ?_
    code := fun d hd => ⟨c, hc, Option.some.inj hd ▸ hwrite⟩
    membership := fun m hm => absurd (hmem.symm.trans hm) (by simp)
    outputs := ?_ }, fun d hd => .inr ?_, fun i hi => .inl hi⟩
  · rw [hw']
    simp [Session.written, hinv, huser, hmem]
  · have hsilent := h.silent (by simp [hs])
    rw [hmem]
    split
    next hr => exact hsilent.trans (ho hr).symm
    next => exact hsilent
  · obtain rfl := Option.some.inj hd
    rw [hwrite.id]
    exact hno

theorem Session.Sound.locksInvitation {user : Bool}
    (hw : x.op.written .spend = some ⟨false, false, user, false⟩)
    (hw' : x.op.written stage = some ⟨false, true, user, false⟩) (ho : stage = .ready → x.op.outputs none = (none, []))
    (hi : i ∈ db.invitations) (hwrite : InvitationWrite contactHash x.op n x.now i i')
    (hno : others (Session.holdsInvitation i.id) = false) :
    Session.Sound contactHash db n { x with
      invitation := some i'
      stage } ∧ Locks others x { x with
      invitation := some i'
      stage } := by
  obtain ⟨hcode, -, huser, hmem⟩ := h.unwritten (hs ▸ hw)
  refine ⟨{ h with
    written := ?_
    invitation := fun d hd => ⟨i, hi, Option.some.inj hd ▸ hwrite⟩
    membership := fun m hm => absurd (hmem.symm.trans hm) (by simp)
    outputs := ?_ }, fun c hc => .inl hc, fun d hd => .inr ?_⟩
  · rw [hw']
    simp [Session.written, hcode, huser, hmem]
  · have hsilent := h.silent (by simp [hs])
    rw [hmem]
    split
    next hr => exact hsilent.trans (ho hr).symm
    next => exact hsilent
  · obtain rfl := Option.some.inj hd
    have hid : i'.id = i.id := congrArg Prod.fst hwrite.offer
    rw [hid]
    exact hno

theorem Session.Sound.spendCode
    (hw : x.op.written .spend = some ⟨false, false, false, false⟩)
    (hw' : x.op.written stage = some ⟨true, false, false, false⟩) (hr : stage ≠ .ready)
    (hc : db.codeOf code = some c) (hwrite : code = some c.codeHash → c.usable x.now = true → CodeWrite x.op x.now c c.spend)
    (hy : x.spendCode others c stage = .next y) : y.Sound contactHash db n ∧ Locks others x y := by
  obtain ⟨hm, hcode⟩ := codeOf_some hc
  unfold Session.spendCode at hy
  split at hy
  · cases hy
  next hu =>
  split at hy
  · cases hy
  next hno =>
  cases hy
  have hu : c.usable x.now = true := by simpa using hu
  exact h.locksCode hs hw hw' (fun he => absurd he hr) hm (hwrite hcode hu) (Bool.eq_false_iff.mpr hno)

theorem Session.Sound.spend (hy : x.spend contactHash db others n = .next y) :
    y.Sound contactHash db n ∧ Locks others x y := by
  unfold Session.spend at hy
  split at hy
  next email phone code hop =>
    split at hy
    · cases hy
    next c hc =>
    refine h.spendCode hs (by rw [hop]; rfl) (by rw [hop]; rfl) (by simp) hc (fun hcode hu => ?_) hy
    rw [hop]
    exact ⟨hcode, hu, rfl⟩
  next userId code hop =>
    split at hy
    · cases hy
    next c hc =>
    refine h.spendCode hs (by rw [hop]; rfl) (by rw [hop]; rfl) (by simp) hc (fun hcode hu => ?_) hy
    rw [hop]
    exact ⟨hcode, hu, rfl⟩
  next contact code hop =>
    split at hy
    · cases hy
    next i hi =>
    obtain ⟨hm, hcode⟩ := invitationOf_some hi
    split at hy
    · cases hy
    next hu =>
    split at hy
    · cases hy
    next hno =>
    cases hy
    refine h.locksInvitation hs (by rw [hop]; rfl) (by rw [hop]; rfl) (fun hr => by cases hr) hm ?_ (Bool.eq_false_iff.mpr hno)
    rw [hop]
    exact ⟨hcode, Bool.not_eq_false _ ▸ hu, rfl⟩
  next organizationId id hop =>
    split at hy
    · cases hy
    next c hc =>
    obtain ⟨hid, horg⟩ : c.id = id ∧ c.organizationId = organizationId := by simpa using List.find?_some hc
    split at hy
    · cases hy
    next hr =>
    split at hy
    · cases hy
    next hno =>
    cases hy
    refine h.locksCode hs (by rw [hop]; rfl) (by rw [hop]; rfl) (fun _ => by rw [hop]; rfl) (List.mem_of_find?_eq_some hc) ?_
      (Bool.eq_false_iff.mpr hno)
    rw [hop]
    exact ⟨hid, horg, not_not.mp hr, rfl⟩
  next organizationId id hop =>
    split at hy
    · cases hy
    next i hi =>
    obtain ⟨hid, horg⟩ : i.id = id ∧ i.organizationId = organizationId := by simpa using List.find?_some hi
    split at hy
    · cases hy
    next hr =>
    split at hy
    · cases hy
    next hno =>
    cases hy
    obtain ⟨hc, hr⟩ := not_or.mp hr
    refine h.locksInvitation hs (by rw [hop]; rfl) (by rw [hop]; rfl) (fun _ => by rw [hop]; rfl) (List.mem_of_find?_eq_some hi) ?_
      (Bool.eq_false_iff.mpr hno)
    rw [hop]
    exact ⟨hid, horg, not_not.mp hc, not_not.mp hr, rfl⟩
  next => cases hy

end

theorem Session.Sound.insertUser (hs : x.stage = .create)
    {coded : Bool}
    (hw : x.op.written .create = some ⟨coded, false, false, false⟩) (hw' : x.op.written stage = some ⟨coded, false, true, false⟩)
    (ho : stage = .ready → x.op.outputs none = (none, [])) {u : User} (hu : x.op.user n = some u)
    (hy : x.insertUser db others u stage = .next y) : y.Sound contactHash db n ∧ Locks others x y := by
  have he := h.written.symm.trans (hs ▸ hw)
  simp only [Session.written, Option.some.injEq, Written.mk.injEq, Option.isSome_eq_false_iff, Option.isNone_iff_eq_none] at he
  obtain ⟨hcode, hinv, -, hmem⟩ := he
  unfold Session.insertUser at hy
  split at hy
  · cases hy
  split at hy
  · cases hy
  cases hy
  refine ⟨{ h with
    written := ?_
    user := fun v hv => Option.some.inj hv ▸ hu
    membership := fun m hm => absurd (hmem.symm.trans hm) (by simp)
    outputs := ?_ }, .same rfl rfl⟩
  · rw [hw']
    simp [Session.written, hcode, hinv, hmem]
  · have hsilent := h.silent (by simp [hs])
    rw [hmem]
    split
    next hr => exact hsilent.trans (ho hr).symm
    next => exact hsilent

theorem Session.Sound.create (hs : x.stage = .create) (hy : x.create db others n = .next y) :
    y.Sound contactHash db n ∧ Locks others x y := by
  unfold Session.create at hy
  split at hy
  next hop => exact h.insertUser hs (by rw [hop]; rfl) (by rw [hop]; rfl) (fun hr => by cases hr) (by rw [hop]; rfl) hy
  next hop => exact h.insertUser hs (by rw [hop]; rfl) (by rw [hop]; rfl) (fun hr => by cases hr) (by rw [hop]; rfl) hy
  next hop => exact h.insertUser hs (by rw [hop]; rfl) (by rw [hop]; rfl) (fun _ => by rw [hop]; rfl) (by rw [hop]; rfl) hy
  next => cases hy

end

theorem adminMembership_offer {j : Invitation} (h : i.offer = j.offer) (userId : Uuid) : adminMembership userId i now = adminMembership userId j now := by
  simp only [Invitation.offer, Prod.mk.injEq] at h
  obtain ⟨hid, horg, -, htype, -, hby⟩ := h
  simp only [adminMembership, hid, horg, htype, hby]

section
variable (h : x.Sound contactHash db n)
include h

theorem Session.Sound.insertMembership (hs : x.stage = .admission) (hk : MembershipWrite n x k)
    (hw : ∀ w, x.op.written .admission = some w → x.op.written .issue = some { w with membership := true })
    (hy : x.insertMembership db others k = .next y) : y.Sound contactHash db n ∧ Locks others x y := by
  unfold Session.insertMembership at hy
  split at hy
  · cases hy
  split at hy
  · cases hy
  split at hy
  · cases hy
  cases hy
  refine ⟨{ h with
    written := hw _ (hs ▸ h.written)
    membership := fun m hm => Option.some.inj hm ▸ hk
    outputs := ?_ }, .same rfl rfl⟩
  have hsilent := h.silent (by simp [hs])
  exact hsilent.trans (if_neg (by simp)).symm

theorem Session.Sound.admission (hhash : (db.invitations.map Invitation.codeHash).Nodup) (hs : x.stage = .admission)
    (hy : x.admission db others n = .next y) : y.Sound contactHash db n ∧ Locks others x y := by
  unfold Session.admission at hy
  split at hy
  next c hop hc =>
    refine h.insertMembership hs ?_ (fun w hw => ?_) hy
    · unfold MembershipWrite
      rw [hop]
      exact ⟨c, _, hc, rfl⟩
    · rw [hop] at hw ⊢
      cases hw
      rfl
  next userId code c hop hc =>
    refine h.insertMembership hs ?_ (fun w hw => ?_) hy
    · unfold MembershipWrite
      rw [hop]
      exact ⟨c, _, hc, rfl⟩
    · rw [hop] at hw ⊢
      cases hw
      rfl
  next contact code i hop hf =>
    refine h.insertMembership hs ?_ (fun w hw => ?_) hy
    · obtain ⟨⟨j, hj, hoffer⟩, contact', hop'⟩ := h.found i hf
      cases hop.symm.trans hop'
      have hlocked : ∃ i', x.invitation = some i' := by
        refine Option.isSome_iff_exists.mp ?_
        have he := h.written
        rw [hop, hs] at he
        exact (congrArg Written.invitation (Option.some.inj he)).symm
      obtain ⟨i', hi'⟩ := hlocked
      obtain ⟨j', hj', hwrite⟩ := h.invitation i' hi'
      have hcode : j'.codeHash = i.codeHash := by
        unfold InvitationWrite at hwrite
        rw [hop] at hwrite
        exact (Option.some.inj hwrite.1).symm
      have hcode' : j.codeHash = i.codeHash := congrArg (fun o => o.2.2.1) hoffer
      obtain rfl := eq_of_key hhash hj hj' (hcode'.trans hcode.symm)
      unfold MembershipWrite
      rw [hop]
      exact ⟨i', _, hi', adminMembership_offer (hoffer.symm.trans hwrite.offer.symm) n⟩
    · rw [hop] at hw ⊢
      cases hw
      rfl
  next => cases hy

theorem Session.Sound.issue (hs : x.stage = .issue) (hy : x.issue = .next y) :
    y.Sound contactHash db n ∧ Locks others x y := by
  unfold Session.issue at hy
  split at hy
  next m hop hm =>
    cases hy
    refine ⟨{ h with
      written := ?_
      membership := fun m hm => h.membership m hm
      outputs := ?_ }, .same rfl rfl⟩
    · rw [hop]
      have he := h.written
      rw [hop, hs] at he
      exact he
    · rw [if_pos rfl, hop, hm]
      rfl
  next m hop hm =>
    cases hy
    refine ⟨{ h with
      written := ?_
      membership := fun m hm => h.membership m hm
      outputs := ?_ }, .same rfl rfl⟩
    · rw [hop]
      have he := h.written
      rw [hop, hs] at he
      exact he
    · rw [if_pos rfl, hop, hm]
      have hsession : x.session = none := congrArg Prod.fst (h.silent (by simp [hs]))
      rw [hsession]
      rfl
  next m hop hm =>
    cases hy
    refine ⟨{ h with
      written := ?_
      membership := fun m hm => h.membership m hm
      outputs := ?_ }, .same rfl rfl⟩
    · rw [hop]
      have he := h.written
      rw [hop, hs] at he
      exact he
    · rw [if_pos rfl, hop, hm]
      rfl
  next => cases hy

theorem Session.Sound.exec (hhash : (db.invitations.map Invitation.codeHash).Nodup)
    (hy : x.exec contactHash db others n = .next y) : y.Sound contactHash db n ∧ Locks others x y := by
  unfold Session.exec at hy
  split at hy
  next hs => exact h.lookup hs hy
  next hs =>
    cases hy
    exact ⟨h.clock hs, .same rfl rfl⟩
  next hs => exact h.spend hs hy
  next hs => exact h.create hs hy
  next hs => exact h.admission hhash hs hy
  next hs => exact h.issue hs hy
  next => cases hy

end

theorem Operation.start_sound (hf : ∀ u ∈ db.users, u.id ≠ n) (op : Operation) : (op.start db.clock).Sound contactHash db n where
  now := Int.le_refl db.clock
  fresh := hf
  written := by cases op <;> rfl
  code _ hc := by cases hc
  invitation _ hi := by cases hi
  found _ hf := by cases hf
  user _ hu := by cases hu
  membership _ hm := by cases hm
  outputs := by cases op <;> rfl

/-! ## What a call publishes -/

inductive Spends (contactHash : Contact → String) (db : Db) (n : Nat) (usedAt : Int) : Operation → Db → Prop
  | registers {email phone : Option String} {c : JoinCode} {t : Int} (hc : c ∈ db.codes) (hu : c.usable usedAt = true)
    (hn : ∀ u ∈ db.users, u.id ≠ n) : Spends contactHash db n usedAt (.register email phone (some c.codeHash)) { db with
      codes := replaceRow JoinCode.id c.spend db.codes
      users := db.users ++ [⟨n, email, phone⟩]
      memberships := db.memberships ++ [membershipOf n c t]
      sessions := db.sessions ++ [n]
      events := db.events ++ .userRegistered n c.audience c.organizationId :: requested (membershipOf n c t) }
  | joins {userId : Uuid} {c : JoinCode} {t : Int} (hc : c ∈ db.codes) (hu : c.usable usedAt = true) :
    Spends contactHash db n usedAt (.join userId (some c.codeHash)) { db with
      codes := replaceRow JoinCode.id c.spend db.codes
      memberships := db.memberships ++ [membershipOf userId c t]
      events := db.events ++ requested (membershipOf userId c t) }
  | accepts {contact : Contact} {i : Invitation} {t : Int} (hi : i ∈ db.invitations) (hu : i.usable usedAt (contactHash contact) = true)
    (hn : ∀ u ∈ db.users, u.id ≠ n) : Spends contactHash db n usedAt (.accept contact (some i.codeHash)) { db with
      invitations := replaceRow Invitation.id (i.consume usedAt n) db.invitations
      users := db.users ++ [contact.user n]
      memberships := db.memberships ++ [adminMembership n i t]
      sessions := db.sessions ++ [n]
      events := db.events ++ [.userRegistered n i.invitationType i.organizationId,
        .membershipAdminProvisioned n i.organizationId i.invitationType] }
  | revokesCode {organizationId : Uuid} {c : JoinCode} (hc : c ∈ db.codes) (ho : c.organizationId = organizationId) (hr : c.revokedAt = none) :
    Spends contactHash db n usedAt (.revokeCode organizationId c.id) { db with
      codes := replaceRow JoinCode.id (c.revoke usedAt) db.codes }
  | revokesInvitation {organizationId : Uuid} {i : Invitation} (hi : i ∈ db.invitations) (ho : i.organizationId = organizationId)
    (hc : i.consumedAt = none) (hr : i.revokedAt = none) : Spends contactHash db n usedAt (.revokeInvitation organizationId i.id) { db with
      invitations := replaceRow Invitation.id (i.revoke usedAt) db.invitations }
  | enrolls {email phone : Option String} (hn : ∀ u ∈ db.users, u.id ≠ n) :
    Spends contactHash db n usedAt (.enroll email phone) { db with
      users := db.users ++ [⟨n, email, phone⟩] }

@[simp] theorem membershipOf_spend (userId : Uuid) (c : JoinCode) (t : Int) : membershipOf userId c.spend t = membershipOf userId c t := rfl

@[simp] theorem adminMembership_consume (userId : Uuid) (i : Invitation) (t : Int) :
    adminMembership userId (i.consume now n) t = adminMembership userId i t := rfl

theorem Session.Sound.publishes (h : x.Sound contactHash db n) (hs : x.stage = .ready) :
    Spends contactHash db n x.now x.op (x.publish db) := by
  obtain ⟨op, stage, now, found, code, invitation, user, membership, session, events⟩ := x
  dsimp only at hs
  subst hs
  have hw := h.written
  have ho := h.outputs
  rw [if_pos rfl] at ho
  dsimp only at ho hw ⊢
  cases op with
  | register email phone a =>
    simp only [Operation.written, Session.written, Option.some.injEq, Written.mk.injEq] at hw
    obtain ⟨hcode, hinv, huser, hmem⟩ := hw
    obtain ⟨c', rfl⟩ := Option.isSome_iff_exists.mp hcode.symm
    obtain ⟨u, rfl⟩ := Option.isSome_iff_exists.mp huser.symm
    obtain ⟨m, rfl⟩ := Option.isSome_iff_exists.mp hmem.symm
    obtain rfl := Option.isNone_iff_eq_none.mp (Option.isSome_eq_false_iff.mp hinv.symm)
    obtain ⟨c, hc, rfl, hu, rfl⟩ := h.code c' rfl
    cases h.user u rfl
    obtain ⟨d, t, hd, rfl⟩ := h.membership m rfl
    cases hd
    cases ho
    exact .registers hc hu h.fresh
  | join userId a =>
    simp only [Operation.written, Session.written, Option.some.injEq, Written.mk.injEq] at hw
    obtain ⟨hcode, hinv, huser, hmem⟩ := hw
    obtain ⟨c', rfl⟩ := Option.isSome_iff_exists.mp hcode.symm
    obtain ⟨m, rfl⟩ := Option.isSome_iff_exists.mp hmem.symm
    obtain rfl := Option.isNone_iff_eq_none.mp (Option.isSome_eq_false_iff.mp hinv.symm)
    obtain rfl := Option.isNone_iff_eq_none.mp (Option.isSome_eq_false_iff.mp huser.symm)
    obtain ⟨c, hc, rfl, hu, rfl⟩ := h.code c' rfl
    obtain ⟨d, t, hd, rfl⟩ := h.membership m rfl
    cases hd
    cases ho
    simpa [Session.publish] using @Spends.joins contactHash db n now userId c t hc hu
  | accept contact a =>
    simp only [Operation.written, Session.written, Option.some.injEq, Written.mk.injEq] at hw
    obtain ⟨hcode, hinv, huser, hmem⟩ := hw
    obtain ⟨i', rfl⟩ := Option.isSome_iff_exists.mp hinv.symm
    obtain ⟨u, rfl⟩ := Option.isSome_iff_exists.mp huser.symm
    obtain ⟨m, rfl⟩ := Option.isSome_iff_exists.mp hmem.symm
    obtain rfl := Option.isNone_iff_eq_none.mp (Option.isSome_eq_false_iff.mp hcode.symm)
    obtain ⟨i, hi, rfl, hu, rfl⟩ : ∃ i ∈ db.invitations, InvitationWrite contactHash (.accept contact a) n now i i' := h.invitation i' rfl
    cases h.user u rfl
    obtain ⟨j, t, hj, rfl⟩ := h.membership m rfl
    cases hj
    cases ho
    exact .accepts hi hu h.fresh
  | revokeCode organizationId id =>
    simp only [Operation.written, Session.written, Option.some.injEq, Written.mk.injEq] at hw
    obtain ⟨hcode, hinv, huser, hmem⟩ := hw
    obtain ⟨c', rfl⟩ := Option.isSome_iff_exists.mp hcode.symm
    obtain rfl := Option.isNone_iff_eq_none.mp (Option.isSome_eq_false_iff.mp hinv.symm)
    obtain rfl := Option.isNone_iff_eq_none.mp (Option.isSome_eq_false_iff.mp huser.symm)
    obtain rfl := Option.isNone_iff_eq_none.mp (Option.isSome_eq_false_iff.mp hmem.symm)
    obtain ⟨c, hc, rfl, hc', hr, rfl⟩ : ∃ c ∈ db.codes, CodeWrite (.revokeCode organizationId id) now c c' := h.code c' rfl
    cases ho
    simpa [Session.publish] using @Spends.revokesCode contactHash db n now organizationId c hc hc' hr
  | revokeInvitation organizationId id =>
    simp only [Operation.written, Session.written, Option.some.injEq, Written.mk.injEq] at hw
    obtain ⟨hcode, hinv, huser, hmem⟩ := hw
    obtain ⟨i', rfl⟩ := Option.isSome_iff_exists.mp hinv.symm
    obtain rfl := Option.isNone_iff_eq_none.mp (Option.isSome_eq_false_iff.mp hcode.symm)
    obtain rfl := Option.isNone_iff_eq_none.mp (Option.isSome_eq_false_iff.mp huser.symm)
    obtain rfl := Option.isNone_iff_eq_none.mp (Option.isSome_eq_false_iff.mp hmem.symm)
    obtain ⟨i, hi, rfl, horg, hc, hr, rfl⟩ :
      ∃ i ∈ db.invitations, InvitationWrite contactHash (.revokeInvitation organizationId id) n now i i' := h.invitation i' rfl
    cases ho
    simpa [Session.publish] using @Spends.revokesInvitation contactHash db n now organizationId i hi horg hc hr
  | enroll email phone =>
    simp only [Operation.written, Session.written, Option.some.injEq, Written.mk.injEq] at hw
    obtain ⟨hcode, hinv, huser, hmem⟩ := hw
    obtain ⟨u, rfl⟩ := Option.isSome_iff_exists.mp huser.symm
    obtain rfl := Option.isNone_iff_eq_none.mp (Option.isSome_eq_false_iff.mp hcode.symm)
    obtain rfl := Option.isNone_iff_eq_none.mp (Option.isSome_eq_false_iff.mp hinv.symm)
    obtain rfl := Option.isNone_iff_eq_none.mp (Option.isSome_eq_false_iff.mp hmem.symm)
    cases h.user u rfl
    cases ho
    simpa [Session.publish] using @Spends.enrolls contactHash db n now email phone h.fresh

/-! ## The ledger -/

def Db.uses (db : Db) (id : Uuid) : Nat := db.memberships.countP fun m => m.joinCodeId = some id

def Db.acceptances (db : Db) (id : Uuid) : Nat := db.memberships.countP fun m => m.invitationId = some id

def Bound (contactHash : Contact → String) (i : Invitation) (u : User) : Prop :=
  ∀ h ∈ i.inviteeContactHash, ∃ contact, u = contact.user u.id ∧ contactHash contact = h

structure Ledger (contactHash : Contact → String) (db : Db) : Prop where
  counted : ∀ c ∈ db.codes, c.usedCount = db.uses c.id ∧ ∀ m ∈ c.maxUses, c.usedCount ≤ m
  admitted : ∀ k ∈ db.memberships, ∀ id, k.joinCodeId = some id → ∃ c ∈ db.codes, c.id = id ∧ c.organizationId = k.organizationId
  consumed : ∀ i ∈ db.invitations, db.acceptances i.id = if i.consumedBy.isSome then 1 else 0
  provisioned : ∀ k ∈ db.memberships, ∀ id, k.invitationId = some id → ∃ i ∈ db.invitations, i.id = id ∧
    i.organizationId = k.organizationId ∧ i.consumedBy = some k.userId ∧ ∃ u ∈ db.users, u.id = k.userId ∧ Bound contactHash i u

structure Db.Sound (contactHash : Contact → String) (n : Nat) (db : Db) : Prop where
  codeIds : (db.codes.map JoinCode.id).Nodup
  hashes : (db.invitations.map Invitation.codeHash).Nodup
  invitationIds : (db.invitations.map Invitation.id).Nodup
  users : ∀ u ∈ db.users, u.id < n
  stamped : ∀ i ∈ db.invitations, i.consumedAt.isSome = i.consumedBy.isSome
  ledger : Ledger contactHash db

theorem Db.Sound.unaccepted (h : db.Sound contactHash m) (hi : i ∈ db.invitations) (hc : i.consumedAt = none) :
    i.consumedBy = none ∧ ∀ k ∈ db.memberships, k.invitationId ≠ some i.id := by
  have hnone : i.consumedBy = none := by
    have he := h.stamped i hi
    rw [hc] at he
    exact Option.isNone_iff_eq_none.mp (Option.isSome_eq_false_iff.mp he.symm)
  have hcount := h.ledger.consumed i hi
  rw [hnone] at hcount
  refine ⟨hnone, fun k hk he => ?_⟩
  exact List.countP_eq_zero.mp hcount k hk (decide_eq_true he)

theorem uses_append (hm : db'.memberships = db.memberships ++ [k]) (id : Uuid) :
    db'.uses id = db.uses id + if k.joinCodeId = some id then 1 else 0 := by
  unfold Db.uses
  rw [hm, List.countP_append, List.countP_singleton]
  simp only [decide_eq_true_eq]

theorem acceptances_append (hm : db'.memberships = db.memberships ++ [k]) (id : Uuid) :
    db'.acceptances id = db.acceptances id + if k.invitationId = some id then 1 else 0 := by
  unfold Db.acceptances
  rw [hm, List.countP_append, List.countP_singleton]
  simp only [decide_eq_true_eq]

theorem Ledger.spend (h : Ledger contactHash db) (hids : (db.codes.map JoinCode.id).Nodup) (hc : c ∈ db.codes)
    (hu : c.usable now = true) (hcode : k.joinCodeId = some c.id) (horg : k.organizationId = c.organizationId) (hinv : k.invitationId = none)
    (hcodes : db'.codes = replaceRow JoinCode.id c.spend db.codes) (hm : db'.memberships = db.memberships ++ [k])
    (hi : db'.invitations = db.invitations) (hus : ∀ u ∈ db.users, u ∈ db'.users) : Ledger contactHash db' where
  counted d hd := by
    rw [hcodes] at hd
    rw [uses_append hm, hcode]
    rcases mem_replaceRow hd with rfl | ⟨hd, hne⟩
    · obtain ⟨hcount, -⟩ := h.counted c hc
      rw [if_pos (show some c.id = some c.spend.id from rfl)]
      refine ⟨congrArg (· + 1) hcount, fun m hmax => ?_⟩
      simp only [JoinCode.usable, decide_eq_true_eq] at hu
      exact hu.2.2.2 m hmax
    · obtain ⟨hcount, hmax⟩ := h.counted d hd
      rw [if_neg (show some c.id ≠ some d.id from fun he => hne (Option.some.inj he).symm)]
      exact ⟨hcount, hmax⟩
  admitted j hj id hid := by
    have hold : ∃ d ∈ db.codes, d.id = id ∧ d.organizationId = j.organizationId := by
      rw [hm] at hj
      rcases mem_append_row hj with hj | rfl
      · exact h.admitted j hj id hid
      · exact ⟨c, hc, Option.some.inj (hcode.symm.trans hid), horg.symm⟩
    obtain ⟨d, hd, hdid, hdorg⟩ := hold
    rw [hcodes]
    by_cases he : d.id = c.id
    · obtain rfl := eq_of_key hids hd hc he
      exact ⟨d.spend, replaceRow_mem hd rfl, hdid, hdorg⟩
    · exact ⟨d, replaceRow_other hd he, hdid, hdorg⟩
  consumed i hi' := by
    rw [hi] at hi'
    rw [acceptances_append hm, hinv, if_neg (by simp)]
    exact h.consumed i hi'
  provisioned j hj id hid := by
    rw [hm] at hj
    rcases mem_append_row hj with hj | rfl
    · obtain ⟨i, hi', hiid, hiorg, hby, u, hu', hrest⟩ := h.provisioned j hj id hid
      exact ⟨i, hi ▸ hi', hiid, hiorg, hby, u, hus u hu', hrest⟩
    · rw [hinv] at hid
      cases hid

theorem Ledger.accept (h : db.Sound contactHash m) {contact : Contact} {t : Int} (hi : i ∈ db.invitations)
    (hu : i.usable now (contactHash contact) = true)
    (hcodes : db'.codes = db.codes) (hm : db'.memberships = db.memberships ++ [adminMembership n i t])
    (hinv : db'.invitations = replaceRow Invitation.id (i.consume now n) db.invitations) (hus : db'.users = db.users ++ [contact.user n]) :
    Ledger contactHash db' := by
  simp only [Invitation.usable, decide_eq_true_eq] at hu
  obtain ⟨hopen, -, -, hbound⟩ := hu
  obtain ⟨hby, hno⟩ := h.unaccepted hi hopen
  refine ⟨fun c hc => ?_, fun k hk id hid => ?_, fun j hj => ?_, fun k hk id hid => ?_⟩
  · rw [hcodes] at hc
    rw [uses_append hm, if_neg (by simp [adminMembership])]
    exact h.ledger.counted c hc
  · rw [hm] at hk
    rw [hcodes]
    rcases mem_append_row hk with hk | rfl
    · exact h.ledger.admitted k hk id hid
    · cases hid
  · rw [hinv] at hj
    rw [acceptances_append hm]
    rcases mem_replaceRow hj with rfl | ⟨hj, hne⟩
    · have hcount := h.ledger.consumed i hi
      rw [hby] at hcount
      rw [if_pos (show (adminMembership n i t).invitationId = some (i.consume now n).id from rfl)]
      exact congrArg (· + 1) hcount
    · rw [if_neg (show (adminMembership n i t).invitationId ≠ some j.id from fun he => hne (Option.some.inj he).symm)]
      exact h.ledger.consumed j hj
  · rw [hm] at hk
    rw [hinv, hus]
    rcases mem_append_row hk with hk | rfl
    · obtain ⟨j, hj, hjid, horg, hjby, u, hu, hrest⟩ := h.ledger.provisioned k hk id hid
      have hne : j.id ≠ (i.consume now n).id := fun he => hno k hk (hid.trans (congrArg some (hjid.symm.trans he)))
      exact ⟨j, replaceRow_other hj hne, hjid, horg, hjby, u, List.mem_append_left _ hu, hrest⟩
    · have hid : i.id = id := Option.some.inj hid
      have huser : (contact.user n).id = n := by cases contact <;> rfl
      refine ⟨i.consume now n, replaceRow_mem hi rfl, hid, rfl, rfl, contact.user n, List.mem_append_right _ List.mem_cons_self, huser, ?_⟩
      intro hash hhash
      exact ⟨contact, by rw [huser], (hbound hash hhash).symm⟩

theorem Ledger.revokeCode (h : Ledger contactHash db) (hids : (db.codes.map JoinCode.id).Nodup) (hc : c ∈ db.codes) :
    Ledger contactHash { db with codes := replaceRow JoinCode.id (c.revoke now) db.codes } where
  counted d hd := by
    rcases mem_replaceRow hd with rfl | ⟨hd, -⟩
    · exact h.counted c hc
    · exact h.counted d hd
  admitted k hk id hid := by
    obtain ⟨d, hd, hdid, hdorg⟩ := h.admitted k hk id hid
    by_cases he : d.id = c.id
    · obtain rfl := eq_of_key hids hd hc he
      exact ⟨d.revoke now, replaceRow_mem hd rfl, hdid, hdorg⟩
    · exact ⟨d, replaceRow_other hd he, hdid, hdorg⟩
  consumed := h.consumed
  provisioned := h.provisioned

theorem Ledger.revokeInvitation (h : db.Sound contactHash m) (hi : i ∈ db.invitations) (hc : i.consumedAt = none) :
    Ledger contactHash { db with invitations := replaceRow Invitation.id (i.revoke now) db.invitations } where
  counted := h.ledger.counted
  admitted := h.ledger.admitted
  consumed j hj := by
    rcases mem_replaceRow hj with rfl | ⟨hj, -⟩
    · exact h.ledger.consumed i hi
    · exact h.ledger.consumed j hj
  provisioned k hk id hid := by
    obtain ⟨j, hj, hjid, hrest⟩ := h.ledger.provisioned k hk id hid
    have hne : j.id ≠ (i.revoke now).id := fun he => (h.unaccepted hi hc).2 k hk (hid.trans (congrArg some (hjid.symm.trans he)))
    exact ⟨j, replaceRow_other hj hne, hjid, hrest⟩

theorem Db.Sound.spends (h : db.Sound contactHash m) (hs : Spends contactHash db n now op db') (hn : n < m) : db'.Sound contactHash m := by
  have husers : ∀ u : User, u.id = n → ∀ v ∈ db.users ++ [u], v.id < m := by
    intro u hu v hv
    rcases mem_append_row hv with hv | hv
    · exact h.users v hv
    · exact hv ▸ hu ▸ hn
  have hcodes : ∀ {c c' : JoinCode}, c'.id = c.id → ((replaceRow JoinCode.id c' db.codes).map JoinCode.id).Nodup := by
    intro c c' hid
    rw [map_replaceRow fun _ _ hk => hk]
    exact h.codeIds
  have hoffers : ∀ {i i' : Invitation}, i ∈ db.invitations → i'.id = i.id → i'.codeHash = i.codeHash →
      ((replaceRow Invitation.id i' db.invitations).map Invitation.codeHash).Nodup ∧
      ((replaceRow Invitation.id i' db.invitations).map Invitation.id).Nodup := by
    intro i i' hi hid hhash
    rw [map_replaceRow fun j hj hk => ?_, map_replaceRow fun _ _ hk => hk]
    · exact ⟨h.hashes, h.invitationIds⟩
    · obtain rfl := eq_of_key h.invitationIds hj hi (hk.trans hid)
      exact hhash.symm
  cases hs with
  | @registers email phone c t hc hu hfresh =>
    exact ⟨hcodes (c := c) rfl, h.hashes, h.invitationIds, husers _ rfl, h.stamped,
      h.ledger.spend h.codeIds hc hu rfl rfl rfl rfl rfl rfl fun u hu => List.mem_append_left _ hu⟩
  | @joins userId c t hc hu =>
    exact ⟨hcodes (c := c) rfl, h.hashes, h.invitationIds, h.users, h.stamped,
      h.ledger.spend h.codeIds hc hu rfl rfl rfl rfl rfl rfl fun u hu => hu⟩
  | @accepts contact i t hi hu hfresh =>
    obtain ⟨hhashes, hids⟩ := @hoffers i (i.consume now n) hi rfl rfl
    refine ⟨h.codeIds, hhashes, hids, husers _ (by cases contact <;> rfl), fun j hj => ?_, .accept h hi hu rfl rfl rfl rfl⟩
    rcases mem_replaceRow hj with rfl | ⟨hj, -⟩
    · rfl
    · exact h.stamped j hj
  | @revokesCode organizationId c hc ho hr =>
    exact ⟨hcodes (c := c) rfl, h.hashes, h.invitationIds, h.users, h.stamped, h.ledger.revokeCode h.codeIds hc⟩
  | @revokesInvitation organizationId i hi ho hc hr =>
    obtain ⟨hhashes, hids⟩ := @hoffers i (i.revoke now) hi rfl rfl
    refine ⟨h.codeIds, hhashes, hids, h.users, fun j hj => ?_, .revokeInvitation h hi hc⟩
    rcases mem_replaceRow hj with rfl | ⟨hj, -⟩
    · exact h.stamped i hi
    · exact h.stamped j hj
  | @enrolls email phone hfresh =>
    refine ⟨h.codeIds, h.hashes, h.invitationIds, husers _ rfl, h.stamped, h.ledger.counted, h.ledger.admitted, h.ledger.consumed, ?_⟩
    intro k hk id hid
    obtain ⟨i, hi, hiid, horg, hby, u, hu, hrest⟩ := h.ledger.provisioned k hk id hid
    exact ⟨i, hi, hiid, horg, hby, u, List.mem_append_left _ hu, hrest⟩

theorem Db.Sound.elapse (h : db.Sound contactHash m) (e : Change) : (db.elapse e).Sound contactHash m := by
  cases e with
  | tick d => exact ⟨h.codeIds, h.hashes, h.invitationIds, h.users, h.stamped, h.ledger.counted, h.ledger.admitted, h.ledger.consumed, h.ledger.provisioned⟩
  | createCode id organizationId codeHash audience requiresApproval expiresAt maxUses =>
    unfold Db.elapse
    dsimp only
    split
    · exact h
    next hno =>
    have hno : ∀ c ∈ db.codes, c.id ≠ id := by
      intro c hc he
      exact hno (List.any_eq_true.mpr ⟨c, hc, decide_eq_true (.inl he)⟩)
    refine ⟨nodup_append_row h.codeIds hno, h.hashes, h.invitationIds, h.users, h.stamped, fun c hc => ?_, fun k hk i hi => ?_,
      h.ledger.consumed, h.ledger.provisioned⟩
    · rcases mem_append_row hc with hc | hc
      · exact h.ledger.counted c hc
      · obtain rfl := hc
        refine ⟨(List.countP_eq_zero.mpr fun k hk he => ?_).symm, fun _ _ => Nat.zero_le _⟩
        obtain ⟨c, hc, hid, -⟩ := h.ledger.admitted k hk id (of_decide_eq_true he)
        exact hno c hc hid
    · obtain ⟨c, hc, hrest⟩ := h.ledger.admitted k hk i hi
      exact ⟨c, List.mem_append_left _ hc, hrest⟩
  | createInvitation id organizationId codeHash invitationType inviteeContactHash expiresAt createdBy =>
    unfold Db.elapse
    dsimp only
    split
    · exact h
    next hno =>
    have hnew : ∀ i ∈ db.invitations, i.id ≠ id ∧ i.codeHash ≠ codeHash := by
      intro i hi
      exact not_or.mp fun he => hno (List.any_eq_true.mpr ⟨i, hi, decide_eq_true he⟩)
    refine ⟨h.codeIds, nodup_append_row h.hashes fun i hi => (hnew i hi).2, nodup_append_row h.invitationIds fun i hi => (hnew i hi).1,
      h.users, fun i hi => ?_, h.ledger.counted, h.ledger.admitted, fun i hi => ?_, fun k hk i hi => ?_⟩
    · rcases mem_append_row hi with hi | rfl
      · exact h.stamped i hi
      · rfl
    · rcases mem_append_row hi with hi | hi
      · exact h.ledger.consumed i hi
      · obtain rfl := hi
        refine List.countP_eq_zero.mpr fun k hk he => ?_
        obtain ⟨i, hi, hid, -⟩ := h.ledger.provisioned k hk id (of_decide_eq_true he)
        exact (hnew i hi).1 hid
    · obtain ⟨j, hj, hrest⟩ := h.ledger.provisioned k hk i hi
      exact ⟨j, List.mem_append_left _ hj, hrest⟩

theorem Session.Sound.beside (h : x.Sound contactHash db n) (hclock : db.clock ≤ db'.clock) (hfresh : ∀ u ∈ db'.users, u.id ≠ n)
    (hcodes : ∀ c ∈ db.codes, (∃ c', x.code = some c' ∧ c'.id = c.id) → c ∈ db'.codes)
    (hinv : ∀ i ∈ db.invitations, (∃ i', x.invitation = some i' ∧ i'.id = i.id) → i ∈ db'.invitations)
    (hoffer : ∀ i ∈ db.invitations, ∃ j ∈ db'.invitations, j.offer = i.offer) : x.Sound contactHash db' n :=
  { h with
    now := Int.le_trans h.now hclock
    fresh := hfresh
    code := fun c' hc' => by
      obtain ⟨c, hc, hwrite⟩ := h.code c' hc'
      exact ⟨c, hcodes c hc ⟨c', hc', hwrite.id⟩, hwrite⟩
    invitation := fun i' hi' => by
      obtain ⟨i, hi, hwrite⟩ := h.invitation i' hi'
      exact ⟨i, hinv i hi ⟨i', hi', congrArg Prod.fst hwrite.offer⟩, hwrite⟩
    found := fun f hf => by
      obtain ⟨⟨i, hi, hof⟩, hop⟩ := h.found f hf
      obtain ⟨j, hj, hji⟩ := hoffer i hi
      exact ⟨⟨j, hj, hji.trans hof⟩, hop⟩ }

theorem elapse_beside (h : x.Sound contactHash db n) (e : Change) : x.Sound contactHash (db.elapse e) n := by
  cases e with
  | tick d =>
    exact h.beside (Int.le_add_of_nonneg_right (Int.natCast_nonneg d)) h.fresh (fun _ hc _ => hc) (fun _ hi _ => hi) fun i hi => ⟨i, hi, rfl⟩
  | createCode id organizationId codeHash audience requiresApproval expiresAt maxUses =>
    unfold Db.elapse
    dsimp only
    split
    · exact h
    · exact h.beside (Int.le_refl _) h.fresh (fun _ hc _ => List.mem_append_left _ hc) (fun _ hi _ => hi) fun i hi => ⟨i, hi, rfl⟩
  | createInvitation id organizationId codeHash invitationType inviteeContactHash expiresAt createdBy =>
    unfold Db.elapse
    dsimp only
    split
    · exact h
    · refine h.beside (Int.le_refl _) h.fresh (fun _ hc _ => hc) (fun _ hi _ => List.mem_append_left _ hi) fun i hi => ?_
      exact ⟨i, List.mem_append_left _ hi, rfl⟩

theorem publish_beside (hdb : db.Sound contactHash m) (hx : x.Sound contactHash db n) {k : Nat} (hy : y.Sound contactHash db k) (hne : k ≠ n)
    (hapart : Apart y x) : y.Sound contactHash (x.publish db) k := by
  refine hy.beside (Int.le_refl _) (fun u hu => ?_) (fun c hc hown => ?_) (fun i hi hown => ?_) fun i hi => ?_
  · rcases List.mem_append.mp hu with hu | hu
    · exact hy.fresh u hu
    · have hu := hx.user u (Option.mem_toList.mp hu)
      have hid : u.id = n := by
        unfold Operation.user at hu
        split at hu
        · cases hu
          rfl
        · cases hu
          rfl
        next contact _ _ =>
          cases hu
          cases contact <;> rfl
        · cases hu
      exact hid.symm ▸ hne.symm
  · obtain ⟨c', hc', hid⟩ := hown
    unfold Session.publish
    dsimp only
    cases hxc : x.code with
    | none => exact hc
    | some d => exact replaceRow_other hc fun he => hapart.codes c' d hc' hxc (hid.trans he)
  · obtain ⟨i', hi', hid⟩ := hown
    unfold Session.publish
    dsimp only
    cases hxi : x.invitation with
    | none => exact hi
    | some d => exact replaceRow_other hi fun he => hapart.invitations i' d hi' hxi (hid.trans he)
  · unfold Session.publish
    dsimp only
    cases hxi : x.invitation with
    | none => exact ⟨i, hi, rfl⟩
    | some d =>
      by_cases he : i.id = d.id
      · obtain ⟨j, hj, hwrite⟩ := hx.invitation d hxi
        have hjd : j.id = d.id := congrArg Prod.fst hwrite.offer.symm
        obtain rfl := eq_of_key hdb.invitationIds hi hj (he.trans hjd.symm)
        exact ⟨d, replaceRow_mem hi he, hwrite.offer⟩
      · exact ⟨i, replaceRow_other hi he, rfl⟩

theorem exec_now (hy : x.exec contactHash db others n = .next y) : y.op = x.op ∧ y.now = if x.stage = .clock then db.clock else x.now := by
  cases hs : x.stage with
  | clock =>
    simp only [Session.exec, hs] at hy
    cases hy
    exact ⟨rfl, rfl⟩
  | lookup => grind [Session.exec, Session.lookup]
  | spend => grind [Session.exec, Session.spend, Session.spendCode]
  | create => grind [Session.exec, Session.create, Session.insertUser]
  | admission => grind [Session.exec, Session.admission, Session.insertMembership]
  | issue => grind [Session.exec, Session.issue]
  | ready => simp [Session.exec, hs] at hy

/-! ## Runs -/

theorem keeps : (admissions contactHash).Keeps (Db.Sound contactHash) (fun db n x => x.Sound contactHash db n) Apart fun _ _ _ => True where
  symm x y h := ⟨fun c c' hc hc' => Ne.symm (h.codes c' c hc' hc), fun i i' hi hi' => Ne.symm (h.invitations i' i hi' hi)⟩
  fresh n db h := { h with users := fun u hu => Nat.lt_succ_of_lt (h.users u hu) }
  start n db op x h hx := by
    obtain rfl := Option.some.inj hx
    refine ⟨Operation.start_sound (fun u hu => Nat.ne_of_lt (h.users u hu)) op, fun y => ⟨fun c c' hc => (by cases hc), fun i i' hi => (by cases hi)⟩⟩
  exec n db others m x y hdb hx hy := by
    obtain ⟨hsound, hlocks⟩ := hx.exec hdb.hashes hy
    exact ⟨hsound, fun z hz hxz => hlocks.apart hz hxz⟩
  commit n db m x db' y hm hdb hx _ hy := by
    change Session.commit db x = some (db', y) at hy
    unfold Session.commit at hy
    split at hy
    next hs =>
      cases hy
      exact ⟨hdb.spends (hx.publishes hs) hm, fun z hz => (by cases hz), fun k z hk hz hzx => publish_beside hdb hx hz hk hzx⟩
    · cases hy
  elapse n db e h := ⟨h.elapse e, fun m x hx => elapse_beside hx e⟩

/-- What a step publishes: the whole of a call at its commit, and nothing before it or when it is refused. -/
def Publishes (contactHash : Contact → String) (s : Transactions.State Db Session) (a : Transactions.Action Operation Change) : Prop :=
  let s' := (admissions contactHash).step s a
  match a with
  | .commit n => s'.db = s.db ∨ ∃ x, s.session n = some x ∧ x.now ≤ s.db.clock ∧ Spends contactHash s.db n x.now x.op s'.db
  | .elapse e => s'.db = s.db.elapse e
  | .exec n => s'.db = s.db ∧ ∀ x y, s.session n = some x → s'.session n = some y →
    y.op = x.op ∧ y.now = if x.stage = .clock then s.db.clock else x.now
  | _ => s'.db = s.db

theorem publishes_step {s : Transactions.State Db Session}
    (hs : Transactions.Inv (Db.Sound contactHash) (fun db n x => x.Sound contactHash db n) Apart s)
    (a : Transactions.Action Operation Change) : Publishes contactHash s a := by
  cases a with
  | start op => rfl
  | abort n => rfl
  | elapse e => rfl
  | exec n =>
    refine ⟨Transactions.step_exec_db, fun x y hx hy => ?_⟩
    cases hr : x.exec contactHash s.db (s.others n) n with
    | wait =>
      have hw : (admissions contactHash).exec s.db (s.others n) n x = .wait := hr
      have hsame : (admissions contactHash).step s (.exec n) = s := by
        unfold Transactions.step
        simp only [hx, hw]
      rw [hsame, hx] at hy
      obtain rfl := Option.some.inj hy
      refine ⟨rfl, (if_neg fun hs => ?_).symm⟩
      simp [Session.exec, hs] at hr
    | refused =>
      rw [Transactions.step_refused hx hr] at hy
      simp [Transactions.State.set] at hy
    | next z =>
      rw [Transactions.step_next hx hr] at hy
      obtain rfl : z = y := by simpa [Transactions.State.set] using hy
      exact exec_now hr
  | commit n =>
    cases hx : s.session n with
    | none => exact .inl (congrArg Transactions.State.db (Transactions.step_closed hx))
    | some x =>
      have hsound := hs.sessions.each n x hx
      by_cases hr : x.stage = .ready
      · have hc : (admissions contactHash).commit s.db n x = some (x.publish s.db, none) := if_pos hr
        refine .inr ⟨x, hx, hsound.now, ?_⟩
        rw [Transactions.step_commit hx hc]
        exact hsound.publishes hr
      · have hc : (admissions contactHash).commit s.db n x = none := if_neg hr
        exact .inl (congrArg Transactions.State.db (Transactions.step_unready hx hc))

/-- **Codes and invitations are spent exactly.** -/
theorem codes_spent_exactly (contactHash : Contact → String) (clock : Int) (actions : List (Transactions.Action Operation Change)) :
    (∀ k, Ledger contactHash ((admissions contactHash).run (.new clock) (actions.take k)).db) ∧
    Along (admissions contactHash).step (Publishes contactHash) (.new (.new clock)) actions := by
  have hnew : (Db.new clock).Sound contactHash 0 :=
    ⟨List.nodup_nil, List.nodup_nil, List.nodup_nil, fun u hu => (by cases hu), fun i hi => (by cases hi),
      fun c hc => (by cases hc), fun k hk => (by cases hk), fun i hi => (by cases hi), fun k hk => (by cases hk)⟩
  refine ⟨fun k => (Transactions.Inv.run hnew keeps (actions.take k)).committed.ledger, ?_⟩
  refine Along.imp (fun s a hs _ => hs.step keeps a ?_) (fun s a hs _ => publishes_step hs a) actions (.new hnew)
    (Transactions.meets_true actions _)
  cases a with
  | commit n => exact fun _ _ _ => trivial
  | _ => exact trivial

end

end NawaraCore.Admission
