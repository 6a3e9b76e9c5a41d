import NawaraCore.File.FileAccess
import NawaraCore.Lib.Rows

/-!
# The statements of a file's sessions

Every change is checked under a lock that keeps what was checked until the commit: the file's
row for a change of status and for whatever a deletion would cut, the grant's row against its
revocation, and the ticket's row for a redemption.
-/

namespace NawaraCore.FileAccess

/-! ## The invariant -/

def Grant.Usable (g : Grant) (grant : Nat) (now : Int) : Prop := g.id = grant ∧ g.revoked = false ∧ now < g.expiresAt

def Change.Ready (db : FileDb) (n : Nat) (x : Session) : Change → Prop
  | .completed _ => x.fileLock = some .update ∧ db.status = .uploading
  | .refused status => x.fileLock = some .update ∧ db.status = .uploading ∧ (status = .rejected ∨ status = .failed)
  | .attached => x.fileLock = some .update ∧ (db.status = .uploading ∨ db.status = .available)
  | .deleting expired => x.fileLock = some .update ∧ db.status = .available ∧ db.held = false ∧ (expired → db.attached = false)
  | .deleted => x.fileLock = some .update ∧ db.status = .deleting
  | .holdPlaced _ => x.fileLock = some .share ∧ db.status = .available
  | .holdReleased _ => True
  | .grantIssued g => x.fileLock = some .share ∧ db.status = .available ∧ g.id = n ∧ g.revoked = false
  | .grantRevoked grant => x.grantLock = some (grant, .update) ∧ ∃ g ∈ db.grants, g.id = grant
  | .ticketIssued t => x.fileLock = some .share ∧ db.status = .available ∧ t.id = n ∧
      ∀ i, t.grantId = some i → x.grantLock = some (i, .share) ∧ ∃ g ∈ db.grants, g.id = i ∧ g.revoked = false ∧ t.expiresAt ≤ g.expiresAt
  | .redeemed t now => t.id ∈ x.ticketLocks ∧ t ∈ db.tickets ∧ t.revoked = false ∧ now < t.expiresAt ∧
      ∀ i, t.grantId = some i → ∃ g ∈ db.grants, g.id = i ∧ now < g.expiresAt
  | .granted grant now => x.fileLock = some .share ∧ db.status = .available ∧ x.grantLock = some (grant, .share) ∧ ∃ g ∈ db.grants, g.Usable grant now

def Session.Ends (db : FileDb) (x : Session) (c : Change) (todo : List Nat) : Prop :=
  ∀ t ∈ db.tickets, c.ends t → t.revoked ∨ t.id ∈ todo ∨ t.id ∈ x.writes.revoked

structure Session.Wrote (db : FileDb) (n : Nat) (x : Session) (c : Change) : Prop where
  change : x.writes.change = some c
  ready : c.Ready db n x
  locked : ∀ i ∈ x.writes.revoked, i ∈ x.ticketLocks

def Session.Stage (db : FileDb) (n : Nat) (x : Session) : Prop :=
  match x.phase with
  | .find | .first => True
  | .insert => x.fileLock = some .share ∧ db.status = .available ∧
      ∀ grant granteeService purposes l s, x.op = .recordGrantDownload grant granteeService purposes l s → x.grantLock = some (grant, .share)
  | .claim => ∀ ticket maxUses, x.op = .redeem ticket maxUses →
      ∃ t ∈ db.tickets, t.id = ticket ∧ ∀ i, t.grantId = some i → ∃ g ∈ db.grants, g.id = i ∧ x.now < g.expiresAt
  | .revoke => ∃ c, x.Wrote db n c ∧ x.writes.intents = []
  | .revoking todo => ∃ c, x.Wrote db n c ∧ x.writes.intents = [] ∧ x.Ends db c todo
  | .audit => ∃ c, x.Wrote db n c ∧ x.Ends db c []
  | .commit => ∃ c, x.Wrote db n c ∧ x.writes.intents = c.intent.toList ∧ x.Ends db c []

structure Session.Sound (db : FileDb) (n : Nat) (x : Session) : Prop where
  fresh : (∀ t ∈ db.tickets, t.id ≠ n) ∧ ∀ g ∈ db.grants, g.id ≠ n
  stage : x.Stage db n

structure FileDb.Sound (n : Nat) (db : FileDb) : Prop where
  law : AccessLaw db
  tickets : (db.tickets.map Ticket.id).Nodup ∧ ∀ t ∈ db.tickets, t.id < n
  grants : ∀ g ∈ db.grants, g.id < n
  revoked : ∀ i, .grantRevoked i ∈ db.history → ∃ g ∈ db.grants, g.id = i

structure Session.Apart (x y : Session) : Prop where
  file : ∀ k l, x.fileLock = some k → y.fileLock = some l → k = .share ∧ l = .share
  grant : ∀ i k l, x.grantLock = some (i, k) → y.grantLock = some (i, l) → k = .share ∧ l = .share
  ticket : ∀ i ∈ x.ticketLocks, i ∉ y.ticketLocks

variable {x y : Session}

theorem Session.Apart.symm (h : x.Apart y) : y.Apart x where
  file k l hk hl := (h.file l k hl hk).symm
  grant i k l hk hl := (h.grant i l k hl hk).symm
  ticket i hi hi' := h.ticket i hi' hi

structure Session.Takes (others : (Session → Bool) → Bool) (x y : Session) : Prop where
  file : y.fileLock = x.fileLock ∨ y.fileLock = some .share ∧ fileUpdated others = false ∨ fileLocked others = false
  grant : y.grantLock = x.grantLock ∨ ∃ i, (y.grantLock = some (i, .share) ∧ grantUpdated others i = false) ∨
    ∃ k, y.grantLock = some (i, k) ∧ grantLocked others i = false
  ticket : ∀ i ∈ y.ticketLocks, i ∈ x.ticketLocks ∨ ticketLocked others i = false

variable {others : (Session → Bool) → Bool}

theorem Session.Takes.apart {x y z : Session} (h : x.Takes others y)
    (hz : ∀ p : Session → Bool, others p = false → p z = false) (ha : x.Apart z) : y.Apart z where
  file k l hk hl := by
    rcases h.file with hf | ⟨hf, hu⟩ | hu
    · exact ha.file k l (hf ▸ hk) hl
    · obtain rfl : Lock.share = k := Option.some.inj (hf.symm.trans hk)
      have hno := hz _ hu
      rw [hl] at hno
      cases l with
      | share => exact ⟨rfl, rfl⟩
      | update => cases hno
    · have hno := hz _ hu
      rw [hl] at hno
      cases hno
  grant i k l hk hl := by
    rcases h.grant with hf | ⟨j, ⟨hf, hu⟩ | ⟨k', hf, hu⟩⟩
    · exact ha.grant i k l (hf ▸ hk) hl
    · obtain ⟨rfl, rfl⟩ := Prod.mk.inj (Option.some.inj (hf.symm.trans hk))
      have hno := hz _ hu
      rw [hl] at hno
      cases l with
      | share => exact ⟨rfl, rfl⟩
      | update => simp at hno
    · obtain ⟨rfl, rfl⟩ := Prod.mk.inj (Option.some.inj (hf.symm.trans hk))
      have hno := hz _ hu
      simp [hl] at hno
  ticket i hi hi' := by
    rcases h.ticket i hi with hx | hu
    · exact ha.ticket i hx hi'
    · have hno := hz _ hu
      simp [hi'] at hno

theorem Session.Takes.of_locks (hf : y.fileLock = x.fileLock) (hg : y.grantLock = x.grantLock)
    (ht : y.ticketLocks = x.ticketLocks) : x.Takes others y where
  file := .inl hf
  grant := .inl hg
  ticket _ hi := .inl (ht ▸ hi)

variable {c : Change}

theorem Change.Ready.mono {db : FileDb} {n : Nat} (h : c.Ready db n x) (hf : y.fileLock = x.fileLock)
    (hg : y.grantLock = x.grantLock) (ht : ∀ i ∈ x.ticketLocks, i ∈ y.ticketLocks) : c.Ready db n y := by
  cases c
  case redeemed t now => exact ⟨ht _ h.1, h.2⟩
  case holdReleased => trivial
  all_goals
    simp only [Change.Ready, hf, hg] at h ⊢
    exact h

/-! ## Statements -/

variable {scope : FileScope} {granteeService : String} {lifetimeSeconds : Nat}
variable {phase : Phase} {grant ticket : Nat} {purposes : List String}

section
variable {db : FileDb} {others : (Session → Bool) → Bool} {n n' : Nat} {x y : Session}

def Change.leads (c : Change) : Phase → Prop
  | .revoke => True
  | .audit => ∀ t, c.ends t = false
  | .commit => c.intent = none ∧ ∀ t, c.ends t = false
  | _ => False

theorem Session.Wrote.go (h : x.Wrote db n c) : ({ x with phase } : Session).Wrote db n c :=
  ⟨h.change, h.ready.mono rfl rfl fun _ hi => hi, h.locked⟩

variable {singleUse : Bool}

section
variable (h : x.Sound db n)
include h

theorem Session.Sound.write {fileLock : Option Lock} {grantLock : Option (Nat × Lock)} {ticketLocks : List Nat}
    (hready : c.Ready db n (x.written fileLock grantLock ticketLocks phase c)) (hphase : c.leads phase) :
    (x.written fileLock grantLock ticketLocks phase c).Sound db n := by
  have hwrote : (x.written fileLock grantLock ticketLocks phase c).Wrote db n c := ⟨rfl, hready, nofun⟩
  refine ⟨h.fresh, ?_⟩
  unfold Session.Stage
  cases phase with
  | revoke => exact ⟨c, hwrote, rfl⟩
  | audit => exact ⟨c, hwrote, fun t _ ht => absurd ht (by rw [hphase t]; decide)⟩
  | commit =>
    refine ⟨c, hwrote, ?_, fun t _ ht => absurd ht (by rw [hphase.2 t]; decide)⟩
    rw [hphase.1]
    rfl
  | _ => exact hphase.elim

theorem update_sound (hy : x.update phase c = .next y) (hfree : fileLocked others = false)
    (hready : c.Ready db n (x.written (some .update) x.grantLock x.ticketLocks phase c)) (hphase : c.leads phase) :
    y.Sound db n ∧ x.Takes others y := by
  cases hy
  exact ⟨h.write hready hphase, ⟨.inr (.inr hfree), .inl rfl, fun _ hi => .inl hi⟩⟩

theorem completeUpload_sound {attachOnCompletion : Bool} (hy : completeUpload db others x attachOnCompletion = .next y) :
    y.Sound db n ∧ x.Takes others y := by
  unfold completeUpload at hy
  split at hy
  · cases hy
  · rename_i hfree
    split at hy
    · rename_i hs
      exact update_sound h hy (Bool.not_eq_true _ ▸ hfree) ⟨rfl, hs⟩ ⟨rfl, fun _ => rfl⟩
    · cases hy

theorem refuseUpload_sound {status : FileStatus} (hy : refuseUpload db others x status = .next y) :
    y.Sound db n ∧ x.Takes others y := by
  unfold refuseUpload at hy
  split at hy
  · cases hy
  · rename_i hfree
    split at hy
    · rename_i hs
      exact update_sound h hy (Bool.not_eq_true _ ▸ hfree) ⟨rfl, hs⟩ ⟨rfl, fun _ => rfl⟩
    · cases hy

theorem attach_sound (hy : attach db others x scope = .next y) : y.Sound db n ∧ x.Takes others y := by
  unfold attach at hy
  split at hy
  · cases hy
  · rename_i hfree
    split at hy
    · rename_i hs
      exact update_sound h hy (Bool.not_eq_true _ ▸ hfree) ⟨rfl, hs.2.2⟩ ⟨rfl, fun _ => rfl⟩
    · cases hy

theorem requestDeletion_sound (hy : requestDeletion db others x scope = .next y) :
    y.Sound db n ∧ x.Takes others y := by
  unfold requestDeletion at hy
  split at hy
  · cases hy
  · rename_i hfree
    split at hy
    · rename_i hs
      refine update_sound h hy (Bool.not_eq_true _ ▸ hfree) ⟨rfl, hs.2.1, Bool.not_eq_true _ ▸ hs.2.2, fun he => ?_⟩ trivial
      cases he
    · cases hy

theorem expireUnattached_sound (hy : expireUnattached db others x = .next y) : y.Sound db n ∧ x.Takes others y := by
  unfold expireUnattached at hy
  split at hy
  · rename_i hs
    obtain ⟨hfree, hav, hatt, -, hheld⟩ := hs
    exact update_sound h hy (Bool.not_eq_true _ ▸ hfree) ⟨rfl, hav, Bool.not_eq_true _ ▸ hheld, fun _ => Bool.not_eq_true _ ▸ hatt⟩ trivial
  · cases hy

theorem completeDeletion_sound (hy : completeDeletion db others x = .next y) : y.Sound db n ∧ x.Takes others y := by
  unfold completeDeletion at hy
  split at hy
  · cases hy
  · rename_i hfree
    split at hy
    · rename_i hs
      exact update_sound h hy (Bool.not_eq_true _ ▸ hfree) ⟨rfl, hs.1⟩ ⟨rfl, fun _ => rfl⟩
    · cases hy

theorem find_sound {used : Bool} (hy : find x used = .next y) : y.Sound db n ∧ x.Takes others y := by
  unfold find at hy
  split at hy
  · cases hy
  · cases hy
    exact ⟨⟨h.fresh, trivial⟩, .of_locks rfl rfl rfl⟩

theorem shareFile_sound {ok : Bool}
    (hop : ∀ grant granteeService purposes l s, x.op ≠ .recordGrantDownload grant granteeService purposes l s)
    (hy : shareFile db others x scope ok = .next y) : y.Sound db n ∧ x.Takes others y := by
  unfold shareFile at hy
  split at hy
  · cases hy
  · rename_i hfree
    split at hy
    · rename_i hs
      cases hy
      refine ⟨⟨h.fresh, rfl, hs.2.1, fun _ _ _ _ _ he => (hop _ _ _ _ _ he).elim⟩, ⟨.inr (.inl ⟨rfl, Bool.not_eq_true _ ▸ hfree⟩), .inl rfl, fun _ hi => .inl hi⟩⟩
    · cases hy

theorem write_sound (hy : x.write phase c = .next y) (hready : c.Ready db n x) (hphase : c.leads phase) :
    y.Sound db n ∧ x.Takes others y := by
  cases hy
  exact ⟨h.write (hready.mono rfl rfl fun _ hi => hi) hphase, .of_locks rfl rfl rfl⟩

variable {holdRef : String}

theorem insertHold_sound (hp : x.phase = .insert) (hy : insertHold db others n x holdRef = .next y) :
    y.Sound db n ∧ x.Takes others y := by
  have hstage := h.stage
  unfold Session.Stage at hstage
  rw [hp] at hstage
  unfold insertHold at hy
  split at hy
  · cases hy
  · split at hy
    · cases hy
    · exact write_sound h hy ⟨hstage.1, hstage.2.1⟩ (fun _ => rfl)

theorem releaseHold_sound (hy : releaseHold db others x holdRef = .next y) : y.Sound db n ∧ x.Takes others y := by
  unfold releaseHold at hy
  split at hy
  · cases hy
  · split at hy
    · cases hy
    · split at hy
      · cases hy
      · exact write_sound h hy trivial (fun _ => rfl)

theorem insertGrant_sound {purpose idempotencyKey : String} (hp : x.phase = .insert)
    (hy : insertGrant db others n x granteeService purpose idempotencyKey lifetimeSeconds = .next y) : y.Sound db n ∧ x.Takes others y := by
  have hstage := h.stage
  unfold Session.Stage at hstage
  rw [hp] at hstage
  unfold insertGrant at hy
  split at hy
  · cases hy
  · split at hy
    · cases hy
    · exact write_sound h hy ⟨hstage.1, hstage.2.1, rfl, rfl⟩ (fun _ => rfl)

theorem revokeGrant_sound (hy : revokeGrant db others x scope grant = .next y) :
    y.Sound db n ∧ x.Takes others y := by
  unfold revokeGrant at hy
  split at hy
  · cases hy
  · rename_i hfree
    split at hy
    · rename_i hs
      cases hy
      obtain ⟨g, hg, hid⟩ := List.any_eq_true.mp hs.2
      refine ⟨h.write ⟨rfl, g, hg, (of_decide_eq_true hid).1⟩ trivial, ⟨.inl rfl, .inr ⟨grant, .inr ⟨.update, rfl, Bool.not_eq_true _ ▸ hfree⟩⟩, fun _ hi => .inl hi⟩⟩
    · cases hy

theorem recordDownload_sound
    (hy : recordDownload db others n x scope lifetimeSeconds singleUse = .next y) : y.Sound db n ∧ x.Takes others y := by
  unfold recordDownload at hy
  split at hy
  · cases hy
  · rename_i hfree
    split at hy
    · rename_i hs
      cases hy
      refine ⟨h.write ⟨rfl, hs.2, rfl, nofun⟩ ⟨rfl, fun _ => rfl⟩, ⟨.inr (.inl ⟨rfl, Bool.not_eq_true _ ▸ hfree⟩), .inl rfl, fun _ hi => .inl hi⟩⟩
    · cases hy

end

theorem usable_eq {g : Grant} (hu : usable db x grant granteeService purposes = some g) :
    db.status = .available ∧ g ∈ db.grants ∧ g.Usable grant x.now := by
  unfold usable at hu
  split at hu
  · rename_i hs
    have hg := List.find?_some hu
    simp only [Bool.not_eq_true, decide_eq_true_eq] at hg
    exact ⟨hs, List.mem_of_find?_eq_some hu, hg.1, hg.2.2.2.1, hg.2.2.2.2⟩
  · cases hu

theorem authorize_takes {next : Session}
    (hy : authorize db others x grant granteeService purposes next = .next y)
    (hf : next.fileLock = some .share) (hg : next.grantLock = some (grant, .share)) (ht : ∀ i ∈ next.ticketLocks, i ∈ x.ticketLocks) :
    y = next ∧ x.Takes others y ∧ ∃ g, usable db x grant granteeService purposes = some g := by
  unfold authorize at hy
  split at hy
  · cases hy
  · rename_i hfree
    split at hy
    · rename_i hs
      cases hy
      simp only [not_or, Bool.not_eq_true] at hfree
      exact ⟨rfl, ⟨.inr (.inl ⟨hf, hfree.1⟩), .inr ⟨grant, .inl ⟨hg, hfree.2⟩⟩, fun i hi => .inl (ht i hi)⟩, Option.isSome_iff_exists.mp hs⟩
    · cases hy

theorem insertGrantTicket_sound
    (h : x.Sound db n) (hp : x.phase = .insert) (hop : x.op = .recordGrantDownload grant granteeService purposes lifetimeSeconds singleUse)
    (hy : insertGrantTicket db n x grant granteeService purposes lifetimeSeconds singleUse = .next y) : y.Sound db n ∧ x.Takes others y := by
  have hstage := h.stage
  unfold Session.Stage at hstage
  rw [hp] at hstage
  obtain ⟨hlock, hav, hgrant⟩ := hstage
  unfold insertGrantTicket at hy
  split at hy
  · cases hy
  · rename_i g hu
    obtain ⟨-, hg, hid, hr, -⟩ := usable_eq hu
    split at hy
    · refine write_sound h hy ⟨hlock, hav, rfl, fun i hi => ?_⟩ (fun _ => rfl)
      obtain rfl := Option.some.inj hi
      exact ⟨hgrant _ _ _ _ _ hop, g, hg, hid, hr, Int.min_le_right _ _⟩
    · cases hy

variable {maxUses : Nat}

theorem redeem_sound (h : x.Sound db n) (hop : x.op = .redeem ticket maxUses)
    (hy : (if claimable db x ticket then x.go .claim else .refused) = .next y) : y.Sound db n ∧ x.Takes others y := by
  split at hy
  · rename_i hc
    cases hy
    refine ⟨⟨h.fresh, fun i _ hi => ?_⟩, .of_locks rfl rfl rfl⟩
    obtain ⟨rfl, rfl⟩ := Operation.redeem.inj (hop.symm.trans hi)
    unfold claimable at hc
    simp only [List.any_eq_true, Option.all_eq_true, decide_eq_true_eq] at hc
    obtain ⟨-, t, ht, hid, hg⟩ := hc
    refine ⟨t, ht, hid, fun i hi => ?_⟩
    obtain ⟨g, hg, hgid, -, hlt⟩ := hg i hi
    exact ⟨g, hg, hgid, hlt⟩
  · cases hy

theorem claimDownload_sound (hdb : db.Sound n') (h : x.Sound db n) (hp : x.phase = .claim) (hop : x.op = .redeem ticket maxUses)
    (hy : claimDownload db others x ticket maxUses = .next y) : y.Sound db n ∧ x.Takes others y := by
  have hstage := h.stage
  unfold Session.Stage at hstage
  rw [hp] at hstage
  obtain ⟨u, hu, huid, hgrant⟩ := hstage ticket maxUses hop
  unfold claimDownload at hy
  split at hy
  · cases hy
  · rename_i hfree
    split at hy
    · cases hy
    · rename_i t hfind
      have ht := List.mem_of_find?_eq_some hfind
      have hid : t.id = ticket := by simpa using List.find?_some hfind
      obtain rfl : u = t := eq_of_key hdb.tickets.1 hu ht (huid.trans hid.symm)
      split at hy
      · rename_i hs
        cases hy
        refine ⟨h.write ⟨?_, hu, Bool.not_eq_true _ ▸ hs.1, hs.2.1, hgrant⟩ ?_, ⟨.inl rfl, .inl rfl, fun i hi => .inr ?_⟩⟩
        · exact List.mem_singleton.mpr hid
        · split
          · exact fun _ => rfl
          · rename_i hno
            refine ⟨?_, fun _ => rfl⟩
            rw [Bool.not_eq_true, Option.isSome_eq_false_iff, Option.isNone_iff_eq_none] at hno
            change u.grantId.map Intent.grantedRead = none
            rw [hno]
            rfl
        · obtain rfl := List.mem_singleton.mp hi
          exact Bool.not_eq_true _ ▸ hfree
      · cases hy

theorem revokeTickets_sound (h : x.Sound db n) (hp : x.phase = .revoke) (hc : x.writes.change = some c)
    (hy : revokeTickets db x c = .next y) : y.Sound db n ∧ x.Takes others y := by
  have hstage := h.stage
  unfold Session.Stage at hstage
  rw [hp] at hstage
  obtain ⟨c', hwrote, hint⟩ := hstage
  obtain rfl := Option.some.inj (hwrote.change.symm.trans hc)
  cases hy
  refine ⟨⟨h.fresh, c', hwrote.go, hint, fun t ht hends => ?_⟩, .of_locks rfl rfl rfl⟩
  by_cases hr : t.revoked
  · exact .inl hr
  · refine .inr (.inl (List.mem_map.mpr ⟨t, List.mem_filter.mpr ⟨ht, ?_⟩, rfl⟩))
    simp [hr, hends]

theorem revokeTicket_sound {todo : List Nat} (h : x.Sound db n) (hp : x.phase = .revoking (ticket :: todo))
    (hy : revokeTicket db others x ticket todo = .next y) : y.Sound db n ∧ x.Takes others y := by
  have hstage := h.stage
  unfold Session.Stage at hstage
  rw [hp] at hstage
  obtain ⟨c, hwrote, hint, hends⟩ := hstage
  unfold revokeTicket at hy
  split at hy
  · cases hy
  · rename_i hfree
    split at hy
    · cases hy
      refine ⟨⟨h.fresh, c, ⟨hwrote.change, hwrote.ready.mono rfl rfl fun _ hi => List.mem_cons_of_mem _ hi, fun i hi => ?_⟩, hint, fun t ht he => ?_⟩,
        ⟨.inl rfl, .inl rfl, fun i hi => ?_⟩⟩
      · rcases List.mem_cons.mp hi with rfl | hi
        · exact List.mem_cons_self
        · exact List.mem_cons_of_mem _ (hwrote.locked i hi)
      · rcases hends t ht he with hr | hr | hr
        · exact .inl hr
        · rcases List.mem_cons.mp hr with hr | hr
          · exact .inr (.inr (hr ▸ List.mem_cons_self))
          · exact .inr (.inl hr)
        · exact .inr (.inr (List.mem_cons_of_mem _ hr))
      · rcases List.mem_cons.mp hi with rfl | hi
        · exact .inr (Bool.not_eq_true _ ▸ hfree)
        · exact .inl hi
    · rename_i hno
      cases hy
      refine ⟨⟨h.fresh, c, hwrote.go, hint, fun t ht he => ?_⟩, .of_locks rfl rfl rfl⟩
      rcases hends t ht he with hr | hr | hr
      · exact .inl hr
      · rcases List.mem_cons.mp hr with hr | hr
        · -- another session has revoked it
          refine .inl (by_contra fun hlive => hno (List.any_eq_true.mpr ⟨t, ht, ?_⟩))
          simp [hr, hlive]
        · exact .inr (.inl hr)
      · exact .inr (.inr hr)

/-! ## One step of a session -/

theorem first_sound (h : x.Sound db n) (hy : x.first db others n = .next y) : y.Sound db n ∧ x.Takes others y := by
  unfold Session.first at hy
  split at hy
  case h_1 => exact completeUpload_sound h hy
  case h_2 => exact refuseUpload_sound h hy
  case h_3 => exact attach_sound h hy
  case h_4 => exact requestDeletion_sound h hy
  case h_5 => exact expireUnattached_sound h hy
  case h_6 => exact completeDeletion_sound h hy
  case h_7 hop => exact shareFile_sound h (fun _ _ _ _ _ he => by rw [hop] at he; cases he) hy
  case h_8 => exact releaseHold_sound h hy
  case h_9 hop => exact shareFile_sound h (fun _ _ _ _ _ he => by rw [hop] at he; cases he) hy
  case h_10 => exact revokeGrant_sound h hy
  case h_11 => exact recordDownload_sound h hy
  case h_12 grant _ _ _ _ hop =>
    obtain ⟨rfl, htakes, g, hu⟩ := authorize_takes hy rfl rfl fun _ hi => hi
    refine ⟨⟨h.fresh, rfl, (usable_eq hu).1, fun _ _ _ _ _ he => ?_⟩, htakes⟩
    obtain ⟨rfl, -⟩ := Operation.recordGrantDownload.inj (hop.symm.trans he)
    rfl
  case h_13 hop => exact redeem_sound h hop hy
  case h_14 =>
    obtain ⟨rfl, htakes, g, hu⟩ := authorize_takes hy rfl rfl nofun
    obtain ⟨hav, hg, huse⟩ := usable_eq hu
    exact ⟨h.write ⟨rfl, hav, rfl, g, hg, huse⟩ fun _ => rfl, htakes⟩

theorem exec_sound (hdb : db.Sound n') (h : x.Sound db n) (hy : x.exec db others n = .next y) : y.Sound db n ∧ x.Takes others y := by
  unfold Session.exec at hy
  split at hy
  case h_1 =>
    split at hy
    case h_4 => cases hy
    all_goals exact find_sound h hy
  case h_2 => exact first_sound h hy
  case h_3 hp =>
    split at hy
    case h_1 => exact insertHold_sound h hp hy
    case h_2 => exact insertGrant_sound h hp hy
    case h_3 hop => exact insertGrantTicket_sound h hp hop hy
    case h_4 => cases hy
  case h_4 hp =>
    split at hy
    case h_1 hop => exact claimDownload_sound hdb h hp hop hy
    case h_2 => cases hy
  case h_5 hp =>
    split at hy
    case h_1 hc => exact revokeTickets_sound h hp hc hy
    case h_2 => cases hy
  case h_6 hp => exact revokeTicket_sound h hp hy
  case h_7 hp =>
    have hstage := h.stage
    unfold Session.Stage at hstage
    rw [hp] at hstage
    obtain ⟨c, hwrote, hint, hends⟩ := hstage
    rw [hwrote.change, Option.bind_some] at hy
    cases hi : c.intent with
    | none =>
      rw [hi] at hy
      cases hy
      exact ⟨⟨h.fresh, c, hwrote.go, by rw [hi]; exact hint, hends⟩, .of_locks rfl rfl rfl⟩
    | some i =>
      rw [hi] at hy
      cases hy
      exact ⟨⟨h.fresh, c, hwrote.go, hends⟩, .of_locks rfl rfl rfl⟩
  case h_8 hp =>
    have hstage := h.stage
    unfold Session.Stage at hstage
    rw [hp] at hstage
    obtain ⟨c, hwrote, hends⟩ := hstage
    cases hy
    refine ⟨⟨h.fresh, c, ⟨hwrote.change, hwrote.ready.mono rfl rfl fun _ hi => hi, hwrote.locked⟩, ?_, hends⟩, .of_locks rfl rfl rfl⟩
    dsimp only
    rw [hwrote.change]
    rfl
  case h_9 => cases hy

end

end NawaraCore.FileAccess
