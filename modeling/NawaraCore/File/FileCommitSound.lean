import NawaraCore.File.FileAccessSound

/-!
# Access to a file is cut cleanly

A commit publishes its change, its tickets and its audit intent together, keeps the law, and
leaves what the other sessions have locked as they checked it.
-/

namespace NawaraCore.FileAccess

variable {t : Ticket}
variable {g : Grant}

section
variable {db : FileDb} {n m k : Nat} {x z : Session} {c d : Change}

section
variable (hw : x.Wrote db m c)
include hw

theorem Session.Wrote.writes : x.writes = ⟨some c, x.writes.revoked, x.writes.intents⟩ := by
  rw [← hw.change]

theorem mem_tickets_apply :
    t ∈ (db.apply x.writes).tickets ↔ (∃ u ∈ db.tickets, u.after x.writes = t) ∨ c.ticket = some t := by
  rw [hw.writes]
  simp [FileDb.apply]

theorem mem_grants_apply :
    g ∈ (db.apply x.writes).grants ↔ (∃ h ∈ db.grants, h.after x.writes = g) ∨ c.grant = some g := by
  rw [hw.writes]
  simp [FileDb.apply]

theorem mem_history_apply {a : Change} : a ∈ (db.apply x.writes).history ↔ a ∈ db.history ∨ a = c := by
  rw [hw.writes]
  simp [FileDb.apply]

theorem status_apply : (db.apply x.writes).status = c.status.getD db.status := by
  rw [hw.writes]
  rfl

theorem attached_apply : (db.apply x.writes).attached = (db.attached || c.attaches) := by
  rw [hw.writes]
  rfl

theorem Grant.after_revoked : (g.after x.writes).revoked = (g.revoked || decide (c = .grantRevoked g.id)) := by
  rw [hw.writes]
  simp [Grant.after]

end

theorem Ticket.after_revoked {w : Writes} : (t.after w).revoked = true ↔ t.revoked ∨ t.id ∈ w.revoked := by
  simp [Ticket.after]

theorem grant_kept (hw : x.Wrote db m c) (hg : g ∈ db.grants) : g.after x.writes ∈ (db.apply x.writes).grants :=
  (mem_grants_apply hw).mpr (.inl ⟨g, hg, rfl⟩)

theorem held_apply (hw : x.Wrote db m c) (h : (db.apply x.writes).held) : db.held ∨ ∃ p, c = .holdPlaced p := by
  rw [hw.writes] at h
  obtain ⟨p, hp, hr⟩ := List.any_eq_true.mp h
  simp only [FileDb.apply, Option.bind_some, List.mem_append, not_or, decide_eq_true_eq] at hp hr
  rcases hp with hp | hp
  · exact .inl (List.any_eq_true.mpr ⟨p, hp, decide_eq_true hr.1⟩)
  · cases c
    case holdPlaced p' => exact .inr ⟨p', rfl⟩
    all_goals cases hp

theorem Change.Ready.status_none (hc : c.Ready db m x) (hl : x.fileLock ≠ some .update) : c.status = none ∧ c.attaches = false := by
  cases c
  case completed => exact absurd hc.1 hl
  case refused => exact absurd hc.1 hl
  case attached => exact absurd hc.1 hl
  case deleting => exact absurd hc.1 hl
  case deleted => exact absurd hc.1 hl
  all_goals exact ⟨rfl, rfl⟩

/-! ## The law -/

theorem gone_eq : db.gone = true ↔ db.status = .deleting ∨ db.status = .deleted := by
  simp [FileDb.gone]

theorem gone_apply (hw : x.Wrote db m c) : (db.apply x.writes).gone = true ↔ db.gone ∨ ∃ expired, c = .deleting expired := by
  have hc := hw.ready
  rw [gone_eq, gone_eq, status_apply hw]
  cases c
  case completed => simp [Change.status, hc.2]
  case refused status =>
    rcases hc.2.2 with rfl | rfl
    all_goals simp [Change.status, hc.2.1]
  case deleting => simp [Change.status]
  case deleted => simp [Change.status, hc.2]
  all_goals simp [Change.status]

theorem Change.Ready.uses (hL : AccessLaw db) (hc : c.Ready db m x) (hu : c.uses) : db.gone = false := by
  rw [Bool.eq_false_iff]
  intro hg
  have hgone := gone_eq.mp hg
  cases c
  case attached => rcases hc.2 with hs | hs <;> simp [hs] at hgone
  case deleting => simp [hc.2.1] at hgone
  case holdPlaced => simp [hc.2] at hgone
  case grantIssued => simp [hc.2.1] at hgone
  case ticketIssued => simp [hc.2.1] at hgone
  case granted => simp [hc.2.1] at hgone
  case redeemed t now =>
    have hr := hL.tickets hg t hc.2.1
    rw [hc.2.2.1] at hr
    cases hr
  all_goals cases hu

variable {i : Nat}

theorem Change.Ready.through (hL : db.Sound n) (hc : c.Ready db m x) (ht : c.through = some i) : .grantRevoked i ∉ db.history := by
  intro hi
  have hlive : ∀ g ∈ db.grants, g.id = i → g.revoked = true := fun g hg hid => (hL.law.revokedGrants g hg).mpr (hid.symm ▸ hi)
  cases c
  case ticketIssued t =>
    obtain ⟨-, g, hg, hid, hr, -⟩ := hc.2.2.2 i ht
    rw [hlive g hg hid] at hr
    cases hr
  case granted =>
    obtain rfl := Option.some.inj ht
    obtain ⟨-, -, -, g, hg, hid, hr, -⟩ := hc
    rw [hlive g hg hid] at hr
    cases hr
  case redeemed t now =>
    obtain ⟨g, hg, hid⟩ := hL.revoked i hi
    have hr := hL.law.grantTickets t hc.2.1 g hg (hid.symm ▸ ht) (hlive g hg hid)
    rw [hc.2.2.1] at hr
    cases hr
  all_goals cases ht

theorem Change.Ready.uncut (hL : db.Sound n) (hc : c.Ready db m x) {a : Change} (ha : a ∈ db.history) : ¬ a.cuts c := by
  rintro (⟨⟨expired, rfl⟩, hu⟩ | ⟨i, rfl, ht⟩ | ⟨hatt, rfl⟩)
  · have hg := hc.uses hL.law hu
    rw [hL.law.deleting.mpr ⟨expired, ha⟩] at hg
    cases hg
  · exact hc.through hL ht ha
  · have hno := hc.2.2.2 rfl
    rw [hL.law.attached ⟨a, ha, hatt⟩] at hno
    cases hno

theorem apply_held (hL : AccessLaw db) (hw : x.Wrote db m c) (h : (db.apply x.writes).held) : (db.apply x.writes).status = .available := by
  have hc := hw.ready
  rw [status_apply hw]
  rcases held_apply hw h with hheld | ⟨p, rfl⟩
  · have hav := hL.held hheld
    cases c
    case completed => rfl
    case refused => exact absurd (hc.2.1.symm.trans hav) (by decide)
    case deleting =>
      have hno := hc.2.2.1
      rw [hheld] at hno
      cases hno
    case deleted => exact absurd (hc.2.symm.trans hav) (by decide)
    all_goals exact hav
  · exact hc.2

theorem ended (hends : x.Ends db c []) (ht : t ∈ db.tickets) (he : c.ends t) : (t.after x.writes).revoked := by
  rcases hends t ht he with hr | hr | hr
  · exact Ticket.after_revoked.mpr (.inl hr)
  · cases hr
  · exact Ticket.after_revoked.mpr (.inr hr)

theorem apply_tickets (hL : AccessLaw db) (hw : x.Wrote db m c) (hends : x.Ends db c []) (hg : (db.apply x.writes).gone)
    (ht : t ∈ (db.apply x.writes).tickets) : t.revoked := by
  rcases (mem_tickets_apply hw).mp ht with ⟨u, hu, rfl⟩ | hnew
  · rcases (gone_apply hw).mp hg with hgone | ⟨expired, rfl⟩
    · exact Ticket.after_revoked.mpr (.inl (hL.tickets hgone u hu))
    · exact ended hends hu rfl
  · cases c
    case ticketIssued =>
      rcases (gone_apply hw).mp hg with hgone | ⟨expired, he⟩
      · rw [hw.ready.uses hL rfl] at hgone
        cases hgone
      · cases he
    all_goals cases hnew

theorem apply_grantTickets (hL : db.Sound n) (hw : x.Wrote db m c) (hends : x.Ends db c []) (ht : t ∈ (db.apply x.writes).tickets)
    (hg : g ∈ (db.apply x.writes).grants) (hid : t.grantId = some g.id) (hr : g.revoked) : t.revoked := by
  rcases (mem_grants_apply hw).mp hg with ⟨h, hh, rfl⟩ | hnew
  · rw [Grant.after_revoked hw, Bool.or_eq_true, decide_eq_true_eq] at hr
    rcases (mem_tickets_apply hw).mp ht with ⟨u, hu, rfl⟩ | htnew
    · rcases hr with hr | rfl
      · exact Ticket.after_revoked.mpr (.inl (hL.law.grantTickets u hu h hh hid hr))
      · exact ended hends hu (decide_eq_true hid)
    · have hthrough : c.through = some h.id := by
        cases c
        case ticketIssued => exact Option.some.inj htnew ▸ hid
        all_goals cases htnew
      rcases hr with hr | rfl
      · exact absurd ((hL.law.revokedGrants h hh).mp hr) (hw.ready.through hL hthrough)
      · cases hthrough
  · cases c
    case grantIssued =>
      obtain rfl := Option.some.inj hnew
      rw [hw.ready.2.2.2] at hr
      cases hr
    all_goals cases hnew

theorem apply_lifetime (hL : AccessLaw db) (hw : x.Wrote db m c) (ht : t ∈ (db.apply x.writes).tickets) (hi : t.grantId = some i) :
    ∃ g ∈ (db.apply x.writes).grants, g.id = i ∧ t.expiresAt ≤ g.expiresAt := by
  rcases (mem_tickets_apply hw).mp ht with ⟨u, hu, rfl⟩ | hnew
  · obtain ⟨g, hg, hid, hle⟩ := hL.lifetime u hu i hi
    exact ⟨_, grant_kept hw hg, hid, hle⟩
  · cases c
    case ticketIssued =>
      obtain rfl := Option.some.inj hnew
      obtain ⟨-, g, hg, hid, -, hle⟩ := hw.ready.2.2.2 i hi
      exact ⟨_, grant_kept hw hg, hid, hle⟩
    all_goals cases hnew

theorem apply_redeemed (hL : AccessLaw db) (hw : x.Wrote db m c) {now : Int} (h : .redeemed t now ∈ (db.apply x.writes).history) :
    now < t.expiresAt ∧ ∀ i, t.grantId = some i → ∃ g ∈ (db.apply x.writes).grants, g.id = i ∧ now < g.expiresAt := by
  have hold : now < t.expiresAt ∧ ∀ i, t.grantId = some i → ∃ g ∈ db.grants, g.id = i ∧ now < g.expiresAt := by
    rcases (mem_history_apply hw).mp h with ha | rfl
    · exact hL.redeemed t now ha
    · exact ⟨hw.ready.2.2.2.1, hw.ready.2.2.2.2⟩
  refine ⟨hold.1, fun i hi => ?_⟩
  obtain ⟨g, hg, hid, hlt⟩ := hold.2 i hi
  exact ⟨_, grant_kept hw hg, hid, hlt⟩

theorem apply_granted (hL : AccessLaw db) (hw : x.Wrote db m c) {now : Int} (h : .granted i now ∈ (db.apply x.writes).history) :
    ∃ g ∈ (db.apply x.writes).grants, g.id = i ∧ now < g.expiresAt := by
  have hold : ∃ g ∈ db.grants, g.id = i ∧ now < g.expiresAt := by
    rcases (mem_history_apply hw).mp h with ha | rfl
    · exact hL.granted i now ha
    · obtain ⟨-, -, -, g, hg, hid, -, hlt⟩ := hw.ready
      exact ⟨g, hg, hid, hlt⟩
  obtain ⟨g, hg, hid, hlt⟩ := hold
  exact ⟨_, grant_kept hw hg, hid, hlt⟩

theorem apply_revokedGrants (hL : db.Sound n) (hw : x.Wrote db m c) (hfresh : ∀ g ∈ db.grants, g.id ≠ m)
    (hg : g ∈ (db.apply x.writes).grants) : g.revoked ↔ .grantRevoked g.id ∈ (db.apply x.writes).history := by
  rw [mem_history_apply hw]
  rcases (mem_grants_apply hw).mp hg with ⟨h, hh, rfl⟩ | hnew
  · rw [Grant.after_revoked hw, Bool.or_eq_true, decide_eq_true_eq, hL.law.revokedGrants h hh, eq_comm (a := c)]
    rfl
  · cases c
    case grantIssued =>
      obtain rfl := Option.some.inj hnew
      obtain ⟨-, -, hid, hr⟩ := hw.ready
      rw [hr]
      refine ⟨fun h => (by cases h), ?_⟩
      rintro (hi | he)
      · obtain ⟨g', hg', he⟩ := hL.revoked _ hi
        exact absurd (he.trans hid) (hfresh g' hg')
      · cases he
    all_goals cases hnew

theorem ids_apply (hw : x.Wrote db m c) :
    (db.apply x.writes).tickets.map Ticket.id = db.tickets.map Ticket.id ++ (c.ticket.map Ticket.id).toList ∧
      (db.apply x.writes).grants.map Grant.id = db.grants.map Grant.id ++ (c.grant.map Grant.id).toList := by
  rw [hw.writes]
  unfold FileDb.apply
  dsimp only
  rw [List.map_append, List.map_append, List.map_map, List.map_map]
  refine ⟨congrArg₂ _ rfl ?_, congrArg₂ _ rfl ?_⟩
  · cases h : c.ticket <;> simp [h]
  · cases h : c.grant <;> simp [h]

theorem apply_listed {α : Type*} {l : List α} {f : Change → Option α} (hw : x.Wrote db m c) (h : l = db.history.filterMap f) :
    l ++ (f c).toList = (db.apply x.writes).history.filterMap f := by
  rw [hw.writes]
  unfold FileDb.apply
  dsimp only
  rw [List.filterMap_append, ← h]
  cases hf : f c <;> simp [hf]

theorem AccessLaw.apply (hL : db.Sound n) (hfresh : ∀ g ∈ db.grants, g.id ≠ m) (hw : x.Wrote db m c) (hint : x.writes.intents = c.intent.toList)
    (hends : x.Ends db c []) : AccessLaw (db.apply x.writes) where
  held := apply_held hL.law hw
  cut := by
    rw [hw.writes]
    refine List.pairwise_append.mpr ⟨hL.law.cut, List.pairwise_singleton _ _, fun a ha b hb => ?_⟩
    obtain rfl := List.mem_singleton.mp hb
    exact hw.ready.uncut hL ha
  tickets hg _ ht := apply_tickets hL.law hw hends hg ht
  grantTickets _ ht _ hg hid hr := apply_grantTickets hL hw hends ht hg hid hr
  lifetime _ ht _ hi := apply_lifetime hL.law hw ht hi
  redeemed _ _ h := apply_redeemed hL.law hw h
  granted _ _ h := apply_granted hL.law hw h
  deleting := by
    rw [gone_apply hw, hL.law.deleting]
    simp only [mem_history_apply hw, exists_or, eq_comm]
  revokedGrants _ hg := apply_revokedGrants hL hw hfresh hg
  attached := by
    rintro ⟨a, ha, hatt⟩
    rw [attached_apply hw, Bool.or_eq_true]
    rcases (mem_history_apply hw).mp ha with ha | rfl
    · exact .inl (hL.law.attached ⟨a, ha, hatt⟩)
    · exact .inr hatt
  holds := by
    rw [← apply_listed hw hL.law.holds, hw.writes]
    rfl
  releases := by
    rw [← apply_listed hw hL.law.releases, hw.writes]
    rfl
  grantIds := by
    rw [(ids_apply hw).2, List.map_filterMap]
    exact apply_listed (f := fun c => c.grant.map Grant.id) hw (by rw [hL.law.grantIds, List.map_filterMap])
  ticketIds := by
    rw [(ids_apply hw).1, List.map_filterMap]
    exact apply_listed (f := fun c => c.ticket.map Ticket.id) hw (by rw [hL.law.ticketIds, List.map_filterMap])
  audited := by
    rw [← apply_listed hw hL.law.audited, ← hint]
    rfl

theorem FileDb.Sound.apply (hL : db.Sound n) (hm : m < n) (hx : x.Sound db m) (hw : x.Wrote db m c) (hint : x.writes.intents = c.intent.toList)
    (hends : x.Ends db c []) : (db.apply x.writes).Sound n where
  law := .apply hL hx.fresh.2 hw hint hends
  tickets := by
    constructor
    · rw [(ids_apply hw).1]
      cases c
      case ticketIssued t =>
        refine hL.tickets.1.append (List.nodup_singleton _) (List.disjoint_singleton.mpr fun hmem => ?_)
        obtain ⟨u, hu, hid⟩ := List.mem_map.mp hmem
        exact hx.fresh.1 u hu (hid.trans hw.ready.2.2.1)
      all_goals exact (List.append_nil _).symm ▸ hL.tickets.1
    · intro t ht
      rcases (mem_tickets_apply hw).mp ht with ⟨u, hu, rfl⟩ | hnew
      · exact hL.tickets.2 u hu
      · cases c
        case ticketIssued =>
          obtain rfl := Option.some.inj hnew
          exact hw.ready.2.2.1 ▸ hm
        all_goals cases hnew
  grants g hg := by
    rcases (mem_grants_apply hw).mp hg with ⟨h, hh, rfl⟩ | hnew
    · exact hL.grants h hh
    · cases c
      case grantIssued =>
        obtain rfl := Option.some.inj hnew
        exact hw.ready.2.2.1 ▸ hm
      all_goals cases hnew
  revoked i hi := by
    have hold : ∃ g ∈ db.grants, g.id = i := by
      rcases (mem_history_apply hw).mp hi with ha | rfl
      · exact hL.revoked i ha
      · exact hw.ready.2
    obtain ⟨g, hg, hid⟩ := hold
    exact ⟨_, grant_kept hw hg, hid⟩

/-! ## The other sessions -/

section
variable (hw : x.Wrote db m c)
include hw

theorem status_after (ha : z.Apart x) {l : Lock} (hz : z.fileLock = some l) :
    (db.apply x.writes).status = db.status ∧ (db.apply x.writes).attached = db.attached := by
  have hno : x.fileLock ≠ some .update := fun hx => by cases (ha.file l .update hz hx).2
  obtain ⟨hs, hatt⟩ := hw.ready.status_none hno
  rw [status_apply hw, attached_apply hw, hs, hatt, Bool.or_false]
  exact ⟨rfl, rfl⟩

theorem grant_after (ha : z.Apart x) {l : Lock} (hz : z.grantLock = some (i, l)) (hg : g.id = i)
    (hr : g.revoked = false) : (g.after x.writes).revoked = false := by
  rw [Grant.after_revoked hw, hr, Bool.false_or, decide_eq_false_iff_not]
  rintro rfl
  have hx := hw.ready.1
  rw [hg] at hx
  cases (ha.grant i l .update hz hx).2

theorem held_after (ha : z.Apart x) (hz : z.fileLock = some .update) (h : db.held = false) : (db.apply x.writes).held = false := by
  rw [Bool.eq_false_iff]
  intro hheld
  rcases held_apply hw hheld with hold | ⟨p, rfl⟩
  · rw [h] at hold
    cases hold
  · cases (ha.file .update .share hz hw.ready.1).1

theorem ticket_after (ha : z.Apart x) (hz : t.id ∈ z.ticketLocks) : t.after x.writes = t := by
  have hfree := ha.ticket _ hz
  have hr : t.id ∉ x.writes.revoked := fun hmem => hfree (hw.locked _ hmem)
  have hc : c.redeems t.id = false := by
    cases c
    case redeemed u now =>
      refine decide_eq_false fun he => hfree ?_
      exact he ▸ hw.ready.1
    all_goals rfl
  unfold Ticket.after
  rw [hw.change]
  simp [hr, hc]

end

theorem Change.Ready.after (hd : d.Ready db k z) (hw : x.Wrote db m c) (ha : z.Apart x) : d.Ready (db.apply x.writes) k z := by
  cases d
  case completed => exact ⟨hd.1, (status_after hw ha hd.1).1.trans hd.2⟩
  case refused => exact ⟨hd.1, (status_after hw ha hd.1).1.trans hd.2.1, hd.2.2⟩
  case attached =>
    refine ⟨hd.1, ?_⟩
    rw [(status_after hw ha hd.1).1]
    exact hd.2
  case deleting =>
    obtain ⟨hs, hatt⟩ := status_after hw ha hd.1
    exact ⟨hd.1, hs.trans hd.2.1, held_after hw ha hd.1 hd.2.2.1, fun he => hatt.trans (hd.2.2.2 he)⟩
  case deleted => exact ⟨hd.1, (status_after hw ha hd.1).1.trans hd.2⟩
  case holdPlaced => exact ⟨hd.1, (status_after hw ha hd.1).1.trans hd.2⟩
  case holdReleased => trivial
  case grantIssued => exact ⟨hd.1, (status_after hw ha hd.1).1.trans hd.2.1, hd.2.2⟩
  case grantRevoked =>
    obtain ⟨hl, g, hg, hid⟩ := hd
    exact ⟨hl, _, grant_kept hw hg, hid⟩
  case ticketIssued =>
    refine ⟨hd.1, (status_after hw ha hd.1).1.trans hd.2.1, hd.2.2.1, fun i hi => ?_⟩
    obtain ⟨hl, g, hg, hid, hr, hle⟩ := hd.2.2.2 i hi
    exact ⟨hl, _, grant_kept hw hg, hid, grant_after hw ha hl hid hr, hle⟩
  case redeemed t now =>
    obtain ⟨hl, ht, hr, hlt, hgrant⟩ := hd
    refine ⟨hl, (mem_tickets_apply hw).mpr (.inl ⟨t, ht, ticket_after hw ha hl⟩), hr, hlt, fun i hi => ?_⟩
    obtain ⟨g, hg, hid, hlt⟩ := hgrant i hi
    exact ⟨_, grant_kept hw hg, hid, hlt⟩
  case granted =>
    obtain ⟨hf, hs, hl, g, hg, hid, hr, hlt⟩ := hd
    exact ⟨hf, (status_after hw ha hf).1.trans hs, hl, _, grant_kept hw hg, hid, grant_after hw ha hl hid hr, hlt⟩

theorem Session.Ends.after {todo : List Nat} (h : z.Ends db d todo) (hd : d.Ready db k z) (hw : x.Wrote db m c) (ha : z.Apart x) :
    z.Ends (db.apply x.writes) d todo := by
  intro t ht he
  rcases (mem_tickets_apply hw).mp ht with ⟨u, hu, rfl⟩ | hnew
  · have heu : d.ends u := by
      cases d
      case deleting => rfl
      case grantRevoked => exact he
      all_goals cases he
    rcases h u hu heu with hr | hr
    · exact .inl (Ticket.after_revoked.mpr (.inl hr))
    · exact .inr hr
  · cases c
    case ticketIssued =>
      obtain rfl := Option.some.inj hnew
      obtain ⟨hf, -, -, hgrant⟩ := hw.ready
      cases d
      case deleting => cases (ha.file .update .share hd.1 hf).1
      case grantRevoked i => cases (ha.grant i .update .share hd.1 (hgrant i (of_decide_eq_true he)).1).1
      all_goals cases he
    all_goals cases hnew

theorem Session.Wrote.after (h : z.Wrote db k d) (hw : x.Wrote db m c) (ha : z.Apart x) : z.Wrote (db.apply x.writes) k d :=
  ⟨h.change, h.ready.after hw ha, h.locked⟩

theorem Session.Sound.after (h : z.Sound db k) (hk : k ≠ m) (hw : x.Wrote db m c) (ha : z.Apart x) : z.Sound (db.apply x.writes) k where
  fresh := by
    constructor
    · intro t ht
      rcases (mem_tickets_apply hw).mp ht with ⟨u, hu, rfl⟩ | hnew
      · exact h.fresh.1 u hu
      · cases c
        case ticketIssued =>
          obtain rfl := Option.some.inj hnew
          exact hw.ready.2.2.1 ▸ Ne.symm hk
        all_goals cases hnew
    · intro g hg
      rcases (mem_grants_apply hw).mp hg with ⟨g', hg', rfl⟩ | hnew
      · exact h.fresh.2 g' hg'
      · cases c
        case grantIssued =>
          obtain rfl := Option.some.inj hnew
          exact hw.ready.2.2.1 ▸ Ne.symm hk
        all_goals cases hnew
  stage := by
    have hstage := h.stage
    unfold Session.Stage at hstage ⊢
    split
    case h_1 => trivial
    case h_2 => trivial
    case h_3 hp =>
      rw [hp] at hstage
      exact ⟨hstage.1, (status_after hw ha hstage.1).1.trans hstage.2.1, hstage.2.2⟩
    case h_4 hp =>
      rw [hp] at hstage
      intro ticket maxUses hop
      obtain ⟨t, ht, hid, hgrant⟩ := hstage ticket maxUses hop
      refine ⟨_, (mem_tickets_apply hw).mpr (.inl ⟨t, ht, rfl⟩), hid, fun i hi => ?_⟩
      obtain ⟨g, hg, hid, hlt⟩ := hgrant i hi
      exact ⟨_, grant_kept hw hg, hid, hlt⟩
    case h_5 hp =>
      rw [hp] at hstage
      obtain ⟨d, hd, hint⟩ := hstage
      exact ⟨d, hd.after hw ha, hint⟩
    case h_6 hp =>
      rw [hp] at hstage
      obtain ⟨d, hd, hint, hends⟩ := hstage
      exact ⟨d, hd.after hw ha, hint, hends.after hd.ready hw ha⟩
    case h_7 hp =>
      rw [hp] at hstage
      obtain ⟨d, hd, hends⟩ := hstage
      exact ⟨d, hd.after hw ha, hends.after hd.ready hw ha⟩
    case h_8 hp =>
      rw [hp] at hstage
      obtain ⟨d, hd, hint, hends⟩ := hstage
      exact ⟨d, hd.after hw ha, hint, hends.after hd.ready hw ha⟩

/-! ## Runs -/

theorem Session.Wrote.elapse {clock : Int} (h : z.Wrote db k d) : z.Wrote { db with clock } k d where
  change := h.change
  ready := by
    have hd := h.ready
    cases d
    all_goals exact hd
  locked := h.locked

theorem Session.Sound.elapse {clock : Int} (h : z.Sound db k) : z.Sound { db with clock } k where
  fresh := h.fresh
  stage := by
    have hstage := h.stage
    unfold Session.Stage at hstage ⊢
    split
    case h_1 => trivial
    case h_2 => trivial
    case h_3 hp =>
      rw [hp] at hstage
      exact hstage
    case h_4 hp =>
      rw [hp] at hstage
      exact hstage
    all_goals
      rename_i hp
      rw [hp] at hstage
      obtain ⟨d, hd, hrest⟩ := hstage
      exact ⟨d, hd.elapse, hrest⟩

theorem fileAccess_keeps : fileAccess.Keeps FileDb.Sound (fun db m x => x.Sound db m) Session.Apart fun _ _ _ => True where
  symm _ _ h := h.symm
  fresh _ _ h := {
    h with
    tickets := ⟨h.tickets.1, fun t ht => Nat.lt_succ_of_lt (h.tickets.2 t ht)⟩
    grants := fun g hg => Nat.lt_succ_of_lt (h.grants g hg) }
  start n db op x h hx := by
    cases hx
    refine ⟨⟨⟨fun t ht => Nat.ne_of_lt (h.tickets.2 t ht), fun g hg => Nat.ne_of_lt (h.grants g hg)⟩, ?_⟩, fun y => ⟨?_, ?_, ?_⟩⟩
    · cases op <;> trivial
    · exact fun _ _ hk => by cases hk
    · exact fun _ _ _ hk => by cases hk
    · exact nofun
  exec n db others m x y h hx hy := by
    obtain ⟨hsound, htakes⟩ := exec_sound h hx hy
    exact ⟨hsound, fun z hz hxz => htakes.apart hz hxz⟩
  commit n db m x db' y hm h hx _ hy := by
    change (if x.phase = .commit then some (db.apply x.writes, none) else none) = some (db', y) at hy
    split at hy
    · rename_i hp
      cases hy
      have hstage := hx.stage
      unfold Session.Stage at hstage
      rw [hp] at hstage
      obtain ⟨c, hw, hint, hends⟩ := hstage
      exact ⟨h.apply hm hx hw hint hends, fun _ hz => (by cases hz), fun k z hk hz ha => hz.after hk hw ha⟩
    · cases hy
  elapse n db e h := by
    exact ⟨⟨{ h.law with held := h.law.held }, h.tickets, h.grants, h.revoked⟩, fun m x hx => hx.elapse⟩

theorem FileDb.created_sound (scope : FileScope) (attachDeadline : Option Int) (attached : Bool) (clock : Int) :
    (FileDb.created scope attachDeadline attached clock).Sound 0 where
  law := {
    held := nofun
    cut := .nil
    tickets := nofun
    grantTickets := nofun
    lifetime := nofun
    redeemed := nofun
    granted := nofun
    deleting := ⟨nofun, fun ⟨_, h⟩ => (by cases h)⟩
    revokedGrants := nofun
    attached := fun ⟨_, ha, _⟩ => by cases ha
    holds := rfl
    releases := rfl
    grantIds := rfl
    ticketIds := rfl
    audited := rfl }
  tickets := ⟨List.nodup_nil, fun _ ht => by cases ht⟩
  grants _ hg := by cases hg
  revoked _ h := by cases h

theorem access_law (scope : FileScope) (attachDeadline : Option Int) (attached : Bool) (clock : Int) (actions : List (Transactions.Action Operation Nat)) :
    AccessLaw (fileAccess.run (.created scope attachDeadline attached clock) actions).db :=
  (Transactions.Inv.run (FileDb.created_sound scope attachDeadline attached clock) fileAccess_keeps actions).committed.law

end

end NawaraCore.FileAccess
