import Mathlib.Data.Fintype.Card
import NawaraCore.Billing.StaleScan

/-!
# Every stale request is reached

A sweep examines a position once, and a request has at most two positions while it is
`requested`. So a sweep ends, and what stays stale is examined before the next one does.
-/

namespace NawaraCore.StaleScan

open PaymentRequests (PaymentRequestStatus)

variable {cfg : ReconcileConfig} {s : Sys} {r x : PaymentRequestRow} {l : List ScanPosition} {now : Nat}

/-! ## The positions of a request -/

def idOf (p : ScanPosition) : Uuid := (ofLex p).2

def timeOf (p : ScanPosition) : Nat := (ofLex p).1

/-- What was examined of a request stood at the instant it became `requested`, or at that of its cancellation's request. -/
structure SeenAt (l : List ScanPosition) (r : PaymentRequestRow) (first : Nat) : Prop where
  times : ∀ p ∈ l, idOf p = r.id → timeOf p = first ∨ r.cancelRequestedAt = some (timeOf p)
  current : r.status = .requested → r.updatedAt = r.cancelRequestedAt.getD first
  unsent : r.status = .created ∨ r.status = .sending → r.cancelRequestedAt = none ∧ ∀ p ∈ l, idOf p ≠ r.id

variable {p : ScanPosition}

theorem eq_position {t : Nat} {id : Uuid} (ht : timeOf p = t) (hid : idOf p = id) : p = toLex (t, id) := by
  subst ht hid
  rfl

theorem SeenAt.positions {first : Nat} (h : SeenAt l r first) :
    ∃ ps : List ScanPosition, ps.length ≤ 2 ∧ (r.cancelRequestedAt = none → ps.length ≤ 1) ∧
      ∀ p ∈ l, idOf p = r.id → p ∈ ps := by
  cases hc : r.cancelRequestedAt with
  | none =>
    refine ⟨[toLex (first, r.id)], by simp, fun _ => by simp, fun p hp hid => ?_⟩
    rcases h.times p hp hid with ht | ht
    · rw [eq_position ht hid]
      exact List.mem_singleton_self _
    · rw [hc] at ht
      cases ht
  | some c =>
    refine ⟨[toLex (first, r.id), toLex (c, r.id)], by simp, fun hn => absurd hn (Option.some_ne_none c), fun p hp hid => ?_⟩
    rcases h.times p hp hid with ht | ht
    · rw [eq_position ht hid]
      exact List.mem_cons_self
    · rw [hc] at ht
      rw [eq_position (Option.some.inj ht).symm hid]
      exact List.mem_cons_of_mem _ (List.mem_singleton_self _)

theorem length_le_rows (hn : l.Nodup) : ∀ {rows : List PaymentRequestRow},
    (∀ p ∈ l, ∃ r ∈ rows, r.id = idOf p) → (∀ r ∈ rows, ∃ first, SeenAt l r first) → l.length ≤ 2 * rows.length := by
  intro rows howner hseen
  have hcover : ∀ rows : List PaymentRequestRow, (∀ r ∈ rows, ∃ first, SeenAt l r first) →
      ∃ ps : List ScanPosition, ps.length ≤ 2 * rows.length ∧ ∀ p ∈ l, (∃ r ∈ rows, r.id = idOf p) → p ∈ ps := by
    intro rows
    induction rows with
    | nil => exact fun _ => ⟨[], by simp, fun p _ ⟨r, hr, _⟩ => absurd hr List.not_mem_nil⟩
    | cons r rows ih =>
      intro hseen
      obtain ⟨ps, hlen, hps⟩ := ih fun r hr => hseen r (List.mem_cons_of_mem _ hr)
      obtain ⟨first, hfirst⟩ := hseen r List.mem_cons_self
      obtain ⟨qs, htwo, -, hqs⟩ := hfirst.positions
      refine ⟨qs ++ ps, ?_, fun p hp ⟨r', hr', hid⟩ => ?_⟩
      · rw [List.length_append, List.length_cons]
        omega
      · rcases List.mem_cons.mp hr' with rfl | hr'
        · exact List.mem_append_left _ (hqs p hp hid.symm)
        · exact List.mem_append_right _ (hps p hp ⟨r', hr', hid⟩)
  obtain ⟨ps, hlen, hps⟩ := hcover rows hseen
  have hsub : l ⊆ ps := fun p hp => hps p hp (howner p hp)
  exact (List.subperm_of_subset hn hsub).length_le.trans hlen

/-- The positions of a list increase, belong to requests, and are among the two of each. -/
structure Examined (rows : List PaymentRequestRow) (l : List ScanPosition) : Prop where
  increasing : l.Pairwise (· < ·)
  owner : ∀ p ∈ l, ∃ r ∈ rows, r.id = idOf p
  seen : ∀ r ∈ rows, ∃ first, SeenAt l r first

structure Inv (s : Sys) : Prop where
  ids : (s.rows.map (·.id)).Nodup
  sweep : Examined s.rows s.sweep
  cursor : ∀ p ∈ s.sweep, ∃ c, s.cursor = some c ∧ p ≤ c

theorem Examined.length_le (h : Examined s.rows l) : l.length ≤ 2 * s.rows.length :=
  length_le_rows (h.increasing.imp ne_of_lt) h.owner h.seen

variable {rows : List PaymentRequestRow}

theorem Examined.nil (h : Examined rows l) : Examined rows [] := by
  refine ⟨List.Pairwise.nil, fun p hp => absurd hp List.not_mem_nil, fun r hr => ?_⟩
  obtain ⟨first, hfirst⟩ := h.seen r hr
  exact ⟨first, fun p hp => absurd hp List.not_mem_nil, hfirst.current,
    fun hst => ⟨(hfirst.unsent hst).1, fun p hp => absurd hp List.not_mem_nil⟩⟩

/-! ## Writes -/

theorem Write.apply_id {w : Write} {started : Nat} (h : w.apply started r = some x) : x.id = r.id := by
  cases w <;> simp only [Write.apply, Option.ite_none_right_eq_some] at h <;> rw [← Option.some.inj h.2]

theorem Write.seen {w : Write} {started first : Nat} (h : w.apply started r = some x) (hr : SeenAt l r first) :
    ∃ first', SeenAt l x first' := by
  cases w with
  | move status paymentId =>
    simp only [Write.apply, Option.ite_none_right_eq_some] at h
    obtain ⟨hmove, h⟩ := h
    obtain rfl := Option.some.inj h
    by_cases hto : status = .requested
    · -- only an unsent request becomes `requested`: nothing of it was examined
      have hsending : r.status = .sending := by
        subst hto
        revert hmove
        cases r.status <;> decide
      obtain ⟨hnone, hunseen⟩ := hr.unsent (.inr hsending)
      refine ⟨started, fun p hp hid => absurd hid (hunseen p hp), fun _ => ?_, fun hst => ?_⟩
      · show started = r.cancelRequestedAt.getD started
        rw [hnone]
        rfl
      · subst hto
        rcases hst with hst | hst <;> cases hst
    · refine ⟨first, hr.times, fun hst => absurd hst hto, fun hst => ?_⟩
      have hfrom : r.status = .created := by
        rcases hst with rfl | rfl
        · revert hmove
          cases r.status <;> decide
        · revert hmove
          cases r.status <;> decide
      exact hr.unsent (.inl hfrom)
  | renew =>
    simp only [Write.apply, Option.ite_none_right_eq_some] at h
    obtain ⟨hsending, h⟩ := h
    obtain rfl := Option.some.inj h
    exact ⟨first, hr.times, fun hst => absurd (hsending.symm.trans hst) (by decide), hr.unsent⟩
  | markCancelRequested =>
    simp only [Write.apply, Option.ite_none_right_eq_some] at h
    obtain ⟨⟨hrequested, -, hnone⟩, h⟩ := h
    obtain rfl := Option.some.inj h
    refine ⟨first, fun p hp hid => ?_, fun _ => rfl, fun hst => ?_⟩
    · rcases hr.times p hp hid with ht | ht
      · exact .inl ht
      · rw [hnone] at ht
        cases ht
    · have hst : r.status = .created ∨ r.status = .sending := hst
      rw [hrequested] at hst
      rcases hst with hst | hst <;> cases hst

theorem Inv.insert (h : Inv s) (id : Uuid) (started : Nat) : Inv (s.step cfg (.insert id started)) := by
  unfold Sys.step
  dsimp only
  split
  next => exact h
  next hfresh =>
    have hfresh : ∀ r ∈ s.rows, r.id ≠ id := by simpa using hfresh
    have hunseen : ∀ p ∈ s.sweep, idOf p ≠ id := by
      intro p hp hid
      obtain ⟨r, hr, hrid⟩ := h.sweep.owner p hp
      exact hfresh r hr (hrid.trans hid)
    refine ⟨nodup_append_row h.ids hfresh, ⟨h.sweep.increasing, fun p hp => ?_, fun r hr => ?_⟩, h.cursor⟩
    · obtain ⟨r, hr, hid⟩ := h.sweep.owner p hp
      exact ⟨r, List.mem_append_left _ hr, hid⟩
    · rcases mem_append_row hr with hr | rfl
      · exact h.sweep.seen r hr
      · refine ⟨started, fun p hp hid => absurd hid (hunseen p hp), fun hst => ?_, fun _ => ⟨rfl, hunseen⟩⟩
        cases hst

theorem Inv.write (h : Inv s) (id : Uuid) (started : Nat) (w : Write) : Inv (s.step cfg (.write id started w)) := by
  unfold Sys.step
  dsimp only
  split
  next => exact h
  next x hx =>
    obtain ⟨r, hfind, happly⟩ := Option.bind_eq_some_iff.mp hx
    have hr := List.mem_of_find?_eq_some hfind
    have hid := w.apply_id happly
    refine ⟨?_, ⟨h.sweep.increasing, fun p hp => ?_, fun y hy => ?_⟩, h.cursor⟩
    · have hkeys : (replaceRow (·.id) x s.rows).map (·.id) = s.rows.map (·.id) := map_replaceRow fun _ _ hk => hk
      rw [hkeys]
      exact h.ids
    · obtain ⟨y, hy, hyid⟩ := h.sweep.owner p hp
      by_cases hk : y.id = x.id
      · exact ⟨x, replaceRow_mem hy hk, hk.symm.trans hyid⟩
      · exact ⟨y, replaceRow_other hy hk, hyid⟩
    · rcases mem_replaceRow hy with rfl | ⟨hy, -⟩
      · obtain ⟨first, hfirst⟩ := h.sweep.seen r hr
        exact w.seen happly hfirst
      · exact h.sweep.seen y hy

/-! ## Passes -/

theorem mem_batch {now : Nat} (h : x ∈ s.batch cfg now) :
    x ∈ s.rows ∧ x.stale cfg now = true ∧ s.cursor.all (· < x.position) = true := by
  obtain ⟨hx, hafter⟩ := mem_of_mem_page h
  exact ⟨(List.mem_filter.mp hx).1, (List.mem_filter.mp hx).2, hafter⟩

theorem Inv.positions (h : Inv s) (now : Nat) : ((s.rows.filter (·.stale cfg now)).map (·.position)).Nodup := by
  have hrows : (s.rows.map (·.position)).Nodup := by
    refine List.Nodup.of_map (idOf ·) ?_
    rw [List.map_map]
    exact h.ids
  exact hrows.sublist (List.filter_sublist.map _)

theorem Inv.swept (h : Inv s) (now : Nat) : Examined s.rows (s.swept cfg now) := by
  refine ⟨?_, fun p hp => ?_, fun r hr => ?_⟩
  · refine List.pairwise_append.mpr ⟨h.sweep.increasing, ?_, fun p hp q hq => ?_⟩
    · exact List.pairwise_map.mpr (page_pairwise (h.positions now))
    · obtain ⟨c, hc, hle⟩ := h.cursor p hp
      obtain ⟨x, hx, rfl⟩ := List.mem_map.mp hq
      have hafter := (mem_batch hx).2.2
      rw [hc, Option.all_some, decide_eq_true_eq] at hafter
      exact lt_of_le_of_lt hle hafter
  · rcases List.mem_append.mp hp with hp | hp
    · exact h.sweep.owner p hp
    · obtain ⟨x, hx, rfl⟩ := List.mem_map.mp hp
      exact ⟨x, (mem_batch hx).1, rfl⟩
  · obtain ⟨first, hfirst⟩ := h.sweep.seen r hr
    -- a position that the page adds for the request is where its row stands
    have hadded : ∀ p ∈ (s.batch cfg now).map (·.position), idOf p = r.id → r.status = .requested ∧ timeOf p = r.updatedAt := by
      intro p hp hid
      obtain ⟨x, hx, rfl⟩ := List.mem_map.mp hp
      obtain ⟨hxr, hstale, -⟩ := mem_batch hx
      obtain rfl := eq_of_key h.ids hxr hr hid
      simp only [PaymentRequestRow.stale, decide_eq_true_eq] at hstale
      exact ⟨hstale.1, rfl⟩
    refine ⟨first, fun p hp hid => ?_, hfirst.current, fun hst => ⟨(hfirst.unsent hst).1, fun p hp hid => ?_⟩⟩
    · rcases List.mem_append.mp hp with hp | hp
      · exact hfirst.times p hp hid
      · obtain ⟨hrequested, ht⟩ := hadded p hp hid
        rw [ht, hfirst.current hrequested]
        cases hc : r.cancelRequestedAt with
        | none => exact .inl rfl
        | some c => exact .inr rfl
    · rcases List.mem_append.mp hp with hp | hp
      · exact (hfirst.unsent hst).2 p hp hid
      · rw [(hadded p hp hid).1] at hst
        rcases hst with hst | hst <;> cases hst

theorem Inv.pass (h : Inv s) (now : Nat) : Inv (s.step cfg (.pass now)) := by
  have hswept := @Inv.swept cfg s h now
  unfold Sys.step Sys.reconcileOnce
  dsimp only
  split
  next =>
    exact ⟨h.ids, h.sweep.nil, fun p hp => absurd hp List.not_mem_nil⟩
  next =>
    split
    next => exact h
    next last hlast =>
      refine ⟨h.ids, hswept, fun p hp => ⟨last.position, rfl, ?_⟩⟩
      obtain ⟨front, hfront⟩ := List.getLast?_eq_some_iff.mp hlast
      rcases List.mem_append.mp hp with hp | hp
      · obtain ⟨c, hc, hle⟩ := h.cursor p hp
        have hafter := (mem_batch (List.mem_of_getLast? hlast)).2.2
        rw [hc, Option.all_some, decide_eq_true_eq] at hafter
        exact hle.trans hafter.le
      · have hincreasing := (List.pairwise_append.mp hswept.increasing).2.1
        rw [hfront, List.map_append, List.map_singleton] at hincreasing hp
        rcases mem_append_row hp with hp | hp
        · exact ((List.pairwise_append.mp hincreasing).2.2 p hp _ (List.mem_singleton_self _)).le
        · exact hp.le

theorem Inv.step (h : Inv s) (e : Event) : Inv (s.step cfg e) := by
  cases e with
  | insert id started => exact h.insert id started
  | write id started w => exact h.write id started w
  | pass now => exact h.pass now

theorem Inv.run (h : Inv s) (es : List Event) : Inv (es.foldl (Sys.step cfg) s) := by
  induction es generalizing s with
  | nil => exact h
  | cons e es ih =>
    rw [List.foldl_cons]
    exact ih (h.step e)

theorem Inv.start : Inv Sys.start := by
  refine ⟨List.nodup_nil, ⟨List.Pairwise.nil, fun p hp => ?_, fun r hr => ?_⟩, fun p hp => ?_⟩
  · exact absurd hp List.not_mem_nil
  · exact absurd hr List.not_mem_nil
  · exact absurd hp List.not_mem_nil

/-! ## What waits -/

theorem rows_length_le_step (s : Sys) (e : Event) : s.rows.length ≤ (s.step cfg e).rows.length := by
  cases e with
  | insert id started =>
    simp only [Sys.step]
    split
    · exact Nat.le_refl _
    · simp
  | write id started w =>
    simp only [Sys.step]
    split
    · exact Nat.le_refl _
    · simp [replaceRow]
  | pass now =>
    simp only [Sys.step, Sys.reconcileOnce]
    split
    · exact Nat.le_refl _
    · split <;> exact Nat.le_refl _

theorem rows_length_le_run (s : Sys) (es : List Event) : s.rows.length ≤ (es.foldl (Sys.step cfg) s).rows.length := by
  induction es generalizing s with
  | nil => exact Nat.le_refl _
  | cons e es ih =>
    rw [List.foldl_cons]
    exact (rows_length_le_step s e).trans (ih _)

def Ahead (s : Sys) (r : PaymentRequestRow) : Prop := s.cursor.all (· < r.position) = true

theorem mem_examined_pass {es : List Event} :
    p ∈ examined cfg s (.pass now :: es) ↔ p ∈ (s.batch cfg now).map (·.position) ∨ p ∈ examined cfg (s.step cfg (.pass now)) es := by
  rw [examined, List.mem_append]

theorem Ahead.missed (ha : Ahead s r) (h : Inv s) (hb : 0 < cfg.batchSize) (hr : r ∈ s.rows) (hstale : r.stale cfg now = true)
    (hnot : r.position ∉ (s.batch cfg now).map (·.position)) :
    Ahead (s.step cfg (.pass now)) r ∧ (s.step cfg (.pass now)).sweep.length = s.sweep.length + cfg.batchSize := by
  have hmiss : r ∉ s.batch cfg now := fun hm => hnot (List.mem_map_of_mem hm)
  obtain ⟨hlen, last, hlast, hlt⟩ := page_passes (h.positions now) hb (List.mem_filter.mpr ⟨hr, hstale⟩) ha hmiss
  have hlen : (s.batch cfg now).length = cfg.batchSize := hlen
  have hlast : (s.batch cfg now).getLast? = some last := hlast
  have hstep : s.step cfg (.pass now) =
      { s with cursor := some last.position, sweep := s.sweep ++ (s.batch cfg now).map (·.position) } := by
    simp only [Sys.step, Sys.reconcileOnce]
    rw [if_neg (by omega), hlast]
  rw [hstep]
  refine ⟨?_, ?_⟩
  · show (some last.position).all (· < r.position) = true
    simpa using hlt
  · rw [List.length_append, List.length_map, hlen]

theorem pass_cases (s : Sys) (hb : 0 < cfg.batchSize) (now : Nat) :
    (s.step cfg (.pass now)).sweep.length = s.sweep.length + cfg.batchSize ∨ (s.step cfg (.pass now)).cursor = none ∧
      (s.step cfg (.pass now)).sweep = [] := by
  simp only [Sys.step, Sys.reconcileOnce]
  split
  next => exact .inr ⟨rfl, rfl⟩
  next hfull =>
    have hle : (s.batch cfg now).length ≤ cfg.batchSize := by
      unfold Sys.batch findStaleRequested page
      rw [List.length_take]
      exact Nat.min_le_left _ _
    split
    next hnone =>
      rw [List.getLast?_eq_none_iff.mp hnone] at hfull
      exact absurd hb (by simpa using hfull)
    next last hlast =>
      left
      rw [List.length_append, List.length_map]
      omega

theorem step_walk {e : Event} (he : ∀ now, e ≠ .pass now) : (s.step cfg e).cursor = s.cursor ∧ (s.step cfg e).sweep = s.sweep := by
  cases e with
  | insert id started =>
    simp only [Sys.step]
    split <;> exact ⟨rfl, rfl⟩
  | write id started w =>
    simp only [Sys.step]
    split <;> exact ⟨rfl, rfl⟩
  | pass now => exact absurd rfl (he now)

theorem step_quiet {e : Event} (he : ∀ now, e ≠ .pass now) (es : List Event) :
    examined cfg s (e :: es) = examined cfg (s.step cfg e) es ∧ passes (e :: es) = passes es := by
  cases e with
  | insert id started => exact ⟨rfl, by simp [passes]⟩
  | write id started w => exact ⟨rfl, by simp [passes]⟩
  | pass now => exact absurd rfl (he now)

theorem passes_cons (now : Nat) (es : List Event) : passes (.pass now :: es) = passes es + 1 := by
  simp [passes]

theorem Ahead.waits (hb : 0 < cfg.batchSize) : ∀ (es : List Event) {s : Sys}, Ahead s r → Inv s → StaysStale cfg r s es →
    r.position ∉ examined cfg s es →
    s.sweep.length + passes es * cfg.batchSize ≤ 2 * (es.foldl (Sys.step cfg) s).rows.length
  | [], s, _, h, _, _ => by
    have := h.sweep.length_le
    simpa [passes] using this
  | e :: es, s, ha, h, hst, hnot => by
    obtain ⟨⟨hr, hstale⟩, hst⟩ := hst
    rw [List.foldl_cons]
    by_cases he : ∃ now, e = .pass now
    · obtain ⟨now, rfl⟩ := he
      rw [mem_examined_pass, not_or] at hnot
      obtain ⟨ha', hlen⟩ := ha.missed h hb hr (hstale now rfl) hnot.1
      have ih := Ahead.waits hb es ha' (h.step _) hst hnot.2
      rw [passes_cons, Nat.succ_mul]
      omega
    · have he : ∀ now, e ≠ .pass now := fun now heq => he ⟨now, heq⟩
      obtain ⟨hcursor, hsweep⟩ := @step_walk cfg s e he
      obtain ⟨hexamined, hpasses⟩ := @step_quiet cfg s e he es
      rw [hexamined] at hnot
      have ha' : Ahead (s.step cfg e) r := by
        unfold Ahead
        rw [hcursor]
        exact ha
      have ih := Ahead.waits hb es ha' (h.step e) hst hnot
      rw [hsweep] at ih
      rw [hpasses]
      exact ih

theorem Inv.waits (hb : 0 < cfg.batchSize) : ∀ (es : List Event) {s : Sys}, Inv s → StaysStale cfg r s es →
    r.position ∉ examined cfg s es →
    s.sweep.length + passes es * cfg.batchSize ≤ 4 * (es.foldl (Sys.step cfg) s).rows.length + cfg.batchSize
  | [], s, h, _, _ => by
    have := h.sweep.length_le
    simp only [passes, List.countP_nil, List.foldl_nil, Nat.zero_mul]
    omega
  | e :: es, s, h, hst, hnot => by
    obtain ⟨⟨hr, hstale⟩, hst⟩ := hst
    rw [List.foldl_cons]
    by_cases he : ∃ now, e = .pass now
    · obtain ⟨now, rfl⟩ := he
      rw [mem_examined_pass, not_or] at hnot
      rw [passes_cons, Nat.succ_mul]
      rcases pass_cases s hb now with hlen | ⟨hcursor, hsweep⟩
      · have ih := Inv.waits hb es (h.step _) hst hnot.2
        omega
      · -- the walk starts over: the request is ahead of it
        have ha : Ahead (s.step cfg (.pass now)) r := by
          unfold Ahead
          rw [hcursor]
          rfl
        have hwait := ha.waits hb es (h.step _) hst hnot.2
        rw [hsweep, List.length_nil] at hwait
        have hbefore := h.sweep.length_le
        have hgrows := (@rows_length_le_step cfg s (.pass now)).trans (@rows_length_le_run cfg _ es)
        omega
    · have he : ∀ now, e ≠ .pass now := fun now heq => he ⟨now, heq⟩
      obtain ⟨-, hsweep⟩ := @step_walk cfg s e he
      obtain ⟨hexamined, hpasses⟩ := @step_quiet cfg s e he es
      rw [hexamined] at hnot
      have ih := Inv.waits hb es (h.step e) hst hnot
      rw [hsweep] at ih
      rw [hpasses]
      exact ih

/-! ## The whole walk -/

theorem Inv.rows_length_le (h : Inv s) : s.rows.length ≤ 2 ^ 128 := by
  have hcard := List.Nodup.length_le_card h.ids
  rwa [List.length_map, Fintype.card_fin] at hcard

theorem Examined.twice (h : Examined rows l) (id : Uuid) :
    (l.filter fun p => idOf p = id).length ≤ 2 ∧
      ∀ r ∈ rows, r.id = id → r.cancelRequestedAt = none → (l.filter fun p => idOf p = id).length ≤ 1 := by
  have hnodup : (l.filter fun p => idOf p = id).Nodup := (h.increasing.imp ne_of_lt).sublist List.filter_sublist
  have hcount : ∀ r ∈ rows, r.id = id → (l.filter fun p => idOf p = id).length ≤ 2 ∧
      (r.cancelRequestedAt = none → (l.filter fun p => idOf p = id).length ≤ 1) := by
    intro r hr hid
    obtain ⟨first, hfirst⟩ := h.seen r hr
    obtain ⟨ps, htwo, hone, hps⟩ := hfirst.positions
    have hsub : (l.filter fun p => idOf p = id) ⊆ ps := by
      intro p hp
      obtain ⟨hp, hpid⟩ := List.mem_filter.mp hp
      exact hps p hp ((of_decide_eq_true hpid).trans hid.symm)
    have hle := (List.subperm_of_subset hnodup hsub).length_le
    exact ⟨hle.trans htwo, fun hnone => hle.trans (hone hnone)⟩
  refine ⟨?_, fun r hr hid hnone => (hcount r hr hid).2 hnone⟩
  cases hl : l.filter fun p => idOf p = id with
  | nil => exact Nat.zero_le _
  | cons p ps =>
    obtain ⟨hp, hpid⟩ := List.mem_filter.mp (hl ▸ List.mem_cons_self : p ∈ l.filter fun p => idOf p = id)
    obtain ⟨r, hr, hrid⟩ := h.owner p hp
    rw [← hl]
    exact (hcount r hr (hrid.trans (of_decide_eq_true hpid))).1

/-- **What stays stale is examined, and a sweep examines a request once at each of its positions.** After any writes and passes,
a request that stays stale is examined before the passes' batches exceed four times the requests that there are; a sweep examines no
position twice, and a request a second time only after its cancellation was asked for. -/
theorem stale_scan (cfg : ReconcileConfig) (hb : 0 < cfg.batchSize) (past : List Event) :
    (∀ r es, StaysStale cfg r (past.foldl (Sys.step cfg) Sys.start) es →
      r.position ∉ examined cfg (past.foldl (Sys.step cfg) Sys.start) es →
      passes es * cfg.batchSize ≤ 4 * ((past ++ es).foldl (Sys.step cfg) Sys.start).rows.length + cfg.batchSize) ∧
    (∃ bound, ∀ r es, StaysStale cfg r (past.foldl (Sys.step cfg) Sys.start) es → bound ≤ passes es →
      r.position ∈ examined cfg (past.foldl (Sys.step cfg) Sys.start) es) ∧
    (∀ now, ((past.foldl (Sys.step cfg) Sys.start).swept cfg now).Nodup ∧
      ∀ id, (((past.foldl (Sys.step cfg) Sys.start).swept cfg now).filter fun p => idOf p = id).length ≤ 2 ∧
        ∀ r ∈ (past.foldl (Sys.step cfg) Sys.start).rows, r.id = id → r.cancelRequestedAt = none →
          (((past.foldl (Sys.step cfg) Sys.start).swept cfg now).filter fun p => idOf p = id).length ≤ 1) := by
  have hinv : Inv (past.foldl (Sys.step cfg) Sys.start) := Inv.start.run past
  generalize hs : past.foldl (Sys.step cfg) Sys.start = s at hinv
  have hwaits : ∀ r es, StaysStale cfg r s es → r.position ∉ examined cfg s es →
      passes es * cfg.batchSize ≤ 4 * (es.foldl (Sys.step cfg) s).rows.length + cfg.batchSize := by
    intro r es hst hnot
    have := hinv.waits hb es hst hnot
    omega
  refine ⟨fun r es hst hnot => ?_, ⟨4 * 2 ^ 128 + 2, fun r es hst hbound => ?_⟩, fun now => ?_⟩
  · rw [List.foldl_append, hs]
    exact hwaits r es hst hnot
  · by_contra hnot
    have hle := hwaits r es hst hnot
    have hrows := (@Inv.run cfg s hinv es).rows_length_le
    have hmul : (4 * 2 ^ 128 + 2) * cfg.batchSize ≤ passes es * cfg.batchSize := Nat.mul_le_mul_right _ hbound
    generalize 2 ^ 128 = most at hrows hmul
    have hone : 4 * most ≤ 4 * most * cfg.batchSize := Nat.le_mul_of_pos_right _ hb
    rw [Nat.add_mul] at hmul
    omega
  · have hswept := @Inv.swept cfg s hinv now
    exact ⟨hswept.increasing.imp ne_of_lt, hswept.twice⟩

/-! ## A cancellation asked for during a sweep -/

def oneByOne : ReconcileConfig := ⟨5, 1⟩

def requestedEvents : List Event :=
  [.insert 1 0, .write 1 0 (.move .sending 0), .write 1 1 (.move .requested 7)]

def cancelledEvents : List Event := requestedEvents ++ [.pass 10, .write 1 11 .markCancelRequested]

def staleRow : PaymentRequestRow := ⟨1, .requested, some 7, none, 1⟩

/-- **One sweep examines the request at both positions, and batches of no request examine nothing.** -/
theorem stale_scan_twice :
    (¬ ∀ (cfg : ReconcileConfig) (past : List Event) (now : Nat), 0 < cfg.batchSize →
      (((past.foldl (Sys.step cfg) Sys.start).swept cfg now).map idOf).Nodup) ∧
    ¬ ∀ (cfg : ReconcileConfig) (past : List Event), ∃ bound, ∀ r es,
      StaysStale cfg r (past.foldl (Sys.step cfg) Sys.start) es → bound ≤ passes es →
        r.position ∈ examined cfg (past.foldl (Sys.step cfg) Sys.start) es := by
  constructor
  · intro h
    exact absurd (h oneByOne cancelledEvents 20 (by decide)) (by decide +kernel)
  · intro h
    obtain ⟨bound, hbound⟩ := h ⟨5, 0⟩ requestedEvents
    have hrows : (requestedEvents.foldl (Sys.step ⟨5, 0⟩) Sys.start).rows = [staleRow] := by decide +kernel
    generalize requestedEvents.foldl (Sys.step ⟨5, 0⟩) Sys.start = s at hbound hrows
    have hbatch : s.batch ⟨5, 0⟩ 10 = [] := by simp [Sys.batch, findStaleRequested, page]
    have hstep : s.step ⟨5, 0⟩ (.pass 10) = s := by
      simp only [Sys.step, Sys.reconcileOnce, hbatch]
      rfl
    have hidle : ∀ n, StaysStale ⟨5, 0⟩ staleRow s (List.replicate n (.pass 10)) ∧
        examined ⟨5, 0⟩ s (List.replicate n (.pass 10)) = [] ∧ passes (List.replicate n (.pass 10)) = n := by
      intro n
      induction n with
      | zero => exact ⟨trivial, rfl, rfl⟩
      | succ n ih =>
        obtain ⟨hst, hexamined, hpasses⟩ := ih
        rw [List.replicate_succ, passes_cons, examined, hstep, hbatch, hexamined, hpasses]
        refine ⟨⟨⟨by rw [hrows]; exact List.mem_singleton_self _, fun now he => ?_⟩, ?_⟩, rfl, rfl⟩
        · cases he
          decide
        · rw [hstep]
          exact hst
    obtain ⟨hst, hexamined, hpasses⟩ := hidle bound
    have hmem := hbound staleRow _ hst hpasses.ge
    rw [hexamined] at hmem
    cases hmem

theorem stale_scan_cancelled :
    0 < oneByOne.batchSize ∧
      (((cancelledEvents.foldl (Sys.step oneByOne) Sys.start).swept oneByOne 20).filter fun p => idOf p = 1).length ≤ 2 := by
  have h := stale_scan oneByOne (by decide) cancelledEvents
  exact ⟨by decide, ((h.2.2 20).2 1).1⟩

end NawaraCore.StaleScan
