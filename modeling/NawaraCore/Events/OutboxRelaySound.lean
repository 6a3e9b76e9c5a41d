import Mathlib.Algebra.Order.BigOperators.Group.List
import Mathlib.Data.List.Chain
import Mathlib.Data.List.TakeWhile
import NawaraCore.Events.OutboxRelay
import NawaraCore.Lib.Rows

/-!
# Poison rows in the outbox

A poll without a failure that is older publishes the row or a full batch before it; a poll with
one tries a poison row, which then waits out its backoff. When fewer poison rows are older than
polls fit in the longest backoff, some poll finds all of them waiting; otherwise none does.
-/

namespace NawaraCore.Events

section
variable {α κ : Type*} [LinearOrder κ] {k : α → κ} {n : Nat} {l : List α} {a b : α}

theorem page_sorted (hn : (l.map k).Nodup) : (page k n none l).Pairwise fun a b => k a < k b := by
  have hall : (l.filter fun a => (none : Option κ).all (· < k a)) = l := List.filter_eq_self.mpr fun a _ => rfl
  unfold page
  rw [hall]
  refine List.Pairwise.sublist (List.take_sublist _ _) ?_
  have hle : (l.insertionSort fun a b => k a ≤ k b).Pairwise fun a b => k a ≤ k b := List.pairwise_insertionSort _ _
  have hne : (l.insertionSort fun a b => k a ≤ k b).Pairwise fun a b => k a ≠ k b :=
    List.pairwise_map.mp (((List.perm_insertionSort _ l).map k).nodup_iff.mpr hn)
  exact (hle.and hne).imp fun h => lt_of_le_of_ne h.1 h.2

theorem page_lt (hn : (l.map k).Nodup) (ha : a ∈ l) (hno : a ∉ page k n none l) :
    (∀ b ∈ page k n none l, k b < k a) ∧ (page k n none l).length = n := by
  have hall : (l.filter fun a => (none : Option κ).all (· < k a)) = l := List.filter_eq_self.mpr fun a _ => rfl
  have hlen : ¬ (page k n none l).length < n := fun hlt => hno (mem_page hn ha rfl (.inl hlt))
  refine ⟨fun b hb => lt_of_not_ge fun hle => ?_, ?_⟩
  · -- the last of the page is at least as late
    have hsorted := page_sorted (n := n) hn
    refine hno (mem_page hn ha rfl (.inr ?_))
    cases hlast : (page k n none l).getLast? with
    | none =>
      rw [List.getLast?_eq_none_iff.mp hlast] at hb
      cases hb
    | some c =>
      rw [Option.any_some, decide_eq_true_eq]
      obtain ⟨init, hinit⟩ := List.getLast?_eq_some_iff.mp hlast
      rw [hinit] at hb hsorted
      rcases mem_append_row hb with hb | hb
      · exact hle.trans ((List.pairwise_append.mp hsorted).2.2 b hb c (List.mem_singleton.mpr rfl)).le
      · exact hb ▸ hle
  · refine le_antisymm ?_ (not_lt.mp hlen)
    unfold page
    exact (List.length_take_le _ _)

end

section
variable {Payload : Type} {opts : RelayOptions} {publish : OutboxEnvelope Payload → Option String} {now gap : Nat}
  {db : List (OutboxRow Payload)} {x r : OutboxRow Payload}

/-! ## One batch -/

def relayed (opts : RelayOptions) (publish : OutboxEnvelope Payload → Option String) (now : Nat) (rows : List (OutboxRow Payload))
    (row : OutboxRow Payload) : OutboxRow Payload :=
  if row.id ∈ (rows.takeWhile (publishable opts publish)).map OutboxRow.id then row.stamp now
  else match (rows.dropWhile (publishable opts publish)).head? with
    | some q => if row.id = q.id then row.backOff (opts.delay q.attempts) now ((publish (outboxEnvelope q opts.source)).getD "") else row
    | none => row

theorem relayRows_eq (rows : List (OutboxRow Payload)) (hn : (rows.map OutboxRow.id).Nodup) (published : Nat) :
    relayRows opts publish now db published rows = (db.map (relayed opts publish now rows),
      ⟨published + (rows.takeWhile (publishable opts publish)).length, if rows.all (publishable opts publish) then 0 else 1⟩) := by
  induction rows generalizing db published with
  | nil =>
    refine Prod.ext ?_ rfl
    exact (List.map_id' db).symm.trans (List.map_congr_left fun _ _ => rfl)
  | cons r rows ih =>
    rw [List.map_cons, List.nodup_cons] at hn
    unfold relayRows
    cases hp : publish (outboxEnvelope r opts.source) with
    | some reason =>
      have hno : publishable opts publish r = false := by unfold publishable; rw [hp]; rfl
      refine Prod.ext ?_ ?_
      · refine List.map_congr_left fun row _ => ?_
        unfold relayed
        rw [List.takeWhile_cons_of_neg (by rw [hno]; decide), List.dropWhile_cons_of_neg (by rw [hno]; decide), List.head?_cons]
        dsimp only
        rw [hp]
        simp
      · rw [List.takeWhile_cons_of_neg (by rw [hno]; decide), List.all_cons, hno]
        rfl
    | none =>
      have hok : publishable opts publish r = true := by unfold publishable; rw [hp]; rfl
      dsimp only
      rw [ih hn.2]
      refine Prod.ext ?_ ?_
      · unfold updateRow
        dsimp only
        rw [List.map_map]
        refine List.map_congr_left fun row _ => ?_
        unfold relayed
        rw [Function.comp_apply, List.takeWhile_cons_of_pos hok, List.dropWhile_cons_of_pos hok, List.map_cons]
        by_cases hid : row.id = r.id
        · have hrest : ∀ q ∈ rows, q.id ≠ row.id := fun q hq he => hn.1 (hid ▸ he ▸ List.mem_map_of_mem hq)
          have hno : (row.stamp now).id ∉ (rows.takeWhile (publishable opts publish)).map OutboxRow.id := by
            intro hm
            obtain ⟨q, hq, he⟩ := List.mem_map.mp hm
            exact hrest q (List.takeWhile_subset _ hq) he
          rw [if_pos hid, if_neg hno, if_pos (List.mem_cons.mpr (.inl hid))]
          cases hd : (rows.dropWhile (publishable opts publish)).head? with
          | none => rfl
          | some q =>
            have hq := (List.dropWhile_suffix _).subset (List.mem_of_mem_head? hd)
            exact if_neg (Ne.symm (hrest q hq))
        · rw [if_neg hid]
          by_cases hm : row.id ∈ (rows.takeWhile (publishable opts publish)).map OutboxRow.id
          · rw [if_pos hm, if_pos (List.mem_cons_of_mem _ hm)]
          · rw [if_neg hm, if_neg fun hc => (List.mem_cons.mp hc).elim hid hm]
      · rw [List.takeWhile_cons_of_pos hok, List.all_cons, hok, Bool.true_and, List.length_cons]
        refine congrArg₂ Relayed.mk ?_ rfl
        omega

structure Claimed (db : List (OutboxRow Payload)) (now n : Nat) (rows : List (OutboxRow Payload)) : Prop where
  mem : ∀ q ∈ rows, q ∈ db ∧ q.due now
  sorted : rows.Pairwise fun a b => a.key < b.key
  ids : (rows.map OutboxRow.id).Nodup
  missed : ∀ a ∈ db, a.due now → a ∉ rows → (∀ b ∈ rows, b.key < a.key) ∧ rows.length = n

theorem claimed (hn : (db.map OutboxRow.id).Nodup) : Claimed db now opts.batchSize (page OutboxRow.key opts.batchSize none (db.filter (OutboxRow.due now))) := by
  have hsub : ∀ q ∈ page OutboxRow.key opts.batchSize none (db.filter (OutboxRow.due now)), q ∈ db ∧ q.due now :=
    fun q hq => List.mem_filter.mp (mem_of_mem_page hq).1
  have hkeys : ((db.filter (OutboxRow.due now)).map OutboxRow.key).Nodup := by
    have hid : ((db.filter (OutboxRow.due now)).map OutboxRow.id).Nodup := hn.sublist (List.filter_sublist.map _)
    refine List.Nodup.of_map (fun p => (ofLex p).2) ?_
    rwa [List.map_map]
  have hsorted := page_sorted (n := opts.batchSize) hkeys
  refine ⟨hsub, hsorted, ?_, fun a ha hd hno => page_lt hkeys (List.mem_filter.mpr ⟨ha, hd⟩) hno⟩
  rw [List.nodup_iff_pairwise_ne, List.pairwise_map]
  refine (hsorted.imp_of_mem fun {a b} ha hb hlt he => ?_)
  obtain rfl := eq_of_key hn (hsub a ha).1 (hsub b hb).1 he
  exact lt_irrefl _ hlt

structure Kept (opts : RelayOptions) (r r' : OutboxRow Payload) : Prop where
  key : r'.key = r.key
  id : r'.id = r.id
  envelope : outboxEnvelope r' opts.source = outboxEnvelope r opts.source

theorem Kept.refl : Kept opts r r := ⟨rfl, rfl, rfl⟩

theorem Kept.trans {r' r'' : OutboxRow Payload} (h : Kept opts r r') (h' : Kept opts r' r'') : Kept opts r r'' :=
  ⟨h'.key.trans h.key, h'.id.trans h.id, h'.envelope.trans h.envelope⟩

theorem Kept.publishable {r' : OutboxRow Payload} (h : Kept opts r r') : publishable opts publish r' = publishable opts publish r := by
  unfold Events.publishable
  rw [h.envelope]

theorem relayed_kept (rows : List (OutboxRow Payload)) (row : OutboxRow Payload) : Kept opts row (relayed opts publish now rows row) := by
  unfold relayed
  split
  · exact ⟨rfl, rfl, rfl⟩
  · split
    · split
      · exact ⟨rfl, rfl, rfl⟩
      · exact .refl
    · exact .refl

variable {rows : List (OutboxRow Payload)} {poll : List Nat} {h : OutboxRow Payload → OutboxRow Payload}

theorem relayed_poison (hn : (db.map OutboxRow.id).Nodup) (hc : Claimed db now opts.batchSize rows) (hr : r ∈ db)
    (hp : publishable opts publish r = false) :
    ((rows.dropWhile (publishable opts publish)).head? ≠ some r ∧ relayed opts publish now rows r = r) ∨
      (r.due now ∧ (rows.dropWhile (publishable opts publish)).head? = some r ∧
        ∃ reason, relayed opts publish now rows r = r.backOff (opts.delay r.attempts) now reason) := by
  have hpre : r.id ∉ (rows.takeWhile (publishable opts publish)).map OutboxRow.id := by
    intro hm
    obtain ⟨q, hq, he⟩ := List.mem_map.mp hm
    obtain rfl := eq_of_key hn (hc.mem q (List.takeWhile_subset _ hq)).1 hr he
    have hok := List.all_eq_true.mp List.all_takeWhile q hq
    rw [hp] at hok
    cases hok
  unfold relayed
  rw [if_neg hpre]
  cases hd : (rows.dropWhile (publishable opts publish)).head? with
  | none => exact .inl ⟨nofun, rfl⟩
  | some q =>
    dsimp only
    have hq := hc.mem q ((List.dropWhile_suffix _).subset (List.mem_of_mem_head? hd))
    by_cases hid : r.id = q.id
    · obtain rfl := eq_of_key hn hr hq.1 hid
      rw [if_pos rfl]
      exact .inr ⟨hq.2, rfl, _, rfl⟩
    · exact .inl ⟨fun he => hid (Option.some.inj he ▸ rfl), if_neg hid⟩

theorem relayed_publishable (hn : (db.map OutboxRow.id).Nodup) (hc : Claimed db now opts.batchSize rows) (hr : r ∈ db)
    (hp : publishable opts publish r = true) : (r ∈ rows.takeWhile (publishable opts publish) ∧ relayed opts publish now rows r = r.stamp now) ∨
      (r ∉ rows.takeWhile (publishable opts publish) ∧ relayed opts publish now rows r = r) := by
  unfold relayed
  by_cases hm : r.id ∈ (rows.takeWhile (publishable opts publish)).map OutboxRow.id
  · rw [if_pos hm]
    obtain ⟨q, hq, he⟩ := List.mem_map.mp hm
    obtain rfl := eq_of_key hn (hc.mem q (List.takeWhile_subset _ hq)).1 hr he
    exact .inl ⟨hq, rfl⟩
  · rw [if_neg hm]
    refine .inr ⟨fun h => hm (List.mem_map_of_mem h), ?_⟩
    cases hd : (rows.dropWhile (publishable opts publish)).head? with
    | none => rfl
    | some q =>
      refine if_neg fun hid => ?_
      have hq := hc.mem q ((List.dropWhile_suffix _).subset (List.mem_of_mem_head? hd))
      obtain rfl := eq_of_key hn hr hq.1 hid
      have hno := List.head?_dropWhile_not (publishable opts publish) rows
      rw [hd] at hno
      simp [hp] at hno

/-! ## One poll -/

def goodAhead (opts : RelayOptions) (publish : OutboxEnvelope Payload → Option String) (x : OutboxRow Payload) (db : List (OutboxRow Payload)) : Nat :=
  (db.map fun r => if r.publishedAt = none ∧ r.key < x.key ∧ publishable opts publish r then 1 else 0).sum

def tries (opts : RelayOptions) (publish : OutboxEnvelope Payload → Option String) (x : OutboxRow Payload) (db : List (OutboxRow Payload)) : Nat :=
  (db.map fun r => if r.publishedAt = none ∧ r.key < x.key ∧ ¬ publishable opts publish r then r.attempts else 0).sum

structure Relays (opts : RelayOptions) (publish : OutboxEnvelope Payload → Option String) (poll : List Nat) (db : List (OutboxRow Payload))
    (h : OutboxRow Payload → OutboxRow Payload) : Prop where
  kept : ∀ r, Kept opts r (h r)
  poison : ∀ r ∈ db, publishable opts publish r = false → h r = r ∨
    (r.publishedAt = none ∧ ∃ now ∈ poll, r.availableAt ≤ now ∧ ∃ reason, h r = r.backOff (opts.delay r.attempts) now reason)
  good : ∀ r ∈ db, publishable opts publish r = true → h r = r ∨ (r.publishedAt = none ∧ (h r).publishedAt.isSome)

theorem Relays.mono (hh : Relays opts publish poll db h) (x : OutboxRow Payload) :
    (∀ r ∈ db, (if (h r).publishedAt = none ∧ (h r).key < x.key ∧ publishable opts publish (h r) then 1 else 0) ≤
      if r.publishedAt = none ∧ r.key < x.key ∧ publishable opts publish r then 1 else 0) ∧
    ∀ r ∈ db, (if r.publishedAt = none ∧ r.key < x.key ∧ ¬ publishable opts publish r then r.attempts else 0) ≤
      if (h r).publishedAt = none ∧ (h r).key < x.key ∧ ¬ publishable opts publish (h r) then (h r).attempts else 0 := by
  constructor
  · intro r hr
    rw [(hh.kept r).key, (hh.kept r).publishable]
    cases hp : publishable opts publish r with
    | false => simp
    | true =>
      rcases hh.good r hr hp with he | ⟨hnone, hsome⟩
      · rw [he]
      · obtain ⟨t, ht⟩ := Option.isSome_iff_exists.mp hsome
        simp [ht]
  · intro r hr
    rw [(hh.kept r).key, (hh.kept r).publishable]
    cases hp : publishable opts publish r with
    | true => simp
    | false =>
      rcases hh.poison r hr hp with he | ⟨hnone, now, -, -, reason, he⟩
      · rw [he]
      · rw [he]
        by_cases hlt : r.key < x.key
        · simp [OutboxRow.backOff, hlt, hnone]
        · simp [hlt]

theorem Relays.published (hh : Relays opts publish poll db h) (hr : r ∈ db) (hs : r.publishedAt.isSome) : (h r).publishedAt.isSome := by
  cases hp : publishable opts publish r with
  | true =>
    rcases hh.good r hr hp with he | ⟨-, hsome⟩
    · rwa [he]
    · exact hsome
  | false =>
    rcases hh.poison r hr hp with he | ⟨hnone, -⟩
    · rwa [he]
    · rw [hnone] at hs
      cases hs

theorem relayed_relays {rows : List (OutboxRow Payload)} (hn : (db.map OutboxRow.id).Nodup) (hc : Claimed db now opts.batchSize rows) :
    Relays opts publish [now] db (relayed opts publish now rows) where
  kept r := relayed_kept rows r
  poison r hr hp := by
    rcases relayed_poison hn hc hr hp with ⟨-, he⟩ | ⟨hd, -, reason, he⟩
    · exact .inl he
    · have hd := of_decide_eq_true hd
      exact .inr ⟨hd.1, now, List.mem_singleton.mpr rfl, hd.2, reason, he⟩
  good r hr hp := by
    rcases relayed_publishable hn hc hr hp with ⟨hm, he⟩ | ⟨-, he⟩
    · have hd := of_decide_eq_true (hc.mem r (List.takeWhile_subset _ hm)).2
      exact .inr ⟨hd.1, by rw [he]; rfl⟩
    · exact .inl he

theorem relayed_progress (hn : (db.map OutboxRow.id).Nodup) (hc : Claimed db now opts.batchSize rows) (hx : x ∈ db)
    (hp : publishable opts publish x = true) (hd : x.due now) : (relayed opts publish now rows x).publishedAt.isSome ∨
      goodAhead opts publish x (db.map (relayed opts publish now rows)) + 1 + tries opts publish x db ≤
        goodAhead opts publish x db + tries opts publish x (db.map (relayed opts publish now rows)) := by
  have hh := (@relayed_relays _ _ publish) hn hc
  rcases relayed_publishable hn hc hx hp with ⟨-, he⟩ | ⟨hno, -⟩
  · exact .inl (by rw [he]; rfl)
  refine .inr ?_
  obtain ⟨hgood, htries⟩ := hh.mono x
  unfold goodAhead tries
  rw [List.map_map, List.map_map]
  have hle := List.sum_le_sum hgood
  have hle' := List.sum_le_sum htries
  cases hf : (rows.dropWhile (publishable opts publish)).head? with
  | none =>
    have hnil : rows.dropWhile (publishable opts publish) = [] := List.head?_eq_none_iff.mp hf
    have hall : rows.takeWhile (publishable opts publish) = rows := by
      have happ := List.takeWhile_append_dropWhile (p := publishable opts publish) (l := rows)
      rwa [hnil, List.append_nil] at happ
    rw [hall] at hno
    obtain ⟨hbefore, hlen⟩ := hc.missed x hx hd hno
    cases hrows : rows with
    | nil =>
      rw [hrows] at hlen
      exact absurd hlen.symm (Nat.ne_of_gt opts.batch)
    | cons a rest =>
      have ha : a ∈ rows := hrows ▸ List.mem_cons_self
      obtain ⟨hadb, had⟩ := hc.mem a ha
      have had := of_decide_eq_true had
      have hap := List.all_eq_true.mp List.all_takeWhile a (hall.symm ▸ ha)
      have hlt := List.sum_lt_sum _ _ hgood ⟨a, hadb, by
        rcases relayed_publishable hn hc hadb hap with ⟨-, he⟩ | ⟨hm, -⟩
        · rw [he]
          simp [OutboxRow.stamp, had.1, hbefore a ha, hap]
        · exact absurd (hall.symm ▸ ha) hm⟩
      rw [hrows] at hlt hle hle'
      simp only [Function.comp_def]
      omega
  | some q =>
    have hqr := (List.dropWhile_suffix _).subset (List.mem_of_mem_head? hf)
    obtain ⟨hqdb, hqd⟩ := hc.mem q hqr
    have hqp : publishable opts publish q = false := by
      have hnot := List.head?_dropWhile_not (publishable opts publish) rows
      rw [hf] at hnot
      simpa using hnot
    have hqd := of_decide_eq_true hqd
    -- the failed row is older than the row
    have hlt : q.key < x.key := by
      by_cases hxr : x ∈ rows
      · have hxdrop : x ∈ rows.dropWhile (publishable opts publish) := by
          have happ := List.takeWhile_append_dropWhile (p := publishable opts publish) (l := rows)
          rw [← happ] at hxr
          exact (List.mem_append.mp hxr).resolve_left hno
        obtain ⟨rest, hrest⟩ := List.head?_eq_some_iff.mp hf
        have hsorted := hc.sorted.sublist (List.dropWhile_sublist (publishable opts publish))
        rw [hrest] at hxdrop hsorted
        rcases List.mem_cons.mp hxdrop with rfl | hm
        · rw [hqp] at hp
          cases hp
        · exact List.rel_of_pairwise_cons hsorted hm
      · exact (hc.missed x hx hd hxr).1 q hqr
    have hlt' := List.sum_lt_sum _ _ htries ⟨q, hqdb, by
      rcases relayed_poison hn hc hqdb hqp with ⟨hne, -⟩ | ⟨-, -, reason, he⟩
      · exact absurd hf hne
      · have hkept := (@relayed_kept _ opts publish now) rows q
        rw [hkept.key, hkept.publishable, he]
        simp [OutboxRow.backOff, hqd.1, hlt, hqp]⟩
    simp only [Function.comp_def] at hlt' hle ⊢
    omega

section
variable (hh : Relays opts publish poll db h)
include hh

theorem Relays.ids : (db.map h).map OutboxRow.id = db.map OutboxRow.id := by
  rw [List.map_map]
  exact List.map_congr_left fun r _ => (hh.kept r).id

theorem Relays.goodAhead_le (x : OutboxRow Payload) : goodAhead opts publish x (db.map h) ≤ goodAhead opts publish x db := by
  unfold goodAhead
  rw [List.map_map]
  exact List.sum_le_sum (hh.mono x).1

theorem Relays.tries_le (x : OutboxRow Payload) : tries opts publish x db ≤ tries opts publish x (db.map h) := by
  unfold tries
  rw [List.map_map]
  exact List.sum_le_sum (hh.mono x).2

end

theorem Relays.weaken {poll' : List Nat} (hh : Relays opts publish poll db h) (hsub : ∀ now ∈ poll, now ∈ poll') : Relays opts publish poll' db h where
  kept := hh.kept
  poison r hr hp := by
    rcases hh.poison r hr hp with he | ⟨hnone, now, hm, hrest⟩
    · exact .inl he
    · exact .inr ⟨hnone, now, hsub now hm, hrest⟩
  good := hh.good

variable {g : OutboxRow Payload → OutboxRow Payload}

theorem Relays.comp (hh : Relays opts publish [now] db h)
    (hstay : ∀ r ∈ db, publishable opts publish r = false → h r = r) (hg : Relays opts publish poll (db.map h) g) :
    Relays opts publish (now :: poll) db (g ∘ h) where
  kept r := (hh.kept r).trans (hg.kept (h r))
  poison r hr hp := by
    rw [Function.comp_apply, hstay r hr hp]
    rcases hg.poison r (List.mem_map.mpr ⟨r, hr, hstay r hr hp⟩) hp with he | ⟨hnone, t, hm, hrest⟩
    · exact .inl he
    · exact .inr ⟨hnone, t, List.mem_cons_of_mem _ hm, hrest⟩
  good r hr hp := by
    rw [Function.comp_apply]
    rcases hh.good r hr hp with he | ⟨hnone, hsome⟩
    · rw [he]
      exact hg.good r (List.mem_map.mpr ⟨r, hr, he⟩) hp
    · exact .inr ⟨hnone, hg.published (List.mem_map_of_mem hr) hsome⟩

theorem drainPass_relays (poll : List Nat) (hn : (db.map OutboxRow.id).Nodup) (published : Nat) :
    ∃ h, (drainPass opts publish published poll db).1 = db.map h ∧ Relays opts publish poll db h ∧
      (poll ≠ [] → ∀ x ∈ db, publishable opts publish x = true → x.publishedAt = none → (∀ now ∈ poll, x.availableAt ≤ now) →
        (h x).publishedAt.isSome ∨ goodAhead opts publish x (db.map h) + 1 + tries opts publish x db ≤ goodAhead opts publish x db + tries opts publish x (db.map h)) := by
  induction poll generalizing db published with
  | nil => exact ⟨id, (List.map_id db).symm, ⟨fun _ => .refl, fun _ _ _ => .inl rfl, fun _ _ _ => .inl rfl⟩, fun hne => absurd rfl hne⟩
  | cons now later ih =>
    have hc := (@claimed _ opts now) hn
    unfold drainPass drainOnce
    rw [relayRows_eq _ hc.ids]
    generalize hrows : page OutboxRow.key opts.batchSize none (db.filter (OutboxRow.due now)) = rows at hc ⊢
    have hh := (@relayed_relays _ _ publish) hn hc
    have hprog : ∀ x ∈ db, publishable opts publish x = true → x.publishedAt = none → (∀ t ∈ now :: later, x.availableAt ≤ t) →
        (relayed opts publish now rows x).publishedAt.isSome ∨
          goodAhead opts publish x (db.map (relayed opts publish now rows)) + 1 + tries opts publish x db ≤
            goodAhead opts publish x db + tries opts publish x (db.map (relayed opts publish now rows)) :=
      fun x hx hp hnone hdue => relayed_progress hn hc hx hp (decide_eq_true ⟨hnone, hdue now List.mem_cons_self⟩)
    have hweak := (@Relays.weaken _ _ _ _ _ _ (now :: later)) hh fun t ht => List.mem_singleton.mp ht ▸ List.mem_cons_self
    dsimp only
    by_cases hall : rows.all (publishable opts publish) = true
    · rw [if_pos hall]
      split
      · exact ⟨_, rfl, hweak, fun _ => hprog⟩
      have hstay : ∀ r ∈ db, publishable opts publish r = false → relayed opts publish now rows r = r := by
        intro r hr hp
        have hpre : r.id ∉ (rows.takeWhile (publishable opts publish)).map OutboxRow.id := by
          intro hm
          obtain ⟨q, hq, he⟩ := List.mem_map.mp hm
          obtain rfl := eq_of_key hn (hc.mem q (List.takeWhile_subset _ hq)).1 hr he
          rw [List.all_eq_true.mp List.all_takeWhile q hq] at hp
          cases hp
        unfold relayed
        rw [if_neg hpre, List.dropWhile_eq_nil_iff.mpr (List.all_eq_true.mp hall)]
        rfl
      have hnext : ((db.map (relayed opts publish now rows)).map OutboxRow.id).Nodup := by
        rw [hh.ids]
        exact hn
      obtain ⟨g, hg, hrel, -⟩ := ih hnext _
      rw [List.map_map] at hg
      refine ⟨_, hg, hh.comp hstay hrel, fun _ x hx hp hnone hdue => ?_⟩
      rcases hprog x hx hp hnone hdue with hsome | hle
      · exact .inl (hrel.published (List.mem_map_of_mem hx) hsome)
      · have h1 := hrel.goodAhead_le x
        have h2 := hrel.tries_le x
        rw [List.map_map] at h1 h2
        exact .inr (by omega)
    · rw [if_neg hall, if_pos (.inl Nat.one_pos)]
      exact ⟨_, rfl, hweak, fun _ => hprog⟩

/-! ## The bound -/

/-- After `n` polls that left the row unpublished. -/
structure Progress (opts : RelayOptions) (publish : OutboxEnvelope Payload → Option String) (gap : Nat) (db : List (OutboxRow Payload))
    (x : OutboxRow Payload) (n : Nat) (g : OutboxRow Payload → OutboxRow Payload) (next : List (List Nat)) : Prop where
  kept : ∀ r, Kept opts r (g r)
  target : (g x).publishedAt = none ∧ (g x).availableAt = x.availableAt
  passed : ∀ r ∈ db, publishable opts publish r = false → r.publishedAt ≠ none → g r = r
  poison : ∀ r ∈ db, publishable opts publish r = false → r.publishedAt = none → (g r).publishedAt = none ∧ r.attempts ≤ (g r).attempts ∧
    opts.polls gap * ((g r).attempts - r.attempts - 20) ≤ n + opts.polls gap ∧
    ∀ p ∈ next.head?, ∀ b ∈ p, ∀ i, (g r).availableAt ≤ b + i * gap → opts.polls gap * ((g r).attempts - r.attempts - 20) ≤ n + i
  count : goodAhead opts publish x (db.map g) + n + tries opts publish x db ≤ goodAhead opts publish x db + tries opts publish x (db.map g)

theorem delay_le {attempts : Nat} (hgap : 0 < gap) : opts.delay attempts ≤ opts.polls gap * gap := by
  have hcap : opts.delay attempts ≤ opts.delay 20 := by
    unfold RelayOptions.delay
    refine min_le_min_left _ (Nat.mul_le_mul_left _ (Nat.pow_le_pow_right (by decide) ?_))
    rw [Nat.min_self]
    exact Nat.min_le_right _ _
  refine hcap.trans ?_
  have hceil : opts.delay 20 ≤ gap * (opts.delay 20 ⌈/⌉ gap) := (le_smul_ceilDiv hgap : _)
  rw [Nat.mul_comm]
  exact hceil.trans (Nat.mul_le_mul_left _ (le_max_right _ _))

theorem polls_le {i : Nat} (hgap : 0 < gap) (h : opts.delay 20 ≤ (i + 1) * gap) : opts.polls gap ≤ i + 1 := by
  refine max_le (Nat.le_add_left 1 i) ((ceilDiv_le_iff_le_mul hgap).mpr ?_)
  rwa [Nat.mul_comm] at h

variable {n : Nat} {next : List (List Nat)}

theorem Progress.step (hgap : 0 < gap)
    (hx : x ∈ db) (hp : publishable opts publish x = true) (hg : Progress opts publish gap db x n g (poll :: next))
    (hpaced : Paced gap (poll :: next)) (hh : Relays opts publish poll (db.map g) h)
    (hprog : (h (g x)).publishedAt.isSome ∨ goodAhead opts publish (g x) ((db.map g).map h) + 1 + tries opts publish (g x) (db.map g) ≤
      goodAhead opts publish (g x) (db.map g) + tries opts publish (g x) ((db.map g).map h)) :
    (h (g x)).publishedAt.isSome ∨ Progress opts publish gap db x (n + 1) (h ∘ g) next := by
  rcases hprog with hsome | hle
  · exact .inl hsome
  by_cases hsome : (h (g x)).publishedAt.isSome
  · exact .inl hsome
  refine .inr ?_
  have hgood : ∀ l, goodAhead opts publish (g x) l = goodAhead opts publish x l := fun l => by unfold goodAhead; rw [(hg.kept x).key]
  have htries : ∀ l, tries opts publish (g x) l = tries opts publish x l := fun l => by unfold tries; rw [(hg.kept x).key]
  rw [hgood, hgood, htries, htries, List.map_map] at hle
  have hpg : ∀ r, publishable opts publish (g r) = publishable opts publish r := fun r => (hg.kept r).publishable
  refine ⟨fun r => (hg.kept r).trans (hh.kept (g r)), ?_, ?_, ?_, ?_⟩
  · rcases hh.good (g x) (List.mem_map_of_mem hx) ((hpg x).trans hp) with he | ⟨-, hs⟩
    · rw [Function.comp_apply, he]
      exact hg.target
    · exact absurd hs hsome
  · intro r hr hbad hpub
    have he := hg.passed r hr hbad hpub
    rw [Function.comp_apply, he]
    rcases hh.poison r (List.mem_map.mpr ⟨r, hr, he⟩) hbad with he' | ⟨hnone, -⟩
    · exact he'
    · exact absurd hnone hpub
  · intro r hr hbad hnone
    obtain ⟨hpend, hatt, hbound, hnext⟩ := hg.poison r hr hbad hnone
    obtain ⟨a, ha⟩ := List.exists_mem_of_ne_nil _ (hpaced.1 poll List.mem_cons_self)
    have hgapped : ∀ p ∈ next.head?, ∀ b ∈ p, ∀ t ∈ poll, b ≤ t + gap := by
      intro p hp b hb t ht
      obtain ⟨rest, hrest⟩ := List.head?_eq_some_iff.mp hp
      have hchain := hpaced.2
      rw [hrest] at hchain
      exact ((List.isChain_cons_cons.mp hchain).1 t ht b hb).2
    rcases hh.poison (g r) (List.mem_map_of_mem hr) ((hpg r).trans hbad) with he | ⟨-, t, ht, hav, reason, he⟩
    · rw [Function.comp_apply, he]
      refine ⟨hpend, hatt, by omega, fun p hp b hb i hi => ?_⟩
      have hb' := hgapped p hp b hb a ha
      have hstep := hnext poll rfl a ha (i + 1) (by rw [Nat.succ_mul]; omega)
      omega
    · rw [Function.comp_apply, he]
      have hstep := hnext poll rfl t ht 0 (by omega)
      simp only [OutboxRow.backOff]
      refine ⟨hpend, by omega, ?_, fun p hp b hb i hi => ?_⟩
      · by_cases hfew : (g r).attempts - r.attempts < 20
        · rw [show (g r).attempts + 1 - r.attempts - 20 = 0 by omega]
          omega
        · rw [show (g r).attempts + 1 - r.attempts - 20 = ((g r).attempts - r.attempts - 20) + 1 by omega, Nat.mul_succ]
          omega
      · by_cases hfew : (g r).attempts - r.attempts < 20
        · rw [show (g r).attempts + 1 - r.attempts - 20 = 0 by omega]
          omega
        · have hb' := hgapped p hp b hb t ht
          have hdelay : opts.delay (g r).attempts = opts.delay 20 := by
            unfold RelayOptions.delay
            rw [Nat.min_eq_right (show 20 ≤ (g r).attempts by omega), Nat.min_self]
          rw [hdelay] at hi
          have hpolls := (@polls_le opts _ i) hgap (by rw [Nat.succ_mul]; omega)
          rw [show (g r).attempts + 1 - r.attempts - 20 = ((g r).attempts - r.attempts - 20) + 1 by omega, Nat.mul_succ]
          omega
  · have hcount := hg.count
    omega

theorem Paced.tail {polls : List (List Nat)} (hp : Paced gap (poll :: polls)) : Paced gap polls :=
  ⟨fun p hm => hp.1 p (List.mem_cons_of_mem _ hm), hp.2.tail⟩

theorem relay_ids (polls : List (List Nat)) (hn : (db.map OutboxRow.id).Nodup) : (relay opts publish polls db).map OutboxRow.id = db.map OutboxRow.id := by
  induction polls generalizing db with
  | nil => rfl
  | cons poll polls ih =>
    obtain ⟨h, he, hh, -⟩ := (@drainPass_relays _ opts publish) poll hn 0
    unfold relay
    rw [List.foldl_cons, he]
    exact (ih (by rw [hh.ids]; exact hn)).trans hh.ids

theorem relay_published (polls : List (List Nat)) (hn : (db.map OutboxRow.id).Nodup) (hx : ∃ r ∈ db, r.id = x.id ∧ r.publishedAt.isSome) :
    ∃ r ∈ relay opts publish polls db, r.id = x.id ∧ r.publishedAt.isSome := by
  induction polls generalizing db with
  | nil => exact hx
  | cons poll polls ih =>
    obtain ⟨h, he, hh, -⟩ := (@drainPass_relays _ opts publish) poll hn 0
    obtain ⟨r, hr, hid, hs⟩ := hx
    unfold relay
    rw [List.foldl_cons, he]
    exact ih (by rw [hh.ids]; exact hn) ⟨h r, List.mem_map_of_mem hr, (hh.kept r).id.trans hid, hh.published hr hs⟩

theorem Progress.run (hgap : 0 < gap) (hn : (db.map OutboxRow.id).Nodup) (hx : x ∈ db) (hp : publishable opts publish x = true)
    (polls : List (List Nat)) (hg : Progress opts publish gap db x n g polls) (hpaced : Paced gap polls)
    (hdue : ∀ poll ∈ polls, ∀ now ∈ poll, x.availableAt ≤ now) : (∃ r ∈ relay opts publish polls (db.map g), r.id = x.id ∧ r.publishedAt.isSome) ∨
      ∃ g', Progress opts publish gap db x (n + polls.length) g' [] := by
  induction polls generalizing n g with
  | nil => exact .inr ⟨g, hg⟩
  | cons poll polls ih =>
    have hids : ((db.map g).map OutboxRow.id).Nodup := by
      rw [List.map_map, List.map_congr_left fun r _ => show (OutboxRow.id ∘ g) r = r.id from (hg.kept r).id]
      exact hn
    obtain ⟨h, he, hh, hprog⟩ := (@drainPass_relays _ opts publish) poll hids 0
    have hnow := hprog (hpaced.1 poll List.mem_cons_self) (g x) (List.mem_map_of_mem hx) ((hg.kept x).publishable.trans hp) hg.target.1
      fun now hm => hg.target.2.symm ▸ hdue poll List.mem_cons_self now hm
    unfold relay
    rw [List.foldl_cons, he, List.map_map]
    rcases hg.step hgap hx hp hpaced hh hnow with hsome | hnext
    · refine .inl (relay_published polls ?_ ⟨h (g x), List.mem_map_of_mem (f := h ∘ g) hx, ((hh.kept (g x)).id.trans (hg.kept x).id), hsome⟩)
      rw [← List.map_map, hh.ids]
      exact hids
    · rcases ih hnext hpaced.tail fun q hm => hdue q (List.mem_cons_of_mem _ hm) with hdone | ⟨g', hg'⟩
      · exact .inl hdone
      · exact .inr ⟨g', by rw [List.length_cons, Nat.add_comm polls.length 1, ← Nat.add_assoc]; exact hg'⟩

theorem ahead_le (hx : x ∈ db) : goodAhead opts publish x db + poisonAhead opts publish db x + 1 ≤ db.length := by
  have hsplit : ∀ l : List (OutboxRow Payload), goodAhead opts publish x l + poisonAhead opts publish l x + l.countP (fun r => r.key = x.key) ≤ l.length := by
    intro l
    induction l with
    | nil => exact Nat.le_refl _
    | cons r l ih =>
      have hone : (if r.publishedAt = none ∧ r.key < x.key ∧ publishable opts publish r then 1 else 0) +
          (if decide (r.publishedAt = none ∧ r.key < x.key ∧ ¬ publishable opts publish r) = true then 1 else 0) +
          (if decide (r.key = x.key) = true then 1 else 0) ≤ 1 := by
        rcases lt_trichotomy r.key x.key with hlt | heq | hgt
        · have hne := hlt.ne
          by_cases hn : r.publishedAt = none <;> cases hp : publishable opts publish r <;> simp [hlt, hne, hn]
        · simp [heq]
        · have hne := hgt.ne'
          have hnlt := hgt.not_gt
          simp [hnlt, hne]
      unfold goodAhead poisonAhead at ih ⊢
      rw [List.map_cons, List.sum_cons, List.countP_cons, List.countP_cons, List.length_cons]
      omega
  have hself : 0 < db.countP (fun r => r.key = x.key) := List.countP_pos_iff.mpr ⟨x, hx, decide_eq_true rfl⟩
  have := hsplit db
  omega

theorem Progress.tries_le (hg : Progress opts publish gap db x n g next) :
    opts.polls gap * tries opts publish x (db.map g) ≤ opts.polls gap * tries opts publish x db + poisonAhead opts publish db x * (21 * opts.polls gap + n) := by
  have hpoison := hg.poison
  have hover := hg.passed
  unfold tries poisonAhead
  rw [List.map_map]
  have hall : ∀ l ⊆ db, opts.polls gap * (l.map ((fun r => if r.publishedAt = none ∧ r.key < x.key ∧ ¬ publishable opts publish r then r.attempts else 0) ∘ g)).sum ≤
      opts.polls gap * (l.map fun r => if r.publishedAt = none ∧ r.key < x.key ∧ ¬ publishable opts publish r then r.attempts else 0).sum +
        l.countP (fun r => r.publishedAt = none ∧ r.key < x.key ∧ ¬ publishable opts publish r) * (21 * opts.polls gap + n) := by
    intro l hl
    induction l with
    | nil => exact Nat.zero_le _
    | cons r l ih =>
      have hrest := ih fun q hq => hl (List.mem_cons_of_mem _ hq)
      have hr := hl List.mem_cons_self
      rw [List.map_cons, List.map_cons, List.sum_cons, List.sum_cons, List.countP_cons, Nat.mul_add, Nat.mul_add, Nat.add_mul]
      have hone : opts.polls gap * ((fun r => if r.publishedAt = none ∧ r.key < x.key ∧ ¬ publishable opts publish r then r.attempts else 0) ∘ g) r ≤
          opts.polls gap * (if r.publishedAt = none ∧ r.key < x.key ∧ ¬ publishable opts publish r then r.attempts else 0) +
            (if decide (r.publishedAt = none ∧ r.key < x.key ∧ ¬ publishable opts publish r) = true then 1 else 0) * (21 * opts.polls gap + n) := by
        rw [Function.comp_apply, (hg.kept r).key, (hg.kept r).publishable]
        by_cases hahead : r.key < x.key ∧ publishable opts publish r = false
        · by_cases hnone : r.publishedAt = none
          · obtain ⟨hpend, hatt, hbound, -⟩ := hpoison r hr hahead.2 hnone
            simp only [hpend, hnone, hahead.1, hahead.2, Bool.false_eq_true, not_false_eq_true, and_self, if_true, decide_true, Nat.one_mul]
            have hsplit : (g r).attempts ≤ r.attempts + 20 + ((g r).attempts - r.attempts - 20) := by omega
            have hmul := Nat.mul_le_mul_left (opts.polls gap) hsplit
            rw [Nat.mul_add, Nat.mul_add] at hmul
            omega
          · rw [hover r hr hahead.2 hnone]
            simp [hnone]
        · rw [if_neg fun h => hahead ⟨h.2.1, by simpa using h.2.2⟩]
          exact Nat.zero_le _
      omega
  exact hall db (List.Subset.refl _)

theorem published_of_lt (hgap : 0 < gap) (hn : (db.map OutboxRow.id).Nodup) (hx : x ∈ db) (hp : publishable opts publish x = true)
    (hnone : x.publishedAt = none) (hlong : 21 * opts.polls gap * db.length ≤ n) (hlt : poisonAhead opts publish db x < opts.polls gap) :
    PublishedWithin opts publish gap db x n := by
  intro polls hlen hpaced hdue
  have hstart : Progress opts publish gap db x 0 id polls := by
    refine ⟨fun _ => .refl, ⟨hnone, rfl⟩, fun _ _ _ _ => rfl, fun r _ _ hr => ⟨hr, Nat.le_refl _, ?_, fun _ _ _ _ _ _ => ?_⟩, by rw [List.map_id]; omega⟩
    · simp
    · simp
  rcases hstart.run hgap hn hx hp polls hpaced hdue with hdone | ⟨g, hg⟩
  · rwa [List.map_id] at hdone
  exfalso
  rw [Nat.zero_add, hlen] at hg
  have hcount := hg.count
  have htries := hg.tries_le
  have hahead := (@ahead_le _ opts publish) hx
  generalize opts.polls gap = c at htries hlt hlong
  generalize poisonAhead opts publish db x = f at htries hlt hahead
  generalize goodAhead opts publish x db = a at hcount hahead
  generalize tries opts publish x db = t₀ at hcount htries
  generalize tries opts publish x (db.map g) = t at hcount htries
  have h1 : c * (n + t₀) ≤ c * (a + t) := Nat.mul_le_mul_left c (by omega)
  have h2 : f * n ≤ (c - 1) * n := Nat.mul_le_mul_right n (by omega)
  have h3 : c * n = (c - 1) * n + n := by
    rw [← Nat.succ_mul]
    exact congrArg (· * n) (by omega)
  have h4 : 21 * c * (a + f + 1) ≤ 21 * c * db.length := Nat.mul_le_mul_left _ hahead
  have h5 : c * a ≤ 21 * c * a := Nat.mul_le_mul_right a (by omega)
  have h6 : f * (21 * c) = 21 * c * f := Nat.mul_comm _ _
  rw [Nat.mul_add, Nat.mul_add] at h1
  rw [Nat.mul_add] at htries
  rw [Nat.mul_add, Nat.mul_add, Nat.mul_one] at h4
  omega

/-! ## Starvation -/

def steady (gap : Nat) : Nat → Nat → List (List Nat)
  | _, 0 => []
  | t, n + 1 => [t] :: steady gap (t + gap) n

theorem steady_paced (t n : Nat) : (steady gap t n).length = n ∧ Paced gap (steady gap t n) ∧ ∀ poll ∈ steady gap t n, ∀ now ∈ poll, t ≤ now := by
  induction n generalizing t with
  | zero => exact ⟨rfl, ⟨nofun, .nil⟩, nofun⟩
  | succ n ih =>
    obtain ⟨hlen, hpaced, hle⟩ := ih (t + gap)
    refine ⟨congrArg Nat.succ hlen, ⟨?_, ?_⟩, ?_⟩
    · intro poll hp
      rcases List.mem_cons.mp hp with rfl | hp
      · exact List.cons_ne_nil _ _
      · exact hpaced.1 poll hp
    · cases n with
      | zero => exact .singleton _
      | succ n =>
        refine List.isChain_cons_cons.mpr ⟨fun a ha b hb => ?_, hpaced.2⟩
        rw [List.mem_singleton.mp ha, List.mem_singleton.mp hb]
        omega
    · intro poll hp now hm
      rcases List.mem_cons.mp hp with rfl | hp
      · exact (List.mem_singleton.mp hm).ge
      · exact (Nat.le_add_right _ _).trans (hle poll hp now hm)

/-- The older poison rows that still wait after `s`. -/
def waiting (opts : RelayOptions) (publish : OutboxEnvelope Payload → Option String) (x : OutboxRow Payload) (s : Nat) (db : List (OutboxRow Payload)) : Nat :=
  db.countP fun r => (r.publishedAt = none ∧ r.key < x.key ∧ ¬ publishable opts publish r) ∧ s < r.availableAt

theorem relayed_behind (hn : (db.map OutboxRow.id).Nodup) (hc : Claimed db now opts.batchSize rows) (hx : x ∈ db)
    (hp : publishable opts publish x = true) {q : OutboxRow Payload} (hq : q ∈ db) (hqd : q.due now) (hqp : publishable opts publish q = false)
    (hlt : q.key < x.key) : relayed opts publish now rows x = x := by
  rcases relayed_publishable hn hc hx hp with ⟨hm, -⟩ | ⟨-, he⟩
  · exfalso
    by_cases hqr : q ∈ rows
    · have happ := List.takeWhile_append_dropWhile (p := publishable opts publish) (l := rows)
      have hsorted := hc.sorted
      rw [← happ] at hqr hsorted
      rcases List.mem_append.mp hqr with hpre | hdrop
      · rw [List.all_eq_true.mp List.all_takeWhile q hpre] at hqp
        cases hqp
      · exact lt_asymm hlt ((List.pairwise_append.mp hsorted).2.2 x hm q hdrop)
    · exact lt_asymm hlt ((hc.missed q hq hqd hqr).1 x (List.takeWhile_subset _ hm))
  · exact he

theorem countP_le_add {α : Type*} {p q r : α → Bool} (l : List α) (h : ∀ a ∈ l, p a → q a ∨ r a) : l.countP p ≤ l.countP q + l.countP r := by
  induction l with
  | nil => exact Nat.zero_le _
  | cons a l ih =>
    have hrest := ih fun b hb => h b (List.mem_cons_of_mem _ hb)
    have hone := h a List.mem_cons_self
    rw [List.countP_cons, List.countP_cons, List.countP_cons]
    cases hp : p a with
    | false => simp only [Bool.false_eq_true, if_false]; omega
    | true =>
      rcases hone hp with hq | hq <;> simp only [hq, if_true] <;> omega

theorem waiting_step (hgap : 0 < gap) (hn : (db.map OutboxRow.id).Nodup) (hc : Claimed db now opts.batchSize rows)
    (hw : ∀ j, waiting opts publish x (now + j * gap) db ≤ opts.polls gap - 1 - j) (j : Nat) :
    waiting opts publish x (now + gap + j * gap) (db.map (relayed opts publish now rows)) ≤ opts.polls gap - 1 - j := by
  have hnext := hw (j + 1)
  have hcase : ∀ r ∈ db, ((relayed opts publish now rows r).publishedAt = none ∧ (relayed opts publish now rows r).key < x.key ∧
      ¬ publishable opts publish (relayed opts publish now rows r)) ∧ now + gap + j * gap < (relayed opts publish now rows r).availableAt →
      ((r.publishedAt = none ∧ r.key < x.key ∧ ¬ publishable opts publish r) ∧ now + (j + 1) * gap < r.availableAt) ∨
        ((rows.dropWhile (publishable opts publish)).head?.map OutboxRow.id = some r.id ∧ j + 1 < opts.polls gap) := by
    rintro r hr ⟨⟨h1, h2, h3⟩, h4⟩
    have hkept := (@relayed_kept _ opts publish now) rows r
    rw [hkept.publishable] at h3
    have hbad : publishable opts publish r = false := by simpa using h3
    rcases relayed_poison hn hc hr hbad with ⟨-, he⟩ | ⟨hd, hhead, reason, he⟩
    · rw [he] at h1 h2 h4
      exact .inl ⟨⟨h1, h2, h3⟩, by rw [Nat.succ_mul]; omega⟩
    · right
      refine ⟨by rw [hhead]; rfl, ?_⟩
      rw [he] at h4
      simp only [OutboxRow.backOff] at h4
      have hdelay := (@delay_le opts _ r.attempts) hgap
      by_contra hge
      have hmul := Nat.mul_le_mul_right gap (Nat.le_of_not_lt hge)
      rw [Nat.succ_mul] at hmul
      omega
  unfold waiting
  rw [List.countP_map]
  by_cases hlast : j + 1 < opts.polls gap
  · -- the head of the failed batch is one row
    have hone : db.countP (fun r => (rows.dropWhile (publishable opts publish)).head?.map OutboxRow.id = some r.id) ≤ 1 := by
      cases (rows.dropWhile (publishable opts publish)).head? with
      | none => exact (List.countP_eq_zero.mpr fun r _ hr => (by cases of_decide_eq_true hr)).le.trans (Nat.zero_le _)
      | some q =>
        refine le_trans ?_ (List.nodup_iff_count_le_one.mp hn q.id)
        rw [List.count, List.countP_map]
        refine List.countP_mono_left fun r _ hr => ?_
        rw [Function.comp_apply, beq_iff_eq]
        exact (Option.some.inj (of_decide_eq_true hr)).symm
    refine (countP_le_add db fun r hr hh => (hcase r hr (of_decide_eq_true hh)).imp decide_eq_true fun h => decide_eq_true h.1).trans ?_
    unfold waiting at hnext
    omega
  · have hsame : db.countP ((fun r => decide ((r.publishedAt = none ∧ r.key < x.key ∧ ¬ publishable opts publish r) ∧
        now + gap + j * gap < r.availableAt)) ∘ relayed opts publish now rows) ≤ waiting opts publish x (now + (j + 1) * gap) db := by
      refine List.countP_mono_left fun r hr hh => ?_
      rcases hcase r hr (of_decide_eq_true hh) with h | ⟨-, h⟩
      · exact decide_eq_true h
      · exact absurd h hlast
    omega

theorem drainPass_single (t : Nat) (hn : (db.map OutboxRow.id).Nodup) (published : Nat) :
    (drainPass opts publish published [t] db).1 =
      db.map (relayed opts publish t (page OutboxRow.key opts.batchSize none (db.filter (OutboxRow.due t)))) := by
  have hc := (@claimed _ opts t) hn
  have hone : (drainPass opts publish published [t] db).1 = (drainOnce opts publish t db).1 := by
    unfold drainPass
    dsimp only
    split
    · rfl
    · rfl
  rw [hone]
  unfold drainOnce
  rw [relayRows_eq _ hc.ids]

theorem starved (hgap : 0 < gap) (n t : Nat) (hn : (db.map OutboxRow.id).Nodup) (hx : x ∈ db) (hp : publishable opts publish x = true)
    (hge : opts.polls gap ≤ poisonAhead opts publish db x)
    (hw : ∀ j, waiting opts publish x (t + j * gap) db ≤ opts.polls gap - 1 - j) :
    x ∈ relay opts publish (steady gap t n) db := by
  induction n generalizing t db with
  | zero => exact hx
  | succ n ih =>
    have hc := (@claimed _ opts t) hn
    have hkept : ∀ r, Kept opts r (relayed opts publish t (page OutboxRow.key opts.batchSize none (db.filter (OutboxRow.due t))) r) :=
      fun r => relayed_kept _ r
    have hpos : 0 < opts.polls gap := lt_of_lt_of_le Nat.one_pos (le_max_left _ _)
    -- not all of them wait
    obtain ⟨q, hq, ⟨hqn, hlt, hqp⟩, hqd⟩ : ∃ q ∈ db, (q.publishedAt = none ∧ q.key < x.key ∧ ¬ publishable opts publish q) ∧ q.availableAt ≤ t := by
      by_contra hall
      have hle : poisonAhead opts publish db x ≤ waiting opts publish x t db := by
        refine List.countP_mono_left fun r hr hh => ?_
        have hpoison := of_decide_eq_true hh
        exact decide_eq_true ⟨hpoison, Nat.lt_of_not_le fun hd => hall ⟨r, hr, hpoison, hd⟩⟩
      have hzero := hw 0
      rw [Nat.zero_mul, Nat.add_zero] at hzero
      omega
    have hbehind := relayed_behind hn hc hx hp hq (decide_eq_true ⟨hqn, hqd⟩) (by simpa using hqp) hlt
    unfold steady relay
    rw [List.foldl_cons, drainPass_single t hn]
    refine ih (t + gap) ?_ ?_ ?_ fun j => waiting_step hgap hn hc hw j
    · rw [List.map_map]
      exact (List.map_congr_left fun r _ => (hkept r).id) ▸ hn
    · exact List.mem_map.mpr ⟨x, hx, hbehind⟩
    · refine hge.trans ?_
      unfold poisonAhead
      rw [List.countP_map]
      refine List.countP_mono_left fun r hr hh => ?_
      obtain ⟨h1, h2, h3⟩ := of_decide_eq_true hh
      have hbad : publishable opts publish r = false := by simpa using h3
      refine decide_eq_true ⟨?_, (hkept r).key ▸ h2, fun hok => h3 ((hkept r).publishable ▸ hok)⟩
      rcases relayed_poison hn hc hr hbad with ⟨-, he⟩ | ⟨-, -, reason, he⟩
      · rw [he]
        exact h1
      · rw [he]
        exact h1

theorem starved_of_ge (hgap : 0 < gap) (hn : (db.map OutboxRow.id).Nodup) (hx : x ∈ db) (hp : publishable opts publish x = true)
    (hnone : x.publishedAt = none) (hge : opts.polls gap ≤ poisonAhead opts publish db x) (n : Nat) : ¬ PublishedWithin opts publish gap db x n := by
  intro hall
  -- from the latest of the times on, no row waits
  have hlate : ∀ r ∈ db, r.availableAt ≤ (db.map OutboxRow.availableAt).sum := fun r hr => List.le_sum_of_mem (List.mem_map_of_mem hr)
  obtain ⟨hlen, hpaced, hle⟩ := (@steady_paced gap) (db.map OutboxRow.availableAt).sum n
  obtain ⟨r, hr, hid, hsome⟩ := hall _ hlen hpaced fun poll hp now hm => (hlate x hx).trans (hle poll hp now hm)
  have hstay := starved hgap n (db.map OutboxRow.availableAt).sum hn hx hp hge fun j => by
    refine (List.countP_eq_zero.mpr fun r hr hh => ?_).le.trans (Nat.zero_le _)
    have hwait := (of_decide_eq_true hh).2
    have := hlate r hr
    omega
  obtain rfl := eq_of_key ((relay_ids _ hn).symm ▸ hn) hr hstay hid
  rw [hnone] at hsome
  cases hsome

/-- The row is published within polls bounded by the size of the outbox when fewer poison rows
are older than polls fit in the longest backoff, and otherwise within no number of them. -/
theorem relay_unstarved_iff (opts : RelayOptions) (publish : OutboxEnvelope Payload → Option String) (gap : Nat) (hgap : 0 < gap)
    (outbox : Outbox Payload) (x : OutboxRow Payload) (hx : x ∈ outbox.rows) (hnone : x.publishedAt = none) (hp : publishable opts publish x = true)
    (n : Nat) (hn : 21 * opts.polls gap * outbox.rows.length ≤ n) :
    PublishedWithin opts publish gap outbox.rows x n ↔ poisonAhead opts publish outbox.rows x < opts.polls gap := by
  refine ⟨fun h => lt_of_not_ge fun hge => ?_, fun hlt => ?_⟩
  · exact starved_of_ge hgap outbox.ids hx hp hnone hge n h
  · exact published_of_lt hgap outbox.ids hx hp hnone hn hlt

end

def queued (n : Nat) : Outbox Unit where
  rows := (List.range n).map fun i => ⟨i, "order.created", (), none, 1, i, 0, 0, none, none⟩
  ids := by
    rw [List.map_map]
    exact (List.map_id (List.range n)).symm ▸ List.nodup_range

def unroutable (bad : Nat) (e : OutboxEnvelope Unit) : Option String := if e.id < bad then some "no route" else none

theorem relay_unstarved_iff_queued : PublishedWithin (.default "orders") (unroutable 2) 1000 (queued 3).rows ⟨2, "order.created", (), none, 1, 2, 0, 0, none, none⟩ 945 :=
  (relay_unstarved_iff (.default "orders") (unroutable 2) 1000 (by decide) (queued 3) _ (by decide) rfl (by decide) 945 (by decide)).mpr (by decide)

theorem relay_starves : ¬ ∃ bound : Nat → Nat, ∀ (publish : OutboxEnvelope Unit → Option String) (outbox : Outbox Unit) (x : OutboxRow Unit),
    x ∈ outbox.rows → x.publishedAt = none → publishable (.default "orders") publish x = true →
      PublishedWithin (.default "orders") publish 1000 outbox.rows x (bound outbox.rows.length) := by
  rintro ⟨bound, hall⟩
  have hin : (⟨15, "order.created", (), none, 1, 15, 0, 0, none, none⟩ : OutboxRow Unit) ∈ (queued 16).rows := by decide
  refine starved_of_ge (by decide) (queued 16).ids hin (by decide) rfl ?_ _ (hall (unroutable 15) (queued 16) _ hin rfl (by decide))
  decide +kernel

end NawaraCore.Events
