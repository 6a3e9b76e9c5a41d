import NawaraCore.Kit.Snapshot

/-!
# What an accepted artifact says

Every table of an accepted artifact has its count and its digest. Nothing else has a digest,
when there is a table at all; a count may name no table.
-/

namespace NawaraCore.Snapshot

/-! ## Names -/

def segments (name : Text) : List Text := name.splitOn 44

theorem segments_ne_nil (name : Text) : segments name ≠ [] := List.splitOn_ne_nil _ _

theorem segments_intercalate (name : Text) (names : List Text) : segments ([44].intercalate (name :: names)) = (name :: names).flatMap segments := by
  induction names generalizing name with
  | nil => simp [List.intercalate]
  | cons n ns ih =>
    rw [List.intercalate_cons_cons, List.append_assoc, List.singleton_append, segments, List.splitOn_append_cons_self, List.flatMap_cons]
    exact congrArg (segments name ++ ·) (ih n)

variable {names : List Text}

theorem segments_joined (h : names ≠ []) : (segments (joined names)).Perm (names.flatMap segments) := by
  have hperm := List.mergeSort_perm names fun a b => decide (a ≤ b)
  unfold joined
  cases hs : names.mergeSort fun a b => decide (a ≤ b) with
  | nil => exact absurd (List.nil_perm.mp (hs ▸ hperm)) h
  | cons n ns =>
    rw [segments_intercalate, ← hs]
    exact hperm.flatMap_right segments

variable {name : Text} {tables : Members} {digests counts : Json} {ks : List Text}

theorem eq_of_segments {n : Text} (h : segments n = [name]) : n = name := by
  have hjoin : [44].intercalate (segments n) = n := List.intercalate_splitOn 44
  rw [← hjoin, h]
  simp [List.intercalate]

variable {as : List Text}

theorem perm_others (ha : as.Nodup) (hk : ks.Nodup) (hsub : ∀ n ∈ as, n ∈ ks) : ks.Perm (as ++ ks.filter fun k => k ∉ as) := by
  have hnodup : (as ++ ks.filter fun k => k ∉ as).Nodup := by
    refine List.nodup_append.mpr ⟨ha, hk.filter _, ?_⟩
    rintro n hmem k hkmem rfl
    exact of_decide_eq_true (List.mem_filter.mp hkmem).2 hmem
  refine (List.perm_ext_iff_of_nodup hk hnodup).mpr fun k => ?_
  rw [List.mem_append, List.mem_filter, decide_eq_true_eq]
  constructor
  · intro hmem
    by_cases h : k ∈ as
    · exact .inl h
    · exact .inr ⟨hmem, h⟩
  · rintro (hmem | ⟨hmem, -⟩)
    · exact hsub k hmem
    · exact hmem

theorem segments_others {x : List Text} (ha : as.Nodup) (hk : ks.Nodup) (hsub : ∀ n ∈ as, n ∈ ks)
    (h : (as.flatMap segments ++ x).Perm (ks.flatMap segments)) : x.Perm ((ks.filter fun k => k ∉ as).flatMap segments) := by
  refine (List.perm_append_left_iff (as.flatMap segments)).mp (h.trans ?_)
  rw [← List.flatMap_append]
  exact (perm_others ha hk hsub).flatMap_right segments

/-- **Two lists of distinct names with one joined text.** The second has the names of the first, of which
`__proto__` is left out: then the first has no such name, and the second no other. -/
theorem names_exact (hn : names.Nodup) (hk : ks.Nodup) (hne : names ≠ []) (hjoin : joined names = joined ks)
    (hsub : ∀ n ∈ names, n ≠ proto → n ∈ ks) (hproto : proto ∈ names → proto ∉ ks) : proto ∉ names ∧ ∀ k ∈ ks, k ∈ names := by
  have hkne : ks ≠ [] := by
    rintro rfl
    have hall : ∀ n ∈ names, n = proto := fun n hmem => by_contra fun h => by cases hsub n hmem h
    have hone : names = [proto] := by
      cases names with
      | nil => exact absurd rfl hne
      | cons a l =>
        cases l with
        | nil => rw [hall a List.mem_cons_self]
        | cons b l =>
          have heq : a = b := (hall a List.mem_cons_self).trans (hall b (List.mem_cons_of_mem _ List.mem_cons_self)).symm
          exact absurd (heq ▸ List.mem_cons_self) (List.nodup_cons.mp hn).1
    have hproto : joined [proto] = proto := by simp [joined, List.intercalate]
    rw [hone, hproto] at hjoin
    exact absurd hjoin (by simp only [joined, List.mergeSort_nil]; decide)
  have hsegments : (names.flatMap segments).Perm (ks.flatMap segments) := (segments_joined hne).symm.trans (hjoin ▸ segments_joined hkne)
  by_cases hp : proto ∈ names
  · -- the segment `__proto__` would have to come from another name
    exfalso
    have hnames : names.Perm (names.filter (fun n => n ≠ proto) ++ [proto]) := by
      refine ((List.perm_ext_iff_of_nodup hn (List.nodup_cons.mpr ⟨by simp, hn.filter _⟩)).mpr fun k => ?_).trans (List.perm_append_singleton _ _).symm
      rw [List.mem_cons, List.mem_filter, decide_eq_true_eq]
      by_cases h : k = proto
      · simp [h, hp]
      · simp [h]
    have hall := (hnames.flatMap_right segments).symm.trans hsegments
    rw [List.flatMap_append] at hall
    have hself : [proto].flatMap segments = [proto] := by decide
    rw [hself] at hall
    have hone := segments_others (hn.filter _) hk (fun n hmem => hsub n (List.mem_filter.mp hmem).1 (of_decide_eq_true (List.mem_filter.mp hmem).2)) hall
    obtain ⟨k, hkmem, hseg⟩ := List.mem_flatMap.mp (hone.mem_iff.mp List.mem_cons_self)
    have hone' : segments k = [proto] := by
      obtain ⟨l₁, l₂, hsplit⟩ := List.append_of_mem hkmem
      have hlength := hone.length_eq
      rw [hsplit, List.flatMap_append, List.flatMap_cons, List.length_append, List.length_append, List.length_singleton] at hlength
      have hpos := List.length_pos_iff.mpr (segments_ne_nil k)
      obtain ⟨s, hs⟩ := List.length_eq_one_iff.mp (show (segments k).length = 1 by omega)
      rw [hs] at hseg ⊢
      rw [List.mem_singleton.mp hseg]
    exact hproto hp (eq_of_segments hone' ▸ (List.mem_filter.mp hkmem).1)
  · refine ⟨hp, fun k hmem => by_contra fun hno => ?_⟩
    have hnone := segments_others (x := []) hn hk (fun n hmem => hsub n hmem fun h => hp (h ▸ hmem)) (by rw [List.append_nil]; exact hsegments)
    obtain ⟨s, hs⟩ := List.exists_mem_of_ne_nil _ (segments_ne_nil k)
    cases hnone.mem_iff.mpr (List.mem_flatMap.mpr ⟨k, List.mem_filter.mpr ⟨hmem, decide_eq_true hno⟩, hs⟩)

/-! ## One table -/

variable {s : Members} {whole format : Text} {version : JsNumber}

section
variable {sha256Hex : Text → Text}

structure Clean (sha256Hex : Text → Text) (counts digests : Json) (name : Text) (rows : List Json) (digest : Text) : Prop where
  computed : digestRows sha256Hex rows = some digest
  canonical : ∃ ordered, orderRows rows = some ordered ∧ Json.canonicalJson (.arr ordered) = Json.canonicalJson (.arr rows)
  count : isCount (member counts name) rows.length = true
  listed : isDigest digests name digest = true

theorem digestRows_congr {rows rows' : List Json} (h : Json.canonicalJson (.arr rows) = Json.canonicalJson (.arr rows')) :
    digestRows sha256Hex rows = digestRows sha256Hex rows' := by
  unfold digestRows
  rw [h]

variable {digest : Text}

theorem Clean.check {rows : List Json} (h : Clean sha256Hex counts digests name rows digest) :
    checkTable sha256Hex counts digests name (.arr rows) = ([], some digest) := by
  obtain ⟨ordered, horder, heq⟩ := h.canonical
  have hdigest : digestRows sha256Hex ordered = some digest := (digestRows_congr heq).trans h.computed
  unfold checkTable
  dsimp only
  rw [horder, Option.bind_some, hdigest, Option.map_some]
  dsimp only
  rw [if_pos heq, if_pos h.count, if_pos h.listed]
  rfl

variable {j : Json}

theorem clean_of_check (h : (checkTable sha256Hex counts digests name j).1 = []) :
    ∃ rows digest, j = .arr rows ∧ Clean sha256Hex counts digests name rows digest := by
  unfold checkTable at h
  split at h
  · rename_i rows
    split at h
    · cases h
    · rename_i ordered digest hfound
      obtain ⟨o, horder, hd⟩ := Option.bind_eq_some_iff.mp hfound
      obtain ⟨d, hdigest, heq⟩ := Option.map_eq_some_iff.mp hd
      obtain ⟨rfl, rfl⟩ := Prod.mk.inj heq
      obtain ⟨hleft, hlisted⟩ := List.append_eq_nil_iff.mp h
      obtain ⟨hsame, hcount⟩ := List.append_eq_nil_iff.mp hleft
      have hsame : Json.canonicalJson (.arr o) = Json.canonicalJson (.arr rows) := by
        by_contra hno
        rw [if_neg hno] at hsame
        cases hsame
      refine ⟨rows, d, rfl, ?_, ⟨o, horder, hsame⟩, ?_, ?_⟩
      · rw [← digestRows_congr hsame, hdigest]
      · by_contra hno
        rw [if_neg hno] at hcount
        cases hcount
      · by_contra hno
        rw [if_neg hno] at hlisted
        cases hlisted
  · cases h

theorem isCount_iff {j : Option Json} {n : Nat} : isCount j n = true ↔ j = some (.num (.int n)) := by
  unfold isCount
  split
  · rename_i m
    rw [decide_eq_true_eq, Option.some.injEq, Json.num.injEq]
  · rename_i hno
    exact iff_of_false Bool.false_ne_true fun h => hno _ h

theorem isDigest_iff (h : name ≠ proto) :
    isDigest digests name digest = true ↔ member digests name = some (.str digest) := by
  unfold isDigest
  rw [if_neg h]
  split
  · rename_i d hd
    rw [hd, decide_eq_true_eq, Option.some.injEq, Json.str.injEq]
  · rename_i hno
    exact iff_of_false Bool.false_ne_true fun h => hno _ h

theorem keys_of_member {s : Text} (h : member j name = some (.str s)) : name ∈ keys j := by
  cases j with
  | obj members => exact List.mem_map.mpr ⟨_, Json.mem_of_lookup h, rfl⟩
  | arr items =>
    unfold member at h
    dsimp only at h
    split at h
    · cases h
    · obtain ⟨i, hi, -⟩ := Option.bind_eq_some_iff.mp h
      have hname := List.find?_some hi
      simp only [decide_eq_true_eq] at hname
      exact List.mem_map.mpr ⟨i, List.mem_of_find?_eq_some hi, hname⟩
  | _ => cases h

theorem keys_nodup (h : j.WellFormed) : (keys j).Nodup := by
  cases j with
  | obj members => exact h.1
  | arr items =>
    refine List.Nodup.map (fun a b hab => ?_) List.nodup_range
    exact Int.ofNat.inj (Json.intText_injective hab)
  | _ => exact List.nodup_nil

/-! ## The whole artifact -/

def carried (sha256Hex : Text → Text) (tables : Members) : Members :=
  tables.filterMap fun t => match t.2 with
    | .arr rows => (digestRows sha256Hex rows).map fun d => (t.1, .str d)
    | _ => none

def field (artifact : Members) (name : String) : Json := (artifact.lookup (codes name)).getD .null

structure Parts (artifact tables : Members) (digests counts : Json) (whole : Text) : Prop where
  hasTables : artifact.lookup (codes "tables") = some (.obj tables)
  hasDigests : digestsOf (artifact.lookup (codes "digests")) = some (digests, whole)
  hasCounts : countsOf (artifact.lookup (codes "counts")) = some counts
  listed : digests ≠ Json.null

/-- **The counts and digests are those of the rows**, and there are no others. -/
structure Matches (sha256Hex : Text → Text) (artifact tables : Members) (digests counts : Json) (whole : Text) : Prop where
  rows : ∀ t ∈ tables, ∃ rows digest, t.2 = .arr rows ∧ digestRows sha256Hex rows = some digest ∧ member counts t.1 = some (.num (.int rows.length)) ∧
    member digests t.1 = some (.str digest)
  noOtherCount : ∀ name ∈ keys counts, name ∈ tables.map Prod.fst
  noOtherDigest : ∀ name ∈ keys digests, name ∈ tables.map Prod.fst
  whole : wholeDigest sha256Hex (field artifact "format") (field artifact "source") (field artifact "version") (field artifact "frozen") counts
    (.obj (carried sha256Hex tables)) = some whole

theorem flatMap_eq_nil {α β : Type*} {l : List α} {f : α → List β} (h : l.flatMap f = []) : ∀ a ∈ l, f a = [] := List.flatMap_eq_nil_iff.mp h

variable {artifact : Members}

theorem verifyTables_ok
    (h : verifyTables sha256Hex artifact tables digests whole counts = some (.ok s)) : s = artifact ∧ tableErrors sha256Hex counts digests tables = [] ∧
      wholeDigest sha256Hex (field artifact "format") (field artifact "source") (field artifact "version") (field artifact "frozen") counts
        (.obj (recomputed sha256Hex counts digests tables)) = some whole := by
  unfold verifyTables at h
  split at h
  · rename_i hnone
    obtain ⟨w, hw, heq⟩ := Option.map_eq_some_iff.mp h
    split at heq
    · rename_i hwhole
      exact ⟨(Except.ok.inj heq).symm, hnone, hwhole ▸ hw⟩
    · cases heq
  · cases Option.some.inj h

theorem tables_clean (hn : (tables.map Prod.fst).Nodup) (hd : digests.WellFormed)
    (h : tableErrors sha256Hex counts digests tables = []) : (∀ t ∈ tables, ∃ rows digest, t.2 = .arr rows ∧ Clean sha256Hex counts digests t.1 rows digest) ∧
      (∀ t ∈ tables, t.1 ≠ proto) ∧ (tables ≠ [] → ∀ name ∈ keys digests, name ∈ tables.map Prod.fst) := by
  obtain ⟨hjoin, htables⟩ := List.append_eq_nil_iff.mp h
  have hclean : ∀ t ∈ tables, ∃ rows digest, t.2 = .arr rows ∧ Clean sha256Hex counts digests t.1 rows digest := fun t ht =>
    clean_of_check (flatMap_eq_nil htables t ht)
  have hjoin : joined (tables.map Prod.fst) = joined (keys digests) := by
    by_contra hno
    rw [if_neg hno] at hjoin
    cases hjoin
  by_cases hne : tables = []
  · subst hne
    exact ⟨hclean, nofun, fun h => absurd rfl h⟩
  · have hexact := names_exact hn (keys_nodup hd) (fun h => hne (List.map_eq_nil_iff.mp h)) hjoin ?_ ?_
    · exact ⟨hclean, fun t ht hp => hexact.1 (hp ▸ List.mem_map.mpr ⟨t, ht, rfl⟩), fun _ => hexact.2⟩
    · intro n hmem hp
      obtain ⟨t, ht, rfl⟩ := List.mem_map.mp hmem
      obtain ⟨rows, digest, -, hc⟩ := hclean t ht
      exact keys_of_member ((isDigest_iff hp).mp hc.listed)
    · intro hmem hlisted
      obtain ⟨t, ht, hp⟩ := List.mem_map.mp hmem
      obtain ⟨rows, digest, -, hc⟩ := hclean t ht
      have hnone := hc.listed
      unfold isDigest at hnone
      rw [if_pos hp] at hnone
      split at hnone
      · rename_i members
        obtain ⟨m, hm, hm'⟩ := List.mem_map.mp hlisted
        have hsome := Json.lookup_isSome hm
        rw [hm', Option.isSome_iff_ne_none, ne_eq, ← Option.isNone_iff_eq_none] at hsome
        exact hsome hnone
      · cases hnone

theorem recomputed_eq (hp : ∀ t ∈ tables, t.1 ≠ proto)
    (h : ∀ t ∈ tables, ∃ rows digest, t.2 = .arr rows ∧ Clean sha256Hex counts digests t.1 rows digest) :
    recomputed sha256Hex counts digests tables = carried sha256Hex tables := by
  unfold recomputed carried
  rw [List.filter_eq_self.mpr fun t ht => decide_eq_true (hp t ht)]
  refine List.filterMap_congr fun t ht => ?_
  obtain ⟨rows, digest, hrows, hc⟩ := h t ht
  rw [hrows, hc.check]
  dsimp only
  rw [hc.computed]

theorem verify_ok {input : Json} (h : verifySnapshot sha256Hex input format version = some (.ok s)) :
    ∃ tables digests counts whole, input = .obj s ∧ Parts s tables digests counts whole ∧ tableErrors sha256Hex counts digests tables = [] ∧
      wholeDigest sha256Hex (field s "format") (field s "source") (field s "version") (field s "frozen") counts
        (.obj (recomputed sha256Hex counts digests tables)) = some whole := by
  unfold verifySnapshot at h
  split at h
  · rename_i artifact
    obtain ⟨e₁, -, h⟩ := Option.bind_eq_some_iff.mp h
    obtain ⟨e₂, -, h⟩ := Option.bind_eq_some_iff.mp h
    dsimp only at h
    split at h
    · rename_i tables htables
      split at h
      · cases Option.some.inj h
      · rename_i digests whole hdigests
        split at h
        · cases Option.some.inj h
        · rename_i counts hcounts
          split at h
          · cases Option.some.inj h
          · split at h
            · cases h
            · rename_i hlisted
              obtain ⟨rfl, hnone, hwhole⟩ := verifyTables_ok h
              exact ⟨tables, digests, counts, whole, rfl, ⟨htables, hdigests, hcounts, fun he => hlisted he⟩, hnone, hwhole⟩
    · cases Option.some.inj h
  · cases Option.some.inj h

theorem verify_of_parts {frozen : Bool} {source : Members}
    (hp : Parts artifact tables digests counts whole) (hformat : artifact.lookup (codes "format") = some (.str format))
    (hversion : artifact.lookup (codes "version") = some (.num version)) (hfrozen : artifact.lookup (codes "frozen") = some (.bool frozen))
    (hsource : artifact.lookup (codes "source") = some (.obj source)) (hnone : tableErrors sha256Hex counts digests tables = [])
    (hwhole : wholeDigest sha256Hex (.str format) (.obj source) (.num version) (.bool frozen) counts (.obj (recomputed sha256Hex counts digests tables)) = some whole) :
    verifySnapshot sha256Hex (.obj artifact) format version = some (.ok artifact) := by
  have htables : verifyTables sha256Hex artifact tables digests whole counts = some (.ok artifact) := by
    unfold verifyTables
    rw [hnone]
    dsimp only
    rw [hformat, hversion, hfrozen, hsource]
    dsimp only [Option.getD_some]
    rw [hwhole, Option.map_some, if_pos rfl]
  unfold verifySnapshot
  dsimp only
  rw [hformat, hversion, hfrozen, hsource, hp.hasTables, hp.hasDigests, hp.hasCounts]
  simp only [checkFormat, checkVersion, checkFrozen, checkSource, if_pos, bind, Option.bind_some, List.append_nil, ne_eq, not_true_eq_false, if_false]
  split
  · exact absurd rfl hp.listed
  · exact htables

theorem Parts.wellFormed (hp : Parts s tables digests counts whole) (h : (Json.obj s).WellFormed) :
    (tables.map Prod.fst).Nodup ∧ digests.WellFormed := by
  refine ⟨(h.2.of_mem (Json.mem_of_lookup hp.hasTables)).1, ?_⟩
  have hd := hp.hasDigests
  unfold digestsOf at hd
  split at hd
  · rename_i members hlookup
    have hmembers := h.2.of_mem (Json.mem_of_lookup hlookup)
    split at hd
    · rename_i htables _
      obtain ⟨rfl, -⟩ := Prod.mk.inj (Option.some.inj hd)
      exact hmembers.2.of_mem (Json.mem_of_lookup htables)
    · rename_i htables _
      obtain ⟨rfl, -⟩ := Prod.mk.inj (Option.some.inj hd)
      exact hmembers.2.of_mem (Json.mem_of_lookup htables)
    · obtain ⟨rfl, -⟩ := Prod.mk.inj (Option.some.inj hd)
      exact absurd rfl hp.listed
    · cases hd
  · cases hd

/-- **An accepted artifact** has the counts and digests of its rows and no others, exactly when its
counts name only tables and, without a table, it lists no digest. -/
theorem accepted_matches (input : JsonValue)
    (h : verifySnapshot sha256Hex input.1 format version = some (.ok s)) : ∃ tables digests counts whole, input.1 = .obj s ∧ Parts s tables digests counts whole ∧
      (Matches sha256Hex s tables digests counts whole ↔ (∀ name ∈ keys counts, name ∈ tables.map Prod.fst) ∧ (tables = [] → keys digests = [])) := by
  obtain ⟨tables, digests, counts, whole, hinput, hp, hnone, hwhole⟩ := verify_ok h
  refine ⟨tables, digests, counts, whole, hinput, hp, ⟨fun hm => ⟨hm.noOtherCount, ?_⟩, fun ⟨hcounts, hdigests⟩ => ?_⟩⟩
  · rintro rfl
    exact List.eq_nil_iff_forall_not_mem.mpr fun name hmem => by cases hm.noOtherDigest name hmem
  · obtain ⟨hnodup, hwf⟩ := hp.wellFormed (hinput ▸ input.2)
    obtain ⟨hclean, hproto, hnames⟩ := tables_clean hnodup hwf hnone
    refine ⟨fun t ht => ?_, hcounts, ?_, ?_⟩
    · obtain ⟨rows, digest, hrows, hc⟩ := hclean t ht
      exact ⟨rows, digest, hrows, hc.computed, isCount_iff.mp hc.count, (isDigest_iff (hproto t ht)).mp hc.listed⟩
    · by_cases hne : tables = []
      · rw [hdigests hne]
        exact fun name hmem => by cases hmem
      · exact hnames hne
    · rw [← recomputed_eq hproto hclean]
      exact hwhole

end

end NawaraCore.Snapshot
