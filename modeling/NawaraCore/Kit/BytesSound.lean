import NawaraCore.Kit.SnapshotSound

/-!
# Snapshot bytes

The bytes of a sealed input, read and verified again, give its rows back. Inputs that differ in the
order of their rows have the same bytes, when no two rows of a table have one id text.
-/

namespace NawaraCore.Snapshot

open Json (Readable)

variable {input' : SealInput}

section
variable {N : Json.Numerals} {sha256Hex : Text → Text} {input : SealInput}

/-! ## Reading the bytes -/

def bytes (sha256Hex : Text → Text) (input : SealInput) : Option Text := (sealSnapshot sha256Hex input).bind serializeSnapshot

theorem readable_tables {f : Text × List Json → Json} (h : ∀ t ∈ input.ordered, Readable N (f t)) :
    Readable N (.obj (input.ordered.map fun t => (t.1, f t))) := by
  refine ⟨?_, Json.readableMembers_iff.mpr fun m hm => ?_⟩
  · rw [List.map_map]
    exact ordered_nodup input
  · obtain ⟨t, ht, rfl⟩ := List.mem_map.mp hm
    exact h t ht

theorem sealed_readable (hv : input.Valid N) (hf : input.Finite) : Readable N (input.sealed sha256Hex).json := by
  have hcounts : Readable N (countsJson (input.sealed sha256Hex).tables) := by
    rw [counts_eq]
    refine readable_tables fun t ht => ⟨N.safe _ ?_, rfl⟩
    obtain ⟨-, e, -, rfl⟩ := mem_ordered_tables ht
    have hlength := e.2.2
    rw [length_ordered]
    omega
  have hdigests : Readable N (digestsJson (input.sealed sha256Hex).tables) := by
    rw [digests_eq]
    exact readable_tables fun _ _ => trivial
  have htables : Readable N (tablesJson (input.sealed sha256Hex).tables) := by
    rw [tables_eq]
    refine readable_tables fun t ht => Json.readableItems_iff.mpr fun j hj => ?_
    obtain ⟨-, e, he, rfl⟩ := mem_ordered_tables ht
    obtain ⟨row, hr, rfl⟩ := mem_ordered.mp hj
    exact hv.row_readable hf he hr
  have hkeys : ([codes "format", codes "version", codes "source", codes "frozen", codes "counts", codes "digests", codes "tables"] : List Text).Nodup := by decide
  have hinner : ([codes "tables", codes "whole"] : List Text).Nodup := by decide
  exact ⟨hkeys, trivial, ⟨hv.version, hf.version⟩, hv.source_readable hf, trivial, hcounts, ⟨hinner, hdigests, trivial, trivial⟩, htables, trivial⟩

theorem bytes_finite (hv : input.Valid N) (hf : input.Finite) : bytes sha256Hex input = some ((Json.obj (input.artifact sha256Hex)).stringify ++ [10]) := by
  unfold bytes serializeSnapshot
  rw [seal_finite hf, Option.bind_some, Json.canonicalJson_readable (sealed_readable hv hf), artifact_json, Option.map_some]

theorem bytes_infinite (hf : ¬ input.Finite) : bytes sha256Hex input = none := by
  unfold bytes
  rw [seal_infinite hf, Option.bind_none]

theorem artifact_readable (hv : input.Valid N) (hf : input.Finite) : Readable N (.obj (input.artifact sha256Hex)) := by
  rw [← artifact_json]
  exact (sealed_readable hv hf).sortKeys

theorem bytes_parse (hv : input.Valid N) (hf : input.Finite) {text : Text} (h : bytes sha256Hex input = some text) :
    Json.parse N text = some (.obj (input.artifact sha256Hex)) := by
  rw [bytes_finite hv hf] at h
  rw [← Option.some.inj h]
  exact Json.parse_line (artifact_readable hv hf)

theorem artifact_of_bytes (hv : input.Valid N) (hf : input.Finite) (hv' : input'.Valid N) (hf' : input'.Finite)
    (h : bytes sha256Hex input = bytes sha256Hex input') : input.artifact sha256Hex = input'.artifact sha256Hex := by
  rw [bytes_finite hv hf, bytes_finite hv' hf', Option.some.injEq] at h
  exact Json.obj.inj ((artifact_readable hv hf).stringify_injective (artifact_readable hv' hf') (List.append_cancel_right h))

/-! ## The round trip -/

def SameRows (tables : Members) (input : SealInput) : Prop := ∀ name, match input.tables.entries.lookup name with
  | none => tables.lookup name = none
  | some t => ∃ rows, tables.lookup name = some (.arr rows) ∧ rows.Perm (t.1.map fun row => row.json.sortKeys)

def Returns (N : Json.Numerals) (sha256Hex : Text → Text) (input : SealInput) : Prop := ∃ text j artifact tables, bytes sha256Hex input = some text ∧
  Json.parse N text = some j ∧ verifySnapshot sha256Hex j input.format input.version = some (.ok artifact) ∧
  artifact.lookup (codes "tables") = some (.obj tables) ∧ SameRows tables input

theorem artifactTables_lookup {name : Text} (hp : name ≠ proto) :
    input.artifactTables.lookup name = (input.tables.entries.lookup name).map fun t => .arr ((ordered t.1).map Json.sortKeys) := by
  unfold SealInput.artifactTables
  rw [lookup_map (fun rows : List Json => Json.arr (rows.map Json.sortKeys)), lookup_ordered input hp, Option.map_map]
  rfl

theorem artifactTables_proto : input.artifactTables.lookup proto = none := by
  refine List.lookup_eq_none_iff.mpr fun m hm => ?_
  obtain ⟨t, ht, rfl⟩ := List.mem_map.mp hm
  have hne := (mem_ordered_tables ht).1.symm
  simpa using hne

theorem sameRows_artifact (hp : ∀ e ∈ input.tables.entries, e.1 ≠ proto) : SameRows input.artifactTables input := by
  intro name
  by_cases hname : name = proto
  · have hnone : input.tables.entries.lookup name = none := List.lookup_eq_none_iff.mpr fun e he => by
      have hne : name ≠ e.1 := fun h => hp e he (h.symm.trans hname)
      simpa using hne
    rw [hnone, hname]
    exact artifactTables_proto
  · have hlookup := (@artifactTables_lookup input) hname
    split
    · rename_i hnone
      rw [hlookup, hnone, Option.map_none]
    · rename_i t ht
      refine ⟨_, by rw [hlookup, ht, Option.map_some], ?_⟩
      have hperm : (ordered t.1).Perm (t.1.map SnapshotRow.json) := List.mergeSort_perm _ _
      have hrows := hperm.map Json.sortKeys
      rw [List.map_map] at hrows
      exact hrows

/-- **Sealing, writing, reading and verifying gives the rows back**, unless a number is not finite or a
table is called `__proto__`. -/
theorem returns_iff (hv : input.Valid N) : Returns N sha256Hex input ↔ input.Finite ∧ ∀ e ∈ input.tables.entries, e.1 ≠ proto := by
  constructor
  · rintro ⟨text, j, artifact, tables, hbytes, hparse, hverify, htables, hrows⟩
    have hf : input.Finite := by_contra fun hno => by
      rw [bytes_infinite hno] at hbytes
      cases hbytes
    refine ⟨hf, fun e he hp => ?_⟩
    rw [bytes_parse hv hf hbytes] at hparse
    cases Option.some.inj hparse
    rw [artifact_verifies hf] at hverify
    cases Except.ok.inj (Option.some.inj hverify)
    rw [((@artifact_parts sha256Hex) input).hasTables] at htables
    cases Json.obj.inj (Option.some.inj htables)
    have hproto := hrows proto
    rw [← hp, (lookup_some_iff input.tables.distinct).mpr he] at hproto
    obtain ⟨rows, hlookup, -⟩ := hproto
    rw [hp, artifactTables_proto] at hlookup
    cases hlookup
  · rintro ⟨hf, hp⟩
    exact ⟨_, _, _, _, bytes_finite hv hf, bytes_parse hv hf (bytes_finite hv hf), artifact_verifies hf, (artifact_parts input).hasTables, sameRows_artifact hp⟩

/-! ## The order of rows -/

structure Permuted (input input' : SealInput) : Prop where
  format : input'.format = input.format
  version : input'.version = input.version
  source : input'.source = input.source
  frozen : input'.frozen = input.frozen
  tables : List.Forall₂ (fun e e' : Text × Table => e'.1 = e.1 ∧ e'.2.1.Perm e.2.1) input.tables.entries input'.tables.entries

def OrderFree (sha256Hex : Text → Text) (input : SealInput) : Prop := ∀ input', Permuted input input' → bytes sha256Hex input' = bytes sha256Hex input

def SealInput.DistinctIds (input : SealInput) : Prop := ∀ e ∈ input.tables.entries, e.2.1.Pairwise fun a b => a.id ≠ b.id

def SealInput.DistinctTexts (input : SealInput) : Prop := ∀ e ∈ input.tables.entries, (e.2.1.map SnapshotRow.idText).Nodup

theorem forall₂_mem {α β : Type*} {R : α → β → Prop} {l : List α} {l' : List β} (h : List.Forall₂ R l l') {b : β} (hb : b ∈ l') : ∃ a ∈ l, R a b := by
  induction h with
  | nil => cases hb
  | cons hr _ ih =>
    rcases List.mem_cons.mp hb with rfl | hb
    · exact ⟨_, List.mem_cons_self, hr⟩
    · obtain ⟨a, ha, hab⟩ := ih hb
      exact ⟨a, List.mem_cons_of_mem _ ha, hab⟩

theorem Permuted.finite (h : Permuted input input') (hf : input.Finite) : input'.Finite := by
  refine ⟨h.version ▸ hf.version, h.source ▸ hf.source, fun e' he' row hr => ?_⟩
  obtain ⟨e, he, -, hp⟩ := forall₂_mem h.tables he'
  exact hf.rows e he row (hp.mem_iff.mp hr)

theorem Permuted.valid (h : Permuted input input') (hv : input.Valid N) : input'.Valid N := by
  refine ⟨h.version ▸ hv.version, h.source ▸ hv.source, fun e' he' row hr => ?_⟩
  obtain ⟨e, he, -, hp⟩ := forall₂_mem h.tables he'
  exact hv.rows e he row (hp.mem_iff.mp hr)

theorem Permuted.ordered (h : Permuted input input') (hd : input.DistinctTexts) : input'.ordered = input.ordered := by
  have hentries : ∀ {es es' : List (Text × Table)}, List.Forall₂ (fun e e' : Text × Table => e'.1 = e.1 ∧ e'.2.1.Perm e.2.1) es es' →
      (∀ e ∈ es, (e.2.1.map SnapshotRow.idText).Nodup) → es'.map (fun e => (e.1, Snapshot.ordered e.2.1)) = es.map fun e => (e.1, Snapshot.ordered e.2.1) := by
    intro es es' hes
    induction hes with
    | nil => exact fun _ => rfl
    | cons he _ ih =>
      intro hdistinct
      obtain ⟨hhead, htail⟩ := List.forall_mem_cons.mp hdistinct
      rw [List.map_cons, List.map_cons, he.1, ordered_perm he.2 hhead, ih htail]
  unfold SealInput.ordered
  rw [hentries h.tables hd]

theorem orderFree_of_texts (hv : input.Valid N) (hf : input.Finite) (hd : input.DistinctTexts) : OrderFree sha256Hex input := by
  intro input' h
  have hsealed : input'.sealed sha256Hex = input.sealed sha256Hex := by
    unfold SealInput.sealed SealInput.wholeJson
    rw [h.ordered hd, h.format, h.version, h.source, h.frozen]
  rw [bytes_finite hv hf, bytes_finite (h.valid hv) (h.finite hf), ← artifact_json, ← artifact_json, hsealed]

def SealInput.withRows (input : SealInput) (name : Text) (t : Table) : SealInput :=
  { input with
    tables := {
      entries := input.tables.entries.map fun e => (e.1, if e.1 = name then t else e.2)
      distinct := by
        rw [List.map_map]
        exact input.tables.distinct } }

variable {e : Text × Table}

theorem permuted_withRows (he : e ∈ input.tables.entries) {t : Table} (hp : t.1.Perm e.2.1) : Permuted input (input.withRows e.1 t) := by
  refine ⟨rfl, rfl, rfl, rfl, List.forall₂_map_right_iff.mpr (List.forall₂_same.mpr fun x hx => ⟨rfl, ?_⟩)⟩
  by_cases h : x.1 = e.1
  · rw [if_pos h, eq_of_key input.tables.distinct hx he h]
    exact hp
  · rw [if_neg h]

theorem lookup_withRows (he : e ∈ input.tables.entries) (t : Table) : (input.withRows e.1 t).tables.entries.lookup e.1 = some t :=
  (lookup_some_iff (input.withRows e.1 t).tables.distinct).mpr (List.mem_map.mpr ⟨e, he, by rw [if_pos rfl]⟩)

theorem pair_order {α : Type*} {l : List α} {a b : α} (hn : l.Nodup) (h : List.Sublist [a, b] l) (h' : List.Sublist [b, a] l) : False := by
  induction l with
  | nil => cases h
  | cons x l ih =>
    obtain ⟨hx, hn⟩ := List.nodup_cons.mp hn
    cases h with
    | cons _ h =>
      cases h' with
      | cons _ h' => exact ih hn h h'
      | cons_cons _ h' => exact hx (h.mem (List.mem_cons_of_mem _ List.mem_cons_self))
    | cons_cons _ h =>
      cases h' with
      | cons _ h' => exact hx (h'.mem (List.mem_cons_of_mem _ List.mem_cons_self))
      | cons_cons _ h' => exact hx (h.mem List.mem_cons_self)

theorem SnapshotRow.id_of_json {a b : SnapshotRow} (h : a.json.sortKeys = b.json.sortKeys) : a.id = b.id := by
  rw [a.json_sortKeys, b.json_sortKeys, Json.obj.injEq] at h
  have hid := congrArg (fun ms : Members => ms.lookup (codes "id")) h
  rw [a.lookup_sorted, b.lookup_sorted] at hid
  exact Option.map_injective (fun _ _ => Scalar.json_injective) hid

variable {rows : List SnapshotRow}

theorem pair_ordered {a b : SnapshotRow} (h : List.Sublist [a, b] rows) (ht : a.idText = b.idText) :
    List.Sublist [a.json.sortKeys, b.json.sortKeys] ((ordered rows).map Json.sortKeys) := by
  have hle : rowLe a.json b.json = true := by
    have htext : (rowId a.json).getD [] = (rowId b.json).getD [] := ht
    rw [rowLe, htext]
    exact decide_eq_true (le_refl _)
  exact (List.pair_sublist_mergeSort rowLe_trans rowLe_total hle (h.map SnapshotRow.json)).map Json.sortKeys

theorem nodup_ordered (hd : rows.Pairwise fun a b => a.id ≠ b.id) : ((ordered rows).map Json.sortKeys).Nodup := by
  have hperm : ((ordered rows).map Json.sortKeys).Perm (rows.map fun row => row.json.sortKeys) := by
    have h := (List.mergeSort_perm (rows.map SnapshotRow.json) rowLe).map Json.sortKeys
    rw [List.map_map] at h
    exact h
  exact hperm.nodup_iff.mpr (List.pairwise_map.mpr (hd.imp fun hne heq => hne (SnapshotRow.id_of_json heq)))

theorem texts_of_orderFree (hv : input.Valid N) (hf : input.Finite) (hp : ∀ e ∈ input.tables.entries, e.1 ≠ proto) (hd : input.DistinctIds)
    (h : OrderFree sha256Hex input) : input.DistinctTexts := by
  intro e he
  refine List.pairwise_map.mpr (List.pairwise_iff_forall_sublist.mpr fun {a b} hab ht => ?_)
  obtain ⟨rest, hrest⟩ := hab.exists_perm_append
  have hlength : ∀ {l : List SnapshotRow}, l.Perm e.2.1 → l.length < 4294967296 := fun hl => by
    rw [hl.length_eq]
    exact e.2.2
  have hfirst : ([a, b] ++ rest).Perm e.2.1 := hrest.symm
  have hsecond : ([b, a] ++ rest).Perm e.2.1 := (List.Perm.swap a b rest).trans hfirst
  have hpermuted := permuted_withRows (t := ⟨_, hlength hfirst⟩) he hfirst
  have hpermuted' := permuted_withRows (t := ⟨_, hlength hsecond⟩) he hsecond
  have hartifact := artifact_of_bytes (hpermuted.valid hv) (hpermuted.finite hf) (hpermuted'.valid hv) (hpermuted'.finite hf)
    ((h _ hpermuted).trans (h _ hpermuted').symm)
  have htables := ((@artifact_parts sha256Hex) (input.withRows e.1 ⟨_, hlength hfirst⟩)).hasTables
  rw [hartifact, ((@artifact_parts sha256Hex) (input.withRows e.1 ⟨_, hlength hsecond⟩)).hasTables, Option.some.injEq, Json.obj.injEq] at htables
  have hrows := congrArg (fun ms : Members => ms.lookup e.1) htables
  rw [artifactTables_lookup (hp e he), artifactTables_lookup (hp e he), lookup_withRows he, lookup_withRows he] at hrows
  have hrows := Json.arr.inj (Option.some.inj hrows)
  have hab' := (@pair_ordered ([a, b] ++ rest)) (List.sublist_append_left _ _) ht
  have hba' := (@pair_ordered ([b, a] ++ rest)) (List.sublist_append_left _ _) ht.symm
  rw [← hrows] at hab'
  refine pair_order (nodup_ordered ?_) hab' hba'
  exact hsecond.symm.pairwise (hd e he) fun hne => hne.symm

end

/-! ## A count of no table -/

section
variable (sha256Hex : Text → Text)

def strayRows : List Json := [.obj [(codes "id", .str (codes "a"))]]

def strayCounts : Json := .obj [(codes "t", .num (.int 1)), (codes "ghost", .num (.int 9))]

def strayDigests : Json := .obj [(codes "t", .str (sha256Hex (rowsText strayRows)))]

def strayWhole : Text := sha256Hex (wholeJson (.str (codes "f")) (.obj []) (.num (.int 1)) (.bool true) strayCounts (strayDigests sha256Hex)).sortKeys.stringify

def stray : Members :=
  [(codes "format", .str (codes "f")), (codes "version", .num (.int 1)), (codes "source", .obj []), (codes "frozen", .bool true), (codes "counts", strayCounts),
    (codes "digests", .obj [(codes "tables", strayDigests sha256Hex), (codes "whole", .str (strayWhole sha256Hex))]),
    (codes "tables", .obj [(codes "t", .arr strayRows)])]

theorem stray_wellFormed : (Json.obj (stray sha256Hex)).WellFormed := by
  have hkeys : ([codes "format", codes "version", codes "source", codes "frozen", codes "counts", codes "digests", codes "tables"] : List Text).Nodup := by decide
  have hcounts : ([codes "t", codes "ghost"] : List Text).Nodup := by decide
  have hdigests : ([codes "tables", codes "whole"] : List Text).Nodup := by decide
  have hone : ∀ k : Text, ([k] : List Text).Nodup := List.nodup_singleton
  exact ⟨hkeys, trivial, trivial, ⟨List.nodup_nil, trivial⟩, trivial, ⟨hcounts, trivial, trivial, trivial⟩, ⟨hdigests, ⟨hone _, trivial, trivial⟩, trivial, trivial⟩,
    ⟨hone _, ⟨⟨hone _, trivial, trivial⟩, trivial⟩, trivial⟩, trivial⟩

theorem stray_parts : Parts (stray sha256Hex) [(codes "t", .arr strayRows)] (strayDigests sha256Hex) strayCounts (strayWhole sha256Hex) :=
  ⟨rfl, rfl, rfl, nofun⟩

theorem stray_clean : Clean sha256Hex strayCounts (strayDigests sha256Hex) (codes "t") strayRows (sha256Hex (rowsText strayRows)) := by
  have horder : orderRows strayRows = some strayRows := by
    rw [orderRows, if_pos (.inl (by decide)), strayRows, List.mergeSort_singleton]
  refine ⟨rfl, ⟨strayRows, horder, rfl⟩, rfl, ?_⟩
  exact (isDigest_iff (by decide)).mpr rfl

theorem stray_verifies : verifySnapshot sha256Hex (.obj (stray sha256Hex)) (codes "f") (.int 1) = some (.ok (stray sha256Hex)) := by
  have hproto : ∀ t ∈ ([(codes "t", .arr strayRows)] : Members), t.1 ≠ proto := fun t ht => by
    obtain rfl := List.mem_singleton.mp ht
    show codes "t" ≠ proto
    decide
  have hclean : ∀ t ∈ ([(codes "t", .arr strayRows)] : Members), ∃ rows digest, t.2 = .arr rows ∧ Clean sha256Hex strayCounts (strayDigests sha256Hex) t.1 rows digest := fun t ht => by
    obtain rfl := List.mem_singleton.mp ht
    exact ⟨_, _, rfl, stray_clean sha256Hex⟩
  refine verify_of_parts (stray_parts sha256Hex) rfl rfl rfl rfl ?_ ?_
  · have hnames : joined ([(codes "t", Json.arr strayRows)].map Prod.fst) = joined (keys (strayDigests sha256Hex)) := rfl
    rw [tableErrors, if_pos hnames, List.flatMap_cons, (stray_clean sha256Hex).check]
    rfl
  · rw [recomputed_eq hproto hclean]
    rfl

end

theorem stray_accepted : ¬ ∀ (artifact : JsonValue) (format : Text) (version : JsNumber) (s : Members),
    verifySnapshot (fun t => t) artifact.1 format version = some (.ok s) → ∃ tables digests counts whole, Parts s tables digests counts whole ∧
      Matches (fun t => t) s tables digests counts whole := by
  intro h
  obtain ⟨tables, digests, counts, whole, hp, hm⟩ := h ⟨_, stray_wellFormed fun t => t⟩ _ _ _ (stray_verifies fun t => t)
  cases Option.some.inj ((stray_parts fun t => t).hasCounts.symm.trans hp.hasCounts)
  cases Json.obj.inj (Option.some.inj ((stray_parts fun t => t).hasTables.symm.trans hp.hasTables))
  have hghost := hm.noOtherCount (codes "ghost") (List.mem_cons_of_mem _ List.mem_cons_self)
  exact absurd hghost (by decide)

/-! ## The law -/

/-- **Sealing and verifying agree** exactly so far: the bytes do not depend on the order of the rows and give them
back, for finite numbers, no table called `__proto__` and ids whose texts differ; and an accepted artifact has the counts and
digests of its rows and no others when its counts name only tables, and it lists a digest only when it has a table. -/
theorem snapshot_law (N : Json.Numerals) (sha256Hex : Text → Text) :
    (∀ input : SealInput, input.Valid N → input.DistinctIds →
      (OrderFree sha256Hex input ∧ Returns N sha256Hex input ↔ input.Finite ∧ (∀ e ∈ input.tables.entries, e.1 ≠ proto) ∧ input.DistinctTexts)) ∧
    ∀ (artifact : JsonValue) (format : Text) (version : JsNumber) (s : Members), verifySnapshot sha256Hex artifact.1 format version = some (.ok s) →
      ∃ tables digests counts whole, artifact.1 = .obj s ∧ Parts s tables digests counts whole ∧
        (Matches sha256Hex s tables digests counts whole ↔ (∀ name ∈ keys counts, name ∈ tables.map Prod.fst) ∧ (tables = [] → keys digests = [])) := by
  refine ⟨fun input hv hd => ⟨?_, ?_⟩, fun artifact format version s h => accepted_matches artifact h⟩
  · rintro ⟨horder, hreturns⟩
    obtain ⟨hf, hp⟩ := (returns_iff hv).mp hreturns
    exact ⟨hf, hp, texts_of_orderFree hv hf hp hd horder⟩
  · rintro ⟨hf, hp, ht⟩
    exact ⟨orderFree_of_texts hv hf ht, (returns_iff hv).mpr ⟨hf, hp⟩⟩

def rowOf (name : String) : SnapshotRow := { entries := [(codes "id", .str (codes name))], distinct := List.nodup_singleton _ }

def twoRows : SealInput where
  format := codes "f"
  version := .int 1
  source := { entries := [], distinct := List.nodup_nil }
  frozen := true
  tables := { entries := [(codes "t", ⟨[rowOf "a", rowOf "b"], by decide⟩)], distinct := List.nodup_singleton _ }

theorem snapshot_law_sample : (OrderFree (fun t => t) twoRows ∧ Returns Json.integers (fun t => t) twoRows) ∧
    ∃ tables digests counts whole, Parts (stray fun t => t) tables digests counts whole ∧ (Matches (fun t => t) (stray fun t => t) tables digests counts whole ↔
      (∀ name ∈ keys counts, name ∈ tables.map Prod.fst) ∧ (tables = [] → keys digests = [])) := by
  refine ⟨((snapshot_law Json.integers fun t => t).1 twoRows ⟨⟨1, rfl⟩, ?_, ?_⟩ ?_).mpr ⟨⟨rfl, rfl, ?_⟩, ?_, ?_⟩, ?_⟩
  · intro e he
    cases he
  · intro e he row hr f hf
    obtain rfl := List.mem_singleton.mp he
    rcases List.mem_cons.mp hr with rfl | hr
    · obtain rfl := List.mem_singleton.mp hf
      trivial
    · obtain rfl := List.mem_singleton.mp hr
      obtain rfl := List.mem_singleton.mp hf
      trivial
  · intro e he
    obtain rfl := List.mem_singleton.mp he
    decide
  · intro e he row hr
    obtain rfl := List.mem_singleton.mp he
    rcases List.mem_cons.mp hr with rfl | hr
    · rfl
    · obtain rfl := List.mem_singleton.mp hr
      rfl
  · intro e he
    obtain rfl := List.mem_singleton.mp he
    decide
  · intro e he
    obtain rfl := List.mem_singleton.mp he
    decide
  · obtain ⟨tables, digests, counts, whole, -, h⟩ := (snapshot_law Json.integers fun t => t).2 ⟨_, stray_wellFormed fun t => t⟩ _ _ _ (stray_verifies fun t => t)
    exact ⟨tables, digests, counts, whole, h⟩

end NawaraCore.Snapshot
