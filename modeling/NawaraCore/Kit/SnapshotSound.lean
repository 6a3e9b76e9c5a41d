import NawaraCore.Kit.ArtifactSound
import NawaraCore.Lib.JsonParseSound

/-!
# Sealing and verifying

What sealing makes of the tables, stated without the failures of the loop; then the round trip
through the bytes, and which orders of the rows give the same bytes.
-/

namespace NawaraCore.Snapshot

open Json (canonicalJson Readable)

/-! ## Rows -/

def SnapshotRow.id (row : SnapshotRow) : Option Scalar := row.entries.lookup (codes "id")

def SnapshotRow.idText (row : SnapshotRow) : Text := (rowId row.json).getD []

theorem Scalar.json_injective {a b : Scalar} (h : a.json = b.json) : a = b := by
  cases a <;> cases b <;> first | rfl | (injection h with h; rw [h]) | cases h

theorem Scalar.sortKeys (s : Scalar) : s.json.sortKeys = s.json := by cases s <;> rfl

theorem SnapshotRow.json_sortKeys (row : SnapshotRow) : row.json.sortKeys = .obj (byKey (row.entries.map fun e => (e.1, e.2.json))) := by
  rw [SnapshotRow.json, Record.json, Json.sortKeys_obj, List.map_map]
  congr 2
  exact List.map_congr_left fun e _ => congrArg (Prod.mk e.1) e.2.sortKeys

theorem SnapshotRow.nodup (row : SnapshotRow) : ((row.entries.map fun e => (e.1, e.2.json)).map Prod.fst).Nodup := by
  rw [List.map_map]
  exact row.distinct

theorem SnapshotRow.lookup_sorted (row : SnapshotRow) : (byKey (row.entries.map fun e => (e.1, e.2.json))).lookup (codes "id") = row.id.map Scalar.json := by
  rw [lookup_byKey row.nodup, lookup_map]
  rfl

theorem rowId_sortKeys (row : SnapshotRow) : rowId row.json.sortKeys = rowId row.json := by
  have h : (row.entries.map fun e => (e.1, e.2.json)).lookup (codes "id") = row.id.map Scalar.json := lookup_map _ _ _
  rw [row.json_sortKeys, SnapshotRow.json, Record.json, rowId, rowId, row.lookup_sorted, h]

theorem rowId_isSome (row : SnapshotRow) : (rowId row.json).isSome = true := by
  have h : (row.entries.map fun e => (e.1, e.2.json)).lookup (codes "id") = row.id.map Scalar.json := lookup_map _ _ _
  rw [SnapshotRow.json, Record.json, rowId, h]
  cases row.id with
  | none => rfl
  | some s => cases s <;> rfl

theorem rowLe_trans (a b c : Json) (hab : rowLe a b = true) (hbc : rowLe b c = true) : rowLe a c = true :=
  decide_eq_true (le_trans (of_decide_eq_true hab) (of_decide_eq_true hbc))

theorem rowLe_total (a b : Json) : (rowLe a b || rowLe b a) = true := by
  simpa [rowLe] using le_total ((rowId a).getD []) ((rowId b).getD [])

def ordered (rows : List SnapshotRow) : List Json := (rows.map SnapshotRow.json).mergeSort rowLe

variable {rows : List SnapshotRow}

theorem mem_ordered {j : Json} : j ∈ ordered rows ↔ ∃ row ∈ rows, row.json = j := by
  unfold ordered
  rw [List.mem_mergeSort, List.mem_map]

theorem length_ordered (rows : List SnapshotRow) : (ordered rows).length = rows.length := by
  unfold ordered
  rw [List.length_mergeSort, List.length_map]

theorem orderRows_eq (rows : List SnapshotRow) : orderRows (rows.map SnapshotRow.json) = some (ordered rows) := by
  refine if_pos (.inr (List.all_eq_true.mpr fun j hj => ?_))
  obtain ⟨row, -, rfl⟩ := List.mem_map.mp hj
  exact rowId_isSome row

theorem orderRows_ordered (rows : List SnapshotRow) : orderRows ((ordered rows).map Json.sortKeys) = some ((ordered rows).map Json.sortKeys) := by
  have hid : ∀ j ∈ ordered rows, rowId j.sortKeys = rowId j := fun j hj => by
    obtain ⟨row, -, rfl⟩ := mem_ordered.mp hj
    exact rowId_sortKeys row
  have hsome : ((ordered rows).map Json.sortKeys).all (fun r => (rowId r).isSome) = true := List.all_eq_true.mpr fun j hj => by
    obtain ⟨i, hi, rfl⟩ := List.mem_map.mp hj
    rw [hid i hi]
    obtain ⟨row, -, rfl⟩ := mem_ordered.mp hi
    exact rowId_isSome row
  rw [orderRows, if_pos (.inr hsome), List.mergeSort_of_pairwise]
  refine List.pairwise_map.mpr ((List.pairwise_mergeSort rowLe_trans rowLe_total _).imp_of_mem fun ha hb hab => ?_)
  unfold rowLe at hab ⊢
  rw [hid _ ha, hid _ hb]
  exact hab

theorem ordered_perm {rows' : List SnapshotRow} (hp : rows'.Perm rows) (hd : (rows.map SnapshotRow.idText).Nodup) : ordered rows' = ordered rows := by
  have hperm : (ordered rows').Perm (ordered rows) :=
    (List.mergeSort_perm _ _).trans ((hp.map _).trans (List.mergeSort_perm _ _).symm)
  refine hperm.eq_of_pairwise ?_ (List.pairwise_mergeSort rowLe_trans rowLe_total _) (List.pairwise_mergeSort rowLe_trans rowLe_total _)
  intro a b ha hb hab hba
  obtain ⟨r, hr, rfl⟩ := mem_ordered.mp ha
  obtain ⟨r', hr', rfl⟩ := mem_ordered.mp hb
  have htext : r.idText = r'.idText := le_antisymm (of_decide_eq_true hab) (of_decide_eq_true hba)
  rw [eq_of_key hd (hp.mem_iff.mp hr) hr' htext]

/-! ## Sealing -/

structure SealInput.Finite (input : SealInput) : Prop where
  version : Json.JsNumber.finite input.version = true
  source : (input.source.json SourceValue.json).finite = true
  rows : ∀ e ∈ input.tables.entries, ∀ row ∈ e.2.1, row.json.finite = true

section
variable (sha256Hex : Text → Text)

def rowsText (rows : List Json) : Text := (Json.arr rows).sortKeys.stringify

def sealedTable (e : Text × List Json) : SealedTable := { name := e.1, rows := e.2, digest := sha256Hex (rowsText e.2) }

def SealInput.ordered (input : SealInput) : List (Text × List Json) :=
  (byKey (input.tables.entries.map fun e => (e.1, Snapshot.ordered e.2.1))).filter fun e => e.1 ≠ proto

def SealInput.wholeJson (input : SealInput) : Json :=
  Snapshot.wholeJson (.str input.format) (input.source.json SourceValue.json) (.num input.version) (.bool input.frozen)
    (countsJson (input.ordered.map (sealedTable sha256Hex))) (digestsJson (input.ordered.map (sealedTable sha256Hex)))

def SealInput.sealed (input : SealInput) : SealedSnapshot :=
  { format := input.format, version := input.version, source := input.source, frozen := input.frozen, tables := input.ordered.map (sealedTable sha256Hex),
    whole := sha256Hex (input.wholeJson sha256Hex).sortKeys.stringify }

end

variable {e : Text × Table}

section
variable {sha256Hex : Text → Text} {input : SealInput}

theorem finite_ordered : (Json.arr (ordered rows)).finite = true ↔ ∀ row ∈ rows, row.json.finite = true := by
  rw [Json.finite, Json.finiteItems_eq, List.all_eq_true]
  constructor
  · exact fun h row hr => h _ (mem_ordered.mpr ⟨row, hr, rfl⟩)
  · intro h j hj
    obtain ⟨row, hr, rfl⟩ := mem_ordered.mp hj
    exact h row hr

theorem sealTable_finite (h : ∀ row ∈ e.2.1, row.json.finite = true) :
    sealTable sha256Hex e = some (sealedTable sha256Hex (e.1, ordered e.2.1)) := by
  have hdigest : digestRows sha256Hex (ordered e.2.1) = some (sha256Hex (rowsText (ordered e.2.1))) := by
    unfold digestRows canonicalJson
    rw [if_pos (finite_ordered.mpr h)]
    rfl
  unfold sealTable
  rw [orderRows_eq]
  simp only [bind, Option.bind_some, hdigest]
  rfl

theorem sealTable_infinite (h : ¬ ∀ row ∈ e.2.1, row.json.finite = true) : sealTable sha256Hex e = none := by
  have hdigest : digestRows sha256Hex (ordered e.2.1) = none := by
    unfold digestRows canonicalJson
    rw [if_neg fun hf => h (finite_ordered.mp hf)]
    rfl
  unfold sealTable
  rw [orderRows_eq]
  simp only [bind, Option.bind_some, hdigest]
  rfl

variable {es : List (Text × Table)}

theorem sealTables_finite (h : ∀ e ∈ es, ∀ row ∈ e.2.1, row.json.finite = true) :
    sealTables sha256Hex es = some (((es.map fun e => (e.1, ordered e.2.1)).filter fun e => e.1 ≠ proto).map (sealedTable sha256Hex)) := by
  induction es with
  | nil => rfl
  | cons e es ih =>
    rw [sealTables, sealTable_finite (h e List.mem_cons_self), ih fun e' he => h e' (List.mem_cons_of_mem _ he)]
    simp only [bind, Option.bind_some, List.map_cons]
    by_cases hp : e.1 = proto
    · rw [if_pos hp, List.filter_cons_of_neg (by simpa using hp)]
    · rw [if_neg hp, List.filter_cons_of_pos (by simpa using hp)]
      rfl

theorem sealTables_infinite (h : ¬ ∀ e ∈ es, ∀ row ∈ e.2.1, row.json.finite = true) : sealTables sha256Hex es = none := by
  induction es with
  | nil => exact absurd nofun h
  | cons e es ih =>
    rw [sealTables]
    by_cases he : ∀ row ∈ e.2.1, row.json.finite = true
    · rw [sealTable_finite he, ih fun hes => h (List.forall_mem_cons.mpr ⟨he, hes⟩)]
      rfl
    · rw [sealTable_infinite he]
      rfl

theorem finite_counts (tables : List SealedTable) : (countsJson tables).finite = true := by
  rw [countsJson, Json.finite, Json.finiteMembers_eq, List.all_map]
  exact List.all_eq_true.mpr fun t _ => rfl

theorem finite_digests (tables : List SealedTable) : (digestsJson tables).finite = true := by
  rw [digestsJson, Json.finite, Json.finiteMembers_eq, List.all_map]
  exact List.all_eq_true.mpr fun t _ => rfl

theorem ordered_byKey (input : SealInput) :
    (((byKey input.tables.entries).map fun e => (e.1, ordered e.2.1)).filter fun e => e.1 ≠ proto) = input.ordered := by
  unfold SealInput.ordered
  rw [byKey_map (fun t : Table => ordered t.1)]

theorem whole_finite (h : input.Finite) : (input.wholeJson sha256Hex).finite = true := by
  have hversion : (Json.num input.version).finite = true := h.version
  rw [SealInput.wholeJson, wholeJson, Json.finite, Json.finiteMembers_eq]
  simp only [List.all_cons, List.all_nil, finite_counts, finite_digests, h.source, hversion, Bool.and_true, Bool.true_and]
  rfl

theorem seal_finite (h : input.Finite) : sealSnapshot sha256Hex input = some (input.sealed sha256Hex) := by
  have htables := (@sealTables_finite sha256Hex) fun e he => h.rows e (mem_byKey.mp he)
  rw [ordered_byKey] at htables
  have hdigest : wholeDigest sha256Hex (.str input.format) (input.source.json SourceValue.json) (.num input.version) (.bool input.frozen)
      (countsJson (input.ordered.map (sealedTable sha256Hex))) (digestsJson (input.ordered.map (sealedTable sha256Hex))) =
        some (sha256Hex (input.wholeJson sha256Hex).sortKeys.stringify) := by
    unfold wholeDigest canonicalJson
    exact congrArg _ (if_pos (whole_finite h))
  unfold sealSnapshot
  rw [htables]
  simp only [bind, Option.bind_some, hdigest]
  rfl

theorem seal_infinite (h : ¬ input.Finite) : sealSnapshot sha256Hex input = none := by
  unfold sealSnapshot
  by_cases hrows : ∀ e ∈ byKey input.tables.entries, ∀ row ∈ e.2.1, row.json.finite = true
  · rw [sealTables_finite hrows, ordered_byKey]
    have hwhole : (input.wholeJson sha256Hex).finite = false := by
      by_contra hno
      have hall := eq_true_of_ne_false hno
      rw [SealInput.wholeJson, wholeJson, Json.finite, Json.finiteMembers_eq] at hall
      simp only [List.all_cons, List.all_nil, finite_counts, finite_digests, Bool.and_true, Bool.and_eq_true] at hall
      exact h ⟨hall.2.1, hall.2.2.1, fun e he => hrows e (mem_byKey.mpr he)⟩
    have hdigest : wholeDigest sha256Hex (.str input.format) (input.source.json SourceValue.json) (.num input.version) (.bool input.frozen)
        (countsJson (input.ordered.map (sealedTable sha256Hex))) (digestsJson (input.ordered.map (sealedTable sha256Hex))) = none := by
      unfold wholeDigest canonicalJson
      exact congrArg _ (if_neg (by rw [← SealInput.wholeJson, hwhole]; exact Bool.false_ne_true))
    simp only [bind, Option.bind_some, hdigest]
    rfl
  · rw [sealTables_infinite hrows]
    rfl

end

/-! ## The artifact -/

def Scalar.Valid (N : Json.Numerals) : Scalar → Prop
  | .num n => N.valid n
  | _ => True

def SourceValue.Valid (N : Json.Numerals) : SourceValue → Prop
  | .one s => s.Valid N
  | .many l => ∀ s ∈ l, s.Valid N

structure SealInput.Valid (N : Json.Numerals) (input : SealInput) : Prop where
  version : N.valid input.version
  source : ∀ e ∈ input.source.entries, e.2.Valid N
  rows : ∀ e ∈ input.tables.entries, ∀ row ∈ e.2.1, ∀ f ∈ row.entries, f.2.Valid N

variable {input : SealInput}

section
variable {N : Json.Numerals}

theorem Scalar.readable {s : Scalar} (hv : s.Valid N) (hf : s.json.finite = true) : Readable N s.json := by
  cases s with
  | num n => exact ⟨hv, hf⟩
  | _ => trivial

theorem readable_record {β : Type} {value : β → Json} {r : Record β} (h : ∀ e ∈ r.entries, Readable N (value e.2)) : Readable N (r.json value) := by
  refine ⟨?_, Json.readableMembers_iff.mpr fun m hm => ?_⟩
  · rw [List.map_map]
    exact r.distinct
  · obtain ⟨e, he, rfl⟩ := List.mem_map.mp hm
    exact h e he

theorem finite_record {β : Type} {value : β → Json} {r : Record β} (h : (r.json value).finite = true) : ∀ e ∈ r.entries, (value e.2).finite = true := by
  rw [Record.json, Json.finite, Json.finiteMembers_eq, List.all_map, List.all_eq_true] at h
  exact h

theorem SealInput.Valid.source_readable (hv : input.Valid N) (hf : input.Finite) : Readable N (input.source.json SourceValue.json) := by
  refine readable_record fun e he => ?_
  have hvalid := hv.source e he
  have hfinite := finite_record hf.source e he
  cases hvalue : e.2 with
  | one s =>
    rw [hvalue] at hvalid hfinite
    exact Scalar.readable hvalid hfinite
  | many l =>
    rw [hvalue] at hvalid hfinite
    rw [SourceValue.json, Json.finite, Json.finiteItems_eq, List.all_map, List.all_eq_true] at hfinite
    refine Json.readableItems_iff.mpr fun j hj => ?_
    obtain ⟨s, hs, rfl⟩ := List.mem_map.mp hj
    exact Scalar.readable (hvalid s hs) (hfinite s hs)

theorem SealInput.Valid.row_readable (hv : input.Valid N) (hf : input.Finite) (he : e ∈ input.tables.entries)
    {row : SnapshotRow} (hr : row ∈ e.2.1) : Readable N row.json :=
  readable_record fun f hmem => Scalar.readable (hv.rows e he row hr f hmem) (finite_record (hf.rows e he row hr) f hmem)

end

variable {t : Text × List Json}

theorem mem_ordered_tables (h : t ∈ input.ordered) :
    t.1 ≠ proto ∧ ∃ e ∈ input.tables.entries, t = (e.1, ordered e.2.1) := by
  obtain ⟨hmem, hp⟩ := List.mem_filter.mp h
  obtain ⟨e, he, rfl⟩ := List.mem_map.mp (mem_byKey.mp hmem)
  exact ⟨of_decide_eq_true hp, e, he, rfl⟩

theorem ordered_keys (input : SealInput) : ((input.tables.entries.map fun e => (e.1, ordered e.2.1)).map Prod.fst).Nodup := by
  rw [List.map_map]
  exact input.tables.distinct

theorem ordered_nodup (input : SealInput) : (input.ordered.map Prod.fst).Nodup :=
  (byKey_keys (ordered_keys input)).sublist (List.filter_sublist.map _)

theorem ordered_sorted (input : SealInput) : input.ordered.Pairwise fun a b => a.1 ≤ b.1 := (byKey_sorted _).sublist List.filter_sublist

theorem lookup_ordered (input : SealInput) {name : Text} (hp : name ≠ proto) :
    input.ordered.lookup name = (input.tables.entries.lookup name).map fun t => ordered t.1 := by
  refine Option.ext fun rows => ?_
  rw [lookup_some_iff (ordered_nodup input), Option.map_eq_some_iff]
  constructor
  · intro h
    obtain ⟨-, e, he, heq⟩ := mem_ordered_tables h
    obtain ⟨rfl, rfl⟩ := Prod.mk.inj heq
    exact ⟨e.2, (lookup_some_iff input.tables.distinct).mpr he, rfl⟩
  · rintro ⟨t, ht, rfl⟩
    have he := (lookup_some_iff input.tables.distinct).mp ht
    exact List.mem_filter.mpr ⟨mem_byKey.mpr (List.mem_map.mpr ⟨(name, t), he, rfl⟩), decide_eq_true hp⟩

section
variable (sha256Hex : Text → Text)

def SealInput.fields (input : SealInput) : Members :=
  [(codes "format", .str input.format), (codes "version", .num input.version), (codes "source", input.source.json SourceValue.json),
    (codes "frozen", .bool input.frozen), (codes "counts", countsJson (input.sealed sha256Hex).tables),
    (codes "digests", .obj [(codes "tables", digestsJson (input.sealed sha256Hex).tables), (codes "whole", .str (input.sealed sha256Hex).whole)]),
    (codes "tables", tablesJson (input.sealed sha256Hex).tables)]

def SealInput.artifact (input : SealInput) : Members := byKey ((input.fields sha256Hex).map fun m => (m.1, m.2.sortKeys))

def SealInput.artifactTables (input : SealInput) : Members := input.ordered.map fun t => (t.1, .arr (t.2.map Json.sortKeys))

end

section
variable {sha256Hex : Text → Text} (input : SealInput)

theorem artifact_json : (input.sealed sha256Hex).json.sortKeys = .obj (input.artifact sha256Hex) := Json.sortKeys_obj (input.fields sha256Hex)

theorem lookup_artifact (name : Text) : (input.artifact sha256Hex).lookup name = ((input.fields sha256Hex).lookup name).map Json.sortKeys := by
  unfold SealInput.artifact
  rw [lookup_byKey, lookup_map]
  rw [List.map_map]
  show ([codes "format", codes "version", codes "source", codes "frozen", codes "counts", codes "digests", codes "tables"] : List Text).Nodup
  decide

theorem sorted_tables (f : Text × List Json → Json) :
    (Json.obj (input.ordered.map fun t => (t.1, f t))).sortKeys = .obj (input.ordered.map fun t => (t.1, (f t).sortKeys)) := by
  rw [Json.sortKeys_obj, List.map_map]
  exact congrArg Json.obj (List.mergeSort_of_pairwise (List.pairwise_map.mpr ((ordered_sorted input).imp fun h => decide_eq_true h)))

theorem counts_eq : countsJson (input.sealed sha256Hex).tables = .obj (input.ordered.map fun t => (t.1, .num (.int t.2.length))) := by
  show Json.obj ((input.ordered.map (sealedTable sha256Hex)).map _) = _
  rw [List.map_map]
  rfl

theorem digests_eq : digestsJson (input.sealed sha256Hex).tables = .obj (input.ordered.map fun t => (t.1, .str (sha256Hex (rowsText t.2)))) := by
  show Json.obj ((input.ordered.map (sealedTable sha256Hex)).map _) = _
  rw [List.map_map]
  rfl

theorem tables_eq : tablesJson (input.sealed sha256Hex).tables = .obj (input.ordered.map fun t => (t.1, .arr t.2)) := by
  show Json.obj ((input.ordered.map (sealedTable sha256Hex)).map _) = _
  rw [List.map_map]
  rfl

theorem artifact_parts : Parts (input.artifact sha256Hex) input.artifactTables (digestsJson (input.sealed sha256Hex).tables) (countsJson (input.sealed sha256Hex).tables)
    (input.sealed sha256Hex).whole := by
  refine ⟨?_, ?_, ?_, ?_⟩
  · have h : (input.fields sha256Hex).lookup (codes "tables") = some (tablesJson (input.sealed sha256Hex).tables) := rfl
    rw [lookup_artifact, h, Option.map_some, tables_eq, sorted_tables]
    simp only [Json.sortKeys, Json.sortItems_eq]
    rfl
  · have h : (input.fields sha256Hex).lookup (codes "digests") =
        some (.obj [(codes "tables", digestsJson (input.sealed sha256Hex).tables), (codes "whole", .str (input.sealed sha256Hex).whole)]) := rfl
    rw [lookup_artifact, h, Option.map_some, Json.sortKeys_obj]
    have hsorted : byKey [(codes "tables", (digestsJson (input.sealed sha256Hex).tables).sortKeys), (codes "whole", (Json.str (input.sealed sha256Hex).whole).sortKeys)] =
        [(codes "tables", (digestsJson (input.sealed sha256Hex).tables).sortKeys), (codes "whole", (Json.str (input.sealed sha256Hex).whole).sortKeys)] :=
      List.mergeSort_of_pairwise (List.pairwise_pair.mpr (by show decide (codes "tables" ≤ codes "whole") = true; decide))
    have hdigests : (digestsJson (input.sealed sha256Hex).tables).sortKeys = digestsJson (input.sealed sha256Hex).tables := by
      rw [digests_eq, sorted_tables]
      rfl
    rw [List.map_cons, List.map_cons, List.map_nil, hsorted, hdigests, digests_eq]
    rfl
  · have h : (input.fields sha256Hex).lookup (codes "counts") = some (countsJson (input.sealed sha256Hex).tables) := rfl
    rw [lookup_artifact, h, Option.map_some, counts_eq, sorted_tables]
    rfl
  · rw [digests_eq]
    exact fun h => by cases h

variable {input}

theorem rows_finite (hf : input.Finite) (ht : t ∈ input.ordered) : (Json.arr t.2).finite = true := by
  obtain ⟨-, e, he, rfl⟩ := mem_ordered_tables ht
  exact finite_ordered.mpr (hf.rows e he)

theorem lookup_by_name (f : Text × List Json → Json) (ht : t ∈ input.ordered) :
    (input.ordered.map fun t => (t.1, f t)).lookup t.1 = some (f t) := by
  refine (lookup_some_iff ?_).mpr (List.mem_map.mpr ⟨t, ht, rfl⟩)
  rw [List.map_map]
  exact ordered_nodup input

theorem artifact_clean (hf : input.Finite) (ht : t ∈ input.ordered) :
    Clean sha256Hex (countsJson (input.sealed sha256Hex).tables) (digestsJson (input.sealed sha256Hex).tables) t.1 (t.2.map Json.sortKeys)
      (sha256Hex (rowsText t.2)) := by
  have hcanonical : canonicalJson (.arr (t.2.map Json.sortKeys)) = some (rowsText t.2) := by
    rw [← Json.sortItems_eq]
    exact (Json.canonicalJson_sortKeys (.arr t.2)).trans (if_pos (rows_finite hf ht))
  have horder : orderRows (t.2.map Json.sortKeys) = some (t.2.map Json.sortKeys) := by
    obtain ⟨-, e, -, rfl⟩ := mem_ordered_tables ht
    exact orderRows_ordered e.2.1
  refine ⟨?_, ⟨_, horder, rfl⟩, ?_, ?_⟩
  · rw [digestRows, hcanonical, Option.map_some]
  · rw [isCount_iff, counts_eq, List.length_map]
    exact lookup_by_name (fun t => .num (.int t.2.length)) ht
  · rw [isDigest_iff (mem_ordered_tables ht).1, digests_eq]
    exact lookup_by_name (fun t => .str (sha256Hex (rowsText t.2))) ht

theorem artifact_recomputed (hf : input.Finite) :
    recomputed sha256Hex (countsJson (input.sealed sha256Hex).tables) (digestsJson (input.sealed sha256Hex).tables) input.artifactTables =
      input.ordered.map fun t => (t.1, .str (sha256Hex (rowsText t.2))) := by
  have hproto : ∀ t ∈ input.artifactTables, t.1 ≠ proto := fun t ht => by
    obtain ⟨o, ho, rfl⟩ := List.mem_map.mp ht
    exact (mem_ordered_tables ho).1
  unfold recomputed
  rw [List.filter_eq_self.mpr fun t ht => decide_eq_true (hproto t ht), SealInput.artifactTables, List.filterMap_map]
  conv_rhs => rw [← List.filterMap_eq_map]
  refine List.filterMap_congr fun t ht => ?_
  show ((checkTable sha256Hex _ _ t.1 (.arr (t.2.map Json.sortKeys))).2.map fun d => (t.1, Json.str d)) = _
  rw [(artifact_clean hf ht).check]
  rfl

theorem artifact_errors (hf : input.Finite) :
    tableErrors sha256Hex (countsJson (input.sealed sha256Hex).tables) (digestsJson (input.sealed sha256Hex).tables) input.artifactTables = [] := by
  have hnames : input.artifactTables.map Prod.fst = keys (digestsJson (input.sealed sha256Hex).tables) := by
    rw [digests_eq, keys, SealInput.artifactTables, List.map_map, List.map_map]
    rfl
  unfold tableErrors
  rw [if_pos (congrArg joined hnames), List.nil_append, List.flatMap_eq_nil_iff]
  intro t ht
  obtain ⟨o, ho, rfl⟩ := List.mem_map.mp ht
  rw [(artifact_clean hf ho).check]

theorem wholeDigest_sorted (format source version frozen counts tables : Json) :
    wholeDigest sha256Hex format source.sortKeys version frozen counts tables = wholeDigest sha256Hex format source version frozen counts tables := by
  have h : ∀ ms : Members, ∀ l : Members, ∀ k : Text, canonicalJson (.obj (ms ++ (k, source.sortKeys) :: l)) = canonicalJson (.obj (ms ++ (k, source) :: l)) := by
    intro ms l k
    unfold canonicalJson
    rw [Json.sortKeys_obj, Json.sortKeys_obj, Json.finite, Json.finite, Json.finiteMembers_eq, Json.finiteMembers_eq]
    simp only [List.map_append, List.map_cons, List.all_append, List.all_cons, Json.finite_sortKeys, Json.sortKeys_sortKeys]
  exact congrArg (Option.map sha256Hex) (h [(codes "format", format), (codes "version", version)] _ (codes "source"))

theorem artifact_verifies (hf : input.Finite) :
    verifySnapshot sha256Hex (.obj (input.artifact sha256Hex)) input.format input.version = some (.ok (input.artifact sha256Hex)) := by
  have hlookup := (@lookup_artifact sha256Hex) input
  have hsource : (input.source.json SourceValue.json).sortKeys = .obj (byKey ((input.source.entries.map fun e => (e.1, e.2.json)).map fun m => (m.1, m.2.sortKeys))) :=
    Json.sortKeys_obj _
  refine verify_of_parts (artifact_parts input) (hlookup _) (hlookup _) (hlookup _) ((hlookup _).trans (congrArg some hsource)) (artifact_errors hf) ?_
  rw [← hsource, wholeDigest_sorted, artifact_recomputed hf, ← digests_eq]
  have hfinite : (input.wholeJson sha256Hex).finite = true := whole_finite hf
  exact congrArg (Option.map sha256Hex) (if_pos hfinite)

end

end NawaraCore.Snapshot
