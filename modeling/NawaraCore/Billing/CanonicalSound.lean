import NawaraCore.Billing.Canonical
import NawaraCore.Lib.JsonParseSound

/-!
# The canonical form is a fingerprint

A normalised value has the members of the value in an order of their keys alone, and its
text can be read back, unless a number in it is printed as null.
-/

namespace NawaraCore.Canonical

open Audit (Text)
open SafeSerialize (toISOString)
open Json (Readable ReadableItems ReadableMembers Numerals)

theorem fromEntries_perm (entries : Members) : (fromEntries entries).Perm entries :=
  ((List.mergeSort_perm _ _).append_right _).trans (List.filter_append_perm _ _)

theorem normaliseItems_eq (vs : List Value) : normaliseItems vs = vs.map normalise := by
  induction vs with
  | nil => rfl
  | cons v vs ih => rw [normaliseItems, ih, List.map_cons]

theorem normaliseEntries_eq (es : List (Text × Value)) : normaliseEntries es = es.map fun e => (e.1, normalise e.2) := by
  induction es with
  | nil => rfl
  | cons e es ih => rw [normaliseEntries, ih, List.map_cons]

theorem normaliseEntries_keys (es : List (Text × Value)) : (normaliseEntries es).map Prod.fst = es.map Prod.fst := by
  rw [normaliseEntries_eq, List.map_map]
  rfl

theorem lookup_normalised (es : List (Text × Value)) (k : Text) : (normaliseEntries es).lookup k = (es.lookup k).map normalise := by
  rw [normaliseEntries_eq, lookup_map]

/-! ## What is the same request -/

/-- What a value without parts is identified with. -/
def Value.scalar : Value → Option Json
  | .undefined | .null => some .null
  | .boolean b => some (.bool b)
  | .number n => some (.num n)
  | .bigint n => some (.str (codes (toString n)))
  | .string s => some (.str s)
  | .date time => some (.str (toISOString time))
  | .array _ | .object _ => none

/-- Equal up to the order of keys, at any depth, and up to what scalars are identified with. -/
inductive Same : Value → Value → Prop
  | scalar {a b : Value} {j : Json} (ha : a.scalar = some j) (hb : b.scalar = some j) : Same a b
  | array {as bs : List Value} (length : as.length = bs.length)
      (items : ∀ (i : Nat) (a b : Value), as[i]? = some a → bs[i]? = some b → Same a b) : Same (.array as) (.array bs)
  | object {as bs : List (Text × Value)} (keys : ∀ k, (as.lookup k).isSome = (bs.lookup k).isSome)
      (entries : ∀ (k : Text) (a b : Value), as.lookup k = some a → bs.lookup k = some b → Same a b) : Same (.object as) (.object bs)

mutual
/-- No object has a key twice, and the numbers are `P`. -/
def Value.Within (P : JsNumber → Prop) : Value → Prop
  | .number n => P n
  | .array items => ItemsWithin P items
  | .object entries => (entries.map Prod.fst).Nodup ∧ EntriesWithin P entries
  | _ => True

def ItemsWithin (P : JsNumber → Prop) : List Value → Prop
  | [] => True
  | v :: vs => v.Within P ∧ ItemsWithin P vs

def EntriesWithin (P : JsNumber → Prop) : List (Text × Value) → Prop
  | [] => True
  | (_, v) :: es => v.Within P ∧ EntriesWithin P es
end

/-- A number there is, and a finite one. -/
def IsFinite (N : Numerals) (n : JsNumber) : Prop := N.valid n ∧ Json.JsNumber.finite n = true

section
variable {P : JsNumber → Prop} {N : Numerals} {a b v : Value} {as bs vs : List Value} {es es' : List (Text × Value)} {j : Json} {k : Text}

theorem ItemsWithin.of_mem (h : ItemsWithin P vs) (hv : v ∈ vs) : v.Within P := by
  induction vs with
  | nil => cases hv
  | cons w vs ih =>
    rcases List.mem_cons.mp hv with rfl | hv
    · exact h.1
    · exact ih h.2 hv

theorem EntriesWithin.of_lookup (h : EntriesWithin P es) (hv : es.lookup k = some v) : v.Within P := by
  induction es with
  | nil => cases hv
  | cons e es ih =>
    rw [List.lookup_cons] at hv
    split at hv
    · exact Option.some.inj hv ▸ h.1
    · exact ih h.2 hv

theorem normalise_scalar (h : v.scalar = some j) : normalise v = j ∧ (∀ items, j ≠ .arr items) ∧ ∀ members, j ≠ .obj members := by
  cases v <;> cases h <;> exact ⟨rfl, nofun, nofun⟩

theorem value_cases (v : Value) : (∃ j, v.scalar = some j) ∨ (∃ vs, v = .array vs) ∨ ∃ es, v = .object es := by
  cases v with
  | array vs => exact .inr (.inl ⟨vs, rfl⟩)
  | object es => exact .inr (.inr ⟨es, rfl⟩)
  | _ => exact .inl ⟨_, rfl⟩

/-! ## The same request has one form -/

theorem Same.normalise_eq (h : Same a b) : a.Within P → b.Within P → normalise a = normalise b := by
  induction h with
  | scalar ha hb => exact fun _ _ => (normalise_scalar ha).1.trans (normalise_scalar hb).1.symm
  | @array as bs hlength _ ih =>
    intro ha hb
    rw [normalise, normalise, normaliseItems_eq, normaliseItems_eq]
    congr 1
    refine List.ext_getElem (by simp [hlength]) fun i hi hi' => ?_
    rw [List.length_map] at hi hi'
    rw [List.getElem_map, List.getElem_map]
    exact ih i _ _ (List.getElem?_eq_getElem hi) (List.getElem?_eq_getElem hi') (ItemsWithin.of_mem ha (List.getElem_mem hi))
      (ItemsWithin.of_mem hb (List.getElem_mem hi'))
  | @object as bs hkeys _ ih =>
    intro ha hb
    have hlookup : ∀ k, (normaliseEntries as).lookup k = (normaliseEntries bs).lookup k := by
      intro k
      have hk := hkeys k
      rw [lookup_normalised, lookup_normalised]
      cases h₁ : as.lookup k with
      | none =>
        rw [h₁] at hk
        have h₂ : bs.lookup k = none := by simpa using hk.symm
        rw [h₂]
      | some a =>
        rw [h₁] at hk
        obtain ⟨b, h₂⟩ := Option.isSome_iff_exists.mp hk.symm
        rw [h₂, Option.map_some, Option.map_some, ih k a b h₁ h₂ (EntriesWithin.of_lookup ha.2 h₁) (EntriesWithin.of_lookup hb.2 h₂)]
    rw [normalise, normalise, (byKey_eq_iff (by rw [normaliseEntries_keys]; exact ha.1) (by rw [normaliseEntries_keys]; exact hb.1)).mpr hlookup]

/-! ## One form has one request -/

theorem lookup_fromEntries (h : (es.map Prod.fst).Nodup) (k : Text) :
    (fromEntries (byKey (normaliseEntries es))).lookup k = (es.lookup k).map normalise := by
  have hkeys : ((normaliseEntries es).map Prod.fst).Nodup := by rwa [normaliseEntries_keys]
  have hperm := (fromEntries_perm (byKey (normaliseEntries es))).trans (byKey_perm _)
  refine Option.ext fun v => ?_
  rw [lookup_some_iff ((hperm.map _).nodup_iff.mpr hkeys), hperm.mem_iff, ← lookup_some_iff hkeys, lookup_normalised]

theorem not_scalar (ha : a.scalar = none) (hb : b.scalar = some j) (h : normalise a = normalise b) : False := by
  obtain ⟨hj, hitems, hmembers⟩ := normalise_scalar hb
  cases a <;> cases ha
  · exact hitems _ (hj.symm.trans h.symm)
  · exact hmembers _ (hj.symm.trans h.symm)

theorem same_of_scalar (ha : a.scalar = some j) (h : normalise a = normalise b) : Same a b := by
  cases hb : b.scalar with
  | none => exact (not_scalar hb ha h.symm).elim
  | some k =>
    have : k = j := (normalise_scalar hb).1.symm.trans (h.symm.trans (normalise_scalar ha).1)
    exact .scalar ha (this ▸ hb)

mutual
theorem same_of_eq : ∀ a b : Value, a.Within P → b.Within P → normalise a = normalise b → Same a b
  | .undefined, _, _, _, h | .null, _, _, _, h | .boolean _, _, _, _, h | .number _, _, _, _, h | .bigint _, _, _, _, h | .string _, _, _, _, h
  | .date _, _, _, _, h => same_of_scalar rfl h
  | .array as, b, ha, hb, h => by
    rcases value_cases b with ⟨j, hj⟩ | ⟨bs, rfl⟩ | ⟨es, rfl⟩
    · exact (not_scalar rfl hj h).elim
    · have h := Json.arr.inj h
      rw [normaliseItems_eq, normaliseItems_eq] at h
      refine .array (by simpa using congrArg List.length h) fun i a b hia hib => ?_
      refine same_items as ha a (List.mem_of_getElem? hia) b (ItemsWithin.of_mem hb (List.mem_of_getElem? hib)) ?_
      have hi := congrArg (·[i]?) h
      simpa [hia, hib] using hi
    · cases h
  | .object es, b, ha, hb, h => by
    rcases value_cases b with ⟨j, hj⟩ | ⟨bs, rfl⟩ | ⟨es', rfl⟩
    · exact (not_scalar rfl hj h).elim
    · cases h
    · have hlookup : ∀ k, (es.lookup k).map normalise = (es'.lookup k).map normalise := fun k => by
        rw [← lookup_fromEntries ha.1, ← lookup_fromEntries hb.1, Json.obj.inj h]
      refine .object (fun k => by simpa using congrArg Option.isSome (hlookup k)) fun k a b hka hkb => ?_
      have hk := hlookup k
      rw [hka, hkb] at hk
      exact same_entries es ha.2 k a hka b (EntriesWithin.of_lookup hb.2 hkb) (Option.some.inj hk)

theorem same_items : ∀ vs : List Value, ItemsWithin P vs → ∀ a ∈ vs, ∀ b : Value, b.Within P → normalise a = normalise b → Same a b
  | [], _, _, hmem, _, _, _ => by cases hmem
  | v :: vs, h, a, hmem, b, hb, he => by
    by_cases hv : a = v
    · exact hv ▸ same_of_eq v b h.1 hb (hv ▸ he)
    · exact same_items vs h.2 a ((List.mem_cons.mp hmem).resolve_left hv) b hb he

theorem same_entries : ∀ es : List (Text × Value), EntriesWithin P es → ∀ (k : Text) (a : Value), es.lookup k = some a →
    ∀ b : Value, b.Within P → normalise a = normalise b → Same a b
  | [], _, _, _, hlookup, _, _, _ => by cases hlookup
  | (_, v) :: es, h, k, a, hlookup, b, hb, he => by
    rw [List.lookup_cons] at hlookup
    split at hlookup
    · have hv := Option.some.inj hlookup
      exact hv ▸ same_of_eq v b h.1 hb (hv.symm ▸ he)
    · exact same_entries es h.2 k a hlookup b hb he
end

/-! ## The text -/

mutual
theorem normalise_readable : ∀ v : Value, v.Within (IsFinite N) → Readable N (normalise v)
  | .undefined, _ | .null, _ | .boolean _, _ | .bigint _, _ | .string _, _ | .date _, _ => trivial
  | .number _, h => h
  | .array vs, h => normaliseItems_readable vs h
  | .object es, h => by
    have hperm := (fromEntries_perm (byKey (normaliseEntries es))).trans (byKey_perm _)
    refine ⟨(hperm.map _).nodup_iff.mpr (by rw [normaliseEntries_keys]; exact h.1), Json.readableMembers_iff.mpr fun m hm => ?_⟩
    exact Json.readableMembers_iff.mp (normaliseEntries_readable es h.2) m (hperm.mem_iff.mp hm)

theorem normaliseItems_readable : ∀ vs : List Value, ItemsWithin (IsFinite N) vs → ReadableItems N (normaliseItems vs)
  | [], _ => trivial
  | v :: vs, h => ⟨normalise_readable v h.1, normaliseItems_readable vs h.2⟩

theorem normaliseEntries_readable : ∀ es : List (Text × Value), EntriesWithin (IsFinite N) es →
    ReadableMembers N (normaliseEntries es)
  | [], _ => trivial
  | (_, v) :: es, h => ⟨normalise_readable v h.1, normaliseEntries_readable es h.2⟩
end

end

/-- **A fingerprint of finite numbers.** Requests that are the same have one text, and the texts of two that are not differ, unless a
number in them is not finite: that is printed as null. -/
theorem canonicalJson_faithful (N : Numerals) (a b : Value) :
    (a.Within (fun _ => True) → b.Within (fun _ => True) → Same a b → canonicalJson a = canonicalJson b) ∧
      (a.Within (IsFinite N) → b.Within (IsFinite N) →
        canonicalJson a = canonicalJson b → Same a b) := by
  constructor
  · intro ha hb h
    rw [canonicalJson, canonicalJson, h.normalise_eq ha hb]
  · intro ha hb h
    exact same_of_eq a b ha hb ((normalise_readable a ha).stringify_injective (normalise_readable b hb) h)

theorem canonicalJson_nan : canonicalJson (.number (.other (codes "NaN") false)) = canonicalJson .null ∧
    ¬ Same (.number (.other (codes "NaN") false)) .null := by
  refine ⟨rfl, fun h => ?_⟩
  cases h with
  | scalar ha hb =>
    cases ha
    cases hb

/-- `{"b":1,"a":[undefined,5n]}` and `{"a":[null,"5"],"b":1}`. -/
def sampleRequests : Value × Value :=
  (.object [(codes "b", .number (.int 1)), (codes "a", .array [.undefined, .bigint 5])],
    .object [(codes "a", .array [.null, .string (codes "5")]), (codes "b", .number (.int 1))])

theorem canonicalJson_faithful_sample : canonicalJson sampleRequests.1 = canonicalJson sampleRequests.2 ∧ Same sampleRequests.1 sampleRequests.2 := by
  have hfinite : (sampleRequests.1.Within (IsFinite Json.integers)) ∧
      sampleRequests.2.Within (IsFinite Json.integers) := by
    refine ⟨⟨by decide, ⟨⟨1, rfl⟩, rfl⟩, ⟨trivial, trivial, trivial⟩, trivial⟩, ⟨by decide, ⟨trivial, trivial, trivial⟩, ⟨⟨1, rfl⟩, rfl⟩, trivial⟩⟩
  have hsame : Same sampleRequests.1 sampleRequests.2 := by
    refine .object (fun k => ?_) fun k a b ha hb => ?_
    · rw [List.lookup_cons, List.lookup_cons, List.lookup_cons, List.lookup_cons]
      cases k == codes "b" <;> cases k == codes "a" <;> rfl
    · by_cases hk : k = codes "b"
      · subst hk
        cases ha
        cases hb
        exact .scalar rfl rfl
      · by_cases hk' : k = codes "a"
        · subst hk'
          cases ha
          cases hb
          refine .array rfl fun i a b ha hb => ?_
          match i with
          | 0 | 1 =>
            cases ha
            cases hb
            exact .scalar rfl rfl
          | i + 2 => cases ha
        · rw [List.lookup_cons, beq_eq_false_iff_ne.mpr hk, List.lookup_cons, beq_eq_false_iff_ne.mpr hk'] at ha
          cases ha
  have h := (canonicalJson_faithful Json.integers sampleRequests.1 sampleRequests.2).1 ⟨by decide, trivial, ⟨trivial, trivial, trivial⟩, trivial⟩
    ⟨by decide, ⟨trivial, trivial, trivial⟩, trivial, trivial⟩ hsame
  exact ⟨h, (canonicalJson_faithful Json.integers sampleRequests.1 sampleRequests.2).2 hfinite.1 hfinite.2 h⟩

end NawaraCore.Canonical
