import NawaraCore.Lib.JsonSound

/-!
# Canonical JSON

The text of a value with the keys of every object sorted. Two objects have one canonical text
exactly when they have the same members.
-/

namespace NawaraCore

/-! ## Sorted by key -/

section
variable {β : Type*} {l m : List (List Nat × β)}

def byKey (l : List (List Nat × β)) : List (List Nat × β) := l.mergeSort fun a b => decide (a.1 ≤ b.1)

theorem mem_byKey {p : List Nat × β} : p ∈ byKey l ↔ p ∈ l := List.mem_mergeSort

theorem byKey_perm (l : List (List Nat × β)) : (byKey l).Perm l := List.mergeSort_perm _ _

theorem byKey_sorted (l : List (List Nat × β)) : (byKey l).Pairwise fun a b => a.1 ≤ b.1 := by
  have h := (@List.pairwise_mergeSort _ (fun a b : List Nat × β => decide (a.1 ≤ b.1)))
    (fun a b c h₁ h₂ => decide_eq_true (le_trans (of_decide_eq_true h₁) (of_decide_eq_true h₂)))
    (fun a b => by simpa using le_total a.1 b.1) l
  exact h.imp fun h => of_decide_eq_true h

theorem byKey_keys : (l.map Prod.fst).Nodup → ((byKey l).map Prod.fst).Nodup := ((byKey_perm l).map _).nodup_iff.mpr

theorem sorted_eq (hl : (l.map Prod.fst).Nodup) (hp : l.Perm m) (hsl : l.Pairwise fun a b => a.1 ≤ b.1) (hsm : m.Pairwise fun a b => a.1 ≤ b.1) : l = m :=
  hp.eq_of_pairwise (fun _ _ ha hb h₁ h₂ => eq_of_key hl ha (hp.mem_iff.mpr hb) (le_antisymm h₁ h₂)) hsl hsm

theorem byKey_perm_eq (hl : (l.map Prod.fst).Nodup) (hp : l.Perm m) : byKey l = byKey m :=
  sorted_eq (byKey_keys hl) ((byKey_perm l).trans (hp.trans (byKey_perm m).symm)) (byKey_sorted l) (byKey_sorted m)

theorem lookup_some_iff (hl : (l.map Prod.fst).Nodup) {k : List Nat} {v : β} : l.lookup k = some v ↔ (k, v) ∈ l := by
  constructor
  · intro h
    obtain ⟨l₁, l₂, rfl, -⟩ := List.lookup_eq_some_iff.mp h
    exact List.mem_append_right _ List.mem_cons_self
  · intro h
    cases hv : l.lookup k with
    | none =>
      have hno := List.lookup_eq_none_iff.mp hv (k, v) h
      simp at hno
    | some w =>
      obtain ⟨l₁, l₂, he, -⟩ := List.lookup_eq_some_iff.mp hv
      have hw : (k, w) ∈ l := by
        rw [he]
        exact List.mem_append_right _ List.mem_cons_self
      rw [(Prod.mk.inj (eq_of_key (k := Prod.fst) hl hw h rfl)).2]

theorem lookup_map {γ : Type*} (f : β → γ) (l : List (List Nat × β)) (k : List Nat) : (l.map fun e => (e.1, f e.2)).lookup k = (l.lookup k).map f := by
  induction l with
  | nil => rfl
  | cons e l ih =>
    rw [List.map_cons, List.lookup_cons, List.lookup_cons, ih]
    cases k == e.1 <;> rfl

theorem byKey_byKey (l : List (List Nat × β)) : byKey (byKey l) = byKey l :=
  List.mergeSort_of_pairwise ((byKey_sorted l).imp fun h => decide_eq_true h)

theorem byKey_map {γ : Type*} (f : β → γ) (l : List (List Nat × β)) : byKey (l.map fun p => (p.1, f p.2)) = (byKey l).map fun p => (p.1, f p.2) := by
  unfold byKey
  rw [List.map_mergeSort (s := fun a b : List Nat × γ => decide (a.1 ≤ b.1))]
  exact fun _ _ _ _ => rfl

theorem lookup_byKey (hl : (l.map Prod.fst).Nodup) (k : List Nat) : (byKey l).lookup k = l.lookup k := by
  refine Option.ext fun v => ?_
  rw [lookup_some_iff (byKey_keys hl), lookup_some_iff hl, mem_byKey]

theorem byKey_eq_iff (hl : (l.map Prod.fst).Nodup) (hm : (m.map Prod.fst).Nodup) : byKey l = byKey m ↔ ∀ k, l.lookup k = m.lookup k := by
  constructor
  · intro h k
    refine Option.ext fun v => ?_
    rw [lookup_some_iff hl, lookup_some_iff hm, ← mem_byKey (l := l), h, mem_byKey]
  · intro h
    refine byKey_perm_eq hl ((List.perm_ext_iff_of_nodup hl.of_map hm.of_map).mpr fun p => ?_)
    obtain ⟨k, v⟩ := p
    rw [← lookup_some_iff hl, ← lookup_some_iff hm, h k]

end

namespace Json

/-! ## The canonical text -/

def JsNumber.finite : JsNumber → Bool
  | .int _ => true
  | .other _ finite => finite

mutual
def finite : Json → Bool
  | .num n => JsNumber.finite n
  | .arr items => finiteItems items
  | .obj members => finiteMembers members
  | _ => true

def finiteItems : List Json → Bool
  | [] => true
  | j :: js => finite j && finiteItems js

def finiteMembers : Members → Bool
  | [] => true
  | (_, j) :: ms => finite j && finiteMembers ms
end

def canonicalJson (j : Json) : Option (List Nat) := if j.finite then some j.sortKeys.stringify else none

theorem finiteItems_eq (js : List Json) : finiteItems js = js.all finite := by
  induction js with
  | nil => rfl
  | cons j js ih => rw [finiteItems, ih, List.all_cons]

theorem finiteMembers_eq (ms : Members) : finiteMembers ms = ms.all fun m => finite m.2 := by
  induction ms with
  | nil => rfl
  | cons m ms ih => rw [finiteMembers, ih, List.all_cons]

theorem sortMembers_eq (ms : Members) : sortMembers ms = ms.map fun m => (m.1, m.2.sortKeys) := by
  induction ms with
  | nil => rfl
  | cons m ms ih => rw [sortMembers, ih, List.map_cons]

theorem sortItems_eq (js : List Json) : sortItems js = js.map sortKeys := by
  induction js with
  | nil => rfl
  | cons j js ih => rw [sortItems, ih, List.map_cons]

theorem sortKeys_obj (ms : Members) : (Json.obj ms).sortKeys = .obj (byKey (ms.map fun m => (m.1, m.2.sortKeys))) := by
  rw [sortKeys, sortMembers_eq]
  rfl

theorem sortMembers_byKey (ms : Members) : sortMembers (byKey ms) = byKey (sortMembers ms) := by
  rw [sortMembers_eq, sortMembers_eq, byKey_map]

mutual
theorem sortKeys_sortKeys : ∀ j : Json, j.sortKeys.sortKeys = j.sortKeys
  | .null | .bool _ | .num _ | .str _ => rfl
  | .arr items => congrArg Json.arr (sortItems_sortItems items)
  | .obj members => by
    show Json.obj (byKey (sortMembers (byKey (sortMembers members)))) = .obj (byKey (sortMembers members))
    rw [sortMembers_byKey, sortMembers_sortMembers members, byKey_byKey]

theorem sortItems_sortItems : ∀ js : List Json, sortItems (sortItems js) = sortItems js
  | [] => rfl
  | j :: js => by
    show j.sortKeys.sortKeys :: sortItems (sortItems js) = _
    rw [sortKeys_sortKeys j, sortItems_sortItems js, sortItems]

theorem sortMembers_sortMembers : ∀ ms : Members, sortMembers (sortMembers ms) = sortMembers ms
  | [] => rfl
  | (k, j) :: ms => by
    show (k, j.sortKeys.sortKeys) :: sortMembers (sortMembers ms) = _
    rw [sortKeys_sortKeys j, sortMembers_sortMembers ms, sortMembers]
end

mutual
theorem finite_sortKeys : ∀ j : Json, j.sortKeys.finite = j.finite
  | .null | .bool _ | .num _ | .str _ => rfl
  | .arr items => finiteItems_sortItems items
  | .obj members => by
    show finiteMembers (byKey (sortMembers members)) = finiteMembers members
    rw [← finiteMembers_sortMembers members, finiteMembers_eq, finiteMembers_eq]
    exact (byKey_perm _).all_eq

theorem finiteItems_sortItems : ∀ js : List Json, finiteItems (sortItems js) = finiteItems js
  | [] => rfl
  | j :: js => by rw [sortItems, finiteItems, finite_sortKeys j, finiteItems_sortItems js, finiteItems]

theorem finiteMembers_sortMembers : ∀ ms : Members, finiteMembers (sortMembers ms) = finiteMembers ms
  | [] => rfl
  | (k, j) :: ms => by rw [sortMembers, finiteMembers, finite_sortKeys j, finiteMembers_sortMembers ms, finiteMembers]
end

theorem canonicalJson_sortKeys (j : Json) : canonicalJson j.sortKeys = canonicalJson j := by
  rw [canonicalJson, canonicalJson, finite_sortKeys, sortKeys_sortKeys]

structure FlatMember (m : List Nat × Json) : Prop where
  key : ∀ c ∈ m.1, plainChar c = true
  plain : Plain m.2
  sorted : m.2.sortKeys = m.2
  finite : m.2.finite = true

theorem flat_canonical {ms : Members} (h : ∀ m ∈ ms, FlatMember m) : canonicalJson (.obj ms) = some (Json.obj (byKey ms)).stringify := by
  have hsort : ms.map (fun m => (m.1, m.2.sortKeys)) = ms := by
    conv_rhs => rw [← List.map_id ms]
    exact List.map_congr_left fun m hm => Prod.ext rfl (h m hm).sorted
  have hfinite : finite (.obj ms) = true := by
    rw [finite, finiteMembers_eq]
    exact List.all_eq_true.mpr fun m hm => (h m hm).finite
  rw [canonicalJson, if_pos hfinite, sortKeys_obj, hsort]

theorem flat_canonical_iff {ms ms' : Members} (hn : (ms.map Prod.fst).Nodup) (hn' : (ms'.map Prod.fst).Nodup) (h : ∀ m ∈ ms, FlatMember m)
    (h' : ∀ m ∈ ms', FlatMember m) : canonicalJson (.obj ms) = canonicalJson (.obj ms') ↔ ∀ k, ms.lookup k = ms'.lookup k := by
  have hplain : ∀ {l : Members}, (∀ m ∈ l, FlatMember m) → Plain (.obj (byKey l)) := fun hl =>
    .obj (fun m hm => (hl m (mem_byKey.mp hm)).key) fun m hm => (hl m (mem_byKey.mp hm)).plain
  rw [flat_canonical h, flat_canonical h', Option.some.injEq, ← byKey_eq_iff hn hn']
  refine ⟨fun he => ?_, fun he => by rw [he]⟩
  exact Json.obj.inj (stringify_injective (hplain h) (hplain h') he)

end Json

end NawaraCore
