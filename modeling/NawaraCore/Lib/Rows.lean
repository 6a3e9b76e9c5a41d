import Mathlib.Algebra.BigOperators.Group.List.Basic
import Mathlib.Algebra.GroupWithZero.Nat
import Mathlib.Data.List.Nodup

/-!
# Rows, keys and partial unique indexes

A table is a list of rows. A row is replaced by its key, and a unique index may cover
the rows that meet a condition only.
-/

namespace NawaraCore

section
variable {α κ ι : Type*} {k : α → κ} {l : List α} {a b x : α}

/-! ## Keys -/

theorem eq_of_key (hn : (l.map k).Nodup) (ha : a ∈ l) (hb : b ∈ l) (h : k a = k b) : a = b :=
  List.inj_on_of_nodup_map hn ha hb h

theorem mem_append_row (h : x ∈ l ++ [b]) : x ∈ l ∨ x = b := by simpa using h

theorem forall_mem_append_row {P : α → Prop} (hl : ∀ x ∈ l, P x) (hb : P b) : ∀ x ∈ l ++ [b], P x :=
  List.forall_mem_append.mpr ⟨hl, List.forall_mem_singleton.mpr hb⟩

theorem nodup_append_row (hn : (l.map k).Nodup) (h : ∀ x ∈ l, k x ≠ k b) : ((l ++ [b]).map k).Nodup := by
  rw [List.map_append, List.map_singleton]
  refine hn.append (List.nodup_singleton _) ?_
  rw [List.disjoint_singleton]
  intro hm
  obtain ⟨x, hx, hk⟩ := List.mem_map.mp hm
  exact h x hx hk

variable [DecidableEq κ]

/-- The row with the key of `b` becomes `b`. -/
def replaceRow (k : α → κ) (b : α) (l : List α) : List α := l.map fun x => if k x = k b then b else x

theorem mem_replaceRow (h : x ∈ replaceRow k b l) : x = b ∨ (x ∈ l ∧ k x ≠ k b) := by
  obtain ⟨y, hy, rfl⟩ := List.mem_map.mp h
  by_cases hk : k y = k b
  · exact .inl (if_pos hk)
  · exact .inr (by rw [if_neg hk]; exact ⟨hy, hk⟩)

theorem replaceRow_mem (ha : a ∈ l) (h : k a = k b) : b ∈ replaceRow k b l :=
  List.mem_map.mpr ⟨a, ha, if_pos h⟩

theorem replaceRow_other (hx : x ∈ l) (h : k x ≠ k b) : x ∈ replaceRow k b l :=
  List.mem_map.mpr ⟨x, hx, if_neg h⟩

theorem replaceRow_fresh (h : ∀ x ∈ l, k x ≠ k b) : replaceRow k b l = l :=
  (List.map_congr_left fun x hx => if_neg (h x hx)).trans (List.map_id' l)

theorem replaceRow_append (h : ∀ x ∈ l, k x ≠ k b) (ha : k a = k b) :
    replaceRow k b (l ++ [a]) = l ++ [b] := by
  have hs : replaceRow k b [a] = [b] := congrArg (· :: []) (if_pos ha)
  unfold replaceRow at hs ⊢
  rw [List.map_append, hs]
  exact congrArg (· ++ [b]) (replaceRow_fresh h)

theorem replaceRow_replaceRow (ha : k a = k b) : replaceRow k b (replaceRow k a l) = replaceRow k b l := by
  unfold replaceRow
  rw [List.map_map]
  refine List.map_congr_left fun x _ => ?_
  by_cases hk : k x = k a
  · simp only [Function.comp_apply, if_pos hk, if_pos ha, if_pos (hk.trans ha)]
  · simp only [Function.comp_apply, if_neg hk]

theorem map_replaceRow {f : α → ι} (h : ∀ x ∈ l, k x = k b → f x = f b) :
    (replaceRow k b l).map f = l.map f := by
  unfold replaceRow
  rw [List.map_map]
  refine List.map_congr_left fun x hx => ?_
  by_cases hk : k x = k b
  · simp only [Function.comp_apply, if_pos hk, h x hx hk]
  · simp only [Function.comp_apply, if_neg hk]

theorem find_key (hn : (l.map k).Nodup) (ha : a ∈ l) : l.find? (fun x => k x = k a) = some a := by
  have hs : (l.find? fun x => k x = k a).isSome := List.find?_isSome.mpr ⟨a, ha, by simp⟩
  obtain ⟨c, hc⟩ := Option.isSome_iff_exists.mp hs
  have hk : k c = k a := by simpa using List.find?_some hc
  rw [hc, eq_of_key hn (List.mem_of_find?_eq_some hc) ha hk]

theorem find_map_key {f : α → α} (hf : ∀ a, k (f a) = k a) (x : κ) (l : List α) :
    (l.map f).find? (fun a => k a = x) = (l.find? fun a => k a = x).map f := by
  induction l with
  | nil => rfl
  | cons a l ih =>
    rw [List.map_cons, List.find?_cons, List.find?_cons, hf a]
    by_cases hx : k a = x
    · simp [hx]
    · simp [hx, ih]

theorem find_replaceRow (x : κ) (l : List α) :
    (replaceRow k b l).find? (fun a => k a = x) = (l.find? fun a => k a = x).map fun a => if k a = k b then b else a := by
  unfold replaceRow
  refine find_map_key (fun a => ?_) x l
  by_cases hk : k a = k b
  · rw [if_pos hk, hk]
  · rw [if_neg hk]

theorem foldl_map_key {β : Type*} {j : β → κ} {f : β → α → α} {m : List β} (hf : ∀ b a, k (f b a) = k a) (hn : (m.map j).Nodup) (l : List α) :
    m.foldl (fun l b => l.map fun a => if k a = j b then f b a else a) l =
      l.map fun a => (m.find? fun b => j b = k a).elim a fun b => f b a := by
  induction m generalizing l with
  | nil => simp
  | cons b m ih =>
    obtain ⟨hb, hn⟩ := List.nodup_cons.mp hn
    rw [List.foldl_cons, ih hn, List.map_map]
    refine List.map_congr_left fun a _ => ?_
    by_cases hk : k a = j b
    · have hnone : (m.find? fun c => j c = k a) = none :=
        List.find?_eq_none.mpr fun c hc hjc => hb (List.mem_map.mpr ⟨c, hc, (of_decide_eq_true hjc).trans hk⟩)
      rw [Function.comp_apply, if_pos hk, hf b a, hnone, List.find?_cons, decide_eq_true hk.symm]
      rfl
    · rw [Function.comp_apply, if_neg hk, List.find?_cons, decide_eq_false (Ne.symm hk)]

omit [DecidableEq κ] in
theorem sum_le_of_keys {β : Type*} [DecidableEq β] {j : β → κ} {f : α → ℕ} {g : β → ℕ} {m : List β}
    (hn : (l.map k).Nodup) (h : ∀ a ∈ l, ∃ b ∈ m, j b = k a ∧ g b = f a) : (l.map f).sum ≤ (m.map g).sum := by
  induction l generalizing m with
  | nil => exact Nat.zero_le _
  | cons a l ih =>
    obtain ⟨hna, hn⟩ := List.nodup_cons.mp hn
    obtain ⟨b, hb, hkb, hgb⟩ := h a List.mem_cons_self
    have hrest : (l.map f).sum ≤ ((m.erase b).map g).sum := by
      refine ih hn fun a' ha' => ?_
      obtain ⟨b', hb', hkb', hgb'⟩ := h a' (List.mem_cons_of_mem _ ha')
      refine ⟨b', (List.mem_erase_of_ne ?_).mpr hb', hkb', hgb'⟩
      rintro rfl
      exact hna (List.mem_map.mpr ⟨a', ha', hkb'.symm.trans hkb⟩)
    have hm : (m.map g).sum = g b + ((m.erase b).map g).sum :=
      ((List.perm_cons_erase hb).map g).sum_eq.trans (by rw [List.map_cons, List.sum_cons])
    rw [List.map_cons, List.sum_cons, hm, hgb]
    exact Nat.add_le_add_left hrest _

/-! ## Partial unique indexes -/

/-- The rows that meet `p` have different values of `idx`. -/
def UniqueOn (p : α → Prop) (idx : α → ι) (l : List α) : Prop :=
  ∀ x ∈ l, ∀ y ∈ l, p x → p y → idx x = idx y → x = y

variable {p : α → Prop} {idx : α → ι}

omit [DecidableEq κ] in
theorem UniqueOn.ne (h : UniqueOn p idx l) (ha : a ∈ l) (hpa : p a) (hx : x ∈ l) (hk : k x ≠ k a) (hpx : p x) :
    idx x ≠ idx a :=
  fun he => hk (congrArg k (h x hx a ha hpx hpa he))

theorem UniqueOn.nil : UniqueOn p idx [] := nofun

omit [DecidableEq κ] in
theorem UniqueOn.find [DecidableEq ι] (h : UniqueOn p idx l) (ha : a ∈ l) (hpa : p a) (hv : ∀ x, idx x = idx a → p x) :
    l.find? (fun x => idx x = idx a) = some a := by
  have hs : (l.find? fun x => idx x = idx a).isSome := List.find?_isSome.mpr ⟨a, ha, by simp⟩
  obtain ⟨c, hc⟩ := Option.isSome_iff_exists.mp hs
  have hk : idx c = idx a := by simpa using List.find?_some hc
  rw [hc, h c (List.mem_of_find?_eq_some hc) a ha (hv c hk) hpa hk]

omit [DecidableEq κ] in
theorem UniqueOn.length_filter [DecidableEq ι] [DecidablePred p] (h : UniqueOn p idx l) (hn : (l.map k).Nodup) (i : ι) :
    (l.filter fun x => idx x = i ∧ p x).length ≤ 1 := by
  have hf : (l.filter fun x => idx x = i ∧ p x).Nodup := hn.of_map.filter _
  have hm : ∀ x ∈ l.filter (fun x => idx x = i ∧ p x), x ∈ l ∧ idx x = i ∧ p x := by
    intro x hx
    simpa using List.mem_filter.mp hx
  cases hl : l.filter fun x => idx x = i ∧ p x with
  | nil => exact Nat.zero_le _
  | cons x rest =>
    cases rest with
    | nil => exact Nat.le_refl _
    | cons y rest =>
      rw [hl] at hf hm
      obtain ⟨hx, hxi, hpx⟩ := hm x List.mem_cons_self
      obtain ⟨hy, hyi, hpy⟩ := hm y (List.mem_cons_of_mem _ List.mem_cons_self)
      obtain rfl := h x hx y hy hpx hpy (hxi.trans hyi.symm)
      exact absurd List.mem_cons_self (List.nodup_cons.mp hf).1

theorem UniqueOn.append (h : UniqueOn p idx l) (hb : ∀ x ∈ l, p x → p b → idx x ≠ idx b) :
    UniqueOn p idx (l ++ [b]) := by
  intro x hx y hy hpx hpy he
  rcases List.mem_append.mp hx with hx' | hx' <;> rcases List.mem_append.mp hy with hy' | hy'
  · exact h x hx' y hy' hpx hpy he
  · obtain rfl := List.mem_singleton.mp hy'
    exact absurd he (hb x hx' hpx hpy)
  · obtain rfl := List.mem_singleton.mp hx'
    exact absurd he.symm (hb y hy' hpy hpx)
  · rw [List.mem_singleton.mp hx', List.mem_singleton.mp hy']

theorem UniqueOn.replace (h : UniqueOn p idx l) (hb : ∀ x ∈ l, k x ≠ k b → p x → p b → idx x ≠ idx b) :
    UniqueOn p idx (replaceRow k b l) := by
  intro x hx y hy hpx hpy he
  rcases mem_replaceRow hx with rfl | ⟨hx', hkx⟩ <;> rcases mem_replaceRow hy with rfl | ⟨hy', hky⟩
  · rfl
  · exact absurd he.symm (hb y hy' hky hpy hpx)
  · exact absurd he (hb x hx' hkx hpx hpy)
  · exact h x hx' y hy' hpx hpy he

end

section
variable {κ β : Type*} [DecidableEq κ] {l : List (κ × β)} {key other : κ}

theorem mem_of_lookup_eq_some {v : β} (h : l.lookup key = some v) : (key, v) ∈ l := by
  obtain ⟨l₁, l₂, rfl, -⟩ := List.lookup_eq_some_iff.mp h
  exact List.mem_append_right _ List.mem_cons_self

theorem lookup_remove_self : (l.filter fun o => o.1 ≠ key).lookup key = none := by
  rw [List.lookup_eq_none_iff]
  intro o ho
  have hne := of_decide_eq_true (List.mem_filter.mp ho).2
  exact bne_iff_ne.mpr (Ne.symm hne)

theorem lookup_remove (h : other ≠ key) : (l.filter fun o => o.1 ≠ key).lookup other = l.lookup other := by
  induction l with
  | nil => rfl
  | cons o l ih =>
    by_cases ho : o.1 = key
    · have hskip : other ≠ o.1 := fun h' => h (h'.trans ho)
      rw [List.filter_cons_of_neg (by simp [ho]), ih, List.lookup_cons, beq_false_of_ne hskip]
    · rw [List.filter_cons_of_pos (by simp [ho]), List.lookup_cons, List.lookup_cons, ih]

end

end NawaraCore
