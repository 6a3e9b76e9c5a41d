import Mathlib.Data.List.Sort
import Mathlib.Data.List.Nodup

/-!
# Keyset paging of a growing table

A table is read page by page in the order of its keys, each page after the last key of the
one before, while rows are added to it. A row is collected when it was there before the page
of its key was read.
-/

namespace NawaraCore

variable {later : Nat}

section
variable {α κ : Type*} [LinearOrder κ] (k : α → κ)

def page (n : Nat) (after : Option κ) (l : List α) : List α :=
  ((l.filter fun a => after.all (· < k a)).insertionSort fun a b => k a ≤ k b).take n

/-- A reader between two pages; `readAt` is the time of the page of each key. -/
structure Pager (α κ : Type*) where
  after : Option κ
  rows : List α
  readAt : κ → Option Nat
  finished : Bool

def Pager.start : Pager α κ := ⟨none, [], fun _ => none, false⟩

def Pager.decides (g : Pager α κ) (n : Nat) (p : List α) (x : κ) : Bool :=
  g.after.all (· < x) ∧ (p.length < n ∨ p.getLast?.any fun a => x ≤ k a)

def Pager.read (n now : Nat) (table : List α) (g : Pager α κ) : Pager α κ :=
  let p := page k n g.after table
  { after := (p.getLast?.map k).or g.after
    rows := g.rows ++ p
    readAt := fun x => if g.decides k n p x then some now else g.readAt x
    finished := p.length < n }

variable {k} {n : Nat} {after : Option κ} {l : List α} {a b : α}

theorem mem_of_mem_page (h : a ∈ page k n after l) : a ∈ l ∧ after.all (· < k a) = true := by
  have h := (List.mem_insertionSort _).mp (List.mem_of_mem_take h)
  exact ⟨(List.mem_filter.mp h).1, (List.mem_filter.mp h).2⟩

theorem mem_page (hn : (l.map k).Nodup) (ha : a ∈ l) (haft : after.all (· < k a) = true)
    (hd : (page k n after l).length < n ∨ (page k n after l).getLast?.any (fun b => k a ≤ k b) = true) :
    a ∈ page k n after l := by
  unfold page at hd ⊢
  generalize hs : (l.filter fun a => after.all (· < k a)).insertionSort (fun a b => k a ≤ k b) = s at hd ⊢
  have hmem : a ∈ s := by
    rw [← hs]
    exact (List.mem_insertionSort _).mpr (List.mem_filter.mpr ⟨ha, haft⟩)
  have hsorted : s.Pairwise fun a b => k a ≤ k b := hs ▸ List.pairwise_insertionSort _ _
  have hkeys : (s.map k).Nodup := by
    rw [← hs]
    exact (List.Perm.nodup_iff ((List.perm_insertionSort _ _).map k)).mpr (hn.sublist (List.filter_sublist.map k))
  rcases hd with hlen | hlast
  · rw [List.length_take] at hlen
    rwa [List.take_of_length_le (by omega)]
  · rw [← List.take_append_drop n s] at hmem hsorted hkeys
    rcases List.mem_append.mp hmem with hm | hm
    · exact hm
    · -- a row after the page has a later key than the last of the page
      cases hb : (s.take n).getLast? with
      | none =>
        rw [hb] at hlast
        cases hlast
      | some b =>
        rw [hb, Option.any_some, decide_eq_true_eq] at hlast
        have hbm := List.mem_of_getLast? hb
        have heq : k a = k b := le_antisymm hlast ((List.pairwise_append.mp hsorted).2.2 b hbm a hm)
        rw [List.map_append] at hkeys
        exact absurd (heq ▸ List.mem_map_of_mem hm) (List.disjoint_of_nodup_append hkeys (List.mem_map_of_mem hbm))

theorem lt_of_last {x : κ} (hb : (page k n after l).getLast? = some b) (hx : k b < x) : after.all (· < x) = true := by
  have := (mem_of_mem_page (List.mem_of_getLast? hb)).2
  cases after with
  | none => rfl
  | some y =>
    rw [Option.all_some, decide_eq_true_eq] at this ⊢
    exact this.trans hx

theorem page_pairwise (hn : (l.map k).Nodup) : (page k n after l).Pairwise fun a b => k a < k b := by
  have hle : (page k n after l).Pairwise fun a b => k a ≤ k b :=
    (List.pairwise_insertionSort _ _).sublist (List.take_sublist _ _)
  have hkeys : ((page k n after l).map k).Nodup := by
    have hsorted := ((List.perm_insertionSort (fun a b => k a ≤ k b) (l.filter fun a => after.all (· < k a))).map k).nodup_iff.mpr
      (hn.sublist (List.filter_sublist.map k))
    exact hsorted.sublist ((List.take_sublist _ _).map k)
  exact (hle.and (List.pairwise_map.mp hkeys)).imp fun h => lt_of_le_of_ne h.1 h.2

theorem page_passes (hn : (l.map k).Nodup) (hp : 0 < n) (ha : a ∈ l) (haft : after.all (· < k a) = true)
    (hnot : a ∉ page k n after l) :
    (page k n after l).length = n ∧ ∃ b, (page k n after l).getLast? = some b ∧ k b < k a := by
  have hle : (page k n after l).length ≤ n := by
    unfold page
    rw [List.length_take]
    exact Nat.min_le_left _ _
  have hlen : (page k n after l).length = n := by
    by_contra hne
    exact hnot (mem_page hn ha haft (.inl (by omega)))
  refine ⟨hlen, ?_⟩
  cases hb : (page k n after l).getLast? with
  | none =>
    rw [List.getLast?_eq_none_iff.mp hb] at hlen
    exact absurd hlen (by simp; omega)
  | some b =>
    refine ⟨b, rfl, lt_of_not_ge fun hge => hnot (mem_page hn ha haft (.inr ?_))⟩
    rw [hb]
    simpa using hge

/-! ## What a reader has collected -/

variable {g : Pager α κ} {born : α → Nat} {now : Nat}

/-- The keys still to be read are those after the last one, and a row of a key that is read was collected exactly when it was
there before. -/
structure Pager.Covers (k : α → κ) (g : Pager α κ) (born : α → Nat) (now : Nat) (l : List α) : Prop where
  ahead : ∀ x, g.readAt x = none ↔ g.finished = false ∧ g.after.all (· < x) = true
  past : ∀ x t, g.readAt x = some t → t < now
  found : ∀ a ∈ l, ∀ t, g.readAt (k a) = some t → (born a < t ↔ k a ∈ g.rows.map k)
  rows : ∀ a ∈ g.rows, k a ∈ l.map k

theorem Pager.Covers.start (born : α → Nat) (now : Nat) (l : List α) : Pager.start.Covers k born now l :=
  ⟨fun x => by simp [Pager.start], fun x t h => by simp [Pager.start] at h, fun a _ t h => by simp [Pager.start] at h,
    fun a h => by simp [Pager.start] at h⟩

section
variable (h : g.Covers k born now l)
include h

theorem Pager.Covers.append (hf : ∀ a ∈ l, k a ≠ k b) (hb : born b = now)
    (hl : now ≤ later) : g.Covers k born later (l ++ [b]) := by
  refine ⟨h.ahead, fun x t ht => lt_of_lt_of_le (h.past x t ht) hl, fun a ha t ht => ?_, fun a ha => ?_⟩
  · rcases List.mem_append.mp ha with ha | ha
    · exact h.found a ha t ht
    · rw [List.mem_singleton.mp ha] at ht ⊢
      have hnew : k b ∉ g.rows.map k := by
        intro hm
        obtain ⟨r, hr, hrk⟩ := List.mem_map.mp hm
        obtain ⟨a, ha, hak⟩ := List.mem_map.mp (h.rows r hr)
        exact hf a ha (hak.trans hrk)
      have := h.past _ t ht
      exact ⟨fun hlt => by omega, fun hm => absurd hm hnew⟩
  · rw [List.map_append]
    exact List.mem_append_left _ (h.rows a ha)

theorem Pager.Covers.keep {m : List α} (hm : m.map (fun a => (k a, born a)) = l.map fun a => (k a, born a))
    (hl : now ≤ later) : g.Covers k born later m := by
  have hk : m.map k = l.map k := by
    have := congrArg (List.map Prod.fst) hm
    rwa [List.map_map, List.map_map] at this
  refine ⟨h.ahead, fun x t ht => lt_of_lt_of_le (h.past x t ht) hl, fun a ha t ht => ?_, fun a ha => ?_⟩
  · have hmem : (k a, born a) ∈ l.map fun a => (k a, born a) := hm ▸ List.mem_map.mpr ⟨a, ha, rfl⟩
    obtain ⟨c, hc, he⟩ := List.mem_map.mp hmem
    obtain ⟨he₁, he₂⟩ := Prod.mk.inj he
    rw [← he₁] at ht
    rw [← he₁, ← he₂]
    exact h.found c hc t ht
  · rw [hk]
    exact h.rows a ha

theorem Pager.Covers.read (hn : (l.map k).Nodup) (hp : 0 < n) (hnf : g.finished = false)
    (hb : ∀ a ∈ l, born a < now) (hl : now < later) : (g.read k n now l).Covers k born later l := by
  have hahead : ∀ x, g.readAt x = none ↔ g.after.all (· < x) = true := fun x => by simp [h.ahead x, hnf]
  generalize hpg : page k n g.after l = p
  refine ⟨fun x => ?_, fun x t ht => ?_, fun a ha t ht => ?_, fun a ha => ?_⟩
  · simp only [Pager.read, hpg]
    by_cases haft : g.after.all (· < x) = true
    · by_cases hlen : p.length < n
      · simp [Pager.decides, haft, hlen]
      · cases hlast : p.getLast? with
        | none =>
          rw [List.getLast?_eq_none_iff.mp hlast] at hlen
          exact absurd hp hlen
        | some b =>
          by_cases hx : x ≤ k b
          · simp [Pager.decides, haft, hlast, hx, hlen]
          · have hr := (hahead x).mpr haft
            simp [Pager.decides, haft, hlast, hx, hlen, hr, lt_of_not_ge hx]
    · have hr : g.readAt x ≠ none := fun he => haft ((hahead x).mp he)
      simp only [Pager.decides, haft, Bool.false_eq_true, false_and, decide_false, if_false]
      refine ⟨fun he => absurd he hr, ?_⟩
      rintro ⟨hlen, hx⟩
      cases hlast : p.getLast? with
      | none =>
        rw [List.getLast?_eq_none_iff.mp hlast] at hlen
        simp [hp] at hlen
      | some b =>
        rw [hlast] at hx
        rw [← hpg] at hlast
        exact absurd (lt_of_last hlast (by simpa using hx)) haft
  · simp only [Pager.read, hpg] at ht
    split at ht
    · rw [← Option.some.inj ht]
      exact hl
    · exact (h.past x t ht).trans hl
  · simp only [Pager.read, hpg] at ht ⊢
    rw [List.map_append, List.mem_append]
    split at ht
    · rename_i hd
      rw [← Option.some.inj ht]
      simp only [Pager.decides, decide_eq_true_eq] at hd
      have hmem : a ∈ page k n g.after l := mem_page hn ha hd.1 (by rw [hpg]; exact hd.2)
      rw [hpg] at hmem
      exact ⟨fun _ => .inr (List.mem_map_of_mem hmem), fun _ => hb a ha⟩
    · rw [h.found a ha t ht]
      refine ⟨.inl, fun hm => hm.resolve_right fun hx => ?_⟩
      obtain ⟨b, hbm, hbk⟩ := List.mem_map.mp hx
      rw [← hpg] at hbm
      have := (hahead (k b)).mpr (mem_of_mem_page hbm).2
      rw [hbk, ht] at this
      cases this
  · simp only [Pager.read, hpg] at ha
    rcases List.mem_append.mp ha with ha | ha
    · exact h.rows a ha
    · rw [← hpg] at ha
      exact List.mem_map_of_mem (mem_of_mem_page ha).1

theorem Pager.Covers.finished_readAt (hf : g.finished = true) (x : κ) :
    ∃ t, g.readAt x = some t := by
  cases ht : g.readAt x with
  | some t => exact ⟨t, rfl⟩
  | none =>
    have := ((h.ahead x).mp ht).1
    rw [hf] at this
    cases this

end

end

end NawaraCore
