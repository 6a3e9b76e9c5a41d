import Mathlib.Algebra.GroupWithZero.Nat
import Mathlib.Data.List.Basic
import Mathlib.Data.List.DropRight

/-!
# Texts

The length of a text in UTF-16 code units, its lower-case letters, its code as a number,
which two texts never share, and the white space around it.
-/

namespace NawaraCore

def utf16Length (s : String) : Nat := (s.toList.map fun c => if c.toNat < 65536 then 1 else 2).sum

theorem length_le_utf16Length (w : String) : w.length ≤ utf16Length w := by
  have h : ∀ cs : List Char, cs.length ≤ (cs.map fun c => if c.toNat < 65536 then 1 else 2).sum := by
    intro cs
    induction cs with
    | nil => exact Nat.le_refl _
    | cons c cs ih =>
      rw [List.map_cons, List.sum_cons, List.length_cons]
      split <;> omega
  exact h w.toList

theorem length_pos_of_utf16Length {w : String} (h : 1 ≤ utf16Length w) : 1 ≤ w.length := by
  by_contra hw
  have hnil : w.toList = [] := List.eq_nil_of_length_eq_zero (by simpa using hw)
  simp [utf16Length, hnil] at h

theorem map_toLower_eq {cs : List Char} (h : ∀ c ∈ cs, c.isUpper = false) : cs.map Char.toLower = cs := by
  induction cs with
  | nil => rfl
  | cons c cs ih =>
    have hc : c.toLower = c := by
      have hu := of_decide_eq_false (h c (by simp))
      unfold Char.toLower
      rw [dif_neg]
      tauto
    rw [List.map_cons, hc, ih fun d hd => h d (List.mem_cons_of_mem _ hd)]

def charsCode : List Char → Nat
  | [] => 0
  | c :: cs => c.toNat + 1 + 1114113 * charsCode cs

def textCode (s : String) : Nat := charsCode s.toList

def between (low high : Nat) (c : Char) : Bool := low ≤ c.toNat ∧ c.toNat ≤ high

/-- What `trim` removes. -/
def isWhiteSpace (c : Char) : Bool :=
  between 0x09 0x0D c || between 0x20 0x20 c || between 0xA0 0xA0 c || between 0x1680 0x1680 c || between 0x2000 0x200A c ||
    between 0x2028 0x2029 c || between 0x202F 0x202F c || between 0x205F 0x205F c || between 0x3000 0x3000 c ||
    between 0xFEFF 0xFEFF c

def trimText (s : List Char) : List Char := (s.dropWhile isWhiteSpace).rdropWhile isWhiteSpace

def Trimmed (s : List Char) : Prop := (∀ c ∈ s.head?, isWhiteSpace c = false) ∧ ∀ c ∈ s.getLast?, isWhiteSpace c = false

theorem trim_infix (s : List Char) : ∃ a b, s = a ++ trimText s ++ b := by
  obtain ⟨a, ha⟩ := List.dropWhile_suffix (l := s) isWhiteSpace
  obtain ⟨b, hb⟩ := List.rdropWhile_prefix isWhiteSpace (s.dropWhile isWhiteSpace)
  refine ⟨a, b, ?_⟩
  rw [List.append_assoc]
  exact (hb.symm ▸ ha.symm : s = a ++ ((s.dropWhile isWhiteSpace).rdropWhile isWhiteSpace ++ b))

theorem trimmed_trim (s : List Char) : Trimmed (trimText s) := by
  constructor
  · intro c hc
    -- what stands first stands first after the leading white space
    obtain ⟨b, hb⟩ := List.rdropWhile_prefix isWhiteSpace (s.dropWhile isWhiteSpace)
    have hnot := List.head?_dropWhile_not isWhiteSpace s
    have hb : s.dropWhile isWhiteSpace = trimText s ++ b := hb.symm
    cases ht : trimText s with
    | nil =>
      rw [ht] at hc
      cases hc
    | cons d t =>
      rw [ht] at hc
      obtain rfl := Option.some.inj hc
      rw [hb, ht] at hnot
      simpa using hnot
  · intro c hc
    have hne : trimText s ≠ [] := fun hnil => by
      rw [hnil] at hc
      cases hc
    have hlast : ¬ isWhiteSpace ((trimText s).getLast hne) = true :=
      List.rdropWhile_last_not isWhiteSpace (s.dropWhile isWhiteSpace) hne
    rw [List.getLast?_eq_getLast_of_ne_nil hne] at hc
    obtain rfl := Option.some.inj hc
    simpa using hlast

theorem Trimmed.trim_eq {s : List Char} (h : Trimmed s) : trimText s = s := by
  have hfront : s.dropWhile isWhiteSpace = s := by
    cases s with
    | nil => rfl
    | cons c s => rw [List.dropWhile_cons, h.1 c rfl]; rfl
  unfold trimText
  rw [hfront, List.rdropWhile_eq_self_iff]
  intro hne
  have := h.2 (s.getLast hne) (List.getLast?_eq_getLast_of_ne_nil hne)
  simpa using this

end NawaraCore
