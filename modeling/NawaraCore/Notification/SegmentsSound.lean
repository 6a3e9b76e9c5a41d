import Mathlib.Order.Bounds.Basic
import NawaraCore.Lib.NextFit
import NawaraCore.Notification.RenderSound

/-!
# Segments of an SMS

The segments counted are the units divided by what one holds. A character of two units that
does not fit leaves one of them empty, so that the count is right as long as the units lost
so are no more than those left in the last segment.
-/

namespace NawaraCore.Templates

open NextFit (Packs filled packs_iff sum_le_filled)

/-- The units of each character of a text in UCS-2. -/
def pairUnits : Text → List Nat
  | [] => []
  | [_] => [1]
  | c :: d :: rest => if Json.isHigh c && Json.isLow d then 2 :: pairUnits rest else 1 :: pairUnits (d :: rest)

/-- How a text is sent: the units of its characters, and what a single message and each part of a longer one hold. -/
structure Sms where
  characters : List Nat
  single : Nat
  part : Nat

def smsOf (text : Text) : Sms := if text.all isGsm then ⟨text.map septet, 160, 153⟩ else ⟨pairUnits text, 70, 67⟩

/-- The text can be sent in `n` segments, and no character is in two. -/
def SentIn (text : Text) (n : Nat) : Prop :=
  let sms := smsOf text
  1 ≤ n ∧ (n = 1 ∧ sms.characters.sum ≤ sms.single ∨ Packs sms.part sms.characters n)

/-- The units left empty where the next character does not fit. -/
def Sms.lost (sms : Sms) : Nat := filled sms.part 0 sms.characters - sms.characters.sum

/-- The units left in the last part when none is lost. -/
def Sms.spare (sms : Sms) : Nat := (sms.part - sms.characters.sum % sms.part) % sms.part

section
variable {text : Text} {n : Nat}

theorem pairUnits_sum : ∀ text : Text, (pairUnits text).sum = text.length
  | [] => rfl
  | [_] => rfl
  | c :: d :: rest => by
    rw [pairUnits]
    split
    · rw [List.sum_cons, pairUnits_sum rest, List.length_cons, List.length_cons]
      omega
    · rw [List.sum_cons, pairUnits_sum (d :: rest), List.length_cons (a := c)]
      omega

theorem pairUnits_small : ∀ (text : Text), ∀ w ∈ pairUnits text, 0 < w ∧ w ≤ 67
  | [] => nofun
  | [_] => by simp [pairUnits]
  | c :: d :: rest => by
    rw [pairUnits]
    split
    · exact List.forall_mem_cons.mpr ⟨by decide, pairUnits_small rest⟩
    · exact List.forall_mem_cons.mpr ⟨by decide, pairUnits_small (d :: rest)⟩

theorem characters_small (text : Text) : ∀ w ∈ (smsOf text).characters, 0 < w ∧ w ≤ (smsOf text).part := by
  unfold smsOf
  split
  · intro w hw
    obtain ⟨c, -, rfl⟩ := List.mem_map.mp hw
    refine ⟨?_, (septet_le c).trans (by decide : 2 ≤ 153)⟩
    unfold septet
    split <;> decide
  · exact pairUnits_small text

theorem part_pos (text : Text) : 0 < (smsOf text).part ∧ (smsOf text).part ≤ (smsOf text).single := by
  unfold smsOf
  split
  · exact (by decide : 0 < 153 ∧ 153 ≤ 160)
  · exact (by decide : 0 < 67 ∧ 67 ≤ 70)

theorem segments_eq (text : Text) : (smsSize text).segments =
    if (smsOf text).characters.sum ≤ (smsOf text).single then 1 else ((smsOf text).characters.sum + ((smsOf text).part - 1)) / (smsOf text).part := by
  by_cases hgsm : text.all isGsm = true
  · rw [segments_gsm hgsm, smsOf, if_pos hgsm]
    rfl
  · rw [segments_ucs2 hgsm, smsOf, if_neg hgsm]
    dsimp only
    rw [pairUnits_sum]
    rfl

theorem sentIn_long (hlong : ¬ (smsOf text).characters.sum ≤ (smsOf text).single) :
    SentIn text n ↔ 1 ≤ n ∧ filled (smsOf text).part 0 (smsOf text).characters ≤ (smsOf text).part * n := by
  rw [← packs_iff (characters_small text)]
  exact and_congr_right fun _ => or_iff_right fun h => hlong h.2

/-- A division rounded up, and what is left of the last part. -/
theorem div_up (sum : Nat) {part : Nat} (hp : 0 < part) :
    part * ((sum + (part - 1)) / part) = sum + (part - sum % part) % part ∧ ∀ n, sum ≤ part * n → (sum + (part - 1)) / part ≤ n := by
  have hdiv := Nat.div_add_mod sum part
  have hmod := Nat.mod_lt sum hp
  constructor
  · by_cases hr : sum % part = 0
    · have hself : sum + (part - 1) = part * (sum / part) + (part - 1) := by omega
      rw [hself, Nat.mul_add_div hp, Nat.div_eq_of_lt (a := part - 1) (by omega), hr, Nat.sub_zero, Nat.mod_self, Nat.add_zero]
      omega
    · have hself : sum + (part - 1) = part * (sum / part + 1) + (sum % part - 1) := by
        rw [Nat.mul_succ]
        omega
      rw [hself, Nat.mul_add_div hp, Nat.div_eq_of_lt (a := sum % part - 1) (by omega), Nat.mod_eq_of_lt (a := part - sum % part) (by omega), Nat.add_zero,
        Nat.mul_succ]
      omega
  · intro n hn
    refine Nat.le_of_lt_succ ((Nat.div_lt_iff_lt_mul hp).mpr ?_)
    rw [Nat.succ_mul, Nat.mul_comm n]
    omega

end

/-- **The count is that of the segments** exactly for a text that one message holds, or that loses no more units than the last part has left. -/
theorem segments_least (text : Text) : IsLeast {n | SentIn text n} (smsSize text).segments ↔
    (smsOf text).characters.sum ≤ (smsOf text).single ∨ (smsOf text).lost ≤ (smsOf text).spare := by
  obtain ⟨hpos, hpart⟩ := part_pos text
  rw [segments_eq]
  by_cases hlong : (smsOf text).characters.sum ≤ (smsOf text).single
  · rw [if_pos hlong]
    exact iff_of_true ⟨⟨Nat.le_refl 1, .inl ⟨rfl, hlong⟩⟩, fun n hn => hn.1⟩ (.inl hlong)
  · rw [if_neg hlong, or_iff_right hlong]
    obtain ⟨hspare, hmin⟩ := div_up (smsOf text).characters.sum hpos
    have hsum := sum_le_filled hpos 0 (smsOf text).characters
    have hlower : ∀ n, SentIn text n → ((smsOf text).characters.sum + ((smsOf text).part - 1)) / (smsOf text).part ≤ n := fun n hn =>
      hmin n (by have := ((sentIn_long hlong).mp hn).2; omega)
    have hone : 1 ≤ ((smsOf text).characters.sum + ((smsOf text).part - 1)) / (smsOf text).part := (Nat.one_le_div_iff hpos).mpr (by omega)
    rw [Sms.lost, Sms.spare]
    constructor
    · intro h
      have := ((sentIn_long hlong).mp h.1).2
      omega
    · intro h
      exact ⟨(sentIn_long hlong).mpr ⟨hone, by omega⟩, fun n hn => hlower n hn⟩

/-- 152 letters, an euro sign and 152 letters. -/
def straddling : Text := List.replicate 152 97 ++ 8364 :: List.replicate 152 97

theorem straddling_segments : (smsSize straddling).segments = 2 ∧ ¬ IsLeast {n | SentIn straddling n} (smsSize straddling).segments ∧ SentIn straddling 3 := by
  have hgsm : straddling.all isGsm = true := by
    rw [isGsm_eq, gsm_basic, gsm_extension]
    decide +kernel
  have hsms : smsOf straddling = ⟨List.replicate 152 1 ++ 2 :: List.replicate 152 1, 160, 153⟩ := by
    have hletter : septet 97 = 1 := by rw [septet, gsm_basic]; rfl
    have heuro : septet 8364 = 2 := by rw [septet, gsm_basic]; rfl
    rw [smsOf, if_pos hgsm, straddling, List.map_append, List.map_cons, List.map_replicate, hletter, heuro]
  have hlong : ¬ (smsOf straddling).characters.sum ≤ (smsOf straddling).single := by
    rw [hsms]
    decide +kernel
  have hfilled : filled 153 0 (List.replicate 152 1 ++ 2 :: List.replicate 152 1) = 307 := by decide +kernel
  have hsegments : (smsSize straddling).segments = 2 := by
    rw [segments_eq, if_neg hlong, hsms]
    decide +kernel
  refine ⟨hsegments, fun h => ?_, (sentIn_long hlong).mpr ⟨by decide, by rw [hsms, hfilled]; decide⟩⟩
  rw [hsegments] at h
  have := ((sentIn_long hlong).mp h.1).2
  rw [hsms, hfilled] at this
  exact absurd this (by decide)

end NawaraCore.Templates
