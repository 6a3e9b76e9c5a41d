import NawaraCore.Release.Version
import NawaraCore.Lib.JsonParseSound

/-!
# Versions in the service and in the database

A text matches the pattern exactly when it is the text of a SemVer version with small numbers;
everything else is about such versions.
-/

namespace NawaraCore.Versions

open RegularExpression

/-! ## Patterns -/

variable {s a b : Text} {v : SemVer} {bound : Nat} {S : Semver} {q : Pattern} {cs rest : List Nat} {i : Identifier} {c : Nat}

theorem mem_char : s ∈ (RegularExpression.char c).matches' ↔ s = [c] := Iff.rfl

theorem mem_one : s ∈ (1 : Pattern).matches' ↔ s = [] := Iff.rfl

theorem mem_add {p : Pattern} : s ∈ (p + q).matches' ↔ s ∈ p.matches' ∨ s ∈ q.matches' := Iff.rfl

theorem mem_mul {p : Pattern} : s ∈ (p * q).matches' ↔ ∃ a ∈ p.matches', ∃ b ∈ q.matches', a ++ b = s := Language.mem_mul

theorem mem_lit {c : Char} : s ∈ (lit c * q).matches' ↔ ∃ b ∈ q.matches', s = c.toNat :: b := by
  rw [mem_mul]
  constructor
  · rintro ⟨a, ha, b, hb, rfl⟩
    rw [mem_char.mp ha]
    exact ⟨b, hb, rfl⟩
  · rintro ⟨b, hb, rfl⟩
    exact ⟨[c.toNat], rfl, b, hb, rfl⟩

theorem mem_oneOfChars : s ∈ (oneOfChars cs).matches' ↔ ∃ c ∈ cs, s = [c] := by
  induction cs with
  | nil =>
    refine iff_of_false ?_ ?_
    · exact Set.notMem_empty s
    · rintro ⟨c, hc, -⟩
      cases hc
  | cons c cs ih =>
    show s = [c] ∨ s ∈ (oneOfChars cs).matches' ↔ _
    rw [ih]
    simp

theorem mem_upTo {n : Nat} : s ∈ (upTo (oneOfChars cs) n).matches' ↔ s.length ≤ n ∧ ∀ c ∈ s, c ∈ cs := by
  induction n generalizing s with
  | zero =>
    show s = [] ↔ _
    constructor
    · rintro rfl
      exact ⟨Nat.le_refl _, nofun⟩
    · exact fun h => List.eq_nil_of_length_eq_zero (Nat.le_zero.mp h.1)
  | succ n ih =>
    rw [upTo, mem_add, mem_mul]
    constructor
    · rintro (h | ⟨a, ha, b, hb, rfl⟩)
      · rw [mem_one.mp h]
        exact ⟨Nat.zero_le _, nofun⟩
      · obtain ⟨c, hc, rfl⟩ := mem_oneOfChars.mp ha
        obtain ⟨hlength, hall⟩ := ih.mp hb
        exact ⟨Nat.succ_le_succ hlength, List.forall_mem_cons.mpr ⟨hc, hall⟩⟩
    · rintro ⟨hlength, hall⟩
      cases s with
      | nil => exact .inl rfl
      | cons c s =>
        obtain ⟨hc, hall⟩ := List.forall_mem_cons.mp hall
        exact .inr ⟨[c], mem_oneOfChars.mpr ⟨c, hc, rfl⟩, s, ih.mpr ⟨Nat.le_of_succ_le_succ hlength, hall⟩, rfl⟩

theorem mem_star_class : s ∈ (RegularExpression.star (oneOfChars cs)).matches' ↔ ∀ c ∈ s, c ∈ cs := by
  rw [matches'_star, Language.mem_kstar]
  constructor
  · rintro ⟨l, rfl, hl⟩ c hc
    obtain ⟨w, hw, hcw⟩ := List.mem_flatten.mp hc
    obtain ⟨d, hd, rfl⟩ := mem_oneOfChars.mp (hl w hw)
    exact List.mem_singleton.mp hcw ▸ hd
  · intro h
    refine ⟨s.map fun c => [c], by simp [← List.flatMap_def], fun w hw => ?_⟩
    obtain ⟨c, hc, rfl⟩ := List.mem_map.mp hw
    exact mem_oneOfChars.mpr ⟨c, h c hc, rfl⟩

/-! ## Numbers -/

theorem mem_digits : c ∈ digits ↔ isDigit c = true := by
  have h : digits = [48, 49, 50, 51, 52, 53, 54, 55, 56, 57] := by decide
  rw [h]
  simp only [isDigit, Bool.and_eq_true, decide_eq_true_eq, List.mem_cons, List.not_mem_nil, or_false]
  omega

theorem numberText_eq (n : Nat) : numberText n = (Nat.toDigits 10 n).map Char.toNat := by
  rw [numberText, codes, Nat.toList_repr]

theorem numberText_digit {k : Nat} (h : k < 10) : numberText k = [48 + k] := by
  have hall : ∀ k < 10, [(Nat.digitChar k).toNat] = [48 + k] := by decide
  rw [numberText_eq, Nat.toDigits_of_lt_base h]
  exact hall k h

theorem numberText_append {n k : Nat} (hn : 0 < n) (hk : k < 10) : numberText (10 * n + k) = numberText n ++ [48 + k] := by
  rw [← numberText_digit hk, numberText_eq, numberText_eq, numberText_eq, ← List.map_append, Nat.toDigits_append_toDigits (by decide) hn hk]

theorem numberText_digits (n : Nat) : ∀ c ∈ numberText n, isDigit c = true := Json.natText_digit n

theorem numberText_ne_nil (n : Nat) : numberText n ≠ [] := (Json.whole_literal n).2.2.1

theorem numberText_head (n : Nat) : (numberText n).head? ≠ some 48 ∨ (numberText n).length = 1 := (Json.whole_literal n).2.2.2

theorem digits_text (hs : s ≠ []) (hd : ∀ c ∈ s, isDigit c = true) (h0 : s.head? ≠ some 48 ∨ s.length = 1) : ∃ n, s = numberText n := by
  induction s using List.reverseRecOn with
  | nil => exact absurd rfl hs
  | append_singleton t d ih =>
    obtain ⟨hlo, hhi⟩ := Json.isDigit_range (hd d (List.mem_append_right _ List.mem_cons_self))
    obtain ⟨k, rfl⟩ := Nat.exists_eq_add_of_le hlo
    have hk : k < 10 := by omega
    cases t with
    | nil => exact ⟨k, (numberText_digit hk).symm⟩
    | cons c t =>
      have hhead : (c :: t).head? ≠ some 48 := by
        rcases h0 with h0 | h0
        · exact h0
        · simp at h0
      obtain ⟨n, hn⟩ := ih (List.cons_ne_nil c t) (fun x hx => hd x (List.mem_append_left _ hx)) (.inl hhead)
      have hpos : 0 < n := by
        refine Nat.pos_of_ne_zero fun h => hhead ?_
        rw [hn, h]
        rfl
      exact ⟨10 * n + k, by rw [numberText_append hpos hk, hn]⟩

theorem numberText_length {n k : Nat} (hk : 0 < k) : (numberText n).length ≤ k ↔ n < 10 ^ k := by
  rw [numberText_eq, List.length_map]
  exact Nat.length_toDigits_le_iff (by decide) hk

theorem mem_numeric : s ∈ numericIdentifier.matches' ↔ ∃ n < 10 ^ 15, s = numberText n := by
  have hrange : ∀ c, c ∈ range '1' '9' ↔ isDigit c = true ∧ c ≠ 48 := by
    intro c
    have h : range '1' '9' = [49, 50, 51, 52, 53, 54, 55, 56, 57] := by decide
    rw [h]
    simp only [isDigit, Bool.and_eq_true, decide_eq_true_eq, List.mem_cons, List.not_mem_nil, or_false]
    omega
  rw [numericIdentifier, mem_add, lit, mem_char, mem_mul]
  constructor
  · rintro (rfl | ⟨a, ha, b, hb, rfl⟩)
    · exact ⟨0, by decide, rfl⟩
    · obtain ⟨c, hc, rfl⟩ := mem_oneOfChars.mp ha
      obtain ⟨hlength, hall⟩ := mem_upTo.mp hb
      obtain ⟨hdigit, hne⟩ := (hrange c).mp hc
      have hdigits : ∀ x ∈ [c] ++ b, isDigit x = true := List.forall_mem_cons.mpr ⟨hdigit, fun x hx => mem_digits.mp (hall x hx)⟩
      have hhead : ([c] ++ b).head? ≠ some 48 := fun h => hne (Option.some.inj h)
      obtain ⟨n, hn⟩ := digits_text (List.cons_ne_nil c b) hdigits (.inl hhead)
      refine ⟨n, (numberText_length (by decide)).mp ?_, hn⟩
      rw [← hn]
      exact Nat.succ_le_succ hlength
  · rintro ⟨n, hn, rfl⟩
    have hlength := (numberText_length (n := n) (by decide : 0 < 15)).mpr hn
    have hdigits := numberText_digits n
    have hhead := numberText_head n
    have hne := numberText_ne_nil n
    revert hlength hdigits hhead hne
    cases numberText n with
    | nil => exact fun _ _ _ hne => absurd rfl hne
    | cons c t =>
      intro hlength hdigits hhead _
      obtain ⟨hc, ht⟩ := List.forall_mem_cons.mp hdigits
      by_cases h48 : c = 48
      · left
        have h1 : (c :: t).length = 1 := hhead.resolve_left fun h => h (congrArg some h48)
        have ht0 : t = [] := List.eq_nil_of_length_eq_zero (by simpa using h1)
        rw [h48, ht0]
        rfl
      · right
        exact ⟨[c], mem_oneOfChars.mpr ⟨c, (hrange c).mpr ⟨hc, h48⟩, rfl⟩, t,
          mem_upTo.mpr ⟨Nat.le_of_succ_le_succ hlength, fun x hx => mem_digits.mpr (ht x hx)⟩, rfl⟩

/-! ## Identifiers -/

theorem first_nonDigit (h : isAlphanumeric s) : ∃ a c b, s = a ++ c :: b ∧ (∀ x ∈ a, x ∈ digits) ∧ c ∈ nonDigits := by
  obtain ⟨hall, c, hmem, hc⟩ := h
  induction s with
  | nil => cases hmem
  | cons x s ih =>
    obtain ⟨hx, hall⟩ := List.forall_mem_cons.mp hall
    by_cases hxn : x ∈ nonDigits
    · exact ⟨[], x, s, rfl, nofun, hxn⟩
    · have hcs : c ∈ s := (List.mem_cons.mp hmem).resolve_left fun h => hxn (h ▸ hc)
      obtain ⟨a, d, b, rfl, ha, hd⟩ := ih hall hcs
      exact ⟨x :: a, d, b, rfl, List.forall_mem_cons.mpr ⟨(List.mem_append.mp hx).resolve_right hxn, ha⟩, hd⟩

theorem mem_alphanumeric : s ∈ alphanumericIdentifier.matches' ↔ isAlphanumeric s := by
  rw [alphanumericIdentifier, mem_mul]
  constructor
  · rintro ⟨a, ha, b, hb, rfl⟩
    obtain ⟨x, hx, y, hy, rfl⟩ := mem_mul.mp hb
    obtain ⟨c, hc, rfl⟩ := mem_oneOfChars.mp hx
    have ha := mem_star_class.mp ha
    have hy := mem_star_class.mp hy
    refine ⟨fun d hd => ?_, c, by simp, hc⟩
    rcases List.mem_append.mp hd with hd | hd
    · exact List.mem_append_left _ (ha d hd)
    · rcases List.mem_append.mp hd with hd | hd
      · rw [List.mem_singleton.mp hd]
        exact List.mem_append_right _ hc
      · exact hy d hd
  · intro h
    obtain ⟨a, c, b, rfl, ha, hc⟩ := first_nonDigit h
    exact ⟨a, mem_star_class.mpr ha, [c] ++ b, mem_mul.mpr ⟨[c], mem_oneOfChars.mpr ⟨c, hc, rfl⟩, b,
      mem_star_class.mpr fun x hx => h.1 x (by simp [hx]), rfl⟩, rfl⟩

theorem mem_identifier : s ∈ prereleaseIdentifier.matches' ↔ ∃ i : Identifier, i.Below (10 ^ 15) ∧ s = i.print := by
  rw [prereleaseIdentifier, mem_add, mem_numeric, mem_alphanumeric]
  constructor
  · rintro (⟨n, hn, rfl⟩ | h)
    · exact ⟨.numeric n, hn, rfl⟩
    · exact ⟨.alphanumeric s, h, rfl⟩
  · rintro ⟨i, hi, rfl⟩
    cases i with
    | numeric n => exact .inl ⟨n, hi, rfl⟩
    | alphanumeric s => exact .inr hi

theorem mem_rest : s ∈ (RegularExpression.star (lit '.' * prereleaseIdentifier)).matches' ↔
    ∃ is : List Identifier, (∀ i ∈ is, i.Below (10 ^ 15)) ∧ s = printIdentifiers 46 is := by
  rw [matches'_star, Language.mem_kstar]
  constructor
  · rintro ⟨l, rfl, hl⟩
    induction l with
    | nil => exact ⟨[], nofun, rfl⟩
    | cons w l ih =>
      obtain ⟨hw, htail⟩ := List.forall_mem_cons.mp hl
      obtain ⟨is, his, heq⟩ := ih htail
      obtain ⟨b, hb, rfl⟩ := mem_lit.mp hw
      obtain ⟨i, hi, rfl⟩ := mem_identifier.mp hb
      exact ⟨i :: is, List.forall_mem_cons.mpr ⟨hi, his⟩, by rw [List.flatten_cons, heq]; rfl⟩
  · rintro ⟨is, his, rfl⟩
    induction is with
    | nil => exact ⟨[], rfl, nofun⟩
    | cons i is ih =>
      obtain ⟨hi, his⟩ := List.forall_mem_cons.mp his
      obtain ⟨l, hl, hall⟩ := ih his
      refine ⟨(46 :: i.print) :: l, by rw [List.flatten_cons, ← hl]; rfl, List.forall_mem_cons.mpr ⟨?_, hall⟩⟩
      exact mem_lit.mpr ⟨i.print, mem_identifier.mpr ⟨i, hi, rfl⟩, rfl⟩

theorem mem_prerelease : s ∈ (1 + lit '-' * (prereleaseIdentifier * .star (lit '.' * prereleaseIdentifier)) : Pattern).matches' ↔
    ∃ is : List Identifier, (∀ i ∈ is, i.Below (10 ^ 15)) ∧ s = printIdentifiers 45 is := by
  rw [mem_add, mem_lit]
  constructor
  · rintro (h | ⟨b, hb, rfl⟩)
    · exact ⟨[], nofun, mem_one.mp h⟩
    · obtain ⟨x, hx, y, hy, rfl⟩ := mem_mul.mp hb
      obtain ⟨i, hi, rfl⟩ := mem_identifier.mp hx
      obtain ⟨is, his, rfl⟩ := mem_rest.mp hy
      exact ⟨i :: is, List.forall_mem_cons.mpr ⟨hi, his⟩, rfl⟩
  · rintro ⟨is, his, rfl⟩
    cases is with
    | nil => exact .inl rfl
    | cons i is =>
      obtain ⟨hi, his⟩ := List.forall_mem_cons.mp his
      exact .inr ⟨_, mem_mul.mpr ⟨i.print, mem_identifier.mpr ⟨i, hi, rfl⟩, _, mem_rest.mpr ⟨is, his, rfl⟩, rfl⟩, rfl⟩

theorem mem_numeric_mul : s ∈ (numericIdentifier * q).matches' ↔ ∃ n < 10 ^ 15, ∃ b ∈ q.matches', s = numberText n ++ b := by
  rw [mem_mul]
  constructor
  · rintro ⟨a, ha, b, hb, rfl⟩
    obtain ⟨n, hn, rfl⟩ := mem_numeric.mp ha
    exact ⟨n, hn, b, hb, rfl⟩
  · rintro ⟨n, hn, b, hb, rfl⟩
    exact ⟨_, mem_numeric.mpr ⟨n, hn, rfl⟩, b, hb, rfl⟩

theorem mem_canonical : s ∈ CANONICAL_VERSION.matches' ↔ ∃ v : SemVer, v.Below (10 ^ 15) ∧ s = v.print := by
  rw [CANONICAL_VERSION, mem_numeric_mul]
  constructor
  · rintro ⟨major, hmajor, b, hb, rfl⟩
    obtain ⟨c, hc, rfl⟩ := mem_lit.mp hb
    obtain ⟨minor, hminor, d, hd, rfl⟩ := mem_numeric_mul.mp hc
    obtain ⟨e, he, rfl⟩ := mem_lit.mp hd
    obtain ⟨patch, hpatch, f, hf, rfl⟩ := mem_numeric_mul.mp he
    obtain ⟨is, his, rfl⟩ := mem_prerelease.mp hf
    exact ⟨⟨major, minor, patch, is⟩, ⟨hmajor, hminor, hpatch, his⟩, rfl⟩
  · rintro ⟨v, hv, rfl⟩
    exact ⟨_, hv.major, _, mem_lit.mpr ⟨_, mem_numeric_mul.mpr ⟨_, hv.minor, _, mem_lit.mpr ⟨_,
      mem_numeric_mul.mpr ⟨_, hv.patch, _, mem_prerelease.mpr ⟨_, hv.prerelease, rfl⟩, rfl⟩, rfl⟩, rfl⟩, rfl⟩, rfl⟩

/-! ## Acceptance -/

theorem print_ascii (h : v.Below bound) : ∀ c ∈ v.print, c < 128 := by
  have hdigit : ∀ n, ∀ c ∈ numberText n, c < 128 := fun n c hc => by
    have := Json.isDigit_range (numberText_digits n c hc)
    omega
  have hchars : ∀ c ∈ identifierChars, c < 128 := by decide
  have hidentifier : ∀ {i : Identifier}, i.Below bound → ∀ c ∈ i.print, c < 128 := by
    intro i hi
    cases i with
    | numeric n => exact hdigit n
    | alphanumeric s => exact fun c hc => hchars c (hi.1 c hc)
  have hrest : ∀ (is : List Identifier) (mark : Nat), mark < 128 → (∀ i ∈ is, i.Below bound) → ∀ c ∈ printIdentifiers mark is, c < 128 := by
    intro is
    induction is with
    | nil => exact nofun
    | cons i is ih =>
      intro mark hmark his c hc
      obtain ⟨hi, his⟩ := List.forall_mem_cons.mp his
      rcases List.mem_cons.mp hc with rfl | hc
      · exact hmark
      · rcases List.mem_append.mp hc with hc | hc
        · exact hidentifier hi c hc
        · exact ih 46 (by decide) his c hc
  intro c hc
  rw [SemVer.print] at hc
  simp only [List.mem_append, List.mem_cons] at hc
  rcases hc with hc | rfl | hc | rfl | hc | hc
  · exact hdigit _ c hc
  · decide
  · exact hdigit _ c hc
  · decide
  · exact hdigit _ c hc
  · exact hrest _ 45 (by decide) h.prerelease c hc

theorem surrogate_free (h : c < 128) : Json.isHigh c = false ∧ Json.isLow c = false := by
  simp only [Json.isHigh, Json.isLow, Bool.and_eq_false_iff, decide_eq_false_iff_not]
  omega

theorem received_ascii : ∀ {s : Text}, (∀ c ∈ s, c < 128) → received s = s
  | [], _ => rfl
  | [c], h => by
    obtain ⟨hh, hl⟩ := surrogate_free (h c List.mem_cons_self)
    rw [received, hh, hl]
    rfl
  | c :: d :: ds, h => by
    obtain ⟨hc, hrest⟩ := List.forall_mem_cons.mp h
    obtain ⟨hh, hl⟩ := surrogate_free hc
    rw [received, hh, hl, received_ascii hrest]
    rfl

theorem ascii_received : ∀ {s : Text}, (∀ c ∈ received s, c < 128) → ∀ c ∈ s, c < 128
  | [], _ => nofun
  | [c], h => by
    rw [received] at h
    have hc := h _ List.mem_cons_self
    intro d hd
    rw [List.mem_singleton.mp hd]
    split at hc
    · exact absurd hc (by decide)
    · exact hc
  | c :: d :: ds, h => by
    rw [received] at h
    split at h
    · rename_i hpair
      have hlarge := h _ List.mem_cons_self
      omega
    · obtain ⟨hc, hrest⟩ := List.forall_mem_cons.mp h
      refine List.forall_mem_cons.mpr ⟨?_, ascii_received hrest⟩
      split at hc
      · exact absurd hc (by decide)
      · exact hc

theorem bound_safe (h : v.Below (10 ^ 15)) : v.Below 9007199254740992 := by
  have hle : (10 : Nat) ^ 15 ≤ 9007199254740992 := by decide
  refine ⟨h.major.trans_le hle, h.minor.trans_le hle, h.patch.trans_le hle, fun i hi => ?_⟩
  have hbelow := h.prerelease i hi
  cases i with
  | numeric n => exact Nat.lt_of_lt_of_le hbelow hle
  | alphanumeric s => exact hbelow

theorem isCanonical_iff (hS : S.Standard) :
    isCanonicalVersion S s = true ↔ s.length ≤ 128 ∧ ∃ v : SemVer, v.Below (10 ^ 15) ∧ s = v.print := by
  rw [isCanonicalVersion, Bool.and_eq_true, Bool.and_eq_true, decide_eq_true_eq, decide_eq_true_eq, rmatch_iff_matches', mem_canonical]
  constructor
  · exact fun h => ⟨h.1.1, h.1.2⟩
  · rintro ⟨hlength, v, hv, rfl⟩
    exact ⟨⟨hlength, v, hv, rfl⟩, hS.valid v (bound_safe hv) (hlength.trans (by decide))⟩

theorem semverValid_iff {s : List Nat} : releaseSemverValid s = true ↔ s.length ≤ 128 ∧ ∃ v : SemVer, v.Below (10 ^ 15) ∧ s = v.print := by
  rw [releaseSemverValid, Bool.and_eq_true, decide_eq_true_eq, rmatch_iff_matches']
  exact and_congr_right fun _ => mem_canonical

theorem canonical_iff_valid (hS : S.Standard) (s : Text) : isCanonicalVersion S s = true ↔ releaseSemverValid (received s) = true := by
  rw [isCanonical_iff hS, semverValid_iff]
  constructor
  · rintro ⟨hlength, v, hv, rfl⟩
    rw [received_ascii (print_ascii hv)]
    exact ⟨hlength, v, hv, rfl⟩
  · rintro ⟨hlength, v, hv, heq⟩
    have hascii : ∀ c ∈ s, c < 128 := ascii_received (by rw [heq]; exact print_ascii hv)
    rw [received_ascii hascii] at hlength heq
    exact ⟨hlength, v, hv, heq⟩

open Std

instance : OrientedCmp compareIdentifiers where
  eq_swap {a b} := match a, b with
    | .numeric m, .numeric n => OrientedOrd.eq_swap (a := m) (b := n)
    | .numeric _, .alphanumeric _ => rfl
    | .alphanumeric _, .numeric _ => rfl
    | .alphanumeric s, .alphanumeric t => OrientedOrd.eq_swap (a := s) (b := t)

instance : TransCmp compareIdentifiers where
  isLE_trans {a b c} h h' := match a, b, c, h, h' with
    | .numeric l, .numeric m, .numeric n, h, h' => TransOrd.isLE_trans (a := l) (b := m) (c := n) h h'
    | .numeric _, _, .alphanumeric _, _, _ => rfl
    | .alphanumeric _, .numeric _, _, h, _ => Bool.noConfusion h
    | _, .alphanumeric _, .numeric _, _, h' => Bool.noConfusion h'
    | .alphanumeric r, .alphanumeric s, .alphanumeric t, h, h' => TransOrd.isLE_trans (a := r) (b := s) (c := t) h h'

instance : LawfulEqCmp compareIdentifiers where
  eq_of_compare {a b} h := match a, b, h with
    | .numeric _, .numeric _, h => congrArg Identifier.numeric (LawfulEqOrd.eq_of_compare h)
    | .numeric _, .alphanumeric _, h => Ordering.noConfusion h
    | .alphanumeric _, .numeric _, h => Ordering.noConfusion h
    | .alphanumeric _, .alphanumeric _, h => congrArg Identifier.alphanumeric (LawfulEqOrd.eq_of_compare h)

instance : TransCmp comparePrerelease := inferInstanceAs (TransCmp (compareLex _ _))

instance : LawfulEqCmp comparePrerelease where
  eq_of_compare h := LawfulEqCmp.eq_of_compare (compareLex_eq_eq.mp h).2

instance : OrientedCmp fun v w : SemVer => comparePrerelease v.prerelease w.prerelease where
  eq_swap := @fun _ _ => @OrientedCmp.eq_swap _ comparePrerelease _ _ _

instance : TransCmp fun v w : SemVer => comparePrerelease v.prerelease w.prerelease where
  isLE_trans := @fun _ _ _ => @TransCmp.isLE_trans _ comparePrerelease _ _ _ _

/-- Precedence is a total order of versions. -/
instance : TransCmp precedence := inferInstanceAs (TransCmp (compareLex _ _))

instance : LawfulEqCmp precedence where
  eq_of_compare {v w} h := by
    obtain ⟨hmajor, h⟩ := compareLex_eq_eq.mp h
    obtain ⟨hminor, h⟩ := compareLex_eq_eq.mp h
    obtain ⟨hpatch, h⟩ := compareLex_eq_eq.mp h
    have h₁ : v.major = w.major := LawfulEqOrd.eq_of_compare hmajor
    have h₂ : v.minor = w.minor := LawfulEqOrd.eq_of_compare hminor
    have h₃ : v.patch = w.patch := LawfulEqOrd.eq_of_compare hpatch
    have h₄ : v.prerelease = w.prerelease := LawfulEqCmp.eq_of_compare h
    cases v
    cases w
    simp only at h₁ h₂ h₃ h₄
    rw [h₁, h₂, h₃, h₄]

/-! ## Columns -/

theorem toBigint_numberText (n : Nat) : toBigint (numberText n) = n := Json.digits_back n

def Delimited (rest : List Nat) : Prop := ∀ c ∈ rest.head?, isDigit c = false

theorem delimited_cons (h : isDigit c = false) : Delimited (c :: rest) := by
  intro d hd
  rw [← Option.some.inj hd]
  exact h

theorem leadingNumber_append (n : Nat) (h : Delimited rest) : leadingNumber (numberText n ++ rest) = some (numberText n, rest) := by
  have hempty : rest.takeWhile isDigit = [] ∧ rest.dropWhile isDigit = rest := by
    cases rest with
    | nil => exact ⟨rfl, rfl⟩
    | cons c rest =>
      have hc := h c rfl
      exact ⟨List.takeWhile_cons_of_neg (Bool.eq_false_iff.mp hc), List.dropWhile_cons_of_neg (Bool.eq_false_iff.mp hc)⟩
  have htake : (numberText n ++ rest).takeWhile isDigit = numberText n := by
    rw [List.takeWhile_append_of_pos (numberText_digits n), hempty.1, List.append_nil]
  have hdrop : (numberText n ++ rest).dropWhile isDigit = rest := by
    rw [List.dropWhile_append_of_pos (numberText_digits n), hempty.2]
  rw [leadingNumber, htake, hdrop, if_neg (numberText_ne_nil n)]

theorem numberBefore_append (n : Nat) {c : Char} (h : isDigit c.toNat = false) :
    numberBefore c (numberText n ++ c.toNat :: rest) = some (numberText n, rest) := by
  rw [numberBefore, leadingNumber_append n (delimited_cons h)]
  exact if_pos rfl

theorem delimited_identifiers (is : List Identifier) : Delimited (printIdentifiers 45 is) := by
  cases is with
  | nil => exact nofun
  | cons i is => exact delimited_cons (by decide)

theorem print_ne_nil (h : i.Below bound) : i.print ≠ [] := by
  cases i with
  | numeric n => exact numberText_ne_nil n
  | alphanumeric s =>
    obtain ⟨-, c, hc, -⟩ := h
    exact List.ne_nil_of_mem hc

theorem numbers_print (v : SemVer) :
    numberBefore '.' v.print = some (numberText v.major, numberText v.minor ++ 46 :: (numberText v.patch ++ printIdentifiers 45 v.prerelease)) ∧
    numberBefore '.' (numberText v.minor ++ 46 :: (numberText v.patch ++ printIdentifiers 45 v.prerelease)) =
      some (numberText v.minor, numberText v.patch ++ printIdentifiers 45 v.prerelease) ∧
    leadingNumber (numberText v.patch ++ printIdentifiers 45 v.prerelease) = some (numberText v.patch, printIdentifiers 45 v.prerelease) :=
  ⟨numberBefore_append v.major (by decide), numberBefore_append v.minor (by decide),
    leadingNumber_append v.patch (delimited_identifiers v.prerelease)⟩

theorem columns_print (h : v.Below bound) :
    columns v.print = ⟨some v.major, some v.minor, some v.patch,
      if v.prerelease = [] then none else some (printIdentifiers 45 v.prerelease).tail⟩ := by
  obtain ⟨h₁, h₂, h₃⟩ := numbers_print v
  have h₄ : ((numberBefore '-' (numberText v.patch ++ printIdentifiers 45 v.prerelease)).bind fun m => if m.2 = [] then none else some m.2) =
      if v.prerelease = [] then none else some (printIdentifiers 45 v.prerelease).tail := by
    rw [numberBefore, h₃]
    have hbelow := h.prerelease
    revert hbelow
    cases v.prerelease with
    | nil => exact fun _ => rfl
    | cons i is =>
      intro hbelow
      obtain ⟨hi, -⟩ := List.forall_mem_cons.mp hbelow
      exact if_neg fun h => print_ne_nil hi (List.append_eq_nil_iff.mp h).1
  simp only [columns, h₁, h₂, h₃, h₄, Option.map_some, Option.bind_some, toBigint_numberText]

theorem core_print (h : v.Below bound) : (columns v.print).core = toLex (v.major, toLex (v.minor, v.patch)) := by
  rw [columns_print h]
  rfl

theorem precedence_core {w : SemVer} (hv : v.prerelease = []) (hw : w.prerelease = []) :
    precedence v w = .lt ↔ toLex (v.major, toLex (v.minor, v.patch)) < toLex (w.major, toLex (w.minor, w.patch)) := by
  rw [Prod.Lex.toLex_lt_toLex, Prod.Lex.toLex_lt_toLex]
  simp only [precedence, compareLex, compareOn, hv, hw, Ordering.then_eq_lt, Nat.compare_eq_lt, Nat.compare_eq_eq]
  have hnil : comparePrerelease [] [] ≠ .lt := by decide
  simp only [hnil, and_false, or_false]

/-! ## Comparison -/

variable {o : Ordering}

theorem sign_eq_zero : Ordering.sign o = 0 ↔ o = .eq := by cases o <;> decide

theorem sign_neg : Ordering.sign o < 0 ↔ o = .lt := by cases o <;> decide

theorem sign_nonpos : Ordering.sign o ≤ 0 ↔ o.isLE = true := by cases o <;> decide

theorem sign_swap (o : Ordering) : Ordering.sign o.swap = -Ordering.sign o := by cases o <;> rfl

theorem compareVersions_canonical {n : Int} (h : compareVersions S a b = some n) :
    isCanonicalVersion S a = true ∧ isCanonicalVersion S b = true := by
  by_cases hrefused : ¬ isCanonicalVersion S a = true ∨ ¬ isCanonicalVersion S b = true
  · rw [compareVersions, if_pos hrefused] at h
    cases h
  · obtain ⟨ha, hb⟩ := not_or.mp hrefused
    exact ⟨not_not.mp ha, not_not.mp hb⟩

structure SemVer.Reads (v : SemVer) (s : Text) : Prop where
  below : v.Below 9007199254740992
  short : v.print.length ≤ 256
  text : s = v.print

theorem canonical_reads (hS : S.Standard) (h : isCanonicalVersion S s = true) : ∃ v : SemVer, v.Reads s := by
  obtain ⟨hlength, v, hv, rfl⟩ := (isCanonical_iff hS).mp h
  exact ⟨v, bound_safe hv, hlength.trans (by decide), rfl⟩

theorem stable_reads (hS : S.Standard) (h : isStableVersion S s = true) : ∃ v : SemVer, v.Reads s ∧ v.prerelease = [] := by
  obtain ⟨hcanonical, hnone⟩ := Bool.and_eq_true_iff.mp h
  obtain ⟨v, hv⟩ := canonical_reads hS hcanonical
  refine ⟨v, hv, (hS.prerelease v hv.below hv.short).mp ?_⟩
  rw [← hv.text]
  exact Option.isNone_iff_eq_none.mp hnone

theorem compareVersions_eq (hS : S.Standard) {w : SemVer} (ha : isCanonicalVersion S a = true)
    (hb : isCanonicalVersion S b = true) (hv : v.Reads a) (hw : w.Reads b) :
    compareVersions S a b = some (Ordering.sign (precedence v w)) := by
  have hboth : ¬ (¬ isCanonicalVersion S a ∨ ¬ isCanonicalVersion S b) := by simp [ha, hb]
  rw [compareVersions, if_neg hboth, hv.text, hw.text, hS.compare v w hv.below hw.below hv.short hw.short]

theorem received_reads (hv : v.Reads a) : received a = a := by
  rw [hv.text]
  exact received_ascii (print_ascii hv.below)

theorem stable_iff (hS : S.Standard) (ha : isCanonicalVersion S a = true) :
    isStableVersion S a = true ↔ (columns (received a)).prerelease = none := by
  obtain ⟨v, hv⟩ := canonical_reads hS ha
  have hprerelease := hS.prerelease v hv.below hv.short
  rw [isStableVersion, ha, Bool.true_and, Option.isNone_iff_eq_none, received_reads hv, hv.text, hprerelease, columns_print hv.below]
  by_cases h : v.prerelease = []
  · simp [h]
  · simp [h]

theorem compare_columns (hS : S.Standard) (ha : isStableVersion S a = true) (hb : isStableVersion S b = true) :
    ∃ n, compareVersions S a b = some n ∧ (n < 0 ↔ (columns (received a)).core < (columns (received b)).core) ∧
      (n = 0 ↔ (columns (received a)).core = (columns (received b)).core) := by
  obtain ⟨v, hv, hvstable⟩ := stable_reads hS ha
  obtain ⟨w, hw, hwstable⟩ := stable_reads hS hb
  have hacanonical := (Bool.and_eq_true_iff.mp ha).1
  have hbcanonical := (Bool.and_eq_true_iff.mp hb).1
  refine ⟨_, compareVersions_eq hS hacanonical hbcanonical hv hw, ?_, ?_⟩
  · rw [sign_neg, received_reads hv, received_reads hw, hv.text, hw.text, core_print hv.below, core_print hw.below]
    exact precedence_core hvstable hwstable
  · rw [sign_eq_zero, received_reads hv, received_reads hw, hv.text, hw.text, core_print hv.below, core_print hw.below]
    constructor
    · intro h
      rw [LawfulEqCmp.eq_of_compare h]
    · intro h
      have hsame : v = w := by
        obtain ⟨major, minor, patch, is⟩ := v
        obtain ⟨major', minor', patch', is'⟩ := w
        obtain ⟨hmajor, hrest⟩ := Prod.mk.inj (toLex_inj.mp h)
        obtain ⟨hminor, hpatch⟩ := Prod.mk.inj (toLex_inj.mp hrest)
        simp only at hmajor hminor hpatch hvstable hwstable
        rw [hmajor, hminor, hpatch, hvstable, hwstable]
      rw [hsame]
      exact ReflCmp.compare_self

theorem compare_le (hS : S.Standard) (ha : isStableVersion S a = true) (hb : isStableVersion S b = true)
    (h : (columns (received a)).core ≤ (columns (received b)).core) : ∃ n ≤ 0, compareVersions S a b = some n := by
  obtain ⟨n, hn, hlt, heq⟩ := compare_columns hS ha hb
  refine ⟨n, ?_, hn⟩
  rcases lt_or_eq_of_le h with h | h
  · exact (hlt.mpr h).le
  · exact (heq.mpr h).le

theorem latest_highest (hS : S.Standard) {releases : List Text} (hall : ∀ s ∈ releases, isCanonicalVersion S s = true) {l : List Nat}
    (h : latest (releases.map received) = some l) :
    l ∈ releases ∧ isStableVersion S l = true ∧ ∀ s ∈ releases, isStableVersion S s = true → ∃ n ≤ 0, compareVersions S s l = some n := by
  obtain ⟨hl, hnone⟩ := List.mem_filter.mp (List.argmax_mem h)
  obtain ⟨a, ha, rfl⟩ := List.mem_map.mp hl
  obtain ⟨v, hv⟩ := canonical_reads hS (hall a ha)
  have hstable : isStableVersion S a = true := (stable_iff hS (hall a ha)).mpr (Option.isNone_iff_eq_none.mp hnone)
  have hsame : received a = a := received_reads hv
  rw [hsame] at h ⊢
  refine ⟨ha, hstable, fun s hs hsstable => ?_⟩
  have hmem : received s ∈ (releases.map received).filter fun v => (columns v).prerelease.isNone :=
    List.mem_filter.mpr ⟨List.mem_map_of_mem hs, Option.isNone_iff_eq_none.mpr ((stable_iff hS (hall s hs)).mp hsstable)⟩
  have hle : (columns (received s)).core ≤ (columns a).core := List.le_of_mem_argmax (f := fun v => (columns v).core) hmem h
  rw [← hsame] at hle
  exact compare_le hS hsstable hstable hle

/-! ## A package as SemVer 2.0 says -/

def reference : Semver where
  valid s := (readVersion s).bind fun v => if v.print = s then some s else none
  prerelease s := (readVersion s).bind fun v => if v.prerelease = [] then none else some (v.prerelease.map Identifier.print)
  compare s t := match readVersion s, readVersion t with
    | some v, some w => Ordering.sign (precedence v w)
    | _, _ => 0

theorem readIdentifier_print (h : i.Below bound) : readIdentifier i.print = i := by
  cases i with
  | numeric n =>
    have hdigits : (numberText n).all isDigit = true := List.all_eq_true.mpr (numberText_digits n)
    rw [Identifier.print, readIdentifier, if_pos hdigits, toBigint_numberText]
  | alphanumeric s =>
    obtain ⟨-, c, hc, hnon⟩ := h
    have hnone : ∀ c ∈ nonDigits, isDigit c = false := by decide
    have hdigits : ¬ s.all isDigit = true := fun hall => by
      have := List.all_eq_true.mp hall c hc
      rw [hnone c hnon] at this
      cases this
    rw [Identifier.print, readIdentifier, if_neg hdigits]

theorem print_dotless (h : i.Below bound) : 46 ∉ i.print := by
  cases i with
  | numeric n => exact fun hmem => absurd (numberText_digits n 46 hmem) (by decide)
  | alphanumeric s => exact fun hmem => absurd (h.1 46 hmem) (by decide)

theorem printIdentifiers_eq (mark : Nat) (i : Identifier) (is : List Identifier) :
    printIdentifiers mark (i :: is) = mark :: [46].intercalate ((i :: is).map Identifier.print) := by
  induction is generalizing mark i with
  | nil => simp [printIdentifiers, List.intercalate]
  | cons j js ih =>
    rw [printIdentifiers, ih, List.map_cons, List.map_cons, List.map_cons]
    simp [List.intercalate]

theorem readVersion_print (h : v.Below bound) : readVersion v.print = some v := by
  obtain ⟨h₁, h₂, h₃⟩ := numbers_print v
  have h₄ : (if printIdentifiers 45 v.prerelease = [] then [] else ((printIdentifiers 45 v.prerelease).tail.splitOn 46).map readIdentifier) = v.prerelease := by
    have hbelow := h.prerelease
    revert hbelow
    cases v.prerelease with
    | nil => exact fun _ => rfl
    | cons i is =>
      intro hbelow
      have hdotless : ∀ l ∈ (i :: is).map Identifier.print, 46 ∉ l := List.forall_mem_map.mpr fun j hj => print_dotless (hbelow j hj)
      rw [printIdentifiers_eq, if_neg (List.cons_ne_nil _ _), List.tail_cons, List.splitOn_intercalate 46 hdotless (List.cons_ne_nil _ _), List.map_map]
      conv_rhs => rw [← List.map_id (i :: is)]
      exact List.map_congr_left fun j hj => readIdentifier_print (hbelow j hj)
  simp only [readVersion, h₁, h₂, h₃, h₄, Option.map_some, Option.bind_some, toBigint_numberText]

theorem reference_standard : reference.Standard where
  valid v h _ := by simp [reference, readVersion_print h]
  prerelease v h _ := by simp [reference, readVersion_print h]
  compare v w hv hw _ _ := by simp [reference, readVersion_print hv, readVersion_print hw]

/-! ## The law -/

/-- The service and the database agree on versions, and compare them alike. -/
theorem version_law (S : Semver) (hS : S.Standard) :
    (∀ s, isCanonicalVersion S s = true ↔ releaseSemverValid (received s) = true) ∧
    (∀ a b, isCanonicalVersion S a = true → isCanonicalVersion S b = true →
      ∃ n, compareVersions S a b = some n ∧ compareVersions S b a = some (-n) ∧ (n = 0 ↔ a = b)) ∧
    (∀ a b c m n, compareVersions S a b = some m → compareVersions S b c = some n → m ≤ 0 → n ≤ 0 →
      ∃ k ≤ 0, compareVersions S a c = some k) ∧
    (∀ a b, isStableVersion S a = true → isStableVersion S b = true → ∃ n, compareVersions S a b = some n ∧
      (n < 0 ↔ (columns (received a)).core < (columns (received b)).core) ∧
      (n = 0 ↔ (columns (received a)).core = (columns (received b)).core)) ∧
    ∀ releases : List Text, (∀ s ∈ releases, isCanonicalVersion S s = true) →
      (latest (releases.map received) = none ↔ ∀ s ∈ releases, isStableVersion S s = false) ∧
      ∀ l, latest (releases.map received) = some l → l ∈ releases ∧ isStableVersion S l = true ∧
        ∀ s ∈ releases, isStableVersion S s = true → ∃ n ≤ 0, compareVersions S s l = some n := by
  refine ⟨canonical_iff_valid hS, ?_, ?_, fun a b => compare_columns hS, fun releases hall => ⟨?_, fun l => latest_highest hS hall⟩⟩
  · intro a b ha hb
    obtain ⟨v, hv⟩ := canonical_reads hS ha
    obtain ⟨w, hw⟩ := canonical_reads hS hb
    refine ⟨_, compareVersions_eq hS ha hb hv hw, ?_, ?_⟩
    · rw [compareVersions_eq hS hb ha hw hv, ← sign_swap, ← (@OrientedCmp.eq_swap _ precedence)]
    · rw [sign_eq_zero]
      constructor
      · intro h
        rw [hv.text, hw.text, LawfulEqCmp.eq_of_compare h]
      · rintro rfl
        have hself := (compareVersions_eq hS ha ha hv hw).symm.trans (compareVersions_eq hS ha ha hv hv)
        rw [← sign_eq_zero, Option.some.inj hself, sign_eq_zero]
        exact ReflCmp.compare_self
  · intro a b c m n hm hn hmle hnle
    obtain ⟨ha, hb⟩ := compareVersions_canonical hm
    obtain ⟨-, hc⟩ := compareVersions_canonical hn
    obtain ⟨u, hu⟩ := canonical_reads hS ha
    obtain ⟨v, hv⟩ := canonical_reads hS hb
    obtain ⟨w, hw⟩ := canonical_reads hS hc
    rw [compareVersions_eq hS ha hb hu hv] at hm
    rw [compareVersions_eq hS hb hc hv hw] at hn
    rw [← Option.some.inj hm, sign_nonpos] at hmle
    rw [← Option.some.inj hn, sign_nonpos] at hnle
    exact ⟨_, sign_nonpos.mpr (TransCmp.isLE_trans hmle hnle), compareVersions_eq hS ha hc hu hw⟩
  · rw [latest, List.argmax_eq_none, List.filter_eq_nil_iff, List.forall_mem_map]
    refine forall₂_congr fun s hs => ?_
    rw [Option.isNone_iff_eq_none, ← stable_iff hS (hall s hs), Bool.not_eq_true]

theorem version_law_sample :
    latest ([codes "1.9.0", codes "1.10.0", codes "2.0.0-rc.1"].map received) = some (codes "1.10.0") ∧
    isStableVersion reference (codes "1.10.0") = true ∧ ∃ n ≤ 0, compareVersions reference (codes "1.9.0") (codes "1.10.0") = some n := by
  have hall : ∀ s ∈ [codes "1.9.0", codes "1.10.0", codes "2.0.0-rc.1"], isCanonicalVersion reference s = true := by decide +kernel
  have hlatest : latest ([codes "1.9.0", codes "1.10.0", codes "2.0.0-rc.1"].map received) = some (codes "1.10.0") := by decide +kernel
  have hstable : isStableVersion reference (codes "1.9.0") = true := by decide +kernel
  obtain ⟨-, h, hhighest⟩ := ((version_law reference reference_standard).2.2.2.2 _ hall).2 _ hlatest
  exact ⟨hlatest, h, hhighest _ List.mem_cons_self hstable⟩

end NawaraCore.Versions
