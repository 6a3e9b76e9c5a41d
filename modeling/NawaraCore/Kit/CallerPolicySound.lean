import NawaraCore.Kit.CallerPolicy
import NawaraCore.Lib.Outcome

/-!
# What the strict reader accepts

A document is accepted exactly when it nests within the bound and repeats no key.
-/

namespace NawaraCore.CallerPolicy

open Json (Numerals skipSpace skipSpace_shorter isLiteral isFraction isExponent literalChar Ends)

/-! ## Numbers -/

theorem run_ends {p : Nat → Bool} {w s : List Nat} (hw : ∀ c ∈ w, p c = true) (hs : ∀ c ∈ s.head?, p c = false) :
    (w ++ s).takeWhile p = w ∧ (w ++ s).dropWhile p = s := by
  rw [List.takeWhile_append_of_pos hw, List.dropWhile_append_of_pos hw]
  cases s with
  | nil => exact ⟨List.append_nil w, rfl⟩
  | cons c s =>
    have hc : ¬ p c = true := by
      rw [hs c rfl]
      exact Bool.false_ne_true
    rw [List.takeWhile_cons_of_neg hc, List.dropWhile_cons_of_neg hc, List.append_nil]
    exact ⟨rfl, rfl⟩

theorem digits_run (s : List Nat) : ∀ c ∈ s.takeWhile isDigit, isDigit c = true := List.all_eq_true.mp List.all_takeWhile

theorem after_digits (s : List Nat) : ∀ c ∈ (s.dropWhile isDigit).head?, isDigit c = false := by
  intro c hc
  have := List.head?_dropWhile_not isDigit s
  rw [Option.mem_def] at hc
  rw [hc] at this
  simpa using this

variable {s rest text token : List Nat}

theorem ends_digit (h : Ends s) : ∀ c ∈ s.head?, isDigit c = false := by
  intro c hc
  have := h c hc
  unfold literalChar at this
  exact (Bool.or_eq_false_iff.mp this).1

theorem head_append {p : Nat → Prop} (hs : ∀ c ∈ s.head?, p c) (hr : ∀ c ∈ rest.head?, p c) : ∀ c ∈ (s ++ rest).head?, p c := by
  cases s with
  | nil => exact hr
  | cons c s => exact hs

theorem exponent_head (h : isExponent s = true) : ∀ c ∈ s.head?, c = 101 ∨ c = 69 := by
  cases s with
  | nil => exact nofun
  | cons c s =>
    intro d hd
    cases hd
    unfold isExponent at h
    simp only [Bool.and_eq_true, Bool.or_eq_true, decide_eq_true_eq] at h
    exact h.1.1

theorem fraction_head (h : isFraction s = true) : ∀ c ∈ s.head?, isDigit c = false := by
  intro c hc
  unfold isFraction at h
  split at h
  · cases hc
    rfl
  · rcases exponent_head h c hc with rfl | rfl <;> rfl

theorem matchSign_plain (h : ∀ c ∈ text.head?, c ≠ 43 ∧ c ≠ 45) : matchSign text = ([], text) := by
  unfold matchSign
  split
  · exact absurd rfl (h 43 rfl).1
  · exact absurd rfl (h 45 rfl).2
  · rfl

theorem matchSign_cases (text : List Nat) :
    (∃ c t, (c = 43 ∨ c = 45) ∧ text = c :: t ∧ matchSign text = ([c], t)) ∨ (∀ c ∈ text.head?, c ≠ 43 ∧ c ≠ 45) ∧ matchSign text = ([], text) := by
  cases text with
  | nil => exact .inr ⟨nofun, rfl⟩
  | cons c t =>
    by_cases h : c = 43 ∨ c = 45
    · left
      refine ⟨c, t, h, rfl, ?_⟩
      rcases h with rfl | rfl <;> rfl
    · right
      have hc : ∀ d ∈ (c :: t).head?, d ≠ 43 ∧ d ≠ 45 := by
        intro d hd
        cases hd
        exact not_or.mp h
      exact ⟨hc, matchSign_plain hc⟩

variable {c : Nat}

theorem digit_sign (h : isDigit c = true) : c ≠ 43 ∧ c ≠ 45 := by
  have := Json.isDigit_range h
  omega

theorem digits_sign {d : List Nat} (h : ∀ c ∈ d, isDigit c = true) : ∀ c ∈ d.head?, c ≠ 43 ∧ c ≠ 45 :=
  fun c hc => digit_sign (h c (List.mem_of_mem_head? hc))

theorem isExponent_cons (c : Nat) (text : List Nat) :
    isExponent (c :: text) = ((c = 101 || c = 69) && (matchSign text).2 ≠ [] && (matchSign text).2.all isDigit) := by
  rcases matchSign_cases text with ⟨d, t, hd, rfl, hm⟩ | ⟨hd, hm⟩
  · rw [hm]
    rcases hd with rfl | rfl <;> rfl
  · rw [hm]
    unfold isExponent
    dsimp only
    split
    · exact absurd rfl (hd 43 rfl).1
    · exact absurd rfl (hd 45 rfl).2
    · rfl

theorem matchExponent_ok (text : List Nat) : (matchExponent text).1 ++ (matchExponent text).2 = text ∧ isExponent (matchExponent text).1 = true := by
  cases text with
  | nil => exact ⟨rfl, rfl⟩
  | cons c text =>
    unfold matchExponent
    dsimp only
    split
    · rename_i h
      have hd := digits_run (matchSign text).2
      have hsplit := List.takeWhile_append_dropWhile (p := isDigit) (l := (matchSign text).2)
      rw [isExponent_cons]
      rcases matchSign_cases text with ⟨s, t, hs, rfl, hm⟩ | ⟨hs, hm⟩
      · rw [hm] at h hd hsplit ⊢
        have hsign : matchSign ([s] ++ t.takeWhile isDigit) = ([s], t.takeWhile isDigit) := by
          rcases hs with rfl | rfl <;> rfl
        rw [hsign]
        simp only [Bool.and_eq_true, Bool.or_eq_true, decide_eq_true_eq]
        refine ⟨?_, ⟨h.1, h.2⟩, List.all_eq_true.mpr hd⟩
        show c :: s :: (t.takeWhile isDigit ++ t.dropWhile isDigit) = _
        rw [List.takeWhile_append_dropWhile]
      · rw [hm] at h hd hsplit ⊢
        rw [List.nil_append, matchSign_plain (digits_sign hd)]
        simp only [Bool.and_eq_true, Bool.or_eq_true, decide_eq_true_eq]
        exact ⟨congrArg (c :: ·) hsplit, ⟨h.1, h.2⟩, List.all_eq_true.mpr hd⟩
    · exact ⟨rfl, rfl⟩

theorem matchExponent_of (h : isExponent s = true) (hr : Ends rest) : matchExponent (s ++ rest) = (s, rest) := by
  cases s with
  | nil =>
    cases rest with
    | nil => rfl
    | cons c rest =>
      have hc := hr c rfl
      rw [List.nil_append, matchExponent]
      refine if_neg fun hd => ?_
      rcases hd.1 with rfl | rfl <;> cases hc
  | cons c text =>
    rw [isExponent_cons] at h
    simp only [Bool.and_eq_true, Bool.or_eq_true, decide_eq_true_eq] at h
    obtain ⟨⟨hc, hne⟩, hall⟩ := h
    have hsign : matchSign (text ++ rest) = ((matchSign text).1, (matchSign text).2 ++ rest) := by
      rcases matchSign_cases text with ⟨d, t, hd, rfl, hm⟩ | ⟨hd, hm⟩
      · rw [hm]
        rcases hd with rfl | rfl <;> rfl
      · rw [hm] at hne ⊢
        refine matchSign_plain ?_
        cases text with
        | nil => exact absurd rfl hne
        | cons d text => exact hd
    obtain ⟨htake, hdrop⟩ := run_ends (List.all_eq_true.mp hall) (ends_digit hr)
    rw [List.cons_append, matchExponent, hsign]
    dsimp only
    rw [htake, hdrop, if_pos ⟨hc, hne⟩]
    have happend : (matchSign text).1 ++ (matchSign text).2 = text := by
      rcases matchSign_cases text with ⟨d, t, -, rfl, hm⟩ | ⟨-, hm⟩ <;> rw [hm] <;> rfl
    rw [happend]

theorem matchFraction_ok (text : List Nat) :
    (matchFraction text).1 ++ (matchFraction text).2 = text ∧
    isFraction ((matchFraction text).1 ++ (matchExponent (matchFraction text).2).1) = true := by
  cases text with
  | nil => exact ⟨rfl, rfl⟩
  | cons c text =>
    by_cases h : c = 46 ∧ text.takeWhile isDigit ≠ []
    · have hm : matchFraction (c :: text) = (c :: text.takeWhile isDigit, text.dropWhile isDigit) := if_pos h
      obtain ⟨rfl, hne⟩ := h
      have he := (matchExponent_ok (text.dropWhile isDigit)).2
      obtain ⟨htake, hdrop⟩ := @run_ends _ _ (matchExponent (text.dropWhile isDigit)).1 (digits_run text) fun c hc => by
        rcases exponent_head he c hc with rfl | rfl <;> rfl
      rw [hm]
      refine ⟨congrArg (46 :: ·) List.takeWhile_append_dropWhile, ?_⟩
      show ((text.takeWhile isDigit ++ _).takeWhile isDigit ≠ [] && isExponent ((text.takeWhile isDigit ++ _).dropWhile isDigit)) = true
      rw [htake, hdrop, he, Bool.and_true]
      exact decide_eq_true hne
    · have hm : matchFraction (c :: text) = ([], c :: text) := if_neg h
      have he := (matchExponent_ok (c :: text)).2
      rw [hm]
      refine ⟨rfl, ?_⟩
      rw [List.nil_append]
      unfold isFraction
      split
      · rename_i hs
        have := exponent_head he 46 (by rw [hs]; rfl)
        omega
      · exact he

theorem matchFraction_of (h : isFraction s = true) (hr : Ends rest) :
    (matchFraction (s ++ rest)).1 ++ (matchExponent (matchFraction (s ++ rest)).2).1 = s ∧ (matchExponent (matchFraction (s ++ rest)).2).2 = rest := by
  have hdot : (∀ c ∈ (s ++ rest).head?, c ≠ 46) → matchFraction (s ++ rest) = ([], s ++ rest) := by
    intro hd
    cases hs : s ++ rest with
    | nil => rfl
    | cons c t =>
      rw [hs] at hd
      exact if_neg fun hc => hd c rfl hc.1
  unfold isFraction at h
  split at h
  · rename_i s
    obtain ⟨hne, he⟩ := Bool.and_eq_true_iff.mp h
    have hne := of_decide_eq_true hne
    have hsplit : s ++ rest = s.takeWhile isDigit ++ (s.dropWhile isDigit ++ rest) := by
      rw [← List.append_assoc, List.takeWhile_append_dropWhile]
    obtain ⟨htake, hdrop⟩ := run_ends (s := s.dropWhile isDigit ++ rest) (digits_run s) (head_append (after_digits s) (ends_digit hr))
    rw [List.cons_append, matchFraction, hsplit, htake, hdrop, if_pos ⟨rfl, hne⟩]
    dsimp only
    rw [matchExponent_of he hr, List.cons_append, List.takeWhile_append_dropWhile]
    exact ⟨rfl, rfl⟩
  · rw [hdot, matchExponent_of h hr]
    · exact ⟨rfl, rfl⟩
    · refine head_append (fun c hc => ?_) fun c hc => ?_
      · have := exponent_head h c hc
        omega
      · rintro rfl
        cases hr 46 hc

theorem matchMinus_append (text : List Nat) : (matchMinus text).1 ++ (matchMinus text).2 = text := by
  unfold matchMinus
  split <;> rfl

theorem matchMinus_cases (text : List Nat) : (∃ t, text = 45 :: t ∧ matchMinus text = ([45], t)) ∨ (∀ c ∈ text.head?, c ≠ 45) ∧ matchMinus text = ([], text) := by
  unfold matchMinus
  split
  · exact .inl ⟨_, rfl, rfl⟩
  · rename_i h
    refine .inr ⟨fun c hc he => ?_, rfl⟩
    cases text with
    | nil => cases hc
    | cons d t =>
      cases hc
      exact h t (by rw [he])

def Whole (text : List Nat) : Prop :=
  text.takeWhile isDigit ≠ [] ∧ ((text.takeWhile isDigit).head? ≠ some 48 ∨ (text.takeWhile isDigit).length = 1) ∧ isFraction (text.dropWhile isDigit) = true

theorem isLiteral_iff (text : List Nat) : isLiteral text = true ↔ Whole (matchMinus text).2 := by
  have hwhole : isLiteral text = ((matchMinus text).2.takeWhile isDigit ≠ [] && (((matchMinus text).2.takeWhile isDigit).head? ≠ some 48 ||
      ((matchMinus text).2.takeWhile isDigit).length = 1) && isFraction ((matchMinus text).2.dropWhile isDigit)) := by
    rcases matchMinus_cases text with ⟨t, rfl, hm⟩ | ⟨hd, hm⟩
    · rw [hm]
      rfl
    · rw [hm]
      unfold isLiteral
      dsimp only
      split
      · exact absurd rfl (hd 45 rfl)
      · rfl
  rw [hwhole]
  simp only [Bool.and_eq_true, Bool.or_eq_true, decide_eq_true_eq, and_assoc]
  rfl

theorem matchInteger_ok {whole : List Nat} (h : matchInteger text = some (whole, rest)) (hs : isFraction s = true) :
    text = whole ++ rest ∧ Whole (whole ++ s) := by
  cases text with
  | nil => cases h
  | cons c text =>
    rw [matchInteger] at h
    split at h
    · rename_i hc
      cases h
      obtain ⟨htake, hdrop⟩ := run_ends (w := [48]) (by simp [isDigit]) (fraction_head hs)
      refine ⟨by rw [hc]; rfl, ?_, .inr ?_, ?_⟩
      · rw [htake]
        exact List.cons_ne_nil _ _
      · rw [htake]
        rfl
      · rw [hdrop]
        exact hs
    · rename_i hc
      split at h
      · rename_i hd
        cases h
        obtain ⟨htake, hdrop⟩ := run_ends (w := c :: text.takeWhile isDigit) (fun x hx => by
          rcases List.mem_cons.mp hx with rfl | hx
          · exact hd
          · exact digits_run text x hx) (fraction_head hs)
        refine ⟨(congrArg (c :: ·) List.takeWhile_append_dropWhile.symm), ?_, .inl ?_, ?_⟩
        · rw [htake]
          exact List.cons_ne_nil _ _
        · rw [htake]
          exact fun he => hc (Option.some.inj he)
        · rw [hdrop]
          exact hs
      · cases h

theorem matchInteger_of (h : Whole text) (hr : Ends rest) :
    matchInteger (text ++ rest) = some (text.takeWhile isDigit, text.dropWhile isDigit ++ rest) := by
  obtain ⟨hne, hzero, -⟩ := h
  cases text with
  | nil => exact absurd rfl hne
  | cons c text =>
    have hd : isDigit c = true := by
      by_contra hd
      exact hne (List.takeWhile_cons_of_neg hd)
    rw [List.takeWhile_cons_of_pos hd, List.dropWhile_cons_of_pos hd] at *
    rw [List.cons_append, matchInteger]
    by_cases hc : c = 48
    · have hnil : text.takeWhile isDigit = [] := by
        rcases hzero with hz | hz
        · exact absurd (congrArg some hc) hz
        · exact List.length_eq_zero_iff.mp (Nat.succ.inj hz)
      have hdrop : text.dropWhile isDigit = text := by
        have := List.takeWhile_append_dropWhile (p := isDigit) (l := text)
        rwa [hnil] at this
      rw [if_pos hc, hnil, hdrop, hc]
    · have hsplit : text ++ rest = text.takeWhile isDigit ++ (text.dropWhile isDigit ++ rest) := by
        rw [← List.append_assoc, List.takeWhile_append_dropWhile]
      obtain ⟨htake, hdrop⟩ := run_ends (s := text.dropWhile isDigit ++ rest) (digits_run text) (head_append (after_digits text) (ends_digit hr))
      rw [if_neg hc, if_pos hd, hsplit, htake, hdrop]

theorem matchNumber_ok (h : matchNumber text = some (token, rest)) : text = token ++ rest ∧ isLiteral token = true := by
  obtain ⟨⟨whole, r⟩, hw, he⟩ := Option.map_eq_some_iff.mp h
  obtain ⟨rfl, rfl⟩ := Prod.mk.inj he
  obtain ⟨hfraction, hliteral⟩ := matchFraction_ok r
  obtain ⟨htext, hwhole⟩ := matchInteger_ok hw hliteral
  have hexponent := (matchExponent_ok (matchFraction r).2).1
  constructor
  · rw [List.append_assoc, List.append_assoc, List.append_assoc, hexponent, hfraction, ← htext, matchMinus_append]
  · rw [isLiteral_iff]
    rcases matchMinus_cases text with ⟨t, rfl, hm⟩ | ⟨hd, hm⟩
    · rw [hm]
      exact hwhole
    · rw [hm, List.nil_append]
      have htext : text = whole ++ r := by rwa [hm] at htext
      rcases matchMinus_cases (whole ++ ((matchFraction r).1 ++ (matchExponent (matchFraction r).2).1)) with ⟨t, ht, -⟩ | ⟨-, hm'⟩
      · exfalso
        cases whole with
        | nil =>
          have hlt := hwhole.1
          rw [ht] at hlt
          exact hlt rfl
        | cons c w => exact hd 45 (by rw [htext, (List.cons.inj ht).1]; rfl) rfl
      · rw [hm']
        exact hwhole

theorem matchNumber_of (h : isLiteral s = true) (hr : Ends rest) : matchNumber (s ++ rest) = some (s, rest) := by
  have hwhole := (isLiteral_iff s).mp h
  have hminus : matchMinus (s ++ rest) = ((matchMinus s).1, (matchMinus s).2 ++ rest) := by
    rcases matchMinus_cases s with ⟨t, rfl, hm⟩ | ⟨hd, hm⟩
    · rfl
    · rw [hm] at hwhole ⊢
      cases s with
      | nil => exact absurd rfl hwhole.1
      | cons c s =>
        rcases matchMinus_cases (c :: s ++ rest) with ⟨t, ht, -⟩ | ⟨-, hm'⟩
        · exact absurd (List.cons.inj ht).1 (hd c rfl)
        · exact hm'
  obtain ⟨hfraction, hrest⟩ := matchFraction_of hwhole.2.2 hr
  unfold matchNumber
  rw [hminus]
  dsimp only
  rw [matchInteger_of hwhole hr, Option.map_some, hrest, hfraction, List.takeWhile_append_dropWhile, matchMinus_append]

/-! ## Strings -/

theorem scanString_end (r : List Nat) : scanString (34 :: r) = some ([], r) := by
  cases r with
  | nil => exact if_pos rfl
  | cons d r =>
    rw [scanString, if_neg (by decide), if_pos rfl]

theorem scanString_plain (h₁ : c ≠ 34) (h₂ : c ≠ 92) (h₃ : ¬ c < 32) (r : List Nat) :
    scanString (c :: r) = (scanString r).map fun (body, rest) => (c :: body, rest) := by
  cases r with
  | nil => exact if_neg h₁
  | cons d r => rw [scanString, if_neg h₂, if_neg h₁, if_neg h₃]

theorem scanString_escape (d : Nat) (r : List Nat) : scanString (92 :: d :: r) = (scanString r).map fun (body, rest) => (92 :: d :: body, rest) := by
  rw [scanString, if_pos rfl]

theorem scanString_ok : ∀ {text body rest : List Nat}, scanString text = some (body, rest) →
    text = body ++ 34 :: rest ∧ ∀ r, scanString (body ++ 34 :: r) = some (body, r)
  | [], _, _, h => by cases h
  | [c], _, _, h => by
    rw [scanString] at h
    split at h
    · rename_i hc
      cases h
      exact ⟨congrArg (· :: []) hc, scanString_end⟩
    · cases h
  | c :: d :: text, body, rest, h => by
    rw [scanString] at h
    split at h
    · rename_i hc
      obtain ⟨⟨b, x⟩, hb, he⟩ := Option.map_eq_some_iff.mp h
      obtain ⟨rfl, rfl⟩ := Prod.mk.inj he
      obtain ⟨rfl, hr⟩ := scanString_ok hb
      refine ⟨rfl, fun r => ?_⟩
      rw [hc, List.cons_append, List.cons_append, scanString_escape, hr]
      rfl
    · rename_i h92
      split at h
      · rename_i hc
        cases h
        exact ⟨congrArg (· :: _) hc, scanString_end⟩
      · rename_i h34
        obtain ⟨h32, h⟩ := passed h nofun
        obtain ⟨⟨b, x⟩, hb, he⟩ := Option.map_eq_some_iff.mp h
        obtain ⟨rfl, rfl⟩ := Prod.mk.inj he
        obtain ⟨htext, hr⟩ := scanString_ok hb
        refine ⟨congrArg (c :: ·) htext, fun r => ?_⟩
        rw [List.cons_append, scanString_plain h34 h92 h32, hr]
        rfl

theorem scanString_hex : ∀ {digits : List Nat} (_ : ∀ c ∈ digits, Json.hexValue c ≠ none) (r : List Nat),
    scanString (digits ++ r) = (scanString r).map fun (body, rest) => (digits ++ body, rest)
  | [], _, r => by
    rw [List.nil_append]
    cases scanString r <;> rfl
  | c :: digits, h, r => by
    have hc := h c List.mem_cons_self
    have hrange : ∀ n, n = 34 ∨ n = 92 ∨ n < 32 → Json.hexValue n = none := by
      intro n hn
      unfold Json.hexValue
      rw [if_neg (by omega), if_neg (by omega), if_neg (by omega)]
    rw [List.cons_append, scanString_plain (fun he => hc (hrange c (.inl he))) (fun he => hc (hrange c (.inr (.inl he))))
      (fun he => hc (hrange c (.inr (.inr he)))), scanString_hex (fun x hx => h x (List.mem_cons_of_mem _ hx)) r]
    cases scanString r <;> rfl

theorem chunk_scanned {chunk : List Nat} {u : Nat} (h : Json.Chunk chunk u) (r : List Nat) :
    scanString (chunk ++ r) = (scanString r).map fun (body, rest) => (chunk ++ body, rest) := by
  cases h with
  | plain h₁ h₂ h₃ => exact scanString_plain h₁ h₂ h₃ r
  | escape => exact scanString_escape _ r
  | unicode hd =>
    rw [List.cons_append, List.cons_append, scanString_escape, scanString_hex hd]
    cases scanString r <;> rfl

theorem spelled_scanned {body : List Nat} (h : Json.Spells body s) (rest : List Nat) : scanString (body ++ 34 :: rest) = some (body, rest) := by
  induction h with
  | nil => exact scanString_end rest
  | cons hc _ ih =>
    rw [List.append_assoc, chunk_scanned hc, ih]
    rfl

variable {word : String} {j : Json}

section
variable {N : Numerals}

theorem parse_quoted (body : List Nat) : Json.parse N (34 :: (body ++ [34])) =
    match Json.readString (body ++ [34]) with
    | none => none
    | some (s, rest) => if skipSpace rest = [] then some (.str s) else none := by
  unfold Json.parse
  rw [Json.readValue_cons rfl, if_pos rfl]
  cases Json.readString (body ++ [34]) <;> rfl

theorem str_iff : str N text = .ok (s, rest) ↔ Json.readString text = some (s, rest) := by
  unfold str
  constructor
  · intro h
    split at h
    · cases h
    · rename_i body r hscan
      rw [parse_quoted] at h
      cases hr : Json.readString (body ++ [34]) with
      | none =>
        rw [hr] at h
        cases h
      | some p =>
        obtain ⟨s', x⟩ := p
        rw [hr] at h
        -- the scan stops at the quote where the spelling of the slice ends
        obtain ⟨spelling, hs, htext⟩ := Json.readString_iff.mp hr
        obtain ⟨rfl, hbody⟩ := scanString_ok hscan
        have hbody := hbody []
        rw [htext, spelled_scanned hs] at hbody
        obtain ⟨rfl, rfl⟩ := Prod.mk.inj (Option.some.inj hbody)
        dsimp only at h
        have hnil : skipSpace [] = [] := rfl
        rw [if_pos hnil] at h
        cases h
        exact hs.reads _
  · intro h
    obtain ⟨body, hs, rfl⟩ := Json.readString_iff.mp h
    rw [spelled_scanned hs]
    dsimp only
    rw [parse_quoted, hs.reads []]
    rfl

theorem invalid_finishes {α : Type} : (.error invalid : Except Failure α) ≠ .error .unfinished := by
  unfold invalid
  exact nofun

theorem str_finishes (text : List Nat) : str N text ≠ .error .unfinished := by
  unfold str
  split
  · exact invalid_finishes
  · split <;> exact nofun

/-! ## Tokens -/

theorem parse_literal (h : isLiteral token = true) : Json.parse N token = some (.num (N.value token)) := by
  obtain ⟨c, t, rfl, hc⟩ := Json.literal_head h
  have hs : Json.isSpace c = false := by
    rcases hc with rfl | hc
    · rfl
    · exact Json.isDigit_space hc
  have hne : ∀ d, 58 ≤ d ∨ d = 34 → c ≠ d := by
    intro d hd
    rcases hc with rfl | hc
    · omega
    · have := Json.isDigit_range hc
      omega
  obtain ⟨htake, hdrop⟩ := run_ends (s := []) (Json.literal_chars h) nofun
  rw [List.append_nil] at htake hdrop
  unfold Json.parse
  rw [Json.readValue_cons hs, if_neg (hne 34 (.inr rfl)), if_neg (hne 91 (.inl (by decide))), if_neg (hne 123 (.inl (by decide))),
    if_neg (hne 110 (.inl (by decide))), if_neg (hne 116 (.inl (by decide))), if_neg (hne 102 (.inl (by decide)))]
  unfold Json.readNumber
  rw [htake, hdrop]
  dsimp only
  rw [if_pos h]
  exact if_pos rfl

/-- The words of the expression, and what `JSON.parse` makes of them. -/
inductive Word : String → Json → Prop
  | null : Word "null" .null
  | yes : Word "true" (.bool true)
  | no : Word "false" (.bool false)

theorem Word.parses (h : Word word j) : Json.parse N (codes word) = some j := by
  cases h with
  | null => exact Json.parse_stringify (j := .null) trivial
  | yes => exact Json.parse_stringify (j := .bool true) trivial
  | no => exact Json.parse_stringify (j := .bool false) trivial

theorem Word.matches (h : Word word j) (rest : List Nat) : matchToken (codes word ++ rest) = some (codes word, rest) := by
  cases h <;> rfl

theorem Word.readScalar (h : Word word j) (rest : List Nat) : Json.readScalar N (codes word ++ rest) = some (j, rest) := by
  cases h <;> rfl

theorem matchToken_ok (h : matchToken text = some (token, rest)) :
    text = token ++ rest ∧ (isLiteral token = true ∨ ∃ word j, Word word j ∧ token = codes word) := by
  unfold matchToken at h
  split at h
  · rename_i m hm
    cases h
    obtain ⟨htext, hl⟩ := matchNumber_ok hm
    exact ⟨htext, .inl hl⟩
  · obtain ⟨word, hw, hm⟩ := List.exists_of_findSome?_eq_some h
    split at hm
    · rename_i hp
      obtain ⟨r, rfl⟩ := hp
      obtain ⟨rfl, rfl⟩ := Prod.mk.inj (Option.some.inj hm)
      rw [List.drop_left]
      refine ⟨rfl, .inr ?_⟩
      simp only [List.mem_cons, List.not_mem_nil, or_false] at hw
      rcases hw with rfl | rfl | rfl
      · exact ⟨_, _, .yes, rfl⟩
      · exact ⟨_, _, .no, rfl⟩
      · exact ⟨_, _, .null, rfl⟩
    · cases hm

theorem literal_scalar (h : isLiteral token = true) (hr : Ends rest) :
    Json.readScalar N (token ++ rest) = some (.num (N.value token), rest) := by
  obtain ⟨c, t, rfl, hc⟩ := Json.literal_head h
  have hne : ∀ d, 58 ≤ d ∨ d = 34 → c ≠ d := by
    intro d hd
    rcases hc with rfl | hc
    · omega
    · have := Json.isDigit_range hc
      omega
  obtain ⟨htake, hdrop⟩ := run_ends (Json.literal_chars h) hr
  rw [List.cons_append, Json.readScalar, if_neg (hne 34 (.inr rfl)), if_neg (hne 110 (.inl (by decide))), if_neg (hne 116 (.inl (by decide))),
    if_neg (hne 102 (.inl (by decide)))]
  unfold Json.readNumber
  rw [← List.cons_append, htake, hdrop]
  exact if_pos h

variable {v : Json}

theorem scalar_sound (h : scalar N text = .ok (v, rest)) (hr : Ends rest) : Json.readScalar N text = some (v, rest) := by
  cases text with
  | nil => cases h
  | cons c text =>
    rw [scalar] at h
    by_cases hc : c = 34
    · rw [if_pos hc] at h
      obtain ⟨⟨s, r⟩, hs, he⟩ := map_eq_ok.mp h
      cases he
      rw [Json.readScalar, if_pos hc, str_iff.mp hs]
      rfl
    · rw [if_neg hc] at h
      cases hm : matchToken (c :: text) with
      | none =>
        rw [hm] at h
        cases h
      | some m =>
        obtain ⟨token, r⟩ := m
        rw [hm] at h
        dsimp only at h
        obtain ⟨htext, hl | ⟨word, j, hw, rfl⟩⟩ := matchToken_ok hm
        · rw [parse_literal hl] at h
          cases h
          rw [htext]
          exact literal_scalar hl hr
        · rw [hw.parses] at h
          cases h
          rw [htext]
          exact hw.readScalar _

theorem readScalar_cases (h : Json.readScalar N text = some (j, rest)) :
    (∃ t s, text = 34 :: t ∧ Json.readString t = some (s, rest) ∧ j = .str s) ∨ (∃ word, Word word j ∧ text = codes word ++ rest) ∨
    ∃ token, isLiteral token = true ∧ Ends rest ∧ text = token ++ rest ∧ j = .num (N.value token) := by
  cases text with
  | nil => cases h
  | cons c text =>
    rw [Json.readScalar] at h
    split at h
    · rename_i hc
      obtain ⟨⟨s, r⟩, hs, he⟩ := Option.map_eq_some_iff.mp h
      cases he
      exact .inl ⟨text, s, by rw [hc], hs, rfl⟩
    · right
      split at h
      · obtain ⟨rfl, ht⟩ := Json.readWord_ok h
        exact .inl ⟨_, .null, ht⟩
      · split at h
        · obtain ⟨rfl, ht⟩ := Json.readWord_ok h
          exact .inl ⟨_, .yes, ht⟩
        · split at h
          · obtain ⟨rfl, ht⟩ := Json.readWord_ok h
            exact .inl ⟨_, .no, ht⟩
          · right
            unfold Json.readNumber at h
            dsimp only at h
            split at h
            · rename_i hl
              cases h
              refine ⟨_, hl, fun d hd => ?_, List.takeWhile_append_dropWhile.symm, rfl⟩
              have := List.head?_dropWhile_not literalChar (c :: text)
              rw [Option.mem_def] at hd
              rw [hd] at this
              simpa using this
            · cases h

theorem scalar_complete (h : Json.readScalar N text = some (j, rest)) : scalar N text = .ok (j, rest) := by
  have token : ∀ {token : List Nat}, (∃ c t, token = c :: t ∧ c ≠ 34) → matchToken (token ++ rest) = some (token, rest) →
      Json.parse N token = some j → scalar N (token ++ rest) = .ok (j, rest) := by
    rintro _ ⟨c, t, rfl, hc⟩ hm hp
    rw [List.cons_append] at hm ⊢
    rw [scalar, if_neg hc, hm]
    dsimp only
    rw [hp]
  rcases readScalar_cases h with ⟨t, s, rfl, hs, rfl⟩ | ⟨word, hw, rfl⟩ | ⟨number, hl, hr, rfl, rfl⟩
  · rw [scalar, if_pos rfl, str_iff.mpr hs]
    rfl
  · refine token ?_ (hw.matches rest) hw.parses
    cases hw <;> exact ⟨_, _, rfl, by decide⟩
  · refine token ?_ ?_ (parse_literal hl)
    · obtain ⟨c, t, rfl, hc⟩ := Json.literal_head hl
      refine ⟨c, t, rfl, ?_⟩
      rintro rfl
      rcases hc with hc | hc <;> cases hc
    · unfold matchToken
      rw [matchNumber_of hl hr]

theorem scalar_finishes (text : List Nat) : scalar N text ≠ .error .unfinished ∧ ∀ v rest, scalar N text = .ok (v, rest) → rest.length < text.length := by
  cases text with
  | nil => exact ⟨invalid_finishes, nofun⟩
  | cons c text =>
    rw [scalar]
    split
    · constructor
      · cases hs : str N text with
        | error e =>
          have := str_finishes (N := N) text
          rw [hs] at this
          exact fun h => this (by cases h; rfl)
        | ok p => exact fun h => by cases h
      · intro v rest h
        obtain ⟨⟨s, r⟩, hs, he⟩ := map_eq_ok.mp h
        cases he
        exact Nat.lt_succ_of_lt (Json.readString_shorter (str_iff.mp hs))
    · split
      · exact ⟨invalid_finishes, nofun⟩
      · rename_i token r hm
        split
        · refine ⟨nofun, fun v rest h => ?_⟩
          cases h
          obtain ⟨htext, htoken⟩ := matchToken_ok hm
          have hpos : 0 < token.length := by
            rcases htoken with hl | ⟨word, j, hw, rfl⟩
            · obtain ⟨_, _, rfl, -⟩ := Json.literal_head hl
              exact Nat.succ_pos _
            · cases hw <;> decide
          rw [htext, List.length_append]
          omega
        · exact ⟨nofun, nofun⟩

/-! ## Values -/

theorem expect_ok : expect c text = .ok rest ↔ skipSpace text = c :: rest := by
  unfold expect
  constructor
  · intro h
    split at h
    · cases h
    · rename_i d r hs
      split at h
      · rename_i hd
        cases h
        rw [hs, hd]
      · cases h
  · intro h
    rw [h]
    exact if_pos rfl

theorem expect_finishes (c : Nat) (text : List Nat) : expect c text ≠ .error .unfinished := by
  unfold expect
  split
  · exact invalid_finishes
  · split
    · exact fun h => by cases h
    · exact invalid_finishes

theorem ends_of_skip (h : Ends (skipSpace text)) : Ends text := by
  cases text with
  | nil => exact Json.ends_nil
  | cons c text =>
    by_cases hs : Json.isSpace c = true
    · refine Json.ends_cons ?_
      unfold Json.isSpace at hs
      simp only [Bool.or_eq_true, decide_eq_true_eq] at hs
      rcases hs with ((rfl | rfl) | rfl) | rfl <;> decide
    · rwa [Json.skipSpace_cons (Bool.eq_false_iff.mpr hs)] at h

theorem ends_before (hs : skipSpace text = c :: rest) (hc : literalChar c = false) : Ends text :=
  ends_of_skip (by rw [hs]; exact Json.ends_cons hc)

theorem readKey_iff {k : List Nat} : Json.readKey text = some (k, rest) ↔
    ∃ t u, expect 34 text = .ok t ∧ str N t = .ok (k, u) ∧ expect 58 u = .ok rest := by
  unfold Json.readKey
  constructor
  · intro h
    split at h
    · cases h
    · rename_i c t hs
      split at h
      · rename_i hc
        subst hc
        split at h
        · cases h
        · rename_i k' u hr
          split at h
          · cases h
          · rename_i d x hx
            split at h
            · rename_i hd
              subst hd
              cases h
              exact ⟨t, u, expect_ok.mpr hs, str_iff.mpr hr, expect_ok.mpr hx⟩
            · cases h
      · cases h
  · rintro ⟨t, u, ht, hk, hu⟩
    rw [expect_ok.mp ht]
    dsimp only
    rw [if_pos rfl, str_iff.mp hk]
    dsimp only
    rw [expect_ok.mp hu]
    exact if_pos rfl

theorem value_sound : ∀ fuel : Nat,
    (∀ {d text v rest}, value N fuel d text = .ok (v, rest) → Ends rest →
      Json.readTree N fuel text = some (v, rest) ∧ v.WellFormed ∧ d + v.nesting ≤ 32) ∧
    (∀ {d arr text v rest}, items N fuel d arr text = .ok (v, rest) →
      ∃ js, v = .arr (arr ++ js) ∧ Json.readTreeItems N fuel text = some (js, rest) ∧ Json.WellFormedItems js ∧ d + Json.nestingItems js ≤ 32) ∧
    ∀ {d seen obj text v rest}, members N fuel d seen obj text = .ok (v, rest) →
      ∃ ms, v = .obj (obj ++ ms) ∧ Json.readTreeMembers N fuel text = some (ms, rest) ∧ (ms.map Prod.fst).Nodup ∧
        (∀ k ∈ seen, k ∉ ms.map Prod.fst) ∧ Json.WellFormedMembers ms ∧ d + Json.nestingMembers ms ≤ 32
  | 0 => ⟨nofun, nofun, nofun⟩
  | fuel + 1 => by
    obtain ⟨hv, hi, hm⟩ := value_sound fuel
    refine ⟨fun {d text v rest} h hr => ?_, fun {d arr text v rest} h => ?_, fun {d seen obj text v rest} h => ?_⟩
    · rw [value] at h
      obtain ⟨hdepth, h⟩ := guard_ok h
      have hd : d + 0 ≤ 32 := Nat.le_of_not_lt hdepth
      rw [Json.readTree_succ]
      split at h
      · cases h
      · rename_i c t hs
        split at h
        · rename_i hc
          subst hc
          split at h
          · rename_i he
            cases h
            exact ⟨.emptyObj hs (Json.cons_of_head he), ⟨List.nodup_nil, trivial⟩, hd⟩
          · rename_i he
            obtain ⟨ms, rfl, hread, hn, -, hw, hd⟩ := hm h
            exact ⟨.obj hs he hread, ⟨hn, hw⟩, hd⟩
        · rename_i h123
          split at h
          · rename_i hc
            subst hc
            split at h
            · rename_i he
              cases h
              exact ⟨.emptyArr hs (Json.cons_of_head he), trivial, hd⟩
            · rename_i he
              obtain ⟨js, rfl, hread, hw, hd⟩ := hi h
              exact ⟨.arr hs he hread, hw, hd⟩
          · rename_i h91
            have hread := scalar_sound h hr
            have hscalar := Json.readScalar_isScalar hread
            exact ⟨.scalar hs h91 h123 hread, hscalar.wellFormed, by rw [hscalar.flat]; exact hd⟩
    · rw [items] at h
      obtain ⟨⟨j, t⟩, hj, h⟩ := bind_eq_ok.mp h
      dsimp only at h
      split at h
      · cases h
      · rename_i c u hs
        split at h
        · rename_i hc
          subst hc
          obtain ⟨hread, hw, hd⟩ := hv hj (ends_before hs rfl)
          obtain ⟨js, rfl, hrest, hws, hds⟩ := hi h
          exact ⟨j :: js, by rw [List.append_assoc]; rfl, Json.readTreeItems_succ.mpr ⟨j, t, js, hread, .more hs hrest, rfl⟩, ⟨hw, hws⟩,
            by rw [Json.nestingItems]; omega⟩
        · split at h
          · rename_i hc
            subst hc
            cases h
            obtain ⟨hread, hw, hd⟩ := hv hj (ends_before hs rfl)
            exact ⟨[j], rfl, Json.readTreeItems_succ.mpr ⟨j, t, [], hread, .last hs, rfl⟩, ⟨hw, trivial⟩,
              by rw [Json.nestingItems, Json.nestingItems]; omega⟩
          · cases h
    · rw [members] at h
      obtain ⟨t, ht, h⟩ := bind_eq_ok.mp h
      obtain ⟨⟨k, u⟩, hk, h⟩ := bind_eq_ok.mp h
      dsimp only at h
      obtain ⟨hfresh, h⟩ := guard_ok h
      obtain ⟨x, hx, h⟩ := bind_eq_ok.mp h
      obtain ⟨⟨j, y⟩, hj, h⟩ := bind_eq_ok.mp h
      have hkey := readKey_iff.mpr ⟨t, u, ht, hk, hx⟩
      dsimp only at h
      split at h
      · cases h
      · rename_i c z hs
        split at h
        · rename_i hc
          subst hc
          obtain ⟨hread, hw, hd⟩ := hv hj (ends_before hs rfl)
          obtain ⟨ms, rfl, hrest, hn, hseen, hws, hds⟩ := hm h
          refine ⟨(k, j) :: ms, by rw [List.append_assoc]; rfl, Json.readTreeMembers_succ.mpr ⟨k, x, j, y, ms, hkey, hread, .more hs hrest, rfl⟩,
            List.nodup_cons.mpr ⟨hseen k List.mem_cons_self, hn⟩, fun k' hk' hmem => ?_, ⟨hw, hws⟩, by rw [Json.nestingMembers]; omega⟩
          rcases List.mem_cons.mp hmem with rfl | hmem
          · exact hfresh hk'
          · exact hseen k' (List.mem_cons_of_mem _ hk') hmem
        · split at h
          · rename_i hc
            subst hc
            cases h
            obtain ⟨hread, hw, hd⟩ := hv hj (ends_before hs rfl)
            refine ⟨[(k, j)], rfl, Json.readTreeMembers_succ.mpr ⟨k, x, j, y, [], hkey, hread, .last hs, rfl⟩, List.nodup_singleton k,
              fun k' hk' hmem => ?_, ⟨hw, trivial⟩, by rw [Json.nestingMembers, Json.nestingMembers]; omega⟩
            rw [List.mem_singleton.mp hmem] at hk'
            exact hfresh hk'
          · cases h

theorem value_complete : ∀ fuel : Nat,
    (∀ {d text j rest}, Json.readTree N fuel text = some (j, rest) → j.WellFormed → d + j.nesting ≤ 32 → value N fuel d text = .ok (j, rest)) ∧
    (∀ {d arr text js rest}, Json.readTreeItems N fuel text = some (js, rest) → Json.WellFormedItems js → d + Json.nestingItems js ≤ 32 →
      items N fuel d arr text = .ok (.arr (arr ++ js), rest)) ∧
    ∀ {d seen obj text ms rest}, Json.readTreeMembers N fuel text = some (ms, rest) → (ms.map Prod.fst).Nodup → (∀ k ∈ seen, k ∉ ms.map Prod.fst) →
      Json.WellFormedMembers ms → d + Json.nestingMembers ms ≤ 32 → members N fuel d seen obj text = .ok (.obj (obj ++ ms), rest)
  | 0 => ⟨nofun, nofun, nofun⟩
  | fuel + 1 => by
    obtain ⟨hv, hi, hm⟩ := value_complete fuel
    refine ⟨fun {d text j rest} h hw hd => ?_, fun {d arr text js rest} h hw hd => ?_, fun {d seen obj text ms rest} h hn hseen hw hd => ?_⟩
    · have hdepth : ¬ 32 < d := by omega
      rw [value, if_neg hdepth]
      cases Json.readTree_succ.mp h with
      | emptyArr hs he =>
        obtain ⟨hhead, htail⟩ := Json.head_of_cons he
        simp only [hs, Nat.reduceEqDiff, if_false, if_true, hhead, htail]
      | arr hs he h => simp only [hs, Nat.reduceEqDiff, if_false, if_true, if_neg he, hi h hw hd, List.nil_append]
      | emptyObj hs he =>
        obtain ⟨hhead, htail⟩ := Json.head_of_cons he
        simp only [hs, if_true, hhead, htail]
      | obj hs he h =>
        have hread := @hm d [] [] _ _ _ h hw.1 nofun hw.2 hd
        simp only [hs, if_true, if_neg he, hread, List.nil_append]
      | scalar hs h₁ h₂ h => simp only [hs, if_neg h₁, if_neg h₂, scalar_complete h]
    · obtain ⟨j, t, js', hj, hf, rfl⟩ := Json.readTreeItems_succ.mp h
      rw [Json.nestingItems] at hd
      rw [items]
      refine bind_eq_ok.mpr ⟨_, hv hj hw.1 (by omega), ?_⟩
      cases hf with
      | last hs => simp only [hs, Nat.reduceEqDiff, if_false, if_true]
      | more hs hr =>
        have hrest := @hi d (arr ++ [j]) _ _ _ hr hw.2 (by omega)
        simp only [hs, if_true, hrest, List.append_assoc, List.singleton_append]
    · obtain ⟨k, x, j, y, ms', hk, hj, hf, rfl⟩ := Json.readTreeMembers_succ.mp h
      obtain ⟨t, u, ht, hstr, hu⟩ := readKey_iff.mp hk
      obtain ⟨hknew, hn⟩ := List.nodup_cons.mp hn
      rw [Json.nestingMembers] at hd
      rw [members]
      refine bind_eq_ok.mpr ⟨_, ht, bind_eq_ok.mpr ⟨_, hstr, ?_⟩⟩
      dsimp only
      rw [if_neg fun hmem => hseen k hmem List.mem_cons_self]
      refine bind_eq_ok.mpr ⟨_, hu, bind_eq_ok.mpr ⟨_, hv hj hw.1 (by omega), ?_⟩⟩
      cases hf with
      | last hs => simp only [hs, Nat.reduceEqDiff, if_false, if_true]
      | more hs hr =>
        have hseen' : ∀ k' ∈ k :: seen, k' ∉ ms'.map Prod.fst := by
          intro k' hk'
          rcases List.mem_cons.mp hk' with rfl | hk'
          · exact hknew
          · exact fun hmem => hseen k' hk' (List.mem_cons_of_mem _ hmem)
        have hrest := @hm d (k :: seen) (obj ++ [(k, j)]) _ _ _ hr hn hseen' hw.2 (by omega)
        simp only [hs, if_true, hrest, List.append_assoc, List.singleton_append]

/-! ## Termination -/

/-- A call comes to its end, and takes a character at least of the `n` there are. -/
def Finishes (n : Nat) (x : Except Failure (Json × List Nat)) : Prop :=
  x ≠ .error .unfinished ∧ ∀ v rest, x = .ok (v, rest) → rest.length < n

theorem Finishes.invalid (n : Nat) : Finishes n (.error invalid) := ⟨invalid_finishes, nofun⟩

theorem Finishes.rule (n : Nat) (message : String) : Finishes n (.error (.rule message)) := ⟨nofun, nofun⟩

theorem Finishes.ok {n : Nat} (h : rest.length < n) : Finishes n (.ok (v, rest)) := by
  refine ⟨nofun, fun v' rest' h' => ?_⟩
  cases h'
  exact h

theorem Finishes.mono {m n : Nat} {x : Except Failure (Json × List Nat)} (h : Finishes m x) (hmn : m ≤ n) : Finishes n x :=
  ⟨h.1, fun v rest hx => Nat.lt_of_lt_of_le (h.2 v rest hx) hmn⟩

theorem Finishes.bind {n : Nat} {α : Type} {x : Except Failure α} {f : α → Except Failure (Json × List Nat)} (hx : x ≠ .error .unfinished)
    (hf : ∀ a, x = .ok a → Finishes n (f a)) : Finishes n (x >>= f) := by
  cases x with
  | error e => exact ⟨fun h => hx (by cases h; rfl), nofun⟩
  | ok a => exact hf a rfl

theorem value_finishes : ∀ fuel : Nat,
    (∀ d text, 2 * text.length < fuel → Finishes text.length (value N fuel d text)) ∧
    (∀ d arr text, 2 * text.length + 1 < fuel → Finishes text.length (items N fuel d arr text)) ∧
    ∀ d seen obj text, 2 * text.length + 1 < fuel → Finishes text.length (members N fuel d seen obj text)
  | 0 => ⟨fun _ _ h => absurd h (Nat.not_lt_zero _), fun _ _ _ h => absurd h (Nat.not_lt_zero _), fun _ _ _ _ h => absurd h (Nat.not_lt_zero _)⟩
  | fuel + 1 => by
    obtain ⟨hv, hi, hm⟩ := value_finishes fuel
    refine ⟨fun d text hf => ?_, fun d arr text hf => ?_, fun d seen obj text hf => ?_⟩
    · rw [value]
      split
      · exact .rule _ _
      · split
        · exact .invalid _
        · rename_i c t hs
          have hlt := skipSpace_shorter hs
          have hle := Json.skipSpace_length t
          have htail : (skipSpace t).tail.length < text.length := by
            rw [List.length_tail]
            omega
          split
          · split
            · exact .ok htail
            · exact (hm d [] [] t (by omega)).mono (by omega)
          · split
            · split
              · exact .ok htail
              · exact (hi d [] t (by omega)).mono (by omega)
            · have hle' := Json.skipSpace_length text
              rw [hs] at hle'
              exact Finishes.mono (scalar_finishes _) hle'
    · rw [items]
      have hj := hv (d + 1) text (by omega)
      refine .bind hj.1 fun ⟨j, t⟩ ht => ?_
      have hlt := hj.2 j t ht
      dsimp only
      split
      · exact .invalid _
      · rename_i c u hs
        have hlt' := skipSpace_shorter hs
        split
        · exact (hi d _ u (by omega)).mono (by omega)
        · split
          · exact .ok (by omega)
          · exact .invalid _
    · rw [members]
      refine .bind (expect_finishes _ _) fun t ht => .bind (str_finishes t) fun ⟨k, u⟩ hk => ?_
      have hlt := skipSpace_shorter (expect_ok.mp ht)
      have hlt' := Json.readString_shorter (str_iff.mp hk)
      dsimp only
      split
      · exact .rule _ _
      · refine .bind (expect_finishes _ _) fun x hx => ?_
        have hltx := skipSpace_shorter (expect_ok.mp hx)
        have hj := hv (d + 1) x (by omega)
        refine .bind hj.1 fun ⟨j, y⟩ hy => ?_
        have hlty := hj.2 j y hy
        dsimp only
        split
        · exact .invalid _
        · rename_i c z hs
          have hltz := skipSpace_shorter hs
          split
          · exact (hm d _ _ z (by omega)).mono (by omega)
          · split
            · exact .ok (by omega)
            · exact .invalid _

theorem parseWithin_finishes {fuel : Nat} (h : 2 * text.length < fuel) : parseWithin N fuel text ≠ .error .unfinished := by
  have hv := ((value_finishes (N := N) fuel).1 0 text h).1
  intro hp
  unfold parseWithin at hp
  cases hx : value N fuel 0 text with
  | error e =>
    rw [hx] at hp hv
    have hp : (.error e : Except Failure Json) = .error .unfinished := hp
    exact hv (by cases hp; rfl)
  | ok p =>
    rw [hx] at hp
    change (if skipSpace p.2 = [] then _ else _) = _ at hp
    split at hp
    · cases hp
    · exact invalid_finishes hp

theorem parseJsonStrict_document :
    parseJsonStrict N text = .ok v ↔ Json.document N text = some v ∧ v.nesting ≤ 32 ∧ v.WellFormed := by
  unfold parseJsonStrict parseWithin Json.document
  constructor
  · intro h
    obtain ⟨⟨j, rest⟩, hj, h⟩ := bind_eq_ok.mp h
    dsimp only at h
    split at h
    · rename_i hr
      cases h
      obtain ⟨hread, hw, hd⟩ := (value_sound _).1 hj (ends_of_skip (by rw [hr]; exact Json.ends_nil))
      rw [((Json.readTree_fuel _).1 _ _ _ hread).2 (text.length + 1) (by omega)]
      exact ⟨if_pos hr, by omega, hw⟩
    · cases h
  · rintro ⟨h, hd, hw⟩
    split at h
    · cases h
    · rename_i j rest hread
      split at h
      · rename_i hr
        cases h
        have hread := ((Json.readTree_fuel _).1 _ _ _ hread).2 (2 * text.length + 1) (by omega)
        exact bind_eq_ok.mpr ⟨_, (value_complete _).1 hread hw (by omega), if_pos hr⟩
      · cases h

/-- **The strict reader accepts exactly JSON that repeats no key.** A document is accepted when its values lie in at most 32 containers and no
object has a key twice, as `JSON.parse` reads it, and every text is read to an end. -/
theorem parseJsonStrict_exact (N : Numerals) (text : List Nat) :
    (∀ fuel, 2 * text.length < fuel → parseWithin N fuel text ≠ .error .unfinished) ∧
    Json.parse N text = (Json.document N text).map Json.merged ∧
    ((∃ v, parseJsonStrict N text = .ok v) ↔ ∃ d, Json.document N text = some d ∧ d.nesting ≤ 32 ∧ d.WellFormed) ∧
    ∀ v, parseJsonStrict N text = .ok v → Json.parse N text = some v := by
  refine ⟨fun fuel => parseWithin_finishes, Json.parse_document text, ?_, fun v hv => ?_⟩
  · constructor
    · rintro ⟨v, hv⟩
      exact ⟨v, parseJsonStrict_document.mp hv⟩
    · rintro ⟨d, hd⟩
      exact ⟨d, parseJsonStrict_document.mpr hd⟩
  · obtain ⟨hd, -, hw⟩ := parseJsonStrict_document.mp hv
    rw [Json.parse_document, hd, Option.map_some, Json.merged_self v hw]

end

end NawaraCore.CallerPolicy
