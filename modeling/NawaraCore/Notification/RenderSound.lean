import Mathlib.Data.Nat.Digits.Defs
import NawaraCore.Notification.Render
import NawaraCore.Notification.VariablesSound

/-!
# What the publish check bounds

Accepted values render in an accepted version, within the size that the publish check
measured, except for a URL that is spelled without `https://` or leaves the GSM alphabet.
-/

namespace NawaraCore.Templates

open Notification (DeliveryChannel VariableType VariableSpec)

def Token.source : Token → Text
  | .lit c => [c]
  | .slot name => 123 :: 123 :: name ++ [125, 125]

theorem readSlot_some {text name after : Text} (h : readSlot text = some (name, after)) : text = (Token.slot name).source ++ after := by
  unfold readSlot at h
  split at h
  · rename_i rest
    split at h
    · rename_i hdrop
      cases h
      have hsplit := @List.takeWhile_append_dropWhile _ (fun c => !brace c) rest
      rw [hdrop] at hsplit
      conv_lhs => rw [← hsplit]
      simp only [Token.source, List.cons_append, List.append_assoc, List.nil_append]
    · cases h
  · cases h

theorem tokensFrom_source (fuel : Nat) (text : Text) (h : text.length ≤ fuel) : (tokensFrom fuel text).flatMap Token.source = text := by
  induction fuel generalizing text with
  | zero =>
    rw [List.length_eq_zero_iff.mp (Nat.le_zero.mp h)]
    rfl
  | succ fuel ih =>
    cases text with
    | nil => rfl
    | cons c cs =>
      rw [List.length_cons] at h
      rw [tokensFrom]
      cases hread : readSlot (c :: cs) with
      | none =>
        rw [List.flatMap_cons, ih cs (by omega)]
        rfl
      | some p =>
        obtain ⟨name, after⟩ := p
        have hsource := readSlot_some hread
        have hlen := congrArg List.length hsource
        simp only [Token.source, List.length_append, List.length_cons] at hlen
        rw [List.flatMap_cons, ih after (by omega)]
        exact hsource.symm

theorem tokens_source (text : Text) : (tokens text).flatMap Token.source = text := tokensFrom_source _ _ (Nat.le_refl _)

variable {l : List Token}

section
variable {fill : Text → Except RenderError Text} {g : Text → Text} {text t : Text}

theorem mem_slots {name : Text} : name ∈ slots text ↔ Token.slot name ∈ tokens text := by
  unfold slots
  rw [List.mem_filterMap]
  constructor
  · rintro ⟨token, ht, he⟩
    cases token with
    | lit c => cases he
    | slot n =>
      cases he
      exact ht
  · exact fun h => ⟨_, h, rfl⟩

theorem fillTokens_ok (h : ∀ n, Token.slot n ∈ l → fill n = .ok (g n)) : fillTokens fill l = .ok (l.flatMap (Token.fill g)) := by
  induction l with
  | nil => rfl
  | cons token l ih =>
    have hrest := ih fun n hn => h n (List.mem_cons_of_mem _ hn)
    cases token with
    | lit c =>
      rw [fillTokens, hrest]
      rfl
    | slot n =>
      rw [fillTokens, hrest, h n List.mem_cons_self]
      rfl

theorem substituteM_ok (h : ∀ n ∈ slots text, fill n = .ok (g n)) : substituteM text fill = .ok (substitute text g) :=
  fillTokens_ok fun n hn => h n (mem_slots.mpr hn)

theorem fillTokens_filled (h : fillTokens fill l = .ok t) : ∀ n, Token.slot n ∈ l → ∃ s, fill n = .ok s := by
  induction l generalizing t with
  | nil => exact nofun
  | cons token l ih =>
    intro n hn
    cases token with
    | lit c =>
      rw [fillTokens] at h
      cases hrest : fillTokens fill l with
      | error e =>
        rw [hrest] at h
        cases h
      | ok u => exact ih hrest n ((List.mem_cons.mp hn).resolve_left nofun)
    | slot m =>
      rw [fillTokens] at h
      cases hfill : fill m with
      | error e =>
        rw [hfill] at h
        cases h
      | ok s =>
        rw [hfill] at h
        cases hrest : fillTokens fill l with
        | error e =>
          rw [hrest] at h
          cases h
        | ok u =>
          rcases List.mem_cons.mp hn with he | hn
          · cases he
            exact ⟨s, hfill⟩
          · exact ih hrest n hn

theorem substituteM_filled (h : substituteM text fill = .ok t) : ∀ n ∈ slots text, ∃ s, fill n = .ok s := fun n hn =>
  fillTokens_filled h n (mem_slots.mp hn)

end

/-! ## Accepted versions -/

variable {s : Text}

section
variable {htmlForbidden : Text → List String} {protocol : Text → Option Text} {intl : DateTimeFormat} {v : TemplateVersion} {values : Members} {name : Text} {spec : VariableSpec} {c : Nat}

structure Published (v : TemplateVersion) : Prop where
  declared : ∀ part ∈ parts v, ∀ n ∈ slots part, n ∈ names v.variableSchema.schema
  used : ∀ n ∈ names v.variableSchema.schema, ∃ part ∈ parts v, n ∈ slots part
  oneLine : ∀ s, v.subject = some s → ∀ c ∈ s, lineBreak c = false
  size : v.channel = .sms → ∃ n, v.smsMaxSegments = some n ∧ 1 ≤ n ∧ (smsSize (worstText v)).segments ≤ n

theorem checkNames_nil (h : checkNames v = []) : (∀ part ∈ parts v, ∀ n ∈ slots part, n ∈ names v.variableSchema.schema) ∧
    ∀ n ∈ names v.variableSchema.schema, ∃ part ∈ parts v, n ∈ slots part := by
  unfold checkNames at h
  dsimp only at h
  obtain ⟨h, hunused⟩ := List.append_eq_nil_iff.mp h
  obtain ⟨hparts, hundeclared⟩ := List.append_eq_nil_iff.mp h
  rw [List.flatMap_eq_nil_iff] at hparts
  rw [List.map_eq_nil_iff, List.filter_eq_nil_iff] at hundeclared hunused
  constructor
  · intro part hpart n hn
    have hp := List.append_eq_nil_iff.mp (hparts (parsePlaceholders part) (List.mem_map_of_mem hpart))
    have hvalid : variableName n = true := by
      have hno := List.filter_eq_nil_iff.mp (List.map_eq_nil_iff.mp hp.1) n hn
      simpa using hno
    have hused := hundeclared n (List.mem_flatMap.mpr ⟨_, List.mem_map_of_mem hpart, List.mem_filter.mpr ⟨hn, hvalid⟩⟩)
    simpa [names] using hused
  · intro n hn
    have hno := hunused n hn
    obtain ⟨e, he, rfl⟩ := List.mem_map.mp hn
    have hvalid := (v.variableSchema.spec_ok he).1
    have hused : e.1 ∈ ((parts v).map parsePlaceholders).flatMap ParsedTemplateText.names := by
      by_contra hnot
      exact hno (decide_eq_true ⟨hnot, hvalid⟩)
    obtain ⟨p, hp, hpn⟩ := List.mem_flatMap.mp hused
    obtain ⟨part, hpart, rfl⟩ := List.mem_map.mp hp
    exact ⟨part, hpart, (List.mem_filter.mp hpn).1⟩

theorem checkContent_nil (h : checkContent htmlForbidden v = []) : Published v := by
  unfold checkContent at h
  dsimp only at h
  obtain ⟨herrors, hworst⟩ := List.append_eq_nil_iff.mp h
  rw [herrors] at hworst
  obtain ⟨hbody, hnames⟩ := List.append_eq_nil_iff.mp herrors
  obtain ⟨-, hchannel⟩ := List.append_eq_nil_iff.mp hbody
  obtain ⟨hdeclared, hused⟩ := checkNames_nil hnames
  refine ⟨hdeclared, hused, fun s hs c hc => ?_, fun hsms => ?_⟩
  · unfold checkChannel at hchannel
    cases hch : v.channel with
    | email =>
      rw [hch, hs] at hchannel
      obtain ⟨hleft, -⟩ := List.append_eq_nil_iff.mp hchannel
      obtain ⟨hsubject, -⟩ := List.append_eq_nil_iff.mp hleft
      by_contra hbreak
      rw [Bool.not_eq_false] at hbreak
      have hany : s.any lineBreak = true := List.any_eq_true.mpr ⟨c, hc, hbreak⟩
      have hbad : (some s).all (fun s => s = [] ∨ s.length > 255 ∨ s.any lineBreak) = true := decide_eq_true (Or.inr (Or.inr hany))
      rw [if_pos hbad] at hsubject
      cases hsubject
    | sms =>
      rw [hch, hs] at hchannel
      simp at hchannel
  · unfold checkChannel at hchannel
    rw [hsms] at hchannel hworst
    obtain ⟨-, hmax⟩ := List.append_eq_nil_iff.mp hchannel
    cases hn : v.smsMaxSegments with
    | none =>
      rw [hn] at hmax
      simp at hmax
    | some n =>
      rw [hn] at hmax hworst
      dsimp only at hworst
      refine ⟨n, rfl, ?_, ?_⟩
      · by_contra hlt
        simp [show n < 1 by omega] at hmax
      · by_contra hgt
        simp [show (smsSize (worstText v)).segments > n by omega] at hworst

/-! ## The text of a value -/

def valueText (intl : DateTimeFormat) (v : TemplateVersion) (values : Members) (name : Text) : Text := match present values name with
  | some (.json (.str s)) => if (v.variableSchema.schema.lookup name).any fun spec => spec.type = .datetime then (intl.format s).getD [] else s
  | some (.json (.num n)) => Json.numberText n
  | _ => []

/-- A URL that does not begin with `https://` as it is spelled. -/
def Misspelled (values : Members) (e : Text × VariableSpec) : Prop :=
  e.2.type = .url ∧ ∃ s, values.lookup e.1 = some (.str s) ∧ ¬ codes "https://" <+: s

theorem lookup_spec (he : (name, spec) ∈ v.variableSchema.schema) : v.variableSchema.schema.lookup name = some spec :=
  (lookup_some_iff v.variableSchema.keys).mpr he

variable {n : JsNumber}

theorem safeInteger_text (h : safeInteger n = true) :
    (Json.numberText n).length ≤ INTEGER_RENDERED_MAX ∧ ∀ c ∈ Json.numberText n, Json.numberChar c = true := by
  cases n with
  | other text finite => cases h
  | int k =>
    have hk : k.natAbs ≤ 9007199254740991 := of_decide_eq_true h
    refine ⟨?_, Json.intText_number k⟩
    have hrepr : ∀ m : Nat, m ≤ 9007199254740991 → (codes (Nat.repr m)).length ≤ 16 := fun m hm => by
      rw [codes, List.length_map]
      exact Nat.repr_length m 16 (by omega) (by omega)
    cases k with
    | ofNat m =>
      have := hrepr m hk
      exact Nat.le_trans this (by decide)
    | negSucc m =>
      show (codes (toString (Int.negSucc m))).length ≤ 20
      rw [Json.intText_negSucc, List.length_cons]
      have := hrepr (m + 1) hk
      omega

structure TextOk (intl : DateTimeFormat) (v : TemplateVersion) (values : Members) (name : Text) (spec : VariableSpec) : Prop where
  length : (valueText intl v values name).length ≤ (worstCase spec).length
  oneLine : ∀ c ∈ valueText intl v values name, lineBreak c = false
  code : spec.type = .code → ∀ c ∈ valueText intl v values name, isAlnum c = true
  integer : spec.type = .integer → ∀ c ∈ valueText intl v values name, Json.numberChar c = true

theorem value_cases (hp : Passes protocol v.variableSchema.schema values) (he : (name, spec) ∈ v.variableSchema.schema) :
    (present values name = none ∧ spec.required = false) ∨
      (∃ s, present values name = some (.json (.str s)) ∧ WellTyped protocol spec (.str s)) ∨
      ∃ n, present values name = some (.json (.num n)) ∧ spec.type = .integer ∧ safeInteger n = true := by
  have hfits := hp.1 _ he
  unfold Fits at hfits
  dsimp only at hfits
  cases hpresent : present values name with
  | none =>
    rw [hpresent] at hfits
    exact .inl ⟨rfl, hfits⟩
  | some slot =>
    rw [hpresent] at hfits
    cases slot with
    | inherited => exact absurd hfits valueProblem_inherited
    | json j =>
      have htyped := (valueProblem_none j).mp hfits
      cases j with
      | str s => exact .inr (.inl ⟨s, rfl, htyped⟩)
      | num n => exact .inr (.inr ⟨n, rfl, htyped⟩)
      | null => exact htyped.elim
      | bool b => exact htyped.elim
      | arr items => exact htyped.elim
      | obj members => exact htyped.elim

theorem valueText_absent (h : present values name = none) : valueText intl v values name = [] := by
  unfold valueText
  rw [h]

theorem valueText_integer (h : present values name = some (.json (.num n))) : valueText intl v values name = Json.numberText n := by
  unfold valueText
  rw [h]

theorem valueText_text (he : (name, spec) ∈ v.variableSchema.schema) (h : present values name = some (.json (.str s))) (ht : spec.type ≠ .datetime) :
    valueText intl v values name = s := by
  unfold valueText
  rw [h]
  dsimp only
  rw [lookup_spec he]
  simp [ht]

variable {t : Text}

theorem valueText_datetime (he : (name, spec) ∈ v.variableSchema.schema) (h : present values name = some (.json (.str s)))
    (ht : spec.type = .datetime) (hf : intl.format s = some t) : valueText intl v values name = t := by
  unfold valueText
  rw [h]
  dsimp only
  rw [lookup_spec he, hf]
  simp [ht]

theorem oneLine_of_control (h : ∀ c ∈ s, control c = false) : ∀ c ∈ s, lineBreak c = false := fun c hc => by
  have := h c hc
  simp only [control, Bool.or_eq_false_iff, decide_eq_false_iff_not] at this
  simp only [lineBreak, Bool.or_eq_false_iff, decide_eq_false_iff_not]
  omega

theorem oneLine_of_alnum (h : ∀ c ∈ s, isAlnum c = true) : ∀ c ∈ s, lineBreak c = false := fun c hc => by
  by_contra hbreak
  have := h c hc
  simp only [lineBreak, Bool.not_eq_false, Bool.or_eq_true, decide_eq_true_iff] at hbreak
  rcases hbreak with rfl | rfl <;> exact absurd this (by decide)

theorem oneLine_of_number (h : ∀ c ∈ s, Json.numberChar c = true) : ∀ c ∈ s, lineBreak c = false := fun c hc => by
  by_contra hbreak
  have := h c hc
  simp only [lineBreak, Bool.not_eq_false, Bool.or_eq_true, decide_eq_true_iff] at hbreak
  rcases hbreak with rfl | rfl <;> exact absurd this (by decide)

theorem TextOk.absent (h : present values name = none) : TextOk intl v values name spec := by
  have hnil : ∀ c, c ∉ valueText intl v values name := fun c hc => by
    rw [valueText_absent h] at hc
    cases hc
  refine ⟨?_, fun c hc => absurd hc (hnil c), fun _ c hc => absurd hc (hnil c), fun _ c hc => absurd hc (hnil c)⟩
  rw [valueText_absent h]
  exact Nat.zero_le _

theorem TextOk.number (h : present values name = some (.json (.num n))) (ht : spec.type = .integer) (hn : safeInteger n = true) :
    TextOk intl v values name spec := by
  obtain ⟨hlen, hchars⟩ := safeInteger_text hn
  have htext : valueText intl v values name = Json.numberText n := valueText_integer h
  rw [← htext] at hlen hchars
  refine ⟨?_, oneLine_of_number hchars, fun hc => absurd (ht.symm.trans hc) (by decide), fun _ => hchars⟩
  unfold worstCase
  rw [ht]
  exact hlen.trans (List.length_replicate ..).ge

theorem TextOk.text (he : (name, spec) ∈ v.variableSchema.schema) (h : present values name = some (.json (.str s)))
    (hs : WellTyped protocol spec (.str s)) : TextOk intl v values name spec := by
  unfold WellTyped at hs
  cases ht : spec.type with
  | string =>
    rw [ht] at hs
    have htext : valueText intl v values name = s := valueText_text he h (by rw [ht]; decide)
    refine ⟨?_, ?_, fun hc => absurd (ht.symm.trans hc) (by decide), fun hc => absurd (ht.symm.trans hc) (by decide)⟩
    · rw [htext, worstCase, ht]
      exact hs.2.1.trans (List.length_replicate ..).ge
    · rw [htext]
      exact oneLine_of_control hs.2.2
  | code =>
    rw [ht] at hs
    have htext : valueText intl v values name = s := valueText_text he h (by rw [ht]; decide)
    rw [← htext] at hs
    refine ⟨?_, oneLine_of_alnum hs.2.2, fun _ => hs.2.2, fun hc => absurd (ht.symm.trans hc) (by decide)⟩
    rw [worstCase, ht]
    exact hs.2.1.trans (List.length_replicate ..).ge
  | url =>
    rw [ht] at hs
    have htext : valueText intl v values name = s := valueText_text he h (by rw [ht]; decide)
    refine ⟨?_, ?_, fun hc => absurd (ht.symm.trans hc) (by decide), fun hc => absurd (ht.symm.trans hc) (by decide)⟩
    · rw [htext, worstCase, ht]
      exact hs.1.trans (List.length_replicate ..).ge
    · rw [htext]
      exact oneLine_of_control hs.2.2
  | datetime =>
    rw [ht] at hs
    obtain ⟨t, hformat, hlen, hline⟩ := intl.valid s hs
    have htext := valueText_datetime he h ht hformat
    refine ⟨?_, ?_, fun hc => absurd (ht.symm.trans hc) (by decide), fun hc => absurd (ht.symm.trans hc) (by decide)⟩
    · rw [htext, worstCase, ht]
      exact hlen.trans (List.length_replicate ..).ge
    · rw [htext]
      exact hline
  | integer =>
    rw [ht] at hs
    exact hs.elim

theorem text_ok (hp : Passes protocol v.variableSchema.schema values) (he : (name, spec) ∈ v.variableSchema.schema) : TextOk intl v values name spec := by
  rcases value_cases hp he with ⟨h, -⟩ | ⟨s, h, hs⟩ | ⟨n, h, ht, hn⟩
  · exact TextOk.absent h
  · exact TextOk.text he h hs
  · exact TextOk.number h ht hn

theorem present_str : present values name = some (.json (.str s)) ↔ values.lookup name = some (.str s) := by
  refine ⟨fun h => ?_, fun h => present_own h (by simp)⟩
  unfold present get at h
  cases hj : values.lookup name with
  | none =>
    rw [hj] at h
    dsimp only at h
    by_cases hin : name ∈ objectPrototype
    · rw [if_pos hin] at h
      cases h
    · rw [if_neg hin] at h
      cases h
  | some j =>
    rw [hj] at h
    cases j <;> cases h
    rfl

theorem textOf_misspelled (he : (name, spec) ∈ v.variableSchema.schema) (h : Misspelled values (name, spec)) :
    textOf intl v values name = .error .renderFailed := by
  obtain ⟨ht, s, hs, hprefix⟩ := h
  unfold textOf
  rw [lookup_spec he, present_str.mpr hs]
  dsimp only at ht ⊢
  rw [ht]
  dsimp only
  split
  · rfl
  · rw [if_pos ⟨rfl, hprefix⟩]

theorem not_over (h : s.length ≤ spec.maxLength.getD 0) : ¬ (spec.maxLength.any fun n => s.length > n) = true := by
  intro hany
  obtain ⟨n, hn, hover⟩ := (Option.any_eq_true _ _).mp hany
  rw [hn] at h
  exact absurd (of_decide_eq_true hover) (Nat.not_lt.mpr h)

theorem textOf_text (he : (name, spec) ∈ v.variableSchema.schema) (h : present values name = some (.json (.str s)))
    (hs : WellTyped protocol spec (.str s)) (hurl : ¬ Misspelled values (name, spec)) :
    textOf intl v values name = .ok (valueText intl v values name) := by
  unfold WellTyped at hs
  unfold textOf
  rw [lookup_spec he, h]
  dsimp only
  cases ht : spec.type with
  | string =>
    rw [ht] at hs
    rw [valueText_text he h (by rw [ht]; decide)]
    dsimp only
    rw [if_neg (not_over hs.2.1), if_neg fun hbad => absurd hbad.1 (by decide)]
  | code =>
    rw [ht] at hs
    rw [valueText_text he h (by rw [ht]; decide)]
    dsimp only
    rw [if_neg (not_over hs.2.1), if_neg fun hbad => absurd hbad.1 (by decide)]
  | url =>
    rw [ht] at hs
    rw [valueText_text he h (by rw [ht]; decide)]
    dsimp only
    rw [if_neg (not_over hs.1), if_neg]
    exact fun hbad => hurl ⟨ht, s, present_str.mp h, hbad.2⟩
  | datetime =>
    rw [ht] at hs
    obtain ⟨t, hformat, hlen, -⟩ := intl.valid s hs
    rw [valueText_datetime he h ht hformat]
    dsimp only
    rw [hformat]
    dsimp only
    rw [if_neg (Nat.not_lt.mpr hlen)]
  | integer =>
    rw [ht] at hs
    exact hs.elim

theorem textOf_ok (hp : Passes protocol v.variableSchema.schema values) (he : (name, spec) ∈ v.variableSchema.schema)
    (hurl : ¬ Misspelled values (name, spec)) : textOf intl v values name = .ok (valueText intl v values name) := by
  rcases value_cases hp he with ⟨h, hreq⟩ | ⟨s, h, hs⟩ | ⟨n, h, ht, hn⟩
  · rw [valueText_absent h]
    unfold textOf
    rw [lookup_spec he, h]
    simp [hreq]
  · exact textOf_text he h hs hurl
  · rw [valueText_integer h]
    unfold textOf
    rw [lookup_spec he, h]
    dsimp only
    rw [ht]
    exact if_pos hn

/-! ## The size of an SMS -/

theorem gsmSegments_mono {m n : Nat} (h : m ≤ n) : gsmSegments m ≤ gsmSegments n := by
  unfold gsmSegments
  split <;> split <;> omega

theorem ucs2Segments_mono {m n : Nat} (h : m ≤ n) : ucs2Segments m ≤ ucs2Segments n := by
  unfold ucs2Segments
  split <;> split <;> omega

theorem gsmSegments_le_ucs2 {septets units : Nat} (h : septets ≤ 2 * units) : gsmSegments septets ≤ ucs2Segments units := by
  unfold gsmSegments ucs2Segments
  split <;> split <;> omega

set_option maxRecDepth 4000 in
theorem gsm_basic : GSM_BASIC =
    [64, 163, 36, 165, 232, 233, 249, 236, 242, 199, 10, 216, 248, 13, 197, 229, 916, 95, 934, 915, 923, 937, 928, 936, 931, 920, 926, 198, 230, 223, 201,
      32, 33, 34, 35, 164, 37, 38, 39, 40, 41, 42, 43, 44, 45, 46, 47, 48, 49, 50, 51, 52, 53, 54, 55, 56, 57, 58, 59, 60, 61, 62, 63, 161, 65, 66, 67, 68,
      69, 70, 71, 72, 73, 74, 75, 76, 77, 78, 79, 80, 81, 82, 83, 84, 85, 86, 87, 88, 89, 90, 196, 214, 209, 220, 167, 191, 97, 98, 99, 100, 101, 102, 103,
      104, 105, 106, 107, 108, 109, 110, 111, 112, 113, 114, 115, 116, 117, 118, 119, 120, 121, 122, 228, 246, 241, 252, 224] :=
  (codes_ofList
    ['@', '£', '$', '¥', 'è', 'é', 'ù', 'ì', 'ò', 'Ç', '\n', 'Ø', 'ø', '\r', 'Å', 'å', 'Δ', '_', 'Φ', 'Γ', 'Λ', 'Ω', 'Π', 'Ψ', 'Σ', 'Θ', 'Ξ', 'Æ', 'æ',
    'ß', 'É', ' ', '!', '"', '#', '¤', '%', '&', '\'', '(', ')', '*', '+', ',', '-', '.', '/', '0', '1', '2', '3', '4', '5', '6', '7', '8', '9', ':', ';',
    '<', '=', '>', '?', '¡', 'A', 'B', 'C', 'D', 'E', 'F', 'G', 'H', 'I', 'J', 'K', 'L', 'M', 'N', 'O', 'P', 'Q', 'R', 'S', 'T', 'U', 'V', 'W', 'X', 'Y',
    'Z', 'Ä', 'Ö', 'Ñ', 'Ü', '§', '¿', 'a', 'b', 'c', 'd', 'e', 'f', 'g', 'h', 'i', 'j', 'k', 'l', 'm', 'n', 'o', 'p', 'q', 'r', 's', 't', 'u', 'v', 'w',
    'x', 'y', 'z', 'ä', 'ö', 'ñ', 'ü', 'à']).trans (by simp)

theorem gsm_extension : GSM_EXTENSION = [94, 123, 125, 92, 91, 126, 93, 124, 8364, 12] :=
  codes_ofList ['^', '{', '}', '\\', '[', '~', ']', '|', '€', '\x0c']

theorem isGsm_eq : isGsm = fun c => GSM_BASIC.contains c || GSM_EXTENSION.contains c := rfl

def septet (c : Nat) : Nat := if GSM_BASIC.contains c then 1 else 2

theorem septet_le (c : Nat) : septet c ≤ 2 := by
  unfold septet
  split <;> omega

theorem septets_le (t : Text) : septets t ≤ 2 * t.length := by
  show (t.map septet).sum ≤ 2 * t.length
  induction t with
  | nil => exact Nat.le_refl 0
  | cons c t ih =>
    rw [List.map_cons, List.sum_cons, List.length_cons]
    have := septet_le c
    omega

theorem segments_gsm (h : t.all isGsm = true) : (smsSize t).segments = gsmSegments (septets t) := by
  rw [smsSize, if_pos h]

theorem segments_ucs2 (h : ¬ t.all isGsm = true) : (smsSize t).segments = ucs2Segments t.length := by
  rw [smsSize, if_neg h]

theorem isAlnum_gsm {c : Nat} (h : isAlnum c = true) : GSM_BASIC.contains c = true := by
  have hall : ∀ c < 128, isAlnum c = true → GSM_BASIC.contains c = true := by
    rw [gsm_basic]
    decide +kernel
  refine hall c ?_ h
  simp only [isAlnum, isLower, isUpper, isDigit, Bool.or_eq_true, Bool.and_eq_true, decide_eq_true_iff] at h
  omega

theorem numberChar_gsm {c : Nat} (h : Json.numberChar c = true) : GSM_BASIC.contains c = true := by
  have hall : ∀ c < 128, Json.numberChar c = true → GSM_BASIC.contains c = true := by
    rw [gsm_basic]
    decide +kernel
  refine hall c ?_ h
  simp only [Json.numberChar, isDigit, Bool.or_eq_true, beq_iff_eq, Bool.and_eq_true, decide_eq_true_iff] at h
  omega

theorem septets_basic (h : ∀ c ∈ t, GSM_BASIC.contains c = true) : septets t = t.length := by
  show (t.map septet).sum = t.length
  induction t with
  | nil => rfl
  | cons c t ih =>
    have hc : septet c = 1 := if_pos (h c List.mem_cons_self)
    rw [List.map_cons, List.sum_cons, List.length_cons, hc, ih fun c hc => h c (List.mem_cons_of_mem _ hc), Nat.add_comm]

theorem septets_append (s t : Text) : septets (s ++ t) = septets s + septets t := by
  rw [septets, List.map_append, List.sum_append]
  rfl

theorem septets_replicate (n c : Nat) : septets (List.replicate n c) = n * septet c := by
  show ((List.replicate n c).map septet).sum = n * septet c
  rw [List.map_replicate, List.sum_replicate_nat]

theorem fill_le {m : Text → Nat} (hm : ∀ s t, m (s ++ t) = m s + m t) {f g : Text → Text}
    (h : ∀ n, Token.slot n ∈ l → m (f n) ≤ m (g n)) : m (l.flatMap (Token.fill f)) ≤ m (l.flatMap (Token.fill g)) := by
  induction l with
  | nil => exact Nat.le_refl _
  | cons token l ih =>
    rw [List.flatMap_cons, List.flatMap_cons, hm, hm]
    have hrest := ih fun n hn => h n (List.mem_cons_of_mem _ hn)
    cases token with
    | lit c => exact Nat.add_le_add_left hrest _
    | slot n => exact Nat.add_le_add (h n List.mem_cons_self) hrest

def worstOf (v : TemplateVersion) (name : Text) : Text := ((v.variableSchema.schema.lookup name).map worstCase).getD []

theorem worstOf_spec (he : (name, spec) ∈ v.variableSchema.schema) : worstOf v name = worstCase spec := by
  rw [worstOf, lookup_spec he]
  rfl

theorem mem_substitute {text : Text} {f : Text → Text} : c ∈ substitute text f ↔ Token.lit c ∈ tokens text ∨ ∃ n ∈ slots text, c ∈ f n := by
  unfold substitute
  rw [List.mem_flatMap]
  constructor
  · rintro ⟨token, ht, hc⟩
    cases token with
    | lit d =>
      rw [Token.fill, List.mem_singleton] at hc
      exact .inl (hc ▸ ht)
    | slot n => exact .inr ⟨n, mem_slots.mpr ht, hc⟩
  · rintro (h | ⟨n, hn, hc⟩)
    · exact ⟨_, h, List.mem_singleton_self c⟩
    · exact ⟨_, mem_slots.mp hn, hc⟩

theorem arabic_not_gsm : isGsm 1593 = false := by
  rw [isGsm, gsm_basic, gsm_extension]
  decide +kernel

theorem gsm_types (hgsm : (worstText v).all isGsm = true) (hslot : name ∈ slots v.bodyText) (he : (name, spec) ∈ v.variableSchema.schema) :
    spec.type = .code ∨ spec.type = .integer ∨ spec.type = .url := by
  have hin : ∀ c ∈ worstCase spec, isGsm c = true := fun c hc =>
    List.all_eq_true.mp hgsm c (mem_substitute.mpr (.inr ⟨name, hslot, show c ∈ worstOf v name from (worstOf_spec he).symm ▸ hc⟩))
  cases ht : spec.type with
  | code => exact .inl rfl
  | integer => exact .inr (.inl rfl)
  | url => exact .inr (.inr rfl)
  | string =>
    have hmax := List.all_eq_true.mp v.variableSchema.valid _ he
    simp only [ht, needsMaxLength, if_true, Bool.and_eq_true] at hmax
    obtain ⟨n, hn, hpos⟩ := (Option.any_eq_true _ _).mp hmax.2
    have hmem : 1593 ∈ worstCase spec := by
      rw [worstCase, ht, hn]
      exact List.mem_replicate.mpr ⟨Nat.ne_of_gt (of_decide_eq_true hpos).1, rfl⟩
    exact absurd (hin _ hmem) (by rw [arabic_not_gsm]; decide)
  | datetime =>
    have hmem : 1593 ∈ worstCase spec := by
      rw [worstCase, ht]
      exact List.mem_replicate.mpr ⟨by decide, rfl⟩
    exact absurd (hin _ hmem) (by rw [arabic_not_gsm]; decide)

theorem TextOk.septets (hok : TextOk intl v values name spec) (ht : spec.type = .code ∨ spec.type = .integer ∨ spec.type = .url) :
    Templates.septets (valueText intl v values name) ≤ Templates.septets (worstCase spec) := by
  have hlen := hok.length
  rcases ht with ht | ht | ht
  · rw [septets_basic fun c hc => isAlnum_gsm (hok.code ht c hc)]
    rw [worstCase, ht] at hlen ⊢
    rw [List.length_replicate] at hlen
    have hseptet : septet 88 = 1 := if_pos (isAlnum_gsm (by decide))
    rwa [septets_replicate, hseptet, Nat.mul_one]
  · rw [septets_basic fun c hc => numberChar_gsm (hok.integer ht c hc)]
    rw [worstCase, ht] at hlen ⊢
    rw [List.length_replicate] at hlen
    have hseptet : septet 57 = 1 := if_pos (numberChar_gsm (by decide))
    rwa [septets_replicate, hseptet, Nat.mul_one]
  · refine (septets_le _).trans ?_
    rw [worstCase, ht] at hlen ⊢
    have htilde : septet 126 = 2 := by
      rw [septet, gsm_basic]
      decide +kernel
    rw [septets_replicate, htilde]
    rw [List.length_replicate] at hlen
    omega

/-! ## The law -/

def bodyOf (intl : DateTimeFormat) (v : TemplateVersion) (values : Members) : Text := substitute v.bodyText (valueText intl v values)

def Outgrows (intl : DateTimeFormat) (v : TemplateVersion) (values : Members) : Prop :=
  v.channel = .sms ∧ (worstText v).all isGsm = true ∧
    (∃ e ∈ v.variableSchema.schema, e.2.type = .url ∧ e.1 ∈ slots v.bodyText ∧ ∃ s, values.lookup e.1 = some (.str s) ∧ ∃ c ∈ s, isGsm c = false) ∧
    gsmSegments (septets (worstText v)) < ucs2Segments (bodyOf intl v values).length

/-- Every placeholder of every part holds its value; the subject is one line; an SMS is within the measured size. -/
structure Rendered (intl : DateTimeFormat) (v : TemplateVersion) (values : Members) (destination : Text) (m : RenderedMessage) : Prop where
  parts : m = ⟨v.channel, destination, v.subject.map fun s => substitute s (valueText intl v values), bodyOf intl v values,
    v.bodyHtml.map fun s => substitute s fun n => escapeHtml (valueText intl v values n)⟩
  oneLine : ∀ s, m.subject = some s → ∀ c ∈ s, lineBreak c = false
  size : v.channel = .sms → (smsSize m.text).segments ≤ (smsSize (worstText v)).segments

theorem length_le (hpub : Published v) (hp : Passes protocol v.variableSchema.schema values) :
    (bodyOf intl v values).length ≤ (worstText v).length := by
  refine fill_le (m := List.length) (fun s t => List.length_append) fun n hn => ?_
  have hdeclared := hpub.declared v.bodyText (List.mem_append_right _ List.mem_cons_self) n (mem_slots.mpr hn)
  obtain ⟨e, he, rfl⟩ := List.mem_map.mp hdeclared
  exact (text_ok hp he).length.trans (Nat.le_of_eq (congrArg List.length (worstOf_spec he).symm))

theorem septets_bound (hpub : Published v) (hp : Passes protocol v.variableSchema.schema values) (hgsm : (worstText v).all isGsm = true) :
    septets (bodyOf intl v values) ≤ septets (worstText v) := by
  refine fill_le (m := septets) septets_append fun n hn => ?_
  have hdeclared := hpub.declared v.bodyText (List.mem_append_right _ List.mem_cons_self) n (mem_slots.mpr hn)
  obtain ⟨e, he, rfl⟩ := List.mem_map.mp hdeclared
  have htypes := gsm_types hgsm (mem_slots.mpr hn) he
  exact ((text_ok hp he).septets htypes).trans (Nat.le_of_eq (congrArg septets (worstOf_spec he).symm))

theorem url_of_ucs2 (hpub : Published v) (hp : Passes protocol v.variableSchema.schema values) (hgsm : (worstText v).all isGsm = true)
    (hnot : ¬ (bodyOf intl v values).all isGsm = true) :
    ∃ e ∈ v.variableSchema.schema, e.2.type = .url ∧ e.1 ∈ slots v.bodyText ∧ ∃ s, values.lookup e.1 = some (.str s) ∧ ∃ c ∈ s, isGsm c = false := by
  rw [List.all_eq_true] at hnot
  push Not at hnot
  obtain ⟨c, hc, hout⟩ := hnot
  rw [Ne, Bool.not_eq_true] at hout
  rcases mem_substitute.mp hc with hlit | ⟨n, hn, hcn⟩
  · have := List.all_eq_true.mp hgsm c (mem_substitute.mpr (.inl hlit))
    exact absurd (this.symm.trans hout) (by decide)
  · have hdeclared := hpub.declared v.bodyText (List.mem_append_right _ List.mem_cons_self) n hn
    obtain ⟨⟨n, spec⟩, he, rfl⟩ := List.mem_map.mp hdeclared
    have hok : TextOk intl v values n spec := text_ok hp he
    have hbasic : GSM_BASIC.contains c = true → False := fun hb => by
      rw [isGsm, hb] at hout
      cases hout
    rcases gsm_types hgsm hn he with ht | ht | ht
    · exact (hbasic (isAlnum_gsm (hok.code ht c hcn))).elim
    · exact (hbasic (numberChar_gsm (hok.integer ht c hcn))).elim
    · rcases value_cases hp he with ⟨h, -⟩ | ⟨s, h, -⟩ | ⟨m, -, hint, -⟩
      · rw [valueText_absent h] at hcn
        cases hcn
      · rw [valueText_text he h (by rw [ht]; decide)] at hcn
        exact ⟨_, he, ht, hn, s, present_str.mp h, c, hcn, hout⟩
      · exact absurd (ht.symm.trans hint) (by decide)

theorem ucs2_of_url {e : Text × VariableSpec} (he : e ∈ v.variableSchema.schema) (ht : e.2.type = .url) (hn : e.1 ∈ slots v.bodyText) {s : Text}
    (hs : values.lookup e.1 = some (.str s)) (hc : c ∈ s) (hout : isGsm c = false) : ¬ (bodyOf intl v values).all isGsm = true := by
  intro hall
  have hmem : c ∈ bodyOf intl v values := by
    refine mem_substitute.mpr (.inr ⟨e.1, hn, ?_⟩)
    have htext : valueText intl v values e.1 = s := valueText_text he (present_str.mpr hs) (by rw [ht]; decide)
    rwa [htext]
  exact absurd ((List.all_eq_true.mp hall c hmem).symm.trans hout) (by decide)

theorem size_iff (hpub : Published v) (hp : Passes protocol v.variableSchema.schema values) :
    (v.channel = .sms → (smsSize (bodyOf intl v values)).segments ≤ (smsSize (worstText v)).segments) ↔ ¬ Outgrows intl v values := by
  constructor
  · rintro hsize ⟨hsms, hgsm, ⟨e, he, ht, hn, s, hs, c, hc, hout⟩, hover⟩
    have h := hsize hsms
    rw [segments_gsm hgsm, segments_ucs2 (ucs2_of_url he ht hn hs hc hout)] at h
    exact absurd hover (Nat.not_lt.mpr h)
  · intro hnot hsms
    by_cases hgsm : (worstText v).all isGsm = true
    · rw [segments_gsm hgsm]
      by_cases hbody : (bodyOf intl v values).all isGsm = true
      · rw [segments_gsm hbody]
        exact gsmSegments_mono (septets_bound hpub hp hgsm)
      · rw [segments_ucs2 hbody]
        exact Nat.not_lt.mp fun hover => hnot ⟨hsms, hgsm, url_of_ucs2 hpub hp hgsm hbody, hover⟩
    · rw [segments_ucs2 hgsm]
      have hlen : (bodyOf intl v values).length ≤ (worstText v).length := length_le hpub hp
      by_cases hbody : (bodyOf intl v values).all isGsm = true
      · rw [segments_gsm hbody]
        exact gsmSegments_le_ucs2 ((septets_le _).trans (Nat.mul_le_mul_left 2 hlen))
      · rw [segments_ucs2 hbody]
        exact ucs2Segments_mono hlen

/-! ## Rendering -/

variable {fill : Text → Except RenderError Text} {part : Option Text}

theorem renderPart_ok {g : Text → Text}
    (h : ∀ t, part = some t → ∀ n ∈ slots t, fill n = .ok (g n)) : renderPart part fill = .ok (part.map fun t => substitute t g) := by
  cases part with
  | none => rfl
  | some t =>
    rw [renderPart, substituteM_ok (h t rfl)]
    rfl

theorem renderPart_filled {r : Option Text} (h : renderPart part fill = .ok r) :
    ∀ t, part = some t → ∀ n ∈ slots t, ∃ s, fill n = .ok s := by
  rintro t rfl
  rw [renderPart] at h
  cases ht : substituteM t fill with
  | error e =>
    rw [ht] at h
    cases h
  | ok u => exact substituteM_filled ht

theorem bind_ok {α β : Type} {x : Except RenderError α} {f : α → Except RenderError β} {b : β} (h : x >>= f = .ok b) : ∃ a, x = .ok a ∧ f a = .ok b := by
  cases x with
  | error e => cases h
  | ok a => exact ⟨a, rfl, h⟩

theorem render_filled {destination : Text} {m : RenderedMessage} (h : render intl v values destination = .ok m) :
    ∀ part ∈ parts v, ∀ n ∈ slots part, ∃ s, textOf intl v values n = .ok s := by
  unfold render at h
  obtain ⟨subject, hsubject, h⟩ := bind_ok h
  dsimp only at h
  split at h
  · cases h
  obtain ⟨body, hbody, h⟩ := bind_ok h
  obtain ⟨html, hhtml, -⟩ := bind_ok h
  intro part hpart n hn
  rcases List.mem_append.mp hpart with hpart | hpart
  · exact renderPart_filled hsubject part (Option.mem_toList.mp hpart) n hn
  · rcases List.mem_cons.mp hpart with rfl | hpart
    · exact substituteM_filled hbody n hn
    · obtain ⟨s, hs⟩ := renderPart_filled hhtml part (Option.mem_toList.mp hpart) n hn
      cases htext : textOf intl v values n with
      | error e =>
        rw [htext] at hs
        cases hs
      | ok t => exact ⟨t, rfl⟩

theorem subject_line (hpub : Published v) (hp : Passes protocol v.variableSchema.schema values) (ht : v.subject = some t) :
    ∀ c ∈ substitute t (valueText intl v values), lineBreak c = false := fun c hc => by
  rcases mem_substitute.mp hc with hlit | ⟨n, hn, hcn⟩
  · refine hpub.oneLine t ht c ?_
    have hsource := tokens_source t
    rw [← hsource]
    exact List.mem_flatMap.mpr ⟨_, hlit, List.mem_singleton_self c⟩
  · have hdeclared := hpub.declared t (List.mem_append_left _ (Option.mem_toList.mpr ht)) n hn
    obtain ⟨e, he, rfl⟩ := List.mem_map.mp hdeclared
    exact (text_ok hp he).oneLine c hcn

theorem render_ok (hpub : Published v) (hp : Passes protocol v.variableSchema.schema values) (hurl : ∀ e ∈ v.variableSchema.schema, ¬ Misspelled values e)
    (hsize : v.channel = .sms → (smsSize (bodyOf intl v values)).segments ≤ (smsSize (worstText v)).segments) (destination : Text) :
    ∃ m, render intl v values destination = .ok m ∧ Rendered intl v values destination m := by
  have htext : ∀ part ∈ parts v, ∀ n ∈ slots part, textOf intl v values n = .ok (valueText intl v values n) := fun part hpart n hn => by
    obtain ⟨e, he, rfl⟩ := List.mem_map.mp (hpub.declared part hpart n hn)
    exact textOf_ok hp he (hurl e he)
  have hsubject := renderPart_ok fun t ht => htext t (List.mem_append_left _ (Option.mem_toList.mpr ht))
  have hbody := substituteM_ok (htext v.bodyText (List.mem_append_right _ List.mem_cons_self))
  have hhtml : renderPart v.bodyHtml (fun n => (textOf intl v values n).map escapeHtml) = .ok (v.bodyHtml.map fun s => substitute s fun n => escapeHtml (valueText intl v values n)) :=
    renderPart_ok fun t ht n hn => by
      rw [htext t (List.mem_append_right _ (List.mem_cons_of_mem _ (Option.mem_toList.mpr ht))) n hn]
      rfl
  have hline : ¬ ((v.subject.map fun s => substitute s (valueText intl v values)).any fun s => s.any lineBreak) = true := by
    intro hany
    obtain ⟨s, hs, hbreak⟩ := (Option.any_eq_true _ _).mp hany
    obtain ⟨t, ht, rfl⟩ := Option.map_eq_some_iff.mp hs
    obtain ⟨c, hc, hcb⟩ := List.any_eq_true.mp hbreak
    exact absurd ((subject_line hpub hp ht c hc).symm.trans hcb) (by decide)
  have hfit : ¬ (v.channel = .sms ∧ (smsSize (bodyOf intl v values)).segments > v.smsMaxSegments.getD 1) := by
    rintro ⟨hsms, hover⟩
    obtain ⟨n, hn, -, hmax⟩ := hpub.size hsms
    rw [hn] at hover
    have := hsize hsms
    simp only [Option.getD_some] at hover
    omega
  refine ⟨⟨v.channel, destination, _, bodyOf intl v values, _⟩, ?_, rfl, ?_, hsize⟩
  · unfold render
    rw [hsubject, hbody, hhtml]
    exact (if_neg hline).trans (if_neg hfit)
  · intro s hs
    obtain ⟨t, ht, rfl⟩ := Option.map_eq_some_iff.mp hs
    exact subject_line hpub hp ht

theorem escapeHtml_text (s : Text) : ∀ c ∈ escapeHtml s, c ≠ 60 ∧ c ≠ 62 ∧ c ≠ 34 ∧ c ≠ 39 := by
  intro c hc
  obtain ⟨d, -, hcd⟩ := List.mem_flatMap.mp hc
  unfold escapeUnit at hcd
  have hentity : ∀ t ∈ [codes "&amp;", codes "&lt;", codes "&gt;", codes "&quot;", codes "&#39;"], ∀ c ∈ t, c ≠ 60 ∧ c ≠ 62 ∧ c ≠ 34 ∧ c ≠ 39 := by decide
  split_ifs at hcd with h1 h2 h3 h4 h5
  · exact hentity _ (by simp) c hcd
  · exact hentity _ (by simp) c hcd
  · exact hentity _ (by simp) c hcd
  · exact hentity _ (by simp) c hcd
  · exact hentity _ (by simp) c hcd
  · rw [List.mem_singleton] at hcd
    subst hcd
    exact ⟨h2, h3, h4, h5⟩

theorem publish_law (destination : Text) (hcheck : checkContent htmlForbidden v = [])
    (hvalues : variableValueProblems protocol v.variableSchema.schema values = []) :
    ((∃ m, render intl v values destination = .ok m ∧ Rendered intl v values destination m) ↔
      (∀ e ∈ v.variableSchema.schema, ¬ Misspelled values e) ∧ ¬ Outgrows intl v values) ∧
      (∀ part ∈ parts v, (tokens part).flatMap Token.source = part) ∧ ∀ n, ∀ c ∈ escapeHtml (valueText intl v values n), c ≠ 60 ∧ c ≠ 62 ∧ c ≠ 34 ∧ c ≠ 39 := by
  have hpub := checkContent_nil hcheck
  have hp := no_problems.mp hvalues
  refine ⟨⟨?_, fun ⟨hurl, hfit⟩ => render_ok hpub hp hurl ((size_iff hpub hp).mpr hfit) destination⟩, fun part _ => tokens_source part, fun n => escapeHtml_text _⟩
  rintro ⟨m, hm, hrendered⟩
  refine ⟨fun e he hmis => ?_, (size_iff hpub hp).mp fun hsms => ?_⟩
  · obtain ⟨part, hpart, hn⟩ := hpub.used e.1 (List.mem_map_of_mem he)
    obtain ⟨s, hs⟩ := render_filled hm part hpart e.1 hn
    have hfail : textOf intl v values e.1 = .error .renderFailed := textOf_misspelled he hmis
    rw [hfail] at hs
    cases hs
  · have hsize := hrendered.size hsms
    rw [hrendered.parts] at hsize
    exact hsize

end

def linkVariable : PublishedVariables where
  schema := [(codes "link", ⟨.url, true, false, some 75⟩)]
  keys := List.nodup_singleton _
  valid := by decide

def linkMessage : TemplateVersion where
  channel := .sms
  locale := "en"
  variableSchema := linkVariable
  subject := none
  bodyText := codes "Open: {{link}}"
  bodyHtml := none
  smsMaxSegments := some 1

def schemeOf (s : Text) : Option Text := if s.take 6 = codes "https:" ∨ s.take 6 = codes "HTTPS:" then some (codes "https:") else none

def link (s : Text) : Members := [(codes "link", .str s)]

def noDates : DateTimeFormat where
  format _ := some (codes "Jan 1, 2026, 12:00 PM")
  valid _ _ := ⟨_, rfl, by decide, by decide⟩

theorem linkMessage_published : checkContent (fun _ => []) linkMessage = [] := by
  have h : (checkContent (fun _ => []) linkMessage).isEmpty = true := by
    simp only [checkContent, smsSize, isGsm_eq, septets, gsm_basic, gsm_extension]
    decide +kernel
  exact List.isEmpty_iff.mp h

theorem publish_law_link :
    (∃ m, render noDates linkMessage (link (codes "https://nawara.example/a")) (codes "+96170000000") = .ok m ∧
      Rendered noDates linkMessage (link (codes "https://nawara.example/a")) (codes "+96170000000") m) ↔
      (∀ e ∈ linkVariable.schema, ¬ Misspelled (link (codes "https://nawara.example/a")) e) ∧
        ¬ Outgrows noDates linkMessage (link (codes "https://nawara.example/a")) :=
  (@publish_law (fun _ => []) schemeOf noDates linkMessage (link (codes "https://nawara.example/a")) (codes "+96170000000") linkMessage_published (by decide +kernel)).1

theorem accepted_link_fails :
    checkContent (fun _ => []) linkMessage = [] ∧
      (variableValueProblems schemeOf linkVariable.schema (link (codes "HTTPS://nawara.example/a")) = [] ∧
        render noDates linkMessage (link (codes "HTTPS://nawara.example/a")) (codes "+96170000000") = .error .renderFailed) ∧
      variableValueProblems schemeOf linkVariable.schema (link (codes "https://nawara.example/" ++ List.replicate 50 1593)) = [] ∧
        render noDates linkMessage (link (codes "https://nawara.example/" ++ List.replicate 50 1593)) (codes "+96170000000") = .error .contentTooLong :=
  ⟨linkMessage_published, ⟨by decide +kernel, by decide +kernel⟩, by decide +kernel, by
    simp only [render, smsSize, isGsm_eq, septets, gsm_basic, gsm_extension]
    decide +kernel⟩

end NawaraCore.Templates
