import Mathlib.Data.Nat.Digits.Lemmas
import NawaraCore.Kit.ClientAddress

/-!
# One identity for each address

The fields of an IPv6 text are its groups in some spelling, and the identity writes the first
four groups in one spelling. The address of a client is read at the trusted end of the chain.
-/

namespace NawaraCore.ClientAddress

/-! ## Hexadecimal fields -/

def hexChar (n : Nat) : Char := Char.ofNat (if n < 10 then 0x30 + n else 0x57 + n)

def hexText (n : Nat) : Text := (if n = 0 then [0] else (Nat.digits 16 n).reverse).map hexChar

def dropZeros : List Nat → List Nat
  | 0 :: d :: ds => dropZeros (d :: ds)
  | ds => ds

theorem hexChar_eq_zero : ∀ n < 16, hexChar n = '0' ↔ n = 0 := by decide

theorem hexDigit_cases : ∀ n < 128, isHexDigit (Char.ofNat n) = true →
    digitValue (Char.ofNat n) < 16 ∧ (Char.ofNat n).toLower = hexChar (digitValue (Char.ofNat n)) ∧ Char.ofNat n ≠ ':' ∧
      Char.ofNat n ≠ '.' ∧ Char.ofNat n ≠ '%' := by
  decide

variable {c : Char}

theorem isHexDigit_spec (h : isHexDigit c = true) :
    digitValue c < 16 ∧ c.toLower = hexChar (digitValue c) ∧ c ≠ ':' ∧ c ≠ '.' ∧ c ≠ '%' := by
  have hc : c.toNat < 128 := by
    simp only [isHexDigit, isDigit, between, Bool.or_eq_true, decide_eq_true_eq] at h
    omega
  have := hexDigit_cases c.toNat hc
  rw [Char.ofNat_toNat] at this
  exact this h

theorem stripZeros_map : ∀ {ds : List Nat}, (∀ d ∈ ds, d < 16) → stripZeros (ds.map hexChar) = (dropZeros ds).map hexChar
  | [], _ => rfl
  | [d], _ => by
    rw [List.map_singleton, stripZeros, dropZeros]
    · rfl
    · simp
    · simp
  | d :: e :: ds, h => by
    by_cases hd : d = 0
    · subst hd
      have hzero : hexChar 0 = '0' := rfl
      rw [List.map_cons, List.map_cons, hzero, stripZeros, ← List.map_cons, dropZeros]
      exact stripZeros_map fun d hd => h d (List.mem_cons_of_mem _ hd)
    · have hchar : hexChar d ≠ '0' := fun he => hd ((hexChar_eq_zero d (h d List.mem_cons_self)).mp he)
      rw [List.map_cons, stripZeros, dropZeros]
      · rfl
      · exact fun _ _ he => absurd (List.cons.inj he).1 hd
      · exact fun _ _ he => absurd (List.cons.inj he).1 hchar

theorem dropZeros_eq : ∀ {ds : List Nat}, ds ≠ [] → (∀ d ∈ ds, d < 16) →
    dropZeros ds = if Nat.ofDigits 16 ds.reverse = 0 then [0] else (Nat.digits 16 (Nat.ofDigits 16 ds.reverse)).reverse
  | [0], _, _ => rfl
  | 0 :: e :: ds, _, h => by
    rw [dropZeros, dropZeros_eq (List.cons_ne_nil _ _) fun d hd => h d (List.mem_cons_of_mem _ hd)]
    have hvalue : Nat.ofDigits 16 (0 :: e :: ds).reverse = Nat.ofDigits 16 (e :: ds).reverse := by
      rw [List.reverse_cons, Nat.ofDigits_append]
      simp
    rw [hvalue]
  | (d + 1) :: ds, _, h => by
    have hlast : ∀ hne : ((d + 1) :: ds).reverse ≠ [], ((d + 1) :: ds).reverse.getLast hne ≠ 0 := by
      intro hne
      rw [List.getLast_reverse]
      exact Nat.succ_ne_zero d
    have hdigits := Nat.digits_ofDigits 16 (by decide) ((d + 1) :: ds).reverse
      (fun e he => h e (List.mem_reverse.mp he)) hlast
    have hne : Nat.ofDigits 16 ((d + 1) :: ds).reverse ≠ 0 := by
      intro hzero
      rw [hzero, Nat.digits_zero] at hdigits
      exact absurd hdigits.symm (by simp)
    rw [if_neg hne, hdigits, List.reverse_reverse, dropZeros]
    exact fun _ _ he => absurd (List.cons.inj he).1 (Nat.succ_ne_zero d)

theorem fieldValue_eq (f : Text) : fieldValue f = Nat.ofDigits 16 (f.map digitValue).reverse := by
  rw [Nat.ofDigits_eq_foldr, List.foldr_reverse, List.foldl_map]
  unfold fieldValue numeral
  congr 1
  funext n c
  simp [Nat.add_comm]

theorem canonical_field {f : Text} (h : isHexField f = true) : stripZeros (lower f) = hexText (fieldValue f) := by
  simp only [isHexField, decide_eq_true_eq, List.all_eq_true] at h
  obtain ⟨hne, -, hhex⟩ := h
  have hlower : lower f = (f.map digitValue).map hexChar := by
    unfold lower
    rw [List.map_map]
    exact List.map_congr_left fun c hc => (isHexDigit_spec (hhex c hc)).2.1
  have hdigits : ∀ d ∈ f.map digitValue, d < 16 := by
    intro d hd
    obtain ⟨c, hc, rfl⟩ := List.mem_map.mp hd
    exact (isHexDigit_spec (hhex c hc)).1
  rw [hlower, stripZeros_map hdigits, dropZeros_eq (by simpa using hne) hdigits, hexText, fieldValue_eq]

theorem hexChar_spec : ∀ n < 16, digitValue (hexChar n) = n ∧ hexChar n ≠ ':' := by decide

theorem mem_hexText {n : Nat} (h : c ∈ hexText n) : ∃ d < 16, c = hexChar d := by
  obtain ⟨d, hd, rfl⟩ := List.mem_map.mp h
  refine ⟨d, ?_, rfl⟩
  split at hd
  · rw [List.mem_singleton.mp hd]
    decide
  · exact Nat.digits_lt_base (by decide) (List.mem_reverse.mp hd)

theorem fieldValue_hexText (n : Nat) : fieldValue (hexText n) = n := by
  have hback : (hexText n).map digitValue = if n = 0 then [0] else (Nat.digits 16 n).reverse := by
    unfold hexText
    rw [List.map_map]
    refine (List.map_congr_left fun d hd => ?_).trans (List.map_id _)
    refine (hexChar_spec d ?_).1
    split at hd
    · rw [List.mem_singleton.mp hd]
      decide
    · exact Nat.digits_lt_base (by decide) (List.mem_reverse.mp hd)
  rw [fieldValue_eq, hback]
  split
  next hn => rw [hn]; rfl
  next => rw [List.reverse_reverse, Nat.ofDigits_digits]

theorem hexText_injective : Function.Injective hexText := Function.LeftInverse.injective fieldValue_hexText

/-! ## Splitting -/

theorem toLower_ascii : ∀ n < 128, ((Char.ofNat n).toLower = ':' → Char.ofNat n = ':') ∧
    ((Char.ofNat n).toLower = 'f' → Char.ofNat n = 'f' ∨ Char.ofNat n = 'F') := by
  decide

theorem toLower_high (hc : ¬ c.toNat < 128) : c.toLower = c := by
  have hupper : c.isUpper = false := by
    apply decide_eq_false
    rintro ⟨-, hle⟩
    have : c.toNat ≤ 90 := hle
    omega
  exact (List.cons.inj (@map_toLower_eq [c] fun d hd => by rw [List.mem_singleton.mp hd]; exact hupper)).1

theorem toLower_eq_colon : c.toLower = ':' ↔ c = ':' := by
  constructor
  · intro h
    by_cases hc : c.toNat < 128
    · have := (toLower_ascii c.toNat hc).1
      rw [Char.ofNat_toNat] at this
      exact this h
    · rwa [toLower_high hc] at h
  · rintro rfl
    decide

theorem eq_f_of_toLower (h : c.toLower = 'f') : c = 'f' ∨ c = 'F' := by
  by_cases hc : c.toNat < 128
  · have := (toLower_ascii c.toNat hc).2
    rw [Char.ofNat_toNat] at this
    exact this h
  · rw [toLower_high hc] at h
    exact .inl h

theorem splitOn_lower (s : Text) : (lower s).splitOn ':' = (s.splitOn ':').map lower := by
  induction s with
  | nil => rfl
  | cons c s ih =>
    have hcons : lower (c :: s) = c.toLower :: lower s := rfl
    rw [hcons, List.splitOn_cons_eq_if_modifyHead, List.splitOn_cons_eq_if_modifyHead, ih]
    by_cases hc : c = ':'
    · subst hc
      rfl
    · rw [if_neg (by simpa [toLower_eq_colon] using hc), if_neg (by simpa using hc)]
      cases s.splitOn ':' <;> rfl

theorem splitDouble_lower (s : Text) : splitDouble (lower s) = (splitDouble s).map lower := by
  fun_induction splitDouble s with
  | case1 => rfl
  | case2 rest ih =>
    have hcons : lower (':' :: ':' :: rest) = ':' :: ':' :: lower rest := rfl
    rw [hcons, splitDouble, ih]
    rfl
  | case3 c rest hnot ih =>
    have hcons : lower (c :: rest) = c.toLower :: lower rest := rfl
    rw [hcons, splitDouble, ih]
    · cases splitDouble rest <;> rfl
    · intro rest' hc hrest
      cases rest with
      | nil => cases hrest
      | cons d rest =>
        obtain ⟨hd, -⟩ := List.cons.inj hrest
        exact hnot rest (toLower_eq_colon.mp hc) (by rw [toLower_eq_colon.mp hd])

theorem halfFields_lower (half : Text) : halfFields (lower half) = (halfFields half).map lower := by
  unfold halfFields
  cases half with
  | nil => rfl
  | cons c half =>
    rw [if_neg (by simp [lower]), if_neg (by simp), splitOn_lower]

theorem mem_of_mem_splitOn {sep : Char} : ∀ {s f : Text} {c : Char}, f ∈ s.splitOn sep → c ∈ f → c ∈ s
  | [], f, c, hf, hc => by
    rw [List.splitOn_nil, List.mem_singleton] at hf
    exact hf ▸ hc
  | d :: s, f, c, hf, hc => by
    rw [List.splitOn_cons_eq_if_modifyHead] at hf
    split at hf
    next =>
      rcases List.mem_cons.mp hf with rfl | hf
      · cases hc
      · exact List.mem_cons_of_mem _ (mem_of_mem_splitOn hf hc)
    next =>
      cases hs : s.splitOn sep with
      | nil => exact absurd hs (List.splitOn_ne_nil sep s)
      | cons g gs =>
        rw [hs, List.modifyHead_cons] at hf
        have hin : ∀ h ∈ s.splitOn sep, ∀ e ∈ h, e ∈ s := fun h hh e he => mem_of_mem_splitOn hh he
        rw [hs] at hin
        rcases List.mem_cons.mp hf with rfl | hf
        · rcases List.mem_cons.mp hc with rfl | hc
          · exact List.mem_cons_self
          · exact List.mem_cons_of_mem _ (hin g List.mem_cons_self c hc)
        · exact List.mem_cons_of_mem _ (hin f (List.mem_cons_of_mem _ hf) c hc)

/-! ## The groups of a text -/

variable {d : Text}

theorem isV4_dot (h : isV4 d = true) : '.' ∈ d := by
  by_contra hnot
  simp only [isV4, decide_eq_true_eq, List.splitOn_eq_singleton hnot] at h
  exact absurd h.1 (by simp)

theorem v4Groups_length (h : isV4 d = true) : (v4Groups d).length = 2 := by
  simp only [isV4, decide_eq_true_eq] at h
  unfold v4Groups
  match hs : d.splitOn '.', h.1 with
  | [_, _, _, _], _ => rfl

/-- The fields of a half are hexadecimal, apart from a dotted one at the end. -/
structure Fields (last : Bool) (fs : List Text) (g : List Nat) (hex rest : List Text) (dotted : List Nat) : Prop where
  fields : fs = hex ++ rest
  groups : g = hex.map fieldValue ++ dotted
  hexadecimal : ∀ f ∈ hex, isHexField f = true
  ending : (rest = [] ∧ dotted = []) ∨ (last = true ∧ dotted.length = 2 ∧ ∃ d, rest = [d] ∧ '.' ∈ d)

theorem readGroups_fields {last : Bool} : ∀ {fs : List Text} {g : List Nat}, readGroups last fs = some g →
    ∃ hex rest dotted, Fields last fs g hex rest dotted
  | [], g, h => by
    cases h
    exact ⟨[], [], [], rfl, rfl, fun f hf => absurd hf List.not_mem_nil, .inl ⟨rfl, rfl⟩⟩
  | [f], g, h => by
    simp only [readGroups] at h
    split at h
    next hf =>
      cases h
      exact ⟨[f], [], [], rfl, rfl, fun e he => by rw [List.mem_singleton.mp he]; exact hf, .inl ⟨rfl, rfl⟩⟩
    next =>
      split at h
      next hv =>
        cases h
        rw [Bool.and_eq_true] at hv
        exact ⟨[], [f], v4Groups f, rfl, rfl, fun e he => absurd he List.not_mem_nil,
          .inr ⟨hv.1, v4Groups_length hv.2, f, rfl, isV4_dot hv.2⟩⟩
      next => cases h
  | f :: e :: fs, g, h => by
    rw [readGroups] at h
    · split at h
      next hf =>
        obtain ⟨g', hg', rfl⟩ := Option.map_eq_some_iff.mp h
        obtain ⟨hex, rest, dotted, hfields⟩ := readGroups_fields hg'
        refine ⟨f :: hex, rest, dotted, ?_, ?_, fun x hx => ?_, hfields.ending⟩
        · rw [hfields.fields, List.cons_append]
        · rw [hfields.groups, List.map_cons, List.cons_append]
        · rcases List.mem_cons.mp hx with rfl | hx
          · exact hf
          · exact hfields.hexadecimal x hx
      next => cases h
    · exact fun he => absurd he (List.cons_ne_nil _ _)

def Miscounted (s : Text) : Prop :=
  ∃ head tail, splitDouble (withoutZone s) = [head, tail] ∧ 4 ≤ (halfFields tail).length ∧ '.' ∈ tail

theorem not_miscounted {s head tail : Text} (hparts : splitDouble (withoutZone s) = [head, tail])
    (hfew : (halfFields tail).length < 4) : ¬ Miscounted s := by
  rintro ⟨head', tail', hparts', hmany, -⟩
  rw [hparts] at hparts'
  cases hparts'
  omega

def field (g : Text) : Text := stripZeros (if g = [] then ['0'] else g)

theorem field_lower {f : Text} (h : isHexField f = true) : field (lower f) = hexText (fieldValue f) := by
  have hne : lower f ≠ [] := by
    simp only [isHexField, decide_eq_true_eq] at h
    simpa [lower] using h.1
  rw [field, if_neg hne, canonical_field h]

variable {fs : List Text}

theorem map_field_lower (h : ∀ f ∈ fs, isHexField f = true) :
    (fs.map lower).map field = (fs.map fieldValue).map hexText := by
  rw [List.map_map, List.map_map]
  exact List.map_congr_left fun f hf => field_lower (h f hf)

theorem take_append_replicate {α : Type*} (l : List α) (x : α) (r r' : List α) {m n : Nat} (hm : 4 ≤ l.length + m) (hn : 4 ≤ l.length + n) :
    (l ++ List.replicate m x ++ r).take 4 = (l ++ List.replicate n x ++ r').take 4 := by
  have hsame : ∀ k, 4 ≤ l.length + k → ∀ t : List α, (l ++ List.replicate k x ++ t).take 4 = (l ++ List.replicate 4 x).take 4 := by
    intro k hk t
    rw [List.take_append_of_le_length (by rw [List.length_append, List.length_replicate]; omega), List.take_append, List.take_append,
      List.take_replicate, List.take_replicate]
    congr 2
    omega
  rw [hsame m hm, hsame n hn]

theorem expandV6_eq (s : Text) : expandV6 s = (match (splitDouble (withoutZone s)).map lower with
    | head :: tail :: _ =>
      halfFields head ++ List.replicate (8 - (halfFields head).length - (halfFields tail).length) ['0'] ++ halfFields tail
    | [head] => halfFields head
    | [] => []).map field := by
  rw [← splitDouble_lower]
  rfl

variable {s : Text} {u : List Nat}

theorem expandV6_whole {whole : Text} {g : List Nat} (hparts : splitDouble (withoutZone s) = [whole])
    (hg : readGroups true (halfFields whole) = some g) (hlength : g.length = 8) : (expandV6 s).take 4 = (g.take 4).map hexText := by
  obtain ⟨hex, rest, dotted, hfields⟩ := readGroups_fields hg
  have hfour : 4 ≤ hex.length := by
    have hsum : g.length = hex.length + dotted.length := by rw [hfields.groups, List.length_append, List.length_map]
    rcases hfields.ending with ⟨-, rfl⟩ | ⟨-, htwo, -⟩
    · rw [List.length_nil] at hsum
      omega
    · omega
  rw [expandV6_eq, hparts]
  simp only [List.map_cons, List.map_nil]
  rw [halfFields_lower, ← List.map_take, hfields.fields, hfields.groups, List.map_append,
    List.take_append_of_le_length (by rwa [List.length_map]), List.take_append_of_le_length (by rwa [List.length_map]),
    ← List.map_take, ← List.map_take]
  exact map_field_lower fun f hf => hfields.hexadecimal f (List.mem_of_mem_take hf)

theorem expandV6_double {head tail : Text} {h t : List Nat} (hparts : splitDouble (withoutZone s) = [head, tail])
    (hh : readGroups false (halfFields head) = some h) (ht : readGroups true (halfFields tail) = some t)
    (hlength : h.length + t.length ≤ 7) (hcount : ¬ Miscounted s) :
    (expandV6 s).take 4 = ((h ++ List.replicate (8 - h.length - t.length) 0 ++ t).take 4).map hexText := by
  obtain ⟨hexh, resth, dottedh, hfh⟩ := readGroups_fields hh
  obtain ⟨hext, restt, dottedt, hft⟩ := readGroups_fields ht
  -- before the double colon nothing is dotted
  obtain ⟨rfl, rfl⟩ := hfh.ending.resolve_right fun he => absurd he.1 (by decide)
  have hheadfields : halfFields head = hexh := by rw [hfh.fields, List.append_nil]
  have hheadgroups : h = hexh.map fieldValue := by rw [hfh.groups, List.append_nil]
  have hzero : field ['0'] = hexText 0 := rfl
  rw [expandV6_eq, hparts]
  simp only [List.map_cons, List.map_nil]
  rw [halfFields_lower, halfFields_lower, List.length_map, List.length_map, hheadfields, hheadgroups, List.length_map]
  rw [hheadgroups, List.length_map] at hlength
  rcases hft.ending with ⟨rfl, rfl⟩ | ⟨-, htwo, d, rfl, hdot⟩
  · have htailfields : halfFields tail = hext := by rw [hft.fields, List.append_nil]
    have htailgroups : t = hext.map fieldValue := by rw [hft.groups, List.append_nil]
    rw [htailfields, htailgroups, List.length_map, List.map_take]
    simp only [List.map_append, map_field_lower hfh.hexadecimal, map_field_lower hft.hexadecimal, List.map_replicate, hzero]
  · have htaillength : t.length = hext.length + 2 := by rw [hft.groups, List.length_append, List.length_map, htwo]
    have hfieldslength : (halfFields tail).length = hext.length + 1 := by rw [hft.fields, List.length_append, List.length_singleton]
    have hfew : (halfFields tail).length < 4 := by
      by_contra hmany
      refine hcount ⟨head, tail, hparts, by omega, ?_⟩
      have hd : d ∈ halfFields tail := by
        rw [hft.fields]
        exact List.mem_append_right _ (List.mem_singleton_self d)
      unfold halfFields at hd
      split at hd
      · cases hd
      · exact mem_of_mem_splitOn hd hdot
    rw [List.map_take]
    simp only [List.map_append, map_field_lower hfh.hexadecimal, List.map_replicate, hzero]
    apply take_append_replicate
    · rw [List.length_map, List.length_map]
      omega
    · rw [List.length_map, List.length_map]
      omega

theorem expandV6_take (h : parseV6 s = some u) (hcount : ¬ Miscounted s) : (expandV6 s).take 4 = (u.take 4).map hexText := by
  unfold parseV6 at h
  split at h
  next => cases h
  next =>
    split at h
    next whole hparts =>
      obtain ⟨g, hg, h⟩ := Option.bind_eq_some_iff.mp h
      obtain ⟨hlength, h⟩ := Option.ite_none_right_eq_some.mp h
      cases h
      exact expandV6_whole hparts hg hlength
    next head tail hparts =>
      obtain ⟨gh, hgh, h⟩ := Option.bind_eq_some_iff.mp h
      obtain ⟨gt, hgt, h⟩ := Option.bind_eq_some_iff.mp h
      obtain ⟨hlength, h⟩ := Option.ite_none_right_eq_some.mp h
      cases h
      exact expandV6_double hparts hgh hgt hlength hcount
    next => cases h

/-! ## What is an IPv6 text -/

theorem mem_splitOn {sep : Char} : ∀ {s : Text} {c : Char}, c ∈ s → c = sep ∨ ∃ f ∈ s.splitOn sep, c ∈ f
  | d :: s, c, hc => by
    rw [List.splitOn_cons_eq_if_modifyHead]
    split
    next hd =>
      rcases List.mem_cons.mp hc with rfl | hc
      · exact .inl (by simpa using hd)
      · exact (mem_splitOn hc).imp_right fun ⟨f, hf, hcf⟩ => ⟨f, List.mem_cons_of_mem _ hf, hcf⟩
    next =>
      have hrest : c ∈ s → c = sep ∨ ∃ f ∈ s.splitOn sep, c ∈ f := fun hc => mem_splitOn hc
      cases hs : s.splitOn sep with
      | nil => exact absurd hs (List.splitOn_ne_nil sep s)
      | cons g gs =>
        rw [hs] at hrest
        rw [List.modifyHead_cons]
        rcases List.mem_cons.mp hc with rfl | hc
        · exact .inr ⟨c :: g, List.mem_cons_self, List.mem_cons_self⟩
        · refine (hrest hc).imp_right fun ⟨f, hf, hcf⟩ => ?_
          rcases List.mem_cons.mp hf with rfl | hf
          · exact ⟨d :: f, List.mem_cons_self, List.mem_cons_of_mem _ hcf⟩
          · exact ⟨f, List.mem_cons_of_mem _ hf, hcf⟩

theorem v4Shape_chars (h : v4Shape d = true) : ∀ c ∈ d, c = '.' ∨ isDigit c = true := by
  simp only [v4Shape, decide_eq_true_eq, List.all_eq_true] at h
  intro c hc
  exact (mem_splitOn hc).imp_right fun ⟨f, hf, hcf⟩ => (h.2 f hf).2.2 c hcf

theorem isV4_shape (h : isV4 d = true) : v4Shape d = true := by
  simp only [isV4, decide_eq_true_eq, List.all_eq_true] at h
  simp only [v4Shape, decide_eq_true_eq, List.all_eq_true]
  refine ⟨h.1, fun f hf => ?_⟩
  have := h.2 f hf
  simp only [isOctet, decide_eq_true_eq, List.all_eq_true] at this
  exact this.1

theorem v4Shape_no_colon (h : v4Shape d = true) : ':' ∉ d := by
  intro hc
  rcases v4Shape_chars h ':' hc with he | he
  · exact absurd he (by decide)
  · exact absurd he (by decide)

theorem splitDouble_no_colon : ∀ {s : Text}, ':' ∉ s → splitDouble s = [s]
  | [], _ => rfl
  | c :: rest, h => by
    rw [List.mem_cons, not_or] at h
    rw [splitDouble, splitDouble_no_colon h.2, List.modifyHead_cons]
    exact fun _ hc _ => absurd hc.symm h.1

theorem readGroups_length {last : Bool} {g : List Nat} (h : readGroups last fs = some g) : g.length ≤ fs.length + 1 := by
  obtain ⟨hex, rest, dotted, hfields⟩ := readGroups_fields h
  rw [hfields.groups, hfields.fields, List.length_append, List.length_append, List.length_map]
  rcases hfields.ending with ⟨rfl, rfl⟩ | ⟨-, htwo, d, rfl, -⟩
  · rw [List.length_nil]
    omega
  · rw [List.length_singleton]
    omega

theorem parseV6_colon (h : parseV6 s = some u) : ':' ∈ s := by
  by_contra hnot
  have hsub : ':' ∉ withoutZone s := fun hc => hnot ((List.takeWhile_sublist _).subset hc)
  unfold parseV6 at h
  split at h
  next => cases h
  next =>
    rw [splitDouble_no_colon hsub] at h
    obtain ⟨g, hg, h⟩ := Option.bind_eq_some_iff.mp h
    obtain ⟨hlength, -⟩ := Option.ite_none_right_eq_some.mp h
    have hle := readGroups_length hg
    have hone : (halfFields (withoutZone s)).length ≤ 1 := by
      unfold halfFields
      split
      · exact Nat.zero_le _
      · rw [List.splitOn_eq_singleton hsub]
        exact Nat.le_refl _
    omega

theorem isIP_v6 (h : parseV6 s = some u) : isIP s = 6 := by
  have hv4 : ¬ isV4 s = true := fun hv => v4Shape_no_colon (isV4_shape hv) (parseV6_colon h)
  rw [isIP, if_neg hv4, h]
  rfl

theorem parseV6_length (h : parseV6 s = some u) : u.length = 8 := by
  unfold parseV6 at h
  split at h
  next => cases h
  next =>
    split at h
    next =>
      obtain ⟨g, -, h⟩ := Option.bind_eq_some_iff.mp h
      obtain ⟨hlength, h⟩ := Option.ite_none_right_eq_some.mp h
      cases h
      exact hlength
    next =>
      obtain ⟨gh, -, h⟩ := Option.bind_eq_some_iff.mp h
      obtain ⟨gt, -, h⟩ := Option.bind_eq_some_iff.mp h
      obtain ⟨hlength, h⟩ := Option.ite_none_right_eq_some.mp h
      cases h
      simp only [List.length_append, List.length_replicate]
      omega
    next => cases h

/-! ## Mapped addresses -/

def Mapped (u : List Nat) : Prop := u.take 6 = [0, 0, 0, 0, 0, 0xffff]

theorem mapped_start {p : Text} (h : lower p = "::ffff:".toList) :
    ∃ f : Text, p = ':' :: ':' :: (f ++ [':']) ∧ isHexField f = true ∧ fieldValue f = 0xffff ∧ '%' ∉ p ∧ ':' ∉ f := by
  have h : p.map Char.toLower = [':', ':', 'f', 'f', 'f', 'f', ':'] := h
  obtain ⟨c₁, p₁, rfl, h₁, h⟩ := List.map_eq_cons_iff.mp h
  obtain ⟨c₂, p₂, rfl, h₂, h⟩ := List.map_eq_cons_iff.mp h
  obtain ⟨f₁, p₃, rfl, h₃, h⟩ := List.map_eq_cons_iff.mp h
  obtain ⟨f₂, p₄, rfl, h₄, h⟩ := List.map_eq_cons_iff.mp h
  obtain ⟨f₃, p₅, rfl, h₅, h⟩ := List.map_eq_cons_iff.mp h
  obtain ⟨f₄, p₆, rfl, h₆, h⟩ := List.map_eq_cons_iff.mp h
  obtain ⟨c₃, p₇, rfl, h₇, h⟩ := List.map_eq_cons_iff.mp h
  obtain rfl := List.map_eq_nil_iff.mp h
  obtain rfl := toLower_eq_colon.mp h₁
  obtain rfl := toLower_eq_colon.mp h₂
  obtain rfl := toLower_eq_colon.mp h₇
  refine ⟨[f₁, f₂, f₃, f₄], rfl, ?_⟩
  rcases eq_f_of_toLower h₃ with rfl | rfl
  all_goals rcases eq_f_of_toLower h₄ with rfl | rfl
  all_goals rcases eq_f_of_toLower h₅ with rfl | rfl
  all_goals rcases eq_f_of_toLower h₆ with rfl | rfl
  all_goals decide

theorem mapped_of_recognized (hm : lower (s.take 7) = "::ffff:".toList) (hd : v4Shape (s.drop 7) = true) (h : parseV6 s = some u) :
    Mapped u := by
  obtain ⟨f, hp, hfield, hvalue, hzone, hcolon⟩ := mapped_start hm
  have hs : s = ':' :: ':' :: (f ++ ':' :: s.drop 7) := by
    conv_lhs => rw [← List.take_append_drop 7 s, hp]
    simp
  have hnoZone : withoutZone s = s := by
    refine List.takeWhile_eq_self_iff.mpr fun c hc => decide_eq_true fun he => ?_
    subst he
    rw [← List.take_append_drop 7 s] at hc
    rcases List.mem_append.mp hc with hc | hc
    · exact hzone hc
    · rcases v4Shape_chars hd '%' hc with hb | hb
      · exact absurd hb (by decide)
      · exact absurd hb (by decide)
  have hdot : s.drop 7 ≠ [] := by
    intro hnil
    rw [hnil] at hd
    exact absurd hd (by decide)
  generalize s.drop 7 = d at *
  have hdcolon := v4Shape_no_colon hd
  -- no second double colon: the field has no colon, and neither has the dotted part
  have hsplit : ∀ f : Text, ':' ∉ f → splitDouble (f ++ ':' :: d) = [f ++ ':' :: d] := by
    intro f hf
    induction f with
    | nil =>
      cases d with
      | nil => exact absurd rfl hdot
      | cons e d =>
        rw [List.mem_cons, not_or] at hdcolon
        rw [List.nil_append, splitDouble, splitDouble_no_colon (by simpa using ⟨hdcolon.1, hdcolon.2⟩), List.modifyHead_cons]
        exact fun _ _ he => absurd (List.cons.inj he).1.symm hdcolon.1
    | cons c f ih =>
      rw [List.mem_cons, not_or] at hf
      rw [List.cons_append, splitDouble, ih hf.2, List.modifyHead_cons]
      exact fun _ hc _ => absurd hc.symm hf.1
  have hparts : splitDouble (withoutZone s) = [[], f ++ ':' :: d] := by
    rw [hnoZone, hs, splitDouble, hsplit f hcolon]
  have htail : halfFields (f ++ ':' :: d) = [f, d] := by
    unfold halfFields
    rw [if_neg (by simp), List.splitOn_append_cons_self_of_not_mem hcolon, List.splitOn_eq_singleton hdcolon]
  unfold parseV6 at h
  split at h
  next => cases h
  next =>
    rw [hparts] at h
    simp only [halfFields, if_true, readGroups, Option.bind_some] at h
    rw [show (if f ++ ':' :: d = [] then [] else (f ++ ':' :: d).splitOn ':') = [f, d] from htail] at h
    obtain ⟨t, ht, h⟩ := Option.bind_eq_some_iff.mp h
    obtain ⟨-, h⟩ := Option.ite_none_right_eq_some.mp h
    cases h
    have hnotHex : ¬ isHexField d = true := by
      intro hhex
      simp only [isHexField, decide_eq_true_eq, List.all_eq_true] at hhex
      refine absurd (hhex.2.2 '.' ?_) (by decide)
      by_contra hnone
      simp only [v4Shape, decide_eq_true_eq, List.splitOn_eq_singleton hnone] at hd
      exact absurd hd.1 (by simp)
    have hlast : readGroups true [d] = if isV4 d then some (v4Groups d) else none := by
      rw [readGroups, if_neg hnotHex, Bool.true_and]
    rw [readGroups, if_pos hfield, hlast, hvalue] at ht
    · obtain ⟨g, hg, rfl⟩ := Option.map_eq_some_iff.mp ht
      obtain ⟨hv, hg⟩ := Option.ite_none_right_eq_some.mp hg
      have htwo : g.length = 2 := by
        rw [← Option.some.inj hg]
        exact v4Groups_length hv
      match g, htwo with
      | [_, _], _ => rfl
    · exact fun he => absurd he (List.cons_ne_nil _ _)

/-! ## The identity -/

theorem identity_v6 (h : parseV6 s = some u) (hgenuine : ¬ Mapped u) (hcount : ¬ Miscounted s) :
    rateLimitIdentity s = [':'].intercalate ((u.take 4).map hexText) ++ "::/64".toList := by
  have hnormal : normalizeAddress s = s := by
    unfold normalizeAddress
    rw [if_neg fun hm => hgenuine (mapped_of_recognized hm.1 hm.2 h)]
  unfold rateLimitIdentity
  simp only [hnormal, isIP_v6 h, ne_eq, not_true_eq_false, if_false, expandV6_take h hcount]

theorem intercalate_hexText_injective {a b : List Nat} (ha : a ≠ []) (hb : b ≠ [])
    (h : [':'].intercalate (a.map hexText) = [':'].intercalate (b.map hexText)) : a = b := by
  have hcolon : ∀ l : List Nat, ∀ t ∈ l.map hexText, ':' ∉ t := by
    intro l t ht hc
    obtain ⟨n, -, rfl⟩ := List.mem_map.mp ht
    obtain ⟨d, hd, he⟩ := mem_hexText hc
    exact (hexChar_spec d hd).2 he.symm
  have hsplit := congrArg (List.splitOn ':') h
  rw [List.splitOn_intercalate ':' (hcolon a) (by simpa using ha), List.splitOn_intercalate ':' (hcolon b) (by simpa using hb)] at hsplit
  exact List.map_injective_iff.mpr hexText_injective hsplit

theorem identity_iff {t : Text} {v : List Nat} (hs : parseV6 s = some u) (ht : parseV6 t = some v) (hu : ¬ Mapped u) (hv : ¬ Mapped v)
    (hcs : ¬ Miscounted s) (hct : ¬ Miscounted t) : rateLimitIdentity s = rateLimitIdentity t ↔ u.take 4 = v.take 4 := by
  rw [identity_v6 hs hu hcs, identity_v6 ht hv hct]
  constructor
  · intro h
    have hne : ∀ w : List Nat, w.length = 8 → w.take 4 ≠ [] := fun w hw hnil => by
      have := congrArg List.length hnil
      rw [List.length_take, hw] at this
      cases this
    exact intercalate_hexText_injective (hne u (parseV6_length hs)) (hne v (parseV6_length ht)) (List.append_cancel_right h)
  · intro h
    rw [h]

theorem identity_v4 {p : Text} (hd : isV4 d = true) (hp : lower p = "::ffff:".toList) :
    rateLimitIdentity d = d ∧ rateLimitIdentity (p ++ d) = d := by
  have hfour : isIP d = 4 := by rw [isIP, if_pos hd]
  have hlength : p.length = 7 := by
    have := congrArg List.length hp
    unfold lower at this
    rwa [List.length_map] at this
  have hplain : normalizeAddress d = d := by
    unfold normalizeAddress
    refine if_neg fun hm => ?_
    obtain ⟨f, hf, -⟩ := mapped_start hm.1
    refine v4Shape_no_colon (isV4_shape hd) ((List.take_sublist 7 d).subset ?_)
    rw [hf]
    exact List.mem_cons_self
  have hmapped : normalizeAddress (p ++ d) = d := by
    unfold normalizeAddress
    rw [← hlength, List.take_left, List.drop_left, if_pos ⟨hp, isV4_shape hd⟩]
  constructor
  · unfold rateLimitIdentity
    simp only [hplain, hfour]
    rfl
  · unfold rateLimitIdentity
    simp only [hmapped, hfour]
    rfl

/-! ## The forwarded chain -/

def forwarded (client : Option Text) (trusted : List Text) : Text :=
  match client with
  | none => [','].intercalate trusted
  | some client => client ++ ',' :: [','].intercalate trusted

def IsEntry (t : Text) : Prop := ',' ∉ t ∧ trimText t ≠ []

def trustedAddress (peer : Text) (trusted : List Text) : Text :=
  match trusted with
  | [] => peer
  | t :: _ => if isIP (stripPort (trimText t)) ≠ 0 then normalizeAddress (stripPort (trimText t)) else peer

theorem chain_trusted {trusted : List Text} (h : ∀ t ∈ trusted, IsEntry t) (hne : trusted ≠ []) (client : Option Text) :
    ∃ others, (((forwarded client trusted).splitOn ',').map trimText).filter (· ≠ []) = others ++ trusted.map trimText := by
  have hentries : (trusted.map trimText).filter (· ≠ []) = trusted.map trimText := by
    refine List.filter_eq_self.mpr fun e he => ?_
    obtain ⟨t, ht, rfl⟩ := List.mem_map.mp he
    exact decide_eq_true (h t ht).2
  have hsplit : ([','].intercalate trusted).splitOn ',' = trusted := List.splitOn_intercalate ',' (fun t ht => (h t ht).1) hne
  cases client with
  | none => exact ⟨[], by rw [forwarded, hsplit, hentries, List.nil_append]⟩
  | some client =>
    refine ⟨((client.splitOn ',').map trimText).filter (· ≠ []), ?_⟩
    rw [forwarded, List.splitOn_append_cons_self, hsplit, List.map_append, List.filter_append, hentries]

variable {remote : Option Text}

theorem clientAddress_trusted {trusted : List Text} (h : ∀ t ∈ trusted, IsEntry t) (hne : trusted ≠ [])
    (client : Option Text) (hlength : utf16Length (String.ofList (forwarded client trusted)) ≤ 2048) :
    clientAddress ⟨remote, some (.text (forwarded client trusted))⟩ trusted.length =
      trustedAddress (Request.peer ⟨remote, none⟩) trusted := by
  obtain ⟨others, hchain⟩ := chain_trusted h hne client
  have hpeer : Request.peer ⟨remote, some (.text (forwarded client trusted))⟩ = Request.peer ⟨remote, none⟩ := rfl
  have hpositive : trusted.length ≠ 0 := fun hzero => hne (List.length_eq_zero_iff.mp hzero)
  unfold clientAddress
  rw [if_neg hpositive]
  simp only [Option.map_some, if_neg (Nat.not_lt.mpr hlength), hchain, hpeer]
  cases trusted with
  | nil => exact absurd rfl hne
  | cons t ts =>
    have hentry : (others ++ (t :: ts).map trimText)[(others ++ (t :: ts).map trimText).length - (t :: ts).length]? = some (trimText t) := by
      rw [List.length_append, List.length_map, Nat.add_sub_cancel, List.getElem?_append_right (Nat.le_refl _), Nat.sub_self]
      rfl
    rw [hentry]
    rfl

theorem clientAddress_oversized {raw : Text} (h : 2048 < utf16Length (String.ofList raw)) (hops : Nat) :
    clientAddress ⟨remote, some (.text raw)⟩ hops = Request.peer ⟨remote, none⟩ := by
  have hpeer : Request.peer ⟨remote, some (.text raw)⟩ = Request.peer ⟨remote, none⟩ := rfl
  unfold clientAddress
  simp only [Option.map_some, if_pos h, hpeer, ite_self]

/-- **One identity for the spellings of an address, the first 64 bits of IPv6, and the trusted end of the chain.** -/
theorem client_identity (s t d p : Text) (u v : List Nat) (remote : Option Text) (trusted : List Text) (client : Option Text) :
    (isV4 d = true → lower p = "::ffff:".toList → rateLimitIdentity d = d ∧ rateLimitIdentity (p ++ d) = d) ∧
    (parseV6 s = some u → parseV6 t = some v → ¬ Mapped u → ¬ Mapped v → ¬ Miscounted s → ¬ Miscounted t →
      (rateLimitIdentity s = rateLimitIdentity t ↔ u.take 4 = v.take 4)) ∧
    ((∀ e ∈ trusted, IsEntry e) → trusted ≠ [] →
      clientAddress ⟨remote, some (.text (forwarded client trusted))⟩ trusted.length =
        if utf16Length (String.ofList (forwarded client trusted)) ≤ 2048 then trustedAddress (Request.peer ⟨remote, none⟩) trusted
        else Request.peer ⟨remote, none⟩) := by
  refine ⟨identity_v4, identity_iff, fun h hne => ?_⟩
  split
  next hlength => exact clientAddress_trusted h hne client hlength
  next hlength => exact clientAddress_oversized (Nat.lt_of_not_le hlength) _

theorem client_identity_network :
    rateLimitIdentity "2001:DB8::1".toList = rateLimitIdentity "2001:0db8:0:0:2::".toList ∧
      rateLimitIdentity "::FFFF:192.0.2.1".toList = "192.0.2.1".toList ∧
      clientAddress ⟨none, some (.text "x,192.0.2.1".toList)⟩ 1 = "192.0.2.1".toList := by
  have h := client_identity "2001:DB8::1".toList "2001:0db8:0:0:2::".toList "192.0.2.1".toList "::FFFF:".toList
    [0x2001, 0xdb8, 0, 0, 0, 0, 0, 1] [0x2001, 0xdb8, 0, 0, 2, 0, 0, 0] none ["192.0.2.1".toList] (some "x".toList)
  have hu : ¬ Mapped [0x2001, 0xdb8, 0, 0, 0, 0, 0, 1] := by
    unfold Mapped
    decide
  have hv : ¬ Mapped [0x2001, 0xdb8, 0, 0, 2, 0, 0, 0] := by
    unfold Mapped
    decide
  have hs := not_miscounted (by decide : splitDouble (withoutZone "2001:DB8::1".toList) = ["2001:DB8".toList, ['1']]) (by decide)
  have ht := not_miscounted (by decide : splitDouble (withoutZone "2001:0db8:0:0:2::".toList) = ["2001:0db8:0:0:2".toList, []])
    (by decide)
  have hentry : ∀ e ∈ ["192.0.2.1".toList], IsEntry e := by
    simp only [List.mem_singleton, forall_eq]
    unfold IsEntry
    decide
  refine ⟨(h.2.1 (by decide) (by decide) hu hv hs ht).mpr rfl, (h.1 (by decide) (by decide)).2, ?_⟩
  have hchain := h.2.2 hentry (by simp)
  rw [if_pos (by decide)] at hchain
  exact hchain

/-- **A long enough client part leaves the peer, and some spellings have another identity.** -/
theorem identities_differ :
    (¬ ∀ (remote : Option Text) (trusted : List Text) (client client' : Option Text), (∀ e ∈ trusted, IsEntry e) → trusted ≠ [] →
      clientAddress ⟨remote, some (.text (forwarded client trusted))⟩ trusted.length =
        clientAddress ⟨remote, some (.text (forwarded client' trusted))⟩ trusted.length) ∧
    rateLimitIdentity "::ffff:c000:0201".toList ≠ rateLimitIdentity "192.0.2.1".toList ∧
    rateLimitIdentity "1:2::3:4:5:1.2.3.4".toList ≠ rateLimitIdentity "1:2:0:3:4:5:102:304".toList := by
  refine ⟨fun h => ?_, by decide, by decide⟩
  have hentry : ∀ e ∈ ["192.0.2.1".toList], IsEntry e := by
    simp only [List.mem_singleton, forall_eq]
    unfold IsEntry
    decide
  have hlong : 2048 < utf16Length (String.ofList (forwarded (some (List.replicate 2048 'x')) ["192.0.2.1".toList])) := by
    refine lt_of_lt_of_le ?_ (length_le_utf16Length _)
    rw [String.length_ofList, forwarded, List.length_append, List.length_replicate]
    decide
  have hpeer := @clientAddress_oversized (some "10.0.0.1".toList) _ hlong 1
  have hplain := @clientAddress_trusted (some "10.0.0.1".toList) ["192.0.2.1".toList] hentry (by simp) none (by decide)
  have hsame := h (some "10.0.0.1".toList) ["192.0.2.1".toList] (some (List.replicate 2048 'x')) none hentry (by simp)
  rw [hplain] at hsame
  exact absurd (hpeer.symm.trans hsame) (by decide)

end NawaraCore.ClientAddress
