import NawaraCore.File.FileName

/-!
# Sanitized names

What the sanitizer gives back is stored by the schema, given back again by the sanitizer, and
read back from the header.
-/

namespace NawaraCore.FileName

/-- What is relied on of the form C: a substring of a normalized text is normalized, a full stop composes with nothing before it, and
no unsafe character is introduced. -/
structure Normalizes (nfc : Name → Name) : Prop where
  idempotent : ∀ s, nfc (nfc s) = nfc s
  substring : ∀ a s b, nfc (a ++ s ++ b) = a ++ s ++ b → nfc s = s
  fullStop : ∀ s rest, nfc (s ++ '.' :: rest) = nfc s ++ nfc ('.' :: rest)
  introduces : ∀ s, (∀ c ∈ s, isUnsafe c = false) → ∀ c ∈ nfc s, isUnsafe c = false

theorem byteLength_append (a b : Name) : byteLength (a ++ b) = byteLength a + byteLength b := by
  simp [byteLength]

theorem utf8Size_le (c : Char) : c.utf8Size ≤ 4 ∧ c.utf8Size ≤ 3 * if c.toNat < 65536 then 1 else 2 := by
  have hsize := Char.utf8Size_le_four c
  refine ⟨hsize, ?_⟩
  by_cases hc : c.toNat < 65536
  · rw [if_pos hc]
    by_contra hgt
    have hfour : c.utf8Size = 4 := by omega
    have hval : (0xffff : UInt32) < c.val := Char.utf8Size_eq_four_iff.mp hfour
    have : 65535 < c.toNat := hval
    omega
  · rw [if_neg hc]
    omega

theorem byteLength_le_utf16 (s : Name) : byteLength s ≤ 3 * utf16Length (String.ofList s) := by
  unfold utf16Length byteLength
  rw [String.toList_ofList]
  induction s with
  | nil => exact Nat.le_refl _
  | cons c s ih =>
    have := (utf8Size_le c).2
    rw [List.map_cons, List.sum_cons, List.map_cons, List.sum_cons]
    omega

theorem byteLength_pos {s : Name} (h : s ≠ []) : 1 ≤ byteLength s := by
  cases s with
  | nil => exact absurd rfl h
  | cons c s =>
    have := Char.utf8Size_pos c
    unfold byteLength
    rw [List.map_cons, List.sum_cons]
    omega

theorem splitLastDot_some : ∀ {s stem extension : Name}, splitLastDot s = some (stem, extension) →
    s = stem ++ extension ∧ ∃ rest, extension = '.' :: rest
  | c :: cs, stem, extension, h => by
    rw [splitLastDot] at h
    split at h
    next before rest hcs =>
      cases h
      obtain ⟨heq, hdot⟩ := splitLastDot_some hcs
      exact ⟨by rw [List.cons_append, ← heq], hdot⟩
    next =>
      split at h
      next hc =>
        cases h
        exact ⟨rfl, cs, by rw [hc]⟩
      next => cases h

theorem fill_spec (budget : Nat) : ∀ (rest stem : Name), byteLength stem ≤ budget →
    ∃ p, fill budget stem rest = stem ++ p ∧ p <+: rest ∧ byteLength (stem ++ p) ≤ budget ∧
      (budget < byteLength (stem ++ rest) → budget < byteLength (stem ++ p) + 4)
  | [], stem, h => ⟨[], by simp [fill], List.nil_prefix, by simpa using h, fun hlt => by simp at hlt; omega⟩
  | c :: rest, stem, h => by
    rw [fill]
    split
    next hlt =>
      refine ⟨[], (List.append_nil _).symm, List.nil_prefix, by simpa using h, fun _ => ?_⟩
      have := (utf8Size_le c).1
      have hone : byteLength [c] = c.utf8Size := by simp [byteLength]
      rw [byteLength_append, hone] at hlt
      rw [List.append_nil]
      omega
    next hle =>
      obtain ⟨p, hfill, hp, hbytes, hfull⟩ := fill_spec budget rest (stem ++ [c]) (Nat.le_of_not_lt hle)
      refine ⟨c :: p, ?_, (List.prefix_cons_inj c).mpr hp, ?_, fun hlt => ?_⟩
      · rw [hfill, List.append_assoc]
        rfl
      · rw [List.append_assoc] at hbytes
        exact hbytes
      · have hmore := hfull (by rw [List.append_assoc]; exact hlt)
        rw [List.append_assoc] at hmore
        exact hmore

/-! ## Safe names -/

variable {c : Char}

section
variable {nfc : Name → Name} {s : Name}

structure SafeName (nfc : Name → Name) (s : Name) : Prop where
  safe : ∀ c ∈ s, isUnsafe c = false
  normal : nfc s = s
  trimmed : Trimmed s
  kept : dropped s = false
  short : byteLength s ≤ FILE_NAME_MAX_BYTES

theorem SafeName.clean (h : SafeName nfc s) : clean nfc s = s := by
  have hfilter : s.filter (fun c => !isUnsafe c) = s := List.filter_eq_self.mpr fun c hc => by rw [h.safe c hc]; rfl
  unfold FileName.clean
  rw [hfilter, h.normal, h.trimmed.trim_eq]

theorem SafeName.sanitize (h : SafeName nfc s) : sanitizeFileName nfc (some s) = some s := by
  unfold sanitizeFileName
  simp only [h.clean, h.kept, h.short, if_true, Bool.false_eq_true, if_false]

theorem safe_parts (h : isUnsafe c = false) :
    (between 0x01 0x1F c || between 0x7F 0x9F c || c == '/' || c == '\\' || between 0x202A 0x202E c || between 0x2066 0x2069 c) = false ∧
      (between 0x61C 0x61C c || between 0x200E 0x200F c || between 0x2028 0x2029 c || between 0xFEFF 0xFEFF c) = false ∧ c.toNat ≠ 0 := by
  simp only [isUnsafe, isControl, isBidiControl, Bool.or_eq_false_iff] at h ⊢
  obtain ⟨⟨⟨⟨⟨⟨hlow, hhigh⟩, ⟨⟨hmark, hmarks⟩, hembed⟩, hisolate⟩, hline⟩, hbom⟩, hslash⟩, hback⟩ := h
  refine ⟨⟨⟨⟨⟨⟨?_, hhigh⟩, hslash⟩, hback⟩, hembed⟩, hisolate⟩, ⟨⟨⟨hmark, hmarks⟩, hline⟩, hbom⟩, ?_⟩
  · simp only [between, decide_eq_false_iff_not] at hlow ⊢
    omega
  · simp only [between, decide_eq_false_iff_not] at hlow
    omega

theorem SafeName.stored (h : SafeName nfc s) : originalNameSafe nfc s = true := by
  have hkept := h.kept
  simp only [dropped, decide_eq_false_iff_not, not_or] at hkept
  unfold originalNameSafe
  simp only [decide_eq_true_eq]
  refine ⟨⟨byteLength_pos hkept.1, h.short⟩, h.normal, fun c hc => ?_, hkept.2, fun c hc => ?_, fun c hc => ?_⟩
  · rw [(safe_parts (h.safe c hc)).1]
    exact Bool.false_ne_true
  · rw [(safe_parts (h.safe c hc)).2.1]
    exact Bool.false_ne_true
  · exact (safe_parts (h.safe c hc)).2.2

variable (hn : Normalizes nfc)
include hn

theorem Normalizes.trim (h : nfc s = s) : nfc (trimText s) = trimText s := by
  obtain ⟨a, b, heq⟩ := trim_infix s
  refine hn.substring a (trimText s) b ?_
  rw [← heq]
  exact h

theorem Normalizes.prefix_normal {p : Name} (hp : p <+: s) (h : nfc s = s) : nfc p = p := by
  obtain ⟨b, rfl⟩ := hp
  exact hn.substring [] p b h

theorem Normalizes.cleaned (raw : Name) :
    (∀ c ∈ clean nfc raw, isUnsafe c = false) ∧ nfc (clean nfc raw) = clean nfc raw ∧ Trimmed (clean nfc raw) := by
  refine ⟨fun c hc => ?_, ?_, trimmed_trim _⟩
  · obtain ⟨a, b, heq⟩ := trim_infix (nfc (raw.filter fun c => !isUnsafe c))
    refine hn.introduces _ (fun c hc => ?_) c (heq ▸ List.mem_append_left _ (List.mem_append_right _ hc))
    simpa using (List.mem_filter.mp hc).2
  · exact hn.trim (hn.idempotent _)

/-! ## Truncation -/

omit hn in
theorem splitExtension_cases (s : Name) : splitExtension s = (s, []) ∨ ∃ stem rest, splitExtension s = (stem, '.' :: rest) ∧
    s = stem ++ '.' :: rest ∧ stem ≠ [] ∧ utf16Length (String.ofList ('.' :: rest)) ≤ 16 := by
  unfold splitExtension
  split
  next stem extension hsplit =>
    obtain ⟨heq, rest, rfl⟩ := splitLastDot_some hsplit
    split
    next hkeep => exact .inr ⟨stem, rest, rfl, heq, hkeep.1, hkeep.2⟩
    next => exact .inl rfl
  next => exact .inl rfl

theorem Normalizes.truncate_plain (h : nfc s = s) (hsplit : splitExtension s = (s, [])) :
    ∃ p, p <+: s ∧ truncate nfc s = trimText p ∧ byteLength p ≤ FILE_NAME_MAX_BYTES := by
  obtain ⟨p, hfill, hp, hbytes, -⟩ := fill_spec FILE_NAME_MAX_BYTES s [] (Nat.zero_le _)
  have hbudget : FILE_NAME_MAX_BYTES - byteLength [] = FILE_NAME_MAX_BYTES := rfl
  refine ⟨p, hp, ?_, hbytes⟩
  unfold truncate
  simp only [hsplit, hbudget, hfill, List.nil_append, List.append_nil]
  rw [hn.prefix_normal hp h]

theorem Normalizes.truncate_extension {stem rest : Name} (h : nfc s = s) (ht : Trimmed s) (hlong : FILE_NAME_MAX_BYTES < byteLength s)
    (hsplit : splitExtension s = (stem, '.' :: rest)) (heq : s = stem ++ '.' :: rest)
    (hunits : utf16Length (String.ofList ('.' :: rest)) ≤ 16) :
    ∃ p, p <+: stem ∧ truncate nfc s = p ++ '.' :: rest ∧ Trimmed (p ++ '.' :: rest) ∧ nfc (p ++ '.' :: rest) = p ++ '.' :: rest ∧
      byteLength (p ++ '.' :: rest) ≤ FILE_NAME_MAX_BYTES ∧ 2 < (p ++ '.' :: rest).length := by
  have hmax : FILE_NAME_MAX_BYTES = 255 := rfl
  have hextension := byteLength_le_utf16 ('.' :: rest)
  have hbytes : byteLength s = byteLength stem + byteLength ('.' :: rest) := by rw [heq, byteLength_append]
  obtain ⟨p, hfill, hp, hfits, hfull⟩ := fill_spec (FILE_NAME_MAX_BYTES - byteLength ('.' :: rest)) stem [] (Nat.zero_le _)
  simp only [List.nil_append] at hfill hfits hfull
  have hfull := hfull (by omega)
  have hlength : byteLength p ≤ 4 * p.length := by
    have hsum : ∀ l : Name, byteLength l ≤ 4 * l.length := by
      intro l
      induction l with
      | nil => exact Nat.le_refl _
      | cons c l ih =>
        have := (utf8Size_le c).1
        unfold byteLength at ih ⊢
        rw [List.map_cons, List.sum_cons, List.length_cons]
        omega
    exact hsum p
  have hnormal : nfc (p ++ '.' :: rest) = p ++ '.' :: rest := by
    rw [heq] at h
    have hprefix : p <+: stem ++ '.' :: rest := hp.trans (List.prefix_append _ _)
    have hsuffix : nfc ('.' :: rest) = '.' :: rest := by
      refine hn.substring stem ('.' :: rest) [] ?_
      rw [List.append_nil]
      exact h
    rw [hn.fullStop, hn.prefix_normal hprefix h, hsuffix]
  have htrimmed : Trimmed (p ++ '.' :: rest) := by
    have hne : p ≠ [] := by
      rintro rfl
      have hzero : byteLength [] = 0 := rfl
      omega
    obtain ⟨q, hq⟩ := hp
    cases p with
    | nil => exact absurd rfl hne
    | cons c p =>
      refine ⟨fun d hd => ht.1 d ?_, fun d hd => ht.2 d ?_⟩
      · rw [heq, ← hq]
        exact hd
      · rw [heq, List.getLast?_append_of_ne_nil _ (List.cons_ne_nil _ _)]
        rwa [List.getLast?_append_of_ne_nil _ (List.cons_ne_nil _ _)] at hd
  refine ⟨p, hp, ?_, htrimmed, hnormal, ?_, ?_⟩
  · unfold truncate
    simp only [hsplit, hfill]
    rw [hnormal, htrimmed.trim_eq]
  · rw [byteLength_append]
    omega
  · rw [List.length_append, List.length_cons]
    omega

omit hn in
theorem not_dropped (h : 2 < s.length) : dropped s = false := by
  simp only [dropped, decide_eq_false_iff_not]
  rintro (rfl | rfl | rfl) <;> simp at h

theorem Normalizes.safe_start {p : Name} (hs : ∀ c ∈ s, isUnsafe c = false) (h : nfc s = s) (hp : p <+: s)
    (hbytes : byteLength p ≤ FILE_NAME_MAX_BYTES) (hkept : dropped (trimText p) = false) : SafeName nfc (trimText p) := by
  obtain ⟨a, b, heq⟩ := trim_infix p
  refine ⟨fun c hc => hs c (hp.subset ?_), hn.trim (hn.prefix_normal hp h), trimmed_trim p, hkept, ?_⟩
  · rw [heq]
    exact List.mem_append_left _ (List.mem_append_right _ hc)
  · rw [heq, byteLength_append, byteLength_append] at hbytes
    omega

theorem Normalizes.sanitized {raw : Option Name} (h : sanitizeFileName nfc raw = some s) : SafeName nfc s := by
  cases raw with
  | none => cases h
  | some raw =>
    obtain ⟨hsafe, hnormal, htrimmed⟩ := hn.cleaned raw
    simp only [sanitizeFileName] at h
    generalize clean nfc raw = cleaned at h hsafe hnormal htrimmed
    split at h
    next => cases h
    next hkept =>
      split at h
      next hshort =>
        cases h
        exact ⟨hsafe, hnormal, htrimmed, by simpa using hkept, hshort⟩
      next hlong =>
        split at h
        next => cases h
        next hkept' =>
          cases h
          have hkept' : dropped (truncate nfc cleaned) = false := by simpa using hkept'
          rcases splitExtension_cases cleaned with hsplit | ⟨stem, rest, hsplit, heq, -, hunits⟩
          · obtain ⟨p, hp, hresult, hbytes⟩ := hn.truncate_plain hnormal hsplit
            rw [hresult] at hkept' ⊢
            exact hn.safe_start hsafe hnormal hp hbytes hkept'
          · obtain ⟨p, hp, hresult, htrim, hnorm, hbytes, -⟩ :=
              hn.truncate_extension hnormal htrimmed (Nat.lt_of_not_le hlong) hsplit heq hunits
            rw [hresult] at hkept' ⊢
            refine ⟨fun c hc => hsafe c ?_, hnorm, htrim, hkept', hbytes⟩
            rw [heq]
            rcases List.mem_append.mp hc with hc | hc
            · exact List.mem_append_left _ (hp.subset hc)
            · exact List.mem_append_right _ hc

theorem Normalizes.keeps_extension {raw stem extension : Name} (hlong : FILE_NAME_MAX_BYTES < byteLength (clean nfc raw))
    (hsplit : splitExtension (clean nfc raw) = (stem, extension)) (hne : extension ≠ []) :
    ∃ p, p <+: stem ∧ sanitizeFileName nfc (some raw) = some (p ++ extension) := by
  obtain ⟨hsafe, hnormal, htrimmed⟩ := hn.cleaned raw
  have hkept : dropped (clean nfc raw) = false := by
    by_contra hd
    simp only [dropped, Bool.not_eq_false, decide_eq_true_eq] at hd
    rcases hd with hd | hd | hd <;> rw [hd] at hlong <;> exact absurd hlong (by decide)
  simp only [sanitizeFileName, hkept, Bool.false_eq_true, if_false]
  generalize clean nfc raw = cleaned at *
  rcases splitExtension_cases cleaned with hplain | ⟨stem', rest, hsplit', heq, -, hunits⟩
  · rw [hplain] at hsplit
    cases hsplit
    exact absurd rfl hne
  · obtain ⟨p, hp, hresult, -, -, -, hlength⟩ := hn.truncate_extension hnormal htrimmed hlong hsplit' heq hunits
    rw [hsplit] at hsplit'
    cases hsplit'
    refine ⟨p, hp, ?_⟩
    rw [if_neg (by omega), hresult, not_dropped hlength]
    rfl

end

/-! ## The encoder -/

theorem attr_plain (h : isAttrChar c = true) : between 0x20 0x7E c = true ∧ c ≠ '"' ∧ c ≠ '%' := by
  have hcases : isLetterOrDigit c = true ∨ c ∈ ['!', '#', '$', '&', '+', '-', '.', '^', '_', (Char.ofNat 0x60), '|', '~'] := by
    simpa only [isAttrChar, Bool.or_eq_true, List.contains_iff_mem] using h
  rcases hcases with hletter | hmem
  · simp only [isLetterOrDigit, between, Bool.or_eq_true, decide_eq_true_eq] at hletter
    refine ⟨?_, ?_, ?_⟩
    · simp only [between, decide_eq_true_eq]
      omega
    · rintro rfl
      have : '"'.toNat = 0x22 := rfl
      omega
    · rintro rfl
      have : '%'.toNat = 0x25 := rfl
      omega
  · have hall : (['!', '#', '$', '&', '+', '-', '.', '^', '_', (Char.ofNat 0x60), '|', '~'].all
        fun d => between 0x20 0x7E d && d ≠ '"' && d ≠ '%') = true := by decide
    simpa [and_assoc] using List.all_eq_true.mp hall c hmem

theorem hexDigit_plain : ∀ n < 16, between 0x20 0x7E (hexDigit n) = true ∧ hexDigit n ≠ '"' ∧ hexValue (hexDigit n) = some n := by
  decide

theorem encodeByte_plain {b : UInt8} (h : c ∈ encodeByte b) : between 0x20 0x7E c = true ∧ c ≠ '"' := by
  have hb := b.toNat_lt
  unfold encodeByte at h
  split at h
  next hattr =>
    obtain rfl := List.mem_singleton.mp h
    exact ⟨(attr_plain hattr.2).1, (attr_plain hattr.2).2.1⟩
  next =>
    have hhigh := hexDigit_plain (b.toNat / 16) (by omega)
    have hlow := hexDigit_plain (b.toNat % 16) (by omega)
    simp only [List.mem_cons, List.not_mem_nil, or_false] at h
    rcases h with rfl | rfl | rfl
    · decide
    · exact ⟨hhigh.1, hhigh.2.1⟩
    · exact ⟨hlow.1, hlow.2.1⟩

theorem toNat_ofNat_ascii : ∀ n < 0x80, (Char.ofNat n).toNat = n := by decide

theorem percentDecode_encodeByte (b : UInt8) (rest : Name) :
    percentDecode (encodeByte b ++ rest) = (percentDecode rest).map (b :: ·) := by
  have hb := b.toNat_lt
  unfold encodeByte
  split
  next hattr =>
    have hplain := (attr_plain hattr.2).2.2
    have hcode : (Char.ofNat b.toNat).toNat = b.toNat := toNat_ofNat_ascii _ hattr.1
    have hcond : ¬ (Char.ofNat b.toNat = '%' ∨ 0x80 ≤ (Char.ofNat b.toNat).toNat) := by
      rw [hcode]
      have := hattr.1
      exact not_or.mpr ⟨hplain, by omega⟩
    rw [List.singleton_append, percentDecode, if_neg hcond, hcode, UInt8.ofNat_toNat]
    exact fun _ _ _ he => absurd he hplain
  next =>
    have hhigh := (hexDigit_plain (b.toNat / 16) (by omega)).2.2
    have hlow := (hexDigit_plain (b.toNat % 16) (by omega)).2.2
    have hbyte : 16 * (b.toNat / 16) + b.toNat % 16 = b.toNat := by omega
    simp only [List.cons_append, List.nil_append, percentDecode, hhigh, hlow, Option.bind_eq_bind, Option.bind_some, hbyte,
      UInt8.ofNat_toNat]
    cases percentDecode rest <;> rfl

theorem percentDecode_encode (bytes : List UInt8) : percentDecode (bytes.flatMap encodeByte) = some bytes := by
  induction bytes with
  | nil => rfl
  | cons b bytes ih => rw [List.flatMap_cons, percentDecode_encodeByte, ih, Option.map_some]

theorem decodeUtf8_utf8 (s : Name) : decodeUtf8 (utf8 s) = some s := by
  have hbytes : (utf8 s).toByteArray = s.utf8Encode := rfl
  unfold decodeUtf8
  rw [hbytes, List.utf8Decode?_utf8Encode]
  rfl

/-! ## The header -/

theorem asciiChar_plain (c : Char) : between 0x20 0x7E (asciiChar c) = true ∧ asciiChar c ≠ '"' := by
  unfold asciiChar
  split
  next h => exact ⟨h.1, h.2.1⟩
  next => decide

theorem strip_append (start : String) (s : Name) : strip start (start.toList ++ s) = some s := by
  unfold strip
  rw [if_pos (List.isPrefixOf_iff_prefix.mpr (List.prefix_append _ _)), List.drop_left]

theorem takeWhile_before {p : Char → Bool} {a b : Name} (ha : ∀ d ∈ a, p d = true) (hc : p c = false) :
    (a ++ c :: b).takeWhile p = a := by
  rw [List.takeWhile_append_of_pos ha, List.takeWhile_cons_of_neg (by rw [hc]; exact Bool.false_ne_true), List.append_nil]

theorem readHeader_build {type fallback extended : Name} (ht : ';' ∉ type) (hf : '"' ∉ fallback) :
    readHeader (type ++ "; filename=\"".toList ++ fallback ++ "\"; filename*=UTF-8''".toList ++ extended) =
      some (type, fallback, extended) := by
  have htype : (type ++ "; filename=\"".toList ++ fallback ++ "\"; filename*=UTF-8''".toList ++ extended).takeWhile (· ≠ ';') = type := by
    have hshape : type ++ "; filename=\"".toList ++ fallback ++ "\"; filename*=UTF-8''".toList ++ extended =
        type ++ ';' :: (" filename=\"".toList ++ fallback ++ "\"; filename*=UTF-8''".toList ++ extended) := by
      simp only [List.append_assoc]
      rfl
    rw [hshape]
    refine takeWhile_before (fun d hd => decide_eq_true fun he => ht (he ▸ hd)) (by decide)
  have hfallback : (fallback ++ ("\"; filename*=UTF-8''".toList ++ extended)).takeWhile (· ≠ '"') = fallback := by
    have hshape : fallback ++ ("\"; filename*=UTF-8''".toList ++ extended) =
        fallback ++ '"' :: ("; filename*=UTF-8''".toList ++ extended) := rfl
    rw [hshape]
    refine takeWhile_before (fun d hd => decide_eq_true fun he => hf (he ▸ hd)) (by decide)
  unfold readHeader
  rw [htype]
  simp only [List.append_assoc, List.drop_left, strip_append, Option.bind_eq_bind, Option.bind_some, hfallback]

theorem disposition_plain (d : Disposition) : (∀ c ∈ d.text, between 0x20 0x7E c = true) ∧ ';' ∉ d.text ∧ d.text.count '"' = 0 := by
  refine ⟨List.all_eq_true.mp ?_, ?_, ?_⟩
  all_goals cases d <;> decide

section
variable {nfc : Name → Name} {s : Name}

theorem contentDisposition_plain (d : Disposition) (originalName : Option Name) (m : FileMediaType) :
    (∀ c ∈ contentDisposition nfc d originalName m, between 0x20 0x7E c = true) ∧
      (contentDisposition nfc d originalName m).count '"' = 2 := by
  obtain ⟨hd, -, hdcount⟩ := disposition_plain d
  have hencoded : ∀ c ∈ (utf8 (shownName nfc originalName m)).flatMap encodeByte, between 0x20 0x7E c = true ∧ c ≠ '"' := by
    intro c hc
    obtain ⟨b, -, hb⟩ := List.mem_flatMap.mp hc
    exact encodeByte_plain hb
  have hascii : ∀ c ∈ (shownName nfc originalName m).map asciiChar, between 0x20 0x7E c = true ∧ c ≠ '"' := by
    intro c hc
    obtain ⟨a, -, rfl⟩ := List.mem_map.mp hc
    exact asciiChar_plain a
  have hfirst : (∀ c ∈ "; filename=\"".toList, between 0x20 0x7E c = true) ∧ "; filename=\"".toList.count '"' = 1 :=
    ⟨List.all_eq_true.mp (by decide), by decide⟩
  have hsecond : (∀ c ∈ "\"; filename*=UTF-8''".toList, between 0x20 0x7E c = true) ∧ "\"; filename*=UTF-8''".toList.count '"' = 1 :=
    ⟨List.all_eq_true.mp (by decide), by decide⟩
  constructor
  · intro c hc
    simp only [contentDisposition, List.mem_append] at hc
    rcases hc with (((hc | hc) | hc) | hc) | hc
    · exact hd c hc
    · exact hfirst.1 c hc
    · exact (hascii c hc).1
    · exact hsecond.1 c hc
    · exact (hencoded c hc).1
  · have hnone : ∀ l : Name, (∀ c ∈ l, between 0x20 0x7E c = true ∧ c ≠ '"') → l.count '"' = 0 := fun l hl =>
      List.count_eq_zero.mpr fun hm => (hl '"' hm).2 rfl
    simp only [contentDisposition, List.count_append, hdcount, hfirst.2, hsecond.2, hnone _ hascii, hnone _ hencoded]

theorem SafeName.shown (h : SafeName nfc s) (m : FileMediaType) : shownName nfc (some s) m = s := by
  unfold shownName
  simp only [Option.getD_some, h.clean, h.kept, Bool.false_eq_true, if_false]

/-- **Sanitized names are stored, sanitized again to themselves, and read back from the header.** -/
theorem sanitized_names (hn : Normalizes nfc) (raw : Option Name) :
    (∀ s, sanitizeFileName nfc raw = some s →
      originalNameSafe nfc s = true ∧ sanitizeFileName nfc (some s) = some s ∧
      ∀ (d : Disposition) (m : FileMediaType),
        (∀ c ∈ contentDisposition nfc d (some s) m, between 0x20 0x7E c = true) ∧
        (contentDisposition nfc d (some s) m).count '"' = 2 ∧
        ∃ extended, readHeader (contentDisposition nfc d (some s) m) = some (d.text, s.map asciiChar, extended) ∧
          (percentDecode extended).bind decodeUtf8 = some s) ∧
    ∀ text stem extension, raw = some text → FILE_NAME_MAX_BYTES < byteLength (clean nfc text) →
      splitExtension (clean nfc text) = (stem, extension) → extension ≠ [] →
      ∃ p, p <+: stem ∧ sanitizeFileName nfc raw = some (p ++ extension) := by
  refine ⟨fun s hs => ?_, fun text stem extension hraw hlong hsplit hne => ?_⟩
  · have hsafe := hn.sanitized hs
    refine ⟨hsafe.stored, hsafe.sanitize, fun d m => ?_⟩
    obtain ⟨hprintable, hquotes⟩ := @contentDisposition_plain nfc d (some s) m
    refine ⟨hprintable, hquotes, (utf8 s).flatMap encodeByte, ?_, ?_⟩
    · unfold contentDisposition
      rw [hsafe.shown m]
      refine readHeader_build (disposition_plain d).2.1 fun hq => ?_
      obtain ⟨c, -, hc⟩ := List.mem_map.mp hq
      exact (asciiChar_plain c).2 hc
    · rw [percentDecode_encode, Option.bind_some, decodeUtf8_utf8]
  · subst hraw
    exact hn.keeps_extension hlong hsplit hne

/-- Among ASCII texts the form C is the text itself. -/
theorem sanitized_names_report :
    originalNameSafe id "report.pdf".toList = true ∧ sanitizeFileName id (some "report.pdf".toList) = some "report.pdf".toList := by
  have hn : Normalizes id := ⟨fun _ => rfl, fun _ _ _ _ => rfl, fun _ _ => rfl, fun _ h => h⟩
  have hs : sanitizeFileName id (some " re/port.pdf ".toList) = some "report.pdf".toList := by decide
  have h := (sanitized_names hn (some " re/port.pdf ".toList)).1 "report.pdf".toList hs
  exact ⟨h.1, h.2.1⟩

end

end NawaraCore.FileName
