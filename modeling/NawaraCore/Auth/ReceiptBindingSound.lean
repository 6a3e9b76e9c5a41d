import NawaraCore.Auth.ReceiptBinding

/-!
# A binding's text names its fields

Every field that a parser accepts is plain text, a safe integer or a boolean, so the canonical
text of a binding gives its fields back.
-/

namespace NawaraCore.Receipts

open NawaraCore.Json

variable {s : Text}

theorem isUuid_plain (h : isUuid s = true) : ∀ c ∈ s, plainChar c = true := by
  refine isShape_all h fun p hp c hc => ?_
  obtain ⟨d, hd, rfl⟩ := List.mem_map.mp hp
  have hpicture : ∀ d ∈ "hhhhhhhh-hhhh-hhhh-hhhh-hhhhhhhhhhhh".toList, d = 'h' ∨ d = '-' := by simp
  rcases hpicture d hd with rfl | rfl
  · simp only [if_true, isHexLower, isDigit, Bool.or_eq_true, Bool.and_eq_true, decide_eq_true_eq] at hc
    exact plainChar_iff.mpr (by omega)
  · have hdash : c = 45 := by simpa using hc
    exact hdash ▸ rfl

theorem isCurrency_plain (h : isCurrency s = true) : ∀ c ∈ s, plainChar c = true := by
  intro c hc
  simp only [isCurrency, Bool.and_eq_true, List.all_eq_true] at h
  have hu := h.2 c hc
  simp only [isUpper, Bool.and_eq_true, decide_eq_true_eq] at hu
  exact plainChar_iff.mpr (by omega)

theorem wordChar_plain {c : Nat} (h : wordChar c = true) : plainChar c = true := by
  simp only [wordChar, Bool.or_eq_true] at h
  rcases h with (h | h) | h
  · simp only [isLower, Bool.and_eq_true, decide_eq_true_eq] at h
    exact plainChar_iff.mpr (by omega)
  · simp only [isDigit, Bool.and_eq_true, decide_eq_true_eq] at h
    exact plainChar_iff.mpr (by omega)
  · have hdash : c = 95 := by simpa [oneOf, codes] using h
    exact hdash ▸ rfl

theorem isReason_plain (h : isReason s = true) : ∀ c ∈ s, plainChar c = true := by
  obtain ⟨c, cs, rfl, hhead, htail, -, -⟩ := isToken_iff.mp h
  intro d hd
  rcases List.mem_cons.mp hd with rfl | hd
  · exact wordChar_plain (by simp [wordChar, hhead])
  · exact wordChar_plain (htail d hd)

def FieldType.plain : FieldType → Bool
  | .oneOf values => values.all fun value => (codes value).all plainChar
  | _ => true

variable {j : Json}

theorem accepts_flat {t : FieldType} {k : Text} (ht : t.plain = true) (hk : ∀ c ∈ k, plainChar c = true) (h : t.accepts j = true) : FlatMember (k, j) := by
  have hstr : ∀ s : Text, (∀ c ∈ s, plainChar c = true) → FlatMember (k, .str s) := fun s hs => ⟨hk, .str hs, rfl, rfl⟩
  unfold FieldType.accepts at h
  split at h
  · exact hstr _ (isUuid_plain h)
  · exact ⟨hk, .int _, rfl, rfl⟩
  · exact hstr _ (isCurrency_plain h)
  · exact hstr _ (isReason_plain h)
  · obtain ⟨value, hv, he⟩ := List.any_eq_true.mp h
    obtain rfl := of_decide_eq_true he
    exact hstr _ (List.all_eq_true.mp (List.all_eq_true.mp ht value hv))
  · exact ⟨hk, .bool _, rfl, rfl⟩
  · cases h

def ReceiptOperation.names (op : ReceiptOperation) : List String := "operation" :: "audience" :: op.fields.map Prod.fst ++ op.optional

theorem names_nodup (op : ReceiptOperation) : op.names.Nodup := by
  cases op <;> decide

theorem names_plain (op : ReceiptOperation) : ∀ name ∈ op.names, ∀ c ∈ codes name, plainChar c = true := by
  cases op <;> decide

theorem types_plain (op : ReceiptOperation) : ∀ f ∈ op.fields, f.2.plain = true := by
  cases op <;> decide

theorem name_plain (op : ReceiptOperation) : (∀ c ∈ codes op.name, plainChar c = true) ∧ ∀ c ∈ codes op.audience, plainChar c = true := by
  cases op <;> decide

theorem name_injective {op op' : ReceiptOperation} (h : op.name = op'.name) : op = op' := by
  cases op <;> cases op' <;> first | rfl | exact absurd h (by decide)

/-! ## What a parser reads -/

variable {fields : Fields} {value : Value} {b : ReceiptBinding}
variable {k : String}

section
variable {v : Record} {op : ReceiptOperation} {ms : Members}

theorem get_json (h : v.get k = .json j) : v.properties.lookup (codes k) = some (.json j) := by
  unfold Record.get at h
  cases hl : v.properties.lookup (codes k) with
  | none =>
    rw [hl] at h
    cases h
  | some p =>
    rw [hl] at h
    exact congrArg some h

theorem is_iff {s : String} : v.is k s = true ↔ v.get k = .json (.str (codes s)) := by
  unfold Record.is
  split
  · rename_i t ht
    rw [ht, decide_eq_true_eq]
    exact ⟨fun h => by rw [h], fun h => by injection h with h; injection h⟩
  · rename_i hno
    exact ⟨nofun, fun h => absurd h (hno _)⟩

variable {f : String × FieldType} {m : Text × Json}

theorem readField_some : readField v f = some m ↔ m.1 = codes f.1 ∧ v.get f.1 = .json m.2 ∧ f.2.accepts m.2 = true := by
  unfold readField
  split
  · rename_i j hj
    rw [hj]
    constructor
    · intro h
      split at h
      · rename_i ha
        obtain rfl := Option.some.inj h
        exact ⟨rfl, rfl, ha⟩
      · cases h
    · rintro ⟨hk, hv, ha⟩
      injection hv with hv
      rw [if_pos (hv ▸ ha), hv, ← hk]
  · rename_i hno
    exact ⟨nofun, fun h => absurd h.2.1 (hno _)⟩

theorem readFields_some : readFields v fields = some ms ↔ List.Forall₂ (fun f m => readField v f = some m) fields ms := by
  induction fields generalizing ms with
  | nil =>
    rw [readFields]
    exact ⟨fun h => Option.some.inj h ▸ .nil, fun h => by cases h; rfl⟩
  | cons f fields ih =>
    rw [readFields]
    constructor
    · intro h
      split at h
      · rename_i m ms' hm hms
        obtain rfl := Option.some.inj h
        exact .cons hm (ih.mp hms)
      · cases h
    · intro h
      cases h with
      | cons hm hms => rw [hm, ih.mpr hms]

structure Accepts (op : ReceiptOperation) (v : Record) : Prop where
  known : ∀ p ∈ v.properties, ∃ name ∈ op.names, codes name = p.1
  operation : v.get "operation" = .json (.str (codes op.name))
  audience : v.get "audience" = .json (.str (codes op.audience))
  fields : ∀ f ∈ op.fields, ∃ j, v.get f.1 = .json j ∧ f.2.accepts j = true
  legalOverride : op = .refund → v.get "legalOverride" = .undefined ∨ ∃ b, v.get "legalOverride" = .json (.bool b)
  captureFactId : op = .refund → v.has "captureFactId" = true → ∃ j, v.get "captureFactId" = .json j ∧ FieldType.uuid.accepts j = true

def parseAs (op : ReceiptOperation) (v : Record) : Option ReceiptBinding := if op = .refund then parseRefund v else parseExact op v

theorem parseBinding_as (h : v.is "operation" op.name = true) : parseBinding (.record v) = parseAs op v := by
  have his : ∀ s, v.is "operation" s = decide (codes op.name = codes s) := fun s => by
    unfold Record.is
    rw [is_iff.mp h]
  unfold parseBinding parseFraudHold parseRecoveryRestriction
  simp only [his]
  cases op <;> rfl

theorem parseFields_some : parseFields op v = some ms ↔
    (exactFields v ("operation" :: "audience" :: op.fields.map Prod.fst) op.optional = true ∧ v.is "operation" op.name = true ∧ v.is "audience" op.audience = true) ∧
      List.Forall₂ (fun f m => readField v f = some m) op.fields ms := by
  unfold parseFields
  rw [← readFields_some]
  split
  · rename_i h
    exact ⟨fun hm => ⟨h, hm⟩, fun hm => hm.2⟩
  · rename_i h
    exact ⟨nofun, fun hm => absurd hm.1 h⟩

theorem legalOverride_some : legalOverride v = some j ↔
    (v.get "legalOverride" = .undefined ∧ j = .bool false) ∨ ∃ b, v.get "legalOverride" = .json (.bool b) ∧ j = .bool b := by
  unfold legalOverride
  split
  · rename_i h
    rw [h]
    exact ⟨fun he => .inl ⟨rfl, (Option.some.inj he).symm⟩, fun he => by rcases he with ⟨-, rfl⟩ | ⟨b, hb, -⟩ <;> [rfl; cases hb]⟩
  · rename_i b h
    rw [h]
    refine ⟨fun he => .inr ⟨b, rfl, (Option.some.inj he).symm⟩, fun he => ?_⟩
    rcases he with ⟨hu, -⟩ | ⟨b', hb, rfl⟩
    · cases hu
    · cases hb
      rfl
  · rename_i h₁ h₂
    refine ⟨nofun, fun he => ?_⟩
    rcases he with ⟨hu, -⟩ | ⟨b, hb, -⟩
    · exact absurd hu h₁
    · exact absurd hb (h₂ b)

theorem captureFact_some {ms : Members} : captureFact v = some ms ↔
    (v.has "captureFactId" = false ∧ ms = []) ∨ ∃ m, v.has "captureFactId" = true ∧ readField v ("captureFactId", .uuid) = some m ∧ ms = [m] := by
  unfold captureFact
  cases hh : v.has "captureFactId" with
  | false =>
    rw [if_neg Bool.false_ne_true]
    refine ⟨fun h => .inl ⟨rfl, (Option.some.inj h).symm⟩, fun h => ?_⟩
    rcases h with ⟨-, rfl⟩ | ⟨m, h, -⟩
    · rfl
    · cases h
  | true =>
    rw [if_pos rfl, Option.map_eq_some_iff]
    refine ⟨fun ⟨m, hm, he⟩ => .inr ⟨m, rfl, hm, he.symm⟩, fun h => ?_⟩
    rcases h with ⟨h, -⟩ | ⟨m, -, hm, rfl⟩
    · cases h
    · exact ⟨m, hm, rfl⟩

inductive Extras (v : Record) : ReceiptOperation → Members → Prop
  | none {op : ReceiptOperation} (h : op ≠ .refund) : Extras v op []
  | refund {j : Json} {ms : Members} (hl : legalOverride v = some j) (hc : captureFact v = some ms) : Extras v .refund ((codes "legalOverride", j) :: ms)

theorem parseAs_some : parseAs op v = some b ↔
    b.operation = op ∧ ∃ ms extra, parseFields op v = some ms ∧ Extras v op extra ∧ b.fields = ms ++ extra := by
  obtain ⟨op', fields⟩ := b
  unfold parseAs
  split
  · rename_i hop
    subst hop
    unfold parseRefund
    constructor
    · intro h
      split at h
      · rename_i ms j ms' hms hj hms'
        cases h
        exact ⟨rfl, ms, _, hms, .refund hj hms', rfl⟩
      · cases h
    · rintro ⟨rfl, ms, extra, hms, hx, rfl⟩
      cases hx with
      | none h => exact absurd rfl h
      | refund hl hc => rw [hms, hl, hc]
  · rename_i hop
    unfold parseExact
    rw [Option.map_eq_some_iff]
    constructor
    · rintro ⟨ms, hms, he⟩
      cases he
      exact ⟨rfl, fields, [], hms, .none hop, (List.append_nil fields).symm⟩
    · rintro ⟨rfl, ms, extra, hms, hx, rfl⟩
      cases hx with
      | none h => exact ⟨_, hms, by rw [List.append_nil]⟩
      | refund hl hc => exact absurd rfl hop

/-- A field of the request as the binding takes it: a refund's legal override is `false` unless given. -/
def Record.field (v : Record) (k : Text) : Option Json :=
  match v.properties.lookup k with
  | some (.json j) => some j
  | _ => if v.is "operation" "refund" ∧ k = codes "legalOverride" then some (.bool false) else none

theorem field_json (h : v.get k = .json j) : v.field (codes k) = some j := by
  unfold Record.field
  rw [get_json h]

theorem field_undefined (ho : v.is "operation" "refund" = true) (h : v.get "legalOverride" = .undefined) : v.field (codes "legalOverride") = some (.bool false) := by
  unfold Record.field
  split
  · rename_i j hj
    unfold Record.get at h
    rw [hj] at h
    cases h
  · exact if_pos ⟨ho, rfl⟩

section
variable (h : List.Forall₂ (fun f m => readField v f = some m) fields ms)
include h

theorem read_fields (hm : m ∈ ms) :
    ∃ f ∈ fields, m.1 = codes f.1 ∧ v.get f.1 = .json m.2 ∧ f.2.accepts m.2 = true := by
  induction h with
  | nil => cases hm
  | cons hr _ ih =>
    rcases List.mem_cons.mp hm with rfl | hm
    · exact ⟨_, List.mem_cons_self, readField_some.mp hr⟩
    · obtain ⟨f, hf, hrest⟩ := ih hm
      exact ⟨f, List.mem_cons_of_mem _ hf, hrest⟩

theorem fields_read (hf : f ∈ fields) :
    ∃ m ∈ ms, m.1 = codes f.1 ∧ v.get f.1 = .json m.2 ∧ f.2.accepts m.2 = true := by
  induction h with
  | nil => cases hf
  | cons hr _ ih =>
    rcases List.mem_cons.mp hf with rfl | hf
    · exact ⟨_, List.mem_cons_self, readField_some.mp hr⟩
    · obtain ⟨m, hm, hrest⟩ := ih hf
      exact ⟨m, List.mem_cons_of_mem _ hm, hrest⟩

theorem read_names : ms.map Prod.fst = (fields.map Prod.fst).map codes := by
  induction h with
  | nil => rfl
  | cons hr _ ih => rw [List.map_cons, List.map_cons, List.map_cons, (readField_some.mp hr).1, ih]

end

/-! ## What a binding holds -/

theorem get_has (h : v.get k = .json j) : v.has k = true := by
  unfold Record.has
  rw [get_json h]
  rfl

theorem extras_read {extra : Members} (ho : v.is "operation" op.name = true) (h : Extras v op extra) :
    (∃ opt : List String, opt.Sublist op.optional ∧ extra.map Prod.fst = opt.map codes) ∧ ∀ m ∈ extra, v.field m.1 = some m.2 ∧ FlatMember m := by
  cases h with
  | none h => exact ⟨⟨[], List.nil_sublist _, rfl⟩, nofun⟩
  | @refund j ms hl hc =>
    have hover : v.field (codes "legalOverride") = some j ∧ FlatMember (codes "legalOverride", j) := by
      have hkey := names_plain .refund "legalOverride" (by decide)
      rcases legalOverride_some.mp hl with ⟨hu, rfl⟩ | ⟨b, hb, rfl⟩
      · exact ⟨field_undefined ho hu, hkey, .bool _, rfl, rfl⟩
      · exact ⟨field_json hb, hkey, .bool _, rfl, rfl⟩
    rcases captureFact_some.mp hc with ⟨-, rfl⟩ | ⟨m, -, hm, rfl⟩
    · refine ⟨⟨["legalOverride"], by decide, rfl⟩, fun m hm => ?_⟩
      rw [List.mem_singleton.mp hm]
      exact hover
    · obtain ⟨k, j'⟩ := m
      obtain ⟨rfl, hget, ha⟩ := readField_some.mp hm
      refine ⟨⟨["legalOverride", "captureFactId"], by decide, rfl⟩, fun m hm => ?_⟩
      rcases List.mem_cons.mp hm with rfl | hm
      · exact hover
      · rw [List.mem_singleton.mp hm]
        exact ⟨field_json hget, accepts_flat rfl (names_plain .refund "captureFactId" (by decide)) ha⟩

theorem members_keys (h : parseAs op v = some b) : (b.members.map Prod.fst).Nodup := by
  obtain ⟨rfl, ms, extra, hms, hx, he⟩ := parseAs_some.mp h
  obtain ⟨⟨-, ho, -⟩, hread⟩ := parseFields_some.mp hms
  obtain ⟨⟨opt, hsub, hopt⟩, -⟩ := extras_read ho hx
  have hkeys : b.members.map Prod.fst = ("operation" :: "audience" :: b.operation.fields.map Prod.fst ++ opt).map codes := by
    rw [ReceiptBinding.members, he, List.map_cons, List.map_cons, List.map_append, read_names hread, hopt, ← List.map_append]
    rfl
  rw [hkeys]
  refine List.Nodup.map (fun a b he => codes_injective he) ((names_nodup b.operation).sublist ?_)
  exact List.Sublist.append (List.Sublist.refl _) hsub

theorem members_read (h : parseAs op v = some b) : ∀ m ∈ b.members, v.field m.1 = some m.2 ∧ FlatMember m := by
  obtain ⟨rfl, ms, extra, hms, hx, he⟩ := parseAs_some.mp h
  obtain ⟨⟨-, ho, haud⟩, hread⟩ := parseFields_some.mp hms
  have hname := name_plain b.operation
  have hkey := names_plain b.operation
  intro m hm
  rw [ReceiptBinding.members, he] at hm
  rcases List.mem_cons.mp hm with rfl | hm
  · exact ⟨field_json (is_iff.mp ho), hkey "operation" List.mem_cons_self, .str hname.1, rfl, rfl⟩
  · rcases List.mem_cons.mp hm with rfl | hm
    · exact ⟨field_json (is_iff.mp haud), hkey "audience" (List.mem_cons_of_mem _ List.mem_cons_self), .str hname.2, rfl, rfl⟩
    · rcases List.mem_append.mp hm with hm | hm
      · obtain ⟨k, j⟩ := m
        obtain ⟨f, hf, rfl, hget, ha⟩ := read_fields hread hm
        refine ⟨field_json hget, accepts_flat (types_plain _ f hf) (hkey f.1 ?_) ha⟩
        exact List.mem_cons_of_mem _ (List.mem_cons_of_mem _ (List.mem_append_left _ (List.mem_map_of_mem hf)))
      · exact (extras_read ho hx).2 m hm

theorem known_names (h : exactFields v ("operation" :: "audience" :: op.fields.map Prod.fst) op.optional = true) {p : Text × Property} (hp : p ∈ v.properties) :
    ∃ name ∈ op.names, codes name = p.1 := by
  unfold exactFields at h
  rw [Bool.and_eq_true, List.all_eq_true] at h
  obtain ⟨name, hname, he⟩ := List.any_eq_true.mp (h.1 p hp)
  exact ⟨name, hname, of_decide_eq_true he⟩

theorem field_member (h : parseAs op v = some b) {k : Text} (hf : v.field k = some j) : k ∈ b.members.map Prod.fst := by
  obtain ⟨rfl, ms, extra, hms, hx, he⟩ := parseAs_some.mp h
  obtain ⟨⟨hexact, ho, haud⟩, hread⟩ := parseFields_some.mp hms
  have hlegal : b.operation = .refund → codes "legalOverride" ∈ b.members.map Prod.fst := by
    intro hop
    rw [ReceiptBinding.members, he]
    generalize b.operation = op at hop hx
    cases hx with
    | none hne => exact absurd hop hne
    | refund hl hc => simp
  have hnamed : ∀ name ∈ b.operation.names, v.properties.lookup (codes name) = some (.json j) → codes name ∈ b.members.map Prod.fst := by
    intro name hname hl
    rw [ReceiptOperation.names] at hname
    rcases List.mem_append.mp hname with hname | hopt
    · rcases List.mem_cons.mp hname with rfl | hname
      · exact List.mem_map_of_mem List.mem_cons_self
      · rcases List.mem_cons.mp hname with rfl | hname
        · exact List.mem_map_of_mem (List.mem_cons_of_mem _ List.mem_cons_self)
        · obtain ⟨f, hfield, rfl⟩ := List.mem_map.mp hname
          obtain ⟨m, hm, hk, -⟩ := fields_read hread hfield
          refine List.mem_map.mpr ⟨m, ?_, hk⟩
          rw [ReceiptBinding.members, he]
          exact List.mem_cons_of_mem _ (List.mem_cons_of_mem _ (List.mem_append_left _ hm))
    · -- an optional name that is given
      have hhas : v.has name = true := by
        unfold Record.has
        rw [hl]
        rfl
      rw [ReceiptBinding.members, he]
      generalize b.operation = op at hopt hx
      cases hx with
      | none hne =>
        cases op <;> first | exact absurd rfl hne | cases hopt
      | refund hlo hc =>
        simp only [ReceiptOperation.optional, List.mem_cons, List.not_mem_nil, or_false] at hopt
        rcases hopt with rfl | rfl
        · simp
        · rcases captureFact_some.mp hc with ⟨hno, -⟩ | ⟨m, -, hm, rfl⟩
          · rw [hhas] at hno
            cases hno
          · simp [(readField_some.mp hm).1]
  unfold Record.field at hf
  split at hf
  · rename_i j' hl
    obtain rfl := Option.some.inj hf
    obtain ⟨l₁, l₂, hp, -⟩ := List.lookup_eq_some_iff.mp hl
    obtain ⟨name, hname, rfl⟩ := known_names hexact (p := (k, .json j')) (by rw [hp]; exact List.mem_append_right _ List.mem_cons_self)
    exact hnamed name hname hl
  · split at hf
    · rename_i hdefault
      obtain ⟨hrefund, rfl⟩ := hdefault
      refine hlegal (name_injective ?_)
      have heq := (is_iff.mp ho).symm.trans (is_iff.mp hrefund)
      injection heq with heq
      injection heq with heq
      exact codes_injective heq
    · cases hf

theorem members_field (h : parseAs op v = some b) (k : Text) : b.members.lookup k = v.field k := by
  refine Option.ext fun j => ?_
  rw [lookup_some_iff (members_keys h)]
  refine ⟨fun hm => (members_read h _ hm).1, fun hf => ?_⟩
  obtain ⟨m, hm, rfl⟩ := List.mem_map.mp (field_member h hf)
  have hsame := (members_read h m hm).1
  rw [hf] at hsame
  exact Option.some.inj hsame ▸ hm

/-! ## Strictness -/

theorem accepts_of (h : parseAs op v = some b) : Accepts op v := by
  obtain ⟨rfl, ms, extra, hms, hx, -⟩ := parseAs_some.mp h
  obtain ⟨⟨hexact, ho, haud⟩, hread⟩ := parseFields_some.mp hms
  refine ⟨fun p hp => known_names hexact hp, is_iff.mp ho, is_iff.mp haud, fun f hf => ?_, fun hop => ?_, fun hop hhas => ?_⟩
  · obtain ⟨m, -, -, hget, ha⟩ := fields_read hread hf
    exact ⟨m.2, hget, ha⟩
  · generalize b.operation = op at hop hx
    cases hx with
    | none hne => exact absurd hop hne
    | refund hl hc =>
      rcases legalOverride_some.mp hl with ⟨hu, -⟩ | ⟨b, hb, -⟩
      · exact .inl hu
      · exact .inr ⟨b, hb⟩
  · generalize b.operation = op at hop hx
    cases hx with
    | none hne => exact absurd hop hne
    | refund hl hc =>
      rcases captureFact_some.mp hc with ⟨hno, -⟩ | ⟨m, -, hm, -⟩
      · rw [hhas] at hno
        cases hno
      · exact ⟨m.2, (readField_some.mp hm).2⟩

theorem of_accepts (h : Accepts op v) : ∃ b, parseAs op v = some b := by
  have hexact : exactFields v ("operation" :: "audience" :: op.fields.map Prod.fst) op.optional = true := by
    unfold exactFields
    rw [Bool.and_eq_true, List.all_eq_true, List.all_eq_true]
    refine ⟨fun p hp => ?_, fun name hname => ?_⟩
    · obtain ⟨name, hname, he⟩ := h.known p hp
      exact List.any_eq_true.mpr ⟨name, hname, decide_eq_true he⟩
    · rcases List.mem_cons.mp hname with rfl | hname
      · exact get_has h.operation
      · rcases List.mem_cons.mp hname with rfl | hname
        · exact get_has h.audience
        · obtain ⟨f, hf, rfl⟩ := List.mem_map.mp hname
          obtain ⟨j, hj, -⟩ := h.fields f hf
          exact get_has hj
  have hread : ∃ ms, List.Forall₂ (fun f m => readField v f = some m) op.fields ms := by
    have hfields := h.fields
    generalize op.fields = fields at hfields
    induction fields with
    | nil => exact ⟨[], .nil⟩
    | cons f fields ih =>
      obtain ⟨j, hj, ha⟩ := hfields f List.mem_cons_self
      obtain ⟨ms, hms⟩ := ih fun g hg => hfields g (List.mem_cons_of_mem _ hg)
      exact ⟨(codes f.1, j) :: ms, .cons (readField_some.mpr ⟨rfl, hj, ha⟩) hms⟩
  obtain ⟨ms, hms⟩ := hread
  have hparse := parseFields_some.mpr ⟨⟨hexact, is_iff.mpr h.operation, is_iff.mpr h.audience⟩, hms⟩
  by_cases hop : op = .refund
  · subst hop
    have hlegal : ∃ j, legalOverride v = some j := by
      rcases h.legalOverride rfl with hu | ⟨b, hb⟩
      · exact ⟨_, legalOverride_some.mpr (.inl ⟨hu, rfl⟩)⟩
      · exact ⟨_, legalOverride_some.mpr (.inr ⟨b, hb, rfl⟩)⟩
    have hcapture : ∃ ms, captureFact v = some ms := by
      cases hhas : v.has "captureFactId" with
      | false => exact ⟨[], captureFact_some.mpr (.inl ⟨hhas, rfl⟩)⟩
      | true =>
        obtain ⟨j, hj, ha⟩ := h.captureFactId rfl hhas
        exact ⟨_, captureFact_some.mpr (.inr ⟨(codes "captureFactId", j), hhas, readField_some.mpr ⟨rfl, hj, ha⟩, rfl⟩)⟩
    obtain ⟨j, hj⟩ := hlegal
    obtain ⟨extra, hextra⟩ := hcapture
    exact ⟨⟨.refund, ms ++ (codes "legalOverride", j) :: extra⟩, parseAs_some.mpr ⟨rfl, ms, _, hparse, .refund hj hextra, rfl⟩⟩
  · exact ⟨⟨op, ms ++ []⟩, parseAs_some.mpr ⟨rfl, ms, [], hparse, .none hop, rfl⟩⟩

theorem parseBinding_some (h : parseBinding value = some b) : ∃ v, value = .record v ∧ parseAs b.operation v = some b := by
  cases value with
  | other => cases h
  | record v =>
    refine ⟨v, rfl, ?_⟩
    have hkeep : ∀ op, parseAs op v = some b → parseAs b.operation v = some b := fun op hop => by
      obtain ⟨he, -⟩ := parseAs_some.mp hop
      rw [he]
      exact hop
    unfold parseBinding at h
    dsimp only at h
    split at h
    · exact hkeep .disputeDecision h
    · split at h
      · unfold parseFraudHold at h
        split at h
        · exact hkeep .fraudHoldPlace h
        · exact hkeep .fraudHoldRelease h
      · split at h
        · exact hkeep .recoverySurplusExternal h
        · split at h
          · exact hkeep .lateSettlementApply h
          · split at h
            · exact hkeep .providerFactAssociate h
            · split at h
              · exact hkeep .recoveryWriteOff h
              · split at h
                · unfold parseRecoveryRestriction at h
                  split at h
                  · exact hkeep .recoveryRestrictionRevoke h
                  · exact hkeep .recoveryRestrictionSuspend h
                · exact hkeep .refund h

theorem parseBinding_iff {op : ReceiptOperation} :
    (∃ b, parseBinding value = some b ∧ b.operation = op) ↔ ∃ v, value = .record v ∧ Accepts op v := by
  constructor
  · rintro ⟨b, hb, rfl⟩
    obtain ⟨v, hv, hparse⟩ := parseBinding_some hb
    exact ⟨v, hv, accepts_of hparse⟩
  · rintro ⟨v, rfl, h⟩
    obtain ⟨b, hb⟩ := of_accepts h
    exact ⟨b, by rw [parseBinding_as (is_iff.mpr h.operation), hb], (parseAs_some.mp hb).1⟩

/-! ## Injectivity -/

def Value.field : Value → Text → Option Json
  | .record v => v.field
  | .other => fun _ => none

section
variable (h : parseBinding value = some b)
include h

theorem parsed_field (k : Text) : b.members.lookup k = value.field k := by
  obtain ⟨v, rfl, hparse⟩ := parseBinding_some h
  exact members_field hparse k

variable {value' : Value} {b' : ReceiptBinding}

theorem canonical_lookup (h' : parseBinding value' = some b') :
    canonicalBinding b = canonicalBinding b' ↔ ∀ k, value.field k = value'.field k := by
  obtain ⟨v, rfl, hparse⟩ := parseBinding_some h
  obtain ⟨v', rfl, hparse'⟩ := parseBinding_some h'
  unfold canonicalBinding
  rw [flat_canonical_iff (members_keys hparse) (members_keys hparse') (fun m hm => (members_read hparse m hm).2) fun m hm => (members_read hparse' m hm).2]
  exact forall_congr' fun k => by rw [members_field hparse, members_field hparse', Value.field, Value.field]

theorem operation_of_field (h' : parseBinding value' = some b')
    (he : value.field (codes "operation") = value'.field (codes "operation")) : b.operation = b'.operation := by
  rw [← parsed_field h, ← parsed_field h'] at he
  have hl : ∀ b : ReceiptBinding, b.members.lookup (codes "operation") = some (.str (codes b.operation.name)) := fun b => by
    rw [ReceiptBinding.members, List.lookup_cons_self]
  rw [hl, hl] at he
  injection he with he
  injection he with he
  exact name_injective (codes_injective he)

end

/-- **Receipts name what they approve.** Two accepted values have one canonical binding exactly when they name the same operation with
equal fields; a value is accepted as an operation exactly when it has its fields and no others, each of its type; a consumption names the
operation's one audience; and what consumes a receipt issued for a binding names that binding's fields, unless two canonical texts
have one digest. -/
theorem binding_injective (bindingDigest : Option Text → Text) :
    (∀ value value' b b', parseBinding value = some b → parseBinding value' = some b' →
      (canonicalBinding b = canonicalBinding b' ↔ b.operation = b'.operation ∧ ∀ k, value.field k = value'.field k)) ∧
    (∀ op value, (∃ b, parseBinding value = some b ∧ b.operation = op) ↔ ∃ v, value = .record v ∧ Accepts op v) ∧
    (∀ r caller value, consumable bindingDigest r caller value = true → ∃ b, parseBinding value = some b ∧ caller = b.operation.audience) ∧
    (∀ value b caller value', parseBinding value = some b → consumable bindingDigest (issue bindingDigest b) caller value' = true →
      (∀ k, value.field k = value'.field k) ∨
        ∃ b', parseBinding value' = some b' ∧ canonicalBinding b' ≠ canonicalBinding b ∧ bindingDigest (canonicalBinding b') = bindingDigest (canonicalBinding b)) := by
  refine ⟨fun value value' b b' h h' => ?_, fun op value => parseBinding_iff, fun r caller value h => ?_, fun value b caller value' hb h => ?_⟩
  · rw [canonical_lookup h h']
    exact ⟨fun he => ⟨operation_of_field h h' (he _), he⟩, fun he => he.2⟩
  · unfold consumable at h
    split at h
    · cases h
    · rename_i b hb
      exact ⟨b, hb, (of_decide_eq_true h).1.symm⟩
  · unfold consumable at h
    split at h
    · cases h
    · rename_i b' hb'
      have hdigest : bindingDigest (canonicalBinding b) = bindingDigest (canonicalBinding b') := (of_decide_eq_true h).2
      by_cases he : canonicalBinding b' = canonicalBinding b
      · exact .inl ((canonical_lookup hb hb').mp he.symm)
      · exact .inr ⟨b', hb', he, hdigest.symm⟩

end

end NawaraCore.Receipts
