import NawaraCore.Audit.ContractSound
import NawaraCore.Audit.Database
import NawaraCore.Lib.CalendarSound

/-!
# The contract is at least as strict as the table

Every event the validator accepts makes a record that passes every constraint of its
table, and the length the validator bounds is the one the database measures.
-/

namespace NawaraCore.Audit

open Json (Plain plainChar)

/-! ## Classes of characters -/

variable {c : Nat}

theorem lower_scalar (h : isLower c = true) : scalarChar c = true := by
  simp [scalarChar, isAlnum, h]

theorem code_scalar (h : (wordChar c || oneOf "." c) = true) : scalarChar c = true := by
  have h₁ : codes "_" = [95] := by decide
  have h₂ : codes "." = [46] := by decide
  have h₃ : codes "._:+-" = [46, 95, 58, 43, 45] := by decide
  simp only [wordChar, scalarChar, isAlnum, Bool.or_eq_true, oneOf_iff, h₁, h₂, h₃, List.mem_cons, List.not_mem_nil, or_false] at *
  tauto

theorem scalar_plain (h : scalarChar c = true) : plainChar c = true := by
  have h₃ : codes "._:+-" = [46, 95, 58, 43, 45] := by decide
  simp only [scalarChar, isAlnum, isLower, isUpper, isDigit, Bool.or_eq_true, Bool.and_eq_true, decide_eq_true_eq, oneOf_iff, h₃,
    List.mem_cons, List.not_mem_nil, or_false] at h
  rw [Json.plainChar_iff]
  omega

theorem hex_scalar (h : isHexLower c = true) : scalarChar c = true := by
  simp only [isHexLower, scalarChar, isAlnum, isLower, isUpper, isDigit, Bool.or_eq_true, Bool.and_eq_true, decide_eq_true_eq] at *
  omega

theorem digit_scalar (h : isDigit c = true) : scalarChar c = true := by
  simp [scalarChar, isAlnum, h]

theorem hex_id (h : isHexLower c = true) : idChar c = true := by
  simp only [isHexLower, idChar, isAlnum, isLower, isUpper, isDigit, Bool.or_eq_true, Bool.and_eq_true, decide_eq_true_eq] at *
  omega

variable {s : Text}

theorem uuid_scalar (h : UUID s = true) : isToken scalarChar scalarChar 0 63 s = true := by
  refine isShape_token h ?_ (by decide) (by decide)
  have h₄₅ : scalarChar 45 = true := by decide
  simpa [shapeOf, h₄₅] using fun c hc => hex_scalar hc

theorem uuid_reference (h : UUID s = true) : referenceId s = true := by
  refine isShape_token h ?_ (by decide) (by decide)
  have h₄₅ : idChar 45 = true := by decide
  simpa [shapeOf, h₄₅] using fun c hc => hex_id hc

theorem timestamp_scalar (h : TIMESTAMP s = true) : isToken scalarChar scalarChar 0 63 s = true := by
  refine isShape_token h ?_ (by decide) (by decide)
  have h₁ : scalarChar 45 = true := by decide
  have h₂ : scalarChar 84 = true := by decide
  have h₃ : scalarChar 58 = true := by decide
  have h₄ : scalarChar 46 = true := by decide
  have h₅ : scalarChar 90 = true := by decide
  simpa [shapeOf, h₁, h₂, h₃, h₄, h₅] using fun c hc => digit_scalar hc

theorem key_plain (h : CHANGE_KEY s = true) : ∀ c ∈ s, plainChar c = true := by
  obtain ⟨c, cs, rfl, hc, hcs, -, -⟩ := isToken_iff.mp h
  intro d hd
  rcases List.mem_cons.mp hd with rfl | hd
  · exact scalar_plain (lower_scalar hc)
  · exact scalar_plain (code_scalar (by rw [hcs d hd]; rfl))

theorem token_plain (h : isToken scalarChar scalarChar 0 63 s = true) : ∀ c ∈ s, plainChar c = true := by
  obtain ⟨c, cs, rfl, hc, hcs, -, -⟩ := isToken_iff.mp h
  intro d hd
  rcases List.mem_cons.mp hd with rfl | hd
  · exact scalar_plain hc
  · exact scalar_plain (hcs d hd)

/-! ## Changes -/

theorem screenScalar_valid {s : ChangeScalar} (h : screenScalar s.toJson = true) :
    audit_change_scalar_valid s.toJson = true ∧ Plain s.toJson := by
  cases s with
  | str t =>
    have ht : isToken scalarChar scalarChar 0 63 t = true := by
      change (CODE_VALUE t || UUID t || TIMESTAMP t) = true at h
      rcases Bool.or_eq_true _ _ ▸ h with h | h
      · rcases Bool.or_eq_true _ _ ▸ h with h | h
        · exact isToken_mono (fun _ => lower_scalar) (fun _ => code_scalar) (Nat.le_refl _) (Nat.le_refl _) h
        · exact uuid_scalar h
      · exact timestamp_scalar h
    exact ⟨ht, .str (token_plain ht)⟩
  | int n => exact ⟨h, .int n⟩
  | bool b => exact ⟨rfl, .bool b⟩

theorem screenChange_valid {v : ChangeValue} (h : screenChange v.toJson = true) : audit_change_valid v.toJson = true ∧ Plain v.toJson := by
  cases v with
  | value s =>
    obtain ⟨hv, hp⟩ := screenScalar_valid ((screenChange_scalar s).symm.trans h)
    refine ⟨?_, hp⟩
    cases s <;> exact hv
  | transition a b =>
    have h : (true && true && screenScalar a.toJson && screenScalar b.toJson) = true := h
    rw [Bool.and_eq_true, Bool.and_eq_true] at h
    obtain ⟨hva, hpa⟩ := screenScalar_valid h.1.2
    obtain ⟨hvb, hpb⟩ := screenScalar_valid h.2
    refine ⟨?_, .obj (fun m hm => ?_) fun m hm => ?_⟩
    · change (true && audit_change_scalar_valid a.toJson && audit_change_scalar_valid b.toJson) = true
      rw [hva, hvb]
      rfl
    · have : m.1 = codes "from" ∨ m.1 = codes "to" := by
        rcases List.mem_cons.mp hm with rfl | hm
        · exact .inl rfl
        · exact .inr (by rw [List.mem_singleton.mp hm])
      rcases this with hk | hk <;> rw [hk] <;> decide
    · rcases List.mem_cons.mp hm with rfl | hm
      · exact hpa
      · rw [List.mem_singleton.mp hm]
        exact hpb

theorem jsonbTextLength_eq {j : Json} (h : Plain j) : octetLength j.jsonbText = jsonbTextLength j := by
  have hlen : j.jsonbText.length = jsonbTextLength j := by
    induction h with
    | null => rfl
    | bool b => cases b <;> rfl
    | int n => rfl
    | str h =>
      rw [Json.jsonbText, Json.quote_plain h]
      simp [jsonbTextLength]
    | @obj ms keys values ih =>
      have hmem : (ms.map fun m => (Json.quote m.1).length + 2 + m.2.jsonbText.length).sum = membersLength ms := by
        clear values
        induction ms with
        | nil => rfl
        | cons m ms ihm =>
          have hq := Json.quote_plain (keys m List.mem_cons_self)
          rw [List.map_cons, List.sum_cons, ihm (fun x hx => keys x (List.mem_cons_of_mem _ hx)) fun x hx => ih x (List.mem_cons_of_mem _ hx),
            ih m List.mem_cons_self, hq]
          simp [membersLength]
      rw [Json.length_jsonbText_obj, hmem, jsonbTextLength]
      by_cases hms : ms = []
      · subst hms
        rfl
      · rw [if_neg hms]
  rw [octetLength, Json.utf8_ascii h.ascii, hlen]

variable {v : Option Json} {out : Changes}

theorem ReadsChanges.plain (h : ReadsChanges v out) : Plain (changesJson out) := by
  refine .obj (fun m hm => ?_) fun m hm => ?_
  · obtain ⟨x, hx, rfl⟩ := List.mem_map.mp hm
    exact key_plain (h.each x hx).1
  · obtain ⟨x, hx, rfl⟩ := List.mem_map.mp hm
    exact (screenChange_valid (h.each x hx).2).2

theorem ReadsChanges.valid (h : ReadsChanges v out) : audit_changes_valid (changesJson out) = true := by
  have hsize : octetLength (changesJson out).jsonbText ≤ 1024 := by
    rw [jsonbTextLength_eq h.plain]
    exact h.size
  have hcount : 1 ≤ (out.map fun m => (m.1, m.2.toJson)).length ∧ (out.map fun m => (m.1, m.2.toJson)).length ≤ 8 := by
    rw [List.length_map]
    exact h.count
  have heach : (out.map fun m => (m.1, m.2.toJson)).all (fun m => isToken isLower wordChar 0 31 m.1 && audit_change_valid m.2) = true := by
    refine List.all_eq_true.mpr fun m hm => ?_
    obtain ⟨x, hx, rfl⟩ := List.mem_map.mp hm
    obtain ⟨hk, hs⟩ := h.each x hx
    have hk : isToken isLower wordChar 0 31 x.1 = true := hk
    rw [hk, (screenChange_valid hs).1]
    rfl
  simp only [changesJson, audit_changes_valid] at hsize ⊢
  rw [decide_eq_true hsize, decide_eq_true hcount, heach]
  rfl

/-! ## Instants -/

theorem digits_bound {l : List Nat} (h : ∀ c ∈ l, c ≤ 90) (a : Nat) :
    9 * l.foldl (fun a c => 10 * a + (c - 48)) a + 42 ≤ (9 * a + 42) * 10 ^ l.length := by
  induction l generalizing a with
  | nil => simp
  | cons c cs ih =>
    have hc := h c List.mem_cons_self
    refine (ih (fun d hd => h d (List.mem_cons_of_mem _ hd)) _).trans ?_
    rw [List.length_cons, Nat.pow_succ', ← Nat.mul_assoc]
    have hstep : 9 * (10 * a + (c - 48)) + 42 ≤ (9 * a + 42) * 10 := by omega
    exact Nat.mul_le_mul_right _ hstep

theorem digitsAt_bound (h : ∀ c ∈ s, c ≤ 90) (i n : Nat) : 9 * digitsAt s i n + 42 ≤ 42 * 10 ^ n := by
  have hb := digits_bound (l := (s.drop i).take n) (fun c hc => h c (List.mem_of_mem_drop (List.mem_of_mem_take hc))) 0
  refine hb.trans ?_
  exact Nat.mul_le_mul_left _ (Nat.pow_le_pow_right (by decide) (by simp))

theorem occurredAt_chars (h : OCCURRED_AT s = true) : ∀ c ∈ s, c ≤ 90 := by
  have hd : ∀ c, isDigit c = true → decide (c ≤ 90) = true := by
    intro c hc
    simp only [isDigit, Bool.and_eq_true, decide_eq_true_eq] at hc ⊢
    omega
  intro c hc
  have hall : decide (c ≤ 90) = true := by
    simp only [OCCURRED_AT, Bool.or_eq_true] at h
    rcases h with h | h
    · exact isShape_all (q := fun c => decide (c ≤ 90)) h (by simpa [shapeOf] using fun c hc => of_decide_eq_true (hd c hc)) c hc
    · exact isShape_all (q := fun c => decide (c ≤ 90)) h (by simpa [shapeOf] using fun c hc => of_decide_eq_true (hd c hc)) c hc
  exact of_decide_eq_true hall

theorem instantOf_finite (h : isExactUtcTimestamp s OCCURRED_AT = true) :
    ∃ t, instantOf s = some t ∧ -210866803200000 ≤ t ∧ t < 9224318016000000 := by
  refine ⟨_, if_pos h, ?_⟩
  obtain ⟨hg, hr⟩ := Bool.and_eq_true_iff.mp h
  have hc := occurredAt_chars hg
  have hy := digitsAt_bound hc 0 4
  have hms := digitsAt_bound hc 20 3
  simp only [isRealInstant, Bool.and_eq_true, decide_eq_true_eq] at hr
  obtain ⟨⟨⟨⟨⟨hm₁, hm₂⟩, hd₁, hd₂⟩, hh⟩, hmin⟩, hsec⟩ := hr
  generalize digitsAt s 0 4 = y at *
  generalize digitsAt s 5 2 = m at *
  generalize digitsAt s 8 2 = d at *
  generalize digitsAt s 11 2 = hour at *
  generalize digitsAt s 14 2 = minute at *
  generalize digitsAt s 17 2 = second at *
  generalize digitsAt s 20 3 = milli at *
  have hlo : Calendar.monthStart 1 ≤ Calendar.monthStart (↑y * 12 + ↑m) := Calendar.monthStart_mono (by omega)
  have hhi : Calendar.monthStart (↑y * 12 + ↑m + 1) ≤ Calendar.monthStart 559957 := Calendar.monthStart_mono (by omega)
  have h₁ : Calendar.monthStart 1 = -719528 := by decide
  have h₂ : Calendar.monthStart 559957 = 16323783 := by decide
  unfold Calendar.monthLength at hd₂
  omega

/-! ## The record -/

theorem oneOf_category (c : AuditCategory) : oneOfTexts ["security", "business", "commercial", "administrative"] c.text = true := by
  cases c <;> decide

theorem oneOf_userKind (k : UserKind) : oneOfTexts ["member", "owner", "operator"] k.text = true := by
  cases k <;> decide

theorem oneOf_outcome (x : AuditOutcome) : oneOfTexts ["succeeded", "denied"] x.text = true := by
  cases x <;> decide

theorem optional_uuid {id : Option Text} (h : Optionally ReadsUuid v id) : id.all isUuid = true := by
  rcases h with ⟨rfl, -⟩ | ⟨x, rfl, -, hx⟩
  · rfl
  · exact hx

theorem levels_apart {c p o : Option Text} (h : (c.toList ++ p.toList ++ o.toList).Nodup) :
    AuditRecordRow.apart c p = true ∧ AuditRecordRow.apart c o = true ∧ AuditRecordRow.apart p o = true := by
  cases c <;> cases p <;> cases o <;> simp_all [AuditRecordRow.apart]

theorem first_version {o : Members} {version : Int} {p : AuditPayload} (h : ReadsPayload o version p) (hv : version = 1) {key : String}
    (hk : codes key ∉ TOP_LEVEL) : member o key = none := by
  have hkeys := h.keys
  rw [hv] at hkeys
  exact lookup_none hkeys hk

theorem Optionally.absent {α : Type} {reads : Option Json → α → Prop} {a : Option α} (h : Optionally reads none a)
    (hr : ∀ x, ¬ reads none x) : a = none := by
  rcases h with ⟨rfl, -⟩ | ⟨x, -, hx⟩
  · rfl
  · exact absurd hx (hr x)

section
variable {event : AuditEnvelopeInput} {v : ValidatedAuditEvent} {delivery : Option DeliveryAssessment} {id : Nat} {t : Int}

section
variable (h : Accepted event v)
include h

theorem record_uuids : (rowOf id (toNewAuditRecord v delivery) t).uuids_valid = true := by
  obtain ⟨o, -, hp⟩ := h.payload
  have happroved : (v.payload.approvedBy.map (·.id)).all isUuid = true := by
    rcases hp.approvedBy with ⟨hn, -⟩ | ⟨a, ha, hr⟩
    · rw [hn]
      rfl
    · rw [ha]
      exact hr.fit
  have hid : isUuid v.eventId = true := h.envelope.id.2
  have horg : v.payload.organizationId.all isUuid = true := hp.organizationId.2
  simp only [AuditRecordRow.uuids_valid, rowOf, toNewAuditRecord, hid, horg, optional_uuid hp.causationId, optional_uuid hp.companyId,
    optional_uuid hp.platformId, happroved, Bool.and_self]

theorem record_actor : (rowOf id (toNewAuditRecord v delivery) t).actor_type_valid = true ∧
    (rowOf id (toNewAuditRecord v delivery) t).actor_consistent = true := by
  obtain ⟨o, -, hp⟩ := h.payload
  have hfit := hp.actor.fit
  simp only [AuditRecordRow.actor_type_valid, AuditRecordRow.actor_consistent, rowOf, toNewAuditRecord]
  cases ha : v.payload.actor with
  | user uid kind =>
    rw [ha] at hfit
    have hu : isUuid uid = true := hfit
    refine ⟨rfl, ?_⟩
    simp only [AuditActor.type, AuditActor.id, AuditActor.userKind, hu, Option.any_some, oneOf_userKind, beq_self_eq_true, Bool.and_self,
      Bool.true_or]
  | service sid =>
    rw [ha] at hfit
    have hs : isToken isLower (fun c => isLower c || isDigit c || oneOf "-" c) 1 62 sid = true := hfit
    refine ⟨rfl, ?_⟩
    simp only [AuditActor.type, AuditActor.id, AuditActor.userKind, hs, Option.isNone_none, beq_self_eq_true, Bool.and_self,
      Bool.or_true, Bool.true_or]
  | system sid =>
    rw [ha] at hfit
    have hs : isToken isLower wordChar 0 63 sid = true := hfit
    refine ⟨rfl, ?_⟩
    simp only [AuditActor.type, AuditActor.id, AuditActor.userKind, hs, Option.isNone_none, beq_self_eq_true, Bool.and_self, Bool.or_true]

theorem record_references : (rowOf id (toNewAuditRecord v delivery) t).resource_shape = true ∧
    (rowOf id (toNewAuditRecord v delivery) t).subject_shape = true := by
  obtain ⟨o, -, hp⟩ := h.payload
  have ht : isToken isLower wordChar 0 63 v.payload.resource.type = true := hp.resource.type
  simp only [AuditRecordRow.resource_shape, AuditRecordRow.subject_shape, rowOf, toNewAuditRecord]
  refine ⟨by rw [ht, uuid_reference hp.resource.id]; rfl, ?_⟩
  rcases hp.subject with ⟨hn, -⟩ | ⟨r, hr, hread⟩
  · rw [hn]
    rfl
  · have hrt : isToken isLower wordChar 0 63 r.type = true := hread.type
    rw [hr]
    simp only [Option.map_some, Option.any_some, hrt, uuid_reference hread.id, Bool.and_self, Bool.or_true]

theorem record_changes : (rowOf id (toNewAuditRecord v delivery) t).changes_valid = true := by
  obtain ⟨o, -, hp⟩ := h.payload
  simp only [AuditRecordRow.changes_valid, rowOf, toNewAuditRecord]
  rcases hp.changes with ⟨hn, -⟩ | ⟨out, hout, hr⟩
  · rw [hn]
    rfl
  · rw [hout]
    exact hr.valid

theorem record_versions : (rowOf id (toNewAuditRecord v delivery) t).schema_version_bounded = true ∧
    (rowOf id (toNewAuditRecord v delivery) t).v2_fields_need_v2 = true ∧
    (rowOf id (toNewAuditRecord v delivery) t).approved_by_valid = true := by
  obtain ⟨o, -, hp⟩ := h.payload
  have hkinds : (v.payload.approvedBy.map (·.userKind.text)).any (oneOfTexts ["member", "owner", "operator"]) =
      (v.payload.approvedBy.map (·.id)).isSome := by
    cases v.payload.approvedBy with
    | none => rfl
    | some a => exact oneOf_userKind a.userKind
  simp only [AuditRecordRow.schema_version_bounded, AuditRecordRow.v2_fields_need_v2, AuditRecordRow.approved_by_valid, rowOf,
    toNewAuditRecord, hkinds]
  have hversion : v.schemaVersion = 1 ∨ v.schemaVersion = 2 := h.envelope.version
  rcases hversion with hv | hv
  · have hc := hp.companyId
    have hpl := hp.platformId
    have hl := hp.liveMode
    have ha := hp.approvedBy
    rw [first_version hp hv (by decide)] at hc hpl hl ha
    have hc := hc.absent fun x hx => by cases hx.1
    have hpl := hpl.absent fun x hx => by cases hx.1
    have hl := hl.absent nofun
    have ha := ha.absent fun x hx => by
      obtain ⟨j, hj, -⟩ := hx.reads
      cases hj
    simp [hv, hc, hpl, hl, ha]
  · cases v.payload.approvedBy <;> simp [hv]

end

theorem record_checks (h : Accepted event v) (ht : -210866803200000 ≤ t ∧ t < 9224318016000000) :
    (rowOf id (toNewAuditRecord v delivery) t).checks = true := by
  obtain ⟨o, -, hp⟩ := h.payload
  have hsource : (rowOf id (toNewAuditRecord v delivery) t).source_shape = true := h.envelope.source
  have haction : (rowOf id (toNewAuditRecord v delivery) t).action_shape = true := by
    have hname : isDotted isLower wordChar v.payload.action = true := hp.action.2.2
    have hlen : v.payload.action.length ≤ 100 := hp.action.2.1
    exact Bool.and_eq_true_iff.mpr ⟨decide_eq_true hlen, hname⟩
  have hcorrelation : (rowOf id (toNewAuditRecord v delivery) t).correlation_shape = true := h.envelope.correlationId
  have hcausation : (rowOf id (toNewAuditRecord v delivery) t).causation_not_self = true := decide_eq_true h.notSelf
  have hfinite : (rowOf id (toNewAuditRecord v delivery) t).occurred_finite = true := decide_eq_true ht
  have hcategory : (rowOf id (toNewAuditRecord v delivery) t).category_valid = true := oneOf_category _
  have houtcome : (rowOf id (toNewAuditRecord v delivery) t).outcome_valid = true := oneOf_outcome _
  have hlevels : (rowOf id (toNewAuditRecord v delivery) t).scope_levels_distinct = true := by
    obtain ⟨h₁, h₂, h₃⟩ := levels_apart hp.levels
    simp only [AuditRecordRow.scope_levels_distinct, rowOf, toNewAuditRecord, h₁, h₂, h₃, Bool.and_self]
  have hreplayed : (rowOf id (toNewAuditRecord v delivery) t).replayed_needs_assessment = true := by
    cases delivery <;> rfl
  simp only [AuditRecordRow.checks, record_uuids h, hsource, haction, hcategory, (record_versions h).1, (record_actor h).1, (record_actor h).2,
    (record_references h).1, (record_references h).2, houtcome, record_changes h, hcorrelation, hcausation, hfinite, (record_versions h).2.1,
    hlevels, hreplayed, (record_versions h).2.2, Bool.and_self]

theorem insertOnce_stores (h : Accepted event v) (db : AuditDb) : ∃ r, insertOnce db (toNewAuditRecord v delivery) = .ok r := by
  obtain ⟨t, ht, hb⟩ := instantOf_finite h.envelope.occurredAt
  have hi : instantOf (toNewAuditRecord v delivery).occurredAt = some t := ht
  have hc := @record_checks event v delivery db.nextId t h hb
  unfold insertOnce
  simp only [hi, hc, Bool.true_eq_false, if_false]
  cases db.records.find? (AuditRecordRow.isOf (toNewAuditRecord v delivery).sourceService (toNewAuditRecord v delivery).eventId) with
  | some existing => exact ⟨_, rfl⟩
  | none =>
    by_cases htrusted : (decide ((toNewAuditRecord v delivery).delivery.map (·.producerIdentityVerified) = some true) &&
        ((toNewAuditRecord v delivery).companyId.isSome || (toNewAuditRecord v delivery).platformId.isSome)) = true
    · obtain ⟨hv, hs⟩ := Bool.and_eq_true_iff.mp htrusted
      have hv : (rowOf db.nextId (toNewAuditRecord v delivery) t).producerIdentityVerified = some true := of_decide_eq_true hv
      have hs : ((rowOf db.nextId (toNewAuditRecord v delivery) t).companyId.isSome ||
        (rowOf db.nextId (toNewAuditRecord v delivery) t).platformId.isSome) = true := hs
      simp [audit_record_scope_guard, audit_record_scope_not_empty, hv, hs]
    · rw [Bool.not_eq_true] at htrusted
      simp only [htrusted, Bool.false_and, Bool.false_eq_true, if_false]
      exact ⟨_, rfl⟩

/-- The contract is at least as strict as the database. -/
theorem accepted_event_stored {entryOf : Catalog} (h : validateAuditEvent entryOf event = .ok v) (delivery : Option DeliveryAssessment) :
    (∃ t, instantOf v.occurredAt = some t ∧ ∀ id, (rowOf id (toNewAuditRecord v delivery) t).checks = true) ∧
    (∀ c, v.payload.changes = some c → octetLength (changesJson c).jsonbText = jsonbTextLength (changesJson c)) ∧
    ∀ db, ∃ r, insertOnce db (toNewAuditRecord v delivery) = .ok r := by
  have ha := validateAuditEvent_ok h
  obtain ⟨t, ht, hb⟩ := instantOf_finite ha.envelope.occurredAt
  refine ⟨⟨t, ht, fun id => record_checks ha hb⟩, fun c hc => ?_, insertOnce_stores ha⟩
  obtain ⟨o, -, hp⟩ := ha.payload
  rcases hp.changes with ⟨hn, -⟩ | ⟨out, hout, hr⟩
  · rw [hn] at hc
    cases hc
  · rw [hout] at hc
    cases hc
    exact jsonbTextLength_eq hr.plain

theorem plan_event_stored : ∃ v, validateAuditEvent planCatalog planEvent = .ok v ∧
    (∃ t, instantOf v.occurredAt = some t ∧ ∀ id, (rowOf id (toNewAuditRecord v (some ⟨true, false⟩)) t).checks = true) ∧
    (∀ c, v.payload.changes = some c → octetLength (changesJson c).jsonbText = jsonbTextLength (changesJson c)) ∧
    ∀ db, ∃ r, insertOnce db (toNewAuditRecord v (some ⟨true, false⟩)) = .ok r := by
  obtain ⟨v, hv⟩ := plan_accepted
  exact ⟨v, hv, accepted_event_stored hv (some ⟨true, false⟩)⟩

end

end NawaraCore.Audit
