import NawaraCore.Audit.ContractSound
import NawaraCore.Audit.DeadLetterPolicy

/-!
# Refused bodies are kept only when they are tokens

The screen takes every event the validator accepts, and a body it takes holds nothing
but tokens: no sensitive key, no secret shape, no byte its parsed value does not show.
-/

namespace NawaraCore.Audit

open Events

mutual
def leaves : Json → List Json
  | .arr items => itemLeaves items
  | .obj members => memberLeaves members
  | j => [j]

def itemLeaves : List Json → List Json
  | [] => []
  | j :: js => leaves j ++ itemLeaves js

def memberLeaves : Members → List Json
  | [] => []
  | (_, j) :: ms => leaves j ++ memberLeaves ms
end

mutual
def treeKeys : Json → List Text
  | .arr items => itemKeys items
  | .obj members => memberKeys members
  | _ => []

def itemKeys : List Json → List Text
  | [] => []
  | j :: js => treeKeys j ++ itemKeys js

def memberKeys : Members → List Text
  | [] => []
  | (k, j) :: ms => k :: treeKeys j ++ memberKeys ms
end

def isTokenLeaf : Json → Bool
  | .null | .bool _ => true
  | .num (.int n) => decide (-MAX_CHANGE_INTEGER ≤ n ∧ n ≤ MAX_CHANGE_INTEGER)
  | .str s => UUID s || SERVICE_NAME s || CODE_VALUE s || TIMESTAMP s || (EVENT_NAME s && decide (s.length ≤ MAX_ACTION_LENGTH))
  | _ => false

def isSecretLeaf : Json → Bool
  | .str s => isSecretShaped s
  | _ => false

theorem mem_memberLeaves {ms : Members} {l : Json} : l ∈ memberLeaves ms ↔ ∃ m ∈ ms, l ∈ leaves m.2 := by
  induction ms with
  | nil => simp [memberLeaves]
  | cons m ms ih => simp [memberLeaves, ih]

def Clean (leaves : List Json) (keys : List Text) : Prop := (∀ l ∈ leaves, isSecretLeaf l = false) ∧ ∀ k ∈ keys, isSensitiveKey k = false

theorem Clean.append {ls ls' : List Json} {ks ks' : List Text} (h : Clean ls ks) (h' : Clean ls' ks') : Clean (ls ++ ls') (ks ++ ks') :=
  ⟨List.forall_mem_append.mpr ⟨h.1, h'.1⟩, List.forall_mem_append.mpr ⟨h.2, h'.2⟩⟩

mutual
theorem scan_clean : (j : Json) → (depth : Nat) → scan j depth = .ok () → Clean (leaves j) (treeKeys j)
  | .str s, depth, h => by
    simp only [scan] at h
    obtain ⟨hs, -⟩ := guard_ok h
    refine ⟨fun l hl => ?_, fun k hk => (List.not_mem_nil hk).elim⟩
    rw [List.mem_singleton.mp hl]
    simpa [isSecretLeaf] using hs
  | .num n, depth, h => ⟨fun l hl => by rw [List.mem_singleton.mp hl]; rfl, fun k hk => (List.not_mem_nil hk).elim⟩
  | .bool b, depth, h => ⟨fun l hl => by rw [List.mem_singleton.mp hl]; rfl, fun k hk => (List.not_mem_nil hk).elim⟩
  | .null, depth, h => ⟨fun l hl => by rw [List.mem_singleton.mp hl]; rfl, fun k hk => (List.not_mem_nil hk).elim⟩
  | .arr items, depth, h => by
    simp only [scan] at h
    exact scanItems_clean items (depth + 1) (guard_ok h).2
  | .obj members, depth, h => by
    simp only [scan] at h
    obtain ⟨-, hk, h⟩ := guards_ok h
    obtain ⟨-, h⟩ := guard_ok h
    exact scanMembers_clean members (depth + 1) (fun m hm => by simpa using fun hc => hk (List.any_eq_true.mpr ⟨m, hm, hc⟩)) h

theorem scanItems_clean : (js : List Json) → (depth : Nat) → scanItems js depth = .ok () → Clean (itemLeaves js) (itemKeys js)
  | [], _, _ => ⟨fun l hl => (List.not_mem_nil hl).elim, fun k hk => (List.not_mem_nil hk).elim⟩
  | j :: js, depth, h => by
    obtain ⟨_, hj, h⟩ := bind_eq_ok.mp h
    exact (scan_clean j depth hj).append (scanItems_clean js depth h)

theorem scanMembers_clean : (ms : Members) → (depth : Nat) → (∀ m ∈ ms, isSensitiveKey m.1 = false) → scanMembers ms depth = .ok () →
    Clean (memberLeaves ms) (memberKeys ms)
  | [], _, _, _ => ⟨fun l hl => (List.not_mem_nil hl).elim, fun k hk => (List.not_mem_nil hk).elim⟩
  | (k, j) :: ms, depth, hk, h => by
    obtain ⟨_, hj, h⟩ := bind_eq_ok.mp h
    have hc := (scan_clean j depth hj).append (scanMembers_clean ms depth (fun m hm => hk m (List.mem_cons_of_mem _ hm)) h)
    refine ⟨hc.1, fun x hx => ?_⟩
    rcases List.mem_cons.mp hx with rfl | hx
    · exact hk (_, j) List.mem_cons_self
    · exact hc.2 x hx
end

/-! ## Token leaves -/

variable {s : Text}

theorem tokenLeaf_uuid (h : UUID s = true) : isTokenLeaf (.str s) = true := by simp [isTokenLeaf, h]

theorem tokenLeaf_code (h : CODE_VALUE s = true) : isTokenLeaf (.str s) = true := by simp [isTokenLeaf, h]

variable {v : Option Json} {j : Json} {parse : Parse} {msg : Message} {failure : FailureClass} {reason : Option String} {p : Text → Bool}

theorem textOf_any (h : stringThat p v = true) : ∃ s, v = some (.str s) ∧ p s = true := by
  cases ht : textOf v with
  | none => simp [stringThat, ht] at h
  | some s => exact ⟨s, textOf_some ht, by simpa [stringThat, ht] using h⟩

def Tokens (j : Json) : Prop := ∀ l ∈ leaves j, isTokenLeaf l = true

theorem tokens_str (h : isTokenLeaf (.str s) = true) : Tokens (.str s) := by
  intro l hl
  rw [List.mem_singleton.mp hl]
  exact h

theorem tokens_obj {o : Members} {allowed : List Text} (hn : (o.map Prod.fst).Nodup) (hk : onlyKeys o allowed = true)
    (h : ∀ k ∈ allowed, ∀ j, o.lookup k = some j → Tokens j) : Tokens (.obj o) := by
  intro l hl
  obtain ⟨m, hm, hl⟩ := mem_memberLeaves.mp hl
  have hmem : m.1 ∈ allowed := by simpa using List.all_eq_true.mp hk m hm
  exact h m.1 hmem m.2 (Json.lookup_of_mem hn hm) l hl

theorem stringThat_tokens (h : stringThat p (some j) = true) (hp : ∀ s, p s = true → isTokenLeaf (.str s) = true) :
    Tokens j := by
  obtain ⟨s, hs, hps⟩ := textOf_any h
  cases hs
  exact tokens_str (hp s hps)

theorem uuid_tokens (h : stringThat UUID (some j) = true) : Tokens j := stringThat_tokens h fun _ => tokenLeaf_uuid

theorem screenActor_tokens (hw : j.WellFormed) (h : screenActor j = true) : Tokens j := by
  unfold screenActor at h
  cases hp : plainRecord j with
  | none => rw [hp] at h; cases h
  | some a =>
    obtain rfl := plainRecord_some hp
    rw [hp] at h
    simp only [Bool.and_eq_true, member] at h
    obtain ⟨⟨⟨hk, ht⟩, hi⟩, hu⟩ := h
    refine tokens_obj hw.1 hk fun k hm j hj => ?_
    have : k = codes "type" ∨ k = codes "id" ∨ k = codes "userKind" := by simpa [actorKeys] using hm
    rcases this with rfl | rfl | rfl
    · rw [hj] at ht
      refine stringThat_tokens ht fun s hs => ?_
      have : s = codes "user" ∨ s = codes "service" ∨ s = codes "system" := by simpa [isActorType] using hs
      rcases this with rfl | rfl | rfl <;> decide
    · rw [hj] at hi
      refine stringThat_tokens hi fun s hs => ?_
      simp only [Bool.or_eq_true] at hs
      rcases hs with (hs | hs) | hs
      · exact tokenLeaf_uuid hs
      · simp [isTokenLeaf, hs]
      · exact tokenLeaf_code (token_code hs)
    · rw [hj] at hu
      obtain ⟨kind, hkind⟩ := Option.isSome_iff_exists.mp hu
      cases userKindOf_some hkind
      exact tokens_str (by cases kind <;> decide)

theorem screenReference_tokens (hw : j.WellFormed) (h : screenReference j = true) : Tokens j := by
  unfold screenReference at h
  cases hp : plainRecord j with
  | none => rw [hp] at h; cases h
  | some r =>
    obtain rfl := plainRecord_some hp
    rw [hp] at h
    simp only [Bool.and_eq_true, member] at h
    obtain ⟨⟨hk, ht⟩, hi⟩ := h
    refine tokens_obj hw.1 hk fun k hm j hj => ?_
    have : k = codes "type" ∨ k = codes "id" := by simpa [referenceKeys] using hm
    rcases this with rfl | rfl
    · rw [hj] at ht
      exact stringThat_tokens ht fun s hs => tokenLeaf_code (token_code hs)
    · rw [hj] at hi
      exact uuid_tokens hi

theorem screenScalar_tokens (h : screenScalar j = true) : Tokens j := by
  intro l hl
  cases j with
  | null => cases h
  | arr => cases h
  | obj => cases h
  | bool b => rw [List.mem_singleton.mp hl]; rfl
  | num n =>
    rw [List.mem_singleton.mp hl]
    cases n with
    | int n => exact h
    | other => cases h
  | str s =>
    rw [List.mem_singleton.mp hl]
    simp only [screenScalar, Bool.or_eq_true] at h
    rcases h with (h | h) | h <;> simp [isTokenLeaf, h]

theorem screenChange_tokens (hw : j.WellFormed) (h : screenChange j = true) : Tokens j := by
  unfold screenChange at h
  cases hp : plainRecord j with
  | none => rw [hp] at h; exact screenScalar_tokens h
  | some t =>
    obtain rfl := plainRecord_some hp
    rw [hp] at h
    simp only [Bool.and_eq_true, member] at h
    obtain ⟨⟨⟨hk, -⟩, ha⟩, hb⟩ := h
    refine tokens_obj hw.1 hk fun k hm j hj => ?_
    have : k = codes "from" ∨ k = codes "to" := by simpa using hm
    rcases this with rfl | rfl
    · rw [hj] at ha
      exact screenScalar_tokens ha
    · rw [hj] at hb
      exact screenScalar_tokens hb

theorem screenChanges_tokens (hw : j.WellFormed) (h : screenChanges j = true) : Tokens j := by
  unfold screenChanges at h
  cases hp : plainRecord j with
  | none => rw [hp] at h; cases h
  | some c =>
    obtain rfl := plainRecord_some hp
    rw [hp] at h
    simp only [Bool.and_eq_true] at h
    intro l hl
    obtain ⟨m, hm, hl⟩ := mem_memberLeaves.mp hl
    have hs := List.all_eq_true.mp h.2 m hm
    exact screenChange_tokens (hw.2.of_mem hm) (Bool.and_eq_true_iff.mp hs).2 l hl

theorem nullOrUuid_tokens (h : nullOrUuid j = true) : Tokens j := by
  cases j with
  | null => intro l hl; rw [List.mem_singleton.mp hl]; rfl
  | _ => exact uuid_tokens h

theorem isBoolean_tokens (h : isBoolean j = true) : Tokens j := by
  cases j with
  | bool b => intro l hl; rw [List.mem_singleton.mp hl]; rfl
  | _ => cases h

theorem payload_tokens {v : JsonValue} (h : payloadIsTokens v.val = true) : Tokens v.val ∧ Clean (leaves v.val) (treeKeys v.val) := by
  obtain ⟨j, hw⟩ := v
  simp only at h ⊢
  unfold payloadIsTokens at h
  cases hp : plainRecord j with
  | none => rw [hp] at h; cases h
  | some o =>
    obtain rfl := plainRecord_some hp
    rw [hp] at h
    simp only [Bool.and_eq_true, member] at h
    obtain ⟨⟨⟨⟨⟨⟨⟨⟨⟨⟨⟨⟨⟨⟨hscan, hk⟩, h₁⟩, h₂⟩, h₃⟩, h₄⟩, h₅⟩, h₆⟩, h₇⟩, h₈⟩, h₉⟩, h₁₀⟩, h₁₁⟩, h₁₂⟩, -⟩ := h
    refine ⟨tokens_obj hw.1 hk fun k hm j hj => ?_, ?_⟩
    · have hwj : j.WellFormed := hw.2.of_mem (Json.mem_of_lookup hj)
      have : k = codes "action" ∨ k = codes "actor" ∨ k = codes "organizationId" ∨ k = codes "resource" ∨ k = codes "subject" ∨
          k = codes "outcome" ∨ k = codes "changes" ∨ k = codes "causationId" ∨ k = codes "companyId" ∨ k = codes "platformId" ∨
          k = codes "liveMode" ∨ k = codes "approvedBy" := by
        simpa [TOP_LEVEL, V2_FIELDS] using hm
      rcases this with rfl | rfl | rfl | rfl | rfl | rfl | rfl | rfl | rfl | rfl | rfl | rfl
      · rw [hj] at h₁
        refine stringThat_tokens h₁ fun s hs => ?_
        obtain ⟨hlen, hname⟩ := Bool.and_eq_true_iff.mp hs
        simp only [isTokenLeaf, hlen, hname, Bool.and_self, Bool.or_true]
      · rw [hj] at h₂
        exact screenActor_tokens hwj h₂
      · rw [hj] at h₃
        exact nullOrUuid_tokens h₃
      · rw [hj] at h₄
        exact screenReference_tokens hwj h₄
      · rw [hj] at h₅
        exact screenReference_tokens hwj h₅
      · rw [hj] at h₆
        obtain ⟨x, hx⟩ := Option.isSome_iff_exists.mp h₆
        cases outcomeOf_some hx
        exact tokens_str (by cases x <;> decide)
      · rw [hj] at h₇
        exact screenChanges_tokens hwj h₇
      · rw [hj] at h₈
        exact uuid_tokens h₈
      · rw [hj] at h₉
        exact uuid_tokens h₉
      · rw [hj] at h₁₀
        exact uuid_tokens h₁₀
      · rw [hj] at h₁₁
        exact isBoolean_tokens h₁₁
      · rw [hj] at h₁₂
        exact screenActor_tokens hwj h₁₂
    · refine scan_clean (.obj o) 0 ?_
      cases hs : scan (.obj o) 0 with
      | ok => rfl
      | error e => rw [hs] at hscan; cases hscan

/-! ## Accepted events -/

theorem eventName_action {action : Text} (h : EVENT_NAME action = true) : EVENT_NAME (EVENT_TYPE_PREFIX ++ action) = true :=
  @isDotted_append _ _ 97 (codes "udit") _ (by decide) (by decide) (by decide) h

variable {event : AuditEnvelopeInput}

theorem Accepted.envelopeIsTokens {v : ValidatedAuditEvent} (h : Accepted event v) :
    envelopeIsTokens event = true := by
  obtain ⟨hs, hh, hid, hsource, hat, hversion, hcorrelation⟩ := h.envelope.headers
  obtain ⟨o, -, hp⟩ := h.payload
  obtain ⟨hname, htype⟩ := h.name
  have hu : UUID v.eventId = true := h.envelope.id.2
  have hservice : SERVICE_NAME v.sourceService = true := h.envelope.source
  have hgrammar : OCCURRED_AT v.occurredAt = true := (Bool.and_eq_true_iff.mp h.envelope.occurredAt).1
  have hbound : 1 ≤ v.schemaVersion ∧ v.schemaVersion ≤ MAX_VERSION := by
    have hv : v.schemaVersion = 1 ∨ v.schemaVersion = 2 := h.envelope.version
    simp only [MAX_VERSION]
    omega
  have hprefix : EVENT_TYPE_PREFIX.isPrefixOf v.eventType = true := by
    rw [htype]
    exact List.isPrefixOf_iff_prefix.mpr (List.prefix_append _ _)
  have hevent : EVENT_NAME v.eventType = true := by
    rw [htype]
    exact eventName_action hp.action.2.2
  have hlen : v.eventType.length ≤ EVENT_TYPE_PREFIX.length + MAX_ACTION_LENGTH := by
    rw [htype, List.length_append]
    exact Nat.add_le_add_left hp.action.2.1 _
  have heid : event.id = .str v.eventId := h.envelope.id.1
  simp only [Audit.envelopeIsTokens, hh, plainRecord, heid, hname, hid, hsource, hat, hversion, hcorrelation, stringThat, textOf, integerOf,
    Option.any_some, hu, hservice, hgrammar, hprefix, hevent, decide_eq_true hlen, decide_eq_true hbound, decide_true, Bool.and_self]

theorem ReadsActor.screened {a : AuditActor} (h : ReadsActor v a) : optionally screenActor v = true := by
  obtain ⟨j, rfl, -, hs⟩ := h.reads
  exact hs

theorem ReadsReference.screened {r : AuditReference} (h : ReadsReference v r) : optionally screenReference v = true := by
  obtain ⟨j, rfl, -, hs⟩ := h.reads
  exact hs

theorem Optionally.screened {α : Type} {reads : Option Json → α → Prop} {a : Option α} {p : Json → Bool}
    (h : Optionally reads v a) (hr : ∀ x, reads v x → optionally p v = true) : optionally p v = true := by
  rcases h with ⟨-, rfl⟩ | ⟨x, -, hx⟩
  · rfl
  · exact hr x hx

theorem Optionally.uuids {id : Option Text} (h : Optionally ReadsUuid v id) :
    optionally (fun v => stringThat UUID (some v)) v = true :=
  h.screened fun x hx => by
    rw [hx.1]
    exact hx.2

theorem ReadsPayload.payloadIsTokens {o : Members} {version : Int} {p : AuditPayload} (h : ReadsPayload o version p)
    (hw : (Json.obj o).WellFormed) : payloadIsTokens (.obj o) = true := by
  have haction : stringThat (fun s => decide (s.length ≤ MAX_ACTION_LENGTH) && EVENT_NAME s) (member o "action") = true := by
    rw [h.action.1]
    exact Bool.and_eq_true_iff.mpr ⟨decide_eq_true h.action.2.1, h.action.2.2⟩
  have horg : optionally nullOrUuid (member o "organizationId") = true := by
    rw [h.organizationId.1]
    cases ho : p.organizationId with
    | none => rfl
    | some s =>
      have := h.organizationId.2
      rw [ho] at this
      exact this
  have houtcome : optionally (fun v => (outcomeOf (some v)).isSome) (member o "outcome") = true := by
    rw [h.outcome]
    exact Option.isSome_iff_exists.mpr ⟨_, outcomeOf_text p.outcome⟩
  have hchanges : optionally screenChanges (member o "changes") = true := h.changes.screened fun x hx => by
    obtain ⟨c, hc, -, hs⟩ := hx.reads
    rw [hc]
    exact hs (hw.2.of_mem (Json.mem_of_lookup hc)).1
  have hlive : optionally isBoolean (member o "liveMode") = true := h.liveMode.screened fun x hx => by
    rw [hx]
    rfl
  have hsize : (Json.obj o).stringify.length ≤ MAX_PAYLOAD_BYTES := by
    rw [h.reorders.length hw h.wellFormed]
    exact h.size
  have hkeys : onlyKeys o (TOP_LEVEL ++ V2_FIELDS) = true := h.fields
  simp only [Audit.payloadIsTokens, plainRecord, h.scanned, hkeys, haction, h.actor.screened, horg, h.resource.screened,
    h.subject.screened fun _ hx => hx.screened, houtcome, hchanges, h.causationId.uuids, h.companyId.uuids, h.platformId.uuids, hlive,
    h.approvedBy.screened fun _ hx => hx.screened, decide_eq_true hsize]
  rfl

theorem accepted_retained {entryOf : Catalog} {v : ValidatedAuditEvent}
    (h : validateAuditEvent entryOf event = .ok v) : mayRetainRefusedAuditBody (some event) = true := by
  have ha := validateAuditEvent_ok h
  obtain ⟨o, ho, hp⟩ := ha.payload
  have hw := event.payload.property
  rw [ho] at hw
  have hpayload : payloadIsTokens event.payload.val = true := by
    rw [ho]
    exact hp.payloadIsTokens hw
  change (Audit.envelopeIsTokens event && payloadIsTokens event.payload.val) = true
  rw [ha.envelopeIsTokens, hpayload]
  rfl

/-! ## Kept bodies -/

theorem envelope_payload {e : Envelope JsonValue} (h : envelopeOf (parsePayload parse) msg = some e) : parse msg.content = some e.payload := by
  unfold envelopeOf at h
  cases hi : msg.messageId with
  | none => rw [hi] at h; cases h
  | some id =>
    cases ht : msg.type with
    | none => rw [hi, ht] at h; cases h
    | some name =>
      simp only [hi, ht] at h
      obtain ⟨-, h⟩ := passed h (by simp)
      obtain ⟨v, hv, rfl⟩ := Option.map_eq_some_iff.mp h
      exact (Option.filter_eq_some_iff.mp hv).1

theorem canonical_body {body : Body} {v : JsonValue} (h : isCanonicalJsonBody parse body = true) (hv : parse body = some v) :
    body = bytesOf v.val.stringify := by
  unfold isCanonicalJsonBody at h
  rw [hv] at h
  exact (eq_of_beq h).symm

theorem kept_body (h : (deadLetterCopy (auditDeadLetterPolicy parse) msg (envelopeOf (parsePayload parse) msg) failure reason).redacted = false) :
    ∃ v, parse msg.content = some v ∧ msg.content = bytesOf v.val.stringify ∧ Tokens v.val ∧ Clean (leaves v.val) (treeKeys v.val) := by
  cases hk : isCanonicalJsonBody parse msg.content && mayRetainRefusedAuditBody ((envelopeOf (parsePayload parse) msg).map inputOf) with
  | false =>
    simp only [deadLetterCopy, deadLetterDecision, auditDeadLetterPolicy, hk, Option.getD_some] at h
    cases h
  | true =>
    obtain ⟨hc, hm⟩ := Bool.and_eq_true_iff.mp hk
    cases he : envelopeOf (parsePayload parse) msg with
    | none => rw [he] at hm; cases hm
    | some e =>
      rw [he] at hm
      have hv := envelope_payload he
      have hm : (envelopeIsTokens (inputOf e) && payloadIsTokens e.payload.val) = true := hm
      obtain ⟨ht, hs⟩ := payload_tokens (Bool.and_eq_true_iff.mp hm).2
      exact ⟨e.payload, hv, canonical_body hc hv, ht, hs⟩

theorem copy_content (policy : DeadLetterInput JsonValue → Option DeadLetterDecision) (event : Option (Envelope JsonValue)) :
    (deadLetterCopy policy msg event failure reason).content =
      if (deadLetterCopy policy msg event failure reason).redacted then redactedDocument failure reason msg.content.length else msg.content := by
  unfold deadLetterCopy
  generalize deadLetterDecision _ _ = d
  cases hb : d.body with
  | original => simp only [hb]; rfl
  | redacted => simp only [hb]; rfl

/-- An accepted event is never destroyed, and a kept body is made of tokens only. -/
theorem dead_letters_private_and_replayable :
    (∀ (entryOf : Catalog) (event : AuditEnvelopeInput) (v : ValidatedAuditEvent),
      validateAuditEvent entryOf event = .ok v → mayRetainRefusedAuditBody (some event) = true) ∧
    ∀ (parse : Parse) (msg : Message) (failure : FailureClass) (reason : Option String),
      let copy := deadLetterCopy (auditDeadLetterPolicy parse) msg (envelopeOf (parsePayload parse) msg) failure reason
      (copy.redacted = false → copy.content = msg.content ∧ ∃ v, parse msg.content = some v ∧ msg.content = bytesOf v.val.stringify ∧
        (∀ l ∈ leaves v.val, isTokenLeaf l = true ∧ isSecretLeaf l = false) ∧ ∀ k ∈ treeKeys v.val, isSensitiveKey k = false) ∧
      (copy.redacted = true → copy.content = redactedDocument failure reason msg.content.length) := by
  refine ⟨fun entryOf event v h => accepted_retained h, fun parse msg failure reason => ⟨fun h => ⟨?_, ?_⟩, fun h => ?_⟩⟩
  · exact (copy_content _ _).trans (if_neg (by rw [h]; exact Bool.false_ne_true))
  · obtain ⟨v, hv, hc, ht, hs⟩ := kept_body h
    exact ⟨v, hv, hc, fun l hl => ⟨ht l hl, hs.1 l hl⟩, hs.2⟩
  · exact (copy_content _ _).trans (if_pos h)

theorem plan_event_retained : mayRetainRefusedAuditBody (some planEvent) = true := by
  obtain ⟨v, hv⟩ := plan_accepted
  exact dead_letters_private_and_replayable.1 planCatalog planEvent v hv

end NawaraCore.Audit
