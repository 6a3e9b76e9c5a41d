import NawaraCore.Audit.DatabaseSound
import NawaraCore.Audit.Ingestion
import NawaraCore.Lib.Runs

/-!
# Every event is recorded once

A duplicate is what the comparison of evidence says it is, and in every run of the
deliveries each key has one record, which never changes and whose scope is that of the
delivery that stored it.
-/

namespace NawaraCore.Audit

open Events
open Json (Plain plainChar)

/-! ## Canonical changes -/

theorem scalar_sortKeys (s : ChangeScalar) : s.toJson.sortKeys = s.toJson := by
  cases s <;> simp [ChangeScalar.toJson, Json.sortKeys]

theorem changeValue_sortKeys (v : ChangeValue) : v.toJson.sortKeys = v.toJson := by
  cases v with
  | value s => exact scalar_sortKeys s
  | transition a b =>
    simp only [ChangeValue.toJson, Json.sortKeys, Json.sortMembers, scalar_sortKeys]
    rw [List.mergeSort_of_pairwise]
    have hle : decide (codes "from" ≤ codes "to") = true := by decide
    simpa using hle

theorem sortMembers_eq (ms : Members) : Json.sortMembers ms = ms.map fun m => (m.1, m.2.sortKeys) := by
  induction ms with
  | nil => simp [Json.sortMembers]
  | cons m ms ih =>
    obtain ⟨k, j⟩ := m
    rw [Json.sortMembers, ih, List.map_cons]

def changeMembers (c : Changes) : Members := c.map fun m => (m.1, m.2.toJson)

def sortedMembers (c : Changes) : Members := (changeMembers c).mergeSort fun a b => decide (a.1 ≤ b.1)

theorem changes_sortKeys (c : Changes) : (changesJson c).sortKeys = .obj (sortedMembers c) := by
  rw [changesJson, Json.sortKeys, sortMembers_eq, List.map_map, sortedMembers, changeMembers]
  congr 2
  exact List.map_congr_left fun m _ => by simp [changeValue_sortKeys]

theorem scalar_injective {a b : ChangeScalar} (h : a.toJson = b.toJson) : a = b := by
  cases a <;> cases b <;> cases h <;> rfl

theorem changeValue_injective {a b : ChangeValue} (h : a.toJson = b.toJson) : a = b := by
  cases a with
  | value s =>
    cases b with
    | value t => rw [scalar_injective h]
    | transition => cases s <;> cases h
  | transition x y =>
    cases b with
    | value t => cases t <;> cases h
    | transition x' y' =>
      simp only [ChangeValue.toJson, Json.obj.injEq, List.cons.injEq, Prod.mk.injEq, true_and, and_true] at h
      rw [scalar_injective h.1, scalar_injective h.2]

variable {c : Changes} {v : ChangeValue}

theorem mem_changeMembers {k : Text} : (k, v.toJson) ∈ changeMembers c ↔ (k, v) ∈ c := by
  refine ⟨fun h => ?_, fun h => List.mem_map.mpr ⟨(k, v), h, rfl⟩⟩
  obtain ⟨⟨k', v'⟩, hm, he⟩ := List.mem_map.mp h
  obtain ⟨rfl, hv⟩ := Prod.mk.inj he
  rwa [← changeValue_injective hv]

theorem lookup_change (hn : (c.map Prod.fst).Nodup) {k : Text} : c.lookup k = some v ↔ (k, v) ∈ c := by
  constructor
  · intro h
    obtain ⟨l₁, l₂, rfl, -⟩ := List.lookup_eq_some_iff.mp h
    exact List.mem_append_right _ List.mem_cons_self
  · intro h
    cases hl : c.lookup k with
    | none =>
      have := List.lookup_eq_none_iff.mp hl (k, v) h
      simp at this
    | some w =>
      obtain ⟨l₁, l₂, he, -⟩ := List.lookup_eq_some_iff.mp hl
      have hw : (k, w) ∈ c := by
        rw [he]
        exact List.mem_append_right _ List.mem_cons_self
      have := eq_of_key (k := Prod.fst) hn hw h rfl
      rw [(Prod.mk.inj this).2]

def SameChanges (a b : Changes) : Prop := ∀ k, a.lookup k = b.lookup k

theorem sortedMembers_eq {a b : Changes} (ha : (a.map Prod.fst).Nodup) (hb : (b.map Prod.fst).Nodup) :
    sortedMembers a = sortedMembers b ↔ SameChanges a b := by
  have hmem : ∀ c : Changes, ∀ m, m ∈ sortedMembers c ↔ m ∈ changeMembers c := fun c m => List.mem_mergeSort
  constructor
  · intro h k
    refine Option.ext fun v => ?_
    rw [lookup_change ha, lookup_change hb, ← mem_changeMembers, ← mem_changeMembers, ← hmem, ← hmem, h]
  · intro h
    have hperm : a.Perm b := by
      refine (List.perm_ext_iff_of_nodup ha.of_map hb.of_map).mpr fun m => ?_
      obtain ⟨k, v⟩ := m
      rw [← lookup_change ha, ← lookup_change hb, h k]
    have hsorted : ∀ c : Changes, (sortedMembers c).Pairwise fun x y => x.1 ≤ y.1 := fun c => by
      have := (@List.pairwise_mergeSort _ (fun x y : Text × Json => decide (x.1 ≤ y.1)))
        (fun x y z h₁ h₂ => decide_eq_true (le_trans (of_decide_eq_true h₁) (of_decide_eq_true h₂)))
        (fun x y => by simpa using le_total x.1 y.1) (changeMembers c)
      exact this.imp fun h => of_decide_eq_true h
    have hp : (sortedMembers a).Perm (sortedMembers b) :=
      (List.mergeSort_perm _ _).trans ((hperm.map _).trans (List.mergeSort_perm _ _).symm)
    refine hp.eq_of_pairwise (fun x y hx hy h₁ h₂ => ?_) (hsorted a) (hsorted b)
    have hkeys : ((changeMembers b).map Prod.fst).Nodup := by
      rw [changeMembers, List.map_map]
      exact hb
    have hx : x ∈ changeMembers b := (hmem b x).mp (hp.mem_iff.mp hx)
    exact eq_of_key hkeys hx ((hmem b y).mp hy) (le_antisymm h₁ h₂)

theorem sortedMembers_plain (h : Plain (changesJson c)) : Plain (.obj (sortedMembers c)) := by
  rcases Json.plain_cases h with h | ⟨s, hs, -⟩ | ⟨ms, hms, keys, values⟩
  · cases h
  · cases hs
  · cases hms
    exact .obj (fun m hm => keys m (List.mem_mergeSort.mp hm)) fun m hm => values m (List.mem_mergeSort.mp hm)

structure ChangesOk (c : Changes) : Prop where
  nodup : (c.map Prod.fst).Nodup
  plain : Plain (changesJson c)

def SameOptional (a b : Option Changes) : Prop := Option.Rel SameChanges a b

theorem canonicalJson_eq {a b : Option Changes} (ha : ∀ c, a = some c → ChangesOk c) (hb : ∀ c, b = some c → ChangesOk c) :
    canonicalJson ((a.map changesJson).getD .null) = canonicalJson ((b.map changesJson).getD .null) ↔ SameOptional a b := by
  have hplain : ∀ x : Option Changes, (∀ c, x = some c → ChangesOk c) → Plain ((x.map changesJson).getD .null).sortKeys := by
    intro x hx
    cases x with
    | none =>
      simp only [Option.map_none, Option.getD_none, Json.sortKeys]
      exact .null
    | some c =>
      simp only [Option.map_some, Option.getD_some, changes_sortKeys]
      exact sortedMembers_plain (hx c rfl).plain
  have htext : canonicalJson ((a.map changesJson).getD .null) = canonicalJson ((b.map changesJson).getD .null) ↔
      ((a.map changesJson).getD .null).sortKeys = ((b.map changesJson).getD .null).sortKeys :=
    ⟨Json.stringify_injective (hplain a ha) (hplain b hb), fun h => by rw [canonicalJson, canonicalJson, h]⟩
  rw [htext]
  cases a with
  | none =>
    cases b with
    | none => exact ⟨fun _ => .none, fun _ => rfl⟩
    | some d =>
      simp only [Option.map_none, Option.map_some, Option.getD_none, Option.getD_some, Json.sortKeys, changes_sortKeys]
      exact ⟨nofun, nofun⟩
  | some c =>
    cases b with
    | none =>
      simp only [Option.map_none, Option.map_some, Option.getD_none, Option.getD_some, Json.sortKeys, changes_sortKeys]
      exact ⟨nofun, nofun⟩
    | some d =>
      simp only [Option.map_some, Option.getD_some, changes_sortKeys, Json.obj.injEq]
      rw [sortedMembers_eq (ha c rfl).nodup (hb d rfl).nodup]
      exact Option.rel_some_some.symm

/-! ## Evidence -/

theorem category_text {a b : AuditCategory} (h : a.text = b.text) : a = b := by
  cases a <;> cases b <;> first | rfl | exact absurd h (by decide)

theorem outcome_text {a b : AuditOutcome} (h : a.text = b.text) : a = b := by
  cases a <;> cases b <;> first | rfl | exact absurd h (by decide)

theorem userKind_text {a b : UserKind} (h : a.text = b.text) : a = b := by
  cases a <;> cases b <;> first | rfl | exact absurd h (by decide)

theorem actor_columns {a b : AuditActor} (ht : a.type = b.type) (hi : a.id = b.id) (hk : a.userKind = b.userKind) : a = b := by
  cases a <;> cases b <;> first
    | exact absurd ht (by simp only [AuditActor.type]; decide)
    | (cases hi; first | rfl | (rw [userKind_text (Option.some.inj hk)]))

theorem subject_columns {a b : Option AuditReference} (ht : a.map (·.type) = b.map (·.type)) (hi : a.map (·.id) = b.map (·.id)) : a = b := by
  cases a <;> cases b
  · rfl
  · cases ht
  · cases ht
  · rw [Option.some.injEq]
    exact AuditReference.ext (Option.some.inj ht) (Option.some.inj hi)

theorem approver_columns {a b : Option UserReference} (hi : a.map (·.id) = b.map (·.id))
    (hk : a.map (·.userKind.text) = b.map (·.userKind.text)) : a = b := by
  cases a <;> cases b
  · rfl
  · cases hi
  · cases hi
  · rw [Option.some.injEq]
    exact UserReference.ext (Option.some.inj hi) (userKind_text (Option.some.inj hk))

def NewAuditRecord.fixed (r : NewAuditRecord) : NewAuditRecord := { r with
  changes := none
  occurredAt := []
  delivery := none }

structure SameContent (a b : NewAuditRecord) : Prop where
  fixed : a.fixed = b.fixed
  changes : SameOptional a.changes b.changes
  occurredAt : instantOf a.occurredAt = instantOf b.occurredAt

def RecordOk (r : NewAuditRecord) : Prop := ∀ c, r.changes = some c → ChangesOk c

theorem sameEvidence_iff {a b : NewAuditRecord} {id : Nat} {t : Int} (ha : RecordOk a) (hb : RecordOk b) (ht : instantOf a.occurredAt = some t) :
    sameEvidence (rowOf id a t) b = true ↔ SameContent a b := by
  have hchanges := canonicalJson_eq ha hb
  simp only [sameEvidence, Bool.and_eq_true, decide_eq_true_eq]
  simp only [rowOf, hchanges]
  constructor
  · rintro ⟨⟨⟨⟨⟨⟨⟨⟨⟨⟨⟨⟨⟨⟨⟨⟨⟨⟨⟨⟨⟨⟨h₁, h₂⟩, h₃⟩, h₄⟩, h₅⟩, h₆⟩, h₇⟩, h₈⟩, h₉⟩, h₁₀⟩, h₁₁⟩, h₁₂⟩, h₁₃⟩, h₁₄⟩, h₁₅⟩, h₁₆⟩, h₁₇⟩, h₁₈⟩, h₁₉⟩, h₂₀⟩, h₂₁⟩, h₂₂⟩, h₂₃⟩
    refine ⟨?_, h₁₅, ht.trans h₁₈⟩
    have hresource : a.resource = b.resource := AuditReference.ext h₁₀ h₁₁
    simp only [NewAuditRecord.fixed, h₁, h₂, h₃, category_text h₄, h₅, actor_columns h₆ h₇ h₈, h₉, hresource, subject_columns h₁₂ h₁₃,
      outcome_text h₁₄, h₁₆, h₁₇, h₁₉, h₂₀, h₂₁, approver_columns h₂₂ h₂₃]
  · rintro ⟨hf, hc, ho⟩
    simp only [NewAuditRecord.fixed, NewAuditRecord.mk.injEq] at hf
    obtain ⟨h₁, h₂, h₃, h₄, h₅, h₆, h₇, h₈, h₉, h₁₀, -, h₁₁, h₁₂, -, h₁₃, h₁₄, h₁₅, h₁₆, -⟩ := hf
    rw [h₁, h₂, h₃, h₄, h₅, h₆, h₇, h₈, h₉, h₁₀, h₁₁, h₁₂, h₁₃, h₁₄, h₁₅, h₁₆, ← ho, ht]
    simp [hc]

/-! ## One delivery -/

section
variable {cfg : IngestConfig} {event : Envelope JsonValue} {trust : Option TrustDecision} {record : NewAuditRecord} {db db' : AuditDb}
  {row x : AuditRecordRow}

section
variable (h : candidateOf cfg event trust = .ok record)
include h

theorem candidateOf_ok :
    ∃ v, Accepted (inputOf event) v ∧ record = toNewAuditRecord v (deliveryAssessment trust) ∧ record.sourceService ≠ codes SERVICE_NAME_OWN := by
  unfold candidateOf at h
  cases hu : untrustedReason cfg.mode event trust with
  | some reason => rw [hu] at h; cases h
  | none =>
    cases hv : validateAuditEvent cfg.entryOf (inputOf event) with
    | error code => rw [hu, hv] at h; cases h
    | ok v =>
      simp only [hu, hv] at h
      obtain ⟨hs, -, h⟩ := guards_ok h
      cases h
      exact ⟨v, validateAuditEvent_ok hv, rfl, hs⟩

theorem candidate_recordOk : RecordOk record := by
  obtain ⟨v, ha, rfl, -⟩ := candidateOf_ok h
  obtain ⟨o, -, hp⟩ := ha.payload
  intro c hc
  have hc : v.payload.changes = some c := hc
  rcases hp.changes with ⟨hn, -⟩ | ⟨out, hout, hr⟩
  · rw [hn] at hc
    cases hc
  · rw [hout] at hc
    cases hc
    exact ⟨hr.nodup, hr.plain⟩

theorem candidate_delivery : record.delivery = deliveryAssessment trust := by
  obtain ⟨v, -, rfl, -⟩ := candidateOf_ok h
  rfl

theorem candidate_stores (db : AuditDb) : ∃ r, insertOnce db record = .ok r := by
  obtain ⟨v, ha, rfl, -⟩ := candidateOf_ok h
  exact insertOnce_stores ha db

end

def NewAuditRecord.key (r : NewAuditRecord) : Text × Text := (r.sourceService, r.eventId)

def AuditRecordRow.key (r : AuditRecordRow) : Text × Text := (r.sourceService, r.eventId)

theorem isOf_iff : AuditRecordRow.isOf record.sourceService record.eventId row = true ↔ row.key = record.key := by
  simp [AuditRecordRow.isOf, AuditRecordRow.key, NewAuditRecord.key]

def trustedScopes (record : NewAuditRecord) (row : AuditRecordRow) : List AuditScopeRow :=
  if record.delivery.map (·.producerIdentityVerified) = some true ∧ (record.companyId.isSome ∨ record.platformId.isSome) then
    [{ recordId := row.id, companyId := record.companyId, platformId := record.platformId }]
  else []

structure Inserts (db : AuditDb) (record : NewAuditRecord) (db' : AuditDb) (row : AuditRecordRow) : Prop where
  mapped : ∃ t, instantOf record.occurredAt = some t ∧ row = rowOf db.nextId record t
  fresh : ∀ x ∈ db.records, x.key ≠ record.key
  records : db'.records = db.records ++ [row]
  scopes : db'.scopes = db.scopes ++ trustedScopes record row
  nextId : db'.nextId = db.nextId + 1

theorem insertOnce_inserted (h : insertOnce db record = .ok (db', .inserted row)) : Inserts db record db' row := by
  unfold insertOnce at h
  cases ht : instantOf record.occurredAt with
  | none => rw [ht] at h; cases h
  | some t =>
    simp only [ht] at h
    obtain ⟨-, h⟩ := guard_ok h
    cases hf : db.records.find? (AuditRecordRow.isOf record.sourceService record.eventId) with
    | some existing => rw [hf] at h; cases h
    | none =>
      simp only [hf] at h
      obtain ⟨-, h⟩ := guard_ok h
      cases h
      refine ⟨⟨t, ht, rfl⟩, fun x hx hk => ?_, rfl, ?_, rfl⟩
      · have := List.find?_eq_none.mp hf x hx
        exact this (isOf_iff.mpr hk)
      · unfold trustedScopes
        by_cases hs : record.delivery.map (·.producerIdentityVerified) = some true ∧ (record.companyId.isSome ∨ record.platformId.isSome)
        · have : (decide (record.delivery.map (·.producerIdentityVerified) = some true) &&
              (record.companyId.isSome || record.platformId.isSome)) = true := by simpa using hs
          rw [if_pos hs, this]
          rfl
        · have : (decide (record.delivery.map (·.producerIdentityVerified) = some true) &&
              (record.companyId.isSome || record.platformId.isSome)) = false := by
            rw [Bool.eq_false_iff]
            exact fun hc => hs (by simpa using hc)
          rw [if_neg hs, List.append_nil, this]
          rfl

theorem insertOnce_duplicate (h : insertOnce db record = .ok (db', .duplicate x)) : x ∈ db.records ∧ x.key = record.key := by
  unfold insertOnce at h
  cases ht : instantOf record.occurredAt with
  | none => rw [ht] at h; cases h
  | some t =>
    simp only [ht] at h
    obtain ⟨-, h⟩ := guard_ok h
    cases hf : db.records.find? (AuditRecordRow.isOf record.sourceService record.eventId) with
    | some existing =>
      rw [hf] at h
      cases h
      exact ⟨List.mem_of_find?_eq_some hf, isOf_iff.mp (List.find?_some hf)⟩
    | none =>
      simp only [hf] at h
      obtain ⟨-, h⟩ := guard_ok h
      cases h

end

/-! ## The invariant -/

variable {flights : List IngestFlight}

section
variable {cfg : IngestConfig} {s t : IngestState} {i : Nat} {f : IngestFlight} {w : IngestWrite} {record : NewAuditRecord} {row : AuditRecordRow}

structure Writer (cfg : IngestConfig) (flights : List IngestFlight) (w : IngestWrite) : Prop where
  row : ∃ t, instantOf w.record.occurredAt = some t ∧ w.row = rowOf w.row.id w.record t
  delivered : ∀ i, w.by = some i → ∃ f, flights[i]? = some f ∧ candidateOf cfg f.event f.trust = .ok w.record ∧
    (f.phase = .done .persisted ∨ f.phase = .done .failed)
  own : w.by = none → w.record.delivery = none ∧ w.record.sourceService = codes SERVICE_NAME_OWN

def FlightOk (cfg : IngestConfig) (writes : List IngestWrite) (i : Nat) (f : IngestFlight) : Prop :=
  match f.phase with
  | .taken | .done .failed => True
  | .conflicted record => candidateOf cfg f.event f.trust = .ok record ∧ ∃ w ∈ writes, w.row.key = record.key
  | .done .persisted => ∃ w ∈ writes, w.by = some i
  | .done .duplicate => ∃ record, candidateOf cfg f.event f.trust = .ok record ∧
      ∃ w ∈ writes, w.row.key = record.key ∧ SameContent w.record record
  | .done (.refused reason) => candidateOf cfg f.event f.trust = .error reason ∨
      (reason = "event_id_conflict" ∧ ∃ record, candidateOf cfg f.event f.trust = .ok record ∧
        ∃ w ∈ writes, w.row.key = record.key ∧ ¬ SameContent w.record record)

theorem FlightOk.append {writes more : List IngestWrite} (h : FlightOk cfg writes i f) : FlightOk cfg (writes ++ more) i f := by
  unfold FlightOk at h ⊢
  cases hp : f.phase with
  | taken => trivial
  | conflicted record =>
    rw [hp] at h
    obtain ⟨hc, w, hw, hk⟩ := h
    exact ⟨hc, w, List.mem_append_left _ hw, hk⟩
  | done result =>
    rw [hp] at h
    cases result with
    | failed => trivial
    | persisted =>
      obtain ⟨w, hw, hb⟩ := h
      exact ⟨w, List.mem_append_left _ hw, hb⟩
    | duplicate =>
      obtain ⟨r, hc, w, hw, hk⟩ := h
      exact ⟨r, hc, w, List.mem_append_left _ hw, hk⟩
    | refused reason =>
      rcases h with h | ⟨hr, r, hc, w, hw, hk⟩
      · exact .inl h
      · exact .inr ⟨hr, r, hc, w, List.mem_append_left _ hw, hk⟩

structure IngestInv (cfg : IngestConfig) (s : IngestState) : Prop where
  rows : s.db.records = s.writes.map (·.row)
  ids : ∀ w ∈ s.writes, w.row.id < s.db.nextId
  idOnce : (s.writes.map (·.row.id)).Nodup
  keyOnce : (s.writes.map (·.row.key)).Nodup
  writers : ∀ w ∈ s.writes, Writer cfg s.flights w
  scopes : ∀ w ∈ s.writes, s.db.scopes.filter (fun x => x.recordId = w.row.id) = trustedScopes w.record w.row
  scopeRecords : ∀ x ∈ s.db.scopes, ∃ w ∈ s.writes, w.row.id = x.recordId
  flights : ∀ i f, s.flights[i]? = some f → FlightOk cfg s.writes i f

theorem settle_flight (phase : IngestPhase) (j : Nat) :
    (s.settle i phase).flights[j]? = if i = j then s.flights[j]?.map fun f => { f with phase } else s.flights[j]? := by
  rw [IngestState.settle, List.getElem?_modify]
  split
  · rfl
  · simp

theorem IngestInv.settle (h : IngestInv cfg s) (hf : s.flights[i]? = some f) (hr : ∀ r, f.phase ≠ .done r) {phase : IngestPhase}
    (hok : FlightOk cfg s.writes i { f with phase }) : IngestInv cfg (s.settle i phase) := by
  refine { h with
    writers := fun w hw => ?_
    flights := fun j g hg => ?_ }
  · obtain ⟨hrow, hd, ho⟩ := h.writers w hw
    refine ⟨hrow, fun j hj => ?_, ho⟩
    obtain ⟨g, hg, hc, hp⟩ := hd j hj
    have hne : i ≠ j := by
      rintro rfl
      rw [hf] at hg
      cases hg
      rcases hp with hp | hp
      · exact hr _ hp
      · exact hr _ hp
    exact ⟨g, by rw [settle_flight, if_neg hne]; exact hg, hc, hp⟩
  · rw [settle_flight] at hg
    by_cases he : i = j
    · subst he
      rw [if_pos rfl, hf] at hg
      cases hg
      exact hok
    · rw [if_neg he] at hg
      exact h.flights j g hg

theorem trustedScopes_mem {x : AuditScopeRow} (h : x ∈ trustedScopes record row) :
    x.recordId = row.id := by
  unfold trustedScopes at h
  split at h
  · rw [List.mem_singleton.mp h]
  · cases h

theorem trustedScopes_filter (n : Nat) :
    (trustedScopes record row).filter (fun x => x.recordId = n) = if row.id = n then trustedScopes record row else [] := by
  by_cases hn : row.id = n
  · rw [if_pos hn]
    exact List.filter_eq_self.mpr fun x hx => decide_eq_true ((trustedScopes_mem hx).trans hn)
  · rw [if_neg hn]
    exact List.filter_eq_nil_iff.mpr fun x hx he => hn ((trustedScopes_mem hx).symm.trans (of_decide_eq_true he))

theorem Inserts.id {db db' : AuditDb} (h : Inserts db record db' row) :
    row.id = db.nextId ∧ row.key = record.key := by
  obtain ⟨t, -, rfl⟩ := h.mapped
  exact ⟨rfl, rfl⟩

theorem IngestInv.insert (h : IngestInv cfg s) {db' : AuditDb} (hi : Inserts s.db record db' row)
    {who : Option Nat} (hw : ∀ w ∈ s.writes, Writer cfg flights w) (hnew : Writer cfg flights ⟨row, record, who⟩)
    (hf : ∀ i f, flights[i]? = some f → FlightOk cfg (s.writes ++ [⟨row, record, who⟩]) i f) :
    IngestInv cfg { db := db', flights, writes := s.writes ++ [⟨row, record, who⟩] } := by
  obtain ⟨hid, hkey⟩ := hi.id
  refine {
    rows := by
      change db'.records = _
      rw [hi.records, h.rows, List.map_append]
      rfl
    ids := fun w hm => ?_
    idOnce := ?_
    keyOnce := ?_
    writers := fun w hm => ?_
    scopes := fun w hm => ?_
    scopeRecords := fun x hx => ?_
    flights := hf }
  · change w.row.id < db'.nextId
    rw [hi.nextId]
    rcases mem_append_row hm with hm | rfl
    · exact Nat.lt_succ_of_lt (h.ids w hm)
    · rw [hid]
      exact Nat.lt_succ_self _
  · refine nodup_append_row (k := fun w : IngestWrite => w.row.id) h.idOnce fun w hm he => ?_
    have := h.ids w hm
    have he : w.row.id = row.id := he
    omega
  · refine nodup_append_row (k := fun w : IngestWrite => w.row.key) h.keyOnce fun w hm he => ?_
    refine hi.fresh w.row ?_ (he.trans hkey)
    rw [h.rows]
    exact List.mem_map.mpr ⟨w, hm, rfl⟩
  · rcases mem_append_row hm with hm | rfl
    · exact hw w hm
    · exact hnew
  · change db'.scopes.filter _ = _
    rw [hi.scopes, List.filter_append, trustedScopes_filter]
    rcases mem_append_row hm with hm | rfl
    · have := h.ids w hm
      rw [if_neg (by omega), List.append_nil]
      exact h.scopes w hm
    · have hnone : s.db.scopes.filter (fun x => x.recordId = row.id) = [] := by
        refine List.filter_eq_nil_iff.mpr fun x hx he => ?_
        obtain ⟨w', hw', hx⟩ := h.scopeRecords x hx
        have := h.ids w' hw'
        have := of_decide_eq_true he
        omega
      rw [hnone, if_pos rfl, List.nil_append]
  · change x ∈ db'.scopes at hx
    rw [hi.scopes] at hx
    rcases List.mem_append.mp hx with hx | hx
    · obtain ⟨w, hw, he⟩ := h.scopeRecords x hx
      exact ⟨w, List.mem_append_left _ hw, he⟩
    · exact ⟨_, List.mem_append_right _ List.mem_cons_self, (trustedScopes_mem hx).symm⟩

theorem IngestInv.inserting (h : IngestInv cfg s) (hf : s.flights[i]? = some f) (hp : f.phase = .taken)
    (hc : candidateOf cfg f.event f.trust = .ok record) (answered : Bool) : IngestInv cfg (s.inserting i record answered) := by
  have hr : ∀ r, f.phase ≠ .done r := fun r he => by rw [hp] at he; cases he
  obtain ⟨⟨db', outcome⟩, hins⟩ := candidate_stores hc s.db
  unfold IngestState.inserting
  rw [hins]
  cases outcome with
  | duplicate x =>
    obtain ⟨hx, hk⟩ := insertOnce_duplicate hins
    rw [h.rows] at hx
    obtain ⟨w, hw, rfl⟩ := List.mem_map.mp hx
    cases answered with
    | true => exact h.settle hf hr ⟨hc, w, hw, hk⟩
    | false => exact h.settle hf hr trivial
  | inserted row =>
    have hi := insertOnce_inserted hins
    obtain ⟨t, ht, hrow⟩ := hi.mapped
    have hi' : (s.settle i (.done (if answered then .persisted else .failed))).flights[i]? =
        some { f with phase := .done (if answered then .persisted else .failed) } := by
      rw [settle_flight, if_pos rfl, hf]
      rfl
    refine h.insert hi (fun w hw => ?_) ⟨⟨t, ht, by rw [hrow]; rfl⟩, fun j hj => ?_, nofun⟩ fun j g hg => ?_
    · obtain ⟨hrow, hd, ho⟩ := h.writers w hw
      refine ⟨hrow, fun j hj => ?_, ho⟩
      obtain ⟨g, hg, hcg, hpg⟩ := hd j hj
      have hne : i ≠ j := by
        rintro rfl
        rw [hf] at hg
        cases hg
        rcases hpg with hpg | hpg <;> exact hr _ hpg
      exact ⟨g, by rw [settle_flight, if_neg hne]; exact hg, hcg, hpg⟩
    · cases hj
      refine ⟨_, hi', hc, ?_⟩
      cases answered
      · exact .inr rfl
      · exact .inl rfl
    · rw [settle_flight] at hg
      by_cases he : i = j
      · subst he
        rw [if_pos rfl, hf] at hg
        cases hg
        cases answered with
        | true => exact ⟨_, List.mem_append_right _ List.mem_cons_self, rfl⟩
        | false => trivial
      · rw [if_neg he] at hg
        exact (h.flights j g hg).append

theorem IngestInv.stored (h : IngestInv cfg s) {existing : AuditRecordRow}
    (hf : s.db.records.find? (AuditRecordRow.isOf record.sourceService record.eventId) = some existing) :
    ∃ w ∈ s.writes, w.row = existing ∧ w.row.key = record.key := by
  have hm := List.mem_of_find?_eq_some hf
  rw [h.rows] at hm
  obtain ⟨w, hw, rfl⟩ := List.mem_map.mp hm
  exact ⟨w, hw, rfl, isOf_iff.mp (List.find?_some hf)⟩

theorem Writer.recordOk (h : Writer cfg flights w) (hs : w.record.sourceService ≠ codes SERVICE_NAME_OWN) :
    RecordOk w.record := by
  cases hb : w.by with
  | none => exact absurd (h.own hb).2 hs
  | some i =>
    obtain ⟨f, -, hc, -⟩ := h.delivered i hb
    exact candidate_recordOk hc

theorem Writer.key (h : Writer cfg flights w) : w.row.key = w.record.key := by
  obtain ⟨t, -, hr⟩ := h.row
  rw [hr]
  rfl

theorem Writer.sameEvidence (h : Writer cfg flights w) {event : Envelope JsonValue} {trust : Option TrustDecision}
    (hc : candidateOf cfg event trust = .ok record) (hk : w.row.key = record.key) :
    Audit.sameEvidence w.row record = true ↔ SameContent w.record record := by
  obtain ⟨v, -, -, hs⟩ := candidateOf_ok hc
  have hsource : w.record.sourceService = record.sourceService := (Prod.mk.inj (h.key.symm.trans hk)).1
  obtain ⟨t, ht, hr⟩ := h.row
  rw [hr]
  exact sameEvidence_iff (h.recordOk (by rw [hsource]; exact hs)) (candidate_recordOk hc) ht

theorem IngestInv.step (h : IngestInv cfg s) (a : IngestAction) : IngestInv cfg (s.step cfg a) := by
  cases a with
  | take event trust =>
    refine { h with
      writers := fun w hw => ?_
      flights := fun i f hf => ?_ }
    · obtain ⟨hrow, hd, ho⟩ := h.writers w hw
      refine ⟨hrow, fun j hj => ?_, ho⟩
      obtain ⟨g, hg, hcg⟩ := hd j hj
      exact ⟨g, List.getElem?_append_left (List.getElem?_eq_some_iff.mp hg).1 ▸ hg, hcg⟩
    · rcases Nat.lt_or_ge i s.flights.length with hlt | hge
      · exact h.flights i f (by rw [← hf]; exact (List.getElem?_append_left hlt).symm)
      · have hf : ([{ event, trust, phase := .taken }] : List IngestFlight)[i - s.flights.length]? = some f := by
          rw [← hf]
          exact (List.getElem?_append_right hge).symm
        rw [List.mem_singleton.mp (List.mem_of_getElem? hf)]
        trivial
  | insert i answered =>
    simp only [IngestState.step]
    split
    · rename_i event trust hf
      cases hc : candidateOf cfg event trust with
      | error reason => exact h.settle hf (fun r => nofun) (.inl hc)
      | ok record => exact h.inserting hf rfl hc answered
    · exact h
  | compare i =>
    simp only [IngestState.step]
    split
    · rename_i event trust record hf
      have hok := h.flights i _ hf
      cases he : s.db.records.find? (AuditRecordRow.isOf record.sourceService record.eventId) with
      | none => exact h.settle hf (fun r => nofun) trivial
      | some existing =>
        obtain ⟨w, hw, rfl, hk⟩ := h.stored he
        have hs := (h.writers w hw).sameEvidence hok.1 hk
        refine h.settle hf (fun r => nofun) ?_
        by_cases hsame : sameEvidence w.row record = true
        · rw [if_pos hsame]
          exact ⟨record, hok.1, w, hw, hk, hs.mp hsame⟩
        · rw [if_neg hsame]
          exact .inr ⟨rfl, record, hok.1, w, hw, hk, fun hc => hsame (hs.mpr hc)⟩
    · exact h
  | fail i =>
    simp only [IngestState.step]
    split
    · exact h
    · exact h
    · rename_i f hnd hf
      exact h.settle hf (fun r he => hnd f.event f.trust r (by rw [← he])) trivial
  | own record =>
    simp only [IngestState.step]
    split
    · rename_i hown
      split
      · rename_i db row hins
        have hi := insertOnce_inserted hins
        obtain ⟨t, ht, hrow⟩ := hi.mapped
        exact h.insert hi h.writers ⟨⟨t, ht, by rw [hrow]; rfl⟩, nofun, fun _ => hown⟩
          fun j g hg => (h.flights j g hg).append
      · exact h
    · exact h

/-! ## Every run -/

theorem start_inv : IngestInv cfg .start where
  rows := rfl
  ids w hw := absurd hw List.not_mem_nil
  idOnce := List.nodup_nil
  keyOnce := List.nodup_nil
  writers w hw := absurd hw List.not_mem_nil
  scopes w hw := absurd hw List.not_mem_nil
  scopeRecords x hx := absurd hx List.not_mem_nil
  flights i f hf := by
    have hf : ([] : List IngestFlight)[i]? = some f := hf
    cases hf

theorem run_inv (h : IngestInv cfg s) (actions : List IngestAction) : IngestInv cfg (actions.foldl (IngestState.step cfg) s) := by
  induction actions generalizing s with
  | nil => exact h
  | cons a actions ih => exact ih (h.step a)

theorem SameContent.refl (record : NewAuditRecord) : SameContent record record where
  fixed := rfl
  changes := by
    cases hc : record.changes with
    | none => exact .none
    | some c => exact .some fun k => rfl
  occurredAt := rfl

theorem IngestInv.unique (h : IngestInv cfg s) {w' : IngestWrite} (hw : w ∈ s.writes) (hw' : w' ∈ s.writes) (hk : w.row.key = w'.row.key) :
    w = w' :=
  eq_of_key (k := fun w : IngestWrite => w.row.key) h.keyOnce hw hw' hk

def Stored (s : IngestState) (record : NewAuditRecord) : Prop :=
  ∃ w ∈ s.writes, w.row ∈ s.db.records ∧ w.row.key = record.key ∧ SameContent w.record record

theorem IngestInv.acknowledged (h : IngestInv cfg s) (hf : s.flights[i]? = some f) {result : IngestResult} (hp : f.phase = .done result)
    (hr : result.error = none) : ∃ record, candidateOf cfg f.event f.trust = .ok record ∧ Stored s record := by
  have hok := h.flights i f hf
  have hrow : ∀ w ∈ s.writes, w.row ∈ s.db.records := fun w hw => by
    rw [h.rows]
    exact List.mem_map.mpr ⟨w, hw, rfl⟩
  unfold FlightOk at hok
  rw [hp] at hok
  cases result with
  | persisted =>
    obtain ⟨w, hw, hb⟩ := hok
    obtain ⟨g, hg, hc, -⟩ := (h.writers w hw).delivered i hb
    rw [hf] at hg
    cases hg
    exact ⟨w.record, hc, w, hw, hrow w hw, (h.writers w hw).key, .refl _⟩
  | duplicate =>
    obtain ⟨record, hc, w, hw, hk, hs⟩ := hok
    exact ⟨record, hc, w, hw, hrow w hw, hk, hs⟩
  | refused reason => cases hr
  | failed => cases hr

structure Conflicting (cfg : IngestConfig) (s : IngestState) (f : IngestFlight) (record : NewAuditRecord) : Prop where
  candidate : candidateOf cfg f.event f.trust = .ok record
  stored : ∃ w ∈ s.writes, w.row.key = record.key ∧ ¬ SameContent w.record record

theorem IngestInv.conflicting (h : IngestInv cfg s) (hf : s.flights[i]? = some f) (hc : Conflicting cfg s f record) :
    (∀ w ∈ s.writes, w.by ≠ some i) ∧ ∀ result, f.phase = .done result → result = .failed ∨ result = .refused "event_id_conflict" := by
  obtain ⟨hcand, w, hw, hk, hns⟩ := hc
  have hnone : ∀ v ∈ s.writes, v.by ≠ some i := by
    intro v hv hb
    obtain ⟨g, hg, hcg, -⟩ := (h.writers v hv).delivered i hb
    rw [hf] at hg
    cases hg
    rw [hcand] at hcg
    cases hcg
    have he : w = v := h.unique hw hv (hk.trans (h.writers v hv).key.symm)
    rw [he] at hns
    exact hns (.refl _)
  refine ⟨hnone, fun result hp => ?_⟩
  have hok := h.flights i f hf
  unfold FlightOk at hok
  rw [hp] at hok
  cases result with
  | persisted =>
    obtain ⟨v, hv, hb⟩ := hok
    exact absurd hb (hnone v hv)
  | duplicate =>
    obtain ⟨r, hr, v, hv, hkv, hs⟩ := hok
    rw [hcand] at hr
    cases hr
    rw [h.unique hw hv (hk.trans hkv.symm)] at hns
    exact absurd hs hns
  | failed => exact .inl rfl
  | refused reason =>
    rcases hok with hr | ⟨rfl, -⟩
    · rw [hcand] at hr
      cases hr
    · exact .inr rfl

theorem IngestInv.conflicting_insert (h : IngestInv cfg s) (hf : s.flights[i]? = some f)
    (hc : Conflicting cfg s f record) (hp : f.phase = .taken) :
    (s.step cfg (.insert i true)).flights[i]? = some { f with phase := .conflicted record } := by
  obtain ⟨hcand, w, hw, hk, -⟩ := hc
  obtain ⟨event, trust, phase⟩ := f
  cases hp
  simp only [IngestState.step, hf, hcand]
  obtain ⟨⟨db', outcome⟩, hins⟩ := candidate_stores hcand s.db
  unfold IngestState.inserting
  rw [hins]
  cases outcome with
  | duplicate x =>
    simp only
    rw [settle_flight, if_pos rfl, hf]
    rfl
  | inserted row =>
    have hfresh := (insertOnce_inserted hins).fresh w.row
    rw [h.rows] at hfresh
    exact absurd hk (hfresh (List.mem_map.mpr ⟨w, hw, rfl⟩))

theorem IngestInv.conflicting_compare (h : IngestInv cfg s) (hf : s.flights[i]? = some f)
    (hc : Conflicting cfg s f record) (hp : f.phase = .conflicted record) :
    (s.step cfg (.compare i)).flights[i]? = some { f with phase := .done (.refused "event_id_conflict") } := by
  obtain ⟨hcand, w, hw, hk, hns⟩ := hc
  obtain ⟨event, trust, phase⟩ := f
  cases hp
  simp only [IngestState.step, hf]
  cases he : s.db.records.find? (AuditRecordRow.isOf record.sourceService record.eventId) with
  | none =>
    have hm : w.row ∈ s.db.records := by
      rw [h.rows]
      exact List.mem_map.mpr ⟨w, hw, rfl⟩
    exact absurd (isOf_iff.mpr hk) (List.find?_eq_none.mp he w.row hm)
  | some existing =>
    obtain ⟨v, hv, rfl, hkv⟩ := h.stored he
    have hwv : w = v := h.unique hw hv (hk.trans hkv.symm)
    subst hwv
    have hs : sameEvidence w.row record ≠ true := fun hs => hns (((h.writers w hw).sameEvidence hcand hk).mp hs)
    simp only
    rw [settle_flight, if_pos rfl, hf, if_neg hs]
    rfl

theorem inserting_prefix (i : Nat) (record : NewAuditRecord) (answered : Bool) :
    s.writes <+: (s.inserting i record answered).writes := by
  unfold IngestState.inserting
  split
  · exact List.prefix_rfl
  · exact List.prefix_rfl
  · exact List.prefix_append _ _

theorem step_extends (a : IngestAction) : s.writes <+: (s.step cfg a).writes := by
  cases a with
  | take event trust => exact List.prefix_rfl
  | insert i answered =>
    simp only [IngestState.step]
    split
    · split
      · exact List.prefix_rfl
      · exact inserting_prefix _ _ _
    · exact List.prefix_rfl
  | compare i =>
    simp only [IngestState.step]
    split
    · split <;> exact List.prefix_rfl
    · exact List.prefix_rfl
  | fail i =>
    simp only [IngestState.step]
    split <;> exact List.prefix_rfl
  | own record =>
    simp only [IngestState.step]
    split
    · split
      · exact List.prefix_append _ _
      · exact List.prefix_rfl
    · exact List.prefix_rfl

theorem run_extends (actions : List IngestAction) : s.writes <+: (actions.foldl (IngestState.step cfg) s).writes := by
  induction actions generalizing s with
  | nil => exact List.prefix_rfl
  | cons a actions ih => exact (step_extends a).trans ih

theorem IngestInv.scope_iff (h : IngestInv cfg s) (hw : w ∈ s.writes) (x : AuditScopeRow) :
    (x ∈ s.db.scopes ∧ x.recordId = w.row.id) ↔
      w.record.delivery.map (·.producerIdentityVerified) = some true ∧ (w.record.companyId.isSome ∨ w.record.platformId.isSome) ∧
        x = { recordId := w.row.id, companyId := w.record.companyId, platformId := w.record.platformId } := by
  have hm : (x ∈ s.db.scopes ∧ x.recordId = w.row.id) ↔ x ∈ trustedScopes w.record w.row := by
    rw [← h.scopes w hw, List.mem_filter, decide_eq_true_eq]
  rw [hm, trustedScopes]
  split
  · rename_i hc
    rw [List.mem_singleton]
    exact ⟨fun hx => ⟨hc.1, hc.2, hx⟩, fun hx => hx.2.2⟩
  · rename_i hc
    exact ⟨fun hx => absurd hx List.not_mem_nil, fun hx => absurd ⟨hx.1, hx.2.1⟩ hc⟩

end

/-! ## Exactly once -/

structure ScopedBy (trust : Option TrustDecision) (record : NewAuditRecord) (row : AuditRecordRow) (x : AuditScopeRow) : Prop where
  verified : (deliveryAssessment trust).map (·.producerIdentityVerified) = some true
  asserted : record.companyId.isSome ∨ record.platformId.isSome
  row : x = { recordId := row.id, companyId := record.companyId, platformId := record.platformId }

/-- What a state of the ingestion keeps, whatever order the deliveries came in. -/
structure ExactlyOnce (cfg : IngestConfig) (s : IngestState) : Prop where
  once : (s.db.records.map (·.key)).Nodup
  acknowledged : ∀ (i : Nat) (f : IngestFlight) (result : IngestResult), s.flights[i]? = some f → f.phase = .done result → result.error = none →
    ∃ record, candidateOf cfg f.event f.trust = .ok record ∧ Stored s record
  conflicts : ∀ (i : Nat) (f : IngestFlight) (record : NewAuditRecord), s.flights[i]? = some f → Conflicting cfg s f record →
    (∀ w ∈ s.writes, w.by ≠ some i) ∧
      (∀ result, f.phase = .done result → result = .failed ∨ result = .refused "event_id_conflict") ∧
      (f.phase = .taken → (s.step cfg (.insert i true)).flights[i]? = some { f with phase := .conflicted record }) ∧
      (f.phase = .conflicted record → (s.step cfg (.compare i)).flights[i]? = some { f with phase := .done (.refused "event_id_conflict") })
  writers : ∀ row ∈ s.db.records, ∃ w ∈ s.writes, w.row = row ∧ Writer cfg s.flights w
  scopes : ∀ w ∈ s.writes, ∀ (i : Nat) (f : IngestFlight), w.by = some i → s.flights[i]? = some f →
    ∀ x, (x ∈ s.db.scopes ∧ x.recordId = w.row.id) ↔ ScopedBy f.trust w.record w.row x
  /-- A record of the service itself has no scope rows, and a scope row has its record. -/
  unscoped : ∀ x ∈ s.db.scopes, ∃ w ∈ s.writes, w.row.id = x.recordId ∧ w.by ≠ none

theorem IngestInv.exactlyOnce {cfg : IngestConfig} {s : IngestState} (h : IngestInv cfg s) : ExactlyOnce cfg s where
  once := by
    rw [h.rows, List.map_map]
    exact h.keyOnce
  acknowledged i f result hf hp hr := h.acknowledged hf hp hr
  conflicts i f record hf hc := by
    obtain ⟨hnone, hdone⟩ := h.conflicting hf hc
    exact ⟨hnone, hdone, h.conflicting_insert hf hc, h.conflicting_compare hf hc⟩
  writers row hrow := by
    rw [h.rows] at hrow
    obtain ⟨w, hw, rfl⟩ := List.mem_map.mp hrow
    exact ⟨w, hw, rfl, h.writers w hw⟩
  scopes w hw i f hb hf x := by
    obtain ⟨g, hg, hc, -⟩ := (h.writers w hw).delivered i hb
    rw [hf] at hg
    cases hg
    rw [h.scope_iff hw, candidate_delivery hc]
    exact ⟨fun hx => ⟨hx.1, hx.2.1, hx.2.2⟩, fun hx => ⟨hx.verified, hx.asserted, hx.row⟩⟩
  unscoped x hx := by
    obtain ⟨w, hw, he⟩ := h.scopeRecords x hx
    refine ⟨w, hw, he, fun hb => ?_⟩
    have hs := ((h.scope_iff hw x).mp ⟨hx, he.symm⟩).1
    rw [((h.writers w hw).own hb).1] at hs
    cases hs

/-- **The exactly-once law of the ingestion.** In every run, and a later run leaves every stored record as it is. -/
theorem ingestion_exactly_once (cfg : IngestConfig) (actions later : List IngestAction) :
    ExactlyOnce cfg (actions.foldl (IngestState.step cfg) .start) ∧
      (actions.foldl (IngestState.step cfg) .start).db.records <+: ((actions ++ later).foldl (IngestState.step cfg) .start).db.records := by
  have h := (@run_inv cfg) start_inv actions
  refine ⟨h.exactlyOnce, ?_⟩
  have hlater := (@run_inv cfg) start_inv (actions ++ later)
  rw [h.rows, hlater.rows, List.foldl_append]
  exact (run_extends later).map _

end NawaraCore.Audit
