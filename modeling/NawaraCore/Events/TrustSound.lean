import NawaraCore.Events.Bus
import NawaraCore.Lib.Outcome
import NawaraCore.Lib.Rows
import NawaraCore.Lib.Runs

/-!
# The handler runs only for what was first verified

Over every run of a strictly enforced subscription. The rows only grow, one verified
row is kept for an event id, and a delivery is accepted only with the name and the
body of that row; whatever was stored unverified changes no decision about it.
-/

namespace NawaraCore.Events

variable {H : Hashing} {Payload : Type} {r : StoredRow H}

theorem token_eq {v : Option String} {p : String → Bool} {s : String} (h : token v p = s) (hs : s ≠ "") : v = some s ∧ p s = true := by
  cases v with
  | none => exact absurd h.symm hs
  | some w =>
    unfold token at h
    by_cases hp : p w = true
    · simp only [hp, if_true] at h
      subst h
      exact ⟨rfl, hp⟩
    · simp only [hp] at h
      exact absurd h.symm hs

theorem shownOf_text {v : Option HeaderValue} {s : String} (h : textOf v = some s) : shownOf v = s := by
  cases v with
  | none => cases h
  | some w =>
    cases w with
    | null => cases h
    | text t n => cases h; rfl
    | other t n => cases h

structure VerifiedFacts (msg : Message) (o : ProvenanceFacts) : Prop where
  source : textOf (msg.headers "source") = some o.source
  eventId : msg.messageId = some o.eventId
  name : msg.type = some o.name
  producer : o.producerUserId = some o.source
  source_ne : o.source ≠ ""
  eventId_ne : o.eventId ≠ ""
  name_ne : o.name ≠ ""

variable {msg : Message} {o : ProvenanceFacts}

theorem verifiedFacts {exchange : String} {ownerOf : String → Option String}
    (h : evaluateProvenanceFacts msg exchange ownerOf = some o) (hv : o.verified = true) : VerifiedFacts msg o := by
  unfold evaluateProvenanceFacts at h
  obtain ⟨_, h⟩ := passed h (by simp)
  cases h
  replace hv := of_decide_eq_true hv
  simp only [provenanceReason] at hv
  obtain ⟨huser, hv⟩ := passed hv (by simp)
  obtain ⟨hsource, hv⟩ := passed hv (by simp)
  obtain ⟨_, hv⟩ := passed hv (by simp)
  obtain ⟨_, hv⟩ := passed hv (by simp)
  obtain ⟨hname, hv⟩ := passed hv (by simp)
  obtain ⟨hid, -⟩ := passed hv (by simp)
  simp only [not_or, Bool.not_eq_false, ne_eq, not_not] at hsource hname hid
  have hne : token (textOf (msg.headers "source")) SERVICE ≠ "" := by rw [hsource]; exact huser
  have hidne : token msg.messageId ID_TOKEN ≠ "" := fun h => isUuid_ne_nil hid.1 (by rw [h]; rfl)
  exact {
    source := (token_eq rfl hne).1
    eventId := (token_eq rfl hidne).1
    name := (token_eq rfl hname.1).1
    producer := by simp only [if_neg huser, hsource]
    source_ne := hne
    eventId_ne := hidne
    name_ne := hname.1 }

/-! ## Rows -/

def StoredRow.key (r : StoredRow H) : String × String × String × Bool := (r.consumer, r.source, r.eventId, r.verified)

variable {consumer source eventId : String}

theorem isFor_iff :
    r.isFor consumer source eventId = true ↔ r.consumer = consumer ∧ r.source = source ∧ r.eventId = eventId := by
  simp [StoredRow.isFor, and_assoc]

def firstVerified (rows : List (StoredRow H)) (consumer source eventId : String) : Option (StoredRow H) :=
  rows.find? fun r => r.isFor consumer source eventId && r.verified

def Commits (r : StoredRow H) (body : Body) : Prop :=
  match r.commitment with
  | .digest d => d = H.sha256 body
  | .mac _ _ mac => ∃ key, mac = H.hmac key body

theorem Commits.unique {a b : Body} (ha : Commits r a) (hb : Commits r b) : a = b := by
  unfold Commits at ha hb
  cases hc : r.commitment with
  | digest d =>
    rw [hc] at ha hb
    exact H.sha256_injective (ha.symm.trans hb)
  | mac v k m =>
    rw [hc] at ha hb
    obtain ⟨key, ha⟩ := ha
    obtain ⟨key', hb⟩ := hb
    exact (H.hmac_injective (ha.symm.trans hb)).2

theorem commits_rowOf (store : Store H) (consumer : String) (o : ProvenanceFacts) (body : Body) :
    Commits (rowOf store consumer o body) body := by
  cases store with
  | plain => rfl
  | keyed ring => exact ⟨ring.activeKey, rfl⟩

variable {store : Store H}

theorem bodyOf_same {body : Body} (h : store.bodyOf body r.commitment = .ok .same) : Commits r body := by
  unfold Commits
  cases store with
  | plain =>
    cases hc : r.commitment with
    | digest d =>
      simp only [hc, Store.bodyOf, Except.ok.injEq] at h
      by_contra hd
      rw [if_neg hd] at h
      cases h
    | mac v k m => rw [hc] at h; cases h
  | keyed ring =>
    cases hc : r.commitment with
    | digest d => rw [hc] at h; cases h
    | mac v k m =>
      rw [hc] at h
      obtain ⟨_, h⟩ := guard_ok h
      cases hk : ring.keys k with
      | none =>
        simp only [hk] at h
        by_cases hr : ring.retiredKeyIds k = true
        · rw [if_pos hr] at h; cases h
        · rw [if_neg hr] at h; cases h
      | some key =>
        simp only [hk, Except.ok.injEq] at h
        refine ⟨key, ?_⟩
        by_contra hm
        rw [if_neg (fun e => hm e.symm)] at h
        cases h

/-- What the table keeps: one row for a key, and what makes a row verified. -/
structure RowsSound (rows : List (StoredRow H)) : Prop where
  keys : (rows.map StoredRow.key).Nodup
  producer : ∀ r ∈ rows, r.verified = true → r.producerUserId = some r.source
  source : ∀ r ∈ rows, r.verified = true → r.source ≠ ""
  eventId : ∀ r ∈ rows, r.verified = true → r.eventId ≠ ""
  name : ∀ r ∈ rows, r.verified = true → r.name ≠ ""

variable {rows : List (StoredRow H)}

theorem RowsSound.first (hs : RowsSound rows) (hr : r ∈ rows) (hv : r.verified = true) :
    firstVerified rows r.consumer r.source r.eventId = some r := by
  have hsome : (firstVerified rows r.consumer r.source r.eventId).isSome := List.find?_isSome.mpr ⟨r, hr, by simp [StoredRow.isFor, hv]⟩
  obtain ⟨q, hq⟩ := Option.isSome_iff_exists.mp hsome
  have hp := List.find?_some hq
  obtain ⟨hfor, hqv⟩ := Bool.and_eq_true_iff.mp hp
  obtain ⟨h1, h2, h3⟩ := isFor_iff.mp hfor
  rw [hq, eq_of_key hs.keys (List.mem_of_find?_eq_some hq) hr (by simp [StoredRow.key, h1, h2, h3, hqv, hv])]

theorem firstVerified_append {rows more : List (StoredRow H)}
    (h : firstVerified rows consumer source eventId = some r) : firstVerified (rows ++ more) consumer source eventId = some r := by
  unfold firstVerified at *
  rw [List.find?_append, h]
  rfl

/-! ## Recording -/

section
variable {store : Store H} {rows rows' : List (StoredRow H)} {consumer : String} {o : ProvenanceFacts} {body : Body} {a : ProvenanceAssessment}

def Inserts (rows : List (StoredRow H)) (consumer : String) (o : ProvenanceFacts) : Bool :=
  !(rows.filter (StoredRow.isFor consumer o.source o.eventId)).any fun r => r.verified == o.verified

theorem assess_ok (h : assess store rows consumer o body = .ok (rows', a)) :
    rows' = (if Inserts rows consumer o then rows ++ [rowOf store consumer o body] else rows) ∧
    assessVerified store o body (Inserts rows consumer o) (rows.filter (StoredRow.isFor consumer o.source o.eventId)) = .ok a.verified := by
  unfold assess at h
  obtain ⟨cs, _, h⟩ := bind_eq_ok.mp h
  obtain ⟨v, hv, h⟩ := bind_eq_ok.mp h
  cases h
  exact ⟨rfl, hv⟩

theorem inserts_iff : Inserts rows consumer o = true ↔ ∀ r ∈ rows, r.isFor consumer o.source o.eventId = true → r.verified ≠ o.verified := by
  simp [Inserts]

theorem RowsSound.recorded (hs : RowsSound rows) (hf : o.verified = true → o.producerUserId = some o.source ∧ o.source ≠ "" ∧ o.eventId ≠ "" ∧ o.name ≠ "")
    (hi : Inserts rows consumer o = true) : RowsSound (rows ++ [rowOf store consumer o body]) := by
  have hnew := inserts_iff.mp hi
  have hall {p : StoredRow H → Prop} (h : ∀ r ∈ rows, r.verified = true → p r)
      (hb : o.verified = true → p (rowOf store consumer o body)) :
      ∀ r ∈ rows ++ [rowOf store consumer o body], r.verified = true → p r := by
    intro r hr hv
    rcases mem_append_row hr with hr | rfl
    · exact h r hr hv
    · exact hb hv
  refine ⟨nodup_append_row hs.keys fun r hr hk => ?_, hall hs.producer fun h => (hf h).1, hall hs.source fun h => (hf h).2.1,
    hall hs.eventId fun h => (hf h).2.2.1, hall hs.name fun h => (hf h).2.2.2⟩
  simp only [StoredRow.key, rowOf, Prod.mk.injEq] at hk
  exact hnew r hr (isFor_iff.mpr ⟨hk.1, hk.2.1, hk.2.2.1⟩) hk.2.2.2

theorem assess_accepts (hs : RowsSound rows) (h : assess store rows consumer o body = .ok (rows', a)) (hv : o.verified = true)
    (ha : a.verified = .first ∨ a.verified = .matches) :
    ∃ r, firstVerified rows' consumer o.source o.eventId = some r ∧ r.name = o.name ∧ Commits r body := by
  obtain ⟨rfl, hav⟩ := assess_ok h
  have hvf : ¬ o.verified = false := by simp [hv]
  cases hi : Inserts rows consumer o with
  | true =>
    have hnone : firstVerified rows consumer o.source o.eventId = none := by
      refine List.find?_eq_none.mpr fun r hr hp => ?_
      obtain ⟨hfor, hrv⟩ := Bool.and_eq_true_iff.mp hp
      exact inserts_iff.mp hi r hr hfor (hrv.trans hv.symm)
    refine ⟨rowOf store consumer o body, ?_, rfl, commits_rowOf ..⟩
    unfold firstVerified at hnone ⊢
    rw [if_pos rfl, List.find?_append, hnone]
    simp [rowOf, StoredRow.isFor, hv]
  | false =>
    simp only [assessVerified, hi, if_neg hvf, Bool.false_eq_true, if_false] at hav
    cases hfind : (rows.filter (StoredRow.isFor consumer o.source o.eventId)).find? (·.verified) with
    | none =>
      simp only [hfind, Except.ok.injEq] at hav
      rw [← hav] at ha
      simp at ha
    | some r =>
      simp only [hfind] at hav
      have hrv : r.verified = true := by simpa using List.find?_some hfind
      obtain ⟨hr, hfor⟩ := List.mem_filter.mp (List.mem_of_find?_eq_some hfind)
      obtain ⟨rfl, h2, h3⟩ := isFor_iff.mp hfor
      refine ⟨r, by rw [if_neg (by simp), ← h2, ← h3]; exact hs.first hr hrv, ?_⟩
      obtain ⟨c, hc, hav⟩ := bind_eq_ok.mp hav
      cases c with
      | same =>
        unfold compareRow at hc
        by_cases hsame : sameFacts r o = true
        · rw [if_pos hsame] at hc
          simp only [sameFacts, Bool.and_eq_true, beq_iff_eq] at hsame
          exact ⟨hsame.1.1.1, bodyOf_same hc⟩
        · rw [if_neg hsame] at hc
          cases hc
      | different => rw [← Except.ok.inj hav] at ha; simp at ha
      | unverifiable => rw [← Except.ok.inj hav] at ha; simp at ha

theorem assess_verified : (assess store rows consumer o body).map (·.2.verified) =
    (rows.filter (StoredRow.isFor consumer o.source o.eventId)).mapM (compareRow store o body) >>= fun _ =>
      assessVerified store o body (Inserts rows consumer o) (rows.filter (StoredRow.isFor consumer o.source o.eventId)) := by
  simp only [assess, Inserts]
  cases (rows.filter (StoredRow.isFor consumer o.source o.eventId)).mapM (compareRow store o body) with
  | error e => rfl
  | ok cs =>
    generalize (rows.filter (StoredRow.isFor consumer o.source o.eventId)) = stored
    cases hv : assessVerified store o body (!stored.any fun r => r.verified == o.verified) stored with
    | error e => simp [bind, Except.bind, Except.map]
    | ok v => simp [bind, Except.bind, Except.map, pure, Except.pure]

theorem mapM_filter_bind {β : Type} {f : StoredRow H → Except StoreError β} {p : StoredRow H → Bool} {g : Except StoreError VerifiedAssessment}
    (hf : ∀ r, p r = false → ∃ b, f r = .ok b) (l : List (StoredRow H)) : (l.mapM f >>= fun _ => g) = ((l.filter p).mapM f >>= fun _ => g) := by
  induction l with
  | nil => rfl
  | cons r l ih =>
    cases hp : p r with
    | true =>
      rw [List.filter_cons_of_pos hp, List.mapM_cons, List.mapM_cons]
      cases hr : f r with
      | error e => rfl
      | ok b =>
        cases hl : l.mapM f with
        | error e => cases hm : (l.filter p).mapM f <;> simp_all [bind, Except.bind, pure, Except.pure]
        | ok bs => cases hm : (l.filter p).mapM f <;> simp_all [bind, Except.bind, pure, Except.pure]
    | false =>
      obtain ⟨b, hb⟩ := hf r hp
      rw [List.filter_cons_of_neg (by simp [hp]), List.mapM_cons, hb, ← ih]
      cases hl : l.mapM f <;> simp [bind, Except.bind, pure, Except.pure]

theorem assess_verified_rows (hv : o.verified = true) :
    (assess store rows consumer o body).map (·.2.verified) = (assess store (rows.filter (·.verified)) consumer o body).map (·.2.verified) := by
  have hins : Inserts (rows.filter (·.verified)) consumer o = Inserts rows consumer o := by
    rw [Bool.eq_iff_iff, inserts_iff, inserts_iff, hv]
    refine ⟨fun h r hr hfor hrv => h r (List.mem_filter.mpr ⟨hr, hrv⟩) hfor hrv, fun h r hr => h r (List.mem_filter.mp hr).1⟩
  have hfilter : (rows.filter (·.verified)).filter (StoredRow.isFor consumer o.source o.eventId) =
      (rows.filter (StoredRow.isFor consumer o.source o.eventId)).filter (·.verified) := by
    rw [List.filter_filter, List.filter_filter]
    exact List.filter_congr fun r _ => Bool.and_comm ..
  have hassess : assessVerified store o body (Inserts rows consumer o) (rows.filter (StoredRow.isFor consumer o.source o.eventId)) =
      assessVerified store o body (Inserts rows consumer o) ((rows.filter (StoredRow.isFor consumer o.source o.eventId)).filter (·.verified)) := by
    have hfind (l : List (StoredRow H)) : (l.filter (·.verified)).find? (·.verified) = l.find? (·.verified) := by simp [List.find?_filter]
    unfold assessVerified
    rw [hfind]
  rw [assess_verified, assess_verified, hins, hfilter, hassess]
  refine mapM_filter_bind (fun r hr => ⟨.different, if_neg ?_⟩) _
  simp [sameFacts, hr, hv]

end

section
variable {name : String} {body : StoredRow H → Except StoreError Comparison} {key : ReplayCandidate} {fallback c : ReplayClassification}

structure MatchedBy (name : String) (body : StoredRow H → Except StoreError Comparison) (key : ReplayCandidate) (c : ReplayClassification)
    (r : StoredRow H) : Prop where
  verified : r.verified = true
  name : r.name = name
  body : body r = .ok .same
  matched : c.matched = some {
    source := key.source
    eventId := key.eventId
    name := r.name
    routingKey := r.routingKey
    producerUserId := r.producerUserId }

variable {rows : List (StoredRow H)}

theorem decideReplayFrom_matched {u : Option (StoredRow H)}
    (h : decideReplayFrom name body key fallback rows u = .ok c) (hf : fallback.outcome = .replay_mismatch)
    (hc : c.outcome = .replay_matched_verified) : ∃ r ∈ rows, MatchedBy name body key c r := by
  induction rows generalizing u with
  | nil =>
    cases u with
    | none => cases h; rw [hf] at hc; cases hc
    | some u => cases h; cases hc
  | cons r rest ih =>
    have hrest {u : Option (StoredRow H)} (h : decideReplayFrom name body key fallback rest u = .ok c) :
        ∃ q ∈ r :: rest, MatchedBy name body key c q := by
      obtain ⟨q, hq, hrow⟩ := ih h
      exact ⟨q, List.mem_cons_of_mem r hq, hrow⟩
    unfold decideReplayFrom at h
    by_cases hn : r.name ≠ name
    · rw [if_pos hn] at h
      exact hrest h
    · rw [if_neg hn] at h
      obtain ⟨b, hb, h⟩ := bind_eq_ok.mp h
      cases b with
      | same =>
        cases h
        have hrv : r.verified = true := by
          by_contra hrv
          simp only [if_neg hrv] at hc
          cases hc
        exact ⟨r, List.mem_cons_self, { verified := hrv, name := not_not.mp hn, body := hb, matched := rfl }⟩
      | unverifiable => exact hrest h
      | different => exact hrest h

theorem mem_verifiedFirst (h : r ∈ verifiedFirst rows) : r ∈ rows := by
  rcases List.mem_append.mp h with h | h <;> exact (List.mem_filter.mp h).1

theorem decideReplay_matched (h : decideReplay rows key body = .ok c)
    (hc : c.outcome = .replay_matched_verified) : ∃ r ∈ rows, MatchedBy key.name body key c r := by
  unfold decideReplay at h
  cases hrows : verifiedFirst rows with
  | nil => rw [hrows] at h; cases h; cases hc
  | cons r rest =>
    rw [hrows] at h
    obtain ⟨q, hq, hrow⟩ := decideReplayFrom_matched h rfl hc
    exact ⟨q, mem_verifiedFirst (hrows ▸ hq), hrow⟩

end

/-! ## Decisions -/

section
variable {cx : TrustContext H} {policy : EnforcementPolicy} {rows rows' : List (StoredRow H)} {msg : Message} {outcome : StoreOutcome}
  {event : Envelope Payload} {parse : Body → Option Payload} {basis : TrustBasis} {origin : TrustedOrigin}

structure EnvelopeOf (msg : Message) (event : Envelope Payload) : Prop where
  id : msg.messageId = some event.id
  name : msg.type = some event.name
  source : shownOf (msg.headers "source") = event.source

theorem envelopeOf_some (h : envelopeOf parse msg = some event) : EnvelopeOf msg event := by
  unfold envelopeOf at h
  cases hid : msg.messageId with
  | none => simp [hid] at h
  | some id =>
    cases hname : msg.type with
    | none => simp [hid, hname] at h
    | some name =>
      simp only [hid, hname] at h
      obtain ⟨_, h⟩ := passed h (by simp)
      obtain ⟨payload, _, rfl⟩ := Option.map_eq_some_iff.mp h
      exact ⟨hid, hname, rfl⟩

def Trusted (rows : List (StoredRow H)) (consumer : String) (event : Envelope Payload) (content : Body) : Prop :=
  ∃ r, firstVerified rows consumer event.source event.id = some r ∧ r.name = event.name ∧ Commits r content

theorem Trusted.append {consumer : String} {content : Body} {more : List (StoredRow H)} (h : Trusted rows consumer event content) :
    Trusted (rows ++ more) consumer event content := by
  obtain ⟨r, hr, hrest⟩ := h
  exact ⟨r, firstVerified_append hr, hrest⟩

theorem trustDecision_rows (h : (trustDecision cx policy rows msg outcome).1 = rows') :
    rows' = rows ∨ ∃ o, evaluateProvenanceFacts msg cx.exchange cx.ownerOf = some o ∧ Inserts rows cx.queue o = true ∧
      rows' = rows ++ [rowOf cx.store cx.queue o msg.content] := by
  unfold trustDecision at h
  cases he : evaluateProvenanceFacts msg cx.exchange cx.ownerOf with
  | none =>
    simp only [he] at h
    refine .inl ?_
    rw [← h]
    by_cases hx : msg.exchange ≠ ""
    · rw [if_pos hx]
    · rw [if_neg hx]
      cases outcome with
      | rejects c => rfl
      | answers => cases classifyReplay cx.store rows cx.queue (replayCandidate msg) msg.content <;> rfl
  | some o =>
    simp only [he] at h
    cases ha : assess cx.store rows cx.queue o msg.content with
    | error e => simp only [ha] at h; exact .inl h.symm
    | ok p =>
      obtain ⟨rows₁, a⟩ := p
      have hrows := (assess_ok ha).1
      have hcase : rows₁ = rows ∨ ∃ o', some o = some o' ∧ Inserts rows cx.queue o' = true ∧ rows₁ = rows ++ [rowOf cx.store cx.queue o' msg.content] := by
        cases hi : Inserts rows cx.queue o with
        | true => rw [hi, if_pos rfl] at hrows; exact .inr ⟨o, rfl, hi, hrows⟩
        | false => rw [hi, if_neg (by simp)] at hrows; exact .inl hrows
      simp only [ha] at h
      cases outcome with
      | answers => rw [← h]; exact hcase
      | rejects c =>
        cases c with
        | true => rw [← h]; exact hcase
        | false => exact .inl h.symm

theorem RowsSound.decided (hs : RowsSound rows) : RowsSound (trustDecision cx policy rows msg outcome).1 := by
  rcases trustDecision_rows (Eq.refl (trustDecision cx policy rows msg outcome).1) with h | ⟨o, ho, hi, h⟩
  · rw [h]; exact hs
  · rw [h]
    refine hs.recorded (fun hv => ?_) hi
    have hf := verifiedFacts ho hv
    exact ⟨hf.producer, hf.source_ne, hf.eventId_ne, hf.name_ne⟩

theorem matched_of_accept {c : ReplayClassification} (h : decideReplayTrust (some c) .strict = .accept basis origin) :
    c.outcome = .replay_matched_verified := by
  cases hc : c.outcome <;> simp [decideReplayTrust, hc, unverified] at h ⊢

theorem decideOriginal_strict {a : ProvenanceAssessment} {headers : Headers} :
    decideOriginal o a .strict headers ≠ .compatibility basis := by
  unfold decideOriginal
  cases o.verified with
  | false => simp [unverified]
  | true => cases a.verified <;> simp [acceptOriginal]

theorem decideReplayTrust_strict {c : Option ReplayClassification} : decideReplayTrust c .strict ≠ .compatibility basis := by
  cases c with
  | none => simp [decideReplayTrust]
  | some c =>
    obtain ⟨outcome, original, matched⟩ := c
    cases outcome with
    | replay_matched_verified =>
      cases matched with
      | none => simp [decideReplayTrust]
      | some m =>
        obtain ⟨_, _, _, _, user⟩ := m
        cases user <;> simp [decideReplayTrust]
    | _ => simp [decideReplayTrust, unverified]

theorem strict_not_compatible (basis : TrustBasis) : (trustDecision cx .strict rows msg outcome).2 ≠ .compatibility basis := by
  unfold trustDecision
  cases evaluateProvenanceFacts msg cx.exchange cx.ownerOf with
  | some o =>
    cases ha : assess cx.store rows cx.queue o msg.content with
    | error e => simp [ha]
    | ok p =>
      cases outcome with
      | rejects c => simp [ha]
      | answers => simpa [ha] using decideOriginal_strict
  | none =>
    by_cases hx : msg.exchange ≠ ""
    · simp [hx]
    · simp only [if_neg hx]
      cases outcome with
      | rejects c => exact decideReplayTrust_strict (c := none)
      | answers =>
        cases classifyReplay cx.store rows cx.queue (replayCandidate msg) msg.content with
        | error e => exact decideReplayTrust_strict (c := none)
        | ok c => exact decideReplayTrust_strict (c := some c)

theorem accepted_trusted (hs : RowsSound rows) (h : trustDecision cx .strict rows msg outcome = (rows', .accept basis origin))
    (he : EnvelopeOf msg event) : Trusted rows' cx.queue event msg.content := by
  unfold trustDecision at h
  cases hf : evaluateProvenanceFacts msg cx.exchange cx.ownerOf with
  | some o =>
    simp only [hf] at h
    cases ha : assess cx.store rows cx.queue o msg.content with
    | error e => simp [ha] at h
    | ok p =>
      obtain ⟨rows₁, a⟩ := p
      simp only [ha] at h
      cases outcome with
      | rejects c => simp at h
      | answers =>
        obtain ⟨rfl, hd⟩ := Prod.mk.inj h
        unfold decideOriginal at hd
        obtain ⟨hv, hd⟩ := passed hd (by simp [unverified])
        rw [Bool.not_eq_false] at hv
        have hfirst : a.verified = .first ∨ a.verified = .matches := by
          cases hav : a.verified <;> simp [hav] at hd ⊢
        obtain ⟨r, hr, hname, hbody⟩ := assess_accepts hs ha hv hfirst
        have facts := verifiedFacts hf hv
        have hsource : o.source = event.source := (shownOf_text facts.source).symm.trans he.source
        have hid : o.eventId = event.id := Option.some.inj (facts.eventId.symm.trans he.id)
        have hn : o.name = event.name := Option.some.inj (facts.name.symm.trans he.name)
        exact ⟨r, by rw [← hsource, ← hid]; exact hr, hname.trans hn, hbody⟩
  | none =>
    simp only [hf] at h
    obtain ⟨_, h⟩ := passed h (by simp)
    cases outcome with
    | rejects c => simp [decideReplayTrust] at h
    | answers =>
      cases hc : classifyReplay cx.store rows cx.queue (replayCandidate msg) msg.content with
      | error e => simp [hc, decideReplayTrust] at h
      | ok c =>
        simp only [hc] at h
        obtain ⟨rfl, hd⟩ := Prod.mk.inj h
        obtain ⟨r, hr, hm⟩ := decideReplay_matched hc (matched_of_accept hd)
        obtain ⟨hmem, hfor⟩ := List.mem_filter.mp hr
        obtain ⟨hq, hsource, hid⟩ := isFor_iff.mp hfor
        -- a verified row is of no empty token, so the candidate's tokens are the message's own
        have hsource' := token_eq hsource.symm (hs.source r hmem hm.verified)
        have hid' := token_eq hid.symm (hs.eventId r hmem hm.verified)
        have hname' := token_eq hm.name.symm (hs.name r hmem hm.verified)
        refine ⟨r, ?_, Option.some.inj (hname'.1.symm.trans he.name), bodyOf_same hm.body⟩
        rw [← he.source, shownOf_text hsource'.1, ← Option.some.inj (hid'.1.symm.trans he.id), ← hq]
        exact hs.first hmem hm.verified

end

/-! ## Deliveries that are held -/

section
variable {cx : TrustContext H} {policy : EnforcementPolicy} {rows : List (StoredRow H)} {msg : Message} {outcome : StoreOutcome}

def StoreFails (cx : TrustContext H) (rows : List (StoredRow H)) (msg : Message) (outcome : StoreOutcome) : Prop :=
  match evaluateProvenanceFacts msg cx.exchange cx.ownerOf with
  | some o => outcome ≠ .answers ∨ ∃ e, assess cx.store rows cx.queue o msg.content = .error e
  | none => msg.exchange = "" ∧ (outcome ≠ .answers ∨ ∃ e, classifyReplay cx.store rows cx.queue (replayCandidate msg) msg.content = .error e)

theorem storeFails_holds (h : StoreFails cx rows msg outcome) : (trustDecision cx policy rows msg outcome).2 = .hold := by
  unfold StoreFails at h
  unfold trustDecision
  cases hf : evaluateProvenanceFacts msg cx.exchange cx.ownerOf with
  | some o =>
    simp only [hf] at h ⊢
    rcases h with h | ⟨e, h⟩
    · cases outcome with
      | answers => exact absurd rfl h
      | rejects c => cases assess cx.store rows cx.queue o msg.content <;> rfl
    · rw [h]
  | none =>
    simp only [hf] at h ⊢
    obtain ⟨hx, h⟩ := h
    rw [if_neg (by simp [hx])]
    rcases h with h | ⟨e, h⟩
    · cases outcome with
      | answers => exact absurd rfl h
      | rejects c => rfl
    · cases outcome with
      | answers => rw [h]; rfl
      | rejects c => rfl

theorem verified_decision (ho : evaluateProvenanceFacts msg cx.exchange cx.ownerOf = some o) (hv : o.verified = true) :
    (trustDecision cx policy rows msg outcome).2 = (trustDecision cx policy (rows.filter (·.verified)) msg outcome).2 := by
  have h := @assess_verified_rows H cx.store rows cx.queue _ msg.content hv
  simp only [trustDecision, ho]
  cases ha : assess cx.store rows cx.queue o msg.content with
  | error e =>
    cases hb : assess cx.store (rows.filter (·.verified)) cx.queue o msg.content with
    | error e' => rfl
    | ok q => rw [ha, hb] at h; cases h
  | ok p =>
    cases hb : assess cx.store (rows.filter (·.verified)) cx.queue o msg.content with
    | error e' => rw [ha, hb] at h; cases h
    | ok q =>
      rw [ha, hb] at h
      have hpq : p.2.verified = q.2.verified := by simpa [Except.map] using h
      cases outcome with
      | answers => simp only [decideOriginal, hpq]
      | rejects c => rfl

theorem first_verified_accepted (ho : evaluateProvenanceFacts msg cx.exchange cx.ownerOf = some o) (hv : o.verified = true)
    (hnone : firstVerified rows cx.queue o.source o.eventId = none) (hstore : ¬ StoreFails cx rows msg outcome) :
    ∃ origin, (trustDecision cx policy rows msg outcome).2 = .accept .verified_original origin ∧
      firstVerified (trustDecision cx policy rows msg outcome).1 cx.queue o.source o.eventId = some (rowOf cx.store cx.queue o msg.content) := by
  have hi : Inserts rows cx.queue o = true := by
    refine inserts_iff.mpr fun r hr hfor hrv => ?_
    have := List.find?_eq_none.mp hnone r hr
    simp [hfor, hrv.trans hv] at this
  simp only [StoreFails, ho, not_or, not_exists, not_not] at hstore
  obtain ⟨rfl, hok⟩ := hstore
  cases ha : assess cx.store rows cx.queue o msg.content with
  | error e => exact absurd ha (hok e)
  | ok p =>
    obtain ⟨rows₁, a⟩ := p
    obtain ⟨rfl, hav⟩ := assess_ok ha
    have hfirst : a.verified = .first := by
      simp only [assessVerified, hv, hi, Bool.true_eq_false, if_false, if_true, Except.ok.injEq] at hav
      exact hav.symm
    refine ⟨_, by simp only [trustDecision, ho, ha, decideOriginal, hv, hfirst, Bool.true_eq_false, if_false]; rfl, ?_⟩
    simp only [trustDecision, ho, ha, hi, if_true]
    unfold firstVerified at hnone ⊢
    rw [List.find?_append, hnone]
    simp [rowOf, StoredRow.isFor, hv]

end

/-! ## Runs -/

structure Accepted (Payload : Type) where
  event : Envelope Payload
  content : Body
  trust : TrustDecision

/-- The consumer's table, the deliveries whose handler has not run yet, and the handler's runs. -/
structure TrustState (H : Hashing) (Payload : Type) where
  rows : List (StoredRow H)
  inFlight : List (Accepted Payload)
  runs : List (Accepted Payload)

/-- A delivery is decided by an instance with the keys it was started with; the handler of an accepted delivery is called later,
in any order; or its instance is lost before that. -/
inductive TrustAction (H : Hashing)
  | arrive (store : Store H) (msg : Message) (outcome : StoreOutcome)
  | handle (i : Nat)
  | lose (i : Nat)

def EventSubscription.withStore (sub : EventSubscription H Payload) (store : Store H) : EventSubscription H Payload :=
  { sub with context := { sub.context with store } }

def TrustState.arrived (s : TrustState H Payload) (msg : Message) : List (StoredRow H) × Verdict Payload → TrustState H Payload
  | (rows, .handles event (some trust)) => { s with rows, inFlight := s.inFlight ++ [{ event, content := msg.content, trust }] }
  | (rows, _) => { s with rows }

def TrustState.step (sub : EventSubscription H Payload) (s : TrustState H Payload) : TrustAction H → TrustState H Payload
  | .arrive store msg outcome => s.arrived msg (verdict (sub.withStore store) s.rows msg outcome)
  | .handle i => { s with inFlight := s.inFlight.eraseIdx i, runs := s.runs ++ s.inFlight[i]?.toList }
  | .lose i => { s with inFlight := s.inFlight.eraseIdx i }

structure StrictSubscription (H : Hashing) (Payload : Type) extends EventSubscription H Payload where
  strict : enforcement = some .strict

variable {sub : StrictSubscription H Payload}

section
variable {rows : List (StoredRow H)} {store : Store H} {msg : Message} {outcome : StoreOutcome} {event : Envelope Payload}

theorem trustDecision_prefix {cx : TrustContext H} {policy : EnforcementPolicy} : rows <+: (trustDecision cx policy rows msg outcome).1 := by
  rcases trustDecision_rows (Eq.refl (trustDecision cx policy rows msg outcome).1) with h | ⟨o, _, _, h⟩
  · exact ⟨[], by rw [h, List.append_nil]⟩
  · rw [h]; exact List.prefix_append ..

theorem strict_verdict :
    (verdict (sub.withStore store) rows msg outcome).1 = rows ∧
      (∃ event reason, (verdict (sub.withStore store) rows msg outcome).2 = .fails event reason) ∨
    ∃ event, EnvelopeOf msg event ∧ verdict (sub.withStore store) rows msg outcome =
      (match trustDecision (sub.withStore store).context .strict rows msg outcome with
        | (rows', .hold) => (rows', .holds)
        | (rows', .refuse basis) => (rows', .fails (some event) (refusalReason basis))
        | (rows', trust) => (rows', .handles event (some trust))) := by
  unfold verdict
  cases he : envelopeOf (sub.withStore store).parse msg with
  | none => exact .inl ⟨rfl, none, _, rfl⟩
  | some event =>
    cases ha : admissionRefusal (sub.withStore store) event msg.content with
    | some reason => simp only [ha]; exact .inl ⟨trivial, some event, _, rfl⟩
    | none =>
      have hp : (sub.withStore store).enforcement = some .strict := sub.strict
      refine .inr ⟨event, envelopeOf_some he, ?_⟩
      simp only [ha, hp]
      cases trustDecision (sub.withStore store).context .strict rows msg outcome with
      | mk rows' decision => cases decision <;> rfl

theorem strict_handles {trust : Option TrustDecision} (hs : RowsSound rows)
    (h : (verdict (sub.withStore store) rows msg outcome).2 = .handles event trust) :
    Trusted (verdict (sub.withStore store) rows msg outcome).1 sub.context.queue event msg.content := by
  rcases @strict_verdict H Payload sub rows store msg outcome with ⟨_, e, r, hv⟩ | ⟨e, he, hv⟩
  · rw [hv] at h; cases h
  · rw [hv] at h ⊢
    cases hd : trustDecision (sub.withStore store).context .strict rows msg outcome with
    | mk rows' decision =>
      rw [hd] at h
      cases decision with
      | hold => cases h
      | refuse basis => cases h
      | accept basis origin => cases h; exact @accepted_trusted H Payload (sub.withStore store).context _ _ _ _ _ _ _ hs hd he
      | compatibility basis => exact absurd (congrArg Prod.snd hd) (strict_not_compatible basis)

theorem strict_rows (hs : RowsSound rows) : RowsSound (verdict (sub.withStore store) rows msg outcome).1 ∧
    rows <+: (verdict (sub.withStore store) rows msg outcome).1 := by
  rcases @strict_verdict H Payload sub rows store msg outcome with ⟨hv, _⟩ | ⟨e, _, hv⟩
  · rw [hv]; exact ⟨hs, List.prefix_rfl⟩
  · have hrows : (verdict (sub.withStore store) rows msg outcome).1 = (trustDecision (sub.withStore store).context .strict rows msg outcome).1 := by
      rw [hv]
      cases trustDecision (sub.withStore store).context .strict rows msg outcome with
      | mk rows' decision => cases decision <;> rfl
    rw [hrows]
    exact ⟨hs.decided, trustDecision_prefix⟩

end

structure TrustInv (sub : StrictSubscription H Payload) (s : TrustState H Payload) : Prop where
  rows : RowsSound s.rows
  inFlight : ∀ a ∈ s.inFlight, Trusted s.rows sub.context.queue a.event a.content
  runs : ∀ a ∈ s.runs, Trusted s.rows sub.context.queue a.event a.content

variable {s : TrustState H Payload}

theorem TrustInv.step (h : TrustInv sub s) (a : TrustAction H) : TrustInv sub (s.step sub.toEventSubscription a) := by
  cases a with
  | arrive store msg outcome =>
    obtain ⟨hrows, more, hmore⟩ := @strict_rows H Payload sub _ store msg outcome h.rows
    have hold : ∀ a : Accepted Payload, Trusted s.rows sub.context.queue a.event a.content →
        Trusted (verdict (sub.withStore store) s.rows msg outcome).1 sub.context.queue a.event a.content :=
      fun a ha => by rw [← hmore]; exact ha.append
    have hnew := fun event trust => @strict_handles H Payload sub _ store msg outcome event trust h.rows
    change TrustInv sub (s.arrived msg (verdict (sub.withStore store) s.rows msg outcome))
    cases hv : verdict (sub.withStore store) s.rows msg outcome with
    | mk rows' v =>
      rw [hv] at hrows hold hnew
      cases v with
      | fails e r => exact ⟨hrows, fun a ha => hold a (h.inFlight a ha), fun a ha => hold a (h.runs a ha)⟩
      | holds => exact ⟨hrows, fun a ha => hold a (h.inFlight a ha), fun a ha => hold a (h.runs a ha)⟩
      | handles event trust =>
        cases trust with
        | none => exact ⟨hrows, fun a ha => hold a (h.inFlight a ha), fun a ha => hold a (h.runs a ha)⟩
        | some t =>
          refine ⟨hrows, fun a ha => ?_, fun a ha => hold a (h.runs a ha)⟩
          rcases mem_append_row ha with ha | rfl
          · exact hold a (h.inFlight a ha)
          · exact hnew event (some t) rfl
  | handle i =>
    refine ⟨h.rows, fun b hb => h.inFlight b (List.mem_of_mem_eraseIdx hb), fun b hb => ?_⟩
    rcases List.mem_append.mp hb with hb | hb
    · exact h.runs b hb
    · exact h.inFlight b (List.mem_of_getElem? (Option.mem_toList.mp hb))
  | lose i => exact ⟨h.rows, fun b hb => h.inFlight b (List.mem_of_mem_eraseIdx hb), h.runs⟩

/-! ## The law -/

structure TrustLaw (sub : StrictSubscription H Payload) (s : TrustState H Payload) : Prop where
  /-- The handler ran only for the first verified observation of its id. -/
  observed : ∀ a ∈ s.runs, Trusted s.rows sub.context.queue a.event a.content
  agree : ∀ a ∈ s.runs, ∀ b ∈ s.runs, a.event.source = b.event.source → a.event.id = b.event.id →
    a.event.name = b.event.name ∧ a.content = b.content
  unblocked : ∀ store msg outcome o, evaluateProvenanceFacts msg sub.context.exchange sub.context.ownerOf = some o → o.verified = true →
    (trustDecision (sub.withStore store).context .strict s.rows msg outcome).2 =
      (trustDecision (sub.withStore store).context .strict (s.rows.filter (·.verified)) msg outcome).2
  first : ∀ store msg outcome o, evaluateProvenanceFacts msg sub.context.exchange sub.context.ownerOf = some o → o.verified = true →
    firstVerified s.rows sub.context.queue o.source o.eventId = none → ¬ StoreFails (sub.withStore store).context s.rows msg outcome →
    ∃ origin, (trustDecision (sub.withStore store).context .strict s.rows msg outcome).2 = .accept .verified_original origin ∧
      firstVerified (trustDecision (sub.withStore store).context .strict s.rows msg outcome).1 sub.context.queue o.source o.eventId =
        some (rowOf store sub.context.queue o msg.content)
  fixed : ∀ a, s.rows <+: (s.step sub.toEventSubscription a).rows
  held : ∀ store msg (o : Outcomes) event, envelopeOf sub.parse msg = some event → admissionRefusal sub.toEventSubscription event msg.content = none →
    StoreFails (sub.withStore store).context s.rows msg o.store →
    (verdict (sub.withStore store) s.rows msg o.store).2 = .holds ∧
    (deliver (sub.withStore store) s.rows msg o).2 = { settlement := .requeue, resolved := false, published := [], scheduled := false }

theorem step_rows_prefix (h : RowsSound s.rows) (a : TrustAction H) : s.rows <+: (s.step sub.toEventSubscription a).rows := by
  cases a with
  | arrive store msg outcome =>
    have hp := (@strict_rows H Payload sub _ store msg outcome h).2
    change s.rows <+: (s.arrived msg (verdict (sub.withStore store) s.rows msg outcome)).rows
    cases hv : verdict (sub.withStore store) s.rows msg outcome with
    | mk rows' v =>
      rw [hv] at hp
      cases v with
      | fails e r => exact hp
      | holds => exact hp
      | handles event trust => cases trust <;> exact hp
  | handle i => exact List.prefix_rfl
  | lose i => exact List.prefix_rfl

theorem held_verdict {outcome : StoreOutcome} {event : Envelope Payload}
    (he : envelopeOf sub.parse msg = some event) (ha : admissionRefusal sub.toEventSubscription event msg.content = none)
    (h : StoreFails (sub.withStore store).context rows msg outcome) : (verdict (sub.withStore store) rows msg outcome).2 = .holds := by
  have hd := @storeFails_holds H _ .strict _ _ _ h
  have he' : envelopeOf (sub.withStore store).parse msg = some event := he
  have ha' : admissionRefusal (sub.withStore store) event msg.content = none := ha
  have hp : (sub.withStore store).enforcement = some .strict := sub.strict
  unfold verdict
  simp only [he', ha', hp]
  cases hv : trustDecision (sub.withStore store).context .strict rows msg outcome with
  | mk rows' d =>
    rw [hv] at hd
    cases hd
    rfl

/-- **The trust law** holds after every run of a strictly enforced subscription. -/
theorem strict_runs_trusted (sub : StrictSubscription H Payload) (actions : List (TrustAction H)) :
    TrustLaw sub (actions.foldl (TrustState.step sub.toEventSubscription) { rows := [], inFlight := [], runs := [] }) := by
  have hinv : TrustInv sub (actions.foldl (TrustState.step sub.toEventSubscription) { rows := [], inFlight := [], runs := [] }) := by
    refine List.foldlRecOn actions _ ⟨⟨?_, ?_, ?_, ?_, ?_⟩, ?_, ?_⟩ fun s hs a _ => hs.step a
    · exact List.nodup_nil
    all_goals intro r hr; cases hr
  generalize actions.foldl (TrustState.step sub.toEventSubscription) { rows := [], inFlight := [], runs := [] } = s at hinv
  exact {
    observed := hinv.runs
    agree := fun a ha b hb hsource hid => by
      obtain ⟨r, hr, hn, hc⟩ := hinv.runs a ha
      obtain ⟨q, hq, hn', hc'⟩ := hinv.runs b hb
      rw [hsource, hid, hq] at hr
      cases hr
      exact ⟨hn.symm.trans hn', hc.unique hc'⟩
    unblocked := fun store msg outcome o ho hv => verified_decision ho hv
    first := fun store msg outcome o ho hv hnone hstore => first_verified_accepted ho hv hnone hstore
    fixed := step_rows_prefix hinv.rows
    held := fun store msg o event he ha hf => by
      have hv := held_verdict he ha hf
      refine ⟨hv, ?_⟩
      simp only [deliver, hv]
      rfl }

end NawaraCore.Events
