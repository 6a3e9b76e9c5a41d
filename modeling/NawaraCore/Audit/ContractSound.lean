import NawaraCore.Audit.Contract
import NawaraCore.Lib.JsonSound

/-!
# What the audit validator accepts

Each part of an accepted payload stands in the input, in some order of its members,
and passes the screen of its kind.
-/

namespace NawaraCore.Audit

open Json (Reorders)

variable {o : Members} {v : Option Json} {entry : CatalogEntry} {resource : AuditReference} {version : Int} {allowed : List Text} {declared : List (Text × ChangeSpec)} {out : Changes} {org : Option Text} {entryOf : Catalog} {p : AuditPayload}

section
variable (h : onlyKeys o allowed = true)
include h

theorem lookup_none {k : Text} (hk : k ∉ allowed) : o.lookup k = none := by
  rw [List.lookup_eq_none_iff]
  intro m hm
  have hm' : m.1 ∈ allowed := by simpa using List.all_eq_true.mp h m hm
  simp only [bne_iff_ne]
  rintro rfl
  exact hk hm'

theorem lookup_rel {o' : Members} (h' : onlyKeys o' allowed = true)
    (hk : ∀ k ∈ allowed, Option.Rel Reorders (o.lookup k) (o'.lookup k)) : Reorders (.obj o) (.obj o') := by
  refine .of_rel fun k => ?_
  by_cases hm : k ∈ allowed
  · exact hk k hm
  · rw [lookup_none h hm, lookup_none h' hm]
    exact .none

theorem lookup_eq {o' : Members} (h' : onlyKeys o' allowed = true)
    (hk : ∀ k ∈ allowed, o.lookup k = o'.lookup k) : Reorders (.obj o) (.obj o') := by
  refine .of_lookup fun k => ?_
  by_cases hm : k ∈ allowed
  · exact hk k hm
  · rw [lookup_none h hm, lookup_none h' hm]

end

theorem textOf_some {s : Text} (h : textOf v = some s) : v = some (.str s) := by
  cases v with
  | none => cases h
  | some j =>
    cases j with
    | str t => cases h; rfl
    | _ => cases h

theorem plainRecord_some {v : Json} (h : plainRecord v = some o) : v = .obj o := by
  cases v with
  | obj ms => cases h; rfl
  | _ => cases h

theorem record_some (h : v.bind plainRecord = some o) : v = some (.obj o) := by
  cases v with
  | none => cases h
  | some j => rw [plainRecord_some h]

theorem userKindOf_some {k : UserKind} (h : userKindOf v = some k) : v = some (.str k.text) := by
  unfold userKindOf at h
  obtain ⟨s, hs, hf⟩ := Option.bind_eq_some_iff.mp h
  have := List.find?_some hf
  rw [textOf_some hs, ← eq_of_beq this]

theorem userKindOf_text (k : UserKind) : userKindOf (some (.str k.text)) = some k := by
  cases k <;> decide

theorem outcomeOf_some {k : AuditOutcome} (h : outcomeOf v = some k) : v = some (.str k.text) := by
  unfold outcomeOf at h
  obtain ⟨s, hs, hf⟩ := Option.bind_eq_some_iff.mp h
  have := List.find?_some hf
  rw [textOf_some hs, ← eq_of_beq this]

theorem outcomeOf_text (k : AuditOutcome) : outcomeOf (some (.str k.text)) = some k := by
  cases k <;> decide

/-! ## Actors and references -/

def AuditActor.Fit : AuditActor → Prop
  | .user id _ => UUID id = true
  | .service id => SERVICE_NAME id = true
  | .system id => TYPE_CODE id = true

structure ReadsActor (v : Option Json) (a : AuditActor) : Prop where
  reads : ∃ j, v = some j ∧ Reorders j a.toJson ∧ screenActor j = true
  fit : a.Fit

variable {a : AuditActor}

theorem readsActor {members : Members} (ha : a.toJson = .obj members) (hk : onlyKeys o actorKeys = true)
    (hm : onlyKeys members actorKeys = true) (hl : ∀ k ∈ actorKeys, o.lookup k = members.lookup k) (hf : a.Fit)
    (hs : screenActor a.toJson = true) : ReadsActor (some (.obj o)) a := by
  refine ⟨⟨.obj o, rfl, ?_, ?_⟩, hf⟩
  · rw [ha]
    exact lookup_eq hk hm hl
  · have h₁ : member o "type" = member members "type" := hl _ (by decide)
    have h₂ : member o "id" = member members "id" := hl _ (by decide)
    have h₃ : member o "userKind" = member members "userKind" := hl _ (by decide)
    rw [ha] at hs
    simp only [screenActor, plainRecord, hm] at hs
    simp only [screenActor, plainRecord, hk, h₁, h₂, h₃]
    exact hs

theorem onlyKeys_mono {ks ks' : List Text} (h : onlyKeys o ks = true) (hk : ∀ k ∈ ks, k ∈ ks') : onlyKeys o ks' = true := by
  refine List.all_eq_true.mpr fun m hm => ?_
  have : m.1 ∈ ks := by simpa using List.all_eq_true.mp h m hm
  simpa using hk _ this

theorem userActor {id : Text} {kind : UserKind} (hk : onlyKeys o actorKeys = true) (ht : textOf (member o "type") = some (codes "user"))
    (hi : textOf (member o "id") = some id) (hu : userKindOf (member o "userKind") = some kind) (hid : UUID id = true) :
    ReadsActor (some (.obj o)) (.user id kind) := by
  refine readsActor rfl hk rfl ?_ hid ?_
  · intro k hm
    have : k = codes "type" ∨ k = codes "id" ∨ k = codes "userKind" := by simpa [actorKeys] using hm
    rcases this with rfl | rfl | rfl
    · exact textOf_some ht
    · exact textOf_some hi
    · exact userKindOf_some hu
  · change (true && true && (UUID id || SERVICE_NAME id || TYPE_CODE id) && (userKindOf (some (.str kind.text))).isSome) = true
    rw [hid, userKindOf_text]
    rfl

theorem serviceActor {id : Text} (hk : onlyKeys o referenceKeys = true) (ht : textOf (member o "type") = some (codes "service"))
    (hi : textOf (member o "id") = some id) (hid : SERVICE_NAME id = true) : ReadsActor (some (.obj o)) (.service id) := by
  refine readsActor rfl (onlyKeys_mono hk (by decide)) rfl ?_ hid ?_
  · intro k hm
    have : k = codes "type" ∨ k = codes "id" ∨ k = codes "userKind" := by simpa [actorKeys] using hm
    rcases this with rfl | rfl | rfl
    · exact textOf_some ht
    · exact textOf_some hi
    · exact lookup_none hk (by decide)
  · change (true && true && (UUID id || SERVICE_NAME id || TYPE_CODE id) && true) = true
    rw [hid, Bool.or_true]
    rfl

theorem systemActor {id : Text} (hk : onlyKeys o referenceKeys = true) (ht : textOf (member o "type") = some (codes "system"))
    (hi : textOf (member o "id") = some id) (hid : TYPE_CODE id = true) : ReadsActor (some (.obj o)) (.system id) := by
  refine readsActor rfl (onlyKeys_mono hk (by decide)) rfl ?_ hid ?_
  · intro k hm
    have : k = codes "type" ∨ k = codes "id" ∨ k = codes "userKind" := by simpa [actorKeys] using hm
    rcases this with rfl | rfl | rfl
    · exact textOf_some ht
    · exact textOf_some hi
    · exact lookup_none hk (by decide)
  · change (true && true && (UUID id || SERVICE_NAME id || TYPE_CODE id) && true) = true
    rw [hid, Bool.or_true]
    rfl

theorem actorOf_ok (h : actorOf v entry = .ok a) : ReadsActor v a := by
  unfold actorOf at h
  cases hv : v.bind plainRecord with
  | none => rw [hv] at h; cases h
  | some o =>
    rw [hv] at h
    rw [record_some hv]
    simp only [refuse] at h
    by_cases hu : textOf (member o "type") = some (codes "user")
    · rw [if_pos hu] at h
      obtain ⟨hk, h⟩ := guard_ok h
      cases hs : entry.users <;> cases hi : textOf (member o "id") <;> cases hd : userKindOf (member o "userKind") <;>
        simp only [hs, hi, hd] at h <;> try cases h
      obtain ⟨hid, -, h⟩ := guards_ok h
      cases h
      exact userActor (by simpa using hk) hu hi hd (by simpa using hid)
    · rw [if_neg hu] at h
      by_cases hs : textOf (member o "type") = some (codes "service")
      · rw [if_pos hs] at h
        obtain ⟨hk, -, h⟩ := guards_ok h
        cases hi : textOf (member o "id") with
        | none => rw [hi] at h; cases h
        | some id =>
          rw [hi] at h
          obtain ⟨hid, h⟩ := guard_ok h
          cases h
          exact serviceActor (by simpa using hk) hs hi (by simpa using hid)
      · rw [if_neg hs] at h
        obtain ⟨hy, h⟩ : textOf (member o "type") = some (codes "system") ∧ _ := by
          by_cases hy : textOf (member o "type") = some (codes "system")
          · rw [if_pos hy] at h
            exact ⟨hy, h⟩
          · rw [if_neg hy] at h
            cases h
        obtain ⟨hk, h⟩ := guard_ok h
        cases hp : entry.system <;> cases hi : textOf (member o "id") <;> simp only [hp, hi] at h <;> try cases h
        obtain ⟨hid, h⟩ := guard_ok h
        cases h
        exact systemActor (by simpa using hk) hy hi (by simpa using not_or.mp hid |>.1)

structure ReadsReference (v : Option Json) (r : AuditReference) : Prop where
  reads : ∃ j, v = some j ∧ Reorders j r.toJson ∧ screenReference j = true
  type : TYPE_CODE r.type = true
  id : UUID r.id = true

theorem referenceOf_ok {types : List Text} {code : AuditRefusal} {r : AuditReference}
    (h : referenceOf v types code = .ok r) : ReadsReference v r := by
  unfold referenceOf at h
  cases hv : v.bind plainRecord with
  | none => rw [hv] at h; cases h
  | some o =>
    rw [hv] at h
    rw [record_some hv]
    simp only [refuse] at h
    obtain ⟨hk, h⟩ := guard_ok h
    have hk : onlyKeys o referenceKeys = true := by simpa using hk
    cases ht : textOf (member o "type") <;> cases hi : textOf (member o "id") <;> simp only [ht, hi] at h <;> try cases h
    rename_i type id
    obtain ⟨htype, hid, h⟩ := guards_ok h
    cases h
    have htype : TYPE_CODE type = true := by simpa using not_or.mp htype |>.1
    have hid : UUID id = true := by simpa using hid
    refine ⟨⟨.obj o, rfl, lookup_eq hk rfl fun k hm => ?_, ?_⟩, htype, hid⟩
    · have : k = codes "type" ∨ k = codes "id" := by simpa [referenceKeys] using hm
      rcases this with rfl | rfl
      · exact textOf_some ht
      · exact textOf_some hi
    · simp only [screenReference, plainRecord, hk, stringThat, ht, hi, Option.any_some, htype, hid, Bool.and_self]

/-! ## Changes -/

theorem token_code {s : Text} (h : TOKEN_VALUE s = true) : CODE_VALUE s = true :=
  isToken_mono (fun _ h => h) (fun c hc => by rw [hc]; rfl) (Nat.le_refl _) (Nat.le_refl _) h

variable {spec : ChangeSpec}

theorem scalarOf_ok {v : Json} {s : ChangeScalar} (h : scalarOf v spec = .ok s) : v = s.toJson ∧ screenScalar v = true := by
  unfold scalarOf at h
  cases ht : spec.type <;> rw [ht] at h <;> cases v with
  | str t =>
    simp only [refuse] at h
    first
      | cases h
      | obtain ⟨hg, h⟩ := guard_ok h
        cases h
        refine ⟨rfl, ?_⟩
        simp only [screenScalar]
        simp_all [isExactUtcTimestamp, token_code]
  | num n => cases n <;> simp only [refuse] at h <;> first
      | cases h
      | obtain ⟨hg, h⟩ := guard_ok h
        cases h
        refine ⟨rfl, ?_⟩
        simp only [screenScalar, decide_eq_true_eq]
        omega
  | bool b => first
      | cases h
        exact ⟨rfl, rfl⟩
      | cases h
  | _ => cases h

structure ReadsChange (c : Members) (declared : Text × ChangeSpec) (m : Text × ChangeValue) : Prop where
  key : m.1 = declared.1
  reads : ∃ raw, c.lookup declared.1 = some raw ∧ Reorders raw m.2.toJson ∧ screenChange raw = true ∧ screenChange m.2.toJson = true

theorem screenChange_scalar (s : ChangeScalar) : screenChange s.toJson = screenScalar s.toJson := by
  cases s <;> rfl

theorem pair_of_length {t : Members} {a b : Json} (hl : t.length = 2) (ha : member t "from" = some a) (hb : member t "to" = some b) :
    (t = [(codes "from", a), (codes "to", b)] ∨ t = [(codes "to", b), (codes "from", a)]) := by
  obtain ⟨⟨k, x⟩, ⟨l, y⟩, rfl⟩ := List.length_eq_two.mp hl
  simp only [member, List.lookup_cons, List.lookup_nil] at ha hb
  cases hk : codes "from" == k with
  | true =>
    obtain rfl := eq_of_beq hk
    rw [hk] at ha
    have hn : (codes "to" == codes "from") = false := by decide
    rw [hn] at hb
    cases hl : codes "to" == l with
    | true =>
      obtain rfl := eq_of_beq hl
      rw [hl] at hb
      cases ha
      cases hb
      exact .inl rfl
    | false => rw [hl] at hb; cases hb
  | false =>
    rw [hk] at ha
    cases hl : codes "from" == l with
    | false => rw [hl] at ha; cases ha
    | true =>
      obtain rfl := eq_of_beq hl
      rw [hl] at ha
      have hn : (codes "to" == codes "from") = false := by decide
      rw [hn] at hb
      cases hk' : codes "to" == k with
      | true =>
        obtain rfl := eq_of_beq hk'
        rw [hk'] at hb
        cases ha
        cases hb
        exact .inr rfl
      | false => rw [hk'] at hb; cases hb

theorem transition_reads {t : Members} {a b : Json} {x y : ChangeScalar} (hl : t.length = 2) (ha : member t "from" = some a)
    (hb : member t "to" = some b) (hx : scalarOf a spec = .ok x) (hy : scalarOf b spec = .ok y) :
    Reorders (.obj t) (ChangeValue.transition x y).toJson ∧ screenChange (.obj t) = true ∧ screenChange (ChangeValue.transition x y).toJson = true := by
  obtain ⟨rfl, hsx⟩ := scalarOf_ok hx
  obtain ⟨rfl, hsy⟩ := scalarOf_ok hy
  have hs : (true && true && screenScalar x.toJson && screenScalar y.toJson) = true := by
    rw [hsx, hsy]
    rfl
  rcases pair_of_length hl ha hb with rfl | rfl
  · exact ⟨.refl _, hs, hs⟩
  · have hkeys : onlyKeys [(codes "to", y.toJson), (codes "from", x.toJson)] (["from", "to"].map codes) = true := rfl
    refine ⟨lookup_eq hkeys rfl fun k hk => ?_, hs, hs⟩
    have : k = codes "from" ∨ k = codes "to" := by simpa using hk
    rcases this with rfl | rfl <;> rfl

variable {c : Members}

theorem changeOf_ok {declared : Text × ChangeSpec} {o : Option (Text × ChangeValue)} (h : changeOf c declared = .ok o) :
    (o = none ∧ c.lookup declared.1 = none) ∨ ∃ m, o = some m ∧ ReadsChange c declared m := by
  unfold changeOf at h
  cases hl : c.lookup declared.1 with
  | none =>
    rw [hl] at h
    obtain ⟨-, h⟩ := guard_ok h
    cases h
    exact .inl ⟨rfl, rfl⟩
  | some raw =>
    rw [hl] at h
    cases hs : declared.2.shape with
    | value =>
      rw [hs] at h
      obtain ⟨s, hv, h⟩ := bind_eq_ok.mp h
      cases h
      obtain ⟨rfl, hscreen⟩ := scalarOf_ok hv
      have : screenChange s.toJson = true := (screenChange_scalar s).trans hscreen
      exact .inr ⟨_, rfl, rfl, s.toJson, hl, .refl _, this, this⟩
    | transition =>
      rw [hs] at h
      cases hp : plainRecord raw with
      | none => simp only [hp] at h; cases h
      | some t =>
        obtain rfl := plainRecord_some hp
        simp only [hp] at h
        split at h
        · rename_i a b hlen ha hb
          obtain ⟨x, hx, h⟩ := bind_eq_ok.mp h
          obtain ⟨y, hy, h⟩ := bind_eq_ok.mp h
          obtain ⟨-, h⟩ := guard_ok h
          cases h
          obtain ⟨hr, hs⟩ := transition_reads hlen ha hb hx hy
          exact .inr ⟨_, rfl, rfl, .obj t, hl, hr, hs⟩
        · cases h

structure DeclaredChanges (c : Members) (declared : List (Text × ChangeSpec)) (out : Changes) : Prop where
  sub : (out.map Prod.fst).Sublist (declared.map Prod.fst)
  each : ∀ m ∈ out, ∃ d ∈ declared, ReadsChange c d m
  all : ∀ d ∈ declared, c.lookup d.1 = none ∨ ∃ m ∈ out, ReadsChange c d m

theorem declaredChanges {os : List (Option (Text × ChangeValue))}
    (h : List.Forall₂ (fun d o => changeOf c d = .ok o) declared os) : DeclaredChanges c declared (os.filterMap id) := by
  induction h with
  | nil => exact ⟨List.Sublist.refl _, fun m hm => (List.not_mem_nil hm).elim, fun d hd => (List.not_mem_nil hd).elim⟩
  | @cons d o ds os hd _ ih =>
    rcases changeOf_ok hd with ⟨rfl, hnone⟩ | ⟨m, rfl, hm⟩
    · refine ⟨ih.sub.cons _, fun m hm => ?_, fun e he => ?_⟩
      · obtain ⟨e, he, hr⟩ := ih.each m hm
        exact ⟨e, List.mem_cons_of_mem _ he, hr⟩
      · rcases List.mem_cons.mp he with rfl | he
        · exact .inl hnone
        · exact ih.all e he
    · refine ⟨?_, fun m' hm' => ?_, fun e he => ?_⟩
      · change (m.1 :: _).Sublist (d.1 :: _)
        rw [hm.key]
        exact ih.sub.cons_cons _
      · rcases List.mem_cons.mp hm' with rfl | hm'
        · exact ⟨d, List.mem_cons_self, hm⟩
        · obtain ⟨e, he, hr⟩ := ih.each m' hm'
          exact ⟨e, List.mem_cons_of_mem _ he, hr⟩
      · rcases List.mem_cons.mp he with rfl | he
        · exact .inr ⟨m, List.mem_cons_self, hm⟩
        · obtain h | ⟨m', hm', hr⟩ := ih.all e he
          · exact .inl h
          · exact .inr ⟨m', List.mem_cons_of_mem _ hm', hr⟩

structure ReadsChanges (v : Option Json) (out : Changes) : Prop where
  reads : ∃ c, v = some (.obj c) ∧ Reorders (.obj c) (changesJson out) ∧ ((c.map Prod.fst).Nodup → screenChanges (.obj c) = true)
  nodup : (out.map Prod.fst).Nodup
  count : 1 ≤ out.length ∧ out.length ≤ MAX_CHANGE_KEYS
  each : ∀ m ∈ out, CHANGE_KEY m.1 = true ∧ screenChange m.2.toJson = true
  size : jsonbTextLength (changesJson out) ≤ MAX_CHANGES_JSONB_BYTES

theorem lookup_changes {k : Text} {j : Json} (h : (out.map fun m => (m.1, m.2.toJson)).lookup k = some j) :
    ∃ m ∈ out, m.1 = k ∧ m.2.toJson = j := by
  obtain ⟨m, hm, he⟩ := List.mem_map.mp (Json.mem_of_lookup h)
  cases he
  exact ⟨m, hm, rfl, rfl⟩

theorem DeclaredChanges.reads (h : DeclaredChanges c declared out)
    (hk : ∀ m ∈ c, m.1 ∈ declared.map Prod.fst) : Reorders (.obj c) (changesJson out) := by
  refine .obj (fun k => ?_) fun k a b ha hb => ?_
  · cases hc : c.lookup k with
    | none =>
      cases ho : (out.map fun m => (m.1, m.2.toJson)).lookup k with
      | none => rfl
      | some j =>
        obtain ⟨m, hm, rfl, -⟩ := lookup_changes ho
        obtain ⟨d, -, hr⟩ := h.each m hm
        obtain ⟨raw, hraw, -⟩ := hr.reads
        rw [hr.key, hraw] at hc
        cases hc
    | some a =>
      obtain ⟨d, hd, rfl⟩ := List.mem_map.mp (hk _ (Json.mem_of_lookup hc))
      obtain hnone | ⟨m, hm, hr⟩ := h.all d hd
      · rw [hc] at hnone
        cases hnone
      · have hmem : (m.1, m.2.toJson) ∈ out.map fun m => (m.1, m.2.toJson) := List.mem_map.mpr ⟨m, hm, rfl⟩
        have := Json.lookup_isSome hmem
        rw [hr.key] at this
        exact this.symm
  · obtain ⟨m, hm, rfl, rfl⟩ := lookup_changes hb
    obtain ⟨d, -, hr⟩ := h.each m hm
    obtain ⟨raw, hraw, hre, -⟩ := hr.reads
    rw [hr.key, hraw] at ha
    cases ha
    exact hre

theorem changesOf_ok {o : Option Changes} (h : changesOf v entry = .ok o) :
    (o = none ∧ v = none) ∨ ∃ out, o = some out ∧ ReadsChanges v out := by
  unfold changesOf at h
  cases v with
  | none =>
    obtain ⟨-, h⟩ := guard_ok h
    cases h
    exact .inl ⟨rfl, rfl⟩
  | some v =>
    cases hp : plainRecord v with
    | none => simp only [hp] at h; cases h
    | some c =>
      obtain rfl := plainRecord_some hp
      simp only [hp] at h
      obtain ⟨hsize, hkeys, h⟩ := guards_ok h
      obtain ⟨os, hos, h⟩ := bind_eq_ok.mp h
      obtain ⟨hbytes, h⟩ := guard_ok h
      cases h
      have hd := declaredChanges (mapM_eq_ok hos)
      obtain ⟨hne, hlen⟩ := not_or.mp hsize
      have hkey : ∀ m ∈ c, CHANGE_KEY m.1 = true ∧ m.1 ∈ entry.changes.map Prod.fst := by
        intro m hm
        have hx : ¬ (!CHANGE_KEY m.1 || !(entry.changes.map Prod.fst).contains m.1) = true :=
          fun hc => hkeys (List.any_eq_true.mpr ⟨m, hm, hc⟩)
        simpa using hx
      have hreads := hd.reads fun m hm => (hkey m hm).2
      have hnodup : ((os.filterMap id).map Prod.fst).Nodup := hd.sub.nodup entry.changes_nodup
      have hin : ∀ m ∈ os.filterMap id, ∃ x ∈ c, x.1 = m.1 := by
        intro m hm
        obtain ⟨d, -, hr⟩ := hd.each m hm
        obtain ⟨raw, hraw, -⟩ := hr.reads
        exact ⟨_, Json.mem_of_lookup hraw, hr.key.symm⟩
      refine .inr ⟨_, rfl, ⟨c, rfl, hreads, fun hn => ?_⟩, hnodup, ⟨?_, ?_⟩, fun m hm => ?_, Nat.le_of_not_lt hbytes⟩
      · have hall : c.all (fun m => CHANGE_KEY m.1 && screenChange m.2) = true := by
          refine List.all_eq_true.mpr fun m hm => ?_
          obtain ⟨hck, hdecl⟩ := hkey m hm
          obtain ⟨d, hd', hde⟩ := List.mem_map.mp hdecl
          have hl := Json.lookup_of_mem hn hm
          obtain hnone | ⟨x, -, hr⟩ := hd.all d hd'
          · rw [hde, hl] at hnone
            cases hnone
          · obtain ⟨raw, hraw, -, hs, -⟩ := hr.reads
            rw [hde, hl] at hraw
            cases hraw
            rw [hck, hs]
            rfl
        simp only [screenChanges, plainRecord, hall, decide_eq_true hne, decide_eq_true (Nat.le_of_not_lt hlen), Bool.and_self]
      · obtain ⟨m, hm⟩ := List.exists_mem_of_ne_nil c hne
        obtain ⟨d, hd', hde⟩ := List.mem_map.mp (hkey m hm).2
        obtain hnone | ⟨x, hx, -⟩ := hd.all d hd'
        · have := Json.lookup_isSome hm
          rw [← hde, hnone] at this
          cases this
        · exact List.length_pos_of_mem hx
      · have hsub : (os.filterMap id).map Prod.fst ⊆ c.map Prod.fst := by
          intro k hk
          obtain ⟨m, hm, rfl⟩ := List.mem_map.mp hk
          obtain ⟨x, hx, he⟩ := hin m hm
          exact List.mem_map.mpr ⟨x, hx, he⟩
        have := (List.subperm_of_subset hnodup hsub).length_le
        simp only [List.length_map] at this
        omega
      · obtain ⟨d, -, hr⟩ := hd.each m hm
        obtain ⟨x, hx, he⟩ := hin m hm
        obtain ⟨-, -, -, -, hs⟩ := hr.reads
        exact ⟨he ▸ (hkey x hx).1, hs⟩

/-! ## The other fields -/

variable {α : Type}

def Optionally (reads : Option Json → α → Prop) (v : Option Json) (a : Option α) : Prop :=
  (a = none ∧ v = none) ∨ ∃ x, a = some x ∧ reads v x

def ReadsUuid (v : Option Json) (s : Text) : Prop := v = some (.str s) ∧ UUID s = true

theorem organizationIdOf_ok {v : Json} (h : organizationIdOf v = .ok org) :
    v = org.elim .null .str ∧ org.all UUID = true := by
  cases v with
  | null => cases h; exact ⟨rfl, rfl⟩
  | str s =>
    obtain ⟨hu, h⟩ := guard_ok h
    cases h
    exact ⟨rfl, by simpa using hu⟩
  | _ => cases h

theorem organizationOf_ok
    (h : organizationOf o entry resource = .ok org) : member o "organizationId" = some (org.elim .null .str) ∧ org.all UUID = true := by
  unfold organizationOf at h
  cases hm : member o "organizationId" with
  | none => rw [hm] at h; cases h
  | some v =>
    rw [hm] at h
    obtain ⟨x, hx, h⟩ := bind_eq_ok.mp h
    have hsame : org = x := by
      simp only [refuse] at h
      generalize entry.organization = rule at h
      cases rule with
      | optional => cases h; rfl
      | _ => obtain ⟨-, h⟩ := guard_ok h; cases h; rfl
    obtain ⟨rfl, hu⟩ := organizationIdOf_ok hx
    rw [hsame]
    exact ⟨rfl, hu⟩

theorem scopeField_ok {key kind : String} {level : Option Level} {id : Option Text}
    (h : scopeField o key level kind resource = .ok id) : Optionally ReadsUuid (member o key) id := by
  unfold scopeField at h
  cases hm : member o key with
  | none =>
    rw [hm] at h
    obtain ⟨-, h⟩ := guard_ok h
    cases h
    exact .inl ⟨rfl, rfl⟩
  | some v =>
    simp only [hm, refuse] at h
    cases ht : textOf (some v) with
    | none => rw [ht] at h; cases h
    | some s =>
      rw [ht] at h
      obtain ⟨hl, -, h⟩ := guards_ok h
      cases h
      exact .inr ⟨s, rfl, textOf_some ht, by simpa using (not_or.mp hl).2⟩

theorem scopeOf_ok {ids : Option Text × Option Text}
    (h : scopeOf o entry resource org = .ok ids) : Optionally ReadsUuid (member o "companyId") ids.1 ∧
      Optionally ReadsUuid (member o "platformId") ids.2 ∧ (ids.1.toList ++ ids.2.toList ++ org.toList).Nodup := by
  obtain ⟨c, hc, h⟩ := bind_eq_ok.mp h
  obtain ⟨p, hp, h⟩ := bind_eq_ok.mp h
  obtain ⟨hn, h⟩ := guard_ok h
  cases h
  exact ⟨scopeField_ok hc, scopeField_ok hp, not_not.mp hn⟩

theorem approvalOf_ok {a : Option UserReference} (h : approvalOf o entry = .ok a) :
    Optionally (fun v a => ReadsActor v (.user a.id a.userKind)) (member o "approvedBy") a := by
  unfold approvalOf at h
  cases hm : member o "approvedBy" with
  | none =>
    rw [hm] at h
    obtain ⟨-, h⟩ := guard_ok h
    cases h
    exact .inl ⟨rfl, rfl⟩
  | some v =>
    simp only [hm, refuse] at h
    cases hr : entry.approval with
    | none => rw [hr] at h; cases h
    | some rule =>
      cases hp : plainRecord v with
      | none => rw [hr, hp] at h; cases h
      | some m =>
        obtain rfl := plainRecord_some hp
        simp only [hr, hp] at h
        obtain ⟨hk, ht, h⟩ := guards_ok h
        cases hi : textOf (member m "id") <;> cases hd : userKindOf (member m "userKind") <;> simp only [hi, hd] at h <;> try cases h
        obtain ⟨hid, h⟩ := guard_ok h
        cases h
        exact .inr ⟨_, rfl, userActor (by simpa using hk) (not_not.mp ht) hi hd (by simpa using (not_or.mp hid).1)⟩

theorem subjectOf_ok {s : Option AuditReference} (h : subjectOf o entry = .ok s) :
    Optionally ReadsReference (member o "subject") s := by
  unfold subjectOf at h
  cases hm : member o "subject" with
  | none =>
    rw [hm] at h
    cases hs : entry.subject with
    | required t => rw [hs] at h; cases h
    | _ => rw [hs] at h; cases h; exact .inl ⟨rfl, rfl⟩
  | some v =>
    rw [hm] at h
    cases hs : entry.subject with
    | forbidden => rw [hs] at h; cases h
    | _ =>
      rw [hs] at h
      obtain ⟨r, hr, rfl⟩ := map_eq_ok.mp h
      exact .inr ⟨r, rfl, referenceOf_ok hr⟩

theorem validOutcome_ok {x : AuditOutcome} (h : validOutcome o entry = .ok x) :
    member o "outcome" = some (.str x.text) := by
  unfold validOutcome at h
  cases hm : outcomeOf (member o "outcome") with
  | none => rw [hm] at h; cases h
  | some y =>
    rw [hm] at h
    have hxy : x = y := by
      by_cases hin : y ∈ entry.outcomes
      · simp only [if_pos hin] at h; cases h; rfl
      · simp only [if_neg hin] at h; cases h
    rw [hxy]
    exact outcomeOf_some hm

theorem causationOf_ok {x : Option Text} (h : causationOf o = .ok x) : Optionally ReadsUuid (member o "causationId") x := by
  unfold causationOf at h
  cases hm : member o "causationId" with
  | none => rw [hm] at h; cases h; exact .inl ⟨rfl, rfl⟩
  | some v =>
    simp only [hm, refuse] at h
    cases ht : textOf (some v) with
    | none => rw [ht] at h; cases h
    | some s =>
      rw [ht] at h
      obtain ⟨hu, h⟩ := guard_ok h
      cases h
      exact .inr ⟨s, rfl, textOf_some ht, by simpa using hu⟩

theorem liveModeOf_ok {x : Option Bool} (h : liveModeOf o = .ok x) :
    Optionally (fun v b => v = some (.bool b)) (member o "liveMode") x := by
  unfold liveModeOf at h
  cases hm : member o "liveMode" with
  | none => rw [hm] at h; cases h; exact .inl ⟨rfl, rfl⟩
  | some v =>
    rw [hm] at h
    cases v with
    | bool b => cases h; exact .inr ⟨b, rfl, rfl⟩
    | _ => cases h

variable {source : Text}

theorem entryFor_ok {x : Text × CatalogEntry} (h : entryFor entryOf o source = .ok x) :
    member o "action" = some (.str x.1) ∧ x.1.length ≤ MAX_ACTION_LENGTH ∧ EVENT_NAME x.1 = true := by
  unfold entryFor at h
  cases ht : textOf (member o "action") with
  | none => rw [ht] at h; cases h
  | some action =>
    simp only [ht, refuse] at h
    obtain ⟨hn, h⟩ := guard_ok h
    cases he : entryOf action with
    | none => rw [he] at h; cases h
    | some entry =>
      simp only [he] at h
      obtain ⟨-, h⟩ := guard_ok h
      cases h
      obtain ⟨hlen, hname⟩ := not_or.mp hn
      exact ⟨textOf_some ht, Nat.le_of_not_lt hlen, by simpa using hname⟩

/-! ## The payload -/

structure ReadsPayload (o : Members) (version : Int) (p : AuditPayload) : Prop where
  scanned : scan (.obj o) 0 = .ok ()
  keys : onlyKeys o (allowedKeys version) = true
  action : member o "action" = some (.str p.action) ∧ p.action.length ≤ MAX_ACTION_LENGTH ∧ EVENT_NAME p.action = true
  actor : ReadsActor (member o "actor") p.actor
  organizationId : member o "organizationId" = some (p.organizationId.elim .null .str) ∧ p.organizationId.all UUID = true
  resource : ReadsReference (member o "resource") p.resource
  subject : Optionally ReadsReference (member o "subject") p.subject
  outcome : member o "outcome" = some (.str p.outcome.text)
  changes : Optionally ReadsChanges (member o "changes") p.changes
  causationId : Optionally ReadsUuid (member o "causationId") p.causationId
  companyId : Optionally ReadsUuid (member o "companyId") p.companyId
  platformId : Optionally ReadsUuid (member o "platformId") p.platformId
  levels : (p.companyId.toList ++ p.platformId.toList ++ p.organizationId.toList).Nodup
  liveMode : Optionally (fun v b => v = some (.bool b)) (member o "liveMode") p.liveMode
  approvedBy : Optionally (fun v a => ReadsActor v (.user a.id a.userKind)) (member o "approvedBy") p.approvedBy
  size : p.toJson.stringify.length ≤ MAX_PAYLOAD_BYTES

theorem validateAuditPayloadWith_ok {input : Json}
    (h : validateAuditPayloadWith entryOf input source version = .ok p) : ∃ o, input = .obj o ∧ ReadsPayload o version p := by
  unfold validateAuditPayloadWith at h
  cases hp : plainRecord input with
  | none => rw [hp] at h; cases h
  | some o =>
    obtain rfl := plainRecord_some hp
    simp only [hp, refuse] at h
    obtain ⟨_, hscan, h⟩ := bind_eq_ok.mp h
    obtain ⟨hkeys, h⟩ := guard_ok h
    obtain ⟨⟨action, entry⟩, haction, h⟩ := bind_eq_ok.mp h
    obtain ⟨actor, hactor, h⟩ := bind_eq_ok.mp h
    obtain ⟨resource, hresource, h⟩ := bind_eq_ok.mp h
    obtain ⟨org, horg, h⟩ := bind_eq_ok.mp h
    obtain ⟨subject, hsubject, h⟩ := bind_eq_ok.mp h
    obtain ⟨outcome, houtcome, h⟩ := bind_eq_ok.mp h
    obtain ⟨changes, hchanges, h⟩ := bind_eq_ok.mp h
    obtain ⟨causation, hcausation, h⟩ := bind_eq_ok.mp h
    obtain ⟨scope, hscope, h⟩ := bind_eq_ok.mp h
    obtain ⟨approved, happroved, h⟩ := bind_eq_ok.mp h
    obtain ⟨live, hlive, h⟩ := bind_eq_ok.mp h
    obtain ⟨hsize, h⟩ := guard_ok h
    cases h
    obtain ⟨hc, hpl, hn⟩ := scopeOf_ok hscope
    exact ⟨o, rfl, {
      scanned := hscan
      keys := by simpa using hkeys
      action := entryFor_ok haction
      actor := actorOf_ok hactor
      organizationId := organizationOf_ok horg
      resource := referenceOf_ok hresource
      subject := subjectOf_ok hsubject
      outcome := validOutcome_ok houtcome
      changes := changesOf_ok hchanges
      causationId := causationOf_ok hcausation
      companyId := hc
      platformId := hpl
      levels := hn
      liveMode := liveModeOf_ok hlive
      approvedBy := approvalOf_ok happroved
      size := Nat.le_of_not_lt hsize }⟩

/-! ## The canonical form -/

theorem lookup_field (key : String) (v : Option α) (f : α → Json) (k : Text) :
    (field key v f).lookup k = if k == codes key then v.map f else none := by
  cases v with
  | none => cases k == codes key <;> rfl
  | some a =>
    simp only [field, Option.map_some, Option.toList_some, List.lookup_cons]
    cases k == codes key <;> rfl

theorem field_keys (key : String) (v : Option α) (f : α → Json) : ((field key v f).map Prod.fst).Sublist [codes key] := by
  cases v with
  | none => exact List.nil_sublist _
  | some a => exact List.Sublist.refl _

variable {f : α → Json}

theorem Optionally.rel {reads : Option Json → α → Prop} {a : Option α} (h : Optionally reads v a)
    (hr : ∀ x, reads v x → ∃ j, v = some j ∧ Reorders j (f x)) : Option.Rel Reorders v (a.map f) := by
  rcases h with ⟨rfl, rfl⟩ | ⟨x, rfl, hx⟩
  · exact .none
  · obtain ⟨j, rfl, hj⟩ := hr x hx
    exact .some hj

theorem readsUuid_rel {a : Option Text} (h : Optionally ReadsUuid v a) : Option.Rel Reorders v (a.map Json.str) :=
  h.rel fun x hx => ⟨.str x, hx.1, .refl _⟩

def allFields : List Text := TOP_LEVEL ++ V2_FIELDS

theorem members_keys (p : AuditPayload) : (p.members.map Prod.fst).Sublist allFields := by
  have happ : allFields = ["action", "actor", "organizationId", "resource"].map codes ++ [codes "subject"] ++ [codes "outcome"] ++
      [codes "changes"] ++ [codes "causationId"] ++ [codes "companyId"] ++ [codes "platformId"] ++ [codes "liveMode"] ++
      [codes "approvedBy"] := rfl
  rw [happ]
  simp only [AuditPayload.members, List.map_append]
  refine .append (.append (.append (.append (.append (.append (.append (.append (.refl _) ?_) (.refl _)) ?_) ?_) ?_) ?_) ?_) ?_ <;>
    exact field_keys _ _ _

theorem members_nodup (p : AuditPayload) : (p.members.map Prod.fst).Nodup :=
  (members_keys p).nodup (by decide)

theorem members_lookup (p : AuditPayload) :
    p.members.lookup (codes "action") = some (.str p.action) ∧ p.members.lookup (codes "actor") = some p.actor.toJson ∧
    p.members.lookup (codes "organizationId") = some (p.organizationId.elim .null .str) ∧
    p.members.lookup (codes "resource") = some p.resource.toJson ∧
    p.members.lookup (codes "subject") = p.subject.map AuditReference.toJson ∧
    p.members.lookup (codes "outcome") = some (.str p.outcome.text) ∧ p.members.lookup (codes "changes") = p.changes.map changesJson ∧
    p.members.lookup (codes "causationId") = p.causationId.map Json.str ∧ p.members.lookup (codes "companyId") = p.companyId.map Json.str ∧
    p.members.lookup (codes "platformId") = p.platformId.map Json.str ∧ p.members.lookup (codes "liveMode") = p.liveMode.map Json.bool ∧
    p.members.lookup (codes "approvedBy") = p.approvedBy.map fun a => (AuditActor.user a.id a.userKind).toJson := by
  simp [AuditPayload.members, List.lookup_append, lookup_field, List.lookup_cons, codes]

theorem ReadsPayload.fields (h : ReadsPayload o version p) : onlyKeys o allFields = true := by
  refine onlyKeys_mono h.keys fun k hk => ?_
  unfold allowedKeys at hk
  split at hk
  · exact hk
  · exact List.mem_append_left _ hk

theorem ReadsPayload.reorders (h : ReadsPayload o version p) : Reorders (.obj o) p.toJson := by
  have hp : onlyKeys p.members allFields = true := by
    refine List.all_eq_true.mpr fun m hm => ?_
    have := (members_keys p).subset (List.mem_map.mpr ⟨m, hm, rfl⟩)
    simpa using this
  refine lookup_rel h.fields hp fun k hk => ?_
  obtain ⟨l₁, l₂, l₃, l₄, l₅, l₆, l₇, l₈, l₉, l₁₀, l₁₁, l₁₂⟩ := members_lookup p
  have hk : k = codes "action" ∨ k = codes "actor" ∨ k = codes "organizationId" ∨ k = codes "resource" ∨ k = codes "subject" ∨
      k = codes "outcome" ∨ k = codes "changes" ∨ k = codes "causationId" ∨ k = codes "companyId" ∨ k = codes "platformId" ∨
      k = codes "liveMode" ∨ k = codes "approvedBy" := by
    simpa [allFields, TOP_LEVEL, V2_FIELDS] using hk
  rcases hk with rfl | rfl | rfl | rfl | rfl | rfl | rfl | rfl | rfl | rfl | rfl | rfl
  · rw [l₁, show o.lookup (codes "action") = _ from h.action.1]
    exact .some (.refl _)
  · obtain ⟨j, hj, hr, -⟩ := h.actor.reads
    rw [l₂, show o.lookup (codes "actor") = _ from hj]
    exact .some hr
  · rw [l₃, show o.lookup (codes "organizationId") = _ from h.organizationId.1]
    exact .some (.refl _)
  · obtain ⟨j, hj, hr, -⟩ := h.resource.reads
    rw [l₄, show o.lookup (codes "resource") = _ from hj]
    exact .some hr
  · rw [l₅]
    exact h.subject.rel fun x hx => hx.reads.imp fun j hj => ⟨hj.1, hj.2.1⟩
  · rw [l₆, show o.lookup (codes "outcome") = _ from h.outcome]
    exact .some (.refl _)
  · rw [l₇]
    exact h.changes.rel fun x hx => hx.reads.elim fun c hc => ⟨.obj c, hc.1, hc.2.1⟩
  · rw [l₈]
    exact readsUuid_rel h.causationId
  · rw [l₉]
    exact readsUuid_rel h.companyId
  · rw [l₁₀]
    exact readsUuid_rel h.platformId
  · rw [l₁₁]
    exact h.liveMode.rel fun x hx => ⟨_, hx, .refl _⟩
  · rw [l₁₂]
    exact h.approvedBy.rel fun x hx => hx.reads.imp fun j hj => ⟨hj.1, hj.2.1⟩

/-! ## Well-formed values -/

theorem scalar_wellFormed (s : ChangeScalar) : s.toJson.WellFormed := by
  cases s <;> trivial

theorem changeValue_wellFormed (v : ChangeValue) : v.toJson.WellFormed := by
  cases v with
  | value s => exact scalar_wellFormed s
  | transition a b => exact ⟨(by decide : (["from", "to"].map codes).Nodup), scalar_wellFormed a, scalar_wellFormed b, trivial⟩

theorem wellFormedMembers {ms : Members} (h : ∀ m ∈ ms, m.2.WellFormed) : Json.WellFormedMembers ms := by
  induction ms with
  | nil => trivial
  | cons m ms ih => exact ⟨h m List.mem_cons_self, ih fun x hx => h x (List.mem_cons_of_mem _ hx)⟩

theorem changes_wellFormed (h : (out.map Prod.fst).Nodup) : (changesJson out).WellFormed := by
  refine ⟨by rw [List.map_map]; exact h, wellFormedMembers fun m hm => ?_⟩
  obtain ⟨x, -, rfl⟩ := List.mem_map.mp hm
  exact changeValue_wellFormed x.2

theorem actor_wellFormed (a : AuditActor) : a.toJson.WellFormed := by
  cases a with
  | user => exact ⟨(by decide : actorKeys.Nodup), trivial, trivial, trivial, trivial⟩
  | _ => exact ⟨(by decide : referenceKeys.Nodup), trivial, trivial, trivial⟩

theorem reference_wellFormed (r : AuditReference) : r.toJson.WellFormed :=
  ⟨(by decide : referenceKeys.Nodup), trivial, trivial, trivial⟩

theorem field_wellFormed {key : String} {v : Option α} (h : ∀ a, v = some a → (f a).WellFormed) :
    ∀ m ∈ field key v f, m.2.WellFormed := by
  intro m hm
  obtain ⟨a, ha, rfl⟩ := Option.map_eq_some_iff.mp (Option.mem_toList.mp hm)
  exact h a ha

theorem ReadsPayload.wellFormed (h : ReadsPayload o version p) : p.toJson.WellFormed := by
  refine ⟨members_nodup p, wellFormedMembers ?_⟩
  simp only [AuditPayload.members, List.forall_mem_append, List.forall_mem_cons]
  refine ⟨⟨⟨⟨⟨⟨⟨⟨⟨trivial, actor_wellFormed _, ?_, reference_wellFormed _, fun _ hm => (List.not_mem_nil hm).elim⟩, ?_⟩,
    ⟨trivial, fun _ hm => (List.not_mem_nil hm).elim⟩⟩, ?_⟩, ?_⟩, ?_⟩, ?_⟩, ?_⟩, ?_⟩
  · cases p.organizationId <;> trivial
  · exact field_wellFormed fun a _ => reference_wellFormed a
  · refine field_wellFormed fun a ha => changes_wellFormed ?_
    rcases h.changes with ⟨hn, -⟩ | ⟨out, hout, hr⟩
    · rw [hn] at ha
      cases ha
    · rw [hout] at ha
      cases ha
      exact hr.nodup
  · exact field_wellFormed fun a _ => trivial
  · exact field_wellFormed fun a _ => trivial
  · exact field_wellFormed fun a _ => trivial
  · exact field_wellFormed fun a _ => trivial
  · exact field_wellFormed fun a _ => actor_wellFormed _

/-! ## The event -/

theorem correlationOf_ok {c : Option Text} (h : correlationOf v = .ok c) :
    screenCorrelation v = true ∧ c.all CORRELATION_ID = true := by
  cases v with
  | none => cases h; exact ⟨rfl, rfl⟩
  | some j =>
    cases j with
    | null => cases h; exact ⟨rfl, rfl⟩
    | str s =>
      obtain ⟨hc, h⟩ := guard_ok h
      cases h
      have : CORRELATION_ID s = true := by simpa using hc
      exact ⟨this, this⟩
    | _ => cases h

structure ReadsEnvelope (event : AuditEnvelopeInput) (e : EnvelopeFacts) : Prop where
  headers : ∃ h, event.headers = .obj h ∧ member h "eventId" = some (.str e.id) ∧ member h "source" = some (.str e.source) ∧
    member h "occurredAt" = some (.str e.occurredAt) ∧ member h "version" = some (.num (.int e.version)) ∧
    screenCorrelation (member h "correlationId") = true
  id : event.id = .str e.id ∧ UUID e.id = true
  source : SERVICE_NAME e.source = true
  occurredAt : isExactUtcTimestamp e.occurredAt OCCURRED_AT = true
  version : e.version = 1 ∨ e.version = 2
  correlationId : e.correlationId.all CORRELATION_ID = true

theorem integerOf_some {n : Int} (h : integerOf v = some n) : v = some (.num (.int n)) := by
  cases v with
  | none => cases h
  | some j =>
    cases j with
    | num m =>
      cases m with
      | int k => cases h; rfl
      | other => cases h
    | _ => cases h

variable {event : AuditEnvelopeInput}

theorem envelopeFacts_ok {e : EnvelopeFacts} (h : envelopeFacts event = .ok e) : ReadsEnvelope event e := by
  unfold envelopeFacts at h
  cases hp : plainRecord event.headers with
  | none => rw [hp] at h; cases h
  | some hs =>
    simp only [hp, refuse] at h
    cases hi : textOf (some event.id) with
    | none => rw [hi] at h; cases h
    | some id =>
      simp only [hi] at h
      obtain ⟨hid, h⟩ := guard_ok h
      obtain ⟨huuid, heq⟩ := not_or.mp hid
      cases hso : textOf (member hs "source") with
      | none => rw [hso] at h; cases h
      | some source =>
        simp only [hso] at h
        obtain ⟨hsource, h⟩ := guard_ok h
        cases hoc : textOf (member hs "occurredAt") with
        | none => rw [hoc] at h; cases h
        | some occurredAt =>
          simp only [hoc] at h
          obtain ⟨hexact, h⟩ := guard_ok h
          cases hve : integerOf (member hs "version") with
          | none => rw [hve] at h; cases h
          | some version =>
            simp only [hve] at h
            obtain ⟨hversion, h⟩ := guard_ok h
            obtain ⟨c, hc, h⟩ := bind_eq_ok.mp h
            cases h
            obtain ⟨hsc, hcc⟩ := correlationOf_ok hc
            exact {
              headers := ⟨hs, plainRecord_some hp, textOf_some (not_not.mp heq), textOf_some hso, textOf_some hoc, integerOf_some hve, hsc⟩
              id := ⟨Option.some.inj (textOf_some hi), by simpa using huuid⟩
              source := by simpa using hsource
              occurredAt := by simpa using hexact
              version := by
                have hv : ¬ (version ≠ 1 ∧ version ≠ 2) := hversion
                change version = 1 ∨ version = 2
                omega
              correlationId := hcc }

structure Accepted (event : AuditEnvelopeInput) (v : ValidatedAuditEvent) : Prop where
  envelope : ReadsEnvelope event ⟨v.eventId, v.sourceService, v.occurredAt, v.schemaVersion, v.correlationId⟩
  name : event.name = .str v.eventType ∧ v.eventType = EVENT_TYPE_PREFIX ++ v.payload.action
  payload : ∃ o, event.payload.val = .obj o ∧ ReadsPayload o v.schemaVersion v.payload
  notSelf : v.payload.causationId ≠ some v.eventId

theorem validateAuditEvent_ok {v : ValidatedAuditEvent}
    (h : validateAuditEvent entryOf event = .ok v) : Accepted event v := by
  obtain ⟨e, he, h⟩ := bind_eq_ok.mp h
  cases hn : textOf (some event.name) with
  | none => rw [hn] at h; cases h
  | some name =>
    simp only [hn, refuse] at h
    obtain ⟨-, -, h⟩ := guards_ok h
    obtain ⟨p, hp, h⟩ := bind_eq_ok.mp h
    obtain ⟨hname, hcause, h⟩ := guards_ok h
    cases hen : entryOf p.action with
    | none => rw [hen] at h; cases h
    | some entry =>
      simp only [hen] at h
      obtain ⟨-, h⟩ := guard_ok h
      cases h
      exact {
        envelope := envelopeFacts_ok he
        name := ⟨Option.some.inj (textOf_some hn), not_not.mp hname⟩
        payload := validateAuditPayloadWith_ok hp
        notSelf := hcause }

def planChanged : CatalogEntry where
  producer := codes "billing-service"
  category := .commercial
  since := 2
  users := some [.owner]
  service := false
  system := none
  organization := .required
  resource := [codes "subscription"]
  subject := .forbidden
  outcomes := [.succeeded]
  changes := [(codes "seats", ⟨.integer 1 100, .transition, true⟩)]
  changes_nodup := by decide
  company := some .required
  platform := none
  approval := none

def planCatalog : Catalog := fun action => if action = codes "subscription.changed" then some planChanged else none

def planPayload : Json := .obj [
  (codes "changes", .obj [(codes "seats", .obj [(codes "to", .num (.int 12)), (codes "from", .num (.int 5))])]),
  (codes "action", .str (codes "subscription.changed")),
  (codes "actor", .obj [(codes "type", .str (codes "user")), (codes "userKind", .str (codes "owner")),
    (codes "id", .str (codes "11111111-1111-4111-8111-111111111111"))]),
  (codes "organizationId", .str (codes "22222222-2222-4222-8222-222222222222")),
  (codes "resource", .obj [(codes "type", .str (codes "subscription")), (codes "id", .str (codes "33333333-3333-4333-8333-333333333333"))]),
  (codes "outcome", .str (codes "succeeded")),
  (codes "companyId", .str (codes "44444444-4444-4444-8444-444444444444"))]

def planEvent : AuditEnvelopeInput where
  id := .str (codes "55555555-5555-4555-8555-555555555555")
  name := .str (codes "audit.subscription.changed")
  payload := ⟨planPayload, by simp [planPayload, Json.WellFormed, Json.WellFormedMembers, codes]⟩
  headers := .obj [(codes "eventId", .str (codes "55555555-5555-4555-8555-555555555555")), (codes "source", .str (codes "billing-service")),
    (codes "occurredAt", .str (codes "2026-02-28T10:15:30.125Z")), (codes "version", .num (.int 2))]

theorem plan_accepted : ∃ v, validateAuditEvent planCatalog planEvent = .ok v := by
  have hs : (validateAuditEvent planCatalog planEvent).toOption.isSome = true := by decide +kernel
  cases h : validateAuditEvent planCatalog planEvent with
  | error e => rw [h] at hs; cases hs
  | ok v => exact ⟨v, rfl⟩

end NawaraCore.Audit
