import NawaraCore.Lib.CanonicalJson
import NawaraCore.Notification.Variables

/-!
# What the template data of a send holds

A send is refused exactly when a pinned version finds a problem. The data of an accepted one
are exact unless a key is found in `Object.prototype` only, or a later version marks a
variable secret that the first one does not.
-/

namespace NawaraCore.Templates

open Notification (VariableType VariableSpec)

variable {e : Text × VariableSpec}

section
variable {protocol : Text → Option Text} {schema : VariableSchema} {values : Members} {spec : VariableSpec} {name : Text} {j : Json} {first : PublishedVariables} {rest : List PublishedVariables} {d : TemplateData}

def WellTyped (protocol : Text → Option Text) (spec : VariableSpec) : Json → Prop
  | .str s => match spec.type with
    | .string => 1 ≤ s.length ∧ s.length ≤ spec.maxLength.getD 0 ∧ ∀ c ∈ s, control c = false
    | .code => s ≠ [] ∧ s.length ≤ spec.maxLength.getD 0 ∧ ∀ c ∈ s, isAlnum c = true
    | .datetime => isoUtc s = true
    | .url => s.length ≤ spec.maxLength.getD 0 ∧ protocol s = some (codes "https:") ∧ ∀ c ∈ s, control c = false
    | .integer => False
  | .num n => spec.type = .integer ∧ safeInteger n = true
  | _ => False

theorem ite_problem {c : Prop} [Decidable c] {x : Text} {r : Option Text} : (if c then some x else r) = none ↔ ¬ c ∧ r = none := by
  split <;> simp [*]

theorem valueProblem_string (s : Text) : valueProblem protocol spec (.json (.str s)) = none ↔ WellTyped protocol spec (.str s) := by
  unfold valueProblem WellTyped
  cases spec.type with
  | string =>
    dsimp only
    rw [ite_problem, ite_problem, not_or, Nat.not_lt, Nat.not_lt, Bool.not_eq_true, List.any_eq_false]
    simp [and_assoc]
  | integer => simp
  | datetime => simp
  | code =>
    dsimp only
    rw [ite_problem, not_or, Nat.not_lt, not_not, List.all_eq_true]
    tauto
  | url =>
    dsimp only
    rw [ite_problem, Nat.not_lt]
    simp

theorem valueProblem_none (j : Json) : valueProblem protocol spec (.json j) = none ↔ WellTyped protocol spec j := by
  cases j with
  | str s => exact valueProblem_string s
  | num n =>
    unfold valueProblem WellTyped
    cases spec.type <;> simp
  | _ =>
    unfold valueProblem WellTyped
    cases spec.type <;> simp

theorem valueProblem_inherited : valueProblem protocol spec .inherited ≠ none := by
  unfold valueProblem
  cases spec.type <;> simp

def names (schema : VariableSchema) : List Text := schema.map Prod.fst

def Fits (protocol : Text → Option Text) (values : Members) (e : Text × VariableSpec) : Prop := match present values e.1 with
  | none => e.2.required = false
  | some v => valueProblem protocol e.2 v = none

def Passes (protocol : Text → Option Text) (schema : VariableSchema) (values : Members) : Prop :=
  (∀ e ∈ schema, Fits protocol values e) ∧ ∀ m ∈ values, m.1 ∈ names schema ∨ m.1 ∈ objectPrototype

theorem lookup_names : (schema.lookup name).isSome = true ↔ name ∈ names schema := by
  rw [← Option.ne_none_iff_isSome, Ne, List.lookup_eq_none_iff, names, List.mem_map]
  simp only [bne_iff_ne, ne_eq, not_forall, not_not, exists_prop]
  exact exists_congr fun e => and_congr_right fun _ => eq_comm

theorem inSchema_iff : inSchema schema name = true ↔ name ∈ names schema ∨ name ∈ objectPrototype := by
  rw [inSchema, Bool.or_eq_true, lookup_names, decide_eq_true_iff]

theorem no_problems : variableValueProblems protocol schema values = [] ↔ Passes protocol schema values := by
  unfold variableValueProblems Passes
  rw [List.append_eq_nil_iff, List.filterMap_eq_nil_iff, List.map_eq_nil_iff, List.filter_eq_nil_iff]
  refine and_congr (forall₂_congr fun e _ => ?_) (forall₂_congr fun m _ => ?_)
  · obtain ⟨name, spec⟩ := e
    unfold Fits
    dsimp only
    cases present values name with
    | none => cases spec.required <;> simp
    | some v => simp
  · rw [← inSchema_iff]
    simp

theorem isNull_iff : isNull j = true ↔ j = .null := by cases j <;> simp [isNull]

def plain (schema : VariableSchema) (m : Text × Json) : Bool := !isNull m.2 && !secret schema m.1 && m.1 ≠ codes "__proto__"

def marked (schema : VariableSchema) (m : Text × Json) : Bool := !isNull m.2 && secret schema m.1 && m.1 ≠ codes "__proto__"

theorem split_eq (schema : VariableSchema) (values : Members) :
    split schema values = ⟨values.filter (plain schema), (values.filter (marked schema)).map fun m => (m.1, stringOf m.2)⟩ := by
  suffices h : ∀ (l : Members) (d : TemplateData), l.foldl (splitOne schema) d =
      ⟨d.data ++ l.filter (plain schema), d.secrets ++ (l.filter (marked schema)).map fun m => (m.1, stringOf m.2)⟩ by
    exact (h values ⟨[], []⟩).trans (by simp)
  intro l
  induction l with
  | nil => simp
  | cons m l ih =>
    intro d
    rw [List.foldl_cons, ih]
    by_cases hnull : isNull m.2 = true
    · simp [splitOne, plain, marked, hnull]
    · by_cases hs : secret schema m.1 = true <;> by_cases hp : m.1 = codes "__proto__" <;>
        simp [splitOne, plain, marked, hnull, hs, hp, setOwn]

theorem data_lookup (hn : (values.map Prod.fst).Nodup) :
    (split schema values).data.lookup name = some j ↔ values.lookup name = some j ∧ plain schema (name, j) = true := by
  rw [split_eq, lookup_some_iff (hn.sublist (List.filter_sublist.map _)), List.mem_filter, lookup_some_iff hn]

theorem secrets_lookup (hn : (values.map Prod.fst).Nodup) {s : Text} :
    (split schema values).secrets.lookup name = some s ↔ ∃ j, values.lookup name = some j ∧ marked schema (name, j) = true ∧ stringOf j = s := by
  rw [split_eq]
  dsimp only
  have hkeys : (((values.filter (marked schema)).map fun m => (m.1, stringOf m.2)).map Prod.fst).Nodup := by
    rw [List.map_map]
    exact hn.sublist (List.filter_sublist.map _)
  rw [lookup_some_iff hkeys, List.mem_map]
  constructor
  · rintro ⟨m, hm, he⟩
    obtain ⟨hm, hmark⟩ := List.mem_filter.mp hm
    cases he
    exact ⟨m.2, (lookup_some_iff hn).mpr hm, hmark, rfl⟩
  · rintro ⟨j, hj, hmark, rfl⟩
    exact ⟨(name, j), List.mem_filter.mpr ⟨(lookup_some_iff hn).mp hj, hmark⟩, rfl⟩

/-! ## Published versions -/

theorem PublishedVariables.spec_ok (v : PublishedVariables) (he : e ∈ v.schema) :
    variableName e.1 = true ∧ (e.2.secret = true → mayBeSecret e.2.type = true) := by
  have hv := List.all_eq_true.mp v.valid e he
  obtain ⟨name, spec⟩ := e
  dsimp only at hv
  rw [Bool.and_eq_true, Bool.and_eq_true] at hv
  refine ⟨hv.1.1, fun hs => ?_⟩
  have hor := hv.1.2
  rwa [hs] at hor

theorem PublishedVariables.not_proto (v : PublishedVariables) (h : name ∈ names v.schema) : name ≠ codes "__proto__" := by
  obtain ⟨e, he, rfl⟩ := List.mem_map.mp h
  intro hp
  have hok := (v.spec_ok he).1
  rw [hp] at hok
  exact absurd hok (by decide)

theorem secret_spec (h : secret schema name = true) : ∃ spec, (name, spec) ∈ schema ∧ spec.secret = true := by
  obtain ⟨spec, hspec, hs⟩ := (Option.any_eq_true _ _).mp h
  obtain ⟨l₁, l₂, hl, -⟩ := List.lookup_eq_some_iff.mp hspec
  exact ⟨spec, by rw [hl]; exact List.mem_append_right _ List.mem_cons_self, hs⟩

theorem present_own (hj : values.lookup name = some j) (hnull : j ≠ .null) : present values name = some (.json j) := by
  unfold present get
  rw [hj]
  cases j <;> simp_all

theorem Fits.typed (h : Fits protocol values e) (hj : values.lookup e.1 = some j) (hnull : j ≠ .null) : WellTyped protocol e.2 j := by
  unfold Fits at h
  rw [present_own hj hnull] at h
  exact (valueProblem_none j).mp h

theorem Fits.required (h : Fits protocol values e) (hreq : e.2.required = true) :
    ∃ j, values.lookup e.1 = some j ∧ WellTyped protocol e.2 j := by
  cases hj : values.lookup e.1 with
  | none =>
    have hpresent : present values e.1 = if e.1 ∈ objectPrototype then some .inherited else none := by
      unfold present get
      rw [hj]
      dsimp only
      by_cases hin : e.1 ∈ objectPrototype
      · rw [if_pos hin]
      · rw [if_neg hin]
    unfold Fits at h
    rw [hpresent] at h
    by_cases hin : e.1 ∈ objectPrototype
    · rw [if_pos hin] at h
      exact absurd h valueProblem_inherited
    · rw [if_neg hin] at h
      exact absurd (hreq.symm.trans h) (by decide)
  | some j =>
    by_cases hnull : j = .null
    · unfold Fits present get at h
      rw [hj, hnull] at h
      dsimp only at h
      rw [hreq] at h
      cases h
    · exact ⟨j, rfl, h.typed hj hnull⟩

theorem PublishedVariables.secret_string (v : PublishedVariables) (hpass : Passes protocol v.schema values) (hs : secret v.schema name = true)
    (hj : values.lookup name = some j) (hnull : j ≠ .null) : j = .str (stringOf j) := by
  obtain ⟨spec, hspec, hsec⟩ := secret_spec hs
  have htyped := (hpass.1 _ hspec).typed hj hnull
  have hmay := (v.spec_ok hspec).2 hsec
  cases j with
  | str s => rfl
  | num n =>
    have hint : spec.type = .integer := htyped.1
    rw [show ((name, spec) : Text × VariableSpec).2.type = VariableType.integer from hint] at hmay
    cases hmay
  | _ => exact htyped.elim

/-! ## Exactness -/

/-- The stored data are what every pinned version declares, and the secrets are apart. -/
structure Exact (protocol : Text → Option Text) (versions : List PublishedVariables) (values : Members) (d : TemplateData) : Prop where
  declared : ∀ v ∈ versions, ∀ m ∈ values, m.1 ∈ names v.schema
  required : ∀ v ∈ versions, ∀ e ∈ v.schema, e.2.required = true → ∃ j, values.lookup e.1 = some j ∧ WellTyped protocol e.2 j
  typed : ∀ v ∈ versions, ∀ e ∈ v.schema, ∀ j, values.lookup e.1 = some j → j ≠ .null → WellTyped protocol e.2 j
  parts : ∀ name j, values.lookup name = some j ∧ j ≠ .null ↔ d.data.lookup name = some j ∨ ∃ s, j = .str s ∧ d.secrets.lookup name = some s
  apart : ∀ name, d.data.lookup name = none ∨ d.secrets.lookup name = none
  secret : ∀ v ∈ versions, ∀ name, secret v.schema name = true → d.data.lookup name = none
  recombined : ∀ v ∈ versions, ∀ name ∈ names v.schema, ∀ j, recombine d name = some j ↔ values.lookup name = some j ∧ j ≠ .null

/-- A version finds a problem: a value that does not fit, or a key that is neither declared nor inherited. -/
def Refused (protocol : Text → Option Text) (versions : List PublishedVariables) (values : Members) : Prop :=
  ∃ v ∈ versions, ¬ Passes protocol v.schema values

/-- No key is only inherited by a schema, and a secret of any version is a secret of the first. -/
structure Clear (first : PublishedVariables) (versions : List PublishedVariables) (values : Members) : Prop where
  own : ∀ v ∈ versions, ∀ m ∈ values, m.1 ∈ objectPrototype → m.1 ∈ names v.schema
  sealed : ∀ v ∈ versions, ∀ m ∈ values, m.2 ≠ .null → Templates.secret v.schema m.1 = true → Templates.secret first.schema m.1 = true

theorem send_ok : send protocol first rest values = .ok d ↔ (∀ v ∈ first :: rest, Passes protocol v.schema values) ∧ split first.schema values = d := by
  unfold send
  cases hfind : (first :: rest).find? fun v => variableValueProblems protocol v.schema values ≠ [] with
  | some v =>
    have hmem := List.mem_of_find?_eq_some hfind
    have hprob := of_decide_eq_true (List.find?_some (p := fun v : PublishedVariables => decide (variableValueProblems protocol v.schema values ≠ [])) hfind)
    refine iff_of_false nofun fun ⟨hall, _⟩ => hprob (no_problems.mpr (hall v hmem))
  | none =>
    have hall : ∀ v ∈ first :: rest, Passes protocol v.schema values := fun v hv => by
      have hno := List.find?_eq_none.mp hfind v hv
      rw [decide_eq_true_iff, ne_eq, not_not] at hno
      exact no_problems.mp hno
    exact ⟨fun h => ⟨hall, Except.ok.inj h⟩, fun h => congrArg Except.ok h.2⟩

theorem Clear.exact (hn : (values.map Prod.fst).Nodup) (hpass : ∀ v ∈ first :: rest, Passes protocol v.schema values)
    (hclear : Clear first (first :: rest) values) : Exact protocol (first :: rest) values (split first.schema values) := by
  have hdeclared : ∀ v ∈ first :: rest, ∀ m ∈ values, m.1 ∈ names v.schema := fun v hv m hm => ((hpass v hv).2 m hm).elim id (hclear.own v hv m hm)
  have hfirst : first ∈ first :: rest := List.mem_cons_self
  have hparts : ∀ name j, values.lookup name = some j ∧ j ≠ .null ↔ (split first.schema values).data.lookup name = some j ∨
      ∃ s, j = .str s ∧ (split first.schema values).secrets.lookup name = some s := fun name j => by
    simp only [data_lookup hn, secrets_lookup hn]
    constructor
    · rintro ⟨hj, hnull⟩
      have hmem := (lookup_some_iff hn).mp hj
      have hproto := first.not_proto (hdeclared first hfirst _ hmem)
      have hnn : isNull j = false := Bool.eq_false_iff.mpr fun h => hnull (isNull_iff.mp h)
      by_cases hs : Templates.secret first.schema name = true
      · exact .inr ⟨stringOf j, first.secret_string (hpass first hfirst) hs hj hnull, j, hj, by simp [marked, hnn, hs, hproto], rfl⟩
      · exact .inl ⟨hj, by simp [plain, hnn, hs, hproto]⟩
    · rintro (⟨hj, hp⟩ | ⟨s, rfl, j', hj', hm, hs⟩)
      · refine ⟨hj, fun h => ?_⟩
        rw [h] at hp
        simp [plain, isNull] at hp
      · have hm' := hm
        simp only [marked, Bool.and_eq_true, Bool.not_eq_true'] at hm'
        have hnull : j' ≠ .null := fun h => by
          rw [h] at hm'
          cases hm'.1.1
        have hstr := first.secret_string (hpass first hfirst) hm'.1.2 hj' hnull
        rw [hs] at hstr
        exact ⟨hstr ▸ hj', by simp⟩
  have hapart : ∀ name, (split first.schema values).data.lookup name = none ∨ (split first.schema values).secrets.lookup name = none := fun name => by
    by_contra hboth
    rw [not_or] at hboth
    obtain ⟨j, hj⟩ := Option.ne_none_iff_exists'.mp hboth.1
    obtain ⟨s, hs⟩ := Option.ne_none_iff_exists'.mp hboth.2
    obtain ⟨-, hp⟩ := (data_lookup hn).mp hj
    obtain ⟨_, _, hm, _⟩ := (secrets_lookup hn).mp hs
    simp only [plain, Bool.and_eq_true, Bool.not_eq_true'] at hp
    simp only [marked, Bool.and_eq_true, hp.1.2] at hm
    cases hm.1.2
  refine ⟨hdeclared, fun v hv e he => ((hpass v hv).1 e he).required, fun v hv e he j hj hnull => ((hpass v hv).1 e he).typed hj hnull, hparts, hapart,
    fun v hv name hs => ?_, fun v hv name hname j => ?_⟩
  · cases hd : (split first.schema values).data.lookup name with
    | none => rfl
    | some j =>
      obtain ⟨hj, hp⟩ := (data_lookup hn).mp hd
      simp only [plain, Bool.and_eq_true, Bool.not_eq_true'] at hp
      have hnull : j ≠ .null := fun h => by
        rw [h] at hp
        cases hp.1.1
      have hsec := hclear.sealed v hv _ ((lookup_some_iff hn).mp hj) hnull hs
      rw [hp.1.2] at hsec
      cases hsec
  · rw [hparts name j]
    unfold recombine
    cases hs : (split first.schema values).secrets.lookup name with
    | none => simp
    | some s =>
      have hnone := (hapart name).resolve_right (by rw [hs]; simp)
      simp [hnone, eq_comm]

/-- **Template data.** The data of a send are exact exactly when the send is refused, or no key is only inherited by a pinned schema and
every value that some pinned version marks secret is marked secret by the first. -/
theorem template_data_law (protocol : Text → Option Text) (first : PublishedVariables) (rest : List PublishedVariables) (values : Values) :
    (∀ d, send protocol first rest values.members = .ok d → Exact protocol (first :: rest) values.members d) ↔
      Refused protocol (first :: rest) values.members ∨ Clear first (first :: rest) values.members := by
  constructor
  · intro h
    by_cases hpass : ∀ v ∈ first :: rest, Passes protocol v.schema values.members
    · have hex := h _ (send_ok.mpr ⟨hpass, rfl⟩)
      refine .inr ⟨fun v hv m hm _ => hex.declared v hv m hm, fun v hv m hm hnull hs => ?_⟩
      by_contra hno
      have hdata : (split first.schema values.members).data.lookup m.1 = some m.2 := by
        refine (data_lookup values.keys).mpr ⟨(lookup_some_iff values.keys).mpr hm, ?_⟩
        have hnn : isNull m.2 = false := Bool.eq_false_iff.mpr fun h => hnull (isNull_iff.mp h)
        have hproto := first.not_proto (hex.declared first List.mem_cons_self m hm)
        simp [plain, hnn, Bool.eq_false_iff.mpr hno, hproto]
      rw [hex.secret v hv m.1 hs] at hdata
      cases hdata
    · rw [not_forall] at hpass
      obtain ⟨v, hpass⟩ := hpass
      rw [Classical.not_imp] at hpass
      exact .inl ⟨v, hpass⟩
  · rintro (⟨v, hv, hno⟩ | hclear) d hd
    · exact absurd ((send_ok.mp hd).1 v hv) hno
    · obtain ⟨hpass, rfl⟩ := send_ok.mp hd
      exact hclear.exact values.keys hpass

def codeVariable (secret : Bool) : PublishedVariables where
  schema := [(codes "code", ⟨.code, true, secret, some 8⟩)]
  keys := List.nodup_singleton _
  valid := by cases secret <;> decide

def codeValue : Values := ⟨[(codes "code", .str (codes "123456"))], List.nodup_singleton _⟩

def inheritedKey : Values := ⟨[(codes "code", .str (codes "123456")), (codes "toString", .str (codes "x"))], by decide⟩

theorem send_sample (secret : Bool) (rest : List PublishedVariables) (hrest : ∀ v ∈ rest, ∃ b, v = codeVariable b) (values : Values)
    (h : values = codeValue ∨ values = inheritedKey) :
    send (fun _ => none) (codeVariable secret) rest values.members = .ok (split (codeVariable secret).schema values.members) := by
  have hpass : ∀ b, Passes (fun _ => none) (codeVariable b).schema values.members := fun b => by
    rw [← no_problems]
    rcases h with rfl | rfl <;> cases b <;> decide
  refine send_ok.mpr ⟨fun v hv => ?_, rfl⟩
  rcases List.mem_cons.mp hv with rfl | hv
  · exact hpass secret
  · obtain ⟨b, rfl⟩ := hrest v hv
    exact hpass b

theorem template_data_leaks :
    (∃ d, send (fun _ => none) (codeVariable false) [] inheritedKey.members = .ok d ∧ (codes "toString", .str (codes "x")) ∈ d.data ∧
      codes "toString" ∉ names (codeVariable false).schema) ∧
    ∃ d, send (fun _ => none) (codeVariable false) [codeVariable true] codeValue.members = .ok d ∧ (codes "code", .str (codes "123456")) ∈ d.data ∧
      secret (codeVariable true).schema (codes "code") = true := by
  refine ⟨⟨_, send_sample false [] nofun inheritedKey (.inr rfl), ?_, by decide⟩,
    ⟨_, send_sample false [codeVariable true] (fun v hv => ⟨true, List.mem_singleton.mp hv⟩) codeValue (.inl rfl), ?_, by decide⟩⟩
  · rw [split_eq]
    exact List.mem_filter.mpr ⟨.tail _ List.mem_cons_self, by decide⟩
  · rw [split_eq]
    exact List.mem_filter.mpr ⟨List.mem_cons_self, by decide⟩

end

end NawaraCore.Templates
