import NawaraCore.File.CleanupSound
import NawaraCore.File.Integrity

/-!
# When an integrity incident is true

A row that was read as available keeps its object until the service deletes it, so a reader
finds a fault exactly when it comes after that deletion.
-/

namespace NawaraCore.FileIntegrity

open FileAccess (FileStatus)
open FileCleanup

variable {rows : List FileRow}
variable {gone : List String} {u : FileRow → FileRow} {size : Nat} {r : ReconcileRun}

section
variable {store : Store} {key other : String} {f g : FileRow} {s : State}

def Intact (store : Store) (f : FileRow) : Prop := ∃ size, f.sizeBytes = some size ∧ store.lookup f.storageKey = some size

theorem fault_intact (h : Intact store f) : fault store f = none := by
  obtain ⟨size, hsize, hlookup⟩ := h
  rw [fault, hlookup, hsize]
  exact if_neg fun h => h rfl

theorem fault_missing (h : store.lookup f.storageKey = none) : fault store f = some .object_missing := by
  rw [fault, h]

/-! ## The invariant -/

def Dead (rows : List FileRow) (key : String) : Prop := ∀ f ∈ rows, f.storageKey = key → f.status ≠ .uploading ∧ f.status ≠ .available

structure Held (rows : List FileRow) (store : Store) (gone : List String) (f : FileRow) : Prop where
  object : Intact store f ∨ f.storageKey ∈ gone
  written : ∀ g ∈ rows, g.storageKey = f.storageKey → g.status ≠ .uploading

def Read (rows : List FileRow) (store : Store) (gone : List String) (f : FileRow) : Prop :=
  if f.status = .available then Held rows store gone f else Dead rows f.storageKey

structure Inv (s : State) : Prop where
  keys : (s.rows.map FileRow.storageKey).Nodup
  available : ∀ f ∈ s.rows, f.status = .available → Intact s.store f
  live : ∀ f ∈ s.rows, f.status = .uploading ∨ f.status = .available → f.storageKey ∉ s.gone
  claims : ∀ c ∈ s.claims, Dead s.rows c.storageKey
  downloads : ∀ f ∈ s.downloads, Held s.rows s.store s.gone f
  runs : ∀ r ∈ s.runs, ∀ f ∈ r.rows, Read s.rows s.store s.gone f
  gone : ∀ key ∈ s.gone, s.store.lookup key = none

theorem Consistent.inv (h : Consistent s) : Inv s := by
  obtain ⟨hclaims, -, hdownloads, hruns, -, hgone⟩ := h.idle
  refine ⟨h.keys, h.available, fun f _ _ => ?_, ?_, ?_, ?_, ?_⟩
  · rw [hgone]
    exact List.not_mem_nil
  · rw [hclaims]
    exact fun c hc => by cases hc
  · rw [hdownloads]
    exact fun c hc => by cases hc
  · rw [hruns]
    exact fun c hc => by cases hc
  · rw [hgone]
    exact nofun

structure Leaves (f g : FileRow) : Prop where
  key : g.storageKey = f.storageKey
  size : g.sizeBytes = f.sizeBytes
  status : g.status = f.status ∨ g.status ≠ .uploading ∧ g.status ≠ .available

theorem Leaves.refl (f : FileRow) : Leaves f f := ⟨rfl, rfl, .inl rfl⟩

theorem Leaves.old (h : Leaves f g) {status : FileStatus} (hs : status = .uploading ∨ status = .available) (hg : g.status = status) : f.status = status := by
  rcases h.status with he | ⟨hu, ha⟩
  · exact he.symm.trans hg
  · rcases hs with rfl | rfl
    · exact absurd hg hu
    · exact absurd hg ha

theorem Dead.map (hu : ∀ f ∈ rows, Leaves f (u f)) (h : Dead rows key) : Dead (rows.map u) key := by
  intro g hg hkey
  obtain ⟨f, hf, rfl⟩ := List.mem_map.mp hg
  have hl := hu f hf
  have hd := h f hf (hl.key.symm.trans hkey)
  exact ⟨fun h => hd.1 (hl.old (.inl rfl) h), fun h => hd.2 (hl.old (.inr rfl) h)⟩

theorem Held.map (hu : ∀ f ∈ rows, Leaves f (u f)) (h : Held rows store gone f) :
    Held (rows.map u) store gone f where
  object := h.object
  written g hg hkey := by
    obtain ⟨o, ho, rfl⟩ := List.mem_map.mp hg
    have hl := hu o ho
    exact fun hs => h.written o ho (hl.key.symm.trans hkey) (hl.old (.inl rfl) hs)

theorem Read.imp {rows' : List FileRow} {store' : Store} {gone' : List String} (h : Read rows store gone f)
    (hheld : Held rows store gone f → Held rows' store' gone' f) (hdead : Dead rows f.storageKey → Dead rows' f.storageKey) :
    Read rows' store' gone' f := by
  unfold Read at h ⊢
  split
  · rename_i hs
    rw [if_pos hs] at h
    exact hheld h
  · rename_i hs
    rw [if_neg hs] at h
    exact hdead h

theorem Inv.map (hu : ∀ f ∈ s.rows, Leaves f (u f)) (h : Inv s) : Inv { s with rows := s.rows.map u } where
  keys := by
    have hsame : (s.rows.map u).map FileRow.storageKey = s.rows.map FileRow.storageKey := by
      rw [List.map_map]
      exact List.map_congr_left fun f hf => (hu f hf).key
    show ((s.rows.map u).map FileRow.storageKey).Nodup
    rw [hsame]
    exact h.keys
  available g hg hs := by
    obtain ⟨f, hf, rfl⟩ := List.mem_map.mp hg
    have hl := hu f hf
    obtain ⟨size, hsize, hlookup⟩ := h.available f hf (hl.old (.inr rfl) hs)
    exact ⟨size, hl.size.trans hsize, by rw [hl.key]; exact hlookup⟩
  live g hg hs := by
    obtain ⟨f, hf, rfl⟩ := List.mem_map.mp hg
    have hl := hu f hf
    rw [hl.key]
    exact h.live f hf (hs.imp (hl.old (.inl rfl)) (hl.old (.inr rfl)))
  claims c hc := (h.claims c hc).map hu
  downloads f hf := (h.downloads f hf).map hu
  runs r hr f hf := (h.runs r hr f hf).imp (Held.map hu) (Dead.map hu)
  gone := h.gone

theorem Held.deleteObject (h : Held rows store gone f) : Held rows (store.remove key) (key :: gone) f where
  object := by
    by_cases he : f.storageKey = key
    · exact .inr (List.mem_cons.mpr (.inl he))
    · rcases h.object with ⟨size, hsize, hlookup⟩ | hgone
      · exact .inl ⟨size, hsize, (lookup_remove he).trans hlookup⟩
      · exact .inr (List.mem_cons_of_mem key hgone)
  written := h.written

theorem Inv.deleteObject (h : Inv s) (hdead : Dead s.rows key) : Inv (s.deleteObject key) where
  keys := h.keys
  available f hf hs := by
    have hne : f.storageKey ≠ key := fun he => (hdead f hf he).2 hs
    obtain ⟨size, hsize, hlookup⟩ := h.available f hf hs
    exact ⟨size, hsize, (lookup_remove hne).trans hlookup⟩
  live f hf hs hmem := by
    rcases List.mem_cons.mp hmem with he | hmem
    · exact hs.elim (hdead f hf he).1 (hdead f hf he).2
    · exact h.live f hf hs hmem
  claims := h.claims
  downloads f hf := (h.downloads f hf).deleteObject
  runs r hr f hf := (h.runs r hr f hf).imp Held.deleteObject id
  gone k hk := by
    by_cases he : k = key
    · rw [he]
      exact lookup_remove_self
    · exact (lookup_remove he).trans (h.gone k ((List.mem_cons.mp hk).resolve_left he))

theorem Inv.readers (h : Inv s) {claims removed : List DeletionClaim} {downloads : List FileRow} {runs : List ReconcileRun} {incidents : List Incident}
    (hclaims : ∀ c ∈ claims, Dead s.rows c.storageKey) (hdownloads : ∀ f ∈ downloads, Held s.rows s.store s.gone f)
    (hruns : ∀ r ∈ runs, ∀ f ∈ r.rows, Read s.rows s.store s.gone f) :
    Inv { s with claims, removed, downloads, runs, incidents } :=
  ⟨h.keys, h.available, h.live, hclaims, hdownloads, hruns, h.gone⟩

/-! ## Steps -/

theorem Inv.updateRow (h : Inv s) {id : Nat} {p : FileRow → Bool} {set : FileRow → FileRow} (hset : ∀ f, p f = true → Leaves f (set f)) :
    Inv { s with rows := updateRow id p set s.rows } := by
  refine h.map fun f _ => ?_
  split
  · rename_i hf
    exact hset f hf.2
  · exact .refl f

theorem Inv.held (h : Inv s) (hf : f ∈ s.rows) (hs : f.status = .available) : Held s.rows s.store s.gone f where
  object := .inl (h.available f hf hs)
  written g hg hkey hu := by
    rw [eq_of_key h.keys hg hf hkey, hs] at hu
    cases hu

theorem Inv.dead (h : Inv s) (hf : f ∈ s.rows) (hs : f.status ≠ .uploading ∧ f.status ≠ .available) : Dead s.rows f.storageKey := by
  intro g hg hkey
  rw [eq_of_key h.keys hg hf hkey]
  exact hs

variable {files : List FileRow}

theorem lookup_published (h : f ∈ files) :
    ((files.map fun g => (g.storageKey, size)) ++ store).lookup f.storageKey = some size := by
  induction files with
  | nil => cases h
  | cons g files ih =>
    rw [List.map_cons, List.cons_append, List.lookup_cons]
    by_cases hk : f.storageKey = g.storageKey
    · rw [hk, beq_self_eq_true]
    · have hf : f ∈ files := (List.mem_cons.mp h).resolve_left fun he => hk (by rw [he])
      rw [beq_false_of_ne hk, ih hf]

theorem lookup_unpublished (h : ∀ g ∈ files, g.storageKey ≠ key) :
    ((files.map fun g => (g.storageKey, size)) ++ store).lookup key = store.lookup key := by
  induction files with
  | nil => rfl
  | cons g files ih =>
    have hg : key ≠ g.storageKey := Ne.symm (h g List.mem_cons_self)
    rw [List.map_cons, List.cons_append, List.lookup_cons, beq_false_of_ne hg]
    exact ih fun f hf => h f (List.mem_cons_of_mem g hf)

def completed (i size : Nat) (f : FileRow) : FileRow :=
  if f.id = i ∧ decide (f.status = .uploading) = true then { f with
    status := .available
    sizeBytes := some size } else f

theorem completed_key (i size : Nat) (f : FileRow) : (completed i size f).storageKey = f.storageKey := by
  unfold completed
  split <;> rfl

theorem completed_other {i : Nat} (h : f.status ≠ .uploading) : completed i size f = f :=
  if_neg fun ⟨_, hs⟩ => h (of_decide_eq_true hs)

theorem Inv.completeUpload (h : Inv s) (i size : Nat) : Inv (step s (.completeUpload i size)) := by
  have hother : ∀ {k : String}, (∀ g ∈ s.rows, g.storageKey = k → g.status ≠ .uploading) →
      (step s (.completeUpload i size)).store.lookup k = s.store.lookup k := fun hk =>
    lookup_unpublished fun g hg he => by
      obtain ⟨hg, hup⟩ := List.mem_filter.mp hg
      exact hk g hg he (of_decide_eq_true hup).2
  have hstatus : ∀ {f : FileRow}, (completed i size f).status = .uploading → f.status = .uploading := fun {f} hs => by
    by_contra hne
    rw [completed_other hne] at hs
    exact hne hs
  have hdead : ∀ {k : String}, Dead s.rows k → Dead (s.rows.map (completed i size)) k := fun hd g hg hk => by
    obtain ⟨f, hf, rfl⟩ := List.mem_map.mp hg
    rw [completed_key] at hk
    rw [completed_other (hd f hf hk).1]
    exact hd f hf hk
  have hheld : ∀ {f : FileRow}, Held s.rows s.store s.gone f →
      Held (s.rows.map (completed i size)) (step s (.completeUpload i size)).store s.gone f := fun {f} hh =>
    { object := hh.object.imp (fun ⟨n, hn, hl⟩ => ⟨n, hn, (hother hh.written).trans hl⟩) id
      written := fun g hg hk hs => by
        obtain ⟨o, ho, rfl⟩ := List.mem_map.mp hg
        rw [completed_key] at hk
        exact hh.written o ho hk (hstatus hs) }
  exact
    { keys := by
        have hsame : (s.rows.map (completed i size)).map FileRow.storageKey = s.rows.map FileRow.storageKey := by
          rw [List.map_map]
          exact List.map_congr_left fun f _ => completed_key i size f
        show ((s.rows.map (completed i size)).map FileRow.storageKey).Nodup
        rw [hsame]
        exact h.keys
      available := fun g hg hs => by
        obtain ⟨f, hf, rfl⟩ := List.mem_map.mp hg
        by_cases hup : f.id = i ∧ decide (f.status = .uploading) = true
        · have hmem : f ∈ s.rows.filter fun f => f.id = i ∧ f.status = .uploading :=
            List.mem_filter.mpr ⟨hf, decide_eq_true ⟨hup.1, of_decide_eq_true hup.2⟩⟩
          have hl : (step s (.completeUpload i size)).store.lookup f.storageKey = some size := lookup_published hmem
          show Intact (step s (.completeUpload i size)).store (completed i size f)
          rw [completed, if_pos hup]
          exact ⟨size, rfl, hl⟩
        · change (completed i size f).status = .available at hs
          show Intact (step s (.completeUpload i size)).store (completed i size f)
          rw [completed, if_neg hup] at hs ⊢
          obtain ⟨n, hn, hl⟩ := h.available f hf hs
          exact ⟨n, hn, (hother (h.held hf hs).written).trans hl⟩
      live := fun g hg hs => by
        obtain ⟨f, hf, rfl⟩ := List.mem_map.mp hg
        change (completed i size f).status = .uploading ∨ (completed i size f).status = .available at hs
        show (completed i size f).storageKey ∉ s.gone
        rw [completed_key]
        by_cases hup : f.status = .uploading
        · exact h.live f hf (.inl hup)
        · rw [completed_other hup] at hs
          exact h.live f hf hs
      claims := fun c hc => hdead (h.claims c hc)
      downloads := fun f hf => hheld (h.downloads f hf)
      runs := fun r hr f hf => (h.runs r hr f hf).imp hheld hdead
      gone := fun k hk => (hother fun g hg he hs => h.live g hg (.inl hs) (he ▸ hk)).trans (h.gone k hk) }

theorem claim_row {now : Int} {limit lease : Nat} {c : DeletionClaim} (hc : c ∈ (claimDeletions now limit lease rows).2) :
    ∃ f ∈ rows, f.status = .deleting ∧ c.storageKey = f.storageKey := by
  obtain ⟨f, hf, rfl⟩ := List.mem_map.mp hc
  obtain ⟨hf, hdue⟩ := List.mem_filter.mp (mem_of_mem_page hf).1
  exact ⟨f, hf, (of_decide_eq_true hdue).1, rfl⟩

theorem fetch_rows {r' : ReconcileRun} (hr : r' ∈ r.fetch rows) (hf : f ∈ r'.rows) : f ∈ rows ∧ decided f.status = true := by
  unfold ReconcileRun.fetch at hr
  split at hr
  · dsimp only at hr
    split at hr
    · cases hr
    · cases hr
      exact List.mem_filter.mp (mem_of_mem_page hf).1
  · cases hr

theorem Inv.read (h : Inv s) (hf : f ∈ s.rows) (hd : decided f.status = true) : Read s.rows s.store s.gone f := by
  unfold Read
  split
  · rename_i hs
    exact h.held hf hs
  · rename_i hs
    refine h.dead hf ⟨fun hu => ?_, hs⟩
    rw [hu] at hd
    cases hd

theorem Inv.nextRow (h : Inv s) {run : Nat} (hr : s.runs[run]? = some r) (hrows : r.rows = f :: rows) :
    ∀ q ∈ s.runs.eraseIdx run ++ [r.next f rows], ∀ g ∈ q.rows, Read s.rows s.store s.gone g := by
  intro q hq g hg
  rcases mem_append_row hq with hq | rfl
  · exact h.runs q (List.eraseIdx_subset hq) g hg
  · refine h.runs r (List.mem_of_getElem? hr) g ?_
    rw [hrows]
    exact List.mem_cons_of_mem f hg

theorem Inv.visited (h : Inv s) (hf : Read s.rows s.store s.gone f) : Inv (s.visited r f) := by
  unfold State.visited
  by_cases hs : f.status = .available
  · rw [if_pos hs]
    exact h.readers h.claims h.downloads h.runs
  · rw [if_neg hs]
    split
    · rw [Read, if_neg hs] at hf
      exact h.deleteObject hf
    · exact h

theorem Inv.step (h : Inv s) (a : Action) : Inv (step s a) := by
  cases a with
  | tick d => exact ⟨h.keys, h.available, h.live, h.claims, h.downloads, h.runs, h.gone⟩
  | completeUpload i size => exact h.completeUpload i size
  | requestDeletion i => exact h.updateRow fun f _ => ⟨rfl, rfl, .inr ⟨by simp, by simp⟩⟩
  | expireUnattached limit =>
    refine h.map fun f _ => ?_
    split
    · exact ⟨rfl, rfl, .inr ⟨by simp, by simp⟩⟩
    · exact .refl f
  | claimDeletions limit leaseSeconds =>
    have hm : Inv { s with rows := (claimDeletions s.clock limit leaseSeconds s.rows).1 } := h.map fun f _ => by
      split
      · exact ⟨rfl, rfl, .inl rfl⟩
      · exact .refl f
    refine hm.readers (fun c hc => ?_) hm.downloads hm.runs
    rcases List.mem_append.mp hc with hc | hc
    · exact hm.claims c hc
    · obtain ⟨f, hf, hs, hkey⟩ := claim_row hc
      rw [hkey]
      refine Dead.map (fun f _ => ?_) (h.dead hf ⟨fun hu => ?_, fun ha => ?_⟩)
      · split
        · exact ⟨rfl, rfl, .inl rfl⟩
        · exact .refl f
      · rw [hs] at hu
        cases hu
      · rw [hs] at ha
        cases ha
  | deleteObject claim =>
    unfold FileIntegrity.step
    dsimp only
    cases hc : s.claims[claim]? with
    | none => exact h
    | some c =>
      have hd := h.deleteObject (h.claims c (List.mem_of_getElem? hc))
      exact hd.readers (fun c hc => h.claims c (List.eraseIdx_subset hc)) hd.downloads hd.runs
  | retryDeletion claim delaySeconds errorCode =>
    unfold FileIntegrity.step
    dsimp only
    cases hc : s.claims[claim]? with
    | none => exact h
    | some c =>
      have hm : Inv { s with rows := FileCleanup.retryDeletion s.clock c.id c.attempt delaySeconds errorCode s.rows } :=
        h.updateRow fun f _ => ⟨rfl, rfl, .inl rfl⟩
      exact hm.readers (fun c hc => hm.claims c (List.eraseIdx_subset hc)) hm.downloads hm.runs
  | completeDeletion claim =>
    unfold FileIntegrity.step
    dsimp only
    cases hc : s.removed[claim]? with
    | none => exact h
    | some c =>
      have hm : Inv { s with rows := FileCleanup.completeDeletion c.id s.rows } :=
        h.updateRow fun f _ => ⟨rfl, rfl, .inr ⟨by simp, by simp⟩⟩
      exact hm.readers hm.claims hm.downloads hm.runs
  | crash => exact h.readers nofun h.downloads h.runs
  | authorize i =>
    refine h.readers h.claims (fun f hf => ?_) h.runs
    rcases List.mem_append.mp hf with hf | hf
    · exact h.downloads f hf
    · obtain ⟨hf, hs⟩ := List.mem_filter.mp hf
      exact h.held hf (of_decide_eq_true hs).2
  | stream download =>
    unfold FileIntegrity.step
    dsimp only
    cases hd : s.downloads[download]? with
    | none => exact h
    | some f => exact h.readers h.claims (fun g hg => h.downloads g (List.eraseIdx_subset hg)) h.runs
  | leave download => exact h.readers h.claims (fun f hf => h.downloads f (List.eraseIdx_subset hf)) h.runs
  | reconcile repair limit after batchSize =>
    refine h.readers h.claims h.downloads fun r hr f hf => ?_
    rcases mem_append_row hr with hr | rfl
    · exact h.runs r hr f hf
    · cases hf
  | fetch run =>
    unfold FileIntegrity.step
    dsimp only
    cases hr : s.runs[run]? with
    | none => exact h
    | some r =>
      dsimp only
      split
      · refine h.readers h.claims h.downloads fun q hq f hf => ?_
        rcases List.mem_append.mp hq with hq | hq
        · exact h.runs q (List.eraseIdx_subset hq) f hf
        · obtain ⟨hf, hd⟩ := fetch_rows (Option.mem_toList.mp hq) hf
          exact h.read hf hd
      · exact h
  | visit run =>
    unfold FileIntegrity.step
    dsimp only
    cases hr : s.runs[run]? with
    | none => exact h
    | some r =>
      dsimp only
      cases hrows : r.rows with
      | nil => exact h
      | cons f rows =>
        have hf : f ∈ r.rows := by
          rw [hrows]
          exact List.mem_cons_self
        have hv := h.visited (r := r) (h.runs r (List.mem_of_getElem? hr) f hf)
        have hruns : (s.visited r f).runs = s.runs := by
          unfold State.visited
          repeat' split
          all_goals rfl
        rw [← hruns] at hr
        exact hv.readers hv.claims hv.downloads (hruns ▸ hv.nextRow hr hrows)
  | skip run =>
    unfold FileIntegrity.step
    dsimp only
    cases hr : s.runs[run]? with
    | none => exact h
    | some r =>
      dsimp only
      cases hrows : r.rows with
      | nil => exact h
      | cons f rows => exact h.readers h.claims h.downloads (h.nextRow hr hrows)

theorem Held.fault (h : Inv s) (hf : Held s.rows s.store s.gone f) : fault s.store f = none ↔ f.storageKey ∉ s.gone := by
  constructor
  · intro hnone hgone
    rw [fault_missing (h.gone _ hgone)] at hnone
    cases hnone
  · intro hgone
    exact fault_intact (hf.object.resolve_right hgone)

theorem detected_nil {reason : Option Reason} : (s.detected f reason).incidents = [] ↔ s.incidents = [] ∧ reason = none := by
  cases reason <;> simp [State.detected]

theorem Inv.incidents (h : Inv s) (a : Action) : (FileIntegrity.step s a).incidents = [] ↔ s.incidents = [] ∧ Timely s a := by
  cases a with
  | stream download =>
    unfold FileIntegrity.step Timely
    dsimp only
    cases hd : s.downloads[download]? with
    | none => simp
    | some f =>
      dsimp only
      rw [detected_nil, (h.downloads f (List.mem_of_getElem? hd)).fault h]
      simp
  | visit run =>
    unfold FileIntegrity.step Timely
    dsimp only
    cases hr : s.runs[run]? with
    | none => simp
    | some r =>
      dsimp only
      cases hrows : r.rows with
      | nil => simp [hrows]
      | cons f rows =>
        have hf : f ∈ r.rows := by
          rw [hrows]
          exact List.mem_cons_self
        have hread := h.runs r (List.mem_of_getElem? hr) f hf
        dsimp only
        unfold State.visited
        by_cases hs : f.status = .available
        · rw [Read, if_pos hs] at hread
          rw [if_pos hs, detected_nil, hread.fault h]
          simp [hrows, hs]
        · rw [if_neg hs]
          split <;> simp [hrows, hs, State.deleteObject]
  | deleteObject claim =>
    unfold FileIntegrity.step Timely
    dsimp only
    split <;> simp [State.deleteObject]
  | retryDeletion claim delaySeconds errorCode =>
    unfold FileIntegrity.step Timely
    dsimp only
    split <;> simp
  | completeDeletion claim =>
    unfold FileIntegrity.step Timely
    dsimp only
    split <;> simp
  | fetch run =>
    unfold FileIntegrity.step Timely
    dsimp only
    repeat' split
    all_goals simp
  | skip run =>
    unfold FileIntegrity.step Timely
    dsimp only
    repeat' split
    all_goals simp
  | _ => simp [FileIntegrity.step, Timely]

end

/-- **Integrity incidents.** From a consistent state a run records no incident exactly when every reader of an available row reads the
object before the service deletes it. -/
theorem integrity_law (s : State) (hs : Consistent s) (actions : List Action) :
    (actions.foldl step s).incidents = [] ↔ Along step Timely s actions := by
  have hrun : (actions.foldl step s).incidents = [] ↔ s.incidents = [] ∧ Along step Timely s actions :=
    @Along.detects _ _ step Timely Inv (fun t => t.incidents = []) (fun _ a h => h.step a) (fun _ a h => h.incidents a) actions s hs.inv
  exact ⟨fun h => (hrun.mp h).2, fun h => hrun.mpr ⟨hs.idle.2.2.2.2.1, h⟩⟩

/-- **Available files are stored.** In every run an available file has its whole object; no object is deleted that an uploading or
available file names, and none is claimed. -/
theorem available_stored (s : {s : State // Consistent s}) (actions : List Action) :
    (∀ f ∈ (actions.foldl step s.1).rows, f.status = .available → Intact (actions.foldl step s.1).store f) ∧
      (∀ f ∈ (actions.foldl step s.1).rows, f.status = .uploading ∨ f.status = .available → f.storageKey ∉ (actions.foldl step s.1).gone) ∧
        ∀ c ∈ (actions.foldl step s.1).claims, Dead (actions.foldl step s.1).rows c.storageKey := by
  have h : Inv (actions.foldl step s.1) := List.foldlRecOn actions step s.2.inv fun _ h a _ => h.step a
  exact ⟨h.available, h.live, h.claims⟩

def sampleFile : FileRow :=
  ⟨1, .available, "org/1", some 3, some "o", true, none, 0, none, none, 0, none, none, false⟩

def sampleState : State := ⟨[sampleFile], [("org/1", 3)], 0, [], [], [], [], [], []⟩

def lateDownload : List Action := [.authorize 1, .requestDeletion 1, .claimDeletions 10 60, .deleteObject 0, .completeDeletion 0, .stream 0]

theorem late_download_incident :
    Consistent sampleState ∧ (lateDownload.foldl step sampleState).incidents = [⟨1, some "o", .object_missing⟩] ∧
      (lateDownload.foldl step sampleState).rows.map FileRow.status = [.deleted] := by
  refine ⟨⟨by decide, fun f hf _ => ?_, by decide⟩, by decide +kernel, by decide +kernel⟩
  rw [List.mem_singleton.mp hf]
  exact ⟨3, rfl, rfl⟩

theorem integrity_law_sample :
    Consistent sampleState ∧ (([.authorize 1, .requestDeletion 1, .stream 0, .claimDeletions 10 60, .deleteObject 0].foldl step sampleState).incidents = [] ↔
      Along step Timely sampleState [.authorize 1, .requestDeletion 1, .stream 0, .claimDeletions 10 60, .deleteObject 0]) := by
  have hs : Consistent sampleState := by
    refine ⟨by decide, fun f hf _ => ?_, by decide⟩
    rw [List.mem_singleton.mp hf]
    exact ⟨3, rfl, rfl⟩
  exact ⟨hs, integrity_law sampleState hs _⟩

end NawaraCore.FileIntegrity
