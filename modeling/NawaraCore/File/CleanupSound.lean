import Mathlib.Data.List.Forall2
import Mathlib.Data.List.MinMax
import NawaraCore.File.Cleanup
import NawaraCore.Lib.BatchScan
import NawaraCore.Lib.Rows

/-!
# What a cleanup pass settles

A refused deletion is put behind all that is due, so it delays each other deletion once. A
refused sweep leaves its row where it is, so enough of them in front stop the sweep.
-/

namespace NawaraCore.FileCleanup

open FileAccess (FileStatus)

variable {batch : Int → List FileRow → List FileRow × Nat} {r : FileRow}
variable {t : PassTimes}

section
variable {config : CleanupConfig} {refuses : String → Option String} {now lo : Int} {rows rows' before : List FileRow} {f g : FileRow} {times : Nat → PassTimes}

/-! ## What a batch does to a row -/

def FileRow.retried (config : CleanupConfig) (now : Int) (errorCode : String) (f : FileRow) : FileRow :=
  { f with
    deleteAttempts := f.deleteAttempts + 1
    deleteNextAttemptAt := some (now + seconds (deleteRetryDelaySeconds (f.deleteAttempts + 1) config.deleteRetryBaseSeconds config.deleteRetryMaxSeconds))
    deleteLeaseUntil := none
    deleteLastError := some errorCode }

def FileRow.deleted (f : FileRow) : FileRow :=
  { f with
    status := .deleted
    deleteAttempts := f.deleteAttempts + 1
    deleteNextAttemptAt := none
    deleteLeaseUntil := none
    deleteLastError := none }

def FileRow.expired (now : Int) (f : FileRow) : FileRow :=
  { f with
    status := .deleting
    deleteNextAttemptAt := some now }

def FileRow.failedUpload (f : FileRow) : FileRow :=
  { f with
    status := .failed
    failureCode := some "upload_abandoned" }

inductive RowStep (config : CleanupConfig) (refuses : String → Option String) (now : Int) (f : FileRow) : FileRow → Prop
  | same : RowStep config refuses now f f
  | expired (h : orphaned now f = true) : RowStep config refuses now f (f.expired now)
  | retried (h : deletionDue now f = true) (errorCode : String) (hr : refuses f.storageKey = some errorCode) :
      RowStep config refuses now f (f.retried config now errorCode)
  | deleted (h : deletionDue now f = true) (hr : refuses f.storageKey = none) : RowStep config refuses now f f.deleted
  | failed (h : abandoned now f = true) (hr : refuses f.storageKey = none) : RowStep config refuses now f f.failedUpload

theorem RowStep.id (h : RowStep config refuses now f g) : g.id = f.id := by
  cases h <;> rfl

variable {time : FileRow → Option Int}

theorem mem_oldest {n : Nat} (hn : (rows.map FileRow.id).Nodup) :
    f ∈ oldest time n rows ↔ f ∈ rows ∧
      (rows.filter fun g => (toLex ((time g).getD 0, g.id) : Lex (Int × Nat)) < toLex ((time f).getD 0, f.id)).length < n := by
  have hkeys : (rows.map fun f => (toLex ((time f).getD 0, f.id) : Lex (Int × Nat))).Nodup := by
    refine List.Nodup.of_map (fun x : Lex (Int × Nat) => (ofLex x).2) ?_
    rw [List.map_map]
    exact hn
  exact mem_first_page hkeys

theorem oldest_sublist {n : Nat} (hn : (rows.map FileRow.id).Nodup) :
    ((oldest time n rows).map FileRow.id).Nodup := by
  have hperm := (List.perm_insertionSort (fun a b : FileRow => (toLex ((time a).getD 0, a.id) : Lex (Int × Nat)) ≤ toLex ((time b).getD 0, b.id))
    (rows.filter fun a => (none : Option (Lex (Int × Nat))).all (· < toLex ((time a).getD 0, a.id)))).map FileRow.id
  refine ((hperm.nodup_iff.mpr ?_).sublist ((List.take_sublist _ _).map _))
  exact hn.sublist (List.filter_sublist.map _)

def DeletionClaim.outcome (config : CleanupConfig) (refuses : String → Option String) (now : Int) (c : DeletionClaim) (f : FileRow) : FileRow :=
  match refuses c.storageKey with
  | some errorCode => if f.status = .deleting ∧ f.deleteAttempts = c.attempt then { f with
      deleteNextAttemptAt := some (now + seconds (deleteRetryDelaySeconds c.attempt config.deleteRetryBaseSeconds config.deleteRetryMaxSeconds))
      deleteLeaseUntil := none
      deleteLastError := some errorCode } else f
  | none => if f.status = .deleting then { f with
      status := .deleted
      deleteNextAttemptAt := none
      deleteLeaseUntil := none
      deleteLastError := none } else f

theorem DeletionClaim.outcome_id (c : DeletionClaim) (f : FileRow) : (c.outcome config refuses now f).id = f.id := by
  unfold DeletionClaim.outcome
  split <;> split <;> rfl

theorem updateRow_eq (id : Nat) (p : FileRow → Bool) (set : FileRow → FileRow) (rows : List FileRow) :
    updateRow id p set rows = rows.map fun f => if f.id = id then if p f then set f else f else f :=
  List.map_congr_left fun _ _ => ite_and ..

theorem deleteOne_eq (c : DeletionClaim) (rows : List FileRow) :
    deleteOne config refuses now c rows = rows.map fun f => if f.id = c.id then c.outcome config refuses now f else f := by
  unfold deleteOne DeletionClaim.outcome
  cases refuses c.storageKey with
  | none =>
    rw [completeDeletion, updateRow_eq]
    simp only [decide_eq_true_eq]
  | some e =>
    dsimp only
    rw [retryDeletion, updateRow_eq]
    simp only [decide_eq_true_eq]

theorem mem_of_id (hn : (rows.map FileRow.id).Nodup) (hsub : rows' ⊆ rows) (hf : f ∈ rows) : f.id ∈ rows'.map FileRow.id ↔ f ∈ rows' := by
  constructor
  · intro h
    obtain ⟨g, hg, hid⟩ := List.mem_map.mp h
    exact eq_of_key hn (hsub hg) hf hid ▸ hg
  · exact List.mem_map_of_mem

def dueBatch (config : CleanupConfig) (now : Int) (rows : List FileRow) : List FileRow :=
  oldest FileRow.deleteNextAttemptAt config.batchSize (rows.filter (deletionDue now))

section
variable (hn : (rows.map FileRow.id).Nodup)
include hn

theorem mem_dueBatch (h : f ∈ dueBatch config now rows) : f ∈ rows ∧ deletionDue now f = true := by
  have hn' : ((rows.filter (deletionDue now)).map FileRow.id).Nodup := hn.sublist (List.filter_sublist.map _)
  exact List.mem_filter.mp ((mem_oldest hn').mp h).1

theorem deleteDue_eq :
    (deleteDue config refuses now rows).1 = rows.map fun f =>
      if f ∈ dueBatch config now rows then (refuses f.storageKey).elim f.deleted fun e => f.retried config now e else f := by
  have hn' : ((rows.filter (deletionDue now)).map FileRow.id).Nodup := hn.sublist (List.filter_sublist.map _)
  have hids : ((dueBatch config now rows).map FileRow.id).Nodup := oldest_sublist hn'
  have hclaims : (((dueBatch config now rows).map fun f => (⟨f.id, f.storageKey, f.deleteAttempts + 1⟩ : DeletionClaim)).map DeletionClaim.id).Nodup := by
    rw [List.map_map]
    exact hids
  unfold deleteDue claimDeletions
  dsimp only
  rw [← dueBatch]
  simp only [deleteOne_eq]
  rw [foldl_map_key (k := FileRow.id) (j := DeletionClaim.id) DeletionClaim.outcome_id hclaims, List.map_map]
  refine List.map_congr_left fun f hf => ?_
  have hid : f.id ∈ (dueBatch config now rows).map FileRow.id ↔ f ∈ dueBatch config now rows := mem_of_id hn (fun _ h => (mem_dueBatch hn h).1) hf
  by_cases hdue : f ∈ dueBatch config now rows
  · have hclaim := find_key hclaims (List.mem_map_of_mem hdue)
    have hstatus : f.status = .deleting := (of_decide_eq_true (mem_dueBatch hn hdue).2).1
    rw [Function.comp_apply, if_pos (hid.mpr hdue), if_pos hdue]
    have hkey : (f.claimed now config.deleteLeaseSeconds).id = f.id := rfl
    rw [hkey, hclaim, Option.elim_some, DeletionClaim.outcome]
    cases refuses f.storageKey with
    | none => exact if_pos hstatus
    | some e => exact if_pos ⟨hstatus, rfl⟩
  · have hnone : f.id ∉ (dueBatch config now rows).map FileRow.id := fun h => hdue (hid.mp h)
    have hclaim : ((dueBatch config now rows).map fun f => (⟨f.id, f.storageKey, f.deleteAttempts + 1⟩ : DeletionClaim)).find? (fun b => b.id = f.id) = none := by
      refine List.find?_eq_none.mpr fun c hc heq => hnone ?_
      obtain ⟨g, hg, rfl⟩ := List.mem_map.mp hc
      exact List.mem_map.mpr ⟨g, hg, of_decide_eq_true heq⟩
    rw [Function.comp_apply, if_neg hnone, if_neg hdue, hclaim]
    rfl

theorem mem_found {limit : Nat} (h : f ∈ findAbandonedUploads now limit rows) : f ∈ rows ∧ abandoned now f = true := by
  have hn' : ((rows.filter (abandoned now)).map FileRow.id).Nodup := hn.sublist (List.filter_sublist.map _)
  exact List.mem_filter.mp ((mem_oldest hn').mp h).1

theorem sweep_eq :
    (sweepAbandonedUploads config refuses now rows).1 = rows.map fun f =>
      if f ∈ findAbandonedUploads now config.batchSize rows ∧ refuses f.storageKey = none then f.failedUpload else f := by
  have hn' : ((rows.filter (abandoned now)).map FileRow.id).Nodup := hn.sublist (List.filter_sublist.map _)
  have hids : ((findAbandonedUploads now config.batchSize rows).map FileRow.id).Nodup := oldest_sublist hn'
  have hvisit : ∀ (u : FileRow) (rows : List FileRow), (if (refuses u.storageKey).isSome then rows else failAbandonedUpload now u.id rows) =
      rows.map fun f => if f.id = u.id then if (refuses u.storageKey).isSome then f else if abandoned now f then f.failedUpload else f else f := by
    intro u rows
    by_cases hr : (refuses u.storageKey).isSome = true
    · simp only [hr, if_true, ite_self, List.map_id']
    · simp only [if_neg hr]
      rw [failAbandonedUpload, updateRow_eq]
      rfl
  have hkept : ∀ u f : FileRow, (if (refuses u.storageKey).isSome then f else if abandoned now f then f.failedUpload else f).id = f.id := by
    intro u f
    split
    · rfl
    · split <;> rfl
  unfold sweepAbandonedUploads
  dsimp only
  simp only [hvisit]
  rw [foldl_map_key (k := FileRow.id) (j := FileRow.id) hkept hids]
  refine List.map_congr_left fun f hf => ?_
  by_cases hfound : f ∈ findAbandonedUploads now config.batchSize rows
  · rw [find_key hids hfound, Option.elim_some]
    cases hr : refuses f.storageKey with
    | none => simp [hfound, (mem_found hn hfound).2]
    | some e => simp
  · have hnone : (findAbandonedUploads now config.batchSize rows).find? (fun b => b.id = f.id) = none := by
      refine List.find?_eq_none.mpr fun u hu heq => hfound ?_
      exact eq_of_key hn (mem_found hn hu).1 hf (of_decide_eq_true heq) ▸ hu
    have hkeep : ¬ (f ∈ findAbandonedUploads now config.batchSize rows ∧ refuses f.storageKey = none) := fun h => hfound h.1
    rw [hnone, if_neg hkeep]
    rfl

theorem deleteDue_rows : List.Forall₂ (RowStep config refuses now) rows (deleteDue config refuses now rows).1 := by
  rw [deleteDue_eq hn, List.forall₂_map_right_iff, List.forall₂_same]
  intro f hf
  by_cases hdue : f ∈ dueBatch config now rows
  · rw [if_pos hdue]
    have h := (mem_dueBatch hn hdue).2
    cases hr : refuses f.storageKey with
    | none => exact .deleted h hr
    | some e => exact .retried h e hr
  · rw [if_neg hdue]
    exact .same

theorem sweep_rows :
    List.Forall₂ (RowStep config refuses now) rows (sweepAbandonedUploads config refuses now rows).1 := by
  rw [sweep_eq hn, List.forall₂_map_right_iff, List.forall₂_same]
  intro f hf
  split
  · rename_i h
    exact .failed (mem_found hn h.1).2 h.2
  · exact .same

theorem expire_rows : List.Forall₂ (RowStep config refuses now) rows (expireOrphans config now rows).1 := by
  unfold expireOrphans expireUnattached
  rw [List.forall₂_map_right_iff, List.forall₂_same]
  intro f hf
  have hn' : ((rows.filter (orphaned now)).map FileRow.id).Nodup := hn.sublist (List.filter_sublist.map _)
  split
  · rename_i h
    obtain ⟨g, hg, hid⟩ := List.mem_map.mp h
    obtain ⟨hgrows, hgorphan⟩ := List.mem_filter.mp ((mem_oldest hn').mp hg).1
    exact .expired (eq_of_key hn hgrows hf hid ▸ hgorphan)
  · exact .same

end

/-! ## Runs of batches -/

def Batches (config : CleanupConfig) (refuses : String → Option String) (lo : Int) : List FileRow → List FileRow → Prop :=
  Relation.ReflTransGen fun rows rows' => ∃ now, lo ≤ now ∧ List.Forall₂ (RowStep config refuses now) rows rows'

theorem Batches.trans {rows'' : List FileRow} (h : Batches config refuses lo rows rows') (h' : Batches config refuses lo rows' rows'') :
    Batches config refuses lo rows rows'' := Relation.ReflTransGen.trans h h'

theorem forall₂_ids (h : List.Forall₂ (RowStep config refuses now) rows rows') : rows'.map FileRow.id = rows.map FileRow.id := by
  induction h with
  | nil => rfl
  | cons h _ ih => rw [List.map_cons, List.map_cons, h.id, ih]

theorem Batches.ids (h : Batches config refuses lo rows rows') : rows'.map FileRow.id = rows.map FileRow.id := by
  induction h with
  | refl => rfl
  | tail _ h ih =>
    obtain ⟨now, -, h⟩ := h
    rw [forall₂_ids h, ih]

variable {α : Type*}

theorem forall₂_trans {P Q R : α → α → Prop} (h : ∀ a b c, P a b → Q b c → R a c) :
    ∀ {l m n : List α}, List.Forall₂ P l m → List.Forall₂ Q m n → List.Forall₂ R l n
  | _, _, _, .nil, .nil => .nil
  | _, _, _, .cons hp hps, .cons hq hqs => .cons (h _ _ _ hp hq) (forall₂_trans h hps hqs)

theorem Batches.keeps {P : FileRow → FileRow → Prop} (hrefl : ∀ f, P f f) (hstep : ∀ f g h now, lo ≤ now → P f g → RowStep config refuses now g h → P f h)
    (h : Batches config refuses lo rows rows') : List.Forall₂ P rows rows' := by
  induction h with
  | refl => exact List.forall₂_same.mpr fun f _ => hrefl f
  | tail _ h ih =>
    obtain ⟨now, hlo, h⟩ := h
    exact forall₂_trans (fun f g h => hstep f g h now hlo) ih h

theorem drain_batches
    (hbatch : ∀ now rows, (rows.map FileRow.id).Nodup → List.Forall₂ (RowStep config refuses now) rows (batch now rows).1) (times : List Int)
    (hlo : ∀ t ∈ times, lo ≤ t) (hn : (rows.map FileRow.id).Nodup) : Batches config refuses lo rows (drain config batch times rows) := by
  induction times generalizing rows with
  | nil => exact .refl
  | cons now times ih =>
    obtain ⟨hnow, hlo⟩ := List.forall_mem_cons.mp hlo
    have h := hbatch now rows hn
    have hfirst : Batches config refuses lo rows (batch now rows).1 := .single ⟨now, hnow, h⟩
    unfold drain
    dsimp only
    split
    · exact hfirst
    · exact hfirst.trans (ih hlo (by rw [forall₂_ids h]; exact hn))

theorem drain_first
    (hbatch : ∀ now rows, (rows.map FileRow.id).Nodup → List.Forall₂ (RowStep config refuses now) rows (batch now rows).1) {times : List Int}
    (hlo : ∀ t ∈ now :: times, lo ≤ t) (hn : (rows.map FileRow.id).Nodup) :
    Batches config refuses lo (batch now rows).1 (drain config batch (now :: times) rows) := by
  unfold drain
  dsimp only
  split
  · exact .refl
  · refine drain_batches hbatch times (fun t ht => hlo t (List.mem_cons_of_mem now ht)) ?_
    rw [forall₂_ids (hbatch now rows hn)]
    exact hn

variable {P : α → α → Prop} {l m : List α}

theorem forall₂_left (h : List.Forall₂ P l m) {a : α} (ha : a ∈ l) : ∃ b ∈ m, P a b := by
  induction h with
  | nil => cases ha
  | cons hp _ ih =>
    rcases List.mem_cons.mp ha with rfl | ha
    · exact ⟨_, List.mem_cons_self, hp⟩
    · obtain ⟨b, hb, hab⟩ := ih ha
      exact ⟨b, List.mem_cons_of_mem _ hb, hab⟩

theorem forall₂_right (h : List.Forall₂ P l m) {b : α} (hb : b ∈ m) : ∃ a ∈ l, P a b :=
  forall₂_left h.flip hb

/-! ## Uploads -/

structure UploadKept (refuses : String → Option String) (f g : FileRow) : Prop where
  id : g.id = f.id
  uploading : f.status = .uploading → g = f ∨ g.status = .failed ∧ refuses f.storageKey = none
  old : g.status = .uploading → g = f
  failed : f.status = .failed → g.status = .failed

theorem UploadKept.refl (f : FileRow) : UploadKept refuses f f := ⟨rfl, fun _ => .inl rfl, fun _ => rfl, fun h => h⟩

theorem UploadKept.other (hk : UploadKept refuses f g) (hu : g.status ≠ .uploading) (hf : g.status ≠ .failed) : f.status ≠ .uploading ∧ f.status ≠ .failed := by
  refine ⟨fun h => ?_, fun h => hf (hk.failed h)⟩
  rcases hk.uploading h with rfl | ⟨hg, -⟩
  · exact hu h
  · exact hf hg

theorem UploadKept.of_other {h : FileRow} (hid : h.id = f.id) (hf : f.status ≠ .uploading ∧ f.status ≠ .failed) (hh : h.status ≠ .uploading) :
    UploadKept refuses f h := ⟨hid, fun h => absurd h hf.1, fun h => absurd h hh, fun h => absurd h hf.2⟩

theorem UploadKept.step {h : FileRow} (hk : UploadKept refuses f g) (hs : RowStep config refuses now g h) : UploadKept refuses f h := by
  cases hs with
  | same => exact hk
  | expired ho =>
    have hstatus : g.status = .available := (of_decide_eq_true ho).1
    exact .of_other hk.id (hk.other (by rw [hstatus]; decide) (by rw [hstatus]; decide)) nofun
  | retried hd e hr =>
    have hstatus : g.status = .deleting := (of_decide_eq_true hd).1
    refine .of_other hk.id (hk.other (by rw [hstatus]; decide) (by rw [hstatus]; decide)) fun h => ?_
    rw [FileRow.retried, hstatus] at h
    cases h
  | deleted hd hr =>
    have hstatus : g.status = .deleting := (of_decide_eq_true hd).1
    exact .of_other hk.id (hk.other (by rw [hstatus]; decide) (by rw [hstatus]; decide)) nofun
  | failed ha hr =>
    have hstatus : g.status = .uploading := (of_decide_eq_true ha).1
    refine ⟨hk.id, fun hf => .inr ⟨rfl, ?_⟩, nofun, fun _ => rfl⟩
    rw [← hk.old hstatus]
    exact hr

section
variable (h : Batches config refuses lo rows rows')
include h

theorem Batches.uploads : List.Forall₂ (UploadKept refuses) rows rows' :=
  h.keeps UploadKept.refl fun _ _ _ _ _ => UploadKept.step

theorem Batches.old_upload (hg : g ∈ rows') (hs : g.status = .uploading) : g ∈ rows := by
  obtain ⟨f, hf, hk⟩ := forall₂_right h.uploads hg
  exact hk.old hs ▸ hf

theorem Batches.upload (hf : f ∈ rows) (hs : f.status = .uploading) :
    f ∈ rows' ∨ refuses f.storageKey = none ∧ ∃ g ∈ rows', g.id = f.id ∧ g.status = .failed := by
  obtain ⟨g, hg, hk⟩ := forall₂_left h.uploads hf
  rcases hk.uploading hs with rfl | ⟨hfailed, hr⟩
  · exact .inl hg
  · exact .inr ⟨hr, g, hg, hk.id, hfailed⟩

theorem Batches.failed (hf : ∃ f ∈ rows, f.id = g.id ∧ f.status = .failed) :
    ∃ f ∈ rows', f.id = g.id ∧ f.status = .failed := by
  obtain ⟨f, hf, hid, hs⟩ := hf
  obtain ⟨f', hf', hk⟩ := forall₂_left h.uploads hf
  exact ⟨f', hf', hk.id.trans hid, hk.failed hs⟩

end

theorem mem_ahead {p : String → Bool} : g ∈ ahead rows p f ↔ g ∈ rows ∧ g.status = .uploading ∧ p g.storageKey = true ∧ uploadKey g < uploadKey f := by
  rw [ahead, List.mem_filter, decide_eq_true_eq]

theorem ahead_nodup (hn : (rows.map FileRow.id).Nodup) (p : String → Bool) (f : FileRow) : (ahead rows p f).Nodup := hn.of_map.filter _

theorem Batches.ahead (h : Batches config refuses lo rows rows') (hn : (rows.map FileRow.id).Nodup) (p : String → Bool) (f : FileRow) :
    (ahead rows' p f).length ≤ (ahead rows p f).length := by
  have hn' : (rows'.map FileRow.id).Nodup := h.ids ▸ hn
  refine ((ahead_nodup hn' p f).subperm fun g hg => ?_).length_le
  obtain ⟨hmem, hstatus, hp, hlt⟩ := mem_ahead.mp hg
  exact mem_ahead.mpr ⟨h.old_upload hmem hstatus, hstatus, hp, hlt⟩

theorem uploadKey_time (h : uploadKey g < uploadKey f) : g.uploadExpiresAt ≤ f.uploadExpiresAt := by
  rcases Prod.Lex.toLex_lt_toLex.mp h with h | ⟨h, -⟩
  · exact le_of_lt h
  · exact le_of_eq h

theorem mem_found_iff {limit : Nat} (hn : (rows.map FileRow.id).Nodup) :
    f ∈ findAbandonedUploads now limit rows ↔ (f ∈ rows ∧ abandoned now f = true) ∧
      ((rows.filter (abandoned now)).filter fun g => uploadKey g < uploadKey f).length < limit := by
  have hn' : ((rows.filter (abandoned now)).map FileRow.id).Nodup := hn.sublist (List.filter_sublist.map _)
  exact (mem_oldest hn').trans (and_congr_left fun _ => List.mem_filter)

theorem abandoned_ahead (hf : abandoned now f = true) (hg : g.status = .uploading) (hlt : uploadKey g < uploadKey f) : abandoned now g = true :=
  decide_eq_true ⟨hg, (uploadKey_time hlt).trans (of_decide_eq_true hf).2⟩

theorem not_mem_sweep (hn : (rows.map FileRow.id).Nodup) (hf : f ∈ findAbandonedUploads now config.batchSize rows) (hr : refuses f.storageKey = none) :
    f ∉ (sweepAbandonedUploads config refuses now rows).1 ∧
      ∃ g ∈ (sweepAbandonedUploads config refuses now rows).1, g.id = f.id ∧ g.status = .failed := by
  obtain ⟨hmem, habandoned⟩ := mem_found hn hf
  have hstatus : f.status = .uploading := (of_decide_eq_true habandoned).1
  have hfailed : f.failedUpload ∈ (sweepAbandonedUploads config refuses now rows).1 := by
    rw [sweep_eq hn]
    exact List.mem_map.mpr ⟨f, hmem, if_pos ⟨hf, hr⟩⟩
  refine ⟨fun h => ?_, f.failedUpload, hfailed, rfl, rfl⟩
  have hn' : ((sweepAbandonedUploads config refuses now rows).1.map FileRow.id).Nodup := by
    rw [forall₂_ids (sweep_rows hn)]
    exact hn
  have hsame : f = f.failedUpload := eq_of_key hn' h hfailed rfl
  rw [hsame] at hstatus
  cases hstatus

def accepted (refuses : String → Option String) (key : String) : Bool := (refuses key).isNone

def refused (refuses : String → Option String) (key : String) : Bool := (refuses key).isSome

theorem sweep_progress (hn : (rows.map FileRow.id).Nodup) (hf : f ∈ rows) (ha : abandoned now f = true) (hr : refuses f.storageKey = none)
    (hfree : (ahead rows (refused refuses) f).length < config.batchSize) :
    (∃ g ∈ (sweepAbandonedUploads config refuses now rows).1, g.id = f.id ∧ g.status = .failed) ∨
      (ahead (sweepAbandonedUploads config refuses now rows).1 (accepted refuses) f).length < (ahead rows (accepted refuses) f).length := by
  by_cases hfound : f ∈ findAbandonedUploads now config.batchSize rows
  · exact .inl (not_mem_sweep hn hfound hr).2
  right
  have hsplit : ∀ g ∈ (rows.filter (abandoned now)).filter fun g => uploadKey g < uploadKey f, g ∉ ahead rows (accepted refuses) f →
      g ∈ ahead rows (refused refuses) f := by
    intro g hg hnot
    obtain ⟨hg, hlt⟩ := List.mem_filter.mp hg
    obtain ⟨hgmem, hga⟩ := List.mem_filter.mp hg
    have hstatus : g.status = .uploading := (of_decide_eq_true hga).1
    refine mem_ahead.mpr ⟨hgmem, hstatus, ?_, of_decide_eq_true hlt⟩
    by_contra hc
    exact hnot (mem_ahead.mpr ⟨hgmem, hstatus, by simpa [accepted, refused] using hc, of_decide_eq_true hlt⟩)
  cases hmin : (ahead rows (accepted refuses) f).argmin uploadKey with
  | none =>
    -- only refused uploads are in front, fewer than a batch
    rw [List.argmin_eq_none] at hmin
    refine absurd ((mem_found_iff hn).mpr ⟨⟨hf, ha⟩, lt_of_le_of_lt ?_ hfree⟩) hfound
    refine (((hn.of_map.filter _).filter _).subperm fun g hg => hsplit g hg ?_).length_le
    rw [hmin]
    exact List.not_mem_nil
  | some y =>
    have hymem := List.argmin_mem hmin
    obtain ⟨hyrows, hystatus, hyaccepted, hylt⟩ := mem_ahead.mp hymem
    have hyfound : y ∈ findAbandonedUploads now config.batchSize rows := by
      refine (mem_found_iff hn).mpr ⟨⟨hyrows, abandoned_ahead ha hystatus hylt⟩, lt_of_le_of_lt ?_ hfree⟩
      refine (((hn.of_map.filter _).filter _).subperm fun g hg => ?_).length_le
      obtain ⟨hg, hlt⟩ := List.mem_filter.mp hg
      have hlt := of_decide_eq_true hlt
      refine hsplit g (List.mem_filter.mpr ⟨hg, decide_eq_true (hlt.trans hylt)⟩) fun hga => ?_
      exact absurd (List.le_of_mem_argmin hga hmin) (not_le_of_gt hlt)
    have hsweep : Batches config refuses now rows (sweepAbandonedUploads config refuses now rows).1 := .single ⟨now, le_rfl, sweep_rows hn⟩
    have hn' : ((sweepAbandonedUploads config refuses now rows).1.map FileRow.id).Nodup := hsweep.ids ▸ hn
    refine length_lt_of_missing (ahead_nodup hn' _ _) (fun g hg => ?_) hymem fun hy => ?_
    · obtain ⟨hmem, hstatus, hp, hlt⟩ := mem_ahead.mp hg
      exact mem_ahead.mpr ⟨hsweep.old_upload hmem hstatus, hstatus, hp, hlt⟩
    · exact (not_mem_sweep hn hyfound (Option.isNone_iff_eq_none.mp hyaccepted)).1 (mem_ahead.mp hy).1

/-! ## Passes -/

structure PassParts (config : CleanupConfig) (refuses : String → Option String) (lo : Int) (t : PassTimes) (rows expiredRows deletedRows : List FileRow) : Prop where
  expired : Batches config refuses lo rows expiredRows
  deleted : Batches config refuses lo expiredRows deletedRows
  deletion : deletedRows = drain config (deleteDue config refuses) t.deletion expiredRows
  uploads : runOnce config refuses t rows = drain config (sweepAbandonedUploads config refuses) t.uploads deletedRows

variable (config refuses) in
theorem runOnce_parts (hlo : ∀ i ∈ t.instants, lo ≤ i) (hn : (rows.map FileRow.id).Nodup) :
    ∃ expiredRows deletedRows, PassParts config refuses lo t rows expiredRows deletedRows := by
  have hexpiry : ∀ i ∈ t.expiry, lo ≤ i := fun i hi => hlo i (List.mem_append_left _ (List.mem_append_left _ hi))
  have hdeletion : ∀ i ∈ t.deletion, lo ≤ i := fun i hi => hlo i (List.mem_append_left _ (List.mem_append_right _ hi))
  have hexpired : Batches config refuses lo rows (drain config (expireOrphans config) t.expiry rows) :=
    drain_batches (fun _ _ => expire_rows) t.expiry hexpiry hn
  exact ⟨_, _, hexpired, drain_batches (fun _ _ => deleteDue_rows) t.deletion hdeletion (hexpired.ids ▸ hn), rfl, rfl⟩

theorem runOnce_batches (hlo : ∀ i ∈ t.instants, lo ≤ i) (hn : (rows.map FileRow.id).Nodup) :
    Batches config refuses lo rows (runOnce config refuses t rows) := by
  obtain ⟨expiredRows, deletedRows, h⟩ := runOnce_parts config refuses hlo hn
  have huploads : ∀ i ∈ t.uploads, lo ≤ i := fun i hi => hlo i (List.mem_append_right _ hi)
  refine (h.expired.trans h.deleted).trans ?_
  rw [h.uploads]
  exact drain_batches (fun _ _ => sweep_rows) t.uploads huploads ((h.expired.trans h.deleted).ids ▸ hn)

/-- An upload that waits: abandoned, accepted, with fewer than a batch of refused ones in front. -/
structure Waiting (config : CleanupConfig) (refuses : String → Option String) (now : Int) (f : FileRow) (rows : List FileRow) : Prop where
  unique : (rows.map FileRow.id).Nodup
  mem : f ∈ rows
  abandoned : abandoned now f = true
  accepted : refuses f.storageKey = none
  free : (ahead rows (refused refuses) f).length < config.batchSize

theorem Waiting.batches (hw : Waiting config refuses now f rows) (h : Batches config refuses lo rows rows') :
    Failed f rows' ∨ Waiting config refuses now f rows' := by
  have hstatus : f.status = .uploading := (of_decide_eq_true hw.abandoned).1
  rcases h.upload hw.mem hstatus with hmem | ⟨-, hfailed⟩
  · exact .inr ⟨h.ids ▸ hw.unique, hmem, hw.abandoned, hw.accepted, lt_of_le_of_lt (h.ahead hw.unique _ _) hw.free⟩
  · exact .inl hfailed

theorem abandoned_later {t : Int} (h : abandoned now f = true) (hle : now ≤ t) : abandoned t f = true :=
  decide_eq_true ⟨(of_decide_eq_true h).1, (of_decide_eq_true h).2.trans hle⟩

theorem runOnce_progress {first : Int} {uploads : List Int} (hw : Waiting config refuses now f rows)
    (hlo : ∀ i ∈ t.instants, lo ≤ i) (huploads : t.uploads = first :: uploads) (hfirst : now ≤ first) :
    Failed f (runOnce config refuses t rows) ∨ Waiting config refuses now f (runOnce config refuses t rows) ∧
      (ahead (runOnce config refuses t rows) (accepted refuses) f).length < (ahead rows (accepted refuses) f).length := by
  obtain ⟨expiredRows, deletedRows, h⟩ := runOnce_parts config refuses hlo hw.unique
  have hbefore := h.expired.trans h.deleted
  have hn : (deletedRows.map FileRow.id).Nodup := hbefore.ids ▸ hw.unique
  have hsweep : Batches config refuses first deletedRows (sweepAbandonedUploads config refuses first deletedRows).1 :=
    .single ⟨first, le_rfl, sweep_rows hn⟩
  have hlo' : ∀ i ∈ first :: uploads, lo ≤ i := fun i hi => hlo i (List.mem_append_right _ (huploads ▸ hi))
  have hafter : Batches config refuses lo (sweepAbandonedUploads config refuses first deletedRows).1 (runOnce config refuses t rows) := by
    rw [h.uploads, huploads]
    exact drain_first (fun _ _ => sweep_rows) hlo' hn
  rcases hw.batches hbefore with hfailed | hw₁
  · exact .inl (hafter.failed (hsweep.failed hfailed))
  rcases sweep_progress hn hw₁.mem (abandoned_later hw₁.abandoned hfirst) hw₁.accepted hw₁.free with hfailed | hlt
  · exact .inl (hafter.failed hfailed)
  rcases hw₁.batches hsweep with hfailed | hw₂
  · exact .inl (hafter.failed hfailed)
  rcases hw₂.batches hafter with hfailed | hw₃
  · exact .inl hfailed
  · exact .inr ⟨hw₃, (hafter.ahead hw₂.unique _ _).trans_lt (hlt.trans_le (hbefore.ahead hw.unique _ _))⟩

/-! ## Deletions -/

def deleteKey (f : FileRow) : Lex (Int × Nat) := toLex (f.deleteNextAttemptAt.getD 0, f.id)

def Blocks (r f : FileRow) : Bool := f.status = .available ∨ f.status = .deleting ∧ deleteKey f < deleteKey r

/-- What batches leave of a row, for a deletion `r` that was due when they began. -/
structure DeletionKept (r f g : FileRow) : Prop where
  id : g.id = f.id
  own : f = r → g = r ∨ g.status = .deleted
  deleted : f.status = .deleted → g.status = .deleted
  blocks : Blocks r g = true → Blocks r f = true

theorem DeletionKept.refl (r f : FileRow) : DeletionKept r f f := ⟨rfl, .inl, fun h => h, fun h => h⟩

variable (config) in
theorem delay_pos (attempt : Nat) : 0 < seconds (deleteRetryDelaySeconds attempt config.deleteRetryBaseSeconds config.deleteRetryMaxSeconds) := by
  have hbase := config.base_pos
  have hmax := config.base_le
  have hpow : 0 < 2 ^ min (attempt - 1) 30 := Nat.two_pow_pos _
  have hdelay : 0 < deleteRetryDelaySeconds attempt config.deleteRetryBaseSeconds config.deleteRetryMaxSeconds :=
    lt_min (hbase.trans_le hmax) (Nat.mul_pos hbase hpow)
  rw [seconds]
  omega

theorem due_time (h : deletionDue lo r = true) : r.deleteNextAttemptAt.getD 0 ≤ lo := by
  obtain ⟨-, hnext, -⟩ := of_decide_eq_true h
  obtain ⟨t, ht, hle⟩ := (Option.any_eq_true _ _).mp hnext
  rw [ht]
  exact of_decide_eq_true hle

theorem deletionDue_later (h : deletionDue lo r = true) (hle : lo ≤ now) : deletionDue now r = true := by
  obtain ⟨hstatus, hnext, hlease, hheld⟩ := of_decide_eq_true h
  refine decide_eq_true ⟨hstatus, ?_, ?_, hheld⟩
  · obtain ⟨t, ht, hlt⟩ := (Option.any_eq_true _ _).mp hnext
    exact (Option.any_eq_true _ _).mpr ⟨t, ht, decide_eq_true ((of_decide_eq_true hlt).trans hle)⟩
  · rw [Option.all_eq_true] at hlease ⊢
    exact fun t ht => decide_eq_true ((of_decide_eq_true (hlease t ht)).trans_le hle)

theorem not_blocks_retried {e : String} (hdue : deletionDue lo r = true) (hle : lo ≤ now) (hf : f.status = .deleting) :
    Blocks r (f.retried config now e) = false := by
  have htime := due_time hdue
  have hdelay := delay_pos config (f.deleteAttempts + 1)
  have hlt : r.deleteNextAttemptAt.getD 0 < (f.retried config now e).deleteNextAttemptAt.getD 0 := by
    show _ < now + seconds _
    omega
  have hkey : ¬ deleteKey (f.retried config now e) < deleteKey r := not_lt_of_gt (Prod.Lex.toLex_lt_toLex.mpr (.inl hlt))
  refine decide_eq_false fun h => ?_
  rcases h with h | ⟨-, h⟩
  · rw [FileRow.retried, hf] at h
    cases h
  · exact hkey h

theorem not_blocks_status (h : f.status ≠ .available ∧ f.status ≠ .deleting) : Blocks r f = false :=
  decide_eq_false fun hb => hb.elim h.1 fun hb => h.2 hb.1

theorem DeletionKept.step {r h : FileRow} (hdue : deletionDue lo r = true) (hr : refuses r.storageKey = none) (hle : lo ≤ now)
    (hk : DeletionKept r f g) (hs : RowStep config refuses now g h) : DeletionKept r f h := by
  have hstatus : r.status = .deleting := (of_decide_eq_true hdue).1
  cases hs with
  | same => exact hk
  | expired ho =>
    have hg : g.status = .available := (of_decide_eq_true ho).1
    refine ⟨hk.id, fun hf => ?_, fun hf => ?_, fun _ => hk.blocks (decide_eq_true (.inl hg))⟩
    · rcases hk.own hf with rfl | hd
      · rw [hg] at hstatus
        cases hstatus
      · rw [hg] at hd
        cases hd
    · rw [hk.deleted hf] at hg
      cases hg
  | retried hd e href =>
    have hg : g.status = .deleting := (of_decide_eq_true hd).1
    refine ⟨hk.id, fun hf => ?_, fun hf => ?_, fun hb => ?_⟩
    · rcases hk.own hf with rfl | hdeleted
      · rw [hr] at href
        cases href
      · rw [hg] at hdeleted
        cases hdeleted
    · rw [hk.deleted hf] at hg
      cases hg
    · rw [not_blocks_retried hdue hle hg] at hb
      cases hb
  | deleted hd href =>
    refine ⟨hk.id, fun _ => .inr rfl, fun _ => rfl, fun hb => ?_⟩
    rw [not_blocks_status ⟨(by decide : FileStatus.deleted ≠ .available), (by decide : FileStatus.deleted ≠ .deleting)⟩] at hb
    cases hb
  | failed ha href =>
    have hg : g.status = .uploading := (of_decide_eq_true ha).1
    refine ⟨hk.id, fun hf => ?_, fun hf => ?_, fun hb => ?_⟩
    · rcases hk.own hf with rfl | hdeleted
      · rw [hg] at hstatus
        cases hstatus
      · rw [hg] at hdeleted
        cases hdeleted
    · rw [hk.deleted hf] at hg
      cases hg
    · rw [not_blocks_status ⟨(by decide : FileStatus.failed ≠ .available), (by decide : FileStatus.failed ≠ .deleting)⟩] at hb
      cases hb

def blockers (r : FileRow) (rows : List FileRow) : List Nat := (rows.filter (Blocks r)).map FileRow.id

theorem blockers_nodup (hn : (rows.map FileRow.id).Nodup) (r : FileRow) : (blockers r rows).Nodup := hn.sublist (List.filter_sublist.map _)

theorem blockers_subset (h : List.Forall₂ (DeletionKept r) rows rows') : blockers r rows' ⊆ blockers r rows := by
  intro i hi
  obtain ⟨g, hg, rfl⟩ := List.mem_map.mp hi
  obtain ⟨hmem, hblocks⟩ := List.mem_filter.mp hg
  obtain ⟨f, hf, hk⟩ := forall₂_right h hmem
  exact List.mem_map.mpr ⟨f, List.mem_filter.mpr ⟨hf, hk.blocks hblocks⟩, hk.id.symm⟩

structure WaitingDeletion (refuses : String → Option String) (lo : Int) (r : FileRow) (rows : List FileRow) : Prop where
  unique : (rows.map FileRow.id).Nodup
  mem : r ∈ rows
  due : deletionDue lo r = true
  accepted : refuses r.storageKey = none

theorem Batches.deletions (h : Batches config refuses lo rows rows') (hdue : deletionDue lo r = true) (hr : refuses r.storageKey = none) :
    List.Forall₂ (DeletionKept r) rows rows' := h.keeps (DeletionKept.refl r) fun _ _ _ _ hle hk hs => hk.step hdue hr hle hs

theorem Batches.deleted (h : Batches config refuses lo rows rows') (hdue : deletionDue lo r = true) (hr : refuses r.storageKey = none)
    (hd : Deleted r rows) : Deleted r rows' := by
  obtain ⟨f, hf, hid, hs⟩ := hd
  obtain ⟨f', hf', hk⟩ := forall₂_left (h.deletions hdue hr) hf
  exact ⟨f', hf', hk.id.trans hid, hk.deleted hs⟩

theorem WaitingDeletion.batches (hw : WaitingDeletion refuses lo r rows) (h : Batches config refuses lo rows rows') :
    Deleted r rows' ∨ WaitingDeletion refuses lo r rows' := by
  obtain ⟨g, hg, hk⟩ := forall₂_left (h.deletions hw.due hw.accepted) hw.mem
  rcases hk.own rfl with rfl | hd
  · exact .inr ⟨h.ids ▸ hw.unique, hg, hw.due, hw.accepted⟩
  · exact .inl ⟨g, hg, hk.id, hd⟩

theorem mem_dueBatch_iff (hn : (rows.map FileRow.id).Nodup) :
    f ∈ dueBatch config now rows ↔ (f ∈ rows ∧ deletionDue now f = true) ∧
      ((rows.filter (deletionDue now)).filter fun g => deleteKey g < deleteKey f).length < config.batchSize := by
  have hn' : ((rows.filter (deletionDue now)).map FileRow.id).Nodup := hn.sublist (List.filter_sublist.map _)
  exact (mem_oldest hn').trans (and_congr_left fun _ => List.mem_filter)

theorem deleteDue_progress (hw : WaitingDeletion refuses lo r rows) (hle : lo ≤ now) :
    Deleted r (deleteDue config refuses now rows).1 ∨
      (blockers r (deleteDue config refuses now rows).1).length < (blockers r rows).length := by
  have hn := hw.unique
  have hdue := deletionDue_later hw.due hle
  have hrow : ∀ f ∈ dueBatch config now rows, ((refuses f.storageKey).elim f.deleted fun e => f.retried config now e) ∈ (deleteDue config refuses now rows).1 := by
    intro f hf
    rw [deleteDue_eq hn]
    exact List.mem_map.mpr ⟨f, (mem_dueBatch hn hf).1, if_pos hf⟩
  by_cases hclaimed : r ∈ dueBatch config now rows
  · left
    have h := hrow r hclaimed
    rw [hw.accepted] at h
    exact ⟨_, h, rfl, rfl⟩
  right
  cases hmin : ((rows.filter (deletionDue now)).filter fun g => deleteKey g < deleteKey r).argmin deleteKey with
  | none =>
    rw [List.argmin_eq_none] at hmin
    refine absurd ((mem_dueBatch_iff hn).mpr ⟨⟨hw.mem, hdue⟩, ?_⟩) hclaimed
    rw [hmin]
    exact config.batch_pos
  | some y =>
    have hymem := List.argmin_mem hmin
    obtain ⟨hydue, hylt⟩ := List.mem_filter.mp hymem
    obtain ⟨hyrows, hydue⟩ := List.mem_filter.mp hydue
    have hystatus : y.status = .deleting := (of_decide_eq_true hydue).1
    have hyclaimed : y ∈ dueBatch config now rows := by
      refine (mem_dueBatch_iff hn).mpr ⟨⟨hyrows, hydue⟩, ?_⟩
      have hnone : ((rows.filter (deletionDue now)).filter fun g => deleteKey g < deleteKey y) = [] := by
        refine List.filter_eq_nil_iff.mpr fun g hg hlt => ?_
        have hlt := of_decide_eq_true hlt
        have hgr : g ∈ (rows.filter (deletionDue now)).filter fun g => deleteKey g < deleteKey r :=
          List.mem_filter.mpr ⟨hg, decide_eq_true (hlt.trans (of_decide_eq_true hylt))⟩
        exact absurd (List.le_of_mem_argmin hgr hmin) (not_le_of_gt hlt)
      rw [hnone]
      exact config.batch_pos
    have hbatches : Batches config refuses lo rows (deleteDue config refuses now rows).1 := .single ⟨now, hle, deleteDue_rows hn⟩
    have hn' : ((deleteDue config refuses now rows).1.map FileRow.id).Nodup := hbatches.ids ▸ hn
    refine length_lt_of_missing (blockers_nodup hn' r) (blockers_subset (hbatches.deletions hw.due hw.accepted)) (a := y.id) ?_ fun hy => ?_
    · exact List.mem_map_of_mem (List.mem_filter.mpr ⟨hyrows, decide_eq_true (.inr ⟨hystatus, of_decide_eq_true hylt⟩)⟩)
    · -- the claimed row is deleted or behind
      obtain ⟨z, hz, hid⟩ := List.mem_map.mp hy
      obtain ⟨hzmem, hzblocks⟩ := List.mem_filter.mp hz
      have hz : z = (refuses y.storageKey).elim y.deleted fun e => y.retried config now e := by
        refine eq_of_key hn' hzmem (hrow y hyclaimed) (hid.trans ?_)
        cases refuses y.storageKey <;> rfl
      rw [hz] at hzblocks
      cases href : refuses y.storageKey with
      | none =>
        rw [href] at hzblocks
        cases hzblocks
      | some e =>
        rw [href, Option.elim_some, not_blocks_retried hw.due hle hystatus] at hzblocks
        cases hzblocks

theorem runOnce_deletes {first : Int} {deletion : List Int} (hw : WaitingDeletion refuses lo r rows)
    (hlo : ∀ i ∈ t.instants, lo ≤ i) (hdeletion : t.deletion = first :: deletion) :
    Deleted r (runOnce config refuses t rows) ∨ WaitingDeletion refuses lo r (runOnce config refuses t rows) ∧
      (blockers r (runOnce config refuses t rows)).length < (blockers r rows).length := by
  obtain ⟨expiredRows, deletedRows, h⟩ := runOnce_parts config refuses hlo hw.unique
  have hn : (expiredRows.map FileRow.id).Nodup := h.expired.ids ▸ hw.unique
  have hfirst : lo ≤ first := hlo first (List.mem_append_left _ (List.mem_append_right _ (hdeletion ▸ List.mem_cons_self)))
  have hbatch : Batches config refuses lo expiredRows (deleteDue config refuses first expiredRows).1 := .single ⟨first, hfirst, deleteDue_rows hn⟩
  have hlo' : ∀ i ∈ first :: deletion, lo ≤ i := fun i hi => hlo i (List.mem_append_left _ (List.mem_append_right _ (hdeletion ▸ hi)))
  have hdrain : Batches config refuses lo (deleteDue config refuses first expiredRows).1 deletedRows := by
    rw [h.deletion, hdeletion]
    exact drain_first (fun _ _ => deleteDue_rows) hlo' hn
  have hn' : (deletedRows.map FileRow.id).Nodup := (h.expired.trans h.deleted).ids ▸ hw.unique
  have huploads : Batches config refuses lo deletedRows (runOnce config refuses t rows) := by
    rw [h.uploads]
    exact drain_batches (fun _ _ => sweep_rows) t.uploads (fun i hi => hlo i (List.mem_append_right _ hi)) hn'
  have hafter := hdrain.trans huploads
  rcases hw.batches h.expired with hd | hw₁
  · exact .inl (hafter.deleted hw.due hw.accepted (hbatch.deleted hw.due hw.accepted hd))
  rcases deleteDue_progress hw₁ hfirst with hd | hlt
  · exact .inl (hafter.deleted hw.due hw.accepted hd)
  rcases hw₁.batches hbatch with hd | hw₂
  · exact .inl (hafter.deleted hw.due hw.accepted hd)
  rcases hw₂.batches hafter with hd | hw₃
  · exact .inl hd
  · refine .inr ⟨hw₃, ?_⟩
    have hle := ((blockers_nodup hw₃.unique r).subperm (blockers_subset (hafter.deletions hw.due hw.accepted))).length_le
    have hle' := ((blockers_nodup hw₁.unique r).subperm (blockers_subset (h.expired.deletions hw.due hw.accepted))).length_le
    exact hle.trans_lt (hlt.trans_le hle')

/-! ## The law -/

theorem Timed.le (ht : Timed config times) {k j : Nat} (hkj : k ≤ j) : ∀ i ∈ (times j).instants, (times k).begins ≤ i := by
  have hbegins : ∀ k, ∀ i ∈ (times k).instants, (times k).begins ≤ i := by
    intro k i hi
    have hordered := ht.ordered k
    unfold PassTimes.begins
    revert hi hordered
    cases (times k).instants with
    | nil => exact nofun
    | cons a l =>
      intro hi hordered
      rcases List.mem_cons.mp hi with rfl | hi
      · exact le_rfl
      · exact (List.pairwise_cons.mp hordered).1 i hi
  have hmem : ∀ k, (times k).begins ∈ (times k).instants := by
    intro k
    have hlength : 0 < (times k).expiry.length := ht.expiry k ▸ config.batches_pos
    unfold PassTimes.begins PassTimes.instants
    revert hlength
    cases (times k).expiry with
    | nil => exact fun h => absurd h (Nat.lt_irrefl 0)
    | cons a l => exact fun _ => List.mem_cons_self
  have hstep : ∀ n, (times k).begins ≤ (times (k + n)).begins := by
    intro n
    induction n with
    | zero => exact le_rfl
    | succ n ih => exact ih.trans (ht.later (k + n) _ (hmem (k + n)))
  obtain ⟨n, rfl⟩ := Nat.exists_eq_add_of_le hkj
  exact fun i hi => (hstep n).trans (hbegins (k + n) i hi)

theorem Timed.uploads_cons (ht : Timed config times) (k : Nat) : ∃ first l, (times k).uploads = first :: l :=
  List.exists_cons_of_length_pos (ht.uploads k ▸ config.batches_pos)

theorem Timed.deletion_cons (ht : Timed config times) (k : Nat) : ∃ first l, (times k).deletion = first :: l :=
  List.exists_cons_of_length_pos (ht.deletion k ▸ config.batches_pos)

variable (refuses) in
theorem after_batches (ht : Timed config times) (hn : (rows.map FileRow.id).Nodup) (k : Nat) :
    Batches config refuses (times 0).begins rows (after config refuses times rows k) := by
  induction k with
  | zero => exact .refl
  | succ k ih => exact ih.trans (runOnce_batches (ht.le (Nat.zero_le k)) (ih.ids ▸ hn))

theorem Progress.of_unblocked (ht : Timed config times) (hn : (rows.map FileRow.id).Nodup) (hfree : Unblocked config refuses times rows) :
    Progress config refuses times rows where
  uploads k f hf hr ha := by
    have hstatus : f.status = .uploading := (of_decide_eq_true ha).1
    have hk := after_batches refuses ht hn k
    have hnk : ((after config refuses times rows k).map FileRow.id).Nodup := hk.ids ▸ hn
    have hold := hk.old_upload hf hstatus
    have hahead := hfree f hold hstatus hr ⟨k, (of_decide_eq_true ha).2⟩
    have hw : Waiting config refuses (times k).begins f (after config refuses times rows k) :=
      ⟨hnk, hf, ha, hr, (hk.ahead hn _ _).trans_lt hahead⟩
    refine done_within (Waiting config refuses (times k).begins f) (fun rows => (ahead rows (accepted refuses) f).length) (fun i hi hwi => ?_)
      (fun i hi hd => ?_) hw ?_
    · obtain ⟨first, l, hl⟩ := ht.uploads_cons i
      exact runOnce_progress hwi (ht.le hi) hl (ht.le hi first (List.mem_append_right _ (hl ▸ List.mem_cons_self)))
    · exact (runOnce_batches (ht.le (Nat.zero_le i)) ((after_batches refuses ht hn i).ids ▸ hn)).failed hd
    · refine (hk.ahead hn _ _).trans_lt (length_lt_of_missing (ahead_nodup hn _ _) List.filter_sublist.subset hold fun h => ?_)
      exact lt_irrefl _ (mem_ahead.mp h).2.2.2
  deletions k f hf hr hd := by
    have hk := after_batches refuses ht hn k
    have hstatus : f.status = .deleting := (of_decide_eq_true hd).1
    have hw : WaitingDeletion refuses (times k).begins f (after config refuses times rows k) := ⟨hk.ids ▸ hn, hf, hd, hr⟩
    refine done_within (WaitingDeletion refuses (times k).begins f) (fun rows => (blockers f rows).length) (fun i hi hwi => ?_)
      (fun i hi hdone => ?_) hw ?_
    · obtain ⟨first, l, hl⟩ := ht.deletion_cons i
      exact runOnce_deletes hwi (ht.le hi) hl
    · exact (runOnce_batches (ht.le hi) ((after_batches refuses ht hn i).ids ▸ hn)).deleted hd hr hdone
    · have hsub : blockers f (after config refuses times rows k) ⊆ rows.map FileRow.id := by
        rw [← hk.ids]
        exact (List.filter_sublist.map _).subset
      have hmem : f.id ∈ rows.map FileRow.id := hk.ids ▸ List.mem_map_of_mem hf
      have hlt := length_lt_of_missing (blockers_nodup hw.unique f) hsub hmem fun h => ?_
      · rwa [List.length_map] at hlt
      obtain ⟨g, hg, hid⟩ := List.mem_map.mp h
      obtain ⟨hgmem, hblocks⟩ := List.mem_filter.mp hg
      rw [eq_of_key hw.unique hgmem hf hid] at hblocks
      rcases of_decide_eq_true hblocks with h | ⟨-, h⟩
      · rw [hstatus] at h
        cases h
      · exact lt_irrefl _ h

/-! ### Blocked uploads -/

structure Stuck (config : CleanupConfig) (refuses : String → Option String) (f : FileRow) (before rows : List FileRow) : Prop where
  unique : (rows.map FileRow.id).Nodup
  mem : f ∈ rows
  uploading : f.status = .uploading
  front : ∀ g ∈ before, g ∈ rows ∧ g.status = .uploading ∧ (refuses g.storageKey).isSome = true ∧ uploadKey g < uploadKey f
  nodup : before.Nodup
  full : config.batchSize ≤ before.length

theorem Stuck.of_kept (h : Stuck config refuses f before rows) (hs : List.Forall₂ (RowStep config refuses now) rows rows') (hf : f ∈ rows')
    (hfront : ∀ g ∈ before, g ∈ rows') : Stuck config refuses f before rows' where
  unique := by
    rw [forall₂_ids hs]
    exact h.unique
  mem := hf
  uploading := h.uploading
  front g hg := ⟨hfront g hg, (h.front g hg).2⟩
  nodup := h.nodup
  full := h.full

theorem deleteDue_keeps_upload (hn : (rows.map FileRow.id).Nodup) (hf : f ∈ rows) (hs : f.status = .uploading) :
    f ∈ (deleteDue config refuses now rows).1 := by
  rw [deleteDue_eq hn]
  refine List.mem_map.mpr ⟨f, hf, if_neg fun h => ?_⟩
  have hstatus := (of_decide_eq_true (mem_dueBatch hn h).2).1
  rw [hs] at hstatus
  cases hstatus

theorem expire_keeps_upload (hn : (rows.map FileRow.id).Nodup) (hf : f ∈ rows) (hs : f.status = .uploading) : f ∈ (expireOrphans config now rows).1 := by
  have hn' : ((rows.filter (orphaned now)).map FileRow.id).Nodup := hn.sublist (List.filter_sublist.map _)
  refine List.mem_map.mpr ⟨f, hf, if_neg fun h => ?_⟩
  obtain ⟨g, hg, hid⟩ := List.mem_map.mp h
  obtain ⟨hgrows, horphan⟩ := List.mem_filter.mp ((mem_oldest hn').mp hg).1
  have hstatus := (of_decide_eq_true horphan).1
  rw [eq_of_key hn hgrows hf hid, hs] at hstatus
  cases hstatus

theorem Stuck.sweep (h : Stuck config refuses f before rows) : Stuck config refuses f before (sweepAbandonedUploads config refuses now rows).1 := by
  have hkept : ∀ g ∈ rows, ¬ (g ∈ findAbandonedUploads now config.batchSize rows ∧ refuses g.storageKey = none) →
      g ∈ (sweepAbandonedUploads config refuses now rows).1 := by
    intro g hg hnot
    rw [sweep_eq h.unique]
    exact List.mem_map.mpr ⟨g, hg, if_neg hnot⟩
  refine h.of_kept (sweep_rows h.unique) (hkept f h.mem fun hfound => ?_) fun g hg => ?_
  · obtain ⟨⟨-, ha⟩, hlt⟩ := (mem_found_iff h.unique).mp hfound.1
    have hsub : before ⊆ (rows.filter (abandoned now)).filter fun g => uploadKey g < uploadKey f := by
      intro g hg
      obtain ⟨hmem, hstatus, -, hlt⟩ := h.front g hg
      exact List.mem_filter.mpr ⟨List.mem_filter.mpr ⟨hmem, abandoned_ahead ha hstatus hlt⟩, decide_eq_true hlt⟩
    exact absurd (h.full.trans (h.nodup.subperm hsub).length_le) (Nat.not_le.mpr hlt)
  · obtain ⟨hmem, -, hrefused, -⟩ := h.front g hg
    refine hkept g hmem fun hfound => ?_
    rw [hfound.2] at hrefused
    cases hrefused

theorem drain_keeps {I : List FileRow → Prop} (hbatch : ∀ now rows, I rows → I (batch now rows).1)
    (times : List Int) (h : I rows) : I (drain config batch times rows) := by
  induction times generalizing rows with
  | nil => exact h
  | cons now times ih =>
    unfold drain
    dsimp only
    split
    · exact hbatch now rows h
    · exact ih (hbatch now rows h)

variable (times) in
theorem Stuck.after (h : Stuck config refuses f before rows) (k : Nat) : Stuck config refuses f before (after config refuses times rows k) := by
  have hexpire : ∀ now rows, Stuck config refuses f before rows → Stuck config refuses f before (expireOrphans config now rows).1 := fun now rows h =>
    h.of_kept (expire_rows h.unique) (expire_keeps_upload h.unique h.mem h.uploading) fun g hg =>
      expire_keeps_upload h.unique (h.front g hg).1 (h.front g hg).2.1
  have hdelete : ∀ now rows, Stuck config refuses f before rows → Stuck config refuses f before (deleteDue config refuses now rows).1 := fun now rows h =>
    h.of_kept (deleteDue_rows h.unique) (deleteDue_keeps_upload h.unique h.mem h.uploading) fun g hg =>
      deleteDue_keeps_upload h.unique (h.front g hg).1 (h.front g hg).2.1
  induction k with
  | zero => exact h
  | succ k ih => exact drain_keeps (fun _ _ => Stuck.sweep) _ (drain_keeps hdelete _ (drain_keeps hexpire _ ih))

/-- Every other abandoned upload and due deletion is settled exactly when no batch of refused uploads is in front of an upload. -/
theorem cleanup_law (config : CleanupConfig) (refuses : String → Option String) (times : Nat → PassTimes) (rows : List FileRow)
    (ht : Timed config times) (hn : (rows.map FileRow.id).Nodup) : Progress config refuses times rows ↔ Unblocked config refuses times rows := by
  refine ⟨fun hp f hf hs hr habandoned => ?_, Progress.of_unblocked ht hn⟩
  obtain ⟨k, hk⟩ := habandoned
  by_contra hfull
  have hstuck : Stuck config refuses f (ahead rows (fun key => (refuses key).isSome) f) rows :=
    ⟨hn, hf, hs, fun g hg => mem_ahead.mp hg, ahead_nodup hn _ f, Nat.not_lt.mp hfull⟩
  obtain ⟨g, hg, hid, hfailed⟩ := hp.uploads k f (hstuck.after times k).mem hr (decide_eq_true ⟨hs, hk⟩)
  have hstays := hstuck.after times (k + rows.length)
  rw [eq_of_key hstays.unique hg hstays.mem hid, hs] at hfailed
  cases hfailed

end

def batchesOf (n : Nat) (h : 0 < n) : CleanupConfig := ⟨n, 1, 300, 30, 3600, h, Nat.one_pos, by decide, by decide⟩

def upload (id : Nat) (key : String) : FileRow :=
  ⟨id, .uploading, key, none, none, true, none, id, none, none, 0, none, none, false⟩

def uploads : List FileRow := [upload 1 "locked", upload 2 "free"]

def locked (key : String) : Option String := if key = "locked" then some "storage_forbidden" else none

def everyHour (k : Nat) : PassTimes := ⟨[seconds (3600 * (k + 1))], [seconds (3600 * (k + 1))], [seconds (3600 * (k + 1))]⟩

theorem everyHour_timed (n : Nat) (h : 0 < n) : Timed (batchesOf n h) everyHour where
  expiry _ := rfl
  deletion _ := rfl
  uploads _ := rfl
  ordered k := by simp [PassTimes.instants, everyHour]
  later k i hi := by
    have heq : i = seconds (3600 * (k + 1)) := by simpa [PassTimes.instants, everyHour] using hi
    show i ≤ seconds (3600 * (k + 1 + 1))
    rw [heq, seconds, seconds]
    omega

theorem cleanup_law_sample : Progress (batchesOf 2 (by decide)) locked everyHour uploads := by
  have hall : ∀ f ∈ uploads, (ahead uploads (fun key => (locked key).isSome) f).length < 2 := by decide
  exact (cleanup_law (batchesOf 2 (by decide)) locked everyHour uploads (everyHour_timed 2 _) (by decide)).mpr fun f hf _ _ _ => hall f hf

theorem upload_starves : abandoned (everyHour 0).begins (upload 2 "free") = true ∧ locked "free" = none ∧
    ∀ k, ¬ Failed (upload 2 "free") (after (batchesOf 1 (by decide)) locked everyHour uploads k) := by
  have hstuck : Stuck (batchesOf 1 (by decide)) locked (upload 2 "free") [upload 1 "locked"] uploads := by
    refine ⟨by decide, by decide, rfl, fun g hg => ?_, by decide, by decide⟩
    rw [List.mem_singleton.mp hg]
    decide
  refine ⟨by decide, by decide, fun k h => ?_⟩
  obtain ⟨g, hg, hid, hfailed⟩ := h
  have hstays := hstuck.after everyHour k
  rw [eq_of_key hstays.unique hg hstays.mem hid] at hfailed
  cases hfailed

end NawaraCore.FileCleanup
