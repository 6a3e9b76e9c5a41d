import NawaraCore.File.Cleanup

/-!
# Integrity incidents

Downloads and reconciliation runs read a row first and its object later, beside deletion
requests, orphan expiry and the delete worker. The store keeps every object that the service
does not delete.
-/

namespace NawaraCore.FileIntegrity

open FileAccess (FileStatus)
open FileCleanup

inductive Reason
  | object_missing | size_mismatch
  deriving DecidableEq, Repr

structure Incident where
  file : Nat
  organizationId : Option String
  reason : Reason
  deriving DecidableEq, Repr

/-- The sizes of the objects, by key. -/
abbrev Store := List (String × Nat)

def Store.remove (store : Store) (key : String) : Store := store.filter fun o => o.1 ≠ key

def fault (store : Store) (file : FileRow) : Option Reason :=
  match store.lookup file.storageKey with
  | none => some .object_missing
  | some size => if size ≠ file.sizeBytes.getD 0 then some .size_mismatch else none

/-- A run of the reconciliation tool; `rows` are those read and not visited yet. -/
structure ReconcileRun where
  repair : Bool
  limit : Nat
  batch : Nat
  after : Option Nat
  scanned : Nat
  rows : List FileRow

def reconcile (repair : Bool) (limit : Nat) (after : Option Nat) (batchSize : Option Nat) : ReconcileRun :=
  ⟨repair, limit, min (batchSize.getD 200) limit, after, 0, []⟩

def decided (status : FileStatus) : Bool := status = .available ∨ status = .failed ∨ status = .rejected ∨ status = .deleted

def ReconcileRun.fetch (run : ReconcileRun) (rows : List FileRow) : Option ReconcileRun :=
  if run.scanned < run.limit then
    let batch := page FileRow.id (min run.batch (run.limit - run.scanned)) run.after (rows.filter fun f => decided f.status)
    if batch = [] then none else some { run with rows := batch }
  else none

def ReconcileRun.next (run : ReconcileRun) (file : FileRow) (rows : List FileRow) : ReconcileRun :=
  { run with
    after := some file.id
    scanned := run.scanned + 1
    rows }

structure State where
  rows : List FileRow
  store : Store
  clock : Int
  claims : List DeletionClaim
  /-- Claims whose object is deleted, and the row not completed. -/
  removed : List DeletionClaim
  /-- Downloads that are authorized on a row and have not opened its object. -/
  downloads : List FileRow
  runs : List ReconcileRun
  incidents : List Incident
  gone : List String

def State.deleteObject (s : State) (key : String) : State :=
  { s with
    store := s.store.remove key
    gone := key :: s.gone }

def State.detected (s : State) (file : FileRow) (reason : Option Reason) : State :=
  { s with incidents := s.incidents ++ (reason.map fun r => ⟨file.id, file.organizationId, r⟩).toList }

inductive Action
  | tick (d : Nat)
  | completeUpload (id size : Nat)
  | requestDeletion (id : Nat)
  | expireUnattached (limit : Nat)
  | claimDeletions (limit leaseSeconds : Nat)
  | deleteObject (claim : Nat)
  | retryDeletion (claim delaySeconds : Nat) (errorCode : String)
  | completeDeletion (claim : Nat)
  | crash
  | authorize (id : Nat)
  | stream (download : Nat)
  | leave (download : Nat)
  | reconcile (repair : Bool) (limit : Nat) (after : Option Nat) (batchSize : Option Nat)
  | fetch (run : Nat)
  | visit (run : Nat)
  | skip (run : Nat)

def State.visited (s : State) (run : ReconcileRun) (file : FileRow) : State :=
  if file.status = .available then s.detected file (fault s.store file)
  else if run.repair ∧ (s.store.lookup file.storageKey).isSome then s.deleteObject file.storageKey
  else s

def step (s : State) : Action → State
  | .tick d => { s with clock := s.clock + d }
  | .completeUpload id size =>
    { s with
      store := (s.rows.filter fun f => f.id = id ∧ f.status = .uploading).map (fun f => (f.storageKey, size)) ++ s.store
      rows := updateRow id (fun f => f.status = .uploading) (fun f => { f with
        status := .available
        sizeBytes := some size }) s.rows }
  | .requestDeletion id => { s with rows := requestDeletion s.clock id s.rows }
  | .expireUnattached limit => { s with rows := (expireUnattached s.clock limit s.rows).1 }
  | .claimDeletions limit leaseSeconds =>
    { s with
      rows := (claimDeletions s.clock limit leaseSeconds s.rows).1
      claims := s.claims ++ (claimDeletions s.clock limit leaseSeconds s.rows).2 }
  | .deleteObject claim => match s.claims[claim]? with
    | none => s
    | some c => { s.deleteObject c.storageKey with
      claims := s.claims.eraseIdx claim
      removed := s.removed ++ [c] }
  | .retryDeletion claim delaySeconds errorCode => match s.claims[claim]? with
    | none => s
    | some c => { s with
      claims := s.claims.eraseIdx claim
      rows := retryDeletion s.clock c.id c.attempt delaySeconds errorCode s.rows }
  | .completeDeletion claim => match s.removed[claim]? with
    | none => s
    | some c => { s with
      removed := s.removed.eraseIdx claim
      rows := completeDeletion c.id s.rows }
  | .crash => { s with
    claims := []
    removed := [] }
  | .authorize id => { s with downloads := s.downloads ++ s.rows.filter fun f => f.id = id ∧ f.status = .available }
  | .stream download => match s.downloads[download]? with
    | none => s
    | some file => { s.detected file (fault s.store file) with downloads := s.downloads.eraseIdx download }
  | .leave download => { s with downloads := s.downloads.eraseIdx download }
  | .reconcile repair limit after batchSize => { s with runs := s.runs ++ [reconcile repair limit after batchSize] }
  | .fetch run => match s.runs[run]? with
    | none => s
    | some r => if r.rows = [] then { s with runs := s.runs.eraseIdx run ++ (r.fetch s.rows).toList } else s
  | .visit run => match s.runs[run]? with
    | none => s
    | some r => match r.rows with
      | [] => s
      | file :: rows => { s.visited r file with runs := s.runs.eraseIdx run ++ [r.next file rows] }
  | .skip run => match s.runs[run]? with
    | none => s
    | some r => match r.rows with
      | [] => s
      | file :: rows => { s with runs := s.runs.eraseIdx run ++ [r.next file rows] }

structure Consistent (s : State) : Prop where
  keys : (s.rows.map FileRow.storageKey).Nodup
  available : ∀ f ∈ s.rows, f.status = .available → ∃ size, f.sizeBytes = some size ∧ s.store.lookup f.storageKey = some size
  idle : s.claims = [] ∧ s.removed = [] ∧ s.downloads = [] ∧ s.runs = [] ∧ s.incidents = [] ∧ s.gone = []

/-- A reader that read its row as available reads the object before the service has deleted it. -/
def Timely (s : State) : Action → Prop
  | .stream download => ∀ f, s.downloads[download]? = some f → f.storageKey ∉ s.gone
  | .visit run => ∀ r, s.runs[run]? = some r → ∀ f, r.rows.head? = some f → f.status = .available → f.storageKey ∉ s.gone
  | _ => True

end NawaraCore.FileIntegrity
