import Mathlib.Algebra.Group.Nat.Defs
import Mathlib.Data.Prod.Lex
import NawaraCore.File.FileAccess
import NawaraCore.Lib.Keyset

/-!
# The cleanup worker

The rows of all files as the cleanup worker reads and writes them, and its passes: orphan
expiry, the delete worker and the sweep of abandoned uploads. Each function of the
repository is one statement, at the instant `now`.
-/

namespace NawaraCore.FileCleanup

open FileAccess (FileStatus)

structure FileRow where
  id : Nat
  status : FileStatus
  storageKey : String
  sizeBytes : Option Nat
  organizationId : Option String
  attached : Bool
  attachDeadline : Option Int
  uploadExpiresAt : Int
  deleteNextAttemptAt : Option Int
  deleteLeaseUntil : Option Int
  deleteAttempts : Nat
  deleteLastError : Option String
  failureCode : Option String
  held : Bool
  deriving DecidableEq

def seconds (n : Nat) : Int := n * 1000000

/-- `FILE_CLEANUP_*` and `FILE_DELETE_*`, as `loadCleanupConfig` admits them. -/
structure CleanupConfig where
  batchSize : Nat
  maxBatchesPerPass : Nat
  deleteLeaseSeconds : Nat
  deleteRetryBaseSeconds : Nat
  deleteRetryMaxSeconds : Nat
  batch_pos : 0 < batchSize
  batches_pos : 0 < maxBatchesPerPass
  base_pos : 0 < deleteRetryBaseSeconds
  base_le : deleteRetryBaseSeconds ≤ deleteRetryMaxSeconds

def deleteRetryDelaySeconds (attempt baseSeconds maxSeconds : Nat) : Nat := min maxSeconds (baseSeconds * 2 ^ min (attempt - 1) 30)

/-! ## The repository -/

def updateRow (id : Nat) (p : FileRow → Bool) (set : FileRow → FileRow) (rows : List FileRow) : List FileRow :=
  rows.map fun f => if f.id = id ∧ p f then set f else f

/-- `ORDER BY … LIMIT …`; rows of one instant in the order of their ids. -/
def oldest (time : FileRow → Option Int) (limit : Nat) (rows : List FileRow) : List FileRow :=
  page (fun f => (toLex ((time f).getD 0, f.id) : Lex (Int × Nat))) limit none rows

structure DeletionClaim where
  id : Nat
  storageKey : String
  attempt : Nat

section
variable (now : Int)

def requestDeletion (id : Nat) : List FileRow → List FileRow :=
  updateRow id (fun f => f.status = .available ∧ ¬ f.held) fun f => { f with
    status := .deleting
    deleteNextAttemptAt := some now }

def orphaned (f : FileRow) : Bool := f.status = .available ∧ ¬ f.attached ∧ (f.attachDeadline.any fun t => t ≤ now) ∧ ¬ f.held

def expireUnattached (limit : Nat) (rows : List FileRow) : List FileRow × List Nat :=
  let ids := (oldest FileRow.attachDeadline limit (rows.filter (orphaned now))).map FileRow.id
  (rows.map fun f => if f.id ∈ ids then { f with
      status := .deleting
      deleteNextAttemptAt := some now } else f, ids)

def deletionDue (f : FileRow) : Bool :=
  f.status = .deleting ∧ (f.deleteNextAttemptAt.any fun t => t ≤ now) ∧ (f.deleteLeaseUntil.all fun t => t < now) ∧ ¬ f.held

def FileRow.claimed (leaseSeconds : Nat) (f : FileRow) : FileRow :=
  { f with
    deleteLeaseUntil := some (now + seconds leaseSeconds)
    deleteAttempts := f.deleteAttempts + 1 }

def claimDeletions (limit leaseSeconds : Nat) (rows : List FileRow) : List FileRow × List DeletionClaim :=
  let due := oldest FileRow.deleteNextAttemptAt limit (rows.filter (deletionDue now))
  (rows.map fun f => if f.id ∈ due.map FileRow.id then f.claimed now leaseSeconds else f,
    due.map fun f => ⟨f.id, f.storageKey, f.deleteAttempts + 1⟩)

def completeDeletion (id : Nat) : List FileRow → List FileRow :=
  updateRow id (fun f => f.status = .deleting) fun f => { f with
    status := .deleted
    deleteNextAttemptAt := none
    deleteLeaseUntil := none
    deleteLastError := none }

def retryDeletion (id attempt delaySeconds : Nat) (errorCode : String) : List FileRow → List FileRow :=
  updateRow id (fun f => f.status = .deleting ∧ f.deleteAttempts = attempt) fun f => { f with
    deleteNextAttemptAt := some (now + seconds delaySeconds)
    deleteLeaseUntil := none
    deleteLastError := some errorCode }

def abandoned (f : FileRow) : Bool := f.status = .uploading ∧ f.uploadExpiresAt ≤ now

def findAbandonedUploads (limit : Nat) (rows : List FileRow) : List FileRow :=
  oldest (fun f => some f.uploadExpiresAt) limit (rows.filter (abandoned now))

def failAbandonedUpload (id : Nat) : List FileRow → List FileRow :=
  updateRow id (abandoned now) fun f => { f with
    status := .failed
    failureCode := some "upload_abandoned" }

end

/-! ## Passes -/

section
variable (config : CleanupConfig)
  /- How the store answers the deletion of an object, on every attempt; `none` is success. -/
  (refuses : String → Option String)

def deleteOne (now : Int) (claim : DeletionClaim) (rows : List FileRow) : List FileRow :=
  match refuses claim.storageKey with
  | some errorCode =>
    retryDeletion now claim.id claim.attempt
      (deleteRetryDelaySeconds claim.attempt config.deleteRetryBaseSeconds config.deleteRetryMaxSeconds) errorCode rows
  | none => completeDeletion claim.id rows

def deleteDue (now : Int) (rows : List FileRow) : List FileRow × Nat :=
  let (rows, claims) := claimDeletions now config.batchSize config.deleteLeaseSeconds rows
  (claims.foldl (fun rows claim => deleteOne config refuses now claim rows) rows, claims.countP fun c => (refuses c.storageKey).isNone)

def sweepAbandonedUploads (now : Int) (rows : List FileRow) : List FileRow × Nat :=
  let found := findAbandonedUploads now config.batchSize rows
  (found.foldl (fun rows f => if (refuses f.storageKey).isSome then rows else failAbandonedUpload now f.id rows) rows,
    found.countP fun f => (refuses f.storageKey).isNone)

def expireOrphans (now : Int) (rows : List FileRow) : List FileRow × Nat :=
  let (rows, ids) := expireUnattached now config.batchSize rows
  (rows, ids.length)

def drain (batch : Int → List FileRow → List FileRow × Nat) : List Int → List FileRow → List FileRow
  | [], rows => rows
  | now :: times, rows =>
    let (rows, n) := batch now rows
    if n < config.batchSize then rows else drain batch times rows

structure PassTimes where
  expiry : List Int
  deletion : List Int
  uploads : List Int

def PassTimes.instants (t : PassTimes) : List Int := t.expiry ++ t.deletion ++ t.uploads

def PassTimes.begins (t : PassTimes) : Int := t.instants.headD 0

def runOnce (times : PassTimes) (rows : List FileRow) : List FileRow :=
  drain config (sweepAbandonedUploads config refuses) times.uploads
    (drain config (deleteDue config refuses) times.deletion (drain config (expireOrphans config) times.expiry rows))

def after (times : Nat → PassTimes) (rows : List FileRow) : Nat → List FileRow
  | 0 => rows
  | k + 1 => runOnce config refuses (times k) (after times rows k)

/-- Each pass has an instant for every batch it may take, and the clock does not go back. -/
structure Timed (times : Nat → PassTimes) : Prop where
  expiry : ∀ k, (times k).expiry.length = config.maxBatchesPerPass
  deletion : ∀ k, (times k).deletion.length = config.maxBatchesPerPass
  uploads : ∀ k, (times k).uploads.length = config.maxBatchesPerPass
  ordered : ∀ k, (times k).instants.Pairwise (· ≤ ·)
  later : ∀ k, ∀ i ∈ (times k).instants, i ≤ (times (k + 1)).begins

def uploadKey (f : FileRow) : Lex (Int × Nat) := toLex (f.uploadExpiresAt, f.id)

def ahead (rows : List FileRow) (p : String → Bool) (f : FileRow) : List FileRow :=
  rows.filter fun g => g.status = .uploading ∧ p g.storageKey ∧ uploadKey g < uploadKey f

def Failed (f : FileRow) (rows : List FileRow) : Prop := ∃ g ∈ rows, g.id = f.id ∧ g.status = .failed

def Deleted (f : FileRow) (rows : List FileRow) : Prop := ∃ g ∈ rows, g.id = f.id ∧ g.status = .deleted

/-- An upload that is abandoned when a pass begins, and a deletion that is due then, are settled within as many passes as there are rows,
if the store accepts their deletion. -/
structure Progress (times : Nat → PassTimes) (rows : List FileRow) : Prop where
  uploads : ∀ k, ∀ f ∈ after config refuses times rows k, refuses f.storageKey = none → abandoned (times k).begins f = true →
    Failed f (after config refuses times rows (k + rows.length))
  deletions : ∀ k, ∀ f ∈ after config refuses times rows k, refuses f.storageKey = none → deletionDue (times k).begins f = true →
    Deleted f (after config refuses times rows (k + rows.length))

/-- Fewer uploads than a batch that the store refuses are in front of each other one that a pass finds abandoned. -/
def Unblocked (times : Nat → PassTimes) (rows : List FileRow) : Prop :=
  ∀ f ∈ rows, f.status = .uploading → refuses f.storageKey = none → (∃ k, f.uploadExpiresAt ≤ (times k).begins) →
    (ahead rows (fun key => (refuses key).isSome) f).length < config.batchSize

end

end NawaraCore.FileCleanup
