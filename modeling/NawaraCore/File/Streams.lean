import Mathlib.Data.List.Basic
import Mathlib.Data.List.Infix

/-!
# Verified streams

A body on its way to the store and an object on its way out, chunk by chunk, and the upload
pipeline over them. The digest of bytes is a parameter.
-/

namespace NawaraCore.FileStreams

abbrev Bytes := List UInt8

structure Verifier (ε : Type) where
  size : Nat
  expected : Option String
  lengthMismatch : ε
  digestMismatch : ε

structure VerifierState where
  received : Nat
  held : Option Bytes
  hashed : Bytes

def VerifierState.empty : VerifierState := ⟨0, none, []⟩

section
variable {ε : Type} (digest : Bytes → String) (v : Verifier ε)

def transform (s : VerifierState) (chunk : Bytes) : Except ε (VerifierState × Option Bytes) :=
  if v.size < s.received + chunk.length then .error v.lengthMismatch
  else .ok (⟨s.received + chunk.length, some chunk, s.hashed ++ chunk⟩, s.held)

def flush (s : VerifierState) : Except ε (Option Bytes) :=
  if s.received ≠ v.size then .error v.lengthMismatch
  else if v.expected.any fun e => digest s.hashed ≠ e then .error v.digestMismatch
  else .ok s.held

def feed : VerifierState → List Bytes → Bytes × Except ε VerifierState
  | s, [] => ([], .ok s)
  | s, c :: cs => match transform v s c with
    | .error e => ([], .error e)
    | .ok (s', out) => ((out.getD []) ++ (feed s' cs).1, (feed s' cs).2)

def stream (chunks : List Bytes) : Bytes × Option ε := match feed v .empty chunks with
  | (sent, .error e) => (sent, some e)
  | (sent, .ok s) => match flush digest v s with
    | .error e => (sent, some e)
    | .ok out => (sent ++ out.getD [], none)

end

inductive StorageCode
  | checksumMismatch
  | lengthMismatch
  | unavailable
  | timeout
  | rejected
  | invalidKey
  | alreadyExists

inductive ContentMismatch
  | streamLength
  | digestMismatch

def verifiedBody (sizeBytes : Nat) (expectedSha256 : Option String) : Verifier StorageCode := ⟨sizeBytes, expectedSha256, .lengthMismatch, .checksumMismatch⟩

def verifiedDownload (expected : Nat) (sha256 : String) : Verifier ContentMismatch := ⟨expected, some sha256, .streamLength, .digestMismatch⟩

inductive FileMediaType
  | pdf
  | jpeg
  | png
  | webp
  | heic
  | heif
  deriving DecidableEq

def DETECTION_WINDOW_BYTES : Nat := 4096

def ascii (s : String) : Bytes := s.toList.map fun c => UInt8.ofNat c.toNat

def HEIC_BRANDS : List Bytes := ["heic", "heix", "heim", "heis"].map ascii

def REFUSED_BRANDS : List Bytes := ["hevc", "hevx", "hevm", "hevs", "msf1", "avif", "avis", "avio"].map ascii

def subarray (head : Bytes) (start stop : Nat) : Bytes := (head.take stop).drop start

def readUInt32BE (head : Bytes) : Nat := (head.take 4).foldl (fun n b => 256 * n + b.toNat) 0

def compatibleBrands (head : Bytes) (size : Nat) : List Bytes :=
  (List.range ((size - 16) / 4)).map fun i => subarray head (16 + 4 * i) (20 + 4 * i)

def heif (head : Bytes) : Option FileMediaType :=
  if head.length < 16 ∨ subarray head 4 8 ≠ ascii "ftyp" then none
  else
    let size := readUInt32BE head
    if size < 16 ∨ size > DETECTION_WINDOW_BYTES ∨ size > head.length ∨ (size - 16) % 4 ≠ 0 then none
    else
      let major := subarray head 8 12
      let compatible := compatibleBrands head size
      if ((major :: compatible).any fun b => b ∈ REFUSED_BRANDS) ∧ major ∉ HEIC_BRANDS then none
      else if major ∈ HEIC_BRANDS then some .heic
      else if major = ascii "mif1" then if compatible.any fun b => b ∈ HEIC_BRANDS then some .heic else some .heif
      else none

def detectMediaType (head : Bytes) : Option FileMediaType :=
  if [0x25, 0x50, 0x44, 0x46, 0x2d] <+: head then some .pdf
  else if [0xff, 0xd8, 0xff] <+: head then some .jpeg
  else if [0x89, 0x50, 0x4e, 0x47, 0x0d, 0x0a, 0x1a, 0x0a] <+: head then some .png
  else if subarray head 0 4 = ascii "RIFF" ∧ head.length ≥ 16 ∧ subarray head 8 12 = ascii "WEBP" ∧
      subarray head 12 16 ∈ ["VP8 ", "VP8L", "VP8X"].map ascii then some .webp
  else heif head

/-! ## Uploads -/

inductive UploadRefusal
  | tooLarge
  | unsupported
  | mismatch
  | checksum
  | incomplete
  | storageUnavailable (code : StorageCode)
  | storageFault (code : StorageCode)

/-- The declarations about a body: `agrees` with the detected type say the declared type and the file name. -/
structure IngestInput where
  declaredLength : Nat
  limit : Nat
  allowed : FileMediaType → Bool
  agrees : FileMediaType → Bool
  expectedSha256 : Option String
  fault : Option StorageCode

structure Accepted where
  mediaType : FileMediaType
  sizeBytes : Nat
  sha256 : String
  deriving DecidableEq

def readHead (input : IngestInput) : List Bytes → Nat → List Bytes → Except UploadRefusal (List Bytes × Nat × List Bytes)
  | head, headBytes, [] => .ok (head, headBytes, [])
  | head, headBytes, c :: cs =>
    if headBytes < DETECTION_WINDOW_BYTES ∧ headBytes < input.declaredLength then
      if headBytes + c.length > input.limit then .error .tooLarge
      else readHead input (head ++ [c]) (headBytes + c.length) cs
    else .ok (head, headBytes, c :: cs)

def copyInto : List Bytes → Nat → Bytes
  | [], _ => []
  | c :: cs, size => if size = 0 then [] else c.take size ++ copyInto cs (size - min c.length size)

def windowOf (chunks : List Bytes) (size : Nat) : Bytes :=
  copyInto chunks size ++ List.replicate (size - (copyInto chunks size).length) 0

def meter (limit : Nat) : Nat → List Bytes → List Bytes × Option UploadRefusal
  | _, [] => ([], none)
  | bytes, c :: cs =>
    if bytes + c.length > limit then ([], some .tooLarge)
    else (c :: (meter limit (bytes + c.length) cs).1, (meter limit (bytes + c.length) cs).2)

def classify : StorageCode → UploadRefusal
  | .checksumMismatch => .checksum
  | .lengthMismatch => .incomplete
  | .unavailable => .storageUnavailable .unavailable
  | .timeout => .storageUnavailable .timeout
  | code => .storageFault code

section
variable (digest : Bytes → String) (input : IngestInput)

def put (body : List Bytes × Option UploadRefusal) : Except UploadRefusal Unit := match body.2 with
  | some refusal => .error refusal
  | none => match (stream digest (verifiedBody input.declaredLength input.expectedSha256) body.1).2 with
    | some code => .error (classify code)
    | none => match input.fault with
      | some code => .error (classify code)
      | none => .ok ()

def ingest (chunks : List Bytes) : Except UploadRefusal Accepted := do
  let (head, headBytes, rest) ← readHead input [] 0 chunks
  match detectMediaType (windowOf head (min headBytes DETECTION_WINDOW_BYTES)) with
  | none => .error .unsupported
  | some detected =>
    if ¬ input.allowed detected then .error .unsupported
    else if ¬ input.agrees detected then .error .mismatch
    else
      let body := meter input.limit 0 (head ++ rest)
      put digest input body
      if body.1.flatten.length ≠ input.declaredLength then .error .incomplete
      else .ok ⟨detected, body.1.flatten.length, digest body.1.flatten⟩

end

end NawaraCore.FileStreams
