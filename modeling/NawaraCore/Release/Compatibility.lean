import NawaraCore.Release.Registry
import NawaraCore.Release.Version

/-!
# Compatibility answers

What a client with one version of a component is told, from one statement over the committed
tables, and the entity tag of the answer. Rows have ids of their own here, since the tag
names them.
-/

namespace NawaraCore.Compatibility

open Releases Versions

def versionText (v : Version) : Text :=
  numberText v.major ++ 46 :: (numberText v.minor ++ 46 :: (numberText v.patch ++ v.prerelease.elim [] fun p => 45 :: codes p))

def semver (v : Version) : SemVer := ⟨v.major, v.minor, v.patch, v.prerelease.elim [] fun p => ((codes p).splitOn 46).map readIdentifier⟩

def compareVersions (v w : Version) : Int := Ordering.sign (precedence (semver v) (semver w))

structure Ids where
  component : ComponentId → Text
  release : ReleaseId → Text

structure ComponentFacts where
  id : Text
  kind : ComponentKind

structure ReleaseFacts where
  id : Text
  status : ReleaseStatus

structure PolicyFacts where
  policyVersion : Nat
  minimumVersion : Version

structure LatestFacts where
  id : Text
  version : Version

structure CompatibilityState where
  component : Option ComponentFacts
  release : Option ReleaseFacts
  policy : Option PolicyFacts
  latest : Option LatestFacts

def compatibilityState (ids : Ids) (db : Db) (id : ComponentId) (version : Version) : CompatibilityState :=
  match (db.findComponent id).filter fun c => c.id.product ∈ db.products with
  | none => ⟨none, none, none, none⟩
  | some c =>
    { component := some ⟨ids.component c.id, c.kind⟩
      release := (db.findRelease ⟨c.id, version⟩).map fun r => ⟨ids.release r.id, r.status⟩
      policy := (db.currentPolicy c.id).map fun p => ⟨p.policyVersion, p.minimumVersion⟩
      latest := (db.latestRelease c.id).map fun r => ⟨ids.release r.id, r.id.version⟩ }

inductive RequiredReason
  | withdrawn | below_minimum
  deriving DecidableEq

inductive Update
  | required (reason : RequiredReason)
  | available
  | none
  deriving DecidableEq

structure Decision where
  update : Update
  latestVersion : Option Version
  minimumVersion : Option Version
  deriving DecidableEq

inductive InputError
  | invalid_version | unknown_component | unknown_release
  deriving DecidableEq

def CompatibilityState.answered (s : CompatibilityState) (update : Update) : Decision :=
  ⟨update, s.latest.map LatestFacts.version, s.policy.map PolicyFacts.minimumVersion⟩

def CompatibilityState.update (s : CompatibilityState) (version : Version) (status : ReleaseStatus) : Update :=
  if status = .withdrawn then .required .withdrawn
  else if s.policy.any fun p => compareVersions version p.minimumVersion < 0 then .required .below_minimum
  else if s.latest.any fun l => compareVersions l.version version > 0 then .available
  else .none

def decide (version : Version) (s : CompatibilityState) : Except InputError Decision :=
  if s.component.all fun c => c.kind = .backend then .error .unknown_component
  else match s.release with
    | none => .error .unknown_release
    | some r => .ok (s.answered (s.update version r.status))

def statusText : ReleaseStatus → Text
  | .registered => codes "registered"
  | .published => codes "published"
  | .withdrawn => codes "withdrawn"

def basisParts (s : CompatibilityState) : List Text :=
  [codes "rc1", s.component.elim [] ComponentFacts.id, s.release.elim [] ReleaseFacts.id, s.release.elim [] fun r => statusText r.status,
    numberText (s.policy.elim 0 PolicyFacts.policyVersion), s.latest.elim (codes "-") LatestFacts.id]

def etagBasis (s : CompatibilityState) : Text := [124].intercalate (basisParts s)

def compatibilityEtag (digest : Text → Text) (s : CompatibilityState) : Text := 34 :: (digest (etagBasis s) ++ [34])

def isWhitespace (c : Nat) : Bool :=
  c ∈ [9, 10, 11, 12, 13, 32, 160, 5760, 8232, 8233, 8239, 8287, 12288, 65279] || (8192 ≤ c && c ≤ 8202)

def trim (s : Text) : Text := ((s.dropWhile isWhitespace).reverse.dropWhile isWhitespace).reverse

def withoutWeak (s : Text) : Text := if s.take 2 = codes "W/" then s.drop 2 else s

def matchesIfNoneMatch (header : Option Text) (etag : Text) : Bool :=
  header.any fun h => ((h.splitOn 44).map fun t => withoutWeak (trim t)).any fun t => t = codes "*" || t = etag

inductive Answer
  | decision (d : Decision) (etag : Text)
  | not_modified (etag : Text)

def answer (digest : Text → Text) (ids : Ids) (db : Db) (header : Option Text) (id : ComponentId) (version : Version) : Except InputError Answer :=
  match decide version (compatibilityState ids db id version) with
  | .error e => .error e
  | .ok d =>
    let etag := compatibilityEtag digest (compatibilityState ids db id version)
    .ok (if matchesIfNoneMatch header etag then .not_modified etag else .decision d etag)

end NawaraCore.Compatibility
