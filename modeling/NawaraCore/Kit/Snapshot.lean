import NawaraCore.Lib.JsonParse

/-!
# Snapshot artifacts

Sealing rows into an artifact, its bytes, and the verification of an artifact from anywhere.
The digest of a text is a parameter. A function that throws has no result.
-/

namespace NawaraCore.Snapshot

abbrev Text := List Nat

def proto : Text := codes "__proto__"

inductive Scalar
  | str (s : Text)
  | num (n : JsNumber)
  | bool (b : Bool)
  | null
  deriving DecidableEq

def Scalar.json : Scalar → Json
  | .str s => .str s
  | .num n => .num n
  | .bool b => .bool b
  | .null => .null

structure Record (β : Type) where
  entries : List (Text × β)
  distinct : (entries.map Prod.fst).Nodup

def Record.json {β : Type} (value : β → Json) (r : Record β) : Json := .obj (r.entries.map fun e => (e.1, value e.2))

abbrev SnapshotRow := Record Scalar

def SnapshotRow.json (row : SnapshotRow) : Json := Record.json Scalar.json row

inductive SourceValue
  | one (s : Scalar)
  | many (l : List Scalar)

def SourceValue.json : SourceValue → Json
  | .one s => s.json
  | .many l => .arr (l.map Scalar.json)

/-- An array has less than 2^32 elements. -/
abbrev Table := { rows : List SnapshotRow // rows.length < 4294967296 }

structure SealInput where
  format : Text
  version : JsNumber
  source : Record SourceValue
  frozen : Bool
  tables : Record Table

structure SealedTable where
  name : Text
  rows : List Json
  digest : Text

structure SealedSnapshot where
  format : Text
  version : JsNumber
  source : Record SourceValue
  frozen : Bool
  tables : List SealedTable
  whole : Text

def numberString : JsNumber → Text
  | .int n => codes (toString n)
  | .other text _ => text

mutual
/-- `String(value)`. An object with a `toString` of its own has none that can be called. -/
def toText : Json → Option Text
  | .null => some (codes "null")
  | .bool b => some (if b then codes "true" else codes "false")
  | .num n => some (numberString n)
  | .str s => some s
  | .arr items => (itemsText items).map [44].intercalate
  | .obj members => if (members.lookup (codes "toString")).isSome then none else some (codes "[object Object]")

def itemsText : List Json → Option (List Text)
  | [] => some []
  | .null :: js => (itemsText js).map ([] :: ·)
  | j :: js => match toText j with
    | none => none
    | some s => (itemsText js).map (s :: ·)
end

/-- `String(row.id ?? '')`; `null` has no members at all. -/
def rowId : Json → Option Text
  | .null => none
  | .obj members => match members.lookup (codes "id") with
    | none | some .null => some []
    | some j => toText j
  | _ => some []

def rowLe (a b : Json) : Bool := decide ((rowId a).getD [] ≤ (rowId b).getD [])

def orderRows (rows : List Json) : Option (List Json) :=
  if rows.length < 2 ∨ rows.all (fun r => (rowId r).isSome) = true then some (rows.mergeSort rowLe) else none

section
variable (sha256Hex : Text → Text)

def digestRows (rows : List Json) : Option Text := (Json.canonicalJson (.arr rows)).map sha256Hex

def wholeJson (format source version frozen counts tables : Json) : Json :=
  .obj [(codes "format", format), (codes "version", version), (codes "source", source), (codes "frozen", frozen), (codes "counts", counts), (codes "tables", tables)]

def wholeDigest (format source version frozen counts tables : Json) : Option Text :=
  (Json.canonicalJson (wholeJson format source version frozen counts tables)).map sha256Hex

def countsJson (tables : List SealedTable) : Json := .obj (tables.map fun t => (t.name, .num (.int t.rows.length)))

def digestsJson (tables : List SealedTable) : Json := .obj (tables.map fun t => (t.name, .str t.digest))

def tablesJson (tables : List SealedTable) : Json := .obj (tables.map fun t => (t.name, .arr t.rows))

def sealTable (entry : Text × Table) : Option SealedTable := do
  let rows ← orderRows (entry.2.1.map SnapshotRow.json)
  let digest ← digestRows sha256Hex rows
  some { name := entry.1, rows, digest }

/-- What is assigned to `__proto__` is no member. -/
def sealTables : List (Text × Table) → Option (List SealedTable)
  | [] => some []
  | e :: es => do
    let t ← sealTable sha256Hex e
    let ts ← sealTables es
    some (if e.1 = proto then ts else t :: ts)

def sealSnapshot (input : SealInput) : Option SealedSnapshot := do
  let tables ← sealTables sha256Hex (byKey input.tables.entries)
  let whole ← wholeDigest sha256Hex (.str input.format) (input.source.json SourceValue.json) (.num input.version) (.bool input.frozen) (countsJson tables) (digestsJson tables)
  some { format := input.format, version := input.version, source := input.source, frozen := input.frozen, tables, whole }

def SealedSnapshot.json (s : SealedSnapshot) : Json :=
  .obj [(codes "format", .str s.format), (codes "version", .num s.version), (codes "source", s.source.json SourceValue.json), (codes "frozen", .bool s.frozen),
    (codes "counts", countsJson s.tables), (codes "digests", .obj [(codes "tables", digestsJson s.tables), (codes "whole", .str s.whole)]),
    (codes "tables", tablesJson s.tables)]

def serializeSnapshot (s : SealedSnapshot) : Option Text := (Json.canonicalJson s.json).map (· ++ [10])

/-! ## Verification -/

inductive VerifyError
  | notObject
  | format (found : Text)
  | version (found : Text)
  | frozen
  | source
  | tables
  | digests
  | counts
  | names
  | notRows (table : Text)
  | failed (table : Text)
  | order (table : Text)
  | count (table : Text) (rows : Nat)
  | digest (table : Text)
  | whole

def keys : Json → List Text
  | .obj members => members.map Prod.fst
  | .arr items => (List.range items.length).map fun i => codes (toString i)
  | _ => []

def member (j : Json) (name : Text) : Option Json := match j with
  | .obj members => members.lookup name
  | .arr items =>
    if name = codes "length" then some (.num (.int items.length))
    else ((List.range items.length).find? fun i => codes (toString i) = name).bind fun i => items[i]?
  | _ => none

def foundText : Option Json → Option Text
  | none => some (codes "undefined")
  | some j => toText j

def checkFormat (expected : Text) (found : Option Json) : Option (List VerifyError) := match found with
  | some (.str s) => some (if s = expected then [] else [.format s])
  | found => (foundText found).map fun t => [.format t]

def checkVersion (expected : JsNumber) (found : Option Json) : Option (List VerifyError) := match found with
  | some (.num n) => some (if n = expected then [] else [.version (numberString n)])
  | found => (foundText found).map fun t => [.version t]

def checkFrozen : Option Json → List VerifyError
  | some (.bool _) => []
  | _ => [.frozen]

def checkSource : Option Json → List VerifyError
  | some (.obj _) => []
  | _ => [.source]

/-- The digests of the tables, which may be `null`, and of the whole. -/
def digestsOf : Option Json → Option (Json × Text)
  | some (.obj members) => match members.lookup (codes "tables"), members.lookup (codes "whole") with
    | some (.obj tables), some (.str whole) => some (.obj tables, whole)
    | some (.arr tables), some (.str whole) => some (.arr tables, whole)
    | some .null, some (.str whole) => some (.null, whole)
    | _, _ => none
  | _ => none

def countsOf : Option Json → Option Json
  | some (.obj counts) => some (.obj counts)
  | some (.arr counts) => some (.arr counts)
  | _ => none

def joined (names : List Text) : Text := [44].intercalate (names.mergeSort fun a b => decide (a ≤ b))

def isCount (j : Option Json) (n : Nat) : Bool := match j with
  | some (.num m) => m = .int n
  | _ => false

/-- The recomputed digest; for `__proto__` both sides read what they inherit. -/
def isDigest (digests : Json) (name digest : Text) : Bool :=
  if name = proto then match digests with
    | .obj members => (members.lookup proto).isNone
    | _ => false
  else match member digests name with
    | some (.str d) => d = digest
    | _ => false

def checkTable (counts digests : Json) (name : Text) : Json → List VerifyError × Option Text
  | .arr rows => match (orderRows rows).bind fun ordered => (digestRows sha256Hex ordered).map fun digest => (ordered, digest) with
    | none => ([.failed name], none)
    | some (ordered, digest) =>
      ((if Json.canonicalJson (.arr ordered) = Json.canonicalJson (.arr rows) then [] else [.order name]) ++
        (if isCount (member counts name) rows.length then [] else [.count name rows.length]) ++
        (if isDigest digests name digest then [] else [.digest name]), some digest)
  | _ => ([.notRows name], none)

def recomputed (counts digests : Json) (tables : Members) : Members :=
  (tables.filter fun t => t.1 ≠ proto).filterMap fun t => (checkTable sha256Hex counts digests t.1 t.2).2.map fun d => (t.1, .str d)

def tableErrors (counts digests : Json) (tables : Members) : List VerifyError :=
  (if joined (tables.map Prod.fst) = joined (keys digests) then [] else [.names]) ++
    tables.flatMap fun t => (checkTable sha256Hex counts digests t.1 t.2).1

def verifyTables (artifact tables : Members) (digests : Json) (whole : Text) (counts : Json) : Option (Except (List VerifyError) Members) :=
  match tableErrors sha256Hex counts digests tables with
  | [] =>
    let found := fun name => (artifact.lookup (codes name)).getD .null
    (wholeDigest sha256Hex (found "format") (found "source") (found "version") (found "frozen") counts (.obj (recomputed sha256Hex counts digests tables))).map fun w =>
      if w = whole then .ok artifact else .error [.whole]
  | errors => some (.error errors)

def verifySnapshot (input : Json) (format : Text) (version : JsNumber) : Option (Except (List VerifyError) Members) :=
  match input with
  | .obj artifact => do
    let e₁ ← checkFormat format (artifact.lookup (codes "format"))
    let e₂ ← checkVersion version (artifact.lookup (codes "version"))
    let errors := e₁ ++ e₂ ++ checkFrozen (artifact.lookup (codes "frozen")) ++ checkSource (artifact.lookup (codes "source"))
    match artifact.lookup (codes "tables") with
    | some (.obj tables) => match digestsOf (artifact.lookup (codes "digests")) with
      | none => some (.error (errors ++ [.digests]))
      | some (digests, whole) => match countsOf (artifact.lookup (codes "counts")) with
        | none => some (.error (errors ++ [.counts]))
        | some counts =>
          if errors ≠ [] then some (.error errors)
          else match digests with
            | .null => none -- `Object.keys(null)`
            | digests => verifyTables sha256Hex artifact tables digests whole counts
    | _ => some (.error (errors ++ [.tables]))
  | _ => some (.error [.notObject])

end

end NawaraCore.Snapshot
