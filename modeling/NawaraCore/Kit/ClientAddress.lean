import NawaraCore.Lib.Text

/-!
# The address of a client

`clientAddress` over the peer and the forwarded chain, and `rateLimitIdentity` over the texts of
addresses. What `isIP` accepts, and the eight groups that an IPv6 text stands for, come from the
grammar of these texts.
-/

namespace NawaraCore.ClientAddress

abbrev Text := List Char

def isDigit (c : Char) : Bool := between 0x30 0x39 c

def digitValue (c : Char) : Nat :=
  if isDigit c then c.toNat - 0x30
  else if between 0x61 0x66 c then c.toNat - 0x57
  else c.toNat - 0x37

def isHexDigit (c : Char) : Bool := isDigit c || between 0x61 0x66 c || between 0x41 0x46 c

def isHexField (f : Text) : Bool := f ≠ [] ∧ f.length ≤ 4 ∧ f.all isHexDigit

def numeral (base : Nat) (f : Text) : Nat := f.foldl (fun n c => base * n + digitValue c) 0

def fieldValue (f : Text) : Nat := numeral 16 f

def isOctet (f : Text) : Bool :=
  (f ≠ [] ∧ f.length ≤ 3 ∧ f.all isDigit) ∧ (f.length = 1 ∨ f.head? ≠ some '0') ∧ numeral 10 f ≤ 255

def isV4 (s : Text) : Bool := (s.splitOn '.').length = 4 ∧ (s.splitOn '.').all isOctet

def v4Groups (s : Text) : List Nat :=
  match (s.splitOn '.').map (numeral 10) with
  | [a, b, c, d] => [256 * a + b, 256 * c + d]
  | _ => []

def splitDouble : Text → List Text
  | [] => [[]]
  | ':' :: ':' :: rest => [] :: splitDouble rest
  | c :: rest => (splitDouble rest).modifyHead (c :: ·)

def halfFields (half : Text) : List Text := if half = [] then [] else half.splitOn ':'

/-- The groups of fields, the last of which may be dotted where the address ends. -/
def readGroups (last : Bool) : List Text → Option (List Nat)
  | [] => some []
  | [f] => if isHexField f then some [fieldValue f] else if last && isV4 f then some (v4Groups f) else none
  | f :: fs => if isHexField f then (readGroups last fs).map (fieldValue f :: ·) else none

def isZoneChar (c : Char) : Bool :=
  isDigit c || between 0x61 0x7A c || between 0x41 0x5A c || c == '-' || c == '.' || c == ':'

def withoutZone (s : Text) : Text := s.takeWhile (· ≠ '%')

def zoneValid (s : Text) : Bool :=
  match s.drop (withoutZone s).length with
  | [] => true
  | _ :: zone => zone ≠ [] ∧ zone.all isZoneChar

/-- The eight groups of an IPv6 text; a double colon stands for one zero at least. -/
def parseV6 (s : Text) : Option (List Nat) :=
  if !zoneValid s then none
  else match splitDouble (withoutZone s) with
    | [whole] => (readGroups true (halfFields whole)).bind fun g => if g.length = 8 then some g else none
    | [head, tail] =>
      (readGroups false (halfFields head)).bind fun h => (readGroups true (halfFields tail)).bind fun t =>
        if h.length + t.length ≤ 7 then some (h ++ List.replicate (8 - h.length - t.length) 0 ++ t) else none
    | _ => none

def isIP (s : Text) : Nat := if isV4 s then 4 else if (parseV6 s).isSome then 6 else 0

def v4Shape (s : Text) : Bool :=
  (s.splitOn '.').length = 4 ∧ (s.splitOn '.').all fun f => f ≠ [] ∧ f.length ≤ 3 ∧ f.all isDigit

def lower (s : Text) : Text := s.map Char.toLower

def normalizeAddress (address : Text) : Text :=
  if lower (address.take 7) = "::ffff:".toList ∧ v4Shape (address.drop 7) then address.drop 7 else address

def isPort : Text → Bool
  | ':' :: digits => digits ≠ [] ∧ digits.all isDigit
  | _ => false

def stripV4Port (v : Text) : Text :=
  let host := v.takeWhile (· ≠ ':')
  if v4Shape host ∧ isPort (v.drop host.length) then host else v

def stripPort : Text → Text
  | '[' :: rest =>
    let host := rest.takeWhile (· ≠ ']')
    match rest.drop host.length with
    | ']' :: port => if host ≠ [] ∧ (port = [] ∨ isPort port) then host else stripV4Port ('[' :: rest)
    | _ => stripV4Port ('[' :: rest)
  | v => stripV4Port v

def stripZeros : Text → Text
  | '0' :: c :: cs => stripZeros (c :: cs)
  | s => s

def expandV6 (a : Text) : List Text :=
  let groups := match splitDouble (lower (withoutZone a)) with
    | head :: tail :: _ =>
      let h := halfFields head
      let t := halfFields tail
      h ++ List.replicate (8 - h.length - t.length) ['0'] ++ t
    | [head] => halfFields head
    | [] => []
  groups.map fun g => stripZeros (if g = [] then ['0'] else g)

def rateLimitIdentity (address : Text) : Text :=
  let v4 := normalizeAddress address
  if isIP v4 ≠ 6 then v4 else [':'].intercalate ((expandV6 v4).take 4) ++ "::/64".toList

inductive Header
  | text (raw : Text)
  | list (values : List Text)

structure Request where
  remoteAddress : Option Text
  forwardedFor : Option Header

def Request.peer (req : Request) : Text := normalizeAddress (req.remoteAddress.getD "unknown".toList)

def clientAddress (req : Request) (hops : Nat) : Text :=
  if hops = 0 then req.peer
  else
    let raw := req.forwardedFor.map fun
      | .text raw => raw
      | .list values => [','].intercalate values
    match raw with
    | none => req.peer
    | some raw =>
      if 2048 < utf16Length (String.ofList raw) then req.peer
      else
        let chain := ((raw.splitOn ',').map trimText).filter (· ≠ [])
        match chain[chain.length - hops]? with
        | none => req.peer
        | some entry =>
          let chosen := stripPort entry
          if isIP chosen ≠ 0 then normalizeAddress chosen else req.peer

end NawaraCore.ClientAddress
