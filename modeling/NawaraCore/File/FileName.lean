import Mathlib
import NawaraCore.Lib.Text

/-!
# File names

`sanitizeFileName`, the constraint on the column that stores its result, and the
`Content-Disposition` header that shows it. A name is the list of its code points, and the
normalization of Unicode's form C is a parameter.
-/

namespace NawaraCore.FileName

abbrev Name := List Char

def isControl (c : Char) : Bool := between 0 0x1F c || between 0x7F 0x9F c

def isBidiControl (c : Char) : Bool :=
  between 0x61C 0x61C c || between 0x200E 0x200F c || between 0x202A 0x202E c || between 0x2066 0x2069 c

def isUnsafe (c : Char) : Bool :=
  isControl c || isBidiControl c || between 0x2028 0x2029 c || between 0xFEFF 0xFEFF c || c == '/' || c == '\\'

def byteLength (s : Name) : Nat := (s.map Char.utf8Size).sum

def FILE_NAME_MAX_BYTES : Nat := 255

def splitLastDot : Name → Option (Name × Name)
  | [] => none
  | c :: cs => match splitLastDot cs with
    | some (before, rest) => some (c :: before, rest)
    | none => if c = '.' then some ([], c :: cs) else none

/-- The stem and the extension: of at most 16 UTF-16 units, and never the whole name. -/
def splitExtension (s : Name) : Name × Name :=
  match splitLastDot s with
  | some (stem, extension) =>
    if stem ≠ [] ∧ utf16Length (String.ofList extension) ≤ 16 then (stem, extension) else (s, [])
  | none => (s, [])

def fill (budget : Nat) (stem : Name) : Name → Name
  | [] => stem
  | ch :: rest => if budget < byteLength (stem ++ [ch]) then stem else fill budget (stem ++ [ch]) rest

def dropped (s : Name) : Bool := s = [] ∨ s = ['.'] ∨ s = ['.', '.']

variable (nfc : Name → Name)

def clean (raw : Name) : Name := trimText (nfc (raw.filter fun c => !isUnsafe c))

def truncate (cleaned : Name) : Name :=
  let (stem, extension) := splitExtension cleaned
  trimText (nfc (fill (FILE_NAME_MAX_BYTES - byteLength extension) [] stem ++ extension))

def sanitizeFileName (raw : Option Name) : Option Name :=
  match raw with
  | none => none
  | some raw =>
    let cleaned := clean nfc raw
    if dropped cleaned then none
    else if byteLength cleaned ≤ FILE_NAME_MAX_BYTES then some cleaned
    else
      let result := truncate nfc cleaned
      if dropped result then none else some result

/-- `file_original_name_safe` and `file_original_name_no_marks`, and that a text column holds no NUL. -/
def originalNameSafe (s : Name) : Bool :=
  (1 ≤ byteLength s ∧ byteLength s ≤ 255) ∧ nfc s = s ∧
    (∀ c ∈ s, ¬ (between 0x01 0x1F c || between 0x7F 0x9F c || c == '/' || c == '\\' || between 0x202A 0x202E c || between 0x2066 0x2069 c)) ∧
    (s ≠ ['.'] ∧ s ≠ ['.', '.']) ∧
    (∀ c ∈ s, ¬ (between 0x61C 0x61C c || between 0x200E 0x200F c || between 0x2028 0x2029 c || between 0xFEFF 0xFEFF c)) ∧
    ∀ c ∈ s, c.toNat ≠ 0

inductive Disposition
  | attachment | inline

def Disposition.text : Disposition → Name
  | attachment => "attachment".toList
  | inline => "inline".toList

inductive FileMediaType
  | pdf | jpeg | png | webp | heic | heif

def EXTENSION : FileMediaType → Name
  | .pdf => "pdf".toList
  | .jpeg => "jpg".toList
  | .png => "png".toList
  | .webp => "webp".toList
  | .heic => "heic".toList
  | .heif => "heif".toList

def isLetterOrDigit (c : Char) : Bool := between 0x41 0x5A c || between 0x61 0x7A c || between 0x30 0x39 c

def isAttrChar (c : Char) : Bool :=
  isLetterOrDigit c || ['!', '#', '$', '&', '+', '-', '.', '^', '_', (Char.ofNat 0x60), '|', '~'].contains c

def hexDigit (n : Nat) : Char := Char.ofNat (if n < 10 then 0x30 + n else 0x37 + n)

def encodeByte (b : UInt8) : Name :=
  if b.toNat < 0x80 ∧ isAttrChar (Char.ofNat b.toNat) then [Char.ofNat b.toNat]
  else ['%', hexDigit (b.toNat / 16), hexDigit (b.toNat % 16)]

def utf8 (s : Name) : List UInt8 := s.flatMap String.utf8EncodeChar

def asciiChar (c : Char) : Char := if between 0x20 0x7E c ∧ c ≠ '"' ∧ c ≠ '\\' then c else '_'

def shownName (originalName : Option Name) (mediaType : FileMediaType) : Name :=
  let name := clean nfc (originalName.getD [])
  if dropped name then "file.".toList ++ EXTENSION mediaType else name

def contentDisposition (disposition : Disposition) (originalName : Option Name) (mediaType : FileMediaType) : Name :=
  let name := shownName nfc originalName mediaType
  disposition.text ++ "; filename=\"".toList ++ name.map asciiChar ++ "\"; filename*=UTF-8''".toList ++
    (utf8 name).flatMap encodeByte

def hexValue (c : Char) : Option Nat :=
  if between 0x30 0x39 c then some (c.toNat - 0x30)
  else if between 0x41 0x46 c then some (c.toNat - 0x37)
  else none

def percentDecode : Name → Option (List UInt8)
  | [] => some []
  | '%' :: high :: low :: rest => do
    let h ← hexValue high
    let l ← hexValue low
    let bytes ← percentDecode rest
    some (UInt8.ofNat (16 * h + l) :: bytes)
  | c :: rest =>
    if c = '%' ∨ 0x80 ≤ c.toNat then none
    else (percentDecode rest).map (UInt8.ofNat c.toNat :: ·)

def decodeUtf8 (bytes : List UInt8) : Option Name := bytes.toByteArray.utf8Decode?.map Array.toList

def strip (start : String) (s : Name) : Option Name := if start.toList.isPrefixOf s then some (s.drop start.toList.length) else none

/-- The type, the quoted fallback and the extended value; a quoted string ends at its first quote. -/
def readHeader (header : Name) : Option (Name × Name × Name) := do
  let type := header.takeWhile (· ≠ ';')
  let rest ← strip "; filename=\"" (header.drop type.length)
  let fallback := rest.takeWhile (· ≠ '"')
  let extended ← strip "\"; filename*=UTF-8''" (rest.drop fallback.length)
  some (type, fallback, extended)

end NawaraCore.FileName
