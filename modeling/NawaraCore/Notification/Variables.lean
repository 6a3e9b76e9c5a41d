import NawaraCore.Lib.Calendar
import NawaraCore.Lib.Json
import NawaraCore.Notification.Intake

/-!
# Template variables

The variables of a template version, the check of the values of a send against every pinned
version, and their split into plain data and secrets. Objects are ordinary objects: a read or
an `in` also finds the names of `Object.prototype`.
-/

namespace NawaraCore.Templates

open Notification (VariableType VariableSpec)

abbrev Text := List Nat

def objectPrototype : List Text :=
  ["constructor", "__defineGetter__", "__defineSetter__", "hasOwnProperty", "__lookupGetter__", "__lookupSetter__", "isPrototypeOf", "propertyIsEnumerable",
    "toString", "valueOf", "__proto__", "toLocaleString"].map codes

/-- What a property holds: a value of a document, or a function or an object of the prototype. -/
inductive Slot
  | json (j : Json)
  | inherited

def get (object : Members) (name : Text) : Option Slot := match object.lookup name with
  | some j => some (.json j)
  | none => if name ∈ objectPrototype then some .inherited else none

def present (object : Members) (name : Text) : Option Slot := match get object name with
  | some (.json .null) => none
  | slot => slot

/-- `object[name] = value` on an object without the property; `__proto__` is a setter. -/
def setOwn {β : Type} (object : List (Text × β)) (name : Text) (value : β) : List (Text × β) :=
  if name = codes "__proto__" then object else object ++ [(name, value)]

def stringOf : Json → Text
  | .null => codes "null"
  | .bool true => codes "true"
  | .bool false => codes "false"
  | .num n => match n with
    | .other text false => text
    | n => Json.numberText n
  | .str s => s
  | .arr items => [44].intercalate (itemStrings items)
  | .obj _ => codes "[object Object]"
where
  itemStrings : List Json → List Text
    | [] => []
    | .null :: items => [] :: itemStrings items
    | j :: items => stringOf j :: itemStrings items

structure Values where
  members : Members
  keys : (members.map Prod.fst).Nodup

abbrev VariableSchema := List (Text × VariableSpec)

def variableName (name : Text) : Bool := isToken (fun c => isLower c || isUpper c) isAlnum 0 63 name

def needsMaxLength : VariableType → Bool
  | .string | .code | .url => true
  | .integer | .datetime => false

def mayBeSecret : VariableType → Bool
  | .string | .code => true
  | .integer | .datetime | .url => false

def MAX_VARIABLE_LENGTH : Nat := 2048

def validateVariableSchema (schema : VariableSchema) : Bool := schema.all fun (name, spec) =>
  variableName name && (!spec.secret || mayBeSecret spec.type) &&
    (if needsMaxLength spec.type then spec.maxLength.any fun n => decide (1 ≤ n ∧ n ≤ MAX_VARIABLE_LENGTH) else spec.maxLength.isNone)

structure PublishedVariables where
  schema : VariableSchema
  keys : (schema.map Prod.fst).Nodup
  valid : validateVariableSchema schema = true

def inSchema (schema : VariableSchema) (name : Text) : Bool := (schema.lookup name).isSome || name ∈ objectPrototype

def secret (schema : VariableSchema) (name : Text) : Bool := (schema.lookup name).any VariableSpec.secret

/-! ## Values -/

def control (c : Nat) : Bool := c < 32 || c = 127

def digitsOf (s : Text) : Option Nat := if s.all isDigit then some (s.foldl (fun n c => 10 * n + (c - 48)) 0) else none

/-- The end of a date-time: `Z`, after up to three digits of a fraction. -/
def fractionEnd : Text → Bool
  | [90] => true
  | 46 :: rest => rest.length ≤ 4 && 2 ≤ rest.length && (rest.take (rest.length - 1)).all isDigit && rest.getLast? = some 90
  | _ => false

def isoUtc (s : Text) : Bool :=
  match digitsOf (s.take 4), digitsOf ((s.drop 5).take 2), digitsOf ((s.drop 8).take 2), digitsOf ((s.drop 11).take 2), digitsOf ((s.drop 14).take 2),
    digitsOf ((s.drop 17).take 2) with
  | some year, some month, some day, some hour, some minute, some second =>
    20 ≤ s.length && s[4]? = some 45 && s[7]? = some 45 && s[10]? = some 84 && s[13]? = some 58 && s[16]? = some 58 && fractionEnd (s.drop 19) &&
      decide (1 ≤ month ∧ month ≤ 12 ∧ 1 ≤ day ∧ (day : Int) ≤ Calendar.monthLength (12 * year + month) ∧ hour ≤ 23 ∧ minute ≤ 59 ∧ second ≤ 59)
  | _, _, _, _, _, _ => false

def safeInteger : JsNumber → Bool
  | .int n => n.natAbs ≤ 9007199254740991
  | .other _ _ => false

def shown : Option Nat → Text
  | some n => codes (toString n)
  | none => codes "undefined"

section
variable (protocol : Text → Option Text)

/-- `protocol` is `new URL(v).protocol`, or the failure of the parser. -/
def valueProblem (spec : VariableSpec) (v : Slot) : Option Text := match spec.type, v with
  | .string, .json (.str s) =>
    if s.length < 1 ∨ s.length > spec.maxLength.getD 0 then some (codes "must be 1-" ++ shown spec.maxLength ++ codes " characters")
    else if s.any control then some (codes "must not contain control characters")
    else none
  | .code, .json (.str s) =>
    if s.length > spec.maxLength.getD 0 ∨ ¬ (s ≠ [] ∧ s.all isAlnum) then some (codes "must be 1-" ++ shown spec.maxLength ++ codes " letters or digits")
    else none
  | .string, _ | .code, _ => some (codes "must be a string")
  | .integer, .json (.num n) => if safeInteger n then none else some (codes "must be an integer")
  | .integer, _ => some (codes "must be an integer")
  | .datetime, .json (.str s) => if isoUtc s then none else some (codes "must be an ISO 8601 UTC date-time")
  | .datetime, _ => some (codes "must be an ISO 8601 UTC date-time")
  | .url, .json (.str s) =>
    if s.length > spec.maxLength.getD 0 then some (codes "must be a URL of at most " ++ shown spec.maxLength ++ codes " characters")
    else if protocol s = some (codes "https:") ∧ ¬ s.any control then none
    else some (codes "must be an https URL")
  | .url, _ => some (codes "must be a URL of at most " ++ shown spec.maxLength ++ codes " characters")

inductive ProblemSource
  | template | data

structure Problem where
  text : Text
  source : ProblemSource

def variableValueProblems (schema : VariableSchema) (values : Members) : List Problem :=
  (schema.filterMap fun (name, spec) => match present values name with
    | none => if spec.required then some ⟨name ++ codes ": is required", .template⟩ else none
    | some v => (valueProblem protocol spec v).map fun p => ⟨name ++ codes ": " ++ p, .template⟩) ++
    (values.filter fun m => ¬ inSchema schema m.1).map fun m => ⟨m.1 ++ codes ": is not a variable of this template", .data⟩

structure TemplateData where
  data : Members
  secrets : List (Text × Text)

def isNull : Json → Bool
  | .null => true
  | _ => false

def splitOne (schema : VariableSchema) (d : TemplateData) (m : Text × Json) : TemplateData :=
  if isNull m.2 then d
  else if secret schema m.1 then { d with secrets := setOwn d.secrets m.1 (stringOf m.2) }
  else { d with data := setOwn d.data m.1 m.2 }

def split (schema : VariableSchema) (values : Members) : TemplateData := values.foldl (splitOne schema) ⟨[], []⟩

def send (first : PublishedVariables) (rest : List PublishedVariables) (values : Members) : Except (List Problem) TemplateData :=
  match (first :: rest).find? fun v => variableValueProblems protocol v.schema values ≠ [] with
  | some v => .error (variableValueProblems protocol v.schema values)
  | none => .ok (split first.schema values)

def recombine (d : TemplateData) (name : Text) : Option Json := match d.secrets.lookup name with
  | some s => some (.str s)
  | none => d.data.lookup name

end

end NawaraCore.Templates
