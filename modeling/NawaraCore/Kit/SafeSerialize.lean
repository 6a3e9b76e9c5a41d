import NawaraCore.Audit.Contract
import NawaraCore.Notification.Variables

/-!
# The safe serializer

Any graph of objects as plain, bounded, redacted data. An object is what its reflection
answers: the descriptors of its properties, which a proxy may refuse to give, and never
what its getters or methods do.
-/

namespace NawaraCore.SafeSerialize

open Audit (Text lowerCase includes camelSpaced)
open Templates (objectPrototype)
open Calendar (monthIndex monthStart)

def REDACTED : Text := codes "[redacted]"

def MAX_DEPTH : Nat := 6

def MAX_STRING : Nat := 2000

def MAX_ITEMS : Nat := 50

def MAX_KEYS : Nat := 50

def MAX_KEY_LENGTH : Nat := 128

def MAX_SCRUB_INPUT : Nat := 64 * 1024

def normalize (key : Text) : Text := (key.flatMap lowerCase).filter fun c => isLower c || isDigit c

/-- A blank before the last of several upper-case letters that a lower-case one follows. -/
def acronymSpaced : Text → Text
  | c :: d :: e :: es =>
    if isUpper c && isUpper d && isLower e then c :: 32 :: acronymSpaced (d :: e :: es) else c :: acronymSpaced (d :: e :: es)
  | cs => cs

def words (key : Text) : List Text :=
  ((((acronymSpaced (camelSpaced key)).flatMap lowerCase).splitOnP fun c => !(isLower c || isDigit c)).filter (· ≠ []))

def SECRET_PARTS : List String :=
  ["password", "passwd", "secret", "token", "jwt", "authorization", "cookie", "apikey", "credential", "privatekey", "signature", "pepper",
    "connectionstring", "challenge", "sessionid"]

def SECRET_WORDS : List String := ["otp", "totp", "dsn"]

def OPERATIONAL_CODES : List String :=
  ["statuscode", "errorcode", "providercode", "failurecode", "reasoncode", "exitcode", "taxcode", "productcode", "currencycode", "countrycode"]

def ALLOWED_KEYS : List String := ["challengeid"]

def PII_PARTS : List String :=
  ["email", "phone", "msisdn", "ipaddress", "clientaddress", "remoteaddress", "useragent", "recipient", "fullname", "firstname", "lastname",
    "displayname"]

def PII_WORDS : List String := ["ip", "address", "destination", "contact"]

def isSensitiveKey (key : Text) : Bool :=
  let n := normalize key
  if ALLOWED_KEYS.any fun k => n = codes k then false
  else if codes "code" <:+ n then !OPERATIONAL_CODES.any fun k => n = codes k
  else if (SECRET_PARTS ++ PII_PARTS).any fun p => includes n (codes p) then true
  else (words key).any fun w => (SECRET_WORDS ++ PII_WORDS).any fun k => w = codes k

abbrev Ref := Nat

inductive Value
  | text (s : Text)
  | number (n : JsNumber)
  | boolean (b : Bool)
  | bigint (n : Int)
  | undefined
  | symbol
  | function (body : Nat)
  | null
  | object (r : Ref)

/-- What `getOwnPropertyDescriptor` gives, or that it throws; `get` is what the getter returns, if it does. -/
inductive Descriptor
  | absent
  | threw
  | data (v : Value)
  | accessor (get : Option Value)

/-- What the checks of `serializeObject` find. Of each prototype of an error, `constructors` has the name of its constructor, if
that is a function; what is `hostile` refuses its prototype, or is not what its prototype says. -/
inductive Kind
  | error (constructors : List (Option (Option Text))) (aggregate : Bool)
  | date (time : Option Int)
  | binary (bytes : Nat)
  | map (size : Nat)
  | set (size : Nat)
  | array
  | record
  | hostile (array : Bool)

/-- `keys` is what `Object.keys` gives, unless it throws. -/
structure Node where
  kind : Kind
  keys : Option (List Text)
  property : Text → Descriptor

abbrev Graph := Ref → Node

/-- `none` is an exception here and in what uses it. -/
def dataOf (owner : Node) (key : Text) : Option Value := match owner.property key with
  | .threw => none
  | .data v => some v
  | _ => some .undefined

def natural : Value → Nat
  | .number (.int n) => n.toNat
  | _ => 0

def lengthOf (a : Node) : Option Nat := do
  let length ← dataOf a (codes "length")
  some (natural length)

/-! ## Errors -/

/-- The facts of a stand-in; `message` is `none` when it is a number. -/
structure Own where
  className : Text
  name : Option Text
  code : Option Text
  message : Option Text

inductive StandIn
  | mk (own : Own) (errors : List StandIn)

def Kind.isError : Kind → Bool
  | .error _ _ => true
  | _ => false

def Kind.isAggregate : Kind → Bool
  | .error _ aggregate => aggregate
  | _ => false

def className (e : Node) : Option Text := match e.kind with
  | .error constructors _ => ((constructors.take 10).findSome? id).bind id
  | _ => none

def nameOf (aggregate : Bool) : Value → Option Text
  | .text s => some s
  | .number _ => none
  | _ => some (codes (if aggregate then "AggregateError" else "Error"))

def codeOf : Value → Option Text
  | .text s => some s
  | _ => none

def messageOf : Value → Option Text
  | .text s => some s
  | .number _ => none
  | _ => some []

def ownFacts (e : Node) (aggregate : Bool) : Option Own := do
  let name ← dataOf e (codes "name")
  let code ← dataOf e (codes "code")
  let message ← dataOf e (codes "message")
  some ⟨(className e).getD (codes "Error"), nameOf aggregate name, codeOf code, messageOf message⟩

def Kind.isArray : Kind → Bool
  | .array | .hostile true => true
  | _ => false

/-- The array whose elements an aggregate's stand-in takes. -/
def nestedOf (G : Graph) (e : Node) : Value → Option Ref
  | .object r => if e.kind.isAggregate && (G r).kind.isArray then some r else none
  | _ => none

/-- An element as `slice` reads it: its getter is called. -/
def element (a : Node) (i : Nat) : Option Value := match a.property (codes (toString i)) with
  | .absent => some .undefined
  | .threw => none
  | .data v => some v
  | .accessor get => get

def nestedError (G : Graph) (standIn : Node → Option StandIn) : Value → Option (Option StandIn)
  | .object r => match (G r).kind with
    | .error _ _ => (standIn (G r)).map some
    | .hostile _ => none
    | _ => some none
  | _ => some none

/-- The first argument is how many levels of nested errors are still taken. -/
def standIn (G : Graph) : Nat → Node → Option StandIn
  | 0, e => do
    let _ ← dataOf e (codes "errors")
    let own ← ownFacts e false
    some (.mk own [])
  | levels + 1, e => do
    let nested ← dataOf e (codes "errors")
    match nestedOf G e nested with
    | none =>
      let own ← ownFacts e false
      some (.mk own [])
    | some a =>
      let length ← lengthOf (G a)
      let errors ← (List.range (min length 10)).mapM fun i => do
        let v ← element (G a) i
        nestedError G (standIn G levels) v
      let own ← ownFacts e true
      some (.mk own (errors.filterMap id))

/-- `TOKEN`. -/
def token (t : Option Text) : Option Text :=
  t.filter fun s => decide (1 ≤ s.length ∧ s.length ≤ 64) && s.all fun c => isAlnum c || oneOf "_.-" c

def BY_SQLSTATE : List (String × String) :=
  [("57014", "db_statement_timeout"), ("25P03", "db_idle_in_transaction_timeout"), ("57P01", "db_connection_lost"),
    ("57P02", "db_connection_lost"), ("57P03", "db_unavailable"), ("53300", "db_unavailable"), ("28P01", "db_auth_failed"),
    ("28000", "db_auth_failed"), ("40001", "db_serialization_failure"), ("40P01", "db_deadlock")]

def BY_SYSTEM_CODE : List (String × String) :=
  ["ECONNREFUSED", "ENOTFOUND", "EAI_AGAIN", "EHOSTUNREACH", "ENETUNREACH", "ETIMEDOUT", "ECONNRESET"].map (·, "network_unreachable")

def BY_PG_MESSAGE : List (String × String) :=
  [("timeout exceeded when trying to connect", "db_connect_timeout"),
    ("Connection terminated due to connection timeout", "db_connect_timeout"),
    ("Client has encountered a connection error and is not queryable", "db_connection_lost"),
    ("Connection terminated unexpectedly", "db_connection_lost"), ("Query read timeout", "db_query_timeout")]

def BY_BROKER_MESSAGE : List String :=
  ["Heartbeat timeout", "Channel ended, no reply will be forthcoming", "Channel closed", "channel closed", "Connection closed ("]

/-- `table[code]` as it is printed: a method that the table inherits is there, and is not printed. -/
def entry (table : List (String × String)) (code : Text) : Option (Option Json) :=
  match table.find? fun p => codes p.1 = code with
  | some p => some (some (.str (codes p.2)))
  | none =>
    if code = codes "__proto__" then some (some (.obj [])) else if code ∈ objectPrototype then some none else none

mutual
def representativeError : StandIn → Own
  | .mk own errors => (firstKnown errors).getD own

def firstKnown : List StandIn → Option Own
  | [] => none
  | e :: es =>
    let candidate := representativeError e
    if ((token candidate.code).bind (entry BY_SYSTEM_CODE)).isSome then some candidate else firstKnown es
end

def classOf (e : Own) : Text :=
  let cls := ((token (some e.className)).or (token e.name)).getD (codes "Error")
  match token e.name with
  | some name => if cls = codes "Error" ∧ name ≠ codes "error" then name else cls
  | none => cls

def kindOf (e : Own) : Option (Option Json) := match token e.code with
  | some code => some (((entry BY_SQLSTATE code).or (entry BY_SYSTEM_CODE code)).bind id)
  | none =>
    if classOf e = codes "PublisherConfirmTimeoutError" then some (some (.str (codes "broker_confirm_timeout")))
    else match e.message with
      | none => none
      | some m => match BY_PG_MESSAGE.find? fun p => codes p.1 = m with
        | some p => some (some (.str (codes p.2)))
        | none =>
          if BY_BROKER_MESSAGE.any fun b => m = codes b ∨ (codes "(" <:+ codes b ∧ codes b <+: m) then
            some (some (.str (codes "broker_connection_lost")))
          else some none

def failureFacts : StandIn → Option Members
  | .mk own errors => do
    let kind ← kindOf own
    let shown := representativeError (.mk own errors)
    let code := (token shown.code).or (token own.code)
    some ((codes "errorType", .str (classOf shown)) :: (code.map fun c => (codes "errorCode", Json.str c)).toList ++
      (kind.map fun k => (codes "errorKind", k)).toList)

def errorFacts (G : Graph) (e : Node) : Option Json := do
  let s ← standIn G 2 e
  let facts ← failureFacts s
  some (.obj facts)

/-! ## The walk -/

def digits (width n : Nat) : String := "".pushn '0' (width - (toString n).length) ++ toString n

def toISOString (time : Int) : Text :=
  let day := time / 86400000
  let month := monthIndex day
  let year := (month - 1) / 12
  let ms := (time % 86400000).toNat
  let y := if 0 ≤ year ∧ year ≤ 9999 then digits 4 year.toNat else (if year < 0 then "-" else "+") ++ digits 6 year.natAbs
  codes (y ++ "-" ++ digits 2 ((month - 1) % 12 + 1).toNat ++ "-" ++ digits 2 (day - monthStart month + 1).toNat ++ "T" ++
    digits 2 (ms / 3600000) ++ ":" ++ digits 2 (ms / 60000 % 60) ++ ":" ++ digits 2 (ms / 1000 % 60) ++ "." ++ digits 3 (ms % 1000) ++ "Z")

section
variable (TEXT_RULES : List (Text → Text))

def scrubText (text : Text) (max : Nat) : Text := (TEXT_RULES.foldl (fun s r => r s) (text.take MAX_SCRUB_INPUT)).take max

/-- `out[name] = v` -/
def assign (out : Members) (name : Text) (v : Json) : Members :=
  if out.any fun m => m.1 = name then out.map fun m => if m.1 = name then (name, v) else m else out ++ [(name, v)]

section
variable (serialize : Value → Option Json)

def member (owner : Node) (key : Text) : Option Json := match owner.property key with
  | .threw => some (.str (codes "[unserializable]"))
  | .absent => none
  | .accessor _ => some (.str (codes "[accessor]"))
  | .data v => serialize v

def serializeArray (a : Node) : Option Json := do
  let length ← lengthOf a
  let out := (List.range (min length MAX_ITEMS)).map fun i => (member serialize a (codes (toString i))).getD .null
  some (.arr (out ++ if MAX_ITEMS < length then [.str (codes ("[+" ++ toString (length - MAX_ITEMS) ++ " items]"))] else []))

/-- The body of the loop over the keys. -/
def serializeKey (o : Node) (out : Members) (key : Text) : Members :=
  let name := scrubText TEXT_RULES key MAX_KEY_LENGTH
  if isSensitiveKey key then assign out name (.str REDACTED)
  else match member serialize o key with
    | some v => assign out name v
    | none => out

def serializeRecord (o : Node) : Option Json := do
  let keys ← o.keys
  let out := (keys.take MAX_KEYS).foldl (serializeKey TEXT_RULES serialize o) []
  some (.obj (if MAX_KEYS < keys.length then assign out (codes "[+keys]") (.num (.int (keys.length - MAX_KEYS))) else out))

end

def serializeObject (G : Graph) (value : Node) (container : Option Json) : Option Json := match value.kind with
  | .hostile _ => none
  | .error _ _ => errorFacts G value
  | .date time => some (.str ((time.map toISOString).getD (codes "[invalid date]")))
  | .binary bytes => some (.str (codes ("[binary " ++ toString bytes ++ " bytes]")))
  | .map size => some (.str (codes ("[Map " ++ toString size ++ "]")))
  | .set size => some (.str (codes ("[Set " ++ toString size ++ "]")))
  | .array | .record => container

/-- `depth` is what is left of `MAX_DEPTH`, and `path` the objects that are being read. -/
def serialize (G : Graph) (depth : Nat) (path : List Ref) : Value → Option Json
  | .text s => some (.str (scrubText TEXT_RULES s MAX_STRING))
  | .number n => some (match n with
    | .other _ false => .null
    | n => .num n)
  | .boolean b => some (.bool b)
  | .bigint n => some (.str ((codes (toString n)).take 63 ++ codes "n"))
  | .undefined => none
  | .symbol => some (.str (codes "[symbol]"))
  | .function _ => some (.str (codes "[function]"))
  | .null => some .null
  | .object r => some ((serializeObject G (G r) (match depth with
    | 0 => some (.str (codes "[truncated]"))
    | depth + 1 =>
      if r ∈ path then some (.str (codes "[circular]"))
      else match (G r).kind with
        | .array => serializeArray (serialize G depth (r :: path)) (G r)
        | _ => serializeRecord TEXT_RULES (serialize G depth (r :: path)) (G r))).getD (.str (codes "[unserializable]")))

def safeSerialize (G : Graph) (value : Value) : Option Json := serialize TEXT_RULES G MAX_DEPTH [] value

end

end NawaraCore.SafeSerialize
