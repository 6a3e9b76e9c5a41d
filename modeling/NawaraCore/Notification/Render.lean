import Mathlib.Data.List.Infix
import NawaraCore.Notification.Variables

/-!
# Template contents

The publish check of a template version, the size of an SMS, and the renderer. A text is its
UTF-16 code units; a unit of a surrogate pair is in no GSM alphabet, and neither is the pair.
-/

namespace NawaraCore.Templates

open Notification (DeliveryChannel VariableType VariableSpec)

/-- A unit of a text, or a match of `PLACEHOLDER`. -/
inductive Token
  | lit (c : Nat)
  | slot (name : Text)

def brace (c : Nat) : Bool := c = 123 || c = 125

def readSlot : Text → Option (Text × Text)
  | 123 :: 123 :: rest => match rest.dropWhile fun c => !brace c with
    | 125 :: 125 :: after => some (rest.takeWhile fun c => !brace c, after)
    | _ => none
  | _ => none

def tokensFrom : Nat → Text → List Token
  | fuel + 1, c :: cs => match readSlot (c :: cs) with
    | some (name, after) => .slot name :: tokensFrom fuel after
    | none => .lit c :: tokensFrom fuel cs
  | _, _ => []

def tokens (text : Text) : List Token := tokensFrom text.length text

def Token.fill (fill : Text → Text) : Token → Text
  | .lit c => [c]
  | .slot name => fill name

def substitute (text : Text) (fill : Text → Text) : Text := (tokens text).flatMap (Token.fill fill)

def slotName : Token → Option Text
  | .lit _ => none
  | .slot name => some name

def slots (text : Text) : List Text := (tokens text).filterMap slotName

structure ParsedTemplateText where
  names : List Text
  invalid : List Text
  unbalanced : Bool

def parsePlaceholders (text : Text) : ParsedTemplateText where
  names := (slots text).filter variableName
  invalid := (slots text).filter fun n => ¬ variableName n
  unbalanced :=
    let rest := substitute text fun _ => []
    [123, 123] <:+: rest ∨ [125, 125] <:+: rest ∨ [123, 123, 123] <:+: text ∨ [125, 125, 125] <:+: text

def GSM_BASIC : Text :=
  codes "@£$¥èéùìòÇ\nØø\rÅåΔ_ΦΓΛΩΠΨΣΘΞÆæßÉ !\"#¤%&'()*+,-./0123456789:;<=>?¡ABCDEFGHIJKLMNOPQRSTUVWXYZÄÖÑÜ§¿abcdefghijklmnopqrstuvwxyzäöñüà"

def GSM_EXTENSION : Text := codes "^\x7b\x7d\\[~]|€\x0c"

inductive Encoding
  | gsm7 | ucs2

structure SmsSize where
  encoding : Encoding
  units : Nat
  segments : Nat

def isGsm (c : Nat) : Bool := GSM_BASIC.contains c || GSM_EXTENSION.contains c

def septets (text : Text) : Nat := (text.map fun c => if GSM_BASIC.contains c then 1 else 2).sum

def gsmSegments (septets : Nat) : Nat := if septets ≤ 160 then 1 else (septets + 152) / 153

def ucs2Segments (units : Nat) : Nat := if units ≤ 70 then 1 else (units + 66) / 67

def smsSize (text : Text) : SmsSize :=
  if text.all isGsm then ⟨.gsm7, septets text, gsmSegments (septets text)⟩ else ⟨.ucs2, text.length, ucs2Segments text.length⟩

/-! ## The publish check -/

def DATETIME_RENDERED_MAX : Nat := 40

def INTEGER_RENDERED_MAX : Nat := 20

structure TemplateVersion where
  channel : DeliveryChannel
  locale : String
  variableSchema : PublishedVariables
  subject : Option Text
  bodyText : Text
  bodyHtml : Option Text
  smsMaxSegments : Option Int

def worstCase (spec : VariableSpec) : Text := match spec.type with
  | .code => List.replicate (spec.maxLength.getD 0) 88
  | .integer => List.replicate INTEGER_RENDERED_MAX 57
  | .url => List.replicate (spec.maxLength.getD 0) 126
  | .datetime => List.replicate DATETIME_RENDERED_MAX 1593
  | .string => List.replicate (spec.maxLength.getD 0) 1593

def lineBreak (c : Nat) : Bool := c = 13 || c = 10

inductive ContentError
  | bodyText
  | subject
  | htmlLength
  | html (what : String)
  | segmentsForSmsOnly
  | smsBodyOnly
  | smsMaxSegments
  | placeholder (name : Text)
  | unbalanced
  | undeclared (name : Text)
  | unused (name : Text)
  | worstCase (size : SmsSize)

def worstText (v : TemplateVersion) : Text :=
  substitute v.bodyText fun n => ((v.variableSchema.schema.lookup n).map worstCase).getD []

def checkChannel (htmlForbidden : Text → List String) (v : TemplateVersion) : List ContentError := match v.channel with
  | .email =>
    (if v.subject.all fun s => s = [] ∨ s.length > 255 ∨ s.any lineBreak then [.subject] else []) ++
      (match v.bodyHtml with
      | none => []
      | some h => (if h.length < 1 ∨ h.length > 65536 then [.htmlLength] else []) ++ (htmlForbidden h).map .html) ++
      if v.smsMaxSegments.isSome then [.segmentsForSmsOnly] else []
  | .sms =>
    (if v.subject.isSome ∨ v.bodyHtml.isSome then [.smsBodyOnly] else []) ++
      if v.smsMaxSegments.all fun n => n < 1 ∨ n > 10 then [.smsMaxSegments] else []

def parts (v : TemplateVersion) : List Text := v.subject.toList ++ v.bodyText :: v.bodyHtml.toList

def checkNames (v : TemplateVersion) : List ContentError :=
  let parsed := (parts v).map parsePlaceholders
  let used := parsed.flatMap ParsedTemplateText.names
  let declared := v.variableSchema.schema.map Prod.fst
  (parsed.flatMap fun p => p.invalid.map .placeholder ++ if p.unbalanced then [.unbalanced] else []) ++
    (used.filter fun n => n ∉ declared).map .undeclared ++ (declared.filter fun n => n ∉ used ∧ variableName n).map .unused

def checkContent (htmlForbidden : Text → List String) (v : TemplateVersion) : List ContentError :=
  let errors := (if v.bodyText.length < 1 ∨ v.bodyText.length > 16384 then [.bodyText] else []) ++ checkChannel htmlForbidden v ++ checkNames v
  errors ++ match v.channel, v.smsMaxSegments, errors with
    | .sms, some n, [] => if (smsSize (worstText v)).segments > n then [.worstCase (smsSize (worstText v))] else []
    | _, _, _ => []

/-! ## The renderer -/

inductive RenderError
  | renderFailed | contentTooLong
  deriving DecidableEq

structure RenderedMessage where
  channel : DeliveryChannel
  destination : Text
  subject : Option Text
  text : Text
  html : Option Text
  deriving DecidableEq

def escapeUnit (c : Nat) : Text :=
  if c = 38 then codes "&amp;"
  else if c = 60 then codes "&lt;"
  else if c = 62 then codes "&gt;"
  else if c = 34 then codes "&quot;"
  else if c = 39 then codes "&#39;"
  else [c]

def escapeHtml (s : Text) : Text := s.flatMap escapeUnit

/-- How `Intl` prints a date-time for the configured zone and the version's locale; `none` is an invalid date. -/
structure DateTimeFormat where
  format : Text → Option Text
  valid : ∀ s, isoUtc s = true → ∃ t, format s = some t ∧ t.length ≤ DATETIME_RENDERED_MAX ∧ ∀ c ∈ t, lineBreak c = false

section
variable (intl : DateTimeFormat) (v : TemplateVersion) (values : Members)

def textOf (name : Text) : Except RenderError Text := match v.variableSchema.schema.lookup name with
  | none => .error .renderFailed
  | some spec => match present values name with
    | none => if spec.required then .error .renderFailed else .ok []
    | some value => match spec.type, value with
      | .datetime, .json (.str s) => match intl.format s with
        | none => .error .renderFailed
        | some t => if t.length > DATETIME_RENDERED_MAX then .error .renderFailed else .ok t
      | .datetime, _ => .error .renderFailed
      | .integer, .json (.num n) => if safeInteger n then .ok (Json.numberText n) else .error .renderFailed
      | .integer, _ => .error .renderFailed
      | type, .json (.str s) =>
        if spec.maxLength.any fun n => s.length > n then .error .renderFailed
        else if type = .url ∧ ¬ codes "https://" <+: s then .error .renderFailed
        else .ok s
      | _, _ => .error .renderFailed

/-- `substitute` with a function that may throw. -/
def fillTokens (fill : Text → Except RenderError Text) : List Token → Except RenderError Text
  | [] => .ok []
  | .lit c :: rest => (fillTokens fill rest).map (c :: ·)
  | .slot name :: rest => (fill name).bind fun s => (fillTokens fill rest).map (s ++ ·)

def substituteM (text : Text) (fill : Text → Except RenderError Text) : Except RenderError Text := fillTokens fill (tokens text)

def renderPart (part : Option Text) (fill : Text → Except RenderError Text) : Except RenderError (Option Text) := match part with
  | none => .ok none
  | some text => (substituteM text fill).map some

def render (destination : Text) : Except RenderError RenderedMessage := do
  let subject ← renderPart v.subject (textOf intl v values)
  if subject.any fun s => s.any lineBreak then .error .renderFailed
  let body ← substituteM v.bodyText (textOf intl v values)
  let html ← renderPart v.bodyHtml fun n => (textOf intl v values n).map escapeHtml
  if v.channel = .sms ∧ (smsSize body).segments > v.smsMaxSegments.getD 1 then .error .contentTooLong
  return ⟨v.channel, destination, subject, body, html⟩

end

end NawaraCore.Templates
