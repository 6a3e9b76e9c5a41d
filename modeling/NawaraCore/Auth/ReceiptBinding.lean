import NawaraCore.Lib.CanonicalJson

/-!
# The binding of an authorization receipt

What an owner approves, in one of ten shapes, and its canonical text. A request value is what
the code can be handed: its own properties, each with a JSON value, `undefined` or something else.
-/

namespace NawaraCore.Receipts

abbrev Text := List Nat

inductive Property
  | undefined
  | json (j : Json)
  | other

structure Record where
  properties : List (Text × Property)
  distinct : (properties.map Prod.fst).Nodup

inductive Value
  | record (v : Record)
  | other

namespace Record

variable (v : Record)

/-- `k in v`: no inherited property has a field's name. -/
def has (k : String) : Bool := (v.properties.lookup (codes k)).isSome

def get (k : String) : Property := (v.properties.lookup (codes k)).getD .undefined

def is (k s : String) : Bool := match v.get k with
  | .json (.str t) => t = codes s
  | _ => false

end Record

inductive FieldType
  | uuid
  | amount
  | currency
  | reason
  | oneOf (values : List String)
  | boolean

def isCurrency (s : Text) : Bool := s.length = 3 && s.all isUpper

def isReason : Text → Bool := isToken isLower wordChar 0 63

def maxSafeInteger : Int := 9007199254740991

def FieldType.accepts : FieldType → Json → Bool
  | .uuid, .str s => isUuid s
  | .amount, .num (.int n) => 0 < n ∧ n ≤ maxSafeInteger
  | .currency, .str s => isCurrency s
  | .reason, .str s => isReason s
  | .oneOf values, .str s => values.any fun value => codes value = s
  | .boolean, .bool _ => true
  | _, _ => false

/-! ## Operations -/

inductive ReceiptOperation
  | refund | disputeDecision | fraudHoldPlace | fraudHoldRelease | recoverySurplusExternal | lateSettlementApply | providerFactAssociate
  | recoveryWriteOff | recoveryRestrictionSuspend | recoveryRestrictionRevoke
deriving DecidableEq

def ReceiptOperation.name : ReceiptOperation → String
  | .refund => "refund"
  | .disputeDecision => "dispute_decision"
  | .fraudHoldPlace => "fraud_hold_place"
  | .fraudHoldRelease => "fraud_hold_release"
  | .recoverySurplusExternal => "recovery_surplus_external"
  | .lateSettlementApply => "late_settlement_apply"
  | .providerFactAssociate => "provider_fact_associate"
  | .recoveryWriteOff => "recovery_write_off"
  | .recoveryRestrictionSuspend => "recovery_restriction_suspend"
  | .recoveryRestrictionRevoke => "recovery_restriction_revoke"

def ReceiptOperation.audience : ReceiptOperation → String
  | .refund | .disputeDecision | .providerFactAssociate => "payment-service"
  | .fraudHoldPlace | .fraudHoldRelease | .recoverySurplusExternal | .lateSettlementApply | .recoveryWriteOff | .recoveryRestrictionSuspend
  | .recoveryRestrictionRevoke => "billing-service"

abbrev Fields := List (String × FieldType)

/-- The fields of a refund that must be given; `legalOverride` and `captureFactId` may be left out. -/
def refundFields : Fields := [("companyId", .uuid), ("refundCaseId", .uuid), ("paymentId", .uuid), ("amount", .amount), ("currency", .currency), ("reason", .reason)]

def disputeFields : Fields := [("companyId", .uuid), ("disputeId", .uuid), ("paymentId", .uuid), ("decision", .oneOf ["contest", "accept"])]

def holdPlaceFields : Fields := [("companyId", .uuid), ("holdId", .uuid), ("beneficiaryUserId", .uuid), ("productId", .uuid), ("reason", .reason)]

def holdReleaseFields : Fields := [("companyId", .uuid), ("holdId", .uuid), ("beneficiaryUserId", .uuid), ("productId", .uuid)]

def surplusFields : Fields := [("companyId", .uuid), ("surplusId", .uuid), ("organizationId", .uuid), ("amount", .amount), ("currency", .currency)]

def lateFields : Fields := [("companyId", .uuid), ("lateSettlementId", .uuid), ("assistanceRequestId", .uuid), ("beneficiaryUserId", .uuid),
  ("reasonCode", .oneOf ["cash_not_returned_attested", "cash_not_returned_evidenced"])]

def associateFields : Fields := [("companyId", .uuid), ("factId", .uuid), ("kind", .oneOf ["capture", "refund", "chargeback"]), ("amount", .amount),
  ("currency", .currency), ("targetType", .oneOf ["payment", "refund_authorization"]), ("targetId", .uuid)]

def writeOffFields : Fields := [("companyId", .uuid), ("obligationId", .uuid), ("organizationId", .uuid), ("amount", .amount), ("currency", .currency)]

def restrictionFields (reasonCode : String) : Fields := [("companyId", .uuid), ("suspensionId", .uuid), ("obligationId", .uuid), ("organizationId", .uuid),
  ("disputeId", .uuid), ("refundCaseId", .uuid), ("reasonCode", .oneOf [reasonCode])]

def ReceiptOperation.fields : ReceiptOperation → Fields
  | .refund => refundFields
  | .disputeDecision => disputeFields
  | .fraudHoldPlace => holdPlaceFields
  | .fraudHoldRelease => holdReleaseFields
  | .recoverySurplusExternal => surplusFields
  | .lateSettlementApply => lateFields
  | .providerFactAssociate => associateFields
  | .recoveryWriteOff => writeOffFields
  | .recoveryRestrictionSuspend => restrictionFields "refund_chargeback_overlap"
  | .recoveryRestrictionRevoke => restrictionFields "owner_reinstated_restriction"

def ReceiptOperation.optional : ReceiptOperation → List String
  | .refund => ["legalOverride", "captureFactId"]
  | _ => []

/-! ## Parsing -/

structure ReceiptBinding where
  operation : ReceiptOperation
  fields : Members

def exactFields (v : Record) (names optional : List String) : Bool :=
  (v.properties.all fun p => (names ++ optional).any fun name => codes name = p.1) && names.all v.has

def readField (v : Record) (f : String × FieldType) : Option (Text × Json) :=
  match v.get f.1 with
  | .json j => if f.2.accepts j then some (codes f.1, j) else none
  | _ => none

def readFields (v : Record) : Fields → Option Members
  | [] => some []
  | f :: fields => match readField v f, readFields v fields with
    | some m, some ms => some (m :: ms)
    | _, _ => none

def parseFields (op : ReceiptOperation) (v : Record) : Option Members :=
  if exactFields v ("operation" :: "audience" :: op.fields.map Prod.fst) op.optional ∧ v.is "operation" op.name ∧ v.is "audience" op.audience then
    readFields v op.fields
  else none

def parseExact (op : ReceiptOperation) (v : Record) : Option ReceiptBinding := (parseFields op v).map (ReceiptBinding.mk op)

def parseDisputeDecision : Record → Option ReceiptBinding := parseExact .disputeDecision

def parseFraudHold (v : Record) : Option ReceiptBinding :=
  if v.is "operation" "fraud_hold_place" then parseExact .fraudHoldPlace v else parseExact .fraudHoldRelease v

def parseSurplusExternal : Record → Option ReceiptBinding := parseExact .recoverySurplusExternal

def parseLateSettlementApply : Record → Option ReceiptBinding := parseExact .lateSettlementApply

def parseProviderFactAssociate : Record → Option ReceiptBinding := parseExact .providerFactAssociate

def parseRecoveryWriteOff : Record → Option ReceiptBinding := parseExact .recoveryWriteOff

def parseRecoveryRestriction (v : Record) : Option ReceiptBinding :=
  if v.is "operation" "recovery_restriction_revoke" then parseExact .recoveryRestrictionRevoke v else parseExact .recoveryRestrictionSuspend v

/-- `legalOverride` is `false` unless given. -/
def legalOverride (v : Record) : Option Json :=
  match v.get "legalOverride" with
  | .undefined => some (.bool false)
  | .json (.bool b) => some (.bool b)
  | _ => none

def captureFact (v : Record) : Option Members :=
  if v.has "captureFactId" then (readField v ("captureFactId", .uuid)).map fun m => [m] else some []

def parseRefund (v : Record) : Option ReceiptBinding :=
  match parseFields .refund v, legalOverride v, captureFact v with
  | some ms, some j, some ms' => some ⟨.refund, ms ++ (codes "legalOverride", j) :: ms'⟩
  | _, _, _ => none

def parseBinding : Value → Option ReceiptBinding
  | .other => none
  | .record v =>
    if v.is "operation" "dispute_decision" then parseDisputeDecision v
    else if v.is "operation" "fraud_hold_place" ∨ v.is "operation" "fraud_hold_release" then parseFraudHold v
    else if v.is "operation" "recovery_surplus_external" then parseSurplusExternal v
    else if v.is "operation" "late_settlement_apply" then parseLateSettlementApply v
    else if v.is "operation" "provider_fact_associate" then parseProviderFactAssociate v
    else if v.is "operation" "recovery_write_off" then parseRecoveryWriteOff v
    else if v.is "operation" "recovery_restriction_suspend" ∨ v.is "operation" "recovery_restriction_revoke" then parseRecoveryRestriction v
    else parseRefund v

def ReceiptBinding.members (b : ReceiptBinding) : Members :=
  (codes "operation", .str (codes b.operation.name)) :: (codes "audience", .str (codes b.operation.audience)) :: b.fields

def canonicalBinding (b : ReceiptBinding) : Option Text := Json.canonicalJson (.obj b.members)

structure Receipt where
  bindingDigest : Text

section
variable (bindingDigest : Option Text → Text)

def issue (b : ReceiptBinding) : Receipt := ⟨bindingDigest (canonicalBinding b)⟩

def consumable (r : Receipt) (caller : String) (value : Value) : Bool :=
  match parseBinding value with
  | none => false
  | some b => b.operation.audience = caller ∧ r.bindingDigest = bindingDigest (canonicalBinding b)

end

end NawaraCore.Receipts
