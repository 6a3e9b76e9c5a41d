import Mathlib.Data.List.Sort

/-!
# Intake of notifications

An event or a request becomes one intent with its deliveries. The variables that the template
marks secret are sealed, the others stored in the plain data.
-/

namespace NawaraCore.Notification

inductive DeliveryChannel
  | email | sms
deriving DecidableEq

inductive VariableType
  | string | integer | datetime | code | url
deriving DecidableEq

structure VariableSpec where
  type : VariableType
  required : Bool
  secret : Bool
  maxLength : Option Nat
deriving DecidableEq

abbrev VariableSchema := List (String × VariableSpec)

structure TemplateVersion where
  id : Nat
  template : String
  channel : DeliveryChannel
  locale : String
  version : Nat
  schema : VariableSchema

def VariableSchema.secret (schema : VariableSchema) (name : String) : Bool := (schema.lookup name).any VariableSpec.secret

structure Active (versions : List TemplateVersion) (v : TemplateVersion) : Prop where
  published : v ∈ versions
  highest : ∀ w ∈ versions, w.template = v.template → w.channel = v.channel → w.locale = v.locale → w.version ≤ v.version

/-- The published templates, as the publication check accepts them: the active versions of a template declare the same variables. -/
structure Catalog where
  versions : List TemplateVersion
  shared : ∀ v w, Active versions v → Active versions w → v.template = w.template → ∀ name, v.schema.lookup name = w.schema.lookup name

structure SealedSecrets where
  ciphertext : String
  keyId : String

structure IntakeConfig (Value : Type) where
  defaultLocale : String
  localeShape : String → Bool
  valueProblem : VariableSpec → Value → Bool
  isValidDestination : DeliveryChannel → String → Bool
  text : Value → String
  sealing : List (String × String) → SealedSecrets

def resolveLocale (localeShape : String → Bool) (requested : Option String) (published : List String) (defaultLocale : String) : Option String :=
  let default := if defaultLocale ∈ published then some defaultLocale else none
  match requested with
  | none => default
  | some r =>
    if localeShape r ∧ r.length ≤ 35 then
      let base := ((r.splitOn "-").head?).getD ""
      if r ∈ published then some r else if base ∈ published then some base else default
    else default

/-! ## Rows -/

inductive DeliveryStatus
  | pending | sending | sent | failed | unconfirmed | expired | cancelled
deriving DecidableEq

def DeliveryStatus.terminal : DeliveryStatus → Bool
  | .pending | .sending => false
  | .sent | .failed | .unconfirmed | .expired | .cancelled => true

structure Intent (Value : Type) where
  data : List (String × Value)
  secret : Option SealedSecrets
  expiresAt : Option Int
  cancelledAt : Option Int

structure Delivery where
  id : Nat
  channel : DeliveryChannel
  destination : String
  version : TemplateVersion
  status : DeliveryStatus
  attempts : Nat
  ambiguousResends : Nat
  nextAttemptAt : Option Int
  leaseUntil : Option Int
  started : Option Nat

section
variable {Value : Type} (cfg : IntakeConfig Value) (catalog : Catalog)

/-- The rows of the template for the channel, newest first; the first one of the resolved locale is active. -/
def activeVersion (key : String) (channel : DeliveryChannel) (requestedLocale : Option String) : Option TemplateVersion :=
  let rows := (catalog.versions.filter fun v => v.template = key ∧ v.channel = channel).insertionSort fun v w => w.version ≤ v.version
  match resolveLocale cfg.localeShape requestedLocale (rows.map TemplateVersion.locale) cfg.defaultLocale with
  | none => none
  | some locale => rows.find? fun v => v.locale = locale

def variableValueProblems (schema : VariableSchema) (values : List (String × Option Value)) : Bool :=
  (schema.any fun (name, spec) => match (values.lookup name).join with
    | none => spec.required
    | some v => cfg.valueProblem spec v) ||
    values.any fun (name, _) => (schema.lookup name).isNone

def split (schema : VariableSchema) : List (String × Option Value) → List (String × Value) × List (String × String)
  | [] => ([], [])
  | (_, none) :: values => split schema values
  | (name, some v) :: values =>
    if schema.secret name then ((split schema values).1, (name, cfg.text v) :: (split schema values).2)
    else ((name, v) :: (split schema values).1, (split schema values).2)

def sealSecrets (secrets : List (String × String)) : Option SealedSecrets := if secrets = [] then none else some (cfg.sealing secrets)

def newDelivery (id : Nat) (channel : DeliveryChannel) (destination : String) (version : TemplateVersion) (dueAt : Int) : Delivery :=
  ⟨id, channel, destination, version, .pending, 0, 0, some dueAt, none, none⟩

structure EventIntake (Value : Type) where
  template : String
  channel : DeliveryChannel
  destination : String
  values : List (String × Option Value)
  expiresAt : Option Int

/-- An undeliverable destination ends `FAILED` in the transaction of its intent, and keeps no secret. -/
def handle (now : Int) (e : EventIntake Value) : Option (Intent Value × List Delivery) :=
  match activeVersion cfg catalog e.template e.channel none with
  | none => none
  | some version =>
    if variableValueProblems cfg version.schema e.values then none
    else
      let deliverable := cfg.isValidDestination e.channel e.destination
      let d := newDelivery 0 e.channel e.destination version now
      some (⟨(split cfg version.schema e.values).1, if deliverable then sealSecrets cfg (split cfg version.schema e.values).2 else none, e.expiresAt, none⟩,
        [if deliverable then d else { d with status := .failed, nextAttemptAt := none }])

structure SendRequest (Value : Type) where
  template : String
  locale : Option String
  channel : DeliveryChannel × String
  channels : List (DeliveryChannel × String)
  data : List (String × Option Value)
  scheduledAt : Option Int
  expiresAt : Option Int

def channelVersions (key : String) (locale : Option String) : List (DeliveryChannel × String) → Option (List (DeliveryChannel × String × TemplateVersion))
  | [] => some []
  | (channel, destination) :: channels => match activeVersion cfg catalog key channel locale, channelVersions key locale channels with
    | some version, some rest => some ((channel, destination, version) :: rest)
    | _, _ => none

def send (now : Int) (r : SendRequest Value) : Option (Intent Value × List Delivery) :=
  match channelVersions cfg catalog r.template r.locale (r.channel :: r.channels) with
  | some ((channel, destination, version) :: rest) =>
    let versions := (channel, destination, version) :: rest
    if ¬ (versions.map Prod.fst).Nodup ∨ versions.any (fun v => variableValueProblems cfg v.2.2.schema r.data) ∨
        versions.any (fun v => ¬ cfg.isValidDestination v.1 v.2.1) ∨ r.expiresAt.any (· ≤ now) then none
    else some (⟨(split cfg version.schema r.data).1, sealSecrets cfg (split cfg version.schema r.data).2, r.expiresAt, none⟩,
      versions.mapIdx fun i v => newDelivery i v.1 v.2.1 v.2.2 (r.scheduledAt.getD now))
  | _ => none

end

end NawaraCore.Notification
