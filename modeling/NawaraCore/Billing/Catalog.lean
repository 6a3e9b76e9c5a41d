import NawaraCore.Billing.Subscription
import NawaraCore.Lib.Rows
import NawaraCore.Lib.Transactions

/-!
# The creation of products and prices

Each creation is one transaction at READ COMMITTED. It inserts the row, waits for another
transaction that has inserted the same natural key, and after a unique violation reads the row
that was there. A failed statement leaves the transaction aborted: it refuses everything until it
rolls back to a savepoint or ends. Owners and producers write the same two tables.
-/

namespace NawaraCore.Catalog

open Subscriptions (Uuid IntervalUnit)

inductive PartyType
  | user | organization | company
deriving DecidableEq

inductive EntitlementKind
  | none | organization_license | user_subscription
deriving DecidableEq

inductive SubscriptionTarget
  | none | organization | personal
deriving DecidableEq

inductive Interval
  | one_time | recurring
deriving DecidableEq

structure ProductRow where
  id : Uuid
  producer : String
  sellerType : PartyType
  sellerId : String
  code : String
  name : String
  description : Option String
  entitlementKind : EntitlementKind
  subscriptionTarget : SubscriptionTarget
  platformId : Option Uuid
  archived : Bool

/-- `effectiveFrom` and `retiredAt` are instants in milliseconds. -/
structure PriceRow where
  id : Uuid
  productId : Uuid
  clientReference : String
  currency : String
  unitAmount : Nat
  interval : Interval
  intervalUnit : Option IntervalUnit
  intervalCount : Option Nat
  effectiveFrom : Int
  retiredAt : Option Int

inductive Row
  | product (p : ProductRow)
  | price (p : PriceRow)

/-- The natural keys: `product_code_unique` and `price_reference_unique`. -/
inductive Key
  | product (sellerType : PartyType) (sellerId code : String)
  | price (productId : Uuid) (clientReference : String)
deriving DecidableEq

def Row.key : Row → Key
  | .product p => .product p.sellerType p.sellerId p.code
  | .price p => .price p.productId p.clientReference

def Row.content : Row → Row
  | .product p => .product { p with archived := false }
  | .price p => .price { p with retiredAt := none }

def Row.archive (id : Uuid) : Row → Row
  | .product p => .product (if p.id = id then { p with archived := true } else p)
  | .price p => .price p

/-- `retiredAt` is set once. -/
def Row.retire (id : Uuid) (now : Int) : Row → Row
  | .product p => .product p
  | .price p => .price (if p.id = id ∧ p.retiredAt = none then { p with retiredAt := some now } else p)

structure BillingPlatform where
  platformId : Uuid
  companyId : String
  currency : String

def OWNER_CATALOG_PRODUCER : String := "billing-owner"

structure CreateProductInput where
  sellerType : PartyType
  sellerId : String
  code : String
  name : String
  description : Option String
  entitlementKind : EntitlementKind
  subscriptionTarget : SubscriptionTarget
  platformId : Option Uuid

structure CreatePriceInput where
  productId : Uuid
  clientReference : String
  currency : String
  unitAmount : Nat
  interval : Interval
  intervalUnit : Option IntervalUnit
  intervalCount : Option Nat
  effectiveFrom : Int

structure OwnerProductInput where
  code : String
  name : String
  description : Option String
  entitlementKind : EntitlementKind

structure OwnerPriceInput where
  clientReference : String
  unitAmount : Nat
  intervalUnit : IntervalUnit
  intervalCount : Nat
  effectiveFrom : Int

inductive Call
  | createProduct (producer : String) (input : CreateProductInput)
  | createPrice (caller : String) (input : CreatePriceInput) (supportedCurrencies : List String)
  | ownerProduct (companyId : String) (platformId : Uuid) (input : OwnerProductInput)
  | ownerPrice (companyId : String) (platformId productId : Uuid) (input : OwnerPriceInput) (supportedCurrencies : List String)

inductive Failure
  | billing (status : Nat) (code : String)
  | notFound
  | database (code : String)

def Failure.named : Failure → Bool
  | .database _ => false
  | _ => true

inductive Answer
  | row (r : Row) (changed : Bool)
  | failed (e : Failure)

/-- What an answer was decided on: a call is refused before its insert, or its insert of `row` meets
the row of its key, if any. -/
inductive Decision
  | refused
  | inserts (row : Row) (existing : Option Row)

structure Finished where
  id : Nat
  call : Call
  decision : Decision
  answer : Answer

structure Db where
  rows : List Row
  platforms : List BillingPlatform
  answers : List Finished

def Db.new : Db := ⟨[], [], []⟩

def Db.read (db : Db) (key : Key) : Option Row := db.rows.find? fun r => r.key = key

def Row.productOf (id : Uuid) : Row → Option ProductRow
  | .product p => if p.id = id then some p else none
  | .price _ => none

def Db.product (db : Db) (id : Uuid) : Option ProductRow := db.rows.findSome? (Row.productOf id)

def Db.platform (db : Db) (id : Uuid) : Option BillingPlatform := db.platforms.find? fun b => b.platformId = id

/-- The triggers before an insert: `billing_owner_product_guard` and `billing_price_matches_target`. -/
def Db.before (db : Db) : Row → Option String
  | .product p =>
    if p.producer = OWNER_CATALOG_PRODUCER ∧ ¬ (p.subscriptionTarget = .personal ∧ p.sellerType = .company ∧
        ∃ id ∈ p.platformId, ∃ b ∈ db.platform id, b.companyId = p.sellerId) then some "product_owner_shape" else none
  | .price p =>
    if p.interval ≠ .recurring ∧ ∃ x ∈ db.product p.productId, x.subscriptionTarget ≠ .none then
      some "price_subscription_recurring" else none

/-- The triggers after an insert: `billing_product_platform_configured` and `billing_price_platform_currency`. -/
def Db.after (db : Db) : Row → Option String
  | .product p =>
    if p.subscriptionTarget ≠ .none ∧ (p.platformId.bind db.platform) = none then some "product_platform_configured" else none
  | .price p =>
    if ∃ x ∈ db.product p.productId, x.subscriptionTarget ≠ .none ∧ ∃ b ∈ x.platformId.bind db.platform, b.currency ≠ p.currency then
      some "price_platform_currency" else none

/-! ## Sessions -/

inductive Phase
  | begun
  | insert (row : Row)
  | aborted (row : Row)
  | replay (row : Row)
  | inserted (row : Row)
  | answered (decision : Decision) (answer : Answer)

/-- `lock` is the product that the transaction holds `FOR NO KEY UPDATE`. -/
structure Session where
  call : Call
  lock : Option Uuid
  phase : Phase

def Session.holds (id : Uuid) (x : Session) : Bool := x.lock = some id

def Session.inserted (key : Key) (x : Session) : Bool :=
  match x.phase with
  | .inserted row => row.key = key
  | _ => false

def Session.moveTo (x : Session) (phase : Phase) : Reply Session := .next { x with phase }

def Session.refuse (x : Session) (e : Failure) : Reply Session := x.moveTo (.answered .refused (.failed e))

def productRow (id : Uuid) (producer : String) (i : CreateProductInput) : ProductRow where
  id
  producer
  sellerType := i.sellerType
  sellerId := i.sellerId
  code := i.code
  name := i.name
  description := i.description
  entitlementKind := i.entitlementKind
  subscriptionTarget := i.subscriptionTarget
  platformId := i.platformId
  archived := false

def priceRow (id : Uuid) (i : CreatePriceInput) : PriceRow where
  id
  productId := i.productId
  clientReference := i.clientReference
  currency := i.currency
  unitAmount := i.unitAmount
  interval := i.interval
  intervalUnit := i.intervalUnit
  intervalCount := i.intervalCount
  effectiveFrom := i.effectiveFrom
  retiredAt := none

def ownerProductRow (id : Uuid) (companyId : String) (platformId : Uuid) (i : OwnerProductInput) : ProductRow where
  id
  producer := OWNER_CATALOG_PRODUCER
  sellerType := .company
  sellerId := companyId
  code := i.code
  name := i.name
  description := i.description
  entitlementKind := i.entitlementKind
  subscriptionTarget := .personal
  platformId := some platformId
  archived := false

def ownerPriceRow (id productId : Uuid) (currency : String) (i : OwnerPriceInput) : PriceRow where
  id
  productId
  clientReference := i.clientReference
  currency
  unitAmount := i.unitAmount
  interval := .recurring
  intervalUnit := some i.intervalUnit
  intervalCount := some i.intervalCount
  effectiveFrom := i.effectiveFrom
  retiredAt := none

def Db.ownerPlatform (db : Db) (companyId : String) (platformId : Uuid) : Except Failure BillingPlatform :=
  match db.platform platformId with
  | none => .error (.billing 409 "platform_not_configured")
  | some b => if b.companyId ≠ companyId then .error .notFound else .ok b

def Session.begin (db : Db) (others : (Session → Bool) → Bool) (n : Nat) (x : Session) : Reply Session :=
  match x.call with
  | .createProduct producer input => x.moveTo (.insert (.product (productRow n producer input)))
  | .createPrice caller input supportedCurrencies =>
    if input.currency ∉ supportedCurrencies then x.refuse (.billing 422 "unsupported_currency")
    else if others (Session.holds input.productId) then .wait
    else match db.product input.productId with
      | none => x.refuse .notFound
      | some p =>
        if p.producer ≠ caller then x.refuse .notFound
        else if p.subscriptionTarget ≠ .none ∧ input.interval ≠ .recurring then x.refuse (.billing 422 "subscription_price_not_recurring")
        else .next { x with
          lock := some input.productId
          phase := .insert (.price (priceRow n input)) }
  | .ownerProduct companyId platformId input =>
    match db.ownerPlatform companyId platformId with
    | .error e => x.refuse e
    | .ok b => x.moveTo (.insert (.product (ownerProductRow n b.companyId platformId input)))
  | .ownerPrice companyId platformId productId input supportedCurrencies =>
    match db.ownerPlatform companyId platformId with
    | .error e => x.refuse e
    | .ok b =>
      if others (Session.holds productId) then .wait
      else match db.product productId with
        | none => x.refuse .notFound
        | some p =>
          if p.producer ≠ OWNER_CATALOG_PRODUCER ∨ p.platformId ≠ some platformId then x.refuse .notFound
          else if b.currency ∉ supportedCurrencies then x.refuse (.billing 422 "unsupported_currency")
          else .next { x with
            lock := some productId
            phase := .insert (.price (ownerPriceRow n productId b.currency input)) }

def Call.caught (call : Call) (guard : String) : Failure :=
  match call with
  | .createProduct _ _ => if guard = "product_platform_configured" then .billing 409 "platform_not_configured" else .database guard
  | .createPrice _ _ _ => if guard = "price_platform_currency" then .billing 422 "unsupported_currency" else .database guard
  | _ => .database guard

/-- `ON CONFLICT DO NOTHING`: the insert of a key that is there is no error. -/
def Call.onConflict : Call → Bool
  | .ownerPrice _ _ _ _ _ => true
  | _ => false

def Session.insert (db : Db) (others : (Session → Bool) → Bool) (x : Session) (row : Row) : Reply Session :=
  match db.before row with
  | some guard => x.moveTo (.answered (.inserts row none) (.failed (.database guard)))
  | none =>
    if others (Session.inserted row.key) then .wait
    else match db.read row.key with
      | some _ => x.moveTo (if x.call.onConflict then .replay row else .aborted row)
      | none => match db.after row with
        | some guard => x.moveTo (.answered (.inserts row none) (.failed (x.call.caught guard)))
        | none => x.moveTo (.inserted row)

def Call.savepoint : Call → Bool
  | .createProduct _ _ | .ownerProduct _ _ _ => true
  | _ => false

def Session.recover (db : Db) (x : Session) (row : Row) : Reply Session :=
  if x.call.savepoint then x.moveTo (.replay row)
  else x.moveTo (.answered (.inserts row (db.read row.key)) (.failed (.database "25P02")))

def Call.identical (call : Call) : Row → Row → Bool
  | .product p, .product existing =>
    (match call with
      | .ownerProduct _ _ _ => existing.producer = OWNER_CATALOG_PRODUCER
      | _ => true) &&
    (existing.name = p.name ∧ existing.description = p.description ∧ existing.entitlementKind = p.entitlementKind ∧
      existing.subscriptionTarget = p.subscriptionTarget ∧ existing.platformId = p.platformId)
  | .price p, .price existing =>
    existing.currency = p.currency ∧ existing.unitAmount = p.unitAmount ∧ existing.interval = p.interval ∧
      existing.intervalUnit = p.intervalUnit ∧ existing.intervalCount = p.intervalCount ∧ existing.effectiveFrom = p.effectiveFrom
  | _, _ => false

def Row.conflict : Row → Failure
  | .product _ => .billing 409 "product_conflict"
  | .price _ => .billing 409 "price_conflict"

def Call.replayed (call : Call) (row existing : Row) : Answer :=
  if call.identical row existing then .row existing false else .failed row.conflict

def Session.replay (db : Db) (x : Session) (row : Row) : Reply Session :=
  match db.read row.key with
  | none => x.moveTo (.answered (.inserts row none) (.failed (.database "23505")))
  | some existing => x.moveTo (.answered (.inserts row (some existing)) (x.call.replayed row existing))

def Session.exec (db : Db) (others : (Session → Bool) → Bool) (n : Nat) (x : Session) : Reply Session :=
  match x.phase with
  | .begun => x.begin db others n
  | .insert row => x.insert db others row
  | .aborted row => x.recover db row
  | .replay row => x.replay db row
  | .inserted _ | .answered _ _ => .wait

/-- A transaction that has inserted its row commits it; a call that has thrown rolls back. -/
def Session.commit (db : Db) (n : Nat) (x : Session) : Option (Db × Option Session) :=
  match x.phase with
  | .inserted row => some ({ db with
      rows := db.rows ++ [row]
      answers := db.answers ++ [⟨n, x.call, .inserts row none, .row row true⟩] }, none)
  | .answered decision answer => some ({ db with answers := db.answers ++ [⟨n, x.call, decision, answer⟩] }, none)
  | _ => none

inductive Event
  | configure (b : BillingPlatform)
  | archive (id : Uuid)
  | retire (id : Uuid) (now : Int)

def Db.elapse (db : Db) : Event → Db
  | .configure b => if (db.platform b.platformId).isSome then db else { db with platforms := db.platforms ++ [b] }
  | .archive id => { db with rows := db.rows.map (Row.archive id) }
  | .retire id now => { db with rows := db.rows.map (Row.retire id now) }

def Call.start : Call → Option Session
  | .createProduct producer input =>
    if producer = OWNER_CATALOG_PRODUCER then none else some ⟨.createProduct producer input, none, .begun⟩
  | call => some ⟨call, none, .begun⟩

def catalog : Transactions Db Session Call Event where
  start _ _ call := call.start
  exec := Session.exec
  commit := Session.commit
  elapse := Db.elapse

end NawaraCore.Catalog
