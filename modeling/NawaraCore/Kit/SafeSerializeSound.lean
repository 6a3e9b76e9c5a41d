import Mathlib.Data.List.Forall2
import NawaraCore.Kit.SafeSerialize

/-!
# The serializer does not see secrets

Two graphs are walked side by side. What is read of an object is the same on both, since a
sensitive key of a record is never looked up and a getter is called only for the list of an
aggregate's errors.
-/

namespace NawaraCore.SafeSerialize

open Audit (Text)

/-! ## Alike -/

section
variable (R : Ref → Ref → Prop)

inductive Alike : Value → Value → Prop
  | same {v : Value} (h : ∀ r, v ≠ .object r) : Alike v v
  | function {f g : Nat} : Alike (.function f) (.function g)
  | object {r s : Ref} (h : R r s) : Alike (.object r) (.object s)

/-- Two accessors are alike, whatever their getters do. -/
inductive Descriptor.Alike : Descriptor → Descriptor → Prop
  | absent : Descriptor.Alike .absent .absent
  | threw : Descriptor.Alike .threw .threw
  | data {v w : Value} (h : SafeSerialize.Alike R v w) : Descriptor.Alike (.data v) (.data w)
  | accessor {f g : Option Value} : Descriptor.Alike (.accessor f) (.accessor g)

/-- `R` pairs the objects of two graphs that differ only under sensitive keys, those of errors apart, and in getters and functions.
No getter is in the list of an aggregate's errors. -/
structure Indistinct (G H : Graph) : Prop where
  left {r s s' : Ref} : R r s → R r s' → s = s'
  right {r r' s : Ref} : R r s → R r' s → r = r'
  kind {r s : Ref} : R r s → (G r).kind = (H s).kind
  keys {r s : Ref} : R r s → (G r).keys = (H s).keys
  property {r s : Ref} {key : Text} : R r s → (isSensitiveKey key = true → (G r).kind.isError = true) →
    ((G r).property key).Alike R ((H s).property key)
  lists {r a : Ref} {i : Nat} {get : Option Value} : dataOf (G r) (codes "errors") = some (.object a) → nestedOf G (G r) (.object a) = some a →
    i < 10 → (G a).property (codes (toString i)) ≠ .accessor get

end

section
variable {R : Ref → Ref → Prop} {G H : Graph} {m n : Node} {v w : Value} {r s : Ref} {key : Text} {f g : Value → Option Json} {T : List (Text → Text)}

theorem Alike.congr {β : Type} {f : Value → β} (h : Alike R v w) (hf : ∀ a b, f (.function a) = f (.function b))
    (ho : ∀ a b, f (.object a) = f (.object b)) : f v = f w := by
  cases h with
  | same => rfl
  | function => exact hf _ _
  | object => exact ho _ _

theorem dataOf_alike (h : (m.property key).Alike R (n.property key)) : Option.Rel (Alike R) (dataOf m key) (dataOf n key) := by
  unfold dataOf
  generalize m.property key = a, n.property key = b at h
  cases h with
  | absent => exact .some (.same nofun)
  | threw => exact .none
  | data h => exact .some h
  | accessor => exact .some (.same nofun)

theorem bind_alike {β : Type} {x y : Option Value} {f g : Value → Option β} (h : Option.Rel (Alike R) x y)
    (hf : ∀ v w, x = some v → Alike R v w → f v = g w) : x.bind f = y.bind g := by
  cases h with
  | some h => exact hf _ _ rfl h
  | none => rfl

theorem index_plain : ∀ i < 50, isSensitiveKey (codes (toString i)) = false := by decide +kernel

theorem lengthOf_alike (h : Indistinct R G H) (hr : R r s) : lengthOf (G r) = lengthOf (H s) := by
  refine bind_alike (dataOf_alike (h.property hr fun hs => absurd hs (by decide))) fun v w _ hv => ?_
  have hn : natural v = natural w := hv.congr (fun _ _ => rfl) fun _ _ => rfl
  rw [hn]

/-! ## Errors -/

theorem ownFacts_alike (h : Indistinct R G H) (hr : R r s) (he : (G r).kind.isError = true) (aggregate : Bool) :
    ownFacts (G r) aggregate = ownFacts (H s) aggregate := by
  have hdata (key : Text) : Option.Rel (Alike R) (dataOf (G r) key) (dataOf (H s) key) := dataOf_alike (h.property hr fun _ => he)
  refine bind_alike (hdata _) fun name name' _ hname => bind_alike (hdata _) fun code code' _ hcode => bind_alike (hdata _) fun message message' _ hm => ?_
  have h₁ : nameOf aggregate name = nameOf aggregate name' := hname.congr (fun _ _ => rfl) fun _ _ => rfl
  have h₂ : codeOf code = codeOf code' := hcode.congr (fun _ _ => rfl) fun _ _ => rfl
  have h₃ : messageOf message = messageOf message' := hm.congr (fun _ _ => rfl) fun _ _ => rfl
  unfold className
  rw [h₁, h₂, h₃, h.kind hr]

theorem nestedOf_alike (h : Indistinct R G H) (hr : R r s) (hv : Alike R v w) : Option.Rel R (nestedOf G (G r) v) (nestedOf H (H s) w) := by
  cases hv with
  | @same v hv =>
    cases v with
    | object a => exact absurd rfl (hv a)
    | _ => exact .none
  | function => exact .none
  | @object a b hab =>
    dsimp only [nestedOf]
    rw [h.kind hr, h.kind hab]
    split
    · exact .some hab
    · exact .none

theorem nestedOf_object {e : Node} {a : Ref} (ha : nestedOf G e v = some a) : v = .object a := by
  cases v with
  | object b =>
    dsimp only [nestedOf] at ha
    split at ha
    · cases ha
      rfl
    · cases ha
  | _ => cases ha

theorem nestedError_alike (h : Indistinct R G H) {f g : Node → Option StandIn} (hv : Alike R v w)
    (hfg : ∀ r s, R r s → (G r).kind.isError = true → f (G r) = g (H s)) : nestedError G f v = nestedError H g w := by
  cases hv with
  | @same v hv =>
    cases v with
    | object a => exact absurd rfl (hv a)
    | _ => rfl
  | function => rfl
  | @object a b hab =>
    have hfg := hfg _ _ hab
    dsimp only [nestedError]
    rw [h.kind hab] at hfg ⊢
    cases hk : (H b).kind with
    | error constructors aggregate => rw [hk] at hfg; dsimp only; rw [hfg rfl]
    | _ => rfl

theorem element_alike (h : Indistinct R G H) (hr : R r s) {i : Nat} (hi : i < 10)
    (hget : ∀ get, (G r).property (codes (toString i)) ≠ .accessor get) : Option.Rel (Alike R) (element (G r) i) (element (H s) i) := by
  have hp := @Indistinct.property _ _ _ h r s (codes (toString i)) hr fun hs => by
    rw [index_plain i (by omega)] at hs
    cases hs
  unfold element
  generalize (G r).property (codes (toString i)) = a, (H s).property (codes (toString i)) = b at hp hget
  cases hp with
  | absent => exact .some (.same nofun)
  | threw => exact .none
  | data h => exact .some h
  | accessor => exact absurd rfl (hget _)

theorem mapM_congr {α β : Type} {f g : α → Option β} {l : List α} (h : ∀ x ∈ l, f x = g x) : l.mapM f = l.mapM g := by
  induction l with
  | nil => rfl
  | cons x l ih =>
    rw [List.mapM_cons, List.mapM_cons, h x List.mem_cons_self, ih fun y hy => h y (List.mem_cons_of_mem x hy)]

theorem standIn_alike (h : Indistinct R G H) (levels : Nat) : ∀ r s, R r s → (G r).kind.isError = true →
    standIn G levels (G r) = standIn H levels (H s) := by
  induction levels with
  | zero =>
    intro r s hr he
    refine bind_alike (dataOf_alike (h.property hr fun _ => he)) fun v w _ _ => ?_
    rw [ownFacts_alike h hr he]
  | succ levels ih =>
    intro r s hr he
    refine bind_alike (dataOf_alike (h.property hr fun _ => he)) fun v w hd hv => ?_
    have hlist := nestedOf_alike h hr hv
    cases ha : nestedOf G (G r) v with
    | none =>
      rw [ha] at hlist
      generalize nestedOf H (H s) w = b at hlist
      cases hlist
      dsimp only
      rw [ownFacts_alike h hr he]
    | some a =>
      rw [ha] at hlist
      generalize nestedOf H (H s) w = b at hlist
      cases hlist with
      | @some _ b hab =>
        have hitems (length : Nat) : (List.range (min length 10)).mapM (fun i => (element (G a) i).bind (nestedError G (standIn G levels))) =
            (List.range (min length 10)).mapM fun i => (element (H b) i).bind (nestedError H (standIn H levels)) := by
          refine mapM_congr fun i hi => ?_
          have hlt : i < 10 := by have := List.mem_range.mp hi; omega
          have hne (get) : (G a).property (codes (toString i)) ≠ .accessor get := by
            obtain rfl := nestedOf_object ha
            exact h.lists hd ha hlt
          exact bind_alike (element_alike h hab hlt hne) fun x y _ hxy => nestedError_alike h hxy ih
        dsimp only [Option.bind_eq_bind]
        rw [lengthOf_alike h hab, ownFacts_alike h hr he]
        simp only [hitems]

theorem errorFacts_alike (h : Indistinct R G H) (hr : R r s) (he : (G r).kind.isError = true) : errorFacts G (G r) = errorFacts H (H s) := by
  unfold errorFacts
  rw [standIn_alike h 2 r s hr he]

/-! ## The walk -/

theorem member_alike (hp : ((G r).property key).Alike R ((H s).property key)) (hfg : ∀ v w, Alike R v w → f v = g w) :
    member f (G r) key = member g (H s) key := by
  unfold member
  generalize (G r).property key = a, (H s).property key = b at hp
  cases hp with
  | data h => exact hfg _ _ h
  | _ => rfl

section
variable (h : Indistinct R G H)
include h

theorem serializeArray_alike (hr : R r s) (hfg : ∀ v w, Alike R v w → f v = g w) :
    serializeArray f (G r) = serializeArray g (H s) := by
  unfold serializeArray
  rw [lengthOf_alike h hr]
  refine congrArg _ (funext fun length => ?_)
  have hitems : (List.range (min length MAX_ITEMS)).map (fun i => (member f (G r) (codes (toString i))).getD .null) =
      (List.range (min length MAX_ITEMS)).map fun i => (member g (H s) (codes (toString i))).getD .null := by
    refine List.map_congr_left fun i hi => ?_
    have hlt : i < 50 := Nat.lt_of_lt_of_le (List.mem_range.mp hi) (Nat.min_le_right _ _)
    have hp := @Indistinct.property _ _ _ h r s (codes (toString i)) hr fun hs => by
      rw [index_plain i hlt] at hs
      cases hs
    rw [member_alike hp hfg]
  rw [hitems]

theorem serializeRecord_alike (hr : R r s) (hfg : ∀ v w, Alike R v w → f v = g w) :
    serializeRecord T f (G r) = serializeRecord T g (H s) := by
  have hkey : serializeKey T f (G r) = serializeKey T g (H s) := by
    funext out key
    unfold serializeKey
    by_cases hs : isSensitiveKey key = true
    · rw [if_pos hs, if_pos hs]
    · rw [if_neg hs, if_neg hs, member_alike (h.property hr fun hk => absurd hk hs) hfg]
  unfold serializeRecord
  rw [h.keys hr, hkey]

theorem path_alike (hr : R r s) {path path' : List Ref} (hp : List.Forall₂ R path path') : r ∈ path ↔ s ∈ path' := by
  induction hp with
  | nil => simp
  | @cons a b _ _ hab _ ih =>
    rw [List.mem_cons, List.mem_cons, ih]
    refine or_congr ⟨fun he => ?_, fun he => ?_⟩ Iff.rfl
    · subst he
      exact h.left hr hab
    · subst he
      exact h.right hr hab

theorem serializeObject_alike (hr : R r s) {c d : Option Json} (hcd : c = d) :
    serializeObject G (G r) c = serializeObject H (H s) d := by
  have he := errorFacts_alike h hr
  have hk := h.kind hr
  unfold serializeObject
  rw [hk] at he ⊢
  cases hs : (H s).kind with
  | error constructors aggregate => rw [hs] at he; exact he rfl
  | array => exact hcd
  | record => exact hcd
  | _ => rfl

theorem serialize_alike (depth : Nat) : ∀ path path' v w, List.Forall₂ R path path' → Alike R v w →
    serialize T G depth path v = serialize T H depth path' w := by
  induction depth with
  | zero =>
    intro path path' v w _ hv
    cases hv with
    | @same v hv =>
      cases v with
      | object r => exact absurd rfl (hv r)
      | _ => rfl
    | function => rfl
    | object hr =>
      unfold serialize
      rw [serializeObject_alike h hr rfl]
  | succ depth ih =>
    intro path path' v w hp hv
    cases hv with
    | @same v hv =>
      cases v with
      | object r => exact absurd rfl (hv r)
      | _ => rfl
    | function => rfl
    | @object r s hr =>
      have hin (v w : Value) (hvw : Alike R v w) : serialize T G depth (r :: path) v = serialize T H depth (s :: path') w :=
        ih _ _ v w (.cons hr hp) hvw
      have hk := h.kind hr
      unfold serialize
      refine congrArg (fun j => some (Option.getD j _)) (serializeObject_alike h hr ?_)
      dsimp only
      by_cases hm : r ∈ path
      · rw [if_pos hm, if_pos ((path_alike h hr hp).mp hm)]
      · rw [if_neg hm, if_neg (mt (path_alike h hr hp).mpr hm), hk, serializeArray_alike h hr hin, serializeRecord_alike h hr hin]

end

theorem serialize_none {depth : Nat} {path : List Ref} : serialize T G depth path v = none ↔ v = .undefined := by
  unfold serialize
  cases v <;> simp

end

/-- An object that has itself, a password and a getter. -/
def session (password : Value) (get : Option Value) : Graph := fun _ => ⟨.record, some [codes "self", codes "password", codes "at"], fun key =>
  if key = codes "password" then .data password
  else if key = codes "at" then .accessor get
  else if key = codes "self" then .data (.object 0)
  else .absent⟩

/-- An error with a code. -/
def failed (code : String) : Graph := fun _ => ⟨.error [some (some (codes "Error"))] false, some [codes "code"], fun key =>
  if key = codes "code" then .data (.text (codes code)) else .absent⟩

end NawaraCore.SafeSerialize
