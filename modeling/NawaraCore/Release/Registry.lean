import Mathlib.Data.Fintype.Basic
import Mathlib.Data.List.MinMax
import Mathlib.Data.Prod.Lex
import NawaraCore.Lib.Rows

/-!
# The release registry

Components, releases and compatibility policies of release-service. A row is named by its
natural key. Each operation runs its statements in a session at READ COMMITTED: a statement
reads the committed tables, waits for the locks and pending keys of others, and what it
writes is published at the commit.
-/

namespace NawaraCore.Releases

structure Version where
  major : Nat
  minor : Nat
  patch : Nat
  prerelease : Option String
deriving DecidableEq

def Version.stable (v : Version) : Bool := v.prerelease.isNone

def Version.core (v : Version) : Lex (Nat × Lex (Nat × Nat)) := toLex (v.major, toLex (v.minor, v.patch))

inductive ComponentKind
  | backend | web | desktop | mobile_ios | mobile_android
deriving DecidableEq

inductive ReleaseStatus
  | registered | published | withdrawn
deriving DecidableEq

structure ComponentId where
  product : String
  key : String
deriving DecidableEq

structure Component where
  id : ComponentId
  kind : ComponentKind

structure ReleaseId where
  component : ComponentId
  version : Version
deriving DecidableEq

structure Release where
  id : ReleaseId
  buildId : Option String
  sourceRevision : Option String
  notesRef : Option String
  status : ReleaseStatus
  registeredAt : Int
  publishedAt : Option Int
  withdrawnAt : Option Int

structure CompatibilityPolicy where
  component : ComponentId
  policyVersion : Nat
  minimumVersion : Version
  createdAt : Int

inductive Intent
  | registered (id : ReleaseId)
  | published (id : ReleaseId)
  | withdrawn (id : ReleaseId)
  | policyChanged (component : ComponentId) (policyVersion : Nat)

structure Db where
  products : List String
  components : List Component
  releases : List Release
  policies : List CompatibilityPolicy
  outbox : List Intent

def Db.findComponent (db : Db) (id : ComponentId) : Option Component := db.components.find? fun c => c.id = id

def Db.findRelease (db : Db) (id : ReleaseId) : Option Release := db.releases.find? fun r => r.id = id

def Release.offered (r : Release) : Bool := r.status = .published ∧ r.id.version.stable

def Db.latestRelease (db : Db) (c : ComponentId) : Option Release :=
  (db.releases.filter fun r => r.id.component = c ∧ r.offered).argmax fun r => r.id.version.core

def Db.policyHistory (db : Db) (c : ComponentId) : List CompatibilityPolicy := db.policies.filter fun p => p.component = c

def Db.currentPolicy (db : Db) (c : ComponentId) : Option CompatibilityPolicy := (db.policyHistory c).argmax CompatibilityPolicy.policyVersion

def Db.policyVersion (db : Db) (c : ComponentId) : Nat := (db.currentPolicy c).elim 0 CompatibilityPolicy.policyVersion

def Db.atOrBelowLatest (db : Db) (c : ComponentId) (v : Version) : Bool :=
  db.releases.any fun r => r.id.component = c ∧ r.offered ∧ v.core ≤ r.id.version.core

def Db.withdrawalBreaksMinimum (db : Db) (id : ReleaseId) : Bool :=
  (db.currentPolicy id.component).any fun p => ¬ db.releases.any fun r =>
    r.id.component = id.component ∧ r.id ≠ id ∧ r.offered ∧ p.minimumVersion.core ≤ r.id.version.core

/-! ## Sessions -/

inductive Operation
  | register (component : ComponentId) (kind : ComponentKind) (version : Version) (buildId sourceRevision notesRef : Option String)
  | publish (id : ReleaseId)
  | withdraw (id : ReleaseId)
  | changePolicy (component : ComponentId) (minimumVersion : Version) (expectedPolicyVersion : Nat)

def MAX_POLICY_VERSION : Nat := 2147483647

def Operation.valid : Operation → Bool
  | .changePolicy _ minimumVersion expectedPolicyVersion => minimumVersion.stable ∧ expectedPolicyVersion < MAX_POLICY_VERSION
  | _ => true

inductive Change
  | registered (r : Release)
  | moved (r : Release)
  | appended (p : CompatibilityPolicy)

structure Writes where
  product : Option String
  component : Option Component
  change : Option Change
  intents : List Intent

inductive Phase
  | ensureProduct | ensureComponent | find | check | lock | reread | target | change | audit | commit
deriving DecidableEq

structure Session where
  op : Operation
  phase : Phase
  now : Int
  /-- The advisory lock of a component, until the end of the transaction. -/
  lock : Option ComponentId
  writes : Writes

def Writes.none : Writes := ⟨.none, .none, .none, []⟩

def Operation.firstPhase : Operation → Phase
  | .register .. => .ensureProduct
  | _ => .find

def Session.start (op : Operation) (now : Int) : Session := ⟨op, op.firstPhase, now, .none, .none⟩

def Change.releases : Change → List Release → List Release
  | .registered r, releases => releases ++ [r]
  | .moved r, releases => replaceRow Release.id r releases
  | .appended _, releases => releases

def Change.policies : Change → List CompatibilityPolicy → List CompatibilityPolicy
  | .appended p, policies => policies ++ [p]
  | _, policies => policies

def Db.apply (db : Db) (w : Writes) : Db :=
  { products := db.products ++ w.product.toList
    components := db.components ++ w.component.toList
    releases := w.change.elim db.releases fun c => c.releases db.releases
    policies := w.change.elim db.policies fun c => c.policies db.policies
    outbox := db.outbox ++ w.intents }

/-- What the other sessions hold: pending unique keys, pending rows, and advisory locks. -/
structure Others where
  product : String → Bool
  component : ComponentId → Bool
  release : ReleaseId → Bool
  row : ReleaseId → Bool
  lock : ComponentId → Bool

inductive Reply
  | wait
  | refused
  | next (x : Session)

def Session.go (x : Session) (phase : Phase) : Reply := .next { x with phase }

def Session.written (x : Session) (lock : Option ComponentId) (c : Change) : Session :=
  { x with
    phase := .audit
    lock
    writes := { x.writes with change := some c } }

def Session.write (x : Session) (lock : Option ComponentId) (c : Change) : Reply := .next (x.written lock c)

section
variable (db : Db) (others : Others) (x : Session)

def ensureProduct (key : String) : Reply :=
  if others.product key then .wait
  else .next { x with
    phase := .ensureComponent
    writes := { x.writes with product := if key ∈ db.products then none else some key } }

def ensureComponent (id : ComponentId) (kind : ComponentKind) : Reply :=
  if others.component id then .wait
  else match db.findComponent id with
    | some c => if c.kind = kind then x.go .change else .refused
    | none => .next { x with
      phase := .change
      writes := { x.writes with component := some ⟨id, kind⟩ } }

def registerRelease (id : ReleaseId) (buildId sourceRevision notesRef : Option String) : Reply :=
  if others.release id then .wait
  else match db.findRelease id with
    | some r => if r.buildId = buildId ∧ r.sourceRevision = sourceRevision ∧ r.notesRef = notesRef then x.go .commit else .refused
    | none => x.write x.lock (.registered ⟨id, buildId, sourceRevision, notesRef, .registered, x.now, none, none⟩)

def publishRelease (id : ReleaseId) : Reply :=
  match db.findRelease id with
  | none => .refused
  | some r => match r.status with
    | .registered =>
      if others.row id then .wait
      else if x.now < r.registeredAt then .refused
      else x.write x.lock (.moved { r with
        status := .published
        publishedAt := some x.now })
    | .published => x.go .commit
    | .withdrawn => .refused

def withdrawRelease (id : ReleaseId) : Reply :=
  match db.findRelease id with
  | none => .refused
  | some r => match r.status with
    | .registered => .refused
    | .published =>
      if others.row id ∨ others.lock id.component then .wait
      else if db.withdrawalBreaksMinimum id then .refused
      else if r.publishedAt.any fun t => x.now < t then .refused
      else x.write (some id.component) (.moved { r with
        status := .withdrawn
        withdrawnAt := some x.now })
    | .withdrawn => x.go .commit

def appendPolicy (c : ComponentId) (expectedPolicyVersion : Nat) (minimumVersion : Version) : Reply :=
  if others.lock c then .wait
  else if (db.findComponent c).any fun c => c.kind = .backend then .refused
  else if expectedPolicyVersion + 1 ≠ db.policyVersion c + 1 then .refused
  else if ¬ db.atOrBelowLatest c minimumVersion then .refused
  else x.write (some c) (.appended ⟨c, expectedPolicyVersion + 1, minimumVersion, x.now⟩)

/-- The first statement of an owner's transaction, which begins at `now`. -/
def lockComponent (now : Int) (c : ComponentId) (phase : Phase) : Reply :=
  if others.lock c then .wait
  else .next { x with
    phase
    now
    lock := some c }

def minimumRelease (c : ComponentId) (minimumVersion : Version) (phase : Phase) : Reply :=
  if (db.findRelease ⟨c, minimumVersion⟩).any fun r => r.status = .published then x.go phase else .refused

end

def Operation.intent : Operation → Intent
  | .register component _ version _ _ _ => .registered ⟨component, version⟩
  | .publish id => .published id
  | .withdraw id => .withdrawn id
  | .changePolicy component _ expectedPolicyVersion => .policyChanged component (expectedPolicyVersion + 1)

section
variable (db : Db) (clock : Int) (others : Others) (x : Session)

def registering (component : ComponentId) (kind : ComponentKind) (version : Version) (buildId sourceRevision notesRef : Option String) : Phase → Reply
  | .ensureProduct => ensureProduct db others x component.product
  | .ensureComponent => ensureComponent db others x component kind
  | .change => registerRelease db others x ⟨component, version⟩ buildId sourceRevision notesRef
  | _ => .refused

def publishing (id : ReleaseId) : Phase → Reply
  | .find => if (db.findRelease id).isSome then x.go .change else .refused
  | .change => publishRelease db others x id
  | _ => .refused

def withdrawing (id : ReleaseId) : Phase → Reply
  | .find => match db.findRelease id with
    | none => .refused
    | some r => if r.status = .registered then .refused else x.go (if r.status = .published then .check else .lock)
  | .check => if db.withdrawalBreaksMinimum id then .refused else x.go .lock
  | .lock => lockComponent others x clock id.component .change
  | .change => withdrawRelease db others x id
  | _ => .refused

def changingPolicy (c : ComponentId) (minimumVersion : Version) (expectedPolicyVersion : Nat) : Phase → Reply
  | .find => if (db.findComponent c).any fun c => c.kind ≠ .backend then x.go .check else .refused
  | .check =>
    if (db.currentPolicy c).any fun p => p.minimumVersion = minimumVersion then x.go .commit
    else if db.policyVersion c ≠ expectedPolicyVersion then .refused
    else minimumRelease db x c minimumVersion .lock
  | .lock => lockComponent others x clock c .reread
  | .reread => if (db.currentPolicy c).any fun p => p.minimumVersion = minimumVersion then x.go .commit else x.go .target
  | .target => minimumRelease db x c minimumVersion .change
  | .change => appendPolicy db others x c expectedPolicyVersion minimumVersion
  | _ => .refused

def Session.exec : Reply :=
  match x.phase with
  | .audit => .next { x with
    phase := .commit
    writes := { x.writes with intents := x.writes.intents ++ [x.op.intent] } }
  | .commit => .wait
  | phase => match x.op with
    | .register component kind version buildId sourceRevision notesRef => registering db others x component kind version buildId sourceRevision notesRef phase
    | .publish id => publishing db others x id phase
    | .withdraw id => withdrawing db clock others x id phase
    | .changePolicy c minimumVersion expectedPolicyVersion => changingPolicy db clock others x c minimumVersion expectedPolicyVersion phase

end

/-- The committed tables, the clock, and the operations that changed a row so far. -/
structure State (ι : Type*) where
  db : Db
  clock : Int
  changed : List Operation
  session : ι → Option Session

def Writes.registers (w : Writes) (id : ReleaseId) : Bool :=
  match w.change with
  | some (.registered r) => r.id = id
  | _ => false

def Writes.moves (w : Writes) (id : ReleaseId) : Bool :=
  match w.change with
  | some (.moved r) => r.id = id
  | _ => false

section
variable {ι : Type*} [Fintype ι] [DecidableEq ι]

def othersHave (session : ι → Option Session) (t : ι) (p : Session → Bool) : Bool := decide (∃ u, u ≠ t ∧ (session u).any p)

def State.others (s : State ι) (t : ι) : Others where
  product key := othersHave s.session t fun x => x.writes.product = some key
  component id := othersHave s.session t fun x => x.writes.component.any fun c => c.id = id
  release id := othersHave s.session t fun x => x.writes.registers id
  row id := othersHave s.session t fun x => x.writes.moves id
  lock c := othersHave s.session t fun x => x.lock = some c

inductive Action (ι : Type*)
  | tick (d : Nat)
  | start (t : ι) (op : Operation)
  | exec (t : ι)
  | abort (t : ι)
  | commit (t : ι)

def State.set (s : State ι) (t : ι) (x : Option Session) : State ι := { s with session := Function.update s.session t x }

def State.commit (s : State ι) (t : ι) (x : Session) : State ι :=
  { s with
    db := s.db.apply x.writes
    changed := s.changed ++ if x.writes.change.isSome then [x.op] else []
    session := Function.update s.session t none }

def step (s : State ι) : Action ι → State ι
  | .tick d => { s with clock := s.clock + d }
  | .start t op => if s.session t = none ∧ op.valid then s.set t (some (.start op s.clock)) else s
  | .exec t => match s.session t with
    | none => s
    | some x => match x.exec s.db s.clock (s.others t) with
      | .wait => s
      | .refused => s.set t none
      | .next y => s.set t (some y)
  | .abort t => s.set t none
  | .commit t => match s.session t with
    | none => s
    | some x => if x.phase = .commit then s.commit t x else s

def State.new (clock : Int) : State ι := ⟨⟨[], [], [], [], []⟩, clock, [], fun _ => none⟩

def run (clock : Int) (actions : List (Action ι)) : State ι := actions.foldl step (.new clock)

def Release.Moves (r r' : Release) : Prop :=
  r' = r ∨
    (r.status = .registered ∧ ∃ t, r' = { r with
      status := .published
      publishedAt := some t }) ∨
    r.status = .published ∧ ∃ t, r' = { r with
      status := .withdrawn
      withdrawnAt := some t }

structure RegistryLaw (s : State ι) : Prop where
  minimum : ∀ c p, s.db.currentPolicy c = some p → ∃ r, s.db.latestRelease c = some r ∧ p.minimumVersion.core ≤ r.id.version.core
  releases : (s.db.releases.map Release.id).Nodup
  statuses : ∀ a, ∀ r ∈ s.db.releases, ∃ r' ∈ (step s a).db.releases, r.Moves r'
  policies : ∀ c, (s.db.policyHistory c).map CompatibilityPolicy.policyVersion = List.range' 1 (s.db.policyHistory c).length
  /-- A policy is appended by a change that named the version it follows. -/
  predecessor : ∀ a, (step s a).db.policies = s.db.policies ∨
    ∃ t x c minimumVersion now, a = .commit t ∧ s.session t = some x ∧ x.op = .changePolicy c minimumVersion (s.db.policyVersion c) ∧
      (step s a).db.policies = s.db.policies ++ [⟨c, s.db.policyVersion c + 1, minimumVersion, now⟩]
  /-- A step changes nothing, or does what no operation equal to its own did before, with one audit intent. -/
  audited : ∀ a, ((step s a).db = s.db ∧ (step s a).changed = s.changed) ∨
    ∃ op ∉ s.changed, (step s a).changed = s.changed ++ [op] ∧ (step s a).db.outbox = s.db.outbox ++ [op.intent]

end

end NawaraCore.Releases
