import NawaraCore.Auth.AccountSessions
import NawaraCore.Lib.Rows

/-!
# The invariant of the account's sessions

A rotation holds its token's lock until it has replaced it, and an insert holds the user row
against a suspension. What a sweep has seen and not yet revoked is still to come.
-/

namespace NawaraCore.AccountSessions

/-! ## The invariant -/

def Operation.route : Operation → Phase → Prop
  | .login, p => p = .insertToken ∨ p = .commit
  | .refresh _, p => p = .lockToken ∨ p = .insertToken ∨ p = .replaceToken ∨ (∃ f, p = .sweep (.family f)) ∨ (∃ f todo, p = .sweeping (.family f) todo) ∨
      p = .commit ∨ ∃ active, p = .access active
  | .logout _, p => (∃ f, p = .sweep (.raw f)) ∨ (∃ f todo, p = .sweeping (.raw f) todo) ∨ p = .commit
  | .setActive active _, p => p = .lockUser ∨ p = .updateUser ∨ p = .commit ∨ (active = false ∧ (p = .sweep (.user none) ∨ ∃ todo, p = .sweeping (.user none) todo))
  | .setBlocked blocked, p => p = .updateUser ∨ p = .commit ∨ (blocked = true ∧ (p = .supersede none ∨ (∃ todo, p = .superseding todo) ∨
      p = .sweep (.user none) ∨ ∃ todo, p = .sweeping (.user none) todo))
  | .requestLoginCode .., p => p = .supersede (some .login) ∨ (∃ todo, p = .superseding todo) ∨ p = .insertCode ∨ p = .commit
  | .redeem .., p => p = .selectCode ∨ (∃ code, p = .checkCode code) ∨ p = .insertToken ∨ p = .commit
  | .recover, p | .endOtherSessions _, p => (∃ e, p = .sweep (.user e)) ∨ (∃ e todo, p = .sweeping (.user e) todo) ∨ p = .commit

def Operation.creates : Operation → Bool
  | .login | .requestLoginCode .. | .redeem .. => true
  | _ => false

structure Account.Sound (n : Nat) (db : Account) : Prop where
  ids : (db.tokens.map RefreshToken.id).Nodup
  tokens : ∀ t ∈ db.tokens, t.id < n ∧ t.family < n ∧ t.begun ≤ db.period
  codes : ∀ c ∈ db.codes, c.id ≤ n
  cut : ∀ f ∈ db.cut, ∃ t ∈ db.tokens, t.family = f
  noCodes : db.kind ≠ .operator → db.codes = []
  one : ∀ t ∈ db.tokens, ∀ u ∈ db.tokens, t.family = u.family → t.revoked = false → u.revoked = false → t = u
  ceiling : ∀ t ∈ db.tokens, ∀ u ∈ db.tokens, t.family = u.family → t.sessionExpiresAt = u.sessionExpiresAt
  expiry : ∀ t ∈ db.tokens, ∀ c, t.sessionExpiresAt = some c → t.expiresAt ≤ c

structure Session.Rotates (db : Account) (x : Session) (t : RefreshToken) : Prop where
  live : t ∈ db.tokens ∧ t.revoked = false
  locked : t.id ∈ x.tokenLocks
  active : x.active
  refresh : ∃ token, x.op = .refresh token
  alone : x.seen = [] ∧ x.writes.revoked = [] ∧ x.cut = []
  stage : x.phase = .insertToken ∨ x.phase = .replaceToken ∧ x.writes.token.isSome ∨
    x.phase = .commit ∧ x.writes.token.isSome ∧ x.writes.replaced = some t.id

def Phase.inserts : Phase → Bool
  | .insertToken | .replaceToken | .commit => true
  | _ => false

structure Session.Inserts (ttl : Int) (db : Account) (n : Nat) (x : Session) : Prop where
  token : ∀ t, x.writes.token = some t → t = x.issues ttl n ∧ x.userLock = some .keyShare
  inserts : x.writes.token.isSome ∨ x.phase = .insertToken → x.rotating.isSome ∨ x.op.creates
  written : x.writes.token.isSome → x.phase.inserts
  inserted : x.op = .login → x.phase = .commit → x.writes.token.isSome
  rotating : ∀ t, x.rotating = some t → x.Rotates db t
  replaced : ∀ i, x.writes.replaced = some i → ∃ t, x.rotating = some t ∧ t.id = i

def Session.Rows (db : Account) (x : Session) : Prop :=
  match x.phase with
  | .sweeping w todo => (∀ i ∈ todo, i ∈ x.seen) ∧ ∀ t ∈ db.tokens, t.id ∈ x.seen → t.revoked = false → w.names t ∧ (t.id ∈ todo ∨ t.id ∈ x.writes.revoked)
  | .commit => ∀ t ∈ db.tokens, t.id ∈ x.seen → t.revoked = false → t.id ∈ x.writes.revoked
  | _ => x.seen = [] ∧ x.writes.revoked = [] ∧ x.cut = []

def Sweep.named : Sweep → Option Nat
  | .family f | .raw f => some f
  | .user _ => none

structure Session.Sweeps (db : Account) (x : Session) : Prop where
  revoked : ∀ i ∈ x.writes.revoked, i ∈ x.tokenLocks ∧ i ∈ x.seen
  seen : ∀ i ∈ x.seen, ∃ t ∈ db.tokens, t.id = i
  named : ∀ w f, x.phase = .sweep w → w.named = some f → ∃ t ∈ db.tokens, t.family = f
  cut : ∀ f ∈ x.cut, ∃ t ∈ db.tokens, t.family = f
  creates : x.op.creates → x.cut = []
  rows : x.Rows db

/-- A suspension holds the user row from its first statement, so its sweep sees every live token. -/
structure Session.Deactivates (db : Account) (x : Session) : Prop where
  first : x.phase = .lockUser ∨ x.phase = .updateUser → x.writes.active = none
  unlocked : ∀ blocked, x.op = .setBlocked blocked → x.phase = .updateUser → x.userLock = none
  op : x.writes.active = some false → x.op = .setBlocked true ∨ ∃ eligible, x.op = .setActive false eligible
  blocks : x.op = .setBlocked true → x.phase ≠ .updateUser → x.writes.active = some false
  locks : ∀ active eligible, x.op = .setActive active eligible → x.phase ≠ .lockUser → x.userLock = some .update
  sweeps : ∀ active eligible, x.op = .setActive active eligible → (∃ w, x.phase = .sweep w) ∨ (∃ w todo, x.phase = .sweeping w todo) →
    x.writes.active = some false
  uncut : ∀ active eligible, x.op = .setActive active eligible → x.writes.active ≠ some false → x.cut = []
  seen : ∀ active eligible, x.op = .setActive active eligible → (∃ w todo, x.phase = .sweeping w todo) ∨ x.phase = .commit →
    x.writes.active = some false → ∀ t ∈ db.tokens, t.revoked = false → t.id ∈ x.seen

def Session.CodeRows (db : Account) (x : Session) : Prop :=
  match x.phase with
  | .superseding todo => (∀ i ∈ todo, i ∈ x.seenCodes) ∧ ∀ c ∈ db.codes, c.id ∈ x.seenCodes → c.closed = false → c.id ∈ todo ∨ c.id ∈ x.writes.closed
  | _ => ∀ c ∈ db.codes, c.id ∈ x.seenCodes → c.closed = false → c.id ∈ x.writes.closed

def Phase.uncoded : Phase → Bool
  | .lockUser | .updateUser | .supersede _ => true
  | _ => false

structure Session.Codes (db : Account) (n : Nat) (x : Session) : Prop where
  seen : ∀ i ∈ x.seenCodes, ∃ c ∈ db.codes, c.id = i
  closed : x.op = .setBlocked true → ∀ i ∈ x.writes.closed, i ∈ x.seenCodes
  rows : x.CodeRows db
  uncoded : x.phase.uncoded → x.writes.closed = []
  code : ∀ c, x.writes.code = some c → c.id = n + 1 ∧ c.closed = false ∧ c.begun = x.begun ∧ ∃ available expiresAt, x.op = .requestLoginCode available expiresAt
  coded : ∀ available expiresAt, x.op = .requestLoginCode available expiresAt → x.phase = .commit → x.writes.code.isSome

def Phase.answered : Phase → Bool
  | .access _ => true
  | _ => false

structure Session.Sound (ttl : Int) (db : Account) (n : Nat) (x : Session) : Prop where
  route : x.op.route x.phase
  begun : x.begun ≤ db.period
  active : x.begun = db.period → x.active → db.active
  creates : x.op.creates → x.active
  operator : x.op.creates → x.op ≠ .login → db.kind = .operator
  member : ∀ active eligible, x.op = .setActive active eligible → db.kind = .member
  fresh : x.phase.answered = false → (∀ t ∈ db.tokens, t.id ≠ n ∧ t.family ≠ n) ∧ ∀ c ∈ db.codes, c.id ≠ n + 1
  inserts : x.Inserts ttl db n
  sweeps : x.Sweeps db
  deactivates : x.Deactivates db
  codes : x.Codes db n

structure Session.Apart (x y : Session) : Prop where
  token : ∀ i ∈ x.tokenLocks, i ∉ y.tokenLocks
  user : ∀ k l, x.userLock = some k → y.userLock = some l → k.conflicts l = false

theorem UserLock.conflicts_symm (k l : UserLock) : k.conflicts l = l.conflicts k := by
  cases k <;> cases l <;> rfl

variable {x y : Session}

theorem Session.Apart.symm (h : x.Apart y) : y.Apart x where
  token i hy hx := h.token i hx hy
  user k l hk hl := by
    rw [UserLock.conflicts_symm]
    exact h.user l k hl hk

/-- What a statement locks beyond what its session has, the others leave free. -/
structure Session.Takes (others : (Session → Bool) → Bool) (x y : Session) : Prop where
  token : ∀ i ∈ y.tokenLocks, i ∈ x.tokenLocks ∨ tokenLocked others i = false
  user : ∀ l, y.userLock = some l → x.userLock = some l ∨ userLocked others l = false

variable {others : (Session → Bool) → Bool}

theorem Session.Takes.of_same (ht : y.tokenLocks = x.tokenLocks) (hu : y.userLock = x.userLock) :
    x.Takes others y where
  token _ h := .inl (ht ▸ h)
  user _ h := .inl (hu ▸ h)

theorem Session.Takes.apart {x y z : Session} (h : x.Takes others y) (hz : ∀ p, others p = false → p z = false)
    (ha : x.Apart z) : y.Apart z where
  token i hi := by
    rcases h.token i hi with hx | hn
    · exact ha.token i hx
    · exact of_decide_eq_false (hz _ hn)
  user k l hk hl := by
    rcases h.user k hk with hx | hn
    · exact ha.user k l hx hl
    · simpa [hl] using hz _ hn

section
variable {op : Operation} {w : Sweep} {id : Nat} {todo : List Nat}

theorem route_sweeping (h : op.route (.sweep w)) (todo : List Nat) : op.route (.sweeping w todo) := by
  cases op <;> simp_all [Operation.route]

theorem route_next (h : op.route (.sweeping w (id :: todo))) : op.route (.sweeping w todo) := by
  cases op <;> simp_all [Operation.route]

theorem route_swept (h : op.route (.sweeping w todo)) : op.route .commit := by
  cases op <;> simp_all [Operation.route]

theorem route_superseding {purpose : Option CodePurpose} (h : op.route (.supersede purpose)) (todo : List Nat) : op.route (.superseding todo) := by
  cases op <;> simp_all [Operation.route]

theorem route_nextCode (h : op.route (.superseding (id :: todo))) : op.route (.superseding todo) := by
  cases op <;> simp_all [Operation.route]

theorem route_insert (h : op.route .insertToken) : op.route .commit ∧ ((∃ token, op = .refresh token) → op.route .replaceToken) := by
  cases op <;> simp_all [Operation.route]

theorem route_replace (h : op.route .replaceToken) : ∃ token, op = .refresh token := by
  cases op <;> simp_all [Operation.route]

theorem route_superseded (h : op.route (.superseding todo)) :
    (∃ available expiresAt, op = .requestLoginCode available expiresAt) ∨ op = .setBlocked true := by
  cases op <;> simp_all [Operation.route]

theorem route_sweep_login (h : op.route (.sweep w) ∨ op.route (.sweeping w todo)) :
    op.creates = false ∧ (op = .setBlocked true ∨ (∃ eligible, op = .setActive false eligible) ∨ ∀ blocked active eligible, op ≠ .setBlocked blocked ∧ op ≠ .setActive active eligible) := by
  cases op <;> simp_all [Operation.route, Operation.creates]

end

/-! ## Statements -/

section
variable {ttl : Int} {db : Account} {others : (Session → Bool) → Bool} {n : Nat} {x y : Session}

theorem Session.Inserts.idle (h : x.Inserts ttl db n) (hp : x.phase.inserts = false) :
    x.rotating = none ∧ x.writes.token = none ∧ x.writes.replaced = none := by
  have hrot : x.rotating = none := by
    cases ht : x.rotating with
    | none => rfl
    | some t =>
      rcases (h.rotating t ht).stage with hs | ⟨hs, -⟩ | ⟨hs, -⟩ <;> (rw [hs] at hp; cases hp)
  refine ⟨hrot, ?_, ?_⟩
  · cases ht : x.writes.token with
    | none => rfl
    | some t =>
      have hw := h.written (by rw [ht]; rfl)
      rw [hp] at hw
      cases hw
  · cases ht : x.writes.replaced with
    | none => rfl
    | some i =>
      obtain ⟨t, hr, -⟩ := h.replaced i ht
      rw [hrot] at hr
      cases hr

theorem Session.Inserts.of_idle (hi : y.rotating = none ∧ y.writes.token = none ∧ y.writes.replaced = none)
    (hp : y.phase = .insertToken → y.op.creates) (hl : y.op = .login → y.phase ≠ .commit) : y.Inserts ttl db n where
  token t h := by rw [hi.2.1] at h; cases h
  inserts h := by
    rcases h with h | h
    · rw [hi.2.1] at h; cases h
    · exact .inr (hp h)
  written h := by rw [hi.2.1] at h; cases h
  inserted h h' := absurd h' (hl h)
  rotating t h := by rw [hi.1] at h; cases h
  replaced i h := by rw [hi.2.2] at h; cases h

theorem Session.Sweeps.of_none (hs : y.seen = [] ∧ y.writes.revoked = [] ∧ y.cut = [])
    (hn : ∀ w f, y.phase = .sweep w → w.named = some f → ∃ t ∈ db.tokens, t.family = f) (hp : ∀ w todo, y.phase ≠ .sweeping w todo) : y.Sweeps db where
  revoked i hi := by rw [hs.2.1] at hi; cases hi
  seen i hi := by rw [hs.1] at hi; cases hi
  named := hn
  cut f hf := by rw [hs.2.2] at hf; cases hf
  creates _ := hs.2.2
  rows := by
    unfold Session.Rows
    split
    · exact absurd ‹_› (hp _ _)
    · intro t _ hi
      rw [hs.1] at hi
      cases hi
    · exact hs

theorem Session.Deactivates.go (h : x.Deactivates db) (ha : y.writes.active = x.writes.active) (ho : y.op = x.op)
    (hop : ∀ active eligible, x.op ≠ .setActive active eligible) (hb : ∀ blocked, x.op ≠ .setBlocked blocked) (hr : y.op.route y.phase) :
    y.Deactivates db where
  first hp := by
    rw [ho] at hr
    cases hx : x.op with
    | setActive active eligible => exact absurd hx (hop active eligible)
    | setBlocked blocked => exact absurd hx (hb blocked)
    | _ => rw [hx] at hr; rcases hp with hp | hp <;> (rw [hp] at hr; simp [Operation.route] at hr)
  unlocked blocked hy := absurd (ho ▸ hy) (hb blocked)
  op := by rw [ha, ho]; exact h.op
  blocks hy := absurd (ho ▸ hy) (hb true)
  locks active eligible hy := absurd (ho ▸ hy) (hop active eligible)
  sweeps active eligible hy := absurd (ho ▸ hy) (hop active eligible)
  uncut active eligible hy := absurd (ho ▸ hy) (hop active eligible)
  seen active eligible hy := absurd (ho ▸ hy) (hop active eligible)

theorem Session.Deactivates.sweeping {w : Sweep} {todo : List Nat} (h : x.Deactivates db) (hx : x.phase = .sweeping w todo)
    (hy : y.phase ≠ .lockUser ∧ y.phase ≠ .updateUser) (ho : y.op = x.op) (ha : y.writes.active = x.writes.active) (hl : y.userLock = x.userLock)
    (hc : y.cut = x.cut) (hs : y.seen = x.seen) : y.Deactivates db where
  first hi := hi.elim (fun hi => absurd hi hy.1) fun hi => absurd hi hy.2
  unlocked _ _ hi := absurd hi hy.2
  op := by rw [ho, ha]; exact h.op
  blocks hb _ := by rw [ha]; exact h.blocks (ho ▸ hb) (by rw [hx]; nofun)
  locks _ _ hb _ := by rw [hl]; exact h.locks _ _ (ho ▸ hb) (by rw [hx]; nofun)
  sweeps _ _ hb _ := by rw [ha]; exact h.sweeps _ _ (ho ▸ hb) (.inr ⟨_, _, hx⟩)
  uncut _ _ hb hn := by rw [hc]; exact h.uncut _ _ (ho ▸ hb) (ha ▸ hn)
  seen _ _ hb _ hn := by rw [hs]; exact h.seen _ _ (ho ▸ hb) (.inl ⟨_, _, hx⟩) (ha ▸ hn)

def Phase.inCodes : Phase → Bool
  | .superseding _ => true
  | _ => false

theorem Session.CodeRows.of_not (hp : y.phase.inCodes = false) (h : ∀ c ∈ db.codes, c.id ∈ y.seenCodes → c.closed = false → c.id ∈ y.writes.closed) :
    y.CodeRows db := by
  unfold Session.CodeRows
  split
  · rename_i hph
    rw [hph] at hp
    cases hp
  · exact h

theorem Session.CodeRows.rows (h : x.CodeRows db) (hp : x.phase.inCodes = false) :
    ∀ c ∈ db.codes, c.id ∈ x.seenCodes → c.closed = false → c.id ∈ x.writes.closed := by
  unfold Session.CodeRows at h
  split at h
  · rename_i hph
    rw [hph] at hp
    cases hp
  · exact h

theorem Session.Codes.keep (h : x.Codes db n) (hop : y.op = x.op) (hb : y.begun = x.begun) (hs : y.seenCodes = x.seenCodes) (hc : y.writes.closed = x.writes.closed)
    (hw : y.writes.code = x.writes.code) (hx : x.phase.inCodes = false) (hy : y.phase.inCodes = false) (hu : y.phase.uncoded → x.phase.uncoded)
    (hn : ∀ available expiresAt, x.op = .requestLoginCode available expiresAt → y.phase ≠ .commit) : y.Codes db n where
  seen := hs ▸ h.seen
  closed := by rw [hop, hs, hc]; exact h.closed
  rows := .of_not hy (by rw [hs, hc]; exact h.rows.rows hx)
  uncoded hp := by rw [hc]; exact h.uncoded (hu hp)
  code := by rw [hw, hb, hop]; exact h.code
  coded _ _ ho hp := absurd hp (hn _ _ (hop ▸ ho))

theorem Session.Codes.go (h : x.Codes db n) (hop : y.op = x.op) (hb : y.begun = x.begun) (hs : y.seenCodes = x.seenCodes) (hc : y.writes.closed = x.writes.closed)
    (hw : y.writes.code = x.writes.code) (hx : x.phase.inCodes = false) (hy : y.phase.inCodes = false) (hu : y.phase.uncoded → x.phase.uncoded)
    (hn : ∀ available expiresAt, x.op ≠ .requestLoginCode available expiresAt) : y.Codes db n :=
  h.keep hop hb hs hc hw hx hy hu fun available expiresAt ho => absurd ho (hn available expiresAt)

def Phase.unswept : Phase → Bool
  | .sweeping .. | .commit => false
  | _ => true

theorem Session.Sweeps.unswept (h : x.Sweeps db) (hp : x.phase.unswept) : x.seen = [] ∧ x.writes.revoked = [] ∧ x.cut = [] := by
  have hr := h.rows
  unfold Session.Rows at hr
  split at hr
  · rename_i hph
    rw [hph] at hp
    cases hp
  · rename_i hph
    rw [hph] at hp
    cases hp
  · exact hr

end

end NawaraCore.AccountSessions
