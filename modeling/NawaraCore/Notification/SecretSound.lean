import NawaraCore.Notification.DeliveryEngine
import NawaraCore.Notification.IntakeSound
import NawaraCore.Lib.Rows

/-!
# The lifetime of a sealed secret

A session that ends a delivery holds the intent before it commits, and has then seen another
delivery open or purges the secret. Only the API's cancellation ends deliveries without a purge.
-/

namespace NawaraCore.Notification

variable {Value : Type} {intake : IntakeConfig Value} {catalog : Catalog} {cfg : EngineConfig} {r : Delivery} {x : Session Value}

/-! ## What a statement does -/

def Known (db : NotificationDb Value) (r : Delivery) : Prop := ∃ r₀ ∈ db.deliveries, r₀.id = r.id ∧ r₀.version = r.version

def Stmt.recalls : Stmt Value → Bool
  | .stampCancelled | .cancelPending | .cancelOne _ => true
  | _ => false

def Stmt.inserts : Stmt Value → Option (Intent Value × List Delivery)
  | .insert n ds => some (n, ds)
  | _ => none

def Follows (s : Stmt Value) (added : List (Stmt Value)) : Prop := ∀ t ∈ added, t.recalls = s.recalls ∧ t.inserts = none

inductive Advance (db : NotificationDb Value) (others : (Session Value → Bool) → Bool) : Session Value → Session Value → Prop
  | insert {n : Intent Value} {ds : List Delivery} {todo : List (Stmt Value)} {w : Work Value} :
    Advance db others ⟨.insert n ds :: todo, w⟩ ⟨todo, { w with inserted := some (n, ds) }⟩
  | quiet {s : Stmt Value} {todo added : List (Stmt Value)} {w : Work Value} (locked : List Nat) (stamp : Bool) (hf : Follows s added)
    (hl : s ≠ .lockOwn) (hp : s ≠ .purgeIfFinished) : Advance db others ⟨s :: todo, w⟩ ⟨added ++ todo, { w with locked, stamp }⟩
  | write {s : Stmt Value} {todo added : List (Stmt Value)} {w : Work Value} (locked : List Nat) (rs : List Delivery) (hs : s.recalls = false) (hf : Follows s added)
    (hl : s ≠ .lockOwn) (hp : s ≠ .purgeIfFinished) (hrs : ∀ r ∈ rs, Known db r ∧ r.status.terminal = false) :
    Advance db others ⟨s :: todo, w⟩ ⟨added ++ todo, { w with locked, writes := rs ++ w.writes }⟩
  | settle {s : Stmt Value} {todo : List (Stmt Value)} {w : Work Value} (r : Delivery) (hs : s.recalls = false) (hl : s ≠ .lockOwn) (hr : Known db r) :
    Advance db others ⟨s :: todo, w⟩ ⟨.purgeIfFinished :: todo, w.write r⟩
  | callBack {d : Nat} {todo : List (Stmt Value)} {w : Work Value} (r : Delivery) (hr : Known db r) :
    Advance db others ⟨.cancelOne d :: todo, w⟩ ⟨todo, { w.write r with recalls := true }⟩
  | lockIntent {todo : List (Stmt Value)} {w : Work Value} (ho : others Session.holdsIntent = false) :
    Advance db others ⟨.purgeIfFinished :: todo, w⟩ ⟨.purgeIfFinished :: todo, { w with intentLocked := true }⟩
  | purge {todo : List (Stmt Value)} {w : Work Value} (hi : w.intentLocked) :
    Advance db others ⟨.purgeIfFinished :: todo, w⟩
      ⟨todo, { w with purge := w.purge || (db.intent.any (fun n => n.secret.isSome) && db.deliveries.all fun r => (w.see r).status.terminal) }⟩
  | lockOwn {todo : List (Stmt Value)} {w : Work Value} (ho : others Session.holdsIntent = false) :
    Advance db others ⟨.lockOwn :: todo, w⟩ ⟨todo, { w with intentLocked := true }⟩
  | purgeDue {todo : List (Stmt Value)} {w : Work Value} (ho : others Session.holdsIntent = false) :
    Advance db others ⟨.purgeDue :: todo, w⟩ ⟨todo, { w with intentLocked := true, purge := true }⟩

variable {d : Nat}

section
variable {db : NotificationDb Value} {others : (Session Value → Bool) → Bool} {todo : List (Stmt Value)} {w : Work Value} {s : Stmt Value} {y : Session Value}

theorem follows_nil : Follows s [] := fun _ ht => by cases ht

theorem Follows.one {t : Stmt Value} (hr : t.recalls = s.recalls) (hi : t.inserts = none) : Follows s [t] := by
  intro t' ht'
  rw [List.mem_singleton.mp ht']
  exact ⟨hr, hi⟩

theorem follows_map {α : Type} {f : α → Stmt Value} (hr : ∀ a, (f a).recalls = s.recalls) (hi : ∀ a, (f a).inserts = none) (as : List α) : Follows s (as.map f) := by
  intro t ht
  obtain ⟨a, -, rfl⟩ := List.mem_map.mp ht
  exact ⟨hr a, hi a⟩

theorem row_known (hw : ∀ r ∈ w.writes, Known db r) (h : w.row db d = some r) : Known db r := by
  unfold Work.row at h
  cases hf : w.writes.find? fun r => r.id = d with
  | some r' =>
    rw [hf] at h
    obtain rfl := Option.some.inj h
    exact hw _ (List.mem_of_find?_eq_some hf)
  | none =>
    rw [hf] at h
    exact ⟨r, List.mem_of_find?_eq_some h, rfl, rfl⟩

theorem claimed_next {token : Int} {f : Delivery → Reply (Session Value)} (h : claimed db others w d token f = .next y) :
    ∃ r, w.row db d = some r ∧ r.status = .sending ∧ f r = .next y := by
  unfold claimed at h
  split at h
  · cases h
  · split at h
    · cases h
    · rename_i r hr
      split at h
      · rename_i hs
        exact ⟨r, hr, hs.1, h⟩
      · cases h

theorem settle_advance {status : DeliveryStatus} (hs : s.recalls = false) (hl : s ≠ .lockOwn) (hr : Known db r) (h : settle todo w r status = .next y) :
    Advance db others ⟨s :: todo, w⟩ y := by
  obtain rfl := Reply.next.inj h
  exact .settle _ hs hl hr

theorem write_advance (added : List (Stmt Value)) (hs : s.recalls = false) (hl : s ≠ .lockOwn) (hp : s ≠ .purgeIfFinished) (hr : Known db r) (ht : r.status.terminal = false)
    (hf : Follows s added) : Advance db others ⟨s :: todo, w⟩ ⟨added ++ todo, w.write r⟩ := by
  refine .write (r.id :: w.locked) [r] hs hf hl hp fun r' hr' => ?_
  rw [List.mem_singleton.mp hr']
  exact ⟨hr, ht⟩

theorem retry_advance {due : Int} {resends : Nat} (hs : s.recalls = false) (hl : s ≠ .lockOwn) (hp : s ≠ .purgeIfFinished) (hr : Known db r)
    (h : retry todo w r due resends = .next y) : Advance db others ⟨s :: todo, w⟩ y := by
  obtain rfl := Reply.next.inj h
  refine write_advance [] hs hl hp ?_ rfl follows_nil
  exact hr

variable {ctx : DeliveryContext}

theorem ambiguous_advance (hs : s.recalls = false) (hl : s ≠ .lockOwn) (hp : s ≠ .purgeIfFinished) (hr : Known db r)
    (h : ambiguous db todo w ctx r = .next y) : Advance db others ⟨s :: todo, w⟩ y := by
  unfold ambiguous at h
  split at h
  · exact retry_advance hs hl hp hr h
  · exact settle_advance hs hl hr h

theorem finish_advance {number : Nat} {result : ProviderResult} (hs : s.recalls = false) (hl : s ≠ .lockOwn) (hp : s ≠ .purgeIfFinished)
    (hr : Known db r) (h : finish cfg db todo w ctx number result r = .next y) : Advance db others ⟨s :: todo, w⟩ y := by
  have hr' : Known db { r with started := none } := hr
  unfold finish at h
  split at h
  · cases h
  · dsimp only at h
    split at h
    · exact settle_advance hs hl hr' h
    · exact ambiguous_advance hs hl hp hr' h
    · exact settle_advance hs hl hr' h
    · split at h
      · exact settle_advance hs hl hr' h
      · split at h
        · exact settle_advance hs hl hr' h
        · exact retry_advance hs hl hp hr' h

theorem checks_advance {token : Int} {sending : Sending} (h : checks db todo w d token sending = .next y) :
    Advance db others ⟨.context d token sending :: todo, w⟩ y := by
  have hnext : ∀ t : Stmt Value, t.recalls = false → t.inserts = none → Advance db others ⟨.context d token sending :: todo, w⟩ ⟨t :: todo, w⟩ :=
    fun t hr hi => (@Advance.quiet _ _ _ _ _ [t]) w.locked w.stamp (.one hr hi) (by simp) (by simp)
  unfold checks at h
  split at h
  · dsimp only at h
    split at h
    · obtain rfl := Reply.next.inj h
      exact hnext _ rfl rfl
    · split at h
      · obtain rfl := Reply.next.inj h
        exact hnext _ rfl rfl
      · split at h <;> obtain rfl := Reply.next.inj h <;> exact hnext _ rfl rfl
  · cases h

theorem recover_advance (hw : ∀ r ∈ w.writes, Known db r) (h : recover db others todo w d = .next y) : Advance db others ⟨.recover d :: todo, w⟩ y := by
  unfold recover at h
  split at h
  · cases h
  · split at h
    · rename_i r n hr hn
      have hknown := row_known hw hr
      have hended : Known db { r with started := none } := hknown
      split at h
      · cases h
      · split at h
        · exact retry_advance rfl (by simp) (by simp) hknown h
        · exact ambiguous_advance rfl (by simp) (by simp) hended h
    · cases h

theorem purgeIfFinished_advance (h : purgeIfFinished db others todo w = .next y) : Advance db others ⟨.purgeIfFinished :: todo, w⟩ y := by
  unfold purgeIfFinished at h
  split at h
  · split at h
    · cases h
    · rename_i ho
      obtain rfl := Reply.next.inj h
      exact .lockIntent (Bool.eq_false_iff.mpr ho)
  · rename_i hi
    obtain rfl := Reply.next.inj h
    exact .purge (Decidable.not_not.mp hi)

theorem cancelOne_advance (h : cancelOne db others todo w d = .next y) : Advance db others ⟨.cancelOne d :: todo, w⟩ y := by
  have hstay : Advance db others ⟨.cancelOne d :: todo, w⟩ ⟨todo, w⟩ := .quiet w.locked w.stamp follows_nil (by simp) (by simp)
  unfold cancelOne at h
  split at h
  · cases h
  · split at h
    · obtain rfl := Reply.next.inj h
      exact hstay
    · rename_i r hr
      split at h
      · obtain rfl := Reply.next.inj h
        exact .callBack _ ⟨r, List.mem_of_find?_eq_some hr, rfl, rfl⟩
      · obtain rfl := Reply.next.inj h
        exact hstay

theorem purgeDue_advance (h : purgeDue db others todo w = .next y) : Advance db others ⟨.purgeDue :: todo, w⟩ y := by
  unfold purgeDue at h
  split at h
  · cases h
  · split at h
    · cases h
    · rename_i ho
      split at h
      · obtain rfl := Reply.next.inj h
        exact .purgeDue (Bool.eq_false_iff.mpr ho)
      · cases h

theorem exec_advance (hw : ∀ r ∈ x.work.writes, Known db r) (h : x.exec cfg db others = .next y) : Advance db others x y := by
  obtain ⟨todo, w⟩ := x
  cases todo with
  | nil => cases h
  | cons s todo =>
    unfold Session.exec at h
    dsimp only at h hw
    cases s with
    | insert n ds =>
      obtain rfl := Reply.next.inj h
      exact .insert
    | claim picked =>
      obtain rfl := Reply.next.inj h
      refine .write _ _ rfl follows_nil (by simp) (by simp) fun r hr => ?_
      obtain ⟨r₀, hr₀, rfl⟩ := List.mem_map.mp hr
      exact ⟨⟨r₀, (List.mem_filter.mp hr₀).1, rfl, rfl⟩, rfl⟩
    | context d token sending => exact checks_advance h
    | startAttempt d token ctx result =>
      obtain ⟨r, hr, hs, hf⟩ := claimed_next h
      have hknown := row_known hw hr
      obtain rfl := Reply.next.inj hf
      refine write_advance [.commit, .finish d (db.clock + cfg.leaseMs) ctx (r.attempts + 1) result] rfl (by simp) (by simp) ?_ ?_ fun t ht => ?_
      · exact hknown
      · exact congrArg DeliveryStatus.terminal hs
      · rcases List.mem_cons.mp ht with rfl | ht
        · exact ⟨rfl, rfl⟩
        · rw [List.mem_singleton.mp ht]
          exact ⟨rfl, rfl⟩
    | finish d token ctx number result =>
      obtain ⟨r, hr, -, hf⟩ := claimed_next h
      exact finish_advance rfl (by simp) (by simp) (row_known hw hr) hf
    | transition d token status =>
      obtain ⟨r, hr, -, hf⟩ := claimed_next h
      exact settle_advance rfl (by simp) (row_known hw hr) hf
    | cancelClaimed d token =>
      obtain ⟨r, hr, -, hf⟩ := claimed_next h
      exact settle_advance rfl (by simp) (row_known hw hr) hf
    | release d token =>
      obtain ⟨r, hr, -, hf⟩ := claimed_next h
      exact retry_advance rfl (by simp) (by simp) (row_known hw hr) hf
    | renew d token =>
      obtain ⟨r, hr, hs, hf⟩ := claimed_next h
      have hknown := row_known hw hr
      obtain rfl := Reply.next.inj hf
      refine write_advance [] rfl (by simp) (by simp) ?_ ?_ follows_nil
      · exact hknown
      · exact congrArg DeliveryStatus.terminal hs
    | selectStale picked =>
      obtain rfl := Reply.next.inj h
      exact .quiet _ w.stamp (follows_map (f := fun r : Delivery => .recover r.id) (fun _ => rfl) (fun _ => rfl) _) (by simp) (by simp)
    | recover d => exact recover_advance hw h
    | purgeIfFinished => exact purgeIfFinished_advance h
    | lockOwn =>
      unfold runStmt lockOwn at h
      dsimp only at h
      split at h
      · cases h
      · rename_i ho
        split at h
        · cases h
        · obtain rfl := Reply.next.inj h
          exact .lockOwn (Bool.eq_false_iff.mpr ho)
    | stampCancelled =>
      obtain rfl := Reply.next.inj h
      exact .quiet w.locked _ follows_nil (by simp) (by simp)
    | cancelPending =>
      obtain rfl := Reply.next.inj h
      exact .quiet w.locked w.stamp (follows_map (f := fun r : Delivery => .cancelOne r.id) (fun _ => rfl) (fun _ => rfl) _) (by simp) (by simp)
    | cancelOne d => exact cancelOne_advance h
    | purgeDue => exact purgeDue_advance h
    | commit => cases h

end

/-! ## The sessions -/

def Settled (db : NotificationDb Value) (w : Work Value) : Prop :=
  (∃ r ∈ w.writes, r.status.terminal) → w.intentLocked ∧
    (w.recalls ∨ w.purge ∨ (∀ n, db.intent = some n → n.secret = none) ∨ ∃ r ∈ db.deliveries, (w.see r).status.terminal = false)

structure Session.Sound (db : NotificationDb Value) (x : Session Value) : Prop where
  inserted : ∀ n ds, x.work.inserted = some (n, ds) → Admissible n ds
  inserts : ∀ s ∈ x.todo, ∀ n ds, s.inserts = some (n, ds) → Admissible n ds
  writes : ∀ r ∈ x.work.writes, Known db r
  settled : x.todo.head? = some .purgeIfFinished ∨ Settled db x.work
  cancels : (∀ s ∈ x.todo, s.recalls = false) ∨ (x.work.intentLocked ∧ ∀ s ∈ x.todo, s.recalls) ∨ x.todo = [.lockOwn, .stampCancelled, .cancelPending]

def Apart (x y : Session Value) : Prop := ¬ (x.work.intentLocked ∧ y.work.intentLocked)

variable {n : Intent Value}

section
variable {db : NotificationDb Value} {others : (Session Value → Bool) → Bool} {todo : List (Stmt Value)} {w : Work Value} {s : Stmt Value}

variable {rs : List Delivery}

theorem find_append :
    ({ w with writes := rs ++ w.writes } : Work Value).see r = (rs.find? fun r' => r'.id = r.id).getD (w.see r) := by
  unfold Work.see
  dsimp only
  rw [List.find?_append]
  cases rs.find? fun r' => r'.id = r.id <;> rfl

theorem Settled.write (h : Settled db w) (hrs : ∀ r ∈ rs, r.status.terminal = false) (locked : List Nat) :
    Settled db { w with locked, writes := rs ++ w.writes } := by
  rintro ⟨r, hr, ht⟩
  have hold : r ∈ w.writes := by
    rcases List.mem_append.mp hr with hr | hr
    · rw [hrs r hr] at ht
      cases ht
    · exact hr
  obtain ⟨hi, hcase⟩ := h ⟨r, hold, ht⟩
  refine ⟨hi, hcase.imp_right (Or.imp_right (Or.imp_right ?_))⟩
  rintro ⟨r₀, hr₀, hopen⟩
  refine ⟨r₀, hr₀, ?_⟩
  show (({ w with writes := rs ++ w.writes } : Work Value).see r₀).status.terminal = false
  rw [find_append]
  cases hf : rs.find? fun r' => r'.id = r₀.id with
  | none => exact hopen
  | some r' => exact hrs r' (List.mem_of_find?_eq_some hf)

theorem Session.Sound.rest (h : (⟨s :: todo, w⟩ : Session Value).Sound db) (hl : s ≠ .lockOwn) {added : List (Stmt Value)} (hf : Follows s added) :
    (∀ t ∈ added ++ todo, ∀ n ds, t.inserts = some (n, ds) → Admissible n ds) ∧
      ((∀ t ∈ added ++ todo, t.recalls = false) ∨ (w.intentLocked ∧ ∀ t ∈ added ++ todo, t.recalls)) := by
  have hhead : ∀ t ∈ added, t.recalls = s.recalls := fun t ht => (hf t ht).1
  refine ⟨fun t ht n ds hi => ?_, ?_⟩
  · rcases List.mem_append.mp ht with ht | ht
    · rw [(hf t ht).2] at hi
      cases hi
    · exact h.inserts t (List.mem_cons_of_mem _ ht) n ds hi
  · rcases h.cancels with hall | ⟨hi, hall⟩ | hcancel
    · refine .inl fun t ht => ?_
      rcases List.mem_append.mp ht with ht | ht
      · exact (hhead t ht).trans (hall s List.mem_cons_self)
      · exact hall t (List.mem_cons_of_mem _ ht)
    · refine .inr ⟨hi, fun t ht => ?_⟩
      rcases List.mem_append.mp ht with ht | ht
      · exact (hhead t ht).trans (hall s List.mem_cons_self)
      · exact hall t (List.mem_cons_of_mem _ ht)
    · exact absurd (List.cons.inj hcancel).1 hl

theorem Session.Sound.worker (h : (⟨s :: todo, w⟩ : Session Value).Sound db) (hl : s ≠ .lockOwn) (hs : s.recalls = false) :
    ∀ t ∈ todo, t.recalls = false := by
  rcases h.cancels with hall | ⟨-, hall⟩ | hcancel
  · exact fun t ht => hall t (List.mem_cons_of_mem _ ht)
  · rw [hall s List.mem_cons_self] at hs
    cases hs
  · exact absurd (List.cons.inj hcancel).1 hl

theorem Advance.sound {y : Session Value} (ha : Advance db others x y) (h : x.Sound db) : y.Sound db := by
  cases ha with
  | insert =>
    have hrest := h.rest (by simp) follows_nil
    refine ⟨fun n ds hi => ?_, hrest.1, h.writes, .inr ?_, hrest.2.imp_right .inl⟩
    · obtain ⟨rfl, rfl⟩ := Prod.mk.inj (Option.some.inj hi)
      exact h.inserts _ List.mem_cons_self _ _ rfl
    · exact h.settled.resolve_left (by simp)
  | quiet locked stamp hf hl hp =>
    have hrest := h.rest hl hf
    refine ⟨h.inserted, hrest.1, h.writes, .inr ?_, hrest.2.imp_right .inl⟩
    exact h.settled.resolve_left fun he => hp (Option.some.inj he)
  | write locked rs hs hf hl hp hrs =>
    have hrest := h.rest hl hf
    refine ⟨h.inserted, hrest.1, fun r hr => ?_, .inr ?_, hrest.2.imp_right .inl⟩
    · rcases List.mem_append.mp hr with hr | hr
      · exact (hrs r hr).1
      · exact h.writes r hr
    · exact (h.settled.resolve_left fun he => hp (Option.some.inj he)).write (fun r hr => (hrs r hr).2) locked
  | settle r hs hl hr =>
    have hrest := h.rest hl follows_nil
    refine ⟨h.inserted, fun t ht => ?_, fun r' hr' => ?_, .inl rfl, .inl fun t ht => ?_⟩
    · rcases List.mem_cons.mp ht with rfl | ht
      · exact nofun
      · exact hrest.1 t ht
    · rcases List.mem_cons.mp hr' with rfl | hr'
      · exact hr
      · exact h.writes r' hr'
    · rcases List.mem_cons.mp ht with rfl | ht
      · rfl
      · exact h.worker hl hs t ht
  | @callBack d todo w r hr =>
    have hrest := h.rest (by simp) follows_nil
    have hlocked : w.intentLocked ∧ ∀ t ∈ todo, t.recalls := by
      rcases h.cancels with hall | ⟨hi, hall⟩ | hcancel
      · cases hall _ List.mem_cons_self
      · exact ⟨hi, fun t ht => hall t (List.mem_cons_of_mem _ ht)⟩
      · cases (List.cons.inj hcancel).1
    refine ⟨h.inserted, hrest.1, fun r' hr' => ?_, .inr fun _ => ⟨hlocked.1, .inl rfl⟩, .inr (.inl hlocked)⟩
    rcases List.mem_cons.mp hr' with rfl | hr'
    · exact hr
    · exact h.writes r' hr'
  | lockIntent ho =>
    have hworker := h.worker (by simp) rfl
    refine ⟨h.inserted, h.inserts, h.writes, .inl rfl, .inl fun t ht => ?_⟩
    rcases List.mem_cons.mp ht with rfl | ht
    · rfl
    · exact hworker t ht
  | @purge todo w hi =>
    have hrest := h.rest (by simp) follows_nil
    refine ⟨h.inserted, hrest.1, h.writes, .inr fun _ => ⟨hi, .inr ?_⟩, .inl (h.worker (by simp) rfl)⟩
    by_cases hopen : ∃ r ∈ db.deliveries, (w.see r).status.terminal = false
    · exact .inr (.inr hopen)
    · have hall : (db.deliveries.all fun r => (w.see r).status.terminal) = true :=
        List.all_eq_true.mpr fun r hr => Bool.not_eq_false _ ▸ fun hr' => hopen ⟨r, hr, hr'⟩
      cases hsecret : db.intent.any fun n => n.secret.isSome with
      | true =>
        refine .inl ?_
        show (w.purge || (true && db.deliveries.all fun r => (w.see r).status.terminal)) = true
        rw [hall, Bool.and_true, Bool.or_true]
      | false =>
        refine .inr (.inl fun n hn => ?_)
        rw [hn] at hsecret
        exact Option.isNone_iff_eq_none.mp (by simpa using hsecret)
  | @lockOwn todo w ho =>
    have hsettled : Settled db w := h.settled.resolve_left (by simp)
    refine ⟨h.inserted, fun t ht => h.inserts t (List.mem_cons_of_mem _ ht), h.writes, .inr fun ht => ⟨rfl, (hsettled ht).2⟩, ?_⟩
    rcases h.cancels with hall | ⟨-, hall⟩ | hcancel
    · exact .inl fun t ht => hall t (List.mem_cons_of_mem _ ht)
    · exact .inr (.inl ⟨rfl, fun t ht => hall t (List.mem_cons_of_mem _ ht)⟩)
    · refine .inr (.inl ⟨rfl, ?_⟩)
      rw [(List.cons.inj hcancel).2]
      simp [Stmt.recalls]
  | purgeDue ho =>
    have hrest := h.rest (by simp) follows_nil
    exact ⟨h.inserted, hrest.1, h.writes, .inr fun _ => ⟨rfl, .inr (.inl rfl)⟩, .inl (h.worker (by simp) rfl)⟩

theorem Advance.apart {y z : Session Value} (ha : Advance db others x y) (hz : ∀ p, others p = false → p z = false) (h : Apart x z) : Apart y z := by
  have hfree : others Session.holdsIntent = false → ¬ z.work.intentLocked := fun ho hi => by
    have hno := hz _ ho
    rw [Session.holdsIntent, hi] at hno
    cases hno
  cases ha with
  | lockIntent ho => exact fun hboth => hfree ho hboth.2
  | lockOwn ho => exact fun hboth => hfree ho hboth.2
  | purgeDue ho => exact fun hboth => hfree ho hboth.2
  | _ => exact h

/-! ## Commits -/

structure NotificationDb.Sound (db : NotificationDb Value) : Prop where
  empty : db.intent = none → db.deliveries = []
  ids : (db.deliveries.map Delivery.id).Nodup
  law : SecretLaw db

theorem see_id (w : Work Value) (r : Delivery) : (w.see r).id = r.id := by
  unfold Work.see
  cases hf : w.writes.find? fun r' => r'.id = r.id with
  | none => rfl
  | some r' =>
    have hid := List.find?_some hf
    simpa using hid

theorem see_version (hdb : db.Sound) (hw : ∀ r ∈ w.writes, Known db r) (hr : r ∈ db.deliveries) : (w.see r).version = r.version := by
  have hid := see_id w r
  unfold Work.see at hid ⊢
  cases hf : w.writes.find? fun r' => r'.id = r.id with
  | none => rfl
  | some r' =>
    rw [hf] at hid
    obtain ⟨r₀, hr₀, hid₀, hversion⟩ := hw r' (List.mem_of_find?_eq_some hf)
    rw [eq_of_key hdb.ids hr₀ hr (hid₀.trans hid)] at hversion
    exact hversion.symm

theorem see_open (hw : ∀ r ∈ w.writes, r.status.terminal = false) (hr : r.status.terminal = false) : (w.see r).status.terminal = false := by
  unfold Work.see
  cases hf : w.writes.find? fun r' => r'.id = r.id with
  | none => exact hr
  | some r' => exact hw r' (List.mem_of_find?_eq_some hf)

theorem apply_cases (db : NotificationDb Value) (w : Work Value) :
    (∃ n ds, db.intent = none ∧ w.inserted = some (n, ds) ∧ (db.apply w).intent = some n ∧ (db.apply w).deliveries = ds) ∨
      ((db.apply w).intent = db.intent.map (Intent.after w db.clock) ∧ (db.apply w).deliveries = db.deliveries.map w.see ∧
        (db.apply w).recalled = if w.writes.any fun r => r.status.terminal then w.recalls else db.recalled) := by
  unfold NotificationDb.apply
  split
  · rename_i n ds hn hi
    exact .inl ⟨n, ds, hn, hi, rfl, rfl⟩
  · exact .inr ⟨rfl, rfl, rfl⟩

theorem apply_plain (hdb : db.Sound) (hw : ∀ r ∈ w.writes, Known db r) (hi : ∀ n ds, w.inserted = some (n, ds) → Admissible n ds) :
    ∀ n, (db.apply w).intent = some n → ∀ v ∈ n.data, ∀ r ∈ (db.apply w).deliveries, r.version.schema.secret v.1 = false := by
  intro n hn v hv r hr
  rcases apply_cases db w with ⟨n', ds, -, hins, hint, hds⟩ | ⟨hint, hds, -⟩
  · obtain rfl := Option.some.inj (hint.symm.trans hn)
    exact (hi _ _ hins).plain v hv r (hds ▸ hr)
  · rw [hint] at hn
    rw [hds] at hr
    obtain ⟨n₀, hn₀, rfl⟩ := Option.map_eq_some_iff.mp hn
    obtain ⟨r₀, hr₀, rfl⟩ := List.mem_map.mp hr
    rw [see_version hdb hw hr₀]
    exact hdb.law.plain n₀ hn₀ v hv r₀ hr₀

theorem after_secret {now : Int} (h : (n.after w now).secret.isSome) : w.purge = false ∧ n.secret.isSome := by
  unfold Intent.after at h
  dsimp only at h
  split at h
  · cases h
  · rename_i hp
    exact ⟨Bool.eq_false_iff.mpr hp, h⟩

section
variable (hdb : db.Sound)
include hdb

theorem apply_finished (hi : ∀ n ds, w.inserted = some (n, ds) → Admissible n ds) (hs : Settled db w) :
    ∀ n, (db.apply w).intent = some n → (∀ r ∈ (db.apply w).deliveries, r.status.terminal) → n.secret.isSome → (db.apply w).recalled := by
  intro n hn hall hsecret
  rcases apply_cases db w with ⟨n', ds, -, hins, hint, hds⟩ | ⟨hint, hds, hrec⟩
  · obtain rfl := Option.some.inj (hint.symm.trans hn)
    rw [(hi _ _ hins).finished (hds ▸ hall)] at hsecret
    cases hsecret
  · rw [hint] at hn
    rw [hds] at hall
    obtain ⟨n₀, hn₀, rfl⟩ := Option.map_eq_some_iff.mp hn
    obtain ⟨hpurge, hsecret⟩ := after_secret hsecret
    have hended : ∀ r ∈ db.deliveries, (w.see r).status.terminal := fun r hr => hall _ (List.mem_map_of_mem hr)
    rw [hrec]
    by_cases ht : ∃ r ∈ w.writes, r.status.terminal
    · rw [if_pos (List.any_eq_true.mpr ht)]
      rcases (hs ht).2 with hrecalls | hp | hnone | ⟨r, hr, hopen⟩
      · exact hrecalls
      · rw [hpurge] at hp
        cases hp
      · rw [hnone n₀ hn₀] at hsecret
        cases hsecret
      · rw [hended r hr] at hopen
        cases hopen
    · -- the deliveries were finished before, and nothing was written
      rw [if_neg (fun hany => ht (List.any_eq_true.mp hany))]
      have hopens : ∀ r ∈ w.writes, r.status.terminal = false := fun r hr => Bool.eq_false_iff.mpr fun he => ht ⟨r, hr, he⟩
      refine hdb.law.finished n₀ hn₀ (fun r hr => ?_) hsecret
      by_contra hno
      have hopen := see_open hopens (Bool.eq_false_iff.mpr hno)
      rw [hended r hr] at hopen
      cases hopen

theorem apply_sound (hw : ∀ r ∈ w.writes, Known db r) (hi : ∀ n ds, w.inserted = some (n, ds) → Admissible n ds) (hs : Settled db w) :
    (db.apply w).Sound where
  empty hn := by
    rcases apply_cases db w with ⟨n, ds, -, -, hint, -⟩ | ⟨hint, hds, -⟩
    · rw [hint] at hn
      cases hn
    · rw [hds, hdb.empty (Option.map_eq_none_iff.mp (hint.symm.trans hn))]
      rfl
  ids := by
    rcases apply_cases db w with ⟨n, ds, -, hins, -, hds⟩ | ⟨-, hds, -⟩
    · rw [hds]
      exact (hi _ _ hins).ids
    · have hmap : db.deliveries.map (Delivery.id ∘ w.see) = db.deliveries.map Delivery.id := List.map_congr_left fun r _ => see_id w r
      rw [hds, List.map_map, hmap]
      exact hdb.ids
  law := ⟨apply_finished hdb hi hs, apply_plain hdb hw hi⟩

theorem Known.apply (hw : ∀ r ∈ w.writes, Known db r) (h : Known db r) : Known (db.apply w) r := by
  obtain ⟨r₀, hr₀, hid, hversion⟩ := h
  rcases apply_cases db w with ⟨n, ds, hnone, -⟩ | ⟨-, hds, -⟩
  · rw [hdb.empty hnone] at hr₀
    cases hr₀
  · refine ⟨w.see r₀, ?_, (see_id w r₀).trans hid, (see_version hdb hw hr₀).trans hversion⟩
    rw [hds]
    exact List.mem_map_of_mem hr₀

theorem Settled.apply {v : Work Value} (hw : Settled db w) (hv : ∀ r ∈ v.writes, Known db r) (h : Settled db v)
    (hapart : ¬ (v.intentLocked ∧ w.intentLocked)) : Settled (db.apply w) v := by
  intro ht
  obtain ⟨hlocked, hcase⟩ := h ht
  have hopens : ∀ r ∈ w.writes, r.status.terminal = false :=
    fun r hr => Bool.eq_false_iff.mpr fun he => hapart ⟨hlocked, (hw ⟨r, hr, he⟩).1⟩
  refine ⟨hlocked, hcase.imp_right (Or.imp_right (Or.imp ?_ ?_))⟩
  · intro hnone n hn
    rcases apply_cases db w with ⟨n', ds, hempty, -⟩ | ⟨hint, -⟩
    · -- the session writes on rows that are there
      obtain ⟨r, hr, -⟩ := ht
      obtain ⟨r₀, hr₀, -⟩ := hv r hr
      rw [hdb.empty hempty] at hr₀
      cases hr₀
    · rw [hint] at hn
      obtain ⟨n₀, hn₀, rfl⟩ := Option.map_eq_some_iff.mp hn
      cases hsecret : (n₀.after w db.clock).secret with
      | none => rfl
      | some c =>
        have hbefore := (after_secret (by rw [hsecret]; rfl)).2
        rw [hnone n₀ hn₀] at hbefore
        cases hbefore
  · rintro ⟨r, hr, hopen⟩
    rcases apply_cases db w with ⟨n', ds, hempty, -⟩ | ⟨-, hds, -⟩
    · rw [hdb.empty hempty] at hr
      cases hr
    · refine ⟨w.see r, hds ▸ List.mem_map_of_mem hr, ?_⟩
      unfold Work.see at hopen ⊢
      have hid := see_id w r
      unfold Work.see at hid
      rw [hid]
      cases hf : v.writes.find? fun r' => r'.id = r.id with
      | some r' =>
        rw [hf] at hopen
        exact hopen
      | none =>
        rw [hf] at hopen
        exact see_open hopens hopen

theorem Session.Sound.apply (hw : ∀ r ∈ w.writes, Known db r) (hs : Settled db w) (h : x.Sound db)
    (hapart : ¬ (x.work.intentLocked ∧ w.intentLocked)) : x.Sound (db.apply w) where
  inserted := h.inserted
  inserts := h.inserts
  writes r hr := (h.writes r hr).apply hdb hw
  settled := h.settled.imp_right fun hx => Settled.apply hdb hs h.writes hx hapart
  cancels := h.cancels

end

theorem of_sound {todo : List (Stmt Value)} (hi : ∀ s ∈ todo, ∀ n ds, s.inserts = some (n, ds) → Admissible n ds)
    (hc : (∀ s ∈ todo, s.recalls = false) ∨ todo = [.lockOwn, .stampCancelled, .cancelPending]) : (Session.of todo).Sound db where
  inserted _ _ he := by cases he
  inserts := hi
  writes _ hr := by cases hr
  settled := .inr fun ⟨_, hr, _⟩ => by cases hr
  cancels := hc.imp_right .inr

end

/-! ## Runs -/

theorem start_sound {db : NotificationDb Value} {now : Int} {op : Operation Value} {x : Session Value} (h : start intake catalog now op = some x) :
    x.Sound db ∧ x.work.intentLocked = false := by
  have hplain : ∀ s : Stmt Value, s.recalls = false → (∀ n ds, s.inserts = some (n, ds) → Admissible n ds) → (Session.of [s]).Sound db := by
    intro s hs hi
    refine of_sound (fun t ht => ?_) (.inl fun t ht => ?_)
    · exact List.mem_singleton.mp ht ▸ hi
    · exact List.mem_singleton.mp ht ▸ hs
  have hnone : ∀ s : Stmt Value, s.recalls = false → s.inserts = none → (Session.of [s]).Sound db :=
    fun s hs hi => hplain s hs fun n ds he => by rw [hi] at he; cases he
  cases op with
  | handle e =>
    obtain ⟨⟨n, ds⟩, hh, rfl⟩ := Option.map_eq_some_iff.mp h
    refine ⟨hplain _ rfl fun n' ds' he => ?_, rfl⟩
    obtain ⟨rfl, rfl⟩ := Prod.mk.inj (Option.some.inj he)
    exact handle_admissible hh
  | send r =>
    obtain ⟨⟨n, ds⟩, hh, rfl⟩ := Option.map_eq_some_iff.mp h
    refine ⟨hplain _ rfl fun n' ds' he => ?_, rfl⟩
    obtain ⟨rfl, rfl⟩ := Prod.mk.inj (Option.some.inj he)
    exact send_admissible hh
  | cancel =>
    obtain rfl := Option.some.inj h
    refine ⟨of_sound (fun s hs n ds he => ?_) (.inr rfl), rfl⟩
    simp only [List.mem_cons, List.not_mem_nil, or_false] at hs
    rcases hs with rfl | rfl | rfl <;> cases he
  | claim picked | processOne d token s | release d token | renew d token | recoverStale picked | purgeOnce =>
    obtain rfl := Option.some.inj h
    exact ⟨hnone _ rfl rfl, rfl⟩

theorem commit_sound {db db' : NotificationDb Value} {y : Option (Session Value)} (h : x.Sound db) (hc : commit db x = some (db', y)) :
    db' = db.apply x.work ∧ Settled db x.work ∧ ∀ z, y = some z → (∀ db, z.Sound db) ∧ z.work.intentLocked = false := by
  unfold commit at hc
  split at hc
  · rename_i htodo
    obtain ⟨rfl, rfl⟩ := Prod.mk.inj (Option.some.inj hc)
    refine ⟨rfl, h.settled.resolve_left (by simp [htodo]), fun z hz => ?_⟩
    cases hz
  · rename_i todo htodo
    obtain ⟨rfl, rfl⟩ := Prod.mk.inj (Option.some.inj hc)
    refine ⟨rfl, h.settled.resolve_left (by simp [htodo]), fun z hz => ?_⟩
    obtain rfl := Option.some.inj hz
    obtain ⟨todo', w⟩ := x
    obtain rfl : todo' = .commit :: todo := htodo
    refine ⟨fun db' => of_sound (fun s hs => h.inserts s (List.mem_cons_of_mem _ hs)) (.inl (h.worker (by simp) rfl)), rfl⟩
  · cases hc

theorem engine_keeps (intake : IntakeConfig Value) (catalog : Catalog) (cfg : EngineConfig) :
    (engine intake catalog cfg).Keeps (fun _ => NotificationDb.Sound) (fun db _ x => x.Sound db) Apart fun _ _ _ => True where
  symm _ _ h hboth := h hboth.symm
  fresh _ _ h := h
  start _ db op x _ hx := by
    obtain ⟨hsound, hfree⟩ := (@start_sound _ _ _ db) hx
    refine ⟨hsound, fun y hboth => ?_⟩
    rw [hfree] at hboth
    cases hboth.1
  exec _ db others _ x y _ hx hy := by
    have ha := exec_advance hx.writes hy
    exact ⟨ha.sound hx, fun z hz hc => ha.apart hz hc⟩
  commit _ db _ x db' y _ hdb hx _ hc := by
    obtain ⟨rfl, hs, hnext⟩ := commit_sound hx hc
    refine ⟨apply_sound hdb hx.writes hx.inserted hs, fun z hz => ⟨(hnext z hz).1 _, fun w hboth => ?_⟩, fun _ z _ hz hapart => ?_⟩
    · rw [(hnext z hz).2] at hboth
      cases hboth.1
    · exact hz.apply hdb hx.writes hs hapart
  elapse _ db d hdb := by
    refine ⟨⟨hdb.empty, hdb.ids, hdb.law.finished, hdb.law.plain⟩, fun _ x hx => ?_⟩
    exact ⟨hx.inserted, hx.inserts, hx.writes, hx.settled, hx.cancels⟩

theorem new_sound : (NotificationDb.new Value).Sound where
  empty _ := rfl
  ids := List.nodup_nil
  law := ⟨nofun, nofun⟩

theorem apply_secretKept (db : NotificationDb Value) (w : Work Value) : SecretKept db (db.apply w) := by
  intro n hn
  rcases apply_cases db w with ⟨n', ds, hempty, -⟩ | ⟨hint, -⟩
  · rw [hn] at hempty
    cases hempty
  · refine ⟨n.after w db.clock, by rw [hint, hn]; rfl, rfl, ?_⟩
    unfold Intent.after
    dsimp only
    split
    · exact .inr rfl
    · exact .inl rfl

def purgePass (Value : Type) (n : Nat) : List (Transactions.Action (Operation Value) Nat) := [.start .purgeOnce, .exec n, .commit n]

theorem purgePass_purges (intake : IntakeConfig Value) (catalog : Catalog) (cfg : EngineConfig) {s : Transactions.State (NotificationDb Value) (Session Value)} (hn : s.db.intent = some n)
    (hall : ∀ r ∈ s.db.deliveries, r.status.terminal) (hfree : s.others s.fresh Session.holdsIntent = false) :
    (((purgePass Value s.fresh).foldl (engine intake catalog cfg).step s).db.intent.bind Intent.secret) = none := by
  have hopen : (s.db.deliveries.any fun r => r.status = .pending ∨ r.status = .sending) = false := by
    refine List.any_eq_false.mpr fun r hr => ?_
    have ht := hall r hr
    cases hs : r.status <;> simp_all [DeliveryStatus.terminal]
  have hothers := Transactions.others_start s (some (Session.of [.purgeDue])) Session.holdsIntent
  rw [hfree] at hothers
  unfold purgePass
  rw [List.foldl_cons, List.foldl_cons, List.foldl_cons, List.foldl_nil]
  -- the session begins
  have hstart : (engine intake catalog cfg).step s (.start .purgeOnce) =
      ⟨s.db, s.fresh + 1, Function.update s.session s.fresh (some (Session.of [.purgeDue]))⟩ := rfl
  rw [hstart]
  generalize hs₁ : (⟨s.db, s.fresh + 1, Function.update s.session s.fresh (some (Session.of [.purgeDue]))⟩ :
    Transactions.State (NotificationDb Value) (Session Value)) = s₁ at hothers
  have hdb : s₁.db = s.db := by rw [← hs₁]
  have hsession : s₁.session s.fresh = some (.of [.purgeDue]) := by
    rw [← hs₁]
    exact Function.update_self ..
  have hexec : (engine intake catalog cfg).exec s₁.db (s₁.others s.fresh) s.fresh (.of [.purgeDue]) =
      if n.secret.isSome then .next ⟨[], { Work.empty with intentLocked := true, purge := true }⟩ else .refused := by
    show purgeDue s₁.db (s₁.others s.fresh) [] Work.empty = _
    unfold purgeDue
    rw [hdb, hn]
    dsimp only
    rw [if_neg (by rw [hothers]; exact Bool.false_ne_true), hopen]
    simp
  cases hsecret : n.secret with
  | none =>
    rw [hsecret] at hexec
    rw [Transactions.step_refused hsession hexec, Transactions.step_closed (Function.update_self ..)]
    show s₁.db.intent.bind Intent.secret = none
    rw [hdb, hn]
    exact hsecret
  | some c =>
    rw [hsecret] at hexec
    rw [Transactions.step_next hsession hexec, Transactions.step_commit (Function.update_self ..) rfl]
    show (s₁.db.apply { Work.empty with intentLocked := true, purge := true }).intent.bind Intent.secret = none
    rw [hdb]
    rcases apply_cases s.db { Work.empty with intentLocked := true, purge := true } with ⟨_, _, hempty, -⟩ | ⟨hint, -⟩
    · rw [hn] at hempty
      cases hempty
    · rw [hint, hn]
      rfl

/-- **The lifetime of a secret.** In every state a finished notification keeps a secret only when the API's cancellation finished
it, and the next pass that finds it unlocked purges that one; a secret that is purged stays so; and the plain data hold no variable
that a version of the notification marks secret. -/
theorem secret_lifetime (intake : IntakeConfig Value) (catalog : Catalog) (cfg : EngineConfig) (actions : List (Transactions.Action (Operation Value) Nat)) :
    (∀ k, SecretLaw ((engine intake catalog cfg).run (.new Value) (actions.take k)).db) ∧
      Along (engine intake catalog cfg).step (fun s a => SecretKept s.db ((engine intake catalog cfg).step s a).db) (.new (.new Value)) actions ∧
      let s := (engine intake catalog cfg).run (.new Value) actions
      (s.db.intent.isSome ∧ (∀ r ∈ s.db.deliveries, r.status.terminal) ∧ s.others s.fresh Session.holdsIntent = false →
        ((engine intake catalog cfg).run (.new Value) (actions ++ purgePass Value s.fresh)).db.intent.bind Intent.secret = none) := by
  have hkeeps := engine_keeps intake catalog cfg
  refine ⟨fun k => (Transactions.Inv.run new_sound hkeeps _).committed.law, ?_, ?_⟩
  · refine hkeeps.holds (fun _ db _ n hn => ⟨n, hn, rfl, .inl rfl⟩) (fun _ db d _ n hn => ⟨n, hn, rfl, .inl rfl⟩) ?_ new_sound actions (Transactions.meets_true _ _)
    intro _ db _ x db' y _ hx _ hc
    rw [(commit_sound hx hc).1]
    exact apply_secretKept db x.work
  · intro s ⟨hn, hall, hfree⟩
    obtain ⟨n, hn⟩ := Option.isSome_iff_exists.mp hn
    have hpass := purgePass_purges intake catalog cfg hn hall hfree
    unfold Transactions.run
    rw [List.foldl_append]
    exact hpass

def otpVersion : TemplateVersion := ⟨0, "auth.otp", .sms, "en", 1, [("code", ⟨.code, true, true, none⟩)]⟩

def otpCatalog : Catalog where
  versions := [otpVersion]
  shared v w hv hw _ _ := by rw [List.mem_singleton.mp hv.published, List.mem_singleton.mp hw.published]

def otpIntake : IntakeConfig String where
  defaultLocale := "en"
  localeShape _ := true
  valueProblem _ value := value.isEmpty
  isValidDestination _ destination := destination.startsWith "+"
  text value := value
  sealing secrets := ⟨String.join (secrets.map Prod.snd), "k1"⟩

def otpRequest : SendRequest String := ⟨"auth.otp", none, (.sms, "+22890000000"), [], [("code", some "123456")], some 60000, none⟩

theorem recalled_keeps :
    let s := (engine otpIntake otpCatalog ⟨30000, 3⟩).run (.new String)
      [.start (.send otpRequest), .exec 0, .commit 0, .start .cancel, .exec 1, .exec 1, .exec 1, .exec 1, .commit 1]
    s.db.deliveries ≠ [] ∧ (∀ r ∈ s.db.deliveries, r.status.terminal) ∧ s.db.intent.any fun n => n.secret.isSome := by
  decide +kernel

end NawaraCore.Notification
