import NawaraCore.Payment.SettlementSound
import NawaraCore.Payment.Webhook

/-!
# Early notifications converge

A notification can be processed before its attempt is visible. Until it is matched, or kept
as an unmatched fact, it leaves no trace but its own row: erasing its steps from a run
changes nothing else, so it may as well have arrived after the attempt.
-/

namespace NawaraCore.Payments

variable {x : Uuid}

section
variable {cfg : PaymentConfig} {w v : Inbox} {id : Uuid} {n : Notification}

def Inbox.withOwn (w : Inbox) (id : Uuid) (r : Option WebhookEvent) (ts : List Task) : Inbox :=
  { w with rows := Function.update w.rows id r, tasks := Function.update w.tasks id ts }

variable {as : List InboxAction} {a : InboxAction}

section
variable (w : Inbox) (id : Uuid) (r : Option WebhookEvent) (ts : List Task)

@[simp] theorem Inbox.withOwn_sys : (w.withOwn id r ts).sys = w.sys := rfl

@[simp] theorem Inbox.withOwn_rows : (w.withOwn id r ts).rows id = r := by simp [withOwn]

@[simp] theorem Inbox.withOwn_tasks : (w.withOwn id r ts).tasks id = ts := by simp [withOwn]

theorem Inbox.withOwn_rows_of_ne (hx : x ≠ id) : (w.withOwn id r ts).rows x = w.rows x := by
  simp only [withOwn, Function.update_of_ne hx]

theorem Inbox.withOwn_tasks_of_ne (hx : x ≠ id) : (w.withOwn id r ts).tasks x = w.tasks x := by
  simp only [withOwn, Function.update_of_ne hx]

theorem Inbox.withOwn_eq : w.withOwn id (w.rows id) (w.tasks id) = w := by
  simp [withOwn]

@[simp] theorem Inbox.setRow_withOwn (e : WebhookEvent) :
    (w.withOwn id r ts).setRow id e = w.withOwn id (some e) ts := by
  simp [withOwn, setRow]

@[simp] theorem Inbox.addTask_withOwn (t : Task) : (w.withOwn id r ts).addTask id t = w.withOwn id r (t :: ts) := by
  simp [withOwn, addTask]

@[simp] theorem Inbox.dropTask_withOwn (t : Task) :
    (w.withOwn id r ts).dropTask id t = w.withOwn id r (ts.erase t) := by
  simp [withOwn, dropTask]

section
variable (hx : x ≠ id)
include hx

theorem Inbox.setRow_comm (e : WebhookEvent) :
    (w.withOwn id r ts).setRow x e = (w.setRow x e).withOwn id r ts := by
  simp only [withOwn, setRow]
  rw [Function.update_comm hx]

theorem Inbox.addTask_comm (t : Task) :
    (w.withOwn id r ts).addTask x t = (w.addTask x t).withOwn id r ts := by
  simp only [withOwn, addTask, Function.update_of_ne hx]
  rw [Function.update_comm hx]

theorem Inbox.dropTask_comm (t : Task) :
    (w.withOwn id r ts).dropTask x t = (w.dropTask x t).withOwn id r ts := by
  simp only [withOwn, dropTask, Function.update_of_ne hx]
  rw [Function.update_comm hx]

/-! ## The steps of the others -/

theorem receive_comm (m : Option Notification) (now : Int) :
    receive (w.withOwn id r ts) x m now = (receive w x m now).withOwn id r ts := by
  simp only [receive, Inbox.withOwn_rows_of_ne _ _ _ _ hx]
  cases w.rows x with
  | none => simp only [Inbox.setRow_comm _ _ _ _ hx, Inbox.addTask_comm _ _ _ _ hx]
  | some e => by_cases hs : e.state.settled <;> simp [hs, Inbox.addTask_comm _ _ _ _ hx]

theorem retry_comm (now : Int) :
    retry (w.withOwn id r ts) x now = (retry w x now).withOwn id r ts := by
  simp only [retry, Inbox.withOwn_rows_of_ne _ _ _ _ hx]
  cases w.rows x with
  | none => rfl
  | some e =>
    dsimp only
    split <;> simp only [Inbox.addTask_comm _ _ _ _ hx]

theorem exhaust_comm :
    exhaust (w.withOwn id r ts) x = (exhaust w x).withOwn id r ts := by
  simp only [exhaust, Inbox.withOwn_rows_of_ne _ _ _ _ hx]
  cases w.rows x with
  | none => rfl
  | some e =>
    dsimp only
    split <;> simp only [Inbox.setRow_comm _ _ _ _ hx]

theorem process_comm (m : Notification) (freshId : Uuid) :
    process cfg (w.withOwn id r ts) x m freshId = (process cfg w x m freshId).withOwn id r ts := by
  simp only [process, Inbox.withOwn_sys, Inbox.addTask_comm _ _ _ _ hx]
  split
  · rfl
  · split
    · rfl
    · split
      · exact Inbox.addTask_comm { w with sys := _ } _ _ _ hx _
      · split <;> rfl

theorem keepUnmatched_comm (e : WebhookEvent) (m : Notification) (now : Int) (freshId : Uuid) :
    keepUnmatched (w.withOwn id r ts) x e m now freshId = (keepUnmatched w x e m now freshId).withOwn id r ts := by
  simp only [keepUnmatched, Inbox.withOwn_sys, Inbox.addTask_comm _ _ _ _ hx]
  split
  · split
    · split
      · exact Inbox.addTask_comm { w with sys := _ } _ _ _ hx _
      · rfl
    · rfl
  · rfl

theorem advance_comm (task : Task) (now : Int) (freshId : Uuid) :
    advance cfg (w.withOwn id r ts) x task now freshId = (advance cfg w x task now freshId).withOwn id r ts := by
  simp only [advance, Inbox.withOwn_rows_of_ne _ _ _ _ hx, Inbox.withOwn_tasks_of_ne _ _ _ _ hx, Inbox.withOwn_sys]
  split
  · cases w.rows x with
    | none => rfl
    | some e =>
      cases task with
      | process =>
        cases hn : e.notification with
        | none => simp only [hn]
        | some m => simp only [hn, Inbox.dropTask_comm _ _ _ _ hx, process_comm _ _ _ _ hx]
      | keepUnmatched =>
        cases hn : e.notification with
        | none => simp only [hn]
        | some m => simp only [hn, Inbox.dropTask_comm _ _ _ _ hx, keepUnmatched_comm _ _ _ _ hx]
      | await a st =>
        dsimp only
        cases answerOf w.sys x a st with
        | none => rfl
        | some p =>
          dsimp only
          rw [← Inbox.addTask_comm _ _ _ _ hx, ← Inbox.dropTask_comm _ _ _ _ hx]
          rfl
      | mark s o m => simp only [Inbox.setRow_comm _ _ _ _ hx, Inbox.dropTask_comm _ _ _ _ hx]
  · rfl

end

theorem step_comm (ha : a.eventId ≠ some id) :
    (w.withOwn id r ts).step cfg a = (w.step cfg a).withOwn id r ts := by
  have hne : ∀ {x : Uuid}, a.eventId = some x → x ≠ id := fun hx h => ha (h ▸ hx)
  cases a with
  | payment a => rfl
  | receive x m now => exact receive_comm w id r ts (hne rfl) m now
  | retry x now => exact retry_comm w id r ts (hne rfl) now
  | exhaust x => exact exhaust_comm w id r ts (hne rfl)
  | advance x task now freshId => exact advance_comm w id r ts (hne rfl) task now freshId
  | drop x task => exact Inbox.dropTask_comm w id r ts (hne rfl) task

theorem run_comm (ha : ∀ a ∈ as, a.eventId ≠ some id) :
    (w.withOwn id r ts).run cfg as = (w.run cfg as).withOwn id r ts := by
  induction as generalizing w with
  | nil => rfl
  | cons a as ih =>
    simp only [Inbox.run, List.foldl_cons]
    rw [step_comm _ _ _ _ (ha a List.mem_cons_self)]
    exact ih _ fun b hb => ha b (List.mem_cons_of_mem a hb)

end

/-! ## The steps while it waits -/

def Waits (cfg : PaymentConfig) (id : Uuid) (n : Notification) (w : Inbox) (a : InboxAction) : Prop :=
  a.eventId = some id →
    (w.step cfg a).sys.db.facts = w.sys.db.facts ∧
      ∀ now freshId, a = .advance id .process now freshId →
        findAttemptByReference w.sys.db n.provider n.reference = none

/-- The first inbox is the second but for the trace of a notification that is not matched yet. -/
def Ahead (id : Uuid) (n : Notification) (w v : Inbox) : Prop :=
  ∃ e ts, w = v.withOwn id (some e) ts ∧ e.notification = some n ∧ ∀ a st, Task.await a st ∉ ts

theorem recordUnmatchedFact_same {db t : Db} {provider txn currency : String} {amount : Int} {event fresh : Uuid}
    {factId : Option Uuid} (h : recordUnmatchedFact db provider txn amount currency event fresh = .ok (t, factId))
    (hf : t.facts = db.facts) : t = db := by
  unfold recordUnmatchedFact at h
  split at h
  · cases h; rfl
  obtain ⟨⟨u, inserted⟩, hins, h⟩ := bind_eq_ok.mp h
  have hu := (insertFact_ok hins).2
  cases inserted with
  | true =>
    cases h
    have := congrArg List.length (hu.1 ▸ hf)
    simp at this
  | false => cases h; exact hu

theorem keepUnmatched_waits {e : WebhookEvent} {ts : List Task} {now : Int} {freshId : Uuid}
    (hf : (keepUnmatched (v.withOwn id (some e) ts) id e n now freshId).sys.db.facts = v.sys.db.facts) :
    ∃ ts', keepUnmatched (v.withOwn id (some e) ts) id e n now freshId = v.withOwn id (some e) ts' ∧
      ∀ t ∈ ts', t ∈ ts ∨ ∃ s o m, t = .mark s o m := by
  have hadd : ∀ s o m, ∃ ts', (v.withOwn id (some e) ts).addTask id (.mark s o m) = v.withOwn id (some e) ts' ∧
      ∀ t ∈ ts', t ∈ ts ∨ ∃ s o m, t = .mark s o m := by
    intro s o m
    refine ⟨_, Inbox.addTask_withOwn .., fun t ht => ?_⟩
    rcases List.mem_cons.mp ht with rfl | ht
    · exact .inr ⟨s, o, m, rfl⟩
    · exact .inl ht
  have hstay : ∃ ts', v.withOwn id (some e) ts = v.withOwn id (some e) ts' ∧
      ∀ t ∈ ts', t ∈ ts ∨ ∃ s o m, t = .mark s o m := ⟨ts, rfl, fun t ht => .inl ht⟩
  rcases n with ⟨provider, type, reference, amount, currency, txn, failureClass, failureCode⟩
  rcases amount with _ | amount
  · exact hadd ..
  rcases currency with _ | currency
  · exact hadd ..
  rcases txn with _ | txn
  · exact hadd ..
  simp only [keepUnmatched] at hf ⊢
  by_cases hdue : e.receivedAt ≤ now - unmatchedFactGraceMs
  · rw [if_pos hdue] at hf ⊢
    cases hr : recordUnmatchedFact (v.withOwn id (some e) ts).sys.db provider txn amount currency id freshId with
    | error x => exact hstay
    | ok p =>
      obtain ⟨db, factId⟩ := p
      simp only [hr] at hf ⊢
      obtain rfl := recordUnmatchedFact_same hr hf
      exact hadd ..
  · rw [if_neg hdue]
    exact hadd ..

theorem process_waits (cfg : PaymentConfig) (id : Uuid) (e : WebhookEvent) (ts : List Task) (freshId : Uuid)
    (hfind : findAttemptByReference v.sys.db n.provider n.reference = none) :
    ∃ t, process cfg (v.withOwn id (some e) ts) id n freshId = v.withOwn id (some e) (t :: ts) ∧
      ∀ a st, t ≠ .await a st := by
  unfold process
  simp only [Inbox.withOwn_sys, hfind]
  split
  · exact ⟨_, Inbox.addTask_withOwn .., nofun⟩
  · split
    · exact ⟨_, Inbox.addTask_withOwn .., nofun⟩
    · split <;> exact ⟨_, Inbox.addTask_withOwn .., nofun⟩

theorem Ahead.waits (h : Ahead id n w v) (ha : a.eventId = some id) (hw : Waits cfg id n w a) :
    Ahead id n (w.step cfg a) v := by
  obtain ⟨e, ts, rfl, hn, hts⟩ := h
  obtain ⟨hf, hfind⟩ := hw ha
  have hcons : ∀ t, (∀ a st, t ≠ .await a st) → ∀ a st, Task.await a st ∉ t :: ts := by
    intro t ht a st hm
    rcases List.mem_cons.mp hm with rfl | hm
    · exact ht a st rfl
    · exact hts a st hm
  have herase : ∀ t a st, Task.await a st ∉ ts.erase t := fun t a st hm => hts a st (List.mem_of_mem_erase hm)
  have hfirst : ∀ a st, firstTask e.notification ≠ .await a st := by rw [hn]; exact nofun
  have hsame : Ahead id n (v.withOwn id (some e) ts) v := ⟨e, ts, rfl, hn, hts⟩
  have hwake : Ahead id n ((v.withOwn id (some e) ts).addTask id (firstTask e.notification)) v :=
    ⟨e, _, Inbox.addTask_withOwn .., hn, hcons _ hfirst⟩
  cases a with
  | payment a => cases ha
  | receive x m now =>
    obtain rfl := Option.some.inj ha
    simp only [Inbox.step, receive, Inbox.withOwn_rows]
    split
    · exact hsame
    · exact hwake
  | retry x now =>
    obtain rfl := Option.some.inj ha
    simp only [Inbox.step, retry, Inbox.withOwn_rows]
    split
    · exact hwake
    · exact hsame
  | exhaust x =>
    obtain rfl := Option.some.inj ha
    simp only [Inbox.step, exhaust, Inbox.withOwn_rows]
    split
    · exact ⟨_, ts, Inbox.setRow_withOwn .., hn, hts⟩
    · exact hsame
  | drop x task =>
    obtain rfl := Option.some.inj ha
    exact ⟨e, _, Inbox.dropTask_withOwn .., hn, herase task⟩
  | advance x task now freshId =>
    obtain rfl := Option.some.inj ha
    simp only [Inbox.step, advance, Inbox.withOwn_rows, Inbox.withOwn_tasks] at hf ⊢
    split at hf
    · rename_i hmem
      rw [if_pos hmem]
      cases task with
      | process =>
        simp only [hn, Inbox.dropTask_withOwn]
        obtain ⟨t, ht, hna⟩ := process_waits (v := v) cfg x e (ts.erase .process) freshId (hfind now freshId rfl)
        refine ⟨e, _, ht, hn, fun a st hm => ?_⟩
        rcases List.mem_cons.mp hm with rfl | hm
        · exact hna a st rfl
        · exact herase _ a st hm
      | keepUnmatched =>
        simp only [hn, Inbox.dropTask_withOwn] at hf ⊢
        obtain ⟨ts', ht, hts'⟩ := keepUnmatched_waits hf
        refine ⟨e, ts', ht, hn, fun a st hm => ?_⟩
        rcases hts' _ hm with hm | ⟨_, _, _, hm⟩
        · exact herase _ a st hm
        · cases hm
      | await a st => exact absurd hmem (hts a st)
      | mark s o m =>
        refine ⟨e.markState s o m, ts.erase (.mark s o m), ?_, hn, herase _⟩
        simp only [Inbox.setRow_withOwn, Inbox.dropTask_withOwn]
    · rename_i hmem
      rw [if_neg hmem]
      exact hsame

theorem Ahead.others (h : Ahead id n w v) (ha : a.eventId ≠ some id) :
    Ahead id n (w.step cfg a) (v.step cfg a) := by
  obtain ⟨e, ts, rfl, h⟩ := h
  exact ⟨e, ts, step_comm v id _ ts ha, h⟩

theorem Ahead.run (h : Ahead id n w v) (hw : Along (Inbox.step cfg) (Waits cfg id n) w as) :
    Ahead id n (w.run cfg as) (v.run cfg (as.filter (·.eventId ≠ some id))) := by
  unfold Inbox.run
  refine hw.filter (R := Ahead id n) (fun s t a hp hr => ?_) (fun s t a hp hwait hr => ?_) h
  · exact hr.others (by simpa using hp)
  · exact hr.waits (by simpa using hp) hwait

/-! ## Runs of the pipeline -/

theorem step_refines (cfg : PaymentConfig) (w : Inbox) (a : InboxAction) : ∃ as, (w.step cfg a).sys = Payments.run cfg w.sys as := by
  have hstay : ∃ as, w.sys = Payments.run cfg w.sys as := ⟨[], rfl⟩
  cases a with
  | payment a => exact ⟨[a], rfl⟩
  | receive x m now =>
    simp only [Inbox.step, receive]
    split
    · exact hstay
    · split <;> exact hstay
  | retry x now =>
    simp only [Inbox.step, retry]
    split
    · exact hstay
    · split <;> exact hstay
  | exhaust x =>
    simp only [Inbox.step, exhaust]
    split
    · exact hstay
    · split <;> exact hstay
  | drop x task => exact hstay
  | advance x task now freshId =>
    simp only [Inbox.step, advance]
    split
    · split
      · exact hstay
      · rename_i e _
        cases task with
        | process =>
          cases e.notification with
          | none => exact hstay
          | some m =>
            simp only [process]
            split
            · exact hstay
            · split
              · exact hstay
              · split
                · exact ⟨[.observe _ _ (some x) freshId], rfl⟩
                · split <;> exact hstay
        | keepUnmatched =>
          cases e.notification with
          | none => exact hstay
          | some m =>
            simp only [keepUnmatched]
            split
            · rename_i amount currency txn _ _ _
              split
              · split
                · rename_i db factId hr
                  refine ⟨[.keepUnmatched m.provider txn amount currency x freshId], ?_⟩
                  simp only [Payments.run, List.foldl_cons, List.foldl_nil, Payments.step]
                  rw [show recordUnmatchedFact w.sys.db m.provider txn amount currency x freshId = .ok (db, factId) from hr]
                  rfl
                · exact hstay
              · exact hstay
            · exact hstay
        | await a st =>
          dsimp only
          split
          · exact hstay
          · exact ⟨[.lose _], rfl⟩
        | mark s o m => exact hstay
    · exact hstay

theorem Inbox.runs (as : List InboxAction) (h : Runs cfg w.sys) : Runs cfg (w.run cfg as).sys := by
  induction as generalizing w with
  | nil => exact h
  | cons a as ih =>
    obtain ⟨bs, hbs⟩ := step_refines cfg w a
    exact ih (by rw [hbs]; exact h.run bs)

theorem Inbox.untouched (cfg : PaymentConfig) (s : Sys) (h : ∀ a ∈ as, a.eventId ≠ some id) :
    ((Inbox.new s).run cfg as).rows id = none ∧ ((Inbox.new s).run cfg as).tasks id = [] := by
  have hnew : Inbox.new s = (Inbox.new s).withOwn id none [] := ((Inbox.new s).withOwn_eq id).symm
  rw [hnew, run_comm _ _ _ _ h]
  simp

/-! ## The match -/

structure Settled (s : Sys) (attemptId : Uuid) (amount : Int) (currency : String) : Prop where
  attached : ∃ f ∈ s.db.facts, f.binding = some ⟨s.db.payment.id, attemptId⟩ ∧ f.amount = amount ∧
    f.currency = currency ∧ s.db.contested f.id = false
  status : s.db.payment.status = .succeeded
  method : s.db.payment.settledMethod = some .gateway
  attempt : s.db.payment.succeededAttemptId = some attemptId
  event : .paymentSucceeded attemptId ∈ s.db.outbox

def matchedRun (id attemptId : Uuid) (status : FetchStatusResult) (factId freshId : Uuid) (now : Int) :
    List InboxAction :=
  [ .advance id .process now freshId,
    .payment (.resume ⟨attemptId, status, some id, .deciding (some factId)⟩ now),
    .advance id (.await attemptId status) now freshId,
    .advance id (.mark .processed none (some attemptId)) now freshId ]

def statusRead (attemptId : Uuid) (status : FetchStatusResult) (factId freshId : Uuid) (now : Int) : List Action :=
  [.observe attemptId status none freshId, .resume ⟨attemptId, status, none, .deciding (some factId)⟩ now]

theorem settled_of {s t : Sys} {db : Db} {a : Attempt} {amount : Int} {currency : String} {f : CaptureFact}
    (hatt : Attached s.db db a amount currency f) (hset : SettledBy db t.db a.id) : Settled t a.id amount currency where
  attached := by
    refine ⟨f, hset.facts ▸ hatt.eligible.kept, ?_, hatt.figures.1, hatt.figures.2, ?_⟩
    · rw [hset.paymentId]
      exact hatt.eligible.binding
    · have := hatt.eligible.uncontested
      simp only [Db.contested, hset.conflicts] at this ⊢
      exact this
  status := hset.status
  method := hset.method
  attempt := hset.attempt
  event := by simp [hset.event]

theorem step_resume {s : Sys} {c : ApplyCall} {cs : List ApplyCall} (h : s.applies = c :: cs) (now : Int) :
    step cfg s (.resume c now) = resume cfg s c now :=
  if_pos (by rw [h]; exact List.mem_cons_self)

section
variable {s : Sys} {a : Attempt} {txn : String} {amount : Int} {currency : String} {fresh : Uuid}

theorem statusRead_settles (h : Runs cfg s) (ha : a ∈ s.db.attempts) (hu : a.uncertain)
    (hm : Matches s.db a txn amount currency) {reported : Option String}
    (htxn : reported.or a.providerTransactionId = some txn) (hfresh : ∀ f ∈ s.db.facts, f.id ≠ fresh) (now : Int) :
    ∃ factId, Settled (run cfg s (statusRead a.id (.succeeded amount currency reported) factId fresh now)) a.id amount
      currency := by
  obtain ⟨f, t, happ, hatt, hres, hset⟩ := settles h ha hu hm htxn none hfresh now
  refine ⟨f.id, ?_⟩
  simp only [statusRead, run, List.foldl_cons, List.foldl_nil]
  rw [step_resume happ, hres]
  exact settled_of hatt hset

theorem matchedRun_settles (h : Runs cfg s) (hu : a.uncertain) (hm : Matches s.db a txn amount currency)
    {n : Notification} (hn : n.type = .paymentSucceeded ∧ n.amount = some amount ∧ n.currency = some currency)
    (hfind : findAttemptByReference s.db n.provider n.reference = some a)
    (htxn : n.providerTransactionId.or a.providerTransactionId = some txn) (hfresh : ∀ f ∈ s.db.facts, f.id ≠ fresh)
    (id : Uuid) (now : Int) :
    ∃ (factId : Uuid) (t : Sys), Settled t a.id amount currency ∧ ∀ (v : Inbox) (e : WebhookEvent) (ts : List Task),
      v.sys = s → e.notification = some n → .process ∈ ts →
        let u := (v.withOwn id (some e) ts).run cfg
          (matchedRun id a.id (.succeeded amount currency n.providerTransactionId) factId fresh now)
        u.sys = t ∧ ∃ r, u.rows id = some r ∧ r.state = .processed ∧ r.matchedAttemptId = some a.id := by
  have ha : a ∈ s.db.attempts := List.mem_of_find?_eq_some hfind
  obtain ⟨f, t, happ, hatt, hres, hset⟩ := settles h ha hu hm htxn (some id) hfresh now
  let status : FetchStatusResult := .succeeded amount currency n.providerTransactionId
  let call : ApplyCall := ⟨a.id, status, some id, .deciding (some f.id)⟩
  let s₁ := step cfg s (.observe a.id status (some id) fresh)
  let s₂ := { s₁ with db := t }.proceed call (.answered .returned)
  refine ⟨f.id, step cfg s₂ (.lose { call with stage := .answered .returned }), settled_of hatt hset, ?_⟩
  intro v e ts hv he hts
  subst hv
  have hiso : isoCurrency currency := hm.sameCurrency ▸ h.late.evidence.supported.currency
  have hq : quarantined n = false := by simp [quarantined, hn, classify_iso hiso]
  have hst : toStatus n = some status := by simp [toStatus, hn, status]
  have h₁ : (v.withOwn id (some e) ts).step cfg (.advance id .process now fresh) =
      { v with sys := s₁ }.withOwn id (some e) (.await a.id status :: ts.erase .process) := by
    simp only [Inbox.step, advance, Inbox.withOwn_tasks, Inbox.withOwn_rows, he, hts, if_true, Inbox.dropTask_withOwn]
    simp only [process, hq, hst, Inbox.withOwn_sys, hfind]
    exact Inbox.addTask_withOwn { v with sys := s₁ } ..
  have h₂ (ts : List Task) : ({ v with sys := s₁ }.withOwn id (some e) ts).step cfg (.payment (.resume call now)) =
      { v with sys := s₂ }.withOwn id (some e) ts := by
    show Inbox.withOwn { v with sys := step cfg s₁ (.resume call now) } id (some e) ts = _
    rw [step_resume happ, hres]
  have h₃ (ts : List Task) : ({ v with sys := s₂ }.withOwn id (some e) (.await a.id status :: ts)).step cfg
        (.advance id (.await a.id status) now fresh) =
      { v with sys := step cfg s₂ (.lose { call with stage := .answered .returned }) }.withOwn id (some e)
        (.mark .processed none (some a.id) :: ts) := by
    have hans : answerOf s₂ id a.id status = some ({ call with stage := .answered .returned }, .returned) := by
      simp [answerOf, s₂, Sys.proceed, call]
    simp only [Inbox.step, advance, Inbox.withOwn_tasks, Inbox.withOwn_rows, List.mem_cons_self, if_true,
      Inbox.withOwn_sys, hans, answerMark]
    show ((Inbox.withOwn { v with sys := _ } id (some e) _).dropTask id _).addTask id _ = _
    rw [Inbox.dropTask_withOwn, Inbox.addTask_withOwn, List.erase_cons_head]
    rfl
  let v₃ : Inbox := { v with sys := step cfg s₂ (.lose { call with stage := .answered .returned }) }
  have h₄ (ts : List Task) : (v₃.withOwn id (some e) (.mark .processed none (some a.id) :: ts)).step cfg
        (.advance id (.mark .processed none (some a.id)) now fresh) =
      v₃.withOwn id (some (e.markState .processed none (some a.id))) ts := by
    simp only [Inbox.step, advance, Inbox.withOwn_tasks, Inbox.withOwn_rows, List.mem_cons_self, if_true,
      Inbox.setRow_withOwn, Inbox.dropTask_withOwn, List.erase_cons_head]
  have hrun : (v.withOwn id (some e) ts).run cfg (matchedRun id a.id status f.id fresh now) =
      v₃.withOwn id (some (e.markState .processed none (some a.id))) (ts.erase .process) := by
    simp only [Inbox.run, matchedRun, List.foldl_cons, List.foldl_nil]
    rw [h₁, h₂, h₃, h₄]
  refine ⟨by rw [hrun]; rfl, ?_⟩
  exact ⟨e.markState .processed none (some a.id), by rw [hrun]; exact Inbox.withOwn_rows .., rfl, rfl⟩

end

/-! ## Convergence -/

structure Converge (cfg : PaymentConfig) (id : Uuid) (n : Notification) (early late : Inbox) : Prop where
  /-- They cannot be told apart by anything that is not about the notification. -/
  same : ∀ as : List InboxAction, (∀ a ∈ as, a.eventId ≠ some id) → (early.run cfg as).sys = (late.run cfg as).sys
  /-- The match takes the same step, and what follows it stays the same. -/
  matched : .process ∈ early.tasks id → ∀ now freshId, ∀ as : List InboxAction, (∀ a ∈ as, a.eventId ≠ some id) →
    (early.run cfg (.advance id .process now freshId :: as)).sys =
      (late.run cfg (.advance id .process now freshId :: as)).sys
  /-- Matched by the retrier, an agreeing capture settles both. -/
  retried : .process ∈ early.tasks id → ∀ a txn amount currency fresh now,
    findAttemptByReference early.sys.db n.provider n.reference = some a → a.uncertain →
    Matches early.sys.db a txn amount currency → n.providerTransactionId.or a.providerTransactionId = some txn →
    n.type = .paymentSucceeded ∧ n.amount = some amount ∧ n.currency = some currency →
    (∀ f ∈ early.sys.db.facts, f.id ≠ fresh) →
    ∃ factId t, Settled t a.id amount currency ∧ ∀ w, w = early ∨ w = late →
      let u := w.run cfg (matchedRun id a.id (.succeeded amount currency n.providerTransactionId) factId fresh now)
      u.sys = t ∧ ∃ r, u.rows id = some r ∧ r.state = .processed ∧ r.matchedAttemptId = some a.id
  read : ∀ a txn amount currency reported fresh now, a ∈ early.sys.db.attempts → a.uncertain →
    Matches early.sys.db a txn amount currency → reported.or a.providerTransactionId = some txn →
    (∀ f ∈ early.sys.db.facts, f.id ≠ fresh) →
    ∃ factId, ∀ w, w = early ∨ w = late →
      Settled (w.run cfg ((statusRead a.id (.succeeded amount currency reported) factId fresh now).map .payment)).sys
        a.id amount currency

theorem run_payments (w : Inbox) (as : List Action) : (w.run cfg (as.map .payment)).sys = run cfg w.sys as := by
  induction as generalizing w with
  | nil => rfl
  | cons a as ih => exact ih (w.step cfg (.payment a))

theorem process_own (cfg : PaymentConfig) (v : Inbox) (id : Uuid) (n : Notification) (freshId : Uuid) :
    ∃ s t, ∀ e ts, process cfg (v.withOwn id (some e) ts) id n freshId =
      { v with sys := s }.withOwn id (some e) (t :: ts) := by
  simp only [process, Inbox.withOwn_sys, Inbox.addTask_withOwn]
  cases hq : quarantined n with
  | true => exact ⟨v.sys, _, fun e ts => rfl⟩
  | false =>
    cases hst : toStatus n with
    | none => exact ⟨v.sys, _, fun e ts => rfl⟩
    | some status =>
      cases hfind : findAttemptByReference v.sys.db n.provider n.reference with
      | some a =>
        exact ⟨_, _, fun e ts => Inbox.addTask_withOwn { v with sys := step cfg v.sys (.observe a.id status (some id) freshId) } ..⟩
      | none => cases status <;> exact ⟨v.sys, _, fun e ts => rfl⟩

theorem converge_of_own (h : Runs cfg v.sys) {e e' : WebhookEvent} (he : e.notification = some n)
    (he' : e'.notification = some n) {ts ts' : List Task} (hts' : .process ∈ ts') :
    Converge cfg id n (v.withOwn id (some e) ts) (v.withOwn id (some e') ts') where
  same as has := by simp only [run_comm _ _ _ _ has, Inbox.withOwn_sys]
  matched hts now freshId as has := by
    rw [Inbox.withOwn_tasks] at hts
    obtain ⟨s, t, hp⟩ := process_own cfg v id n freshId
    have hstep : ∀ (e : WebhookEvent) (ts : List Task), e.notification = some n → .process ∈ ts →
        (v.withOwn id (some e) ts).step cfg (.advance id .process now freshId) =
          Inbox.withOwn { v with sys := s } id (some e) (t :: ts.erase .process) := by
      intro e ts he hts
      simp only [Inbox.step, advance, Inbox.withOwn_tasks, Inbox.withOwn_rows, he, hts, if_true,
        Inbox.dropTask_withOwn, hp]
    simp only [Inbox.run, List.foldl_cons, hstep e ts he hts, hstep e' ts' he' hts']
    exact congrArg Inbox.sys ((run_comm _ _ _ _ has).trans rfl) |>.trans
      (congrArg Inbox.sys (run_comm { v with sys := s } id (some e') _ has)).symm
  retried hts a txn amount currency fresh now hfind hu hm htxn hn hfresh := by
    rw [Inbox.withOwn_tasks] at hts
    obtain ⟨factId, t, ht, hrun⟩ := matchedRun_settles h hu hm hn hfind htxn hfresh id now
    refine ⟨factId, t, ht, ?_⟩
    rintro w (rfl | rfl)
    · exact hrun v e ts rfl he hts
    · exact hrun v e' ts' rfl he' hts'
  read a txn amount currency reported fresh now ha hu hm htxn hfresh := by
    obtain ⟨factId, hset⟩ := statusRead_settles h ha hu hm htxn hfresh now
    refine ⟨factId, ?_⟩
    rintro w (rfl | rfl) <;> rw [run_payments] <;> exact hset

theorem receive_untouched (cfg : PaymentConfig) {w : Inbox} (hr : w.rows id = none) (ht : w.tasks id = []) (now : Int) :
    w.step cfg (.receive id (some n) now) =
      w.withOwn id (some ⟨some n, now, .received, none, 0, none⟩) [.process] := by
  rw [← w.withOwn_eq id, hr, ht]
  simp only [Inbox.step, receive, Inbox.withOwn_rows, Inbox.setRow_withOwn, Inbox.addTask_withOwn, firstTask]
  simp [Inbox.withOwn]

/-- **An early notification converges.** -/
theorem early_notification_converges {s : Sys} (hs : Initial s) {before after : List InboxAction}
    (hb : ∀ a ∈ before, a.eventId ≠ some id) {received arrived : Int}
    (hw : Along (Inbox.step cfg) (Waits cfg id n)
      (((Inbox.new s).run cfg before).step cfg (.receive id (some n) received)) after) :
    Converge cfg id n
      ((Inbox.new s).run cfg (before ++ [.receive id (some n) received] ++ after))
      ((Inbox.new s).run cfg (before ++ after.filter (·.eventId ≠ some id) ++ [.receive id (some n) arrived])) := by
  have hkept : ∀ a ∈ before ++ after.filter (·.eventId ≠ some id), a.eventId ≠ some id := by
    intro a ha
    rcases List.mem_append.mp ha with ha | ha
    · exact hb a ha
    · simpa using (List.mem_filter.mp ha).2
  obtain ⟨hr₀, ht₀⟩ := Inbox.untouched cfg s hb
  obtain ⟨hr₁, ht₁⟩ := Inbox.untouched cfg s hkept
  have hahead : Ahead id n (((Inbox.new s).run cfg before).step cfg (.receive id (some n) received))
      ((Inbox.new s).run cfg before) :=
    ⟨_, _, receive_untouched cfg hr₀ ht₀ received, rfl, by simp⟩
  obtain ⟨e, ts, hearly, he, -⟩ := hahead.run hw
  have hlate := receive_untouched cfg (n := n) hr₁ ht₁ arrived
  have happend : (Inbox.new s).run cfg (before ++ after.filter (·.eventId ≠ some id)) =
      ((Inbox.new s).run cfg before).run cfg (after.filter (·.eventId ≠ some id)) := List.foldl_append
  have hmid : (Inbox.new s).run cfg (before ++ [.receive id (some n) received] ++ after) =
      (((Inbox.new s).run cfg before).step cfg (.receive id (some n) received)).run cfg after := by
    simp only [Inbox.run, List.foldl_append, List.foldl_cons, List.foldl_nil]
  have hend : (Inbox.new s).run cfg (before ++ after.filter (·.eventId ≠ some id) ++ [.receive id (some n) arrived]) =
      ((Inbox.new s).run cfg (before ++ after.filter (·.eventId ≠ some id))).step cfg
        (.receive id (some n) arrived) := by
    simp only [Inbox.run, List.foldl_append, List.foldl_cons, List.foldl_nil]
  rw [hmid, hearly, hend, hlate, happend]
  refine converge_of_own ?_ he rfl List.mem_cons_self
  rw [← happend]
  exact Inbox.runs (w := Inbox.new s) _ (.init hs)

end

theorem settled_step {w : Inbox} {id : Uuid} {a : InboxAction} (cfg : PaymentConfig) (he : w.rows id = some e) (hs : e.state.settled)
    (htasks : w.tasks id = []) (ha : a.eventId = some id) : w.step cfg a = w := by
  cases a with
  | payment a => cases ha
  | drop x t =>
    obtain rfl := Option.some.inj ha
    simp only [Inbox.step, Inbox.dropTask, htasks, List.erase_nil]
    rw [← htasks, Function.update_eq_self]
  | _ =>
    obtain rfl := Option.some.inj ha
    simp [Inbox.step, receive, retry, exhaust, advance, WebhookEvent.retryable, he, hs, htasks]

/-- **A settled notification is inert** once no task of it is in flight: its deliveries, retries and crashes can be left out of a run. -/
theorem settled_inert (cfg : PaymentConfig) (id : Uuid) (w : {w : Inbox // (w.rows id).any (·.state.settled) ∧ w.tasks id = []})
    (as : List InboxAction) : w.1.run cfg as = w.1.run cfg (as.filter (·.eventId ≠ some id)) := by
  obtain ⟨w, hrow, htasks⟩ := w
  obtain ⟨e, he, hs⟩ := (Option.any_eq_true _ _).mp hrow
  induction as generalizing w with
  | nil => rfl
  | cons a as ih =>
    by_cases ha : a.eventId = some id
    · rw [List.filter_cons_of_neg (by simpa using ha)]
      change (w.step cfg a).run cfg as = _
      rw [settled_step cfg he hs htasks ha]
      exact ih w hrow htasks he
    · have hkept : w.step cfg a = (w.step cfg a).withOwn id (w.rows id) (w.tasks id) := by
        conv_lhs => rw [← w.withOwn_eq id]
        exact step_comm w id _ _ ha
      have hrows : (w.step cfg a).rows id = w.rows id := by rw [hkept, Inbox.withOwn_rows]
      have hnone : (w.step cfg a).tasks id = w.tasks id := by rw [hkept, Inbox.withOwn_tasks]
      rw [List.filter_cons_of_pos (by simpa using ha)]
      exact ih _ (hrows ▸ hrow) (hnone.trans htasks) (hrows.trans he)

/-! ## Witnesses -/

def tenEurosCaptured : Notification :=
  { provider := "test"
    type := .paymentSucceeded
    reference := "txn-1"
    amount := some 1000
    currency := some "EUR"
    providerTransactionId := some "txn-1"
    failureClass := .terminal
    failureCode := "unknown" }

def dispatched : List InboxAction := [.payment (.start 10 "test" 0)]

def matchedLater : List InboxAction :=
  [ .advance 500 .process 0 30, .advance 500 .keepUnmatched 0 30, .advance 500 (.mark .unmatched none none) 0 30,
    .payment (.finishStart ⟨10, 1, "test"⟩ (.accepted "txn-1")), .retry 500 60000 ]

theorem early_notification_converges_in_grace :
    Task.process ∈ ((Inbox.new (.new tenEuros)).run threeAttempts
      (dispatched ++ [.receive 500 (some tenEurosCaptured) 0] ++ matchedLater)).tasks 500 ∧
    Converge threeAttempts 500 tenEurosCaptured
      ((Inbox.new (.new tenEuros)).run threeAttempts
        (dispatched ++ [.receive 500 (some tenEurosCaptured) 0] ++ matchedLater))
      ((Inbox.new (.new tenEuros)).run threeAttempts
        (dispatched ++ matchedLater.filter (·.eventId ≠ some 500) ++ [.receive 500 (some tenEurosCaptured) 70000])) := by
  refine ⟨by decide, early_notification_converges (initial_new tenEuros) (by decide) ?_⟩
  refine ⟨fun _ => ⟨by decide, fun _ _ _ => by decide⟩, fun _ => ⟨by decide, nofun⟩, fun _ => ⟨by decide, nofun⟩,
    nofun, fun _ => ⟨by decide, nofun⟩, trivial⟩

def keptFirst : List InboxAction :=
  [ .advance 500 .process 0 30, .advance 500 .keepUnmatched 0 30, .advance 500 (.mark .unmatched none none) 0 30,
    .retry 500 300000, .advance 500 .process 300000 30, .advance 500 .keepUnmatched 300000 30,
    .advance 500 (.mark .unmatched (some "unmatched_fact:30") none) 300000 30,
    .payment (.finishStart ⟨10, 1, "test"⟩ (.accepted "txn-1")), .retry 500 400000 ]

/-- A kept fact stays unmatched: the match only contradicts it, and the payment stays open. -/
theorem kept_notification_never_settles :
    let early := (Inbox.new (.new tenEuros)).run threeAttempts
      (dispatched ++ [.receive 500 (some tenEurosCaptured) 0] ++ keptFirst)
    let late := (Inbox.new (.new tenEuros)).run threeAttempts
      (dispatched ++ keptFirst.filter (·.eventId ≠ some 500) ++ [.receive 500 (some tenEurosCaptured) 400000])
    let paid : FetchStatusResult := .succeeded 1000 "EUR" (some "txn-1")
    let early' := early.run threeAttempts
      (matchedRun 500 10 paid 30 31 400000 ++ [.advance 500 (.mark .conflict (some "provider_error") (some 10)) 400000 31])
    let late' := late.run threeAttempts (matchedRun 500 10 paid 31 31 400000)
    (early.sys.db.payment = ⟨1, 1000, "EUR", .pending, some 50, none, none, none⟩ ∧
      (findAttemptByReference early.sys.db "test" "txn-1").map (·.id) = some 10 ∧
      early'.sys.db.payment.status = .pending ∧ (∀ f ∈ early'.sys.db.facts, f.binding = none) ∧
      (early'.rows 500).map (·.state) = some .conflict) ∧
    (late'.sys.db.payment.status = .succeeded ∧ (∃ f ∈ late'.sys.db.facts, f.binding = some ⟨1, 10⟩) ∧
      (late'.rows 500).map (·.state) = some .processed) := by
  refine ⟨⟨?_, ?_, ?_, ?_, ?_⟩, ?_, ?_, ?_⟩ <;> decide

end NawaraCore.Payments
