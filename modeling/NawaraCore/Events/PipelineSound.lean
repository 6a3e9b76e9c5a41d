import NawaraCore.Events.Bus
import Mathlib.Tactic.Common

/-!
# No delivery is lost, and retries are bounded

A delivery is acknowledged once its handler resolved or a copy of it reached a queue.
The bus learns that a copy was unroutable from a returned message with the id of the
original, so it does not learn it of a redacted copy that lost the id.
-/

namespace NawaraCore.Events

variable {H : Hashing} {Payload : Type} {sub : EventSubscription H Payload} {rows : List (StoredRow H)} {msg : Message} {annotate : Headers → Headers} {p : Published}

/-- The message carries the body of `msg`, or the redaction of it. -/
def CopyOf (msg m : Message) : Prop :=
  m.content = msg.content ∨ ∃ failure reason, m.content = redactedDocument failure reason msg.content.length

def Secured (queue : String) (msg : Message) (p : Published) : Prop :=
  (p.queue = queue ++ ".retry" ∨ p.queue = queue ++ ".dead") ∧ CopyOf msg p.message ∧ p.outcome.confirmed = true ∧ p.outcome.routed = true

def Lawful (queue : String) (msg : Message) (d : Delivery) : Prop :=
  d.settlement = .requeue ∨ (d.settlement = .ack ∧ (d.resolved = true ∨ ∃ p ∈ d.published, Secured queue msg p))

def Returns (m msg' : Message) : Prop :=
  msg'.content = m.content ∧ msg'.messageId = m.messageId ∧ msg'.type = m.type ∧
    ∀ k, k ∉ BROKER_HISTORY → msg'.headers k = m.headers k

/-- A chain of deliveries of one message, and the retries it scheduled. A requeued message comes back; so does a copy that
reached the retry queue, whether the bus took it for scheduled or not. -/
inductive Chain (sub : EventSubscription H Payload) (msg : Message) : Nat → Message → Prop
  | start : Chain sub msg 0 msg
  | requeued {n m m' rows o} (h : Chain sub msg n m) (hd : (deliver sub rows m o).2.settlement = .requeue) (hr : Returns m m') : Chain sub msg n m'
  | retried {n m m' rows o} {p : Published} (h : Chain sub msg n m) (hp : p ∈ (deliver sub rows m o).2.published)
      (hq : p.queue = sub.context.queue ++ ".retry") (hr : Returns p.message m') :
      Chain sub msg (n + if (deliver sub rows m o).2.scheduled then 1 else 0) m'

structure PipelineLaw (sub : EventSubscription H Payload) (rows : List (StoredRow H)) (msg : Message) : Prop where
  kept : ∀ o, Lawful sub.context.queue msg (deliver sub rows msg o).2
  bounded : ∀ n m, Chain sub msg n m → n ≤ sub.maxRetries

def inputOf (msg : Message) (event : Option (Envelope Payload)) (error : HandlerError) : DeadLetterInput Payload :=
  { event, failure := failureOf event error, reason := error.reason, body := msg.content }

def MayFail (msg : Message) : Verdict Payload → DeadLetterInput Payload → Prop
  | .fails event reason, input => input = inputOf msg event (.permanent reason)
  | .handles event _, input => ∃ error, input = inputOf msg (some event) error
  | .holds, _ => False

/-- The bus publishes nothing, or the message has no id or one that a redaction keeps, or the policy redacts it in no case. -/
def Traced (sub : EventSubscription H Payload) (rows : List (StoredRow H)) (msg : Message) : Prop :=
  sub.publisherUserId = none ∨ msg.messageId.filter MESSAGE_ID = msg.messageId ∨
    ∀ policy input, sub.deadLetterPolicy = some policy → MayFail msg (verdict sub rows msg .answers).2 input →
      (deadLetterDecision policy input).body = .original

/-! ## Copies -/

variable {o : PublishOutcome} {copy : Option DeadLetterCopy} {user : Option String} {queue : String}

theorem republish_secured
    (h : (republish user queue msg annotate copy o).2 = true) :
    ∃ u, (republish user queue msg annotate copy o).1 = [{ queue, message := copyMessage u queue msg annotate copy, outcome := o }] ∧
      user = some u ∧ o.confirmed = true ∧ ((copyMessage u queue msg annotate copy).messageId = msg.messageId → o.routed = true) := by
  unfold republish at h ⊢
  cases user with
  | none => cases h
  | some u =>
    simp only [Bool.and_eq_true, Bool.not_eq_true'] at h
    refine ⟨u, rfl, rfl, h.1, fun hid => ?_⟩
    by_contra hr
    have hret : returnedIds (copyMessage u queue msg annotate copy) o = (copyMessage u queue msg annotate copy).messageId :: o.returned := if_neg hr
    rw [hret, hid] at h
    simp at h

theorem mem_republish
    (hp : p ∈ (republish user queue msg annotate copy o).1) :
    ∃ u, p = { queue, message := copyMessage u queue msg annotate copy, outcome := o } := by
  unfold republish at hp
  cases user with
  | none => cases hp
  | some u => exact ⟨u, List.mem_singleton.mp hp⟩

variable {error : HandlerError}

theorem mem_scheduleRetry (hp : p ∈ (scheduleRetry sub msg error o).1) :
    p.outcome = o ∧ counter (msg.headers retryCountHeader) < sub.maxRetries ∧
      counter (p.message.headers retryCountHeader) = counter (msg.headers retryCountHeader) + 1 := by
  unfold scheduleRetry at hp
  by_cases hc : error.isPermanent = false ∧ counter (msg.headers retryCountHeader) < sub.maxRetries
  · simp only [if_pos hc] at hp
    obtain ⟨u, rfl⟩ := mem_republish hp
    refine ⟨rfl, hc.2, ?_⟩
    simp only [copyMessage, withNumber, withHeader, if_true, counter, numberOf]
    omega
  · simp only [if_neg hc] at hp
    cases hp

variable {event : Option (Envelope Payload)} {failedAt : String}

theorem mem_deadLetter
    (hp : p ∈ (deadLetter sub msg event error failedAt o).1) : p.outcome = o ∧ p.queue = sub.context.queue ++ ".dead" := by
  unfold deadLetter at hp
  obtain ⟨u, rfl⟩ := mem_republish hp
  exact ⟨rfl, rfl⟩

theorem scheduleRetry_secured (h : (scheduleRetry sub msg error o).2 = true) :
    counter (msg.headers retryCountHeader) < sub.maxRetries ∧ ∃ p ∈ (scheduleRetry sub msg error o).1, Secured sub.context.queue msg p := by
  unfold scheduleRetry at h ⊢
  by_cases hc : error.isPermanent = false ∧ counter (msg.headers retryCountHeader) < sub.maxRetries
  · simp only [if_pos hc] at h ⊢
    obtain ⟨u, hp, _, hconf, hrouted⟩ := republish_secured h
    rw [hp]
    exact ⟨hc.2, _, List.mem_singleton_self _, .inl rfl, .inl rfl, hconf, hrouted rfl⟩
  · simp only [if_neg hc] at h
    cases h

theorem deadLetter_secured
    (h : (deadLetter sub msg event error failedAt o).2 = true)
    (hid : msg.messageId.filter MESSAGE_ID = msg.messageId ∨
      ∀ policy, sub.deadLetterPolicy = some policy → (deadLetterDecision policy (inputOf msg event error)).body = .original) :
    ∃ p ∈ (deadLetter sub msg event error failedAt o).1, Secured sub.context.queue msg p := by
  unfold deadLetter at h ⊢
  obtain ⟨u, hp, _, hconf, hrouted⟩ := republish_secured h
  simp only [hp]
  refine ⟨_, List.mem_singleton_self _, .inr rfl, ?_, hconf, hrouted ?_⟩
  · cases hpol : sub.deadLetterPolicy with
    | none => exact .inl rfl
    | some policy =>
      simp only [copyMessage, Option.map_some, deadLetterCopy]
      cases (deadLetterDecision policy { event, failure := failureOf event error, reason := error.reason, body := msg.content }).body with
      | original => exact .inl rfl
      | redacted => exact .inr ⟨_, _, rfl⟩
  · cases hpol : sub.deadLetterPolicy with
    | none => rfl
    | some policy =>
      simp only [copyMessage, Option.map_some, deadLetterCopy]
      rcases hid with hid | hid
      · cases (deadLetterDecision policy { event, failure := failureOf event error, reason := error.reason, body := msg.content }).body with
        | original => rfl
        | redacted => exact hid
      · have := hid policy hpol
        unfold inputOf at this
        rw [this]

section
variable {event : Option (Envelope Payload)} {error : HandlerError} {o : Outcomes}

theorem onFailure_scheduled (h : (scheduleRetry sub msg error o.retry).2 = true) :
    onFailure sub msg event error o =
      { settlement := .ack, resolved := false, published := (scheduleRetry sub msg error o.retry).1, scheduled := true } := by
  simp only [onFailure, h, if_true]

theorem onFailure_dead (h : (scheduleRetry sub msg error o.retry).2 = false) :
    onFailure sub msg event error o = {
      settlement := if (deadLetter sub msg event error o.failedAt o.dead).2 then .ack else .requeue
      resolved := false
      published := (scheduleRetry sub msg error o.retry).1 ++ (deadLetter sub msg event error o.failedAt o.dead).1
      scheduled := false } := by
  simp only [onFailure, h, Bool.false_eq_true, if_false]

theorem onFailure_lawful (hid : sub.publisherUserId = none ∨ msg.messageId.filter MESSAGE_ID = msg.messageId ∨
      ∀ policy, sub.deadLetterPolicy = some policy → (deadLetterDecision policy (inputOf msg event error)).body = .original) :
    Lawful sub.context.queue msg (onFailure sub msg event error o) := by
  cases hr : (scheduleRetry sub msg error o.retry).2 with
  | true =>
    rw [onFailure_scheduled hr]
    exact .inr ⟨rfl, .inr (scheduleRetry_secured hr).2⟩
  | false =>
    rw [onFailure_dead hr]
    cases hd : (deadLetter sub msg event error o.failedAt o.dead).2 with
    | false => exact .inl rfl
    | true =>
      have hid' := hid.resolve_left fun hnone => by
        unfold deadLetter republish at hd
        rw [hnone] at hd
        cases hd
      obtain ⟨p, hp, hs⟩ := deadLetter_secured hd hid'
      exact .inr ⟨rfl, .inr ⟨p, List.mem_append_right _ hp, hs⟩⟩

theorem onFailure_lost {user : String} {policy : DeadLetterInput Payload → Option DeadLetterDecision} (hu : sub.publisherUserId = some user)
    (hp : sub.deadLetterPolicy = some policy) (hid : msg.messageId.filter MESSAGE_ID ≠ msg.messageId)
    (hb : (deadLetterDecision policy (inputOf msg event error)).body = .redacted)
    (hretry : o.retry = { routed := false, confirmed := false, returned := [] }) (hdead : o.dead = { routed := false, confirmed := true, returned := [] }) :
    ¬ Lawful sub.context.queue msg (onFailure sub msg event error o) := by
  have hr : (scheduleRetry sub msg error o.retry).2 = false := by
    by_contra h
    obtain ⟨_, p, hm, _, _, hconf, _⟩ := scheduleRetry_secured (by simpa using h)
    rw [(mem_scheduleRetry hm).1, hretry] at hconf
    cases hconf
  have hcopy : (deadLetterCopy policy msg event (failureOf event error) error.reason).messageId = msg.messageId.filter MESSAGE_ID := by
    unfold inputOf at hb
    simp only [deadLetterCopy, hb]
  have hd : (deadLetter sub msg event error o.failedAt o.dead).2 = true := by
    simp only [deadLetter, republish, hu, hp, hdead, Option.map_some, returnedIds, copyMessage, hcopy, Bool.false_eq_true, if_false, Bool.true_and]
    simpa using fun h => hid h.symm
  have hlost : ∀ p ∈ (onFailure sub msg event error o).published, p.outcome.routed = false := by
    rw [onFailure_dead hr]
    intro p hm
    rcases List.mem_append.mp hm with hm | hm
    · rw [(mem_scheduleRetry hm).1, hretry]
    · rw [(mem_deadLetter hm).1, hdead]
  intro hl
  rcases hl with hl | ⟨_, hl | ⟨p, hm, _, _, _, hrouted⟩⟩
  · rw [onFailure_dead hr, hd] at hl; cases hl
  · rw [onFailure_dead hr] at hl; cases hl
  · rw [hlost p hm] at hrouted; cases hrouted

end

/-! ## Deliveries -/

theorem verdict_rejects (store : StoreOutcome) :
    (verdict sub rows msg store).2 = .holds ∨ (verdict sub rows msg store).2 = (verdict sub rows msg .answers).2 := by
  cases store with
  | answers => exact .inr rfl
  | rejects committed =>
    unfold verdict
    cases envelopeOf sub.parse msg with
    | none => exact .inr rfl
    | some event =>
      cases hadm : admissionRefusal sub event msg.content with
      | some reason => simp [hadm]
      | none =>
        simp only [hadm]
        cases sub.enforcement with
        | none =>
          cases sub.provenance with
          | false => exact .inr rfl
          | true =>
            unfold provenanceCommitted
            cases evaluateProvenanceFacts msg sub.context.exchange sub.context.ownerOf with
            | none => exact .inr rfl
            | some f =>
              cases ha : assess sub.context.store rows sub.context.queue f msg.content with
              | error e => simp [ha]
              | ok p => simp [ha]
        | some policy =>
          unfold trustDecision
          cases evaluateProvenanceFacts msg sub.context.exchange sub.context.ownerOf with
          | none =>
            by_cases hx : msg.exchange ≠ ""
            · simp [hx]
            · simp [hx, decideReplayTrust]
          | some f =>
            cases ha : assess sub.context.store rows sub.context.queue f msg.content with
            | error e => simp [ha]
            | ok p => simp [ha]

theorem deliver_snd (o : Outcomes) : (deliver sub rows msg o).2 = conclude sub msg (verdict sub rows msg o.store).2 o := rfl

theorem deliver_lawful (ht : Traced sub rows msg) (o : Outcomes) : Lawful sub.context.queue msg (deliver sub rows msg o).2 := by
  have hall {event : Option (Envelope Payload)} {error : HandlerError} (hm : MayFail msg (verdict sub rows msg .answers).2 (inputOf msg event error)) :
      Lawful sub.context.queue msg (onFailure sub msg event error o) := by
    refine onFailure_lawful ?_
    rcases ht with ht | ht | ht
    · exact .inl ht
    · exact .inr (.inl ht)
    · exact .inr (.inr fun policy hp => ht policy _ hp hm)
  rw [deliver_snd]
  rcases @verdict_rejects H Payload sub rows msg o.store with hv | hv
  · rw [hv]; exact .inl rfl
  · rw [hv]
    cases hw : (verdict sub rows msg .answers).2 with
    | holds => exact .inl rfl
    | fails event reason =>
      rw [hw] at hall
      exact hall rfl
    | handles event trust =>
      rw [hw] at hall
      unfold conclude
      cases o.handler with
      | none => exact .inr ⟨rfl, .inl rfl⟩
      | some error => exact hall ⟨error, rfl⟩

theorem deliver_lost (ht : ¬ Traced sub rows msg) : ∃ o, ¬ Lawful sub.context.queue msg (deliver sub rows msg o).2 := by
  unfold Traced at ht
  push Not at ht
  obtain ⟨hu, hid, policy, input, hp, hm, hb⟩ := ht
  obtain ⟨user, hu⟩ := Option.ne_none_iff_exists'.mp hu
  have hb' : (deadLetterDecision policy input).body = .redacted := by
    cases h : (deadLetterDecision policy input).body with
    | original => exact absurd h hb
    | redacted => rfl
  have outcomes (handler : Option HandlerError) : ∃ o : Outcomes, o.store = .answers ∧ o.handler = handler ∧
      o.retry = { routed := false, confirmed := false, returned := [] } ∧ o.dead = { routed := false, confirmed := true, returned := [] } :=
    ⟨{ store := .answers, handler, retry := _, dead := _, failedAt := "" }, rfl, rfl, rfl, rfl⟩
  cases hv : (verdict sub rows msg .answers).2 with
  | holds => rw [hv] at hm; cases hm
  | fails event reason =>
    rw [hv] at hm
    obtain ⟨o, hs, _, hr, hd⟩ := outcomes none
    refine ⟨o, ?_⟩
    rw [deliver_snd, hs, hv]
    exact onFailure_lost hu hp hid (hm ▸ hb') hr hd
  | handles event trust =>
    rw [hv] at hm
    obtain ⟨error, hm⟩ := hm
    obtain ⟨o, hs, hh, hr, hd⟩ := outcomes (some error)
    refine ⟨o, ?_⟩
    rw [deliver_snd, hs, hv]
    simp only [conclude, hh]
    exact onFailure_lost hu hp hid (hm ▸ hb') hr hd

/-! ## Retries -/

theorem retry_counts {o : Outcomes} (hp : p ∈ (deliver sub rows msg o).2.published) (hq : p.queue = sub.context.queue ++ ".retry") :
    counter (msg.headers retryCountHeader) < sub.maxRetries ∧
      counter (p.message.headers retryCountHeader) = counter (msg.headers retryCountHeader) + 1 := by
  have hfail {event : Option (Envelope Payload)} {error : HandlerError} (hp : p ∈ (onFailure sub msg event error o).published) :
      p ∈ (scheduleRetry sub msg error o.retry).1 := by
    cases hr : (scheduleRetry sub msg error o.retry).2 with
    | true => rw [onFailure_scheduled hr] at hp; exact hp
    | false =>
      rw [onFailure_dead hr] at hp
      rcases List.mem_append.mp hp with hp | hp
      · exact hp
      · have hne : ".dead".toList = ".retry".toList := by
          have := congrArg String.toList ((mem_deadLetter hp).2.symm.trans hq)
          rw [String.toList_append, String.toList_append] at this
          exact List.append_cancel_left this
        exact absurd hne (by decide)
  rw [deliver_snd] at hp
  cases hv : (verdict sub rows msg o.store).2 with
  | holds => rw [hv] at hp; cases hp
  | fails event reason =>
    rw [hv] at hp
    exact (mem_scheduleRetry (hfail hp)).2
  | handles event trust =>
    rw [hv] at hp
    unfold conclude at hp
    cases hh : o.handler with
    | none => simp [hh] at hp
    | some error =>
      simp only [hh] at hp
      exact (mem_scheduleRetry (hfail hp)).2

theorem counter_returns {m m' : Message} (h : Returns m m') : counter (m'.headers retryCountHeader) = counter (m.headers retryCountHeader) :=
  congrArg counter (h.2.2.2 retryCountHeader (by decide))

theorem Chain.counts {n : Nat} {m : Message} (h : Chain sub msg n m) : n ≤ counter (m.headers retryCountHeader) ∧
    (n = 0 ∨ counter (m.headers retryCountHeader) ≤ sub.maxRetries) := by
  induction h with
  | start => exact ⟨Nat.zero_le _, .inl rfl⟩
  | requeued h hd hr ih =>
    rw [counter_returns hr]
    exact ih
  | retried h hp hq hr ih =>
    rw [counter_returns hr]
    obtain ⟨hlt, hcount⟩ := retry_counts hp hq
    rw [hcount]
    refine ⟨?_, .inr hlt⟩
    split <;> omega

/-- **The pipeline law** holds of a message exactly when its returned copies are matched to it. -/
theorem pipeline_law_iff (sub : EventSubscription H Payload) (rows : List (StoredRow H)) (msg : Message) :
    PipelineLaw sub rows msg ↔ Traced sub rows msg := by
  constructor
  · intro h
    by_contra ht
    obtain ⟨o, ho⟩ := deliver_lost ht
    exact ho (h.kept o)
  · intro h
    refine ⟨deliver_lawful h, fun n m hc => ?_⟩
    obtain ⟨hn, h0 | hmax⟩ := hc.counts
    · omega
    · omega

def plainHashing : Hashing where
  Digest := Body
  Key := Unit
  Mac := Body
  sha256 := id
  hmac := fun _ body => body
  sha256_injective := id
  hmac_injective := fun h => ⟨rfl, h⟩

def redactingSubscription : EventSubscription plainHashing Unit where
  context := { exchange := "nawara.events", queue := "notification.events", ownerOf := fun _ => none, store := .plain }
  parse := fun _ => none
  provenance := false
  enforcement := some .strict
  admission := none
  deadLetterPolicy := some fun input => some { body := if input.event.isNone then .redacted else .original, headers := fun _ => none }
  maxRetries := 3
  publisherUserId := some "notification-service"

def blankIdMessage : Message where
  exchange := "nawara.events"
  routingKey := "membership.approved"
  userId := none
  messageId := some "a b"
  type := none
  contentType := none
  timestamp := none
  headers := fun _ => none
  content := []

theorem redacted_copy_lost : ¬ ∀ (H : Hashing) (Payload : Type) (sub : EventSubscription H Payload) (rows : List (StoredRow H)) (msg : Message),
    PipelineLaw sub rows msg := by
  intro h
  have hnot : ¬ Traced redactingSubscription [] blankIdMessage := by
    rintro (h | h | h)
    · cases h
    · exact absurd h (by decide)
    · have := h _ (inputOf blankIdMessage none (.permanent "malformed_envelope")) rfl rfl
      cases this
  obtain ⟨o, ho⟩ := deliver_lost hnot
  exact ho ((h plainHashing Unit redactingSubscription [] blankIdMessage).kept o)

end NawaraCore.Events
