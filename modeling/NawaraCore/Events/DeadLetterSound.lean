import NawaraCore.Events.DeadLetterPolicy
import NawaraCore.Events.PipelineSound

/-!
# What a notification dead-letter queue holds

A copy is for the retry queue, or its body is the redaction or the text of a value that shows
every byte and has no member `code`.
-/

namespace NawaraCore.Events

def Uncoded (parse : Parse) (body : Body) : Prop :=
  (∃ failure reason size, body = redactedDocument failure reason size) ∨
    ∃ v, parse body = some v ∧ bytesOf v.val.stringify = body ∧ carriesCode v.val = false

variable {H : Hashing} {Payload : Type} {parse : Parse} {sub : EventSubscription H Payload} {msg : Message} {event : Option (Envelope Payload)}
  {error : HandlerError} {p : Published}

theorem mayKeepOriginal_uncoded {body : Body} (h : mayKeepOriginal parse event body = true) : Uncoded parse body := by
  cases event with
  | none => cases h
  | some e =>
    simp only [mayKeepOriginal, isCanonicalJsonBody, Bool.and_eq_true] at h
    obtain ⟨hcanon, hmap⟩ := h
    cases hv : parse body with
    | none => simp [hv] at hcanon
    | some v =>
      cases hm : mappingFor e.source e.name with
      | none => simp [hm] at hmap
      | some m =>
        simp only [hv, hm, Option.any_some, Bool.and_eq_true, Bool.not_eq_true'] at hcanon hmap
        exact .inr ⟨v, hv, eq_of_beq hcanon, hmap.2⟩

theorem deadLetter_uncoded {failedAt : String} {o : PublishOutcome} (hp : sub.deadLetterPolicy = some (notificationDeadLetterPolicy parse))
    (hm : p ∈ (deadLetter sub msg event error failedAt o).1) : Uncoded parse p.message.content := by
  unfold deadLetter at hm
  obtain ⟨u, rfl⟩ := mem_republish hm
  simp only [hp, Option.map_some, copyMessage, deadLetterCopy, deadLetterDecision, notificationDeadLetterPolicy, Option.getD_some]
  cases hk : mayKeepOriginal parse event msg.content with
  | false => exact .inl ⟨_, _, _, rfl⟩
  | true => exact mayKeepOriginal_uncoded hk

theorem onFailure_uncoded {o : Outcomes} (hp : sub.deadLetterPolicy = some (notificationDeadLetterPolicy parse))
    (hm : p ∈ (onFailure sub msg event error o).published) : p.queue = sub.context.queue ++ ".retry" ∨ Uncoded parse p.message.content := by
  have hretry {p : Published} (hm : p ∈ (scheduleRetry sub msg error o.retry).1) : p.queue = sub.context.queue ++ ".retry" := by
    unfold scheduleRetry at hm
    dsimp only at hm
    split at hm
    · obtain ⟨u, rfl⟩ := mem_republish hm
      rfl
    · cases hm
  cases hr : (scheduleRetry sub msg error o.retry).2 with
  | true =>
    rw [onFailure_scheduled hr] at hm
    exact .inl (hretry hm)
  | false =>
    rw [onFailure_dead hr] at hm
    exact (List.mem_append.mp hm).imp hretry (deadLetter_uncoded hp)

/-- **No one-time code survives in the dead-letter queue**, whatever is delivered and however it fails. -/
theorem dead_letters_uncoded (parse : Parse) (sub : {sub : EventSubscription H Payload // sub.deadLetterPolicy = some (notificationDeadLetterPolicy parse)})
    (rows : List (StoredRow H)) (msg : Message) (o : Outcomes) : (deliver sub.1 rows msg o).2.published.Forall fun p =>
      p.queue = sub.1.context.queue ++ ".retry" ∨ Uncoded parse p.message.content := by
  rw [List.forall_iff_forall_mem, deliver_snd]
  intro p hp
  cases hv : (verdict sub.1 rows msg o.store).2 with
  | holds =>
    rw [hv] at hp
    cases hp
  | fails event reason =>
    rw [hv] at hp
    exact onFailure_uncoded sub.2 hp
  | handles event trust =>
    rw [hv] at hp
    unfold conclude at hp
    cases hh : o.handler with
    | none => simp [hh] at hp
    | some error =>
      simp only [hh] at hp
      exact onFailure_uncoded sub.2 hp

end NawaraCore.Events
