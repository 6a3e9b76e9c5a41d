import NawaraCore.Notification.Intake

/-!
# What an intake records

The plain data hold no variable that a version used marks secret, and an intent that has
nothing to send keeps no secret.
-/

namespace NawaraCore.Notification

variable {Value : Type} {cfg : IntakeConfig Value} {catalog : Catalog}

theorem split_plain (schema : VariableSchema) (values : List (String × Option Value)) :
    ∀ v ∈ (split cfg schema values).1, schema.secret v.1 = false := by
  induction values with
  | nil => exact nofun
  | cons p values ih =>
    obtain ⟨name, value⟩ := p
    cases value with
    | none => exact ih
    | some value =>
      unfold split
      split
      · exact ih
      · rename_i hplain
        intro v hv
        rcases List.mem_cons.mp hv with rfl | hv
        · exact Bool.eq_false_iff.mpr hplain
        · exact ih v hv

theorem activeVersion_active {key locale : _} {channel : DeliveryChannel} {v : TemplateVersion} (h : activeVersion cfg catalog key channel locale = some v) :
    Active catalog.versions v ∧ v.template = key ∧ v.channel = channel := by
  unfold activeVersion at h
  dsimp only at h
  split at h
  · cases h
  · rename_i found _
    have hmem : ∀ w, w ∈ (catalog.versions.filter fun v => v.template = key ∧ v.channel = channel).insertionSort (fun v w => w.version ≤ v.version) ↔
        w ∈ catalog.versions ∧ w.template = key ∧ w.channel = channel := by
      intro w
      rw [(List.perm_insertionSort _ _).mem_iff, List.mem_filter, decide_eq_true_eq]
    obtain ⟨hlocale, init, rest, happ, hinit⟩ := List.find?_eq_some_iff_append.mp h
    have hv := (hmem v).mp (by rw [happ]; exact List.mem_append_right _ List.mem_cons_self)
    refine ⟨⟨hv.1, fun w hw ht hc hl => ?_⟩, hv.2⟩
    have hin := (hmem w).mpr ⟨hw, ht.trans hv.2.1, hc.trans hv.2.2⟩
    have hsorted := List.pairwise_insertionSort (fun v w : TemplateVersion => w.version ≤ v.version) (catalog.versions.filter fun v => v.template = key ∧ v.channel = channel)
    rw [happ] at hin hsorted
    rcases List.mem_append.mp hin with hin | hin
    · -- the versions before it are of other locales
      have hno := hinit w hin
      rw [hl, decide_eq_true_eq.mp hlocale] at hno
      simp at hno
    · rcases List.mem_cons.mp hin with rfl | hin
      · exact Nat.le_refl _
      · exact (List.pairwise_cons.mp (List.pairwise_append.mp hsorted).2.1).1 w hin

theorem secret_shared {v w : TemplateVersion} (hv : Active catalog.versions v) (hw : Active catalog.versions w) (ht : v.template = w.template) (name : String) :
    v.schema.secret name = w.schema.secret name := by
  unfold VariableSchema.secret
  rw [catalog.shared v w hv hw ht name]

theorem channelVersions_active {key : String} {locale : Option String} {channels : List (DeliveryChannel × String)}
    {vs : List (DeliveryChannel × String × TemplateVersion)} (h : channelVersions cfg catalog key locale channels = some vs) :
    ∀ v ∈ vs, Active catalog.versions v.2.2 ∧ v.2.2.template = key := by
  induction channels generalizing vs with
  | nil =>
    obtain rfl := Option.some.inj h
    exact nofun
  | cons c channels ih =>
    obtain ⟨channel, destination⟩ := c
    unfold channelVersions at h
    split at h
    · rename_i version rest hversion hrest
      obtain rfl := Option.some.inj h
      intro v hv
      rcases List.mem_cons.mp hv with rfl | hv
      · exact ⟨(activeVersion_active hversion).1, (activeVersion_active hversion).2.1⟩
      · exact ih hrest v hv
    · cases h

structure Admissible (n : Intent Value) (ds : List Delivery) : Prop where
  ids : (ds.map Delivery.id).Nodup
  plain : ∀ v ∈ n.data, ∀ r ∈ ds, r.version.schema.secret v.1 = false
  finished : (∀ r ∈ ds, r.status.terminal) → n.secret = none

variable {n : Intent Value} {ds : List Delivery}

theorem handle_admissible {now : Int} {e : EventIntake Value} (h : handle cfg catalog now e = some (n, ds)) : Admissible n ds := by
  unfold handle at h
  split at h
  · cases h
  · rename_i version hversion
    split at h
    · cases h
    · obtain ⟨rfl, rfl⟩ := Prod.mk.inj (Option.some.inj h)
      refine ⟨List.nodup_singleton _, fun v hv r hr => ?_, fun hall => ?_⟩
      · rw [List.mem_singleton.mp hr]
        split <;> exact split_plain version.schema e.values v hv
      · have hown := hall _ (List.mem_singleton_self _)
        split at hown
        · cases hown
        · rename_i hno
          exact if_neg hno

theorem send_admissible {now : Int} {r : SendRequest Value} (h : send cfg catalog now r = some (n, ds)) : Admissible n ds := by
  unfold send at h
  split at h
  · rename_i channel destination version rest hversions
    dsimp only at h
    split at h
    · cases h
    · obtain ⟨rfl, rfl⟩ := Prod.mk.inj (Option.some.inj h)
      have hactive := channelVersions_active hversions
      refine ⟨?_, fun v hv d hd => ?_, fun hall => ?_⟩
      · have hids : (((channel, destination, version) :: rest).mapIdx fun i v => newDelivery i v.1 v.2.1 v.2.2 (r.scheduledAt.getD now)).map Delivery.id =
            List.range (rest.length + 1) := by
          refine List.ext_getElem (by simp) fun i _ _ => ?_
          rw [List.getElem_map, List.getElem_mapIdx, List.getElem_range]
          rfl
        rw [hids]
        exact List.nodup_range
      · -- each delivery pins an active version of the one template
        obtain ⟨i, hi, rfl⟩ := List.mem_mapIdx.mp hd
        have hfirst := hactive (channel, destination, version) List.mem_cons_self
        have hown := hactive _ (List.getElem_mem hi)
        show VariableSchema.secret (TemplateVersion.schema (((channel, destination, version) :: rest)[i]).2.2) v.1 = false
        rw [secret_shared hown.1 hfirst.1 (hown.2.trans hfirst.2.symm)]
        exact split_plain version.schema r.data v hv
      · rw [List.mapIdx_cons] at hall
        have hpending := hall _ List.mem_cons_self
        cases hpending
  · cases h

end NawaraCore.Notification
