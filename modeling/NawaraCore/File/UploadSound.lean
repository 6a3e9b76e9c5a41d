import Mathlib.Logic.Equiv.List
import NawaraCore.File.StreamsSound
import NawaraCore.File.Upload
import NawaraCore.Lib.JsonParseSound

/-!
# One upload for an intent

A request creates at most one row, a ticket or a live key admits one creator, and what a row
records is what its creator's body was verified to be.
-/

namespace NawaraCore.FileUpload

open FileAccess (FileStatus)
open FileStreams

variable {caller : String}
variable {l : List Request} {status : FileStatus} {files : List FileRow}

section
variable {hmac : String → List Nat → String} {digest : Bytes → String} {agrees : Declared → FileMediaType → Bool} {s : State} {f g row : FileRow} {r q : Request} {i j : Nat} {t : Ticket} {a : Accepted} {bytes : Bytes} {id storageKey : String}

structure FileRow.Same (f g : FileRow) : Prop where
  id : g.id = f.id
  ownerService : g.ownerService = f.ownerService
  idempotencyKey : g.idempotencyKey = f.idempotencyKey
  requestHash : g.requestHash = f.requestHash
  storageKey : g.storageKey = f.storageKey

theorem FileRow.Same.refl (f : FileRow) : f.Same f := ⟨rfl, rfl, rfl, rfl, rfl⟩

theorem FileRow.Same.trans {h : FileRow} (hfg : f.Same g) (hgh : g.Same h) : f.Same h :=
  ⟨hgh.id.trans hfg.id, hgh.ownerService.trans hfg.ownerService, hgh.idempotencyKey.trans hfg.idempotencyKey, hgh.requestHash.trans hfg.requestHash,
    hgh.storageKey.trans hfg.storageKey⟩

def Keyed (f : FileRow) : Prop := f.live = true ∧ f.idempotencyKey.isSome = true

def FileRow.key (f : FileRow) : String × Option String := (f.ownerService, f.idempotencyKey)

def Complete (status : FileStatus) : Prop := status = .available ∨ status = .deleting ∨ status = .deleted

def Made (hmac : String → List Nat → String) (r : Request) (row : FileRow) : Prop := match r.route with
  | .ticket _ => row.idempotencyKey = none
  | .service caller key =>
    row.ownerService = caller ∧ row.idempotencyKey = some key ∧ row.requestHash = some (uploadRequestHash hmac r.config.requestHashKey r.declared)

def Request.Verified (digest : Bytes → String) (r : Request) (a : Accepted) (bytes : Bytes) : Prop :=
  ∃ input chunks, r.body = some (input, chunks) ∧ ingest digest input chunks = .ok a ∧ published digest input chunks = bytes

def Request.Creates (r : Request) (id : String) : Prop := ∃ row, r.file = some row ∧ row.id = id

def Phase.Ok (digest : Bytes → String) (r : Request) : Phase → Prop
  | .arrived => r.file = none ∧ admission r.config r.declared r.route = none
  | .replaying | .retrying | .usedTicket _ | .answered (.existing _) => r.file = none
  | .receiving _ _ _ => r.file.isSome = true ∧ r.body = none
  | .stored a _ => ∃ bytes, r.Verified digest a bytes
  | .refusing status _ a => (status = .rejected ∨ status = .failed) ∧ ∃ code text, a = .error code text
  | _ => True

structure Request.Keeps (r q : Request) : Prop where
  route : q.route = r.route
  declared : q.declared = r.declared
  config : q.config = r.config
  file : ∀ row, r.file = some row → q.file = some row
  body : ∀ b, r.body = some b → q.body = some b

theorem Request.Creates.keeps (h : r.Keeps q) (hc : r.Creates id) : q.Creates id := by
  obtain ⟨row, hrow, hid⟩ := hc
  exact ⟨row, h.file row hrow, hid⟩

theorem Request.Verified.keeps (h : r.Keeps q) (hv : r.Verified digest a bytes) : q.Verified digest a bytes := by
  obtain ⟨input, chunks, hbody, hok, hpub⟩ := hv
  exact ⟨input, chunks, h.body _ hbody, hok, hpub⟩

theorem Request.Verified.unique {a' : Accepted} {bytes' : Bytes} (h : r.Verified digest a bytes) (h' : r.Verified digest a' bytes') : a = a' ∧ bytes = bytes' := by
  obtain ⟨input, chunks, hbody, hok, hpub⟩ := h
  obtain ⟨input', chunks', hbody', hok', hpub'⟩ := h'
  rw [hbody, Option.some.injEq, Prod.mk.injEq] at hbody'
  obtain ⟨rfl, rfl⟩ := hbody'
  exact ⟨Except.ok.inj (hok.symm.trans hok'), hpub.symm.trans hpub'⟩

structure Inv (hmac : String → List Nat → String) (digest : Bytes → String) (s : State) : Prop where
  ids : (s.files.map FileRow.id).Nodup
  keys : (s.files.map FileRow.storageKey).Nodup
  digests : (s.tickets.map Ticket.tokenDigest).Nodup
  live : UniqueOn Keyed FileRow.key s.files
  phase : ∀ r ∈ s.requests, r.phase.Ok digest r
  unread : ∀ r ∈ s.requests, r.file = none → r.body = none
  made : ∀ r ∈ s.requests, ∀ row, r.file = some row → Made hmac r row ∧ ∃ f ∈ s.files, row.Same f
  maker : ∀ f ∈ s.files, ∃ r ∈ s.requests, ∃ row, r.file = some row ∧ row.Same f
  once : ∀ (i j : Nat) r q, s.requests[i]? = some r → s.requests[j]? = some q → ∀ id, r.Creates id → q.Creates id → i = j
  bound : ∀ r ∈ s.requests, ∀ id d, r.Creates id → r.route = .ticket d → ∃ t ∈ s.tickets, t.tokenDigest = d ∧ t.fileId = some id
  used : ∀ t ∈ s.tickets, t.useCount = 0 ∧ t.fileId = none ∨ t.useCount = 1 ∧ ∃ id, t.fileId = some id ∧ ∃ r ∈ s.requests, r.route = .ticket t.tokenDigest ∧ r.Creates id
  content : ∀ f ∈ s.files, ∀ a, f.content = some a → ∃ r ∈ s.requests, r.Creates f.id ∧ ∃ bytes, r.Verified digest a bytes
  complete : ∀ f ∈ s.files, Complete f.status → f.content.isSome = true
  store : ∀ f ∈ s.files, ∀ bytes, s.store.lookup f.storageKey = some bytes → ∃ r ∈ s.requests, r.Creates f.id ∧ ∃ a, r.Verified digest a bytes
  owned : ∀ o ∈ s.store, ∃ f ∈ s.files, f.storageKey = o.1
  answers : ∀ r ∈ s.requests, ∀ caller key f, r.route = .service caller key → r.phase = .answered (.existing f) → ∃ q ∈ s.requests,
    q.Creates f.id ∧ q.route = r.route ∧ ∃ k, uploadRequestHash hmac q.config.requestHashKey q.declared = uploadRequestHash hmac k r.declared

theorem Inv.empty : Inv hmac digest .empty := by
  constructor <;> simp [State.empty, UniqueOn]

/-! ## A request goes on -/

theorem get_set (hi : l[i]? = some r) : (l.set i q)[j]? = if j = i then some q else l[j]? := by
  rw [List.getElem?_set]
  have hlt : i < l.length := (List.getElem?_eq_some_iff.mp hi).1
  by_cases h : i = j
  · rw [if_pos h, if_pos hlt, if_pos h.symm]
  · rw [if_neg h, if_neg (Ne.symm h)]

theorem mem_set {p : Request} (hp : p ∈ l.set i q) : p = q ∨ p ∈ l := (List.mem_or_eq_of_mem_set hp).symm

theorem exists_set (hi : l[i]? = some r) {P : Request → Prop} (hP : P r → P q) (h : ∃ p ∈ l, P p) :
    ∃ p ∈ l.set i q, P p := by
  obtain ⟨p, hp, hpp⟩ := h
  obtain ⟨j, hj⟩ := List.mem_iff_getElem?.mp hp
  by_cases hji : j = i
  · rw [hji, hi, Option.some.injEq] at hj
    refine ⟨q, List.mem_iff_getElem?.mpr ⟨i, ?_⟩, hP (hj ▸ hpp)⟩
    rw [get_set hi, if_pos rfl]
  · refine ⟨p, List.mem_iff_getElem?.mpr ⟨j, ?_⟩, hpp⟩
    rw [get_set hi, if_neg hji, hj]

theorem Inv.set (h : Inv hmac digest s) (hi : s.requests[i]? = some r) (hk : r.Keeps q) (hfile : q.file = r.file) (hphase : q.phase.Ok digest q)
    (hunread : q.file = none → q.body = none)
    (hanswer : ∀ caller key f, q.route = .service caller key → q.phase = .answered (.existing f) → ∃ p ∈ s.requests,
      p.Creates f.id ∧ p.route = q.route ∧ ∃ k, uploadRequestHash hmac p.config.requestHashKey p.declared = uploadRequestHash hmac k q.declared) :
    Inv hmac digest (s.put i q) := by
  have hr : r ∈ s.requests := List.mem_of_getElem? hi
  have hcreates : ∀ {id}, q.Creates id → r.Creates id := fun ⟨row, hrow, hid⟩ => ⟨row, hfile ▸ hrow, hid⟩
  have hanswers : ∀ {p : Request} {caller key f}, p.route = .service caller key → (∃ x ∈ s.requests, x.Creates f ∧ x.route = p.route ∧
      ∃ k, uploadRequestHash hmac x.config.requestHashKey x.declared = uploadRequestHash hmac k p.declared) →
      ∃ x ∈ s.requests.set i q, x.Creates f ∧ x.route = .service caller key ∧
        ∃ k, uploadRequestHash hmac x.config.requestHashKey x.declared = uploadRequestHash hmac k p.declared := fun hroute hx =>
    exists_set hi (fun ⟨hc, hro, hh⟩ => ⟨hc.keeps hk, hk.route.trans hro, by rw [hk.config, hk.declared]; exact hh⟩)
      (by rw [← hroute]; exact hx)
  exact
    { ids := h.ids
      keys := h.keys
      digests := h.digests
      live := h.live
      phase := fun p hp => (mem_set hp).elim (fun he => he ▸ hphase) (h.phase p)
      unread := fun p hp => (mem_set hp).elim (fun he => he ▸ hunread) (h.unread p)
      made := fun p hp row hrow => by
        rcases mem_set hp with rfl | hp
        · have hm := h.made r hr row (hfile ▸ hrow)
          refine ⟨?_, hm.2⟩
          unfold Made
          rw [hk.route, hk.config, hk.declared]
          exact hm.1
        · exact h.made p hp row hrow
      maker := fun f hf => exists_set hi (fun ⟨row, hrow, hs⟩ => ⟨row, hk.file row hrow, hs⟩) (h.maker f hf)
      once := fun m n p p' hm hn id hp hp' => by
        rw [State.put, get_set hi] at hm hn
        have hold : ∀ {m : Nat} {p : Request}, (if m = i then some q else s.requests[m]?) = some p → p.Creates id →
            ∃ p₀, s.requests[m]? = some p₀ ∧ p₀.Creates id := fun {m p} hm hp => by
          split at hm
          · rename_i hmi
            cases hm
            exact ⟨r, hmi ▸ hi, hcreates hp⟩
          · exact ⟨p, hm, hp⟩
        obtain ⟨p₀, hm, hp⟩ := hold hm hp
        obtain ⟨p₁, hn, hp'⟩ := hold hn hp'
        exact h.once m n p₀ p₁ hm hn id hp hp'
      bound := fun p hp id d hc hroute => by
        rcases mem_set hp with rfl | hp
        · exact h.bound r hr id d (hcreates hc) (hk.route ▸ hroute)
        · exact h.bound p hp id d hc hroute
      used := fun t ht => (h.used t ht).imp (fun h => h) fun ⟨hone, id, hid, hx⟩ =>
        ⟨hone, id, hid, exists_set hi (fun ⟨hro, hc⟩ => ⟨hk.route.trans hro, hc.keeps hk⟩) hx⟩
      content := fun f hf a ha => exists_set hi (fun ⟨hc, bytes, hv⟩ => ⟨hc.keeps hk, bytes, hv.keeps hk⟩) (h.content f hf a ha)
      complete := h.complete
      store := fun f hf bytes hb => exists_set hi (fun ⟨hc, a, hv⟩ => ⟨hc.keeps hk, a, hv.keeps hk⟩) (h.store f hf bytes hb)
      owned := h.owned
      answers := fun p hp caller key f hroute hph => by
        rcases mem_set hp with rfl | hp
        · rw [hroute]
          exact hanswers hroute (hanswer caller key f hroute hph)
        · rw [hroute]
          exact hanswers hroute (h.answers p hp caller key f hroute hph) }

theorem Inv.go (h : Inv hmac digest s) (hi : s.requests[i]? = some r) {phase : Phase} (hphase : phase.Ok digest { r with phase })
    (hanswer : ∀ caller key f, r.route = .service caller key → phase = .answered (.existing f) → ∃ p ∈ s.requests,
      p.Creates f.id ∧ p.route = r.route ∧ ∃ k, uploadRequestHash hmac p.config.requestHashKey p.declared = uploadRequestHash hmac k r.declared) :
    Inv hmac digest (s.go i r phase) :=
  h.set hi ⟨rfl, rfl, rfl, fun _ h => h, fun _ h => h⟩ rfl hphase (h.unread r (List.mem_of_getElem? hi)) hanswer

theorem Inv.error (h : Inv hmac digest s) (hi : s.requests[i]? = some r) {status : Nat} {code : String} :
    Inv hmac digest (s.answer i r (.error status code)) := h.go hi trivial fun _ _ _ _ he => by cases he

/-! ## The other parts -/

/-- An update that keeps a row's columns, brings no row back to life and records no content. -/
structure Moves (f g : FileRow) : Prop where
  same : f.Same g
  live : g.live = true → f.live = true
  content : g.content = f.content
  complete : Complete g.status → Complete f.status

theorem Moves.refl (f : FileRow) : Moves f f := ⟨.refl f, fun h => h, rfl, fun h => h⟩

variable {u : FileRow → FileRow}

theorem nodup_same {β : Type} {c : FileRow → β} (hu : ∀ f ∈ s.files, c (u f) = c f) (h : (s.files.map c).Nodup) :
    ((s.files.map u).map c).Nodup := by
  rw [List.map_map]
  rw [show s.files.map (c ∘ u) = s.files.map c from List.map_congr_left hu]
  exact h

section
variable (h : Inv hmac digest s)
include h

theorem Inv.rows (hsame : ∀ f ∈ s.files, f.Same (u f)) (hlive : ∀ f ∈ s.files, (u f).live = true → f.live = true)
    (hcontent : ∀ f ∈ s.files, ∀ a, (u f).content = some a → f.content = some a ∨ ∃ r ∈ s.requests, r.Creates f.id ∧ ∃ bytes, r.Verified digest a bytes)
    (hcomplete : ∀ f ∈ s.files, Complete (u f).status → (u f).content.isSome = true) : Inv hmac digest { s with files := s.files.map u } where
  ids := nodup_same (fun f hf => (hsame f hf).id) h.ids
  keys := nodup_same (fun f hf => (hsame f hf).storageKey) h.keys
  digests := h.digests
  live f' hf' g' hg' hlf hlg hkey := by
    obtain ⟨f, hf, rfl⟩ := List.mem_map.mp hf'
    obtain ⟨g, hg, rfl⟩ := List.mem_map.mp hg'
    have hold : ∀ {f}, f ∈ s.files → Keyed (u f) → Keyed f := fun hf hk => ⟨hlive _ hf hk.1, (hsame _ hf).idempotencyKey ▸ hk.2⟩
    rw [FileRow.key, FileRow.key, (hsame f hf).ownerService, (hsame g hg).ownerService, (hsame f hf).idempotencyKey, (hsame g hg).idempotencyKey] at hkey
    rw [h.live f hf g hg (hold hf hlf) (hold hg hlg) hkey]
  phase := h.phase
  unread := h.unread
  made r hr row hrow := by
    obtain ⟨hm, f, hf, hs⟩ := h.made r hr row hrow
    exact ⟨hm, u f, List.mem_map_of_mem hf, hs.trans (hsame f hf)⟩
  maker f' hf' := by
    obtain ⟨f, hf, rfl⟩ := List.mem_map.mp hf'
    obtain ⟨r, hr, row, hrow, hs⟩ := h.maker f hf
    exact ⟨r, hr, row, hrow, hs.trans (hsame f hf)⟩
  once := h.once
  bound := h.bound
  used := h.used
  content f' hf' a ha := by
    obtain ⟨f, hf, rfl⟩ := List.mem_map.mp hf'
    rw [(hsame f hf).id]
    rcases hcontent f hf a ha with ha | hx
    · exact h.content f hf a ha
    · exact hx
  complete f' hf' hc := by
    obtain ⟨f, hf, rfl⟩ := List.mem_map.mp hf'
    exact hcomplete f hf hc
  store f' hf' bytes hb := by
    obtain ⟨f, hf, rfl⟩ := List.mem_map.mp hf'
    rw [(hsame f hf).storageKey] at hb
    rw [(hsame f hf).id]
    exact h.store f hf bytes hb
  owned o ho := by
    obtain ⟨f, hf, hkey⟩ := h.owned o ho
    exact ⟨u f, List.mem_map_of_mem hf, (hsame f hf).storageKey.trans hkey⟩
  answers := h.answers

theorem Inv.updateRow {p : FileRow → Bool} {set : FileRow → FileRow} (hset : ∀ f, p f = true → Moves f (set f)) :
    Inv hmac digest { s with files := updateRow id p set s.files } := by
  have hu : ∀ f, Moves f (if f.id = id ∧ p f = true then set f else f) := fun f => by
    split
    · rename_i hf
      exact hset f hf.2
    · exact .refl f
  refine h.rows (fun f _ => (hu f).same) (fun f _ => (hu f).live) (fun f _ a ha => .inl ((hu f).content ▸ ha)) fun f hf hc => ?_
  rw [(hu f).content]
  exact h.complete f hf ((hu f).complete hc)

theorem Inv.completeUpload (hr : r ∈ s.requests) (hc : r.Creates id) (hv : ∃ bytes, r.Verified digest a bytes) (attach : Bool) :
    Inv hmac digest { s with files := completeUpload s.clock id a attach s.files } := by
  refine h.rows (fun f _ => ?_) (fun f _ => ?_) (fun f _ b hb => ?_) fun f hf hcomp => ?_
  · split <;> exact ⟨rfl, rfl, rfl, rfl, rfl⟩
  · split
    · rename_i hf
      intro _
      have hs : f.status = .uploading := of_decide_eq_true hf.2
      simp [FileRow.live, hs]
    · exact fun h => h
  · split at hb
    · rename_i hf
      cases hb
      exact .inr ⟨r, hr, hf.1 ▸ hc, hv⟩
    · exact .inl hb
  · by_cases hup : f.id = id ∧ uploading f = true
    · rw [if_pos hup]
      rfl
    · rw [if_neg hup] at hcomp ⊢
      exact h.complete f hf hcomp

theorem Inv.remove (key : String) : Inv hmac digest (s.remove key) :=
  { h with
    store := fun f hf bytes hb => by
      have hne : f.storageKey ≠ key := fun he => by
        rw [he] at hb
        rw [State.remove, lookup_remove_self] at hb
        cases hb
      exact h.store f hf bytes ((lookup_remove hne).symm.trans hb)
    owned := fun o ho => h.owned o (List.mem_filter.mp ho).1 }

theorem Inv.tickets {u : Ticket → Ticket}
    (hu : ∀ t, (u t).tokenDigest = t.tokenDigest ∧ (u t).useCount = t.useCount ∧ (u t).fileId = t.fileId) : Inv hmac digest { s with tickets := s.tickets.map u } :=
  { h with
    digests := by
      show ((s.tickets.map u).map Ticket.tokenDigest).Nodup
      rw [List.map_map, show s.tickets.map (Ticket.tokenDigest ∘ u) = s.tickets.map Ticket.tokenDigest from List.map_congr_left fun t _ => (hu t).1]
      exact h.digests
    bound := fun r hr id d hc hroute => by
      obtain ⟨t, ht, hd, hid⟩ := h.bound r hr id d hc hroute
      exact ⟨u t, List.mem_map_of_mem ht, (hu t).1.trans hd, (hu t).2.2.trans hid⟩
    used := fun t' ht' => by
      obtain ⟨t, ht, rfl⟩ := List.mem_map.mp ht'
      rw [(hu t).1, (hu t).2.1, (hu t).2.2]
      exact h.used t ht }

theorem Inv.issue (hnew : ∀ u ∈ s.tickets, u.tokenDigest ≠ t.tokenDigest) (hunused : t.useCount = 0 ∧ t.fileId = none) :
    Inv hmac digest { s with tickets := s.tickets ++ [t] } :=
  { h with
    digests := by
      rw [List.map_append]
      refine h.digests.append (List.nodup_singleton _) fun d hd hd' => ?_
      obtain ⟨u, hu, rfl⟩ := List.mem_map.mp hd
      exact hnew u hu (List.mem_singleton.mp hd')
    bound := fun r hr id d hc hroute => by
      obtain ⟨t, ht, hd⟩ := h.bound r hr id d hc hroute
      exact ⟨t, List.mem_append_left _ ht, hd⟩
    used := fun u hu => by
      rcases mem_append_row hu with hu | rfl
      · exact h.used u hu
      · exact .inl hunused }

theorem Inv.arrive (hfile : q.file = none) (hbody : q.body = none) (hphase : q.phase.Ok digest q)
    (hanswer : ∀ f, q.phase ≠ .answered (.existing f)) : Inv hmac digest { s with requests := s.requests ++ [q] } := by
  have hmem : ∀ {p}, p ∈ s.requests ++ [q] → p = q ∨ p ∈ s.requests := fun hp =>
    (List.mem_append.mp hp).symm.imp List.mem_singleton.mp fun h => h
  have hex : ∀ {P : Request → Prop}, (∃ p ∈ s.requests, P p) → ∃ p ∈ s.requests ++ [q], P p := fun ⟨p, hp, h⟩ => ⟨p, List.mem_append_left _ hp, h⟩
  have hno : ∀ {id}, ¬ q.Creates id := fun ⟨row, hrow, _⟩ => by
    rw [hfile] at hrow
    cases hrow
  have hget : ∀ {n : Nat} {p : Request} {id : String}, (s.requests ++ [q])[n]? = some p → p.Creates id → s.requests[n]? = some p := fun {n p id} hn hp => by
    by_cases hlt : n < s.requests.length
    · rwa [List.getElem?_append_left hlt] at hn
    · rw [List.getElem?_append_right (Nat.le_of_not_lt hlt)] at hn
      exact absurd (List.mem_singleton.mp (List.mem_of_getElem? hn) ▸ hp) hno
  exact
    { ids := h.ids
      keys := h.keys
      digests := h.digests
      live := h.live
      phase := fun p hp => (hmem hp).elim (fun he => he ▸ hphase) (h.phase p)
      unread := fun p hp => (hmem hp).elim (fun he _ => he ▸ hbody) (h.unread p)
      made := fun p hp row hrow => by
        rcases hmem hp with rfl | hp
        · exact absurd ⟨row, hrow, rfl⟩ hno
        · exact h.made p hp row hrow
      maker := fun f hf => hex (h.maker f hf)
      once := fun m n p p' hm hn id hp hp' => h.once m n p p' (hget hm hp) (hget hn hp') id hp hp'
      bound := fun p hp id d hc hroute => by
        rcases hmem hp with rfl | hp
        · exact absurd hc hno
        · exact h.bound p hp id d hc hroute
      used := fun t ht => (h.used t ht).imp (fun h => h) fun ⟨hone, id, hid, hx⟩ => ⟨hone, id, hid, hex hx⟩
      content := fun f hf a ha => hex (h.content f hf a ha)
      complete := h.complete
      store := fun f hf bytes hb => hex (h.store f hf bytes hb)
      owned := h.owned
      answers := fun p hp caller key f hroute hph => by
        rcases hmem hp with rfl | hp
        · exact absurd hph (hanswer f)
        · exact hex (h.answers p hp caller key f hroute hph) }

end

/-! ## A request creates its row -/

variable {rows : List FileRow}

theorem insertFile_ok (h : insertFile rows row = .ok files) :
    files = rows ++ [row] ∧ (∀ g ∈ rows, g.id ≠ row.id ∧ g.storageKey ≠ row.storageKey) ∧ keyInUse rows row = false := by
  unfold insertFile at h
  split at h
  · cases h
  · rename_i hany
    split at h
    · cases h
    · rename_i hkey
      refine ⟨(Except.ok.inj h).symm, fun g hg => ?_, Bool.not_eq_true _ ▸ hkey⟩
      have hno : ¬ (g.id = row.id ∨ g.storageKey = row.storageKey) := fun hor => hany (List.any_eq_true.mpr ⟨g, hg, decide_eq_true hor⟩)
      exact not_or.mp hno

theorem insertFile_keyed (h : insertFile rows row = .ok files) : ∀ g ∈ rows, Keyed g → Keyed row → g.key ≠ row.key := by
  intro g hg hkg hkr he
  obtain ⟨-, -, hkey⟩ := insertFile_ok h
  obtain ⟨howner, hk⟩ := Prod.mk.inj he
  have hin : keyInUse rows row = true := by
    refine decide_eq_true ⟨hkr.2, List.any_eq_true.mpr ⟨g, hg, decide_eq_true ⟨howner, hk, hkg.1⟩⟩⟩
  rw [hin] at hkey
  cases hkey

theorem Inv.create (h : Inv hmac digest s) (hi : s.requests[i]? = some r) (hnone : r.file = none) (hins : insertFile s.files row = .ok files)
    (hstatus : row.status = .uploading) (hcontent : row.content = none) {limit : Nat} {allowed : List FileMediaType} {attach : Bool} {tickets : List Ticket}
    (hmade : Made hmac r row) (hdigests : (tickets.map Ticket.tokenDigest).Nodup)
    (hbound : ∀ d, r.route = .ticket d → ∃ t ∈ tickets, t.tokenDigest = d ∧ t.fileId = some row.id)
    (hkeep : ∀ p ∈ s.requests, ∀ id d, p.Creates id → p.route = .ticket d → ∃ t ∈ tickets, t.tokenDigest = d ∧ t.fileId = some id)
    (hused : ∀ t ∈ tickets, t ∈ s.tickets ∨ t.useCount = 1 ∧ t.fileId = some row.id ∧ r.route = .ticket t.tokenDigest) :
    Inv hmac digest { s with
      files
      tickets
      requests := s.requests.set i { r with
        file := some row
        phase := .receiving limit allowed attach } } := by
  obtain ⟨rfl, hfresh, -⟩ := insertFile_ok hins
  have hr := List.mem_of_getElem? hi
  have hk : r.Keeps { r with
      file := some row
      phase := .receiving limit allowed attach } :=
    ⟨rfl, rfl, rfl, fun row hrow => (by rw [hnone] at hrow; cases hrow), fun _ h => h⟩
  generalize hq : ({ r with
      file := some row
      phase := .receiving limit allowed attach } : Request) = q at hk
  have hqr : q.route = r.route ∧ q.file = some row ∧ q.body = none ∧ q.phase = .receiving limit allowed attach := by
    rw [← hq]
    exact ⟨rfl, rfl, h.unread r hr hnone, rfl⟩
  obtain ⟨hroute, hfile, hbody, hphase⟩ := hqr
  have hqmem : q ∈ s.requests.set i q := List.mem_iff_getElem?.mpr ⟨i, by rw [get_set hi, if_pos rfl]⟩
  have hcq : ∀ {id}, q.Creates id → id = row.id := fun ⟨row', hrow, hid⟩ => by
    rw [hfile, Option.some.injEq] at hrow
    rw [hrow, hid]
  have hnew : ∀ {p : Request}, p ∈ s.requests → ¬ p.Creates row.id := fun {p} hp ⟨row', hrow, hid⟩ => by
    obtain ⟨-, f, hf, hs⟩ := h.made p hp row' hrow
    exact (hfresh f hf).1 (hs.id.trans hid)
  exact
    { ids := nodup_append_row h.ids fun g hg => (hfresh g hg).1
      keys := nodup_append_row h.keys fun g hg => (hfresh g hg).2
      digests := hdigests
      live := h.live.append (insertFile_keyed hins)
      phase := fun p hp => by
        rcases mem_set hp with rfl | hp
        · rw [hphase]
          exact ⟨by rw [hfile]; rfl, hbody⟩
        · exact h.phase p hp
      unread := fun p hp => (mem_set hp).elim (fun he _ => he ▸ hbody) (h.unread p)
      made := fun p hp row' hrow => by
        rcases mem_set hp with rfl | hp
        · rw [hfile, Option.some.injEq] at hrow
          subst hrow
          refine ⟨?_, row, List.mem_append_right _ (List.mem_singleton.mpr rfl), .refl row⟩
          unfold Made
          rw [hk.route, hk.config, hk.declared]
          exact hmade
        · obtain ⟨hm, f, hf, hs⟩ := h.made p hp row' hrow
          exact ⟨hm, f, List.mem_append_left _ hf, hs⟩
      maker := fun f hf => by
        rcases mem_append_row hf with hf | hf
        · exact exists_set hi (fun ⟨row, hrow, hs⟩ => ⟨row, hk.file row hrow, hs⟩) (h.maker f hf)
        · rw [hf]
          exact ⟨q, hqmem, row, hfile, .refl row⟩
      once := fun m n p p' hm hn id hp hp' => by
        change (s.requests.set i q)[m]? = some p at hm
        change (s.requests.set i q)[n]? = some p' at hn
        rw [get_set hi] at hm hn
        split at hm <;> split at hn
        · rename_i hmi hni
          exact hmi.trans hni.symm
        · cases hm
          exact absurd (hcq hp ▸ hp') (hnew (List.mem_of_getElem? hn))
        · cases hn
          exact absurd (hcq hp' ▸ hp) (hnew (List.mem_of_getElem? hm))
        · exact h.once m n p p' hm hn id hp hp'
      bound := fun p hp id d hc hro => by
        rcases mem_set hp with rfl | hp
        · rw [hcq hc]
          exact hbound d (hroute.symm.trans hro)
        · exact hkeep p hp id d hc hro
      used := fun t ht => by
        rcases hused t ht with ht | ⟨hone, hid, hro⟩
        · exact (h.used t ht).imp (fun h => h) fun ⟨hone, id, hid, hx⟩ =>
            ⟨hone, id, hid, exists_set hi (fun ⟨hro, hc⟩ => ⟨hk.route.trans hro, hc.keeps hk⟩) hx⟩
        · exact .inr ⟨hone, row.id, hid, q, hqmem, hroute.trans hro, row, hfile, rfl⟩
      content := fun f hf a ha => by
        rcases mem_append_row hf with hf | rfl
        · exact exists_set hi (fun ⟨hc, bytes, hv⟩ => ⟨hc.keeps hk, bytes, hv.keeps hk⟩) (h.content f hf a ha)
        · rw [hcontent] at ha
          cases ha
      complete := fun f hf hc => by
        rcases mem_append_row hf with hf | rfl
        · exact h.complete f hf hc
        · rw [hstatus] at hc
          rcases hc with hc | hc | hc <;> cases hc
      store := fun f hf bytes hb => by
        rcases mem_append_row hf with hf | hf
        · exact exists_set hi (fun ⟨hc, a, hv⟩ => ⟨hc.keeps hk, a, hv.keeps hk⟩) (h.store f hf bytes hb)
        · -- no object has a key that is drawn for a new row
          rw [hf] at hb
          obtain ⟨g, hg, hkey⟩ := h.owned _ (mem_of_lookup_eq_some hb)
          exact absurd hkey (hfresh g hg).2
      owned := fun o ho => by
        obtain ⟨f, hf, hkey⟩ := h.owned o ho
        exact ⟨f, List.mem_append_left _ hf, hkey⟩
      answers := fun p hp caller key f hro hph => by
        rcases mem_set hp with rfl | hp
        · rw [hphase] at hph
          cases hph
        · exact exists_set hi (fun ⟨hc, hro, hh⟩ => ⟨hc.keeps hk, hk.route.trans hro, by rw [hk.config, hk.declared]; exact hh⟩)
            (h.answers p hp caller key f hro hph) }

theorem Inv.redeem (h : Inv hmac digest s) (hi : s.requests[i]? = some r) (hphase : r.phase = .arrived) {d : String} (hroute : r.route = .ticket d) :
    Inv hmac digest (s.redeemAdmitted i r d id storageKey) := by
  have hr := List.mem_of_getElem? hi
  have hnone : r.file = none := by
    have hp := h.phase r hr
    rw [hphase] at hp
    exact hp.1
  unfold State.redeemAdmitted
  cases hclaim : claimUse s.clock d s.tickets with
  | none => exact h.go hi hnone fun _ _ _ _ he => by cases he
  | some ticket =>
    dsimp only
    have htick := List.mem_of_find?_eq_some hclaim
    have hfound := List.find?_some hclaim
    obtain ⟨hd, -, -, hzero⟩ := of_decide_eq_true hfound
    cases hadmit : admitTicket r.config r.declared.sizeBytes ticket with
    | error e =>
      refine h.go hi ?_ fun _ _ _ hr _ => by rw [hroute] at hr; cases hr
      cases e <;> first | exact hnone | trivial
    | ok admitted =>
      obtain ⟨limit, allowed⟩ := admitted
      dsimp only
      cases hins : insertFile s.files (newRow s.clock r.config id storageKey ticket.issuedBy r.declared ticket.organizationId none false) with
      | error e => exact h.error hi
      | ok files =>
        have hunbound : ticket.fileId = none := by
          rcases h.used ticket htick with hu | ⟨hone, -⟩
          · exact hu.2
          · rw [hzero] at hone
            cases hone
        refine h.create hi hnone hins rfl rfl ?_ ?_ ?_ ?_ ?_
        · unfold Made
          rw [hroute]
          rfl
        · have hsame : (bindCreatedFile d id s.tickets).map Ticket.tokenDigest = s.tickets.map Ticket.tokenDigest := by
            rw [bindCreatedFile, List.map_map]
            refine List.map_congr_left fun t _ => ?_
            rw [Function.comp_apply]
            split <;> rfl
          rw [hsame]
          exact h.digests
        · intro d' hd'
          rw [hroute, Route.ticket.injEq] at hd'
          refine ⟨_, List.mem_map_of_mem htick, ?_⟩
          rw [if_pos hd]
          exact ⟨hd.trans hd', rfl⟩
        · intro p hp id' d' hc hro
          obtain ⟨t, ht, htd, htid⟩ := h.bound p hp id' d' hc hro
          have hne : t.tokenDigest ≠ d := fun he => by
            rw [eq_of_key h.digests ht htick (he.trans hd.symm), hunbound] at htid
            cases htid
          refine ⟨_, List.mem_map_of_mem ht, ?_⟩
          rw [if_neg hne]
          exact ⟨htd, htid⟩
        · intro t' ht'
          obtain ⟨t, ht, rfl⟩ := List.mem_map.mp ht'
          split
          · rename_i he
            rw [eq_of_key h.digests ht htick (he.trans hd.symm)]
            exact .inr ⟨by rw [hzero], rfl, by rw [hroute, hd]⟩
          · exact .inl ht

variable {key : String}

theorem Inv.serviceUpload (h : Inv hmac digest s) (hi : s.requests[i]? = some r) (hphase : r.phase = .arrived)
    (hroute : r.route = .service caller key) : Inv hmac digest (s.serviceUploadAdmitted hmac i r caller key id storageKey) := by
  have hr := List.mem_of_getElem? hi
  have hnone : r.file = none := by
    have hp := h.phase r hr
    rw [hphase] at hp
    exact hp.1
  unfold State.serviceUploadAdmitted
  split
  · exact h
  · dsimp only
    split
    · exact h.go hi hnone fun _ _ _ _ he => by cases he
    · exact h.error hi
    · rename_i hins
      refine h.create hi hnone hins rfl rfl ?_ h.digests ?_ h.bound fun t ht => .inl ht
      · unfold Made
        rw [hroute]
        exact ⟨rfl, rfl, rfl⟩
      · intro d hd
        rw [hroute] at hd
        cases hd

/-! ## Steps -/

theorem Inv.publish (h : Inv hmac digest s) (hr : r ∈ s.requests) (hfile : r.file = some row) (hv : r.Verified digest a bytes) :
    Inv hmac digest { s with store := (row.storageKey, bytes) :: s.store } := by
  obtain ⟨-, g, hg, hs⟩ := h.made r hr row hfile
  exact
    { h with
      store := fun f hf b hb => by
        change ((row.storageKey, bytes) :: s.store).lookup f.storageKey = some b at hb
        rw [List.lookup_cons] at hb
        by_cases hk : f.storageKey = row.storageKey
        · rw [hk, beq_self_eq_true, Option.some.injEq] at hb
          have hfg : f = g := eq_of_key h.keys hf hg (hk.trans hs.storageKey.symm)
          exact ⟨r, hr, ⟨row, hfile, by rw [hfg, hs.id]⟩, a, hb ▸ hv⟩
        · rw [beq_false_of_ne hk] at hb
          exact h.store f hf b hb
      owned := fun o ho => by
        rcases List.mem_cons.mp ho with rfl | ho
        · exact ⟨g, hg, hs.storageKey⟩
        · exact h.owned o ho }

theorem Inv.receive (h : Inv hmac digest s) (hi : s.requests[i]? = some r) (hfile : r.file = some row) (hbody : r.body = none) (limit : Nat)
    (allowed : List FileMediaType) (attach : Bool) (chunks : List Bytes) (fault : Option StorageCode) :
    Inv hmac digest (s.receive digest agrees i r row limit allowed attach chunks fault) := by
  unfold State.receive
  dsimp only
  generalize r.input agrees limit allowed (if (s.store.lookup row.storageKey).isSome then some .alreadyExists else fault) = input
  have hkeeps : ∀ phase, r.Keeps { r with
      body := some (input, chunks)
      phase } := fun _ => ⟨rfl, rfl, rfl, fun _ h => h, fun b hb => (by rw [hbody] at hb; cases hb)⟩
  have hsome : ∀ {o : Option FileRow}, o = some row → o = none → False := fun h h' => by
    rw [h] at h'
    cases h'
  cases hok : ingest digest input chunks with
  | error refusal =>
    refine h.set hi (hkeeps _) rfl ⟨?_, ?_⟩ (fun hn => (hsome hfile hn).elim) fun _ _ _ _ he => by cases he
    · cases refusal <;> first | exact .inl rfl | exact .inr rfl
    · cases refusal <;> exact ⟨_, _, rfl⟩
  | ok accepted =>
    have hv : ({ r with
        body := some (input, chunks)
        phase := .stored accepted attach } : Request).Verified digest accepted (published digest input chunks) := ⟨input, chunks, rfl, hok, rfl⟩
    have hset := h.set hi (hkeeps (.stored accepted attach)) rfl ⟨_, hv⟩ (fun hn => (hsome hfile hn).elim) fun _ _ _ _ he => by cases he
    refine Inv.publish (r := { r with
        body := some (input, chunks)
        phase := .stored accepted attach }) hset (List.mem_iff_getElem?.mpr ⟨i, ?_⟩) hfile hv
    rw [State.put, get_set hi, if_pos rfl]

theorem find_live (h : findLiveByIdempotencyKey rows caller key = some f) :
    f ∈ rows ∧ f.ownerService = caller ∧ f.idempotencyKey = some key ∧ f.live = true := by
  unfold findLiveByIdempotencyKey at h
  have hfound := List.find?_some h
  exact ⟨List.mem_of_find?_eq_some h, of_decide_eq_true hfound⟩

theorem Inv.keyed (h : Inv hmac digest s) (hf : f ∈ s.files) (howner : f.ownerService = caller) (hkey : f.idempotencyKey = some key) :
    ∃ q ∈ s.requests, q.Creates f.id ∧ q.route = .service caller key ∧
      f.requestHash = some (uploadRequestHash hmac q.config.requestHashKey q.declared) := by
  obtain ⟨q, hq, row, hrow, hs⟩ := h.maker f hf
  have hm := (h.made q hq row hrow).1
  unfold Made at hm
  refine ⟨q, hq, ⟨row, hrow, hs.id.symm⟩, ?_⟩
  split at hm
  · rw [hs.idempotencyKey, hm] at hkey
    cases hkey
  · rename_i hroute
    obtain ⟨ho, hk, hh⟩ := hm
    rw [hs.ownerService, ho] at howner
    rw [hs.idempotencyKey, hk, Option.some.injEq] at hkey
    exact ⟨by rw [hroute, howner, hkey], hs.requestHash.trans hh⟩

theorem replay_existing {config : Config} {declared : Declared}
    (h : idempotentReplay hmac rows config declared caller key = .existing f) :
    findLiveByIdempotencyKey rows caller key = some f ∧ ∃ k, f.requestHash = some (uploadRequestHash hmac k declared) := by
  unfold idempotentReplay at h
  split at h
  · cases h
  · rename_i existing hfind
    split at h
    · cases h
    · rename_i hany
      split at h
      · cases h
      · cases h
        obtain ⟨k, -, hk⟩ := List.any_eq_true.mp (not_not.mp hany)
        exact ⟨hfind, k, of_decide_eq_true hk⟩

theorem Inv.replay (h : Inv hmac digest s) (hi : s.requests[i]? = some r) (hfile : r.file = none) (hroute : r.route = .service caller key) :
    Inv hmac digest (s.answer i r (idempotentReplay hmac s.files r.config r.declared caller key)) := by
  refine h.go hi ?_ fun _ _ f _ he => ?_
  · cases idempotentReplay hmac s.files r.config r.declared caller key <;> first | exact hfile | trivial
  · rw [Phase.answered.injEq] at he
    obtain ⟨hfind, k, hk⟩ := replay_existing he
    obtain ⟨hf, howner, hkey, -⟩ := find_live hfind
    obtain ⟨q, hq, hc, hqroute, hhash⟩ := h.keyed hf howner hkey
    exact ⟨q, hq, hc, hqroute.trans hroute.symm, k, Option.some.inj (hhash.symm.trans hk)⟩

theorem moves_status (hlive : (status ≠ .failed ∧ status ≠ .rejected) → f.live = true) (hcomplete : Complete status → Complete f.status)
    (code : Option String) : Moves f { f with
      status
      failureCode := code } where
  same := ⟨rfl, rfl, rfl, rfl, rfl⟩
  live h := hlive (of_decide_eq_true h)
  content := rfl
  complete := hcomplete

theorem not_complete (h : status = .rejected ∨ status = .failed) : ¬ Complete status := by
  rcases h with rfl | rfl <;> simp [Complete]

theorem Inv.refuse (h : Inv hmac digest s) (hs : status = .rejected ∨ status = .failed) (failureCode : String) :
    Inv hmac digest { s with files := refuseUpload id status failureCode s.files } :=
  h.updateRow fun _ _ => moves_status (fun ⟨hf, hr⟩ => (hs.elim hr hf).elim) (fun hc => (not_complete hs hc).elim) _

theorem Inv.serve (h : Inv hmac digest s) (hi : s.requests[i]? = some r) (act : Action) : Inv hmac digest (serve hmac digest agrees s i r act) := by
  have hr := List.mem_of_getElem? hi
  have hph := h.phase r hr
  cases act with
  | create _ id storageKey =>
    unfold FileUpload.serve
    dsimp only
    split
    · rename_i hp hroute
      exact h.redeem hi hp hroute
    · rename_i hp hroute
      exact h.serviceUpload hi hp hroute
    · exact h
  | lookup _ =>
    unfold FileUpload.serve
    dsimp only
    split
    · rename_i hp hroute
      rw [hp] at hph
      exact h.replay hi hph hroute
    · rename_i hp hroute
      rw [hp] at hph
      split
      · exact h.error hi
      · exact h.go hi hph fun _ _ _ _ he => by cases he
    · rename_i used _ hp hroute
      rw [hp] at hph
      refine h.go hi ?_ fun _ _ _ hr _ => by rw [hroute] at hr; cases hr
      cases redemptionRetry s.files used <;> first | exact hph | trivial
    · exact h
  | receive _ chunks fault =>
    unfold FileUpload.serve
    dsimp only
    split
    · rename_i hp hfile
      rw [hp] at hph
      exact h.receive hi hfile hph.2 _ _ _ _ _
    · exact h
  | abort _ idle =>
    unfold FileUpload.serve
    dsimp only
    split
    · refine h.go hi ?_ fun _ _ _ _ he => ?_
      · split <;> exact ⟨.inr rfl, _, _, rfl⟩
      · split at he <;> cases he
    · exact h
  | complete _ =>
    unfold FileUpload.serve
    dsimp only
    split
    · rename_i accepted attach row hp hfile
      rw [hp] at hph
      split
      · exact h.go hi trivial fun _ _ _ _ he => by cases he
      · split
        · exact h.go hi trivial fun _ _ _ _ he => by cases he
        · have hdone := h.completeUpload hr ⟨row, hfile, rfl⟩ hph attach
          exact hdone.go hi trivial fun _ _ _ _ he => by cases he
    · exact h
  | completeLost _ committed =>
    unfold FileUpload.serve
    dsimp only
    split
    · rename_i accepted attach row hp hfile
      rw [hp] at hph
      cases committed with
      | false => exact h.go hi trivial fun _ _ _ _ he => by cases he
      | true =>
        have hdone := h.completeUpload hr ⟨row, hfile, rfl⟩ hph attach
        exact hdone.go hi trivial fun _ _ _ _ he => by cases he
    · exact h
  | forget _ removed =>
    unfold FileUpload.serve
    dsimp only
    split
    · rename_i row hp hfile
      cases removed with
      | false => exact h.go hi ⟨.inr rfl, _, _, rfl⟩ fun _ _ _ _ he => by cases he
      | true => exact (h.remove row.storageKey).go hi ⟨.inr rfl, _, _, rfl⟩ fun _ _ _ _ he => by cases he
    · exact h
  | refuse _ written =>
    unfold FileUpload.serve
    dsimp only
    split
    · rename_i status failureCode answer row hp hfile
      rw [hp] at hph
      obtain ⟨hs, code, text, rfl⟩ := hph
      cases written with
      | false => exact h.error hi
      | true => exact (h.refuse hs failureCode).error hi
    · exact h
  | fail _ =>
    unfold FileUpload.serve
    dsimp only
    split
    · exact h.error hi
    · exact h.error hi
    · exact h.error hi
    · exact h.error hi
    · exact h
  | crash _ =>
    unfold FileUpload.serve
    dsimp only
    split
    · exact h
    · exact h.go hi trivial fun _ _ _ _ he => by cases he
  | _ => exact h

theorem Inv.step (h : Inv hmac digest s) (act : Action) : Inv hmac digest (step hmac digest agrees s act) := by
  unfold FileUpload.step
  split
  · exact { h with }
  · -- issueUploadTicket
    rename_i t
    split
    · exact h
    · rename_i hany
      refine h.issue (fun u hu he => hany (List.any_eq_true.mpr ⟨u, hu, decide_eq_true he⟩)) ⟨rfl, rfl⟩
  · exact h.tickets fun t => by split <;> exact ⟨rfl, rfl, rfl⟩
  · -- arrive
    rename_i route declared attach config
    refine h.arrive rfl rfl ?_ fun f => ?_
    · dsimp only
      split
      · rename_i hnone
        exact ⟨rfl, hnone⟩
      · rename_i a _
        cases a <;> trivial
    · dsimp only
      split
      · simp
      · rename_i a ha
        intro he
        rw [Phase.answered.injEq] at he
        rw [he] at ha
        unfold admission at ha
        repeat' split at ha
        all_goals cases ha
  · exact h.updateRow fun f _ => ⟨⟨rfl, rfl, rfl, rfl, rfl⟩, fun h => h, rfl, fun h => h⟩
  · exact { h with }
  · split
    · exact h
    · exact h.remove _
  · -- failAbandoned
    split
    · exact h
    · exact h.updateRow fun f _ => moves_status (fun ⟨hf, _⟩ => (hf rfl).elim) (fun hc => (not_complete (.inr rfl) hc).elim) _
  · -- requestDeletion
    rename_i id
    have hrows : Inv hmac digest { s with files := requestDeletion id s.files } := h.updateRow fun f hf => by
      have hs : f.status = .available := of_decide_eq_true hf
      exact moves_status (fun _ => by simp [FileRow.live, hs]) (fun _ => .inl hs) f.failureCode
    split
    · exact hrows.tickets fun t => by split <;> exact ⟨rfl, rfl, rfl⟩
    · exact hrows
  · split
    · exact h
    · exact h.remove _
  · -- completeDeletion
    exact h.updateRow fun f hf => by
      have hs : f.status = .deleting := of_decide_eq_true hf
      exact moves_status (fun _ => by simp [FileRow.live, hs]) (fun _ => .inr (.inl hs)) f.failureCode
  · split
    · exact h
    · rename_i hget
      obtain ⟨n, -, hn⟩ := Option.bind_eq_some_iff.mp hget
      obtain ⟨r, hr, he⟩ := Option.map_eq_some_iff.mp hn
      cases he
      exact h.serve hr _

theorem Inv.run (h : Inv hmac digest s) (actions : List Action) : Inv hmac digest (actions.foldl (FileUpload.step hmac digest agrees) s) := by
  induction actions generalizing s with
  | nil => exact h
  | cons act actions ih => exact ih (h.step act)

/-! ## Equal declarations -/

theorem orNull_injective {x y : Option (List Nat)} (h : orNull x = orNull y) : x = y := by
  cases x <;> cases y <;> simp_all [orNull]

theorem codes_map_injective {x y : Option String} (h : x.map codes = y.map codes) : x = y := Option.map_injective (fun _ _ => codes_injective) h

theorem Declared.keys (d : Declared) : (d.members.map Prod.fst).Nodup := by
  show ["organizationId", "fileName", "declaredType", "sizeBytes", "sha256"].map codes |>.Nodup
  decide

theorem Declared.readable (d : Declared) : Json.Readable Json.integers (.obj d.members) := by
  have hnull : ∀ x : Option (List Nat), Json.Readable Json.integers (orNull x) := fun x => by cases x <;> trivial
  refine ⟨d.keys, Json.readableMembers_iff.mpr fun m hm => ?_⟩
  simp only [Declared.members, List.mem_cons, List.not_mem_nil, or_false] at hm
  rcases hm with rfl | rfl | rfl | rfl | rfl
  · exact hnull _
  · exact hnull _
  · exact hnull _
  · exact ⟨⟨_, rfl⟩, rfl⟩
  · exact hnull _

theorem Declared.sorted (d : Declared) : (Json.obj d.members).sortKeys = .obj (byKey d.members) := by
  have hnull : ∀ x : Option (List Nat), (orNull x).sortKeys = orNull x := fun x => by cases x <;> rfl
  rw [Json.sortKeys_obj]
  simp only [Declared.members, List.map_cons, List.map_nil, hnull]
  rfl

variable {d d' : Declared}

theorem Declared.canonical_injective (h : (Json.canonicalJson (.obj d.members)).getD [] = (Json.canonicalJson (.obj d'.members)).getD []) :
    d = d' := by
  rw [Json.canonicalJson_readable d.readable, Json.canonicalJson_readable d'.readable] at h
  have hsort := Json.Readable.stringify_injective d.readable.sortKeys d'.readable.sortKeys h
  rw [d.sorted, d'.sorted, Json.obj.injEq] at hsort
  have hlook := (byKey_eq_iff d.keys d'.keys).mp hsort
  have hmember : ∀ {k : List Nat} {v v' : Json}, (k, v) ∈ d.members → (k, v') ∈ d'.members → v = v' := fun hv hv' =>
    Option.some.inj (((lookup_some_iff d.keys).mpr hv).symm.trans ((hlook _).trans ((lookup_some_iff d'.keys).mpr hv')))
  have horganization := hmember (List.mem_cons_self) (List.mem_cons_self)
  have hname := hmember (.tail _ (List.mem_cons_self)) (.tail _ (List.mem_cons_self))
  have htype := hmember (.tail _ (.tail _ List.mem_cons_self)) (.tail _ (.tail _ List.mem_cons_self))
  have hsize := hmember (.tail _ (.tail _ (.tail _ List.mem_cons_self))) (.tail _ (.tail _ (.tail _ List.mem_cons_self)))
  have hsha := hmember (.tail _ (.tail _ (.tail _ (.tail _ List.mem_cons_self)))) (.tail _ (.tail _ (.tail _ (.tail _ List.mem_cons_self))))
  rw [Json.num.injEq, JsNumber.int.injEq, Int.natCast_inj] at hsize
  cases d
  cases d'
  simp only [Declared.mk.injEq]
  exact ⟨codes_map_injective (orNull_injective horganization), orNull_injective hname, codes_map_injective (orNull_injective htype), hsize,
    codes_map_injective (orNull_injective hsha)⟩

theorem uploadRequestHash_injective (hcollision : ∀ k t k' t', hmac k t = hmac k' t' → t = t') {k k' : String}
    (h : uploadRequestHash hmac k d = uploadRequestHash hmac k' d') : d = d' :=
  Declared.canonical_injective (List.append_cancel_left (hcollision _ _ _ _ h))

/-! ## What a run keeps -/

/-- A ticket creates at most one file, which it records, and stays unused without one. -/
structure TicketOnce (s : State) (t : Ticket) : Prop where
  one : ∀ (i j : Nat) r q, s.requests[i]? = some r → s.requests[j]? = some q → r.route = .ticket t.tokenDigest → q.route = .ticket t.tokenDigest →
    ∀ id id', r.Creates id → q.Creates id' → i = j ∧ id = id'
  recorded : ∀ r ∈ s.requests, r.route = .ticket t.tokenDigest → ∀ id, r.Creates id → t.fileId = some id
  unused : (∀ r ∈ s.requests, r.route = .ticket t.tokenDigest → ∀ id, ¬ r.Creates id) → t.useCount = 0 ∧ t.fileId = none

theorem Inv.ticketOnce (h : Inv hmac digest s) (ht : t ∈ s.tickets) : TicketOnce s t := by
  have hrecorded : ∀ r ∈ s.requests, r.route = .ticket t.tokenDigest → ∀ id, r.Creates id → t.fileId = some id := fun r hr hroute id hc => by
    obtain ⟨u, hu, hd, hid⟩ := h.bound r hr id _ hc hroute
    rw [eq_of_key h.digests ht hu hd.symm]
    exact hid
  refine ⟨fun i j r q hi hj hr hq id id' hc hc' => ?_, hrecorded, fun hnone => ?_⟩
  · have hid := hrecorded r (List.mem_of_getElem? hi) hr id hc
    have hid' := hrecorded q (List.mem_of_getElem? hj) hq id' hc'
    have he : id = id' := Option.some.inj (hid.symm.trans hid')
    exact ⟨h.once i j r q hi hj id hc (he ▸ hc'), he⟩
  · rcases h.used t ht with hu | ⟨-, id, -, r, hr, hroute, hc⟩
    · exact hu
    · exact absurd hc (hnone r hr hroute id)

section
variable (hmac digest agrees)

/-- What a repeat of a keyed upload does; `i` is the request's place. -/
structure Repeats (s : State) (i : Nat) (r : Request) (caller key : String) : Prop where
  equal : ∀ f, r.phase = .answered (.existing f) → ∃ q ∈ s.requests, q.Creates f.id ∧ q.route = r.route ∧ q.declared = r.declared
  insert : ∀ f ∈ s.files, Keyed f → f.key = (caller, some key) → r.phase = .arrived → ∀ id storageKey, ∃ phase ∈ [.replaying, .answered internalError],
    step hmac digest agrees s (.create i id storageKey) = s.go i r phase
  /-- The answer is decided by the declaration, where the key of the row's hash is still configured. -/
  decided : ∀ f ∈ s.files, Keyed f → f.key = (caller, some key) → r.phase = .replaying → ∀ q ∈ s.requests, q.Creates f.id →
    q.config.requestHashKey ∈ r.config.requestHashKeys → step hmac digest agrees s (.lookup i) = s.answer i r
      (if q.declared ≠ r.declared then idempotencyKeyReused else if f.status = .uploading then uploadInProgress else .existing f)

/-- The row records what its creator's body was verified to be, and no other bytes are stored for it. -/
def Authentic (s : State) (f : FileRow) : Prop := ∃ r ∈ s.requests, r.Creates f.id ∧ ∃ a bytes, f.content = some a ∧ r.Verified digest a bytes ∧
  a.sizeBytes = bytes.length ∧ a.sha256 = digest bytes ∧ detectMediaType (bytes.take DETECTION_WINDOW_BYTES) = some a.mediaType ∧
  ∀ stored, s.store.lookup f.storageKey = some stored → stored = bytes

end

theorem step_request {act : Action} (hact : act.request = some i) (hi : s.requests[i]? = some r)
    (hstep : step hmac digest agrees s act = match act.request.bind fun i => (s.requests[i]?).map fun r => (i, r) with
      | none => s
      | some (i, r) => serve hmac digest agrees s i r act) : step hmac digest agrees s act = serve hmac digest agrees s i r act := by
  rw [hstep, hact, Option.bind_some, hi]
  rfl

theorem Inv.insert (h : Inv hmac digest s) (hi : s.requests[i]? = some r) (hroute : r.route = .service caller key) (hf : f ∈ s.files)
    (hlive : Keyed f) (hkey : f.key = (caller, some key)) (hphase : r.phase = .arrived) (id storageKey : String) :
    ∃ phase ∈ [.replaying, .answered internalError], FileUpload.step hmac digest agrees s (.create i id storageKey) = s.go i r phase := by
  have hadmitted := h.phase r (List.mem_of_getElem? hi)
  rw [hphase] at hadmitted
  obtain ⟨-, hadmit⟩ := hadmitted
  obtain ⟨howner, hidem⟩ := Prod.mk.inj hkey
  rw [step_request rfl hi rfl]
  unfold FileUpload.serve
  dsimp only
  rw [hphase, hroute]
  dsimp only
  unfold State.serviceUploadAdmitted
  cases hpolicy : r.config.callerPolicy.lookup caller with
  | none =>
    rw [hroute, admission, hpolicy] at hadmit
    cases hadmit
  | some policy =>
    dsimp only
    generalize hrow : newRow s.clock r.config id storageKey caller r.declared r.declared.organizationId
      (some (key, uploadRequestHash hmac r.config.requestHashKey r.declared)) r.attach = row
    cases hins : insertFile s.files row with
    | error e =>
      cases e with
      | idempotencyKeyInUse => exact ⟨.replaying, List.mem_cons_self, rfl⟩
      | other => exact ⟨.answered internalError, .tail _ List.mem_cons_self, rfl⟩
    | ok files =>
      have hne := insertFile_keyed hins f hf hlive (by rw [← hrow]; exact ⟨by rfl, rfl⟩)
      refine absurd ?_ hne
      rw [hkey, ← hrow]
      rfl

theorem Inv.found (h : Inv hmac digest s) (hf : f ∈ s.files) (hlive : Keyed f) (hkey : f.key = (caller, some key)) :
    findLiveByIdempotencyKey s.files caller key = some f := by
  obtain ⟨howner, hidem⟩ := Prod.mk.inj hkey
  cases hfind : findLiveByIdempotencyKey s.files caller key with
  | none =>
    have hno := List.find?_eq_none.mp hfind f hf
    exact absurd (decide_eq_true ⟨howner, hidem, hlive.1⟩) hno
  | some g =>
    obtain ⟨hg, hgowner, hgkey, hglive⟩ := find_live hfind
    rw [h.live g hg f hf ⟨hglive, by rw [hgkey]; rfl⟩ hlive (by rw [hkey, FileRow.key, hgowner, hgkey])]

theorem Inv.decided (h : Inv hmac digest s) (hcollision : ∀ k t k' t', hmac k t = hmac k' t' → t = t') (hi : s.requests[i]? = some r) {caller key : String}
    (hroute : r.route = .service caller key) (hf : f ∈ s.files) (hlive : Keyed f) (hkey : f.key = (caller, some key)) (hphase : r.phase = .replaying)
    (hq : q ∈ s.requests) (hc : q.Creates f.id) (hkept : q.config.requestHashKey ∈ r.config.requestHashKeys) :
    FileUpload.step hmac digest agrees s (.lookup i) = s.answer i r
      (if q.declared ≠ r.declared then idempotencyKeyReused else if f.status = .uploading then uploadInProgress else .existing f) := by
  obtain ⟨howner, hidem⟩ := Prod.mk.inj hkey
  obtain ⟨q', hq', hc', -, hhash⟩ := h.keyed hf howner hidem
  obtain ⟨m, hm⟩ := List.mem_iff_getElem?.mp hq
  obtain ⟨n, hn⟩ := List.mem_iff_getElem?.mp hq'
  have hmn := h.once m n q q' hm hn f.id hc hc'
  rw [hmn, hn, Option.some.injEq] at hm
  subst hm
  rw [step_request rfl hi rfl]
  unfold FileUpload.serve
  dsimp only
  rw [hphase, hroute]
  dsimp only
  unfold idempotentReplay
  rw [h.found hf hlive hkey]
  dsimp only
  by_cases he : q'.declared = r.declared
  · have hany : (r.config.requestHashKeys.any fun k => sameHash f.requestHash (uploadRequestHash hmac k r.declared)) = true :=
      List.any_eq_true.mpr ⟨_, hkept, decide_eq_true (by rw [hhash, he])⟩
    rw [if_neg (not_not.mpr hany), if_neg (not_not.mpr he)]
  · have hany : ¬ (r.config.requestHashKeys.any fun k => sameHash f.requestHash (uploadRequestHash hmac k r.declared)) = true := fun hany => by
      obtain ⟨k, -, hk⟩ := List.any_eq_true.mp hany
      have hsame : f.requestHash = some (uploadRequestHash hmac k r.declared) := of_decide_eq_true hk
      rw [hhash, Option.some.injEq] at hsame
      exact he (uploadRequestHash_injective hcollision hsame)
    rw [if_pos hany, if_pos he]

theorem Inv.repeats (h : Inv hmac digest s) (hcollision : ∀ k t k' t', hmac k t = hmac k' t' → t = t') (hi : s.requests[i]? = some r)
    (hroute : r.route = .service caller key) : Repeats hmac digest agrees s i r caller key where
  equal f hph := by
    obtain ⟨q, hq, hc, hqr, k, hk⟩ := h.answers r (List.mem_of_getElem? hi) caller key f hroute hph
    exact ⟨q, hq, hc, hqr, uploadRequestHash_injective hcollision hk⟩
  insert _ hf hlive hkey hphase id storageKey := h.insert hi hroute hf hlive hkey hphase id storageKey
  decided _ hf hlive hkey hphase _ hq hc hkept := h.decided hcollision hi hroute hf hlive hkey hphase hq hc hkept

theorem Request.Verified.describes (h : r.Verified digest a bytes) :
    a.sizeBytes = bytes.length ∧ a.sha256 = digest bytes ∧ detectMediaType (bytes.take DETECTION_WINDOW_BYTES) = some a.mediaType := by
  obtain ⟨input, chunks, -, hok, hpub⟩ := h
  have hrec := (@ingest_records input digest) chunks
  rw [hok] at hrec
  unfold IngestInput.records at hrec
  split at hrec
  · rename_i hstores
    have hbytes : bytes = chunks.flatten := by
      rw [← hpub, published, meter_within (by rw [Nat.zero_add]; exact hstores.2.1), stream_matches hstores.1]
    obtain ⟨t, ht, hrec⟩ := Option.bind_eq_some_iff.mp hrec.symm
    split at hrec
    · rw [Option.some.injEq] at hrec
      rw [hbytes, ← hrec]
      exact ⟨rfl, rfl, ht⟩
    · cases hrec
  · cases hrec

theorem Inv.authentic (h : Inv hmac digest s) (hf : f ∈ s.files) (hc : Complete f.status) : Authentic digest s f := by
  obtain ⟨a, ha⟩ := Option.isSome_iff_exists.mp (h.complete f hf hc)
  obtain ⟨r, hr, hcreates, bytes, hv⟩ := h.content f hf a ha
  obtain ⟨hsize, hsha, htype⟩ := hv.describes
  refine ⟨r, hr, hcreates, a, bytes, ha, hv, hsize, hsha, htype, fun stored hstored => ?_⟩
  obtain ⟨q, hq, hcreates', b, hv'⟩ := h.store f hf stored hstored
  obtain ⟨m, hm⟩ := List.mem_iff_getElem?.mp hr
  obtain ⟨n, hn⟩ := List.mem_iff_getElem?.mp hq
  have hmn := h.once m n r q hm hn f.id hcreates hcreates'
  rw [hmn, hn, Option.some.injEq] at hm
  subst hm
  exact (hv'.unique hv).2

/-! ## The law -/

theorem Inv.unread_answer (h : Inv hmac digest s) (hr : r ∈ s.requests) (hph : r.phase = .answered (.existing f)) : r.file = none ∧ r.body = none := by
  have hp := h.phase r hr
  rw [hph] at hp
  exact ⟨hp, h.unread r hr hp⟩

end

/-- **Uploads.** In every state of every run: a ticket creates at most one file, which it records, and stays unused without one; one row
of a key is live; a repeat of a keyed upload is decided by its declaration and reads no bytes; and a complete row is authentic. -/
theorem upload_law (hmac : String → List Nat → String) (digest : Bytes → String) (agrees : Declared → FileMediaType → Bool)
    (hcollision : ∀ k t k' t', hmac k t = hmac k' t' → t = t') (actions : List Action) (s : State)
    (hs : s = actions.foldl (step hmac digest agrees) .empty) :
    (∀ t ∈ s.tickets, TicketOnce s t) ∧ UniqueOn Keyed FileRow.key s.files ∧
      (∀ r ∈ s.requests, ∀ f, r.phase = .answered (.existing f) → r.file = none ∧ r.body = none) ∧
      (∀ i r caller key, s.requests[i]? = some r → r.route = .service caller key → Repeats hmac digest agrees s i r caller key) ∧
      ∀ f ∈ s.files, Complete f.status → Authentic digest s f := by
  have h : Inv hmac digest s := hs ▸ Inv.empty.run actions
  exact ⟨fun t ht => h.ticketOnce ht, h.live, fun r hr f hph => h.unread_answer hr hph, fun i r caller key hi hroute => h.repeats hcollision hi hroute,
    fun f hf hc => h.authentic hf hc⟩

def sampleDeclared : Declared := ⟨none, none, some "application/pdf", 5, none⟩

def sampleConfig : Config := ⟨100, [("svc", ⟨true, true, .none, [.pdf], some 100⟩)], 120, 86400, 600, "new", ["old"]⟩

def sampleActions : List Action :=
  [.arrive (.service "svc" "key") sampleDeclared false { sampleConfig with
      requestHashKey := "old"
      requestHashPreviousKeys := [] }, .create 0 "f" "prefix/f/1",
    .arrive (.service "svc" "key") sampleDeclared false sampleConfig, .create 1 "g" "prefix/g/1", .lookup 1]

theorem repeat_in_progress :
    (sampleActions.foldl (step (fun k _ => k) (fun _ => "") fun _ _ => true) .empty).files.map (fun f => (f.id, f.live)) = [("f", true)] ∧
      (sampleActions.foldl (step (fun k _ => k) (fun _ => "") fun _ _ => true) .empty).requests.map (fun r => (r.route, r.declared, r.phase)) =
        [(.service "svc" "key", sampleDeclared, .receiving 100 [.pdf] false),
          (.service "svc" "key", sampleDeclared, .answered (.error 409 "upload_in_progress"))] := by
  constructor <;> decide +kernel

def pairText (key : String) (text : List Nat) : String := Nat.repr (Encodable.encode (codes key, text))

theorem pairText_injective (k : String) (t : List Nat) (k' : String) (t' : List Nat) (h : pairText k t = pairText k' t') : t = t' :=
  (Prod.mk.inj (Encodable.encode_injective (Json.digits_injective (congrArg codes h)))).2

def sampleRun : State := sampleActions.foldl (step pairText (fun _ => "") fun _ _ => true) .empty

theorem upload_law_sample : (∀ t ∈ sampleRun.tickets, TicketOnce sampleRun t) ∧ UniqueOn Keyed FileRow.key sampleRun.files ∧
    (∀ r ∈ sampleRun.requests, ∀ f, r.phase = .answered (.existing f) → r.file = none ∧ r.body = none) ∧
    (∀ i r caller key, sampleRun.requests[i]? = some r → r.route = .service caller key →
      Repeats pairText (fun _ => "") (fun _ _ => true) sampleRun i r caller key) ∧
    ∀ f ∈ sampleRun.files, Complete f.status → Authentic (fun _ => "") sampleRun f :=
  upload_law pairText (fun _ => "") (fun _ _ => true) pairText_injective sampleActions sampleRun rfl

end NawaraCore.FileUpload
