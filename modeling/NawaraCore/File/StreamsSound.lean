import NawaraCore.File.Streams

/-!
# What verified streams emit

A stream that is not accepted emits less than its size, unless an empty chunk comes after the last
byte. What an upload records depends on its bytes only.
-/

namespace NawaraCore.FileStreams

variable {chunks : List Bytes}

section
variable {ε : Type} {digest : Bytes → String} {v : Verifier ε}

theorem feed_append (s : VerifierState) (as bs : List Bytes) : feed v s (as ++ bs) = match feed v s as with
    | (sent, .error e) => (sent, .error e)
    | (sent, .ok s') => (sent ++ (feed v s' bs).1, (feed v s' bs).2) := by
  induction as generalizing s with
  | nil => rfl
  | cons a as ih =>
    rw [List.cons_append, feed, feed]
    cases transform v s a with
    | error e => rfl
    | ok p =>
      dsimp only
      rw [ih]
      split
      · rename_i sent e h
        rw [h]
      · rename_i sent s' h
        rw [h]
        dsimp only
        rw [List.append_assoc]

theorem feed_within (h : chunks.flatten.length ≤ v.size) :
    feed v .empty chunks = (chunks.dropLast.flatten, .ok ⟨chunks.flatten.length, chunks.getLast?, chunks.flatten⟩) := by
  induction chunks using List.reverseRecOn with
  | nil => rfl
  | append_singleton cs c ih =>
    rw [List.flatten_append, List.length_append, List.flatten_singleton] at h
    have hc : ¬ v.size < cs.flatten.length + c.length := Nat.not_lt.mpr h
    rw [feed_append, ih (by omega)]
    dsimp only
    rw [feed, transform, if_neg hc]
    dsimp only [feed]
    have hsent : cs.dropLast.flatten ++ (cs.getLast?.getD [] ++ []) = cs.flatten := by
      rw [List.append_nil]
      cases cs using List.reverseRecOn with
      | nil => rfl
      | append_singleton ds d => simp
    rw [hsent, List.dropLast_concat, List.getLast?_concat, List.flatten_append, List.length_append, List.flatten_singleton]

theorem over_split {n : Nat} (h : n < chunks.flatten.length) :
    ∃ pre c post, chunks = pre ++ c :: post ∧ pre.flatten.length ≤ n ∧ n < pre.flatten.length + c.length := by
  induction chunks using List.reverseRecOn with
  | nil => exact absurd h (Nat.not_lt_zero _)
  | append_singleton cs c ih =>
    by_cases hcs : n < cs.flatten.length
    · obtain ⟨pre, d, post, rfl, hpre, hd⟩ := ih hcs
      exact ⟨pre, d, post ++ [c], by simp, hpre, hd⟩
    · rw [List.flatten_append, List.length_append, List.flatten_singleton] at h
      exact ⟨cs, c, [], rfl, Nat.not_lt.mp hcs, h⟩

theorem feed_over {pre post : List Bytes} {c : Bytes} (hpre : pre.flatten.length ≤ v.size) (hc : v.size < pre.flatten.length + c.length) :
    feed v .empty (pre ++ c :: post) = (pre.dropLast.flatten, .error v.lengthMismatch) := by
  rw [feed_append, feed_within hpre]
  dsimp only
  rw [feed, transform, if_pos hc]
  dsimp only
  rw [List.append_nil]

def Verifier.accepts (digest : Bytes → String) (v : Verifier ε) (bytes : Bytes) : Prop := ∀ e ∈ v.expected, digest bytes = e

def Verifier.matches (digest : Bytes → String) (v : Verifier ε) (bytes : Bytes) : Prop := bytes.length = v.size ∧ v.accepts digest bytes

theorem any_digest {bytes : Bytes} : (v.expected.any fun e => digest bytes ≠ e) = true ↔ ¬ v.accepts digest bytes := by
  unfold Verifier.accepts
  cases v.expected with
  | none => simp
  | some e => simp

theorem stream_matches (h : v.matches digest chunks.flatten) : stream digest v chunks = (chunks.flatten, none) := by
  have hflush : flush digest v ⟨chunks.flatten.length, chunks.getLast?, chunks.flatten⟩ = .ok chunks.getLast? := by
    unfold flush
    rw [if_neg (not_not_intro h.1), if_neg fun hany => any_digest.mp hany h.2]
  unfold stream
  rw [feed_within (Nat.le_of_eq h.1)]
  dsimp only
  rw [hflush]
  have hlast : chunks.dropLast.flatten ++ chunks.getLast?.getD [] = chunks.flatten := by
    cases chunks using List.reverseRecOn with
    | nil => rfl
    | append_singleton cs c => simp
  dsimp only
  rw [hlast]

theorem stream_fails (h : ¬ v.matches digest chunks.flatten) : ∃ taken rest e, chunks = taken ++ rest ∧ taken.flatten.length ≤ v.size ∧
    stream digest v chunks = (taken.dropLast.flatten, some e) ∧ ∀ c cs, rest = c :: cs → v.size < taken.flatten.length + c.length := by
  by_cases hover : v.size < chunks.flatten.length
  · obtain ⟨pre, c, post, rfl, hpre, hc⟩ := over_split hover
    refine ⟨pre, c :: post, v.lengthMismatch, rfl, hpre, ?_, ?_⟩
    · unfold stream
      rw [feed_over hpre hc]
    · intro d ds hd
      cases hd
      exact hc
  · have hflush : ∃ e, flush digest v ⟨chunks.flatten.length, chunks.getLast?, chunks.flatten⟩ = .error e := by
      unfold flush
      by_cases hsize : chunks.flatten.length = v.size
      · have hany : (v.expected.any fun e => digest chunks.flatten ≠ e) = true := any_digest.mpr fun ha => h ⟨hsize, ha⟩
        exact ⟨v.digestMismatch, by rw [if_neg (not_not_intro hsize), if_pos hany]⟩
      · exact ⟨v.lengthMismatch, if_pos hsize⟩
    obtain ⟨e, he⟩ := hflush
    refine ⟨chunks, [], e, (List.append_nil _).symm, Nat.not_lt.mp hover, ?_, nofun⟩
    unfold stream
    rw [feed_within (Nat.not_lt.mp hover)]
    dsimp only
    rw [he]

/-! ## The law of a stream -/

theorem dropLast_leads (chunks : List Bytes) : chunks.dropLast.flatten <+: chunks.flatten := by
  cases chunks using List.reverseRecOn with
  | nil => exact List.prefix_rfl
  | append_singleton cs c =>
    rw [List.dropLast_concat, List.flatten_append]
    exact List.prefix_append _ _

theorem feed_prefix (chunks : List Bytes) : (feed v .empty chunks).1 <+: chunks.flatten := by
  by_cases hover : v.size < chunks.flatten.length
  · obtain ⟨pre, c, post, rfl, hpre, hc⟩ := over_split hover
    rw [feed_over hpre hc, List.flatten_append]
    exact (dropLast_leads pre).trans (List.prefix_append _ _)
  · rw [feed_within (Nat.not_lt.mp hover)]
    exact dropLast_leads chunks

structure Verified (digest : Bytes → String) (v : Verifier ε) (chunks : List Bytes) : Prop where
  always : ∀ received rest, chunks = received ++ rest → (feed v .empty received).1 <+: received.flatten
  output : (stream digest v chunks).1 <+: chunks.flatten
  ends : (stream digest v chunks).2 = none ↔ v.matches digest chunks.flatten
  whole : (stream digest v chunks).2 = none → (stream digest v chunks).1 = chunks.flatten
  short : (stream digest v chunks).2 ≠ none → v.size ≠ 0 → (stream digest v chunks).1.length < v.size

def TrailingEmpty (v : Verifier ε) (chunks : List Bytes) : Prop := ∃ received rest, chunks = received ++ [] :: rest ∧ received.flatten.length = v.size

theorem stream_prefix (chunks : List Bytes) : (stream digest v chunks).1 <+: chunks.flatten := by
  by_cases h : v.matches digest chunks.flatten
  · rw [stream_matches h]
  · obtain ⟨taken, rest, e, rfl, -, hstream, -⟩ := stream_fails h
    rw [hstream, List.flatten_append]
    exact (dropLast_leads taken).trans (List.prefix_append _ _)

theorem stream_ends (chunks : List Bytes) : (stream digest v chunks).2 = none ↔ v.matches digest chunks.flatten := by
  constructor
  · intro hnone
    by_contra h
    obtain ⟨taken, rest, e, -, -, hstream, -⟩ := stream_fails h
    rw [hstream] at hnone
    cases hnone
  · intro h
    rw [stream_matches h]

theorem fails_short (h : ¬ v.matches digest chunks.flatten) (h0 : v.size ≠ 0) (hempty : ¬ TrailingEmpty v chunks) :
    (stream digest v chunks).1.length < v.size := by
  obtain ⟨taken, rest, e, rfl, hle, hstream, -⟩ := stream_fails h
  rw [hstream]
  cases taken using List.reverseRecOn with
  | nil => exact Nat.pos_of_ne_zero h0
  | append_singleton cs c =>
    rw [List.dropLast_concat]
    rw [List.flatten_append, List.length_append, List.flatten_singleton] at hle
    by_contra hge
    have hge : v.size ≤ cs.flatten.length := Nat.not_lt.mp hge
    have hc : c = [] := List.eq_nil_of_length_eq_zero (by omega)
    refine hempty ⟨cs, rest, ?_, by omega⟩
    rw [hc, List.append_assoc, List.singleton_append]

theorem fails_whole {chunks : List Bytes} (hempty : TrailingEmpty v chunks) : v.size ≤ (stream digest v chunks).1.length := by
  obtain ⟨received, rest, rfl, hsize⟩ := hempty
  have hwithin : (received ++ [[]]).flatten.length ≤ v.size := by
    rw [List.flatten_append, List.flatten_singleton, List.append_nil]
    exact Nat.le_of_eq hsize
  have hfeed : v.size ≤ (feed v .empty (received ++ [] :: rest)).1.length := by
    have hsplit : received ++ [] :: rest = (received ++ [[]]) ++ rest := by simp
    rw [hsplit, feed_append, feed_within hwithin]
    dsimp only
    rw [List.dropLast_concat, List.length_append]
    omega
  unfold stream
  split
  · rename_i sent e hfed
    rw [hfed] at hfeed
    exact hfeed
  · rename_i sent s hfed
    rw [hfed] at hfeed
    split
    · exact hfeed
    · rw [List.length_append]
      exact Nat.le_trans hfeed (Nat.le_add_right _ _)

/-- **A stream is verified as claimed** exactly when it is accepted, empty by its size, or no empty chunk
comes when all its bytes have come. -/
theorem verified_iff (chunks : List Bytes) : Verified digest v chunks ↔ v.matches digest chunks.flatten ∨ v.size = 0 ∨ ¬ TrailingEmpty v chunks := by
  constructor
  · intro h
    by_contra hno
    obtain ⟨hmatch, h0, hempty⟩ := not_or.mp hno |>.imp id not_or.mp
    have hshort := h.short (fun hnone => hmatch (h.ends.mp hnone)) h0
    exact absurd ((@fails_whole _ digest) (not_not.mp hempty)) (Nat.not_le.mpr hshort)
  · intro h
    refine ⟨fun received _ _ => feed_prefix received, stream_prefix chunks, stream_ends chunks, fun hnone => ?_, fun hfail h0 => ?_⟩
    · rw [stream_matches ((stream_ends chunks).mp hnone)]
    · have hmatch : ¬ v.matches digest chunks.flatten := fun hm => hfail ((stream_ends chunks).mpr hm)
      exact fails_short hmatch h0 ((h.resolve_left hmatch).resolve_left h0)

end

/-! ## Uploads -/

section
variable {input : IngestInput} {digest : Bytes → String}

theorem readHead_cases (head cs : List Bytes) :
    (∃ head' rest, readHead input head head.flatten.length cs = .ok (head', head'.flatten.length, rest) ∧ head' ++ rest = head ++ cs ∧
      (rest = [] ∨ DETECTION_WINDOW_BYTES ≤ head'.flatten.length ∨ input.declaredLength ≤ head'.flatten.length)) ∨
    readHead input head head.flatten.length cs = .error .tooLarge ∧ input.limit < (head ++ cs).flatten.length := by
  induction cs generalizing head with
  | nil => exact .inl ⟨head, [], rfl, rfl, .inl rfl⟩
  | cons c cs ih =>
    rw [readHead]
    by_cases hmore : head.flatten.length < DETECTION_WINDOW_BYTES ∧ head.flatten.length < input.declaredLength
    · rw [if_pos hmore]
      have hlength : (head ++ [c]).flatten.length = head.flatten.length + c.length := by
        rw [List.flatten_append, List.length_append, List.flatten_singleton]
      have hassoc : (head ++ [c]) ++ cs = head ++ c :: cs := by simp
      by_cases hlimit : head.flatten.length + c.length > input.limit
      · rw [if_pos hlimit]
        refine .inr ⟨rfl, ?_⟩
        rw [← hassoc, List.flatten_append, List.length_append, hlength]
        omega
      · rw [if_neg hlimit, ← hlength, ← hassoc]
        exact ih (head ++ [c])
    · rw [if_neg hmore]
      exact .inl ⟨head, c :: cs, rfl, rfl, .inr (by omega)⟩

theorem copyInto_eq (chunks : List Bytes) (size : Nat) : copyInto chunks size = chunks.flatten.take size := by
  induction chunks generalizing size with
  | nil => rw [copyInto, List.flatten_nil, List.take_nil]
  | cons c cs ih =>
    rw [copyInto, List.flatten_cons, List.take_append, ih]
    by_cases h : size = 0
    · rw [if_pos h, h]
      simp
    · have hrest : size - min c.length size = size - c.length := by omega
      rw [if_neg h, hrest]

theorem windowOf_eq {size : Nat} (h : size ≤ chunks.flatten.length) : windowOf chunks size = chunks.flatten.take size := by
  have hfull : size - (chunks.flatten.take size).length = 0 := by
    rw [List.length_take]
    omega
  rw [windowOf, copyInto_eq, hfull, List.replicate_zero, List.append_nil]

theorem meter_within {bytes : Nat} {cs : List Bytes} (h : bytes + cs.flatten.length ≤ input.limit) : meter input.limit bytes cs = (cs, none) := by
  induction cs generalizing bytes with
  | nil => rfl
  | cons c cs ih =>
    rw [List.flatten_cons, List.length_append] at h
    rw [meter, if_neg (by omega), ih (by omega)]

theorem meter_over {bytes : Nat} {cs : List Bytes} (hb : bytes ≤ input.limit) (h : input.limit < bytes + cs.flatten.length) :
    (meter input.limit bytes cs).2 = some .tooLarge := by
  induction cs generalizing bytes with
  | nil => exact absurd h (Nat.not_lt.mpr hb)
  | cons c cs ih =>
    rw [List.flatten_cons, List.length_append] at h
    rw [meter]
    by_cases hc : bytes + c.length > input.limit
    · rw [if_pos hc]
    · rw [if_neg hc]
      exact ih (Nat.not_lt.mp hc) (by omega)

def IngestInput.stores (digest : Bytes → String) (input : IngestInput) (bytes : Bytes) : Prop :=
  (verifiedBody input.declaredLength input.expectedSha256).matches digest bytes ∧ bytes.length ≤ input.limit ∧ input.fault = none

theorem put_stores (h : input.stores digest chunks.flatten) : put digest input (meter input.limit 0 chunks) = .ok () := by
  rw [meter_within (by rw [Nat.zero_add]; exact h.2.1)]
  unfold put
  dsimp only
  rw [(stream_ends chunks).mpr h.1]
  dsimp only
  rw [h.2.2]

theorem put_refuses (h : ¬ input.stores digest chunks.flatten) : ∃ e, put digest input (meter input.limit 0 chunks) = .error e := by
  by_cases hlimit : chunks.flatten.length ≤ input.limit
  · rw [meter_within (by rw [Nat.zero_add]; exact hlimit)]
    unfold put
    dsimp only
    split
    · exact ⟨_, rfl⟩
    · rename_i hnone
      split
      · exact ⟨_, rfl⟩
      · rename_i hfault
        exact absurd ⟨(stream_ends chunks).mp hnone, hlimit, hfault⟩ h
  · unfold put
    rw [meter_over (Nat.zero_le _) (by rw [Nat.zero_add]; exact Nat.not_le.mp hlimit)]
    exact ⟨_, rfl⟩

instance (bytes : Bytes) : Decidable (input.stores digest bytes) :=
  inferInstanceAs (Decidable ((bytes.length = input.declaredLength ∧ ∀ e ∈ input.expectedSha256, digest bytes = e) ∧ bytes.length ≤ input.limit ∧ input.fault = none))

def IngestInput.records (digest : Bytes → String) (input : IngestInput) (bytes : Bytes) : Option Accepted :=
  if input.stores digest bytes then
    (detectMediaType (bytes.take DETECTION_WINDOW_BYTES)).bind fun t =>
      if input.allowed t ∧ input.agrees t then some ⟨t, bytes.length, digest bytes⟩ else none
  else none

theorem window_first {head rest : List Bytes} (hd : (head ++ rest).flatten.length = input.declaredLength)
    (h : rest = [] ∨ DETECTION_WINDOW_BYTES ≤ head.flatten.length ∨ input.declaredLength ≤ head.flatten.length) :
    windowOf head (min head.flatten.length DETECTION_WINDOW_BYTES) = (head ++ rest).flatten.take DETECTION_WINDOW_BYTES := by
  rw [windowOf_eq (Nat.min_le_left _ _), List.flatten_append]
  rw [List.flatten_append, List.length_append] at hd
  by_cases hw : DETECTION_WINDOW_BYTES ≤ head.flatten.length
  · rw [Nat.min_eq_right hw, List.take_append_of_le_length hw]
  · have hrest : rest.flatten = [] := by
      rcases h with rfl | h | h
      · rfl
      · exact absurd h hw
      · exact List.eq_nil_of_length_eq_zero (by omega)
    rw [hrest, List.append_nil, Nat.min_eq_left (by omega), List.take_length, List.take_of_length_le (by omega)]

theorem ingest_records (chunks : List Bytes) : (ingest digest input chunks).toOption = input.records digest chunks.flatten := by
  unfold ingest IngestInput.records
  rcases (@readHead_cases input) [] chunks with ⟨head, rest, hread, hchunks, hstop⟩ | ⟨hread, hlimit⟩
  · simp only [List.flatten_nil, List.length_nil] at hread
    rw [List.nil_append] at hchunks
    simp only [hread, bind, Except.bind, hchunks]
    by_cases hstores : input.stores digest chunks.flatten
    · rw [if_pos hstores, ← hchunks, window_first (by rw [hchunks]; exact hstores.1.1) hstop, hchunks]
      cases detectMediaType (chunks.flatten.take DETECTION_WINDOW_BYTES) with
      | none => rfl
      | some t =>
        dsimp only [Option.bind_some]
        by_cases hallowed : input.allowed t = true
        · by_cases hagrees : input.agrees t = true
          · have hwithin := (@meter_within input 0 chunks) (by rw [Nat.zero_add]; exact hstores.2.1)
            have hlength : ¬ chunks.flatten.length ≠ input.declaredLength := not_not_intro hstores.1.1
            rw [if_neg (not_not_intro hallowed), if_neg (not_not_intro hagrees), put_stores hstores, hwithin]
            dsimp only
            rw [if_neg hlength, if_pos ⟨hallowed, hagrees⟩]
            rfl
          · rw [if_neg (not_not_intro hallowed), if_pos hagrees, if_neg fun h => hagrees h.2]
            rfl
        · rw [if_pos hallowed, if_neg fun h => hallowed h.1]
          rfl
    · obtain ⟨e, he⟩ := put_refuses hstores
      rw [if_neg hstores, he]
      split
      · rfl
      · split
        · rfl
        · split
          · rfl
          · rfl
  · simp only [List.flatten_nil, List.length_nil] at hread
    rw [List.nil_append] at hlimit
    have hstores : ¬ input.stores digest chunks.flatten := fun h => absurd h.2.1 (Nat.not_le.mpr hlimit)
    rw [hread, if_neg hstores]
    rfl

/-- **Verified streams and uploads.** A stream of either kind is verified as claimed exactly when it is accepted, its
size is zero, or no empty chunk comes after its last byte; an upload is decided by its bytes. -/
theorem streams_law (digest : Bytes → String) :
    (∀ size expected chunks, Verified digest (verifiedBody size expected) chunks ↔
      (verifiedBody size expected).matches digest chunks.flatten ∨ size = 0 ∨ ¬ TrailingEmpty (verifiedBody size expected) chunks) ∧
    (∀ expected sha256 chunks, Verified digest (verifiedDownload expected sha256) chunks ↔
      (verifiedDownload expected sha256).matches digest chunks.flatten ∨ expected = 0 ∨ ¬ TrailingEmpty (verifiedDownload expected sha256) chunks) ∧
    ∀ input, ∃ records : Bytes → Option Accepted, ∀ chunks, (ingest digest input chunks).toOption = records chunks.flatten :=
  ⟨fun _ _ chunks => verified_iff chunks, fun _ _ chunks => verified_iff chunks, fun _ => ⟨_, ingest_records⟩⟩

/-- Four bytes with a wrong digest, then an empty chunk: all four are emitted. -/
theorem trailing_empty_emits : ¬ ∀ (digest : Bytes → String) (size : Nat) (expected : Option String) (chunks : List Bytes),
    Verified digest (verifiedBody size expected) chunks := by
  intro h
  have hshort := (h (fun _ => "found") 4 (some "expected") [[1, 2, 3, 4], []]).short
  exact absurd (hshort (by decide) (by decide)) (by decide)

end

end NawaraCore.FileStreams
