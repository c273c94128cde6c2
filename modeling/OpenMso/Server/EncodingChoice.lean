import Mathlib.Algebra.BigOperators.Ring.List
import OpenMso.Server.ChunkSize

/-! # Whether the encoding of a stream changes its samples

A verbatim and a run-length sender that are given the same buffers go in step:
control never looks at a payload. What they deliver comes in pairs, cut from
one piece of a buffer, of which the verbatim chunk carries every byte and the
run-length chunk the whole samples.
-/

namespace OpenMso.Server

open Foundation.Machine Foundation.Chunks Encoding Transport Proto

set_option autoImplicit false

/-- Two chunks of the same samples, however each is coded. -/
def SameSamples (reader : Build) (unitsize : Nat) (one other : CaptureData) : Prop :=
  one.seq = other.seq ∧ one.firstSample = other.firstSample ∧
    one.sampleCount = other.sampleCount ∧
    ∃ bytes, decodePayload reader one unitsize = .ok bytes ∧
      decodePayload reader other unitsize = .ok bytes

/-- Beyond what was on both streams before, they carry chunks that agree one by one. -/
def SameStreams (reader : Build) (unitsize : Nat) (before : List Event) (one other : Events) : Prop :=
  ∃ ones others : List CaptureData, one.socket.delivered = before ++ ones.map .data ∧
    other.socket.delivered = before ++ others.map .data ∧
    List.Forall₂ (SameSamples reader unitsize) ones others

/-- The two chunks of one piece, and what each decodes to. -/
structure ChunkPair (reader : Build) (unitsize : Nat) where
  verbatim : CaptureData
  runLength : CaptureData
  part : List UInt8
  seq : verbatim.seq = runLength.seq
  firstSample : verbatim.firstSample = runLength.firstSample
  sampleCount : verbatim.sampleCount = runLength.sampleCount
  decode_verbatim : decodePayload reader verbatim unitsize = .ok part
  decode_runLength : decodePayload reader runLength unitsize =
    .ok (part.take (part.length / unitsize * unitsize))

theorem take_whole_eq_iff {unitsize : Nat} (part : List UInt8) :
    part = part.take (part.length / unitsize * unitsize) ↔ unitsize ∣ part.length := by
  constructor
  · intro h
    have hLength := congrArg List.length h
    rw [List.length_take] at hLength
    have hLe := Nat.div_mul_le_self part.length unitsize
    exact ⟨part.length / unitsize, by rw [Nat.mul_comm]; omega⟩
  · intro h
    rw [Nat.div_mul_cancel h, List.take_length]

namespace ChunkPair

variable {reader : Build} {unitsize : Nat}

theorem sameSamples_iff (pair : ChunkPair reader unitsize) :
    SameSamples reader unitsize pair.verbatim pair.runLength ↔ unitsize ∣ pair.part.length := by
  rw [SameSamples, pair.decode_verbatim, pair.decode_runLength, ← take_whole_eq_iff]
  constructor
  · rintro ⟨_, _, _, bytes, hOne, hOther⟩
    exact (Except.ok.inj hOne).trans (Except.ok.inj hOther).symm
  · intro h
    exact ⟨pair.seq, pair.firstSample, pair.sampleCount, pair.part, rfl, congrArg _ h.symm⟩

theorem forall₂_sameSamples_iff (sent : List (ChunkPair reader unitsize)) :
    List.Forall₂ (SameSamples reader unitsize) (sent.map verbatim) (sent.map runLength) ↔
      ∀ pair ∈ sent, unitsize ∣ pair.part.length := by
  induction sent with
  | nil => simp
  | cons pair sent ih =>
    rw [List.map_cons, List.map_cons, List.forall₂_cons, ih, pair.sameSamples_iff,
      List.forall_mem_cons]

end ChunkPair

namespace StreamSender

theorem exists_chunkPair (build reader : Build) {sender : StreamSender} {part : List UInt8}
    (hPacked : sender.encoding = .packed) (hPart : part.length ≤ maxPayload) :
    ∃ payload, sender.transition.encodePart build part = .ok payload ∧
      ∃ pair : ChunkPair reader sender.unitsize, pair.verbatim = sender.chunk part part ∧
        pair.runLength = sender.transition.chunk part payload ∧ pair.part = part := by
  have hShort : part.length < 2 ^ 63 := Nat.lt_of_le_of_lt hPart (by decide)
  have hCount : (UInt64.ofNat (part.length / sender.unitsize)).toNat =
      part.length / sender.unitsize := by
    have hDiv := Nat.div_le_self part.length sender.unitsize
    rw [UInt64.toNat_ofNat', Nat.mod_eq_of_lt (by omega)]
  have hEncode := encodeTransition_eq build sender.unitsize_pos
    (.inr (Nat.lt_trans hShort (by decide) : part.length < 2 ^ 64))
  refine ⟨_, hEncode, ⟨sender.chunk part part, sender.transition.chunk part _, part, rfl, rfl, rfl,
    ?_, ?_⟩, rfl, rfl, rfl⟩
  · exact decodePayload_of_packed reader sender.unitsize (.inl rfl)
      (.inl (congrArg SampleEncoding.toI32 hPacked))
  · rw [decodePayload_of_transition reader sender.unitsize (.inl rfl) rfl]
    change decodeTransition reader ((Foundation.RunLength.runs
      (chunksExact sender.unitsize part)).flatMap writeRun) sender.unitsize
      (UInt64.ofNat (part.length / sender.unitsize)).toNat = _
    rw [hCount, decodeTransition_runs reader sender.unitsize_pos hShort]

theorem advance_of_seq {build : Build} {sender : StreamSender} {fault : Fault Error}
    (h : addU64 build sender.seq 1 = .error fault) (events : Events) (samples : UInt64) :
    sender.advance build events samples = (.error fault, sender, events) := by
  rw [advance, h]

theorem advance_of_firstSample {build : Build} {sender : StreamSender} {seq samples : UInt64}
    {fault : Fault Error} (hSeq : (addU64 build sender.seq 1 : Call Error UInt64) = .ok seq)
    (h : addU64 build sender.firstSample samples = .error fault) (events : Events) :
    sender.advance build events samples = (.error fault, { sender with seq }, events) := by
  rw [advance, hSeq]
  dsimp only
  rw [h]

theorem advance_of_ok {build : Build} {sender : StreamSender} {seq firstSample samples : UInt64}
    (hSeq : (addU64 build sender.seq 1 : Call Error UInt64) = .ok seq)
    (h : (addU64 build sender.firstSample samples : Call Error UInt64) = .ok firstSample)
    (events : Events) :
    sender.advance build events samples = (.ok (), { sender with seq, firstSample }, events) := by
  rw [advance, hSeq]
  dsimp only
  rw [h]

/-- The counters do not know the encoding. -/
theorem advance_transition (build : Build) (sender : StreamSender) (events after : Events)
    (samples : UInt64) :
    sender.transition.advance build after samples =
      ((sender.advance build events samples).1,
        (sender.advance build events samples).2.1.transition, after) := by
  have hSender : sender.transition.seq = sender.seq := rfl
  have hFirstSample : sender.transition.firstSample = sender.firstSample := rfl
  cases hSeq : (addU64 build sender.seq 1 : Call Error UInt64) with
  | error fault =>
    rw [advance_of_seq hSeq, advance_of_seq (by rw [hSender, hSeq])]
  | ok seq =>
    cases hFirst : (addU64 build sender.firstSample samples : Call Error UInt64) with
    | error fault =>
      rw [advance_of_firstSample hSeq hFirst,
        advance_of_firstSample (by rw [hSender, hSeq]) (by rw [hFirstSample, hFirst])]
      rfl
    | ok firstSample =>
      rw [advance_of_ok hSeq hFirst,
        advance_of_ok (by rw [hSender, hSeq]) (by rw [hFirstSample, hFirst])]
      rfl

theorem advance_optimised (sender : StreamSender) (events : Events) (samples : UInt64) :
    (sender.advance .optimised events samples).1 = .ok () := by
  rw [advance_of_ok (addU64_optimised _ _) (addU64_optimised _ _)]

end StreamSender

section
variable {reader : Build} {unitsize : Nat}

/-- A verbatim sender and its run-length twin, which have delivered `sent` after
whatever was on the stream `before`. -/
structure Twins (before : List Event) (sent : List (ChunkPair reader unitsize))
    (one other : StreamSender × Events) : Prop where
  unitsize_eq : one.1.unitsize = unitsize
  packed : one.1.encoding = .packed
  sender_eq : other.1 = one.1.transition
  attempts : other.2.socket.attempts = one.2.socket.attempts
  delivered_one : one.2.socket.delivered = before ++ (sent.map ChunkPair.verbatim).map .data
  delivered_other : other.2.socket.delivered = before ++ (sent.map ChunkPair.runLength).map .data

/-- How two calls that have `todo` to deliver leave the twins: with the same result, and
more delivered. An optimised build with a link that drops nothing delivers all. -/
structure InStepWith (build : Build) (link : Link) (before : List Event)
    (sent : List (ChunkPair reader unitsize)) (todo : List (List UInt8))
    (one other : StreamSender.Outcome) : Prop where
  result_eq : other.1 = one.1
  twins : ∃ more : List (ChunkPair reader unitsize), Twins before (sent ++ more) one.2 other.2 ∧
    (∀ pair ∈ more, pair.part ∈ todo) ∧
    (build = .optimised → (∀ n, link n = none) →
      one.1 = .ok () ∧ more.map ChunkPair.part = todo)

theorem Twins.sameStreams_iff {before : List Event} {sent : List (ChunkPair reader unitsize)}
    {one other : StreamSender × Events} (h : Twins before sent one other) :
    SameStreams reader unitsize before one.2 other.2 ↔
      ∀ pair ∈ sent, unitsize ∣ pair.part.length := by
  have hData : Function.Injective Event.data := fun _ _ => Event.data.inj
  rw [← ChunkPair.forall₂_sameSamples_iff, SameStreams, h.delivered_one, h.delivered_other]
  constructor
  · rintro ⟨ones, others, hOnes, hOthers, hSame⟩
    rw [List.map_injective_iff.mpr hData (List.append_cancel_left hOnes),
      List.map_injective_iff.mpr hData (List.append_cancel_left hOthers)]
    exact hSame
  · intro hSame
    exact ⟨_, _, rfl, rfl, hSame⟩

variable {before : List Event} {sent : List (ChunkPair reader unitsize)} {one other : StreamSender}
  {events events' : Events}

theorem inStepWith_sendPart (build : Build) (link : Link) {part : List UInt8}
    (hPart : part.length ≤ maxPayload) (h : Twins before sent (one, events) (other, events')) :
    InStepWith build link before sent [part] (one.sendPart build link events part)
      (other.sendPart build link events' part) := by
  obtain ⟨rfl, hPacked, hOther, hAttempts, hOne, hTwo⟩ := h
  dsimp only at hPacked hOther hAttempts hOne hTwo
  subst hOther
  obtain ⟨payload, hEncode, pair, hVerbatim, hRunLength, hPairPart⟩ :=
    StreamSender.exists_chunkPair build reader hPacked hPart
  have hCopy : one.encodePart build part = .ok part := by rw [StreamSender.encodePart, hPacked]
  rw [StreamSender.sendPart, StreamSender.sendPart, hEncode, hCopy]
  dsimp only
  cases hLink : link events.socket.attempts with
  | some e =>
    rw [Events.send_data_of_some hLink, Events.send_data_of_some (by rwa [hAttempts])]
    refine ⟨rfl, [], ⟨rfl, hPacked, rfl, congrArg (· + 1) hAttempts, ?_, ?_⟩, by simp, ?_⟩
    · rw [List.append_nil]
      exact hOne
    · rw [List.append_nil]
      exact hTwo
    · intro _ hNone
      rw [hNone] at hLink
      cases hLink
  | none =>
    rw [Events.send_data_of_none hLink, Events.send_data_of_none (by rwa [hAttempts])]
    dsimp only
    rw [StreamSender.advance_transition build one
      { events with socket := ⟨events.socket.attempts + 1,
        events.socket.delivered ++ [.data (one.chunk part part)]⟩ }]
    obtain ⟨hUnit, hEncoding⟩ := one.advance_sender build
      { events with socket := ⟨events.socket.attempts + 1,
        events.socket.delivered ++ [.data (one.chunk part part)]⟩ }
      (one.chunk part part).sampleCount
    refine ⟨rfl, [pair], ⟨hUnit, hEncoding.trans hPacked, rfl, ?_, ?_, ?_⟩, ?_, ?_⟩
    · rw [StreamSender.advance_events]
      exact congrArg (· + 1) hAttempts
    · rw [StreamSender.advance_events, List.map_append, List.map_append, ← List.append_assoc, ← hOne,
        ← hVerbatim]
      rfl
    · rw [List.map_append, List.map_append, ← List.append_assoc, ← hTwo, ← hRunLength]
      rfl
    · simp [hPairPart]
    · rintro rfl _
      exact ⟨StreamSender.advance_optimised _ _ _, by simp [hPairPart]⟩

theorem InStepWith.append {build : Build} {link : Link} {more : List (ChunkPair reader unitsize)}
    {first rest : List (List UInt8)} {one other : StreamSender.Outcome}
    (hFirst : ∀ pair ∈ more, pair.part ∈ first)
    (hAll : build = .optimised → (∀ n, link n = none) → more.map ChunkPair.part = first)
    (h : InStepWith build link before (sent ++ more) rest one other) :
    InStepWith build link before sent (first ++ rest) one other := by
  obtain ⟨hResult, next, hTwins, hParts, hDone⟩ := h
  refine ⟨hResult, more ++ next, ?_, ?_, ?_⟩
  · rw [← List.append_assoc]
    exact hTwins
  · intro pair hPair
    rcases List.mem_append.mp hPair with hPair | hPair
    · exact List.mem_append_left _ (hFirst pair hPair)
    · exact List.mem_append_right _ (hParts pair hPair)
  · intro hBuild hLink
    obtain ⟨hOk, hRest⟩ := hDone hBuild hLink
    exact ⟨hOk, by rw [List.map_append, hAll hBuild hLink, hRest]⟩

theorem inStepWith_sendParts (build : Build) (link : Link) {todo : List (List UInt8)}
    (hTodo : ∀ part ∈ todo, part.length ≤ maxPayload)
    (h : Twins before sent (one, events) (other, events')) :
    InStepWith build link before sent todo (one.sendParts build link events todo)
      (other.sendParts build link events' todo) := by
  induction todo generalizing sent one other events events' with
  | nil =>
    refine ⟨rfl, [], ?_, by simp, fun _ _ => ⟨rfl, rfl⟩⟩
    rw [List.append_nil]
    exact h
  | cons part todo ih =>
    have hHead := inStepWith_sendPart build link (hTodo part List.mem_cons_self) h
    rw [StreamSender.sendParts, StreamSender.sendParts]
    rcases hOne : one.sendPart build link events part with ⟨result, one', events₁⟩
    rcases hOther : other.sendPart build link events' part with ⟨result', other', events₂⟩
    rw [hOne, hOther] at hHead
    obtain ⟨hResult, more, hTwins, hParts, hDone⟩ := hHead
    dsimp only at hResult hTwins hDone
    subst hResult
    rcases result' with fault | ⟨⟩
    · refine ⟨rfl, more, hTwins, ?_, ?_⟩
      · intro pair hPair
        rw [List.mem_singleton.mp (hParts pair hPair)]
        exact List.mem_cons_self
      · intro hBuild hLink
        cases (hDone hBuild hLink).1
    · exact (ih (fun p hp => hTodo p (List.mem_cons_of_mem _ hp)) hTwins).append hParts
        fun hBuild hLink => (hDone hBuild hLink).2

theorem inStepWith_send (build : Build) (link : Link) (packed : List UInt8)
    (hMax : unitsize ≤ maxPayload) (h : Twins before sent (one, events) (other, events')) :
    InStepWith build link before sent (chunks (maxPayload - maxPayload % unitsize) packed)
      (one.send build link events packed) (other.send build link events' packed) := by
  have hUnit : one.unitsize = unitsize := h.unitsize_eq
  have hSender : other = one.transition := h.sender_eq
  have hOther : other.unitsize = unitsize := by
    rw [hSender]
    exact hUnit
  have hSize := pos_chunk (hUnit ▸ one.unitsize_pos) hMax
  rw [StreamSender.send, StreamSender.send, hUnit, hOther, if_neg (Nat.ne_of_gt hSize),
    if_neg (Nat.ne_of_gt hSize)]
  refine inStepWith_sendParts build link (fun part hPart => ?_) h
  exact Nat.le_trans (length_pos_of_mem_chunks hSize hPart).2 (Nat.sub_le _ _)

/-- The pieces all the buffers are cut into. -/
def allParts (unitsize : Nat) (buffers : List (List UInt8)) : List (List UInt8) :=
  buffers.flatMap (chunks (maxPayload - maxPayload % unitsize))

/-- The run lemma: whatever the buffers, the twins deliver pairs of their pieces, and an
optimised build with a link that drops nothing delivers a pair of every piece. -/
theorem twins_sendAll (build : Build) (link : Link) (buffers : List (List UInt8))
    (hMax : unitsize ≤ maxPayload) (h : Twins before sent (one, events) (other, events')) :
    ∃ more : List (ChunkPair reader unitsize),
      Twins before (sent ++ more) (one.sendAll build link events buffers).2
        (other.sendAll build link events' buffers).2 ∧
      (∀ pair ∈ more, pair.part ∈ allParts unitsize buffers) ∧
      (build = .optimised → (∀ n, link n = none) →
        more.map ChunkPair.part = allParts unitsize buffers) := by
  induction buffers generalizing sent one other events events' with
  | nil =>
    refine ⟨[], ?_, by simp, fun _ _ => rfl⟩
    rw [List.append_nil]
    exact h
  | cons packed buffers ih =>
    have hHead := inStepWith_send build link packed hMax h
    rw [StreamSender.sendAll, StreamSender.sendAll]
    rcases hOne : one.send build link events packed with ⟨result, one', events₁⟩
    rcases hOther : other.send build link events' packed with ⟨result', other', events₂⟩
    rw [hOne, hOther] at hHead
    obtain ⟨hResult, more, hTwins, hParts, hDone⟩ := hHead
    dsimp only at hResult hTwins hDone
    subst hResult
    have hRest : ∃ more' : List (ChunkPair reader unitsize),
        Twins before (sent ++ more') (one'.sendAll build link events₁ buffers).2
          (other'.sendAll build link events₂ buffers).2 ∧
        (∀ pair ∈ more', pair.part ∈ allParts unitsize (packed :: buffers)) ∧
        (build = .optimised → (∀ n, link n = none) →
          more'.map ChunkPair.part = allParts unitsize (packed :: buffers)) := by
      obtain ⟨next, hFinal, hNext, hAll⟩ := ih hTwins
      refine ⟨more ++ next, ?_, ?_, ?_⟩
      · rw [← List.append_assoc]
        exact hFinal
      · intro pair hPair
        rw [allParts, List.flatMap_cons]
        rcases List.mem_append.mp hPair with hPair | hPair
        · exact List.mem_append_left _ (hParts pair hPair)
        · exact List.mem_append_right _ (hNext pair hPair)
      · intro hBuild hLink
        rw [List.map_append, (hDone hBuild hLink).2, hAll hBuild hLink, allParts, allParts,
          List.flatMap_cons]
    rcases result' with (e | message) | ⟨⟩
    · exact hRest
    · refine ⟨more, hTwins, ?_, ?_⟩
      · intro pair hPair
        rw [allParts, List.flatMap_cons]
        exact List.mem_append_left _ (hParts pair hPair)
      · intro hBuild hLink
        cases (hDone hBuild hLink).1
    · exact hRest

end

theorem forall_dvd_allParts_iff {unitsize : Nat} (hUnit : 0 < unitsize)
    (hMax : unitsize ≤ maxPayload) (buffers : List (List UInt8)) :
    (∀ part ∈ allParts unitsize buffers, unitsize ∣ part.length) ↔
      ∀ packed ∈ buffers, unitsize ∣ packed.length := by
  have hSize := pos_chunk hUnit hMax
  constructor
  · intro h packed hPacked
    rw [← flatten_chunks hSize packed, List.length_flatten]
    refine List.dvd_sum fun n hn => ?_
    obtain ⟨part, hPart, rfl⟩ := List.mem_map.mp hn
    exact h part (List.mem_flatMap.mpr ⟨packed, hPacked, hPart⟩)
  · intro h part hPart
    obtain ⟨packed, hPacked, hPart⟩ := List.mem_flatMap.mp hPart
    exact (isPart_of_mem_chunks hUnit hMax (h packed hPacked) hPart).1

/-- The encoding never changes the samples, over any link and in any build, exactly
when no buffer ends inside a sample. -/
theorem encoding_choice_iff (reader : Build) (captureId acquisition : UInt64) (stream : UInt32)
    (unitsize : Nat) (hUnit : 0 < unitsize) (hMax : unitsize ≤ maxPayload) (events : Events)
    (buffers : List (List UInt8)) :
    ∃ fresh, StreamSender.new captureId acquisition stream unitsize = .ok fresh ∧
      ((∀ (build : Build) (link : Link),
          SameStreams reader unitsize events.socket.delivered
            (fresh.sendAll build link events buffers).2.2
            (fresh.transition.sendAll build link events buffers).2.2) ↔
        ∀ packed ∈ buffers, unitsize ∣ packed.length) := by
  refine ⟨_, dif_pos hUnit, ?_⟩
  have hStart : @Twins reader unitsize events.socket.delivered []
      (⟨captureId, acquisition, stream, unitsize, .packed, 0, 0, hUnit⟩, events)
      (StreamSender.transition ⟨captureId, acquisition, stream, unitsize, .packed, 0, 0, hUnit⟩,
        events) :=
    ⟨rfl, rfl, rfl, rfl, (List.append_nil _).symm, (List.append_nil _).symm⟩
  have hRun (build : Build) (link : Link) := twins_sendAll build link buffers hMax hStart
  rw [← forall_dvd_allParts_iff hUnit hMax]
  constructor
  · intro h part hPart
    obtain ⟨more, hTwins, _, hAll⟩ := hRun .optimised fun _ => none
    rw [← hAll rfl fun _ => rfl] at hPart
    obtain ⟨pair, hPair, rfl⟩ := List.mem_map.mp hPart
    exact hTwins.sameStreams_iff.mp (h .optimised fun _ => none) pair hPair
  · intro h build link
    obtain ⟨more, hTwins, hParts, _⟩ := hRun build link
    exact hTwins.sameStreams_iff.mpr fun pair hPair => h pair.part (hParts pair hPair)

theorem encoding_choice_iff_whole_samples :
    ∃ fresh, StreamSender.new 7 0 1 2 = .ok fresh ∧
      ((∀ (build : Build) (link : Link),
          SameStreams .checked 2 [] (fresh.sendAll build link (Events.new ⟨0, []⟩) [[1, 2, 3, 4]]).2.2
            (fresh.transition.sendAll build link (Events.new ⟨0, []⟩) [[1, 2, 3, 4]]).2.2) ↔
        ∀ packed ∈ [[1, 2, 3, (4 : UInt8)]], 2 ∣ packed.length) :=
  encoding_choice_iff .checked 7 0 1 2 (by decide) (by decide) (Events.new ⟨0, []⟩) [[1, 2, 3, 4]]

/-- Three bytes for samples of two: the verbatim chunk carries the odd byte, the
run-length one drops it. -/
theorem cut_sample_changes_the_stream :
    ∃ fresh, StreamSender.new 7 0 1 2 = .ok fresh ∧
      ¬ SameStreams .checked 2 [] (fresh.sendAll .checked (fun _ => none) (Events.new ⟨0, []⟩) [[1, 2, 3]]).2.2
        (fresh.transition.sendAll .checked (fun _ => none) (Events.new ⟨0, []⟩) [[1, 2, 3]]).2.2 := by
  refine ⟨_, dif_pos (by decide), ?_⟩
  rintro ⟨ones, others, hOnes, hOthers, hSame⟩
  have hData : Function.Injective Event.data := fun _ _ => Event.data.inj
  have hOne : [Event.data ⟨7, 0, 1, 0, 0, 1, 1, 1, 3, [1, 2, 3]⟩] = ones.map .data := by
    rw [← List.nil_append (ones.map Event.data), ← hOnes]
    decide +kernel
  have hOther : [Event.data ⟨7, 0, 1, 0, 0, 1, 2, 1, 3, [1, 1, 2]⟩] = others.map .data := by
    rw [← List.nil_append (others.map Event.data), ← hOthers]
    decide +kernel
  obtain rfl : [⟨7, 0, 1, 0, 0, 1, 1, 1, 3, [1, 2, 3]⟩] = ones :=
    List.map_injective_iff.mpr hData hOne
  obtain rfl : [⟨7, 0, 1, 0, 0, 1, 2, 1, 3, [1, 1, 2]⟩] = others :=
    List.map_injective_iff.mpr hData hOther
  obtain ⟨_, _, _, bytes, hVerbatim, hRunLength⟩ := (List.forall₂_cons.mp hSame).1
  have hThree : decodePayload .checked ⟨7, 0, 1, 0, 0, 1, 1, 1, 3, [1, 2, 3]⟩ 2 =
      .ok [1, 2, 3] := by decide +kernel
  have hTwo : decodePayload .checked ⟨7, 0, 1, 0, 0, 1, 2, 1, 3, [1, 1, 2]⟩ 2 =
      .ok [1, 2] := by decide +kernel
  exact absurd ((hThree.symm.trans hVerbatim).trans (hRunLength.symm.trans hTwo)) (by decide)

end OpenMso.Server
