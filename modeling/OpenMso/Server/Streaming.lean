import OpenMso.Encoding.PayloadSize
import OpenMso.Encoding.TransitionRoundtrip
import OpenMso.Server.Events

/-! # What a stream sender delivers

The invariant `Streamed` ties the two counters of the sender to the chunks
that went out. A turn of the loop keeps it, fails with nothing delivered, or
panics because a counter left its word.
-/

namespace OpenMso.Server

open Foundation.Machine Foundation.Chunks Encoding Transport Proto

set_option autoImplicit false

def totalSamples (chunks : List CaptureData) : Nat :=
  (chunks.map fun data => data.sampleCount.toNat).sum

@[simp] theorem totalSamples_nil : totalSamples [] = 0 := rfl

@[simp] theorem totalSamples_append (chunks more : List CaptureData) :
    totalSamples (chunks ++ more) = totalSamples chunks + totalSamples more := by
  simp [totalSamples]

theorem totalSamples_singleton (data : CaptureData) :
    totalSamples [data] = data.sampleCount.toNat := by
  simp [totalSamples]

/-- Both counters of a sender stay in their words over these chunks. -/
def Fits (chunks : List CaptureData) : Prop :=
  chunks.length < 2 ^ 64 ∧ totalSamples chunks < 2 ^ 64

/-- Numbered from zero, each chunk starting where the one before it ends. -/
def GapFree (chunks : List CaptureData) : Prop :=
  ∀ i (h : i < chunks.length), chunks[i].seq = UInt64.ofNat i ∧
    chunks[i].firstSample = UInt64.ofNat (totalSamples (chunks.take i))

theorem GapFree.snoc {chunks : List CaptureData} {data : CaptureData} (h : GapFree chunks)
    (hSeq : data.seq = UInt64.ofNat chunks.length)
    (hFirst : data.firstSample = UInt64.ofNat (totalSamples chunks)) :
    GapFree (chunks ++ [data]) := by
  intro i hi
  rw [List.length_append, List.length_singleton] at hi
  rcases Nat.lt_succ_iff_lt_or_eq.mp hi with hOld | rfl
  · rw [List.getElem_append_left hOld, List.take_append_of_le_length (Nat.le_of_lt hOld)]
    exact h i hOld
  · rw [List.getElem_concat_length rfl, List.take_left' rfl]
    exact ⟨hSeq, hFirst⟩

theorem GapFree.toNat {chunks : List CaptureData} (h : GapFree chunks) (hFits : Fits chunks)
    (i : Nat) (hi : i < chunks.length) :
    chunks[i].seq.toNat = i ∧ chunks[i].firstSample.toNat = totalSamples (chunks.take i) := by
  obtain ⟨hSeq, hFirst⟩ := h i hi
  have hTake : totalSamples (chunks.take i) ≤ totalSamples chunks := by
    calc totalSamples (chunks.take i)
        ≤ totalSamples (chunks.take i) + totalSamples (chunks.drop i) := Nat.le_add_right _ _
      _ = totalSamples chunks := by rw [← totalSamples_append, List.take_append_drop]
  rw [hSeq, hFirst, UInt64.toNat_ofNat', UInt64.toNat_ofNat']
  exact ⟨Nat.mod_eq_of_lt (Nat.lt_trans hi hFits.1),
    Nat.mod_eq_of_lt (Nat.lt_of_le_of_lt hTake hFits.2)⟩

/-- The chunk decodes to these bytes, as many as it declares. -/
def DecodesTo (reader : Build) (unitsize : Nat) (data : CaptureData) (part : List UInt8) : Prop :=
  decodePayload reader data unitsize = .ok part ∧ part.length = data.sampleCount.toNat * unitsize

/-- The payloads of the chunks, decoded and put together. -/
def decodeAll (reader : Build) (unitsize : Nat) (chunks : List CaptureData) :
    Call Error (List UInt8) := do
  let parts ← chunks.mapM fun data => decodePayload reader data unitsize
  return parts.flatten

theorem decodeAll_eq {reader : Build} {unitsize : Nat} {chunks : List CaptureData}
    {parts : List (List UInt8)} (h : List.Forall₂ (DecodesTo reader unitsize) chunks parts) :
    decodeAll reader unitsize chunks = .ok parts.flatten := by
  have hParts : chunks.mapM (fun data => decodePayload reader data unitsize) = .ok parts := by
    induction h with
    | nil => rfl
    | cons hHead _ ih =>
      rw [List.mapM_cons, hHead.1, ih]
      rfl
  rw [decodeAll, hParts]
  rfl

/-- Where a sender stands that has delivered `chunks`, which decode to `parts`,
after whatever was on the stream `before`. -/
structure Streamed (reader : Build) (unitsize : Nat) (before : List Event)
    (chunks : List CaptureData) (parts : List (List UInt8)) (sender : StreamSender)
    (events : Events) : Prop where
  unitsize_eq : sender.unitsize = unitsize
  encoding : sender.encoding = .packed ∨ sender.encoding = .transition
  delivered : events.socket.delivered = before ++ chunks.map .data
  seq : sender.seq = UInt64.ofNat chunks.length
  firstSample : sender.firstSample = UInt64.ofNat (totalSamples chunks)
  gapFree : GapFree chunks
  decoded : List.Forall₂ (DecodesTo reader unitsize) chunks parts

/-- A piece the loop of `send` works on. -/
def IsPart (unitsize : Nat) (part : List UInt8) : Prop :=
  unitsize ∣ part.length ∧ part.length ≤ maxPayload

theorem pos_chunk {unitsize : Nat} (hUnit : 0 < unitsize) (hMax : unitsize ≤ maxPayload) :
    0 < maxPayload - maxPayload % unitsize :=
  Nat.sub_pos_of_lt (Nat.lt_of_lt_of_le (Nat.mod_lt _ hUnit) hMax)

theorem isPart_of_mem_chunks {unitsize : Nat} {packed part : List UInt8} (hUnit : 0 < unitsize)
    (hMax : unitsize ≤ maxPayload) (hWhole : unitsize ∣ packed.length)
    (hPart : part ∈ chunks (maxPayload - maxPayload % unitsize) packed) :
    IsPart unitsize part := by
  have hSize := pos_chunk hUnit hMax
  constructor
  · exact dvd_length_of_mem_chunks hSize (Nat.dvd_sub_mod maxPayload) hWhole hPart
  · exact Nat.le_trans (length_pos_of_mem_chunks hSize hPart).2 (Nat.sub_le _ _)

namespace StreamSender

/-- What one piece is encoded to decodes back to it, on whichever build reads it. -/
theorem encodePart_spec (build reader : Build) {sender : StreamSender} {part : List UInt8}
    (hEncoding : sender.encoding = .packed ∨ sender.encoding = .transition)
    (hPart : IsPart sender.unitsize part) :
    ∃ payload, sender.encodePart build part = .ok payload ∧
      DecodesTo reader sender.unitsize (sender.chunk part payload) part := by
  obtain ⟨hWhole, hMax⟩ := hPart
  have hShort : part.length < 2 ^ 63 := Nat.lt_of_le_of_lt hMax (by decide)
  have hCount : (UInt64.ofNat (part.length / sender.unitsize)).toNat =
      part.length / sender.unitsize := by
    rw [UInt64.toNat_ofNat', Nat.mod_eq_of_lt]
    exact Nat.lt_of_le_of_lt (Nat.div_le_self _ _) (Nat.lt_trans hShort (by decide))
  have hLength : ∀ payload, part.length =
      (sender.chunk part payload).sampleCount.toNat * sender.unitsize := by
    intro payload
    change _ = (UInt64.ofNat (part.length / sender.unitsize)).toNat * sender.unitsize
    rw [hCount, Nat.div_mul_cancel hWhole]
  rcases hEncoding with hEncoding | hEncoding
  · refine ⟨part, by rw [encodePart, hEncoding], ?_, hLength part⟩
    exact decodePayload_of_packed reader sender.unitsize (.inl rfl)
      (.inl (congrArg SampleEncoding.toI32 hEncoding))
  · have hEncode := encodeTransition_eq build sender.unitsize_pos
      (.inr (Nat.lt_trans hShort (by decide) : part.length < 2 ^ 64))
    refine ⟨_, by rw [encodePart, hEncoding]; exact hEncode, ?_, hLength _⟩
    rw [decodePayload_of_transition reader sender.unitsize (.inl rfl)
      (congrArg SampleEncoding.toI32 hEncoding)]
    change decodeTransition reader ((Foundation.RunLength.runs
      (chunksExact sender.unitsize part)).flatMap writeRun) sender.unitsize
      (UInt64.ofNat (part.length / sender.unitsize)).toNat = _
    rw [hCount, decodeTransition_runs reader sender.unitsize_pos hShort,
      Nat.div_mul_cancel hWhole, List.take_length]

end StreamSender

section
variable (reader : Build) (link : Link) (unitsize : Nat) (before : List Event)
  (parts todo : List (List UInt8))

/-- How a call that has `todo` to deliver leaves a sender that had delivered `parts`. -/
def Progress : StreamSender.Outcome → Prop
  | (.ok _, sender, events) =>
    ∃ chunks, Streamed reader unitsize before chunks (parts ++ todo) sender events
  | (.error (.error _), sender, events) => (∃ n e, link n = some e) ∧
    ∃ chunks done, Streamed reader unitsize before chunks (parts ++ done) sender events
  | (.error (.panic _), _, events) =>
    ∃ chunks, events.socket.delivered = before ++ chunks.map .data ∧ ¬ Fits chunks

end

section
variable {reader : Build} (link : Link) {unitsize : Nat} {before : List Event}
  {chunks : List CaptureData} {parts : List (List UInt8)} {sender : StreamSender} {events : Events}

/-- The counters move past the chunk, or the sum of what went out leaves a word. -/
theorem progress_advance (build : Build) {data : CaptureData} {part : List UInt8}
    (h : Streamed reader unitsize before chunks parts sender events)
    (hSeq : data.seq = sender.seq) (hFirst : data.firstSample = sender.firstSample)
    (hDecodes : DecodesTo reader unitsize data part) {after : Events}
    (hAfter : after.socket.delivered = events.socket.delivered ++ [.data data]) :
    Progress reader link unitsize before parts [part]
      (sender.advance build after data.sampleCount) := by
  have hSent : after.socket.delivered = before ++ (chunks ++ [data]).map .data := by
    rw [hAfter, h.delivered, List.map_append, List.append_assoc]
    rfl
  rw [StreamSender.advance]
  rcases addU64_cases Error build sender.seq 1 with hAdd | ⟨hFull, hAdd⟩
  · rcases addU64_cases Error build sender.firstSample data.sampleCount with
      hSum | ⟨hFull, hSum⟩
    · rw [hAdd]
      dsimp only
      rw [hSum]
      refine ⟨chunks ++ [data], h.unitsize_eq, h.encoding, hSent, ?_, ?_,
        h.gapFree.snoc (hSeq.trans h.seq) (hFirst.trans h.firstSample), ?_⟩
      · rw [List.length_append, List.length_singleton, ← ofNat_add_one, ← h.seq]
      · rw [totalSamples_append, totalSamples_singleton, UInt64.ofNat_add, ← h.firstSample,
          UInt64.ofNat_toNat]
      · exact List.rel_append h.decoded (.cons hDecodes .nil)
    · rw [hAdd]
      dsimp only
      rw [hSum]
      refine ⟨chunks ++ [data], hSent, ?_⟩
      rintro ⟨-, hTotal⟩
      have hMod := Nat.mod_le (totalSamples chunks) (2 ^ 64)
      rw [totalSamples_append, totalSamples_singleton] at hTotal
      rw [h.firstSample, UInt64.toNat_ofNat'] at hFull
      omega
  · rw [hAdd]
    refine ⟨chunks ++ [data], hSent, ?_⟩
    rintro ⟨hLength, -⟩
    have hMod := Nat.mod_le chunks.length (2 ^ 64)
    have hOne : (1 : UInt64).toNat = 1 := rfl
    rw [List.length_append, List.length_singleton] at hLength
    rw [h.seq, UInt64.toNat_ofNat'] at hFull
    omega

theorem progress_sendPart (build : Build) {part : List UInt8} (hPart : IsPart unitsize part)
    (h : Streamed reader unitsize before chunks parts sender events) :
    Progress reader link unitsize before parts [part] (sender.sendPart build link events part) := by
  obtain ⟨payload, hEncode, hDecodes⟩ :=
    StreamSender.encodePart_spec build reader h.encoding (h.unitsize_eq ▸ hPart)
  rw [h.unitsize_eq] at hDecodes
  rw [StreamSender.sendPart, hEncode]
  dsimp only
  cases hLink : link events.socket.attempts with
  | some e =>
    rw [Events.send_data_of_some hLink]
    refine ⟨⟨_, _, hLink⟩, chunks, [], ?_⟩
    rw [List.append_nil]
    exact ⟨h.unitsize_eq, h.encoding, h.delivered, h.seq, h.firstSample, h.gapFree, h.decoded⟩
  | none =>
    rw [Events.send_data_of_none hLink]
    exact progress_advance link build h rfl rfl hDecodes rfl

theorem progress_sendParts (build : Build) {todo : List (List UInt8)}
    (hTodo : ∀ part ∈ todo, IsPart unitsize part)
    (h : Streamed reader unitsize before chunks parts sender events) :
    Progress reader link unitsize before parts todo (sender.sendParts build link events todo) := by
  induction todo generalizing chunks parts sender events with
  | nil =>
    refine ⟨chunks, ?_⟩
    rw [List.append_nil]
    exact h
  | cons part todo ih =>
    have hHead := progress_sendPart link build (hTodo part List.mem_cons_self) h
    rw [StreamSender.sendParts]
    rcases hTurn : sender.sendPart build link events part with ⟨result, sender', events'⟩
    rw [hTurn] at hHead
    rcases result with (e | message) | ⟨⟩
    · exact hHead
    · exact hHead
    · obtain ⟨chunks', hNext⟩ := hHead
      have hRest := ih (fun p hp => hTodo p (List.mem_cons_of_mem _ hp)) hNext
      dsimp only
      rcases hLoop : sender'.sendParts build link events' todo with ⟨result, final⟩
      rw [hLoop] at hRest
      rcases result with (e | message) | ⟨⟩
      · obtain ⟨hLink, chunks'', done, hDone⟩ := hRest
        refine ⟨hLink, chunks'', [part] ++ done, ?_⟩
        rw [← List.append_assoc]
        exact hDone
      · exact hRest
      · rw [Progress, List.append_assoc] at hRest
        exact hRest

theorem progress_send (build : Build) {packed : List UInt8} (hMax : unitsize ≤ maxPayload)
    (hWhole : unitsize ∣ packed.length)
    (h : Streamed reader unitsize before chunks parts sender events) :
    ∃ todo, todo.flatten = packed ∧
      Progress reader link unitsize before parts todo (sender.send build link events packed) := by
  have hUnit : 0 < unitsize := h.unitsize_eq ▸ sender.unitsize_pos
  have hSize := pos_chunk hUnit hMax
  refine ⟨_, flatten_chunks hSize packed, ?_⟩
  rw [StreamSender.send, h.unitsize_eq, if_neg (Nat.ne_of_gt hSize)]
  exact progress_sendParts link build (fun part => isPart_of_mem_chunks hUnit hMax hWhole) h

end

section
variable (reader : Build) (link : Link) (unitsize : Nat) (before : List Event)
  (parts buffers : List (List UInt8))

/-- How a sequence of calls leaves the sender: every call returned, or a counter overflowed. -/
def RunProgress (run : List (Call Error Unit) × StreamSender × Events) : Prop :=
  (∃ chunks done, Streamed reader unitsize before chunks (parts ++ done) run.2.1 run.2.2 ∧
    run.1.length = buffers.length ∧
    (∀ result ∈ run.1, result = .ok () ∨ ∃ e, result = raise e) ∧
    ((∀ n, link n = none) → done.flatten = buffers.flatten)) ∨
  ∃ chunks, run.2.2.socket.delivered = before ++ chunks.map .data ∧ ¬ Fits chunks

end

section
variable {reader : Build} (link : Link) {unitsize : Nat} {before : List Event}
  {chunks : List CaptureData} {parts : List (List UInt8)} {sender : StreamSender} {events : Events}

theorem RunProgress.cons {packed : List UInt8} {buffers done : List (List UInt8)}
    {result : Call Error Unit} {run : List (Call Error Unit) × StreamSender × Events}
    (hResult : result = .ok () ∨ ∃ e, result = raise e)
    (hDone : (∀ n, link n = none) → done.flatten = packed)
    (h : RunProgress reader link unitsize before (parts ++ done) buffers run) :
    RunProgress reader link unitsize before parts (packed :: buffers) (result :: run.1, run.2) := by
  rcases h with ⟨chunks, more, hFinal, hLength, hResults, hAll⟩ | hOverflow
  · refine .inl ⟨chunks, done ++ more, ?_, congrArg Nat.succ hLength, ?_, ?_⟩
    · rw [← List.append_assoc]
      exact hFinal
    · intro r hr
      rcases List.mem_cons.mp hr with rfl | hr
      · exact hResult
      · exact hResults r hr
    · intro hLink
      rw [List.flatten_append, hDone hLink, hAll hLink, List.flatten_cons]
  · exact .inr hOverflow

theorem runProgress_sendAll (build : Build) {buffers : List (List UInt8)}
    (hMax : unitsize ≤ maxPayload) (hWhole : ∀ packed ∈ buffers, unitsize ∣ packed.length)
    (h : Streamed reader unitsize before chunks parts sender events) :
    RunProgress reader link unitsize before parts buffers
      (sender.sendAll build link events buffers) := by
  induction buffers generalizing chunks parts sender events with
  | nil =>
    refine .inl ⟨chunks, [], ?_, rfl, by simp [StreamSender.sendAll], fun _ => rfl⟩
    rw [List.append_nil]
    exact h
  | cons packed rest ih =>
    obtain ⟨todo, hTodo, hHead⟩ :=
      progress_send link build hMax (hWhole packed List.mem_cons_self) h
    have hRest := fun b hb => hWhole b (List.mem_cons_of_mem _ hb)
    rw [StreamSender.sendAll]
    rcases hCall : sender.send build link events packed with ⟨result, sender', events'⟩
    rw [hCall] at hHead
    rcases result with (e | message) | ⟨⟩
    · obtain ⟨⟨n, cause, hLink⟩, chunks', done, hNext⟩ := hHead
      refine (ih hRest hNext).cons link (.inr ⟨e, rfl⟩) fun hNone => ?_
      rw [hNone n] at hLink
      cases hLink
    · exact .inr hHead
    · obtain ⟨chunks', hNext⟩ := hHead
      exact (ih hRest hNext).cons link (.inl rfl) fun _ => hTodo

theorem streamed_new (reader : Build) {captureId acquisition : UInt64} {stream : UInt32} {fresh : StreamSender}
    (hNew : StreamSender.new captureId acquisition stream unitsize = .ok fresh)
    (runLength : Bool) (events : Events) :
    Streamed reader unitsize events.socket.delivered [] []
      (if runLength then fresh.transition else fresh) events := by
  rw [StreamSender.new] at hNew
  split at hNew
  · cases hNew
    refine ⟨?_, ?_, (List.append_nil _).symm, ?_, ?_, ?_, .nil⟩
    · cases runLength <;> rfl
    · cases runLength
      · exact .inl rfl
      · exact .inr rfl
    · cases runLength <;> rfl
    · cases runLength <;> rfl
    · intro i hi
      cases hi
  · cases hNew

end

/-- Whatever the link drops, the chunks that went out are numbered from zero without
a gap and each decodes to the samples it declares; if it drops none they carry
everything the sender was given. -/
theorem sendAll_lossless (build reader : Build) (link : Link) (captureId acquisition : UInt64)
    (stream : UInt32) (unitsize : Nat) (hUnit : 0 < unitsize) (hMax : unitsize ≤ maxPayload)
    (runLength : Bool) (events : Events) (buffers : List (List UInt8))
    (hWhole : ∀ packed ∈ buffers, unitsize ∣ packed.length) :
    ∃ fresh, StreamSender.new captureId acquisition stream unitsize = .ok fresh ∧
      ∃ results sender after chunks,
        (if runLength then fresh.transition else fresh).sendAll build link events buffers =
          (results, sender, after) ∧
        after.socket.delivered = events.socket.delivered ++ chunks.map .data ∧
        (Fits chunks →
          (results.length = buffers.length ∧
            ∀ result ∈ results, result = .ok () ∨ ∃ e, result = raise e) ∧
          (∀ i (h : i < chunks.length),
            chunks[i].seq.toNat = i ∧
            chunks[i].firstSample.toNat = totalSamples (chunks.take i) ∧
            ∃ bytes, decodePayload reader chunks[i] unitsize = .ok bytes ∧
              bytes.length = chunks[i].sampleCount.toNat * unitsize) ∧
          ((∀ n, link n = none) → decodeAll reader unitsize chunks = .ok buffers.flatten)) := by
  obtain ⟨fresh, hNew⟩ : ∃ fresh, StreamSender.new captureId acquisition stream unitsize =
      .ok fresh := ⟨_, dif_pos hUnit⟩
  have hRun := runProgress_sendAll link build hMax hWhole
    (streamed_new reader hNew runLength events)
  rcases hCalls : (if runLength then fresh.transition else fresh).sendAll build link events buffers
    with ⟨results, sender, after⟩
  rw [hCalls] at hRun
  refine ⟨fresh, hNew, results, sender, after, ?_⟩
  rcases hRun with ⟨chunks, parts, hFinal, hLength, hResults, hAll⟩ | ⟨chunks, hDelivered, hOver⟩
  · refine ⟨chunks, hCalls, hFinal.delivered, fun hFits => ⟨⟨hLength, hResults⟩, ?_, ?_⟩⟩
    · intro i hi
      obtain ⟨hSeq, hFirst⟩ := hFinal.gapFree.toNat hFits i hi
      obtain ⟨hSame, hParts⟩ := List.forall₂_iff_get.mp hFinal.decoded
      exact ⟨hSeq, hFirst, _, hParts i hi (hSame ▸ hi)⟩
    · intro hLink
      rw [decodeAll_eq hFinal.decoded, List.nil_append, hAll hLink]
  · exact ⟨chunks, hCalls, hDelivered, fun hFits => absurd hFits hOver⟩

theorem sendAll_lossless_two_chunks :
    decodeAll .optimised 2
        [⟨7, 0, 1, 0, 0, 2, 2, 1, 3, [2, 1, 2]⟩, ⟨7, 0, 1, 1, 2, 2, 2, 1, 3, [2, 5, 6]⟩] =
      .ok [1, 2, 1, 2, 5, 6, 5, 6] := by
  obtain ⟨fresh, hNew, results, sender, after, sent, hCalls, hDelivered, hLossless⟩ :=
    sendAll_lossless .checked .optimised (fun _ => none) 7 0 1 2 (by decide) (by decide) true
      (Events.new ⟨0, []⟩) [[1, 2, 1, 2], [5, 6, 5, 6]] (by decide)
  obtain rfl : ⟨7, 0, 1, 2, .packed, 0, 0, by decide⟩ = fresh := Except.ok.inj hNew
  have hRun : after.socket.delivered =
      [.data ⟨7, 0, 1, 0, 0, 2, 2, 1, 3, [2, 1, 2]⟩,
        .data ⟨7, 0, 1, 1, 2, 2, 2, 1, 3, [2, 5, 6]⟩] := by
    rw [← show _ = after from congrArg (·.2.2) hCalls]
    decide +kernel
  have hData : Function.Injective Event.data := fun _ _ => Event.data.inj
  obtain rfl : sent = [⟨7, 0, 1, 0, 0, 2, 2, 1, 3, [2, 1, 2]⟩,
      ⟨7, 0, 1, 1, 2, 2, 2, 1, 3, [2, 5, 6]⟩] :=
    List.map_injective_iff.mpr hData (hDelivered.symm.trans hRun)
  exact (hLossless ⟨by decide, by decide⟩).2.2 fun _ => rfl

end OpenMso.Server
