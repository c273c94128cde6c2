import OpenMso.Cpp.EncodingAgreement
import OpenMso.Server.Threads

/-! # Reading a capture off the event stream

`drain` of the session test, which is how a frontend puts the streams of a
capture together: whichever way the threads of the plugin interleave their
chunks, it ends up with what each of them sent.
-/

namespace OpenMso.Cpp

open Foundation.Machine Foundation.Runs Proto Server Transport

set_option autoImplicit false

/-- Why the reading of a capture stopped. -/
inductive DrainFailure where
  | recv
  | decode (fault : Fault Error)
  | check
  deriving DecidableEq, Repr

/-- The samples of each stream so far. -/
abbrev Streams := UInt32 → Option (List UInt8)

def Streams.append (streams : Streams) (stream : UInt32) (packed : List UInt8) : Streams :=
  Function.update streams stream (some ((streams stream).getD [] ++ packed))

/-- `unitsize` has the streams that `CaptureBegin` told of. -/
def drain (maxSize : Nat) (unitsize : UInt32 → Option Nat) (streams : Streams) :
    List Event → Except DrainFailure Streams
  | [] => .error .recv
  | .data data :: events =>
    let unit := (unitsize data.stream).getD 1
    match Encoding.decodePayload maxSize data unit with
    | .error fault => .error (.decode fault)
    | .ok packed =>
      if packed.length = data.sampleCount.toNat * unit % 2 ^ 64 then
        drain maxSize unitsize (streams.append data.stream packed) events
      else .error .check
  | .captureEnd ended :: _ => if ended.error.isSome then .error .check else .ok streams
  | _ :: events => drain maxSize unitsize streams events

/-- What was there, and the chunks of a stream behind it. -/
def gathered (bytes : CaptureData → List UInt8) (before : Option (List UInt8)) :
    List CaptureData → Option (List UInt8)
  | [] => before
  | chunks => some (before.getD [] ++ chunks.flatMap bytes)

theorem gathered_cons (bytes : CaptureData → List UInt8) (before : Option (List UInt8))
    (data : CaptureData) (chunks : List CaptureData) :
    gathered bytes (some (before.getD [] ++ bytes data)) chunks =
      gathered bytes before (data :: chunks) := by
  cases chunks <;> simp [gathered]

section
variable {maxSize : Nat} {unitsize : UInt32 → Option Nat} {bytes : CaptureData → List UInt8}

theorem drain_eq {ended : CaptureEnd} (hEnded : ended.error = none) (rest : List Event)
    {events : List Event} (hNoEnd : ∀ other, .captureEnd other ∉ events)
    (hDecodes : ∀ data, .data data ∈ events →
      Encoding.decodePayload maxSize data ((unitsize data.stream).getD 1) = .ok (bytes data) ∧
      (bytes data).length = data.sampleCount.toNat * (unitsize data.stream).getD 1 % 2 ^ 64)
    (streams : Streams) :
    drain maxSize unitsize streams (events ++ .captureEnd ended :: rest) =
      .ok fun stream => gathered bytes (streams stream) (chunksOf stream events) := by
  induction events generalizing streams with
  | nil =>
    rw [List.nil_append, drain, hEnded]
    rfl
  | cons event events ih =>
    have hNext := ih (fun other hMem => hNoEnd other (List.mem_cons_of_mem _ hMem))
      (fun data hMem => hDecodes data (List.mem_cons_of_mem _ hMem))
    cases event with
    | data data =>
      obtain ⟨hDecode, hSize⟩ := hDecodes data List.mem_cons_self
      rw [List.cons_append, drain, hDecode]
      change (if _ then _ else _) = _
      rw [if_pos hSize, hNext]
      congr 1
      funext stream
      rw [chunksOf, chunksOf, List.filterMap_cons, chunkOf, Streams.append]
      by_cases hSame : data.stream = stream
      · subst hSame
        rw [if_pos rfl, Function.update_self, gathered_cons]
      · rw [if_neg hSame, Function.update_of_ne (Ne.symm hSame)]
    | captureEnd other => exact absurd List.mem_cons_self (hNoEnd other)
    | _ => exact hNext streams

end

/-- What a sender has written both stacks decode to the same samples. -/
theorem decodePayload_of_plain {maxSize unitsize : Nat} (hMax : 2 ^ 62 ≤ maxSize + 1)
    {data : CaptureData} {part : List UInt8} (hPlain : Plain unitsize data)
    (hDecodes : DecodesTo .optimised unitsize data part) :
    Encoding.decodePayload maxSize data unitsize = .ok part ∧
      part.length = data.sampleCount.toNat * unitsize % 2 ^ 64 := by
  obtain ⟨hDecode, hLength⟩ := hDecodes
  have hCeiling : data.sampleCount.toNat * unitsize < 2 ^ 62 :=
    Nat.lt_of_le_of_lt hPlain.size (by decide)
  have hMod : data.sampleCount.toNat * unitsize % 2 ^ 64 = data.sampleCount.toNat * unitsize :=
    Nat.mod_eq_of_lt (Nat.lt_trans hCeiling (by decide))
  refine ⟨?_, hLength.trans hMod.symm⟩
  rcases hPlain.encoding with hEncoding | hEncoding
  · have hOther : data.encoding ≠ SampleEncoding.transition.toI32 := by
      rw [hEncoding]
      decide
    rw [OpenMso.Encoding.decodePayload_of_packed .optimised unitsize (.inl hPlain.codec)
      (.inl hEncoding)] at hDecode
    rw [Encoding.decodePayload_of_packed maxSize unitsize (.inl hPlain.codec) hOther]
    cases hDecode
    rfl
  · rw [OpenMso.Encoding.decodePayload_of_transition .optimised unitsize (.inl hPlain.codec)
      hEncoding] at hDecode
    rw [Encoding.decodePayload_of_transition maxSize unitsize (.inl hPlain.codec) hEncoding]
    refine toOption_eq_some_iff.mp ?_
    rw [Encoding.decodeTransition_agrees hMax data.payload (hMod.symm ▸ hCeiling), hDecode]
    rfl

theorem getD_gathered (bytes : CaptureData → List UInt8) (chunks : List CaptureData) :
    (gathered bytes none chunks).getD [] = chunks.flatMap bytes := by
  cases chunks with
  | nil => rfl
  | cons data chunks => rfl

theorem flatMap_eq_flatten {bytes : CaptureData → List UInt8} {chunks : List CaptureData}
    {parts : List (List UInt8)} (h : List.Forall₂ (fun data part => bytes data = part) chunks parts) :
    chunks.flatMap bytes = parts.flatten := by
  induction h with
  | nil => rfl
  | cons hHead _ ih => rw [List.flatMap_cons, List.flatten_cons, hHead, ih]

theorem exists_of_forall₂ {α β : Type} {R : α → β → Prop} {as : List α} {bs : List β} {a : α}
    (h : List.Forall₂ R as bs) (hMem : a ∈ as) : ∃ b, R a b := by
  induction h with
  | nil => cases hMem
  | cons hHead _ ih =>
    rcases List.mem_cons.mp hMem with rfl | hRest
    · exact ⟨_, hHead⟩
    · exact ih hRest

/-- Neither a chunk nor the end of a capture. -/
def IsAside (event : Event) : Prop := isData event = false ∧ ∀ ended, event ≠ .captureEnd ended

/-- The samples of a chunk, as the frontend decodes them. -/
def decoded (maxSize : Nat) (unitsize : UInt32 → Option Nat) (data : CaptureData) : List UInt8 :=
  (Encoding.decodePayload maxSize data ((unitsize data.stream).getD 1)).toOption.getD []

section
variable {ι : Type} [DecidableEq ι]

/-- However the threads of the plugin interleave, when every call of every thread has returned
without error, the streams are gap-free and the frontend that drains the capture has in each
stream what its thread sent. -/
theorem capture_reaches_frontend (build : Build) (link : Link) (maxSize : Nat)
    (hMaxSize : 2 ^ 62 ≤ maxSize + 1) (captureId acquisition : UInt64) (stream : ι → UInt32)
    (hStreams : Function.Injective stream) (unitsize : ι → Nat)
    (hMax : ∀ i, unitsize i ≤ maxPayload) (runLength : ι → Bool) (fresh : ι → StreamSender)
    (hNew : ∀ i, StreamSender.new captureId acquisition (stream i) (unitsize i) = .ok (fresh i))
    (buffers : ι → List (List UInt8)) (hWhole : ∀ i, ∀ packed ∈ buffers i, unitsize i ∣ packed.length)
    (events : Events) (pushers : List (Pusher ι)) (s : Threads ι)
    (hRun : run (Threads.step build link)
      (Threads.start (fun i => if runLength i then (fresh i).transition else fresh i) buffers events)
      pushers = some s)
    (hOthers : ∀ event, .other event ∈ pushers → IsAside event)
    (hDone : ∀ i, (s.feeds i).IsDone ∧ ∀ result ∈ (s.feeds i).results, result = .ok ())
    (units : UInt32 → Option Nat) (hUnits : ∀ i, units (stream i) = some (unitsize i)) :
    ∃ new, s.events.socket.delivered = events.socket.delivered ++ new ∧
      (∀ i, GapFree (chunksOf (stream i) new)) ∧
      ∀ rest, ∃ streams, drain maxSize units (fun _ => none)
          (new ++ .captureEnd ⟨captureId, none⟩ :: rest) = .ok streams ∧
        (∀ i, (streams (stream i)).getD [] = (buffers i).flatten) ∧
        ∀ other, (∀ i, stream i ≠ other) → streams other = none := by
  have hStart : Sharing .optimised stream unitsize buffers IsAside events.socket.delivered
      (Threads.start (fun i => if runLength i then (fresh i).transition else fresh i) buffers events) :=
    sharing_start (fun i => stream_of_new (hNew i) (runLength i))
      (fun i => streamed_new .optimised (hNew i) (runLength i) (view [])) hWhole
  have hMinds : ∀ pusher ∈ pushers, pusher.Minds IsAside := by
    intro pusher hMem
    cases pusher with
    | feed i => trivial
    | other event => exact ⟨(hOthers event hMem).1, hOthers event hMem⟩
  obtain ⟨new, hDelivered, hFeeds, hOnly⟩ := sharing_of_run hStreams hMax hMinds hStart hRun
  have hSent : ∀ i, ∃ done, Streamed .optimised (unitsize i) [] (chunksOf (stream i) new) done
      (s.feeds i).sender (view (chunksOf (stream i) new)) ∧ done.flatten = (buffers i).flatten := by
    intro i
    obtain ⟨⟨hParts, hBuffers⟩, hOk⟩ := hDone i
    obtain ⟨done, hStreamed, hAll⟩ := (hFeeds i).streamed fun message hPanic => by
      cases hOk _ hPanic
    have hTotal := hAll hOk
    rw [hParts, hBuffers] at hTotal
    exact ⟨done, hStreamed, by simpa using hTotal⟩
  have hPart : ∀ i data part, data ∈ chunksOf (stream i) new →
      DecodesTo .optimised (unitsize i) data part → decoded maxSize units data = part ∧
      Encoding.decodePayload maxSize data ((units data.stream).getD 1) =
        .ok (decoded maxSize units data) ∧
      (decoded maxSize units data).length =
        data.sampleCount.toNat * (units data.stream).getD 1 % 2 ^ 64 := by
    intro i data part hMem hDecodes
    obtain ⟨hDecode, hLength⟩ :=
      decodePayload_of_plain hMaxSize ((hFeeds i).plain data hMem) hDecodes
    rw [decoded, (mem_chunksOf_iff.mp hMem).2, hUnits, Option.getD_some, hDecode]
    exact ⟨rfl, rfl, hLength⟩
  have hDecodes : ∀ data, .data data ∈ new →
      Encoding.decodePayload maxSize data ((units data.stream).getD 1) =
        .ok (decoded maxSize units data) ∧
      (decoded maxSize units data).length =
        data.sampleCount.toNat * (units data.stream).getD 1 % 2 ^ 64 := by
    intro data hMem
    rcases hOnly _ hMem with ⟨hData, -⟩ | ⟨i, other, hSame, hStream⟩
    · cases hData
    · cases hSame
      have hOwn := mem_chunksOf_iff.mpr ⟨hMem, hStream⟩
      obtain ⟨done, hStreamed, -⟩ := hSent i
      obtain ⟨part, hPartOf⟩ := exists_of_forall₂ hStreamed.decoded hOwn
      exact (hPart i data part hOwn hPartOf).2
  have hNoEnd : ∀ other, .captureEnd other ∉ new := by
    intro other hMem
    rcases hOnly _ hMem with ⟨-, hNot⟩ | ⟨i, data, hSame, -⟩
    · exact hNot other rfl
    · cases hSame
  refine ⟨new, hDelivered, fun i => ?_, fun rest => ⟨_, drain_eq rfl rest hNoEnd hDecodes _, ?_, ?_⟩⟩
  · obtain ⟨done, hStreamed, -⟩ := hSent i
    exact hStreamed.gapFree
  · intro i
    obtain ⟨done, hStreamed, hAll⟩ := hSent i
    rw [getD_gathered, ← hAll]
    have hOwn := (List.forall₂_and_left _ _).mpr ⟨fun _ hMem => hMem, hStreamed.decoded⟩
    exact flatMap_eq_flatten (hOwn.imp fun data part h => (hPart i data part h.1 h.2).1)
  · intro other hOther
    have hNone : chunksOf other new = [] := by
      refine List.eq_nil_iff_forall_not_mem.mpr fun data hMem => ?_
      obtain ⟨hNew, hStream⟩ := mem_chunksOf_iff.mp hMem
      rcases hOnly _ hNew with ⟨hData, -⟩ | ⟨i, data', hSame, hOwner⟩
      · cases hData
      · cases hSame
        exact hOther i (hOwner.symm.trans hStream)
    rw [hNone]
    rfl

end

namespace TwoStreams

def stream (i : Bool) : UInt32 := if i then 2 else 1

def unitsize (i : Bool) : Nat := if i then 1 else 2

def fresh (i : Bool) : StreamSender :=
  ⟨7, 0, stream i, unitsize i, .packed, 0, 0, by cases i <;> decide⟩

def buffers (i : Bool) : List (List UInt8) := if i then [[9, 9, 9], [8]] else [[1, 2, 3, 4]]

/-- The second stream is the run-length one. -/
def threads : Threads Bool :=
  .start (fun i => if i then (fresh i).transition else fresh i) buffers (.new ⟨0, []⟩)

def pushers : List (Pusher Bool) :=
  [.feed true, .feed false, .feed true, .other (.log 3 "halfway"), .feed true, .feed false,
    .feed true, .feed false, .feed true, .feed true]

end TwoStreams

open TwoStreams in
/-- Two threads take turns, one of them with two buffers, and a message comes in between. -/
theorem capture_reaches_frontend_two_threads :
    ∃ s, run (Threads.step .checked fun _ => none) threads pushers = some s ∧
      ∃ streams, drain (2 ^ 63) (fun id => if id = 1 then some 2 else some 1) (fun _ => none)
          (s.events.socket.delivered ++ [.captureEnd ⟨7, none⟩]) = .ok streams ∧
        (streams 1).getD [] = [1, 2, 3, 4] ∧ (streams 2).getD [] = [9, 9, 9, 8] ∧
        streams 3 = none := by
  obtain ⟨s, hRun⟩ := Option.isSome_iff_exists.mp
    (by decide +kernel : (run (Threads.step .checked fun _ => none) threads pushers).isSome)
  have hFeeds : ∀ i, (run (Threads.step .checked fun _ => none) threads pushers).map
      (fun s => ((s.feeds i).parts, (s.feeds i).buffers, (s.feeds i).results.map Except.toOption)) =
        some (none, [], (buffers i).map fun _ => some ()) := by
    intro i
    cases i <;> decide +kernel
  have hDone : ∀ i, (s.feeds i).IsDone ∧ ∀ result ∈ (s.feeds i).results, result = .ok () := by
    intro i
    have hFeed := hFeeds i
    rw [hRun, Option.map_some, Option.some_inj, Prod.mk.injEq, Prod.mk.injEq] at hFeed
    obtain ⟨hParts, hBuffers, hResults⟩ := hFeed
    refine ⟨⟨hParts, hBuffers⟩, fun result hMem => toOption_eq_some_iff.mp ?_⟩
    obtain ⟨_, -, hSame⟩ := List.mem_map.mp (hResults ▸ List.mem_map_of_mem hMem)
    exact hSame.symm
  have hOthers : ∀ event, .other event ∈ pushers → IsAside event := by
    intro event hMem
    obtain rfl : event = .log 3 "halfway" := by simpa [pushers] using hMem
    exact ⟨rfl, by rintro _ ⟨⟩⟩
  obtain ⟨new, hNew, -, hDrain⟩ := capture_reaches_frontend .checked (fun _ => none) (2 ^ 63)
    (by decide) 7 0 stream (by unfold Function.Injective; decide) unitsize (by decide) id fresh
    (fun i => by cases i <;> rfl) buffers (by decide) (.new ⟨0, []⟩) pushers s hRun hOthers hDone
    (fun id => if id = 1 then some 2 else some 1) (by decide)
  obtain ⟨streams, hStreams, hAll, hNone⟩ := hDrain []
  have hDelivered : s.events.socket.delivered = new := hNew
  rw [← hDelivered] at hStreams
  exact ⟨s, hRun, streams, hStreams, hAll false, hAll true, hNone 3 (by decide)⟩

end OpenMso.Cpp
