import Mathlib.Logic.Function.Basic
import OpenMso.Foundation.Runs
import OpenMso.Server.Streaming

/-! # Acquisition threads that share the event stream

Each thread feeds the sender of one stream; a turn of it pushes one chunk at
most. Between any two turns other threads may push. On its own a thread does
what `sendAll` does, and among others its stream is the same.
-/

namespace OpenMso.Server

open Foundation.Machine Foundation.Chunks Foundation.Runs Encoding Transport Proto

set_option autoImplicit false

/-- A thread between its turns: the pieces left of the call under way, and the calls to come. -/
structure Feed where
  sender : StreamSender
  parts : Option (List (List UInt8))
  buffers : List (List UInt8)
  results : List (Call Error Unit)

namespace Feed

def start (sender : StreamSender) (buffers : List (List UInt8)) : Feed := ⟨sender, none, buffers, []⟩

def panics : Call Error Unit → Bool
  | .error (.panic _) => true
  | _ => false

/-- The call under way ends; after a panic there is no other. -/
def finish (feed : Feed) (result : Call Error Unit) : Feed where
  sender := feed.sender
  parts := none
  buffers := if panics result then [] else feed.buffers
  results := feed.results ++ [result]

def turn (build : Build) (link : Link) (feed : Feed) (events : Events) : Option (Feed × Events) :=
  match feed.parts, feed.buffers with
  | none, [] => none
  | none, packed :: buffers =>
    let chunk := maxPayload - maxPayload % feed.sender.unitsize
    if chunk = 0 then
      some ({ feed with buffers }.finish (.error (.panic "chunk size must be non-zero")), events)
    else some ({ feed with parts := some (chunks chunk packed), buffers }, events)
  | some [], _ => some (feed.finish (.ok ()), events)
  | some (part :: parts), _ =>
    match feed.sender.sendPart build link events part with
    | (.ok (), sender, events) => some ({ feed with sender, parts := some parts }, events)
    | (result, sender, events) => some ({ feed with sender }.finish result, events)

/-- The thread has made its last call. -/
def IsDone (feed : Feed) : Prop := feed.parts = none ∧ feed.buffers = []

/-- The turns of a thread that is left alone. -/
def alone (build : Build) (link : Link) (s : Feed × Events) (_ : Unit) : Option (Feed × Events) :=
  s.1.turn build link s.2

variable (build : Build) (link : Link)

theorem alone_sendParts (feed : Feed) (events : Events) (todo : List (List UInt8)) : ∃ n,
    run (alone build link) ({ feed with parts := some todo }, events) (List.replicate n ()) =
      some ({ feed with sender := (feed.sender.sendParts build link events todo).2.1 }.finish
        (feed.sender.sendParts build link events todo).1,
        (feed.sender.sendParts build link events todo).2.2) := by
  induction todo generalizing feed events with
  | nil => exact ⟨1, rfl⟩
  | cons part todo ih =>
    rcases hPart : feed.sender.sendPart build link events part with ⟨result, sender, after⟩
    rw [StreamSender.sendParts, hPart]
    rcases result with fault | ⟨⟩
    · refine ⟨1, ?_⟩
      rw [List.replicate_one, run_cons, alone, turn]
      dsimp only
      rw [hPart]
      rfl
    · obtain ⟨n, hRest⟩ := ih { feed with sender } after
      refine ⟨n + 1, ?_⟩
      rw [List.replicate_succ, run_cons, alone, turn]
      dsimp only
      rw [hPart]
      exact hRest

/-- One call, from its first turn to its last. -/
theorem alone_send (sender : StreamSender) (packed : List UInt8) (rest : List (List UInt8))
    (results : List (Call Error Unit)) (events : Events) : ∃ n,
    run (alone build link) (⟨sender, none, packed :: rest, results⟩, events) (List.replicate n ()) =
      some (finish ⟨(sender.send build link events packed).2.1, none, rest, results⟩
        (sender.send build link events packed).1, (sender.send build link events packed).2.2) := by
  rw [StreamSender.send]
  by_cases hChunk : maxPayload - maxPayload % sender.unitsize = 0
  · refine ⟨1, ?_⟩
    rw [if_pos hChunk, List.replicate_one, run_cons, alone, turn]
    dsimp only
    rw [if_pos hChunk]
    rfl
  · obtain ⟨n, hParts⟩ := alone_sendParts build link ⟨sender, none, rest, results⟩ events
      (chunks (maxPayload - maxPayload % sender.unitsize) packed)
    refine ⟨n + 1, ?_⟩
    rw [if_neg hChunk, List.replicate_succ, run_cons, alone, turn]
    dsimp only
    rw [if_neg hChunk]
    exact hParts

/-- A thread that is left alone does what successive calls of `send` do. -/
theorem alone_sendAll (sender : StreamSender) (buffers : List (List UInt8))
    (results : List (Call Error Unit)) (events : Events) : ∃ n,
    run (alone build link) (⟨sender, none, buffers, results⟩, events) (List.replicate n ()) =
      some (⟨(sender.sendAll build link events buffers).2.1, none, [],
        results ++ (sender.sendAll build link events buffers).1⟩,
        (sender.sendAll build link events buffers).2.2) := by
  induction buffers generalizing sender results events with
  | nil =>
    refine ⟨0, ?_⟩
    rw [StreamSender.sendAll, List.append_nil]
    rfl
  | cons packed rest ih =>
    obtain ⟨n, hSend⟩ := alone_send build link sender packed rest results events
    rw [StreamSender.sendAll]
    rcases hCall : sender.send build link events packed with ⟨result, sender', events'⟩
    rw [hCall] at hSend
    cases hPanics : panics result with
    | true =>
      rcases result with (e | message) | ⟨⟩
      · cases hPanics
      · exact ⟨n, hSend⟩
      · cases hPanics
    | false =>
      obtain ⟨m, hRest⟩ := ih sender' (results ++ [result]) events'
      refine ⟨n + m, ?_⟩
      rw [List.replicate_add, run_append, hSend, Option.bind_some, finish, hPanics]
      rcases result with (e | message) | ⟨⟩
      · rw [List.append_assoc] at hRest
        exact hRest
      · cases hPanics
      · rw [List.append_assoc] at hRest
        exact hRest

end Feed

/-- All threads of the plugin, and the one socket that they push on. -/
structure Threads (ι : Type) where
  feeds : ι → Feed
  events : Events

/-- Whose turn it is. -/
inductive Pusher (ι : Type) where
  | feed (i : ι)
  /-- Someone else pushes an event. -/
  | other (event : Event)

/-- The chunk of this stream that the event brings. -/
def chunkOf (stream : UInt32) : Event → Option CaptureData
  | .data data => if data.stream = stream then some data else none
  | _ => none

def chunksOf (stream : UInt32) (events : List Event) : List CaptureData :=
  events.filterMap (chunkOf stream)

def isData : Event → Bool
  | .data _ => true
  | _ => false

namespace Threads

variable {ι : Type} [DecidableEq ι]

def step (build : Build) (link : Link) (s : Threads ι) : Pusher ι → Option (Threads ι)
  | .feed i => ((s.feeds i).turn build link s.events).map fun (feed, events) =>
      ⟨Function.update s.feeds i feed, events⟩
  | .other event => some { s with events := (s.events.send link event).2 }

def start (sender : ι → StreamSender) (buffers : ι → List (List UInt8)) (events : Events) :
    Threads ι :=
  ⟨fun i => .start (sender i) (buffers i), events⟩

end Threads

@[simp] theorem chunksOf_append (stream : UInt32) (events more : List Event) :
    chunksOf stream (events ++ more) = chunksOf stream events ++ chunksOf stream more :=
  List.filterMap_append

theorem chunksOf_of_same {stream : UInt32} {chunks : List CaptureData}
    (h : ∀ data ∈ chunks, data.stream = stream) : chunksOf stream (chunks.map .data) = chunks := by
  induction chunks with
  | nil => rfl
  | cons data chunks ih =>
    obtain ⟨hData, hRest⟩ := List.forall_mem_cons.mp h
    rw [List.map_cons, chunksOf, List.filterMap_cons, chunkOf, if_pos hData]
    exact congrArg _ (ih hRest)

theorem chunksOf_of_other {stream : UInt32} {chunks : List CaptureData}
    (h : ∀ data ∈ chunks, data.stream ≠ stream) : chunksOf stream (chunks.map .data) = [] := by
  induction chunks with
  | nil => rfl
  | cons data chunks ih =>
    obtain ⟨hData, hRest⟩ := List.forall_mem_cons.mp h
    rw [List.map_cons, chunksOf, List.filterMap_cons, chunkOf, if_neg hData]
    exact ih hRest

/-- What a sender writes: no codec, an encoding that every decoder knows and one piece at most. -/
structure Plain (unitsize : Nat) (data : CaptureData) : Prop where
  codec : data.codec = Codec.none.toI32
  encoding : data.encoding = SampleEncoding.packed.toI32 ∨
    data.encoding = SampleEncoding.transition.toI32
  size : data.sampleCount.toNat * unitsize ≤ maxPayload

theorem plain_chunk {sender : StreamSender} {part : List UInt8} (payload : List UInt8)
    (hEncoding : sender.encoding = .packed ∨ sender.encoding = .transition)
    (hPart : IsPart sender.unitsize part) : Plain sender.unitsize (sender.chunk part payload) where
  codec := rfl
  encoding := hEncoding.imp (congrArg SampleEncoding.toI32) (congrArg SampleEncoding.toI32)
  size := by
    calc (UInt64.ofNat (part.length / sender.unitsize)).toNat * sender.unitsize
        ≤ part.length / sender.unitsize * sender.unitsize := by
          rw [UInt64.toNat_ofNat']
          exact Nat.mul_le_mul_right _ (Nat.mod_le _ _)
      _ ≤ part.length := Nat.div_mul_le_self _ _
      _ ≤ maxPayload := hPart.2

theorem mem_chunksOf_iff {stream : UInt32} {events : List Event} {data : CaptureData} :
    data ∈ chunksOf stream events ↔ .data data ∈ events ∧ data.stream = stream := by
  rw [chunksOf, List.mem_filterMap]
  constructor
  · rintro ⟨event, hMem, hChunk⟩
    cases event with
    | data other =>
      rw [chunkOf, Option.ite_none_right_eq_some] at hChunk
      obtain ⟨hStream, hSame⟩ := hChunk
      cases hSame
      exact ⟨hMem, hStream⟩
    | _ => cases hChunk
  · rintro ⟨hMem, hStream⟩
    exact ⟨_, hMem, if_pos hStream⟩

theorem data_injective : Function.Injective Event.data := fun _ _ => Event.data.inj

section
variable (build : Build) (link link' : Link)

/-- A turn of the loop looks at nothing of the event stream but what the link does, and adds
to it at most. -/
theorem sendPart_view (sender : StreamSender) (events view : Events) (part : List UInt8)
    (hLink : link events.socket.attempts = link' view.socket.attempts) :
    ∃ sent : List CaptureData,
      (∀ data ∈ sent, ∃ payload, data = sender.chunk part payload) ∧
      (sender.sendPart build link events part).2.1.stream = sender.stream ∧
      (sender.sendPart build link events part).1 = (sender.sendPart build link' view part).1 ∧
      (sender.sendPart build link events part).2.1 = (sender.sendPart build link' view part).2.1 ∧
      (sender.sendPart build link events part).2.2.socket.delivered =
        events.socket.delivered ++ sent.map .data ∧
      (sender.sendPart build link' view part).2.2.socket.delivered =
        view.socket.delivered ++ sent.map .data := by
  rw [StreamSender.sendPart, StreamSender.sendPart]
  cases sender.encodePart build part with
  | error fault => exact ⟨[], by simp, rfl, rfl, rfl, by simp, by simp⟩
  | ok payload =>
    dsimp only
    cases hFails : link events.socket.attempts with
    | some e =>
      rw [Events.send_data_of_some hFails, Events.send_data_of_some (hLink.symm.trans hFails)]
      exact ⟨[], by simp, rfl, rfl, rfl, by simp, by simp⟩
    | none =>
      rw [Events.send_data_of_none hFails, Events.send_data_of_none (hLink.symm.trans hFails)]
      dsimp only
      rw [StreamSender.advance, StreamSender.advance]
      refine ⟨[sender.chunk part payload], by simp, ?_⟩
      cases addU64 build sender.seq 1 with
      | error fault => exact ⟨rfl, rfl, rfl, rfl, rfl⟩
      | ok seq =>
        dsimp only
        cases addU64 build sender.firstSample (sender.chunk part payload).sampleCount with
        | error fault => exact ⟨rfl, rfl, rfl, rfl, rfl⟩
        | ok firstSample => exact ⟨rfl, rfl, rfl, rfl, rfl⟩

end

/-- The event stream of a thread that has pushed these chunks and is alone. -/
def view (own : List CaptureData) : Events := Events.new ⟨0, own.map .data⟩

/-- What a thread keeps true of the chunks of its stream, `all` being what it has to send. -/
structure Feeding (reader : Build) (stream : UInt32) (unitsize : Nat) (all : List (List UInt8))
    (feed : Feed) (own : List CaptureData) : Prop where
  stream : feed.sender.stream = stream
  whole : ∀ packed ∈ feed.buffers, unitsize ∣ packed.length
  parts : ∀ todo, feed.parts = some todo → ∀ part ∈ todo, IsPart unitsize part
  plain : ∀ data ∈ own, Plain unitsize data
  stopped : ∀ message, .error (.panic message) ∈ feed.results → feed.IsDone
  streamed : (∀ message, .error (.panic message) ∉ feed.results) →
    ∃ done, Streamed reader unitsize [] own done feed.sender (view own) ∧
      ((∀ result ∈ feed.results, result = .ok ()) →
        done.flatten ++ (feed.parts.getD []).flatten ++ feed.buffers.flatten = all.flatten)

section
variable {reader build : Build} {link : Link} {stream : UInt32} {unitsize : Nat}
  {all : List (List UInt8)} {feed feed' : Feed} {own : List CaptureData} {events events' : Events}

theorem Feeding.not_panicked (h : Feeding reader stream unitsize all feed own)
    (hGoes : ¬ feed.IsDone) (message : String) : .error (.panic message) ∉ feed.results :=
  fun hPanic => hGoes (h.stopped message hPanic)

/-- The call under way returns, after these chunks. -/
theorem Feeding.finish (h : Feeding reader stream unitsize all feed own) (hGoes : ¬ feed.IsDone)
    {sender : StreamSender} {sent : List CaptureData} {result : Call Error Unit}
    (hStream : sender.stream = stream) (hPlain : ∀ data ∈ sent, Plain unitsize data)
    (hStreamed : Feed.panics result = false → ∃ done,
      Streamed reader unitsize [] (own ++ sent) done sender (view (own ++ sent)) ∧
        (result = .ok () → (∀ result ∈ feed.results, result = .ok ()) →
          done.flatten ++ feed.buffers.flatten = all.flatten)) :
    Feeding reader stream unitsize all ({ feed with sender }.finish result) (own ++ sent) where
  stream := hStream
  whole := by
    intro packed hMem
    rw [Feed.finish] at hMem
    cases hPanics : Feed.panics result with
    | true => simp [hPanics] at hMem
    | false =>
      rw [hPanics] at hMem
      exact h.whole packed hMem
  parts := by rintro todo ⟨⟩
  plain := List.forall_mem_append.mpr ⟨h.plain, hPlain⟩
  stopped := by
    intro message hMem
    rcases List.mem_append.mp hMem with hOld | hNew
    · exact absurd hOld (h.not_panicked hGoes message)
    · cases List.mem_singleton.mp hNew
      exact ⟨rfl, rfl⟩
  streamed := by
    intro hNone
    have hPanics : Feed.panics result = false := by
      rcases result with (e | message) | ⟨⟩
      · rfl
      · exact absurd (List.mem_append_right _ List.mem_cons_self) (hNone message)
      · rfl
    obtain ⟨done, hDone, hAll⟩ := hStreamed hPanics
    refine ⟨done, hDone, fun hOk => ?_⟩
    have hOld := hAll (hOk result (List.mem_append_right _ List.mem_cons_self)) fun r hr =>
      hOk r (List.mem_append_left _ hr)
    rw [Feed.finish, hPanics]
    simpa using hOld

theorem Feeding.turn (hMax : unitsize ≤ maxPayload) (h : Feeding reader stream unitsize all feed own)
    (hTurn : feed.turn build link events = some (feed', events')) : ∃ sent : List CaptureData,
      events'.socket.delivered = events.socket.delivered ++ sent.map .data ∧
      (∀ data ∈ sent, data.stream = stream) ∧
      Feeding reader stream unitsize all feed' (own ++ sent) := by
  obtain ⟨sender, parts, buffers, results⟩ := feed
  rcases parts with _ | (_ | ⟨part, parts⟩)
  · cases buffers with
    | nil => cases hTurn
    | cons packed buffers =>
      have hGoes : ¬ Feed.IsDone ⟨sender, none, packed :: buffers, results⟩ := by
        rintro ⟨-, ⟨⟩⟩
      obtain ⟨done, hDone, hAll⟩ := h.streamed (h.not_panicked hGoes)
      have hUnit : 0 < unitsize := hDone.unitsize_eq ▸ sender.unitsize_pos
      have hSize := pos_chunk hUnit hMax
      rw [Feed.turn] at hTurn
      dsimp only at hTurn
      rw [hDone.unitsize_eq, if_neg (Nat.ne_of_gt hSize)] at hTurn
      cases hTurn
      obtain ⟨hWhole, hRest⟩ := List.forall_mem_cons.mp h.whole
      refine ⟨[], by simp, by simp, h.stream, hRest, ?_, by simpa using h.plain, ?_, ?_⟩
      · rintro todo ⟨⟩ part hPart
        exact isPart_of_mem_chunks hUnit hMax hWhole hPart
      · exact fun message hPanic => absurd hPanic (h.not_panicked hGoes message)
      · intro _
        rw [List.append_nil]
        refine ⟨done, hDone, fun hOk => ?_⟩
        have hSame := hAll hOk
        rw [Option.getD_some, flatten_chunks hSize]
        simpa using hSame
  · have hGoes : ¬ Feed.IsDone ⟨sender, some [], buffers, results⟩ := by
      rintro ⟨⟨⟩, -⟩
    cases hTurn
    refine ⟨[], by simp, by simp, h.finish hGoes h.stream (by simp) fun _ => ?_⟩
    obtain ⟨done, hDone, hAll⟩ := h.streamed (h.not_panicked hGoes)
    rw [List.append_nil]
    refine ⟨done, hDone, fun _ hOk => ?_⟩
    have hSame := hAll hOk
    simpa using hSame
  · have hGoes : ¬ Feed.IsDone ⟨sender, some (part :: parts), buffers, results⟩ := by
      rintro ⟨⟨⟩, -⟩
    obtain ⟨done, hDone, hAll⟩ := h.streamed (h.not_panicked hGoes)
    obtain ⟨hPart, hParts⟩ := List.forall_mem_cons.mp (h.parts _ rfl)
    have hProgress := progress_sendPart (fun _ => link events.socket.attempts) build hPart hDone
    obtain ⟨sent, hOwner, hStream, hResult, hSender, hDelivered, hView⟩ := sendPart_view build link
      (fun _ => link events.socket.attempts) sender events (view own) part rfl
    have hOwn : (sender.sendPart build (fun _ => link events.socket.attempts) (view own)
        part).2.2.socket.delivered = (own ++ sent).map .data := by
      rw [hView, List.map_append]
      rfl
    rcases hCall : sender.sendPart build link events part with ⟨result, sender', after⟩
    rcases hSolo : sender.sendPart build (fun _ => link events.socket.attempts) (view own) part
      with ⟨result', sender'', after'⟩
    rw [hCall] at hStream hResult hSender hDelivered
    rw [hSolo] at hResult hSender hOwn hProgress
    obtain rfl : result = result' := hResult
    obtain rfl : sender' = sender'' := hSender
    rw [Feed.turn] at hTurn
    dsimp only at hTurn
    rw [hCall] at hTurn
    have hSent : ∀ {chunks done}, Streamed reader unitsize [] chunks done sender' after' →
        Streamed reader unitsize [] (own ++ sent) done sender' (view (own ++ sent)) := by
      intro chunks done' hNext
      have hChunks : chunks = own ++ sent :=
        List.map_injective_iff.mpr data_injective (hNext.delivered.symm.trans hOwn)
      subst hChunks
      exact ⟨hNext.unitsize_eq, hNext.encoding, rfl, hNext.seq, hNext.firstSample, hNext.gapFree,
        hNext.decoded⟩
    have hPlain : ∀ data ∈ sent, Plain unitsize data := by
      intro data hMem
      obtain ⟨payload, rfl⟩ := hOwner data hMem
      rw [← hDone.unitsize_eq] at hPart ⊢
      exact plain_chunk payload hDone.encoding hPart
    have hSame : ∀ data ∈ sent, data.stream = stream := by
      intro data hMem
      obtain ⟨payload, rfl⟩ := hOwner data hMem
      exact h.stream
    refine ⟨sent, ?_⟩
    rcases result with (e | message) | ⟨⟩
    · cases hTurn
      obtain ⟨-, chunks, more, hNext⟩ := hProgress
      refine ⟨hDelivered, hSame, h.finish hGoes (hStream.trans h.stream) hPlain fun _ =>
        ⟨_, hSent hNext, ?_⟩⟩
      rintro ⟨⟩
    · cases hTurn
      refine ⟨hDelivered, hSame, h.finish hGoes (hStream.trans h.stream) hPlain ?_⟩
      rintro ⟨⟩
    · cases hTurn
      obtain ⟨chunks, hNext⟩ := hProgress
      refine ⟨hDelivered, hSame, hStream.trans h.stream, h.whole, ?_,
        List.forall_mem_append.mpr ⟨h.plain, hPlain⟩, ?_, fun _ => ⟨_, hSent hNext, fun hOk => ?_⟩⟩
      · rintro todo ⟨⟩
        exact hParts
      · exact fun message hPanic => absurd hPanic (h.not_panicked hGoes message)
      · have hTotal := hAll hOk
        simpa using hTotal

end

theorem stream_of_new {captureId acquisition : UInt64} {id : UInt32} {unit : Nat}
    {fresh : StreamSender} (hNew : StreamSender.new captureId acquisition id unit = .ok fresh)
    (runLength : Bool) : (if runLength then fresh.transition else fresh).stream = id := by
  rw [StreamSender.new] at hNew
  split at hNew
  · cases hNew
    cases runLength <;> rfl
  · cases hNew

theorem delivered_send (link : Link) (events : Events) (event : Event) :
    (events.send link event).2.socket.delivered = events.socket.delivered ∨
      (events.send link event).2.socket.delivered = events.socket.delivered ++ [event] := by
  rw [Events.send, Events.push, Events.socket_noteEnd]
  cases hLink : link events.socket.attempts with
  | some e =>
    rw [send_of_some hLink]
    exact .inl rfl
  | none =>
    rw [send_of_none hLink]
    exact .inr rfl

section
variable {ι : Type} (reader : Build) (stream : ι → UInt32) (unitsize : ι → Nat)
  (all : ι → List (List UInt8)) (Other : Event → Prop) (before : List Event)

/-- Every stream is as its thread alone would make it, and there is nothing else among what
was pushed but what `Other` allows. -/
def Sharing (s : Threads ι) : Prop :=
  ∃ new, s.events.socket.delivered = before ++ new ∧
    (∀ i, Feeding reader (stream i) (unitsize i) (all i) (s.feeds i) (chunksOf (stream i) new)) ∧
    ∀ event ∈ new, Other event ∨ ∃ i data, event = .data data ∧ data.stream = stream i

/-- Other pushers bring no chunks. -/
def Pusher.Minds : Pusher ι → Prop
  | .feed _ => True
  | .other event => isData event = false ∧ Other event

end

section
variable {ι : Type} [DecidableEq ι] {reader build : Build} {link : Link} {stream : ι → UInt32}
  {unitsize : ι → Nat} {all : ι → List (List UInt8)} {Other : Event → Prop} {before : List Event}
  {s t : Threads ι}

theorem Sharing.step (hStreams : Function.Injective stream) (hMax : ∀ i, unitsize i ≤ maxPayload)
    {pusher : Pusher ι} (hMinds : pusher.Minds Other)
    (h : Sharing reader stream unitsize all Other before s)
    (hStep : s.step build link pusher = some t) : Sharing reader stream unitsize all Other before t := by
  obtain ⟨new, hDelivered, hFeeds, hOnly⟩ := h
  cases pusher with
  | feed i =>
    obtain ⟨⟨feed, events⟩, hTurn, rfl⟩ := Option.map_eq_some_iff.mp hStep
    obtain ⟨sent, hSent, hOwner, hNext⟩ := (hFeeds i).turn (hMax i) hTurn
    refine ⟨new ++ sent.map .data, ?_, ?_, ?_⟩
    · rw [hSent, hDelivered, List.append_assoc]
    · intro j
      dsimp only
      rw [chunksOf_append]
      by_cases hSame : j = i
      · subst hSame
        rw [Function.update_self, chunksOf_of_same hOwner]
        exact hNext
      · have hForeign : chunksOf (stream j) (sent.map .data) = [] := by
          refine chunksOf_of_other fun data hMem hEq => hSame (hStreams ?_)
          exact hEq.symm.trans (hOwner data hMem)
        rw [Function.update_of_ne hSame, hForeign, List.append_nil]
        exact hFeeds j
    · intro event hMem
      rcases List.mem_append.mp hMem with hOld | hNew
      · exact hOnly event hOld
      · obtain ⟨data, hData, rfl⟩ := List.mem_map.mp hNew
        exact .inr ⟨i, data, rfl, hOwner data hData⟩
  | other event =>
    cases hStep
    obtain ⟨hData, hOther⟩ := hMinds
    rcases delivered_send link s.events event with hSame | hSent
    · exact ⟨new, hSame.trans hDelivered, hFeeds, hOnly⟩
    · refine ⟨new ++ [event], ?_, ?_, ?_⟩
      · rw [hSent, hDelivered, List.append_assoc]
      · intro i
        have hNone : chunksOf (stream i) [event] = [] := by
          cases event with
          | data => cases hData
          | _ => rfl
        rw [chunksOf_append, hNone, List.append_nil]
        exact hFeeds i
      · intro other hMem
        rcases List.mem_append.mp hMem with hOld | hNew
        · exact hOnly other hOld
        · obtain rfl := List.mem_singleton.mp hNew
          exact .inl hOther

omit [DecidableEq ι] in
theorem sharing_start {sender : ι → StreamSender} {events : Events}
    (hStream : ∀ i, (sender i).stream = stream i)
    (hStreamed : ∀ i, Streamed reader (unitsize i) [] [] [] (sender i) (view []))
    (hWhole : ∀ i, ∀ packed ∈ all i, unitsize i ∣ packed.length) :
    Sharing reader stream unitsize all Other events.socket.delivered
      (Threads.start sender all events) := by
  refine ⟨[], (List.append_nil _).symm, fun i => ?_, by simp⟩
  refine ⟨hStream i, hWhole i, by rintro todo ⟨⟩, by simp [chunksOf], ?_, fun _ => ?_⟩
  · exact fun message hPanic => absurd hPanic List.not_mem_nil
  · exact ⟨[], hStreamed i, fun _ => rfl⟩

theorem sharing_of_run (hStreams : Function.Injective stream) (hMax : ∀ i, unitsize i ≤ maxPayload)
    {pushers : List (Pusher ι)} (hMinds : ∀ pusher ∈ pushers, pusher.Minds Other)
    (h : Sharing reader stream unitsize all Other before s)
    (hRun : run (Threads.step build link) s pushers = some t) :
    Sharing reader stream unitsize all Other before t :=
  run_invariant_of_mem (Sharing reader stream unitsize all Other before)
    (fun hPusher hShares hStep => hShares.step hStreams hMax hPusher hStep) hMinds h hRun

end

end OpenMso.Server
