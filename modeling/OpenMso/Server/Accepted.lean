import OpenMso.Encoding.Negotiation
import OpenMso.Server.ControlLoop
import OpenMso.Server.Threads

/-! # Only what was negotiated is emitted

A plugin must not emit an encoding or a codec that is absent from the lists of
its `HelloResult`. The sender has a codec of its own choosing; its encoding is
legal when it was made as the comment on `transition` says.
-/

namespace OpenMso.Server

open Foundation.Machine Foundation.Runs Encoding Transport Proto

set_option autoImplicit false

/-- The lists of the result are an intersection of what the client accepts and what this
plugin can produce. -/
def Negotiated (req : Hello) (result : HelloResult) : Prop :=
  ∃ encodings codecs, result.encodings = negotiateEncodings req.acceptEncodings encodings ∧
    result.codecs = negotiateCodecs req.acceptCodecs codecs

theorem negotiated_helloResult (req : Hello) (plugin : PluginInfo) (capabilities : Capabilities)
    (device : DeviceInfo) : Negotiated req (helloResult req plugin capabilities device) :=
  ⟨_, _, rfl, rfl⟩

/-- A sender that emits run lengths only if the frontend accepted them. -/
def Legal (result : HelloResult) (sender : StreamSender) : Prop :=
  ∃ captureId acquisition stream unitsize fresh,
    StreamSender.new captureId acquisition stream unitsize = .ok fresh ∧
      (sender = fresh ∨ accepts result.encodings .transition = true ∧ sender = fresh.transition)

/-- The chunk may be emitted to a client that has this result. -/
structure Emittable (result : HelloResult) (data : CaptureData) : Prop where
  encoding : data.encoding ∈ result.encodings
  codec : data.codec ∈ result.codecs

section
variable {req : Hello} {result : HelloResult}

theorem Negotiated.accepted (h : Negotiated req result) {data : CaptureData}
    (hData : Emittable result data) :
    (data.encoding = SampleEncoding.packed.toI32 ∨ data.encoding ∈ req.acceptEncodings) ∧
      (data.codec = Codec.none.toI32 ∨ data.codec ∈ req.acceptCodecs) := by
  obtain ⟨encodings, codecs, hEncodings, hCodecs⟩ := h
  exact ⟨mem_intersect (hEncodings ▸ hData.encoding), mem_intersect (hCodecs ▸ hData.codec)⟩

theorem Negotiated.encoding_mem (h : Negotiated req result) {sender : StreamSender}
    (hLegal : Legal result sender) : sender.encoding.toI32 ∈ result.encodings := by
  obtain ⟨captureId, acquisition, stream, unitsize, fresh, hNew, hSender⟩ := hLegal
  rcases hSender with rfl | ⟨hAccepts, rfl⟩
  · obtain ⟨encodings, codecs, hEncodings, -⟩ := h
    rw [StreamSender.new] at hNew
    split at hNew
    · cases hNew
      rw [hEncodings]
      exact mandatory_mem_intersect ..
    · cases hNew
  · exact List.contains_iff_mem.mp hAccepts

theorem Negotiated.emittable (h : Negotiated req result) {sender : StreamSender}
    (hEncoding : sender.encoding.toI32 ∈ result.encodings) (part payload : List UInt8) :
    Emittable result (sender.chunk part payload) := by
  obtain ⟨encodings, codecs, -, hCodecs⟩ := h
  constructor
  · exact hEncoding
  · rw [hCodecs]
    exact mandatory_mem_intersect ..

end

theorem encoding_sendPart (build : Build) (link : Link) (sender : StreamSender) (events : Events)
    (part : List UInt8) :
    (sender.sendPart build link events part).2.1.encoding = sender.encoding := by
  rw [StreamSender.sendPart]
  split
  · rfl
  · split
    · rfl
    · rw [StreamSender.advance]
      split
      · rfl
      · dsimp only
        split <;> rfl

section
variable {ι : Type} (result : HelloResult) (before : List Event)

/-- Everything that was pushed may be emitted, and every thread has a legal encoding. -/
def Conforming (s : Threads ι) : Prop :=
  (∀ i, (s.feeds i).sender.encoding.toI32 ∈ result.encodings) ∧
    ∃ new, s.events.socket.delivered = before ++ new ∧
      ∀ data, .data data ∈ new → Emittable result data

end

section
variable {ι : Type} [DecidableEq ι] {build : Build} {link : Link} {req : Hello}
  {result : HelloResult} {before : List Event} {s t : Threads ι}

/-- A turn of a thread leaves its encoding alone, and pushes a chunk of that encoding at most. -/
theorem turn_emits (hNegotiated : Negotiated req result) {feed feed' : Feed} {events events' : Events}
    (hEncoding : feed.sender.encoding.toI32 ∈ result.encodings)
    (hTurn : feed.turn build link events = some (feed', events')) :
    feed'.sender.encoding = feed.sender.encoding ∧ ∃ sent : List CaptureData,
      (∀ data ∈ sent, Emittable result data) ∧
        events'.socket.delivered = events.socket.delivered ++ sent.map .data := by
  have hQuiet : ∃ sent : List CaptureData, (∀ data ∈ sent, Emittable result data) ∧
      events.socket.delivered = events.socket.delivered ++ sent.map .data :=
    ⟨[], List.forall_mem_nil _, (List.append_nil _).symm⟩
  obtain ⟨sender, parts, buffers, results⟩ := feed
  rcases parts with _ | (_ | ⟨part, parts⟩)
  · cases buffers with
    | nil => cases hTurn
    | cons packed buffers =>
      rw [Feed.turn] at hTurn
      dsimp only at hTurn
      split at hTurn
      · cases hTurn
        exact ⟨rfl, hQuiet⟩
      · cases hTurn
        exact ⟨rfl, hQuiet⟩
  · cases hTurn
    exact ⟨rfl, hQuiet⟩
  · obtain ⟨sent, hChunk, -, -, -, hSent, -⟩ :=
      sendPart_view build link link sender events events part rfl
    have hSame := encoding_sendPart build link sender events part
    have hEmits : ∀ data ∈ sent, Emittable result data := by
      intro data hMem
      obtain ⟨payload, rfl⟩ := hChunk data hMem
      exact hNegotiated.emittable hEncoding part payload
    rw [Feed.turn] at hTurn
    dsimp only at hTurn
    rcases hPart : sender.sendPart build link events part with ⟨outcome, sender', after⟩
    rw [hPart] at hTurn hSame hSent
    cases outcome with
    | ok =>
      cases hTurn
      exact ⟨hSame, sent, hEmits, hSent⟩
    | error fault =>
      cases hTurn
      exact ⟨hSame, sent, hEmits, hSent⟩

theorem Conforming.step (hNegotiated : Negotiated req result) {pusher : Pusher ι}
    (hMinds : pusher.Minds fun _ => True) (h : Conforming result before s)
    (hStep : s.step build link pusher = some t) : Conforming result before t := by
  obtain ⟨hLegal, new, hDelivered, hNew⟩ := h
  cases pusher with
  | feed i =>
    obtain ⟨⟨feed, events⟩, hTurn, rfl⟩ := Option.map_eq_some_iff.mp hStep
    obtain ⟨hSame, sent, hSent, hAfter⟩ := turn_emits hNegotiated (hLegal i) hTurn
    refine ⟨fun j => ?_, new ++ sent.map .data, ?_, fun data hMem => ?_⟩
    · dsimp only
      rcases eq_or_ne j i with rfl | hOther
      · rw [Function.update_self, hSame]
        exact hLegal j
      · rw [Function.update_of_ne hOther]
        exact hLegal j
    · rw [hAfter, hDelivered, List.append_assoc]
    · rcases List.mem_append.mp hMem with hOld | hFresh
      · exact hNew data hOld
      · exact hSent data ((List.mem_map_of_injective data_injective).mp hFresh)
  | other event =>
    cases hStep
    rcases delivered_send link s.events event with hSame | hSent
    · exact ⟨hLegal, new, hSame.trans hDelivered, hNew⟩
    · refine ⟨hLegal, new ++ [event], ?_, fun data hMem => ?_⟩
      · rw [hSent, hDelivered, List.append_assoc]
      · rcases List.mem_append.mp hMem with hOld | hFresh
        · exact hNew data hOld
        · cases List.mem_singleton.mp hFresh
          cases hMinds.1

end

/-- Whatever a client accepts, and however the threads of a plugin interleave: a chunk is pushed
in an encoding and a codec of the result of `Hello` only, which the client accepted or must. -/
theorem only_negotiated_is_emitted {ι : Type} [DecidableEq ι] (build : Build) (link : Link)
    (req : Hello) (result : HelloResult) (hNegotiated : Negotiated req result)
    (sender : ι → StreamSender) (hLegal : ∀ i, Legal result (sender i))
    (buffers : ι → List (List UInt8)) (events : Events) (pushers : List (Pusher ι))
    (hMinds : ∀ pusher ∈ pushers, pusher.Minds fun _ => True) (s : Threads ι)
    (hRun : run (Threads.step build link) (Threads.start sender buffers events) pushers = some s) :
    ∃ new, s.events.socket.delivered = events.socket.delivered ++ new ∧
      ∀ data, .data data ∈ new → Emittable result data ∧
        (data.encoding = SampleEncoding.packed.toI32 ∨ data.encoding ∈ req.acceptEncodings) ∧
        (data.codec = Codec.none.toI32 ∨ data.codec ∈ req.acceptCodecs) := by
  have hStart : Conforming result events.socket.delivered (Threads.start sender buffers events) :=
    ⟨fun i => hNegotiated.encoding_mem (hLegal i), [], (List.append_nil _).symm, by simp⟩
  obtain ⟨-, new, hDelivered, hNew⟩ := run_invariant_of_mem
    (Conforming result events.socket.delivered)
    (fun hPusher hConforms hStep => hConforms.step hNegotiated hPusher hStep) hMinds hStart hRun
  exact ⟨new, hDelivered, fun data hMem => ⟨hNew data hMem, hNegotiated.accepted (hNew data hMem)⟩⟩

namespace Wary

/-- A client that decodes verbatim samples only, and a codec that it need not have named. -/
def hello : Hello := ⟨1, "viewer", "0.1", [SampleEncoding.packed.toI32], [Codec.zstd.toI32]⟩

def result : HelloResult :=
  helloResult hello ⟨"demo", "0.1", "", ""⟩ ⟨[], []⟩ ⟨"", "", "", ""⟩

def fresh : StreamSender := ⟨7, 0, 1, 1, .packed, 0, 0, by decide⟩

def pushers : List (Pusher Unit) := [.feed (), .other (.log 3 "armed"), .feed (), .feed ()]

end Wary

open Wary in
theorem only_negotiated_is_emitted_to_the_wary :
    ∃ s, run (Threads.step .checked fun _ => none) (.start (fun _ => fresh) (fun _ => [[5, 5, 6]])
        (.new ⟨0, []⟩)) pushers = some s ∧
      ∃ data, .data data ∈ s.events.socket.delivered ∧ Emittable result data := by
  have hSent : ((run (Threads.step .checked fun _ => none) (.start (fun _ => fresh)
      (fun _ => [[5, 5, 6]]) (.new ⟨0, []⟩)) pushers).map
        (·.events.socket.delivered.find? isData)) =
      some (some (.data ⟨7, 0, 1, 0, 0, 3, 1, 1, 3, [5, 5, 6]⟩)) := by decide +kernel
  obtain ⟨s, hRun, hFind⟩ := Option.map_eq_some_iff.mp hSent
  have hMinds : ∀ pusher ∈ pushers, pusher.Minds fun _ => True := by
    simp [pushers, Pusher.Minds, isData]
  obtain ⟨new, hNew, hAll⟩ := only_negotiated_is_emitted .checked (fun _ => none) hello result
    (negotiated_helloResult ..) (fun _ => fresh) (fun _ => ⟨7, 0, 1, 1, fresh, rfl, .inl rfl⟩)
    (fun _ => [[5, 5, 6]]) (.new ⟨0, []⟩) pushers hMinds s hRun
  have hMem := List.mem_of_find?_eq_some hFind
  rw [show s.events.socket.delivered = new from hNew] at hMem
  exact ⟨s, hRun, _, hNew.symm ▸ hMem, (hAll _ hMem).1⟩

end OpenMso.Server
