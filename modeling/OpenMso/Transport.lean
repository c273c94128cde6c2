import OpenMso.Error

/-! # Sockets

`transport.rs`, as far as messages go. What becomes of the `n`-th message
handed to a socket is the link's doing: it is delivered, or the call fails
and nothing is.
-/

namespace OpenMso.Transport

set_option autoImplicit false

/-- Largest `CaptureData.payload` a plugin should emit. -/
def maxPayload : Nat := 1 <<< 20

/-- Inbound message ceiling, applied to every socket. -/
def recvMaxSize : Nat := 8 <<< 20

/-- The failure of the `n`-th attempt, if it fails. -/
abbrev Link := Nat → Option NngError

/-- The sending end: how many messages were handed over, and those delivered. -/
structure Socket (Message : Type) where
  attempts : Nat
  delivered : List Message
  deriving DecidableEq, Repr

variable {Message : Type}

def send (link : Link) (socket : Socket Message) (message : Message) :
    Except Error Unit × Socket Message :=
  match link socket.attempts with
  | some e => (.error (.nng e), { socket with attempts := socket.attempts + 1 })
  | none => (.ok (), ⟨socket.attempts + 1, socket.delivered ++ [message]⟩)

theorem send_of_some {link : Link} {socket : Socket Message} {message : Message} {e : NngError}
    (h : link socket.attempts = some e) :
    send link socket message =
      (.error (.nng e), { socket with attempts := socket.attempts + 1 }) := by
  rw [send, h]

theorem send_of_none {link : Link} {socket : Socket Message} {message : Message}
    (h : link socket.attempts = none) :
    send link socket message =
      (.ok (), ⟨socket.attempts + 1, socket.delivered ++ [message]⟩) := by
  rw [send, h]

/-- `transport::recv` on what the socket yields. -/
def decoded (decode : List UInt8 → Except String Message) :
    Except NngError (List UInt8) → Except Error Message
  | .error e => .error (.nng e)
  | .ok bytes =>
    match decode bytes with
    | .ok message => .ok message
    | .error e => .error (.decode e)

end OpenMso.Transport
