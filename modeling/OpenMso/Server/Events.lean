import OpenMso.Encoding.Transition
import OpenMso.Transport

/-! # The event stream: the plugin's half of the PUSH/PULL socket

`events.rs`. `Events.send` is two acts, the store to `running` and the send;
another thread can come in between, so they are kept apart.
-/

namespace OpenMso.Server

open Foundation.Machine Foundation.Chunks Encoding Transport

set_option autoImplicit false

structure Events where
  socket : Socket Proto.Event
  running : Bool
  deriving DecidableEq, Repr

namespace Events

def new (socket : Socket Proto.Event) : Events := ⟨socket, false⟩

def isRunning (events : Events) : Bool := events.running

def setRunning (events : Events) (running : Bool) : Events := { events with running }

/-- The events after which no capture is running. -/
def endsCapture : Proto.Event → Bool
  | .captureEnd _ => true
  | .deviceLost _ => true
  | _ => false

/-- The first act of `send`: the control loop reads the end of a capture off the
event stream rather than guessing when an acquisition thread finished. -/
def noteEnd (events : Events) (event : Proto.Event) : Events :=
  if endsCapture event then events.setRunning false else events

def push (link : Link) (events : Events) (event : Proto.Event) : Except Error Unit × Events :=
  let (result, socket) := Transport.send link events.socket event
  (result, { events with socket })

def send (link : Link) (events : Events) (event : Proto.Event) : Except Error Unit × Events :=
  push link (events.noteEnd event) event

def log (link : Link) (events : Events) (level : Int32) (message : String) :
    Except Error Unit × Events :=
  events.send link (.log level message)

def status (link : Link) (events : Events) (state : Int32) (detail : String) :
    Except Error Unit × Events :=
  events.send link (.status state detail)

theorem socket_noteEnd (events : Events) (event : Proto.Event) :
    (events.noteEnd event).socket = events.socket := by
  rw [noteEnd]
  split <;> rfl

theorem send_data_of_some {link : Link} {events : Events} {data : Proto.CaptureData}
    {e : NngError} (h : link events.socket.attempts = some e) :
    events.send link (.data data) =
      (.error (.nng e),
        { events with socket := { events.socket with attempts := events.socket.attempts + 1 } }) := by
  change push link events (.data data) = _
  rw [push, send_of_some h]

theorem send_data_of_none {link : Link} {events : Events} {data : Proto.CaptureData}
    (h : link events.socket.attempts = none) :
    events.send link (.data data) =
      (.ok (), { events with
        socket := ⟨events.socket.attempts + 1, events.socket.delivered ++ [.data data]⟩ }) := by
  change push link events (.data data) = _
  rw [push, send_of_none h]

end Events

/-- Cuts one stream of one acquisition into `CaptureData` events, keeping `seq`
and `firstSample` consistent across calls. -/
structure StreamSender where
  captureId : UInt64
  acquisition : UInt64
  stream : UInt32
  unitsize : Nat
  encoding : Proto.SampleEncoding
  seq : UInt64
  firstSample : UInt64
  unitsize_pos : 0 < unitsize

namespace StreamSender

def new (captureId acquisition : UInt64) (stream : UInt32) (unitsize : Nat) :
    Call Error StreamSender :=
  if h : 0 < unitsize then
    .ok ⟨captureId, acquisition, stream, unitsize, .packed, 0, 0, h⟩
  else .error (.panic "unitsize must be positive")

/-- Emit run-length rather than verbatim samples. -/
def transition (sender : StreamSender) : StreamSender := { sender with encoding := .transition }

def encodePart (build : Build) (sender : StreamSender) (part : List UInt8) :
    Call Error (List UInt8) :=
  match sender.encoding with
  | .transition => encodeTransition build part sender.unitsize
  | _ => .ok part

def chunk (sender : StreamSender) (part payload : List UInt8) : Proto.CaptureData where
  captureId := sender.captureId
  acquisition := sender.acquisition
  stream := sender.stream
  seq := sender.seq
  firstSample := sender.firstSample
  sampleCount := UInt64.ofNat (part.length / sender.unitsize)
  encoding := sender.encoding.toI32
  codec := Proto.Codec.none.toI32
  decodedLen := UInt64.ofNat payload.length
  payload := payload

/-- What a call on the sender leaves behind: its result, the sender and the event stream. -/
abbrev Outcome := Call Error Unit × StreamSender × Events

/-- The two counters after a chunk of `samples` went out. -/
def advance (build : Build) (sender : StreamSender) (events : Events) (samples : UInt64) :
    Outcome :=
  match addU64 build sender.seq 1 with
  | .error fault => (.error fault, sender, events)
  | .ok seq =>
    let sender := { sender with seq }
    match addU64 build sender.firstSample samples with
    | .error fault => (.error fault, sender, events)
    | .ok firstSample => (.ok (), { sender with firstSample }, events)

/-- One turn of the loop of `send`. -/
def sendPart (build : Build) (link : Link) (sender : StreamSender) (events : Events)
    (part : List UInt8) : Outcome :=
  match sender.encodePart build part with
  | .error fault => (.error fault, sender, events)
  | .ok payload =>
    match events.send link (.data (sender.chunk part payload)) with
    | (.error e, events) => (raise e, sender, events)
    | (.ok (), events) => sender.advance build events (sender.chunk part payload).sampleCount

def sendParts (build : Build) (link : Link) (sender : StreamSender) (events : Events) :
    List (List UInt8) → Outcome
  | [] => (.ok (), sender, events)
  | part :: parts =>
    match sender.sendPart build link events part with
    | (.ok (), sender, events) => sender.sendParts build link events parts
    | stopped => stopped

/-- `packed` is verbatim samples; chunking and encoding happen here. -/
def send (build : Build) (link : Link) (sender : StreamSender) (events : Events)
    (packed : List UInt8) : Outcome :=
  let chunk := maxPayload - maxPayload % sender.unitsize
  if chunk = 0 then (.error (.panic "chunk size must be non-zero"), sender, events)
  else sender.sendParts build link events (chunks chunk packed)

/-- Successive calls of `send`. A returned error is the caller's to see and
later calls go on; a panic is the end. -/
def sendAll (build : Build) (link : Link) (sender : StreamSender) (events : Events) :
    List (List UInt8) → List (Call Error Unit) × StreamSender × Events
  | [] => ([], sender, events)
  | packed :: rest =>
    match sender.send build link events packed with
    | (.error (.panic message), sender, events) => ([.error (.panic message)], sender, events)
    | (result, sender, events) =>
      let (results, after) := sender.sendAll build link events rest
      (result :: results, after)

end StreamSender

end OpenMso.Server
