import OpenMso.Encoding.Transition
import OpenMso.Foundation.Program
import OpenMso.Transport

/-! # The frontend's side of the control socket

`client.rs`, as far as the control socket goes. A call asks its surroundings
to carry bytes to the plugin and back, and on shutdown to reap the plugin; the
operations are those of the C++ client too. The message codec is a parameter.
-/

namespace OpenMso.Client

open Foundation Proto

set_option autoImplicit false

/-- What a client asks for. The last three concern the child process only. -/
inductive Op where
  | send (bytes : List UInt8)
  | recv
  | wait
  | closeStdin
  | kill

abbrev Op.Answer : Op → Type
  | .send _ => Except NngError Unit
  | .recv => Except NngError (List UInt8)
  | _ => Unit

/-- The calls a frontend makes. -/
inductive Call (Config : Type) where
  | hello (clientName clientVersion : String)
  | describe
  | getConfig
  | setConfig (config : Config)
  | acquireStart (captureId : UInt64) (mode : AcquireMode)
  | acquireStop (captureId : UInt64)
  | reset
  | shutdown

abbrev Call.Result {Config : Type} (Description : Type) : Call Config → Type
  | .hello _ _ => HelloResult
  | .describe => Description
  | .getConfig => Config
  | .setConfig _ => Config
  | _ => Unit

def Call.isShutdown {Config : Type} : Call Config → Bool
  | .shutdown => true
  | _ => false

/-- Code of a client with state `κ` that can fail; the state outlives a failure. -/
abbrev Calling (κ ε : Type) := ExceptT ε (StateT κ (Program Op Op.Answer))

def perform {κ ε : Type} (op : Op) : Calling κ ε op.Answer :=
  ExceptT.lift (StateT.lift (Program.perform op))

structure CaptureClient where
  seq : UInt32
  deriving DecidableEq, Repr

/-- The messages' encoding. -/
structure Codec (Config Description : Type) where
  encode : Request Config → List UInt8
  decode : List UInt8 → Except String (Response Config Description)

variable {Config Description : Type}

/-- Every request has exactly one legal reply arm; anything else is a plugin bug. -/
def unexpected (request : String) (got : Response.Arm Config Description) : Error :=
  let name :=
    match got with
    | .hello _ => "Hello"
    | .describe _ => "Describe"
    | .getConfig _ => "GetConfig"
    | .setConfig _ => "SetConfig"
    | .acquireStart => "AcquireStart"
    | .acquireStop => "AcquireStop"
    | .reset => "Reset"
    | .shutdown => "Shutdown"
  .protocol s!"{request} answered with a {name} result"

namespace CaptureClient

section
variable (codec : Codec Config Description)

/-- `transport::send` on the control socket. -/
def send (message : Request Config) : Calling CaptureClient Error Unit := do
  match ← perform (.send (codec.encode message)) with
  | .ok () => return ()
  | .error e => throw (.nng e)

/-- `transport::recv` on the control socket. -/
def recv : Calling CaptureClient Error (Response Config Description) := do
  let incoming ← perform .recv
  MonadExcept.ofExcept (Transport.decoded codec.decode incoming)

def request (arm : Request.Arm Config) :
    Calling CaptureClient Error (Response.Arm Config Description) := do
  modify fun client => { client with seq := client.seq + 1 }
  let seq := (← get).seq
  send codec ⟨seq, some arm⟩
  let response ← recv codec
  let answered := response.seq
  if answered ≠ seq then
    throw (.protocol s!"plugin answered request {seq} with a reply to {answered}")
  else
    match response.error, response.response with
    | some e, _ => throw (.remote e)
    | none, some r => return r
    | none, none => throw (.protocol "reply carries neither result nor error")

/-- A request of which only one kind of result is a result. -/
def expect {α : Type} (name : String) (arm : Request.Arm Config)
    (pick : Response.Arm Config Description → Option α) : Calling CaptureClient Error α := do
  let response ← request codec arm
  (pick response).getDM (throw (unexpected name response))

def hello (clientName clientVersion : String) : Calling CaptureClient Error HelloResult :=
  let hello : Hello := ⟨protocolVersion, clientName, clientVersion,
    Encoding.encodings.map SampleEncoding.toI32, Encoding.codecs.map Proto.Codec.toI32⟩
  expect codec "Hello" (.hello hello) fun
    | .hello r => some r
    | _ => none

def describe : Calling CaptureClient Error Description :=
  expect codec "Describe" .describe fun
    | .describe r => some r
    | _ => none

def getConfig : Calling CaptureClient Error Config :=
  expect codec "GetConfig" .getConfig fun
    | .getConfig r => some r
    | _ => none

def setConfig (config : Config) : Calling CaptureClient Error Config :=
  expect codec "SetConfig" (.setConfig (some config)) fun
    | .setConfig r => some r
    | _ => none

def acquireStart (captureId : UInt64) (mode : AcquireMode) : Calling CaptureClient Error Unit :=
  expect codec "AcquireStart" (.acquireStart ⟨captureId, mode.toI32⟩) fun
    | .acquireStart => some ()
    | _ => none

def acquireStop (captureId : UInt64) : Calling CaptureClient Error Unit :=
  expect codec "AcquireStop" (.acquireStop ⟨captureId⟩) fun
    | .acquireStop => some ()
    | _ => none

def reset : Calling CaptureClient Error Unit :=
  expect codec "Reset" .reset fun
    | .reset => some ()
    | _ => none

/-- Ask the plugin to exit, then reap it. -/
def shutdown : Calling CaptureClient Error Unit := do
  let result ← ExceptT.lift (ExceptT.run (expect codec "Shutdown" .shutdown fun
    | .shutdown => some ()
    | _ => none))
  perform .wait
  MonadExcept.ofExcept result

def call : (call : Call Config) → Calling CaptureClient Error (call.Result Description)
  | .hello clientName clientVersion => hello codec clientName clientVersion
  | .describe => describe codec
  | .getConfig => getConfig codec
  | .setConfig config => setConfig codec config
  | .acquireStart captureId mode => acquireStart codec captureId mode
  | .acquireStop captureId => acquireStop codec captureId
  | .reset => reset codec
  | .shutdown => shutdown codec

end

end CaptureClient

end OpenMso.Client
