import OpenMso.Client
import OpenMso.Cpp.Encoding
import OpenMso.Cpp.Error

/-! # The C++ client

`client.cpp`, over the operations and calls of the Rust one.
-/

namespace OpenMso.Cpp.Client

open OpenMso.Client Proto

set_option autoImplicit false

/-- What the client uses of the protobuf runtime, and nng's texts for its errors. -/
structure Runtime (Config Description : Type) where
  serializeToString : Request Config → Option (List UInt8)
  parseFromArray : List UInt8 → Option (Response Config Description)
  strerror : NngError → String

structure CaptureClient where
  pid : Int
  stdinFd : Int
  seq : UInt32
  deriving DecidableEq, Repr

variable {Config Description : Type}

def responseName (r : Response Config Description) : String :=
  match r.response with
  | some (.hello _) => "Hello"
  | some (.describe _) => "Describe"
  | some (.getConfig _) => "GetConfig"
  | some (.setConfig _) => "SetConfig"
  | some .acquireStart => "AcquireStart"
  | some .acquireStop => "AcquireStop"
  | some .reset => "Reset"
  | some .shutdown => "Shutdown"
  | none => "nothing"

/-- Every request has exactly one legal reply arm, so anything else is a plugin bug. -/
def unexpected (request : String) (got : Response Config Description) : Error :=
  .protocol (request ++ " answered with a " ++ responseName got ++ " result")

namespace CaptureClient

section
variable (runtime : Runtime Config Description)

/-- `check`: a failure of nng is thrown. -/
def check {α : Type} (context : String) : Except NngError α → Calling CaptureClient Error α
  | .ok a => return a
  | .error rv => throw (.nng (context ++ ": " ++ runtime.strerror rv))

/-- `transport::Socket::send`. -/
def send (message : Request Config) : Calling CaptureClient Error Unit :=
  match runtime.serializeToString message with
  | none => throw (.protocol "could not serialize omso.capture.v1.Request")
  | some buf => do check runtime "send" (← perform (.send buf))

/-- `transport::Socket::recv`. -/
def recv : Calling CaptureClient Error (Response Config Description) := do
  let data ← check runtime "recv" (← perform .recv)
  match runtime.parseFromArray data with
  | none => throw (.decode "could not parse omso.capture.v1.Response")
  | some out => return out

def request (arm : Request.Arm Config) :
    Calling CaptureClient Error (Response Config Description) := do
  modify fun client => { client with seq := client.seq + 1 }
  let seq := (← get).seq
  send runtime ⟨seq, some arm⟩
  let response ← recv runtime
  if response.seq ≠ seq then
    throw (.protocol ("plugin answered request " ++ toString seq ++ " with a reply to " ++
      toString response.seq))
  else
    match response.error, response.response with
    | some e, _ => throw (.remote e)
    | none, none => throw (.protocol "reply carries neither result nor error")
    | none, some _ => return response

/-- A request of which only one kind of result is a result. -/
def expect {α : Type} (name : String) (arm : Request.Arm Config)
    (pick : Response.Arm Config Description → Option α) : Calling CaptureClient Error α := do
  let r ← request runtime arm
  (r.response.bind pick).getDM (throw (unexpected name r))

def hello (clientName clientVersion : String) : Calling CaptureClient Error HelloResult :=
  let hello : Hello := ⟨protocolVersion, clientName, clientVersion,
    Encoding.supportedEncodings.map SampleEncoding.toI32,
    Encoding.supportedCodecs.map Proto.Codec.toI32⟩
  expect runtime "Hello" (.hello hello) fun
    | .hello r => some r
    | _ => none

def describe : Calling CaptureClient Error Description :=
  expect runtime "Describe" .describe fun
    | .describe r => some r
    | _ => none

def getConfig : Calling CaptureClient Error Config :=
  expect runtime "GetConfig" .getConfig fun
    | .getConfig r => some r
    | _ => none

def setConfig (config : Config) : Calling CaptureClient Error Config :=
  expect runtime "SetConfig" (.setConfig (some config)) fun
    | .setConfig r => some r
    | _ => none

def acquireStart (captureId : UInt64) (mode : AcquireMode) : Calling CaptureClient Error Unit :=
  expect runtime "AcquireStart" (.acquireStart ⟨captureId, mode.toI32⟩) fun
    | .acquireStart => some ()
    | _ => none

def acquireStop (captureId : UInt64) : Calling CaptureClient Error Unit :=
  expect runtime "AcquireStop" (.acquireStop ⟨captureId⟩) fun
    | .acquireStop => some ()
    | _ => none

def reset : Calling CaptureClient Error Unit :=
  expect runtime "Reset" .reset fun
    | .reset => some ()
    | _ => none

/-- The plugin's stdin is what keeps it alive. -/
def closeStdin : Calling CaptureClient Error Unit := do
  if 0 ≤ (← get).stdinFd then
    perform .closeStdin
    modify fun client => { client with stdinFd := -1 }

/-- Wait for the plugin to exit, and forget it. -/
def reap : Calling CaptureClient Error Unit := do
  perform .wait
  modify fun client => { client with pid := -1 }

def terminate : Calling CaptureClient Error Unit := do
  closeStdin
  if 0 < (← get).pid then
    -- Kill rather than wait: a plugin that never answered Shutdown is the
    -- one that would hang here.
    perform .kill
    reap

def shutdown : Calling CaptureClient Error Unit := do
  if (← get).pid ≤ 0 then return ()
  else
    try
      expect runtime "Shutdown" .shutdown fun
        | .shutdown => some ()
        | _ => none
    catch e =>
      terminate
      throw e
    closeStdin
    reap

def call : (call : Call Config) → Calling CaptureClient Error (call.Result Description)
  | .hello clientName clientVersion => hello runtime clientName clientVersion
  | .describe => describe runtime
  | .getConfig => getConfig runtime
  | .setConfig config => setConfig runtime config
  | .acquireStart captureId mode => acquireStart runtime captureId mode
  | .acquireStop captureId => acquireStop runtime captureId
  | .reset => reset runtime
  | .shutdown => shutdown runtime

end

end CaptureClient

end OpenMso.Cpp.Client
