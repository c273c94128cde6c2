import OpenMso.Cpp.Client
import OpenMso.Cpp.Endpoints
import OpenMso.Cpp.Plugins.Spawn

/-! # The client and its plugin

`CaptureClient` of `client.cpp` with all that it owns: the plugin's process,
the write end of its stdin, two sockets and their directory.
-/

namespace OpenMso.Cpp.Plugins

open Foundation OpenMso.Transport
open OpenMso.Client (Call)
open Cpp.Client (Runtime)

set_option autoImplicit false

structure CaptureClient extends Client.CaptureClient where
  captureId : UInt64
  endpoints : Option Transport.Endpoints
  control : Socket
  events : Socket

/-- `CaptureClient() = default`. -/
def CaptureClient.default : CaptureClient where
  pid := -1
  stdinFd := -1
  seq := 0
  captureId := 0
  endpoints := none
  control := .none
  events := .none

/-- What the operations of a call are about. -/
structure Handles where
  control : Nat
  pid : Nat
  stdinFd : Nat
  deriving DecidableEq, Repr

namespace Handles

def label (handles : Handles) : OpenMso.Client.Op → Op
  | .send bytes => .nngSend handles.control bytes
  | .recv => .nngRecv handles.control
  | .wait => .waitpid handles.pid
  | .closeStdin => .close handles.stdinFd
  | .kill => .kill handles.pid

def answer (handles : Handles) : (op : OpenMso.Client.Op) → (handles.label op).Answer → op.Answer
  | .send _, sent => sent
  | .recv, received => received
  | .wait, () | .closeStdin, () | .kill, () => ()

/-- Code that concerns only the plugin and the control socket. -/
def serve {α : Type} (handles : Handles)
    (code : OpenMso.Client.Calling Client.CaptureClient Error α) (session : Client.CaptureClient) :
    Asking (Except Error α × Client.CaptureClient) :=
  (code.run.run session).relabel handles.label handles.answer

end Handles

/-- The endpoints are made and removed by operations on files. -/
def onFiles {α : Type} (program : Lease.Trying FileOp Errno α) : Asking α :=
  program.relabel Op.file fun _ answer => answer

namespace CaptureClient

def handles (client : CaptureClient) : Handles :=
  ⟨client.control.socket, client.pid.toNat, client.stdinFd.toNat⟩

def calling {α : Type} (code : OpenMso.Client.Calling Client.CaptureClient Error α)
    (client : CaptureClient) : Asking (Except Error α × CaptureClient) := do
  let (result, session) ← client.handles.serve code client.toCaptureClient
  return (result, { client with toCaptureClient := session })

def terminate (client : CaptureClient) : Asking CaptureClient := do
  let (_, client) ← client.calling Client.CaptureClient.terminate
  return client

def call {Config Description : Type} (runtime : Runtime Config Description) (call : Call Config) :
    CaptureClient → Asking (Except Error (call.Result Description) × CaptureClient) :=
  calling (Client.CaptureClient.call runtime call)

def destroyEndpoints (client : CaptureClient) : Asking Unit :=
  match client.endpoints with
  | none => .done ()
  | some endpoints => onFiles endpoints.destroy

/-- `~CaptureClient`, and those of its members in the order opposite to theirs. -/
def destroy (client : CaptureClient) : Asking Unit := do
  let client ← client.terminate
  client.events.close
  client.control.close
  client.destroyEndpoints

/-- What becomes of a client that another one is made of. -/
def movedFrom (client : CaptureClient) : CaptureClient :=
  { client with
    pid := -1
    stdinFd := -1
    endpoints := none
    control := { client.control with isOpen := false }
    events := { client.events with isOpen := false } }

/-- The client that is constructed, and the other. -/
def moveConstruct (other : CaptureClient) : CaptureClient × CaptureClient :=
  (other, other.movedFrom)

/-- Move assignment from another client: what becomes of the two. -/
def moveAssign (client other : CaptureClient) : Asking (CaptureClient × CaptureClient) := do
  let client ← client.terminate
  client.destroyEndpoints
  let (control, otherControl) ← client.control.moveAssign other.control
  let (events, otherEvents) ← client.events.moveAssign other.events
  return ({ other with control := control, events := events },
    { other with
      pid := -1
      stdinFd := -1
      endpoints := none
      control := otherControl
      events := otherEvents })

/-! ## Launching -/

def requestTimeoutMs : Int := 60000

/-- Code on a client that is being made; a failure leaves it as it is then. -/
abbrev Building := ExceptT Error (StateT CaptureClient Asking)

def building {α : Type} (code : Throwing α) : Building α := .mk (StateT.lift code.run)

/-- `transport::Socket(protocol)`, move assigned to a member. -/
def renew (strerror : NngError → String) (protocol : Protocol) (member : Socket) :
    Throwing Socket := do
  let temporary ← Socket.construct strerror protocol
  let (member, temporary) ← ExceptT.lift (member.moveAssign temporary)
  ExceptT.lift temporary.close
  return member

/-- The arguments a plugin is started with. -/
def fullArgv (argv : List String) (device : String) (endpoints : Transport.Endpoints) :
    List String :=
  argv ++ ["--device", device, "--control", endpoints.control, "--events", endpoints.events]

/-- What a frontend is started with, and what its C library and nng say of an error. -/
structure Setting where
  environment : Environment
  nanos : UInt32
  getpid : UInt32
  strerror : NngError → String

section
variable (setting : Setting) (argv : List String) (device : String)

def build : Building Unit := do
  let endpoints ← building (.mk (onFiles
    (Transport.Endpoints.construct setting.environment setting.nanos setting.getpid)))
  modify fun client => { client with endpoints := some endpoints }
  let control ← building (renew setting.strerror .req0 (← get).control)
  modify fun client => { client with control := control }
  building (control.listen setting.strerror endpoints.control)
  building (control.setRecvTimeout setting.strerror requestTimeoutMs)
  let events ← building (renew setting.strerror .pull0 (← get).events)
  modify fun client => { client with events := events }
  building (events.listen setting.strerror endpoints.events)
  let spawned ← building
    (spawnPlugin setting.environment.strerror (fullArgv argv device endpoints))
  modify fun client => { client with pid := spawned.pid, stdinFd := spawned.stdinFd }

def launch : Throwing CaptureClient :=
  if argv.isEmpty then throw (.protocol "plugin has an empty argv")
  else do
    let (result, client) ← ExceptT.lift ((build setting argv device).run.run .default)
    match result with
    | .error e => do
      ExceptT.lift client.destroy
      throw e
    | .ok () => return client

end

end CaptureClient

end OpenMso.Cpp.Plugins
