import OpenMso.Client
import OpenMso.Foundation.Custody
import OpenMso.Frontend.Kernel

/-! # The Rust client and its plugin

`CaptureClient` of `client.rs` with all that it owns, the event streams that it
gives away, and the sockets of `transport.rs` that they share. What the language
does at the end of a scope is written out.
-/

namespace OpenMso.Frontend

open Foundation OpenMso.Transport
open OpenMso.Client (Call Codec)

set_option autoImplicit false

abbrev Asking := Program Op Op.Answer

abbrev Throwing := ExceptT Error Asking

def ask (op : Op) : Throwing op.Answer := ExceptT.lift (Program.perform op)

/-- `?` on what nng answers. -/
def check {α : Type} : Except NngError α → Throwing α
  | .ok a => pure a
  | .error e => throw (.nng e)

/-- The endpoints are made and removed by operations on files. -/
def onFiles {α : Type} (program : Lease.Trying FileOp Errno α) : Asking α :=
  program.relabel Op.file fun _ answer => answer

/-! ## Sockets -/

/-- A handle on a socket goes out of scope. -/
def Handle.drop (handle : Handle) : Asking Unit := do
  let last ← Program.perform (.release handle)
  if last then Program.perform (Op.nngClose handle.socket) else .done ()

def sendTimeoutMs : Nat := 30000

def configure (protocol : Protocol) (s : Handle) : Throwing Unit := do
  check (← ask (.nngSet s (.recvMaxSize recvMaxSize)))
  check (← ask (.nngSet s (.sendTimeout (some sendTimeoutMs))))
  if protocol = .req0 then
    -- nng re-sends a request whose reply is slower than this timer, and the far
    -- end then runs it twice; zero disables it.
    check (← ask (.nngSet s (.resendTime (some 0))))

def socket (protocol : Protocol) : Throwing Handle := do
  let opened ← check (← ask (.nngOpen protocol))
  dropping (Handle.drop ⟨opened, 0⟩) (configure protocol ⟨opened, 0⟩)
  return ⟨opened, 0⟩

/-- Listen on `url`, restricting an `ipc://` socket to the current user. -/
def listen (s : Handle) (url : String) : Throwing Unit := do
  let listener ← check (← ask (.nngListenerCreate s url))
  dropping (Program.perform (Op.nngListenerClose listener)) do
    if url.startsWith "ipc://" then
      check (← ask (.nngListenerSetPermissions listener 0o600))
    check (← ask (.nngListenerStart listener))

def setRecvTimeout (s : Handle) (timeout : Option Nat) : Throwing Unit := do
  check (← ask (.nngSet s (.recvTimeout timeout)))

def recv {M : Type} (decode : List UInt8 → Except String M) (s : Handle) : Throwing M := do
  let incoming ← ask (.nngRecv s)
  MonadExcept.ofExcept (Transport.decoded decode incoming)

/-! ## The plugin's process -/

/-- `std::process::Child`, with the pipe to its stdin if that is still there; and whether it has
been waited for. -/
structure Child where
  pid : Nat
  stdin : Option Nat
  reaped : Bool
  deriving DecidableEq, Repr

namespace Child

def closeStdin (child : Child) : Asking Child :=
  match child.stdin with
  | none => .done child
  | some fd => do
    Program.perform (Op.close fd)
    return { child with stdin := none }

/-- A child that has been waited for is not signalled: its pid may be another's by now. -/
def kill (child : Child) : Asking Unit :=
  if child.reaped then .done () else Program.perform (Op.kill child.pid)

/-- Closes the child's stdin first, and waits once. -/
def wait (child : Child) : Asking Child := do
  let child ← child.closeStdin
  if child.reaped then return child
  else do
    Program.perform (Op.waitpid child.pid)
    return { child with reaped := true }

end Child

/-! ## The client -/

structure CaptureClient extends Client.CaptureClient where
  child : Child
  control : Handle
  events : Handle
  endpoints : Endpoints
  captureId : UInt64

structure EventStream where
  socket : Handle

def requestTimeoutMs : Nat := 60000

/-- What a frontend is started with. -/
structure Setting where
  environment : Environment
  nanos : UInt32
  pid : UInt32

/-- `?` on what `spawn` answers. -/
def checkSpawned (environment : Environment) : Except Errno (Nat × Nat) → Throwing Child
  | .ok (pid, stdin) => pure ⟨pid, some stdin, false⟩
  | .error e => throw (ofErrno environment e)

namespace CaptureClient

def launch (setting : Setting) (argv : List String) (device : String) : Throwing CaptureClient :=
  match argv with
  | [] => throw (.protocol "plugin has an empty argv")
  | _ :: _ => do
    let endpoints ← .mk (onFiles (Endpoints.new setting.environment setting.nanos setting.pid))
    dropping (onFiles endpoints.drop) do
      let control ← socket .req0
      dropping control.drop do
        listen control endpoints.control
        setRecvTimeout control (some requestTimeoutMs)
        let events ← socket .pull0
        dropping events.drop do
          listen events endpoints.events
          let command ← MonadExcept.ofExcept
            (Client.CaptureClient.launchCommand argv device endpoints)
          let child ← checkSpawned setting.environment (← ask (.spawn command))
          return { seq := 0, child, control, events, endpoints, captureId := 0 }

/-- What the control socket and the child make of the operations of a call. -/
def carry (control : Handle) :
    (op : Client.Op) → Child → Asking (op.Answer × Child)
  | .send bytes, child => do
    let sent ← Program.perform (.nngSend control bytes)
    return (sent, child)
  | .recv, child => do
    let received ← Program.perform (.nngRecv control)
    return (received, child)
  | .wait, child => do
    let child ← child.wait
    return ((), child)
  | .closeStdin, child => do
    let child ← child.closeStdin
    return ((), child)
  | .kill, child => do
    child.kill
    return ((), child)

def call {Config Description : Type} (codec : Codec Config Description) (call : Call Config)
    (client : CaptureClient) : Asking (Except Error (call.Result Description) × CaptureClient) := do
  let ((result, session), child) ←
    ((Client.CaptureClient.call codec call).run.run client.toCaptureClient).through
      (carry client.control) client.child
  return (result, { client with toCaptureClient := session, child })

def setRequestTimeout (client : CaptureClient) (timeout : Option Nat) : Throwing Unit :=
  setRecvTimeout client.control timeout

def setEventTimeout (client : CaptureClient) (timeout : Option Nat) : Throwing Unit :=
  setRecvTimeout client.events timeout

def nextEvent {Event : Type} (decode : List UInt8 → Except String Event) (client : CaptureClient) :
    Throwing Event :=
  recv decode client.events

/-- A second handle on the event stream. -/
def eventStream (client : CaptureClient) : Asking EventStream := do
  let copy ← Program.perform (.clone client.events)
  return ⟨⟨client.events.socket, copy⟩⟩

/-- `drop`, and then the fields in the order in which they are declared. -/
def drop (client : CaptureClient) : Asking Unit := do
  -- Kill rather than wait: a plugin that never answered Shutdown is the
  -- one that would hang here.
  client.child.kill
  let child ← client.child.wait
  let _ ← child.closeStdin
  client.control.drop
  client.events.drop
  onFiles client.endpoints.drop

end CaptureClient

namespace EventStream

def nextEvent {Event : Type} (decode : List UInt8 → Except String Event) (stream : EventStream) :
    Throwing Event :=
  recv decode stream.socket

def setTimeout (stream : EventStream) (timeout : Option Nat) : Throwing Unit :=
  setRecvTimeout stream.socket timeout

def drop (stream : EventStream) : Asking Unit := stream.socket.drop

end EventStream

end OpenMso.Frontend
