import OpenMso.Encoding.Transition
import OpenMso.Foundation.Program
import OpenMso.Transport

/-! # The control loop

`server/mod.rs`. Each access to something shared, and the two ends of each
handler call, is one operation asked of the surroundings: between any two of
them an acquisition thread may run. `greeted` is a cell like the others,
which no other thread touches.
-/

namespace OpenMso.Server

open Foundation Proto

set_option autoImplicit false

/-- The calls a plugin takes. -/
inductive Handler (Config : Type) where
  | hello (req : Hello)
  | describe
  | getConfig
  | setConfig (config : Config)
  | acquireStart (req : AcquireStart)
  | acquireStop (req : AcquireStop)
  | reset
  | shutdown
  deriving DecidableEq

def Handler.Result {Config : Type} (Description : Type) : Handler Config → Type
  | .hello _ => Reply HelloResult
  | .describe => Reply Description
  | .getConfig => Reply Config
  | .setConfig _ => Reply Config
  | .acquireStart _ => Reply Unit
  | .acquireStop _ => Reply Unit
  | .reset => Reply Unit
  | .shutdown => Unit

/-- A plugin, over the state `σ` it keeps between calls. Its threads may change
that state too. -/
structure CaptureServer (Config Description σ : Type) where
  hello : Hello → σ → Reply HelloResult × σ
  describe : σ → Reply Description × σ
  getConfig : σ → Reply Config × σ
  setConfig : Config → σ → Reply Config × σ
  acquireStart : AcquireStart → σ → Reply Unit × σ
  acquireStop : AcquireStop → σ → Reply Unit × σ
  /-- Abandon any acquisition and discard buffered data. -/
  reset : σ → Reply Unit × σ := fun s => (.ok (), s)
  shutdown : σ → σ := fun s => s

def CaptureServer.handle {Config Description σ : Type} (plugin : CaptureServer Config Description σ) :
    (handler : Handler Config) → σ → handler.Result Description × σ
  | .hello req, s => plugin.hello req s
  | .describe, s => plugin.describe s
  | .getConfig, s => plugin.getConfig s
  | .setConfig config, s => plugin.setConfig config s
  | .acquireStart req, s => plugin.acquireStart req s
  | .acquireStop req, s => plugin.acquireStop req s
  | .reset, s => plugin.reset s
  | .shutdown, s => ((), plugin.shutdown s)

/-- What the control loop asks for, one atomic act each. -/
inductive Op (Config Description : Type) where
  | recv
  | send (response : Response Config Description)
  | isGreeted
  | setGreeted
  | isRunning
  | setRunning (running : Bool)
  | enter (handler : Handler Config)
  | leave (handler : Handler Config)

abbrev Op.Answer {Config Description : Type} : Op Config Description → Type
  | .recv => Except OpenMso.Error (Request Config)
  | .send _ => Except OpenMso.Error Unit
  | .isGreeted => Bool
  | .setGreeted => Unit
  | .isRunning => Bool
  | .setRunning _ => Unit
  | .enter _ => Unit
  | .leave handler => handler.Result Description

section
variable (Config Description : Type)

abbrev Serving := Program (Op Config Description) Op.Answer

/-- Code that can end with a refusal. -/
abbrev Handling := ExceptT Proto.Error (Serving Config Description)

end

variable {Config Description : Type}

def call (handler : Handler Config) : Serving Config Description (handler.Result Description) :=
  do
    Program.perform (Op.enter handler)
    Program.perform (Op.leave handler)

/-- `?` on a call: its error is the caller's own. -/
def orFail {α : Type} (called : Serving Config Description (Reply α)) :
    Handling Config Description α :=
  ExceptT.mk called

def recv : Serving Config Description (Except OpenMso.Error (Request Config)) :=
  Program.perform Op.recv
def send (response : Response Config Description) :
    Serving Config Description (Except OpenMso.Error Unit) :=
  Program.perform (Op.send response)
def isGreeted : Handling Config Description Bool := ExceptT.lift (Program.perform Op.isGreeted)
def setGreeted : Handling Config Description Unit := ExceptT.lift (Program.perform Op.setGreeted)
def isRunning : Handling Config Description Bool := ExceptT.lift (Program.perform Op.isRunning)
def setRunning (running : Bool) : Handling Config Description Unit :=
  ExceptT.lift (Program.perform (Op.setRunning running))

end OpenMso.Server

namespace OpenMso.Proto

set_option autoImplicit false

variable {Config : Type}

def Request.Arm.isHello : Request.Arm Config → Bool
  | .hello _ => true
  | _ => false

def Request.Arm.isShutdown : Request.Arm Config → Bool
  | .shutdown => true
  | _ => false

end OpenMso.Proto

namespace OpenMso.Server

open Foundation Proto

set_option autoImplicit false

variable {Config Description : Type}

def busy : Proto.Error := .busy "acquisition in progress"

/-- The `match` of `dispatch`. -/
def dispatchArm [Inhabited Config] (greeted : Bool) :
    Request.Arm Config → Handling Config Description (Response.Arm Config Description)
  | .hello req =>
    if greeted then throw (.invalid "Hello has already been answered")
    else do
      let result ← orFail (call (.hello req))
      setGreeted
      return .hello result
  | .describe => do
    if ← isRunning then throw busy
    else return .describe (← orFail (call .describe))
  | .getConfig => do
    if ← isRunning then throw busy
    else return .getConfig (← orFail (call .getConfig))
  | .setConfig config => do
    if ← isRunning then throw busy
    else return .setConfig (← orFail (call (.setConfig (config.getD default))))
  | .acquireStart req => do
    if ← isRunning then throw busy
    else
      -- Set before starting: a short capture can push CaptureEnd before
      -- acquire_start has even returned, and that must not be undone.
      setRunning true
      match ← ExceptT.lift (call (.acquireStart req)) with
      | .error e =>
        setRunning false
        throw e
      | .ok () => return .acquireStart
  | .acquireStop req => do
    -- Idempotent: a capture can end on its own before the request arrives.
    if ← isRunning then
      orFail (call (.acquireStop req))
      return .acquireStop
    else return .acquireStop
  | .reset => do
    orFail (call .reset)
    setRunning false
    return .reset
  | .shutdown => return .shutdown

def dispatch [Inhabited Config] (request : Request Config) :
    Handling Config Description (Response.Arm Config Description) :=
  match request.request with
  | none => throw (.invalid "request carries no payload")
  | some arm => do
    let greeted ← isGreeted
    if !greeted && !arm.isHello then throw (.invalid "Hello must be the first request")
    else dispatchArm greeted arm

def isClosed : NngError → Bool
  | .closed => true
  | .connectionReset => true
  | .connectionAborted => true
  | _ => false

def respond (seq : UInt32) : Reply (Response.Arm Config Description) → Response Config Description
  | .ok response => ⟨seq, none, some response⟩
  | .error error => ⟨seq, some error, none⟩

def undecodable (e : String) : Response Config Description :=
  ⟨0, some (.invalid s!"undecodable request: {e}"), none⟩

/-- How a turn of the loop ends: `none` for another one. -/
abbrev Turn := Option (Except OpenMso.Error Unit)

/-- The loop of `serve` once the request has been dispatched. -/
def conclude (seq : UInt32) (shuttingDown : Bool) (outcome : Reply (Response.Arm Config Description)) :
    Serving Config Description Turn := do
  let response := respond seq outcome
  match ← send response with
  | .error e => return some (.error e)
  | .ok () =>
    if shuttingDown && response.error.isNone then
      let _ ← call .shutdown
      return some (.ok ())
    else return none

/-- One turn of the loop of `serve`. -/
def serveTurn [Inhabited Config] : Serving Config Description Turn := do
  match ← recv with
  | .ok request =>
    let shuttingDown := request.request.any Request.Arm.isShutdown
    let outcome ← (dispatch request).run
    conclude request.seq shuttingDown outcome
  -- The frontend is gone; nothing left to serve.
  | .error (.nng e) => if isClosed e then return some (.ok ()) else return some (.error (.nng e))
  | .error (.decode e) =>
    match ← send (undecodable e) with
    | .error e => return some (.error e)
    | .ok () => return none
  | .error e => return some (.error e)

/-- Convenience for a plugin that supports every encoding this crate implements. -/
def helloResult (req : Hello) (plugin : PluginInfo)
    (capabilities : Capabilities) (device : DeviceInfo) : HelloResult where
  protocol := protocolVersion
  plugin := some plugin
  capabilities := some capabilities
  device := some device
  encodings := Encoding.negotiateEncodings req.acceptEncodings Encoding.encodings
  codecs := Encoding.negotiateCodecs req.acceptCodecs Encoding.codecs

end OpenMso.Server
