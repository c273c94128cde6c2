import OpenMso.Foundation.Register
import OpenMso.Foundation.Runs
import OpenMso.Server.ControlLoop
import OpenMso.Server.Events

/-! # The control loop among acquisition threads

Any thread of the plugin may push events at any time. A push is two acts, the
store to `running` and the enqueue; in between the control loop and other
threads may act. The log tells what happened, the newest first.
-/

namespace OpenMso.Server

open Foundation Foundation.Runs Transport Proto

set_option autoImplicit false

section
variable (Config Description : Type)

inductive Entry where
  | received (message : Except String (Request Config)) (greeted running : Bool)
  | loaded (running : Bool)
  | stored (running : Bool)
  | greeted
  | entered (handler : Handler Config)
  | returned (handler : Handler Config) (r : handler.Result Description)
  | replied (response : Response Config Description) (greeted running : Bool)
  | begun (push : Nat) (event : Event)
  | enqueued (push : Nat) (event : Event)

/-- The plugin process. Pushes under way are numbered as they begin. -/
structure Process (σ : Type) where
  control : Serving Config Description Turn
  greeted : Bool
  events : Events
  plugin : σ
  inFlight : List (Nat × Event)
  pushes : Nat
  log : List (Entry Config Description)

end

/-- What happens next, and what the surroundings make of it. -/
inductive Action (σ : Type) where
  /-- The control loop receives, or its socket fails. -/
  | receive (incoming : Except NngError (List UInt8))
  | reply (failure : Option NngError)
  /-- The control loop does whatever else it does next. -/
  | act
  /-- A thread begins to push an event. -/
  | begin (event : Event)
  | finish (push : Nat) (failure : Option NngError)
  /-- A thread changes the plugin's state. -/
  | tamper (plugin : σ)

variable {Config Description σ : Type}

namespace Action

/-- The control loop's own step, as opposed to another thread's. -/
def isControl : Action σ → Bool
  | .receive _ => true
  | .reply _ => true
  | .act => true
  | _ => false

/-- The step in which the socket fails to send a reply. -/
def failsReply : Action σ → Bool
  | .reply (some _) => true
  | _ => false

end Action

namespace Process

def record (s : Process Config Description σ) (entry : Entry Config Description) :
    Process Config Description σ :=
  { s with log := entry :: s.log }

def noteReceived (s : Process Config Description σ) :
    Except OpenMso.Error (Request Config) → Process Config Description σ
  | .ok request => s.record (.received (.ok request) s.greeted s.events.isRunning)
  | .error (.decode e) => s.record (.received (.error e) s.greeted s.events.isRunning)
  | .error _ => s

/-- One operation of the control loop. -/
def perform (plugin : CaptureServer Config Description σ)
    (decode : List UInt8 → Except String (Request Config)) (s : Process Config Description σ) :
    (op : Op Config Description) → Action σ → Option (op.Answer × Process Config Description σ)
  | .recv, .receive incoming => some (decoded decode incoming, s.noteReceived (decoded decode incoming))
  | .send _, .reply (some e) => some (.error (.nng e), s)
  | .send response, .reply none =>
    some (.ok (), s.record (.replied response s.greeted s.events.isRunning))
  | .isGreeted, .act => some (s.greeted, s)
  | .setGreeted, .act => some ((), { s with greeted := true }.record .greeted)
  | .isRunning, .act => some (s.events.isRunning, s.record (.loaded s.events.isRunning))
  | .setRunning running, .act =>
    some ((), { s with events := s.events.setRunning running }.record (.stored running))
  | .enter handler, .act => some ((), s.record (.entered handler))
  | .leave handler, .act =>
    let (r, state) := plugin.handle handler s.plugin
    some (r, { s with plugin := state }.record (.returned handler r))
  | _, _ => none

variable [Inhabited Config]

def step (plugin : CaptureServer Config Description σ)
    (decode : List UInt8 → Except String (Request Config)) (s : Process Config Description σ) :
    Action σ → Option (Process Config Description σ)
  | .begin event =>
    some ({ s with
      events := s.events.noteEnd event
      inFlight := (s.pushes, event) :: s.inFlight
      pushes := s.pushes + 1 }.record (.begun s.pushes event))
  | .finish push failure =>
    match s.inFlight.find? (·.1 == push) with
    | none => none
    | some (_, event) =>
      let (result, events) := s.events.push (fun _ => failure) event
      let s := { s with events, inFlight := s.inFlight.filter (·.1 != push) }
      match result with
      | .ok () => some (s.record (.enqueued push event))
      | .error _ => some s
  | .tamper state => some { s with plugin := state }
  | action =>
    match s.control with
    | .done _ => none
    | .ask op next =>
      (perform plugin decode s op action).map fun (answer, t) =>
        { t with control := Program.unroll serveTurn (next answer) }

def init (socket : Socket Event) (state : σ) : Process Config Description σ :=
  ⟨serveTurn, false, Events.new socket, state, [], 0, []⟩

/-- A state the process can get to from its start. -/
def Reaches (plugin : CaptureServer Config Description σ)
    (decode : List UInt8 → Except String (Request Config)) (actions : List (Action σ))
    (s : Process Config Description σ) : Prop :=
  ∃ socket state, run (step plugin decode) (init socket state) actions = some s

end Process

end OpenMso.Server
