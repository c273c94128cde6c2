import OpenMso.Client
import OpenMso.Server.Exchanges

/-! # A frontend and its plugin

One client, whichever its implementation, the plugin process and the control
socket between them. Requests travel in order. A reply finds its way back by
the ticket of its request, and only while the call that sent it still waits; a
call may give up at any time, and its request may then be withdrawn. The client
makes its calls one after the other, `shutdown` the last.
-/

namespace OpenMso.Session

open Foundation Client Server Proto

set_option autoImplicit false

/-- A client implementation: what each call does in a state `κ`. -/
abbrev Implementation (Config Description κ ε : Type) :=
  (call : Call Config) → κ → Program Client.Op Client.Op.Answer (Except ε (call.Result Description) × κ)

/-- The socket did not take a request, or gave no reply. -/
inductive Failure where
  | send (e : NngError)
  | recv (e : NngError)
  deriving DecidableEq, Repr

section
variable (Config Description κ ε σ : Type)

/-- How the plugin came to a reply: the exchange that ended with it. -/
structure Origin where
  exchange : Exchange Config Description
  response : Response Config Description

/-- A call that has begun, and what it has heard from its socket: a failure or a reply. -/
structure Underway where
  call : Call Config
  program : Program Client.Op Client.Op.Answer (Except ε (call.Result Description) × κ)
  ticket : Option Nat
  heard : Option (Except Failure (Origin Config Description))

/-- A call that has returned, and what it had heard from its socket. -/
structure Finished where
  call : Call Config
  result : Except ε (call.Result Description)
  heard : Option (Except Failure (Origin Config Description))

/-- A reply on its way. -/
structure Parcel where
  ticket : Nat
  bytes : List UInt8
  origin : Origin Config Description

structure System where
  client : κ
  underway : Option (Underway Config Description κ ε)
  /-- `shutdown` has been called. -/
  closed : Bool
  tickets : Nat
  /-- Requests on their way, the oldest first. -/
  requests : List (Nat × List UInt8)
  /-- The request that the plugin has received and not answered. -/
  serving : Option Nat
  replies : List (Parcel Config Description)
  server : Process Config Description σ
  finished : List (Finished Config Description ε)

end

/-- What happens next. -/
inductive Move (Config σ : Type) where
  | call (call : Call Config)
  | send (failure : Option NngError)
  /-- The client receives its reply, or gives up. -/
  | recv (failure : Option NngError)
  /-- The client does whatever it does next about its child process. -/
  | reap
  | withdraw (ticket : Nat)
  | deliver
  | reply
  /-- Anything else that happens to the plugin process. -/
  | server (action : Action σ)

/-- The plugin's socket hands over a message or takes a reply. -/
def crosses {σ : Type} : Action σ → Bool
  | .receive (.ok _) => true
  | .reply none => true
  | _ => false

namespace System

variable {Config Description κ ε σ : Type}

/-- The call goes on with this program, or has returned. -/
def proceed (s : System Config Description κ ε σ) (call : Call Config)
    (program : Program Client.Op Client.Op.Answer (Except ε (call.Result Description) × κ))
    (ticket : Option Nat) (heard : Option (Except Failure (Origin Config Description))) :
    System Config Description κ ε σ :=
  match program with
  | .done (result, client) =>
    { s with client, underway := none, finished := ⟨call, result, heard⟩ :: s.finished }
  | program => { s with underway := some ⟨call, program, ticket, heard⟩ }

/-- The ticket belongs to the call that is under way. -/
def holds (s : System Config Description κ ε σ) (ticket : Nat) : Bool :=
  s.underway.any fun u => u.ticket == some ticket

variable [Inhabited Config]

def step (implementation : Implementation Config Description κ ε)
    (plugin : CaptureServer Config Description σ)
    (decode : List UInt8 → Except String (Request Config))
    (encode : Response Config Description → List UInt8) (s : System Config Description κ ε σ) :
    Move Config σ → Option (System Config Description κ ε σ)
  | .call call =>
    if s.underway.isSome || s.closed then none
    else some ({ s with closed := call.isShutdown }.proceed call
      (implementation call s.client) none none)
  | .send failure =>
    match s.underway, failure with
    | some ⟨call, .ask (.send _) next, ticket, _⟩, some e =>
      some (s.proceed call (next (.error e)) ticket (some (.error (.send e))))
    | some ⟨call, .ask (.send bytes) next, _, heard⟩, none =>
      some ({ s with tickets := s.tickets + 1, requests := s.requests ++ [(s.tickets, bytes)] }.proceed
        call (next (.ok ())) (some s.tickets) heard)
    | _, _ => none
  | .recv failure =>
    match s.underway, failure with
    | some ⟨call, .ask .recv next, ticket, _⟩, some e =>
      some (s.proceed call (next (.error e)) ticket (some (.error (.recv e))))
    | some ⟨call, .ask .recv next, some ticket, _⟩, none =>
      (s.replies.find? (·.ticket == ticket)).map fun parcel =>
        { s with replies := s.replies.filter (·.ticket != ticket) }.proceed call
          (next (.ok parcel.bytes)) (some ticket) (some (.ok parcel.origin))
    | _, _ => none
  | .reap =>
    match s.underway with
    | some ⟨call, .ask .wait next, ticket, heard⟩ => some (s.proceed call (next ()) ticket heard)
    | some ⟨call, .ask .closeStdin next, ticket, heard⟩ => some (s.proceed call (next ()) ticket heard)
    | some ⟨call, .ask .kill next, ticket, heard⟩ => some (s.proceed call (next ()) ticket heard)
    | _ => none
  | .withdraw ticket =>
    if s.holds ticket then none
    else some { s with requests := s.requests.filter (·.1 != ticket) }
  | .deliver =>
    match s.requests with
    | [] => none
    | (ticket, bytes) :: requests =>
      (s.server.step plugin decode (.receive (.ok bytes))).map fun server =>
        { s with requests, serving := some ticket, server }
  | .reply =>
    match s.serving, s.server.control, pending s.server.log with
    | some ticket, .ask (.send response) _, some exchange =>
      (s.server.step plugin decode (.reply none)).map fun server =>
        { s with
          server
          serving := none
          replies := ⟨ticket, encode response, ⟨exchange, response⟩⟩ :: s.replies }
    | _, _, _ => none
  | .server action =>
    if crosses action then none
    else (s.server.step plugin decode action).map fun server => { s with server }

def init (client : κ) (socket : Transport.Socket Event) (state : σ) :
    System Config Description κ ε σ :=
  ⟨client, none, false, 0, [], none, [], Process.init socket state, []⟩

end System

end OpenMso.Session
