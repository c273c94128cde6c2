import OpenMso.Foundation.Linearization
import OpenMso.Server.Discipline

/-! # The control loop as a machine that does one thing at a time

The machine answers a message in one step, and a thread ends a capture in one.
`Served.step` reads a step off everything the control loop did about a message.
-/

namespace OpenMso.Server

open Foundation Foundation.Register Proto

set_option autoImplicit false

variable {Config Description σ : Type}

/-- What the plugin is at, as seen by the frontend. -/
inductive Phase where
  | fresh
  | ready
  | running
  | stopping
  | stopped
  deriving DecidableEq, Repr

/-- A call of the plugin and what it returned. -/
structure Returned (Config Description : Type) where
  handler : Handler Config
  result : handler.Result Description

inductive Label (Config Description : Type) where
  | answered (message : Except String (Request Config)) (calls : List (Returned Config Description))
      (response : Response Config Description)
  | ended (event : Event)
  | shutDown

def Label.isAnswer : Label Config Description → Bool
  | .answered _ _ _ => true
  | _ => false

/-- What becomes of a request: an answer at once, or a call of its handler. -/
inductive Verdict (Config Description : Type) where
  | answer (outcome : Reply (Response.Arm Config Description))
  | call
  | silence

namespace Phase

def of (greeted running : Bool) : Phase :=
  if greeted then (if running then .running else .ready) else .fresh

def verdict : Phase → Request.Arm Config → Verdict Config Description
  | .fresh, .hello _ => .call
  | .fresh, _ => .answer (.error (.invalid "Hello must be the first request"))
  | .ready, .hello _ => .answer (.error (.invalid "Hello has already been answered"))
  | .ready, .acquireStop _ => .answer (.ok .acquireStop)
  | .ready, .shutdown => .answer (.ok .shutdown)
  | .ready, _ => .call
  | .running, .hello _ => .answer (.error (.invalid "Hello has already been answered"))
  | .running, .acquireStop _ => .call
  | .running, .reset => .call
  | .running, .shutdown => .answer (.ok .shutdown)
  | .running, _ => .answer (.error busy)
  | _, _ => .silence

def after : Phase → Request.Arm Config → Reply (Response.Arm Config Description) → Phase
  | phase, _, .error _ => phase
  | _, .hello _, .ok _ => .ready
  | _, .acquireStart _, .ok _ => .running
  | _, .reset, .ok _ => .ready
  | _, .shutdown, .ok _ => .stopping
  | phase, _, .ok _ => phase

/-- The capture is over. -/
def settle : Phase → Phase
  | .running => .ready
  | phase => phase

/-- A `Shutdown` has been granted. -/
def isOver : Phase → Bool
  | .stopping => true
  | .stopped => true
  | _ => false

@[simp] theorem isOver_of (greeted running : Bool) : (of greeted running).isOver = false := by
  cases greeted <;> cases running <;> rfl

theorem settle_of (greeted running : Bool) : (of greeted running).settle = of greeted false := by
  cases greeted <;> cases running <;> rfl

variable [Inhabited Config]

inductive Step : Phase → Label Config Description → Phase → Prop
  | undecodable (e : String) (phase : Phase) (h : phase.isOver = false) :
      Step phase (.answered (.error e) [] (undecodable e)) phase
  | empty (seq : UInt32) (phase : Phase) (h : phase.isOver = false) :
      Step phase (.answered (.ok ⟨seq, none⟩) []
        (respond seq (.error (.invalid "request carries no payload")))) phase
  | answered (seq : UInt32) (arm : Request.Arm Config) (phase : Phase)
      (outcome : Reply (Response.Arm Config Description)) (h : phase.verdict arm = .answer outcome) :
      Step phase (.answered (.ok ⟨seq, some arm⟩) [] (respond seq outcome)) (phase.after arm outcome)
  | called (seq : UInt32) (arm : Request.Arm Config) (phase : Phase)
      (r : (armHandler arm).Result Description)
      (h : (phase.verdict arm : Verdict Config Description) = .call) :
      Step phase (.answered (.ok ⟨seq, some arm⟩) [⟨armHandler arm, r⟩]
        (respond seq (armReply arm r))) (phase.after arm (armReply arm r))
  | ended (event : Event) (phase : Phase) (h : Events.endsCapture event = true) :
      Step phase (.ended event) phase.settle
  | shutDown : Step .stopping .shutDown .stopped

theorem Step.of_called {seq : UInt32} {arm : Request.Arm Config} {phase next : Phase}
    {r : (armHandler arm).Result Description}
    (h : (phase.verdict arm : Verdict Config Description) = .call)
    (hNext : phase.after arm (armReply arm r) = next) :
    Step phase (.answered (.ok ⟨seq, some arm⟩) [⟨armHandler arm, r⟩]
      (respond seq (armReply arm r))) next :=
  hNext ▸ .called seq arm phase r h

end Phase

namespace Entry

/-- The control loop has looked at `running`, or written it. -/
def isAccess : Entry Config Description → Bool
  | .loaded _ => true
  | .stored _ => true
  | _ => false

def returned? : Entry Config Description → Option (Returned Config Description)
  | .returned handler r => some ⟨handler, r⟩
  | _ => none

end Entry

/-- The messages that have been answered, with what was done about each and the reply. -/
def exchanges : Log Config Description → List (Exchange Config Description × Response Config Description)
  | [] => []
  | .replied response _ _ :: log =>
    (pending log).toList.map (fun x => (x, response)) ++ exchanges log
  | _ :: log => exchanges log

/-- The exchange with what happens next about its message. -/
def Exchange.followedBy (x : Exchange Config Description) (rest : Log Config Description) :
    Exchange Config Description :=
  { x with entries := rest ++ x.entries }

@[simp] theorem Exchange.followedBy_message (x : Exchange Config Description)
    (rest : Log Config Description) : (x.followedBy rest).message = x.message := rfl
@[simp] theorem Exchange.followedBy_greeted (x : Exchange Config Description)
    (rest : Log Config Description) : (x.followedBy rest).greeted = x.greeted := rfl

theorem Exchange.acts_followedBy (x : Exchange Config Description) (rest : Log Config Description) :
    (x.followedBy rest).acts = (rest.filter fun entry => !entry.isPush) ++ x.acts :=
  List.filter_append _ _

theorem Exchange.followedBy_note (x : Exchange Config Description) (rest : Log Config Description)
    (entry : Entry Config Description) :
    (x.note entry).followedBy rest = x.followedBy (rest ++ [entry]) := by
  simp [followedBy, note]

theorem Exchange.acts_note (x : Exchange Config Description) {entry : Entry Config Description}
    (hPush : entry.isPush = false) : (x.note entry).acts = entry :: x.acts := by
  simp [acts, note, hPush]

def Exchange.label (x : Exchange Config Description) (response : Response Config Description) :
    Label Config Description :=
  .answered x.message (x.entries.filterMap Entry.returned?) response

/-- An exchange takes effect when `running` is accessed for the last time, or else when the
message is received. -/
def Entry.role : Entry Config Description → Option (Exchange Config Description) →
    Role (Exchange Config Description × Response Config Description) (Label Config Description)
  | .replied response _ _, some x => .ends (x, response)
  | .received _ _ _, _ => .point
  | .loaded _, _ => .point
  | .stored _, _ => .point
  | .begun _ event, _ => if Events.endsCapture event then .alone (.ended event) else .silent
  | .entered .shutdown, _ => .alone .shutDown
  | _, _ => .silent

def reading : Reading (Entry Config Description)
    (Exchange Config Description × Response Config Description) (Label Config Description) where
  role entry log := entry.role (pending log)
  label operation := operation.1.label operation.2

/-- What the entry does on its own, whatever message is in hand. -/
def Entry.aside : Entry Config Description → Option (Label Config Description)
  | .begun _ event => if Events.endsCapture event then some (.ended event) else none
  | .entered .shutdown => some .shutDown
  | _ => none

/-- The reply grants a `Shutdown`. -/
def grantsShutdown : Response Config Description → Bool
  | ⟨_, none, some .shutdown⟩ => true
  | _ => false

theorem grantsShutdown_iff {response : Response Config Description} :
    grantsShutdown response = true ↔ ∃ seq, response = ⟨seq, none, some .shutdown⟩ := by
  constructor
  · intro h
    obtain ⟨seq, error, answer⟩ := response
    cases error with
    | some e => cases h
    | none =>
      cases answer with
      | none => cases h
      | some answer =>
        cases answer with
        | shutdown => exact ⟨seq, rfl⟩
        | _ => cases h
  · rintro ⟨seq, rfl⟩
    rfl

/-- Where the reply leaves the plugin, with the cells as they are then. -/
def Phase.left (response : Response Config Description) (greeted running : Bool) : Phase :=
  if grantsShutdown response then .stopping else .of greeted running

variable [Inhabited Config]

/-- What was done about a message is one step, from the phase that its looks at `running`
tell of. -/
theorem Served.step {message : Except String (Request Config)} {greeted : Bool}
    {acts : Log Config Description} {response : Response Config Description}
    (h : Served message greeted acts response) {standing : Bool}
    (hStanding : standing = true → greeted = true)
    (hLoaded : ∀ running, .loaded running ∈ acts → standing = running) :
    Phase.Step (.of greeted standing) (.answered message (acts.filterMap Entry.returned?) response)
      (.left response (lastWrite Entry.writesGreeted greeted acts)
        (lastWrite Entry.writesRunning standing acts)) := by
  cases h with
  | undecodable e => exact .undecodable e _ (Phase.isOver_of _ _)
  | empty seq => exact .empty seq _ (Phase.isOver_of _ _)
  | ungreeted seq arm hArm =>
    refine .answered seq arm (.of false standing) (.error _) ?_
    cases arm with
    | hello => cases hArm
    | _ => rfl
  | greetedBefore seq req =>
    refine .answered seq (.hello req) (.of true standing) (.error _) ?_
    cases standing <;> rfl
  | busy seq arm hArm =>
    obtain rfl := hLoaded true List.mem_cons_self
    refine .answered seq arm .running (.error Server.busy) ?_
    cases arm with
    | hello | acquireStop | reset | shutdown => cases hArm
    | _ => rfl
  | idle seq req =>
    obtain rfl := hLoaded false List.mem_cons_self
    exact .answered seq (.acquireStop req) .ready (.ok .acquireStop) rfl
  | shutdown seq =>
    cases standing with
    | false => exact .answered seq .shutdown .ready (.ok .shutdown) rfl
    | true => exact .answered seq .shutdown .running (.ok .shutdown) rfl
  | called seq arm hArm r =>
    cases arm with
    | shutdown => cases hArm
    | hello req =>
      obtain rfl : standing = false := by
        cases standing with
        | false => rfl
        | true => cases hStanding rfl
      rcases r with e | result
      · exact .called seq (.hello req) .fresh (Except.error e) rfl
      · exact .called seq (.hello req) .fresh (Except.ok result) rfl
    | acquireStart req =>
      rcases r with e | ⟨⟩
      · obtain rfl := hLoaded false (by simp [Server.called, postlude, preamble])
        exact .called seq (.acquireStart req) .ready (Except.error e) rfl
      · obtain rfl := hLoaded false (by simp [Server.called, postlude, preamble])
        exact .called seq (.acquireStart req) .ready (Except.ok ()) rfl
    | acquireStop req =>
      obtain rfl := hLoaded true (by simp [Server.called, postlude, preamble])
      exact .of_called rfl (by cases r <;> rfl)
    | reset =>
      cases standing with
      | false =>
        rcases r with e | ⟨⟩
        · exact .called seq .reset .ready (Except.error e) rfl
        · exact .called seq .reset .ready (Except.ok ()) rfl
      | true =>
        rcases r with e | ⟨⟩
        · exact .called seq .reset .running (Except.error e) rfl
        · exact .called seq .reset .running (Except.ok ()) rfl
    | _ =>
      obtain rfl := hLoaded false (by simp [Server.called, postlude, preamble, looksAtRunning])
      exact .of_called rfl (by cases r <;> rfl)

end OpenMso.Server
