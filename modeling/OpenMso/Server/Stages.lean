import OpenMso.Server.ControlLoop

/-! # The stages of the control loop

The control loop as an automaton: the stage tells which request is in hand and
how far it has come. `follows_serveTurn` is its tie to the code.
-/

namespace OpenMso.Server

open Foundation Foundation.Program Proto

set_option autoImplicit false

variable {Config Description : Type} [Inhabited Config]

/-- The one handler a request may be passed to. -/
def armHandler : Request.Arm Config → Handler Config
  | .hello req => .hello req
  | .describe => .describe
  | .getConfig => .getConfig
  | .setConfig config => .setConfig (config.getD default)
  | .acquireStart req => .acquireStart req
  | .acquireStop req => .acquireStop req
  | .reset => .reset
  | .shutdown => .shutdown

/-- The reply made of what the handler returned. -/
def armReply : (arm : Request.Arm Config) → (armHandler arm).Result Description →
    Reply (Response.Arm Config Description)
  | .hello _, r => Except.map .hello r
  | .describe, r => Except.map .describe r
  | .getConfig, r => Except.map .getConfig r
  | .setConfig _, r => Except.map .setConfig r
  | .acquireStart _, r => Except.map (fun _ => .acquireStart) r
  | .acquireStop _, r => Except.map (fun _ => .acquireStop) r
  | .reset, r => Except.map (fun _ => .reset) r
  | .shutdown, _ => .ok .shutdown

variable (Config Description) in
inductive Stage where
  | head
  | greeting (seq : UInt32) (arm : Request.Arm Config)
  | checking (seq : UInt32) (arm : Request.Arm Config)
  | claiming (seq : UInt32) (req : AcquireStart)
  | entering (seq : UInt32) (arm : Request.Arm Config)
  | inside (seq : UInt32) (arm : Request.Arm Config)
  | welcoming (seq : UInt32) (req : Hello) (result : HelloResult)
  | releasing (seq : UInt32) (arm : Request.Arm Config) (r : (armHandler arm).Result Description)
  | replying (shuttingDown : Bool) (response : Response Config Description)
  | stopping
  | inShutdown

namespace Stage

def op : Stage Config Description → Op Config Description
  | .head => .recv
  | .greeting _ _ => .isGreeted
  | .checking _ _ => .isRunning
  | .claiming _ _ => .setRunning true
  | .entering _ arm => .enter (armHandler arm)
  | .inside _ arm => .leave (armHandler arm)
  | .welcoming _ _ _ => .setGreeted
  | .releasing _ _ _ => .setRunning false
  | .replying _ response => .send response
  | .stopping => .enter .shutdown
  | .inShutdown => .leave .shutdown

/-- Straight to the reply: every request but `Shutdown` leaves the loop running. -/
def answering (seq : UInt32) (outcome : Reply (Response.Arm Config Description)) :
    Stage Config Description :=
  .replying false (respond seq outcome)

def afterRecv : Except OpenMso.Error (Request Config) →
    Position (Stage Config Description) (Except OpenMso.Error Unit)
  | .ok ⟨seq, some arm⟩ => .on (.greeting seq arm)
  | .ok ⟨seq, none⟩ => .on (answering seq (.error (.invalid "request carries no payload")))
  | .error (.nng e) => .halted (if isClosed e then .ok () else .error (.nng e))
  | .error (.decode e) => .on (.replying false (undecodable e))
  | .error e => .halted (.error e)

/-- Past the check that `Hello` came first. -/
def admitted (seq : UInt32) (greeted : Bool) : Request.Arm Config → Stage Config Description
  | .hello req =>
    if greeted then answering seq (.error (.invalid "Hello has already been answered"))
    else .entering seq (.hello req)
  | .reset => .entering seq .reset
  | .shutdown => .replying true (respond seq (.ok .shutdown))
  | arm => .checking seq arm

def afterGreeted (seq : UInt32) (arm : Request.Arm Config) (greeted : Bool) :
    Stage Config Description :=
  if !greeted && !arm.isHello then
    .replying arm.isShutdown (respond seq (.error (.invalid "Hello must be the first request")))
  else admitted seq greeted arm

def afterRunning (seq : UInt32) (arm : Request.Arm Config) (running : Bool) :
    Stage Config Description :=
  match arm with
  | .acquireStop req =>
    if running then .entering seq (.acquireStop req) else answering seq (.ok .acquireStop)
  | .acquireStart req => if running then answering seq (.error busy) else .claiming seq req
  | arm => if running then answering seq (.error busy) else .entering seq arm

/-- Whether dispatch has a flag to set once the handler has returned. -/
def afterReturn (seq : UInt32) : (arm : Request.Arm Config) →
    (armHandler arm).Result Description → Stage Config Description
  | .hello req, .ok result => .welcoming seq req result
  | .acquireStart req, .error e => .releasing seq (.acquireStart req) (Except.error e)
  | .reset, .ok () => .releasing seq .reset (Except.ok ())
  | arm, r => answering seq (armReply arm r)

def afterSend (shuttingDown : Bool) (response : Response Config Description) :
    Except OpenMso.Error Unit → Position (Stage Config Description) (Except OpenMso.Error Unit)
  | .error e => .halted (.error e)
  | .ok () => .on (if shuttingDown && response.error.isNone then .stopping else .head)

def next : (stage : Stage Config Description) → stage.op.Answer →
    Position (Stage Config Description) (Except OpenMso.Error Unit)
  | .head, received => afterRecv received
  | .greeting seq arm, greeted => .on (afterGreeted seq arm greeted)
  | .checking seq arm, running => .on (afterRunning seq arm running)
  | .claiming seq req, _ => .on (.entering seq (.acquireStart req))
  | .entering seq arm, _ => .on (.inside seq arm)
  | .inside seq arm, r => .on (afterReturn seq arm r)
  | .welcoming seq _ result, _ => .on (answering seq (.ok (.hello result)))
  | .releasing seq arm r, _ => .on (answering seq (armReply arm r))
  | .replying shuttingDown response, sent => afterSend shuttingDown response sent
  | .stopping, _ => .on .inShutdown
  | .inShutdown, _ => .halted (.ok ())

end Stage

variable (Config Description) in
def controlLoop : Automaton (Op Config Description) Op.Answer (Except OpenMso.Error Unit) where
  Stage := Stage Config Description
  head := .head
  op := Stage.op
  next := Stage.next

abbrev FollowsLoop (program : Serving Config Description Turn)
    (position : Position (Stage Config Description) (Except OpenMso.Error Unit)) : Prop :=
  Follows (controlLoop Config Description) program position

theorem follows_stage (stage : Stage Config Description)
    {next : stage.op.Answer → Serving Config Description Turn}
    (h : ∀ answer, FollowsLoop (next answer) (stage.next answer)) :
    FollowsLoop (.ask stage.op next) (.on stage) :=
  .ask (A := controlLoop Config Description) stage next h

theorem follows_conclude (seq : UInt32) (shuttingDown : Bool)
    (outcome : Reply (Response.Arm Config Description)) :
    FollowsLoop (conclude seq shuttingDown outcome)
      (.on (.replying shuttingDown (respond seq outcome))) := by
  refine follows_stage (.replying shuttingDown _) fun sent => ?_
  rcases sent with e | ⟨⟩
  · exact .halted _
  · change FollowsLoop (if _ then _ else _) (.on (if _ then _ else _))
    generalize (shuttingDown && (respond seq outcome).error.isNone) = stop
    cases stop with
    | false => exact .again
    | true =>
      exact follows_stage .stopping fun _ => follows_stage .inShutdown fun _ => .halted _

theorem follows_call (seq : UInt32) (arm : Request.Arm Config)
    {k : (armHandler arm).Result Description → Serving Config Description Turn}
    (h : ∀ r, FollowsLoop (k r) (.on (Stage.afterReturn seq arm r))) :
    FollowsLoop (call (armHandler arm) >>= k) (.on (.entering seq arm)) :=
  follows_stage (.entering seq arm) fun _ => follows_stage (.inside seq arm) h

theorem follows_dispatchArm (seq : UInt32) (arm : Request.Arm Config) (greeted : Bool) :
    FollowsLoop ((dispatchArm greeted arm : Handling Config Description _).run >>=
        conclude seq arm.isShutdown)
      (.on (Stage.admitted seq greeted arm)) := by
  cases arm with
  | hello req =>
    cases greeted with
    | true => exact follows_conclude _ _ _
    | false =>
      refine follows_call seq (.hello req) fun r => ?_
      rcases r with e | result
      · exact follows_conclude _ _ _
      · exact follows_stage (.welcoming seq req result) fun _ =>
          follows_conclude _ _ _
  | describe =>
    refine follows_stage (.checking seq .describe) fun running => ?_
    cases running with
    | true => exact follows_conclude _ _ _
    | false =>
      refine follows_call seq .describe fun r => ?_
      cases r <;> exact follows_conclude _ _ _
  | getConfig =>
    refine follows_stage (.checking seq .getConfig) fun running => ?_
    cases running with
    | true => exact follows_conclude _ _ _
    | false =>
      refine follows_call seq .getConfig fun r => ?_
      cases r <;> exact follows_conclude _ _ _
  | setConfig config =>
    refine follows_stage (.checking seq (.setConfig config)) fun running => ?_
    cases running with
    | true => exact follows_conclude _ _ _
    | false =>
      refine follows_call seq (.setConfig config) fun r => ?_
      cases r <;> exact follows_conclude _ _ _
  | acquireStart req =>
    refine follows_stage (.checking seq (.acquireStart req)) fun running => ?_
    cases running with
    | true => exact follows_conclude _ _ _
    | false =>
      refine follows_stage (.claiming seq req) fun _ => ?_
      refine follows_call seq (.acquireStart req) fun r => ?_
      rcases r with e | ⟨⟩
      · exact follows_stage (.releasing seq (.acquireStart req) (Except.error e)) fun _ =>
          follows_conclude _ _ _
      · exact follows_conclude _ _ _
  | acquireStop req =>
    refine follows_stage (.checking seq (.acquireStop req)) fun running => ?_
    cases running with
    | true =>
      refine follows_call seq (.acquireStop req) fun r => ?_
      cases r <;> exact follows_conclude _ _ _
    | false => exact follows_conclude _ _ _
  | reset =>
    refine follows_call seq .reset fun r => ?_
    rcases r with e | ⟨⟩
    · exact follows_conclude _ _ _
    · exact follows_stage (.releasing seq .reset (Except.ok ())) fun _ =>
          follows_conclude _ _ _
  | shutdown => exact follows_conclude _ _ _

/-- The loop of `serve` goes through the stages, whatever it is answered. -/
theorem follows_serveTurn :
    FollowsLoop (serveTurn : Serving Config Description Turn) (.on .head) := by
  refine follows_stage .head fun received => ?_
  rcases received with e | ⟨seq, request⟩
  · cases e with
    | nng e =>
      change FollowsLoop (if _ then _ else _) (.halted (if _ then _ else _))
      cases isClosed e <;> exact .halted _
    | decode e =>
      refine follows_stage (.replying false (undecodable e)) fun sent => ?_
      rcases sent with e | ⟨⟩
      · exact .halted _
      · exact .again
    | io kind message => exact .halted _
    | json message => exact .halted _
    | protocol message => exact .halted _
    | remote e => exact .halted _
  · cases request with
    | none => exact follows_conclude _ _ _
    | some arm =>
      refine follows_stage (.greeting seq arm) fun greeted => ?_
      change FollowsLoop ((if _ then _ else _ : Handling Config Description _).run >>= _)
        (.on (if _ then _ else _))
      generalize (!greeted && !arm.isHello) = refused
      cases refused with
      | true => exact follows_conclude _ _ _
      | false => exact follows_dispatchArm seq arm greeted

end OpenMso.Server
