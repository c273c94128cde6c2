import OpenMso.Server.Interleaving
import OpenMso.Server.Stages

/-! # What a log of the plugin process can look like

`Served` lists every way a message can be answered, with all that the control
loop does in between; `Allowed` says of each entry what must have gone before
it. `Exchanges` proves that every run keeps to them, so that a property of the
control loop is a property of orderly logs.
-/

namespace OpenMso.Server

open Foundation Foundation.Register Proto

set_option autoImplicit false

variable {Config Description : Type}

namespace Entry

/-- The beginning or the end of an exchange. -/
def isMessage : Entry Config Description → Bool
  | .received _ _ _ => true
  | .replied _ _ _ => true
  | _ => false

/-- Not the control loop's doing. -/
def isPush : Entry Config Description → Bool
  | .begun _ _ => true
  | .enqueued _ _ => true
  | _ => false

def writesRunning : Entry Config Description → Option Bool
  | .stored running => some running
  | .begun _ event => if Events.endsCapture event then some false else none
  | _ => none

def writesGreeted : Entry Config Description → Option Bool
  | .greeted => some true
  | _ => none

end Entry

abbrev Log (Config Description : Type) := List (Entry Config Description)

/-- The two cells, as the log left them. -/
def runningIn (log : Log Config Description) : Bool := lastWrite Entry.writesRunning false log
def greetedIn (log : Log Config Description) : Bool := lastWrite Entry.writesGreeted false log

/-- A message in hand: what the cells held when it came, and what happened since. -/
structure Exchange (Config Description : Type) where
  message : Except String (Request Config)
  greeted : Bool
  running : Bool
  entries : Log Config Description

namespace Exchange

def note (entry : Entry Config Description) (x : Exchange Config Description) :
    Exchange Config Description :=
  { x with entries := entry :: x.entries }

/-- What the control loop did about the message. -/
def acts (x : Exchange Config Description) : Log Config Description :=
  x.entries.filter fun entry => !entry.isPush

end Exchange

/-- The message that has been received and not been answered. -/
def pending : Log Config Description → Option (Exchange Config Description)
  | [] => none
  | .received message greeted running :: _ => some ⟨message, greeted, running, []⟩
  | .replied _ _ _ :: _ => none
  | entry :: log => (pending log).map (Exchange.note entry)

/-- This message is in hand: what `greeted` was when it came, and what has been done
about it since. -/
def InHand (log : Log Config Description) (message : Except String (Request Config))
    (greeted : Bool) (acts : Log Config Description) : Prop :=
  ∃ x, pending log = some x ∧ x.message = message ∧ x.greeted = greeted ∧ x.acts = acts

/-- A `Shutdown` has been answered without error. -/
def Quit (log : Log Config Description) : Prop :=
  ∃ seq greeted running, .replied ⟨seq, none, some .shutdown⟩ greeted running ∈ log

/-- The requests dispatch answers only after a look at `running`. -/
def looksAtRunning : Request.Arm Config → Bool
  | .hello _ => false
  | .reset => false
  | .shutdown => false
  | _ => true

/-- The requests that a running capture blocks. -/
def isBlocked : Request.Arm Config → Bool
  | .acquireStop _ => false
  | arm => looksAtRunning arm

/-- What dispatch does before it calls the handler. -/
def preamble : Request.Arm Config → Log Config Description
  | .acquireStart _ => [.stored true, .loaded false]
  | .acquireStop _ => [.loaded true]
  | arm => if looksAtRunning arm then [.loaded false] else []

variable [Inhabited Config]

/-- What dispatch does once the handler has returned. -/
def postlude : (arm : Request.Arm Config) → (armHandler arm).Result Description →
    Log Config Description
  | .hello _, .ok _ => [.greeted]
  | .acquireStart _, .error _ => [.stored false]
  | .reset, .ok _ => [.stored false]
  | _, _ => []

/-- A call that has returned, the newest entry first. -/
def called (arm : Request.Arm Config) (r : (armHandler arm).Result Description) :
    Log Config Description :=
  .returned (armHandler arm) r :: .entered (armHandler arm) :: preamble arm

/-- The ways to answer a message: what came, what was done about it while `greeted`
was what it was, and the reply. -/
inductive Served : Except String (Request Config) → Bool → Log Config Description →
    Response Config Description → Prop
  | undecodable (e : String) (greeted : Bool) : Served (.error e) greeted [] (undecodable e)
  | empty (seq : UInt32) (greeted : Bool) : Served (.ok ⟨seq, none⟩) greeted []
      (respond seq (.error (.invalid "request carries no payload")))
  | ungreeted (seq : UInt32) (arm : Request.Arm Config) (h : arm.isHello = false) :
      Served (.ok ⟨seq, some arm⟩) false []
        (respond seq (.error (.invalid "Hello must be the first request")))
  | greetedBefore (seq : UInt32) (req : Hello) : Served (.ok ⟨seq, some (.hello req)⟩) true []
      (respond seq (.error (.invalid "Hello has already been answered")))
  | busy (seq : UInt32) (arm : Request.Arm Config) (h : isBlocked arm = true) :
      Served (.ok ⟨seq, some arm⟩) true [.loaded true] (respond seq (.error busy))
  | idle (seq : UInt32) (req : AcquireStop) : Served (.ok ⟨seq, some (.acquireStop req)⟩) true
      [.loaded false] (respond seq (.ok .acquireStop))
  | shutdown (seq : UInt32) : Served (.ok ⟨seq, some .shutdown⟩) true []
      (respond seq (.ok .shutdown))
  | called (seq : UInt32) (arm : Request.Arm Config) (h : arm.isShutdown = false)
      (r : (armHandler arm).Result Description) :
      Served (.ok ⟨seq, some arm⟩) (!arm.isHello) (postlude arm r ++ called arm r)
        (respond seq (armReply arm r))

/-- What an entry says about the log before it. -/
def Allowed : Entry Config Description → Log Config Description → Prop
  | .received _ greeted running, log =>
    pending log = none ∧ ¬ Quit log ∧ greeted = greetedIn log ∧ running = runningIn log
  | .loaded running, log => running = runningIn log ∧
    ∃ seq arm, looksAtRunning arm = true ∧ InHand log (.ok ⟨seq, some arm⟩) true []
  | .stored true, log =>
    ∃ seq req, InHand log (.ok ⟨seq, some (.acquireStart req)⟩) true [.loaded false]
  | .stored false, log => ∃ seq arm r, postlude arm r = [(.stored false : Entry Config Description)] ∧
    InHand log (.ok ⟨seq, some arm⟩) true (called arm r)
  | .greeted, log => ∃ seq req result,
    InHand log (.ok ⟨seq, some (.hello req)⟩) false (called (.hello req) (Except.ok result))
  | .entered handler, log => (∃ seq arm, handler = armHandler arm ∧ arm.isShutdown = false ∧
      InHand log (.ok ⟨seq, some arm⟩) (!arm.isHello) (preamble arm)) ∨
    handler = .shutdown ∧ pending log = none ∧ Quit log ∧ .entered .shutdown ∉ log
  | .returned handler _, log => (∃ seq arm, handler = armHandler arm ∧ arm.isShutdown = false ∧
      InHand log (.ok ⟨seq, some arm⟩) (!arm.isHello) (.entered handler :: preamble arm)) ∨
    handler = .shutdown ∧ pending log = none ∧ .entered .shutdown ∈ log
  | .replied response greeted running, log => greeted = greetedIn log ∧ running = runningIn log ∧
    ∃ x, pending log = some x ∧ Served x.message x.greeted x.acts response
  | .begun _ _, _ => True
  | .enqueued push event, log => .begun push event ∈ log

def Orderly : Log Config Description → Prop
  | [] => True
  | entry :: log => Allowed entry log ∧ Orderly log

theorem Orderly.suffix {newer older : Log Config Description} (h : Orderly (newer ++ older)) :
    Orderly older := by
  induction newer with
  | nil => exact h
  | cons entry newer ih => exact ih h.2

theorem Orderly.allowed {newer older : Log Config Description} {entry : Entry Config Description}
    (h : Orderly (newer ++ entry :: older)) : Allowed entry older :=
  h.suffix.1

omit [Inhabited Config] in
theorem pending_cons {entry : Entry Config Description} (log : Log Config Description)
    (h : entry.isMessage = false) :
    pending (entry :: log) = (pending log).map (Exchange.note entry) := by
  cases entry <;> first | rfl | cases h

omit [Inhabited Config] in
theorem InHand.act {log acts : Log Config Description} {message : Except String (Request Config)}
    {greeted : Bool} {entry : Entry Config Description} (h : InHand log message greeted acts)
    (hMessage : entry.isMessage = false) (hPush : entry.isPush = false) :
    InHand (entry :: log) message greeted (entry :: acts) := by
  obtain ⟨x, hx, rfl, rfl, rfl⟩ := h
  refine ⟨x.note entry, ?_, rfl, rfl, ?_⟩
  · rw [pending_cons log hMessage, hx]
    rfl
  · simp [Exchange.acts, Exchange.note, hPush]

omit [Inhabited Config] in
theorem Exchange.acts_push (x : Exchange Config Description) {entry : Entry Config Description}
    (hPush : entry.isPush = true) : (x.note entry).acts = x.acts := by
  simp [Exchange.acts, Exchange.note, hPush]

omit [Inhabited Config] in
theorem InHand.push {log acts : Log Config Description} {message : Except String (Request Config)}
    {greeted : Bool} {entry : Entry Config Description} (h : InHand log message greeted acts)
    (hMessage : entry.isMessage = false) (hPush : entry.isPush = true) :
    InHand (entry :: log) message greeted acts := by
  obtain ⟨x, hx, rfl, rfl, rfl⟩ := h
  refine ⟨x.note entry, ?_, rfl, rfl, x.acts_push hPush⟩
  rw [pending_cons log hMessage, hx]
  rfl

omit [Inhabited Config] in
theorem InHand.unique {log acts acts' : Log Config Description}
    {message message' : Except String (Request Config)} {greeted greeted' : Bool}
    (h : InHand log message greeted acts) (h' : InHand log message' greeted' acts') :
    message = message' ∧ greeted = greeted' ∧ acts = acts' := by
  obtain ⟨x, hx, rfl, rfl, rfl⟩ := h
  obtain ⟨y, hy, rfl, rfl, rfl⟩ := h'
  obtain rfl := Option.some.inj (hx.symm.trans hy)
  exact ⟨rfl, rfl, rfl⟩

omit [Inhabited Config] in
theorem mem_of_mem_entries {log : Log Config Description} {x : Exchange Config Description}
    (hx : pending log = some x) {entry : Entry Config Description} (hMem : entry ∈ x.entries) :
    entry ∈ log := by
  induction log generalizing x with
  | nil => cases hx
  | cons first log ih =>
    cases hMessage : first.isMessage with
    | false =>
      rw [pending_cons log hMessage] at hx
      obtain ⟨y, hy, rfl⟩ := Option.map_eq_some_iff.mp hx
      rcases List.mem_cons.mp hMem with rfl | hMem
      · exact List.mem_cons_self
      · exact List.mem_cons_of_mem _ (ih hy hMem)
    | true =>
      cases first with
      | received =>
        cases hx
        cases hMem
      | replied => cases hx
      | _ => cases hMessage

omit [Inhabited Config] in
theorem InHand.mem_log {log acts : Log Config Description}
    {message : Except String (Request Config)} {greeted : Bool} (h : InHand log message greeted acts)
    {entry : Entry Config Description} (hMem : entry ∈ acts) : entry ∈ log := by
  obtain ⟨x, hx, rfl, rfl, rfl⟩ := h
  exact mem_of_mem_entries hx (List.mem_filter.mp hMem).1

/-- The cells, from what they held when the message in hand came. -/
theorem cells_of_pending {log : Log Config Description} (h : Orderly log)
    {x : Exchange Config Description} (hx : pending log = some x) :
    greetedIn log = lastWrite Entry.writesGreeted x.greeted x.entries ∧
      runningIn log = lastWrite Entry.writesRunning x.running x.entries := by
  induction log generalizing x with
  | nil => cases hx
  | cons entry log ih =>
    cases hMessage : entry.isMessage with
    | false =>
      rw [pending_cons log hMessage] at hx
      obtain ⟨y, hy, rfl⟩ := Option.map_eq_some_iff.mp hx
      obtain ⟨hGreeted, hRunning⟩ := ih h.2 hy
      rw [greetedIn, runningIn, lastWrite, lastWrite]
      exact ⟨congrArg _ hGreeted, congrArg _ hRunning⟩
    | true =>
      cases entry with
      | received message greeted running =>
        obtain ⟨⟨-, -, rfl, rfl⟩, -⟩ := h
        cases hx
        exact ⟨rfl, rfl⟩
      | replied => cases hx
      | _ => cases hMessage

theorem greetedIn_of_inHand {log acts : Log Config Description} (h : Orderly log)
    {message : Except String (Request Config)} {greeted : Bool}
    (hHand : InHand log message greeted acts) (hActs : (.greeted : Entry Config Description) ∉ acts) :
    greetedIn log = greeted := by
  obtain ⟨x, hx, rfl, rfl, rfl⟩ := hHand
  rw [(cells_of_pending h hx).1]
  apply lastWrite_eq_of_forall _ (.inl rfl)
  intro entry hEntry v hWrite
  cases entry with
  | greeted => exact absurd (List.mem_filter.mpr ⟨hEntry, rfl⟩) hActs
  | _ => cases hWrite

theorem not_quit_of_pending {log : Log Config Description} (h : Orderly log)
    {x : Exchange Config Description} (hx : pending log = some x) : ¬ Quit log := by
  induction log generalizing x with
  | nil => cases hx
  | cons entry log ih =>
    rintro ⟨seq, greeted, running, hMem⟩
    cases hMessage : entry.isMessage with
    | false =>
      rw [pending_cons log hMessage] at hx
      obtain ⟨y, hy, -⟩ := Option.map_eq_some_iff.mp hx
      rcases List.mem_cons.mp hMem with rfl | hMem
      · cases hMessage
      · exact ih h.2 hy ⟨seq, greeted, running, hMem⟩
    | true =>
      cases entry with
      | received message greeted' running' =>
        rcases List.mem_cons.mp hMem with hEq | hMem
        · cases hEq
        · exact h.1.2.1 ⟨seq, greeted, running, hMem⟩
      | replied => cases hx
      | _ => cases hMessage

theorem armHandler_ne_shutdown {arm : Request.Arm Config} (h : arm.isShutdown = false) :
    armHandler arm ≠ .shutdown := by
  intro hArm
  cases arm with
  | shutdown => cases h
  | _ => cases hArm

theorem quit_of_entered_shutdown {log : Log Config Description} (h : Orderly log)
    (hMem : .entered .shutdown ∈ log) : Quit log := by
  induction log with
  | nil => cases hMem
  | cons entry log ih =>
    have hQuit : Quit log := by
      rcases List.mem_cons.mp hMem with rfl | hMem
      · rcases h.1 with ⟨seq, arm, hArm, hShutdown, -⟩ | ⟨-, -, hQuit, -⟩
        · exact absurd hArm.symm (armHandler_ne_shutdown hShutdown)
        · exact hQuit
      · exact ih h.2 hMem
    obtain ⟨seq, greeted, running, hReply⟩ := hQuit
    exact ⟨seq, greeted, running, List.mem_cons_of_mem _ hReply⟩

end OpenMso.Server
