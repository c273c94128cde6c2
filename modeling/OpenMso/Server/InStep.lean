import OpenMso.Server.Discipline

/-! # Every message is answered once, in step

What a reply looks like, how soon it comes, and how the loop ends.
-/

namespace OpenMso.Server

open Foundation Foundation.Program Foundation.Runs Proto

set_option autoImplicit false

variable {Config Description σ : Type}

/-- The kinds of request, and of result. -/
inductive Kind where
  | hello
  | describe
  | getConfig
  | setConfig
  | acquireStart
  | acquireStop
  | reset
  | shutdown
  deriving DecidableEq, Repr

def requestKind : Request.Arm Config → Kind
  | .hello _ => .hello
  | .describe => .describe
  | .getConfig => .getConfig
  | .setConfig _ => .setConfig
  | .acquireStart _ => .acquireStart
  | .acquireStop _ => .acquireStop
  | .reset => .reset
  | .shutdown => .shutdown

def resultKind : Response.Arm Config Description → Kind
  | .hello _ => .hello
  | .describe _ => .describe
  | .getConfig _ => .getConfig
  | .setConfig _ => .setConfig
  | .acquireStart => .acquireStart
  | .acquireStop => .acquireStop
  | .reset => .reset
  | .shutdown => .shutdown

/-- A reply that fits its message. -/
structure Fitting (message : Except String (Request Config))
    (response : Response Config Description) : Prop where
  exclusive : response.error.isSome = !response.response.isSome
  echo : ∀ request, message = .ok request → response.seq = request.seq
  kind : ∀ request result, message = .ok request → response.response = some result →
    ∃ arm, request.request = some arm ∧ requestKind arm = resultKind result
  refusal : ∀ e, message = .error e → response.seq = 0 ∧
    ∃ error, response.error = some error ∧ error.code = ErrorCode.errorInvalidRequest.toI32

/-- Nothing was called or written on behalf of the message. -/
def Untouched (entries : Log Config Description) : Prop :=
  (∀ handler, .entered handler ∉ entries) ∧ .greeted ∉ entries ∧
    ∀ running, .stored running ∉ entries

/-- What the control loop does next, until it has ended. -/
def Process.nextOp (s : Process Config Description σ) : Option (Op Config Description) :=
  match s.control with
  | .ask op _ => some op
  | .done _ => none

variable [Inhabited Config]

omit [Inhabited Config] in
theorem fitting_respond {seq : UInt32} {arm : Request.Arm Config}
    {outcome : Reply (Response.Arm Config Description)}
    (h : ∀ result, outcome = .ok result → requestKind arm = resultKind result) :
    Fitting (.ok ⟨seq, some arm⟩) (respond seq outcome) := by
  cases outcome with
  | error e =>
    refine ⟨rfl, ?_, ?_, ?_⟩
    · rintro request ⟨⟩
      rfl
    · rintro request result - ⟨⟩
    · rintro e ⟨⟩
  | ok result =>
    refine ⟨rfl, ?_, ?_, ?_⟩
    · rintro request ⟨⟩
      rfl
    · rintro request result' ⟨⟩ ⟨⟩
      exact ⟨arm, rfl, h result rfl⟩
    · rintro e ⟨⟩

theorem requestKind_armReply {arm : Request.Arm Config} {r : (armHandler arm).Result Description}
    {result : Response.Arm Config Description} (h : armReply arm r = .ok result) :
    requestKind arm = resultKind result := by
  cases arm with
  | shutdown =>
    cases h
    rfl
  | _ =>
    cases r <;> cases h
    rfl

theorem Served.fitting {message : Except String (Request Config)} {greeted : Bool}
    {acts : Log Config Description} {response : Response Config Description}
    (h : Served message greeted acts response) : Fitting message response := by
  cases h with
  | undecodable e =>
    refine ⟨rfl, ?_, ?_, ?_⟩
    · rintro request ⟨⟩
    · rintro request result ⟨⟩
    · rintro e' ⟨⟩
      exact ⟨rfl, _, rfl, rfl⟩
  | empty seq =>
    refine ⟨rfl, ?_, ?_, ?_⟩
    · rintro request ⟨⟩
      rfl
    · rintro request result - ⟨⟩
    · rintro e ⟨⟩
  | idle seq req =>
    refine fitting_respond ?_
    rintro result ⟨⟩
    rfl
  | shutdown seq =>
    refine fitting_respond ?_
    rintro result ⟨⟩
    rfl
  | called seq arm hArm r => exact fitting_respond fun result => requestKind_armReply
  | _ =>
    refine fitting_respond ?_
    rintro result ⟨⟩

/-- An undecodable message has no effect but its reply. -/
theorem untouched_of_undecodable {x : Exchange Config Description} {e : String}
    {response : Response Config Description} (hMessage : x.message = .error e)
    (h : Served x.message x.greeted x.acts response) : Untouched x.entries := by
  have hActs : x.acts = [] := by
    generalize x.acts = acts at h
    rw [hMessage] at h
    cases h
    rfl
  have hNone : ∀ entry : Entry Config Description, entry.isPush = false → entry ∉ x.entries := by
    intro entry hPush hMem
    have hAct : entry ∈ x.acts := by
      refine List.mem_filter.mpr ⟨hMem, ?_⟩
      rw [hPush]
      rfl
    rw [hActs] at hAct
    cases hAct
  exact ⟨fun _ => hNone _ rfl, hNone _ rfl, fun _ => hNone _ rfl⟩

section
variable {log : Log Config Description}

/-- Nothing is received and no handler but `shutdown` called once a `Shutdown` is granted. -/
theorem allowed_after_quit (hOrderly : Orderly log) (hQuit : Quit log)
    {entry : Entry Config Description} (hAllowed : Allowed entry log) :
    (∀ message greeted running, entry ≠ .received message greeted running) ∧
      ∀ handler, entry = .entered handler → handler = .shutdown := by
  constructor
  · rintro message greeted running rfl
    exact hAllowed.2.1 hQuit
  · rintro handler rfl
    rcases hAllowed with ⟨seq, arm, -, -, x, hx, -⟩ | ⟨hShutdown, -⟩
    · exact absurd hQuit (not_quit_of_pending hOrderly hx)
    · exact hShutdown

theorem mem_split {newer older : Log Config Description} {entry : Entry Config Description}
    (hOrderly : Orderly (newer ++ older)) (hMem : entry ∈ newer) :
    ∃ between, Orderly (between ++ older) ∧ Allowed entry (between ++ older) := by
  obtain ⟨after, between, rfl⟩ := List.append_of_mem hMem
  rw [List.append_assoc, List.cons_append] at hOrderly
  exact ⟨between, hOrderly.suffix.2, hOrderly.allowed⟩

omit [Inhabited Config] in
theorem Quit.append {older : Log Config Description} (h : Quit older)
    (newer : Log Config Description) : Quit (newer ++ older) := by
  obtain ⟨seq, greeted, running, hMem⟩ := h
  exact ⟨seq, greeted, running, List.mem_append_right _ hMem⟩

theorem shutdown_once {newer older : Log Config Description}
    (hOrderly : Orderly (newer ++ .entered .shutdown :: older)) :
    Quit older ∧ .entered .shutdown ∉ newer ∧ .entered .shutdown ∉ older := by
  have hNot : ∀ {log' : Log Config Description}, Allowed (.entered .shutdown) log' →
      Quit log' ∧ .entered .shutdown ∉ log' := by
    rintro log' (⟨seq, arm, hArm, hShutdown, -⟩ | ⟨-, -, hQuit, hNew⟩)
    · exact absurd hArm.symm (armHandler_ne_shutdown hShutdown)
    · exact ⟨hQuit, hNew⟩
  obtain ⟨hQuit, hOlder⟩ := hNot hOrderly.allowed
  refine ⟨hQuit, fun hMem => ?_, hOlder⟩
  obtain ⟨between, -, hAllowed⟩ := mem_split hOrderly hMem
  exact (hNot hAllowed).2 (List.mem_append_right _ List.mem_cons_self)

end

/-- How many more operations until the reply is sent, or the loop over, at most. -/
def budget : Position (Stage Config Description) (Except OpenMso.Error Unit) → Nat
  | .on .head => 0
  | .on (.greeting _ _) => 7
  | .on (.checking _ _) => 6
  | .on (.claiming _ _) => 5
  | .on (.entering _ _) => 4
  | .on (.inside _ _) => 3
  | .on (.welcoming _ _ _) => 2
  | .on (.releasing _ _ _) => 2
  | .on (.replying _ _) => 1
  | .on .stopping => 2
  | .on .inShutdown => 1
  | .halted _ => 0

theorem budget_afterGreeted (Description : Type) (seq : UInt32) (arm : Request.Arm Config) (greeted : Bool) :
    0 < budget (.on (Stage.afterGreeted seq arm greeted : Stage Config Description)) ∧
      budget (.on (Stage.afterGreeted seq arm greeted : Stage Config Description)) < 7 := by
  rw [Stage.afterGreeted]
  split
  · simp [budget]
  · cases arm with
    | hello req => cases greeted <;> simp [Stage.admitted, Stage.answering, budget]
    | _ => simp [Stage.admitted, budget]

theorem budget_afterRunning (Description : Type) (seq : UInt32) (arm : Request.Arm Config) (running : Bool) :
    0 < budget (.on (Stage.afterRunning seq arm running : Stage Config Description)) ∧
      budget (.on (Stage.afterRunning seq arm running : Stage Config Description)) < 6 := by
  cases arm <;> cases running <;> simp [Stage.afterRunning, Stage.answering, budget]

theorem budget_afterReturn (seq : UInt32) (arm : Request.Arm Config)
    (r : (armHandler arm).Result Description) :
    0 < budget (.on (Stage.afterReturn seq arm r)) ∧ budget (.on (Stage.afterReturn seq arm r)) < 3 := by
  cases arm with
  | hello => cases r <;> simp [Stage.afterReturn, Stage.answering, budget]
  | acquireStart => cases r <;> simp [Stage.afterReturn, Stage.answering, budget]
  | reset => cases r <;> simp [Stage.afterReturn, Stage.answering, budget]
  | _ => simp [Stage.afterReturn, Stage.answering, budget]

section
variable {plugin : CaptureServer Config Description σ}
  {decode : List UInt8 → Except String (Request Config)} {s t : Process Config Description σ}
  {action : Action σ}

theorem ne_head_of_budget {position : Position (Stage Config Description) (Except OpenMso.Error Unit)}
    (h : 0 < budget position) : position ≠ .on .head := by
  rintro rfl
  cases h

theorem budget_step {stage : Stage Config Description} (hFollows : FollowsLoop s.control (.on stage))
    (hHead : stage ≠ .head) (hControl : action.isControl = true) (hSends : action.failsReply = false)
    (hStep : s.step plugin decode action = some t) :
    (∃ response greeted running, t.log = .replied response greeted running :: s.log) ∨
      ∃ position, FollowsLoop t.control position ∧ position ≠ .on .head ∧
        budget position + 1 ≤ budget (.on stage) := by
  obtain ⟨answer, u, hPerform, hLog, hNext⟩ := stage_of_step hFollows hControl hStep
  cases stage with
  | head => exact absurd rfl hHead
  | greeting seq arm =>
    obtain ⟨hPos, hLess⟩ := budget_afterGreeted Description seq arm answer
    exact .inr ⟨_, hNext, ne_head_of_budget hPos, hLess⟩
  | checking seq arm =>
    obtain ⟨hPos, hLess⟩ := budget_afterRunning Description seq arm answer
    exact .inr ⟨_, hNext, ne_head_of_budget hPos, hLess⟩
  | inside seq arm =>
    obtain ⟨hPos, hLess⟩ := budget_afterReturn seq arm answer
    exact .inr ⟨_, hNext, ne_head_of_budget hPos, hLess⟩
  | replying shuttingDown response =>
    cases action with
    | reply failure =>
      cases failure with
      | some e => cases hSends
      | none =>
        cases hPerform
        exact .inl ⟨response, _, _, hLog⟩
    | _ => cases hPerform
  | _ => exact .inr ⟨_, hNext, fun h => (by cases h), Nat.le_refl _⟩

theorem control_step (hControl : action.isControl = false)
    (hStep : s.step plugin decode action = some t) : t.control = s.control := by
  cases action with
  | finish push failure =>
    obtain ⟨event, -, hSame, -⟩ := finish_cases hStep
    exact hSame
  | begin event =>
    cases hStep
    rfl
  | tamper state =>
    cases hStep
    rfl
  | _ => cases hControl

/-- Until a reply is sent, each step of the control loop spends some of the budget and
no other thread's step touches it. -/
theorem budget_run {actions : List (Action σ)}
    {position : Position (Stage Config Description) (Except OpenMso.Error Unit)}
    (hFollows : FollowsLoop s.control position) (hHead : position ≠ .on .head)
    (hSends : ∀ action ∈ actions, action.failsReply = false)
    (hRun : run (Process.step plugin decode) s actions = some t) :
    (∃ newer response greeted running older,
      t.log = newer ++ .replied response greeted running :: (older ++ s.log)) ∨
    ∃ final, FollowsLoop t.control final ∧
      budget final + actions.countP Action.isControl ≤ budget position := by
  induction actions generalizing s position with
  | nil =>
    cases hRun
    exact .inr ⟨position, hFollows, Nat.le_refl _⟩
  | cons action actions ih =>
    obtain ⟨u, hStep, hRest⟩ := Option.bind_eq_some_iff.mp hRun
    have hLater := fun a ha => hSends a (List.mem_cons_of_mem _ ha)
    obtain ⟨new, hNew⟩ := log_step hStep
    -- once another thread has acted, or the loop has, the rest of the run goes the same way
    have hGo : ∀ {mid}, FollowsLoop u.control mid → mid ≠ .on .head →
        budget mid + (if action.isControl then 1 else 0) ≤ budget position →
        (∃ newer response greeted running older,
          t.log = newer ++ .replied response greeted running :: (older ++ s.log)) ∨
        ∃ final, FollowsLoop t.control final ∧
          budget final + (action :: actions).countP Action.isControl ≤ budget position := by
      intro mid hMid hNotHead hSpent
      rcases ih hMid hNotHead hLater hRest with
        ⟨newer, response, greeted, running, older, hLog⟩ | ⟨final, hFinal, hBudget⟩
      · refine .inl ⟨newer, response, greeted, running, older ++ new, ?_⟩
        rw [hLog, hNew, List.append_assoc]
      · refine .inr ⟨final, hFinal, ?_⟩
        rw [List.countP_cons]
        omega
    cases hControl : action.isControl with
    | false =>
      rw [hControl] at hGo
      exact hGo (control_step hControl hStep ▸ hFollows) hHead (Nat.le_refl _)
    | true =>
      rw [hControl] at hGo
      cases position with
      | halted result => exact absurd hStep (not_control_of_halted hFollows hControl)
      | on stage =>
        rcases budget_step hFollows (fun h => hHead (congrArg _ h)) hControl
          (hSends action List.mem_cons_self) hStep with
          ⟨response, greeted, running, hLog⟩ | ⟨mid, hMid, hNotHead, hSpent⟩
        · obtain ⟨newer, hNewer⟩ := log_run hRest
          exact .inl ⟨newer, response, greeted, running, [], by rw [hNewer, hLog]; rfl⟩
        · exact hGo hMid hNotHead hSpent

theorem nextOp_of_on {stage : Stage Config Description} (hUnrolled : s.control ≠ .done none)
    (hFollows : FollowsLoop s.control (.on stage)) : s.nextOp = some stage.op := by
  rcases hFollows.cases_of_on with hDone | ⟨next, hAsk⟩
  · exact absurd hDone hUnrolled
  · rw [Process.nextOp, hAsk]
    rfl

/-- The loop ends when a receive or a reply fails, and after the plugin is shut down. -/
theorem end_of_step {stage : Stage Config Description} (h : Agrees s)
    (hFollows : FollowsLoop s.control (.on stage)) (hControl : action.isControl = true)
    (hStep : s.step plugin decode action = some t) (hEnd : t.nextOp = none) :
    (∃ e, action = .receive (.error e) ∧ stage = .head ∧ t.log = s.log) ∨
      action.failsReply = true ∨ stage = .inShutdown := by
  have hUnrolled := (h.step hStep).unrolled
  obtain ⟨answer, u, hPerform, hLog, hNext⟩ := stage_of_step hFollows hControl hStep
  have hOver : ∀ stage', stage.next answer ≠ .on stage' := by
    intro stage' hOn
    rw [hOn] at hNext
    rw [nextOp_of_on hUnrolled hNext] at hEnd
    cases hEnd
  cases stage with
  | head =>
    cases action with
    | receive incoming =>
      cases incoming with
      | error e =>
        cases hPerform
        exact .inl ⟨e, rfl, rfl, hLog⟩
      | ok bytes =>
        cases hPerform
        change ∀ stage', Stage.afterRecv (Transport.decoded decode (.ok bytes)) ≠ .on stage' at hOver
        rw [Transport.decoded] at hOver
        cases hDecode : decode bytes with
        | error e =>
          rw [hDecode] at hOver
          exact absurd rfl (hOver _)
        | ok request =>
          obtain ⟨seq, arm⟩ := request
          rw [hDecode] at hOver
          cases arm <;> exact absurd rfl (hOver _)
    | _ => cases hPerform
  | replying shuttingDown response =>
    cases action with
    | reply failure =>
      cases failure with
      | some e => exact .inr (.inl rfl)
      | none =>
        cases hPerform
        exact absurd rfl (hOver _)
    | _ => cases hPerform
  | inShutdown => exact .inr (.inr rfl)
  | _ => exact absurd rfl (hOver _)

/-- While a message is in hand the loop has not ended, as long as sends succeed. -/
theorem pending_of_end {actions : List (Action σ)} (h : s.Reaches plugin decode actions)
    (hSends : ∀ action ∈ actions, action.failsReply = false) :
    s.nextOp = none → pending s.log = none := by
  obtain ⟨socket, state, hRun⟩ := h
  refine (run_invariant_of_mem (fun s => Agrees s ∧ (s.nextOp = none → pending s.log = none))
    ?_ hSends ⟨agrees_init socket state, fun _ => rfl⟩ hRun).2
  rintro s t action hSend ⟨hAgrees, hPending⟩ hStep
  refine ⟨hAgrees.step hStep, fun hEnd => ?_⟩
  cases hControl : action.isControl with
  | false =>
    have hSame : s.nextOp = none := by
      rw [Process.nextOp, ← control_step hControl hStep]
      exact hEnd
    have hNone := hPending hSame
    cases action with
    | begin event =>
      cases hStep
      change pending (.begun s.pushes event :: s.log) = none
      rw [pending_cons s.log rfl, hNone, Option.map_none]
    | finish push failure =>
      obtain ⟨event, -, -, -, -, -, hLog | hLog⟩ := finish_cases hStep
      · rw [hLog, hNone]
      · rw [hLog, pending_cons s.log rfl, hNone, Option.map_none]
    | tamper state =>
      cases hStep
      exact hNone
    | _ => cases hControl
  | true =>
    obtain ⟨position, hFollows, hExplains⟩ := hAgrees.position
    cases position with
    | halted result => exact absurd hStep (not_control_of_halted hFollows hControl)
    | on stage =>
      rcases end_of_step hAgrees hFollows hControl hStep hEnd with
        ⟨e, -, rfl, hLog⟩ | hFails | rfl
      · rw [hLog]
        exact hExplains.1
      · rw [hSend] at hFails
        cases hFails
      · obtain ⟨answer, u, hPerform, hLog, -⟩ := stage_of_step hFollows hControl hStep
        cases action with
        | act =>
          cases hPerform
          rw [hLog]
          change pending (.returned .shutdown () :: s.log) = none
          rw [pending_cons s.log rfl, hExplains.1, Option.map_none]
        | _ => cases hPerform

theorem enabled_of_nextOp {op : Op Config Description} (h : s.nextOp = some op) :
    ∃ action, action.isControl = true ∧ action.failsReply = false ∧
      (s.step plugin decode action).isSome = true := by
  cases hControl : s.control with
  | done result =>
    rw [Process.nextOp, hControl] at h
    cases h
  | ask op' next =>
    cases op' with
    | recv =>
      refine ⟨.receive (.error .closed), rfl, rfl, ?_⟩
      simp only [Process.step, hControl]
      rfl
    | send response =>
      refine ⟨.reply none, rfl, rfl, ?_⟩
      simp only [Process.step, hControl]
      rfl
    | _ =>
      refine ⟨.act, rfl, rfl, ?_⟩
      simp only [Process.step, hControl]
      rfl

theorem nextOp_of_reply (h : Agrees s) (hStep : s.step plugin decode (.reply none) = some t) :
    ∃ x response, pending s.log = some x ∧
      t.log = .replied response s.greeted s.events.isRunning :: s.log ∧
      t.nextOp = if asksShutdown x.message && response.error.isNone then some (.enter .shutdown)
        else some .recv := by
  have hUnrolled := (h.step hStep).unrolled
  obtain ⟨position, hFollows, hExplains⟩ := h.position
  cases position with
  | halted result => exact absurd hStep (not_control_of_halted hFollows rfl)
  | on stage =>
    obtain ⟨answer, u, hPerform, hLog, hNext⟩ := stage_of_step hFollows rfl hStep
    cases stage with
    | replying shuttingDown response =>
      obtain ⟨x, hx, hServed, rfl⟩ := hExplains
      cases hPerform
      refine ⟨x, response, hx, hLog, ?_⟩
      rw [nextOp_of_on hUnrolled hNext]
      cases asksShutdown x.message && response.error.isNone <;> rfl
    | _ => cases hPerform

theorem shutdown_of_nextOp (h : Agrees s) (hControl : action.isControl = true)
    (hStep : s.step plugin decode action = some t) :
    (s.nextOp = some (.enter .shutdown) →
      t.log = .entered .shutdown :: s.log ∧ t.nextOp = some (.leave .shutdown)) ∧
    (s.nextOp = some (.leave .shutdown) → t.control = .done (some (.ok ()))) := by
  have hUnrolled := (h.step hStep).unrolled
  obtain ⟨position, hFollows, hExplains⟩ := h.position
  cases position with
  | halted result => exact absurd hStep (not_control_of_halted hFollows hControl)
  | on stage =>
    rw [nextOp_of_on h.unrolled hFollows]
    obtain ⟨answer, u, hPerform, hLog, hNext⟩ := stage_of_step hFollows hControl hStep
    cases stage with
    | entering seq arm =>
      refine ⟨fun hOp => ?_, fun hOp => by cases hOp⟩
      exact absurd (Op.enter.inj (Option.some.inj hOp)) (armHandler_ne_shutdown hExplains.1)
    | inside seq arm =>
      refine ⟨fun hOp => (by cases hOp), fun hOp => ?_⟩
      exact absurd (Op.leave.inj (Option.some.inj hOp)) (armHandler_ne_shutdown hExplains.1)
    | stopping =>
      refine ⟨fun _ => ?_, fun hOp => by cases hOp⟩
      cases action with
      | act =>
        cases hPerform
        exact ⟨hLog, nextOp_of_on hUnrolled hNext⟩
      | _ => cases hPerform
    | inShutdown =>
      refine ⟨fun hOp => (by cases hOp), fun _ => ?_⟩
      exact hNext.eq_of_halted
    | _ => exact ⟨fun hOp => (by cases hOp), fun hOp => by cases hOp⟩

end

/-- Every message answered once and in step, and the loop ended by a granted `Shutdown`
only, as far as the messages decide. -/
structure InStep (plugin : CaptureServer Config Description σ)
    (decode : List UInt8 → Except String (Request Config)) (s : Process Config Description σ) :
    Prop where
  received : ∀ newer older message greeted running,
    s.log = newer ++ .received message greeted running :: older → pending older = none
  replied : ∀ newer older response greeted running,
    s.log = newer ++ .replied response greeted running :: older →
    ∃ x, pending older = some x ∧ Fitting x.message response ∧ ∀ e, x.message = .error e →
      Untouched x.entries ∧ greeted = x.greeted ∧
        running = (x.running && !x.entries.any Entry.clears)
  /-- While a message is in hand the loop goes on, -/
  alive : ∀ x, pending s.log = some x → s.nextOp ≠ none
  enabled : s.nextOp ≠ none → ∃ action, action.isControl = true ∧ action.failsReply = false ∧
    (s.step plugin decode action).isSome = true
  /-- and has replied before its eighth step. -/
  answered : ∀ x more t, pending s.log = some x → run (Process.step plugin decode) s more = some t →
    (∀ action ∈ more, action.failsReply = false) → 7 < more.countP Action.isControl →
    ∃ newer response greeted running older,
      t.log = newer ++ .replied response greeted running :: (older ++ s.log)
  next : ∀ t, s.step plugin decode (.reply none) = some t → ∃ x response, pending s.log = some x ∧
    t.log = .replied response s.greeted s.events.isRunning :: s.log ∧
    t.nextOp = if asksShutdown x.message && response.error.isNone then some (.enter .shutdown)
      else some .recv
  entersShutdown : ∀ action t, s.nextOp = some (.enter .shutdown) → action.isControl = true →
    s.step plugin decode action = some t →
    t.log = .entered .shutdown :: s.log ∧ t.nextOp = some (.leave .shutdown)
  leavesShutdown : ∀ action t, s.nextOp = some (.leave .shutdown) → action.isControl = true →
    s.step plugin decode action = some t → t.control = .done (some (.ok ()))
  ends : ∀ action t, s.step plugin decode action = some t → s.nextOp ≠ none → t.nextOp = none →
    (∃ e, action = .receive (.error e)) ∨ action.failsReply = true ∨
      s.nextOp = some (.leave .shutdown)
  once : ∀ newer older, s.log = newer ++ .entered .shutdown :: older →
    Quit older ∧ .entered .shutdown ∉ newer ∧ .entered .shutdown ∉ older
  quiet : ∀ newer older, s.log = newer ++ older → Quit older → ∀ entry ∈ newer,
    (∀ message greeted running, entry ≠ .received message greeted running) ∧
      ∀ handler, entry = .entered handler → handler = .shutdown

theorem served_in_step (plugin : CaptureServer Config Description σ)
    (decode : List UInt8 → Except String (Request Config)) (actions : List (Action σ))
    (s : Process Config Description σ) (h : s.Reaches plugin decode actions)
    (hSends : ∀ action ∈ actions, action.failsReply = false) : InStep plugin decode s := by
  have hAgrees := agrees_of_reaches h
  have hOrderly := hAgrees.orderly
  have hAlive : ∀ x, pending s.log = some x → s.nextOp ≠ none := by
    intro x hx hEnd
    rw [pending_of_end h hSends hEnd] at hx
    cases hx
  refine ⟨?_, ?_, hAlive, ?_, ?_, ?_, ?_, ?_, ?_, ?_, ?_⟩
  · intro newer older message greeted running hLog
    rw [hLog] at hOrderly
    exact hOrderly.allowed.1
  · intro newer older response greeted running hLog
    rw [hLog] at hOrderly
    obtain ⟨rfl, rfl, x, hx, hServed⟩ := hOrderly.allowed
    refine ⟨x, hx, hServed.fitting, fun e hMessage => ⟨untouched_of_undecodable hMessage hServed, ?_⟩⟩
    obtain ⟨-, error, hError, -⟩ := hServed.fitting.refusal e hMessage
    exact cells_of_error hOrderly.suffix.2 hx hServed hError
  · intro hNext
    obtain ⟨op, hOp⟩ := Option.ne_none_iff_exists'.mp hNext
    exact enabled_of_nextOp hOp
  · intro x more t hx hRun hMore hCount
    obtain ⟨position, hFollows, hExplains⟩ := hAgrees.position
    have hHead : position ≠ .on .head := by
      rintro rfl
      rw [hExplains.1] at hx
      cases hx
    have hBudget : budget position ≤ 7 := by
      cases position with
      | halted result => exact Nat.zero_le _
      | on stage => cases stage <;> simp [budget]
    rcases budget_run hFollows hHead hMore hRun with hReplied | ⟨final, -, hSpent⟩
    · exact hReplied
    · omega
  · intro t hStep
    exact nextOp_of_reply hAgrees hStep
  · intro action t hOp hControl hStep
    exact (shutdown_of_nextOp hAgrees hControl hStep).1 hOp
  · intro action t hOp hControl hStep
    exact (shutdown_of_nextOp hAgrees hControl hStep).2 hOp
  · intro action t hStep hNext hEnd
    cases hControl : action.isControl with
    | false =>
      rw [Process.nextOp, ← control_step hControl hStep] at hNext
      exact absurd hEnd hNext
    | true =>
      obtain ⟨position, hFollows, -⟩ := hAgrees.position
      cases position with
      | halted result => exact absurd hStep (not_control_of_halted hFollows hControl)
      | on stage =>
        rcases end_of_step hAgrees hFollows hControl hStep hEnd with ⟨e, hFail, -⟩ | hFails | rfl
        · exact .inl ⟨e, hFail⟩
        · exact .inr (.inl hFails)
        · exact .inr (.inr (nextOp_of_on hAgrees.unrolled hFollows))
  · intro newer older hLog
    rw [hLog] at hOrderly
    exact shutdown_once hOrderly
  · intro newer older hLog hQuit entry hMem
    rw [hLog] at hOrderly
    obtain ⟨between, hBetween, hAllowed⟩ := mem_split hOrderly hMem
    exact allowed_after_quit hBetween (hQuit.append between) hAllowed

/-- Greeted, busy, refused and shut down. -/
theorem served_in_step_to_shutdown :
    ∃ s : Process Unit Unit Unit, s.Reaches Sample.plugin Sample.decode
        (Sample.serve Sample.hello 4 ++ Sample.serve Sample.firstStart 5 ++
          Sample.serve Sample.describe 2 ++ Sample.serve Sample.shutdown 1 ++ [.act, .act]) ∧
      InStep Sample.plugin Sample.decode s := by
  have hRuns : (run (Process.step Sample.plugin Sample.decode) Sample.start
      (Sample.serve Sample.hello 4 ++ Sample.serve Sample.firstStart 5 ++
        Sample.serve Sample.describe 2 ++ Sample.serve Sample.shutdown 1 ++
        [.act, .act])).isSome := by
    decide
  obtain ⟨s, hRun⟩ := Option.isSome_iff_exists.mp hRuns
  exact ⟨s, ⟨_, _, hRun⟩,
    served_in_step Sample.plugin Sample.decode _ s ⟨_, _, hRun⟩ (by decide)⟩

end OpenMso.Server
