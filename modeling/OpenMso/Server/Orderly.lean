import OpenMso.Server.Exchanges

/-! # Every run of the plugin process is orderly

Each stage of the control loop knows what the log says about the message in
hand; one operation takes that knowledge to the next stage and adds an entry
the log allows.
-/

namespace OpenMso.Server

open Foundation Foundation.Program Foundation.Register Foundation.Runs Proto

set_option autoImplicit false

variable {Config Description σ : Type} [Inhabited Config]

/-- The message asks the plugin to shut down. -/
def asksShutdown : Except String (Request Config) → Bool
  | .ok request => request.request.any Request.Arm.isShutdown
  | .error _ => false

/-- What a stage knows of the log. -/
def Stage.Explains : Stage Config Description → Log Config Description → Prop
  | .head, log => pending log = none ∧ ¬ Quit log
  | .greeting seq arm, log => ∃ greeted, InHand log (.ok ⟨seq, some arm⟩) greeted []
  | .checking seq arm, log =>
    looksAtRunning arm = true ∧ InHand log (.ok ⟨seq, some arm⟩) true []
  | .claiming seq req, log =>
    InHand log (.ok ⟨seq, some (.acquireStart req)⟩) true [.loaded false]
  | .entering seq arm, log => arm.isShutdown = false ∧
    InHand log (.ok ⟨seq, some arm⟩) (!arm.isHello) (preamble arm)
  | .inside seq arm, log => arm.isShutdown = false ∧
    InHand log (.ok ⟨seq, some arm⟩) (!arm.isHello) (.entered (armHandler arm) :: preamble arm)
  | .welcoming seq req result, log =>
    InHand log (.ok ⟨seq, some (.hello req)⟩) false (called (.hello req) (Except.ok result))
  | .releasing seq arm r, log => postlude arm r = [(.stored false : Entry Config Description)] ∧
    InHand log (.ok ⟨seq, some arm⟩) true (called arm r)
  | .replying shuttingDown response, log => ∃ x, pending log = some x ∧
    Served x.message x.greeted x.acts response ∧ shuttingDown = asksShutdown x.message
  | .stopping, log => pending log = none ∧ Quit log ∧ .entered .shutdown ∉ log
  | .inShutdown, log => pending log = none ∧ .entered .shutdown ∈ log

def Explains : Position (Stage Config Description) (Except OpenMso.Error Unit) →
    Log Config Description → Prop
  | .on stage, log => stage.Explains log
  | .halted _, log => Quit log → .returned .shutdown () ∈ log

/-- A reply is the end of the loop when it grants a `Shutdown`. -/
theorem Served.asksShutdown_iff {message : Except String (Request Config)} {greeted : Bool}
    {acts : Log Config Description} {response : Response Config Description}
    (h : Served message greeted acts response) :
    (asksShutdown message && response.error.isNone) = true ↔
      ∃ seq, response = ⟨seq, none, some .shutdown⟩ := by
  cases h with
  | called seq arm hArm r =>
    constructor
    · intro hStop
      rw [show asksShutdown (.ok ⟨seq, some arm⟩) = arm.isShutdown from rfl, hArm] at hStop
      cases hStop
    · rintro ⟨seq', hEq⟩
      cases arm <;> first
        | (cases hArm; done)
        | (cases r <;> cases hEq)
  | shutdown seq => exact ⟨fun _ => ⟨seq, rfl⟩, fun _ => rfl⟩
  | _ => simp [asksShutdown, respond, Server.undecodable, Request.Arm.isShutdown]

theorem InHand.replying {log acts : Log Config Description} {seq : UInt32}
    {arm : Request.Arm Config} {greeted : Bool} {outcome : Reply (Response.Arm Config Description)}
    (hHand : InHand log (.ok ⟨seq, some arm⟩) greeted acts) (hArm : arm.isShutdown = false)
    (hServed : Served (.ok ⟨seq, some arm⟩) greeted acts (respond seq outcome)) :
    (Stage.answering seq outcome).Explains log := by
  obtain ⟨x, hx, hMessage, rfl, rfl⟩ := hHand
  refine ⟨x, hx, ?_, ?_⟩
  · rw [hMessage]
    exact hServed
  · rw [hMessage]
    exact hArm.symm

section
variable {log : Log Config Description}

theorem explains_afterRecv (greeted running : Bool) (request : Request Config) :
    Explains (Stage.afterRecv (.ok request))
      ((.received (.ok request) greeted running : Entry Config Description) :: log) := by
  obtain ⟨seq, request⟩ := request
  cases request with
  | none => exact ⟨_, rfl, .empty seq greeted, rfl⟩
  | some arm => exact ⟨greeted, _, rfl, rfl, rfl, rfl⟩

theorem explains_afterGreeted {seq : UInt32} {arm : Request.Arm Config} {greeted : Bool}
    (h : InHand log (.ok ⟨seq, some arm⟩) greeted []) :
    (Stage.afterGreeted seq arm greeted : Stage Config Description).Explains log := by
  rw [Stage.afterGreeted]
  cases hArm : arm.isHello with
  | true =>
    cases arm with
    | hello req =>
      cases greeted with
      | true => exact h.replying rfl (.greetedBefore seq req)
      | false => exact ⟨rfl, h⟩
    | _ => cases hArm
  | false =>
    cases greeted with
    | false =>
      obtain ⟨x, hx, hMessage, hGreeted, hActs⟩ := h
      refine ⟨x, hx, ?_, ?_⟩
      · rw [hMessage, hGreeted, hActs]
        exact .ungreeted seq arm hArm
      · rw [hMessage]
        rfl
    | true =>
      cases arm with
      | hello req => cases hArm
      | reset => exact ⟨rfl, h⟩
      | shutdown =>
        obtain ⟨x, hx, hMessage, hGreeted, hActs⟩ := h
        refine ⟨x, hx, ?_, ?_⟩
        · rw [hMessage, hGreeted, hActs]
          exact .shutdown seq
        · rw [hMessage]
          rfl
      | _ => exact ⟨rfl, h⟩

theorem explains_afterRunning {seq : UInt32} {arm : Request.Arm Config} {running : Bool}
    (hLooks : looksAtRunning arm = true)
    (h : InHand log (.ok ⟨seq, some arm⟩) true [.loaded running]) :
    (Stage.afterRunning seq arm running : Stage Config Description).Explains log := by
  cases running with
  | true =>
    cases arm with
    | acquireStop req => exact ⟨rfl, h⟩
    | hello | reset | shutdown => cases hLooks
    | _ => exact h.replying rfl (.busy seq _ rfl)
  | false =>
    cases arm with
    | acquireStop req => exact h.replying rfl (.idle seq req)
    | acquireStart req => exact h
    | hello | reset | shutdown => cases hLooks
    | _ => exact ⟨rfl, h⟩

theorem explains_afterReturn {seq : UInt32} {arm : Request.Arm Config}
    (hArm : arm.isShutdown = false) (r : (armHandler arm).Result Description)
    (h : InHand log (.ok ⟨seq, some arm⟩) (!arm.isHello) (called arm r)) :
    (Stage.afterReturn seq arm r).Explains log := by
  have hServed := Served.called seq arm hArm r
  cases arm with
  | hello req =>
    rcases r with e | result
    · exact h.replying rfl hServed
    · exact h
  | acquireStart req =>
    rcases r with e | ⟨⟩
    · exact ⟨rfl, h⟩
    · exact h.replying rfl hServed
  | reset =>
    rcases r with e | ⟨⟩
    · exact h.replying rfl hServed
    · exact ⟨rfl, h⟩
  | shutdown => cases hArm
  | _ => exact h.replying rfl hServed

theorem explains_afterRelease {seq : UInt32} {arm : Request.Arm Config}
    {r : (armHandler arm).Result Description}
    (hPost : postlude arm r = [(.stored false : Entry Config Description)])
    (h : InHand log (.ok ⟨seq, some arm⟩) true (.stored false :: called arm r)) :
    (Stage.answering seq (armReply arm r)).Explains log := by
  cases arm with
  | acquireStart req =>
    have hServed := Served.called seq (.acquireStart req) rfl r
    rw [hPost] at hServed
    exact h.replying rfl hServed
  | reset =>
    have hServed := Served.called seq .reset rfl r
    rw [hPost] at hServed
    exact h.replying rfl hServed
  | hello => cases r <;> cases hPost
  | _ => cases hPost

theorem explains_afterSend (hOrderly : Orderly log) {x : Exchange Config Description}
    (hx : pending log = some x) {response : Response Config Description}
    (hServed : Served x.message x.greeted x.acts response) (greeted running : Bool) :
    Explains (Stage.afterSend (asksShutdown x.message) response (.ok ()))
      (.replied response greeted running :: log) := by
  have hNot := not_quit_of_pending hOrderly hx
  have hQuits := hServed.asksShutdown_iff
  cases hStop : asksShutdown x.message && response.error.isNone with
  | true =>
    obtain ⟨seq, rfl⟩ := hQuits.mp hStop
    rw [Stage.afterSend, hStop]
    refine ⟨rfl, ⟨seq, greeted, running, List.mem_cons_self⟩, ?_⟩
    intro hEntered
    rcases List.mem_cons.mp hEntered with hEq | hEntered
    · cases hEq
    · exact hNot (quit_of_entered_shutdown hOrderly hEntered)
  | false =>
    rw [Stage.afterSend, hStop]
    refine ⟨rfl, ?_⟩
    rintro ⟨seq, g, r, hMem⟩
    rcases List.mem_cons.mp hMem with hEq | hMem
    · cases hEq
      rw [hQuits.mpr ⟨seq, rfl⟩] at hStop
      cases hStop
    · exact hNot ⟨seq, g, r, hMem⟩

end

omit [Inhabited Config] in
theorem quit_cons {entry : Entry Config Description} (log : Log Config Description)
    (hMessage : entry.isMessage = false) : Quit (entry :: log) ↔ Quit log := by
  constructor
  · rintro ⟨seq, greeted, running, hMem⟩
    rcases List.mem_cons.mp hMem with rfl | hMem
    · cases hMessage
    · exact ⟨seq, greeted, running, hMem⟩
  · rintro ⟨seq, greeted, running, hMem⟩
    exact ⟨seq, greeted, running, List.mem_cons_of_mem _ hMem⟩

theorem Stage.Explains.push {stage : Stage Config Description} {log : Log Config Description}
    {entry : Entry Config Description} (hMessage : entry.isMessage = false)
    (hPush : entry.isPush = true) (h : stage.Explains log) : stage.Explains (entry :: log) := by
  have hPending : pending log = none → pending (entry :: log) = none := by
    intro hNone
    rw [pending_cons log hMessage, hNone, Option.map_none]
  have hQuit := quit_cons log hMessage
  cases stage with
  | head => exact ⟨hPending h.1, fun hq => h.2 (hQuit.mp hq)⟩
  | greeting seq arm =>
    obtain ⟨greeted, hHand⟩ := h
    exact ⟨greeted, hHand.push hMessage hPush⟩
  | claiming seq req => exact InHand.push h hMessage hPush
  | welcoming seq req result => exact InHand.push h hMessage hPush
  | replying shuttingDown response =>
    obtain ⟨x, hx, hServed, hShutdown⟩ := h
    refine ⟨x.note entry, ?_, ?_, hShutdown⟩
    · rw [pending_cons log hMessage, hx]
      rfl
    · rw [x.acts_push hPush]
      exact hServed
  | stopping =>
    obtain ⟨hNone, hQuits, hNot⟩ := h
    refine ⟨hPending hNone, hQuit.mpr hQuits, ?_⟩
    intro hMem
    rcases List.mem_cons.mp hMem with rfl | hMem
    · cases hPush
    · exact hNot hMem
  | inShutdown => exact ⟨hPending h.1, List.mem_cons_of_mem _ h.2⟩
  | _ => exact ⟨h.1, h.2.push hMessage hPush⟩

theorem Explains.push {position : Position (Stage Config Description) (Except OpenMso.Error Unit)}
    {log : Log Config Description} {entry : Entry Config Description}
    (hMessage : entry.isMessage = false) (hPush : entry.isPush = true)
    (h : Explains position log) : Explains position (entry :: log) := by
  cases position with
  | on stage => exact Stage.Explains.push hMessage hPush h
  | halted result => exact fun hQuit => List.mem_cons_of_mem _ (h ((quit_cons log hMessage).mp hQuit))

/-- The state agrees with its log: the stage of the loop, the two cells and the
pushes under way. -/
structure Agrees (s : Process Config Description σ) : Prop where
  orderly : Orderly s.log
  position : ∃ position, FollowsLoop s.control position ∧ Explains position s.log
  unrolled : s.control ≠ .done none
  greeted : s.greeted = greetedIn s.log
  running : s.events.running = runningIn s.log
  inFlight : ∀ push event, (push, event) ∈ s.inFlight → .begun push event ∈ s.log

section
variable {plugin : CaptureServer Config Description σ}
  {decode : List UInt8 → Except String (Request Config)} {s t : Process Config Description σ}
  {action : Action σ}

theorem serveTurn_ne_again : (serveTurn : Serving Config Description Turn) ≠ .done none := by
  intro h
  cases h

omit [Inhabited Config] in
theorem noteReceived_cases (s : Process Config Description σ)
    (answer : Except OpenMso.Error (Request Config)) :
    s.noteReceived answer = s ∨ ∃ message,
      s.noteReceived answer = s.record (.received message s.greeted s.events.isRunning) := by
  cases answer with
  | ok request => exact .inr ⟨.ok request, rfl⟩
  | error e =>
    cases e with
    | decode e => exact .inr ⟨.error e, rfl⟩
    | _ => exact .inl rfl

omit [Inhabited Config] in
/-- An operation notes in the log whatever it writes. -/
theorem perform_notes {op : Op Config Description} {answer : op.Answer}
    (h : s.perform plugin decode op action = some (answer, t)) :
    t.inFlight = s.inFlight ∧ ∃ newer, (∀ entry ∈ newer, entry.isPush = false) ∧
      t.log = newer ++ s.log ∧
      t.greeted = lastWrite Entry.writesGreeted s.greeted newer ∧
      t.events.running = lastWrite Entry.writesRunning s.events.running newer := by
  cases op with
  | recv =>
    cases action with
    | receive incoming =>
      cases h
      rcases noteReceived_cases s (Transport.decoded decode incoming) with hSame | ⟨message, hNote⟩
      · rw [hSame]
        exact ⟨rfl, [], List.forall_mem_nil _, rfl, rfl, rfl⟩
      · rw [hNote]
        exact ⟨rfl, [_], List.forall_mem_singleton.mpr rfl, rfl, rfl, rfl⟩
    | _ => cases h
  | send response =>
    cases action with
    | reply failure =>
      cases failure with
      | some e =>
        cases h
        exact ⟨rfl, [], List.forall_mem_nil _, rfl, rfl, rfl⟩
      | none =>
        cases h
        exact ⟨rfl, [_], List.forall_mem_singleton.mpr rfl, rfl, rfl, rfl⟩
    | _ => cases h
  | isGreeted =>
    cases action with
    | act =>
      cases h
      exact ⟨rfl, [], List.forall_mem_nil _, rfl, rfl, rfl⟩
    | _ => cases h
  | setGreeted =>
    cases action with
    | act =>
      cases h
      exact ⟨rfl, [_], List.forall_mem_singleton.mpr rfl, rfl, rfl, rfl⟩
    | _ => cases h
  | setRunning running =>
    cases action with
    | act =>
      cases h
      exact ⟨rfl, [_], List.forall_mem_singleton.mpr rfl, rfl, rfl, rfl⟩
    | _ => cases h
  | _ =>
    cases action with
    | act =>
      cases h
      exact ⟨rfl, [_], List.forall_mem_singleton.mpr rfl, rfl, rfl, rfl⟩
    | _ => cases h

/-- One operation: the next stage knows what it has to, and the log stays orderly. -/
theorem explains_perform {stage : Stage Config Description} {answer : stage.op.Answer}
    (hOrderly : Orderly s.log) (hGreeted : s.greeted = greetedIn s.log)
    (hRunning : s.events.running = runningIn s.log) (hStage : stage.Explains s.log)
    (h : s.perform plugin decode stage.op action = some (answer, t)) :
    Explains (stage.next answer) t.log ∧ Orderly t.log := by
  cases stage with
  | head =>
    cases action with
    | receive incoming =>
      cases h
      generalize Transport.decoded decode incoming = answer
      obtain ⟨hNone, hNot⟩ := hStage
      cases answer with
      | ok request =>
        exact ⟨explains_afterRecv _ _ request, ⟨hNone, hNot, hGreeted, hRunning⟩, hOrderly⟩
      | error e =>
        cases e with
        | decode e =>
          refine ⟨?_, ⟨hNone, hNot, hGreeted, hRunning⟩, hOrderly⟩
          exact ⟨_, rfl, .undecodable e s.greeted, rfl⟩
        | _ => exact ⟨fun hQuit => absurd hQuit hNot, hOrderly⟩
    | _ => cases h
  | greeting seq arm =>
    cases action with
    | act =>
      cases h
      obtain ⟨greeted, hHand⟩ := hStage
      have hSame := greetedIn_of_inHand hOrderly hHand List.not_mem_nil
      rw [hGreeted, hSame]
      exact ⟨explains_afterGreeted hHand, hOrderly⟩
    | _ => cases h
  | checking seq arm =>
    cases action with
    | act =>
      cases h
      obtain ⟨hLooks, hHand⟩ := hStage
      refine ⟨?_, ⟨hRunning, seq, arm, hLooks, hHand⟩, hOrderly⟩
      exact explains_afterRunning hLooks (hHand.act rfl rfl)
    | _ => cases h
  | claiming seq req =>
    cases action with
    | act =>
      cases h
      exact ⟨⟨rfl, hStage.act rfl rfl⟩, ⟨seq, req, hStage⟩, hOrderly⟩
    | _ => cases h
  | entering seq arm =>
    cases action with
    | act =>
      cases h
      obtain ⟨hArm, hHand⟩ := hStage
      exact ⟨⟨hArm, hHand.act rfl rfl⟩, .inl ⟨seq, arm, rfl, hArm, hHand⟩, hOrderly⟩
    | _ => cases h
  | inside seq arm =>
    cases action with
    | act =>
      cases h
      obtain ⟨hArm, hHand⟩ := hStage
      exact ⟨explains_afterReturn hArm _ (hHand.act rfl rfl), .inl ⟨seq, arm, rfl, hArm, hHand⟩,
        hOrderly⟩
    | _ => cases h
  | welcoming seq req result =>
    cases action with
    | act =>
      cases h
      refine ⟨(hStage.act rfl rfl).replying rfl ?_, ⟨seq, req, result, hStage⟩, hOrderly⟩
      exact .called seq (.hello req) rfl (Except.ok result)
    | _ => cases h
  | releasing seq arm r =>
    cases action with
    | act =>
      cases h
      obtain ⟨hPost, hHand⟩ := hStage
      refine ⟨?_, ⟨seq, arm, r, hPost, hHand⟩, hOrderly⟩
      exact explains_afterRelease hPost (hHand.act rfl rfl)
    | _ => cases h
  | replying shuttingDown response =>
    cases action with
    | reply failure =>
      obtain ⟨x, hx, hServed, rfl⟩ := hStage
      cases failure with
      | some e =>
        cases h
        exact ⟨fun hQuit => absurd hQuit (not_quit_of_pending hOrderly hx), hOrderly⟩
      | none =>
        cases h
        refine ⟨?_, ⟨hGreeted, hRunning, x, hx, hServed⟩, hOrderly⟩
        exact explains_afterSend hOrderly hx hServed _ _
    | _ => cases h
  | stopping =>
    cases action with
    | act =>
      cases h
      obtain ⟨hNone, hQuit, hNot⟩ := hStage
      refine ⟨⟨?_, List.mem_cons_self⟩, .inr ⟨rfl, hNone, hQuit, hNot⟩, hOrderly⟩
      change pending (.entered .shutdown :: s.log) = none
      rw [pending_cons s.log rfl, hNone, Option.map_none]
    | _ => cases h
  | inShutdown =>
    cases action with
    | act =>
      cases h
      obtain ⟨hNone, hEntered⟩ := hStage
      exact ⟨fun _ => List.mem_cons_self, .inr ⟨rfl, hNone, hEntered⟩, hOrderly⟩
    | _ => cases h

theorem step_of_done {result : Turn} (hControl : action.isControl = true)
    (hDone : s.control = .done result) : s.step plugin decode action = none := by
  cases action with
  | receive | reply | act => simp only [Process.step, hDone]
  | _ => cases hControl

theorem step_of_ask {op : Op Config Description}
    {next : op.Answer → Serving Config Description Turn} (hControl : action.isControl = true)
    (hAsk : s.control = .ask op next) :
    s.step plugin decode action = (s.perform plugin decode op action).map fun answered =>
      { answered.2 with control := unroll serveTurn (next answered.1) } := by
  cases action with
  | receive | reply | act => simp only [Process.step, hAsk]
  | _ => cases hControl

theorem step_control (hControl : action.isControl = true)
    (hStep : s.step plugin decode action = some t) :
    ∃ op next answer u, s.control = .ask op next ∧
      s.perform plugin decode op action = some (answer, u) ∧
      t = { u with control := unroll serveTurn (next answer) } := by
  cases hAsk : s.control with
  | done result =>
    rw [step_of_done hControl hAsk] at hStep
    cases hStep
  | ask op next =>
    rw [step_of_ask hControl hAsk] at hStep
    obtain ⟨⟨answer, u⟩, hPerform, rfl⟩ := Option.map_eq_some_iff.mp hStep
    exact ⟨op, next, answer, u, rfl, hPerform, rfl⟩

theorem stage_of_step {stage : Stage Config Description}
    (hFollows : FollowsLoop s.control (.on stage)) (hControl : action.isControl = true)
    (hStep : s.step plugin decode action = some t) :
    ∃ answer u, s.perform plugin decode stage.op action = some (answer, u) ∧ t.log = u.log ∧
      FollowsLoop t.control (stage.next answer) := by
  obtain ⟨op, next, answer, u, hAsk, hPerform, rfl⟩ := step_control hControl hStep
  rw [hAsk] at hFollows
  obtain ⟨stage', next', hSame, hEq, hNext⟩ := hFollows.exists_stage
  cases hSame
  cases hEq
  exact ⟨answer, u, hPerform, rfl, follows_serveTurn.unroll (hNext answer)⟩

theorem not_control_of_halted {result : Except OpenMso.Error Unit}
    (hFollows : FollowsLoop s.control (.halted result)) (hControl : action.isControl = true) :
    s.step plugin decode action ≠ some t := by
  intro hStep
  obtain ⟨op, next, answer, u, hAsk, -⟩ := step_control hControl hStep
  rw [hAsk] at hFollows
  obtain ⟨stage, next', hSame, -⟩ := hFollows.exists_stage
  cases hSame

theorem Agrees.begin {event : Event} (h : Agrees s) (hStep : s.step plugin decode (.begin event) = some t) :
    Agrees t := by
  obtain ⟨hOrderly, ⟨position, hFollows, hExplains⟩, hUnrolled, hGreeted, hRunning, hInFlight⟩ := h
  cases hStep
  refine ⟨⟨trivial, hOrderly⟩, ⟨position, hFollows, hExplains.push rfl rfl⟩, hUnrolled, hGreeted, ?_, ?_⟩
  · change (s.events.noteEnd event).running = runningIn (.begun s.pushes event :: s.log)
    rw [Events.noteEnd, runningIn, lastWrite, Entry.writesRunning]
    cases Events.endsCapture event with
    | true => rfl
    | false => exact hRunning
  · intro push other hMem
    rcases List.mem_cons.mp hMem with hEq | hMem
    · cases hEq
      exact List.mem_cons_self
    · exact List.mem_cons_of_mem _ (hInFlight push other hMem)

/-- The end of a push: nothing but the log and the stream hears of it. -/
theorem finish_cases {push : Nat} {failure : Option NngError}
    (hStep : s.step plugin decode (.finish push failure) = some t) :
    ∃ event, (push, event) ∈ s.inFlight ∧ t.control = s.control ∧ t.greeted = s.greeted ∧
      t.events.running = s.events.running ∧ (∀ p ∈ t.inFlight, p ∈ s.inFlight) ∧
      (t.log = s.log ∨ t.log = .enqueued push event :: s.log) := by
  rw [Process.step] at hStep
  cases hFind : s.inFlight.find? (·.1 == push) with
  | none =>
    rw [hFind] at hStep
    cases hStep
  | some found =>
    obtain ⟨number, event⟩ := found
    have hNumber : number = push := by simpa using List.find?_some hFind
    subst hNumber
    refine ⟨event, List.mem_of_find?_eq_some hFind, ?_⟩
    have hKeep : ∀ p ∈ s.inFlight.filter (·.1 != number), p ∈ s.inFlight :=
      fun p hp => (List.mem_filter.mp hp).1
    rw [hFind] at hStep
    cases failure with
    | some e =>
      cases hStep
      exact ⟨rfl, rfl, rfl, hKeep, .inl rfl⟩
    | none =>
      cases hStep
      exact ⟨rfl, rfl, rfl, hKeep, .inr rfl⟩

theorem Agrees.finish {push : Nat} {failure : Option NngError} (h : Agrees s)
    (hStep : s.step plugin decode (.finish push failure) = some t) : Agrees t := by
  obtain ⟨hOrderly, ⟨position, hFollows, hExplains⟩, hUnrolled, hGreeted, hRunning, hInFlight⟩ := h
  obtain ⟨event, hMem, hControl, hSameGreeted, hSameRunning, hKeep, hLog⟩ := finish_cases hStep
  have hBegun := hInFlight push event hMem
  rw [← hControl] at hFollows hUnrolled
  rw [← hSameGreeted] at hGreeted
  rw [← hSameRunning] at hRunning
  rcases hLog with hLog | hLog
  · rw [← hLog] at hOrderly hExplains hGreeted hRunning
    refine ⟨hOrderly, ⟨position, hFollows, hExplains⟩, hUnrolled, hGreeted, hRunning, ?_⟩
    intro push other hOther
    rw [hLog]
    exact hInFlight push other (hKeep _ hOther)
  · refine ⟨?_, ⟨position, hFollows, ?_⟩, hUnrolled, ?_, ?_, ?_⟩
    · rw [hLog]
      exact ⟨hBegun, hOrderly⟩
    · rw [hLog]
      exact hExplains.push rfl rfl
    · rw [hLog]
      exact hGreeted
    · rw [hLog]
      exact hRunning
    · intro push other hOther
      rw [hLog]
      exact List.mem_cons_of_mem _ (hInFlight push other (hKeep _ hOther))

theorem Agrees.operate {op : Op Config Description} {next : op.Answer → Serving Config Description Turn}
    {answer : op.Answer} (h : Agrees s) (hControl : s.control = .ask op next)
    (hPerform : s.perform plugin decode op action = some (answer, t)) :
    Agrees { t with control := unroll serveTurn (next answer) } := by
  obtain ⟨hOrderly, ⟨position, hFollows, hExplains⟩, hUnrolled, hGreeted, hRunning, hInFlight⟩ := h
  obtain ⟨hSame, newer, -, hLog, hGreeted', hRunning'⟩ := perform_notes hPerform
  rw [hControl] at hFollows
  obtain ⟨stage, next', rfl, hAsk, hNext⟩ := hFollows.exists_stage
  cases hAsk
  obtain ⟨hExplains', hOrderly'⟩ := explains_perform hOrderly hGreeted hRunning hExplains hPerform
  refine ⟨hOrderly', ⟨_, follows_serveTurn.unroll (hNext answer), hExplains'⟩,
    unroll_ne_again serveTurn_ne_again _, ?_, ?_, ?_⟩
  · change t.greeted = lastWrite Entry.writesGreeted false t.log
    rw [hLog, lastWrite_append, hGreeted', hGreeted]
    rfl
  · change t.events.running = lastWrite Entry.writesRunning false t.log
    rw [hLog, lastWrite_append, hRunning', hRunning]
    rfl
  · intro push other hMem
    change (push, other) ∈ t.inFlight at hMem
    change _ ∈ t.log
    rw [hSame] at hMem
    rw [hLog]
    exact List.mem_append_right _ (hInFlight push other hMem)

/-- Whatever happens next, the state still agrees with its log. -/
theorem Agrees.step (h : Agrees s) (hStep : s.step plugin decode action = some t) : Agrees t := by
  cases hControl : action.isControl with
  | true =>
    obtain ⟨op, next, answer, u, hAsk, hPerform, rfl⟩ := step_control hControl hStep
    exact h.operate hAsk hPerform
  | false =>
    cases action with
    | begin event => exact h.begin hStep
    | finish push failure => exact h.finish hStep
    | tamper state =>
      cases hStep
      exact ⟨h.orderly, h.position, h.unrolled, h.greeted, h.running, h.inFlight⟩
    | _ => cases hControl

theorem log_step (hStep : s.step plugin decode action = some t) :
    ∃ newer, t.log = newer ++ s.log := by
  cases hControl : action.isControl with
  | true =>
    obtain ⟨op, next, answer, u, -, hPerform, rfl⟩ := step_control hControl hStep
    obtain ⟨-, newer, -, hLog, -⟩ := perform_notes hPerform
    exact ⟨newer, hLog⟩
  | false =>
    cases action with
    | begin event =>
      cases hStep
      exact ⟨[_], rfl⟩
    | finish push failure =>
      obtain ⟨event, -, -, -, -, -, hLog | hLog⟩ := finish_cases hStep
      · exact ⟨[], hLog⟩
      · exact ⟨[_], hLog⟩
    | tamper state =>
      cases hStep
      exact ⟨[], rfl⟩
    | _ => cases hControl

theorem log_run {actions : List (Action σ)}
    (hRun : run (Process.step plugin decode) s actions = some t) : ∃ newer, t.log = newer ++ s.log := by
  refine run_invariant (fun u => ∃ newer, u.log = newer ++ s.log) ?_ ⟨[], rfl⟩ hRun
  rintro u v action ⟨newer, hLog⟩ hStep
  obtain ⟨more, hMore⟩ := log_step hStep
  exact ⟨more ++ newer, by rw [hMore, hLog, List.append_assoc]⟩

theorem agrees_init (socket : Transport.Socket Event) (state : σ) :
    Agrees (Process.init socket state : Process Config Description σ) where
  orderly := trivial
  position := ⟨_, follows_serveTurn, rfl, fun ⟨_, _, _, hMem⟩ => by cases hMem⟩
  unrolled := serveTurn_ne_again
  greeted := rfl
  running := rfl
  inFlight := fun _ _ hMem => by cases hMem

theorem Agrees.run {actions : List (Action σ)} (h : Agrees s)
    (hRun : run (Process.step plugin decode) s actions = some t) : Agrees t :=
  run_invariant Agrees (fun hs hStep => hs.step hStep) h hRun

theorem agrees_of_reaches {actions : List (Action σ)} (h : s.Reaches plugin decode actions) :
    Agrees s := by
  obtain ⟨socket, state, hRun⟩ := h
  exact (agrees_init socket state).run hRun

end

end OpenMso.Server
