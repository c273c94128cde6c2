import OpenMso.Server.Phases

/-! # The control loop is linearizable

Threads push events between any two acts of the control loop. Still every log
of the plugin process is a history of the machine of `Phases`: a message takes
effect where `running` is accessed for the last time before the reply.
-/

namespace OpenMso.Server

open Foundation Foundation.Register Proto

set_option autoImplicit false

variable {Config Description σ : Type} [Inhabited Config]

section
variable {log : Log Config Description}

theorem greeted_of_running (h : Orderly log) (hRunning : runningIn log = true) :
    greetedIn log = true := by
  induction log with
  | nil => cases hRunning
  | cons entry log ih =>
    cases entry with
    | stored running =>
      cases hRunning
      obtain ⟨seq, req, hHand⟩ := h.1
      exact greetedIn_of_inHand h.2 hHand (by simp)
    | begun push event =>
      rw [runningIn, lastWrite, Entry.writesRunning] at hRunning
      cases hEnds : Events.endsCapture event with
      | true =>
        rw [hEnds] at hRunning
        cases hRunning
      | false =>
        rw [hEnds] at hRunning
        exact ih h.2 hRunning
    | greeted => rfl
    | _ => exact ih h.2 hRunning

theorem greeted_of_running_pending (h : Orderly log) {x : Exchange Config Description}
    (hx : pending log = some x) (hRunning : x.running = true) : x.greeted = true := by
  induction log generalizing x with
  | nil => cases hx
  | cons entry log ih =>
    cases hMessage : entry.isMessage with
    | false =>
      rw [pending_cons log hMessage] at hx
      obtain ⟨y, hy, rfl⟩ := Option.map_eq_some_iff.mp hx
      have hGreeted := ih h.2 hy hRunning
      exact hGreeted
    | true =>
      cases entry with
      | received message greeted running =>
        obtain ⟨⟨-, -, rfl, rfl⟩, hOrderly⟩ := h
        cases hx
        exact greeted_of_running hOrderly hRunning
      | replied => cases hx
      | _ => cases hMessage

omit [Inhabited Config] in
theorem lastWrite_greeted_acts (x : Exchange Config Description) (start : Bool) :
    lastWrite Entry.writesGreeted start x.acts = lastWrite Entry.writesGreeted start x.entries := by
  refine lastWrite_filter ?_ x.entries
  intro entry hPush
  cases entry <;> first | rfl | cases hPush

omit [Inhabited Config] in
theorem label_eq (x : Exchange Config Description) (response : Response Config Description) :
    x.label response = .answered x.message (x.acts.filterMap Entry.returned?) response := by
  rw [Exchange.label, Exchange.acts, List.filterMap_filter]
  congr 2
  funext entry
  cases entry <;> rfl

omit [Inhabited Config] in
theorem lastWrite_running_of_quiet (start : Bool) {acts : Log Config Description}
    (h : ∀ entry ∈ acts, entry.isAccess = false ∧ entry.isPush = false) :
    lastWrite Entry.writesRunning start acts = start := by
  refine lastWrite_eq_of_forall ?_ (.inl rfl)
  intro entry hMem v hWrite
  obtain ⟨hAccess, hPush⟩ := h entry hMem
  cases entry with
  | stored => cases hAccess
  | begun => cases hPush
  | _ => cases hWrite

/-- Where the plugin stands while no answer of the message in hand has taken effect. -/
def standing (log : Log Config Description) : Phase :=
  match pending log with
  | some x => .of x.greeted (x.running && !x.entries.any Entry.clears)
  | none => .of (greetedIn log) (runningIn log)

/-- `y` is what becomes of the message in hand: it is answered so, and its last access to
`running` is behind it. -/
def Owes (y : Exchange Config Description) (response : Response Config Description)
    (log : Log Config Description) : Prop :=
  Served y.message y.greeted y.acts response ∧ ∃ x rest, pending log = some x ∧
    y = x.followedBy rest ∧ ∀ entry ∈ rest, entry.isAccess = false

def OrderlyWith : Option (Exchange Config Description × Response Config Description) →
    Log Config Description → Prop
  | none, log => Orderly log
  | some (y, response), log => Orderly log ∧ Owes y response log

def At : Option (Exchange Config Description × Response Config Description) →
    Log Config Description → Phase → Prop
  | none, log, phase => (¬ Quit log → phase = standing log) ∧
    (Quit log → .entered .shutdown ∉ log → phase = .stopping) ∧
    (.entered .shutdown ∈ log → phase = .stopped)
  | some (y, response), log, phase =>
    phase = .left response (lastWrite Entry.writesGreeted y.greeted y.acts) (runningIn log)

theorem Owes.of_cons {y : Exchange Config Description} {response : Response Config Description}
    {entry : Entry Config Description} (h : Owes y response (entry :: log))
    (hMessage : entry.isMessage = false) (hAccess : entry.isAccess = false) :
    Owes y response log := by
  obtain ⟨hServed, x, rest, hx, hEq, hRest⟩ := h
  rw [pending_cons log hMessage] at hx
  obtain ⟨z, hz, rfl⟩ := Option.map_eq_some_iff.mp hx
  refine ⟨hServed, z, rest ++ [entry], hz, ?_, ?_⟩
  · rw [hEq, Exchange.followedBy_note]
  · intro e hMem
    rcases List.mem_append.mp hMem with hMem | hMem
    · exact hRest e hMem
    · obtain rfl := List.mem_singleton.mp hMem
      exact hAccess

/-- An access comes while a message is in hand, which stands as it stood. -/
theorem standing_of_access {entry : Entry Config Description} (hAccess : entry.isAccess = true)
    (hAllowed : Allowed entry log) : ∃ x, pending log = some x ∧
      pending (entry :: log) = some (x.note entry) ∧
      standing log = .of x.greeted (x.running && !x.entries.any Entry.clears) ∧
      standing (entry :: log) = standing log := by
  have hMessage : entry.isMessage = false := by
    cases entry <;> first | rfl | cases hAccess
  have hClears : entry.clears = false := by
    cases entry <;> first | rfl | cases hAccess
  have hHand : ∃ x, pending log = some x := by
    cases entry with
    | loaded running =>
      obtain ⟨-, seq, arm, -, x, hx, -⟩ := hAllowed
      exact ⟨x, hx⟩
    | stored running =>
      cases running with
      | true =>
        obtain ⟨seq, req, x, hx, -⟩ := hAllowed
        exact ⟨x, hx⟩
      | false =>
        obtain ⟨seq, arm, r, -, x, hx, -⟩ := hAllowed
        exact ⟨x, hx⟩
    | _ => cases hAccess
  obtain ⟨x, hx⟩ := hHand
  have hNote : pending (entry :: log) = some (x.note entry) := by
    rw [pending_cons log hMessage, hx]
    rfl
  refine ⟨x, hx, hNote, ?_, ?_⟩
  · rw [standing, hx]
  · rw [standing, hNote, standing, hx]
    change Phase.of x.greeted (x.running && !(entry :: x.entries).any Entry.clears) = _
    rw [List.any_cons, hClears, Bool.false_or]

/-- What a look at `running` found before the access is what the plugin stands at. -/
theorem loaded_of_access {entry : Entry Config Description} (h : Orderly (entry :: log))
    (hAccess : entry.isAccess = true) {x : Exchange Config Description}
    (hx : pending log = some x) {running : Bool}
    (hMem : .loaded running ∈ entry :: x.acts) :
    (x.running && !x.entries.any Entry.clears) = running := by
  obtain ⟨hAllowed, hOrderly⟩ := h
  have hEntries : ∀ {b}, (.loaded b : Entry Config Description) ∈ x.acts → .loaded b ∈ x.entries :=
    fun hActs => (List.mem_filter.mp hActs).1
  cases entry with
  | loaded b =>
    obtain ⟨hFlag, seq, arm, -, y, hy, -, -, hActs⟩ := hAllowed
    obtain rfl := Option.some.inj (hx.symm.trans hy)
    rw [hActs] at hMem
    cases List.mem_singleton.mp hMem
    rw [hFlag, (cells_of_pending hOrderly hx).2, lastWrite_running_of_pushes]
    intro running hStored
    have hNone := stored_mem_acts.mpr hStored
    rw [hActs] at hNone
    cases hNone
  | stored b =>
    have hFalse : running = false ∧ .loaded false ∈ x.acts := by
      replace hMem := (List.mem_cons.mp hMem).resolve_left (by rintro ⟨⟩)
      cases b with
      | true =>
        obtain ⟨seq, req, y, hy, -, -, hActs⟩ := hAllowed
        obtain rfl := Option.some.inj (hx.symm.trans hy)
        rw [hActs] at hMem ⊢
        cases List.mem_singleton.mp hMem
        exact ⟨rfl, hMem⟩
      | false =>
        obtain ⟨seq, arm, r, hPost, y, hy, -, -, hActs⟩ := hAllowed
        obtain rfl := Option.some.inj (hx.symm.trans hy)
        rw [hActs] at hMem ⊢
        cases arm with
        | acquireStart req =>
          simp only [called, preamble, List.mem_cons, reduceCtorEq, Entry.loaded.injEq,
            List.not_mem_nil, or_false, false_or] at hMem
          cases hMem
          exact ⟨rfl, by simp [called, preamble]⟩
        | reset => simp [called, preamble, looksAtRunning] at hMem
        | hello => cases r <;> cases hPost
        | _ => cases hPost
    obtain ⟨rfl, hLoaded⟩ := hFalse
    exact not_running_of_loaded hOrderly hx (hEntries hLoaded)
  | _ => cases hAccess

omit [Inhabited Config] in
theorem quiet_of_rest {rest : Log Config Description} (h : ∀ entry ∈ rest, entry.isAccess = false) :
    ∀ entry ∈ rest.filter (fun entry => !entry.isPush),
      entry.isAccess = false ∧ entry.isPush = false := by
  intro entry hMem
  obtain ⟨hMem, hPush⟩ := List.mem_filter.mp hMem
  exact ⟨h entry hMem, by simpa using hPush⟩

/-- The last access to `running` is where the answer takes effect. -/
theorem Owes.step_of_access {y : Exchange Config Description}
    {response : Response Config Description} {entry : Entry Config Description}
    (h : Orderly (entry :: log)) (hOwes : Owes y response (entry :: log))
    (hAccess : entry.isAccess = true) :
    Phase.Step (standing log) (y.label response)
      (.left response (lastWrite Entry.writesGreeted y.greeted y.acts) (runningIn (entry :: log))) := by
  obtain ⟨hServed, z, rest, hz, rfl, hRest⟩ := hOwes
  obtain ⟨x, hx, hNote, hStanding, -⟩ := standing_of_access hAccess h.1
  obtain rfl := Option.some.inj (hNote.symm.trans hz)
  have hPush : entry.isPush = false := by
    cases entry <;> first | rfl | cases hAccess
  have hActs : ((x.note entry).followedBy rest).acts =
      (rest.filter fun entry => !entry.isPush) ++ entry :: x.acts := by
    rw [Exchange.acts_followedBy, x.acts_note hPush]
  have hQuiet := quiet_of_rest hRest
  have hLoaded : ∀ running, .loaded running ∈ ((x.note entry).followedBy rest).acts →
      (x.running && !x.entries.any Entry.clears) = running := by
    intro running hMem
    rw [hActs] at hMem
    rcases List.mem_append.mp hMem with hMem | hMem
    · cases (hQuiet _ hMem).1
    · exact loaded_of_access h hAccess hx hMem
  have hRunning : lastWrite Entry.writesRunning (x.running && !x.entries.any Entry.clears)
      ((x.note entry).followedBy rest).acts = runningIn (entry :: log) := by
    rw [hActs, lastWrite_append, lastWrite_running_of_quiet _ hQuiet]
    cases entry with
    | stored b => rfl
    | loaded b =>
      obtain ⟨hFlag, seq, arm, -, w, hw, -, -, hNone⟩ := h.1
      obtain rfl := Option.some.inj (hx.symm.trans hw)
      rw [hNone]
      change _ = runningIn log
      rw [← hFlag]
      exact loaded_of_access h rfl hx List.mem_cons_self
    | _ => cases hAccess
  have hGreeted : (x.running && !x.entries.any Entry.clears) = true → x.greeted = true :=
    fun hUp => greeted_of_running_pending h.2 hx (Bool.and_eq_true_iff.mp hUp).1
  have hStep := hServed.step hGreeted hLoaded
  rw [hRunning] at hStep
  rw [label_eq, hStanding]
  exact hStep

/-- A message that is answered without a look at `running` takes effect as it comes. -/
theorem Owes.step_of_received {y : Exchange Config Description}
    {response : Response Config Description} {message : Except String (Request Config)}
    {greeted running : Bool} (h : Orderly (.received message greeted running :: log))
    (hOwes : Owes y response (.received message greeted running :: log)) :
    Phase.Step (.of greeted running) (y.label response)
      (.left response (lastWrite Entry.writesGreeted y.greeted y.acts) running) := by
  obtain ⟨hServed, x, rest, hx, rfl, hRest⟩ := hOwes
  cases hx
  have hQuiet : ∀ e ∈ (Exchange.followedBy ⟨message, greeted, running, []⟩ rest).acts,
      e.isAccess = false ∧ e.isPush = false := by
    rw [Exchange.acts_followedBy]
    change ∀ e ∈ (rest.filter fun entry => !entry.isPush) ++ [], _
    rw [List.append_nil]
    exact quiet_of_rest hRest
  have hStanding : running = true → greeted = true := by
    obtain ⟨-, -, rfl, rfl⟩ := h.1
    exact greeted_of_running h.2
  have hStep := hServed.step hStanding fun b hMem => by cases (hQuiet _ hMem).1
  rw [lastWrite_running_of_quiet _ hQuiet] at hStep
  rw [label_eq]
  exact hStep

omit [Inhabited Config] in
theorem Entry.eq_replied {entry : Entry Config Description} {hand : Option (Exchange Config Description)}
    {x : Exchange Config Description} {response : Response Config Description}
    (h : entry.role hand = .ends (x, response)) :
    hand = some x ∧ ∃ greeted running, entry = .replied response greeted running := by
  cases entry with
  | replied response' greeted running =>
    cases hand with
    | none => cases h
    | some y =>
      cases h
      exact ⟨rfl, greeted, running, rfl⟩
  | begun push event =>
    rw [Entry.role] at h
    split at h <;> cases h
  | entered handler => cases handler <;> cases h
  | _ => cases h

omit [Inhabited Config] in
theorem Entry.aside_iff {entry : Entry Config Description} {hand : Option (Exchange Config Description)}
    {label : Label Config Description} : entry.role hand = .alone label ↔ entry.aside = some label := by
  cases entry with
  | begun push event =>
    rw [Entry.role, Entry.aside]
    cases Events.endsCapture event <;> simp
  | entered handler => cases handler <;> simp [Entry.role, Entry.aside]
  | replied response => cases hand <;> simp [Entry.role, Entry.aside]
  | _ => simp [Entry.role, Entry.aside]

omit [Inhabited Config] in
theorem Entry.eq_of_point {entry : Entry Config Description} {hand : Option (Exchange Config Description)}
    (h : entry.role hand = .point) :
    entry.isAccess = true ∨ ∃ message greeted running, entry = .received message greeted running := by
  cases entry with
  | received message greeted running => exact .inr ⟨message, greeted, running, rfl⟩
  | loaded => exact .inl rfl
  | stored => exact .inl rfl
  | begun push event =>
    rw [Entry.role] at h
    split at h <;> cases h
  | entered handler => cases handler <;> cases h
  | replied response => cases hand <;> cases h
  | _ => cases h

/-- An entry of no consequence to the machine. -/
structure Entry.Quiet (entry : Entry Config Description) : Prop where
  message : entry.isMessage = false
  access : entry.isAccess = false
  running : entry.writesRunning = none
  clears : entry.clears = false
  ne_shutdown : entry ≠ .entered .shutdown

omit [Inhabited Config] in
theorem Entry.quiet_of_silent {entry : Entry Config Description}
    {hand : Option (Exchange Config Description)} (h : entry.role hand = .silent) :
    entry.Quiet ∨ hand = none ∧ ∃ response greeted running, entry = .replied response greeted running := by
  cases entry with
  | replied response greeted running =>
    cases hand with
    | none => exact .inr ⟨rfl, response, greeted, running, rfl⟩
    | some x => cases h
  | begun push event =>
    rw [Entry.role] at h
    cases hEnds : Events.endsCapture event with
    | true =>
      rw [hEnds] at h
      cases h
    | false => exact .inl ⟨rfl, rfl, by simp [Entry.writesRunning, hEnds], hEnds, by rintro ⟨⟩⟩
  | entered handler =>
    refine .inl ⟨rfl, rfl, rfl, rfl, ?_⟩
    rintro ⟨⟩
    cases h
  | received | loaded | stored => cases h
  | _ => exact .inl ⟨rfl, rfl, rfl, rfl, by rintro ⟨⟩⟩

theorem at_replied {x : Exchange Config Description} {response : Response Config Description}
    {greeted running : Bool} {phase : Phase} (h : Orderly log) (hx : pending log = some x)
    (hAt : At (some (x, response)) log phase) :
    At none (.replied response greeted running :: log) phase := by
  have hNot := not_quit_of_pending h hx
  have hOpen : .entered .shutdown ∉ log := fun hMem => hNot (quit_of_entered_shutdown h hMem)
  obtain ⟨hGreeted, -⟩ := cells_of_pending h hx
  change phase = .left response _ _ at hAt
  rw [lastWrite_greeted_acts, ← hGreeted, Phase.left] at hAt
  cases hGrants : grantsShutdown response with
  | true =>
    rw [hGrants] at hAt
    obtain ⟨seq, rfl⟩ := grantsShutdown_iff.mp hGrants
    refine ⟨fun hNone => absurd ⟨seq, greeted, running, List.mem_cons_self⟩ hNone,
      fun _ _ => hAt, fun hMem => ?_⟩
    exact absurd ((List.mem_cons.mp hMem).resolve_left (by rintro ⟨⟩)) hOpen
  | false =>
    rw [hGrants] at hAt
    refine ⟨fun _ => hAt, fun hQuit _ => ?_, fun hMem => ?_⟩
    · obtain ⟨seq, g, r, hMem⟩ := hQuit
      rcases List.mem_cons.mp hMem with hEq | hMem
      · cases hEq
        cases hGrants
      · exact absurd ⟨seq, g, r, hMem⟩ hNot
    · exact absurd ((List.mem_cons.mp hMem).resolve_left (by rintro ⟨⟩)) hOpen

omit [Inhabited Config] in
/-- An entry that is no message keeps the machine where it is, or takes a capture away. -/
theorem at_cons {entry : Entry Config Description} {phase next : Phase}
    (hMessage : entry.isMessage = false) (hOpen : entry ≠ .entered .shutdown)
    (hStanding : phase = standing log → next = standing (entry :: log))
    (hOver : phase.isOver = true → next = phase) (hAt : At none log phase) :
    At none (entry :: log) next := by
  obtain ⟨hUp, hStopping, hStopped⟩ := hAt
  have hQuit := quit_cons log hMessage
  refine ⟨fun hNot => hStanding (hUp fun h => hNot (hQuit.mpr h)), fun h hNew => ?_, fun hMem => ?_⟩
  · obtain rfl := hStopping (hQuit.mp h) fun hMem => hNew (List.mem_cons_of_mem _ hMem)
    exact hOver rfl
  · obtain rfl := hStopped ((List.mem_cons.mp hMem).resolve_left fun hEq => hOpen hEq.symm)
    exact hOver rfl

theorem standing_quiet {entry : Entry Config Description} (hQuiet : entry.Quiet)
    (hAllowed : Allowed entry log) : standing (entry :: log) = standing log := by
  rw [standing, pending_cons log hQuiet.message, standing]
  cases hx : pending log with
  | some x =>
    change Phase.of x.greeted (x.running && !(entry :: x.entries).any Entry.clears) = _
    rw [List.any_cons, hQuiet.clears, Bool.false_or]
  | none =>
    have hRunning : runningIn (entry :: log) = runningIn log :=
      lastWrite_cons_of_none log hQuiet.running
    have hGreeted : greetedIn (entry :: log) = greetedIn log := by
      cases entry with
      | greeted =>
        obtain ⟨seq, req, result, x, hHand, -⟩ := hAllowed
        rw [hx] at hHand
        cases hHand
      | _ => rfl
    rw [Option.map_none, hRunning, hGreeted]

omit [Inhabited Config] in
theorem standing_ended {push : Nat} {event : Event} (hEnds : Events.endsCapture event = true) :
    standing (.begun push event :: log) = (standing log).settle := by
  rw [standing, pending_cons log rfl, standing]
  cases pending log with
  | some x =>
    rw [Phase.settle_of]
    change Phase.of x.greeted (x.running && !(.begun push event :: x.entries).any Entry.clears) = _
    rw [List.any_cons, Entry.clears, hEnds, Bool.true_or, Bool.not_true, Bool.and_false]
  | none =>
    have hRunning : runningIn (.begun push event :: log) = false := by
      rw [runningIn, lastWrite, Entry.writesRunning, hEnds]
      rfl
    rw [Option.map_none, hRunning, Phase.settle_of]
    rfl

theorem OrderlyWith.ends {entry : Entry Config Description} {x : Exchange Config Description}
    {response : Response Config Description}
    {due : Option (Exchange Config Description × Response Config Description)}
    (hRole : reading.role entry log = .ends (x, response)) (h : OrderlyWith due (entry :: log)) :
    due = none ∧ OrderlyWith (some (x, response)) log ∧
      ∀ phase, At (some (x, response)) log phase → At none (entry :: log) phase := by
  obtain ⟨hx, greeted, running, rfl⟩ := Entry.eq_replied hRole
  cases due with
  | some operation =>
    obtain ⟨-, -, y, rest, hy, -⟩ := h
    cases hy
  | none =>
    obtain ⟨⟨-, -, y, hy, hServed⟩, hOrderly⟩ := h
    obtain rfl := Option.some.inj (hx.symm.trans hy)
    exact ⟨rfl, ⟨hOrderly, hServed, x, [], hx, rfl, by simp⟩,
      fun _ hAt => at_replied hOrderly hx hAt⟩

theorem OrderlyWith.alone {entry : Entry Config Description} {label : Label Config Description}
    {due : Option (Exchange Config Description × Response Config Description)}
    (hRole : reading.role entry log = .alone label) (h : OrderlyWith due (entry :: log)) :
    OrderlyWith due log ∧ ∀ phase, At due log phase →
      ∃ next, Phase.Step phase label next ∧ At due (entry :: log) next := by
  have hAside := Entry.aside_iff.mp hRole
  cases entry with
  | begun push event =>
    cases hEnds : Events.endsCapture event with
    | false => simp [Entry.aside, hEnds] at hAside
    | true =>
      obtain rfl : label = .ended event := by
        simp only [Entry.aside, hEnds, if_true, Option.some.injEq] at hAside
        exact hAside.symm
      cases due with
      | none =>
        refine ⟨h.2, fun phase hAt => ⟨phase.settle, .ended event phase hEnds, ?_⟩⟩
        refine at_cons rfl (by rintro ⟨⟩) (fun hPhase => ?_) (fun hOver => ?_) hAt
        · rw [hPhase, standing_ended hEnds]
        · cases phase <;> first | rfl | cases hOver
      | some operation =>
        obtain ⟨⟨-, hOrderly⟩, hOwes⟩ := h
        refine ⟨⟨hOrderly, hOwes.of_cons rfl rfl⟩,
          fun phase hAt => ⟨phase.settle, .ended event phase hEnds, ?_⟩⟩
        have hRunning : runningIn (.begun push event :: log) = false := by
          rw [runningIn, lastWrite, Entry.writesRunning, hEnds]
          rfl
        change phase = .left _ _ _ at hAt
        change phase.settle = .left _ _ _
        rw [hAt, hRunning, Phase.left, Phase.left]
        cases grantsShutdown operation.2 with
        | true => rfl
        | false => exact Phase.settle_of _ _
  | entered handler =>
    cases handler with
    | shutdown =>
      obtain rfl := Option.some.inj hAside
      have hDone : pending log = none ∧ Quit log ∧ .entered .shutdown ∉ log ∧ Orderly log := by
        cases due <;> rcases h with ⟨hAllowed, hOrderly⟩
        · rcases hAllowed with ⟨seq, arm, hArm, hShutdown, -⟩ | ⟨-, hDone, hQuit, hNew⟩
          · exact absurd hArm.symm (armHandler_ne_shutdown hShutdown)
          · exact ⟨hDone, hQuit, hNew, hOrderly⟩
        · rcases hAllowed.1 with ⟨seq, arm, hArm, hShutdown, -⟩ | ⟨-, hDone, hQuit, hNew⟩
          · exact absurd hArm.symm (armHandler_ne_shutdown hShutdown)
          · exact ⟨hDone, hQuit, hNew, hAllowed.2⟩
      obtain ⟨hDone, hQuit, hNew, hOrderly⟩ := hDone
      cases due with
      | none =>
        refine ⟨hOrderly, fun phase hAt => ⟨.stopped, ?_, ?_, ?_, ?_⟩⟩
        · obtain rfl := hAt.2.1 hQuit hNew
          exact .shutDown
        · intro hNot
          exact absurd ((quit_cons log rfl).mpr hQuit) hNot
        · intro _ hNever
          exact absurd List.mem_cons_self hNever
        · intro _
          rfl
      | some operation =>
        obtain ⟨-, -, x, rest, hx, -⟩ := h
        rw [pending_cons log rfl, hDone] at hx
        cases hx
    | _ => cases hAside
  | _ => cases hAside

theorem OrderlyWith.point {entry : Entry Config Description}
    {operation : Exchange Config Description × Response Config Description}
    (hRole : reading.role entry log = .point) (h : OrderlyWith (some operation) (entry :: log)) :
    OrderlyWith none log ∧ ∀ phase, At none log phase →
      ∃ next, Phase.Step phase (reading.label operation) next ∧
        At (some operation) (entry :: log) next := by
  obtain ⟨hOrderly, hOwes⟩ := h
  refine ⟨hOrderly.2, fun phase hAt => ⟨_, ?_, rfl⟩⟩
  rcases Entry.eq_of_point hRole with hAccess | ⟨message, greeted, running, rfl⟩
  · obtain ⟨x, hx, -⟩ := standing_of_access hAccess hOrderly.1
    obtain rfl := hAt.1 (not_quit_of_pending hOrderly.2 hx)
    exact hOwes.step_of_access hOrderly hAccess
  · obtain ⟨hNone, hNot, hGreeted, hRunning⟩ := hOrderly.1
    obtain rfl := hAt.1 hNot
    have hStep := hOwes.step_of_received hOrderly
    have hBefore : standing log = .of greeted running := by
      rw [standing, hNone, hGreeted, hRunning]
    rw [hBefore]
    have hSame : runningIn (.received message greeted running :: log) = running := hRunning.symm
    rw [hSame]
    exact hStep

theorem OrderlyWith.pass {entry : Entry Config Description} (hRole : reading.role entry log = .point)
    (h : OrderlyWith none (entry :: log)) :
    OrderlyWith none log ∧ ∀ phase, At none log phase → At none (entry :: log) phase := by
  obtain ⟨hAllowed, hOrderly⟩ := h
  refine ⟨hOrderly, fun phase hAt => ?_⟩
  rcases Entry.eq_of_point hRole with hAccess | ⟨message, greeted, running, rfl⟩
  · obtain ⟨x, -, -, -, hSame⟩ := standing_of_access hAccess hAllowed
    refine at_cons ?_ ?_ (fun hPhase => hPhase.trans hSame.symm) (fun _ => rfl) hAt
    · cases entry <;> first | rfl | cases hAccess
    · rintro rfl
      cases hAccess
  · obtain ⟨hNone, hNot, rfl, rfl⟩ := hAllowed
    obtain rfl := hAt.1 hNot
    refine ⟨fun _ => ?_, fun hQuit => ?_, fun hMem => ?_⟩
    · rw [standing, hNone, standing, pending]
      simp
    · exact absurd hQuit (not_quit_of_pending ⟨⟨hNone, hNot, rfl, rfl⟩, hOrderly⟩ rfl)
    · have hOld := (List.mem_cons.mp hMem).resolve_left (by rintro ⟨⟩)
      exact absurd (quit_of_entered_shutdown hOrderly hOld) hNot

theorem OrderlyWith.silent {entry : Entry Config Description}
    {due : Option (Exchange Config Description × Response Config Description)}
    (hRole : reading.role entry log = .silent) (h : OrderlyWith due (entry :: log)) :
    OrderlyWith due log ∧ ∀ phase, At due log phase → At due (entry :: log) phase := by
  have hAllowed : Allowed entry log ∧ Orderly log := by
    cases due with
    | none => exact h
    | some operation => exact h.1
  have hQuiet : entry.Quiet := by
    refine (Entry.quiet_of_silent hRole).resolve_right ?_
    rintro ⟨hNone, response, greeted, running, rfl⟩
    obtain ⟨-, -, x, hx, -⟩ := hAllowed.1
    rw [hNone] at hx
    cases hx
  cases due with
  | none =>
    refine ⟨h.2, fun phase hAt => at_cons hQuiet.message hQuiet.ne_shutdown ?_ (fun _ => rfl) hAt⟩
    intro hPhase
    exact hPhase.trans (standing_quiet hQuiet hAllowed.1).symm
  | some operation =>
    refine ⟨⟨h.1.2, h.2.of_cons hQuiet.message hQuiet.access⟩, fun phase hAt => ?_⟩
    have hRunning : runningIn (entry :: log) = runningIn log :=
      lastWrite_cons_of_none log hQuiet.running
    change phase = .left _ _ _
    rw [hRunning]
    exact hAt

end

/-- The machine goes through what is read off an orderly log. -/
theorem reading_simulates :
    (reading : Reading (Entry Config Description) _ _).Simulates Phase.Step .fresh
      OrderlyWith At where
  start := ⟨fun _ => rfl, fun ⟨_, _, _, hMem⟩ => absurd hMem List.not_mem_nil,
    fun hMem => absurd hMem List.not_mem_nil⟩
  begun := fun _ ⟨_, _, _, _, hx, _⟩ => by cases hx
  ends := OrderlyWith.ends
  alone := OrderlyWith.alone
  point := OrderlyWith.point
  pass := OrderlyWith.pass
  silent := OrderlyWith.silent

omit [Inhabited Config] in
theorem reading_ended (log : Log Config Description) : reading.ended log = exchanges log := by
  induction log with
  | nil => rfl
  | cons entry log ih =>
    have hRole : reading.role entry log = entry.role (pending log) := rfl
    rw [Reading.ended, ih, hRole]
    cases entry with
    | replied response greeted running =>
      rw [exchanges]
      cases pending log <;> rfl
    | begun push event =>
      rw [Entry.role]
      cases Events.endsCapture event <;> rfl
    | entered handler => cases handler <;> rfl
    | _ => rfl

omit [Inhabited Config] in
theorem reading_effects (log : Log Config Description) :
    reading.effects log = log.filterMap Entry.aside := by
  induction log with
  | nil => rfl
  | cons entry log ih =>
    have hRole : reading.role entry log = entry.role (pending log) := rfl
    rw [Reading.effects, ih, hRole, List.filterMap_cons]
    cases hAside : entry.aside with
    | some label => rw [Entry.aside_iff.mpr hAside]
    | none =>
      cases hEntry : entry.role (pending log) with
      | alone label =>
        rw [Entry.aside_iff.mp hEntry] at hAside
        cases hAside
      | _ => rfl

omit [Inhabited Config] in
theorem not_answer_of_alone {entry : Entry Config Description} {log : Log Config Description}
    {label : Label Config Description} (h : reading.role entry log = .alone label) :
    label.isAnswer = false := by
  have hAside := Entry.aside_iff.mp h
  cases entry with
  | begun push event =>
    rw [Entry.aside] at hAside
    split at hAside <;> cases hAside
    rfl
  | entered handler =>
    cases handler <;> cases hAside
    rfl
  | _ => cases hAside

/-- Whatever the threads do in between, the plugin answers as the machine does, which takes
the messages one by one. A message is answered in one step somewhere between its receipt and
its reply, and the end of a capture is a step where it is noted. -/
theorem control_loop_linearizable (plugin : CaptureServer Config Description σ)
    (decode : List UInt8 → Except String (Request Config)) (actions : List (Action σ))
    (s : Process Config Description σ) (h : s.Reaches plugin decode actions) :
    (∃ phase, Traces Phase.Step .fresh (reading.history s.log) phase ∧
      (pending s.log = none → ¬ Quit s.log → phase = .of s.greeted s.events.isRunning)) ∧
    (reading.history s.log).filter Label.isAnswer =
      (exchanges s.log).map (fun exchange => exchange.1.label exchange.2) ∧
    (reading.history s.log).filter (fun label => !label.isAnswer) = s.log.filterMap Entry.aside ∧
    ∀ newer older, s.log = newer ++ older → pending older = none →
      ∃ later, reading.history s.log = later ++ reading.history older := by
  have hAgrees := agrees_of_reaches h
  have hOrderly : OrderlyWith none s.log := hAgrees.orderly
  refine ⟨?_, ?_, ?_, ?_⟩
  · obtain ⟨phase, hTraces, hUp, -⟩ := reading_simulates.traces hOrderly
    refine ⟨phase, hTraces, fun hNone hNot => (hUp hNot).trans ?_⟩
    rw [standing, hNone, hAgrees.greeted, Events.isRunning, hAgrees.running]
  · have hFilter : (reading.history s.log).filter Label.isAnswer = _ :=
      reading_simulates.filter_operations (fun _ => rfl) not_answer_of_alone hOrderly
    rw [Option.toList_none, List.nil_append, reading_ended] at hFilter
    exact hFilter
  · rw [← reading_effects]
    exact Reading.Simulates.filter_effects (fun _ => rfl) not_answer_of_alone none s.log
  · intro newer older hLog hNone
    rw [hLog] at hOrderly ⊢
    obtain ⟨due, later, hOlder, hEq⟩ := reading_simulates.exists_later hOrderly
    cases due with
    | none => exact ⟨later, hEq⟩
    | some operation =>
      obtain ⟨-, -, x, rest, hx, -⟩ := hOlder
      rw [hNone] at hx
      cases hx

/-- A capture ends after dispatch has found it running, and the request is still refused. -/
theorem control_loop_linearizable_late_refusal :
    ∃ s : Process Unit Unit Unit, s.Reaches Sample.plugin Sample.decode
        (Sample.serve Sample.hello 4 ++ Sample.serve Sample.firstStart 5 ++
          [.receive (.ok Sample.describe), .act, .act, .begin (.captureEnd ⟨1, none⟩),
            .reply none]) ∧
      s.events.isRunning = false ∧
      ∃ phase, Traces (@Phase.Step Unit Unit _) .fresh
        [.ended (.captureEnd ⟨1, none⟩), .answered (.ok ⟨5, some .describe⟩) [] ⟨5, some busy, none⟩,
          .answered (.ok ⟨2, some (.acquireStart ⟨1, 1⟩)⟩)
            [⟨.acquireStart ⟨1, 1⟩, Except.ok ()⟩] ⟨2, none, some .acquireStart⟩,
          .answered (.ok ⟨1, some (.hello ⟨1, "", "", [], []⟩)⟩)
            [⟨.hello ⟨1, "", "", [], []⟩, Except.ok ⟨1, none, none, none, [], []⟩⟩]
            ⟨1, none, some (.hello ⟨1, none, none, none, [], []⟩)⟩] phase := by
  obtain ⟨s, hReaches, hLog⟩ := Sample.log_of_run _
    [.replied ⟨5, some busy, none⟩ true false, .begun 0 (.captureEnd ⟨1, none⟩), .loaded true,
      .received (.ok ⟨5, some .describe⟩) true true,
      .replied ⟨2, none, some .acquireStart⟩ true true,
      .returned (.acquireStart ⟨1, 1⟩) (Except.ok ()),
      .entered (.acquireStart ⟨1, 1⟩), .stored true, .loaded false,
      .received (.ok ⟨2, some (.acquireStart ⟨1, 1⟩)⟩) true false,
      .replied ⟨1, none, some (.hello ⟨1, none, none, none, [], []⟩)⟩ true false, .greeted,
      .returned (.hello ⟨1, "", "", [], []⟩) (Except.ok ⟨1, none, none, none, [], []⟩),
      .entered (.hello ⟨1, "", "", [], []⟩),
      .received (.ok ⟨1, some (.hello ⟨1, "", "", [], []⟩)⟩) false false]
    (rfl : (Runs.run (Process.step Sample.plugin Sample.decode) Sample.start
      (Sample.serve Sample.hello 4 ++ Sample.serve Sample.firstStart 5 ++
        [.receive (.ok Sample.describe), .act, .act, .begin (.captureEnd ⟨1, none⟩),
          .reply none])).map Process.log = _)
  obtain ⟨⟨phase, hTraces, -⟩, -⟩ :=
    control_loop_linearizable Sample.plugin Sample.decode _ s hReaches
  refine ⟨s, hReaches, ?_, phase, ?_⟩
  · rw [Events.isRunning, (agrees_of_reaches hReaches).running, hLog]
    rfl
  · rw [hLog] at hTraces
    exact hTraces

end OpenMso.Server
