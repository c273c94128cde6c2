import OpenMso.Server.Running

/-! # The capture that `running` stands for

The flag belongs to the capture whose `AcquireStart` was accepted last, and any
`CaptureEnd` clears it. It is true to its capture exactly as long as no thread
of an older one, which a `Reset` left behind, pushes its own end.
-/

namespace OpenMso.Server

open Foundation Foundation.Register Foundation.Runs Proto

set_option autoImplicit false

variable {Config Description σ : Type}

/-- The capture that the message asks to start. -/
def Exchange.requestedCapture (x : Exchange Config Description) : Option UInt64 :=
  match x.message with
  | .ok ⟨_, some (.acquireStart req)⟩ => some req.captureId
  | _ => none

/-- The capture whose `AcquireStart` has been accepted, until its `CaptureEnd`, a
`DeviceLost`, a failure of the call or a successful `Reset`. -/
def live : Log Config Description → Option UInt64
  | [] => none
  | .stored true :: log => (pending log).bind Exchange.requestedCapture
  | .begun _ (.captureEnd ended) :: log =>
    if live log = some ended.captureId then none else live log
  | .begun _ (.deviceLost _) :: _ => none
  | entry :: log => if entry.settles then none else live log

/-- The event is the end of some capture other than the one that is running. -/
def StrayEnd (log : Log Config Description) (event : Event) : Prop :=
  match event with
  | .captureEnd ended => live log ≠ none ∧ live log ≠ some ended.captureId
  | _ => False

def NoStray : Log Config Description → Prop
  | [] => True
  | .begun _ event :: log => ¬ StrayEnd log event ∧ NoStray log
  | _ :: log => NoStray log

/-- A running capture keeps `running` true, and a blocked request that arrives and is
looked at while one runs is refused without the plugin. -/
structure KeepsRunning [Inhabited Config] (s : Process Config Description σ) : Prop where
  running : ∀ capture, live s.log = some capture → s.events.isRunning = true
  blocked : ∀ response greeted running before x seq arm,
    s.log = .replied response greeted running :: before → pending before = some x →
    x.message = .ok ⟨seq, some arm⟩ → isBlocked arm = true →
    ∃ older, before = x.entries ++ .received x.message x.greeted x.running :: older ∧
      (live older ≠ none → (∀ newer flag earlier, x.entries = newer ++ .loaded flag :: earlier →
        live (earlier ++ .received x.message x.greeted x.running :: older) ≠ none) →
      response = respond seq (.error busy) ∧ ∀ handler, .entered handler ∉ x.entries)

section
variable {log : Log Config Description}

theorem live_cons_of_keeps {entry : Entry Config Description} (hStored : entry ≠ .stored true)
    (hClears : entry.clears = false) (hSettles : entry.settles = false) :
    live (entry :: log) = live log := by
  cases entry with
  | stored running =>
    cases running with
    | true => exact absurd rfl hStored
    | false => rfl
  | begun push event =>
    cases event with
    | captureEnd ended => cases hClears
    | deviceLost reason => cases hClears
    | _ => rfl
  | returned handler r => simp [live, hSettles]
  | _ => rfl

theorem live_cons_of_settles {entry : Entry Config Description} (hSettles : entry.settles = true) :
    live (entry :: log) = none := by
  cases entry with
  | returned handler r => simp [live, hSettles]
  | _ => cases hSettles

theorem NoStray.suffix {newer older : Log Config Description} (h : NoStray (newer ++ older)) :
    NoStray older := by
  induction newer with
  | nil => exact h
  | cons entry newer ih =>
    cases entry with
    | begun push event => exact ih h.2
    | _ => exact ih h

theorem exists_received {x : Exchange Config Description} (hx : pending log = some x) :
    ∃ older, log = x.entries ++ .received x.message x.greeted x.running :: older := by
  induction log generalizing x with
  | nil => cases hx
  | cons entry log ih =>
    cases hMessage : entry.isMessage with
    | false =>
      rw [pending_cons log hMessage] at hx
      obtain ⟨y, hy, rfl⟩ := Option.map_eq_some_iff.mp hx
      obtain ⟨older, hLog⟩ := ih hy
      exact ⟨older, congrArg (entry :: ·) hLog⟩
    | true =>
      cases entry with
      | received message greeted running =>
        cases hx
        exact ⟨log, rfl⟩
      | replied => cases hx
      | _ => cases hMessage

variable [Inhabited Config]

omit [Inhabited Config] in
theorem settles_or_releasing {entry : Entry Config Description} (h : Releasing (entry :: log)) :
    entry.settles = true ∨ Releasing log := by
  obtain ⟨message, greeted, last, rest, hSettles, x, hx, hMessage, hGreeted, hActs⟩ := h
  cases hKind : entry.isMessage with
  | true =>
    cases entry with
    | received =>
      cases hx
      cases hActs
    | replied => cases hx
    | _ => cases hKind
  | false =>
    rw [pending_cons log hKind] at hx
    obtain ⟨y, hy, rfl⟩ := Option.map_eq_some_iff.mp hx
    cases hPush : entry.isPush with
    | true =>
      rw [y.acts_push hPush] at hActs
      exact .inr ⟨message, greeted, last, rest, hSettles, y, hy, hMessage, hGreeted, hActs⟩
    | false =>
      left
      rw [Exchange.acts, Exchange.note, List.filter_cons_of_pos (by rw [hPush]; rfl)] at hActs
      obtain ⟨rfl, -⟩ := List.cons.inj hActs
      exact hSettles

theorem settles_of_postlude {arm : Request.Arm Config} {r : (armHandler arm).Result Description}
    (h : postlude arm r = [(.stored false : Entry Config Description)]) :
    (.returned (armHandler arm) r : Entry Config Description).settles = true := by
  cases arm with
  | hello => cases r <;> cases h
  | acquireStart =>
    rcases r with e | ⟨⟩
    · rfl
    · cases h
  | reset =>
    rcases r with e | ⟨⟩
    · cases h
    · rfl
  | _ => cases h

/-- A running capture keeps the flag up. -/
structure Firm (log : Log Config Description) : Prop where
  running : runningIn log = true
  greeted : greetedIn log = true
  kept : ¬ Releasing log

omit [Inhabited Config] in
theorem Firm.cons {entry : Entry Config Description} (h : Firm log)
    (hRunning : entry.writesRunning = none) (hSettles : entry.settles = false) :
    Firm (entry :: log) where
  running := (lastWrite_cons_of_none log hRunning).trans h.running
  greeted := by
    cases entry with
    | greeted => rfl
    | _ => exact h.greeted
  kept := by
    intro hRelease
    rcases settles_or_releasing hRelease with hSome | hBefore
    · rw [hSettles] at hSome
      cases hSome
    · exact h.kept hBefore

theorem firm_of_claim (hOrderly : Orderly log)
    (hAllowed : Allowed (.stored true : Entry Config Description) log) : Firm (.stored true :: log) := by
  obtain ⟨seq, req, hHand⟩ := hAllowed
  refine ⟨rfl, ?_, ?_⟩
  · exact greetedIn_of_inHand hOrderly hHand (by simp)
  · intro hRelease
    obtain ⟨message, greeted, last, rest, hSettles, hOther⟩ :=
      (settles_or_releasing hRelease).resolve_left (by rintro ⟨⟩)
    cases (hHand.unique hOther).2.2
    cases hSettles

theorem firm_of_live (hOrderly : Orderly log) (hNoStray : NoStray log) (hLive : live log ≠ none) :
    Firm log := by
  induction log with
  | nil => exact absurd rfl hLive
  | cons entry log ih =>
    obtain ⟨hAllowed, hOrderly⟩ := hOrderly
    cases hSettles : entry.settles with
    | true => exact absurd (live_cons_of_settles hSettles) hLive
    | false =>
      cases entry with
      | stored running =>
        cases running with
        | true => exact firm_of_claim hOrderly hAllowed
        | false =>
          obtain ⟨seq, arm, r, hPost, hHand⟩ := hAllowed
          refine absurd ?_ (ih hOrderly hNoStray hLive).kept
          exact ⟨_, _, _, _, settles_of_postlude hPost, hHand⟩
      | begun push event =>
        obtain ⟨hEvent, hNoStray⟩ := hNoStray
        cases event with
        | captureEnd ended =>
          rw [live] at hLive
          split at hLive
          · exact absurd rfl hLive
          · next hOther => exact absurd ⟨hLive, hOther⟩ hEvent
        | deviceLost reason => exact absurd rfl hLive
        | _ => exact (ih hOrderly hNoStray hLive).cons rfl rfl
      | returned handler r =>
        rw [live_cons_of_keeps (by rintro ⟨⟩) rfl hSettles] at hLive
        exact (ih hOrderly hNoStray hLive).cons rfl hSettles
      | _ => exact (ih hOrderly hNoStray hLive).cons rfl rfl

/-- A blocked request is refused on sight, or called for after `running` was found false. -/
theorem Served.busy_or_loaded {seq : UInt32} {arm : Request.Arm Config}
    {acts : Log Config Description} {response : Response Config Description}
    (h : Served (.ok ⟨seq, some arm⟩) true acts response) (hBlocked : isBlocked arm = true) :
    (response = respond seq (.error Server.busy) ∧ acts = [.loaded true]) ∨ .loaded false ∈ acts := by
  generalize hGreeted : true = greeted at h
  cases h with
  | busy => exact .inl ⟨rfl, rfl⟩
  | called seq arm hArm r =>
    right
    cases arm with
    | hello | acquireStop | reset | shutdown => cases hBlocked
    | _ => simp [Server.called, preamble, looksAtRunning]
  | ungreeted => cases hGreeted
  | _ => cases hBlocked

theorem refused_of_live (hOrderly : Orderly log) (hNoStray : NoStray log)
    {x : Exchange Config Description} (hx : pending log = some x) {seq : UInt32}
    {arm : Request.Arm Config} (hMessage : x.message = .ok ⟨seq, some arm⟩)
    (hBlocked : isBlocked arm = true) {response : Response Config Description}
    (hServed : Served x.message x.greeted x.acts response) :
    ∃ older, log = x.entries ++ .received x.message x.greeted x.running :: older ∧
      (live older ≠ none → (∀ newer flag earlier, x.entries = newer ++ .loaded flag :: earlier →
        live (earlier ++ .received x.message x.greeted x.running :: older) ≠ none) →
      response = respond seq (.error busy) ∧ ∀ handler, .entered handler ∉ x.entries) := by
  obtain ⟨older, hLog⟩ := exists_received hx
  refine ⟨older, hLog, fun hArrived hLooked => ?_⟩
  rw [hLog] at hOrderly hNoStray
  have hOlder := (firm_of_live hOrderly.suffix.2 hNoStray.suffix hArrived).greeted
  have hGreeted : x.greeted = true := hOrderly.allowed.2.2.1.trans hOlder
  rw [hMessage, hGreeted] at hServed
  rcases hServed.busy_or_loaded hBlocked with ⟨hBusy, hActs⟩ | hLoaded
  · refine ⟨hBusy, fun handler hMem => ?_⟩
    have hAct : .entered handler ∈ x.acts := List.mem_filter.mpr ⟨hMem, rfl⟩
    rw [hActs] at hAct
    cases List.mem_singleton.mp hAct
  · obtain ⟨newer, earlier, hEntries⟩ := List.append_of_mem (List.mem_filter.mp hLoaded).1
    have hLive := hLooked newer false earlier hEntries
    rw [hEntries, List.append_assoc, List.cons_append] at hOrderly hNoStray
    have hTrue := (firm_of_live hOrderly.suffix.2 hNoStray.suffix hLive).running
    have hFalse : false = runningIn _ := hOrderly.allowed.1
    rw [hTrue] at hFalse
    cases hFalse

end

section
variable [Inhabited Config] {plugin : CaptureServer Config Description σ}
  {decode : List UInt8 → Except String (Request Config)} {s t : Process Config Description σ}
  {action : Action σ}

omit [Inhabited Config] in
theorem NoStray.append {newer older : Log Config Description} (h : NoStray older)
    (hNewer : ∀ entry ∈ newer, entry.isPush = false) : NoStray (newer ++ older) := by
  induction newer with
  | nil => exact h
  | cons entry newer ih =>
    obtain ⟨hPush, hRest⟩ := List.forall_mem_cons.mp hNewer
    cases entry with
    | begun push event => cases hPush
    | _ => exact ih hRest

theorem NoStray.step (h : NoStray s.log) (hFits : ∀ event, action = .begin event → ¬ StrayEnd s.log event)
    (hStep : s.step plugin decode action = some t) : NoStray t.log := by
  cases hControl : action.isControl with
  | true =>
    obtain ⟨op, next, answer, u, -, hPerform, rfl⟩ := step_control hControl hStep
    obtain ⟨-, newer, hNewer, hLog, -⟩ := perform_notes hPerform
    change NoStray u.log
    rw [hLog]
    exact h.append hNewer
  | false =>
    cases action with
    | begin event =>
      cases hStep
      exact ⟨hFits event rfl, h⟩
    | finish push failure =>
      obtain ⟨event, -, -, -, -, -, hLog | hLog⟩ := finish_cases hStep
      · rw [hLog]
        exact h
      · rw [hLog]
        exact h
    | tamper state =>
      cases hStep
      exact h
    | _ => cases hControl

theorem keepsRunning_of_noStray (hAgrees : Agrees s) (hNoStray : NoStray s.log) : KeepsRunning s where
  running capture hLive := by
    refine hAgrees.running.trans (firm_of_live hAgrees.orderly hNoStray ?_).running
    rw [hLive]
    rintro ⟨⟩
  blocked response greeted running before x seq arm hLog hx hMessage hBlocked := by
    have hOrderly := hAgrees.orderly
    rw [hLog] at hOrderly hNoStray
    obtain ⟨⟨-, -, y, hy, hServed⟩, hBefore⟩ := hOrderly
    obtain rfl := Option.some.inj (hx.symm.trans hy)
    exact refused_of_live hBefore hNoStray hx hMessage hBlocked hServed

/-- A stray end takes the flag from the capture that is running. -/
theorem not_keepsRunning_of_stray {event : Event} (hStray : StrayEnd s.log event)
    (hStep : s.step plugin decode (.begin event) = some t) : ¬ KeepsRunning t := by
  intro hKeeps
  cases hStep
  cases event with
  | captureEnd ended =>
    obtain ⟨hLive, hOther⟩ := hStray
    obtain ⟨capture, hCapture⟩ := Option.ne_none_iff_exists'.mp hLive
    have hDown := hKeeps.running capture (by
      change (if live s.log = some ended.captureId then none else live s.log) = some capture
      rw [if_neg hOther, hCapture])
    cases hDown
  | _ => cases hStray

end

/-- A running capture blocks configuration in every state of a run if and only if no
thread begins to push the end of another one while it runs. -/
theorem keepsRunning_iff [Inhabited Config] (plugin : CaptureServer Config Description σ)
    (decode : List UInt8 → Except String (Request Config)) (socket : Transport.Socket Event)
    (state : σ) (actions : List (Action σ)) :
    (∀ first rest t, actions = first ++ rest →
      run (Process.step plugin decode) (Process.init socket state) first = some t →
      KeepsRunning t) ↔
    ∀ first event rest t, actions = first ++ .begin event :: rest →
      run (Process.step plugin decode) (Process.init socket state) first = some t →
      ¬ StrayEnd t.log event := by
  constructor
  · intro hKeeps first event rest t hActions hRun hStray
    obtain ⟨u, hStep⟩ : ∃ u, t.step plugin decode (.begin event) = some u := ⟨_, rfl⟩
    refine not_keepsRunning_of_stray hStray hStep (hKeeps (first ++ [.begin event]) rest u ?_ ?_)
    · rw [hActions, List.append_assoc]
      rfl
    · rw [run_concat, hRun]
      exact hStep
  · intro hFits first rest t hActions hRun
    have hBoth : Agrees t ∧ NoStray t.log := by
      refine run_invariant_of_fits (fun u => Agrees u ∧ NoStray u.log)
        (fun u action => ∀ event, action = .begin event → ¬ StrayEnd u.log event)
        ?_ ⟨agrees_init socket state, trivial⟩ ?_ hRun
      · rintro u v action hFit ⟨hAgrees, hNoStray⟩ hStep
        exact ⟨hAgrees.step hStep, hNoStray.step hFit hStep⟩
      · rintro before _ after u hSplit hBefore event rfl
        refine hFits before event (after ++ rest) u ?_ hBefore
        rw [hActions, hSplit, List.append_assoc]
        rfl
    exact keepsRunning_of_noStray hBoth.1 hBoth.2

/-- Two captures with a `Reset` between them; the first one's thread ends late, and the
second one no longer blocks a `Describe`. -/
def Sample.lateEnd : List (Action Unit) :=
  serve hello 4 ++ serve firstStart 5 ++ serve reset 4 ++ serve secondStart 5 ++
    .begin (.captureEnd ⟨1, none⟩) :: serve describe 4

theorem late_end_unblocks :
    ∃ s : Process Unit Unit Unit, s.Reaches Sample.plugin Sample.decode Sample.lateEnd ∧
      (s.log.filterMap Entry.requestedCapture).Nodup ∧
      (s.log.filterMap Entry.endedCapture).Nodup ∧ EndsAfterStart s.log ∧
      live s.log = some 2 ∧ s.events.isRunning = false ∧ ¬ KeepsRunning s ∧
      ∃ older, s.log = .replied ⟨5, none, some (.describe ())⟩ true false ::
          .returned .describe (Except.ok ()) :: .entered .describe :: .loaded false ::
          .received (.ok ⟨5, some .describe⟩) true false :: older ∧ live older = some 2 := by
  obtain ⟨s, hReaches, hLog⟩ := Sample.log_of_run Sample.lateEnd
    [.replied ⟨5, none, some (.describe ())⟩ true false,
      .returned .describe (Except.ok ()), .entered .describe, .loaded false,
      .received (.ok ⟨5, some .describe⟩) true false,
      .begun 0 (.captureEnd ⟨1, none⟩),
      .replied ⟨4, none, some .acquireStart⟩ true true,
      .returned (.acquireStart ⟨2, 1⟩) (Except.ok ()), .entered (.acquireStart ⟨2, 1⟩),
      .stored true, .loaded false,
      .received (.ok ⟨4, some (.acquireStart ⟨2, 1⟩)⟩) true false,
      .replied ⟨3, none, some .reset⟩ true false, .stored false,
      .returned .reset (Except.ok ()), .entered .reset,
      .received (.ok ⟨3, some .reset⟩) true true,
      .replied ⟨2, none, some .acquireStart⟩ true true,
      .returned (.acquireStart ⟨1, 1⟩) (Except.ok ()), .entered (.acquireStart ⟨1, 1⟩),
      .stored true, .loaded false,
      .received (.ok ⟨2, some (.acquireStart ⟨1, 1⟩)⟩) true false,
      .replied ⟨1, none, some (.hello ⟨1, none, none, none, [], []⟩)⟩ true false, .greeted,
      .returned (.hello ⟨1, "", "", [], []⟩) (Except.ok ⟨1, none, none, none, [], []⟩),
      .entered (.hello ⟨1, "", "", [], []⟩),
      .received (.ok ⟨1, some (.hello ⟨1, "", "", [], []⟩)⟩) false false]
    rfl
  have hLive : live s.log = some 2 := by
    rw [hLog]
    rfl
  have hDown : s.events.isRunning = false := by
    refine (agrees_of_reaches hReaches).running.trans ?_
    rw [hLog]
    rfl
  refine ⟨s, hReaches, ?_, ?_, ?_, hLive, hDown, ?_, ?_⟩
  · rw [hLog]
    decide
  · rw [hLog]
    decide
  · rw [hLog]
    decide
  · intro hKeeps
    rw [hKeeps.running 2 hLive] at hDown
    cases hDown
  · rw [hLog]
    exact ⟨_, rfl, rfl⟩

end OpenMso.Server
