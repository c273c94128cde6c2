import OpenMso.Server.Orderly

/-! # Which handlers are called when, and what a refusal leaves behind

All of it read off orderly logs: the calls come after the checks the control
loop makes, and a request answered with an error leaves both cells as it found
them, but for the pushes that end a capture meanwhile.
-/

namespace OpenMso.Server

open Foundation Foundation.Register Proto

set_option autoImplicit false

variable {Config Description σ : Type}

def Handler.isHello : Handler Config → Bool
  | .hello _ => true
  | _ => false

/-- Some call of `hello` has returned a result. -/
def HelloSucceeded (log : Log Config Description) : Prop :=
  ∃ req result, .returned (.hello req) (Except.ok result) ∈ log

/-- A push that says the capture is over. -/
def Entry.clears : Entry Config Description → Bool
  | .begun _ event => Events.endsCapture event
  | _ => false

theorem HelloSucceeded.cons {log : Log Config Description} (h : HelloSucceeded log)
    (entry : Entry Config Description) : HelloSucceeded (entry :: log) := by
  obtain ⟨req, result, hMem⟩ := h
  exact ⟨req, result, List.mem_cons_of_mem _ hMem⟩

theorem lastWrite_running_of_pushes (start : Bool) {entries : Log Config Description}
    (h : ∀ running, .stored running ∉ entries) :
    lastWrite Entry.writesRunning start entries = (start && !entries.any Entry.clears) := by
  induction entries with
  | nil => simp
  | cons entry entries ih =>
    have hRest := ih fun running hMem => h running (List.mem_cons_of_mem _ hMem)
    rw [lastWrite, hRest, List.any_cons]
    cases entry with
    | stored running => exact absurd List.mem_cons_self (h running)
    | begun push event =>
      rw [Entry.writesRunning, Entry.clears]
      cases Events.endsCapture event with
      | true => simp
      | false => rfl
    | _ => rfl

/-- The loop cleared the flag with its last act, so no push can have raised it. -/
theorem lastWrite_running_of_cleared (start : Bool) {entries rest : Log Config Description}
    (h : (entries.filter fun entry => !entry.isPush) = .stored false :: rest) :
    lastWrite Entry.writesRunning start entries = false := by
  induction entries with
  | nil => cases h
  | cons entry entries ih =>
    cases entry with
    | begun push event =>
      rw [lastWrite, Entry.writesRunning, ih h]
      cases Events.endsCapture event <;> rfl
    | enqueued push event => exact ih h
    | stored running =>
      cases h
      rfl
    | _ => cases h

theorem stored_mem_acts {x : Exchange Config Description} {running : Bool} :
    (.stored running : Entry Config Description) ∈ x.acts ↔ .stored running ∈ x.entries := by
  simp [Exchange.acts, Entry.isPush]

variable [Inhabited Config]

section
variable {log : Log Config Description}

theorem armHandler_eq_hello {arm : Request.Arm Config} {req : Hello}
    (h : armHandler arm = .hello req) : arm = .hello req := by
  cases arm <;> cases h
  rfl

theorem isHello_armHandler (arm : Request.Arm Config) :
    (armHandler arm).isHello = arm.isHello := by
  cases arm <;> rfl

/-- `Hello` has been answered by the plugin and `greeted` is about to be set. -/
def Welcoming (log : Log Config Description) : Prop :=
  ∃ seq req result,
    InHand log (.ok ⟨seq, some (.hello req)⟩) false (called (.hello req) (Except.ok result))

theorem not_welcoming {message : Except String (Request Config)} {greeted : Bool}
    {acts : Log Config Description} (hHand : InHand log message greeted acts)
    (hActs : greeted = false → ∀ req result, acts ≠ called (.hello req) (Except.ok result)) :
    ¬ Welcoming log := by
  rintro ⟨seq, req, result, hWelcome⟩
  obtain ⟨-, hGreeted, hSame⟩ := hHand.unique hWelcome
  exact hActs hGreeted req result hSame

theorem not_welcoming_of_none (hNone : pending log = none) : ¬ Welcoming log := by
  rintro ⟨seq, req, result, x, hx, -⟩
  rw [hNone] at hx
  cases hx

theorem Served.acts_ne_called {message : Except String (Request Config)} {greeted : Bool}
    {acts : Log Config Description} {response : Response Config Description}
    (h : Served message greeted acts response) (req : Hello) (result : HelloResult) :
    acts ≠ Server.called (.hello req) (Except.ok result) := by
  intro hActs
  cases h with
  | called seq arm hArm r =>
    cases arm with
    | shutdown => cases hArm
    | hello => rcases r with e | result' <;> cases hActs
    | acquireStart => rcases r with e | ⟨⟩ <;> cases hActs
    | reset => rcases r with e | ⟨⟩ <;> cases hActs
    | _ => cases hActs
  | _ => cases hActs

theorem helloSucceeded_of_greetedIn (h : Orderly log) (hGreeted : greetedIn log = true) :
    HelloSucceeded log := by
  induction log with
  | nil => cases hGreeted
  | cons entry log ih =>
    cases entry with
    | greeted =>
      obtain ⟨seq, req, result, hHand⟩ := h.1
      exact ⟨req, result, List.mem_cons_of_mem _ (hHand.mem_log List.mem_cons_self)⟩
    | _ => exact (ih h.2 hGreeted).cons _

/-- Once `hello` has succeeded `greeted` is set, or just about to be. -/
theorem greetedIn_of_helloSucceeded (h : Orderly log) (hHello : HelloSucceeded log) :
    greetedIn log = true ∨ Welcoming log := by
  induction log with
  | nil =>
    obtain ⟨req, result, hMem⟩ := hHello
    cases hMem
  | cons entry log ih =>
    obtain ⟨hAllowed, hOrderly⟩ := h
    obtain ⟨req, result, hMem⟩ := hHello
    rcases List.mem_cons.mp hMem with rfl | hMem
    · rcases hAllowed with ⟨seq, arm, hArm, -, hHand⟩ | ⟨hArm, -⟩
      · obtain rfl := armHandler_eq_hello hArm.symm
        exact .inr ⟨seq, req, result, hHand.act rfl rfl⟩
      · cases hArm
    have hBefore := ih hOrderly ⟨req, result, hMem⟩
    cases entry with
    | received message greeted running =>
      exact .inl (hBefore.resolve_right (not_welcoming_of_none hAllowed.1))
    | loaded running =>
      obtain ⟨-, seq, arm, -, hHand⟩ := hAllowed
      exact .inl (hBefore.resolve_right (not_welcoming hHand fun h => by cases h))
    | stored running =>
      cases running with
      | true =>
        obtain ⟨seq, req, hHand⟩ := hAllowed
        exact .inl (hBefore.resolve_right (not_welcoming hHand fun h => by cases h))
      | false =>
        obtain ⟨seq, arm, r, -, hHand⟩ := hAllowed
        exact .inl (hBefore.resolve_right (not_welcoming hHand fun h => by cases h))
    | greeted => exact .inl rfl
    | entered handler =>
      rcases hAllowed with ⟨seq, arm, -, -, hHand⟩ | ⟨-, hNone, -⟩
      · refine .inl (hBefore.resolve_right (not_welcoming hHand fun _ _ _ hActs => ?_))
        cases arm <;> cases hActs
      · exact .inl (hBefore.resolve_right (not_welcoming_of_none hNone))
    | returned handler r =>
      rcases hAllowed with ⟨seq, arm, -, -, hHand⟩ | ⟨-, hNone, -⟩
      · refine .inl (hBefore.resolve_right (not_welcoming hHand fun _ _ _ hActs => ?_))
        cases hActs
      · exact .inl (hBefore.resolve_right (not_welcoming_of_none hNone))
    | replied response greeted running =>
      obtain ⟨-, -, x, hx, hServed⟩ := hAllowed
      refine .inl (hBefore.resolve_right (not_welcoming ⟨x, hx, rfl, rfl, rfl⟩ fun _ => ?_))
      exact hServed.acts_ne_called
    | begun push event =>
      refine hBefore.imp_right ?_
      rintro ⟨seq, req, result, hHand⟩
      exact ⟨seq, req, result, hHand.push rfl rfl⟩
    | enqueued push event =>
      refine hBefore.imp_right ?_
      rintro ⟨seq, req, result, hHand⟩
      exact ⟨seq, req, result, hHand.push rfl rfl⟩

theorem Served.eq_shutdown {message : Except String (Request Config)} {greeted : Bool}
    {acts : Log Config Description} {seq : UInt32}
    (h : Served message greeted acts ⟨seq, none, some .shutdown⟩) :
    message = .ok ⟨seq, some .shutdown⟩ ∧ greeted = true ∧ acts = [] := by
  generalize hResponse : (⟨seq, none, some .shutdown⟩ : Response Config Description) = response at h
  cases h with
  | shutdown seq' =>
    cases hResponse
    exact ⟨rfl, rfl, rfl⟩
  | called seq' arm hArm r =>
    cases arm <;> first
      | (cases hArm; done)
      | (cases r <;> cases hResponse)
  | _ => cases hResponse

theorem greetedIn_of_quit (h : Orderly log) (hQuit : Quit log) : greetedIn log = true := by
  induction log with
  | nil =>
    obtain ⟨seq, greeted, running, hMem⟩ := hQuit
    cases hMem
  | cons entry log ih =>
    obtain ⟨seq, greeted, running, hMem⟩ := hQuit
    rcases List.mem_cons.mp hMem with rfl | hMem
    · obtain ⟨⟨-, -, x, hx, hServed⟩, hOrderly⟩ := h
      obtain ⟨-, hGreeted, hActs⟩ := hServed.eq_shutdown
      exact greetedIn_of_inHand hOrderly ⟨x, hx, rfl, hGreeted, hActs⟩ List.not_mem_nil
    · have hBefore := ih h.2 ⟨seq, greeted, running, hMem⟩
      cases entry with
      | greeted => rfl
      | _ => exact hBefore

/-- A capture that was found not running was not running when the request came, or
was ended since. -/
theorem not_running_of_loaded (h : Orderly log) {x : Exchange Config Description}
    (hx : pending log = some x) (hLoaded : .loaded false ∈ x.entries) :
    (x.running && !x.entries.any Entry.clears) = false := by
  induction log generalizing x with
  | nil => cases hx
  | cons entry log ih =>
    obtain ⟨hAllowed, hOrderly⟩ := h
    cases hMessage : entry.isMessage with
    | false =>
      rw [pending_cons log hMessage] at hx
      obtain ⟨y, hy, rfl⟩ := Option.map_eq_some_iff.mp hx
      rcases List.mem_cons.mp hLoaded with rfl | hLoaded
      · obtain ⟨hFlag, seq, arm, -, hHand⟩ := hAllowed
        obtain ⟨z, hz, -, -, hActs⟩ := hHand
        obtain rfl := Option.some.inj (hy.symm.trans hz)
        rw [(cells_of_pending hOrderly hy).2, lastWrite_running_of_pushes] at hFlag
        · exact hFlag.symm
        · intro running hMem
          have hStored := stored_mem_acts.mpr hMem
          rw [hActs] at hStored
          cases hStored
      · have hBefore := ih hOrderly hy hLoaded
        change (y.running && !(entry :: y.entries).any Entry.clears) = false
        rw [List.any_cons]
        cases hRunning : y.running with
        | false => rfl
        | true =>
          rw [hRunning, Bool.true_and, Bool.not_eq_false'] at hBefore
          rw [hBefore, Bool.or_true]
          rfl
    | true =>
      cases entry with
      | received =>
        cases hx
        cases hLoaded
      | replied => cases hx
      | _ => cases hMessage

/-- What dispatch did before it answered with an error: no store, or a store undone. -/
theorem Served.acts_of_error {message : Except String (Request Config)} {greeted : Bool}
    {acts : Log Config Description} {response : Response Config Description} {e : Proto.Error}
    (h : Served message greeted acts response) (hError : response.error = some e) :
    .greeted ∉ acts ∧ ((∀ running, .stored running ∉ acts) ∨
      ∃ rest, acts = .stored false :: rest ∧ .loaded false ∈ rest) := by
  cases h with
  | called seq arm hArm r =>
    cases arm with
    | shutdown => cases hArm
    | hello req =>
      rcases r with e' | result
      · simp [postlude, Server.called, preamble, looksAtRunning]
      · cases hError
    | acquireStart req =>
      rcases r with e' | ⟨⟩
      · simp [postlude, Server.called, preamble]
      · cases hError
    | reset =>
      rcases r with e' | ⟨⟩
      · simp [postlude, Server.called, preamble, looksAtRunning]
      · cases hError
    | _ => simp [postlude, Server.called, preamble, looksAtRunning]
  | _ => simp

/-- An error is dispatch's own, and then no handler was called, or the handler's. -/
theorem Served.source_of_error {message : Except String (Request Config)} {greeted : Bool}
    {acts : Log Config Description} {response : Response Config Description} {e : Proto.Error}
    (h : Served message greeted acts response) (hError : response.error = some e) :
    (∀ handler, .entered handler ∉ acts) ∨ ∃ seq arm r, message = .ok ⟨seq, some arm⟩ ∧
      .returned (armHandler arm) r ∈ acts ∧ (armReply arm r : Reply (Response.Arm Config Description)) =
        .error e := by
  cases h with
  | called seq arm hArm r =>
    refine .inr ⟨seq, arm, r, rfl, by simp [Server.called], ?_⟩
    cases hReply : armReply arm r with
    | ok result =>
      rw [hReply] at hError
      cases hError
    | error e' =>
      rw [hReply] at hError
      cases hError
      rfl
  | _ => exact .inl fun handler => by simp

theorem cells_of_error (h : Orderly log) {x : Exchange Config Description}
    (hx : pending log = some x) {response : Response Config Description} {e : Proto.Error}
    (hServed : Served x.message x.greeted x.acts response) (hError : response.error = some e) :
    greetedIn log = x.greeted ∧ runningIn log = (x.running && !x.entries.any Entry.clears) := by
  obtain ⟨hGreeted, hStored⟩ := hServed.acts_of_error hError
  refine ⟨greetedIn_of_inHand h ⟨x, hx, rfl, rfl, rfl⟩ hGreeted, ?_⟩
  rw [(cells_of_pending h hx).2]
  rcases hStored with hNone | ⟨rest, hActs, hLoaded⟩
  · apply lastWrite_running_of_pushes
    intro running hMem
    exact hNone running (stored_mem_acts.mpr hMem)
  · rw [lastWrite_running_of_cleared x.running hActs]
    refine (not_running_of_loaded h hx ?_).symm
    have hMem : .loaded false ∈ x.acts := hActs ▸ List.mem_cons_of_mem _ hLoaded
    exact (List.mem_filter.mp hMem).1

theorem helloSucceeded_iff_of_entered (h : Orderly log) {handler : Handler Config}
    (hAllowed : Allowed (.entered handler : Entry Config Description) log) :
    HelloSucceeded log ↔ handler.isHello = false := by
  rcases hAllowed with ⟨seq, arm, rfl, -, hHand⟩ | ⟨rfl, -, hQuit, -⟩
  · have hNot : ¬ Welcoming log := not_welcoming hHand fun _ _ _ hActs => by
      cases arm <;> cases hActs
    have hGreeted : greetedIn log = !arm.isHello := by
      refine greetedIn_of_inHand h hHand ?_
      cases arm <;> simp [preamble, looksAtRunning]
    rw [isHello_armHandler]
    constructor
    · intro hHello
      have hTrue := (greetedIn_of_helloSucceeded h hHello).resolve_right hNot
      rw [hGreeted] at hTrue
      simpa using hTrue
    · intro hArm
      rw [hArm] at hGreeted
      exact helloSucceeded_of_greetedIn h hGreeted
  · exact iff_of_true (helloSucceeded_of_greetedIn h (greetedIn_of_quit h hQuit)) rfl

/-- What the control loop must have found `running` to be before it calls a handler. -/
def Handler.wantsRunning : Handler Config → Option Bool
  | .describe => some false
  | .getConfig => some false
  | .setConfig _ => some false
  | .acquireStart _ => some false
  | .acquireStop _ => some true
  | _ => none

theorem loaded_of_entered {handler : Handler Config} {running : Bool}
    (hAllowed : Allowed (.entered handler : Entry Config Description) log)
    (hWants : handler.wantsRunning = some running) :
    ∃ x seq arm, pending log = some x ∧ x.message = .ok ⟨seq, some arm⟩ ∧
      handler = armHandler arm ∧ .loaded running ∈ x.entries := by
  rcases hAllowed with ⟨seq, arm, rfl, -, x, hx, hMessage, -, hActs⟩ | ⟨rfl, -⟩
  · refine ⟨x, seq, arm, hx, hMessage, rfl, ?_⟩
    have hMem : .loaded running ∈ x.acts := by
      rw [hActs]
      cases arm <;> cases hWants <;> simp [preamble, looksAtRunning]
    exact (List.mem_filter.mp hMem).1
  · cases hWants

/-- A capture that has ended by itself is stopped without the plugin. -/
theorem Served.idle_of_loaded {seq : UInt32} {req : AcquireStop} {greeted : Bool}
    {acts : Log Config Description} {response : Response Config Description}
    (h : Served (.ok ⟨seq, some (.acquireStop req)⟩) greeted acts response)
    (hLoaded : .loaded false ∈ acts) :
    response = ⟨seq, none, some .acquireStop⟩ ∧ ∀ handler, .entered handler ∉ acts := by
  cases h with
  | idle => exact ⟨rfl, fun handler => by simp⟩
  | called seq arm hArm r => simp [postlude, Server.called, preamble] at hLoaded
  | _ => simp at hLoaded

end

/-- Handlers are called in their turn only, and a request answered with an error
changes nothing. -/
theorem handler_discipline (plugin : CaptureServer Config Description σ)
    (decode : List UInt8 → Except String (Request Config)) (actions : List (Action σ))
    (s : Process Config Description σ) (h : s.Reaches plugin decode actions) :
    (∀ newer older handler, s.log = newer ++ .entered handler :: older →
      (HelloSucceeded older ↔ handler.isHello = false) ∧
      ∀ running, handler.wantsRunning = some running →
        ∃ x seq arm, pending older = some x ∧ x.message = .ok ⟨seq, some arm⟩ ∧
          handler = armHandler arm ∧ .loaded running ∈ x.entries) ∧
    (∀ newer older running, s.log = newer ++ .loaded running :: older →
      running = runningIn older) ∧
    (∀ newer older response greeted running,
      s.log = newer ++ .replied response greeted running :: older →
      ∃ x, pending older = some x ∧
        (∀ seq req, x.message = .ok ⟨seq, some (.acquireStop req)⟩ → .loaded false ∈ x.entries →
          response = ⟨seq, none, some .acquireStop⟩ ∧ ∀ handler, .entered handler ∉ x.entries) ∧
        ∀ e, response.error = some e →
          greeted = x.greeted ∧ running = (x.running && !x.entries.any Entry.clears) ∧
          ((∀ handler, .entered handler ∉ x.entries) ∨
            ∃ seq arm r, x.message = .ok ⟨seq, some arm⟩ ∧
              .returned (armHandler arm) r ∈ x.entries ∧
              (armReply arm r : Reply (Response.Arm Config Description)) = .error e)) := by
  have hOrderly := (agrees_of_reaches h).orderly
  refine ⟨?_, ?_, ?_⟩
  · intro newer older handler hLog
    rw [hLog] at hOrderly
    refine ⟨helloSucceeded_iff_of_entered hOrderly.suffix.2 hOrderly.allowed, ?_⟩
    intro running hWants
    exact loaded_of_entered hOrderly.allowed hWants
  · intro newer older running hLog
    rw [hLog] at hOrderly
    exact hOrderly.allowed.1
  · intro newer older response greeted running hLog
    rw [hLog] at hOrderly
    obtain ⟨rfl, rfl, x, hx, hServed⟩ := hOrderly.allowed
    have hEntered : (∀ handler, .entered handler ∉ x.acts) →
        ∀ handler, .entered handler ∉ x.entries := by
      intro hNone handler hMem
      exact hNone handler (List.mem_filter.mpr ⟨hMem, rfl⟩)
    refine ⟨x, hx, ?_, ?_⟩
    · intro seq req hMessage hLoaded
      rw [hMessage] at hServed
      obtain ⟨hResponse, hNone⟩ := hServed.idle_of_loaded (List.mem_filter.mpr ⟨hLoaded, rfl⟩)
      exact ⟨hResponse, hEntered hNone⟩
    · intro e hError
      obtain ⟨hGreeted, hRunning⟩ := cells_of_error hOrderly.suffix.2 hx hServed hError
      refine ⟨hGreeted, hRunning, (hServed.source_of_error hError).imp hEntered ?_⟩
      rintro ⟨seq, arm, r, hMessage, hMem, hReply⟩
      exact ⟨seq, arm, r, hMessage, (List.mem_filter.mp hMem).1, hReply⟩

/-! A session on the wire, with a plugin that keeps to the defaults. -/

namespace Sample

def plugin : CaptureServer Unit Unit Unit where
  hello _ s := (.ok ⟨1, none, none, none, [], []⟩, s)
  describe s := (.ok (), s)
  getConfig s := (.ok (), s)
  setConfig _ s := (.ok (), s)
  acquireStart _ s := (.ok (), s)
  acquireStop _ s := (.ok (), s)

def hello : List UInt8 := [0x08, 1, 0x52, 2, 0x08, 1]
def firstStart : List UInt8 := [0x08, 2, 0x72, 4, 0x08, 1, 0x10, 1]
def reset : List UInt8 := [0x08, 3, 0x82, 1, 0]
def secondStart : List UInt8 := [0x08, 4, 0x72, 4, 0x08, 2, 0x10, 1]
def describe : List UInt8 := [0x08, 5, 0x5a, 0]
def shutdown : List UInt8 := [0x08, 6, 0x8a, 1, 0]

/-- What these messages decode to. -/
def requests : List (List UInt8 × Request Unit) :=
  [(hello, ⟨1, some (.hello ⟨1, "", "", [], []⟩)⟩),
    (firstStart, ⟨2, some (.acquireStart ⟨1, AcquireMode.single.toI32⟩)⟩),
    (reset, ⟨3, some .reset⟩),
    (secondStart, ⟨4, some (.acquireStart ⟨2, AcquireMode.single.toI32⟩)⟩),
    (describe, ⟨5, some .describe⟩),
    (shutdown, ⟨6, some .shutdown⟩)]

def decode (bytes : List UInt8) : Except String (Request Unit) :=
  match requests.lookup bytes with
  | some request => .ok request
  | none => .error "failed to decode Protobuf message"

/-- The loop receives a message, takes so many steps of its own and replies. -/
def serve (message : List UInt8) (acts : Nat) : List (Action Unit) :=
  .receive (.ok message) :: List.replicate acts .act ++ [.reply none]

def start : Process Unit Unit Unit := Process.init ⟨0, []⟩ ()

theorem log_of_run (actions : List (Action Unit)) (log : Log Unit Unit)
    (h : (Runs.run (Process.step plugin decode) start actions).map Process.log = some log) :
    ∃ s : Process Unit Unit Unit, s.Reaches plugin decode actions ∧ s.log = log := by
  obtain ⟨s, hRun, hLog⟩ := Option.map_eq_some_iff.mp h
  exact ⟨s, ⟨_, _, hRun⟩, hLog⟩

end Sample

theorem handler_discipline_busy_describe :
    ∃ s : Process Unit Unit Unit, s.Reaches Sample.plugin Sample.decode
        (Sample.serve Sample.hello 4 ++ Sample.serve Sample.firstStart 5 ++
          Sample.serve Sample.describe 2) ∧
      ∀ newer older handler, s.log = newer ++ .entered handler :: older →
        (HelloSucceeded older ↔ handler.isHello = false) := by
  have hRuns : (Runs.run (Process.step Sample.plugin Sample.decode) Sample.start
      (Sample.serve Sample.hello 4 ++ Sample.serve Sample.firstStart 5 ++
        Sample.serve Sample.describe 2)).isSome := by
    decide
  obtain ⟨s, hRun⟩ := Option.isSome_iff_exists.mp hRuns
  refine ⟨s, ⟨_, _, hRun⟩, fun newer older handler hLog => ?_⟩
  exact ((handler_discipline Sample.plugin Sample.decode _ s ⟨_, _, hRun⟩).1 newer older handler
    hLog).1

end OpenMso.Server
