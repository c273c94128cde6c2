import OpenMso.Server.Discipline

/-! # What `running` says about captures

The flag is one boolean for all captures, set by the control loop and cleared
by any push that ends one. It is false again once the latest capture is over.
It stays true while a capture runs only as long as no thread pushes the end of
an older one.
-/

namespace OpenMso.Server

open Foundation Foundation.Register Foundation.Runs Proto

set_option autoImplicit false

variable {Config Description σ : Type}

namespace Entry

def enteredCapture : Entry Config Description → Option UInt64
  | .entered (.acquireStart req) => some req.captureId
  | _ => none

def requestedCapture : Entry Config Description → Option UInt64
  | .received (.ok ⟨_, some (.acquireStart req)⟩) _ _ => some req.captureId
  | _ => none

def endedCapture : Entry Config Description → Option UInt64
  | .begun _ (.captureEnd ended) => some ended.captureId
  | _ => none

/-- A call after which dispatch clears the flag. -/
def settles : Entry Config Description → Bool
  | .returned (.acquireStart _) (.error _) => true
  | .returned .reset (.ok _) => true
  | _ => false

end Entry

/-- No two captures are started under one id. -/
def UniqueCaptures (log : Log Config Description) : Prop :=
  (log.filterMap Entry.enteredCapture).Nodup

/-- The end of a capture is pushed only once its `acquire_start` has been entered. -/
def EndsAfterStart : Log Config Description → Prop
  | [] => True
  | entry :: log => (∀ capture ∈ entry.endedCapture, capture ∈ log.filterMap Entry.enteredCapture) ∧
    EndsAfterStart log

instance EndsAfterStart.decidable : (log : Log Config Description) → Decidable (EndsAfterStart log)
  | [] => .isTrue trivial
  | entry :: log =>
    -- Not the search through every capture id there is.
    have : Decidable (∀ capture ∈ entry.endedCapture, capture ∈ log.filterMap Entry.enteredCapture) :=
      Option.decidableForallMem entry.endedCapture
    have : Decidable (EndsAfterStart log) := decidable log
    instDecidableAnd

/-- Dispatch has not begun to handle a request. -/
def Idle (log : Log Config Description) : Prop :=
  ∀ x, pending log = some x → x.acts = []

/-- Since the latest `acquire_start` was entered, its capture has ended, the device was
lost, the call failed or a `Reset` succeeded. -/
def Settled (log : Log Config Description) : Prop :=
  ∃ newer req older, log = newer ++ .entered (.acquireStart req) :: older ∧
    (∀ entry ∈ newer, entry.enteredCapture = none) ∧
    ((∃ push ended, ended.captureId = req.captureId ∧ .enqueued push (.captureEnd ended) ∈ newer) ∨
      (∃ push reason, .begun push (.deviceLost reason) ∈ newer ∧
        .enqueued push (.deviceLost reason) ∈ newer) ∨
      ∃ entry ∈ newer, entry.settles = true)

variable [Inhabited Config]

theorem Served.head_of_acts {message : Except String (Request Config)} {greeted : Bool}
    {acts rest : Log Config Description} {entry : Entry Config Description}
    {response : Response Config Description} (h : Served message greeted acts response)
    (hActs : acts = entry :: rest) : entry ≠ .stored true ∧ entry.settles = false := by
  cases h with
  | called seq arm hArm r =>
    cases arm with
    | shutdown => cases hArm
    | hello => rcases r with e | result <;> cases hActs <;> exact ⟨by rintro ⟨⟩, rfl⟩
    | acquireStart => rcases r with e | ⟨⟩ <;> cases hActs <;> exact ⟨by rintro ⟨⟩, rfl⟩
    | reset => rcases r with e | ⟨⟩ <;> cases hActs <;> exact ⟨by rintro ⟨⟩, rfl⟩
    | _ =>
      cases hActs
      exact ⟨by rintro ⟨⟩, rfl⟩
  | busy =>
    cases hActs
    exact ⟨by rintro ⟨⟩, rfl⟩
  | idle =>
    cases hActs
    exact ⟨by rintro ⟨⟩, rfl⟩
  | _ => cases hActs

section
variable {log : Log Config Description}

/-- Dispatch has accepted an `AcquireStart` and not called its handler yet. -/
def Claiming (log : Log Config Description) : Prop :=
  ∃ message greeted rest, InHand log message greeted (.stored true :: rest)

/-- A call has returned after which dispatch is about to clear the flag. -/
def Releasing (log : Log Config Description) : Prop :=
  ∃ message greeted entry rest, entry.settles = true ∧ InHand log message greeted (entry :: rest)

theorem Claiming.next {entry : Entry Config Description} (h : Claiming log)
    (hAllowed : Allowed entry log) : entry.isPush = true ∨ entry.enteredCapture ≠ none := by
  obtain ⟨message, greeted, rest, hClaim⟩ := h
  have hNone : pending log ≠ none := by
    obtain ⟨x, hx, -⟩ := hClaim
    rw [hx]
    rintro ⟨⟩
  cases entry with
  | received => exact absurd hAllowed.1 hNone
  | loaded =>
    obtain ⟨-, seq, arm, -, hHand⟩ := hAllowed
    cases (hHand.unique hClaim).2.2
  | stored running =>
    cases running with
    | true =>
      obtain ⟨seq, req, hHand⟩ := hAllowed
      cases (hHand.unique hClaim).2.2
    | false =>
      obtain ⟨seq, arm, r, -, hHand⟩ := hAllowed
      cases (hHand.unique hClaim).2.2
  | greeted =>
    obtain ⟨seq, req, result, hHand⟩ := hAllowed
    cases (hHand.unique hClaim).2.2
  | entered =>
    rcases hAllowed with ⟨seq, arm, rfl, -, hHand⟩ | ⟨-, hDone, -⟩
    · have hActs := (hHand.unique hClaim).2.2
      cases arm <;> cases hActs
      exact .inr (by rintro ⟨⟩)
    · exact absurd hDone hNone
  | returned =>
    rcases hAllowed with ⟨seq, arm, -, -, hHand⟩ | ⟨-, hDone, -⟩
    · cases (hHand.unique hClaim).2.2
    · exact absurd hDone hNone
  | replied =>
    obtain ⟨-, -, x, hx, hServed⟩ := hAllowed
    obtain ⟨y, hy, -, -, hActs⟩ := hClaim
    obtain rfl := Option.some.inj (hx.symm.trans hy)
    exact absurd rfl (hServed.head_of_acts hActs).1
  | begun => exact .inl rfl
  | enqueued => exact .inl rfl

theorem Releasing.next {entry : Entry Config Description} (h : Releasing log)
    (hAllowed : Allowed entry log) : entry.isPush = true ∨ entry = .stored false := by
  obtain ⟨message, greeted, last, rest, hSettles, hRelease⟩ := h
  have hNone : pending log ≠ none := by
    obtain ⟨x, hx, -⟩ := hRelease
    rw [hx]
    rintro ⟨⟩
  cases entry with
  | received => exact absurd hAllowed.1 hNone
  | loaded =>
    obtain ⟨-, seq, arm, -, hHand⟩ := hAllowed
    cases (hHand.unique hRelease).2.2
  | stored running =>
    cases running with
    | true =>
      obtain ⟨seq, req, hHand⟩ := hAllowed
      cases (hHand.unique hRelease).2.2
      cases hSettles
    | false => exact .inr rfl
  | greeted =>
    obtain ⟨seq, req, result, hHand⟩ := hAllowed
    cases (hHand.unique hRelease).2.2
    cases hSettles
  | entered =>
    rcases hAllowed with ⟨seq, arm, rfl, -, hHand⟩ | ⟨-, hDone, -⟩
    · have hActs := (hHand.unique hRelease).2.2
      cases arm <;> cases hActs <;> cases hSettles
    · exact absurd hDone hNone
  | returned =>
    rcases hAllowed with ⟨seq, arm, -, -, hHand⟩ | ⟨-, hDone, -⟩
    · cases (hHand.unique hRelease).2.2
      cases hSettles
    · exact absurd hDone hNone
  | replied =>
    obtain ⟨-, -, x, hx, hServed⟩ := hAllowed
    obtain ⟨y, hy, -, -, hActs⟩ := hRelease
    obtain rfl := Option.some.inj (hx.symm.trans hy)
    rw [(hServed.head_of_acts hActs).2] at hSettles
    cases hSettles
  | begun => exact .inl rfl
  | enqueued => exact .inl rfl

omit [Inhabited Config] in
theorem isMessage_of_isPush {entry : Entry Config Description} (h : entry.isPush = true) :
    entry.isMessage = false := by
  cases entry <;> first | rfl | cases h

omit [Inhabited Config] in
theorem Claiming.push {entry : Entry Config Description} (h : Claiming log)
    (hPush : entry.isPush = true) : Claiming (entry :: log) := by
  obtain ⟨message, greeted, rest, hHand⟩ := h
  exact ⟨message, greeted, rest, hHand.push (isMessage_of_isPush hPush) hPush⟩

omit [Inhabited Config] in
theorem Releasing.push {entry : Entry Config Description} (h : Releasing log)
    (hPush : entry.isPush = true) : Releasing (entry :: log) := by
  obtain ⟨message, greeted, last, rest, hSettles, hHand⟩ := h
  exact ⟨message, greeted, last, rest, hSettles, hHand.push (isMessage_of_isPush hPush) hPush⟩

theorem claiming_of_stored {newer older : Log Config Description} (h : Orderly (newer ++ older))
    (hEntered : ∀ entry ∈ newer, entry.enteredCapture = none) (hMem : .stored true ∈ newer) :
    Claiming (newer ++ older) := by
  induction newer with
  | nil => cases hMem
  | cons entry newer ih =>
    rcases List.mem_cons.mp hMem with rfl | hMem
    · obtain ⟨seq, req, hHand⟩ := h.1
      exact ⟨_, _, _, hHand.act rfl rfl⟩
    · have hBefore := ih h.2 (fun e he => hEntered e (List.mem_cons_of_mem _ he)) hMem
      rcases hBefore.next h.1 with hPush | hStart
      · exact hBefore.push hPush
      · exact absurd (hEntered entry List.mem_cons_self) hStart

theorem releasing_of_settles {entry : Entry Config Description} (hAllowed : Allowed entry log)
    (hSettles : entry.settles = true) : Releasing (entry :: log) := by
  cases entry with
  | returned handler r =>
    rcases hAllowed with ⟨seq, arm, rfl, -, hHand⟩ | ⟨rfl, -⟩
    · exact ⟨_, _, _, _, hSettles, hHand.act rfl rfl⟩
    · cases hSettles
  | _ => cases hSettles

theorem releasing_or_stored {newer older : Log Config Description} (h : Orderly (newer ++ older))
    {entry : Entry Config Description} (hSettles : entry.settles = true) (hMem : entry ∈ newer) :
    Releasing (newer ++ older) ∨ .stored false ∈ newer := by
  induction newer with
  | nil => cases hMem
  | cons first newer ih =>
    rcases List.mem_cons.mp hMem with rfl | hMem
    · exact .inl (releasing_of_settles h.1 hSettles)
    · rcases ih h.2 hMem with hRelease | hStored
      · rcases hRelease.next h.1 with hPush | rfl
        · exact .inl (hRelease.push hPush)
        · exact .inr List.mem_cons_self
      · exact .inr (List.mem_cons_of_mem _ hStored)

theorem begun_of_enqueued (h : Orderly log) {push : Nat} {event : Event}
    (hMem : .enqueued push event ∈ log) : .begun push event ∈ log := by
  induction log with
  | nil => cases hMem
  | cons entry log ih =>
    rcases List.mem_cons.mp hMem with rfl | hMem
    · exact List.mem_cons_of_mem _ h.1
    · exact List.mem_cons_of_mem _ (ih h.2 hMem)

omit [Inhabited Config] in
theorem EndsAfterStart.suffix {newer older : Log Config Description}
    (h : EndsAfterStart (newer ++ older)) : EndsAfterStart older := by
  induction newer with
  | nil => exact h
  | cons entry newer ih => exact ih h.2

omit [Inhabited Config] in
theorem EndsAfterStart.entered (h : EndsAfterStart log) {entry : Entry Config Description}
    {capture : UInt64} (hMem : entry ∈ log) (hEnds : entry.endedCapture = some capture) :
    capture ∈ log.filterMap Entry.enteredCapture := by
  obtain ⟨newer, older, rfl⟩ := List.append_of_mem hMem
  have hOlder := h.suffix.1 capture hEnds
  rw [List.filterMap_append]
  exact List.mem_append_right _ (List.mem_filterMap.mpr (by
    obtain ⟨e, he, hCapture⟩ := List.mem_filterMap.mp hOlder
    exact ⟨e, List.mem_cons_of_mem _ he, hCapture⟩))

/-- The end of the latest capture was pushed since it was started. -/
theorem begun_since_start {newer older : Log Config Description} {req : AcquireStart}
    (hOrderly : Orderly (newer ++ .entered (.acquireStart req) :: older))
    (hUnique : UniqueCaptures (newer ++ .entered (.acquireStart req) :: older))
    (hEnds : EndsAfterStart (newer ++ .entered (.acquireStart req) :: older)) {push : Nat}
    {ended : CaptureEnd} (hSame : ended.captureId = req.captureId)
    (hMem : .enqueued push (.captureEnd ended) ∈ newer) : .begun push (.captureEnd ended) ∈ newer := by
  rcases List.mem_append.mp (begun_of_enqueued hOrderly (List.mem_append_left _ hMem)) with
    hNewer | hOlder
  · exact hNewer
  · rcases List.mem_cons.mp hOlder with hStart | hOlder
    · cases hStart
    · have hEntered := hEnds.suffix.2.entered hOlder rfl
      rw [UniqueCaptures, List.filterMap_append] at hUnique
      change (_ ++ req.captureId :: older.filterMap Entry.enteredCapture).Nodup at hUnique
      have hFresh := (List.nodup_cons.mp (List.nodup_append.mp hUnique).2.1).1
      rw [← hSame] at hFresh
      exact absurd hEntered hFresh

theorem runningIn_of_settled (hOrderly : Orderly log) (hUnique : UniqueCaptures log)
    (hEnds : EndsAfterStart log) (hIdle : Idle log) (hSettled : Settled log) :
    runningIn log = false := by
  obtain ⟨newer, req, older, rfl, hEntered, hOver⟩ := hSettled
  have hNoClaim : .stored true ∉ newer := by
    intro hMem
    obtain ⟨message, greeted, rest, x, hx, -, -, hActs⟩ :=
      claiming_of_stored hOrderly hEntered hMem
    rw [hIdle x hx] at hActs
    cases hActs
  have hNoRelease : ¬ Releasing (newer ++ .entered (.acquireStart req) :: older) := by
    rintro ⟨message, greeted, entry, rest, -, x, hx, -, -, hActs⟩
    rw [hIdle x hx] at hActs
    cases hActs
  rw [runningIn, lastWrite_append]
  apply lastWrite_eq_of_forall
  · intro entry hMem v hWrite
    cases entry with
    | stored running =>
      cases hWrite
      cases v with
      | false => rfl
      | true => exact absurd hMem hNoClaim
    | begun push event =>
      rw [Entry.writesRunning] at hWrite
      split at hWrite <;> cases hWrite
      rfl
    | _ => cases hWrite
  · right
    rcases hOver with ⟨push, ended, hSame, hMem⟩ | ⟨push, reason, hMem, -⟩ | ⟨entry, hMem, hSettles⟩
    · exact ⟨_, begun_since_start hOrderly hUnique hEnds hSame hMem, by rintro ⟨⟩⟩
    · exact ⟨_, hMem, by rintro ⟨⟩⟩
    · have hStored := (releasing_or_stored hOrderly hSettles hMem).resolve_left hNoRelease
      exact ⟨_, hStored, by rintro ⟨⟩⟩

theorem loaded_false_after {between older : Log Config Description}
    (hOrderly : Orderly (between ++ older)) (hDown : runningIn older = false)
    (hAccepted : .stored true ∉ between) : .loaded true ∉ between := by
  intro hMem
  obtain ⟨newer, mid, rfl⟩ := List.append_of_mem hMem
  rw [List.append_assoc, List.cons_append] at hOrderly
  have hLoaded : true = runningIn (mid ++ older) := hOrderly.allowed.1
  have hFalse : runningIn (mid ++ older) = false := by
    rw [runningIn, lastWrite_append]
    refine lastWrite_eq_of_forall ?_ (.inl hDown)
    intro entry hEntry v hWrite
    cases entry with
    | stored running =>
      cases hWrite
      cases v with
      | false => rfl
      | true =>
        refine absurd ?_ hAccepted
        exact List.mem_append_right _ (List.mem_cons_of_mem _ hEntry)
    | begun push event =>
      rw [Entry.writesRunning] at hWrite
      split at hWrite <;> cases hWrite
      rfl
    | _ => cases hWrite
  rw [hFalse] at hLoaded
  cases hLoaded

omit [Inhabited Config] in
theorem pending_append {newer older : Log Config Description} {x : Exchange Config Description}
    (hx : pending newer = some x) : pending (newer ++ older) = some x := by
  induction newer generalizing x with
  | nil => cases hx
  | cons entry newer ih =>
    cases hMessage : entry.isMessage with
    | false =>
      rw [pending_cons newer hMessage] at hx
      obtain ⟨y, hy, rfl⟩ := Option.map_eq_some_iff.mp hx
      rw [List.cons_append, pending_cons _ hMessage, ih hy]
      rfl
    | true =>
      cases entry with
      | received => exact hx
      | replied => cases hx
      | _ => cases hMessage

/-- Only dispatch's look at the flag makes it refuse a request as busy. -/
theorem Served.busy_source {message : Except String (Request Config)} {greeted : Bool}
    {acts : Log Config Description} {response : Response Config Description}
    (h : Served message greeted acts response) (hError : response.error = some Server.busy) :
    .loaded true ∈ acts ∨ ∃ seq arm r, message = .ok ⟨seq, some arm⟩ ∧
      .returned (armHandler arm) r ∈ acts ∧
      (armReply arm r : Reply (Response.Arm Config Description)) = .error Server.busy := by
  rcases h.source_of_error hError with hNone | hReturned
  · left
    cases h with
    | busy => exact List.mem_cons_self
    | called seq arm hArm r => exact absurd (by simp [Server.called]) (hNone (armHandler arm))
    | idle => cases hError
    | shutdown => cases hError
    | _ => simp [respond, Server.undecodable, Server.busy, Error.invalid, Error.busy, Error.new,
        ErrorCode.toI32] at hError
  · exact .inr hReturned

end

/-- Once the latest capture is over, in whatever way and order, `running` is false, and
dispatch refuses nothing as busy until it accepts another start. -/
theorem settled_not_running (plugin : CaptureServer Config Description σ)
    (decode : List UInt8 → Except String (Request Config)) (actions : List (Action σ))
    (s : Process Config Description σ) (h : s.Reaches plugin decode actions)
    (hUnique : UniqueCaptures s.log) (hEnds : EndsAfterStart s.log) :
    (Idle s.log → Settled s.log → s.events.isRunning = false) ∧
    ∀ newer between older response greeted running x,
      s.log = newer ++ .replied response greeted running :: (between ++ older) →
      Idle older → Settled older → .stored true ∉ between → pending between = some x →
      response.error = some busy →
      ∃ seq arm r, x.message = .ok ⟨seq, some arm⟩ ∧ .returned (armHandler arm) r ∈ x.entries ∧
        (armReply arm r : Reply (Response.Arm Config Description)) = .error busy := by
  have hAgrees := agrees_of_reaches h
  have hOrderly := hAgrees.orderly
  constructor
  · intro hIdle hSettled
    exact hAgrees.running.trans (runningIn_of_settled hOrderly hUnique hEnds hIdle hSettled)
  · intro newer between older response greeted running x hLog hIdle hSettled hAccepted hx hError
    rw [hLog] at hOrderly hEnds hUnique
    have hSuffix : newer ++ .replied response greeted running :: (between ++ older) =
        (newer ++ .replied response greeted running :: between) ++ older := by simp
    have hUniqueOlder : UniqueCaptures older := by
      rw [hSuffix, UniqueCaptures, List.filterMap_append] at hUnique
      exact (List.nodup_append.mp hUnique).2.1
    have hEndsOlder : EndsAfterStart older := by
      rw [hSuffix] at hEnds
      exact hEnds.suffix
    have hBetween := hOrderly.suffix.2
    have hDown := runningIn_of_settled hBetween.suffix hUniqueOlder hEndsOlder hIdle hSettled
    obtain ⟨-, -, y, hy, hServed⟩ := hOrderly.allowed
    obtain rfl := Option.some.inj ((pending_append hx).symm.trans hy)
    rcases hServed.busy_source hError with hLoaded | ⟨seq, arm, r, hMessage, hMem, hReply⟩
    · have hEntry := mem_of_mem_entries hx (List.mem_filter.mp hLoaded).1
      exact absurd hEntry (loaded_false_after hBetween hDown hAccepted)
    · exact ⟨seq, arm, r, hMessage, (List.mem_filter.mp hMem).1, hReply⟩

/-- The capture ends while its start is still being handled. -/
theorem settled_not_running_early_end :
    ∃ s : Process Unit Unit Unit, s.Reaches Sample.plugin Sample.decode
        (Sample.serve Sample.hello 4 ++ [.receive (.ok Sample.firstStart), .act, .act, .act, .act,
          .begin (.captureEnd ⟨1, none⟩), .finish 0 none, .act, .reply none]) ∧
      s.events.isRunning = false := by
  obtain ⟨s, hReaches, hLog⟩ := Sample.log_of_run _
    [.replied ⟨2, none, some .acquireStart⟩ true false,
      .returned (.acquireStart ⟨1, 1⟩) (Except.ok ()),
      .enqueued 0 (.captureEnd ⟨1, none⟩), .begun 0 (.captureEnd ⟨1, none⟩),
      .entered (.acquireStart ⟨1, 1⟩), .stored true, .loaded false,
      .received (.ok ⟨2, some (.acquireStart ⟨1, 1⟩)⟩) true false,
      .replied ⟨1, none, some (.hello ⟨1, none, none, none, [], []⟩)⟩ true false, .greeted,
      .returned (.hello ⟨1, "", "", [], []⟩) (Except.ok ⟨1, none, none, none, [], []⟩),
      .entered (.hello ⟨1, "", "", [], []⟩),
      .received (.ok ⟨1, some (.hello ⟨1, "", "", [], []⟩)⟩) false false]
    (rfl : (run (Process.step Sample.plugin Sample.decode) Sample.start
      (Sample.serve Sample.hello 4 ++ [.receive (.ok Sample.firstStart), .act, .act, .act, .act,
        .begin (.captureEnd ⟨1, none⟩), .finish 0 none, .act, .reply none])).map Process.log = _)
  refine ⟨s, hReaches, (settled_not_running Sample.plugin Sample.decode _ s hReaches ?_ ?_).1 ?_ ?_⟩
  · rw [hLog, UniqueCaptures]
    decide
  · rw [hLog]
    decide
  · rw [hLog]
    intro x hx
    cases hx
  · rw [hLog]
    refine ⟨[_, _, _, _], _, _, rfl, ?_, .inl ⟨0, ⟨1, none⟩, rfl, ?_⟩⟩
    · simp [Entry.enteredCapture]
    · simp

end OpenMso.Server
