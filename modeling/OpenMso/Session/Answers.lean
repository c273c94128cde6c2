import OpenMso.Session.Conversation

/-! # What a call should return

What the plugin's handler returned for this very request, or what dispatch
answered it with on its own.
-/

namespace OpenMso.Session

open Foundation Client Server Proto

set_option autoImplicit false

section
variable {Config Description : Type} [Inhabited Config]

/-- The value of a call, as the handler of its request returns it. -/
def value : (call : Call Config) → (armHandler (arm call)).Result Description →
    Reply (call.Result Description)
  | .hello _ _, r => r
  | .describe, r => r
  | .getConfig, r => r
  | .setConfig _, r => r
  | .acquireStart _ _, r => r
  | .acquireStop _, r => r
  | .reset, r => r
  | .shutdown, _ => .ok ()

/-- The value of a call that dispatch answers without the plugin. -/
def alone (Description : Type) : (call : Call Config) → Option (call.Result Description)
  | .acquireStop _ => some ()
  | .shutdown => some ()
  | _ => none

/-- The reply that ended this exchange stands in the log. -/
def InLog (log : Log Config Description) (origin : Origin Config Description) : Prop :=
  ∃ newer older greeted running,
    log = newer ++ .replied origin.response greeted running :: older ∧
      pending older = some origin.exchange

/-- The call returns what its handler returned in this exchange, or what dispatch
answered on its own. -/
def Answers {ε : Type} (remote : Proto.Error → ε) (call : Call Config)
    (origin : Origin Config Description) (result : Except ε (call.Result Description)) : Prop :=
  (∃ seq, origin.exchange.message = .ok ⟨seq, some (arm call)⟩) ∧
    ((∃ r, .returned (armHandler (arm call)) r ∈ origin.exchange.entries ∧
        result = (value call r).mapError remote) ∨
      (∀ handler, .entered handler ∉ origin.exchange.entries) ∧
        ((∃ e, origin.response.error = some e ∧ result = .error (remote e)) ∨
          ∃ r, alone Description call = some r ∧ origin.response.error = none ∧ result = .ok r))

/-- A call whose socket failed it returns just this failure, and one that received its reply
returns what it should. No call returns without either. -/
def Correct {κ ε : Type} (dialect : Dialect κ ε) (log : Log Config Description)
    (f : Finished Config Description ε) : Prop :=
  match f.heard with
  | none => False
  | some (.error failure) => f.result = .error (dialect.nng failure)
  | some (.ok origin) => InLog log origin ∧ Answers dialect.remote f.call origin f.result

omit [Inhabited Config] in
theorem InLog.mono {newer log : Log Config Description} {origin : Origin Config Description}
    (h : InLog log origin) : InLog (newer ++ log) origin := by
  obtain ⟨newest, older, greeted, running, rfl, hx⟩ := h
  exact ⟨newer ++ newest, older, greeted, running, (List.append_assoc _ _ _).symm, hx⟩

theorem Correct.mono {κ ε : Type} {dialect : Dialect κ ε} {newer log : Log Config Description}
    {f : Finished Config Description ε} (h : Correct dialect log f) :
    Correct dialect (newer ++ log) f := by
  obtain ⟨call, result, heard⟩ := f
  rcases heard with _ | failure | origin
  · exact h
  · exact h
  · exact ⟨h.1.mono, h.2⟩

theorem Correct.source_of_error {κ ε : Type} {dialect : Dialect κ ε} {log : Log Config Description}
    {f : Finished Config Description ε} (h : Correct dialect log f) {error : ε}
    (hError : f.result = .error error) :
    (∃ failure, error = dialect.nng failure) ∨ ∃ e, error = dialect.remote e := by
  obtain ⟨call, result, heard⟩ := f
  rcases heard with _ | failure | origin
  · exact h.elim
  · exact .inl ⟨failure, Except.error.inj (hError.symm.trans h)⟩
  · right
    obtain ⟨-, -, ⟨r, -, hResult⟩ | ⟨-, ⟨e, -, hResult⟩ | ⟨r, -, -, hResult⟩⟩⟩ := h
    · have hMapped := hResult.symm.trans hError
      cases hValue : value call r with
      | ok v =>
        rw [hValue] at hMapped
        cases hMapped
      | error e =>
        rw [hValue] at hMapped
        cases hMapped
        exact ⟨e, rfl⟩
    · cases hResult.symm.trans hError
      exact ⟨e, rfl⟩
    · cases hResult.symm.trans hError

theorem outcome_of_served {call : Call Config} {seq : UInt32} {greeted : Bool}
    {acts : Log Config Description} {response : Response Config Description}
    (h : Served (.ok ⟨seq, some (arm call)⟩) greeted acts response) :
    response.seq = seq ∧
      ((∃ e, response.error = some e ∧ ∀ handler, .entered handler ∉ acts) ∨
        (∃ r, .returned (armHandler (arm call)) r ∈ acts ∧
          response = respond seq (armReply (arm call) r)) ∨
        ∃ got r, response.error = none ∧ response.response = some got ∧
          pick call got = some r ∧ alone Description call = some r ∧
          ∀ handler, .entered handler ∉ acts) := by
  generalize hMessage : (.ok ⟨seq, some (arm call)⟩ : Except String (Request Config)) = message at h
  cases h with
  | undecodable => cases hMessage
  | empty => cases hMessage
  | called seq' arm' hArm r =>
    cases hMessage
    exact ⟨by cases armReply _ r <;> rfl, .inr (.inl ⟨r, by simp [called], rfl⟩)⟩
  | idle seq' req =>
    cases call with
    | acquireStop captureId =>
      cases hMessage
      exact ⟨rfl, .inr (.inr ⟨_, (), rfl, rfl, rfl, rfl, fun handler => by simp⟩)⟩
    | _ => cases hMessage
  | shutdown seq' =>
    cases call with
    | shutdown =>
      cases hMessage
      exact ⟨rfl, .inr (.inr ⟨_, (), rfl, rfl, rfl, rfl, fun handler => by simp⟩)⟩
    | _ => cases hMessage
  | _ =>
    have hSeq := congrArg Request.seq (Except.ok.inj hMessage)
    exact ⟨hSeq.symm, .inl ⟨_, rfl, fun handler => by simp⟩⟩

theorem obeys_of_returned {ε : Type} {remote : Proto.Error → ε} {call : Call Config} {seq : UInt32}
    {r : (armHandler (arm call)).Result Description} {result : Except ε (call.Result Description)}
    (h : Obeys remote seq (pick call) (respond seq (armReply (arm call) r)) result) :
    result = (value call r).mapError remote := by
  cases call with
  | shutdown => exact (h rfl).2 _ _ rfl rfl rfl
  | _ =>
    rcases r with e | v
    · exact (h rfl).1 e rfl
    · exact (h rfl).2 _ _ rfl rfl rfl

theorem answers_of_obeys {ε : Type} {remote : Proto.Error → ε} {call : Call Config} {seq : UInt32}
    {origin : Origin Config Description} {result : Except ε (call.Result Description)}
    (hMessage : origin.exchange.message = .ok ⟨seq, some (arm call)⟩)
    (hServed : Served origin.exchange.message origin.exchange.greeted origin.exchange.acts
      origin.response)
    (h : Obeys remote seq (pick call) origin.response result) : Answers remote call origin result := by
  refine ⟨⟨seq, hMessage⟩, ?_⟩
  rw [hMessage] at hServed
  have hEntered : (∀ handler, .entered handler ∉ origin.exchange.acts) →
      ∀ handler, .entered handler ∉ origin.exchange.entries := by
    intro hNone handler hMem
    exact hNone handler (List.mem_filter.mpr ⟨hMem, rfl⟩)
  obtain ⟨hSeq, ⟨e, hError, hNone⟩ | ⟨r, hMem, hResponse⟩ | ⟨got, r, hNot, hGot, hPick, hAlone, hNone⟩⟩ :=
    outcome_of_served hServed
  · exact .inr ⟨hEntered hNone, .inl ⟨e, hError, (h hSeq).1 e hError⟩⟩
  · rw [hResponse] at h
    exact .inl ⟨r, (List.mem_filter.mp hMem).1, obeys_of_returned h⟩
  · exact .inr ⟨hEntered hNone, .inr ⟨r, hAlone, hNot, (h hSeq).2 got r hNot hGot hPick⟩⟩

end

end OpenMso.Session
