import OpenMso.Session.System

/-! # What a client does with a request and its reply

A call sends one request and waits for one reply. `Speaks` says what it returns
in each case, whichever the implementation.
-/

namespace OpenMso.Session

open Foundation Foundation.Program Client Proto

set_option autoImplicit false

section
variable {Config Description : Type}

/-- The request that a call makes. -/
def arm : Call Config → Request.Arm Config
  | .hello clientName clientVersion => .hello ⟨protocolVersion, clientName, clientVersion,
      Encoding.encodings.map SampleEncoding.toI32, Encoding.codecs.map Proto.Codec.toI32⟩
  | .describe => .describe
  | .getConfig => .getConfig
  | .setConfig config => .setConfig (some config)
  | .acquireStart captureId mode => .acquireStart ⟨captureId, mode.toI32⟩
  | .acquireStop captureId => .acquireStop ⟨captureId⟩
  | .reset => .reset
  | .shutdown => .shutdown

/-- The result of a call that a response of its kind carries. -/
def pick : (call : Call Config) → Response.Arm Config Description → Option (call.Result Description)
  | .hello _ _, .hello r => some r
  | .describe, .describe r => some r
  | .getConfig, .getConfig r => some r
  | .setConfig _, .setConfig r => some r
  | .acquireStart _ _, .acquireStart => some ()
  | .acquireStop _, .acquireStop => some ()
  | .reset, .reset => some ()
  | .shutdown, .shutdown => some ()
  | _, _ => none

/-- The operations that the plugin has no answer for. -/
def Reaping : Client.Op → Prop
  | .send _ => False
  | .recv => False
  | _ => True

variable {β γ : Type} (decode : List UInt8 → Except String (Request Config))
  (encode : Response Config Description → List UInt8) (sent : Request Config)

/-- The program sends a request, waits for the reply and ends in what the predicates say. -/
def Converses (failed : Failure → β → Prop) (answered : Response Config Description → β → Prop)
    (program : Program Client.Op Client.Op.Answer β) : Prop :=
  ∃ bytes next, program = .ask (.send bytes) next ∧ decode bytes = .ok sent ∧
    (∀ e, Finishes Reaping (failed (.send e)) (next (.error e))) ∧
    ∃ receive, next (.ok ()) = .ask .recv receive ∧
      (∀ e, Finishes Reaping (failed (.recv e)) (receive (.error e))) ∧
      ∀ response, Finishes Reaping (answered response) (receive (.ok (encode response)))

variable {decode encode sent}

theorem Converses.bind {failed : Failure → β → Prop}
    {answered : Response Config Description → β → Prop} {failed' : Failure → γ → Prop}
    {answered' : Response Config Description → γ → Prop}
    {program : Program Client.Op Client.Op.Answer β}
    {f : β → Program Client.Op Client.Op.Answer γ}
    (h : Converses decode encode sent failed answered program)
    (hFailed : ∀ failure b, failed failure b → Finishes Reaping (failed' failure) (f b))
    (hAnswered : ∀ response b, answered response b → Finishes Reaping (answered' response) (f b)) :
    Converses decode encode sent failed' answered' (program.bind f) := by
  obtain ⟨bytes, next, rfl, hBytes, hNext, receive, hReceive, hGaveUp, hAnswer⟩ := h
  refine ⟨bytes, _, rfl, hBytes, ?_, fun answer => (receive answer).bind f, ?_, ?_, ?_⟩
  · exact fun e => (hNext e).bind (hFailed (.send e))
  · rw [hReceive]
    rfl
  · exact fun e => (hGaveUp e).bind (hFailed (.recv e))
  · exact fun response => (hAnswer response).bind (hAnswered response)

theorem Converses.mono {failed failed' : Failure → β → Prop}
    {answered answered' : Response Config Description → β → Prop}
    {program : Program Client.Op Client.Op.Answer β}
    (h : Converses decode encode sent failed answered program)
    (hFailed : ∀ failure b, failed failure b → failed' failure b)
    (hAnswered : ∀ response b, answered response b → answered' response b) :
    Converses decode encode sent failed' answered' program := by
  obtain ⟨bytes, next, hProgram, hBytes, hNext, receive, hReceive, hGaveUp, hAnswer⟩ := h
  refine ⟨bytes, next, hProgram, hBytes, ?_, receive, hReceive, ?_, ?_⟩
  · exact fun e => (hNext e).mono (hFailed (.send e))
  · exact fun e => (hGaveUp e).mono (hFailed (.recv e))
  · exact fun response => (hAnswer response).mono (hAnswered response)

theorem eq_shutdown {call : Call Config} (h : call.isShutdown = true) : call = .shutdown := by
  cases call with
  | shutdown => rfl
  | _ => cases h

end

/-- What a call makes of a reply to its request: a refusal is its error, the one kind of
result that it picks its value. -/
def Obeys {Config Description ε α : Type} (remote : Proto.Error → ε) (seq : UInt32)
    (pick : Response.Arm Config Description → Option α) (response : Response Config Description)
    (result : Except ε α) : Prop :=
  response.seq = seq →
    (∀ e, response.error = some e → result = .error (remote e)) ∧
    ∀ arm r, response.error = none → response.response = some arm → pick arm = some r →
      result = .ok r

/-- How a client names the failures of its socket and the refusals of the plugin, and
the states in which it can make a call. -/
structure Dialect (κ ε : Type) where
  ready : κ → Prop
  nng : Failure → ε
  remote : Proto.Error → ε

section
variable {Config Description κ ε : Type} (dialect : Dialect κ ε)

/-- How a call ends that did not receive its reply. -/
def Fails (call : Call Config) (failure : Failure)
    (outcome : Except ε (call.Result Description) × κ) : Prop :=
  outcome.1 = .error (dialect.nng failure) ∧ (call.isShutdown = false → dialect.ready outcome.2)

/-- How a call ends that received this reply to its request. -/
def Reads (call : Call Config) (seq : UInt32) (response : Response Config Description)
    (outcome : Except ε (call.Result Description) × κ) : Prop :=
  Obeys dialect.remote seq (pick call) response outcome.1 ∧
    (call.isShutdown = false → dialect.ready outcome.2)

/-- The implementation keeps to the protocol. -/
def Speaks (implementation : Implementation Config Description κ ε)
    (decode : List UInt8 → Except String (Request Config))
    (encode : Response Config Description → List UInt8) : Prop :=
  ∀ call client, dialect.ready client → ∃ seq,
    Converses decode encode ⟨seq, some (arm call)⟩ (Fails dialect call) (Reads dialect call seq)
      (implementation call client)

end

end OpenMso.Session
