import Mathlib.Data.Countable.Basic
import Mathlib.Logic.Equiv.List
import Mathlib.Tactic.DeriveCountable
import OpenMso.Server.Discipline
import OpenMso.Server.Orderly
import OpenMso.Session.Answers
import OpenMso.Session.CppClient
import OpenMso.Session.RustClient

/-! # Client and server agree on every call

The invariant follows the one call that is under way, and with it its ticket:
wherever a message with this ticket is, it is the call's request or the reply
to it.
-/

namespace OpenMso.Session

open Foundation Foundation.Program Foundation.Runs Client Server Proto

set_option autoImplicit false

section
variable {Config Description σ : Type} [Inhabited Config]
  {plugin : CaptureServer Config Description σ}
  {decode : List UInt8 → Except String (Request Config)} {s t : Process Config Description σ}
  {action : Action σ}

omit [Inhabited Config] in
theorem pending_append_of_quiet {newer log : Log Config Description}
    (hQuiet : ∀ entry ∈ newer, entry.isMessage = false) {x : Exchange Config Description}
    (hx : pending log = some x) :
    ∃ y, pending (newer ++ log) = some y ∧ y.message = x.message := by
  induction newer with
  | nil => exact ⟨x, hx, rfl⟩
  | cons entry newer ih =>
    obtain ⟨hEntry, hRest⟩ := List.forall_mem_cons.mp hQuiet
    obtain ⟨y, hy, hMessage⟩ := ih hRest
    refine ⟨y.note entry, ?_, hMessage⟩
    rw [List.cons_append, pending_cons _ hEntry, hy]
    rfl

omit [Inhabited Config] in
theorem perform_of_not_crosses {op : Server.Op Config Description} {answer : op.Answer}
    (hCrosses : crosses action = false)
    (h : s.perform plugin decode op action = some (answer, t)) :
    ∃ newer, t.log = newer ++ s.log ∧ ∀ entry ∈ newer, entry.isMessage = false := by
  cases op with
  | recv =>
    cases action with
    | receive incoming =>
      cases incoming with
      | error e =>
        cases h
        exact ⟨[], rfl, List.forall_mem_nil _⟩
      | ok bytes => cases hCrosses
    | _ => cases h
  | send response =>
    cases action with
    | reply failure =>
      cases failure with
      | some e =>
        cases h
        exact ⟨[], rfl, List.forall_mem_nil _⟩
      | none => cases hCrosses
    | _ => cases h
  | isGreeted =>
    cases action with
    | act =>
      cases h
      exact ⟨[], rfl, List.forall_mem_nil _⟩
    | _ => cases h
  | _ =>
    cases action with
    | act =>
      cases h
      exact ⟨[_], rfl, List.forall_mem_singleton.mpr rfl⟩
    | _ => cases h

/-- Messages come and go only where the plugin's socket hands them over. -/
theorem log_step_of_not_crosses (hCrosses : crosses action = false)
    (hStep : s.step plugin decode action = some t) :
    ∃ newer, t.log = newer ++ s.log ∧ ∀ entry ∈ newer, entry.isMessage = false := by
  cases hControl : action.isControl with
  | true =>
    obtain ⟨op, next, answer, u, -, hPerform, rfl⟩ := step_control hControl hStep
    obtain ⟨newer, hLog, hQuiet⟩ := perform_of_not_crosses hCrosses hPerform
    exact ⟨newer, hLog, hQuiet⟩
  | false =>
    cases action with
    | begin event =>
      cases hStep
      exact ⟨[_], rfl, List.forall_mem_singleton.mpr rfl⟩
    | finish push failure =>
      obtain ⟨event, -, -, -, -, -, hLog | hLog⟩ := finish_cases hStep
      · exact ⟨[], hLog, List.forall_mem_nil _⟩
      · exact ⟨[_], hLog, List.forall_mem_singleton.mpr rfl⟩
    | tamper state =>
      cases hStep
      exact ⟨[], rfl, List.forall_mem_nil _⟩
    | _ => cases hControl

theorem log_step_of_receive {bytes : List UInt8} {request : Request Config}
    (hDecode : decode bytes = .ok request)
    (hStep : s.step plugin decode (.receive (.ok bytes)) = some t) :
    t.log = .received (.ok request) s.greeted s.events.isRunning :: s.log := by
  obtain ⟨op, next, answer, u, -, hPerform, rfl⟩ := step_control rfl hStep
  cases op with
  | recv =>
    have hDecoded : Transport.decoded decode (.ok bytes) = .ok request := by
      rw [Transport.decoded, hDecode]
    cases hPerform
    change (s.noteReceived _).log = _
    rw [hDecoded]
    rfl
  | _ => cases hPerform

theorem log_step_of_reply {response : Response Config Description}
    {next : (Server.Op.send response).Answer → Serving Config Description Turn}
    (hControl : s.control = .ask (.send response) next)
    (hStep : s.step plugin decode (.reply none) = some t) :
    t.log = .replied response s.greeted s.events.isRunning :: s.log := by
  obtain ⟨op, next', answer, u, hAsk, hPerform, rfl⟩ := step_control rfl hStep
  rw [hControl] at hAsk
  cases hAsk
  cases hPerform
  rfl

end

section
variable {Config Description κ ε σ : Type} [Inhabited Config] (dialect : Dialect κ ε)
  (decode : List UInt8 → Except String (Request Config))
  (encode : Response Config Description → List UInt8)

/-- Whatever carries the ticket carries this request or the reply to it. -/
structure Asked (s : System Config Description κ ε σ) (ticket : Nat) (sent : Request Config) :
    Prop where
  requests : ∀ bytes, (ticket, bytes) ∈ s.requests → decode bytes = .ok sent
  serving : s.serving = some ticket →
    ∃ x, pending s.server.log = some x ∧ x.message = .ok sent
  replies : ∀ parcel ∈ s.replies, parcel.ticket = ticket →
    parcel.origin.exchange.message = .ok sent

/-- How the call has to end. -/
def Ends (log : Log Config Description) (call : Call Config)
    (heard : Option (Except Failure (Origin Config Description)))
    (outcome : Except ε (call.Result Description) × κ) : Prop :=
  Correct dialect log ⟨call, outcome.1, heard⟩ ∧ (call.isShutdown = false → dialect.ready outcome.2)

/-- Where the call under way stands: it has its request to send, it waits for the
reply, or it has no more to do with the plugin's answers. -/
inductive Stands (s : System Config Description κ ε σ) : Underway Config Description κ ε → Prop
  | asking (call : Call Config)
      (program : Program Client.Op Client.Op.Answer (Except ε (call.Result Description) × κ))
      (seq : UInt32)
      (h : Converses decode encode ⟨seq, some (arm call)⟩ (Fails dialect call)
        (Reads dialect call seq) program) : Stands s ⟨call, program, none, none⟩
  | waiting (call : Call Config) (ticket : Nat) (seq : UInt32)
      (receive : Client.Op.Answer .recv → Program Client.Op Client.Op.Answer
        (Except ε (call.Result Description) × κ))
      (hGaveUp : ∀ e, Finishes Reaping (Fails dialect call (.recv e)) (receive (.error e)))
      (hAnswered : ∀ response, Finishes Reaping (Reads dialect call seq response)
        (receive (.ok (encode response))))
      (hAsked : Asked decode s ticket ⟨seq, some (arm call)⟩) :
      Stands s ⟨call, .ask .recv receive, some ticket, none⟩
  | ending (call : Call Config) (op : Client.Op)
      (next : op.Answer → Program Client.Op Client.Op.Answer
        (Except ε (call.Result Description) × κ)) (ticket : Option Nat)
      (heard : Option (Except Failure (Origin Config Description))) (hReaping : Reaping op)
      (hEnds : ∀ answer, Finishes Reaping (Ends dialect s.server.log call heard) (next answer)) :
      Stands s ⟨call, .ask op next, ticket, heard⟩

/-- What holds whatever the client does. -/
structure Posted (s : System Config Description κ ε σ) : Prop where
  server : Agrees s.server
  replies : ∀ parcel ∈ s.replies,
    parcel.bytes = encode parcel.origin.response ∧ InLog s.server.log parcel.origin
  requestTickets : ∀ request ∈ s.requests, request.1 < s.tickets
  servingTicket : ∀ ticket, s.serving = some ticket → ticket < s.tickets
  replyTickets : ∀ parcel ∈ s.replies, parcel.ticket < s.tickets
  finished : ∀ f ∈ s.finished, Correct dialect s.server.log f

structure Sound (s : System Config Description κ ε σ) : Prop where
  posted : Posted dialect encode s
  ready : s.underway = none → s.closed = false → dialect.ready s.client
  underway : ∀ u, s.underway = some u →
    (s.closed = false → u.call.isShutdown = false) ∧ Stands dialect decode encode s u

end

section
variable {Config Description κ ε σ : Type} [Inhabited Config] {dialect : Dialect κ ε}
  {decode : List UInt8 → Except String (Request Config)}
  {encode : Response Config Description → List UInt8} {s : System Config Description κ ε σ}

theorem Ends.mono {newer log : Log Config Description} {call : Call Config}
    {heard : Option (Except Failure (Origin Config Description))}
    {outcome : Except ε (call.Result Description) × κ} (h : Ends dialect log call heard outcome) :
    Ends dialect (newer ++ log) call heard outcome :=
  ⟨h.1.mono, h.2⟩

theorem Posted.proceed {call : Call Config}
    {program : Program Client.Op Client.Op.Answer (Except ε (call.Result Description) × κ)}
    {heard : Option (Except Failure (Origin Config Description))} (h : Posted dialect encode s)
    (hClosed : s.closed = false → call.isShutdown = false) (ticket : Option Nat)
    (hEnds : Finishes Reaping (Ends dialect s.server.log call heard) program) :
    Sound dialect decode encode (s.proceed call program ticket heard) := by
  cases hEnds with
  | done outcome hOutcome =>
    obtain ⟨result, client⟩ := outcome
    refine ⟨⟨h.server, h.replies, h.requestTickets, h.servingTicket, h.replyTickets, ?_⟩, ?_, ?_⟩
    · exact List.forall_mem_cons.mpr ⟨hOutcome.1, h.finished⟩
    · exact fun _ hOpen => hOutcome.2 (hClosed hOpen)
    · rintro u ⟨⟩
  | ask op next hReaping hNext =>
    refine ⟨⟨h.server, h.replies, h.requestTickets, h.servingTicket, h.replyTickets, h.finished⟩,
      ?_, ?_⟩
    · rintro ⟨⟩
    · rintro u ⟨⟩
      exact ⟨hClosed, .ending call op next ticket heard hReaping hNext⟩

theorem ends_of_fails {log : Log Config Description} {call : Call Config} {failure : Failure}
    {outcome : Except ε (call.Result Description) × κ} (h : Fails dialect call failure outcome) :
    Ends dialect log call (some (.error failure)) outcome :=
  h

theorem Posted.ends_of_reads (h : Posted dialect encode s) {call : Call Config} {seq : UInt32}
    {parcel : Parcel Config Description} (hParcel : parcel ∈ s.replies)
    (hMessage : parcel.origin.exchange.message = .ok ⟨seq, some (arm call)⟩)
    {outcome : Except ε (call.Result Description) × κ}
    (hReads : Reads dialect call seq parcel.origin.response outcome) :
    Ends dialect s.server.log call (some (.ok parcel.origin)) outcome := by
  have hInLog := (h.replies parcel hParcel).2
  obtain ⟨newer, older, greeted, running, hLog, hx⟩ := hInLog
  have hOrderly := h.server.orderly
  rw [hLog] at hOrderly
  obtain ⟨-, -, y, hy, hServed⟩ := hOrderly.allowed
  obtain rfl := Option.some.inj (hx.symm.trans hy)
  exact ⟨⟨⟨newer, older, greeted, running, hLog, hx⟩,
    answers_of_obeys hMessage hServed hReads.1⟩, hReads.2⟩

theorem Posted.log {server : Process Config Description σ} {newer : Log Config Description}
    (h : Posted dialect encode s) (hAgrees : Agrees server)
    (hLog : server.log = newer ++ s.server.log) :
    Posted dialect encode { s with server } := by
  refine ⟨hAgrees, ?_, h.requestTickets, h.servingTicket, h.replyTickets, ?_⟩
  · intro parcel hParcel
    obtain ⟨hBytes, hInLog⟩ := h.replies parcel hParcel
    refine ⟨hBytes, ?_⟩
    rw [hLog]
    exact hInLog.mono
  · intro f hf
    rw [hLog]
    exact (h.finished f hf).mono

section
variable {implementation : Implementation Config Description κ ε}
  {plugin : CaptureServer Config Description σ} {t : System Config Description κ ε σ}

theorem Sound.call {call : Call Config} (h : Sound dialect decode encode s)
    (hSpeaks : Speaks dialect implementation decode encode)
    (hStep : s.step implementation plugin decode encode (.call call) = some t) :
    Sound dialect decode encode t := by
  rw [System.step] at hStep
  split at hStep
  · cases hStep
  · next hIdle =>
    simp only [Bool.or_eq_true, not_or, Bool.not_eq_true, Option.isSome_eq_false_iff,
      Option.isNone_iff_eq_none] at hIdle
    obtain ⟨hNone, hOpen⟩ := hIdle
    obtain ⟨seq, hConverses⟩ := hSpeaks call s.client (h.ready hNone hOpen)
    obtain ⟨bytes, next, hProgram, hRest⟩ := id hConverses
    rw [hProgram] at hStep hConverses
    cases hStep
    refine ⟨⟨h.posted.server, h.posted.replies, h.posted.requestTickets, h.posted.servingTicket,
      h.posted.replyTickets, h.posted.finished⟩, ?_, ?_⟩
    · rintro ⟨⟩
    · rintro u ⟨⟩
      exact ⟨id, .asking call _ seq hConverses⟩

theorem Sound.send {failure : Option NngError} (h : Sound dialect decode encode s)
    (hStep : s.step implementation plugin decode encode (.send failure) = some t) :
    Sound dialect decode encode t := by
  unfold System.step at hStep
  dsimp only at hStep
  split at hStep
  · next call bytes rest ticket heard e hUnderway =>
    obtain ⟨hClosed, hStands⟩ := h.underway _ hUnderway
    cases hStands with
    | asking _ _ seq hConverses =>
      obtain ⟨bytes', rest', hProgram, -, hFails, -⟩ := hConverses
      cases hProgram
      cases hStep
      exact h.posted.proceed hClosed none ((hFails e).mono fun _ => ends_of_fails)
    | ending _ _ _ _ _ hReaping => cases hReaping
  · next call bytes rest ticket heard hUnderway =>
    obtain ⟨hClosed, hStands⟩ := h.underway _ hUnderway
    cases hStands with
    | asking _ _ seq hConverses =>
      obtain ⟨bytes', rest', hProgram, hDecode, -, receive, hReceive, hGaveUp, hAnswered⟩ :=
        hConverses
      cases hProgram
      rw [hReceive] at hStep
      cases hStep
      have hPosted := h.posted
      refine ⟨⟨hPosted.server, hPosted.replies, ?_, ?_, ?_, hPosted.finished⟩, ?_, ?_⟩
      · intro request hRequest
        rcases List.mem_append.mp hRequest with hOld | hNew
        · exact Nat.lt_succ_of_lt (hPosted.requestTickets request hOld)
        · cases List.mem_singleton.mp hNew
          exact Nat.lt_succ_self _
      · exact fun ticket hServing => Nat.lt_succ_of_lt (hPosted.servingTicket ticket hServing)
      · exact fun parcel hParcel => Nat.lt_succ_of_lt (hPosted.replyTickets parcel hParcel)
      · rintro ⟨⟩
      · rintro u ⟨⟩
        refine ⟨hClosed, .waiting call s.tickets seq receive hGaveUp hAnswered ⟨?_, ?_, ?_⟩⟩
        · intro bytes' hMem
          rcases List.mem_append.mp hMem with hOld | hNew
          · exact absurd (hPosted.requestTickets _ hOld) (Nat.lt_irrefl _)
          · cases List.mem_singleton.mp hNew
            exact hDecode
        · intro hServing
          exact absurd (hPosted.servingTicket _ hServing) (Nat.lt_irrefl _)
        · intro parcel hParcel hTicket
          have hLess := hPosted.replyTickets parcel hParcel
          rw [hTicket] at hLess
          exact absurd hLess (Nat.lt_irrefl _)
    | ending _ _ _ _ _ hReaping => cases hReaping
  · cases hStep

theorem Sound.recv {failure : Option NngError} (h : Sound dialect decode encode s)
    (hStep : s.step implementation plugin decode encode (.recv failure) = some t) :
    Sound dialect decode encode t := by
  unfold System.step at hStep
  dsimp only at hStep
  split at hStep
  · next call receive ticket heard e hUnderway =>
    obtain ⟨hClosed, hStands⟩ := h.underway _ hUnderway
    cases hStands with
    | asking _ _ seq hConverses =>
      obtain ⟨bytes, rest, hProgram, -⟩ := hConverses
      cases hProgram
    | waiting _ _ _ _ hGaveUp =>
      cases hStep
      exact h.posted.proceed hClosed _ ((hGaveUp e).mono fun _ => ends_of_fails)
    | ending _ _ _ _ _ hReaping => cases hReaping
  · next call receive ticket heard hUnderway =>
    obtain ⟨hClosed, hStands⟩ := h.underway _ hUnderway
    obtain ⟨parcel, hFind, rfl⟩ := Option.map_eq_some_iff.mp hStep
    have hParcel := List.mem_of_find?_eq_some hFind
    have hTicket : parcel.ticket = ticket := by simpa using List.find?_some hFind
    cases hStands with
    | waiting _ _ seq _ hGaveUp hAnswered hAsked =>
      have hPosted : Posted dialect encode
          { s with replies := s.replies.filter (·.ticket != ticket) } :=
        ⟨h.posted.server, fun p hp => h.posted.replies p (List.mem_filter.mp hp).1,
          h.posted.requestTickets, h.posted.servingTicket,
          fun p hp => h.posted.replyTickets p (List.mem_filter.mp hp).1, h.posted.finished⟩
      refine hPosted.proceed hClosed _ ?_
      rw [(h.posted.replies parcel hParcel).1]
      refine (hAnswered parcel.origin.response).mono fun outcome hReads => ?_
      exact h.posted.ends_of_reads hParcel (hAsked.replies parcel hParcel hTicket) hReads
    | ending _ _ _ _ _ hReaping => cases hReaping
  · cases hStep

/-- What a client does about its child process brings the call nearer to its end. -/
theorem Sound.proceed {call : Call Config} {op : Client.Op}
    {rest : op.Answer → Program Client.Op Client.Op.Answer (Except ε (call.Result Description) × κ)}
    {ticket : Option Nat} {heard : Option (Except Failure (Origin Config Description))}
    (h : Sound dialect decode encode s)
    (hUnderway : s.underway = some ⟨call, .ask op rest, ticket, heard⟩) (hReaping : Reaping op)
    (answer : op.Answer) : Sound dialect decode encode (s.proceed call (rest answer) ticket heard) := by
  obtain ⟨hClosed, hStands⟩ := h.underway _ hUnderway
  cases hStands with
  | asking _ _ seq hConverses =>
    obtain ⟨bytes, next, hProgram, -⟩ := hConverses
    cases hProgram
    cases hReaping
  | waiting => cases hReaping
  | ending _ _ _ _ _ _ hEnds => exact h.posted.proceed hClosed ticket (hEnds answer)

theorem Sound.reap (h : Sound dialect decode encode s)
    (hStep : s.step implementation plugin decode encode .reap = some t) :
    Sound dialect decode encode t := by
  unfold System.step at hStep
  dsimp only at hStep
  split at hStep
  · next call rest ticket heard hUnderway =>
    cases hStep
    exact h.proceed hUnderway trivial ()
  · next call rest ticket heard hUnderway =>
    cases hStep
    exact h.proceed hUnderway trivial ()
  · next call rest ticket heard hUnderway =>
    cases hStep
    exact h.proceed hUnderway trivial ()
  · cases hStep

theorem Stands.transfer {u : Underway Config Description κ ε} {newer : Log Config Description}
    (h : Stands dialect decode encode s u) (hLog : t.server.log = newer ++ s.server.log)
    (hAsked : ∀ ticket sent, u.ticket = some ticket → Asked decode s ticket sent →
      Asked decode t ticket sent) : Stands dialect decode encode t u := by
  cases h with
  | asking call program seq hConverses => exact .asking call program seq hConverses
  | waiting call ticket seq receive hGaveUp hAnswered hSent =>
    exact .waiting call ticket seq receive hGaveUp hAnswered (hAsked ticket _ rfl hSent)
  | ending call op next ticket heard hReaping hEnds =>
    refine .ending call op next ticket heard hReaping fun answer => (hEnds answer).mono ?_
    intro outcome hOutcome
    rw [hLog]
    exact hOutcome.mono

theorem Sound.withdraw {ticket : Nat} (h : Sound dialect decode encode s)
    (hStep : s.step implementation plugin decode encode (.withdraw ticket) = some t) :
    Sound dialect decode encode t := by
  unfold System.step at hStep
  dsimp only at hStep
  split at hStep
  · cases hStep
  · cases hStep
    have hPosted := h.posted
    refine ⟨⟨hPosted.server, hPosted.replies, ?_, hPosted.servingTicket, hPosted.replyTickets,
      hPosted.finished⟩, h.ready, ?_⟩
    · exact fun request hRequest => hPosted.requestTickets request (List.mem_filter.mp hRequest).1
    · intro u hu
      obtain ⟨hClosed, hStands⟩ := h.underway u hu
      refine ⟨hClosed, hStands.transfer (List.nil_append _).symm fun ticket sent _ hAsked => ?_⟩
      exact ⟨fun bytes hMem => hAsked.requests bytes (List.mem_filter.mp hMem).1, hAsked.serving,
        hAsked.replies⟩

theorem Sound.deliver (h : Sound dialect decode encode s)
    (hStep : s.step implementation plugin decode encode .deliver = some t) :
    Sound dialect decode encode t := by
  unfold System.step at hStep
  dsimp only at hStep
  split at hStep
  · cases hStep
  · next ticket bytes requests hRequests =>
    obtain ⟨server, hServer, rfl⟩ := Option.map_eq_some_iff.mp hStep
    obtain ⟨newer, hLog⟩ := log_step hServer
    have hPosted := h.posted.log (h.posted.server.step hServer) hLog
    have hHead : (ticket, bytes) ∈ s.requests := hRequests ▸ List.mem_cons_self
    have hTail : ∀ request ∈ requests, request ∈ s.requests := by
      intro request hRequest
      rw [hRequests]
      exact List.mem_cons_of_mem _ hRequest
    refine ⟨⟨hPosted.server, hPosted.replies, ?_, ?_, hPosted.replyTickets, hPosted.finished⟩,
      h.ready, ?_⟩
    · exact fun request hRequest => hPosted.requestTickets request (hTail request hRequest)
    · rintro _ ⟨⟩
      exact hPosted.requestTickets _ hHead
    · intro u hu
      obtain ⟨hClosed, hStands⟩ := h.underway u hu
      refine ⟨hClosed, hStands.transfer hLog fun ticket' sent _ hAsked => ?_⟩
      refine ⟨fun bytes' hMem => hAsked.requests bytes' (hTail _ hMem), ?_, hAsked.replies⟩
      rintro ⟨⟩
      rw [log_step_of_receive (hAsked.requests bytes hHead) hServer]
      exact ⟨_, rfl, rfl⟩

theorem Sound.reply (h : Sound dialect decode encode s)
    (hStep : s.step implementation plugin decode encode .reply = some t) :
    Sound dialect decode encode t := by
  unfold System.step at hStep
  dsimp only at hStep
  split at hStep
  · next ticket response next exchange hServing hControl hPending =>
    obtain ⟨server, hServer, rfl⟩ := Option.map_eq_some_iff.mp hStep
    have hLog : server.log = [_] ++ s.server.log := log_step_of_reply hControl hServer
    have hPosted := h.posted.log (h.posted.server.step hServer) hLog
    refine ⟨⟨hPosted.server, ?_, hPosted.requestTickets, ?_, ?_, hPosted.finished⟩, h.ready, ?_⟩
    · refine List.forall_mem_cons.mpr ⟨⟨rfl, [], s.server.log, _, _, hLog, hPending⟩, ?_⟩
      exact hPosted.replies
    · rintro _ ⟨⟩
    · exact List.forall_mem_cons.mpr ⟨h.posted.servingTicket _ hServing, hPosted.replyTickets⟩
    · intro u hu
      obtain ⟨hClosed, hStands⟩ := h.underway u hu
      refine ⟨hClosed, hStands.transfer hLog fun ticket' sent _ hAsked => ?_⟩
      refine ⟨hAsked.requests, by rintro ⟨⟩, List.forall_mem_cons.mpr ⟨?_, hAsked.replies⟩⟩
      rintro rfl
      obtain ⟨x, hx, hMessage⟩ := hAsked.serving hServing
      cases hPending.symm.trans hx
      exact hMessage
  · cases hStep

theorem Sound.server {action : Action σ} (h : Sound dialect decode encode s)
    (hStep : s.step implementation plugin decode encode (.server action) = some t) :
    Sound dialect decode encode t := by
  unfold System.step at hStep
  dsimp only at hStep
  split at hStep
  · cases hStep
  · next hCrosses =>
    obtain ⟨server, hServer, rfl⟩ := Option.map_eq_some_iff.mp hStep
    obtain ⟨newer, hLog, hQuiet⟩ := log_step_of_not_crosses (by simpa using hCrosses) hServer
    refine ⟨h.posted.log (h.posted.server.step hServer) hLog, h.ready, ?_⟩
    intro u hu
    obtain ⟨hClosed, hStands⟩ := h.underway u hu
    refine ⟨hClosed, hStands.transfer hLog fun ticket sent _ hAsked => ?_⟩
    refine ⟨hAsked.requests, fun hServing => ?_, hAsked.replies⟩
    obtain ⟨x, hx, hMessage⟩ := hAsked.serving hServing
    obtain ⟨y, hy, hSame⟩ := pending_append_of_quiet hQuiet hx
    change ∃ z, pending server.log = some z ∧ z.message = .ok sent
    rw [hLog]
    exact ⟨y, hy, hSame.trans hMessage⟩

/-- Whatever happens next, the call under way is on its way to end as it has to. -/
theorem Sound.step {move : Move Config σ} (h : Sound dialect decode encode s)
    (hSpeaks : Speaks dialect implementation decode encode)
    (hStep : s.step implementation plugin decode encode move = some t) :
    Sound dialect decode encode t := by
  cases move with
  | call call => exact h.call hSpeaks hStep
  | send failure => exact h.send hStep
  | recv failure => exact h.recv hStep
  | reap => exact h.reap hStep
  | withdraw ticket => exact h.withdraw hStep
  | deliver => exact h.deliver hStep
  | reply => exact h.reply hStep
  | server action => exact h.server hStep

theorem sound_init {client : κ} (hReady : dialect.ready client) (socket : Transport.Socket Event)
    (state : σ) :
    Sound dialect decode encode
      (System.init client socket state : System Config Description κ ε σ) := by
  refine ⟨⟨agrees_init socket state, ?_, ?_, ?_, ?_, ?_⟩, fun _ _ => hReady, ?_⟩
  all_goals rintro _ ⟨⟩

omit [Inhabited Config] in
theorem proceed_underway (s : System Config Description κ ε σ)
    (u : Option (Underway Config Description κ ε)) (call : Call Config)
    (program : Program Client.Op Client.Op.Answer (Except ε (call.Result Description) × κ))
    (ticket : Option Nat) (heard : Option (Except Failure (Origin Config Description))) :
    { s with underway := u }.proceed call program ticket heard =
      s.proceed call program ticket heard := by
  cases program <;> rfl

theorem exists_reaps (s : System Config Description κ ε σ) {call : Call Config}
    {P : Except ε (call.Result Description) × κ → Prop}
    {program : Program Client.Op Client.Op.Answer (Except ε (call.Result Description) × κ)}
    (h : Finishes Reaping P program) (ticket : Option Nat)
    (heard : Option (Except Failure (Origin Config Description))) :
    ∃ n t, run (System.step implementation plugin decode encode)
      (s.proceed call program ticket heard) (List.replicate n .reap) = some t ∧
        t.underway = none := by
  induction h with
  | done outcome => exact ⟨0, _, rfl, rfl⟩
  | ask op next hReaping _ ih =>
    cases op with
    | send bytes => cases hReaping
    | recv => cases hReaping
    | _ =>
      obtain ⟨n, t, hRun, hReturned⟩ := ih ()
      refine ⟨n + 1, t, ?_, hReturned⟩
      rw [List.replicate_succ, run_cons, ← hRun]
      change run _ (System.proceed { s with underway := _ } call (next ()) ticket heard) _ = _
      rw [proceed_underway]

/-- Every call that has returned returned what it should, and a call that has its reply, or was
failed by its socket, has only its child process to wait for. -/
def Agreed (implementation : Implementation Config Description κ ε)
    (plugin : CaptureServer Config Description σ) (dialect : Dialect κ ε)
    (decode : List UInt8 → Except String (Request Config))
    (encode : Response Config Description → List UInt8) (s : System Config Description κ ε σ) :
    Prop :=
  (∀ f ∈ s.finished, Correct dialect s.server.log f) ∧
    ∀ u, s.underway = some u → u.heard ≠ none → ∃ n t,
      run (System.step implementation plugin decode encode) s (List.replicate n .reap) = some t ∧
        t.underway = none

theorem Sound.agreed (h : Sound dialect decode encode s) :
    Agreed implementation plugin dialect decode encode s := by
  refine ⟨h.posted.finished, fun u hu hHeard => ?_⟩
  obtain ⟨-, hStands⟩ := h.underway u hu
  cases hStands with
  | asking => exact absurd rfl hHeard
  | waiting => exact absurd rfl hHeard
  | ending call op next ticket heard hReaping hEnds =>
    have hSame : s = s.proceed call (.ask op next) ticket heard := by
      change s = { s with underway := some ⟨call, .ask op next, ticket, heard⟩ }
      rw [← hu]
    rw [hSame]
    exact exists_reaps s (.ask op next hReaping hEnds) ticket heard

theorem agreed_of_run (hSpeaks : Speaks dialect implementation decode encode) {client : κ}
    (hReady : dialect.ready client) {socket : Transport.Socket Event} {state : σ}
    {moves : List (Move Config σ)}
    (hRun : run (System.step implementation plugin decode encode)
      (System.init client socket state) moves = some s) :
    Agreed implementation plugin dialect decode encode s := by
  have hSound := run_invariant (Sound dialect decode encode)
    (fun hSound hStep => hSound.step hSpeaks hStep) (sound_init hReady socket state) hRun
  exact hSound.agreed

end

end

section
variable {Config Description σ : Type} [Inhabited Config]

/-- For both clients, with any plugin and in any interleaving: a call that received its
reply returns exactly what the plugin answered to its request, any other the failure of its
socket, and none finds the protocol broken. -/
theorem calls_agree (plugin : CaptureServer Config Description σ)
    (decode : List UInt8 → Except String (Request Config))
    (encode : Response Config Description → List UInt8) (codec : Codec Config Description)
    (runtime : Cpp.Client.Runtime Config Description)
    (hRequest : ∀ message, decode (codec.encode message) = .ok message)
    (hResponse : ∀ message, codec.decode (encode message) = .ok message)
    (hCppRequest : ∀ message, ∃ bytes, runtime.serializeToString message = some bytes ∧
      decode bytes = .ok message)
    (hCppResponse : ∀ message, runtime.parseFromArray (encode message) = some message)
    (socket : Transport.Socket Event) (state : σ) (moves : List (Move Config σ)) :
    (∀ seq s, run (System.step (RustClient.implementation codec) plugin decode encode)
        (System.init ⟨seq⟩ socket state) moves = some s →
      Agreed (RustClient.implementation codec) plugin RustClient.dialect decode encode s ∧
        ∀ f ∈ s.finished, ∀ message, f.result ≠ .error (.protocol message)) ∧
    ∀ pid stdinFd seq s, 0 < pid →
      run (System.step (CppClient.implementation runtime) plugin decode encode)
        (System.init ⟨pid, stdinFd, seq⟩ socket state) moves = some s →
      Agreed (CppClient.implementation runtime) plugin (CppClient.dialect runtime) decode encode s ∧
        ∀ f ∈ s.finished, ∀ error, f.result = .error error → error.kind ≠ .protocol := by
  constructor
  · intro seq s hRun
    have hAgreed := agreed_of_run (RustClient.speaks hRequest hResponse) trivial hRun
    refine ⟨hAgreed, fun f hf message hProtocol => ?_⟩
    rcases (hAgreed.1 f hf).source_of_error hProtocol with ⟨failure, hNng⟩ | ⟨e, hRemote⟩
    · cases failure <;> cases hNng
    · cases hRemote
  · intro pid stdinFd seq s hPid hRun
    have hAgreed := agreed_of_run (CppClient.speaks hCppRequest hCppResponse)
      (show (CppClient.dialect runtime).ready ⟨pid, stdinFd, seq⟩ from hPid) hRun
    refine ⟨hAgreed, fun f hf error hError hProtocol => ?_⟩
    rcases (hAgreed.1 f hf).source_of_error hError with ⟨failure, rfl⟩ | ⟨e, rfl⟩
    · cases failure <;> cases hProtocol
    · cases hProtocol

end

/-! A session, with the bytes that protobuf makes of its messages. There are countably
many others, so they have an encoding too. -/

namespace Sample

instance countableUInt32 : Countable UInt32 := Function.Injective.countable fun _ _ => UInt32.toNat_inj.mp
instance countableUInt64 : Countable UInt64 := Function.Injective.countable fun _ _ => UInt64.toNat_inj.mp
instance countableInt32 : Countable Int32 := Function.Injective.countable fun _ _ => Int32.toInt_inj.mp
instance countableChar : Countable Char := Function.Injective.countable fun _ _ => Char.toNat_inj.mp
instance countableString : Countable String := Function.Injective.countable fun _ _ => String.toList_inj.mp

deriving instance Countable for Proto.Error, Hello, PluginInfo, Capabilities, DeviceInfo,
  HelloResult, AcquireStart, AcquireStop, Request.Arm, Request, Response.Arm, Response

section
variable {Message : Type} [Countable Message] [DecidableEq Message]
  (table : List (Message × List UInt8))

noncomputable def number : Message → Nat := (exists_injective_nat Message).choose

/-- The bytes of the table, which do not begin with a zero, and others that do. -/
noncomputable def encodeBy (message : Message) : List UInt8 :=
  match table.find? (·.1 == message) with
  | some (_, bytes) => bytes
  | none => 0 :: List.replicate (number message) 1

open Classical in
noncomputable def decodeBy : List UInt8 → Except String Message
  | 0 :: rest =>
    if h : ∃ message : Message, number message = rest.length then .ok h.choose
    else .error "failed to decode Protobuf message"
  | bytes =>
    match table.find? (·.2 == bytes) with
    | some (message, _) => .ok message
    | none => .error "failed to decode Protobuf message"

theorem decodeBy_encodeBy (h : ∀ p ∈ table, decodeBy table p.2 = .ok p.1) (message : Message) :
    decodeBy table (encodeBy table message) = .ok message := by
  rw [encodeBy]
  split
  · next found bytes hFind =>
    have hSame : found = message := by simpa using List.find?_some hFind
    rw [← hSame]
    exact h _ (List.mem_of_find?_eq_some hFind)
  · have hNumber : ∃ other : Message, number other = (List.replicate (number message) (1 : UInt8)).length :=
      ⟨message, List.length_replicate.symm⟩
    rw [decodeBy, dif_pos hNumber]
    have hChoose : number hNumber.choose = number message :=
      hNumber.choose_spec.trans List.length_replicate
    exact congrArg _ ((exists_injective_nat Message).choose_spec hChoose)

end

def requests : List (Request Unit × List UInt8) :=
  [(⟨1, some (arm (.hello "scope" "0.1"))⟩,
      [0x08, 1, 0x52, 21, 0x08, 1, 0x12, 5, 115, 99, 111, 112, 101, 0x1a, 3, 48, 46, 49,
        0x22, 2, 2, 1, 0x2a, 1, 1]),
    (⟨2, some .shutdown⟩, [0x08, 2, 0x8a, 1, 0])]

def responses : List (Response Unit Unit × List UInt8) :=
  [(⟨1, none, some (.hello ⟨1, none, none, none, [], []⟩)⟩, [0x08, 1, 0x52, 2, 0x08, 1]),
    (⟨2, none, some .shutdown⟩, [0x08, 2, 0x8a, 1, 0])]

noncomputable def codec : Codec Unit Unit := ⟨encodeBy requests, decodeBy responses⟩

noncomputable def runtime : Cpp.Client.Runtime Unit Unit where
  serializeToString message := some (encodeBy requests message)
  parseFromArray bytes := (decodeBy responses bytes).toOption
  strerror _ := "Timed out"

def moves : List (Move Unit Unit) :=
  [.call (.hello "scope" "0.1"), .send none, .deliver, .server .act, .server .act, .server .act,
    .server .act, .reply, .recv none, .call .shutdown, .send none, .deliver, .server .act, .reply,
    .recv none, .reap]

end Sample

theorem calls_agree_hello_shutdown :
    (∃ s, run (System.step (RustClient.implementation Sample.codec) Sample.plugin
        (Sample.decodeBy Sample.requests) (Sample.encodeBy Sample.responses))
        (System.init ⟨0⟩ ⟨0, []⟩ ()) Sample.moves = some s ∧
      s.finished.map (·.heard.any Except.isOk) = [true, true] ∧
      ∀ f ∈ s.finished, ∀ message, f.result ≠ .error (.protocol message)) ∧
    ∃ s, run (System.step (CppClient.implementation Sample.runtime) Sample.plugin
        (Sample.decodeBy Sample.requests) (Sample.encodeBy Sample.responses))
        (System.init ⟨4242, -1, 0⟩ ⟨0, []⟩ ()) Sample.moves = some s ∧
      s.finished.map (·.heard.any Except.isOk) = [true, true] ∧
      ∀ f ∈ s.finished, ∀ error, f.result = .error error → error.kind ≠ .protocol := by
  have hRequest := Sample.decodeBy_encodeBy Sample.requests
    (List.forall_mem_cons.mpr ⟨rfl, List.forall_mem_cons.mpr ⟨rfl, List.forall_mem_nil _⟩⟩)
  have hResponse := Sample.decodeBy_encodeBy Sample.responses
    (List.forall_mem_cons.mpr ⟨rfl, List.forall_mem_cons.mpr ⟨rfl, List.forall_mem_nil _⟩⟩)
  have hAgree := calls_agree Sample.plugin (Sample.decodeBy Sample.requests)
    (Sample.encodeBy Sample.responses) Sample.codec Sample.runtime hRequest hResponse
    (fun message => ⟨_, rfl, hRequest message⟩)
    (fun message => by
      change (Sample.decodeBy Sample.responses _).toOption = _
      rw [hResponse]
      rfl) ⟨0, []⟩ () Sample.moves
  constructor
  · have hRun : (run (System.step (RustClient.implementation Sample.codec) Sample.plugin
        (Sample.decodeBy Sample.requests) (Sample.encodeBy Sample.responses))
        (System.init ⟨0⟩ ⟨0, []⟩ ()) Sample.moves).map
          (fun s => s.finished.map (·.heard.any Except.isOk)) = some [true, true] := rfl
    obtain ⟨s, hRun, hFinished⟩ := Option.map_eq_some_iff.mp hRun
    exact ⟨s, hRun, hFinished, (hAgree.1 0 s hRun).2⟩
  · have hRun : (run (System.step (CppClient.implementation Sample.runtime) Sample.plugin
        (Sample.decodeBy Sample.requests) (Sample.encodeBy Sample.responses))
        (System.init ⟨4242, -1, 0⟩ ⟨0, []⟩ ()) Sample.moves).map
          (fun s => s.finished.map (·.heard.any Except.isOk)) = some [true, true] := rfl
    obtain ⟨s, hRun, hFinished⟩ := Option.map_eq_some_iff.mp hRun
    exact ⟨s, hRun, hFinished, (hAgree.2 4242 (-1) 0 s (by decide) hRun).2⟩

end OpenMso.Session
