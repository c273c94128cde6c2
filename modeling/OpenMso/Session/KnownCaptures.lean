import OpenMso.Server.Captures
import OpenMso.Session.Agreement

/-! # Events name captures that the frontend knows

The ids of captures are the frontend's to assign. A plugin hears of one in an
`AcquireStart`, so whichever of the two sockets is faster, an event can only be
about a capture that the frontend has asked for.
-/

namespace OpenMso.Session

open Foundation Foundation.Runs Client Server Proto

set_option autoImplicit false

/-- The capture that an event is about. -/
def captureOf : Event → Option UInt64
  | .captureBegin captureId => some captureId
  | .acquisitionBegin captureId _ => some captureId
  | .data data => some data.captureId
  | .trigger captureId _ => some captureId
  | .acquisitionEnd captureId _ => some captureId
  | .captureEnd ended => some ended.captureId
  | .status _ _ | .log _ _ | .deviceLost _ => none

section
variable {Config Description : Type}

def enqueued : Entry Config Description → Option Event
  | .enqueued _ event => some event
  | _ => none

/-- What was pushed on the event stream, the oldest first. -/
def streamOf (log : Log Config Description) : List Event := log.reverse.filterMap enqueued

/-- The plugin has been asked for this capture. -/
def Told (log : Log Config Description) (captureId : UInt64) : Prop :=
  ∃ mode, .entered (.acquireStart ⟨captureId, mode⟩) ∈ log

/-- Each event that a thread began to push was about a capture that the plugin had been asked
for. -/
def Honest : Log Config Description → Prop
  | [] => True
  | .begun _ event :: log =>
    (∀ captureId, captureOf event = some captureId → Told log captureId) ∧ Honest log
  | _ :: log => Honest log

theorem Honest.told {newer older : Log Config Description} {push : Nat} {event : Event}
    (h : Honest (newer ++ .begun push event :: older)) {captureId : UInt64}
    (hCapture : captureOf event = some captureId) : Told older captureId := by
  induction newer with
  | nil => exact h.1 captureId hCapture
  | cons entry newer ih =>
    cases entry with
    | begun other otherEvent => exact ih h.2
    | _ => exact ih h

theorem honest_of_not_push {log : Log Config Description}
    (h : ∀ entry ∈ log, entry.isPush = false) : Honest log := by
  induction log with
  | nil => trivial
  | cons entry log ih =>
    obtain ⟨hEntry, hLog⟩ := List.forall_mem_cons.mp h
    cases entry with
    | begun push event => cases hEntry
    | _ => exact ih hLog

theorem mem_streamOf_iff {log : Log Config Description} {event : Event} :
    event ∈ streamOf log ↔ ∃ push, .enqueued push event ∈ log := by
  rw [streamOf, List.mem_filterMap]
  constructor
  · rintro ⟨entry, hMem, hEvent⟩
    cases entry with
    | enqueued push other =>
      cases hEvent
      exact ⟨push, List.mem_reverse.mp hMem⟩
    | _ => cases hEvent
  · rintro ⟨push, hMem⟩
    exact ⟨_, List.mem_reverse.mpr hMem, rfl⟩

theorem streamOf_append (newer older : Log Config Description) :
    streamOf (newer ++ older) = streamOf older ++ streamOf newer := by
  rw [streamOf, List.reverse_append, List.filterMap_append]
  rfl

theorem streamOf_cons (entry : Entry Config Description) (log : Log Config Description) :
    streamOf (entry :: log) = streamOf log ++ (enqueued entry).toList := by
  rw [streamOf, List.reverse_cons, List.filterMap_append]
  cases hEntry : enqueued entry <;> simp [streamOf, hEntry]

theorem streamOf_of_not_push {newer : Log Config Description}
    (h : ∀ entry ∈ newer, entry.isPush = false) : streamOf newer = [] := by
  refine List.eq_nil_iff_forall_not_mem.mpr fun event hMem => ?_
  obtain ⟨push, hMem⟩ := mem_streamOf_iff.mp hMem
  cases h _ hMem

end

section
variable {Config Description σ : Type} [Inhabited Config]
  {plugin : CaptureServer Config Description σ}
  {decode : List UInt8 → Except String (Request Config)} {s t : Process Config Description σ}
  {action : Action σ}

omit [Inhabited Config] in
theorem socket_perform {op : Server.Op Config Description} {answer : op.Answer}
    (h : s.perform plugin decode op action = some (answer, t)) :
    t.events.socket = s.events.socket := by
  cases op with
  | recv =>
    cases action with
    | receive incoming =>
      cases h
      rcases noteReceived_cases s (Transport.decoded decode incoming) with hSame | ⟨message, hNote⟩
      · rw [hSame]
      · rw [hNote]
        rfl
    | _ => cases h
  | send response =>
    cases action with
    | reply failure => cases failure <;> cases h <;> rfl
    | _ => cases h
  | _ =>
    cases action with
    | act =>
      cases h
      rfl
    | _ => cases h

/-- The socket has what the log says, and in this order. -/
theorem delivered_step {before : List Event}
    (h : s.events.socket.delivered = before ++ streamOf s.log)
    (hStep : s.step plugin decode action = some t) :
    t.events.socket.delivered = before ++ streamOf t.log := by
  cases hControl : action.isControl with
  | true =>
    obtain ⟨op, next, answer, u, -, hPerform, rfl⟩ := step_control hControl hStep
    obtain ⟨-, newer, hNewer, hLog, -⟩ := perform_notes hPerform
    change u.events.socket.delivered = before ++ streamOf u.log
    rw [socket_perform hPerform, h, hLog, streamOf_append, streamOf_of_not_push hNewer,
      List.append_nil]
  | false =>
    cases action with
    | begin event =>
      cases hStep
      change (s.events.noteEnd event).socket.delivered = before ++ streamOf (.begun _ _ :: s.log)
      rw [Events.socket_noteEnd, streamOf_cons, h]
      exact congrArg _ (List.append_nil _).symm
    | finish push failure =>
      rw [Process.step] at hStep
      split at hStep
      · cases hStep
      · cases failure with
        | some e =>
          cases hStep
          exact h
        | none =>
          cases hStep
          change s.events.socket.delivered ++ [_] = before ++ streamOf (.enqueued _ _ :: s.log)
          rw [streamOf_cons, h, List.append_assoc]
          rfl
    | tamper state =>
      cases hStep
      exact h
    | _ => cases hControl

end

/-! ## The ids that a frontend draws -/

/-- The counter is moved on, and is the id. -/
def nextCaptureId (build : Machine.Build) (captureId : UInt64) : Machine.Call Error UInt64 :=
  Machine.addU64 build captureId 1

/-- Drawing so many ids one after the other. -/
def drawIds (build : Machine.Build) (captureId : UInt64) : Nat → Machine.Call Error (List UInt64)
  | 0 => .ok []
  | n + 1 => do
    let captureId ← nextCaptureId build captureId
    let ids ← drawIds build captureId n
    return captureId :: ids

theorem drawIds_fresh {build : Machine.Build} {captureId : UInt64} {n : Nat} {ids : List UInt64}
    (h : drawIds build captureId n = .ok ids) (hWord : captureId.toNat + n < 2 ^ 64) :
    (∀ id ∈ ids, captureId.toNat < id.toNat) ∧ ids.Nodup := by
  induction n generalizing captureId ids with
  | zero =>
    cases h
    exact ⟨List.forall_mem_nil _, List.nodup_nil⟩
  | succ n ih =>
    have hNext : (captureId + 1).toNat = captureId.toNat + 1 := by
      rw [UInt64.toNat_add]
      exact Nat.mod_eq_of_lt (by change captureId.toNat + 1 < _; omega)
    obtain ⟨next, hDraw, h⟩ := Machine.bind_eq_ok_iff.mp h
    obtain rfl : captureId + 1 = next := by
      have hAdd : nextCaptureId build captureId = .ok (captureId + 1) :=
        Machine.addU64_of_lt build (by change captureId.toNat + 1 < _; omega)
      exact Except.ok.inj (hAdd.symm.trans hDraw)
    obtain ⟨rest, hRest, hIds⟩ := Machine.bind_eq_ok_iff.mp h
    cases hIds
    obtain ⟨hAbove, hNodup⟩ := ih hRest (by omega)
    refine ⟨List.forall_mem_cons.mpr ⟨by omega, fun id hId => ?_⟩,
      List.nodup_cons.mpr ⟨fun hMem => Nat.lt_irrefl _ (hAbove _ hMem), hNodup⟩⟩
    have hLater := hAbove id hId
    omega

/-- The capture that a call starts. -/
def startOf {Config : Type} : Call Config → Option UInt64
  | .acquireStart captureId _ => some captureId
  | _ => none

/-- Captures are started under ids that were drawn for them, in this order; the latest call is
the first. -/
def Draws {Config : Type} (calls : List (Call Config)) : Prop :=
  ∃ build n ids, n < 2 ^ 64 ∧ drawIds build 0 n = .ok ids ∧
    (calls.filterMap startOf).reverse.Sublist ids

theorem Draws.nodup {Config : Type} {calls : List (Call Config)} (h : Draws calls) :
    (calls.filterMap startOf).Nodup := by
  obtain ⟨build, n, ids, hWord, hDraw, hStarts⟩ := h
  have hFresh := drawIds_fresh hDraw (by change 0 + n < _; omega)
  exact List.nodup_reverse.mp (hStarts.nodup hFresh.2)

theorem Draws.count_eq_one {Config : Type} {calls : List (Call Config)} {captureId : UInt64}
    {mode : AcquireMode} (h : Draws calls) (hMem : .acquireStart captureId mode ∈ calls) :
    (calls.filterMap startOf).count captureId = 1 :=
  List.count_eq_one_of_mem h.nodup (List.mem_filterMap.mpr ⟨_, hMem, rfl⟩)

/-! ## Where a request comes from -/

section
variable {Config Description κ ε σ : Type}

/-- The calls that the frontend has made, the latest first. -/
def System.made (s : System Config Description κ ε σ) : List (Call Config) :=
  (s.underway.map Underway.call).toList ++ s.finished.map Finished.call

theorem System.made_proceed (s : System Config Description κ ε σ) (call : Call Config)
    (program : Program Client.Op Client.Op.Answer (Except ε (call.Result Description) × κ))
    (ticket : Option Nat) (heard : Option (Except Failure (Origin Config Description))) :
    (s.proceed call program ticket heard).made = call :: s.finished.map Finished.call := by
  cases program <;> rfl

theorem System.made_of_underway {s : System Config Description κ ε σ}
    {u : Underway Config Description κ ε} (h : s.underway = some u) :
    s.made = u.call :: s.finished.map Finished.call := by
  rw [made, h]
  rfl

theorem System.requests_proceed (s : System Config Description κ ε σ) (call : Call Config)
    (program : Program Client.Op Client.Op.Answer (Except ε (call.Result Description) × κ))
    (ticket : Option Nat) (heard : Option (Except Failure (Origin Config Description))) :
    (s.proceed call program ticket heard).requests = s.requests := by
  cases program <;> rfl

theorem System.server_proceed (s : System Config Description κ ε σ) (call : Call Config)
    (program : Program Client.Op Client.Op.Answer (Except ε (call.Result Description) × κ))
    (ticket : Option Nat) (heard : Option (Except Failure (Origin Config Description))) :
    (s.proceed call program ticket heard).server = s.server := by
  cases program <;> rfl

/-- One of these calls makes the request. -/
def Of (calls : List (Call Config)) (request : Request Config) : Prop :=
  ∃ call ∈ calls, ∃ seq, request = ⟨seq, some (arm call)⟩

variable (decode : List UInt8 → Except String (Request Config))

/-- What is on its way to the plugin and what the plugin has received, the frontend has sent. -/
structure Traced (s : System Config Description κ ε σ) : Prop where
  requests : ∀ sent ∈ s.requests, ∃ request, decode sent.2 = .ok request ∧ Of s.made request
  received : ∀ request greeted running,
    .received (.ok request) greeted running ∈ s.server.log → Of s.made request

end

section
variable {Config Description κ ε σ : Type} [Inhabited Config] {dialect : Dialect κ ε}
  {implementation : Implementation Config Description κ ε}
  {plugin : CaptureServer Config Description σ}
  {decode : List UInt8 → Except String (Request Config)}
  {encode : Response Config Description → List UInt8} {s t : System Config Description κ ε σ}

omit [Inhabited Config] in
theorem Of.mono {calls more : List (Call Config)} {request : Request Config}
    (h : Of calls request) (hMore : ∀ call ∈ calls, call ∈ more) : Of more request := by
  obtain ⟨call, hMem, hRequest⟩ := h
  exact ⟨call, hMore call hMem, hRequest⟩

omit [Inhabited Config] in
theorem Traced.mono (h : Traced decode s) (hMade : ∀ call ∈ s.made, call ∈ t.made)
    (hRequests : ∀ sent ∈ t.requests, sent ∈ s.requests ∨
      ∃ request, decode sent.2 = .ok request ∧ Of t.made request)
    (hLog : ∀ request greeted running, .received (.ok request) greeted running ∈ t.server.log →
      .received (.ok request) greeted running ∈ s.server.log ∨ Of t.made request) :
    Traced decode t := by
  constructor
  · intro sent hSent
    rcases hRequests sent hSent with hOld | hNew
    · obtain ⟨request, hDecode, hOf⟩ := h.requests sent hOld
      exact ⟨request, hDecode, hOf.mono hMade⟩
    · exact hNew
  · intro request greeted running hReceived
    rcases hLog request greeted running hReceived with hOld | hNew
    · exact (h.received request greeted running hOld).mono hMade
    · exact hNew

omit [Inhabited Config] in
/-- The call under way goes on. -/
theorem Traced.proceed (h : Traced decode s) {u : Underway Config Description κ ε}
    (hUnderway : s.underway = some u)
    (program : Program Client.Op Client.Op.Answer (Except ε (u.call.Result Description) × κ))
    (ticket : Option Nat) (heard : Option (Except Failure (Origin Config Description))) :
    Traced decode (s.proceed u.call program ticket heard) := by
  have hMade : (s.proceed u.call program ticket heard).made = s.made :=
    (s.made_proceed ..).trans (System.made_of_underway hUnderway).symm
  refine h.mono (fun call hCall => hMade ▸ hCall) (fun sent hSent => .inl ?_)
    fun request greeted running hLog => .inl ?_
  · rwa [System.requests_proceed] at hSent
  · rwa [System.server_proceed] at hLog

theorem Traced.send {failure : Option NngError} (hSound : Sound dialect decode encode s)
    (h : Traced decode s)
    (hStep : s.step implementation plugin decode encode (.send failure) = some t) :
    Traced decode t := by
  unfold System.step at hStep
  dsimp only at hStep
  split at hStep
  · next call bytes rest ticket heard e hUnderway =>
    cases hStep
    exact h.proceed hUnderway ..
  · next call bytes rest ticket heard hUnderway =>
    obtain ⟨-, hStands⟩ := hSound.underway _ hUnderway
    cases hStep
    cases hStands with
    | asking _ _ seq hConverses =>
      obtain ⟨bytes', next, hProgram, hDecode, -⟩ := hConverses
      cases hProgram
      have hMade := System.made_of_underway hUnderway
      have hSent : Traced decode
          { s with tickets := s.tickets + 1, requests := s.requests ++ [(s.tickets, bytes)] } := by
        refine h.mono (fun _ hCall => hCall) (fun sent hMem => ?_) fun _ _ _ hLog => .inl hLog
        rcases List.mem_append.mp hMem with hOld | hNew
        · exact .inl hOld
        · cases List.mem_singleton.mp hNew
          exact .inr ⟨_, hDecode, call, hMade ▸ List.mem_cons_self, seq, rfl⟩
      exact hSent.proceed hUnderway ..
    | ending _ _ _ _ _ hReaping => cases hReaping
  · cases hStep

omit [Inhabited Config] in
theorem Traced.withdraw (h : Traced decode s) (keeps : Nat × List UInt8 → Bool) :
    Traced decode { s with requests := s.requests.filter keeps } :=
  ⟨fun sent hMem => h.requests sent (List.mem_filter.mp hMem).1, h.received⟩

theorem Traced.recv {failure : Option NngError} (h : Traced decode s)
    (hStep : s.step implementation plugin decode encode (.recv failure) = some t) :
    Traced decode t := by
  unfold System.step at hStep
  dsimp only at hStep
  split at hStep
  · next call receive ticket heard e hUnderway =>
    cases hStep
    exact h.proceed hUnderway ..
  · next call receive ticket heard hUnderway =>
    obtain ⟨parcel, -, rfl⟩ := Option.map_eq_some_iff.mp hStep
    have hTaken : Traced decode { s with replies := s.replies.filter (·.ticket != ticket) } :=
      ⟨h.requests, h.received⟩
    exact hTaken.proceed hUnderway ..
  · cases hStep

theorem Traced.reap (h : Traced decode s)
    (hStep : s.step implementation plugin decode encode .reap = some t) : Traced decode t := by
  unfold System.step at hStep
  dsimp only at hStep
  split at hStep
  · next call rest ticket heard hUnderway =>
    cases hStep
    exact h.proceed hUnderway ..
  · next call rest ticket heard hUnderway =>
    cases hStep
    exact h.proceed hUnderway ..
  · next call rest ticket heard hUnderway =>
    cases hStep
    exact h.proceed hUnderway ..
  · cases hStep

theorem Traced.deliver (h : Traced decode s)
    (hStep : s.step implementation plugin decode encode .deliver = some t) : Traced decode t := by
  unfold System.step at hStep
  dsimp only at hStep
  split at hStep
  · cases hStep
  · next ticket bytes requests hRequests =>
    obtain ⟨server, hServer, rfl⟩ := Option.map_eq_some_iff.mp hStep
    obtain ⟨request, hDecode, hOf⟩ := h.requests _ (hRequests ▸ List.mem_cons_self)
    refine h.mono (fun _ hCall => hCall) (fun sent hSent => .inl ?_) ?_
    · rw [hRequests]
      exact List.mem_cons_of_mem _ hSent
    · intro other greeted running hLog
      change _ ∈ server.log at hLog
      rw [log_step_of_receive hDecode hServer] at hLog
      rcases List.mem_cons.mp hLog with hNew | hOld
      · cases hNew
        exact .inr hOf
      · exact .inl hOld

theorem Traced.reply (h : Traced decode s)
    (hStep : s.step implementation plugin decode encode .reply = some t) : Traced decode t := by
  unfold System.step at hStep
  dsimp only at hStep
  split at hStep
  · next ticket response next exchange hServing hControl hPending =>
    obtain ⟨server, hServer, rfl⟩ := Option.map_eq_some_iff.mp hStep
    refine h.mono (fun _ hCall => hCall) (fun sent hSent => .inl hSent) ?_
    intro other greeted running hLog
    change _ ∈ server.log at hLog
    rw [log_step_of_reply hControl hServer] at hLog
    rcases List.mem_cons.mp hLog with hNew | hOld
    · cases hNew
    · exact .inl hOld
  · cases hStep

theorem Traced.server {action : Action σ} (h : Traced decode s)
    (hStep : s.step implementation plugin decode encode (.server action) = some t) :
    Traced decode t := by
  unfold System.step at hStep
  dsimp only at hStep
  split at hStep
  · cases hStep
  · next hCrosses =>
    obtain ⟨server, hServer, rfl⟩ := Option.map_eq_some_iff.mp hStep
    obtain ⟨newer, hNewer, hQuiet⟩ := log_step_of_not_crosses (by simpa using hCrosses) hServer
    refine h.mono (fun _ hCall => hCall) (fun sent hSent => .inl hSent) ?_
    intro other greeted running hLog
    change _ ∈ server.log at hLog
    rw [hNewer] at hLog
    rcases List.mem_append.mp hLog with hNew | hOld
    · cases hQuiet _ hNew
    · exact .inl hOld

theorem Traced.step {move : Move Config σ} (hSound : Sound dialect decode encode s)
    (h : Traced decode s) (hStep : s.step implementation plugin decode encode move = some t) :
    Traced decode t := by
  cases move with
  | call call =>
    rw [System.step] at hStep
    split at hStep
    · cases hStep
    · next hIdle =>
      simp only [Bool.or_eq_true, not_or, Bool.not_eq_true, Option.isSome_eq_false_iff,
        Option.isNone_iff_eq_none] at hIdle
      cases hStep
      refine h.mono (fun other hMem => ?_) (fun sent hSent => .inl ?_)
        fun request greeted running hLog => .inl ?_
      · rw [System.made, hIdle.1] at hMem
        rw [System.made_proceed]
        exact List.mem_cons_of_mem _ hMem
      · rwa [System.requests_proceed] at hSent
      · rwa [System.server_proceed] at hLog
  | send failure => exact h.send hSound hStep
  | recv failure => exact h.recv hStep
  | reap => exact h.reap hStep
  | withdraw ticket =>
    unfold System.step at hStep
    dsimp only at hStep
    split at hStep
    · cases hStep
    · cases hStep
      exact h.withdraw _
  | deliver => exact h.deliver hStep
  | reply => exact h.reply hStep
  | server action => exact h.server hStep

/-- Only what happens to the plugin process changes it. -/
theorem server_of_step {move : Move Config σ}
    (hStep : s.step implementation plugin decode encode move = some t) :
    t.server = s.server ∨ ∃ action, s.server.step plugin decode action = some t.server := by
  cases move with
  | call call =>
    rw [System.step] at hStep
    split at hStep
    · cases hStep
    · cases hStep
      exact .inl (System.server_proceed ..)
  | send failure =>
    unfold System.step at hStep
    dsimp only at hStep
    split at hStep
    · cases hStep
      exact .inl (System.server_proceed ..)
    · cases hStep
      exact .inl (System.server_proceed ..)
    · cases hStep
  | recv failure =>
    unfold System.step at hStep
    dsimp only at hStep
    split at hStep
    · cases hStep
      exact .inl (System.server_proceed ..)
    · obtain ⟨parcel, -, rfl⟩ := Option.map_eq_some_iff.mp hStep
      exact .inl (System.server_proceed ..)
    · cases hStep
  | reap =>
    unfold System.step at hStep
    dsimp only at hStep
    split at hStep
    · cases hStep
      exact .inl (System.server_proceed ..)
    · cases hStep
      exact .inl (System.server_proceed ..)
    · cases hStep
      exact .inl (System.server_proceed ..)
    · cases hStep
  | withdraw ticket =>
    unfold System.step at hStep
    dsimp only at hStep
    split at hStep
    · cases hStep
    · cases hStep
      exact .inl rfl
  | deliver =>
    unfold System.step at hStep
    dsimp only at hStep
    split at hStep
    · cases hStep
    · obtain ⟨server, hServer, rfl⟩ := Option.map_eq_some_iff.mp hStep
      exact .inr ⟨_, hServer⟩
  | reply =>
    unfold System.step at hStep
    dsimp only at hStep
    split at hStep
    · obtain ⟨server, hServer, rfl⟩ := Option.map_eq_some_iff.mp hStep
      exact .inr ⟨_, hServer⟩
    · cases hStep
  | server action =>
    unfold System.step at hStep
    dsimp only at hStep
    split at hStep
    · cases hStep
    · obtain ⟨server, hServer, rfl⟩ := Option.map_eq_some_iff.mp hStep
      exact .inr ⟨_, hServer⟩

/-- A handler is entered for a request that the frontend has made. -/
theorem Traced.told (h : Traced decode s) (hOrderly : Orderly s.server.log) {captureId : UInt64}
    (hTold : Told s.server.log captureId) : ∃ mode, .acquireStart captureId mode ∈ s.made := by
  obtain ⟨mode, hMem⟩ := hTold
  obtain ⟨newer, older, hLog⟩ := List.append_of_mem hMem
  rw [hLog] at hOrderly
  rcases hOrderly.allowed with ⟨seq, arm', hHandler, -, x, hx, hMessage, -⟩ | ⟨hHandler, -⟩
  · obtain ⟨oldest, hOlder⟩ := exists_received hx
    rw [hMessage] at hOlder
    obtain ⟨call, hCall, seq', hRequest⟩ := h.received ⟨seq, some arm'⟩ x.greeted x.running (by
      rw [hLog, hOlder]
      simp)
    cases arm' with
    | acquireStart args =>
      cases hHandler
      cases call with
      | acquireStart id mode' =>
        cases hRequest
        exact ⟨mode', hCall⟩
      | _ => cases hRequest
    | _ => cases hHandler
  · cases hHandler

/-- The stream has gone on with events only about captures that the frontend has asked for; each
belongs to one call if the frontend draws its ids. -/
def Known (s : System Config Description κ ε σ) (before : List Event) : Prop :=
  ∃ new, s.server.events.socket.delivered = before ++ new ∧
    ∀ event ∈ new, ∀ captureId, captureOf event = some captureId →
      (∃ mode, .acquireStart captureId mode ∈ s.made) ∧
        (Draws s.made → (s.made.filterMap startOf).count captureId = 1)

theorem known_of_run (hSpeaks : Speaks dialect implementation decode encode) {client : κ}
    (hReady : dialect.ready client) {socket : Transport.Socket Event} {state : σ}
    {moves : List (Move Config σ)}
    (hRun : run (System.step implementation plugin decode encode)
      (System.init client socket state) moves = some s)
    (hHonest : Honest s.server.log) : Known s socket.delivered := by
  have hInit : Traced decode (System.init client socket state : System Config Description κ ε σ) :=
    ⟨List.forall_mem_nil _, fun _ _ _ hMem => absurd hMem List.not_mem_nil⟩
  obtain ⟨hSound, hTraced, hStream⟩ := run_invariant
    (fun s => Sound dialect decode encode s ∧ Traced decode s ∧
      s.server.events.socket.delivered = socket.delivered ++ streamOf s.server.log)
    (fun {u v move} ⟨hSound, hTraced, hStream⟩ hStep => by
      refine ⟨hSound.step hSpeaks hStep, hTraced.step hSound hStep, ?_⟩
      rcases server_of_step hStep with hSame | ⟨action, hServer⟩
      · rw [hSame]
        exact hStream
      · exact delivered_step hStream hServer)
    ⟨sound_init hReady socket state, hInit, (List.append_nil _).symm⟩ hRun
  refine ⟨streamOf s.server.log, hStream, fun event hMem captureId hCapture => ?_⟩
  have hOrderly := hSound.posted.server.orderly
  suffices hTold : Told s.server.log captureId by
    obtain ⟨mode, hMade⟩ := hTraced.told hOrderly hTold
    exact ⟨⟨mode, hMade⟩, fun hDraws => hDraws.count_eq_one hMade⟩
  obtain ⟨push, hEnqueued⟩ := mem_streamOf_iff.mp hMem
  obtain ⟨newer, older, hLog⟩ := List.append_of_mem hEnqueued
  have hBegun : .begun push event ∈ older := by
    rw [hLog] at hOrderly
    exact hOrderly.allowed
  obtain ⟨between, oldest, rfl⟩ := List.append_of_mem hBegun
  rw [hLog, ← List.cons_append, ← List.append_assoc] at hHonest
  obtain ⟨mode, hTold⟩ := hHonest.told hCapture
  refine ⟨mode, ?_⟩
  rw [hLog]
  simp [hTold]

end

/-- For both clients, and whichever of the two sockets is faster: if a plugin pushes events only
about captures that it has been asked for, the frontend has asked for every capture that an
event on the stream is about, and one call tells which it is. -/
theorem events_name_known_captures {Config Description σ : Type} [Inhabited Config]
    (plugin : CaptureServer Config Description σ)
    (decode : List UInt8 → Except String (Request Config))
    (encode : Response Config Description → List UInt8) (codec : Codec Config Description)
    (runtime : Cpp.Client.Runtime Config Description)
    (hRequest : ∀ message, decode (codec.encode message) = .ok message)
    (hResponse : ∀ message, codec.decode (encode message) = .ok message)
    (hCppRequest : ∀ message, ∃ bytes, runtime.serializeToString message = some bytes ∧
      decode bytes = .ok message)
    (hCppResponse : ∀ message, runtime.parseFromArray (encode message) = some message)
    (socket : Transport.Socket Event) (state : σ) (moves : List (Move Config σ)) :
    (∀ seq s, run (System.step (RustClient.implementation codec) plugin decode encode)
        (System.init ⟨seq⟩ socket state) moves = some s →
      Honest s.server.log → Known s socket.delivered) ∧
    ∀ pid stdinFd seq s, 0 < pid →
      run (System.step (CppClient.implementation runtime) plugin decode encode)
        (System.init ⟨pid, stdinFd, seq⟩ socket state) moves = some s →
      Honest s.server.log → Known s socket.delivered := by
  constructor
  · intro seq s hRun
    exact known_of_run (RustClient.speaks hRequest hResponse) trivial hRun
  · intro pid stdinFd seq s hPid hRun
    exact known_of_run (CppClient.speaks hCppRequest hCppResponse)
      (show (CppClient.dialect runtime).ready ⟨pid, stdinFd, seq⟩ from hPid) hRun

namespace EarlyBegin

def requests : List (Request Unit × List UInt8) :=
  Sample.requests.take 1 ++
    [(⟨2, some (arm (.acquireStart 1 .single))⟩, [0x08, 2, 0x72, 4, 0x08, 1, 0x10, 1])]

def responses : List (Response Unit Unit × List UInt8) := Sample.responses.take 1

noncomputable def codec : Codec Unit Unit :=
  ⟨Sample.encodeBy requests, Sample.decodeBy responses⟩

noncomputable def runtime : Cpp.Client.Runtime Unit Unit where
  serializeToString message := some (Sample.encodeBy requests message)
  parseFromArray bytes := (Sample.decodeBy responses bytes).toOption
  strerror _ := "Timed out"

/-- The capture begins before the reply to its `AcquireStart` is sent. -/
def moves : List (Move Unit Unit) :=
  [.call (.hello "scope" "0.1"), .send none, .deliver, .server .act, .server .act, .server .act,
    .server .act, .reply, .recv none, .call (.acquireStart 1 .single), .send none, .deliver,
    .server .act, .server .act, .server .act, .server .act, .server (.begin (.captureBegin 1)),
    .server (.finish 0 none)]

end EarlyBegin

open EarlyBegin in
theorem events_name_known_captures_early_begin :
    ∃ s, run (System.step (RustClient.implementation codec) Sample.plugin
        (Sample.decodeBy requests) (Sample.encodeBy responses))
        (System.init ⟨0⟩ ⟨0, []⟩ ()) moves = some s ∧
      s.server.events.socket.delivered = [.captureBegin 1] ∧
      (∃ mode, .acquireStart 1 mode ∈ s.made) ∧ (s.made.filterMap startOf).count 1 = 1 := by
  have hRequest := Sample.decodeBy_encodeBy requests
    (List.forall_mem_cons.mpr ⟨rfl, List.forall_mem_cons.mpr ⟨rfl, List.forall_mem_nil _⟩⟩)
  have hResponse := Sample.decodeBy_encodeBy responses
    (List.forall_mem_cons.mpr ⟨rfl, List.forall_mem_nil _⟩)
  have hKnown := events_name_known_captures Sample.plugin (Sample.decodeBy requests)
    (Sample.encodeBy responses) codec runtime hRequest hResponse
    (fun message => ⟨_, rfl, hRequest message⟩)
    (fun message => by
      change (Sample.decodeBy responses _).toOption = _
      rw [hResponse]
      rfl) ⟨0, []⟩ () moves
  have hStream : (run (System.step (RustClient.implementation codec) Sample.plugin
      (Sample.decodeBy requests) (Sample.encodeBy responses))
      (System.init ⟨0⟩ ⟨0, []⟩ ()) moves).map
        (fun s => (s.server.events.socket.delivered, s.made.filterMap startOf,
          s.server.log.take 3, (s.server.log.drop 3).all (!·.isPush))) =
      some ([.captureBegin 1], [1], [.enqueued 0 (.captureBegin 1), .begun 0 (.captureBegin 1),
        .entered (.acquireStart ⟨1, 1⟩)], true) := rfl
  obtain ⟨s, hRun, hEnds⟩ := Option.map_eq_some_iff.mp hStream
  simp only [Prod.mk.injEq] at hEnds
  obtain ⟨hDelivered, hStarts, hRecent, hOlder⟩ := hEnds
  have hHonest : Honest s.server.log := by
    rw [← List.take_append_drop 3 s.server.log, hRecent]
    refine ⟨?_, honest_of_not_push (List.forall_mem_cons.mpr ⟨rfl, by simpa using hOlder⟩)⟩
    rintro captureId ⟨⟩
    exact ⟨_, List.mem_cons_self⟩
  obtain ⟨new, hNew, hAsked⟩ := hKnown.1 0 s hRun hHonest
  rw [List.nil_append, hDelivered] at hNew
  obtain ⟨hMade, hOnce⟩ := hAsked _ (hNew ▸ List.mem_singleton_self _) 1 rfl
  refine ⟨s, hRun, hDelivered, hMade, hOnce ⟨.optimised, 1, [1], by decide, rfl, ?_⟩⟩
  rw [hStarts]
  exact List.Sublist.refl _

end OpenMso.Session
