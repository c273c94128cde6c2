import OpenMso.Server.EncodingChoice

/-! # When a stream sender panics

The constructor lets every positive unit size through. One above `MAX_PAYLOAD`
leaves no room for a whole sample in a chunk, so that the size the buffer is
cut by comes out as zero.
-/

namespace OpenMso.Server

open Foundation.Machine Foundation.Chunks Encoding Transport Proto

set_option autoImplicit false

/-- What `send` cuts a buffer by. -/
def chunkSize (unitsize : Nat) : Nat := maxPayload - maxPayload % unitsize

theorem chunkSize_pos_iff {unitsize : Nat} (hUnit : 0 < unitsize) :
    0 < chunkSize unitsize ↔ unitsize ≤ maxPayload := by
  constructor
  · intro h
    by_contra hLarge
    rw [chunkSize, Nat.mod_eq_of_lt (by omega), Nat.sub_self] at h
    omega
  · exact pos_chunk hUnit

namespace StreamSender

/-- No step of a call reaches a panic. -/
structure PanicFree (build : Build) (sender : StreamSender) (packed : List UInt8) : Prop where
  divisor : sender.unitsize ≠ 0
  difference : maxPayload % sender.unitsize ≤ maxPayload
  chunk_pos : 0 < chunkSize sender.unitsize
  chunk_multiple : sender.unitsize ∣ chunkSize sender.unitsize
  encodes : ∀ part ∈ chunks (chunkSize sender.unitsize) packed,
    ∃ payload, sender.encodePart build part = .ok payload
  returns : ∀ link events message,
    (sender.send build link events packed).1 ≠ .error (.panic message)

theorem exists_encodePart (build : Build) (sender : StreamSender) {part : List UInt8}
    (h : part.length ≤ maxPayload) : ∃ payload, sender.encodePart build part = .ok payload := by
  have hMax : maxPayload < 2 ^ 64 := by decide
  rw [encodePart]
  split
  · exact ⟨_, encodeTransition_eq build sender.unitsize_pos (.inr (by omega))⟩
  · exact ⟨part, rfl⟩

section
variable {build : Build} {sender : StreamSender} {link : Link} {events : Events}
  {part payload : List UInt8}

theorem sendPart_of_some (hEncode : sender.encodePart build part = .ok payload) {e : NngError}
    (hLink : link events.socket.attempts = some e) :
    (sender.sendPart build link events part).1 = raise (.nng e) := by
  rw [sendPart, hEncode]
  dsimp only
  rw [Events.send_data_of_some hLink]

theorem sendPart_of_none (hEncode : sender.encodePart build part = .ok payload)
    (hLink : link events.socket.attempts = none) :
    ∃ after, sender.sendPart build link events part =
      sender.advance build after (UInt64.ofNat (part.length / sender.unitsize)) := by
  rw [sendPart, hEncode]
  dsimp only
  rw [Events.send_data_of_none hLink]
  exact ⟨_, rfl⟩

end

/-- Both counters have room for these pieces. -/
def RoomFor (build : Build) (sender : StreamSender) (parts : List (List UInt8)) : Prop :=
  HasRoom build sender.seq parts.length ∧
    HasRoom build sender.firstSample (parts.map fun part => part.length / sender.unitsize).sum

/-- The sender when a chunk of `samples` has gone out. -/
def moved (sender : StreamSender) (samples : UInt64) : StreamSender :=
  { sender with seq := sender.seq + 1, firstSample := sender.firstSample + samples }

theorem toNat_sampleCount {part : List UInt8} (sender : StreamSender)
    (h : part.length ≤ maxPayload) :
    (UInt64.ofNat (part.length / sender.unitsize)).toNat = part.length / sender.unitsize := by
  have hMax : maxPayload < 2 ^ 64 := by decide
  have hDiv := Nat.div_le_self part.length sender.unitsize
  rw [UInt64.toNat_ofNat', Nat.mod_eq_of_lt (by omega)]

/-- A chunk moves the counters on if they have room for it, and panics if not. -/
theorem advance_cases (build : Build) (sender : StreamSender) (events : Events)
    {part : List UInt8} (hPart : part.length ≤ maxPayload) (todo : List (List UInt8)) :
    (sender.advance build events (UInt64.ofNat (part.length / sender.unitsize)) =
        (.ok (), sender.moved (UInt64.ofNat (part.length / sender.unitsize)), events) ∧
      ((sender.moved (UInt64.ofNat (part.length / sender.unitsize))).RoomFor build todo ↔
        sender.RoomFor build (part :: todo))) ∨
    ((∃ message, (sender.advance build events
        (UInt64.ofNat (part.length / sender.unitsize))).1 = .error (.panic message)) ∧
      ¬ sender.RoomFor build (part :: todo)) := by
  have hCount := toNat_sampleCount sender hPart
  have hOne : (1 : UInt64).toNat = 1 := rfl
  rw [RoomFor, RoomFor, List.map_cons, List.sum_cons, List.length_cons, Nat.add_comm todo.length]
  by_cases hSeq : HasRoom build sender.seq 1
  · by_cases hFirst : HasRoom build sender.firstSample (part.length / sender.unitsize)
    · rw [← hCount] at hFirst
      refine .inl ⟨?_, ?_⟩
      · exact advance_of_ok (addU64_of_hasRoom hSeq) (addU64_of_hasRoom hFirst) events
      · have hSeqIff := hasRoom_add_iff (n := todo.length) (hOne ▸ hSeq)
        rw [hOne] at hSeqIff
        have hFirstIff := hasRoom_add_iff (n := (todo.map fun part =>
          part.length / sender.unitsize).sum) hFirst
        rw [hCount] at hFirstIff
        exact and_congr hSeqIff hFirstIff
    · refine .inr ⟨⟨"attempt to add with overflow", ?_⟩, fun h => hFirst (h.2.mono (Nat.le_add_right _ _))⟩
      rw [← hCount] at hFirst
      exact congrArg (·.1) (advance_of_firstSample (addU64_of_hasRoom hSeq)
        (addU64_of_not_hasRoom hFirst) events)
  · refine .inr ⟨⟨"attempt to add with overflow", ?_⟩, fun h => hSeq (h.1.mono (Nat.le_add_right _ _))⟩
    exact congrArg (·.1) (advance_of_seq (addU64_of_not_hasRoom hSeq) events _)

theorem sendParts_ne_panic {build : Build} (link : Link) {todo : List (List UInt8)}
    (hTodo : ∀ part ∈ todo, part.length ≤ maxPayload) {sender : StreamSender} (events : Events)
    (h : sender.RoomFor build todo) (message : String) :
    (sender.sendParts build link events todo).1 ≠ .error (.panic message) := by
  induction todo generalizing sender events with
  | nil =>
    intro h
    cases h
  | cons part todo ih =>
    have hPart := hTodo part List.mem_cons_self
    obtain ⟨payload, hEncode⟩ := sender.exists_encodePart build hPart
    rw [sendParts]
    cases hLink : link events.socket.attempts with
    | some e =>
      have hFailed := sendPart_of_some hEncode hLink
      rcases hTurn : sender.sendPart build link events part with ⟨result, sender', after⟩
      rw [hTurn] at hFailed
      obtain rfl : result = raise (.nng e) := hFailed
      intro h
      cases h
    | none =>
      obtain ⟨after, hSent⟩ := sendPart_of_none hEncode hLink
      rw [hSent]
      rcases sender.advance_cases build after hPart todo with ⟨hMoved, hRoom⟩ | ⟨-, hFull⟩
      · rw [hMoved]
        exact ih (fun p hp => hTodo p (List.mem_cons_of_mem _ hp)) after (hRoom.mpr h)
      · exact absurd h hFull

/-- With nothing dropped on the way, the call comes to every piece. -/
theorem roomFor_of_sendParts {build : Build} (link : Link) (hLink : ∀ n, link n = none)
    {todo : List (List UInt8)} (hTodo : ∀ part ∈ todo, part.length ≤ maxPayload)
    {sender : StreamSender} {events : Events}
    (h : ∀ message, (sender.sendParts build link events todo).1 ≠ .error (.panic message)) :
    sender.RoomFor build todo := by
  induction todo generalizing sender events with
  | nil => exact ⟨.inr sender.seq.toNat_lt, .inr sender.firstSample.toNat_lt⟩
  | cons part todo ih =>
    have hPart := hTodo part List.mem_cons_self
    obtain ⟨payload, hEncode⟩ := sender.exists_encodePart build hPart
    obtain ⟨after, hSent⟩ := sendPart_of_none hEncode (hLink events.socket.attempts)
    rw [sendParts, hSent] at h
    rcases sender.advance_cases build after hPart todo with ⟨hMoved, hRoom⟩ | ⟨⟨message, hPanic⟩, -⟩
    · rw [hMoved] at h
      exact hRoom.mp (ih (fun p hp => hTodo p (List.mem_cons_of_mem _ hp)) h)
    · rcases hTurn : sender.advance build after (UInt64.ofNat (part.length / sender.unitsize)) with
        ⟨result, sender', after'⟩
      rw [hTurn] at h hPanic
      obtain rfl : result = .error (.panic message) := hPanic
      exact absurd rfl (h message)

section
variable {build : Build} {sender : StreamSender} {packed : List UInt8}

theorem length_le_of_mem_chunks (hMax : sender.unitsize ≤ maxPayload) {part : List UInt8}
    (hPart : part ∈ chunks (chunkSize sender.unitsize) packed) : part.length ≤ maxPayload := by
  have hSize := (chunkSize_pos_iff sender.unitsize_pos).mpr hMax
  exact Nat.le_trans (length_pos_of_mem_chunks hSize hPart).2 (Nat.sub_le _ _)

theorem PanicFree.unitsize_le (h : sender.PanicFree build packed) :
    sender.unitsize ≤ maxPayload :=
  (chunkSize_pos_iff sender.unitsize_pos).mp h.chunk_pos

theorem PanicFree.roomFor (h : sender.PanicFree build packed) :
    sender.RoomFor build (chunks (chunkSize sender.unitsize) packed) := by
  apply roomFor_of_sendParts (fun _ => none) (fun _ => rfl)
    (fun part => length_le_of_mem_chunks h.unitsize_le)
  intro message hPanic
  have hSize : maxPayload - maxPayload % sender.unitsize ≠ 0 := h.chunk_pos.ne'
  apply h.returns (fun _ => none) (Events.new ⟨0, []⟩) message
  rw [send, if_neg hSize]
  exact hPanic

theorem panicFree_of_roomFor (hMax : sender.unitsize ≤ maxPayload)
    (h : sender.RoomFor build (chunks (chunkSize sender.unitsize) packed)) :
    sender.PanicFree build packed := by
  have hSize := (chunkSize_pos_iff sender.unitsize_pos).mpr hMax
  refine ⟨sender.unitsize_pos.ne', Nat.mod_le _ _, hSize, Nat.dvd_sub_mod maxPayload,
    fun part hPart => sender.exists_encodePart build (length_le_of_mem_chunks hMax hPart), ?_⟩
  intro link events message
  have hNe : maxPayload - maxPayload % sender.unitsize ≠ 0 := hSize.ne'
  rw [send, if_neg hNe]
  exact sendParts_ne_panic link (fun part => length_le_of_mem_chunks hMax) events h message

/-- The number of chunks a buffer is cut into. -/
def chunkCount (unitsize : Nat) (packed : List UInt8) : Nat :=
  (packed.length + chunkSize unitsize - 1) / chunkSize unitsize

theorem roomFor_chunks_iff (hMax : sender.unitsize ≤ maxPayload) :
    sender.RoomFor build (chunks (chunkSize sender.unitsize) packed) ↔
      HasRoom build sender.seq (chunkCount sender.unitsize packed) ∧
        HasRoom build sender.firstSample (packed.length / sender.unitsize) := by
  have hSize := (chunkSize_pos_iff sender.unitsize_pos).mpr hMax
  rw [RoomFor, length_chunks hSize, sum_length_div_chunks hSize (Nat.dvd_sub_mod maxPayload),
    chunkCount]

end

theorem chunkCount_le {unitsize : Nat} (h : 0 < chunkSize unitsize) (packed : List UInt8) :
    chunkCount unitsize packed ≤ packed.length := by
  apply Nat.le_of_lt_succ
  rw [chunkCount, Nat.div_lt_iff_lt_mul h, Nat.succ_mul]
  have hLength := Nat.le_mul_of_pos_right packed.length h
  omega

/-- The counters of a fresh sender have room for every buffer there can be. -/
theorem panicFree_new_iff (build : Build) {captureId acquisition : UInt64} {stream : UInt32}
    {unitsize : Nat} {fresh : StreamSender}
    (h : StreamSender.new captureId acquisition stream unitsize = .ok fresh) (runLength : Bool)
    {packed : List UInt8} (hPacked : packed.length < 2 ^ 63) :
    (if runLength then fresh.transition else fresh).PanicFree build packed ↔
      unitsize ≤ maxPayload := by
  rw [StreamSender.new] at h
  split at h
  · rename_i hUnit
    cases h
    have hFields : ∀ sender : StreamSender, sender.unitsize = unitsize → sender.seq = 0 →
        sender.firstSample = 0 → (sender.PanicFree build packed ↔ unitsize ≤ maxPayload) := by
      rintro sender rfl hSeq hFirst
      refine ⟨PanicFree.unitsize_le, fun hMax => panicFree_of_roomFor hMax ?_⟩
      rw [roomFor_chunks_iff hMax, hSeq, hFirst]
      have hCount := chunkCount_le ((chunkSize_pos_iff hUnit).mpr hMax) packed
      have hSamples := Nat.div_le_self packed.length sender.unitsize
      have hZero : (0 : UInt64).toNat = 0 := rfl
      exact ⟨.inr (by omega), .inr (by omega)⟩
    cases runLength with
    | false => exact hFields _ rfl rfl rfl
    | true => exact hFields _ rfl rfl rfl
  · cases h

/-- A call reaches no panic, whatever becomes of its messages, exactly when a sample fits a chunk
and the counters have room for the buffer. -/
theorem panicFree_iff (build : Build) (sender : StreamSender) (packed : List UInt8) :
    sender.PanicFree build packed ↔
      sender.unitsize ≤ maxPayload ∧
        HasRoom build sender.seq (chunkCount sender.unitsize packed) ∧
        HasRoom build sender.firstSample (packed.length / sender.unitsize) := by
  constructor
  · intro h
    exact ⟨h.unitsize_le, (roomFor_chunks_iff h.unitsize_le).mp h.roomFor⟩
  · rintro ⟨hMax, hRoom⟩
    exact panicFree_of_roomFor hMax ((roomFor_chunks_iff hMax).mpr hRoom)

/-- A sample of one byte more than a chunk may carry: the constructor takes it, and the first
call panics. -/
theorem oversized_unit_panics :
    ∃ sender, StreamSender.new 7 0 1 (maxPayload + 1) = .ok sender ∧
      (sender.send .optimised (fun _ => none) (Events.new ⟨0, []⟩) []).1 =
        .error (.panic "chunk size must be non-zero") ∧
      ¬ sender.PanicFree .optimised [] := by
  have hPanics : ∀ sender : StreamSender, sender.unitsize = maxPayload + 1 →
      (sender.send .optimised (fun _ => none) (Events.new ⟨0, []⟩) []).1 =
        .error (.panic "chunk size must be non-zero") := by
    intro sender hUnit
    rw [send, hUnit, Nat.mod_eq_of_lt (Nat.lt_succ_self _), Nat.sub_self]
    rfl
  refine ⟨⟨7, 0, 1, maxPayload + 1, .packed, 0, 0, Nat.succ_pos _⟩, rfl, hPanics _ rfl, fun h => ?_⟩
  exact h.returns _ _ _ (hPanics _ rfl)

end StreamSender

end OpenMso.Server
