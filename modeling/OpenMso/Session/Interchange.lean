import OpenMso.Foundation.Transcripts
import OpenMso.Session.Agreement

/-! # The two clients are interchangeable

Over a whole session the Rust and the C++ client send the same requests in the
same order, and from the same replies they make the same values and the same
errors. They differ in what they do about the child process.
-/

namespace OpenMso.Session

open Foundation Foundation.Program Proto
open OpenMso.Client (Call Calling)

set_option autoImplicit false

section
variable {Config Description κ ε : Type}

/-- A call and what it returned. -/
structure Outcome (Config Description ε : Type) where
  call : Call Config
  result : Except ε (call.Result Description)

/-- The calls one after the other, whatever each of them returns. -/
def session (implementation : Implementation Config Description κ ε) : List (Call Config) → κ →
    Program Client.Op Client.Op.Answer (List (Outcome Config Description ε) × κ)
  | [], client => .done ([], client)
  | call :: calls, client => (implementation call client).bind fun (result, client) =>
      (session implementation calls client).bind fun (outcomes, client) =>
        .done (⟨call, result⟩ :: outcomes, client)

end

/-- The exception that tells what this error tells. -/
inductive Tells (strerror : NngError → String) : Error → Cpp.Error → Prop
  | send (e : NngError) : Tells strerror (.nng e) (.nng ("send" ++ ": " ++ strerror e))
  | recv (e : NngError) : Tells strerror (.nng e) (.nng ("recv" ++ ": " ++ strerror e))
  | decode (message : String) :
      Tells strerror (.decode message) (.decode "could not parse omso.capture.v1.Response")
  | protocol (message : String) : Tells strerror (.protocol message) (.protocol message)
  | remote (e : Proto.Error) : Tells strerror (.remote e) (.remote e)

inductive SameOutcome {Config Description : Type} (strerror : NngError → String) :
    Outcome Config Description Error → Outcome Config Description Cpp.Error → Prop
  | ok (call : Call Config) (r : call.Result Description) :
      SameOutcome strerror ⟨call, .ok r⟩ ⟨call, .ok r⟩
  | error (call : Call Config) (e : Error) (f : Cpp.Error) (h : Tells strerror e f) :
      SameOutcome strerror ⟨call, .error e⟩ ⟨call, .error f⟩

/-- The plugin reads the same request in both messages, and both clients are answered alike. -/
inductive SameEvent {Config : Type} (decode : List UInt8 → Except String (Request Config)) :
    Event Client.Op Client.Op.Answer → Event Client.Op Client.Op.Answer → Prop
  | send (request : Request Config) (bytes bytes' : List UInt8) (h : decode bytes = .ok request)
      (h' : decode bytes' = .ok request) (answer : Except NngError Unit) :
      SameEvent decode ⟨.send bytes, answer⟩ ⟨.send bytes', answer⟩
  | recv (answer : Except NngError (List UInt8)) :
      SameEvent decode ⟨.recv, answer⟩ ⟨.recv, answer⟩

/-- The next request of both clients has the same number. The plugin of a C++ client is there
as long as it is `up`. -/
def SameState (up : Bool) (client : Client.CaptureClient) (client' : Cpp.Client.CaptureClient) :
    Prop :=
  client.seq = client'.seq ∧ (up = true → 0 < client'.pid)

section
variable {Config Description : Type} {codec : Client.Codec Config Description}
  {runtime : Cpp.Client.Runtime Config Description}
  {decode : List UInt8 → Except String (Request Config)}
  {client : Client.CaptureClient} {client' : Cpp.Client.CaptureClient} {up : Bool}

/-- Both libraries write the request. The bytes may differ, what the plugin reads in them
may not. -/
structure WrittenAlike (codec : Client.Codec Config Description)
    (runtime : Cpp.Client.Runtime Config Description)
    (decode : List UInt8 → Except String (Request Config)) (message : Request Config) : Prop where
  encode : decode (codec.encode message) = .ok message
  serializeToString : ∃ bytes, runtime.serializeToString message = some bytes ∧
    decode bytes = .ok message

/-- Both libraries read the same response in a reply, or neither reads one. Nothing is asked of
the other answers of the socket. -/
def ReadAlike (codec : Client.Codec Config Description)
    (runtime : Cpp.Client.Runtime Config Description) : Event Client.Op Client.Op.Answer → Prop
  | ⟨.recv, .ok bytes⟩ => runtime.parseFromArray bytes = (codec.decode bytes).toOption
  | _ => True

theorem alike_send {message : Request Config} (hWritten : WrittenAlike codec runtime decode message)
    (hState : SameState up client client') :
    Alike Reaping (ReadAlike codec runtime) (SameEvent decode)
      (Paired (Tells runtime.strerror) (SameState up) fun _ _ => True)
      ((Client.CaptureClient.send codec message).run.run client)
      ((Cpp.Client.CaptureClient.send runtime message).run.run client') := by
  obtain ⟨bytes, hBytes, hDecode⟩ := hWritten.serializeToString
  rw [Cpp.Client.CaptureClient.send, hBytes]
  refine .ask (Client.Op.send _) (Client.Op.send _) _ _ id id ?_ ?_ ?_
  · exact fun answer _ => ⟨answer, trivial, .send message _ _ hWritten.encode hDecode answer⟩
  · exact fun answer _ => ⟨answer, trivial, .send message _ _ hWritten.encode hDecode answer⟩
  · intro answer answer' _ _ hSame
    cases hSame with
    | send _ _ _ _ _ _ =>
      cases answer with
      | ok u => exact .done _ _ (.ok _ _ _ _ trivial hState)
      | error e => exact .done _ _ (.error _ _ _ _ (.send e) hState)

theorem alike_recv (hState : SameState up client client') :
    Alike Reaping (ReadAlike codec runtime) (SameEvent decode)
      (Paired (Tells runtime.strerror) (SameState up) Eq)
      ((Client.CaptureClient.recv codec).run.run client)
      ((Cpp.Client.CaptureClient.recv runtime).run.run client') := by
  rw [RustClient.run_recv, CppClient.run_recv]
  refine .ask Client.Op.recv Client.Op.recv _ _ id id ?_ ?_ ?_
  · exact fun answer hFair => ⟨answer, hFair, .recv answer⟩
  · exact fun answer hFair => ⟨answer, hFair, .recv answer⟩
  · intro answer answer' hFair _ hSame
    cases hSame
    cases answer with
    | error e => exact .done _ _ (.error _ _ _ _ (.recv e) hState)
    | ok bytes =>
      have hRead : runtime.parseFromArray bytes = (codec.decode bytes).toOption := hFair
      rw [Transport.decoded, CppClient.received, hRead]
      cases codec.decode bytes with
      | error e => exact .done _ _ (.error _ _ _ _ (.decode e) hState)
      | ok response => exact .done _ _ (.ok _ _ _ _ rfl hState)

theorem alike_request {arm : Request.Arm Config}
    (hWritten : ∀ seq, WrittenAlike codec runtime decode ⟨seq, some arm⟩)
    (hState : SameState up client client') :
    Alike Reaping (ReadAlike codec runtime) (SameEvent decode)
      (Paired (Tells runtime.strerror) (SameState up) fun got response => response.response = some got)
      ((Client.CaptureClient.request codec arm).run.run client)
      ((Cpp.Client.CaptureClient.request runtime arm).run.run client') := by
  obtain ⟨seq⟩ := client
  obtain ⟨pid, stdinFd, seq'⟩ := client'
  obtain ⟨hSeq, hUp⟩ := hState
  obtain rfl : seq = seq' := hSeq
  have hNext : SameState up ⟨seq + 1⟩ ⟨pid, stdinFd, seq + 1⟩ := ⟨rfl, hUp⟩
  change Alike _ _ _ _
    ((Client.CaptureClient.send codec ⟨seq + 1, some arm⟩ >>= _ :
      Calling Client.CaptureClient Error _).run.run ⟨seq + 1⟩)
    ((Cpp.Client.CaptureClient.send runtime ⟨seq + 1, some arm⟩ >>= _ :
      Calling Cpp.Client.CaptureClient Cpp.Error _).run.run ⟨pid, stdinFd, seq + 1⟩)
  refine Alike.bindPaired (alike_send (hWritten (seq + 1)) hNext) ?_
  rintro - - after after' - hAfter
  refine Alike.bindPaired (alike_recv hAfter) ?_
  rintro ⟨answered, error, result⟩ _ last last' rfl hLast
  change Alike _ _ _ _
    ((if answered ≠ seq + 1 then _ else _ :
      Calling Client.CaptureClient Error (Response.Arm Config Description)).run.run last)
    ((if answered ≠ seq + 1 then _ else _ :
      Calling Cpp.Client.CaptureClient Cpp.Error (Response Config Description)).run.run last')
  by_cases hSame : answered = seq + 1
  · rw [if_neg (not_not_intro hSame), if_neg (not_not_intro hSame)]
    cases error with
    | some e => exact .done _ _ (.error _ _ _ _ (.remote e) hLast)
    | none =>
      cases result with
      | none => exact .done _ _ (.error _ _ _ _ (.protocol _) hLast)
      | some got => exact .done _ _ (.ok _ _ _ _ rfl hLast)
  · rw [if_pos hSame, if_pos hSame]
    exact .done _ _ (.error _ _ _ _ (.protocol _) hLast)

theorem unexpected_eq (name : String) (got : Response.Arm Config Description)
    {response : Response Config Description} (h : response.response = some got) :
    ∃ message, Client.unexpected name got = .protocol message ∧
      Cpp.Client.unexpected name response = .protocol message := by
  refine ⟨_, rfl, ?_⟩
  rw [Cpp.Client.unexpected, Cpp.Client.responseName, h]
  cases got <;> rfl

theorem alike_expect {α : Type} (name : String) {arm : Request.Arm Config}
    (hWritten : ∀ seq, WrittenAlike codec runtime decode ⟨seq, some arm⟩)
    (pick : Response.Arm Config Description → Option α) (hState : SameState up client client') :
    Alike Reaping (ReadAlike codec runtime) (SameEvent decode)
      (Paired (Tells runtime.strerror) (SameState up) Eq)
      ((Client.CaptureClient.expect codec name arm pick).run.run client)
      ((Cpp.Client.CaptureClient.expect runtime name arm pick).run.run client') := by
  refine Alike.bindPaired (alike_request hWritten hState) ?_
  intro got response last last' hGot hLast
  rw [hGot, Option.bind_some]
  cases hPick : pick got with
  | some r => exact .done _ _ (.ok _ _ _ _ rfl hLast)
  | none =>
    obtain ⟨message, hRust, hCpp⟩ := unexpected_eq name got hGot
    rw [hRust, hCpp]
    exact .done _ _ (.error _ _ _ _ (.protocol message) hLast)

theorem call_eq (codec : Client.Codec Config Description)
    (runtime : Cpp.Client.Runtime Config Description) {call : Call Config}
    (hCall : call.isShutdown = false) : ∃ name,
      Client.CaptureClient.call codec call =
        Client.CaptureClient.expect codec name (arm call) (pick call) ∧
      Cpp.Client.CaptureClient.call runtime call =
        Cpp.Client.CaptureClient.expect runtime name (arm call) (pick call) := by
  cases call with
  | shutdown => cases hCall
  | _ =>
    refine ⟨_, congrArg (Client.CaptureClient.expect codec _ _) (funext fun got => ?_),
      congrArg (Cpp.Client.CaptureClient.expect runtime _ _) (funext fun got => ?_)⟩
    all_goals cases got <;> rfl

/-- What a C++ client does about its child process does not touch its numbering. -/
def Reaped (client : Cpp.Client.CaptureClient) (result : Except Cpp.Error Unit)
    (outcome : Except Cpp.Error Unit × Cpp.Client.CaptureClient) : Prop :=
  outcome.1 = result ∧ outcome.2.seq = client.seq

theorem reaped_closeStdin (client : Cpp.Client.CaptureClient) :
    Finishes Reaping (Reaped client (.ok ())) (Cpp.Client.CaptureClient.closeStdin.run.run client) := by
  change Finishes Reaping _ ((if 0 ≤ client.stdinFd then _ else _ :
    Calling Cpp.Client.CaptureClient Cpp.Error Unit).run.run client)
  by_cases hOpen : 0 ≤ client.stdinFd
  · rw [if_pos hOpen]
    exact .ask _ _ trivial fun _ => .done _ ⟨rfl, rfl⟩
  · rw [if_neg hOpen]
    exact .done _ ⟨rfl, rfl⟩

theorem reaped_reap (client : Cpp.Client.CaptureClient) :
    Finishes Reaping (Reaped client (.ok ())) (Cpp.Client.CaptureClient.reap.run.run client) :=
  .ask _ _ trivial fun _ => .done _ ⟨rfl, rfl⟩

theorem reaped_terminate (client : Cpp.Client.CaptureClient) :
    Finishes Reaping (Reaped client (.ok ())) (Cpp.Client.CaptureClient.terminate.run.run client) := by
  refine (reaped_closeStdin client).bind ?_
  rintro ⟨result, after⟩ ⟨rfl, hSeq⟩
  change Finishes Reaping _ ((if 0 < after.pid then _ else _ :
    Calling Cpp.Client.CaptureClient Cpp.Error Unit).run.run after)
  by_cases hPid : 0 < after.pid
  · rw [if_pos hPid]
    refine .ask _ _ trivial fun _ => (reaped_reap after).mono ?_
    exact fun outcome h => ⟨h.1, h.2.trans hSeq⟩
  · rw [if_neg hPid]
    exact .done _ ⟨rfl, hSeq⟩

theorem alike_shutdown
    (hWritten : ∀ seq, WrittenAlike codec runtime decode ⟨seq, some (arm .shutdown)⟩)
    (hState : SameState true client client') :
    Alike Reaping (ReadAlike codec runtime) (SameEvent decode)
      (Paired (Tells runtime.strerror) (SameState false) Eq)
      ((Client.CaptureClient.shutdown codec).run.run client)
      ((Cpp.Client.CaptureClient.shutdown runtime).run.run client') := by
  rw [RustClient.run_shutdown, CppClient.run_shutdown runtime client' (hState.2 rfl)]
  change Alike _ _ _ _ _ (Program.bind (Program.bind _ _) _)
  rw [bind_assoc]
  refine Alike.bind (alike_expect "Shutdown" hWritten (pick .shutdown) hState) ?_
  intro outcome outcome' hPaired
  have hWait : Finishes Reaping (fun last => last = outcome)
      (.ask .wait fun _ => .done (outcome.1, outcome.2) : Program Client.Op Client.Op.Answer _) :=
    .ask _ _ trivial fun _ => .done _ rfl
  cases hPaired with
  | ok r r' after after' hSame hAfter =>
    subst hSame
    have hReaped : Finishes Reaping (Reaped after' (.ok ()))
        ((do Cpp.Client.CaptureClient.closeStdin
             Cpp.Client.CaptureClient.reap : Calling Cpp.Client.CaptureClient Cpp.Error Unit).run.run
          after') := by
      refine (reaped_closeStdin after').bind ?_
      rintro ⟨result, last⟩ ⟨rfl, hSeq⟩
      exact (reaped_reap last).mono fun _ h => ⟨h.1, h.2.trans hSeq⟩
    refine Alike.of_finishes hWait hReaped ?_
    rintro _ ⟨result, last⟩ rfl ⟨rfl, hSeq⟩
    exact .ok _ _ _ _ rfl ⟨hAfter.1.trans hSeq.symm, by rintro ⟨⟩⟩
  | error e e' after after' hTells hAfter =>
    have hThrown : Finishes Reaping (Reaped after' (.error e'))
        ((do Cpp.Client.CaptureClient.terminate
             throw e' : Calling Cpp.Client.CaptureClient Cpp.Error Unit).run.run after') := by
      refine (reaped_terminate after').bind ?_
      rintro ⟨result, last⟩ ⟨rfl, hSeq⟩
      exact .done _ ⟨rfl, hSeq⟩
    refine Alike.of_finishes (Q := Reaped after' (.error e')) hWait (hThrown.bind ?_) ?_
    · rintro ⟨_, last⟩ ⟨rfl, hSeq⟩
      exact .done _ ⟨rfl, hSeq⟩
    · rintro _ ⟨result, last⟩ rfl ⟨rfl, hSeq⟩
      exact .error _ _ _ _ hTells ⟨hAfter.1.trans hSeq.symm, by rintro ⟨⟩⟩

/-- A session can go on, with one shutdown left or none. -/
theorem alike_session (calls : List (Call Config))
    (hWritten : ∀ call ∈ calls, ∀ seq, WrittenAlike codec runtime decode ⟨seq, some (arm call)⟩)
    (hOnce : calls.countP Call.isShutdown ≤ up.toNat) (hState : SameState up client client') :
    Alike Reaping (ReadAlike codec runtime) (SameEvent decode)
      (fun last last' => List.Forall₂ (SameOutcome runtime.strerror) last.1 last'.1 ∧
        last.2.seq = last'.2.seq)
      (session (RustClient.implementation codec) calls client)
      (session (CppClient.implementation runtime) calls client') := by
  induction calls generalizing up client client' with
  | nil => exact .done _ _ ⟨.nil, hState.1⟩
  | cons call calls ih =>
    obtain ⟨hFirst, hLater⟩ := List.forall_mem_cons.mp hWritten
    obtain ⟨left, hOnceLeft, hCall⟩ : ∃ left : Bool, calls.countP Call.isShutdown ≤ left.toNat ∧
        Alike Reaping (ReadAlike codec runtime) (SameEvent decode)
          (Paired (Tells runtime.strerror) (SameState left) Eq)
          (RustClient.implementation codec call client)
          (CppClient.implementation runtime call client') := by
      cases hShutdown : call.isShutdown with
      | true =>
        rw [List.countP_cons_of_pos hShutdown] at hOnce
        obtain rfl : up = true := by
          cases up with
          | true => rfl
          | false => exact absurd hOnce (Nat.not_succ_le_zero _)
        obtain rfl := eq_shutdown hShutdown
        exact ⟨false, Nat.le_of_succ_le_succ hOnce, alike_shutdown hFirst hState⟩
      | false =>
        rw [List.countP_cons_of_neg (by simp [hShutdown])] at hOnce
        obtain ⟨name, hRust, hCpp⟩ := call_eq codec runtime hShutdown
        refine ⟨up, hOnce, ?_⟩
        rw [RustClient.implementation, CppClient.implementation, hRust, hCpp]
        exact alike_expect name hFirst (pick call) hState
    refine Alike.bind hCall ?_
    rintro ⟨result, after⟩ ⟨result', after'⟩ hPaired
    have hOutcome : SameOutcome runtime.strerror ⟨call, result⟩ ⟨call, result'⟩ ∧
        SameState left after after' := by
      cases hPaired with
      | ok r r' _ _ hSame hAfter =>
        subst hSame
        exact ⟨.ok call r, hAfter⟩
      | error e e' _ _ hTells hAfter => exact ⟨.error call e e' hTells, hAfter⟩
    refine Alike.bind (ih hLater hOnceLeft hOutcome.2) ?_
    rintro ⟨outcomes, last⟩ ⟨outcomes', last'⟩ ⟨hRest, hSeq⟩
    exact .done _ _ ⟨.cons hOutcome.1 hRest, hSeq⟩

theorem nonempty_of_reaping (op : Client.Op) (h : Reaping op) : Nonempty op.Answer := by
  cases op with
  | send | recv => cases h
  | _ => exact ⟨()⟩

end

theorem errorCodeName_eq (code : Int32) :
    Cpp.errorCodeName code = ((ErrorCode.tryFrom code).map ErrorCode.asStrName).getD "" := by
  unfold Cpp.errorCodeName ErrorCode.tryFrom
  split_ifs <;> rfl

/-- Both show a refusal in the same words, unless its code is one that the schema does not
have: that one has no name in C++. -/
theorem display_remote_iff (strerror : NngError → String) (e : Proto.Error) :
    (Error.remote e).display strerror = (Cpp.Error.remote e).what ↔
      (ErrorCode.tryFrom e.code).isSome = true := by
  have hWhat : (Cpp.Error.remote e).what =
      ((ErrorCode.tryFrom e.code).map ErrorCode.asStrName).getD "" ++ ": " ++ e.message := by
    rw [← errorCodeName_eq]
    rfl
  have hDisplay : (Error.remote e).display strerror =
      ((ErrorCode.tryFrom e.code).getD .unspecified).asStrName ++ ": " ++ e.message := rfl
  rw [hWhat, hDisplay]
  cases ErrorCode.tryFrom e.code with
  | some code => exact iff_of_true rfl rfl
  | none =>
    refine iff_of_false (fun hSame => ?_) (by rintro ⟨⟩)
    have hLength := congrArg String.length hSame
    simp only [String.length_append, Option.getD_none, Option.map_none,
      Nat.add_right_cancel_iff] at hLength
    exact absurd hLength (by decide)

/-- Over any session, whatever the socket does, the clients ask the plugin the same, return the
same values and throw the same errors, as long as both libraries can read the replies or
neither can. -/
theorem clients_interchangeable {Config Description : Type} (codec : Client.Codec Config Description)
    (runtime : Cpp.Client.Runtime Config Description)
    (decode : List UInt8 → Except String (Request Config)) (calls : List (Call Config))
    (hWritten : ∀ call ∈ calls, ∀ seq, WrittenAlike codec runtime decode ⟨seq, some (arm call)⟩)
    (hOnce : calls.countP Call.isShutdown ≤ 1) (seq : UInt32) (pid stdinFd : Int) (hPid : 0 < pid) :
    (∀ transcript outcomes client,
      Says Reaping (session (RustClient.implementation codec) calls ⟨seq⟩) transcript
          (outcomes, client) →
      (∀ event ∈ transcript, ReadAlike codec runtime event) →
      ∃ transcript' outcomes' client',
        Says Reaping (session (CppClient.implementation runtime) calls ⟨pid, stdinFd, seq⟩) transcript'
          (outcomes', client') ∧
        List.Forall₂ (SameEvent decode) transcript transcript' ∧
        List.Forall₂ (SameOutcome runtime.strerror) outcomes outcomes' ∧ client.seq = client'.seq) ∧
    ∀ transcript' outcomes' client',
      Says Reaping (session (CppClient.implementation runtime) calls ⟨pid, stdinFd, seq⟩) transcript'
          (outcomes', client') →
      (∀ event ∈ transcript', ReadAlike codec runtime event) →
      ∃ transcript outcomes client,
        Says Reaping (session (RustClient.implementation codec) calls ⟨seq⟩) transcript
          (outcomes, client) ∧
        List.Forall₂ (SameEvent decode) transcript transcript' ∧
        List.Forall₂ (SameOutcome runtime.strerror) outcomes outcomes' ∧ client.seq = client'.seq := by
  have hState : SameState true ⟨seq⟩ ⟨pid, stdinFd, seq⟩ := ⟨rfl, fun _ => hPid⟩
  have hLeft : calls.countP Call.isShutdown ≤ true.toNat := hOnce
  have hAlike := alike_session calls hWritten hLeft hState
  constructor
  · intro transcript outcomes client hSays hFair
    obtain ⟨transcript', ⟨outcomes', client'⟩, hSays', -, hSame, hOutcomes, hSeq⟩ :=
      hAlike.follow nonempty_of_reaping hSays hFair
    exact ⟨transcript', outcomes', client', hSays', hSame, hOutcomes, hSeq⟩
  · intro transcript' outcomes' client' hSays' hFair
    obtain ⟨transcript, ⟨outcomes, client⟩, hSays, -, hSame, hOutcomes, hSeq⟩ :=
      hAlike.swap.follow nonempty_of_reaping hSays' hFair
    exact ⟨transcript, outcomes, client, hSays, hSame.flip, hOutcomes, hSeq⟩

theorem Sample.writtenAlike (message : Request Unit) :
    WrittenAlike Sample.codec Sample.runtime (Sample.decodeBy Sample.requests) message := by
  have hDecode := Sample.decodeBy_encodeBy Sample.requests
    (List.forall_mem_cons.mpr ⟨rfl, List.forall_mem_cons.mpr ⟨rfl, List.forall_mem_nil _⟩⟩) message
  exact ⟨hDecode, _, rfl, hDecode⟩

/-- One reply is received, and one is not. -/
theorem clients_interchangeable_timed_out : ∃ transcript outcomes client,
    Says Reaping (session (CppClient.implementation Sample.runtime) [.hello "scope" "0.1", .shutdown]
      ⟨4242, 7, 0⟩) transcript (outcomes, client) ∧ client.seq = 2 ∧
      List.Forall₂ (SameOutcome Sample.runtime.strerror)
        [⟨.hello "scope" "0.1", .ok ⟨1, none, none, none, [], []⟩⟩,
          ⟨.shutdown, .error (.nng .timedOut)⟩] outcomes := by
  obtain ⟨transcript, hSays, hFair⟩ : ∃ transcript, Says Reaping
      (session (RustClient.implementation Sample.codec) [.hello "scope" "0.1", .shutdown] ⟨0⟩) transcript
      ([⟨.hello "scope" "0.1", .ok ⟨1, none, none, none, [], []⟩⟩,
        ⟨.shutdown, .error (.nng .timedOut)⟩], ⟨2⟩) ∧
      ∀ event ∈ transcript, ReadAlike Sample.codec Sample.runtime event := by
    refine ⟨_, .ask _ _ (.ok ()) _ _ id <| .ask _ _ (.ok [0x08, 1, 0x52, 2, 0x08, 1]) _ _ id <|
      .ask _ _ (.ok ()) _ _ id <| .ask _ _ (.error .timedOut) _ _ id <|
        .silent Client.Op.wait (fun _ => .done _) () [] _ trivial (.done _), ?_⟩
    simp only [List.forall_mem_cons]
    exact ⟨trivial, rfl, trivial, trivial, List.forall_mem_nil _⟩
  obtain ⟨transcript, outcomes, client, hCpp, -, hSame, hSeq⟩ := (clients_interchangeable Sample.codec
    Sample.runtime (Sample.decodeBy Sample.requests) [.hello "scope" "0.1", .shutdown]
    (fun call _ seq => Sample.writtenAlike ⟨seq, some (arm call)⟩) (by decide) 0 4242 7
    (by decide)).1 _ _ _ hSays hFair
  exact ⟨transcript, outcomes, client, hCpp, hSeq.symm, hSame⟩

end OpenMso.Session
