import OpenMso.Cpp.Client
import OpenMso.Session.Conversation

/-! # The C++ client keeps to the protocol -/

namespace OpenMso.Session.CppClient

open Foundation Foundation.Program Proto
open OpenMso.Client (Call Calling perform)
open Cpp.Client (Runtime CaptureClient unexpected)

set_option autoImplicit false

variable {Config Description : Type} (runtime : Runtime Config Description)

def implementation : Implementation Config Description CaptureClient Cpp.Error :=
  fun call client => (CaptureClient.call runtime call).run.run client

/-- A call can be made while the plugin is there. -/
def dialect : Dialect CaptureClient Cpp.Error where
  ready client := 0 < client.pid
  nng
    | .send e => .nng ("send" ++ ": " ++ runtime.strerror e)
    | .recv e => .nng ("recv" ++ ": " ++ runtime.strerror e)
  remote := .remote

/-- A call that failed on the socket; the plugin is where it was. -/
def Failed {α : Type} (client : CaptureClient) (failure : Failure)
    (outcome : Except Cpp.Error α × CaptureClient) : Prop :=
  outcome.1 = .error ((dialect runtime).nng failure) ∧ outcome.2.pid = client.pid

variable {runtime} {decode : List UInt8 → Except String (Request Config)}
  {encode : Response Config Description → List UInt8}

/-- What `recv` makes of what the socket yields. -/
def received (runtime : Runtime Config Description) :
    Except NngError (List UInt8) → Except Cpp.Error (Response Config Description)
  | .error rv => .error (.nng ("recv" ++ ": " ++ runtime.strerror rv))
  | .ok data =>
    match runtime.parseFromArray data with
    | none => .error (.decode "could not parse omso.capture.v1.Response")
    | some out => .ok out

theorem run_recv (runtime : Runtime Config Description) (client : CaptureClient) :
    (CaptureClient.recv runtime).run.run client =
      .ask .recv fun incoming => .done (received runtime incoming, client) := by
  apply congrArg (Program.ask OpenMso.Client.Op.recv)
  funext incoming
  cases incoming with
  | error rv => rfl
  | ok data =>
    change (match runtime.parseFromArray data with
      | none => throw _
      | some out => pure out :
      Calling CaptureClient Cpp.Error (Response Config Description)).run.run client = _
    rw [received]
    cases runtime.parseFromArray data <;> rfl

theorem converses_request
    (hRequest : ∀ message, ∃ bytes, runtime.serializeToString message = some bytes ∧
      decode bytes = .ok message)
    (hResponse : ∀ message, runtime.parseFromArray (encode message) = some message)
    (arm : Request.Arm Config) (client : CaptureClient) :
    Converses decode encode ⟨client.seq + 1, some arm⟩ (Failed runtime client)
      (fun response (outcome : Except Cpp.Error (Response Config Description) × CaptureClient) =>
        (response.seq = client.seq + 1 →
          (∀ e, response.error = some e → outcome.1 = .error (.remote e)) ∧
          ∀ got, response.error = none → response.response = some got → outcome.1 = .ok response) ∧
        outcome.2.pid = client.pid)
      ((CaptureClient.request runtime arm).run.run client) := by
  obtain ⟨bytes, hBytes, hDecode⟩ := hRequest ⟨client.seq + 1, some arm⟩
  have hSend : CaptureClient.send runtime ⟨client.seq + 1, some arm⟩ = (do
      CaptureClient.check runtime "send" (← perform (.send bytes))) := by
    rw [CaptureClient.send, hBytes]
  change Converses _ _ _ _ _ (Program.bind
    ((CaptureClient.send runtime ⟨client.seq + 1, some arm⟩).run.run
      { client with seq := client.seq + 1 }) _)
  rw [hSend]
  refine ⟨bytes, _, rfl, hDecode, fun e => .done _ ⟨rfl, rfl⟩, _,
    congrArg (fun program => Program.bind program _)
      (run_recv runtime { client with seq := client.seq + 1 }),
    fun e => .done _ ⟨rfl, rfl⟩, ?_⟩
  rintro ⟨seq, error, result⟩
  have hReceived : received runtime (.ok (encode ⟨seq, error, result⟩)) =
      .ok ⟨seq, error, result⟩ := by
    rw [received, hResponse]
  change Finishes Reaping _ (Program.bind (.done (received runtime (.ok (encode _)), _)) _)
  rw [hReceived]
  change Finishes Reaping _ ((if seq ≠ client.seq + 1 then _ else _ :
    Calling CaptureClient Cpp.Error (Response Config Description)).run.run _)
  by_cases hSeq : seq = client.seq + 1
  · rw [if_neg (not_not_intro hSeq)]
    cases error with
    | some e =>
      apply Finishes.done
      refine ⟨fun _ => ⟨?_, by rintro got ⟨⟩⟩, rfl⟩
      rintro _ ⟨⟩
      rfl
    | none =>
      cases result with
      | none =>
        apply Finishes.done
        exact ⟨fun _ => ⟨by rintro e ⟨⟩, by rintro got - ⟨⟩⟩, rfl⟩
      | some got =>
        apply Finishes.done
        exact ⟨fun _ => ⟨by rintro e ⟨⟩, fun _ _ _ => rfl⟩, rfl⟩
  · rw [if_pos hSeq]
    apply Finishes.done
    exact ⟨fun hSame => absurd hSame hSeq, rfl⟩

theorem converses_expect {α : Type}
    (hRequest : ∀ message, ∃ bytes, runtime.serializeToString message = some bytes ∧
      decode bytes = .ok message)
    (hResponse : ∀ message, runtime.parseFromArray (encode message) = some message) (name : String)
    (arm : Request.Arm Config) (pick : Response.Arm Config Description → Option α)
    (client : CaptureClient) :
    Converses decode encode ⟨client.seq + 1, some arm⟩ (Failed runtime client)
      (fun response (outcome : Except Cpp.Error α × CaptureClient) =>
        Obeys .remote (client.seq + 1) pick response outcome.1 ∧ outcome.2.pid = client.pid)
      ((CaptureClient.expect runtime name arm pick).run.run client) := by
  refine (converses_request hRequest hResponse arm client).bind ?_ ?_
  · rintro failure ⟨result, after⟩ ⟨rfl, hPid⟩
    exact .done _ ⟨rfl, hPid⟩
  · rintro response ⟨result, after⟩ ⟨h, hPid⟩
    cases result with
    | error e =>
      refine .done _ ⟨fun hSeq => ⟨fun e' he => ?_, fun arm r hNone hSome _ => ?_⟩, hPid⟩
      · cases (h hSeq).1 e' he
        rfl
      · cases (h hSeq).2 arm hNone hSome
    | ok got =>
      have hGot : ∀ arm, response.seq = client.seq + 1 → response.error = none →
          response.response = some arm → got.response.bind pick = pick arm := by
        intro arm hSeq hNone hSome
        cases (h hSeq).2 arm hNone hSome
        rw [hSome, Option.bind_some]
      have hRefused : ∀ e, response.seq = client.seq + 1 → response.error ≠ some e := by
        intro e hSeq hError
        cases (h hSeq).1 e hError
      change Finishes Reaping _ (((got.response.bind pick).getDM (throw (unexpected name got)) :
        Calling CaptureClient Cpp.Error α).run.run after)
      cases hPick : got.response.bind pick with
      | none =>
        refine .done _ ⟨fun hSeq => ⟨fun e he => absurd he (hRefused e hSeq), ?_⟩, hPid⟩
        intro arm r hNone hSome hSame
        rw [← hGot arm hSeq hNone hSome, hPick] at hSame
        cases hSame
      | some r =>
        refine .done _ ⟨fun hSeq => ⟨fun e he => absurd he (hRefused e hSeq), ?_⟩, hPid⟩
        intro arm r' hNone hSome hSame
        rw [← hGot arm hSeq hNone hSome, hPick] at hSame
        cases hSame
        rfl

theorem call_eq (runtime : Runtime Config Description) {call : Call Config}
    (hCall : call.isShutdown = false) : ∃ name,
      CaptureClient.call runtime call = CaptureClient.expect runtime name (arm call) (pick call) := by
  cases call with
  | shutdown => cases hCall
  | _ =>
    refine ⟨_, congrArg (CaptureClient.expect runtime _ _) (funext fun got => ?_)⟩
    cases got <;> rfl

theorem finishes_closeStdin (client : CaptureClient) :
    Finishes Reaping (fun outcome => outcome.1 = .ok ())
      (CaptureClient.closeStdin.run.run client) := by
  change Finishes Reaping _ ((if 0 ≤ client.stdinFd then _ else _ :
    Calling CaptureClient Cpp.Error Unit).run.run client)
  by_cases hOpen : 0 ≤ client.stdinFd
  · rw [if_pos hOpen]
    exact .ask _ _ trivial fun _ => .done _ rfl
  · rw [if_neg hOpen]
    exact .done _ rfl

theorem finishes_reap (client : CaptureClient) :
    Finishes Reaping (fun outcome => outcome.1 = .ok ()) (CaptureClient.reap.run.run client) :=
  .ask _ _ trivial fun _ => .done _ rfl

theorem finishes_terminate (client : CaptureClient) :
    Finishes Reaping (fun outcome => outcome.1 = .ok ())
      (CaptureClient.terminate.run.run client) := by
  refine (finishes_closeStdin client).bind ?_
  rintro ⟨result, after⟩ rfl
  change Finishes Reaping _ ((if 0 < after.pid then _ else _ :
    Calling CaptureClient Cpp.Error Unit).run.run after)
  by_cases hPid : 0 < after.pid
  · rw [if_pos hPid]
    exact .ask _ _ trivial fun _ => finishes_reap after
  · rw [if_neg hPid]
    exact .done _ rfl

theorem run_shutdown (runtime : Runtime Config Description) (client : CaptureClient)
    (hPid : 0 < client.pid) :
    (CaptureClient.shutdown runtime).run.run client =
      (do
        tryCatch (CaptureClient.expect runtime "Shutdown" .shutdown (pick .shutdown)) fun e => do
          CaptureClient.terminate
          throw e
        CaptureClient.closeStdin
        CaptureClient.reap : Calling CaptureClient Cpp.Error Unit).run.run client := by
  change ((if client.pid ≤ 0 then _ else _ :
    Calling CaptureClient Cpp.Error Unit).run.run client) = _
  refine (congrArg (fun code : Calling CaptureClient Cpp.Error Unit => code.run.run client)
    (if_neg (Int.not_le.mpr hPid))).trans ?_
  refine congrArg (fun choose => (do
    tryCatch (CaptureClient.expect runtime "Shutdown" .shutdown choose) fun e => do
      CaptureClient.terminate
      throw e
    CaptureClient.closeStdin
    CaptureClient.reap : Calling CaptureClient Cpp.Error Unit).run.run client)
    (funext fun got => ?_)
  cases got <;> rfl

/-- Whatever becomes of the plugin process, the call ends as its request did. -/
theorem converses_shutdown
    (hRequest : ∀ message, ∃ bytes, runtime.serializeToString message = some bytes ∧
      decode bytes = .ok message)
    (hResponse : ∀ message, runtime.parseFromArray (encode message) = some message)
    (client : CaptureClient) (hPid : 0 < client.pid) :
    Converses decode encode ⟨client.seq + 1, some .shutdown⟩
      (fun failure outcome => outcome.1 = .error ((dialect runtime).nng failure))
      (fun response outcome =>
        Obeys .remote (client.seq + 1) (pick (.shutdown : Call Config)) response outcome.1)
      ((CaptureClient.shutdown runtime).run.run client) := by
  have hExpect := converses_expect hRequest hResponse "Shutdown" .shutdown
    (pick (.shutdown : Call Config)) client
  have hTry : Converses decode encode ⟨client.seq + 1, some .shutdown⟩
      (fun failure outcome => outcome.1 = .error ((dialect runtime).nng failure))
      (fun response outcome =>
        Obeys .remote (client.seq + 1) (pick (.shutdown : Call Config)) response outcome.1)
      ((tryCatch (CaptureClient.expect runtime "Shutdown" .shutdown (pick .shutdown)) fun e => do
        CaptureClient.terminate
        throw e : Calling CaptureClient Cpp.Error Unit).run.run client) := by
    refine hExpect.bind ?_ ?_
    · rintro failure ⟨result, after⟩ ⟨rfl, -⟩
      exact (finishes_terminate after).bind fun
        | ⟨_, final⟩, rfl => .done _ rfl
    · rintro response ⟨result, after⟩ ⟨h, -⟩
      cases result with
      | ok r => exact .done _ h
      | error error =>
        exact (finishes_terminate after).bind fun
          | ⟨_, final⟩, rfl => .done _ h
  rw [run_shutdown runtime client hPid]
  refine hTry.bind ?_ ?_
  · rintro failure ⟨result, after⟩ rfl
    exact .done _ rfl
  · rintro response ⟨result, after⟩ h
    cases result with
    | error error => exact .done _ h
    | ok r =>
      refine (finishes_closeStdin after).bind ?_
      rintro ⟨closed, later⟩ rfl
      refine (finishes_reap later).mono ?_
      rintro ⟨final, last⟩ rfl
      exact h

theorem speaks
    (hRequest : ∀ message, ∃ bytes, runtime.serializeToString message = some bytes ∧
      decode bytes = .ok message)
    (hResponse : ∀ message, runtime.parseFromArray (encode message) = some message) :
    Speaks (dialect runtime) (implementation runtime) decode encode := by
  intro call client hPid
  refine ⟨client.seq + 1, ?_⟩
  cases hCall : call.isShutdown with
  | false =>
    obtain ⟨name, hEq⟩ := call_eq runtime hCall
    rw [implementation, hEq]
    refine (converses_expect hRequest hResponse name (arm call) (pick call) client).mono ?_ ?_
    · rintro e outcome ⟨hFailed, hSame⟩
      exact ⟨hFailed, fun _ => lt_of_lt_of_eq hPid hSame.symm⟩
    · rintro response outcome ⟨h, hSame⟩
      exact ⟨h, fun _ => lt_of_lt_of_eq hPid hSame.symm⟩
  | true =>
    obtain rfl := eq_shutdown hCall
    refine (converses_shutdown hRequest hResponse client hPid).mono ?_ ?_
    · rintro e outcome hFailed
      refine ⟨hFailed, ?_⟩
      rintro ⟨⟩
    · rintro response outcome h
      refine ⟨h, ?_⟩
      rintro ⟨⟩

end OpenMso.Session.CppClient
