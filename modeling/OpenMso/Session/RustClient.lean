import OpenMso.Session.Conversation

/-! # The Rust client keeps to the protocol -/

namespace OpenMso.Session.RustClient

open Foundation Foundation.Program Client Proto

set_option autoImplicit false

variable {Config Description : Type} (codec : Client.Codec Config Description)

def implementation : Implementation Config Description CaptureClient Error :=
  fun call client => (CaptureClient.call codec call).run.run client

def dialect : Dialect CaptureClient Error where
  ready _ := True
  nng
    | .send e | .recv e => .nng e
  remote := .remote

variable {codec} {decode : List UInt8 → Except String (Request Config)}
  {encode : Response Config Description → List UInt8}

theorem run_recv (codec : Client.Codec Config Description) (client : CaptureClient) :
    (CaptureClient.recv codec).run.run client =
      .ask .recv fun incoming => .done (Transport.decoded codec.decode incoming, client) := by
  apply congrArg (Program.ask Client.Op.recv)
  funext incoming
  change (MonadExcept.ofExcept (Transport.decoded codec.decode incoming) :
    Calling CaptureClient Error (Response Config Description)).run.run client = _
  cases Transport.decoded codec.decode incoming <;> rfl

theorem converses_request (hRequest : ∀ message, decode (codec.encode message) = .ok message)
    (hResponse : ∀ message, codec.decode (encode message) = .ok message) (arm : Request.Arm Config)
    (client : CaptureClient) :
    Converses decode encode ⟨client.seq + 1, some arm⟩
      (fun failure (outcome : Except Error (Response.Arm Config Description) × CaptureClient) =>
        outcome.1 = .error (dialect.nng failure))
      (fun response outcome => Obeys .remote (client.seq + 1) some response outcome.1)
      ((CaptureClient.request codec arm).run.run client) := by
  refine ⟨_, _, rfl, hRequest _, fun e => .done _ rfl, _,
    congrArg (fun program => Program.bind program _) (run_recv codec ⟨client.seq + 1⟩),
    fun e => .done _ rfl, ?_⟩
  rintro ⟨seq, error, result⟩
  have hDecoded : Transport.decoded codec.decode (.ok (encode ⟨seq, error, result⟩)) =
      .ok ⟨seq, error, result⟩ := by
    rw [Transport.decoded, hResponse]
  change Finishes Reaping _ (Program.bind
    (.done (Transport.decoded codec.decode (.ok (encode _)), _)) _)
  rw [hDecoded]
  change Finishes Reaping _ ((if seq ≠ client.seq + 1 then _ else _ :
    Calling CaptureClient Error (Response.Arm Config Description)).run.run _)
  by_cases hSeq : seq = client.seq + 1
  · rw [if_neg (not_not_intro hSeq)]
    cases error with
    | some e =>
      apply Finishes.done
      refine fun _ => ⟨?_, by rintro arm r ⟨⟩⟩
      rintro _ ⟨⟩
      rfl
    | none =>
      cases result with
      | none =>
        apply Finishes.done
        exact fun _ => ⟨by rintro e ⟨⟩, by rintro arm r - ⟨⟩⟩
      | some got =>
        apply Finishes.done
        refine fun _ => ⟨by rintro e ⟨⟩, ?_⟩
        rintro arm r - ⟨⟩ ⟨⟩
        rfl
  · rw [if_pos hSeq]
    apply Finishes.done
    exact fun hSame => absurd hSame hSeq

theorem converses_expect {α : Type}
    (hRequest : ∀ message, decode (codec.encode message) = .ok message)
    (hResponse : ∀ message, codec.decode (encode message) = .ok message) (name : String)
    (arm : Request.Arm Config) (pick : Response.Arm Config Description → Option α)
    (client : CaptureClient) :
    Converses decode encode ⟨client.seq + 1, some arm⟩
      (fun failure (outcome : Except Error α × CaptureClient) =>
        outcome.1 = .error (dialect.nng failure))
      (fun response outcome => Obeys .remote (client.seq + 1) pick response outcome.1)
      ((CaptureClient.expect codec name arm pick).run.run client) := by
  refine (converses_request hRequest hResponse arm client).bind ?_ ?_
  · rintro failure ⟨result, after⟩ rfl
    exact .done _ rfl
  · rintro response ⟨result, after⟩ h
    cases result with
    | error e =>
      refine .done _ fun hSeq => ⟨fun e' he => ?_, fun arm r hNone hSome _ => ?_⟩
      · cases (h hSeq).1 e' he
        rfl
      · cases (h hSeq).2 arm arm hNone hSome rfl
    | ok got =>
      have hGot : ∀ arm, response.seq = client.seq + 1 → response.error = none →
          response.response = some arm → got = arm := by
        intro arm hSeq hNone hSome
        cases (h hSeq).2 arm arm hNone hSome rfl
        rfl
      have hRefused : ∀ e, response.seq = client.seq + 1 → response.error ≠ some e := by
        intro e hSeq hError
        cases (h hSeq).1 e hError
      change Finishes Reaping _ (((pick got).getDM (throw (unexpected name got)) :
        Calling CaptureClient Error α).run.run after)
      cases hPick : pick got with
      | none =>
        refine .done _ fun hSeq => ⟨fun e he => absurd he (hRefused e hSeq), ?_⟩
        intro arm r hNone hSome hSame
        rw [← hGot arm hSeq hNone hSome, hPick] at hSame
        cases hSame
      | some r =>
        refine .done _ fun hSeq => ⟨fun e he => absurd he (hRefused e hSeq), ?_⟩
        intro arm r' hNone hSome hSame
        rw [← hGot arm hSeq hNone hSome, hPick] at hSame
        cases hSame
        rfl

theorem call_eq (codec : Client.Codec Config Description) {call : Call Config}
    (hCall : call.isShutdown = false) : ∃ name,
      CaptureClient.call codec call = CaptureClient.expect codec name (arm call) (pick call) := by
  cases call with
  | shutdown => cases hCall
  | _ =>
    refine ⟨_, congrArg (CaptureClient.expect codec _ _) (funext fun got => ?_)⟩
    cases got <;> rfl

theorem run_shutdown (codec : Client.Codec Config Description) (client : CaptureClient) :
    (CaptureClient.shutdown codec).run.run client =
      ((CaptureClient.expect codec "Shutdown" .shutdown (pick .shutdown)).run.run client).bind
        fun (result, after) => .ask .wait fun _ => .done (result, after) := by
  change Program.bind (Program.bind _ _) _ = _
  rw [bind_assoc]
  congr 1
  · refine congrArg (fun choose => (CaptureClient.expect codec "Shutdown" .shutdown choose).run.run
      client) (funext fun got => ?_)
    cases got <;> rfl
  · funext ⟨result, after⟩
    cases result <;> rfl

theorem speaks (hRequest : ∀ message, decode (codec.encode message) = .ok message)
    (hResponse : ∀ message, codec.decode (encode message) = .ok message) :
    Speaks dialect (implementation codec) decode encode := by
  intro call client _
  refine ⟨client.seq + 1, ?_⟩
  have hExpect := fun name => converses_expect hRequest hResponse name (arm call) (pick call) client
  cases hCall : call.isShutdown with
  | false =>
    obtain ⟨name, hEq⟩ := call_eq codec hCall
    rw [implementation, hEq]
    exact (hExpect name).mono (fun failure outcome h => ⟨h, fun _ => trivial⟩)
      fun response outcome h => ⟨h, fun _ => trivial⟩
  | true =>
    obtain rfl := eq_shutdown hCall
    change Converses _ _ _ _ _ ((CaptureClient.shutdown codec).run.run client)
    rw [run_shutdown]
    refine (hExpect "Shutdown").bind ?_ ?_
    · rintro failure ⟨result, after⟩ h
      exact .ask _ _ trivial fun _ => .done _ ⟨h, fun _ => trivial⟩
    · rintro response ⟨result, after⟩ h
      exact .ask _ _ trivial fun _ => .done _ ⟨h, fun _ => trivial⟩

end OpenMso.Session.RustClient
