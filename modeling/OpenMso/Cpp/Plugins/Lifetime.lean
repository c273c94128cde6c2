import OpenMso.Cpp.Plugins.Calls

/-! # The life of a client

From its launch to its destruction a client holds its plugin, the write end of
the plugin's stdin and two sockets.
-/

namespace OpenMso.Cpp.Plugins

open Foundation OpenMso.Transport
open Foundation.Program
open OpenMso.Client (Call)
open Cpp.Client (Runtime)

set_option autoImplicit false

theorem Socket.disjoint_ownPlugin (socket : Socket) (session : Client.CaptureClient) :
    Disjoint socket.own (ownPlugin session) := by
  unfold Socket.own ownPlugin
  split <;> split <;> split <;> simp

theorem finishes_onFiles {α : Type} (program : Lease.Trying FileOp Errno α) :
    Finishes (fun op => op.isQuiet = true) (fun _ => True) (onFiles program) :=
  program.finishes.relabel fun _ _ => rfl

namespace CaptureClient

def ownSockets (client : CaptureClient) : Finset Resource := client.control.own ∪ client.events.own

def own (client : CaptureClient) : Finset Resource :=
  ownPlugin client.toCaptureClient ∪ client.ownSockets

theorem ownPlugin_subset (client : CaptureClient) : ownPlugin client.toCaptureClient ⊆ client.own :=
  Finset.subset_union_left

theorem ownSockets_subset (client : CaptureClient) : client.ownSockets ⊆ client.own :=
  Finset.subset_union_right

/-- The two sockets are two. -/
def Apart (client : CaptureClient) : Prop := Disjoint client.control.own client.events.own

theorem disjoint_ownSockets (client : CaptureClient) (session : Client.CaptureClient) :
    Disjoint client.ownSockets (ownPlugin session) :=
  Finset.disjoint_union_left.mpr
    ⟨client.control.disjoint_ownPlugin session, client.events.disjoint_ownPlugin session⟩

theorem points_handles (client : CaptureClient) : client.handles.Points client.toCaptureClient :=
  ⟨fun _ => rfl, fun _ => rfl⟩

theorem own_movedFrom (client : CaptureClient) : client.movedFrom.own = ∅ := rfl

section
variable {k : Kernel} {held : Finset Resource} {client : CaptureClient}

theorem ensures_calling {α : Type} {code : OpenMso.Client.Calling Client.CaptureClient Error α}
    {Q : Except Error α × Client.CaptureClient → Kernel → Prop}
    (h : host.Ensures (client.handles.serve code client.toCaptureClient) Q k) :
    host.Ensures (client.calling code) (fun outcome k' => ∃ session,
      outcome.2 = { client with toCaptureClient := session } ∧ Q (outcome.1, session) k') k :=
  h.bind fun outcome _ hOutcome => ⟨outcome.2, rfl, hOutcome⟩

theorem ensures_terminate (h : Owns k held) (hOwn : ownPlugin client.toCaptureClient ⊆ held) :
    host.Ensures client.terminate (fun ended k' => ∃ session,
      ended = { client with toCaptureClient := session } ∧
        Gone k held client.toCaptureClient session k') k := by
  refine (ensures_calling (Plugins.ensures_terminate client.points_handles h hOwn)).bind ?_
  rintro ⟨result, ended⟩ k' ⟨session, hEnded, -, hGone⟩
  exact ⟨session, hEnded, hGone⟩

theorem ensures_destroyEndpoints (h : Owns k held) (client : CaptureClient) :
    host.Ensures client.destroyEndpoints (fun _ k' => Calm k held k' held) k := by
  unfold destroyEndpoints
  split
  · exact Calm.of_owns h
  · exact (ensures_calm h (finishes_onFiles _)).mono fun _ _ hKept => hKept.2

theorem ensures_destroy (h : Owns k held) (hApart : client.Apart) (hOwn : client.own ⊆ held) :
    host.Ensures client.destroy (fun _ k' => Calm k held k' (held \ client.own)) k := by
  obtain ⟨hPlugin, hSockets⟩ := Finset.union_subset_iff.mp hOwn
  obtain ⟨hControl, hEvents⟩ := Finset.union_subset_iff.mp hSockets
  have hSplit := client.control.disjoint_ownPlugin client.toCaptureClient
  have hSplit' := client.events.disjoint_ownPlugin client.toCaptureClient
  refine (ensures_terminate h hPlugin).bind ?_
  rintro _ k₁ ⟨session, rfl, hGone⟩
  refine (Socket.ensures_close hGone.calm.owns client.events ?_).bind fun _ k₂ hEventsClosed => ?_
  · exact Finset.subset_sdiff.mpr ⟨hEvents, hSplit'⟩
  refine (Socket.ensures_close hEventsClosed.owns client.control ?_).bind
    fun _ k₃ hControlClosed => ?_
  · exact Finset.subset_sdiff.mpr ⟨Finset.subset_sdiff.mpr ⟨hControl, hSplit⟩, hApart⟩
  refine (ensures_destroyEndpoints hControlClosed.owns _).mono fun _ k₄ hRemoved => ?_
  have hHeld : held \ client.own =
      ((held \ ownPlugin client.toCaptureClient) \ client.events.own) \ client.control.own := by
    rw [own, ownSockets]
    grind
  rw [hHeld]
  exact ((hGone.calm.trans hEventsClosed).trans hControlClosed).trans hRemoved

theorem ensures_moveAssign (h : Owns k held) (hApart : client.Apart) (hOwn : client.own ⊆ held)
    (other : CaptureClient) :
    host.Ensures (client.moveAssign other) (fun moved k' =>
      moved = (other, other.movedFrom) ∧ Calm k held k' (held \ client.own)) k := by
  obtain ⟨hPlugin, hSockets⟩ := Finset.union_subset_iff.mp hOwn
  obtain ⟨hControl, hEvents⟩ := Finset.union_subset_iff.mp hSockets
  have hSplit := client.control.disjoint_ownPlugin client.toCaptureClient
  have hSplit' := client.events.disjoint_ownPlugin client.toCaptureClient
  refine (ensures_terminate h hPlugin).bind ?_
  rintro _ k₁ ⟨session, rfl, hGone⟩
  refine (ensures_destroyEndpoints hGone.calm.owns _).bind fun _ k₂ hRemoved => ?_
  refine (Socket.ensures_moveAssign hRemoved.owns client.control other.control ?_).bind ?_
  · exact Finset.subset_sdiff.mpr ⟨hControl, hSplit⟩
  rintro _ k₃ ⟨rfl, hControlClosed⟩
  refine (Socket.ensures_moveAssign hControlClosed.owns client.events other.events ?_).bind ?_
  · exact Finset.subset_sdiff.mpr ⟨Finset.subset_sdiff.mpr ⟨hEvents, hSplit'⟩, hApart.symm⟩
  rintro _ k₄ ⟨rfl, hEventsClosed⟩
  refine ⟨rfl, ?_⟩
  have hHeld : held \ client.own =
      ((held \ ownPlugin client.toCaptureClient) \ client.control.own) \ client.events.own := by
    rw [own, ownSockets]
    grind
  rw [hHeld]
  exact ((hGone.calm.trans hRemoved).trans hControlClosed).trans hEventsClosed

variable {Config Description : Type} (runtime : Runtime Config Description)

/-- A call keeps the plugin and its handles, or leaves nothing of it. -/
theorem ensures_call (h : Owns k held) (hOwn : ownPlugin client.toCaptureClient ⊆ held)
    (call : Call Config) :
    host.Ensures (client.call runtime call) (fun outcome k' => ∃ session,
      outcome.2 = { client with toCaptureClient := session } ∧
        (SamePlugin client.toCaptureClient session ∧ Calm k held k' held ∨
          Gone k held client.toCaptureClient session k')) k := by
  have hServed : host.Ensures (client.handles.serve (Client.CaptureClient.call runtime call)
      client.toCaptureClient) (fun outcome k' =>
        SamePlugin client.toCaptureClient outcome.2 ∧ Calm k held k' held ∨
          Gone k held client.toCaptureClient outcome.2 k') k := by
    cases call with
    | shutdown =>
      refine (ensures_shutdown runtime client.points_handles h hOwn).mono fun outcome k' => ?_
      rintro (⟨hSame, -, hCalm⟩ | hGone)
      · exact .inl ⟨⟨congrArg _ hSame, congrArg _ hSame⟩, hCalm⟩
      · exact .inr hGone
    | _ => exact (ensures_expect runtime h _ _ _).mono fun _ _ hKept => .inl hKept
  exact ensures_calling hServed

end

end CaptureClient

end OpenMso.Cpp.Plugins
