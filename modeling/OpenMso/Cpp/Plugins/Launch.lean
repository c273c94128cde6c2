import OpenMso.Cpp.Plugins.Lifetime

/-! # Launching a client -/

namespace OpenMso.Cpp.Plugins

open Foundation OpenMso.Transport

set_option autoImplicit false

namespace CaptureClient

variable {k : Kernel} {held : Finset Resource}

theorem ensures_renew (h : Owns k held) (strerror : NngError → String) (protocol : Protocol)
    {member : Socket} (hClosed : member.isOpen = false) :
    host.Ensures (renew strerror protocol member).run (Obtained k held Socket.own) k := by
  refine (Socket.ensures_construct h strerror protocol).bindExcept ?_ ?_
  · intro e k' hFailed
    cases hFailed with
    | failed _ _ hCalm => exact .failed e k' hCalm
  · intro temporary k' hOpened
    have hMember : member.close = .done () := by
      rw [Socket.close, hClosed]
      rfl
    change host.Ensures (Program.bind (Program.bind (Program.bind member.close _) _) _) _ k'
    rw [hMember]
    exact hOpened

theorem ensures_building {α : Type} {code : Throwing α} {client : CaptureClient}
    {Q : Except Error α → Kernel → Prop} (h : host.Ensures code.run Q k) :
    host.Ensures ((building code).run.run client)
      (fun outcome k' => Q outcome.1 k' ∧ outcome.2 = client) k :=
  h.bind fun _ _ hCode => ⟨hCode, rfl⟩

/-- A client that is being made, with the sockets it has so far. -/
structure Built (k : Kernel) (held : Finset Resource) (client : CaptureClient) (k' : Kernel) :
    Prop where
  session : client.toCaptureClient = CaptureClient.default.toCaptureClient
  apart : client.Apart
  fresh : Disjoint client.ownSockets held
  calm : Calm k held k' (held ∪ client.ownSockets)

/-- A client that has been launched. -/
structure Launches (k : Kernel) (held : Finset Resource) (client : CaptureClient) (k' : Kernel) :
    Prop where
  apart : client.Apart
  fresh : Disjoint client.ownSockets held
  pid_pos : 0 < client.pid
  stdinFd_pos : 0 < client.stdinFd
  between : ∃ k₁, Calm k held k₁ (held ∪ client.ownSockets) ∧
    Spawns k₁ (held ∪ client.ownSockets) ⟨client.pid.toNat, client.stdinFd.toNat⟩ k'

inductive BuildEnds (k : Kernel) (held : Finset Resource) :
    Except Error Unit × CaptureClient → Kernel → Prop
  | failed (e : Error) (client : CaptureClient) (k' : Kernel) (h : Built k held client k') :
      BuildEnds k held (.error e, client) k'
  | launched (client : CaptureClient) (k' : Kernel) (h : Launches k held client k') :
      BuildEnds k held (.ok (), client) k'

namespace Built

variable {k₁ k₂ : Kernel} {client : CaptureClient} {α β : Type} {next : α → Building Unit}

theorem trans (h : Built k held client k₁)
    (hCalm : Calm k₁ (held ∪ client.ownSockets) k₂ (held ∪ client.ownSockets)) :
    Built k held client k₂ :=
  ⟨h.session, h.apart, h.fresh, h.calm.trans hCalm⟩

theorem quiet_bind (h : Built k held client k₁) {code : Throwing α}
    (hCode : Program.Finishes (fun op => op.isQuiet = true) (fun _ => True) code.run)
    (hNext : ∀ a k', Built k held client k' →
      host.Ensures ((next a).run.run client) (BuildEnds k held) k') :
    host.Ensures ((building code >>= next).run.run client) (BuildEnds k held) k₁ := by
  refine (ensures_building (ensures_calm h.calm.owns hCode)).bindState ?_ ?_
  · rintro e _ k' ⟨⟨-, hKept⟩, rfl⟩
    exact .failed e _ k' (h.trans hKept)
  · rintro a _ k' ⟨⟨-, hKept⟩, rfl⟩
    exact hNext a k' (h.trans hKept)

theorem renew_bind (h : Built k held client k₁) {strerror : NngError → String}
    {protocol : Protocol} {member : Socket} (hClosed : member.isOpen = false)
    {next : Socket → Building Unit}
    (hNext : ∀ socket k', Disjoint socket.own (held ∪ client.ownSockets) →
      Calm k held k' (held ∪ client.ownSockets ∪ socket.own) →
      host.Ensures ((next socket).run.run client) (BuildEnds k held) k') :
    host.Ensures ((building (renew strerror protocol member) >>= next).run.run client)
      (BuildEnds k held) k₁ := by
  refine (ensures_building (ensures_renew h.calm.owns strerror protocol hClosed)).bindState ?_ ?_
  · rintro e _ k' ⟨hFailed, rfl⟩
    cases hFailed with
    | failed _ _ hCalm => exact .failed e _ k' (h.trans hCalm)
  · rintro socket _ k' ⟨hObtained, rfl⟩
    cases hObtained with
    | obtained _ _ hNew hCalm => exact hNext socket k' hNew (h.calm.trans hCalm)

theorem add (h : Built k held client k₁) {socket : Socket}
    (hNew : Disjoint socket.own (held ∪ client.ownSockets))
    (hCalm : Calm k held k₂ (held ∪ client.ownSockets ∪ socket.own)) {client' : CaptureClient}
    (hSession : client'.toCaptureClient = client.toCaptureClient) (hApart : client'.Apart)
    (hSockets : client'.ownSockets = client.ownSockets ∪ socket.own) : Built k held client' k₂ := by
  refine ⟨hSession.trans h.session, hApart, ?_, ?_⟩
  · rw [hSockets]
    exact Finset.disjoint_union_left.mpr ⟨h.fresh, (Finset.disjoint_union_right.mp hNew).1⟩
  · rw [hSockets, ← Finset.union_assoc]
    exact hCalm

end Built

section
variable (setting : Setting) (argv : List String) (device : String)

theorem ensures_build (h : Owns k held) (hStarting : k.starting = none) :
    host.Ensures ((build setting argv device).run.run .default) (BuildEnds k held) k := by
  have hBuilt : Built k held .default k := by
    refine ⟨rfl, ?_, ?_, ?_⟩
    · exact Finset.disjoint_empty_left _
    · exact Finset.disjoint_empty_left _
    · exact (Finset.union_empty held).symm ▸ Calm.of_owns h
  refine hBuilt.quiet_bind (finishes_onFiles _) fun endpoints k₁ hBuilt => ?_
  refine Host.ensures_modify_bind.mpr (Host.ensures_get_bind.mpr ?_)
  have hBuilt₁ : Built k held { CaptureClient.default with endpoints := some endpoints } k₁ :=
    ⟨rfl, hBuilt.apart, hBuilt.fresh, hBuilt.calm⟩
  refine hBuilt₁.renew_bind rfl fun control k₂ hNew hCalm => ?_
  refine Host.ensures_modify_bind.mpr ?_
  let client₂ : CaptureClient :=
    { CaptureClient.default with endpoints := some endpoints, control := control }
  have hBuilt₂ : Built k held client₂ k₂ := by
    refine hBuilt₁.add hNew hCalm rfl (Finset.disjoint_empty_right _) ?_
    exact (Finset.union_empty control.own).trans (Finset.empty_union control.own).symm
  refine hBuilt₂.quiet_bind (Socket.finishes_listen _ _ _) fun _ k₃ hBuilt₃ => ?_
  refine hBuilt₃.quiet_bind (Socket.finishes_setRecvTimeout _ _ _) fun _ k₄ hBuilt₄ => ?_
  refine Host.ensures_get_bind.mpr ?_
  refine hBuilt₄.renew_bind rfl fun events k₅ hNew' hCalm' => ?_
  refine Host.ensures_modify_bind.mpr ?_
  let client₅ : CaptureClient := { client₂ with events := events }
  have hBuilt₅ : Built k held client₅ k₅ := by
    have hControl : client₂.ownSockets = control.own := Finset.union_empty control.own
    refine hBuilt₄.add hNew' hCalm' rfl ?_ ?_
    · exact ((Finset.disjoint_union_right.mp hNew').2.mono_right hControl.ge).symm
    · rw [hControl]
      rfl
  refine hBuilt₅.quiet_bind (Socket.finishes_listen _ _ _) fun _ k₆ hBuilt₆ => ?_
  refine (ensures_building (ensures_spawnPlugin hBuilt₆.calm.owns
    (hBuilt₆.calm.starting.trans hStarting) _ _)).bindState ?_ ?_
  · rintro e _ k₇ ⟨hFailed, rfl⟩
    cases hFailed with
    | failed _ _ hCalm => exact .failed e _ k₇ (hBuilt₆.trans hCalm)
  · rintro spawned _ k₇ ⟨hSpawned, rfl⟩
    cases hSpawned with
    | spawned _ _ hSpawns =>
      refine BuildEnds.launched _ k₇ ⟨hBuilt₆.apart, hBuilt₆.fresh, ?_, ?_, k₆, hBuilt₆.calm, ?_⟩
      · exact Int.natCast_pos.mpr hSpawns.pid_pos
      · exact Int.natCast_pos.mpr hSpawns.fd_pos
      · exact hSpawns

/-- How `launch` ends. -/
inductive LaunchEnds (k : Kernel) (held : Finset Resource) :
    Except Error CaptureClient → Kernel → Prop
  | failed (e : Error) (k' : Kernel) (h : Calm k held k' held) : LaunchEnds k held (.error e) k'
  | launched (client : CaptureClient) (k' : Kernel) (h : Launches k held client k') :
      LaunchEnds k held (.ok client) k'

theorem Built.own_eq {k' : Kernel} {client : CaptureClient} (h : Built k held client k') :
    client.own = client.ownSockets := by
  rw [own, h.session]
  exact Finset.empty_union client.ownSockets

theorem ensures_launch (h : Owns k held) (hStarting : k.starting = none) :
    host.Ensures (launch setting argv device).run (LaunchEnds k held) k := by
  unfold launch
  split
  · exact .failed _ k (Calm.of_owns h)
  · refine (ensures_build setting argv device h hStarting).bindLift ?_
    rintro ⟨result, client⟩ k₁ hBuilt
    cases hBuilt with
    | launched _ _ hLaunches => exact .launched client k₁ hLaunches
    | failed e _ _ hBuilt =>
      have hOwn : client.own ⊆ held ∪ client.ownSockets :=
        hBuilt.own_eq.subset.trans Finset.subset_union_right
      refine (ensures_destroy hBuilt.calm.owns hBuilt.apart hOwn).bindLift fun _ k₂ hDestroyed => ?_
      rw [hBuilt.own_eq, Finset.union_sdiff_cancel_right hBuilt.fresh.symm] at hDestroyed
      exact .failed e k₂ (hBuilt.calm.trans hDestroyed)

end

end CaptureClient

end OpenMso.Cpp.Plugins
