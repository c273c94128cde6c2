import OpenMso.Cpp.Plugins.Launch
import OpenMso.Foundation.Runs

/-! # A frontend with any number of clients

The frontend has one thread, so its operations follow one another; between
them the plugins do as they like with descriptors of their own, and so do nng
and the rest of the frontend.
-/

namespace OpenMso.Cpp.Plugins

open Foundation Foundation.Runs OpenMso.Transport
open OpenMso.Client (Call)
open Cpp.Client (Runtime)

set_option autoImplicit false

/-- What the system answers the operations of a call, one after another. -/
abbrev Oracle := Nat → (op : Op) → op.Answer

inductive Action (Config : Type) where
  | launch (i : Nat) (setting : CaptureClient.Setting) (argv : List String) (device : String)
  /-- Client `i` is made of client `j`. -/
  | moveConstruct (i j : Nat)
  /-- Client `j` is assigned to client `i`. -/
  | moveAssign (i j : Nat)
  | call (i : Nat) (call : Call Config)
  | destroy (i : Nat)
  /-- A plugin closes a descriptor of its own, duplicates it or opens one. -/
  | plugin (pid : Nat) (call : ChildCall)
  | pluginExits (pid : Nat)
  /-- What nng does in its threads, and the frontend elsewhere. -/
  | others (calls : List OtherCall)

structure State where
  kernel : Kernel
  clients : Nat → Option CaptureClient

def State.initial (opened : Nat → Option Bool) (sockets : Finset Nat)
    (others : Nat → List OtherCall) : State :=
  ⟨.initial opened sockets others, fun _ => none⟩

namespace State

section
variable {Config Description : Type} (runtime : Runtime Config Description)

def step (s : State) : Action Config × Oracle → Option State
  | (.launch i setting argv device, oracle) =>
    match s.clients i with
    | some _ => none
    | none =>
      (host.run oracle (CaptureClient.launch setting argv device).run s.kernel).map fun ended =>
        ⟨ended.2, Function.update s.clients i ended.1.toOption⟩
  | (.moveConstruct i j, _) =>
    match s.clients i, s.clients j with
    | none, some other =>
      let moved := other.moveConstruct
      some { s with
        clients := Function.update (Function.update s.clients i (some moved.1)) j (some moved.2) }
    | _, _ => none
  | (.moveAssign i j, oracle) =>
    match s.clients i, s.clients j with
    | some client, some other =>
      if i = j then some s
      else (host.run oracle (client.moveAssign other) s.kernel).map fun ended =>
        ⟨ended.2,
          Function.update (Function.update s.clients i (some ended.1.1)) j (some ended.1.2)⟩
    | _, _ => none
  | (.call i call, oracle) =>
    match s.clients i with
    | none => none
    | some client =>
      (host.run oracle (client.call runtime call) s.kernel).map fun ended =>
        ⟨ended.2, Function.update s.clients i (some ended.1.2)⟩
  | (.destroy i, oracle) =>
    match s.clients i with
    | none => none
    | some client =>
      (host.run oracle client.destroy s.kernel).map fun ended =>
        ⟨ended.2, Function.update s.clients i none⟩
  | (.plugin pid call, _) =>
    some { s with kernel := s.kernel.setChild pid fun process => process.does call }
  | (.pluginExits pid, _) => some { s with kernel := s.kernel.setChild pid Process.ended }
  | (.others calls, _) => some { s with kernel := s.kernel.beside calls }

end

/-- What client `i` owns. -/
def own (s : State) (i : Nat) : Finset Resource := (s.clients i).elim ∅ CaptureClient.own

end State

/-! ## The plugin of a client -/

/-- Of the read ends of stdin pipes a process has one pipe's only. -/
def Process.ReadsOnly (process : Process) (id : Nat) : Prop :=
  ∀ fd descriptor other, process.table fd = some descriptor →
    descriptor.file = .readEnd .stdinPipe other → other = id

/-- A client has a plugin and its stdin, or neither; and the plugin reads that stdin. -/
structure Attached (k : Kernel) (session : Client.CaptureClient) : Prop where
  both : 0 < session.pid ↔ 0 ≤ session.stdinFd
  stdin : 0 ≤ session.stdinFd → 0 < session.stdinFd ∧ ∃ id,
    k.table session.stdinFd.toNat = some ⟨.writeEnd .stdinPipe id, false⟩ ∧
      ∀ process, k.children session.pid.toNat = some process → process.ReadsOnly id

/-- The write ends of stdin pipes are of different pipes. -/
structure Ends (k : Kernel) : Prop where
  lt : ∀ fd pipe id closeOnExec, k.table fd = some ⟨.writeEnd pipe id, closeOnExec⟩ → id < k.pipes
  unique : ∀ fd fd' id a b, k.table fd = some ⟨.writeEnd .stdinPipe id, a⟩ →
    k.table fd' = some ⟨.writeEnd .stdinPipe id, b⟩ → fd = fd'

/-- What holds between the calls of a frontend. -/
structure Keeps (s : State) : Prop where
  owns : Owns s.kernel (discipline.held s.kernel.log)
  shared : Shared (discipline.held s.kernel.log) s.own
  starting : s.kernel.starting = none
  ends : Ends s.kernel
  apart : ∀ i client, s.clients i = some client → client.Apart
  attached : ∀ i client, s.clients i = some client → Attached s.kernel client.toCaptureClient

/-! ## States that differ calmly -/

theorem Process.readsOnly_ended (process : Process) (id : Nat) : process.ended.ReadsOnly id :=
  nofun

theorem Process.exists_of_does {process : Process} {call : ChildCall} {fd : Nat}
    {descriptor : Descriptor} (h : (process.does call).table fd = some descriptor)
    (hFile : descriptor.file ≠ .other) :
    ∃ fd' descriptor', process.table fd' = some descriptor' ∧ descriptor'.file = descriptor.file := by
  unfold does at h
  split at h
  · exact ⟨fd, descriptor, h, rfl⟩
  · exact ChildCall.exists_of_apply h hFile

theorem Process.ReadsOnly.does {process : Process} {id : Nat} (h : process.ReadsOnly id)
    (call : ChildCall) : (process.does call).ReadsOnly id := by
  intro fd descriptor other hThere hFile
  obtain ⟨fd', descriptor', hThere', hSame⟩ :=
    Process.exists_of_does hThere (hFile ▸ File.readEnd_ne_other _ _)
  exact h fd' descriptor' other hThere' (hSame.trans hFile)

section
variable {k k' : Kernel} {held held' : Finset Resource}

theorem Attached.of_closed {session : Client.CaptureClient} (hPid : session.pid ≤ 0)
    (hStdin : session.stdinFd < 0) : Attached k session := by
  constructor
  · constructor
    · intro h
      exact absurd h (Int.not_lt.mpr hPid)
    · intro h
      exact absurd h (Int.not_le.mpr hStdin)
  · intro h
    exact absurd h (Int.not_le.mpr hStdin)

theorem mem_ownPlugin_fd {session : Client.CaptureClient} {fd : Nat} :
    .fd fd ∈ ownPlugin session ↔ 0 ≤ session.stdinFd ∧ fd = session.stdinFd.toNat := by
  rw [ownPlugin, Finset.mem_union]
  split <;> split <;> simp [*]

theorem mem_ownPlugin_pid {session : Client.CaptureClient} {pid : Nat} :
    .pid pid ∈ ownPlugin session ↔ 0 < session.pid ∧ pid = session.pid.toNat := by
  rw [ownPlugin, Finset.mem_union]
  split <;> split <;> simp [*]

theorem Attached.of_same {session session' : Client.CaptureClient} (h : Attached k session)
    (hSame : SamePlugin session session') : Attached k session' := by
  constructor
  · rw [hSame.1, hSame.2]
    exact h.both
  · rw [hSame.1, hSame.2]
    exact h.stdin

theorem Attached.calm {session : Client.CaptureClient} (h : Attached k session)
    (hCalm : Calm k held k' held') (hOwn : ownPlugin session ⊆ held') : Attached k' session := by
  refine ⟨h.both, fun hOpen => ?_⟩
  obtain ⟨hPos, id, hTable, hReads⟩ := h.stdin hOpen
  have hFd := hCalm.table _ (hOwn (mem_ownPlugin_fd.mpr ⟨hOpen, rfl⟩))
  refine ⟨hPos, id, hFd.2.trans hTable, fun process hChild => ?_⟩
  obtain ⟨before, hBefore, hNow⟩ := hCalm.children _ process hChild
  obtain rfl | rfl := hNow
  · exact hReads process hBefore
  · exact before.readsOnly_ended id

theorem Ends.calm (h : Ends k) (hCalm : Calm k held k' held') : Ends k' := by
  constructor
  · intro fd pipe id closeOnExec hEnd
    exact (h.lt fd pipe id closeOnExec (hCalm.table_of_end hEnd (File.writeEnd_ne_other _ _))).trans_le hCalm.pipes
  · intro fd fd' id a b hEnd hEnd'
    have hFile := File.writeEnd_ne_other .stdinPipe id
    exact h.unique fd fd' id a b (hCalm.table_of_end hEnd hFile) (hCalm.table_of_end hEnd' hFile)

end

theorem State.own_update (s : State) (k : Kernel) (i : Nat) (client : Option CaptureClient) :
    (⟨k, Function.update s.clients i client⟩ : State).own =
      Function.update s.own i (client.elim ∅ CaptureClient.own) := by
  funext j
  exact Function.apply_update (fun _ client => Option.elim client ∅ CaptureClient.own) s.clients i
    client j

theorem forall_update {P : CaptureClient → Prop} {clients : Nat → Option CaptureClient} {i : Nat}
    {new : Option CaptureClient} (h : ∀ j client, clients j = some client → P client)
    (hNew : ∀ client, new = some client → P client) :
    ∀ j client, Function.update clients i new j = some client → P client := by
  intro j client hClient
  by_cases hj : j = i
  · rw [hj, Function.update_self] at hClient
    exact hNew client hClient
  · rw [Function.update_of_ne hj] at hClient
    exact h j client hClient

namespace Keeps

variable {s : State}

theorem own_eq {i : Nat} {client : CaptureClient} (hClient : s.clients i = some client) :
    s.own i = client.own := by
  rw [State.own, hClient, Option.elim_some]

theorem own_subset (h : Keeps s) {i : Nat} {client : CaptureClient}
    (hClient : s.clients i = some client) : client.own ⊆ discipline.held s.kernel.log :=
  own_eq hClient ▸ h.shared.subset i

theorem of_calm (h : Keeps s) {k : Kernel} {held : Finset Resource}
    {clients : Nat → Option CaptureClient}
    (hCalm : Calm s.kernel (discipline.held s.kernel.log) k held)
    (hShared : Shared held (⟨k, clients⟩ : State).own)
    (hApart : ∀ i client, clients i = some client → client.Apart)
    (hAttached : ∀ i client, clients i = some client →
      Attached s.kernel client.toCaptureClient) :
    Keeps ⟨k, clients⟩ := by
  have hHeld := hCalm.owns.held_eq
  refine ⟨hHeld ▸ hCalm.owns, hHeld ▸ hShared, hCalm.starting.trans h.starting, h.ends.calm hCalm,
    hApart, fun i client hClient => ?_⟩
  have hOwned : (⟨k, clients⟩ : State).own i = client.own := own_eq hClient
  refine (hAttached i client hClient).calm hCalm (client.ownPlugin_subset.trans ?_)
  rw [← hOwned]
  exact hShared.subset i

/-! ## The frontend's own steps -/

variable (h : Keeps s) {i : Nat} {client : CaptureClient} (hClient : s.clients i = some client)
include h hClient

theorem destroy {k : Kernel} (hCalm : Calm s.kernel (discipline.held s.kernel.log) k
      (discipline.held s.kernel.log \ client.own)) :
    Keeps ⟨k, Function.update s.clients i none⟩ := by
  refine h.of_calm hCalm ?_ (forall_update h.apart nofun) (forall_update h.attached nofun)
  rw [State.own_update, ← own_eq hClient]
  have hShared := h.shared.yield (Finset.empty_subset (s.own i))
  rw [Finset.sdiff_empty] at hShared
  exact hShared

theorem call {k : Kernel} {session : Client.CaptureClient}
    (hCall : SamePlugin client.toCaptureClient session ∧
        Calm s.kernel (discipline.held s.kernel.log) k (discipline.held s.kernel.log) ∨
      Gone s.kernel (discipline.held s.kernel.log) client.toCaptureClient session k) :
    Keeps ⟨k, Function.update s.clients i (some { client with toCaptureClient := session })⟩ := by
  have hApart := h.apart i client hClient
  have hAttached := h.attached i client hClient
  obtain ⟨hSame, hCalm⟩ | hGone := hCall
  · refine h.of_calm hCalm ?_ (forall_update h.apart ?_) (forall_update h.attached ?_)
    · have hOwn : CaptureClient.own { client with toCaptureClient := session } = s.own i := by
        rw [own_eq hClient, CaptureClient.own, hSame.ownPlugin_eq]
        rfl
      rw [State.own_update, Option.elim_some, hOwn, Function.update_eq_self]
      exact h.shared
    · rintro _ ⟨⟩
      exact hApart
    · rintro _ ⟨⟩
      exact hAttached.of_same hSame
  · refine h.of_calm hGone.calm ?_ (forall_update h.apart ?_) (forall_update h.attached ?_)
    · have hOwn : CaptureClient.own { client with toCaptureClient := session } =
          client.ownSockets := by
        rw [CaptureClient.own, hGone.ownPlugin_eq]
        exact Finset.empty_union _
      have hShared := h.shared.yield (own_eq hClient ▸ client.ownSockets_subset)
      rw [own_eq hClient, CaptureClient.own, Finset.union_sdiff_cancel_right
        (client.disjoint_ownSockets client.toCaptureClient).symm] at hShared
      rw [State.own_update, Option.elim_some, hOwn]
      exact hShared
    · rintro _ ⟨⟩
      exact hApart
    · rintro _ ⟨⟩
      exact .of_closed hGone.pid hGone.stdinFd

omit hClient in
/-- The client takes over what another one has, when it has nothing itself. -/
theorem take {j : Nat} {other : CaptureClient} (hne : i ≠ j) (hOther : s.clients j = some other)
    {k : Kernel} {held : Finset Resource}
    (hCalm : Calm s.kernel (discipline.held s.kernel.log) k held)
    (hShared : Shared held (Function.update s.own i ∅)) :
    Keeps ⟨k, Function.update (Function.update s.clients i (some other)) j
      (some other.movedFrom)⟩ := by
  refine h.of_calm hCalm ?_ (forall_update (forall_update h.apart ?_) ?_)
    (forall_update (forall_update h.attached ?_) ?_)
  · have hPass := hShared.pass (i := i) (j := j) (Function.update_self ..)
    rw [Function.update_of_ne hne.symm, Function.update_idem, own_eq hOther] at hPass
    rw [State.own_update ⟨k, _⟩, State.own_update s, Option.elim_some, Option.elim_some,
      other.own_movedFrom]
    exact hPass
  · rintro _ ⟨⟩
    exact h.apart j other hOther
  · rintro _ ⟨⟩
    exact Finset.disjoint_empty_left _
  · rintro _ ⟨⟩
    exact h.attached j other hOther
  · rintro _ ⟨⟩
    exact .of_closed (Int.negSucc_lt_zero 0).le (Int.negSucc_lt_zero 0)

theorem moveAssign {j : Nat} {other : CaptureClient} (hne : i ≠ j)
    (hOther : s.clients j = some other) {k : Kernel}
    (hCalm : Calm s.kernel (discipline.held s.kernel.log) k
      (discipline.held s.kernel.log \ client.own)) :
    Keeps ⟨k, Function.update (Function.update s.clients i (some other)) j
      (some other.movedFrom)⟩ := by
  refine h.take hne hOther hCalm ?_
  have hShared := h.shared.yield (Finset.empty_subset (s.own i))
  rw [Finset.sdiff_empty, own_eq hClient] at hShared
  exact hShared

omit hClient in
theorem moveConstruct {j : Nat} {other : CaptureClient} (hNone : s.clients i = none)
    (hOther : s.clients j = some other) :
    Keeps ⟨s.kernel, Function.update (Function.update s.clients i (some other)) j
      (some other.movedFrom)⟩ := by
  have hne : i ≠ j := by
    rintro rfl
    rw [hNone] at hOther
    cases hOther
  have hOwn : s.own i = ∅ := by
    rw [State.own, hNone, Option.elim_none]
  refine h.take hne hOther (Calm.of_owns h.owns) ?_
  rw [← hOwn, Function.update_eq_self]
  exact h.shared

end Keeps

/-! ## A launch -/

theorem CaptureClient.mem_own_fd {client : CaptureClient} {fd : Nat} :
    .fd fd ∈ client.own ↔ 0 ≤ client.stdinFd ∧ fd = client.stdinFd.toNat := by
  rw [own, Finset.mem_union, mem_ownPlugin_fd, or_iff_left]
  unfold ownSockets Socket.own
  split <;> split <;> simp

theorem CaptureClient.mem_own_pid {client : CaptureClient} {pid : Nat} :
    .pid pid ∈ client.own ↔ 0 < client.pid ∧ pid = client.pid.toNat := by
  rw [own, Finset.mem_union, mem_ownPlugin_pid, or_iff_left]
  unfold ownSockets Socket.own
  split <;> split <;> simp

/-- The frontend has no end of a pipe but the write ends of its plugins' stdin. -/
theorem Keeps.descriptor {s : State} (h : Keeps s) {fd : Nat} {descriptor : Descriptor}
    (hEnd : s.kernel.table fd = some descriptor) (hFile : descriptor.file ≠ .other) :
    ∃ i client id, s.clients i = some client ∧ 0 ≤ client.stdinFd ∧ fd = client.stdinFd.toNat ∧
      descriptor = ⟨.writeEnd .stdinPipe id, false⟩ := by
  obtain ⟨i, hOwn⟩ := (h.shared.mem_held _).mp (h.owns.backs.ends fd descriptor hEnd hFile)
  cases hClient : s.clients i with
  | none =>
    rw [State.own, hClient] at hOwn
    exact absurd hOwn (Finset.notMem_empty _)
  | some client =>
    rw [Keeps.own_eq hClient, CaptureClient.mem_own_fd] at hOwn
    obtain ⟨hOpen, rfl⟩ := hOwn
    obtain ⟨-, id, hTable, -⟩ := (h.attached i client hClient).stdin hOpen
    exact ⟨i, client, id, hClient, hOpen, rfl, Option.some.inj (hEnd.symm.trans hTable)⟩

section
variable {k k' : Kernel} {held : Finset Resource} {spawned : Spawned}

theorem Ends.spawns (h : Ends k) (hSpawns : Spawns k held spawned k') : Ends k' := by
  constructor
  · intro fd pipe id closeOnExec hEnd
    rw [hSpawns.table, Function.update_apply] at hEnd
    split at hEnd
    · cases hEnd
      exact hSpawns.pipes
    · exact (h.lt fd pipe id closeOnExec hEnd).trans hSpawns.pipes
  · intro fd fd' id a b hEnd hEnd'
    have hOld : ∀ fd a, k.table fd ≠ some ⟨.writeEnd .stdinPipe k.pipes, a⟩ :=
      fun fd a hThere => lt_irrefl _ (h.lt fd _ _ a hThere)
    rw [hSpawns.table, Function.update_apply] at hEnd hEnd'
    grind [h.unique fd fd' id a b]

theorem Attached.spawns {session : Client.CaptureClient} (h : Attached k session)
    (hSpawns : Spawns k held spawned k') (hOwns : Owns k held)
    (hOwn : ownPlugin session ⊆ held) : Attached k' session := by
  refine ⟨h.both, fun hOpen => ?_⟩
  obtain ⟨hPos, id, hTable, hReads⟩ := h.stdin hOpen
  have hFd : session.stdinFd.toNat ≠ spawned.stdinFd := by
    intro hSame
    rw [hSame, hSpawns.fd_new] at hTable
    cases hTable
  have hPid : session.pid.toNat ≠ spawned.pid := by
    intro hSame
    have hThere := hOwns.backs.pid _ (hOwn (mem_ownPlugin_pid.mpr ⟨h.both.mpr hOpen, rfl⟩))
    rw [hSame, hSpawns.pid_new] at hThere
    cases hThere
  obtain ⟨process, -, hChildren⟩ := hSpawns.children
  refine ⟨hPos, id, ?_, ?_⟩
  · rw [hSpawns.table, Function.update_of_ne hFd]
    exact hTable
  · rw [hChildren, Function.update_of_ne hPid]
    exact hReads

end

theorem Process.ReadsOnly.of_inherited {process : Process} {table : Table} {id : Nat}
    (h : process.table = table.inherited id)
    (hNone : ∀ fd pipe other a, table fd ≠ some ⟨.readEnd pipe other, a⟩) :
    process.ReadsOnly id := by
  intro fd descriptor other hThere hFile
  rw [h, Table.inherited, Function.update_apply] at hThere
  split at hThere
  · obtain ⟨stdin, -, rfl⟩ := Option.map_eq_some_iff.mp hThere
    cases hFile
    rfl
  · obtain ⟨hTable, -⟩ := Option.filter_eq_some_iff.mp hThere
    obtain ⟨file, closeOnExec⟩ := descriptor
    cases hFile
    exact absurd hTable (hNone fd .stdinPipe other closeOnExec)

theorem Keeps.launch {s : State} (h : Keeps s) {i : Nat} (hNone : s.clients i = none)
    {client : CaptureClient} {k : Kernel}
    (hLaunches : client.Launches s.kernel (discipline.held s.kernel.log) k) :
    Keeps ⟨k, Function.update s.clients i (some client)⟩ := by
  obtain ⟨k₁, hCalm, hSpawns⟩ := hLaunches.between
  have hPlugin : ownPlugin client.toCaptureClient =
      {.fd client.stdinFd.toNat} ∪ {.pid client.pid.toNat} := by
    rw [ownPlugin, if_pos hLaunches.stdinFd_pos.le, if_pos hLaunches.pid_pos]
  have hHeld : discipline.held s.kernel.log ∪ client.ownSockets ∪
      {.pid client.pid.toNat, .fd client.stdinFd.toNat} =
        discipline.held s.kernel.log ∪ client.own := by
    rw [CaptureClient.own, hPlugin]
    grind
  have hNewFd : .fd client.stdinFd.toNat ∉ discipline.held s.kernel.log := by
    intro hMem
    obtain ⟨_, hThere, -⟩ := hCalm.owns.backs.fd _ (Finset.mem_union_left _ hMem)
    rw [hSpawns.fd_new] at hThere
    cases hThere
  have hNewPid : .pid client.pid.toNat ∉ discipline.held s.kernel.log := by
    intro hMem
    have hThere := hCalm.owns.backs.pid _ (Finset.mem_union_left _ hMem)
    rw [hSpawns.pid_new] at hThere
    cases hThere
  have hNew : Disjoint client.own (discipline.held s.kernel.log) := by
    rw [CaptureClient.own, hPlugin, Finset.disjoint_union_left, Finset.disjoint_union_left]
    exact ⟨⟨Finset.disjoint_singleton_left.mpr hNewFd, Finset.disjoint_singleton_left.mpr hNewPid⟩,
      hLaunches.fresh⟩
  have hOwned : s.own i = ∅ := by
    rw [State.own, hNone, Option.elim_none]
  have hOwns := hSpawns.owns
  rw [hHeld] at hOwns
  have hShared := h.shared.acquire hOwned hNew
  refine ⟨hOwns.held_eq ▸ hOwns, ?_, hSpawns.starting, (h.ends.calm hCalm).spawns hSpawns,
    forall_update h.apart ?_, forall_update ?_ ?_⟩
  · rw [State.own_update, Option.elim_some, hOwns.held_eq]
    exact hShared
  · rintro _ ⟨⟩
    exact hLaunches.apart
  · intro j other hOther
    have hSubset : ownPlugin other.toCaptureClient ⊆
        discipline.held s.kernel.log ∪ client.ownSockets :=
      other.ownPlugin_subset.trans ((h.own_subset hOther).trans Finset.subset_union_left)
    exact ((h.attached j other hOther).calm hCalm hSubset).spawns hSpawns hCalm.owns hSubset
  · rintro _ ⟨⟩
    obtain ⟨process, hTable, hChildren⟩ := hSpawns.children
    refine ⟨iff_of_true hLaunches.pid_pos hLaunches.stdinFd_pos.le, fun _ =>
      ⟨hLaunches.stdinFd_pos, k₁.pipes, ?_, fun child hChild => ?_⟩⟩
    · rw [hSpawns.table, Function.update_self]
    · rw [hChildren, Function.update_self] at hChild
      cases hChild
      refine .of_inherited hTable fun fd pipe other closeOnExec hEnd => ?_
      have hFile := File.readEnd_ne_other pipe other
      obtain ⟨_, _, _, _, _, _, hEq⟩ := h.descriptor (hCalm.table_of_end hEnd hFile) hFile
      cases hEq

/-! ## What the plugins do -/

theorem Keeps.setChild {s : State} (h : Keeps s) (pid : Nat) {f : Process → Process}
    (hReads : ∀ process id, process.ReadsOnly id → (f process).ReadsOnly id) :
    Keeps ⟨s.kernel.setChild pid f, s.clients⟩ := by
  have hOwns : Owns (s.kernel.setChild pid f) (discipline.held s.kernel.log) :=
    ⟨h.owns.orderly, rfl, h.owns.backs.setChild pid f⟩
  refine ⟨hOwns, h.shared, h.starting, ⟨h.ends.lt, h.ends.unique⟩, h.apart, ?_⟩
  intro i client hClient
  obtain ⟨hBoth, hStdin⟩ := h.attached i client hClient
  refine ⟨hBoth, fun hOpen => ?_⟩
  obtain ⟨hPos, id, hTable, hChildren⟩ := hStdin hOpen
  refine ⟨hPos, id, hTable, fun process hChild => ?_⟩
  change Function.update s.kernel.children pid _ _ = some process at hChild
  rw [Function.update_apply] at hChild
  split at hChild
  · rename_i hSame
    obtain ⟨before, hBefore, rfl⟩ := Option.map_eq_some_iff.mp hChild
    exact hReads before id (hChildren before (hSame ▸ hBefore))
  · exact hChildren process hChild

theorem Keeps.beside {s : State} (h : Keeps s) (calls : List OtherCall) :
    Keeps ⟨s.kernel.beside calls, s.clients⟩ := by
  have hOwns : Owns (s.kernel.beside calls) (discipline.held s.kernel.log) :=
    ⟨h.owns.orderly, rfl, h.owns.backs.beside calls⟩
  have hTable : ∀ fd descriptor, descriptor.file ≠ .other →
      ((s.kernel.beside calls).table fd = some descriptor ↔ s.kernel.table fd = some descriptor) :=
    fun fd descriptor hFile => OtherCall.foldl_apply_eq_some_iff calls hFile
  refine ⟨hOwns, h.shared, h.starting, ⟨?_, ?_⟩, h.apart, fun i client hClient => ?_⟩
  · intro fd pipe id closeOnExec hEnd
    exact h.ends.lt fd pipe id closeOnExec ((hTable fd _ (File.writeEnd_ne_other _ _)).mp hEnd)
  · intro fd fd' id a b hEnd hEnd'
    have hFile := File.writeEnd_ne_other .stdinPipe id
    exact h.ends.unique fd fd' id a b ((hTable fd _ hFile).mp hEnd) ((hTable fd' _ hFile).mp hEnd')
  · obtain ⟨hBoth, hStdin⟩ := h.attached i client hClient
    refine ⟨hBoth, fun hOpen => ?_⟩
    obtain ⟨hPos, id, hEnd, hReads⟩ := hStdin hOpen
    exact ⟨hPos, id, (hTable _ _ (File.writeEnd_ne_other _ _)).mpr hEnd, hReads⟩

/-! ## Steps -/

/-- What one step can come to. -/
inductive Stepped {Config : Type} (s : State) : Action Config × Oracle → State → Prop
  | launched (i : Nat) (setting : CaptureClient.Setting) (argv : List String) (device : String)
      (oracle : Oracle) (client : CaptureClient) (k : Kernel) (hNone : s.clients i = none)
      (h : client.Launches s.kernel (discipline.held s.kernel.log) k) :
      Stepped s (.launch i setting argv device, oracle)
        ⟨k, Function.update s.clients i (some client)⟩
  | failed (i : Nat) (setting : CaptureClient.Setting) (argv : List String) (device : String)
      (oracle : Oracle) (k : Kernel) (hNone : s.clients i = none)
      (h : Calm s.kernel (discipline.held s.kernel.log) k (discipline.held s.kernel.log)) :
      Stepped s (.launch i setting argv device, oracle) ⟨k, s.clients⟩
  | moveConstruct (i j : Nat) (oracle : Oracle) (other : CaptureClient)
      (hNone : s.clients i = none) (hOther : s.clients j = some other) :
      Stepped s (.moveConstruct i j, oracle) ⟨s.kernel,
        Function.update (Function.update s.clients i (some other)) j (some other.movedFrom)⟩
  | assignSelf (i : Nat) (oracle : Oracle) (client : CaptureClient)
      (hClient : s.clients i = some client) : Stepped s (.moveAssign i i, oracle) s
  | moveAssign (i j : Nat) (oracle : Oracle) (client other : CaptureClient) (k : Kernel)
      (hne : i ≠ j) (hClient : s.clients i = some client) (hOther : s.clients j = some other)
      (h : Calm s.kernel (discipline.held s.kernel.log) k
        (discipline.held s.kernel.log \ client.own)) :
      Stepped s (.moveAssign i j, oracle) ⟨k,
        Function.update (Function.update s.clients i (some other)) j (some other.movedFrom)⟩
  | call (i : Nat) (call : Call Config) (oracle : Oracle) (client : CaptureClient)
      (session : Client.CaptureClient) (k : Kernel) (hClient : s.clients i = some client)
      (h : SamePlugin client.toCaptureClient session ∧
          Calm s.kernel (discipline.held s.kernel.log) k (discipline.held s.kernel.log) ∨
        Gone s.kernel (discipline.held s.kernel.log) client.toCaptureClient session k) :
      Stepped s (.call i call, oracle)
        ⟨k, Function.update s.clients i (some { client with toCaptureClient := session })⟩
  | destroy (i : Nat) (oracle : Oracle) (client : CaptureClient) (k : Kernel)
      (hClient : s.clients i = some client)
      (h : Calm s.kernel (discipline.held s.kernel.log) k
        (discipline.held s.kernel.log \ client.own)) :
      Stepped s (.destroy i, oracle) ⟨k, Function.update s.clients i none⟩
  | plugin (pid : Nat) (call : ChildCall) (oracle : Oracle) :
      Stepped s (.plugin pid call, oracle)
        ⟨s.kernel.setChild pid fun process => process.does call, s.clients⟩
  | pluginExits (pid : Nat) (oracle : Oracle) :
      Stepped s (.pluginExits pid, oracle) ⟨s.kernel.setChild pid Process.ended, s.clients⟩
  | others (calls : List OtherCall) (oracle : Oracle) :
      Stepped s (.others calls, oracle) ⟨s.kernel.beside calls, s.clients⟩

section
variable {Config Description : Type} {runtime : Runtime Config Description} {s t : State}

theorem Keeps.stepped (h : Keeps s) {action : Action Config × Oracle}
    (hStep : s.step runtime action = some t) : Stepped s action t := by
  obtain ⟨action, oracle⟩ := action
  cases action with
  | launch i setting argv device =>
    rw [State.step] at hStep
    split at hStep
    · cases hStep
    · rename_i hNone
      obtain ⟨⟨result, k⟩, hRun, rfl⟩ := Option.map_eq_some_iff.mp hStep
      have hEnds := (CaptureClient.ensures_launch setting argv device h.owns h.starting).of_run hRun
      cases hEnds with
      | launched client _ hLaunches =>
        exact .launched i setting argv device oracle client k hNone hLaunches
      | failed e _ hCalm =>
        have hSame : Function.update s.clients i none = s.clients :=
          Function.update_eq_self_iff.mpr hNone.symm
        change Stepped s _ ⟨k, Function.update s.clients i none⟩
        rw [hSame]
        exact .failed i setting argv device oracle k hNone hCalm
  | moveConstruct i j =>
    rw [State.step] at hStep
    split at hStep
    · rename_i other hNone hOther
      cases hStep
      exact .moveConstruct i j oracle other hNone hOther
    · cases hStep
  | moveAssign i j =>
    rw [State.step] at hStep
    split at hStep
    · rename_i client other hClient hOther
      split at hStep
      · rename_i hSame
        cases hStep
        cases hSame
        exact .assignSelf i oracle client hClient
      · rename_i hne
        obtain ⟨⟨moved, k⟩, hRun, rfl⟩ := Option.map_eq_some_iff.mp hStep
        obtain ⟨rfl, hCalm⟩ := (CaptureClient.ensures_moveAssign h.owns (h.apart i client hClient)
          (h.own_subset hClient) other).of_run hRun
        exact .moveAssign i j oracle client other k hne hClient hOther hCalm
    · cases hStep
  | call i call =>
    rw [State.step] at hStep
    split at hStep
    · cases hStep
    · rename_i client hClient
      obtain ⟨⟨⟨result, called⟩, k⟩, hRun, rfl⟩ := Option.map_eq_some_iff.mp hStep
      obtain ⟨session, rfl, hCall⟩ := (CaptureClient.ensures_call runtime h.owns
        (client.ownPlugin_subset.trans (h.own_subset hClient)) call).of_run hRun
      exact .call i call oracle client session k hClient hCall
  | destroy i =>
    rw [State.step] at hStep
    split at hStep
    · cases hStep
    · rename_i client hClient
      obtain ⟨⟨⟨⟩, k⟩, hRun, rfl⟩ := Option.map_eq_some_iff.mp hStep
      have hCalm := (CaptureClient.ensures_destroy h.owns (h.apart i client hClient)
        (h.own_subset hClient)).of_run hRun
      exact .destroy i oracle client k hClient hCalm
  | plugin pid call =>
    cases hStep
    exact .plugin pid call oracle
  | pluginExits pid =>
    cases hStep
    exact .pluginExits pid oracle
  | others calls =>
    cases hStep
    exact .others calls oracle

theorem Keeps.step (h : Keeps s) {action : Action Config × Oracle}
    (hStep : s.step runtime action = some t) : Keeps t := by
  cases h.stepped hStep with
  | launched i _ _ _ _ client k hNone hLaunches => exact h.launch hNone hLaunches
  | failed i _ _ _ _ k hNone hCalm => exact h.of_calm hCalm h.shared h.apart h.attached
  | moveConstruct i j _ other hNone hOther => exact h.moveConstruct hNone hOther
  | assignSelf i _ client hClient => exact h
  | moveAssign i j _ client other k hne hClient hOther hCalm =>
    exact h.moveAssign hClient hne hOther hCalm
  | call i _ _ client session k hClient hCall => exact h.call hClient hCall
  | destroy i _ client k hClient hCalm => exact h.destroy hClient hCalm
  | plugin pid call _ => exact h.setChild pid fun _ _ hReads => hReads.does call
  | pluginExits pid _ => exact h.setChild pid fun process id _ => process.readsOnly_ended id
  | others calls _ => exact h.beside calls

theorem Keeps.initial (opened : Nat → Option Bool) (sockets : Finset Nat)
    (others : Nat → List OtherCall) : Keeps (.initial opened sockets others) := by
  refine ⟨Owns.initial opened sockets others, Shared.empty, rfl, ⟨?_, ?_⟩, nofun, nofun⟩
  · intro fd pipe id closeOnExec hEnd
    obtain ⟨_, -, hEq⟩ := Option.map_eq_some_iff.mp hEnd
    cases hEq
  · intro fd fd' id a b hEnd
    obtain ⟨_, -, hEq⟩ := Option.map_eq_some_iff.mp hEnd
    cases hEq

theorem keeps_of_run {opened : Nat → Option Bool} {sockets : Finset Nat}
    {others : Nat → List OtherCall} {actions : List (Action Config × Oracle)}
    (h : run (State.step runtime) (.initial opened sockets others) actions = some s) : Keeps s :=
  run_invariant Keeps (fun hKeeps hStep => hKeeps.step hStep) (.initial opened sockets others) h

end

end OpenMso.Cpp.Plugins
