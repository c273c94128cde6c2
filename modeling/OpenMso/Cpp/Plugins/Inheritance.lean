import OpenMso.Cpp.Plugins.Release

/-! # What a plugin inherits

The write end of a plugin's stdin is not closed on exec, so the next plugin
that is launched has it too, and the end of that stdin is up to it as well.
-/

namespace OpenMso.Cpp.Plugins

open Foundation Foundation.Runs
open Cpp.Client (Runtime)

set_option autoImplicit false

def Table.HoldsStdin (table : Table) (id : Nat) : Prop :=
  ∃ fd closeOnExec, table fd = some ⟨.writeEnd .stdinPipe id, closeOnExec⟩

/-- No plugin has the write end of a plugin's stdin. -/
def Sealed (k : Kernel) : Prop :=
  ∀ pid process, k.children pid = some process → ∀ id, ¬ process.table.HoldsStdin id

/-- A process that reads the pipe comes to its end. -/
def EndOfFile (k : Kernel) (id : Nat) : Prop :=
  ¬ k.table.HoldsStdin id ∧
    ∀ pid process, k.children pid = some process → ¬ process.table.HoldsStdin id

/-- No plugin keeps another one alive. -/
structure NoneKeptAlive (s : State) : Prop where
  isSealed : Sealed s.kernel
  /-- If the frontend dies. -/
  onDeath : ∀ id, EndOfFile { s.kernel with table := fun _ => none } id
  /-- If the client closes its plugin's stdin. -/
  onClose : ∀ i client, s.clients i = some client → 0 ≤ client.stdinFd → ∃ id,
    (∀ process, s.kernel.children client.pid.toNat = some process → process.ReadsOnly id) ∧
      EndOfFile (s.kernel.effect (.close client.stdinFd.toNat) ()) id

namespace Sealed

variable {k k' : Kernel} {held held' : Finset Resource}

theorem calm (h : Sealed k) (hCalm : Calm k held k' held') : Sealed k' := by
  intro pid process hChild id hHolds
  obtain ⟨before, hBefore, rfl | rfl⟩ := hCalm.children pid process hChild
  · exact h pid process hBefore id hHolds
  · obtain ⟨fd, closeOnExec, hEnd⟩ := hHolds
    cases hEnd

theorem setChild (h : Sealed k) (pid : Nat) {f : Process → Process}
    (hHolds : ∀ process id, (f process).table.HoldsStdin id → process.table.HoldsStdin id) :
    Sealed (k.setChild pid f) := by
  intro other process hChild id hHolds'
  change Function.update k.children pid _ other = some process at hChild
  rw [Function.update_apply] at hChild
  split at hChild
  · rename_i hSame
    obtain ⟨before, hBefore, rfl⟩ := Option.map_eq_some_iff.mp hChild
    exact h pid before hBefore id (hHolds before id hHolds')
  · exact h other process hChild id hHolds'

/-- A plugin inherits what the frontend has, but for what is closed on exec. -/
theorem spawns {spawned : Spawned} (h : Sealed k) (hSpawns : Spawns k held spawned k')
    (hNone : ∀ id, ¬ k.table.HoldsStdin id) : Sealed k' := by
  obtain ⟨plugin, hTable, hChildren⟩ := hSpawns.children
  intro pid process hChild id
  rw [hChildren, Function.update_apply] at hChild
  split at hChild
  · cases hChild
    rintro ⟨fd, closeOnExec, hEnd⟩
    rw [hTable, Table.inherited, Function.update_apply] at hEnd
    split at hEnd
    · obtain ⟨_, -, hEq⟩ := Option.map_eq_some_iff.mp hEnd
      cases hEq
    · exact hNone id ⟨fd, closeOnExec, (Option.filter_eq_some_iff.mp hEnd).1⟩
  · exact h pid process hChild id

theorem noneKeptAlive {s : State} (hKeeps : Keeps s) (h : Sealed s.kernel) : NoneKeptAlive s := by
  refine ⟨h, fun id => ⟨?_, fun pid process hChild => h pid process hChild id⟩, ?_⟩
  · rintro ⟨fd, closeOnExec, hEnd⟩
    cases hEnd
  · intro i client hClient hOpen
    obtain ⟨-, id, hTable, hReads⟩ := (hKeeps.attached i client hClient).stdin hOpen
    refine ⟨id, hReads, ?_, fun pid process hChild => h pid process hChild id⟩
    rintro ⟨fd, closeOnExec, hEnd⟩
    change Function.update s.kernel.table client.stdinFd.toNat none fd = _ at hEnd
    rw [Function.update_apply] at hEnd
    split at hEnd
    · cases hEnd
    · rename_i hne
      exact hne (hKeeps.ends.unique _ _ id _ _ hEnd hTable)

end Sealed

theorem holdsStdin_of_apply {table : Table} {call : ChildCall} {id : Nat}
    (h : Table.HoldsStdin (call.apply table) id) : table.HoldsStdin id := by
  obtain ⟨fd, closeOnExec, hEnd⟩ := h
  obtain ⟨fd', ⟨file, closeOnExec'⟩, hThere, hFile⟩ :=
    ChildCall.exists_of_apply hEnd (File.writeEnd_ne_other _ _)
  cases hFile
  exact ⟨fd', closeOnExec', hThere⟩

theorem Process.holdsStdin_of_does {process : Process} {call : ChildCall} {id : Nat}
    (h : (process.does call).table.HoldsStdin id) : process.table.HoldsStdin id := by
  unfold does at h
  split at h
  · exact h
  · exact holdsStdin_of_apply h

/-! ## Which launches are to blame -/

section
variable {Config Description : Type} {runtime : Runtime Config Description} {s t : State}

/-- If the action is a launch that succeeds, no client has its plugin's stdin open. -/
def Alone (runtime : Runtime Config Description) (s : State) (action : Action Config × Oracle) :
    Prop :=
  ∀ i setting argv device oracle t, action = (.launch i setting argv device, oracle) →
    s.step runtime action = some t → t.clients i ≠ none →
      ∀ j client, s.clients j = some client → client.stdinFd < 0

theorem Sealed.step (hKeeps : Keeps s) (h : Sealed s.kernel) {action : Action Config × Oracle}
    (hAlone : Alone runtime s action) (hStep : s.step runtime action = some t) :
    Sealed t.kernel := by
  cases hKeeps.stepped hStep with
  | launched i setting argv device oracle client k hNone hLaunches =>
    obtain ⟨k₁, hCalm, hSpawns⟩ := hLaunches.between
    have hThere : Function.update s.clients i (some client) i ≠ none := by
      rw [Function.update_self]
      exact Option.some_ne_none client
    refine (h.calm hCalm).spawns hSpawns fun id ⟨fd, closeOnExec, hEnd⟩ => ?_
    have hFile := File.writeEnd_ne_other .stdinPipe id
    obtain ⟨j, other, _, hOther, hOpen, -⟩ :=
      hKeeps.descriptor (hCalm.table_of_end hEnd hFile) hFile
    exact absurd hOpen (Int.not_le.mpr (hAlone i setting argv device oracle _ rfl hStep hThere j
      other hOther))
  | failed _ _ _ _ _ k _ hCalm => exact h.calm hCalm
  | moveConstruct => exact h
  | assignSelf => exact h
  | moveAssign _ _ _ _ _ k _ _ _ hCalm => exact h.calm hCalm
  | call _ _ _ _ _ k _ hCall =>
    obtain ⟨-, hCalm⟩ | hGone := hCall
    · exact h.calm hCalm
    · exact h.calm hGone.calm
  | destroy _ _ _ k _ hCalm => exact h.calm hCalm
  | plugin pid call _ => exact h.setChild pid fun _ _ hHolds => Process.holdsStdin_of_does hHolds
  | pluginExits pid _ =>
    refine h.setChild pid fun process id hHolds => ?_
    obtain ⟨fd, closeOnExec, hEnd⟩ := hHolds
    cases hEnd
  | others => exact h

/-- A plugin that is launched while another one's stdin is open has that too. -/
theorem not_sealed_of_launch (hKeeps : Keeps s) {i : Nat} {setting : CaptureClient.Setting}
    {argv : List String} {device : String} {oracle : Oracle}
    (hStep : s.step runtime (.launch i setting argv device, oracle) = some t)
    (hLaunched : t.clients i ≠ none) {j : Nat} {other : CaptureClient}
    (hOther : s.clients j = some other) (hOpen : 0 ≤ other.stdinFd) : ¬ Sealed t.kernel := by
  cases hKeeps.stepped hStep with
  | failed _ _ _ _ _ k hNone hCalm => exact absurd hNone hLaunched
  | launched _ _ _ _ _ client k hNone hLaunches =>
    obtain ⟨k₁, hCalm, hSpawns⟩ := hLaunches.between
    obtain ⟨plugin, hTable, hChildren⟩ := hSpawns.children
    obtain ⟨hPos, id, hEnd, -⟩ := (hKeeps.attached j other hOther).stdin hOpen
    intro hSealed
    refine hSealed client.pid.toNat plugin ?_ id ⟨other.stdinFd.toNat, false, ?_⟩
    · change k.children _ = _
      rw [hChildren, Function.update_self]
    · have hHeld : .fd other.stdinFd.toNat ∈ discipline.held s.kernel.log :=
        hKeeps.own_subset hOther (CaptureClient.mem_own_fd.mpr ⟨hOpen, rfl⟩)
      have hSame := (hCalm.table _ (Finset.mem_union_left _ hHeld)).2
      have hne : other.stdinFd.toNat ≠ 0 := by omega
      rw [hTable, Table.inherited, Function.update_of_ne hne, Table.exec, hSame, hEnd]
      rfl

theorem none_kept_alive_iff (runtime : Runtime Config Description) (opened : Nat → Option Bool)
    (sockets : Finset Nat) (others : Nat → List OtherCall)
    (actions : List (Action Config × Oracle)) :
    (∀ before after t, actions = before ++ after →
      run (State.step runtime) (.initial opened sockets others) before = some t → NoneKeptAlive t) ↔
    ∀ before action after t, actions = before ++ action :: after →
      run (State.step runtime) (.initial opened sockets others) before = some t →
        Alone runtime t action := by
  constructor
  · rintro hAlive before _ after t hActions hRun i setting argv device oracle u rfl hStep hLaunched
      j other hOther
    by_contra hOpen
    have hRun' : run (State.step runtime) (.initial opened sockets others)
        (before ++ [(.launch i setting argv device, oracle)]) = some u := by
      rw [run_concat, hRun]
      exact hStep
    have hSealed := (hAlive _ after u (by rw [hActions, List.append_assoc]; rfl) hRun').isSealed
    exact not_sealed_of_launch (keeps_of_run hRun) hStep hLaunched hOther (Int.not_lt.mp hOpen)
      hSealed
  · intro hAlone before after t hActions hRun
    have hInitial : Sealed (State.initial opened sockets others).kernel := nofun
    have hBoth := run_invariant_of_fits (fun s => Keeps s ∧ Sealed s.kernel) (Alone runtime)
      (fun hFits hInv hStep => ⟨hInv.1.step hStep, hInv.2.step hInv.1 hFits hStep⟩)
      ⟨.initial opened sockets others, hInitial⟩ ?_ hRun
    · exact hBoth.2.noneKeptAlive hBoth.1
    · intro first action rest u hSplit hFirst
      refine hAlone first action (rest ++ after) u ?_ hFirst
      rw [hActions, hSplit, List.append_assoc]
      rfl

end

open Example in
/-- The second plugin has the write end of the first one's stdin, which does not come to its end
when the first client closes it. -/
theorem second_plugin_keeps_first_alive : ∃ s client,
    run (State.step runtime) first
      [(.launch 0 setting ["demo"] "", granting (7, 8) (9, 10) 100 1 2),
        (.launch 1 setting ["demo"] "", granting (10, 11) (12, 13) 101 3 4)] = some s ∧
      s.clients 0 = some client ∧ client.stdinFd = 8 ∧ ¬ Sealed s.kernel ∧
      ¬ EndOfFile (s.kernel.effect (.close client.stdinFd.toNat) ()) 0 := by
  have hAny : (run (State.step runtime) first
      [(.launch 0 setting ["demo"] "", granting (7, 8) (9, 10) 100 1 2),
        (.launch 1 setting ["demo"] "", granting (10, 11) (12, 13) 101 3 4)]).any (fun s =>
          (s.clients 0).any (fun client => client.stdinFd = 8) ∧
            (s.kernel.children 101).any fun plugin =>
              plugin.table 8 = some ⟨.writeEnd .stdinPipe 0, false⟩) = true := by
    decide +kernel
  obtain ⟨s, hRun, hBoth⟩ := (Option.any_eq_true _ _).mp hAny
  obtain ⟨hClient, hPlugin⟩ := of_decide_eq_true hBoth
  obtain ⟨client, hClient, hStdin⟩ := (Option.any_eq_true _ _).mp hClient
  obtain ⟨plugin, hChild, hEnd⟩ := (Option.any_eq_true _ _).mp hPlugin
  have hHolds : plugin.table.HoldsStdin 0 := ⟨8, false, of_decide_eq_true hEnd⟩
  refine ⟨s, client, hRun, hClient, of_decide_eq_true hStdin, ?_, ?_⟩
  · exact fun hSealed => hSealed 101 plugin hChild 0 hHolds
  · exact fun hEof => hEof.2 101 plugin hChild hHolds

end OpenMso.Cpp.Plugins
