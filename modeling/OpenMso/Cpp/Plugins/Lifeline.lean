import OpenMso.Cpp.Plugins.Release

/-! # The lifeline of a plugin

A plugin runs as long as its stdin is open and exits at its end, so stdin has
to be the pipe of which the frontend keeps the write end. Where the frontend's
own stdin is closed, `pipe` hands out descriptor 0, which `dup2` leaves as it
is, and the child then closes it.
-/

namespace OpenMso.Cpp.Plugins

open Foundation OpenMso.Transport

set_option autoImplicit false

/-- Stdin of the plugin and `stdinFd` are the two ends of one pipe. -/
structure Lifeline (spawned : Spawned) (id : Nat) (k : Kernel) : Prop where
  plugin : ∃ process, k.children spawned.pid = some process ∧
    ∃ closeOnExec, process.table 0 = some ⟨.readEnd .stdinPipe id, closeOnExec⟩
  frontend : ∃ closeOnExec, k.table spawned.stdinFd = some ⟨.writeEnd .stdinPipe id, closeOnExec⟩

/-- If `spawnPlugin` returns, each of its system calls has succeeded. -/
theorem ensures_spawned (strerror : Errno → String) (argv : List String) (k : Kernel) :
    host.Ensures (spawnPlugin strerror argv).run (fun result after => ∀ spawned,
      result = .ok spawned → ∃ stdinR errR errW,
        k.table.Opens stdinR spawned.stdinFd errR errW ∧
        after = k.spawned argv stdinR spawned.stdinFd errR errW spawned.pid) k := by
  intro stdinPipe hStdinPipe
  cases stdinPipe with
  | error e =>
    rintro spawned ⟨⟩
  | ok ends =>
    obtain ⟨stdinR, stdinW⟩ := ends
    intro errPipe hErrPipe
    cases errPipe with
    | error e =>
      rintro ⟨⟩ - ⟨⟩ - spawned ⟨⟩
    | ok ends =>
      obtain ⟨errR, errW⟩ := ends
      rintro ⟨⟩ - forked -
      cases forked with
      | error e =>
        rintro ⟨⟩ - ⟨⟩ - ⟨⟩ - ⟨⟩ - spawned ⟨⟩
      | ok pid =>
        rintro ⟨⟩ - ⟨⟩ - status - ⟨⟩ -
        cases status with
        | some childErrno =>
          rintro ⟨⟩ - ⟨⟩ - spawned ⟨⟩
        | none =>
          rintro spawned ⟨⟩
          exact ⟨stdinR, errR, errW, .of_allows hStdinPipe hErrPipe, rfl⟩

/-- The pipe that the call makes is `k.pipes`. A plugin has its read end for stdin exactly when
the frontend has a stdin of its own. -/
theorem lifeline_iff {strerror : Errno → String} {argv : List String} {k after : Kernel}
    {oracle : Oracle} {spawned : Spawned}
    (h : host.run oracle (spawnPlugin strerror argv).run k = some (.ok spawned, after)) :
    Lifeline spawned k.pipes after ↔ (k.table 0).isSome := by
  obtain ⟨stdinR, errR, errW, hOpens, rfl⟩ := (ensures_spawned strerror argv k).of_run h spawned rfl
  obtain ⟨plugin, hTable, hPlugin⟩ : ∃ plugin : Process,
      plugin.table = k.table.inherited k.pipes ∧
        (k.spawned argv stdinR spawned.stdinFd errR errW spawned.pid).children spawned.pid =
          some plugin :=
    ⟨_, hOpens.exec argv, by rw [Kernel.spawned_children, Function.update_self]⟩
  have hStdin : plugin.table 0 = (k.table 0).map fun _ => ⟨.readEnd .stdinPipe k.pipes, false⟩ := by
    rw [hTable, Table.inherited, Function.update_self]
  constructor
  · rintro ⟨⟨process, hProcess, closeOnExec, hEnd⟩, -⟩
    obtain rfl : plugin = process := Option.some.inj (hPlugin.symm.trans hProcess)
    rw [hStdin] at hEnd
    obtain ⟨stdin, hOpen, -⟩ := Option.map_eq_some_iff.mp hEnd
    rw [hOpen]
    rfl
  · intro hOpen
    obtain ⟨stdin, hThere⟩ := Option.isSome_iff_exists.mp hOpen
    refine ⟨⟨plugin, hPlugin, false, ?_⟩, false, ?_⟩
    · rw [hStdin, hThere]
      rfl
    · rw [Kernel.spawned_table hOpens, Function.update_self]

/-- A frontend with these descriptors open, none of them closed on exec. -/
def frontend (opened : List Nat) : Kernel :=
  .initial (fun fd => if fd ∈ opened then some false else none) ∅ fun _ => []

/-- A frontend that runs with its stdin closed: the plugin starts without one too. -/
theorem closed_stdin_cuts_lifeline : ∃ spawned after,
    host.run (granting (0, 3) (4, 5) 100 1 2) (spawnPlugin (fun _ => "") ["demo"]).run
      (frontend [1, 2]) = some (.ok spawned, after) ∧
      (∃ plugin, after.children spawned.pid = some plugin ∧ plugin.table 0 = none) ∧
      ¬ Lifeline spawned (frontend [1, 2]).pipes after := by
  have hAny : (host.run (granting (0, 3) (4, 5) 100 1 2) (spawnPlugin (fun _ => "") ["demo"]).run
      (frontend [1, 2])).any (fun ended => ended.1.toOption.any fun spawned =>
        (ended.2.children spawned.pid).any fun plugin => plugin.table 0 = none) = true := by
    decide +kernel
  obtain ⟨⟨result, after⟩, hRun, hEnded⟩ := (Option.any_eq_true _ _).mp hAny
  cases result with
  | error e => cases hEnded
  | ok spawned =>
    have hPlugins : ((after.children spawned.pid).any fun plugin => plugin.table 0 = none) = true :=
      hEnded
    obtain ⟨plugin, hPlugin, hNone⟩ := (Option.any_eq_true _ _).mp hPlugins
    have hClosed : plugin.table 0 = none := of_decide_eq_true hNone
    refine ⟨spawned, after, hRun, ⟨plugin, hPlugin, hClosed⟩, ?_⟩
    rintro ⟨⟨process, hProcess, closeOnExec, hEnd⟩, -⟩
    obtain rfl : plugin = process := Option.some.inj (hPlugin.symm.trans hProcess)
    rw [hClosed] at hEnd
    cases hEnd

/-- With the standard descriptors open the plugin has its lifeline. -/
theorem lifeline_iff_standard_descriptors : ∃ spawned after,
    host.run (granting (3, 4) (5, 6) 100 1 2) (spawnPlugin (fun _ => "") ["demo"]).run
      (frontend [0, 1, 2]) = some (.ok spawned, after) ∧
      Lifeline spawned (frontend [0, 1, 2]).pipes after := by
  have hAny : (host.run (granting (3, 4) (5, 6) 100 1 2) (spawnPlugin (fun _ => "") ["demo"]).run
      (frontend [0, 1, 2])).any (fun ended => ended.1.toOption.isSome) = true := by
    decide +kernel
  obtain ⟨⟨result, after⟩, hRun, hEnded⟩ := (Option.any_eq_true _ _).mp hAny
  cases result with
  | error e => cases hEnded
  | ok spawned => exact ⟨spawned, after, hRun, (lifeline_iff hRun).mpr rfl⟩

end OpenMso.Cpp.Plugins
