import OpenMso.Cpp.Plugins.Inheritance
import OpenMso.Foundation.Waiting

/-! # The plugins of a dead frontend

A plugin that has inherited the write end of another one's stdin keeps that
one alive when the frontend is gone. But it has inherited only what was there
before its own stdin: the youngest plugin is kept alive by none, and when it
has exited, so is the next.
-/

namespace OpenMso.Cpp.Plugins

open Foundation Foundation.Runs Foundation.Waiting OpenMso.Transport
open Cpp.Client (Runtime)

set_option autoImplicit false

/-! ## Ranks -/

/-- The stdin of a process, if it has one, is a pipe of the frontend's, and the write ends that
it holds are of older ones. -/
structure Process.Junior (pipes : Nat) (process : Process) : Prop where
  stdin : ∀ stdin, process.table 0 = some stdin → ∃ id, id < pipes ∧
    stdin.file = .readEnd .stdinPipe id ∧ ∀ other, process.table.HoldsStdin other → other < id
  exited : process.exited = true → process.table = fun _ => none

/-- The child that the operation has made. -/
def Event.forked : Event → Option Nat
  | ⟨.fork _, .ok pid⟩ => some pid
  | _ => none

def Kernel.forked (k : Kernel) : List Nat := k.log.filterMap Event.forked

structure Ranked (k : Kernel) : Prop where
  fresh : ∀ id, k.table.HoldsStdin id → id < k.pipes
  plugins : ∀ pid process, k.children pid = some process → process.Junior k.pipes
  forked : ∀ pid, (k.children pid).isSome → pid ∈ k.forked

def Op.isFork : Op → Bool
  | .fork _ => true
  | _ => false

theorem Op.isFork_of_isQuiet {op : Op} (h : op.isQuiet = true) : op.isFork = false := by
  cases op <;> first | rfl | cases h

theorem forked_of_isFork {op : Op} (answer : op.Answer) (h : op.isFork = false) :
    Event.forked ⟨op, answer⟩ = none := by
  cases op <;> first | rfl | cases h

namespace Process

variable {pipes pipes' : Nat} {process : Process}

theorem Junior.of_sub {process' : Process} (h : process.Junior pipes) (hPipes : pipes ≤ pipes')
    (hStdin : ∀ stdin, process'.table 0 = some stdin →
      ∃ before, process.table 0 = some before ∧ before.file = stdin.file)
    (hHolds : ∀ id, process'.table.HoldsStdin id → process.table.HoldsStdin id)
    (hExited : process'.exited = true → process'.table = fun _ => none) :
    process'.Junior pipes' := by
  refine ⟨fun stdin hThere => ?_, hExited⟩
  obtain ⟨before, hBefore, hFile⟩ := hStdin stdin hThere
  obtain ⟨id, hOld, hReads, hOlder⟩ := h.stdin before hBefore
  exact ⟨id, hOld.trans_le hPipes, hFile.symm.trans hReads, fun other hOther =>
    hOlder other (hHolds other hOther)⟩

theorem Junior.mono (h : process.Junior pipes) (hPipes : pipes ≤ pipes') : process.Junior pipes' :=
  h.of_sub hPipes (fun stdin hThere => ⟨stdin, hThere, rfl⟩) (fun _ hHolds => hHolds) h.exited

theorem junior_ended : process.ended.Junior pipes := ⟨nofun, fun _ => rfl⟩

theorem Junior.exec (h : process.Junior pipes) : process.exec.Junior pipes := by
  refine h.of_sub le_rfl (fun stdin hThere => ?_) (fun id hHolds => ?_) fun hExited => ?_
  · exact ⟨stdin, (Option.filter_eq_some_iff.mp hThere).1, rfl⟩
  · obtain ⟨fd, closeOnExec, hEnd⟩ := hHolds
    exact ⟨fd, closeOnExec, (Option.filter_eq_some_iff.mp hEnd).1⟩
  · change process.table.exec = _
    rw [h.exited hExited]
    rfl

end Process

/-- A plugin that puts nothing in the place of its stdin. -/
def ChildCall.LeavesStdin : ChildCall → Prop
  | .close _ => True
  | .dup2 _ newFd => newFd ≠ 0
  | .opens fd _ => fd ≠ 0

theorem ChildCall.LeavesStdin.apply {call : ChildCall} (h : call.LeavesStdin) {table : Table}
    {stdin : Descriptor} (hThere : call.apply table 0 = some stdin) : table 0 = some stdin := by
  cases call with
  | close fd =>
    rw [ChildCall.apply, Function.update_apply] at hThere
    split at hThere
    · cases hThere
    · exact hThere
  | dup2 fd newFd =>
    cases hSource : table fd with
    | none => simpa only [ChildCall.apply, hSource] using hThere
    | some source =>
      simp only [ChildCall.apply, hSource] at hThere
      split at hThere
      · exact hThere
      · rwa [Function.update_of_ne (Ne.symm h)] at hThere
  | opens fd closeOnExec =>
    rw [ChildCall.apply, Table.opens] at hThere
    split at hThere
    · rwa [Function.update_of_ne (Ne.symm h)] at hThere
    · exact hThere

theorem Process.Junior.does {pipes : Nat} {process : Process} (h : process.Junior pipes)
    {call : ChildCall} (hLeaves : call.LeavesStdin) : (process.does call).Junior pipes := by
  unfold Process.does
  split
  · exact h
  · rename_i hRuns
    exact h.of_sub le_rfl (fun stdin hThere => ⟨stdin, hLeaves.apply hThere, rfl⟩)
      (fun _ => holdsStdin_of_apply) fun hExited => absurd hExited hRuns

theorem log_effect {k : Kernel} (op : Op) (answer : op.Answer) : (k.effect op answer).log = k.log := by
  cases op with
  | read fd =>
    change (k.resume answer).log = k.log
    unfold Kernel.resume
    split <;> rfl
  | pipe pipe => cases answer <;> rfl
  | fork child => cases answer <;> rfl
  | nngOpen protocol => cases answer <;> rfl
  | _ => rfl

theorem mem_forked_after (k : Kernel) (op : Op) (answer : op.Answer) {pid : Nat}
    (h : pid ∈ k.forked) : pid ∈ (host.after k op answer).forked := by
  obtain ⟨event, hMem, hForked⟩ := List.mem_filterMap.mp h
  exact List.mem_filterMap.mpr ⟨event, List.mem_append_left _ hMem, hForked⟩

namespace Ranked

variable {k : Kernel}

theorem setChild (h : Ranked k) (pid : Nat) {f : Process → Process}
    (hJunior : ∀ process, process.Junior k.pipes → (f process).Junior k.pipes) :
    Ranked (k.setChild pid f) := by
  refine ⟨h.fresh, fun other process hChild => ?_, fun other hThere => h.forked other ?_⟩
  · change Function.update k.children pid _ other = some process at hChild
    rw [Function.update_apply] at hChild
    split at hChild
    · obtain ⟨before, hBefore, rfl⟩ := Option.map_eq_some_iff.mp hChild
      exact hJunior before (h.plugins pid before hBefore)
    · exact h.plugins other process hChild
  · change (Function.update k.children pid _ other).isSome = true at hThere
    rw [Function.update_apply] at hThere
    split at hThere
    · rename_i hSame
      rw [hSame]
      exact (Option.isSome_map ..).symm.trans hThere
    · exact hThere

/-- What the frontend does to its own descriptors. -/
theorem of_table (h : Ranked k) {table : Table} {pipes : Nat} (hPipes : k.pipes ≤ pipes)
    (hFresh : ∀ id, table.HoldsStdin id → k.table.HoldsStdin id ∨ id < pipes) :
    Ranked { k with table, pipes } := by
  refine ⟨fun id hHolds => ?_, fun pid process hChild => ?_, h.forked⟩
  · rcases hFresh id hHolds with hOld | hNew
    · exact (h.fresh id hOld).trans_le hPipes
    · exact hNew
  · exact (h.plugins pid process hChild).mono hPipes

theorem effect (h : Ranked k) {op : Op} {answer : op.Answer} (hNone : Event.forked ⟨op, answer⟩ = none) :
    Ranked (k.effect op answer) := by
  cases op with
  | fork child =>
    cases answer with
    | error e => exact h
    | ok pid => cases hNone
  | pipe pipe =>
    cases answer with
    | error e => exact h
    | ok ends =>
      obtain ⟨r, w⟩ := ends
      refine h.of_table (Nat.le_succ _) fun id ⟨fd, closeOnExec, hEnd⟩ => ?_
      rw [Function.update_apply, Function.update_apply] at hEnd
      split at hEnd
      · cases hEnd
        exact .inr (Nat.lt_succ_self _)
      · split at hEnd
        · cases hEnd
        · exact .inl ⟨fd, closeOnExec, hEnd⟩
  | setCloseOnExec closed =>
    refine h.of_table le_rfl fun id ⟨fd, closeOnExec, hEnd⟩ => .inl ?_
    rw [Function.update_apply] at hEnd
    split at hEnd
    · obtain ⟨⟨file, before⟩, hThere, hSame⟩ := Option.map_eq_some_iff.mp hEnd
      cases hSame
      exact ⟨closed, before, hThere⟩
    · exact ⟨fd, closeOnExec, hEnd⟩
  | close closed =>
    refine h.of_table le_rfl fun id ⟨fd, closeOnExec, hEnd⟩ => .inl ?_
    rw [Function.update_apply] at hEnd
    split at hEnd
    · cases hEnd
    · exact ⟨fd, closeOnExec, hEnd⟩
  | read fd =>
    change Ranked (k.resume answer)
    unfold Kernel.resume
    split
    · exact h
    · rename_i pid hStarting
      have hChild := h.setChild pid
        (f := fun process => if answer.isSome then process.ended else process.exec) fun process hJunior => by
          split
          · exact Process.junior_ended
          · exact hJunior.exec
      exact ⟨hChild.fresh, hChild.plugins, hChild.forked⟩
  | kill pid => exact h.setChild pid fun _ _ => Process.junior_ended
  | waitpid pid =>
    refine ⟨h.fresh, fun other process hChild => ?_, fun other hThere => h.forked other ?_⟩
    · change Function.update k.children pid none other = some process at hChild
      rw [Function.update_apply] at hChild
      split at hChild
      · cases hChild
      · exact h.plugins other process hChild
    · change (Function.update k.children pid none other).isSome = true at hThere
      rw [Function.update_apply] at hThere
      split at hThere
      · cases hThere
      · exact hThere
  | nngOpen protocol => cases answer <;> exact ⟨h.fresh, h.plugins, h.forked⟩
  | nngClose socket => exact ⟨h.fresh, h.plugins, h.forked⟩
  | _ => exact h

theorem beside (h : Ranked k) (calls : List OtherCall) : Ranked (k.beside calls) := by
  refine h.of_table le_rfl fun id ⟨fd, closeOnExec, hEnd⟩ => .inl ⟨fd, closeOnExec, ?_⟩
  exact (OtherCall.foldl_apply_eq_some_iff calls (File.writeEnd_ne_other _ _)).mp hEnd

theorem passes (h : Ranked k) (op : Op) : Ranked (k.passes op) := by
  unfold Kernel.passes
  cases op.isNng with
  | true => exact h.beside _
  | false => exact h

theorem after (h : Ranked k) {op : Op} {answer : op.Answer} (hNone : Event.forked ⟨op, answer⟩ = none) :
    Ranked (host.after k op answer) := by
  have hEffect := h.effect hNone
  have hPasses := hEffect.passes op
  refine ⟨hPasses.fresh, hPasses.plugins, fun pid hThere => mem_forked_after k op answer ?_⟩
  rw [Kernel.forked, ← log_effect op answer]
  refine hEffect.forked pid ?_
  rw [← Kernel.passes_children _ op]
  exact hThere

end Ranked

/-! ## At every moment -/

theorem guards_of_asks {α : Type} {P : α → Prop} {program : Asking α}
    (h : Program.Finishes (fun op => op.isFork = false) P program) : host.Guards Ranked program :=
  Host.guards_of_finishes (fun _ _ answer hFork _ hRanked => hRanked.after (forked_of_isFork answer hFork)) h

theorem guards_of_quiet {α : Type} {P : α → Prop} {program : Asking α}
    (h : Program.Finishes (fun op => op.isQuiet = true) P program) : host.Guards Ranked program :=
  Host.guards_of_finishes
    (fun _ _ answer hQuiet _ hRanked => hRanked.after (forked_of_isFork answer (Op.isFork_of_isQuiet hQuiet))) h

section
variable {k : Kernel} {stdinR stdinW errR errW : Nat}

/-- Its own stdin is younger than all that it holds. -/
theorem junior_forked (h : Ranked k) (hOpens : k.table.Opens stdinR stdinW errR errW)
    (argv : List String) :
    (Process.forked (k.table.piped stdinR stdinW errR errW k.pipes)
      (.ofSpawn argv stdinR stdinW errR errW)).Junior (k.pipes + 1) := by
  have hHolds : ∀ other, (Process.forked (k.table.piped stdinR stdinW errR errW k.pipes)
      (.ofSpawn argv stdinR stdinW errR errW)).table.HoldsStdin other → other < k.pipes := by
    intro other hOther
    have hClosed : Table.HoldsStdin (ChildCall.apply
        (k.table.piped stdinR stdinW errR errW k.pipes) (.close stdinW)) other := by
      refine @holdsStdin_of_apply _ (.close errR) other ?_
      refine @holdsStdin_of_apply _ (.dup2 stdinR 0) other ?_
      exact @holdsStdin_of_apply _ (.close stdinR) other hOther
    obtain ⟨fd, closeOnExec, hEnd⟩ := hClosed
    refine h.fresh other ⟨fd, closeOnExec, ?_⟩
    simp only [ChildCall.apply, Table.piped, Function.update_apply] at hEnd
    grind
  obtain ⟨-, -, hStdin, -, hErrR, hErrW, -⟩ := hOpens
  have hSource : Function.update (Function.update
      (k.table.piped stdinR stdinW errR errW k.pipes) stdinW none) errR none stdinR =
      some ⟨.readEnd .stdinPipe k.pipes, false⟩ := by
    simp only [Table.piped, Function.update_apply]
    grind
  refine ⟨fun stdin hThere => ⟨k.pipes, Nat.lt_succ_self _, ?_, hHolds⟩,
    fun hExited => absurd hExited Bool.false_ne_true⟩
  simp only [Process.forked, Child.ofSpawn, List.foldl_cons, List.foldl_nil, ChildCall.apply,
    hSource] at hThere
  rw [Function.update_apply] at hThere
  split at hThere
  · cases hThere
  · rename_i hne
    rw [if_neg (Ne.symm hne), Function.update_self] at hThere
    cases hThere
    rfl

theorem Ranked.fork (h : Ranked k) (hOpens : k.table.Opens stdinR stdinW errR errW)
    (hPiped : Ranked (k.piped stdinR stdinW errR errW)) (argv : List String) (pid : Nat) :
    Ranked (host.after (k.piped stdinR stdinW errR errW)
      (.fork (.ofSpawn argv stdinR stdinW errR errW)) (.ok pid)) := by
  refine ⟨hPiped.fresh, fun other process hChild => ?_, fun other hThere => ?_⟩
  · change Function.update k.children pid _ other = some process at hChild
    rw [Function.update_apply] at hChild
    split at hChild
    · cases hChild
      rw [Kernel.piped_table]
      exact (junior_forked h hOpens argv).mono (Nat.le_succ _)
    · exact hPiped.plugins other process hChild
  · change (Function.update k.children pid _ other).isSome = true at hThere
    rw [Function.update_apply] at hThere
    split at hThere
    · rename_i hSame
      rw [hSame]
      exact List.mem_filterMap.mpr ⟨_, List.mem_append_right _ List.mem_cons_self, rfl⟩
    · exact mem_forked_after _ _ _ (hPiped.forked other hThere)

/-- `spawnPlugin` is the only one that forks. -/
theorem guards_spawnPlugin (strerror : Errno → String) (argv : List String) :
    host.Guards Ranked (spawnPlugin strerror argv).run := by
  intro k h
  refine ⟨h, fun stdinPipe hStdinPipe => ?_⟩
  have hFirst : Ranked (host.after k (.pipe .stdinPipe) stdinPipe) := h.after (forked_of_isFork _ rfl)
  cases stdinPipe with
  | error e => exact hFirst
  | ok ends =>
    obtain ⟨stdinR, stdinW⟩ := ends
    refine ⟨hFirst, fun errPipe hErrPipe => ?_⟩
    have hSecond := hFirst.after (forked_of_isFork errPipe rfl)
    cases errPipe with
    | error e =>
      refine guards_of_asks (P := fun _ => True) ?_ _ hSecond
      exact .ask _ _ rfl fun _ => .ask _ _ rfl fun _ => .done _ trivial
    | ok ends =>
      obtain ⟨errR, errW⟩ := ends
      have hOpens := Table.Opens.of_allows hStdinPipe hErrPipe
      refine ⟨hSecond, fun closed _ => ?_⟩
      have hPiped : Ranked (k.piped stdinR stdinW errR errW) :=
        hSecond.after (forked_of_isFork closed rfl)
      refine ⟨hPiped, fun forked hFork => ?_⟩
      cases forked with
      | error e =>
        have hFailed : Ranked (host.after (k.piped stdinR stdinW errR errW)
          (.fork (.ofSpawn argv stdinR stdinW errR errW)) (.error e)) := hPiped.after rfl
        refine guards_of_asks (P := fun _ => True) ?_ _ hFailed
        exact .ask _ _ rfl fun _ => .ask _ _ rfl fun _ => .ask _ _ rfl fun _ => .ask _ _ rfl fun _ =>
          .done _ trivial
      | ok pid =>
        refine guards_of_asks (P := fun _ => True) ?_ _ (h.fork hOpens hPiped argv pid)
        refine .ask _ _ rfl fun _ => .ask _ _ rfl fun _ => .ask _ _ rfl fun status =>
          .ask _ _ rfl fun _ => ?_
        cases status with
        | some childErrno => exact .ask _ _ rfl fun _ => .ask _ _ rfl fun _ => .done _ trivial
        | none => exact .done _ trivial

end

/-! ## Operations of the frontend -/

/-- Code that concerns only a plugin and a control socket forks nothing. -/
theorem Handles.guards_serve (handles : Handles) {α : Type}
    (code : OpenMso.Client.Calling Client.CaptureClient Error α) (session : Client.CaptureClient) :
    host.Guards Ranked (handles.serve code session) := by
  refine guards_of_asks ((Program.finishes _).relabel fun op _ => ?_)
  cases op <;> rfl

theorem Socket.guards_close (socket : Socket) : host.Guards Ranked socket.close := by
  unfold Socket.close
  split
  · exact guards_of_asks (P := fun _ => True) (.ask _ _ rfl fun _ => .done _ trivial)
  · exact fun _ h => h

theorem Socket.guards_moveAssign (socket other : Socket) :
    host.Guards Ranked (socket.moveAssign other) :=
  socket.guards_close.bind fun _ _ h => h

theorem Socket.guards_construct (strerror : NngError → String) (protocol : Protocol) :
    host.Guards Ranked (Socket.construct strerror protocol).run := by
  have hOpen : host.Guards Ranked (ask (.nngOpen protocol)).run :=
    guards_of_asks (P := fun _ => True) (.ask _ _ rfl fun _ => .done _ trivial)
  refine hOpen.bindExcept fun opened => ?_
  refine (guards_of_quiet (finishes_check strerror _ opened)).bindExcept fun socket => ?_
  refine Host.Guards.bindExcept ?_ fun _ _ h => h
  refine (guards_of_quiet (Socket.finishes_configure strerror protocol socket)).bind fun result => ?_
  cases result with
  | ok a => exact fun _ h => h
  | error e =>
    exact (Socket.guards_close ⟨socket, true⟩).bind fun _ _ h => h

namespace CaptureClient

theorem guards_calling {α : Type} (code : OpenMso.Client.Calling Client.CaptureClient Error α)
    (client : CaptureClient) : host.Guards Ranked (client.calling code) :=
  (client.handles.guards_serve code client.toCaptureClient).bind fun _ _ h => h

theorem guards_terminate (client : CaptureClient) : host.Guards Ranked client.terminate :=
  (guards_calling _ client).bind fun _ _ h => h

theorem guards_destroyEndpoints (client : CaptureClient) :
    host.Guards Ranked client.destroyEndpoints := by
  unfold destroyEndpoints
  split
  · exact fun _ h => h
  · exact guards_of_quiet (finishes_onFiles _)

theorem guards_destroy (client : CaptureClient) : host.Guards Ranked client.destroy :=
  client.guards_terminate.bind fun ended => ended.events.guards_close.bind fun _ =>
    ended.control.guards_close.bind fun _ => ended.guards_destroyEndpoints

theorem guards_moveAssign (client other : CaptureClient) :
    host.Guards Ranked (client.moveAssign other) :=
  client.guards_terminate.bind fun ended => ended.guards_destroyEndpoints.bind fun _ =>
    (ended.control.guards_moveAssign other.control).bind fun _ =>
      (ended.events.guards_moveAssign other.events).bind fun _ _ h => h

theorem guards_building {α : Type} {code : Throwing α} {client : CaptureClient}
    {next : α → Building Unit} (h : host.Guards Ranked code.run)
    (hNext : ∀ a client', host.Guards Ranked ((next a).run.run client')) :
    host.Guards Ranked ((building code >>= next).run.run client) := by
  have hCode : host.Guards Ranked ((building code).run.run client) :=
    h.bind fun _ _ hRanked => hRanked
  exact hCode.bindState hNext

theorem guards_renew (strerror : NngError → String) (protocol : Protocol) (member : Socket) :
    host.Guards Ranked (renew strerror protocol member).run := by
  refine (Socket.guards_construct strerror protocol).bindExcept fun temporary => ?_
  refine (member.guards_moveAssign temporary).bindLift fun moved => ?_
  exact moved.2.guards_close.bindLift fun _ _ h => h

theorem guards_build (setting : Setting) (argv : List String) (device : String)
    (client : CaptureClient) : host.Guards Ranked ((build setting argv device).run.run client) := by
  refine guards_building (guards_of_quiet (finishes_onFiles _)) fun endpoints _ => ?_
  refine Host.guards_modify_bind.mpr (Host.guards_get_bind.mpr ?_)
  refine guards_building (guards_renew _ _ _) fun control _ => Host.guards_modify_bind.mpr ?_
  refine guards_building (guards_of_quiet (Socket.finishes_listen _ _ _)) fun _ _ => ?_
  refine guards_building (guards_of_quiet (Socket.finishes_setRecvTimeout _ _ _)) fun _ _ => ?_
  refine Host.guards_get_bind.mpr ?_
  refine guards_building (guards_renew _ _ _) fun events _ => Host.guards_modify_bind.mpr ?_
  refine guards_building (guards_of_quiet (Socket.finishes_listen _ _ _)) fun _ _ => ?_
  exact guards_building (guards_spawnPlugin _ _) fun _ _ _ h => h

theorem guards_launch (setting : Setting) (argv : List String) (device : String) :
    host.Guards Ranked (launch setting argv device).run := by
  unfold launch
  split
  · exact fun _ h => h
  · refine (guards_build setting argv device .default).bindLift ?_
    rintro ⟨result, client⟩
    cases result with
    | ok _ => exact fun _ h => h
    | error e => exact client.guards_destroy.bindLift fun _ _ h => h

end CaptureClient

section
variable {Config Description : Type} (runtime : Runtime Config Description)

/-- What an action has the frontend ask of the system. -/
def State.asks (s : State) : Action Config → Asking Unit
  | .launch i setting argv device =>
    match s.clients i with
    | some _ => .done ()
    | none => (CaptureClient.launch setting argv device).run.bind fun _ => .done ()
  | .moveAssign i j =>
    match s.clients i, s.clients j with
    | some client, some other =>
      if i = j then .done () else (client.moveAssign other).bind fun _ => .done ()
    | _, _ => .done ()
  | .call i call =>
    match s.clients i with
    | none => .done ()
    | some client => (client.call runtime call).bind fun _ => .done ()
  | .destroy i =>
    match s.clients i with
    | none => .done ()
    | some client => client.destroy
  | .moveConstruct _ _ | .plugin _ _ | .pluginExits _ | .others _ => .done ()

/-- The actions that are not the clients' own. -/
def Action.isForeign : Action Config → Bool
  | .plugin _ _ | .pluginExits _ | .others _ => true
  | _ => false

theorem run_bind_done {α : Type} (oracle : Oracle) (program : Asking α) (k : Kernel) :
    host.run oracle (program.bind fun _ => .done ()) k =
      (host.run oracle program k).map fun ended => ((), ended.2) := by
  induction program generalizing k oracle with
  | done a => rfl
  | ask op next ih =>
    rw [Program.bind, Host.run, Host.run]
    split
    · exact ih ..
    · rfl

variable {runtime} {s t : State}

theorem State.run_asks {action : Action Config} {oracle : Oracle} (hFrontend : action.isForeign = false)
    (hStep : s.step runtime (action, oracle) = some t) :
    host.run oracle (s.asks runtime action) s.kernel = some ((), t.kernel) := by
  cases action with
  | launch i setting argv device =>
    cases hClient : s.clients i with
    | some client =>
      rw [step, hClient] at hStep
      cases hStep
    | none =>
      rw [step, hClient] at hStep
      obtain ⟨ended, hRun, rfl⟩ := Option.map_eq_some_iff.mp hStep
      rw [asks, hClient, run_bind_done, hRun]
      rfl
  | moveConstruct i j =>
    rw [step] at hStep
    split at hStep
    · cases hStep
      rfl
    · cases hStep
  | moveAssign i j =>
    cases hClient : s.clients i with
    | none =>
      rw [step, hClient] at hStep
      cases hStep
    | some client =>
      cases hOther : s.clients j with
      | none =>
        rw [step, hClient, hOther] at hStep
        cases hStep
      | some other =>
        rw [step, hClient, hOther] at hStep
        rw [asks, hClient, hOther]
        dsimp only at hStep ⊢
        by_cases hSame : i = j
        · rw [if_pos hSame] at hStep
          cases hStep
          rw [if_pos hSame]
          rfl
        · rw [if_neg hSame] at hStep
          obtain ⟨ended, hRun, rfl⟩ := Option.map_eq_some_iff.mp hStep
          rw [if_neg hSame, run_bind_done, hRun]
          rfl
  | call i call =>
    cases hClient : s.clients i with
    | none =>
      rw [step, hClient] at hStep
      cases hStep
    | some client =>
      rw [step, hClient] at hStep
      obtain ⟨ended, hRun, rfl⟩ := Option.map_eq_some_iff.mp hStep
      rw [asks, hClient, run_bind_done, hRun]
      rfl
  | destroy i =>
    cases hClient : s.clients i with
    | none =>
      rw [step, hClient] at hStep
      cases hStep
    | some client =>
      rw [step, hClient] at hStep
      obtain ⟨ended, hRun, rfl⟩ := Option.map_eq_some_iff.mp hStep
      rw [asks, hClient]
      exact hRun
  | plugin pid call => cases hFrontend
  | pluginExits pid => cases hFrontend
  | others calls => cases hFrontend

variable (runtime) in
theorem State.guards_asks (s : State) (action : Action Config) :
    host.Guards Ranked (s.asks runtime action) := by
  have hDone : host.Guards Ranked (.done ()) := fun _ h => h
  cases action with
  | launch i setting argv device =>
    rw [asks]
    split
    · exact hDone
    · exact (CaptureClient.guards_launch setting argv device).bind fun _ => hDone
  | moveAssign i j =>
    rw [asks]
    split
    · split
      · exact hDone
      · exact (CaptureClient.guards_moveAssign _ _).bind fun _ => hDone
    · exact hDone
  | call i call =>
    rw [asks]
    split
    · exact hDone
    · exact (CaptureClient.guards_calling _ _).bind fun _ => hDone
  | destroy i =>
    rw [asks]
    split
    · exact hDone
    · exact CaptureClient.guards_destroy _
  | moveConstruct i j => exact hDone
  | plugin pid call => exact hDone
  | pluginExits pid => exact hDone
  | others calls => exact hDone

/-- What plugins do to their own descriptors; the frontend may do anything. -/
def Action.LeavesStdin : Action Config → Prop
  | .plugin _ own => own.LeavesStdin
  | _ => True

theorem Ranked.step (h : Ranked s.kernel) {action : Action Config × Oracle}
    (hLeaves : action.1.LeavesStdin) (hStep : s.step runtime action = some t) : Ranked t.kernel := by
  obtain ⟨action, oracle⟩ := action
  cases hForeign : action.isForeign with
  | false => exact (s.guards_asks runtime action _ h).of_run (State.run_asks hForeign hStep)
  | true =>
    cases action with
    | plugin pid call =>
      cases hStep
      exact h.setChild pid fun process hJunior => hJunior.does hLeaves
    | pluginExits pid =>
      cases hStep
      exact h.setChild pid fun _ _ => Process.junior_ended
    | others calls =>
      cases hStep
      exact h.beside calls
    | _ => cases hForeign

theorem ranked_initial (opened : Nat → Option Bool) (sockets : Finset Nat)
    (others : Nat → List OtherCall) : Ranked (State.initial opened sockets others).kernel := by
  refine ⟨?_, nofun, nofun⟩
  rintro id ⟨fd, closeOnExec, hEnd⟩
  obtain ⟨_, -, hFile⟩ := Option.map_eq_some_iff.mp hEnd
  cases hFile

/-- At every moment, also in the midst of an operation. -/
theorem ranked_of_cut {opened : Nat → Option Bool} {sockets : Finset Nat}
    {others : Nat → List OtherCall} {actions : List (Action Config × Oracle)}
    (hRun : run (State.step runtime) (.initial opened sockets others) actions = some s)
    (hActions : ∀ action ∈ actions, action.1.LeavesStdin) {action : Action Config} {oracle : Oracle}
    {n : Nat} {k : Kernel} (hCut : host.cut oracle n (s.asks runtime action) s.kernel = some k) :
    Ranked k := by
  have hRanked : Ranked s.kernel :=
    run_invariant_of_mem (fun s => Ranked s.kernel)
      (fun hLeaves h hStep => h.step hLeaves hStep) hActions (ranked_initial opened sockets others)
      hRun
  exact (s.guards_asks runtime action _ hRanked).of_cut hCut

end

/-! ## When the frontend is gone -/

/-- The frontend dies, and with it all that it has open. -/
def Kernel.orphaned (k : Kernel) : Kernel := { k with table := fun _ => none, sockets := ∅ }

/-- What a plugin does that is left. None of them starts a process of its own. -/
inductive Deed where
  | call (pid : Nat) (call : ChildCall)
  /-- The child that was starting comes to the end of its `execvp`. -/
  | exec (pid : Nat)
  | exit (pid : Nat)

def Deed.LeavesStdin : Deed → Prop
  | .call _ own => own.LeavesStdin
  | _ => True

def Kernel.deed (k : Kernel) : Deed → Kernel
  | .call pid call => k.setChild pid fun process => process.does call
  | .exec pid => k.setChild pid Process.exec
  | .exit pid => k.setChild pid Process.ended

/-- The plugins that have not exited. -/
def Kernel.running (k : Kernel) : Set Nat :=
  {pid | ∃ process, k.children pid = some process ∧ process.exited = false}

/-- What a read of its stdin comes to; nobody ever writes to it. -/
inductive ReadsStdin (k : Kernel) (process : Process) : Except Unit Nat → Prop
  | closed (h : process.table 0 = none) : ReadsStdin k process (.error ())
  | ended (id : Nat) (closeOnExec : Bool)
      (h : process.table 0 = some ⟨.readEnd .stdinPipe id, closeOnExec⟩) (hEnd : EndOfFile k id) :
      ReadsStdin k process (.ok 0)

/-- Whether the thread of `exit_on_stdin_eof` exits after this read. -/
def exitOnStdinEof : Except Unit Nat → Bool
  | .ok 0 | .error _ => true
  | .ok _ => false

def Kernel.Exits (k : Kernel) (pid : Nat) : Prop :=
  ∃ process result, k.children pid = some process ∧ ReadsStdin k process result ∧
    exitOnStdinEof result = true

/-- What becomes of the plugins; one that has read the end of its stdin exits in time. -/
structure Afterlife (k : Kernel) (life : Nat → Kernel) : Prop where
  death : life 0 = k.orphaned
  deeds : ∀ n, ∃ deed : Deed, deed.LeavesStdin ∧ life (n + 1) = (life n).deed deed
  exits : ∀ n pid, (life n).Exits pid → ∃ m, n ≤ m ∧ pid ∉ (life m).running

/-- One plugin's stdin is open because the other one has its write end. -/
def Kernel.Waits (k : Kernel) (pid other : Nat) : Prop :=
  ∃ process holder id closeOnExec, k.children pid = some process ∧
    process.table 0 = some ⟨.readEnd .stdinPipe id, closeOnExec⟩ ∧
    k.children other = some holder ∧ holder.table.HoldsStdin id

/-- Without a stdin a plugin waits for nobody. -/
def Kernel.rank (k : Kernel) (pid : Nat) : Nat :=
  match (k.children pid).bind fun process => process.table 0 with
  | some ⟨.readEnd _ id, _⟩ => id
  | _ => k.pipes

section
variable {k : Kernel}

theorem Kernel.running_setChild (k : Kernel) (pid : Nat) {f : Process → Process}
    (hRuns : ∀ process, (f process).exited = false → process.exited = false) :
    (k.setChild pid f).running ⊆ k.running := by
  rintro other ⟨process, hChild, hExited⟩
  change Function.update k.children pid _ other = some process at hChild
  rw [Function.update_apply] at hChild
  split at hChild
  · rename_i hSame
    obtain ⟨before, hBefore, rfl⟩ := Option.map_eq_some_iff.mp hChild
    exact ⟨before, hSame ▸ hBefore, hRuns before hExited⟩
  · exact ⟨process, hChild, hExited⟩

theorem Kernel.running_deed (k : Kernel) (deed : Deed) : (k.deed deed).running ⊆ k.running := by
  cases deed with
  | call pid call =>
    refine k.running_setChild pid fun process hExited => ?_
    unfold Process.does at hExited
    split at hExited <;> exact hExited
  | exec pid => exact k.running_setChild pid fun process hExited => hExited
  | exit pid => exact k.running_setChild pid nofun

theorem Ranked.orphaned (h : Ranked k) : Ranked k.orphaned := by
  refine ⟨?_, h.plugins, h.forked⟩
  rintro id ⟨fd, closeOnExec, hEnd⟩
  cases hEnd

theorem Ranked.deed (h : Ranked k) {deed : Deed} (hLeaves : deed.LeavesStdin) :
    Ranked (k.deed deed) := by
  cases deed with
  | call pid call => exact h.setChild pid fun process hJunior => hJunior.does hLeaves
  | exec pid => exact h.setChild pid fun _ hJunior => hJunior.exec
  | exit pid => exact h.setChild pid fun _ _ => Process.junior_ended

theorem Ranked.finite_running (h : Ranked k) : k.running.Finite := by
  refine (List.finite_toSet k.forked).subset ?_
  rintro pid ⟨process, hChild, -⟩
  exact h.forked pid (Option.isSome_of_eq_some hChild)

theorem Ranked.rank_lt (h : Ranked k) {pid other : Nat} (hWaits : k.Waits pid other) :
    k.rank pid < k.rank other := by
  obtain ⟨process, holder, id, closeOnExec, hChild, hStdin, hOther, hHolds⟩ := hWaits
  obtain ⟨_, hOld, hSame, -⟩ := (h.plugins pid process hChild).stdin _ hStdin
  cases hSame
  have hRank : k.rank pid = id := by
    rw [Kernel.rank, hChild, Option.bind_some, hStdin]
  rw [hRank, Kernel.rank, hOther, Option.bind_some]
  cases hHolder : holder.table 0 with
  | none => exact hOld
  | some stdin =>
    obtain ⟨own, -, hReads, hOlder⟩ := (h.plugins other holder hOther).stdin stdin hHolder
    obtain ⟨file, closed⟩ := stdin
    cases hReads
    exact hOlder id hHolds

/-- A plugin whose write end nobody has reads the end of its stdin. -/
theorem Ranked.exits (h : Ranked k) (hNone : k.table = fun _ => none) {pid : Nat}
    (hRuns : pid ∈ k.running) (hFree : Free k.running k.Waits pid) : k.Exits pid := by
  obtain ⟨process, hChild, -⟩ := hRuns
  cases hStdin : process.table 0 with
  | none => exact ⟨process, _, hChild, .closed hStdin, rfl⟩
  | some stdin =>
    obtain ⟨id, -, hReads, -⟩ := (h.plugins pid process hChild).stdin stdin hStdin
    obtain ⟨file, closeOnExec⟩ := stdin
    cases hReads
    refine ⟨process, _, hChild, .ended id closeOnExec hStdin ⟨?_, ?_⟩, rfl⟩
    · rintro ⟨fd, closeOnExec, hEnd⟩
      rw [hNone] at hEnd
      cases hEnd
    · intro other holder hOther hHolds
      have hRuns : other ∈ k.running := by
        refine ⟨holder, hOther, Bool.eq_false_iff.mpr fun hExited => ?_⟩
        obtain ⟨fd, closed, hEnd⟩ := hHolds
        rw [(h.plugins other holder hOther).exited hExited] at hEnd
        cases hEnd
      exact hFree other hRuns ⟨process, holder, id, closeOnExec, hChild, hStdin, hOther, hHolds⟩

end

section
variable {k : Kernel} {life : Nat → Kernel}

theorem Afterlife.table (h : Afterlife k life) (n : Nat) : (life n).table = fun _ => none := by
  induction n with
  | zero =>
    rw [h.death]
    rfl
  | succ n ih =>
    obtain ⟨deed, -, hNext⟩ := h.deeds n
    rw [hNext]
    cases deed <;> exact ih

theorem Afterlife.ranked (h : Afterlife k life) (hRanked : Ranked k) (n : Nat) : Ranked (life n) := by
  induction n with
  | zero =>
    rw [h.death]
    exact hRanked.orphaned
  | succ n ih =>
    obtain ⟨deed, hLeaves, hNext⟩ := h.deeds n
    rw [hNext]
    exact ih.deed hLeaves

theorem Afterlife.shrinks (h : Afterlife k life) (n : Nat) :
    (life (n + 1)).running ⊆ (life n).running := by
  obtain ⟨deed, -, hNext⟩ := h.deeds n
  rw [hNext]
  exact (life n).running_deed deed

/-- Whenever the frontend dies, also in the midst of an operation: all its plugins exit, and
whatever they have inherited keeps none alive. -/
theorem no_plugin_is_orphaned {Config Description : Type} {runtime : Runtime Config Description}
    {opened : Nat → Option Bool} {sockets : Finset Nat} {others : Nat → List OtherCall}
    {actions : List (Action Config × Oracle)} {s : State}
    (hRun : run (State.step runtime) (.initial opened sockets others) actions = some s)
    (hActions : ∀ action ∈ actions, action.1.LeavesStdin) {action : Action Config} {oracle : Oracle}
    {n : Nat} (hCut : host.cut oracle n (s.asks runtime action) s.kernel = some k)
    (hLife : Afterlife k life) : ∃ n, ∀ m, n ≤ m → (life m).running = ∅ := by
  have hRanked := hLife.ranked (ranked_of_cut hRun hActions hCut)
  refine all_leave hLife.shrinks (fun n => (life n).Waits) (hRanked 0).finite_running
    (fun n => (life n).rank) (fun n _ _ _ _ hWaits => (hRanked n).rank_lt hWaits) ?_
  exact fun n pid hRuns hFree => hLife.exits n pid ((hRanked n).exits (hLife.table n) hRuns hFree)

end

/-- Two plugins that exit one after the other. -/
def exitsInTurn (k : Kernel) (first second : Nat) : Nat → Kernel
  | 0 => k.orphaned
  | 1 => k.orphaned.deed (.exit first)
  | n + 2 => (exitsInTurn k first second (n + 1)).deed (.exit second)

theorem afterlife_exitsInTurn {k : Kernel} {first second : Nat}
    (hOnly : ∀ pid, (k.children pid).isSome → pid = first ∨ pid = second) :
    Afterlife k (exitsInTurn k first second) := by
  have hGone : ∀ (k : Kernel) pid, pid ∉ (k.deed (.exit pid)).running := by
    rintro k pid ⟨process, hChild, hRuns⟩
    change Function.update k.children pid _ pid = some process at hChild
    rw [Function.update_self] at hChild
    obtain ⟨before, -, rfl⟩ := Option.map_eq_some_iff.mp hChild
    cases hRuns
  have hLater : ∀ n, (exitsInTurn k first second (n + 1)).running ⊆
      (k.orphaned.deed (.exit first)).running := by
    intro n
    induction n with
    | zero => exact Set.Subset.rfl
    | succ n ih => exact (Kernel.running_deed _ _).trans ih
  refine ⟨rfl, fun n => ?_, fun n pid _ => ⟨n + 2, Nat.le_add_right n 2, fun hRuns => ?_⟩⟩
  · cases n with
    | zero => exact ⟨.exit first, trivial, rfl⟩
    | succ n => exact ⟨.exit second, trivial, rfl⟩
  · have hFirst := hLater (n + 1) hRuns
    obtain ⟨process, hChild, -⟩ := Kernel.running_deed _ _ hFirst
    rcases hOnly pid (Option.isSome_of_eq_some hChild) with rfl | rfl
    · exact hGone _ _ hFirst
    · exact hGone _ _ hRuns

open Example in
/-- The second plugin has the write end of the first one's stdin, and the frontend dies while it
destroys the second client. -/
theorem no_plugin_is_orphaned_two_plugins : ∃ s k,
    run (State.step runtime) first
      [(.launch 0 setting ["demo"] "", granting (7, 8) (9, 10) 100 1 2),
        (.launch 1 setting ["demo"] "", granting (10, 11) (12, 13) 101 3 4)] = some s ∧
      host.cut (granting (7, 8) (9, 10) 100 1 2) 1 (s.asks runtime (.destroy 1)) s.kernel = some k ∧
      ¬ EndOfFile k.orphaned 0 ∧ ∃ n, ∀ m, n ≤ m → (exitsInTurn k 101 100 m).running = ∅ := by
  have hAny : ((run (State.step runtime) first
      [(.launch 0 setting ["demo"] "", granting (7, 8) (9, 10) 100 1 2),
        (.launch 1 setting ["demo"] "", granting (10, 11) (12, 13) 101 3 4)]).any fun s =>
      (host.cut (granting (7, 8) (9, 10) 100 1 2) 1 (s.asks runtime (.destroy 1)) s.kernel).any
        fun k => k.forked = [100, 101] ∧ (k.children 101).any fun plugin =>
          plugin.table 8 = some ⟨.writeEnd .stdinPipe 0, false⟩) = true := by
    decide +kernel
  obtain ⟨s, hRun, hCut⟩ := (Option.any_eq_true _ _).mp hAny
  obtain ⟨k, hCut, hBoth⟩ := (Option.any_eq_true _ _).mp hCut
  obtain ⟨hForked, hPlugin⟩ := of_decide_eq_true hBoth
  obtain ⟨plugin, hChild, hEnd⟩ := (Option.any_eq_true _ _).mp hPlugin
  have hActions : ∀ action ∈ [((.launch 0 setting ["demo"] "" : Action Unit),
      granting (7, 8) (9, 10) 100 1 2), (.launch 1 setting ["demo"] "", granting (10, 11) (12, 13) 101 3 4)],
      action.1.LeavesStdin := by
    simp [Action.LeavesStdin]
  have hLife : Afterlife k (exitsInTurn k 101 100) := by
    refine afterlife_exitsInTurn fun pid hThere => ?_
    have hMem := (ranked_of_cut hRun hActions hCut).forked pid hThere
    rw [hForked] at hMem
    simpa [or_comm] using hMem
  refine ⟨s, k, hRun, hCut, fun hEof => ?_, no_plugin_is_orphaned hRun hActions hCut hLife⟩
  exact hEof.2 101 plugin hChild ⟨8, false, of_decide_eq_true hEnd⟩

end OpenMso.Cpp.Plugins
