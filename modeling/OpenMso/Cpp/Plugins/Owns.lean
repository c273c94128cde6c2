import Mathlib.Data.Finset.Lattice.Lemmas
import OpenMso.Cpp.Plugins.Kernel

/-! # What a frontend holds -/

namespace OpenMso.Cpp.Plugins

open Foundation OpenMso.Transport

set_option autoImplicit false

/-- Each resource is there; the descriptors are the ends of pipes in the frontend's table. -/
structure Backs (k : Kernel) (held : Finset Resource) : Prop where
  fd : ∀ fd, .fd fd ∈ held → ∃ descriptor, k.table fd = some descriptor ∧ descriptor.file ≠ .other
  pid : ∀ pid, .pid pid ∈ held → (k.children pid).isSome
  socket : ∀ socket, .socket socket ∈ held → socket ∈ k.sockets
  ends : ∀ fd descriptor, k.table fd = some descriptor → descriptor.file ≠ .other → .fd fd ∈ held

/-- By the log the frontend holds these resources, and it has them. -/
structure Owns (k : Kernel) (held : Finset Resource) : Prop where
  orderly : discipline.Orderly k.log
  held_eq : discipline.held k.log = held
  backs : Backs k held

theorem Owns.initial (opened : Nat → Option Bool) (sockets : Finset Nat)
    (others : Nat → List OtherCall) : Owns (.initial opened sockets others) ∅ := by
  refine ⟨Discipline.orderly_nil, rfl, ?_, ?_, ?_, ?_⟩
  · intro fd h
    simp at h
  · intro pid h
    simp at h
  · intro socket h
    simp at h
  · intro fd descriptor h hFile
    obtain ⟨closeOnExec, _, rfl⟩ := Option.map_eq_some_iff.mp h
    exact (hFile rfl).elim

section
variable {k : Kernel} {held held' : Finset Resource}

theorem Backs.beside (h : Backs k held) (calls : List OtherCall) : Backs (k.beside calls) held := by
  refine ⟨fun fd hFd => ?_, h.pid, h.socket, fun fd descriptor hEnd hFile => ?_⟩
  · obtain ⟨descriptor, hThere, hFile⟩ := h.fd fd hFd
    exact ⟨descriptor, (OtherCall.foldl_apply_eq_some_iff calls hFile).mpr hThere, hFile⟩
  · exact h.ends fd descriptor ((OtherCall.foldl_apply_eq_some_iff calls hFile).mp hEnd) hFile

theorem Backs.passes (h : Backs k held) (op : Op) : Backs (k.passes op) held := by
  unfold Kernel.passes
  cases op.isNng with
  | true => exact h.beside _
  | false => exact h

/-- What the frontend holds is not touched by nng. -/
theorem Owns.table_after (h : Owns k held) {op : Op} {answer : op.Answer} {fd : Nat}
    (hFd : .fd fd ∈ held) (hSame : (k.effect op answer).table fd = k.table fd) :
    (host.after k op answer).table fd = k.table fd := by
  obtain ⟨descriptor, hThere, hFile⟩ := h.backs.fd fd hFd
  rw [hThere] at hSame ⊢
  exact (Kernel.passes_table_eq_some_iff _ op hFile).mpr hSame

theorem Owns.after (h : Owns k held) {op : Op} {answer : op.Answer}
    (hNeeds : discipline.uses op ∪ discipline.releases op ⊆ held)
    (hNew : Disjoint (discipline.acquires op answer) held)
    (hHeld : held \ discipline.releases op ∪ discipline.acquires op answer = held')
    (hBacks : Backs (k.effect op answer) held') : Owns (host.after k op answer) held' := by
  have hFits : discipline.Fits (discipline.held k.log) ⟨op, answer⟩ := by
    rw [h.held_eq]
    exact ⟨hNeeds, hNew⟩
  have hPasses := hBacks.passes op
  refine ⟨h.orderly.concat hFits, ?_, hPasses.fd, hPasses.pid, hPasses.socket, hPasses.ends⟩
  refine (Discipline.held_concat k.log ⟨op, answer⟩).trans ?_
  rw [h.held_eq]
  exact hHeld

theorem Owns.quiet (h : Owns k held) {op : Op} {answer : op.Answer}
    (hUses : discipline.uses op = ∅) (hReleases : discipline.releases op = ∅)
    (hAcquires : discipline.acquires op answer = ∅) (hEffect : k.effect op answer = k) :
    Owns (host.after k op answer) held := by
  refine h.after (by simp [hUses, hReleases]) (by simp [hAcquires]) (by simp [hReleases, hAcquires]) ?_
  rw [hEffect]
  exact h.backs

theorem Owns.close (h : Owns k held) (fd : Nat) (hFd : .fd fd ∈ held) :
    Owns (host.after k (.close fd) ()) (held \ {.fd fd}) := by
  refine h.after (by simpa [discipline] using hFd) (by simp [discipline]) (by simp [discipline])
    ⟨?_, ?_, ?_, ?_⟩
  · intro other hOther
    simp only [Finset.mem_sdiff, Finset.mem_singleton, Resource.fd.injEq] at hOther
    simpa [Kernel.effect, hOther.2] using h.backs.fd other hOther.1
  · intro pid hPid
    exact h.backs.pid pid (Finset.mem_sdiff.mp hPid).1
  · intro socket hSocket
    exact h.backs.socket socket (Finset.mem_sdiff.mp hSocket).1
  · intro other descriptor hEnd hFile
    by_cases hOther : other = fd
    · simp [Kernel.effect, hOther] at hEnd
    · simp only [Kernel.effect, Function.update_of_ne hOther] at hEnd
      simp [h.backs.ends other descriptor hEnd hFile, hOther]

theorem Owns.setCloseOnExec (h : Owns k held) (fd : Nat) (hFd : .fd fd ∈ held) :
    Owns (host.after k (.setCloseOnExec fd) ()) held := by
  refine h.after (by simpa [discipline] using hFd) (by simp [discipline]) (by simp [discipline])
    ⟨?_, h.backs.pid, h.backs.socket, ?_⟩
  · intro other hOther
    by_cases hSame : other = fd
    · simpa [Kernel.effect, hSame] using h.backs.fd fd hFd
    · simpa [Kernel.effect, hSame] using h.backs.fd other hOther
  · intro other descriptor hEnd hFile
    by_cases hSame : other = fd
    · exact hSame ▸ hFd
    · simp only [Kernel.effect, Function.update_of_ne hSame] at hEnd
      exact h.backs.ends other descriptor hEnd hFile

/-- What becomes of a child that has not been waited for leaves the pids alone. -/
theorem Backs.setChild (h : Backs k held) (pid : Nat) (f : Process → Process) :
    Backs (k.setChild pid f) held := by
  refine ⟨h.fd, fun other hOther => ?_, h.socket, h.ends⟩
  by_cases hSame : other = pid
  · simpa [Kernel.setChild, hSame] using h.pid pid (hSame ▸ hOther)
  · simpa [Kernel.setChild, hSame] using h.pid other hOther

theorem Owns.read (h : Owns k held) (fd : Nat) (hFd : .fd fd ∈ held) (answer : Option Errno) :
    Owns (host.after k (.read fd) answer) held := by
  refine h.after (by simpa [discipline] using hFd) (by simp [discipline]) (by simp [discipline]) ?_
  change Backs (k.resume answer) held
  unfold Kernel.resume
  split
  · exact h.backs
  · rename_i pid _
    have hSet := h.backs.setChild pid fun process =>
      if answer.isSome then process.ended else process.exec
    exact ⟨hSet.fd, hSet.pid, hSet.socket, hSet.ends⟩

theorem Owns.kill (h : Owns k held) (pid : Nat) (hPid : .pid pid ∈ held) :
    Owns (host.after k (.kill pid) ()) held :=
  h.after (by simpa [discipline] using hPid) (by simp [discipline]) (by simp [discipline])
    (h.backs.setChild pid Process.ended)

theorem Owns.waitpid (h : Owns k held) (pid : Nat) (hPid : .pid pid ∈ held) :
    Owns (host.after k (.waitpid pid) ()) (held \ {.pid pid}) := by
  refine h.after (by simpa [discipline] using hPid) (by simp [discipline]) (by simp [discipline])
    ⟨?_, ?_, ?_, ?_⟩
  · intro fd hFd
    exact h.backs.fd fd (Finset.mem_sdiff.mp hFd).1
  · intro other hOther
    simp only [Finset.mem_sdiff, Finset.mem_singleton, Resource.pid.injEq] at hOther
    simpa [Kernel.effect, hOther.2] using h.backs.pid other hOther.1
  · intro socket hSocket
    exact h.backs.socket socket (Finset.mem_sdiff.mp hSocket).1
  · intro fd descriptor hEnd hFile
    simp [h.backs.ends fd descriptor hEnd hFile]

theorem Owns.nngClose (h : Owns k held) (socket : Nat) (hSocket : .socket socket ∈ held) :
    Owns (host.after k (.nngClose socket) ()) (held \ {.socket socket}) := by
  refine h.after (by simpa [discipline] using hSocket) (by simp [discipline])
    (by simp [discipline]) ⟨?_, ?_, ?_, ?_⟩
  · intro fd hFd
    exact h.backs.fd fd (Finset.mem_sdiff.mp hFd).1
  · intro pid hPid
    exact h.backs.pid pid (Finset.mem_sdiff.mp hPid).1
  · intro other hOther
    simp only [Finset.mem_sdiff, Finset.mem_singleton, Resource.socket.injEq] at hOther
    exact Finset.mem_erase.mpr ⟨hOther.2, h.backs.socket other hOther.1⟩
  · intro fd descriptor hEnd hFile
    simp [h.backs.ends fd descriptor hEnd hFile]

theorem Owns.nngOpen (h : Owns k held) {protocol : Protocol} {socket : Nat}
    (hAllows : k.allows (.nngOpen protocol) (.ok socket) = true) :
    .socket socket ∉ held ∧
      Owns (host.after k (.nngOpen protocol) (.ok socket)) (held ∪ {.socket socket}) := by
  have hFree : socket ∉ k.sockets := by simpa [Kernel.allows] using hAllows
  have hNew : .socket socket ∉ held := fun hMem => hFree (h.backs.socket socket hMem)
  refine ⟨hNew, h.after (by simp [discipline]) (by simpa [discipline] using hNew)
    (by simp [discipline]) ⟨?_, ?_, ?_, ?_⟩⟩
  · intro fd hFd
    exact h.backs.fd fd (by simpa using hFd)
  · intro pid hPid
    exact h.backs.pid pid (by simpa using hPid)
  · intro other hOther
    obtain hOther | hOther := Finset.mem_union.mp hOther
    · exact Finset.mem_insert_of_mem (h.backs.socket other hOther)
    · cases Finset.mem_singleton.mp hOther
      exact Finset.mem_insert_self socket k.sockets
  · intro fd descriptor hEnd hFile
    exact Finset.mem_union_left _ (h.backs.ends fd descriptor hEnd hFile)

theorem allows_fork {child : Child} {pid : Nat} (h : k.allows (.fork child) (.ok pid) = true) :
    0 < pid ∧ k.children pid = none := by
  simpa only [Kernel.allows, Bool.and_eq_true, Option.isNone_iff_eq_none, decide_eq_true_eq] using h

theorem Owns.fork (h : Owns k held) (child : Child) {pid : Nat}
    (hAllows : k.allows (.fork child) (.ok pid) = true) :
    .pid pid ∉ held ∧ Owns (host.after k (.fork child) (.ok pid)) (held ∪ {.pid pid}) := by
  have hFree : k.children pid = none := (allows_fork hAllows).2
  have hNew : .pid pid ∉ held := by
    intro hMem
    have hThere := h.backs.pid pid hMem
    simp [hFree] at hThere
  refine ⟨hNew, h.after (by simp [discipline]) (by simpa [discipline] using hNew)
    (by simp [discipline]) ⟨?_, ?_, ?_, ?_⟩⟩
  · intro fd hFd
    exact h.backs.fd fd (by simpa using hFd)
  · intro other hOther
    by_cases hSame : other = pid
    · simp [Kernel.effect, hSame]
    · simpa [Kernel.effect, hSame] using h.backs.pid other (by simpa [hSame] using hOther)
  · intro socket hSocket
    exact h.backs.socket socket (by simpa using hSocket)
  · intro fd descriptor hEnd hFile
    exact Finset.mem_union_left _ (h.backs.ends fd descriptor hEnd hFile)

theorem allows_pipe (pipe : Pipe) {r w : Nat}
    (h : k.allows (.pipe pipe) (.ok (r, w)) = true) :
    k.table r = none ∧ k.table w = none ∧ r < w ∧ ∀ fd < w, fd ≠ r → (k.table fd).isSome := by
  simp only [Kernel.allows, Bool.and_eq_true, Option.isNone_iff_eq_none, decide_eq_true_eq] at h
  exact ⟨h.1.1.1, h.1.1.2, h.1.2, h.2⟩

theorem Owns.pipe (h : Owns k held) (pipe : Pipe) {r w : Nat}
    (hAllows : k.allows (.pipe pipe) (.ok (r, w)) = true) :
    .fd r ∉ held ∧ .fd w ∉ held ∧ r < w ∧
      Owns (host.after k (.pipe pipe) (.ok (r, w))) (held ∪ {.fd r, .fd w}) := by
  obtain ⟨hFreeR, hFreeW, hLt, _⟩ := allows_pipe pipe hAllows
  have hNewR : .fd r ∉ held := by
    intro hMem
    have hThere := h.backs.fd r hMem
    simp [hFreeR] at hThere
  have hNewW : .fd w ∉ held := by
    intro hMem
    have hThere := h.backs.fd w hMem
    simp [hFreeW] at hThere
  refine ⟨hNewR, hNewW, hLt, h.after (by simp [discipline]) (by simp [discipline, hNewR, hNewW])
    (by simp [discipline]) ⟨?_, ?_, ?_, ?_⟩⟩
  · intro fd hFd
    by_cases hW : fd = w
    · simp [Kernel.effect, hW]
    · by_cases hR : fd = r
      · simp [Kernel.effect, hR, hLt.ne]
      · simpa [Kernel.effect, hW, hR] using h.backs.fd fd (by simpa [hW, hR] using hFd)
  · intro pid hPid
    exact h.backs.pid pid (by simpa using hPid)
  · intro socket hSocket
    exact h.backs.socket socket (by simpa using hSocket)
  · intro fd descriptor hEnd hFile
    by_cases hW : fd = w
    · simp [hW]
    · by_cases hR : fd = r
      · simp [hR]
      · simp only [Kernel.effect, Function.update_of_ne hW, Function.update_of_ne hR] at hEnd
        exact Finset.mem_union_left _ (h.backs.ends fd descriptor hEnd hFile)

end

/-- The operations that concern no descriptor of the frontend, no plugin and no socket's being
open. -/
def Op.isQuiet : Op → Bool
  | .file _ | .nngSet _ _ | .nngSend _ _ | .nngRecv _ | .nngListenerCreate _ _
  | .nngListenerSetPermissions _ _ | .nngListenerStart _ | .nngListenerClose _ => true
  | _ => false

/-- From one state to the next no descriptor was opened and no plugin started: the descriptors
and the plugins that are left are as they were, but for plugins that have ended. -/
structure Calm (k : Kernel) (held : Finset Resource) (k' : Kernel) (held' : Finset Resource) :
    Prop where
  owns : Owns k' held'
  table : ∀ fd, .fd fd ∈ held' → .fd fd ∈ held ∧ k'.table fd = k.table fd
  children : ∀ pid process, k'.children pid = some process →
    ∃ before, k.children pid = some before ∧ (process = before ∨ process = before.ended)
  starting : k'.starting = k.starting
  pipes : k.pipes ≤ k'.pipes

namespace Calm

variable {k k' k₂ : Kernel} {held held' held₂ : Finset Resource}

theorem of_owns (h : Owns k held) : Calm k held k held :=
  ⟨h, fun _ hFd => ⟨hFd, rfl⟩, fun _ process hChild => ⟨process, hChild, .inl rfl⟩, rfl, le_rfl⟩

/-- Every end of a pipe is an end that was there. -/
theorem table_of_end (h : Calm k held k' held') {fd : Nat} {descriptor : Descriptor}
    (hEnd : k'.table fd = some descriptor) (hFile : descriptor.file ≠ .other) :
    k.table fd = some descriptor :=
  (h.table fd (h.owns.backs.ends fd descriptor hEnd hFile)).2.symm.trans hEnd

theorem trans (h : Calm k held k' held') (h' : Calm k' held' k₂ held₂) :
    Calm k held k₂ held₂ := by
  refine ⟨h'.owns, ?_, ?_, h'.starting.trans h.starting, h.pipes.trans h'.pipes⟩
  · intro fd hFd
    obtain ⟨hMid, hTable⟩ := h'.table fd hFd
    exact ⟨(h.table fd hMid).1, hTable.trans (h.table fd hMid).2⟩
  · intro pid process hChild
    obtain ⟨middle, hMiddle, hNow⟩ := h'.children pid process hChild
    obtain ⟨before, hBefore, hThen⟩ := h.children pid middle hMiddle
    refine ⟨before, hBefore, ?_⟩
    obtain rfl | rfl := hThen
    · exact hNow
    · exact .inr (hNow.elim id id)

section
variable (h : Owns k held)
include h

theorem quiet {op : Op} {answer : op.Answer} (hUses : discipline.uses op = ∅)
    (hReleases : discipline.releases op = ∅) (hAcquires : discipline.acquires op answer = ∅)
    (hEffect : k.effect op answer = k) : Calm k held (host.after k op answer) held := by
  refine ⟨h.quiet hUses hReleases hAcquires hEffect, fun fd hFd => ⟨hFd, ?_⟩, ?_, ?_, ?_⟩
  · exact h.table_after hFd (by rw [hEffect])
  · intro pid process hChild
    change ((k.effect op answer).passes op).children pid = _ at hChild
    rw [Kernel.passes_children, hEffect] at hChild
    exact ⟨process, hChild, .inl rfl⟩
  · change ((k.effect op answer).passes op).starting = _
    rw [Kernel.passes_starting, hEffect]
  · change _ ≤ ((k.effect op answer).passes op).pipes
    rw [Kernel.passes_pipes, hEffect]

theorem close (fd : Nat) (hFd : .fd fd ∈ held) :
    Calm k held (host.after k (.close fd) ()) (held \ {.fd fd}) := by
  refine ⟨h.close fd hFd, ?_, fun _ process hChild => ⟨process, hChild, .inl rfl⟩, rfl, le_rfl⟩
  intro other hOther
  simp only [Finset.mem_sdiff, Finset.mem_singleton, Resource.fd.injEq] at hOther
  refine ⟨hOther.1, ?_⟩
  exact Function.update_of_ne hOther.2 _ k.table

theorem kill (pid : Nat) (hPid : .pid pid ∈ held) :
    Calm k held (host.after k (.kill pid) ()) held := by
  refine ⟨h.kill pid hPid, fun fd hFd => ⟨hFd, rfl⟩, ?_, rfl, le_rfl⟩
  intro other process hChild
  change Function.update k.children pid ((k.children pid).map Process.ended) other = _ at hChild
  by_cases hOther : other = pid
  · rw [hOther, Function.update_self] at hChild
    obtain ⟨before, hBefore, hEnded⟩ := Option.map_eq_some_iff.mp hChild
    exact ⟨before, hOther ▸ hBefore, .inr hEnded.symm⟩
  · rw [Function.update_of_ne hOther] at hChild
    exact ⟨process, hChild, .inl rfl⟩

theorem waitpid (pid : Nat) (hPid : .pid pid ∈ held) :
    Calm k held (host.after k (.waitpid pid) ()) (held \ {.pid pid}) := by
  refine ⟨h.waitpid pid hPid, ?_, ?_, rfl, le_rfl⟩
  · intro fd hFd
    exact ⟨(Finset.mem_sdiff.mp hFd).1, rfl⟩
  · intro other process hChild
    change Function.update k.children pid none other = _ at hChild
    by_cases hOther : other = pid
    · rw [hOther, Function.update_self] at hChild
      cases hChild
    · rw [Function.update_of_ne hOther] at hChild
      exact ⟨process, hChild, .inl rfl⟩

theorem nngClose (socket : Nat) (hSocket : .socket socket ∈ held) :
    Calm k held (host.after k (.nngClose socket) ()) (held \ {.socket socket}) := by
  refine ⟨h.nngClose socket hSocket, ?_, fun _ process hChild => ⟨process, hChild, .inl rfl⟩, rfl, le_rfl⟩
  intro fd hFd
  have hHeld := (Finset.mem_sdiff.mp hFd).1
  exact ⟨hHeld, h.table_after hHeld rfl⟩

theorem nngOpen (protocol : Protocol) (socket : Nat)
    (hAllows : k.allows (.nngOpen protocol) (.ok socket) = true) :
    .socket socket ∉ held ∧ Calm k held (host.after k (.nngOpen protocol) (.ok socket))
      (held ∪ {.socket socket}) := by
  obtain ⟨hNew, hOwns⟩ := h.nngOpen hAllows
  refine ⟨hNew, hOwns, ?_, fun _ process hChild => ⟨process, hChild, .inl rfl⟩, rfl, le_rfl⟩
  intro fd hFd
  have hHeld : .fd fd ∈ held := by simpa using hFd
  exact ⟨hHeld, h.table_after hHeld rfl⟩

theorem of_isQuiet {op : Op} (hQuiet : op.isQuiet = true) (answer : op.Answer) :
    Calm k held (host.after k op answer) held := by
  cases op <;> first | exact quiet h rfl rfl rfl rfl | cases hQuiet

end

end Calm

/-- A program that asks nothing of the processes and opens nothing. -/
theorem ensures_calm {k : Kernel} {held : Finset Resource} (h : Owns k held) {α : Type}
    {P : α → Prop} {program : Program Op Op.Answer α}
    (hFinishes : program.Finishes (fun op => op.isQuiet = true) P) :
    host.Ensures program (fun a k' => P a ∧ Calm k held k' held) k := by
  refine Host.ensures_of_finishes ?_ hFinishes (Calm.of_owns h)
  intro k' op answer hQuiet _ hCalm
  exact hCalm.trans (Calm.of_isQuiet hCalm.owns hQuiet answer)

end OpenMso.Cpp.Plugins
