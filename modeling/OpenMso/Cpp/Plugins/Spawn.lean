import OpenMso.Cpp.Plugins.Socket

/-! # Spawning a plugin

`spawnPlugin` of `client.cpp`.
-/

namespace OpenMso.Cpp.Plugins

open Foundation Foundation.Text OpenMso.Transport

set_option autoImplicit false

structure Spawned where
  pid : Nat
  stdinFd : Nat
  deriving DecidableEq, Repr

/-- The arguments as `execvp` is given them. -/
def cargv (argv : List String) : List String := argv.map cStr

/-- The branch of `fork` that becomes the plugin. -/
def Child.ofSpawn (argv : List String) (stdinR stdinW errR errW : Nat) : Child where
  calls := [.close stdinW, .close errR, .dup2 stdinR 0, .close stdinR]
  argv := cargv argv
  status := errW

def spawnPlugin (strerror : Errno → String) (argv : List String) : Throwing Spawned := do
  match ← ask (.pipe .stdinPipe) with
  | .error e => throw (.io (strerror e) "pipe")
  | .ok (stdinR, stdinW) =>
    -- Closed by a successful execvp, so EOF here means the child is running
    -- and anything read is the errno that stopped it.
    match ← ask (.pipe .errPipe) with
    | .error e =>
      ask (.close stdinR)
      ask (.close stdinW)
      throw (.io (strerror e) "pipe")
    | .ok (errR, errW) =>
      ask (.setCloseOnExec errW)
      match ← ask (.fork (.ofSpawn argv stdinR stdinW errR errW)) with
      | .error e =>
        ask (.close stdinR)
        ask (.close stdinW)
        ask (.close errR)
        ask (.close errW)
        throw (.io (strerror e) "fork")
      | .ok pid =>
        ask (.close stdinR)
        ask (.close errW)
        let status ← ask (.read errR)
        ask (.close errR)
        match status with
        | some childErrno =>
          ask (.waitpid pid)
          ask (.close stdinW)
          throw (.io (strerror childErrno) ("exec " ++ argv.headD ""))
        | none => return ⟨pid, stdinW⟩

/-! ## What the frontend and the plugin are left with -/

/-- The descriptors of a plugin: what its frontend had, but for those closed on exec, and the
read end of its stdin pipe. -/
def Table.inherited (table : Table) (id : Nat) : Table :=
  Function.update table.exec 0 ((table 0).map fun _ => ⟨.readEnd .stdinPipe id, false⟩)

/-- The frontend has spawned a plugin, and holds its pid and the write end of its stdin. -/
structure Spawns (k : Kernel) (held : Finset Resource) (spawned : Spawned) (k' : Kernel) : Prop where
  owns : Owns k' (held ∪ {.pid spawned.pid, .fd spawned.stdinFd})
  fd_new : k.table spawned.stdinFd = none
  fd_pos : 0 < spawned.stdinFd
  pid_new : k.children spawned.pid = none
  pid_pos : 0 < spawned.pid
  table : k'.table =
    Function.update k.table spawned.stdinFd (some ⟨.writeEnd .stdinPipe k.pipes, false⟩)
  children : ∃ process, process.table = k.table.inherited k.pipes ∧
    k'.children = Function.update k.children spawned.pid (some process)
  starting : k'.starting = none
  pipes : k.pipes < k'.pipes

section
variable {table : Table} {stdinR stdinW errR errW : Nat} {id : Nat}

/-- The table of the frontend when it forks. -/
def Table.piped (table : Table) (stdinR stdinW errR errW id : Nat) : Table :=
  Function.update (Function.update (Function.update (Function.update table
    stdinR (some ⟨.readEnd .stdinPipe id, false⟩)) stdinW (some ⟨.writeEnd .stdinPipe id, false⟩))
    errR (some ⟨.readEnd .errPipe (id + 1), false⟩)) errW (some ⟨.writeEnd .errPipe (id + 1), true⟩)

/-- Four descriptors that two calls of `pipe` can have opened one after the other. -/
structure Table.Opens (table : Table) (stdinR stdinW errR errW : Nat) : Prop where
  freeStdin : table stdinR = none ∧ table stdinW = none
  freeErr : table errR = none ∧ table errW = none
  stdin_lt : stdinR < stdinW
  err_lt : errR < errW
  errR_ne : errR ≠ stdinR ∧ errR ≠ stdinW
  errW_ne : errW ≠ stdinR ∧ errW ≠ stdinW
  lowest : ∀ fd < stdinW, fd ≠ stdinR → (table fd).isSome

theorem Table.closed_pipe {readEnd writeEnd : Descriptor} (hStdinR : table stdinR = none)
    (hStdinW : table stdinW = none) :
    Function.update (Function.update (Function.update (Function.update table
      stdinR (some readEnd)) stdinW (some writeEnd)) stdinR none) stdinW none = table := by
  funext fd
  simp only [Function.update_apply]
  grind

variable (h : table.Opens stdinR stdinW errR errW)
include h

theorem Table.Opens.closed :
    Function.update (Function.update (Function.update (table.piped stdinR stdinW errR errW id)
      stdinR none) errW none) errR none =
    Function.update table stdinW (some ⟨.writeEnd .stdinPipe id, false⟩) := by
  obtain ⟨hFreeStdin, hFreeErr, hStdin, hErr, hErrR, hErrW, _⟩ := h
  funext fd
  simp only [Table.piped, Function.update_apply]
  grind

theorem Table.Opens.closed_all :
    Function.update (Function.update (Function.update (Function.update
      (table.piped stdinR stdinW errR errW id) stdinR none) stdinW none) errR none) errW none =
    table := by
  obtain ⟨hFreeStdin, hFreeErr, _⟩ := h
  funext fd
  simp only [Table.piped, Function.update_apply]
  grind

theorem Table.Opens.exec (argv : List String) :
    (Process.forked (table.piped stdinR stdinW errR errW id)
      (.ofSpawn argv stdinR stdinW errR errW)).exec.table = table.inherited id := by
  obtain ⟨hFreeStdin, hFreeErr, hStdin, hErr, hErrR, hErrW, hLowest⟩ := h
  -- The lowest free descriptor is the frontend's stdin if that is closed.
  have hZero : table 0 = none ↔ stdinR = 0 := by
    constructor
    · intro hNone
      by_contra hne
      have hThere := hLowest 0 (by omega) (Ne.symm hne)
      rw [hNone] at hThere
      cases hThere
    · rintro rfl
      exact hFreeStdin.1
  have hSource : Function.update (Function.update (table.piped stdinR stdinW errR errW id)
      stdinW none) errR none stdinR = some ⟨.readEnd .stdinPipe id, false⟩ := by
    simp only [Table.piped, Function.update_apply]
    grind
  simp only [Process.exec, Process.forked, Child.ofSpawn, List.foldl_cons, List.foldl_nil,
    ChildCall.apply, hSource]
  funext fd
  split
  · simp only [Table.exec, Table.inherited, Table.piped, Function.update_apply]
    grind
  · rename_i hne
    obtain ⟨stdin, hThere⟩ : ∃ stdin, table 0 = some stdin :=
      Option.ne_none_iff_exists'.mp fun hNone => hne (hZero.mp hNone)
    simp only [Table.exec, Table.inherited, Table.piped, Function.update_apply, hThere,
      Option.map_some]
    grind

end

/-- How `spawnPlugin` ends. -/
inductive SpawnEnds (k : Kernel) (held : Finset Resource) : Except Error Spawned → Kernel → Prop
  | failed (e : Error) (k' : Kernel) (h : Calm k held k' held) : SpawnEnds k held (.error e) k'
  | spawned (spawned : Spawned) (k' : Kernel) (h : Spawns k held spawned k') :
      SpawnEnds k held (.ok spawned) k'

section
variable {α : Type} [DecidableEq α] {held : Finset α} {a b c d e : α}

theorem sdiff_pair (ha : a ∉ held) (hb : b ∉ held) : ((held ∪ {a, b}) \ {a}) \ {b} = held := by
  grind

theorem sdiff_pairs (ha : a ∉ held) (hb : b ∉ held) (hc : c ∉ held ∪ {a, b})
    (hd : d ∉ held ∪ {a, b}) :
    ((((held ∪ {a, b} ∪ {c, d}) \ {a}) \ {b}) \ {c}) \ {d} = held := by
  grind

theorem sdiff_spawned (ha : a ∉ held) (hab : a ≠ b) (hc : c ∉ held ∪ {a, b}) (hd : d ∉ held ∪ {a, b})
    (he : e ∉ held ∪ {a, b} ∪ {c, d}) :
    (((held ∪ {a, b} ∪ {c, d} ∪ {e}) \ {a}) \ {d}) \ {c} = held ∪ {e, b} := by
  grind

end

theorem Calm.of_eq {k k' : Kernel} {held : Finset Resource} (h : Owns k' held)
    (hTable : k'.table = k.table) (hChildren : k'.children = k.children)
    (hStarting : k'.starting = k.starting) (hPipes : k.pipes ≤ k'.pipes) :
    Calm k held k' held := by
  refine ⟨h, fun fd hFd => ⟨hFd, congrFun hTable fd⟩, ?_, hStarting, hPipes⟩
  intro pid process hChild
  exact ⟨process, hChildren ▸ hChild, .inl rfl⟩

section
variable {k : Kernel} {stdinR stdinW errR errW : Nat}

theorem Table.Opens.of_allows
    (hStdin : k.allows (.pipe .stdinPipe) (.ok (stdinR, stdinW)) = true)
    (hErr : (host.after k (.pipe .stdinPipe) (.ok (stdinR, stdinW))).allows (.pipe .errPipe)
      (.ok (errR, errW)) = true) :
    Table.Opens k.table stdinR stdinW errR errW := by
  obtain ⟨hStdinR, hStdinW, hStdinLt, hLowest⟩ := allows_pipe .stdinPipe hStdin
  obtain ⟨hErrR, hErrW, hErrLt, -⟩ := allows_pipe .errPipe hErr
  simp only [host, Kernel.effect, Kernel.passes, Op.isNng, cond_false, Function.update_apply]
    at hErrR hErrW
  constructor <;> grind

/-- The frontend between its second pipe and its fork. -/
def Kernel.piped (k : Kernel) (stdinR stdinW errR errW : Nat) : Kernel :=
  host.after (host.after (host.after k (.pipe .stdinPipe) (.ok (stdinR, stdinW)))
    (.pipe .errPipe) (.ok (errR, errW))) (.setCloseOnExec errW) ()

theorem Kernel.piped_table :
    (k.piped stdinR stdinW errR errW).table = k.table.piped stdinR stdinW errR errW k.pipes := by
  let opened := host.after (host.after k (.pipe .stdinPipe) (.ok (stdinR, stdinW)))
    (.pipe .errPipe) (.ok (errR, errW))
  have hErrW : opened.table errW = some ⟨.writeEnd .errPipe (k.pipes + 1), false⟩ :=
    Function.update_self ..
  change Function.update opened.table errW ((opened.table errW).map fun descriptor =>
    { descriptor with closeOnExec := true }) = _
  rw [hErrW]
  exact Function.update_idem ..

/-- The frontend when its plugin runs. -/
def Kernel.spawned (k : Kernel) (argv : List String) (stdinR stdinW errR errW pid : Nat) : Kernel :=
  let forked := host.after (k.piped stdinR stdinW errR errW)
    (.fork (.ofSpawn argv stdinR stdinW errR errW)) (.ok pid)
  let closed := host.after (host.after forked (.close stdinR) ()) (.close errW) ()
  host.after (host.after closed (.read errR) none) (.close errR) ()

theorem Kernel.spawned_table (h : k.table.Opens stdinR stdinW errR errW) (argv : List String)
    (pid : Nat) :
    (k.spawned argv stdinR stdinW errR errW pid).table =
      Function.update k.table stdinW (some ⟨.writeEnd .stdinPipe k.pipes, false⟩) := by
  change Function.update (Function.update (Function.update
    (k.piped stdinR stdinW errR errW).table stdinR none) errW none) errR none = _
  rw [Kernel.piped_table, h.closed]

theorem Kernel.spawned_children (argv : List String) (pid : Nat) :
    (k.spawned argv stdinR stdinW errR errW pid).children =
      Function.update k.children pid (some (Process.forked
        (k.table.piped stdinR stdinW errR errW k.pipes)
        (.ofSpawn argv stdinR stdinW errR errW)).exec) := by
  rw [← Kernel.piped_table]
  change Function.update (Function.update k.children pid _) pid
    ((Function.update k.children pid _ pid).map _) = _
  rw [Function.update_idem, Function.update_self]
  rfl

end

theorem ensures_spawnPlugin {k : Kernel} {held : Finset Resource} (h : Owns k held)
    (hStarting : k.starting = none) (strerror : Errno → String) (argv : List String) :
    host.Ensures (spawnPlugin strerror argv).run (SpawnEnds k held) k := by
  have hOne : k.pipes ≤ k.pipes + 1 := by omega
  have hTwo : k.pipes ≤ k.pipes + 1 + 1 := by omega
  have hMore : k.pipes < k.pipes + 1 + 1 := by omega
  intro stdinPipe hStdinPipe
  cases stdinPipe with
  | error e => exact .failed _ _ (Calm.quiet h rfl rfl rfl rfl)
  | ok ends =>
    obtain ⟨stdinR, stdinW⟩ := ends
    obtain ⟨hNewStdinR, hNewStdinW, hStdin, hOwnsStdin⟩ := h.pipe .stdinPipe hStdinPipe
    intro errPipe hErrPipe
    cases errPipe with
    | error e =>
      rintro ⟨⟩ - ⟨⟩ -
      have hQuiet : Owns (host.after _ (.pipe .errPipe) (.error e)) _ :=
        hOwnsStdin.quiet rfl rfl rfl rfl
      have hClosed := (hQuiet.close stdinR (by simp)).close stdinW (by simp [hStdin.ne'])
      rw [sdiff_pair hNewStdinR hNewStdinW] at hClosed
      refine .failed _ _ (Calm.of_eq hClosed ?_ rfl rfl hOne)
      obtain ⟨hFreeR, hFreeW, -⟩ := allows_pipe .stdinPipe hStdinPipe
      exact Table.closed_pipe hFreeR hFreeW
    | ok ends =>
      obtain ⟨errR, errW⟩ := ends
      obtain ⟨hNewErrR, hNewErrW, hErr, hOwnsErr⟩ := hOwnsStdin.pipe .errPipe hErrPipe
      have hOpens := Table.Opens.of_allows hStdinPipe hErrPipe
      have hOwnsPiped : Owns (k.piped stdinR stdinW errR errW)
          (held ∪ {.fd stdinR, .fd stdinW} ∪ {.fd errR, .fd errW}) :=
        hOwnsErr.setCloseOnExec errW (by simp)
      rintro ⟨⟩ - forked hFork
      change (k.piped stdinR stdinW errR errW).allows _ _ = true at hFork
      cases forked with
      | error e =>
        rintro ⟨⟩ - ⟨⟩ - ⟨⟩ - ⟨⟩ -
        have hQuiet : Owns (host.after (k.piped stdinR stdinW errR errW)
            (.fork (.ofSpawn argv stdinR stdinW errR errW)) (.error e)) _ :=
          hOwnsPiped.quiet rfl rfl rfl rfl
        have hClosed := (((hQuiet.close stdinR (by simp)).close stdinW (by simp [hStdin.ne'])).close
          errR (by simp [hOpens.errR_ne])).close errW (by simp [hOpens.errW_ne, hErr.ne'])
        rw [sdiff_pairs hNewStdinR hNewStdinW hNewErrR hNewErrW] at hClosed
        refine .failed _ _ (Calm.of_eq hClosed ?_ rfl rfl hTwo)
        change Function.update (Function.update (Function.update (Function.update
          (k.piped stdinR stdinW errR errW).table stdinR none) stdinW none) errR none) errW none = _
        rw [Kernel.piped_table]
        exact hOpens.closed_all
      | ok pid =>
        obtain ⟨hNewPid, hOwnsForked⟩ := hOwnsPiped.fork _ hFork
        obtain ⟨hPosPid, hFreePid⟩ := allows_fork hFork
        change k.children pid = none at hFreePid
        rintro ⟨⟩ - ⟨⟩ - status - ⟨⟩ -
        have hOwns := (((hOwnsForked.close stdinR (by simp)).close errW
          (by simp [hOpens.errW_ne])).read errR (by simp [hOpens.errR_ne, hErr.ne]) status).close errR
          (by simp [hOpens.errR_ne, hErr.ne])
        rw [sdiff_spawned hNewStdinR (by simp [hStdin.ne]) hNewErrR hNewErrW hNewPid] at hOwns
        cases status with
        | some childErrno =>
          rintro ⟨⟩ - ⟨⟩ -
          have hClosed := (hOwns.waitpid pid (by simp)).close stdinW (by simp)
          rw [sdiff_pair (by grind) hNewStdinW] at hClosed
          refine .failed _ _ (Calm.of_eq hClosed ?_ ?_ hStarting.symm hTwo)
          · change Function.update (Function.update (Function.update (Function.update
              (k.piped stdinR stdinW errR errW).table stdinR none) errW none) errR none) stdinW none
              = _
            rw [Kernel.piped_table, hOpens.closed, Function.update_idem]
            exact Function.update_eq_self_iff.mpr hOpens.freeStdin.2.symm
          · change Function.update (Function.update (Function.update k.children pid _) pid _) pid
              none = _
            rw [Function.update_idem, Function.update_idem]
            exact Function.update_eq_self_iff.mpr hFreePid.symm
        | none =>
          refine .spawned _ _ ⟨hOwns, hOpens.freeStdin.2, Nat.zero_lt_of_lt hStdin, hFreePid,
            hPosPid, Kernel.spawned_table hOpens argv pid,
            ⟨_, hOpens.exec argv, Kernel.spawned_children argv pid⟩, rfl, hMore⟩

end OpenMso.Cpp.Plugins
