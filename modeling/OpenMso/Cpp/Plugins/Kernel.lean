import Mathlib.Logic.Function.Basic
import OpenMso.Error
import OpenMso.Foundation.Host
import OpenMso.Foundation.Ownership
import OpenMso.Transport.Paths

/-! # What a frontend asks of the system

The descriptor table of the frontend, the plugins it has forked with tables of
their own, and its nng sockets. Only the frontend forks, and it has one thread
besides those of nng, which open and close descriptors of their own while nng
is called and between two operations of a client.
-/

namespace OpenMso.Cpp.Plugins

open Foundation OpenMso.Transport

set_option autoImplicit false

/-- The array that a call of `pipe` fills. -/
inductive Pipe where
  | stdinPipe
  | errPipe
  deriving DecidableEq, Repr

inductive File where
  | other
  | readEnd (pipe : Pipe) (id : Nat)
  | writeEnd (pipe : Pipe) (id : Nat)
  deriving DecidableEq, Repr

theorem File.readEnd_ne_other (pipe : Pipe) (id : Nat) : File.readEnd pipe id ≠ .other := by
  intro h
  cases h

theorem File.writeEnd_ne_other (pipe : Pipe) (id : Nat) : File.writeEnd pipe id ≠ .other := by
  intro h
  cases h

structure Descriptor where
  file : File
  closeOnExec : Bool
  deriving DecidableEq, Repr

abbrev Table := Nat → Option Descriptor

/-- What a child does with descriptors of its own. -/
inductive ChildCall where
  | close (fd : Nat)
  | dup2 (fd newFd : Nat)
  | opens (fd : Nat) (closeOnExec : Bool)
  deriving DecidableEq, Repr

/-- What nng does with descriptors of its own, and the rest of the frontend with its own. -/
inductive OtherCall where
  | opens (fd : Nat) (closeOnExec : Bool)
  | closes (fd : Nat)
  deriving DecidableEq, Repr

/-- What the child does when `fork` has returned 0: these calls, then `execvp`, and if that
fails it writes `errno` to `status` and exits. -/
structure Child where
  calls : List ChildCall
  argv : List String
  status : Nat
  deriving DecidableEq, Repr

inductive Protocol where
  | req0
  | rep0
  | push0
  | pull0
  deriving DecidableEq, Repr

inductive SocketOption where
  | recvMaxSize (size : Nat)
  | sendTimeout (ms : Int)
  | reqResendTime (ms : Int)
  | recvTimeout (ms : Int)
  deriving DecidableEq, Repr

inductive Op where
  | file (op : FileOp)
  | pipe (pipe : Pipe)
  /-- `fcntl` with `FD_CLOEXEC`. -/
  | setCloseOnExec (fd : Nat)
  | close (fd : Nat)
  | fork (child : Child)
  /-- All of the status that a child writes, or the end of the file. -/
  | read (fd : Nat)
  /-- With `SIGKILL`. -/
  | kill (pid : Nat)
  | waitpid (pid : Nat)
  | nngOpen (protocol : Protocol)
  | nngSet (socket : Nat) (option : SocketOption)
  | nngSend (socket : Nat) (bytes : List UInt8)
  | nngRecv (socket : Nat)
  | nngClose (socket : Nat)
  | nngListenerCreate (socket : Nat) (url : String)
  | nngListenerSetPermissions (listener : Nat) (mode : UInt32)
  | nngListenerStart (listener : Nat)
  | nngListenerClose (listener : Nat)

abbrev Op.Answer : Op → Type
  | .file _ => Except Errno Unit
  | .pipe _ => Except Errno (Nat × Nat)
  | .fork _ => Except Errno Nat
  | .read _ => Option Errno
  | .nngOpen _ | .nngListenerCreate _ _ => Except NngError Nat
  | .nngSet _ _ | .nngSend _ _ | .nngListenerSetPermissions _ _ | .nngListenerStart _ =>
    Except NngError Unit
  | .nngRecv _ => Except NngError (List UInt8)
  | _ => Unit

def Op.isNng : Op → Bool
  | .nngOpen _ | .nngSet _ _ | .nngSend _ _ | .nngRecv _ | .nngClose _ | .nngListenerCreate _ _
  | .nngListenerSetPermissions _ _ | .nngListenerStart _ | .nngListenerClose _ => true
  | _ => false

abbrev Event := (op : Op) × op.Answer

/-- A child of the frontend that has not been waited for. -/
structure Process where
  table : Table
  status : Nat
  argv : List String
  exited : Bool

structure Kernel where
  table : Table
  children : Nat → Option Process
  /-- The child that has not come to the end of its `execvp`. -/
  starting : Option Nat
  sockets : Finset Nat
  /-- How many pipes there have been. -/
  pipes : Nat
  /-- What nng does in the `n`th operation, if that is a call of one of its functions. -/
  others : Nat → List OtherCall
  log : List Event

/-- A frontend that has launched no plugin yet. Of the descriptors it has, the flag says
whether they are closed on exec. -/
def Kernel.initial (opened : Nat → Option Bool) (sockets : Finset Nat)
    (others : Nat → List OtherCall) : Kernel where
  table fd := (opened fd).map fun closeOnExec => ⟨.other, closeOnExec⟩
  children _ := none
  starting := none
  sockets := sockets
  pipes := 0
  others := others
  log := []

/-- A file is opened at a descriptor that is free. -/
def Table.opens (table : Table) (fd : Nat) (closeOnExec : Bool) : Table :=
  if table fd = none then Function.update table fd (some ⟨.other, closeOnExec⟩) else table

theorem Table.of_opens {table : Table} {fd opened : Nat} {closeOnExec : Bool} {descriptor : Descriptor}
    (h : table.opens opened closeOnExec fd = some descriptor) (hFile : descriptor.file ≠ .other) :
    table fd = some descriptor := by
  rw [opens] at h
  split at h
  · rw [Function.update_apply] at h
    split at h
    · cases h
      exact absurd rfl hFile
    · exact h
  · exact h

theorem Table.opens_of_some {table : Table} {fd : Nat} {descriptor : Descriptor}
    (h : table fd = some descriptor) (opened : Nat) (closeOnExec : Bool) :
    table.opens opened closeOnExec fd = some descriptor := by
  rw [opens]
  split
  · rename_i hFree
    rw [Function.update_of_ne]
    · exact h
    · rintro rfl
      rw [h] at hFree
      cases hFree
  · exact h

namespace OtherCall

/-- None but a descriptor of its own is closed. -/
def apply (table : Table) : OtherCall → Table
  | .opens fd closeOnExec => table.opens fd closeOnExec
  | .closes fd =>
    if (table fd).any (fun descriptor => descriptor.file = .other) then Function.update table fd none
    else table

theorem apply_eq_some_iff {table : Table} {call : OtherCall} {fd : Nat} {descriptor : Descriptor}
    (hFile : descriptor.file ≠ .other) :
    call.apply table fd = some descriptor ↔ table fd = some descriptor := by
  cases call with
  | opens opened closeOnExec =>
    exact ⟨fun h => Table.of_opens h hFile, fun h => Table.opens_of_some h opened closeOnExec⟩
  | closes closed =>
    rw [apply]
    split
    · rename_i hOther
      rw [Function.update_apply]
      split
      · rename_i hSame
        subst hSame
        refine iff_of_false nofun fun h => hFile ?_
        rw [h, Option.any_some] at hOther
        exact of_decide_eq_true hOther
      · exact Iff.rfl
    · exact Iff.rfl

/-- The ends of pipes are left alone. -/
theorem foldl_apply_eq_some_iff {table : Table} (calls : List OtherCall) {fd : Nat}
    {descriptor : Descriptor} (hFile : descriptor.file ≠ .other) :
    calls.foldl apply table fd = some descriptor ↔ table fd = some descriptor := by
  induction calls generalizing table with
  | nil => exact Iff.rfl
  | cons call calls ih => exact ih.trans (apply_eq_some_iff hFile)

end OtherCall

namespace ChildCall

def apply (table : Table) : ChildCall → Table
  | .close fd => Function.update table fd none
  | .dup2 fd newFd =>
    match table fd with
    | some descriptor =>
      if fd = newFd then table
      else Function.update table newFd (some { descriptor with closeOnExec := false })
    | none => table
  | .opens fd closeOnExec => table.opens fd closeOnExec

/-- A process has no end of a pipe but those it had. -/
theorem exists_of_apply {table : Table} {call : ChildCall} {fd : Nat} {descriptor : Descriptor}
    (h : call.apply table fd = some descriptor) (hFile : descriptor.file ≠ .other) :
    ∃ fd' descriptor', table fd' = some descriptor' ∧ descriptor'.file = descriptor.file := by
  cases call with
  | close closed =>
    rw [apply, Function.update_apply] at h
    split at h
    · cases h
    · exact ⟨fd, descriptor, h, rfl⟩
  | dup2 old newFd =>
    cases hSource : table old with
    | none =>
      simp only [apply, hSource] at h
      exact ⟨fd, descriptor, h, rfl⟩
    | some source =>
      simp only [apply, hSource] at h
      split at h
      · exact ⟨fd, descriptor, h, rfl⟩
      · rw [Function.update_apply] at h
        split at h
        · cases h
          exact ⟨old, source, hSource, rfl⟩
        · exact ⟨fd, descriptor, h, rfl⟩
  | opens opened closeOnExec => exact ⟨fd, descriptor, Table.of_opens h hFile, rfl⟩

end ChildCall

/-- What is left of a table after `execvp`. -/
def Table.exec (table : Table) : Table := fun fd => (table fd).filter fun d => !d.closeOnExec

namespace Process

def forked (table : Table) (child : Child) : Process where
  table := child.calls.foldl ChildCall.apply table
  status := child.status
  argv := child.argv
  exited := false

def exec (process : Process) : Process := { process with table := process.table.exec }

/-- A process that has exited does nothing more. -/
def does (process : Process) (call : ChildCall) : Process :=
  if process.exited then process else { process with table := call.apply process.table }

/-- A process that has ended, until it is waited for. -/
def ended (process : Process) : Process := { process with table := fun _ => none, exited := true }

end Process

namespace Kernel

def allows (k : Kernel) : (op : Op) → op.Answer → Bool
  | .pipe _, .ok (r, w) =>
    -- The two lowest descriptors that are free.
    (k.table r).isNone && (k.table w).isNone && decide (r < w) &&
      decide (∀ fd < w, fd ≠ r → (k.table fd).isSome)
  | .fork _, .ok pid => decide (0 < pid) && (k.children pid).isNone
  | .read _, answer =>
    match k.starting.bind k.children with
    | none => answer.isNone
    | some process =>
      -- A successful `execvp` closes the status pipe if it is to be closed then.
      match process.table process.status, answer with
      | none, none => true
      | none, some _ => false
      | some descriptor, none => descriptor.closeOnExec
      | some _, some _ => true
  | .nngOpen _, .ok socket => decide (socket ∉ k.sockets)
  | _, _ => true

def setChild (k : Kernel) (pid : Nat) (f : Process → Process) : Kernel :=
  { k with children := Function.update k.children pid ((k.children pid).map f) }

/-- The child that was starting runs, or has written what stopped it and ended. -/
def resume (k : Kernel) (status : Option Errno) : Kernel :=
  match k.starting with
  | none => k
  | some pid =>
    { k.setChild pid fun process => if status.isSome then process.ended else process.exec with
      starting := none }

def effect (k : Kernel) : (op : Op) → op.Answer → Kernel
  | .pipe pipe, .ok (r, w) =>
    { k with
      table := Function.update (Function.update k.table r (some ⟨.readEnd pipe k.pipes, false⟩)) w
        (some ⟨.writeEnd pipe k.pipes, false⟩)
      pipes := k.pipes + 1 }
  | .setCloseOnExec fd, () =>
    { k with
      table := Function.update k.table fd
        ((k.table fd).map fun descriptor => { descriptor with closeOnExec := true }) }
  | .close fd, () => { k with table := Function.update k.table fd none }
  | .fork child, .ok pid =>
    { k with
      children := Function.update k.children pid (some (.forked k.table child))
      starting := some pid }
  | .read _, answer => k.resume answer
  | .kill pid, () => k.setChild pid Process.ended
  | .waitpid pid, () => { k with children := Function.update k.children pid none }
  | .nngOpen _, .ok socket => { k with sockets := insert socket k.sockets }
  | .nngClose socket, () => { k with sockets := k.sockets.erase socket }
  | _, _ => k

/-- What others do with their descriptors. -/
def beside (k : Kernel) (calls : List OtherCall) : Kernel :=
  { k with table := calls.foldl OtherCall.apply k.table }

/-- While one of its functions runs, nng opens and closes what it needs. -/
def passes (k : Kernel) (op : Op) : Kernel := bif op.isNng then k.beside (k.others k.log.length) else k

theorem passes_children (k : Kernel) (op : Op) : (k.passes op).children = k.children := by
  unfold passes
  cases op.isNng <;> rfl

theorem passes_starting (k : Kernel) (op : Op) : (k.passes op).starting = k.starting := by
  unfold passes
  cases op.isNng <;> rfl

theorem passes_pipes (k : Kernel) (op : Op) : (k.passes op).pipes = k.pipes := by
  unfold passes
  cases op.isNng <;> rfl

theorem passes_table_eq_some_iff (k : Kernel) (op : Op) {fd : Nat} {descriptor : Descriptor}
    (hFile : descriptor.file ≠ .other) :
    (k.passes op).table fd = some descriptor ↔ k.table fd = some descriptor := by
  unfold passes
  cases op.isNng with
  | true => exact OtherCall.foldl_apply_eq_some_iff _ hFile
  | false => exact Iff.rfl

end Kernel

def host : Host Op Op.Answer Kernel where
  allows := Kernel.allows
  after k op answer := { (k.effect op answer).passes op with log := k.log ++ [⟨op, answer⟩] }

inductive Resource where
  | fd (fd : Nat)
  | pid (pid : Nat)
  | socket (socket : Nat)
  deriving DecidableEq, Repr

/-- A pid is used by a signal; `waitpid` releases it. -/
def discipline : Discipline Op Op.Answer Resource where
  uses
    | .setCloseOnExec fd | .read fd => {.fd fd}
    | .kill pid => {.pid pid}
    | _ => ∅
  releases
    | .close fd => {.fd fd}
    | .waitpid pid => {.pid pid}
    | .nngClose socket => {.socket socket}
    | _ => ∅
  acquires
    | .pipe _, .ok (r, w) => {.fd r, .fd w}
    | .fork _, .ok pid => {.pid pid}
    | .nngOpen _, .ok socket => {.socket socket}
    | _, _ => ∅

end OpenMso.Cpp.Plugins
