import OpenMso.Cpp.Error
import OpenMso.Cpp.Plugins.Owns
import OpenMso.Foundation.Text
import OpenMso.Transport

/-! # Sockets of the C++ bindings

`transport::Socket`, as far as what it opens and closes goes.
-/

namespace OpenMso.Cpp.Plugins

open Foundation Foundation.Text OpenMso.Transport

set_option autoImplicit false

abbrev Asking := Program Op Op.Answer

abbrev Throwing := ExceptT Error Asking

def ask (op : Op) : Throwing op.Answer := ExceptT.lift (Program.perform op)

/-- `nng_socket`, and whether it is to be closed. -/
structure Socket where
  socket : Nat
  isOpen : Bool
  deriving DecidableEq, Repr

/-- A socket that has not been opened. -/
def Socket.none : Socket := ⟨0, false⟩

def sendTimeoutMs : Int := 30000

section
variable (strerror : NngError → String)

/-- `Error::nng`. -/
def nngError (rv : NngError) (context : String) : Error := .nng (context ++ ": " ++ strerror rv)

/-- `check`: a failure of nng is thrown. -/
def check {α : Type} (context : String) : Except NngError α → Throwing α
  | .ok a => pure a
  | .error rv => throw (nngError strerror rv context)

namespace Socket

def close (socket : Socket) : Asking Unit :=
  if socket.isOpen then Program.perform (Op.nngClose socket.socket) else .done ()

def configure (protocol : Protocol) (socket : Nat) : Throwing Unit := do
  check strerror "set recv-size-max" (← ask (.nngSet socket (.recvMaxSize recvMaxSize)))
  check strerror "set send-timeout" (← ask (.nngSet socket (.sendTimeout sendTimeoutMs)))
  if protocol = .req0 then
    -- nng re-sends a request whose reply outlasts this timer, and the far end
    -- runs it twice. Resend buys nothing on a local socket.
    check strerror "set req:resend-time" (← ask (.nngSet socket (.reqResendTime 0)))

def construct (protocol : Protocol) : Throwing Socket := do
  let socket ← check strerror "open" (← ask (.nngOpen protocol))
  tryCatch (configure strerror protocol socket) fun e => do
    ExceptT.lift (close ⟨socket, true⟩)
    throw e
  return ⟨socket, true⟩

/-- Move assignment from another socket: what becomes of the two. -/
def moveAssign (socket other : Socket) : Asking (Socket × Socket) := do
  close socket
  return (other, { other with isOpen := false })

/-- A listener that fails is closed, and the failure thrown. -/
def closing (listener : Nat) (context : String) : Except NngError Unit → Throwing Unit
  | .ok () => pure ()
  | .error rv => do
    ask (.nngListenerClose listener)
    throw (nngError strerror rv context)

def listen (socket : Socket) (url : String) : Throwing Unit := do
  -- Not nng_listen: IPC permissions must be set before the listener starts.
  let listener ← check strerror "listener create"
    (← ask (.nngListenerCreate socket.socket (cStr url)))
  if url.startsWith "ipc://" then
    closing strerror listener "set ipc:permissions"
      (← ask (.nngListenerSetPermissions listener 0o600))
  closing strerror listener ("listen on " ++ url) (← ask (.nngListenerStart listener))

def setRecvTimeout (socket : Socket) (ms : Int) : Throwing Unit := do
  check strerror "set recv-timeout" (← ask (.nngSet socket.socket (.recvTimeout ms)))

end Socket

end

/-! ## What a socket owns -/

def Socket.own (socket : Socket) : Finset Resource :=
  if socket.isOpen then {.socket socket.socket} else ∅

/-- How code ends that is to acquire something: it has what it acquired, which is new, or it has
failed and holds what it held before. -/
inductive Obtained {α : Type} (k : Kernel) (held : Finset Resource) (own : α → Finset Resource) :
    Except Error α → Kernel → Prop
  | failed (e : Error) (k' : Kernel) (h : Calm k held k' held) : Obtained k held own (.error e) k'
  | obtained (a : α) (k' : Kernel) (hNew : Disjoint (own a) held)
      (h : Calm k held k' (held ∪ own a)) : Obtained k held own (.ok a) k'

section
open Program

variable (strerror : NngError → String)

theorem finishes_ask (op : Op) (h : op.isQuiet = true) :
    Finishes (fun op => op.isQuiet = true) (fun _ => True) (ask op).run :=
  .ask op _ h fun _ => .done _ trivial

theorem finishes_check {α : Type} (context : String) (answer : Except NngError α) :
    Finishes (fun op => op.isQuiet = true) (fun _ => True) (check strerror context answer).run := by
  cases answer <;> exact .done _ trivial

namespace Socket

theorem finishes_configure (protocol : Protocol) (socket : Nat) :
    Finishes (fun op => op.isQuiet = true) (fun _ => True)
      (configure strerror protocol socket).run := by
  refine .bindExcept (finishes_ask _ rfl) fun _ => .bindExcept (finishes_check strerror _ _) fun _ => ?_
  refine .bindExcept (finishes_ask _ rfl) fun _ => .bindExcept (finishes_check strerror _ _) fun _ => ?_
  split
  · exact .bindExcept (finishes_ask _ rfl) fun _ => finishes_check strerror _ _
  · exact .done _ trivial

theorem finishes_closing (listener : Nat) (context : String) (answer : Except NngError Unit) :
    Finishes (fun op => op.isQuiet = true) (fun _ => True)
      (closing strerror listener context answer).run := by
  cases answer with
  | ok => exact .done _ trivial
  | error rv =>
    exact .bindExcept (finishes_ask (.nngListenerClose listener) rfl) fun _ => .done _ trivial

theorem finishes_listen (socket : Socket) (url : String) :
    Finishes (fun op => op.isQuiet = true) (fun _ => True)
      (listen strerror socket url).run := by
  refine .bindExcept (finishes_ask _ rfl) fun _ => .bindExcept (finishes_check strerror _ _) fun _ => ?_
  have hStart : ∀ listener, Finishes (fun op => op.isQuiet = true) (fun _ => True)
      (ask (.nngListenerStart listener) >>= closing strerror listener ("listen on " ++ url)).run :=
    fun listener => .bindExcept (finishes_ask _ rfl) fun _ => finishes_closing strerror _ _ _
  split
  · refine .bindExcept (finishes_ask _ rfl) fun _ => ?_
    exact .bindExcept (finishes_closing strerror _ _ _) fun _ => hStart _
  · exact hStart _

theorem finishes_setRecvTimeout (socket : Socket) (ms : Int) :
    Finishes (fun op => op.isQuiet = true) (fun _ => True)
      (setRecvTimeout strerror socket ms).run :=
  .bindExcept (finishes_ask _ rfl) fun _ => finishes_check strerror _ _

end Socket

end

namespace Socket

variable {k : Kernel} {held : Finset Resource}

theorem ensures_close (h : Owns k held) (socket : Socket) (hOwn : socket.own ⊆ held) :
    host.Ensures socket.close (fun _ k' => Calm k held k' (held \ socket.own)) k := by
  unfold close own at *
  split
  · rename_i hOpen
    rw [if_pos hOpen, Finset.singleton_subset_iff] at hOwn
    exact fun _ _ => Calm.nngClose h socket.socket hOwn
  · rw [Finset.sdiff_empty]
    exact Calm.of_owns h

theorem ensures_moveAssign (h : Owns k held) (socket other : Socket) (hOwn : socket.own ⊆ held) :
    host.Ensures (socket.moveAssign other) (fun moved k' =>
      moved = (other, { other with isOpen := false }) ∧ Calm k held k' (held \ socket.own)) k :=
  (ensures_close h socket hOwn).bind fun _ _ hCalm => ⟨rfl, hCalm⟩

theorem ensures_construct (h : Owns k held) (strerror : NngError → String) (protocol : Protocol) :
    host.Ensures (construct strerror protocol).run (Obtained k held own) k := by
  intro opened hAllows
  cases opened with
  | error rv => exact .failed _ _ (Calm.quiet h rfl rfl rfl rfl)
  | ok socket =>
    obtain ⟨hNew, hOpened⟩ := Calm.nngOpen h protocol socket hAllows
    have hConfigure := ensures_calm hOpened.owns (finishes_configure strerror protocol socket)
    have hTried : host.Ensures (tryCatch (configure strerror protocol socket) fun e => do
        ExceptT.lift (close ⟨socket, true⟩)
        throw e : Throwing Unit).run (Obtained k held fun _ => {.socket socket})
        (host.after k (.nngOpen protocol) (.ok socket)) := by
      refine hConfigure.tryCatch ?_ ?_
      · rintro e k' ⟨-, hCalm⟩ - -
        have hClosed := (hOpened.trans hCalm).trans
          (Calm.nngClose hCalm.owns socket (Finset.mem_union_right held (Finset.mem_singleton_self _)))
        rw [Finset.union_sdiff_cancel_right (Finset.disjoint_singleton_right.mpr hNew)] at hClosed
        exact .failed e _ hClosed
      · rintro ⟨⟩ k' ⟨-, hCalm⟩
        exact .obtained () k' (Finset.disjoint_singleton_left.mpr hNew) (hOpened.trans hCalm)
    refine hTried.bindExcept ?_ ?_
    · intro e k' hFailed
      cases hFailed with
      | failed _ _ h => exact .failed e k' h
    · intro a k' hObtained
      cases hObtained with
      | obtained _ _ hDisjoint hCalm => exact Obtained.obtained (⟨socket, true⟩ : Socket) k' hDisjoint hCalm

end Socket

end OpenMso.Cpp.Plugins
