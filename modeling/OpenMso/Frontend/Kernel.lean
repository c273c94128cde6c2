import Mathlib.Data.Finset.Card
import Mathlib.Data.Finset.Lattice.Lemmas
import OpenMso.CommandLine
import OpenMso.Foundation.Ownership
import OpenMso.Transport

/-! # What a Rust frontend asks of the system

The operations of `std` and of nng that `client.rs` comes down to. A socket of
the `nng` crate is shared by its clones as the contents of an `Arc` are: the
clone that is released last gets hold of the socket itself, and closes it.
-/

namespace OpenMso.Frontend

open Foundation OpenMso.Transport

set_option autoImplicit false

/-- One of the clones that share a socket. -/
structure Handle where
  socket : Nat
  copy : Nat
  deriving DecidableEq, Repr

inductive Protocol where
  | req0
  | rep0
  | push0
  | pull0
  deriving DecidableEq, Repr

/-- Durations are in milliseconds. -/
inductive SocketOption where
  | recvMaxSize (size : Nat)
  | sendTimeout (timeout : Option Nat)
  | resendTime (timeout : Option Nat)
  | recvTimeout (timeout : Option Nat)
  deriving DecidableEq, Repr

inductive Op where
  | file (op : FileOp)
  /-- With a pipe for its stdin. -/
  | spawn (command : Client.Command)
  | close (fd : Nat)
  | kill (pid : Nat)
  | waitpid (pid : Nat)
  | nngOpen (protocol : Protocol)
  | clone (handle : Handle)
  /-- Was this the last one? -/
  | release (handle : Handle)
  | nngClose (socket : Nat)
  | nngSet (handle : Handle) (option : SocketOption)
  | nngSend (handle : Handle) (bytes : List UInt8)
  | nngRecv (handle : Handle)
  | nngListenerCreate (handle : Handle) (url : String)
  | nngListenerSetPermissions (listener : Nat) (mode : UInt32)
  | nngListenerStart (listener : Nat)
  | nngListenerClose (listener : Nat)

abbrev Op.Answer : Op → Type
  | .file _ => Except Errno Unit
  -- The pid, and the write end of the pipe.
  | .spawn _ => Except Errno (Nat × Nat)
  | .nngOpen _ | .nngListenerCreate _ _ => Except NngError Nat
  | .clone _ => Nat
  | .release _ => Bool
  | .nngSet _ _ | .nngSend _ _ | .nngListenerSetPermissions _ _ | .nngListenerStart _ =>
    Except NngError Unit
  | .nngRecv _ => Except NngError (List UInt8)
  | _ => Unit

abbrev Entry := (op : Op) × op.Answer

inductive Resource where
  | pid (pid : Nat)
  | fd (fd : Nat)
  | handle (handle : Handle)
  /-- A socket that no handle shares any more. -/
  | socket (socket : Nat)
  deriving DecidableEq, Repr

def discipline : Discipline Op Op.Answer Resource where
  uses
    | .kill pid => {.pid pid}
    | .clone handle | .nngSet handle _ | .nngSend handle _ | .nngRecv handle
    | .nngListenerCreate handle _ => {.handle handle}
    | _ => ∅
  releases
    | .close fd => {.fd fd}
    | .waitpid pid => {.pid pid}
    | .release handle => {.handle handle}
    | .nngClose socket => {.socket socket}
    | _ => ∅
  acquires
    | .spawn _, .ok (pid, fd) => {.pid pid, .fd fd}
    | .nngOpen _, .ok socket => {.handle ⟨socket, 0⟩}
    | .clone handle, copy => {.handle ⟨handle.socket, copy⟩}
    | .release handle, true => {.socket handle.socket}
    | _, _ => ∅

/-- What stands for a socket. -/
def Resource.isOf (socket : Nat) : Resource → Bool
  | .handle shared => shared.socket = socket
  | .socket other => other = socket
  | _ => false

theorem Resource.isOf_handle (shared : Handle) :
    (Resource.handle shared).isOf shared.socket = true := decide_eq_true rfl

theorem Resource.isOf_socket (socket : Nat) : (Resource.socket socket).isOf socket = true :=
  decide_eq_true rfl

def Resource.shares (socket : Nat) : Resource → Bool
  | .handle shared => shared.socket = socket
  | _ => false

def IsOpen (held : Finset Resource) (socket : Nat) : Prop := ∃ r ∈ held, r.isOf socket = true

instance (held : Finset Resource) (socket : Nat) : Decidable (IsOpen held socket) :=
  inferInstanceAs (Decidable (∃ r ∈ held, r.isOf socket = true))

/-- How many handles share the socket. -/
def strongCount (held : Finset Resource) (socket : Nat) : Nat :=
  (held.filter fun r => r.shares socket = true).card

/-- The system hands out nothing that it has not got back. -/
def allows (log : List Entry) (op : Op) (answer : op.Answer) : Bool :=
  decide (Disjoint (discipline.acquires op answer) (discipline.held log)) &&
    match op, answer with
    | .nngOpen _, .ok socket => decide ¬ IsOpen (discipline.held log) socket
    | .release handle, last =>
      last = decide (strongCount (discipline.held log) handle.socket = 1)
    | _, _ => true

/-! ## Opening and closing sockets -/

def Entry.opens (socket : Nat) : Entry → Bool
  | ⟨.nngOpen _, .ok other⟩ => other = socket
  | _ => false

def Entry.closes (socket : Nat) : Entry → Bool
  | ⟨.nngClose other, _⟩ => other = socket
  | _ => false

/-- Every socket was closed as often as it was opened, but for what is open; what is about to
be closed no handle shares. -/
structure Balanced (log : List Entry) : Prop where
  count : ∀ socket, log.countP (Entry.opens socket) =
    log.countP (Entry.closes socket) + if IsOpen (discipline.held log) socket then 1 else 0
  alone : ∀ shared, .handle shared ∈ discipline.held log →
    .socket shared.socket ∉ discipline.held log

theorem isOpen_iff {held : Finset Resource} {socket : Nat} : IsOpen held socket ↔
    (∃ copy, .handle ⟨socket, copy⟩ ∈ held) ∨ .socket socket ∈ held := by
  constructor
  · rintro ⟨r, hMem, hOf⟩
    cases r with
    | handle shared =>
      obtain rfl := of_decide_eq_true hOf
      exact .inl ⟨_, hMem⟩
    | socket other =>
      obtain rfl := of_decide_eq_true hOf
      exact .inr hMem
    | _ => cases hOf
  · rintro (⟨copy, hMem⟩ | hMem)
    · exact ⟨_, hMem, Resource.isOf_handle ⟨socket, copy⟩⟩
    · exact ⟨_, hMem, Resource.isOf_socket socket⟩

theorem isOpen_of_handle {held : Finset Resource} {shared : Handle} (h : .handle shared ∈ held) :
    IsOpen held shared.socket :=
  ⟨_, h, Resource.isOf_handle shared⟩

/-- The last handle of a socket is the only one. -/
theorem strongCount_eq_one_iff {held : Finset Resource} {shared : Handle}
    (h : .handle shared ∈ held) : strongCount held shared.socket = 1 ↔
      ∀ other, .handle other ∈ held → other.socket = shared.socket → other = shared := by
  have hMem : .handle shared ∈ held.filter fun r => r.shares shared.socket = true :=
    Finset.mem_filter.mpr ⟨h, decide_eq_true rfl⟩
  rw [strongCount, Finset.card_eq_one]
  constructor
  · rintro ⟨r, hOnly⟩ other hOther hSame
    have hOtherMem : .handle other ∈ held.filter fun r => r.shares shared.socket = true :=
      Finset.mem_filter.mpr ⟨hOther, decide_eq_true hSame⟩
    rw [hOnly] at hMem hOtherMem
    exact Resource.handle.inj ((Finset.mem_singleton.mp hOtherMem).trans
      (Finset.mem_singleton.mp hMem).symm)
  · intro hOnly
    refine ⟨.handle shared, Finset.eq_singleton_iff_unique_mem.mpr ⟨hMem, fun r hr => ?_⟩⟩
    obtain ⟨hHeld, hShares⟩ := Finset.mem_filter.mp hr
    cases r with
    | handle other => exact congrArg _ (hOnly other hHeld (of_decide_eq_true hShares))
    | _ => cases hShares

section
variable {log : List Entry} {event : Entry}

theorem Balanced.of_change (h : Balanced log)
    (hCount : ∀ socket,
      (if event.opens socket then 1 else 0) + (if IsOpen (discipline.held log) socket then 1 else 0) =
        (if event.closes socket then 1 else 0) +
          if IsOpen (discipline.held (log ++ [event])) socket then 1 else 0)
    (hAlone : ∀ shared, .handle shared ∈ discipline.held (log ++ [event]) →
      .socket shared.socket ∉ discipline.held (log ++ [event])) : Balanced (log ++ [event]) := by
  refine ⟨fun socket => ?_, hAlone⟩
  have hBefore := h.count socket
  have hNow := hCount socket
  rw [List.countP_append, List.countP_append, List.countP_singleton, List.countP_singleton]
  omega

/-- An operation that has nothing to do with sockets. -/
theorem Balanced.aside (h : Balanced log) (hOpens : ∀ socket, event.opens socket = false)
    (hCloses : ∀ socket, event.closes socket = false)
    (hHeld : ∀ r socket, r.isOf socket = true →
      (r ∈ discipline.held (log ++ [event]) ↔ r ∈ discipline.held log)) :
    Balanced (log ++ [event]) := by
  refine h.of_change (fun socket => ?_) fun shared hMem hSocket => ?_
  · have hOpen : IsOpen (discipline.held (log ++ [event])) socket ↔
        IsOpen (discipline.held log) socket :=
      exists_congr fun r => and_congr_left fun hOf => hHeld r socket hOf
    simp only [hOpens, hCloses, hOpen]
  · have hShared := (hHeld _ _ (Resource.isOf_handle shared)).mp hMem
    exact h.alone shared hShared ((hHeld _ _ (Resource.isOf_socket _)).mp hSocket)

end

section
variable {log : List Entry} {op : Op} {answer : op.Answer}

theorem mem_held_concat {event : Entry} {r : Resource} :
    r ∈ discipline.held (log ++ [event]) ↔
      r ∈ discipline.held log ∧ r ∉ discipline.releases event.1 ∨
        r ∈ discipline.acquires event.1 event.2 := by
  rw [Discipline.held_concat, Discipline.next, Finset.mem_union, Finset.mem_sdiff]

theorem Balanced.nngOpen (h : Balanced log) {protocol : Protocol} {socket : Nat}
    (hClosed : ¬ IsOpen (discipline.held log) socket) :
    Balanced (log ++ [⟨.nngOpen protocol, .ok socket⟩]) := by
  have hHeld : ∀ r, r ∈ discipline.held (log ++ [⟨.nngOpen protocol, .ok socket⟩]) ↔
      r ∈ discipline.held log ∨ r = .handle ⟨socket, 0⟩ := by
    intro r
    rw [mem_held_concat]
    simp [discipline]
  refine h.of_change (fun other => ?_) fun shared hMem hSocket => ?_
  · rcases eq_or_ne other socket with rfl | hOther
    · have hOpen : IsOpen (discipline.held (log ++ [⟨.nngOpen protocol, .ok other⟩])) other :=
        @isOpen_of_handle _ ⟨other, 0⟩ ((hHeld _).mpr (.inr rfl))
      simp [Entry.opens, Entry.closes, hClosed, hOpen]
    · have hSame : IsOpen (discipline.held (log ++ [⟨.nngOpen protocol, .ok socket⟩])) other ↔
          IsOpen (discipline.held log) other := by
        rw [isOpen_iff, isOpen_iff]
        simp [hHeld, hOther]
      simp [Entry.opens, Entry.closes, hSame, hOther.symm]
  · rcases (hHeld _).mp hMem with hOld | hNew
    · exact h.alone shared hOld (by simpa using (hHeld _).mp hSocket)
    · cases hNew
      exact hClosed (isOpen_iff.mpr (.inr (by simpa using (hHeld _).mp hSocket)))

theorem Balanced.clone (h : Balanced log) {shared : Handle} (copy : Nat)
    (hMem : .handle shared ∈ discipline.held log) :
    Balanced (log ++ [⟨.clone shared, copy⟩]) := by
  have hHeld : ∀ r, r ∈ discipline.held (log ++ [⟨.clone shared, copy⟩]) ↔
      r ∈ discipline.held log ∨ r = .handle ⟨shared.socket, copy⟩ := by
    intro r
    rw [mem_held_concat]
    simp [discipline]
  refine h.of_change (fun other => ?_) fun clone hClone hSocket => ?_
  · have hSame : IsOpen (discipline.held (log ++ [⟨.clone shared, copy⟩])) other ↔
        IsOpen (discipline.held log) other := by
      refine ⟨?_, fun ⟨r, hOld, hOf⟩ => ⟨r, (hHeld r).mpr (.inl hOld), hOf⟩⟩
      rintro ⟨r, hNow, hOf⟩
      rcases (hHeld r).mp hNow with hOld | rfl
      · exact ⟨r, hOld, hOf⟩
      · exact ⟨_, hMem, hOf⟩
    simp [Entry.opens, Entry.closes, hSame]
  · have hOld : .socket clone.socket ∈ discipline.held log := by simpa using (hHeld _).mp hSocket
    rcases (hHeld _).mp hClone with hBefore | hNew
    · exact h.alone clone hBefore hOld
    · cases hNew
      exact h.alone shared hMem hOld

theorem acquires_release (shared : Handle) (last : Bool) :
    discipline.acquires (.release shared) last = if last then {.socket shared.socket} else ∅ := by
  cases last <;> rfl

/-- One of several clones goes, or the last one makes way for the socket itself. -/
theorem Balanced.release (h : Balanced log) {shared : Handle} {last : Bool}
    (hMem : .handle shared ∈ discipline.held log)
    (hLast : last = true ↔ strongCount (discipline.held log) shared.socket = 1) :
    Balanced (log ++ [⟨.release shared, last⟩]) := by
  have hHeld : ∀ r, r ∈ discipline.held (log ++ [⟨.release shared, last⟩]) ↔
      r ∈ discipline.held log ∧ r ≠ .handle shared ∨ last = true ∧ r = .socket shared.socket := by
    intro r
    rw [mem_held_concat, acquires_release]
    refine or_congr (and_congr_right fun _ => not_congr Finset.mem_singleton) ?_
    cases last <;> simp
  rw [strongCount_eq_one_iff hMem] at hLast
  have hOpen : ∀ other, IsOpen (discipline.held (log ++ [⟨.release shared, last⟩])) other ↔
      IsOpen (discipline.held log) other := by
    intro other
    constructor
    · rintro ⟨r, hNow, hOf⟩
      rcases (hHeld r).mp hNow with ⟨hOld, -⟩ | ⟨-, rfl⟩
      · exact ⟨r, hOld, hOf⟩
      · exact ⟨_, hMem, hOf⟩
    · rintro ⟨r, hOld, hOf⟩
      rcases eq_or_ne r (.handle shared) with rfl | hStays
      · cases last with
        | true => exact ⟨_, (hHeld _).mpr (.inr ⟨rfl, rfl⟩), hOf⟩
        | false =>
          have hOthers := mt hLast.mpr Bool.false_ne_true
          simp only [not_forall] at hOthers
          obtain ⟨clone, hClone, hSame, hNe⟩ := hOthers
          refine ⟨_, (hHeld _).mpr (.inl ⟨hClone, fun hEq => hNe (Resource.handle.inj hEq)⟩), ?_⟩
          exact decide_eq_true (hSame.trans (of_decide_eq_true hOf))
      · exact ⟨r, (hHeld r).mpr (.inl ⟨hOld, hStays⟩), hOf⟩
  refine h.of_change (fun other => ?_) fun clone hClone hSocket => ?_
  · simp [hOpen, Entry.opens, Entry.closes]
  · rcases (hHeld _).mp hClone with ⟨hOld, hNe⟩ | ⟨-, ⟨⟩⟩
    rcases (hHeld _).mp hSocket with ⟨hBefore, -⟩ | ⟨hGone, hSame⟩
    · exact h.alone clone hOld hBefore
    · exact hNe (congrArg _ (hLast.mp hGone clone hOld (Resource.socket.inj hSame)))

theorem Balanced.nngClose (h : Balanced log) {socket : Nat}
    (hMem : .socket socket ∈ discipline.held log) :
    Balanced (log ++ [⟨.nngClose socket, ()⟩]) := by
  have hHeld : ∀ r, r ∈ discipline.held (log ++ [⟨.nngClose socket, ()⟩]) ↔
      r ∈ discipline.held log ∧ r ≠ .socket socket := by
    intro r
    rw [mem_held_concat]
    simp [discipline]
  refine h.of_change (fun other => ?_) fun shared hShared hSocket => ?_
  · rcases eq_or_ne other socket with rfl | hOther
    · have hOpen : IsOpen (discipline.held log) other := isOpen_iff.mpr (.inr hMem)
      have hClosed : ¬ IsOpen (discipline.held (log ++ [⟨.nngClose other, ()⟩])) other := by
        rw [isOpen_iff]
        rintro (⟨copy, hCopy⟩ | hStill)
        · exact h.alone ⟨other, copy⟩ ((hHeld _).mp hCopy).1 hMem
        · exact ((hHeld _).mp hStill).2 rfl
      simp [Entry.opens, Entry.closes, hOpen, hClosed]
    · have hSame : IsOpen (discipline.held (log ++ [⟨.nngClose socket, ()⟩])) other ↔
          IsOpen (discipline.held log) other := by
        rw [isOpen_iff, isOpen_iff]
        simp [hHeld, hOther]
      simp [Entry.opens, Entry.closes, hSame, hOther.symm]
  · exact h.alone shared ((hHeld _).mp hShared).1 ((hHeld _).mp hSocket).1

/-- Whatever is asked and answered as it may be. -/
theorem Balanced.concat (h : Balanced log)
    (hFits : discipline.Fits (discipline.held log) ⟨op, answer⟩)
    (hAllows : allows log op answer = true) : Balanced (log ++ [⟨op, answer⟩]) := by
  obtain ⟨hNeeds, -⟩ := hFits
  have hRule := ((Bool.and_eq_true _ _).mp hAllows).2
  have hAside : (∀ socket, Entry.opens socket ⟨op, answer⟩ = false) →
      (∀ socket, Entry.closes socket ⟨op, answer⟩ = false) →
      (∀ r socket, r.isOf socket = true →
        r ∉ discipline.releases op ∧ r ∉ discipline.acquires op answer) →
      Balanced (log ++ [⟨op, answer⟩]) := fun hOpens hCloses hOther =>
    h.aside hOpens hCloses fun r socket hOf => by
      rw [mem_held_concat]
      simp [hOther r socket hOf]
  cases op with
  | nngOpen protocol =>
    cases answer with
    | error e => exact hAside (fun _ => rfl) (fun _ => rfl) fun r socket hOf => by simp [discipline]
    | ok socket => exact h.nngOpen (of_decide_eq_true hRule)
  | clone shared => exact h.clone answer (hNeeds (by simp [discipline]))
  | release shared =>
    refine h.release (hNeeds (by simp [discipline])) ?_
    rw [show answer = _ from of_decide_eq_true hRule, decide_eq_true_eq]
  | nngClose socket => exact h.nngClose (hNeeds (by simp [discipline]))
  | spawn command =>
    cases answer with
    | error e => exact hAside (fun _ => rfl) (fun _ => rfl) fun r socket hOf => by simp [discipline]
    | ok pipe =>
      refine hAside (fun _ => rfl) (fun _ => rfl) fun r socket hOf => ?_
      cases r with
      | pid _ | fd _ => cases hOf
      | _ => simp [discipline]
  | close fd | waitpid pid =>
    refine hAside (fun _ => rfl) (fun _ => rfl) fun r socket hOf => ?_
    cases r with
    | pid _ | fd _ => cases hOf
    | _ => simp [discipline]
  | _ =>
    exact hAside (fun _ => rfl) (fun _ => rfl) fun r socket hOf =>
      ⟨Finset.notMem_empty r, Finset.notMem_empty r⟩

end

end OpenMso.Frontend
