import Mathlib.Data.List.Infix
import OpenMso.Foundation.Runs
import OpenMso.Frontend.Scopes

/-! # A frontend at work

Each thread of a frontend works with an object of its own: a client, or an event
stream that a client gave away, which shares the client's event socket with it.
The operations of the threads interleave in any order.
-/

namespace OpenMso.Frontend

open Foundation Foundation.Runs OpenMso.Transport
open Foundation.Discipline Foundation.Program
open OpenMso.Client (Call Codec)

set_option autoImplicit false

inductive Object where
  | captureClient (client : CaptureClient)
  | eventStream (stream : EventStream)

/-- What a thread is about to do, and the object it then has. -/
abbrev Thread := Asking (Option Object)

/-- What is called on an object. -/
inductive Task (Config : Type) where
  | request (call : Call Config)
  | setRequestTimeout (timeout : Option Nat)
  | setEventTimeout (timeout : Option Nat)
  | nextEvent
  | drop

inductive Action (Config : Type) where
  | launch (thread : Nat) (setting : Setting) (argv : List String) (device : String)
  | begin (thread : Nat) (task : Task Config)
  /-- The stream goes to another thread. -/
  | eventStream (thread other : Nat) (answers : (op : Op) → op.Answer)
  /-- The next operation of a thread. -/
  | act (thread : Nat) (answers : (op : Op) → op.Answer)

structure State where
  log : List Entry
  threads : Nat → Thread

def initial : State := ⟨[], fun _ => .done none⟩

def launching (setting : Setting) (argv : List String) (device : String) : Thread := do
  match ← (CaptureClient.launch setting argv device).run with
  | .ok client => return some (.captureClient client)
  | .error _ => return none

section
variable {Config Description Event : Type} (codec : Codec Config Description)
  (decode : List UInt8 → Except String Event)

/-- The code of a task, if the object has such a method. -/
def Task.perform : Task Config → Object → Option Thread
  | .request call, .captureClient client => some do
    let (_, client) ← client.call codec call
    return some (.captureClient client)
  | .setRequestTimeout timeout, .captureClient client => some do
    let _ ← (client.setRequestTimeout timeout).run
    return some (.captureClient client)
  | .setEventTimeout timeout, .captureClient client => some do
    let _ ← (client.setEventTimeout timeout).run
    return some (.captureClient client)
  | .setEventTimeout timeout, .eventStream stream => some do
    let _ ← (stream.setTimeout timeout).run
    return some (.eventStream stream)
  | .nextEvent, .captureClient client => some do
    let _ ← (client.nextEvent decode).run
    return some (.captureClient client)
  | .nextEvent, .eventStream stream => some do
    let _ ← (stream.nextEvent decode).run
    return some (.eventStream stream)
  | .drop, .captureClient client => some do
    client.drop
    return none
  | .drop, .eventStream stream => some do
    stream.drop
    return none
  | _, .eventStream _ => none

/-- The first operation of the code, which is then the thread's. -/
def State.act (s : State) (thread : Nat) (code : Thread) (answers : (op : Op) → op.Answer) :
    Option State :=
  match code with
  | .done _ => none
  | .ask op next =>
    if allows s.log op (answers op) then
      some ⟨s.log ++ [⟨op, answers op⟩], Function.update s.threads thread (next (answers op))⟩
    else none

def step (s : State) : Action Config → Option State
  | .launch thread setting argv device =>
    match s.threads thread with
    | .done none =>
      some { s with
        threads := Function.update s.threads thread (launching setting argv device) }
    | _ => none
  | .begin thread task =>
    match s.threads thread with
    | .done (some object) =>
      (task.perform codec decode object).map fun code =>
        { s with threads := Function.update s.threads thread code }
    | _ => none
  | .eventStream thread other answers =>
    match s.threads thread, s.threads other with
    | .done (some (.captureClient client)), .done none =>
      s.act other (do return some (.eventStream (← client.eventStream))) answers
    | _, _ => none
  | .act thread answers => s.act thread (s.threads thread) answers

end

/-! ## What every thread owns -/

namespace Object

def own : Object → Finset Resource
  | .captureClient client => client.own
  | .eventStream stream => {.handle stream.socket}

/-- A client's sockets are two. -/
def Sound : Object → Prop
  | .captureClient client => client.control ≠ client.events
  | .eventStream _ => True

def events : Object → Handle
  | .captureClient client => client.events
  | .eventStream stream => stream.socket

end Object

/-- A thread that has nothing owns nothing. -/
def Has : Option Object → Finset Resource → Prop
  | none, own => own = ∅
  | some object, own => own = object.own ∧ object.Sound

section
variable {Config Description Event : Type} {codec : Codec Config Description}
  {decode : List UInt8 → Except String Event}

/-- What is held is shared out among the threads, and each is safe with its own. -/
structure Inv (s : State) : Prop where
  orderly : discipline.Orderly s.log
  balanced : ∀ before, before <+: s.log → Balanced before
  shared : ∃ own : Nat → Finset Resource, Shared (discipline.held s.log) own ∧
    ∀ thread, discipline.Safe (s.threads thread) Has (own thread)

/-- Threads that are safe stay so when one of them takes up code that is safe. -/
theorem safe_update {threads : Nat → Thread} {own : Nat → Finset Resource}
    (h : ∀ thread, discipline.Safe (threads thread) Has (own thread)) {thread : Nat} {code : Thread}
    {own' : Finset Resource} (hCode : discipline.Safe code Has own') (other : Nat) :
    discipline.Safe (Function.update threads thread code other) Has
      (Function.update own thread own' other) := by
  rcases eq_or_ne other thread with rfl | hOther
  · rw [Function.update_self, Function.update_self]
    exact hCode
  · rw [Function.update_of_ne hOther, Function.update_of_ne hOther]
    exact h other

theorem Inv.begin {s : State} (hInv : Inv s) {thread : Nat} {code : Thread}
    (h : ∀ own, discipline.Safe (s.threads thread) Has own → discipline.Safe code Has own) :
    Inv { s with threads := Function.update s.threads thread code } := by
  obtain ⟨hOrderly, hBalanced, own, hShared, hSafe⟩ := hInv
  refine ⟨hOrderly, hBalanced, own, hShared, fun other => ?_⟩
  rw [← Function.update_eq_self thread own]
  exact safe_update hSafe (h _ (hSafe thread)) other

/-- The operation uses what is there, and releases what the thread owns. -/
theorem Inv.act {s t : State} (hInv : Inv s) {thread : Nat} {op : Op} {next : op.Answer → Thread}
    {answers : (op : Op) → op.Answer}
    (h : ∀ own : Nat → Finset Resource, Shared (discipline.held s.log) own →
      (∀ thread, discipline.Safe (s.threads thread) Has (own thread)) →
        discipline.uses op ⊆ discipline.held s.log ∧ discipline.releases op ⊆ own thread ∧
          ∀ answer, Disjoint (discipline.acquires op answer) (discipline.held s.log) →
            discipline.Safe (next answer) Has (discipline.left (own thread) op answer))
    (hAct : s.act thread (.ask op next) answers = some t) : Inv t := by
  obtain ⟨hOrderly, hBalanced, own, hShared, hSafe⟩ := hInv
  obtain ⟨hUses, hReleases, hNext⟩ := h own hShared hSafe
  rw [State.act, Option.ite_none_right_eq_some] at hAct
  obtain ⟨hAllows, hThen⟩ := hAct
  cases hThen
  have hNew := of_decide_eq_true ((Bool.and_eq_true _ _).mp hAllows).1
  obtain ⟨hFits, hShared'⟩ := hShared.turn hUses hReleases hNew
  refine ⟨hOrderly.concat hFits, fun before hBefore => ?_, _, hShared',
    safe_update hSafe (hNext _ hNew)⟩
  rcases List.prefix_concat_iff.mp hBefore with rfl | hEarlier
  · exact (hBalanced s.log List.prefix_rfl).concat hFits hAllows
  · exact hBalanced before hEarlier

end

namespace Sample

def setting : Setting := ⟨⟨some "/run", none, fun _ => ""⟩, 0, 0⟩

def codec : Codec Unit Unit := ⟨fun _ => [], fun _ => .error "truncated"⟩

/-- Whatever is handed out has the number. -/
def answers (number : Nat) (last : Bool) : (op : Op) → op.Answer
  | .spawn _ => .ok (number, number)
  | .nngOpen _ | .nngListenerCreate _ _ => .ok number
  | .clone _ => number
  | .release _ => last
  | .nngRecv _ => .ok []
  | .file _ | .nngSet _ _ | .nngSend _ _ | .nngListenerSetPermissions _ _ | .nngListenerStart _ =>
    .ok ()
  | .close _ | .kill _ | .waitpid _ | .nngClose _ | .nngListenerClose _ => ()

def acts (thread number : Nat) (last : Bool) (n : Nat) : List (Action Unit) :=
  List.replicate n (.act thread (answers number last))

/-- Another thread reads the event stream while the client is dropped, and drops the stream. -/
def moves : List (Action Unit) :=
  [.launch 0 setting ["plugin"] "demo://0"] ++ acts 0 1 false 11 ++ acts 0 2 false 7 ++
    [.eventStream 0 1 (answers 1 false), .begin 1 .nextEvent, .begin 0 .drop] ++
    acts 0 0 true 5 ++ acts 0 0 false 1 ++ acts 1 0 true 1 ++ acts 0 0 true 1 ++
    [.begin 1 .drop] ++ acts 1 0 true 2

end Sample

end OpenMso.Frontend
