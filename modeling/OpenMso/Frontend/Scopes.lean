import OpenMso.Foundation.Host
import OpenMso.Frontend.CaptureClient

/-! # What the client's code owns

Each piece of code is safe on its own: it uses handles and a child that it has,
and leaves by an error with what it was given.
-/

namespace OpenMso.Frontend

open Foundation OpenMso.Transport
open Foundation.Discipline Foundation.Program
open OpenMso.Client (Call Codec)

set_option autoImplicit false

/-- What a child's end would give back: its pid until it was waited for, and the pipe. -/
def Child.own (child : Child) : Finset Resource :=
  (if child.reaped then ∅ else {.pid child.pid}) ∪ child.stdin.elim ∅ fun fd => {.fd fd}

def CaptureClient.handles (client : CaptureClient) : Finset Resource :=
  {.handle client.control, .handle client.events}

def CaptureClient.own (client : CaptureClient) : Finset Resource :=
  client.child.own ∪ client.handles

/-! ## Code that hands nothing over -/

section
variable {own : Finset Resource}

/-- Asked for, the operation changes nothing of what is owned. -/
def Asks (own : Finset Resource) (op : Op) : Prop :=
  discipline.IsQuiet op ∧ discipline.uses op ⊆ own

theorem finishes_ask {op : Op} (h : Asks own op) :
    Finishes (Asks own) (fun _ => True) (ask op).run :=
  .ask op _ h fun _ => .done _ trivial

theorem finishes_check {α : Type} (answer : Except NngError α) :
    Finishes (Asks own) (fun _ => True) (check answer).run := by
  cases answer <;> exact .done _ trivial

theorem finishes_dropping {α : Type} {drop : Asking Unit} {code : Throwing α}
    (hDrop : Finishes (Asks own) (fun _ => True) drop)
    (h : Finishes (Asks own) (fun _ => True) code.run) :
    Finishes (Asks own) (fun _ => True) (dropping drop code).run := by
  refine Finishes.bind h fun result _ => ?_
  cases result with
  | ok a => exact .done _ trivial
  | error e =>
    exact .bindExcept (hDrop.bind fun _ _ => .done _ trivial) fun _ => .done _ trivial

theorem finishes_onFiles {α : Type} (program : Lease.Trying FileOp Errno α) :
    Finishes (Asks own) (fun _ => True) (onFiles program) :=
  program.finishes.relabel fun _ _ => ⟨⟨rfl, fun _ => rfl⟩, Finset.empty_subset own⟩

section
variable {s : Handle} (h : .handle s ∈ own)
include h

theorem asks_nngSet (option : SocketOption) : Asks own (.nngSet s option) :=
  ⟨⟨rfl, fun _ => rfl⟩, Finset.singleton_subset_iff.mpr h⟩

theorem finishes_configure (protocol : Protocol) :
    Finishes (Asks own) (fun _ => True) (configure protocol s).run := by
  refine .bindExcept (finishes_ask (asks_nngSet h _)) fun _ => .bindExcept (finishes_check _) fun _ => ?_
  refine .bindExcept (finishes_ask (asks_nngSet h _)) fun _ => .bindExcept (finishes_check _) fun _ => ?_
  split
  · exact .bindExcept (finishes_ask (asks_nngSet h _)) fun _ => finishes_check _
  · exact .done _ trivial

theorem finishes_setRecvTimeout (timeout : Option Nat) :
    Finishes (Asks own) (fun _ => True) (setRecvTimeout s timeout).run :=
  .bindExcept (finishes_ask (asks_nngSet h _)) fun _ => finishes_check _

theorem finishes_listen (url : String) :
    Finishes (Asks own) (fun _ => True) (listen s url).run := by
  have hQuiet : ∀ op, discipline.IsQuiet op → discipline.uses op = ∅ → Asks own op :=
    fun op hOp hUses => ⟨hOp, hUses ▸ Finset.empty_subset own⟩
  refine .bindExcept (finishes_ask ⟨⟨rfl, fun _ => rfl⟩, Finset.singleton_subset_iff.mpr h⟩) fun _ =>
    .bindExcept (finishes_check _) fun listener => finishes_dropping ?_ ?_
  · exact .ask _ _ (hQuiet _ ⟨rfl, fun _ => rfl⟩ rfl) fun _ => .done _ trivial
  · have hStart : Finishes (Asks own) (fun _ => True)
        (ask (.nngListenerStart listener) >>= check).run :=
      .bindExcept (finishes_ask (hQuiet _ ⟨rfl, fun _ => rfl⟩ rfl)) fun _ => finishes_check _
    split
    · refine .bindExcept (finishes_ask (hQuiet _ ⟨rfl, fun _ => rfl⟩ rfl)) fun _ => ?_
      exact .bindExcept (finishes_check _) fun _ => hStart
    · exact hStart

end

end

/-! ## The child -/

namespace Child

variable {others : Finset Resource} (child : Child)

end Child

/-! ## The client -/

namespace CaptureClient

end CaptureClient

end OpenMso.Frontend
