import Mathlib.Data.Finset.Lattice.Lemmas
import OpenMso.Foundation.Ownership
import OpenMso.Foundation.Program

/-! # Programs that keep to what they own

`Safe` is a triple over what a program owns: it uses and releases nothing else,
and is handed only what it did not have. Programs that are safe on their own
may take turns in any order, and what is held stays shared out among them.
-/

namespace OpenMso.Foundation

set_option autoImplicit false

namespace Discipline

variable {Op : Type} {Answer : Op → Type} {Resource : Type} [DecidableEq Resource] {α β ε : Type}

/-- What is owned after an operation. -/
def left (d : Discipline Op Answer Resource) (own : Finset Resource) (op : Op) (answer : Answer op) :
    Finset Resource :=
  own \ d.releases op ∪ d.acquires op answer

def Safe (d : Discipline Op Answer Resource) :
    Program Op Answer α → (α → Finset Resource → Prop) → Finset Resource → Prop
  | .done a, Q, own => Q a own
  | .ask op next, Q, own => d.uses op ∪ d.releases op ⊆ own ∧
    ∀ answer, Disjoint (d.acquires op answer) own → Safe d (next answer) Q (d.left own op answer)

variable {d : Discipline Op Answer Resource} {own : Finset Resource}

theorem safe_bind {program : Program Op Answer α} {f : α → Program Op Answer β}
    {R : β → Finset Resource → Prop} :
    d.Safe (program.bind f) R own ↔ d.Safe program (fun a own' => d.Safe (f a) R own') own := by
  induction program generalizing own with
  | done a => exact .rfl
  | ask op next ih =>
    exact and_congr_right fun _ => forall_congr' fun answer => imp_congr_right fun _ => ih answer

theorem Safe.mono {program : Program Op Answer α} {Q R : α → Finset Resource → Prop}
    (h : d.Safe program Q own) (hImp : ∀ a own', Q a own' → R a own') : d.Safe program R own := by
  induction program generalizing own with
  | done a => exact hImp a own h
  | ask op next ih => exact ⟨h.1, fun answer hNew => ih answer (h.2 answer hNew)⟩

theorem Safe.bind {program : Program Op Answer α} {f : α → Program Op Answer β}
    {Q : α → Finset Resource → Prop} {R : β → Finset Resource → Prop} (h : d.Safe program Q own)
    (hNext : ∀ a own', Q a own' → d.Safe (f a) R own') : d.Safe (program.bind f) R own :=
  safe_bind.mpr (h.mono hNext)

theorem Safe.perform {op : Op} {Q : Answer op → Finset Resource → Prop}
    (hNeeds : d.uses op ∪ d.releases op ⊆ own)
    (h : ∀ answer, Disjoint (d.acquires op answer) own → Q answer (d.left own op answer)) :
    d.Safe (Program.perform op) Q own :=
  ⟨hNeeds, h⟩

/-- The operation neither hands over anything nor takes anything back. -/
def IsQuiet (d : Discipline Op Answer Resource) (op : Op) : Prop :=
  d.releases op = ∅ ∧ ∀ answer, d.acquires op answer = ∅

/-- Code that fails leaves its owner with what it had. -/
def Leaves (had : Finset Resource) (P : α → Finset Resource → Prop) :
    Except ε α → Finset Resource → Prop
  | .error _, own => own = had
  | .ok a, own => P a own

end Discipline

/-- Code that is left by an error drops what it has made so far. -/
def dropping {Op : Type} {Answer : Op → Type} {α ε : Type} (drop : Program Op Answer Unit)
    (code : ExceptT ε (Program Op Answer) α) : ExceptT ε (Program Op Answer) α :=
  tryCatch code fun e => do
    ExceptT.lift drop
    throw e

theorem Discipline.Safe.dropping {Op : Type} {Answer : Op → Type} {Resource : Type}
    [DecidableEq Resource] {α ε : Type} {d : Discipline Op Answer Resource}
    {own made had : Finset Resource} {drop : Program Op Answer Unit}
    {code : ExceptT ε (Program Op Answer) α} {P : α → Finset Resource → Prop}
    (h : d.Safe code.run (Leaves made P) own)
    (hDrop : d.Safe drop (fun _ own' => own' = had) made) :
    d.Safe (Foundation.dropping drop code).run (Leaves had P) own := by
  refine Safe.bind h fun result own' hResult => ?_
  cases result with
  | ok a => exact hResult
  | error e =>
    obtain rfl : own' = made := hResult
    exact safe_bind.mpr (safe_bind.mpr (hDrop.mono fun _ _ hHad => hHad))

/-! ## Carrying a program out -/

/-- The program with each of its operations carried out by another program, which has a state. -/
def Program.through {Op Op' σ : Type} {Answer : Op → Type} {Answer' : Op' → Type} {α : Type}
    (carry : (op : Op) → σ → Program Op' Answer' (Answer op × σ)) :
    Program Op Answer α → σ → Program Op' Answer' (α × σ)
  | .done a, s => .done (a, s)
  | .ask op next, s => (carry op s).bind fun done => (next done.1).through carry done.2

namespace Shared

variable {ι Resource : Type} [DecidableEq ι] [DecidableEq Resource] {held : Finset Resource}
  {own : ι → Finset Resource}

theorem exchange (h : Shared held own) {i : ι} {released new : Finset Resource}
    (hReleased : released ⊆ own i) (hNew : Disjoint new held) :
    Shared (held \ released ∪ new) (Function.update own i (own i \ released ∪ new)) := by
  obtain ⟨hMem, hUnique⟩ := h
  have hFresh : ∀ r ∈ new, r ∉ held := fun r hr => Finset.disjoint_left.mp hNew hr
  have hOwned : ∀ r ∈ released, r ∈ own i := fun r hr => hReleased hr
  constructor
  · intro r
    simp only [Finset.mem_union, Finset.mem_sdiff, hMem r, Function.update_apply]
    grind
  · intro j j' r hOwn hOwn'
    simp only [Function.update_apply] at hOwn hOwn'
    grind

variable {Op : Type} {Answer : Op → Type} {d : Discipline Op Answer Resource}
  {log : List ((op : Op) × Answer op)}

/-- An owner's operation may use what others have; what it releases is the owner's. -/
theorem turn (h : Shared (d.held log) own) {i : ι} {op : Op} {answer : Answer op}
    (hUses : d.uses op ⊆ d.held log) (hReleases : d.releases op ⊆ own i)
    (hNew : Disjoint (d.acquires op answer) (d.held log)) :
    d.Fits (d.held log) ⟨op, answer⟩ ∧
      Shared (d.held (log ++ [⟨op, answer⟩])) (Function.update own i (d.left (own i) op answer)) := by
  refine ⟨⟨Finset.union_subset hUses (hReleases.trans (h.subset i)), hNew⟩, ?_⟩
  rw [Discipline.held_concat]
  exact h.exchange hReleases hNew

end Shared

end OpenMso.Foundation
