import Mathlib.Data.Finset.Basic
import Mathlib.Data.Finset.Disjoint
import Mathlib.Logic.Function.Basic

/-! # Resources that are acquired and released

Of each operation a discipline says which resources it must find held, which
of them it releases, and which its answer hands over. A log in which every
operation finds what it needs, and is handed nothing that is held already,
acquires and releases each resource in turn.
-/

namespace OpenMso.Foundation

set_option autoImplicit false

structure Discipline (Op : Type) (Answer : Op → Type) (Resource : Type) where
  uses : Op → Finset Resource
  releases : Op → Finset Resource
  acquires : (op : Op) → Answer op → Finset Resource

namespace Discipline

variable {Op : Type} {Answer : Op → Type} {Resource : Type} [DecidableEq Resource]
  (d : Discipline Op Answer Resource)

/-- What is held after an operation. -/
def next (held : Finset Resource) (event : (op : Op) × Answer op) : Finset Resource :=
  held \ d.releases event.1 ∪ d.acquires event.1 event.2

/-- What is held at the end of a log, oldest entry first. -/
def held (log : List ((op : Op) × Answer op)) : Finset Resource := log.foldl d.next ∅

/-- The operation finds what it needs, and its answer hands over nothing that is held. -/
def Fits (held : Finset Resource) (event : (op : Op) × Answer op) : Prop :=
  d.uses event.1 ∪ d.releases event.1 ⊆ held ∧ Disjoint (d.acquires event.1 event.2) held

def Orderly (log : List ((op : Op) × Answer op)) : Prop :=
  ∀ before event after, log = before ++ event :: after → d.Fits (d.held before) event

def acquisitions (log : List ((op : Op) × Answer op)) (r : Resource) : Nat :=
  log.countP fun event => r ∈ d.acquires event.1 event.2

def releasings (log : List ((op : Op) × Answer op)) (r : Resource) : Nat :=
  log.countP fun event => r ∈ d.releases event.1

variable {d}

theorem held_concat (log : List ((op : Op) × Answer op)) (event : (op : Op) × Answer op) :
    d.held (log ++ [event]) = d.next (d.held log) event := by
  rw [held, held, List.foldl_concat]

theorem orderly_nil : d.Orderly [] := by
  intro before event after h
  cases before <;> cases h

theorem Orderly.concat {log : List ((op : Op) × Answer op)} (h : d.Orderly log)
    {event : (op : Op) × Answer op} (hFits : d.Fits (d.held log) event) :
    d.Orderly (log ++ [event]) := by
  intro before other after hSplit
  obtain rfl | ⟨after', last, rfl⟩ := List.eq_nil_or_concat after
  · obtain ⟨rfl, hEvent⟩ := List.append_inj' hSplit rfl
    cases hEvent
    exact hFits
  · rw [List.concat_eq_append, ← List.cons_append, ← List.append_assoc] at hSplit
    exact h before other after' (List.append_inj' hSplit rfl).1

theorem Orderly.of_concat {log : List ((op : Op) × Answer op)} {event : (op : Op) × Answer op}
    (h : d.Orderly (log ++ [event])) : d.Orderly log ∧ d.Fits (d.held log) event := by
  refine ⟨fun before other after hSplit => ?_, h log event [] rfl⟩
  exact h before other (after ++ [event]) (by rw [hSplit, List.append_assoc, List.cons_append])

/-- Each resource has been released as often as it was acquired, but for what is still held. -/
theorem Orderly.acquisitions_eq {log : List ((op : Op) × Answer op)} (h : d.Orderly log)
    (r : Resource) :
    d.acquisitions log r = d.releasings log r + if r ∈ d.held log then 1 else 0 := by
  induction log using List.reverseRecOn with
  | nil => rfl
  | append_singleton log event ih =>
    obtain ⟨hLog, hNeeds, hNew⟩ := h.of_concat
    specialize ih hLog
    have hReleases : r ∈ d.releases event.1 → r ∈ d.held log :=
      fun hr => hNeeds (Finset.mem_union_right _ hr)
    have hAcquires : r ∈ d.acquires event.1 event.2 → r ∉ d.held log :=
      fun hr => Finset.disjoint_left.mp hNew hr
    rw [acquisitions, releasings] at ih ⊢
    rw [List.countP_append, List.countP_append, List.countP_singleton, List.countP_singleton,
      held_concat, next]
    simp only [Finset.mem_union, Finset.mem_sdiff, decide_eq_true_eq]
    grind

end Discipline

/-! ## Owners -/

/-- What is held is shared out among owners, each resource to one. -/
structure Shared {ι Resource : Type} (held : Finset Resource) (own : ι → Finset Resource) :
    Prop where
  mem_held : ∀ r, r ∈ held ↔ ∃ i, r ∈ own i
  unique : ∀ i j r, r ∈ own i → r ∈ own j → i = j

namespace Shared

variable {ι Resource : Type} {held : Finset Resource} {own : ι → Finset Resource}

theorem empty : Shared ∅ fun _ : ι => (∅ : Finset Resource) := by
  constructor <;> simp

theorem subset (h : Shared held own) (i : ι) : own i ⊆ held :=
  fun r hr => (h.mem_held r).mpr ⟨i, hr⟩

theorem held_eq_empty (h : Shared held own) (hNone : ∀ i, own i = ∅) : held = ∅ := by
  refine Finset.eq_empty_of_forall_notMem fun r hr => ?_
  obtain ⟨i, hOwn⟩ := (h.mem_held r).mp hr
  exact Finset.notMem_empty r (hNone i ▸ hOwn)

section
variable [DecidableEq ι] [DecidableEq Resource]

theorem yield (h : Shared held own) {i : ι} {kept : Finset Resource} (hKept : kept ⊆ own i) :
    Shared (held \ (own i \ kept)) (Function.update own i kept) := by
  obtain ⟨hMem, hUnique⟩ := h
  constructor
  · intro r
    simp only [Finset.mem_sdiff, hMem r, Function.update_apply]
    grind
  · intro j j' r hOwn hOwn'
    simp only [Function.update_apply] at hOwn hOwn'
    grind

theorem acquire (h : Shared held own) {i : ι} (hNone : own i = ∅) {new : Finset Resource}
    (hNew : Disjoint new held) : Shared (held ∪ new) (Function.update own i new) := by
  obtain ⟨hMem, hUnique⟩ := h
  have hFresh : ∀ r ∈ new, r ∉ held := fun r hr => Finset.disjoint_left.mp hNew hr
  constructor
  · intro r
    simp only [Finset.mem_union, hMem r, Function.update_apply]
    grind
  · intro j j' r hOwn hOwn'
    simp only [Function.update_apply] at hOwn hOwn'
    grind

omit [DecidableEq Resource] in
theorem pass (h : Shared held own) {i j : ι} (hNone : own i = ∅) :
    Shared held (Function.update (Function.update own i (own j)) j ∅) := by
  obtain ⟨hMem, hUnique⟩ := h
  constructor
  · intro r
    simp only [hMem r, Function.update_apply]
    grind
  · intro l l' r hOwn hOwn'
    simp only [Function.update_apply] at hOwn hOwn'
    grind

end

end Shared

end OpenMso.Foundation
