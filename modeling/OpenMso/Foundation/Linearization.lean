import Mathlib.Data.List.Infix

/-! # Sequential histories of concurrent logs

A log, the newest entry first, tells what several threads did. An operation
that has ended takes effect at the last place that its entries leave for it;
other effects stand where they are. Read in that order, the log is the history
of a machine that does one thing after another.
-/

namespace OpenMso.Foundation

set_option autoImplicit false

/-- What an entry is to the history of its log. -/
inductive Role (Operation Label : Type) where
  /-- The operation ends here. -/
  | ends (operation : Operation)
  /-- An effect of its own. -/
  | alone (label : Label)
  /-- A place where an operation can take effect. -/
  | point
  | silent

structure Reading (Entry Operation Label : Type) where
  /-- The role of an entry after the log before it. -/
  role : Entry → List Entry → Role Operation Label
  label : Operation → Label

/-- What a machine can go through, the newest step first. -/
inductive Traces {Phase Label : Type} (step : Phase → Label → Phase → Prop) (start : Phase) :
    List Label → Phase → Prop
  | start : Traces step start [] start
  | step (label : Label) (labels : List Label) (p q : Phase) (h : Traces step start labels p)
      (hStep : step p label q) : Traces step start (label :: labels) q

namespace Reading

variable {Entry Operation Label Phase : Type} (reading : Reading Entry Operation Label)

/-- `due` has ended and is still to take effect. -/
def historyFrom : Option Operation → List Entry → List Label
  | _, [] => []
  | due, entry :: log =>
    match reading.role entry log, due with
    | .ends operation, _ => historyFrom (some operation) log
    | .alone label, due => label :: historyFrom due log
    | .point, some operation => reading.label operation :: historyFrom none log
    | .point, none => historyFrom none log
    | .silent, due => historyFrom due log

def history (log : List Entry) : List Label := reading.historyFrom none log

/-- The operations that have ended, the newest first. -/
def ended : List Entry → List Operation
  | [] => []
  | entry :: log =>
    match reading.role entry log with
    | .ends operation => operation :: ended log
    | _ => ended log

def effects : List Entry → List Label
  | [] => []
  | entry :: log =>
    match reading.role entry log with
    | .alone label => label :: effects log
    | _ => effects log

section
variable {reading} {entry : Entry} {log : List Entry} {due : Option Operation}

theorem historyFrom_of_ends {operation : Operation} (h : reading.role entry log = .ends operation) :
    reading.historyFrom due (entry :: log) = reading.historyFrom (some operation) log := by
  simp only [historyFrom, h]

theorem historyFrom_of_alone {label : Label} (h : reading.role entry log = .alone label) :
    reading.historyFrom due (entry :: log) = label :: reading.historyFrom due log := by
  simp only [historyFrom, h]

theorem historyFrom_of_point {operation : Operation} (h : reading.role entry log = .point) :
    reading.historyFrom (some operation) (entry :: log) =
      reading.label operation :: reading.historyFrom none log := by
  simp only [historyFrom, h]

theorem historyFrom_of_pass (h : reading.role entry log = .point) :
    reading.historyFrom none (entry :: log) = reading.historyFrom none log := by
  simp only [historyFrom, h]

theorem historyFrom_of_silent (h : reading.role entry log = .silent) :
    reading.historyFrom due (entry :: log) = reading.historyFrom due log := by
  simp only [historyFrom, h]

end

/-- Logs that a machine explains. `Fits` says which logs may come before an operation that is
still to take effect, and `At` in which phase the machine is then. -/
structure Simulates (step : Phase → Label → Phase → Prop) (start : Phase)
    (Fits : Option Operation → List Entry → Prop)
    (At : Option Operation → List Entry → Phase → Prop) : Prop where
  start : At none [] start
  begun : ∀ operation, ¬ Fits (some operation) []
  ends : ∀ {entry log operation due}, reading.role entry log = .ends operation →
    Fits due (entry :: log) → due = none ∧ Fits (some operation) log ∧
      ∀ p, At (some operation) log p → At none (entry :: log) p
  alone : ∀ {entry log label due}, reading.role entry log = .alone label →
    Fits due (entry :: log) → Fits due log ∧
      ∀ p, At due log p → ∃ q, step p label q ∧ At due (entry :: log) q
  point : ∀ {entry log operation}, reading.role entry log = .point →
    Fits (some operation) (entry :: log) → Fits none log ∧
      ∀ p, At none log p → ∃ q, step p (reading.label operation) q ∧
        At (some operation) (entry :: log) q
  pass : ∀ {entry log}, reading.role entry log = .point → Fits none (entry :: log) →
    Fits none log ∧ ∀ p, At none log p → At none (entry :: log) p
  silent : ∀ {entry log due}, reading.role entry log = .silent → Fits due (entry :: log) →
    Fits due log ∧ ∀ p, At due log p → At due (entry :: log) p

namespace Simulates

variable {reading} {step : Phase → Label → Phase → Prop} {start : Phase}
  {Fits : Option Operation → List Entry → Prop} {At : Option Operation → List Entry → Phase → Prop}
  (h : reading.Simulates step start Fits At)
include h

/-- The history of a log is one that the machine goes through. -/
theorem traces {due : Option Operation} {log : List Entry} (hFits : Fits due log) :
    ∃ p, Traces step start (reading.historyFrom due log) p ∧ At due log p := by
  induction log generalizing due with
  | nil =>
    cases due with
    | none => exact ⟨start, .start, h.start⟩
    | some operation => exact absurd hFits (h.begun operation)
  | cons entry log ih =>
    cases hRole : reading.role entry log with
    | ends operation =>
      obtain ⟨rfl, hBefore, hNext⟩ := h.ends hRole hFits
      obtain ⟨p, hTraces, hAt⟩ := ih hBefore
      rw [historyFrom_of_ends hRole]
      exact ⟨p, hTraces, hNext p hAt⟩
    | alone label =>
      obtain ⟨hBefore, hNext⟩ := h.alone hRole hFits
      obtain ⟨p, hTraces, hAt⟩ := ih hBefore
      obtain ⟨q, hStep, hAfter⟩ := hNext p hAt
      rw [historyFrom_of_alone hRole]
      exact ⟨q, .step _ _ _ _ hTraces hStep, hAfter⟩
    | point =>
      cases due with
      | none =>
        obtain ⟨hBefore, hNext⟩ := h.pass hRole hFits
        obtain ⟨p, hTraces, hAt⟩ := ih hBefore
        rw [historyFrom_of_pass hRole]
        exact ⟨p, hTraces, hNext p hAt⟩
      | some operation =>
        obtain ⟨hBefore, hNext⟩ := h.point hRole hFits
        obtain ⟨p, hTraces, hAt⟩ := ih hBefore
        obtain ⟨q, hStep, hAfter⟩ := hNext p hAt
        rw [historyFrom_of_point hRole]
        exact ⟨q, .step _ _ _ _ hTraces hStep, hAfter⟩
    | silent =>
      obtain ⟨hBefore, hNext⟩ := h.silent hRole hFits
      obtain ⟨p, hTraces, hAt⟩ := ih hBefore
      rw [historyFrom_of_silent hRole]
      exact ⟨p, hTraces, hNext p hAt⟩

/-- What has gone before is the older part of the history. -/
theorem exists_later {due : Option Operation} {newer older : List Entry}
    (hFits : Fits due (newer ++ older)) : ∃ due' later, Fits due' older ∧
      reading.historyFrom due (newer ++ older) = later ++ reading.historyFrom due' older := by
  induction newer generalizing due with
  | nil => exact ⟨due, [], hFits, rfl⟩
  | cons entry newer ih =>
    rw [List.cons_append] at hFits ⊢
    cases hRole : reading.role entry (newer ++ older) with
    | ends operation =>
      rw [historyFrom_of_ends hRole]
      exact ih (h.ends hRole hFits).2.1
    | alone label =>
      obtain ⟨due', later, hOlder, hEq⟩ := ih (h.alone hRole hFits).1
      rw [historyFrom_of_alone hRole, hEq]
      exact ⟨due', label :: later, hOlder, rfl⟩
    | point =>
      cases due with
      | none =>
        rw [historyFrom_of_pass hRole]
        exact ih (h.pass hRole hFits).1
      | some operation =>
        obtain ⟨due', later, hOlder, hEq⟩ := ih (h.point hRole hFits).1
        rw [historyFrom_of_point hRole, hEq]
        exact ⟨due', reading.label operation :: later, hOlder, rfl⟩
    | silent =>
      rw [historyFrom_of_silent hRole]
      exact ih (h.silent hRole hFits).1

/-- Each operation that has ended is in the history once, in the order in which they ended. -/
theorem filter_operations {isOperation : Label → Bool}
    (hOperation : ∀ operation, isOperation (reading.label operation) = true)
    (hAlone : ∀ {entry log label}, reading.role entry log = .alone label → isOperation label = false)
    {due : Option Operation} {log : List Entry} (hFits : Fits due log) :
    (reading.historyFrom due log).filter isOperation =
      (due.toList ++ reading.ended log).map reading.label := by
  induction log generalizing due with
  | nil =>
    cases due with
    | none => rfl
    | some operation => exact absurd hFits (h.begun operation)
  | cons entry log ih =>
    cases hRole : reading.role entry log with
    | ends operation =>
      obtain ⟨rfl, hBefore, -⟩ := h.ends hRole hFits
      rw [historyFrom_of_ends hRole, ih hBefore, ended, hRole]
      rfl
    | alone label =>
      rw [historyFrom_of_alone hRole, List.filter_cons_of_neg (by simp [hAlone hRole]),
        ih (h.alone hRole hFits).1, ended, hRole]
    | point =>
      cases due with
      | none => rw [historyFrom_of_pass hRole, ih (h.pass hRole hFits).1, ended, hRole]
      | some operation =>
        rw [historyFrom_of_point hRole, List.filter_cons_of_pos (hOperation operation),
          ih (h.point hRole hFits).1, ended, hRole]
        rfl
    | silent => rw [historyFrom_of_silent hRole, ih (h.silent hRole hFits).1, ended, hRole]

omit h in
/-- The other effects keep their order too. -/
theorem filter_effects {isOperation : Label → Bool}
    (hOperation : ∀ operation, isOperation (reading.label operation) = true)
    (hAlone : ∀ {entry log label}, reading.role entry log = .alone label → isOperation label = false)
    (due : Option Operation) (log : List Entry) :
    (reading.historyFrom due log).filter (fun label => !isOperation label) =
      reading.effects log := by
  induction log generalizing due with
  | nil => rfl
  | cons entry log ih =>
    cases hRole : reading.role entry log with
    | ends operation => rw [historyFrom_of_ends hRole, ih, effects, hRole]
    | alone label =>
      rw [historyFrom_of_alone hRole, List.filter_cons_of_pos (by simp [hAlone hRole]), ih,
        effects, hRole]
    | point =>
      cases due with
      | none => rw [historyFrom_of_pass hRole, ih, effects, hRole]
      | some operation =>
        rw [historyFrom_of_point hRole, List.filter_cons_of_neg (by simp [hOperation operation]),
          ih, effects, hRole]
    | silent => rw [historyFrom_of_silent hRole, ih, effects, hRole]

end Simulates

end Reading

end OpenMso.Foundation
