/-! # What a shared cell holds, read off a history

A history lists what happened, the newest first. `write` tells which of its
entries write the cell and what; the cell holds the newest write, or its
initial value.
-/

namespace OpenMso.Foundation.Register

set_option autoImplicit false

variable {ε α : Type}

def lastWrite (write : ε → Option α) (start : α) : List ε → α
  | [] => start
  | entry :: older => (write entry).getD (lastWrite write start older)

variable {write : ε → Option α} {start : α}

@[simp] theorem lastWrite_nil : lastWrite write start [] = start := rfl

theorem lastWrite_cons_of_none {entry : ε} (older : List ε) (h : write entry = none) :
    lastWrite write start (entry :: older) = lastWrite write start older := by
  rw [lastWrite, h, Option.getD_none]

theorem lastWrite_cons_of_some {entry : ε} {value : α} (older : List ε)
    (h : write entry = some value) : lastWrite write start (entry :: older) = value := by
  rw [lastWrite, h, Option.getD_some]

theorem lastWrite_append (newer older : List ε) :
    lastWrite write start (newer ++ older) = lastWrite write (lastWrite write start older) newer := by
  induction newer with
  | nil => rfl
  | cons entry newer ih => rw [List.cons_append, lastWrite, lastWrite, ih]

/-- Entries that do not write the cell may be left out. -/
theorem lastWrite_filter {keep : ε → Bool} (h : ∀ entry, keep entry = false → write entry = none)
    (history : List ε) :
    lastWrite write start (history.filter keep) = lastWrite write start history := by
  induction history with
  | nil => rfl
  | cons entry older ih =>
    cases hKeep : keep entry with
    | true => rw [List.filter_cons_of_pos hKeep, lastWrite, lastWrite, ih]
    | false =>
      rw [List.filter_cons_of_neg (by simp [hKeep]), ih, lastWrite_cons_of_none older (h entry hKeep)]

/-- When every write is of one value, a cell that was written holds it. -/
theorem lastWrite_eq_of_forall {history : List ε} {value : α}
    (hAll : ∀ entry ∈ history, ∀ v, write entry = some v → v = value)
    (hSome : start = value ∨ ∃ entry ∈ history, write entry ≠ none) :
    lastWrite write start history = value := by
  induction history with
  | nil =>
    rcases hSome with h | ⟨entry, hMem, -⟩
    · exact h
    · cases hMem
  | cons entry older ih =>
    cases hWrite : write entry with
    | some v =>
      rw [lastWrite_cons_of_some older hWrite]
      exact hAll entry List.mem_cons_self v hWrite
    | none =>
      rw [lastWrite_cons_of_none older hWrite]
      refine ih (fun e he => hAll e (List.mem_cons_of_mem _ he)) (hSome.imp_right ?_)
      rintro ⟨other, hMem, hOther⟩
      rcases List.mem_cons.mp hMem with rfl | hMem
      · exact absurd hWrite hOther
      · exact ⟨other, hMem, hOther⟩

end OpenMso.Foundation.Register
