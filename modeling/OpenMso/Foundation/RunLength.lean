import Mathlib.Algebra.Order.BigOperators.Group.List
import Mathlib.Algebra.Order.Ring.Nat

/-! # Runs of equal values

A list of `(count, value)` pairs stands for the values repeated in order;
`runs` is the coarsest such list, cut wherever two neighbours differ.
-/

namespace OpenMso.Foundation.RunLength

set_option autoImplicit false

variable {α : Type}

def expand (runs : List (Nat × α)) : List α :=
  runs.flatMap fun run => List.replicate run.1 run.2

@[simp] theorem expand_nil : expand ([] : List (Nat × α)) = [] := rfl

@[simp] theorem expand_cons (run : Nat × α) (runs : List (Nat × α)) :
    expand (run :: runs) = List.replicate run.1 run.2 ++ expand runs := rfl

theorem length_expand (runs : List (Nat × α)) :
    (expand runs).length = (runs.map Prod.fst).sum := by
  induction runs with
  | nil => rfl
  | cons run runs ih => simp [ih]

/-- What a list of runs costs when each costs what `cost` says. -/
def total (cost : Nat × α → Nat) (runs : List (Nat × α)) : Nat := (runs.map cost).sum

theorem total_cons (cost : Nat × α → Nat) (run : Nat × α) (runs : List (Nat × α)) :
    total cost (run :: runs) = cost run + total cost runs := by
  rw [total, List.map_cons, List.sum_cons]
  rfl

theorem total_append (cost : Nat × α → Nat) (runs more : List (Nat × α)) :
    total cost (runs ++ more) = total cost runs + total cost more := by
  rw [total, List.map_append, List.sum_append]
  rfl

section
variable [DecidableEq α]

/-- The runs of `current` repeated `count` times and then `xs`. -/
def runsFrom (current : α) (count : Nat) : List α → List (Nat × α)
  | [] => [(count, current)]
  | x :: xs =>
    if x = current then runsFrom current (count + 1) xs
    else (count, current) :: runsFrom x 1 xs

def runs : List α → List (Nat × α)
  | [] => []
  | x :: xs => runsFrom x 1 xs

theorem expand_runsFrom (current : α) (count : Nat) (xs : List α) :
    expand (runsFrom current count xs) = List.replicate count current ++ xs := by
  induction xs generalizing current count with
  | nil => simp [runsFrom]
  | cons x xs ih =>
    rw [runsFrom]
    split
    · rename_i hEq
      rw [ih, hEq, List.replicate_succ', List.append_assoc, List.singleton_append]
    · rw [expand_cons, ih]
      rfl

theorem expand_runs (xs : List α) : expand (runs xs) = xs := by
  cases xs with
  | nil => rfl
  | cons x xs => exact expand_runsFrom x 1 xs

theorem pos_of_mem_runsFrom {current : α} {count : Nat} {xs : List α} {run : Nat × α}
    (hCount : 0 < count) (h : run ∈ runsFrom current count xs) : 0 < run.1 := by
  induction xs generalizing current count with
  | nil =>
    rw [runsFrom, List.mem_singleton] at h
    exact h ▸ hCount
  | cons x xs ih =>
    rw [runsFrom] at h
    split at h
    · exact ih (by omega) h
    · rcases List.mem_cons.mp h with rfl | h
      · exact hCount
      · exact ih (by decide) h

theorem pos_of_mem_runs {xs : List α} {run : Nat × α} (h : run ∈ runs xs) : 0 < run.1 := by
  cases xs with
  | nil => cases h
  | cons x xs => exact pos_of_mem_runsFrom (by decide) h

theorem mem_of_mem_runsFrom {current : α} {count : Nat} {xs : List α} {run : Nat × α}
    (h : run ∈ runsFrom current count xs) : run.2 ∈ current :: xs := by
  induction xs generalizing current count with
  | nil =>
    rw [runsFrom, List.mem_singleton] at h
    simp [h]
  | cons x xs ih =>
    rw [runsFrom] at h
    split at h
    · rename_i hEq
      rcases List.mem_cons.mp (ih h) with hCurrent | hTail
      · simp [hCurrent]
      · simp [hTail]
    · rcases List.mem_cons.mp h with rfl | h
      · simp
      · exact List.mem_cons_of_mem _ (ih h)

theorem mem_of_mem_runs {xs : List α} {run : Nat × α} (h : run ∈ runs xs) : run.2 ∈ xs := by
  cases xs with
  | nil => cases h
  | cons x xs => exact mem_of_mem_runsFrom h

theorem le_length_of_mem_runs {xs : List α} {run : Nat × α} (h : run ∈ runs xs) :
    run.1 ≤ xs.length := by
  have hLength := length_expand (runs xs)
  rw [expand_runs] at hLength
  rw [hLength]
  exact List.le_sum_of_mem (List.mem_map_of_mem h)

/-- Put a run in front, joining it with a first run of the same value. -/
def prepend (run : Nat × α) : List (Nat × α) → List (Nat × α)
  | [] => [run]
  | next :: rest =>
    if next.2 = run.2 then (run.1 + next.1, run.2) :: rest else run :: next :: rest

theorem prepend_prepend (count more : Nat) (value : α) (rest : List (Nat × α)) :
    prepend (count, value) (prepend (more, value) rest) = prepend (count + more, value) rest := by
  cases rest with
  | nil => simp [prepend]
  | cons next rest =>
    by_cases h : next.2 = value
    · simp [prepend, h, Nat.add_assoc]
    · simp [prepend, h]

theorem runsFrom_eq (current : α) (count : Nat) (xs : List α) :
    runsFrom current count xs = prepend (count, current) (runs xs) := by
  induction xs generalizing current count with
  | nil => rfl
  | cons x xs ih =>
    rw [runsFrom, runs, ih x 1]
    split
    · rename_i hEq
      rw [ih, hEq, prepend_prepend]
    · rename_i hNe
      cases runs xs with
      | nil => simp [prepend, hNe]
      | cons next rest =>
        by_cases h : next.2 = x <;> simp [prepend, h, hNe]

theorem runsFrom_replicate (value : α) (count more : Nat) (xs : List α) :
    runsFrom value count (List.replicate more value ++ xs) =
      runsFrom value (count + more) xs := by
  induction more generalizing count with
  | zero => rfl
  | succ more ih =>
    rw [List.replicate_succ, List.cons_append, runsFrom, if_pos rfl, ih]
    congr 1
    omega

/-- The runs of an expansion: each run in turn is joined with what follows it. -/
theorem runs_expand_cons {run : Nat × α} (h : 0 < run.1) (rest : List (Nat × α)) :
    runs (expand (run :: rest)) = prepend run (runs (expand rest)) := by
  obtain ⟨more, hMore⟩ : ∃ more, run.1 = 1 + more := ⟨run.1 - 1, by omega⟩
  rw [expand_cons, hMore, Nat.add_comm, List.replicate_succ, List.cons_append, runs,
    runsFrom_replicate, ← hMore, runsFrom_eq]

section
variable {cost : Nat × α → Nat}

theorem total_prepend_lt
    (hCost : ∀ m n value, 0 < m → 0 < n → cost (m + n, value) < cost (m, value) + cost (n, value))
    {run : Nat × α} {rest : List (Nat × α)} (hRun : 0 < run.1) (hRest : ∀ r ∈ rest, 0 < r.1)
    (h : prepend run rest ≠ run :: rest) :
    total cost (prepend run rest) < cost run + total cost rest := by
  obtain ⟨count, value⟩ := run
  cases rest with
  | nil => exact absurd rfl h
  | cons next rest =>
    obtain ⟨more, other⟩ := next
    by_cases hSame : other = value
    · subst hSame
      have hJoined := hCost count more other hRun (hRest (more, other) List.mem_cons_self)
      rw [prepend, if_pos rfl, total_cons, total_cons]
      dsimp only
      omega
    · exact absurd (if_neg hSame) h

/-- Of all the lists of runs that stand for the same values, the coarsest costs
least, and every other one costs more. -/
theorem total_runs_expand
    (hCost : ∀ m n value, 0 < m → 0 < n → cost (m + n, value) < cost (m, value) + cost (n, value))
    {rest : List (Nat × α)} (hPos : ∀ r ∈ rest, 0 < r.1) :
    total cost (runs (expand rest)) ≤ total cost rest ∧
      (total cost (runs (expand rest)) = total cost rest → rest = runs (expand rest)) := by
  induction rest with
  | nil => exact ⟨Nat.le_refl _, fun _ => rfl⟩
  | cons run rest ih =>
    obtain ⟨hLe, hEq⟩ := ih fun r hr => hPos r (List.mem_cons_of_mem _ hr)
    have hRun := hPos run List.mem_cons_self
    rw [runs_expand_cons hRun, total_cons]
    by_cases hApart : prepend run (runs (expand rest)) = run :: runs (expand rest)
    · rw [hApart, total_cons]
      refine ⟨by omega, fun h => ?_⟩
      rw [← hEq (by omega)]
    · have hLt := total_prepend_lt hCost hRun (fun r hr => pos_of_mem_runs hr) hApart
      exact ⟨by omega, fun h => by omega⟩

end

end

end OpenMso.Foundation.RunLength
