import Mathlib.Computability.StateTransition
import OpenMso.Foundation.RunLength

/-! # A loop that reads runs and writes them out

At its head the loop reads one run at the cursor; the inner loop then appends
the value of the run, one copy a turn. Where `read` finds no run, because the
input is used up or malformed, the loop is over. The states it goes through
are told from the runs that can be read, and what a decoder returns from the
state in which the loop stops.
-/

namespace OpenMso.Foundation.Expansion

open StateTransition RunLength

set_option autoImplicit false

/-- A run read at a cursor, and where the input goes on after it. -/
structure Run (Cursor α : Type) where
  count : Nat
  value : List α
  next : Cursor
  deriving DecidableEq, Repr

inductive Loop (Cursor α : Type) where
  | head (out : List α) (cursor : Cursor)
  | inside (out value : List α) (next : Cursor) (left : Nat)
  deriving DecidableEq, Repr

variable {Cursor α : Type}

/-- The output buffer. -/
def Loop.out : Loop Cursor α → List α
  | .head out _ => out
  | .inside out _ _ _ => out

def step (read : Cursor → Option (Run Cursor α)) : Loop Cursor α → Option (Loop Cursor α)
  | .head out cursor =>
    (read cursor).map fun run => .inside out run.value run.next run.count
  | .inside out value next (left + 1) => some (.inside (out ++ value) value next left)
  | .inside out _ next 0 => some (.head out next)

/-- The runs that stand one after another from the first cursor to the last. -/
inductive Reads (read : Cursor → Option (Run Cursor α)) :
    Cursor → List (Nat × List α) → Cursor → Prop where
  | nil (cursor : Cursor) : Reads read cursor [] cursor
  | cons {cursor last : Cursor} {run : Run Cursor α} {runs : List (Nat × List α)}
      (h : read cursor = some run) (rest : Reads read run.next runs last) :
      Reads read cursor ((run.count, run.value) :: runs) last

/-- The length a run is expanded to. -/
def runLength (run : Nat × List α) : Nat := run.1 * run.2.length

section
variable {read : Cursor → Option (Run Cursor α)}

theorem Reads.snoc {first cursor : Cursor} {runs : List (Nat × List α)} {run : Run Cursor α}
    (h : Reads read first runs cursor) (hRun : read cursor = some run) :
    Reads read first (runs ++ [(run.count, run.value)]) run.next := by
  induction h with
  | nil cursor => exact .cons hRun (.nil _)
  | cons hHead _ ih => exact .cons hHead (ih hRun)

theorem length_flatten_expand (runs : List (Nat × List α)) :
    (expand runs).flatten.length = total runLength runs := by
  induction runs with
  | nil => rfl
  | cons run runs ih =>
    rw [expand_cons, List.flatten_append, List.length_append, ih, total_cons, runLength]
    simp

theorem reaches_inside (value : List α) (next : Cursor) (out : List α) (left : Nat) :
    Reaches (step read) (.inside out value next left)
      (.head (out ++ (List.replicate left value).flatten) next) := by
  induction left generalizing out with
  | zero =>
    rw [List.replicate_zero, List.flatten_nil, List.append_nil]
    exact .single rfl
  | succ left ih =>
    rw [List.replicate_succ, List.flatten_cons, ← List.append_assoc]
    exact .head rfl (ih (out ++ value))

/-- The loop comes to every cursor that the runs lead to, with all of them written out. -/
theorem Reads.reaches {first last : Cursor} {runs : List (Nat × List α)}
    (h : Reads read first runs last) (out : List α) :
    Reaches (step read) (.head out first) (.head (out ++ (expand runs).flatten) last) := by
  induction h generalizing out with
  | nil cursor =>
    rw [expand_nil, List.flatten_nil, List.append_nil]
    exact .refl
  | @cons cursor last run runs hRun _ ih =>
    have hHead : Reaches (step read) (.head out cursor) (.inside out run.value run.next run.count) :=
      .single (by rw [step, hRun]; rfl)
    rw [expand_cons, List.flatten_append, ← List.append_assoc]
    exact (hHead.trans (reaches_inside _ _ _ _)).trans (ih _)

/-- Where the loop stands: some runs are written out, and of the one it is inside
of there are `left` copies to go. -/
def Stands (read : Cursor → Option (Run Cursor α)) (first : Cursor) (start : List α) :
    Loop Cursor α → Prop
  | .head out cursor => ∃ runs, Reads read first runs cursor ∧ out = start ++ (expand runs).flatten
  | .inside out value next left => ∃ runs cursor count, Reads read first runs cursor ∧
      read cursor = some ⟨count, value, next⟩ ∧ left ≤ count ∧
        out = start ++ (expand runs).flatten ++ (List.replicate (count - left) value).flatten

theorem stands_step {first : Cursor} {start : List α} {loop after : Loop Cursor α}
    (h : Stands read first start loop) (hStep : step read loop = some after) :
    Stands read first start after := by
  match loop with
  | .head out cursor =>
    obtain ⟨runs, hRuns, hOut⟩ := h
    obtain ⟨run, hRun, rfl⟩ := Option.map_eq_some_iff.mp hStep
    refine ⟨runs, cursor, run.count, hRuns, hRun, Nat.le_refl _, ?_⟩
    rw [Nat.sub_self, List.replicate_zero, List.flatten_nil, List.append_nil]
    exact hOut
  | .inside out value next (left + 1) =>
    obtain ⟨runs, cursor, count, hRuns, hRun, hLeft, rfl⟩ := h
    cases hStep
    refine ⟨runs, cursor, count, hRuns, hRun, Nat.le_of_succ_le hLeft, ?_⟩
    have hCount : count - left = count - (left + 1) + 1 := by omega
    rw [hCount, List.replicate_succ', List.flatten_append, List.flatten_singleton,
      ← List.append_assoc]
  | .inside out value next 0 =>
    obtain ⟨runs, cursor, count, hRuns, hRun, _, rfl⟩ := h
    cases hStep
    refine ⟨_, hRuns.snoc hRun, ?_⟩
    simp [expand, List.append_assoc]

theorem stands_of_reaches {first : Cursor} {start : List α} {loop : Loop Cursor α}
    (h : Reaches (step read) (.head start first) loop) : Stands read first start loop := by
  induction h with
  | refl => exact ⟨[], .nil first, (List.append_nil _).symm⟩
  | tail _ hStep ih => exact stands_step ih hStep

/-- The buffer stays within a bound exactly when all the runs that can be read do. -/
theorem forall_length_out_le_iff (first : Cursor) (bound : Nat) :
    (∀ loop, Reaches (step read) (.head [] first) loop → loop.out.length ≤ bound) ↔
      ∀ runs last, Reads read first runs last → total runLength runs ≤ bound := by
  constructor
  · intro h runs last hRuns
    have hOut := h _ (hRuns.reaches [])
    rwa [Loop.out, List.nil_append, length_flatten_expand] at hOut
  · intro h loop hLoop
    have hStands := stands_of_reaches hLoop
    match loop with
    | .head out cursor =>
      obtain ⟨runs, hRuns, rfl⟩ := hStands
      rw [Loop.out, List.nil_append, length_flatten_expand]
      exact h runs cursor hRuns
    | .inside out value next left =>
      obtain ⟨runs, cursor, count, hRuns, hRun, _, rfl⟩ := hStands
      have hTotal := h _ _ (hRuns.snoc hRun)
      have hPart : (count - left) * value.length ≤ count * value.length :=
        Nat.mul_le_mul_right _ (Nat.sub_le _ _)
      rw [total_append, total_cons, runLength] at hTotal
      dsimp only at hTotal
      rw [Loop.out, List.nil_append, List.length_append, length_flatten_expand]
      simp only [List.length_flatten, List.map_replicate, List.sum_replicate_nat]
      omega

end

section
variable {read : Cursor → Option (Run Cursor α)} {Result : Type}
  {decode : List α → Cursor → Result}
  (hDecode : ∀ out cursor run, read cursor = some run →
    decode out cursor = decode (out ++ (List.replicate run.count run.value).flatten) run.next)

include hDecode in
/-- A decoder that writes the runs out one by one may as well start after some of them. -/
theorem Reads.decode_eq {first last : Cursor} {runs : List (Nat × List α)}
    (h : Reads read first runs last) (out : List α) :
    decode out first = decode (out ++ (expand runs).flatten) last := by
  induction h generalizing out with
  | nil cursor => rw [expand_nil, List.flatten_nil, List.append_nil]
  | @cons cursor last run runs hRun _ ih =>
    rw [hDecode out cursor run hRun, ih, expand_cons, List.flatten_append, ← List.append_assoc]

theorem exists_reads_stop (left : Cursor → Nat)
    (hLeft : ∀ cursor run, read cursor = some run → left run.next < left cursor) (first : Cursor) :
    ∃ runs last, Reads read first runs last ∧ read last = none := by
  induction hFirst : left first using Nat.strongRecOn generalizing first with
  | ind n ih =>
    cases hRun : read first with
    | none => exact ⟨[], first, .nil first, hRun⟩
    | some run =>
      have hNext := hLeft first run hRun
      obtain ⟨runs, last, hReads, hLast⟩ := ih (left run.next) (by omega) run.next rfl
      exact ⟨_, last, .cons hRun hReads, hLast⟩

include hDecode in
/-- Whatever such a decoder gives is what it makes of the state in which the loop stops. -/
theorem decode_eq_iff_reaches (left : Cursor → Nat)
    (hLeft : ∀ cursor run, read cursor = some run → left run.next < left cursor)
    (start : List α) (first : Cursor) (result : Result) :
    decode start first = result ↔ ∃ out last,
      Reaches (step read) (.head start first) (.head out last) ∧ read last = none ∧
        decode out last = result := by
  constructor
  · rintro rfl
    obtain ⟨runs, last, hReads, hLast⟩ := exists_reads_stop left hLeft first
    exact ⟨_, last, hReads.reaches start, hLast, (hReads.decode_eq hDecode start).symm⟩
  · rintro ⟨out, last, hReaches, _, rfl⟩
    obtain ⟨runs, hReads, rfl⟩ := stands_of_reaches hReaches
    exact hReads.decode_eq hDecode start

end

section
variable {Cursor' : Type} {read : Cursor → Option (Run Cursor α)}
  {read' : Cursor' → Option (Run Cursor' α)} (place : Cursor → Cursor')

/-- Of two readers that find the same runs, the cursors of one standing for those of the
other, each can read the runs in a row that the other can. -/
theorem reads_place_iff
    (h : ∀ cursor, (read cursor).map (fun run => ⟨run.count, run.value, place run.next⟩) =
      read' (place cursor)) (first : Cursor) (runs : List (Nat × List α)) (last' : Cursor') :
    Reads read' (place first) runs last' ↔ ∃ last, place last = last' ∧ Reads read first runs last := by
  constructor
  · intro hRuns
    generalize hPlace : place first = cursor at hRuns
    induction hRuns generalizing first with
    | nil cursor => exact ⟨first, hPlace, .nil first⟩
    | cons hRun _ ih =>
      subst hPlace
      rw [← h] at hRun
      obtain ⟨run, hFound, rfl⟩ := Option.map_eq_some_iff.mp hRun
      obtain ⟨last, hLast, hRest⟩ := ih run.next rfl
      exact ⟨last, hLast, .cons hFound hRest⟩
  · rintro ⟨last, rfl, hRuns⟩
    induction hRuns with
    | nil cursor => exact .nil _
    | @cons cursor last run runs hRun _ ih =>
      have hRun' : read' (place cursor) = some ⟨run.count, run.value, place run.next⟩ := by
        rw [← h, hRun]
        rfl
      exact .cons hRun' ih

end

end OpenMso.Foundation.Expansion
