import Mathlib.Algebra.Order.Ring.Nat

/-! # Cutting a list into pieces of one size

`chunks` keeps a shorter last piece, `chunksExact` drops it. A size of zero
is the caller's to refuse: here it yields no piece at all.
-/

namespace OpenMso.Foundation.Chunks

set_option autoImplicit false

variable {α : Type}

def chunks (size : Nat) (xs : List α) : List (List α) :=
  if 0 < size ∧ 0 < xs.length then xs.take size :: chunks size (xs.drop size) else []
termination_by xs.length
decreasing_by simp only [List.length_drop]; omega

def chunksExact (size : Nat) (xs : List α) : List (List α) :=
  if 0 < size ∧ size ≤ xs.length then xs.take size :: chunksExact size (xs.drop size) else []
termination_by xs.length
decreasing_by simp only [List.length_drop]; omega

theorem chunks_nil (size : Nat) : chunks size ([] : List α) = [] := by
  rw [chunks, if_neg (by simp)]

theorem chunks_of_pos {size : Nat} {xs : List α} (hSize : 0 < size) (hPos : 0 < xs.length) :
    chunks size xs = xs.take size :: chunks size (xs.drop size) := by
  rw [chunks, if_pos ⟨hSize, hPos⟩]

theorem chunksExact_of_lt {size : Nat} {xs : List α} (h : xs.length < size) :
    chunksExact size xs = [] := by
  rw [chunksExact, if_neg (by omega)]

theorem chunksExact_of_le {size : Nat} {xs : List α} (hSize : 0 < size) (h : size ≤ xs.length) :
    chunksExact size xs = xs.take size :: chunksExact size (xs.drop size) := by
  rw [chunksExact, if_pos ⟨hSize, h⟩]

/-- Cutting a list and cutting what is left: the recursion of both functions. -/
theorem drop_induction {motive : List α → Prop} {size : Nat} (hSize : 0 < size)
    (short : ∀ xs, xs.length < size → motive xs)
    (long : ∀ xs, size ≤ xs.length → motive (xs.drop size) → motive xs) (xs : List α) :
    motive xs := by
  induction hLength : xs.length using Nat.strongRecOn generalizing xs with
  | ind n ih =>
    by_cases h : xs.length < size
    · exact short xs h
    · have hDrop : (xs.drop size).length < n := by
        rw [List.length_drop]
        omega
      exact long xs (Nat.le_of_not_lt h) (ih _ hDrop _ rfl)

theorem flatten_chunks {size : Nat} (hSize : 0 < size) (xs : List α) :
    (chunks size xs).flatten = xs := by
  induction xs using drop_induction hSize with
  | short xs h =>
    by_cases hPos : 0 < xs.length
    · rw [chunks_of_pos hSize hPos, List.drop_of_length_le (by omega), chunks_nil,
        List.take_of_length_le (by omega)]
      simp
    · have hNil : xs = [] := List.eq_nil_of_length_eq_zero (by omega)
      rw [hNil, chunks_nil, List.flatten_nil]
  | long xs h ih =>
    rw [chunks_of_pos hSize (by omega), List.flatten_cons, ih, List.take_append_drop]

theorem length_pos_of_mem_chunks {size : Nat} (hSize : 0 < size) {xs part : List α}
    (h : part ∈ chunks size xs) : 0 < part.length ∧ part.length ≤ size := by
  induction xs using drop_induction hSize with
  | short xs hShort =>
    rw [chunks] at h
    split at h
    · rw [List.drop_of_length_le (by omega), chunks_nil, List.mem_singleton] at h
      subst h
      rw [List.length_take]
      omega
    · cases h
  | long xs hLong ih =>
    rw [chunks_of_pos hSize (by omega)] at h
    rcases List.mem_cons.mp h with rfl | h
    · rw [List.length_take]
      omega
    · exact ih h

theorem length_chunks {size : Nat} (hSize : 0 < size) (xs : List α) :
    (chunks size xs).length = (xs.length + size - 1) / size := by
  induction xs using drop_induction hSize with
  | short xs h =>
    by_cases hPos : 0 < xs.length
    · rw [chunks_of_pos hSize hPos, List.drop_of_length_le (by omega), chunks_nil]
      symm
      exact Nat.div_eq_of_lt_le (by rw [List.length_singleton]; omega) (by
        rw [List.length_singleton]; omega)
    · obtain rfl : xs = [] := List.length_eq_zero_iff.mp (by omega)
      rw [chunks_nil]
      exact (Nat.div_eq_of_lt (by simp only [List.length_nil]; omega)).symm
  | long xs h ih =>
    have hPos : 0 < xs.length := by omega
    have hLength : xs.length + size - 1 = xs.length - size + size - 1 + size := by omega
    rw [chunks_of_pos hSize hPos, List.length_cons, ih, List.length_drop, hLength,
      Nat.add_div_right _ hSize]

theorem sum_length_div_chunks {size unit : Nat} (hSize : 0 < size) (hUnit : unit ∣ size)
    (xs : List α) :
    ((chunks size xs).map fun part => part.length / unit).sum = xs.length / unit := by
  induction xs using drop_induction hSize with
  | short xs h =>
    by_cases hPos : 0 < xs.length
    · rw [chunks_of_pos hSize hPos, List.drop_of_length_le (by omega), chunks_nil,
        List.take_of_length_le (by omega)]
      simp
    · obtain rfl : xs = [] := List.length_eq_zero_iff.mp (by omega)
      simp [chunks_nil]
  | long xs h ih =>
    have hSum : xs.length / unit = size / unit + (xs.length - size) / unit := by
      obtain ⟨count, rfl⟩ := hUnit
      have hPos : 0 < unit := Nat.pos_of_mul_pos_right hSize
      rw [Nat.mul_div_cancel_left count hPos, ← Nat.mul_add_div hPos, Nat.add_sub_cancel' h]
    rw [chunks_of_pos hSize (by omega), List.map_cons, List.sum_cons, ih, List.length_drop,
      List.length_take, Nat.min_eq_left h, hSum]

/-- When the size and the list are both whole numbers of units, so is every piece. -/
theorem dvd_length_of_mem_chunks {size unit : Nat} (hSize : 0 < size) (hUnit : unit ∣ size)
    {xs part : List α} (hLength : unit ∣ xs.length) (h : part ∈ chunks size xs) :
    unit ∣ part.length := by
  induction xs using drop_induction hSize with
  | short xs hShort =>
    rw [chunks] at h
    split at h
    · rw [List.drop_of_length_le (by omega), chunks_nil, List.mem_singleton] at h
      subst h
      rwa [List.take_of_length_le (by omega)]
    · cases h
  | long xs hLong ih =>
    rw [chunks_of_pos hSize (by omega)] at h
    rcases List.mem_cons.mp h with rfl | h
    · rwa [List.length_take, Nat.min_eq_left hLong]
    · refine ih ?_ h
      rw [List.length_drop]
      exact Nat.dvd_sub hLength hUnit

theorem length_of_mem_chunksExact {size : Nat} (hSize : 0 < size) {xs sample : List α}
    (h : sample ∈ chunksExact size xs) : sample.length = size := by
  induction xs using drop_induction hSize with
  | short xs hShort =>
    rw [chunksExact_of_lt hShort] at h
    cases h
  | long xs hLong ih =>
    rw [chunksExact_of_le hSize hLong] at h
    rcases List.mem_cons.mp h with rfl | h
    · rw [List.length_take, Nat.min_eq_left hLong]
    · exact ih h

theorem length_chunksExact {size : Nat} (hSize : 0 < size) (xs : List α) :
    (chunksExact size xs).length = xs.length / size := by
  induction xs using drop_induction hSize with
  | short xs h => rw [chunksExact_of_lt h, Nat.div_eq_of_lt h, List.length_nil]
  | long xs h ih =>
    rw [chunksExact_of_le hSize h, List.length_cons, ih, List.length_drop,
      Nat.div_eq xs.length size, if_pos ⟨hSize, h⟩]

theorem flatten_chunksExact {size : Nat} (hSize : 0 < size) (xs : List α) :
    (chunksExact size xs).flatten = xs.take (xs.length / size * size) := by
  induction xs using drop_induction hSize with
  | short xs h => rw [chunksExact_of_lt h, Nat.div_eq_of_lt h, Nat.zero_mul, List.take_zero,
      List.flatten_nil]
  | long xs h ih =>
    have hDiv : xs.length / size = (xs.length - size) / size + 1 := by
      rw [Nat.div_eq xs.length size, if_pos ⟨hSize, h⟩]
    rw [chunksExact_of_le hSize h, List.flatten_cons, ih, List.length_drop, hDiv, Nat.add_mul,
      Nat.one_mul, Nat.add_comm _ size, List.take_add]

theorem chunksExact_flatten {size : Nat} (hSize : 0 < size) {pieces : List (List α)}
    (h : ∀ piece ∈ pieces, piece.length = size) : chunksExact size pieces.flatten = pieces := by
  induction pieces with
  | nil => exact chunksExact_of_lt (by simpa using hSize)
  | cons piece pieces ih =>
    have hPiece := h piece List.mem_cons_self
    rw [List.flatten_cons, chunksExact_of_le hSize (by simp [hPiece]), List.take_left' hPiece,
      List.drop_left' hPiece, ih fun p hp => h p (List.mem_cons_of_mem _ hp)]

theorem chunksExact_drop {size : Nat} (hSize : 0 < size) (xs : List α) (i : Nat) :
    chunksExact size (xs.drop (i * size)) = (chunksExact size xs).drop i := by
  induction i generalizing xs with
  | zero => simp
  | succ i ih =>
    by_cases h : xs.length < size
    · rw [List.drop_of_length_le (by rw [Nat.add_mul]; omega), chunksExact_of_lt h,
        chunksExact_of_lt (by simpa using hSize), List.drop_nil]
    · rw [chunksExact_of_le hSize (Nat.le_of_not_lt h), List.drop_succ_cons, ← ih,
        List.drop_drop, Nat.add_mul, Nat.one_mul, Nat.add_comm]

theorem drop_chunksExact_eq_cons {size : Nat} (hSize : 0 < size) {xs : List α} {i : Nat}
    (h : i < xs.length / size) :
    (chunksExact size xs).drop i =
      (xs.drop (i * size)).take size :: (chunksExact size xs).drop (i + 1) := by
  have hLength : (i + 1) * size ≤ xs.length :=
    Nat.le_trans (Nat.mul_le_mul_right size h) (Nat.div_mul_le_self xs.length size)
  rw [Nat.add_mul, Nat.one_mul] at hLength
  rw [← chunksExact_drop hSize, chunksExact_of_le hSize (by rw [List.length_drop]; omega),
    ← chunksExact_drop hSize, List.drop_drop, Nat.add_mul, Nat.one_mul]

end OpenMso.Foundation.Chunks
