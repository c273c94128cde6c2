import OpenMso.Encoding.TransitionFormat

/-! # Sizes taken from the wire

`sample_count` and `unitsize` arrive unchecked. Their product is formed before
anything else is looked at, so it is the product that decides whether the
decoder panics, and in an optimised build whether the count it checks against
is the one that was declared.
-/

namespace OpenMso.Encoding

open Foundation.Machine

set_option autoImplicit false

theorem decodeTransition_of_zero (build : Build) (payload : List UInt8) (samples : Nat) :
    decodeTransition build payload 0 samples =
      .error (.error (.protocol "logic stream declared unitsize 0")) := rfl

theorem decodeTransition_of_mul_panic {build : Build} {unitsize samples : Nat} {fault : Fault Error}
    (payload : List UInt8) (hUnit : 0 < unitsize)
    (hMul : (mulUsize build samples unitsize : Call Error Nat) = .error fault) :
    decodeTransition build payload unitsize samples = .error fault := by
  rw [decodeTransition, if_neg (Nat.ne_of_gt hUnit), hMul]
  rfl

theorem decodeTransition_of_capacity {build : Build} {unitsize samples size : Nat}
    (payload : List UInt8) (hUnit : 0 < unitsize)
    (hMul : (mulUsize build samples unitsize : Call Error Nat) = .ok size) (hSize : 2 ^ 63 ≤ size) :
    decodeTransition build payload unitsize samples = .error (.panic "capacity overflow") := by
  have hCapacity : (withCapacity size : Call Error (List UInt8)) =
      .error (.panic "capacity overflow") := if_neg (Nat.not_lt.mpr hSize)
  rw [decodeTransition, if_neg (Nat.ne_of_gt hUnit), hMul]
  simp only [hCapacity, bind, Except.bind]

/-- A product no buffer can have makes a checked build panic at one of its two uses. -/
theorem decodeTransition_checked_of_le {unitsize samples : Nat} (payload : List UInt8)
    (hUnit : 0 < unitsize) (hSize : 2 ^ 63 ≤ samples * unitsize) :
    ∃ message, decodeTransition .checked payload unitsize samples = .error (.panic message) := by
  by_cases hWord : samples * unitsize < 2 ^ 64
  · exact ⟨_, decodeTransition_of_capacity payload hUnit (mulUsize_of_lt .checked hWord) hSize⟩
  · exact ⟨_, decodeTransition_of_mul_panic payload hUnit (if_neg hWord)⟩

/-- No build panics, which a checked one does when the product overflows and either
does when the buffer is too large to ask for; and what is returned has the declared
size as an exact product. -/
def HasSafeSizes (payload : List UInt8) (unitsize samples : Nat) : Prop :=
  ∀ build, (∀ message, decodeTransition build payload unitsize samples ≠ .error (.panic message)) ∧
    ∀ out, decodeTransition build payload unitsize samples = .ok out →
      out.length = samples * unitsize

theorem hasSafeSizes_iff (payload : List UInt8) (unitsize samples : Nat) :
    HasSafeSizes payload unitsize samples ↔ unitsize = 0 ∨ samples * unitsize < 2 ^ 63 := by
  constructor
  · intro h
    by_contra hSize
    rw [not_or, Nat.not_lt] at hSize
    obtain ⟨message, hPanic⟩ :=
      decodeTransition_checked_of_le payload (Nat.pos_of_ne_zero hSize.1) hSize.2
    exact (h .checked).1 message hPanic
  · intro hSize build
    rcases Nat.eq_zero_or_pos unitsize with rfl | hUnit
    · rw [decodeTransition_of_zero]
      exact ⟨fun message h => (by cases h), fun out h => (by cases h)⟩
    · have hLt := hSize.resolve_left (Nat.ne_of_gt hUnit)
      constructor
      · intro message hPanic
        rcases decodeTransition_cases build payload hUnit hLt with ⟨out, hOk⟩ | ⟨e, hError⟩
        · rw [hOk] at hPanic
          cases hPanic
        · rw [hError] at hPanic
          cases hPanic
      · intro out hOk
        obtain ⟨records, _, _, hSum, rfl⟩ := (decodeTransition_eq_ok_iff hUnit hLt).mp hOk
        rw [length_expandBy, hSum]

/-- An empty payload passes for 2^33 samples of 2^31 bytes, or panics. -/
theorem wrapped_size_is_satisfied :
    ¬ HasSafeSizes [] (2 ^ 31) (2 ^ 33) ∧
      decodeTransition .checked [] (2 ^ 31) (2 ^ 33) =
        .error (.panic "attempt to multiply with overflow") ∧
      decodeTransition .optimised [] (2 ^ 31) (2 ^ 33) = .ok [] ∧
      ([] : List UInt8).length ≠ 2 ^ 33 * 2 ^ 31 := by
  have hPanic : decodeTransition .checked [] (2 ^ 31) (2 ^ 33) =
      .error (.panic "attempt to multiply with overflow") :=
    decodeTransition_of_mul_panic [] (by decide) rfl
  refine ⟨fun h => (h .checked).1 _ hPanic, hPanic, ?_, by decide⟩
  have hMul : (mulUsize .optimised (2 ^ 33) (2 ^ 31) : Call Error Nat) = .ok 0 := rfl
  rw [decodeTransition_of_mul [] (by decide) hMul (by decide), decodeFrom, if_pos rfl]
  rfl

end OpenMso.Encoding
