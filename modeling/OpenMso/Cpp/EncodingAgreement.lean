import OpenMso.Cpp.Encoding
import OpenMso.Encoding.TransitionRoundtrip

/-! # The two stacks agree on the wire format

The C++ loops walk positions of one string where the Rust loops take slices.
Each is related to its Rust counterpart on the slice its position stands for.
-/

namespace OpenMso.Cpp.Encoding

open Foundation.Machine Foundation.Chunks Foundation.Leb128 Foundation.RunLength
open OpenMso.Encoding (writeRun putVarint_eq encodeTransition_eq extendRun_eq)

set_option autoImplicit false

theorem putVarint_agrees (out : List UInt8) (value : UInt64) :
    putVarint out value = OpenMso.Encoding.putVarint out value := by
  have hByte (value : UInt64) : (value ||| 0x80).toUInt8 = value.toUInt8 ||| 0x80 :=
    UInt64.toUInt8_or value 0x80
  fun_induction putVarint out value with
  | case1 out value h ih => rw [OpenMso.Encoding.putVarint, if_pos h, ih, hByte]
  | case2 out value h => rw [OpenMso.Encoding.putVarint, if_neg h]

/-- Reading from a position is reading the slice that starts there. -/
theorem getVarintFrom_agrees (input : List UInt8) (pos i left : Nat) (acc : UInt64) :
    ((getVarintFrom input pos i acc left).toOption.map fun r => (r.2, input.drop r.1)) =
      (OpenMso.Encoding.getVarintFrom i acc left (input.drop (pos + i))).toOption := by
  induction left generalizing i acc with
  | zero => rfl
  | succ left ih =>
    rw [getVarintFrom]
    cases hByte : input[pos + i]? with
    | none =>
      rw [List.drop_eq_nil_of_le (List.getElem?_eq_none_iff.mp hByte)]
      rfl
    | some byte =>
      obtain ⟨hLt, hGet⟩ := List.getElem?_eq_some_iff.mp hByte
      rw [List.drop_eq_getElem_cons hLt, hGet, OpenMso.Encoding.getVarintFrom]
      dsimp only
      split
      · split <;> rfl
      · exact ih (i + 1) _

theorem getVarint_agrees (input : List UInt8) (pos : Nat) :
    ((getVarint input pos).toOption.map fun r => (r.2, input.drop r.1)) =
      (OpenMso.Encoding.getVarint (input.drop pos)).toOption :=
  getVarintFrom_agrees input pos 0 10 0

theorem appendRun_agrees (payload : List UInt8) (pos unitsize : Nat) (out : List UInt8) (run : Nat) :
    appendRun payload pos unitsize out run =
      OpenMso.Encoding.extendRun out ((payload.drop pos).take unitsize) run := by
  induction run generalizing out with
  | zero => rfl
  | succ run ih => exact ih _

theorem getVarint_eq_ok {input : List UInt8} {pos next : Nat} {run : UInt64}
    (h : getVarint input pos = .ok (next, run)) :
    OpenMso.Encoding.getVarint (input.drop pos) = .ok (run, input.drop next) := by
  have hAgree := getVarint_agrees input pos
  rw [h] at hAgree
  cases hRust : OpenMso.Encoding.getVarint (input.drop pos) with
  | error e =>
    rw [hRust] at hAgree
    cases hAgree
  | ok r =>
    rw [hRust] at hAgree
    cases hAgree
    rfl

theorem getVarint_eq_error {input : List UInt8} {pos : Nat} {e : Error}
    (h : getVarint input pos = .error e) :
    ∃ e', OpenMso.Encoding.getVarint (input.drop pos) = .error e' := by
  have hAgree := getVarint_agrees input pos
  rw [h] at hAgree
  cases hRust : OpenMso.Encoding.getVarint (input.drop pos) with
  | error e' => exact ⟨e', rfl⟩
  | ok r =>
    rw [hRust] at hAgree
    cases hAgree

/-- The decoding loops go through the same records, `pos` being where the slice starts. -/
theorem decodeFrom_agrees (payload : List UInt8) (unitsize : Nat) (out : List UInt8) (pos : Nat) :
    (decodeFrom payload unitsize out pos).toOption =
      (OpenMso.Encoding.decodeFrom unitsize out (payload.drop pos)).toOption := by
  induction hLeft : payload.length - pos using Nat.strongRecOn generalizing out pos with
  | ind left ih =>
    by_cases h : pos < payload.length
    · have hRest : payload.drop pos ≠ [] := by
        rw [ne_eq, List.drop_eq_nil_iff]
        omega
      cases hRun : getVarint payload pos with
      | error e =>
        obtain ⟨e', hRust⟩ := getVarint_eq_error hRun
        rw [decodeFrom_of_error h hRun, OpenMso.Encoding.decodeFrom_of_error hRest hRust]
        rfl
      | ok r =>
        have hNext : pos < r.1 := pos_lt_of_getVarintFrom hRun
        rw [decodeFrom_of_ok h hRun,
          OpenMso.Encoding.decodeFrom_of_ok hRest (getVarint_eq_ok hRun),
          List.length_drop, appendRun_agrees, List.drop_drop]
        split
        · rfl
        · exact ih _ (by omega) _ _ rfl
    · rw [decodeFrom, OpenMso.Encoding.decodeFrom, if_neg h,
        if_pos (List.drop_eq_nil_of_le (Nat.le_of_not_lt h))]
      rfl

/-- Both decoders return the same bytes or both fail, in an optimised build, wherever
both can ask for the buffer. -/
theorem decodeTransition_agrees {maxSize : Nat} (hMax : 2 ^ 62 ≤ maxSize + 1) (payload : List UInt8)
    {unitsize samples : Nat} (hSize : samples * unitsize % 2 ^ 64 < 2 ^ 62) :
    (decodeTransition maxSize payload unitsize samples).toOption =
      (OpenMso.Encoding.decodeTransition .optimised payload unitsize samples).toOption := by
  have hLoop := decodeFrom_agrees payload unitsize [] 0
  rw [List.drop_zero] at hLoop
  have hReserve : reserve maxSize (samples * unitsize % 2 ^ 64) = .ok () := if_pos (by omega)
  have hCapacity : (withCapacity (samples * unitsize % 2 ^ 64) :
      Call OpenMso.Error (List UInt8)) = .ok [] :=
    withCapacity_of_lt (Nat.lt_trans hSize (by decide))
  rw [decodeTransition, OpenMso.Encoding.decodeTransition]
  by_cases hUnit : unitsize = 0
  · rw [if_pos hUnit, if_pos hUnit]
    rfl
  · simp only [if_neg hUnit, hReserve, mulUsize_optimised, hCapacity, raise, bind, Except.bind,
      pure, Except.pure]
    cases hCpp : decodeFrom payload unitsize [] 0 with
    | error e =>
      cases hRust : OpenMso.Encoding.decodeFrom unitsize [] payload with
      | error e' => rfl
      | ok out =>
        rw [hCpp, hRust] at hLoop
        cases hLoop
    | ok out =>
      cases hRust : OpenMso.Encoding.decodeFrom unitsize [] payload with
      | error e' =>
        rw [hCpp, hRust] at hLoop
        cases hLoop
      | ok out' =>
        rw [hCpp, hRust] at hLoop
        cases hLoop
        dsimp only [lift]
        split <;> rfl

theorem samples_eq_cons {packed : List UInt8} {unitsize i : Nat} (hUnit : 0 < unitsize)
    (hIndex : i < packed.length / unitsize) :
    (chunksExact unitsize packed).drop i =
      substr packed (i * unitsize) unitsize :: (chunksExact unitsize packed).drop (i + 1) :=
  drop_chunksExact_eq_cons hUnit hIndex

/-- The encoding loops: at index `i` the Rust iterator has the samples from `i` on left. -/
theorem encodeFrom_agrees {packed : List UInt8} {unitsize : Nat} (hUnit : 0 < unitsize)
    (out : List UInt8) (runStart : Nat) (run : UInt64) (i : Nat) :
    .ok (encodeFrom packed unitsize (packed.length / unitsize) out runStart run i) =
      OpenMso.Encoding.encodeFrom .optimised out
        (substr packed (runStart * unitsize) unitsize) run
        ((chunksExact unitsize packed).drop i) := by
  fun_induction encodeFrom packed unitsize (packed.length / unitsize) out runStart run i with
  | case1 out runStart run i hIndex hSame ih =>
    rw [samples_eq_cons hUnit hIndex, OpenMso.Encoding.encodeFrom, if_pos hSame,
      addU64_optimised]
    exact ih
  | case2 out runStart run i hIndex hDiffer ih =>
    rw [samples_eq_cons hUnit hIndex, OpenMso.Encoding.encodeFrom, if_neg hDiffer,
      ← putVarint_agrees]
    exact ih
  | case3 out runStart run i hIndex =>
    rw [List.drop_of_length_le (by rw [length_chunksExact hUnit]; omega),
      OpenMso.Encoding.encodeFrom, putVarint_agrees]

theorem encodeTransition_agrees (packed : List UInt8) {unitsize : Nat} (hUnit : 0 < unitsize) :
    (encodeTransition packed unitsize).toOption =
      (OpenMso.Encoding.encodeTransition .optimised packed unitsize).toOption := by
  rw [encodeTransition, OpenMso.Encoding.encodeTransition, if_neg (Nat.ne_of_gt hUnit),
    if_neg (Nat.ne_of_gt hUnit)]
  dsimp only
  by_cases hSamples : packed.length / unitsize = 0
  · have hNone : chunksExact unitsize packed = [] :=
      List.eq_nil_of_length_eq_zero ((length_chunksExact hUnit packed).trans hSamples)
    rw [if_pos hSamples, hNone]
    rfl
  · have hFirst := samples_eq_cons hUnit (Nat.pos_of_ne_zero hSamples)
    rw [List.drop_zero] at hFirst
    rw [if_neg hSamples, hFirst]
    dsimp only
    rw [← encodeFrom_agrees hUnit]
    rfl

theorem intersectFrom_eq (accept out supported : List Int32) :
    intersectFrom accept out supported =
      out ++ supported.filter fun s => accept.contains s := by
  induction supported generalizing out with
  | nil => simp [intersectFrom]
  | cons s supported ih =>
    rw [intersectFrom, ih, List.filter_cons]
    split <;> simp

theorem intersect_agrees (accept supported : List Int32) (mandatory : Int32) :
    intersect accept supported mandatory = OpenMso.Encoding.intersect accept supported mandatory := by
  cases accept with
  | nil => rfl
  | cons first accept =>
    simp [intersect, OpenMso.Encoding.intersect, intersectFrom_eq]

/-- The two stacks agree on what they write, on what they read and on what they negotiate. -/
theorem stacks_agree (maxSize : Nat) (hMax : 2 ^ 62 ≤ maxSize + 1) :
    (∀ (packed : List UInt8) (unitsize : Nat), 0 < unitsize → ∃ bytes,
      encodeTransition packed unitsize = .ok bytes ∧
        OpenMso.Encoding.encodeTransition .optimised packed unitsize = .ok bytes) ∧
    (∀ (payload : List UInt8) (unitsize samples : Nat), 0 < unitsize →
      samples * unitsize % 2 ^ 64 < 2 ^ 62 →
      (decodeTransition maxSize payload unitsize samples).toOption =
        (OpenMso.Encoding.decodeTransition .optimised payload unitsize samples).toOption) ∧
    (∀ accept supported, negotiateEncodings accept supported =
      OpenMso.Encoding.negotiateEncodings accept supported) ∧
    (∀ accept supported, negotiateCodecs accept supported =
      OpenMso.Encoding.negotiateCodecs accept supported) := by
  refine ⟨?_, fun payload unitsize samples _ hSize => decodeTransition_agrees hMax payload hSize,
    fun accept supported => intersect_agrees accept _ _,
    fun accept supported => intersect_agrees accept _ _⟩
  intro packed unitsize hUnit
  have hAgree := encodeTransition_agrees packed hUnit
  have hRust : OpenMso.Encoding.encodeTransition .optimised packed unitsize = _ :=
    encodeTransition_eq _ hUnit (.inl rfl)
  rw [hRust] at hAgree
  cases hCpp : encodeTransition packed unitsize with
  | error e =>
    rw [hCpp] at hAgree
    cases hAgree
  | ok bytes =>
    rw [hCpp] at hAgree
    cases hAgree
    exact ⟨_, rfl, hRust⟩

theorem stacks_agree_short_payload :
    (decodeTransition (2 ^ 63 - 2) [2, 7, 1, 9] 1 3).toOption =
      (OpenMso.Encoding.decodeTransition .optimised [2, 7, 1, 9] 1 3).toOption :=
  (stacks_agree (2 ^ 63 - 2) (by decide)).2.1 [2, 7, 1, 9] 1 3 (by decide) (by decide)

end OpenMso.Cpp.Encoding
