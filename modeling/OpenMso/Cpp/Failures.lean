import OpenMso.Cpp.EncodingAgreement
import OpenMso.Encoding.Refusal

/-! # The two stacks refuse a chunk in the same words

What a frontend shows of a failed call is the text of its error. It does not
depend on the stack the frontend is built on, except for a codec that neither
of them knows.
-/

namespace OpenMso.Encoding

open Foundation.Machine

set_option autoImplicit false

/-- Why the loop of `decodeTransition` gives up. -/
def loopMessages : List String :=
  ["truncated or oversized varint", "transition run length of 0",
    "transition run is missing its value"]

theorem getVarintFrom_message {i left : Nat} {acc : UInt64} {input : List UInt8} {e : Error}
    (h : getVarintFrom i acc left input = .error e) : ∃ message ∈ loopMessages, e = .protocol message := by
  induction left generalizing i acc input with
  | zero =>
    cases h
    exact ⟨_, List.mem_cons_self, rfl⟩
  | succ left ih =>
    cases input with
    | nil =>
      cases h
      exact ⟨_, List.mem_cons_self, rfl⟩
    | cons byte input =>
      rw [getVarintFrom] at h
      split at h
      · split at h
        · cases h
          exact ⟨_, List.mem_cons_of_mem _ List.mem_cons_self, rfl⟩
        · cases h
      · exact ih h

theorem decodeFrom_message {unitsize : Nat} {out rest : List UInt8} {e : Error}
    (h : decodeFrom unitsize out rest = .error e) :
    ∃ message ∈ loopMessages, e = .protocol message := by
  induction hLeft : rest.length using Nat.strongRecOn generalizing out rest with
  | ind left ih =>
    rcases eq_or_ne rest [] with rfl | hRest
    · rw [decodeFrom, if_pos rfl] at h
      cases h
    · cases hRun : getVarint rest with
      | error e' =>
        rw [decodeFrom_of_error hRest hRun] at h
        cases h
        exact getVarintFrom_message hRun
      | ok r =>
        have hTail : r.2.length < rest.length := length_lt_of_getVarintFrom hRun
        rw [decodeFrom_of_ok hRest hRun] at h
        split at h
        · cases h
          exact ⟨_, by simp [loopMessages], rfl⟩
        · exact ih _ (by rw [List.length_drop]; omega) h rfl

/-- The decoder never speaks of the codec, which it does not know. -/
theorem decodeTransition_message {build : Build} {payload : List UInt8} {unitsize samples : Nat}
    {e : Error} (h : decodeTransition build payload unitsize samples = .error (.error e)) :
    ∃ message, e = .protocol message ∧ message ≠ " is not decodable here" := by
  rcases Nat.eq_zero_or_pos unitsize with rfl | hUnit
  · rw [decodeTransition_of_zero] at h
    cases h
    exact ⟨_, rfl, by decide⟩
  rcases mulUsize_cases Error build samples unitsize with ⟨size, hMul⟩ | ⟨message, hMul⟩
  · rcases Nat.lt_or_ge size (2 ^ 63) with hSize | hSize
    · rw [decodeTransition_of_mul payload hUnit hMul hSize] at h
      cases hLoop : decodeFrom unitsize [] payload with
      | error e' =>
        obtain ⟨message, hMem, rfl⟩ := decodeFrom_message hLoop
        rw [hLoop] at h
        cases h
        exact ⟨message, rfl, fun hText => absurd (hText ▸ hMem) (by decide)⟩
      | ok out =>
        rw [hLoop] at h
        dsimp only at h
        split at h
        · cases h
        · cases h
          refine ⟨_, rfl, fun hText => ?_⟩
          have hFirst := congrArg String.toList hText
          simp only [String.toList_append, List.append_assoc] at hFirst
          cases congrArg List.head? hFirst
    · rw [decodeTransition_of_capacity payload hUnit hMul hSize] at h
      cases h
  · rw [decodeTransition_of_mul_panic payload hUnit hMul] at h
    cases h

end OpenMso.Encoding

namespace OpenMso.Cpp.Encoding

open Foundation.Machine Proto
open OpenMso.Encoding (IsPlainCodec IsForeignCodec)

set_option autoImplicit false

variable (strerror : NngError → String)

theorem what_protocol (message : String) :
    (Error.protocol message).what = (OpenMso.Error.protocol message).display strerror :=
  rfl

/-- The readers of a varint stop at the same byte, for the same reason. -/
theorem getVarintFrom_mapError (input : List UInt8) (pos i left : Nat) (acc : UInt64) :
    ((getVarintFrom input pos i acc left).mapError Error.what).map (fun r => (r.2, input.drop r.1)) =
      (OpenMso.Encoding.getVarintFrom i acc left (input.drop (pos + i))).mapError
        (·.display strerror) := by
  induction left generalizing i acc with
  | zero => exact congrArg _ (what_protocol strerror _)
  | succ left ih =>
    rw [getVarintFrom]
    cases hByte : input[pos + i]? with
    | none =>
      rw [List.drop_eq_nil_of_le (List.getElem?_eq_none_iff.mp hByte)]
      exact congrArg _ (what_protocol strerror _)
    | some byte =>
      obtain ⟨hLt, hGet⟩ := List.getElem?_eq_some_iff.mp hByte
      rw [List.drop_eq_getElem_cons hLt, hGet, OpenMso.Encoding.getVarintFrom]
      dsimp only
      split
      · split
        · exact congrArg _ (what_protocol strerror _)
        · rfl
      · exact ih (i + 1) _

theorem getVarint_error {input : List UInt8} {pos : Nat} {e : Error}
    (h : getVarint input pos = .error e) :
    ∃ e', OpenMso.Encoding.getVarint (input.drop pos) = .error e' ∧
      e.what = e'.display strerror := by
  have hSame := getVarintFrom_mapError strerror input pos 0 10 0
  change ((getVarint input pos).mapError _).map _ =
    (OpenMso.Encoding.getVarint (input.drop pos)).mapError _ at hSame
  rw [h] at hSame
  cases hRust : OpenMso.Encoding.getVarint (input.drop pos) with
  | ok r =>
    rw [hRust] at hSame
    cases hSame
  | error e' =>
    rw [hRust] at hSame
    exact ⟨e', rfl, Except.error.inj hSame⟩

theorem decodeFrom_mapError (payload : List UInt8) (unitsize : Nat) (out : List UInt8) (pos : Nat) :
    (decodeFrom payload unitsize out pos).mapError Error.what =
      (OpenMso.Encoding.decodeFrom unitsize out (payload.drop pos)).mapError
        (·.display strerror) := by
  induction hLeft : payload.length - pos using Nat.strongRecOn generalizing out pos with
  | ind left ih =>
    rcases Nat.lt_or_ge pos payload.length with h | h
    · have hRest : payload.drop pos ≠ [] := by
        rw [ne_eq, List.drop_eq_nil_iff]
        omega
      cases hRun : getVarint payload pos with
      | error e =>
        obtain ⟨e', hRust, hText⟩ := getVarint_error strerror hRun
        rw [decodeFrom_of_error h hRun, OpenMso.Encoding.decodeFrom_of_error hRest hRust]
        exact congrArg _ hText
      | ok r =>
        have hNext : pos < r.1 := pos_lt_of_getVarintFrom hRun
        rw [decodeFrom_of_ok h hRun,
          OpenMso.Encoding.decodeFrom_of_ok hRest (getVarint_eq_ok hRun),
          List.length_drop, appendRun_agrees, List.drop_drop]
        split
        · exact congrArg _ (what_protocol strerror _)
        · exact ih _ (by omega) _ _ rfl
    · rw [decodeFrom, OpenMso.Encoding.decodeFrom, if_neg (Nat.not_lt.mpr h),
        if_pos (List.drop_eq_nil_of_le h)]
      rfl

theorem restate_decodeTransition {maxSize : Nat} (hMax : 2 ^ 62 ≤ maxSize + 1) (payload : List UInt8)
    {unitsize samples : Nat} (hSize : samples * unitsize % 2 ^ 64 < 2 ^ 62) :
    restate Error.what (decodeTransition maxSize payload unitsize samples) =
      restate (·.display strerror)
        (OpenMso.Encoding.decodeTransition .optimised payload unitsize samples) := by
  have hLoop := decodeFrom_mapError strerror payload unitsize [] 0
  rw [List.drop_zero] at hLoop
  have hReserve : reserve maxSize (samples * unitsize % 2 ^ 64) = .ok () := if_pos (by omega)
  have hCapacity : (withCapacity (samples * unitsize % 2 ^ 64) :
      Call OpenMso.Error (List UInt8)) = .ok [] :=
    withCapacity_of_lt (Nat.lt_trans hSize (by decide))
  rw [decodeTransition, OpenMso.Encoding.decodeTransition]
  rcases Nat.eq_zero_or_pos unitsize with hUnit | hUnit
  · rw [if_pos hUnit, if_pos hUnit, restate_raise, restate_raise, what_protocol strerror]
  · rw [if_neg (Nat.ne_of_gt hUnit), if_neg (Nat.ne_of_gt hUnit), hReserve, mulUsize_optimised]
    change restate _ (lift (decodeFrom payload unitsize [] 0) >>= _) =
      restate _ (withCapacity (samples * unitsize % 2 ^ 64) >>= _)
    rw [hCapacity]
    change _ = restate _ (lift (OpenMso.Encoding.decodeFrom unitsize [] payload) >>= _)
    rw [restate_bind, restate_bind, restate_lift, restate_lift, hLoop]
    refine congrArg _ (funext fun out => ?_)
    change restate _ (ite ..) = restate _ (ite ..)
    split
    · rw [restate_raise, restate_raise, what_protocol strerror]
      have hMiddle : " samples, not the " = " samples, " ++ "not the " := rfl
      change raise (OpenMso.Error.display _ (.protocol _)) =
        raise (OpenMso.Error.display _ (.protocol (("transition payload expands to " ++
          toString (out.length / unitsize) ++ " samples, ") ++
            ("not the " ++ toString samples ++ " declared"))))
      simp only [hMiddle, String.append_assoc]
    · rfl

/-- What a failure to decode says depends on the codec only if the schema names it. -/
theorem decodePayload_of_not_plain (maxSize : Nat) {data : CaptureData} (unitsize : Nat)
    (hCodec : ¬ IsPlainCodec data.codec) :
    decodePayload maxSize data unitsize =
      raise (.protocol (codecName data.codec ++ " is not decodable here")) :=
  if_neg hCodec

theorem restate_of_foreign (maxSize : Nat) {data : CaptureData} (unitsize : Nat)
    (h : IsForeignCodec data.codec) :
    restate Error.what (decodePayload maxSize data unitsize) =
      restate (·.display strerror)
        (OpenMso.Encoding.decodePayload .optimised data unitsize) := by
  have hPlain : ¬ IsPlainCodec data.codec := by
    rintro (hCodec | hCodec) <;> rcases h with h | h <;>
      exact absurd (Codec.toI32_injective (h.symm.trans hCodec)) (by decide)
  rw [decodePayload_of_not_plain maxSize unitsize hPlain, OpenMso.Encoding.decodePayload]
  rcases h with h | h
  · rw [h, codecName, Codec.tryFrom_toI32]
    rfl
  · rw [h, codecName, Codec.tryFrom_toI32]
    rfl

theorem restate_of_plain {maxSize : Nat} (hMax : 2 ^ 62 ≤ maxSize + 1) {data : CaptureData}
    {unitsize : Nat} (hSize : data.sampleCount.toNat * unitsize % 2 ^ 64 < 2 ^ 62)
    (h : IsPlainCodec data.codec) :
    restate Error.what (decodePayload maxSize data unitsize) =
      restate (·.display strerror)
        (OpenMso.Encoding.decodePayload .optimised data unitsize) := by
  have hForeign : ¬ IsForeignCodec data.codec := by
    rintro (hCodec | hCodec) <;> rcases h with h | h <;>
      exact absurd (Codec.toI32_injective (h.symm.trans hCodec)) (by decide)
  rw [OpenMso.Encoding.decodePayload_of_not_foreign .optimised unitsize hForeign]
  split
  · next hEncoding =>
    rw [decodePayload_of_transition maxSize unitsize h hEncoding,
      restate_decodeTransition strerror hMax data.payload hSize]
  · next hEncoding =>
    rw [decodePayload_of_packed maxSize unitsize h hEncoding]
    rfl

/-- What a frontend shows for a chunk, samples or a text, is the same on both stacks, wherever
both can ask for the buffer and have room for what the runs come to, unless the chunk has a
codec that the schema does not name. -/
theorem refused_in_the_same_words (maxSize : Nat) (hMax : 2 ^ 62 ≤ maxSize + 1) (data : CaptureData)
    (unitsize : Nat) (hSize : data.sampleCount.toNat * unitsize % 2 ^ 64 < 2 ^ 62) :
    restate Error.what (decodePayload maxSize data unitsize) =
        restate (·.display strerror) (OpenMso.Encoding.decodePayload .optimised data unitsize) ↔
      ∃ codec, Codec.tryFrom data.codec = some codec := by
  by_cases hPlain : IsPlainCodec data.codec
  · refine iff_of_true (restate_of_plain strerror hMax hSize hPlain) ?_
    rcases hPlain with hCodec | hCodec <;> exact ⟨_, hCodec ▸ Codec.tryFrom_toI32 _⟩
  by_cases hForeign : IsForeignCodec data.codec
  · refine iff_of_true (restate_of_foreign strerror maxSize unitsize hForeign) ?_
    rcases hForeign with hCodec | hCodec <;> exact ⟨_, hCodec ▸ Codec.tryFrom_toI32 _⟩
  have hUnknown : Codec.tryFrom data.codec = none := by
    rw [IsPlainCodec, not_or] at hPlain
    rw [IsForeignCodec, not_or] at hForeign
    rw [Codec.tryFrom, if_neg (show data.codec ≠ 0 from hPlain.2),
      if_neg (show data.codec ≠ 1 from hPlain.1), if_neg (show data.codec ≠ 2 from hForeign.1),
      if_neg (show data.codec ≠ 3 from hForeign.2)]
  refine iff_of_false ?_ (by simp [hUnknown])
  rw [decodePayload_of_not_plain maxSize unitsize hPlain, codecName, hUnknown,
    OpenMso.Encoding.decodePayload_of_not_foreign .optimised unitsize hForeign, restate_raise]
  intro hSame
  split at hSame
  · cases hRust : OpenMso.Encoding.decodeTransition .optimised data.payload unitsize
        data.sampleCount.toNat with
    | ok out =>
      rw [hRust] at hSame
      cases hSame
    | error fault =>
      rw [hRust] at hSame
      cases fault with
      | panic message => cases hSame
      | error e =>
        obtain ⟨message, rfl, hOther⟩ := OpenMso.Encoding.decodeTransition_message hRust
        have hText := Fault.error.inj (Except.error.inj hSame)
        exact hOther ((String.append_right_inj "protocol error: ").mp hText).symm
  · cases hSame

theorem refused_in_the_same_words_truncated_varint :
    restate Error.what
        (decodePayload (2 ^ 63 - 2) ⟨1, 0, 0, 0, 0, 3, 2, 1, 3, [0x80]⟩ 1) =
      restate (·.display fun _ => "Timed out")
        (OpenMso.Encoding.decodePayload .optimised ⟨1, 0, 0, 0, 0, 3, 2, 1, 3, [0x80]⟩ 1) :=
  (refused_in_the_same_words (fun _ => "Timed out") (2 ^ 63 - 2) (by decide)
    ⟨1, 0, 0, 0, 0, 3, 2, 1, 3, [0x80]⟩ 1 (by decide)).mpr ⟨.none, by decide⟩

end OpenMso.Cpp.Encoding
