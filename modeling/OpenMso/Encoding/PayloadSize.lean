import OpenMso.Cpp.EncodingAgreement

/-! # The size of a decoded chunk

The run-length path counts what it expanded; the packed path hands out the
payload whatever its length. Both stacks do the same.
-/

namespace OpenMso.Encoding

open Foundation.Machine Proto

set_option autoImplicit false

/-- A codec that leaves the payload as it is. -/
def IsPlainCodec (codec : Int32) : Prop :=
  codec = Codec.none.toI32 ∨ codec = Codec.unspecified.toI32

theorem decodePayload_of_packed (build : Build) {data : CaptureData} (unitsize : Nat)
    (hCodec : IsPlainCodec data.codec) (hEncoding : data.encoding = SampleEncoding.packed.toI32 ∨
      data.encoding = SampleEncoding.unspecified.toI32) :
    decodePayload build data unitsize = .ok data.payload := by
  rw [decodePayload]
  rcases hCodec with hCodec | hCodec <;> rcases hEncoding with hEncoding | hEncoding <;>
    rw [hCodec, hEncoding, Codec.tryFrom_toI32, SampleEncoding.tryFrom_toI32] <;> rfl

theorem decodePayload_of_transition (build : Build) {data : CaptureData} (unitsize : Nat)
    (hCodec : IsPlainCodec data.codec) (hEncoding : data.encoding = SampleEncoding.transition.toI32) :
    decodePayload build data unitsize =
      decodeTransition build data.payload unitsize data.sampleCount.toNat := by
  rw [decodePayload]
  rcases hCodec with hCodec | hCodec <;>
    rw [hCodec, hEncoding, Codec.tryFrom_toI32, SampleEncoding.tryFrom_toI32] <;> rfl

theorem length_decodeTransition {build : Build} {payload out : List UInt8}
    {unitsize samples : Nat} (hUnit : 0 < unitsize) (hSize : samples * unitsize < 2 ^ 63)
    (h : decodeTransition build payload unitsize samples = .ok out) :
    out.length = samples * unitsize := by
  obtain ⟨records, _, _, hSum, rfl⟩ := (decodeTransition_eq_ok_iff hUnit hSize).mp h
  rw [length_expandBy, hSum]

end OpenMso.Encoding

namespace OpenMso.Cpp.Encoding

open Foundation.Machine Proto
open OpenMso.Encoding (IsPlainCodec)

set_option autoImplicit false

theorem decodePayload_of_packed (maxSize : Nat) {data : CaptureData} (unitsize : Nat)
    (hCodec : IsPlainCodec data.codec)
    (hEncoding : data.encoding ≠ SampleEncoding.transition.toI32) :
    decodePayload maxSize data unitsize = .ok data.payload := by
  unfold IsPlainCodec at hCodec
  rw [decodePayload, if_pos hCodec, if_neg hEncoding]

theorem decodePayload_of_transition (maxSize : Nat) {data : CaptureData} (unitsize : Nat)
    (hCodec : IsPlainCodec data.codec)
    (hEncoding : data.encoding = SampleEncoding.transition.toI32) :
    decodePayload maxSize data unitsize =
      decodeTransition maxSize data.payload unitsize data.sampleCount.toNat := by
  unfold IsPlainCodec at hCodec
  rw [decodePayload, if_pos hCodec, if_pos hEncoding]

theorem length_decodeTransition {maxSize : Nat} {payload out : List UInt8} {unitsize samples : Nat}
    (h : decodeTransition maxSize payload unitsize samples = .ok out) :
    out.length = samples * unitsize % 2 ^ 64 := by
  rw [decodeTransition] at h
  split at h
  · cases h
  · obtain ⟨_, _, h⟩ := bind_eq_ok_iff.mp h
    obtain ⟨result, _, h⟩ := bind_eq_ok_iff.mp h
    split at h
    · cases h
    · rename_i hLength
      cases h
      exact Decidable.not_not.mp hLength

end OpenMso.Cpp.Encoding

namespace OpenMso.Encoding

open Foundation.Machine Proto

/-- A chunk is decoded to its declared size exactly when it is run-length coded or
its payload already has that size: the packed path checks nothing. -/
theorem length_decodePayload_iff (build : Build) (maxSize : Nat) (data : CaptureData) (unitsize : Nat)
    (hUnit : 0 < unitsize) (hSize : data.sampleCount.toNat * unitsize < 2 ^ 63)
    (hCodec : IsPlainCodec data.codec)
    (hEncoding : data.encoding = SampleEncoding.packed.toI32 ∨
      data.encoding = SampleEncoding.transition.toI32 ∨
      data.encoding = SampleEncoding.unspecified.toI32) :
    ((∀ bytes, decodePayload build data unitsize = .ok bytes →
        bytes.length = data.sampleCount.toNat * unitsize) ↔
      data.encoding = SampleEncoding.transition.toI32 ∨
        data.payload.length = data.sampleCount.toNat * unitsize) ∧
    ((∀ bytes, Cpp.Encoding.decodePayload maxSize data unitsize = .ok bytes →
        bytes.length = data.sampleCount.toNat * unitsize) ↔
      data.encoding = SampleEncoding.transition.toI32 ∨
        data.payload.length = data.sampleCount.toNat * unitsize) := by
  by_cases hTransition : data.encoding = SampleEncoding.transition.toI32
  · refine ⟨iff_of_true ?_ (.inl hTransition), iff_of_true ?_ (.inl hTransition)⟩
    · intro bytes h
      rw [decodePayload_of_transition build unitsize hCodec hTransition] at h
      exact length_decodeTransition hUnit hSize h
    · intro bytes h
      rw [Cpp.Encoding.decodePayload_of_transition maxSize unitsize hCodec hTransition] at h
      rw [Cpp.Encoding.length_decodeTransition h,
        Nat.mod_eq_of_lt (Nat.lt_trans hSize (by decide))]
  · have hPacked : data.encoding = SampleEncoding.packed.toI32 ∨
        data.encoding = SampleEncoding.unspecified.toI32 := by
      rcases hEncoding with h | h | h
      · exact .inl h
      · exact absurd h hTransition
      · exact .inr h
    rw [decodePayload_of_packed build unitsize hCodec hPacked,
      Cpp.Encoding.decodePayload_of_packed maxSize unitsize hCodec hTransition]
    simp [hTransition]

theorem length_decodePayload_iff_run_length_chunk :
    (∀ bytes, decodePayload .checked
        ⟨1, 0, 0, 0, 0, 4, SampleEncoding.transition.toI32, Codec.none.toI32, 4, [3, 1, 1, 2]⟩ 1 =
        .ok bytes → bytes.length = 4) ↔
      SampleEncoding.transition.toI32 = SampleEncoding.transition.toI32 ∨ 4 = 4 :=
  (length_decodePayload_iff .checked 0
    ⟨1, 0, 0, 0, 0, 4, SampleEncoding.transition.toI32, Codec.none.toI32, 4, [3, 1, 1, 2]⟩ 1
    (by decide) (by decide) (.inl rfl) (.inr (.inl rfl))).1

/-- One byte handed out for a chunk that declares four samples of one byte. -/
theorem short_packed_chunk_is_handed_out :
    decodePayload .optimised ⟨1, 0, 0, 0, 0, 4, SampleEncoding.packed.toI32, Codec.none.toI32, 1, [9]⟩ 1 =
        .ok [9] ∧
      Cpp.Encoding.decodePayload (2 ^ 63 - 2)
        ⟨1, 0, 0, 0, 0, 4, SampleEncoding.packed.toI32, Codec.none.toI32, 1, [9]⟩ 1 = .ok [9] ∧
      [(9 : UInt8)].length ≠ (4 : UInt64).toNat * 1 := by
  refine ⟨?_, ?_, by decide⟩
  · exact decodePayload_of_packed .optimised 1 (.inl rfl) (.inl rfl)
  · exact Cpp.Encoding.decodePayload_of_packed _ 1 (.inl rfl) (by decide)

end OpenMso.Encoding
