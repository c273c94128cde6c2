import OpenMso.Encoding.PayloadSize
import OpenMso.Encoding.WireSizes

/-! # Which chunks are refused

Both fields of a chunk are open enumerations. A number that names no
enumerator is taken for `UNSPECIFIED` in Rust, which both matches let through;
the C++ match on the codec has a default that refuses it.
-/

namespace OpenMso.Encoding

open Foundation.Machine Proto

set_option autoImplicit false

/-- An encoding whose samples either path hands out. -/
def IsKnownEncoding (encoding : Int32) : Prop :=
  encoding = SampleEncoding.packed.toI32 ∨ encoding = SampleEncoding.transition.toI32 ∨
    encoding = SampleEncoding.unspecified.toI32

/-- A codec the schema names and this crate does not implement. -/
def IsForeignCodec (codec : Int32) : Prop :=
  codec = Codec.zstd.toI32 ∨ codec = Codec.heatshrink.toI32

/-- The declared size, as the build multiplies it out, is one that can be asked for, and
`payload` is no run-length payload of that size; or there is no sample to speak of. -/
def IsMalformed (build : Build) (unitsize samples : Nat) (payload : List UInt8) : Prop :=
  unitsize = 0 ∨ ∃ size, (mulUsize build samples unitsize : Call Error Nat) = .ok size ∧
    size < 2 ^ 63 ∧ ∀ records : List (Record unitsize), payload = records.flatMap Record.bytes →
      (∀ record ∈ records, record.wrapped ≠ 0) →
        (records.map Record.wrapped).sum * unitsize ≠ size

theorem decodeTransition_eq_error_iff (build : Build) (payload : List UInt8)
    (unitsize samples : Nat) :
    (∃ e, decodeTransition build payload unitsize samples = .error (.error e)) ↔
      IsMalformed build unitsize samples payload := by
  rcases Nat.eq_zero_or_pos unitsize with rfl | hUnit
  · exact iff_of_true ⟨_, decodeTransition_of_zero build payload samples⟩ (.inl rfl)
  rcases mulUsize_cases Error build samples unitsize with ⟨size, hMul⟩ | ⟨message, hMul⟩
  · by_cases hSize : size < 2 ^ 63
    · rw [decodeTransition_of_mul payload hUnit hMul hSize]
      constructor
      · rintro ⟨e, hError⟩
        refine .inr ⟨size, hMul, hSize, fun records hPayload hWrapped hSum => ?_⟩
        have hLoop : decodeFrom unitsize [] payload = .ok (expandBy Record.wrapped records) :=
          decodeFrom_eq_ok_iff.mpr ⟨records, hPayload, hWrapped, rfl⟩
        rw [hLoop] at hError
        dsimp only at hError
        rw [if_pos (by rw [length_expandBy, hSum])] at hError
        cases hError
      · rintro (hZero | ⟨size', hMul', -, hNone⟩)
        · omega
        · obtain rfl : size = size' := Except.ok.inj (hMul.symm.trans hMul')
          cases hLoop : decodeFrom unitsize [] payload with
          | error e => exact ⟨e, rfl⟩
          | ok out =>
            obtain ⟨records, hPayload, hWrapped, rfl⟩ := decodeFrom_eq_ok_iff.mp hLoop
            have hLength := hNone records hPayload hWrapped
            dsimp only
            rw [if_neg (by rwa [List.nil_append, length_expandBy])]
            exact ⟨_, rfl⟩
    · rw [decodeTransition_of_capacity payload hUnit hMul (Nat.le_of_not_lt hSize)]
      refine iff_of_false (by rintro ⟨e, h⟩; cases h) ?_
      rintro (hZero | ⟨size', hMul', hSmall, -⟩)
      · omega
      · obtain rfl : size = size' := Except.ok.inj (hMul.symm.trans hMul')
        exact hSize hSmall
  · rw [decodeTransition_of_mul_panic payload hUnit hMul]
    refine iff_of_false (by rintro ⟨e, h⟩; cases h) ?_
    rintro (hZero | ⟨size, hMul', -⟩)
    · omega
    · rw [hMul] at hMul'
      cases hMul'

theorem getD_tryFrom_codec {codec : Int32} (h : ¬ IsForeignCodec codec) :
    (Codec.tryFrom codec).getD .unspecified = .none ∨
      (Codec.tryFrom codec).getD .unspecified = .unspecified := by
  rw [IsForeignCodec, not_or] at h
  have hZstd : codec ≠ 2 := h.1
  have hHeatshrink : codec ≠ 3 := h.2
  unfold Codec.tryFrom
  rw [if_neg hZstd, if_neg hHeatshrink]
  split
  · exact .inr rfl
  · split
    · exact .inl rfl
    · exact .inr rfl

theorem getD_tryFrom_encoding {encoding : Int32} (h : encoding ≠ SampleEncoding.transition.toI32) :
    (SampleEncoding.tryFrom encoding).getD .unspecified = .packed ∨
      (SampleEncoding.tryFrom encoding).getD .unspecified = .unspecified := by
  have hTransition : encoding ≠ 2 := h
  unfold SampleEncoding.tryFrom
  rw [if_neg hTransition]
  split
  · exact .inr rfl
  · split
    · exact .inl rfl
    · exact .inr rfl

theorem decodePayload_of_foreign (build : Build) {data : CaptureData} (unitsize : Nat)
    (h : IsForeignCodec data.codec) :
    ∃ e, decodePayload build data unitsize = .error (.error e) := by
  rw [decodePayload]
  rcases h with h | h
  · rw [h, Codec.tryFrom_toI32]
    exact ⟨_, rfl⟩
  · rw [h, Codec.tryFrom_toI32]
    exact ⟨_, rfl⟩

theorem decodePayload_of_not_foreign (build : Build) {data : CaptureData} (unitsize : Nat)
    (h : ¬ IsForeignCodec data.codec) :
    decodePayload build data unitsize =
      if data.encoding = SampleEncoding.transition.toI32 then
        decodeTransition build data.payload unitsize data.sampleCount.toNat
      else .ok data.payload := by
  rw [decodePayload]
  by_cases hEncoding : data.encoding = SampleEncoding.transition.toI32
  · rw [if_pos hEncoding, hEncoding, SampleEncoding.tryFrom_toI32]
    rcases getD_tryFrom_codec h with hCodec | hCodec <;> rw [hCodec] <;> rfl
  · rw [if_neg hEncoding]
    rcases getD_tryFrom_codec h with hCodec | hCodec <;>
      rcases getD_tryFrom_encoding hEncoding with hPacked | hPacked <;> rw [hCodec, hPacked]

/-- What cannot be decoded is refused: a codec other than the plain ones, an encoding
other than those of the schema. -/
def RefusesUndecodable (build : Build) (data : CaptureData) (unitsize : Nat) : Prop :=
  ¬ IsPlainCodec data.codec ∨ ¬ IsKnownEncoding data.encoding →
    ∃ e, decodePayload build data unitsize = .error (.error e)

theorem refusesUndecodable_iff (build : Build) (data : CaptureData) (unitsize : Nat) :
    RefusesUndecodable build data unitsize ↔
      IsForeignCodec data.codec ∨ IsPlainCodec data.codec ∧ IsKnownEncoding data.encoding ∨
        ¬ IsPlainCodec data.codec ∧ data.encoding = SampleEncoding.transition.toI32 ∧
          IsMalformed build unitsize data.sampleCount.toNat data.payload := by
  by_cases hForeign : IsForeignCodec data.codec
  · exact iff_of_true (fun _ => decodePayload_of_foreign build unitsize hForeign) (.inl hForeign)
  rw [RefusesUndecodable, decodePayload_of_not_foreign build unitsize hForeign]
  by_cases hEncoding : data.encoding = SampleEncoding.transition.toI32
  · have hKnown : IsKnownEncoding SampleEncoding.transition.toI32 := .inr (.inl rfl)
    rw [if_pos hEncoding, decodeTransition_eq_error_iff, hEncoding]
    by_cases hPlain : IsPlainCodec data.codec <;> simp [hForeign, hPlain, hKnown]
  · rw [if_neg hEncoding]
    have hNever : ¬ ∃ e, (.ok data.payload : Call Error (List UInt8)) = .error (.error e) := by
      rintro ⟨e, h⟩
      cases h
    simp [hForeign, hEncoding, not_or]

end OpenMso.Encoding

namespace OpenMso.Cpp.Encoding

open Foundation.Machine Proto
open OpenMso.Encoding (IsPlainCodec IsKnownEncoding)

set_option autoImplicit false

def RefusesUndecodable (maxSize : Nat) (data : CaptureData) (unitsize : Nat) : Prop :=
  ¬ IsPlainCodec data.codec ∨ ¬ IsKnownEncoding data.encoding →
    ∃ e, decodePayload maxSize data unitsize = .error (.error e)

/-- The C++ match on the codec refuses what it does not know; the one on the encoding
hands it out. -/
theorem refusesUndecodable_iff (maxSize : Nat) (data : CaptureData) (unitsize : Nat) :
    RefusesUndecodable maxSize data unitsize ↔
      ¬ IsPlainCodec data.codec ∨ IsKnownEncoding data.encoding := by
  rw [RefusesUndecodable]
  by_cases hPlain : IsPlainCodec data.codec
  · by_cases hEncoding : data.encoding = SampleEncoding.transition.toI32
    · have hKnown : IsKnownEncoding data.encoding := .inr (.inl hEncoding)
      simp [hPlain, hKnown]
    · rw [decodePayload_of_packed maxSize unitsize hPlain hEncoding]
      simp [hPlain]
  · have hCodec : ¬(data.codec = Codec.none.toI32 ∨ data.codec = Codec.unspecified.toI32) := hPlain
    have hError : ∃ e, decodePayload maxSize data unitsize = .error (.error e) := by
      rw [decodePayload, if_neg hCodec]
      exact ⟨_, rfl⟩
    simp [hPlain, hError]

end OpenMso.Cpp.Encoding

namespace OpenMso.Encoding

open Foundation.Machine Proto

/-- In Rust a number that names no enumerator slips through, except where the run-length
path happens to refuse the payload; in C++ only an encoding does. -/
theorem undecodable_refused_iff (build : Build) (maxSize : Nat) (data : CaptureData)
    (unitsize : Nat) :
    (RefusesUndecodable build data unitsize ↔
      IsForeignCodec data.codec ∨ IsPlainCodec data.codec ∧ IsKnownEncoding data.encoding ∨
        ¬ IsPlainCodec data.codec ∧ data.encoding = SampleEncoding.transition.toI32 ∧
          IsMalformed build unitsize data.sampleCount.toNat data.payload) ∧
    (Cpp.Encoding.RefusesUndecodable maxSize data unitsize ↔
      ¬ IsPlainCodec data.codec ∨ IsKnownEncoding data.encoding) :=
  ⟨refusesUndecodable_iff build data unitsize,
    Cpp.Encoding.refusesUndecodable_iff maxSize data unitsize⟩

/-- A newer peer's codec: four compressed bytes are handed out as samples. -/
theorem unknown_codec_is_handed_out :
    decodePayload .optimised
        ⟨1, 0, 0, 0, 0, 4, SampleEncoding.packed.toI32, 4, 4, [0x04, 0x22, 0x4d, 0x18]⟩ 1 =
        .ok [0x04, 0x22, 0x4d, 0x18] ∧
      ¬ RefusesUndecodable .optimised
        ⟨1, 0, 0, 0, 0, 4, SampleEncoding.packed.toI32, 4, 4, [0x04, 0x22, 0x4d, 0x18]⟩ 1 := by
  have hOk : decodePayload .optimised
      ⟨1, 0, 0, 0, 0, 4, SampleEncoding.packed.toI32, 4, 4, [0x04, 0x22, 0x4d, 0x18]⟩ 1 =
      .ok [0x04, 0x22, 0x4d, 0x18] := by decide
  refine ⟨hOk, fun h => ?_⟩
  have hCodec : ¬ IsPlainCodec 4 := by
    rintro (h | h) <;> exact absurd h (by decide)
  obtain ⟨e, hError⟩ := h (.inl hCodec)
  rw [hOk] at hError
  cases hError

end OpenMso.Encoding
