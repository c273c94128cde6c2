import OpenMso.Cpp.EncodingAgreement
import OpenMso.Foundation.Preference

/-! # Negotiation and the order of preference

`intersect` puts a mandatory member that the peer did not name at the end of
the result, wherever it is in the list of what is supported.
-/

namespace OpenMso.Encoding

open Foundation Proto

set_option autoImplicit false

theorem intersect_eq_shared_iff {mandatory : Int32} (supported : Preference Int32 mandatory)
    (accept : List Int32) :
    intersect accept supported.members mandatory = supported.shared accept ↔
      supported.KeepsPlace accept := by
  have hFilter : (supported.members.filter fun s => accept.contains s) =
      supported.members.filter (· ∈ accept) := by
    simp only [List.contains_eq_mem]
  by_cases hAccept : mandatory ∈ accept
  · have hMem : mandatory ∈ supported.shared accept := Preference.mandatory_mem_shared
    have hNe : accept ≠ [] := List.ne_nil_of_mem hAccept
    rw [intersect, if_neg hNe, hFilter, Preference.filter_eq_shared hAccept]
    dsimp only
    rw [if_pos (List.contains_iff_mem.mpr hMem)]
    exact iff_of_true rfl (.inl hAccept)
  · have hIntersect : intersect accept supported.members mandatory =
        supported.members.filter (· ∈ accept) ++ [mandatory] := by
      rw [intersect, hFilter]
      split
      · rename_i hEmpty
        simp [hEmpty]
      · dsimp only
        rw [if_neg]
        intro hContains
        have hMem := List.contains_iff_mem.mp hContains
        exact hAccept (of_decide_eq_true (List.mem_filter.mp hMem).2)
    rw [hIntersect, Preference.filter_append_eq_shared_iff hAccept, Preference.KeepsPlace,
      or_iff_right hAccept]

theorem mem_intersect {accept supported : List Int32} {mandatory s : Int32}
    (h : s ∈ intersect accept supported mandatory) : s = mandatory ∨ s ∈ accept := by
  rw [intersect] at h
  split at h
  · exact .inl (List.mem_singleton.mp h)
  · dsimp only at h
    split at h
    · exact .inr (List.contains_iff_mem.mp (List.mem_filter.mp h).2)
    · rcases List.mem_append.mp h with h | h
      · exact .inr (List.contains_iff_mem.mp (List.mem_filter.mp h).2)
      · exact .inl (List.mem_singleton.mp h)

theorem mandatory_mem_intersect (accept supported : List Int32) (mandatory : Int32) :
    mandatory ∈ intersect accept supported mandatory := by
  rw [intersect]
  split
  · exact List.mem_singleton_self mandatory
  · dsimp only
    split
    · rename_i hContains
      exact List.contains_iff_mem.mp hContains
    · exact List.mem_append_right _ (List.mem_singleton_self mandatory)

theorem intersect_perm {accept other : List Int32} (h : other.Perm accept)
    (supported : List Int32) (mandatory : Int32) :
    intersect other supported mandatory = intersect accept supported mandatory := by
  have hContains : ∀ s, other.contains s = accept.contains s := by
    intro s
    rw [Bool.eq_iff_iff, List.contains_iff_mem, List.contains_iff_mem, h.mem_iff]
  have hEmpty : other = [] ↔ accept = [] := by
    rw [← List.length_eq_zero_iff, h.length_eq, List.length_eq_zero_iff]
  simp only [intersect, hContains, hEmpty]

/-- What `negotiate` returns for `accept` is what the two sides share, in our order of
preference: never empty, whatever the order of `accept`, and the same when sent back. -/
structure KeepsPreference (negotiate : List Int32 → List Int32) {mandatory : Int32}
    (supported : Preference Int32 mandatory) (accept : List Int32) : Prop where
  eq_shared : negotiate accept = supported.members.filter fun s => s = mandatory ∨ s ∈ accept
  nodup : (negotiate accept).Nodup
  ne_nil : negotiate accept ≠ []
  accepted : ∀ s ∈ negotiate accept, s = mandatory ∨ s ∈ accept
  perm : ∀ other, other.Perm accept → negotiate other = negotiate accept
  again : negotiate (negotiate accept) = negotiate accept

theorem intersect_keepsPreference_iff {mandatory : Int32} (supported : Preference Int32 mandatory)
    (accept : List Int32) :
    KeepsPreference (fun accept => intersect accept supported.members mandatory) supported accept ↔
      supported.KeepsPlace accept := by
  rw [← intersect_eq_shared_iff]
  constructor
  · exact KeepsPreference.eq_shared
  · intro h
    refine ⟨h, ?_, ?_, fun s => mem_intersect, fun other hPerm => intersect_perm hPerm _ _, ?_⟩
    · rw [h]
      exact supported.nodup.filter _
    · exact List.ne_nil_of_mem (mandatory_mem_intersect accept supported.members mandatory)
    · rw [h, (intersect_eq_shared_iff supported _).mpr (.inl Preference.mandatory_mem_shared)]
      exact Preference.shared_shared

def encodingNumbers (supported : Preference SampleEncoding .packed) :
    Preference Int32 SampleEncoding.packed.toI32 :=
  supported.map SampleEncoding.toI32 SampleEncoding.toI32_injective

def codecNumbers (supported : Preference Codec .none) : Preference Int32 Codec.none.toI32 :=
  supported.map Codec.toI32 Codec.toI32_injective

/-- The lists of this crate have the mandatory member last. -/
theorem own_lists_keep_preference (accept : List Int32) :
    KeepsPreference (negotiateEncodings · encodings)
        (encodingNumbers ⟨encodings, by decide, by decide⟩) accept ∧
      KeepsPreference (negotiateCodecs · codecs) (codecNumbers ⟨codecs, by decide, by decide⟩)
        accept := by
  constructor
  · exact (intersect_keepsPreference_iff (encodingNumbers ⟨encodings, _, _⟩) accept).mpr
      (Preference.keepsPlace_of_last [SampleEncoding.transition.toI32] rfl)
  · exact (intersect_keepsPreference_iff (codecNumbers ⟨codecs, _, _⟩) accept).mpr
      (Preference.keepsPlace_of_last [] rfl)

/-- In both stacks, negotiation keeps the order of preference exactly when the mandatory member
keeps its place. -/
theorem negotiation_keeps_preference_iff (accept : List Int32)
    (supported : Preference SampleEncoding .packed) (codecs : Preference Codec .none) :
    (KeepsPreference (negotiateEncodings · supported.members) (encodingNumbers supported) accept ↔
      (encodingNumbers supported).KeepsPlace accept) ∧
    (KeepsPreference (negotiateCodecs · codecs.members) (codecNumbers codecs) accept ↔
      (codecNumbers codecs).KeepsPlace accept) ∧
    (KeepsPreference (Cpp.Encoding.negotiateEncodings · supported.members)
        (encodingNumbers supported) accept ↔ (encodingNumbers supported).KeepsPlace accept) ∧
    (KeepsPreference (Cpp.Encoding.negotiateCodecs · codecs.members) (codecNumbers codecs) accept ↔
      (codecNumbers codecs).KeepsPlace accept) := by
  have hEncodings := intersect_keepsPreference_iff (encodingNumbers supported) accept
  have hCodecs := intersect_keepsPreference_iff (codecNumbers codecs) accept
  have hCppEncodings : (Cpp.Encoding.negotiateEncodings · supported.members) =
      fun accept => intersect accept (encodingNumbers supported).members _ :=
    funext fun accept => Cpp.Encoding.intersect_agrees accept _ _
  have hCppCodecs : (Cpp.Encoding.negotiateCodecs · codecs.members) =
      fun accept => intersect accept (codecNumbers codecs).members _ :=
    funext fun accept => Cpp.Encoding.intersect_agrees accept _ _
  rw [hCppEncodings, hCppCodecs]
  exact ⟨hEncodings, hCodecs, hEncodings, hCodecs⟩

/-- A plugin that would rather send verbatim samples, and a frontend that names only the other
encoding: the mandatory member comes last, and first when the result is negotiated again. -/
theorem mandatory_member_loses_its_place :
    negotiateEncodings [2] [.packed, .transition] = [2, 1] ∧
      negotiateEncodings [2, 1] [.packed, .transition] = [1, 2] ∧
      ¬ KeepsPreference (negotiateEncodings · [.packed, .transition])
        (encodingNumbers ⟨[.packed, .transition], by decide, by decide⟩) [2] := by
  refine ⟨by decide, by decide, fun h => ?_⟩
  have hAgain : negotiateEncodings (negotiateEncodings [2] [.packed, .transition])
      [.packed, .transition] = negotiateEncodings [2] [.packed, .transition] := h.again
  exact absurd hAgain (by decide)

end OpenMso.Encoding
