import Mathlib.Data.Set.Card
import Mathlib.Data.Set.Finite.Lemmas

/-! # Waiting for one another

Members of a finite set wait for one another, and whoever waits for nobody
leaves in time. If waiting goes up a rank, there is always one who waits for
nobody; so the set is empty in the end.
-/

namespace OpenMso.Foundation.Waiting

set_option autoImplicit false

variable {α : Type}

/-- Among those in the set, `a` waits for nobody. -/
def Free (S : Set α) (Waits : α → α → Prop) (a : α) : Prop := ∀ b ∈ S, ¬ Waits a b

theorem exists_free {S : Set α} {Waits : α → α → Prop} (hFinite : S.Finite) (hSome : S.Nonempty)
    (rank : α → Nat) (hRank : ∀ a ∈ S, ∀ b ∈ S, Waits a b → rank a < rank b) :
    ∃ a ∈ S, Free S Waits a := by
  obtain ⟨a, hMem, hMax⟩ := Set.exists_max_image S rank hFinite hSome
  exact ⟨a, hMem, fun b hb hWaits => Nat.not_lt.mpr (hMax b hb) (hRank a hMem b hb hWaits)⟩

section
variable {S : Nat → Set α} (hShrinks : ∀ n, S (n + 1) ⊆ S n)
include hShrinks

theorem subset_of_le {n m : Nat} (h : n ≤ m) : S m ⊆ S n := by
  induction h with
  | refl => exact Set.Subset.rfl
  | step _ ih => exact (hShrinks _).trans ih

/-- As long as there is somebody left, somebody leaves. -/
theorem exists_empty (hFinite : (S 0).Finite)
    (hLeaves : ∀ n, (S n).Nonempty → ∃ a ∈ S n, ∃ m, n ≤ m ∧ a ∉ S m) : ∃ n, S n = ∅ := by
  suffices h : ∀ size n, (S n).ncard = size → ∃ m, S m = ∅ from h _ 0 rfl
  intro size
  induction size using Nat.strongRecOn with
  | ind size ih =>
    intro n hSize
    rcases Set.eq_empty_or_nonempty (S n) with hEmpty | hSome
    · exact ⟨n, hEmpty⟩
    · obtain ⟨a, hMem, m, hLater, hGone⟩ := hLeaves n hSome
      have hSmaller : S m ⊂ S n :=
        (Set.ssubset_iff_of_subset (subset_of_le hShrinks hLater)).mpr ⟨a, hMem, hGone⟩
      have hCard := Set.ncard_lt_ncard hSmaller
        (hFinite.subset (subset_of_le hShrinks (Nat.zero_le n)))
      exact ih _ (hSize ▸ hCard) m rfl

/-- Whoever waits for nobody leaves in time; then all leave, and for good. -/
theorem all_leave (Waits : Nat → α → α → Prop) (hFinite : (S 0).Finite) (rank : Nat → α → Nat)
    (hRank : ∀ n, ∀ a ∈ S n, ∀ b ∈ S n, Waits n a b → rank n a < rank n b)
    (hLeaves : ∀ n, ∀ a ∈ S n, Free (S n) (Waits n) a → ∃ m, n ≤ m ∧ a ∉ S m) :
    ∃ n, ∀ m, n ≤ m → S m = ∅ := by
  have hSome : ∀ n, (S n).Nonempty → ∃ a ∈ S n, ∃ m, n ≤ m ∧ a ∉ S m := by
    intro n hSome
    obtain ⟨a, hMem, hFree⟩ := exists_free
      (hFinite.subset (subset_of_le hShrinks (Nat.zero_le n))) hSome (rank n) (hRank n)
    exact ⟨a, hMem, hLeaves n a hMem hFree⟩
  obtain ⟨n, hEmpty⟩ := exists_empty hShrinks hFinite hSome
  exact ⟨n, fun m hLater => Set.subset_eq_empty (subset_of_le hShrinks hLater) hEmpty⟩

end

end OpenMso.Foundation.Waiting
