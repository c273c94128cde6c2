import Mathlib.Data.List.Nodup

/-! # Lists in order of preference

A side lists what it supports, the best first, and one member is mandatory.
What it shares with a peer is what the peer accepts of it and the mandatory
member, in that order of preference.
-/

namespace OpenMso.Foundation

set_option autoImplicit false

theorem append_singleton_eq_cons_iff {α : Type} {l : List α} {a : α} (h : a ∉ l) :
    l ++ [a] = a :: l ↔ l = [] := by
  constructor
  · intro hEq
    cases l with
    | nil => rfl
    | cons first rest =>
      obtain rfl := (List.cons.inj hEq).1
      exact absurd List.mem_cons_self h
  · rintro rfl
    rfl

structure Preference (α : Type) (mandatory : α) where
  members : List α
  nodup : members.Nodup
  mandatory_mem : mandatory ∈ members

namespace Preference

def map {α β : Type} {mandatory : α} (p : Preference α mandatory) (f : α → β)
    (hf : Function.Injective f) : Preference β (f mandatory) where
  members := p.members.map f
  nodup := p.nodup.map hf
  mandatory_mem := List.mem_map_of_mem p.mandatory_mem

variable {α : Type} [DecidableEq α] {mandatory : α} (p : Preference α mandatory)

def shared (accept : List α) : List α := p.members.filter fun s => s = mandatory ∨ s ∈ accept

/-- Nothing that is accepted comes after the mandatory member, unless that is accepted too. -/
def KeepsPlace (accept : List α) : Prop :=
  mandatory ∈ accept ∨ ∀ s ∈ p.members.dropWhile (· ≠ mandatory), s ∉ accept

variable {p} {accept : List α}

theorem mem_shared {s : α} :
    s ∈ p.shared accept ↔ s ∈ p.members ∧ (s = mandatory ∨ s ∈ accept) := by
  rw [shared, List.mem_filter, decide_eq_true_iff]

theorem mandatory_mem_shared : mandatory ∈ p.shared accept :=
  mem_shared.mpr ⟨p.mandatory_mem, .inl rfl⟩

theorem shared_shared : p.shared (p.shared accept) = p.shared accept := by
  apply List.filter_congr
  intro s hs
  simp only [mem_shared, hs, true_and]
  simp

theorem filter_eq_shared (h : mandatory ∈ accept) :
    p.members.filter (· ∈ accept) = p.shared accept := by
  apply List.filter_congr
  intro s _
  rw [decide_eq_decide]
  constructor
  · exact .inr
  · rintro (rfl | hs)
    · exact h
    · exact hs

/-- Put at the end, the mandatory member is out of place if something accepted comes after it. -/
theorem filter_append_eq_shared_iff (h : mandatory ∉ accept) :
    p.members.filter (· ∈ accept) ++ [mandatory] = p.shared accept ↔
      ∀ s ∈ p.members.dropWhile (· ≠ mandatory), s ∉ accept := by
  obtain ⟨better, worse, hMembers, hBetter⟩ := List.eq_append_cons_of_mem p.mandatory_mem
  have hNodup := p.nodup
  rw [hMembers] at hNodup
  have hWorse : mandatory ∉ worse := (List.nodup_cons.mp (List.nodup_append.mp hNodup).2.1).1
  have hFilter : ∀ l : List α, mandatory ∉ l →
      (l.filter fun s => s = mandatory ∨ s ∈ accept) = l.filter (· ∈ accept) := by
    intro l hl
    apply List.filter_congr
    intro s hs
    rw [decide_eq_decide, or_iff_right]
    rintro rfl
    exact hl hs
  have hDrop : p.members.dropWhile (· ≠ mandatory) = mandatory :: worse := by
    rw [hMembers, List.dropWhile_append_of_pos]
    · simp
    · intro s hs
      exact decide_eq_true (ne_of_mem_of_not_mem hs hBetter)
  have hRest : mandatory ∉ worse.filter (· ∈ accept) := fun hMem => hWorse (List.mem_filter.mp hMem).1
  rw [shared, hDrop, hMembers, List.filter_append, List.filter_append, hFilter better hBetter,
    List.append_assoc, List.append_cancel_left_eq, List.filter_cons_of_neg (by simpa using h),
    List.filter_cons_of_pos (by simp), hFilter worse hWorse, append_singleton_eq_cons_iff hRest,
    List.forall_mem_cons, and_iff_right h, List.filter_eq_nil_iff]
  simp only [decide_eq_true_eq]

theorem keepsPlace_of_last (better : List α) (h : p.members = better ++ [mandatory]) :
    p.KeepsPlace accept := by
  have hBetter : mandatory ∉ better := by
    have hNodup := p.nodup
    rw [h, List.nodup_append] at hNodup
    exact fun hMem => hNodup.2.2 _ hMem _ (List.mem_singleton_self mandatory) rfl
  have hDrop : p.members.dropWhile (· ≠ mandatory) = [mandatory] := by
    rw [h, List.dropWhile_append_of_pos]
    · simp
    · intro s hs
      exact decide_eq_true (ne_of_mem_of_not_mem hs hBetter)
  rw [KeepsPlace, hDrop, List.forall_mem_singleton]
  exact em _

end Preference

end OpenMso.Foundation
