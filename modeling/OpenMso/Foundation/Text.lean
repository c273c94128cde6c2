import Mathlib.Data.List.Destutter
import Mathlib.Data.List.TakeWhile

/-! # Strings cut at a character, and runs of one

`splitOnce` cuts a string at the first of a character; `cStr` is what is left
of one that is passed with nothing but its end marked. `collapse` keeps one of
several in a row: what repeated separators in a path come to.
-/

namespace OpenMso.Foundation.Text

set_option autoImplicit false

def splitOnce (s : String) (c : Char) : Option (String × String) :=
  match s.toList.dropWhile (· ≠ c) with
  | [] => none
  | _ :: after => some (.ofList (s.toList.takeWhile (· ≠ c)), .ofList after)

theorem splitOnce_eq_some_iff {s front after : String} {c : Char} :
    splitOnce s c = some (front, after) ↔
      c ∉ front.toList ∧ s.toList = front.toList ++ c :: after.toList := by
  constructor
  · intro h
    rw [splitOnce] at h
    split at h
    · cases h
    · rename_i d tail hDrop
      cases h
      have hHead := List.head_dropWhile_not (fun x => decide (x ≠ c)) (l := s.toList)
        (by rw [hDrop]; exact List.cons_ne_nil d tail)
      simp only [hDrop, List.head_cons, decide_eq_false_iff_not, not_not] at hHead
      constructor
      · rw [String.toList_ofList]
        intro hMem
        have hNe := List.mem_takeWhile_imp hMem
        exact of_decide_eq_true hNe rfl
      · rw [hHead] at hDrop
        rw [String.toList_ofList, String.toList_ofList, ← hDrop, List.takeWhile_append_dropWhile]
  · rintro ⟨hFront, hList⟩
    have hNe : ∀ x ∈ front.toList, decide (x ≠ c) = true :=
      fun x hx => decide_eq_true (ne_of_mem_of_not_mem hx hFront)
    have hDrop : s.toList.dropWhile (· ≠ c) = c :: after.toList := by
      rw [hList, List.dropWhile_append_of_pos hNe]
      simp
    have hTake : s.toList.takeWhile (· ≠ c) = front.toList := by
      rw [hList, List.takeWhile_append_of_pos hNe]
      simp
    rw [splitOnce, hDrop]
    dsimp only
    rw [hTake, String.ofList_toList, String.ofList_toList]

theorem splitOnce_eq_none_iff {s : String} {c : Char} : splitOnce s c = none ↔ c ∉ s.toList := by
  have hDrop : s.toList.dropWhile (· ≠ c) = [] ↔ c ∉ s.toList := by
    rw [List.dropWhile_eq_nil_iff]
    constructor
    · exact fun h hMem => absurd rfl (of_decide_eq_true (h c hMem))
    · exact fun h x hx => decide_eq_true (ne_of_mem_of_not_mem hx h)
  rw [← hDrop, splitOnce]
  split
  · rename_i hNil
    exact iff_of_true rfl hNil
  · rename_i hCons
    rw [hCons]
    exact iff_of_false (Option.some_ne_none _) (List.cons_ne_nil _ _)

def nul : Char := Char.ofNat 0

/-- A string up to its first NUL. -/
def cStr (s : String) : String := .ofList (s.toList.takeWhile (· ≠ nul))

theorem cStr_append {s : String} (h : nul ∉ s.toList) (t : String) :
    cStr (s ++ t) = s ++ cStr t := by
  apply String.toList_inj.mp
  rw [cStr, cStr, String.toList_ofList, String.toList_append, String.toList_append,
    String.toList_ofList]
  exact List.takeWhile_append_of_pos fun x hx => decide_eq_true (ne_of_mem_of_not_mem hx h)

theorem cStr_eq_self {s : String} (h : nul ∉ s.toList) : cStr s = s := by
  have hAppend := cStr_append h ""
  rwa [String.append_empty, show cStr "" = "" from rfl, String.append_empty] at hAppend

section
variable {α : Type} {R : α → α → Prop} [DecidableRel R]

theorem destutter'_append_repeated {c : α} (h : ¬ R c c) (l m : List α) (a : α) :
    (l ++ c :: c :: m).destutter' R a = (l ++ c :: m).destutter' R a := by
  induction l generalizing a with
  | nil =>
    by_cases hFirst : R a c
    · rw [List.nil_append, List.nil_append, List.destutter'_cons_pos _ hFirst,
        List.destutter'_cons_pos _ hFirst, List.destutter'_cons_neg _ h]
    · rw [List.nil_append, List.nil_append, List.destutter'_cons_neg _ hFirst]
  | cons b l ih =>
    rw [List.cons_append, List.cons_append, List.destutter'_cons, List.destutter'_cons, ih b, ih a]

theorem destutter_append_repeated {c : α} (h : ¬ R c c) (l m : List α) :
    (l ++ c :: c :: m).destutter R = (l ++ c :: m).destutter R := by
  cases l with
  | nil => exact List.destutter'_cons_neg _ h
  | cons a l => exact destutter'_append_repeated h l m a

theorem head?_destutter' (l : List α) (a : α) : (l.destutter' R a).head? = some a := by
  induction l generalizing a with
  | nil => rfl
  | cons b l ih =>
    rw [List.destutter'_cons]
    split
    · rfl
    · exact ih a

theorem head?_destutter (l : List α) : (l.destutter R).head? = l.head? := by
  cases l with
  | nil => rfl
  | cons a l => exact head?_destutter' l a

end

def collapse (c : Char) (s : String) : String :=
  .ofList (s.toList.destutter fun a b => a ≠ c ∨ b ≠ c)

theorem collapse_congr {c : Char} {s t : String} (front after : List Char)
    (hs : s.toList = front ++ c :: c :: after) (ht : t.toList = front ++ c :: after) :
    collapse c s = collapse c t := by
  rw [collapse, collapse, hs, ht, destutter_append_repeated]
  simp

theorem head?_collapse (c : Char) (s : String) : (collapse c s).toList.head? = s.toList.head? := by
  rw [collapse, String.toList_ofList, head?_destutter]

end OpenMso.Foundation.Text
