import OpenMso.Foundation.Text
import OpenMso.Manifest

/-! # The command a manifest launches (C++)

`manifest.cpp`, and where it differs from the Rust function: an empty plugin
directory, which the one joins as the current directory and the other as the
root.
-/

namespace OpenMso.Cpp.Manifest

open OpenMso.Manifest (PluginManifest)
open Foundation.Text

set_option autoImplicit false

def looksLikePath (token : String) : Bool :=
  token.toList.contains '/' ||
    (decide (3 ≤ token.toList.length) &&
      (token.toList.drop (token.toList.length - 3)).take 3 == ".py".toList)

/-- The loop of `resolveArgv` over the tokens that are left. -/
def resolveFrom (pluginDir python : String) (argv : List String) : List String → List String
  | [] => argv
  | token :: run =>
    if token = "{python}" then resolveFrom pluginDir python (argv ++ [python]) run
    else if !looksLikePath token || token.toList.head? == some '/' then
      resolveFrom pluginDir python (argv ++ [token]) run
    else resolveFrom pluginDir python (argv ++ [pluginDir ++ "/" ++ token]) run

def resolveArgv (manifest : PluginManifest) (pluginDir python : String) : List String :=
  resolveFrom pluginDir python [] manifest.run

/-- A token that is joined to the plugin directory. -/
def IsRelative (token : String) : Prop :=
  token ≠ "{python}" ∧ OpenMso.Manifest.looksLikePath token = true ∧
    OpenMso.Manifest.isAbsolute token = false

/-- Two tokens that are equal or name one path. -/
def SamePath (one other : String) : Prop := one = other ∨ collapse '/' one = collapse '/' other

theorem looksLikePath_agrees (token : String) :
    looksLikePath token = OpenMso.Manifest.looksLikePath token := by
  rw [looksLikePath, OpenMso.Manifest.looksLikePath]
  congr 1
  rw [Bool.eq_iff_iff, List.isSuffixOf_iff_suffix, Bool.and_eq_true, decide_eq_true_eq, beq_iff_eq]
  constructor
  · rintro ⟨-, hPy⟩
    rw [← hPy, List.take_of_length_le (by rw [List.length_drop]; omega)]
    exact List.drop_suffix _ _
  · intro hSuffix
    have hLength : 3 ≤ token.toList.length := hSuffix.length_le
    refine ⟨hLength, ?_⟩
    rw [List.take_of_length_le (by rw [List.length_drop]; omega)]
    exact (List.suffix_iff_eq_drop.mp hSuffix).symm

/-- What becomes of one token. -/
def resolved (pluginDir python token : String) : String :=
  if token = "{python}" then python
  else if !looksLikePath token || token.toList.head? == some '/' then token
  else pluginDir ++ "/" ++ token

theorem resolveFrom_eq (pluginDir python : String) (argv run : List String) :
    resolveFrom pluginDir python argv run = argv ++ run.map (resolved pluginDir python) := by
  induction run generalizing argv with
  | nil => exact (List.append_nil argv).symm
  | cons token run ih =>
    rw [resolveFrom, List.map_cons, resolved]
    split
    · rw [ih, List.append_assoc]
      rfl
    · split
      · rw [ih, List.append_assoc]
        rfl
      · rw [ih, List.append_assoc]
        rfl

section
variable {pluginDir python token : String}

theorem resolveToken_of_relative (h : IsRelative token) :
    OpenMso.Manifest.resolveToken pluginDir python token =
      OpenMso.Transport.join pluginDir token := by
  obtain ⟨hPython, hPath, hAbsolute⟩ := h
  rw [OpenMso.Manifest.resolveToken, if_neg hPython, hPath, hAbsolute, if_neg (by decide),
    OpenMso.Manifest.join, hAbsolute, if_neg (by decide)]

theorem resolved_of_relative (h : IsRelative token) :
    resolved pluginDir python token = pluginDir ++ "/" ++ token := by
  obtain ⟨hPython, hPath, hAbsolute⟩ := h
  have hHead : (token.toList.head? == some '/') = false := hAbsolute
  rw [resolved, if_neg hPython, looksLikePath_agrees, hPath, hHead, if_neg (by decide)]

theorem resolved_of_not_relative (h : ¬ IsRelative token) :
    OpenMso.Manifest.resolveToken pluginDir python token = resolved pluginDir python token := by
  rw [OpenMso.Manifest.resolveToken, resolved, looksLikePath_agrees]
  split
  · rfl
  · rename_i hPython
    have hKept : (!OpenMso.Manifest.looksLikePath token || OpenMso.Manifest.isAbsolute token) =
        true := by
      by_contra hNot
      rw [Bool.not_eq_true, Bool.or_eq_false_iff, Bool.not_eq_false'] at hNot
      exact h ⟨hPython, hNot⟩
    have hCpp : (!OpenMso.Manifest.looksLikePath token || token.toList.head? == some '/') = true :=
      hKept
    rw [if_pos hKept, if_pos hCpp]

/-- A separator too many comes to the same path, but one in front of nothing does not. -/
theorem samePath_join_iff (h : OpenMso.Manifest.isAbsolute token = false) :
    SamePath (OpenMso.Transport.join pluginDir token) (pluginDir ++ "/" ++ token) ↔
      pluginDir ≠ "" := by
  have hSlash : (pluginDir ++ "/" ++ token).toList = pluginDir.toList ++ '/' :: token.toList := by
    rw [String.toList_append, String.toList_append, List.append_assoc]
    rfl
  cases hLast : pluginDir.toList.getLast? with
  | none =>
    obtain rfl : pluginDir = "" := String.toList_inj.mp (List.getLast?_eq_none_iff.mp hLast)
    have hJoin : OpenMso.Transport.join "" token = token := String.empty_append
    rw [hJoin]
    refine iff_of_false ?_ (not_not.mpr rfl)
    have hHead : token.toList.head? ≠ some '/' := by
      simpa [OpenMso.Manifest.isAbsolute] using h
    have hRoot : ("" ++ "/" ++ token).toList.head? = some '/' := congrArg List.head? hSlash
    rintro (hEq | hEq)
    · exact hHead ((congrArg (fun s => s.toList.head?) hEq).trans hRoot)
    · apply hHead
      rw [← head?_collapse '/', hEq, head?_collapse]
      exact hRoot
  | some c =>
    have hNe : pluginDir ≠ "" := by
      rintro rfl
      cases hLast
    refine iff_of_true ?_ hNe
    by_cases hc : c = '/'
    · subst hc
      obtain ⟨front, hFront⟩ := List.getLast?_eq_some_iff.mp hLast
      have hJoin : OpenMso.Transport.join pluginDir token = pluginDir ++ token := by
        rw [OpenMso.Transport.join, hLast]
        rfl
      refine .inr (collapse_congr front token.toList ?_ ?_).symm
      · rw [hSlash, hFront, List.append_assoc]
        rfl
      · rw [hJoin, String.toList_append, hFront, List.append_assoc]
        rfl
    · exact .inl (OpenMso.Transport.join_eq hLast hc token)

theorem samePath_iff :
    SamePath (OpenMso.Manifest.resolveToken pluginDir python token)
        (resolved pluginDir python token) ↔ pluginDir ≠ "" ∨ ¬ IsRelative token := by
  by_cases h : IsRelative token
  · rw [resolveToken_of_relative h, resolved_of_relative h, samePath_join_iff h.2.2,
      or_iff_left (not_not.mpr h)]
  · exact iff_of_true (.inl (resolved_of_not_relative h)) (.inr h)

end

/-- Both frontends launch one command, unless a token is joined to an empty plugin directory. -/
theorem resolveArgv_agrees_iff (manifest : PluginManifest) (pluginDir python : String) :
    List.Forall₂ SamePath (OpenMso.Manifest.resolveArgv manifest pluginDir python)
        (resolveArgv manifest pluginDir python) ↔
      pluginDir ≠ "" ∨ ∀ token ∈ manifest.run, ¬ IsRelative token := by
  rw [OpenMso.Manifest.resolveArgv, resolveArgv, resolveFrom_eq, List.nil_append,
    List.forall₂_map_left_iff, List.forall₂_map_right_iff, List.forall₂_same]
  simp only [samePath_iff]
  constructor
  · intro h
    by_cases hDir : pluginDir = ""
    · exact .inr fun token hToken => (h token hToken).resolve_left (not_not.mpr hDir)
    · exact .inl hDir
  · rintro (hDir | hNone) token hToken
    · exact .inl hDir
    · exact .inr (hNone token hToken)

/-- In the empty plugin directory the C++ frontend looks for the plugin at the root. -/
theorem empty_directory_leads_to_root :
    OpenMso.Manifest.resolveArgv ⟨["./plugin"]⟩ "" "python3" = ["./plugin"] ∧
      resolveArgv ⟨["./plugin"]⟩ "" "python3" = ["/./plugin"] ∧
      ¬ List.Forall₂ SamePath (OpenMso.Manifest.resolveArgv ⟨["./plugin"]⟩ "" "python3")
        (resolveArgv ⟨["./plugin"]⟩ "" "python3") := by
  have hRust : OpenMso.Manifest.resolveArgv ⟨["./plugin"]⟩ "" "python3" = ["./plugin"] := by decide
  have hCpp : resolveArgv ⟨["./plugin"]⟩ "" "python3" = ["/./plugin"] := by decide
  refine ⟨hRust, hCpp, ?_⟩
  rw [hRust, hCpp]
  rintro (_ | ⟨hEq | hEq, -⟩)
  · exact absurd hEq (by decide)
  · exact absurd hEq (by decide)

end OpenMso.Cpp.Manifest
