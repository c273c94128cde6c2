import Mathlib.Algebra.Order.Ring.Nat
import Mathlib.Data.List.DropRight
import OpenMso.Foundation.Lease

/-! # Socket directories and what is done with them

The directories below the openmso base, each named by a tag of four hex
digits. Every frontend has the same base; how it spells the way there is its
own business, so a directory is known by its name.
-/

namespace OpenMso.Transport

open Foundation.Lease

set_option autoImplicit false

abbrev Errno := Nat

def eexist : Errno := 17
def enoent : Errno := 2

/-- What the process finds around it. -/
structure Environment where
  xdgRuntimeDir : Option String
  tmpDir : Option String
  strerror : Errno → String

/-- `PathBuf::join` with a name. -/
def join (path name : String) : String :=
  match path.toList.getLast? with
  | none | some '/' => path ++ name
  | some _ => path ++ "/" ++ name

def lastComponent (path : String) : String :=
  .ofList (path.toList.rtakeWhile (· ≠ '/'))

def isHexDigit (c : Char) : Bool := c.isDigit || ('a' ≤ c && c ≤ 'f')

/-- The name of the tagged directory that a path leads to, if it leads to one. -/
@[irreducible] def tagged (path : String) : Option String :=
  let name := lastComponent path
  if name.toList.length = 4 ∧ name.toList.all isHexDigit then some name else none

def hexDigits : Nat → Nat → String
  | 0, _ => ""
  | width + 1, n => (hexDigits width (n / 16)).push (n % 16).digitChar

/-- A tag as `{tag:04x}` and `%04x` print it. -/
def tagName (tag : UInt32) : String := hexDigits 4 tag.toNat

/-- The tag tried after this one. -/
def nextTag (tag : UInt32) : UInt32 := (tag + 1) &&& 0xffff

/-- The tag to start from. -/
def firstTag (nanos pid : UInt32) : UInt32 := (nanos ^^^ pid) &&& 0xffff

inductive FileOp where
  | createDirAll (path : String) (mode : UInt32)
  | createDir (path : String) (mode : UInt32)
  | setPermissions (path : String) (mode : UInt32)
  | removeDirAll (path : String)
  | unlink (path : String)
  | removeDir (path : String)

def FileOp.effect : FileOp → Effect String
  | .createDir path _ => (tagged path).elim .none .create
  | .removeDirAll path | .removeDir path => (tagged path).elim .none .remove
  | _ => .none

/-- The tagged directories. -/
def directories : Store FileOp String Errno where
  effect := FileOp.effect
  taken := eexist
  absent := enoent

theorem toList_lastComponent_append (path name : String) (h : '/' ∉ name.toList) :
    (lastComponent (path ++ name)).toList = (lastComponent path).toList ++ name.toList := by
  rw [lastComponent, lastComponent, String.toList_ofList, String.toList_ofList,
    String.toList_append, List.rtakeWhile, List.rtakeWhile, List.reverse_append,
    List.takeWhile_append_of_pos, List.reverse_append, List.reverse_reverse]
  intro c hc
  exact decide_eq_true fun hSlash => h (hSlash ▸ List.mem_reverse.mp hc)

theorem lastComponent_of_getLast {path : String} (h : path.toList.getLast? = some '/') :
    lastComponent path = "" := by
  obtain ⟨front, hPath⟩ := List.getLast?_eq_some_iff.mp h
  rw [lastComponent, hPath, List.rtakeWhile_concat_neg _ _ _ (by decide)]

theorem lastComponent_append_slash (path name : String) (h : '/' ∉ name.toList) :
    lastComponent (path ++ "/" ++ name) = name := by
  apply String.toList_inj.mp
  rw [toList_lastComponent_append _ _ h, lastComponent_of_getLast]
  · rfl
  · rw [String.toList_append]
    exact List.getLast?_concat

theorem lastComponent_join (path name : String) (h : '/' ∉ name.toList) :
    lastComponent (join path name) = name := by
  unfold join
  split
  · rename_i hLast
    obtain rfl : path = "" := String.toList_inj.mp (List.getLast?_eq_none_iff.mp hLast)
    apply String.toList_inj.mp
    rw [toList_lastComponent_append _ _ h]
    rfl
  · rename_i hLast
    apply String.toList_inj.mp
    rw [toList_lastComponent_append _ _ h, lastComponent_of_getLast hLast]
    rfl
  · exact lastComponent_append_slash path name h

theorem join_eq {path : String} {c : Char} (h : path.toList.getLast? = some c) (hc : c ≠ '/')
    (name : String) : join path name = path ++ "/" ++ name := by
  unfold join
  rw [h]
  split
  · cases ‹_›
  · cases ‹_›
    exact (hc rfl).elim
  · rfl

theorem digitChar_spec (d : Nat) (h : d < 16) :
    isHexDigit d.digitChar = true ∧ d.digitChar ≠ '/' ∧ d.digitChar.utf8Size = 1 := by
  revert d
  decide

theorem hexDigits_spec (width n : Nat) :
    (hexDigits width n).toList.length = width ∧ (hexDigits width n).utf8ByteSize = width ∧
      ∀ c ∈ (hexDigits width n).toList, isHexDigit c = true ∧ c ≠ '/' := by
  induction width generalizing n with
  | zero => exact ⟨rfl, rfl, nofun⟩
  | succ width ih =>
    obtain ⟨hLength, hSize, hDigits⟩ := ih (n / 16)
    obtain ⟨hHex, hSlash, hByte⟩ := digitChar_spec (n % 16) (Nat.mod_lt n (by decide))
    rw [hexDigits, String.toList_push, String.utf8ByteSize_push]
    refine ⟨by simp [hLength], by rw [hSize, hByte], fun c hc => ?_⟩
    obtain hc | hc := List.mem_append.mp hc
    · exact hDigits c hc
    · rw [List.mem_singleton.mp hc]
      exact ⟨hHex, hSlash⟩

theorem slash_notMem_tagName (tag : UInt32) : '/' ∉ (tagName tag).toList :=
  fun h => ((hexDigits_spec 4 tag.toNat).2.2 _ h).2 rfl

theorem utf8ByteSize_tagName (tag : UInt32) : (tagName tag).utf8ByteSize = 4 :=
  (hexDigits_spec 4 tag.toNat).2.1

theorem tagged_of_lastComponent {path : String} {tag : UInt32}
    (h : lastComponent path = tagName tag) : tagged path = some (tagName tag) := by
  obtain ⟨hLength, _, hDigits⟩ := hexDigits_spec 4 tag.toNat
  rw [tagged, h]
  exact if_pos ⟨hLength, List.all_eq_true.mpr fun c hc => (hDigits c hc).1⟩

theorem tagged_eq_some {path name : String} (h : tagged path = some name) :
    lastComponent path = name ∧ name.toList.length = 4 := by
  unfold tagged at h
  obtain ⟨hTag, hName⟩ := Option.ite_none_right_eq_some.mp h
  cases hName
  exact ⟨rfl, hTag.1⟩

theorem effect_setPermissions (path : String) (mode : UInt32) :
    directories.effect (.setPermissions path mode) = .none := rfl

theorem effect_unlink (path : String) : directories.effect (.unlink path) = .none := rfl

theorem effect_createDir {path name : String} (h : tagged path = some name) (mode : UInt32) :
    directories.effect (.createDir path mode) = .create name := by
  simp only [directories, FileOp.effect, h, Option.elim_some]

theorem effect_removeDirAll {path name : String} (h : tagged path = some name) :
    directories.effect (.removeDirAll path) = .remove name := by
  simp only [directories, FileOp.effect, h, Option.elim_some]

theorem effect_removeDir {path name : String} (h : tagged path = some name) :
    directories.effect (.removeDir path) = .remove name := by
  simp only [directories, FileOp.effect, h, Option.elim_some]

theorem perform_createDir {names : Finset String} {path name : String} (h : tagged path = some name) (mode : UInt32) :
    directories.perform names (.createDir path mode) none =
      if name ∈ names then (.error eexist, names) else (.ok (), insert name names) := by
  rw [Store.perform, effect_createDir h]
  rfl

theorem ne_empty_of_tagged {path name : String} (h : tagged path = some name) : path ≠ "" := by
  obtain ⟨rfl, hLength⟩ := tagged_eq_some h
  rintro rfl
  cases hLength

theorem join_of_tagged {path name : String} (h : tagged path = some name) (file : String) :
    join path file = path ++ "/" ++ file := by
  have hPath := ne_empty_of_tagged h
  obtain ⟨rfl, hLength⟩ := tagged_eq_some h
  cases hLast : path.toList.getLast? with
  | none => exact (hPath (String.toList_inj.mp (List.getLast?_eq_none_iff.mp hLast))).elim
  | some c =>
    refine join_eq hLast ?_ file
    rintro rfl
    rw [lastComponent_of_getLast hLast] at hLength
    cases hLength

theorem toNat_and_mask (n : UInt32) : (n &&& 0xffff).toNat = n.toNat % 2 ^ 16 := by
  rw [UInt32.toNat_and]
  exact Nat.and_two_pow_sub_one_eq_mod n.toNat 16

theorem firstTag_lt (nanos pid : UInt32) : (firstTag nanos pid).toNat < 2 ^ 16 := by
  rw [firstTag, toNat_and_mask]
  exact Nat.mod_lt _ (by decide)

theorem iterate_nextTag {tag : UInt32} (h : tag.toNat < 2 ^ 16) (k : Nat) :
    nextTag^[k] tag = .ofNat ((tag.toNat + k) % 2 ^ 16) := by
  induction k with
  | zero =>
    rw [Function.iterate_zero_apply, Nat.add_zero, Nat.mod_eq_of_lt h, UInt32.ofNat_toNat]
  | succ k ih =>
    have hOne : (1 : UInt32).toNat = 1 := rfl
    apply UInt32.toNat_inj.mp
    rw [Function.iterate_succ_apply', ih, nextTag, toNat_and_mask, UInt32.toNat_add,
      UInt32.toNat_ofNat', UInt32.toNat_ofNat', hOne]
    omega

end OpenMso.Transport
