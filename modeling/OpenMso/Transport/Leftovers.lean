import Mathlib.Data.Nat.Find
import OpenMso.Cpp.Endpoints
import OpenMso.Transport.Endpoints

/-! # What a failed call leaves behind

`Endpoints::new` has no value that would remove its directory until the path
of the socket is checked, and the check may fail. The C++ constructor removes
the directory then.
-/

namespace OpenMso.Transport

open Foundation.Lease

set_option autoImplicit false

/-- A call that fails leaves the directories as they were. One that succeeds has added a
directory, and dropping the endpoints takes it away again. -/
inductive LeavesNothing {ε E : Type} (drop : E → Trying FileOp Errno Unit)
    (names : Finset String) : Except ε E × Finset String → Prop
  | failed (e : ε) : LeavesNothing drop names (.error e, names)
  | opened (endpoints : E) (name : String) (hNew : name ∉ names)
      (hDrop : (directories.alone (fun _ _ => none) (drop endpoints) (insert name names)).2 =
        names) : LeavesNothing drop names (.ok endpoints, insert name names)

/-- The `k`-th tag that a call tries. -/
def triedTag (nanos pid : UInt32) (k : Nat) : UInt32 :=
  .ofNat (((firstTag nanos pid).toNat + k) % 2 ^ 16)

def triedName (nanos pid : UInt32) (k : Nat) : String := tagName (triedTag nanos pid k)

theorem iterate_nextTag_firstTag (nanos pid : UInt32) (k : Nat) :
    nextTag^[k] (firstTag nanos pid) = triedTag nanos pid k :=
  iterate_nextTag (firstTag_lt nanos pid) k

theorem tagName_iterate_nextTag (nanos pid : UInt32) (k : Nat) :
    tagName (nextTag^[k] (firstTag nanos pid)) = triedName nanos pid k := by
  rw [triedName, iterate_nextTag_firstTag]

section
variable {ε E : Type} {drop : E → Trying FileOp Errno Unit} {names names' : Finset String}

theorem leavesNothing_of_error (e : ε) (h : Adds names names' none) :
    LeavesNothing drop names (.error e, names') := by
  cases h
  exact .failed e

theorem leavesNothing_of_ok {endpoints : E} {name : String}
    (hDrop : ∀ names, name ∈ names →
      (directories.alone (fun _ _ => none) (drop endpoints) names).2 = names.erase name)
    (h : Adds names names' (some name)) :
    LeavesNothing drop names ((.ok endpoints : Except ε E), names') := by
  obtain ⟨hNew, rfl⟩ := h
  refine .opened endpoints name hNew ?_
  rw [hDrop _ (Finset.mem_insert_self name names), Finset.erase_insert hNew]

theorem LeavesNothing.eq_of_error {e : ε} (h : LeavesNothing drop names (.error e, names')) :
    names' = names := by
  cases h
  rfl

end

variable (environment : Environment) (nanos pid : UInt32) (names : Finset String)
  (fault : Nat → FileOp → Option Errno)

theorem leavesNothing_new
    (h : (Endpoints.base environment).utf8ByteSize ≤ 94 ∨
      ∀ k < 64, triedName nanos pid k ∈ names) :
    LeavesNothing Endpoints.drop names
      (directories.alone fault (Endpoints.new environment nanos pid) names) := by
  have hStart : Adds names names none := rfl
  have hFault : ∀ n op, (fault n op).isSome → True := fun _ _ _ => trivial
  have hEnd := (Endpoints.keeps_new environment (fun _ => True) nanos pid).alone hStart hFault
  generalize directories.alone fault (Endpoints.new environment nanos pid) names = outcome
    at hEnd ⊢
  obtain ⟨result, names'⟩ := outcome
  obtain ⟨owned, hPost, hAdds⟩ := hEnd
  obtain ⟨rfl, rfl⟩ | ⟨k, hk, hSettled⟩ := hPost
  · exact leavesNothing_of_error _ hAdds
  · cases hSettled with
    | failed e => exact leavesNothing_of_error e hAdds
    | overlong e hLong =>
      obtain hFits | hTaken := h
      · exact (Nat.not_lt.mpr hFits hLong).elim
      · exact (hAdds.1 (tagName_iterate_nextTag nanos pid k ▸ hTaken k hk)).elim
    | opened endpoints hTagged =>
      exact leavesNothing_of_ok (fun _ => Endpoints.alone_drop hTagged) hAdds

theorem leavesNothing_construct (hFault : ∀ n path, fault n (.removeDir path) = none) :
    LeavesNothing Cpp.Transport.Endpoints.destroy names
      (directories.alone fault (Cpp.Transport.Endpoints.construct environment nanos pid) names) := by
  have hStart : Adds names names none := rfl
  have hFails : ∀ n op, (fault n op).isSome → ∀ path, op ≠ .removeDir path := by
    rintro n op hSome path rfl
    rw [hFault] at hSome
    cases hSome
  have hEnd := (Cpp.Transport.Endpoints.keeps_construct environment
    (fun op => ∀ path, op ≠ .removeDir path) nanos pid).alone hStart hFails
  generalize directories.alone fault (Cpp.Transport.Endpoints.construct environment nanos pid)
    names = outcome at hEnd ⊢
  obtain ⟨result, names'⟩ := outcome
  obtain ⟨owned, hPost, hAdds⟩ := hEnd
  cases hPost with
  | failed e => exact leavesNothing_of_error e hAdds
  | settled k hk hSettled =>
    cases hSettled with
    | failed e => exact leavesNothing_of_error e hAdds
    | overlong e dir hFails => exact (hFails dir rfl).elim
    | opened endpoints hTagged =>
      exact leavesNothing_of_ok (fun _ => Cpp.Transport.Endpoints.alone_destroy hTagged) hAdds

theorem exists_first_free {n : Nat} (h : ∃ k < n, triedName nanos pid k ∉ names) :
    ∃ k < n, (∀ j < k, triedName nanos pid j ∈ names) ∧ triedName nanos pid k ∉ names := by
  obtain ⟨hk, hFree⟩ := Nat.find_spec h
  refine ⟨Nat.find h, hk, fun j hj => ?_, hFree⟩
  by_contra hNotMem
  exact Nat.find_min h hj ⟨hj.trans hk, hNotMem⟩

/-- Over the limit, the first free tag gets a directory and keeps it. -/
theorem not_leavesNothing_new (hLong : 94 < (Endpoints.base environment).utf8ByteSize)
    (hSome : ∃ k < 64, triedName nanos pid k ∉ names) :
    ¬LeavesNothing Endpoints.drop names
      (directories.alone (fun _ _ => none) (Endpoints.new environment nanos pid) names) := by
  obtain ⟨k, hk, hTaken, hFree⟩ := exists_first_free nanos pid names hSome
  simp only [← tagName_iterate_nextTag] at hFree hTaken
  obtain ⟨message, hOpened⟩ := Endpoints.opened_of_lt environment
    (nextTag^[k] (firstTag nanos pid)) hLong
  rw [Endpoints.alone_new_of_free environment nanos pid hk hTaken hFree, hOpened]
  intro h
  exact hFree (Finset.insert_eq_self.mp h.eq_of_error)

theorem new_leavesNothing_iff :
    ((∀ fault, LeavesNothing Endpoints.drop names
        (directories.alone fault (Endpoints.new environment nanos pid) names)) ↔
      (Endpoints.base environment).utf8ByteSize ≤ 94 ∨
        ∀ k < 64, triedName nanos pid k ∈ names) ∧
    ∀ fault : Nat → FileOp → Option Errno, (∀ n path, fault n (.removeDir path) = none) →
      LeavesNothing Cpp.Transport.Endpoints.destroy names
        (directories.alone fault (Cpp.Transport.Endpoints.construct environment nanos pid)
          names) := by
  refine ⟨⟨fun h => ?_, fun h fault => leavesNothing_new environment nanos pid names fault h⟩,
    leavesNothing_construct environment nanos pid names⟩
  by_contra! hNot
  exact not_leavesNothing_new environment nanos pid names hNot.1 hNot.2 (h _)

/-- A runtime directory with a path of a hundred bytes, and no tag taken. -/
theorem long_base_keeps_its_directory :
    let environment : Environment :=
      ⟨some (.ofList ('/' :: List.replicate 99 'r')), none, fun _ => ""⟩
    let outcome := directories.alone (fun _ _ => none) (Endpoints.new environment 0x7f3a 0) ∅
    (∃ message, outcome = (.error (.protocol message), {"7f3a"})) ∧
      ¬LeavesNothing Endpoints.drop ∅ outcome := by
  intro environment outcome
  have hLong : 94 < (Endpoints.base environment).utf8ByteSize := by decide +kernel
  have hFree : tagName (nextTag^[0] (firstTag 0x7f3a 0)) ∉ (∅ : Finset String) :=
    Finset.notMem_empty _
  have hName : tagName (nextTag^[0] (firstTag 0x7f3a 0)) = "7f3a" := by decide +kernel
  constructor
  · obtain ⟨message, hOpened⟩ := Endpoints.opened_of_lt environment
      (nextTag^[0] (firstTag 0x7f3a 0)) hLong
    have hNew := Endpoints.alone_new_of_free environment 0x7f3a 0 (k := 0) (by decide) nofun hFree
    rw [hOpened, hName] at hNew
    exact ⟨message, hNew⟩
  · refine not_leavesNothing_new environment 0x7f3a 0 ∅ hLong ⟨0, by decide, ?_⟩
    exact Finset.notMem_empty _

end OpenMso.Transport
