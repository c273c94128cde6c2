import Mathlib.Algebra.Order.Ring.Nat

/-! # Machine words, panics and the two kinds of build

A call ends with a value, with an error it returns, or with a panic.
Arithmetic that leaves the word panics in a checked build and wraps in an
optimised one; both are kept, so that a result can name the build it needs.
-/

namespace OpenMso.Foundation.Machine

set_option autoImplicit false

/-- Whether the overflow checks are compiled in. -/
inductive Build where
  | checked
  | optimised
  deriving DecidableEq, Repr

/-- How a call ends when it yields no value. -/
inductive Fault (ε : Type) where
  | error (e : ε)
  | panic (message : String)
  deriving DecidableEq, Repr

/-- A call that may return an error of type `ε` or panic. -/
abbrev Call (ε α : Type) := Except (Fault ε) α

variable {ε δ α : Type}

/-- An error returned by the code itself, as opposed to a panic. -/
def raise (e : ε) : Call ε α := .error (.error e)

/-- A computation that cannot panic, inside one that can. -/
def lift : Except ε α → Call ε α
  | .ok a => .ok a
  | .error e => .error (.error e)

def Fault.map (f : ε → δ) : Fault ε → Fault δ
  | .error e => .error (f e)
  | .panic message => .panic message

/-- The same call, with its errors in other terms. -/
def restate (f : ε → δ) (x : Call ε α) : Call δ α := x.mapError (Fault.map f)

def mulUsize (build : Build) (x y : Nat) : Call ε Nat :=
  if x * y < 2 ^ 64 then .ok (x * y)
  else match build with
    | .checked => .error (.panic "attempt to multiply with overflow")
    | .optimised => .ok (x * y % 2 ^ 64)

def addU64 (build : Build) (x y : UInt64) : Call ε UInt64 :=
  if x.toNat + y.toNat < 2 ^ 64 then .ok (x + y)
  else match build with
    | .checked => .error (.panic "attempt to add with overflow")
    | .optimised => .ok (x + y)

/-- A request for more than `isize::MAX` bytes panics before anything is allocated. -/
def withCapacity (capacity : Nat) : Call ε (List UInt8) :=
  if capacity < 2 ^ 63 then .ok [] else .error (.panic "capacity overflow")

/-- A counter that may be moved on by `n`: it stays in its word, or wraps. -/
def HasRoom (build : Build) (counter : UInt64) (n : Nat) : Prop :=
  build = .optimised ∨ counter.toNat + n < 2 ^ 64

@[simp] theorem lift_ok (a : α) : (lift (.ok a) : Call ε α) = .ok a := rfl
@[simp] theorem lift_error (e : ε) : (lift (.error e) : Call ε α) = .error (.error e) := rfl
@[simp] theorem raise_ne_ok (e : ε) (a : α) : (raise e : Call ε α) ≠ .ok a := by simp [raise]

theorem restate_raise (f : ε → δ) (e : ε) :
    restate f (raise e : Call ε α) = raise (f e) := rfl

theorem restate_lift (f : ε → δ) (x : Except ε α) :
    restate f (lift x) = lift (x.mapError f) := by
  cases x <;> rfl

theorem restate_bind {β : Type} (f : ε → δ) (x : Call ε α) (g : α → Call ε β) :
    restate f (x >>= g) = restate f x >>= fun a => restate f (g a) := by
  cases x <;> rfl

theorem toOption_eq_some_iff {x : Except ε α} {a : α} : x.toOption = some a ↔ x = .ok a := by
  cases x <;> simp [Except.toOption]

theorem bind_eq_ok_iff {β : Type} {x : Call ε α} {f : α → Call ε β} {b : β} :
    x >>= f = .ok b ↔ ∃ a, x = .ok a ∧ f a = .ok b := by
  constructor
  · intro h
    cases x with
    | error fault => cases h
    | ok a => exact ⟨a, rfl, h⟩
  · rintro ⟨a, rfl, h⟩
    exact h

theorem mulUsize_of_lt {x y : Nat} (build : Build) (h : x * y < 2 ^ 64) :
    (mulUsize build x y : Call ε Nat) = .ok (x * y) := if_pos h

@[simp] theorem mulUsize_optimised (x y : Nat) :
    (mulUsize .optimised x y : Call ε Nat) = .ok (x * y % 2 ^ 64) := by
  unfold mulUsize
  split
  · rename_i h
    rw [Nat.mod_eq_of_lt h]
  · rfl

theorem mulUsize_cases (ε : Type) (build : Build) (x y : Nat) :
    (∃ product, (mulUsize build x y : Call ε Nat) = .ok product) ∨
      ∃ message, (mulUsize build x y : Call ε Nat) = .error (.panic message) := by
  by_cases h : x * y < 2 ^ 64
  · exact .inl ⟨_, mulUsize_of_lt build h⟩
  · cases build with
    | checked => exact .inr ⟨_, if_neg h⟩
    | optimised => exact .inl ⟨_, mulUsize_optimised x y⟩

theorem addU64_of_lt {x y : UInt64} (build : Build) (h : x.toNat + y.toNat < 2 ^ 64) :
    (addU64 build x y : Call ε UInt64) = .ok (x + y) := if_pos h

@[simp] theorem addU64_optimised (x y : UInt64) :
    (addU64 .optimised x y : Call ε UInt64) = .ok (x + y) := by
  unfold addU64
  split <;> rfl

theorem withCapacity_of_lt {capacity : Nat} (h : capacity < 2 ^ 63) :
    (withCapacity capacity : Call ε (List UInt8)) = .ok [] := if_pos h

theorem addU64_cases (ε : Type) (build : Build) (x y : UInt64) :
    (addU64 build x y : Call ε UInt64) = .ok (x + y) ∨
      2 ^ 64 ≤ x.toNat + y.toNat ∧
        (addU64 build x y : Call ε UInt64) = .error (.panic "attempt to add with overflow") := by
  by_cases h : x.toNat + y.toNat < 2 ^ 64
  · exact .inl (addU64_of_lt build h)
  · cases build with
    | checked => exact .inr ⟨Nat.le_of_not_lt h, if_neg h⟩
    | optimised => exact .inl (addU64_optimised x y)

theorem addU64_of_hasRoom {build : Build} {x y : UInt64} (h : HasRoom build x y.toNat) :
    (addU64 build x y : Call ε UInt64) = .ok (x + y) := by
  rcases h with rfl | h
  · exact addU64_optimised x y
  · exact addU64_of_lt build h

theorem addU64_of_not_hasRoom {build : Build} {x y : UInt64} (h : ¬ HasRoom build x y.toNat) :
    (addU64 build x y : Call ε UInt64) = .error (.panic "attempt to add with overflow") := by
  rw [HasRoom, not_or] at h
  cases build with
  | checked => exact if_neg h.2
  | optimised => exact absurd rfl h.1

theorem hasRoom_add_iff {build : Build} {x y : UInt64} {n : Nat} (h : HasRoom build x y.toNat) :
    HasRoom build (x + y) n ↔ HasRoom build x (y.toNat + n) := by
  rcases h with rfl | h
  · exact iff_of_true (.inl rfl) (.inl rfl)
  · rw [HasRoom, HasRoom, UInt64.toNat_add, Nat.mod_eq_of_lt h, Nat.add_assoc]

theorem HasRoom.mono {build : Build} {counter : UInt64} {m n : Nat} (h : HasRoom build counter n)
    (hle : m ≤ n) : HasRoom build counter m :=
  h.imp_right fun hLt => Nat.lt_of_le_of_lt (Nat.add_le_add_left hle _) hLt

end OpenMso.Foundation.Machine
