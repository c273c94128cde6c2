import Mathlib.Algebra.Order.Ring.Nat
import Mathlib.Order.Bounds.Defs

/-! # Base-128 numerals, least significant group first

`Numeral bytes n` is the grammar: every byte but the last has its high bit
set, and `n` is the exact value of the seven-bit groups, with no bound on
either. `shortest` is the encoder that writes no empty leading group.
-/

namespace OpenMso.Foundation.Leb128

set_option autoImplicit false

inductive Numeral : List UInt8 → Nat → Prop where
  | last (b : UInt8) (h : b.toNat < 128) : Numeral [b] b.toNat
  | more (b : UInt8) (h : 128 ≤ b.toNat) {bytes : List UInt8} {n : Nat}
      (rest : Numeral bytes n) : Numeral (b :: bytes) (b.toNat - 128 + 128 * n)

theorem Numeral.ne_nil {bytes : List UInt8} {n : Nat} (h : Numeral bytes n) : bytes ≠ [] := by
  cases h <;> simp

/-- Numerals delimit themselves: no numeral is a proper prefix of another. -/
theorem Numeral.append_inj {bytes bytes' : List UInt8} {n n' : Nat} (h : Numeral bytes n)
    (h' : Numeral bytes' n') {rest rest' : List UInt8} (hEq : bytes ++ rest = bytes' ++ rest') :
    bytes = bytes' ∧ n = n' ∧ rest = rest' := by
  induction h generalizing bytes' n' with
  | last b hb =>
    cases h' with
    | last b' _ => simp_all
    | more b' hb' _ =>
      obtain ⟨rfl, _⟩ := List.cons.inj hEq
      omega
  | more b hb _ ih =>
    cases h' with
    | last b' _ =>
      obtain ⟨rfl, _⟩ := List.cons.inj hEq
      omega
    | more b' hb' h' =>
      obtain ⟨rfl, hTail⟩ := List.cons.inj hEq
      obtain ⟨rfl, rfl, rfl⟩ := ih h' hTail
      exact ⟨rfl, rfl, rfl⟩

/-- What a reader finds before the end of a numeral is not one. -/
theorem Numeral.not_reads_of_prefix {bytes part bytes' rest : List UInt8} {n n' : Nat}
    (h : Numeral bytes n) (hPart : part <+: bytes) (hNe : part ≠ bytes) (h' : Numeral bytes' n') :
    part ≠ bytes' ++ rest := by
  obtain ⟨more, hMore⟩ := hPart
  rintro rfl
  have hEq : bytes ++ [] = bytes' ++ (rest ++ more) := by
    rw [List.append_nil, ← hMore, List.append_assoc]
  obtain ⟨rfl, -, hNil⟩ := h.append_inj h' hEq
  have hRest : rest = [] := (List.append_eq_nil_iff.mp hNil.symm).1
  exact hNe (by rw [hRest, List.append_nil])

theorem Numeral.lt_pow {bytes : List UInt8} {n : Nat} (h : Numeral bytes n) :
    n < 128 ^ bytes.length := by
  induction h with
  | last b hb => simpa using hb
  | more b _ _ ih =>
    have hByte := b.toNat_lt
    rw [List.length_cons, Nat.pow_succ]
    omega

def shortest (n : Nat) : List UInt8 :=
  if n < 128 then [UInt8.ofNat n]
  else UInt8.ofNat (n % 128 + 128) :: shortest (n / 128)
termination_by n

theorem toNat_ofNat_of_lt {n : Nat} (h : n < 256) : (UInt8.ofNat n).toNat = n := by
  rw [UInt8.toNat_ofNat', Nat.mod_eq_of_lt h]

theorem numeral_shortest (n : Nat) : Numeral (shortest n) n := by
  induction n using Nat.strongRecOn with
  | ind n ih =>
    rw [shortest]
    split
    · rename_i hSmall
      have hByte := toNat_ofNat_of_lt (n := n) (by omega)
      simpa [hByte] using Numeral.last (UInt8.ofNat n) (by omega)
    · rename_i hLarge
      have hByte := toNat_ofNat_of_lt (n := n % 128 + 128) (by omega)
      have hStep := Numeral.more (UInt8.ofNat (n % 128 + 128)) (by omega) (ih (n / 128) (by omega))
      rw [hByte, Nat.add_sub_cancel, Nat.mod_add_div] at hStep
      exact hStep

theorem length_shortest_le {n k : Nat} (h : n < 128 ^ (k + 1)) : (shortest n).length ≤ k + 1 := by
  induction k generalizing n with
  | zero =>
    rw [shortest, if_pos (by simpa using h)]
    simp
  | succ k ih =>
    rw [shortest]
    split
    · simp
    · have hDiv : n / 128 < 128 ^ (k + 1) :=
        Nat.div_lt_of_lt_mul (by rwa [Nat.pow_succ, Nat.mul_comm] at h)
      have hLength := ih hDiv
      simp only [List.length_cons]
      omega

theorem length_shortest_pos (n : Nat) : 0 < (shortest n).length :=
  List.length_pos_iff.mpr (numeral_shortest n).ne_nil

theorem isLeast_length_shortest {n : Nat} (h : 0 < n) :
    IsLeast {k | n < 128 ^ k} (shortest n).length := by
  refine ⟨(numeral_shortest n).lt_pow, fun k hk => ?_⟩
  cases k with
  | zero =>
    have hOne : n < 1 := hk
    omega
  | succ k => exact length_shortest_le hk

theorem Numeral.length_shortest_le {bytes : List UInt8} {n : Nat} (h : Numeral bytes n) :
    (shortest n).length ≤ bytes.length := by
  have hPos := List.length_pos_iff.mpr h.ne_nil
  have hLt := h.lt_pow
  rw [← Nat.sub_add_cancel hPos] at hLt ⊢
  exact Leb128.length_shortest_le hLt

theorem Numeral.eq_of_length_eq {bytes bytes' : List UInt8} {n n' : Nat} (h : Numeral bytes n)
    (h' : Numeral bytes' n') (hValue : n = n') (hLength : bytes.length = bytes'.length) :
    bytes = bytes' := by
  induction h generalizing bytes' n' with
  | last b hb =>
    cases h' with
    | last b' hb' => rw [UInt8.toNat_inj.mp hValue]
    | more b' hb' rest' => exact absurd hLength.symm (by simp [rest'.ne_nil])
  | @more b hb bytes n rest ih =>
    cases h' with
    | last b' hb' => exact absurd hLength (by simp [rest.ne_nil])
    | @more b' hb' bytes' n' rest' =>
      have hByte := b.toNat_lt
      have hByte' := b'.toNat_lt
      have hHead : b.toNat = b'.toNat := by omega
      rw [UInt8.toNat_inj.mp hHead, ih rest' (by omega) (by simpa using hLength)]

theorem length_shortest_add_le (m n : Nat) :
    (shortest (m + n)).length ≤ (shortest m).length + (shortest n).length := by
  have hPosM := length_shortest_pos m
  have hPosN := length_shortest_pos n
  have hLtM := (numeral_shortest m).lt_pow
  have hLtN := (numeral_shortest n).lt_pow
  rcases Nat.le_total m n with h | h
  · have hSum : m + n < 128 ^ ((shortest n).length + 1) := by
      rw [Nat.pow_succ]
      omega
    have hLength := length_shortest_le hSum
    omega
  · have hSum : m + n < 128 ^ ((shortest m).length + 1) := by
      rw [Nat.pow_succ]
      omega
    have hLength := length_shortest_le hSum
    omega

end OpenMso.Foundation.Leb128
