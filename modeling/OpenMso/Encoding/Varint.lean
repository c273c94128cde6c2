import OpenMso.Encoding.Transition
import OpenMso.Foundation.Leb128

/-! # The varint pair against the base-128 grammar

`putVarint` writes the shortest numeral. `getVarint` reads any numeral of at
most ten bytes and keeps its value modulo the word: the groups that a tenth
byte holds beyond bit 63 are shifted out and not looked at.
-/

namespace OpenMso.Encoding

open Foundation.Leb128

set_option autoImplicit false

theorem continuation_eq_zero_iff (byte : UInt8) : byte &&& 0x80 = 0 ↔ byte.toNat < 128 := by
  have hAll : ∀ b : Fin 256, b.val &&& 128 = 0 ↔ b.val < 128 := by decide +kernel
  rw [← UInt8.toNat_inj, UInt8.toNat_and]
  exact hAll ⟨byte.toNat, byte.toNat_lt⟩

theorem toNat_or_continuation (byte : UInt8) : (byte ||| 0x80).toNat = byte.toNat % 128 + 128 := by
  have hAll : ∀ b : Fin 256, b.val ||| 128 = b.val % 128 + 128 := by decide +kernel
  rw [UInt8.toNat_or]
  exact hAll ⟨byte.toNat, byte.toNat_lt⟩

theorem toNat_group (byte : UInt8) : (byte &&& 0x7f).toUInt64.toNat = byte.toNat % 128 := by
  rw [UInt8.toNat_toUInt64, UInt8.toNat_and]
  exact Nat.and_two_pow_sub_one_eq_mod byte.toNat 7

theorem pow_group (i : Nat) : 2 ^ ((i + 1) * 7) = 128 * 2 ^ (i * 7) := by
  rw [Nat.add_mul, Nat.pow_add, Nat.mul_comm]

theorem add_group (acc group n i : Nat) :
    acc + group * 2 ^ (i * 7) + n * 2 ^ ((i + 1) * 7) = acc + (group + 128 * n) * 2 ^ (i * 7) := by
  rw [pow_group, Nat.add_mul, Nat.add_assoc, Nat.mul_left_comm n 128, Nat.mul_assoc 128]

/-- One group more: `or` adds it, since the groups below it leave its bits clear. -/
theorem toNat_or_group {acc : UInt64} {i : Nat} (byte : UInt8) (hi : i ≤ 9)
    (hAcc : acc.toNat < 2 ^ (i * 7)) :
    (acc ||| ((byte &&& 0x7f).toUInt64 <<< UInt64.ofNat (i * 7))).toNat =
      acc.toNat + byte.toNat % 128 * 2 ^ (i * 7) % 2 ^ 64 := by
  have hShift : (UInt64.ofNat (i * 7)).toNat % 64 = i * 7 := by
    rw [UInt64.toNat_ofNat']
    omega
  have hPow : (2 : Nat) ^ 64 = 2 ^ (i * 7) * 2 ^ (64 - i * 7) := by
    rw [← Nat.pow_add]
    congr 1
    omega
  have hGroup : byte.toNat % 128 * 2 ^ (i * 7) % 2 ^ 64 =
      2 ^ (i * 7) * (byte.toNat % 128 % 2 ^ (64 - i * 7)) := by
    rw [hPow, Nat.mul_comm, Nat.mul_mod_mul_left]
  rw [UInt64.toNat_or, UInt64.toNat_shiftLeft, hShift, toNat_group, Nat.shiftLeft_eq, hGroup,
    Nat.or_comm, ← Nat.two_pow_add_eq_or_of_lt hAcc, Nat.add_comm]

theorem or_group_eq {acc : UInt64} {i : Nat} (byte : UInt8) (hi : i ≤ 9)
    (hAcc : acc.toNat < 2 ^ (i * 7)) :
    acc ||| ((byte &&& 0x7f).toUInt64 <<< UInt64.ofNat (i * 7)) =
      UInt64.ofNat (acc.toNat + byte.toNat % 128 * 2 ^ (i * 7)) := by
  have hOr := toNat_or_group byte hi hAcc
  have hLt := (acc ||| ((byte &&& 0x7f).toUInt64 <<< UInt64.ofNat (i * 7))).toNat_lt
  apply UInt64.toNat_inj.mp
  rw [hOr] at hLt ⊢
  rw [UInt64.toNat_ofNat', ← Nat.add_mod_mod, Nat.mod_eq_of_lt hLt]

theorem toNat_or_group_lt {acc : UInt64} {i : Nat} (byte : UInt8) (hi : i < 9)
    (hAcc : acc.toNat < 2 ^ (i * 7)) :
    (acc ||| ((byte &&& 0x7f).toUInt64 <<< UInt64.ofNat (i * 7))).toNat =
        acc.toNat + byte.toNat % 128 * 2 ^ (i * 7) ∧
      acc.toNat + byte.toNat % 128 * 2 ^ (i * 7) < 2 ^ ((i + 1) * 7) := by
  have hMul : byte.toNat % 128 * 2 ^ (i * 7) ≤ 127 * 2 ^ (i * 7) :=
    Nat.mul_le_mul_right _ (by omega)
  have hNext := pow_group i
  have hWord : (2 : Nat) ^ ((i + 1) * 7) ≤ 2 ^ 64 := Nat.pow_le_pow_right (by decide) (by omega)
  rw [toNat_or_group byte (by omega) hAcc, Nat.mod_eq_of_lt (by omega)]
  exact ⟨rfl, by omega⟩

/-- The reading loop accepts exactly the numerals of at most `left` bytes whose
value, placed above the groups already read, is not zero modulo the word. -/
theorem getVarintFrom_eq_ok_iff {i left : Nat} {acc value : UInt64} {input rest : List UInt8}
    (hLeft : i + left ≤ 10) (hAcc : left ≠ 0 → acc.toNat < 2 ^ (i * 7)) :
    getVarintFrom i acc left input = .ok (value, rest) ↔
      ∃ bytes n, input = bytes ++ rest ∧ Numeral bytes n ∧ bytes.length ≤ left ∧
        value = UInt64.ofNat (acc.toNat + n * 2 ^ (i * 7)) ∧ value ≠ 0 := by
  induction left generalizing i acc input with
  | zero =>
    constructor
    · intro h
      cases h
    · rintro ⟨bytes, n, _, hNumeral, hLength, _⟩
      exact absurd (List.eq_nil_of_length_eq_zero (by omega)) hNumeral.ne_nil
  | succ left ih =>
    cases input with
    | nil =>
      constructor
      · intro h
        cases h
      · rintro ⟨bytes, n, hInput, hNumeral, _⟩
        exact absurd (List.append_eq_nil_iff.mp hInput.symm).1 hNumeral.ne_nil
    | cons byte input =>
      have hAcc' := hAcc (by omega)
      have hOr := or_group_eq byte (by omega) hAcc'
      rw [getVarintFrom]
      by_cases hByte : byte.toNat < 128
      · -- the last byte of the numeral
        rw [if_pos ((continuation_eq_zero_iff byte).mpr hByte), hOr, Nat.mod_eq_of_lt hByte]
        constructor
        · intro h
          split at h
          · cases h
          · rename_i hValue
            cases h
            exact ⟨[byte], byte.toNat, rfl, .last byte hByte, by simp, rfl, hValue⟩
        · rintro ⟨bytes, n, hInput, hNumeral, _, hEq, hValue⟩
          have hCons : [byte] ++ input = bytes ++ rest := hInput
          obtain ⟨_, rfl, rfl⟩ := (Numeral.last byte hByte).append_inj hNumeral hCons
          rw [← hEq, if_neg hValue]
      · -- the numeral goes on: at the tenth byte nothing is left to read
        rw [if_neg (fun h => hByte ((continuation_eq_zero_iff byte).mp h))]
        have hHigh : byte.toNat - 128 = byte.toNat % 128 := by
          have hLt := byte.toNat_lt
          omega
        have hTail : getVarintFrom (i + 1) (acc ||| ((byte &&& 0x7f).toUInt64 <<<
            UInt64.ofNat (i * 7))) left input = .ok (value, rest) ↔
            ∃ bytes n, input = bytes ++ rest ∧ Numeral bytes n ∧ bytes.length ≤ left ∧
              value = UInt64.ofNat (acc.toNat + byte.toNat % 128 * 2 ^ (i * 7) +
                n * 2 ^ ((i + 1) * 7)) ∧ value ≠ 0 := by
          by_cases hZero : left = 0
          · subst hZero
            constructor
            · intro h
              cases h
            · rintro ⟨bytes, n, _, hNumeral, hLength, _⟩
              exact absurd (List.eq_nil_of_length_eq_zero (by omega)) hNumeral.ne_nil
          · obtain ⟨hNat, hLt⟩ := toNat_or_group_lt byte (by omega) hAcc'
            rw [ih (by omega) (fun _ => by rw [hNat]; exact hLt), hNat]
        rw [hTail]
        constructor
        · rintro ⟨bytes, n, rfl, hNumeral, hLength, hEq, hValue⟩
          refine ⟨byte :: bytes, byte.toNat - 128 + 128 * n, rfl, .more byte (by omega) hNumeral,
            by simpa using hLength, ?_, hValue⟩
          rw [hEq, hHigh, add_group]
        · rintro ⟨bytes, n, hInput, hNumeral, hLength, hEq, hValue⟩
          cases hNumeral with
          | last b hb =>
            obtain ⟨rfl, _⟩ := List.cons.inj hInput
            exact absurd hb hByte
          | @more b hb bytes n hRest =>
            obtain ⟨rfl, hTail⟩ := List.cons.inj hInput
            exact ⟨bytes, n, hTail, hRest, by simpa using hLength, by rw [hEq, hHigh, add_group], hValue⟩

theorem getVarint_eq_ok_iff {value : UInt64} {input rest : List UInt8} :
    getVarint input = .ok (value, rest) ↔
      ∃ bytes n, input = bytes ++ rest ∧ Numeral bytes n ∧ bytes.length ≤ 10 ∧
        value = UInt64.ofNat n ∧ value ≠ 0 := by
  rw [getVarint, getVarintFrom_eq_ok_iff (by decide) (by decide)]
  simp

theorem putVarint_eq (out : List UInt8) (value : UInt64) :
    putVarint out value = out ++ shortest value.toNat := by
  induction hNat : value.toNat using Nat.strongRecOn generalizing out value with
  | ind n ih =>
    have hSmall : (0x80 : UInt64) ≤ value ↔ 128 ≤ n := by
      rw [← hNat]
      exact UInt64.le_iff_toNat_le
    have hByte : value.toUInt8 = UInt8.ofNat n := by
      rw [← UInt8.toNat_inj, UInt64.toNat_toUInt8, UInt8.toNat_ofNat', hNat]
    rw [putVarint, shortest]
    by_cases h : n < 128
    · rw [if_neg (by rw [hSmall]; omega), if_pos h, hByte]
    · have hShift : (value >>> 7).toNat = n / 128 := by
        rw [UInt64.toNat_shiftRight, Nat.shiftRight_eq_div_pow, hNat]
        rfl
      have hHigh : UInt8.ofNat n ||| 0x80 = UInt8.ofNat (n % 128 + 128) := by
        rw [← UInt8.toNat_inj, toNat_or_continuation, UInt8.toNat_ofNat', UInt8.toNat_ofNat']
        omega
      rw [if_pos (by rw [hSmall]; omega), if_neg h, hByte,
        ih (n / 128) (Nat.div_lt_self (by omega) (by decide)) _ _ hShift, hHigh]
      simp

theorem getVarint_shortest {value : UInt64} (h : value ≠ 0) (rest : List UInt8) :
    getVarint (shortest value.toNat ++ rest) = .ok (value, rest) := by
  refine getVarint_eq_ok_iff.mpr ⟨_, value.toNat, rfl, numeral_shortest _, ?_, ?_, h⟩
  · exact length_shortest_le (Nat.lt_trans value.toNat_lt (by decide))
  · rw [UInt64.ofNat_toNat]

theorem getVarint_of_prefix {bytes part : List UInt8} {n : Nat} (h : Numeral bytes n)
    (hPart : part <+: bytes) (hNe : part ≠ bytes) : ∃ e, getVarint part = .error e := by
  cases hRead : getVarint part with
  | error e => exact ⟨e, rfl⟩
  | ok read =>
    obtain ⟨value, rest⟩ := read
    obtain ⟨bytes', n', hEq, h', -⟩ := getVarint_eq_ok_iff.mp hRead
    exact absurd hEq (h.not_reads_of_prefix hPart hNe h')

/-- A run length takes the fewest bytes there can be, is read back whatever follows it, and is
neither cut short nor mistaken for another. -/
theorem varint_roundtrip {value : UInt64} (h : value ≠ 0) :
    ∃ bytes, (∀ out, putVarint out value = out ++ bytes) ∧
      1 ≤ bytes.length ∧ bytes.length ≤ 10 ∧
      IsLeast {k | value.toNat < 2 ^ (7 * k)} bytes.length ∧
      (∀ rest, getVarint (bytes ++ rest) = .ok (value, rest)) ∧
      (∀ part, part <+: bytes → part ≠ bytes → ∃ e, getVarint part = .error e) ∧
      ∀ other more rest, putVarint [] other ++ more = bytes ++ rest → other = value := by
  have hPos : 0 < value.toNat := Nat.pos_of_ne_zero fun hZero => h (UInt64.toNat_inj.mp hZero)
  refine ⟨shortest value.toNat, fun out => putVarint_eq out value, length_shortest_pos _, ?_, ?_,
    getVarint_shortest h, fun part => getVarint_of_prefix (numeral_shortest _), ?_⟩
  · exact length_shortest_le (Nat.lt_trans value.toNat_lt (by decide))
  · simp only [Nat.pow_mul]
    exact isLeast_length_shortest hPos
  · intro other more rest hEq
    rw [putVarint_eq, List.nil_append] at hEq
    obtain ⟨-, hSame, -⟩ := (numeral_shortest _).append_inj (numeral_shortest _) hEq
    exact UInt64.toNat_inj.mp hSame

theorem varint_roundtrip_three_hundred :
    ∃ bytes, (∀ out, putVarint out 300 = out ++ bytes) ∧
      1 ≤ bytes.length ∧ bytes.length ≤ 10 ∧
      IsLeast {k | UInt64.toNat 300 < 2 ^ (7 * k)} bytes.length ∧
      (∀ rest, getVarint (bytes ++ rest) = .ok (300, rest)) ∧
      (∀ part, part <+: bytes → part ≠ bytes → ∃ e, getVarint part = .error e) ∧
      ∀ other more rest, putVarint [] other ++ more = bytes ++ rest → other = 300 :=
  varint_roundtrip (by decide)

end OpenMso.Encoding
