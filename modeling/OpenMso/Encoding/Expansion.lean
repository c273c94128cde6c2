import OpenMso.Cpp.EncodingAgreement
import OpenMso.Foundation.Expansion

/-! # The states the decoder's loop goes through

The loop of `decodeTransition` seen append by append. Nothing in it looks at
the declared count, which is compared once the payload is used up.
-/

namespace OpenMso.Encoding

open Foundation.Machine Foundation.RunLength Foundation.Expansion StateTransition

set_option autoImplicit false

/-- What the head of the loop reads: no run when the payload is used up or malformed. -/
def readRun (unitsize : Nat) (rest : List UInt8) : Option (Run (List UInt8) UInt8) :=
  if rest = [] then none
  else match getVarint rest with
    | .error _ => none
    | .ok (run, tail) =>
      if tail.length < unitsize then none
      else some ⟨run.toNat, tail.take unitsize, tail.drop unitsize⟩

theorem readRun_eq_some_iff {unitsize : Nat} {rest : List UInt8} {run : Run (List UInt8) UInt8} :
    readRun unitsize rest = some run ↔ ∃ record : Record unitsize,
      rest = record.bytes ++ run.next ∧ record.wrapped ≠ 0 ∧ record.run = (run.count, run.value) := by
  constructor
  · intro h
    rw [readRun] at h
    split at h
    · cases h
    · cases hRun : getVarint rest with
      | error e =>
        rw [hRun] at h
        cases h
      | ok r =>
        rw [hRun] at h
        dsimp only at h
        split at h
        · cases h
        · rename_i hTail
          cases h
          obtain ⟨record, hRest, hValue, hCount, hWrapped⟩ :=
            record_of_getVarint hRun (Nat.le_of_not_lt hTail)
          exact ⟨record, hRest, hWrapped, Prod.ext hCount hValue⟩
  · rintro ⟨record, hRest, hWrapped, hRun⟩
    obtain ⟨hCount, hValue⟩ := Prod.mk.inj hRun
    obtain ⟨count, hRead, hNat⟩ := getVarint_bytes record hWrapped run.next
    rw [readRun, hRest, if_neg (by simp [record.bytes_ne_nil]), hRead]
    dsimp only
    rw [if_neg (by simp [record.width]), List.take_left' record.width, List.drop_left' record.width,
      hNat, hCount, hValue]

/-- The runs that can be read in a row are the records a payload starts with. -/
theorem reads_iff_exists_records {unitsize : Nat} {payload last : List UInt8}
    {runs : List (Nat × List UInt8)} :
    Reads (readRun unitsize) payload runs last ↔ ∃ records : List (Record unitsize),
      payload = records.flatMap Record.bytes ++ last ∧ (∀ record ∈ records, record.wrapped ≠ 0) ∧
        runs = records.map Record.run := by
  constructor
  · intro h
    induction h with
    | nil cursor => exact ⟨[], rfl, by simp, rfl⟩
    | cons hRun _ ih =>
      obtain ⟨record, hRest, hWrapped, hSame⟩ := readRun_eq_some_iff.mp hRun
      obtain ⟨records, hNext, hAll, rfl⟩ := ih
      refine ⟨record :: records, ?_, ?_, ?_⟩
      · rw [hRest, hNext, List.flatMap_cons, List.append_assoc]
      · intro r hr
        rcases List.mem_cons.mp hr with rfl | hr
        · exact hWrapped
        · exact hAll r hr
      · rw [List.map_cons, hSame]
  · rintro ⟨records, rfl, hAll, rfl⟩
    induction records with
    | nil => exact .nil _
    | cons record records ih =>
      have hRun : readRun unitsize ((record :: records).flatMap Record.bytes ++ last) =
          some ⟨record.wrapped, record.value, records.flatMap Record.bytes ++ last⟩ :=
        readRun_eq_some_iff.mpr ⟨record, by rw [List.flatMap_cons, List.append_assoc],
          hAll record List.mem_cons_self, rfl⟩
      exact .cons hRun (ih fun r hr => hAll r (List.mem_cons_of_mem _ hr))

theorem decodeFrom_of_readRun {unitsize : Nat} (out rest : List UInt8) (run : Run (List UInt8) UInt8)
    (h : readRun unitsize rest = some run) :
    decodeFrom unitsize out rest =
      decodeFrom unitsize (out ++ (List.replicate run.count run.value).flatten) run.next := by
  obtain ⟨record, rfl, hWrapped, hRun⟩ := readRun_eq_some_iff.mp h
  obtain ⟨hCount, hValue⟩ := Prod.mk.inj hRun
  obtain ⟨count, hRead, hNat⟩ := getVarint_bytes record hWrapped run.next
  rw [decodeFrom_of_ok (by simp [record.bytes_ne_nil]) hRead, if_neg (by simp [record.width]),
    List.take_left' record.width, List.drop_left' record.width, extendRun_eq, hNat, hCount, hValue]

theorem length_next_lt {unitsize : Nat} (rest : List UInt8) (run : Run (List UInt8) UInt8)
    (h : readRun unitsize rest = some run) : run.next.length < rest.length := by
  obtain ⟨record, rfl, _⟩ := readRun_eq_some_iff.mp h
  have hBytes := List.length_pos_iff.mpr record.bytes_ne_nil
  rw [List.length_append]
  omega

/-- The loop of the decoder ends as it does in the state in which its reading stops,
with the buffer it has there or with the error of the malformed run. -/
theorem decodeFrom_eq_iff_reaches {unitsize : Nat} {out rest : List UInt8}
    {result : Except Error (List UInt8)} :
    decodeFrom unitsize out rest = result ↔ ∃ written last,
      Reaches (step (readRun unitsize)) (.head out rest) (.head written last) ∧
        readRun unitsize last = none ∧ decodeFrom unitsize written last = result :=
  decode_eq_iff_reaches decodeFrom_of_readRun List.length length_next_lt out rest result

theorem readRun_nil (unitsize : Nat) : readRun unitsize [] = none := if_pos rfl

theorem decodeFrom_of_readRun_eq_none {unitsize : Nat} (out : List UInt8) {rest : List UInt8}
    (hRest : rest ≠ []) (h : readRun unitsize rest = none) :
    ∃ e, decodeFrom unitsize out rest = .error e := by
  rw [readRun, if_neg hRest] at h
  cases hRun : getVarint rest with
  | error e => exact ⟨e, decodeFrom_of_error hRest hRun⟩
  | ok r =>
    rw [hRun] at h
    dsimp only at h
    split at h
    · rename_i hTail
      exact ⟨_, (decodeFrom_of_ok hRest hRun).trans (if_pos hTail)⟩
    · cases h

/-- The loop of the decoder returns what the states of the loop lead to. -/
theorem decodeFrom_eq_ok_iff_reaches {unitsize : Nat} {out rest result : List UInt8} :
    decodeFrom unitsize out rest = .ok result ↔
      Reaches (step (readRun unitsize)) (.head out rest) (.head result []) := by
  rw [decodeFrom_eq_iff_reaches]
  constructor
  · rintro ⟨written, last, hReaches, hStop, hOk⟩
    rcases eq_or_ne last [] with rfl | hLast
    · rw [decodeFrom, if_pos rfl] at hOk
      cases hOk
      exact hReaches
    · obtain ⟨e, hError⟩ := decodeFrom_of_readRun_eq_none written hLast hStop
      cases hError.symm.trans hOk
  · intro h
    exact ⟨result, [], h, readRun_nil unitsize, by rw [decodeFrom, if_pos rfl]⟩

/-- The states of the loop of a call: it is entered once the buffer is there. -/
def Expands (build : Build) (payload : List UInt8) (unitsize samples : Nat)
    (loop : Loop (List UInt8) UInt8) : Prop :=
  unitsize ≠ 0 ∧ ∃ capacity, (mulUsize build samples unitsize : Call Error Nat) = .ok capacity ∧
    (withCapacity capacity : Call Error (List UInt8)) = .ok [] ∧
    Reaches (step (readRun unitsize)) (.head [] payload) loop

/-- The run lengths of the records a payload starts with, as they are read, add up to no
more than `samples`. -/
def StaysDeclared (unitsize samples : Nat) (payload : List UInt8) : Prop :=
  ∀ (records : List (Record unitsize)) (rest : List UInt8),
    payload = records.flatMap Record.bytes ++ rest → (∀ record ∈ records, record.wrapped ≠ 0) →
      (records.map Record.wrapped).sum ≤ samples

theorem total_runLength_run {unitsize : Nat} (records : List (Record unitsize)) :
    total runLength (records.map Record.run) = (records.map Record.wrapped).sum * unitsize := by
  rw [← length_flatten_expand, flatten_expand_run, length_expandBy]

theorem staysDeclared_iff {unitsize samples : Nat} {payload : List UInt8} (hUnit : 0 < unitsize) :
    StaysDeclared unitsize samples payload ↔
      ∀ runs last, Reads (readRun unitsize) payload runs last →
        total runLength runs ≤ samples * unitsize := by
  constructor
  · intro h runs last hReads
    obtain ⟨records, hPayload, hAll, rfl⟩ := reads_iff_exists_records.mp hReads
    rw [total_runLength_run]
    exact Nat.mul_le_mul_right unitsize (h records last hPayload hAll)
  · intro h records rest hPayload hAll
    have hTotal := h _ rest (reads_iff_exists_records.mpr ⟨records, hPayload, hAll, rfl⟩)
    rw [total_runLength_run] at hTotal
    exact Nat.le_of_mul_le_mul_right hTotal hUnit

theorem expands_iff {unitsize samples : Nat} (build : Build) (payload : List UInt8)
    (hUnit : 0 < unitsize) (hSize : samples * unitsize < 2 ^ 63) (loop : Loop (List UInt8) UInt8) :
    Expands build payload unitsize samples loop ↔
      Reaches (step (readRun unitsize)) (.head [] payload) loop := by
  constructor
  · rintro ⟨_, _, _, _, h⟩
    exact h
  · intro h
    exact ⟨Nat.ne_of_gt hUnit, _, mulUsize_of_lt build (Nat.lt_trans hSize (by decide)),
      withCapacity_of_lt hSize, h⟩

/-- A call fails exactly when its loop stops at a malformed run, or with a buffer that has
another length than was declared. -/
theorem decodeTransition_fails_iff {unitsize samples : Nat} (build : Build) (payload : List UInt8)
    (hUnit : 0 < unitsize) (hSize : samples * unitsize < 2 ^ 63) :
    (∃ fault, decodeTransition build payload unitsize samples = .error fault) ↔
      ∃ out last, Expands build payload unitsize samples (.head out last) ∧
        readRun unitsize last = none ∧ (last ≠ [] ∨ out.length ≠ samples * unitsize) := by
  simp only [expands_iff build payload hUnit hSize, decodeTransition_of_lt build payload hUnit hSize]
  constructor
  · rintro ⟨fault, hFault⟩
    obtain ⟨out, last, hReaches, hStop, hSame⟩ :=
      decodeFrom_eq_iff_reaches.mp (rfl : decodeFrom unitsize [] payload = _)
    refine ⟨out, last, hReaches, hStop, ?_⟩
    by_contra hDone
    obtain ⟨rfl, hLength⟩ : last = [] ∧ out.length = samples * unitsize := by
      simpa only [not_or, ne_eq, not_not] using hDone
    rw [← hSame, decodeFrom, if_pos rfl] at hFault
    cases hFault.symm.trans (if_pos hLength)
  · rintro ⟨out, last, hReaches, hStop, hEnd⟩
    rw [decodeFrom_eq_iff_reaches.mpr ⟨out, last, hReaches, hStop, rfl⟩]
    rcases eq_or_ne last [] with rfl | hLast
    · rw [decodeFrom, if_pos rfl]
      exact ⟨_, if_neg (hEnd.resolve_left (not_not_intro rfl))⟩
    · obtain ⟨e, hError⟩ := decodeFrom_of_readRun_eq_none out hLast hStop
      rw [hError]
      exact ⟨_, rfl⟩

end OpenMso.Encoding

namespace OpenMso.Cpp.Encoding

open Foundation.Machine Foundation.Expansion StateTransition

set_option autoImplicit false

/-- What the head of the loop reads at a position. -/
def readRun (payload : List UInt8) (unitsize pos : Nat) : Option (Run Nat UInt8) :=
  if pos < payload.length then
    match getVarint payload pos with
    | .error _ => none
    | .ok (next, run) =>
      if payload.length - next < unitsize then none
      else some ⟨run.toNat, substr payload next unitsize, next + unitsize⟩
  else none

theorem readRun_agrees (payload : List UInt8) (unitsize pos : Nat) :
    (readRun payload unitsize pos).map (fun run => ⟨run.count, run.value, payload.drop run.next⟩) =
      OpenMso.Encoding.readRun unitsize (payload.drop pos) := by
  rw [readRun, OpenMso.Encoding.readRun]
  by_cases h : pos < payload.length
  · have hRest : payload.drop pos ≠ [] := by
      rw [ne_eq, List.drop_eq_nil_iff]
      omega
    rw [if_pos h, if_neg hRest]
    cases hRun : getVarint payload pos with
    | error e =>
      obtain ⟨e', hRust⟩ := getVarint_eq_error hRun
      rw [hRust]
      rfl
    | ok r =>
      rw [getVarint_eq_ok hRun]
      dsimp only
      rw [List.length_drop]
      split
      · rfl
      · rw [List.drop_drop]
        rfl
  · rw [if_neg h, if_pos (List.drop_eq_nil_of_le (Nat.le_of_not_lt h))]
    rfl

theorem reads_iff {payload : List UInt8} {unitsize : Nat} (runs : List (Nat × List UInt8))
    (last : List UInt8) :
    Reads (OpenMso.Encoding.readRun unitsize) payload runs last ↔
      ∃ pos, payload.drop pos = last ∧ Reads (readRun payload unitsize) 0 runs pos :=
  reads_place_iff payload.drop (readRun_agrees payload unitsize) 0 runs last

theorem decodeFrom_of_readRun {payload : List UInt8} {unitsize : Nat} (out : List UInt8) (pos : Nat)
    (run : Run Nat UInt8) (h : readRun payload unitsize pos = some run) :
    decodeFrom payload unitsize out pos =
      decodeFrom payload unitsize (out ++ (List.replicate run.count run.value).flatten) run.next := by
  rw [readRun] at h
  split at h
  · rename_i hPos
    cases hRun : getVarint payload pos with
    | error e =>
      rw [hRun] at h
      cases h
    | ok r =>
      rw [hRun] at h
      dsimp only at h
      split at h
      · cases h
      · rename_i hTail
        cases h
        rw [decodeFrom_of_ok hPos hRun, if_neg hTail, appendRun_agrees,
          OpenMso.Encoding.extendRun_eq]
        rfl
  · cases h

theorem readRun_eq_none_iff {payload : List UInt8} {unitsize pos : Nat} :
    readRun payload unitsize pos = none ↔
      OpenMso.Encoding.readRun unitsize (payload.drop pos) = none := by
  rw [← readRun_agrees, Option.map_eq_none_iff]

theorem length_drop_next_lt {payload : List UInt8} {unitsize : Nat} (pos : Nat) (run : Run Nat UInt8)
    (h : readRun payload unitsize pos = some run) :
    (payload.drop run.next).length < (payload.drop pos).length :=
  OpenMso.Encoding.length_next_lt _ _ (by rw [← readRun_agrees, h]; rfl)

theorem decodeFrom_eq_iff_reaches {payload out : List UInt8} {unitsize pos : Nat}
    {result : Except Error (List UInt8)} :
    decodeFrom payload unitsize out pos = result ↔ ∃ written last,
      Reaches (step (readRun payload unitsize)) (.head out pos) (.head written last) ∧
        readRun payload unitsize last = none ∧ decodeFrom payload unitsize written last = result :=
  decode_eq_iff_reaches decodeFrom_of_readRun (fun pos => (payload.drop pos).length)
    length_drop_next_lt out pos result

theorem decodeFrom_of_readRun_eq_none {payload : List UInt8} {unitsize last : Nat} (out : List UInt8)
    (hLast : payload.drop last ≠ []) (h : readRun payload unitsize last = none) :
    ∃ e, decodeFrom payload unitsize out last = .error e := by
  have hAgree := decodeFrom_agrees payload unitsize out last
  obtain ⟨e, hError⟩ :=
    OpenMso.Encoding.decodeFrom_of_readRun_eq_none out hLast (readRun_eq_none_iff.mp h)
  rw [hError] at hAgree
  cases hLoop : decodeFrom payload unitsize out last with
  | error e => exact ⟨e, rfl⟩
  | ok out =>
    rw [hLoop] at hAgree
    cases hAgree

theorem decodeFrom_eq_ok_iff_reaches {payload result : List UInt8} {unitsize : Nat} :
    decodeFrom payload unitsize [] 0 = .ok result ↔
      ∃ pos, payload.drop pos = [] ∧
        Reaches (step (readRun payload unitsize)) (.head [] 0) (.head result pos) := by
  rw [decodeFrom_eq_iff_reaches]
  constructor
  · rintro ⟨written, last, hReaches, hStop, hOk⟩
    rcases eq_or_ne (payload.drop last) [] with hLast | hLast
    · rw [decodeFrom, if_neg (Nat.not_lt.mpr (List.drop_eq_nil_iff.mp hLast))] at hOk
      cases hOk
      exact ⟨last, hLast, hReaches⟩
    · obtain ⟨e, hError⟩ := decodeFrom_of_readRun_eq_none written hLast hStop
      cases hError.symm.trans hOk
  · rintro ⟨pos, hPos, h⟩
    refine ⟨result, pos, h, readRun_eq_none_iff.mpr ?_, ?_⟩
    · rw [hPos, OpenMso.Encoding.readRun_nil]
    · rw [decodeFrom, if_neg (Nat.not_lt.mpr (List.drop_eq_nil_iff.mp hPos))]

def Expands (maxSize : Nat) (payload : List UInt8) (unitsize samples : Nat)
    (loop : Loop Nat UInt8) : Prop :=
  unitsize ≠ 0 ∧ reserve maxSize (samples * unitsize % 2 ^ 64) = .ok () ∧
    Reaches (step (readRun payload unitsize)) (.head [] 0) loop

section
variable {maxSize unitsize samples : Nat} (payload : List UInt8) (hUnit : 0 < unitsize)
  (hMax : samples * unitsize ≤ maxSize) (hWord : samples * unitsize < 2 ^ 64)

include hUnit hMax hWord

theorem expands_iff (loop : Loop Nat UInt8) : Expands maxSize payload unitsize samples loop ↔
    Reaches (step (readRun payload unitsize)) (.head [] 0) loop := by
  constructor
  · rintro ⟨_, _, h⟩
    exact h
  · intro h
    rw [Expands, Nat.mod_eq_of_lt hWord]
    exact ⟨Nat.ne_of_gt hUnit, if_pos hMax, h⟩

/-- The C++ decoder fails in the same states of its loop. -/
theorem decodeTransition_fails_iff :
    (∃ fault, decodeTransition maxSize payload unitsize samples = .error fault) ↔
      ∃ out last, Expands maxSize payload unitsize samples (.head out last) ∧
        readRun payload unitsize last = none ∧
          (payload.drop last ≠ [] ∨ out.length ≠ samples * unitsize) := by
  have hReserve : reserve maxSize (samples * unitsize) = .ok () := if_pos hMax
  simp only [expands_iff payload hUnit hMax hWord, decodeTransition, if_neg (Nat.ne_of_gt hUnit),
    Nat.mod_eq_of_lt hWord, hReserve, raise, bind, Except.bind, pure, Except.pure]
  constructor
  · rintro ⟨fault, hFault⟩
    obtain ⟨out, last, hReaches, hStop, hSame⟩ :=
      decodeFrom_eq_iff_reaches.mp (rfl : decodeFrom payload unitsize [] 0 = _)
    refine ⟨out, last, hReaches, hStop, ?_⟩
    by_contra hDone
    obtain ⟨hLast, hLength⟩ : payload.drop last = [] ∧ out.length = samples * unitsize := by
      simpa only [not_or, ne_eq, not_not] using hDone
    rw [← hSame, decodeFrom, if_neg (Nat.not_lt.mpr (List.drop_eq_nil_iff.mp hLast))] at hFault
    cases hFault.symm.trans (if_neg (not_not_intro hLength))
  · rintro ⟨out, last, hReaches, hStop, hEnd⟩
    rw [decodeFrom_eq_iff_reaches.mpr ⟨out, last, hReaches, hStop, rfl⟩]
    by_cases hLast : payload.drop last = []
    · rw [decodeFrom, if_neg (Nat.not_lt.mpr (List.drop_eq_nil_iff.mp hLast))]
      exact ⟨_, if_pos (hEnd.resolve_left (not_not_intro hLast))⟩
    · obtain ⟨e, hError⟩ := decodeFrom_of_readRun_eq_none out hLast hStop
      rw [hError]
      exact ⟨_, rfl⟩

end

end OpenMso.Cpp.Encoding

namespace OpenMso.Encoding

open Foundation.Machine Foundation.Expansion StateTransition

/-- Neither loop holds itself to the declared count: its buffer stays within it exactly
when the payload does. The C++ loop is not entered where the buffer is refused. -/
theorem expansion_bounded_iff (build : Build) (maxSize : Nat) (payload : List UInt8)
    (unitsize samples : Nat) (hUnit : 0 < unitsize) (hSize : samples * unitsize < 2 ^ 63) :
    ((∀ loop, Expands build payload unitsize samples loop →
        loop.out.length ≤ samples * unitsize) ↔ StaysDeclared unitsize samples payload) ∧
    ((∀ loop, Cpp.Encoding.Expands maxSize payload unitsize samples loop →
        loop.out.length ≤ samples * unitsize) ↔
      maxSize < samples * unitsize ∨ StaysDeclared unitsize samples payload) := by
  have hRust : (∀ loop, Reaches (step (readRun unitsize)) (.head [] payload) loop →
      loop.out.length ≤ samples * unitsize) ↔ StaysDeclared unitsize samples payload := by
    rw [staysDeclared_iff hUnit]
    exact forall_length_out_le_iff payload (samples * unitsize)
  have hCpp : (∀ loop, Reaches (step (Cpp.Encoding.readRun payload unitsize)) (.head [] 0) loop →
      loop.out.length ≤ samples * unitsize) ↔ StaysDeclared unitsize samples payload := by
    rw [staysDeclared_iff hUnit, forall_length_out_le_iff]
    constructor
    · intro h runs last hReads
      obtain ⟨pos, _, hReads⟩ := (Cpp.Encoding.reads_iff runs last).mp hReads
      exact h runs pos hReads
    · intro h runs pos hReads
      exact h runs _ ((Cpp.Encoding.reads_iff runs _).mpr ⟨pos, rfl, hReads⟩)
  constructor
  · rw [← hRust]
    simp only [expands_iff build payload hUnit hSize]
  · have hWord : samples * unitsize % 2 ^ 64 = samples * unitsize :=
      Nat.mod_eq_of_lt (Nat.lt_trans hSize (by decide))
    by_cases hMax : samples * unitsize ≤ maxSize
    · rw [or_iff_right (Nat.not_lt.mpr hMax), ← hCpp]
      simp only [Cpp.Encoding.expands_iff payload hUnit hMax (Nat.lt_trans hSize (by decide))]
    · have hReserve : Cpp.Encoding.reserve maxSize (samples * unitsize) ≠ .ok () := by
        rw [Cpp.Encoding.reserve, if_neg hMax]
        exact fun h => by cases h
      refine iff_of_true ?_ (.inl (Nat.lt_of_not_le hMax))
      rintro loop ⟨_, hReached, _⟩
      rw [hWord] at hReached
      exact absurd hReached hReserve

theorem expansion_bounded_iff_two_runs :
    ((∀ loop, Expands .checked [2, 7, 1, 9] 1 3 loop → loop.out.length ≤ 3 * 1) ↔
      StaysDeclared 1 3 [2, 7, 1, 9]) ∧
    ((∀ loop, Cpp.Encoding.Expands (2 ^ 63 - 2) [2, 7, 1, 9] 1 3 loop → loop.out.length ≤ 3 * 1) ↔
      StaysDeclared 1 3 [2, 7, 1, 9]) := by
  obtain ⟨hRust, hCpp⟩ :=
    expansion_bounded_iff .checked (2 ^ 63 - 2) [2, 7, 1, 9] 1 3 (by decide) (by decide)
  exact ⟨hRust, hCpp.trans (or_iff_right (by decide))⟩

/-- Two bytes that declare one sample write five. -/
theorem run_is_written_past_the_count :
    (¬ ∀ loop, Expands .checked [5, 7] 1 1 loop → loop.out.length ≤ 1 * 1) ∧
      ¬ ∀ loop, Cpp.Encoding.Expands (2 ^ 63 - 2) [5, 7] 1 1 loop → loop.out.length ≤ 1 * 1 := by
  constructor
  · intro h
    have hLoop : decodeFrom 1 [] [5, 7] = .ok [7, 7, 7, 7, 7] := by decide +kernel
    have hLength := h _ ((expands_iff .checked [5, 7] (by decide) (by decide) _).mpr
      (decodeFrom_eq_ok_iff_reaches.mp hLoop))
    exact absurd hLength (by decide)
  · intro h
    have hLoop : Cpp.Encoding.decodeFrom [5, 7] 1 [] 0 = .ok [7, 7, 7, 7, 7] := by decide +kernel
    obtain ⟨pos, _, hReached⟩ := Cpp.Encoding.decodeFrom_eq_ok_iff_reaches.mp hLoop
    exact absurd (h _ ⟨by decide, rfl, hReached⟩) (by decide : ¬ [7, 7, 7, 7, (7 : UInt8)].length ≤ 1)

end OpenMso.Encoding
