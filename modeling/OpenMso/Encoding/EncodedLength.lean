import OpenMso.Encoding.TransitionRoundtrip

/-! # How much the encoder writes

At worst a byte more for each sample; and never more than any other payload of
the same samples. A record takes at least the room of the run it stands for,
written as the encoder writes it, and joining two runs of one sample saves
something. So the runs the encoder writes, which are the coarsest, cost least.
-/

namespace OpenMso.Encoding

open Foundation.Machine Foundation.Chunks Foundation.Leb128 Foundation.RunLength

set_option autoImplicit false

/-- The room a run of samples of `unitsize` bytes takes in a payload. -/
def runCost (unitsize : Nat) (run : Nat × List UInt8) : Nat := (shortest run.1).length + unitsize

theorem runCost_add_lt {unitsize : Nat} (hUnit : 0 < unitsize) (m n : Nat) (value : List UInt8) :
    runCost unitsize (m + n, value) < runCost unitsize (m, value) + runCost unitsize (n, value) := by
  have hAdd := length_shortest_add_le m n
  simp only [runCost]
  omega

theorem length_flatMap_writeRun {unitsize : Nat} {runs : List (Nat × List UInt8)}
    (h : ∀ run ∈ runs, run.1 < 2 ^ 64 ∧ run.2.length = unitsize) :
    (runs.flatMap writeRun).length = total (runCost unitsize) runs := by
  induction runs with
  | nil => rfl
  | cons run runs ih =>
    obtain ⟨hCount, hWidth⟩ := h run List.mem_cons_self
    rw [List.flatMap_cons, List.length_append, total_cons,
      ih fun r hr => h r (List.mem_cons_of_mem _ hr), writeRun, Nat.mod_eq_of_lt hCount,
      List.length_append, hWidth, runCost]

namespace Record

variable {unitsize : Nat}

theorem length_bytes (record : Record unitsize) :
    record.bytes.length = record.header.length + unitsize := by
  rw [bytes, List.length_append, record.width]

/-- A record has no less room than its run needs, and when it has just that it is
written as the encoder writes the run. -/
theorem runCost_le (record : Record unitsize) (hWrapped : record.wrapped < 2 ^ 63) :
    runCost unitsize record.run ≤ record.bytes.length ∧
      (runCost unitsize record.run = record.bytes.length → record.bytes = writeRun record.run) := by
  have hMin := record.numeral.length_shortest_le
  rw [length_bytes]
  by_cases hCount : record.count < 2 ^ 64
  · have hRun : record.wrapped = record.count := Nat.mod_eq_of_lt hCount
    simp only [runCost, run, hRun]
    refine ⟨by omega, fun h => ?_⟩
    have hHeader := (numeral_shortest record.count).eq_of_length_eq record.numeral rfl (by omega)
    rw [bytes, writeRun, Nat.mod_eq_of_lt hCount, hHeader]
  · -- a value beyond the word fills all ten bytes, its remainder does not
    have hShort : (shortest record.wrapped).length ≤ 9 :=
      length_shortest_le (Nat.lt_of_lt_of_le hWrapped (by decide))
    have hLong : ¬ record.header.length ≤ 9 := by
      intro hNine
      have hPow : 128 ^ record.header.length ≤ 128 ^ 9 := Nat.pow_le_pow_right (by decide) hNine
      have hLt := record.numeral.lt_pow
      omega
    simp only [runCost, run]
    exact ⟨by omega, fun h => by omega⟩

theorem total_runCost_le {records : List (Record unitsize)}
    (h : ∀ record ∈ records, record.wrapped < 2 ^ 63) :
    total (runCost unitsize) (records.map run) ≤ (records.flatMap bytes).length ∧
      (total (runCost unitsize) (records.map run) = (records.flatMap bytes).length →
        records.flatMap bytes = (records.map run).flatMap writeRun) := by
  induction records with
  | nil => exact ⟨Nat.le_refl _, fun _ => rfl⟩
  | cons record records ih =>
    obtain ⟨hHead, hHeadEq⟩ := record.runCost_le (h record List.mem_cons_self)
    obtain ⟨hTail, hTailEq⟩ := ih fun r hr => h r (List.mem_cons_of_mem _ hr)
    rw [List.map_cons, total_cons, List.flatMap_cons, List.flatMap_cons, List.length_append]
    refine ⟨Nat.add_le_add hHead hTail, fun hEq => ?_⟩
    rw [← hHeadEq (by omega), ← hTailEq (by omega)]

theorem length_of_mem_expand_run {records : List (Record unitsize)} {sample : List UInt8}
    (h : sample ∈ expand (records.map run)) : sample.length = unitsize := by
  obtain ⟨pair, hPair, hSample⟩ := List.mem_flatMap.mp h
  obtain ⟨record, _, rfl⟩ := List.mem_map.mp hPair
  rw [List.eq_of_mem_replicate hSample]
  exact record.width

end Record

/-- What the encoder writes for whole samples decodes to them. Whatever else does is at
least as long, and the same when it is no longer. -/
theorem encodeTransition_shortest (build reader : Build) (packed payload : List UInt8)
    (unitsize : Nat) (hUnit : 0 < unitsize) (hWhole : unitsize ∣ packed.length)
    (hLength : packed.length < 2 ^ 63)
    (hDecode : decodeTransition reader payload unitsize (packed.length / unitsize) = .ok packed) :
    ∃ bytes, encodeTransition build packed unitsize = .ok bytes ∧
      decodeTransition reader bytes unitsize (packed.length / unitsize) = .ok packed ∧
      bytes.length ≤ payload.length ∧ (bytes.length = payload.length → payload = bytes) := by
  have hSize : packed.length / unitsize * unitsize < 2 ^ 63 := by
    rwa [Nat.div_mul_cancel hWhole]
  obtain ⟨records, rfl, hPositive, hSum, hPacked⟩ := (decodeTransition_eq_ok_iff hUnit hSize).mp hDecode
  have hWrapped : ∀ record ∈ records, record.wrapped < 2 ^ 63 := by
    intro record hRecord
    have hMem : record.wrapped ∈ records.map Record.wrapped := List.mem_map_of_mem hRecord
    have hLe := List.le_sum_of_mem hMem
    have hDiv := Nat.div_le_self packed.length unitsize
    omega
  have hSamples : chunksExact unitsize packed = expand (records.map Record.run) := by
    rw [hPacked, ← flatten_expand_run]
    exact chunksExact_flatten hUnit fun sample => Record.length_of_mem_expand_run
  have hRuns : ∀ run ∈ runs (chunksExact unitsize packed),
      run.1 < 2 ^ 64 ∧ run.2.length = unitsize := by
    intro run hRun
    have hCount := le_length_of_mem_runs hRun
    have hDiv := Nat.div_le_self packed.length unitsize
    rw [length_chunksExact hUnit] at hCount
    exact ⟨by omega, length_of_mem_chunksExact hUnit (mem_of_mem_runs hRun)⟩
  have hPos : ∀ run ∈ records.map Record.run, 0 < run.1 := by
    intro run hRun
    obtain ⟨record, hRecord, rfl⟩ := List.mem_map.mp hRun
    exact Nat.pos_of_ne_zero (hPositive record hRecord)
  obtain ⟨hLe, hEq⟩ := Record.total_runCost_le hWrapped
  obtain ⟨hCoarse, hCoarseEq⟩ :=
    total_runs_expand (fun m n value _ _ => runCost_add_lt hUnit m n value) hPos
  refine ⟨_, encodeTransition_eq build hUnit (.inr (Nat.lt_trans hLength (by decide))),
    decodeTransition_runs_of_dvd reader hUnit hWhole hLength, ?_, ?_⟩
  · rw [length_flatMap_writeRun hRuns, hSamples]
    exact Nat.le_trans hCoarse hLe
  · rw [length_flatMap_writeRun hRuns, hSamples]
    intro hSame
    rw [hEq (by omega), ← hCoarseEq (by omega)]

theorem encodeTransition_shortest_split_run :
    ∃ bytes, encodeTransition .checked [5, 5, 5] 1 = .ok bytes ∧
      decodeTransition .checked bytes 1 3 = .ok [5, 5, 5] ∧
      bytes.length ≤ [2, 5, 0x81, 0x00, (5 : UInt8)].length := by
  obtain ⟨bytes, hEncode, hDecode, hLength, _⟩ := encodeTransition_shortest .checked .checked
    [5, 5, 5] [2, 5, 0x81, 0x00, 5] 1 (by decide) (by decide) (by decide) (by decide +kernel)
  exact ⟨bytes, hEncode, hDecode, hLength⟩

end OpenMso.Encoding
