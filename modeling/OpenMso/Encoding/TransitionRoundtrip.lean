import OpenMso.Encoding.TransitionFormat

/-! # What the encoder writes, and that it decodes to the samples it was given -/

namespace OpenMso.Encoding

open Foundation.Machine Foundation.Chunks Foundation.Leb128 Foundation.RunLength

set_option autoImplicit false

/-- One run as the encoder writes it: the count, kept in a word, and the sample. -/
def writeRun (run : Nat × List UInt8) : List UInt8 :=
  shortest (run.1 % 2 ^ 64) ++ run.2

theorem ofNat_add_one (n : Nat) : UInt64.ofNat n + 1 = UInt64.ofNat (n + 1) :=
  (UInt64.ofNat_add n 1).symm

/-- The encoder's loop writes the runs of what it has left: `current` pending
`count` times, then `samples`. A checked build needs the count to fit the word. -/
theorem encodeFrom_eq {build : Build} {samples : List (List UInt8)} {count : Nat}
    (hBuild : build = .optimised ∨ count + samples.length < 2 ^ 64) (out current : List UInt8) :
    encodeFrom build out current (UInt64.ofNat count) samples =
      .ok (out ++ (runsFrom current count samples).flatMap writeRun) := by
  induction samples generalizing count out current with
  | nil => simp [encodeFrom, runsFrom, writeRun, putVarint_eq]
  | cons sample samples ih =>
    rw [encodeFrom, runsFrom]
    split
    · have hAdd : (addU64 build (UInt64.ofNat count) 1 : Call Error UInt64) =
          .ok (UInt64.ofNat (count + 1)) := by
        rw [← ofNat_add_one]
        rcases hBuild with rfl | hFit
        · exact addU64_optimised _ _
        · rw [List.length_cons] at hFit
          apply addU64_of_lt
          rw [UInt64.toNat_ofNat', Nat.mod_eq_of_lt (by omega)]
          exact Nat.lt_of_le_of_lt (by simp) hFit
      rw [hAdd]
      exact ih (hBuild.imp_right fun hFit => by rw [List.length_cons] at hFit; omega) out current
    · have hOne : (1 : UInt64) = UInt64.ofNat 1 := rfl
      rw [hOne, ih (hBuild.imp_right fun hFit => by rw [List.length_cons] at hFit; omega),
        List.flatMap_cons, putVarint_eq, UInt64.toNat_ofNat', writeRun]
      simp

theorem encodeTransition_eq (build : Build) {packed : List UInt8} {unitsize : Nat}
    (hUnit : 0 < unitsize) (hBuild : build = .optimised ∨ packed.length < 2 ^ 64) :
    encodeTransition build packed unitsize =
      .ok ((runs (chunksExact unitsize packed)).flatMap writeRun) := by
  have hLength := length_chunksExact hUnit packed
  rw [encodeTransition, if_neg (Nat.ne_of_gt hUnit)]
  cases hSamples : chunksExact unitsize packed with
  | nil => rfl
  | cons current samples =>
    rw [hSamples, List.length_cons] at hLength
    have hFit : build = .optimised ∨ 1 + samples.length < 2 ^ 64 :=
      hBuild.imp_right fun h => by
        have hDiv := Nat.div_le_self packed.length unitsize
        omega
    exact encodeFrom_eq hFit [] current

theorem exists_record_of_run {unitsize : Nat} {run : Nat × List UInt8}
    (hCount : run.1 < 2 ^ 64) (hValue : run.2.length = unitsize) :
    ∃ record : Record unitsize, record.bytes = writeRun run ∧ record.count = run.1 ∧
      record.value = run.2 := by
  have hShort : (shortest run.1).length ≤ 10 :=
    length_shortest_le (Nat.lt_trans hCount (by decide))
  refine ⟨⟨shortest run.1, run.1, run.2, numeral_shortest run.1, hShort, hValue⟩, ?_, rfl, rfl⟩
  rw [Record.bytes, writeRun, Nat.mod_eq_of_lt hCount]

theorem exists_records_of_runs {unitsize : Nat} {runs : List (Nat × List UInt8)}
    (h : ∀ run ∈ runs, 0 < run.1 ∧ run.1 < 2 ^ 64 ∧ run.2.length = unitsize) :
    ∃ records : List (Record unitsize), records.flatMap Record.bytes = runs.flatMap writeRun ∧
      (∀ record ∈ records, 1 ≤ record.count ∧ record.count ≤ 2 ^ 64 - 1) ∧
      (records.map Record.count).sum = (runs.map Prod.fst).sum ∧
      expandBy Record.count records = (expand runs).flatten := by
  induction runs with
  | nil => exact ⟨[], rfl, by simp, rfl, rfl⟩
  | cons run runs ih =>
    obtain ⟨hPos, hCount, hValue⟩ := h run List.mem_cons_self
    obtain ⟨record, hBytes, hSame, hRepeat⟩ := exists_record_of_run hCount hValue
    obtain ⟨records, hTail, hCounts, hSum, hExpand⟩ :=
      ih fun r hr => h r (List.mem_cons_of_mem _ hr)
    refine ⟨record :: records, ?_, ?_, ?_, ?_⟩
    · rw [List.flatMap_cons, List.flatMap_cons, hBytes, hTail]
    · intro r hr
      rcases List.mem_cons.mp hr with rfl | hr
      · omega
      · exact hCounts r hr
    · rw [List.map_cons, List.map_cons, List.sum_cons, List.sum_cons, hSame, hSum]
    · rw [expand_cons, List.flatten_append, ← hExpand, ← hSame, ← hRepeat]
      rfl

/-- The encoder's output is the format's reading of the whole samples of `packed`. -/
theorem isTransition_encode {packed : List UInt8} {unitsize : Nat} (hUnit : 0 < unitsize)
    (hLength : packed.length < 2 ^ 64) :
    IsTransition unitsize (packed.length / unitsize)
      ((runs (chunksExact unitsize packed)).flatMap writeRun)
      (packed.take (packed.length / unitsize * unitsize)) := by
  have hSamples := length_chunksExact hUnit packed
  have hDiv := Nat.div_le_self packed.length unitsize
  have hRuns : ∀ run ∈ runs (chunksExact unitsize packed),
      0 < run.1 ∧ run.1 < 2 ^ 64 ∧ run.2.length = unitsize := by
    intro run hRun
    have hCount := le_length_of_mem_runs hRun
    exact ⟨pos_of_mem_runs hRun, by omega,
      length_of_mem_chunksExact hUnit (mem_of_mem_runs hRun)⟩
  obtain ⟨records, hBytes, hCounts, hSum, hExpand⟩ := exists_records_of_runs hRuns
  refine ⟨records, hBytes.symm, hCounts, ?_, ?_⟩
  · rw [hSum, ← length_expand, expand_runs, hSamples]
  · rw [hExpand, expand_runs, flatten_chunksExact hUnit]

theorem decodeTransition_runs (build : Build) {packed : List UInt8} {unitsize : Nat}
    (hUnit : 0 < unitsize) (hLength : packed.length < 2 ^ 63) :
    decodeTransition build ((runs (chunksExact unitsize packed)).flatMap writeRun) unitsize
        (packed.length / unitsize) =
      .ok (packed.take (packed.length / unitsize * unitsize)) :=
  decodeTransition_of_isTransition hUnit
    (Nat.lt_of_le_of_lt (Nat.div_mul_le_self packed.length unitsize) hLength)
    (isTransition_encode hUnit (Nat.lt_trans hLength (by decide)))

theorem decodeTransition_runs_of_dvd (build : Build) {packed : List UInt8} {unitsize : Nat}
    (hUnit : 0 < unitsize) (hWhole : unitsize ∣ packed.length) (hLength : packed.length < 2 ^ 63) :
    decodeTransition build ((runs (chunksExact unitsize packed)).flatMap writeRun) unitsize
        (packed.length / unitsize) = .ok packed := by
  rw [decodeTransition_runs build hUnit hLength, Nat.div_mul_cancel hWhole, List.take_length]

theorem decodeTransition_encodeTransition (build : Build) (packed : List UInt8) (unitsize : Nat)
    (hUnit : 0 < unitsize) (hLength : packed.length < 2 ^ 63) :
    (do
      let payload ← encodeTransition build packed unitsize
      decodeTransition build payload unitsize (packed.length / unitsize)) =
        .ok (packed.take (packed.length / unitsize * unitsize)) ∧
    (unitsize ∣ packed.length →
      (do
        let payload ← encodeTransition build packed unitsize
        decodeTransition build payload unitsize (packed.length / unitsize)) = .ok packed) := by
  rw [encodeTransition_eq _ hUnit (.inr (Nat.lt_trans hLength (by decide)))]
  exact ⟨decodeTransition_runs build hUnit hLength,
    fun hWhole => decodeTransition_runs_of_dvd build hUnit hWhole hLength⟩

theorem decodeTransition_encodeTransition_pairs :
    (do
      let payload ← encodeTransition .checked [1, 2, 1, 2, 3, 4, 9] 2
      decodeTransition .checked payload 2 3) = .ok [1, 2, 1, 2, 3, 4] :=
  (decodeTransition_encodeTransition .checked [1, 2, 1, 2, 3, 4, 9] 2 (by decide) (by decide)).1

end OpenMso.Encoding
