import OpenMso.Encoding.Varint
import OpenMso.Foundation.RunLength

/-! # The run-length format and the pair of functions that writes and reads it

A payload is a sequence of records. The decoder accepts every sequence of
records whose run lengths, reduced modulo the word, are positive and add up to
the declared count; the format asks for the exact run lengths to do so.
-/

namespace OpenMso.Encoding

open Foundation.Machine Foundation.Chunks Foundation.Leb128 Foundation.RunLength

set_option autoImplicit false

/-- A run length as it is written, its exact value, and the sample it repeats. -/
@[ext] structure Record (unitsize : Nat) where
  header : List UInt8
  count : Nat
  value : List UInt8
  numeral : Numeral header count
  short : header.length ≤ 10
  width : value.length = unitsize

namespace Record

variable {unitsize : Nat}

def bytes (record : Record unitsize) : List UInt8 := record.header ++ record.value

/-- The run length that fits the word. -/
def wrapped (record : Record unitsize) : Nat := record.count % 2 ^ 64

/-- The run the decoder takes a record for. -/
def run (record : Record unitsize) : Nat × List UInt8 := (record.wrapped, record.value)

theorem bytes_ne_nil (record : Record unitsize) : record.bytes ≠ [] :=
  fun h => record.numeral.ne_nil (List.append_eq_nil_iff.mp h).1

/-- A payload has at most one reading as a sequence of records. -/
theorem flatMap_bytes_inj {records records' : List (Record unitsize)}
    (h : records.flatMap bytes = records'.flatMap bytes) : records = records' := by
  induction records generalizing records' with
  | nil =>
    cases records' with
    | nil => rfl
    | cons record' _ =>
      exact absurd (List.append_eq_nil_iff.mp h.symm).1 record'.bytes_ne_nil
  | cons record records ih =>
    cases records' with
    | nil => exact absurd (List.append_eq_nil_iff.mp h).1 record.bytes_ne_nil
    | cons record' records' =>
      rw [List.flatMap_cons, List.flatMap_cons, bytes, bytes, List.append_assoc,
        List.append_assoc] at h
      obtain ⟨hHeader, hCount, hRest⟩ := record.numeral.append_inj record'.numeral h
      obtain ⟨hValue, hTail⟩ := List.append_inj hRest (record.width.trans record'.width.symm)
      rw [Record.ext hHeader hCount hValue, ih hTail]

end Record

/-- Each record's value repeated, `count` saying how often. -/
def expandBy {unitsize : Nat} (count : Record unitsize → Nat) (records : List (Record unitsize)) :
    List UInt8 :=
  records.flatMap fun record => (List.replicate (count record) record.value).flatten

theorem length_expandBy {unitsize : Nat} (count : Record unitsize → Nat)
    (records : List (Record unitsize)) :
    (expandBy count records).length = (records.map count).sum * unitsize := by
  induction records with
  | nil => simp [expandBy]
  | cons record records ih =>
    simp only [expandBy, List.flatMap_cons, List.length_append, List.map_cons, List.sum_cons,
      Nat.add_mul] at ih ⊢
    rw [ih]
    simp [record.width]

theorem flatten_expand_run {unitsize : Nat} (records : List (Record unitsize)) :
    (expand (records.map Record.run)).flatten = expandBy Record.wrapped records := by
  induction records with
  | nil => rfl
  | cons record records ih =>
    rw [List.map_cons, expand_cons, List.flatten_append, ih]
    rfl

theorem expandBy_congr {unitsize : Nat} {count count' : Record unitsize → Nat}
    {records : List (Record unitsize)} (h : ∀ record ∈ records, count record = count' record) :
    expandBy count records = expandBy count' records := by
  induction records with
  | nil => rfl
  | cons record records ih =>
    simp only [expandBy, List.flatMap_cons] at ih ⊢
    rw [ih fun r hr => h r (List.mem_cons_of_mem _ hr), h record List.mem_cons_self]

theorem extendRun_eq (out value : List UInt8) (run : Nat) :
    extendRun out value run = out ++ (List.replicate run value).flatten := by
  induction run generalizing out with
  | zero => simp [extendRun]
  | succ run ih => simp [extendRun, ih, List.replicate_succ]

theorem getVarint_bytes {unitsize : Nat} (record : Record unitsize) (hWrapped : record.wrapped ≠ 0)
    (rest : List UInt8) : ∃ run, getVarint (record.bytes ++ rest) = .ok (run, record.value ++ rest) ∧
      run.toNat = record.wrapped := by
  have hNat : (UInt64.ofNat record.count).toNat = record.wrapped := UInt64.toNat_ofNat'
  have hValue : UInt64.ofNat record.count ≠ 0 := by
    intro h
    rw [h] at hNat
    exact hWrapped hNat.symm
  refine ⟨_, getVarint_eq_ok_iff.mpr ⟨record.header, record.count, ?_, record.numeral, record.short,
    rfl, hValue⟩, hNat⟩
  rw [Record.bytes, List.append_assoc]

/-- One turn of the decoder's loop reads one record. -/
theorem decodeFrom_cons {unitsize : Nat} (record : Record unitsize) (hWrapped : record.wrapped ≠ 0)
    (out rest : List UInt8) :
    decodeFrom unitsize out (record.bytes ++ rest) =
      decodeFrom unitsize (out ++ (List.replicate record.wrapped record.value).flatten) rest := by
  obtain ⟨run, hRead, hRun⟩ := getVarint_bytes record hWrapped rest
  rw [decodeFrom_of_ok (by simp [record.bytes_ne_nil]) hRead, if_neg (by simp [record.width]),
    List.take_left' record.width, List.drop_left' record.width, extendRun_eq, hRun]

theorem record_of_getVarint {unitsize : Nat} {rest tail : List UInt8} {run : UInt64}
    (h : getVarint rest = .ok (run, tail)) (hTail : unitsize ≤ tail.length) :
    ∃ record : Record unitsize, rest = record.bytes ++ tail.drop unitsize ∧
      record.value = tail.take unitsize ∧ record.wrapped = run.toNat ∧ record.wrapped ≠ 0 := by
  obtain ⟨bytes, n, hRest, hNumeral, hShort, hRun, hZero⟩ := getVarint_eq_ok_iff.mp h
  have hWrapped : n % 2 ^ 64 = run.toNat := by rw [hRun, UInt64.toNat_ofNat']
  refine ⟨⟨bytes, n, tail.take unitsize, hNumeral, hShort, by simp [hTail]⟩, ?_, rfl, hWrapped, ?_⟩
  · rw [Record.bytes, List.append_assoc, List.take_append_drop, hRest]
  · intro hNone
    exact hZero (UInt64.toNat_inj.mp (hWrapped.symm.trans hNone))

theorem decodeFrom_eq_ok_iff {unitsize : Nat} {out rest result : List UInt8} :
    decodeFrom unitsize out rest = .ok result ↔
      ∃ records : List (Record unitsize), rest = records.flatMap Record.bytes ∧
        (∀ record ∈ records, record.wrapped ≠ 0) ∧
        result = out ++ expandBy Record.wrapped records := by
  constructor
  · intro h
    fun_induction decodeFrom unitsize out rest with
    | case1 out =>
      cases h
      exact ⟨[], rfl, by simp, by simp [expandBy]⟩
    | case2 => cases h
    | case3 => cases h
    | case4 out rest _ run tail hRun hTail ih =>
      obtain ⟨record, hRest, hValue, hRun, hWrapped⟩ :=
        record_of_getVarint hRun (Nat.le_of_not_lt hTail)
      obtain ⟨records, hTail, hAll, rfl⟩ := ih h
      refine ⟨record :: records, ?_, ?_, ?_⟩
      · rw [hRest, hTail, List.flatMap_cons]
      · intro r hr
        rcases List.mem_cons.mp hr with rfl | hr
        · exact hWrapped
        · exact hAll r hr
      · rw [extendRun_eq, ← hValue, ← hRun, List.append_assoc]
        rfl
  · rintro ⟨records, rfl, hWrapped, rfl⟩
    induction records generalizing out with
    | nil =>
      rw [List.flatMap_nil, decodeFrom, if_pos rfl]
      simp [expandBy]
    | cons record records ih =>
      rw [List.flatMap_cons, decodeFrom_cons record (hWrapped record List.mem_cons_self),
        ih fun r hr => hWrapped r (List.mem_cons_of_mem _ hr)]
      simp [expandBy]

theorem decodeTransition_of_mul {build : Build} {unitsize samples size : Nat} (payload : List UInt8)
    (hUnit : 0 < unitsize) (hMul : (mulUsize build samples unitsize : Call Error Nat) = .ok size)
    (hSize : size < 2 ^ 63) :
    decodeTransition build payload unitsize samples =
      match decodeFrom unitsize [] payload with
      | .error e => .error (.error e)
      | .ok out =>
        if out.length = size then .ok out
        else .error (.error (.protocol
          (s!"transition payload expands to {out.length / unitsize} samples, " ++
            s!"not the {samples} declared"))) := by
  have hCapacity : (withCapacity size : Call Error (List UInt8)) = .ok [] :=
    withCapacity_of_lt hSize
  rw [decodeTransition]
  simp only [if_neg (Nat.ne_of_gt hUnit), hMul, hCapacity, raise, bind, Except.bind, pure,
    Except.pure]
  cases decodeFrom unitsize [] payload with
  | error e => rfl
  | ok out =>
    simp only [lift]
    split <;> simp_all

theorem decodeTransition_of_lt {unitsize samples : Nat} (build : Build) (payload : List UInt8)
    (hUnit : 0 < unitsize) (hSize : samples * unitsize < 2 ^ 63) :
    decodeTransition build payload unitsize samples =
      match decodeFrom unitsize [] payload with
      | .error e => .error (.error e)
      | .ok out =>
        if out.length = samples * unitsize then .ok out
        else .error (.error (.protocol
          (s!"transition payload expands to {out.length / unitsize} samples, " ++
            s!"not the {samples} declared"))) :=
  decodeTransition_of_mul payload hUnit (mulUsize_of_lt build (Nat.lt_trans hSize (by decide))) hSize

/-- The decoder as a whole: it accepts what its loop accepts, when the run lengths add up. -/
theorem decodeTransition_eq_ok_iff {build : Build} {payload out : List UInt8}
    {unitsize samples : Nat} (hUnit : 0 < unitsize) (hSize : samples * unitsize < 2 ^ 63) :
    decodeTransition build payload unitsize samples = .ok out ↔
      ∃ records : List (Record unitsize), payload = records.flatMap Record.bytes ∧
        (∀ record ∈ records, record.wrapped ≠ 0) ∧
        (records.map Record.wrapped).sum = samples ∧ out = expandBy Record.wrapped records := by
  rw [decodeTransition_of_lt build payload hUnit hSize]
  constructor
  · intro h
    cases hLoop : decodeFrom unitsize [] payload with
    | error e =>
      rw [hLoop] at h
      cases h
    | ok result =>
      obtain ⟨records, hPayload, hWrapped, rfl⟩ := decodeFrom_eq_ok_iff.mp hLoop
      rw [hLoop] at h
      dsimp only at h
      split at h
      · rename_i hLength
        cases h
        rw [List.nil_append, length_expandBy] at hLength
        exact ⟨records, hPayload, hWrapped, Nat.eq_of_mul_eq_mul_right hUnit hLength, rfl⟩
      · cases h
  · rintro ⟨records, hPayload, hWrapped, hSum, rfl⟩
    have hLoop : decodeFrom unitsize [] payload = .ok (expandBy Record.wrapped records) :=
      decodeFrom_eq_ok_iff.mpr ⟨records, hPayload, hWrapped, rfl⟩
    rw [hLoop]
    exact if_pos (by rw [length_expandBy, hSum])

theorem decodeTransition_cases {unitsize samples : Nat} (build : Build) (payload : List UInt8)
    (hUnit : 0 < unitsize) (hSize : samples * unitsize < 2 ^ 63) :
    (∃ out, decodeTransition build payload unitsize samples = .ok out) ∨
      ∃ e, decodeTransition build payload unitsize samples = .error (.error e) := by
  rw [decodeTransition_of_lt build payload hUnit hSize]
  cases decodeFrom unitsize [] payload with
  | error e => exact .inr ⟨e, rfl⟩
  | ok out =>
    dsimp only
    split
    · exact .inl ⟨out, rfl⟩
    · exact .inr ⟨_, rfl⟩

/-- `out` is what the format says `payload` stands for, with `samples` samples in all. -/
def IsTransition (unitsize samples : Nat) (payload out : List UInt8) : Prop :=
  ∃ records : List (Record unitsize), payload = records.flatMap Record.bytes ∧
    (∀ record ∈ records, 1 ≤ record.count ∧ record.count ≤ 2 ^ 64 - 1) ∧
    (records.map Record.count).sum = samples ∧ out = expandBy Record.count records

/-- A run length of `payload` is too large for the word, yet what is left of all of
them modulo the word is positive and adds up to `samples`. -/
def IsOversized (unitsize samples : Nat) (payload : List UInt8) : Prop :=
  ∃ records : List (Record unitsize), payload = records.flatMap Record.bytes ∧
    (∀ record ∈ records, record.wrapped ≠ 0) ∧ (records.map Record.wrapped).sum = samples ∧
    ∃ record ∈ records, 2 ^ 64 ≤ record.count

/-- Decoding gives what the format says, and an error where the format says nothing. -/
def DecodesFormat (build : Build) (unitsize samples : Nat) (payload : List UInt8) : Prop :=
  (∀ out, decodeTransition build payload unitsize samples = .ok out ↔
    IsTransition unitsize samples payload out) ∧
  ((∀ out, ¬ IsTransition unitsize samples payload out) →
    ∃ e, decodeTransition build payload unitsize samples = .error (.error e))

theorem wrapped_eq_of_lt {unitsize : Nat} {record : Record unitsize}
    (h : record.count ≤ 2 ^ 64 - 1) : record.wrapped = record.count :=
  Nat.mod_eq_of_lt (by omega)

/-- Run lengths that fit the word are read exactly. -/
theorem decodeTransition_of_isTransition {build : Build} {payload out : List UInt8}
    {unitsize samples : Nat} (hUnit : 0 < unitsize) (hSize : samples * unitsize < 2 ^ 63)
    (h : IsTransition unitsize samples payload out) :
    decodeTransition build payload unitsize samples = .ok out := by
  obtain ⟨records, hPayload, hCounts, hSum, rfl⟩ := h
  have hEq : ∀ record ∈ records, record.wrapped = record.count :=
    fun record hRecord => wrapped_eq_of_lt (hCounts record hRecord).2
  refine (decodeTransition_eq_ok_iff hUnit hSize).mpr ⟨records, hPayload, ?_, ?_, ?_⟩
  · intro record hRecord
    have hPos := (hCounts record hRecord).1
    rw [hEq record hRecord]
    omega
  · rw [List.map_congr_left hEq, hSum]
  · exact (expandBy_congr hEq).symm

/-- An oversized payload is decoded although the format gives it no meaning. -/
theorem not_isTransition_of_isOversized {unitsize samples : Nat} {payload : List UInt8}
    (h : IsOversized unitsize samples payload) (out : List UInt8) :
    ¬ IsTransition unitsize samples payload out := by
  obtain ⟨records, hPayload, _, _, record, hRecord, hLarge⟩ := h
  rintro ⟨records', hPayload', hCounts, _, _⟩
  have hSame : records = records' := Record.flatMap_bytes_inj (hPayload.symm.trans hPayload')
  have hSmall := (hCounts record (hSame ▸ hRecord)).2
  omega

theorem decodeTransition_of_isOversized (build : Build) {payload : List UInt8}
    {unitsize samples : Nat} (hUnit : 0 < unitsize) (hSize : samples * unitsize < 2 ^ 63)
    (h : IsOversized unitsize samples payload) :
    ∃ out, decodeTransition build payload unitsize samples = .ok out := by
  obtain ⟨records, hPayload, hWrapped, hSum, _⟩ := h
  exact ⟨_, (decodeTransition_eq_ok_iff hUnit hSize).mpr ⟨records, hPayload, hWrapped, hSum, rfl⟩⟩

/-- The decoder meets the format exactly on the payloads that are not oversized. -/
theorem decodesFormat_iff (build : Build) (payload : List UInt8) (unitsize samples : Nat)
    (hUnit : 0 < unitsize) (hSize : samples * unitsize < 2 ^ 63) :
    DecodesFormat build unitsize samples payload ↔ ¬ IsOversized unitsize samples payload := by
  constructor
  · rintro ⟨hFormat, _⟩ hLarge
    obtain ⟨out, hOk⟩ := decodeTransition_of_isOversized build hUnit hSize hLarge
    exact not_isTransition_of_isOversized hLarge out ((hFormat out).mp hOk)
  · intro hSmall
    have hSound (out : List UInt8) (h : decodeTransition build payload unitsize samples = .ok out) :
        IsTransition unitsize samples payload out := by
      obtain ⟨records, hPayload, hWrapped, hSum, rfl⟩ :=
        (decodeTransition_eq_ok_iff hUnit hSize).mp h
      have hCount : ∀ record ∈ records, record.count ≤ 2 ^ 64 - 1 := by
        intro record hRecord
        by_contra hLarge
        exact hSmall ⟨records, hPayload, hWrapped, hSum, record, hRecord, by omega⟩
      have hEq : ∀ record ∈ records, record.count = record.wrapped :=
        fun record hRecord => (wrapped_eq_of_lt (hCount record hRecord)).symm
      refine ⟨records, hPayload, fun record hRecord => ⟨?_, hCount record hRecord⟩, ?_, ?_⟩
      · have hPos := hWrapped record hRecord
        rw [← hEq record hRecord] at hPos
        omega
      · rw [List.map_congr_left hEq, hSum]
      · exact (expandBy_congr hEq).symm
    refine ⟨fun out => ⟨hSound out, decodeTransition_of_isTransition hUnit hSize⟩, fun hNone => ?_⟩
    rcases decodeTransition_cases build payload hUnit hSize with ⟨out, hOk⟩ | hError
    · exact absurd (hSound out hOk) (hNone out)
    · exact hError

theorem decodesFormat_two_records :
    DecodesFormat .checked 1 3 [0x02, 7, 0x81, 0x00, 9] ↔ ¬ IsOversized 1 3 [0x02, 7, 0x81, 0x00, 9] :=
  decodesFormat_iff .checked [0x02, 7, 0x81, 0x00, 9] 1 3 (by decide) (by decide)

theorem numeral_two_pow_64_succ :
    Numeral [0x81, 0x80, 0x80, 0x80, 0x80, 0x80, 0x80, 0x80, 0x80, 0x02] (2 ^ 64 + 1) := by
  have hNine := Numeral.more 0x80 (by decide) (.last 0x02 (by decide))
  have hEight := Numeral.more 0x80 (by decide) hNine
  have hSeven := Numeral.more 0x80 (by decide) hEight
  have hSix := Numeral.more 0x80 (by decide) hSeven
  have hFive := Numeral.more 0x80 (by decide) hSix
  have hFour := Numeral.more 0x80 (by decide) hFive
  have hThree := Numeral.more 0x80 (by decide) hFour
  have hTwo := Numeral.more 0x80 (by decide) hThree
  simpa using Numeral.more 0x81 (by decide) hTwo

/-- The tenth byte's second bit lies beyond the word. -/
def oversizedRecord : Record 1 :=
  ⟨_, _, [7], numeral_two_pow_64_succ, by decide, rfl⟩

/-- Ten bytes that stand for 2^64 + 1 are read as a run of one. -/
theorem oversized_run_is_accepted :
    decodeTransition .optimised [0x81, 0x80, 0x80, 0x80, 0x80, 0x80, 0x80, 0x80, 0x80, 0x02, 7] 1 1 =
        .ok [7] ∧
      ¬ IsTransition 1 1 [0x81, 0x80, 0x80, 0x80, 0x80, 0x80, 0x80, 0x80, 0x80, 0x02, 7] [7] := by
  have hWrapped : oversizedRecord.wrapped = 1 := by decide
  constructor
  · exact (decodeTransition_eq_ok_iff (by decide) (by decide)).mpr
      ⟨[oversizedRecord], rfl, by simp [hWrapped], by simp [hWrapped], by decide⟩
  · exact not_isTransition_of_isOversized ⟨[oversizedRecord], rfl, by simp [hWrapped],
      by simp [hWrapped], oversizedRecord, by simp, by decide⟩ [7]

end OpenMso.Encoding
