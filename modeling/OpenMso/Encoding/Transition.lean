import OpenMso.Error
import OpenMso.Foundation.Chunks
import OpenMso.Foundation.Machine

/-! # Sample encodings and their negotiation (Rust)

`encoding.rs`. Lengths and `usize` values are natural numbers: only the two
products formed by `decodeTransition` can leave the word, and those go
through `mulUsize`.
-/

namespace OpenMso.Encoding

open Foundation.Machine Foundation.Chunks

set_option autoImplicit false

def putVarint (out : List UInt8) (value : UInt64) : List UInt8 :=
  if 0x80 ≤ value then putVarint (out ++ [value.toUInt8 ||| 0x80]) (value >>> 7)
  else out ++ [value.toUInt8]
termination_by value.toNat
decreasing_by
  rename_i h
  have hValue : 128 ≤ value.toNat := UInt64.le_iff_toNat_le.mp h
  rw [UInt64.toNat_shiftRight, Nat.shiftRight_eq_div_pow]
  exact Nat.div_lt_self (by omega) (by decide)

/-- The loop of `getVarint`: `left` bytes may still be read, `i` have been. -/
def getVarintFrom (i : Nat) (value : UInt64) : Nat → List UInt8 → Except Error (UInt64 × List UInt8)
  | 0, _ => .error (.protocol "truncated or oversized varint")
  | _ + 1, [] => .error (.protocol "truncated or oversized varint")
  | left + 1, byte :: rest =>
    let value := value ||| ((byte &&& 0x7f).toUInt64 <<< UInt64.ofNat (i * 7))
    if byte &&& 0x80 = 0 then
      if value = 0 then .error (.protocol "transition run length of 0") else .ok (value, rest)
    else getVarintFrom (i + 1) value left rest

def getVarint (input : List UInt8) : Except Error (UInt64 × List UInt8) :=
  getVarintFrom 0 0 10 input

theorem length_lt_of_getVarintFrom {i : Nat} {acc value : UInt64} {left : Nat}
    {input rest : List UInt8} (h : getVarintFrom i acc left input = .ok (value, rest)) :
    rest.length < input.length := by
  induction left generalizing i acc input with
  | zero => cases h
  | succ left ih =>
    cases input with
    | nil => cases h
    | cons byte input =>
      rw [getVarintFrom] at h
      split at h
      · split at h
        · cases h
        · cases h
          simp
      · have hTail := ih h
        simp only [List.length_cons]
        omega

/-- The loop of `encodeTransition` over the samples after `current`. -/
def encodeFrom (build : Build) (out current : List UInt8) (run : UInt64) :
    List (List UInt8) → Call Error (List UInt8)
  | [] => .ok (putVarint out run ++ current)
  | sample :: samples =>
    if sample = current then do
      let run ← addU64 build run 1
      encodeFrom build out current run samples
    else encodeFrom build (putVarint out run ++ current) sample 1 samples

def encodeTransition (build : Build) (packed : List UInt8) (unitsize : Nat) :
    Call Error (List UInt8) :=
  if unitsize = 0 then .error (.panic "unitsize must be positive")
  else match chunksExact unitsize packed with
    | [] => .ok []
    | current :: samples => encodeFrom build [] current 1 samples

/-- `for _ in 0..run { out.extend_from_slice(value) }`, in a buffer that has room for it. -/
def extendRun (out value : List UInt8) : Nat → List UInt8
  | 0 => out
  | run + 1 => extendRun (out ++ value) value run

/-- The loop of `decodeTransition`: what is left of the payload, and the samples so far. -/
def decodeFrom (unitsize : Nat) (out rest : List UInt8) : Except Error (List UInt8) :=
  if rest = [] then .ok out
  else match _hRun : getVarint rest with
    | .error e => .error e
    | .ok (run, tail) =>
      if tail.length < unitsize then .error (.protocol "transition run is missing its value")
      else decodeFrom unitsize (extendRun out (tail.take unitsize) run.toNat) (tail.drop unitsize)
termination_by rest.length
decreasing_by
  have hTail := length_lt_of_getVarintFrom _hRun
  rw [List.length_drop]
  omega

theorem decodeFrom_of_error {unitsize : Nat} {out rest : List UInt8} {e : Error}
    (hRest : rest ≠ []) (hRun : getVarint rest = .error e) :
    decodeFrom unitsize out rest = .error e := by
  rw [decodeFrom, if_neg hRest]
  split
  · rename_i hError
    exact congrArg _ (Except.error.inj (hError.symm.trans hRun))
  · rename_i hOk
    cases hOk.symm.trans hRun

theorem decodeFrom_of_ok {unitsize : Nat} {out rest tail : List UInt8} {run : UInt64}
    (hRest : rest ≠ []) (hRun : getVarint rest = .ok (run, tail)) :
    decodeFrom unitsize out rest =
      if tail.length < unitsize then .error (.protocol "transition run is missing its value")
      else decodeFrom unitsize (extendRun out (tail.take unitsize) run.toNat)
        (tail.drop unitsize) := by
  rw [decodeFrom, if_neg hRest]
  split
  · rename_i hError
    cases hError.symm.trans hRun
  · rename_i hOk
    cases hOk.symm.trans hRun
    rfl

def decodeTransition (build : Build) (payload : List UInt8) (unitsize samples : Nat) :
    Call Error (List UInt8) :=
  if unitsize = 0 then raise (.protocol "logic stream declared unitsize 0")
  else do
    let capacity ← mulUsize build samples unitsize
    let out ← withCapacity capacity
    let out ← lift (decodeFrom unitsize out payload)
    let declared ← mulUsize build samples unitsize
    if out.length ≠ declared then
      raise (.protocol (s!"transition payload expands to {out.length / unitsize} samples, " ++
        s!"not the {samples} declared"))
    else return out

/-- Undo the codec and the sample encoding of one chunk. The packed path
returns the payload as it came. -/
def decodePayload (build : Build) (data : Proto.CaptureData) (unitsize : Nat) :
    Call Error (List UInt8) :=
  match (Proto.Codec.tryFrom data.codec).getD .unspecified with
  | .none | .unspecified =>
    match (Proto.SampleEncoding.tryFrom data.encoding).getD .unspecified with
    | .packed | .unspecified => .ok data.payload
    | .transition => decodeTransition build data.payload unitsize data.sampleCount.toNat
  | other => raise (.protocol s!"{other.asStrName} is not decodable here")

/-- What this crate can decode, in preference order. -/
def encodings : List Proto.SampleEncoding := [.transition, .packed]
def codecs : List Proto.Codec := [.none]

/-- Intersect a peer's `accept_` list with ours, keeping our preference order. -/
def intersect (accept supported : List Int32) (mandatory : Int32) : List Int32 :=
  if accept = [] then [mandatory]
  else
    let out := supported.filter fun s => accept.contains s
    if out.contains mandatory then out else out ++ [mandatory]

def negotiateEncodings (accept : List Int32) (supported : List Proto.SampleEncoding) : List Int32 :=
  intersect accept (supported.map Proto.SampleEncoding.toI32) Proto.SampleEncoding.packed.toI32

def negotiateCodecs (accept : List Int32) (supported : List Proto.Codec) : List Int32 :=
  intersect accept (supported.map Proto.Codec.toI32) Proto.Codec.none.toI32

def accepts (negotiated : List Int32) (encoding : Proto.SampleEncoding) : Bool :=
  negotiated.contains encoding.toI32

end OpenMso.Encoding
