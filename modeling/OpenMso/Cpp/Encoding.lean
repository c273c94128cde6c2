import OpenMso.Cpp.Error
import OpenMso.Foundation.Machine

/-! # Sample encodings and their negotiation (C++)

`encoding.cpp`, with strings as lists of bytes and positions as natural
numbers: every index the code forms stays within the string it indexes. An
exception of the standard library is the `panic` case of a call.
-/

namespace OpenMso.Cpp.Encoding

open Foundation.Machine

set_option autoImplicit false

def putVarint (out : List UInt8) (value : UInt64) : List UInt8 :=
  if 0x80 ≤ value then putVarint (out ++ [(value ||| 0x80).toUInt8]) (value >>> 7)
  else out ++ [value.toUInt8]
termination_by value.toNat
decreasing_by
  rename_i h
  have hValue : 128 ≤ value.toNat := UInt64.le_iff_toNat_le.mp h
  rw [UInt64.toNat_shiftRight, Nat.shiftRight_eq_div_pow]
  exact Nat.div_lt_self (by omega) (by decide)

/-- The loop of `getVarint`: `left` more values of `i` are below ten. -/
def getVarintFrom (input : List UInt8) (pos i : Nat) (value : UInt64) :
    Nat → Except Error (Nat × UInt64)
  | 0 => .error (.protocol "truncated or oversized varint")
  | left + 1 =>
    match input[pos + i]? with
    | none => .error (.protocol "truncated or oversized varint")
    | some byte =>
      let value := value ||| ((byte &&& 0x7f).toUInt64 <<< UInt64.ofNat (i * 7))
      if byte &&& 0x80 = 0 then
        if value = 0 then .error (.protocol "transition run length of 0")
        else .ok (pos + i + 1, value)
      else getVarintFrom input pos (i + 1) value left

/-- The position after the varint, and its value. -/
def getVarint (input : List UInt8) (pos : Nat) : Except Error (Nat × UInt64) :=
  getVarintFrom input pos 0 0 10

theorem pos_lt_of_getVarintFrom {input : List UInt8} {pos i next left : Nat} {acc value : UInt64}
    (h : getVarintFrom input pos i acc left = .ok (next, value)) : pos < next := by
  induction left generalizing i acc with
  | zero => cases h
  | succ left ih =>
    rw [getVarintFrom] at h
    split at h
    · cases h
    · dsimp only at h
      split at h
      · split at h
        · cases h
        · cases h
          omega
      · exact ih h

def substr (s : List UInt8) (pos size : Nat) : List UInt8 := (s.drop pos).take size

/-- The loop of `encodeTransition` from sample `i` on. -/
def encodeFrom (packed : List UInt8) (unitsize samples : Nat) (out : List UInt8) (runStart : Nat)
    (run : UInt64) (i : Nat) : List UInt8 :=
  if i < samples then
    if substr packed (i * unitsize) unitsize = substr packed (runStart * unitsize) unitsize then
      encodeFrom packed unitsize samples out runStart (run + 1) (i + 1)
    else
      encodeFrom packed unitsize samples
        (putVarint out run ++ substr packed (runStart * unitsize) unitsize) i 1 (i + 1)
  else putVarint out run ++ substr packed (runStart * unitsize) unitsize
termination_by samples - i

def encodeTransition (packed : List UInt8) (unitsize : Nat) : Except Error (List UInt8) :=
  if unitsize = 0 then .error (.protocol "unitsize must be positive")
  else
    let samples := packed.length / unitsize
    if samples = 0 then .ok [] else .ok (encodeFrom packed unitsize samples [] 0 1 1)

/-- `for (i < run) out.append(payload, pos, unitsize)`, to a string that has room for it. -/
def appendRun (payload : List UInt8) (pos unitsize : Nat) (out : List UInt8) : Nat → List UInt8
  | 0 => out
  | run + 1 => appendRun payload pos unitsize (out ++ substr payload pos unitsize) run

/-- The loop of `decodeTransition` from position `pos` on. -/
def decodeFrom (payload : List UInt8) (unitsize : Nat) (out : List UInt8) (pos : Nat) :
    Except Error (List UInt8) :=
  if pos < payload.length then
    match _hRun : getVarint payload pos with
    | .error e => .error e
    | .ok (next, run) =>
      if payload.length - next < unitsize then
        .error (.protocol "transition run is missing its value")
      else decodeFrom payload unitsize (appendRun payload next unitsize out run.toNat)
        (next + unitsize)
  else .ok out
termination_by payload.length - pos
decreasing_by
  have hNext := pos_lt_of_getVarintFrom _hRun
  omega

theorem decodeFrom_of_error {payload : List UInt8} {unitsize pos : Nat} {out : List UInt8} {e : Error}
    (hPos : pos < payload.length) (hRun : getVarint payload pos = .error e) :
    decodeFrom payload unitsize out pos = .error e := by
  rw [decodeFrom, if_pos hPos]
  split
  · rename_i hError
    exact congrArg _ (Except.error.inj (hError.symm.trans hRun))
  · rename_i hOk
    cases hOk.symm.trans hRun

theorem decodeFrom_of_ok {payload : List UInt8} {unitsize pos next : Nat} {out : List UInt8}
    {run : UInt64} (hPos : pos < payload.length) (hRun : getVarint payload pos = .ok (next, run)) :
    decodeFrom payload unitsize out pos =
      if payload.length - next < unitsize then
        .error (.protocol "transition run is missing its value")
      else decodeFrom payload unitsize (appendRun payload next unitsize out run.toNat)
        (next + unitsize) := by
  rw [decodeFrom, if_pos hPos]
  split
  · rename_i hError
    cases hError.symm.trans hRun
  · rename_i hOk
    cases hOk.symm.trans hRun
    rfl

/-- `maxSize` is `std::string::max_size()`, which the implementation chooses. -/
def reserve (maxSize size : Nat) : Call Error Unit :=
  if size ≤ maxSize then .ok () else .error (.panic "basic_string::reserve")

def decodeTransition (maxSize : Nat) (payload : List UInt8) (unitsize samples : Nat) :
    Call Error (List UInt8) :=
  if unitsize = 0 then raise (.protocol "logic stream declared unitsize 0")
  else do
    reserve maxSize (samples * unitsize % 2 ^ 64)
    let out ← lift (decodeFrom payload unitsize [] 0)
    if out.length ≠ samples * unitsize % 2 ^ 64 then
      raise (.protocol ("transition payload expands to " ++ toString (out.length / unitsize) ++
        " samples, not the " ++ toString samples ++ " declared"))
    else return out

/-- `pb::Codec_Name`, empty for a number that names no enumerator. -/
def codecName (codec : Int32) : String :=
  ((Proto.Codec.tryFrom codec).map Proto.Codec.asStrName).getD ""

/-- The bytes of the view: of the payload itself, or of what was decoded. -/
def decodePayload (maxSize : Nat) (data : Proto.CaptureData) (unitsize : Nat) :
    Call Error (List UInt8) :=
  if data.codec = Proto.Codec.none.toI32 ∨ data.codec = Proto.Codec.unspecified.toI32 then
    if data.encoding = Proto.SampleEncoding.transition.toI32 then
      decodeTransition maxSize data.payload unitsize data.sampleCount.toNat
    else .ok data.payload
  else raise (.protocol (codecName data.codec ++ " is not decodable here"))

def supportedEncodings : List Proto.SampleEncoding := [.transition, .packed]
def supportedCodecs : List Proto.Codec := [.none]

/-- The loop of `intersect` over the supported numbers. -/
def intersectFrom (accept out : List Int32) : List Int32 → List Int32
  | [] => out
  | s :: supported =>
    intersectFrom accept (if accept.contains s then out ++ [s] else out) supported

def intersect (accept supported : List Int32) (mandatory : Int32) : List Int32 :=
  if accept.isEmpty then [mandatory]
  else
    let out := intersectFrom accept [] supported
    if out.contains mandatory then out else out ++ [mandatory]

def negotiateEncodings (accept : List Int32) (supported : List Proto.SampleEncoding) : List Int32 :=
  intersect accept (supported.map Proto.SampleEncoding.toI32) Proto.SampleEncoding.packed.toI32

def negotiateCodecs (accept : List Int32) (supported : List Proto.Codec) : List Int32 :=
  intersect accept (supported.map Proto.Codec.toI32) Proto.Codec.none.toI32

def accepts (negotiated : List Int32) (encoding : Proto.SampleEncoding) : Bool :=
  negotiated.contains encoding.toI32

end OpenMso.Cpp.Encoding
