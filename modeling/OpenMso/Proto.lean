/-! # The messages of the capture protocol

The schema's messages as far as the bindings read them. Open enumerations
travel as 32-bit integers, as the generated types have them; a field that no
function of the bindings reads (a sample rate, the description of a stream)
is left out of its message.
-/

namespace OpenMso.Proto

set_option autoImplicit false

inductive ErrorCode where
  | unspecified
  | errorInvalidRequest
  | errorUnsupported
  | errorDevice
  | errorDeviceDisconnected
  | errorBusy
  | errorTimeout
  | errorInternal
  deriving DecidableEq, Repr

def ErrorCode.toI32 : ErrorCode → Int32
  | .unspecified => 0
  | .errorInvalidRequest => 1
  | .errorUnsupported => 2
  | .errorDevice => 3
  | .errorDeviceDisconnected => 4
  | .errorBusy => 5
  | .errorTimeout => 7
  | .errorInternal => 8

/-- The enumerator with this number; 6 is reserved. -/
def ErrorCode.tryFrom (n : Int32) : Option ErrorCode :=
  if n = 0 then some .unspecified
  else if n = 1 then some .errorInvalidRequest
  else if n = 2 then some .errorUnsupported
  else if n = 3 then some .errorDevice
  else if n = 4 then some .errorDeviceDisconnected
  else if n = 5 then some .errorBusy
  else if n = 7 then some .errorTimeout
  else if n = 8 then some .errorInternal
  else none

def ErrorCode.asStrName : ErrorCode → String
  | .unspecified => "ERROR_CODE_UNSPECIFIED"
  | .errorInvalidRequest => "ERROR_INVALID_REQUEST"
  | .errorUnsupported => "ERROR_UNSUPPORTED"
  | .errorDevice => "ERROR_DEVICE"
  | .errorDeviceDisconnected => "ERROR_DEVICE_DISCONNECTED"
  | .errorBusy => "ERROR_BUSY"
  | .errorTimeout => "ERROR_TIMEOUT"
  | .errorInternal => "ERROR_INTERNAL"

/-- A well-formed refusal, as it goes on the wire. -/
structure Error where
  code : Int32
  message : String
  deriving DecidableEq, Repr

namespace Error

def new (code : ErrorCode) (message : String) : Error := ⟨code.toI32, message⟩
def invalid (message : String) : Error := new .errorInvalidRequest message
def unsupported (message : String) : Error := new .errorUnsupported message
def busy (message : String) : Error := new .errorBusy message
def device (message : String) : Error := new .errorDevice message

end Error

inductive SampleEncoding where
  | unspecified
  | packed
  | transition
  deriving DecidableEq, Repr

namespace SampleEncoding

def toI32 : SampleEncoding → Int32
  | .unspecified => 0
  | .packed => 1
  | .transition => 2

/-- The enumerator with this number, when this version of the schema has one. -/
def tryFrom (n : Int32) : Option SampleEncoding :=
  if n = 0 then some .unspecified
  else if n = 1 then some .packed
  else if n = 2 then some .transition
  else none

theorem tryFrom_toI32 (encoding : SampleEncoding) : tryFrom encoding.toI32 = some encoding := by
  cases encoding <;> decide

theorem toI32_injective : Function.Injective SampleEncoding.toI32 := by
  intro encoding other h
  have hSome := congrArg tryFrom h
  rwa [tryFrom_toI32, tryFrom_toI32, Option.some.injEq] at hSome

end SampleEncoding

inductive Codec where
  | unspecified
  | none
  | zstd
  | heatshrink
  deriving DecidableEq, Repr

namespace Codec

def toI32 : Codec → Int32
  | .unspecified => 0
  | .none => 1
  | .zstd => 2
  | .heatshrink => 3

def tryFrom (n : Int32) : Option Codec :=
  if n = 0 then some .unspecified
  else if n = 1 then some .none
  else if n = 2 then some .zstd
  else if n = 3 then some .heatshrink
  else Option.none

def asStrName : Codec → String
  | .unspecified => "CODEC_UNSPECIFIED"
  | .none => "CODEC_NONE"
  | .zstd => "CODEC_ZSTD"
  | .heatshrink => "CODEC_HEATSHRINK"

theorem tryFrom_toI32 (codec : Codec) : tryFrom codec.toI32 = some codec := by
  cases codec <;> decide

theorem toI32_injective : Function.Injective Codec.toI32 := by
  intro codec other h
  have hSome := congrArg tryFrom h
  rwa [tryFrom_toI32, tryFrom_toI32, Option.some.injEq] at hSome

end Codec

structure CaptureData where
  captureId : UInt64
  acquisition : UInt64
  stream : UInt32
  seq : UInt64
  firstSample : UInt64
  sampleCount : UInt64
  encoding : Int32
  codec : Int32
  decodedLen : UInt64
  payload : List UInt8
  deriving DecidableEq, Repr

structure CaptureEnd where
  captureId : UInt64
  error : Option Error
  deriving DecidableEq, Repr

/-- What a plugin pushes on the event stream. -/
inductive Event where
  | captureBegin (captureId : UInt64)
  | acquisitionBegin (captureId acquisition : UInt64)
  | data (data : CaptureData)
  | trigger (captureId acquisition : UInt64)
  | acquisitionEnd (captureId acquisition : UInt64)
  | captureEnd (ended : CaptureEnd)
  | status (state : Int32) (detail : String)
  | log (level : Int32) (message : String)
  | deviceLost (reason : String)
  deriving DecidableEq, Repr

structure Hello where
  protocol : UInt32
  clientName : String
  clientVersion : String
  acceptEncodings : List Int32
  acceptCodecs : List Int32
  deriving DecidableEq, Repr

structure PluginInfo where
  name : String
  version : String
  vendor : String
  description : String
  deriving DecidableEq, Repr

structure Capabilities where
  modes : List Int32
  triggerKinds : List Int32
  deriving DecidableEq, Repr

structure DeviceInfo where
  vendor : String
  model : String
  serial : String
  firmwareVersion : String
  deriving DecidableEq, Repr

structure HelloResult where
  protocol : UInt32
  plugin : Option PluginInfo
  capabilities : Option Capabilities
  device : Option DeviceInfo
  encodings : List Int32
  codecs : List Int32
  deriving DecidableEq, Repr

inductive AcquireMode where
  | unspecified
  | single
  | continuous
  | snapshot
  deriving DecidableEq, Repr

def AcquireMode.toI32 : AcquireMode → Int32
  | .unspecified => 0
  | .single => 1
  | .continuous => 2
  | .snapshot => 3

structure AcquireStart where
  captureId : UInt64
  mode : Int32
  deriving DecidableEq, Repr

structure AcquireStop where
  captureId : UInt64
  deriving DecidableEq, Repr

/-! The device model (`Config`, `Description`) is carried whole and never
looked into, so the control messages are generic in it. -/

namespace Request

/-- The arms of `Request.request`. -/
inductive Arm (Config : Type) where
  | hello (req : Hello)
  | describe
  | getConfig
  | setConfig (config : Option Config)
  | acquireStart (req : AcquireStart)
  | acquireStop (req : AcquireStop)
  | reset
  | shutdown
  deriving DecidableEq, Repr

end Request

structure Request (Config : Type) where
  seq : UInt32
  request : Option (Request.Arm Config)
  deriving DecidableEq, Repr

namespace Response

/-- The arms of `Response.response`. -/
inductive Arm (Config Description : Type) where
  | hello (result : HelloResult)
  | describe (description : Description)
  | getConfig (config : Config)
  | setConfig (config : Config)
  | acquireStart
  | acquireStop
  | reset
  | shutdown
  deriving DecidableEq, Repr

end Response

structure Response (Config Description : Type) where
  seq : UInt32
  error : Option Error
  response : Option (Response.Arm Config Description)
  deriving DecidableEq, Repr

/-- What request handlers return: the error goes on the wire as it is. -/
abbrev Reply (α : Type) := Except Error α

end OpenMso.Proto
