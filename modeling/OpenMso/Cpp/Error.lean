import OpenMso.Proto

/-! # Exceptions of the C++ bindings -/

namespace OpenMso.Cpp

set_option autoImplicit false

/-- `remote` is a well-formed refusal from the far end; the rest are local. -/
inductive ErrorKind where
  | nng
  | decode
  | io
  | json
  | protocol
  | remote
  deriving DecidableEq, Repr

/-- `error` is default-constructed unless the kind is `remote`. -/
structure Error where
  kind : ErrorKind
  what : String
  error : Proto.Error
  deriving DecidableEq, Repr

/-- `pb::ErrorCode_Name`, empty for a number that names no enumerator. -/
def errorCodeName (code : Int32) : String :=
  if code = 0 then "ERROR_CODE_UNSPECIFIED"
  else if code = 1 then "ERROR_INVALID_REQUEST"
  else if code = 2 then "ERROR_UNSUPPORTED"
  else if code = 3 then "ERROR_DEVICE"
  else if code = 4 then "ERROR_DEVICE_DISCONNECTED"
  else if code = 5 then "ERROR_BUSY"
  else if code = 7 then "ERROR_TIMEOUT"
  else if code = 8 then "ERROR_INTERNAL"
  else ""

namespace Error

def nng (what : String) : Error := ⟨.nng, "nng: " ++ what, ⟨0, ""⟩⟩
def decode (what : String) : Error := ⟨.decode, "malformed message: " ++ what, ⟨0, ""⟩⟩

/-- `text` is what `strerror` says. -/
def io (text context : String) : Error := ⟨.io, context ++ ": " ++ text, ⟨0, ""⟩⟩

def protocol (what : String) : Error := ⟨.protocol, "protocol error: " ++ what, ⟨0, ""⟩⟩

def remote (error : Proto.Error) : Error :=
  ⟨.remote, errorCodeName error.code ++ ": " ++ error.message, error⟩

end Error

end OpenMso.Cpp
