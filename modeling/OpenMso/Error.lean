import OpenMso.Proto

/-! # Local failures

Distinct from `Proto.Error`, which is a refusal from the far end.
-/

namespace OpenMso

set_option autoImplicit false

inductive NngError where
  | closed
  | connectionReset
  | connectionAborted
  | timedOut
  | other (code : Nat)
  deriving DecidableEq, Repr

inductive IoErrorKind where
  | alreadyExists
  | other
  deriving DecidableEq, Repr

inductive Error where
  | nng (e : NngError)
  | decode (message : String)
  | io (kind : IoErrorKind) (message : String)
  | json (message : String)
  /-- The peer sent something the protocol does not allow here. -/
  | protocol (message : String)
  | remote (e : Proto.Error)
  deriving DecidableEq, Repr

/-- `Display`, with the text nng has for its errors. -/
def Error.display (strerror : NngError → String) : Error → String
  | .nng e => s!"nng: {strerror e}"
  | .decode e => s!"malformed message: {e}"
  | .io _ message => message
  | .json message => s!"bad manifest JSON: {message}"
  | .protocol message => s!"protocol error: {message}"
  | .remote e =>
    let code := (Proto.ErrorCode.tryFrom e.code).getD .unspecified
    s!"{code.asStrName}: {e.message}"

/-- The version of the protocol this implements. -/
def protocolVersion : UInt32 := 1

end OpenMso
