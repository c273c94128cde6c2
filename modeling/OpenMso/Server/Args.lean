import OpenMso.Error
import OpenMso.Foundation.Text

/-! # The argv a frontend launches a plugin with

`args.rs`. The three variables that the loop fills are one record.
-/

namespace OpenMso.Server

open Foundation.Text

set_option autoImplicit false

def usage : String := "--device URL --control URL --events URL"

structure Args where
  device : String
  control : String
  events : String
  deriving DecidableEq, Repr

/-- `{:?}` of a character in a string. Whether Unicode counts it as printable is a parameter. -/
def escapeDebug (printable : Char → Bool) (c : Char) : String :=
  if c.toNat = 0 then "\\0"
  else if c.toNat = 9 then "\\t"
  else if c.toNat = 10 then "\\n"
  else if c.toNat = 13 then "\\r"
  else if c.toNat = 34 then "\\\""
  else if c.toNat = 92 then "\\\\"
  else if printable c then c.toString
  else "\\u\x7b" ++ String.ofList (Nat.toDigits 16 c.toNat) ++ "\x7d"

def debug (printable : Char → Bool) (s : String) : String :=
  "\"" ++ String.join (s.toList.map (escapeDebug printable)) ++ "\""

namespace Args

inductive Slot where
  | device
  | control
  | events
  deriving DecidableEq, Repr

structure Slots where
  device : Option String
  control : Option String
  events : Option String
  deriving DecidableEq, Repr

/-- The variable that a flag fills. -/
def slot (flag : String) : Option Slot :=
  if flag = "--device" then some .device
  else if flag = "--control" then some .control
  else if flag = "--events" then some .events
  else none

def Slots.set (slots : Slots) : Slot → String → Slots
  | .device, v => { slots with device := some v }
  | .control, v => { slots with control := some v }
  | .events, v => { slots with events := some v }

variable (printable : Char → Bool)

/-- The loop of `parse` over the arguments that are left, and what follows it. -/
def parseFrom (slots : Slots) : List String → Except Error Args
  | [] =>
    match slots.device, slots.control, slots.events with
    | some device, some control, some events => .ok ⟨device, control, events⟩
    | _, _, _ => .error (.protocol ("missing arguments; usage: " ++ usage))
  | arg :: args =>
    let cut := splitOnce arg '='
    let flag := (cut.map (·.1)).getD arg
    match slot flag with
    | none =>
      .error (.protocol ("unknown argument " ++ debug printable flag ++ "; usage: " ++ usage))
    | some slot =>
      match cut.map (·.2) with
      | some v => parseFrom (slots.set slot v) args
      | none =>
        match args with
        | v :: args => parseFrom (slots.set slot v) args
        | [] => .error (.protocol (flag ++ " needs a value"))

/-- Accepts both `--flag value` and `--flag=value`. -/
def parse (args : List String) : Except Error Args := parseFrom printable ⟨none, none, none⟩ args

/-- The first of what a process is started with is its own name. -/
def fromEnv (argv : List String) : Except Error Args := parse printable (argv.drop 1)

end Args

end OpenMso.Server
