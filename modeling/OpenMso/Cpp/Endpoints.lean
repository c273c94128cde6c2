import OpenMso.Cpp.Error
import OpenMso.Transport.Paths

/-! # The C++ endpoints

`Endpoints` of `transport.cpp`, over the file operations of the Rust one.
-/

namespace OpenMso.Cpp.Transport

open Foundation Foundation.Lease OpenMso.Transport

set_option autoImplicit false

/-- One plugin process's two sockets, in a directory removed on destruction. -/
structure Endpoints where
  control : String
  events : String
  dir : String
  isTagged : (tagged dir).isSome
  control_eq : control = "ipc://" ++ (dir ++ "/ctl")
  events_eq : events = "ipc://" ++ dir ++ "/evt"

/-- Linux allows 108 bytes of sun_path, macOS 104. Budget against the tighter. -/
def checkSunPath (path : String) : Except Error Unit :=
  let limit := 103
  if limit < path.utf8ByteSize then
    .error (.protocol ("socket path is " ++ toString path.utf8ByteSize ++ " bytes, over the " ++
      toString limit ++ "-byte limit: " ++ path))
  else .ok ()

namespace Endpoints

def base (environment : Environment) : String :=
  environment.xdgRuntimeDir.getD (environment.tmpDir.getD "/tmp") ++ "/openmso"

def dirOf (environment : Environment) (tag : UInt32) : String :=
  base environment ++ "/" ++ tagName tag

theorem tagged_dirOf (environment : Environment) (tag : UInt32) :
    tagged (dirOf environment tag) = some (tagName tag) :=
  tagged_of_lastComponent (lastComponent_append_slash _ _ (slash_notMem_tagName tag))

/-- The endpoints, once their directory is made. -/
def opened (environment : Environment) (tag : UInt32) : Except Error Endpoints := do
  let dir := dirOf environment tag
  let control := dir ++ "/ctl"
  checkSunPath control
  return ⟨"ipc://" ++ control, "ipc://" ++ dir ++ "/evt", dir,
    by rw [tagged_dirOf]; rfl, rfl, rfl⟩

/-- What an attempt comes to once it has tried to make its directory. A directory whose
sockets have too long a path is removed again, if that is possible. -/
def concluded (environment : Environment) (tag : UInt32) :
    Except Errno Unit → Trying FileOp Errno (Option (Except Error Endpoints))
  | .error e =>
    if e = eexist then .done none
    else .done (some (.error (.io (environment.strerror e) ("create " ++ dirOf environment tag))))
  | .ok () =>
    match opened environment tag with
    | .error e => .ask (.removeDir (dirOf environment tag)) fun _ => .done (some (.error e))
    | .ok endpoints => .done (some (.ok endpoints))

/-- One attempt of the loop: nothing is decided while the directory exists. -/
def attempt (environment : Environment) (tag : UInt32) :
    Trying FileOp Errno (Option (Except Error Endpoints)) :=
  .ask (.createDir (dirOf environment tag) 0o700) (concluded environment tag)

/-- The loop, after the base's mode is set. -/
def search (environment : Environment) (nanos pid : UInt32) :
    Trying FileOp Errno (Except Error Endpoints) :=
  -- A pre-existing directory keeps its old mode, and it holds every running
  -- plugin's sockets.
  .ask (.setPermissions (base environment) 0o700) fun
    | .error e => .done (.error (.io (environment.strerror e) ("chmod " ++ base environment)))
    | .ok () => probe (attempt environment) nextTag
        (.error (.protocol "no free runtime directory")) 64 (firstTag nanos pid)

def construct (environment : Environment) (nanos pid : UInt32) :
    Trying FileOp Errno (Except Error Endpoints) :=
  .ask (.createDir (base environment) 0o700) fun
    | .error e =>
      if e ≠ eexist then
        .done (.error (.io (environment.strerror e) ("create " ++ base environment)))
      else search environment nanos pid
    | .ok () => search environment nanos pid

def destroy (endpoints : Endpoints) : Trying FileOp Errno Unit :=
  if endpoints.dir = "" then .done ()
  else .ask (.unlink (endpoints.dir ++ "/ctl")) fun _ =>
    .ask (.unlink (endpoints.dir ++ "/evt")) fun _ =>
      .ask (.removeDir endpoints.dir) fun _ => .done ()

variable (environment : Environment) (tag : UInt32)

theorem effect_base (mode : UInt32) :
    directories.effect (.createDir (base environment) mode) = .none := by
  have hName : lastComponent (base environment) = "openmso" := by
    have hSplit : "/openmso" = "/" ++ "openmso" := rfl
    rw [base, hSplit, ← String.append_assoc]
    exact lastComponent_append_slash _ _ (by decide)
  simp only [directories, FileOp.effect, tagged, hName]
  rfl

theorem utf8ByteSize_control :
    (dirOf environment tag ++ "/ctl").utf8ByteSize = (base environment).utf8ByteSize + 9 := by
  rw [dirOf, String.utf8ByteSize_append, String.utf8ByteSize_append, String.utf8ByteSize_append,
    utf8ByteSize_tagName]
  rfl

theorem opened_of_le (h : (base environment).utf8ByteSize ≤ 94) :
    ∃ endpoints, opened environment tag = .ok endpoints ∧
      tagged endpoints.dir = some (tagName tag) := by
  have hCheck : checkSunPath (dirOf environment tag ++ "/ctl") = .ok () :=
    if_neg (by rw [utf8ByteSize_control]; omega)
  simp only [opened, hCheck]
  exact ⟨_, rfl, tagged_dirOf environment tag⟩

theorem tagged_of_opened {endpoints : Endpoints} (h : opened environment tag = .ok endpoints) :
    tagged endpoints.dir = some (tagName tag) := by
  unfold opened at h
  cases hCheck : checkSunPath (dirOf environment tag ++ "/ctl") with
  | error e =>
    simp only [hCheck] at h
    cases h
  | ok =>
    simp only [hCheck] at h
    cases h
    exact tagged_dirOf environment tag

/-! ## The directory an attempt makes -/

theorem concluded_of_error {e : Error} (h : opened environment tag = .error e) :
    concluded environment tag (.ok ()) =
      .ask (.removeDir (dirOf environment tag)) fun _ => .done (some (.error e)) := by
  simp only [concluded, h]

theorem concluded_of_ok {endpoints : Endpoints} (h : opened environment tag = .ok endpoints) :
    concluded environment tag (.ok ()) = .done (some (.ok endpoints)) := by
  simp only [concluded, h]

variable (Fails : FileOp → Prop)

/-- How an attempt that decides ends, and what it has made by then. -/
inductive Settled : Except Error Endpoints → Option String → Prop
  | failed (e : Error) : Settled (.error e) none
  | overlong (e : Error) (dir : String) (h : Fails (.removeDir dir)) :
      Settled (.error e) (some (tagName tag))
  | opened (endpoints : Endpoints) (h : tagged endpoints.dir = some (tagName tag)) :
      Settled (.ok endpoints) (some (tagName tag))

theorem keeps_attempt :
    Keeps directories Fails (Attempted (Settled tag Fails)) none (attempt environment tag) := by
  have hTagged := tagged_dirOf environment tag
  refine .create (effect_createDir hTagged _) ?_ fun e => ?_
  · cases hOpened : opened environment tag with
    | error error =>
      rw [concluded_of_error environment tag hOpened]
      refine .remove (effect_removeDir hTagged) (.done (.failed _)) fun hFails _ => ?_
      exact .done (.overlong _ _ hFails)
    | ok endpoints =>
      rw [concluded_of_ok environment tag hOpened]
      exact .done (.opened endpoints (tagged_of_opened environment tag hOpened))
  · by_cases h : e = eexist
    · simp only [concluded, if_pos h]
      exact .done rfl
    · simp only [concluded, if_neg h]
      exact .done (.failed _)

/-- How the constructor ends. -/
inductive Constructed (nanos pid : UInt32) : Except Error Endpoints → Option String → Prop
  | failed (e : Error) : Constructed nanos pid (.error e) none
  | settled (k : Nat) (hk : k < 64) {result : Except Error Endpoints} {owned : Option String}
      (h : Settled (nextTag^[k] (firstTag nanos pid)) Fails result owned) :
      Constructed nanos pid result owned

variable (nanos pid : UInt32)

theorem keeps_search :
    Keeps directories Fails (Constructed Fails nanos pid) none (search environment nanos pid) := by
  refine .other rfl fun answer => ?_
  cases answer with
  | error e => exact .done (.failed _)
  | ok =>
    refine (Keeps.probe (fun tag => keeps_attempt environment tag Fails) 64
      (firstTag nanos pid)).mono fun result owned => ?_
    rintro (⟨rfl, rfl⟩ | ⟨k, hk, hSettled⟩)
    · exact .failed _
    · exact .settled k hk hSettled

theorem keeps_construct :
    Keeps directories Fails (Constructed Fails nanos pid) none
      (construct environment nanos pid) := by
  refine .other (effect_base environment _) fun answer => ?_
  cases answer with
  | error e =>
    by_cases h : e ≠ eexist
    · simp only [if_pos h]
      exact .done (.failed _)
    · simp only [if_neg h]
      exact keeps_search environment Fails nanos pid
  | ok => exact keeps_search environment Fails nanos pid

theorem keeps_destroy {endpoints : Endpoints} {name : String}
    (h : tagged endpoints.dir = some name) :
    Keeps directories Fails (fun _ _ => True) (some name) (destroy endpoints) := by
  unfold destroy
  split
  · exact .done trivial
  · refine .other rfl fun _ => .other rfl fun _ => ?_
    exact .remove (effect_removeDir h) (.done trivial) fun _ _ => .done trivial

/-! ## A call left to itself -/

variable {names : Finset String}

theorem alone_attempt_of_mem (h : tagName tag ∈ names) :
    directories.alone (fun _ _ => none) (attempt environment tag) names = (none, names) := by
  rw [attempt, Store.alone_ask, perform_createDir (tagged_dirOf environment tag), if_pos h]
  rfl

theorem alone_attempt_of_notMem {endpoints : Endpoints} (h : tagName tag ∉ names)
    (hOpened : opened environment tag = .ok endpoints) :
    directories.alone (fun _ _ => none) (attempt environment tag) names =
      (some (.ok endpoints), insert (tagName tag) names) := by
  rw [attempt, Store.alone_ask, perform_createDir (tagged_dirOf environment tag), if_neg h,
    concluded_of_ok environment tag hOpened]
  rfl

/-- With nothing failing of itself, the constructor comes down to its loop. -/
theorem alone_construct :
    directories.alone (fun _ _ => none) (construct environment nanos pid) names =
      directories.alone (fun _ _ => none) (probe (attempt environment) nextTag
        (.error (.protocol "no free runtime directory")) 64 (firstTag nanos pid)) names := by
  rw [construct, Store.alone_ask, Store.perform_of_none (effect_base environment _)]
  simp only [answer]
  rw [search, Store.alone_ask, Store.perform_of_none (effect_setPermissions _ _)]
  simp only [answer]

theorem alone_construct_of_free {k : Nat} (hk : k < 64)
    (hTaken : ∀ j < k, tagName (nextTag^[j] (firstTag nanos pid)) ∈ names)
    (hFree : tagName (nextTag^[k] (firstTag nanos pid)) ∉ names) {endpoints : Endpoints}
    (hOpened : opened environment (nextTag^[k] (firstTag nanos pid)) = .ok endpoints) :
    directories.alone (fun _ _ => none) (construct environment nanos pid) names =
      (.ok endpoints, insert (tagName (nextTag^[k] (firstTag nanos pid))) names) := by
  rw [alone_construct]
  apply alone_probe_of_decided hk
  · intro j hj
    exact alone_attempt_of_mem environment _ (hTaken j hj)
  · exact alone_attempt_of_notMem environment _ hFree hOpened

theorem alone_construct_of_taken
    (h : ∀ k < 64, tagName (nextTag^[k] (firstTag nanos pid)) ∈ names) :
    directories.alone (fun _ _ => none) (construct environment nanos pid) names =
      (.error (.protocol "no free runtime directory"), names) := by
  rw [alone_construct]
  apply alone_probe_of_undecided
  intro k hk
  exact alone_attempt_of_mem environment _ (h k hk)

theorem alone_destroy {endpoints : Endpoints} {name : String}
    (h : tagged endpoints.dir = some name) (hThere : name ∈ names) :
    (directories.alone (fun _ _ => none) (destroy endpoints) names).2 = names.erase name := by
  rw [destroy, if_neg (ne_empty_of_tagged h)]
  simp only [Store.alone_ask, Store.alone_done, Store.perform_of_none (effect_unlink _)]
  rw [Store.perform, effect_removeDir h]
  exact congrArg Prod.snd (if_pos hThere)

end Endpoints

end OpenMso.Cpp.Transport
