import OpenMso.Error
import OpenMso.Transport.Paths

/-! # The frontend's endpoints

`Endpoints` of `transport.rs`, on a system with sockets in directories. Paths are text.
-/

namespace OpenMso.Transport

open Foundation Foundation.Lease

set_option autoImplicit false

/-- A directory holding one plugin process's two sockets. The directory has a tag for a
name, and the sockets are in it. -/
structure Endpoints where
  control : String
  events : String
  dir : String
  isTagged : (tagged dir).isSome
  control_eq : control = "ipc://" ++ join dir "ctl"
  events_eq : events = "ipc://" ++ join dir "evt"

/-- Code that fails with an error, over operations that fail with a number. -/
abbrev Filing (ε : Type) := ExceptT ε (Program FileOp fun _ => Except Errno Unit)

def ofErrno (environment : Environment) (e : Errno) : Error :=
  .io (if e = eexist then .alreadyExists else .other)
    s!"{environment.strerror e} (os error {e})"

/-- `op?` -/
def attempt (environment : Environment) (op : FileOp) : Filing Error Unit := do
  let answer ← (Program.perform op : Trying FileOp Errno (Except Errno Unit))
  match answer with
  | .ok () => return ()
  | .error e => throw (ofErrno environment e)

/-- macOS allows 104 bytes including the terminator; budget against the tighter
of the two so a capture that works here works there. -/
def checkSunPath (path : String) : Except Error Unit :=
  let limit := 103
  let len := path.utf8ByteSize
  if limit < len then
    .error (.protocol s!"socket path is {len} bytes, over the {limit}-byte limit: {path}")
  else .ok ()

namespace Endpoints

def base (environment : Environment) : String :=
  join (environment.xdgRuntimeDir.getD (environment.tmpDir.getD "/tmp")) "openmso"

theorem isTagged_join (path : String) (tag : UInt32) :
    (tagged (join path (tagName tag))).isSome := by
  rw [tagged_of_lastComponent (lastComponent_join _ _ (slash_notMem_tagName tag))]
  rfl

/-- The endpoints, once their directory is made. -/
def opened (environment : Environment) (tag : UInt32) : Except Error Endpoints := do
  let dir := join (base environment) (tagName tag)
  let control := join dir "ctl"
  checkSunPath control
  return ⟨"ipc://" ++ control, "ipc://" ++ join dir "evt", dir, isTagged_join _ tag, rfl, rfl⟩

def create (environment : Environment) (tag : UInt32) : Filing Error Endpoints := do
  let base := base environment
  attempt environment (.createDirAll base 0o700)
  -- A pre-existing directory keeps its old mode, and it holds every
  -- running plugin's sockets.
  attempt environment (.setPermissions base 0o700)
  attempt environment (.createDir (join base (tagName tag)) 0o700)
  MonadExcept.ofExcept (opened environment tag)

/-- What `new` makes of a turn: it goes on to the next tag if the directory exists. -/
def decided : Except Error Endpoints → Option (Except Error Endpoints)
  | .error (.io .alreadyExists _) => none
  | other => some other

def turn (environment : Environment) (tag : UInt32) :
    Trying FileOp Errno (Option (Except Error Endpoints)) :=
  (create environment tag).run.bind fun result => .done (decided result)

def new (environment : Environment) (nanos pid : UInt32) :
    Trying FileOp Errno (Except Error Endpoints) :=
  probe (turn environment) nextTag (.error (.protocol "no free runtime directory")) 64
    (firstTag nanos pid)

def drop (endpoints : Endpoints) : Trying FileOp Errno Unit :=
  .ask (.removeDirAll endpoints.dir) fun _ => .done ()

/-! ## One turn of the loop -/

variable (environment : Environment) (tag : UInt32)

/-- What a turn comes to when an operation fails. -/
def refused (e : Errno) : Option (Except Error Endpoints) :=
  if e = eexist then none else some (.error (ofErrno environment e))

/-- What a turn comes to once it has tried to make its directory. -/
def concluded : Except Errno Unit → Option (Except Error Endpoints)
  | .error e => refused environment e
  | .ok () => some (opened environment tag)

theorem join_base (name : String) :
    join (base environment) name = base environment ++ "/" ++ name := by
  refine join_eq (c := 'o') ?_ (by decide) name
  unfold base join
  split
  all_goals
    rw [String.toList_append]
    exact List.getLast?_append_of_ne_nil _ (by decide)

theorem checkSunPath_of_le {path : String} (h : path.utf8ByteSize ≤ 103) :
    checkSunPath path = .ok () := if_neg (Nat.not_lt.mpr h)

theorem checkSunPath_of_lt {path : String} (h : 103 < path.utf8ByteSize) :
    ∃ message, checkSunPath path = .error (.protocol message) := ⟨_, if_pos h⟩

theorem utf8ByteSize_control :
    (join (join (base environment) (tagName tag)) "ctl").utf8ByteSize =
      (base environment).utf8ByteSize + 9 := by
  have hTagged := tagged_of_lastComponent
    (lastComponent_join (base environment) _ (slash_notMem_tagName tag))
  rw [join_of_tagged hTagged, join_base, String.utf8ByteSize_append, String.utf8ByteSize_append,
    String.utf8ByteSize_append, String.utf8ByteSize_append, utf8ByteSize_tagName]
  rfl

theorem opened_of_le (h : (base environment).utf8ByteSize ≤ 94) :
    ∃ endpoints, opened environment tag = .ok endpoints ∧
      tagged endpoints.dir = some (tagName tag) := by
  have hCheck : checkSunPath (join (join (base environment) (tagName tag)) "ctl") = .ok () :=
    checkSunPath_of_le (by rw [utf8ByteSize_control]; omega)
  simp only [opened, hCheck]
  exact ⟨_, rfl, tagged_of_lastComponent (lastComponent_join _ _ (slash_notMem_tagName tag))⟩

theorem opened_of_lt (h : 94 < (base environment).utf8ByteSize) :
    ∃ message, opened environment tag = .error (.protocol message) := by
  have hLong : 103 < (join (join (base environment) (tagName tag)) "ctl").utf8ByteSize := by
    rw [utf8ByteSize_control]
    omega
  obtain ⟨message, hCheck⟩ := checkSunPath_of_lt hLong
  refine ⟨message, ?_⟩
  simp only [opened, hCheck]
  rfl

theorem decided_ofErrno (e : Errno) :
    decided (.error (ofErrno environment e)) = refused environment e := by
  unfold ofErrno refused
  by_cases h : e = eexist
  · simp [h, decided]
  · simp [h, decided, ofErrno]

theorem decided_opened : decided (opened environment tag) = some (opened environment tag) := by
  obtain h | h := Nat.lt_or_ge 94 (base environment).utf8ByteSize
  · obtain ⟨message, hOpened⟩ := opened_of_lt environment tag h
    rw [hOpened, decided]
    nofun
  · obtain ⟨endpoints, hOpened, _⟩ := opened_of_le environment tag h
    rw [hOpened, decided]
    nofun

theorem bind_attempt {α β : Type} (op : FileOp) (f : Filing Error α)
    (next : Except Error α → Trying FileOp Errno β) :
    (attempt environment op >>= fun _ => f).run.bind next = .ask op fun
      | .error e => next (.error (ofErrno environment e))
      | .ok () => f.run.bind next := by
  refine congrArg (Program.ask op) (funext fun answer => ?_)
  cases answer <;> rfl

theorem turn_eq :
    turn environment tag = .ask (.createDirAll (base environment) 0o700) fun
      | .error e => .done (refused environment e)
      | .ok () => .ask (.setPermissions (base environment) 0o700) fun
        | .error e => .done (refused environment e)
        | .ok () => .ask (.createDir (join (base environment) (tagName tag)) 0o700) fun
          answer => .done (concluded environment tag answer) := by
  have hOpened : (MonadExcept.ofExcept (opened environment tag) : Filing Error Endpoints).run =
      .done (opened environment tag) := by
    cases opened environment tag <;> rfl
  have hLast : ∀ answer : Except Errno Unit, (match answer with
      | .error e => .done (refused environment e)
      | .ok () => .done (some (opened environment tag)) :
      Trying FileOp Errno (Option (Except Error Endpoints))) =
      .done (concluded environment tag answer) := by
    intro answer
    cases answer <;> rfl
  simp only [turn, create, bind_attempt, decided_ofErrno, hOpened, Program.bind, decided_opened,
    hLast]

/-! ## The directory a turn makes -/

theorem tagged_join_base :
    tagged (join (base environment) (tagName tag)) = some (tagName tag) :=
  tagged_of_lastComponent (lastComponent_join _ _ (slash_notMem_tagName tag))

/-- How a turn that decides ends, and what it has made by then. -/
inductive Settled : Except Error Endpoints → Option String → Prop
  | failed (e : Error) : Settled (.error e) none
  | overlong (e : Error) (h : 94 < (base environment).utf8ByteSize) :
      Settled (.error e) (some (tagName tag))
  | opened (endpoints : Endpoints) (h : tagged endpoints.dir = some (tagName tag)) :
      Settled (.ok endpoints) (some (tagName tag))

theorem settled_opened :
    Settled environment tag (opened environment tag) (some (tagName tag)) := by
  obtain h | h := Nat.lt_or_ge 94 (base environment).utf8ByteSize
  · obtain ⟨message, hOpened⟩ := opened_of_lt environment tag h
    rw [hOpened]
    exact .overlong _ h
  · obtain ⟨endpoints, hOpened, hTagged⟩ := opened_of_le environment tag h
    rw [hOpened]
    exact .opened endpoints hTagged

theorem keeps_refused (Fails : FileOp → Prop) (e : Errno) :
    Keeps directories Fails (Attempted (Settled environment tag)) none
      (.done (refused environment e)) := by
  apply Keeps.done
  by_cases h : e = eexist
  · rw [refused, if_pos h, Attempted]
  · rw [refused, if_neg h]
    exact .failed _

theorem keeps_turn (Fails : FileOp → Prop) :
    Keeps directories Fails (Attempted (Settled environment tag)) none (turn environment tag) := by
  rw [turn_eq]
  refine .other rfl fun answer => ?_
  cases answer with
  | error e => exact keeps_refused environment tag Fails e
  | ok =>
    refine .other rfl fun answer => ?_
    cases answer with
    | error e => exact keeps_refused environment tag Fails e
    | ok =>
      refine .create (effect_createDir (tagged_join_base environment tag) _) ?_
        (keeps_refused environment tag Fails)
      exact .done (settled_opened environment tag)

theorem keeps_new (Fails : FileOp → Prop) (nanos pid : UInt32) :
    Keeps directories Fails (fun result owned =>
      (result = .error (.protocol "no free runtime directory") ∧ owned = none) ∨
        ∃ k < 64, Settled environment (nextTag^[k] (firstTag nanos pid)) result owned) none
      (new environment nanos pid) :=
  Keeps.probe (fun tag => keeps_turn environment tag Fails) 64 (firstTag nanos pid)

theorem keeps_drop (Fails : FileOp → Prop) {endpoints : Endpoints} {name : String}
    (h : tagged endpoints.dir = some name) :
    Keeps directories Fails (fun _ _ => True) (some name) (drop endpoints) :=
  .remove (effect_removeDirAll h) (.done trivial) fun _ _ => .done trivial

/-! ## A call left to itself -/

variable {names : Finset String}

/-- With nothing failing of itself, a turn comes down to making its directory. -/
theorem alone_turn :
    directories.alone (fun _ _ => none) (turn environment tag) names =
      if tagName tag ∈ names then (none, names)
      else (some (opened environment tag), insert (tagName tag) names) := by
  have hLast : directories.alone (fun _ _ => none) (turn environment tag) names =
      directories.alone (fun _ _ => none) (.ask (.createDir (join (base environment) (tagName tag))
        0o700) fun answer => .done (concluded environment tag answer)) names := by
    rw [turn_eq]
    rfl
  rw [hLast, Store.alone_ask, perform_createDir (tagged_join_base environment tag)]
  by_cases h : tagName tag ∈ names
  · rw [if_pos h, if_pos h]
    rfl
  · rw [if_neg h, if_neg h]
    rfl

variable (nanos pid : UInt32)

theorem alone_new_of_free {k : Nat} (hk : k < 64)
    (hTaken : ∀ j < k, tagName (nextTag^[j] (firstTag nanos pid)) ∈ names)
    (hFree : tagName (nextTag^[k] (firstTag nanos pid)) ∉ names) :
    directories.alone (fun _ _ => none) (new environment nanos pid) names =
      (opened environment (nextTag^[k] (firstTag nanos pid)),
        insert (tagName (nextTag^[k] (firstTag nanos pid))) names) := by
  apply alone_probe_of_decided hk
  · intro j hj
    rw [alone_turn, if_pos (hTaken j hj)]
  · rw [alone_turn, if_neg hFree]

theorem alone_new_of_taken
    (h : ∀ k < 64, tagName (nextTag^[k] (firstTag nanos pid)) ∈ names) :
    directories.alone (fun _ _ => none) (new environment nanos pid) names =
      (.error (.protocol "no free runtime directory"), names) := by
  apply alone_probe_of_undecided
  intro k hk
  rw [alone_turn, if_pos (h k hk)]

theorem alone_drop {endpoints : Endpoints} {name : String} (h : tagged endpoints.dir = some name)
    (hThere : name ∈ names) :
    (directories.alone (fun _ _ => none) (drop endpoints) names).2 = names.erase name := by
  rw [drop, Store.alone_ask, Store.alone_done, Store.perform, effect_removeDirAll h]
  exact congrArg Prod.snd (if_pos hThere)

end Endpoints

end OpenMso.Transport
