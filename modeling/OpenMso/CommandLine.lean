import OpenMso.Cpp.Plugins.CaptureClient
import OpenMso.Server.Args
import OpenMso.Transport.Endpoints

/-! # The command line of a plugin

What a plugin accepts, as a grammar, and what the two frontends launch it with.
-/

namespace OpenMso.Server.Args

open Foundation.Text

set_option autoImplicit false

def Slot.flag : Slot → String
  | .device => "--device"
  | .control => "--control"
  | .events => "--events"

/-- A flag and its value, in one token or in two. -/
structure Occurrence where
  slot : Slot
  value : String
  inline : Bool
  deriving DecidableEq, Repr

def Occurrence.render (o : Occurrence) : List String :=
  if o.inline then [o.slot.flag ++ "=" ++ o.value] else [o.slot.flag, o.value]

/-- What a frontend appends. -/
def appended (device control events : String) : List Occurrence :=
  [⟨.device, device, false⟩, ⟨.control, control, false⟩, ⟨.events, events, false⟩]

/-- The value of the last occurrence of a flag. -/
def lastValue (s : Slot) (occurrences : List Occurrence) : Option String :=
  (occurrences.filter (·.slot = s)).getLast?.map Occurrence.value

def get (args : Args) : Slot → String
  | .device => args.device
  | .control => args.control
  | .events => args.events

def Slots.get (slots : Slots) : Slot → Option String
  | .device => slots.device
  | .control => slots.control
  | .events => slots.events

theorem slot_eq_some_iff {flag : String} {s : Slot} : slot flag = some s ↔ flag = s.flag := by
  constructor
  · intro h
    rw [slot] at h
    split_ifs at h with hDevice hControl hEvents
    · cases h
      exact hDevice
    · cases h
      exact hControl
    · cases h
      exact hEvents
  · rintro rfl
    cases s <;> rfl

theorem equals_notMem_flag (s : Slot) : '=' ∉ s.flag.toList := by
  cases s <;> decide

theorem Slots.get_set (slots : Slots) (s t : Slot) (v : String) :
    (slots.set s v).get t = if s = t then some v else slots.get t := by
  cases s <;> cases t <;> rfl

theorem lastValue_cons (s : Slot) (o : Occurrence) (os : List Occurrence) :
    lastValue s (o :: os) = (lastValue s os).or (if o.slot = s then some o.value else none) := by
  rw [lastValue, lastValue, List.filter_cons]
  by_cases h : o.slot = s
  · rw [if_pos (decide_eq_true h), if_pos h, List.getLast?_cons]
    cases (os.filter (·.slot = s)).getLast? <;> rfl
  · rw [if_neg (by simpa using h), if_neg h, Option.or_none]

theorem lastValue_append (s : Slot) (os more : List Occurrence) :
    lastValue s (os ++ more) = (lastValue s more).or (lastValue s os) := by
  induction os with
  | nil => exact (Option.or_none ..).symm
  | cons o os ih => rw [List.cons_append, lastValue_cons, ih, lastValue_cons, Option.or_assoc]

theorem lastValue_cons_or_get (slots : Slots) (s : Slot) (o : Occurrence) (os : List Occurrence) :
    (lastValue s (o :: os)).or (slots.get s) =
      (lastValue s os).or ((slots.set o.slot o.value).get s) := by
  rw [lastValue_cons, Slots.get_set, Option.or_assoc]
  congr 1
  split <;> rfl

section
variable {printable : Char → Bool} {slots : Slots} {args : Args}

theorem parseFrom_nil_eq_ok_iff :
    parseFrom printable slots [] = .ok args ↔ ∀ s, slots.get s = some (args.get s) := by
  rw [parseFrom]
  constructor
  · intro h
    split at h
    · rename_i hDevice hControl hEvents
      cases h
      intro s
      cases s
      · exact hDevice
      · exact hControl
      · exact hEvents
    · cases h
  · intro h
    have hDevice : slots.device = some args.device := h .device
    have hControl : slots.control = some args.control := h .control
    have hEvents : slots.events = some args.events := h .events
    rw [hDevice, hControl, hEvents]

theorem parseFrom_render (o : Occurrence) (tokens : List String) :
    parseFrom printable slots (o.render ++ tokens) =
      parseFrom printable (slots.set o.slot o.value) tokens := by
  have hSlot : slot o.slot.flag = some o.slot := slot_eq_some_iff.mpr rfl
  rw [Occurrence.render]
  split
  · have hCut : splitOnce (o.slot.flag ++ "=" ++ o.value) '=' = some (o.slot.flag, o.value) := by
      refine splitOnce_eq_some_iff.mpr ⟨equals_notMem_flag o.slot, ?_⟩
      rw [String.toList_append, String.toList_append, List.append_assoc]
      rfl
    rw [List.singleton_append, parseFrom, hCut]
    simp only [Option.map_some, Option.getD_some, hSlot]
  · have hCut : splitOnce o.slot.flag '=' = none :=
      splitOnce_eq_none_iff.mpr (equals_notMem_flag o.slot)
    rw [List.cons_append, List.singleton_append, parseFrom, hCut]
    simp only [Option.map_none, Option.getD_none, hSlot]

/-- A turn of the loop that does not fail has read an occurrence. -/
theorem exists_occurrence_of_parseFrom {arg : String} {tokens : List String}
    (h : parseFrom printable slots (arg :: tokens) = .ok args) :
    ∃ (o : Occurrence) (rest : List String), arg :: tokens = o.render ++ rest ∧
      parseFrom printable (slots.set o.slot o.value) rest = .ok args := by
  rw [parseFrom] at h
  cases hCut : splitOnce arg '=' with
  | some cut =>
    obtain ⟨flag, v⟩ := cut
    simp only [hCut, Option.map_some, Option.getD_some] at h
    split at h
    · cases h
    · rename_i s hSlot
      obtain rfl := slot_eq_some_iff.mp hSlot
      have hArg : arg = s.flag ++ "=" ++ v := by
        apply String.toList_inj.mp
        rw [(splitOnce_eq_some_iff.mp hCut).2, String.toList_append, String.toList_append,
          List.append_assoc]
        rfl
      exact ⟨⟨s, v, true⟩, tokens, by rw [hArg]; rfl, h⟩
  | none =>
    simp only [hCut, Option.map_none, Option.getD_none] at h
    split at h
    · cases h
    · rename_i s hSlot
      obtain rfl := slot_eq_some_iff.mp hSlot
      cases tokens with
      | nil => cases h
      | cons v rest => exact ⟨⟨s, v, false⟩, rest, rfl, h⟩

theorem render_ne_nil (o : Occurrence) : o.render ≠ [] := by
  rw [Occurrence.render]
  split <;> exact List.cons_ne_nil _ _

theorem parseFrom_flatMap_render (os : List Occurrence) :
    parseFrom printable slots (os.flatMap Occurrence.render) = .ok args ↔
      ∀ s, (lastValue s os).or (slots.get s) = some (args.get s) := by
  induction os generalizing slots with
  | nil => exact parseFrom_nil_eq_ok_iff
  | cons o os ih =>
    rw [List.flatMap_cons, parseFrom_render, ih]
    simp only [lastValue_cons_or_get]

theorem exists_occurrences_of_parseFrom {tokens : List String}
    (h : parseFrom printable slots tokens = .ok args) :
    ∃ os : List Occurrence, tokens = os.flatMap Occurrence.render := by
  induction hLength : tokens.length using Nat.strongRecOn generalizing slots tokens with
  | ind n ih =>
    cases tokens with
    | nil => exact ⟨[], rfl⟩
    | cons arg tokens =>
      obtain ⟨o, rest, hTokens, hRest⟩ := exists_occurrence_of_parseFrom h
      have hShorter : rest.length < n := by
        have hPos := List.length_pos_iff.mpr (render_ne_nil o)
        rw [← hLength, hTokens, List.length_append]
        omega
      obtain ⟨os, rfl⟩ := ih rest.length hShorter hRest rfl
      exact ⟨o :: os, hTokens⟩

theorem parse_flatMap_render (os : List Occurrence) :
    parse printable (os.flatMap Occurrence.render) = .ok args ↔
      ∀ s, lastValue s os = some (args.get s) := by
  rw [parse, parseFrom_flatMap_render]
  refine forall_congr' fun s => ?_
  have hNone : Slots.get ⟨none, none, none⟩ s = none := by cases s <;> rfl
  rw [hNone, Option.or_none]

/-- What is given last counts, whatever came before it. -/
theorem parse_append (os : List Occurrence) (device control events : String) :
    parse printable (os.flatMap Occurrence.render ++
        ["--device", device, "--control", control, "--events", events]) =
      .ok ⟨device, control, events⟩ := by
  have hLast : os.flatMap Occurrence.render ++
      ["--device", device, "--control", control, "--events", events] =
      (os ++ appended device control events).flatMap Occurrence.render := by
    rw [List.flatMap_append]
    rfl
  rw [hLast, parse_flatMap_render]
  intro s
  rw [lastValue_append]
  cases s <;> rfl

/-- A token that gives a flag its value by itself. -/
def IsInline (token : String) : Prop := ∃ s v, token = Slot.flag s ++ "=" ++ v

theorem not_isInline_url (path : String) : ¬ IsInline ("ipc://" ++ path) := by
  rintro ⟨s, v, hToken⟩
  have hHead := congrArg String.toList hToken
  simp only [String.toList_append, List.append_assoc] at hHead
  cases s <;> cases congrArg List.head? hHead

/-- A value that is no flag was read with the token in front of it. -/
theorem exists_last_occurrence {os : List Occurrence} {before : List String} {flag v : String}
    (hValue : ¬ IsInline v) (h : os.flatMap Occurrence.render = before ++ [flag, v]) :
    ∃ front o, os = front ++ [o] ∧ front.flatMap Occurrence.render = before ∧
      o.slot.flag = flag ∧ o.value = v := by
  rcases List.eq_nil_or_concat os with rfl | ⟨front, o, rfl⟩
  · simp at h
  · rw [List.concat_eq_append, List.flatMap_append, List.flatMap_singleton,
      Occurrence.render] at h
    refine ⟨front, o, List.concat_eq_append, ?_⟩
    split at h
    · have hLast := congrArg List.getLast? h
      rw [List.getLast?_concat, List.append_cons, List.getLast?_concat] at hLast
      exact absurd ⟨_, _, (Option.some.inj hLast).symm⟩ hValue
    · obtain ⟨hFront, hPair⟩ := List.append_inj' h rfl
      obtain ⟨hFlag, hRest⟩ := List.cons.inj hPair
      exact ⟨hFront, hFlag, List.head_eq_of_cons_eq hRest⟩

theorem lastValue_concat (s : Slot) (os : List Occurrence) (o : Occurrence) :
    lastValue s (os ++ [o]) = if o.slot = s then some o.value else lastValue s os := by
  rw [lastValue_append, lastValue_cons]
  split <;> rfl

section
variable {rest : List String} {device control events : String}

/-- Whatever stands in front of them, the last two values are those of the sockets. -/
theorem sockets_of_parse (hControl : ¬ IsInline control) (hEvents : ¬ IsInline events)
    (h : parse printable (rest ++ ["--device", device, "--control", control, "--events", events]) =
      .ok args) :
    args.control = control ∧ args.events = events ∧ ∃ os : List Occurrence,
      os.flatMap Occurrence.render = rest ++ ["--device", device] ∧
        lastValue .device os = some args.device := by
  obtain ⟨os, hTokens⟩ := exists_occurrences_of_parseFrom h
  rw [hTokens, parse_flatMap_render] at h
  have hCut : os.flatMap Occurrence.render =
      (rest ++ ["--device", device, "--control", control]) ++ ["--events", events] := by
    rw [← hTokens, List.append_assoc]
    rfl
  obtain ⟨front, o, rfl, hFront, hFlag, rfl⟩ := exists_last_occurrence hEvents hCut
  have hCutFront : front.flatMap Occurrence.render =
      (rest ++ ["--device", device]) ++ ["--control", control] := by
    rw [hFront, List.append_assoc]
    rfl
  obtain ⟨os, o', rfl, hOs, hFlag', rfl⟩ := exists_last_occurrence hControl hCutFront
  have hSlot : Slot.events = o.slot := Option.some.inj (slot_eq_some_iff.mpr hFlag.symm)
  have hSlot' : Slot.control = o'.slot := Option.some.inj (slot_eq_some_iff.mpr hFlag'.symm)
  simp only [lastValue_concat, ← hSlot, ← hSlot'] at h
  exact ⟨(Option.some.inj (h .control)).symm, (Option.some.inj (h .events)).symm, os, hOs, h .device⟩

/-- A device that is no flag was read too, and what is in front of it consists of flags. -/
theorem device_of_parse (hDevice : ¬ IsInline device) (hControl : ¬ IsInline control)
    (hEvents : ¬ IsInline events)
    (h : parse printable (rest ++ ["--device", device, "--control", control, "--events", events]) =
      .ok args) :
    args.device = device ∧ ∃ os : List Occurrence, rest = os.flatMap Occurrence.render := by
  obtain ⟨-, -, os, hOs, hLast⟩ := sockets_of_parse hControl hEvents h
  obtain ⟨front, o, rfl, hFront, hFlag, rfl⟩ := exists_last_occurrence hDevice hOs
  have hSlot : Slot.device = o.slot := Option.some.inj (slot_eq_some_iff.mpr hFlag.symm)
  rw [lastValue_concat, if_pos hSlot.symm] at hLast
  exact ⟨(Option.some.inj hLast).symm, front, hFront.symm⟩

end

/-- A plugin that is started like this reads the sockets of its own frontend or refuses, whatever
its manifest gives it in front of them; and so with a device that is no flag with its value. -/
structure ReadsItsOwn (printable : Char → Bool) (argv rest : List String)
    (device control events : String) : Prop where
  sockets : ∀ args, fromEnv printable argv = .ok args → args.control = control ∧ args.events = events
  itsDevice : ¬ IsInline device → ∀ args, fromEnv printable argv = .ok args → args.device = device
  accepts : ¬ IsInline device → ((∃ args, fromEnv printable argv = .ok args) ↔
    ∃ os : List Occurrence, rest = os.flatMap Occurrence.render)

theorem readsItsOwn_of_urls (program : String) (rest : List String) (device : String)
    {control events : String} (hControl : ¬ IsInline control) (hEvents : ¬ IsInline events) :
    ReadsItsOwn printable
      (program :: (rest ++ ["--device", device, "--control", control, "--events", events])) rest
      device control events where
  sockets args h := by
    obtain ⟨hOwnControl, hOwnEvents, -⟩ := sockets_of_parse hControl hEvents h
    exact ⟨hOwnControl, hOwnEvents⟩
  itsDevice hDevice args h := (device_of_parse hDevice hControl hEvents h).1
  accepts hDevice := by
    constructor
    · rintro ⟨args, h⟩
      exact (device_of_parse hDevice hControl hEvents h).2
    · rintro ⟨os, rfl⟩
      exact ⟨_, parse_append os device control events⟩

end

/-- A command line is accepted exactly when it is made of flags with a value each and has every
flag; the last value counts, so that of what is launched with nothing before the end does. -/
theorem parse_eq_ok_iff (printable : Char → Bool) :
    (∀ (tokens : List String) (args : Args), parse printable tokens = .ok args ↔
      ∃ os : List Occurrence, tokens = os.flatMap Occurrence.render ∧
        ∀ s, lastValue s os = some (args.get s)) ∧
    ∀ (os : List Occurrence) (device control events : String),
      parse printable (os.flatMap Occurrence.render ++
          ["--device", device, "--control", control, "--events", events]) =
        .ok ⟨device, control, events⟩ := by
  refine ⟨fun tokens args => ⟨fun h => ?_, ?_⟩, parse_append⟩
  · obtain ⟨os, rfl⟩ := exists_occurrences_of_parseFrom h
    exact ⟨os, rfl, (parse_flatMap_render os).mp h⟩
  · rintro ⟨os, rfl, hLast⟩
    exact (parse_flatMap_render os).mpr hLast

end OpenMso.Server.Args

namespace OpenMso

open Foundation Server Server.Args

/-- A program and its arguments, without its own name. -/
structure Client.Command where
  program : String
  args : List String
  deriving DecidableEq, Repr

/-- What `launch` spawns, once it has its endpoints. -/
def Client.CaptureClient.launchCommand (argv : List String) (device : String)
    (endpoints : Transport.Endpoints) : Except Error Client.Command :=
  match argv with
  | [] => .error (.protocol "plugin has an empty argv")
  | program :: rest =>
    .ok ⟨program, rest ++ ["--device", device] ++ ["--control", endpoints.control] ++
      ["--events", endpoints.events]⟩

namespace Server.Args

/-- An occurrence as it comes through `execvp`. -/
def Occurrence.cStr (o : Occurrence) : Occurrence := { o with value := Text.cStr o.value }

theorem cStr_flag (s : Slot) : Text.cStr s.flag = s.flag := by cases s <;> rfl

theorem cargv_render (o : Occurrence) : Cpp.Plugins.cargv o.render = o.cStr.render := by
  have hFlag : Text.nul ∉ (o.slot.flag ++ "=").toList := by cases o.slot <;> decide
  rw [Occurrence.render, Occurrence.render]
  change _ = if o.inline then _ else _
  split
  · exact congrArg (fun token => [token]) (Text.cStr_append hFlag o.value)
  · exact congrArg (fun flag => [flag, Text.cStr o.value]) (cStr_flag o.slot)

theorem cargv_flatMap_render (os : List Occurrence) :
    Cpp.Plugins.cargv (os.flatMap Occurrence.render) =
      (os.map Occurrence.cStr).flatMap Occurrence.render := by
  induction os with
  | nil => rfl
  | cons o os ih =>
    rw [List.flatMap_cons, List.map_cons, List.flatMap_cons, ← ih, ← cargv_render]
    exact List.map_append

theorem cStr_url (path : String) : Text.cStr ("ipc://" ++ path) = "ipc://" ++ Text.cStr path :=
  Text.cStr_append (by decide) path

theorem cargv_fullArgv (program device : String) (rest : List String)
    (endpoints : Cpp.Transport.Endpoints) :
    Cpp.Plugins.cargv (Cpp.Plugins.CaptureClient.fullArgv (program :: rest) device endpoints) =
      Text.cStr program :: (Cpp.Plugins.cargv rest ++ ["--device", Text.cStr device,
        "--control", Text.cStr endpoints.control, "--events", Text.cStr endpoints.events]) := by
  rw [Cpp.Plugins.CaptureClient.fullArgv, Cpp.Plugins.cargv, List.map_append, List.map_cons,
    List.cons_append]
  exact congrArg (fun args => Text.cStr program :: (Cpp.Plugins.cargv rest ++ args)) rfl

/-- Without a NUL in them the arguments come through as they are. -/
theorem cargv_eq_self {argv : List String} (h : ∀ arg ∈ argv, Text.nul ∉ arg.toList) :
    Cpp.Plugins.cargv argv = argv := by
  rw [Cpp.Plugins.cargv, List.map_congr_left fun arg hMem => Text.cStr_eq_self (h arg hMem)]
  exact List.map_id argv

end Server.Args

/-- A plugin that either frontend launches finds its device and both its URLs, when the arguments
its manifest gives it are flags of its own command line; in C++ each up to its first NUL. -/
theorem launched_plugin_finds_endpoints (printable : Char → Bool) (program device : String)
    (os : List Occurrence) (endpoints : Transport.Endpoints)
    (cppEndpoints : Cpp.Transport.Endpoints) :
    (∃ command, Client.CaptureClient.launchCommand (program :: os.flatMap Occurrence.render) device
        endpoints = .ok command ∧
      fromEnv printable (command.program :: command.args) =
        .ok ⟨device, endpoints.control, endpoints.events⟩) ∧
    fromEnv printable (Cpp.Plugins.cargv (Cpp.Plugins.CaptureClient.fullArgv
        (program :: os.flatMap Occurrence.render) device cppEndpoints)) =
      .ok ⟨Text.cStr device, Text.cStr cppEndpoints.control, Text.cStr cppEndpoints.events⟩ := by
  constructor
  · refine ⟨_, rfl, ?_⟩
    rw [fromEnv, List.drop_one, List.tail_cons, List.append_assoc, List.append_assoc]
    exact parse_append os device endpoints.control endpoints.events
  · rw [fromEnv, cargv_fullArgv, cargv_flatMap_render, List.drop_one, List.tail_cons]
    exact parse_append (os.map Occurrence.cStr) _ _ _

/-- Whatever the manifest says: a plugin that either frontend launches has the sockets of this
frontend, or does not start. Of what C++ passes on, and listens at, each string ends at its
first NUL; with one in an argument Rust starts nothing. -/
theorem launched_plugin_reads_its_own_sockets (printable : Char → Bool) (program device : String)
    (rest : List String) (endpoints : Transport.Endpoints)
    (cppEndpoints : Cpp.Transport.Endpoints) :
    (∃ command, Client.CaptureClient.launchCommand (program :: rest) device endpoints =
        .ok command ∧
      ReadsItsOwn printable (command.program :: command.args) rest device endpoints.control
        endpoints.events) ∧
    ReadsItsOwn printable
      (Cpp.Plugins.cargv (Cpp.Plugins.CaptureClient.fullArgv (program :: rest) device cppEndpoints))
      (Cpp.Plugins.cargv rest) (Text.cStr device) (Text.cStr cppEndpoints.control)
      (Text.cStr cppEndpoints.events) := by
  constructor
  · refine ⟨_, rfl, ?_⟩
    rw [List.append_assoc, List.append_assoc]
    exact readsItsOwn_of_urls program rest device (endpoints.control_eq ▸ not_isInline_url _)
      (endpoints.events_eq ▸ not_isInline_url _)
  · have hControl : ¬ IsInline (Text.cStr cppEndpoints.control) := by
      rw [cppEndpoints.control_eq, cStr_url]
      exact not_isInline_url _
    have hEvents : ¬ IsInline (Text.cStr cppEndpoints.events) := by
      rw [cppEndpoints.events_eq, String.append_assoc, cStr_url]
      exact not_isInline_url _
    rw [cargv_fullArgv]
    exact readsItsOwn_of_urls _ _ _ hControl hEvents

end OpenMso
