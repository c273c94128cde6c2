import OpenMso.Foundation.Leaseholders
import OpenMso.Transport.Leftovers

/-! # Frontends below one base

Any number of frontends, in either language, make and drop their endpoints
below the same base at the same time.
-/

namespace OpenMso.Transport

open Foundation Foundation.Lease Foundation.Runs

set_option autoImplicit false

inductive Language where
  | rust
  | cpp
  deriving DecidableEq, Repr

/-- What a call goes by. -/
structure Frontend where
  language : Language
  environment : Environment
  nanos : UInt32
  pid : UInt32

/-- The path of the control socket that the call would make under the tag. -/
def Frontend.controlPath (frontend : Frontend) (tag : UInt32) : String :=
  match frontend.language with
  | .rust => join (join (Endpoints.base frontend.environment) (tagName tag)) "ctl"
  | .cpp => Cpp.Transport.Endpoints.dirOf frontend.environment tag ++ "/ctl"

/-- How a call ends. -/
inductive Opened where
  | rust (result : Except Error Endpoints)
  | cpp (result : Except Cpp.Error Cpp.Transport.Endpoints)

/-- Endpoints of either language. -/
structure Live where
  control : String
  events : String
  dir : String

def Opened.live : Opened → Option Live
  | .rust (.ok endpoints) => some ⟨endpoints.control, endpoints.events, endpoints.dir⟩
  | .cpp (.ok endpoints) => some ⟨endpoints.control, endpoints.events, endpoints.dir⟩
  | _ => none

def Frontend.launch (frontend : Frontend) : Trying FileOp Errno Opened :=
  match frontend.language with
  | .rust => (Endpoints.new frontend.environment frontend.nanos frontend.pid).bind
      fun result => .done (.rust result)
  | .cpp => (Cpp.Transport.Endpoints.construct frontend.environment frontend.nanos
      frontend.pid).bind fun result => .done (.cpp result)

def Opened.held (opened : Opened) : Option String := opened.live.bind fun live => tagged live.dir

def Opened.drop : Opened → Trying FileOp Errno Unit
  | .rust (.ok endpoints) => endpoints.drop
  | .cpp (.ok endpoints) => endpoints.destroy
  | _ => .done ()

def frontends : Service FileOp String Errno Frontend Opened where
  toStore := directories
  launch := Frontend.launch
  held := Opened.held
  drop := Opened.drop

/-- The frontend has these endpoints and has not begun to drop them. -/
def Alive (s : State FileOp String Errno Opened) (i : Nat) (live : Live) : Prop :=
  ∃ opened : Opened, s.party i = .opening (.done opened) ∧ opened.live = some live

@[simp] theorem held_rust (endpoints : Endpoints) :
    (Opened.rust (.ok endpoints)).held = tagged endpoints.dir := rfl

@[simp] theorem held_cpp (endpoints : Cpp.Transport.Endpoints) :
    (Opened.cpp (.ok endpoints)).held = tagged endpoints.dir := rfl

@[simp] theorem held_rust_error (e : Error) : (Opened.rust (.error e)).held = none := rfl

@[simp] theorem held_cpp_error (e : Cpp.Error) : (Opened.cpp (.error e)).held = none := rfl

theorem keeps_launch (frontend : Frontend) :
    Keeps directories (fun _ => True)
      (fun (opened : Opened) owned => ∀ name ∈ opened.held, owned = some name) none
      frontend.launch := by
  obtain ⟨language, environment, nanos, pid⟩ := frontend
  cases language with
  | rust =>
    have hNew := Endpoints.keeps_new environment (fun _ => True) nanos pid
    refine hNew.bind fun result owned hPost => .done fun name hName => ?_
    obtain ⟨rfl, _⟩ | ⟨k, _, hSettled⟩ := hPost
    · simp at hName
    · cases hSettled with
      | failed => simp at hName
      | overlong => simp at hName
      | opened endpoints hTagged => simpa [hTagged] using hName
  | cpp =>
    have hConstruct := Cpp.Transport.Endpoints.keeps_construct environment (fun _ => True) nanos pid
    refine hConstruct.bind fun result owned hPost => .done fun name hName => ?_
    cases hPost with
    | failed => simp at hName
    | settled k _ hSettled =>
      cases hSettled with
      | failed => simp at hName
      | overlong => simp at hName
      | opened endpoints hTagged => simpa [hTagged] using hName

theorem keeps_drop (opened : Opened) (name : String) (h : name ∈ opened.held) :
    Keeps directories (fun _ => True) (fun _ _ => True) (some name) opened.drop := by
  cases opened with
  | rust result =>
    cases result with
    | error e => simp at h
    | ok endpoints =>
      rw [held_rust, Option.mem_def] at h
      exact Endpoints.keeps_drop _ h
  | cpp result =>
    cases result with
    | error e => simp at h
    | ok endpoints =>
      rw [held_cpp, Option.mem_def] at h
      exact Cpp.Transport.Endpoints.keeps_destroy _ h

theorem lawful_frontends : frontends.Lawful := ⟨keeps_launch, keeps_drop⟩

/-! ## The URLs -/

theorem Opened.live_eq_some {opened : Opened} {live : Live} (h : opened.live = some live) :
    opened.held = tagged live.dir ∧ (tagged live.dir).isSome ∧
      live.control = "ipc://" ++ (live.dir ++ "/ctl") ∧
      live.events = "ipc://" ++ (live.dir ++ "/evt") := by
  cases opened with
  | rust result =>
    cases result with
    | error e => cases h
    | ok endpoints =>
      cases h
      obtain ⟨name, hTagged⟩ := Option.isSome_iff_exists.mp endpoints.isTagged
      refine ⟨rfl, endpoints.isTagged, ?_, ?_⟩
      · rw [endpoints.control_eq, join_of_tagged hTagged, String.append_assoc]
        rfl
      · rw [endpoints.events_eq, join_of_tagged hTagged, String.append_assoc]
        rfl
  | cpp result =>
    cases result with
    | error e => cases h
    | ok endpoints =>
      cases h
      refine ⟨rfl, endpoints.isTagged, endpoints.control_eq, ?_⟩
      exact endpoints.events_eq.trans (String.append_assoc ..)

theorem Alive.holds {s : State FileOp String Errno Opened} {i : Nat} {live : Live}
    (h : Alive s i live) : ∃ name, tagged live.dir = some name ∧ frontends.Holds s i name := by
  obtain ⟨opened, hParty, hLive⟩ := h
  obtain ⟨hHeld, hTagged, _⟩ := Opened.live_eq_some hLive
  obtain ⟨name, hName⟩ := Option.isSome_iff_exists.mp hTagged
  exact ⟨name, hName, opened, hParty, hHeld.trans hName⟩

theorem Alive.urls_ne {s : State FileOp String Errno Opened} {i j : Nat} {x y : Live}
    (hx : Alive s i x) (hy : Alive s j y) (h : tagged x.dir ≠ tagged y.dir) :
    x.dir ≠ y.dir ∧ x.control ≠ y.control ∧ x.events ≠ y.events := by
  obtain ⟨_, _, hxLive⟩ := hx
  obtain ⟨_, _, hyLive⟩ := hy
  obtain ⟨_, _, hxControl, hxEvents⟩ := Opened.live_eq_some hxLive
  obtain ⟨_, _, hyControl, hyEvents⟩ := Opened.live_eq_some hyLive
  have hDir : x.dir ≠ y.dir := fun hEq => h (congrArg tagged hEq)
  refine ⟨hDir, ?_, ?_⟩
  · rw [hxControl, hyControl]
    simpa using hDir
  · rw [hxEvents, hyEvents]
    simpa using hDir

/-! ## A call that nobody races -/

section
variable (frontend : Frontend) (names : Finset String)

theorem alone_launch_of_free {k : Nat} (hk : k < 64)
    (hTaken : ∀ j < k, triedName frontend.nanos frontend.pid j ∈ names)
    (hFree : triedName frontend.nanos frontend.pid k ∉ names)
    (hFits : (frontend.controlPath (triedTag frontend.nanos frontend.pid k)).utf8ByteSize ≤ 103) :
    ∃ opened live, directories.alone (fun _ _ => none) frontend.launch names =
        (opened, insert (triedName frontend.nanos frontend.pid k) names) ∧
      Opened.live opened = some live ∧
      tagged live.dir = some (triedName frontend.nanos frontend.pid k) := by
  obtain ⟨language, environment, nanos, pid⟩ := frontend
  simp only [← tagName_iterate_nextTag] at hTaken hFree ⊢
  cases language with
  | rust =>
    simp only [Frontend.controlPath, Endpoints.utf8ByteSize_control] at hFits
    obtain ⟨endpoints, hOpened, hTagged⟩ := Endpoints.opened_of_le environment
      (nextTag^[k] (firstTag nanos pid)) (by omega)
    refine ⟨.rust (.ok endpoints), _, ?_, rfl, hTagged⟩
    simp only [Frontend.launch, alone_bind, hOpened,
      Endpoints.alone_new_of_free environment nanos pid hk hTaken hFree, Store.alone_done]
  | cpp =>
    simp only [Frontend.controlPath, Cpp.Transport.Endpoints.utf8ByteSize_control] at hFits
    obtain ⟨endpoints, hOpened, hTagged⟩ := Cpp.Transport.Endpoints.opened_of_le environment
      (nextTag^[k] (firstTag nanos pid)) (by omega)
    refine ⟨.cpp (.ok endpoints), _, ?_, rfl, hTagged⟩
    simp only [Frontend.launch, alone_bind, Store.alone_done,
      Cpp.Transport.Endpoints.alone_construct_of_free environment nanos pid hk hTaken hFree hOpened]

theorem alone_launch_of_taken
    (h : ∀ k < 64, triedName frontend.nanos frontend.pid k ∈ names) :
    ∃ opened, directories.alone (fun _ _ => none) frontend.launch names = (opened, names) ∧
      Opened.live opened = none := by
  obtain ⟨language, environment, nanos, pid⟩ := frontend
  simp only [← tagName_iterate_nextTag] at h
  cases language with
  | rust =>
    refine ⟨.rust (.error (.protocol "no free runtime directory")), ?_, rfl⟩
    simp only [Frontend.launch, alone_bind, Store.alone_done,
      Endpoints.alone_new_of_taken environment nanos pid h]
  | cpp =>
    refine ⟨.cpp (.error (.protocol "no free runtime directory")), ?_, rfl⟩
    simp only [Frontend.launch, alone_bind, Store.alone_done,
      Cpp.Transport.Endpoints.alone_construct_of_taken environment nanos pid h]

end

theorem frontends_keep_apart {names : Finset String} {actions : List (Action Errno Frontend)}
    {s : State FileOp String Errno Opened}
    (h : run frontends.step (.initial FileOp Errno Opened names) actions = some s) :
    -- Endpoints alive at the same time are in different directories, which they have made.
    (∀ i j x y, i ≠ j → Alive s i x → Alive s j y →
      tagged x.dir ≠ tagged y.dir ∧ x.control ≠ y.control ∧ x.events ≠ y.events) ∧
    (∀ i x, Alive s i x → ∃ name, tagged x.dir = some name ∧ name ∈ s.names ∧
      frontends.Made (.initial FileOp Errno Opened names) actions i name) ∧
    -- No step takes away a directory but one that the same frontend has made.
    (∀ action t, frontends.step s action = some t →
      (∀ j x, j ≠ action.party → Alive s j x →
        Alive t j x ∧ ∀ name ∈ tagged x.dir, name ∈ t.names) ∧
      ∀ name ∈ s.names, name ∉ t.names →
        frontends.Made (.initial FileOp Errno Opened names) actions action.party name) ∧
    -- A call that is not raced finds the first free tag.
    ∀ i frontend, frontends.idle (s.party i) →
      (∀ k < 64, (∀ j < k, triedName frontend.nanos frontend.pid j ∈ s.names) →
        triedName frontend.nanos frontend.pid k ∉ s.names →
        (frontend.controlPath (triedTag frontend.nanos frontend.pid k)).utf8ByteSize ≤ 103 →
        ∃ n t x, run frontends.step s (⟨i, .start frontend⟩ ::
            List.replicate n ⟨i, .operate none⟩) = some t ∧ Alive t i x ∧
          tagged x.dir = some (triedName frontend.nanos frontend.pid k) ∧
          t.names = insert (triedName frontend.nanos frontend.pid k) s.names) ∧
      ((∀ k < 64, triedName frontend.nanos frontend.pid k ∈ s.names) →
        ∃ n t opened, run frontends.step s (⟨i, .start frontend⟩ ::
            List.replicate n ⟨i, .operate none⟩) = some t ∧
          t.party i = .opening (.done opened) ∧ Opened.live opened = none ∧
          t.names = s.names) := by
  obtain ⟨owned, hOwning, hMade⟩ := Service.exists_owning_of_run lawful_frontends h
  refine ⟨?_, ?_, ?_, ?_⟩
  · intro i j x y hne hx hy
    obtain ⟨nameX, hxName, hxHolds⟩ := hx.holds
    obtain ⟨nameY, hyName, hyHolds⟩ := hy.holds
    have hNames : tagged x.dir ≠ tagged y.dir := by
      intro hEq
      rw [hxName, hyName] at hEq
      obtain rfl := Option.some.inj hEq
      exact hne (hOwning.unique i j nameX (hOwning.of_holds hxHolds) (hOwning.of_holds hyHolds))
    exact ⟨hNames, (hx.urls_ne hy hNames).2⟩
  · intro i x hx
    obtain ⟨name, hName, hHolds⟩ := hx.holds
    have hOwned := hOwning.of_holds hHolds
    exact ⟨name, hName, hOwning.mem i name hOwned, hMade i name hOwned⟩
  · intro action t hStep
    refine ⟨fun j x hj hx => ?_, fun name hThere hGone =>
      Service.made_of_removed lawful_frontends h hStep hThere hGone⟩
    have hAlive : Alive t j x := by
      obtain ⟨opened, hParty, hLive⟩ := hx
      exact ⟨opened, (Service.step_party_of_ne hStep hj).trans hParty, hLive⟩
    obtain ⟨owned', hOwning', _⟩ := hOwning.step lawful_frontends hStep
    obtain ⟨other, hOther, hHolds⟩ := hAlive.holds
    refine ⟨hAlive, fun name hName => ?_⟩
    rw [hOther, Option.mem_some] at hName
    exact hName ▸ hOwning'.mem j other (hOwning'.of_holds hHolds)
  · intro i frontend hIdle
    obtain ⟨n, hRun⟩ := Service.exists_run_start hIdle frontend
    constructor
    · intro k hk hTaken hFree hFits
      obtain ⟨opened, live, hAlone, hLive, hTagged⟩ :=
        alone_launch_of_free frontend s.names hk hTaken hFree hFits
      rw [show frontends.alone _ (frontends.launch frontend) s.names = _ from hAlone] at hRun
      exact ⟨n, _, live, hRun, ⟨opened, Function.update_self .., hLive⟩, hTagged, rfl⟩
    · intro hTaken
      obtain ⟨opened, hAlone, hLive⟩ := alone_launch_of_taken frontend s.names hTaken
      rw [show frontends.alone _ (frontends.launch frontend) s.names = _ from hAlone] at hRun
      exact ⟨n, _, opened, hRun, Function.update_self .., hLive, rfl⟩

/-- A Rust frontend and a C++ one start from the same tag; the second gets the next one. -/
theorem frontends_keep_apart_same_tag :
    ∃ actions s x y, run frontends.step (.initial FileOp Errno Opened ∅) actions = some s ∧
      Alive s 0 x ∧ Alive s 1 y ∧ tagged y.dir = some "0001" ∧ x.control ≠ y.control := by
  let environment : Environment := ⟨some "/run/user/1000", none, fun _ => ""⟩
  let first : Frontend := ⟨.rust, environment, 0, 0⟩
  let second : Frontend := ⟨.cpp, environment, 0, 0⟩
  have hFirst : triedName 0 0 0 = "0000" := by decide +kernel
  have hSecond : triedName 0 0 1 = "0001" := by decide +kernel
  let taken : Finset String := insert "0000" ∅
  have hMem : triedName 0 0 0 ∈ taken := hFirst ▸ Finset.mem_insert_self "0000" ∅
  have hNotMem : triedName 0 0 1 ∉ taken := by
    rw [hSecond]
    decide
  obtain ⟨openedX, x, hAloneX, hLiveX, _⟩ := alone_launch_of_free first ∅ (k := 0) (by decide)
    nofun (Finset.notMem_empty _) (by decide +kernel)
  obtain ⟨openedY, y, hAloneY, hLiveY, hTaggedY⟩ := alone_launch_of_free second taken (k := 1)
    (by decide) (fun j hj => Nat.lt_one_iff.mp hj ▸ hMem) hNotMem (by decide +kernel)
  rw [show triedName first.nanos first.pid 0 = "0000" from hFirst] at hAloneX
  -- The second call starts where the first has ended.
  let start : State FileOp String Errno Opened := .initial FileOp Errno Opened ∅
  let middle : State FileOp String Errno Opened :=
    ⟨taken, Function.update start.party 0 (.opening (.done openedX))⟩
  have hStart : frontends.idle (start.party 0) = true := rfl
  have hMiddle : frontends.idle (middle.party 1) = true := rfl
  obtain ⟨m, hRunX⟩ := Service.exists_run_start hStart first
  obtain ⟨n, hRunY⟩ := Service.exists_run_start hMiddle second
  rw [show frontends.alone _ (frontends.launch first) start.names = _ from hAloneX] at hRunX
  rw [show frontends.alone _ (frontends.launch second) middle.names = _ from hAloneY] at hRunY
  let ended : State FileOp String Errno Opened :=
    ⟨insert (triedName 0 0 1) taken, Function.update middle.party 1 (.opening (.done openedY))⟩
  have hRun : run frontends.step start ((⟨0, .start first⟩ :: List.replicate m ⟨0, .operate none⟩) ++
      (⟨1, .start second⟩ :: List.replicate n ⟨1, .operate none⟩)) = some ended := by
    rw [run_append, hRunX, Option.bind_some]
    exact hRunY
  have hAliveX : Alive ended 0 x := ⟨openedX, rfl, hLiveX⟩
  have hAliveY : Alive ended 1 y := ⟨openedY, rfl, hLiveY⟩
  refine ⟨_, ended, x, y, hRun, hAliveX, hAliveY, hTaggedY.trans (congrArg some hSecond), ?_⟩
  exact ((frontends_keep_apart hRun).1 0 1 x y (by decide) hAliveX hAliveY).2.1

end OpenMso.Transport
