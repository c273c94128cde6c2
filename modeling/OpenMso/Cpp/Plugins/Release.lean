import OpenMso.Cpp.Plugins.Frontend

/-! # Every resource is released once -/

namespace OpenMso.Cpp.Plugins

open Foundation Foundation.Runs
open Cpp.Client (Runtime)

set_option autoImplicit false

section
variable {Config Description : Type} {runtime : Runtime Config Description}

/-- A pid of which a signal is sent is of a child that has not been waited for. -/
theorem mem_held_of_kill {log before after : List Event} {pid : Nat}
    (h : discipline.Orderly log) (hLog : log = before ++ ⟨.kill pid, ()⟩ :: after) :
    .pid pid ∈ discipline.held before :=
  (h before _ after hLog).1 (Finset.mem_union_left _ (Finset.mem_singleton_self _))

theorem Keeps.held_of_failed {s t : State} (h : Keeps s) {i : Nat}
    {setting : CaptureClient.Setting} {argv : List String} {device : String} {oracle : Oracle}
    (hStep : s.step runtime (.launch i setting argv device, oracle) = some t)
    (hFailed : t.clients i = none) :
    discipline.held t.kernel.log = discipline.held s.kernel.log := by
  cases h.stepped hStep with
  | launched _ _ _ _ _ client k hNone hLaunches =>
    change Function.update s.clients i (some client) i = none at hFailed
    rw [Function.update_self] at hFailed
    cases hFailed
  | failed _ _ _ _ _ k hNone hCalm => exact hCalm.owns.held_eq

theorem Keeps.pid_ne {s : State} (h : Keeps s) {i j : Nat} {x y : CaptureClient} (hne : i ≠ j)
    (hx : s.clients i = some x) (hy : s.clients j = some y) (hPid : 0 < x.pid) : x.pid ≠ y.pid := by
  intro hSame
  refine hne (h.shared.unique i j (.pid x.pid.toNat) ?_ ?_)
  · rw [Keeps.own_eq hx, CaptureClient.mem_own_pid]
    exact ⟨hPid, rfl⟩
  · rw [Keeps.own_eq hy, CaptureClient.mem_own_pid, ← hSame]
    exact ⟨hPid, rfl⟩

theorem released_exactly_once {opened : Nat → Option Bool} {sockets : Finset Nat}
    {others : Nat → List OtherCall} {actions : List (Action Config × Oracle)} {s : State}
    (h : run (State.step runtime) (.initial opened sockets others) actions = some s) :
    -- What is used or released is held then, and what is acquired is not.
    discipline.Orderly s.kernel.log ∧
    (∀ before pid after, s.kernel.log = before ++ ⟨.kill pid, ()⟩ :: after →
      .pid pid ∈ discipline.held before) ∧
    -- What is held is owned by one client each.
    Shared (discipline.held s.kernel.log) s.own ∧
    (∀ i j x y, i ≠ j → s.clients i = some x → s.clients j = some y → 0 < x.pid →
      x.pid ≠ y.pid) ∧
    (∀ r, discipline.acquisitions s.kernel.log r = discipline.releasings s.kernel.log r +
      if r ∈ discipline.held s.kernel.log then 1 else 0) ∧
    ((∀ i, s.clients i = none) → ∀ r,
      discipline.acquisitions s.kernel.log r = discipline.releasings s.kernel.log r) ∧
    ∀ i setting argv device oracle t,
      s.step runtime (.launch i setting argv device, oracle) = some t → t.clients i = none →
        discipline.held t.kernel.log = discipline.held s.kernel.log := by
  have hKeeps := keeps_of_run h
  have hOrderly := hKeeps.owns.orderly
  refine ⟨hOrderly, fun before pid after => mem_held_of_kill hOrderly, hKeeps.shared,
    fun i j x y => hKeeps.pid_ne, hOrderly.acquisitions_eq, fun hNone r => ?_,
    fun i setting argv device oracle t => hKeeps.held_of_failed⟩
  have hHeld : discipline.held s.kernel.log = ∅ := by
    apply hKeeps.shared.held_eq_empty
    intro i
    rw [State.own, hNone i, Option.elim_none]
  rw [hOrderly.acquisitions_eq, hHeld, if_neg (Finset.notMem_empty r), Nat.add_zero]

end

/-! ## A frontend -/

/-- The system gives the numbers it is asked for, and refuses nothing. -/
def granting (stdinPipe errPipe : Nat × Nat) (pid control events : Nat) : Oracle
  | _, .pipe .stdinPipe => .ok stdinPipe
  | _, .pipe .errPipe => .ok errPipe
  | _, .fork _ => .ok pid
  | _, .read _ => none
  | _, .nngOpen .req0 => .ok control
  | _, .nngOpen _ => .ok events
  | _, .nngListenerCreate _ _ => .ok 1
  | _, .nngRecv _ => .error .timedOut
  | _, .file _ | _, .nngSet _ _ | _, .nngSend _ _ | _, .nngListenerSetPermissions _ _
  | _, .nngListenerStart _ => .ok ()
  | _, .setCloseOnExec _ | _, .close _ | _, .kill _ | _, .waitpid _ | _, .nngClose _
  | _, .nngListenerClose _ => ()

namespace Example

def setting : CaptureClient.Setting where
  environment := ⟨some "/run/user/1000", none, fun _ => ""⟩
  nanos := 0
  getpid := 0
  strerror _ := ""

/-- A codec that reads nothing. -/
def runtime : Runtime Unit Unit := ⟨fun _ => some [], fun _ => none, fun _ => ""⟩

/-- nng opens two descriptors when it starts, and one for each of its listeners. -/
def nng : Nat → List OtherCall
  | 3 => [.opens 3 true, .opens 4 true]
  | 9 => [.opens 5 true]
  | 16 => [.opens 6 true]
  | 34 => [.opens 7 true]
  | 41 => [.opens 9 true]
  | _ => []

/-- Only the standard descriptors are open. -/
def first : State := .initial (fun fd => if fd < 3 then some false else none) ∅ nng

end Example

open Example in
/-- A client is launched, its request to shut down fails, and it is destroyed. -/
theorem released_exactly_once_killed : ∃ s,
    run (State.step runtime) first
      [(.launch 0 setting ["demo"] "", granting (7, 8) (9, 10) 100 1 2),
        (.call 0 .shutdown, granting (7, 8) (9, 10) 100 1 2),
        (.destroy 0, granting (7, 8) (9, 10) 100 1 2)] = some s ∧
      discipline.Orderly s.kernel.log ∧ discipline.acquisitions s.kernel.log (.pid 100) = 1 ∧
      discipline.releasings s.kernel.log (.pid 100) = 1 := by
  have hAny : (run (State.step runtime) first
      [(.launch 0 setting ["demo"] "", granting (7, 8) (9, 10) 100 1 2),
        (.call 0 .shutdown, granting (7, 8) (9, 10) 100 1 2),
        (.destroy 0, granting (7, 8) (9, 10) 100 1 2)]).any (fun s =>
          discipline.acquisitions s.kernel.log (.pid 100) = 1 ∧
            discipline.releasings s.kernel.log (.pid 100) = 1) = true := by
    decide +kernel
  obtain ⟨s, hRun, hCounts⟩ := (Option.any_eq_true _ _).mp hAny
  obtain ⟨hAcquired, hReleased⟩ := of_decide_eq_true hCounts
  exact ⟨s, hRun, (released_exactly_once hRun).1, hAcquired, hReleased⟩

end OpenMso.Cpp.Plugins
