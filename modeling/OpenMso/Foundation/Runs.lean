/-! # Runs of a step function

A step function takes the actions of a system one by one; an action that is
not enabled has no next state. What every step preserves holds at the end of
a run, and every run is made of shorter ones.
-/

namespace OpenMso.Foundation.Runs

set_option autoImplicit false

variable {State Action : Type} {step : State → Action → Option State}

def run (step : State → Action → Option State) : State → List Action → Option State
  | s, [] => some s
  | s, action :: actions => (step s action).bind fun t => run step t actions

@[simp] theorem run_nil (s : State) : run step s [] = some s := rfl

theorem run_cons (s : State) (action : Action) (actions : List Action) :
    run step s (action :: actions) = (step s action).bind fun t => run step t actions := rfl

theorem run_append (s : State) (first rest : List Action) :
    run step s (first ++ rest) = (run step s first).bind fun t => run step t rest := by
  induction first generalizing s with
  | nil => rfl
  | cons action first ih =>
    rw [List.cons_append, run_cons, run_cons, Option.bind_assoc]
    congr 1
    funext t
    exact ih t

theorem run_concat (s : State) (actions : List Action) (action : Action) :
    run step s (actions ++ [action]) = (run step s actions).bind fun t => step t action := by
  rw [run_append]
  congr 1
  funext t
  rw [run_cons]
  cases step t action <;> rfl

/-- What every step keeps that fits the state it is taken in, a run of such steps keeps. -/
theorem run_invariant_of_fits (Inv : State → Prop) (Fits : State → Action → Prop)
    (hStep : ∀ {s t action}, Fits s action → Inv s → step s action = some t → Inv t) {s t : State}
    {actions : List Action} (hs : Inv s)
    (hFits : ∀ first action rest u, actions = first ++ action :: rest → run step s first = some u →
      Fits u action)
    (h : run step s actions = some t) : Inv t := by
  induction actions generalizing s with
  | nil =>
    cases h
    exact hs
  | cons action actions ih =>
    obtain ⟨u, hFirst, hRest⟩ := Option.bind_eq_some_iff.mp h
    refine ih (hStep (hFits [] action actions s rfl rfl) hs hFirst) ?_ hRest
    intro first other rest v hActions hRun
    refine hFits (action :: first) other rest v (congrArg (action :: ·) hActions) ?_
    rw [run_cons, hFirst]
    exact hRun

theorem run_invariant_of_mem (Inv : State → Prop) {P : Action → Prop}
    (hStep : ∀ {s t action}, P action → Inv s → step s action = some t → Inv t) {s t : State}
    {actions : List Action} (hActions : ∀ action ∈ actions, P action) (hs : Inv s)
    (h : run step s actions = some t) : Inv t := by
  refine run_invariant_of_fits Inv (fun _ action => P action) hStep hs ?_ h
  intro first action rest u hSplit _
  exact hActions action (hSplit ▸ List.mem_append_right _ List.mem_cons_self)

theorem run_invariant (Inv : State → Prop)
    (hStep : ∀ {s t action}, Inv s → step s action = some t → Inv t) {s t : State}
    {actions : List Action} (hs : Inv s) (h : run step s actions = some t) : Inv t :=
  run_invariant_of_mem Inv (fun _ => hStep) (fun _ _ => trivial) hs h

end OpenMso.Foundation.Runs
