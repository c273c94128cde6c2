import Mathlib.Logic.Function.Basic
import OpenMso.Foundation.Lease

/-! # Leaseholders in any order

Any number of parties, each opening a lease or closing one, take their
operations in any order and may crash between two of them. No two of them
ever hold one name.
-/

namespace OpenMso.Foundation.Lease

open Runs

set_option autoImplicit false

/-- What the parties run. An `α` is how an opening ends, with a name or without. -/
structure Service (Op Name ε Start α : Type) extends Store Op Name ε where
  launch : Start → Trying Op ε α
  held : α → Option Name
  drop : α → Trying Op ε Unit

inductive Party (Op ε α : Type) where
  | opening (program : Trying Op ε α)
  | closing (program : Trying Op ε Unit)

inductive Turn (ε Start : Type) where
  | start (start : Start)
  | operate (fault : Option ε)
  | leave
  /-- What the party made stays behind. -/
  | crash

structure Action (ε Start : Type) where
  party : Nat
  turn : Turn ε Start

structure State (Op Name ε α : Type) where
  names : Finset Name
  party : Nat → Party Op ε α

/-- No party has begun; the names there are from before. -/
def State.initial (Op : Type) {Name : Type} (ε α : Type) (names : Finset Name) :
    State Op Name ε α :=
  ⟨names, fun _ => .closing (.done ())⟩

variable {Op Name ε Start α : Type}

namespace Service

section
variable (service : Service Op Name ε Start α)

def idle : Party Op ε α → Bool
  | .opening (.done a) => (service.held a).isNone
  | .closing (.done ()) => true
  | _ => false

variable [DecidableEq Name]

def turn (names : Finset Name) (party : Party Op ε α) :
    Turn ε Start → Option (Finset Name × Party Op ε α)
  | .start start =>
    if service.idle party then some (names, .opening (service.launch start)) else none
  | .operate fault =>
    match party with
    | .opening (.ask op next) =>
      let performed := service.perform names op fault
      some (performed.2, .opening (next performed.1))
    | .closing (.ask op next) =>
      let performed := service.perform names op fault
      some (performed.2, .closing (next performed.1))
    | _ => none
  | .leave =>
    match party with
    | .opening (.done a) =>
      if (service.held a).isSome then some (names, .closing (service.drop a)) else none
    | _ => none
  | .crash => some (names, .closing (.done ()))

def step (s : State Op Name ε α) (action : Action ε Start) : Option (State Op Name ε α) :=
  (service.turn s.names (s.party action.party) action.turn).map fun taken =>
    ⟨taken.1, Function.update s.party action.party taken.2⟩

/-- The party made the name in one of its operations, and has not started again since. -/
def Made (first : State Op Name ε α) (actions : List (Action ε Start)) (i : Nat) (name : Name) :
    Prop :=
  ∃ before fault after s t, actions = before ++ ⟨i, .operate fault⟩ :: after ∧
    run service.step first before = some s ∧ service.step s ⟨i, .operate fault⟩ = some t ∧
    name ∉ s.names ∧ name ∈ t.names ∧ ∀ start, ⟨i, .start start⟩ ∉ after

end

section
variable (service : Service Op Name ε Start α)

/-- The party has opened a lease on the name and not begun to close it. -/
def Holds (s : State Op Name ε α) (i : Nat) (name : Name) : Prop :=
  ∃ a, s.party i = .opening (.done a) ∧ service.held a = some name

def PartyKeeps (owned : Option Name) : Party Op ε α → Prop
  | .opening program => Keeps service.toStore (fun _ => True)
      (fun a owned => ∀ name ∈ service.held a, owned = some name) owned program
  | .closing program => Keeps service.toStore (fun _ => True) (fun _ _ => True) owned program

/-- Both programs keep to a name of their own. -/
structure Lawful : Prop where
  launch : ∀ start, service.PartyKeeps none (.opening (service.launch start))
  drop : ∀ a, ∀ name ∈ service.held a, service.PartyKeeps (some name) (.closing (service.drop a))

/-- Each party owns at most one name, which is there and nobody else's. -/
structure Owning (s : State Op Name ε α) (owned : Nat → Option Name) : Prop where
  keeps : ∀ i, service.PartyKeeps (owned i) (s.party i)
  mem : ∀ i, ∀ name ∈ owned i, name ∈ s.names
  unique : ∀ i j name, owned i = some name → owned j = some name → i = j

variable {service}

theorem owning_initial (names : Finset Name) :
    service.Owning (.initial Op ε α names) fun _ => none where
  keeps _ := .done trivial
  mem _ _ h := nomatch h
  unique _ _ _ h := nomatch h

theorem PartyKeeps.owned_eq {owned : Option Name} {a : α} {name : Name}
    (h : service.PartyKeeps owned (.opening (.done a))) (hHeld : service.held a = some name) :
    owned = some name := by
  cases h with
  | done hOwned => exact hOwned name hHeld

theorem Owning.of_holds {s : State Op Name ε α} {owned : Nat → Option Name}
    (h : service.Owning s owned) {i : Nat} {name : Name} (hHolds : service.Holds s i name) :
    owned i = some name := by
  obtain ⟨a, hParty, hHeld⟩ := hHolds
  exact (hParty ▸ h.keeps i).owned_eq hHeld

end

section
variable [DecidableEq Name] {service : Service Op Name ε Start α}

theorem PartyKeeps.turn (hLawful : service.Lawful) {owned : Option Name} {party party' : Party Op ε α}
    {names names' : Finset Name} {turn : Turn ε Start} (h : service.PartyKeeps owned party)
    (hOwned : ∀ name ∈ owned, name ∈ names)
    (hTurn : service.turn names party turn = some (names', party')) :
    ∃ owned', service.PartyKeeps owned' party' ∧
      ((∃ fault, turn = .operate fault ∧ Move names owned names' owned') ∨
        names' = names ∧ (owned' = none ∨ owned' = owned ∧ ∀ start, turn ≠ .start start)) := by
  cases turn with
  | start start =>
    obtain ⟨_, ht⟩ := Option.ite_none_right_eq_some.mp hTurn
    cases ht
    exact ⟨none, hLawful.launch start, .inr ⟨rfl, .inl rfl⟩⟩
  | operate fault =>
    match party with
    | .opening (.ask op next) =>
      cases hTurn
      obtain ⟨owned', hNext, hMove⟩ := Keeps.perform h hOwned fun _ => trivial
      exact ⟨owned', hNext, .inl ⟨fault, rfl, hMove⟩⟩
    | .closing (.ask op next) =>
      cases hTurn
      obtain ⟨owned', hNext, hMove⟩ := Keeps.perform h hOwned fun _ => trivial
      exact ⟨owned', hNext, .inl ⟨fault, rfl, hMove⟩⟩
    | .opening (.done a) => cases hTurn
    | .closing (.done ()) => cases hTurn
  | leave =>
    match party with
    | .opening (.done a) =>
      obtain ⟨hHeld, ht⟩ := Option.ite_none_right_eq_some.mp hTurn
      obtain ⟨name, hName⟩ := Option.isSome_iff_exists.mp hHeld
      cases ht
      refine ⟨owned, ?_, .inr ⟨rfl, .inr ⟨rfl, nofun⟩⟩⟩
      rw [h.owned_eq hName]
      exact hLawful.drop a name hName
    | .opening (.ask op next) => cases hTurn
    | .closing program => cases hTurn
  | crash =>
    cases hTurn
    exact ⟨none, .done trivial, .inr ⟨rfl, .inl rfl⟩⟩

theorem step_eq_some_iff {s t : State Op Name ε α} {action : Action ε Start} :
    service.step s action = some t ↔ ∃ names party,
      service.turn s.names (s.party action.party) action.turn = some (names, party) ∧
        t = ⟨names, Function.update s.party action.party party⟩ := by
  rw [step, Option.map_eq_some_iff]
  constructor
  · rintro ⟨⟨names, party⟩, hTurn, rfl⟩
    exact ⟨names, party, hTurn, rfl⟩
  · rintro ⟨names, party, hTurn, rfl⟩
    exact ⟨(names, party), hTurn, rfl⟩

theorem step_party_of_ne {s t : State Op Name ε α} {action : Action ε Start}
    (h : service.step s action = some t) {i : Nat} (hi : i ≠ action.party) :
    t.party i = s.party i := by
  obtain ⟨names, party, _, rfl⟩ := step_eq_some_iff.mp h
  exact Function.update_of_ne hi _ _

/-- A move of the party that owns `owned` leaves the names of the others alone. -/
theorem Owning.mem_of_move {s : State Op Name ε α} {owned : Nat → Option Name}
    (h : service.Owning s owned) {i j : Nat} {names' : Finset Name} {owned' : Option Name}
    (hMove : Move s.names (owned i) names' owned') {name : Name} (hj : owned j = some name)
    (hne : j ≠ i) : name ∈ names' ∧ owned' ≠ some name := by
  have hMem : name ∈ s.names := h.mem j name hj
  generalize hi : owned i = before at hMove
  cases hMove with
  | stay =>
    refine ⟨hMem, fun hOwned => hne ?_⟩
    exact h.unique j i name hj (hi.trans hOwned)
  | made new hNew =>
    refine ⟨Finset.mem_insert_of_mem hMem, fun hOwned => hNew ?_⟩
    exact Option.some.inj hOwned ▸ hMem
  | removed old =>
    refine ⟨Finset.mem_erase.mpr ⟨?_, hMem⟩, nofun⟩
    rintro rfl
    exact hne (h.unique j i name hj hi)

theorem Owning.step (hLawful : service.Lawful) {s t : State Op Name ε α}
    {owned : Nat → Option Name} {action : Action ε Start} (h : service.Owning s owned)
    (hStep : service.step s action = some t) :
    ∃ owned', service.Owning t (Function.update owned action.party owned') ∧
      ((∃ fault, action.turn = .operate fault ∧
          Move s.names (owned action.party) t.names owned') ∨
        t.names = s.names ∧ (owned' = none ∨
          owned' = owned action.party ∧ ∀ start, action.turn ≠ .start start)) := by
  obtain ⟨names', party', hTurn, rfl⟩ := step_eq_some_iff.mp hStep
  obtain ⟨i, turn⟩ := action
  obtain ⟨owned', hKeeps, hChange⟩ := (h.keeps i).turn hLawful (h.mem i) hTurn
  refine ⟨owned', ?_, hChange⟩
  -- What the others own is still there, and the party's new name is not among it.
  have hOthers : ∀ j name, j ≠ i → owned j = some name →
      name ∈ names' ∧ owned' ≠ some name := by
    intro j name hne hj
    obtain ⟨_, _, hMove⟩ | ⟨rfl, rfl | ⟨rfl, _⟩⟩ := hChange
    · exact h.mem_of_move hMove hj hne
    · exact ⟨h.mem j name hj, nofun⟩
    · exact ⟨h.mem j name hj, fun hOwned => hne (h.unique j i name hj hOwned)⟩
  constructor
  · intro j
    by_cases hj : j = i
    · subst hj
      simpa using hKeeps
    · simpa [hj] using h.keeps j
  · intro j name hName
    by_cases hj : j = i
    · subst hj
      rw [Function.update_self] at hName
      obtain ⟨_, _, hMove⟩ | ⟨rfl, rfl | ⟨rfl, _⟩⟩ := hChange
      · exact hMove.mem (h.mem j) name hName
      · cases hName
      · exact h.mem j name hName
    · rw [Function.update_of_ne hj] at hName
      exact (hOthers j name hj hName).1
  · intro j k name hjName hkName
    by_cases hj : j = i <;> by_cases hk : k = i
    · exact hj.trans hk.symm
    · subst hj
      rw [Function.update_self] at hjName
      rw [Function.update_of_ne hk] at hkName
      exact ((hOthers k name hk hkName).2 hjName).elim
    · subst hk
      rw [Function.update_self] at hkName
      rw [Function.update_of_ne hj] at hjName
      exact ((hOthers j name hj hjName).2 hkName).elim
    · rw [Function.update_of_ne hj] at hjName
      rw [Function.update_of_ne hk] at hkName
      exact h.unique j k name hjName hkName

theorem Made.snoc {first : State Op Name ε α} {actions : List (Action ε Start)} {i : Nat}
    {name : Name} (h : service.Made first actions i name) {action : Action ε Start}
    (hStart : ∀ start, action ≠ ⟨i, .start start⟩) :
    service.Made first (actions ++ [action]) i name := by
  obtain ⟨before, fault, after, s, t, rfl, hRun, hStep, hNew, hThere, hAfter⟩ := h
  refine ⟨before, fault, after ++ [action], s, t, ?_, hRun, hStep, hNew, hThere, ?_⟩
  · rw [List.append_assoc, List.cons_append]
  · intro start hMem
    obtain hMem | hMem := List.mem_append.mp hMem
    · exact hAfter start hMem
    · exact hStart start (List.mem_singleton.mp hMem).symm

theorem exists_owning_of_run (hLawful : service.Lawful) {names : Finset Name}
    {actions : List (Action ε Start)} {s : State Op Name ε α}
    (h : run service.step (.initial Op ε α names) actions = some s) :
    ∃ owned, service.Owning s owned ∧
      ∀ i name, owned i = some name → service.Made (.initial Op ε α names) actions i name := by
  induction actions using List.reverseRecOn generalizing s with
  | nil =>
    cases h
    exact ⟨_, owning_initial names, nofun⟩
  | append_singleton actions action ih =>
    rw [run_concat] at h
    obtain ⟨u, hRun, hStep⟩ := Option.bind_eq_some_iff.mp h
    obtain ⟨owned, hOwning, hMade⟩ := ih hRun
    obtain ⟨owned', hOwning', hChange⟩ := hOwning.step hLawful hStep
    refine ⟨_, hOwning', ?_⟩
    intro i name hName
    by_cases hi : i = action.party
    · subst hi
      rw [Function.update_self] at hName
      subst hName
      obtain ⟨fault, hTurn, hMove⟩ | ⟨_, hNone | ⟨hStay, hStart⟩⟩ := hChange
      · generalize hOwned : owned action.party = before at hMove
        generalize hNames : s.names = names' at hMove
        cases hMove with
        | stay =>
          refine (hMade _ name hOwned).snoc fun start hAction => ?_
          rw [hAction] at hTurn
          cases hTurn
        | made name hNew =>
          obtain ⟨i, turn⟩ := action
          subst hTurn
          refine ⟨actions, fault, [], u, s, rfl, hRun, hStep, hNew, ?_, nofun⟩
          exact hNames ▸ Finset.mem_insert_self name u.names
      · cases hNone
      · refine (hMade _ name hStay.symm).snoc fun start hAction => ?_
        exact hStart start (congrArg Action.turn hAction)
    · rw [Function.update_of_ne hi] at hName
      refine (hMade i name hName).snoc fun start hAction => hi ?_
      exact (congrArg Action.party hAction).symm

/-- A step takes away no name but one the party that takes it has made. -/
theorem made_of_removed (hLawful : service.Lawful) {names : Finset Name}
    {actions : List (Action ε Start)} {s t : State Op Name ε α} {action : Action ε Start}
    (h : run service.step (.initial Op ε α names) actions = some s)
    (hStep : service.step s action = some t) {name : Name} (hThere : name ∈ s.names)
    (hGone : name ∉ t.names) : service.Made (.initial Op ε α names) actions action.party name := by
  obtain ⟨owned, hOwning, hMade⟩ := exists_owning_of_run hLawful h
  obtain ⟨owned', _, ⟨_, _, hMove⟩ | ⟨hSame, _⟩⟩ := hOwning.step hLawful hStep
  · generalize hOwned : owned action.party = before at hMove
    generalize t.names = names' at hMove hGone
    cases hMove with
    | stay => exact (hGone hThere).elim
    | made => exact (hGone (Finset.mem_insert_of_mem hThere)).elim
    | removed other =>
      refine hMade _ name ?_
      by_contra hOther
      refine hGone (Finset.mem_erase.mpr ⟨?_, hThere⟩)
      rintro rfl
      exact hOther hOwned
  · exact (hGone (hSame ▸ hThere)).elim

/-- Left to itself, an opening goes the way of the program run alone. -/
theorem exists_run_operate (service : Service Op Name ε Start α) (program : Trying Op ε α) (s : State Op Name ε α) (i : Nat)
    (h : s.party i = .opening program) :
    ∃ n, run service.step s (List.replicate n ⟨i, .operate none⟩) =
      some ⟨(service.alone (fun _ _ => none) program s.names).2, Function.update s.party i
        (.opening (.done (service.alone (fun _ _ => none) program s.names).1))⟩ := by
  induction program generalizing s with
  | done a =>
    refine ⟨0, ?_⟩
    rw [List.replicate_zero, run_nil, Store.alone_done, ← h, Function.update_eq_self]
  | ask op next ih =>
    let performed := service.perform s.names op none
    have hStep : service.step s ⟨i, .operate none⟩ =
        some ⟨performed.2, Function.update s.party i (.opening (next performed.1))⟩ :=
      step_eq_some_iff.mpr ⟨_, _, by rw [h]; rfl, rfl⟩
    obtain ⟨n, hRun⟩ := ih performed.1 ⟨performed.2, Function.update s.party i
      (.opening (next performed.1))⟩ (Function.update_self ..)
    refine ⟨n + 1, ?_⟩
    rw [List.replicate_succ, run_cons, hStep, Option.bind_some, hRun, Function.update_idem,
      Store.alone_ask]

theorem exists_run_start {s : State Op Name ε α} {i : Nat} (h : service.idle (s.party i) = true)
    (start : Start) :
    ∃ n, run service.step s (⟨i, .start start⟩ :: List.replicate n ⟨i, .operate none⟩) =
      some ⟨(service.alone (fun _ _ => none) (service.launch start) s.names).2,
        Function.update s.party i (.opening
          (.done (service.alone (fun _ _ => none) (service.launch start) s.names).1))⟩ := by
  have hStep : service.step s ⟨i, .start start⟩ =
      some ⟨s.names, Function.update s.party i (.opening (service.launch start))⟩ :=
    step_eq_some_iff.mpr ⟨_, _, if_pos h, rfl⟩
  obtain ⟨n, hRun⟩ := exists_run_operate service (service.launch start)
    ⟨s.names, Function.update s.party i (.opening (service.launch start))⟩ i
    (Function.update_self ..)
  refine ⟨n, ?_⟩
  rw [run_cons, hStep, Option.bind_some, hRun, Function.update_idem]

end

end Service

end OpenMso.Foundation.Lease
