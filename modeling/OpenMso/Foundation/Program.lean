/-! # Programs that ask their surroundings

A program is done, or it asks for an operation and goes on with the answer.
`Finishes` is the triple of a program that needs no answers. An automaton says the same stage by stage: `Follows` relates a turn of a loop
to the automaton that runs it for ever.
-/

namespace OpenMso.Foundation

set_option autoImplicit false

inductive Program (Op : Type) (Answer : Op → Type) (α : Type) where
  | done (a : α)
  | ask (op : Op) (next : Answer op → Program Op Answer α)

namespace Program

variable {Op : Type} {Answer : Op → Type} {α β : Type}

def bind (program : Program Op Answer α) (f : α → Program Op Answer β) : Program Op Answer β :=
  match program with
  | .done a => f a
  | .ask op next => .ask op fun answer => (next answer).bind f

theorem bind_assoc {γ : Type} (program : Program Op Answer α) (f : α → Program Op Answer β)
    (g : β → Program Op Answer γ) :
    (program.bind f).bind g = program.bind fun a => (f a).bind g := by
  induction program with
  | done a => rfl
  | ask op next ih =>
    rw [bind, bind, bind]
    congr 1
    funext answer
    exact ih answer

instance : Monad (Program Op Answer) where
  pure := .done
  bind := bind

/-- Ask for one operation and return its answer. -/
def perform (op : Op) : Program Op Answer (Answer op) := .ask op .done

/-- The program asks nothing but what `Silent` allows, and ends in a result that satisfies
the predicate. -/
inductive Finishes (Silent : Op → Prop) (P : α → Prop) : Program Op Answer α → Prop
  | done (a : α) (h : P a) : Finishes Silent P (.done a)
  | ask (op : Op) (next : Answer op → Program Op Answer α) (hSilent : Silent op)
      (h : ∀ answer, Finishes Silent P (next answer)) : Finishes Silent P (.ask op next)

theorem Finishes.bind {Silent : Op → Prop} {P : α → Prop} {Q : β → Prop}
    {program : Program Op Answer α} {f : α → Program Op Answer β} (h : Finishes Silent P program)
    (hNext : ∀ a, P a → Finishes Silent Q (f a)) : Finishes Silent Q (program.bind f) := by
  induction h with
  | done a h => exact hNext a h
  | ask op next hSilent _ ih => exact .ask op _ hSilent ih

theorem Finishes.mono {Silent : Op → Prop} {P Q : α → Prop} {program : Program Op Answer α}
    (h : Finishes Silent P program) (hImp : ∀ a, P a → Q a) : Finishes Silent Q program := by
  induction h with
  | done a h => exact .done a (hImp a h)
  | ask op next hSilent _ ih => exact .ask op next hSilent ih

theorem finishes (program : Program Op Answer α) :
    Finishes (fun _ => True) (fun _ => True) program := by
  induction program with
  | done a => exact .done a trivial
  | ask op next ih => exact .ask op next trivial ih

theorem Finishes.bindExcept {ε : Type} {Silent : Op → Prop}
    {code : ExceptT ε (Program Op Answer) α} {next : α → ExceptT ε (Program Op Answer) β}
    (h : Finishes Silent (fun _ => True) code.run)
    (hNext : ∀ a, Finishes Silent (fun _ => True) (next a).run) :
    Finishes Silent (fun _ => True) (code >>= next).run := by
  refine Finishes.bind h fun result _ => ?_
  cases result with
  | error e => exact .done _ trivial
  | ok a => exact hNext a

/-- Code that may throw and has a state: what every part keeps of the state is kept. -/
theorem Finishes.bindState {ε σ : Type} {Silent : Op → Prop} {P : σ → Prop}
    {code : ExceptT ε (StateT σ (Program Op Answer)) α}
    {next : α → ExceptT ε (StateT σ (Program Op Answer)) β} {s : σ}
    (h : Finishes Silent (fun outcome => P outcome.2) (code.run.run s))
    (hNext : ∀ a s', P s' → Finishes Silent (fun outcome => P outcome.2) ((next a).run.run s')) :
    Finishes Silent (fun outcome => P outcome.2) ((code >>= next).run.run s) := by
  refine Finishes.bind h fun outcome hKept => ?_
  obtain ⟨result, s'⟩ := outcome
  cases result with
  | error e => exact .done _ hKept
  | ok a => exact hNext a s' hKept

/-- A loop whose turn is over with `none` takes another turn. -/
def unroll (turn : Program Op Answer (Option α)) :
    Program Op Answer (Option α) → Program Op Answer (Option α)
  | .done none => turn
  | program => program

theorem unroll_ne_again {turn : Program Op Answer (Option α)} (hTurn : turn ≠ .done none)
    (program : Program Op Answer (Option α)) : unroll turn program ≠ .done none := by
  intro h
  cases program with
  | ask op next => cases h
  | done a =>
    cases a with
    | none => exact hTurn h
    | some a => cases h

/-- Where a loop stands: at a stage of its automaton, or over. -/
inductive Position (Stage α : Type) where
  | on (stage : Stage)
  | halted (result : α)

/-- A loop as an automaton: each stage asks one operation, and the answer decides
what comes next. -/
structure Automaton (Op : Type) (Answer : Op → Type) (α : Type) where
  Stage : Type
  head : Stage
  op : Stage → Op
  next : (stage : Stage) → Answer (op stage) → Position Stage α

variable (A : Automaton Op Answer α)

/-- The program asks what the automaton asks, whatever the answers are. -/
inductive Follows : Program Op Answer (Option α) → Position A.Stage α → Prop
  | again : Follows (.done none) (.on A.head)
  | halted (result : α) : Follows (.done (some result)) (.halted result)
  | ask (stage : A.Stage) (next : Answer (A.op stage) → Program Op Answer (Option α))
      (h : ∀ answer, Follows (next answer) (A.next stage answer)) :
      Follows (.ask (A.op stage) next) (.on stage)

variable {A}

theorem Follows.unroll {turn program : Program Op Answer (Option α)} {position : Position A.Stage α}
    (hTurn : Follows A turn (.on A.head)) (h : Follows A program position) :
    Follows A (unroll turn program) position := by
  cases h with
  | again => exact hTurn
  | halted result => exact .halted result
  | ask stage next h => exact .ask stage next h

theorem Follows.eq_of_halted {program : Program Op Answer (Option α)} {result : α}
    (h : Follows A program (.halted result)) : program = .done (some result) := by
  cases h
  rfl

theorem Follows.cases_of_on {program : Program Op Answer (Option α)} {stage : A.Stage}
    (h : Follows A program (.on stage)) :
    program = .done none ∨ ∃ next, program = .ask (A.op stage) next := by
  cases h with
  | again => exact .inl rfl
  | ask stage next h => exact .inr ⟨next, rfl⟩

/-- A program that asks stands at a stage that asks the same. -/
theorem Follows.exists_stage {op : Op} {next : Answer op → Program Op Answer (Option α)}
    {position : Position A.Stage α} (h : Follows A (.ask op next) position) :
    ∃ (stage : A.Stage) (next' : Answer (A.op stage) → Program Op Answer (Option α)),
      position = .on stage ∧ (⟨op, next⟩ : (op : Op) × (Answer op → _)) = ⟨A.op stage, next'⟩ ∧
        ∀ answer, Follows A (next' answer) (A.next stage answer) := by
  generalize hProgram : Program.ask op next = program at h
  cases h with
  | again => cases hProgram
  | halted result => cases hProgram
  | ask stage next' hNext =>
    cases hProgram
    exact ⟨stage, next', rfl, rfl, hNext⟩

end Program

end OpenMso.Foundation
