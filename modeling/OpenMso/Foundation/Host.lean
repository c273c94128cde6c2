import OpenMso.Foundation.Program

/-! # Programs on a host

A host answers the operations of a program. What it may answer depends on its
state, and the answer decides what becomes of it. `Ensures` is the weakest
precondition of a program on a host; whatever the host chooses to answer, a
run ends as it says.
-/

namespace OpenMso.Foundation

set_option autoImplicit false

structure Host (Op : Type) (Answer : Op → Type) (κ : Type) where
  allows : κ → (op : Op) → Answer op → Bool
  after : κ → (op : Op) → Answer op → κ

namespace Host

variable {Op : Type} {Answer : Op → Type} {κ α β : Type} (host : Host Op Answer κ)

/-- Run a program; `oracle n` is what the host answers the `n`-th operation. There is no such
run if it may not. -/
def run (oracle : Nat → (op : Op) → Answer op) : Program Op Answer α → κ → Option (α × κ)
  | .done a, k => some (a, k)
  | .ask op next, k =>
    let answer := oracle 0 op
    if host.allows k op answer then
      run (fun n => oracle (n + 1)) (next answer) (host.after k op answer)
    else none

def Ensures : Program Op Answer α → (α → κ → Prop) → κ → Prop
  | .done a, Q, k => Q a k
  | .ask op next, Q, k =>
    ∀ answer, host.allows k op answer = true → Ensures (next answer) Q (host.after k op answer)

variable {host} {Q : α → κ → Prop}

theorem ensures_bind {program : Program Op Answer α} {f : α → Program Op Answer β}
    {R : β → κ → Prop} {k : κ} :
    host.Ensures (program.bind f) R k ↔
      host.Ensures program (fun a k' => host.Ensures (f a) R k') k := by
  induction program generalizing k with
  | done a => exact .rfl
  | ask op next ih => exact forall_congr' fun answer => imp_congr_right fun _ => ih answer

theorem Ensures.mono {program : Program Op Answer α} {R : α → κ → Prop} {k : κ}
    (h : host.Ensures program Q k) (hImp : ∀ a k', Q a k' → R a k') : host.Ensures program R k := by
  induction program generalizing k with
  | done a => exact hImp a k h
  | ask op next ih => exact fun answer hAllows => ih answer (h answer hAllows)

theorem Ensures.bind {program : Program Op Answer α} {f : α → Program Op Answer β}
    {R : β → κ → Prop} {k : κ} (h : host.Ensures program Q k)
    (hNext : ∀ a k', Q a k' → host.Ensures (f a) R k') : host.Ensures (program.bind f) R k :=
  ensures_bind.mpr (h.mono hNext)

theorem Ensures.of_run {program : Program Op Answer α} {k k' : κ} {a : α}
    {oracle : Nat → (op : Op) → Answer op} (h : host.Ensures program Q k)
    (hRun : host.run oracle program k = some (a, k')) : Q a k' := by
  induction program generalizing k oracle with
  | done b =>
    cases hRun
    exact h
  | ask op next ih =>
    rw [run] at hRun
    split at hRun
    · rename_i hAllows
      exact ih _ (h _ hAllows) hRun
    · cases hRun

/-- A program that asks only what keeps an invariant of the host. -/
theorem ensures_of_finishes {Silent : Op → Prop} {P : α → Prop} {I : κ → Prop}
    (hKeeps : ∀ k op answer, Silent op → host.allows k op answer = true → I k →
      I (host.after k op answer))
    {program : Program Op Answer α} (h : Program.Finishes Silent P program) {k : κ} (hk : I k) :
    host.Ensures program (fun a k' => P a ∧ I k') k := by
  induction h generalizing k with
  | done a h => exact ⟨h, hk⟩
  | ask op next hSilent _ ih => exact fun answer hAllows => ih answer (hKeeps k op answer hSilent hAllows hk)

/-! ## Cutting a program off -/

/-- The state of the host once the program has asked `n` operations, or all that it asks. -/
def cut (host : Host Op Answer κ) (oracle : Nat → (op : Op) → Answer op) :
    Nat → Program Op Answer α → κ → Option κ
  | 0, _, k | _ + 1, .done _, k => some k
  | n + 1, .ask op next, k =>
    let answer := oracle 0 op
    if host.allows k op answer then
      cut host (fun n => oracle (n + 1)) n (next answer) (host.after k op answer)
    else none

/-- The invariant holds before and after each operation of the program. -/
def Throughout (host : Host Op Answer κ) (I : κ → Prop) : Program Op Answer α → κ → Prop
  | .done _, k => I k
  | .ask op next, k => I k ∧
    ∀ answer, host.allows k op answer = true → Throughout host I (next answer) (host.after k op answer)

/-- Started in a state in which the invariant holds, the program keeps it at every moment. -/
def Guards (host : Host Op Answer κ) (I : κ → Prop) (program : Program Op Answer α) : Prop :=
  ∀ k, I k → host.Throughout I program k

section
variable {I : κ → Prop} {program : Program Op Answer α}

theorem Throughout.of_cut {oracle : Nat → (op : Op) → Answer op} {n : Nat} {k k' : κ}
    (h : host.Throughout I program k) (hCut : host.cut oracle n program k = some k') : I k' := by
  induction program generalizing n k oracle with
  | done a =>
    cases n <;> cases hCut <;> exact h
  | ask op next ih =>
    cases n with
    | zero =>
      cases hCut
      exact h.1
    | succ n =>
      rw [cut] at hCut
      split at hCut
      · rename_i hAllows
        exact ih _ (h.2 _ hAllows) hCut
      · cases hCut

theorem Throughout.of_run {oracle : Nat → (op : Op) → Answer op} {k k' : κ} {a : α}
    (h : host.Throughout I program k) (hRun : host.run oracle program k = some (a, k')) : I k' := by
  induction program generalizing k oracle with
  | done b =>
    cases hRun
    exact h
  | ask op next ih =>
    rw [run] at hRun
    split at hRun
    · rename_i hAllows
      exact ih _ (h.2 _ hAllows) hRun
    · cases hRun

theorem Throughout.bind {f : α → Program Op Answer β} {k : κ} (h : host.Throughout I program k)
    (hNext : ∀ a, host.Guards I (f a)) : host.Throughout I (program.bind f) k := by
  induction program generalizing k with
  | done a => exact hNext a k h
  | ask op next ih => exact ⟨h.1, fun answer hAllows => ih answer (h.2 answer hAllows)⟩

theorem guards_of_finishes {Silent : Op → Prop} {P : α → Prop}
    (hKeeps : ∀ k op answer, Silent op → host.allows k op answer = true → I k →
      I (host.after k op answer))
    (h : Program.Finishes Silent P program) : host.Guards I program := by
  induction h with
  | done a _ => exact fun k hk => hk
  | ask op next hSilent _ ih =>
    exact fun k hk => ⟨hk, fun answer hAllows => ih answer _ (hKeeps k op answer hSilent hAllows hk)⟩

theorem Guards.bind {f : α → Program Op Answer β} (h : host.Guards I program)
    (hNext : ∀ a, host.Guards I (f a)) : host.Guards I (program.bind f) :=
  fun k hk => (h k hk).bind hNext

theorem Guards.bindExcept {ε : Type} {code : ExceptT ε (Program Op Answer) α}
    {next : α → ExceptT ε (Program Op Answer) β} (h : host.Guards I code.run)
    (hNext : ∀ a, host.Guards I (next a).run) : host.Guards I (code >>= next).run := by
  refine h.bind fun result => ?_
  cases result with
  | error e => exact fun k hk => hk
  | ok a => exact hNext a

theorem Guards.bindLift {ε : Type} {next : α → ExceptT ε (Program Op Answer) β}
    (h : host.Guards I program) (hNext : ∀ a, host.Guards I (next a).run) :
    host.Guards I (ExceptT.lift program >>= next).run :=
  Guards.bindExcept (h.bind fun _ _ hk => hk) hNext

theorem Guards.bindState {ε σ : Type} {code : ExceptT ε (StateT σ (Program Op Answer)) α}
    {next : α → ExceptT ε (StateT σ (Program Op Answer)) β} {s : σ}
    (h : host.Guards I (code.run.run s)) (hNext : ∀ a s', host.Guards I ((next a).run.run s')) :
    host.Guards I ((code >>= next).run.run s) := by
  refine h.bind fun outcome => ?_
  obtain ⟨result, s'⟩ := outcome
  cases result with
  | error e => exact fun k hk => hk
  | ok a => exact hNext a s'

theorem guards_get_bind {ε σ : Type} {next : σ → ExceptT ε (StateT σ (Program Op Answer)) β} {s : σ} :
    host.Guards I ((get >>= next).run.run s) ↔ host.Guards I ((next s).run.run s) := .rfl

theorem guards_modify_bind {ε σ : Type} {f : σ → σ}
    {next : Unit → ExceptT ε (StateT σ (Program Op Answer)) β} {s : σ} :
    host.Guards I ((modify f >>= next).run.run s) ↔ host.Guards I ((next ()).run.run (f s)) := .rfl

end

/-! ## Code that may throw -/

section
variable {ε : Type}

theorem Ensures.bindExcept {code : ExceptT ε (Program Op Answer) α}
    {next : α → ExceptT ε (Program Op Answer) β} {Q : Except ε α → κ → Prop}
    {R : Except ε β → κ → Prop} {k : κ} (h : host.Ensures code.run Q k)
    (hError : ∀ e k', Q (.error e) k' → R (.error e) k')
    (hOk : ∀ a k', Q (.ok a) k' → host.Ensures (next a).run R k') :
    host.Ensures (code >>= next).run R k := by
  refine Ensures.bind h fun result k' hResult => ?_
  cases result with
  | error e => exact hError e k' hResult
  | ok a => exact hOk a k' hResult

theorem Ensures.bindLift {program : Program Op Answer α}
    {next : α → ExceptT ε (Program Op Answer) β} {Q : α → κ → Prop} {R : Except ε β → κ → Prop}
    {k : κ} (h : host.Ensures program Q k)
    (hNext : ∀ a k', Q a k' → host.Ensures (next a).run R k') :
    host.Ensures (ExceptT.lift program >>= next).run R k := by
  have hLift : host.Ensures (ExceptT.lift program : ExceptT ε (Program Op Answer) α).run
      (fun result k' => ∃ a, result = .ok a ∧ Q a k') k :=
    Ensures.bind h fun a k' hResult => ⟨a, rfl, hResult⟩
  refine hLift.bindExcept ?_ ?_
  · rintro e k' ⟨a, ⟨⟩, -⟩
  · rintro a k' ⟨_, ⟨⟩, hResult⟩
    exact hNext a k' hResult

theorem Ensures.tryCatch {code : ExceptT ε (Program Op Answer) α}
    {handler : ε → ExceptT ε (Program Op Answer) α} {Q R : Except ε α → κ → Prop} {k : κ}
    (h : host.Ensures code.run Q k)
    (hError : ∀ e k', Q (.error e) k' → host.Ensures (handler e).run R k')
    (hOk : ∀ a k', Q (.ok a) k' → R (.ok a) k') :
    host.Ensures (tryCatch code handler : ExceptT ε (Program Op Answer) α).run R k := by
  refine Ensures.bind h fun result k' hResult => ?_
  cases result with
  | error e => exact hError e k' hResult
  | ok a => exact hOk a k' hResult

theorem Ensures.bindState {σ : Type} {code : ExceptT ε (StateT σ (Program Op Answer)) α}
    {next : α → ExceptT ε (StateT σ (Program Op Answer)) β}
    {Q : Except ε α × σ → κ → Prop} {R : Except ε β × σ → κ → Prop} {s : σ} {k : κ}
    (h : host.Ensures (code.run.run s) Q k)
    (hError : ∀ e s' k', Q (.error e, s') k' → R (.error e, s') k')
    (hOk : ∀ a s' k', Q (.ok a, s') k' → host.Ensures ((next a).run.run s') R k') :
    host.Ensures ((code >>= next).run.run s) R k := by
  refine Ensures.bind h fun outcome k' hOutcome => ?_
  obtain ⟨result, s'⟩ := outcome
  cases result with
  | error e => exact hError e s' k' hOutcome
  | ok a => exact hOk a s' k' hOutcome

theorem ensures_get_bind {σ : Type} {next : σ → ExceptT ε (StateT σ (Program Op Answer)) β}
    {R : Except ε β × σ → κ → Prop} {s : σ} {k : κ} :
    host.Ensures ((get >>= next).run.run s) R k ↔ host.Ensures ((next s).run.run s) R k := .rfl

theorem ensures_modify_bind {σ : Type} {f : σ → σ}
    {next : Unit → ExceptT ε (StateT σ (Program Op Answer)) β}
    {R : Except ε β × σ → κ → Prop} {s : σ} {k : κ} :
    host.Ensures ((modify f >>= next).run.run s) R k ↔
      host.Ensures ((next ()).run.run (f s)) R k := .rfl

end

end Host

namespace Program

variable {Op Op' : Type} {Answer : Op → Type} {Answer' : Op' → Type} {α β : Type}

/-- The program with other operations in place of its own. -/
def relabel (label : Op → Op') (answer : (op : Op) → Answer' (label op) → Answer op) :
    Program Op Answer α → Program Op' Answer' α
  | .done a => .done a
  | .ask op next => .ask (label op) fun given => (next (answer op given)).relabel label answer

variable {label : Op → Op'} {answer : (op : Op) → Answer' (label op) → Answer op}

theorem relabel_bind (program : Program Op Answer α) (f : α → Program Op Answer β) :
    (program.bind f).relabel label answer =
      (program.relabel label answer).bind fun a => (f a).relabel label answer := by
  induction program with
  | done a => rfl
  | ask op next ih =>
    refine congrArg (Program.ask (label op)) (funext fun given => ?_)
    exact ih (answer op given)

theorem Finishes.relabel {Silent : Op → Prop} {Silent' : Op' → Prop} {P : α → Prop}
    {program : Program Op Answer α} (h : Finishes Silent P program)
    (hSilent : ∀ op, Silent op → Silent' (label op)) :
    Finishes Silent' P (program.relabel label answer) := by
  induction h with
  | done a h => exact .done a h
  | ask op next hOp _ ih => exact .ask _ _ (hSilent op hOp) fun given => ih (answer op given)

end Program

end OpenMso.Foundation
