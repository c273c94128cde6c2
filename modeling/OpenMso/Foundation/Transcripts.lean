import Mathlib.Data.List.Forall2
import OpenMso.Foundation.Program

/-! # Programs that hold the same conversation

`Says` tells what a program asked, what it was answered and how it ended; the
silent operations leave no trace. Two programs are alike when each can follow
the other through any conversation whose answers are fair, question by question.
-/

namespace OpenMso.Foundation.Program

set_option autoImplicit false

variable {Op : Type} {Answer : Op → Type} {α β γ δ : Type}

/-- A question and its answer. -/
structure Event (Op : Type) (Answer : Op → Type) where
  op : Op
  answer : Answer op

section
variable (Silent : Op → Prop)

inductive Says : Program Op Answer α → List (Event Op Answer) → α → Prop
  | done (a : α) : Says (.done a) [] a
  | ask (op : Op) (next : Answer op → Program Op Answer α) (answer : Answer op)
      (transcript : List (Event Op Answer)) (a : α) (hLoud : ¬ Silent op)
      (h : Says (next answer) transcript a) : Says (.ask op next) (⟨op, answer⟩ :: transcript) a
  | silent (op : Op) (next : Answer op → Program Op Answer α) (answer : Answer op)
      (transcript : List (Event Op Answer)) (a : α) (hSilent : Silent op)
      (h : Says (next answer) transcript a) : Says (.ask op next) transcript a

/-- The programs ask questions that belong together, and answers that belong together lead to
results that do. Only fair answers are looked at. -/
inductive Alike (Fair : Event Op Answer → Prop) (Pairs : Event Op Answer → Event Op Answer → Prop)
    (R : α → β → Prop) : Program Op Answer α → Program Op Answer β → Prop
  | done (a : α) (b : β) (h : R a b) : Alike Fair Pairs R (.done a) (.done b)
  | ask (op op' : Op) (next : Answer op → Program Op Answer α)
      (next' : Answer op' → Program Op Answer β) (hLoud : ¬ Silent op) (hLoud' : ¬ Silent op')
      (hLeft : ∀ answer, Fair ⟨op, answer⟩ →
        ∃ answer', Fair ⟨op', answer'⟩ ∧ Pairs ⟨op, answer⟩ ⟨op', answer'⟩)
      (hRight : ∀ answer', Fair ⟨op', answer'⟩ →
        ∃ answer, Fair ⟨op, answer⟩ ∧ Pairs ⟨op, answer⟩ ⟨op', answer'⟩)
      (h : ∀ answer answer', Fair ⟨op, answer⟩ → Fair ⟨op', answer'⟩ →
        Pairs ⟨op, answer⟩ ⟨op', answer'⟩ → Alike Fair Pairs R (next answer) (next' answer')) :
      Alike Fair Pairs R (.ask op next) (.ask op' next')
  | left (op : Op) (next : Answer op → Program Op Answer α) (program : Program Op Answer β)
      (hSilent : Silent op) (h : ∀ answer, Alike Fair Pairs R (next answer) program) :
      Alike Fair Pairs R (.ask op next) program
  | right (op : Op) (next : Answer op → Program Op Answer β) (program : Program Op Answer α)
      (hSilent : Silent op) (h : ∀ answer, Alike Fair Pairs R program (next answer)) :
      Alike Fair Pairs R program (.ask op next)

end

variable {Silent : Op → Prop} {Fair : Event Op Answer → Prop}
  {Pairs : Event Op Answer → Event Op Answer → Prop} {R : α → β → Prop}
  {p : Program Op Answer α} {q : Program Op Answer β}

namespace Alike

theorem swap (h : Alike Silent Fair Pairs R p q) :
    Alike Silent Fair (fun event event' => Pairs event' event) (fun b a => R a b) q p := by
  induction h with
  | done a b h => exact .done b a h
  | ask op op' next next' hLoud hLoud' hLeft hRight _ ih =>
    exact .ask op' op _ _ hLoud' hLoud hRight hLeft fun answer answer' hFair hFair' hPairs =>
      ih answer' answer hFair' hFair hPairs
  | left op next program hSilent _ ih => exact .right op next program hSilent ih
  | right op next program hSilent _ ih => exact .left op next program hSilent ih

theorem mono {R' : α → β → Prop} (h : Alike Silent Fair Pairs R p q) (hImp : ∀ a b, R a b → R' a b) :
    Alike Silent Fair Pairs R' p q := by
  induction h with
  | done a b h => exact .done a b (hImp a b h)
  | ask op op' next next' hLoud hLoud' hLeft hRight _ ih =>
    exact .ask op op' _ _ hLoud hLoud' hLeft hRight ih
  | left op next program hSilent _ ih => exact .left op next program hSilent ih
  | right op next program hSilent _ ih => exact .right op next program hSilent ih

theorem bind {T : γ → δ → Prop} {f : α → Program Op Answer γ} {g : β → Program Op Answer δ}
    (h : Alike Silent Fair Pairs R p q) (hNext : ∀ a b, R a b → Alike Silent Fair Pairs T (f a) (g b)) :
    Alike Silent Fair Pairs T (p.bind f) (q.bind g) := by
  induction h with
  | done a b h => exact hNext a b h
  | ask op op' next next' hLoud hLoud' hLeft hRight _ ih =>
    exact .ask op op' _ _ hLoud hLoud' hLeft hRight ih
  | left op next program hSilent _ ih => exact .left op _ _ hSilent ih
  | right op next program hSilent _ ih => exact .right op _ _ hSilent ih

/-- Programs that need no answers are alike if their results are. -/
theorem of_finishes {P : α → Prop} {Q : β → Prop} (hp : Finishes Silent P p)
    (hq : Finishes Silent Q q) (hR : ∀ a b, P a → Q b → R a b) : Alike Silent Fair Pairs R p q := by
  induction hp with
  | done a ha =>
    induction hq with
    | done b hb => exact .done a b (hR a b ha hb)
    | ask op next hSilent _ ih => exact .right op next _ hSilent ih
  | ask op next hSilent _ ih => exact .left op next _ hSilent ih

/-- The second program can follow the first through any fair conversation, and theirs is
then fair too. -/
theorem follow (hAnswers : ∀ op, Silent op → Nonempty (Answer op)) (h : Alike Silent Fair Pairs R p q)
    {transcript : List (Event Op Answer)} {a : α} (hSays : Says Silent p transcript a)
    (hFair : ∀ event ∈ transcript, Fair event) :
    ∃ transcript' b, Says Silent q transcript' b ∧ (∀ event ∈ transcript', Fair event) ∧
      List.Forall₂ Pairs transcript transcript' ∧ R a b := by
  induction h generalizing transcript with
  | done a b h =>
    cases hSays
    exact ⟨[], b, .done b, hFair, .nil, h⟩
  | ask op op' next next' hLoud hLoud' hLeft hRight _ ih =>
    cases hSays with
    | silent _ _ _ _ _ hSilent _ => exact absurd hSilent hLoud
    | ask _ _ answer rest _ _ hRest =>
      obtain ⟨hAnswer, hAnswers⟩ := List.forall_mem_cons.mp hFair
      obtain ⟨answer', hAnswer', hPairs⟩ := hLeft answer hAnswer
      obtain ⟨rest', b, hSays', hFair', hSame, hResult⟩ :=
        ih answer answer' hAnswer hAnswer' hPairs hRest hAnswers
      exact ⟨⟨op', answer'⟩ :: rest', b, .ask op' next' answer' rest' b hLoud' hSays',
        List.forall_mem_cons.mpr ⟨hAnswer', hFair'⟩, .cons hPairs hSame, hResult⟩
  | left op next program hSilent _ ih =>
    cases hSays with
    | ask _ _ _ _ _ hLoud _ => exact absurd hSilent hLoud
    | silent _ _ answer _ _ _ hRest => exact ih answer hRest hFair
  | right op next program hSilent _ ih =>
    obtain ⟨answer⟩ := hAnswers op hSilent
    obtain ⟨transcript', b, hSays', hFair', hSame, hResult⟩ := ih answer hSays hFair
    exact ⟨transcript', b, .silent op next answer transcript' b hSilent hSays', hFair', hSame, hResult⟩

end Alike

section
variable {ε ε' κ κ' : Type}

/-- Outcomes of code that may throw and has a state: both return or both throw, and what
they leave belongs together. -/
inductive Paired (E : ε → ε' → Prop) (S : κ → κ' → Prop) (R : α → β → Prop) :
    Except ε α × κ → Except ε' β × κ' → Prop
  | ok (a : α) (b : β) (s : κ) (s' : κ') (h : R a b) (hState : S s s') :
      Paired E S R (.ok a, s) (.ok b, s')
  | error (e : ε) (e' : ε') (s : κ) (s' : κ') (h : E e e') (hState : S s s') :
      Paired E S R (.error e, s) (.error e', s')

theorem Alike.bindPaired {E : ε → ε' → Prop} {S : κ → κ' → Prop} {T : γ → δ → Prop}
    {code : ExceptT ε (StateT κ (Program Op Answer)) α}
    {code' : ExceptT ε' (StateT κ' (Program Op Answer)) β}
    {next : α → ExceptT ε (StateT κ (Program Op Answer)) γ}
    {next' : β → ExceptT ε' (StateT κ' (Program Op Answer)) δ} {s : κ} {s' : κ'}
    (h : Alike Silent Fair Pairs (Paired E S R) (code.run.run s) (code'.run.run s'))
    (hNext : ∀ a b t t', R a b → S t t' →
      Alike Silent Fair Pairs (Paired E S T) ((next a).run.run t) ((next' b).run.run t')) :
    Alike Silent Fair Pairs (Paired E S T) ((code >>= next).run.run s)
      ((code' >>= next').run.run s') := by
  refine Alike.bind h fun outcome outcome' hPaired => ?_
  cases hPaired with
  | ok a b t t' hResult hState => exact hNext a b t t' hResult hState
  | error e e' t t' hError hState => exact .done _ _ (.error e e' t t' hError hState)

end

end OpenMso.Foundation.Program
