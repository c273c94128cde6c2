import Mathlib.Data.Finset.Basic
import Mathlib.Logic.Function.Iterate
import OpenMso.Foundation.Program
import OpenMso.Foundation.Runs

/-! # Exclusive names

A store of names, where making a name that is there fails. Parties run
programs that make and remove names, one operation at a time in any order. A
program that makes a name only while it owns none, and removes none but its
own, never shares one, whatever the others do.
-/

namespace OpenMso.Foundation.Lease

set_option autoImplicit false

/-- What an operation does to the names when it succeeds. -/
inductive Effect (Name : Type) where
  | none
  | create (name : Name)
  | remove (name : Name)
  deriving DecidableEq, Repr

structure Store (Op Name ε : Type) where
  effect : Op → Effect Name
  /-- The failure to make a name that is there. -/
  taken : ε
  /-- The failure to remove a name that is not. -/
  absent : ε

/-- A program whose operations succeed or fail. -/
abbrev Trying (Op ε α : Type) := Program Op (fun _ => Except ε Unit) α

variable {Op Name ε α β : Type}

def answer : Option ε → Except ε Unit
  | some e => .error e
  | none => .ok ()

section
variable [DecidableEq Name] (store : Store Op Name ε)

/-- One operation on the names. It may also fail for reasons of its own. -/
def Store.perform (names : Finset Name) (op : Op) (fault : Option ε) :
    Except ε Unit × Finset Name :=
  match store.effect op with
  | .none => (answer fault, names)
  | .create name =>
    if name ∈ names then (.error store.taken, names)
    else (answer fault, if fault.isSome then names else insert name names)
  | .remove name =>
    if name ∈ names then (answer fault, if fault.isSome then names else names.erase name)
    else (.error store.absent, names)

variable {store} in
theorem Store.perform_of_none {op : Op} (h : store.effect op = .none) (names : Finset Name)
    (fault : Option ε) : store.perform names op fault = (answer fault, names) := by
  rw [Store.perform, h]

/-- The program run by itself; `fault n` is what ails the `n`-th operation. -/
def Store.alone (fault : Nat → Op → Option ε) :
    Trying Op ε α → Finset Name → α × Finset Name
  | .done a, names => (a, names)
  | .ask op next, names =>
    let performed := store.perform names op (fault 0 op)
    alone (fun n => fault (n + 1)) (next performed.1) performed.2

@[simp] theorem Store.alone_done (fault : Nat → Op → Option ε) (a : α) (names : Finset Name) :
    store.alone fault (.done a) names = (a, names) := rfl

theorem Store.alone_ask (fault : Nat → Op → Option ε) (op : Op)
    (next : Except ε Unit → Trying Op ε α) (names : Finset Name) :
    store.alone fault (.ask op next) names =
      store.alone (fun n => fault (n + 1)) (next (store.perform names op (fault 0 op)).1)
        (store.perform names op (fault 0 op)).2 := rfl

end

/-! ## Owning a name -/

section
variable (store : Store Op Name ε) (Fails : Op → Prop)

/-- The program makes a name only while it owns none, removes only the name it owns, and
ends in a result that fits what it owns then. Only operations that `Fails` allows are
refused, apart from making a name that is there. -/
inductive Keeps (Post : α → Option Name → Prop) : Option Name → Trying Op ε α → Prop
  | done {owned : Option Name} {a : α} (h : Post a owned) : Keeps Post owned (.done a)
  | other {owned : Option Name} {op : Op} {next : Except ε Unit → Trying Op ε α}
      (hEffect : store.effect op = .none) (h : ∀ result, Keeps Post owned (next result)) :
      Keeps Post owned (.ask op next)
  | create {name : Name} {op : Op} {next : Except ε Unit → Trying Op ε α}
      (hEffect : store.effect op = .create name) (hOk : Keeps Post (some name) (next (.ok ())))
      (hError : ∀ e, Keeps Post none (next (.error e))) : Keeps Post none (.ask op next)
  | remove {name : Name} {op : Op} {next : Except ε Unit → Trying Op ε α}
      (hEffect : store.effect op = .remove name) (hOk : Keeps Post none (next (.ok ())))
      (hError : Fails op → ∀ e, Keeps Post (some name) (next (.error e))) :
      Keeps Post (some name) (.ask op next)

variable {store Fails}

theorem Keeps.mono {Post Post' : α → Option Name → Prop} {owned : Option Name}
    {program : Trying Op ε α} (h : Keeps store Fails Post owned program)
    (hImp : ∀ a owned, Post a owned → Post' a owned) : Keeps store Fails Post' owned program := by
  induction h with
  | done h => exact .done (hImp _ _ h)
  | other hEffect _ ih => exact .other hEffect ih
  | create hEffect _ _ ihOk ihError => exact .create hEffect ihOk ihError
  | remove hEffect _ _ ihOk ihError => exact .remove hEffect ihOk ihError

theorem Keeps.bind {Post : α → Option Name → Prop} {Post' : β → Option Name → Prop}
    {owned : Option Name} {program : Trying Op ε α} {f : α → Trying Op ε β}
    (h : Keeps store Fails Post owned program)
    (hNext : ∀ a owned, Post a owned → Keeps store Fails Post' owned (f a)) :
    Keeps store Fails Post' owned (program.bind f) := by
  induction h with
  | done h => exact hNext _ _ h
  | other hEffect _ ih => exact .other hEffect ih
  | create hEffect _ _ ihOk ihError => exact .create hEffect ihOk ihError
  | remove hEffect _ _ ihOk ihError => exact .remove hEffect ihOk ihError

end

/-- What one operation does to the names and to what its party owns. -/
inductive Move [DecidableEq Name] (names : Finset Name) :
    Option Name → Finset Name → Option Name → Prop
  | stay (owned : Option Name) : Move names owned names owned
  | made (name : Name) (h : name ∉ names) : Move names none (insert name names) (some name)
  | removed (name : Name) : Move names (some name) (names.erase name) none

section
variable [DecidableEq Name] {store : Store Op Name ε} {Fails : Op → Prop}

theorem Keeps.perform {Post : α → Option Name → Prop} {owned : Option Name} {op : Op}
    {next : Except ε Unit → Trying Op ε α} {names : Finset Name} {fault : Option ε}
    (h : Keeps store Fails Post owned (.ask op next)) (hOwned : ∀ name ∈ owned, name ∈ names)
    (hFault : fault.isSome → Fails op) :
    ∃ owned', Keeps store Fails Post owned' (next (store.perform names op fault).1) ∧
      Move names owned (store.perform names op fault).2 owned' := by
  unfold Store.perform
  cases h with
  | other hEffect h =>
    rw [hEffect]
    exact ⟨owned, h _, .stay owned⟩
  | @create name _ _ hEffect hOk hError =>
    rw [hEffect]
    by_cases hTaken : name ∈ names
    · simp only [if_pos hTaken]
      exact ⟨none, hError _, .stay none⟩
    · simp only [if_neg hTaken]
      cases fault with
      | some e => exact ⟨none, hError e, .stay none⟩
      | none => exact ⟨some name, hOk, .made name hTaken⟩
  | @remove name _ _ hEffect hOk hError =>
    rw [hEffect]
    simp only [if_pos (hOwned name rfl)]
    cases fault with
    | some e => exact ⟨some name, hError (hFault rfl) e, .stay _⟩
    | none => exact ⟨none, hOk, .removed name⟩

theorem Move.mem {names names' : Finset Name} {owned owned' : Option Name}
    (h : Move names owned names' owned') (hOwned : ∀ name ∈ owned, name ∈ names) :
    ∀ name ∈ owned', name ∈ names' := by
  cases h with
  | stay => exact hOwned
  | made name _ =>
    intro other hOther
    exact Option.mem_some.mp hOther ▸ Finset.mem_insert_self name names
  | removed name => exact nofun

/-- The names are those at the start and the one that is owned. -/
def Adds (start : Finset Name) (names : Finset Name) : Option Name → Prop
  | none => names = start
  | some name => name ∉ start ∧ names = insert name start

theorem Adds.mem {start names : Finset Name} {owned : Option Name} (h : Adds start names owned) :
    ∀ name ∈ owned, name ∈ names := by
  rintro name rfl
  exact h.2 ▸ Finset.mem_insert_self name start

theorem Adds.move {start names names' : Finset Name} {owned owned' : Option Name}
    (h : Adds start names owned) (hMove : Move names owned names' owned') :
    Adds start names' owned' := by
  cases hMove with
  | stay => exact h
  | made name hNew =>
    cases h
    exact ⟨hNew, rfl⟩
  | removed name =>
    obtain ⟨hNew, rfl⟩ := h
    exact Finset.erase_insert hNew

/-- A program that keeps to its own name, run alone, adds what it owns in the end. -/
theorem Keeps.alone {Post : α → Option Name → Prop} {owned : Option Name} {program : Trying Op ε α}
    (h : Keeps store Fails Post owned program) {start names : Finset Name}
    (hAdds : Adds start names owned) {fault : Nat → Op → Option ε}
    (hFault : ∀ n op, (fault n op).isSome → Fails op) :
    ∃ owned', Post (store.alone fault program names).1 owned' ∧
      Adds start (store.alone fault program names).2 owned' := by
  induction program generalizing owned names fault with
  | done a =>
    cases h with
    | done h => exact ⟨owned, h, hAdds⟩
  | ask op next ih =>
    obtain ⟨owned', hNext, hMove⟩ := h.perform hAdds.mem (hFault 0 op)
    exact ih _ hNext (hAdds.move hMove) fun n => hFault (n + 1)

end

/-! ## Probing for a free name -/

section
variable {Tag : Type}

/-- Attempt one tag after the other until an attempt decides the outcome. -/
def probe (attempt : Tag → Trying Op ε (Option α)) (next : Tag → Tag) (exhausted : α) :
    Nat → Tag → Trying Op ε α
  | 0, _ => .done exhausted
  | n + 1, tag => (attempt tag).bind fun
    | none => probe attempt next exhausted n (next tag)
    | some a => .done a

/-- How an attempt ends: undecided, with nothing made, or as `Post` says. -/
def Attempted (Post : α → Option Name → Prop) : Option α → Option Name → Prop
  | none, owned => owned = none
  | some a, owned => Post a owned

variable {attempt : Tag → Trying Op ε (Option α)} {next : Tag → Tag} {exhausted : α}

/-- The outcome is that of one of the tags attempted, unless none decided it. -/
theorem Keeps.probe {store : Store Op Name ε} {Fails : Op → Prop}
    {Post : Tag → α → Option Name → Prop}
    (h : ∀ tag, Keeps store Fails (Attempted (Post tag)) none (attempt tag)) (n : Nat) (tag : Tag) :
    Keeps store Fails (fun a owned => (a = exhausted ∧ owned = none) ∨
      ∃ k < n, Post (next^[k] tag) a owned) none (probe attempt next exhausted n tag) := by
  induction n generalizing tag with
  | zero => exact .done (.inl ⟨rfl, rfl⟩)
  | succ n ih =>
    refine (h tag).bind fun result owned hPost => ?_
    cases result with
    | none =>
      obtain rfl : owned = none := hPost
      refine (ih (next tag)).mono fun a owned => ?_
      rintro (hExhausted | ⟨k, hk, hPost⟩)
      · exact .inl hExhausted
      · exact .inr ⟨k + 1, Nat.succ_lt_succ hk, hPost⟩
    | some a => exact .done (.inr ⟨0, n.succ_pos, hPost⟩)

variable [DecidableEq Name] {store : Store Op Name ε}

theorem alone_bind (program : Trying Op ε α) (f : α → Trying Op ε β) (names : Finset Name) :
    store.alone (fun _ _ => none) (program.bind f) names =
      store.alone (fun _ _ => none) (f (store.alone (fun _ _ => none) program names).1)
        (store.alone (fun _ _ => none) program names).2 := by
  induction program generalizing names with
  | done a => rfl
  | ask op next ih => exact ih _ _

theorem alone_probe_of_undecided {names : Finset Name} {n : Nat} {tag : Tag}
    (h : ∀ k < n, store.alone (fun _ _ => none) (attempt (next^[k] tag)) names = (none, names)) :
    store.alone (fun _ _ => none) (probe attempt next exhausted n tag) names =
      (exhausted, names) := by
  induction n generalizing tag with
  | zero => rfl
  | succ n ih =>
    have hFirst := h 0 n.succ_pos
    rw [Function.iterate_zero_apply] at hFirst
    rw [probe, alone_bind, hFirst]
    exact ih fun k hk => h (k + 1) (Nat.succ_lt_succ hk)

theorem alone_probe_of_decided {names names' : Finset Name} {n k : Nat} {tag : Tag} {a : α}
    (hk : k < n)
    (h : ∀ j < k, store.alone (fun _ _ => none) (attempt (next^[j] tag)) names = (none, names))
    (hDecided : store.alone (fun _ _ => none) (attempt (next^[k] tag)) names =
      (some a, names')) :
    store.alone (fun _ _ => none) (probe attempt next exhausted n tag) names = (a, names') := by
  induction k generalizing n tag with
  | zero =>
    obtain ⟨n, rfl⟩ := Nat.exists_eq_add_one.mpr hk
    rw [Function.iterate_zero_apply] at hDecided
    rw [probe, alone_bind, hDecided]
    rfl
  | succ k ih =>
    obtain ⟨n, rfl⟩ := Nat.exists_eq_add_one.mpr (Nat.zero_lt_of_lt hk)
    have hFirst := h 0 k.succ_pos
    rw [Function.iterate_zero_apply] at hFirst
    rw [probe, alone_bind, hFirst]
    exact ih (Nat.lt_of_succ_lt_succ hk) (fun j hj => h (j + 1) (Nat.succ_lt_succ hj)) hDecided

end

end OpenMso.Foundation.Lease
