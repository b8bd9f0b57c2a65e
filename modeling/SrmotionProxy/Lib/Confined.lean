/-
# Computations confined to a set of moves

A stateful computation that may throw is an `EStateM`. Its state survives an
exception, as it does in C++. Two notions are developed for it.

`Keeps I m` says that `m` preserves the state predicate `I` on every exit, normal
or exceptional, with one rule per way of composing computations.

`Confined R ε α` is a computation that carries the proof that it only ever moves
the state along `R`: code written in this monad can touch the state through its
confined primitives alone, so a predicate closed under `R` is kept by every such
program without looking at its text.
-/

import Mathlib.Logic.Relation

namespace SrmotionProxy.Lib

variable {ε σ α β : Type}

/-- The state a computation leaves behind, however it ends. -/
def finalState : EStateM.Result ε σ α → σ
  | .ok _ state => state
  | .error _ state => state

@[simp]
theorem finalState_ok (value : α) (state : σ) :
    finalState (.ok value state : EStateM.Result ε σ α) = state := rfl

@[simp]
theorem finalState_error (failure : ε) (state : σ) :
    finalState (.error failure state : EStateM.Result ε σ α) = state := rfl

/-- The exception a computation ends with. -/
def failureOf : EStateM.Result ε σ α → Option ε
  | .ok _ _ => none
  | .error failure _ => some failure

/-! ## Running the basic computations -/

section Running

variable (state : σ)

theorem run_bind_ok {first : EStateM ε σ α} {next : α → EStateM ε σ β} {value : α}
    {after : σ} (hfirst : first.run state = .ok value after) :
    (first >>= next).run state = (next value).run after := by
  rw [EStateM.run_bind, hfirst]

theorem run_bind_error {first : EStateM ε σ α} {next : α → EStateM ε σ β} {failure : ε}
    {after : σ} (hfirst : first.run state = .error failure after) :
    (first >>= next).run state = .error failure after := by
  rw [EStateM.run_bind, hfirst]

theorem run_get_bind (next : σ → EStateM ε σ β) :
    (get >>= next).run state = (next state).run state := rfl

/-- A completed sequence splits at the state between its two parts. -/
theorem run_bind_eq_ok {first : EStateM ε σ α} {next : α → EStateM ε σ β} {result : β}
    {last : σ} (hrun : (first >>= next).run state = .ok result last) :
    ∃ value middle, first.run state = .ok value middle ∧
      (next value).run middle = .ok result last := by
  rw [EStateM.run_bind] at hrun
  cases hfirst : first.run state with
  | ok value middle =>
      rw [hfirst] at hrun
      exact ⟨value, middle, rfl, hrun⟩
  | error failure middle =>
      rw [hfirst] at hrun
      cases hrun

/-- `try body catch`, where only failures that `caught` selects reach the handler. -/
def tryCatchIf (caught : ε → Bool) (body : EStateM ε σ α) (handler : ε → EStateM ε σ α) :
    EStateM ε σ α := fun start =>
  match body.run start with
  | .ok value after => .ok value after
  | .error failure after =>
      if caught failure then (handler failure).run after else .error failure after

theorem run_tryCatchIf (caught : ε → Bool) (body : EStateM ε σ α)
    (handler : ε → EStateM ε σ α) :
    (tryCatchIf caught body handler).run state =
      match body.run state with
      | .ok value after => .ok value after
      | .error failure after =>
          if caught failure then (handler failure).run after else .error failure after := rfl

end Running

/-! ## Preserving a predicate -/

/-- `m` preserves `I` on every exit. -/
def Keeps (I : σ → Prop) (m : EStateM ε σ α) : Prop :=
  ∀ state, I state → I (finalState (m.run state))

namespace Keeps

variable {I : σ → Prop}

theorem pure (value : α) : Keeps I (Pure.pure value : EStateM ε σ α) :=
  fun _ hstate => hstate

theorem get : Keeps I (MonadState.get : EStateM ε σ σ) :=
  fun _ hstate => hstate

theorem modify {update : σ → σ} (hupdate : ∀ state, I state → I (update state)) :
    Keeps I (modify update : EStateM ε σ PUnit) :=
  fun state hstate => hupdate state hstate

theorem bind {first : EStateM ε σ α} {next : α → EStateM ε σ β}
    (hfirst : Keeps I first) (hnext : ∀ value, Keeps I (next value)) :
    Keeps I (first >>= next) := by
  intro state hstate
  have hmiddle := hfirst state hstate
  rw [EStateM.run_bind]
  cases hrun : first.run state with
  | ok value middle =>
      rw [hrun] at hmiddle
      exact hnext value middle hmiddle
  | error failure middle =>
      rw [hrun] at hmiddle
      exact hmiddle

theorem ite {condition : Prop} [Decidable condition] {first second : EStateM ε σ α}
    (hfirst : Keeps I first) (hsecond : Keeps I second) :
    Keeps I (if condition then first else second) := by
  by_cases hcondition : condition
  · rwa [if_pos hcondition]
  · rwa [if_neg hcondition]

end Keeps

/-! ## Confined computations -/

/-- A computation together with the proof that each of its runs is a sequence of
`R` moves. -/
structure Confined (R : σ → σ → Prop) (ε α : Type) where
  code : EStateM ε σ α
  confined : ∀ state, Relation.ReflTransGen R state (finalState (code.run state))

namespace Confined

variable {R : σ → σ → Prop}

instance : Monad (Confined R ε) where
  pure value := ⟨pure value, fun _ => .refl⟩
  bind first next :=
    ⟨first.code >>= fun value => (next value).code, fun state => by
      have hfirst := first.confined state
      rw [EStateM.run_bind]
      cases hrun : first.code.run state with
      | ok value middle =>
          rw [hrun] at hfirst
          exact hfirst.trans ((next value).confined middle)
      | error failure middle =>
          rw [hrun] at hfirst
          exact hfirst⟩

@[simp]
theorem code_pure (value : α) : (pure value : Confined R ε α).code = pure value := rfl

@[simp]
theorem code_bind (first : Confined R ε α) (next : α → Confined R ε β) :
    (first >>= next).code = first.code >>= fun value => (next value).code := rfl

@[simp]
theorem code_ite (condition : Prop) [Decidable condition] (first second : Confined R ε α) :
    (if condition then first else second).code =
      if condition then first.code else second.code := by
  by_cases hcondition : condition
  · rw [if_pos hcondition, if_pos hcondition]
  · rw [if_neg hcondition, if_neg hcondition]

/-- A completed sequence of confined computations splits between its two parts. -/
theorem bind_eq_ok {first : Confined R ε α} {next : α → Confined R ε β} {result : β}
    {start last : σ} (hrun : (first >>= next).code.run start = .ok result last) :
    ∃ value middle, first.code.run start = .ok value middle ∧
      (next value).code.run middle = .ok result last :=
  run_bind_eq_ok start hrun

/-- Read the whole state. -/
def read : Confined R ε σ := ⟨get, fun _ => .refl⟩

/-- Fail. -/
def fail (failure : ε) : Confined R ε α := ⟨throw failure, fun _ => .refl⟩

/-- Take one move. -/
def move (update : σ → σ) (hmove : ∀ state, R state (update state)) : Confined R ε Unit :=
  ⟨modify update, fun state => .single (hmove state)⟩

/-- `try body catch` for confined computations. -/
def tryCatchIf (caught : ε → Bool) (body : Confined R ε α)
    (handler : ε → Confined R ε α) : Confined R ε α :=
  ⟨Lib.tryCatchIf caught body.code fun failure => (handler failure).code, fun state => by
    have hbody := body.confined state
    rw [run_tryCatchIf]
    cases hrun : body.code.run state with
    | ok value middle =>
        rw [hrun] at hbody
        exact hbody
    | error failure middle =>
        rw [hrun] at hbody
        by_cases hcaught : caught failure
        · simp only [if_pos hcaught]
          exact hbody.trans ((handler failure).confined middle)
        · simp only [if_neg hcaught]
          exact hbody⟩

/-- Return a value computed without the state, or fail as it does. -/
def ofExcept : Except ε α → Confined R ε α
  | .ok value => pure value
  | .error failure => fail failure

theorem ofExcept_eq_ok {value : Except ε α} {result : α} {start last : σ}
    (hrun : (ofExcept value : Confined R ε α).code.run start = .ok result last) :
    value = .ok result ∧ last = start := by
  cases value with
  | ok found =>
      cases hrun
      exact ⟨rfl, rfl⟩
  | error failure => cases hrun

/-- The rule of confinement: a predicate closed under `R` survives every confined
computation. -/
theorem keeps {I : σ → Prop} (hclosed : ∀ first second, R first second → I first → I second)
    (m : Confined R ε α) : Keeps I m.code := by
  intro state hstate
  have hmoves := m.confined state
  generalize finalState (m.code.run state) = last at hmoves
  induction hmoves with
  | refl => exact hstate
  | tail _ hlast ih => exact hclosed _ _ hlast ih

/-! ### Returning -/

/-- The computation ends without an exception. -/
def Returns (m : Confined R ε α) (start : σ) : Prop :=
  ∃ value last, m.code.run start = .ok value last

theorem returns_pure (value : α) (start : σ) : (pure value : Confined R ε α).Returns start :=
  ⟨value, start, rfl⟩

theorem returns_bind {first : Confined R ε α} {next : α → Confined R ε β} {start : σ} :
    (first >>= next).Returns start ↔
      ∃ value middle, first.code.run start = .ok value middle ∧ (next value).Returns middle := by
  constructor
  · rintro ⟨result, last, hrun⟩
    obtain ⟨value, middle, hfirst, hnext⟩ := bind_eq_ok hrun
    exact ⟨value, middle, hfirst, result, last, hnext⟩
  · rintro ⟨value, middle, hfirst, result, last, hnext⟩
    exact ⟨result, last, (run_bind_ok start hfirst).trans hnext⟩

/-- Where returning does not depend on the state, a sequence returns if both parts do. -/
theorem returns_bind_iff {P Q : Prop} {first : Confined R ε α} {next : α → Confined R ε β}
    (hfirst : ∀ state, first.Returns state ↔ P)
    (hnext : ∀ value state, (next value).Returns state ↔ Q) (start : σ) :
    (first >>= next).Returns start ↔ P ∧ Q := by
  rw [returns_bind, ← hfirst start]
  constructor
  · rintro ⟨value, middle, hrun, hrest⟩
    exact ⟨⟨value, middle, hrun⟩, (hnext value middle).mp hrest⟩
  · rintro ⟨⟨value, middle, hrun⟩, hrest⟩
    exact ⟨value, middle, hrun, (hnext value middle).mpr hrest⟩

theorem returns_ofExcept_bind {value : Except ε α} {next : α → Confined R ε β} {start : σ} :
    ((ofExcept value : Confined R ε α) >>= next).Returns start ↔
      ∃ result, value = .ok result ∧ (next result).Returns start := by
  rw [returns_bind]
  constructor
  · rintro ⟨result, middle, hrun, hrest⟩
    obtain ⟨hvalue, rfl⟩ := ofExcept_eq_ok hrun
    exact ⟨result, hvalue, hrest⟩
  · rintro ⟨result, rfl, hrest⟩
    exact ⟨result, start, rfl, hrest⟩

end Confined

end SrmotionProxy.Lib
