/-
# Runs of a partial step function

A machine is a step function that may have no successor. This module gives its
runs, the induction that carries an invariant along a run, the comparison of a
per-state property with a per-step guard, and forward simulation.

The guard comparison is the shape in which a safety property that can fail is
settled exactly: if good steps keep an invariant and bad steps break the property
at once, then a run is safe throughout precisely when all of its steps are good.
-/

import Mathlib.Data.List.Basic

namespace SrmotionProxy.Lib

variable {σ ε τ : Type}

/-- The state reached from `start` by `events`, if every step has a successor. -/
def runSteps (step : σ → ε → Option σ) : σ → List ε → Option σ
  | start, [] => some start
  | start, event :: events =>
      match step start event with
      | none => none
      | some next => runSteps step next events

theorem runSteps_append {step : σ → ε → Option σ} {start middle : σ} (first second : List ε)
    (hfirst : runSteps step start first = some middle) :
    runSteps step start (first ++ second) = runSteps step middle second := by
  induction first generalizing start with
  | nil =>
      cases hfirst
      rfl
  | cons event events ih =>
      rw [runSteps] at hfirst
      rw [List.cons_append, runSteps]
      cases hnext : step start event with
      | none => rw [hnext] at hfirst; cases hfirst
      | some next =>
          rw [hnext] at hfirst
          exact ih hfirst

/-- `P` holds in every state the run passes through, the first one included. -/
def EveryState (step : σ → ε → Option σ) (P : σ → Prop) : σ → List ε → Prop
  | start, [] => P start
  | start, event :: events =>
      P start ∧ ∀ next, step start event = some next → EveryState step P next events

/-- Each step that the run takes satisfies `G` in the state before it. -/
def EveryStep (step : σ → ε → Option σ) (G : σ → ε → Prop) : σ → List ε → Prop
  | _, [] => True
  | start, event :: events =>
      ∀ next, step start event = some next → G start event ∧ EveryStep step G next events

instance decidableEveryState {step : σ → ε → Option σ} {P : σ → Prop}
    [hstate : ∀ state, Decidable (P state)] :
    (start : σ) → (events : List ε) → Decidable (EveryState step P start events)
  | start, [] => hstate start
  | start, event :: events =>
      match hnext : step start event with
      | none => decidable_of_iff (P start)
          ⟨fun hstart => ⟨hstart, fun next hsome => by rw [hnext] at hsome; cases hsome⟩,
            fun hevery => hevery.1⟩
      | some next =>
          have : Decidable (EveryState step P next events) := decidableEveryState next events
          decidable_of_iff (P start ∧ EveryState step P next events)
            ⟨fun hall => ⟨hall.1, fun other hsome => by
                rw [hnext] at hsome; cases hsome; exact hall.2⟩,
              fun hevery => ⟨hevery.1, hevery.2 next hnext⟩⟩

instance decidableEveryStep {step : σ → ε → Option σ} {G : σ → ε → Prop}
    [hguard : ∀ state event, Decidable (G state event)] :
    (start : σ) → (events : List ε) → Decidable (EveryStep step G start events)
  | _, [] => .isTrue trivial
  | start, event :: events =>
      match hnext : step start event with
      | none => .isTrue fun next hsome => by rw [hnext] at hsome; cases hsome
      | some next =>
          have : Decidable (EveryStep step G next events) := decidableEveryStep next events
          decidable_of_iff (G start event ∧ EveryStep step G next events)
            ⟨fun hall other hsome => by rw [hnext] at hsome; cases hsome; exact hall,
              fun hevery => hevery next hnext⟩

namespace Runs

variable {step : σ → ε → Option σ} {P Inv : σ → Prop} {G : σ → ε → Prop}

theorem everyState_start {start : σ} {events : List ε}
    (hevery : EveryState step P start events) : P start := by
  cases events with
  | nil => exact hevery
  | cons event events => exact hevery.1

/-- What holds in every state of a run holds in its last one. -/
theorem everyState_last {events : List ε} {start last : σ}
    (hevery : EveryState step P start events) (hrun : runSteps step start events = some last) :
    P last := by
  induction events generalizing start with
  | nil =>
      cases hrun
      exact hevery
  | cons event events ih =>
      rw [runSteps] at hrun
      cases hnext : step start event with
      | none => rw [hnext] at hrun; cases hrun
      | some next =>
          rw [hnext] at hrun
          exact ih (hevery.2 next hnext) hrun

/-- An invariant of guarded steps holds along every guarded run. -/
theorem everyState_of_everyStep
    (hstep : ∀ state event next, Inv state → G state event →
      step state event = some next → Inv next) :
    ∀ (events : List ε) (start : σ), Inv start → EveryStep step G start events →
      EveryState step Inv start events := by
  intro events
  induction events with
  | nil => intro start hstart _; exact hstart
  | cons event events ih =>
      intro start hstart hguard
      refine ⟨hstart, fun next hnext => ?_⟩
      obtain ⟨hgood, hrest⟩ := hguard next hnext
      exact ih next (hstep start event next hstart hgood hnext) hrest

theorem EveryState.mono (hweaken : ∀ state, Inv state → P state) :
    ∀ (events : List ε) (start : σ), EveryState step Inv start events →
      EveryState step P start events := by
  intro events
  induction events with
  | nil => intro start hevery; exact hweaken start hevery
  | cons event events ih =>
      intro start hevery
      exact ⟨hweaken start hevery.1, fun next hnext => ih next (hevery.2 next hnext)⟩

/-- A run whose bad steps break `P` at once satisfies `P` throughout exactly when
it takes no bad step. `Inv` is what the good steps maintain. -/
theorem everyState_iff_everyStep
    (hproperty : ∀ state, Inv state → P state)
    (hgood : ∀ state event next, Inv state → G state event →
      step state event = some next → Inv next)
    (hbad : ∀ state event next, Inv state → ¬ G state event →
      step state event = some next → ¬ P next) :
    ∀ (events : List ε) (start : σ), Inv start →
      (EveryState step P start events ↔ EveryStep step G start events) := by
  intro events start hstart
  constructor
  · induction events generalizing start with
    | nil => intro _; trivial
    | cons event events ih =>
        intro hevery next hnext
        have hnextP := everyState_start (hevery.2 next hnext)
        have hguard : G start event := by
          by_contra hnot
          exact hbad start event next hstart hnot hnext hnextP
        exact ⟨hguard, ih next (hgood start event next hstart hguard hnext)
          (hevery.2 next hnext)⟩
  · intro hguard
    exact EveryState.mono hproperty events start
      (everyState_of_everyStep hgood events start hstart hguard)

/-- An invariant of the steps from states with `P` holds at the end of a run through such states. -/
theorem runSteps_invariant_of_everyState
    (hstep : ∀ state event next, Inv state → P state → step state event = some next → Inv next) :
    ∀ (events : List ε) {start last : σ}, Inv start → EveryState step P start events →
      runSteps step start events = some last → Inv last := by
  intro events
  induction events with
  | nil =>
      intro start last hstart _ hrun
      cases hrun
      exact hstart
  | cons event events ih =>
      intro start last hstart hevery hrun
      rw [runSteps] at hrun
      cases hnext : step start event with
      | none => rw [hnext] at hrun; cases hrun
      | some next =>
          rw [hnext] at hrun
          exact ih (hstep start event next hstart hevery.1 hnext) (hevery.2 next hnext) hrun

/-- An unconditional invariant holds in the last state of a run. -/
theorem runSteps_invariant
    (hstep : ∀ state event next, Inv state → step state event = some next → Inv next) :
    ∀ (events : List ε) {start last : σ}, Inv start →
      runSteps step start events = some last → Inv last := by
  intro events
  induction events with
  | nil =>
      intro start last hstart hrun
      cases hrun
      exact hstart
  | cons event events ih =>
      intro start last hstart hrun
      rw [runSteps] at hrun
      cases hnext : step start event with
      | none => rw [hnext] at hrun; cases hrun
      | some next =>
          rw [hnext] at hrun
          exact ih (hstep start event next hstart hnext) hrun

/-- Two properties that agree wherever an invariant of the run's events holds, hold
along the same runs. -/
theorem everyState_congr {Q : σ → Prop} {ok : ε → Prop}
    (hstep : ∀ state event next, Inv state → ok event → step state event = some next → Inv next)
    (hagree : ∀ state, Inv state → (P state ↔ Q state)) :
    ∀ (events : List ε) (start : σ), (∀ event ∈ events, ok event) → Inv start →
      (EveryState step P start events ↔ EveryState step Q start events) := by
  intro events
  induction events with
  | nil => exact fun start _ hstart => hagree start hstart
  | cons event events ih =>
      intro start hok hstart
      rw [List.forall_mem_cons] at hok
      have hrest (next : σ) (hnext : step start event = some next) :=
        ih next hok.2 (hstep start event next hstart hok.1 hnext)
      exact and_congr (hagree start hstart)
        (forall_congr' fun next => forall_congr' fun hnext => hrest next hnext)

/-- The reference runs a guarded list of events: each event is acceptable in the
reference state it meets. -/
def Accepts (follow : τ → ε → τ) (ok : τ → ε → Prop) : τ → List ε → Prop
  | _, [] => True
  | model, event :: events => ok model event ∧ Accepts follow ok (follow model event) events

instance decidableAccepts {follow : τ → ε → τ} {ok : τ → ε → Prop}
    [∀ model event, Decidable (ok model event)] :
    ∀ (model : τ) (events : List ε), Decidable (Accepts follow ok model events)
  | _, [] => .isTrue trivial
  | model, event :: events =>
      @instDecidableAnd (ok model event) (Accepts follow ok (follow model event) events) _
        (decidableAccepts (follow model event) events)

/-- Forward simulation: a relation kept by every acceptable step relates the ends
of the two runs. -/
theorem runSteps_simulates {follow : τ → ε → τ} {ok : τ → ε → Prop} {rel : σ → τ → Prop}
    (hstep : ∀ state model event next, rel state model → ok model event →
      step state event = some next → rel next (follow model event)) :
    ∀ (events : List ε) {start last : σ} {model : τ}, rel start model →
      Accepts follow ok model events → runSteps step start events = some last →
      rel last (events.foldl follow model) := by
  intro events
  induction events with
  | nil =>
      intro start last model hrel _ hrun
      cases hrun
      exact hrel
  | cons event events ih =>
      intro start last model hrel haccept hrun
      rw [runSteps] at hrun
      cases hnext : step start event with
      | none => rw [hnext] at hrun; cases hrun
      | some next =>
          rw [hnext] at hrun
          exact ih (hstep start model event next hrel haccept.1 hnext) haccept.2 hrun

end Runs

end SrmotionProxy.Lib
