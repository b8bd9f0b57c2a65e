/-
# Failures that get out

A computation with exceptions can end in two ways, and each leaves a state behind. One
judgement speaks about both: the state after a result, the state after a failure, and
which failures do not happen. It has a rule for each way to combine computations; if no
failure is singled out, it says that a predicate is preserved.
-/

import SrmotionProxy.Lib.Confined

namespace SrmotionProxy.Lib

variable {ε σ α β : Type}

/-- From `state`, `m` ends with a result and `Q`, or with a failure that is not `bad` and
`E`. -/
def Ends (bad : ε → Bool) (E Q : σ → Prop) (m : EStateM ε σ α) (state : σ) : Prop :=
  match m.run state with
  | .ok _ after => Q after
  | .error failure after => bad failure = false ∧ E after

section Ends

variable {bad : ε → Bool} {E P Q : σ → Prop} {state : σ}

theorem ends_of_ok {m : EStateM ε σ α} {value : α} {after : σ}
    (hrun : m.run state = .ok value after) : Ends bad E Q m state ↔ Q after := by
  rw [Ends, hrun]

theorem ends_of_error {m : EStateM ε σ α} {failure : ε} {after : σ}
    (hrun : m.run state = .error failure after) :
    Ends bad E Q m state ↔ bad failure = false ∧ E after := by
  rw [Ends, hrun]

/-- Only what the run does matters. -/
theorem ends_congr {first second : EStateM ε σ α} {other : σ}
    (hsame : first.run state = second.run other) :
    Ends bad E Q first state ↔ Ends bad E Q second other := by
  rw [Ends, Ends, hsame]

theorem Ends.mono {m : EStateM ε σ α} {F : σ → Prop} (hends : Ends bad F P m state)
    (hfailed : ∀ after, F after → E after) (hdone : ∀ after, P after → Q after) :
    Ends bad E Q m state := by
  cases hrun : m.run state with
  | ok value after => exact (ends_of_ok hrun).mpr (hdone after ((ends_of_ok hrun).mp hends))
  | error failure after =>
      obtain ⟨hgood, hafter⟩ := (ends_of_error hrun).mp hends
      exact (ends_of_error hrun).mpr ⟨hgood, hfailed after hafter⟩

/-- A sequence: the first part may end the run, or hand over. -/
theorem Ends.bind {first : EStateM ε σ α} {next : α → EStateM ε σ β}
    (hfirst : Ends bad E P first state)
    (hnext : ∀ value after, P after → Ends bad E Q (next value) after) :
    Ends bad E Q (first >>= next) state := by
  cases hrun : first.run state with
  | ok value after =>
      have hsame : (first >>= next).run state = (next value).run after := run_bind_ok state hrun
      exact (ends_congr hsame).mpr (hnext value after ((ends_of_ok hrun).mp hfirst))
  | error failure after =>
      exact (ends_of_error (run_bind_error state hrun)).mpr ((ends_of_error hrun).mp hfirst)

/-- Without bad failures the run has a result. -/
theorem Ends.exists_ok {m : EStateM ε σ α} (hends : Ends (fun _ => true) E Q m state) :
    ∃ value after, m.run state = .ok value after ∧ Q after := by
  cases hrun : m.run state with
  | ok value after => exact ⟨value, after, rfl, (ends_of_ok hrun).mp hends⟩
  | error failure after =>
      obtain ⟨hgood, -⟩ := (ends_of_error hrun).mp hends
      cases hgood

end Ends

/-! ## Rules -/

namespace Confined

variable {R : σ → σ → Prop} {bad : ε → Bool} {E P Q I : σ → Prop}

/-- From a state with `P`, the computation ends with `Q`, or with `E` and a failure that is
not `bad`. -/
def Leads (bad : ε → Bool) (E P Q : σ → Prop) (m : Confined R ε α) : Prop :=
  ∀ state, P state → Ends bad E Q m.code state

namespace Leads

/-- If no failure is singled out, a predicate is preserved and nothing else is said. -/
theorem keeps_iff {m : Confined R ε α} : Leads (fun _ => false) I I I m ↔ Keeps I m.code := by
  refine forall_congr' fun state => forall_congr' fun _ => ?_
  cases hrun : m.code.run state with
  | ok value after => exact ends_of_ok hrun
  | error failure after => exact (ends_of_error hrun).trans (and_iff_right rfl)

theorem of_run {m : Confined R ε α}
    (hrun : ∀ state, P state → ∃ value after, m.code.run state = .ok value after ∧ Q after) :
    Leads bad E P Q m := by
  intro state hstate
  obtain ⟨value, after, hok, hafter⟩ := hrun state hstate
  exact (ends_of_ok hok).mpr hafter

/-- Where nothing fails, it does not matter what a failure would be. -/
theorem of_total {m : Confined R ε α} {F : σ → Prop} (htotal : Leads (fun _ => true) F P Q m) :
    Leads bad E P Q m :=
  of_run fun state hstate => (htotal state hstate).exists_ok

theorem pure (value : α) : Leads bad E P P (Pure.pure value : Confined R ε α) :=
  of_run fun state hstate => ⟨value, state, rfl, hstate⟩

theorem read : Leads bad E P P (Confined.read : Confined R ε σ) :=
  of_run fun state hstate => ⟨state, state, rfl, hstate⟩

theorem move {update : σ → σ} {hmove : ∀ state, R state (update state)}
    (hupdate : ∀ state, P state → Q (update state)) :
    Leads bad E P Q (Confined.move update hmove : Confined R ε Unit) :=
  of_run fun state hstate => ⟨(), update state, rfl, hupdate state hstate⟩

theorem bind {first : Confined R ε α} {next : α → Confined R ε β} (hfirst : Leads bad E P I first)
    (hnext : ∀ value, Leads bad E I Q (next value)) : Leads bad E P Q (first >>= next) :=
  fun state hstate => (hfirst state hstate).bind fun value after hafter => hnext value after hafter

theorem ite {condition : Prop} [Decidable condition] {first second : Confined R ε α}
    (hfirst : condition → Leads bad E P Q first) (hsecond : ¬ condition → Leads bad E P Q second) :
    Leads bad E P Q (if condition then first else second) := by
  by_cases hcondition : condition
  · rw [if_pos hcondition]
    exact hfirst hcondition
  · rw [if_neg hcondition]
    exact hsecond hcondition

theorem mono {m : Confined R ε α} {F : σ → Prop} (hleads : Leads bad F P I m)
    (hfailed : ∀ after, F after → E after) (hdone : ∀ after, I after → Q after) :
    Leads bad E P Q m :=
  fun state hstate => (hleads state hstate).mono hfailed hdone

theorem ofExcept_bind {value : Except ε α} {next : α → Confined R ε β}
    (hgood : ∀ failure, value = .error failure → bad failure = false)
    (hfailed : ∀ state, P state → E state)
    (hnext : ∀ result, value = .ok result → Leads bad E P Q (next result)) :
    Leads bad E P Q (ofExcept value >>= next) := by
  cases value with
  | ok result => exact hnext result rfl
  | error failure =>
      intro state hstate
      have hrun : (ofExcept (.error failure) >>= next : Confined R ε β).code.run state =
          .error failure state := rfl
      exact (ends_of_error hrun).mpr ⟨hgood failure rfl, hfailed state hstate⟩

theorem ok_bind {result : α} {next : α → Confined R ε β}
    (hnext : Leads bad E P Q (next result)) :
    Leads bad E P Q (ofExcept (.ok result) >>= next) := hnext

/-- What the `catch` stops may happen in the body, and hands over to the handler. -/
theorem tryCatchIf {caught : ε → Bool} {body : Confined R ε α} {handler : ε → Confined R ε α}
    (hbody : Leads (fun failure => bad failure && !caught failure) I P Q body)
    (hhandler : ∀ failure, Leads bad E I Q (handler failure))
    (hfailed : ∀ state, I state → E state) :
    Leads bad E P Q (Confined.tryCatchIf caught body handler) := by
  intro state hstate
  have hends := hbody state hstate
  have hrun : (Confined.tryCatchIf caught body handler).code.run state = _ :=
    run_tryCatchIf state caught body.code fun failure => (handler failure).code
  cases hresult : body.code.run state with
  | ok value after =>
      rw [hresult] at hrun
      exact (ends_of_ok hrun).mpr ((ends_of_ok hresult).mp hends)
  | error failure after =>
      rw [hresult] at hrun
      obtain ⟨hgood, hafter⟩ := (ends_of_error hresult).mp hends
      by_cases hcaught : caught failure = true
      · simp only [if_pos hcaught] at hrun
        exact (ends_congr hrun).mpr (hhandler failure after hafter)
      · simp only [if_neg hcaught] at hrun
        rw [Bool.eq_false_iff.mpr hcaught, Bool.not_false, Bool.and_true] at hgood
        exact (ends_of_error hrun).mpr ⟨hgood, hfailed after hafter⟩

end Leads

end Confined

end SrmotionProxy.Lib
