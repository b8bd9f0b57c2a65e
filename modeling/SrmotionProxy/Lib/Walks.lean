/-
# Walks through directories

A path walks through a tree of directories: it stays, goes up or enters a directory by
name. A place is the list of names from it up to the root, whose parent is the root
itself. This module says when a walk ends below a given directory.
-/

import Mathlib.Data.List.Induction

namespace SrmotionProxy.Lib

/-- What one part of a path does. -/
inductive Step (α : Type) where
  | stay
  | up
  | enter (name : α)
  deriving DecidableEq

namespace Step

variable {α : Type}

/-- The place that one step leads to. -/
def apply (place : List α) : Step α → List α
  | .stay => place
  | .up => place.tail
  | .enter name => name :: place

/-- The place that a walk leads to. -/
def walk (place : List α) (steps : List (Step α)) : List α := steps.foldl apply place

/-- How far below its start a walk ends, if it never leaves it upwards. -/
def level : Nat → List (Step α) → Option Nat
  | depth, [] => some depth
  | depth, .stay :: steps => level depth steps
  | 0, .up :: _ => none
  | depth + 1, .up :: steps => level depth steps
  | depth, .enter _ :: steps => level (depth + 1) steps

theorem walk_concat (place : List α) (steps : List (Step α)) (step : Step α) :
    walk place (steps ++ [step]) = apply (walk place steps) step := by
  rw [walk, List.foldl_append]
  rfl

theorem walk_append (place : List α) (front back : List (Step α)) :
    walk place (front ++ back) = walk (walk place front) back :=
  List.foldl_append

theorem level_append {depth middle : Nat} {front : List (Step α)}
    (hfront : level depth front = some middle) (back : List (Step α)) :
    level depth (front ++ back) = level middle back := by
  induction front generalizing depth with
  | nil =>
      cases hfront
      rfl
  | cons step front ih =>
      cases step with
      | stay => exact ih hfront
      | enter name => exact ih hfront
      | up =>
          cases depth with
          | zero => cases hfront
          | succ depth => exact ih hfront

/-- A walk that never leaves the directory it starts in ends as far below it as it says. -/
theorem walk_of_level {below place : List α} {steps : List (Step α)} {depth : Nat}
    (hlevel : level below.length steps = some depth) :
    ∃ rest, rest.length = depth ∧ walk (below ++ place) steps = rest ++ place := by
  induction steps generalizing below with
  | nil => exact ⟨below, Option.some.inj hlevel, rfl⟩
  | cons step steps ih =>
      cases step with
      | stay => exact ih hlevel
      | enter name => exact @ih (name :: below) hlevel
      | up =>
          cases below with
          | nil => cases hlevel
          | cons name below => exact ih hlevel

/-- A walk that ends in a directory or below it entered it last from its parent, and has
not left it since. -/
theorem exists_enter {start place rest : List α} {name : α} {steps : List (Step α)}
    (hwalk : walk start steps = rest ++ name :: place)
    (hstart : ¬ name :: place <:+ start) :
    ∃ front back, steps = front ++ .enter name :: back ∧ walk start front = place ∧
      level 0 back = some rest.length := by
  induction steps using List.reverseRecOn generalizing rest with
  | nil => exact absurd ⟨rest, hwalk.symm⟩ hstart
  | append_singleton steps step ih =>
      rw [walk_concat] at hwalk
      cases step with
      | stay =>
          obtain ⟨front, back, rfl, hfront, hback⟩ := ih hwalk
          refine ⟨front, back ++ [.stay], by simp, hfront, ?_⟩
          rw [level_append hback, level, level]
      | up =>
          cases hplace : walk start steps with
          | nil =>
              rw [hplace] at hwalk
              cases rest <;> cases hwalk
          | cons other below =>
              rw [hplace] at hwalk
              obtain rfl : below = rest ++ name :: place := hwalk
              obtain ⟨front, back, rfl, hfront, hback⟩ := @ih (other :: rest) hplace
              refine ⟨front, back ++ [.up], by simp, hfront, ?_⟩
              rw [level_append hback, List.length_cons, level, level]
      | enter other =>
          cases rest with
          | nil =>
              obtain ⟨rfl, hplace⟩ := List.cons.inj hwalk
              exact ⟨steps, [], rfl, hplace, rfl⟩
          | cons first rest =>
              obtain ⟨rfl, hplace⟩ := List.cons.inj hwalk
              obtain ⟨front, back, rfl, hfront, hback⟩ := ih hplace
              refine ⟨front, back ++ [.enter other], by simp, hfront, ?_⟩
              rw [level_append hback, level, level, List.length_cons]

/-- A walk from outside a directory ends strictly below it exactly if its parts are a walk
to the parent, the name, and a walk that stays below and ends below. -/
theorem walk_below_iff {start place : List α} {name : α} (steps : List (Step α))
    (hstart : ¬ name :: place <:+ start) :
    (∃ rest, rest ≠ [] ∧ walk start steps = rest ++ name :: place) ↔
      ∃ front back depth, steps = front ++ .enter name :: back ∧ walk start front = place ∧
        level 0 back = some (depth + 1) := by
  constructor
  · rintro ⟨rest, hrest, hwalk⟩
    obtain ⟨front, back, hsteps, hfront, hback⟩ := exists_enter hwalk hstart
    obtain ⟨first, later, rfl⟩ := List.exists_cons_of_ne_nil hrest
    exact ⟨front, back, later.length, hsteps, hfront, hback⟩
  · rintro ⟨front, back, depth, rfl, rfl, hback⟩
    obtain ⟨rest, hlength, hwalk⟩ := @walk_of_level _ [] (name :: walk start front) _ _ hback
    refine ⟨rest, ?_, ?_⟩
    · rintro rfl
      cases hlength
    · rw [walk_append]
      exact hwalk

end Step

end SrmotionProxy.Lib
