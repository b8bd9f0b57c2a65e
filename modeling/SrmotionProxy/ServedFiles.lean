/-
# The files that are served

The handler serves a file if the name of one of four directories stands between slashes
anywhere in the path, and opens the path without its first byte. This module resolves
that name against a working directory and says when the file is inside of one of the four
directories there.
-/

import SrmotionProxy.Http
import SrmotionProxy.Lib.Walks

namespace SrmotionProxy.Http

open SrmotionProxy.Lib SrmotionProxy.Events

/-! ## Names of files -/

/-- What a part of a name between separators does. -/
def part (text : Bytes) : Step Bytes :=
  if text = [] ∨ text = ascii "." then .stay
  else if text = ascii ".." then .up
  else .enter text

/-- The walk a name describes. The separators are `/` and, on Windows, the backslash. -/
def parts (separator : UInt8 → Bool) (name : Bytes) : List (Step Bytes) :=
  (name.splitOnP separator).map part

/-- Where the walk starts: at the root if a separator leads the name. -/
def startOf (separator : UInt8 → Bool) (working : List Bytes) (name : Bytes) : List Bytes :=
  if name.head?.any separator then [] else working

/-- The place a name stands for in a working directory, innermost name first. -/
def resolve (separator : UInt8 → Bool) (working : List Bytes) (name : Bytes) : List Bytes :=
  Step.walk (startOf separator working name) (parts separator name)

/-- The directories that hold the cached files. -/
def directories : List Bytes := [ascii "game", ascii "social", ascii "interface", ascii "audio"]

/-- The name stands for something strictly inside one of the four directories. -/
def InsideDirectories (separator : UInt8 → Bool) (working : List Bytes) (name : Bytes) : Prop :=
  ∃ directory ∈ directories, ∃ rest, rest ≠ [] ∧
    resolve separator working name = rest ++ directory :: working

/-- The name leads to the working directory, enters one of the four directories, and from
there never goes up further than it came down. -/
def DescendsInto (separator : UInt8 → Bool) (working : List Bytes) (name : Bytes) : Prop :=
  ∃ directory ∈ directories, ∃ front back depth,
    parts separator name = front ++ .enter directory :: back ∧
      Step.walk (startOf separator working name) front = working ∧
      Step.level 0 back = some (depth + 1)

theorem insideDirectories_iff (separator : UInt8 → Bool) (working : List Bytes) (name : Bytes) :
    InsideDirectories separator working name ↔ DescendsInto separator working name := by
  have hstart (directory : Bytes) :
      ¬ directory :: working <:+ startOf separator working name := by
    intro hsuffix
    have hlength := hsuffix.length_le
    unfold startOf at hlength
    rw [List.length_cons] at hlength
    split at hlength
    · rw [List.length_nil] at hlength
      omega
    · omega
  unfold InsideDirectories DescendsInto resolve
  simp only [Step.walk_below_iff _ (hstart _)]

/-! ## Requests -/

/-- The file name that a request makes the handler pass to `read_file`. -/
def Opens (env : Env) (method path name : Bytes) : Prop :=
  ∃ reply, handler env method path = .ok reply ∧ reply.opened = some name

theorem sbWritef_unknown : sbWritef (ascii "unknown") = .ok (ascii "unknown") := by decide

theorem sbWritef_notFound : sbWritef (ascii "file not found") = .ok (ascii "file not found") := by
  decide

theorem fileReply_opened (env : Env) (path : Bytes) :
    ∃ reply, fileReply env path = .ok reply ∧ reply.opened = some (path.drop 1) := by
  unfold fileReply
  cases hfile : env.readFile (path.drop 1) with
  | some content =>
      simp only [hfile]
      exact ⟨_, rfl, rfl⟩
  | none =>
      simp only [hfile, sbWritef_notFound]
      exact ⟨_, rfl, rfl⟩

/-- The handler opens a file exactly for the paths it takes for those of cached files. -/
theorem opens_iff (env : Env) (method path name : Bytes) :
    Opens env method path name ↔
      contains path (ascii "/growtopia/server_data.php") = false ∧ asksFile method path = true ∧
        name = path.drop 1 := by
  unfold Opens handler
  by_cases hdata : contains path (ascii "/growtopia/server_data.php") = true
  · rw [if_pos hdata, hdata]
    refine iff_of_false ?_ fun hfile => Bool.noConfusion hfile.1
    rintro ⟨reply, hreply, hopened⟩
    obtain ⟨body, -, hend⟩ := except_bind_eq_ok hreply
    cases hend
    cases hopened
  rw [if_neg hdata]
  rw [Bool.not_eq_true] at hdata
  by_cases hfile : asksFile method path = true
  · rw [if_pos hfile]
    obtain ⟨reply, hreply, hopened⟩ := fileReply_opened env path
    constructor
    · rintro ⟨other, hother, hname⟩
      cases hreply.symm.trans hother
      exact ⟨hdata, hfile, Option.some.inj (hname.symm.trans hopened)⟩
    · rintro ⟨-, -, rfl⟩
      exact ⟨reply, hreply, hopened⟩
  · rw [if_neg hfile, sbWritef_unknown]
    refine iff_of_false ?_ fun hasks => hfile hasks.2.1
    rintro ⟨reply, hreply, hopened⟩
    cases hreply
    cases hopened

/-- What a request opens is strictly inside one of the four directories of the working
directory exactly if the request opens nothing, or its path behind the first byte leads to
the working directory, enters one of the four and descends from there. -/
theorem opened_inside_iff (separator : UInt8 → Bool) (working : List Bytes) (env : Env)
    (method path : Bytes) :
    (∀ name, Opens env method path name → InsideDirectories separator working name) ↔
      (contains path (ascii "/growtopia/server_data.php") = false → asksFile method path = true →
        DescendsInto separator working (path.drop 1)) := by
  rw [← insideDirectories_iff]
  constructor
  · intro hinside hdata hfile
    exact hinside _ ((opens_iff env method path _).mpr ⟨hdata, hfile, rfl⟩)
  · intro hinside name hopens
    obtain ⟨hdata, hfile, rfl⟩ := (opens_iff env method path name).mp hopens
    exact hinside hdata hfile

/-- Two steps up from `game` are outside of the working directory. -/
theorem opened_outside :
    ¬ ∀ name, Opens ⟨[], [], [], fun _ => none⟩ (ascii "GET") (ascii "/game/../../secret") name →
      InsideDirectories (fun byte => byte = 47) [ascii "proxy", ascii "srv"] name := by
  intro hinside
  have hopens : Opens ⟨[], [], [], fun _ => none⟩ (ascii "GET") (ascii "/game/../../secret")
      (ascii "game/../../secret") := (opens_iff _ _ _ _).mpr (by decide)
  obtain ⟨directory, -, rest, -, hresolve⟩ := hinside _ hopens
  have hplace : resolve (fun byte => byte = 47) [ascii "proxy", ascii "srv"]
      (ascii "game/../../secret") = [ascii "secret", ascii "srv"] := by decide
  rw [hplace] at hresolve
  have hlength := congrArg List.length hresolve
  simp only [List.length_append, List.length_cons, List.length_nil] at hlength
  omega

end SrmotionProxy.Http
