import Marginalia.Text

/-!
# Paths

A path is where it starts and the names it goes through.  It starts at the root, relative to
somewhere else, or at the root written with exactly two slashes, which is kept apart.  Reading a
path drops empty names and single dots; `Path.resolve` works out the double dots by the names
alone, without a look at any disk.

`Path.resolve_resolve_of_absolute` says that working them out twice is no different from once.
-/

namespace Marginalia

/-- Where a path starts. -/
inductive Origin where
  | relative
  | root
  /-- The root, written with two slashes. -/
  | doubleRoot
deriving DecidableEq, Inhabited

/-- A path: its start and its names. -/
structure Path where
  origin : Origin
  parts : List Text
deriving DecidableEq, Inhabited

namespace Path

/-- The name of the folder itself. -/
def dot : Text := [.char '.']

/-- The name of the folder above. -/
def dotDot : Text := [.char '.', .char '.']

/-- The origin that a text begins with: three slashes or more are no different from one. -/
def originOf : Text → Origin
  | .char '/' :: .char '/' :: .char '/' :: _ => .root
  | .char '/' :: .char '/' :: _ => .doubleRoot
  | .char '/' :: _ => .root
  | _ => .relative

/-- Reads a path. -/
def ofText (text : Text) : Path :=
  { origin := originOf text
    parts := (Text.splitOn (.char '/') text).filter fun part => !part.isEmpty && part != dot }

/-- How an origin is written. -/
def originText : Origin → Text
  | .relative => []
  | .root => [.char '/']
  | .doubleRoot => [.char '/', .char '/']

/-- Writes a path; the empty relative path is a dot. -/
def toText (path : Path) : Text :=
  if path.origin = .relative && path.parts.isEmpty then dot
  else originText path.origin ++ Text.join [.char '/'] path.parts

/-- Whether a path starts at a root. -/
def isAbsolute (path : Path) : Bool := path.origin != .relative

/-- A path from the end of another; an absolute path does not care where it is taken from. -/
def join (base path : Path) : Path :=
  if path.isAbsolute then path else { base with parts := base.parts ++ path.parts }

/-- Goes one name further, where `done` are the names so far, last first.  There is nothing above
a root. -/
def enter (absolute : Bool) (done : List Text) (part : Text) : List Text :=
  if part = dotDot then
    match done with
    | [] => if absolute then [] else [dotDot]
    | last :: rest => if last = dotDot then dotDot :: last :: rest else rest
  else part :: done

/-- Works out the double dots by the names alone. -/
def resolve (path : Path) : Path :=
  { path with parts := (path.parts.foldl (enter path.isAbsolute) []).reverse }

/-- The names that lead from a folder to a path within it. -/
def within? (folder path : Path) : Option (List Text) :=
  if folder.origin = path.origin && folder.parts.isPrefixOf path.parts then
    some (path.parts.drop folder.parts.length)
  else none

/-- How many names two lists begin with in common. -/
def commonLength : List Text → List Text → Nat
  | a :: as, b :: bs => if a = b then commonLength as bs + 1 else 0
  | _, _ => 0

/-- The way from a folder to a path. -/
def relativeTo (folder path : Path) : Path :=
  let start := folder.resolve.parts
  let goal := path.resolve.parts
  let common := commonLength start goal
  { origin := .relative
    parts := List.replicate (start.length - common) dotDot ++ goal.drop common }

/-- The last name, empty if there is none. -/
def name (path : Path) : Text := path.parts.getLastD []

/-- Resolving changes no origin. -/
theorem resolve_origin (path : Path) : path.resolve.origin = path.origin := rfl

/-- What is taken from an absolute path is absolute. -/
theorem isAbsolute_join {base : Path} (h : base.isAbsolute = true) (path : Path) :
    (base.join path).isAbsolute = true := by
  unfold join
  split
  · assumption
  · exact h

/-- Names that hold no double dot are gone through one by one. -/
theorem foldl_enter_of_forall_ne {parts : List Text} (absolute : Bool) (done : List Text)
    (h : ∀ part ∈ parts, part ≠ dotDot) :
    parts.foldl (enter absolute) done = parts.reverse ++ done := by
  induction parts generalizing done with
  | nil => rfl
  | cons part rest ih =>
    have hp : part ≠ dotDot := h part (by simp)
    have hr : ∀ q ∈ rest, q ≠ dotDot := fun q hq => h q (by simp [hq])
    rw [List.foldl_cons, ih _ hr]
    simp [enter, hp]

/-- Going further from a root leaves no double dot behind. -/
theorem foldl_enter_absolute_ne {parts done : List Text} (h : ∀ part ∈ done, part ≠ dotDot) :
    ∀ part ∈ parts.foldl (enter true) done, part ≠ dotDot := by
  induction parts generalizing done with
  | nil => exact h
  | cons part rest ih =>
    rw [List.foldl_cons]
    apply ih
    intro q hq
    unfold enter at hq
    split at hq
    · cases done with
      | nil => simp at hq
      | cons last others =>
        have : last ≠ dotDot := h last (by simp)
        simp only [this, if_false] at hq
        exact h q (List.mem_cons_of_mem _ hq)
    · rename_i hne
      rcases List.mem_cons.1 hq with rfl | hq
      · exact hne
      · exact h q hq

/-- An absolute path that was resolved stays as it is. -/
theorem resolve_resolve_of_absolute {path : Path} (h : path.isAbsolute = true) :
    path.resolve.resolve = path.resolve := by
  have hr : path.resolve.isAbsolute = true := h
  have hne : ∀ part ∈ path.resolve.parts, part ≠ dotDot := by
    intro part hpart
    have : part ∈ path.parts.foldl (enter true) [] := by
      simpa [resolve, h] using hpart
    exact foldl_enter_absolute_ne (by simp) part this
  have : (path.resolve.parts.foldl (enter path.resolve.isAbsolute) []).reverse =
      path.resolve.parts := by
    rw [foldl_enter_of_forall_ne _ _ hne]
    simp
  exact congrArg (Path.mk path.origin) this

end Path

end Marginalia
