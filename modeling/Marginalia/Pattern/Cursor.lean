import Marginalia.Pattern.Reader

/-!
# Cursors

A matcher moves a cursor over a subject.  The cursor knows where it is and, for each group, where
the group was last entered and where it was last left; a group that was entered again and not left
again has taken nothing.
-/

namespace Marginalia

/-- A position in the subject, with the ends of what the groups took. -/
structure Cursor where
  position : Nat
  /-- Where a group was last entered. -/
  starts : Nat → Option Nat
  /-- Where a group was last left. -/
  stops : Nat → Option Nat

instance : Inhabited Cursor := ⟨⟨0, fun _ => none, fun _ => none⟩⟩

namespace Cursor

/-- A cursor before any group. -/
def ofPosition (position : Nat) : Cursor := ⟨position, fun _ => none, fun _ => none⟩

/-- The cursor at another position. -/
def moveTo (cursor : Cursor) (position : Nat) : Cursor := { cursor with position }

/-- Enters a group. -/
def enter (cursor : Cursor) (group : Nat) : Cursor :=
  { cursor with starts := fun g => if g = group then some cursor.position else cursor.starts g }

/-- Leaves a group. -/
def leave (cursor : Cursor) (group : Nat) : Cursor :=
  { cursor with stops := fun g => if g = group then some cursor.position else cursor.stops g }

/-- What a group took, if it took part.  A group that was entered again and not left again has
taken nothing. -/
def group? (cursor : Cursor) (group : Nat) : Option (Nat × Nat) :=
  match cursor.starts group, cursor.stops group with
  | some start, some stop => if start ≤ stop then some (start, stop) else none
  | _, _ => none

end Cursor

/-- The code points that a pattern is matched against. -/
abbrev Subject := Array Nat

namespace Subject

/-- The subject of a text. -/
def ofText (text : Text) : Subject := text.codes.toArray

/-- Whether there is a word code point at an index. -/
def isWordAt (subject : Subject) (asciiOnly : Bool) (index : Nat) : Bool :=
  match subject[index]? with
  | some code => Category.word.holds asciiOnly code
  | none => false

/-- Whether an anchor holds at a position. -/
def holds (subject : Subject) (position : Nat) : Anchor → Bool
  | .start => position == 0
  | .finish => position == subject.size
  | .beforeFinish =>
    position == subject.size || (position + 1 == subject.size && subject[position]? == some 10)
  | .lineStart => position == 0 || subject[position - 1]? == some 10
  | .lineEnd => position == subject.size || subject[position]? == some 10
  | .wordEdge asciiOnly negated =>
    let before := 0 < position && subject.isWordAt asciiOnly (position - 1)
    (before != subject.isWordAt asciiOnly position) != negated

/-- Whether `length` code points from one position on equal those from another. -/
def sameFrom (subject : Subject) (rule : CaseRule) : (length first second : Nat) → Bool
  | 0, _, _ => true
  | length + 1, first, second =>
    match subject[first]?, subject[second]? with
    | some a, some b =>
      rule.lower a == rule.lower b && sameFrom subject rule length (first + 1) (second + 1)
    | _, _ => false

/-- The cursor after what a group took, if that follows once more. -/
def repeated? (subject : Subject) (rule : CaseRule) (cursor : Cursor) (group : Nat) :
    Option Cursor :=
  (cursor.group? group).bind fun (start, stop) =>
    if subject.sameFrom rule (stop - start) start cursor.position then
      some (cursor.moveTo (cursor.position + (stop - start)))
    else none

end Subject

end Marginalia
