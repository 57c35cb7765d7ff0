import Marginalia.Vocabulary

/-!
# Notes

A note is what a tagged comment says.  `Vocabulary.notesIn` finds the notes of a text: it goes
through the lines and takes from each the first tag, in the order of the vocabulary, whose
pattern matches.  A custom pattern can leave the frame in such a way that a match has no text or
no tag; then there is no note to be made and the whole text fails.

`Entry` collects the notes of one file.
-/

namespace Marginalia

/-- A tagged comment. -/
structure Note where
  path : Text
  tag : Text
  /-- The line, counted from one. -/
  line : Nat
  /-- How many code points stand before the tag in its line. -/
  column : Nat
  text : Text := []
  done : Bool := false
deriving DecidableEq, Inhabited

/-- The notes of a file. -/
structure Entry where
  path : Text
  notes : List Note := []
  /-- Whether the notes are shown. -/
  expanded : Bool := false
deriving DecidableEq, Inhabited

/-- Whether a file has notes. -/
def Entry.hasNotes (entry : Entry) : Bool := !entry.notes.isEmpty

namespace Note

/-- Why a match makes no note. -/
inductive Fault where
  /-- The match has no text. -/
  | noText
  /-- The match has no tag. -/
  | noTag
deriving DecidableEq

end Note

namespace Vocabulary

/-- The part of a text between two positions. -/
def slice (text : Text) (span : Nat × Nat) : Text := (text.drop span.1).take (span.2 - span.1)

/-- The note that a match makes. -/
def noteOf (path : Text) (lineNumber : Nat) (line : Text) (tag : Text) (pattern : Pattern)
    (found : Match) : Except Note.Fault Note :=
  match pattern.named? found Tag.textGroup, pattern.named? found Tag.tagGroup with
  | none, _ => .error .noText
  | some _, none => .error .noTag
  | some text, some span => .ok
    { path, tag, line := lineNumber, column := span.1, text := (slice line text).strip
      done := (pattern.named? found Tag.doneGroup).isSome }

/-- The first of some tags that matches a line, with its match. -/
def firstMatch (v : Vocabulary) (subject : Subject) : List Tag → Option (Tag × Pattern × Match)
  | [] => none
  | tag :: rest =>
    match v.pattern? tag.name with
    | none => firstMatch v subject rest
    | some pattern =>
      match pattern.search subject with
      | some found => some (tag, pattern, found)
      | none => firstMatch v subject rest

/-- The notes of lines, counted from the given number. -/
def notesInLines (v : Vocabulary) (path : Text) : Nat → List Text → Except Note.Fault (List Note)
  | _, [] => .ok []
  | number, line :: rest =>
    match v.firstMatch (Subject.ofText line) v.tags with
    | none => notesInLines v path (number + 1) rest
    | some (tag, pattern, found) => do
      let note ← noteOf path number line tag.name pattern found
      let notes ← notesInLines v path (number + 1) rest
      return note :: notes

/-- The notes of a text. -/
def notesIn (v : Vocabulary) (path text : Text) : Except Note.Fault (List Note) :=
  v.notesInLines path 1 text.lines

end Vocabulary

end Marginalia
