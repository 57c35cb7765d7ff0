import Marginalia.Markup
import Marginalia.Path
import Marginalia.View

/-!
# Outlines

What is handed to the console when notes are listed: an outline with a branch for each file and a
leaf for each note, and a summary with the count of each tag.  Labels are markup; names, paths and
texts of notes are escaped in it, and tags are shown in their colors.
-/

namespace Marginalia

/-- A file in an outline, with the notes under it. -/
structure Branch where
  label : Text
  leaves : List Text := []
deriving DecidableEq, Inhabited

/-- The files of a project. -/
structure Outline where
  label : Text
  branches : List Branch := []
deriving DecidableEq, Inhabited

namespace Outline

/-- The colors of tags by name. -/
abbrev Colors := List (Text × Option Text)

/-- The colors of the tags of a vocabulary; where a name is listed twice, the last color counts. -/
def colorsOf (v : Vocabulary) : Colors := (v.tags.map fun tag => (tag.name, tag.color?)).reverse

/-- The style of a tag: its color, or bold if it has none. -/
def style (colors : Colors) (tag : Text) : Text :=
  match colors.lookup tag with
  | some (some (p :: color)) => p :: color
  | _ => "bold"

/-- How a path is shown: as the way from the root of the project.  Only absolute paths come here, as
the index holds no others; a relative one would be taken from the root. -/
def shownPath (root : Path) (path : Text) : Text :=
  if path.isEmpty then path else (root.relativeTo (Path.ofText path)).toText

/-- The label of a note. -/
def leaf (colors : Colors) (note : Note) : Text :=
  let place := Text.ofNat note.line ++ (":" : Text) ++ Text.ofNat note.column
  let text := Markup.escape note.text
  Markup.styled "dim" place ++ (" " : Text) ++
    Markup.styled (style colors note.tag) (Markup.escape note.tag) ++ (" " : Text) ++
    (if note.done then Markup.styled "strike" text else text)

/-- The branch of a file; its notes are there only if they are to be shown. -/
def branch (root : Path) (colors : Colors) (entry : Entry) : Branch :=
  let count := ("(" : Text) ++ Text.ofNat entry.notes.length ++ (")" : Text)
  { label := Markup.escape (shownPath root entry.path) ++ (" " : Text) ++ Markup.styled "dim" count
    leaves := if entry.expanded then entry.notes.map (leaf colors) else [] }

/-- The outline of the files of a project. -/
def ofEntries (root : Path) (colors : Colors) (entries : List Entry) : Outline :=
  { label := Markup.styled "bold" (Markup.escape root.toText)
    branches := entries.map (branch root colors) }

/-- The count of a tag; a hidden tag is struck. -/
def countLabel (colors : Colors) (hidden : List Text) (count : Text × Nat) : Text :=
  let tagStyle := if hidden.contains count.1 then ("dim strike" : Text) else style colors count.1
  Markup.styled tagStyle (Markup.escape count.1) ++ (" " : Text) ++ Text.ofNat count.2

/-- The counts of all tags in a row; without tags there is none. -/
def summary? (colors : Colors) (hidden : List Text) (counts : List (Text × Nat)) : Option Text :=
  if counts.isEmpty then none
  else some (Text.join "  " (counts.map (countLabel colors hidden)))

end Outline

end Marginalia
