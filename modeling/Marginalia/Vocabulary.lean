import Marginalia.Tag

/-!
# Vocabularies

A vocabulary is the list of tags that a project looks for, each with its pattern ready to search.
`Vocabulary.ofTags` builds one: a list with a blank name or a pattern that cannot be read is
refused as a whole, and the vocabulary is empty then, so nothing is found until the list is
mended.  Two faults are not met that way but raised: a repeat count that cannot be counted and
groups that are nested too deep.

Patterns are kept by name, so where a name is listed twice, the pattern of the later tag is used
for both.
-/

namespace Marginalia

/-- The tags that are looked for, with their patterns. -/
structure Vocabulary where
  caseSensitive : Bool
  tags : List Tag := []
  /-- The patterns by tag name, the latest first. -/
  patterns : List (Text × Pattern) := []
deriving Inhabited

namespace Vocabulary

/-- Why a list of tags cannot be used. -/
inductive Flaw where
  /-- A tag's name is blank. -/
  | blankName
  /-- A tag's pattern cannot be read. -/
  | pattern (fault : Pattern.Fault)
deriving DecidableEq

/-- Whether a fault of a pattern is raised and not just reported. -/
def isRaised : Pattern.Fault → Bool
  | .countTooLarge | .tooDeep => true
  | _ => false

/-- The flags under which the patterns are read. -/
def flags (caseSensitive : Bool) : Pattern.Flags := { ignoreCase := !caseSensitive }

/-- Reads the pattern of a tag. -/
def patternOf (caseSensitive : Bool) (tag : Tag) : Except Flaw Pattern :=
  if tag.name.strip.isEmpty then .error .blankName
  else (Pattern.read (flags caseSensitive) (Tag.frame tag.body)).mapError .pattern

/-- Reads the patterns of tags in order, in front of those read before. -/
def readPatterns (caseSensitive : Bool) :
    (read : List (Text × Pattern)) → List Tag → Except Flaw (List (Text × Pattern))
  | read, [] => .ok read
  | read, tag :: rest =>
    match patternOf caseSensitive tag with
    | .ok pattern => readPatterns caseSensitive ((tag.name, pattern) :: read) rest
    | .error flaw => .error flaw

/-- Builds a vocabulary; a list of tags that cannot be used gives an empty one, with the reason. -/
def ofTags (caseSensitive : Bool) (tags : List Tag) :
    Except Pattern.Fault (Vocabulary × Option Flaw) :=
  match readPatterns caseSensitive [] tags with
  | .ok patterns => .ok ({ caseSensitive, tags, patterns }, none)
  | .error flaw =>
    match flaw with
    | .pattern fault =>
      if isRaised fault then .error fault else .ok ({ caseSensitive }, some flaw)
    | .blankName => .ok ({ caseSensitive }, some flaw)

/-- Whether there is no tag to look for. -/
def isEmpty (v : Vocabulary) : Bool := v.tags.isEmpty

/-- The names of the tags, in order. -/
def names (v : Vocabulary) : List Text := v.tags.map (·.name)

/-- The number of tags. -/
def size (v : Vocabulary) : Nat := v.tags.length

/-- The pattern kept for a name. -/
def pattern? (v : Vocabulary) (name : Text) : Option Pattern := v.patterns.lookup name

end Vocabulary

end Marginalia
