import Marginalia.Pattern.Matcher

/-!
# Tags

A tag is a word such as `TODO` that marks a note in a comment.  What a note looks like is the same
for all tags: `Tag.frame` puts the frame around the tag's word or custom pattern.  The frame
asks for a comment leader, takes an optional at sign and an optional done mark, then the tag, which
must not run on into a word, then an optional colon, and leaves what follows, without a trailing
done mark and without a closing comment sign, as the text of the note.

A custom pattern is put into the frame as it stands, so it can use the groups of the frame, and
can even close the group it stands in.
-/

namespace Marginalia

/-- A tag that marks notes. -/
structure Tag where
  name : Text
  /-- A custom pattern to be used in place of the name; an empty one counts as none. -/
  pattern? : Option Text := none
  /-- The color in which the tag is shown; an empty one counts as none. -/
  color? : Option Text := none
deriving DecidableEq, Inhabited

namespace Tag

/-- The code points that mean something in a pattern, and white space, which means nothing under
the verbose flag. -/
def special : Text := "()[]\x7b\x7d?*+-|^$\\.&~# \t\n\r\x0b\x0c"

/-- A pattern that matches a text literally. -/
def escape (text : Text) : Text :=
  text.flatMap fun p => if special.contains p then [.char '\\', p] else [p]

/-- What can lead a comment. -/
def leader : Text := "(?:/\\*+|/\x7b2,\x7d|#+|<!--|-\x7b2,\x7d|;+|%+|\\*)"

/-- The frame up to the tag. -/
def frameStart : Text := leader ++ ("[ \\t]*@?(?P<done>\\~\\~)?(?P<tag>" : Text)

/-- The frame after the tag. -/
def frameStop : Text :=
  ")(?!\\w)[ \\t]*:?[ \\t]*(?P<text>.*?)[ \\t]*(?:\\~\\~)?[ \\t]*(?:\\*+/|-->)?[ \\t]*$"

/-- The pattern of a tag: the frame around its body. -/
def frame (body : Text) : Text := frameStart ++ body ++ frameStop

/-- The body of a tag's pattern: its custom pattern, or else its name without white space at the
ends, literally. -/
def body (tag : Tag) : Text :=
  match tag.pattern? with
  | some pattern => if pattern.isEmpty then escape tag.name.strip else pattern
  | none => escape tag.name.strip

/-- The groups of the frame. -/
def doneGroup : Text := "done"

@[inherit_doc doneGroup] def tagGroup : Text := "tag"

@[inherit_doc doneGroup] def textGroup : Text := "text"

end Tag

end Marginalia
