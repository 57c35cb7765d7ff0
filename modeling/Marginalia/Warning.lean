import Marginalia.Settings
import Marginalia.Document

/-!
# Warnings

What the program warns of while it goes on.
-/

namespace Marginalia

/-- Something that went wrong and did not stop the program. -/
inductive Warning where
  /-- A settings document is not taken. -/
  | malformedSettings (problem : Settings.Problem)
  /-- A settings file is there but cannot be read. -/
  | unreadableSettings (fault : Disk.Fault)
  /-- The tags of the settings cannot be used. -/
  | unusableTags (flaw : Vocabulary.Flaw)
  /-- A document cannot be read. -/
  | skipped (path : Text) (fault : Document.Fault)
  /-- A batch of changes was given up half-way. -/
  | abandonedBatch
deriving DecidableEq

/-- The vocabulary of some settings, with a warning if their tags cannot be used. -/
def Settings.vocabularyWithWarnings (settings : Settings) :
    Except Pattern.Fault (Vocabulary × List Warning) :=
  settings.vocabulary.map fun (vocabulary, flaw?) =>
    (vocabulary, (flaw?.map Warning.unusableTags).toList)

end Marginalia
