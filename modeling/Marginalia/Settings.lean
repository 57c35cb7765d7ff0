import Marginalia.Note
import Marginalia.Json.Reader
import Marginalia.Json.Decoder

/-!
# Settings

What a project can configure: the tags that are looked for and whether their case counts, where
notes are looked for, and how they are shown.  A settings document is a JSON object; every
option has a default, so the empty object is a document.

`Settings.parse` reads a document.  One that is not JSON, or in which a value has the wrong shape,
does not stop the program: it gives the defaults without any tag (`Settings.inert`), so that
nothing is found until the document is mended.  Two faults of the JSON reader are raised
instead, an integer that is too long and values that are nested too deep.

Options with two words have two keys: the key of the document and, accepted as well, the name of
the option; the first counts where both are given.
-/

namespace Marginalia

/-- Where notes are looked for. -/
inductive Scope where
  /-- In all files of the project. -/
  | project
  /-- In the active document alone. -/
  | current
  /-- A scope that a program asked for by another name; it takes in what the project does.  No
  settings document can ask for it. -/
  | other (name : Text)
deriving DecidableEq, Inhabited

/-- The name of a scope. -/
def Scope.name : Scope → Text
  | project => "project"
  | current => "current"
  | other name => name

/-- The scope of a name. -/
def Scope.ofName (name : Text) : Scope :=
  if name = project.name then project
  else if name = current.name then current
  else other name

/-- A scope is told by its name. -/
theorem Scope.name_ofName (name : Text) : (ofName name).name = name := by
  unfold ofName
  split
  · rename_i h; exact h.symm
  · split
    · rename_i h; exact h.symm
    · rfl

/-- Which files a search takes in. -/
structure Search where
  scope : Scope := .project
  /-- Patterns for the names of folders that are left out. -/
  excludedFolders : List Text := [".git", "node_modules", "__pycache__", ".venv"]
  /-- Patterns for the names of files that are left out. -/
  excludedFiles : List Text := []
  /-- The size in bytes up to which files are taken in; zero means any size. -/
  sizeLimit : Nat := 100000
deriving DecidableEq, Inhabited

/-- How notes are ordered. -/
structure Sorting where
  /-- Whether notes that are done come last. -/
  doneLast : Bool := false
deriving DecidableEq, Inhabited

/-- The settings of a project. -/
structure Settings where
  tags : List Tag := [{ name := "TODO" }, { name := "NOTE" }, { name := "FIXME" },
    { name := "CHANGES" }, { name := "FUTURE" }]
  caseSensitive : Bool := false
  search : Search := {}
  sorting : Sorting := {}
deriving DecidableEq, Inhabited

namespace Json

/-- Decodes a tag. -/
def tag : Json → Checked Tag := members fun fields =>
  ((required text "name" fields).and
    ((withDefault none optionalText ["pattern"] fields).and
      (withDefault none optionalText ["color"] fields))).map
    fun (name, pattern?, color?) => { name, pattern?, color? }

/-- Decodes a tag that may be given by its name alone. -/
def tagOrName : Json → Checked Tag
  | string name => .ok { name }
  | value => tag value

/-- Decodes a scope. -/
def scope : Json → Checked Scope :=
  choice [(Scope.name .project, .project), (Scope.name .current, .current)]

/-- Decodes the options of a search. -/
def search : Json → Checked Search := members fun fields =>
  ((withDefault .project scope ["scope"] fields).and
    ((withDefault ({} : Search).excludedFolders (list text)
        ["excludeFolders", "exclude_folders"] fields).and
      ((withDefault ({} : Search).excludedFiles (list text)
          ["excludeFiles", "exclude_files"] fields).and
        (withDefault ({} : Search).sizeLimit (numberFrom 0)
          ["maxFileSize", "max_file_size"] fields)))).map
    fun (scope, excludedFolders, excludedFiles, sizeLimit) =>
      { scope, excludedFolders, excludedFiles, sizeLimit }

/-- Decodes the options of the order. -/
def sorting : Json → Checked Sorting := members fun fields =>
  (withDefault false flag ["done"] fields).map fun doneLast => { doneLast }

/-- Decodes settings. -/
def settings : Json → Checked Settings := members fun fields =>
  ((withDefault ({} : Settings).tags (list tagOrName) ["tags"] fields).and
    ((withDefault false flag ["case", "case_sensitive"] fields).and
      ((withDefault ({} : Search) search ["search"] fields).and
        (withDefault ({} : Sorting) sorting ["sort"] fields)))).map
    fun (tags, caseSensitive, search, sorting) => { tags, caseSensitive, search, sorting }

/-- Decodes a note. -/
def note : Json → Checked Note := members fun fields =>
  ((required text "file_path" fields).and
    ((required text "tag" fields).and
      ((required (numberFrom 1) "line" fields).and
        ((required (numberFrom 0) "char" fields).and
          ((withDefault [] text ["text"] fields).and
            (withDefault false flag ["done"] fields)))))).map
    fun (path, tag, line, column, text, done) => { path, tag, line, column, text, done }

/-- Decodes an entry. -/
def entry : Json → Checked Entry := members fun fields =>
  ((required text "path" fields).and
    ((withDefault [] (list note) ["comments"] fields).and
      (withDefault false flag ["expanded"] fields))).map
    fun (path, notes, expanded) => { path, notes, expanded }

end Json

namespace Settings

/-- The settings that find nothing. -/
def inert : Settings := { tags := [] }

/-- Why a document is not taken. -/
inductive Problem where
  /-- It is not JSON. -/
  | notJson
  /-- Some values have the wrong shape. -/
  | invalid (issues : List Json.Issue)
deriving DecidableEq

/-- Reads a settings document; a document that is not taken gives inert settings and the
reason. -/
def parse (document : Text) : Except Json.Fault (Settings × Option Problem) :=
  match Json.parse document with
  | .error .malformed => .ok (inert, some .notJson)
  | .error fault => .error fault
  | .ok value =>
    match Json.settings value with
    | .ok settings => .ok (settings, none)
    | .error issues => .ok (inert, some (.invalid issues))

/-- The scope in force. -/
def scope (settings : Settings) : Scope := settings.search.scope

/-- The same settings in another scope. -/
def withScope (settings : Settings) (scope : Scope) : Settings :=
  { settings with search := { settings.search with scope } }

/-- The vocabulary of the settings. -/
def vocabulary (settings : Settings) :
    Except Pattern.Fault (Vocabulary × Option Vocabulary.Flaw) :=
  Vocabulary.ofTags settings.caseSensitive settings.tags

end Settings

end Marginalia
