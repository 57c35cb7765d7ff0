import Marginalia.Warning

/-!
# Settings files

A project keeps its settings in the file `.todo` at its root, unless another path is given for it
(`Settings.fileFor`).  `Settings.load` reads the file.  A project without settings file has the
default settings, and so has one whose file cannot be read, with a warning then; a file that is
read but makes no sense gives inert settings, with a warning.
-/

namespace Marginalia.Settings

/-- The name of the settings file. -/
def fileName : Text := ".todo"

/-- The path of the settings file of a project; an empty override counts as none, and a relative
one is taken from the root. -/
def fileFor (override : Option Text) (root : Path) : Path :=
  match override with
  | none | some [] => root.join (Path.ofText fileName)
  | some path => root.join (Path.ofText path)

/-- Why settings cannot be loaded at all. -/
inductive LoadFault where
  /-- The path is malformed. -/
  | path (fault : Disk.Fault)
  /-- The file does not hold text. -/
  | notText
  /-- The document goes beyond what is read. -/
  | document (fault : Json.Fault)
deriving DecidableEq

/-- Loads the settings that bytes hold. -/
def ofBytes (bytes : List UInt8) : Except LoadFault (Settings × List Warning) :=
  match Utf8.decode bytes with
  | none => .error .notText
  | some text =>
    match parse text.normalizeNewlines with
    | .error fault => .error (.document fault)
    | .ok (settings, problem?) =>
      .ok (settings, (problem?.map Warning.malformedSettings).toList)

/-- Loads the settings from a file. -/
def load (disk : Disk) (path : Path) : Except LoadFault (Settings × List Warning) :=
  match disk.read path with
  | .ok bytes => ofBytes bytes
  | .error .notFound => .ok ({}, [])
  | .error fault =>
    if fault.isMalformedPath then .error (.path fault)
    else .ok ({}, [.unreadableSettings fault])

/-- A project without settings file has the default settings. -/
theorem load_of_notFound {disk : Disk} {path : Path} (h : disk.read path = .error .notFound) :
    load disk path = .ok ({}, []) := by
  simp [load, h]

end Marginalia.Settings
