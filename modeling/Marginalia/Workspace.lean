import Marginalia.Glob
import Marginalia.Settings.File

/-!
# Workspaces

A workspace is a project folder with its settings file and its exclusions.  It normalizes the
paths that the rest of the program uses as names of files, decides which of them lie in its scope,
and lists the files of a full scan.

`Workspace.list` goes through a folder's files in order before it goes into its subfolders in
order.  Links to folders are neither listed nor gone into; all other links count as files.  A file
is listed if it is accepted by the exclusions, is not the settings file and is not too large.
-/

namespace Marginalia

/-- A project folder and what is left out of it. -/
structure Workspace where
  root : Path
  settingsFile : Path
  /-- Patterns for the names of folders that are left out. -/
  excludedFolders : List Text
  /-- Patterns for the names of files that are left out. -/
  excludedFiles : List Text
  /-- The size in bytes up to which files are taken in; zero means any size. -/
  sizeLimit : Nat
deriving DecidableEq, Inhabited

namespace Workspace

/-- The workspace with the exclusions of a search. -/
def configure (w : Workspace) (search : Search) : Workspace :=
  { w with
    excludedFolders := search.excludedFolders
    excludedFiles := search.excludedFiles
    sizeLimit := search.sizeLimit }

/-- The path that a path means in a project: taken from its root, with its double dots worked
out. -/
def normalizeIn (root : Path) (path : Path) : Path := (root.join path).resolve

/-- The workspace of a project folder.  The settings file is the given one, or else the one for
the root; an empty path counts as none. -/
def ofRoot (root : Path) (search : Search := {}) (settingsFile : Text := [])
    (override : Option Text := none) : Workspace :=
  let root := root.resolve
  let file := if settingsFile.isEmpty then Settings.fileFor override root
    else Path.ofText settingsFile
  { root
    settingsFile := normalizeIn root file
    excludedFolders := search.excludedFolders
    excludedFiles := search.excludedFiles
    sizeLimit := search.sizeLimit }

/-- The path that a text means in a workspace. -/
def locate (w : Workspace) (path : Text) : Path := normalizeIn w.root (Path.ofText path)

/-- The normal form of a path, by which its file is known. -/
def normalize (w : Workspace) (path : Text) : Text := (w.locate path).toText

/-- Whether a way from the root, along some names, is left out by no pattern; it has to have a
name at all. -/
def includes (w : Workspace) (parts : List Text) : Bool :=
  match parts.getLast? with
  | none => false
  | some name =>
    !(parts.dropLast.any (Glob.anyAccepts w.excludedFolders)) &&
      !(Glob.anyAccepts w.excludedFiles name)

/-- Whether a path lies in the workspace and is not left out. -/
def inScope (w : Workspace) (path : Text) : Bool :=
  match Path.within? w.root (w.locate path) with
  | some parts => w.includes parts
  | none => false

/-- Whether a path is the one of the settings file. -/
def isSettingsFile (w : Workspace) (path : Text) : Bool := path = w.settingsFile.toText

/-- Whether a path means a file. -/
def isFile (w : Workspace) (disk : Disk) (path : Text) : Except Disk.Fault Bool :=
  disk.isFile (w.locate path)

/-- Whether the file at a path keeps the size limit; where no size can be told it does not. -/
def keepsLimit (w : Workspace) (disk : Disk) (path : Path) : Bool :=
  w.sizeLimit = 0 || match disk.read path with
    | .ok content => content.length ≤ w.sizeLimit
    | .error _ => false

/-- Whether a full scan would take in the file at a path. -/
def accepts (w : Workspace) (disk : Disk) (path : Text) : Except Disk.Fault Bool :=
  if w.isSettingsFile (w.normalize path) || !w.inScope path then .ok false
  else (w.isFile disk path).map fun isFile => isFile && w.keepsLimit disk (w.locate path)

/-- The order of a walk: the files of a folder come before its subfolders, both by name. -/
def walkOrder : List Text → List Text → Bool
  | [], _ => true
  | _ :: _, [] => false
  | [a], [b] => Text.le a b
  | [_], _ :: _ :: _ => true
  | _ :: _ :: _, [_] => false
  | a :: as@(_ :: _), b :: bs@(_ :: _) => if a = b then walkOrder as bs else Text.le a b

/-- The files of the workspace, by their ways from the root, in no order: folders are no files,
and neither are links to folders. -/
def files (w : Workspace) (disk : Disk) : List (List Text) :=
  match disk.locate w.root with
  | .error _ => []
  | .ok place => (disk.below place).filterMap fun (parts, item) =>
    match item with
    | .folder => none
    | .file _ => some parts
    | .link _ =>
        if disk.isFolder { origin := .root, parts := place ++ parts } then none else some parts

/-- The file at the end of a way from the root. -/
def fileAt (w : Workspace) (parts : List Text) : Path :=
  { w.root with parts := w.root.parts ++ parts }

/-- Whether a full scan takes in the file at the end of a way from the root. -/
def takes (w : Workspace) (disk : Disk) (parts : List Text) : Bool :=
  w.includes parts && !w.isSettingsFile (w.fileAt parts).toText &&
    w.keepsLimit disk (w.fileAt parts)

/-- The paths of a full scan, in the order of a walk. -/
def list (w : Workspace) (disk : Disk) : Except Disk.Fault (List Text) :=
  match Disk.malformed? w.root with
  | some fault => .error fault
  | none => .ok ((((w.files disk).filter (w.takes disk)).mergeSort walkOrder).map fun parts =>
    (w.fileAt parts).toText)

/-- Reads the document at a path. -/
def read (w : Workspace) (disk : Disk) (path : Text) : Except Document.Fault Text :=
  Document.read disk (w.locate path)

/-- A path is located from a root, as that of the workspace is. -/
theorem locate_isAbsolute (w : Workspace) (path : Text) (h : w.root.isAbsolute = true) :
    (w.locate path).isAbsolute = true :=
  Path.isAbsolute_join h (Path.ofText path)

/-- Configuring changes no path. -/
theorem normalize_configure (w : Workspace) (search : Search) (path : Text) :
    (w.configure search).normalize path = w.normalize path := rfl

end Workspace

end Marginalia
