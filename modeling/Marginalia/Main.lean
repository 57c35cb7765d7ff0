import Marginalia.CommandLine.Layout
import Marginalia.Disk.Change
import Marginalia.Disk.Compare

/-!
# The program

Takes a picture of the folders that a command line is about, runs the command on it and prints
what comes out.  While it watches, it takes a new picture every second and passes on what changed.
-/

namespace Marginalia.Program

open CommandLine

/-- A text as a string; lone surrogates are shown as replacement characters. -/
def shown (text : Text) : String :=
  String.ofList (text.map fun
    | .char c => c
    | .surrogate _ => '\uFFFD')

/-- What stands in a folder of the machine and below it. -/
partial def itemsOf (place : Place) (entry : IO.FS.DirEntry) : IO (List (Place × Item)) := do
  let metadata ← entry.path.symlinkMetadata
  match metadata.type with
  | .dir => do
    let mut items := [(place, Item.folder)]
    for child in ← entry.path.readDir do
      items := items ++ (← itemsOf (place ++ [Text.ofString child.fileName]) child)
    return items
  | .file => do
    let content ← try IO.FS.readBinFile entry.path catch _ => pure .empty
    return [(place, .file content.toList)]
  | .symlink => do
    let target ← try (·.toString) <$> IO.FS.realPath entry.path catch _ => pure "."
    return [(place, .link (Text.ofString target))]
  | .other => return []

/-- Adds to a picture what stands at a path. -/
def addPath (disk : Disk) (path : Path) : IO Disk := do
  let entry : IO.FS.DirEntry := { root := "/", fileName := shown path.toText }
  try
    let real := (← IO.FS.realPath entry.path).toString
    let place := (Path.ofText (Text.ofString real)).parts
    let items ← itemsOf place { root := "/", fileName := real }
    let disk := (disk.withFolders place.dropLast).without place
    let disk : Disk := { items := disk.items ++ items }
    if place = path.resolve.parts then return disk
    return disk.write path (.link (Text.ofString real))
  catch _ => return disk

/-- The paths that a call is about. -/
def pathsOf (world : World) (call : Call) : List Path :=
  let root := world.folder.join (Path.ofText call.root)
  let file? := match call.command with
    | .list options => options.file?.map fun file => root.join (Path.ofText file)
    | _ => none
  root :: Settings.fileFor world.settingsFile? root :: file?.toList

/-- The world with a picture of the machine. -/
def pictured (world : World) (call : Call) : IO World := do
  let disk ← (pathsOf world call).foldlM addPath {}
  return { world with disk }

def printAll (printed : List Printed) : IO Unit := do
  for line in printed.flatMap Printed.lines do
    IO.println (shown line)

def warnAll (warnings : List Warning) : IO Unit := do
  for warning in warnings do
    IO.eprintln (shown (warningLine warning))

/-- Passes on changes until the program is stopped. -/
partial def keepWatching (world : World) (call : Call) (root : Path) (catalog : Catalog) :
    IO Unit := do
  IO.sleep 1000
  let next ← pictured world call
  let changes := world.disk.changes next.disk root.parts
  if changes.isEmpty then keepWatching next call root catalog
  else
    let (catalog, printed, warnings) := takeBatch root catalog { disk := next.disk, changes }
    warnAll warnings
    printAll printed
    keepWatching next call root catalog

/-- Goes on watching, if that is what was asked for. -/
def afterwards (world : World) (call : Call) : IO Unit := do
  match call.command, projectFolder world call.root with
  | .watch, .ok root =>
    match openCatalog world root with
    | .ok catalog => keepWatching world call root (catalog.meet world.disk .reload).catalog
    | .error _ => return
  | _, _ => return

end Marginalia.Program

open Marginalia Program CommandLine in
/-- Runs a command line on this machine. -/
def main (arguments : List String) : IO UInt32 := do
  let folder := Path.ofText (Text.ofString (← IO.currentDir).toString)
  let settingsFile? := (← IO.getEnv "TODO_INDEX_SETTINGS").map Text.ofString
  let arguments := arguments.map Text.ofString
  let world : World := { disk := {}, folder, settingsFile? }
  let demand := (Invocation.read arguments).demand
  let world ← match demand with
    | .call call => pictured world call
    | _ => pure world
  let outcome := run world arguments
  warnAll outcome.warnings
  match demand, outcome.ending with
  | .call call, .done =>
    let watching := call.command = .watch
    printAll (if watching then outcome.printed.dropLast else outcome.printed)
    if watching then afterwards world call
  | _, _ => printAll outcome.printed
  for line in outcome.ending.lines do
    if outcome.ending = .help then IO.println (shown line) else IO.eprintln (shown line)
  return outcome.ending.exitCode
