import Marginalia.Catalog.Meet
import Marginalia.CommandLine.Command
import Marginalia.Outline

/-!
# Running commands

`run` says what a command line prints, what it warns of and how it ends, in a world: a disk, the
folder where the command was given, and the changes that come while it watches.

A command that shows notes has the settings loaded first, and only then is told of the active
document and of another scope (`preparation`).
-/

namespace Marginalia.CommandLine

/-- Something for the console. -/
inductive Printed where
  | markup (text : Text)
  | tree (outline : Outline)
  | table (columns : List Text) (rows : List (List Text))
  /-- A line across, with a title. -/
  | rule (title : Text)
deriving DecidableEq, Inhabited

/-- A batch of changes, and the disk as it is then. -/
structure Batch where
  disk : Disk
  changes : List Change

/-- Where a command runs. -/
structure World where
  disk : Disk
  /-- The folder where the command was given. -/
  folder : Path
  /-- The settings file that is to be used, if another than usual. -/
  settingsFile? : Option Text := none
  /-- The changes that come before a watch is stopped. -/
  batches : List Batch := []

/-- How a command ends. -/
inductive Ending where
  | done
  /-- Help was asked for and nothing else done. -/
  | help
  | usage (fault : UsageFault)
  | fault (fault : Catalog.Fault)
deriving DecidableEq

/-- What a command does. -/
structure Outcome where
  printed : List Printed := []
  level? : Option LogLevel := none
  warnings : List Warning := []
  ending : Ending := .done

/-- Why `list` is not understood in the scope of a document that it is not given. -/
def fileRequired : Text := "--file is required with --scope current"

/-- The warnings among notices. -/
def warningsOf (notices : List Notice) : List Warning := notices.filterMap fun
  | .warned warning => some warning
  | .told _ _ => none

/-- The project folder that a path means, without links. -/
def projectFolder (world : World) (root : Text) : Except Ending Path :=
  let path := world.folder.join (Path.ofText root)
  match Disk.malformed? path with
  | some fault => .error (.fault (.disk fault))
  | none =>
    match world.disk.realPlace path with
    | none => .error (.usage (.badValue none))
    | some place =>
      if world.disk.item? place = some .folder then .ok { origin := .root, parts := place }
      else .error (.usage (.badValue none))

/-- A catalog for a project, as it is before its settings are loaded. -/
def openCatalog (world : World) (root : Path) : Except Ending Catalog :=
  let workspace := Workspace.ofRoot root {} [] world.settingsFile?
  match Catalog.ofSettings workspace with
  | .ok (catalog, _) => .ok catalog
  | .error fault => .error (.fault fault)

/-- What a catalog is asked before its notes are shown. -/
def preparation (scope? : Option Scope) (file? : Option Text) : List Request :=
  .reload :: (file?.map fun file => .setActive (some file)).toList ++
    (scope?.map .setScope).toList

/-- The notes of a catalog for the console. -/
def snapshot (root : Path) (catalog : Catalog) (hidden expanded : List Text) (doneLast : Bool) :
    List Printed :=
  let entries := catalog.index.entries
  let colors := Outline.colorsOf catalog.vocabulary
  let shown := View.render { hidden, expanded? := some expanded, doneLast } entries
  let body := if shown.isEmpty then Printed.markup "[dim]No todos found.[/dim]"
    else .tree (Outline.ofEntries root colors shown)
  let summary? := Outline.summary? colors hidden (View.counts catalog.vocabulary entries)
  body :: (summary?.map .markup).toList

/-- Shows the notes of a project. -/
def runList (options : ListOptions) (scope? : Option Scope) (root : Path) (disk : Disk)
    (catalog : Catalog) : Outcome :=
  let file? := options.file?.map fun file => (Path.ofText file).toText
  let m := Catalog.meetAll disk catalog (preparation scope? file?)
  let warnings := warningsOf m.notices
  match m.answer with
  | .error fault => { warnings, ending := .fault fault }
  | .ok _ =>
    let expanded := if options.expand then m.catalog.index.paths else []
    let doneLast := options.doneLast?.getD m.catalog.settings.sorting.doneLast
    { warnings, printed := snapshot root m.catalog options.hidden expanded doneLast }

/-- The line below a table of counts: all notes that were counted, and all files that have any
notes. -/
def total (counts : List (Text × Nat)) (entries : List Entry) : Text :=
  ("(" : Text) ++ Text.ofNat (counts.foldl (fun sum count => sum + count.2) 0) ++
    (" todos in " : Text) ++ Text.ofNat (entries.countP (·.hasNotes)) ++ (" files)" : Text)

/-- Counts the notes of a project. -/
def runCount (tag? : Option Text) (disk : Disk) (catalog : Catalog) : Outcome :=
  let m := Catalog.meetAll disk catalog (preparation none none)
  let warnings := warningsOf m.notices
  match m.answer with
  | .error fault => { warnings, ending := .fault fault }
  | .ok _ =>
    let entries := m.catalog.index.entries
    let counts := match tag? with
      | some tag => [(tag, View.countOf m.catalog.vocabulary.caseSensitive tag entries)]
      | none => View.counts m.catalog.vocabulary entries
    { warnings
      printed := [.table ["tag", "count"] (counts.map fun (name, n) => [name, Text.ofNat n]),
        .markup (total counts entries)] }

/-- What is printed when observers are told of notes: all of them. -/
def shownNews (root : Path) : List Notice → List Printed
  | [] => []
  | .told .notesUpdated catalog :: rest =>
    .rule "todos" ::
      snapshot root catalog [] catalog.index.paths catalog.settings.sorting.doneLast ++
        shownNews root rest
  | _ :: rest => shownNews root rest

/-- What one batch of changes leads to; one that fails is given up. -/
def takeBatch (root : Path) (catalog : Catalog) (batch : Batch) :
    Catalog × List Printed × List Warning :=
  let requests := (Changes.events batch.changes).map Request.file
  let m := Catalog.meetAll batch.disk catalog requests
  let abandoned := match m.answer with
    | .error _ => [Warning.abandonedBatch]
    | .ok _ => []
  (m.catalog, shownNews root m.notices, warningsOf m.notices ++ abandoned)

/-- What batches of changes lead to, one after the other. -/
def takeBatches (root : Path) : Catalog → List Batch → List Printed × List Warning
  | _, [] => ([], [])
  | catalog, batch :: rest =>
    let (catalog, printed, warnings) := takeBatch root catalog batch
    let (more, others) := takeBatches root catalog rest
    (printed ++ more, warnings ++ others)

/-- Shows the notes of a project until it is stopped. -/
def runWatch (root : Path) (world : World) (catalog : Catalog) : Outcome :=
  let m := catalog.meet world.disk .reload
  let printed := shownNews root m.notices
  let warnings := warningsOf m.notices
  match m.answer with
  | .error fault => { printed, warnings, ending := .fault fault }
  | .ok _ =>
    let (more, others) := takeBatches root m.catalog world.batches
    { printed := printed ++ more ++ [.markup "[yellow]Stopped watching[/yellow]"]
      warnings := warnings ++ others }

/-- The scope that `list` is asked for. -/
def scopeOf (options : ListOptions) : Except Ending (Option Scope) :=
  match options.scope? with
  | none => .ok none
  | some name =>
    if name = Scope.project.name then .ok (some .project)
    else if name = Scope.current.name then .ok (some .current)
    else .error (.usage (.badValue none))

/-- Checks that a path to a document is no nonsense. -/
def checkFile (options : ListOptions) : Except Ending Unit :=
  match options.file?.bind fun file => Disk.malformed? (Path.ofText file) with
  | some fault => .error (.fault (.disk fault))
  | none => .ok ()

/-- Runs a command that is well formed; the values given with it are looked at before anything
else is. -/
def runCall (world : World) (call : Call) : Except Ending Outcome := do
  let scope? ← match call.command with
    | .list options => do
      checkFile options
      scopeOf options
    | _ => pure none
  let root ← projectFolder world call.root
  if call.hasExtra then throw (.usage .badArguments)
  match call.command with
  | .list options =>
    if scope? = some .current && options.file?.isNone then
      throw (.usage (.badValue (some fileRequired)))
    return runList options scope? root world.disk (← openCatalog world root)
  | .count tag? => return runCount tag? world.disk (← openCatalog world root)
  | .watch => return runWatch root world (← openCatalog world root)

/-- Runs a command line. -/
def run (world : World) (arguments : List Text) : Outcome :=
  let invocation := Invocation.read arguments
  let outcome : Outcome := match invocation.demand with
    | .help => { ending := .help }
    | .usage fault => { ending := .usage fault }
    | .call call =>
      match runCall world call with
      | .ok outcome => outcome
      | .error ending => { ending }
  { outcome with level? := invocation.level? }

/-- A command line that is not understood prints nothing. -/
theorem run_usage {world : World} {arguments : List Text} {fault : UsageFault}
    (h : (Invocation.read arguments).demand = .usage fault) :
    (run world arguments).printed = [] := by
  simp [run, h]

end Marginalia.CommandLine
