import Marginalia.Changes
import Marginalia.Index
import Marginalia.Workspace

/-!
# The catalog

A catalog keeps the index of a workspace in step with its files.  This file holds the catalog and
what is done to it without a pause; where blocking work has to be waited for, a step ends by saying
what it waits for (`Next`), and another step goes on when the outcome is there.  Other requests can
come in between, so a step that goes on first looks whether it is still wanted.

Three things serve that purpose.

* Each scan and each reload of the settings begins a new *generation*; a scan that finds a later
  generation in force is dropped (`Catalog.finishScan`).
* Each vocabulary that comes into force begins a new *epoch*; an update of one file that was read
  for an earlier vocabulary is dropped (`Catalog.finishUpdate`).
* The paths *touched* since the last scan began are kept, and a scan does not undo what was found
  out about them (`mergeTouched`).

Main statements: `mergeTouched_nil`, an undisturbed scan is taken as it is; `finishScan_superseded`,
a dropped scan changes nothing.
-/

namespace Marginalia

/-- What is asked of a catalog. -/
inductive Request where
  /-- To scan everything in scope. -/
  | rescan
  /-- To load the settings anew, and to scan. -/
  | reload
  | setScope (scope : Scope)
  /-- To take another document as the active one, or none. -/
  | setActive (path : Option Text)
  | file (event : FileEvent)
deriving DecidableEq, Inhabited

/-- What observers are told. -/
inductive Topic where
  | settingsLoaded
  | notesUpdated
deriving DecidableEq, Inhabited

/-- The name of a topic. -/
def Topic.name : Topic → Text
  | settingsLoaded => "settings:loaded"
  | notesUpdated => "todos:updated"

namespace Catalog

/-- Why a request ends early. -/
inductive Fault where
  /-- The tags of new settings cannot be used at all. -/
  | pattern (fault : Pattern.Fault)
  /-- The settings cannot be loaded at all. -/
  | settings (fault : Settings.LoadFault)
  /-- The disk cannot tell what is there. -/
  | disk (fault : Disk.Fault)
  /-- A document cannot be asked for. -/
  | document (fault : Document.Fault)
  /-- A match makes no note. -/
  | note (fault : Note.Fault)
deriving DecidableEq

/-- What was found in a file: its notes, or nothing if it could not be read. -/
abbrev Found := Except Fault (Option (List Note))

/-- What is found in a file, given its text, with a warning if it could not be read. -/
def examine (vocabulary : Vocabulary) (path : Text) :
    Except Document.Fault Text → Found × List Warning
  | .ok text => ((vocabulary.notesIn path text).map some |>.mapError .note, [])
  | .error fault =>
    if fault.isRaised then (.error (.document fault), []) else (.ok none, [.skipped path fault])

/-- What a scan keeps from its beginning. -/
structure Scan where
  generation : Nat
  vocabulary : Vocabulary
  /-- Whether files without notes get an entry. -/
  keepEmpty : Bool
deriving Inhabited

/-- What the update of one file keeps from its beginning. -/
structure Update where
  path : Text
  generation : Nat
  epoch : Nat
  vocabulary : Vocabulary
deriving Inhabited

/-- How a request goes on. -/
inductive Next where
  /-- It waits for the settings. -/
  | load
  /-- It waits for the list of files. -/
  | list (scan : Scan)
  /-- It waits for the texts of files. -/
  | read (scan : Scan) (paths : List Text)
  /-- It waits for the text of one file. -/
  | update (update : Update)
  /-- The observers of a topic are told; then it goes on with `afterTold`. -/
  | tell (topic : Topic)
  /-- It is done; a scan that was dropped is not complete. -/
  | done (complete : Bool)
  | fail (fault : Fault)
deriving Inhabited

end Catalog

/-- The index of a workspace, with what is in force for it. -/
structure Catalog where
  workspace : Workspace
  /-- Whether reloading looks into the settings file. -/
  hasFile : Bool := true
  settings : Settings
  vocabulary : Vocabulary
  /-- How many vocabularies came into force before. -/
  epoch : Nat := 0
  /-- How many scans and reloads began. -/
  generation : Nat := 0
  /-- The paths touched since the last scan began, in order. -/
  touched : List Text := []
  /-- The active document. -/
  active : Option Text := none
  index : Index := {}
deriving Inhabited

namespace Catalog

/-- The scope in force. -/
def scope (c : Catalog) : Scope := c.settings.scope

/-- A catalog with an empty index. -/
def ofSettings (workspace : Workspace) (settings : Settings := {}) (hasFile : Bool := true) :
    Except Fault (Catalog × List Warning) :=
  match settings.vocabularyWithWarnings with
  | .ok (vocabulary, warnings) =>
    .ok ({ workspace := workspace.configure settings.search, hasFile, settings, vocabulary },
      warnings)
  | .error fault => .error (.pattern fault)

/-! ## Scans -/

/-- Adds a path to the touched ones. -/
def touch (c : Catalog) (path : Text) : Catalog :=
  { c with touched := if c.touched.contains path then c.touched else c.touched ++ [path] }

/-- The entry that the index holds for a path, if it is worth keeping. -/
def kept? (index : Index) (keepEmpty : Bool) (path : Text) : Option Entry :=
  (index.get? path).filter fun entry => entry.hasNotes || keepEmpty

/-- The entries of a scan, with those of the index in place of touched ones; touched paths that
were not scanned come last. -/
def mergeTouched (index : Index) (touched : List Text) (keepEmpty : Bool) (scanned : List Entry) :
    List Entry :=
  let merged := scanned.filterMap fun entry =>
    if touched.contains entry.path then kept? index keepEmpty entry.path else some entry
  let others := touched.filter fun path => !(scanned.map (·.path)).contains path
  merged ++ others.filterMap (kept? index keepEmpty)

/-- The entries that a scan makes of what was found in files; nothing was found in a file that
could not be read. -/
def scannedEntries (keepEmpty : Bool) (found : List (Text × Option (List Note))) : List Entry :=
  found.filterMap fun (path, notes?) =>
    match notes? with
    | none => none
    | some notes => if notes.isEmpty && !keepEmpty then none else some { path, notes }

/-- Ends a scan: its entries are taken in, unless a later generation has begun. -/
def finishScan (c : Catalog) (scan : Scan) (found : List (Text × Option (List Note))) :
    Catalog × Next :=
  if scan.generation ≠ c.generation then (c, .done false)
  else
    let entries := scannedEntries scan.keepEmpty found
    ({ c with index := Index.ofEntries (mergeTouched c.index c.touched scan.keepEmpty entries) },
      .tell .notesUpdated)

/-- Goes on with a scan when its files are known; without files there is nothing to wait for. -/
def readFiles (c : Catalog) (scan : Scan) (paths : List Text) : Catalog × Next :=
  if paths.isEmpty then c.finishScan scan [] else (c, .read scan paths)

/-- Begins a scan: of the active document alone, or of all files. -/
def beginScan (c : Catalog) : Catalog × Next :=
  let c := { c with generation := c.generation + 1, touched := [] }
  let scan := { generation := c.generation, vocabulary := c.vocabulary, keepEmpty := true }
  match c.scope with
  | .current => c.readFiles scan c.active.toList
  | _ => (c, .list { scan with keepEmpty := false })

/-! ## Settings -/

/-- Brings settings into force.  If their tags cannot be used at all, the settings are taken and
everything that depends on them stays as it is. -/
def apply (c : Catalog) (settings : Settings) : Catalog × Except Fault (List Warning) :=
  match settings.vocabularyWithWarnings with
  | .ok (vocabulary, warnings) =>
    ({ c with
        settings, vocabulary, epoch := c.epoch + 1
        workspace := c.workspace.configure settings.search }, .ok warnings)
  | .error fault => ({ c with settings }, .error (.pattern fault))

/-- Goes on with a reload when the settings are in force: the index is cleared. -/
def clear (c : Catalog) : Catalog × Next := ({ c with index := {} }, .tell .settingsLoaded)

/-- Goes on with a reload when the settings are there. -/
def finishLoad (c : Catalog) (settings : Settings) : (Catalog × Next) × List Warning :=
  match c.apply settings with
  | (c, .ok warnings) => (c.clear, warnings)
  | (c, .error fault) => ((c, .fail fault), [])

/-- Begins a reload. -/
def beginLoad (c : Catalog) : Catalog × Next :=
  let c := { c with generation := c.generation + 1 }
  if c.hasFile then (c, .load) else c.clear

/-! ## Files -/

/-- Takes a path out of the index. -/
def drop (c : Catalog) (path : Text) : Catalog :=
  { c with index := c.index.remove path }.touch path

/-- Whether an update comes too late: its vocabulary is no longer in force, or the file is no
longer the one to be shown. -/
def isStale (c : Catalog) (update : Update) : Bool :=
  update.epoch ≠ c.epoch ||
    update.generation ≠ c.generation && c.scope = .current && c.active ≠ some update.path

/-- Ends the update of a file with the notes that were found. -/
def finishUpdate (c : Catalog) (update : Update) (notes : List Note) : Catalog × Next :=
  if c.isStale update then (c, .done true)
  else if notes.isEmpty && !c.index.contains update.path then (c, .done true)
  else ({ c with index := c.index.update update.path notes }.touch update.path, .tell .notesUpdated)

/-- Begins the update of a file that was modified or added. -/
def beginUpdate (c : Catalog) (disk : Disk) (path : Text) : Catalog × Next :=
  if c.workspace.isSettingsFile path then c.beginLoad
  else match c.workspace.accepts disk path with
    | .error fault => (c, .fail (.disk fault))
    | .ok false => (c.drop path, if c.index.contains path then .tell .notesUpdated else .done true)
    | .ok true =>
      if c.scope = .current ∧ c.active ≠ some path then (c, .done true)
      else (c, .update
        { path, generation := c.generation, epoch := c.epoch, vocabulary := c.vocabulary })

/-- Does what a deleted file asks for. -/
def deleteFile (c : Catalog) (path : Text) : Catalog × Next :=
  if c.workspace.isSettingsFile path then c.beginLoad
  else if c.workspace.inScope path then (c.drop path, .tell .notesUpdated)
  else (c, .done true)

/-- Does what a renamed file asks for; the active document stays active under its new name. -/
def renameFile (c : Catalog) (old new : Text) : Catalog × Next :=
  if c.workspace.isSettingsFile old || c.workspace.isSettingsFile new then c.beginLoad
  else if c.workspace.inScope old || c.workspace.inScope new then
    if c.scope = .current ∧ c.active = some old then { c with active := some new }.beginScan
    else c.beginScan
  else (c, .done true)

/-- Changes the scope. -/
def changeScope (c : Catalog) (scope : Scope) : Catalog × Next :=
  if scope = c.scope then (c, .done true)
  else { c with settings := c.settings.withScope scope }.beginScan

/-- Changes the active document; an empty path counts as none. -/
def changeActive (c : Catalog) (path : Option Text) : Catalog × Next :=
  let c := { c with active := (path.filter (!·.isEmpty)).map c.workspace.normalize }
  if c.scope = .current then c.beginScan else (c, .done true)

/-- How the update of a file goes on when the file was examined. -/
def afterRead (c : Catalog) (update : Update) : Found → Catalog × Next
  | .ok (some notes) => c.finishUpdate update notes
  | .ok none => (c, .done true)
  | .error fault => (c, .fail fault)

/-- How a request goes on when observers were told: a reload scans, and all else is done. -/
def afterTold (c : Catalog) : Topic → Catalog × Next
  | .settingsLoaded => c.beginScan
  | .notesUpdated => (c, .done true)

/-- Begins a request. -/
def begin (c : Catalog) (disk : Disk) : Request → Catalog × Next
  | .rescan => c.beginScan
  | .reload => c.beginLoad
  | .setScope scope => c.changeScope scope
  | .setActive path => c.changeActive path
  | .file (.modified path) => c.beginUpdate disk (c.workspace.normalize path)
  | .file (.deleted path) => c.deleteFile (c.workspace.normalize path)
  | .file (.renamed old new) =>
    c.renameFile (c.workspace.normalize old) (c.workspace.normalize new)

/-- An undisturbed scan is taken as it is. -/
theorem mergeTouched_nil (index : Index) (keepEmpty : Bool) (scanned : List Entry) :
    mergeTouched index [] keepEmpty scanned = scanned := by
  simp [mergeTouched]

/-- A scan of an earlier generation changes nothing. -/
theorem finishScan_superseded {c : Catalog} {scan : Scan} (h : scan.generation ≠ c.generation)
    (found : List (Text × Option (List Note))) :
    c.finishScan scan found = (c, .done false) := by
  simp [finishScan, h]

/-- A scan of the project has to wait for the list of files, and leaves the index alone. -/
theorem beginScan_index_of_project {c : Catalog} (h : c.scope = .project) :
    c.beginScan.1.index = c.index := by
  have : c.settings.scope = .project := h
  simp [beginScan, scope, this]

end Catalog

end Marginalia
