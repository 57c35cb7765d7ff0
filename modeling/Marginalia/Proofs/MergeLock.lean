import Marginalia.Proofs.Generations

/-!
# The merge lock

The index of a catalog is written under a lock.  The steps of a catalog are taken in one go and say
nothing of it; here they are written out with the lock (`Guarded`).  Whoever finds the lock taken
has to wait, what is done outside of it keeps the index, and what is done without holding it cannot
be done at all, so a step that comes to a result has kept all of these rules.

Each step with the lock begins and ends with a free one and does just what the step without it does
(`Guarded.begin_free`, `Guarded.finishLoad_free` and so on).  A call waits for its outcomes between
the steps and not within one.  So however calls are interleaved, and whether they fail or not, no
step ever finds the lock taken, and it is free after each turn (`Guarded.run_free`).
-/

namespace Marginalia

open Catalog (Found Next Scan Update)

/-- A catalog with the lock on its index. -/
structure Guarded where
  catalog : Catalog
  locked : Bool

namespace Guarded

/-! ## Under the lock -/

/-- Takes the lock; while another one holds it, it cannot be taken. -/
def acquire (g : Guarded) : Option Guarded :=
  if g.locked then none else some { g with locked := true }

/-- Gives the lock back. -/
def release (g : Guarded) : Option Guarded :=
  if g.locked then some { g with locked := false } else none

/-- Changes a catalog under the lock. -/
def write (g : Guarded) (change : Catalog → Catalog) : Option Guarded :=
  if g.locked then some { g with catalog := change g.catalog } else none

/-- Changes a catalog in what needs no lock, which is all but the index. -/
def keep (g : Guarded) (c : Catalog) (_ : c.index = g.catalog.index) : Guarded :=
  { g with catalog := c }

/-- Does something under the lock; the lock is given back whatever comes of it. -/
def within (g : Guarded) (body : Guarded → Option (Guarded × Next)) : Option (Guarded × Next) := do
  let g ← g.acquire
  let (g, next) ← body g
  let g ← g.release
  return (g, next)

/-- A catalog the lock of which is free. -/
def free (c : Catalog) : Guarded := { catalog := c, locked := false }

/-- A catalog the lock of which is held. -/
def held (c : Catalog) : Guarded := { catalog := c, locked := true }

/-- What comes of a step that leaves the lock free. -/
def settled (step : Catalog × Next) : Option (Guarded × Next) := some (free step.1, step.2)

/-- What comes of a step that still holds the lock. -/
def holding (step : Catalog × Next) : Option (Guarded × Next) := some (held step.1, step.2)

/-- What is done under a lock that was free leaves it free. -/
theorem within_free {c : Catalog} {body : Guarded → Option (Guarded × Next)} {step : Catalog × Next}
    (h : body (held c) = holding step) : (free c).within body = settled step := by
  have hacquire : (free c).acquire = some (held c) := rfl
  have hrelease : (held step.1).release = some (free step.1) := rfl
  simp [within, settled, holding, hacquire, hrelease, h]

/-! ## Scans -/

/-- Ends a scan: under the lock it is seen whether a later generation has begun. -/
def finishScan (g : Guarded) (scan : Scan) (found : List (Text × Option (List Note))) :
    Option (Guarded × Next) :=
  g.within fun g =>
    if scan.generation ≠ g.catalog.generation then some (g, .done false)
    else do
      let g ← g.write fun c => Indexer.merged c scan found
      return (g, .tell .notesUpdated)

/-- Goes on with a scan when its files are known. -/
def readFiles (g : Guarded) (scan : Scan) (paths : List Text) : Option (Guarded × Next) :=
  if paths.isEmpty then g.finishScan scan [] else some (g, .read scan paths)

/-- Begins a scan. -/
def beginScan (g : Guarded) : Option (Guarded × Next) :=
  let scanning := g.keep g.catalog.scanning rfl
  if g.catalog.scope = .current then
    scanning.readFiles (g.catalog.newScan true) g.catalog.active.toList
  else some (scanning, .list (g.catalog.newScan false))

/-- The end of a scan takes the lock once and gives it back, whether it merges or not. -/
theorem finishScan_free (c : Catalog) (scan : Scan) (found : List (Text × Option (List Note))) :
    (free c).finishScan scan found = settled (c.finishScan scan found) := by
  refine within_free ?_
  rw [Catalog.finishScan, apply_ite holding]
  exact ite_congr rfl (fun _ => rfl) fun _ => rfl

/-- Without files a scan ends at once, and it needs the lock only then. -/
theorem readFiles_free (c : Catalog) (scan : Scan) (paths : List Text) :
    (free c).readFiles scan paths = settled (c.readFiles scan paths) := by
  unfold readFiles Catalog.readFiles
  split
  · exact finishScan_free c scan []
  · rfl

/-- The beginning of a scan changes all but the index, so there is no lock to be held over its
end. -/
theorem beginScan_free (c : Catalog) : (free c).beginScan = settled c.beginScan := by
  unfold beginScan
  by_cases h : c.scope = .current
  · rw [Catalog.beginScan_of_current h]
    simp only [free, h, if_true]
    exact readFiles_free c.scanning _ _
  · rw [Catalog.beginScan_of_ne_current h]
    simp only [free, h, if_false]
    rfl

/-! ## Settings -/

/-- Settings come into force without the index. -/
theorem index_apply (c : Catalog) (settings : Settings) :
    (c.apply settings).1.index = c.index := by
  unfold Catalog.apply
  split <;> rfl

/-- Clears the index. -/
def clear (g : Guarded) : Option (Guarded × Next) :=
  g.within fun g => do
    let g ← g.write fun c => { c with index := {} }
    return (g, .tell .settingsLoaded)

/-- Goes on with a reload when the settings are there. -/
def finishLoad (g : Guarded) (settings : Settings) : Option (Guarded × Next) :=
  let applied := g.keep (g.catalog.apply settings).1 (index_apply _ _)
  match (g.catalog.apply settings).2 with
  | .ok _ => applied.clear
  | .error fault => some (applied, .fail fault)

/-- Begins a reload. -/
def beginLoad (g : Guarded) : Option (Guarded × Next) :=
  let raised := g.keep { g.catalog with generation := g.catalog.generation + 1 } rfl
  if g.catalog.hasFile then some (raised, .load) else raised.clear

theorem clear_free (c : Catalog) : (free c).clear = settled c.clear := within_free rfl

/-- Settings come into force without the lock; only the index is cleared under it. -/
theorem finishLoad_free (c : Catalog) (settings : Settings) :
    (free c).finishLoad settings = settled (c.finishLoad settings).1 := by
  simp only [finishLoad, keep, Catalog.finishLoad]
  have hcatalog : (free c).catalog = c := rfl
  rw [hcatalog]
  obtain ⟨applied, fault | warnings⟩ := c.apply settings
  · rfl
  · exact clear_free applied

/-- A reload waits for its settings without the lock. -/
theorem beginLoad_free (c : Catalog) : (free c).beginLoad = settled c.beginLoad := by
  rw [Catalog.beginLoad, apply_ite settled]
  exact ite_congr rfl (fun _ => rfl) fun _ => clear_free _

/-! ## Files -/

/-- Ends the update of a file: under the lock it is seen whether it comes too late. -/
def finishUpdate (g : Guarded) (update : Update) (notes : List Note) : Option (Guarded × Next) :=
  g.within fun g =>
    if g.catalog.isStale update then some (g, .done true)
    else if notes.isEmpty && !g.catalog.index.contains update.path then some (g, .done true)
    else do
      let g ← g.write fun c =>
        { c with index := c.index.update update.path notes }.touch update.path
      return (g, .tell .notesUpdated)

/-- Goes on with the update of a file when the file was examined. -/
def afterRead (g : Guarded) (update : Update) : Found → Option (Guarded × Next)
  | .ok (some notes) => g.finishUpdate update notes
  | .ok none => some (g, .done true)
  | .error fault => some (g, .fail fault)

/-- Begins the update of a file that was modified or added. -/
def beginUpdate (g : Guarded) (disk : Disk) (path : Text) : Option (Guarded × Next) :=
  if g.catalog.workspace.isSettingsFile path then g.beginLoad
  else match g.catalog.workspace.accepts disk path with
    | .error fault => some (g, .fail (.disk fault))
    | .ok false =>
      g.within fun g => do
        let listed := g.catalog.index.contains path
        let g ← g.write fun c => c.drop path
        return (g, if listed then .tell .notesUpdated else .done true)
    | .ok true =>
      if g.catalog.scope = .current ∧ g.catalog.active ≠ some path then some (g, .done true)
      else some (g, .update (g.catalog.newUpdate path))

/-- Does what a deleted file asks for. -/
def deleteFile (g : Guarded) (path : Text) : Option (Guarded × Next) :=
  if g.catalog.workspace.isSettingsFile path then g.beginLoad
  else if g.catalog.workspace.inScope path then
    g.within fun g => do
      let g ← g.write fun c => c.drop path
      return (g, .tell .notesUpdated)
  else some (g, .done true)

/-- Does what a renamed file asks for. -/
def renameFile (g : Guarded) (old new : Text) : Option (Guarded × Next) :=
  if g.catalog.workspace.isSettingsFile old || g.catalog.workspace.isSettingsFile new then
    g.beginLoad
  else if g.catalog.workspace.inScope old || g.catalog.workspace.inScope new then
    if g.catalog.scope = .current ∧ g.catalog.active = some old then
      (g.keep { g.catalog with active := some new } rfl).beginScan
    else g.beginScan
  else some (g, .done true)

/-- The notes of a file are taken in under the lock, in which it is also seen whether they come too
late. -/
theorem finishUpdate_free (c : Catalog) (update : Update) (notes : List Note) :
    (free c).finishUpdate update notes = settled (c.finishUpdate update notes) := by
  refine within_free ?_
  rw [Catalog.finishUpdate, apply_ite holding, apply_ite holding]
  exact ite_congr rfl (fun _ => rfl) fun _ => ite_congr rfl (fun _ => rfl) fun _ => rfl

/-- A read that found nothing or failed leaves the lock alone. -/
theorem afterRead_free (c : Catalog) (update : Update) (found : Found) :
    (free c).afterRead update found = settled (c.afterRead update found) := by
  rcases found with fault | _ | notes
  · rfl
  · rfl
  · exact finishUpdate_free c update notes

/-- A file that is not accepted is dropped under the lock; all else is settled before. -/
theorem beginUpdate_free (c : Catalog) (disk : Disk) (path : Text) :
    (free c).beginUpdate disk path = settled (c.beginUpdate disk path) := by
  rw [Catalog.beginUpdate, apply_ite settled]
  refine ite_congr rfl (fun _ => beginLoad_free c) fun _ => ?_
  have hcatalog : (free c).catalog = c := rfl
  rw [hcatalog]
  rcases c.workspace.accepts disk path with fault | _ | _
  · rfl
  · exact within_free rfl
  · simp only [apply_ite settled]
    exact ite_congr rfl (fun _ => rfl) fun _ => rfl

/-- A deleted file is dropped under the lock. -/
theorem deleteFile_free (c : Catalog) (path : Text) :
    (free c).deleteFile path = settled (c.deleteFile path) := by
  rw [Catalog.deleteFile, apply_ite settled, apply_ite settled]
  refine ite_congr rfl (fun _ => beginLoad_free c) fun _ => ?_
  exact ite_congr rfl (fun _ => within_free rfl) fun _ => rfl

/-- A renamed file has the project scanned, and takes no lock for itself. -/
theorem renameFile_free (c : Catalog) (old new : Text) :
    (free c).renameFile old new = settled (c.renameFile old new) := by
  rw [Catalog.renameFile, apply_ite settled, apply_ite settled, apply_ite settled]
  refine ite_congr rfl (fun _ => beginLoad_free c) fun _ => ?_
  refine ite_congr rfl (fun _ => ?_) fun _ => rfl
  exact ite_congr rfl (fun _ => beginScan_free _) fun _ => beginScan_free c

/-! ## Requests -/

/-- Changes the scope. -/
def changeScope (g : Guarded) (scope : Scope) : Option (Guarded × Next) :=
  if scope = g.catalog.scope then some (g, .done true)
  else (g.keep { g.catalog with settings := g.catalog.settings.withScope scope } rfl).beginScan

/-- Changes the active document. -/
def changeActive (g : Guarded) (path : Option Text) : Option (Guarded × Next) :=
  let active := (path.filter (!·.isEmpty)).map g.catalog.workspace.normalize
  let turned := g.keep { g.catalog with active } rfl
  if g.catalog.scope = .current then turned.beginScan else some (turned, .done true)

/-- Goes on with a request when observers were told. -/
def afterTold (g : Guarded) : Topic → Option (Guarded × Next)
  | .settingsLoaded => g.beginScan
  | .notesUpdated => some (g, .done true)

/-- Begins a request. -/
def begin (g : Guarded) (disk : Disk) : Request → Option (Guarded × Next)
  | .rescan => g.beginScan
  | .reload => g.beginLoad
  | .setScope scope => g.changeScope scope
  | .setActive path => g.changeActive path
  | .file (.modified path) => g.beginUpdate disk (g.catalog.workspace.normalize path)
  | .file (.deleted path) => g.deleteFile (g.catalog.workspace.normalize path)
  | .file (.renamed old new) =>
    g.renameFile (g.catalog.workspace.normalize old) (g.catalog.workspace.normalize new)

/-- When observers were told, the lock is free, so the scan after a reload can take it. -/
theorem afterTold_free (c : Catalog) (topic : Topic) :
    (free c).afterTold topic = settled (c.afterTold topic) := by
  cases topic with
  | settingsLoaded => exact beginScan_free c
  | notesUpdated => rfl

/-- **Requests and the lock.**  Whatever is asked for, the first step finds the lock free and leaves
it so. -/
theorem begin_free (c : Catalog) (disk : Disk) (request : Request) :
    (free c).begin disk request = settled (c.begin disk request) := by
  cases request with
  | rescan => exact beginScan_free c
  | reload => exact beginLoad_free c
  | setScope scope =>
      rw [Catalog.begin, Catalog.changeScope, apply_ite settled]
      exact ite_congr rfl (fun _ => rfl) fun _ => beginScan_free _
  | setActive path =>
      rw [Catalog.begin, Catalog.changeActive, apply_ite settled]
      exact ite_congr rfl (fun _ => beginScan_free _) fun _ => rfl
  | file event =>
      cases event with
      | modified path => exact beginUpdate_free c disk _
      | deleted path => exact deleteFile_free c _
      | renamed old new => exact renameFile_free c _ _

/-! ## Runs -/

open Indexer (Legal Move)

/-- What a turn of an indexer does to its catalog, with the lock. -/
def take (x : Indexer) (turn : Turn) (g : Guarded) : Option (Guarded × Next) :=
  let wait? (id : JobId) : Option Indexer.Wait := (x.jobs.find? (·.id = id)).map (·.wait)
  let nothing : Option (Guarded × Next) := some (g, .done true)
  match turn.move with
  | .start _ (request :: _) => g.begin turn.disk request
  | .start _ [] => nothing
  | .settings id (.ok settings) =>
    match wait? id with
    | some .settings => g.finishLoad settings
    | _ => nothing
  | .settings _ (.error _) => nothing
  | .list id (.ok paths) =>
    match wait? id with
    | some (.list scan) => g.readFiles scan paths
    | _ => nothing
  | .list _ (.error _) => nothing
  | .text ticket text =>
    match x.updateFor? ticket with
    | some update => g.afterRead update (Catalog.examine update.vocabulary update.path text).1
    | none => nothing
  | .gather id =>
    match wait? id with
    | some (.reads scan tickets none) =>
      match x.foundBy tickets with
      | some found => g.finishScan scan found
      | none => nothing
    | _ => nothing
  | .told id =>
    match wait? id with
    | some (.observers topic) => g.afterTold topic
    | _ => nothing

/-- What the turns of a run do to a catalog, with the lock. -/
def run : Indexer → List Turn → Guarded → Option Guarded
  | _, [], g => some g
  | x, turn :: rest, g => do
    let (g, _) ← g.take x turn
    run (x.after turn) rest g

variable {x y : Indexer} {turn : Turn} {turns rest : List Turn}

/-- A call without requests to follow leaves the catalog as its step has left it. -/
theorem goOn_catalog (disk : Disk) (id : JobId) (y : Indexer) (request : Request) (next : Next) :
    (Indexer.goOn disk id [] y request next).1.catalog = y.catalog := by
  cases next <;> rfl

/-- A single call that goes on takes its step of the catalog and no other. -/
theorem resume_catalog (h : x.Sane) (disk : Disk) {job : Indexer.Job} (hj : job ∈ x.jobs)
    (hy : y.catalog = x.catalog) (step : Catalog → Catalog × Next) :
    (y.resume disk job step).1.catalog = (step x.catalog).1 := by
  rw [Indexer.resume, h.single job hj, hy]
  exact goOn_catalog disk job.id _ job.request _

/-- A turn finds the lock free, does to the catalog what it does without a lock, and leaves the lock
free. -/
def KeepsFree (x : Indexer) (turn : Turn) : Prop :=
  ∃ next, (free x.catalog).take x turn = some (free (x.after turn).catalog, next)

/-- A turn that does the step of a catalog keeps the lock free. -/
theorem exists_free {result : Option (Guarded × Next)} {step : Catalog × Next} {after : Catalog}
    (h : result = settled step) (hafter : after = step.1) :
    ∃ next, result = some (free after, next) :=
  ⟨step.2, hafter ▸ h⟩

/-- So does a turn that does nothing. -/
theorem exists_free_of_eq {c after : Catalog} (hafter : after = c) :
    ∃ next, some (free c, Next.done true) = some (free after, next) :=
  ⟨.done true, hafter ▸ rfl⟩

/-- A call begins with the first step of its request. -/
theorem keepsFree_start (x : Indexer) (disk : Disk) (id : JobId) (request : Request) :
    KeepsFree x ⟨disk, .start id [request]⟩ :=
  exists_free (begin_free x.catalog disk request) (goOn_catalog disk id _ request _)

/-- A text is for the update that waits for it, and otherwise it is only kept. -/
theorem keepsFree_text (h : x.Sane) (disk : Disk) (ticket : Ticket)
    (text : Except Document.Fault Text) : KeepsFree x ⟨disk, .text ticket text⟩ := by
  unfold KeepsFree Indexer.after take
  rcases h.text_cases disk ticket text with
    ⟨hnone, -, hcatalog, -, -⟩ | ⟨job, update, -, -, hsome, hresumes⟩
  · simp only [hnone]
    exact exists_free_of_eq hcatalog
  · simp only [hsome]
    exact exists_free (afterRead_free x.catalog update _) hresumes.catalog

/-- With an outcome that no job waits for, nothing is done. -/
theorem take_of_unheard (g : Guarded) (disk : Disk) {move : Move} {id : JobId}
    (hid : move.job? = some id)
    (hno : ∀ job, x.jobs.find? (·.id = id) = some job → job.wait.hears move = false) :
    g.take x ⟨disk, move⟩ = some (g, .done true) := by
  unfold take
  cases hj : x.jobs.find? (·.id = id) with
  | none =>
      cases move with
      | start who requests => cases hid
      | text ticket text => cases hid
      | settings who loaded => cases hid; cases loaded <;> simp only [hj, Option.map_none]
      | list who paths => cases hid; cases paths <;> simp only [hj, Option.map_none]
      | _ => cases hid; simp only [hj, Option.map_none]
  | some job =>
      have hdeaf := hno job hj
      cases move with
      | start who requests => cases hid
      | text ticket text => cases hid
      | settings who loaded =>
          cases hid
          cases loaded <;> cases hw : job.wait <;> simp_all [Indexer.Wait.hears]
      | list who paths =>
          cases hid
          cases paths <;> cases hw : job.wait <;> simp_all [Indexer.Wait.hears]
      | _ => cases hid; cases hw : job.wait <;> simp_all [Indexer.Wait.hears]

/-- The job that an outcome is for takes its step of the catalog under the lock. -/
theorem keepsFree_reply (h : x.Sane) (disk : Disk) {move : Move} {id : JobId}
    (hid : move.job? = some id) : KeepsFree x ⟨disk, move⟩ := by
  unfold KeepsFree Indexer.after
  rcases x.replies_step disk hid with ⟨hquiet, hno⟩ | ⟨job, hj, rfl, hreplies⟩
  · rw [take_of_unheard _ disk hid hno, hquiet]
    exact exists_free_of_eq rfl
  · obtain ⟨hm, -⟩ := Indexer.find?_id_eq_some hj
    generalize x.step disk move = result at hreplies
    cases hreplies with
    | notLoaded hw fault =>
        exact exists_free_of_eq (resume_catalog h disk hm rfl fun c => (c, .fail (.settings fault)))
    | loaded hw settings =>
        simp only [take, hj, Option.map_some, hw]
        exact exists_free (finishLoad_free x.catalog settings)
          (resume_catalog h disk hm rfl fun c => (c.finishLoad settings).1)
    | notListed scan hw fault =>
        exact exists_free_of_eq (resume_catalog h disk hm rfl fun c => (c, .fail (.disk fault)))
    | listed scan hw paths =>
        simp only [take, hj, Option.map_some, hw]
        exact exists_free (readFiles_free x.catalog scan paths)
          (resume_catalog h disk hm rfl fun c => c.readFiles scan paths)
    | notGathered scan tickets fault hw =>
        simp only [take, hj, Option.map_some, hw]
        exact exists_free_of_eq
          (resume_catalog (y := x.dropEnded tickets) h disk hm rfl fun c => (c, .fail fault))
    | pending scan tickets hw hnone =>
        simp only [take, hj, Option.map_some, hw, hnone]
        exact exists_free_of_eq rfl
    | gathered scan tickets found hw hfound =>
        simp only [take, hj, Option.map_some, hw, hfound]
        have hresumed := resume_catalog (y := x.dropEnded tickets) h disk hm rfl
          fun c => c.finishScan scan found
        exact exists_free (finishScan_free x.catalog scan found) hresumed
    | told topic hw =>
        simp only [take, hj, Option.map_some, hw]
        exact exists_free (afterTold_free x.catalog topic)
          (resume_catalog h disk hm rfl fun c => c.afterTold topic)

/-- No turn finds the lock taken or leaves it so. -/
theorem take_free (h : Legal x (turn :: rest)) : KeepsFree x turn := by
  obtain ⟨disk, move⟩ := turn
  cases move with
  | start id requests =>
      obtain ⟨request, rfl⟩ := h.single _ List.mem_cons_self id requests rfl
      exact keepsFree_start x disk id request
  | text ticket text => exact keepsFree_text h.sane disk ticket text
  | settings id loaded => exact keepsFree_reply h.sane disk rfl
  | list id paths => exact keepsFree_reply h.sane disk rfl
  | gather id => exact keepsFree_reply h.sane disk rfl
  | told id => exact keepsFree_reply h.sane disk rfl

/-- However calls are interleaved, no turn finds the lock taken, and after the run it is free. -/
theorem run_free (h : Legal x turns) :
    run x turns (free x.catalog) = some (free (x.run turns).catalog) := by
  induction turns generalizing x with
  | nil => rfl
  | cons turn rest ih =>
      obtain ⟨next, hnext⟩ := take_free h
      rw [run, hnext]
      exact ih h.next.1

end Guarded

end Marginalia
