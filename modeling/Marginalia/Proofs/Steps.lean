import Marginalia.Catalog
import Marginalia.Proofs.Frame
import Marginalia.Proofs.Index
import Marginalia.Proofs.Listing

/-!
# The steps of a catalog

What the first step of a request can be (`Catalog.begins`), what a scan is when it begins
(`Catalog.beginScan_of_current`, `Catalog.beginScan_of_ne_current`), and how the number of the
generation counts the scans (`Catalog.Counts`).  The proofs about requests that are met alone and
about those that are interleaved start from here and do not look into the steps again.
-/

namespace Marginalia

namespace Catalog

/-- A catalog when a scan has begun. -/
def scanning (c : Catalog) : Catalog := { c with generation := c.generation + 1, touched := [] }

/-- What a scan keeps that begins now. -/
def newScan (c : Catalog) (keepEmpty : Bool) : Scan :=
  { generation := c.generation + 1, vocabulary := c.vocabulary, keepEmpty }

/-- What an update keeps that begins now. -/
def newUpdate (c : Catalog) (path : Text) : Update :=
  { path, generation := c.generation, epoch := c.epoch, vocabulary := c.vocabulary }

variable {c : Catalog}

/-- In the current scope, a scan knows its files at once. -/
theorem beginScan_of_current (h : c.scope = .current) :
    c.beginScan = c.scanning.readFiles (c.newScan true) c.active.toList := by
  have hs : c.settings.scope = .current := h
  simp [beginScan, scope, hs, scanning, newScan]

/-- In any other scope, a scan waits for the list of its files. -/
theorem beginScan_of_ne_current (h : c.scope ≠ .current) :
    c.beginScan = (c.scanning, .list (c.newScan false)) := by
  have hs : c.settings.scope ≠ .current := h
  unfold beginScan
  cases hc : c.settings.scope with
  | current => exact absurd hc hs
  | project => simp [scope, hc, scanning, newScan]
  | other name => simp [scope, hc, scanning, newScan]

/-- A touched path was touched before, or is the one that was touched last. -/
theorem mem_touch {path other : Text} :
    other ∈ (c.touch path).touched ↔ other ∈ c.touched ∨ other = path := by
  simp only [touch]
  split
  · rename_i hm
    refine ⟨.inl, fun h => h.elim id ?_⟩
    intro heq
    obtain rfl := heq
    simpa using hm
  · simp

/-- A path that is dropped has no notes then, and no other path has lost its own. -/
theorem notesAt_drop (c : Catalog) (path other : Text) :
    (c.drop path).index.notesAt other = if other = path then [] else c.index.notesAt other :=
  Index.notesAt_remove c.index path other

/-- An update that has begun under what is in force does not come too late. -/
theorem isStale_newUpdate (c : Catalog) (path : Text) : c.isStale (c.newUpdate path) = false := by
  simp [isStale, newUpdate]

/-- An update that does not come too late is skipped if it finds no notes in a file without an
entry; otherwise its notes are taken in and its path is touched. -/
theorem finishUpdate_cases {update : Update} (notes : List Note)
    (hfresh : c.isStale update = false) :
    (notes = [] ∧ c.index.get? update.path = none ∧ (c.finishUpdate update notes).1 = c) ∨
      ((notes ≠ [] ∨ c.index.get? update.path ≠ none) ∧ (c.finishUpdate update notes).1 =
        { c with index := c.index.update update.path notes }.touch update.path) := by
  unfold finishUpdate
  rw [if_neg (by simp [hfresh])]
  by_cases hskip : notes = [] ∧ c.index.get? update.path = none
  · obtain ⟨rfl, hnone⟩ := hskip
    refine .inl ⟨rfl, hnone, ?_⟩
    rw [if_pos (by simp [Index.contains, hnone])]
  · refine .inr ⟨?_, ?_⟩
    · by_cases hn : notes = []
      · exact .inr fun hnone => hskip ⟨hn, hnone⟩
      · exact .inl hn
    · rw [if_neg]
      simpa [Index.contains] using hskip

/-- After an update that does not come too late, its notes are those of its file. -/
theorem notesAt_finishUpdate {update : Update} (notes : List Note)
    (hfresh : c.isStale update = false) :
    (c.finishUpdate update notes).1.index.notesAt update.path = notes := by
  rcases finishUpdate_cases notes hfresh with ⟨rfl, hnone, heq⟩ | ⟨-, heq⟩
  · rw [heq]
    exact Index.notesAt_of_get?_eq_none hnone
  · rw [heq]
    exact (Index.notesAt_update _ _ _ _).trans (if_pos rfl)

/-- An update concerns no other path. -/
theorem notesAt_finishUpdate_of_ne {update : Update} (notes : List Note) {other : Text}
    (hne : other ≠ update.path) :
    (c.finishUpdate update notes).1.index.notesAt other = c.index.notesAt other := by
  unfold finishUpdate
  split
  · rfl
  split
  · rfl
  · exact (Index.notesAt_update _ _ _ _).trans (if_neg hne)

/-- The same catalog in another scope and with another active document. -/
def turnedTo (c : Catalog) (scope : Scope) (active : Option Text) : Catalog :=
  { c with settings := c.settings.withScope scope, active }

/-- The scan that is under way. -/
def Next.scan? : Next → Option Scan
  | .list scan => some scan
  | .read scan _ => some scan
  | _ => none

/-- The files that a scan has still to read. -/
def Next.paths : Next → List Text
  | .read _ paths => paths
  | _ => []

/-- Whether settings are being loaded, or observers told of it. -/
def Next.isReload : Next → Prop
  | .load => True
  | .tell .settingsLoaded => True
  | _ => False

/-- How a step counts the generations: it begins no scan, or a new generation, and then its scan is
of that one. -/
inductive Counts (generation : Nat) (step : Catalog × Next) : Prop
  | same (eq : step.1.generation = generation) (scan : step.2.scan? = none)
  | raised (eq : step.1.generation = generation + 1)
      (scan : ∀ scan, step.2.scan? = some scan → scan.generation = generation + 1)

/-- No step lowers the generation. -/
theorem Counts.le {generation : Nat} {step : Catalog × Next} (h : Counts generation step) :
    generation ≤ step.1.generation := by
  cases h with
  | same hg hs => exact Nat.le_of_eq hg.symm
  | raised hg hs => exact hg ▸ Nat.le_succ _

/-- A scan waits for something, or it has no files and is merged at once. -/
theorem beginScan_cases (c : Catalog) :
    (∃ keepEmpty, c.beginScan.2.scan? = some (c.newScan keepEmpty) ∧
      c.beginScan.1 = c.scanning) ∨
      c.beginScan = ({ c.scanning with index := {} }, .tell .notesUpdated) := by
  by_cases h : c.scope = .current
  · rw [beginScan_of_current h]
    cases c.active with
    | none =>
        refine .inr ?_
        simp [readFiles, finishScan, Catalog.scanning, newScan, mergeTouched, scannedEntries,
          Index.ofEntries]
    | some path => exact .inl ⟨_, rfl, rfl⟩
  · rw [beginScan_of_ne_current h]
    exact .inl ⟨_, rfl, rfl⟩

/-- A scan that has begun is remembered, nothing is touched, and all else is as it was. -/
theorem beginScan_fst (c : Catalog) : ∃ index, c.beginScan.1 = { c.scanning with index } := by
  rcases c.beginScan_cases with ⟨keepEmpty, -, hc⟩ | heq
  · exact ⟨c.index, hc⟩
  · exact ⟨{}, congrArg Prod.fst heq⟩

/-- A scan begins a generation. -/
theorem beginScan_generation (c : Catalog) : c.beginScan.1.generation = c.generation + 1 := by
  obtain ⟨index, h⟩ := c.beginScan_fst
  rw [h]
  rfl

/-- A scan brings no vocabulary into force. -/
theorem beginScan_epoch (c : Catalog) : c.beginScan.1.epoch = c.epoch := by
  obtain ⟨index, h⟩ := c.beginScan_fst
  rw [h]
  rfl

/-- A scan keeps the scope. -/
theorem beginScan_scope (c : Catalog) : c.beginScan.1.scope = c.scope := by
  obtain ⟨index, h⟩ := c.beginScan_fst
  rw [h]
  rfl

/-- After a scan has begun, nothing is touched. -/
theorem beginScan_touched (c : Catalog) : c.beginScan.1.touched = [] := by
  obtain ⟨index, h⟩ := c.beginScan_fst
  rw [h]
  rfl

/-- The scan is of the generation that it begins. -/
theorem counts_beginScan (c : Catalog) : Counts c.generation c.beginScan := by
  refine .raised c.beginScan_generation fun scan hs => ?_
  rcases c.beginScan_cases with ⟨keepEmpty, hscan, -⟩ | heq
  · obtain rfl := Option.some.inj (hscan.symm.trans hs)
    rfl
  · rw [heq] at hs
    cases hs

/-- An update ends; it begins nothing new. -/
theorem afterRead_kept (c : Catalog) (update : Update) (found : Found) :
    (c.afterRead update found).1.generation = c.generation ∧
      (c.afterRead update found).1.epoch = c.epoch ∧
        ((c.afterRead update found).2 = .done true ∨
          (c.afterRead update found).2 = .tell .notesUpdated ∨
          ∃ fault, (c.afterRead update found).2 = .fail fault) := by
  cases found with
  | error fault => exact ⟨rfl, rfl, .inr (.inr ⟨fault, rfl⟩)⟩
  | ok notes? =>
      cases notes? with
      | none => exact ⟨rfl, rfl, .inl rfl⟩
      | some notes =>
          simp only [afterRead, finishUpdate]
          split
          · exact ⟨rfl, rfl, .inl rfl⟩
          · split
            · exact ⟨rfl, rfl, .inl rfl⟩
            · exact ⟨rfl, rfl, .inr (.inl rfl)⟩

/-- Without a settings file to look into, a reload takes its second step at once. -/
theorem beginLoad_eq (c : Catalog) :
    c.beginLoad = if c.hasFile then ({ c with generation := c.generation + 1 }, .load)
      else ({ c with generation := c.generation + 1, index := {} }, .tell .settingsLoaded) := rfl

/-- A reload begins a generation and no scan. -/
theorem counts_beginLoad (c : Catalog) : Counts c.generation c.beginLoad := by
  rw [beginLoad_eq]
  split
  · exact .raised rfl fun scan hs => by cases hs
  · exact .raised rfl fun scan hs => by cases hs

/-- It raises the number by one. -/
theorem beginLoad_generation (c : Catalog) : c.beginLoad.1.generation = c.generation + 1 := by
  rw [beginLoad_eq]
  split <;> rfl

/-- It brings no vocabulary into force, for its settings are still to come. -/
theorem beginLoad_epoch (c : Catalog) : c.beginLoad.1.epoch = c.epoch := by
  rw [beginLoad_eq]
  split <;> rfl

/-- New settings come into force, unless their tags cannot be used at all. -/
theorem finishLoad_cases (c : Catalog) (settings : Settings) :
    (∃ vocabulary, (c.finishLoad settings).1 =
      ({ c with
          settings, vocabulary, epoch := c.epoch + 1, index := {}
          workspace := c.workspace.configure settings.search }, .tell .settingsLoaded)) ∨
      ∃ fault, (c.finishLoad settings).1 = ({ c with settings }, .fail fault) := by
  unfold finishLoad apply
  cases settings.vocabularyWithWarnings with
  | error fault => exact .inr ⟨_, rfl⟩
  | ok result => exact .inl ⟨_, rfl⟩

/-- What the first step of a request can be. -/
inductive Begins (c : Catalog) : Catalog × Next → Prop
  | scan (scope : Scope) (active : Option Text) : Begins c (c.turnedTo scope active).beginScan
  | load : Begins c c.beginLoad
  | activate (active : Option Text) (hscope : c.scope ≠ .current) :
    Begins c ({ c with active }, .done true)
  | drop (path : Text) (next : Next) (hnext : next = .tell .notesUpdated ∨ next = .done true) :
    Begins c (c.drop path, next)
  | update (path : Text) (hfile : c.workspace.isSettingsFile path = false)
      (hscope : c.workspace.inScope path = true)
      (hactive : c.scope = .current → c.active = some path) :
    Begins c (c, .update (c.newUpdate path))
  | done : Begins c (c, .done true)
  | fail (fault : Fault) : Begins c (c, .fail fault)

/-- **Scans are counted.**  Whatever a request begins with, the generations are counted. -/
theorem Begins.counts {step : Catalog × Next} (h : Begins c step) :
    Counts c.generation step := by
  cases h with
  | scan scope active => exact counts_beginScan (c.turnedTo scope active)
  | load => exact counts_beginLoad c
  | activate active hscope => exact .same rfl rfl
  | drop path next hnext => exact .same rfl (by rcases hnext with rfl | rfl <;> rfl)
  | update path hfile hscope hactive => exact .same rfl rfl
  | done => exact .same rfl rfl
  | fail fault => exact .same rfl rfl

/-- Only scans and reloads begin a generation. -/
theorem Begins.raised {step : Catalog × Next} (h : Begins c step)
    (hlt : c.generation < step.1.generation) :
    (∃ scope active, step = (c.turnedTo scope active).beginScan) ∨ step = c.beginLoad := by
  cases h with
  | scan scope active => exact .inl ⟨scope, active, rfl⟩
  | load => exact .inr rfl
  | activate active hscope => exact absurd hlt (Nat.lt_irrefl _)
  | drop path next hnext => exact absurd hlt (Nat.lt_irrefl _)
  | update path hfile hscope hactive => exact absurd hlt (Nat.lt_irrefl _)
  | done => exact absurd hlt (Nat.lt_irrefl _)
  | fail fault => exact absurd hlt (Nat.lt_irrefl _)

/-- What begins without a generation of its own is no reload, and reads at most one file for an
update. -/
theorem Begins.settled {step : Catalog × Next} (h : Begins c step)
    (hg : step.1.generation = c.generation) :
    ¬ step.2.isReload ∧ step.2.paths = [] ∧
      ∀ update, step.2 = .update update →
        update.epoch = c.epoch ∧ c.workspace.inScope update.path = true := by
  cases h with
  | scan scope active =>
      rw [beginScan_generation] at hg
      exact absurd hg (Nat.succ_ne_self _)
  | load =>
      rw [beginLoad_generation] at hg
      exact absurd hg (Nat.succ_ne_self _)
  | activate active hscope => exact ⟨id, rfl, nofun⟩
  | drop path next hnext => rcases hnext with rfl | rfl <;> exact ⟨id, rfl, nofun⟩
  | update path hfile hscope hactive =>
      refine ⟨id, rfl, fun update hu => ?_⟩
      cases hu
      exact ⟨rfl, hscope⟩
  | done => exact ⟨id, rfl, nofun⟩
  | fail fault => exact ⟨id, rfl, nofun⟩

/-- No request brings a vocabulary into force with its first step. -/
theorem Begins.epoch {step : Catalog × Next} (h : Begins c step) : step.1.epoch = c.epoch := by
  cases h with
  | scan scope active => exact beginScan_epoch (c.turnedTo scope active)
  | load => exact beginLoad_epoch c
  | activate active hscope => rfl
  | drop path next hnext => rfl
  | update path hfile hscope hactive => rfl
  | done => rfl
  | fail fault => rfl

/-- The update of a file begins, if the file is accepted and is one to be shown. -/
theorem begins_beginUpdate (c : Catalog) (disk : Disk) (path : Text) :
    Begins c (c.beginUpdate disk path) := by
  unfold beginUpdate
  by_cases hs : c.workspace.isSettingsFile path
  · rw [if_pos hs]
    exact .load
  rw [if_neg hs]
  cases ha : c.workspace.accepts disk path with
  | error fault => exact .fail _
  | ok accepted =>
      cases accepted with
      | false =>
          refine .drop path _ ?_
          split
          · exact .inl rfl
          · exact .inr rfl
      | true =>
          simp only
          split
          · exact .done
          · rename_i hactive
            refine .update path (by simpa using hs) (Workspace.accepts_eq_true.1 ha).2.1 ?_
            intro hscope
            apply Classical.byContradiction
            exact fun hne => hactive ⟨hscope, hne⟩

/-- A deleted file is dropped if it is in scope, and the settings file loaded again. -/
theorem begins_deleteFile (c : Catalog) (path : Text) : Begins c (c.deleteFile path) := by
  unfold deleteFile
  split
  · exact .load
  · split
    · exact .drop path _ (.inl rfl)
    · exact .done

/-- For a renamed file there is a scan, if either name is in scope. -/
theorem begins_renameFile (c : Catalog) (old new : Text) : Begins c (c.renameFile old new) := by
  unfold renameFile
  split
  · exact .load
  · split
    · split
      · exact .scan c.scope (some new)
      · exact .scan c.scope c.active
    · exact .done

/-- **What a request begins with.**  Whatever is asked for, the first step is one of these. -/
theorem begins (c : Catalog) (disk : Disk) (request : Request) :
    Begins c (c.begin disk request) := by
  cases request with
  | rescan => exact .scan c.scope c.active
  | reload => exact .load
  | setScope scope =>
      simp only [begin, changeScope]
      split
      · exact .done
      · exact .scan scope c.active
  | setActive path =>
      simp only [begin, changeActive]
      split
      · exact .scan c.scope _
      · rename_i hscope
        exact .activate _ hscope
  | file event =>
      cases event with
      | modified path => exact begins_beginUpdate c disk _
      | deleted path => exact begins_deleteFile c _
      | renamed old new => exact begins_renameFile c _ _

/-! ## A small project -/

/-- A project folder without files. -/
def emptyProject : Disk := { items := [(["p"], .folder)] }

/-- The same folder with a note in it. -/
def filledProject : Disk :=
  { items := [(["p"], .folder), (["p", "a.py"], .file (Utf8.encode "# TODO: a\n"))] }

/-- The workspace of that folder. -/
def project : Workspace := .ofRoot (Path.ofText "/p")

/-- The root of the small project is absolute. -/
theorem project_isAbsolute : (Path.ofText "/p").isAbsolute = true := by
  decide +kernel

/-- A new catalog of that folder. -/
def opened : Catalog := ((ofSettings project).toOption.map Prod.fst).getD default

/-- What is there as an option is there as a result. -/
theorem exists_ok_of_toOption {ε α : Type} {result : Except ε α}
    (h : result.toOption.isSome = true) : ∃ value, result = .ok value := by
  cases result with
  | error fault => simp [Except.toOption] at h
  | ok value => exact ⟨value, rfl⟩

/-- And it is the same. -/
theorem eq_ok_of_toOption {ε α : Type} {result : Except ε α} {value : α}
    (h : result.toOption = some value) : result = .ok value := by
  cases result with
  | error fault => simp [Except.toOption] at h
  | ok found => rw [Option.some.inj h]

/-- The first settings have plain tags, so that no pattern has to be read to tell their
vocabulary. -/
theorem vocabulary_first :
    ({} : Settings).vocabulary = .ok (.ofPlain false ({} : Settings).tags, none) := by
  have hplain : ∀ tag ∈ ({} : Settings).tags, tag.IsPlain ∧ tag.name.strip ≠ [] := by
    unfold Tag.IsPlain
    decide +kernel
  exact Vocabulary.ofTags_of_isPlain hplain

/-- The tags that settings have at first are all plain. -/
theorem vocabularyWithWarnings_first :
    ({} : Settings).vocabularyWithWarnings = .ok (.ofPlain false ({} : Settings).tags, []) := by
  rw [Settings.vocabularyWithWarnings, vocabulary_first]
  rfl

/-- So the catalog that one begins with can be written down. -/
theorem ofSettings_first : ofSettings project = .ok ({
    workspace := project
    settings := {}
    vocabulary := .ofPlain false ({} : Settings).tags }, []) := by
  rw [ofSettings, vocabularyWithWarnings_first]
  rfl

/-- The small project, written down. -/
theorem opened_eq : opened = {
    workspace := project
    settings := {}
    vocabulary := .ofPlain false ({} : Settings).tags } := by
  rw [opened, ofSettings_first]
  rfl

/-- The small project is opened without a fault. -/
theorem ofSettings_project : ∃ warnings, ofSettings project = .ok (opened, warnings) :=
  ⟨[], by rw [opened_eq, ofSettings_first]⟩

end Catalog

end Marginalia
