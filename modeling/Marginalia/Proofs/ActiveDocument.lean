import Marginalia.Proofs.Alone
import Marginalia.Proofs.Frame

/-!
# The active document

In the current scope the index shows one file, the active document, wherever it lies: activating a
document reads it without asking whether a scan of the project would take it in.  The events of a
document do ask.  Here the two are compared: a document is made the active one and then goes through
changes, each of which the catalog is told of (`Catalog.Viewed`), and after each of them a scan is
held against what the event has left.

In all of these states the index is that of one document (`Index.ofDocument`), which
`Catalog.Viewed.views` says by induction on the changes.  `Catalog.event_agrees_with_rescan_iff`
then says when an event leaves what a scan would: an edited document has to be one that the project
takes in, a removed one has to lie in scope, and of a document that is moved the old or the new
path.  Elsewhere the index goes on showing what is gone, or stops showing what is there.
-/

namespace Marginalia

namespace Index

/-- The index of one document: its notes, if it could be read. -/
def ofDocument (path : Text) (notes? : Option (List Note)) : Index :=
  { entries := (notes?.map fun notes => { path, notes }).toList }

/-- The entries with notes. -/
def noted (index : Index) : List Entry := index.entries.filter (·.hasNotes)

variable {path : Text} {notes : List Note} {notes? others? : Option (List Note)}

/-- The document is in its index if it could be read. -/
@[simp] theorem contains_ofDocument : (ofDocument path notes?).contains path = notes?.isSome := by
  cases notes? <;> simp [ofDocument, contains, get?]

/-- Without its document, the index is empty. -/
@[simp] theorem remove_ofDocument :
    (ofDocument path notes?).remove path = ofDocument path none := by
  cases notes? <;> simp [ofDocument, remove]

/-- New notes of a document take the place of the old ones. -/
@[simp] theorem update_ofDocument :
    (ofDocument path notes?).update path notes = ofDocument path (some notes) := by
  cases notes? <;> simp [ofDocument, update, renewed, put, putIn, get?]

/-- What a scan of one document leaves is the index of that document. -/
theorem ofEntries_document :
    ofEntries (Catalog.scannedEntries true [(path, notes?)]) = ofDocument path notes? := by
  cases notes? <;> simp [Catalog.scannedEntries, ofDocument, ofEntries, put, putIn]

/-- What could not be read has no entry. -/
@[simp] theorem noted_ofDocument_none : (ofDocument path none).noted = [] := rfl

/-- A document without notes counts as much as one that could not be read. -/
theorem noted_ofDocument (path : Text) (notes? : Option (List Note)) :
    (ofDocument path notes?).noted =
      if (notes?.getD []).isEmpty then [] else [{ path, notes := notes?.getD [] }] := by
  cases notes? with
  | none => rfl
  | some notes => cases notes <;> rfl

/-- The same entries with notes are those of the same notes. -/
theorem noted_ofDocument_eq_iff :
    (ofDocument path notes?).noted = (ofDocument path others?).noted ↔
      notes?.getD [] = others?.getD [] := by
  rw [noted_ofDocument, noted_ofDocument]
  generalize notes?.getD [] = notes
  generalize others?.getD [] = others
  cases notes <;> cases others <;> simp

end Index

namespace Catalog

/-- What can become of the active document. -/
inductive DocumentChange where
  /-- It was written, to content that can be read. -/
  | edited
  | removed
  | moved (new : Text)
deriving DecidableEq

/-- What a catalog is told of a change. -/
def DocumentChange.event (path : Text) : DocumentChange → FileEvent
  | edited => .modified path
  | removed => .deleted path
  | moved new => .renamed path new

/-- The file at a path can be read, and these are its notes. -/
def Reads (c : Catalog) (disk : Disk) (path : Text) (notes : List Note) : Prop :=
  ∃ text, c.workspace.read disk path = .ok text ∧ c.vocabulary.notesIn path text = .ok notes

/-- There is nothing to be read at a path. -/
def Lacks (c : Catalog) (disk : Disk) (path : Text) : Prop :=
  ∃ fault, c.workspace.read disk path = .error fault ∧ fault.isRaised = false

/-- The disk is as a change leaves it, and the settings file has no part in it. -/
def Undergoes (c : Catalog) (disk : Disk) (path : Text) : DocumentChange → Prop
  | .edited => c.workspace.isSettingsFile path = false ∧ ∃ notes, c.Reads disk path notes
  | .removed => c.workspace.isSettingsFile path = false ∧ c.Lacks disk path
  | .moved new =>
    c.workspace.isSettingsFile path = false ∧
      c.workspace.isSettingsFile (c.workspace.normalize new) = false ∧
      c.workspace.normalize new ≠ path ∧ c.Lacks disk path ∧
      ((∃ notes, c.Reads disk (c.workspace.normalize new) notes) ∨
        c.Lacks disk (c.workspace.normalize new))

/-- The catalogs in which a document is the active one: it was activated, and its changes were told
in their turn. -/
inductive Viewed : Catalog → Text → Prop
  | activated {c : Catalog} {disk : Disk} {path : Text} {complete : Bool}
      (hscope : c.scope = .current) (hroot : c.workspace.root.IsPlain) (hpath : path ≠ [])
      (hanswer : (c.meet disk (.setActive (some path))).answer = .ok complete) :
      Viewed (c.meet disk (.setActive (some path))).catalog (c.workspace.normalize path)
  | changed {c : Catalog} {disk : Disk} {path active : Text} {change : DocumentChange}
      (hbefore : Viewed c path) (hchange : c.Undergoes disk path change)
      (hactive : (c.meet disk (.file (change.event path))).catalog.active = some active) :
      Viewed (c.meet disk (.file (change.event path))).catalog active

/-- What holds of a catalog in which a document is the active one. -/
structure Views (c : Catalog) (path : Text) : Prop where
  scope : c.scope = .current
  root : c.workspace.root.IsPlain
  active : c.active = some path
  normal : c.workspace.normalize path = path
  index : ∃ notes?, c.index = .ofDocument path notes?

variable {c d : Catalog} {disk : Disk} {path new : Text} {notes : List Note}

/-! ## Scans of the active document -/

/-- What is found in a file that can be read. -/
theorem Reads.examine (h : c.Reads disk path notes) :
    (examine c.vocabulary path (c.workspace.read disk path)).1 = .ok (some notes) := by
  obtain ⟨text, hread, hnotes⟩ := h
  rw [hread, examine_ok hnotes]

/-- A file has one list of notes. -/
theorem Reads.unique {others : List Note} (h : c.Reads disk path notes)
    (ho : c.Reads disk path others) : notes = others := by
  have he := h.examine.symm.trans ho.examine
  simpa using he

/-- What is found where there is nothing to be read. -/
theorem Lacks.examine (h : c.Lacks disk path) :
    (examine c.vocabulary path (c.workspace.read disk path)).1 = .ok none := by
  obtain ⟨fault, hread, hraised⟩ := h
  rw [hread, Catalog.examine, if_neg (by simp [hraised])]

/-- Something is found, or nothing, in a file that can be read or cannot. -/
theorem exists_examine (h : (∃ notes, c.Reads disk path notes) ∨ c.Lacks disk path) :
    ∃ notes?, (examine c.vocabulary path (c.workspace.read disk path)).1 = .ok notes? :=
  h.elim (fun ⟨notes, hr⟩ => ⟨some notes, hr.examine⟩) fun hl => ⟨none, hl.examine⟩

/-- In the current scope, a scan leaves the index of the active document. -/
theorem settle_beginScan_of_active (hs : c.scope = .current) (ha : c.active = some path)
    {notes? : Option (List Note)}
    (hf : (examine c.vocabulary path (c.workspace.read disk path)).1 = .ok notes?) (pauses : Nat) :
    (settle disk (pauses + 2) c.beginScan).answer = .ok true ∧
      (settle disk (pauses + 2) c.beginScan).catalog =
        { c.scanning with index := .ofDocument path notes? } := by
  have hg : gather (c.scanning.findings disk (c.newScan true).vocabulary [path]) =
      .ok [(path, notes?)] := gather_eq_ok.2 (by simpa [findings, scanning, newScan] using hf)
  rw [beginScan_of_current hs, ha, ← Index.ofEntries_document]
  exact settle_readFiles rfl rfl pauses hg

/-- A scan of the active document fails where looking into it does. -/
theorem settle_beginScan_of_error (hs : c.scope = .current) (ha : c.active = some path)
    {fault : Fault}
    (hf : (examine c.vocabulary path (c.workspace.read disk path)).1 = .error fault)
    (pauses : Nat) : (settle disk (pauses + 2) c.beginScan).answer = .error fault := by
  have hg : gather (c.scanning.findings disk (c.newScan true).vocabulary [path]) =
      .error fault := by
    have hf' : (examine c.scanning.vocabulary path (c.scanning.workspace.read disk path)).1 =
      .error fault := hf
    simp [findings, newScan, gather, hf, scanning, bind, Except.bind]
  rw [beginScan_of_current hs, ha]
  exact settle_readFiles_of_error (c := c.scanning) pauses hg

/-- A scan that is asked for is the scan that begins then. -/
theorem meet_rescan (c : Catalog) (disk : Disk) :
    c.meet disk .rescan = settle disk 5 c.beginScan := rfl

/-! ## Events of the active document -/

/-- A catalog goes on viewing a document while it keeps what is in force and shows no other file. -/
theorem Views.keep (h : c.Views path) (hk : c.Keeps d)
    (hi : ∃ notes?, d.index = .ofDocument path notes?) : d.Views path where
  scope := by rw [Catalog.scope, hk.settings]; exact h.scope
  root := hk.workspace ▸ h.root
  active := hk.active.trans h.active
  normal := hk.workspace ▸ h.normal
  index := hi

/-- Whether the project takes in a file that can be read can always be told. -/
theorem exists_accepts (h : c.Reads disk path notes) :
    ∃ accepted, c.workspace.accepts disk path = .ok accepted := by
  obtain ⟨text, hread, -⟩ := h
  obtain ⟨content, hc⟩ := Workspace.exists_of_read_eq_ok hread
  unfold Workspace.accepts
  split
  · exact ⟨false, rfl⟩
  · rw [Workspace.isFile, Disk.isFile_eq_true.2 ⟨content, hc⟩]
    exact ⟨_, rfl⟩

/-- An edited document goes from the index where the project does not take it in, and is brought up
to date where it does. -/
theorem Views.edited (h : c.Views path) (hp : c.workspace.isSettingsFile path = false)
    (hr : c.Reads disk path notes) :
    (c.meet disk (.file (.modified path))).answer = .ok true ∧
      c.Keeps (c.meet disk (.file (.modified path))).catalog ∧
      ∃ accepted notes?, c.workspace.accepts disk path = .ok accepted ∧
        (c.meet disk (.file (.modified path))).catalog.index = .ofDocument path notes? ∧
        notes?.getD [] = if accepted then notes else [] := by
  obtain ⟨shown?, hindex⟩ := h.index
  obtain ⟨accepted, hacc⟩ := exists_accepts hr
  have hbegin : c.meet disk (.file (.modified path)) = settle disk 5 (c.beginUpdate disk path) := by
    show settle disk 5 (c.beginUpdate disk (c.workspace.normalize path)) = _
    rw [h.normal]
  rw [hbegin, hacc]
  unfold beginUpdate
  rw [if_neg (by simp [hp]), hacc]
  cases accepted with
  | false =>
      have hgone : (c.drop path).index = .ofDocument path none := by simp [drop, touch, hindex]
      have hdone : (settle disk 5
          (c.drop path, if c.index.contains path then .tell .notesUpdated else .done true)).answer =
            .ok true ∧
          (settle disk 5 (c.drop path,
            if c.index.contains path then .tell .notesUpdated else .done true)).catalog =
            c.drop path := by
        split
        · exact settle_tell _ _
        · simp [settle]
      simp only [hdone]
      exact ⟨trivial, keeps_drop c path, false, none, rfl, hgone, rfl⟩
  | true =>
      simp only [h.active, ne_eq, not_true_eq_false, and_false, if_false]
      rw [settle_succ (by simp [Next.pausesLeft])]
      simp only [fulfil, hr.examine, afterRead, finishUpdate, isStale, Meeting.answer_after,
        Meeting.catalog_after]
      by_cases hempty : (notes.isEmpty && !c.index.contains path) = true
      · have hnone : notes = [] ∧ shown? = none := by simpa [hindex] using hempty
        simp only [ne_eq, not_true_eq_false, decide_false, Bool.false_and, Bool.or_self,
          Bool.false_eq_true, if_false, if_pos hempty, settle, finishWithin_done]
        exact ⟨trivial, Keeps.refl c, true, shown?, rfl, hindex, by rw [hnone.1, hnone.2]; rfl⟩
      · simp only [ne_eq, not_true_eq_false, decide_false, Bool.false_and, Bool.or_self,
          Bool.false_eq_true, if_false, if_neg hempty]
        rw [(settle_tell _ _).1, (settle_tell _ _).2]
        exact ⟨rfl, ⟨rfl, rfl, rfl, rfl, rfl⟩, true, some notes, rfl, by simp [touch, hindex], rfl⟩

/-- A removed document goes from the index if it lies in scope. -/
theorem Views.removed (h : c.Views path) (hp : c.workspace.isSettingsFile path = false)
    (disk : Disk) :
    (c.meet disk (.file (.deleted path))).answer = .ok true ∧
      c.Keeps (c.meet disk (.file (.deleted path))).catalog ∧
      (c.meet disk (.file (.deleted path))).catalog.index =
        if c.workspace.inScope path then .ofDocument path none else c.index := by
  obtain ⟨shown?, hindex⟩ := h.index
  have hbegin : c.meet disk (.file (.deleted path)) = settle disk 5 (c.deleteFile path) := by
    show settle disk 5 (c.deleteFile (c.workspace.normalize path)) = _
    rw [h.normal]
  rw [hbegin]
  unfold deleteFile
  rw [if_neg (by simp [hp])]
  split
  · rw [(settle_tell _ _).1, (settle_tell _ _).2]
    exact ⟨rfl, keeps_drop c path, by simp [drop, touch, hindex]⟩
  · simp only [settle, finishWithin_done]
    exact ⟨trivial, Keeps.refl c, trivial⟩

/-- The catalog in which a document is scanned that has become the active one. -/
def turned (c : Catalog) (path : Text) (notes? : Option (List Note)) : Catalog :=
  { ({ c with active := some path } : Catalog).scanning with index := .ofDocument path notes? }

/-- The document that was turned to is viewed. -/
theorem views_turned (hs : c.scope = .current) (hr : c.workspace.root.IsPlain) (path : Text)
    (notes? : Option (List Note)) :
    (c.turned (c.workspace.normalize path) notes?).Views (c.workspace.normalize path) where
  scope := hs
  root := hr
  active := rfl
  normal := Workspace.normalize_normalize hr path
  index := ⟨notes?, rfl⟩

/-- A moved document stays the active one if the old or the new path lies in scope, and else nothing
comes of it. -/
theorem Views.moved (h : c.Views path) (hp : c.workspace.isSettingsFile path = false)
    (hn : c.workspace.isSettingsFile (c.workspace.normalize new) = false)
    {notes? : Option (List Note)}
    (hf : (examine c.vocabulary (c.workspace.normalize new)
      (c.workspace.read disk (c.workspace.normalize new))).1 = .ok notes?) :
    (c.meet disk (.file (.renamed path new))).answer = .ok true ∧
      (c.meet disk (.file (.renamed path new))).catalog =
        if c.workspace.inScope path || c.workspace.inScope (c.workspace.normalize new) then
          c.turned (c.workspace.normalize new) notes?
        else c := by
  have hbegin : c.meet disk (.file (.renamed path new)) =
      settle disk 5 (c.renameFile path (c.workspace.normalize new)) := by
    show settle disk 5 (c.renameFile (c.workspace.normalize path) _) = _
    rw [h.normal]
  rw [hbegin]
  unfold renameFile
  rw [if_neg (by simp [hp, hn])]
  split
  · rw [if_pos ⟨h.scope, h.active⟩]
    exact settle_beginScan_of_active (c := { c with active := some (c.workspace.normalize new) })
      h.scope rfl hf 3
  · simp [settle]

/-! ## Changes of the active document -/

/-- What is kept through a change: the catalog views the document that is the active one then. -/
theorem Views.changed (h : c.Views path) {change : DocumentChange}
    (hc : c.Undergoes disk path change) {active : Text}
    (ha : (c.meet disk (.file (change.event path))).catalog.active = some active) :
    (c.meet disk (.file (change.event path))).catalog.Views active := by
  cases change with
  | edited =>
      obtain ⟨hp, notes, hr⟩ := hc
      obtain ⟨-, hk, -, notes?, -, hi, -⟩ := h.edited hp hr
      obtain rfl : path = active := Option.some.inj (h.active.symm.trans (hk.active.symm.trans ha))
      exact h.keep hk ⟨notes?, hi⟩
  | removed =>
      obtain ⟨hp, -⟩ := hc
      obtain ⟨-, hk, hi⟩ := h.removed hp disk
      obtain rfl : path = active := Option.some.inj (h.active.symm.trans (hk.active.symm.trans ha))
      refine h.keep hk ?_
      obtain ⟨shown?, hindex⟩ := h.index
      change ∃ notes?, (c.meet disk (.file (.deleted path))).catalog.index = _
      rw [hi]
      split
      · exact ⟨none, rfl⟩
      · exact ⟨shown?, hindex⟩
  | moved new =>
      obtain ⟨hp, hn, -, -, hfound⟩ := hc
      obtain ⟨notes?, hf⟩ := exists_examine hfound
      have hd := (h.moved hp hn hf).2
      change (c.meet disk (.file (.renamed path new))).catalog.Views active
      change (c.meet disk (.file (.renamed path new))).catalog.active = some active at ha
      rw [hd] at ha ⊢
      split at ha
      · rename_i hscope
        obtain rfl : c.workspace.normalize new = active := Option.some.inj ha
        rw [if_pos hscope]
        exact views_turned h.scope h.root new notes?
      · rename_i hscope
        obtain rfl : path = active := Option.some.inj (h.active.symm.trans ha)
        rw [if_neg hscope]
        exact h

/-- A document that was activated is viewed. -/
theorem views_activated (hs : c.scope = .current) (hr : c.workspace.root.IsPlain)
    (hp : path ≠ []) {complete : Bool}
    (h : (c.meet disk (.setActive (some path))).answer = .ok complete) :
    (c.meet disk (.setActive (some path))).catalog.Views (c.workspace.normalize path) := by
  have hbegin : c.meet disk (.setActive (some path)) =
      settle disk 5
        ({ c with active := some (c.workspace.normalize path) } : Catalog).beginScan := by
    have hchange : c.changeActive (some path) =
        ({ c with active := some (c.workspace.normalize path) } : Catalog).beginScan := by
      have hs' : c.settings.scope = .current := hs
      have hfilter : (some path).filter (fun text => !text.isEmpty) = some path := by
        simpa [Option.filter] using hp
      simp only [changeActive, hfilter, Option.map_some, scope, hs', if_true]
    exact congrArg (settle disk 5) hchange
  rw [hbegin] at h ⊢
  cases hf : (examine c.vocabulary (c.workspace.normalize path)
      (c.workspace.read disk (c.workspace.normalize path))).1 with
  | error fault =>
      have herror := settle_beginScan_of_error
        (c := { c with active := some (c.workspace.normalize path) }) hs rfl hf 3
      rw [herror] at h
      cases h
  | ok notes? =>
      have hscan := settle_beginScan_of_active
        (c := { c with active := some (c.workspace.normalize path) }) hs rfl hf 3
      rw [hscan.2]
      exact views_turned hs hr path notes?

/-- The active document is viewed, whatever became of it before. -/
theorem Viewed.views (h : Viewed c path) : c.Views path := by
  induction h with
  | activated hscope hroot hpath hanswer => exact views_activated hscope hroot hpath hanswer
  | changed hbefore hchange hactive ih => exact ih.changed hchange hactive

/-! ## Documents beside the project -/

/-- A text file. -/
def noteFile (text : Text) : Item := .file (Utf8.encode text)

/-- A project with a file and another in a folder that is left out, and what lies beside it. -/
def projectBeside (inside excluded : Text) (beside : List (Place × Item)) : Disk :=
  { items := (["p"], .folder) :: (["p", "a.py"], noteFile inside) ::
      (["p", "node_modules"], .folder) :: (["p", "node_modules", "b.py"], noteFile excluded) ::
      beside }

/-- A file beside the project. -/
def besideFile : Item := noteFile "# TODO: c\n"

/-- The files at first. -/
def firstFiles : Disk := projectBeside "# TODO: a\n" "# TODO: b\n" [(["c.py"], besideFile)]

/-- The files in the project were edited. -/
def editedFiles : Disk := projectBeside "# TODO: x\n" "# TODO: y\n" [(["c.py"], besideFile)]

/-- The file beside the project was removed. -/
def fewerFiles : Disk := projectBeside "# TODO: a\n" "# TODO: b\n" []

/-- The file beside the project was moved. -/
def movedFiles : Disk := projectBeside "# TODO: a\n" "# TODO: b\n" [(["d.py"], besideFile)]

/-- Settings with the current scope and one tag. -/
def currentSettings : Settings :=
  { tags := [{ name := "TODO" }], search := { scope := .current } }

/-- A new catalog of the project with these settings. -/
def openedCurrent : Catalog where
  workspace := project.configure currentSettings.search
  settings := currentSettings
  vocabulary := {
    caseSensitive := false
    tags := [{ name := "TODO" }]
    patterns := [("TODO", Frame.pattern (Vocabulary.flags false).rule "TODO")] }

theorem ofSettings_current : ofSettings project currentSettings = .ok (openedCurrent, []) := by
  have hstrip : Text.strip "TODO" = "TODO" := by decide +kernel
  have hname : Text.strip "TODO" ≠ [] := by decide +kernel
  have htags := @Tag.IsPlain.ofTags { name := "TODO" } rfl hname false
  rw [hstrip] at htags
  rw [ofSettings, Settings.vocabularyWithWarnings, Settings.vocabulary]
  simp only [currentSettings, htags]
  rfl

/-- The catalog when a document was activated. -/
def activated (path : Text) : Catalog :=
  (openedCurrent.meet firstFiles (.setActive (some path))).catalog

theorem openedCurrent_root : openedCurrent.workspace.root.IsPlain := by
  have hroot : openedCurrent.workspace.root = project.root := by decide +kernel
  exact hroot.symm ▸ Path.resolve_isPlain rfl (Path.ofText_parts "/p")

/-- The catalog views the document that was activated. -/
theorem viewed_activated {path : Text} (hpath : path ≠ [])
    (hnormal : openedCurrent.workspace.normalize path = path)
    (hanswer : ((openedCurrent.meet firstFiles (.setActive (some path))).answer).toOption.isSome =
      true) :
    Viewed (activated path) path := by
  obtain ⟨complete, h⟩ := exists_ok_of_toOption hanswer
  have hviewed := Viewed.activated (by decide +kernel) openedCurrent_root hpath h
  rwa [hnormal] at hviewed

/-- A file that can be read, as running the reader tells. -/
theorem exists_reads (h : ((c.workspace.read disk path).toOption.bind fun text =>
    (c.vocabulary.notesIn path text).toOption).isSome = true) :
    ∃ notes, c.Reads disk path notes := by
  obtain ⟨notes, h⟩ := Option.isSome_iff_exists.1 h
  obtain ⟨text, hread, hnotes⟩ := Option.bind_eq_some_iff.1 h
  obtain ⟨text', hread'⟩ := exists_ok_of_toOption (Option.isSome_of_eq_some hread)
  obtain ⟨notes', hnotes'⟩ := exists_ok_of_toOption (Option.isSome_of_eq_some hnotes)
  obtain rfl : text' = text := by simpa [hread', Except.toOption] using hread
  exact ⟨notes', text', hread', hnotes'⟩

/-- A file that is not there, as running the reader tells. -/
theorem lacks_of_isRaised
    (h : (match c.workspace.read disk path with
      | .error fault => fault.isRaised
      | .ok _ => true) = false) : c.Lacks disk path := by
  split at h
  · exact ⟨_, ‹_›, h⟩
  · cases h

/-! ## Events and scans -/

/-- Whether a catalog acts on a change as a scan would: an edited document is one that the project
takes in or has no notes, a removed one lies in scope or had none, and of a moved one the old or the
new path lies in scope. -/
def ActsLikeScan (c : Catalog) (disk : Disk) (path : Text) : DocumentChange → Prop
  | .edited => c.workspace.accepts disk path = .ok true ∨ c.Reads disk path []
  | .removed => c.workspace.inScope path = true ∨ c.index.noted = []
  | .moved new =>
    c.workspace.inScope path = true ∨ c.workspace.inScope (c.workspace.normalize new) = true

/-- What an event leaves is what a scan leaves right after it: the same notes, and the new path of a
moved document is the active one. -/
def AgreesWithRescan (c : Catalog) (disk : Disk) (path : Text) (change : DocumentChange) : Prop :=
  (c.meet disk (.file (change.event path))).catalog.index.noted =
      ((c.meet disk (.file (change.event path))).catalog.meet disk .rescan).catalog.index.noted ∧
    ∀ new, change = .moved new →
      (c.meet disk (.file (change.event path))).catalog.active = some (c.workspace.normalize new)

/-- What a scan of the document finds right after an event that keeps what is in force. -/
theorem Views.rescan (h : c.Views path) (hk : c.Keeps d) {notes? : Option (List Note)}
    (hf : (examine c.vocabulary path (c.workspace.read disk path)).1 = .ok notes?) :
    (d.meet disk .rescan).answer = .ok true ∧
      (d.meet disk .rescan).catalog.index = .ofDocument path notes? := by
  rw [← hk.vocabulary, ← hk.workspace] at hf
  have hs : d.scope = .current := by rw [Catalog.scope, hk.settings]; exact h.scope
  obtain ⟨hanswer, hcat⟩ := settle_beginScan_of_active hs (hk.active.trans h.active) hf 3
  exact ⟨hanswer, congrArg Catalog.index hcat⟩

/-- After an edit a scan finds the new notes, which the event has put in the place of the old ones
if the project takes the document in, and left out if not. -/
theorem Views.agrees_edited (h : c.Views path) (hc : c.Undergoes disk path .edited) :
    (c.meet disk (.file (.modified path))).answer = .ok true ∧
      ((c.meet disk (.file (.modified path))).catalog.meet disk .rescan).answer = .ok true ∧
      (c.AgreesWithRescan disk path .edited ↔ c.ActsLikeScan disk path .edited) := by
  obtain ⟨hp, notes, hr⟩ := hc
  obtain ⟨hanswer, hk, accepted, notes?, hacc, hi, hnotes⟩ := h.edited hp hr
  obtain ⟨hscan, hscanned⟩ := h.rescan hk hr.examine
  have hempty : c.Reads disk path [] ↔ notes = [] :=
    ⟨fun hno => hr.unique hno, fun he => he ▸ hr⟩
  refine ⟨hanswer, hscan, ?_⟩
  simp only [AgreesWithRescan, DocumentChange.event, hi, hscanned, Index.noted_ofDocument_eq_iff,
    hnotes, ActsLikeScan, hacc, hempty]
  cases accepted <;> simp [eq_comm]

/-- After a removal a scan finds nothing, and the event has left the old notes if the document does
not lie in scope. -/
theorem Views.agrees_removed (h : c.Views path) (hc : c.Undergoes disk path .removed) :
    (c.meet disk (.file (.deleted path))).answer = .ok true ∧
      ((c.meet disk (.file (.deleted path))).catalog.meet disk .rescan).answer = .ok true ∧
      (c.AgreesWithRescan disk path .removed ↔ c.ActsLikeScan disk path .removed) := by
  obtain ⟨hp, hl⟩ := hc
  obtain ⟨hanswer, hk, hi⟩ := h.removed hp disk
  obtain ⟨hscan, hscanned⟩ := h.rescan hk hl.examine
  refine ⟨hanswer, hscan, ?_⟩
  simp only [AgreesWithRescan, DocumentChange.event, hi, hscanned, ActsLikeScan,
    Index.noted_ofDocument_none]
  cases c.workspace.inScope path <;> simp

/-- After a move a scan finds the notes at the new path if the event has made it the active one, and
nothing at the old path if not. -/
theorem Views.agrees_moved (h : c.Views path) (hc : c.Undergoes disk path (.moved new)) :
    (c.meet disk (.file (.renamed path new))).answer = .ok true ∧
      ((c.meet disk (.file (.renamed path new))).catalog.meet disk .rescan).answer = .ok true ∧
      (c.AgreesWithRescan disk path (.moved new) ↔ c.ActsLikeScan disk path (.moved new)) := by
  obtain ⟨hp, hn, hne, hl, hfound⟩ := hc
  obtain ⟨notes?, hf⟩ := exists_examine hfound
  obtain ⟨hanswer, hcat⟩ := h.moved hp hn hf
  refine ⟨hanswer, ?_⟩
  simp only [AgreesWithRescan, DocumentChange.event, hcat, ActsLikeScan, ← Bool.or_eq_true]
  split
  · rename_i hscope
    have hturned := views_turned (c := c) h.scope h.root new notes?
    obtain ⟨hscan, hscanned⟩ := settle_beginScan_of_active hturned.scope hturned.active hf 3
    refine ⟨hscan, iff_of_true ⟨?_, fun other he => ?_⟩ hscope⟩
    · rw [meet_rescan, hscanned]
      rfl
    · cases he
      exact hturned.active
  · rename_i hscope
    refine ⟨(h.rescan (Keeps.refl c) hl.examine).1, iff_of_false (fun hboth => ?_) hscope⟩
    have hactive := h.active.symm.trans (hboth.2 new rfl)
    exact hne (Option.some.inj hactive).symm

/-- **An event or a scan.**  The event of a change runs to its end, a scan right after it does too,
and they agree exactly if the catalog acts on the change. -/
theorem event_agrees_with_rescan_iff (h : Viewed c path) {change : DocumentChange}
    (hc : c.Undergoes disk path change) :
    (c.meet disk (.file (change.event path))).answer = .ok true ∧
      ((c.meet disk (.file (change.event path))).catalog.meet disk .rescan).answer = .ok true ∧
      (c.AgreesWithRescan disk path change ↔ c.ActsLikeScan disk path change) := by
  cases change with
  | edited => exact h.views.agrees_edited hc
  | removed => exact h.views.agrees_removed hc
  | moved new => exact h.views.agrees_moved hc

/-- A document in a folder that is left out is activated and then edited: the event takes its notes
away, and a scan brings the new ones. -/
theorem event_agrees_with_rescan_iff_excluded :
    let c := activated "/p/node_modules/b.py"
    let change : DocumentChange := .edited
    Viewed c "/p/node_modules/b.py" ∧ c.Undergoes editedFiles "/p/node_modules/b.py" change ∧
      (c.meet editedFiles (.file (change.event "/p/node_modules/b.py"))).answer = .ok true ∧
      (c.AgreesWithRescan editedFiles "/p/node_modules/b.py" change ↔
        c.ActsLikeScan editedFiles "/p/node_modules/b.py" change) := by
  have hviewed : Viewed (activated "/p/node_modules/b.py") "/p/node_modules/b.py" :=
    viewed_activated (by decide +kernel) (by decide +kernel) (by decide +kernel)
  have hedited : (activated "/p/node_modules/b.py").Undergoes editedFiles "/p/node_modules/b.py"
      .edited := ⟨by decide +kernel, exists_reads (by decide +kernel)⟩
  have h := event_agrees_with_rescan_iff hviewed hedited
  exact ⟨hviewed, hedited, h.1, h.2.2⟩

/-- Events that a scan contradicts: a document in a folder that is left out is edited, one beside
the project is removed, and it is moved to another place beside the project. -/
theorem events_beside_project_disagree :
    ofSettings project currentSettings = .ok (openedCurrent, []) ∧
    (Viewed (activated "/p/node_modules/b.py") "/p/node_modules/b.py" ∧
      (activated "/p/node_modules/b.py").Undergoes editedFiles "/p/node_modules/b.py" .edited ∧
      ¬(activated "/p/node_modules/b.py").AgreesWithRescan editedFiles "/p/node_modules/b.py"
        .edited) ∧
    (Viewed (activated "/c.py") "/c.py" ∧
      (activated "/c.py").Undergoes fewerFiles "/c.py" .removed ∧
      ¬(activated "/c.py").AgreesWithRescan fewerFiles "/c.py" .removed) ∧
    (Viewed (activated "/c.py") "/c.py" ∧
      (activated "/c.py").Undergoes movedFiles "/c.py" (.moved "/d.py") ∧
      ¬(activated "/c.py").AgreesWithRescan movedFiles "/c.py" (.moved "/d.py")) := by
  have hexcluded : Viewed (activated "/p/node_modules/b.py") "/p/node_modules/b.py" :=
    viewed_activated (by decide +kernel) (by decide +kernel) (by decide +kernel)
  have hbeside : Viewed (activated "/c.py") "/c.py" :=
    viewed_activated (by decide +kernel) (by decide +kernel) (by decide +kernel)
  refine ⟨ofSettings_current, ⟨hexcluded, ?_, ?_⟩, ⟨hbeside, ?_, ?_⟩, hbeside, ?_, ?_⟩
  · exact ⟨by decide +kernel, exists_reads (by decide +kernel)⟩
  · exact fun h => absurd h.1 (by decide +kernel)
  · exact ⟨by decide +kernel, lacks_of_isRaised (by decide +kernel)⟩
  · exact fun h => absurd h.1 (by decide +kernel)
  · exact ⟨by decide +kernel, by decide +kernel, by decide +kernel,
      lacks_of_isRaised (by decide +kernel), .inl (exists_reads (by decide +kernel))⟩
  · exact fun h => absurd (h.2 "/d.py" rfl) (by decide +kernel)

end Catalog

end Marginalia
