import Marginalia.Catalog.Meet
import Marginalia.Proofs.Changes
import Marginalia.Proofs.Index
import Marginalia.Proofs.Notes
import Marginalia.Proofs.Steps

/-!
# Requests that are met alone

What a request leaves behind when nothing comes in between.  The index and the disk *agree* about a
path (`Catalog.Agrees`) if the index holds for it the notes of its text where the file is to be
shown, and none where it is not.  A file that is to be shown but cannot be read binds the index to
nothing: an update leaves such a file alone, and a full scan leaves it out.

A scan makes the index and the disk agree about every path (`Catalog.agrees_of_scan`).  It goes
through on a disk that some index agrees with already (`Catalog.scan_of_agrees`).  The events of
files are met without a scan: `Catalog.meet_modified` and `Catalog.meet_deleted` say that they make
the two agree about the path of the event and leave all other paths alone.
-/

namespace Marginalia

namespace Catalog

/-! ## Going on through pauses -/

/-- Notices in front of a meeting change nothing about how it ended. -/
@[simp] theorem Meeting.answer_after (notices : List Notice) (m : Meeting) :
    (m.after notices).answer = m.answer := rfl

@[simp] theorem Meeting.catalog_after (notices : List Notice) (m : Meeting) :
    (m.after notices).catalog = m.catalog := rfl

variable {c : Catalog} {disk : Disk}

/-- What is done is left as it is. -/
@[simp] theorem finishWithin_done (pauses : Nat) (c : Catalog) (complete : Bool) :
    finishWithin disk pauses c (.done complete) = { catalog := c, answer := .ok complete } := by
  cases pauses <;> rfl

/-- A call that has failed is finished, with its fault. -/
@[simp] theorem finishWithin_fail (pauses : Nat) (c : Catalog) (fault : Fault) :
    finishWithin disk pauses c (.fail fault) = { catalog := c, answer := .error fault } := by
  cases pauses <;> rfl

/-- How a request ends that has come so far. -/
def settle (disk : Disk) (pauses : Nat) (step : Catalog × Next) : Meeting :=
  finishWithin disk pauses step.1 step.2

/-- What waits goes on with what it waits for. -/
theorem settle_succ {step : Catalog × Next} (h : step.2.pausesLeft ≠ 0) (pauses : Nat) :
    settle disk (pauses + 1) step =
      (settle disk pauses (step.1.fulfil disk step.2).1).after (step.1.fulfil disk step.2).2 := by
  obtain ⟨c, next⟩ := step
  cases next <;> first | rfl | simp [Next.pausesLeft] at h

/-- When the observers of the notes were told, a request is done. -/
theorem settle_tell (pauses : Nat) (c : Catalog) :
    (settle disk (pauses + 1) (c, .tell .notesUpdated)).answer = .ok true ∧
      (settle disk (pauses + 1) (c, .tell .notesUpdated)).catalog = c := by
  rw [settle_succ (by simp [Next.pausesLeft])]
  simp [settle, fulfil, afterTold]

/-- When its notes were taken in, the update of a file is done. -/
theorem settle_finishUpdate (pauses : Nat) (c : Catalog) (update : Update) (notes : List Note) :
    (settle disk (pauses + 1) (c.finishUpdate update notes)).answer = .ok true ∧
      (settle disk (pauses + 1) (c.finishUpdate update notes)).catalog =
        (c.finishUpdate update notes).1 := by
  unfold finishUpdate
  split
  · simp [settle]
  split
  · simp [settle]
  · exact settle_tell _ _

/-! ## Full scans -/

/-- Findings are gathered exactly if there is no fault among them. -/
theorem gather_eq_ok {entries : List (Text × Found)} {found : List (Text × Option (List Note))} :
    gather entries = .ok found ↔ entries = found.map fun entry => (entry.1, .ok entry.2) := by
  induction entries generalizing found with
  | nil => cases found <;> simp [gather]
  | cons entry rest ih =>
      obtain ⟨path, result⟩ := entry
      cases result with
      | error fault =>
          cases found <;> simp [gather, bind, Except.bind]
      | ok notes? =>
          cases hrest : gather rest with
          | error fault =>
              have hne : ∀ others : List (Text × Option (List Note)),
                  rest ≠ others.map fun entry => (entry.1, .ok entry.2) := by
                intro others he
                simp [ih.2 he] at hrest
              cases found <;> simp [gather, hrest, bind, Except.bind, hne]
          | ok others =>
              have he := ih.1 hrest
              cases found with
              | nil => simp [gather, hrest, bind, Except.bind, pure, Except.pure]
              | cons first more =>
                  have hmore : rest = more.map (fun entry => (entry.1, .ok entry.2)) ↔
                      others = more := by
                    rw [← ih, hrest, Except.ok.injEq]
                  obtain ⟨p, n⟩ := first
                  simp [gather, hrest, bind, Except.bind, pure, Except.pure, hmore, and_assoc]

variable {found : List (Text × Option (List Note))} {paths : List Text} {examined : Text → Found}

/-- What was gathered about a path was found there. -/
theorem mem_gathered
    (h : paths.map (fun path => (path, examined path)) =
      found.map fun entry => (entry.1, .ok entry.2)) {path : Text} {notes? : Option (List Note)} :
    (path, notes?) ∈ found ↔ path ∈ paths ∧ examined path = .ok notes? := by
  have hm : (path, notes?) ∈ found ↔
      (path, Except.ok notes?) ∈ found.map fun entry => (entry.1, (.ok entry.2 : Found)) := by
    simp only [List.mem_map, Prod.mk.injEq, Except.ok.injEq]
    constructor
    · intro h
      exact ⟨_, h, rfl, rfl⟩
    · intro hex
      obtain ⟨⟨p, n⟩, h, rfl, rfl⟩ := hex
      exact h
  rw [hm, ← h]
  simp only [List.mem_map, Prod.mk.injEq]
  constructor
  · intro hex
    obtain ⟨other, ho, rfl, he⟩ := hex
    exact ⟨ho, he⟩
  · intro hex
    obtain ⟨hp, he⟩ := hex
    exact ⟨path, hp, rfl, he⟩

/-- Whatever was looked at was gathered. -/
theorem exists_of_gathered
    (h : paths.map (fun path => (path, examined path)) =
      found.map fun entry => (entry.1, .ok entry.2)) {path : Text} (hp : path ∈ paths) :
    ∃ notes?, examined path = .ok notes? := by
  have hm := List.mem_map_of_mem (f := fun path => (path, examined path)) hp
  rw [h] at hm
  obtain ⟨entry, -, he⟩ := List.mem_map.1 hm
  rw [Prod.mk.injEq] at he
  exact ⟨entry.2, he.2.symm⟩

/-- Without a fault, everything is gathered. -/
theorem exists_gather_eq_ok (h : ∀ path ∈ paths, ∃ notes?, examined path = .ok notes?) :
    ∃ found, gather (paths.map fun path => (path, examined path)) = .ok found := by
  induction paths with
  | nil => exact ⟨[], rfl⟩
  | cons path rest ih =>
      obtain ⟨notes?, he⟩ := h path List.mem_cons_self
      obtain ⟨others, hrest⟩ := ih fun other ho => h other (List.mem_cons_of_mem _ ho)
      exact ⟨(path, notes?) :: others, by simp [gather, he, hrest, bind, Except.bind, pure,
        Except.pure]⟩

/-- What a scan leaves at a path: the notes that were found there, if it was looked at. -/
theorem notesAt_scannedEntries (keepEmpty : Bool)
    (h : paths.map (fun path => (path, examined path)) =
      found.map fun entry => (entry.1, .ok entry.2)) (path : Text) :
    (Index.ofEntries (scannedEntries keepEmpty found)).notesAt path =
      if path ∈ paths then
        match examined path with
        | .ok (some notes) => notes
        | _ => []
      else [] := by
  apply Index.notesAt_ofEntries_of_forall
  · intro entry he hp
    obtain ⟨other, notes, hm, -, rfl⟩ := mem_scannedEntries.1 he
    obtain rfl : other = path := hp
    obtain ⟨hpath, hex⟩ := (mem_gathered h).1 hm
    simp [hpath, hex]
  · intro hne
    split at hne
    · rename_i hpath
      split at hne
      · rename_i notes hex
        have hm := (mem_gathered h).2 ⟨hpath, hex⟩
        exact ⟨_, mem_scannedEntries.2 ⟨path, notes, hm, fun hn => absurd hn hne, rfl⟩, rfl⟩
      · exact absurd rfl hne
    · exact absurd rfl hne

/-- What is found in the files of a scan. -/
def findings (c : Catalog) (disk : Disk) (v : Vocabulary) (paths : List Text) :
    List (Text × Found) :=
  paths.map fun path => (path, (examine v path (c.workspace.read disk path)).1)

/-- A scan that nothing came in between of takes in what was found. -/
theorem finishScan_of_eq {scan : Scan} (hg : scan.generation = c.generation)
    (ht : c.touched = []) (found : List (Text × Option (List Note))) :
    c.finishScan scan found =
      ({ c with index := Index.ofEntries (scannedEntries scan.keepEmpty found) },
        .tell .notesUpdated) := by
  simp [finishScan, hg, ht, mergeTouched_nil]

/-- A scan goes on when its files were looked into. -/
theorem fulfil_read (c : Catalog) (scan : Scan) (paths : List Text) :
    (c.fulfil disk (.read scan paths)).1 =
      match gather (c.findings disk scan.vocabulary paths) with
      | .error fault => (c, .fail fault)
      | .ok found => c.finishScan scan found := by
  simp only [fulfil, findings, List.map_map, Function.comp_def]
  split <;> simp_all

/-- When its files are known, a scan ends with what is found in them. -/
theorem settle_readFiles {scan : Scan} (hg : scan.generation = c.generation) (ht : c.touched = [])
    (pauses : Nat) (hf : gather (c.findings disk scan.vocabulary paths) = .ok found) :
    (settle disk (pauses + 2) (c.readFiles scan paths)).answer = .ok true ∧
      (settle disk (pauses + 2) (c.readFiles scan paths)).catalog =
        { c with index := Index.ofEntries (scannedEntries scan.keepEmpty found) } := by
  unfold readFiles
  by_cases hp : paths = []
  · subst hp
    obtain rfl : [] = found := by simpa [findings, gather] using hf
    rw [List.isEmpty_nil, if_pos rfl, finishScan_of_eq hg ht]
    exact settle_tell _ _
  · rw [if_neg (by simpa using hp), settle_succ (by simp [Next.pausesLeft]), fulfil_read, hf]
    simp only [finishScan_of_eq hg ht]
    exact settle_tell _ _

/-- A fault in one of its files is the end of a scan. -/
theorem settle_readFiles_of_error {scan : Scan} (pauses : Nat) {fault : Fault}
    (hf : gather (c.findings disk scan.vocabulary paths) = .error fault) :
    (settle disk (pauses + 2) (c.readFiles scan paths)).answer = .error fault := by
  have hp : paths ≠ [] := by
    intro heq
    obtain rfl := heq
    simp [findings, gather] at hf
  unfold readFiles
  rw [if_neg (by simpa using hp), settle_succ (by simp [Next.pausesLeft]), fulfil_read, hf]
  simp [settle]

/-- Without an active document, a scan in the current scope leaves an empty index. -/
theorem settle_beginScan_of_current (disk : Disk) (ha : c.active = none)
    (h : c.scope = .current) (pauses : Nat) :
    (settle disk (pauses + 2) c.beginScan).answer = .ok true ∧
      (settle disk (pauses + 2) c.beginScan).catalog = { c.scanning with index := {} } := by
  have hf : gather (c.scanning.findings disk (c.newScan true).vocabulary []) = .ok [] := rfl
  rw [beginScan_of_current h, ha]
  exact settle_readFiles rfl rfl pauses hf

/-- A scan of all files fails where they cannot be listed or one of them makes a fault, and ends
with what is found in them otherwise. -/
theorem settle_beginScan_of_ne_current (disk : Disk) (h : c.scope ≠ .current) (pauses : Nat) :
    match c.workspace.list disk with
    | .error fault => (settle disk (pauses + 3) c.beginScan).answer = .error (.disk fault)
    | .ok paths =>
      match gather (c.findings disk c.vocabulary paths) with
      | .error fault => (settle disk (pauses + 3) c.beginScan).answer = .error fault
      | .ok found =>
        (settle disk (pauses + 3) c.beginScan).answer = .ok true ∧
          (settle disk (pauses + 3) c.beginScan).catalog =
            { c.scanning with index := Index.ofEntries (scannedEntries false found) } := by
  rw [beginScan_of_ne_current h, settle_succ (by simp [Next.pausesLeft])]
  have hw : c.scanning.workspace = c.workspace := rfl
  cases hlist : c.workspace.list disk with
  | error fault => simp [fulfil, hw, hlist, settle]
  | ok paths =>
      simp only [fulfil, hw, hlist, Meeting.answer_after, Meeting.catalog_after]
      cases hf : gather (c.findings disk c.vocabulary paths) with
      | error fault => exact settle_readFiles_of_error (c := c.scanning) pauses hf
      | ok found => exact settle_readFiles (c := c.scanning) rfl rfl pauses hf

/-! ## What the index and the disk agree about -/

/-- Whether the notes of a file are to be shown: it is known by this path, and a scan of all files
takes it in. -/
def Shows (c : Catalog) (disk : Disk) (path : Text) : Prop :=
  c.scope ≠ .current ∧ c.workspace.normalize path = path ∧
    c.workspace.accepts disk path = .ok true

/-- The index holds the notes of a file that is to be shown, and none at any other path. -/
structure Agrees (c : Catalog) (disk : Disk) (path : Text) : Prop where
  ofShown : c.Shows disk path → ∀ text, c.workspace.read disk path = .ok text →
    c.vocabulary.notesIn path text = .ok (c.index.notesAt path)
  ofNotShown : ¬ c.Shows disk path → c.index.notesAt path = []

/-- What is in force stays in force. -/
structure Keeps (c d : Catalog) : Prop where
  hasFile : d.hasFile = c.hasFile
  settings : d.settings = c.settings
  vocabulary : d.vocabulary = c.vocabulary
  workspace : d.workspace = c.workspace
  active : d.active = c.active

theorem Keeps.refl (c : Catalog) : c.Keeps c := ⟨rfl, rfl, rfl, rfl, rfl⟩

variable {d : Catalog} {path : Text}

/-- The same files are to be shown. -/
theorem Keeps.shows_iff (h : c.Keeps d) : d.Shows disk path ↔ c.Shows disk path := by
  simp [Shows, scope, h.settings, h.workspace]

/-- Where the index holds the same notes, it agrees as before. -/
theorem Keeps.agrees (h : c.Keeps d) (hn : d.index.notesAt path = c.index.notesAt path)
    (ha : c.Agrees disk path) : d.Agrees disk path := by
  constructor
  · intro hs text hr
    rw [h.vocabulary, hn]
    rw [h.workspace] at hr
    exact ha.ofShown (h.shows_iff.1 hs) text hr
  · intro hs
    rw [hn]
    exact ha.ofNotShown fun hc => hs (h.shows_iff.2 hc)

/-- In the current scope, with an empty index, there is nothing to disagree about. -/
theorem agrees_of_current (h : c.scope = .current) (hn : c.index.notesAt path = []) :
    c.Agrees disk path :=
  ⟨fun hs => absurd h hs.1, fun _ => hn⟩

/-- What is found in a text is its notes. -/
theorem notesIn_of_examine_ok {v : Vocabulary} {text : Text} {notes? : Option (List Note)}
    (h : (examine v path (.ok text)).1 = .ok notes?) :
    ∃ notes, notes? = some notes ∧ v.notesIn path text = .ok notes := by
  cases hn : v.notesIn path text with
  | error fault =>
      rw [examine_error hn] at h
      cases h
  | ok notes =>
      rw [examine_ok hn] at h
      cases h
      exact ⟨notes, rfl, rfl⟩

/-- After a scan of all files, the index and the disk agree. -/
theorem agrees_of_gather (hs : c.scope ≠ .current) (hr : c.workspace.root.IsPlain)
    (hd : disk.HasNames) (hl : c.workspace.HasNoLinks disk)
    (hlist : c.workspace.list disk = .ok paths)
    (hf : gather (c.findings disk c.vocabulary paths) = .ok found) (path : Text) :
    Agrees { c.scanning with index := Index.ofEntries (scannedEntries false found) } disk path := by
  have hmap := gather_eq_ok.1 hf
  have hnotes := notesAt_scannedEntries false hmap path
  constructor
  · intro hshown text hread
    have hp : path ∈ paths := by
      have := Workspace.mem_list_of_accepts hr hl hlist hshown.2.2
      rwa [show c.workspace.normalize path = path from hshown.2.1] at this
    obtain ⟨notes?, hex⟩ := exists_of_gathered hmap hp
    have hread' : c.workspace.read disk path = .ok text := hread
    rw [if_pos hp, hex] at hnotes
    rw [hread'] at hex
    obtain ⟨notes, rfl, hin⟩ := notesIn_of_examine_ok hex
    rw [hnotes]
    exact hin
  · intro hshown
    by_cases hp : path ∈ paths
    · rw [if_pos hp] at hnotes
      rw [hnotes]
      split
      · rename_i notes hex
        obtain ⟨text, hread, -⟩ := examine_eq_some hex
        obtain ⟨content, hc⟩ := Workspace.exists_of_read_eq_ok hread
        have hnormal := (Workspace.of_mem_list hr hd hlist hp).1
        exact absurd ⟨hs, hnormal, Workspace.accepts_of_mem_list hr hd hlist hp hc⟩ hshown
      · rfl
    · rw [if_neg hp] at hnotes
      exact hnotes

/-- **What a scan leaves.**  If it goes through, what is in force stays in force, and the index and
the disk agree about every path. -/
theorem agrees_of_scan (ha : c.active = none) (hr : c.workspace.root.IsPlain) (hd : disk.HasNames)
    (hl : c.workspace.HasNoLinks disk) {pauses : Nat} {complete : Bool}
    (h : (settle disk (pauses + 3) c.beginScan).answer = .ok complete) :
    c.Keeps (settle disk (pauses + 3) c.beginScan).catalog ∧
      (c.scope ≠ .current → Disk.malformed? c.workspace.root = none) ∧
        ∀ path, (settle disk (pauses + 3) c.beginScan).catalog.Agrees disk path := by
  by_cases hs : c.scope = .current
  · obtain ⟨-, hcat⟩ := settle_beginScan_of_current disk ha hs (pauses + 1)
    rw [hcat]
    exact ⟨⟨rfl, rfl, rfl, rfl, rfl⟩, fun hne => absurd hs hne,
      fun path => agrees_of_current hs rfl⟩
  · have hscan := settle_beginScan_of_ne_current disk hs pauses
    cases hlist : c.workspace.list disk with
    | error fault =>
        rw [hlist] at hscan
        simp [hscan] at h
    | ok paths =>
        cases hf : gather (c.findings disk c.vocabulary paths) with
        | error fault =>
            simp only [hlist, hf] at hscan
            simp [hscan] at h
        | ok found =>
            simp only [hlist, hf] at hscan
            rw [hscan.2]
            exact ⟨⟨rfl, rfl, rfl, rfl, rfl⟩, fun _ => Workspace.exists_list.2 ⟨paths, hlist⟩,
              agrees_of_gather hs hr hd hl hlist hf⟩

/-- **When a scan goes through.**  It does on a disk that an index agrees with already, if what is
in force for that index is in force for the scan. -/
theorem scan_of_agrees (hk : c.Keeps d) (ha : c.active = none) (hr : c.workspace.root.IsPlain)
    (hd : disk.HasNames) (hroot : c.scope ≠ .current → Disk.malformed? c.workspace.root = none)
    (hagrees : ∀ path, d.Agrees disk path) (pauses : Nat) :
    (settle disk (pauses + 3) c.beginScan).answer = .ok true := by
  by_cases hs : c.scope = .current
  · exact (settle_beginScan_of_current disk ha hs (pauses + 1)).1
  have hscan := settle_beginScan_of_ne_current disk hs pauses
  obtain ⟨paths, hlist⟩ := Workspace.exists_list.1 (hroot hs)
  obtain ⟨found, hf⟩ : ∃ found, gather (c.findings disk c.vocabulary paths) = .ok found := by
    apply exists_gather_eq_ok
    intro path hp
    obtain ⟨hnormal, -, -, -, hform⟩ := Workspace.of_mem_list hr hd hlist hp
    cases hread : c.workspace.read disk path with
    | error fault =>
        refine ⟨none, ?_⟩
        have hraised : fault.isRaised = false := by
          unfold Workspace.read Document.read at hread
          split at hread
          · unfold Document.ofBytes at hread
            split at hread
            · cases hread
              rfl
            · split at hread <;> cases hread
              rfl
          · rename_i hdisk
            cases hread
            exact Disk.isMalformedPath_of_read (hform (hroot hs)) hdisk
        simp [examine, hraised]
    | ok text =>
        obtain ⟨content, hc⟩ := Workspace.exists_of_read_eq_ok hread
        have hshown : d.Shows disk path :=
          hk.shows_iff.2 ⟨hs, hnormal, Workspace.accepts_of_mem_list hr hd hlist hp hc⟩
        have hin := (hagrees path).ofShown hshown text (hk.workspace ▸ hread)
        rw [hk.vocabulary] at hin
        exact ⟨_, congrArg Prod.fst (examine_ok hin)⟩
  simp only [hlist, hf] at hscan
  exact hscan.1

/-! ## Reloads -/

/-- A catalog when new settings are in force and its index is cleared. -/
def reloaded (c : Catalog) (settings : Settings) (vocabulary : Vocabulary) : Catalog :=
  { c with
      settings, vocabulary
      generation := c.generation + 1
      epoch := c.epoch + 1
      workspace := c.workspace.configure settings.search
      index := {} }

/-- A reload fails where the settings cannot be loaded or their tags cannot be used at all, and
ends with a scan otherwise. -/
theorem meet_reload (disk : Disk) (hfile : c.hasFile = true) :
    match Settings.load disk c.workspace.settingsFile with
    | .error fault => (c.meet disk .reload).answer = .error (.settings fault)
    | .ok (settings, _) =>
      match settings.vocabularyWithWarnings with
      | .error fault => (c.meet disk .reload).answer = .error (.pattern fault)
      | .ok (vocabulary, _) =>
        (c.meet disk .reload).answer =
            (settle disk 3 (c.reloaded settings vocabulary).beginScan).answer ∧
          (c.meet disk .reload).catalog =
            (settle disk 3 (c.reloaded settings vocabulary).beginScan).catalog := by
  have hbegin : c.meet disk .reload =
      settle disk (4 + 1) ({ c with generation := c.generation + 1 }, .load) := by
    simp [meet, begin, beginLoad, hfile, settle, pauses]
  rw [hbegin, settle_succ (by simp [Next.pausesLeft])]
  cases hload : Settings.load disk c.workspace.settingsFile with
  | error fault => simp [fulfil, hload, settle]
  | ok result =>
      obtain ⟨settings, warnings⟩ := result
      cases hv : settings.vocabularyWithWarnings with
      | error fault => simp [fulfil, hload, finishLoad, apply, hv, settle]
      | ok result =>
          obtain ⟨vocabulary, flaws⟩ := result
          have hclear : (fulfil { c with generation := c.generation + 1 } disk .load).1 =
              (c.reloaded settings vocabulary, .tell .settingsLoaded) := by
            simp [fulfil, hload, finishLoad, apply, hv, clear, reloaded]
          rw [hclear, settle_succ (by simp [Next.pausesLeft])]
          simp only [hv]
          exact ⟨rfl, rfl⟩

/-- A catalog of a workspace that looks into its settings file and has no active document, whatever
is in force for it. -/
structure Watches (w : Workspace) (c : Catalog) : Prop where
  hasFile : c.hasFile = true
  active : c.active = none
  workspace : ∃ search, c.workspace = w.configure search

/-- What is in force is what the disk says. -/
structure IsLoaded (w : Workspace) (disk : Disk) (c : Catalog) : Prop extends Watches w c where
  loaded : ∃ warnings, Settings.load disk w.settingsFile = .ok (c.settings, warnings)
  compiled : ∃ warnings, c.settings.vocabularyWithWarnings = .ok (c.vocabulary, warnings)
  configured : c.workspace = w.configure c.settings.search
  /-- The files can be listed, if they are to be. -/
  listed : c.scope ≠ .current → Disk.malformed? w.root = none

/-- What is in force is what the disk says, and so is the index. -/
structure IsCurrent (w : Workspace) (disk : Disk) (c : Catalog) : Prop extends
    IsLoaded w disk c where
  agrees : ∀ path, c.Agrees disk path

variable {w : Workspace}

/-- A catalog goes on watching while it keeps what is in force. -/
theorem Keeps.watches (h : c.Keeps d) (hw : c.Watches w) : d.Watches w :=
  ⟨h.hasFile.trans hw.hasFile, h.active.trans hw.active, h.workspace ▸ hw.workspace⟩

/-- Settings that are kept stay loaded. -/
theorem Keeps.isLoaded (h : c.Keeps d) (hc : c.IsLoaded w disk) : d.IsLoaded w disk where
  toWatches := h.watches hc.toWatches
  loaded := h.settings ▸ hc.loaded
  compiled := h.settings ▸ h.vocabulary ▸ hc.compiled
  configured := h.workspace.trans (h.settings ▸ hc.configured)
  listed := by
    intro hs
    exact hc.listed (by simpa [scope, h.settings] using hs)

/-- The path of the settings file does not depend on the search. -/
theorem Watches.settingsFile (h : c.Watches w) : c.workspace.settingsFile = w.settingsFile := by
  obtain ⟨search, hw⟩ := h.workspace
  rw [hw]
  rfl

/-- A catalog that watches a workspace has its root. -/
theorem Watches.root (h : c.Watches w) : c.workspace.root = w.root := by
  obtain ⟨search, hw⟩ := h.workspace
  rw [hw]
  rfl

/-- Normal forms do not depend on the search. -/
theorem Watches.normalize (h : c.Watches w) (path : Text) :
    c.workspace.normalize path = w.normalize path := by
  obtain ⟨search, hw⟩ := h.workspace
  rw [hw, Workspace.normalize_configure]

/-- Links below the root do not depend on the search. -/
theorem Watches.hasNoLinks (h : c.Watches w) (hl : w.HasNoLinks disk) :
    c.workspace.HasNoLinks disk := by
  unfold Workspace.HasNoLinks
  rw [h.root]
  exact hl

/-- What is reloaded is what the disk says. -/
theorem Watches.reloaded (h : c.Watches w) (settings : Settings) (vocabulary : Vocabulary) :
    (c.reloaded settings vocabulary).workspace = w.configure settings.search := by
  obtain ⟨search, hw⟩ := h.workspace
  simp only [Catalog.reloaded, hw]
  rfl

/-- A reload that goes through brings everything up to date, whatever was there before. -/
theorem isCurrent_of_reload (h : c.Watches w) (hr : w.root.IsPlain) (hd : disk.HasNames)
    (hl : w.HasNoLinks disk) {complete : Bool}
    (ha : (c.meet disk .reload).answer = .ok complete) :
    IsCurrent w disk (c.meet disk .reload).catalog := by
  have hreload := meet_reload disk h.hasFile
  rw [h.settingsFile] at hreload
  cases hload : Settings.load disk w.settingsFile with
  | error fault =>
      simp only [hload] at hreload
      simp [hreload] at ha
  | ok result =>
      obtain ⟨settings, warnings⟩ := result
      cases hv : settings.vocabularyWithWarnings with
      | error fault =>
          simp only [hload, hv] at hreload
          simp [hreload] at ha
      | ok result =>
          obtain ⟨vocabulary, flaws⟩ := result
          simp only [hload, hv] at hreload
          have hw := h.reloaded settings vocabulary
          have hloaded : Watches w (c.reloaded settings vocabulary) :=
            ⟨h.hasFile, h.active, _, hw⟩
          rw [hreload.1] at ha
          obtain ⟨hk, hlisted, hagrees⟩ := agrees_of_scan hloaded.active (hloaded.root ▸ hr) hd
            (hloaded.hasNoLinks hl) ha
          rw [hreload.2]
          refine ⟨hk.isLoaded ⟨hloaded, ⟨warnings, hload⟩, ⟨flaws, hv⟩, hw, ?_⟩, hagrees⟩
          rw [← hloaded.root]
          exact hlisted

/-- Where a catalog is up to date, another one for the same workspace can be reloaded. -/
theorem reload_of_isCurrent (h : c.Watches w) (hr : w.root.IsPlain) (hd : disk.HasNames)
    (hc : d.IsCurrent w disk) : (c.meet disk .reload).answer = .ok true := by
  have hreload := meet_reload disk h.hasFile
  obtain ⟨warnings, hload⟩ := hc.loaded
  obtain ⟨flaws, hv⟩ := hc.compiled
  simp only [h.settingsFile, hload, hv] at hreload
  have hw := h.reloaded d.settings d.vocabulary
  have hloaded : Watches w (c.reloaded d.settings d.vocabulary) := ⟨h.hasFile, h.active, _, hw⟩
  have hk : (c.reloaded d.settings d.vocabulary).Keeps d :=
    ⟨hc.hasFile.trans h.hasFile.symm, rfl, rfl, hc.configured.trans hw.symm,
      hc.active.trans h.active.symm⟩
  rw [hreload.1]
  refine scan_of_agrees hk hloaded.active (hloaded.root ▸ hr) hd ?_ hc.agrees 0
  rw [hloaded.root]
  exact hc.listed

/-! ## Events of files -/

theorem keeps_drop (c : Catalog) (path : Text) : c.Keeps (c.drop path) := ⟨rfl, rfl, rfl, rfl, rfl⟩

theorem keeps_finishUpdate (c : Catalog) (update : Update) (notes : List Note) :
    c.Keeps (c.finishUpdate update notes).1 := by
  unfold finishUpdate
  split
  · exact Keeps.refl c
  · split <;> exact ⟨rfl, rfl, rfl, rfl, rfl⟩

/-- A step that leaves what the index holds elsewhere and makes it agree about one path. -/
structure Settles (c d : Catalog) (disk : Disk) (path : Text) : Prop extends Keeps c d where
  elsewhere : ∀ other, other ≠ path → d.index.notesAt other = c.index.notesAt other
  here : d.Agrees disk path ∨
    c.scope = .current ∧ d.index.notesAt path = c.index.notesAt path

/-- An update goes on when its file was looked into. -/
theorem fulfil_update (c : Catalog) (disk : Disk) (path : Text) :
    (c.fulfil disk (.update (c.newUpdate path))).1 =
      c.afterRead (c.newUpdate path)
        (examine c.vocabulary path (c.workspace.read disk path)).1 := by
  simp only [fulfil, newUpdate]

/-- An update that nothing came in between of takes in the notes of its file, unless that cannot be
read. -/
theorem settled_update (pauses : Nat) {complete : Bool}
    (ha : (settle disk (pauses + 2) (c, .update (c.newUpdate path))).answer = .ok complete) :
    ((∃ fault, c.workspace.read disk path = .error fault) ∧
        (settle disk (pauses + 2) (c, .update (c.newUpdate path))).catalog = c) ∨
      ∃ text notes, c.workspace.read disk path = .ok text ∧
        c.vocabulary.notesIn path text = .ok notes ∧
        (settle disk (pauses + 2) (c, .update (c.newUpdate path))).catalog =
          (c.finishUpdate (c.newUpdate path) notes).1 := by
  rw [settle_succ (by simp [Next.pausesLeft])] at ha ⊢
  simp only [fulfil_update, Meeting.answer_after, Meeting.catalog_after] at ha ⊢
  cases hex : (examine c.vocabulary path (c.workspace.read disk path)).1 with
  | error fault => simp [hex, afterRead, settle] at ha
  | ok notes? =>
      cases notes? with
      | none =>
          refine .inl ⟨examine_eq_none hex, ?_⟩
          simp only [afterRead, settle, finishWithin_done]
      | some notes =>
          obtain ⟨text, hread, hin⟩ := examine_eq_some hex
          exact .inr ⟨text, notes, hread, hin, (settle_finishUpdate pauses c _ notes).2⟩

/-- An update that nothing came in between of brings a file up to date that is to be shown. -/
theorem settle_update (hshown : c.Shows disk path) (pauses : Nat) {complete : Bool}
    (ha : (settle disk (pauses + 2) (c, .update (c.newUpdate path))).answer = .ok complete) :
    c.Settles (settle disk (pauses + 2) (c, .update (c.newUpdate path))).catalog disk path := by
  rcases settled_update pauses ha with ⟨⟨fault, hread⟩, hd⟩ | ⟨text, notes, hread, hin, hd⟩
  · -- The file could not be read, so that there is nothing to agree about.
    rw [hd]
    refine ⟨Keeps.refl c, fun _ _ => rfl, .inl ⟨fun _ text hr => ?_, fun hn => ?_⟩⟩
    · rw [hread] at hr
      cases hr
    · exact absurd hshown hn
  · have hk := keeps_finishUpdate c (c.newUpdate path) notes
    have hnotes : (c.finishUpdate (c.newUpdate path) notes).1.index.notesAt path = notes :=
      notesAt_finishUpdate notes (c.isStale_newUpdate path)
    rw [hd]
    refine ⟨hk, fun other hne => notesAt_finishUpdate_of_ne notes hne,
      .inl ⟨fun _ other hr => ?_, fun hno => absurd (hk.shows_iff.2 hshown) hno⟩⟩
    rw [hk.workspace, hread] at hr
    cases hr
    rw [hk.vocabulary, hnotes]
    exact hin

/-- **A file is modified.**  It is brought up to date if it is not the settings file, and no other
one is.  In the current scope there is none to be brought up to date, as long as no document is
active. -/
theorem meet_modified (hr : c.workspace.root.IsPlain) (hactive : c.active = none) {path : Text}
    (hp : c.workspace.isSettingsFile (c.workspace.normalize path) = false) {complete : Bool}
    (ha : (c.meet disk (.file (.modified path))).answer = .ok complete) :
    c.Settles (c.meet disk (.file (.modified path))).catalog disk
      (c.workspace.normalize path) := by
  have hbegin : c.meet disk (.file (.modified path)) =
      settle disk 5 (c.beginUpdate disk (c.workspace.normalize path)) := rfl
  rw [hbegin] at ha ⊢
  generalize hnormal : c.workspace.normalize path = normal at hp ha ⊢
  have hnn : c.workspace.normalize normal = normal := by
    rw [← hnormal, Workspace.normalize_normalize hr]
  unfold beginUpdate at ha ⊢
  rw [if_neg (by simp [hp])] at ha ⊢
  cases hacc : c.workspace.accepts disk normal with
  | error fault => simp [hacc, settle] at ha
  | ok accepted =>
      cases accepted with
      | false =>
          have hgone : (c.drop normal).Agrees disk normal := by
            refine ⟨fun hshown => ?_, fun _ => ?_⟩
            · rw [(keeps_drop c normal).shows_iff] at hshown
              rw [hshown.2.2] at hacc
              cases hacc
            · rw [notesAt_drop, if_pos rfl]
          have hsettles : c.Settles (c.drop normal) disk normal :=
            ⟨keeps_drop c normal, fun other hne => by rw [notesAt_drop, if_neg hne], .inl hgone⟩
          simp only
          split
          · rw [(settle_tell _ _).2]
            exact hsettles
          · simpa [settle] using hsettles
      | true =>
          simp only [hacc] at ha ⊢
          by_cases hs : c.scope = .current
          · rw [if_pos ⟨hs, by simp [hactive]⟩]
            simp only [settle, finishWithin_done]
            exact ⟨Keeps.refl c, fun _ _ => rfl, .inr ⟨hs, rfl⟩⟩
          · rw [if_neg fun h => hs h.1] at ha ⊢
            exact settle_update ⟨hs, hnn, hacc⟩ 3 ha

/-- **A file is deleted.**  It is dropped if it lies in scope and is not the settings file. -/
theorem meet_deleted (disk : Disk) {path : Text}
    (hp : c.workspace.isSettingsFile (c.workspace.normalize path) = false) :
    c.Keeps (c.meet disk (.file (.deleted path))).catalog ∧
      ∀ other, (c.meet disk (.file (.deleted path))).catalog.index.notesAt other =
        if other = c.workspace.normalize path ∧
            c.workspace.inScope (c.workspace.normalize path) = true then []
        else c.index.notesAt other := by
  have hbegin : c.meet disk (.file (.deleted path)) =
      settle disk 5 (c.deleteFile (c.workspace.normalize path)) := rfl
  rw [hbegin]
  unfold deleteFile
  rw [if_neg (by simp [hp])]
  by_cases hi : c.workspace.inScope (c.workspace.normalize path) = true
  · rw [if_pos hi, (settle_tell _ _).2]
    refine ⟨keeps_drop c _, fun other => ?_⟩
    rw [notesAt_drop]
    simp [hi]
  · rw [if_neg hi]
    simp only [settle, finishWithin_done]
    exact ⟨Keeps.refl c, fun other => by simp [hi]⟩

/-- A renamed file leads to a scan if one of its paths lies in scope. -/
theorem meet_renamed (disk : Disk) (hactive : c.active = none) {old new : Text}
    (ho : c.workspace.isSettingsFile (c.workspace.normalize old) = false)
    (hn : c.workspace.isSettingsFile (c.workspace.normalize new) = false) :
    c.meet disk (.file (.renamed old new)) =
      if c.workspace.inScope (c.workspace.normalize old) ||
          c.workspace.inScope (c.workspace.normalize new) then settle disk 5 c.beginScan
      else { catalog := c, answer := .ok true } := by
  have hbegin : c.meet disk (.file (.renamed old new)) =
      settle disk 5 (c.renameFile (c.workspace.normalize old) (c.workspace.normalize new)) := rfl
  rw [hbegin]
  unfold renameFile
  rw [if_neg (by simp [ho, hn])]
  split
  · rw [if_neg (by simp [hactive])]
  · simp [settle]

/-- Whatever happens to the settings file leads to a reload. -/
theorem meet_settingsFile {event : FileEvent}
    (h : ∃ path ∈ event.paths, c.workspace.isSettingsFile (c.workspace.normalize path) = true) :
    c.meet disk (.file event) = c.meet disk .reload := by
  have hbegin : c.begin disk (.file event) = c.beginLoad := by
    obtain ⟨path, hm, hs⟩ := h
    cases event with
    | modified other =>
        obtain rfl : path = other := by simpa [FileEvent.paths] using hm
        simp [begin, beginUpdate, hs]
    | deleted other =>
        obtain rfl : path = other := by simpa [FileEvent.paths] using hm
        simp [begin, deleteFile, hs]
    | renamed old new =>
        have : path = old ∨ path = new := by simpa [FileEvent.paths] using hm
        rcases this with rfl | rfl <;> simp [begin, renameFile, hs]
  unfold meet
  rw [hbegin]
  rfl

end Catalog

end Marginalia
