import Marginalia.CommandLine.Run
import Marginalia.Proofs.Alone

/-!
# Keeping up with a disk

A watched folder changes in rounds: the disk becomes another one, and a batch of changes says what
has become of its files.  Here it is shown that a catalog that meets the events of each batch holds
what a reload of the last disk would find (`Catalog.reload_agrees_with_rounds`).

The events of a batch are met one after the other, and on the way the index agrees with the disk
only in part.  What holds all the time is `Catalog.Pending`: either the settings file is still to
come, and it will bring everything up to date, or each path on which the index and the disk do not
agree is still to come itself.  One event preserves this (`Catalog.Pending.met`), so that nothing is
left to disagree about when all are met.

A catalog believes what it is told of deleted files without looking for them.  Hence a batch has to
be trustworthy (`Workspace.Reports.deleted`): a path that is only said to be deleted must not be one
that a scan would take in.
-/

namespace Marginalia

open CommandLine (Batch)

namespace Settings

variable {disk other : Disk} {path : Path} {settings : Settings} {warnings : List Warning}

/-- Without a file that can be read, the default settings are loaded. -/
theorem load_of_error {fault : Disk.Fault} (hr : disk.read path = .error fault)
    (hf : fault.isMalformedPath = false) : ∃ warnings, load disk path = .ok ({}, warnings) := by
  by_cases hn : fault = .notFound
  · subst hn
    exact ⟨_, load_of_notFound hr⟩
  · exact ⟨[.unreadableSettings fault], by simp [load, hr, hf]⟩

/-- Settings can only be loaded from a path that can be asked for. -/
theorem malformed?_of_load (h : load disk path = .ok (settings, warnings)) :
    Disk.malformed? path = none := by
  cases hm : Disk.malformed? path with
  | none => rfl
  | some flaw =>
      obtain ⟨hr, hflaw⟩ := Disk.read_of_malformed? hm disk
      cases flaw <;> simp [load, hr, Disk.Fault.isMalformedPath] at h hflaw

/-- The settings that are loaded depend on what the file holds, and on nothing else. -/
theorem load_congr (he : (disk.read path).toOption = (other.read path).toOption)
    (h : load disk path = .ok (settings, warnings)) :
    ∃ others, load other path = .ok (settings, others) := by
  have hm := malformed?_of_load h
  cases hr : disk.read path with
  | ok content =>
      cases ho : other.read path with
      | error fault => simp [hr, ho, Except.toOption] at he
      | ok found =>
          obtain rfl : content = found := by simpa [hr, ho, Except.toOption] using he
          exact ⟨warnings, by simpa [load, hr, ho] using h⟩
  | error fault =>
      cases ho : other.read path with
      | ok found => simp [hr, ho, Except.toOption] at he
      | error fault' =>
          obtain ⟨_, hload⟩ := load_of_error hr (Disk.isMalformedPath_of_read hm hr)
          rw [hload, Except.ok.injEq, Prod.mk.injEq] at h
          rw [← h.1]
          exact load_of_error ho (Disk.isMalformedPath_of_read hm ho)

end Settings

namespace Workspace

/-- What the file at a path holds, if there is one to be read. -/
def content? (w : Workspace) (disk : Disk) (path : Text) : Option (List UInt8) :=
  (disk.read (w.locate path)).toOption

/-- Whether a path lies below the root or means the settings file. -/
def Watches (w : Workspace) (path : Text) : Prop :=
  (∃ parts, w.locate path = w.fileAt parts) ∨ w.locate path = w.settingsFile

/-- Whether a batch says something of a path, however it is written. -/
def Mentions (w : Workspace) (changes : List Change) (path : Text) : Prop :=
  ∃ change ∈ changes, w.normalize change.path = w.normalize path

/-- Whether a path is said to be deleted and nothing else. -/
def OnlyDeletes (w : Workspace) (changes : List Change) (path : Text) : Prop :=
  w.Mentions changes path ∧
    ∀ change ∈ changes, w.normalize change.path = w.normalize path → change.kind = .deleted

/-- Whether a scan takes in the file at a path under the settings that the disk holds. -/
def TakesIn (w : Workspace) (disk : Disk) (path : Text) : Prop :=
  ∃ settings warnings, Settings.load disk w.settingsFile = .ok (settings, warnings) ∧
    (w.configure settings.search).accepts disk path = .ok true

/-- A batch that mentions every file of a workspace that has come, gone or changed since the disk
was looked at before. -/
structure Covers (w : Workspace) (before : Disk) (batch : Batch) : Prop where
  names : batch.disk.HasNames
  noLinks : w.HasNoLinks batch.disk
  mentioned : ∀ path, w.Watches path → w.content? before path ≠ w.content? batch.disk path →
    w.Mentions batch.changes path

/-- A batch that can be relied on to say what has become of the files: none is said to be deleted,
and nothing else, that is still to be taken in.  A batch that is taken for a renamed file leads to a
scan anyway. -/
structure Reports (w : Workspace) (before : Disk) (batch : Batch) : Prop extends
    Covers w before batch where
  deleted : Changes.IsRename batch.changes ∨
    ∀ path, w.OnlyDeletes batch.changes path → ¬ w.TakesIn batch.disk path

variable {w : Workspace} {disk other : Disk} {path : Text}

/-- Files with the same content are accepted alike. -/
theorem accepts_congr (h : w.content? disk path = w.content? other path) :
    w.accepts disk path = .ok true ↔ w.accepts other path = .ok true := by
  have hread : ∀ content, disk.read (w.locate path) = .ok content ↔
      other.read (w.locate path) = .ok content := by
    intro content
    unfold content? at h
    cases hd : disk.read (w.locate path) <;> cases ho : other.read (w.locate path) <;>
      simp_all [Except.toOption]
  simp only [accepts_eq_true, hread]

/-- Files with the same content have the same text. -/
theorem read_congr (h : w.content? disk path = w.content? other path) {text : Text} :
    w.read disk path = .ok text ↔ w.read other path = .ok text := by
  unfold content? at h
  unfold Workspace.read Document.read
  cases hd : disk.read (w.locate path) <;> cases ho : other.read (w.locate path) <;>
    simp_all [Except.toOption]

end Workspace

namespace Catalog

variable {w : Workspace} {disk : Disk} {c : Catalog} {event : FileEvent} {rest : List FileEvent}

/-- What is shown after a reload is what would be taken in. -/
theorem IsLoaded.takesIn_of_shows (h : c.IsLoaded w disk) {path : Text}
    (hs : c.Shows disk path) : w.TakesIn disk path := by
  obtain ⟨warnings, hload⟩ := h.loaded
  exact ⟨_, _, hload, h.configured ▸ hs.2.2⟩

/-- Whether an event is about a path. -/
def Concerns (w : Workspace) (event : FileEvent) (path : Text) : Prop :=
  ∃ other ∈ event.paths, w.normalize other = path

/-- Whatever is said to be deleted and is to be shown all the same is looked at later. -/
def Honest (w : Workspace) (disk : Disk) : List FileEvent → Prop
  | [] => True
  | .deleted path :: rest =>
    (w.TakesIn disk (w.normalize path) → ∃ event ∈ rest, Concerns w event (w.normalize path)) ∧
      Honest w disk rest
  | _ :: rest => Honest w disk rest

/-- What is left to be done while the events of a batch are met. -/
structure Pending (w : Workspace) (disk : Disk) (c : Catalog) (events : List FileEvent) : Prop where
  watches : c.Watches w
  state : (∃ event ∈ events, Concerns w event w.settingsFile.toText) ∨
    c.IsLoaded w disk ∧ ∀ path, c.Agrees disk path ∨
      c.scope ≠ .current ∧ c.workspace.inScope path = true ∧ ∃ event ∈ events, Concerns w event path

/-- A file that was modified is the one that the event names. -/
theorem concerns_modified {other path : Text} :
    Concerns w (.modified other) path ↔ w.normalize other = path := by
  simp [Concerns, FileEvent.paths]

/-- So is one that was deleted. -/
theorem concerns_deleted {other path : Text} :
    Concerns w (.deleted other) path ↔ w.normalize other = path := by
  simp [Concerns, FileEvent.paths]

/-- A rename is about both names. -/
theorem concerns_renamed {old new path : Text} :
    Concerns w (.renamed old new) path ↔ w.normalize old = path ∨ w.normalize new = path := by
  simp [Concerns, FileEvent.paths]

/-- What an event does that is not about the settings file: wherever the index did not agree with
the disk, it does so now or is left as it was; and it is left so only if the event was not about
that path, or if a file is said to be deleted that is still there. -/
def Heeds (w : Workspace) (disk : Disk) (c : Catalog) (event : FileEvent) (d : Catalog) : Prop :=
  c.Keeps d ∧ ∀ path, d.Agrees disk path ∨
    (∃ other, event = .deleted other ∧ w.normalize other = path ∧ c.Shows disk path) ∨
    d.index.notesAt path = c.index.notesAt path ∧
      (c.scope ≠ .current → c.workspace.inScope path = true → ¬ Concerns w event path)

/-- After a file was modified, its entry is that of the file as it is. -/
theorem heeds_modified (h : c.IsLoaded w disk) (hr : w.root.IsPlain) {other : Text}
    (hs : c.workspace.isSettingsFile (c.workspace.normalize other) = false) {complete : Bool}
    (ha : (c.meet disk (.file (.modified other))).answer = .ok complete) :
    Heeds w disk c (.modified other) (c.meet disk (.file (.modified other))).catalog := by
  have hmet := meet_modified (h.root ▸ hr) h.active hs ha
  rw [h.normalize] at hmet
  refine ⟨hmet.toKeeps, fun path => ?_⟩
  by_cases hpath : w.normalize other = path
  · subst hpath
    rcases hmet.here with hagrees | ⟨hcurrent, hsame⟩
    · exact .inl hagrees
    · exact .inr (.inr ⟨hsame, fun hne => absurd hcurrent hne⟩)
  · refine .inr (.inr ⟨hmet.elsewhere path (Ne.symm hpath), fun _ _ => ?_⟩)
    rwa [concerns_modified]

/-- After a file was deleted, there is no entry for it, whatever the disk holds. -/
theorem heeds_deleted (h : c.IsLoaded w disk) {other : Text}
    (hs : c.workspace.isSettingsFile (c.workspace.normalize other) = false) :
    Heeds w disk c (.deleted other) (c.meet disk (.file (.deleted other))).catalog := by
  obtain ⟨hk, hnotes⟩ := meet_deleted disk hs
  rw [h.normalize] at hnotes
  refine ⟨hk, fun path => ?_⟩
  by_cases hpath : path = w.normalize other ∧ c.workspace.inScope path = true
  · by_cases hshown : c.Shows disk path
    · exact .inr (.inl ⟨other, rfl, hpath.1.symm, hshown⟩)
    · refine .inl ⟨fun hno => absurd (hk.shows_iff.1 hno) hshown, fun _ => ?_⟩
      rw [hnotes, if_pos ⟨hpath.1, hpath.1 ▸ hpath.2⟩]
  · refine .inr (.inr ⟨?_, fun _ hi hconcerns => ?_⟩)
    · rw [hnotes, if_neg]
      intro hex
      obtain ⟨rfl, hi⟩ := hex
      exact hpath ⟨rfl, hi⟩
    · exact hpath ⟨(concerns_deleted.1 hconcerns).symm, hi⟩

/-- After a file was renamed, all entries are those of the disk, since there was a scan. -/
theorem heeds_renamed (h : c.IsLoaded w disk) (hr : w.root.IsPlain) (hd : disk.HasNames)
    (hl : w.HasNoLinks disk) {old new : Text}
    (hold : c.workspace.isSettingsFile (c.workspace.normalize old) = false)
    (hnew : c.workspace.isSettingsFile (c.workspace.normalize new) = false) {complete : Bool}
    (ha : (c.meet disk (.file (.renamed old new))).answer = .ok complete) :
    Heeds w disk c (.renamed old new) (c.meet disk (.file (.renamed old new))).catalog := by
  have hmet := meet_renamed disk h.active hold hnew
  rw [h.normalize, h.normalize] at hmet
  rw [hmet] at ha ⊢
  by_cases hscope : (c.workspace.inScope (w.normalize old) ||
      c.workspace.inScope (w.normalize new)) = true
  · rw [if_pos hscope] at ha ⊢
    obtain ⟨hk, -, hagrees⟩ := agrees_of_scan h.active (h.root ▸ hr) hd (h.hasNoLinks hl) ha
    exact ⟨hk, fun path => .inl (hagrees path)⟩
  · rw [if_neg hscope]
    refine ⟨Keeps.refl c, fun path => .inr (.inr ⟨rfl, fun _ hi hconcerns => hscope ?_⟩)⟩
    rcases concerns_renamed.1 hconcerns with rfl | rfl <;> simp [hi]

/-- An event that is not about the settings file is heeded. -/
theorem heeds_of_event (h : c.IsLoaded w disk) (hr : w.root.IsPlain) (hd : disk.HasNames)
    (hl : w.HasNoLinks disk) (hp : ¬ Concerns w event w.settingsFile.toText) {complete : Bool}
    (ha : (c.meet disk (.file event)).answer = .ok complete) :
    Heeds w disk c event (c.meet disk (.file event)).catalog := by
  have hs : ∀ other ∈ event.paths,
      c.workspace.isSettingsFile (c.workspace.normalize other) = false := by
    intro other hm
    rw [h.normalize, Workspace.isSettingsFile, h.settingsFile]
    simpa using fun he => hp ⟨other, hm, he⟩
  cases event with
  | modified other => exact heeds_modified h hr (hs other List.mem_cons_self) ha
  | deleted other => exact heeds_deleted h (hs other List.mem_cons_self)
  | renamed old new =>
      have hnew := hs new (List.mem_cons_of_mem _ List.mem_cons_self)
      exact heeds_renamed h hr hd hl (hs old List.mem_cons_self) hnew ha

/-- Whatever is met, a catalog goes on watching. -/
theorem watches_met (h : c.Watches w) (hr : w.root.IsPlain) (hd : disk.HasNames)
    (hl : w.HasNoLinks disk) {complete : Bool}
    (ha : (c.meet disk (.file event)).answer = .ok complete) :
    (c.meet disk (.file event)).catalog.Watches w := by
  have hroot : c.workspace.root.IsPlain := h.root ▸ hr
  by_cases hs : ∃ path ∈ event.paths, c.workspace.isSettingsFile (c.workspace.normalize path) = true
  · rw [meet_settingsFile hs] at ha ⊢
    exact (isCurrent_of_reload h hr hd hl ha).toWatches
  have hno : ∀ path ∈ event.paths,
      c.workspace.isSettingsFile (c.workspace.normalize path) = false := by
    intro path hm
    simpa using fun he => hs ⟨path, hm, he⟩
  cases event with
  | modified path =>
      exact (meet_modified hroot h.active (hno path List.mem_cons_self) ha).toKeeps.watches h
  | deleted path => exact (meet_deleted disk (hno path List.mem_cons_self)).1.watches h
  | renamed old new =>
      have hmet := meet_renamed disk h.active (hno old List.mem_cons_self)
        (hno new (List.mem_cons_of_mem _ List.mem_cons_self))
      rw [hmet] at ha ⊢
      split at ha
      · rename_i hscope
        rw [if_pos hscope]
        exact (agrees_of_scan h.active hroot hd (h.hasNoLinks hl) ha).1.watches h
      · rename_i hscope
        rw [if_neg hscope]
        exact h

/-- Meeting an event leaves only the others to be met. -/
theorem Pending.met (h : Pending w disk c (event :: rest)) (hr : w.root.IsPlain)
    (hd : disk.HasNames) (hl : w.HasNoLinks disk) (hh : Honest w disk (event :: rest))
    {complete : Bool} (ha : (c.meet disk (.file event)).answer = .ok complete) :
    Pending w disk (c.meet disk (.file event)).catalog rest := by
  refine ⟨watches_met h.watches hr hd hl ha, ?_⟩
  by_cases hp : Concerns w event w.settingsFile.toText
  · -- The settings file is reloaded, and all is well from then on.
    obtain ⟨path, hm, he⟩ := hp
    have hs : c.workspace.isSettingsFile (c.workspace.normalize path) = true := by
      rw [h.watches.normalize, Workspace.isSettingsFile, h.watches.settingsFile, he]
      simp
    rw [meet_settingsFile ⟨path, hm, hs⟩] at ha ⊢
    have hcurrent := isCurrent_of_reload h.watches hr hd hl ha
    exact .inr ⟨hcurrent.toIsLoaded, fun path => .inl (hcurrent.agrees path)⟩
  rcases h.state with ⟨other, hm, hother⟩ | ⟨hloaded, hstate⟩
  · rcases List.mem_cons.1 hm with rfl | hm
    · exact absurd hother hp
    · exact .inl ⟨other, hm, hother⟩
  obtain ⟨hk, hmet⟩ := heeds_of_event hloaded hr hd hl hp ha
  refine .inr ⟨hk.isLoaded hloaded, fun path => ?_⟩
  have hscope : (c.meet disk (.file event)).catalog.scope = c.scope := by
    rw [scope, scope, hk.settings]
  rw [hscope, hk.workspace]
  rcases hmet path with hagrees | ⟨other, rfl, rfl, hshown⟩ | ⟨hsame, hnot⟩
  · exact .inl hagrees
  · have hinScope := (Workspace.accepts_eq_true.1 hshown.2.2).2.1
    exact .inr ⟨hshown.1, hinScope, hh.1 (hloaded.takesIn_of_shows hshown)⟩
  · rcases hstate path with hagrees | ⟨hne, hi, other, hm, hother⟩
    · exact .inl (hk.agrees hsame hagrees)
    · rcases List.mem_cons.1 hm with rfl | hm
      · exact absurd hother (hnot hne hi)
      · exact .inr ⟨hne, hi, other, hm, hother⟩

/-- The rest of events that are honest is so too. -/
theorem Honest.tail (h : Honest w disk (event :: rest)) : Honest w disk rest := by
  cases event with
  | modified path => exact h
  | deleted path => exact h.2
  | renamed old new => exact h

/-- When all events of a batch are met, everything is up to date. -/
theorem Pending.isCurrent_of_meetAll (hr : w.root.IsPlain) (hd : disk.HasNames)
    (hl : w.HasNoLinks disk) {events : List FileEvent} (h : Pending w disk c events)
    (hh : Honest w disk events) {complete : Bool}
    (ha : (meetAll disk c (events.map .file)).answer = .ok complete) :
    IsCurrent w disk (meetAll disk c (events.map .file)).catalog := by
  induction events generalizing c with
  | nil =>
      rcases h.state with ⟨event, hm, -⟩ | ⟨hloaded, hstate⟩
      · simp at hm
      · refine ⟨hloaded, fun path => (hstate path).resolve_right ?_⟩
        intro hex
        obtain ⟨-, -, event, hm, -⟩ := hex
        simp at hm
  | cons event rest ih =>
      rw [List.map_cons, meetAll] at ha ⊢
      cases hm : (c.meet disk (.file event)).answer with
      | error fault => simp [hm] at ha
      | ok done =>
          rw [hm] at ha
          exact ih (h.met hr hd hl hh hm) hh.tail ha

/-! ## A round -/

variable {before : Disk} {batch : Batch}

/-- A path that is mentioned is still to come. -/
theorem exists_concerns_of_mentions {changes : List Change} {path : Text}
    (h : w.Mentions changes path) :
    ∃ event ∈ Changes.events changes, Concerns w event (w.normalize path) := by
  obtain ⟨change, hm, he⟩ := h
  obtain ⟨event, hevent, hpath⟩ := Changes.exists_event hm
  exact ⟨event, hevent, change.path, hpath, he⟩

/-- Without deletions, events claim nothing that could be wrong. -/
theorem honest_of_forall_ne {events : List FileEvent}
    (h : ∀ event ∈ events, ∀ path, event ≠ .deleted path) : Honest w disk events := by
  induction events with
  | nil => trivial
  | cons event rest ih =>
      have hrest := ih fun other hm => h other (List.mem_cons_of_mem _ hm)
      cases event with
      | modified path => exact hrest
      | deleted path => exact absurd rfl (h _ List.mem_cons_self path)
      | renamed old new => exact hrest

/-- A deletion may be put right by a later event. -/
theorem honest_append {paths : List Text} {later : List FileEvent} (hl : Honest w disk later)
    (h : ∀ path ∈ paths, w.TakesIn disk (w.normalize path) →
      ∃ event ∈ later, Concerns w event (w.normalize path)) :
    Honest w disk (paths.map .deleted ++ later) := by
  induction paths with
  | nil => exact hl
  | cons path rest ih =>
      refine ⟨fun ht => ?_, ih fun other hm => h other (List.mem_cons_of_mem _ hm)⟩
      obtain ⟨event, hm, hc⟩ := h path List.mem_cons_self ht
      exact ⟨event, List.mem_append_right _ hm, hc⟩

/-- The events of a batch that can be relied on are honest. -/
theorem honest_of_reports (hr : w.root.IsPlain) (h : w.Reports before batch) :
    Honest w batch.disk (Changes.events batch.changes) := by
  by_cases hrename : Changes.IsRename batch.changes
  · obtain ⟨old, new, -, -, he⟩ := Changes.events_of_isRename hrename
    rw [he]
    apply honest_of_forall_ne
    intro event hm path heq
    obtain rfl := heq
    simp at hm
  rw [Changes.events_of_not_isRename hrename]
  apply honest_append
  · apply honest_of_forall_ne
    intro event hm path heq
    obtain rfl := heq
    simp at hm
  intro path hm ht
  have honly := fun ho => h.deleted.resolve_left hrename (w.normalize path) ho ht
  obtain ⟨change, hchange, he, hk⟩ : ∃ change ∈ batch.changes,
      w.normalize change.path = w.normalize path ∧ change.kind ≠ .deleted := by
    apply Classical.byContradiction
    intro hno
    refine honly ⟨⟨_, Changes.mem_ofKind.1 hm, ?_⟩, fun change hchange he => ?_⟩
    · rw [Workspace.normalize_normalize hr]
    · rw [Workspace.normalize_normalize hr] at he
      apply Classical.byContradiction
      exact fun hk => hno ⟨change, hchange, he, hk⟩
  refine ⟨.modified change.path, ?_, change.path, List.mem_cons_self, he⟩
  rcases Changes.exists_modified hchange hk with hadded | hmodified
  · simp [hadded]
  · simp [hmodified]

/-- Where a file has not changed, the index agrees with it as before. -/
theorem Agrees.congr {path : Text} (h : c.Agrees before path)
    (he : c.workspace.content? before path = c.workspace.content? disk path) :
    c.Agrees disk path := by
  have hshows : c.Shows before path ↔ c.Shows disk path := by
    simp only [Shows, Workspace.accepts_congr he]
  refine ⟨fun hs text hread => ?_, fun hs => h.ofNotShown fun hb => hs (hshows.1 hb)⟩
  exact h.ofShown (hshows.2 hs) text ((Workspace.read_congr he).2 hread)

/-- At the beginning of a round everything that has changed is still to come. -/
theorem IsCurrent.pending (hc : IsCurrent w before c) (hw : w.IsPlain)
    (h : w.Reports before batch) :
    Pending w batch.disk c (Changes.events batch.changes) := by
  have hsettings := Workspace.locate_toText w hw.settingsFile
  refine ⟨hc.toWatches, ?_⟩
  by_cases hsame : w.content? before w.settingsFile.toText =
      w.content? batch.disk w.settingsFile.toText
  case neg =>
    refine .inl ?_
    have hmentions := h.mentioned w.settingsFile.toText (.inr hsettings) hsame
    have hnormal : w.normalize w.settingsFile.toText = w.settingsFile.toText := by
      rw [Workspace.normalize, hsettings]
    exact hnormal ▸ exists_concerns_of_mentions hmentions
  have hloaded : IsLoaded w batch.disk c := by
    obtain ⟨warnings, hload⟩ := hc.loaded
    unfold Workspace.content? at hsame
    rw [hsettings] at hsame
    exact { hc.toIsLoaded with loaded := Settings.load_congr hsame hload }
  refine .inr ⟨hloaded, fun path => ?_⟩
  have hcontent : ∀ disk, c.workspace.content? disk path = w.content? disk path := by
    intro disk
    rw [hc.configured]
    rfl
  by_cases hchanged : w.content? before path = w.content? batch.disk path
  · exact .inl ((hc.agrees path).congr (by rw [hcontent, hcontent, hchanged]))
  by_cases hshown : c.scope ≠ .current ∧ c.workspace.normalize path = path ∧
      c.workspace.inScope path = true
  · obtain ⟨hscope, hnormal, hi⟩ := hshown
    obtain ⟨parts, hparts, -⟩ := Workspace.inScope_iff.1 hi
    rw [hc.configured] at hparts
    rw [hc.normalize] at hnormal
    have hconcerns := exists_concerns_of_mentions
      (h.mentioned path (.inl ⟨parts, hparts⟩) hchanged)
    rw [hnormal] at hconcerns
    exact .inr ⟨hscope, hi, hconcerns⟩
  · -- Such a path is shown on neither disk.
    have hno : ∀ disk, ¬ c.Shows disk path := by
      intro disk hs
      exact hshown ⟨hs.1, hs.2.1, (Workspace.accepts_eq_true.1 hs.2.2).2.1⟩
    exact .inl ⟨fun hs => absurd hs (hno _), fun _ => (hc.agrees path).ofNotShown (hno _)⟩

/-- What a catalog is after the events of a batch, if none of them fails. -/
def take (c : Catalog) (batch : Batch) : Except Fault Catalog :=
  let m := meetAll batch.disk c ((Changes.events batch.changes).map .file)
  m.answer.map fun _ => m.catalog

/-- What a catalog is after some batches, if no event fails. -/
def takeAll : Catalog → List Batch → Except Fault Catalog
  | c, [] => .ok c
  | c, batch :: rest => (c.take batch).bind (takeAll · rest)

/-- Taking in a batch that can be relied on brings a catalog up to date again. -/
theorem IsCurrent.take (hc : IsCurrent w before c) (hw : w.IsPlain) (h : w.Reports before batch)
    {d : Catalog} (ht : c.take batch = .ok d) : IsCurrent w batch.disk d := by
  unfold Catalog.take at ht
  cases ha : (meetAll batch.disk c ((Changes.events batch.changes).map .file)).answer with
  | error fault => simp [ha, Except.map] at ht
  | ok complete =>
      obtain rfl : _ = d := by simpa [ha, Except.map] using ht
      exact (hc.pending hw h).isCurrent_of_meetAll hw.root h.names h.noLinks
        (honest_of_reports hw.root h) ha

end Catalog

/-- Batches that can be relied on one after the other. -/
def Workspace.ReportsAll (w : Workspace) : Disk → List Batch → Prop
  | _, [] => True
  | before, batch :: rest => w.Reports before batch ∧ w.ReportsAll batch.disk rest

/-- The disk as it is after some rounds. -/
def lastDisk (first : Disk) : List Batch → Disk
  | [] => first
  | batch :: rest => lastDisk batch.disk rest

namespace Catalog

variable {w : Workspace} {first : Disk} {c d : Catalog}

/-- **Rounds.**  From round to round, the index stays that of the disk. -/
theorem IsCurrent.takeAll (hw : w.IsPlain) {batches : List Batch} (hc : IsCurrent w first c)
    (h : w.ReportsAll first batches) (ht : c.takeAll batches = .ok d) :
    IsCurrent w (lastDisk first batches) d := by
  induction batches generalizing c first with
  | nil =>
      cases ht
      exact hc
  | cons batch rest ih =>
      unfold Catalog.takeAll at ht
      cases hb : c.take batch with
      | error fault => simp [hb, Except.bind] at ht
      | ok next =>
          rw [hb] at ht
          exact ih (hc.take hw h.1 hb) h.2 ht

/-- Catalogs that are up to date with one disk have the same settings, and the same notes wherever
the files to be shown can be read. -/
theorem IsCurrent.ext {disk : Disk} (hc : IsCurrent w disk c) (hd : IsCurrent w disk d)
    (hreadable : ∀ path, c.workspace.accepts disk path = .ok true →
      ∃ text, c.workspace.read disk path = .ok text) :
    d.settings = c.settings ∧ ∀ path, d.index.notesAt path = c.index.notesAt path := by
  have hsettings : d.settings = c.settings := by
    obtain ⟨_, hlc⟩ := hc.loaded
    obtain ⟨_, hld⟩ := hd.loaded
    rw [hlc, Except.ok.injEq, Prod.mk.injEq] at hld
    exact hld.1.symm
  have hvocabulary : d.vocabulary = c.vocabulary := by
    obtain ⟨_, hvc⟩ := hc.compiled
    obtain ⟨_, hvd⟩ := hd.compiled
    rw [hsettings, hvc, Except.ok.injEq, Prod.mk.injEq] at hvd
    exact hvd.1.symm
  have hk : c.Keeps d :=
    ⟨hd.hasFile.trans hc.hasFile.symm, hsettings, hvocabulary, by
      rw [hd.configured, hc.configured, hsettings], hd.active.trans hc.active.symm⟩
  refine ⟨hsettings, fun path => ?_⟩
  by_cases hs : c.Shows disk path
  · obtain ⟨text, hread⟩ := hreadable path hs.2.2
    have hnc := (hc.agrees path).ofShown hs text hread
    have hnd := (hd.agrees path).ofShown (hk.shows_iff.2 hs) text (hk.workspace ▸ hread)
    rw [hvocabulary, hnc, Except.ok.injEq] at hnd
    exact hnd.symm
  · rw [(hc.agrees path).ofNotShown hs, (hd.agrees path).ofNotShown (mt hk.shows_iff.1 hs)]

/-- A new catalog watches the workspace that it was made for. -/
theorem watches_of_ofSettings {settings : Settings} {warnings : List Warning}
    (h : ofSettings w settings = .ok (c, warnings)) : c.Watches w := by
  unfold ofSettings at h
  split at h
  · cases h
    exact ⟨rfl, rfl, _, rfl⟩
  · cases h

/-- **Rounds agree with a reload.**  A catalog that has loaded its settings and then took in what
batches told it of the disk holds what another catalog for the same folder holds that only loads its
settings at the end. -/
theorem reload_agrees_with_rounds {root : Text} (hroot : (Path.ofText root).isAbsolute = true)
    {search : Search} {file : Text} {override : Option Text}
    (hw : w = .ofRoot (Path.ofText root) search file override)
    {settings others : Settings} {warnings flaws : List Warning} {fresh : Catalog}
    (hc : ofSettings w settings = .ok (c, warnings))
    (hfresh : ofSettings w others = .ok (fresh, flaws))
    (hnames : first.HasNames) (hlinks : w.HasNoLinks first) {complete : Bool}
    (hstart : (c.meet first .reload).answer = .ok complete)
    {batches : List Batch} (hreports : w.ReportsAll first batches)
    (hrounds : (c.meet first .reload).catalog.takeAll batches = .ok d)
    (hreadable : ∀ path, d.workspace.accepts (lastDisk first batches) path = .ok true →
      ∃ text, d.workspace.read (lastDisk first batches) path = .ok text) :
    (fresh.meet (lastDisk first batches) .reload).answer = .ok true ∧
      (fresh.meet (lastDisk first batches) .reload).catalog.settings = d.settings ∧
        ∀ path, (fresh.meet (lastDisk first batches) .reload).catalog.index.notesAt path =
          d.index.notesAt path := by
  have hplain : w.IsPlain := hw ▸ Workspace.ofRoot_isPlain hroot search file override
  have hlast : (lastDisk first batches).HasNames ∧ w.HasNoLinks (lastDisk first batches) := by
    clear hrounds hreadable hstart
    induction batches generalizing first with
    | nil => exact ⟨hnames, hlinks⟩
    | cons batch rest ih => exact ih hreports.1.names hreports.1.noLinks hreports.2
  -- From round to round the index stays that of the disk; the new reload makes another such index.
  have hcurrent : IsCurrent w (lastDisk first batches) d :=
    (isCurrent_of_reload (watches_of_ofSettings hc) hplain.root hnames hlinks hstart).takeAll
      hplain hreports hrounds
  have hwatches := watches_of_ofSettings hfresh
  have hanswer := reload_of_isCurrent hwatches hplain.root hlast.1 hcurrent
  have hagain := isCurrent_of_reload hwatches hplain.root hlast.1 hlast.2 hanswer
  exact ⟨hanswer, hcurrent.ext hagain hreadable⟩

/-! ## Batches of a small project -/

/-- On the filled folder, a change of its file. -/
def changed (kind : ChangeKind) : Batch := { disk := filledProject, changes := [⟨kind, "a.py"⟩] }

/-- What comes of the requests that are used below. -/
theorem project_runs :
    (opened.meet emptyProject .reload).answer.toOption = some true ∧
      ((opened.meet emptyProject .reload).catalog.takeAll [changed .added]).toOption.isSome ∧
      (opened.meet filledProject .reload).answer.toOption = some true ∧
      (opened.meet filledProject .reload).catalog.index.notesAt "/p/a.py" ≠ [] ∧
      ((opened.meet filledProject .reload).catalog.takeAll [changed .deleted]).toOption.map
        (·.index.notesAt "/p/a.py") = some [] := by decide +kernel

/-- On the filled folder, all that is accepted can be read. -/
theorem exists_read_filledProject {w : Workspace} {path : Text}
    (ha : w.accepts filledProject path = .ok true) :
    ∃ text, w.read filledProject path = .ok text := by
  refine Workspace.exists_read_of_accepts (fun entry hm content he => ?_) ha
  have hbytes : content = Utf8.encode "# TODO: a\n" := by
    simp only [filledProject, List.mem_cons, List.not_mem_nil, or_false] at hm
    rcases hm with rfl | rfl
    · cases he
    · cases he
      rfl
  rw [hbytes]
  exact exists_ok_of_toOption (by decide +kernel)

/-- Nothing is in the empty project. -/
theorem content?_emptyProject (path : Text) : project.content? emptyProject path = none := by
  unfold Workspace.content?
  cases hr : emptyProject.read (project.locate path) with
  | error fault => rfl
  | ok content =>
      obtain ⟨place, -, hi⟩ := Disk.read_eq_ok.1 hr
      have hne : place ≠ [] := by
        intro heq
        obtain rfl := heq
        simp [Disk.item?] at hi
      simpa [emptyProject] using Disk.mem_items_of_item? hne hi

/-- There is one path that can be read on the filled folder. -/
theorem parts_of_content?_filledProject {path : Text}
    (h : project.content? filledProject path ≠ none) :
    (project.locate path).parts = [("p" : Text), "a.py"] := by
  unfold Workspace.content? at h
  cases hr : filledProject.read (project.locate path) with
  | error fault => simp [hr, Except.toOption] at h
  | ok content =>
      obtain ⟨place, hl, hi⟩ := Disk.read_eq_ok.1 hr
      have hplain := Workspace.locate_isPlain (w := project)
        (Path.resolve_isPlain rfl (Path.ofText_parts "/p")) path
      have hlinks : ∀ names target, filledProject.item? ([] ++ names) = some (.link target) →
          names = [] := by
        intro names target hm
        apply Classical.byContradiction
        intro hn
        simpa [filledProject] using Disk.mem_items_of_item? hn hm
      have hplace := Disk.walk_eq_append hplain.names hlinks (Disk.locate_eq_ok.1 hl).2.2
      rw [List.nil_append] at hplace
      rw [← hplace]
      have hne : place ≠ [] := by
        intro heq
        obtain rfl := heq
        simp [Disk.item?] at hi
      have hm := Disk.mem_items_of_item? hne hi
      simp only [filledProject, List.mem_cons, Prod.mk.injEq, reduceCtorEq, and_false,
        List.not_mem_nil, or_false, false_or] at hm
      exact hm.1

/-- The one path that can be read on the filled folder is mentioned by its name. -/
theorem covers_project (kind : ChangeKind) : project.Covers emptyProject (changed kind) := by
  have hnames : filledProject.HasNames := by decide +kernel
  refine ⟨hnames, Workspace.hasNoLinks_of_forall (by simp [changed, filledProject]), ?_⟩
  intro path hwatches hcontent
  refine ⟨_, List.mem_singleton_self _, ?_⟩
  rw [content?_emptyProject] at hcontent
  have hparts := parts_of_content?_filledProject (Ne.symm hcontent)
  have horigin : (project.locate path).origin = .root := by
    rcases hwatches with ⟨parts, he⟩ | he
    · rw [he]
      rfl
    · rw [he]
      rfl
  have hlocate : project.locate path = ⟨.root, ["p", "a.py"]⟩ := by
    rw [← horigin, ← hparts]
  have hname : project.locate "a.py" = ⟨.root, ["p", "a.py"]⟩ := by decide +kernel
  exact congrArg Path.toText (hname.trans hlocate.symm)

/-- A file that is added to an empty folder is taken in. -/
theorem reload_agrees_with_rounds_project :
    ∃ d, (opened.meet emptyProject .reload).catalog.takeAll [changed .added] = .ok d ∧
      (opened.meet filledProject .reload).answer = .ok true ∧
        (opened.meet filledProject .reload).catalog.settings = d.settings ∧
          ∀ path, (opened.meet filledProject .reload).catalog.index.notesAt path =
            d.index.notesAt path := by
  obtain ⟨hstarted, htaken, -⟩ := project_runs
  obtain ⟨warnings, hopened⟩ := ofSettings_project
  obtain ⟨complete, hstart⟩ : ∃ complete, (opened.meet emptyProject .reload).answer =
      .ok complete :=
    exists_ok_of_toOption (by rw [hstarted]; rfl)
  obtain ⟨d, hd⟩ := exists_ok_of_toOption htaken
  have hreports : project.ReportsAll emptyProject [changed .added] := by
    refine ⟨⟨covers_project .added, .inr fun path hdeleted => ?_⟩, trivial⟩
    obtain ⟨⟨change, hm, he⟩, honly⟩ := hdeleted
    have hkind := honly change hm he
    rw [List.mem_singleton.1 hm] at hkind
    cases hkind
  have hproject : project = .ofRoot (Path.ofText "/p") {} [] none := rfl
  have hnames : emptyProject.HasNames := by decide +kernel
  have hlinks : project.HasNoLinks emptyProject :=
    Workspace.hasNoLinks_of_forall (by simp [emptyProject])
  have hlast : lastDisk emptyProject [changed .added] = filledProject := rfl
  have hagrees := reload_agrees_with_rounds project_isAbsolute hproject hopened hopened
    hnames hlinks hstart hreports hd
  rw [hlast] at hagrees
  exact ⟨d, hd, hagrees fun _ => exists_read_filledProject⟩

/-- A batch may mention every file that has changed and still be wrong about another one: a file
that is said to be deleted goes from the index, though it stands where it stood. -/
theorem false_deletion_is_believed :
    (∃ warnings, ofSettings project = .ok (opened, warnings)) ∧
      (opened.meet filledProject .reload).answer.toOption = some true ∧
      project.Covers filledProject (changed .deleted) ∧
      ∃ d, (opened.meet filledProject .reload).catalog.takeAll [changed .deleted] = .ok d ∧
        (∀ path, d.workspace.accepts filledProject path = .ok true →
          ∃ text, d.workspace.read filledProject path = .ok text) ∧
        d.index.notesAt "/p/a.py" = [] ∧
        (opened.meet filledProject .reload).catalog.index.notesAt "/p/a.py" ≠ [] := by
  obtain ⟨-, -, hstart, hnotes, hlost⟩ := project_runs
  have hcovers : project.Covers filledProject (changed .deleted) :=
    ⟨(covers_project .deleted).names, (covers_project .deleted).noLinks,
      fun path _ hne => absurd rfl hne⟩
  refine ⟨ofSettings_project, hstart, hcovers, ?_⟩
  cases hd : (opened.meet filledProject .reload).catalog.takeAll [changed .deleted] with
  | error fault => simp [hd, Except.toOption] at hlost
  | ok d =>
      have hnone : d.index.notesAt "/p/a.py" = [] := by simpa [hd, Except.toOption] using hlost
      exact ⟨d, rfl, fun _ => exists_read_filledProject, hnone, hnotes⟩

end Catalog

end Marginalia
