import Marginalia.Proofs.Generations
import Marginalia.Proofs.Index
import Marginalia.Proofs.Notes

/-!
# Entries that fit

While calls are under way, the index of a catalog may hold entries that do not fit what is in force:
those of another scope, or of tags that are not looked for any more.  This file says who answers for
them.

While settings are being loaded, or observers are being told that they were, it is that call: it
will scan, and nothing that happened before will count.  At all other times the catalog is *calm*
(`Catalog.Calm`): entries that do not fit can only stand at untouched paths, and there is a scan of
the current generation under way that has the vocabulary in force and files that are to be shown.
The updates of single files do no harm either way, since an update that was begun under other
settings, or for another active document, is told by its epoch or its generation
(`Catalog.UpdateFits`).

`Catalog.Fitting` says all this of a catalog and its tasks, and each step of a call preserves it
(`Catalog.Fitting.begun`, `Catalog.Fitting.proceeds`).  There are four kinds of steps: those that
begin a scan (`Catalog.Fitting.scan`), those of a reload (`Catalog.Fitting.reload`), those that end
a scan (`Catalog.Fitting.finishScan`), and those that change at most the entry of a path that is
touched with it (`Catalog.Fitting.local`).
-/

namespace Marginalia

namespace Index

/-- Putting in an entry leaves those of other paths, and no other one of its path. -/
theorem mem_put_of_nodup {index : Index} {entry other : Entry} (h : index.paths.Nodup)
    (hm : other ∈ (index.put entry).entries) :
    other = entry ∨ other ∈ index.entries ∧ other.path ≠ entry.path := by
  obtain ⟨entries⟩ := index
  simp only [paths, put] at h hm ⊢
  induction entries with
  | nil => exact .inl (by simpa [putIn] using hm)
  | cons first rest ih =>
      rw [List.map_cons, List.nodup_cons] at h
      unfold putIn at hm
      split at hm
      · rename_i he
        rcases List.mem_cons.1 hm with rfl | hm
        · exact .inl rfl
        · refine .inr ⟨List.mem_cons_of_mem _ hm, fun hp => h.1 ?_⟩
          exact List.mem_map.2 ⟨other, hm, hp.trans he.symm⟩
      · rename_i he
        rcases List.mem_cons.1 hm with rfl | hm
        · exact .inr ⟨List.mem_cons_self, he⟩
        · rcases ih h.2 hm with rfl | ⟨hm, hp⟩
          · exact .inl rfl
          · exact .inr ⟨List.mem_cons_of_mem _ hm, hp⟩

/-- To remove an entry leaves the paths different. -/
theorem paths_nodup_remove {index : Index} (h : index.paths.Nodup) (path : Text) :
    (index.remove path).paths.Nodup :=
  (List.Sublist.map _ List.filter_sublist).nodup h

end Index

namespace Catalog

/-- Whether the file at a path is to be shown under what is in force. -/
structure Admits (c : Catalog) (path : Text) : Prop where
  project : c.scope ≠ .current →
    c.workspace.inScope path = true ∧ c.workspace.isSettingsFile path = false
  current : c.scope = .current → c.active = some path

/-- Whether an entry fits what is in force. -/
structure EntryFits (c : Catalog) (entry : Entry) : Prop where
  admits : c.Admits entry.path
  tags : ∀ note ∈ entry.notes, note.tag ∈ c.vocabulary.names

/-- An update that was begun in the epoch in force has the vocabulary in force and a file of the
project; if no scan has begun since, its file is the active document where that is required. -/
structure UpdateFits (c : Catalog) (update : Update) : Prop where
  generation_le : update.generation ≤ c.generation
  epoch_le : update.epoch ≤ c.epoch
  vocabulary : update.epoch = c.epoch → update.vocabulary = c.vocabulary
  project : update.epoch = c.epoch →
    c.workspace.inScope update.path = true ∧ c.workspace.isSettingsFile update.path = false
  current : update.epoch = c.epoch → update.generation = c.generation → c.scope = .current →
    c.active = some update.path

/-- Whether one of some tasks is about to bring settings into force, or has just done so. -/
def Reloads (tasks : List Indexer.Task) : Prop := ∃ task ∈ tasks, task.next.isReload

/-- A scan that has what is in force. -/
structure ScanFits (c : Catalog) (next : Next) (scan : Scan) : Prop where
  vocabulary : scan.vocabulary = c.vocabulary
  admits : ∀ path ∈ next.paths, c.Admits path
  listing : next = .list scan → c.scope ≠ .current

/-- No settings are on their way.  The scans of the current generation have what is in force,
touched paths have entries that fit, and so have all others, unless a scan will see to them. -/
structure Calm (c : Catalog) (tasks : List Indexer.Task) : Prop where
  scans : ∀ task ∈ tasks, ∀ scan, task.next.scan? = some scan → scan.generation = c.generation →
    c.ScanFits task.next scan
  touched : ∀ entry ∈ c.index.entries, entry.path ∈ c.touched → c.EntryFits entry
  index : (∀ entry ∈ c.index.entries, c.EntryFits entry) ∨
    ∃ task ∈ tasks, ∃ scan, task.next.scan? = some scan ∧ scan.generation = c.generation

/-- What holds of a catalog and its tasks at all times. -/
structure Fitting (w : Workspace) (c : Catalog) (tasks : List Indexer.Task) : Prop where
  configured : c.workspace = w.configure c.settings.search
  nodup : c.index.paths.Nodup
  updates : ∀ task ∈ tasks, ∀ update, task.next = .update update → c.UpdateFits update
  scans : ∀ task ∈ tasks, ∀ scan, task.next.scan? = some scan → scan.generation ≤ c.generation
  state : Reloads tasks ∨ c.Calm tasks

variable {w : Workspace} {c d : Catalog} {tasks news olds others : List Indexer.Task}

/-- The order of tasks does not matter. -/
theorem Fitting.congr (h : Fitting w c tasks) (hm : ∀ task, task ∈ others ↔ task ∈ tasks) :
    Fitting w c others where
  configured := h.configured
  nodup := h.nodup
  updates := fun task ht => h.updates task ((hm task).1 ht)
  scans := fun task ht => h.scans task ((hm task).1 ht)
  state := by
    rcases h.state with ⟨task, ht, hr⟩ | hcalm
    · exact .inl ⟨task, (hm task).2 ht, hr⟩
    · refine .inr ⟨fun task ht => hcalm.scans task ((hm task).1 ht), hcalm.touched, ?_⟩
      refine hcalm.index.imp_right ?_
      intro hex
      obtain ⟨task, ht, hscan⟩ := hex
      exact ⟨task, (hm task).2 ht, hscan⟩

/-- At rest, all entries fit. -/
theorem Fitting.entryFits (h : Fitting w c []) : ∀ entry ∈ c.index.entries, c.EntryFits entry := by
  rcases h.state with ⟨task, ht, -⟩ | hcalm
  · simp at ht
  · refine hcalm.index.resolve_right ?_
    intro hex
    obtain ⟨task, ht, -⟩ := hex
    simp at ht

/-- When a scan has begun, only what it brings itself can be in the way of its fitting. -/
theorem Fitting.scanning (h : Fitting w c (olds ++ others)) (scope : Scope) (active : Option Text)
    {index : Index} (hnodup : index.paths.Nodup)
    (hupdates : ∀ task ∈ news, ∀ update, task.next ≠ .update update)
    (hscans : ∀ task ∈ news, ∀ scan, task.next.scan? = some scan →
      scan.generation = c.generation + 1 ∧ (c.turnedTo scope active).ScanFits task.next scan)
    (hindex : (∀ entry ∈ index.entries, (c.turnedTo scope active).EntryFits entry) ∨
      ∃ task ∈ news, ∃ scan, task.next.scan? = some scan) :
    Fitting w { (c.turnedTo scope active).scanning with index } (news ++ others) where
  configured := h.configured
  nodup := hnodup
  updates := by
    intro task ht update hu
    rcases List.mem_append.1 ht with ht | ht
    · exact absurd hu (hupdates task ht update)
    · have hbegins := h.updates task (List.mem_append_right _ ht) update hu
      refine ⟨Nat.le_succ_of_le hbegins.generation_le, hbegins.epoch_le, hbegins.vocabulary,
        hbegins.project, fun _ hg => ?_⟩
      exact absurd hg (Nat.ne_of_lt (Nat.lt_succ_of_le hbegins.generation_le))
  scans := by
    intro task ht scan hs
    rcases List.mem_append.1 ht with ht | ht
    · exact Nat.le_of_eq (hscans task ht scan hs).1
    · exact Nat.le_succ_of_le (h.scans task (List.mem_append_right _ ht) scan hs)
  state := by
    refine .inr ⟨fun task ht scan hs hg => ?_, fun entry _ hm => ?_, ?_⟩
    · rcases List.mem_append.1 ht with ht | ht
      · have hbegins := (hscans task ht scan hs).2
        exact ⟨hbegins.vocabulary, fun path hp => ⟨(hbegins.admits path hp).project,
          (hbegins.admits path hp).current⟩, hbegins.listing⟩
      · have hle := h.scans task (List.mem_append_right _ ht) scan hs
        exact absurd hg (Nat.ne_of_lt (Nat.lt_succ_of_le hle))
    · simp [Catalog.scanning] at hm
    · rcases hindex with hbegins | ⟨task, ht, scan, hs⟩
      · refine .inl fun entry he => ?_
        exact ⟨⟨(hbegins entry he).admits.project, (hbegins entry he).admits.current⟩,
          (hbegins entry he).tags⟩
      · exact .inr ⟨task, List.mem_append_left _ ht, scan, hs, (hscans task ht scan hs).1⟩

/-- A scan begins with what is in force. -/
theorem scanFits_beginScan {scan : Scan} (hs : c.beginScan.2.scan? = some scan) :
    c.ScanFits c.beginScan.2 scan := by
  by_cases hscope : c.scope = .current
  · rw [beginScan_of_current hscope] at hs ⊢
    cases hactive : c.active with
    | none =>
        rw [hactive] at hs
        simp [readFiles, finishScan, Catalog.scanning, newScan, Next.scan?] at hs
    | some path =>
        rw [hactive] at hs
        cases hs
        refine ⟨rfl, fun other ho => ?_, fun he => ?_⟩
        · rw [List.mem_singleton.1 ho]
          exact ⟨fun hne => absurd hscope hne, fun _ => hactive⟩
        · cases he
  · rw [beginScan_of_ne_current hscope] at hs ⊢
    cases hs
    exact ⟨rfl, fun other ho => absurd ho List.not_mem_nil, fun _ => hscope⟩

/-- A new scan answers for everything, whatever was there before. -/
theorem Fitting.scan (h : Fitting w c (olds ++ others)) (scope : Scope) (active : Option Text)
    (id : JobId) (request : Request) :
    Fitting w (c.turnedTo scope active).beginScan.1
      (Indexer.Task.pending { id, request, next := (c.turnedTo scope active).beginScan.2 } ++
        others) := by
  rcases (c.turnedTo scope active).beginScan_cases with ⟨keepEmpty, hs, hc⟩ | heq
  · rw [hc, Indexer.Task.pending_of_scan? hs]
    refine h.scanning scope active h.nodup (fun task ht update hu => ?_)
      (fun task ht scan hscan => ?_) (.inr ⟨_, List.mem_singleton_self _, _, hs⟩)
    · rw [List.mem_singleton.1 ht] at hu
      have hu : (c.turnedTo scope active).beginScan.2 = .update update := hu
      rw [hu] at hs
      cases hs
    · rw [List.mem_singleton.1 ht] at hscan ⊢
      refine ⟨?_, scanFits_beginScan hscan⟩
      obtain rfl := Option.some.inj (hs.symm.trans hscan)
      rfl
  · -- Without an active document there is nothing to be read.
    rw [heq]
    refine h.scanning scope active List.nodup_nil (fun task ht update => ?_)
      (fun task ht scan hs => ?_) (.inl (by simp))
    · rw [(Indexer.Task.eq_of_mem_pending ht).1]
      exact Next.noConfusion
    · rw [(Indexer.Task.eq_of_mem_pending ht).1] at hs
      cases hs

/-- A step of a reload may change anything: it answers for all entries, and all updates that were
begun before are told by their epoch, if not by their generation. -/
theorem Fitting.reload (h : Fitting w c (olds ++ others))
    (hconfigured : d.workspace = w.configure d.settings.search) (hnodup : d.index.paths.Nodup)
    (hgeneration : c.generation ≤ d.generation)
    (hepoch : d.epoch = c.epoch + 1 ∨
      d.epoch = c.epoch ∧ c.generation < d.generation ∧ d.vocabulary = c.vocabulary ∧
        d.workspace = c.workspace)
    {task : Indexer.Task} (hm : task ∈ news) (hreload : ∀ task ∈ news, task.next.isReload) :
    Fitting w d (news ++ others) where
  configured := hconfigured
  nodup := hnodup
  updates := by
    intro other ho update hu
    rcases List.mem_append.1 ho with ho | ho
    · have := hreload other ho
      rw [hu] at this
      exact this.elim
    · have hbegins := h.updates other (List.mem_append_right _ ho) update hu
      rcases hepoch with he | ⟨he, hlt, hvocabulary, hworkspace⟩
      · have hne : update.epoch ≠ d.epoch := by
          rw [he]
          exact Nat.ne_of_lt (Nat.lt_succ_of_le hbegins.epoch_le)
        refine ⟨Nat.le_trans hbegins.generation_le hgeneration, ?_, fun hs => absurd hs hne,
          fun hs => absurd hs hne, fun hs => absurd hs hne⟩
        rw [he]
        exact Nat.le_succ_of_le hbegins.epoch_le
      · refine ⟨Nat.le_trans hbegins.generation_le hgeneration, he ▸ hbegins.epoch_le, ?_, ?_, ?_⟩
        · rw [he, hvocabulary]
          exact hbegins.vocabulary
        · rw [he, hworkspace]
          exact hbegins.project
        · intro _ hg
          exact absurd hg (Nat.ne_of_lt (Nat.lt_of_le_of_lt hbegins.generation_le hlt))
  scans := by
    intro other ho scan hs
    rcases List.mem_append.1 ho with ho | ho
    · have := hreload other ho
      generalize other.next = next at this hs
      cases next with
      | list s => exact this.elim
      | read s paths => exact this.elim
      | _ => cases hs
    · exact Nat.le_trans (h.scans other (List.mem_append_right _ ho) scan hs) hgeneration
  state := .inl ⟨task, List.mem_append_left _ hm, hreload task hm⟩

/-- Another catalog in which the same is in force; the active document matters in the current scope
only. -/
structure Alike (c d : Catalog) : Prop where
  settings : d.settings = c.settings
  vocabulary : d.vocabulary = c.vocabulary
  workspace : d.workspace = c.workspace
  epoch : d.epoch = c.epoch
  generation : d.generation = c.generation
  active : c.scope = .current → d.active = c.active

theorem Alike.refl (c : Catalog) : c.Alike c := ⟨rfl, rfl, rfl, rfl, rfl, fun _ => rfl⟩

/-- Catalogs that differ in their notes alone, in two steps. -/
theorem Alike.trans {e : Catalog} (h : c.Alike d) (h' : d.Alike e) : c.Alike e where
  settings := h'.settings.trans h.settings
  vocabulary := h'.vocabulary.trans h.vocabulary
  workspace := h'.workspace.trans h.workspace
  epoch := h'.epoch.trans h.epoch
  generation := h'.generation.trans h.generation
  active := by
    intro hs
    have hd : d.scope = .current := by
      rw [scope, h.settings]
      exact hs
    exact (h'.active hd).trans (h.active hs)

/-- What is dropped is notes. -/
theorem alike_drop (c : Catalog) (path : Text) : c.Alike (c.drop path) :=
  ⟨rfl, rfl, rfl, rfl, rfl, fun _ => rfl⟩

/-- What is taken in with an update is notes. -/
theorem alike_finishUpdate (c : Catalog) (update : Update) (notes : List Note) :
    c.Alike (c.finishUpdate update notes).1 := by
  unfold Catalog.finishUpdate
  split
  · exact Alike.refl c
  · split
    · exact Alike.refl c
    · exact ⟨rfl, rfl, rfl, rfl, rfl, fun _ => rfl⟩

/-- The scope is the same. -/
theorem Alike.scope (h : c.Alike d) : d.scope = c.scope := by
  rw [Catalog.scope, Catalog.scope, h.settings]

/-- The same paths may have entries. -/
theorem Alike.admits (h : c.Alike d) {path : Text} (ha : c.Admits path) : d.Admits path := by
  constructor
  · rw [h.scope, h.workspace]
    exact ha.project
  · intro hs
    rw [h.scope] at hs
    rw [h.active hs]
    exact ha.current hs

/-- The same entries fit. -/
theorem Alike.entryFits (h : c.Alike d) {entry : Entry} (he : c.EntryFits entry) :
    d.EntryFits entry :=
  ⟨h.admits he.admits, h.vocabulary ▸ he.tags⟩

/-- The same updates fit. -/
theorem Alike.updateFits (h : c.Alike d) {update : Update} (hu : c.UpdateFits update) :
    d.UpdateFits update where
  generation_le := h.generation ▸ hu.generation_le
  epoch_le := h.epoch ▸ hu.epoch_le
  vocabulary := by
    rw [h.epoch, h.vocabulary]
    exact hu.vocabulary
  project := by
    rw [h.epoch, h.workspace]
    exact hu.project
  current := by
    rw [h.epoch, h.generation, h.scope]
    intro he hg hs
    rw [h.active hs]
    exact hu.current he hg hs

/-- The same scans fit. -/
theorem Alike.scanFits (h : c.Alike d) {next : Next} {scan : Scan} (hs : c.ScanFits next scan) :
    d.ScanFits next scan :=
  ⟨hs.vocabulary.trans h.vocabulary.symm, fun path hp => h.admits (hs.admits path hp),
    fun hl => h.scope ▸ hs.listing hl⟩

/-- A task on whose end nothing depends: it neither reloads nor scans for the current generation. -/
def Idle (c : Catalog) (task : Indexer.Task) : Prop :=
  ¬ task.next.isReload ∧ ∀ scan, task.next.scan? = some scan → scan.generation ≠ c.generation

/-- An update is no scan and no reload. -/
theorem idle_of_update {task : Indexer.Task} {update : Update} (h : task.next = .update update) :
    c.Idle task := by
  rw [Idle, h]
  exact ⟨id, fun _ hs => by cases hs⟩

/-- A step that changes entries only where they fit then, and that neither ends a reload nor a scan
of the current generation. -/
theorem Fitting.local (h : Fitting w c (olds ++ others)) (ha : c.Alike d)
    (hnodup : d.index.paths.Nodup)
    (hindex : ∀ entry ∈ d.index.entries, entry ∈ c.index.entries ∨ c.EntryFits entry)
    (htouched : ∀ entry ∈ d.index.entries, entry.path ∈ d.touched →
      entry ∈ c.index.entries ∧ entry.path ∈ c.touched ∨ c.EntryFits entry)
    (hold : ∀ old ∈ olds, c.Idle old)
    (hnew : ∀ new ∈ news, new.next.scan? = none ∧
      ∀ update, new.next = .update update → c.UpdateFits update) :
    Fitting w d (news ++ others) where
  configured := by
    rw [ha.workspace, ha.settings]
    exact h.configured
  nodup := hnodup
  updates := by
    intro task ht update hu
    rcases List.mem_append.1 ht with ht | ht
    · exact ha.updateFits ((hnew task ht).2 update hu)
    · exact ha.updateFits (h.updates task (List.mem_append_right _ ht) update hu)
  scans := by
    intro task ht scan hs
    rw [ha.generation]
    rcases List.mem_append.1 ht with ht | ht
    · rw [(hnew task ht).1] at hs
      cases hs
    · exact h.scans task (List.mem_append_right _ ht) scan hs
  state := by
    rcases h.state with ⟨task, ht, hr⟩ | hcalm
    · rcases List.mem_append.1 ht with ht | ht
      · exact absurd hr (hold task ht).1
      · exact .inl ⟨task, List.mem_append_right _ ht, hr⟩
    refine .inr ⟨fun task ht scan hs hg => ?_, fun entry he hm => ?_, ?_⟩
    · rcases List.mem_append.1 ht with ht | ht
      · rw [(hnew task ht).1] at hs
        cases hs
      · rw [ha.generation] at hg
        exact ha.scanFits (hcalm.scans task (List.mem_append_right _ ht) scan hs hg)
    · rcases htouched entry he hm with ⟨hc, hm⟩ | hbegins
      · exact ha.entryFits (hcalm.touched entry hc hm)
      · exact ha.entryFits hbegins
    · rcases hcalm.index with hbegins | ⟨task, ht, scan, hs, hg⟩
      · refine .inl fun entry he => ?_
        exact ha.entryFits ((hindex entry he).elim (hbegins entry) id)
      · rcases List.mem_append.1 ht with ht | ht
        · exact absurd hg ((hold task ht).2 scan hs)
        · exact .inr ⟨task, List.mem_append_right _ ht, scan, hs, ha.generation ▸ hg⟩

/-- A step that leaves the catalog alone, and waits for nothing or for observers only. -/
theorem Fitting.rests (h : Fitting w c (olds ++ others))
    (hold : ∀ old ∈ olds, c.Idle old)
    (hnew : ∀ new ∈ news, new.next.scan? = none ∧
      ∀ update, new.next = .update update → c.UpdateFits update) :
    Fitting w c (news ++ others) :=
  h.local (Alike.refl c) h.nodup (fun _ he => .inl he) (fun _ he hm => .inl ⟨he, hm⟩) hold hnew

/-- A call is over that nothing waits for. -/
theorem Fitting.over (h : Fitting w c (olds ++ others))
    (hold : ∀ old ∈ olds, c.Idle old) : Fitting w c others := by
  have hnew : ∀ new ∈ ([] : List Indexer.Task), new.next.scan? = none ∧
      ∀ update, new.next = .update update → c.UpdateFits update := by simp
  exact h.rests hold hnew

/-- What a scan has found fits, if it has what is in force. -/
theorem entryFits_of_scanned {scan : Scan} {found : List (Text × Option (List Note))}
    (hfound : ∀ entry ∈ found, ∃ text, (examine scan.vocabulary entry.1 text).1 = .ok entry.2)
    (hvocabulary : scan.vocabulary = c.vocabulary) (hadmits : ∀ entry ∈ found, c.Admits entry.1)
    {entry : Entry} (he : entry ∈ scannedEntries scan.keepEmpty found) : c.EntryFits entry := by
  obtain ⟨path, notes, hm, -, rfl⟩ := mem_scannedEntries.1 he
  obtain ⟨text, ht⟩ := hfound _ hm
  obtain ⟨read, -, hin⟩ := examine_eq_some ht
  refine ⟨hadmits _ hm, fun note hn => ?_⟩
  rw [← hvocabulary]
  exact (Vocabulary.notesIn_sound hin note hn).1

/-- Where a task goes on, updates come with those that were there. -/
theorem Fitting.updates_after {old : Indexer.Task} (h : Fitting w c ([old] ++ others)) {next : Next}
    (hnext : ∀ update, next ≠ .update update) :
    ∀ task ∈ Indexer.Task.pending { old with next } ++ others, ∀ update,
      task.next = .update update → c.UpdateFits update := by
  intro task ht update hu
  rcases List.mem_append.1 ht with ht | ht
  · rw [(Indexer.Task.eq_of_mem_pending ht).1] at hu
    exact absurd hu (hnext update)
  · exact h.updates task (List.mem_append_right _ ht) update hu

/-- Where a task goes on with the scan that it is, scans come with those that were there. -/
theorem Fitting.scans_after {old : Indexer.Task} (h : Fitting w c ([old] ++ others)) {next : Next}
    (hnext : ∀ scan, next.scan? = some scan → old.next.scan? = some scan) :
    ∀ task ∈ Indexer.Task.pending { old with next } ++ others, ∀ scan,
      task.next.scan? = some scan → scan.generation ≤ c.generation := by
  intro task ht scan hs
  rcases List.mem_append.1 ht with ht | ht
  · rw [(Indexer.Task.eq_of_mem_pending ht).1] at hs
    exact h.scans old (List.mem_append_left _ (List.mem_singleton_self _)) scan (hnext scan hs)
  · exact h.scans task (List.mem_append_right _ ht) scan hs

/-- When a scan ends that was not superseded, everything fits; one that was superseded was not
waited for. -/
theorem Fitting.finishScan {old : Indexer.Task} (h : Fitting w c ([old] ++ others)) {scan : Scan}
    {found : List (Text × Option (List Note))} (hreload : ¬ old.next.isReload)
    (hscan : old.next.scan? = some scan)
    (hfound : ∀ entry ∈ found, ∃ text, (examine scan.vocabulary entry.1 text).1 = .ok entry.2)
    (hadmits : c.ScanFits old.next scan → ∀ entry ∈ found, c.Admits entry.1) :
    Fitting w (c.finishScan scan found).1
      (Indexer.Task.pending { old with next := (c.finishScan scan found).2 } ++ others) := by
  unfold Catalog.finishScan
  by_cases hg : scan.generation = c.generation
  · rw [if_neg (by simpa using hg)]
    have ha : ∀ index, c.Alike { c with index } :=
      fun index => ⟨rfl, rfl, rfl, rfl, rfl, fun _ => rfl⟩
    refine ⟨h.configured, Index.paths_nodup_ofEntries _, fun task ht update hu => ?_,
      h.scans_after fun other hs => ?_, ?_⟩
    · exact (ha _).updateFits (h.updates_after (fun _ he => by cases he) task ht update hu)
    · cases hs
    rcases h.state with ⟨task, ht, hr⟩ | hcalm
    · rcases List.mem_append.1 ht with ht | ht
      · exact absurd (List.mem_singleton.1 ht ▸ hr) hreload
      · exact .inl ⟨task, List.mem_append_right _ ht, hr⟩
    have hbegins := hcalm.scans old (List.mem_append_left _ (List.mem_singleton_self _))
      scan hscan hg
    have hall : ∀ entry ∈ (Index.ofEntries (mergeTouched c.index c.touched scan.keepEmpty
        (scannedEntries scan.keepEmpty found))).entries, c.EntryFits entry := by
      intro entry he
      rcases mem_mergeTouched (Index.mem_of_mem_ofEntries he) with ⟨hm, -⟩ | ⟨hm, ht⟩
      · exact entryFits_of_scanned hfound hbegins.vocabulary (hadmits hbegins) hm
      · exact hcalm.touched entry hm ht
    refine .inr ⟨fun task ht other hs hg' => ?_, fun entry he _ => ?_, .inl fun entry he => ?_⟩
    · rcases List.mem_append.1 ht with ht | ht
      · rw [(Indexer.Task.eq_of_mem_pending ht).1] at hs
        cases hs
      · exact (ha _).scanFits (hcalm.scans task (List.mem_append_right _ ht) other hs hg')
    · exact (ha _).entryFits (hall entry he)
    · exact (ha _).entryFits (hall entry he)
  · rw [if_pos hg]
    refine h.over fun task ht => ?_
    rw [List.mem_singleton.1 ht]
    refine ⟨hreload, fun other ho => ?_⟩
    rw [hscan, Option.some.injEq] at ho
    exact ho ▸ hg

/-- A scan goes on with the list of its files. -/
theorem Fitting.listed {old : Indexer.Task} (h : Fitting w c ([old] ++ others)) {scan : Scan}
    (hnext : old.next = .list scan) {paths : List Text}
    (hpaths : scan.generation = c.generation → ¬ Reloads ([old] ++ others) → ∀ path ∈ paths,
      c.workspace.inScope path = true ∧ c.workspace.isSettingsFile path = false) :
    Fitting w (c.readFiles scan paths).1
      (Indexer.Task.pending { old with next := (c.readFiles scan paths).2 } ++ others) := by
  have hreload : ¬ old.next.isReload := by
    rw [hnext]
    exact id
  have hscan : old.next.scan? = some scan := by rw [hnext]; rfl
  unfold readFiles
  by_cases hp : paths = []
  · rw [if_pos (by simp [hp])]
    exact h.finishScan hreload hscan (by simp) (by simp)
  rw [if_neg (by simpa using hp)]
  refine ⟨h.configured, h.nodup, h.updates_after (fun _ he => by cases he),
    h.scans_after (fun other hs => hscan.trans hs), ?_⟩
  by_cases hr : Reloads ([old] ++ others)
  · obtain ⟨task, ht, hr⟩ := hr
    rcases List.mem_append.1 ht with ht | ht
    · exact absurd (List.mem_singleton.1 ht ▸ hr) hreload
    · exact .inl ⟨task, List.mem_append_right _ ht, hr⟩
  have hcalm := h.state.resolve_left hr
  refine .inr ⟨fun task ht other hs hg => ?_, hcalm.touched, ?_⟩
  · rcases List.mem_append.1 ht with ht | ht
    · rw [(Indexer.Task.eq_of_mem_pending ht).1] at hs ⊢
      cases hs
      have hbegins := hcalm.scans old (List.mem_append_left _ (List.mem_singleton_self _)) scan
        hscan hg
      refine ⟨hbegins.vocabulary, fun path hm => ⟨fun _ => hpaths hg hr path hm, fun hs => ?_⟩,
        fun hl => ?_⟩
      · exact absurd hs (hbegins.listing hnext)
      · cases hl
    · exact hcalm.scans task (List.mem_append_right _ ht) other hs hg
  · refine hcalm.index.imp_right ?_
    intro hex
    obtain ⟨task, ht, other, hs, hg⟩ := hex
    rcases List.mem_append.1 ht with ht | ht
    · rw [List.mem_singleton.1 ht, hscan, Option.some.injEq] at hs
      subst hs
      have hm : { old with next := Next.read scan paths } ∈
          Indexer.Task.pending { old with next := Next.read scan paths } :=
            List.mem_singleton_self _
      exact ⟨_, List.mem_append_left _ hm, scan, rfl, hg⟩
    · exact ⟨task, List.mem_append_right _ ht, other, hs, hg⟩

/-- Taking out a path leaves entries that fit. -/
theorem Fitting.drop (h : Fitting w c (olds ++ others)) (path : Text)
    (hold : ∀ old ∈ olds, c.Idle old)
    (hnew : ∀ new ∈ news, new.next.scan? = none ∧ ∀ update, new.next ≠ .update update) :
    Fitting w (c.drop path) (news ++ others) := by
  have hgone : ∀ entry ∈ (c.drop path).index.entries,
      entry ∈ c.index.entries ∧ entry.path ≠ path := by
    intro entry he
    have := List.mem_filter.1 he
    exact ⟨this.1, by simpa using this.2⟩
  refine h.local (alike_drop c path) (Index.paths_nodup_remove h.nodup path)
    (fun entry he => .inl (hgone entry he).1) (fun entry he hm => ?_) hold
    (fun new hm => ⟨(hnew new hm).1, fun update hu => absurd hu ((hnew new hm).2 update)⟩)
  refine .inl ⟨(hgone entry he).1, ?_⟩
  exact (mem_touch.1 hm).resolve_right (hgone entry he).2

/-! ### The steps of calls -/

/-- New notes for a file fit if the update does. -/
theorem Fitting.finishUpdate {old : Indexer.Task} (h : Fitting w c ([old] ++ others))
    {update : Update} (hnext : old.next = .update update) {notes : List Note}
    (hnotes : ∀ note ∈ notes, note.tag ∈ update.vocabulary.names) :
    Fitting w (c.finishUpdate update notes).1
      (Indexer.Task.pending { old with next := (c.finishUpdate update notes).2 } ++ others) := by
  have hold : ∀ task ∈ [old], c.Idle task := by
    intro task ht
    rw [List.mem_singleton.1 ht]
    exact idle_of_update hnext
  unfold Catalog.finishUpdate
  by_cases hstale : c.isStale update = true
  · rw [if_pos hstale]
    exact h.over hold
  rw [if_neg hstale]
  split
  · exact h.over hold
  have hupdate := h.updates old (List.mem_append_left _ (List.mem_singleton_self _)) update hnext
  have hfresh : update.epoch = c.epoch ∧ (update.generation = c.generation ∨
      c.scope ≠ .current ∨ c.active = some update.path) := by
    simp only [isStale, Bool.or_eq_true, Bool.and_eq_true, decide_eq_true_eq, not_or, not_and,
      Classical.not_not] at hstale
    refine ⟨hstale.1, ?_⟩
    by_cases hg : update.generation = c.generation
    · exact .inl hg
    · by_cases hs : c.scope = .current
      · exact .inr (.inr (hstale.2 ⟨hg, hs⟩))
      · exact .inr (.inl hs)
  have hbegins : c.EntryFits (c.index.renewed update.path notes) := by
    refine ⟨⟨fun _ => hupdate.project hfresh.1, fun hs => ?_⟩, fun note hn => ?_⟩
    · rcases hfresh.2 with hg | hne | hactive
      · exact hupdate.current hfresh.1 hg hs
      · exact absurd hs hne
      · exact hactive
    · rw [← hupdate.vocabulary hfresh.1]
      exact hnotes note hn
  have hentries : ∀ entry ∈ (c.index.update update.path notes).entries,
      entry ∈ c.index.entries ∧ entry.path ≠ update.path ∨ c.EntryFits entry := by
    intro entry he
    rcases Index.mem_put_of_nodup h.nodup he with rfl | hold
    · exact .inr hbegins
    · exact .inl hold
  refine h.local ⟨rfl, rfl, rfl, rfl, rfl, fun _ => rfl⟩ (Index.paths_nodup_put _ h.nodup)
    (fun entry he => (hentries entry he).imp_left And.left) (fun entry he hm => ?_) hold
    fun task ht => ?_
  · refine (hentries entry he).imp_left fun hkept => ⟨hkept.1, ?_⟩
    exact (mem_touch.1 hm).resolve_right hkept.2
  · rw [(Indexer.Task.eq_of_mem_pending ht).1]
    exact ⟨rfl, fun _ hu => by cases hu⟩

/-- **A call begins.**  What it leaves fits, if what it found did. -/
theorem Fitting.begun (h : Fitting w c others) {step : Catalog × Next} (hb : Begins c step)
    (id : JobId) (request : Request) :
    Fitting w step.1 (Indexer.Task.pending { id, request, next := step.2 } ++ others) := by
  have hfirst : Fitting w c ([] ++ others) := h
  have hnone : ∀ old ∈ ([] : List Indexer.Task), c.Idle old := by simp
  cases hb with
  | scan scope active => exact hfirst.scan scope active id request
  | load =>
      rw [beginLoad_eq]
      split
      · refine hfirst.reload h.configured h.nodup (Nat.le_succ _)
          (.inr ⟨rfl, Nat.lt_succ_self _, rfl, rfl⟩) (List.mem_singleton_self _) ?_
        intro task ht
        rw [List.mem_singleton.1 ht]
        trivial
      · refine hfirst.reload h.configured List.nodup_nil (Nat.le_succ _)
          (.inr ⟨rfl, Nat.lt_succ_self _, rfl, rfl⟩) (List.mem_singleton_self _) ?_
        intro task ht
        rw [List.mem_singleton.1 ht]
        trivial
  | activate active hscope =>
      refine hfirst.local ⟨rfl, rfl, rfl, rfl, rfl, fun hs => absurd hs hscope⟩ h.nodup
        (fun _ he => .inl he) (fun _ he hm => .inl ⟨he, hm⟩) hnone
        (fun _ hm => absurd rfl ((Indexer.Task.eq_of_mem_pending hm).2.1 true))
  | drop path next hnext =>
      refine hfirst.drop path hnone fun task ht => ?_
      rw [(Indexer.Task.eq_of_mem_pending ht).1]
      rcases hnext with rfl | rfl
      · exact ⟨rfl, fun _ hu => by cases hu⟩
      · exact ⟨rfl, fun _ hu => by cases hu⟩
  | update path hfile hscope hactive =>
      refine hfirst.rests hnone fun task ht => ?_
      rw [List.mem_singleton.1 ht]
      refine ⟨rfl, fun update hu => ?_⟩
      cases hu
      exact ⟨Nat.le_refl _, Nat.le_refl _, fun _ => rfl, fun _ => ⟨hscope, hfile⟩,
        fun _ _ => hactive⟩
  | done => exact hfirst
  | fail fault => exact hfirst

/-- New settings come into force. -/
theorem Fitting.finishLoad {old : Indexer.Task} (h : Fitting w c ([old] ++ others))
    (settings : Settings) (hsmooth : ∀ fault, (c.finishLoad settings).1.2 ≠ .fail fault) :
    Fitting w (c.finishLoad settings).1.1
      (Indexer.Task.pending { old with next := (c.finishLoad settings).1.2 } ++ others) := by
  rcases c.finishLoad_cases settings with ⟨vocabulary, heq⟩ | ⟨fault, heq⟩
  · rw [heq]
    have hworkspace : c.workspace.configure settings.search = w.configure settings.search := by
      rw [h.configured]
      rfl
    refine h.reload hworkspace List.nodup_nil (Nat.le_refl _) (.inl rfl)
      (List.mem_singleton_self _) fun task ht => ?_
    rw [List.mem_singleton.1 ht]
    trivial
  · exact absurd (congrArg Prod.snd heq) (hsmooth fault)

/-- The text of a file has been examined. -/
theorem Fitting.afterRead {old : Indexer.Task} (h : Fitting w c ([old] ++ others)) {update : Update}
    (hnext : old.next = .update update) {text : Except Document.Fault Text} {found : Found}
    (hfound : (examine update.vocabulary update.path text).1 = found) :
    Fitting w (c.afterRead update found).1
      (Indexer.Task.pending { old with next := (c.afterRead update found).2 } ++ others) := by
  have hold : ∀ task ∈ [old], c.Idle task := by
    intro task ht
    rw [List.mem_singleton.1 ht]
    exact idle_of_update hnext
  cases found with
  | error fault => exact h.over hold
  | ok notes? =>
      cases notes? with
      | none => exact h.over hold
      | some notes =>
          obtain ⟨read, -, hin⟩ := examine_eq_some hfound
          exact h.finishUpdate hnext fun note hn => (Vocabulary.notesIn_sound hin note hn).1

/-- **A call goes on.**  What it leaves fits, if it goes on without a fault and the files that are
listed for a scan of the current generation are those of the workspace. -/
theorem Fitting.proceeds {old : Indexer.Task} (h : Fitting w c ([old] ++ others))
    {move : Indexer.Move} {step : Catalog × Next} (hp : Indexer.Proceeds move c old step)
    (hsmooth : ∀ fault, step.2 ≠ .fail fault)
    (hlisted : ∀ scan paths, old.next = .list scan → move = .list old.id (.ok paths) →
      scan.generation = c.generation → ¬ Reloads ([old] ++ others) → ∀ path ∈ paths,
        c.workspace.inScope path = true ∧ c.workspace.isSettingsFile path = false) :
    Fitting w step.1 (Indexer.Task.pending { old with next := step.2 } ++ others) := by
  cases hp with
  | loadFailed fault => exact absurd rfl (hsmooth _)
  | loaded settings => exact h.finishLoad settings hsmooth
  | listFailed fault => exact absurd rfl (hsmooth _)
  | listed paths => exact h.listed rfl (hlisted _ paths rfl rfl)
  | gatherFailed fault => exact absurd rfl (hsmooth _)
  | gathered found hfound =>
      refine h.finishScan id rfl hfound fun hbegins entry he => ?_
      exact hbegins.admits entry.1 (List.mem_map_of_mem he)
  | updated ticket text => exact h.afterRead rfl rfl
  | @told _ _ _ topic =>
      cases topic with
      | settingsLoaded => exact h.scan c.scope c.active _ _
      | notesUpdated =>
          refine h.over fun task ht => ?_
          rw [List.mem_singleton.1 ht]
          exact ⟨id, fun _ hs => by cases hs⟩

end Catalog

end Marginalia
