import Marginalia.Proofs.Fitting
import Marginalia.Proofs.Scans

/-!
# What is left when all calls are over

Once all calls are over, however they were interleaved, every entry of the index fits what is in
force (`Indexer.index_fits_of_quiescent`): its notes have tags that are looked for, and its file is
one to be shown.

Little is asked of the world.  The texts that come in may be any; the disk may change at any time;
of the lists of files it is asked that they were made by the workspace (`Indexer.Faithful`), and
only where the settings did not change meanwhile.  That a list which was made during such a change
does not matter is an invariant of its own (`Indexer.Sound.stale`): its scan is superseded, or
settings are still being loaded.
-/

namespace Marginalia

/-- A file that the workspace lists on some disk. -/
def Workspace.Lists (w : Workspace) (path : Text) : Prop :=
  ∃ disk paths, disk.HasNames ∧ w.list disk = .ok paths ∧ path ∈ paths

/-- A listed path is in scope, and is not that of the settings file. -/
theorem Workspace.Lists.inScope {w : Workspace} (h : w.root.IsPlain) {path : Text}
    (hl : w.Lists path) : w.inScope path = true ∧ w.isSettingsFile path = false := by
  obtain ⟨disk, paths, hd, hlist, hp⟩ := hl
  obtain ⟨-, hscope, hfile, -, -⟩ := Workspace.of_mem_list h hd hlist hp
  exact ⟨hscope, hfile⟩

namespace Indexer

open Catalog (Next Fitting Reloads)

/-- The calls that wait for a list of files. -/
def listing (x : Indexer) : List JobId :=
  x.tasks.filterMap fun task =>
    match task.next with
    | .list _ => some task.id
    | _ => none

/-- The calls whose lists are made while settings change: those of `stale` that still wait after a
turn from `x` to `y`, or all that waited if it brings settings into force. -/
def overtaken (stale : List JobId) (x y : Indexer) : List JobId :=
  (if y.catalog.epoch = x.catalog.epoch then stale else x.listing).filter (y.listing.contains ·)

/-- The lists that come in hold files that the workspace lists, with the settings in force, while
the disk may change all the time.  Of a list that is made while the settings change, nothing is
known. -/
def Faithful : Indexer → List JobId → List Turn → Prop
  | _, _, [] => True
  | x, stale, turn :: rest =>
    (∀ id paths, turn.move = .list id (.ok paths) → id ∉ stale →
      ∀ path ∈ paths, x.catalog.workspace.Lists path) ∧
    Faithful (x.after turn) (overtaken stale x (x.after turn)) rest

variable {x : Indexer} {turn : Turn} {rest turns : List Turn} {w : Workspace} {stale : List JobId}
  {id : JobId} {request : Request} {step : Catalog × Next}

/-- Who waits for a list of files. -/
theorem mem_listing :
    id ∈ x.listing ↔ ∃ task ∈ x.tasks, task.id = id ∧ ∃ scan, task.next = .list scan := by
  unfold listing
  rw [List.mem_filterMap]
  constructor
  · intro hex
    obtain ⟨task, ht, hid⟩ := hex
    split at hid
    · rename_i scan hs
      exact ⟨task, ht, Option.some.inj hid, scan, hs⟩
    · cases hid
  · intro hex
    obtain ⟨task, ht, rfl, scan, hs⟩ := hex
    exact ⟨task, ht, by rw [hs]⟩

/-! ### Reloads -/

/-- A reload stays pending until it ends. -/
theorem mem_pending_of_isReload {task : Task} (h : task.next.isReload) : task ∈ task.pending := by
  obtain ⟨id, request, next⟩ := task
  cases next with
  | load => exact List.mem_singleton_self _
  | tell topic => exact List.mem_singleton_self _
  | _ => exact h.elim

/-- Settings come into force in steps of a reload only. -/
theorem Proceeds.epoch {move : Move} {c : Catalog} {task : Task} (h : Proceeds move c task step)
    (hsmooth : ∀ fault, step.2 ≠ .fail fault) : step.1.epoch = c.epoch ∨ step.2.isReload := by
  cases h.continues with
  | scan scan _ hs goes =>
      refine .inl ?_
      cases goes <;> rfl
  | loadFailed fault hnext => exact .inl rfl
  | loaded settings hnext hmove =>
      rcases c.finishLoad_cases settings with ⟨vocabulary, heq⟩ | ⟨fault, heq⟩
      · rw [heq]
        exact .inr trivial
      · exact absurd (congrArg Prod.snd heq) (hsmooth fault)
  | updated update ticket text hnext hmove => exact .inl (c.afterRead_kept _ _).2.1
  | begins hnext => exact .inl (Catalog.beginScan_epoch c)
  | ends hnext => exact .inl rfl

/-- A reload goes on as one until it begins its scan. -/
theorem Proceeds.reload {move : Move} {c : Catalog} {task : Task} (h : Proceeds move c task step)
    (hr : task.next.isReload) (hsmooth : ∀ fault, step.2 ≠ .fail fault) :
    step.2.isReload ∨ c.generation < step.1.generation := by
  cases h with
  | loadFailed fault => exact absurd rfl (hsmooth _)
  | loaded settings =>
      rcases c.finishLoad_cases settings with ⟨vocabulary, heq⟩ | ⟨fault, heq⟩
      · rw [heq]
        exact .inl trivial
      · exact absurd (congrArg Prod.snd heq) (hsmooth fault)
  | @told _ _ _ topic =>
      cases topic with
      | settingsLoaded => exact .inr (Catalog.beginScan_generation c ▸ Nat.lt_succ_self _)
      | notesUpdated => exact hr.elim
  | _ => exact hr.elim

/-- A call whose next step is that of a reload reloads. -/
theorem Steps.reloads (h : Steps x turn id request step) (hr : step.2.isReload) :
    Reloads (x.after turn).tasks :=
  ⟨{ id, request, next := step.2 }, h.mem_of_pending (mem_pending_of_isReload hr), hr⟩

/-- A turn that brings settings into force is one of a reload that goes on. -/
theorem Outcome.epoch (h : Outcome x turn) (hsmooth : Smooth x turn) :
    (x.after turn).catalog.epoch = x.catalog.epoch ∨ Reloads (x.after turn).tasks := by
  cases h with
  | quiet hc ht hs => exact .inl (congrArg Catalog.epoch hc)
  | begun id request hm hnone hsteps =>
      rw [hsteps.catalog]
      exact .inl (Catalog.begins x.catalog turn.disk request).epoch
  | resumed task hm step hp hsteps =>
      rw [hsteps.catalog]
      exact (hp.epoch (hsteps.not_fail hsmooth)).imp_right hsteps.reloads

/-- Settings are being loaded until a scan begins. -/
theorem Outcome.reloads (h : Outcome x turn) (hx : x.Sane) (hsmooth : Smooth x turn)
    (hr : Reloads x.tasks) :
    Reloads (x.after turn).tasks ∨ x.catalog.generation < (x.after turn).catalog.generation := by
  obtain ⟨reload, hreload, hr⟩ := hr
  rcases h.mem_or_proceeds hx hreload with hm | ⟨step, hp, hsteps⟩
  · exact .inl ⟨reload, hm, hr⟩
  · rw [hsteps.catalog]
    exact (hp.reload hr (hsteps.not_fail hsmooth)).imp_left hsteps.reloads

/-! ### The invariant -/

/-- What holds at all times; the lists that are made while settings change are of scans that do not
count. -/
structure Sound (w : Workspace) (stale : List JobId) (x : Indexer) : Prop where
  fitting : Fitting w x.catalog x.tasks
  listing : ∀ id ∈ stale, id ∈ x.listing
  stale : ∀ task ∈ x.tasks, task.id ∈ stale → ∀ scan, task.next = .list scan →
    scan.generation < x.catalog.generation ∨ Reloads x.tasks

/-- A call whose list is overtaken waits for it before and after the turn; if the settings stay, it
was overtaken before. -/
theorem overtaken_subset {y : Indexer} (h : ∀ id ∈ stale, id ∈ x.listing)
    (hm : id ∈ overtaken stale x y) :
    id ∈ x.listing ∧ id ∈ y.listing ∧ (y.catalog.epoch = x.catalog.epoch → id ∈ stale) := by
  obtain ⟨hid, hy⟩ := List.mem_filter.1 hm
  have hy : id ∈ y.listing := by simpa using hy
  split at hid
  · exact ⟨h id hid, hy, fun _ => hid⟩
  · rename_i hne
    exact ⟨hid, hy, fun he => absurd he hne⟩

/-- What waits for a list after a turn and waited for one before is the same task. -/
theorem Outcome.mem_of_list (h : Outcome x turn) (hx : x.Sane) {task : Task}
    (ht : task ∈ (x.after turn).tasks) (hid : task.id ∈ x.listing) {scan : Catalog.Scan}
    (hs : task.next = .list scan) : task ∈ x.tasks := by
  obtain ⟨prior, hprior, he, other, ho⟩ := mem_listing.1 hid
  cases h.origin ht with
  | old _ ht => exact ht
  | begun id request hm hnone hsteps => exact absurd he (taskAt?_eq_none.1 hnone prior hprior)
  | resumed old hold step hp hsteps =>
      obtain rfl := hx.task_eq_of_id hprior hold he
      have hscan : prior.next.scan? = some other := by
        rw [ho]
        rfl
      have hgoes := hp.scanGoes hscan
      cases hgoes <;> cases hs

/-- In a turn of which the lists are faithful, everything goes on to fit. -/
theorem Sound.fitting_after (h : Sound w stale x) (hx : x.Sane) (houtcome : Outcome x turn)
    (hroot : w.root.IsPlain) (hsmooth : Smooth x turn)
    (hlists : ∀ id paths, turn.move = .list id (.ok paths) → id ∉ stale →
      ∀ path ∈ paths, x.catalog.workspace.Lists path) :
    Fitting w (x.after turn).catalog (x.after turn).tasks := by
  have happend : ∀ {id request step}, Steps x turn id request step →
      Fitting w step.1 (Task.pending { id, request, next := step.2 } ++
        x.tasks.filter (·.id ≠ id)) → Fitting w (x.after turn).catalog (x.after turn).tasks := by
    intro id request step hsteps hbegins
    rw [hsteps.catalog, hsteps.tasks]
    refine hbegins.congr fun task => ?_
    rw [List.mem_append, List.mem_append, or_comm]
  cases houtcome with
  | quiet hc ht hs =>
      rw [hc, ht]
      exact h.fitting
  | begun id request hm hnone hsteps =>
      refine happend hsteps (Fitting.begun ?_ (Catalog.begins _ _ _) id request)
      refine h.fitting.congr fun task => ?_
      rw [List.mem_filter]
      exact ⟨And.left, fun ht => ⟨ht, by simpa using taskAt?_eq_none.1 hnone task ht⟩⟩
  | resumed old hm step hp hsteps =>
      have hothers := h.fitting.congr fun _ => hx.mem_others hm
      refine happend hsteps (hothers.proceeds hp (hsteps.not_fail hsmooth) ?_)
      intro scan paths hnext hmove hg hr path hp
      have hfresh : old.id ∉ stale := by
        intro hs
        rcases h.stale old hm hs scan hnext with hlt | ⟨task, ht, hreload⟩
        · exact absurd hg (Nat.ne_of_lt hlt)
        · exact hr ⟨task, (hx.mem_others hm).2 ht, hreload⟩
      have hplain : x.catalog.workspace.root.IsPlain := by
        rw [h.fitting.configured]
        exact hroot
      exact (hlists old.id paths hmove hfresh path hp).inScope hplain

/-- The invariant holds from turn to turn. -/
theorem Sound.after (h : Sound w stale x) (hlegal : Legal x (turn :: rest)) (hroot : w.root.IsPlain)
    (hsmooth : Smooth x turn)
    (hlists : ∀ id paths, turn.move = .list id (.ok paths) → id ∉ stale →
      ∀ path ∈ paths, x.catalog.workspace.Lists path) :
    Sound w (overtaken stale x (x.after turn)) (x.after turn) where
  fitting := h.fitting_after hlegal.sane hlegal.next.2 hroot hsmooth hlists
  listing := fun _ hm => (overtaken_subset h.listing hm).2.1
  stale := by
    intro task ht hm scan hs
    have houtcome := hlegal.next.2
    obtain ⟨hlisting, -, hstale⟩ := overtaken_subset h.listing hm
    rcases houtcome.epoch hsmooth with hepoch | hr
    · have hprior := houtcome.mem_of_list hlegal.sane ht hlisting hs
      rcases h.stale task hprior (hstale hepoch) scan hs with hlt | hr
      · exact .inl (Nat.lt_of_lt_of_le hlt houtcome.generation_le)
      · rcases houtcome.reloads hlegal.sane hsmooth hr with hr | hlt
        · exact .inr hr
        · refine .inl (Nat.lt_of_le_of_lt (h.fitting.scans task hprior scan ?_) hlt)
          rw [hs]
          rfl
    · exact .inr hr

/-- **The invariant** holds after every smooth and faithful run. -/
theorem Sound.run (h : Sound w stale x) (hlegal : Legal x turns) (hroot : w.root.IsPlain)
    (hsmooth : Along Smooth x turns) (hfaithful : Faithful x stale turns) :
    ∃ stale, Sound w stale (x.run turns) := by
  induction turns generalizing x stale with
  | nil => exact ⟨stale, h⟩
  | cons turn rest ih =>
      exact ih (h.after hlegal hroot hsmooth.1 hfaithful.1) hlegal.next.1 hsmooth.2 hfaithful.2

/-- At the beginning nothing is there that could not fit. -/
theorem sound_ofSettings {settings : Settings} {hasFile : Bool} {c : Catalog}
    {warnings : List Warning} (hc : Catalog.ofSettings w settings hasFile = .ok (c, warnings))
    (limit : Int) : Sound w [] (ofCatalog c limit) := by
  have hempty : c.workspace = w.configure c.settings.search ∧ c.index.entries = [] := by
    unfold Catalog.ofSettings at hc
    split at hc
    · cases hc
      exact ⟨rfl, rfl⟩
    · cases hc
  have hnone : ∀ entry ∈ c.index.entries, c.EntryFits entry := by simp [hempty.2]
  refine ⟨⟨hempty.1, ?_, by simp [ofCatalog, tasks], by simp [ofCatalog, tasks], ?_⟩, by simp,
    by simp⟩
  · show c.index.paths.Nodup
    simp [Index.paths, hempty.2]
  · exact .inr ⟨by simp [ofCatalog, tasks], fun entry he _ => hnone entry he, .inl hnone⟩

/-- **The index fits when all calls are over.**  Once all calls are over, each note has a tag that
is looked for, and stands in a file that is to be shown: one of the project that is not left out, or
the active document in the current scope. -/
theorem index_fits_of_quiescent {root : Text} (hroot : (Path.ofText root).isAbsolute = true)
    {search : Search} {file : Text} {override : Option Text}
    (hw : w = .ofRoot (Path.ofText root) search file override) {settings : Settings}
    {hasFile : Bool} {c : Catalog} {warnings : List Warning}
    (hc : Catalog.ofSettings w settings hasFile = .ok (c, warnings)) {limit : Int}
    (hcalls : Calls turns) (hsmooth : Along Smooth (ofCatalog c limit) turns)
    (hfaithful : Faithful (ofCatalog c limit) [] turns) {d : Catalog}
    (hd : ((ofCatalog c limit).run turns).catalog = d)
    (hover : ((ofCatalog c limit).run turns).jobs = []) :
    (∀ entry ∈ d.index.entries, ∀ note ∈ entry.notes, note.tag ∈ d.vocabulary.names) ∧
      (d.scope ≠ .current → ∀ path ∈ d.index.paths,
        (w.configure d.settings.search).inScope path = true ∧
          (w.configure d.settings.search).isSettingsFile path = false) ∧
      (d.scope = .current → ∀ path ∈ d.index.paths, d.active = some path) := by
  have hplain : w.IsPlain := hw ▸ Workspace.ofRoot_isPlain hroot search file override
  obtain ⟨stale, hsound⟩ :=
    (sound_ofSettings hc limit).run (hcalls.legal c limit) hplain.root hsmooth hfaithful
  have hfitting := hsound.fitting
  -- With no task left, nobody answers for an entry that does not fit.
  have hnone : ((ofCatalog c limit).run turns).tasks = [] := by
    rw [tasks, hover]
    rfl
  rw [hnone, hd] at hfitting
  have hbegins := hfitting.entryFits
  refine ⟨fun entry he => (hbegins entry he).tags, fun hscope path hp => ?_,
    fun hscope path hp => ?_⟩
  · obtain ⟨entry, he, rfl⟩ := List.mem_map.1 hp
    rw [← hfitting.configured]
    exact (hbegins entry he).admits.project hscope
  · obtain ⟨entry, he, rfl⟩ := List.mem_map.1 hp
    exact (hbegins entry he).admits.current hscope

/-! ## Two scans at once -/

open Catalog (opened filledProject project)

/-- Lists are faithful if the workspace makes them at the moment when they come in. -/
theorem faithful_of_along (h : Along (fun y turn => ∀ id paths, turn.move = .list id (.ok paths) →
    ∀ path ∈ paths, y.catalog.workspace.Lists path) x turns) : Faithful x stale turns := by
  induction turns generalizing x stale with
  | nil => trivial
  | cons turn rest ih => exact ⟨fun id paths hm _ => h.1 id paths hm, ih h.2⟩

/-- At all times the workspace is that of the project, of which the lists hold the one file; at the
end nothing is under way, and that file is in the index. -/
theorem twoScans_ends :
    Along (fun y turn => y.catalog.workspace = project ∧
      ∀ path ∈ turn.move.listed, path = "/p/a.py")
        (ofCatalog opened 8) twoScans ∧
      (project.list filledProject).toOption = some [("/p/a.py" : Text)] ∧
      ((ofCatalog opened 8).run twoScans).jobs = [] ∧
      ((ofCatalog opened 8).run twoScans).catalog.scope ≠ .current ∧
      ((ofCatalog opened 8).run twoScans).catalog.index.paths = [("/p/a.py" : Text)] := by
  rw [Catalog.opened_eq]
  decide +kernel

theorem lists_project : project.Lists "/p/a.py" := by
  have hlist := twoScans_ends.2.1
  cases hl : project.list filledProject with
  | error fault => simp [hl, Except.toOption] at hlist
  | ok paths =>
      have hpaths : paths = [("/p/a.py" : Text)] := by simpa [hl, Except.toOption] using hlist
      exact ⟨filledProject, paths, by decide +kernel, hl, by simp [hpaths]⟩

theorem faithful_twoScans : Faithful (ofCatalog opened 8) [] twoScans := by
  refine faithful_of_along (twoScans_ends.1.imp fun y turn _ h id paths hm path hp => ?_)
  rw [h.1, h.2 path (by rwa [hm])]
  exact lists_project

/-- After two scans at once, the index holds the note of the project, with a tag that is looked for,
in a file that is not left out. -/
theorem index_fits_of_quiescent_twoScans :
    ((ofCatalog opened 8).run twoScans).catalog.index.paths = [("/p/a.py" : Text)] ∧
      (∀ entry ∈ ((ofCatalog opened 8).run twoScans).catalog.index.entries, ∀ note ∈ entry.notes,
        note.tag ∈ ((ofCatalog opened 8).run twoScans).catalog.vocabulary.names) ∧
      ∀ path ∈ ((ofCatalog opened 8).run twoScans).catalog.index.paths,
        (project.configure
          ((ofCatalog opened 8).run twoScans).catalog.settings.search).inScope path = true ∧
        (project.configure
          ((ofCatalog opened 8).run twoScans).catalog.settings.search).isSettingsFile path =
            false := by
  obtain ⟨-, -, hover, hscope, hpaths⟩ := twoScans_ends
  obtain ⟨warnings, hopened⟩ := Catalog.ofSettings_project
  have hproject : project = .ofRoot (Path.ofText "/p") {} [] none := rfl
  obtain ⟨htags, hproject, -⟩ := index_fits_of_quiescent Catalog.project_isAbsolute hproject hopened
    calls_twoScans twoScans_runs.1 faithful_twoScans rfl hover
  exact ⟨hpaths, htags, hproject hscope⟩

end Indexer

end Marginalia
