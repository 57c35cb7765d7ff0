import Mathlib.Data.List.Nodup
import Marginalia.Proofs.Fitting
import Marginalia.Proofs.Scans

/-!
# Reloads that overlap

A reload asks for the settings when it begins and brings them into force when they come in.  It does
not look whether another reload has begun meanwhile, so the settings in force are those that came in
last, whichever call they were for (`Indexer.inForce_of_last_arrival`).  Each reload has its
settings come in just once (`Indexer.arrivals_perm`).  Together: what the reload that began last has
loaded is in force in the end if and only if the settings that came in last are the same
(`Indexer.reload_in_force_iff`); where the outcomes of two reloads overtake each other, the older
settings stay (`Indexer.older_settings_stay`).
-/

namespace Marginalia

namespace Catalog

/-- Whether settings are in force: the vocabulary and the exclusions are theirs as well. -/
structure InForce (c : Catalog) (loaded : Settings) : Prop where
  settings : c.settings = loaded
  vocabulary : loaded.vocabularyWithWarnings.map Prod.fst = .ok c.vocabulary
  exclusions : c.workspace.configure loaded.search = c.workspace

/-- Another catalog with the same settings in force, of the same epoch. -/
structure SameSettings (c d : Catalog) : Prop where
  settings : d.settings = c.settings
  vocabulary : d.vocabulary = c.vocabulary
  workspace : d.workspace = c.workspace
  epoch : d.epoch = c.epoch

variable {c d e : Catalog} {settings : Settings}

theorem SameSettings.refl (c : Catalog) : c.SameSettings c := ⟨rfl, rfl, rfl, rfl⟩

/-- The same settings in two steps. -/
theorem SameSettings.trans (h : c.SameSettings d) (h' : d.SameSettings e) : c.SameSettings e where
  settings := h'.settings.trans h.settings
  vocabulary := h'.vocabulary.trans h.vocabulary
  workspace := h'.workspace.trans h.workspace
  epoch := h'.epoch.trans h.epoch

/-- Settings are in force in every catalog that has the same ones. -/
theorem SameSettings.inForce (h : c.SameSettings d) (hc : c.InForce settings) :
    d.InForce settings where
  settings := h.settings.trans hc.settings
  vocabulary := by rw [h.vocabulary, hc.vocabulary]
  exclusions := by rw [h.workspace, hc.exclusions]

/-- Catalogs that differ in their notes alone have the same settings. -/
theorem Alike.sameSettings (h : c.Alike d) : c.SameSettings d :=
  ⟨h.settings, h.vocabulary, h.workspace, h.epoch⟩

/-- The active document is none of the settings. -/
theorem sameSettings_activate (c : Catalog) (active : Option Text) :
    c.SameSettings { c with active } := ⟨rfl, rfl, rfl, rfl⟩

/-- A scan changes no settings. -/
theorem sameSettings_beginScan (c : Catalog) : c.SameSettings c.beginScan.1 := by
  obtain ⟨index, h⟩ := c.beginScan_fst
  rw [h]
  exact ⟨rfl, rfl, rfl, rfl⟩

/-- Neither does a reload that begins. -/
theorem sameSettings_beginLoad (c : Catalog) : c.SameSettings c.beginLoad.1 := by
  rw [beginLoad_eq]
  split <;> exact ⟨rfl, rfl, rfl, rfl⟩

/-- Nor does an update that ends. -/
theorem sameSettings_afterRead (c : Catalog) (update : Update) (found : Found) :
    c.SameSettings (c.afterRead update found).1 := by
  cases found with
  | error fault => exact .refl c
  | ok notes? =>
      cases notes? with
      | none => exact .refl c
      | some notes => exact (alike_finishUpdate c update notes).sameSettings

/-- No request changes the settings with its first step, unless it asks for another scope. -/
theorem sameSettings_begin (c : Catalog) (disk : Disk) {request : Request}
    (h : ∀ scope, request = .setScope scope → scope = c.scope) :
    c.SameSettings (c.begin disk request).1 := by
  cases request with
  | rescan => exact sameSettings_beginScan c
  | reload => exact sameSettings_beginLoad c
  | setScope scope =>
      simp only [begin, changeScope, if_pos (h scope rfl)]
      exact .refl c
  | setActive path =>
      simp only [begin, changeActive]
      split
      · exact (sameSettings_activate c _).trans (sameSettings_beginScan _)
      · exact sameSettings_activate c _
  | file event =>
      cases event with
      | modified path =>
          simp only [begin, beginUpdate]
          split
          · exact sameSettings_beginLoad c
          · split
            · exact .refl c
            · exact (alike_drop c _).sameSettings
            · split <;> exact .refl c
      | deleted path =>
          simp only [begin, deleteFile]
          split
          · exact sameSettings_beginLoad c
          · split
            · exact (alike_drop c _).sameSettings
            · exact .refl c
      | renamed old new =>
          simp only [begin, renameFile]
          split
          · exact sameSettings_beginLoad c
          · split
            · split
              · exact (sameSettings_activate c _).trans (sameSettings_beginScan _)
              · exact sameSettings_beginScan c
            · exact .refl c

/-- Settings that can be used at all are in force when they have come in. -/
theorem inForce_finishLoad (hsmooth : ∀ fault, (c.finishLoad settings).1.2 ≠ .fail fault) :
    (c.finishLoad settings).1.1.InForce settings := by
  unfold finishLoad apply at hsmooth ⊢
  cases hv : settings.vocabularyWithWarnings with
  | error fault =>
      rw [hv] at hsmooth
      exact absurd rfl (hsmooth _)
  | ok result => exact ⟨rfl, by rw [hv]; rfl, rfl⟩

/-- Whether settings are waited for. -/
def Next.isLoad : Next → Bool
  | .load => true
  | _ => false

theorem Next.isLoad_iff {next : Next} : next.isLoad = true ↔ next = .load := by
  cases next <;> simp [isLoad]

/-- A scan waits for a list or for reads, but not for settings. -/
theorem isLoad_beginScan (c : Catalog) : c.beginScan.2.isLoad = false := by
  rcases c.beginScan_cases with ⟨keepEmpty, hs, -⟩ | heq
  · cases hn : c.beginScan.2 with
    | load => simp [hn, Next.scan?] at hs
    | _ => rfl
  · rw [heq]
    rfl

/-- A reload waits for settings once. -/
theorem isLoad_finishLoad (c : Catalog) (settings : Settings) :
    (c.finishLoad settings).1.2.isLoad = false := by
  rcases c.finishLoad_cases settings with ⟨vocabulary, heq⟩ | ⟨fault, heq⟩ <;> rw [heq] <;> rfl

end Catalog

namespace Indexer

open Catalog (Next InForce SameSettings)

variable {x : Indexer} {c : Catalog} {turn : Turn} {rest turns : List Turn} {id : JobId}
  {settings : Settings}

/-! ## Waiting for settings -/

/-- The calls that wait for settings. -/
def loading (x : Indexer) : List JobId := (x.tasks.filter (·.next.isLoad)).map (·.id)

/-- The call that begins to wait for settings in a turn. -/
def reload? (x : Indexer) (turn : Turn) : Option JobId :=
  turn.started?.filter fun id => (x.after turn).loading.contains id

/-- The settings that come in for a call in a turn. -/
def arrival? (x : Indexer) (turn : Turn) : Option (JobId × Settings) :=
  match turn.move with
  | .settings id (.ok settings) => if x.loading.contains id then some (id, settings) else none
  | _ => none

/-- Whether settings that come in can be loaded and used. -/
def Loads (x : Indexer) (turn : Turn) : Prop :=
  ∀ id loaded, turn.move = .settings id loaded → Smooth x turn

/-- The reloads of a run, in the order in which they begin. -/
def reloads : Indexer → List Turn → List JobId
  | _, [] => []
  | x, turn :: rest => (x.reload? turn).toList ++ reloads (x.after turn) rest

/-- The settings that come in during a run, in order, with the calls that they are for. -/
def arrivals : Indexer → List Turn → List (JobId × Settings)
  | _, [] => []
  | x, turn :: rest => (x.arrival? turn).toList ++ arrivals (x.after turn) rest

/-- The calls that wait for settings are those with a task to load them. -/
theorem mem_loading : id ∈ x.loading ↔ ∃ task ∈ x.tasks, task.id = id ∧ task.next = .load := by
  simp only [loading, List.mem_map, List.mem_filter, Next.isLoad_iff]
  constructor
  · intro hex
    obtain ⟨task, ⟨hm, hn⟩, hid⟩ := hex
    exact ⟨task, hm, hid, hn⟩
  · intro hex
    obtain ⟨task, hm, hid, hn⟩ := hex
    exact ⟨task, ⟨hm, hn⟩, hid⟩

/-- No call waits for settings twice. -/
theorem Sane.nodup_loading (h : x.Sane) : x.loading.Nodup := by
  have hids : (x.tasks.map (·.id)).Nodup := by
    rw [tasks, List.map_map]
    exact h.ids
  exact (List.Sublist.map _ List.filter_sublist).nodup hids

/-- A job that waits for settings. -/
theorem exists_job_of_loading (h : id ∈ x.loading) :
    ∃ job ∈ x.jobs, job.id = id ∧ job.wait = .settings := by
  obtain ⟨task, hm, rfl, hn⟩ := mem_loading.1 h
  obtain ⟨job, hj, rfl⟩ := List.mem_map.1 hm
  refine ⟨job, hj, rfl, ?_⟩
  obtain ⟨who, wait, request, rest⟩ := job
  cases wait with
  | settings => rfl
  | _ => cases hn

/-- The calls that wait for settings after a step of one call. -/
theorem Steps.loading {request : Request} {step : Catalog × Next}
    (h : Steps x turn id request step) :
    (x.after turn).loading =
      x.loading.filter (· ≠ id) ++ if step.2.isLoad then [id] else [] := by
  have hpending : (Task.pending { id, request, next := step.2 }).filter (·.next.isLoad) =
      if step.2.isLoad then [{ id, request, next := step.2 }] else [] := by
    cases hn : step.2 <;> rfl
  have hothers : (x.tasks.filter (·.id ≠ id)).filter (·.next.isLoad) =
      (x.tasks.filter (·.next.isLoad)).filter (·.id ≠ id) := by
    rw [List.filter_filter, List.filter_filter]
    congr 1
    funext task
    exact Bool.and_comm _ _
  rw [Indexer.loading, h.tasks, List.filter_append, hpending, hothers, List.map_append,
    Indexer.loading, List.filter_map]
  congr 1
  split <;> rfl

/-- No step of a call that goes on leads back to waiting for settings. -/
theorem Proceeds.isLoad {move : Move} {task : Task} {step : Catalog × Next}
    (h : Proceeds move c task step) : step.2.isLoad = false := by
  cases h.continues with
  | scan scan _ hs goes => cases goes <;> rfl
  | loadFailed fault hnext => rfl
  | loaded settings hnext hmove => exact Catalog.isLoad_finishLoad c settings
  | updated update ticket text hnext hmove =>
      rcases (c.afterRead_kept update _).2.2 with hn | hn | ⟨fault, hn⟩ <;> rw [hn] <;> rfl
  | begins hnext => exact Catalog.isLoad_beginScan c
  | ends hnext => rfl

/-- A call that has waited for settings goes on with what has come in. -/
theorem Proceeds.of_load {move : Move} {task : Task} {step : Catalog × Next}
    (h : Proceeds move c task step) (hnext : task.next = .load) :
    (∃ settings, move = .settings task.id (.ok settings)) ∨
      ∃ fault, move = .settings task.id (.error fault) ∧ step = (c, .fail (.settings fault)) := by
  cases h with
  | loadFailed fault => exact .inr ⟨fault, rfl, rfl⟩
  | loaded settings => exact .inl ⟨settings, rfl⟩
  | _ => cases hnext

/-- A call that has not waited for settings leaves them alone. -/
theorem Proceeds.sameSettings {move : Move} {task : Task} {step : Catalog × Next}
    (h : Proceeds move c task step) (hwaits : task.next ≠ .load) : c.SameSettings step.1 := by
  cases h.continues with
  | scan scan _ hs goes => cases goes <;> exact ⟨rfl, rfl, rfl, rfl⟩
  | loadFailed fault hnext => exact .refl c
  | loaded settings hnext hmove => exact absurd hnext hwaits
  | updated update ticket text hnext hmove => exact Catalog.sameSettings_afterRead c _ _
  | begins hnext => exact Catalog.sameSettings_beginScan c
  | ends hnext => exact .refl c

/-! ## What a turn does to the settings -/

/-- Settings arrive for a call that waits for them. -/
theorem of_arrival?_eq_some (h : x.arrival? turn = some (id, settings)) :
    turn.move = .settings id (.ok settings) ∧ id ∈ x.loading := by
  unfold arrival? at h
  split at h
  · rename_i who loaded hm
    split at h
    · rename_i hw
      cases h
      exact ⟨hm, by simpa using hw⟩
    · cases h
  · cases h

/-- Settings that come in are what a call goes on with. -/
theorem Sane.arrives (h : x.Sane) (ha : x.arrival? turn = some (id, settings)) :
    ∃ request, Steps x turn id request (x.catalog.finishLoad settings).1 := by
  obtain ⟨hm, hw⟩ := of_arrival?_eq_some ha
  obtain ⟨job, hj, rfl, hwait⟩ := exists_job_of_loading hw
  have hresumes := h.settings_resumes turn.disk hj hwait settings
  rw [← hm] at hresumes
  exact ⟨job.request, hresumes.steps⟩

/-- Whether no call in a run asks for another scope. -/
def KeepsScope (turns : List Turn) : Prop :=
  ∀ turn ∈ turns, ∀ id scope, turn.move ≠ .start id [.setScope scope]

/-- What comes of a turn for the settings: they come in for a call that has waited for them, or what
is in force stays so, and a call may begin to wait. -/
inductive SettingsTurn (x : Indexer) (turn : Turn) : Prop
  | arrives (id : JobId) (settings : Settings) (arrival : x.arrival? turn = some (id, settings))
      (reload : x.reload? turn = none) (inForce : (x.after turn).catalog.InForce settings)
      (loading : (id :: (x.after turn).loading).Perm x.loading)
  | stays (arrival : x.arrival? turn = none) (same : x.catalog.SameSettings (x.after turn).catalog)
      (loading : (x.after turn).loading = x.loading ++ (x.reload? turn).toList)

/-- No reload begins where no call does. -/
theorem reload?_of_started_eq_none (h : turn.started? = none) : x.reload? turn = none := by
  rw [reload?, h]
  rfl

/-- To end a call that waits for no settings leaves all that do. -/
theorem filter_loading_of_not_mem (h : id ∉ x.loading) : x.loading.filter (· ≠ id) = x.loading :=
  List.filter_eq_self.2 fun other ho => by
    have hne : other ≠ id := fun he => h (he ▸ ho)
    simpa using hne

/-- A call without a task waits for nothing. -/
theorem not_mem_loading_of_fresh (h : x.taskAt? id = none) : id ∉ x.loading := by
  intro hm
  obtain ⟨task, ht, hid, -⟩ := mem_loading.1 hm
  exact taskAt?_eq_none.1 h task ht hid

/-- Settings that arrive come into force, and their call waits no longer. -/
theorem Legal.settingsTurn_of_arrival (h : Legal x (turn :: rest)) (hloads : Loads x turn)
    (ha : x.arrival? turn = some (id, settings)) : SettingsTurn x turn := by
  obtain ⟨request, hsteps⟩ := h.sane.arrives ha
  obtain ⟨hmove, hm⟩ := of_arrival?_eq_some ha
  have hfail := hsteps.not_fail (hloads _ _ hmove)
  have hstarted : turn.started? = none := by rw [Turn.started?, hmove]
  refine .arrives id settings ha (reload?_of_started_eq_none hstarted) ?_ ?_
  · rw [hsteps.catalog]
    exact Catalog.inForce_finishLoad hfail
  · rw [hsteps.loading, Catalog.isLoad_finishLoad, if_neg Bool.false_ne_true, List.append_nil]
    have herase := List.perm_cons_erase hm
    rw [h.sane.nodup_loading.erase_eq_filter id] at herase
    refine (herase.trans ?_).symm
    refine List.Perm.of_eq (congrArg (id :: ·) ?_)
    congr 1
    funext other
    by_cases ho : other = id <;> simp [ho]

/-- Without an arrival the settings stay; one more call may wait for them. -/
theorem Legal.settingsTurn_of_none (h : Legal x (turn :: rest)) (hloads : Loads x turn)
    (hscope : KeepsScope (turn :: rest)) (ha : x.arrival? turn = none) : SettingsTurn x turn := by
  cases h.next.2 with
  | quiet hc ht hs =>
      have hloading : (x.after turn).loading = x.loading := by rw [loading, ht, loading]
      have hreload : x.reload? turn = none := by
        rw [reload?, hloading, Option.filter_eq_none_iff]
        intro id hid hm
        exact not_mem_loading_of_fresh (h.fresh hid) (by simpa using hm)
      refine .stays ha (hc ▸ .refl _) ?_
      rw [hloading, hreload]
      exact (List.append_nil _).symm
  | begun id request hm hnone hsteps =>
      have hfresh := not_mem_loading_of_fresh hnone
      refine .stays ha ?_ ?_
      · rw [hsteps.catalog]
        exact Catalog.sameSettings_begin _ _ fun scope he =>
          absurd (he ▸ hm) (hscope turn List.mem_cons_self id scope)
      · have hstarted : turn.started? = some id := by rw [Turn.started?, hm]
        have hloading := hsteps.loading
        rw [filter_loading_of_not_mem hfresh] at hloading
        rw [reload?, hstarted, hloading, Option.filter_some]
        split
        · simp
        · simp [hfresh]
  | resumed task hm step hp hsteps =>
      have hstarted : turn.started? = none := by
        rw [Turn.started?]
        generalize turn.move = move at hp
        cases hp <;> rfl
      have hload : task.next ≠ .load := by
        intro hn
        have hmem : task.id ∈ x.loading := mem_loading.2 ⟨task, hm, rfl, hn⟩
        rcases hp.of_load hn with ⟨settings, hmove⟩ | ⟨fault, hmove, hfails⟩
        · simp [arrival?, hmove, hmem] at ha
        · exact hsteps.not_fail (hloads _ _ hmove) _ (congrArg Prod.snd hfails)
      have hnot : task.id ∉ x.loading := by
        intro hmem
        obtain ⟨prior, hprior, he, hn⟩ := mem_loading.1 hmem
        exact hload (h.sane.task_eq_of_id hprior hm he ▸ hn)
      refine .stays ha (hsteps.catalog ▸ hp.sameSettings hload) ?_
      rw [hsteps.loading, hp.isLoad, filter_loading_of_not_mem hnot,
        reload?_of_started_eq_none hstarted]
      simp

/-- What comes of a turn, told with regard to settings. -/
theorem Legal.settingsTurn (h : Legal x (turn :: rest)) (hloads : Loads x turn)
    (hscope : KeepsScope (turn :: rest)) : SettingsTurn x turn := by
  cases ha : x.arrival? turn with
  | none => exact h.settingsTurn_of_none hloads hscope ha
  | some arrival => exact h.settingsTurn_of_arrival hloads ha

/-! ## What a run does to the settings -/

/-- If a run asks for no scope, neither does its rest. -/
theorem KeepsScope.tail (h : KeepsScope (turn :: rest)) : KeepsScope rest :=
  fun other ho => h other (List.mem_cons_of_mem _ ho)

/-- The settings of each reload come in once; those that have not come in are still waited for. -/
theorem arrivals_perm (hlegal : Legal x turns) (hloads : Along Loads x turns)
    (hscope : KeepsScope turns) :
    ((arrivals x turns).map Prod.fst ++ (x.run turns).loading).Perm
      (x.loading ++ reloads x turns) := by
  induction turns generalizing x with
  | nil => simp [arrivals, reloads]
  | cons turn rest ih =>
      have hrest := ih hlegal.next.1 hloads.2 hscope.tail
      rw [arrivals, reloads, run_cons, List.map_append, List.append_assoc]
      cases hlegal.settingsTurn hloads.1 hscope with
      | arrives id settings ha hreload _ hloading =>
          rw [ha, hreload]
          exact (hrest.cons id).trans (hloading.append_right _)
      | stays ha _ hloading =>
          rw [hloading, List.append_assoc] at hrest
          rw [ha]
          exact hrest

/-- Without settings that come in, the settings stay. -/
theorem sameSettings_of_arrivals_eq_nil (hlegal : Legal x turns) (hloads : Along Loads x turns)
    (hscope : KeepsScope turns) (h : arrivals x turns = []) :
    x.catalog.SameSettings (x.run turns).catalog := by
  induction turns generalizing x with
  | nil => exact .refl _
  | cons turn rest ih =>
      obtain ⟨hturn, hrest⟩ := List.append_eq_nil_iff.1 h
      have hsame := ih hlegal.next.1 hloads.2 hscope.tail hrest
      cases hlegal.settingsTurn hloads.1 hscope with
      | arrives id settings ha _ _ _ => simp [ha] at hturn
      | stays _ hfirst _ => exact hfirst.trans hsame

/-- The settings that have come in last are in force. -/
theorem inForce_of_last_arrival (hlegal : Legal x turns) (hloads : Along Loads x turns)
    (hscope : KeepsScope turns) (h : (arrivals x turns).getLast? = some (id, settings)) :
    (x.run turns).catalog.InForce settings := by
  induction turns generalizing x with
  | nil => cases h
  | cons turn rest ih =>
      rw [arrivals, List.getLast?_append] at h
      cases hlast : (arrivals (x.after turn) rest).getLast? with
      | some last =>
          rw [hlast] at h
          cases h
          exact ih hlegal.next.1 hloads.2 hscope.tail hlast
      | none =>
          have hsame := sameSettings_of_arrivals_eq_nil hlegal.next.1 hloads.2 hscope.tail
            (List.getLast?_eq_none_iff.1 hlast)
          rw [hlast] at h
          cases hlegal.settingsTurn hloads.1 hscope with
          | arrives who loaded ha _ hforce _ =>
              rw [ha] at h
              cases h
              exact hsame.inForce hforce
          | stays ha _ _ =>
              rw [ha] at h
              cases h

/-- Reloads begin with the turns of a run, in their order. -/
theorem reloads_sublist (x : Indexer) (turns : List Turn) :
    (reloads x turns).Sublist (turns.filterMap Turn.started?) := by
  induction turns generalizing x with
  | nil => exact List.Sublist.slnil
  | cons turn rest ih =>
      rw [reloads, reload?, List.filterMap_cons]
      cases turn.started? with
      | none => exact ih _
      | some id =>
          rw [Option.filter_some]
          split
          · exact (ih _).cons_cons id
          · exact (ih _).cons id

/-- **Which reload is in force.**  When all calls are over, the settings of each reload have come in
once, and those that came in last are in force.  So what the reload that began last has loaded is in
force if and only if what came in last is the same. -/
theorem reload_in_force_iff {limit : Int} (hcalls : Calls turns)
    (hloads : Along Loads (ofCatalog c limit) turns) (hscope : KeepsScope turns)
    (hx : (ofCatalog c limit).run turns = x) (hover : x.jobs = []) {last : JobId}
    (hlast : (reloads (ofCatalog c limit) turns).getLast? = some last) :
    ((arrivals (ofCatalog c limit) turns).map Prod.fst).Perm (reloads (ofCatalog c limit) turns) ∧
      ∃ own winner newest,
        (∀ settings, (last, settings) ∈ arrivals (ofCatalog c limit) turns ↔ settings = own) ∧
        (arrivals (ofCatalog c limit) turns).getLast? = some (winner, newest) ∧
        x.catalog.InForce newest ∧ (x.catalog.InForce own ↔ own = newest) := by
  have hlegal := hcalls.legal c limit
  have hperm := arrivals_perm hlegal hloads hscope
  have hstart : (ofCatalog c limit).loading = [] := rfl
  have hend : ((ofCatalog c limit).run turns).loading = [] := by
    rw [hx, loading, tasks, hover]
    rfl
  rw [hstart, hend, List.append_nil, List.nil_append] at hperm
  -- Each reload hears of its settings once, so what the last one has loaded is settled.
  have hnodup : ((arrivals (ofCatalog c limit) turns).map Prod.fst).Nodup :=
    hperm.nodup_iff.2 ((reloads_sublist _ _).nodup hcalls.nodup)
  obtain ⟨⟨who, own⟩, hown, rfl⟩ :=
    List.mem_map.1 (hperm.mem_iff.2 (List.mem_of_getLast? hlast))
  have hne : arrivals (ofCatalog c limit) turns ≠ [] := List.ne_nil_of_mem hown
  obtain ⟨⟨winner, newest⟩, hnewest⟩ :=
    Option.ne_none_iff_exists'.1 fun hnone => hne (List.getLast?_eq_none_iff.1 hnone)
  have hforce : x.catalog.InForce newest :=
    hx ▸ inForce_of_last_arrival hlegal hloads hscope hnewest
  refine ⟨hperm, own, winner, newest, fun settings => ⟨fun hm => ?_, ?_⟩, hnewest, hforce, ?_, ?_⟩
  · exact congrArg Prod.snd (List.inj_on_of_nodup_map hnodup hm hown rfl)
  · rintro rfl
    exact hown
  · intro h
    exact h.settings.symm.trans hforce.settings
  · rintro rfl
    exact hforce

/-! ## Two reloads at once -/

open Catalog (opened)

/-- Settings with one tag. -/
def noteSettings : Settings := { tags := [{ name := "NOTE" }] }

/-- Two reloads, the second of which has begun when the file has changed.  The settings come in for
one of them and then for the other one, and each scans an empty project then. -/
def twoReloads (first second : JobId × Settings) : List Turn :=
  [.start 1 [.reload], .start 2 [.reload], .settings first.1 (.ok first.2), .told first.1,
    .settings second.1 (.ok second.2), .told second.1, .list first.1 (.ok []),
    .list second.1 (.ok []), .told second.1].map turnOf

/-- The only requests of these runs are reloads. -/
theorem of_mem_twoReloads {first second : JobId × Settings} (h : turn ∈ twoReloads first second)
    {requests : List Request} (hm : turn.move = .start id requests) : requests = [.reload] := by
  simp only [twoReloads, List.map_cons, List.map_nil, List.mem_cons, List.not_mem_nil,
    or_false] at h
  rcases h with rfl | rfl | rfl | rfl | rfl | rfl | rfl | rfl | rfl <;> cases hm <;> rfl

/-- Their calls are in order. -/
theorem calls_twoReloads (first second : JobId × Settings) :
    Calls (twoReloads first second) where
  single := fun _ ht _ _ hm => ⟨_, of_mem_twoReloads ht hm⟩
  nodup := by
    show ([1, 2] : List JobId).Nodup
    decide

/-- And no scope is asked for in them. -/
theorem keepsScope_twoReloads (first second : JobId × Settings) :
    KeepsScope (twoReloads first second) :=
  fun _ ht _ _ hm => by cases of_mem_twoReloads ht hm

/-- How the two reloads go, with the settings that come in for them in their order, or in the other
one. -/
theorem twoReloads_runs : ∀ loaded ∈ [((1, {}), (2, noteSettings)), ((2, noteSettings), (1, {}))],
    Along Smooth (ofCatalog opened 8) (twoReloads loaded.1 loaded.2) ∧
      ((ofCatalog opened 8).run (twoReloads loaded.1 loaded.2)).jobs = [] ∧
      reloads (ofCatalog opened 8) (twoReloads loaded.1 loaded.2) = [1, 2] ∧
      arrivals (ofCatalog opened 8) (twoReloads loaded.1 loaded.2) = [loaded.1, loaded.2] := by
  rw [Catalog.opened_eq]
  decide +kernel

/-- If the settings come in for the two reloads in their order, those of the second one are in
force. -/
theorem newer_settings_in_force :
    ((ofCatalog opened 8).run (twoReloads (1, {}) (2, noteSettings))).catalog.InForce
      noteSettings := by
  obtain ⟨hsmooth, hover, hreloads, harrivals⟩ := twoReloads_runs _ List.mem_cons_self
  have hlast : (reloads (ofCatalog opened 8) (twoReloads (1, {}) (2, noteSettings))).getLast? =
      some 2 := by
    rw [hreloads]
    rfl
  obtain ⟨-, own, winner, newest, hown, hnewest, hforce, -⟩ :=
    reload_in_force_iff (calls_twoReloads _ _) (hsmooth.imp fun _ _ _ h _ _ _ => h)
      (keepsScope_twoReloads _ _) rfl hover hlast
  rw [harrivals] at hnewest
  cases hnewest
  exact hforce

/-- If they overtake each other, the older settings stay, though the second reload has loaded the
newer ones. -/
theorem older_settings_stay :
    Calls (twoReloads (2, noteSettings) (1, {})) ∧
      Along Smooth (ofCatalog opened 8) (twoReloads (2, noteSettings) (1, {})) ∧
      ((ofCatalog opened 8).run (twoReloads (2, noteSettings) (1, {}))).jobs = [] ∧
      reloads (ofCatalog opened 8) (twoReloads (2, noteSettings) (1, {})) = [1, 2] ∧
      arrivals (ofCatalog opened 8) (twoReloads (2, noteSettings) (1, {})) =
        [(2, noteSettings), (1, {})] ∧
      ¬ ((ofCatalog opened 8).run (twoReloads (2, noteSettings) (1, {}))).catalog.InForce
        noteSettings := by
  obtain ⟨hsmooth, hover, hreloads, harrivals⟩ :=
    twoReloads_runs ((2, noteSettings), (1, {})) (by simp)
  refine ⟨calls_twoReloads _ _, hsmooth, hover, hreloads, harrivals, fun hforce => ?_⟩
  have hsettings : ((ofCatalog opened 8).run
      (twoReloads (2, noteSettings) (1, {}))).catalog.settings ≠ noteSettings := by decide +kernel
  exact hsettings hforce.settings

end Indexer

end Marginalia
