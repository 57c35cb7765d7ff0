import Marginalia.Proofs.Reloads

/-!
# Settings that cannot be used

A reload takes the settings first and then builds the vocabulary from their tags.  Where that fails,
the new settings stay, while the vocabulary and the exclusions are still those of the settings
before them.  The vocabulary and the exclusions never part from each other: at all times both belong
to one of the settings that have come in (`Catalog.Tied`), and these are the settings in force, but
for the scope, unless the settings in force have tags that cannot be used at all.

Hence the settings, the vocabulary and the exclusions agree exactly if the tags of the settings can
be used (`Indexer.settings_agree_iff`); a reload whose tags cannot leaves settings that nothing
obeys (`Indexer.unusable_settings_stay`), until another reload succeeds.
-/

namespace Marginalia

namespace Catalog

/-- What is in force was built from some settings that can be used: the vocabulary and the
exclusions are theirs.  The settings of the catalog are the same in some scope, or their own tags
cannot be used. -/
structure Tied (w : Workspace) (used : Settings) (c : Catalog) : Prop where
  vocabulary : used.vocabularyWithWarnings.map Prod.fst = .ok c.vocabulary
  exclusions : c.workspace = w.configure used.search
  settings : (∃ scope, c.settings = used.withScope scope) ∨
    ∃ fault, Vocabulary.isRaised fault = true ∧ c.settings.vocabulary = .error fault

variable {w : Workspace} {used settings : Settings} {c d : Catalog} {step : Catalog × Next}

/-- Settings are built into a vocabulary, with warnings or without. -/
theorem vocabularyWithWarnings_eq_error {fault : Pattern.Fault} :
    settings.vocabularyWithWarnings = .error fault ↔ settings.vocabulary = .error fault := by
  unfold Settings.vocabularyWithWarnings
  cases settings.vocabulary <;> simp [Except.map]

/-- Only faults that are raised keep tags from being used at all. -/
theorem isRaised_of_vocabulary {fault : Pattern.Fault} (h : settings.vocabulary = .error fault) :
    Vocabulary.isRaised fault = true := by
  unfold Settings.vocabulary Vocabulary.ofTags at h
  split at h
  · cases h
  · split at h
    · split at h
      · rename_i hraised
        cases h
        exact hraised
      · cases h
    · cases h

/-- Settings that were used could be used. -/
theorem Tied.exists_vocabulary (h : Tied w used c) : ∃ result, used.vocabulary = .ok result := by
  have hv := h.vocabulary
  unfold Settings.vocabularyWithWarnings at hv
  cases hu : used.vocabulary with
  | error fault => simp [hu, Except.map] at hv
  | ok result => exact ⟨result, rfl⟩

/-- Where the settings, the vocabulary and the workspace are the same, so are their ties. -/
theorem SameSettings.tied (h : c.SameSettings d) (hc : Tied w used c) : Tied w used d where
  vocabulary := by rw [h.vocabulary, hc.vocabulary]
  exclusions := by rw [h.workspace, hc.exclusions]
  settings := by
    rw [h.settings]
    exact hc.settings

/-- Another scope changes a copy of the settings, and nothing that was built from them. -/
theorem Tied.turnedTo (h : Tied w used c) (scope : Scope) (active : Option Text) :
    Tied w used (c.turnedTo scope active) where
  vocabulary := h.vocabulary
  exclusions := h.exclusions
  settings := by
    rcases h.settings with ⟨prior, hs⟩ | ⟨fault, hf, hs⟩
    · refine .inl ⟨scope, ?_⟩
      show c.settings.withScope scope = used.withScope scope
      rw [hs]
      rfl
    · exact .inr ⟨fault, hf, hs⟩

/-- The first step of a request brings no settings. -/
theorem Tied.begins (h : Tied w used c) (hb : Begins c step) : Tied w used step.1 := by
  cases hb with
  | scan scope active => exact (sameSettings_beginScan _).tied (h.turnedTo scope active)
  | load => exact (sameSettings_beginLoad c).tied h
  | activate active hscope => exact (sameSettings_activate c active).tied h
  | drop path next hnext => exact (alike_drop c path).sameSettings.tied h
  | update path hfile hscope hactive => exact h
  | done => exact h
  | fail fault => exact h

/-- Settings that come in are used, or else those that were used before stay in use. -/
theorem Tied.finishLoad (h : Tied w used c) (settings : Settings) :
    Tied w settings (c.finishLoad settings).1.1 ∨ Tied w used (c.finishLoad settings).1.1 := by
  unfold Catalog.finishLoad apply
  cases hv : settings.vocabularyWithWarnings with
  | ok result =>
      refine .inl ⟨by rw [hv]; rfl, ?_, .inl ⟨settings.scope, rfl⟩⟩
      show c.workspace.configure settings.search = w.configure settings.search
      rw [h.exclusions]
      rfl
  | error fault =>
      have hfault := vocabularyWithWarnings_eq_error.1 hv
      exact .inr ⟨h.vocabulary, h.exclusions, .inr ⟨fault, isRaised_of_vocabulary hfault, hfault⟩⟩

/-- What is in force is that of the settings exactly if their tags can be used. -/
theorem Tied.inForce_iff (h : Tied w used c) :
    c.InForce c.settings ↔ ∃ result, c.settings.vocabulary = .ok result := by
  constructor
  · intro hforce
    have htied : Tied c.workspace c.settings c :=
      ⟨hforce.vocabulary, hforce.exclusions.symm, .inl ⟨c.settings.scope, rfl⟩⟩
    exact htied.exists_vocabulary
  · intro hex
    obtain ⟨result, hr⟩ := hex
    rcases h.settings with ⟨scope, hs⟩ | ⟨fault, -, hs⟩
    · refine ⟨rfl, ?_, ?_⟩
      · rw [hs]
        exact h.vocabulary
      · rw [hs, h.exclusions]
        rfl
    · rw [hr] at hs
      cases hs

/-- A new catalog is tied to the settings it was made with. -/
theorem tied_ofSettings {hasFile : Bool} {warnings : List Warning}
    (h : ofSettings w settings hasFile = .ok (c, warnings)) : Tied w settings c := by
  unfold ofSettings at h
  cases hv : settings.vocabularyWithWarnings with
  | error fault => simp [hv] at h
  | ok result =>
      rw [hv] at h
      cases h
      exact ⟨by rw [hv]; rfl, rfl, .inl ⟨settings.scope, rfl⟩⟩

end Catalog

namespace Indexer

open Catalog (Tied)

variable {x : Indexer} {turn : Turn} {rest turns : List Turn} {w : Workspace} {used : Settings}
  {id : JobId} {request : Request} {step : Catalog × Catalog.Next}

/-- A task that goes on brings the settings into use that have come in for it, or none. -/
theorem Proceeds.tied {move : Move} {c : Catalog} {task : Task} (h : Proceeds move c task step)
    (hc : Tied w used c) :
    ∃ now, Tied w now step.1 ∧ (now = used ∨ move = .settings task.id (.ok now)) := by
  by_cases hload : task.next = .load
  · cases h with
    | loadFailed fault => exact ⟨used, hc, .inl rfl⟩
    | loaded settings =>
        rcases hc.finishLoad settings with htied | htied
        · exact ⟨settings, htied, .inr rfl⟩
        · exact ⟨used, htied, .inl rfl⟩
    | _ => cases hload
  · exact ⟨used, (h.sameSettings hload).tied hc, .inl rfl⟩

/-- In a turn the settings in use stay, or those take their place that have come in. -/
theorem Outcome.tied (h : Outcome x turn) (hx : Tied w used x.catalog) :
    ∃ now, Tied w now (x.after turn).catalog ∧
      (now = used ∨ ∃ id, turn.move = .settings id (.ok now)) := by
  cases h with
  | quiet hc ht hs => exact ⟨used, hc ▸ hx, .inl rfl⟩
  | begun id request hm hnone hsteps =>
      refine ⟨used, ?_, .inl rfl⟩
      rw [hsteps.catalog]
      exact hx.begins (Catalog.begins _ _ _)
  | resumed task hm step hp hsteps =>
      obtain ⟨now, htied, hnow⟩ := hp.tied hx
      exact ⟨now, hsteps.catalog ▸ htied, hnow.imp_right fun he => ⟨task.id, he⟩⟩

/-- At all times what is in force belongs to settings that have come in, or that were there at
first. -/
theorem Legal.exists_tied (h : Legal x turns) (hx : Tied w used x.catalog) :
    ∃ now, Tied w now (x.run turns).catalog ∧
      (now = used ∨ ∃ turn ∈ turns, ∃ id, turn.move = .settings id (.ok now)) := by
  induction turns generalizing x used with
  | nil => exact ⟨used, hx, .inl rfl⟩
  | cons turn rest ih =>
      obtain ⟨hlegal, houtcome⟩ := h.next
      obtain ⟨next, hnext, hcame⟩ := houtcome.tied hx
      obtain ⟨now, hnow, heq | ⟨later, hm, hid⟩⟩ := ih hlegal hnext
      · refine ⟨now, hnow, heq ▸ hcame.imp_right fun hid => ?_⟩
        exact ⟨turn, List.mem_cons_self, hid⟩
      · exact ⟨now, hnow, .inr ⟨later, List.mem_cons_of_mem _ hm, hid⟩⟩

/-- **When settings agree.**  However calls are interleaved, and whether they fail or not: the
vocabulary and the exclusions are at all times both those of one of the settings that have come in,
or that were there at first.  They are those of the settings in force exactly if the tags of these
can be used. -/
theorem settings_agree_iff {settings : Settings} {hasFile : Bool} {c d : Catalog}
    {warnings : List Warning} (hc : Catalog.ofSettings w settings hasFile = .ok (c, warnings))
    {limit : Int} (hcalls : Calls turns) (hd : ((ofCatalog c limit).run turns).catalog = d) :
    (∃ now, (now = settings ∨ ∃ turn ∈ turns, ∃ id, turn.move = .settings id (.ok now)) ∧
      now.vocabularyWithWarnings.map Prod.fst = .ok d.vocabulary ∧
      d.workspace = w.configure now.search ∧
      ((∃ scope, d.settings = now.withScope scope) ∨
        ∃ fault, Vocabulary.isRaised fault = true ∧ d.settings.vocabulary = .error fault)) ∧
      (d.InForce d.settings ↔ ∃ result, d.settings.vocabulary = .ok result) := by
  obtain ⟨now, hnow, hcame⟩ :=
    (hcalls.legal c limit).exists_tied (Catalog.tied_ofSettings hc)
  rw [hd] at hnow
  exact ⟨⟨now, hcame, hnow.vocabulary, hnow.exclusions, hnow.settings⟩, hnow.inForce_iff⟩

/-! ## Tags that cannot be used -/

open Catalog (opened project)

/-- Settings for the active document, with a tag whose pattern counts too far. -/
def overflowing : Settings where
  tags := [{ name := "A", pattern? := some "a\x7b4294967295\x7d" }]
  search := { scope := .current, excludedFolders := ["out"] }

/-- A reload with settings that cannot be used. -/
def failedReload : List Turn := [.start 1 [.reload], .settings 1 (.ok overflowing)].map turnOf

/-- The same, and then one with settings that can be used. -/
def mendedReload : List Turn :=
  failedReload ++ [.start 2 [.reload], .settings 2 (.ok noteSettings), .told 2].map turnOf

theorem calls_mendedReload : Calls mendedReload := by
  decide

/-- The second settings are usable, and are in force. -/
theorem mendedReload_runs :
    ((ofCatalog opened 8).run mendedReload).catalog.settings = noteSettings ∧
      (noteSettings.vocabulary).toOption.isSome = true := by
  rw [Catalog.opened_eq]
  decide +kernel

/-- After a reload that has failed and one that has not, the settings agree with what is in
force. -/
theorem settings_agree_mendedReload :
    ((ofCatalog opened 8).run mendedReload).catalog.InForce noteSettings := by
  obtain ⟨warnings, hopened⟩ := Catalog.ofSettings_project
  obtain ⟨hsettings, husable⟩ := mendedReload_runs
  obtain ⟨-, hagree⟩ := settings_agree_iff hopened calls_mendedReload
    (rfl : ((ofCatalog opened 8).run mendedReload).catalog = _)
  rw [hsettings] at hagree
  exact hagree.2 (Catalog.exists_ok_of_toOption husable)

/-- After a reload that has failed, the settings are the new ones, with their scope, while the tags
that are looked for and the folders that are left out are the old ones. -/
theorem unusable_settings_stay :
    ((ofCatalog opened 8).run failedReload).jobs = [] ∧
      ((ofCatalog opened 8).run failedReload).catalog.settings = overflowing ∧
      ((ofCatalog opened 8).run failedReload).catalog.vocabulary.names =
        ({} : Settings).tags.map (·.name) ∧
      ((ofCatalog opened 8).run failedReload).catalog.workspace.excludedFolders =
        ({} : Search).excludedFolders ∧
      ¬ ((ofCatalog opened 8).run failedReload).catalog.InForce
        ((ofCatalog opened 8).run failedReload).catalog.settings := by
  have hruns : ((ofCatalog opened 8).run failedReload).jobs = [] ∧
      ((ofCatalog opened 8).run failedReload).catalog.settings = overflowing ∧
      ((ofCatalog opened 8).run failedReload).catalog.vocabulary.names =
        ({} : Settings).tags.map (·.name) ∧
      ((ofCatalog opened 8).run failedReload).catalog.workspace.excludedFolders =
        ({} : Search).excludedFolders := by
    decide +kernel
  refine ⟨hruns.1, hruns.2.1, hruns.2.2.1, hruns.2.2.2, fun hforce => ?_⟩
  have hfolders := congrArg Workspace.excludedFolders hforce.exclusions
  rw [hruns.2.1, hruns.2.2.2] at hfolders
  exact absurd hfolders (by decide +kernel)

end Indexer

end Marginalia
