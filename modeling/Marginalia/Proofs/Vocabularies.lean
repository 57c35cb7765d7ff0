import Marginalia.Proofs.Drift
import Marginalia.Proofs.Events

/-!
# Scans and the vocabulary in force

A scan looks for the notes of the vocabulary that was in force when it began, and when it is merged
it looks whether its generation is still the one in force.  A reload begins a generation at its
beginning and another one with its scan; its settings come into force in between.  So a scan that
begins while a reload waits for its settings, and is merged while observers are told that they are
in force, is merged with the notes of the vocabulary before.  This is the only way: any other scan
that is merged has looked for the vocabulary that is in force then
(`Indexer.merged_notes_in_force_iff`).  The settings may have been superseded all the same, by
settings that cannot be used: the reload that has loaded them fails without beginning a scan, and so
the one before goes on to be merged (`Indexer.old_vocabulary_is_merged` has both ways).

The proof follows the reloads through a scan that no generation begins in (`Indexer.Follows`).  No
reload begins to wait, and one that brings its settings into force tells observers of them until it
begins a generation of its own; one that cannot load its settings leaves the vocabulary alone.  The
settings themselves are those that have come in last (`Indexer.Legal.settings_run`).
-/

namespace Marginalia

namespace Catalog

/-- A reload takes the settings that come in, even if it fails for their tags. -/
theorem settings_finishLoad (c : Catalog) (settings : Settings) :
    (c.finishLoad settings).1.1.settings = settings := by
  rcases c.finishLoad_cases settings with ⟨vocabulary, heq⟩ | ⟨fault, heq⟩ <;> rw [heq]

end Catalog

namespace Indexer

open Catalog (Next Scan)

variable {x start : Indexer} {c : Catalog} {turn : Turn} {id : JobId} {rest turns : List Turn}
  {scan : Scan}

/-! ## Turns in which no generation begins -/

/-- A call has brought settings into force, and observers are told of it. -/
def Announces (x : Indexer) (id : JobId) : Prop :=
  ∃ task ∈ x.tasks, task.id = id ∧ task.next = .tell .settingsLoaded

/-- What waits after a step of one call has waited before, unless it is that call. -/
theorem Steps.of_waits {request : Request} {step : Catalog × Next}
    (h : Steps x turn id request step) {next : Next} (hne : step.2 ≠ next) {other : JobId}
    (hex : ∃ task ∈ (x.after turn).tasks, task.id = other ∧ task.next = next) :
    ∃ task ∈ x.tasks, task.id = other ∧ task.next = next := by
  obtain ⟨task, ht, hid, hnext⟩ := hex
  rcases h.of_mem ht with ⟨ht, -⟩ | rfl
  · exact ⟨task, ht, hid, hnext⟩
  · exact absurd hnext hne

/-- No scope is asked for without a generation, unless it is the one in force. -/
theorem scope_eq_of_undisturbed {scope : Scope}
    (hg : (x.after turn).catalog.generation = x.catalog.generation)
    (hm : turn.move = .start id [.setScope scope]) : scope = x.catalog.scope := by
  apply Classical.byContradiction
  intro hne
  rw [after_start hm, Catalog.begin, Catalog.changeScope, if_neg hne,
    Catalog.beginScan_generation] at hg
  exact Nat.succ_ne_self _ hg

/-- What comes of a turn in which no generation begins: settings come into force for a call that has
waited for them, or the vocabulary stays, and no call begins to wait for settings or to tell of
them. -/
inductive StillTurn (x : Indexer) (turn : Turn) : Prop
  | arrives (id : JobId) (waited : id ∈ x.loading)
      (epoch : (x.after turn).catalog.epoch = x.catalog.epoch + 1)
      (announces : (x.after turn).Announces id)
      (loading : ∀ other ∈ (x.after turn).loading, other ∈ x.loading)
  | stays (vocabulary : (x.after turn).catalog.vocabulary = x.catalog.vocabulary)
      (epoch : (x.after turn).catalog.epoch = x.catalog.epoch)
      (loading : ∀ other ∈ (x.after turn).loading, other ∈ x.loading)
      (announces : ∀ other, (x.after turn).Announces other → x.Announces other)

/-- Each turn without a new generation is one of the two. -/
theorem Legal.stillTurn (h : Legal x (turn :: rest))
    (hg : (x.after turn).catalog.generation = x.catalog.generation) : StillTurn x turn := by
  have hstays : ∀ {who request step}, Steps x turn who request step → ¬ step.2.isReload →
      step.1.vocabulary = x.catalog.vocabulary → step.1.epoch = x.catalog.epoch →
      StillTurn x turn := by
    intro who request step hsteps hnot hvocabulary hepoch
    have hload : step.2 ≠ .load := fun hn => by simp [hn, Next.isReload] at hnot
    have htell : step.2 ≠ .tell .settingsLoaded := fun hn => by simp [hn, Next.isReload] at hnot
    exact .stays (hsteps.catalog ▸ hvocabulary) (hsteps.catalog ▸ hepoch)
      (fun other ho => mem_loading.2 (hsteps.of_waits hload (mem_loading.1 ho)))
      fun other ho => hsteps.of_waits htell ho
  cases h.next.2 with
  | quiet hc ht hs =>
      refine .stays (by rw [hc]) (by rw [hc]) (fun other ho => ?_) fun other ho => ?_
      · rwa [loading, ht] at ho
      · rwa [Announces, ht] at ho
  | begun who request hm hnone hsteps =>
      have hsame : x.catalog.SameSettings (x.catalog.begin turn.disk request).1 :=
        Catalog.sameSettings_begin _ _ fun scope he => scope_eq_of_undisturbed hg (he ▸ hm)
      rw [hsteps.catalog] at hg
      exact hstays hsteps ((Catalog.begins x.catalog turn.disk request).settled hg).1
        hsame.vocabulary hsame.epoch
  | resumed task hm step hp hsteps =>
      rw [hsteps.catalog] at hg
      cases hp.continues with
      | scan scan _ hs goes => cases goes <;> exact hstays hsteps id rfl rfl
      | loadFailed fault hnext => exact hstays hsteps id rfl rfl
      | loaded settings hnext hmove =>
          rcases x.catalog.finishLoad_cases settings with ⟨vocabulary, heq⟩ | ⟨fault, heq⟩
          · rw [heq] at hsteps
            have hload : Next.tell .settingsLoaded ≠ .load := by simp
            exact .arrives task.id (mem_loading.2 ⟨task, hm, rfl, hnext⟩) (by rw [hsteps.catalog])
              ⟨_, hsteps.mem_of_pending (List.mem_singleton_self _), rfl, rfl⟩
              fun other ho => mem_loading.2 (hsteps.of_waits hload (mem_loading.1 ho))
          · rw [heq] at hsteps
            exact hstays hsteps id rfl rfl
      | updated update ticket text hnext hmove =>
          have hsame := Catalog.sameSettings_afterRead x.catalog update
            (Catalog.examine update.vocabulary update.path text).1
          refine hstays hsteps ?_ hsame.vocabulary hsame.epoch
          rcases (x.catalog.afterRead_kept update _).2.2 with hn | hn | ⟨fault, hn⟩ <;> rw [hn] <;>
            exact id
      | begins hnext =>
          rw [Catalog.beginScan_generation] at hg
          exact absurd hg (Nat.succ_ne_self _)
      | ends hnext => exact hstays hsteps id rfl rfl

/-- Settings that come in take the place of those in force, whether they can be used or not. -/
theorem Legal.settings_after (h : Legal x (turn :: rest))
    (hg : (x.after turn).catalog.generation = x.catalog.generation) :
    (x.after turn).catalog.settings = ((x.arrival? turn).map Prod.snd).getD x.catalog.settings := by
  cases ha : x.arrival? turn with
  | some arrival =>
      obtain ⟨request, hsteps⟩ := h.sane.arrives ha
      rw [hsteps.catalog, Catalog.settings_finishLoad]
      rfl
  | none =>
      cases h.next.2 with
      | quiet hc ht hs => exact congrArg Catalog.settings hc
      | begun who request hm hnone hsteps =>
          rw [hsteps.catalog]
          exact (Catalog.sameSettings_begin _ _ fun scope he =>
            scope_eq_of_undisturbed hg (he ▸ hm)).settings
      | resumed task hm step hp hsteps =>
          rw [hsteps.catalog]
          by_cases hload : task.next = .load
          · rcases hp.of_load hload with ⟨settings, hmove⟩ | ⟨fault, hmove, hfails⟩
            · have hmem : task.id ∈ x.loading := mem_loading.2 ⟨task, hm, rfl, hload⟩
              simp [arrival?, hmove, hmem] at ha
            · rw [hfails]
              rfl
          · exact (hp.sameSettings hload).settings

/-- Until a generation begins, the settings in force are those that have come in last. -/
theorem Legal.settings_run (h : Legal x turns) (hu : Undisturbed x turns) :
    (x.run turns).catalog.settings =
      ((arrivals x turns).getLast?.map Prod.snd).getD x.catalog.settings := by
  induction turns generalizing x with
  | nil => rfl
  | cons turn rest ih =>
      rw [run_cons, ih h.next.1 hu.2, h.settings_after hu.1, arrivals, List.getLast?_append]
      cases (arrivals (x.after turn) rest).getLast? with
      | some last => rfl
      | none => cases x.arrival? turn <;> rfl

/-- Observers are told that settings are in force until a generation begins. -/
theorem Announces.after (h : x.Announces id) (hlegal : Legal x (turn :: rest))
    (hg : (x.after turn).catalog.generation = x.catalog.generation) :
    (x.after turn).Announces id := by
  obtain ⟨task, hm, hid, hnext⟩ := h
  refine ⟨task, (hlegal.next.2.mem_or_proceeds hlegal.sane hm).resolve_right fun hex => ?_, hid,
    hnext⟩
  obtain ⟨step, hp, hsteps⟩ := hex
  rw [hsteps.catalog] at hg
  generalize turn.move = move at hp
  cases hp with
  | told =>
      cases hnext
      rw [Catalog.afterTold, Catalog.beginScan_generation] at hg
      exact Nat.succ_ne_self _ hg
  | _ => cases hnext

/-! ## Reloads during a scan -/

/-- How the reloads stand when no generation has begun for some time: those that wait have waited
all the time, and the vocabulary is the same unless one of them has brought another into force, of
which it still tells observers. -/
structure Follows (start x : Indexer) : Prop where
  epoch_le : start.catalog.epoch ≤ x.catalog.epoch
  vocabulary : x.catalog.epoch = start.catalog.epoch ∧
      x.catalog.vocabulary = start.catalog.vocabulary ∨
    ∃ id ∈ start.loading, x.Announces id
  old : ∀ id ∈ x.loading, id ∈ start.loading
  announced : ∀ id ∈ start.loading, x.Announces id → start.catalog.epoch < x.catalog.epoch

/-- In the beginning nothing has changed. -/
theorem Sane.follows (h : x.Sane) : Follows x x where
  epoch_le := Nat.le_refl _
  vocabulary := .inl ⟨rfl, rfl⟩
  old := fun _ ho => ho
  announced := by
    intro id hwaits hannounces
    obtain ⟨task, ht, htid, hnext⟩ := hannounces
    obtain ⟨other, ho, hoid, hload⟩ := mem_loading.1 hwaits
    obtain rfl := h.task_eq_of_id ht ho (htid.trans hoid.symm)
    rw [hnext] at hload
    cases hload

/-- One turn more. -/
theorem Follows.after (h : Follows start x) (hlegal : Legal x (turn :: rest))
    (hg : (x.after turn).catalog.generation = x.catalog.generation) :
    Follows start (x.after turn) := by
  cases hlegal.stillTurn hg with
  | arrives id hwaited hepoch hannounces hloading =>
      have hlt : start.catalog.epoch < (x.after turn).catalog.epoch :=
        hepoch ▸ Nat.lt_succ_of_le h.epoch_le
      exact ⟨Nat.le_of_lt hlt, .inr ⟨id, h.old id hwaited, hannounces⟩,
        fun other ho => h.old other (hloading other ho), fun _ _ _ => hlt⟩
  | stays hvocabulary hepoch hloading hannounces =>
      refine ⟨hepoch ▸ h.epoch_le, ?_, fun other ho => h.old other (hloading other ho),
        fun id hid ha => hepoch ▸ h.announced id hid (hannounces id ha)⟩
      rcases h.vocabulary with hv | ⟨id, hid, ha⟩
      · exact .inl ⟨hepoch.trans hv.1, hvocabulary.trans hv.2⟩
      · exact .inr ⟨id, hid, ha.after hlegal hg⟩

/-- **What the vocabulary follows.**  While no generation begins, the vocabulary changes only with
reloads that waited in the beginning. -/
theorem Follows.run (h : Follows start x) (hlegal : Legal x turns) (hu : Undisturbed x turns) :
    Follows start (x.run turns) := by
  induction turns generalizing x with
  | nil => exact h
  | cons turn rest ih => exact ih (h.after hlegal hu.1) hlegal.next.1 hu.2

/-- The vocabulary has changed just if a reload that waited in the beginning tells observers of
it. -/
theorem Follows.epoch_eq_iff (h : Follows start x) :
    x.catalog.epoch = start.catalog.epoch ↔ ∀ id ∈ start.loading, ¬ x.Announces id := by
  constructor
  · intro he id hid hannounces
    exact Nat.ne_of_gt (h.announced id hid hannounces) he
  · intro hnone
    rcases h.vocabulary with hv | ⟨id, hid, hannounces⟩
    · exact hv.1
    · exact absurd hannounces (hnone id hid)

/-- Without such a change, the vocabulary is that of the beginning. -/
theorem Follows.vocabulary_eq (h : Follows start x)
    (he : x.catalog.epoch = start.catalog.epoch) :
    x.catalog.vocabulary = start.catalog.vocabulary := by
  rcases h.vocabulary with hv | ⟨id, hid, hannounces⟩
  · exact hv.2
  · exact absurd hannounces (h.epoch_eq_iff.1 he id hid)

/-! ## What is merged -/

/-- What a scan is merged with was found in texts, with the vocabulary of the scan. -/
theorem Proceeds.merges {move : Move} {task : Task} {step : Catalog × Next}
    (h : Proceeds move c task step) (hs : task.next.scan? = some scan)
    (hcurrent : scan.generation = c.generation) (hends : step.2.scan? = none)
    (hsmooth : ∀ fault, step.2 ≠ .fail fault) :
    ∃ found, step = (merged c scan found, .tell .notesUpdated) ∧
      ∀ entry ∈ found, ∃ text, (Catalog.examine scan.vocabulary entry.1 text).1 = .ok entry.2 := by
  have hfinish : ∀ found, c.finishScan scan found = (merged c scan found, .tell .notesUpdated) := by
    intro found
    rw [Catalog.finishScan, if_neg (by simpa using hcurrent)]
    rfl
  cases h with
  | listFailed fault => exact absurd rfl (hsmooth _)
  | gatherFailed fault => exact absurd rfl (hsmooth _)
  | listed paths =>
      cases hs
      unfold Catalog.readFiles at hends ⊢
      split at hends
      · rename_i hempty
        rw [if_pos hempty]
        exact ⟨[], hfinish [], by simp⟩
      · cases hends
  | gathered found hfound =>
      cases hs
      exact ⟨found, hfinish found, hfound⟩
  | _ => cases hs

/-- A scan looks for what is in force when it begins. -/
theorem Spans.vocabulary {first last : Turn} {middle : List Turn} (h : Spans x id first middle last)
    (hlegal : Legal x (first :: rest)) (hs : (x.after first).scanOf? id = some scan) :
    scan.vocabulary = (x.after first).catalog.vocabulary := by
  obtain ⟨d, request, hsteps⟩ := hlegal.next.2.steps_beginScan hlegal.sane h.before h.begins
  rw [hsteps.scanOf?, if_pos rfl] at hs
  obtain ⟨index, hd⟩ := d.beginScan_fst
  have hvocabulary : scan.vocabulary = d.vocabulary := by
    rcases d.beginScan_cases with ⟨keepEmpty, hnew, -⟩ | heq
    · obtain rfl := Option.some.inj (hs.symm.trans hnew)
      rfl
    · rw [heq] at hs
      cases hs
  rw [hvocabulary, hsteps.catalog, hd]
  rfl

/-- A scan that is not superseded is merged with what it has found with its own vocabulary. -/
theorem Scanning.merges {request : Request} (h : Scanning x id request scan)
    (hlegal : Legal x (turn :: rest)) (hsmooth : Smooth x turn)
    (hends : (x.after turn).scanOf? id = none) (hcurrent : scan.generation = x.catalog.generation) :
    ∃ found, (x.after turn).catalog = merged x.catalog scan found ∧
      ∀ entry ∈ found, ∃ text, (Catalog.examine scan.vocabulary entry.1 text).1 = .ok entry.2 := by
  have hscan := h.scanOf?
  obtain ⟨next, htask, hs⟩ := h
  have hmem := (of_taskAt?_eq_some htask).1
  rcases hlegal.next.2.own id with ⟨hsame, -⟩ | ⟨requests, hm⟩ | ⟨task, step, hm, hid, hp, hsteps⟩
  · have hstays : (x.after turn).scanOf? id = x.scanOf? id := by
      rw [Indexer.scanOf?, hsame, Indexer.scanOf?]
    rw [hstays, hscan] at hends
    cases hends
  · exact absurd (mem_started_of_move hm) (hlegal.apart _ hmem)
  · obtain rfl := hlegal.sane.task_eq_of_id hmem hm hid.symm
    rw [hsteps.scanOf?, if_pos rfl] at hends
    obtain ⟨found, rfl, hfound⟩ := hp.merges hs hcurrent hends (hsteps.not_fail hsmooth)
    exact ⟨found, hsteps.catalog, hfound⟩

/-- **Whose notes are merged.**  When a scan is merged, its notes are those of its own vocabulary,
which is the one in force then if no other has come into force meanwhile.  One has just if a reload
that waited for its settings when the scan began tells observers of them when the scan is merged.
The settings are those that have come in last meanwhile, or else those that the scan began with. -/
theorem merged_notes_in_force_iff {limit : Int} {before middle : List Turn} {first last : Turn}
    (hcalls : Calls (before ++ first :: (middle ++ [last])))
    (hstart : ((ofCatalog c limit).run before).after first = start) (hx : start.run middle = x)
    (h : Spans ((ofCatalog c limit).run before) id first middle last)
    (hu : Undisturbed start middle) (hsmooth : Smooth x last) :
    ∃ scan found, start.scanOf? id = some scan ∧
      (x.after last).catalog = merged x.catalog scan found ∧
      (∀ path notes, (path, some notes) ∈ found →
        ∃ text, scan.vocabulary.notesIn path text = .ok notes) ∧
      (x.catalog.epoch = start.catalog.epoch → x.catalog.vocabulary = scan.vocabulary) ∧
      (x.catalog.epoch = start.catalog.epoch ↔ ∀ other ∈ start.loading, ¬ x.Announces other) ∧
      x.catalog.settings =
        ((arrivals start middle).getLast?.map Prod.snd).getD start.catalog.settings := by
  subst hstart hx
  have hlegal := (hcalls.legal c limit).right
  have hmiddle := hlegal.next.1.left
  obtain ⟨request, scan, hscanning, -, hg, -⟩ :=
    (hlegal.next.2.scanTurn hlegal.sane).begins h.before h.begins
  obtain ⟨hend, -, -⟩ := hscanning.run hmiddle h.during
  -- No generation has begun meanwhile, so the scan is merged when it ends.
  have hcurrent := hg.trans ((undisturbed_iff hmiddle).1 hu)
  obtain ⟨found, hmerged, hfound⟩ :=
    hend.merges hlegal.next.1.right hsmooth h.ends hcurrent
  have hfollows := hmiddle.sane.follows.run hmiddle hu
  have hvocabulary := h.vocabulary hlegal hscanning.scanOf?
  refine ⟨scan, found, hscanning.scanOf?, hmerged, fun path notes hm => ?_, fun he => ?_,
    hfollows.epoch_eq_iff, hmiddle.settings_run hu⟩
  · obtain ⟨text, htext⟩ := hfound _ hm
    obtain ⟨read, -, hnotes⟩ := Catalog.examine_eq_some htext
    exact ⟨read, hnotes⟩
  · rw [hvocabulary]
    exact hfollows.vocabulary_eq he

/-! ## A scan between two generations of a reload -/

open Catalog (opened)

/-- The small project when a reload has begun, and then a scan. -/
def duringReload : Indexer :=
  ((ofCatalog opened 8).run [turnOf (.start 1 [.reload])]).after (turnOf (.start 2 [.rescan]))

/-- The scan reads its file after the reload has heard something of its settings, or nothing yet. -/
def scanBesideReload (heard : List Move) : List Turn :=
  heard.map turnOf ++ [.list 2 (.ok ["/p/a.py"]), .text 0 (.ok "# TODO: a\n")].map turnOf

/-- What the reload may have heard: nothing yet, or that its file holds no text, or settings. -/
def hearings : List (List Move) :=
  [[], [.settings 1 (.error .notText)], [.settings 1 (.ok noteSettings)],
    [.settings 1 (.ok overflowing)]]

/-- The facts of the run, whatever the reload has heard. -/
theorem scanBesideReload_runs : ∀ heard ∈ hearings,
    Calls ([turnOf (.start 1 [.reload])] ++
      turnOf (.start 2 [.rescan]) :: (scanBesideReload heard ++ [turnOf (.gather 2)])) ∧
    (((ofCatalog opened 8).run [turnOf (.start 1 [.reload])]).scanOf? 2 = none ∧
      duringReload.scanOf? 2 ≠ none ∧
      Along (fun y turn => (y.after turn).scanOf? 2 ≠ none) duringReload (scanBesideReload heard) ∧
      ((duringReload.run (scanBesideReload heard)).after (turnOf (.gather 2))).scanOf? 2 = none) ∧
    Along (fun y turn => (y.after turn).catalog.generation = y.catalog.generation) duringReload
      (scanBesideReload heard) ∧
    Along Smooth (duringReload.run (scanBesideReload heard)) [turnOf (.gather 2)] := by
  unfold duringReload
  rw [Catalog.opened_eq]
  decide +kernel

/-- Whatever the reload hears, the scan goes on without a later generation, and does not fail. -/
theorem spans_scanBesideReload {heard : List Move} (hm : heard ∈ hearings) :
    Spans ((ofCatalog opened 8).run [turnOf (.start 1 [.reload])]) 2 (turnOf (.start 2 [.rescan]))
        (scanBesideReload heard) (turnOf (.gather 2)) ∧
      Undisturbed duringReload (scanBesideReload heard) ∧
      Smooth (duringReload.run (scanBesideReload heard)) (turnOf (.gather 2)) := by
  obtain ⟨-, ⟨hbefore, hbegins, hduring, hends⟩, hundisturbed, hsmooth⟩ :=
    scanBesideReload_runs heard hm
  exact ⟨⟨hbefore, hbegins, hduring, hends⟩, hundisturbed, hsmooth.1⟩

/-- The vocabulary in force changes with settings that can be used, and with nothing else. -/
theorem epoch_scanBesideReload :
    duringReload.loading = [1] ∧
      (∀ heard ∈ [[], [.settings 1 (.error .notText)]],
        (duringReload.run (scanBesideReload heard)).catalog.epoch = duringReload.catalog.epoch) ∧
      (duringReload.run (scanBesideReload [.settings 1 (.ok noteSettings)])).catalog.epoch ≠
        duringReload.catalog.epoch := by
  unfold duringReload
  rw [Catalog.opened_eq]
  decide +kernel

/-- What is merged while the reload waits is of the vocabulary in force, and so it is when the
reload has ended without settings; not so while the reload tells observers of those that it has
loaded. -/
theorem vocabulary_in_force_besideReload :
    (∀ heard ∈ [[], [.settings 1 (.error .notText)]], ∃ scan found,
      ((duringReload.run (scanBesideReload heard)).after (turnOf (.gather 2))).catalog =
        merged (duringReload.run (scanBesideReload heard)).catalog scan found ∧
      (duringReload.run (scanBesideReload heard)).catalog.vocabulary = scan.vocabulary) ∧
    (duringReload.run (scanBesideReload [.settings 1 (.ok noteSettings)])).Announces 1 := by
  obtain ⟨hloading, hsame, hchanged⟩ := epoch_scanBesideReload
  have hstart : ((ofCatalog opened 8).run [turnOf (.start 1 [.reload])]).after
      (turnOf (.start 2 [.rescan])) = duringReload := rfl
  refine ⟨fun heard hm => ?_, ?_⟩
  · have hheard : heard ∈ hearings := List.mem_append_left (hearings.drop 2) hm
    obtain ⟨hspans, hundisturbed, hsmooth⟩ := spans_scanBesideReload hheard
    have hepoch := hsame heard hm
    generalize hx : duringReload.run (scanBesideReload heard) = x at hsmooth hepoch ⊢
    obtain ⟨scan, found, -, hmerged, -, hvocabulary, -⟩ := merged_notes_in_force_iff
      (scanBesideReload_runs heard hheard).1 hstart hx hspans hundisturbed hsmooth
    exact ⟨scan, found, hmerged, hvocabulary hepoch⟩
  · have hheard : [.settings 1 (.ok noteSettings)] ∈ hearings := .tail _ (.tail _ (.head _))
    obtain ⟨hspans, hundisturbed, hsmooth⟩ := spans_scanBesideReload hheard
    generalize hx : duringReload.run (scanBesideReload [.settings 1 (.ok noteSettings)]) = x
      at hsmooth hchanged ⊢
    obtain ⟨-, -, -, -, -, -, hiff, -⟩ := merged_notes_in_force_iff
      (scanBesideReload_runs _ hheard).1 hstart hx hspans hundisturbed hsmooth
    by_contra hnot
    refine hchanged (hiff.2 fun other hother => ?_)
    rw [hloading] at hother
    exact List.mem_singleton.1 hother ▸ hnot

/-- A reload begins, and then a scan.  The settings come in, and the scan reads its file and is
merged while the reload tells observers of them, or after it has failed. -/
def scanDuringReload (loaded : Settings) : List Turn :=
  [.settings 1 (.ok loaded), .list 2 (.ok ["/p/a.py"]), .text 0 (.ok "# TODO: a\n")].map turnOf

/-- The small project when the scan is merged. -/
def scannedDuringReload (loaded : Settings) : Indexer :=
  (duringReload.run (scanDuringReload loaded)).after (turnOf (.gather 2))

/-- Both settings are among what the reload may have heard. -/
theorem mem_hearings_of_loaded : ∀ loaded ∈ [noteSettings, overflowing],
    [.settings 1 (.ok loaded)] ∈ hearings := by
  intro loaded hloaded
  exact List.mem_append_right (hearings.take 2)
    (List.mem_map_of_mem (f := fun loaded => [Move.settings 1 (.ok loaded)]) hloaded)

/-- What the scan leaves after settings that can be used, and after others. -/
theorem scanDuringReload_leaves :
    Along Smooth (ofCatalog opened 8) ([turnOf (.start 1 [.reload])] ++
      turnOf (.start 2 [.rescan]) :: (scanDuringReload noteSettings ++ [turnOf (.gather 2)])) ∧
    (∃ entry ∈ (scannedDuringReload noteSettings).catalog.index.entries, ∃ note ∈ entry.notes,
      note.tag ∉ (scannedDuringReload noteSettings).catalog.vocabulary.names) ∧
    ∃ entry ∈ (scannedDuringReload overflowing).catalog.index.entries, ∃ note ∈ entry.notes,
      note.tag ∉ (scannedDuringReload overflowing).catalog.settings.tags.map (·.name) := by
  unfold scannedDuringReload duringReload
  rw [Catalog.opened_eq]
  decide +kernel

/-- A note of the old vocabulary is merged.  This is against the vocabulary in force while observers
are told of the new settings: its tag is not looked for any longer.  After settings that cannot be
used have come in, it is against the settings alone, which do not have its tag; the vocabulary in
force is still that of the scan. -/
theorem old_vocabulary_is_merged :
    (∀ loaded ∈ [noteSettings, overflowing],
      Calls ([turnOf (.start 1 [.reload])] ++
        turnOf (.start 2 [.rescan]) :: (scanDuringReload loaded ++ [turnOf (.gather 2)])) ∧
      Spans ((ofCatalog opened 8).run [turnOf (.start 1 [.reload])]) 2 (turnOf (.start 2 [.rescan]))
        (scanDuringReload loaded) (turnOf (.gather 2)) ∧
      Undisturbed duringReload (scanDuringReload loaded)) ∧
    Along Smooth (ofCatalog opened 8) ([turnOf (.start 1 [.reload])] ++
      turnOf (.start 2 [.rescan]) :: (scanDuringReload noteSettings ++ [turnOf (.gather 2)])) ∧
    (∃ entry ∈ (scannedDuringReload noteSettings).catalog.index.entries, ∃ note ∈ entry.notes,
      note.tag ∉ (scannedDuringReload noteSettings).catalog.vocabulary.names) ∧
    ∃ entry ∈ (scannedDuringReload overflowing).catalog.index.entries, ∃ note ∈ entry.notes,
      note.tag ∉ (scannedDuringReload overflowing).catalog.settings.tags.map (·.name) := by
  refine ⟨fun loaded hloaded => ?_, scanDuringReload_leaves⟩
  have hheard := mem_hearings_of_loaded loaded hloaded
  obtain ⟨hspans, hundisturbed, -⟩ := spans_scanBesideReload hheard
  exact ⟨(scanBesideReload_runs _ hheard).1, hspans, hundisturbed⟩

end Indexer

end Marginalia
