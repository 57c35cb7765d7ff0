import Marginalia.Proofs.LoneScans

/-!
# Scans that a failed reload takes along

A reload begins a generation before it knows whether its settings can be loaded.  If they cannot,
nothing comes of it, and no scan begins.  But a scan that was under way when it began is of an
earlier generation now, and is dropped when it has read its files (`Indexer.Lost`).

So of one scan and one failed reload, in whatever order things happen, the scan is lost exactly if
the reload begins while it is under way (`Indexer.scan_lost_iff_overtaken`); `Indexer.scan_is_lost`
is such a run.
-/

namespace Marginalia

namespace Indexer

open Catalog (Next Scan)

variable {s : Supply} {x : Indexer} {c : Catalog} {turn : Turn} {r l : JobId} {paths : List Text}
  {rest turns : List Turn}

/-- A turn of a run of one scan and one reload whose settings cannot be loaded. -/
structure Admits (r l : JobId) (turn : Turn) : Prop where
  begins : ∀ id requests, turn.move = .start id requests →
    id = r ∧ requests = [.rescan] ∨ id = l ∧ requests = [.reload]
  fails : ∀ id settings, turn.move ≠ .settings id (.ok settings)

/-- Other calls than a scan are reloads that wait for their settings. -/
structure Failing (r : JobId) (x : Indexer) : Prop where
  hasFile : x.catalog.hasFile = true
  loads : ∀ task ∈ x.tasks, task.id ≠ r → task.next = .load

/-- No reload begins while a scan is under way. -/
def Spared (r l : JobId) (x : Indexer) (turn : Turn) : Prop :=
  turn.move = .start l [.reload] → x.scanOf? r = none

/-- Whether a reload begins in a turn, and nothing else happens to the catalog. -/
inductive Bumps (l : JobId) (x : Indexer) (turn : Turn) : Prop
  | raised (move : turn.move = .start l [.reload])
      (catalog : (x.after turn).catalog =
        { x.catalog with generation := x.catalog.generation + 1 })
  | same (move : turn.move ≠ .start l [.reload]) (catalog : (x.after turn).catalog = x.catalog)

/-- Neither changes the index. -/
theorem Bumps.index (h : Bumps l x turn) : (x.after turn).catalog.index = x.catalog.index := by
  cases h with
  | raised move catalog => rw [catalog]
  | same move catalog => rw [catalog]

/-- A turn that leaves the scan alone, and if it changes the catalog at all, begins the reload. -/
structure Aside (r l : JobId) (x : Indexer) (turn : Turn) : Prop where
  bumps : Bumps l x turn
  mem_iff : ∀ task, task.id = r → (task ∈ (x.after turn).tasks ↔ task ∈ x.tasks)
  failing : Failing r (x.after turn)

/-- A reload that begins raises the generation, and waits for its settings. -/
theorem Failing.beginLoad_eq (h : Failing r x) :
    x.catalog.beginLoad = ({ x.catalog with generation := x.catalog.generation + 1 }, .load) := by
  rw [Catalog.beginLoad_eq, if_pos h.hasFile]

/-- The reload begins. -/
theorem Steps.aside_of_load (h : Steps x turn l .reload x.catalog.beginLoad) (hx : Failing r x)
    (hm : turn.move = .start l [.reload]) (hne : l ≠ r) : Aside r l x turn := by
  rw [hx.beginLoad_eq] at h
  refine ⟨.raised hm h.catalog, fun task hid => ?_, ⟨h.catalog ▸ hx.hasFile, fun task ht hr => ?_⟩⟩
  · have hpending : task ∉ Task.pending { id := l, request := .reload, next := .load } := by
      intro ht
      rw [(Task.eq_of_mem_pending ht).1] at hid
      exact hne hid
    rw [h.tasks, List.mem_append, List.mem_filter]
    simp [hpending, hid, hne.symm]
  · rcases h.of_mem ht with ⟨hold, -⟩ | rfl
    · exact hx.loads task hold hr
    · rfl

/-- The reload fails. -/
theorem Steps.aside_of_fail {id : JobId} {request : Request} {fault : Catalog.Fault}
    (h : Steps x turn id request (x.catalog, .fail fault)) (hx : Failing r x)
    (hm : turn.move ≠ .start l [.reload]) (hne : id ≠ r) : Aside r l x turn := by
  have htasks : (x.after turn).tasks = x.tasks.filter (·.id ≠ id) := by
    rw [h.tasks]
    exact List.append_nil _
  refine ⟨.same hm h.catalog, fun task hid => ?_, ⟨h.catalog ▸ hx.hasFile, fun task ht hr => ?_⟩⟩
  · rw [htasks, List.mem_filter]
    simp [hid, hne.symm]
  · rw [htasks] at ht
    exact hx.loads task (List.mem_filter.1 ht).1 hr

/-- A turn without a step of the reload does not begin it. -/
theorem Legal.move_ne_of_catalog_eq (h : Legal x (turn :: rest)) (hx : Failing r x)
    (hcatalog : (x.after turn).catalog = x.catalog) : turn.move ≠ .start l [.reload] := by
  intro hm
  have hraised := (h.begun hm).catalog
  rw [show x.catalog.begin turn.disk .reload = x.catalog.beginLoad from rfl,
    hx.beginLoad_eq] at hraised
  have hgeneration := congrArg Catalog.generation (hcatalog.symm.trans hraised)
  exact absurd hgeneration (Nat.ne_of_lt (Nat.lt_succ_self _))

/-- A turn that is about the other call leaves the scan alone, and if it changes the catalog at all,
it begins the reload. -/
theorem Elsewhere.aside (h : Elsewhere r x turn) (hlegal : Legal x (turn :: rest))
    (hx : Failing r x) (hadmits : Admits r l turn) : Aside r l x turn := by
  cases h with
  | quiet catalog tasks said =>
      exact ⟨.same (hlegal.move_ne_of_catalog_eq hx catalog) catalog, fun task _ => by rw [tasks],
        ⟨catalog ▸ hx.hasFile, tasks ▸ hx.loads⟩⟩
  | begun other request move ne steps =>
      rcases hadmits.begins _ _ move with ⟨rfl, -⟩ | ⟨rfl, heq⟩
      · exact absurd rfl ne
      · cases heq
        exact steps.aside_of_load hx move ne
  | resumed prior mem ne step proceeds steps =>
      have hload := hx.loads prior mem ne
      obtain ⟨fault, rfl⟩ : ∃ fault, step = (x.catalog, .fail fault) := by
        generalize hmove : turn.move = move at proceeds
        cases proceeds with
        | loadFailed fault => exact ⟨_, rfl⟩
        | loaded settings => exact absurd hmove (hadmits.fails _ _)
        | _ => cases hload
      exact steps.aside_of_fail hx (hlegal.move_ne_of_catalog_eq hx steps.catalog) ne

/-- After a step of the scan, the other call still waits for its settings. -/
theorem Steps.failing {request : Request} {step : Catalog × Next} (h : Steps x turn r request step)
    (hx : Failing r x) (hfile : step.1.hasFile = true) : Failing r (x.after turn) where
  hasFile := by
    rw [h.catalog]
    exact hfile
  loads := by
    intro task ht hne
    rcases h.of_mem ht with ⟨hold, -⟩ | rfl
    · exact hx.loads task hold hne
    · exact absurd rfl hne

/-! ## Scans that are not lost -/

/-- How far a scan has come of which nothing is lost: it is still to begin, it is under way and of
the generation in force, or it was merged. -/
inductive Intact (s : Supply) (r : JobId) (c : Catalog) (paths : List Text) (turns : List Turn)
    (x : Indexer) : Prop
  | ahead (generation : Nat) (begins : r ∈ turns.filterMap Turn.started?)
      (catalog : x.catalog = { c with generation })
  | underWay (generation : Nat) (next : Next)
      (task : ({ id := r, request := .rescan, next } : Task) ∈ x.tasks)
      (reaches : s.Reaches ({ c with generation } : Catalog).scanToBegin paths next)
      (catalog : x.catalog = ({ c with generation } : Catalog).scanning)
  | merged (begun : r ∉ turns.filterMap Turn.started?)
      (tells : ∀ task ∈ x.tasks, task.id = r → task.next = .tell .notesUpdated)
      (index : x.catalog.index = Index.ofEntries (s.entriesFor c paths))

/-- How far a scan has come that is lost: it is of an earlier generation, or it was dropped. -/
inductive Lost (s : Supply) (r : JobId) (c : Catalog) (paths : List Text) (turns : List Turn)
    (x : Indexer) : Prop
  | underWay (scan : Scan) (next : Next)
      (task : ({ id := r, request := .rescan, next } : Task) ∈ x.tasks)
      (reaches : s.Reaches scan paths next) (vocabulary : scan.vocabulary = c.vocabulary)
      (stale : scan.generation < x.catalog.generation) (index : x.catalog.index = c.index)
  | dropped (begun : r ∉ turns.filterMap Turn.started?) (gone : ∀ task ∈ x.tasks, task.id ≠ r)
      (index : x.catalog.index = c.index)

/-- A scan is one of the files of its supply, whether it is lost or not. -/
theorem Intact.scans (h : Intact s r c paths turns x) (hlegal : Legal x turns)
    (hsound : ∀ path ∈ paths, s.Extracts c.vocabulary path) : Scans s r paths x := by
  intro task ht hid
  cases h with
  | ahead generation begins catalog => exact absurd (hid ▸ begins) (hlegal.apart task ht)
  | underWay generation next mem reaches catalog =>
      obtain rfl := hlegal.sane.task_eq_of_id mem ht hid.symm
      exact .inl ⟨_, reaches, hsound⟩
  | merged begun tells index => exact .inr (tells task ht hid)

/-- A lost scan is one of the files of its supply. -/
theorem Lost.scans (h : Lost s r c paths turns x) (hlegal : Legal x turns)
    (hsound : ∀ path ∈ paths, s.Extracts c.vocabulary path) : Scans s r paths x := by
  intro task ht hid
  cases h with
  | underWay scan next mem reaches vocabulary stale index =>
      obtain rfl := hlegal.sane.task_eq_of_id mem ht hid.symm
      exact .inl ⟨scan, reaches, fun path hp => vocabulary ▸ hsound path hp⟩
  | dropped begun gone index => exact absurd hid (gone task ht)

/-- What is under way after a step of the scan is the scan. -/
theorem Steps.next_of_self {request : Request} {step : Catalog × Next}
    (h : Steps x turn r request step)
    {task : Task} (ht : task ∈ (x.after turn).tasks) (hid : task.id = r) : task.next = step.2 := by
  rcases h.of_mem ht with ⟨-, hne⟩ | rfl
  · exact absurd hid hne
  · rfl

/-- A scan that has taken a step without being disturbed is under way or merged. -/
theorem Steps.intact {step : Catalog × Next} (h : Steps x turn r .rescan step)
    (hfailing : Failing r x) (hfile : c.hasFile = true)
    (hbegun : r ∉ rest.filterMap Turn.started?) {generation : Nat}
    (hstep : (∃ next, step = (({ c with generation } : Catalog).scanning, next) ∧
        s.Reaches ({ c with generation } : Catalog).scanToBegin paths next) ∨
      step = (({ c with generation } : Catalog).scanned s
        ({ c with generation } : Catalog).scanToBegin paths, .tell .notesUpdated)) :
    Intact s r c paths rest (x.after turn) ∧ Failing r (x.after turn) := by
  rcases hstep with ⟨next, rfl, hreaches⟩ | rfl
  · have hpending : Task.pending { id := r, request := .rescan, next } =
        [{ id := r, request := .rescan, next }] := by
      cases hreaches <;> rfl
    refine ⟨.underWay generation next (h.mem_of_pending ?_) hreaches h.catalog,
      h.failing hfailing hfile⟩
    rw [hpending]
    exact List.mem_singleton_self _
  · refine ⟨.merged hbegun (fun task ht hid => h.next_of_self ht hid) ?_, h.failing hfailing hfile⟩
    rw [h.catalog]
    rfl

/-- A scan that is still to begin is not lost in a turn. -/
theorem Legal.intact_of_ahead (hlegal : Legal x (turn :: rest)) (hfailing : Failing r x)
    (hadmits : Admits r l turn) (hne : r ≠ l) (hpaths : s.pathsFor c = .ok paths)
    (hfile : c.hasFile = true) {generation : Nat}
    (hbegins : r ∈ (turn :: rest).filterMap Turn.started?)
    (hcatalog : x.catalog = { c with generation }) :
    Intact s r c paths rest (x.after turn) ∧ Failing r (x.after turn) := by
  by_cases hm : turn.move = .start r [.rescan]
  · have hbegun : r ∉ rest.filterMap Turn.started? := by
      have hnodup := hlegal.nodup
      rw [List.filterMap_cons_some (show turn.started? = some r by rw [Turn.started?, hm])]
        at hnodup
      exact (List.nodup_cons.1 hnodup).1
    have hsteps : Steps x turn r .rescan ({ c with generation } : Catalog).beginScan := by
      rw [← hcatalog]
      exact hlegal.begun hm
    exact hsteps.intact hfailing hfile hbegun (Supply.beginScan_cases hpaths)
  · have hlater : r ∈ rest.filterMap Turn.started? := by
      rw [List.filterMap_cons] at hbegins
      split at hbegins
      · exact hbegins
      · rename_i started hstarted
        refine (List.mem_cons.1 hbegins).resolve_left fun heq => ?_
        unfold Turn.started? at hstarted
        split at hstarted
        · rename_i id requests hmove
          cases hstarted
          rcases hadmits.begins _ _ hmove with ⟨rfl, rfl⟩ | ⟨rfl, -⟩
          · exact hm hmove
          · exact hne heq
        · cases hstarted
    rcases hlegal.elsewhere_or_own r with helse | ⟨request, hstart⟩ | ⟨task, ht, hid, -⟩
    · obtain ⟨hbumps, -, hstill⟩ := helse.aside hlegal hfailing hadmits
      refine ⟨?_, hstill⟩
      cases hbumps with
      | raised move catalog => exact .ahead _ hlater (by rw [catalog, hcatalog])
      | same move catalog => exact .ahead _ hlater (catalog.trans hcatalog)
    · rcases hadmits.begins _ _ hstart with ⟨-, hrescan⟩ | ⟨heq, -⟩
      · exact absurd (hrescan ▸ hstart) hm
      · exact absurd heq hne
    · exact absurd (hid ▸ hbegins) (hlegal.apart task ht)

/-- A scan under way stays of the generation in force, unless the reload begins. -/
theorem Legal.intact_of_underWay (hlegal : Legal x (turn :: rest)) (hfailing : Failing r x)
    (hadmits : Admits r l turn) (hserved : Served s r x) (hserves : s.Serves r x turn)
    (hfile : c.hasFile = true) (hsound : ∀ path ∈ paths, s.Extracts c.vocabulary path)
    {generation : Nat} {next : Next}
    (htask : ({ id := r, request := .rescan, next } : Task) ∈ x.tasks)
    (hreaches : s.Reaches ({ c with generation } : Catalog).scanToBegin paths next)
    (hcatalog : x.catalog = ({ c with generation } : Catalog).scanning) :
    (turn.move ≠ .start l [.reload] ∧ Intact s r c paths rest (x.after turn) ∨
      turn.move = .start l [.reload] ∧ Lost s r c paths rest (x.after turn)) ∧
        Failing r (x.after turn) := by
  have hscan : ({ c with generation } : Catalog).scanToBegin.generation =
      ({ c with generation } : Catalog).scanning.generation := rfl
  rcases hserved.goesOn hlegal hserves htask hreaches hsound with helse |
    ⟨hstart, step, hsteps, hstep⟩
  · obtain ⟨hbumps, htasks, hstill⟩ := helse.aside hlegal hfailing hadmits
    refine ⟨?_, hstill⟩
    have hmem := (htasks _ rfl).2 htask
    cases hbumps with
    | same move catalog =>
        exact .inl ⟨move, .underWay generation next hmem hreaches (catalog.trans hcatalog)⟩
    | raised move catalog =>
        rw [hcatalog] at catalog
        refine .inr ⟨move, .underWay _ next hmem hreaches rfl ?_ ?_⟩
        · rw [catalog]
          exact Nat.lt_succ_self _
        · rw [catalog]
          rfl
  · have hquiet : turn.move ≠ .start l [.reload] := by
      intro hm
      rw [Turn.started?, hm] at hstart
      cases hstart
    have hbegun : r ∉ rest.filterMap Turn.started? :=
      fun hm => hlegal.apart _ htask (mem_started_cons hm)
    have hbecomes : (∃ next, step = (({ c with generation } : Catalog).scanning, next) ∧
          s.Reaches ({ c with generation } : Catalog).scanToBegin paths next) ∨
        step = (({ c with generation } : Catalog).scanned s
          ({ c with generation } : Catalog).scanToBegin paths, .tell .notesUpdated) := by
      rw [hcatalog] at hstep
      rcases hstep with ⟨-, rfl⟩ | ⟨-, rfl⟩
      · rcases Catalog.readFiles_scanning s hscan paths with heq | heq
        · exact .inl ⟨_, heq, .read⟩
        · exact .inr heq
      · exact .inr (Catalog.finishScan_scanning s hscan paths)
    obtain ⟨hnext, hstill⟩ := hsteps.intact hfailing hfile hbegun hbecomes
    exact ⟨.inl ⟨hquiet, hnext⟩, hstill⟩

/-- Nothing is lost of a scan that was merged. -/
theorem Legal.intact_of_merged (hlegal : Legal x (turn :: rest)) (hfailing : Failing r x)
    (hadmits : Admits r l turn) (hbegun : r ∉ (turn :: rest).filterMap Turn.started?)
    (htells : ∀ task ∈ x.tasks, task.id = r → task.next = .tell .notesUpdated)
    (hindex : x.catalog.index = Index.ofEntries (s.entriesFor c paths)) :
    Intact s r c paths rest (x.after turn) ∧ Failing r (x.after turn) := by
  have hlater : r ∉ rest.filterMap Turn.started? := fun hm => hbegun (mem_started_cons hm)
  rcases hlegal.elsewhere_or_own r with helse | ⟨request, hstart⟩ |
    ⟨task, ht, rfl, -, step, hp, hsteps⟩
  · obtain ⟨hbumps, htasks, hstill⟩ := helse.aside hlegal hfailing hadmits
    exact ⟨.merged hlater (fun task ht hid => htells task ((htasks task hid).1 ht) hid)
      (hbumps.index.trans hindex), hstill⟩
  · exact absurd (mem_started_of_move hstart) hbegun
  · have hnext := htells task ht rfl
    have hdone : step = (x.catalog, .done true) := by
      generalize turn.move = move at hp
      cases hp <;> cases hnext
      rfl
    subst hdone
    refine ⟨.merged hlater (fun other ho hid => ?_) ?_, hsteps.failing hfailing hfailing.hasFile⟩
    · rw [hsteps.tasks] at ho
      simp [Task.pending, hid] at ho
    · rw [hsteps.catalog]
      exact hindex

/-- A turn loses a scan only if the reload begins in it while the scan is under way. -/
theorem Intact.after (h : Intact s r c paths (turn :: rest) x) (hlegal : Legal x (turn :: rest))
    (hfailing : Failing r x) (hadmits : Admits r l turn) (hne : r ≠ l) (hserved : Served s r x)
    (hserves : s.Serves r x turn) (hpaths : s.pathsFor c = .ok paths) (hfile : c.hasFile = true)
    (hsound : ∀ path ∈ paths, s.Extracts c.vocabulary path) :
    (Spared r l x turn ∧ Intact s r c paths rest (x.after turn) ∨
      ¬ Spared r l x turn ∧ Lost s r c paths rest (x.after turn)) ∧ Failing r (x.after turn) := by
  cases h with
  | ahead generation begins catalog =>
      obtain ⟨hnext, hstill⟩ :=
        hlegal.intact_of_ahead hfailing hadmits hne hpaths hfile begins catalog
      have hnone : x.taskAt? r = none :=
        taskAt?_eq_none.2 fun task ht hid => hlegal.apart task ht (hid ▸ begins)
      refine ⟨.inl ⟨fun _ => ?_, hnext⟩, hstill⟩
      rw [scanOf?, hnone]
      rfl
  | underWay generation next task reaches catalog =>
      obtain ⟨hnext, hstill⟩ := hlegal.intact_of_underWay hfailing hadmits hserved hserves hfile
        hsound task reaches catalog
      refine ⟨hnext.imp (fun hn => ⟨fun hm => absurd hm hn.1, hn.2⟩) fun hn =>
        ⟨fun hspared => ?_, hn.2⟩, hstill⟩
      have hscan : x.scanOf? r = next.scan? := by
        rw [scanOf?, hlegal.sane.taskAt?_of_mem task]
        rfl
      have hnone := hscan.symm.trans (hspared hn.1)
      cases reaches <;> cases hnone
  | merged begun tells index =>
      obtain ⟨hnext, hstill⟩ := hlegal.intact_of_merged hfailing hadmits begun tells index
      refine ⟨.inl ⟨fun _ => ?_, hnext⟩, hstill⟩
      unfold scanOf?
      cases ht : x.taskAt? r with
      | none => rfl
      | some task =>
          obtain ⟨hm, hid⟩ := of_taskAt?_eq_some ht
          rw [Option.bind_some, tells task hm hid]
          rfl

/-- A scan that is lost stays lost, and the index stays as it was. -/
theorem Lost.after (h : Lost s r c paths (turn :: rest) x) (hlegal : Legal x (turn :: rest))
    (hfailing : Failing r x) (hadmits : Admits r l turn) (hserved : Served s r x)
    (hserves : s.Serves r x turn) (hsound : ∀ path ∈ paths, s.Extracts c.vocabulary path) :
    Lost s r c paths rest (x.after turn) ∧ Failing r (x.after turn) := by
  cases h with
  | underWay scan next task reaches vocabulary stale index =>
      have hlater : r ∉ rest.filterMap Turn.started? :=
        fun hm => hlegal.apart _ task (mem_started_cons hm)
      have hgoes := hserved.goesOn hlegal hserves task reaches fun path hp =>
        vocabulary ▸ hsound path hp
      rcases hgoes with helse | ⟨-, step, hsteps, hstep⟩
      · obtain ⟨hbumps, htasks, hstill⟩ := helse.aside hlegal hfailing hadmits
        have hstale := Nat.lt_of_lt_of_le stale hlegal.next.2.generation_le
        exact ⟨.underWay scan next ((htasks _ rfl).2 task) reaches vocabulary hstale
          (hbumps.index.trans index), hstill⟩
      · -- With its list the scan may go on to read, but what it has found comes too late.
        have hdropped : ∀ found, x.catalog.finishScan scan found = (x.catalog, .done false) :=
          fun found => Catalog.finishScan_superseded (Nat.ne_of_lt stale) found
        have hbecomes : step = (x.catalog, .read scan paths) ∨ step = (x.catalog, .done false) := by
          rcases hstep with ⟨-, rfl⟩ | ⟨-, rfl⟩
          · unfold Catalog.readFiles
            split
            · exact .inr (hdropped [])
            · exact .inl rfl
          · exact .inr (hdropped _)
        rcases hbecomes with rfl | rfl
        · refine ⟨.underWay scan _ (hsteps.mem_of_pending (List.mem_singleton_self _))
            .read vocabulary ?_ ?_, hsteps.failing hfailing hfailing.hasFile⟩
          · rwa [hsteps.catalog]
          · rwa [hsteps.catalog]
        · refine ⟨.dropped hlater (fun other ho hid => ?_) ?_,
            hsteps.failing hfailing hfailing.hasFile⟩
          · rw [hsteps.tasks] at ho
            simp [Task.pending, hid] at ho
          · rwa [hsteps.catalog]
  | dropped begun gone index =>
      have hlater : r ∉ rest.filterMap Turn.started? := fun hm => begun (mem_started_cons hm)
      rcases hlegal.elsewhere_or_own r with helse | ⟨request, hstart⟩ | ⟨task, ht, hid, -⟩
      · obtain ⟨hbumps, htasks, hstill⟩ := helse.aside hlegal hfailing hadmits
        exact ⟨.dropped hlater (fun task ht hid => gone task ((htasks task hid).1 ht) hid)
          (hbumps.index.trans index), hstill⟩
      · exact absurd (mem_started_of_move hstart) begun
      · exact absurd hid (gone task ht)

/-! ## From the beginning to the end -/

/-- **A lost scan stays lost** along a run beside failing reloads. -/
theorem Lost.run (h : Lost s r c paths turns x) (hlegal : Legal x turns) (hfailing : Failing r x)
    (hadmits : ∀ turn ∈ turns, Admits r l turn) (hserved : Served s r x)
    (hserves : Along (s.Serves r) x turns)
    (hsound : ∀ path ∈ paths, s.Extracts c.vocabulary path) :
    Lost s r c paths [] (x.run turns) := by
  induction turns generalizing x with
  | nil => exact h
  | cons turn rest ih =>
      obtain ⟨hnext, hstill⟩ := h.after hlegal hfailing (hadmits turn List.mem_cons_self) hserved
        hserves.1 hsound
      exact ih hnext hlegal.next.1 hstill
        (fun later hl => hadmits later (List.mem_cons_of_mem _ hl))
        (hserved.after hlegal.sane hserves.1 (h.scans hlegal hsound)) hserves.2

/-- Whether a scan is lost in a run is settled by when the reload begins. -/
theorem Intact.run (h : Intact s r c paths turns x) (hlegal : Legal x turns)
    (hfailing : Failing r x) (hadmits : ∀ turn ∈ turns, Admits r l turn) (hne : r ≠ l)
    (hserved : Served s r x) (hserves : Along (s.Serves r) x turns)
    (hpaths : s.pathsFor c = .ok paths) (hfile : c.hasFile = true)
    (hsound : ∀ path ∈ paths, s.Extracts c.vocabulary path) :
    Along (Spared r l) x turns ∧ Intact s r c paths [] (x.run turns) ∨
      ¬ Along (Spared r l) x turns ∧ Lost s r c paths [] (x.run turns) := by
  induction turns generalizing x with
  | nil => exact .inl ⟨trivial, h⟩
  | cons turn rest ih =>
      have hrest : ∀ later ∈ rest, Admits r l later :=
        fun later hl => hadmits later (List.mem_cons_of_mem _ hl)
      have hnextServed := hserved.after hlegal.sane hserves.1 (h.scans hlegal hsound)
      obtain ⟨⟨hspared, hnext⟩ | ⟨htaken, hnext⟩, hstill⟩ := h.after hlegal hfailing
        (hadmits turn List.mem_cons_self) hne hserved hserves.1 hpaths hfile hsound
      · rcases ih hnext hlegal.next.1 hstill hrest hnextServed hserves.2 with hlast | hlast
        · exact .inl ⟨⟨hspared, hlast.1⟩, hlast.2⟩
        · exact .inr ⟨fun hall => hlast.1 hall.2, hlast.2⟩
      · exact .inr ⟨fun hall => htaken hall.1,
          hnext.run hlegal.next.1 hstill hrest hnextServed hserves.2 hsound⟩

/-- **When a scan is lost.**  One scan and one reload whose settings cannot be loaded, in whatever
order things happen.  When both are over, the index holds what the scan should make of its files,
unless the reload has begun while the scan was under way: then the index is as it was before, though
no other scan has begun. -/
theorem scan_lost_iff_overtaken {limit : Int} (hcalls : Calls turns)
    (hscan : Asked turns r .rescan) (hload : Asked turns l .reload)
    (honly : ∀ turn ∈ turns, ∀ id, turn.started? = some id → id = r ∨ id = l)
    (hfails : ∀ turn ∈ turns, ∀ id settings, turn.move ≠ .settings id (.ok settings))
    (hfile : c.hasFile = true) (hserves : Along (s.Serves r) (ofCatalog c limit) turns)
    (hpaths : s.pathsFor c = .ok paths) (hextracts : ∀ path ∈ paths, s.Extracts c.vocabulary path)
    (hover : ((ofCatalog c limit).run turns).jobs = []) :
    (Along (Spared r l) (ofCatalog c limit) turns →
      ((ofCatalog c limit).run turns).catalog.index = Index.ofEntries (s.entriesFor c paths)) ∧
    (¬ Along (Spared r l) (ofCatalog c limit) turns →
      ((ofCatalog c limit).run turns).catalog.index = c.index) := by
  have hne : r ≠ l := by
    intro heq
    cases hcalls.asked_unique hscan (heq ▸ hload)
  have hadmits : ∀ turn ∈ turns, Admits r l turn := by
    refine fun turn ht => ⟨fun id requests hm => ?_, hfails turn ht⟩
    obtain ⟨request, rfl⟩ := hcalls.single turn ht id requests hm
    have hasked : Asked turns id request := ⟨turn, ht, hm⟩
    rcases honly turn ht id (by rw [Turn.started?, hm]) with rfl | rfl
    · rw [hcalls.asked_unique hasked hscan]
      exact .inl ⟨rfl, rfl⟩
    · rw [hcalls.asked_unique hasked hload]
      exact .inr ⟨rfl, rfl⟩
  have hahead : r ∈ turns.filterMap Turn.started? := by
    obtain ⟨turn, ht, hm⟩ := hscan
    exact List.mem_filterMap.2 ⟨turn, ht, by rw [Turn.started?, hm]⟩
  have hfailing : Failing r (ofCatalog c limit) := ⟨hfile, by simp [ofCatalog, tasks]⟩
  have hserved : Served s r (ofCatalog c limit) := ⟨by simp [ofCatalog], by simp [ofCatalog]⟩
  have hbegin : Intact s r c paths turns (ofCatalog c limit) := .ahead c.generation hahead rfl
  have hnone : ((ofCatalog c limit).run turns).tasks = [] := by rw [tasks, hover]; rfl
  -- The scan is intact before it begins, and the run keeps it so or loses it.
  rcases hbegin.run (hcalls.legal c limit) hfailing hadmits hne hserved hserves hpaths
    hfile hextracts with ⟨hspared, hend⟩ | ⟨htaken, hend⟩
  · refine ⟨fun _ => ?_, fun htaken => absurd hspared htaken⟩
    cases hend with
    | ahead generation begins catalog => cases begins
    | underWay generation next task reaches catalog => simp [hnone] at task
    | merged begun tells index => exact index
  · refine ⟨fun hspared => absurd hspared htaken, fun _ => ?_⟩
    cases hend with
    | underWay scan next task reaches vocabulary stale index => exact index
    | dropped begun gone index => exact index

/-! ## A scan and a reload that fails -/

open Catalog (opened filledProject)

/-- What the small project has for a scan. -/
def filledSupply : Supply := .ofDisk opened.workspace filledProject

/-- What comes in for the scan of the small project, from its list to its end. -/
def restOfScan : List Turn :=
  [.text 0 (filledSupply.texts "/p/a.py"), .gather 1, .told 1].map turnOf

/-- The reload begins before the scan, and fails while that is under way. -/
def sparedScan : List Turn :=
  [.start 2 [.reload], .start 1 [.rescan], .list 1 filledSupply.listed,
    .settings 2 (.error .notText)].map turnOf ++ restOfScan

/-- The reload begins and fails while the scan is under way. -/
def overtakenScan : List Turn :=
  [.start 1 [.rescan], .list 1 filledSupply.listed, .start 2 [.reload],
    .settings 2 (.error .notText)].map turnOf ++ restOfScan

theorem list_filledProject : filledSupply.listed = .ok ["/p/a.py"] :=
  Catalog.eq_ok_of_toOption (by
    unfold filledSupply
    rw [Catalog.opened_eq]
    decide +kernel)

/-- How both runs go. -/
theorem scans_run :
    Calls sparedScan ∧ Calls overtakenScan ∧ opened.hasFile = true ∧ opened.scope ≠ .current ∧
      (∀ path ∈ [("/p/a.py" : Text)], filledSupply.Extracts opened.vocabulary path) ∧
      (∀ turn ∈ sparedScan, ∀ id ∈ turn.started?, id = 1 ∨ id = 2) ∧
      (∀ read ∈ ((ofCatalog opened 8).run (sparedScan.take 4)).reads, read.path = "/p/a.py") ∧
      ((ofCatalog opened 8).run sparedScan).jobs = [] ∧
      ((ofCatalog opened 8).run overtakenScan).jobs = [] ∧
      merges (ofCatalog opened 8) overtakenScan = [] ∧
      ((ofCatalog opened 8).run overtakenScan).catalog.index.entries = [] ∧
      (Index.ofEntries (filledSupply.entriesFor opened ["/p/a.py"])).paths =
        [("/p/a.py" : Text)] := by
  unfold sparedScan overtakenScan restOfScan filledSupply
  rw [Catalog.opened_eq]
  decide +kernel

theorem pathsFor_opened : filledSupply.pathsFor opened = .ok ["/p/a.py"] := by
  rw [Supply.pathsFor, if_neg scans_run.2.2.2.1, list_filledProject]

/-- The supply serves the run in which the reload begins first. -/
theorem serves_sparedScan {x : Indexer}
    (h : ∀ read ∈ (x.run (sparedScan.take 4)).reads, read.path = "/p/a.py") :
    Along (filledSupply.Serves 1) x sparedScan := by
  refine ⟨trivial, trivial, fun _ => rfl, trivial, fun read hm _ _ => ?_, trivial, trivial, trivial⟩
  rw [h read hm]

/-- No settings come in that could be loaded. -/
theorem fails_sparedScan (turn : Turn) (ht : turn ∈ sparedScan) (id : JobId) (settings : Settings) :
    turn.move ≠ .settings id (.ok settings) := by
  intro hm
  simp only [sparedScan, restOfScan, List.map_cons, List.map_nil, List.cons_append, List.nil_append,
    List.mem_cons, List.not_mem_nil, or_false] at ht
  rcases ht with rfl | rfl | rfl | rfl | rfl | rfl | rfl <;> cases hm

/-- A scan that begins after the reload is merged, though the reload fails meanwhile. -/
theorem scan_lost_iff_overtaken_sparedScan :
    ((ofCatalog opened 8).run sparedScan).catalog.index =
        Index.ofEntries (filledSupply.entriesFor opened ["/p/a.py"]) ∧
      (Index.ofEntries (filledSupply.entriesFor opened ["/p/a.py"])).paths =
        [("/p/a.py" : Text)] := by
  obtain ⟨hcalls, -, hfile, -, hextracts, honly, hreads, hover, -, -, -, hpaths⟩ := scans_run
  have hscan : Asked sparedScan 1 .rescan := ⟨_, List.mem_cons_of_mem _ List.mem_cons_self, rfl⟩
  have hload : Asked sparedScan 2 .reload := ⟨_, List.mem_cons_self, rfl⟩
  have hspared : Along (Spared 1 2) (ofCatalog opened 8) sparedScan :=
    ⟨fun _ => rfl, nofun, nofun, nofun, nofun, nofun, nofun, trivial⟩
  have hkept := (scan_lost_iff_overtaken hcalls hscan hload honly fails_sparedScan hfile
    (serves_sparedScan hreads) pathsFor_opened hextracts hover).1 hspared
  exact ⟨hkept, hpaths⟩

/-- A reload that fails takes the scan along that is under way when it begins: the scan ends without
being merged, though no other one has begun, and the note of the project does not get into the
index. -/
theorem scan_is_lost :
    Calls overtakenScan ∧ overtakenScan.filterMap Turn.started? = [1, 2] ∧
      filledSupply.pathsFor opened = .ok ["/p/a.py"] ∧
      ((ofCatalog opened 8).run overtakenScan).jobs = [] ∧
      merges (ofCatalog opened 8) overtakenScan = [] ∧
      ((ofCatalog opened 8).run overtakenScan).catalog.index ≠
        Index.ofEntries (filledSupply.entriesFor opened ["/p/a.py"]) := by
  obtain ⟨-, hcalls, -, -, -, -, -, -, hover, hmerges, hempty, hpaths⟩ := scans_run
  refine ⟨hcalls, rfl, pathsFor_opened, hover, hmerges, fun hsame => ?_⟩
  rw [← hsame, Index.paths, hempty] at hpaths
  cases hpaths

end Indexer

end Marginalia
