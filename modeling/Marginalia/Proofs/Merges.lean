import Mathlib.Data.List.Nodup
import Mathlib.Data.List.Perm.Basic
import Marginalia.Proofs.Supplies

/-!
# What a merge makes

When a scan ends, its entries are merged with those that the index holds for touched paths.  What a
merge is can be said without the loops that make it (`Catalog.IsMerge`): which entries are in it,
path by path, and in which order the paths come.  For paths that differ there is one list that is a
merge, and it is the one that the catalog makes (`Catalog.isMerge_iff`); it is what the index holds
after the scan (`Catalog.isMerge_finishScan`).

Each loop gives at most one entry for each of its paths, so its entries have some of these paths, in
the same order.  That the paths of a merge are a sublist of the scanned paths and the others
therefore says all about order, and it leaves no path to be there twice.

That paths differ is kept in every run, if no list of files names one twice
(`Indexer.Distinct.run`), so whatever scan ends in it, the index then holds the merge
(`Indexer.Distinct.isMerge_after`).
-/

namespace Marginalia

namespace Catalog

variable {index : Index} {touched : List Text} {keepEmpty : Bool} {scanned merged : List Entry}

/-- The touched paths that were not scanned. -/
def unscanned (touched : List Text) (scanned : List Entry) : List Text :=
  touched.filter fun path => !(scanned.map (·.path)).contains path

/-- Whether entries are a merge of those of a scan with those of the index at touched paths. -/
structure IsMerge (index : Index) (touched : List Text) (keepEmpty : Bool)
    (scanned merged : List Entry) : Prop where
  /-- No path is there twice. -/
  distinct : (merged.map (·.path)).Nodup
  /-- Of an untouched path there is what was scanned. -/
  ofScan (entry : Entry) (h : entry.path ∉ touched) : entry ∈ merged ↔ entry ∈ scanned
  /-- Of a touched path there is what the index holds, if it has notes or empty entries are kept. -/
  ofIndex (entry : Entry) (h : entry.path ∈ touched) : entry ∈ merged ↔
    index.get? entry.path = some entry ∧ (entry.notes ≠ [] ∨ keepEmpty = true)
  /-- Scanned paths come first, in their order, and then touched paths that were not scanned, in
  theirs; there are no others. -/
  order : (merged.map (·.path)).Sublist (scanned.map (·.path) ++ unscanned touched scanned)

/-- Entries that are made of items, at most one of each, have the paths of some of the items, in
the same order. -/
theorem paths_filterMap_sublist {α : Type} {make : α → Option Entry} {pathOf : α → Text}
    (h : ∀ a entry, make a = some entry → entry.path = pathOf a) (items : List α) :
    ((items.filterMap make).map (·.path)).Sublist (items.map pathOf) := by
  induction items with
  | nil => exact List.Sublist.slnil
  | cons a items ih =>
      cases hmake : make a with
      | none =>
          rw [List.filterMap_cons_none hmake]
          exact ih.cons _
      | some entry =>
          rw [List.filterMap_cons_some hmake, List.map_cons, h a entry hmake]
          exact ih.cons_cons _

/-- The first loop brings scanned paths, and the second touched ones that were not scanned. -/
theorem paths_mergeTouched_sublist :
    ((mergeTouched index touched keepEmpty scanned).map (·.path)).Sublist
      (scanned.map (·.path) ++ unscanned touched scanned) := by
  have hback :
      (((unscanned touched scanned).filterMap (kept? index keepEmpty)).map (·.path)).Sublist
        ((unscanned touched scanned).map id) :=
    paths_filterMap_sublist (fun _ _ hk => (mem_of_kept?_eq_some hk).2) _
  rw [List.map_id] at hback
  rw [mergeTouched, List.map_append]
  refine (paths_filterMap_sublist (fun first entry hfirst => ?_) _).append hback
  split at hfirst
  · exact (mem_of_kept?_eq_some hfirst).2
  · cases hfirst
    rfl

/-- The paths of both loops are pairwise distinct. -/
theorem nodup_scanned_append (hscanned : (scanned.map (·.path)).Nodup) (htouched : touched.Nodup) :
    (scanned.map (·.path) ++ unscanned touched scanned).Nodup := by
  refine List.nodup_append.2 ⟨hscanned, htouched.filter _, ?_⟩
  rintro path hpath _ hother rfl
  exact absurd hpath (by simpa using (List.mem_filter.1 hother).2)

/-- What the catalog makes is a merge. -/
theorem isMerge_mergeTouched (hscanned : (scanned.map (·.path)).Nodup) (htouched : touched.Nodup) :
    IsMerge index touched keepEmpty scanned (mergeTouched index touched keepEmpty scanned) where
  distinct := paths_mergeTouched_sublist.nodup (nodup_scanned_append hscanned htouched)
  ofScan entry h := by simp [mem_mergeTouched_iff, h]
  ofIndex entry h := by simp [mem_mergeTouched_iff, h, kept?_eq_some_iff]
  order := paths_mergeTouched_sublist

/-- Two merges have the same entries. -/
theorem IsMerge.mem_iff {other : List Entry} (h : IsMerge index touched keepEmpty scanned merged)
    (hother : IsMerge index touched keepEmpty scanned other) (entry : Entry) :
    entry ∈ merged ↔ entry ∈ other := by
  by_cases ht : entry.path ∈ touched
  · rw [h.ofIndex entry ht, hother.ofIndex entry ht]
  · rw [h.ofScan entry ht, hother.ofScan entry ht]

/-- Entries with paths that differ come in the order of their paths. -/
theorem eq_of_paths_eq {entries others : List Entry} (hmem : ∀ entry ∈ entries, entry ∈ others)
    (hnodup : (others.map (·.path)).Nodup)
    (hpaths : entries.map (·.path) = others.map (·.path)) : entries = others := by
  have hfound (entry : Entry) (h : entry ∈ others) :
      (Index.mk others).get? entry.path = some entry := Index.get?_of_mem hnodup h
  apply List.map_injective_iff.2 fun _ _ => Option.some.inj
  calc entries.map some
      = entries.map fun entry => (Index.mk others).get? entry.path :=
        List.map_congr_left fun entry h => (hfound entry (hmem entry h)).symm
    _ = (entries.map (·.path)).map (Index.mk others).get? := by simp
    _ = (others.map (·.path)).map (Index.mk others).get? := by rw [hpaths]
    _ = others.map fun entry => (Index.mk others).get? entry.path := List.map_map
    _ = others.map some := List.map_congr_left hfound

/-- There is at most one merge. -/
theorem IsMerge.unique {other : List Entry} (hscanned : (scanned.map (·.path)).Nodup)
    (htouched : touched.Nodup) (h : IsMerge index touched keepEmpty scanned merged)
    (hother : IsMerge index touched keepEmpty scanned other) : merged = other := by
  have hperm : merged.Perm other :=
    (List.perm_ext_iff_of_nodup h.distinct.of_map hother.distinct.of_map).2 (h.mem_iff hother)
  have hpaths := ((nodup_scanned_append hscanned htouched).perm_iff_eq_of_sublist h.order
    hother.order).1 (hperm.map _)
  exact eq_of_paths_eq (fun entry => (h.mem_iff hother entry).1) hother.distinct hpaths

/-- **The merge.**  What the catalog makes is a merge, and no other list is one. -/
theorem isMerge_iff (hscanned : (scanned.map (·.path)).Nodup) (htouched : touched.Nodup) :
    IsMerge index touched keepEmpty scanned merged ↔
      merged = mergeTouched index touched keepEmpty scanned := by
  have hmade : IsMerge index touched keepEmpty scanned _ := isMerge_mergeTouched hscanned htouched
  constructor
  · exact fun h => h.unique hscanned htouched hmade
  · rintro rfl
    exact hmade

/-- There are paths of every kind: scanned or not, touched or not, and held with notes, without
notes or not at all. -/
theorem isMerge_mixed :
    let note (path : Text) : Note := { path, tag := "TODO", line := 1, column := 0 }
    let index : Index := { entries := [{ path := "c", notes := [note "c"] }, { path := "b" },
      { path := "e", notes := [note "e"] }, { path := "a", notes := [note "a"] }, { path := "g" }] }
    let touched : List Text := ["e", "f", "g", "c", "b", "d"]
    let scanned : List Entry := [{ path := "a" }, { path := "b", notes := [note "b"] },
      { path := "c" }, { path := "d" }]
    (scanned.map (·.path)).Nodup ∧ touched.Nodup ∧
      IsMerge index touched false scanned [{ path := "a" }, { path := "c", notes := [note "c"] },
        { path := "e", notes := [note "e"] }] := by
  intro note index touched scanned
  have hscanned : (scanned.map (·.path)).Nodup := by decide
  have htouched : touched.Nodup := by decide
  exact ⟨hscanned, htouched, (isMerge_iff hscanned htouched).2 (by decide)⟩

/-! ## At the end of a scan -/

/-- Files that were each scanned once have one entry each. -/
theorem nodup_scannedEntries {found : List (Text × Option (List Note))}
    (h : (found.map (·.1)).Nodup) (keepEmpty : Bool) :
    ((scannedEntries keepEmpty found).map (·.path)).Nodup := by
  refine (paths_filterMap_sublist (fun file entry hfile => ?_) found).nodup h
  dsimp only at hfile
  split at hfile
  · cases hfile
  · split at hfile
    · cases hfile
    · cases hfile
      rfl

/-- A scan that no later one has superseded leaves the merge in the index. -/
theorem isMerge_finishScan {c : Catalog} {scan : Scan} {found : List (Text × Option (List Note))}
    (hgeneration : scan.generation = c.generation) (hfound : (found.map (·.1)).Nodup)
    (htouched : c.touched.Nodup) :
    IsMerge c.index c.touched scan.keepEmpty (scannedEntries scan.keepEmpty found)
      (c.finishScan scan found).1.index.entries := by
  have hscanned := nodup_scannedEntries hfound scan.keepEmpty
  have hmade : IsMerge c.index c.touched scan.keepEmpty _ _ :=
    isMerge_mergeTouched hscanned htouched
  rw [finishScan, if_neg (not_not.2 hgeneration)]
  dsimp only
  rwa [Index.entries_ofEntries hmade.distinct]

/-! ## In a run -/

variable {c : Catalog} {step : Catalog × Next}

/-- No path is kept twice among the touched ones. -/
theorem nodup_touch (h : c.touched.Nodup) (path : Text) : (c.touch path).touched.Nodup := by
  rw [touch]
  split
  · exact h
  · rename_i hnot
    refine List.nodup_append.2 ⟨h, List.nodup_singleton path, fun other hother _ hpath => ?_⟩
    obtain rfl := List.mem_singleton.1 hpath
    rintro rfl
    exact hnot (List.contains_iff_mem.2 hother)

/-- What a step leaves when no path is touched twice and no scan reads a file twice. -/
structure Distinct (step : Catalog × Next) : Prop where
  touched : step.1.touched.Nodup
  paths : step.2.paths.Nodup

/-- The end of a scan touches no path. -/
theorem distinct_finishScan (h : c.touched.Nodup) (scan : Scan)
    (found : List (Text × Option (List Note))) : Distinct (c.finishScan scan found) := by
  unfold finishScan
  split
  · exact ⟨h, List.nodup_nil⟩
  · exact ⟨h, List.nodup_nil⟩

/-- A scan that begins to read has its files once. -/
theorem distinct_readFiles (h : c.touched.Nodup) (scan : Scan) {paths : List Text}
    (hpaths : paths.Nodup) : Distinct (c.readFiles scan paths) := by
  unfold readFiles
  split
  · exact distinct_finishScan h scan []
  · exact ⟨h, hpaths⟩

/-- A scan begins with no path touched, and reads at most the active document without a list. -/
theorem distinct_beginScan (c : Catalog) : Distinct c.beginScan := by
  by_cases hscope : c.scope = .current
  · rw [beginScan_of_current hscope]
    refine distinct_readFiles List.nodup_nil _ ?_
    cases c.active with
    | none => exact List.nodup_nil
    | some path => exact List.nodup_singleton path
  · rw [beginScan_of_ne_current hscope]
    exact ⟨List.nodup_nil, List.nodup_nil⟩

/-- A document that has been read is touched once, even if it has been touched before. -/
theorem distinct_afterRead (h : c.touched.Nodup) (update : Update) (found : Found) :
    Distinct (c.afterRead update found) := by
  rcases found with fault | _ | notes
  · exact ⟨h, List.nodup_nil⟩
  · exact ⟨h, List.nodup_nil⟩
  · simp only [afterRead, finishUpdate]
    split
    · exact ⟨h, List.nodup_nil⟩
    split
    · exact ⟨h, List.nodup_nil⟩
    · exact ⟨nodup_touch h update.path, List.nodup_nil⟩

/-- A call that begins touches no path twice, and reads no file twice. -/
theorem Begins.distinct (h : Begins c step) (ht : c.touched.Nodup) : Distinct step := by
  cases h with
  | scan scope active => exact distinct_beginScan (c.turnedTo scope active)
  | load =>
      rw [beginLoad_eq]
      split
      · exact ⟨ht, List.nodup_nil⟩
      · exact ⟨ht, List.nodup_nil⟩
  | activate active hscope => exact ⟨ht, List.nodup_nil⟩
  | drop path next hnext =>
      refine ⟨nodup_touch ht path, ?_⟩
      rcases hnext with rfl | rfl <;> exact List.nodup_nil
  | update path hfile hscope hactive => exact ⟨ht, List.nodup_nil⟩
  | done => exact ⟨ht, List.nodup_nil⟩
  | fail fault => exact ⟨ht, List.nodup_nil⟩

end Catalog

namespace Indexer

open Catalog (IsMerge scannedEntries)

variable {x : Indexer} {c : Catalog} {move : Move} {turn : Turn} {rest turns : List Turn}
  {task : Task} {step : Catalog × Catalog.Next}

/-- Nor does one that goes on, if no list of files names one twice. -/
theorem Proceeds.distinct (h : Proceeds move c task step) (ht : c.touched.Nodup)
    (hlisted : move.listed.Nodup) : Catalog.Distinct step := by
  cases h with
  | loadFailed fault => exact ⟨ht, List.nodup_nil⟩
  | loaded settings =>
      rcases c.finishLoad_cases settings with ⟨vocabulary, heq⟩ | ⟨fault, heq⟩
      · rw [heq]
        exact ⟨ht, List.nodup_nil⟩
      · rw [heq]
        exact ⟨ht, List.nodup_nil⟩
  | listFailed fault => exact ⟨ht, List.nodup_nil⟩
  | listed paths => exact Catalog.distinct_readFiles ht _ hlisted
  | gatherFailed fault => exact ⟨ht, List.nodup_nil⟩
  | gathered found hfound => exact Catalog.distinct_finishScan ht _ found
  | updated ticket text => exact Catalog.distinct_afterRead ht _ _
  | @told _ _ _ topic =>
      cases topic with
      | settingsLoaded => exact c.distinct_beginScan
      | notesUpdated => exact ⟨ht, List.nodup_nil⟩

/-- No path is touched twice, and no scan that is under way reads a file twice. -/
structure Distinct (x : Indexer) : Prop where
  touched : x.catalog.touched.Nodup
  paths : ∀ task ∈ x.tasks, task.next.paths.Nodup

/-- A step of one call leaves it so, if what it leaves of the call is. -/
theorem Distinct.of_steps (h : x.Distinct) {id : JobId} {request : Request}
    (hsteps : Steps x turn id request step) (hstep : Catalog.Distinct step) :
    (x.after turn).Distinct where
  touched := hsteps.catalog ▸ hstep.touched
  paths task ht := by
    rcases hsteps.of_mem ht with ⟨hold, -⟩ | rfl
    · exact h.paths task hold
    · exact hstep.paths

/-- A turn leaves it so, whatever it comes to. -/
theorem Distinct.after (h : x.Distinct) (houtcome : Outcome x turn)
    (hlisted : turn.move.listed.Nodup) : (x.after turn).Distinct := by
  cases houtcome with
  | quiet hcatalog htasks hsaid => exact ⟨hcatalog ▸ h.touched, htasks ▸ h.paths⟩
  | begun id request hmove hfresh hsteps =>
      exact h.of_steps hsteps ((Catalog.begins x.catalog turn.disk request).distinct h.touched)
  | resumed task hm step hproceeds hsteps =>
      exact h.of_steps hsteps (hproceeds.distinct h.touched hlisted)

/-- **Nothing is there twice.**  However calls are interleaved, no path is touched twice and no scan
reads a file twice, if no list of files names one twice. -/
theorem Distinct.run (h : x.Distinct) (hlegal : Legal x turns)
    (hlisted : ∀ turn ∈ turns, turn.move.listed.Nodup) : (x.run turns).Distinct := by
  induction turns generalizing x with
  | nil => exact h
  | cons turn rest ih =>
      obtain ⟨hnext, houtcome⟩ := hlegal.next
      exact ih (h.after houtcome (hlisted turn List.mem_cons_self)) hnext fun later hl =>
        hlisted later (List.mem_cons_of_mem _ hl)

/-- In the beginning no scan is under way. -/
theorem distinct_ofCatalog (ht : c.touched.Nodup) (limit : Int) : (ofCatalog c limit).Distinct :=
  ⟨ht, fun task hm => by simp [ofCatalog, tasks] at hm⟩

/-- **Scans make merges.**  When a scan ends that no later one has superseded, the index holds the
merge of what was found in its files with what it held for touched paths, and there is no other
one. -/
theorem Distinct.isMerge_after (h : x.Distinct) (hm : task ∈ x.tasks) {scan : Catalog.Scan}
    (hscan : task.next.scan? = some scan) (hcurrent : scan.generation = x.catalog.generation)
    (hproceeds : Proceeds turn.move x.catalog task step)
    (hsteps : Steps x turn task.id task.request step) (htold : step.2 = .tell .notesUpdated) :
    ∃ found : List (Text × Option (List Note)), found.map (·.1) = task.next.paths ∧
      ∀ entries, IsMerge x.catalog.index x.catalog.touched scan.keepEmpty
        (scannedEntries scan.keepEmpty found) entries ↔
          entries = (x.after turn).catalog.index.entries := by
  -- a scan ends at once with an empty list, and otherwise when its reads are over
  obtain ⟨found, hpaths, rfl⟩ : ∃ found : List (Text × Option (List Note)),
      found.map (·.1) = task.next.paths ∧ step = x.catalog.finishScan scan found := by
    generalize turn.move = move at hproceeds
    generalize x.catalog = c at hproceeds
    cases hproceeds with
    | loadFailed fault => cases hscan
    | loaded settings => cases hscan
    | listFailed fault => cases htold
    | listed paths =>
        cases hscan
        unfold Catalog.readFiles at htold ⊢
        split at htold
        · rename_i hempty
          exact ⟨[], rfl, if_pos hempty⟩
        · cases htold
    | gatherFailed fault => cases htold
    | gathered found hfound =>
        cases hscan
        exact ⟨found, rfl, rfl⟩
    | updated ticket text => cases hscan
    | told => cases hscan
  have hfound : (found.map (·.1)).Nodup := hpaths ▸ h.paths task hm
  have hmade := Catalog.isMerge_finishScan hcurrent hfound h.touched
  have hscanned := Catalog.nodup_scannedEntries hfound scan.keepEmpty
  rw [hsteps.catalog]
  refine ⟨found, hpaths, fun entries => ⟨fun he => he.unique hscanned h.touched hmade, ?_⟩⟩
  rintro rfl
  exact hmade

end Indexer

end Marginalia
