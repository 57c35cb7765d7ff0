import Marginalia.CommandLine.Run
import Marginalia.Dispatch
import Marginalia.Proofs.Changes

/-!
# Every change is handed over once

A batch of changes is a set that comes as a list, and the same path may stand in it under several
kinds of change.  `Dispatch.covers_changes` says what a handler gets to hear of a batch, wherever it
comes in a stream of batches, and what happens when the handler fails.

The events of a batch are told by three sorted sets, so neither order nor repeats matter
(`Changes.events_congr`).  That the calls go on to the end or stop at a failure, and leave a state
behind either way, is an induction over the events (`Dispatch.dispatched_ofEvents`); that a batch
finds the state that those before it left is one over the batches (`Dispatch.ofBatches_append`).

A project that is watched takes its batches in this way, with the catalog as the state
(`CommandLine.takeBatch_eq`).
-/

namespace Marginalia

namespace Changes

variable {changes others : List Change} {kind : ChangeKind} {path old new : Text}

/-- The changes of one kind depend on the set of changes alone. -/
theorem ofKind_congr (kind : ChangeKind) (h : ∀ change, change ∈ changes ↔ change ∈ others) :
    ofKind kind changes = ofKind kind others := by
  refine Text.sortedSet_congr fun path => ?_
  simp only [List.mem_map, List.mem_filter, h]

/-- A batch is told by the set of its changes. -/
theorem events_congr (h : ∀ change, change ∈ changes ↔ change ∈ others) :
    events changes = events others := by
  have hkind : ∀ kind, ofKind kind changes = ofKind kind others := fun kind => ofKind_congr kind h
  simp only [events, modified, added, deleted, hkind]

/-- A path is the only one with a kind of change, however often the batch says so. -/
def IsOnly (kind : ChangeKind) (path : Text) (changes : List Change) : Prop :=
  ∀ other, { kind, path := other } ∈ changes ↔ other = path

/-- The paths with a kind of change, as they would be written down: in strict order. -/
theorem ofKind_eq {paths : List Text} (hs : paths.Pairwise fun a b => Text.le b a = false)
    (hm : ∀ path, { kind, path } ∈ changes ↔ path ∈ paths) : ofKind kind changes = paths :=
  eq_of_strict Text.le_total (Text.strict_sortedSet _) hs fun path => mem_ofKind.trans (hm path)

/-- One path is all of a kind just if it is there and no other one is. -/
theorem ofKind_eq_singleton : ofKind kind changes = [path] ↔ IsOnly kind path changes := by
  constructor
  · intro h other
    rw [← mem_ofKind, h, List.mem_singleton]
  · intro h
    exact ofKind_eq (List.pairwise_singleton _ _) fun other =>
      (h other).trans List.mem_singleton.symm

/-- A rename is one path deleted and one path added. -/
theorem isRename_iff :
    IsRename changes ↔ ∃ old new, IsOnly .deleted old changes ∧ IsOnly .added new changes := by
  simp only [IsRename, deleted, added, ofKind_eq_singleton]

/-- Which paths are modified. -/
theorem mem_modified :
    path ∈ modified changes ↔ { kind := .modified, path } ∈ changes ∧
      { kind := .added, path } ∉ changes := by
  simp [modified, added, mem_ofKind]

/-- No path is modified twice. -/
theorem nodup_modified : (modified changes).Nodup :=
  (Text.nodup_sortedSet _).filter _

/-- A path that was added is not modified as well, so it is looked at once. -/
theorem nodup_added_modified : (added changes ++ modified changes).Nodup := by
  refine List.nodup_append.2 ⟨Text.nodup_sortedSet _, nodup_modified, ?_⟩
  intro one hone two htwo heq
  obtain rfl := heq
  exact (mem_modified.1 htwo).2 (mem_ofKind.1 hone)

/-- A path is looked at if it was added or modified. -/
theorem mem_added_modified :
    path ∈ added changes ++ modified changes ↔
      { kind := .added, path } ∈ changes ∨ { kind := .modified, path } ∈ changes := by
  rw [List.mem_append, mem_modified, added, mem_ofKind]
  by_cases ha : { kind := .added, path } ∈ changes <;> simp [ha]

/-- A renamed file comes first, and then every path that was modified, except for its new name. -/
theorem events_of_isOnly (ho : IsOnly .deleted old changes) (hn : IsOnly .added new changes) :
    ∃ paths : List Text, paths.Nodup ∧
      (∀ path, path ∈ paths ↔ { kind := .modified, path } ∈ changes ∧ path ≠ new) ∧
      events changes = .renamed old new :: paths.map .modified := by
  have hdeleted : deleted changes = [old] := ofKind_eq_singleton.2 ho
  have hadded : added changes = [new] := ofKind_eq_singleton.2 hn
  refine ⟨modified changes, nodup_modified, fun path => ?_, by simp [events, hdeleted, hadded]⟩
  rw [mem_modified, hn path]

/-- Where no file was renamed, what is gone comes first, and then what is there; each path once. -/
theorem events_of_not_isOnly
    (h : ¬ ∃ old new, IsOnly .deleted old changes ∧ IsOnly .added new changes) :
    ∃ gone there : List Text, gone.Nodup ∧ there.Nodup ∧
      (∀ path, path ∈ gone ↔ { kind := .deleted, path } ∈ changes) ∧
      (∀ path, path ∈ there ↔
        { kind := .added, path } ∈ changes ∨ { kind := .modified, path } ∈ changes) ∧
      events changes = gone.map .deleted ++ there.map .modified := by
  refine ⟨deleted changes, added changes ++ modified changes, Text.nodup_sortedSet _,
    nodup_added_modified, fun _ => mem_ofKind, fun _ => mem_added_modified, ?_⟩
  rw [events_of_not_isRename (mt isRename_iff.1 h), List.map_append]

end Changes

namespace Dispatch

variable {World State : Type} {handle : Handler World State} {world : World} {state : State}
  {event : FileEvent} {front events calls : List FileEvent}

/-- The state that calls leave behind. -/
def stateAfter (handle : Handler World State) (world : World) (state : State)
    (calls : List FileEvent) : State :=
  calls.foldl (fun state event => (handle world state event).1) state

/-- The call for an event fails once those before it were made. -/
def FailsAfter (handle : Handler World State) (world : World) (state : State)
    (front : List FileEvent) (event : FileEvent) : Prop :=
  (handle world (stateAfter handle world state front) event).2 = true

/-- The calls for some events are made one after the other, and none fails. -/
def Succeed (handle : Handler World State) (world : World) (state : State)
    (events : List FileEvent) : Prop :=
  ∀ front event later, events = front ++ event :: later →
    ¬ FailsAfter handle world state front event

/-- How the events of a batch are dispatched. -/
inductive Dispatched (handle : Handler World State) (world : World) (state : State)
    (events : List FileEvent) : Dispatch → Prop
  /-- All calls are made if none fails, and nothing is warned of. -/
  | completed (h : Succeed handle world state events) :
      Dispatched handle world state events { calls := events, warnings := [] }
  /-- The first call that fails is the last, and it is warned of once. -/
  | abandoned {front later : List FileEvent} {event : FileEvent}
      (h : events = front ++ event :: later) (hs : Succeed handle world state front)
      (hf : FailsAfter handle world state front event) :
      Dispatched handle world state events
        { calls := front ++ [event], warnings := [.abandonedBatch] }

theorem succeed_nil : Succeed handle world state [] :=
  fun _ _ _ h => absurd h.symm (List.append_ne_nil_of_right_ne_nil _ (List.cons_ne_nil _ _))

/-- Calls succeed if the first of them does and the others do in the state that it leaves. -/
theorem Succeed.cons (h : (handle world state event).2 = false)
    (hs : Succeed handle world (handle world state event).1 events) :
    Succeed handle world state (event :: events) := by
  intro front failed later hevents hf
  cases front with
  | nil =>
      obtain ⟨rfl, -⟩ := List.cons_eq_cons.1 hevents
      exact Bool.false_ne_true (h.symm.trans hf)
  | cons first front =>
      obtain ⟨rfl, hrest⟩ := List.cons_eq_cons.1 hevents
      exact hs front failed later hrest hf

/-- A call that succeeds is put in front of those that are made in the state that it leaves. -/
theorem Dispatched.cons {dispatch : Dispatch} (h : (handle world state event).2 = false)
    (hd : Dispatched handle world (handle world state event).1 events dispatch) :
    Dispatched handle world state (event :: events)
      { dispatch with calls := event :: dispatch.calls } := by
  cases hd with
  | completed hs => exact .completed (hs.cons h)
  | @abandoned front later failed hevents hs hf =>
      exact .abandoned (congrArg (event :: ·) hevents) (hs.cons h) hf

/-- Events are dispatched, and the state afterwards is that of the calls that were made. -/
theorem dispatched_ofEvents (handle : Handler World State) (world : World) (state : State)
    (events : List FileEvent) :
    ∃ dispatch, Dispatched handle world state events dispatch ∧
      ofEvents handle world state events =
        (stateAfter handle world state dispatch.calls, dispatch) := by
  induction events generalizing state with
  | nil => exact ⟨_, .completed succeed_nil, rfl⟩
  | cons event rest ih =>
      cases hcall : handle world state event with
      | mk next failed =>
          cases failed with
          | true =>
              have hf : FailsAfter handle world state [] event := congrArg Prod.snd hcall
              refine ⟨_, .abandoned (List.nil_append _).symm succeed_nil hf, ?_⟩
              simp [ofEvents, hcall, stateAfter]
          | false =>
              obtain ⟨dispatch, hd, hrest⟩ := ih (handle world state event).1
              refine ⟨_, hd.cons (congrArg Prod.snd hcall), ?_⟩
              rw [hcall] at hrest
              simp [ofEvents, hcall, hrest, stateAfter]

/-- A batch is dispatched in the state that the batches before it leave. -/
theorem ofBatches_append (handle : Handler World State) (state : State)
    (earlier later : List (World × List Change)) :
    ofBatches handle state (earlier ++ later) =
      let before := ofBatches handle state earlier
      let after := ofBatches handle before.1 later
      (after.1, before.2 ++ after.2) := by
  induction earlier generalizing state with
  | nil => rfl
  | cons batch earlier ih => simp [ofBatches, ih]

/-- **What a handler gets to hear of a batch of changes.**  The events depend on the set of the
changes.  If one path was deleted and one was added, this is a file that was renamed: that comes
first, and then each path that was modified, except for the new name, comes once.  In all other
cases each path that was deleted comes once, and after all of these each that was added or modified
comes once.  Wherever the batch stands in a stream, its events are handed over up to the first call
that fails, which is warned of once; and the batches that follow are dispatched in the state that
the calls leave, failed or not. -/
theorem covers_changes (handle : Handler World State) (start : State) (world : World)
    (earlier later : List (World × List Change)) (changes : List Change) :
    (∀ others : List Change, (∀ change, change ∈ others ↔ change ∈ changes) →
      Changes.events others = Changes.events changes) ∧
    (∀ old new, Changes.IsOnly .deleted old changes → Changes.IsOnly .added new changes →
      ∃ paths : List Text, paths.Nodup ∧
        (∀ path, path ∈ paths ↔ { kind := .modified, path } ∈ changes ∧ path ≠ new) ∧
        Changes.events changes = .renamed old new :: paths.map .modified) ∧
    ((¬ ∃ old new, Changes.IsOnly .deleted old changes ∧ Changes.IsOnly .added new changes) →
      ∃ gone there : List Text, gone.Nodup ∧ there.Nodup ∧
        (∀ path, path ∈ gone ↔ { kind := .deleted, path } ∈ changes) ∧
        (∀ path, path ∈ there ↔
          { kind := .added, path } ∈ changes ∨ { kind := .modified, path } ∈ changes) ∧
        Changes.events changes = gone.map .deleted ++ there.map .modified) ∧
    ∃ dispatch,
      let before := ofBatches handle start earlier
      let after := ofBatches handle (stateAfter handle world before.1 dispatch.calls) later
      Dispatched handle world before.1 (Changes.events changes) dispatch ∧
        ofBatches handle start (earlier ++ (world, changes) :: later) =
          (after.1, before.2 ++ dispatch :: after.2) := by
  refine ⟨fun _ h => Changes.events_congr h, fun _ _ => Changes.events_of_isOnly,
    Changes.events_of_not_isOnly, ?_⟩
  -- The batch is dispatched in the state that the earlier ones leave.
  obtain ⟨dispatch, hd, hevents⟩ :=
    dispatched_ofEvents handle world (ofBatches handle start earlier).1 (Changes.events changes)
  refine ⟨dispatch, hd, ?_⟩
  simp only [ofBatches_append, ofBatches, hevents]

/-- A handler that counts its calls and fails when it is to look at a path that is locked.  In the
first batch a file was renamed, its old name is locked, and much is said twice; in the second a path
is gone and there again. -/
theorem covers_changes_locked :
    let handle : Handler Text Nat := fun locked n event => (n + 1, event == .modified locked)
    let mixed : List Change := [⟨.modified, "b"⟩, ⟨.added, "b"⟩, ⟨.deleted, "a"⟩, ⟨.modified, "c"⟩,
      ⟨.modified, "a"⟩, ⟨.added, "b"⟩]
    let again : List Change := [⟨.added, "a"⟩, ⟨.deleted, "b"⟩, ⟨.deleted, "a"⟩]
    Changes.events mixed.reverse = Changes.events mixed ∧
      (∃ paths : List Text, paths.Nodup ∧
        (∀ path, path ∈ paths ↔ { kind := .modified, path } ∈ mixed ∧ path ≠ "b") ∧
        Changes.events mixed = .renamed "a" "b" :: paths.map .modified) ∧
      (∃ gone there : List Text, gone.Nodup ∧ there.Nodup ∧
        (∀ path, path ∈ gone ↔ { kind := .deleted, path } ∈ again) ∧
        (∀ path, path ∈ there ↔
          { kind := .added, path } ∈ again ∨ { kind := .modified, path } ∈ again) ∧
        Changes.events again = gone.map .deleted ++ there.map .modified) ∧
      ofBatches handle 0 [("a", mixed), ("c", again)] =
        (5, [{ calls := [.renamed "a" "b", .modified "a"], warnings := [.abandonedBatch] },
          { calls := [.deleted "a", .deleted "b", .modified "a"], warnings := [] }]) := by
  intro handle mixed again
  obtain ⟨hset, hrename, -, -⟩ := covers_changes handle 0 "a" [] [("c", again)] mixed
  obtain ⟨-, -, hother, -⟩ := covers_changes handle 0 "c" [("a", mixed)] [] again
  have hdeleted : Changes.IsOnly .deleted "a" mixed := by simp [Changes.IsOnly, mixed]
  have hadded : Changes.IsOnly .added "b" mixed := by simp [Changes.IsOnly, mixed]
  have htwo : ¬ ∃ old new, Changes.IsOnly .deleted old again ∧ Changes.IsOnly .added new again := by
    rintro ⟨old, new, hold, -⟩
    have ha : ("a" : Text) = old := (hold "a").1 (by simp [again])
    have hb : ("b" : Text) = old := (hold "b").1 (by simp [again])
    exact absurd (ha.trans hb.symm) (by decide)
  refine ⟨hset _ fun _ => List.mem_reverse, hrename _ _ hdeleted hadded, hother htwo, ?_⟩
  have hmixed : Changes.events mixed = [.renamed "a" "b", .modified "a", .modified "c"] := by
    have hgone : Changes.deleted mixed = [("a" : Text)] := Changes.ofKind_eq_singleton.2 hdeleted
    have hthere : Changes.added mixed = [("b" : Text)] := Changes.ofKind_eq_singleton.2 hadded
    have hkind : Changes.ofKind .modified mixed = [("a" : Text), "b", "c"] :=
      Changes.ofKind_eq (by decide) fun path => by simp [mixed]; tauto
    have hmodified : Changes.modified mixed = [("a" : Text), "c"] := by
      rw [Changes.modified, hkind, hthere]
      decide
    simp [Changes.events, hgone, hthere, hmodified]
  have hagain : Changes.events again = [.deleted "a", .deleted "b", .modified "a"] := by
    have hgone : Changes.ofKind .deleted again = [("a" : Text), "b"] :=
      Changes.ofKind_eq (by decide) fun path => by simp [again]; tauto
    have hthere : Changes.ofKind .added again = [("a" : Text)] :=
      Changes.ofKind_eq (by decide) fun path => by simp [again]
    have hmodified : Changes.ofKind .modified again = [] :=
      Changes.ofKind_eq List.Pairwise.nil fun path => by simp [again]
    simp [Changes.events, Changes.modified, Changes.deleted, Changes.added, hgone,
      hthere, hmodified]
  simp only [ofBatches, hmixed, hagain]
  decide

end Dispatch

/-- A catalog as a handler of file events. -/
def Catalog.heed : Handler Disk Catalog := fun disk c event =>
  let m := c.meet disk (.file event)
  (m.catalog, m.answer.toBool.not)

namespace CommandLine

/-- What is warned of when a batch ends with an answer. -/
def abandonment : Except Catalog.Fault Bool → List Warning
  | .error _ => [.abandonedBatch]
  | .ok _ => []

/-- Requests about files are met as their events are dispatched, and what comes of all of them is
what comes of the calls that are made. -/
theorem meetAll_files (disk : Disk) (c : Catalog) (events : List FileEvent) :
    let outcome := Dispatch.ofEvents Catalog.heed disk c events
    let m := Catalog.meetAll disk c (events.map .file)
    Catalog.meetAll disk c (outcome.2.calls.map .file) = m ∧ m.catalog = outcome.1 ∧
      abandonment m.answer = outcome.2.warnings := by
  induction events generalizing c with
  | nil => exact ⟨rfl, rfl, rfl⟩
  | cons event rest ih =>
      obtain ⟨hcalls, hcatalog, hwarnings⟩ := ih (c.meet disk (.file event)).catalog
      cases hanswer : (c.meet disk (.file event)).answer with
      | error fault =>
          simp [Dispatch.ofEvents, Catalog.heed, Catalog.meetAll, hanswer,
            Except.toBool, abandonment]
      | ok complete =>
          simp only [Dispatch.ofEvents, Catalog.heed, Catalog.meetAll, hanswer, Except.toBool,
            Bool.not_true, List.map_cons]
          exact ⟨congrArg (Catalog.Meeting.after _) hcalls, hcatalog, hwarnings⟩

/-- A batch that is taken is dispatched to the catalog. -/
theorem takeBatch_eq (root : Path) (c : Catalog) (batch : Batch) :
    takeBatch root c batch =
      let (after, dispatch) :=
        Dispatch.ofEvents Catalog.heed batch.disk c (Changes.events batch.changes)
      let m := Catalog.meetAll batch.disk c (dispatch.calls.map .file)
      (after, shownNews root m.notices, warningsOf m.notices ++ dispatch.warnings) := by
  obtain ⟨hcalls, hcatalog, hwarnings⟩ :=
    meetAll_files batch.disk c (Changes.events batch.changes)
  simp only [hcalls, ← hcatalog, ← hwarnings]
  rfl

end CommandLine

end Marginalia
