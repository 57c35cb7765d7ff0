import Marginalia.Proofs.Fitting
import Marginalia.Proofs.Scans

/-!
# Events during a scan

What becomes of the events of files that come in while a scan of the project is under way.  Each
event determines the notes of its file in the turn in which it takes hold (`Indexer.verdict?`), and
when the scan has been merged the index should hold what the last one has determined, whatever the
scan itself has read.  It does, with one exception (`Indexer.merge_keeps_events_iff`): an event that
finds no notes in a file without an entry is overlooked.  It is not kept that the file was touched,
so if no other kind of event follows for it, the notes stay that the scan has found in an earlier
text.

The proof follows one path through the turns of the scan (`Catalog.Tracks`).  Either the path is
touched, and then the index holds what the last event determined; or it is as it was when the scan
began, and then each event on it was overlooked, or had to do with a file that no scan lists.
-/

namespace Marginalia

/-- What an event determines about its file: that it is not to be shown, or its notes. -/
inductive Verdict where
  | gone
  | found (notes : List Note)
deriving DecidableEq

/-- The notes of a file after an event. -/
def Verdict.notes : Verdict → List Note
  | gone => []
  | found notes => notes

namespace Catalog

/-- The notes that a scan alone leaves at a path. -/
def scannedNotes (scan : Scan) (found : List (Text × Option (List Note))) (path : Text) :
    List Note :=
  (Index.ofEntries (scannedEntries scan.keepEmpty found)).notesAt path

/-- The events on a path are overlooked: there was no entry for it when the scan began, and each of
them has found no notes in its file. -/
structure Overlooked (c : Catalog) (path : Text) (seen : List Verdict) : Prop where
  absent : c.index.get? path = none
  empty : ∀ verdict ∈ seen, verdict = .found []

/-- How a path stands when some events have come in for it since a scan began. -/
inductive Tracks (c d : Catalog) (path : Text) (seen : List Verdict) : Prop
  | touched (mem : path ∈ d.touched)
      (notes : ∀ verdict, seen.getLast? = some verdict → d.index.notesAt path = verdict.notes)
      (noticed : c.index.get? path ≠ none ∨ ∃ verdict ∈ seen, verdict ≠ .found [])
      (outside : c.workspace.inScope path = false → d.index.notesAt path = [])
  | untouched (not_mem : path ∉ d.touched) (same : d.index.get? path = c.index.get? path)
      (plain : ∀ verdict ∈ seen, verdict = .found [] ∧ c.index.get? path = none ∨
        verdict = .gone ∧ c.workspace.inScope path = false)

variable {c d : Catalog} {path other : Text} {seen : List Verdict} {u : Update}
  {notes : List Note}

/-- Nothing has come in when a scan begins. -/
theorem tracks_refl (h : c.touched = []) : Tracks c c path [] :=
  .untouched (by simp [h]) rfl (by simp)

/-- The last of the events is the one that has just come in. -/
theorem notesAt_of_getLast? {verdict : Verdict} (h : d.index.notesAt path = verdict.notes) :
    ∀ last, (seen ++ [verdict]).getLast? = some last → d.index.notesAt path = last.notes := by
  intro last hlast
  rw [List.getLast?_concat, Option.some.injEq] at hlast
  rw [h, hlast]

/-- What has been noticed of the events on a path stays so. -/
theorem noticed_append (verdict : Verdict)
    (h : c.index.get? path ≠ none ∨ ∃ other ∈ seen, other ≠ .found []) :
    c.index.get? path ≠ none ∨ ∃ other ∈ seen ++ [verdict], other ≠ .found [] := by
  rcases h with hentry | ⟨other, ho, hne⟩
  · exact .inl hentry
  · exact .inr ⟨other, List.mem_append_left _ ho, hne⟩

/-- A path that is dropped is touched, and without notes. -/
theorem tracks_drop : Tracks c (d.drop path) path (seen ++ [.gone]) := by
  have hnotes : (d.drop path).index.notesAt path = [] := by rw [notesAt_drop, if_pos rfl]
  exact .touched (mem_touch.2 (.inr rfl)) (notesAt_of_getLast? hnotes)
    (.inr ⟨.gone, by simp, nofun⟩) fun _ => hnotes

/-- No other path is concerned when one is dropped. -/
theorem Tracks.drop (h : Tracks c d path seen) (hne : path ≠ other) :
    Tracks c (d.drop other) path seen := by
  have hnotes : (d.drop other).index.notesAt path = d.index.notesAt path := by
    rw [notesAt_drop, if_neg hne]
  cases h with
  | touched hm hn hnoticed hout =>
      exact .touched (mem_touch.2 (.inl hm))
        (fun verdict hv => hnotes.trans (hn verdict hv)) hnoticed fun ho => hnotes.trans (hout ho)
  | untouched hm hsame hplain =>
      refine .untouched (fun ht => (mem_touch.1 ht).elim hm hne) ?_ hplain
      rw [← hsame]
      exact (Index.get?_remove _ _ _).trans (if_neg hne)

/-- The deletion of a file that is not in scope changes nothing, and need not. -/
theorem Tracks.outside (h : Tracks c d path seen) (hscope : c.workspace.inScope path = false) :
    Tracks c d path (seen ++ [.gone]) := by
  cases h with
  | touched hm hn hnoticed hout =>
      exact .touched hm (notesAt_of_getLast? (hout hscope)) (.inr ⟨.gone, by simp, nofun⟩) hout
  | untouched hm hsame hplain =>
      refine .untouched hm hsame fun verdict hv => ?_
      rcases List.mem_append.1 hv with hv | hv
      · exact hplain verdict hv
      · exact .inr ⟨List.mem_singleton.1 hv, hscope⟩

/-- The update of a file that is in scope. -/
theorem Tracks.update (h : Tracks c d u.path seen) (hfresh : d.isStale u = false)
    (hscope : c.workspace.inScope u.path = true) :
    Tracks c (d.finishUpdate u notes).1 u.path (seen ++ [.found notes]) := by
  have hin : c.workspace.inScope u.path = false → False := by simp [hscope]
  rcases finishUpdate_cases notes hfresh with ⟨rfl, hnone, heq⟩ | ⟨hnew, heq⟩
  · rw [heq]
    cases h with
    | touched hm hn hnoticed hout =>
        have hnotes : d.index.notesAt u.path = [] := Index.notesAt_of_get?_eq_none hnone
        exact .touched hm (notesAt_of_getLast? hnotes) (noticed_append _ hnoticed) hout
    | untouched hm hsame hplain =>
        refine .untouched hm hsame fun verdict hv => ?_
        rcases List.mem_append.1 hv with hv | hv
        · exact hplain verdict hv
        · exact .inl ⟨List.mem_singleton.1 hv, hsame.symm.trans hnone⟩
  · rw [heq]
    have hnotes : (d.index.update u.path notes).notesAt u.path = notes :=
      (Index.notesAt_update _ _ _ _).trans (if_pos rfl)
    refine .touched (mem_touch.2 (.inr rfl)) (notesAt_of_getLast? hnotes) ?_
      fun ho => (hin ho).elim
    rcases hnew with hne | hne
    · exact .inr ⟨.found notes, by simp, by simpa using hne⟩
    · cases h with
      | touched hm hn hnoticed hout => exact noticed_append _ hnoticed
      | untouched hm hsame hplain => exact .inl (hsame ▸ hne)

/-- No other path is concerned when a file is updated. -/
theorem Tracks.update_of_ne (h : Tracks c d path seen) (hfresh : d.isStale u = false)
    (hne : path ≠ u.path) : Tracks c (d.finishUpdate u notes).1 path seen := by
  rcases finishUpdate_cases notes hfresh with ⟨rfl, -, heq⟩ | ⟨-, heq⟩
  · rw [heq]
    exact h
  · rw [heq]
    have hnotes : (d.index.update u.path notes).notesAt path = d.index.notesAt path :=
      (Index.notesAt_update _ _ _ _).trans (if_neg hne)
    cases h with
    | touched hm hn hnoticed hout =>
        exact .touched (mem_touch.2 (.inl hm)) (fun verdict hv => hnotes.trans (hn verdict hv))
          hnoticed fun ho => hnotes.trans (hout ho)
    | untouched hm hsame hplain =>
        refine .untouched (fun ht => (mem_touch.1 ht).elim hm hne) ?_ hplain
        rw [← hsame]
        exact (Index.get?_put _ _ _).trans (if_neg hne)

/-- A scan leaves nothing at a path that it has not looked at. -/
theorem scannedNotes_of_forall_ne {scan : Scan} {found : List (Text × Option (List Note))}
    (h : ∀ entry ∈ found, entry.1 ≠ path) : scannedNotes scan found path = [] := by
  refine Index.notesAt_ofEntries_of_forall (fun entry he hp => ?_) fun hne => absurd rfl hne
  obtain ⟨other, notes, hm, -, rfl⟩ := mem_scannedEntries.1 he
  exact absurd hp (h _ hm)

/-- When a scan is merged that lists files in scope, the index holds what the last event on a path
has determined, unless the events on it are overlooked and the scan has found something else. -/
theorem Tracks.merged (h : Tracks c d path seen) {verdict : Verdict}
    (hlast : seen.getLast? = some verdict) {scan : Scan} {found : List (Text × Option (List Note))}
    (hlisted : ∀ entry ∈ found, c.workspace.inScope entry.1 = true) :
    (Indexer.merged d scan found).index.notesAt path = verdict.notes ↔
      ¬ (Overlooked c path seen ∧ scannedNotes scan found path ≠ []) := by
  have hmem := List.mem_of_getLast? hlast
  cases h with
  | touched hm hn hnoticed hout =>
      have hnotes : (Indexer.merged d scan found).index.notesAt path = verdict.notes :=
        (notesAt_mergeTouched_of_mem hm).trans (hn verdict hlast)
      refine ⟨fun _ hover => ?_, fun _ => hnotes⟩
      rcases hnoticed with hne | ⟨other, ho, hne⟩
      · exact hne hover.1.absent
      · exact hne (hover.1.empty other ho)
  | untouched hm hsame hplain =>
      have hnotes : (Indexer.merged d scan found).index.notesAt path =
          scannedNotes scan found path := notesAt_mergeTouched_of_not_mem hm
      have hempty : verdict.notes = [] := by
        rcases hplain verdict hmem with ⟨rfl, -⟩ | ⟨rfl, -⟩ <;> rfl
      rw [hnotes, hempty]
      refine ⟨fun he hover => hover.2 he, fun hnot => ?_⟩
      apply Classical.byContradiction
      intro hne
      by_cases hscope : c.workspace.inScope path = false
      · refine hne (scannedNotes_of_forall_ne fun entry he hp => ?_)
        have := hlisted entry he
        rw [hp, hscope] at this
        cases this
      · refine hnot ⟨⟨?_, fun other ho => ?_⟩, hne⟩
        · exact ((hplain verdict hmem).resolve_right fun hgone => hscope hgone.2).2
        · exact ((hplain other ho).resolve_right fun hgone => hscope hgone.2).1

end Catalog

namespace Indexer

open Catalog (Next Scan Tracks)

variable {x : Indexer} {c : Catalog} {turn : Turn} {rest turns : List Turn} {id : JobId}
  {request : Request} {ticket : Ticket} {text : Except Document.Fault Text} {scan : Scan}
  {path : Text} {seen : List Verdict}

/-! ## Events -/

/-- What an event determines about a path in a turn: a file is deleted, or modified so that it is no
longer accepted, or its new text is read. -/
def verdict? (x : Indexer) (turn : Turn) (path : Text) : Option Verdict :=
  match turn.move with
  | .start _ [.file (.deleted file)] =>
    if x.catalog.workspace.normalize file = path then some .gone else none
  | .start _ [.file (.modified file)] =>
    if x.catalog.workspace.normalize file = path ∧
        (x.catalog.workspace.accepts turn.disk path).toOption = some false then some .gone
    else none
  | .text ticket (.ok text) =>
    match x.updateFor? ticket with
    | some update =>
      if update.path = path then (update.vocabulary.notesIn path text).toOption.map .found else none
    | none => none
  | _ => none

/-- What the events of a run determine about a path, in order. -/
def verdicts (path : Text) : Indexer → List Turn → List Verdict
  | _, [] => []
  | x, turn :: rest => (x.verdict? turn path).toList ++ verdicts path (x.after turn) rest

/-- A call without further requests leaves the catalog as the request did. -/
theorem goOn_catalog (disk : Disk) (id : JobId) (x : Indexer) (request : Request) (next : Next) :
    (goOn disk id [] x request next).1.catalog = x.catalog := by
  cases next <;> rfl

/-- The catalog after a call of one request begins is what the request makes of it. -/
theorem after_start (hm : turn.move = .start id [request]) :
    (x.after turn).catalog = (x.catalog.begin turn.disk request).1 := by
  unfold after
  rw [hm]
  exact goOn_catalog _ _ _ _ _

/-- The text of a file ends an update, or changes nothing. -/
theorem Sane.after_text (h : x.Sane) (hm : turn.move = .text ticket text) :
    x.updateFor? ticket = none ∧ (x.after turn).catalog = x.catalog ∨
      ∃ update, x.updateFor? ticket = some update ∧
        (∃ task ∈ x.tasks, task.next = .update update) ∧
        (x.after turn).catalog = (x.catalog.afterRead update
          (Catalog.examine update.vocabulary update.path text).1).1 := by
  have hafter : x.after turn = (x.step turn.disk (.text ticket text)).1 := by rw [after, hm]
  rw [hafter]
  rcases h.text_cases turn.disk ticket text with
    ⟨hnone, -, hcatalog, -⟩ | ⟨job, update, hj, hw, hfor, hresumes⟩
  · exact .inl ⟨hnone, hcatalog⟩
  · refine .inr ⟨update, hfor, ⟨x.taskOf job, ?_, ?_⟩, hresumes.catalog⟩
    · exact List.mem_map_of_mem (List.mem_of_find?_eq_some hj)
    · rw [taskOf, hw]
      rfl

/-- What comes of a turn for the events of files. -/
inductive EventTurn (x : Indexer) (turn : Turn) : Prop
  | nothing (catalog : (x.after turn).catalog = x.catalog)
      (verdict : ∀ path, x.verdict? turn path = none)
  | dropped (file : Text) (catalog : (x.after turn).catalog = x.catalog.drop file)
      (verdict : ∀ path, x.verdict? turn path = if path = file then some .gone else none)
  | outside (file : Text) (scope : x.catalog.workspace.inScope file = false)
      (catalog : (x.after turn).catalog = x.catalog)
      (verdict : ∀ path, x.verdict? turn path = if path = file then some .gone else none)
  | updated (update : Catalog.Update) (notes : List Note)
      (mem : ∃ task ∈ x.tasks, task.next = .update update)
      (catalog : (x.after turn).catalog = (x.catalog.finishUpdate update notes).1)
      (verdict : ∀ path, x.verdict? turn path =
        if path = update.path then some (.found notes) else none)

/-- A file is deleted. -/
theorem eventTurn_deleted {file : Text} (hm : turn.move = .start id [.file (.deleted file)])
    (hg : (x.after turn).catalog.generation = x.catalog.generation) : EventTurn x turn := by
  have hcatalog : (x.after turn).catalog =
      (x.catalog.deleteFile (x.catalog.workspace.normalize file)).1 := after_start hm
  have hverdict : ∀ path, x.verdict? turn path =
      if path = x.catalog.workspace.normalize file then some .gone else none := by
    intro path
    simp only [verdict?, hm, eq_comm]
  unfold Catalog.deleteFile at hcatalog
  split at hcatalog
  · rw [hcatalog, Catalog.beginLoad_generation] at hg
    omega
  · split at hcatalog
    · exact .dropped _ hcatalog hverdict
    · rename_i hscope
      exact .outside _ (by simpa using hscope) hcatalog hverdict

/-- A file is modified: it is dropped if it is no longer accepted, and otherwise its text is waited
for. -/
theorem eventTurn_modified {file : Text} (hm : turn.move = .start id [.file (.modified file)])
    (hg : (x.after turn).catalog.generation = x.catalog.generation) : EventTurn x turn := by
  have hcatalog : (x.after turn).catalog =
      (x.catalog.beginUpdate turn.disk (x.catalog.workspace.normalize file)).1 := after_start hm
  have hverdict : ∀ path, x.verdict? turn path =
      if x.catalog.workspace.normalize file = path ∧
        (x.catalog.workspace.accepts turn.disk path).toOption = some false then some .gone
      else none := by
    intro path
    simp only [verdict?, hm]
  generalize x.catalog.workspace.normalize file = normal at hcatalog hverdict
  unfold Catalog.beginUpdate at hcatalog
  split at hcatalog
  · rw [hcatalog, Catalog.beginLoad_generation] at hg
    omega
  · cases ha : x.catalog.workspace.accepts turn.disk normal with
    | error fault =>
        rw [ha] at hcatalog
        refine .nothing hcatalog fun path => ?_
        rw [hverdict, if_neg]
        intro hex
        obtain ⟨rfl, hrejected⟩ := hex
        simp [ha, Except.toOption] at hrejected
    | ok accepted =>
        rw [ha] at hcatalog
        cases accepted with
        | false =>
            refine .dropped normal hcatalog fun path => ?_
            rw [hverdict]
            by_cases hp : path = normal
            · subst hp
              simp [ha, Except.toOption]
            · rw [if_neg hp, if_neg fun hrejected => hp hrejected.1.symm]
        | true =>
            have hsame : (x.after turn).catalog = x.catalog := by
              rw [hcatalog]
              simp only
              split <;> rfl
            refine .nothing hsame fun path => ?_
            rw [hverdict, if_neg]
            intro hex
            obtain ⟨rfl, hrejected⟩ := hex
            simp [ha, Except.toOption] at hrejected

/-- The text of a file comes in, for an update or for a scan. -/
theorem Sane.eventTurn_text (h : x.Sane) (hm : turn.move = .text ticket text)
    (hread : ∀ fault, text = .error fault → x.updateFor? ticket = none) : EventTurn x turn := by
  rcases h.after_text hm with ⟨hnone, hcatalog⟩ | ⟨update, hsome, hmem, hcatalog⟩
  · refine .nothing hcatalog fun path => ?_
    cases text <;> simp [verdict?, hm, hnone]
  · cases text with
    | error fault =>
        rw [hread fault rfl] at hsome
        cases hsome
    | ok read =>
        have hverdict : ∀ path, x.verdict? turn path = if update.path = path then
            (update.vocabulary.notesIn path read).toOption.map .found else none := by
          intro path
          simp only [verdict?, hm, hsome]
        cases hn : update.vocabulary.notesIn update.path read with
        | error fault =>
            refine .nothing ?_ fun path => ?_
            · rw [hcatalog, Catalog.examine_error hn]
              rfl
            · rw [hverdict]
              split
              · rename_i hp
                simp [← hp, hn, Except.toOption]
              · rfl
        | ok notes =>
            refine .updated update notes hmem ?_ fun path => ?_
            · rw [hcatalog, Catalog.examine_ok hn]
              rfl
            · rw [hverdict]
              by_cases hp : path = update.path
              · subst hp
                simp [hn, Except.toOption]
              · rw [if_neg hp, if_neg fun he => hp he.symm]

/-! ## The turns of a scan -/

/-- What may happen in a turn of a scan: of the calls only events of files begin, the reads of
events succeed, and what is listed for the scan is in scope. -/
structure Eventful (id : JobId) (x : Indexer) (turn : Turn) : Prop where
  calls : ∀ who requests, turn.move = .start who requests →
    ∃ file, requests = [.file (.modified file)] ∨ requests = [.file (.deleted file)]
  reads : ∀ ticket fault, turn.move = .text ticket (.error fault) → x.updateFor? ticket = none
  lists : ∀ paths, turn.move = .list id (.ok paths) →
    ∀ path ∈ paths, x.catalog.workspace.inScope path = true

/-- What holds in each turn of a scan: the same is in force as at its beginning, no settings are on
their way, updates are of files in scope and none comes too late, and the scan reads files in
scope. -/
structure Watching (c : Catalog) (id : JobId) (x : Indexer) : Prop where
  alike : c.Alike x.catalog
  waits : ∀ task ∈ x.tasks, ¬ task.next.isReload ∧
    ∀ update, task.next = .update update →
      update.epoch = c.epoch ∧ c.workspace.inScope update.path = true
  listed : ∀ task ∈ x.tasks, task.id = id →
    ∀ path ∈ task.next.paths, c.workspace.inScope path = true

/-- In a turn of a scan that is not its last one, and in which no event takes hold, the catalog
stays as it is. -/
theorem Watching.nothing (h : Watching c id x)
    (hscan : x.scanOf? id = some scan) (hcurrent : scan.generation = x.catalog.generation)
    (hnumbered : Numbered x) (hlegal : Legal x (turn :: rest))
    (hafter : (x.after turn).scanOf? id ≠ none)
    (hstart : ∀ who requests, turn.move ≠ .start who requests)
    (htext : ∀ ticket text, turn.move ≠ .text ticket text) :
    (x.after turn).catalog = x.catalog := by
  cases hlegal.next.2 with
  | quiet hc ht hs => exact hc
  | begun who request hm hnone hsteps => exact absurd hm (hstart _ _)
  | resumed task hm step hp hsteps =>
      rw [hsteps.catalog]
      have hreload := (h.waits task hm).1
      cases hp.continues with
      | scan other _ hs goes =>
          have hown : x.scanOf? task.id = some other := by
            rw [scanOf?, hlegal.sane.taskAt?_of_mem hm]
            exact hs
          rw [hsteps.scanOf?] at hafter
          cases goes with
          | reads paths => rfl
          | superseded hstale => rfl
          | fails fault => rfl
          | merges found hlisted hmerged =>
              -- No other scan has the generation in force, and the scan itself goes on.
              have hid := hnumbered.unique id task.id scan other hscan hown
                (hcurrent.trans hmerged.symm)
              rw [if_pos hid] at hafter
              exact absurd rfl hafter
      | loadFailed fault hnext => rfl
      | loaded settings hnext hmove => exact absurd (hnext ▸ trivial) hreload
      | updated update ticket text hnext hmove => exact absurd hmove (htext _ _)
      | begins hnext => exact absurd (hnext ▸ trivial) hreload
      | ends hnext => rfl

/-- Only the beginning of a call and a text that is read decide about a document. -/
theorem verdict?_eq_none (hstart : ∀ who requests, turn.move ≠ .start who requests)
    (htext : ∀ ticket text, turn.move ≠ .text ticket text) (path : Text) :
    x.verdict? turn path = none := by
  unfold verdict?
  split
  · rename_i hm
    exact absurd hm (hstart _ _)
  · rename_i hm
    exact absurd hm (hstart _ _)
  · rename_i hm
    exact absurd hm (htext _ _)
  · rfl

/-- In a turn of a scan that is not its last one, events are all that can change the catalog. -/
theorem Watching.eventTurn (h : Watching c id x)
    (hscan : x.scanOf? id = some scan) (hcurrent : scan.generation = x.catalog.generation)
    (hnumbered : Numbered x) (hlegal : Legal x (turn :: rest))
    (hafter : (x.after turn).scanOf? id ≠ none)
    (hg : (x.after turn).catalog.generation = x.catalog.generation)
    (hevents : Eventful id x turn) : EventTurn x turn := by
  have hother : (∀ who requests, turn.move ≠ .start who requests) →
      (∀ ticket text, turn.move ≠ .text ticket text) → EventTurn x turn := by
    intro hstart htext
    exact .nothing (h.nothing hscan hcurrent hnumbered hlegal hafter hstart htext)
      (verdict?_eq_none hstart htext)
  cases hmove : turn.move with
  | start who requests =>
      obtain ⟨file, rfl | rfl⟩ := hevents.calls who requests hmove
      · exact eventTurn_modified hmove hg
      · exact eventTurn_deleted hmove hg
  | text ticket text =>
      refine hlegal.sane.eventTurn_text hmove fun fault hf => ?_
      subst hf
      exact hevents.reads ticket fault hmove
  | settings who loaded => exact hother (by simp [hmove]) (by simp [hmove])
  | list who paths => exact hother (by simp [hmove]) (by simp [hmove])
  | gather who => exact hother (by simp [hmove]) (by simp [hmove])
  | told who => exact hother (by simp [hmove]) (by simp [hmove])

/-- Events leave in force what is in force. -/
theorem EventTurn.alike (h : EventTurn x turn) : x.catalog.Alike (x.after turn).catalog := by
  cases h with
  | nothing hc hv => exact hc ▸ Catalog.Alike.refl _
  | dropped file hc hv => exact hc ▸ Catalog.alike_drop _ _
  | outside file hscope hc hv => exact hc ▸ Catalog.Alike.refl _
  | updated update notes hm hc hv => exact hc ▸ Catalog.alike_finishUpdate _ _ _

/-- One turn more of a scan that is watched. -/
theorem Watching.after (h : Watching c id x) (ht : EventTurn x turn)
    (hlegal : Legal x (turn :: rest)) (hscan : x.scanOf? id ≠ none)
    (hg : (x.after turn).catalog.generation = x.catalog.generation)
    (hevents : Eventful id x turn) : Watching c id (x.after turn) where
  alike := h.alike.trans ht.alike
  waits := by
    intro task hm
    cases hlegal.next.2.origin hm with
    | old _ hm => exact h.waits task hm
    | begun who request hmove hnone hsteps =>
        obtain ⟨hreload, -, hupdate⟩ :=
          (Catalog.begins x.catalog turn.disk request).settled (hsteps.catalog ▸ hg)
        rw [h.alike.epoch, h.alike.workspace] at hupdate
        exact ⟨hreload, hupdate⟩
    | resumed prior hprior step hp hsteps =>
        obtain ⟨hreload, hupdate, -⟩ := hp.settled (h.waits prior hprior).1
        exact ⟨hreload, fun update hu => absurd hu (hupdate update)⟩
  listed := by
    intro task hm hid path hp
    cases hlegal.next.2.origin hm with
    | old _ hm => exact h.listed task hm hid path hp
    | begun who request hmove hnone hsteps =>
        rw [scanOf?, ← hid, hnone] at hscan
        exact absurd rfl hscan
    | resumed prior hprior step hproceeds hsteps =>
        obtain ⟨-, -, hlisted⟩ := hproceeds.settled (h.waits prior hprior).1
        obtain ⟨paths, hmove, hp⟩ := hlisted path hp
        rw [← h.alike.workspace]
        exact hevents.lists paths (hid ▸ hmove) path hp

/-- What an event determines is what its path is tracked with. -/
theorem Watching.tracks_turn (h : Watching c id x) (hscope : c.scope ≠ .current)
    (ht : EventTurn x turn) (htracks : Tracks c x.catalog path seen) :
    Tracks c (x.after turn).catalog path (seen ++ (x.verdict? turn path).toList) := by
  cases ht with
  | nothing hc hv =>
      rw [hc, hv path, Option.toList_none, List.append_nil]
      exact htracks
  | dropped file hc hv =>
      rw [hc, hv path]
      by_cases hp : path = file
      · subst hp
        rw [if_pos rfl]
        exact Catalog.tracks_drop
      · rw [if_neg hp, Option.toList_none, List.append_nil]
        exact htracks.drop hp
  | outside file hout hc hv =>
      rw [hc, hv path]
      by_cases hp : path = file
      · subst hp
        rw [if_pos rfl]
        rw [h.alike.workspace] at hout
        exact htracks.outside hout
      · rw [if_neg hp, Option.toList_none, List.append_nil]
        exact htracks
  | updated update notes hm hc hv =>
      obtain ⟨task, hm, hnext⟩ := hm
      obtain ⟨hepoch, hin⟩ := (h.waits task hm).2 update hnext
      have hfresh : x.catalog.isStale update = false := by
        have hne : x.catalog.scope ≠ .current := h.alike.scope ▸ hscope
        simp [Catalog.isStale, hepoch, h.alike.epoch, hne]
      rw [hc, hv path]
      by_cases hp : path = update.path
      · subst hp
        rw [if_pos rfl]
        exact htracks.update hfresh hin
      · rw [if_neg hp, Option.toList_none, List.append_nil]
        exact htracks.update_of_ne hfresh hp

/-- A path is tracked through the turns of a scan. -/
theorem Watching.run (h : Watching c id x) (hscope : c.scope ≠ .current)
    (hscanning : Scanning x id request scan) (hcurrent : scan.generation = x.catalog.generation)
    (hnumbered : Numbered x) (hlegal : Legal x turns)
    (hduring : Along (fun y turn => (y.after turn).scanOf? id ≠ none) x turns)
    (hundisturbed : Undisturbed x turns) (hevents : Along (Eventful id) x turns)
    (htracks : Tracks c x.catalog path seen) :
    Watching c id (x.run turns) ∧
      Tracks c (x.run turns).catalog path (seen ++ verdicts path x turns) := by
  induction turns generalizing x seen with
  | nil =>
      rw [verdicts, List.append_nil]
      exact ⟨h, htracks⟩
  | cons turn rest ih =>
      have hscan := hlegal.next.2.scanTurn hlegal.sane
      have hg := hundisturbed.1
      have ht := h.eventTurn hscanning.scanOf? hcurrent hnumbered hlegal hduring.1 hg hevents.1
      have hscanOf : x.scanOf? id ≠ none := hscanning.scanOf? ▸ Option.some_ne_none scan
      rw [verdicts, ← List.append_assoc]
      exact ih (h.after ht hlegal hscanOf hg hevents.1) (hscanning.goesOn hscan hduring.1).1
        (hcurrent.trans hg.symm) (hnumbered.after hscan) hlegal.next.1 hduring.2 hundisturbed.2
        hevents.2 (h.tracks_turn hscope ht htracks)

/-! ## When the scan is merged -/

/-- A scan of the project that is not superseded, and during which there are only events of
files. -/
structure WatchedScan (x : Indexer) (id : JobId) (first : Turn) (middle : List Turn) (last : Turn) :
    Prop extends Spans x id first middle last where
  project : (x.after first).catalog.scope ≠ .current
  idle : ∀ task ∈ (x.after first).tasks,
    ¬ task.next.isReload ∧ ∀ update, task.next ≠ .update update
  undisturbed : Undisturbed (x.after first) middle
  events : Along (Eventful id) (x.after first) middle

/-- The turn in which a scan gets under way is that in which it begins. -/
theorem Outcome.steps_beginScan (h : Outcome x turn) (hx : x.Sane) (hbefore : x.scanOf? id = none)
    (hafter : (x.after turn).scanOf? id ≠ none) :
    ∃ d request, Steps x turn id request (Catalog.beginScan d) := by
  have hown : ∀ {who request step}, Steps x turn who request step →
      id = who ∧ step.2.scan? ≠ none := by
    intro who request step hsteps
    rw [hsteps.scanOf?] at hafter
    split at hafter
    · rename_i hid
      exact ⟨hid, hafter⟩
    · exact absurd hbefore hafter
  cases h with
  | quiet hc ht hs =>
      rw [scanOf?, taskAt?, ht] at hafter
      exact absurd hbefore hafter
  | begun who request hm hnone hsteps =>
      obtain ⟨rfl, hscan⟩ := hown hsteps
      have hbegins := Catalog.begins x.catalog turn.disk request
      have hlt : x.catalog.generation < (x.catalog.begin turn.disk request).1.generation := by
        cases hbegins.counts with
        | same hg hn => exact absurd hn hscan
        | raised hg hn => exact hg ▸ Nat.lt_succ_self _
      rcases hbegins.raised hlt with ⟨scope, active, heq⟩ | heq
      · exact ⟨_, request, heq ▸ hsteps⟩
      · rw [heq, Catalog.beginLoad_eq] at hscan
        split at hscan <;> exact absurd rfl hscan
  | resumed task hm step hp hsteps =>
      obtain ⟨rfl, hscan⟩ := hown hsteps
      have hnone : task.next.scan? = none := by
        rw [scanOf?, hx.taskAt?_of_mem hm] at hbefore
        exact hbefore
      have hlt : x.catalog.generation < step.1.generation := by
        cases hp.counts hnone with
        | same hg hn => exact absurd hn hscan
        | raised hg hn => exact hg ▸ Nat.lt_succ_self _
      exact ⟨x.catalog, task.request, (hp.raised hlt).2 ▸ hsteps⟩

/-- When a watched scan has begun, there is nothing to be remembered yet. -/
theorem WatchedScan.watching {first last : Turn} {middle : List Turn}
    (h : WatchedScan x id first middle last) (hlegal : Legal x (first :: rest)) :
    Watching (x.after first).catalog id (x.after first) ∧
      (x.after first).catalog.touched = [] := by
  obtain ⟨d, request, hsteps⟩ :=
    hlegal.next.2.steps_beginScan hlegal.sane h.before h.begins
  have hscope : d.scope ≠ .current := by
    have hproject := h.project
    rw [hsteps.catalog, Catalog.beginScan_scope] at hproject
    exact hproject
  refine ⟨⟨Catalog.Alike.refl _, fun task hm => ?_, fun task hm hid path hp => ?_⟩, ?_⟩
  · exact ⟨(h.idle task hm).1, fun update hu => absurd hu ((h.idle task hm).2 update)⟩
  · rcases hsteps.of_mem hm with ⟨-, hne⟩ | rfl
    · exact absurd hid hne
    · rw [Catalog.beginScan_of_ne_current hscope] at hp
      cases hp
  · rw [hsteps.catalog]
    exact d.beginScan_touched

/-- A watched scan is merged, and leaves each path as the events on it say. -/
theorem WatchedScan.merges {first last : Turn} {middle : List Turn}
    (h : WatchedScan x id first middle last) (hlegal : Legal x (first :: (middle ++ [last])))
    (hnumbered : Numbered x) (hsmooth : Smooth ((x.after first).run middle) last) :
    ∃ scan found, (x.after first).scanOf? id = some scan ∧
      (((x.after first).run middle).after last).catalog =
        merged ((x.after first).run middle).catalog scan found ∧
      ∀ path verdict, (verdicts path (x.after first) middle).getLast? = some verdict →
        ((((x.after first).run middle).after last).catalog.index.notesAt path = verdict.notes ↔
          ¬ (Catalog.Overlooked (x.after first).catalog path
            (verdicts path (x.after first) middle) ∧
            Catalog.scannedNotes scan found path ≠ [])) := by
  have hfirst := hlegal.next.2.scanTurn hlegal.sane
  obtain ⟨request, scan, hscanning, -, hg, -⟩ := hfirst.begins h.before h.begins
  obtain ⟨hwatching, htouched⟩ := h.watching hlegal
  have hmiddle := hlegal.next.1.left
  obtain ⟨hend, -, -⟩ := hscanning.run hmiddle h.during
  have hcurrent : scan.generation = ((x.after first).run middle).catalog.generation :=
    hg.trans ((undisturbed_iff hmiddle).1 h.undisturbed)
  obtain ⟨found, hmerged, hread⟩ :=
    ((hend.ends hlegal.next.1.right hsmooth h.ends).1 hcurrent).written
  have hrun : ∀ path, Watching (x.after first).catalog id ((x.after first).run middle) ∧
      Tracks (x.after first).catalog ((x.after first).run middle).catalog path
        ([] ++ verdicts path (x.after first) middle) := fun path =>
    hwatching.run h.project hscanning hg (hnumbered.after hfirst) hmiddle h.during h.undisturbed
      h.events (Catalog.tracks_refl htouched)
  refine ⟨scan, found, hscanning.scanOf?, hmerged, fun path verdict hlast => ?_⟩
  have hlisted : ∀ entry ∈ found, (x.after first).catalog.workspace.inScope entry.1 = true := by
    intro entry he
    obtain ⟨next, htask, -⟩ := hend
    obtain ⟨hm, hid⟩ := of_taskAt?_eq_some htask
    exact (hrun path).1.listed _ hm hid _ (hread _ htask entry he)
  rw [hmerged]
  exact (hrun path).2.merged hlast hlisted

/-- **Events survive a scan.**  When a scan of the project is merged that was not superseded, the
index holds at each path the notes that the last event on it has determined while the scan was under
way, whatever the scan has read and whenever it did, if and only if that path is not one of which
all events were overlooked and at which the scan has found notes. -/
theorem merge_keeps_events_iff {limit : Int} {before middle : List Turn} {first last : Turn}
    (hcalls : Calls (before ++ first :: (middle ++ [last])))
    (hsmooth : Along Smooth (ofCatalog c limit) (before ++ first :: (middle ++ [last])))
    {start done : Indexer} (hstart : ((ofCatalog c limit).run before).after first = start)
    (hdone : (start.run middle).after last = done)
    (h : WatchedScan ((ofCatalog c limit).run before) id first middle last) :
    ∃ scan found, start.scanOf? id = some scan ∧
      done.catalog = merged (start.run middle).catalog scan found ∧
      ∀ path verdict, (verdicts path start middle).getLast? = some verdict →
        (done.catalog.index.notesAt path = verdict.notes ↔
          ¬ (Catalog.Overlooked start.catalog path (verdicts path start middle) ∧
            Catalog.scannedNotes scan found path ≠ [])) := by
  subst hstart hdone
  have hlegal := hcalls.legal c limit
  -- No two scans are of the same generation, so no other one can be merged in place of this one.
  have hnumbered : Numbered ((ofCatalog c limit).run before) := by
    refine hlegal.left.run_induction (fun y turn rest hy _ hn => ?_) (along_append.1 hsmooth).1
      (numbered_ofCatalog c limit)
    exact hn.after (hy.next.2.scanTurn hy.sane)
  have hlast := (along_append.1 (along_append.1 hsmooth).2.2).2.1
  exact h.merges hlegal.right hnumbered hlast

/-! ## An event that is overlooked -/

open Catalog (opened filledProject project)

/-- A scan of the small project gets under way. -/
def scanStart : Turn := turnOf (.start 1 [.rescan])

/-- The first text of its file is scanned; then the file is modified, and its new text is read. -/
def modification (text : Text) : List Turn :=
  [.list 1 (.ok ["/p/a.py"]), .text 0 (.ok "# TODO: a\n"), .start 2 [.file (.modified "a.py")],
    .text 1 (.ok text)].map turnOf

/-- The scan is merged. -/
def scanEnd : Turn := turnOf (.gather 1)

/-- The small project after such a scan. -/
def modified (text : Text) : Indexer :=
  (((ofCatalog opened 8).after scanStart).run (modification text)).after scanEnd

/-- The run is one that calls make. -/
theorem calls_modification (text : Text) :
    Calls ([] ++ scanStart :: (modification text ++ [scanEnd])) where
  single := by
    intro turn ht id requests hm
    simp only [modification, List.map_cons, List.map_nil, List.cons_append, List.nil_append,
      List.mem_cons, List.not_mem_nil, or_false] at ht
    rcases ht with rfl | rfl | rfl | rfl | rfl | rfl <;> cases hm <;> exact ⟨_, rfl⟩
  nodup := by
    show ([1, 2] : List JobId).Nodup
    decide

/-- How the scan goes, with a new text that has no notes and with one that has. -/
theorem modification_runs : ∀ text ∈ [("x = 1\n" : Text), "# NOTE: b\n"],
    Along Smooth (ofCatalog opened 8) (scanStart :: (modification text ++ [scanEnd])) ∧
      (((ofCatalog opened 8).scanOf? 1 = none ∧
        ((ofCatalog opened 8).after scanStart).scanOf? 1 ≠ none) ∧
        Along (fun y turn => (y.after turn).scanOf? 1 ≠ none) ((ofCatalog opened 8).after scanStart)
          (modification text) ∧ (modified text).scanOf? 1 = none) ∧
      ((ofCatalog opened 8).after scanStart).catalog.scope ≠ .current ∧
      (∀ task ∈ ((ofCatalog opened 8).after scanStart).tasks, task.next.scan?.isSome = true) ∧
      Along (fun y turn => (y.after turn).catalog.generation = y.catalog.generation)
        ((ofCatalog opened 8).after scanStart) (modification text) ∧
      Along (fun y turn => ∀ path ∈ turn.move.listed, y.catalog.workspace.inScope path = true)
        ((ofCatalog opened 8).after scanStart) (modification text) := by
  unfold modified
  rw [Catalog.opened_eq]
  decide +kernel

/-- The scan is under way from its beginning to its end, and what happens beside it is an event. -/
theorem watchedScan_modification {text : Text} (h : text ∈ [("x = 1\n" : Text), "# NOTE: b\n"]) :
    WatchedScan ((ofCatalog opened 8).run []) 1 scanStart (modification text) scanEnd := by
  obtain ⟨-, ⟨⟨hbefore, hbegins⟩, hduring, hends⟩, hscope, hidle, hundisturbed, hlists⟩ :=
    modification_runs text h
  refine ⟨⟨hbefore, hbegins, hduring, hends⟩, hscope, fun task hm => ?_, hundisturbed,
    hlists.imp fun y turn ht hlist => ?_⟩
  · have hscan := hidle task hm
    cases hn : task.next with
    | list scan => exact ⟨id, nofun⟩
    | read scan paths => exact ⟨id, nofun⟩
    | _ => simp [hn, Next.scan?] at hscan
  · simp only [modification, List.map_cons, List.map_nil, List.mem_cons, List.not_mem_nil,
      or_false] at ht
    refine ⟨fun who requests hm => ?_, fun ticket fault hm => ?_, fun paths hm path hp => ?_⟩
    · rcases ht with rfl | rfl | rfl | rfl <;> cases hm
      exact ⟨_, .inl rfl⟩
    · rcases ht with rfl | rfl | rfl | rfl <;> cases hm
    · refine hlist path ?_
      rw [hm]
      exact hp

/-- What the modification determines, and what the index holds after the scan. -/
theorem modification_verdicts :
    (verdicts "/p/a.py" ((ofCatalog opened 8).after scanStart) (modification "x = 1\n") =
        [.found []] ∧
      (((ofCatalog opened 8).after scanStart).run (modification "x = 1\n")).taskAt? 2 = none) ∧
      (modified "x = 1\n").catalog.index.notesAt "/p/a.py" ≠ [] ∧
      ((verdicts "/p/a.py" ((ofCatalog opened 8).after scanStart)
        (modification "# NOTE: b\n")).getLast?.map Verdict.notes).getD [] ≠ [] := by
  unfold modified
  rw [Catalog.opened_eq]
  decide +kernel

/-- If there is a note in the new text, the index holds it. -/
theorem merge_keeps_note_of_modification :
    ∃ verdict, (verdicts "/p/a.py" ((ofCatalog opened 8).after scanStart)
        (modification "# NOTE: b\n")).getLast? = some verdict ∧ verdict.notes ≠ [] ∧
      (modified "# NOTE: b\n").catalog.index.notesAt "/p/a.py" = verdict.notes := by
  have hmem : ("# NOTE: b\n" : Text) ∈ [("x = 1\n" : Text), "# NOTE: b\n"] := by simp
  have hstart : ((ofCatalog opened 8).run []).after scanStart =
      (ofCatalog opened 8).after scanStart :=
    congrArg (·.after scanStart) (run_nil _)
  have hdone : (((ofCatalog opened 8).after scanStart).run (modification "# NOTE: b\n")).after
      scanEnd = modified "# NOTE: b\n" := rfl
  obtain ⟨scan, found, -, -, hiff⟩ := merge_keeps_events_iff (calls_modification _)
    (modification_runs _ hmem).1 hstart hdone (watchedScan_modification hmem)
  obtain ⟨-, -, hnotes⟩ := modification_verdicts
  cases hl : (verdicts "/p/a.py" ((ofCatalog opened 8).after scanStart)
      (modification "# NOTE: b\n")).getLast? with
  | none => simp [hl] at hnotes
  | some verdict =>
      have hne : verdict.notes ≠ [] := by simpa [hl] using hnotes
      refine ⟨verdict, rfl, hne, (hiff _ verdict hl).2 fun hover => ?_⟩
      rw [hover.1.empty verdict (List.mem_of_getLast? hl)] at hne
      exact hne rfl

/-- If there is none, the index holds the note of the old text, though the modification was over
before the scan was merged and has found that it is gone. -/
theorem modification_is_overlooked :
    Calls ([] ++ scanStart :: (modification "x = 1\n" ++ [scanEnd])) ∧
      Along Smooth (ofCatalog opened 8) ([] ++ scanStart :: (modification "x = 1\n" ++ [scanEnd])) ∧
      WatchedScan ((ofCatalog opened 8).run []) 1 scanStart (modification "x = 1\n") scanEnd ∧
      verdicts "/p/a.py" ((ofCatalog opened 8).after scanStart) (modification "x = 1\n") =
        [.found []] ∧
      (((ofCatalog opened 8).after scanStart).run (modification "x = 1\n")).taskAt? 2 = none ∧
      (modified "x = 1\n").catalog.index.notesAt "/p/a.py" ≠ [] := by
  have hmem : ("x = 1\n" : Text) ∈ [("x = 1\n" : Text), "# NOTE: b\n"] := by simp
  exact ⟨calls_modification _, (modification_runs _ hmem).1, watchedScan_modification hmem,
    modification_verdicts.1.1, modification_verdicts.1.2, modification_verdicts.2.1⟩

end Indexer

end Marginalia
