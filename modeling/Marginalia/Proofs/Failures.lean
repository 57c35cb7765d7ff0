import Mathlib.Data.List.Induction
import Marginalia.Proofs.Calls
import Marginalia.Proofs.LoneScans
import Marginalia.Proofs.MergeLock
import Marginalia.Proofs.Permits

/-!
# Calls that fail

What a call has found is told from the texts that have come in for it (`Indexer.Got`), and so is a
fault that was noted among its reads (`Indexer.Sourced`).  Therefore a call that fails has one of
four causes (`Indexer.Cause`), and a text that cannot be read is none of them: a scan leaves such a
file out (`Indexer.LeavesOut`), and the update of such a file ends and changes nothing
(`Indexer.PassesOver`).

Main statement: `Indexer.failures_write_nothing`.
-/

namespace Marginalia

/-- A document stops those who read many of them only where its path is malformed: not where its
file is missing, is no text or is binary. -/
theorem Document.isRaised_iff {disk : Disk} {path : Path} {fault : Document.Fault}
    (h : Document.read disk path = .error fault) :
    fault.isRaised = true ↔ ∃ flaw, disk.read path = .error flaw ∧ flaw.isMalformedPath = true := by
  unfold Document.read at h
  split at h
  · rename_i bytes hbytes
    have hflaw : fault = .notText ∨ fault = .binary := by
      unfold Document.ofBytes at h
      split at h
      · cases h
        exact .inl rfl
      · split at h
        · cases h
          exact .inr rfl
        · cases h
    rw [hbytes]
    rcases hflaw with rfl | rfl <;> simp [Document.Fault.isRaised]
  · rename_i flaw hflaw
    cases h
    simp [hflaw, Document.Fault.isRaised]

namespace Catalog

/-- The notes of the texts of some files, those left out that cannot be read. -/
def notesOf (v : Vocabulary) (texts : List (Text × Except Document.Fault Text)) :
    List (Text × Option (List Note)) :=
  texts.filterMap fun (path, text) =>
    match text with
    | .ok read => (v.notesIn path read).toOption.map fun notes => (path, some notes)
    | .error _ => none

/-- Whether the text of a file makes no scan fail: notes can be made of it, or it is one to go on
without. -/
def Extracted (v : Vocabulary) (given : Text × Except Document.Fault Text) : Prop :=
  match given.2 with
  | .ok read => ∃ notes, v.notesIn given.1 read = .ok notes
  | .error fault => fault.isRaised = false

/-- What was found in files is what is found in some texts of them, and what is made of it does not
depend on the files that could not be read. -/
theorem exists_texts {P : Text → Except Document.Fault Text → Prop} {v : Vocabulary}
    (keepEmpty : Bool) {found : List (Text × Option (List Note))}
    (h : ∀ entry ∈ found, ∃ text, P entry.1 text ∧ (examine v entry.1 text).1 = .ok entry.2) :
    ∃ texts : List (Text × Except Document.Fault Text),
      texts.map Prod.fst = found.map Prod.fst ∧
      (∀ given ∈ texts, P given.1 given.2 ∧ Extracted v given) ∧
      scannedEntries keepEmpty found = scannedEntries keepEmpty (notesOf v texts) := by
  induction found with
  | nil => exact ⟨[], rfl, by simp, rfl⟩
  | cons entry rest ih =>
      obtain ⟨path, notes?⟩ := entry
      obtain ⟨texts, hpaths, hgiven, heq⟩ := ih fun other ho => h other (List.mem_cons_of_mem _ ho)
      obtain ⟨text, hp, hexamine⟩ := h _ List.mem_cons_self
      have hexamined := hexamine ▸ examined v path text
      refine ⟨(path, text) :: texts, by simp [hpaths], ?_, ?_⟩
      · intro given hg
        rcases List.mem_cons.1 hg with rfl | hg
        · refine ⟨hp, ?_⟩
          cases hexamined with
          | notes read notes found => exact ⟨notes, found⟩
          | unread flaw passed => exact passed
        · exact hgiven given hg
      · cases hexamined with
        | notes read notes found =>
            have hfirst : notesOf v ((path, .ok read) :: texts) =
                (path, some notes) :: notesOf v texts := by
              simp [notesOf, found, Except.toOption]
            rw [hfirst]
            simp only [scannedEntries, List.filterMap_cons] at heq ⊢
            rw [heq]
        | unread flaw passed => exact heq

/-- A scan does not fail at its end. -/
theorem finishScan_ne_fail (c : Catalog) (scan : Scan) (found : List (Text × Option (List Note)))
    (fault : Fault) : (c.finishScan scan found).2 ≠ .fail fault := by
  unfold finishScan
  split <;> simp

/-- An update fails with what was found in its file. -/
theorem eq_error_of_afterRead_eq_fail {c : Catalog} {update : Update} {found : Found}
    {fault : Fault} (h : (c.afterRead update found).2 = .fail fault) : found = .error fault := by
  rcases found with flaw | _ | notes
  · cases h
    rfl
  · cases h
  · simp only [afterRead, finishUpdate] at h
    split at h
    · cases h
    · split at h <;> cases h

/-- A scan that begins does not fail at once. -/
theorem beginScan_ne_fail (c : Catalog) (fault : Fault) : c.beginScan.2 ≠ .fail fault := by
  intro h
  rcases c.beginScan_cases with ⟨keepEmpty, hscan, -⟩ | heq
  · rw [h] at hscan
    cases hscan
  · rw [heq] at h
    cases h

/-- Nor does a reload. -/
theorem beginLoad_ne_fail (c : Catalog) (fault : Fault) : c.beginLoad.2 ≠ .fail fault := by
  rw [beginLoad_eq]
  split <;> simp

/-- Only the look at a file that was modified makes a request fail at once. -/
theorem begin_fails {c : Catalog} {disk : Disk} {request : Request} {fault : Fault}
    (h : (c.begin disk request).2 = .fail fault) :
    ∃ path flaw, request = .file (.modified path) ∧ fault = .disk flaw ∧
      c.workspace.accepts disk (c.workspace.normalize path) = .error flaw := by
  cases request with
  | rescan => exact absurd h (c.beginScan_ne_fail fault)
  | reload => exact absurd h (c.beginLoad_ne_fail fault)
  | setScope scope =>
      simp only [begin, changeScope] at h
      split at h
      · cases h
      · exact absurd h (beginScan_ne_fail _ fault)
  | setActive path =>
      simp only [begin, changeActive] at h
      split at h
      · exact absurd h (beginScan_ne_fail _ fault)
      · cases h
  | file event =>
      cases event with
      | modified path =>
          simp only [begin, beginUpdate] at h
          split at h
          · exact absurd h (c.beginLoad_ne_fail fault)
          · split at h
            · rename_i flaw hflaw
              cases h
              exact ⟨path, flaw, rfl, rfl, hflaw⟩
            · simp only at h
              split at h <;> cases h
            · split at h <;> cases h
      | deleted path =>
          simp only [begin, deleteFile] at h
          split at h
          · exact absurd h (c.beginLoad_ne_fail fault)
          · split at h <;> cases h
      | renamed old new =>
          simp only [begin, renameFile] at h
          split at h
          · exact absurd h (c.beginLoad_ne_fail fault)
          · split at h
            · split at h
              · exact absurd h (beginScan_ne_fail _ fault)
              · exact absurd h (c.beginScan_ne_fail fault)
            · cases h

end Catalog

namespace Indexer

open Catalog (Next Scan Fault)

variable {x y : Indexer} {c : Catalog} {turn last : Turn} {id : JobId}
  {before rest later turns more : List Turn} {request : Request} {step : Catalog × Next}
  {scan : Scan}

/-! ## Where it comes from -/

/-- In one of the turns, a text has come in for a read of a call. -/
def Got (x : Indexer) (turns : List Turn) (id : JobId) (v : Vocabulary) (path : Text)
    (text : Except Document.Fault Text) : Prop :=
  ∃ before turn, before ++ [turn] <+: turns ∧ ∃ read ∈ (x.run before).reads,
    read.isRunning = true ∧ read.job = id ∧ read.vocabulary = v ∧ read.path = path ∧
      turn.move = .text read.ticket text

/-- What has come in for a call has come in by any later moment. -/
theorem Got.mono {v : Vocabulary} {path : Text} {text : Except Document.Fault Text}
    (h : x.Got turns id v path text) (hmore : turns <+: more) : x.Got more id v path text := by
  obtain ⟨before, turn, hbefore, hread⟩ := h
  exact ⟨before, turn, hbefore.trans hmore, hread⟩

/-- What the reads of a call have found was found in texts that have come in for it, and so was the
fault that was noted among them. -/
structure Sourced (id : JobId) (x : Indexer) (turns : List Turn) (y : Indexer) : Prop where
  found : Finds (fun job v path found => job = id →
    ∃ text, x.Got turns id v path text ∧ found = (Catalog.examine v path text).1) y
  noted : ∀ job ∈ y.jobs, job.id = id → ∀ fault, job.wait.fault? = some fault →
    ∃ v path text, x.Got turns id v path text ∧ (Catalog.examine v path text).1 = .error fault

/-- A text that comes in for a call has come in for it after the turn. -/
theorem got_of_turn {read : Read} (hm : read ∈ (x.run turns).reads) (hr : read.isRunning = true)
    (hjob : read.job = id) {text : Except Document.Fault Text}
    (hmove : turn.move = .text read.ticket text) :
    x.Got (turns ++ [turn]) id read.vocabulary read.path text :=
  ⟨turns, turn, List.prefix_refl _, read, hm, hr, hjob, rfl, rfl, hmove⟩

/-- A turn brings a call nothing but the text that comes in with it. -/
theorem Sourced.after (h : Sourced id x turns (x.run turns)) (hx : (x.run turns).Sane)
    (turn : Turn) : Sourced id x (turns ++ [turn]) ((x.run turns).after turn) where
  found := by
    have hmore : turns <+: turns ++ [turn] := List.prefix_append _ _
    have hfinds : Finds (fun job v path found => job = id → ∃ text,
        x.Got (turns ++ [turn]) id v path text ∧ found = (Catalog.examine v path text).1)
          (x.run turns) := by
      intro read hm found hf hjob
      obtain ⟨text, hgot, heq⟩ := h.found read hm found hf hjob
      exact ⟨text, hgot.mono hmore, heq⟩
    exact hfinds.step turn.disk hx.tickets fun read hm hr text hmove hjob =>
      ⟨text, got_of_turn hm hr hjob hmove, rfl⟩
  noted := by
    intro job hm hid fault hf
    rcases mem_jobs_step turn.disk hm with hold | hnone |
      ⟨read, hr, hrunning, text, flaw, hmove, hflaw, hsome, old, hold, hsame, hticket⟩
    · obtain ⟨v, path, text, hgot, heq⟩ := h.noted job hold hid fault hf
      exact ⟨v, path, text, hgot.mono (List.prefix_append _ _), heq⟩
    · rw [hnone] at hf
      cases hf
    · obtain rfl := Option.some.inj (hsome.symm.trans hf)
      have hjob := (hx.mem_paths hr hold hticket).1
      exact ⟨_, _, text, got_of_turn hr hrunning (hjob.trans (hsame.trans hid)) hmove, hflaw⟩

/-- Whatever happens, what a call has found was found in the texts that have come in for it. -/
theorem Legal.sourced (hlegal : Legal x turns) (hreads : ∀ read ∈ x.reads, read.job ≠ id)
    (hjobs : ∀ job ∈ x.jobs, job.id ≠ id) : Sourced id x turns (x.run turns) := by
  induction turns using List.reverseRecOn with
  | nil =>
      exact ⟨fun read hm _ _ hjob => absurd hjob (hreads read hm),
        fun job hm hid => absurd hid (hjobs job hm)⟩
  | append_singleton turns turn ih =>
      rw [run_append]
      exact (ih hlegal.left).after hlegal.right.sane turn

/-! ## Why a call fails -/

/-- Why a call fails: its list or the look at its file fails, a file cannot even be asked for, or a
match in a text makes no note. -/
inductive Cause (x : Indexer) (turns : List Turn) (id : JobId) : Fault → Prop
  | listing (turn : Turn) (mem : turn ∈ turns) (fault : Disk.Fault)
      (move : turn.move = .list id (.error fault)) : Cause x turns id (.disk fault)
  | acceptance (turn : Turn) (mem : turn ∈ turns) (path : Text) (fault : Disk.Fault)
      (move : turn.move = .start id [.file (.modified path)])
      (refused : x.catalog.workspace.accepts turn.disk (x.catalog.workspace.normalize path) =
        .error fault) : Cause x turns id (.disk fault)
  | reading (v : Vocabulary) (path : Text) (fault : Document.Fault)
      (got : x.Got turns id v path (.error fault)) (raised : fault.isRaised = true) :
    Cause x turns id (.document fault)
  | extraction (v : Vocabulary) (path text : Text) (fault : Note.Fault)
      (got : x.Got turns id v path (.ok text)) (fails : v.notesIn path text = .error fault) :
    Cause x turns id (.note fault)

/-- A cause remains one, whatever happens later. -/
theorem Cause.mono {fault : Fault} (h : Cause x turns id fault) (hmore : turns <+: more) :
    Cause x more id fault := by
  cases h with
  | listing turn mem fault move => exact .listing turn (hmore.subset mem) fault move
  | acceptance turn mem path fault move refused =>
      exact .acceptance turn (hmore.subset mem) path fault move refused
  | reading v path fault got raised => exact .reading v path fault (got.mono hmore) raised
  | extraction v path text fault got fails =>
      exact .extraction v path text fault (got.mono hmore) fails

/-- A text in which a fault is found is a cause of it. -/
theorem Got.cause {v : Vocabulary} {path : Text} {text : Except Document.Fault Text} {fault : Fault}
    (h : x.Got turns id v path text) (hfails : (Catalog.examine v path text).1 = .error fault) :
    Cause x turns id fault := by
  have hexamined := hfails ▸ Catalog.examined v path text
  cases hexamined with
  | unfit read flaw found => exact .extraction v path read flaw h found
  | raised flaw raised => exact .reading v path flaw h raised

/-- A call that has observers told is about to tell them. -/
theorem eq_tell_of_mem {task : Task} {topic : Topic}
    (h : Effect.tell id topic ∈ task.announcement) : task.next = .tell topic := by
  obtain ⟨who, request, next⟩ := task
  cases next <;> simp_all [Task.announcement]

/-- A call that ends with a fault has failed. -/
theorem eq_fail_of_mem {task : Task} {fault : Fault}
    (h : Effect.finish id (.error fault) ∈ task.announcement) : task.next = .fail fault := by
  obtain ⟨who, request, next⟩ := task
  cases next <;> simp_all [Task.announcement]

/-- If all that a call announces is a fault, then it is that call that has failed. -/
theorem announcement_eq_fail {task : Task} {fault : Fault}
    (h : Task.announcement task = [.finish id (.error fault)]) :
    task.id = id ∧ task.next = .fail fault := by
  obtain ⟨who, request, next⟩ := task
  cases next with
  | fail other =>
      simp only [Task.announcement, List.cons.injEq, Effect.finish.injEq, and_true,
        Except.error.injEq] at h
      exact ⟨h.1, congrArg Next.fail h.2⟩
  | _ => simp [Task.announcement] at h

/-- When a scan goes on after its reads, a fault was noted among them, or all of them have ended
well. -/
theorem Sane.gather_cases (h : y.Sane) (disk : Disk) {job : Job} (hj : job ∈ y.jobs)
    {tickets : List Ticket} {fault? : Option Fault} (hw : job.wait = .reads scan tickets fault?) :
    said (y.step disk (.gather job.id)).2 = [] ∨
      (∃ fault, fault? = some fault ∧
        Resumes y job (y.catalog, .fail fault) (y.step disk (.gather job.id))) ∨
      ∃ found, y.foundBy tickets = some found ∧
        Resumes y job (y.catalog.finishScan scan found) (y.step disk (.gather job.id)) := by
  cases fault? with
  | none =>
      rcases h.gather_turn disk hj hw with hquiet | hfound
      · exact .inl (by rw [hquiet]; rfl)
      · exact .inr (.inr hfound)
  | some fault =>
      have hstep : y.step disk (.gather job.id) =
          (y.dropEnded job.wait.tickets).resume disk job fun c => (c, .fail fault) := by
        simp only [Indexer.step, h.find?_id hj, takeReads, hw, Wait.tickets]
      refine .inr (.inl ⟨fault, rfl, ?_⟩)
      rw [hstep]
      exact h.resumes disk hj (h.frees_dropEnded hj) (fun c => (c, .fail fault)) [] rfl

/-- The reads that a scan waits for have found together what is in the texts that have come in for
it. -/
theorem Sourced.of_foundBy {job : Job} (h : Sourced job.id x turns y) (hy : y.Sane)
    (hj : job ∈ y.jobs) {tickets : List Ticket} {fault? : Option Fault}
    (hw : job.wait = .reads scan tickets fault?) {found : List (Text × Option (List Note))}
    (hfound : y.foundBy tickets = some found) :
    found.map Prod.fst = tickets.map y.pathOf ∧
      ∀ entry ∈ found, ∃ text, x.Got turns job.id scan.vocabulary entry.1 text ∧
        (Catalog.examine scan.vocabulary entry.1 text).1 = .ok entry.2 := by
  refine ⟨(hy.of_foundBy hfound (hy.vocabulary_of_reads hj hw)).1.symm, fun entry he => ?_⟩
  obtain ⟨read, hr, ht, hpath, hnotes⟩ := exists_of_mem_foundBy hfound entry he
  have hwaits : read.ticket ∈ job.wait.tickets := by rwa [hw, Wait.tickets]
  obtain ⟨hjob, hkind⟩ := hy.mem_paths hr hj hwaits
  obtain ⟨text, hgot, heq⟩ := h.found read hr _ hnotes hjob
  rw [(hkind scan tickets fault? hw).1, hpath] at hgot heq
  exact ⟨text, hgot, heq.symm⟩

/-- What a scan goes on with after its reads was found in the texts that have come in for it. -/
theorem Sourced.gathers (h : Sourced id x turns y) (hy : y.Sane) {paths : List Text}
    (htask : ({ id, request, next := .read scan paths } : Task) ∈ y.tasks)
    (hsteps : Steps y last id request step) (hm : last.move = .gather id) :
    Task.announcement { id, request, next := step.2 } = [] ∨
      (∃ v path text fault, x.Got turns id v path text ∧
        (Catalog.examine v path text).1 = .error fault ∧ step.2 = .fail fault) ∨
      ∃ found, found.map Prod.fst = paths ∧
        (∀ entry ∈ found, ∃ text, x.Got turns id scan.vocabulary entry.1 text ∧
          (Catalog.examine scan.vocabulary entry.1 text).1 = .ok entry.2) ∧
        step.1 = (y.catalog.finishScan scan found).1 ∧
        Task.announcement { id, request, next := step.2 } =
          Task.announcement { id, request, next := (y.catalog.finishScan scan found).2 } := by
  obtain ⟨job, hj, hjob⟩ := List.mem_map.1 htask
  obtain rfl : job.id = id := congrArg Task.id hjob
  have hrequest : job.request = request := congrArg Task.request hjob
  have hnext : y.nextOf job.wait = .read scan paths := congrArg Task.next hjob
  have hspoken : said (y.step last.disk (.gather job.id)).2 =
      Task.announcement { id := job.id, request, next := step.2 } := by
    rw [← hm]
    exact hsteps.said
  have hcatalog : (y.step last.disk (.gather job.id)).1.catalog = step.1 := by
    rw [← hm]
    exact hsteps.catalog
  obtain ⟨tickets, fault?, hw, rfl⟩ := exists_reads_of_nextOf hnext
  rcases hy.gather_cases last.disk hj hw with hquiet | ⟨fault, rfl, hresumes⟩ |
    ⟨found, hfound, hresumes⟩
  · exact .inl (hspoken.symm.trans hquiet)
  · obtain ⟨v, path, text, hgot, hexamine⟩ := h.noted job hj rfl fault (by rw [hw]; rfl)
    refine .inr (.inl ⟨v, path, text, fault, hgot, hexamine, ?_⟩)
    exact (announcement_eq_fail (hspoken.symm.trans hresumes.said)).2
  · obtain ⟨hpaths, hgot⟩ := h.of_foundBy hy hj hw hfound
    refine .inr (.inr ⟨found, hpaths, hgot, hcatalog.symm.trans hresumes.catalog, ?_⟩)
    refine hspoken.symm.trans (hresumes.said.trans ?_)
    rw [← hrequest]
    rfl

/-- An update goes on with the text that it waits for. -/
theorem Sane.update_resumes (h : y.Sane) (disk : Disk) {job : Job} (hj : job ∈ y.jobs)
    {update : Catalog.Update} {read : Read} (hw : job.wait = .update update read.ticket)
    (hr : read ∈ y.reads) (hrunning : read.isRunning = true)
    (text : Except Document.Fault Text) :
    Resumes y job
      (y.catalog.afterRead update (Catalog.examine update.vocabulary update.path text).1)
      (y.step disk (.text read.ticket text)) := by
  have hwaits : read.ticket ∈ job.wait.tickets := by simp [hw, Wait.tickets]
  have hjob := h.find?_waitsFor hj hwaits
  have hsome : y.updateFor? read.ticket = some update := by
    simp only [updateFor?, find?_running h.tickets hr hrunning, hjob, hw]
  rcases h.text_cases disk read.ticket text with
    ⟨hnone, -⟩ | ⟨other, own, hfound, -, hown, hresumes⟩
  · cases hnone.symm.trans hsome
  · cases hfound.symm.trans hjob
    cases hown.symm.trans hsome
    exact hresumes

/-- The update for which a text is read has a read under way. -/
theorem exists_running_of_updateFor? {ticket : Ticket} {update : Catalog.Update}
    (h : y.updateFor? ticket = some update) :
    ∃ read ∈ y.reads, read.ticket = ticket ∧ read.isRunning = true := by
  unfold updateFor? at h
  split at h
  · cases h
  · rename_i read hread
    have hfound := List.find?_some hread
    simp only [Bool.and_eq_true, decide_eq_true_eq] at hfound
    exact ⟨read, List.mem_of_find?_eq_some hread, hfound⟩

/-- A call at work that fails in a turn has a cause for it. -/
theorem Sourced.cause (h : Sourced id x before (x.run before)) (hy : (x.run before).Sane)
    {next : Next} (htask : ({ id, request, next } : Task) ∈ (x.run before).tasks)
    (hwork : next.isWork)
    (hproceeds : Proceeds last.move (x.run before).catalog { id, request, next } step)
    (hsteps : Steps (x.run before) last id request step) {fault : Fault}
    (hfails : step.2 = .fail fault) : Cause x (before ++ [last]) id fault := by
  have hmem : last ∈ before ++ [last] := List.mem_append_right _ (List.mem_singleton_self _)
  have hgoes : before <+: before ++ [last] := List.prefix_append _ _
  have hspoken : said ((x.run before).effects last) = [.finish id (.error fault)] := by
    rw [hsteps.said, hfails]
    rfl
  generalize hmove : last.move = move at hproceeds
  cases hproceeds with
  | loadFailed flaw => exact hwork.elim
  | loaded settings => exact hwork.elim
  | told => exact hwork.elim
  | listFailed flaw =>
      cases hfails
      exact .listing last hmem flaw hmove
  | listed paths =>
      unfold Catalog.readFiles at hfails
      split at hfails
      · exact absurd hfails (Catalog.finishScan_ne_fail _ _ _ _)
      · cases hfails
  | gatherFailed flaw =>
      rcases h.gathers hy htask hsteps hmove with hnone | ⟨v, path, text, other, hgot, hex, heq⟩ |
        ⟨found, -, -, -, hfinish⟩
      · cases hnone
      · cases heq.symm.trans hfails
        exact (hgot.mono hgoes).cause hex
      · exact absurd (announcement_eq_fail hfinish.symm).2 (Catalog.finishScan_ne_fail _ _ _ _)
  | gathered found hfound => exact absurd hfails (Catalog.finishScan_ne_fail _ _ _ _)
  | updated ticket text =>
      rcases hy.text_cases last.disk ticket text with
        ⟨-, -, -, -, hquiet⟩ | ⟨job, update, hfind, hw, hsome, hresumes⟩
      · rw [effects, hmove, hquiet] at hspoken
        cases hspoken
      · rw [effects, hmove, hresumes.said] at hspoken
        obtain ⟨hid, hfault⟩ := announcement_eq_fail hspoken
        obtain ⟨read, hr, rfl, hrunning⟩ := exists_running_of_updateFor? hsome
        have hj := List.mem_of_find?_eq_some hfind
        have hwaits : read.ticket ∈ job.wait.tickets := by simp [hw, Wait.tickets]
        obtain ⟨hvocabulary, hpath⟩ := hy.of_update hr hj hw
        have hgot := got_of_turn hr hrunning ((hy.mem_paths hr hj hwaits).1.trans hid) hmove
        refine hgot.cause ?_
        rw [hvocabulary, hpath]
        exact Catalog.eq_error_of_afterRead_eq_fail hfault

/-- A call from its beginning on, with nothing read for it before. -/
structure Launches (x : Indexer) (id : JobId) (request : Request) (turn : Turn) (rest : List Turn) :
    Prop where
  legal : Legal x (turn :: rest)
  move : turn.move = .start id [request]
  unread : ∀ read ∈ x.reads, read.job ≠ id
  loads : ¬ x.catalog.Loads request

/-- No job is there for a call that is still to begin. -/
theorem Launches.unheld (h : Launches x id request turn rest) : ∀ job ∈ x.jobs, job.id ≠ id := by
  intro job hj hid
  have hfree : job.id ∉ (turn :: rest).filterMap Turn.started? :=
    h.legal.apart (x.taskOf job) (List.mem_map_of_mem hj)
  exact hfree (hid ▸ mem_started_of_move h.move)

/-- Whatever part of the run is over, the rest is in order. -/
theorem Launches.right (h : Launches x id request turn rest)
    (hturns : turn :: rest = before ++ more) : Legal (x.run before) more := by
  have hlegal := h.legal
  rw [hturns] at hlegal
  exact hlegal.right

/-- A call from its beginning on can be looked at up to any moment. -/
theorem Launches.left (h : Launches x id request turn rest)
    (hturns : turn :: rest = turn :: before ++ more) : Launches x id request turn before where
  legal := by
    have hlegal := h.legal
    rw [hturns] at hlegal
    exact hlegal.left
  move := h.move
  unread := h.unread
  loads := h.loads

/-- What such a call meets is told turn by turn. -/
theorem Launches.fares (h : Launches x id request turn rest) : Fares id request x (turn :: rest) :=
  h.legal.fares_of_start h.move h.loads

/-- All that it has found comes from texts that have come in for it. -/
theorem Launches.sourced (h : Launches x id request turn rest) (hbefore : before <+: turn :: rest) :
    Sourced id x before (x.run before) := by
  obtain ⟨later, hlater⟩ := hbefore
  exact (hlater ▸ h.legal).left.sourced h.unread h.unheld

/-- Whatever has happened since, a call that goes on is at work, or it has told of new notes. -/
theorem Launches.proceeds (h : Launches x id request turn rest)
    (hturns : turn :: rest = before ++ last :: later) (hne : heardIn id (x.run before) last ≠ []) :
    (before = [] ∧ Steps x turn id request (x.catalog.begin turn.disk request)) ∨
      ∃ next step, ({ id, request, next } : Task) ∈ (x.run before).tasks ∧
        (next.isWork ∨ next = .tell .notesUpdated) ∧
        Proceeds last.move (x.run before).catalog { id, request, next } step ∧
        Steps (x.run before) last id request step := by
  cases before with
  | nil => exact .inl ⟨rfl, h.legal.begun h.move⟩
  | cons first before =>
      obtain ⟨rfl, hrest⟩ := List.cons.inj hturns
      have hlast := h.right hturns
      rcases hlast.next.2.own id with ⟨-, hsilent⟩ | ⟨requests, hm⟩ |
        ⟨task, step, hm, hid, hp, hsteps⟩
      · exact absurd hsilent hne
      · refine absurd ?_ (h.legal.free_of_start h.move)
        have hsplit : rest = before ++ last :: later := hrest
        rw [hsplit, List.filterMap_append]
        exact List.mem_append_right _ (mem_started_of_move hm)
      · have htask := hlast.sane.taskAt?_of_mem hm
        rw [hid] at htask
        cases (h.left hturns).fares with
        | works next hnext work silent leaves =>
            obtain rfl := Option.some.inj (hnext.symm.trans htask)
            exact .inr ⟨next, step, hm, .inl work, hp, hsteps⟩
        | ends answer gone heard leaves => cases gone.symm.trans htask
        | told idle heard =>
            obtain rfl := idle task htask
            exact .inr ⟨_, step, hm, .inr rfl, hp, hsteps⟩

/-- **Four causes.**  A call that fails has a cause for it. -/
theorem Launches.cause (h : Launches x id request turn rest) {fault : Fault}
    (hfails : Effect.finish id (.error fault) ∈ heard id x (turn :: rest)) :
    Cause x (turn :: rest) id fault := by
  obtain ⟨before, last, later, hturns, hin⟩ := exists_of_mem_heard hfails
  have hof : ∀ {step : Catalog × Next}, Steps (x.run before) last id request step →
      step.2 = .fail fault :=
    fun hsteps => eq_fail_of_mem (hsteps.heardIn_self ▸ hin)
  rcases h.proceeds hturns (List.ne_nil_of_mem hin) with
    ⟨rfl, hsteps⟩ | ⟨next, step, htask, hstage, hproceeds, hsteps⟩
  · obtain ⟨rfl, -⟩ := List.cons.inj hturns
    obtain ⟨path, flaw, rfl, rfl, hrefused⟩ := Catalog.begin_fails (hof hsteps)
    exact .acceptance turn List.mem_cons_self path flaw h.move hrefused
  · have hbefore : before ++ [last] <+: turn :: rest := ⟨later, by rw [hturns]; simp⟩
    rcases hstage with hwork | rfl
    · have hsourced := h.sourced ((List.prefix_append _ _).trans hbefore)
      exact (hsourced.cause (h.right hturns).sane htask hwork hproceeds hsteps (hof hsteps)).mono
        hbefore
    · have hnext := hof hsteps
      generalize last.move = move at hproceeds
      cases hproceeds
      cases hnext

/-! ## Files that cannot be read -/

/-- Whenever a scan of a call is merged, the files that cannot be read are left out: it is merged as
if they had not been listed. -/
def LeavesOut (id : JobId) (x : Indexer) (turns : List Turn) : Prop :=
  ∀ before last later, turns = before ++ last :: later → ∀ task scan,
    (x.run before).taskAt? id = some task → task.next.scan? = some scan →
      Effect.tell id .notesUpdated ∈ heardIn id (x.run before) last →
        ∃ texts : List (Text × Except Document.Fault Text),
          texts.map Prod.fst = task.next.paths ∧
          (∀ given ∈ texts, x.Got before id scan.vocabulary given.1 given.2 ∧
            Catalog.Extracted scan.vocabulary given) ∧
          ((x.run before).after last).catalog =
            merged (x.run before).catalog scan (Catalog.notesOf scan.vocabulary texts)

/-- If the file that a call waits for to update it cannot be read, the call changes nothing and ends
without a word. -/
def PassesOver (id : JobId) (request : Request) (x : Indexer) (turns : List Turn) : Prop :=
  ∀ before last later, turns = before ++ last :: later → ∀ job ∈ (x.run before).jobs, job.id = id →
    ∀ read ∈ (x.run before).reads, read.isRunning = true →
      ∀ update, job.wait = .update update read.ticket →
        ∀ fault, last.move = .text read.ticket (.error fault) → fault.isRaised = false →
          ((x.run before).after last).catalog = (x.run before).catalog ∧
            heard id x turns = [.finish id (.ok (answerTo request true))] ∧
            Along (LeavesIndex id) x turns

/-- A scan that has observers told has been merged. -/
theorem merged_of_tells {found : List (Text × Option (List Note))} {topic : Topic}
    (h : (c.finishScan scan found).2 = .tell topic) :
    (c.finishScan scan found).1 = merged c scan found := by
  unfold Catalog.finishScan at h ⊢
  split
  · rename_i hstale
    rw [if_pos hstale] at h
    cases h
  · rfl

/-- A merge of what was found in texts does not depend on those that could not be read. -/
theorem exists_texts_merged {found : List (Text × Option (List Note))} {d : Catalog}
    (hfound : ∀ entry ∈ found, ∃ text, x.Got turns id scan.vocabulary entry.1 text ∧
      (Catalog.examine scan.vocabulary entry.1 text).1 = .ok entry.2)
    (hmerged : d = merged c scan found) :
    ∃ texts : List (Text × Except Document.Fault Text), texts.map Prod.fst = found.map Prod.fst ∧
      (∀ given ∈ texts, x.Got turns id scan.vocabulary given.1 given.2 ∧
        Catalog.Extracted scan.vocabulary given) ∧
      d = merged c scan (Catalog.notesOf scan.vocabulary texts) := by
  obtain ⟨texts, hnames, hgiven, heq⟩ := Catalog.exists_texts scan.keepEmpty hfound
  refine ⟨texts, hnames, hgiven, ?_⟩
  rw [hmerged, merged, heq, merged]

/-- Files that cannot be read are left out of what is merged. -/
theorem Launches.leavesOut (h : Launches x id request turn rest) :
    LeavesOut id x (turn :: rest) := by
  intro before last later hturns task scan hat hscan htold
  have hlegal := h.right hturns
  have hsourced : Sourced id x before (x.run before) :=
    h.sourced ⟨last :: later, hturns.symm⟩
  rcases h.proceeds hturns (List.ne_nil_of_mem htold) with
    ⟨rfl, -⟩ | ⟨next, step, htask, -, hproceeds, hsteps⟩
  · exact absurd hat (by rw [run_nil, h.legal.fresh (by rw [Turn.started?, h.move])]; simp)
  obtain rfl := Option.some.inj ((hlegal.sane.taskAt?_of_mem htask).symm.trans hat)
  have htells : step.2 = .tell .notesUpdated := eq_tell_of_mem (hsteps.heardIn_self ▸ htold)
  generalize hmove : last.move = move at hproceeds
  cases hproceeds with
  | loadFailed fault => cases hscan
  | loaded settings => cases hscan
  | told => cases hscan
  | updated ticket text => cases hscan
  | listFailed fault => cases htells
  | gatherFailed fault => cases htells
  | listed paths =>
      cases hscan
      have hcatalog := hsteps.catalog
      unfold Catalog.readFiles at htells hcatalog
      split at htells
      · rename_i hempty
        rw [if_pos hempty] at hcatalog
        exact exists_texts_merged (by simp) (hcatalog.trans (merged_of_tells htells))
      · cases htells
  | gathered _ _ =>
      cases hscan
      rcases hsourced.gathers hlegal.sane htask hsteps hmove with hnone |
        ⟨v, path, text, fault, -, -, hfails⟩ | ⟨found, hpaths, hfound, hcatalog, hspoken⟩
      · rw [htells] at hnone
        cases hnone
      · cases htells.symm.trans hfails
      · rw [htells] at hspoken
        have hfinish := (announcement_eq_tell hspoken.symm).2
        have hmerged := hsteps.catalog.trans (hcatalog.trans (merged_of_tells hfinish))
        obtain ⟨texts, hnames, hgiven⟩ := exists_texts_merged hfound hmerged
        exact ⟨texts, hnames.trans hpaths, hgiven⟩

/-- The update of a file that cannot be read ends, and changes nothing. -/
theorem Launches.passesOver (h : Launches x id request turn rest) :
    PassesOver id request x (turn :: rest) := by
  rintro before last later hturns job hj rfl read hr hrunning update hw fault hmove hpassed
  have hlegal := h.right hturns
  have hmem : (x.run before).taskOf job ∈ (x.run before).tasks := List.mem_map_of_mem hj
  have hat : (x.run before).taskAt? job.id = some ((x.run before).taskOf job) :=
    hlegal.sane.taskAt?_of_mem hmem
  have hnext : ((x.run before).taskOf job).next = .update update := by
    rw [taskOf, hw]
    rfl
  -- The call is still at work, so nothing was heard of it.
  obtain ⟨hrequest, hsilent⟩ : job.request = request ∧ heard job.id x before = [] := by
    cases before with
    | nil => exact absurd rfl (h.unheld job hj)
    | cons first before =>
        obtain ⟨rfl, -⟩ := List.cons.inj hturns
        cases (h.left hturns).fares with
        | works next task work silent leaves =>
            exact ⟨congrArg Task.request (Option.some.inj (hat.symm.trans task)), silent⟩
        | ends answer gone heard leaves => cases gone.symm.trans hat
        | told idle heard =>
            have hidle := congrArg Task.next (idle _ hat)
            cases hnext.symm.trans hidle
  have hexamine : (Catalog.examine update.vocabulary update.path (.error fault)).1 = .ok none := by
    simp [Catalog.examine, hpassed]
  have hsteps : Steps (x.run before) last job.id job.request
      ((x.run before).catalog, .done true) := by
    have hresumes := hlegal.sane.update_resumes last.disk hj hw hr hrunning (.error fault)
    rw [hexamine, ← hmove] at hresumes
    exact hresumes.steps
  have hnone : ((x.run before).after last).taskAt? job.id = none := by
    rw [hsteps.taskAt?, if_pos rfl]
    rfl
  have hover := heard_of_over hlegal.next.1 hnone fun hs =>
    hlegal.apart _ hmem (mem_started_cons hs)
  have hheard : heard job.id x (turn :: rest) = [.finish job.id (.ok (answerTo request true))] := by
    rw [hturns, heard_append, hsilent, heard, hsteps.heardIn_self, hover, hrequest]
    rfl
  refine ⟨hsteps.catalog, hheard, ?_⟩
  cases h.fares with
  | works next task work silent leaves => exact leaves
  | ends answer gone heard leaves => exact leaves
  | told idle heard => rcases heard with heard | heard <;> simp [heard] at hheard

/-! ## Failures write nothing -/

/-- Once no read of a call is under way, it has given back all permits that it has taken. -/
theorem Launches.returned (h : Launches x id request turn rest) {middle : List Turn}
    (hended : ∀ read ∈ (x.run middle).reads, read.job = id → read.isRunning = false) :
    taken (· = id) x middle = Indexer.returned (· = id) x middle := by
  have hzero : ∀ y : Indexer, (∀ read ∈ y.reads, read.job = id → read.isRunning = false) →
      inUse (· = id) y = 0 := by
    intro y hy
    refine List.countP_eq_zero.2 fun read hm => ?_
    by_cases hjob : read.job = id
    · simp [hy read hm hjob]
    · simp [hjob]
  have hbalance := balance (· = id) x middle
  rw [hzero x fun read hm hjob => absurd hjob (h.unread read hm), hzero _ hended] at hbalance
  omega

/-- **Failures write nothing.**  However calls are interleaved, one that loads no settings and fails
has not changed the index, nothing else was heard of it, and there is a cause for it; the lock is
free after each turn, and when no read of the call is under way it has given back all permits that
it has taken.  A file that cannot be read is no such cause, whatever bytes it holds: a scan is
merged without it, and an update of it changes nothing and ends without a word. -/
theorem failures_write_nothing {limit : Int} (hcalls : Calls turns)
    (hturns : turns = before ++ turn :: rest) (hx : (ofCatalog c limit).run before = x)
    (hm : turn.move = .start id [request]) (hloads : ¬ x.catalog.Loads request) :
    (∀ fault, Effect.finish id (.error fault) ∈ heard id x (turn :: rest) →
      Along (LeavesIndex id) x (turn :: rest) ∧
        heard id x (turn :: rest) = [.finish id (.error fault)] ∧
          Cause x (turn :: rest) id fault) ∧
    (∀ past, past <+: turns →
      Guarded.run (ofCatalog c limit) past (.free c) =
        some (.free ((ofCatalog c limit).run past).catalog)) ∧
    (∀ middle, middle <+: turn :: rest →
      (∀ read ∈ (x.run middle).reads, read.job = id → read.isRunning = false) →
        taken (· = id) x middle = returned (· = id) x middle) ∧
    (∀ past, past <+: turns →
      taken (fun _ => true) (ofCatalog c limit) past =
        returned (fun _ => true) (ofCatalog c limit) past +
          running ((ofCatalog c limit).run past).reads ∧
      (running ((ofCatalog c limit).run past).reads : Int) ≤ max 1 limit) ∧
    LeavesOut id x (turn :: rest) ∧ PassesOver id request x (turn :: rest) ∧
    (∀ disk path fault, Document.read disk path = .error fault →
      (fault.isRaised = true ↔
        ∃ flaw, disk.read path = .error flaw ∧ flaw.isMalformedPath = true)) := by
  subst hturns hx
  have hlegal := hcalls.legal c limit
  -- The call has read nothing yet, so it takes all its permits in the run from there on.
  have hlaunches : Launches ((ofCatalog c limit).run before) id request turn rest :=
    ⟨hlegal.right, hm, hcalls.unread c limit hm, hloads⟩
  refine ⟨fun fault hfails => ?_, fun past hpast => ?_, fun middle _ hended => ?_,
    fun past _ => ⟨?_, ?_⟩, hlaunches.leavesOut, hlaunches.passesOver,
    fun _ _ _ => Document.isRaised_iff⟩
  · obtain ⟨hheard, hleaves⟩ := hlaunches.fares.of_fails hfails
    exact ⟨hleaves, hheard, hlaunches.cause hfails⟩
  · obtain ⟨later, hlater⟩ := hpast
    exact Guarded.run_free (hlater ▸ hlegal).left
  · exact hlaunches.returned hended
  · have hbalance := balance (fun _ => true) (ofCatalog c limit) past
    have hnone : running (ofCatalog c limit).reads = 0 := rfl
    rw [inUse_all, inUse_all, hnone, Nat.zero_add] at hbalance
    exact hbalance
  · obtain ⟨⟨hwithin, -⟩, hsame⟩ := (paced_ofCatalog c limit).run past
    have hlimit : (ofCatalog c limit).limit = max 1 limit.toNat := rfl
    rw [hsame, hlimit] at hwithin
    omega

/-! ## A scan that fails while another call goes on -/

open Catalog (opened)

/-- A scan that finds a note. -/
def notedScan : List Turn :=
  [.start 1 [.rescan], .list 1 (.ok ["/p/a.py"]), .text 0 (.ok "# TODO: a\n"), .gather 1,
    .told 1].map turnOf

/-- Another scan, one of the files of which cannot even be asked for.  A file is deleted meanwhile,
and another read of the scan is still under way when it fails. -/
def brokenScan : List Turn :=
  [.start 2 [.rescan], .list 2 (.ok ["/p/a.py", "/p/b.py"]), .text 1 (.error (.disk .nullInPath)),
    .start 3 [.file (.deleted "/p/a.py")], .gather 2, .told 3,
      .text 2 (.ok "# TODO: b\n")].map turnOf

/-- Whether an effect ends a call with a certain fault. -/
def Effect.fails (id : JobId) (fault : Fault) : Effect → Bool
  | .finish job (.error other) => job = id && other = fault
  | _ => false

/-- An effect that ends a call with a fault is this one. -/
theorem Effect.eq_of_fails {effect : Effect} {fault : Fault} (h : effect.fails id fault = true) :
    effect = .finish id (.error fault) := by
  rcases effect with _ | _ | _ | ⟨job, other | answer⟩
  all_goals simp_all [Effect.fails]

/-- The calls of these runs are in order. -/
theorem calls_brokenScan : Calls (notedScan ++ brokenScan) := by
  decide

/-- How the second scan goes, and what becomes of the index meanwhile. -/
theorem brokenScan_runs :
    (((ofCatalog opened 8).run notedScan).catalog.index.paths = [("/p/a.py" : Text)] ∧
      (((ofCatalog opened 8).run notedScan).run brokenScan).catalog.index.paths = []) ∧
      (heard 2 ((ofCatalog opened 8).run notedScan) brokenScan).any
        (Effect.fails 2 (.document (.disk .nullInPath))) = true ∧
      (∀ read ∈ (((ofCatalog opened 8).run notedScan).run brokenScan).reads,
        read.isRunning = false) ∧
      taken (· = 2) ((ofCatalog opened 8).run notedScan) brokenScan = 2 := by
  rw [Catalog.opened_eq]
  decide +kernel

/-- The index has changed while the second scan was under way, but not by it: that scan has failed
without a word, and both of its permits are back. -/
theorem failures_write_nothing_brokenScan :
    (((ofCatalog opened 8).run notedScan).catalog.index.paths = [("/p/a.py" : Text)] ∧
      (((ofCatalog opened 8).run notedScan).run brokenScan).catalog.index.paths = []) ∧
      Along (LeavesIndex 2) ((ofCatalog opened 8).run notedScan) brokenScan ∧
      heard 2 ((ofCatalog opened 8).run notedScan) brokenScan =
        [.finish 2 (.error (.document (.disk .nullInPath)))] ∧
      Cause ((ofCatalog opened 8).run notedScan) brokenScan 2 (.document (.disk .nullInPath)) ∧
      returned (· = 2) ((ofCatalog opened 8).run notedScan) brokenScan = 2 := by
  obtain ⟨hindex, hfaults, hended, htaken⟩ := brokenScan_runs
  obtain ⟨hfailing, -, hreturned, -⟩ := failures_write_nothing calls_brokenScan rfl
    (rfl : (ofCatalog opened 8).run notedScan = _) rfl (fun hloads => hloads)
  have hfails : Effect.finish 2 (.error (.document (.disk .nullInPath))) ∈
      heard 2 ((ofCatalog opened 8).run notedScan) brokenScan := by
    obtain ⟨effect, hm, hends⟩ := List.any_eq_true.1 hfaults
    exact Effect.eq_of_fails hends ▸ hm
  obtain ⟨hleaves, hheard, hcause⟩ := hfailing _ hfails
  have hback := hreturned brokenScan (List.prefix_refl _) fun read hm _ => hended read hm
  exact ⟨hindex, hleaves, hheard, hcause, hback.symm.trans htaken⟩

end Indexer

end Marginalia
