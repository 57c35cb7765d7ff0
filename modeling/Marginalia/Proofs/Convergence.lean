import Marginalia.Proofs.Events

/-!
# Events that overlap

What becomes of a file while events on it come in, and nothing else does.  Each event that takes
hold determines the notes of the file (`Indexer.verdict?`), and in the end the index holds what the
last one has determined (`Indexer.notesAt_run`).  That need not be the event that came in last: the
text of a file is read at some moment after its event has come in (`Indexer.Sampled`), and until the
update takes hold the file may be changed again and other events may overtake it.

The event that came in last, with no change of the disk after it, determines the notes that the file
has in the end.  So if no earlier read is under way when it comes in, the index holds those notes;
otherwise it is a matter of which update takes hold last
(`Indexer.overlapping_events_converge_iff`).  An update that comes too late is not told from others:
no epoch and no generation has begun (`Indexer.late_read_is_believed`).
-/

namespace Marginalia

namespace Catalog

/-- The notes of a file as it is on a disk: there are none if it is not there or not accepted, and
of a file that cannot be read they are not known. -/
def notesOn? (c : Catalog) (disk : Disk) (path : Text) : Option (List Note) :=
  match c.workspace.accepts disk path with
  | .ok false => some []
  | .ok true => (c.workspace.read disk path).toOption.bind fun text =>
      (c.vocabulary.notesIn path text).toOption
  | .error _ => none

/-- How an event on a file goes on: its update begins, observers are told, or it is over. -/
inductive EventNext (update : Update) : Next → Prop
  | update : EventNext update (.update update)
  | tell : EventNext update (.tell .notesUpdated)
  | done (complete : Bool) : EventNext update (.done complete)
  | fail (fault : Fault) : EventNext update (.fail fault)

variable {c d : Catalog} {disk : Disk} {path : Text} {notes : List Note} {update : Update}

/-- What an event goes on with is no reload. -/
theorem EventNext.not_isReload {next : Next} (h : EventNext update next) : ¬ next.isReload := by
  cases h <;> exact id

/-- An update that begins keeps what catalogs that differ in their notes have alike. -/
theorem Alike.newUpdate (h : c.Alike d) (path : Text) : d.newUpdate path = c.newUpdate path := by
  rw [Catalog.newUpdate, Catalog.newUpdate, h.generation, h.epoch, h.vocabulary]

/-- So it does not come too late while nothing else changes. -/
theorem Alike.isStale_newUpdate (h : c.Alike d) (path : Text) :
    d.isStale (c.newUpdate path) = false := by
  rw [← h.newUpdate]
  exact Catalog.isStale_newUpdate d path

/-- A file that is not accepted has no notes to be shown. -/
theorem notes_eq_nil_of_rejected (h : c.notesOn? disk path = some notes)
    (ha : c.workspace.accepts disk path = .ok false) : notes = [] := by
  rw [notesOn?, ha] at h
  exact (Option.some.inj h).symm

/-- A file that is accepted has the notes of its text. -/
theorem text_of_accepted (h : c.notesOn? disk path = some notes)
    (ha : c.workspace.accepts disk path = .ok true) :
    ∃ text, c.workspace.read disk path = .ok text ∧ c.vocabulary.notesIn path text = .ok notes := by
  rw [notesOn?, ha] at h
  cases hr : c.workspace.read disk path with
  | error fault => simp [hr, Except.toOption] at h
  | ok text =>
      refine ⟨text, rfl, ?_⟩
      cases hn : c.vocabulary.notesIn path text with
      | error fault => simp [hr, hn, Except.toOption] at h
      | ok found => simpa [hr, hn, Except.toOption] using h

/-- The first step of a modification. -/
theorem beginUpdate_event (c : Catalog) (disk : Disk)
    (hfile : c.workspace.isSettingsFile path = false) :
    (c.beginUpdate disk path).1.generation = c.generation ∧
      EventNext (c.newUpdate path) (c.beginUpdate disk path).2 := by
  unfold beginUpdate
  rw [if_neg (by simp [hfile])]
  cases c.workspace.accepts disk path with
  | error fault => exact ⟨rfl, .fail _⟩
  | ok accepted =>
      cases accepted with
      | false =>
          refine ⟨rfl, ?_⟩
          show EventNext _ (if c.index.contains path then .tell .notesUpdated else .done true)
          split
          · exact .tell
          · exact .done true
      | true =>
          simp only
          split
          · exact ⟨rfl, .done true⟩
          · exact ⟨rfl, .update⟩

/-- The only step of a deletion. -/
theorem deleteFile_event (c : Catalog) (hfile : c.workspace.isSettingsFile path = false) :
    (c.deleteFile path).1.generation = c.generation ∧
      EventNext (c.newUpdate path) (c.deleteFile path).2 := by
  unfold deleteFile
  rw [if_neg (by simp [hfile])]
  split
  · exact ⟨rfl, .tell⟩
  · exact ⟨rfl, .done true⟩

end Catalog

namespace Indexer

open Catalog (EventNext Next)

variable {x : Indexer} {c : Catalog} {turn : Turn} {rest turns : List Turn} {id : JobId}
  {path : Text} {notes : List Note} {past : List Turn} {disk : Disk}

/-! ## Texts that are read in time -/

/-- The disks since a call has begun. -/
def disksSince (id : JobId) (turns : List Turn) : List Disk :=
  (turns.dropWhile (·.started? ≠ some id)).map (·.disk)

/-- Whether a text was that of the file on one of some disks, if it is the one that is waited
for. -/
def Wait.ReadFrom (w : Workspace) (disks : List Disk) (ticket : Ticket)
    (text : Except Document.Fault Text) : Wait → Prop
  | .update u own => own = ticket → ∃ disk ∈ disks, text = w.read disk u.path
  | _ => True

/-- The text that comes in for an update in a turn was that of the file at some moment between the
beginning of its call and now; `past` are the turns so far. -/
def SampledAt (past : List Turn) (x : Indexer) (turn : Turn) : Prop :=
  match turn.move with
  | .text ticket text => ∀ job ∈ x.jobs,
      job.wait.ReadFrom x.catalog.workspace (disksSince job.id (past ++ [turn])) ticket text
  | _ => True

/-- Whether all texts for updates are read in time.  A disk that matters only in between can be that
of a turn in which nothing happens. -/
def Sampled : List Turn → Indexer → List Turn → Prop
  | _, _, [] => True
  | past, x, turn :: rest => SampledAt past x turn ∧ Sampled (past ++ [turn]) (x.after turn) rest

instance (w : Workspace) (disks : List Disk) (ticket : Ticket) (text : Except Document.Fault Text) :
    (wait : Wait) → Decidable (wait.ReadFrom w disks ticket text)
  | .update update own => inferInstanceAs (Decidable (own = ticket →
      ∃ disk ∈ disks, text = w.read disk update.path))
  | .settings => .isTrue trivial
  | .list _ => .isTrue trivial
  | .reads _ _ _ => .isTrue trivial
  | .observers _ => .isTrue trivial

instance (past : List Turn) (x : Indexer) : (turn : Turn) → Decidable (SampledAt past x turn)
  | ⟨disk, .text ticket text⟩ => inferInstanceAs (Decidable (∀ job ∈ x.jobs,
      job.wait.ReadFrom x.catalog.workspace
        (disksSince job.id (past ++ [⟨disk, .text ticket text⟩])) ticket text))
  | ⟨_, .start _ _⟩ => .isTrue trivial
  | ⟨_, .settings _ _⟩ => .isTrue trivial
  | ⟨_, .list _ _⟩ => .isTrue trivial
  | ⟨_, .gather _⟩ => .isTrue trivial
  | ⟨_, .told _⟩ => .isTrue trivial

instance Sampled.instDecidable :
    (past : List Turn) → (x : Indexer) → (turns : List Turn) → Decidable (Sampled past x turns)
  | _, _, [] => .isTrue trivial
  | past, x, turn :: rest =>
    have := Sampled.instDecidable (past ++ [turn]) (x.after turn) rest
    inferInstanceAs
      (Decidable (SampledAt past x turn ∧ Sampled (past ++ [turn]) (x.after turn) rest))

/-- Whether the calls of a run are events on one file. -/
def EventsOn (w : Workspace) (path : Text) (turns : List Turn) : Prop :=
  ∀ turn ∈ turns, ∀ id requests, turn.move = .start id requests → ∃ file,
    w.normalize file = path ∧
      (requests = [.file (.modified file)] ∨ requests = [.file (.deleted file)])

/-- What is sampled over a run is sampled over its parts. -/
theorem sampled_append {more : List Turn} :
    Sampled past x (turns ++ more) ↔
      Sampled past x turns ∧ Sampled (past ++ turns) (x.run turns) more := by
  induction turns generalizing past x with
  | nil => simp [Sampled]
  | cons turn turns ih => simp [Sampled, ih, and_assoc]

/-- A text that comes in for an update was on the disk at some moment since the call began. -/
theorem SampledAt.text (h : SampledAt past x turn) {ticket : Ticket}
    {text : Except Document.Fault Text} (hm : turn.move = .text ticket text) {job : Job}
    (hj : job ∈ x.jobs) {update : Catalog.Update} (hw : job.wait = .update update ticket) :
    ∃ disk ∈ disksSince job.id (past ++ [turn]),
      text = x.catalog.workspace.read disk update.path := by
  rw [SampledAt, hm] at h
  have hjob := h job hj
  rw [hw] at hjob
  exact hjob rfl

/-- A turn adds its disk, once the call has begun. -/
theorem mem_disksSince_concat (h : disk ∈ disksSince id (past ++ [turn])) :
    disk ∈ disksSince id past ∨ disk = turn.disk := by
  rw [disksSince, List.dropWhile_append] at h
  split at h
  · obtain ⟨other, ho, rfl⟩ := List.mem_map.1 h
    rw [List.mem_singleton.1 ((List.dropWhile_sublist _).subset ho)]
    exact .inr rfl
  · rw [List.map_append, List.mem_append] at h
    exact h.imp_right List.mem_singleton.1

/-- Before a call begins there is no disk since then. -/
theorem disksSince_eq_nil (h : id ∉ past.filterMap Turn.started?) : disksSince id past = [] := by
  induction past with
  | nil => rfl
  | cons turn rest ih =>
      have hne : turn.started? ≠ some id := by
        intro hs
        rw [List.filterMap_cons_some hs] at h
        exact h List.mem_cons_self
      rw [disksSince, List.dropWhile_cons_of_pos (by simpa using hne)]
      exact ih fun hm => h (mem_started_cons hm)

/-! ## One file -/

/-- What holds while only events on one file come in: what is in force does not change, and calls
wait for the text of that file, or for observers. -/
structure Steady (c : Catalog) (path : Text) (x : Indexer) : Prop where
  alike : c.Alike x.catalog
  waits : ∀ task ∈ x.tasks, EventNext (c.newUpdate path) task.next

/-- The call of an event goes on as such. -/
theorem Proceeds.eventNext {move : Move} {task : Task} {step : Catalog × Next}
    {update : Catalog.Update} (hp : Proceeds move c task step) (h : EventNext update task.next) :
    EventNext update step.2 := by
  cases hp with
  | updated ticket text =>
      rcases (c.afterRead_kept _ _).2.2 with hn | hn | ⟨fault, hn⟩ <;> rw [hn]
      · exact .done true
      · exact .tell
      · exact .fail fault
  | @told _ _ _ topic =>
      cases topic with
      | settingsLoaded => cases h
      | notesUpdated => exact .done true
  | _ => cases h

/-- An indexer is steady at first, with nothing under way. -/
theorem steady_ofCatalog (c : Catalog) (limit : Int) (path : Text) :
    Steady c path (ofCatalog c limit) where
  alike := .refl c
  waits := by simp [ofCatalog, tasks]

/-- The text of a file that cannot be read changes nothing. -/
theorem Sane.eventTurn_fault (h : x.Sane) {ticket : Ticket} {fault : Document.Fault}
    (hm : turn.move = .text ticket (.error fault)) : EventTurn x turn := by
  refine .nothing ?_ fun path => by simp [verdict?, hm]
  rcases h.after_text hm with ⟨-, hcatalog⟩ | ⟨update, -, -, hcatalog⟩
  · exact hcatalog
  · rw [hcatalog, Catalog.examine]
    split <;> rfl

/-- In a turn an event begins or takes hold, or nothing happens. -/
theorem Steady.eventTurn (h : Steady c path x) (hlegal : Legal x (turn :: rest))
    (hfile : c.workspace.isSettingsFile path = false)
    (hevents : EventsOn c.workspace path (turn :: rest)) : EventTurn x turn := by
  have hother : (∀ who requests, turn.move ≠ .start who requests) →
      (∀ ticket text, turn.move ≠ .text ticket text) → EventTurn x turn := by
    intro hstart htext
    refine .nothing ?_ (verdict?_eq_none hstart htext)
    cases hlegal.next.2 with
    | quiet hc ht hs => exact hc
    | begun who request hm hnone hsteps => exact absurd hm (hstart _ _)
    | resumed task hm step hp hsteps =>
        rw [hsteps.catalog]
        have hnext := h.waits task hm
        generalize hmove : turn.move = move at hp
        cases hp with
        | updated ticket text => exact absurd hmove (htext _ _)
        | @told _ _ _ topic =>
            cases topic with
            | settingsLoaded => cases hnext
            | notesUpdated => rfl
        | _ => cases hnext
  cases hmove : turn.move with
  | start who requests =>
      obtain ⟨file, hpath, rfl | rfl⟩ := hevents turn List.mem_cons_self who requests hmove
      · refine eventTurn_modified hmove ?_
        have hcatalog : (x.after turn).catalog =
            (x.catalog.beginUpdate turn.disk (x.catalog.workspace.normalize file)).1 :=
          after_start hmove
        rw [hcatalog, h.alike.workspace, hpath]
        exact (x.catalog.beginUpdate_event _ (h.alike.workspace ▸ hfile)).1
      · refine eventTurn_deleted hmove ?_
        have hcatalog : (x.after turn).catalog =
            (x.catalog.deleteFile (x.catalog.workspace.normalize file)).1 := after_start hmove
        rw [hcatalog, h.alike.workspace, hpath]
        exact (x.catalog.deleteFile_event (h.alike.workspace ▸ hfile)).1
  | text ticket text =>
      cases text with
      | error fault => exact hlegal.sane.eventTurn_fault hmove
      | ok text => exact hlegal.sane.eventTurn_text hmove fun fault hf => by cases hf
  | settings who loaded => exact hother (by simp [hmove]) (by simp [hmove])
  | list who paths => exact hother (by simp [hmove]) (by simp [hmove])
  | gather who => exact hother (by simp [hmove]) (by simp [hmove])
  | told who => exact hother (by simp [hmove]) (by simp [hmove])

/-- Events alone keep it steady. -/
theorem Steady.after (h : Steady c path x) (hlegal : Legal x (turn :: rest))
    (hfile : c.workspace.isSettingsFile path = false)
    (hevents : EventsOn c.workspace path (turn :: rest)) : Steady c path (x.after turn) where
  alike := h.alike.trans (h.eventTurn hlegal hfile hevents).alike
  waits := by
    intro task hm
    cases hlegal.next.2.origin hm with
    | old _ hm => exact h.waits task hm
    | begun who request hmove hnone hsteps =>
        obtain ⟨file, hpath, he⟩ := hevents turn List.mem_cons_self who _ hmove
        have hworkspace := h.alike.workspace
        rcases he with he | he <;> cases he
        · show EventNext _ (x.catalog.beginUpdate turn.disk (x.catalog.workspace.normalize file)).2
          rw [hworkspace, hpath, ← h.alike.newUpdate]
          exact (x.catalog.beginUpdate_event _ (hworkspace ▸ hfile)).2
        · show EventNext _ (x.catalog.deleteFile (x.catalog.workspace.normalize file)).2
          rw [hworkspace, hpath, ← h.alike.newUpdate]
          exact (x.catalog.deleteFile_event (hworkspace ▸ hfile)).2
    | resumed prior hprior step hp hsteps => exact hp.eventNext (h.waits prior hprior)

/-- In a turn in which an event takes hold, the index comes to hold the notes that it determines. -/
theorem Steady.notesAt_after (h : Steady c path x) (ht : EventTurn x turn)
    (hin : c.workspace.inScope path = true) :
    (x.after turn).catalog.index.notesAt path =
      ((x.verdict? turn path).map Verdict.notes).getD (x.catalog.index.notesAt path) := by
  cases ht with
  | nothing hc hv => rw [hc, hv]; rfl
  | dropped file hc hv =>
      rw [hc, hv, Catalog.notesAt_drop]
      split <;> rfl
  | outside file hout hc hv =>
      have hne : path ≠ file := by
        rintro rfl
        rw [h.alike.workspace, hin] at hout
        cases hout
      rw [hc, hv, if_neg hne]
      rfl
  | updated update notes hm hc hv =>
      obtain ⟨task, hm, hnext⟩ := hm
      have hwaits := h.waits task hm
      rw [hnext] at hwaits
      cases hwaits
      have hpath : path = (c.newUpdate path).path := rfl
      rw [hc, hv, if_pos hpath]
      exact Catalog.notesAt_finishUpdate notes (h.alike.isStale_newUpdate path)

/-- The rest of a run of events is one. -/
theorem EventsOn.tail {w : Workspace} (h : EventsOn w path (turn :: rest)) : EventsOn w path rest :=
  fun other ho => h other (List.mem_cons_of_mem _ ho)

/-- So it is steady after any run of events. -/
theorem Steady.run (h : Steady c path x) (hlegal : Legal x turns)
    (hfile : c.workspace.isSettingsFile path = false) (hevents : EventsOn c.workspace path turns) :
    Steady c path (x.run turns) := by
  induction turns generalizing x with
  | nil => exact h
  | cons turn rest ih => exact ih (h.after hlegal hfile hevents) hlegal.next.1 hevents.tail

/-- **The last verdict counts.**  While only events on a file come in, the index holds what the last
one of them has determined that has taken hold. -/
theorem Steady.notesAt_run (h : Steady c path x) (hlegal : Legal x turns)
    (hin : c.workspace.inScope path = true) (hfile : c.workspace.isSettingsFile path = false)
    (hevents : EventsOn c.workspace path turns) :
    (x.run turns).catalog.index.notesAt path =
      ((verdicts path x turns).getLast?.map Verdict.notes).getD
        (x.catalog.index.notesAt path) := by
  induction turns generalizing x with
  | nil => rfl
  | cons turn rest ih =>
      have hturn := h.notesAt_after (h.eventTurn hlegal hfile hevents) hin
      rw [run_cons, ih (h.after hlegal hfile hevents) hlegal.next.1 hevents.tail, hturn, verdicts,
        List.getLast?_append]
      cases (verdicts path (x.after turn) rest).getLast? with
      | some verdict => rfl
      | none => cases x.verdict? turn path <;> rfl

/-! ## The event that came in last -/

/-- What comes of a turn in which no call begins: no update is concerned, or one is over.  If that
is the update of a certain call, and the disk has not changed since that call began, it determines
the notes that the file has on it. -/
inductive RestTurn (c : Catalog) (path : Text) (disk : Disk) (id : JobId) (x : Indexer)
    (turn : Turn) : Prop
  | idle (verdict : x.verdict? turn path = none)
      (kept : ∀ task ∈ x.tasks, task.next = .update (c.newUpdate path) →
        task ∈ (x.after turn).tasks)
  | read (task : Task) (mem : task ∈ x.tasks) (next : task.next = .update (c.newUpdate path))
      (own : task.id = id → ∀ text notes, c.workspace.read disk path = .ok text →
        c.vocabulary.notesIn path text = .ok notes → x.verdict? turn path = some (.found notes))
      (kept : ∀ other ∈ x.tasks, other.id ≠ task.id → other ∈ (x.after turn).tasks)

/-- No update begins in a turn in which no call does. -/
theorem Steady.mem_of_update (h : Steady c path x) (hlegal : Legal x (turn :: rest))
    (hstart : turn.started? = none) {task : Task} (hm : task ∈ (x.after turn).tasks)
    (hnext : task.next = .update (c.newUpdate path)) : task ∈ x.tasks := by
  cases hlegal.next.2.origin hm with
  | old _ hm => exact hm
  | begun who request hmove hnone hsteps => simp [Turn.started?, hmove] at hstart
  | resumed prior hprior step hp hsteps =>
      exact absurd hnext ((hp.settled (h.waits prior hprior).not_isReload).2.1 _)

/-- When the disk has come to rest, a turn ends an update with what is on it, or leaves all as it
was. -/
theorem Steady.restTurn (h : Steady c path x) (hlegal : Legal x (turn :: rest))
    (hstart : turn.started? = none) (hsampled : SampledAt past x turn)
    (hdisks : ∀ other ∈ disksSince id (past ++ [turn]), other = disk) :
    RestTurn c path disk id x turn := by
  have hno : ∀ who requests, turn.move ≠ .start who requests := by
    intro who requests hm
    simp [Turn.started?, hm] at hstart
  by_cases hmove : ∃ ticket read, turn.move = .text ticket read
  · obtain ⟨ticket, read, hmove⟩ := hmove
    have hafter : x.after turn = (x.step turn.disk (.text ticket read)).1 := by
      rw [Indexer.after, hmove]
    rcases hlegal.sane.text_cases turn.disk ticket read with
      ⟨hnone, -, -, htasks, -⟩ | ⟨job, update, hj, hw, hsome, hresumes⟩
    · refine .idle ?_ fun task hm _ => ?_
      · cases read <;> simp [verdict?, hmove, hnone]
      · rw [hafter, htasks]
        exact hm
    · have hm := List.mem_of_find?_eq_some hj
      have htask : x.taskOf job =
          { id := job.id, request := job.request, next := .update update } := by
        rw [taskOf, hw]
        rfl
      have hmem : x.taskOf job ∈ x.tasks := List.mem_map_of_mem hm
      have hwaits := h.waits _ hmem
      rw [htask] at hwaits
      cases hwaits
      refine .read (x.taskOf job) hmem (by rw [htask]) (fun hid text notes htext hnotes => ?_)
        fun other ho hne => ?_
      · obtain ⟨sample, hs, hread⟩ := hsampled.text hmove hm hw
        have hjob : job.id = id := hid
        have hupdate : (c.newUpdate path).path = path := rfl
        have hvocabulary : (c.newUpdate path).vocabulary = c.vocabulary := rfl
        rw [hjob] at hs
        rw [hdisks sample hs, h.alike.workspace, hupdate, htext] at hread
        subst hread
        simp [verdict?, hmove, hsome, hupdate, hvocabulary, hnotes, Except.toOption]
      · have hother : other.id ≠ job.id := hne
        rw [hafter, hresumes.tasks]
        exact List.mem_append_left _ (List.mem_filter.2 ⟨ho, by simpa using hother⟩)
  · have htext : ∀ ticket read, turn.move ≠ .text ticket read :=
      fun ticket read hm => hmove ⟨ticket, read, hm⟩
    refine .idle (verdict?_eq_none hno htext path) fun task hm hnext => ?_
    refine (hlegal.next.2.mem_or_proceeds hlegal.sane hm).resolve_right fun hex => ?_
    obtain ⟨step, hp, -⟩ := hex
    generalize hmoved : turn.move = move at hp
    cases hp with
    | updated ticket read => exact htext _ _ hmoved
    | _ => cases hnext

/-- The disk stays as it is while no call begins. -/
structure Rests (disk : Disk) (turns : List Turn) : Prop where
  calls : ∀ turn ∈ turns, turn.started? = none
  disks : ∀ turn ∈ turns, turn.disk = disk

/-- A disk at rest stays so. -/
theorem Rests.tail (h : Rests disk (turn :: rest)) : Rests disk rest :=
  ⟨fun other ho => h.calls other (List.mem_cons_of_mem _ ho),
    fun other ho => h.disks other (List.mem_cons_of_mem _ ho)⟩

/-- All that a call has seen since then is that disk. -/
theorem Rests.disksSince (h : Rests disk (turn :: rest))
    (hpast : ∀ other ∈ disksSince id past, other = disk) :
    ∀ other ∈ Indexer.disksSince id (past ++ [turn]), other = disk := by
  intro other ho
  rcases mem_disksSince_concat ho with ho | rfl
  · exact hpast other ho
  · exact h.disks turn List.mem_cons_self

/-- The update of the event that came in last determines the notes that the file has in the end. -/
theorem Steady.exists_own_verdict (h : Steady c path x) (hlegal : Legal x turns)
    (hfile : c.workspace.isSettingsFile path = false) (hevents : EventsOn c.workspace path turns)
    (hsampled : Sampled past x turns) (hrests : Rests disk turns)
    (hpast : ∀ other ∈ disksSince id past, other = disk)
    {text : Text} (htext : c.workspace.read disk path = .ok text)
    (hnotes : c.vocabulary.notesIn path text = .ok notes) (hover : (x.run turns).jobs = [])
    {task : Task} (hm : task ∈ x.tasks) (hid : task.id = id)
    (hnext : task.next = .update (c.newUpdate path)) :
    .found notes ∈ verdicts path x turns := by
  induction turns generalizing x past with
  | nil =>
      rw [run_nil] at hover
      rw [tasks, hover] at hm
      cases hm
  | cons turn rest ih =>
      have hdisks := hrests.disksSince hpast
      have hlater : task ∈ (x.after turn).tasks → .found notes ∈ verdicts path x (turn :: rest) :=
        fun ht => List.mem_append_right _ (ih (h.after hlegal hfile hevents) hlegal.next.1
          hevents.tail hsampled.2 hrests.tail hdisks hover ht)
      cases h.restTurn hlegal (hrests.calls turn List.mem_cons_self) hsampled.1 hdisks with
      | idle hnone hkept => exact hlater (hkept task hm hnext)
      | read old hold hupdate hown hkept =>
          by_cases he : task.id = old.id
          · refine List.mem_append_left _ ?_
            rw [hown (he.symm.trans hid) text notes htext hnotes]
            exact List.mem_singleton_self _
          · exact hlater (hkept task hm he)

/-- If no other update is under way, nothing else is determined. -/
theorem Steady.forall_verdict (h : Steady c path x) (hlegal : Legal x turns)
    (hfile : c.workspace.isSettingsFile path = false) (hevents : EventsOn c.workspace path turns)
    (hsampled : Sampled past x turns) (hrests : Rests disk turns)
    (hpast : ∀ other ∈ disksSince id past, other = disk)
    (hown : ∀ task ∈ x.tasks, task.next = .update (c.newUpdate path) →
      task.id = id ∧ ∃ text, c.workspace.read disk path = .ok text ∧
        c.vocabulary.notesIn path text = .ok notes) :
    ∀ verdict ∈ verdicts path x turns, verdict.notes = notes := by
  induction turns generalizing x past with
  | nil => simp [verdicts]
  | cons turn rest ih =>
      have hdisks := hrests.disksSince hpast
      have hstart := hrests.calls turn List.mem_cons_self
      intro verdict hv
      rcases List.mem_append.1 hv with hv | hv
      · cases h.restTurn hlegal hstart hsampled.1 hdisks with
        | idle hnone hkept => simp [hnone] at hv
        | read task hm hnext hread hkept =>
            obtain ⟨hid, text, htext, hnotes⟩ := hown task hm hnext
            rw [hread hid text notes htext hnotes] at hv
            rw [List.mem_singleton.1 hv]
            rfl
      · refine ih (h.after hlegal hfile hevents) hlegal.next.1 hevents.tail hsampled.2 hrests.tail
          hdisks (fun task hm hnext => ?_) verdict hv
        exact hown task (h.mem_of_update hlegal hstart hm hnext) hnext

/-- What comes of the turn in which an event on the file begins: it takes hold at once, or its
update is under way. -/
inductive FirstTurn (c : Catalog) (path : Text) (id : JobId) (x : Indexer) (turn : Turn) : Prop
  | gone (verdict : x.verdict? turn path = some .gone)
      (why : c.workspace.accepts turn.disk path = .ok false ∨
        ∃ file, turn.move = .start id [.file (.deleted file)])
      (old : ∀ task ∈ (x.after turn).tasks, task.next = .update (c.newUpdate path) →
        task ∈ x.tasks)
  | reads (verdict : x.verdict? turn path = none)
      (accepted : c.workspace.accepts turn.disk path = .ok true)
      (task : Task) (mem : task ∈ (x.after turn).tasks) (own : task.id = id)
      (next : task.next = .update (c.newUpdate path))
      (old : ∀ other ∈ (x.after turn).tasks, other.id ≠ id → other ∈ x.tasks)
  | fails (fault : Disk.Fault) (accepts : c.workspace.accepts turn.disk path = .error fault)

/-- A deletion takes hold at once. -/
theorem Steady.firstTurn_deleted (h : Steady c path x) (hlegal : Legal x (turn :: rest))
    (hfile : c.workspace.isSettingsFile path = false) {file : Text}
    (hpath : c.workspace.normalize file = path)
    (hm : turn.move = .start id [.file (.deleted file)]) : FirstTurn c path id x turn := by
  have hworkspace := h.alike.workspace
  refine .gone ?_ (.inr ⟨file, hm⟩) fun task ht hnext => ?_
  · simp [verdict?, hm, hworkspace, hpath]
  · rcases (hlegal.begun hm).of_mem ht with ⟨ht, -⟩ | rfl
    · exact ht
    · have hnext : (x.catalog.deleteFile (x.catalog.workspace.normalize file)).2 =
          .update (c.newUpdate path) := hnext
      rw [hworkspace, hpath, Catalog.deleteFile, if_neg (by simp [hworkspace, hfile])] at hnext
      split at hnext <;> cases hnext

/-- A modification takes hold at once if the file is not accepted, and otherwise its text is
read. -/
theorem Steady.firstTurn_modified (h : Steady c path x) (hlegal : Legal x (turn :: rest))
    (hscope : c.scope ≠ .current) (hfile : c.workspace.isSettingsFile path = false) {file : Text}
    (hpath : c.workspace.normalize file = path)
    (hm : turn.move = .start id [.file (.modified file)]) : FirstTurn c path id x turn := by
  have hworkspace := h.alike.workspace
  have hsteps := hlegal.begun hm
  have hbegin : x.catalog.begin turn.disk (.file (.modified file)) =
      x.catalog.beginUpdate turn.disk path := by
    show x.catalog.beginUpdate turn.disk (x.catalog.workspace.normalize file) = _
    rw [hworkspace, hpath]
  rw [hbegin, Catalog.beginUpdate, if_neg (by simp [hworkspace, hfile]), hworkspace] at hsteps
  have hverdict : x.verdict? turn path =
      if (c.workspace.accepts turn.disk path).toOption = some false then some .gone else none := by
    simp [verdict?, hm, hworkspace, hpath]
  cases ha : c.workspace.accepts turn.disk path with
  | error fault => exact .fails fault ha
  | ok accepted =>
      rw [ha] at hsteps hverdict
      cases accepted with
      | false =>
          refine .gone hverdict (.inl ha) fun task ht hnext => ?_
          rcases hsteps.of_mem ht with ⟨ht, -⟩ | rfl
          · exact ht
          · simp only at hnext
            split at hnext <;> cases hnext
      | true =>
          have hshown : ¬ (x.catalog.scope = .current ∧ x.catalog.active ≠ some path) :=
            fun hs => hscope (h.alike.scope ▸ hs.1)
          simp only [if_neg hshown] at hsteps
          refine .reads hverdict ha
            { id, request := .file (.modified file), next := .update (x.catalog.newUpdate path) }
            ?_ rfl (by rw [h.alike.newUpdate]) fun other ho hne => ?_
          · exact hsteps.mem_of_pending (List.mem_singleton_self _)
          · rcases hsteps.of_mem ho with ⟨ho, -⟩ | rfl
            · exact ho
            · exact absurd rfl hne

/-- The turn that begins the last event settles a deletion at once and has an update read the
file. -/
theorem Steady.firstTurn (h : Steady c path x) (hlegal : Legal x (turn :: rest))
    (hscope : c.scope ≠ .current) (hfile : c.workspace.isSettingsFile path = false)
    (hevents : EventsOn c.workspace path (turn :: rest)) (hstart : turn.started? = some id) :
    FirstTurn c path id x turn := by
  cases hmove : turn.move with
  | start who requests =>
      obtain rfl : who = id := by
        rw [Turn.started?, hmove] at hstart
        exact Option.some.inj hstart
      obtain ⟨file, hpath, rfl | rfl⟩ := hevents turn List.mem_cons_self who requests hmove
      · exact h.firstTurn_modified hlegal hscope hfile hpath hmove
      · exact h.firstTurn_deleted hlegal hfile hpath hmove
  | _ => simp [Turn.started?, hmove] at hstart

/-- The verdicts of a run are those of its parts, one after the other. -/
theorem verdicts_append (path : Text) (x : Indexer) (turns more : List Turn) :
    verdicts path x (turns ++ more) = verdicts path x turns ++
      verdicts path (x.run turns) more := by
  induction turns generalizing x with
  | nil => rfl
  | cons turn turns ih =>
      rw [List.cons_append, verdicts, ih, verdicts, List.append_assoc]
      rfl

/-- What comes of the event that comes in last, with no change of the disk after it: it determines
something, and if no other update is under way then, and it is no deletion of a file that is there,
all that is determined from then on are the notes that the file has in the end. -/
theorem Steady.last_event (h : Steady c path x) {last : Turn} (hlegal : Legal x (last :: rest))
    (hscope : c.scope ≠ .current) (hfile : c.workspace.isSettingsFile path = false)
    (hevents : EventsOn c.workspace path (last :: rest)) (hsampled : Sampled past x (last :: rest))
    (hstart : last.started? = some id) (hpast : id ∉ past.filterMap Turn.started?)
    (hrests : Rests last.disk rest) (hover : ((x.after last).run rest).jobs = [])
    (hnotes : c.notesOn? last.disk path = some notes) :
    verdicts path x (last :: rest) ≠ [] ∧
      ((∀ task ∈ x.tasks, ∀ update, task.next ≠ .update update) →
        (∀ file, last.move = .start id [.file (.deleted file)] →
          c.workspace.accepts last.disk path = .ok false) →
        ∀ verdict ∈ verdicts path x (last :: rest), verdict.notes = notes) := by
  -- Since the last event came in there has been one disk so far, that of its own turn.
  have hdisks : ∀ other ∈ disksSince id (past ++ [last]), other = last.disk := by
    intro other ho
    refine (mem_disksSince_concat ho).resolve_left fun hold => ?_
    rw [disksSince_eq_nil hpast] at hold
    cases hold
  have hafter := h.after hlegal hfile hevents
  cases h.firstTurn hlegal hscope hfile hevents hstart with
  | gone hverdict hwhy hold =>
      rw [verdicts, hverdict]
      refine ⟨by simp, fun hidle hhonest verdict hv => ?_⟩
      have hrejected : c.workspace.accepts last.disk path = .ok false := by
        rcases hwhy with ha | ⟨file, hm⟩
        · exact ha
        · exact hhonest file hm
      obtain rfl := Catalog.notes_eq_nil_of_rejected hnotes hrejected
      rcases List.mem_append.1 hv with hv | hv
      · rw [List.mem_singleton.1 hv]
        rfl
      · refine hafter.forall_verdict hlegal.next.1 hfile hevents.tail hsampled.2 hrests hdisks
          (fun task hm hnext => ?_) verdict hv
        exact absurd hnext (hidle task (hold task hm hnext) _)
  | reads hverdict ha task hm hid hnext hold =>
      obtain ⟨text, htext, hfound⟩ := Catalog.text_of_accepted hnotes ha
      have hown := hafter.exists_own_verdict hlegal.next.1 hfile hevents.tail hsampled.2
        hrests hdisks htext hfound hover hm hid hnext
      rw [verdicts, hverdict]
      refine ⟨List.ne_nil_of_mem hown, fun hidle _ verdict hv => ?_⟩
      refine hafter.forall_verdict hlegal.next.1 hfile hevents.tail hsampled.2 hrests hdisks
        (fun other ho hupdate => ⟨?_, text, htext, hfound⟩) verdict hv
      apply Classical.byContradiction
      intro hne
      exact hidle other (hold other ho hne) _ hupdate
  | fails fault ha =>
      rw [Catalog.notesOn?, ha] at hnotes
      cases hnotes

/-- **Events that overlap.**  After events on a file that overlap, the index holds the notes that
the file has in the end if and only if the event that took hold last has determined them.  It has if
no text was being read when the event came in that came in last, which is no deletion of a file that
is there. -/
theorem overlapping_events_converge_iff {limit : Int} {before : List Turn} {last : Turn}
    (hscope : c.scope ≠ .current) (hin : c.workspace.inScope path = true)
    (hfile : c.workspace.isSettingsFile path = false) (hcalls : Calls (before ++ last :: rest))
    (hevents : EventsOn c.workspace path (before ++ last :: rest))
    (hsampled : Sampled [] (ofCatalog c limit) (before ++ last :: rest))
    (hstart : last.started? = some id) (hrests : Rests last.disk rest)
    (hx : (ofCatalog c limit).run before = x) {d : Indexer} (hd : (x.after last).run rest = d)
    (hover : d.jobs = []) (hnotes : c.notesOn? last.disk path = some notes) :
    ∃ verdict,
      (verdicts path (ofCatalog c limit) (before ++ last :: rest)).getLast? = some verdict ∧
      d.catalog.index.notesAt path = verdict.notes ∧
      (d.catalog.index.notesAt path = notes ↔ verdict.notes = notes) ∧
      ((∀ task ∈ x.tasks, ∀ update, task.next ≠ .update update) →
        (∀ file, last.move = .start id [.file (.deleted file)] →
          c.workspace.accepts last.disk path = .ok false) →
        d.catalog.index.notesAt path = notes) := by
  subst hx hd
  have hlegal := hcalls.legal c limit
  have hsteady := steady_ofCatalog c limit path
  have hbefore : EventsOn c.workspace path before :=
    fun turn ht => hevents turn (List.mem_append_left _ ht)
  have hafter : EventsOn c.workspace path (last :: rest) :=
    fun turn ht => hevents turn (List.mem_append_right _ ht)
  have hfresh : id ∉ ([] ++ before).filterMap Turn.started? := by
    have hnodup := hcalls.nodup
    rw [List.filterMap_append, List.filterMap_cons_some hstart, List.nodup_append] at hnodup
    exact fun hm => hnodup.2.2 id hm id List.mem_cons_self rfl
  -- Some event takes hold after the last one has come in, and the run is split there.
  obtain ⟨hne, hlast⟩ := (hsteady.run hlegal.left hfile hbefore).last_event
    hlegal.right hscope hfile hafter (sampled_append.1 hsampled).2 hstart hfresh hrests hover hnotes
  have hnotesAt := hsteady.notesAt_run hlegal hin hfile hevents
  rw [run_append, run_cons] at hnotesAt
  rw [verdicts_append, List.getLast?_append] at hnotesAt ⊢
  cases hverdict : (verdicts path ((ofCatalog c limit).run before) (last :: rest)).getLast? with
  | none => exact absurd (List.getLast?_eq_none_iff.1 hverdict) hne
  | some verdict =>
      rw [hverdict] at hnotesAt
      have hfinal : (((ofCatalog c limit).run before).after last |>.run rest).catalog.index.notesAt
          path = verdict.notes := hnotesAt
      refine ⟨verdict, rfl, hfinal, by rw [hfinal], fun hidle hhonest => ?_⟩
      rw [hfinal]
      exact hlast hidle hhonest verdict (List.mem_of_getLast? hverdict)

/-! ## Two events at once -/

open Catalog (emptyProject filledProject opened)

/-- A run of two events on the file of the small project, cut at the turn in which the second
begins. -/
structure TwoEvents where
  before : List Turn
  last : Turn
  rest : List Turn

/-- All turns of such a run. -/
def TwoEvents.all (e : TwoEvents) : List Turn := e.before ++ e.last :: e.rest

/-- The indexer after it. -/
def TwoEvents.done (e : TwoEvents) : Indexer :=
  (((ofCatalog opened 8).run e.before).after e.last).run e.rest

/-- Two modifications, the texts of which come in the other way round. -/
def twoModifications : TwoEvents where
  before := [turnOf (.start 1 [.file (.modified "a.py")])]
  last := turnOf (.start 2 [.file (.modified "a.py")])
  rest := [.text 1 (.ok "# TODO: a\n"), .text 0 (.ok "# TODO: a\n"), .told 2, .told 1].map turnOf

/-- A modification, and a deletion that overtakes it: the text that was read before comes in after
it. -/
def lateRead : TwoEvents where
  before := [turnOf (.start 1 [.file (.modified "a.py")])]
  last := ⟨emptyProject, .start 2 [.file (.deleted "a.py")]⟩
  rest := [.told 2, .text 0 (.ok "# TODO: a\n"), .told 1].map fun move => ⟨emptyProject, move⟩

/-- The requests of these runs are about one file. -/
theorem of_mem_twoEvents {e : TwoEvents} (h : e ∈ [twoModifications, lateRead]) {turn : Turn}
    (ht : turn ∈ e.all) {requests : List Request} (hm : turn.move = .start id requests) :
    requests = [.file (.modified "a.py")] ∨ requests = [.file (.deleted "a.py")] := by
  simp only [List.mem_cons, List.not_mem_nil, or_false] at h
  rcases h with rfl | rfl
  · simp only [TwoEvents.all, twoModifications, List.map_cons, List.map_nil, List.cons_append,
      List.nil_append, List.mem_cons, List.not_mem_nil, or_false] at ht
    rcases ht with rfl | rfl | rfl | rfl | rfl | rfl <;> cases hm <;> exact .inl rfl
  · simp only [TwoEvents.all, lateRead, List.map_cons, List.map_nil, List.cons_append,
      List.nil_append, List.mem_cons, List.not_mem_nil, or_false] at ht
    rcases ht with rfl | rfl | rfl | rfl | rfl <;> cases hm
    · exact .inl rfl
    · exact .inr rfl

/-- How the two events go. -/
theorem twoEvents_run : ∀ e ∈ [twoModifications, lateRead],
    opened.scope ≠ .current ∧ opened.workspace.inScope "/p/a.py" = true ∧
      opened.workspace.isSettingsFile "/p/a.py" = false ∧
      opened.workspace.normalize "a.py" = "/p/a.py" ∧
      (e.all.filterMap Turn.started?).Nodup ∧ Sampled [] (ofCatalog opened 8) e.all ∧
      e.last.started? = some 2 ∧ (∀ turn ∈ e.rest, turn.started? = none) ∧ e.done.jobs = [] := by
  unfold TwoEvents.done
  rw [Catalog.opened_eq]
  decide +kernel

/-- Their calls are in order. -/
theorem calls_twoEvents {e : TwoEvents} (h : e ∈ [twoModifications, lateRead]) : Calls e.all where
  single := fun _ ht _ _ hm =>
    (of_mem_twoEvents h ht hm).elim (fun he => ⟨_, he⟩) fun he => ⟨_, he⟩
  nodup := by
    obtain ⟨-, -, -, -, hnodup, -⟩ := twoEvents_run e h
    exact hnodup

/-- All of their events are on that file. -/
theorem eventsOn_twoEvents {e : TwoEvents} (h : e ∈ [twoModifications, lateRead]) :
    EventsOn opened.workspace "/p/a.py" e.all := by
  obtain ⟨-, -, -, hnormal, -⟩ := twoEvents_run e h
  exact fun _ ht _ _ hm => ⟨"a.py", hnormal, of_mem_twoEvents h ht hm⟩

/-- With the last event the disk has come to rest. -/
theorem rests_twoEvents {e : TwoEvents} (h : e ∈ [twoModifications, lateRead]) :
    Rests e.last.disk e.rest where
  calls := by
    obtain ⟨-, -, -, -, -, -, -, hcalls, -⟩ := twoEvents_run e h
    exact hcalls
  disks := by
    simp only [List.mem_cons, List.not_mem_nil, or_false] at h
    rcases h with rfl | rfl
    · simp [twoModifications, turnOf]
    · simp [lateRead]

/-- What the file holds in the end, and what the events determine. -/
theorem twoEvents_notes :
    (opened.notesOn? filledProject "/p/a.py" = (verdicts "/p/a.py" (ofCatalog opened 8)
        twoModifications.all).getLast?.map Verdict.notes ∧
      ((verdicts "/p/a.py" (ofCatalog opened 8) twoModifications.all).getLast?.map
        Verdict.notes).getD [] ≠ []) ∧
      opened.notesOn? emptyProject "/p/a.py" = some [] ∧
      lateRead.done.catalog.index.notesAt "/p/a.py" ≠ [] := by
  unfold TwoEvents.done
  rw [Catalog.opened_eq]
  decide +kernel

/-- After the two modifications the index holds the note of the file. -/
theorem notesAt_twoModifications :
    twoModifications.done.catalog.index.notesAt "/p/a.py" ≠ [] ∧
      opened.notesOn? filledProject "/p/a.py" =
        some (twoModifications.done.catalog.index.notesAt "/p/a.py") := by
  have hmem : twoModifications ∈ [twoModifications, lateRead] := List.mem_cons_self
  obtain ⟨hscope, hin, hfile, -, -, hsampled, hstart, -, hover⟩ := twoEvents_run _ hmem
  obtain ⟨⟨hnotes, hne⟩, -⟩ := twoEvents_notes
  cases hlast : (verdicts "/p/a.py" (ofCatalog opened 8) twoModifications.all).getLast? with
  | none => simp [hlast] at hne
  | some verdict =>
      rw [hlast] at hnotes hne
      have hdisk : twoModifications.last.disk = filledProject := rfl
      have hfinal : opened.notesOn? twoModifications.last.disk "/p/a.py" = some verdict.notes :=
        hdisk ▸ hnotes
      have hdone : (((ofCatalog opened 8).run twoModifications.before).after
          twoModifications.last).run twoModifications.rest = twoModifications.done := rfl
      obtain ⟨other, hother, -, hiff, -⟩ :=
        overlapping_events_converge_iff hscope hin hfile (calls_twoEvents hmem)
          (eventsOn_twoEvents hmem) hsampled hstart (rests_twoEvents hmem) rfl hdone hover hfinal
      obtain rfl : verdict = other := Option.some.inj (hlast.symm.trans hother)
      rw [hiff.2 rfl]
      exact ⟨hne, hnotes⟩

/-- After the deletion the index holds the note that was read before it, though the file is gone. -/
theorem late_read_is_believed :
    Calls lateRead.all ∧ EventsOn opened.workspace "/p/a.py" lateRead.all ∧
      Sampled [] (ofCatalog opened 8) lateRead.all ∧ Rests lateRead.last.disk lateRead.rest ∧
      lateRead.last.disk = emptyProject ∧ lateRead.done.jobs = [] ∧
      opened.notesOn? emptyProject "/p/a.py" = some [] ∧
      lateRead.done.catalog.index.notesAt "/p/a.py" ≠ [] := by
  have hmem : lateRead ∈ [twoModifications, lateRead] := by simp
  obtain ⟨-, -, -, -, -, hsampled, -, -, hover⟩ := twoEvents_run _ hmem
  obtain ⟨-, hgone, hstays⟩ := twoEvents_notes
  exact ⟨calls_twoEvents hmem, eventsOn_twoEvents hmem, hsampled, rests_twoEvents hmem, rfl, hover,
    hgone, hstays⟩

end Indexer

end Marginalia
