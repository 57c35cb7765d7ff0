import Marginalia.Proofs.Pacing
import Marginalia.Proofs.Notes

/-!
# What a scan is given

A scan gets a list of its files and the text of each, in whatever order.  A `Supply` says what it
gets, and what the scan should make of it (`Supply.entries`).  While all that comes in for a call is
from one supply (`Supply.Serves`), its reads find what the supply has for their paths, however the
turns fall, and no fault is noted (`Indexer.Served.after`).  So a scan can go on in one way only:
with its list it begins to read, and after its reads it ends with what the supply has for each of
its paths, in the order of the list (`Indexer.Served.goesOn`).
-/

namespace Marginalia

/-- What a scan is given: the list of its files, and the texts of files. -/
structure Supply where
  listed : Except Disk.Fault (List Text)
  texts : Text → Except Document.Fault Text

/-- Entries with paths that differ are filled in as they are. -/
theorem Index.entries_ofEntries {entries : List Entry} (h : (entries.map (·.path)).Nodup) :
    (ofEntries entries).entries = entries := by
  have hfill : ∀ (entries : List Entry) (index : Index), (entries.map (·.path)).Nodup →
      (∀ entry ∈ entries, entry.path ∉ index.paths) →
        (entries.foldl put index).entries = index.entries ++ entries := by
    intro entries
    induction entries with
    | nil => exact fun index _ _ => (List.append_nil _).symm
    | cons first rest ih =>
        intro index hnodup hnew
        rw [List.map_cons, List.nodup_cons] at hnodup
        have hfirst := entries_put_of_not_mem (hnew first List.mem_cons_self)
        rw [List.foldl_cons, ih _ hnodup.2 fun entry he hm => ?_, hfirst, List.append_assoc]
        · rfl
        · rw [paths, hfirst, List.map_append, List.mem_append] at hm
          rcases hm with hm | hm
          · exact hnew entry (List.mem_cons_of_mem _ he) hm
          · have hsame : entry.path = first.path := by simpa using hm
            exact hnodup.1 (hsame ▸ List.mem_map_of_mem he)
  simpa [ofEntries] using hfill entries {} h (by simp [paths])

namespace Supply

/-- Whether a file makes no scan fail: its notes can be made, or it is one to go on without. -/
def Extracts (s : Supply) (v : Vocabulary) (path : Text) : Prop :=
  match s.texts path with
  | .ok text => ∃ notes, v.notesIn path text = .ok notes
  | .error fault => fault.isRaised = false

instance (s : Supply) (v : Vocabulary) (path : Text) : Decidable (s.Extracts v path) :=
  match h : s.texts path with
  | .ok text => decidable_of_iff ((v.notesIn path text).toOption.isSome = true) (by
      simp only [Extracts, h]
      cases v.notesIn path text <;> simp [Except.toOption])
  | .error fault => decidable_of_iff (fault.isRaised = false) (by simp [Extracts, h])

/-- The notes of a file, if it can be read. -/
def notes? (s : Supply) (v : Vocabulary) (path : Text) : Option (List Note) :=
  match s.texts path with
  | .ok text => (v.notesIn path text).toOption
  | .error _ => none

/-- The entries that a scan should make of files: each file that can be read has one, in order;
those without notes only if they are to be kept. -/
def entries (s : Supply) (v : Vocabulary) (keepEmpty : Bool) (paths : List Text) : List Entry :=
  paths.filterMap fun path => (s.notes? v path).bind fun notes =>
    if notes = [] ∧ keepEmpty = false then none else some { path, notes }

variable {s : Supply} {v : Vocabulary} {path : Text} {paths : List Text}

/-- What a scan takes in of what it has found are these entries. -/
theorem scannedEntries_eq (s : Supply) (v : Vocabulary) (keepEmpty : Bool) (paths : List Text) :
    Catalog.scannedEntries keepEmpty (paths.map fun path => (path, s.notes? v path)) =
      s.entries v keepEmpty paths := by
  unfold Catalog.scannedEntries entries
  rw [List.filterMap_map]
  congr 1
  funext path
  simp only [Function.comp_apply]
  cases s.notes? v path with
  | none => rfl
  | some notes => cases notes <;> cases keepEmpty <;> rfl

/-- A file that makes no scan fail is found to have its notes. -/
theorem Extracts.examine (h : s.Extracts v path) :
    (Catalog.examine v path (s.texts path)).1 = .ok (s.notes? v path) := by
  unfold Extracts at h
  unfold notes?
  cases ht : s.texts path with
  | ok text =>
      rw [ht] at h
      obtain ⟨notes, hn⟩ := h
      rw [Catalog.examine_ok hn]
      simp only [hn]
      rfl
  | error fault =>
      rw [ht] at h
      simp only at h
      simp only [Catalog.examine, h, Bool.false_eq_true, if_false]

/-- Where each path is there once, the entries are filled in as they are. -/
theorem entries_ofEntries (h : paths.Nodup) (keepEmpty : Bool) :
    (Index.ofEntries (s.entries v keepEmpty paths)).entries = s.entries v keepEmpty paths := by
  have hkeys : ((s.entries v keepEmpty paths).map (·.path)).Nodup := by
    refine List.pairwise_map.2 (List.pairwise_filterMap.2 (h.imp ?_))
    intro one two hne first hone second htwo heq
    have hpath : ∀ {path : Text} {entry : Entry}, ((s.notes? v path).bind fun notes =>
        if notes = [] ∧ keepEmpty = false then none else some { path, notes }) = some entry →
          entry.path = path := by
      intro path entry he
      obtain ⟨notes, -, hn⟩ := Option.bind_eq_some_iff.1 he
      split at hn
      · cases hn
      · cases hn
        rfl
    exact hne ((hpath hone).symm.trans (heq.trans (hpath htwo)))
  exact Index.entries_ofEntries hkeys

end Supply

/-! ## What a scan makes of its supply -/

namespace Supply

/-- The files that a scan should read: the active document in the current scope, and those of the
list in any other. -/
def pathsFor (s : Supply) (c : Catalog) : Except Disk.Fault (List Text) :=
  if c.scope = .current then .ok c.active.toList else s.listed

/-- The entries that a scan should make of files: those of the files that can be read, in order; in
the current scope also if they have no notes. -/
def entriesFor (s : Supply) (c : Catalog) (paths : List Text) : List Entry :=
  s.entries c.vocabulary (c.scope = .current) paths

end Supply

namespace Catalog

variable {c : Catalog} {s : Supply} {scan : Scan} {paths : List Text}

/-- The scan that would begin now. -/
def scanToBegin (c : Catalog) : Scan := c.newScan (c.scope = .current)

/-- A catalog when a scan has taken in what a supply has for some files. -/
def scanned (c : Catalog) (s : Supply) (scan : Scan) (paths : List Text) : Catalog :=
  { c.scanning with
    index := Index.ofEntries (s.entries scan.vocabulary scan.keepEmpty paths) }

/-- A scan that nothing has disturbed takes in what it has found. -/
theorem finishScan_scanning (s : Supply) (hscan : scan.generation = c.scanning.generation)
    (paths : List Text) :
    c.scanning.finishScan scan (paths.map fun path => (path, s.notes? scan.vocabulary path)) =
      (c.scanned s scan paths, .tell .notesUpdated) := by
  have htouched : c.scanning.touched = [] := rfl
  rw [finishScan, if_neg (by simpa using hscan), Supply.scannedEntries_eq]
  simp only [htouched, mergeTouched_nil]
  rfl

/-- With its list, a scan has its files to read, or it is over. -/
theorem readFiles_scanning (s : Supply) (hscan : scan.generation = c.scanning.generation)
    (paths : List Text) :
    c.scanning.readFiles scan paths = (c.scanning, .read scan paths) ∨
      c.scanning.readFiles scan paths = (c.scanned s scan paths, .tell .notesUpdated) := by
  cases paths with
  | nil => exact .inr (finishScan_scanning s hscan [])
  | cons path paths => exact .inl rfl

end Catalog

open Catalog (Next Scan)

/-- The stages of a scan of some files: it waits for its list, which it is to be given, or for the
files. -/
inductive Supply.Reaches (s : Supply) (scan : Scan) (paths : List Text) : Next → Prop
  | list (listed : s.listed = .ok paths) : Reaches s scan paths (.list scan)
  | read : Reaches s scan paths (.read scan paths)

/-- A scan that begins waits for its list or for its files, or it is over at once. -/
theorem Supply.beginScan_cases {s : Supply} {c : Catalog} {paths : List Text}
    (hpaths : s.pathsFor c = .ok paths) :
    (∃ next, c.beginScan = (c.scanning, next) ∧ s.Reaches c.scanToBegin paths next) ∨
      c.beginScan = (c.scanned s c.scanToBegin paths, .tell .notesUpdated) := by
  unfold pathsFor at hpaths
  unfold Catalog.scanToBegin
  by_cases hcurrent : c.scope = .current
  · rw [if_pos hcurrent] at hpaths
    obtain rfl := Except.ok.inj hpaths
    simp only [hcurrent, decide_true]
    have hscan : (c.newScan true).generation = c.scanning.generation := rfl
    rw [Catalog.beginScan_of_current hcurrent]
    rcases c.readFiles_scanning s hscan c.active.toList with heq | heq
    · exact .inl ⟨_, heq, .read⟩
    · exact .inr heq
  · rw [if_neg hcurrent] at hpaths
    simp only [hcurrent, decide_false]
    exact .inl ⟨_, Catalog.beginScan_of_ne_current hcurrent, .list hpaths⟩

open Indexer (Move)

/-- What comes in for a call in a turn is from a supply: the list of its files, and the texts of the
files that it reads. -/
def Supply.Serves (s : Supply) (id : JobId) (x : Indexer) (turn : Turn) : Prop :=
  match turn.move with
  | .list job listed => job = id → listed = s.listed
  | .text ticket text =>
    ∀ read ∈ x.reads, read.ticket = ticket → read.job = id → text = s.texts read.path
  | _ => True

namespace Indexer

open Catalog (Next Scan)

variable {s : Supply} {x y z : Indexer} {turn : Turn} {move : Move} {id : JobId} {rest : List Turn}

/-! ## Faults that are noted -/

/-- The fault that was noted among the reads that are waited for. -/
def Wait.fault? : Wait → Option Catalog.Fault
  | .reads _ _ fault? => fault?
  | _ => none

/-- A job that is there after a call has gone on was there before, or has noted no fault. -/
theorem mem_jobs_goOn (disk : Disk) {id : JobId} {rest : List Request} {y : Indexer}
    {request : Request} {next : Next} {job : Job}
    (hm : job ∈ (goOn disk id rest y request next).1.jobs) :
    job ∈ y.jobs ∨ job.wait.fault? = none := by
  have hsuspend : ∀ (z : Indexer) (new : Job), new.wait.fault? = none →
      job ∈ (z.suspend new).jobs → job ∈ z.jobs ∨ job.wait.fault? = none := by
    intro z new hnew hj
    refine (List.mem_append.1 hj).imp_right fun hj => ?_
    rw [List.mem_singleton.1 hj]
    exact hnew
  induction rest generalizing y request next with
  | nil =>
      cases next with
      | done complete => exact .inl hm
      | fail fault => exact .inl hm
      | _ => exact hsuspend _ _ rfl hm
  | cons following rest ih =>
      cases next with
      | done complete =>
          have hmore : job ∈ (goOn disk id rest
              { y with catalog := (y.catalog.begin disk following).1 } following
              (y.catalog.begin disk following).2).1.jobs := hm
          have hlater := ih hmore
          exact hlater
      | fail fault => exact .inl hm
      | _ => exact hsuspend _ _ rfl hm

/-- So it is after a call is resumed. -/
theorem mem_jobs_resume (disk : Disk) {y : Indexer} {own job : Job}
    {step : Catalog → Catalog × Next} (hm : job ∈ (y.resume disk own step).1.jobs) :
    job ∈ y.jobs ∨ job.wait.fault? = none :=
  (mem_jobs_goOn disk hm).imp_left fun hj => (List.mem_filter.1 hj).1

/-- A fault that a job has after a step was noted before, or a read that the job waits for has
failed in the step. -/
theorem mem_jobs_step (disk : Disk) {job : Job} (hm : job ∈ (x.step disk move).1.jobs) :
    job ∈ x.jobs ∨ job.wait.fault? = none ∨
      ∃ read ∈ x.reads, read.isRunning = true ∧ ∃ text fault, move = .text read.ticket text ∧
        (Catalog.examine read.vocabulary read.path text).1 = .error fault ∧
        job.wait.fault? = some fault ∧
        ∃ old ∈ x.jobs, old.id = job.id ∧ read.ticket ∈ old.wait.tickets := by
  have hstep := x.steps_to disk move
  generalize (x.step disk move).1 = z at hstep hm
  cases hstep with
  | quiet => exact .inl hm
  | starts => exact (mem_jobs_goOn disk hm).imp_right .inl
  | goesOn => exact (mem_jobs_resume disk hm).imp_right .inl
  | gathers => exact (mem_jobs_resume disk hm).imp_right .inl
  | unheard => exact .inl hm
  | updates => exact (mem_jobs_resume disk hm).imp_right .inl
  | notes read mem running text =>
      -- The read belongs to a scan: only here can a fault be noted.
      unfold noteFound at hm
      split at hm
      · rename_i fault hfault
        obtain ⟨old, hold, rfl⟩ := List.mem_map.1 hm
        split
        · rename_i scan tickets hw
          split
          · rename_i hticket
            refine .inr (.inr
              ⟨read, mem, running, text, fault, rfl, hfault, rfl, old, hold, rfl, ?_⟩)
            rw [hw]
            simpa [Wait.tickets] using hticket
          · exact .inl hold
        · exact .inl hold
      · exact .inl hm

/-! ## Reads that find what the supply has -/

/-- The reads of a call have found what the supply has for their paths, and no fault was noted for
it. -/
structure Served (s : Supply) (id : JobId) (x : Indexer) : Prop where
  found : ∀ read ∈ x.reads, read.job = id → ∀ found, read.found? = some found →
    found = (Catalog.examine read.vocabulary read.path (s.texts read.path)).1
  whole : ∀ job ∈ x.jobs, job.id = id → job.wait.fault? = none

/-- A call is a scan of some files that make no scan fail, or tells of one. -/
def Scans (s : Supply) (id : JobId) (paths : List Text) (x : Indexer) : Prop :=
  ∀ task ∈ x.tasks, task.id = id →
    (∃ scan, s.Reaches scan paths task.next ∧ ∀ path ∈ paths, s.Extracts scan.vocabulary path) ∨
      task.next = .tell .notesUpdated

/-- The read that a scan waits for is one of its task. -/
theorem Sane.mem_paths (h : x.Sane) {read : Read} (hm : read ∈ x.reads) {job : Job}
    (hj : job ∈ x.jobs) (ht : read.ticket ∈ job.wait.tickets) :
    read.job = job.id ∧ ∀ scan tickets fault?, job.wait = .reads scan tickets fault? →
      read.vocabulary = scan.vocabulary ∧ read.path ∈ tickets.map x.pathOf := by
  obtain ⟨other, he, hid, hwants⟩ := h.awaited job hj read.ticket ht
  have hat := readAt?_of_mem h.tickets hm
  obtain rfl := Option.some.inj (hat.symm.trans he)
  refine ⟨(Read.resting_job read).symm.trans hid, fun scan tickets fault? hw => ?_⟩
  rw [hw] at hwants ht
  have hpath : x.pathOf read.ticket = read.path := by
    rw [pathOf, hat, Option.map_some, Option.getD_some, Read.resting_path]
  exact ⟨(Read.resting_vocabulary read).symm.trans hwants, hpath ▸ List.mem_map_of_mem ht⟩

/-- **What was served stays served.**  A turn leads from reads that find what the supply has to such
reads. -/
theorem Served.after (h : Served s id x) (hx : x.Sane) (hserves : s.Serves id x turn)
    {paths : List Text} (hscans : Scans s id paths x) : Served s id (x.after turn) where
  found := by
    have hfinds : Finds (fun job v path found => job = id →
        found = (Catalog.examine v path (s.texts path)).1) x :=
      fun read hm found hf hjob => h.found read hm hjob found hf
    have hends : ∀ read ∈ x.reads, read.isRunning = true → ∀ text,
        turn.move = .text read.ticket text → read.job = id →
          (Catalog.examine read.vocabulary read.path text).1 =
            (Catalog.examine read.vocabulary read.path (s.texts read.path)).1 := by
      intro read hm _ text hmove hjob
      rw [Supply.Serves, hmove] at hserves
      rw [hserves read hm rfl hjob]
    have hafter := hfinds.step turn.disk hx.tickets hends
    exact fun read hm hjob found hf => hafter read hm found hf hjob
  whole := by
    intro job hm hid
    rcases mem_jobs_step turn.disk hm with hold | hnone |
      ⟨read, hr, -, text, fault, hmove, hfault, -, hnoted⟩
    · exact h.whole job hold hid
    · exact hnone
    · -- The read that has failed would be one of a file that makes no scan fail.
      obtain ⟨old, hold, hsame, hticket⟩ := hnoted
      obtain ⟨hjob, hread⟩ := hx.mem_paths hr hold hticket
      have htext : text = s.texts read.path := by
        rw [Supply.Serves, hmove] at hserves
        exact hserves read hr rfl (hjob.trans (hsame.trans hid))
      have hnext := hscans _ (List.mem_map_of_mem hold) (hsame.trans hid)
      obtain ⟨oid, wait, request, rest⟩ := old
      cases wait with
      | reads scan tickets fault? =>
          obtain ⟨hvocabulary, hpath⟩ := hread scan tickets fault? rfl
          rcases hnext with ⟨own, hreaches, hextracts⟩ | htell
          · cases hreaches
            rw [htext, hvocabulary, (hextracts _ hpath).examine] at hfault
            cases hfault
          · cases htell
      | update update own =>
          rcases hnext with ⟨own, hreaches, -⟩ | htell
          · cases hreaches
          · cases htell
      | _ => simp [Wait.tickets] at hticket

/-! ## How a scan goes on -/

/-- Reads that have ended well have found something for each of their paths, in order. -/
theorem foundBy_eq {f : Text → Option (List Note)} {tickets : List Ticket}
    {found : List (Text × Option (List Note))} (hfound : x.foundBy tickets = some found)
    (hreads : ∀ ticket ∈ tickets, ∀ read, x.readAt? ticket = some read → ∀ notes?,
      read.found? = some (.ok notes?) → notes? = f read.path) :
    found = (tickets.map x.pathOf).map fun path => (path, f path) := by
  induction tickets generalizing found with
  | nil =>
      cases hfound
      rfl
  | cons ticket tickets ih =>
      rw [foundBy_cons, Option.bind_eq_some_iff] at hfound
      obtain ⟨entry, hentry, hrest⟩ := hfound
      obtain ⟨others, hothers, rfl⟩ := Option.map_eq_some_iff.1 hrest
      obtain ⟨read, hread, hpath, hnotes⟩ := of_foundAt hentry
      have hfirst : x.pathOf ticket = entry.1 := by
        rw [pathOf, hread]
        exact hpath
      have hsecond : entry.2 = f entry.1 := by
        rw [← hpath]
        exact hreads ticket List.mem_cons_self read hread _ hnotes
      rw [ih hothers fun other ho => hreads other (List.mem_cons_of_mem _ ho)]
      simp only [List.map_cons, hfirst, ← hsecond]

/-- A scan without a noted fault goes on when all its reads have ended well, and not before. -/
theorem Sane.gather_turn (h : x.Sane) (disk : Disk) {job : Job} (hj : job ∈ x.jobs) {scan : Scan}
    {tickets : List Ticket} (hw : job.wait = .reads scan tickets none) :
    x.step disk (.gather job.id) = (x, []) ∨
      ∃ found, x.foundBy tickets = some found ∧
        Resumes x job (x.catalog.finishScan scan found) (x.step disk (.gather job.id)) := by
  simp only [step, h.find?_id hj]
  unfold takeReads
  rw [hw]
  simp only
  cases hf : x.foundBy tickets with
  | none => exact .inl rfl
  | some found =>
      have htickets : job.wait.tickets = tickets := by rw [hw, Wait.tickets]
      have hfrees := h.frees_dropEnded hj
      rw [htickets] at hfrees
      exact .inr ⟨found, rfl, h.resumes disk hj hfrees (fun c => c.finishScan scan found) [] rfl⟩

/-- Of a turn comes nothing, or something of another call. -/
inductive Elsewhere (id : JobId) (x : Indexer) (turn : Turn) : Prop
  | quiet (catalog : (x.after turn).catalog = x.catalog) (tasks : (x.after turn).tasks = x.tasks)
      (said : said (x.effects turn) = [])
  | begun (other : JobId) (request : Request) (move : turn.move = .start other [request])
      (ne : other ≠ id)
      (steps : Steps x turn other request (x.catalog.begin turn.disk request))
  | resumed (task : Task) (mem : task ∈ x.tasks) (ne : task.id ≠ id) (step : Catalog × Next)
      (proceeds : Proceeds turn.move x.catalog task step)
      (steps : Steps x turn task.id task.request step)

/-- A call begins in a turn or goes on, or the turn is about something else. -/
theorem Legal.elsewhere_or_own (h : Legal x (turn :: rest)) (id : JobId) :
    Elsewhere id x turn ∨ (∃ request, turn.move = .start id [request]) ∨
      ∃ task ∈ x.tasks, task.id = id ∧ turn.started? = none ∧
        ∃ step, Proceeds turn.move x.catalog task step ∧
          Steps x turn task.id task.request step := by
  cases h.next.2 with
  | quiet catalog tasks said => exact .inl (.quiet catalog tasks said)
  | begun other request move fresh steps =>
      by_cases hid : other = id
      · exact .inr (.inl ⟨request, hid ▸ move⟩)
      · exact .inl (.begun other request move hid steps)
  | resumed task mem step proceeds steps =>
      by_cases hid : task.id = id
      · refine .inr (.inr ⟨task, mem, hid, ?_, step, proceeds, steps⟩)
        unfold Turn.started?
        generalize turn.move = move at proceeds
        cases proceeds <;> rfl
      · exact .inl (.resumed task mem hid step proceeds steps)

/-- A call under way goes on in a turn, or the turn is about something else. -/
theorem Legal.elsewhere_or_proceeds (h : Legal x (turn :: rest)) {task : Task}
    (hm : task ∈ x.tasks) :
    Elsewhere task.id x turn ∨ turn.started? = none ∧
      ∃ step, Proceeds turn.move x.catalog task step ∧ Steps x turn task.id task.request step := by
  rcases h.elsewhere_or_own task.id with helse | ⟨request, hstart⟩ | ⟨other, ho, hid, hown⟩
  · exact .inl helse
  · exact absurd (mem_started_of_move hstart) (h.apart task hm)
  · obtain rfl := h.sane.task_eq_of_id ho hm hid
    exact .inr hown

/-- A scan that reads files waits for reads of them, and no fault is noted among these. -/
theorem Served.exists_tickets (h : Served s id x) {job : Job} (hj : job ∈ x.jobs)
    (hid : job.id = id)
    {scan : Scan} {paths : List Text} (hnext : x.nextOf job.wait = .read scan paths) :
    ∃ tickets, job.wait = .reads scan tickets none ∧ tickets.map x.pathOf = paths := by
  obtain ⟨tickets, fault?, hw, hpaths⟩ := exists_reads_of_nextOf hnext
  have hwhole := h.whole job hj hid
  rw [hw] at hwhole
  obtain rfl : fault? = none := hwhole
  exact ⟨tickets, hw, hpaths⟩

/-- A scan whose reads have all ended finds what the supply has for its paths. -/
theorem Served.foundBy_eq (h : Served s id x) (hx : x.Sane) {job : Job} (hj : job ∈ x.jobs)
    (hid : job.id = id) {scan : Scan} {tickets : List Ticket}
    (hw : job.wait = .reads scan tickets none)
    (hsound : ∀ path ∈ tickets.map x.pathOf, s.Extracts scan.vocabulary path)
    {found : List (Text × Option (List Note))} (hfound : x.foundBy tickets = some found) :
    found = (tickets.map x.pathOf).map fun path => (path, s.notes? scan.vocabulary path) := by
  refine Indexer.foundBy_eq hfound fun ticket ht read hread notes? hnotes => ?_
  obtain ⟨hresting, hticket⟩ := of_readAt?_eq_some hread
  obtain ⟨original, hmem, rfl⟩ := List.mem_map.1 hresting
  rw [Read.resting_ticket] at hticket
  have hwaits : original.ticket ∈ job.wait.tickets := by
    rw [hw]
    exact hticket ▸ ht
  obtain ⟨hjob, hkind⟩ := hx.mem_paths hmem hj hwaits
  obtain ⟨hvocabulary, hpath⟩ := hkind scan tickets none hw
  have hfinds := h.found original hmem (hjob.trans hid) (.ok notes?) (by simpa using hnotes)
  rw [hvocabulary, (hsound _ hpath).examine] at hfinds
  rw [Read.resting_path]
  exact Except.ok.inj hfinds

/-- **A scan goes on in one way.**  What a scan under way does next is settled by its supply, and by
nothing else: with its list it reads its files, and after that it takes in what the supply has for
each of them. -/
theorem Served.goesOn (h : Served s id x) (hlegal : Legal x (turn :: rest))
    (hserves : s.Serves id x turn) {request : Request} {next : Next}
    (htask : ({ id, request, next } : Task) ∈ x.tasks) {scan : Scan} {paths : List Text}
    (hreaches : s.Reaches scan paths next)
    (hsound : ∀ path ∈ paths, s.Extracts scan.vocabulary path) :
    Elsewhere id x turn ∨ turn.started? = none ∧ ∃ step, Steps x turn id request step ∧
      (next = .list scan ∧ step = x.catalog.readFiles scan paths ∨
        next = .read scan paths ∧ step = x.catalog.finishScan scan
          (paths.map fun path => (path, s.notes? scan.vocabulary path))) := by
  rcases hlegal.elsewhere_or_proceeds htask with helse | ⟨hstart, step, hp, hsteps⟩
  · exact .inl helse
  -- A scan that waits for its list can only get that of the supply, and one that waits for its
  -- reads ends with what these have found.
  cases hreaches with
  | list hlisted =>
      generalize hmove : turn.move = move at hp
      cases hp with
      | listFailed fault =>
          rw [Supply.Serves, hmove] at hserves
          rw [← hserves rfl] at hlisted
          cases hlisted
      | listed others =>
          rw [Supply.Serves, hmove] at hserves
          rw [← hserves rfl] at hlisted
          cases hlisted
          exact .inr ⟨hstart, _, hsteps, .inl ⟨rfl, rfl⟩⟩
  | read =>
      have hgather : turn.move = .gather id := by
        generalize turn.move = move at hp
        cases hp <;> rfl
      obtain ⟨job, hj, hjob⟩ := List.mem_map.1 htask
      have hid : job.id = id := congrArg Task.id hjob
      obtain ⟨tickets, hw, hpaths⟩ := h.exists_tickets hj hid (congrArg Task.next hjob)
      have hstep : x.step turn.disk (.gather job.id) = x.step turn.disk turn.move := by
        rw [hgather, hid]
      rcases hlegal.sane.gather_turn turn.disk hj hw with hquiet | ⟨found, hfound, hresumes⟩
      · rw [hstep] at hquiet
        have hafter : x.after turn = x := congrArg Prod.fst hquiet
        refine .inl (.quiet (by rw [hafter]) (by rw [hafter]) ?_)
        rw [effects, hquiet]
        rfl
      · rw [hstep] at hresumes
        rw [h.foundBy_eq hlegal.sane hj hid hw (hpaths ▸ hsound) hfound, hpaths] at hresumes
        have hsteps := hresumes.steps
        rw [hid, show job.request = request from congrArg Task.request hjob] at hsteps
        exact .inr ⟨hstart, _, hsteps, .inr ⟨rfl, rfl⟩⟩

end Indexer

end Marginalia
