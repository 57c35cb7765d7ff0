import Mathlib.Data.List.Induction
import Marginalia.Proofs.Precedence
import Marginalia.Proofs.Quiescence

/-!
# Where entries come from

Entries reach an index in several ways: a scan takes them in, or keeps those of touched files, and
the update of a file puts one in.  Whatever the way, and whether calls fail or not, the notes of an
entry are those of a single text that a read of its file has returned, found with a single
vocabulary that was in force (`Indexer.entries_explained`).

The past is kept in a *chronicle*: the texts that have been returned and the vocabularies that were
in force.  What is in an indexer is told from it (`Indexer.Traced`): the entries of the index and
the findings of reads are explained, and the scans and reads under way have vocabularies that were
in force.  A step preserves this (`Indexer.Traced.step`), and a chronicle only grows
(`Indexer.Traced.mono`), so it holds after every run.
-/

namespace Marginalia

/-- What has happened so far: which texts were returned for which paths, and which vocabularies were
in force. -/
structure Chronicle where
  returned : Text → Text → Prop
  inForce : Vocabulary → Prop

namespace Chronicle

/-- Notes that were found in one text of a file, with one vocabulary. -/
def Explains (past : Chronicle) (path : Text) (notes : List Note) : Prop :=
  ∃ text v, past.returned path text ∧ past.inForce v ∧ v.notesIn path text = .ok notes

/-- A chronicle that knows at least as much. -/
structure Extends (later past : Chronicle) : Prop where
  returned : ∀ path text, past.returned path text → later.returned path text
  inForce : ∀ v, past.inForce v → later.inForce v

/-- What was explained once stays so. -/
theorem Extends.explains {later past : Chronicle} (h : later.Extends past) {path : Text}
    {notes : List Note} (he : past.Explains path notes) : later.Explains path notes := by
  obtain ⟨text, v, ht, hv, hn⟩ := he
  exact ⟨text, v, h.returned path text ht, h.inForce v hv, hn⟩

/-- Explained notes are those of their file, line by line. -/
theorem Explains.follows {past : Chronicle} {path : Text} {notes : List Note}
    (h : past.Explains path notes) :
    (∀ note ∈ notes, note.path = path ∧ 1 ≤ note.line) ∧
      (notes.map (·.line)).Pairwise (· < ·) := by
  obtain ⟨text, v, -, -, hn⟩ := h
  have hfollows := Vocabulary.follows_of_notesInLines hn
  refine ⟨fun note hm => ⟨?_, (hfollows.within note hm).1⟩, hfollows.sorted⟩
  exact (Vocabulary.notesIn_sound hn note hm).2

end Chronicle

/-- The normal form of a path depends on the root alone. -/
theorem Workspace.normalize_congr {w v : Workspace} (h : v.root = w.root) (path : Text) :
    v.normalize path = w.normalize path := by
  unfold normalize locate
  rw [h]

namespace Catalog

/-- A catalog that is told from the past: its paths are in normal form, each once, and the notes of
its entries are explained. -/
structure Traced (w : Workspace) (past : Chronicle) (c : Catalog) : Prop where
  root : c.workspace.root = w.root
  inForce : past.inForce c.vocabulary
  active : ∀ path, c.active = some path → w.normalize path = path
  nodup : c.index.paths.Nodup
  entries : ∀ entry ∈ c.index.entries,
    w.normalize entry.path = entry.path ∧ past.Explains entry.path entry.notes

/-- What is waited for is told from the past: vocabularies were in force and paths are in normal
form. -/
def Next.Traced (w : Workspace) (past : Chronicle) : Next → Prop
  | .list scan => past.inForce scan.vocabulary
  | .read scan paths => past.inForce scan.vocabulary ∧ ∀ path ∈ paths, w.normalize path = path
  | .update u => past.inForce u.vocabulary ∧ w.normalize u.path = u.path
  | _ => True

/-- Whatever was found in a file is explained. -/
def Accounts (w : Workspace) (past : Chronicle) (path : Text) (notes? : Option (List Note)) :
    Prop :=
  w.normalize path = path ∧ ∀ notes, notes? = some notes → past.Explains path notes

variable {w : Workspace} {past later : Chronicle} {c : Catalog}

/-- A catalog is told from a longer past as well. -/
theorem Traced.mono (h : c.Traced w past) (hl : later.Extends past) : c.Traced w later where
  root := h.root
  inForce := hl.inForce _ h.inForce
  active := h.active
  nodup := h.nodup
  entries entry he := ⟨(h.entries entry he).1, hl.explains (h.entries entry he).2⟩

/-- Another index is traced if its entries are. -/
theorem Traced.withIndex (h : c.Traced w past) {index : Index} (hn : index.paths.Nodup)
    (he : ∀ entry ∈ index.entries, entry ∈ c.index.entries ∨
      w.normalize entry.path = entry.path ∧ past.Explains entry.path entry.notes) :
    Traced w past { c with index } where
  root := h.root
  inForce := h.inForce
  active := h.active
  nodup := hn
  entries entry hm := (he entry hm).elim (h.entries entry) id

/-- What the index holds is explained whatever generation it is and whichever files are touched. -/
theorem Traced.scanning (h : c.Traced w past) : c.scanning.Traced w past :=
  ⟨h.root, h.inForce, h.active, h.nodup, h.entries⟩

/-- Another scope changes nothing, and another active document has to be named in normal form. -/
theorem Traced.turnedTo (h : c.Traced w past) (scope : Scope) {active : Option Text}
    (ha : ∀ path, active = some path → w.normalize path = path) :
    (c.turnedTo scope active).Traced w past :=
  ⟨h.root, h.inForce, ha, h.nodup, h.entries⟩

/-! ### Scans -/

/-- A scan takes in what it has found, and keeps what is touched. -/
theorem Traced.finishScan (h : c.Traced w past) (scan : Scan)
    {found : List (Text × Option (List Note))}
    (hf : ∀ entry ∈ found, Accounts w past entry.1 entry.2) :
    (c.finishScan scan found).1.Traced w past ∧ (c.finishScan scan found).2.Traced w past := by
  unfold Catalog.finishScan
  split
  · exact ⟨h, trivial⟩
  · refine ⟨h.withIndex (Index.paths_nodup_ofEntries _) fun entry he => ?_, trivial⟩
    rcases mem_mergeTouched (Index.mem_of_mem_ofEntries he) with ⟨hscanned, -⟩ | ⟨hkept, -⟩
    · obtain ⟨path, notes, hm, -, rfl⟩ := mem_scannedEntries.1 hscanned
      obtain ⟨hnormal, hexplains⟩ := hf _ hm
      exact .inr ⟨hnormal, hexplains notes rfl⟩
    · exact .inl hkept

/-- A scan that knows its files has them read with a vocabulary that was in force. -/
theorem Traced.readFiles (h : c.Traced w past) {scan : Scan} (hv : past.inForce scan.vocabulary)
    {paths : List Text} (hp : ∀ path ∈ paths, w.normalize path = path) :
    (c.readFiles scan paths).1.Traced w past ∧ (c.readFiles scan paths).2.Traced w past := by
  unfold Catalog.readFiles
  split
  · exact h.finishScan scan (by simp)
  · exact ⟨h, hv, hp⟩

/-- In the current scope the only file is the active document, and it is named in normal form. -/
theorem Traced.beginScan (h : c.Traced w past) :
    c.beginScan.1.Traced w past ∧ c.beginScan.2.Traced w past := by
  by_cases hs : c.scope = .current
  · rw [beginScan_of_current hs]
    exact h.scanning.readFiles h.inForce fun path hp => h.active path (Option.mem_toList.1 hp)
  · rw [beginScan_of_ne_current hs]
    exact ⟨h.scanning, h.inForce⟩

/-! ### Reloads -/

/-- An empty index needs no explanation. -/
theorem Traced.cleared (h : c.Traced w past) : Traced w past { c with index := {} } :=
  h.withIndex List.nodup_nil (by simp)

/-- A reload raises the generation, and clears the index if there is no file to wait for. -/
theorem Traced.beginLoad (h : c.Traced w past) :
    c.beginLoad.1.Traced w past ∧ c.beginLoad.2.Traced w past := by
  have hraised : Traced w past { c with generation := c.generation + 1 } :=
    ⟨h.root, h.inForce, h.active, h.nodup, h.entries⟩
  rw [beginLoad_eq]
  split
  · exact ⟨hraised, trivial⟩
  · exact ⟨hraised.cleared, trivial⟩

/-- A vocabulary that comes into force does so with an empty index. -/
theorem Traced.finishLoad (h : c.Traced w past) (settings : Settings)
    (hv : past.inForce (c.finishLoad settings).1.1.vocabulary) :
    (c.finishLoad settings).1.1.Traced w past ∧ (c.finishLoad settings).1.2.Traced w past := by
  rcases c.finishLoad_cases settings with ⟨vocabulary, heq⟩ | ⟨fault, heq⟩
  · rw [heq] at hv ⊢
    exact ⟨⟨h.root, hv, h.active, List.nodup_nil, by simp⟩, trivial⟩
  · rw [heq]
    exact ⟨⟨h.root, h.inForce, h.active, h.nodup, h.entries⟩, trivial⟩

/-! ### Files -/

/-- What is dropped needs no explanation any longer. -/
theorem Traced.drop (h : c.Traced w past) (path : Text) : (c.drop path).Traced w past := by
  have hremoved : Traced w past { c with index := c.index.remove path } :=
    h.withIndex (Index.paths_nodup_remove h.nodup path) fun entry he =>
      .inl (List.mem_filter.1 he).1
  exact ⟨hremoved.root, hremoved.inForce, hremoved.active, hremoved.nodup, hremoved.entries⟩

/-- New notes for a file come with their explanation. -/
theorem Traced.finishUpdate (h : c.Traced w past) (update : Update) {notes : List Note}
    (hn : w.normalize update.path = update.path) (he : past.Explains update.path notes) :
    (c.finishUpdate update notes).1.Traced w past ∧
      (c.finishUpdate update notes).2.Traced w past := by
  unfold Catalog.finishUpdate
  split
  · exact ⟨h, trivial⟩
  split
  · exact ⟨h, trivial⟩
  have hput : Traced w past { c with index := c.index.update update.path notes } := by
    refine h.withIndex (Index.paths_nodup_put _ h.nodup) fun entry hm => ?_
    rcases Index.mem_putIn hm with rfl | hm
    · exact .inr ⟨hn, he⟩
    · exact .inl hm
  exact ⟨⟨hput.root, hput.inForce, hput.active, hput.nodup, hput.entries⟩, trivial⟩

/-- An update whose read has found nothing leaves all as it was. -/
theorem Traced.afterRead (h : c.Traced w past) (update : Update) {found : Found}
    (hf : ∀ notes?, found = .ok notes? → Accounts w past update.path notes?) :
    (c.afterRead update found).1.Traced w past ∧ (c.afterRead update found).2.Traced w past := by
  cases found with
  | error fault => exact ⟨h, trivial⟩
  | ok notes? =>
      cases notes? with
      | none => exact ⟨h, trivial⟩
      | some notes =>
          obtain ⟨hn, he⟩ := hf _ rfl
          exact h.finishUpdate update hn (he notes rfl)

/-- An update that begins reads the file with the vocabulary in force. -/
theorem Traced.beginUpdate (h : c.Traced w past) (disk : Disk) {path : Text}
    (hp : w.normalize path = path) :
    (c.beginUpdate disk path).1.Traced w past ∧ (c.beginUpdate disk path).2.Traced w past := by
  unfold Catalog.beginUpdate
  split
  · exact h.beginLoad
  · split
    · exact ⟨h, trivial⟩
    · refine ⟨h.drop path, ?_⟩
      split <;> trivial
    · split
      · exact ⟨h, trivial⟩
      · exact ⟨h, h.inForce, hp⟩

/-- A deleted file is dropped, or the settings are loaded again. -/
theorem Traced.deleteFile (h : c.Traced w past) (path : Text) :
    (c.deleteFile path).1.Traced w past ∧ (c.deleteFile path).2.Traced w past := by
  unfold Catalog.deleteFile
  split
  · exact h.beginLoad
  · split
    · exact ⟨h.drop path, trivial⟩
    · exact ⟨h, trivial⟩

/-- A renamed document stays active under its new name, which is in normal form. -/
theorem Traced.renameFile (h : c.Traced w past) (old : Text) {new : Text}
    (hp : w.normalize new = new) :
    (c.renameFile old new).1.Traced w past ∧ (c.renameFile old new).2.Traced w past := by
  unfold Catalog.renameFile
  split
  · exact h.beginLoad
  · split
    · split
      · have hnew : Traced w past { c with active := some new } :=
          h.turnedTo c.scope fun path ha => Option.some.inj ha ▸ hp
        exact hnew.beginScan
      · exact h.beginScan
    · exact ⟨h, trivial⟩

/-- Whatever document becomes active, its name is put into normal form. -/
theorem Traced.changeActive (h : c.Traced w past) (hw : w.root.IsPlain) (path : Option Text) :
    (c.changeActive path).1.Traced w past ∧ (c.changeActive path).2.Traced w past := by
  have hactive : ∀ found, (path.filter (!·.isEmpty)).map c.workspace.normalize = some found →
      w.normalize found = found := by
    intro found hf
    obtain ⟨given, -, rfl⟩ := Option.map_eq_some_iff.1 hf
    rw [Workspace.normalize_congr h.root, Workspace.normalize_normalize hw]
  have hturned := h.turnedTo c.scope hactive
  simp only [Catalog.changeActive]
  split
  · exact hturned.beginScan
  · exact ⟨hturned, trivial⟩

/-- Whatever is asked for, the first step is told from the past. -/
theorem Traced.begin (h : c.Traced w past) (hw : w.root.IsPlain) (disk : Disk) (request : Request) :
    (c.begin disk request).1.Traced w past ∧ (c.begin disk request).2.Traced w past := by
  have hnormal : ∀ path, w.normalize (c.workspace.normalize path) = c.workspace.normalize path := by
    intro path
    rw [Workspace.normalize_congr h.root, Workspace.normalize_normalize hw]
  cases request with
  | rescan => exact h.beginScan
  | reload => exact h.beginLoad
  | setScope scope =>
      simp only [Catalog.begin, changeScope]
      split
      · exact ⟨h, trivial⟩
      · exact (h.turnedTo scope h.active).beginScan
  | setActive path => exact h.changeActive hw path
  | file event =>
      cases event with
      | modified path => exact h.beginUpdate disk (hnormal path)
      | deleted path => exact h.deleteFile _
      | renamed old new => exact h.renameFile _ (hnormal new)

end Catalog

namespace Indexer

open Catalog (Accounts)

variable {w : Workspace} {past later : Chronicle} {x : Indexer} {turn : Turn}
  {rest turns : List Turn}

/-- A read of a path in normal form, with a vocabulary that was in force; what it has found is
explained. -/
structure Read.Traced (w : Workspace) (past : Chronicle) (read : Read) : Prop where
  inForce : past.inForce read.vocabulary
  normal : w.normalize read.path = read.path
  found : ∀ notes?, read.found? = some (.ok notes?) → Accounts w past read.path notes?

/-- An indexer that is told from the past. -/
structure Traced (w : Workspace) (past : Chronicle) (x : Indexer) : Prop where
  catalog : x.catalog.Traced w past
  scans : ∀ job ∈ x.jobs, ∀ scan, job.wait = .list scan → past.inForce scan.vocabulary
  reads : ∀ read ∈ x.reads, read.Traced w past

/-- So is an indexer. -/
theorem Traced.mono (h : x.Traced w past) (hl : later.Extends past) : x.Traced w later where
  catalog := h.catalog.mono hl
  scans job hj scan hs := hl.inForce _ (h.scans job hj scan hs)
  reads read hr := by
    obtain ⟨hv, hn, hf⟩ := h.reads read hr
    refine ⟨hl.inForce _ hv, hn, fun notes? he => ⟨hn, fun notes hnotes => ?_⟩⟩
    exact hl.explains ((hf notes? he).2 notes hnotes)

/-! ### Jobs and reads -/

/-- Jobs and reads do not depend on the catalog. -/
theorem Traced.withCatalog (h : x.Traced w past) {c : Catalog} (hc : c.Traced w past) :
    Traced w past { x with catalog := c } :=
  ⟨hc, h.scans, h.reads⟩

/-- How far a read is makes no difference, but for what it has found. -/
theorem Read.Traced.of_resting {read other : Read} (h : read.Traced w past)
    (he : other.resting = read.resting) : other.Traced w past := by
  have hpath : other.path = read.path := by simpa using congrArg Read.path he
  have hvocabulary : other.vocabulary = read.vocabulary := by
    simpa using congrArg Read.vocabulary he
  have hfound : other.found? = read.found? := by simpa using congrArg Read.found? he
  obtain ⟨hv, hn, hf⟩ := h
  exact ⟨hvocabulary ▸ hv, hpath ▸ hn, fun notes? hnotes => hpath ▸ hf notes? (hfound ▸ hnotes)⟩

/-- A read that gets its turn is the same read. -/
theorem Traced.grantReads (h : x.Traced w past) : x.grantReads.1.Traced w past where
  catalog := h.catalog
  scans := h.scans
  reads read hr := by
    have hm := List.mem_map_of_mem (f := Read.resting) hr
    rw [grantReads_resting] at hm
    obtain ⟨old, hold, he⟩ := List.mem_map.1 hm
    exact (h.reads old hold).of_resting he.symm

/-- Fewer reads have less to be explained. -/
theorem Traced.dropEnded (h : x.Traced w past) (tickets : List Ticket) :
    (x.dropEnded tickets).Traced w past :=
  ⟨h.catalog, h.scans, fun read hr => h.reads read (List.mem_filter.1 hr).1⟩

/-- So have fewer jobs. -/
theorem Traced.retire (h : x.Traced w past) (id : JobId) {c : Catalog} (hc : c.Traced w past) :
    Traced w past { x.retire id with catalog := c } :=
  ⟨hc, fun job hj => h.scans job (List.mem_filter.1 hj).1, h.reads⟩

/-- A job that waits for its list keeps the vocabulary that its scan began with. -/
theorem Traced.suspend (h : x.Traced w past) {job : Job}
    (hs : ∀ scan, job.wait = .list scan → past.inForce scan.vocabulary) :
    (x.suspend job).Traced w past where
  catalog := h.catalog
  scans other ho := by
    rcases List.mem_append.1 ho with ho | ho
    · exact h.scans other ho
    · rw [List.mem_singleton.1 ho]
      exact hs
  reads := h.reads

/-- Reads that are wanted have found nothing yet. -/
theorem Traced.want (h : x.Traced w past) (job : JobId) {vocabulary : Vocabulary}
    (hv : past.inForce vocabulary) {paths : List Text}
    (hp : ∀ path ∈ paths, w.normalize path = path) :
    (x.want job vocabulary paths).Traced w past where
  catalog := h.catalog
  scans := h.scans
  reads read hr := by
    rcases List.mem_append.1 hr with hr | hr
    · exact h.reads read hr
    · obtain ⟨⟨ticket, path⟩, hm, rfl⟩ := List.mem_map.1 hr
      exact ⟨hv, hp path (List.of_mem_zip hm).2, fun notes? hn => by cases hn⟩

/-- The reads that a job waits for are wanted with one vocabulary, and of paths in normal form. -/
theorem Traced.suspendOnReads (h : x.Traced w past) (job : JobId) {vocabulary : Vocabulary}
    (hv : past.inForce vocabulary) {paths : List Text}
    (hp : ∀ path ∈ paths, w.normalize path = path) {wait : List Ticket → Wait}
    (hwait : ∀ tickets scan, wait tickets ≠ .list scan) (request : Request) (more : List Request) :
    (x.suspendOnReads job vocabulary paths wait request more).1.Traced w past := by
  refine Traced.grantReads (Traced.suspend (h.want job hv hp) fun scan hs => ?_)
  exact absurd hs (hwait _ scan)

/-- A job goes on until it waits or is over. -/
theorem Traced.goOn (h : x.Traced w past) (hw : w.root.IsPlain) (disk : Disk) (job : JobId)
    {next : Catalog.Next} (hn : next.Traced w past) (request : Request) (more : List Request) :
    (goOn disk job more x request next).1.Traced w past := by
  -- Requests that are done at once are followed by the next one of the job.
  induction more generalizing x request next with
  | nil =>
      cases next with
      | load => exact h.suspend fun scan hs => by cases hs
      | list scan => exact h.suspend fun other hs => by cases hs; exact hn
      | read scan paths =>
          exact h.suspendOnReads job hn.1 hn.2 (fun _ _ hw => by cases hw) request []
      | update update =>
          exact h.suspendOnReads job hn.1 (by simpa using hn.2) (fun _ _ hw => by cases hw)
            request []
      | tell topic => exact h.suspend fun scan hs => by cases hs
      | done complete => exact h
      | fail fault => exact h
  | cons following more ih =>
      cases next with
      | load => exact h.suspend fun scan hs => by cases hs
      | list scan => exact h.suspend fun other hs => by cases hs; exact hn
      | read scan paths =>
          exact h.suspendOnReads job hn.1 hn.2 (fun _ _ hw => by cases hw) request _
      | update update =>
          exact h.suspendOnReads job hn.1 (by simpa using hn.2) (fun _ _ hw => by cases hw)
            request _
      | tell topic => exact h.suspend fun scan hs => by cases hs
      | done complete =>
          obtain ⟨hc, hnext⟩ := h.catalog.begin hw disk following
          exact ih (h.withCatalog hc) hnext following
      | fail fault => exact h

/-- A job that goes on is retired, and goes on as far as it comes. -/
theorem Traced.resume (h : x.Traced w past) (hw : w.root.IsPlain) (disk : Disk) (job : Job)
    {step : Catalog → Catalog × Catalog.Next}
    (hs : (step x.catalog).1.Traced w past ∧ (step x.catalog).2.Traced w past) :
    (x.resume disk job step).1.Traced w past :=
  (h.retire job.id hs.1).goOn hw disk job.id hs.2 job.request job.rest

/-! ### Texts -/

/-- A read that has ended is told from the text that it has returned. -/
theorem Read.Traced.ended {read : Read} (h : read.Traced w past)
    {text : Except Document.Fault Text}
    (ht : ∀ content, text = .ok content → past.returned read.path content) :
    ∀ notes?, (Catalog.examine read.vocabulary read.path text).1 = .ok notes? →
      Accounts w past read.path notes? := by
  intro notes? he
  refine ⟨h.normal, fun notes hn => ?_⟩
  subst hn
  obtain ⟨content, hc, hin⟩ := Catalog.examine_eq_some he
  exact ⟨content, read.vocabulary, ht content hc, h.inForce, hin⟩

/-- A read ends with what was found in its text. -/
theorem Traced.endRead (h : x.Traced w past) (hx : x.Sane) {read : Read} (hm : read ∈ x.reads)
    {found : Catalog.Found} (hf : ∀ notes?, found = .ok notes? → Accounts w past read.path notes?) :
    (x.endRead read.ticket found).Traced w past where
  catalog := h.catalog
  scans := h.scans
  reads other ho := by
    obtain ⟨old, hold, rfl⟩ := List.mem_map.1 ho
    have holdTraced := h.reads old hold
    split
    · rename_i hticket
      obtain rfl := read_eq_of_ticket hx.tickets hm hold hticket
      refine ⟨holdTraced.inForce, holdTraced.normal, fun notes? hn => hf notes? ?_⟩
      exact Option.some.inj hn
    · exact holdTraced

/-- A fault is noted in a job that waits for reads. -/
theorem Traced.noteFault (h : x.Traced w past) (ticket : Ticket) (fault : Catalog.Fault) :
    (x.noteFault ticket fault).Traced w past where
  catalog := h.catalog
  scans job hj scan hs := by
    obtain ⟨⟨id, wait, request, more⟩, hold, rfl⟩ := List.mem_map.1 hj
    cases wait with
    | list other => exact h.scans _ hold scan hs
    | reads other tickets fault? =>
        cases fault? with
        | none =>
            simp only at hs
            split at hs <;> cases hs
        | some first => cases hs
    | settings => cases hs
    | update update own => cases hs
    | observers topic => cases hs
  reads := h.reads

/-- The text of a file comes in. -/
theorem Traced.takeText (h : x.Traced w past) (hx : x.Sane) (hw : w.root.IsPlain) (disk : Disk)
    {read : Read} (hm : read ∈ x.reads) {text : Except Document.Fault Text}
    (ht : ∀ content, text = .ok content → past.returned read.path content) :
    (x.takeText disk read text).1.Traced w past := by
  have hfound := (h.reads read hm).ended ht
  unfold Indexer.takeText
  generalize hexamine : Catalog.examine read.vocabulary read.path text = examined at hfound
  obtain ⟨found, warnings⟩ := examined
  have hended := h.endRead hx hm hfound
  simp only [endRead_jobs]
  cases hj : x.jobs.find? (·.waitsFor read.ticket) with
  | none => exact (hended.dropEnded _).grantReads
  | some job =>
      have hjob := List.mem_of_find?_eq_some hj
      have hwaits : read.ticket ∈ job.wait.tickets :=
        waitsFor_iff.1 (by simpa using List.find?_some hj)
      obtain ⟨id, wait, request, more⟩ := job
      cases wait with
      | update update own =>
          obtain rfl : read.ticket = own := by simpa [Wait.tickets] using hwaits
          have hpath := (hx.of_update hm hjob rfl).2
          rw [hpath] at hfound
          exact (hended.dropEnded _).grantReads.resume hw disk _
            (h.catalog.afterRead update hfound)
      | reads scan tickets fault? =>
          cases found with
          | error fault => exact (hended.noteFault _ _).grantReads
          | ok notes? => exact hended.grantReads
      | settings => simp [Wait.tickets] at hwaits
      | list scan => simp [Wait.tickets] at hwaits
      | observers topic => simp [Wait.tickets] at hwaits

/-! ### Turns -/

/-- What the reads of a scan have found is explained. -/
theorem Traced.accounts (h : x.Traced w past) {tickets : List Ticket}
    {found : List (Text × Option (List Note))} (hf : x.foundBy tickets = some found) :
    ∀ entry ∈ found, Accounts w past entry.1 entry.2 := by
  intro entry he
  obtain ⟨read, hm, -, hpath, hfound⟩ := exists_of_mem_foundBy hf entry he
  exact hpath ▸ (h.reads read hm).found _ hfound

/-- A job goes on with what has come in for it, as far as its files are named in normal form and the
vocabulary that is in force afterwards is that of the past. -/
theorem Traced.reply (h : x.Traced w past) (hx : x.Sane) (hw : w.root.IsPlain) {disk : Disk}
    {job : Job} (hm : job ∈ x.jobs) {move : Move} {result : Indexer × List Effect}
    (hr : Replies x disk job move result)
    (hlisted : ∀ path ∈ move.listed, w.normalize path = path)
    (hforce : past.inForce result.1.catalog.vocabulary) : result.1.Traced w past := by
  cases hr with
  | notLoaded hwait fault => exact h.resume hw disk job ⟨h.catalog, trivial⟩
  | loaded hwait settings =>
      have hresumes := hx.resumes disk hm (hx.frees job.id)
        (fun c => (c.finishLoad settings).1) [] rfl
      exact h.resume hw disk job (h.catalog.finishLoad settings (hresumes.catalog ▸ hforce))
  | notListed scan hwait fault => exact h.resume hw disk job ⟨h.catalog, trivial⟩
  | listed scan hwait paths =>
      exact h.resume hw disk job (h.catalog.readFiles (h.scans job hm scan hwait) hlisted)
  | notGathered scan tickets fault hwait =>
      exact (h.dropEnded tickets).resume hw disk job ⟨h.catalog, trivial⟩
  | pending scan tickets hwait hnone => exact h
  | gathered scan tickets found hwait hfound =>
      exact (h.dropEnded tickets).resume hw disk job
        (h.catalog.finishScan scan (h.accounts hfound))
  | told topic hwait =>
      cases topic with
      | settingsLoaded => exact h.resume hw disk job h.catalog.beginScan
      | notesUpdated => exact h.resume hw disk job ⟨h.catalog, trivial⟩

/-- An outcome for one job is taken in. -/
theorem Traced.hear (h : x.Traced w past) (hx : x.Sane) (hw : w.root.IsPlain) (disk : Disk)
    {move : Move} {id : JobId} (hid : move.job? = some id)
    (hlisted : ∀ path ∈ move.listed, w.normalize path = path)
    (hforce : past.inForce (x.step disk move).1.catalog.vocabulary) :
    (x.step disk move).1.Traced w past := by
  rcases x.replies_step disk hid with ⟨hquiet, -⟩ | ⟨job, hj, rfl, hreplies⟩
  · rw [hquiet]
    exact h
  · exact h.reply hx hw (find?_id_eq_some hj).1 hreplies hlisted hforce

/-- Several requests of one call are met one after the other. -/
theorem Traced.start (h : x.Traced w past) (hw : w.root.IsPlain) (disk : Disk) (id : JobId)
    (requests : List Request) : (x.start disk id requests).1.Traced w past := by
  cases requests with
  | nil => exact h
  | cons request more =>
      obtain ⟨hc, hnext⟩ := h.catalog.begin hw disk request
      exact (h.withCatalog hc).goOn hw disk id hnext request more

/-- Whatever happens to an indexer, it is told from the past, to which belong the text that has come
in with the turn and the vocabulary that is in force after it. -/
theorem Traced.step (h : x.Traced w past) (hx : x.Sane) (hw : w.root.IsPlain)
    (htext : ∀ read ∈ x.reads, read.isRunning = true → ∀ text,
      turn.move = .text read.ticket (.ok text) → past.returned read.path text)
    (hlisted : ∀ path ∈ turn.move.listed, w.normalize path = path)
    (hforce : past.inForce (x.after turn).catalog.vocabulary) : (x.after turn).Traced w past := by
  obtain ⟨disk, move⟩ := turn
  unfold Indexer.after at hforce ⊢
  cases move with
  | start id requests => exact h.start hw disk id requests
  | text ticket text =>
      rcases x.text_step disk ticket text with ⟨hquiet, -⟩ | ⟨read, hm, rfl, hrunning, htaken⟩
      · rw [hquiet]
        exact h
      · rw [htaken]
        exact h.takeText hx hw disk hm fun content hc => htext read hm hrunning content (hc ▸ rfl)
  | settings id loaded => exact h.hear hx hw disk rfl hlisted hforce
  | list id paths => exact h.hear hx hw disk rfl hlisted hforce
  | gather id => exact h.hear hx hw disk rfl hlisted hforce
  | told id => exact h.hear hx hw disk rfl hlisted hforce

/-! ## Runs -/

/-- In one of the turns, a read of a file has returned a text. -/
def Returned (x : Indexer) (turns : List Turn) (path text : Text) : Prop :=
  ∃ before turn, before ++ [turn] <+: turns ∧ ∃ read ∈ (x.run before).reads,
    read.isRunning = true ∧ read.path = path ∧ turn.move = .text read.ticket (.ok text)

/-- At some moment, a vocabulary was in force. -/
def WasInForce (x : Indexer) (turns : List Turn) (v : Vocabulary) : Prop :=
  ∃ before, before <+: turns ∧ (x.run before).catalog.vocabulary = v

/-- The chronicle of a run. -/
def chronicle (x : Indexer) (turns : List Turn) : Chronicle where
  returned := x.Returned turns
  inForce := x.WasInForce turns

/-- A longer run has a longer chronicle. -/
theorem extends_chronicle (x : Indexer) {turns more : List Turn} (h : turns <+: more) :
    (x.chronicle more).Extends (x.chronicle turns) where
  returned path text ht := by
    obtain ⟨before, turn, hbefore, hread⟩ := ht
    exact ⟨before, turn, hbefore.trans h, hread⟩
  inForce v hv := by
    obtain ⟨before, hbefore, heq⟩ := hv
    exact ⟨before, hbefore.trans h, heq⟩

/-- **Runs keep to the chronicle.**  After any run, an indexer is told from the chronicle of it. -/
theorem Traced.run (h : x.Traced w (x.chronicle [])) (hlegal : Legal x turns) (hw : w.root.IsPlain)
    (hlisted : ∀ turn ∈ turns, ∀ path ∈ turn.move.listed, w.normalize path = path) :
    (x.run turns).Traced w (x.chronicle turns) := by
  induction turns using List.reverseRecOn with
  | nil => exact h
  | append_singleton turns turn ih =>
      have hbefore : turns <+: turns ++ [turn] := List.prefix_append turns [turn]
      have hprior : (x.run turns).Traced w (x.chronicle turns) :=
        ih hlegal.left fun other ho => hlisted other (List.mem_append_left _ ho)
      have hrun : x.run (turns ++ [turn]) = (x.run turns).after turn := by
        rw [run_append]
        rfl
      rw [hrun]
      refine (hprior.mono (x.extends_chronicle hbefore)).step hlegal.right.sane hw ?_ ?_ ?_
      · intro read hm hrunning text hmove
        exact ⟨turns, turn, List.prefix_refl _, read, hm, hrunning, rfl, hmove⟩
      · exact hlisted turn (by simp)
      · exact ⟨turns ++ [turn], List.prefix_refl _, congrArg (·.catalog.vocabulary) hrun⟩

/-- A new indexer has nothing to tell. -/
theorem traced_ofSettings {settings : Settings} {hasFile : Bool} {c : Catalog}
    {warnings : List Warning} (hc : Catalog.ofSettings w settings hasFile = .ok (c, warnings))
    (limit : Int) : (ofCatalog c limit).Traced w ((ofCatalog c limit).chronicle []) where
  catalog := by
    have hforce : ((ofCatalog c limit).chronicle []).inForce c.vocabulary :=
      ⟨[], List.prefix_refl _, rfl⟩
    unfold Catalog.ofSettings at hc
    split at hc
    · cases hc
      exact ⟨rfl, hforce, (fun path ha => by cases ha), List.nodup_nil, fun entry he => by cases he⟩
    · cases hc
  scans := by simp [ofCatalog]
  reads := by simp [ofCatalog]

/-- **Entries are explained by texts.**  However calls are interleaved, and whether they fail or
not: each file that the index holds is there once, under its absolute path in normal form; and its
notes are those of one text that one read of it has returned, found with one vocabulary that was in
force, so they are notes of that file, line by line. -/
theorem entries_explained {root : Text} (hroot : (Path.ofText root).isAbsolute = true)
    {search : Search} {file : Text} {override : Option Text}
    (hw : w = .ofRoot (Path.ofText root) search file override) {settings : Settings}
    {hasFile : Bool} {c : Catalog} {warnings : List Warning}
    (hc : Catalog.ofSettings w settings hasFile = .ok (c, warnings)) {limit : Int}
    (hcalls : Calls turns)
    (hlists : ∀ turn ∈ turns, ∀ path ∈ turn.move.listed, ∃ search, (w.configure search).Lists path)
    {index : Index} (hindex : ((ofCatalog c limit).run turns).catalog.index = index) :
    index.paths.Nodup ∧
      (∀ path ∈ index.paths, (Path.ofText path).isAbsolute = true ∧ w.normalize path = path) ∧
      ∀ entry ∈ index.entries, index.get? entry.path = some entry ∧
        (∃ text v, (ofCatalog c limit).Returned turns entry.path text ∧
          (ofCatalog c limit).WasInForce turns v ∧ v.notesIn entry.path text = .ok entry.notes) ∧
        (∀ note ∈ entry.notes, note.path = entry.path ∧ 1 ≤ note.line) ∧
        (entry.notes.map (·.line)).Pairwise (· < ·) := by
  have hplain : w.root.IsPlain := hw ▸ (Workspace.ofRoot_isPlain hroot search file override).root
  have hlisted : ∀ turn ∈ turns, ∀ path ∈ turn.move.listed, w.normalize path = path := by
    intro turn ht path hp
    obtain ⟨search, disk, paths, hd, hlist, hm⟩ := hlists turn ht path hp
    exact (Workspace.of_mem_list (w := w.configure search) hplain hd hlist hm).1
  -- The chronicle of the run accounts for each entry.
  have htraced := ((traced_ofSettings hc limit).run (hcalls.legal c limit) hplain hlisted).catalog
  obtain ⟨-, -, -, hnodup, hentries⟩ := htraced
  rw [hindex] at hnodup hentries
  refine ⟨hnodup, fun path hp => ?_, fun entry he => ?_⟩
  · obtain ⟨entry, he, rfl⟩ := List.mem_map.1 hp
    have hnormal := (hentries entry he).1
    have hlocated := Workspace.locate_isPlain hplain entry.path
    refine ⟨?_, hnormal⟩
    rw [← hnormal, Workspace.normalize, Path.ofText_toText hlocated]
    exact hlocated.absolute
  · obtain ⟨-, hexplains⟩ := hentries entry he
    obtain ⟨hnotes, hlines⟩ := hexplains.follows
    exact ⟨Index.get?_of_mem hnodup he, hexplains, hnotes, hlines⟩

open Catalog (opened project)

/-- A scan, and then a reload of settings from a file that holds no text. -/
def brokenReload : List Turn :=
  [.start 1 [.rescan], .list 1 (.ok ["/p/a.py"]), .text 0 (.ok "# TODO: a\n"), .gather 1, .told 1,
    .start 2 [.reload], .settings 2 (.error .notText)].map turnOf

/-- The calls of this run are in order. -/
theorem calls_brokenReload : Calls brokenReload := by
  decide

/-- The reload fails, and the note that was found before is still there. -/
theorem brokenReload_runs :
    ¬ Along Smooth (ofCatalog opened 8) brokenReload ∧
      (∀ turn ∈ brokenReload, ∀ path ∈ turn.move.listed, path = "/p/a.py") ∧
      (((ofCatalog opened 8).run brokenReload).catalog.index.entries.map fun entry =>
        (entry.path, entry.notes.map (·.line))) = [(("/p/a.py" : Text), [1])] := by
  rw [Catalog.opened_eq]
  decide +kernel

/-- The note that is still there after a call has failed is explained. -/
theorem entries_explained_brokenReload :
    ¬ Along Smooth (ofCatalog opened 8) brokenReload ∧
      ((ofCatalog opened 8).run brokenReload).catalog.index.paths = [("/p/a.py" : Text)] ∧
      ∀ entry ∈ ((ofCatalog opened 8).run brokenReload).catalog.index.entries,
        ∃ text v, (ofCatalog opened 8).Returned brokenReload entry.path text ∧
          (ofCatalog opened 8).WasInForce brokenReload v ∧
          v.notesIn entry.path text = .ok entry.notes := by
  obtain ⟨hfails, hlisted, hentries⟩ := brokenReload_runs
  obtain ⟨warnings, hopened⟩ := Catalog.ofSettings_project
  have hproject : project = .ofRoot (Path.ofText "/p") {} [] none := rfl
  have hlists : ∀ turn ∈ brokenReload, ∀ path ∈ turn.move.listed,
      ∃ search, (project.configure search).Lists path :=
    fun turn ht path hp => ⟨{}, hlisted turn ht path hp ▸ lists_project⟩
  have hexplained := (entries_explained Catalog.project_isAbsolute hproject hopened
    calls_brokenReload hlists (rfl : ((ofCatalog opened 8).run brokenReload).catalog.index = _)).2.2
  have hpaths := congrArg (List.map Prod.fst) hentries
  rw [List.map_map] at hpaths
  exact ⟨hfails, hpaths, fun entry he => (hexplained entry he).2.1⟩

end Indexer

end Marginalia
