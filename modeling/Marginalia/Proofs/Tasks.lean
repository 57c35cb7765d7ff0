import Marginalia.Proofs.Reads
import Marginalia.Proofs.Replies

/-!
# What an indexer has to do

An indexer keeps jobs, tickets and reads; what counts for its catalog is less than that.  Each job
is a *task* (`Indexer.Task`): a request together with how the catalog goes on with it.  Whatever
happens to an indexer that works on single calls (`Indexer.Sane`), one of three things comes of it
(`Indexer.Change`):

* nothing that concerns the catalog;
* a call begins, and the catalog takes its first step;
* one task goes on with the outcome that it waited for (`Indexer.Proceeds`).

`Indexer.Sane.step_change` is the one place where the steps of an indexer are taken apart.  All that
is said about interleaved calls is derived from it.
-/

namespace Marginalia

namespace Indexer

/-! ## Tasks -/

/-- The tickets of the reads that are waited for. -/
def Wait.tickets : Wait → List Ticket
  | .reads _ tickets _ => tickets
  | .update _ ticket => [ticket]
  | _ => []

/-- Whether a read is of the kind that is waited for. -/
def Wait.Wants : Wait → Read → Prop
  | .reads scan _ _, read => read.vocabulary = scan.vocabulary
  | .update u _, read => read.vocabulary = u.vocabulary ∧ read.path = u.path
  | _, _ => True

/-- A job waits for the reads whose tickets it has. -/
theorem waitsFor_iff {job : Job} {ticket : Ticket} :
    job.waitsFor ticket = true ↔ ticket ∈ job.wait.tickets := by
  obtain ⟨id, wait, request, rest⟩ := job
  cases wait <;> simp [Job.waitsFor, Wait.tickets, eq_comm]

variable {x y : Indexer}

/-- The path of the read with a ticket. -/
def pathOf (x : Indexer) (ticket : Ticket) : Text := ((x.readAt? ticket).map (·.path)).getD []

/-- How the catalog goes on when a wait is over. -/
def nextOf (x : Indexer) : Wait → Catalog.Next
  | .settings => .load
  | .list scan => .list scan
  | .reads scan tickets _ => .read scan (tickets.map x.pathOf)
  | .update update _ => .update update
  | .observers topic => .tell topic

/-- A request that is being met, and how it goes on. -/
structure Task where
  id : JobId
  request : Request
  next : Catalog.Next

/-- The task of a job. -/
def taskOf (x : Indexer) (job : Job) : Task :=
  { id := job.id, request := job.request, next := x.nextOf job.wait }

/-- What an indexer has to do. -/
def tasks (x : Indexer) : List Task := x.jobs.map x.taskOf

/-- A task is over when it is done or has failed. -/
def Task.pending (task : Task) : List Task :=
  match task.next with
  | .done _ => []
  | .fail _ => []
  | _ => [task]

/-- Whether an effect can be noticed by observers or by callers. -/
def Effect.isSaid : Effect → Bool
  | .tell _ _ => true
  | .finish _ _ => true
  | _ => false

/-- What observers and callers notice of some effects. -/
def said (effects : List Effect) : List Effect := effects.filter Effect.isSaid

/-- What is noticed of a task that has come so far. -/
def Task.announcement (task : Task) : List Effect :=
  match task.next with
  | .tell topic => [.tell task.id topic]
  | .done complete => [.finish task.id (.ok (answerTo task.request complete))]
  | .fail fault => [.finish task.id (.error fault)]
  | _ => []

/-- What is said by effects is said one after the other. -/
theorem said_append (effects more : List Effect) :
    said (effects ++ more) = said effects ++ said more :=
  List.filter_append _ _

/-- Effects that say nothing say nothing together. -/
theorem said_eq_nil {effects : List Effect} (h : ∀ effect ∈ effects, effect.isSaid = false) :
    said effects = [] := by
  apply List.filter_eq_nil_iff.2
  intro effect he
  simp [h effect he]

/-- To begin reads says nothing. -/
theorem said_grantReads (x : Indexer) : said x.grantReads.2 = [] := by
  apply said_eq_nil
  intro effect he
  simp only [grantReads, List.mem_map] at he
  obtain ⟨read, -, rfl⟩ := he
  rfl

/-- Warnings are no announcements. -/
theorem said_warnings (warnings : List Warning) : said (warnings.map .warn) = [] := by
  apply said_eq_nil
  intro effect he
  obtain ⟨warning, -, rfl⟩ := List.mem_map.1 he
  rfl

/-! ## Sane indexers -/

/-- The bookkeeping of an indexer that works on single calls: jobs and reads are told apart by their
numbers, each job has the reads that it waits for, and what a read has found was found in its
file. -/
structure Sane (x : Indexer) : Prop where
  ids : (x.jobs.map (·.id)).Nodup
  single : ∀ job ∈ x.jobs, job.rest = []
  tickets : x.tickets.Nodup
  lt : ∀ ticket ∈ x.tickets, ticket < x.nextTicket
  awaited : ∀ job ∈ x.jobs, ∀ ticket ∈ job.wait.tickets, ∃ read,
    x.readAt? ticket = some read ∧ read.job = job.id ∧ job.wait.Wants read
  found : ∀ ticket read found, x.readAt? ticket = some read → read.found? = some found →
    ∃ text, found = (Catalog.examine read.vocabulary read.path text).1

/-- Without jobs and reads, there is nothing to be wrong. -/
theorem sane_ofCatalog (c : Catalog) (limit : Int) : (ofCatalog c limit).Sane where
  ids := List.nodup_nil
  single := by simp [ofCatalog]
  tickets := List.nodup_nil
  lt := by simp [ofCatalog, Indexer.tickets]
  awaited := by simp [ofCatalog]
  found := by simp [ofCatalog, readAt?]

/-- Where the reads that are waited for have the same paths, what comes after them is the same. -/
theorem nextOf_congr {wait : Wait}
    (h : ∀ ticket ∈ wait.tickets, y.pathOf ticket = x.pathOf ticket) :
    y.nextOf wait = x.nextOf wait := by
  cases wait with
  | reads scan tickets fault? =>
      have hpaths : tickets.map y.pathOf = tickets.map x.pathOf := List.map_congr_left h
      simp only [nextOf, hpaths]
  | settings => rfl
  | list scan => rfl
  | update update ticket => rfl
  | observers topic => rfl

/-- What jobs have to do depends on the reads that they wait for, and on no other. -/
theorem tasks_congr {jobs : List Job}
    (h : ∀ job ∈ jobs, ∀ ticket ∈ job.wait.tickets, y.readAt? ticket = x.readAt? ticket) :
    jobs.map y.taskOf = jobs.map x.taskOf := by
  apply List.map_congr_left
  intro job hj
  have hpaths : ∀ ticket ∈ job.wait.tickets, y.pathOf ticket = x.pathOf ticket := by
    intro ticket ht
    rw [pathOf, pathOf, h job hj ticket ht]
  rw [taskOf, taskOf, nextOf_congr hpaths]

/-- No read is waited for by two jobs. -/
theorem Sane.eq_of_ticket (h : x.Sane) {job other : Job} (hj : job ∈ x.jobs) (ho : other ∈ x.jobs)
    {ticket : Ticket} (ht : ticket ∈ job.wait.tickets) (ht' : ticket ∈ other.wait.tickets) :
    job.id = other.id := by
  obtain ⟨read, he, hid, -⟩ := h.awaited job hj ticket ht
  obtain ⟨read', he', hid', -⟩ := h.awaited other ho ticket ht'
  rw [he, Option.some.injEq] at he'
  rw [← hid, ← hid', he']

/-- Jobs are told apart by their numbers. -/
theorem Sane.eq_of_id (h : x.Sane) {job other : Job} (hj : job ∈ x.jobs) (ho : other ∈ x.jobs)
    (hid : job.id = other.id) : job = other := by
  have hids := h.ids
  generalize x.jobs = jobs at hids hj ho
  induction jobs with
  | nil => simp at hj
  | cons first rest ih =>
      rw [List.map_cons, List.nodup_cons] at hids
      obtain ⟨hnot, hrest⟩ := hids
      rcases List.mem_cons.1 hj with rfl | hj'
      · rcases List.mem_cons.1 ho with rfl | ho'
        · rfl
        · exact absurd (List.mem_map.2 ⟨other, ho', hid.symm⟩) hnot
      · rcases List.mem_cons.1 ho with rfl | ho'
        · exact absurd (List.mem_map.2 ⟨job, hj', hid⟩) hnot
        · exact ih hrest hj' ho'

/-- An indexer with fewer jobs, the reads of which are as they were. -/
theorem Sane.shrink (h : x.Sane) (hjobs : y.jobs.Sublist x.jobs)
    (htickets : y.tickets.Sublist x.tickets) (hnext : y.nextTicket = x.nextTicket)
    (hentry : ∀ job ∈ y.jobs, ∀ ticket ∈ job.wait.tickets, y.readAt? ticket = x.readAt? ticket)
    (hfound : ∀ ticket read found, y.readAt? ticket = some read → read.found? = some found →
      ∃ text, found = (Catalog.examine read.vocabulary read.path text).1) : y.Sane where
  ids := (hjobs.map _).nodup h.ids
  single := fun job hj => h.single job (hjobs.subset hj)
  tickets := htickets.nodup h.tickets
  lt := fun ticket ht => hnext ▸ h.lt ticket (htickets.subset ht)
  awaited := by
    intro job hj ticket ht
    rw [hentry job hj ticket ht]
    exact h.awaited job (hjobs.subset hj) ticket ht
  found := hfound

/-- How far a read is does not matter. -/
theorem Sane.grantReads (h : x.Sane) : x.grantReads.1.Sane := by
  refine h.shrink (List.Sublist.refl _) (by simp) rfl (fun _ _ _ _ => by simp) ?_
  intro ticket read found he hf
  rw [readAt?_grantReads] at he
  exact h.found ticket read found he hf

/-- To begin reads leaves the tasks as they are. -/
theorem tasks_grantReads (x : Indexer) : x.grantReads.1.tasks = x.tasks :=
  tasks_congr fun _ _ _ _ => readAt?_grantReads _ _

/-- Nothing about jobs and reads depends on the catalog. -/
theorem Sane.withCatalog (h : x.Sane) (c : Catalog) : Sane { x with catalog := c } :=
  ⟨h.ids, h.single, h.tickets, h.lt, h.awaited, h.found⟩

/-- A job that is not there yet can be added, if its reads are there. -/
theorem Sane.suspend (h : x.Sane) {job : Job} (hid : ∀ other ∈ x.jobs, other.id ≠ job.id)
    (hrest : job.rest = [])
    (hawaited : ∀ ticket ∈ job.wait.tickets, ∃ read,
      x.readAt? ticket = some read ∧ read.job = job.id ∧ job.wait.Wants read) :
    (x.suspend job).Sane where
  ids := by
    simp only [Indexer.suspend, List.map_append, List.map_cons, List.map_nil]
    rw [List.nodup_append]
    refine ⟨h.ids, by simp, ?_⟩
    intro id hm other ho
    obtain ⟨found, hf, rfl⟩ := List.mem_map.1 hm
    rw [List.mem_singleton.1 ho]
    exact hid found hf
  single := by
    intro other ho
    rcases List.mem_append.1 ho with ho | ho
    · exact h.single other ho
    · rw [List.mem_singleton.1 ho]
      exact hrest
  tickets := h.tickets
  lt := h.lt
  awaited := by
    intro other ho
    rcases List.mem_append.1 ho with ho | ho
    · exact h.awaited other ho
    · rw [List.mem_singleton.1 ho]
      exact hawaited
  found := h.found

/-- A job that waits has a task. -/
theorem tasks_suspend (x : Indexer) (job : Job) :
    (x.suspend job).tasks = x.tasks ++ [x.taskOf job] := by
  simp only [tasks, Indexer.suspend, List.map_append, List.map_cons, List.map_nil]
  rfl

/-- New reads get tickets that no other read has. -/
theorem Sane.want (h : x.Sane) (job : JobId) (vocabulary : Vocabulary) (paths : List Text) :
    (x.want job vocabulary paths).Sane where
  ids := h.ids
  single := h.single
  tickets := nodup_tickets_want h.tickets h.lt job vocabulary paths
  lt := tickets_want_lt h.lt job vocabulary paths
  awaited := by
    intro other ho ticket ht
    obtain ⟨read, he, hread⟩ := h.awaited other ho ticket ht
    exact ⟨read, readAt?_want_of_some he job vocabulary paths, hread⟩
  found := by
    intro ticket read found he hf
    rcases of_readAt?_want he with he | hnone
    · exact h.found ticket read found he hf
    · rw [hnone] at hf
      cases hf

/-- They are not those that jobs wait for already. -/
theorem Sane.tasks_want (h : x.Sane) (job : JobId) (vocabulary : Vocabulary) (paths : List Text) :
    (x.want job vocabulary paths).tasks = x.tasks := by
  apply tasks_congr
  intro other ho ticket ht
  obtain ⟨read, he, -⟩ := h.awaited other ho ticket ht
  rw [he, readAt?_want_of_some he]

/-! ## Going on with a call -/

/-- What comes of a call that has come so far: it waits, or it is over. -/
structure Goes (x : Indexer) (task : Task) (result : Indexer × List Effect) : Prop where
  sane : result.1.Sane
  catalog : result.1.catalog = x.catalog
  tasks : result.1.tasks = x.tasks ++ task.pending
  said : said result.2 = task.announcement

/-- The paths of new reads are those that they were wanted for. -/
theorem Sane.map_pathOf_want (h : x.Sane) (job : JobId) (vocabulary : Vocabulary)
    (paths : List Text) :
    (List.range' x.nextTicket paths.length).map (x.want job vocabulary paths).pathOf = paths := by
  apply List.ext_getElem
  · simp
  · intro n hn hpaths
    rw [List.getElem_map, List.getElem_range', Nat.one_mul, pathOf,
      readAt?_want h.tickets h.lt job vocabulary paths hpaths]
    rfl

/-- A call that waits for reads has them. -/
theorem Sane.suspendOnReads (h : x.Sane) {id : JobId} (hid : ∀ job ∈ x.jobs, job.id ≠ id)
    (vocabulary : Vocabulary) (paths : List Text) (wait : List Ticket → Wait) (request : Request)
    {next : Catalog.Next}
    (htickets : ∀ ticket ∈ (wait (List.range' x.nextTicket paths.length)).tickets,
      ticket ∈ List.range' x.nextTicket paths.length)
    (hwants : ∀ ticket, ∀ path ∈ paths, (wait (List.range' x.nextTicket paths.length)).Wants
      { ticket, job := id, path, vocabulary })
    (hnext : (x.want id vocabulary paths).nextOf (wait (List.range' x.nextTicket paths.length)) =
      next) :
    let result := x.suspendOnReads id vocabulary paths wait request []
    result.1.Sane ∧ result.1.catalog = x.catalog ∧
      result.1.tasks = x.tasks ++ [({ id, request, next } : Task)] ∧ said result.2 = [] := by
  have heq : x.suspendOnReads id vocabulary paths wait request [] =
      ((x.want id vocabulary paths).suspend
        { id, wait := wait (List.range' x.nextTicket paths.length), request }).grantReads := rfl
  have hy := h.want id vocabulary paths
  have hawaited : ∀ ticket ∈ (wait (List.range' x.nextTicket paths.length)).tickets, ∃ read,
      (x.want id vocabulary paths).readAt? ticket = some read ∧ read.job = id ∧
        (wait (List.range' x.nextTicket paths.length)).Wants read := by
    intro ticket ht
    obtain ⟨hle, hlt⟩ := List.mem_range'_1.1 (htickets ticket ht)
    obtain ⟨n, rfl⟩ := Nat.exists_eq_add_of_le hle
    have hn : n < paths.length := Nat.lt_of_add_lt_add_left hlt
    exact ⟨_, readAt?_want h.tickets h.lt id vocabulary paths hn, rfl,
      hwants _ _ (List.getElem_mem hn)⟩
  have hs : ((x.want id vocabulary paths).suspend
      { id, wait := wait (List.range' x.nextTicket paths.length), request }).Sane :=
    hy.suspend hid rfl hawaited
  simp only [heq]
  refine ⟨hs.grantReads, rfl, ?_, said_grantReads _⟩
  rw [tasks_grantReads, tasks_suspend, h.tasks_want, taskOf, hnext]

/-- A call goes on until it waits or is over. -/
theorem Sane.goOn (h : x.Sane) (disk : Disk) {id : JobId} (hid : ∀ job ∈ x.jobs, job.id ≠ id)
    (request : Request) (next : Catalog.Next) :
    Goes x { id, request, next } (goOn disk id [] x request next) := by
  have hsuspend : ∀ wait : Wait, wait.tickets = [] →
      (x.suspend { id, wait, request }).Sane := by
    intro wait hw
    refine h.suspend hid rfl fun ticket ht => ?_
    simp [hw] at ht
  cases next with
  | load => exact ⟨hsuspend _ rfl, rfl, tasks_suspend _ _, rfl⟩
  | list scan => exact ⟨hsuspend _ rfl, rfl, tasks_suspend _ _, rfl⟩
  | read scan paths =>
      have hpaths : (x.want id scan.vocabulary paths).nextOf
          (.reads scan (List.range' x.nextTicket paths.length) none) = .read scan paths := by
        rw [nextOf, h.map_pathOf_want]
      obtain ⟨hs, hc, ht, he⟩ := h.suspendOnReads hid scan.vocabulary paths
        (fun tickets => .reads scan tickets none) request (fun _ ht => ht) (fun _ _ _ => rfl) hpaths
      exact ⟨hs, hc, ht, he⟩
  | update update =>
      obtain ⟨hs, hc, ht, he⟩ := h.suspendOnReads hid update.vocabulary [update.path]
        (fun tickets => .update update (tickets.headD 0)) request
        (by simp [Wait.tickets]) (by simp [Wait.Wants]) rfl
      exact ⟨hs, hc, ht, he⟩
  | tell topic => exact ⟨hsuspend _ rfl, rfl, tasks_suspend _ _, rfl⟩
  | done complete => exact ⟨h, rfl, (List.append_nil _).symm, rfl⟩
  | fail fault => exact ⟨h, rfl, (List.append_nil _).symm, rfl⟩

/-! ## Steps -/

/-- How a task goes on with the outcome that it waited for. -/
inductive Proceeds : Move → Catalog → Task → Catalog × Catalog.Next → Prop
  | loadFailed {c : Catalog} {id : JobId} {request : Request} (fault : Settings.LoadFault) :
    Proceeds (.settings id (.error fault)) c { id, request, next := .load }
      (c, .fail (.settings fault))
  | loaded {c : Catalog} {id : JobId} {request : Request} (settings : Settings) :
    Proceeds (.settings id (.ok settings)) c { id, request, next := .load }
      (c.finishLoad settings).1
  | listFailed {c : Catalog} {id : JobId} {request : Request} {scan : Catalog.Scan}
      (fault : Disk.Fault) :
    Proceeds (.list id (.error fault)) c { id, request, next := .list scan }
      (c, .fail (.disk fault))
  | listed {c : Catalog} {id : JobId} {request : Request} {scan : Catalog.Scan}
      (paths : List Text) :
    Proceeds (.list id (.ok paths)) c { id, request, next := .list scan } (c.readFiles scan paths)
  | gatherFailed {c : Catalog} {id : JobId} {request : Request} {scan : Catalog.Scan}
      {paths : List Text} (fault : Catalog.Fault) :
    Proceeds (.gather id) c { id, request, next := .read scan paths } (c, .fail fault)
  | gathered {c : Catalog} {id : JobId} {request : Request} {scan : Catalog.Scan}
      (found : List (Text × Option (List Note)))
      (hfound : ∀ entry ∈ found, ∃ text,
        (Catalog.examine scan.vocabulary entry.1 text).1 = .ok entry.2) :
    Proceeds (.gather id) c { id, request, next := .read scan (found.map Prod.fst) }
      (c.finishScan scan found)
  | updated {c : Catalog} {id : JobId} {request : Request} {update : Catalog.Update}
      (ticket : Ticket) (text : Except Document.Fault Text) :
    Proceeds (.text ticket text) c { id, request, next := .update update }
      (c.afterRead update (Catalog.examine update.vocabulary update.path text).1)
  | told {c : Catalog} {id : JobId} {request : Request} {topic : Topic} :
    Proceeds (.told id) c { id, request, next := .tell topic } (c.afterTold topic)

/-- What comes of a move. -/
inductive Change (x : Indexer) (disk : Disk) (move : Move) (result : Indexer × List Effect) : Prop
  /-- Nothing that concerns the catalog. -/
  | quiet (catalog : result.1.catalog = x.catalog) (tasks : result.1.tasks = x.tasks)
      (said : said result.2 = [])
  /-- A call begins. -/
  | begun (id : JobId) (request : Request) (move : move = .start id [request])
      (catalog : result.1.catalog = (x.catalog.begin disk request).1)
      (tasks : result.1.tasks = x.tasks ++
        Task.pending { id, request, next := (x.catalog.begin disk request).2 })
      (said : said result.2 =
        Task.announcement { id, request, next := (x.catalog.begin disk request).2 })
  /-- A task goes on. -/
  | resumed (task : Task) (mem : task ∈ x.tasks) (step : Catalog × Catalog.Next)
      (proceeds : Proceeds move x.catalog task step) (catalog : result.1.catalog = step.1)
      (tasks : result.1.tasks =
        x.tasks.filter (·.id ≠ task.id) ++ Task.pending { task with next := step.2 })
      (said : said result.2 = Task.announcement { task with next := step.2 })

/-- An indexer that differs from another one in the reads of one job alone. -/
structure Frees (x z : Indexer) (id : JobId) : Prop where
  catalog : z.catalog = x.catalog
  jobs : z.jobs = x.jobs
  nextTicket : z.nextTicket = x.nextTicket
  tickets : z.tickets.Sublist x.tickets
  entry : ∀ job ∈ x.jobs, job.id ≠ id → ∀ ticket ∈ job.wait.tickets,
    z.readAt? ticket = x.readAt? ticket
  found : ∀ ticket read found, z.readAt? ticket = some read → read.found? = some found →
    ∃ text, found = (Catalog.examine read.vocabulary read.path text).1

variable {z : Indexer}

/-- An indexer frees what it needs not. -/
theorem Sane.frees (h : x.Sane) (id : JobId) : Frees x x id :=
  ⟨rfl, rfl, rfl, List.Sublist.refl _, fun _ _ _ _ _ => rfl, h.found⟩

/-- The reads that a job waits for can be removed. -/
theorem Sane.frees_dropEnded (h : x.Sane) {job : Job} (hj : job ∈ x.jobs) :
    Frees x (x.dropEnded job.wait.tickets) job.id where
  catalog := rfl
  jobs := rfl
  nextTicket := rfl
  tickets := tickets_dropEnded_sublist _ _
  entry := by
    intro other ho hne ticket ht
    refine readAt?_dropEnded (fun hm => ?_) x
    exact hne (h.eq_of_ticket ho hj ht hm)
  found := fun ticket read found he => h.found ticket read found (readAt?_of_dropEnded h.tickets he)

/-- A job has gone on with a step of the catalog, as far as it comes with it. -/
structure Resumes (x : Indexer) (job : Job) (step : Catalog × Catalog.Next)
    (result : Indexer × List Effect) : Prop where
  sane : result.1.Sane
  catalog : result.1.catalog = step.1
  tasks : result.1.tasks =
    x.tasks.filter (·.id ≠ job.id) ++ Task.pending { x.taskOf job with next := step.2 }
  said : said result.2 = Task.announcement { x.taskOf job with next := step.2 }

/-- A job goes on when it waited for something. -/
theorem Sane.resumes (h : x.Sane) (disk : Disk) {job : Job} (hj : job ∈ x.jobs)
    (hz : Frees x z job.id) (step : Catalog → Catalog × Catalog.Next) (effects : List Effect)
    (he : said effects = []) :
    Resumes x job (step x.catalog)
      ((z.resume disk job step).1, effects ++ (z.resume disk job step).2) := by
  have hbase : Sane { z.retire job.id with catalog := (step x.catalog).1 } := by
    refine h.shrink ?_ hz.tickets hz.nextTicket ?_ hz.found
    · rw [← hz.jobs]
      exact List.filter_sublist
    · intro other ho
      obtain ⟨hm, hne⟩ := List.mem_filter.1 ho
      exact hz.entry other (hz.jobs ▸ hm) (by simpa using hne)
  have hid : ∀ other ∈ (z.retire job.id).jobs, other.id ≠ job.id := by
    intro other ho
    simpa using (List.mem_filter.1 ho).2
  have htasks : ({ z.retire job.id with catalog := (step x.catalog).1 } : Indexer).tasks =
      x.tasks.filter (·.id ≠ job.id) := by
    have hjobs : (z.retire job.id).jobs = x.jobs.filter (·.id ≠ job.id) := by
      rw [retire, hz.jobs]
    rw [tasks, hjobs, tasks, List.filter_map]
    apply tasks_congr
    intro other ho
    obtain ⟨hm, hne⟩ := List.mem_filter.1 ho
    exact hz.entry other hm (by simpa using hne)
  have heq : z.resume disk job step =
      Indexer.goOn disk job.id [] { z.retire job.id with catalog := (step x.catalog).1 } job.request
        (step x.catalog).2 := by
    rw [Indexer.resume, hz.catalog, h.single job hj]
  have hgoes := hbase.goOn disk hid job.request (step x.catalog).2
  rw [heq]
  refine ⟨hgoes.sane, hgoes.catalog, ?_, ?_⟩
  · rw [hgoes.tasks, htasks]
    rfl
  · rw [said_append, he, List.nil_append, hgoes.said]
    rfl

/-- A job that goes on is a task that does. -/
theorem Resumes.change {job : Job} {step : Catalog × Catalog.Next} {result : Indexer × List Effect}
    (h : Resumes x job step result) (hj : job ∈ x.jobs) {disk : Disk} {move : Move}
    (hp : Proceeds move x.catalog (x.taskOf job) step) :
    result.1.Sane ∧ Change x disk move result :=
  ⟨h.sane, .resumed (x.taskOf job) (List.mem_map_of_mem hj) _ hp h.catalog h.tasks h.said⟩

/-- A job that goes on in a way that its task can is a change of that task. -/
theorem Sane.resume (h : x.Sane) (disk : Disk) {job : Job} (hj : job ∈ x.jobs)
    (hz : Frees x z job.id) {move : Move} (step : Catalog → Catalog × Catalog.Next)
    (hp : Proceeds move x.catalog (x.taskOf job) (step x.catalog)) (effects : List Effect)
    (he : said effects = []) :
    (z.resume disk job step).1.Sane ∧
      Change x disk move ((z.resume disk job step).1, effects ++ (z.resume disk job step).2) :=
  (h.resumes disk hj hz step effects he).change hj hp

/-- What the read with a ticket has found, if it has ended well. -/
def foundAt (x : Indexer) (ticket : Ticket) : Option (Text × Option (List Note)) :=
  match x.reads.find? (·.ticket = ticket) with
  | some read =>
    match read.found? with
    | some (.ok notes?) => some (read.path, notes?)
    | _ => none
  | none => none

/-- What several reads have found is what the first one has found, and then the others. -/
theorem foundBy_cons (x : Indexer) (ticket : Ticket) (rest : List Ticket) :
    x.foundBy (ticket :: rest) =
      (x.foundAt ticket).bind fun entry => (x.foundBy rest).map (entry :: ·) := by
  have hby : ∀ tickets, x.foundBy tickets = tickets.mapM x.foundAt := fun _ => rfl
  rw [hby, hby, List.mapM_cons]
  cases x.foundAt ticket with
  | none => rfl
  | some entry => cases rest.mapM x.foundAt <;> rfl

/-- Something was found at a ticket if its read has ended well. -/
theorem of_foundAt {ticket : Ticket} {entry : Text × Option (List Note)}
    (h : x.foundAt ticket = some entry) : ∃ read, x.readAt? ticket = some read ∧
      read.path = entry.1 ∧ read.found? = some (.ok entry.2) := by
  unfold foundAt at h
  cases hr : x.reads.find? (·.ticket = ticket) with
  | none => simp [hr] at h
  | some read =>
      simp only [hr] at h
      split at h
      · rename_i notes? hf
        cases h
        exact ⟨read.resting, by rw [readAt?_eq_map, hr]; rfl, by simp, by simpa using hf⟩
      · cases h

/-- What reads have found together was found by each of them. -/
theorem exists_of_mem_foundBy {tickets : List Ticket} {found : List (Text × Option (List Note))}
    (hf : x.foundBy tickets = some found) : ∀ entry ∈ found, ∃ read ∈ x.reads,
      read.ticket ∈ tickets ∧ read.path = entry.1 ∧ read.found? = some (.ok entry.2) := by
  induction tickets generalizing found with
  | nil =>
      cases hf
      simp
  | cons ticket rest ih =>
      rw [foundBy_cons, Option.bind_eq_some_iff] at hf
      obtain ⟨first, hfirst, hothers⟩ := hf
      obtain ⟨others, ho, rfl⟩ := Option.map_eq_some_iff.1 hothers
      intro entry he
      rcases List.mem_cons.1 he with rfl | he
      · obtain ⟨read, hread, hpath, hfound⟩ := of_foundAt hfirst
        obtain ⟨hm, hticket⟩ := of_readAt?_eq_some hread
        obtain ⟨original, hmem, rfl⟩ := List.mem_map.1 hm
        rw [Read.resting_ticket] at hticket
        rw [Read.resting_path] at hpath
        rw [Read.resting_found?] at hfound
        exact ⟨original, hmem, hticket ▸ List.mem_cons_self, hpath, hfound⟩
      · obtain ⟨read, hmem, hticket, hread⟩ := ih ho entry he
        exact ⟨read, hmem, List.mem_cons_of_mem _ hticket, hread⟩

/-- What the reads of a scan have found was found in their files. -/
theorem Sane.of_foundBy (h : x.Sane) {v : Vocabulary} {tickets : List Ticket}
    {found : List (Text × Option (List Note))} (hf : x.foundBy tickets = some found)
    (hv : ∀ ticket ∈ tickets, ∀ read, x.readAt? ticket = some read → read.vocabulary = v) :
    tickets.map x.pathOf = found.map Prod.fst ∧
      ∀ entry ∈ found, ∃ text, (Catalog.examine v entry.1 text).1 = .ok entry.2 := by
  induction tickets generalizing found with
  | nil =>
      cases hf
      simp
  | cons ticket rest ih =>
      rw [foundBy_cons, Option.bind_eq_some_iff] at hf
      obtain ⟨entry, hentry, hrest⟩ := hf
      obtain ⟨others, hothers, rfl⟩ := Option.map_eq_some_iff.1 hrest
      obtain ⟨hpaths, hfound⟩ := ih hothers fun t ht => hv t (List.mem_cons_of_mem _ ht)
      obtain ⟨read, hread, hpath, hnotes⟩ := of_foundAt hentry
      refine ⟨?_, fun other ho => ?_⟩
      · rw [List.map_cons, List.map_cons, hpaths, pathOf, hread]
        simp [hpath]
      · rcases List.mem_cons.1 ho with rfl | ho
        · obtain ⟨text, ht⟩ := h.found ticket read _ hread hnotes
          rw [hv ticket List.mem_cons_self read hread, hpath] at ht
          exact ⟨text, ht.symm⟩
        · exact hfound other ho

/-- Where nothing happens, nothing changes. -/
theorem Sane.quiet (h : x.Sane) (disk : Disk) (move : Move) :
    x.Sane ∧ Change x disk move (x, []) :=
  ⟨h, .quiet rfl rfl rfl⟩

/-- A job is found by its name, as no other one has it. -/
theorem Sane.find?_id (h : x.Sane) {job : Job} (hj : job ∈ x.jobs) :
    x.jobs.find? (·.id = job.id) = some job := by
  cases hf : x.jobs.find? (·.id = job.id) with
  | none =>
      have := List.find?_eq_none.1 hf job hj
      simp at this
  | some other =>
      obtain ⟨ho, hid⟩ := find?_id_eq_some hf
      rw [h.eq_of_id ho hj hid]

/-- The job that waits for a read is found where its text comes in. -/
theorem Sane.find?_waitsFor (h : x.Sane) {job : Job} (hj : job ∈ x.jobs) {ticket : Ticket}
    (ht : ticket ∈ job.wait.tickets) : x.jobs.find? (·.waitsFor ticket) = some job := by
  cases hf : x.jobs.find? (·.waitsFor ticket) with
  | none =>
      have hno := List.find?_eq_none.1 hf job hj
      exact absurd (waitsFor_iff.2 ht) hno
  | some other =>
      have ho := List.mem_of_find?_eq_some hf
      have hticket : ticket ∈ other.wait.tickets :=
        waitsFor_iff.1 (by simpa using List.find?_some hf)
      rw [h.eq_of_id ho hj (h.eq_of_ticket ho hj hticket ht)]

/-- Settings come in for a job that waits for them. -/
theorem Sane.settings_resumes (h : x.Sane) (disk : Disk) {job : Job} (hj : job ∈ x.jobs)
    (hw : job.wait = .settings) (settings : Settings) :
    Resumes x job (x.catalog.finishLoad settings).1
      (x.step disk (.settings job.id (.ok settings))) := by
  simp only [step, h.find?_id hj, hw]
  exact h.resumes disk hj (h.frees _) (fun c => (c.finishLoad settings).1) _ (said_warnings _)

/-- The reads that a scan waits for go by the vocabulary of the scan. -/
theorem Sane.vocabulary_of_reads (h : x.Sane) {job : Job} (hj : job ∈ x.jobs) {scan : Catalog.Scan}
    {tickets : List Ticket} {fault? : Option Catalog.Fault}
    (hw : job.wait = .reads scan tickets fault?) : ∀ ticket ∈ tickets, ∀ read,
      x.readAt? ticket = some read → read.vocabulary = scan.vocabulary := by
  intro ticket ht read he
  obtain ⟨other, hother, -, hwants⟩ := h.awaited job hj ticket (by rwa [hw])
  rw [he, Option.some.injEq] at hother
  rw [hw] at hwants
  exact hother ▸ hwants

/-- A job whose task is to read files waits for reads of them. -/
theorem exists_reads_of_nextOf {wait : Wait} {scan : Catalog.Scan} {paths : List Text}
    (h : x.nextOf wait = .read scan paths) :
    ∃ tickets fault?, wait = .reads scan tickets fault? ∧ tickets.map x.pathOf = paths := by
  cases wait with
  | reads own tickets fault? =>
      cases h
      exact ⟨tickets, fault?, rfl, rfl⟩
  | _ => cases h

/-- What the reads of a scan have found together is what the scan goes on with. -/
theorem Sane.proceeds_gathered (h : x.Sane) {job : Job} (hj : job ∈ x.jobs) {scan : Catalog.Scan}
    {tickets : List Ticket} (hw : job.wait = .reads scan tickets none)
    {found : List (Text × Option (List Note))} (hfound : x.foundBy tickets = some found) :
    Proceeds (.gather job.id) x.catalog (x.taskOf job) (x.catalog.finishScan scan found) := by
  obtain ⟨hpaths, hexamined⟩ := h.of_foundBy hfound (h.vocabulary_of_reads hj hw)
  rw [taskOf, hw, nextOf, hpaths]
  exact .gathered found hexamined

/-- An outcome comes in for a job. -/
theorem Sane.reply_change (h : x.Sane) (disk : Disk) {move : Move} {id : JobId}
    (hid : move.job? = some id) :
    (x.step disk move).1.Sane ∧ Change x disk move (x.step disk move) := by
  rcases x.replies_step disk hid with ⟨hquiet, -⟩ | ⟨job, hj, rfl, hreplies⟩
  · rw [hquiet]
    exact h.quiet disk move
  · obtain ⟨hm, -⟩ := find?_id_eq_some hj
    have htask : x.taskOf job = ⟨job.id, job.request, x.nextOf job.wait⟩ := rfl
    generalize x.step disk move = result at hreplies
    cases hreplies with
    | notLoaded hw fault =>
        exact h.resume disk hm (h.frees _) _ (htask ▸ hw ▸ .loadFailed fault) [] rfl
    | loaded hw settings =>
        exact h.resume disk hm (h.frees _) _ (htask ▸ hw ▸ .loaded settings) _ (said_warnings _)
    | notListed scan hw fault =>
        exact h.resume disk hm (h.frees _) _ (htask ▸ hw ▸ .listFailed fault) [] rfl
    | listed scan hw paths =>
        exact h.resume disk hm (h.frees _) _ (htask ▸ hw ▸ .listed paths) [] rfl
    | notGathered scan tickets fault hw =>
        have hfrees := hw ▸ h.frees_dropEnded hm
        exact h.resume disk hm hfrees _ (htask ▸ hw ▸ .gatherFailed fault) [] rfl
    | pending scan tickets hw hnone => exact h.quiet disk _
    | gathered scan tickets found hw hfound =>
        have hfrees := hw ▸ h.frees_dropEnded hm
        exact h.resume disk hm hfrees _ (h.proceeds_gathered hm hw hfound) [] rfl
    | told topic hw => exact h.resume disk hm (h.frees _) _ (htask ▸ hw ▸ .told) [] rfl

/-- The first fault among the reads of a scan is noted in its job, and nowhere else. -/
theorem tasks_noteFault (x : Indexer) (ticket : Ticket) (fault : Catalog.Fault) :
    (x.noteFault ticket fault).tasks = x.tasks := by
  simp only [tasks, noteFault, List.map_map]
  apply List.map_congr_left
  intro job _
  obtain ⟨id, wait, request, rest⟩ := job
  cases wait with
  | reads scan tickets fault? =>
      cases fault? with
      | none =>
          simp only [Function.comp_apply]
          split <;> rfl
      | some first => rfl
  | settings => rfl
  | list scan => rfl
  | update update own => rfl
  | observers topic => rfl

/-- To note a fault leaves the names of jobs alone. -/
theorem ids_noteFault (x : Indexer) (ticket : Ticket) (fault : Catalog.Fault) :
    (x.noteFault ticket fault).jobs.map (·.id) = x.jobs.map (·.id) := by
  simp only [noteFault, List.map_map]
  apply List.map_congr_left
  intro job _
  simp only [Function.comp_apply]
  split
  · split <;> rfl
  · rfl

/-- A job in which a fault is noted waits for the same reads. -/
theorem mem_noteFault {job : Job} {ticket : Ticket} {fault : Catalog.Fault}
    (hm : job ∈ (x.noteFault ticket fault).jobs) :
    ∃ old ∈ x.jobs, job.id = old.id ∧ job.rest = old.rest ∧
      job.wait.tickets = old.wait.tickets ∧ job.wait.Wants = old.wait.Wants := by
  obtain ⟨⟨id, wait, request, rest⟩, hold, heq⟩ := List.mem_map.1 hm
  refine ⟨_, hold, ?_⟩
  subst heq
  simp only
  split
  · split <;> exact ⟨rfl, rfl, rfl, rfl⟩
  · exact ⟨rfl, rfl, rfl, rfl⟩

/-- A fault is noted for a scan, and its reads stay those that it waits for. -/
theorem Sane.noteFault (h : x.Sane) (ticket : Ticket) (fault : Catalog.Fault) :
    (x.noteFault ticket fault).Sane := by
  refine ⟨?_, ?_, h.tickets, h.lt, ?_, h.found⟩
  · rw [ids_noteFault]
    exact h.ids
  · intro job hm
    obtain ⟨old, hold, -, hrest, -⟩ := mem_noteFault hm
    rw [hrest]
    exact h.single old hold
  · intro job hm
    obtain ⟨old, hold, hid, -, ht, hw⟩ := mem_noteFault hm
    rw [hid, ht, hw]
    exact h.awaited old hold

/-- A read that has ended has found what was in its file. -/
theorem Sane.found_endRead (h : x.Sane) {read : Read} (hm : read ∈ x.reads)
    (text : Except Document.Fault Text) (other : Ticket) (found : Read) (result : Catalog.Found)
    (he : (x.endRead read.ticket (Catalog.examine read.vocabulary read.path text).1).readAt? other =
      some found) (hf : found.found? = some result) :
    ∃ text, result = (Catalog.examine found.vocabulary found.path text).1 := by
  rw [readAt?_endRead] at he
  split at he
  · rename_i ho
    rw [ho, readAt?_of_mem h.tickets hm] at he
    cases he
    cases hf
    exact ⟨text, by rw [Read.resting_vocabulary, Read.resting_path]⟩
  · exact h.found other found result he hf

/-- A read that ends leaves the tasks as they are. -/
theorem tasks_endRead (x : Indexer) (ticket : Ticket) (found : Catalog.Found) :
    (x.endRead ticket found).tasks = x.tasks := by
  apply List.map_congr_left
  intro job _
  have hpaths : ∀ other ∈ job.wait.tickets,
      (x.endRead ticket found).pathOf other = x.pathOf other := by
    intro other _
    rw [pathOf, pathOf, readAt?_endRead]
    split
    · cases x.readAt? other <;> rfl
    · rfl
  rw [taskOf, taskOf, nextOf_congr hpaths]

/-- What a read has found was found in its file. -/
theorem Sane.endRead (h : x.Sane) {read : Read} (hm : read ∈ x.reads)
    (text : Except Document.Fault Text) :
    (x.endRead read.ticket (Catalog.examine read.vocabulary read.path text).1).Sane where
  ids := h.ids
  single := h.single
  tickets := by
    rw [tickets_endRead]
    exact h.tickets
  lt := by
    rw [tickets_endRead]
    exact h.lt
  awaited := by
    intro job hj ticket ht
    obtain ⟨found, he, hid, hwants⟩ := h.awaited job hj ticket ht
    rw [readAt?_endRead, he]
    split
    · refine ⟨_, rfl, hid, ?_⟩
      obtain ⟨id, wait, request, rest⟩ := job
      cases wait <;> exact hwants
    · exact ⟨found, rfl, hid, hwants⟩
  found := h.found_endRead hm text

/-- A read that ends concerns only the job that waits for it. -/
theorem Sane.frees_endRead (h : x.Sane) {read : Read} (hm : read ∈ x.reads)
    (text : Except Document.Fault Text) {id : JobId}
    (hid : ∀ job ∈ x.jobs, read.ticket ∈ job.wait.tickets → job.id = id) :
    Frees x (((x.endRead read.ticket (Catalog.examine read.vocabulary read.path text).1).dropEnded
      [read.ticket]).grantReads.1) id where
  catalog := rfl
  jobs := rfl
  nextTicket := rfl
  tickets := by
    rw [tickets_grantReads]
    have := tickets_dropEnded_sublist
      (x.endRead read.ticket (Catalog.examine read.vocabulary read.path text).1) [read.ticket]
    rwa [tickets_endRead] at this
  entry := by
    intro job hj hne ticket ht
    have hother : ticket ≠ read.ticket := by
      intro heq
      obtain rfl := heq
      exact hne (hid job hj ht)
    rw [readAt?_grantReads, readAt?_dropEnded (by simpa using hother), readAt?_endRead,
      if_neg hother]
  found := by
    intro ticket found result he hf
    rw [readAt?_grantReads] at he
    have hnodup : (x.endRead read.ticket
        (Catalog.examine read.vocabulary read.path text).1).tickets.Nodup := by
      rw [tickets_endRead]
      exact h.tickets
    exact h.found_endRead hm text ticket found result (readAt?_of_dropEnded hnodup he) hf

/-- With a text, warnings are given and reads begin, but nothing is said. -/
theorem said_text (warnings : List Warning) (z : Indexer) :
    said (warnings.map Effect.warn ++ z.grantReads.2) = [] := by
  rw [said_append, said_warnings, said_grantReads]
  rfl

/-- A read that no job waits for any longer ends to no effect. -/
theorem Sane.endRead_unheard (h : x.Sane) {read : Read} (hm : read ∈ x.reads)
    (text : Except Document.Fault Text) {found : Catalog.Found}
    (hfound : found = (Catalog.examine read.vocabulary read.path text).1)
    (hno : ∀ job ∈ x.jobs, read.ticket ∉ job.wait.tickets) :
    (((x.endRead read.ticket found).dropEnded [read.ticket]).grantReads.1).Sane ∧
      (((x.endRead read.ticket found).dropEnded [read.ticket]).grantReads.1).tasks = x.tasks := by
  have hfrees := h.frees_endRead hm text (fun job hj ht =>
    (absurd ht (hno job hj) : job.id = read.job))
  rw [← hfound] at hfrees
  have hentries : ∀ job ∈ x.jobs, ∀ ticket ∈ job.wait.tickets,
      (((x.endRead read.ticket found).dropEnded [read.ticket]).grantReads.1).readAt? ticket =
        x.readAt? ticket := by
    intro job hj ticket ht
    have hother : ticket ≠ read.ticket := fun he => hno job hj (he ▸ ht)
    rw [readAt?_grantReads, readAt?_dropEnded (by simpa using hother), readAt?_endRead,
      if_neg hother]
  exact ⟨h.shrink (List.Sublist.refl _) hfrees.tickets rfl hentries hfrees.found,
    tasks_congr hentries⟩

/-- An update waits for a read of its file, with its vocabulary. -/
theorem Sane.of_update (h : x.Sane) {read : Read} (hm : read ∈ x.reads) {job : Job}
    (hj : job ∈ x.jobs) {update : Catalog.Update} (hw : job.wait = .update update read.ticket) :
    read.vocabulary = update.vocabulary ∧ read.path = update.path := by
  have ht : read.ticket ∈ job.wait.tickets := by simp [hw, Wait.tickets]
  obtain ⟨other, he, -, hwants⟩ := h.awaited _ hj read.ticket ht
  rw [readAt?_of_mem h.tickets hm, Option.some.injEq] at he
  subst he
  rw [hw] at hwants
  obtain ⟨hvocabulary, hpath⟩ := hwants
  rw [Read.resting_vocabulary] at hvocabulary
  rw [Read.resting_path] at hpath
  exact ⟨hvocabulary, hpath⟩

/-- An update goes on with what is found in the text it waits for. -/
theorem Sane.examine_update (h : x.Sane) {read : Read} (hm : read ∈ x.reads) {job : Job}
    (hj : job ∈ x.jobs) {update : Catalog.Update} (hw : job.wait = .update update read.ticket)
    (text : Except Document.Fault Text) :
    Catalog.examine read.vocabulary read.path text =
      Catalog.examine update.vocabulary update.path text := by
  obtain ⟨hvocabulary, hpath⟩ := h.of_update hm hj hw
  rw [hvocabulary, hpath]

/-- The update for which the text of a ticket is read. -/
def updateFor? (x : Indexer) (ticket : Ticket) : Option Catalog.Update :=
  match x.reads.find? fun read => read.ticket = ticket && read.isRunning with
  | none => none
  | some read =>
    match x.jobs.find? (·.waitsFor read.ticket) with
    | none => none
    | some job =>
      match job.wait with
      | .update update _ => some update
      | _ => none

/-- A step that concerns no task. -/
def Idle (x : Indexer) (result : Indexer × List Effect) : Prop :=
  result.1.Sane ∧ result.1.catalog = x.catalog ∧ result.1.tasks = x.tasks ∧ said result.2 = []

/-- A text that no job waits for any longer concerns no task. -/
theorem Sane.takeText_unheard (h : x.Sane) (disk : Disk) {read : Read} (hm : read ∈ x.reads)
    (text : Except Document.Fault Text) (hj : x.jobs.find? (·.waitsFor read.ticket) = none) :
    x.Idle (x.takeText disk read text) := by
  have hno : ∀ job ∈ x.jobs, read.ticket ∉ job.wait.tickets := fun job hjob ht =>
    List.find?_eq_none.1 hj job hjob (waitsFor_iff.2 ht)
  obtain ⟨hsane, htasks⟩ := h.endRead_unheard hm text rfl hno
  simp only [takeText, endRead_jobs, hj]
  exact ⟨hsane, rfl, htasks, said_text _ _⟩

/-- A text that a scan waits for concerns no task, as the scan goes on only when all are there. -/
theorem Sane.takeText_noted (h : x.Sane) (disk : Disk) {read : Read} (hm : read ∈ x.reads)
    (text : Except Document.Fault Text) {job : Job} {scan : Catalog.Scan} {tickets : List Ticket}
    {fault? : Option Catalog.Fault} (hj : x.jobs.find? (·.waitsFor read.ticket) = some job)
    (hw : job.wait = .reads scan tickets fault?) : x.Idle (x.takeText disk read text) := by
  have hended := h.endRead hm text
  simp only [takeText, endRead_jobs, hj, hw]
  generalize (Catalog.examine read.vocabulary read.path text).1 = found at hended
  cases found with
  | error fault =>
      refine ⟨(hended.noteFault _ _).grantReads, rfl, ?_, said_text _ _⟩
      rw [tasks_grantReads, tasks_noteFault, tasks_endRead]
  | ok notes? =>
      refine ⟨hended.grantReads, rfl, ?_, said_text _ _⟩
      rw [tasks_grantReads, tasks_endRead]

/-- With the text that it waits for, an update goes on. -/
theorem Sane.takeText_update (h : x.Sane) (disk : Disk) {read : Read} (hm : read ∈ x.reads)
    (text : Except Document.Fault Text) {job : Job} {update : Catalog.Update}
    (hj : x.jobs.find? (·.waitsFor read.ticket) = some job)
    (hw : job.wait = .update update read.ticket) :
    Resumes x job
      (x.catalog.afterRead update (Catalog.examine update.vocabulary update.path text).1)
      (x.takeText disk read text) := by
  have hjob := List.mem_of_find?_eq_some hj
  have hwaits : read.ticket ∈ job.wait.tickets := by simp [hw, Wait.tickets]
  have hfrees := h.frees_endRead hm text fun other ho ht => h.eq_of_ticket ho hjob ht hwaits
  rw [← h.examine_update hm hjob hw]
  simp only [takeText, endRead_jobs, hj, hw]
  exact h.resumes disk hjob hfrees (fun c => c.afterRead update _) _ (said_text _ _)

/-- The text of a file ends an update, or concerns no task. -/
theorem Sane.text_cases (h : x.Sane) (disk : Disk) (ticket : Ticket)
    (text : Except Document.Fault Text) :
    x.updateFor? ticket = none ∧ x.Idle (x.step disk (.text ticket text)) ∨
      ∃ job update, x.jobs.find? (·.waitsFor ticket) = some job ∧
        job.wait = .update update ticket ∧ x.updateFor? ticket = some update ∧
        Resumes x job
          (x.catalog.afterRead update (Catalog.examine update.vocabulary update.path text).1)
          (x.step disk (.text ticket text)) := by
  simp only [step, updateFor?]
  cases hr : x.reads.find? (fun read => read.ticket = ticket && read.isRunning) with
  | none => exact .inl ⟨rfl, h, rfl, rfl, rfl⟩
  | some read =>
      have hm := List.mem_of_find?_eq_some hr
      have hfound : read.ticket = ticket ∧ read.isRunning = true := by
        simpa using List.find?_some hr
      obtain ⟨rfl, -⟩ := hfound
      cases hj : x.jobs.find? (·.waitsFor read.ticket) with
      | none => exact .inl ⟨by simp only [hj], h.takeText_unheard disk hm text hj⟩
      | some job =>
          have hwaits := waitsFor_iff.1 (by simpa using List.find?_some hj : job.waitsFor _ = true)
          cases hw : job.wait with
          | update update own =>
              obtain rfl : read.ticket = own := by simpa [hw, Wait.tickets] using hwaits
              exact .inr ⟨job, update, rfl, hw, by simp only [hj, hw],
                h.takeText_update disk hm text hj hw⟩
          | reads scan tickets fault? =>
              exact .inl ⟨by simp only [hj, hw], h.takeText_noted disk hm text hj hw⟩
          | _ => simp [hw, Wait.tickets] at hwaits

/-- The text of a file comes in. -/
theorem Sane.text_change (h : x.Sane) (disk : Disk) (ticket : Ticket)
    (text : Except Document.Fault Text) :
    (x.step disk (.text ticket text)).1.Sane ∧
      Change x disk (.text ticket text) (x.step disk (.text ticket text)) := by
  rcases h.text_cases disk ticket text with
    ⟨-, hsane, hcatalog, htasks, hsaid⟩ | ⟨job, update, hj, hw, -, hresumes⟩
  · exact ⟨hsane, .quiet hcatalog htasks hsaid⟩
  · have hnext : x.taskOf job =
        { id := job.id, request := job.request, next := .update update } := by
      rw [taskOf, hw]
      rfl
    exact hresumes.change (List.mem_of_find?_eq_some hj) (hnext ▸ .updated ticket text)

/-- Whether a call may begin: it is one request, under a number that is not in use. -/
def Move.IsCall (x : Indexer) (move : Move) : Prop :=
  ∀ id requests, move = .start id requests →
    (∀ job ∈ x.jobs, job.id ≠ id) ∧ ∃ request, requests = [request]

/-- **What a step comes to.**  Whatever happens to a sane indexer, it stays sane, and of its tasks
at most one goes on. -/
theorem Sane.step_change (h : x.Sane) (disk : Disk) {move : Move} (hm : move.IsCall x) :
    (x.step disk move).1.Sane ∧ Change x disk move (x.step disk move) := by
  -- Four of the six moves are replies to a job that waits for them.
  cases move with
  | start id requests =>
      obtain ⟨hid, request, rfl⟩ := hm id requests rfl
      have hgoes := (h.withCatalog (x.catalog.begin disk request).1).goOn disk hid request
        (x.catalog.begin disk request).2
      exact ⟨hgoes.sane, .begun id request rfl hgoes.catalog hgoes.tasks hgoes.said⟩
  | settings id loaded => exact h.reply_change disk rfl
  | list id paths => exact h.reply_change disk rfl
  | text ticket text => exact h.text_change disk ticket text
  | gather id => exact h.reply_change disk rfl
  | told id => exact h.reply_change disk rfl

end Indexer

end Marginalia
