import Marginalia.Indexer.Job

/-!
# The indexer

An indexer works on any number of jobs at once.  A job is a list of requests to its catalog that
are met one after the other.  The indexer never waits itself: it says what blocking work is to be
done (`Effect.ask`) and whom to tell that something happened (`Effect.tell`), and it goes on with a
job when it is handed the outcome (`Move`).  Outcomes may come at any time and in any order, and
jobs may begin at any time, so the runs of an indexer are all the ways in which its jobs can be
interleaved.

Not all reads of a scan are asked for at once: `limit` bounds how many are under way, over all
jobs, and the others wait for their turn in order (`grant`).  A read that a job no longer waits
for, because another read of its scan failed, is under way all the same until its outcome is there.

Main statement: `step_told_of_absent`, what no job waits for changes nothing.
-/

namespace Marginalia

/-- A catalog with the jobs and reads under way. -/
structure Indexer where
  catalog : Catalog
  /-- How many reads may be under way. -/
  limit : Nat := 8
  jobs : List Indexer.Job := []
  /-- The reads that are wanted or under way, in the order in which they were wanted. -/
  reads : List Indexer.Read := []
  /-- The number of the next read. -/
  nextTicket : Ticket := 0
deriving Inhabited

namespace Indexer

/-- The answer to a request. -/
def answerTo (request : Request) (complete : Bool) : Option Bool :=
  match request with
  | .rescan => some complete
  | _ => none

/-- An indexer with no job; at least one read may be under way. -/
def ofCatalog (catalog : Catalog) (limit : Int := 8) : Indexer :=
  { catalog, limit := max 1 limit.toNat }

/-! ## Reads -/

/-- Starts the reads whose turn it is, and asks for their texts. -/
def grantReads (x : Indexer) : Indexer × List Effect :=
  let (reads, started) := grant x.limit x.reads
  ({ x with reads }, started.map fun read => .ask read.job (.read read.ticket read.path))

/-- Takes out reads that have ended. -/
def dropEnded (x : Indexer) (tickets : List Ticket) : Indexer :=
  { x with reads := x.reads.filter fun read =>
      !(tickets.contains read.ticket && read.found?.isSome) }

/-- Ends a read. -/
def endRead (x : Indexer) (ticket : Ticket) (found : Catalog.Found) : Indexer :=
  { x with reads := x.reads.map fun read =>
      if read.ticket = ticket then { read with progress := .ended found } else read }

/-- What the reads with some tickets have found, if all have ended well. -/
def foundBy (x : Indexer) (tickets : List Ticket) : Option (List (Text × Option (List Note))) :=
  tickets.mapM fun ticket =>
    match x.reads.find? (·.ticket = ticket) with
    | some read =>
      match read.found? with
      | some (.ok notes?) => some (read.path, notes?)
      | _ => none
    | none => none

/-! ## Jobs -/

/-- Adds a job that waits. -/
def suspend (x : Indexer) (job : Job) : Indexer := { x with jobs := x.jobs ++ [job] }

/-- Takes out a job. -/
def retire (x : Indexer) (id : JobId) : Indexer :=
  { x with jobs := x.jobs.filter (·.id ≠ id) }

/-- A job that waits for the texts of files: reads are added for them. -/
def suspendOnReads (x : Indexer) (job : JobId) (vocabulary : Vocabulary) (paths : List Text)
    (wait : List Ticket → Wait) (request : Request) (rest : List Request) :
    Indexer × List Effect :=
  let tickets := List.range' x.nextTicket paths.length
  let reads := (tickets.zip paths).map fun (ticket, path) =>
    ({ ticket, job, path, vocabulary } : Read)
  ({ x with reads := x.reads ++ reads, nextTicket := x.nextTicket + paths.length }.suspend
    { id := job, wait := wait tickets, request, rest }).grantReads

/-- Does the rest of a job: what is next for its request, and then the requests after it. -/
def goOn (disk : Disk) (job : JobId) :
    (rest : List Request) → Indexer → Request → Catalog.Next → Indexer × List Effect
  | rest, x, request, .load =>
    (x.suspend { id := job, wait := .settings, request, rest }, [.ask job .settings])
  | rest, x, request, .list scan =>
    (x.suspend { id := job, wait := .list scan, request, rest }, [.ask job .list])
  | rest, x, request, .read scan paths =>
    x.suspendOnReads job scan.vocabulary paths
      (fun tickets => .reads scan tickets none) request rest
  | rest, x, request, .update update =>
    x.suspendOnReads job update.vocabulary [update.path]
      (fun tickets => .update update (tickets.headD 0)) request rest
  | rest, x, request, .tell topic =>
    (x.suspend { id := job, wait := .observers topic, request, rest }, [.tell job topic])
  | _, x, _, .fail fault => (x, [.finish job (.error fault)])
  | [], x, request, .done complete => (x, [.finish job (.ok (answerTo request complete))])
  | request :: rest, x, _, .done _ =>
    let (catalog, next) := x.catalog.begin disk request
    goOn disk job rest { x with catalog } request next

/-- Begins a job; a job without requests ends at once. -/
def start (x : Indexer) (disk : Disk) (job : JobId) : List Request → Indexer × List Effect
  | [] => (x, [.finish job (.ok none)])
  | request :: rest =>
    let (catalog, next) := x.catalog.begin disk request
    goOn disk job rest { x with catalog } request next

/-- Goes on with a job that waited, after a step of the catalog. -/
def resume (x : Indexer) (disk : Disk) (job : Job) (step : Catalog → Catalog × Catalog.Next) :
    Indexer × List Effect :=
  let (catalog, next) := step x.catalog
  goOn disk job.id job.rest { x.retire job.id with catalog } job.request next

/-- Notes a fault among the reads of a scan; the first one counts. -/
def noteFault (x : Indexer) (ticket : Ticket) (fault : Catalog.Fault) : Indexer :=
  { x with jobs := x.jobs.map fun job =>
      match job.wait with
      | .reads scan tickets none =>
        if tickets.contains ticket then { job with wait := .reads scan tickets (some fault) }
        else job
      | _ => job }

/-- Whether a job waits for reads that it need not wait for any longer. -/
def canGather (x : Indexer) (job : Job) : Bool :=
  match job.wait with
  | .reads _ tickets fault? => fault?.isSome || (x.foundBy tickets).isSome
  | _ => false

/-- Takes in the text of a file. -/
def takeText (x : Indexer) (disk : Disk) (read : Read) (text : Except Document.Fault Text) :
    Indexer × List Effect :=
  let (found, warnings) := Catalog.examine read.vocabulary read.path text
  let warned := warnings.map Effect.warn
  let x := x.endRead read.ticket found
  match x.jobs.find? (·.waitsFor read.ticket) with
  | none =>
    let (x, asked) := (x.dropEnded [read.ticket]).grantReads
    (x, warned ++ asked)
  | some job =>
    match job.wait with
    | .update update _ =>
      let (x, asked) := (x.dropEnded [read.ticket]).grantReads
      let (x, effects) := x.resume disk job fun c => c.afterRead update found
      (x, warned ++ asked ++ effects)
    | _ =>
      let x := match found with
        | .error fault => x.noteFault read.ticket fault
        | .ok _ => x
      let (x, asked) := x.grantReads
      (x, warned ++ asked)

/-- Goes on with a scan, if its reads are over or one of them has failed. -/
def takeReads (x : Indexer) (disk : Disk) (job : Job) : Indexer × List Effect :=
  match job.wait with
  | .reads _ tickets (some fault) =>
    (x.dropEnded tickets).resume disk job fun c => (c, .fail fault)
  | .reads scan tickets none =>
    match x.foundBy tickets with
    | some found => (x.dropEnded tickets).resume disk job fun c => c.finishScan scan found
    | none => (x, [])
  | _ => (x, [])

/-- Takes in settings. -/
def takeSettings (x : Indexer) (disk : Disk) (job : Job) :
    Except Settings.LoadFault Settings → Indexer × List Effect
  | .error fault => x.resume disk job fun c => (c, .fail (.settings fault))
  | .ok settings =>
    let (_, warnings) := x.catalog.finishLoad settings
    let (x, effects) := x.resume disk job fun c => (c.finishLoad settings).1
    (x, warnings.map .warn ++ effects)

/-- Takes in the list of files. -/
def takeList (x : Indexer) (disk : Disk) (job : Job) (scan : Catalog.Scan) :
    Except Disk.Fault (List Text) → Indexer × List Effect
  | .error fault => x.resume disk job fun c => (c, .fail (.disk fault))
  | .ok paths => x.resume disk job fun c => c.readFiles scan paths

/-- A step of the indexer.  The disk is looked at where requests begin. -/
def step (x : Indexer) (disk : Disk) : Move → Indexer × List Effect
  | .start job requests => x.start disk job requests
  | .text ticket text =>
    match x.reads.find? fun read => read.ticket = ticket && read.isRunning with
    | some read => x.takeText disk read text
    | none => (x, [])
  | .settings job loaded =>
    match x.jobs.find? (·.id = job) with
    | some job =>
      match job.wait with
      | .settings => x.takeSettings disk job loaded
      | _ => (x, [])
    | none => (x, [])
  | .list job paths =>
    match x.jobs.find? (·.id = job) with
    | some job =>
      match job.wait with
      | .list scan => x.takeList disk job scan paths
      | _ => (x, [])
    | none => (x, [])
  | .gather job =>
    match x.jobs.find? (·.id = job) with
    | some job => x.takeReads disk job
    | none => (x, [])
  | .told job =>
    match x.jobs.find? (·.id = job) with
    | some job =>
      match job.wait with
      | .observers topic => x.resume disk job fun c => c.afterTold topic
      | _ => (x, [])
    | none => (x, [])

/-! ## Laws -/

/-- An outcome that no job waits for changes nothing. -/
theorem step_told_of_absent {x : Indexer} {job : JobId} (h : ∀ j ∈ x.jobs, j.id ≠ job)
    (disk : Disk) : x.step disk (.told job) = (x, []) := by
  have : x.jobs.find? (fun j => decide (j.id = job)) = none :=
    List.find?_eq_none.2 fun j hj => by simpa using h j hj
  simp [step, this]

end Indexer

end Marginalia
