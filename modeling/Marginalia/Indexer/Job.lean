import Marginalia.Indexer.Read

/-!
# Jobs

A job is a list of requests to a catalog that are met one after the other.  Between two steps it
waits for something (`Wait`): for blocking work, or for observers to be told.  `Move` is what can
happen to jobs, and `Effect` what a step of a job does to the world.
-/

namespace Marginalia

/-- Blocking work. -/
inductive Work where
  /-- Loading the settings. -/
  | settings
  /-- Listing the files of the workspace. -/
  | list
  /-- Reading a file. -/
  | read (ticket : Ticket) (path : Text)
deriving DecidableEq, Inhabited

namespace Indexer

/-- What a job waits for. -/
inductive Wait where
  | settings
  | list (scan : Catalog.Scan)
  /-- The reads of a scan, and the first fault among them. -/
  | reads (scan : Catalog.Scan) (tickets : List Ticket) (fault? : Option Catalog.Fault)
  /-- The read of one file. -/
  | update (update : Catalog.Update) (ticket : Ticket)
  /-- The observers of a topic. -/
  | observers (topic : Topic)
deriving Inhabited

/-- A job under way. -/
structure Job where
  id : JobId
  /-- What it waits for. -/
  wait : Wait
  /-- The request that is being met. -/
  request : Request
  /-- The requests that come after it. -/
  rest : List Request := []
deriving Inhabited

/-- How a job ends: with a fault, or with what its last request answers; a scan answers whether it
was complete. -/
abbrev Answer := Except Catalog.Fault (Option Bool)

/-- What a step of the indexer has done to the world. -/
inductive Effect where
  /-- Work is to be done for a job. -/
  | ask (job : JobId) (work : Work)
  /-- The observers of a topic are to be told. -/
  | tell (job : JobId) (topic : Topic)
  | warn (warning : Warning)
  /-- A job has ended. -/
  | finish (job : JobId) (answer : Answer)

/-- What happens to an indexer. -/
inductive Move where
  /-- A job begins. -/
  | start (job : JobId) (requests : List Request)
  /-- The settings are there. -/
  | settings (job : JobId) (loaded : Except Settings.LoadFault Settings)
  /-- The list of files is there. -/
  | list (job : JobId) (paths : Except Disk.Fault (List Text))
  /-- The text of a file is there. -/
  | text (ticket : Ticket) (text : Except Document.Fault Text)
  /-- A scan goes on after its reads. -/
  | gather (job : JobId)
  /-- The observers were told. -/
  | told (job : JobId)

/-- Whether a job waits for a read. -/
def Job.waitsFor (job : Job) (ticket : Ticket) : Bool :=
  match job.wait with
  | .reads _ tickets _ => tickets.contains ticket
  | .update _ own => own = ticket
  | _ => false

end Indexer

end Marginalia
