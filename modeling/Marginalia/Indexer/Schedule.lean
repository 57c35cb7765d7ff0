import Marginalia.Catalog.Meet
import Marginalia.Indexer

/-!
# Schedules

A schedule runs an indexer on a disk.  Work is done as soon as the indexer asks for it, and what
comes out is handed over in the order in which it was asked for.  A job can hold stages of its
work: the work is done all the same, but what comes out waits until the job is released.  So a
schedule shows what happens when requests overlap, and it shows it the same way each time.

Observers are told at once, and what the catalog was like then is recorded (`Record`).
-/

namespace Marginalia

/-- A stage of blocking work. -/
inductive Stage where
  | settings
  | list
  | read
deriving DecidableEq, Inhabited

/-- The stage that a piece of work belongs to. -/
def Work.stage : Work → Stage
  | .settings => .settings
  | .list => .list
  | .read _ _ => .read

/-- The path that a piece of work is about. -/
def Work.path? : Work → Option Text
  | .read _ path => some path
  | _ => none

/-- Something that shows while jobs are met. -/
inductive Record where
  | noticed (notice : Notice)
  /-- A job has ended. -/
  | finished (job : JobId) (answer : Indexer.Answer)

/-- What came out of a piece of work, held back. -/
structure Held where
  job : JobId
  work : Work
  move : Indexer.Move

/-- An indexer at work on a disk. -/
structure Schedule where
  indexer : Indexer
  disk : Disk
  /-- The stages that jobs hold. -/
  holds : List (JobId × List Stage) := []
  /-- What is held back. -/
  held : List Held := []
  /-- What is to be handed over next. -/
  ready : List Indexer.Move := []
  /-- What came out, last first. -/
  records : List Record := []

namespace Schedule

/-- Does a piece of work for a job: what comes out, and the warnings on the way. -/
def perform (s : Schedule) (job : JobId) : Work → Indexer.Move × List Warning
  | .settings =>
    match Settings.load s.disk s.indexer.catalog.workspace.settingsFile with
    | .ok (settings, warnings) => (.settings job (.ok settings), warnings)
    | .error fault => (.settings job (.error fault), [])
  | .list => (.list job (s.indexer.catalog.workspace.list s.disk), [])
  | .read ticket path => (.text ticket (s.indexer.catalog.workspace.read s.disk path), [])

/-- Whether a job holds a stage. -/
def holdsStage (s : Schedule) (job : JobId) (stage : Stage) : Bool :=
  ((s.holds.lookup job).getD []).contains stage

/-- Adds to the records. -/
def record (s : Schedule) (record : Record) : Schedule :=
  { s with records := record :: s.records }

/-- Sees to what a step of the indexer has done. -/
def attend (s : Schedule) : Indexer.Effect → Schedule
  | .ask job work =>
    let (move, warnings) := s.perform job work
    let s := warnings.foldl (fun s warning => s.record (.noticed (.warned warning))) s
    if s.holdsStage job work.stage then { s with held := s.held ++ [{ job, work, move }] }
    else { s with ready := s.ready ++ [move] }
  | .tell job topic =>
    { s.record (.noticed (.told topic s.indexer.catalog)) with ready := .told job :: s.ready }
  | .warn warning => s.record (.noticed (.warned warning))
  | .finish job answer => s.record (.finished job answer)

/-- The scans that can go on after their reads, unless that is seen to already. -/
def gathers (s : Schedule) : List Indexer.Move :=
  let due := s.ready.filterMap fun
    | .gather job => some job
    | _ => none
  (s.indexer.jobs.filter fun job => s.indexer.canGather job && !due.contains job.id).map fun job =>
    .gather job.id

/-- Hands over one outcome. -/
def handOver (s : Schedule) (move : Indexer.Move) : Schedule :=
  let (indexer, effects) := s.indexer.step s.disk move
  let s := effects.foldl attend { s with indexer }
  { s with ready := s.ready ++ s.gathers }

/-- Hands over outcomes until none is left, at most so many. -/
def runFor : (fuel : Nat) → Schedule → Schedule
  | 0, s => s
  | fuel + 1, s =>
    match s.ready with
    | [] => s
    | move :: ready => runFor fuel ({ s with ready }.handOver move)

/-- How many requests are not met yet. -/
def backlog (s : Schedule) : Nat :=
  let begun := s.indexer.jobs.map fun job => job.rest.length + 1
  let ready := s.ready.map fun
    | .start _ requests => requests.length + 1
    | _ => 1
  (begun ++ ready).foldl (· + ·) 0

/-- A bound on the outcomes of a run: a request takes one for each file and a few more. -/
def effort (s : Schedule) : Nat :=
  (s.backlog + 1) * (s.disk.items.length + 8) + s.indexer.reads.length

/-- Hands over outcomes until none is left. -/
def run (s : Schedule) : Schedule := s.runFor s.effort

/-- Begins a job that holds some stages, and runs. -/
def start (s : Schedule) (job : JobId) (requests : List Request) (holds : List Stage := []) :
    Schedule :=
  run { s with holds := (job, holds) :: s.holds, ready := s.ready ++ [.start job requests] }

/-- Releases a job for good, and runs. -/
def release (s : Schedule) (job : JobId) : Schedule :=
  let (released, held) := s.held.partition (·.job = job)
  run { s with
    holds := (job, []) :: s.holds, held, ready := s.ready ++ released.map (·.move) }

/-- Whether a job is under way. -/
def isUnderWay (s : Schedule) (job : JobId) : Bool := s.indexer.jobs.any (·.id = job)

/-- What is held back of a job. -/
def heldOf (s : Schedule) (job : JobId) : List Work :=
  (s.held.filter (·.job = job)).map (·.work)

/-- With nothing to hand over a run is over. -/
theorem runFor_of_idle {s : Schedule} (h : s.ready = []) (fuel : Nat) : s.runFor fuel = s := by
  cases fuel with
  | zero => rfl
  | succ n => rw [runFor]; simp [h]

end Schedule

end Marginalia
