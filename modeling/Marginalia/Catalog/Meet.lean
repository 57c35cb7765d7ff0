import Marginalia.Catalog

/-!
# Meeting requests alone

Where nothing comes in between, a request can be met in one go: whatever it waits for is done at
once, on a disk that does not change meanwhile.  `Catalog.meet` meets one request and
`Catalog.meetAll` several, up to the first that fails.

`pausesLeft_fulfil` says that each pause brings a request closer to its end, so that the number of
pauses that `meet` allows is enough.
-/

namespace Marginalia

/-- Something that shows while requests are met. -/
inductive Notice where
  /-- The observers of a topic were told, when the catalog was like this. -/
  | told (topic : Topic) (catalog : Catalog)
  | warned (warning : Warning)
deriving Inhabited

namespace Catalog

/-- What came of requests. -/
structure Meeting where
  catalog : Catalog
  notices : List Notice := []
  /-- Whether the last request was completed, if there was no fault. -/
  answer : Except Fault Bool := .ok true

/-- Puts notices in front of what came of requests. -/
def Meeting.after (notices : List Notice) (m : Meeting) : Meeting :=
  { m with notices := notices ++ m.notices }

/-- Notices of warnings. -/
def warned (warnings : List Warning) : List Notice := warnings.map .warned

/-- What is found in files, each with its path, up to the first fault. -/
def gather : List (Text × Found) → Except Fault (List (Text × Option (List Note)))
  | [] => .ok []
  | (path, found) :: rest => do
    let notes? ← found
    return (path, notes?) :: (← gather rest)

/-- Does what a request waits for: how the catalog goes on, and what shows on the way. -/
def fulfil (c : Catalog) (disk : Disk) : Next → (Catalog × Next) × List Notice
  | .load =>
    match Settings.load disk c.workspace.settingsFile with
    | .error fault => ((c, .fail (.settings fault)), [])
    | .ok (settings, warnings) =>
      let (next, more) := c.finishLoad settings
      (next, warned (warnings ++ more))
  | .list scan =>
    match c.workspace.list disk with
    | .error fault => ((c, .fail (.disk fault)), [])
    | .ok paths => (c.readFiles scan paths, [])
  | .read scan paths =>
    let examined := paths.map fun path =>
      (path, examine scan.vocabulary path (c.workspace.read disk path))
    let warnings := warned (examined.flatMap (·.2.2))
    match gather (examined.map fun (path, found, _) => (path, found)) with
    | .error fault => ((c, .fail fault), warnings)
    | .ok found => (c.finishScan scan found, warnings)
  | .update update =>
    let (found, warnings) :=
      examine update.vocabulary update.path (c.workspace.read disk update.path)
    (c.afterRead update found, warned warnings)
  | .tell topic => (c.afterTold topic, [.told topic c])
  | next => ((c, next), [])

/-- How often a request can wait: a reload loads, tells, lists, reads and tells again. -/
def pauses : Nat := 5

/-- Goes on with a request through at most so many pauses. -/
def finishWithin (disk : Disk) : (pauses : Nat) → Catalog → Next → Meeting
  | _, c, .done complete => { catalog := c, answer := .ok complete }
  | _, c, .fail fault => { catalog := c, answer := .error fault }
  | 0, c, _ => { catalog := c, answer := .ok false }
  | pauses + 1, c, next =>
    let ((c, next), notices) := c.fulfil disk next
    (finishWithin disk pauses c next).after notices

/-- Meets a request. -/
def meet (c : Catalog) (disk : Disk) (request : Request) : Meeting :=
  let (c, next) := c.begin disk request
  finishWithin disk pauses c next

/-- Meets requests in order; the first that fails is the last. -/
def meetAll (disk : Disk) : Catalog → List Request → Meeting
  | c, [] => { catalog := c }
  | c, request :: rest =>
    let m := c.meet disk request
    match m.answer with
    | .error _ => m
    | .ok _ => (meetAll disk m.catalog rest).after m.notices

/-- How many pauses may still come. -/
def Next.pausesLeft : Next → Nat
  | .load => 5
  | .tell .settingsLoaded => 4
  | .list _ => 3
  | .read _ _ => 2
  | .update _ => 2
  | .tell .notesUpdated => 1
  | .done _ => 0
  | .fail _ => 0

theorem pausesLeft_finishScan (c : Catalog) (scan : Scan)
    (found : List (Text × Option (List Note))) :
    (c.finishScan scan found).2.pausesLeft ≤ 1 := by
  unfold finishScan
  split <;> simp [Next.pausesLeft]

theorem pausesLeft_readFiles (c : Catalog) (scan : Scan) (paths : List Text) :
    (c.readFiles scan paths).2.pausesLeft ≤ 2 := by
  unfold readFiles
  split
  · exact Nat.le_succ_of_le (pausesLeft_finishScan c scan [])
  · simp [Next.pausesLeft]

theorem pausesLeft_beginScan (c : Catalog) : c.beginScan.2.pausesLeft ≤ 3 := by
  unfold beginScan
  dsimp only
  split
  · exact Nat.le_succ_of_le (pausesLeft_readFiles ..)
  · simp [Next.pausesLeft]

theorem pausesLeft_finishUpdate (c : Catalog) (update : Update) (notes : List Note) :
    (c.finishUpdate update notes).2.pausesLeft ≤ 1 := by
  unfold finishUpdate
  split
  · simp [Next.pausesLeft]
  · split <;> simp [Next.pausesLeft]

theorem pausesLeft_afterRead (c : Catalog) (update : Update) (found : Found) :
    (c.afterRead update found).2.pausesLeft ≤ 1 := by
  unfold afterRead
  split
  · exact pausesLeft_finishUpdate ..
  · simp [Next.pausesLeft]
  · simp [Next.pausesLeft]

/-- Each pause brings a request closer to its end, so no request runs out of pauses. -/
theorem pausesLeft_fulfil (c : Catalog) (disk : Disk) (next : Next) (h : next.pausesLeft ≠ 0) :
    (c.fulfil disk next).1.2.pausesLeft < next.pausesLeft := by
  cases next with
  | done => simp [Next.pausesLeft] at h
  | fail => simp [Next.pausesLeft] at h
  | load =>
    simp only [fulfil]
    split
    · simp [Next.pausesLeft]
    · rename_i settings warnings _
      have : (c.finishLoad settings).1.2.pausesLeft ≤ 4 := by
        unfold finishLoad
        split <;> simp [clear, Next.pausesLeft]
      exact Nat.lt_succ_of_le this
  | list scan =>
    simp only [fulfil]
    split
    · simp [Next.pausesLeft]
    · exact Nat.lt_succ_of_le (pausesLeft_readFiles ..)
  | read scan paths =>
    simp only [fulfil]
    split
    · simp [Next.pausesLeft]
    · exact Nat.lt_succ_of_le (pausesLeft_finishScan ..)
  | update update =>
    simp only [fulfil]
    exact Nat.lt_succ_of_le (pausesLeft_afterRead ..)
  | tell topic =>
    simp only [fulfil]
    cases topic with
    | settingsLoaded => exact Nat.lt_succ_of_le (pausesLeft_beginScan c)
    | notesUpdated => simp [afterTold, Next.pausesLeft]

/-- Asking for the scope in force changes nothing. -/
theorem meet_setScope_same (c : Catalog) (disk : Disk) :
    c.meet disk (.setScope c.scope) = { catalog := c, answer := .ok true } := by
  simp [meet, begin, changeScope, finishWithin]

end Catalog

end Marginalia
