import Marginalia.Indexer

/-!
# Outcomes that jobs wait for

Settings, lists of files, the end of a scan's reads and word from the observers come in for a job.
The indexer looks whether that job is there and whether it waits for such an outcome; if so, the job
goes on with a step of the catalog, and if not, nothing happens at all.

`Indexer.Replies` tells, once for all of these outcomes, with which step a job goes on, and
`Indexer.replies_step` that a step of the indexer comes to nothing else.  Whatever is claimed of all
outcomes is seen by going through the replies; nothing need be known of how jobs are looked up.
-/

namespace Marginalia

namespace Indexer

/-- The job that an outcome is for.  A text is for whichever job waits for its read. -/
def Move.job? : Move → Option JobId
  | .start _ _ => none
  | .settings id _ => some id
  | .list id _ => some id
  | .text _ _ => none
  | .gather id => some id
  | .told id => some id

/-- Whether an outcome is of the kind that a job waits for. -/
def Wait.hears : Wait → Move → Bool
  | .settings, .settings _ _ => true
  | .list _, .list _ _ => true
  | .reads _ _ _, .gather _ => true
  | .observers _, .told _ => true
  | _, _ => false

/-- What comes of an outcome for the job that waits for it. -/
inductive Replies (x : Indexer) (disk : Disk) (job : Job) : Move → Indexer × List Effect → Prop
  | notLoaded (wait : job.wait = .settings) (fault : Settings.LoadFault) :
      Replies x disk job (.settings job.id (.error fault))
        (x.resume disk job fun c => (c, .fail (.settings fault)))
  | loaded (wait : job.wait = .settings) (settings : Settings) :
      Replies x disk job (.settings job.id (.ok settings))
        ((x.resume disk job fun c => (c.finishLoad settings).1).1,
          (x.catalog.finishLoad settings).2.map .warn ++
            (x.resume disk job fun c => (c.finishLoad settings).1).2)
  | notListed (scan : Catalog.Scan) (wait : job.wait = .list scan) (fault : Disk.Fault) :
      Replies x disk job (.list job.id (.error fault))
        (x.resume disk job fun c => (c, .fail (.disk fault)))
  | listed (scan : Catalog.Scan) (wait : job.wait = .list scan) (paths : List Text) :
      Replies x disk job (.list job.id (.ok paths))
        (x.resume disk job fun c => c.readFiles scan paths)
  /-- One of the reads of a scan has failed. -/
  | notGathered (scan : Catalog.Scan) (tickets : List Ticket) (fault : Catalog.Fault)
      (wait : job.wait = .reads scan tickets (some fault)) :
      Replies x disk job (.gather job.id)
        ((x.dropEnded tickets).resume disk job fun c => (c, .fail fault))
  /-- Not all reads of a scan have ended. -/
  | pending (scan : Catalog.Scan) (tickets : List Ticket)
      (wait : job.wait = .reads scan tickets none) (foundBy : x.foundBy tickets = none) :
      Replies x disk job (.gather job.id) (x, [])
  | gathered (scan : Catalog.Scan) (tickets : List Ticket)
      (found : List (Text × Option (List Note))) (wait : job.wait = .reads scan tickets none)
      (foundBy : x.foundBy tickets = some found) :
      Replies x disk job (.gather job.id)
        ((x.dropEnded tickets).resume disk job fun c => c.finishScan scan found)
  | told (topic : Topic) (wait : job.wait = .observers topic) :
      Replies x disk job (.told job.id) (x.resume disk job fun c => c.afterTold topic)

variable {x : Indexer} {disk : Disk} {move : Move} {id : JobId} {job : Job}

theorem find?_id_eq_some (h : x.jobs.find? (·.id = id) = some job) : job ∈ x.jobs ∧ job.id = id :=
  ⟨List.mem_of_find?_eq_some h, by simpa using List.find?_some h⟩

/-- An outcome that its job waits for is replied to. -/
theorem replies_of_hears (hj : x.jobs.find? (·.id = job.id) = some job)
    (hid : move.job? = some job.id) (hears : job.wait.hears move = true) :
    Replies x disk job move (x.step disk move) := by
  cases move with
  | start who requests => cases hid
  | text ticket text => cases hid
  | settings who loaded =>
      obtain rfl : who = job.id := Option.some.inj hid
      cases hw : job.wait with
      | settings =>
          simp only [step, hj, hw]
          cases loaded with
          | error fault => exact .notLoaded hw fault
          | ok settings => exact .loaded hw settings
      | _ => simp [hw, Wait.hears] at hears
  | list who paths =>
      obtain rfl : who = job.id := Option.some.inj hid
      cases hw : job.wait with
      | list scan =>
          simp only [step, hj, hw]
          cases paths with
          | error fault => exact .notListed scan hw fault
          | ok paths => exact .listed scan hw paths
      | _ => simp [hw, Wait.hears] at hears
  | gather who =>
      obtain rfl : who = job.id := Option.some.inj hid
      cases hw : job.wait with
      | reads scan tickets fault? =>
          cases fault? with
          | some fault =>
              simp only [step, hj, takeReads, hw]
              exact .notGathered scan tickets fault hw
          | none =>
              cases hfound : x.foundBy tickets with
              | none =>
                  simp only [step, hj, takeReads, hw, hfound]
                  exact .pending scan tickets hw hfound
              | some found =>
                  simp only [step, hj, takeReads, hw, hfound]
                  exact .gathered scan tickets found hw hfound
      | _ => simp [hw, Wait.hears] at hears
  | told who =>
      obtain rfl : who = job.id := Option.some.inj hid
      cases hw : job.wait with
      | observers topic =>
          simp only [step, hj, hw]
          exact .told topic hw
      | _ => simp [hw, Wait.hears] at hears

/-- An outcome that no job waits for changes nothing. -/
theorem step_of_unheard (hid : move.job? = some id)
    (hno : ∀ job, x.jobs.find? (·.id = id) = some job → job.wait.hears move = false) :
    x.step disk move = (x, []) := by
  cases hj : x.jobs.find? (·.id = id) with
  | none =>
      cases move with
      | start who requests => cases hid
      | text ticket text => cases hid
      | _ =>
          cases hid
          simp only [step, hj]
  | some job =>
      have hdeaf := hno job hj
      cases move with
      | start who requests => cases hid
      | text ticket text => cases hid
      | _ =>
          cases hid
          cases hw : job.wait <;> simp_all [step, takeReads, Wait.hears]

/-- **What an outcome comes to.**  It is replied to by the job that it is for, or changes nothing:
then that job is not there or waits for something else. -/
theorem replies_step (x : Indexer) (disk : Disk) (hid : move.job? = some id) :
    (x.step disk move = (x, []) ∧
        ∀ job, x.jobs.find? (·.id = id) = some job → job.wait.hears move = false) ∨
      ∃ job, x.jobs.find? (·.id = id) = some job ∧ job.id = id ∧
        Replies x disk job move (x.step disk move) := by
  by_cases hears : ∃ job, x.jobs.find? (·.id = id) = some job ∧ job.wait.hears move = true
  · obtain ⟨job, hj, hears⟩ := hears
    obtain ⟨-, rfl⟩ := find?_id_eq_some hj
    exact .inr ⟨job, hj, rfl, replies_of_hears hj hid hears⟩
  · have hno : ∀ job, x.jobs.find? (·.id = id) = some job → job.wait.hears move = false :=
      fun job hj => Bool.eq_false_iff.2 fun h => hears ⟨job, hj, h⟩
    exact .inl ⟨step_of_unheard hid hno, hno⟩

/-- **What a text comes to.**  It ends the read that is under way with its ticket; where there is no
such read, it changes nothing. -/
theorem text_step (x : Indexer) (disk : Disk) (ticket : Ticket)
    (text : Except Document.Fault Text) :
    (x.step disk (.text ticket text) = (x, []) ∧
        ∀ read ∈ x.reads, read.ticket = ticket → read.isRunning = false) ∨
      ∃ read ∈ x.reads, read.ticket = ticket ∧ read.isRunning = true ∧
        x.step disk (.text ticket text) = x.takeText disk read text := by
  cases hr : x.reads.find? (fun read => read.ticket = ticket && read.isRunning) with
  | none =>
      have hno : ∀ read ∈ x.reads, read.ticket = ticket → read.isRunning = false := by
        intro read hm ht
        simpa [ht] using List.find?_eq_none.1 hr read hm
      exact .inl ⟨by simp only [step, hr], hno⟩
  | some read =>
      have hfound : read.ticket = ticket ∧ read.isRunning = true := by
        simpa using List.find?_some hr
      exact .inr ⟨read, List.mem_of_find?_eq_some hr, hfound.1, hfound.2, by simp only [step, hr]⟩

end Indexer

end Marginalia
