import Marginalia.Proofs.Scans
import Marginalia.Proofs.Supplies

/-!
# What becomes of a call

A call that loads no settings has its files to list and to read (`Catalog.Next.isWork`), and then it
tells of new notes or is over.  A step of it that does not tell of new notes leaves the index alone
(`Catalog.Pursues`): it changes the index in one step only, the one in which it also tells.

So in any run, one of three things becomes of such a call (`Indexer.Fares`): it is still at work and
has been silent; it has ended, with its answer as the only thing that was heard of it; or it has
told of new notes, after which it cannot fail.  In the first two cases all that was done to the
index meanwhile was done by other calls (`Indexer.LeavesIndex`).
-/

namespace Marginalia

namespace Catalog

variable {c d : Catalog} {step : Catalog × Next}

/-- Whether a request is one to load settings. -/
def Loads (c : Catalog) : Request → Prop
  | .reload => True
  | .file (.modified path) => c.workspace.isSettingsFile (c.workspace.normalize path) = true
  | .file (.deleted path) => c.workspace.isSettingsFile (c.workspace.normalize path) = true
  | .file (.renamed old new) =>
    c.workspace.isSettingsFile (c.workspace.normalize old) = true ∨
      c.workspace.isSettingsFile (c.workspace.normalize new) = true
  | _ => False

/-- Whether a call has its files still to list or to read. -/
def Next.isWork : Next → Prop
  | .list _ => True
  | .read _ _ => True
  | .update _ => True
  | _ => False

/-- A scan under way has work to do. -/
theorem Next.isWork_of_scan? {next : Next} {scan : Scan} (h : next.scan? = some scan) :
    next.isWork := by
  cases next with
  | list scan => trivial
  | read scan paths => trivial
  | _ => cases h

/-- What a step of a call comes to that loads no settings.  If it does not tell of new notes, the
index is as it was. -/
inductive Pursues (c : Catalog) (step : Catalog × Next) : Prop
  | works (work : step.2.isWork) (index : step.1.index = c.index)
  | ends (complete : Bool) (next : step.2 = .done complete) (index : step.1.index = c.index)
  | fails (fault : Fault) (next : step.2 = .fail fault) (index : step.1.index = c.index)
  | tells (next : step.2 = .tell .notesUpdated)

/-- A step from a catalog with the same index comes to the same. -/
theorem Pursues.of_index (h : Pursues d step) (hd : d.index = c.index) : Pursues c step := by
  cases h with
  | works work index => exact .works work (index.trans hd)
  | ends complete next index => exact .ends complete next (index.trans hd)
  | fails fault next index => exact .fails fault next (index.trans hd)
  | tells next => exact .tells next

/-- The end of a scan tells of new notes, or leaves the index. -/
theorem pursues_finishScan (c : Catalog) (scan : Scan) (found : List (Text × Option (List Note))) :
    Pursues c (c.finishScan scan found) := by
  unfold finishScan
  split
  · exact .ends false rfl rfl
  · exact .tells rfl

/-- So does its beginning to read, which is its end if there is nothing to read. -/
theorem pursues_readFiles (c : Catalog) (scan : Scan) (paths : List Text) :
    Pursues c (c.readFiles scan paths) := by
  unfold readFiles
  split
  · exact pursues_finishScan c scan []
  · exact .works trivial rfl

/-- A scan that begins has work to do, or tells of new notes. -/
theorem pursues_beginScan (c : Catalog) : Pursues c c.beginScan := by
  rcases c.beginScan_cases with ⟨keepEmpty, hscan, hc⟩ | heq
  · exact .works (Next.isWork_of_scan? hscan) (by rw [hc]; rfl)
  · exact .tells (by rw [heq])

/-- A document that has been read may change the index only if the call tells of it. -/
theorem pursues_afterRead (c : Catalog) (update : Update) (found : Found) :
    Pursues c (c.afterRead update found) := by
  rcases found with fault | _ | notes
  · exact .fails fault rfl rfl
  · exact .ends true rfl rfl
  · simp only [afterRead, finishUpdate]
    split
    · exact .ends true rfl rfl
    · split
      · exact .ends true rfl rfl
      · exact .tells rfl

/-- A path that is dropped without a word had no entry. -/
theorem pursues_drop (c : Catalog) (path : Text) :
    Pursues c (c.drop path, if c.index.contains path then .tell .notesUpdated else .done true) := by
  cases h : c.index.contains path with
  | true => exact .tells rfl
  | false => exact .ends true rfl (Index.remove_of_contains_eq_false h)

/-- A request that loads no settings begins like this. -/
theorem pursues_begin (disk : Disk) {request : Request} (h : ¬ c.Loads request) :
    Pursues c (c.begin disk request) := by
  cases request with
  | rescan => exact pursues_beginScan c
  | reload => exact absurd trivial h
  | setScope scope =>
      simp only [begin, changeScope]
      split
      · exact .ends true rfl rfl
      · exact (pursues_beginScan { c with settings := c.settings.withScope scope }).of_index rfl
  | setActive path =>
      simp only [begin, changeActive]
      split
      · exact (pursues_beginScan { c with active := _ }).of_index rfl
      · exact .ends true rfl rfl
  | file event =>
      cases event with
      | modified path =>
          rw [Loads] at h
          simp only [begin, beginUpdate]
          rw [if_neg h]
          cases c.workspace.accepts disk (c.workspace.normalize path) with
          | error fault => exact .fails _ rfl rfl
          | ok accepted =>
              cases accepted with
              | false => exact pursues_drop c _
              | true =>
                  simp only
                  split
                  · exact .ends true rfl rfl
                  · exact .works trivial rfl
      | deleted path =>
          rw [Loads] at h
          simp only [begin, deleteFile]
          rw [if_neg h]
          split
          · exact .tells rfl
          · exact .ends true rfl rfl
      | renamed old new =>
          simp only [begin, renameFile]
          rw [if_neg (by simpa [Loads] using h)]
          split
          · split
            · exact (pursues_beginScan { c with active := _ }).of_index rfl
            · exact pursues_beginScan c
          · exact .ends true rfl rfl

end Catalog

namespace Indexer

open Catalog (Next Pursues)

variable {x : Indexer} {c : Catalog} {turn : Turn} {id : JobId} {rest turns more : List Turn}
  {request : Request} {step : Catalog × Next}

/-- A call at work goes on like this. -/
theorem Proceeds.pursues {move : Move} {task : Task} (h : Proceeds move c task step)
    (hwork : task.next.isWork) : Pursues c step := by
  cases h with
  | loadFailed fault => exact absurd hwork id
  | loaded settings => exact absurd hwork id
  | listFailed fault => exact .fails _ rfl rfl
  | listed paths => exact c.pursues_readFiles _ paths
  | gatherFailed fault => exact .fails fault rfl rfl
  | gathered found hfound => exact c.pursues_finishScan _ found
  | updated ticket text => exact c.pursues_afterRead _ _
  | told => exact absurd hwork id

/-- What is done to the index in a turn, if anything, is done by another call. -/
def LeavesIndex (id : JobId) (x : Indexer) (turn : Turn) : Prop :=
  (x.after turn).catalog.index = x.catalog.index ∨ Elsewhere id x turn

/-- In a turn that is about something else, a call stays where it is and is silent. -/
theorem Elsewhere.keeps (h : Elsewhere id x turn) :
    (x.after turn).taskAt? id = x.taskAt? id ∧ heardIn id x turn = [] := by
  have hother : ∀ {other : JobId} {asked : Request} {step : Catalog × Next}, other ≠ id →
      Steps x turn other asked step →
        (x.after turn).taskAt? id = x.taskAt? id ∧ heardIn id x turn = [] := by
    intro other asked step hne hsteps
    refine ⟨?_, hsteps.heardIn_of_ne (Ne.symm hne)⟩
    rw [hsteps.taskAt?, if_neg (Ne.symm hne)]
  cases h with
  | quiet catalog tasks said =>
      refine ⟨?_, heardIn_of_said said id⟩
      rw [taskAt?, tasks, taskAt?]
  | begun other asked move ne steps => exact hother ne steps
  | resumed task mem ne step proceeds steps => exact hother ne steps

/-- A call that is over leaves the index alone. -/
theorem Legal.leavesIndex_of_over (hlegal : Legal x turns) (hnone : x.taskAt? id = none)
    (hid : id ∉ turns.filterMap Turn.started?) : Along (LeavesIndex id) x turns := by
  induction turns generalizing x with
  | nil => trivial
  | cons turn rest ih =>
      rcases hlegal.elsewhere_or_own id with helse | ⟨asked, hm⟩ | ⟨task, ht, he, -⟩
      · have hsame := helse.keeps.1
        exact ⟨.inr helse, ih hlegal.next.1 (hsame.trans hnone) fun hs => hid (mem_started_cons hs)⟩
      · exact absurd (mem_started_of_move hm) hid
      · exact absurd he (taskAt?_eq_none.1 hnone task ht)

/-- What becomes of a call in a run. -/
inductive Fares (id : JobId) (request : Request) (x : Indexer) (turns : List Turn) : Prop
  /-- It is still at work. -/
  | works (next : Next) (task : (x.run turns).taskAt? id = some { id, request, next })
      (work : next.isWork) (silent : heard id x turns = [])
      (leaves : Along (LeavesIndex id) x turns)
  /-- It has ended without a word of new notes. -/
  | ends (answer : Answer) (gone : (x.run turns).taskAt? id = none)
      (heard : heard id x turns = [.finish id answer]) (leaves : Along (LeavesIndex id) x turns)
  /-- It has told of new notes, and if it has ended it has not failed. -/
  | told (idle : ∀ task, (x.run turns).taskAt? id = some task →
        task = { id, request, next := .tell .notesUpdated })
      (heard : heard id x turns = [.tell id .notesUpdated] ∨
        heard id x turns =
          [.tell id .notesUpdated, .finish id (.ok (answerTo request true))])

/-- A turn before a run in which a call is silent and leaves the index alone. -/
theorem Fares.cons (h : Fares id request (x.after turn) rest) (hheard : heardIn id x turn = [])
    (hleaves : LeavesIndex id x turn) : Fares id request x (turn :: rest) := by
  have hsame : Indexer.heard id x (turn :: rest) = Indexer.heard id (x.after turn) rest := by
    rw [Indexer.heard, hheard, List.nil_append]
  cases h with
  | works next task work silent leaves =>
      exact .works next task work (hsame.trans silent) ⟨hleaves, leaves⟩
  | ends answer gone heard leaves => exact .ends answer gone (hsame.trans heard) ⟨hleaves, leaves⟩
  | told idle heard => exact .told idle (by rwa [hsame])

/-- A call that is answered in a turn has ended. -/
theorem Steps.fares_of_over (h : Steps x turn id request step) (hlegal : Legal (x.after turn) rest)
    (hfree : id ∉ rest.filterMap Turn.started?) {answer : Answer}
    (hpending : Task.pending { id, request, next := step.2 } = [])
    (htold : Task.announcement { id, request, next := step.2 } = [.finish id answer])
    (hindex : step.1.index = x.catalog.index) : Fares id request x (turn :: rest) := by
  have hnone : (x.after turn).taskAt? id = none := by
    rw [h.taskAt?, if_pos rfl, hpending]
    rfl
  obtain ⟨hover, hsilent⟩ := hlegal.over hnone hfree
  refine .ends answer hover ?_ ⟨.inl ?_, hlegal.leavesIndex_of_over hnone hfree⟩
  · rw [heard, h.heardIn_self, htold, hsilent]
    rfl
  · rw [h.catalog, hindex]

/-- From a step on, what becomes of a call is settled if it is settled for a call at work. -/
theorem Steps.fares (h : Steps x turn id request step) (hpursues : Pursues x.catalog step)
    (hlegal : Legal (x.after turn) rest) (hfree : id ∉ rest.filterMap Turn.started?)
    (hwork : ∀ next : Next, next.isWork →
      (x.after turn).taskAt? id = some { id, request, next } →
        Fares id request (x.after turn) rest) : Fares id request x (turn :: rest) := by
  obtain ⟨stepped, next⟩ := step
  have htask := h.taskAt? id
  rw [if_pos rfl] at htask
  cases hpursues with
  | works work index =>
      have hpending : Task.pending { id, request, next } = [{ id, request, next }] ∧
          Task.announcement { id, request, next } = [] := by
        cases next with
        | list scan => exact ⟨rfl, rfl⟩
        | read scan paths => exact ⟨rfl, rfl⟩
        | update update => exact ⟨rfl, rfl⟩
        | _ => exact (work : False).elim
      rw [hpending.1] at htask
      refine (hwork next work htask).cons (h.heardIn_self.trans hpending.2) (.inl ?_)
      rw [h.catalog, index]
  | ends complete hnext index =>
      obtain rfl : next = .done complete := hnext
      exact h.fares_of_over hlegal hfree rfl rfl index
  | fails fault hnext index =>
      obtain rfl : next = .fail fault := hnext
      exact h.fares_of_over hlegal hfree rfl rfl index
  | tells hnext =>
      obtain rfl : next = .tell .notesUpdated := hnext
      have htold : heardIn id x turn = [.tell id .notesUpdated] := h.heardIn_self
      rcases hlegal.told htask with ⟨hstill, hsilent⟩ | ⟨hover, hanswered⟩
      · refine .told (fun task ht => ?_) (.inl ?_)
        · exact (Option.some.inj (hstill.symm.trans ht)).symm
        · rw [heard, htold, hsilent]
          rfl
      · refine .told (fun task ht => ?_) (.inr ?_)
        · cases hover.symm.trans ht
        · rw [heard, htold, hanswered]
          rfl

/-- **Three ways to fare.**  What becomes of a call at work. -/
theorem Legal.fares_of_work (hlegal : Legal x turns) {next : Next}
    (htask : x.taskAt? id = some { id, request, next }) (hwork : next.isWork) :
    Fares id request x turns := by
  induction turns generalizing x next with
  | nil => exact .works next htask hwork rfl trivial
  | cons turn rest ih =>
      have hmem := (of_taskAt?_eq_some htask).1
      rcases hlegal.elsewhere_or_proceeds hmem with helse | ⟨-, step, hproceeds, hsteps⟩
      · obtain ⟨hsame, hsilent⟩ := helse.keeps
        exact (ih hlegal.next.1 (hsame.trans htask) hwork).cons hsilent (.inr helse)
      · refine hsteps.fares (hproceeds.pursues hwork) hlegal.next.1 ?_ fun later hlater ht =>
          ih hlegal.next.1 ht hlater
        exact fun hs => hlegal.apart _ hmem (mem_started_cons hs)

/-- A call begins once. -/
theorem Legal.free_of_start (hlegal : Legal x (turn :: rest)) {requests : List Request}
    (hm : turn.move = .start id requests) : id ∉ rest.filterMap Turn.started? := by
  have hnodup := hlegal.nodup
  have hstarted : turn.started? = some id := by rw [Turn.started?, hm]
  rw [List.filterMap_cons_some hstarted, List.nodup_cons] at hnodup
  exact hnodup.1

/-- **From the beginning on.**  What becomes of a call that loads no settings. -/
theorem Legal.fares_of_start (hlegal : Legal x (turn :: rest))
    (hm : turn.move = .start id [request])
    (hloads : ¬ x.catalog.Loads request) : Fares id request x (turn :: rest) :=
  (hlegal.begun hm).fares (Catalog.pursues_begin turn.disk hloads) hlegal.next.1
    (hlegal.free_of_start hm) fun _ hwork htask => hlegal.next.1.fares_of_work htask hwork

/-- A call that fails has not said anything else. -/
theorem Fares.of_fails (h : Fares id request x turns) {fault : Catalog.Fault}
    (hfails : Effect.finish id (.error fault) ∈ heard id x turns) :
    heard id x turns = [.finish id (.error fault)] ∧ Along (LeavesIndex id) x turns := by
  cases h with
  | works next task work silent leaves => simp [silent] at hfails
  | ends answer gone heard leaves =>
      rw [heard, List.mem_singleton] at hfails
      exact ⟨heard.trans (by rw [hfails]), leaves⟩
  | told idle heard => rcases heard with heard | heard <;> simp [heard] at hfails

end Indexer

end Marginalia
