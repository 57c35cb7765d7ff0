import Marginalia.Proofs.Tasks

/-!
# Runs of calls

A run of an indexer is a list of turns, each of which hands a move to it on some disk.  Where all
moves that begin something begin a single call, and each call has a number of its own, the run is a
way of interleaving calls (`Indexer.Calls`), and any way of interleaving them is such a run.

What holds of such runs is proved turn by turn.  `Indexer.Legal` is what a turn needs to know of the
indexer and of the turns to come; `Indexer.Legal.next` says that one turn leads to the next, and
that it changes at most one task.
-/

namespace Marginalia

/-- Something that happens to an indexer, on the disk as it is then. -/
structure Turn where
  disk : Disk
  move : Indexer.Move

/-- The number of the call that begins in a turn. -/
def Turn.started? (turn : Turn) : Option JobId :=
  match turn.move with
  | .start id _ => some id
  | _ => none

namespace Indexer

/-- An indexer after a turn. -/
def after (x : Indexer) (turn : Turn) : Indexer := (x.step turn.disk turn.move).1

/-- What an indexer does to the world in a turn. -/
def effects (x : Indexer) (turn : Turn) : List Effect := (x.step turn.disk turn.move).2

/-- An indexer after some turns. -/
def run (x : Indexer) (turns : List Turn) : Indexer := turns.foldl after x

/-- Whether something holds in each turn of a run. -/
def Along (p : Indexer → Turn → Prop) : Indexer → List Turn → Prop
  | _, [] => True
  | x, turn :: rest => p x turn ∧ Along p (x.after turn) rest

/-- No call ends with a fault. -/
def Smooth (x : Indexer) (turn : Turn) : Prop :=
  ∀ id fault, Effect.finish id (.error fault) ∉ x.effects turn

instance Along.instDecidable (p : Indexer → Turn → Prop) [∀ x turn, Decidable (p x turn)] :
    (x : Indexer) → (turns : List Turn) → Decidable (Along p x turns)
  | _, [] => .isTrue trivial
  | x, turn :: rest =>
    have := Along.instDecidable p (x.after turn) rest
    inferInstanceAs (Decidable (p x turn ∧ Along p (x.after turn) rest))

/-- Whether an effect ends a call with a fault. -/
def Effect.isFault : Effect → Bool
  | .finish _ (.error _) => true
  | _ => false

instance (x : Indexer) (turn : Turn) : Decidable (Smooth x turn) :=
  decidable_of_iff (∀ effect ∈ x.effects turn, effect.isFault = false) (by
    constructor
    · intro h id fault he
      exact Bool.noConfusion (h _ he)
    · intro h effect he
      cases effect with
      | finish id result =>
          cases result with
          | error fault => exact absurd he (h id fault)
          | ok answer => rfl
      | _ => rfl)

/-- Turns that begin single calls, under numbers of their own. -/
structure Calls (turns : List Turn) : Prop where
  single : ∀ turn ∈ turns, ∀ id requests, turn.move = .start id requests →
    ∃ request, requests = [request]
  nodup : (turns.filterMap Turn.started?).Nodup

/-- Whether a turn begins a single call, if it begins anything. -/
def beginsSingle (turn : Turn) : Bool :=
  match turn.move with
  | .start _ requests => requests.length = 1
  | _ => true

/-- A call that begins so has one request. -/
theorem beginsSingle_iff {turn : Turn} : beginsSingle turn = true ↔
    ∀ id requests, turn.move = .start id requests → ∃ request, requests = [request] := by
  obtain ⟨disk, move⟩ := turn
  cases move with
  | start id requests => simp [beginsSingle, List.length_eq_one_iff]
  | _ => simp [beginsSingle]

instance (turns : List Turn) : Decidable (Calls turns) :=
  decidable_of_iff
    ((∀ turn ∈ turns, beginsSingle turn = true) ∧ (turns.filterMap Turn.started?).Nodup)
    ⟨fun h => ⟨fun turn ht => beginsSingle_iff.1 (h.1 turn ht), h.2⟩,
      fun h => ⟨fun turn ht => beginsSingle_iff.2 (h.single turn ht), h.nodup⟩⟩

/-- What the turns to come need to know of an indexer. -/
structure Legal (x : Indexer) (turns : List Turn) : Prop extends Calls turns where
  sane : x.Sane
  apart : ∀ task ∈ x.tasks, task.id ∉ turns.filterMap Turn.started?

variable {x : Indexer} {turn : Turn} {rest turns : List Turn}

@[simp] theorem run_nil (x : Indexer) : x.run [] = x := rfl

@[simp] theorem run_cons (x : Indexer) (turn : Turn) (rest : List Turn) :
    x.run (turn :: rest) = (x.after turn).run rest := rfl

/-- A run can be taken in two parts. -/
theorem run_append (x : Indexer) (turns more : List Turn) :
    x.run (turns ++ more) = (x.run turns).run more :=
  List.foldl_append

/-- So can what holds at each of its turns. -/
theorem along_append {p : Indexer → Turn → Prop} {turns more : List Turn} :
    Along p x (turns ++ more) ↔ Along p x turns ∧ Along p (x.run turns) more := by
  induction turns generalizing x with
  | nil => simp [Along]
  | cons turn turns ih => simp [Along, ih, and_assoc]

/-- A call that begins later on begins in the whole run. -/
theorem mem_started_cons {id : JobId} (h : id ∈ rest.filterMap Turn.started?) :
    id ∈ (turn :: rest).filterMap Turn.started? := by
  rw [List.filterMap_cons]
  split
  · exact h
  · exact List.mem_cons_of_mem _ h

/-- Each call begins once. -/
theorem eq_of_started {turns : List Turn} (h : (turns.filterMap Turn.started?).Nodup)
    {one two : Turn} (hone : one ∈ turns) (htwo : two ∈ turns) {id : JobId}
    (hid : one.started? = some id) (hid' : two.started? = some id) : one = two := by
  induction turns with
  | nil => simp at hone
  | cons turn turns ih =>
      have hrest : (turns.filterMap Turn.started?).Nodup ∧
          (turn.started? = some id → ∀ other ∈ turns, other.started? ≠ some id) := by
        rw [List.filterMap_cons] at h
        split at h
        · rename_i hnone
          exact ⟨h, fun hs => by rw [hnone] at hs; cases hs⟩
        · rename_i started hstarted
          refine ⟨(List.nodup_cons.1 h).2, fun hs other ho hs' => (List.nodup_cons.1 h).1 ?_⟩
          rw [hstarted] at hs
          exact List.mem_filterMap.2 ⟨other, ho, hs'.trans hs.symm⟩
      rcases List.mem_cons.1 hone with rfl | hone'
      · rcases List.mem_cons.1 htwo with rfl | htwo'
        · rfl
        · exact absurd hid' (hrest.2 hid two htwo')
      · rcases List.mem_cons.1 htwo with rfl | htwo'
        · exact absurd hid (hrest.2 hid' one hone')
        · exact ih hrest.1 hone' htwo'

/-- What holds at each turn can be weakened turn by turn. -/
theorem Along.imp {p q : Indexer → Turn → Prop} {turns : List Turn}
    (hpq : ∀ x, ∀ turn ∈ turns, p x turn → q x turn) (h : Along p x turns) : Along q x turns := by
  induction turns generalizing x with
  | nil => trivial
  | cons turn turns ih =>
      refine ⟨hpq x turn List.mem_cons_self h.1, ih (fun y t ht => ?_) h.2⟩
      exact hpq y t (List.mem_cons_of_mem _ ht)

/-- The list that comes in with a move. -/
def Move.listed : Move → List Text
  | .list _ (.ok paths) => paths
  | _ => []

/-- **Calls are legal,** if they begin with no other under way. -/
theorem Calls.legal {turns : List Turn} (h : Calls turns) (c : Catalog) (limit : Int) :
    Legal (ofCatalog c limit) turns :=
  { h with
    sane := sane_ofCatalog c limit
    apart := by simp [ofCatalog, tasks] }

/-- A task that is pending is the one that was asked about. -/
theorem Task.eq_of_mem_pending {task other : Task} (h : other ∈ task.pending) :
    other = task ∧ (∀ complete, task.next ≠ .done complete) ∧ ∀ fault, task.next ≠ .fail fault := by
  obtain ⟨id, request, next⟩ := task
  cases next <;> simp_all [Task.pending]

/-- The task of a call. -/
def taskAt? (x : Indexer) (id : JobId) : Option Task := x.tasks.find? (·.id = id)

/-- A call has at most one task. -/
theorem Sane.task_eq_of_id (h : x.Sane) {task other : Task} (ht : task ∈ x.tasks)
    (ho : other ∈ x.tasks) (hid : task.id = other.id) : task = other := by
  obtain ⟨job, hj, rfl⟩ := List.mem_map.1 ht
  obtain ⟨job', hj', rfl⟩ := List.mem_map.1 ho
  rw [h.eq_of_id hj hj' hid]

/-- The tasks are one of them and those of all other calls. -/
theorem Sane.mem_others (h : x.Sane) {old task : Task} (hm : old ∈ x.tasks) :
    task ∈ [old] ++ x.tasks.filter (·.id ≠ old.id) ↔ task ∈ x.tasks := by
  rw [List.mem_append, List.mem_singleton, List.mem_filter]
  constructor
  · intro hex
    rcases hex with rfl | ⟨ht, -⟩
    · exact hm
    · exact ht
  · intro ht
    by_cases hid : task.id = old.id
    · exact .inl (h.task_eq_of_id ht hm hid)
    · exact .inr ⟨ht, by simpa using hid⟩

/-- A call without a task has none among all of them. -/
theorem taskAt?_eq_none {id : JobId} : x.taskAt? id = none ↔ ∀ task ∈ x.tasks, task.id ≠ id := by
  simp [taskAt?, List.find?_eq_none]

/-- The task of a call is one of all, with the name of the call. -/
theorem of_taskAt?_eq_some {id : JobId} {task : Task} (h : x.taskAt? id = some task) :
    task ∈ x.tasks ∧ task.id = id := by
  have hid := List.find?_some h
  exact ⟨List.mem_of_find?_eq_some h, by simpa using hid⟩

/-- Each task is the one of its call. -/
theorem Sane.taskAt?_of_mem (h : x.Sane) {task : Task} (ht : task ∈ x.tasks) :
    x.taskAt? task.id = some task := by
  cases hf : x.taskAt? task.id with
  | none => exact absurd rfl (taskAt?_eq_none.1 hf task ht)
  | some other =>
      obtain ⟨ho, hid⟩ := of_taskAt?_eq_some hf
      rw [h.task_eq_of_id ho ht hid]

/-- In a turn, the call with a number takes a step. -/
structure Steps (x : Indexer) (turn : Turn) (id : JobId) (request : Request)
    (step : Catalog × Catalog.Next) : Prop where
  catalog : (x.after turn).catalog = step.1
  tasks : (x.after turn).tasks =
    x.tasks.filter (·.id ≠ id) ++ Task.pending { id, request, next := step.2 }
  said : said (x.effects turn) = Task.announcement { id, request, next := step.2 }

/-- A job that goes on in a turn is a step of its call. -/
theorem Resumes.steps {job : Job} {step : Catalog × Catalog.Next}
    (h : Resumes x job step (x.step turn.disk turn.move)) : Steps x turn job.id job.request step :=
  ⟨h.catalog, h.tasks, h.said⟩

/-- Of a turn comes nothing that concerns the catalog, or one call begins, or one goes on. -/
inductive Outcome (x : Indexer) (turn : Turn) : Prop
  | quiet (catalog : (x.after turn).catalog = x.catalog) (tasks : (x.after turn).tasks = x.tasks)
      (said : said (x.effects turn) = [])
  | begun (id : JobId) (request : Request) (move : turn.move = .start id [request])
      (fresh : x.taskAt? id = none)
      (steps : Steps x turn id request (x.catalog.begin turn.disk request))
  | resumed (task : Task) (mem : task ∈ x.tasks) (step : Catalog × Catalog.Next)
      (proceeds : Proceeds turn.move x.catalog task step)
      (steps : Steps x turn task.id task.request step)

variable {id other : JobId} {request : Request} {step : Catalog × Catalog.Next}

/-- After a step of a call, a task is an old one of another call, or the one of that call. -/
theorem Steps.of_mem (h : Steps x turn id request step) {task : Task}
    (ht : task ∈ (x.after turn).tasks) :
    task ∈ x.tasks ∧ task.id ≠ id ∨ task = { id, request, next := step.2 } := by
  rw [h.tasks, List.mem_append, List.mem_filter] at ht
  rcases ht with ⟨ht, hne⟩ | ht
  · exact .inl ⟨ht, by simpa using hne⟩
  · exact .inr (Task.eq_of_mem_pending ht).1

/-- What a call still has to do after its step is a task then. -/
theorem Steps.mem_of_pending (h : Steps x turn id request step) {task : Task}
    (hm : task ∈ Task.pending { id, request, next := step.2 }) : task ∈ (x.after turn).tasks := by
  rw [h.tasks]
  exact List.mem_append_right _ hm

/-- The tasks of other calls stay. -/
theorem Steps.mem_of_ne (h : Steps x turn id request step) {task : Task} (hm : task ∈ x.tasks)
    (hne : task.id ≠ id) : task ∈ (x.after turn).tasks := by
  rw [h.tasks]
  exact List.mem_append_left _ (List.mem_filter.2 ⟨hm, by simpa using hne⟩)

/-- Where a task comes from that is there after a turn: it was there before, or its call has begun
or gone on. -/
inductive Origin (x : Indexer) (turn : Turn) : Task → Prop
  | old (task : Task) (mem : task ∈ x.tasks) : Origin x turn task
  | begun (id : JobId) (request : Request) (move : turn.move = .start id [request])
      (fresh : x.taskAt? id = none)
      (steps : Steps x turn id request (x.catalog.begin turn.disk request)) :
    Origin x turn { id, request, next := (x.catalog.begin turn.disk request).2 }
  | resumed (prior : Task) (mem : prior ∈ x.tasks) (step : Catalog × Catalog.Next)
      (proceeds : Proceeds turn.move x.catalog prior step)
      (steps : Steps x turn prior.id prior.request step) :
    Origin x turn { prior with next := step.2 }

/-- A task that is there after a turn comes from one of these. -/
theorem Outcome.origin (h : Outcome x turn) {task : Task} (ht : task ∈ (x.after turn).tasks) :
    Origin x turn task := by
  cases h with
  | quiet hc htasks hs => exact .old task (htasks ▸ ht)
  | begun id request hm hnone hsteps =>
      rcases hsteps.of_mem ht with ⟨ht, -⟩ | rfl
      · exact .old task ht
      · exact .begun id request hm hnone hsteps
  | resumed prior hm step hp hsteps =>
      rcases hsteps.of_mem ht with ⟨ht, -⟩ | rfl
      · exact .old task ht
      · exact .resumed prior hm step hp hsteps

/-- A task stays as it is in a turn, unless it is the one that goes on. -/
theorem Outcome.mem_or_proceeds (h : Outcome x turn) (hx : x.Sane) {task : Task}
    (hm : task ∈ x.tasks) : task ∈ (x.after turn).tasks ∨
      ∃ step, Proceeds turn.move x.catalog task step ∧ Steps x turn task.id task.request step := by
  cases h with
  | quiet hc ht hs => exact .inl (ht ▸ hm)
  | begun id request hmove hnone hsteps =>
      exact .inl (hsteps.mem_of_ne hm (taskAt?_eq_none.1 hnone task hm))
  | resumed other ho step hp hsteps =>
      by_cases hid : task.id = other.id
      · obtain rfl := hx.task_eq_of_id hm ho hid
        exact .inr ⟨step, hp, hsteps⟩
      · exact .inl (hsteps.mem_of_ne hm hid)

/-- Without the task of one call, that of another is found as before. -/
theorem find?_filter_ne (tasks : List Task) (id other : JobId) :
    (tasks.filter (·.id ≠ id)).find? (·.id = other) =
      if other = id then none else tasks.find? (·.id = other) := by
  rw [List.find?_filter]
  by_cases he : other = id
  · rw [if_pos he, List.find?_eq_none]
    intro task _ hm
    simp only [decide_eq_true_eq] at hm
    exact hm.1 (hm.2.trans he)
  · rw [if_neg he]
    congr 1
    funext task
    by_cases ht : task.id = other
    · simp [ht, he]
    · simp [ht]

/-- What is left of a task is found under its own name. -/
theorem Task.find?_pending (task : Task) (other : JobId) :
    task.pending.find? (·.id = other) = if other = task.id then task.pending.head? else none := by
  obtain ⟨id, request, next⟩ := task
  by_cases he : other = id
  · cases next <;> simp [Task.pending, he]
  · cases next <;> simp [Task.pending, he, Ne.symm he]

/-- A step of one call leaves the other calls alone. -/
theorem Steps.taskAt? (h : Steps x turn id request step) (other : JobId) :
    (x.after turn).taskAt? other = if other = id then
      (Task.pending { id, request, next := step.2 }).head? else x.taskAt? other := by
  unfold Indexer.taskAt?
  rw [h.tasks, List.find?_append, find?_filter_ne, Task.find?_pending]
  split
  · rfl
  · simp

/-- In a smooth turn no call fails. -/
theorem Steps.not_fail (h : Steps x turn id request step) (hsmooth : Smooth x turn)
    (fault : Catalog.Fault) : step.2 ≠ .fail fault := by
  intro hfail
  have hsaid := h.said
  rw [Task.announcement, hfail] at hsaid
  have hm : Effect.finish id (.error fault) ∈ Indexer.said (x.effects turn) := by
    rw [hsaid]
    exact List.mem_singleton_self _
  exact hsmooth id fault (List.mem_filter.1 hm).1

/-- A call begins under a number that no other has. -/
theorem Legal.fresh (h : Legal x (turn :: rest)) (hstarted : turn.started? = some id) :
    x.taskAt? id = none := by
  refine taskAt?_eq_none.2 fun task ht he => h.apart task ht ?_
  rw [List.filterMap_cons_some hstarted, he]
  exact List.mem_cons_self

/-- **One turn** leads to the next one, and to an outcome. -/
theorem Legal.next (h : Legal x (turn :: rest)) : Legal (x.after turn) rest ∧ Outcome x turn := by
  have hnodup := h.nodup
  have hfresh : ∀ id requests, turn.move = .start id requests → x.taskAt? id = none ∧
      id ∉ rest.filterMap Turn.started? := by
    intro id requests hm
    have hstarted : turn.started? = some id := by simp [Turn.started?, hm]
    rw [List.filterMap_cons_some hstarted, List.nodup_cons] at hnodup
    exact ⟨h.fresh hstarted, hnodup.1⟩
  have hcall : turn.move.IsCall x := by
    intro id requests hm
    refine ⟨fun job hj => ?_, h.single turn List.mem_cons_self id requests hm⟩
    exact taskAt?_eq_none.1 (hfresh id requests hm).1 (x.taskOf job) (List.mem_map_of_mem hj)
  obtain ⟨hsane, hchange⟩ := h.sane.step_change turn.disk hcall
  have houtcome : Outcome x turn := by
    cases hchange with
    | quiet hc ht hs => exact .quiet hc ht hs
    | begun id request hm hc ht hs =>
        have hnone := (hfresh id _ hm).1
        refine .begun id request hm hnone ⟨hc, ?_, hs⟩
        have hall : x.tasks.filter (·.id ≠ id) = x.tasks :=
          List.filter_eq_self.2 fun task ht => by simpa using taskAt?_eq_none.1 hnone task ht
        rw [hall]
        exact ht
    | resumed task hm step hp hc ht hs => exact .resumed task hm step hp ⟨hc, ht, hs⟩
  have hapart : ∀ task ∈ x.tasks, task.id ∉ rest.filterMap Turn.started? :=
    fun task ht hm => h.apart task ht (mem_started_cons hm)
  refine ⟨{ single := fun t ht => h.single t (List.mem_cons_of_mem _ ht)
            nodup := ?_, sane := hsane, apart := ?_ }, houtcome⟩
  · rw [List.filterMap_cons] at hnodup
    split at hnodup
    · exact hnodup
    · exact (List.nodup_cons.1 hnodup).2
  · intro task ht
    cases houtcome.origin ht with
    | old _ ht => exact hapart task ht
    | begun id request hm hnone hsteps => exact (hfresh id _ hm).2
    | resumed prior hprior step hp hsteps => exact hapart prior hprior

/-- A call that begins takes its first step. -/
theorem Legal.begun (h : Legal x (turn :: rest)) (hm : turn.move = .start id [request]) :
    Steps x turn id request (x.catalog.begin turn.disk request) := by
  have hfresh : ∀ task ∈ x.tasks, task.id ≠ id :=
    taskAt?_eq_none.1 (h.fresh (by rw [Turn.started?, hm]))
  have hgoes := (h.sane.withCatalog (x.catalog.begin turn.disk request).1).goOn turn.disk
    (fun job hj => hfresh (x.taskOf job) (List.mem_map_of_mem hj)) request
    (x.catalog.begin turn.disk request).2
  have hstep : x.step turn.disk turn.move = goOn turn.disk id []
      { x with catalog := (x.catalog.begin turn.disk request).1 } request
      (x.catalog.begin turn.disk request).2 := by
    rw [hm]
    rfl
  rw [← hstep] at hgoes
  have hall : x.tasks.filter (·.id ≠ id) = x.tasks :=
    List.filter_eq_self.2 fun task ht => by simpa using hfresh task ht
  refine ⟨hgoes.catalog, ?_, hgoes.said⟩
  rw [hall]
  exact hgoes.tasks

/-- The first part of a run is a run of its own. -/
theorem Legal.left {more : List Turn} (h : Legal x (turns ++ more)) : Legal x turns where
  single := fun turn ht => h.single turn (List.mem_append_left _ ht)
  nodup := by
    have hnodup := h.nodup
    rw [List.filterMap_append] at hnodup
    exact (List.nodup_append.1 hnodup).1
  sane := h.sane
  apart := by
    intro task ht hm
    refine h.apart task ht ?_
    rw [List.filterMap_append]
    exact List.mem_append_left _ hm

/-- So is the second part, from where the first one has led. -/
theorem Legal.right {more : List Turn} (h : Legal x (turns ++ more)) :
    Legal (x.run turns) more := by
  induction turns generalizing x with
  | nil => exact h
  | cons turn turns ih => exact ih h.next.1

/-- What one turn preserves, a run preserves. -/
theorem Legal.run_induction {I : Indexer → Prop} {p : Indexer → Turn → Prop}
    (hstep : ∀ x turn rest, Legal x (turn :: rest) → p x turn → I x → I (x.after turn))
    {turns : List Turn} (h : Legal x turns) (hp : Along p x turns) (hi : I x) :
    I (x.run turns) := by
  induction turns generalizing x with
  | nil => exact hi
  | cons turn rest ih => exact ih h.next.1 hp.2 (hstep x turn rest h hp.1 hi)

end Indexer

end Marginalia
