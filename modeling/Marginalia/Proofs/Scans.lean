import Marginalia.Proofs.Generations

/-!
# What becomes of a scan

A scan begins with one turn, is under way during others, and ends with a last one (`Indexer.Spans`).
Its call is silent until then.  In the last turn it turns out whether another call has begun a
generation meanwhile (`Indexer.Undisturbed`): if none has, the scan is merged, observers are told
and the call will be answered that it is complete (`Indexer.Stands`); otherwise nothing changes, and
the call is answered that it is not (`Indexer.Falls`).

Main statement: `Indexer.newer_scans_stand`.
-/

namespace Marginalia

namespace Indexer

open Catalog (Counts Next Scan)

variable {x : Indexer} {c : Catalog} {turn : Turn} {id other : JobId} {rest turns more : List Turn}
  {request : Request} {step : Catalog × Next} {scan : Scan}

/-! ## What is heard of a call -/

/-- Whether an effect is noticed of a call. -/
def Effect.isAbout (id : JobId) : Effect → Bool
  | .tell job _ => job = id
  | .finish job _ => job = id
  | _ => false

/-- What is heard of a call in a turn. -/
def heardIn (id : JobId) (x : Indexer) (turn : Turn) : List Effect :=
  (x.effects turn).filter (Effect.isAbout id)

/-- What is heard of a call in a run. -/
def heard (id : JobId) : Indexer → List Turn → List Effect
  | _, [] => []
  | x, turn :: rest => heardIn id x turn ++ heard id (x.after turn) rest

/-- What is heard of a call is heard in a turn. -/
theorem exists_of_mem_heard {effect : Effect} (h : effect ∈ heard id x turns) :
    ∃ before turn rest, turns = before ++ turn :: rest ∧
      effect ∈ heardIn id (x.run before) turn := by
  induction turns generalizing x with
  | nil => cases h
  | cons turn rest ih =>
      rcases List.mem_append.1 h with h | h
      · exact ⟨[], turn, rest, rfl, h⟩
      · obtain ⟨before, last, later, rfl, hin⟩ := ih h
        exact ⟨turn :: before, last, later, rfl, hin⟩

/-- What is heard of a call in a run is heard in its parts, one after the other. -/
theorem heard_append (id : JobId) (x : Indexer) (turns more : List Turn) :
    heard id x (turns ++ more) = heard id x turns ++ heard id (x.run turns) more := by
  induction turns generalizing x with
  | nil => rfl
  | cons turn rest ih => rw [List.cons_append, heard, ih, heard, List.append_assoc, run_cons]

/-- What is heard of a call in a turn is what is said about it. -/
theorem heardIn_eq (id : JobId) (x : Indexer) (turn : Turn) :
    heardIn id x turn = (said (x.effects turn)).filter (Effect.isAbout id) := by
  unfold heardIn said
  rw [List.filter_filter]
  congr 1
  funext effect
  cases effect <;> simp [Effect.isAbout, Effect.isSaid]

/-- Where nothing is said, nothing is heard. -/
theorem heardIn_of_said (h : said (x.effects turn) = []) (id : JobId) : heardIn id x turn = [] := by
  rw [heardIn_eq, h]
  rfl

/-- What a task announces is about its own call. -/
theorem isAbout_of_mem_announcement {task : Task} {effect : Effect}
    (h : effect ∈ task.announcement) : effect.isAbout other = decide (task.id = other) := by
  obtain ⟨id, request, next⟩ := task
  cases next with
  | tell topic =>
      obtain rfl := List.mem_singleton.1 h
      rfl
  | done complete =>
      obtain rfl := List.mem_singleton.1 h
      rfl
  | fail fault =>
      obtain rfl := List.mem_singleton.1 h
      rfl
  | _ => simp [Task.announcement] at h

/-- In a step of one call, nothing is heard of another. -/
theorem Steps.heardIn_of_ne (h : Steps x turn id request step) (hne : other ≠ id) :
    heardIn other x turn = [] := by
  rw [heardIn_eq, h.said]
  apply List.filter_eq_nil_iff.2
  intro effect he
  rw [isAbout_of_mem_announcement he]
  simpa using Ne.symm hne

/-- Of itself, all that it announces is heard. -/
theorem Steps.heardIn_self (h : Steps x turn id request step) :
    heardIn id x turn = Task.announcement { id, request, next := step.2 } := by
  rw [heardIn_eq, h.said]
  apply List.filter_eq_self.2
  intro effect he
  rw [isAbout_of_mem_announcement he]
  simp

/-! ## The calls of a run -/

/-- Whether a request is made in a run, under a number. -/
def Asked (turns : List Turn) (id : JobId) (request : Request) : Prop :=
  ∃ turn ∈ turns, turn.move = .start id [request]

/-- A number stands for one request. -/
theorem Calls.asked_unique (h : Calls turns) {request last : Request} (hr : Asked turns id request)
    (hl : Asked turns id last) : request = last := by
  obtain ⟨one, hone, hm⟩ := hr
  obtain ⟨two, htwo, hm'⟩ := hl
  have hstarted : ∀ (turn : Turn) requests, turn.move = .start id requests →
      turn.started? = some id := by
    intro turn requests hmove
    rw [Turn.started?, hmove]
  obtain rfl := eq_of_started h.nodup hone htwo (hstarted one _ hm) (hstarted two _ hm')
  rw [hm] at hm'
  simpa using hm'

/-- What is under way was asked for. -/
theorem asked_of_mem_tasks {all : List Turn} (hlegal : Legal x turns)
    (hsub : ∀ turn ∈ turns, turn ∈ all)
    (hx : ∀ task ∈ x.tasks, Asked all task.id task.request) :
    ∀ task ∈ (x.run turns).tasks, Asked all task.id task.request := by
  induction turns generalizing x with
  | nil => exact hx
  | cons turn rest ih =>
      refine ih hlegal.next.1 (fun t ht => hsub t (List.mem_cons_of_mem _ ht)) fun task ht => ?_
      cases hlegal.next.2.origin ht with
      | old _ ht => exact hx task ht
      | begun id request hm hnone hsteps => exact ⟨turn, hsub turn List.mem_cons_self, hm⟩
      | resumed prior hprior step hp hsteps => exact hx prior hprior

/-- In a turn a call begins, goes on, or is left alone. -/
theorem Outcome.own (h : Outcome x turn) (id : JobId) :
    (x.after turn).taskAt? id = x.taskAt? id ∧ heardIn id x turn = [] ∨
      (∃ requests, turn.move = .start id requests) ∨
      ∃ task step, task ∈ x.tasks ∧ task.id = id ∧ Proceeds turn.move x.catalog task step ∧
        Steps x turn task.id task.request step := by
  cases h with
  | quiet hc htasks hs =>
      refine .inl ⟨?_, heardIn_of_said hs id⟩
      rw [taskAt?, htasks, taskAt?]
  | begun who request hm hfresh hsteps =>
      by_cases hid : id = who
      · exact .inr (.inl ⟨[request], hid ▸ hm⟩)
      · refine .inl ⟨?_, hsteps.heardIn_of_ne hid⟩
        rw [hsteps.taskAt?, if_neg hid]
  | resumed task hm step hp hsteps =>
      by_cases hid : id = task.id
      · exact .inr (.inr ⟨task, step, hm, hid.symm, hp, hsteps⟩)
      · refine .inl ⟨?_, hsteps.heardIn_of_ne hid⟩
        rw [hsteps.taskAt?, if_neg hid]

/-- A call that begins is among those that begin. -/
theorem mem_started_of_move {requests : List Request} (h : turn.move = .start id requests) :
    id ∈ (turn :: rest).filterMap Turn.started? := by
  have hstarted : turn.started? = some id := by rw [Turn.started?, h]
  rw [List.filterMap_cons_some hstarted]
  exact List.mem_cons_self

/-- A call that is over stays so, and nothing more is heard of it. -/
theorem Legal.over (hlegal : Legal x turns) (hnone : x.taskAt? id = none)
    (hid : id ∉ turns.filterMap Turn.started?) :
    (x.run turns).taskAt? id = none ∧ heard id x turns = [] := by
  induction turns generalizing x with
  | nil => exact ⟨hnone, rfl⟩
  | cons turn rest ih =>
      rcases hlegal.next.2.own id with ⟨htask, hheard⟩ | ⟨requests, hm⟩ | ⟨task, step, hm, he, -⟩
      · rw [heard, hheard, List.nil_append]
        exact ih hlegal.next.1 (htask.trans hnone) fun hs => hid (mem_started_cons hs)
      · exact absurd (mem_started_of_move hm) hid
      · exact absurd he (taskAt?_eq_none.1 hnone task hm)

/-- Nothing is heard of a call that is over. -/
theorem heard_of_over (hlegal : Legal x turns) (hnone : x.taskAt? id = none)
    (hid : id ∉ turns.filterMap Turn.started?) : heard id x turns = [] :=
  (hlegal.over hnone hid).2

/-- A call that has told observers of new notes is silent until it is answered that it is
complete. -/
theorem Legal.told (hlegal : Legal x turns)
    (htask : x.taskAt? id = some { id, request, next := .tell .notesUpdated }) :
    (x.run turns).taskAt? id = some { id, request, next := .tell .notesUpdated } ∧
        heard id x turns = [] ∨
      (x.run turns).taskAt? id = none ∧
        heard id x turns = [.finish id (.ok (answerTo request true))] := by
  induction turns generalizing x with
  | nil => exact .inl ⟨htask, rfl⟩
  | cons turn rest ih =>
      have hmem := (of_taskAt?_eq_some htask).1
      have hfree := hlegal.apart _ hmem
      rcases hlegal.next.2.own id with ⟨hsame, hheard⟩ | ⟨requests, hm⟩ |
        ⟨task, step, hm, he, hp, hsteps⟩
      · rw [heard, hheard, List.nil_append]
        exact ih hlegal.next.1 (hsame.trans htask)
      · exact absurd (mem_started_of_move hm) hfree
      · obtain rfl := hlegal.sane.task_eq_of_id hmem hm he.symm
        generalize turn.move = move at hp
        cases hp
        have hnone : (x.after turn).taskAt? id = none := by
          rw [hsteps.taskAt?, if_pos rfl]
          rfl
        obtain ⟨hover, hsilent⟩ :=
          hlegal.next.1.over hnone fun hs => hfree (mem_started_cons hs)
        refine .inr ⟨hover, ?_⟩
        rw [heard, hsteps.heardIn_self, hsilent]
        rfl

/-- A call that has told observers of new notes is answered that it is complete. -/
theorem heard_of_told (hlegal : Legal x turns)
    (htask : x.taskAt? id = some { id, request, next := .tell .notesUpdated })
    (hover : (x.run turns).taskAt? id = none) :
    heard id x turns = [.finish id (.ok (answerTo request true))] := by
  rcases hlegal.told htask with ⟨hstill, -⟩ | ⟨-, hheard⟩
  · rw [hstill] at hover
    cases hover
  · exact hheard

/-! ## A scan from its beginning to its end -/

/-- The call with a number has a scan under way. -/
def Scanning (x : Indexer) (id : JobId) (request : Request) (scan : Scan) : Prop :=
  ∃ next, x.taskAt? id = some { id, request, next } ∧ next.scan? = some scan

/-- No turn begins a generation. -/
def Undisturbed (x : Indexer) (turns : List Turn) : Prop :=
  Along (fun y turn => (y.after turn).catalog.generation = y.catalog.generation) x turns

/-- What changes a catalog in a turn is a step of another call. -/
def Foreign (id : JobId) (x : Indexer) (turn : Turn) : Prop :=
  (x.after turn).catalog = x.catalog ∨
    ∃ other request step, other ≠ id ∧ Steps x turn other request step

/-- A scan that begins with a turn, is under way during others, and ends with a last one. -/
structure Spans (x : Indexer) (id : JobId) (first : Turn) (middle : List Turn) (last : Turn) :
    Prop where
  before : x.scanOf? id = none
  begins : (x.after first).scanOf? id ≠ none
  during : Along (fun y turn => (y.after turn).scanOf? id ≠ none) (x.after first) middle
  ends : (((x.after first).run middle).after last).scanOf? id = none

/-- A scan is merged in a turn: observers are told in it, and its call is answered later that the
scan is complete. -/
structure Stands (x : Indexer) (id : JobId) (request : Request) (scan : Scan) (last : Turn)
    (rest : List Turn) : Prop where
  written : ∃ found, (x.after last).catalog = merged x.catalog scan found ∧
    ∀ task, x.taskAt? id = some task → ∀ entry ∈ found, entry.1 ∈ task.next.paths
  counted : x.merge? last = some scan.generation
  told : heardIn id x last = [.tell id .notesUpdated]
  answered : ((x.after last).run rest).taskAt? id = none →
    heard id (x.after last) rest = [.finish id (.ok (answerTo request true))]

/-- A scan is dropped in a turn: nothing changes, and its call is answered that the scan is not
complete, without a word to observers. -/
structure Falls (x : Indexer) (id : JobId) (request : Request) (last : Turn) (rest : List Turn) :
    Prop where
  unwritten : (x.after last).catalog = x.catalog
  uncounted : x.merge? last = none
  answered : heardIn id x last = [.finish id (.ok (answerTo request false))]
  silent : heard id (x.after last) rest = []

/-- The scan of a call that scans. -/
theorem Scanning.scanOf? (h : Scanning x id request scan) : x.scanOf? id = some scan := by
  obtain ⟨next, ht, hs⟩ := h
  rw [Indexer.scanOf?, ht]
  exact hs

/-- A scan under way has nothing to announce. -/
theorem Task.announcement_of_scan? {task : Task} (h : task.next.scan? = some scan) :
    task.announcement = [] := by
  obtain ⟨id, request, next⟩ := task
  cases next with
  | list scan => rfl
  | read scan paths => rfl
  | _ => cases h

/-- A scan begins in silence, and with a generation of its own. -/
theorem ScanTurn.begins (h : ScanTurn x turn) (hbefore : x.scanOf? id = none)
    (hafter : (x.after turn).scanOf? id ≠ none) :
    ∃ request scan, Scanning (x.after turn) id request scan ∧
      x.catalog.generation < scan.generation ∧
        scan.generation = (x.after turn).catalog.generation ∧ heardIn id x turn = [] := by
  cases h with
  | quiet hc ht hs =>
      refine absurd hbefore ?_
      rwa [Indexer.scanOf?, taskAt?, ht] at hafter
  | scan task hat scan hs step hgoes hsteps =>
      refine absurd hbefore ?_
      rw [hsteps.scanOf?] at hafter
      split at hafter
      · rename_i he
        rw [he, Indexer.scanOf?, hat]
        simp [hs]
      · exact hafter
  | other who request step hnone hcounts hsteps =>
      have hid : id = who := by
        apply Classical.byContradiction
        intro hne
        rw [hsteps.scanOf?, if_neg hne] at hafter
        exact hafter hbefore
      subst hid
      rw [hsteps.scanOf?, if_pos rfl] at hafter
      obtain ⟨scan, hs⟩ := Option.ne_none_iff_exists'.1 hafter
      cases hcounts with
      | same hg hn => exact absurd hn hafter
      | raised hg hn =>
          have hnew := hn scan hs
          refine ⟨request, scan, ⟨step.2, ?_, hs⟩, by omega, ?_, ?_⟩
          · rw [hsteps.taskAt?, if_pos rfl, Task.pending_of_scan? hs]
            rfl
          · rw [hsteps.catalog, hg, hnew]
          · rw [hsteps.heardIn_self]
            exact Task.announcement_of_scan? hs

/-- A turn leaves a scan where it is, or takes it on. -/
theorem Scanning.stays_or_goes (h : Scanning x id request scan) (ht : ScanTurn x turn) :
    ((x.after turn).taskAt? id = x.taskAt? id ∧ Foreign id x turn ∧ heardIn id x turn = []) ∨
      ∃ next step, x.taskAt? id = some { id, request, next } ∧ next.scan? = some scan ∧
        ScanGoes x.catalog next scan step ∧ Steps x turn id request step := by
  have hscan := h.scanOf?
  obtain ⟨next, htask, hs⟩ := h
  cases ht with
  | quiet hc htasks hsaid =>
      refine .inl ⟨?_, .inl hc, heardIn_of_said hsaid id⟩
      rw [taskAt?, htasks]
      rfl
  | other who asked step hnone hcounts hsteps =>
      have hne : id ≠ who := by
        intro heq
        obtain rfl := heq
        exact Option.some_ne_none scan (hscan.symm.trans hnone)
      refine .inl ⟨?_, .inr ⟨who, asked, step, Ne.symm hne, hsteps⟩, hsteps.heardIn_of_ne hne⟩
      rw [hsteps.taskAt?, if_neg hne]
  | scan task hat own hown step hgoes hsteps =>
      obtain ⟨who, asked, prior⟩ := task
      by_cases hid : id = who
      · subst hid
        cases htask.symm.trans hat
        obtain rfl : scan = own := Option.some.inj (hs.symm.trans hown)
        exact .inr ⟨next, step, htask, hs, hgoes, hsteps⟩
      · refine .inl ⟨?_, .inr ⟨_, _, step, Ne.symm hid, hsteps⟩, hsteps.heardIn_of_ne hid⟩
        rw [hsteps.taskAt?, if_neg hid]

/-- While it is under way, a scan changes nothing and is silent. -/
theorem Scanning.goesOn (h : Scanning x id request scan) (ht : ScanTurn x turn)
    (hafter : (x.after turn).scanOf? id ≠ none) :
    Scanning (x.after turn) id request scan ∧ Foreign id x turn ∧ heardIn id x turn = [] := by
  rcases h.stays_or_goes ht with
    ⟨hsame, hforeign, hsilent⟩ | ⟨next, step, htask, hs, hgoes, hsteps⟩
  · obtain ⟨next, htask, hs⟩ := h
    exact ⟨⟨next, hsame.trans htask, hs⟩, hforeign, hsilent⟩
  · rw [hsteps.scanOf?, if_pos rfl] at hafter
    cases hgoes with
    | reads paths =>
        refine ⟨⟨.read scan paths, ?_, rfl⟩, .inl hsteps.catalog, ?_⟩
        · rw [hsteps.taskAt?, if_pos rfl]
          rfl
        · exact hsteps.heardIn_self
    | merges found hlisted hcurrent => exact absurd rfl hafter
    | superseded hstale => exact absurd rfl hafter
    | fails fault => exact absurd rfl hafter

/-- A scan goes on through a run in which it does not end, without being heard of. -/
theorem Scanning.run (h : Scanning x id request scan) (hlegal : Legal x turns)
    (hduring : Along (fun y turn => (y.after turn).scanOf? id ≠ none) x turns) :
    Scanning (x.run turns) id request scan ∧ Along (Foreign id) x turns ∧
      heard id x turns = [] := by
  induction turns generalizing x with
  | nil => exact ⟨h, trivial, rfl⟩
  | cons turn rest ih =>
      obtain ⟨hnext, hforeign, hheard⟩ := h.goesOn (hlegal.next.2.scanTurn hlegal.sane) hduring.1
      obtain ⟨hlast, halong, hsilent⟩ := ih hnext hlegal.next.1 hduring.2
      refine ⟨hlast, ⟨hforeign, halong⟩, ?_⟩
      rw [heard, hheard, hsilent]
      rfl

/-- A scan is merged. -/
theorem Steps.stands {found : List (Text × Option (List Note))} {next : Next}
    (h : Steps x turn id request (merged x.catalog scan found, .tell .notesUpdated))
    (htask : x.taskAt? id = some { id, request, next }) (hs : next.scan? = some scan)
    (hlisted : ∀ entry ∈ found, entry.1 ∈ next.paths) (hlegal : Legal (x.after turn) rest) :
    Stands x id request scan turn rest where
  written := by
    refine ⟨found, h.catalog, fun task ht => ?_⟩
    cases htask.symm.trans ht
    exact hlisted
  counted := by
    have hscan : x.scanOf? id = some scan := by
      rw [Indexer.scanOf?, htask]
      exact hs
    have hsaid : Indexer.said (x.effects turn) = [.tell id .notesUpdated] := h.said
    simp [merge?, hsaid, hscan]
  told := h.heardIn_self
  answered := by
    refine heard_of_told hlegal ?_
    rw [h.taskAt?, if_pos rfl]
    rfl

/-- A scan is dropped. -/
theorem Steps.falls (h : Steps x turn id request (x.catalog, .done false))
    (hlegal : Legal (x.after turn) rest) (hfree : id ∉ rest.filterMap Turn.started?) :
    Falls x id request turn rest where
  unwritten := h.catalog
  uncounted := by
    have hsaid : Indexer.said (x.effects turn) = [.finish id (.ok (answerTo request false))] :=
      h.said
    simp [merge?, hsaid]
  answered := h.heardIn_self
  silent := by
    refine heard_of_over hlegal ?_ hfree
    rw [h.taskAt?, if_pos rfl]
    rfl

/-- How a scan ends is a matter of the generation in force. -/
theorem Scanning.ends (h : Scanning x id request scan) (hlegal : Legal x (turn :: rest))
    (hsmooth : Smooth x turn) (hafter : (x.after turn).scanOf? id = none) :
    (scan.generation = x.catalog.generation → Stands x id request scan turn rest) ∧
      (scan.generation ≠ x.catalog.generation → Falls x id request turn rest) := by
  rcases h.stays_or_goes (hlegal.next.2.scanTurn hlegal.sane) with
    ⟨hsame, -, -⟩ | ⟨next, step, htask, hs, hgoes, hsteps⟩
  · have hscan := h.scanOf?
    rw [Indexer.scanOf?, ← hsame, ← Indexer.scanOf?, hafter] at hscan
    cases hscan
  · have hfree := hlegal.apart _ (of_taskAt?_eq_some htask).1
    rw [hsteps.scanOf?, if_pos rfl] at hafter
    cases hgoes with
    | reads paths => cases hafter
    | fails fault => exact absurd rfl (hsteps.not_fail hsmooth fault)
    | merges found hlisted hcurrent =>
        exact ⟨fun _ => hsteps.stands htask hs hlisted hlegal.next.1,
          fun hne => absurd hcurrent hne⟩
    | superseded hstale =>
        have hfree : id ∉ rest.filterMap Turn.started? := fun hm => hfree (mem_started_cons hm)
        exact ⟨fun he => absurd he hstale, fun _ => hsteps.falls hlegal.next.1 hfree⟩

/-- No run lowers the generation. -/
theorem generation_le_run (hlegal : Legal x turns) :
    x.catalog.generation ≤ (x.run turns).catalog.generation := by
  induction turns generalizing x with
  | nil => exact Nat.le_refl _
  | cons turn rest ih => exact Nat.le_trans hlegal.next.2.generation_le (ih hlegal.next.1)

/-- As no turn lowers the generation, a run leaves it alone just if each of its turns does. -/
theorem undisturbed_iff (hlegal : Legal x turns) :
    Undisturbed x turns ↔ x.catalog.generation = (x.run turns).catalog.generation := by
  induction turns generalizing x with
  | nil => exact ⟨fun _ => rfl, fun _ => trivial⟩
  | cons turn rest ih =>
      have hfirst := hlegal.next.2.generation_le
      have hrest := generation_le_run hlegal.next.1
      have hih := ih hlegal.next.1
      constructor
      · intro h
        exact h.1.symm.trans (hih.1 h.2)
      · intro h
        rw [run_cons] at h
        refine ⟨by omega, hih.2 (by omega)⟩

/-! ## Generations that begin -/

/-- What begins with a generation: a scan that is under way after the turn, a reload, or a scan
without files, which is merged in the same turn. -/
inductive Raises (x : Indexer) (id : JobId) (request : Request) (turn : Turn) (rest : List Turn) :
    Prop
  | scan (before : x.scanOf? id = none) (begins : (x.after turn).scanOf? id ≠ none)
  | reload (next : Next) (task : (x.after turn).taskAt? id = some { id, request, next })
      (loads : next.isReload)
  | atOnce (written : (x.after turn).catalog.index = {})
      (counted : x.merge? turn = some (x.after turn).catalog.generation)
      (told : heardIn id x turn = [.tell id .notesUpdated])
      (answered : ((x.after turn).run rest).taskAt? id = none →
        heard id (x.after turn) rest = [.finish id (.ok (answerTo request true))])

/-- A scan that begins raises the generation. -/
theorem Steps.raises_beginScan (h : Steps x turn id request c.beginScan)
    (hbefore : x.scanOf? id = none)
    (hlt : x.catalog.generation < (x.after turn).catalog.generation)
    (hlegal : Legal (x.after turn) rest) : Raises x id request turn rest := by
  rcases c.beginScan_cases with ⟨keepEmpty, hs, -⟩ | heq
  · refine .scan hbefore ?_
    rw [h.scanOf?, if_pos rfl, hs]
    exact Option.some_ne_none _
  · rw [heq] at h
    have hcounted : x.merge? turn = some (x.after turn).catalog.generation := by
      have hsaid : Indexer.said (x.effects turn) = [.tell id .notesUpdated] := h.said
      simp [merge?, hsaid, hbefore, hlt]
    refine .atOnce ?_ hcounted h.heardIn_self fun hover => heard_of_told hlegal ?_ hover
    · rw [h.catalog]
    · rw [h.taskAt?, if_pos rfl]
      rfl

/-- A reload raises it twice: when it begins, and with its scan. -/
theorem Steps.raises_beginLoad (h : Steps x turn id request c.beginLoad) :
    Raises x id request turn rest := by
  have htask := h.taskAt? id
  rw [if_pos rfl, Catalog.beginLoad_eq] at htask
  split at htask
  · exact .reload .load htask trivial
  · exact .reload (.tell .settingsLoaded) htask trivial

/-- Each generation is that of a scan or of a reload. -/
theorem Outcome.raises (h : Outcome x turn) (hlegal : Legal x (turn :: rest))
    (hlt : x.catalog.generation < (x.after turn).catalog.generation) :
    ∃ id request, (∃ task ∈ x.tasks, task.id = id ∧ task.request = request) ∧
      Raises x id request turn rest ∨
        turn.move = .start id [request] ∧ Raises x id request turn rest := by
  cases h with
  | quiet hc ht hs =>
      rw [hc] at hlt
      exact absurd hlt (Nat.lt_irrefl _)
  | begun id request hm hnone hsteps =>
      refine ⟨id, request, .inr ⟨hm, ?_⟩⟩
      have hbefore : x.scanOf? id = none := by
        rw [scanOf?, hnone]
        rfl
      have hbegins := Catalog.begins x.catalog turn.disk request
      rcases hbegins.raised (hsteps.catalog ▸ hlt) with ⟨scope, active, heq⟩ | heq
      · rw [heq] at hsteps
        exact hsteps.raises_beginScan hbefore hlt hlegal.next.1
      · rw [heq] at hsteps
        exact hsteps.raises_beginLoad
  | resumed task hm step hp hsteps =>
      refine ⟨task.id, task.request, .inl ⟨⟨task, hm, rfl, rfl⟩, ?_⟩⟩
      obtain ⟨hs, heq⟩ := hp.raised (hsteps.catalog ▸ hlt)
      have hbefore : x.scanOf? task.id = none := by
        rw [scanOf?, hlegal.sane.taskAt?_of_mem hm]
        exact hs
      rw [heq] at hsteps
      exact hsteps.raises_beginScan hbefore hlt hlegal.next.1

/-! ## All scans of a run -/

/-- What becomes of a scan.  It begins a generation, and until its last turn its call is silent and
changes nothing; how it ends depends on whether another generation has begun. -/
def Fate (x : Indexer) (id : JobId) (request : Request) (first : Turn) (middle : List Turn)
    (last : Turn) (rest : List Turn) : Prop :=
  ∃ scan, (x.after first).scanOf? id = some scan ∧
    x.catalog.generation < scan.generation ∧
    scan.generation = (x.after first).catalog.generation ∧
    heard id x (first :: middle) = [] ∧
    Along (Foreign id) (x.after first) middle ∧
    (Undisturbed (x.after first) middle →
      Stands ((x.after first).run middle) id request scan last rest) ∧
    (¬ Undisturbed (x.after first) middle →
      Falls ((x.after first).run middle) id request last rest)

/-- **What becomes of a scan.**  From its beginning to its end it is followed turn by turn; it is
merged just if no generation has begun meanwhile. -/
theorem Spans.fate {first last : Turn} {middle : List Turn} (h : Spans x id first middle last)
    (hlegal : Legal x (first :: (middle ++ last :: rest)))
    (hsmooth : Along Smooth x (first :: (middle ++ last :: rest)))
    (hasked : ∀ task ∈ (x.after first).tasks, task.id = id → task.request = request) :
    Fate x id request first middle last rest := by
  obtain ⟨asked, scan, hscanning, hlt, hg, hfirst⟩ :=
    (hlegal.next.2.scanTurn hlegal.sane).begins h.before h.begins
  have hrequest : asked = request := by
    obtain ⟨next, htask, -⟩ := hscanning
    exact hasked _ (of_taskAt?_eq_some htask).1 rfl
  subst hrequest
  have hmiddle := hlegal.next.1.left
  have hlast := hlegal.next.1.right
  obtain ⟨hend, hforeign, hsilent⟩ := hscanning.run hmiddle h.during
  have hends := hend.ends hlast (along_append.1 hsmooth.2).2.1 h.ends
  refine ⟨scan, hscanning.scanOf?, hlt, hg, ?_, hforeign, fun hu => ?_, fun hu => ?_⟩
  · rw [heard, hfirst, hsilent]
    rfl
  · exact hends.1 (hg.trans ((undisturbed_iff hmiddle).1 hu))
  · exact hends.2 fun he => hu ((undisturbed_iff hmiddle).2 (hg.symm.trans he))

/-- **Newer scans stand.**  A newer scan is never overwritten by an older one.  A scan is merged
just if no other call has begun a generation while it was under way, and what is heard of its call
tells which it was; a scan without files is merged at once; and scans are merged in the order of
their generations. -/
theorem newer_scans_stand {limit : Int} (hcalls : Calls turns)
    (hsmooth : Along Smooth (ofCatalog c limit) turns) :
    (∀ id request before first middle last rest,
      turns = before ++ first :: (middle ++ last :: rest) → Asked turns id request →
        Spans ((ofCatalog c limit).run before) id first middle last →
          Fate ((ofCatalog c limit).run before) id request first middle last rest) ∧
    (∀ before turn rest, turns = before ++ turn :: rest →
      ((ofCatalog c limit).run before).catalog.generation <
          (((ofCatalog c limit).run before).after turn).catalog.generation →
        ∃ id request, Asked turns id request ∧
          Raises ((ofCatalog c limit).run before) id request turn rest) ∧
    (merges (ofCatalog c limit) turns).Pairwise (· < ·) := by
  have hlegal := hcalls.legal c limit
  -- What a task asks for is what its call was begun with.
  have hasked : ∀ before rest, turns = before ++ rest →
      ∀ task ∈ ((ofCatalog c limit).run before).tasks, Asked turns task.id task.request := by
    intro before rest heq
    subst heq
    exact asked_of_mem_tasks hlegal.left (fun _ ht => List.mem_append_left _ ht)
      (by simp [ofCatalog, tasks])
  refine ⟨?_, ?_, merges_sorted hlegal (numbered_ofCatalog c limit)⟩
  · intro id request before first middle last rest heq hrequest hspans
    refine hspans.fate (heq ▸ hlegal).right (along_append.1 (heq ▸ hsmooth)).2 fun task ht hid => ?_
    have hfirst : turns = (before ++ [first]) ++ (middle ++ last :: rest) := by simp [heq]
    have hm := hasked _ _ hfirst task (by rwa [run_append])
    exact hcalls.asked_unique (hid ▸ hm) hrequest
  · intro before turn rest heq hlt
    have hnow := (heq ▸ hlegal).right
    obtain ⟨id, request, ⟨⟨task, ht, rfl, rfl⟩, hraises⟩ | ⟨hm, hraises⟩⟩ :=
      hnow.next.2.raises hnow hlt
    · exact ⟨_, _, hasked _ _ heq task ht, hraises⟩
    · exact ⟨id, request, ⟨turn, heq ▸ by simp, hm⟩, hraises⟩

/-! ## Two scans at once -/

open Catalog (opened filledProject)

/-- A turn on the disk of the small project. -/
def turnOf (move : Move) : Turn := { disk := filledProject, move }

/-- What the second scan does while the first one is under way, and how far that one gets. -/
def secondScan : List Turn :=
  [.start 2 [.rescan], .list 1 (.ok ["/p/a.py"]), .list 2 (.ok ["/p/a.py"]),
    .text 0 (.ok "# TODO: a\n"), .text 1 (.ok "# TODO: a\n")].map turnOf

/-- Two scans at once. -/
def twoScans : List Turn :=
  turnOf (.start 1 [.rescan]) :: (secondScan ++ turnOf (.gather 1) ::
    [turnOf (.gather 2), turnOf (.told 2)])

/-- The calls of this run are in order. -/
theorem calls_twoScans : Calls twoScans := by
  decide

/-- How the two scans go. -/
theorem twoScans_runs :
    Along Smooth (ofCatalog opened 8) twoScans ∧
      (((ofCatalog opened 8).scanOf? 1 = none ∧
        ((ofCatalog opened 8).after (turnOf (.start 1 [.rescan]))).scanOf? 1 ≠ none) ∧
        Along (fun y turn => (y.after turn).scanOf? 1 ≠ none)
          ((ofCatalog opened 8).after (turnOf (.start 1 [.rescan]))) secondScan) ∧
      ((((ofCatalog opened 8).after (turnOf (.start 1 [.rescan]))).run secondScan).after
        (turnOf (.gather 1))).scanOf? 1 = none ∧
      ¬ Along (fun y turn => (y.after turn).catalog.generation = y.catalog.generation)
        ((ofCatalog opened 8).after (turnOf (.start 1 [.rescan]))) secondScan ∧
      merges (ofCatalog opened 8) twoScans = [2] := by
  rw [Catalog.opened_eq]
  decide +kernel

/-- Of two scans at once, the one that began first falls. -/
theorem newer_scan_stands_twoScans :
    merges (ofCatalog opened 8) twoScans = [2] ∧ [2].Pairwise (· < ·) ∧
      Falls (((ofCatalog opened 8).after (turnOf (.start 1 [.rescan]))).run secondScan) 1 .rescan
        (turnOf (.gather 1)) [turnOf (.gather 2), turnOf (.told 2)] := by
  obtain ⟨hsmooth, ⟨⟨hbefore, hbegins⟩, hduring⟩, hends, hdisturbed, hmerges⟩ := twoScans_runs
  obtain ⟨hfates, -, hsorted⟩ := newer_scans_stand calls_twoScans hsmooth
  have hasked : Asked twoScans 1 .rescan := ⟨_, List.mem_cons_self, rfl⟩
  obtain ⟨scan, -, -, -, -, -, -, hfalls⟩ :=
    hfates 1 .rescan [] _ secondScan _ _ rfl hasked ⟨hbefore, hbegins, hduring, hends⟩
  exact ⟨hmerges, hmerges ▸ hsorted, hfalls hdisturbed⟩

end Indexer

end Marginalia
