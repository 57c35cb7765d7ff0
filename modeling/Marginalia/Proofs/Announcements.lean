import Marginalia.Observers
import Marginalia.Proofs.Quiescence

/-!
# What observers see of the index

Observers are told that the index has changed, and not how: an observer that wants to show the notes
copies them each time it is called (`Audience.copy`).  Publishing takes its time.  Who is called is
settled when it begins, the observers are called one after the other, each may take as long as it
likes, and meanwhile calls go on, other topics are published and observers come and go
(`Happening`).

Still no change of the index goes unannounced.  As long as the copy is not up to date, something is
*owed* to the observer (`Audience.Owes`): it is still to be called in a publication that is under
way, or settings are being loaded, after which there will be a scan, or a scan of the current
generation is under way, after which observers will be told.  A turn that changes the index leaves
such a debt (`Audience.Attends.owes_of_change`), and nothing that happens pays it without a new copy
(`Audience.Attends.upToDate_after`).  When all calls are over nothing is owed, so the copy is up to
date (`Audience.copy_eq_entries_of_quiescent`).
-/

namespace Marginalia

namespace Catalog

/-! ## Steps that change the index -/

/-- How a step has to do with the index: it leaves it alone, or observers are told of new notes, or
settings are on their way. -/
inductive Tells (index : Index) (step : Catalog × Next) : Prop
  | same (eq : step.1.index = index)
  | notes (next : step.2 = .tell .notesUpdated)
  | reload (loads : step.2.isReload)

variable {c : Catalog}

/-- A scan that begins leaves the index, or merges nothing and tells of it. -/
theorem tells_beginScan (c : Catalog) : Tells c.index c.beginScan := by
  rcases c.beginScan_cases with ⟨keepEmpty, -, hc⟩ | heq
  · exact .same (by rw [hc]; rfl)
  · exact .notes (by rw [heq])

/-- So does the scan for another active document. -/
theorem tells_activate (c : Catalog) (active : Option Text) :
    Tells c.index { c with active }.beginScan :=
  tells_beginScan { c with active }

/-- A reload that clears the index at once tells of the settings. -/
theorem tells_beginLoad (c : Catalog) : Tells c.index c.beginLoad := by
  rw [beginLoad_eq]
  split
  · exact .reload trivial
  · exact .reload trivial

/-- A path without an entry can be dropped in silence. -/
theorem tells_drop (c : Catalog) (path : Text) {next : Next}
    (hnext : c.index.contains path = true → next = .tell .notesUpdated) :
    Tells c.index (c.drop path, next) := by
  cases hcontains : c.index.contains path with
  | true => exact .notes (hnext hcontains)
  | false =>
      refine .same ?_
      have hnone : c.index.get? path = none := by simpa [Index.contains] using hcontains
      have hall : c.index.entries.filter (·.path ≠ path) = c.index.entries :=
        List.filter_eq_self.2 fun entry he => by
          simpa using List.find?_eq_none.1 hnone entry he
      show ({ entries := c.index.entries.filter (·.path ≠ path) } : Index) = c.index
      rw [hall]

/-- Whatever is asked for, the first step tells of a change to the index. -/
theorem tells_begin (c : Catalog) (disk : Disk) (request : Request) :
    Tells c.index (c.begin disk request) := by
  cases request with
  | rescan => exact tells_beginScan c
  | reload => exact tells_beginLoad c
  | setScope scope =>
      simp only [begin, changeScope]
      split
      · exact .same rfl
      · exact tells_beginScan { c with settings := c.settings.withScope scope }
  | setActive path =>
      simp only [begin, changeActive]
      split
      · exact tells_activate c _
      · exact .same rfl
  | file event =>
      cases event with
      | modified path =>
          simp only [begin, beginUpdate]
          split
          · exact tells_beginLoad c
          · split
            · exact .same rfl
            · exact tells_drop c _ fun hcontains => if_pos hcontains
            · split <;> exact .same rfl
      | deleted path =>
          simp only [begin, deleteFile]
          split
          · exact tells_beginLoad c
          · split
            · exact .notes rfl
            · exact .same rfl
      | renamed old new =>
          simp only [begin, renameFile]
          split
          · exact tells_beginLoad c
          · split
            · split
              · exact tells_activate c _
              · exact tells_beginScan c
            · exact .same rfl

/-- Settings that come into force clear the index, and are told of. -/
theorem tells_finishLoad (c : Catalog) (settings : Settings) :
    Tells c.index (c.finishLoad settings).1 := by
  rcases c.finishLoad_cases settings with ⟨vocabulary, heq⟩ | ⟨fault, heq⟩
  · exact .reload (by rw [heq]; trivial)
  · exact .same (by rw [heq])

/-- An update tells of the notes that it takes in. -/
theorem tells_afterRead (c : Catalog) (update : Update) (found : Found) :
    Tells c.index (c.afterRead update found) := by
  cases found with
  | error fault => exact .same rfl
  | ok notes? =>
      cases notes? with
      | none => exact .same rfl
      | some notes =>
          simp only [afterRead, finishUpdate]
          split
          · exact .same rfl
          · split
            · exact .same rfl
            · exact .notes rfl

end Catalog

namespace Indexer

open Catalog (Next Reloads Tells)

variable {x : Indexer} {c : Catalog} {turn : Turn} {rest : List Turn} {id : JobId}

/-- However a task goes on, it tells of a change to the index. -/
theorem Proceeds.tells {move : Move} {task : Task} {step : Catalog × Next}
    (h : Proceeds move c task step) : Tells c.index step := by
  cases h.continues with
  | scan scan _ hs goes =>
      cases goes with
      | reads paths => exact .same rfl
      | merges found hlisted hcurrent => exact .notes rfl
      | superseded hstale => exact .same rfl
      | fails fault => exact .same rfl
  | loadFailed fault hnext => exact .same rfl
  | loaded settings hnext hmove => exact Catalog.tells_finishLoad c settings
  | updated update ticket text hnext hmove => exact Catalog.tells_afterRead c _ _
  | begins hnext => exact Catalog.tells_beginScan c
  | ends hnext => exact .same rfl

/-- A call that comes to tell observers of a topic does so. -/
theorem Steps.mem_effects {request : Request} {step : Catalog × Next} {topic : Topic}
    (h : Steps x turn id request step) (hnext : step.2 = .tell topic) :
    Effect.tell id topic ∈ x.effects turn := by
  have hsaid : Effect.tell id topic ∈ Indexer.said (x.effects turn) := by
    rw [h.said, Task.announcement, hnext]
    exact List.mem_singleton_self _
  exact (List.mem_filter.1 hsaid).1

/-- Observers are told of a topic by a call that waits for them then. -/
theorem Outcome.mem_of_tell {topic : Topic} (h : Outcome x turn)
    (ht : Effect.tell id topic ∈ x.effects turn) :
    ∃ task ∈ (x.after turn).tasks, task.id = id ∧ task.next = .tell topic := by
  have hsaid : Effect.tell id topic ∈ said (x.effects turn) := List.mem_filter.2 ⟨ht, rfl⟩
  have hsteps : ∀ {who request step}, Steps x turn who request step →
      ∃ task ∈ (x.after turn).tasks, task.id = id ∧ task.next = .tell topic := by
    intro who request step hsteps
    rw [hsteps.said] at hsaid
    generalize hnext : step.2 = next at hsaid
    cases next with
    | tell other =>
        cases List.mem_singleton.1 hsaid
        refine ⟨{ id := who, request, next := .tell topic }, ?_, rfl, rfl⟩
        rw [hsteps.tasks, hnext]
        exact List.mem_append_right _ (List.mem_singleton_self _)
    | done complete => cases List.mem_singleton.1 hsaid
    | fail fault => cases List.mem_singleton.1 hsaid
    | _ => cases hsaid
  cases h with
  | quiet hc htasks hs =>
      rw [hs] at hsaid
      cases hsaid
  | begun who request hm hnone hs => exact hsteps hs
  | resumed task hm step hp hs => exact hsteps hs

/-- A call that tells observers waits until they were told. -/
theorem Outcome.mem_of_ne_told {topic : Topic} (h : Outcome x turn) (hx : x.Sane) {task : Task}
    (hm : task ∈ x.tasks) (hnext : task.next = .tell topic) (hmove : turn.move ≠ .told task.id) :
    task ∈ (x.after turn).tasks := by
  refine (h.mem_or_proceeds hx hm).resolve_right fun hex => hmove ?_
  obtain ⟨step, hp, -⟩ := hex
  generalize turn.move = move at hp
  cases hp with
  | told => rfl
  | _ => cases hnext

/-- A turn that changes the index is one in which observers are told of new notes, or settings are
on their way. -/
theorem Outcome.tells (h : Outcome x turn) :
    (x.after turn).catalog.index = x.catalog.index ∨
      (∃ id, Effect.tell id .notesUpdated ∈ x.effects turn) ∨ Reloads (x.after turn).tasks := by
  have hsteps : ∀ {who request step}, Steps x turn who request step → Tells x.catalog.index step →
      (x.after turn).catalog.index = x.catalog.index ∨
        (∃ id, Effect.tell id .notesUpdated ∈ x.effects turn) ∨ Reloads (x.after turn).tasks := by
    intro who request step hsteps ht
    cases ht with
    | same heq => exact .inl (hsteps.catalog ▸ heq)
    | notes hnext => exact .inr (.inl ⟨who, hsteps.mem_effects hnext⟩)
    | reload hloads => exact .inr (.inr (hsteps.reloads hloads))
  cases h with
  | quiet hc htasks hs => exact .inl (congrArg Catalog.index hc)
  | begun id request hm hnone hs => exact hsteps hs (Catalog.tells_begin _ _ _)
  | resumed task hm step hp hs => exact hsteps hs hp.tells

end Indexer

/-! ## An audience -/

/-- A publication under way: some of the observers of its topic are still to be called. -/
structure Publication where
  job : JobId
  topic : Topic
  left : List Text

/-- An indexer with observers; one of them copies the entries of the index each time it is
called. -/
structure Audience where
  indexer : Indexer
  observers : Observers
  publications : List Publication := []
  /-- What was copied last. -/
  copy : Option (List Entry) := none

/-- What happens to an audience. -/
inductive Happening where
  | turn (turn : Turn)
  /-- The next observer is called in the publication of a call. -/
  | call (job : JobId)
  /-- The copying observer is called because of something else that is published. -/
  | aside
  /-- Observers subscribe, or end their subscriptions. -/
  | resubscribe (observers : Observers)

/-- The turns of the indexer among what happens. -/
def turnsOf (happenings : List Happening) : List Turn :=
  happenings.filterMap fun
    | .turn turn => some turn
    | _ => none

/-- The call of which observers were told. -/
def Indexer.Move.told? : Indexer.Move → Option JobId
  | .told id => some id
  | _ => none

/-- A publication when the next of its observers was called, if it is that of a certain call. -/
def Publication.called (publication : Publication) (job : JobId) : Publication :=
  if publication.job = job then { publication with left := publication.left.tail } else publication

namespace Audience

open Indexer (Along Calls Effect Legal Smooth)
open Catalog (Reloads)

/-- An indexer with observers, before anything has happened. -/
def ofCatalog (c : Catalog) (limit : Int) (observers : Observers) : Audience :=
  { indexer := Indexer.ofCatalog c limit, observers }

/-- The publications that begin in a turn.  Who is called is settled now. -/
def published (a : Audience) (turn : Turn) : List Publication :=
  (a.indexer.effects turn).filterMap fun
    | .tell job topic => some { job, topic, left := a.observers.of topic.name }
    | _ => none

/-- Whether an observer is the next one to be called in the publication of a call. -/
def isNext (a : Audience) (observer : Text) (job : JobId) : Bool :=
  a.publications.any fun publication =>
    publication.job = job && publication.left.head? = some observer

/-- An audience after something has happened; `watcher` is the observer that copies. -/
def after (watcher : Text) (a : Audience) : Happening → Audience
  | .turn turn =>
    { a with
      indexer := a.indexer.after turn
      publications :=
        a.publications.filter (fun publication => turn.move.told? ≠ some publication.job) ++
          a.published turn }
  | .call job =>
    { a with
      publications := a.publications.map (·.called job)
      copy := if a.isNext watcher job then some a.indexer.catalog.index.entries else a.copy }
  | .aside => { a with copy := some a.indexer.catalog.index.entries }
  | .resubscribe observers => { a with observers }

/-- What may happen: a call goes on only when all observers have been called, and the copying one
does not end its subscription. -/
def Allows (watcher : Text) (a : Audience) : Happening → Prop
  | .turn turn => ∀ publication ∈ a.publications,
      turn.move.told? = some publication.job → publication.left = []
  | .call _ => True
  | .aside => True
  | .resubscribe observers => watcher ∈ observers.of Topic.notesUpdated.name

/-- An audience after some happenings. -/
def run (watcher : Text) (a : Audience) (happenings : List Happening) : Audience :=
  happenings.foldl (after watcher) a

/-- Whether all that happens may happen. -/
def Proper (watcher : Text) : Audience → List Happening → Prop
  | _, [] => True
  | a, happening :: rest =>
    a.Allows watcher happening ∧ Proper watcher (a.after watcher happening) rest

instance (watcher : Text) (a : Audience) :
    (happening : Happening) → Decidable (a.Allows watcher happening)
  | .turn turn => inferInstanceAs (Decidable (∀ publication ∈ a.publications,
      turn.move.told? = some publication.job → publication.left = []))
  | .call _ => .isTrue trivial
  | .aside => .isTrue trivial
  | .resubscribe observers => inferInstanceAs (Decidable (_ ∈ observers.of _))

instance Proper.instDecidable (watcher : Text) :
    (a : Audience) → (happenings : List Happening) → Decidable (Proper watcher a happenings)
  | _, [] => .isTrue trivial
  | a, happening :: rest =>
    have := Proper.instDecidable watcher (a.after watcher happening) rest
    inferInstanceAs (Decidable (a.Allows watcher happening ∧
      Proper watcher (a.after watcher happening) rest))

variable {watcher : Text} {a : Audience} {turn : Turn} {happening : Happening}
  {happenings rest : List Happening} {c : Catalog} {id : JobId}

/-! ## What is owed -/

/-- What holds of an audience at all times: the copying observer has subscribed, and a publication
is waited for by the call that it is of. -/
structure Attends (watcher : Text) (a : Audience) : Prop where
  subscribed : watcher ∈ a.observers.of Topic.notesUpdated.name
  waits : ∀ publication ∈ a.publications, ∃ task ∈ a.indexer.tasks,
    task.id = publication.job ∧ task.next = .tell publication.topic

/-- The copying observer will be called: it is its turn sooner or later in a publication, or a scan
that will be merged is under way or will begin when settings have been loaded. -/
inductive Owes (watcher : Text) (a : Audience) : Prop
  | publication (publication : Publication) (mem : publication ∈ a.publications)
      (left : watcher ∈ publication.left)
  | reload (loads : Reloads a.indexer.tasks)
  | scan (task : Indexer.Task) (mem : task ∈ a.indexer.tasks) (scan : Catalog.Scan)
      (eq : task.next.scan? = some scan)
      (current : scan.generation = a.indexer.catalog.generation)

/-- The copy is that of the index, or a new one is owed. -/
def UpToDate (watcher : Text) (a : Audience) : Prop :=
  a.copy = some a.indexer.catalog.index.entries ∨ Owes watcher a

/-- What is told in a turn is published in it. -/
theorem mem_published {topic : Topic} (h : Effect.tell id topic ∈ a.indexer.effects turn) :
    { job := id, topic, left := a.observers.of topic.name } ∈ a.published turn :=
  List.mem_filterMap.2 ⟨_, h, rfl⟩

/-- And nothing else is published. -/
theorem of_mem_published {publication : Publication} (h : publication ∈ a.published turn) :
    Effect.tell publication.job publication.topic ∈ a.indexer.effects turn := by
  obtain ⟨effect, he, hp⟩ := List.mem_filterMap.1 h
  cases effect with
  | tell job topic =>
      cases hp
      exact he
  | _ => cases hp

/-- When observers are told of new notes, the copying one is among those that will be called. -/
theorem Attends.owes_of_tell (h : Attends watcher a)
    (ht : Effect.tell id .notesUpdated ∈ a.indexer.effects turn) :
    Owes watcher (a.after watcher (.turn turn)) :=
  .publication _ (List.mem_append_right _ (mem_published ht)) h.subscribed

/-- **Changes are owed.**  A turn that changes the index leaves a debt. -/
theorem Attends.owes_of_change (h : Attends watcher a) {turns : List Turn}
    (hlegal : Legal a.indexer (turn :: turns))
    (hchange : (a.indexer.after turn).catalog.index ≠ a.indexer.catalog.index) :
    Owes watcher (a.after watcher (.turn turn)) := by
  rcases hlegal.next.2.tells with hsame | ⟨id, ht⟩ | hr
  · exact absurd hsame hchange
  · exact h.owes_of_tell ht
  · exact .reload hr

/-- So does one that begins a generation. -/
theorem Attends.owes_of_raise (h : Attends watcher a) {turns : List Turn}
    (hlegal : Legal a.indexer (turn :: turns))
    (hlt : a.indexer.catalog.generation < (a.indexer.after turn).catalog.generation) :
    Owes watcher (a.after watcher (.turn turn)) := by
  have houtcome := hlegal.next.2
  have hraises : ∀ {id request}, Indexer.Raises a.indexer id request turn turns →
      Owes watcher (a.after watcher (.turn turn)) := by
    intro id request hraises
    cases hraises with
    | scan hbefore hbegins =>
        obtain ⟨asked, scan, ⟨next, htask, hs⟩, -, hg, -⟩ :=
          (houtcome.scanTurn hlegal.sane).begins hbefore hbegins
        exact .scan _ (Indexer.of_taskAt?_eq_some htask).1 scan hs hg
    | reload next htask hloads =>
        exact .reload ⟨_, (Indexer.of_taskAt?_eq_some htask).1, hloads⟩
    | atOnce hwritten hcounted htold hanswered =>
        have hmem : Effect.tell id .notesUpdated ∈ Indexer.heardIn id a.indexer turn := by
          rw [htold]
          exact List.mem_singleton_self _
        exact h.owes_of_tell (List.mem_filter.1 hmem).1
  obtain ⟨id, request, ⟨-, hr⟩ | ⟨-, hr⟩⟩ := houtcome.raises hlegal hlt
  · exact hraises hr
  · exact hraises hr

/-- A scan of the current generation stays under way until observers are told, or another generation
begins. -/
theorem Attends.owes_of_scan (h : Attends watcher a) {turns : List Turn}
    (hlegal : Legal a.indexer (turn :: turns)) (hsmooth : Smooth a.indexer turn)
    (hg : (a.indexer.after turn).catalog.generation = a.indexer.catalog.generation)
    {task : Indexer.Task} (hm : task ∈ a.indexer.tasks) {scan : Catalog.Scan}
    (hs : task.next.scan? = some scan)
    (hcurrent : scan.generation = a.indexer.catalog.generation) :
    Owes watcher (a.after watcher (.turn turn)) := by
  rcases hlegal.next.2.mem_or_proceeds hlegal.sane hm with hkept | ⟨step, hp, hsteps⟩
  · exact .scan task hkept scan hs (hcurrent.trans hg.symm)
  · cases hp.scanGoes hs with
    | reads paths =>
        exact .scan { task with next := .read scan paths }
          (hsteps.mem_of_pending (List.mem_singleton_self _)) scan rfl (hcurrent.trans hg.symm)
    | merges found hlisted hmerged => exact h.owes_of_tell (hsteps.mem_effects rfl)
    | superseded hstale => exact absurd hcurrent hstale
    | fails fault => exact absurd rfl (hsteps.not_fail hsmooth fault)

/-- A turn pays no debt. -/
theorem Attends.owes_after_turn (h : Attends watcher a) {turns : List Turn}
    (hlegal : Legal a.indexer (turn :: turns)) (hsmooth : Smooth a.indexer turn)
    (hallows : a.Allows watcher (.turn turn)) (howes : Owes watcher a) :
    Owes watcher (a.after watcher (.turn turn)) := by
  rcases Nat.lt_or_eq_of_le hlegal.next.2.generation_le with hlt | hg
  · exact h.owes_of_raise hlegal hlt
  cases howes with
  | publication publication hm hleft =>
      refine .publication publication (List.mem_append_left _ (List.mem_filter.2 ⟨hm, ?_⟩)) hleft
      have hnot : turn.move.told? ≠ some publication.job := by
        intro htold
        rw [hallows publication hm htold] at hleft
        cases hleft
      simpa using hnot
  | reload hloads =>
      rcases hlegal.next.2.reloads hlegal.sane hsmooth hloads with hr | hlt
      · exact .reload hr
      · exact h.owes_of_raise hlegal hlt
  | scan task hm scan hs hcurrent => exact h.owes_of_scan hlegal hsmooth hg.symm hm hs hcurrent

/-- When the next observer is called in a publication, that is the copying one, or it is still to be
called. -/
theorem owes_after_call (howes : Owes watcher a) (job : JobId) :
    UpToDate watcher (a.after watcher (.call job)) := by
  cases howes with
  | reload hloads => exact .inr (.reload hloads)
  | scan task hm scan hs hcurrent => exact .inr (.scan task hm scan hs hcurrent)
  | publication publication hm hleft =>
      by_cases hnext : a.isNext watcher job
      · exact .inl (if_pos hnext)
      · refine .inr (.publication (publication.called job) (List.mem_map_of_mem hm) ?_)
        by_cases hjob : publication.job = job
        · rw [Publication.called, if_pos hjob]
          have hhead : publication.left.head? ≠ some watcher := fun hhead =>
            hnext (List.any_eq_true.2 ⟨publication, hm, by simp [hjob, hhead]⟩)
          cases hl : publication.left with
          | nil =>
              rw [hl] at hleft
              cases hleft
          | cons first others =>
              rw [hl] at hleft hhead
              refine (List.mem_cons.1 hleft).resolve_left fun he => hhead ?_
              rw [he]
              rfl
        · rwa [Publication.called, if_neg hjob]

/-! ## From happening to happening -/

/-- An observer that is subscribed at first attends to what is told. -/
theorem attends_ofCatalog {observers : Observers} (limit : Int)
    (h : watcher ∈ observers.of Topic.notesUpdated.name) :
    Attends watcher (ofCatalog c limit observers) where
  subscribed := h
  waits := by simp [ofCatalog]

/-- A turn leaves the subscriptions alone. -/
theorem Attends.after_turn (h : Attends watcher a) {turns : List Turn}
    (hlegal : Legal a.indexer (turn :: turns)) :
    Attends watcher (a.after watcher (.turn turn)) where
  subscribed := h.subscribed
  waits := by
    intro publication hm
    rcases List.mem_append.1 hm with hm | hm
    · obtain ⟨hm, hnot⟩ := List.mem_filter.1 hm
      obtain ⟨task, ht, hid, hnext⟩ := h.waits publication hm
      refine ⟨task, hlegal.next.2.mem_of_ne_told hlegal.sane ht hnext fun hmove => ?_, hid, hnext⟩
      rw [hmove, hid] at hnot
      simp [Indexer.Move.told?] at hnot
    · exact hlegal.next.2.mem_of_tell (of_mem_published hm)

/-- Another call of the observer is one less to be made. -/
theorem Attends.after_call (h : Attends watcher a) (job : JobId) :
    Attends watcher (a.after watcher (.call job)) where
  subscribed := h.subscribed
  waits := by
    intro publication hm
    obtain ⟨old, hold, rfl⟩ := List.mem_map.1 hm
    obtain ⟨task, ht, hid, hnext⟩ := h.waits old hold
    refine ⟨task, ht, ?_⟩
    unfold Publication.called
    split <;> exact ⟨hid, hnext⟩

/-- Whatever happens, the observer goes on attending, as long as nobody takes its subscription
away. -/
theorem Attends.after (h : Attends watcher a)
    (hlegal : Legal a.indexer (turnsOf (happening :: rest)))
    (hallows : a.Allows watcher happening) :
    Attends watcher (a.after watcher happening) ∧
      Legal (a.after watcher happening).indexer (turnsOf rest) := by
  cases happening with
  | turn turn => exact ⟨h.after_turn hlegal, hlegal.next.1⟩
  | call job => exact ⟨h.after_call job, hlegal⟩
  | aside => exact ⟨⟨h.subscribed, h.waits⟩, hlegal⟩
  | resubscribe observers => exact ⟨⟨hallows, h.waits⟩, hlegal⟩

/-- A copy that is up to date stays so, or a new one is owed. -/
theorem Attends.upToDate_after (h : Attends watcher a)
    (hlegal : Legal a.indexer (turnsOf (happening :: rest)))
    (hsmooth : Along Smooth a.indexer (turnsOf (happening :: rest)))
    (hallows : a.Allows watcher happening) (hu : UpToDate watcher a) :
    UpToDate watcher (a.after watcher happening) := by
  cases happening with
  | turn turn =>
      rcases hu with hcopy | howes
      · by_cases hsame : (a.indexer.after turn).catalog.index = a.indexer.catalog.index
        · refine .inl ?_
          show a.copy = some (a.indexer.after turn).catalog.index.entries
          rw [hsame]
          exact hcopy
        · exact .inr (h.owes_of_change hlegal hsame)
      · exact .inr (h.owes_after_turn hlegal hsmooth.1 hallows howes)
  | call job =>
      rcases hu with hcopy | howes
      · refine .inl ?_
        show (if a.isNext watcher job then some a.indexer.catalog.index.entries else a.copy) =
          some a.indexer.catalog.index.entries
        rw [hcopy, ite_self]
      · exact owes_after_call howes job
  | aside => exact .inl rfl
  | resubscribe observers =>
      rcases hu with hcopy | howes
      · exact .inl hcopy
      · refine .inr ?_
        cases howes with
        | publication publication hm hleft => exact .publication publication hm hleft
        | reload hloads => exact .reload hloads
        | scan task hm scan hs hcurrent => exact .scan task hm scan hs hcurrent

/-! ## What observers know in the end -/

/-- Whether the index is not changed in a turn. -/
def Unchanged (x : Indexer) (turn : Turn) : Prop := (x.after turn).catalog.index = x.catalog.index

instance (x : Indexer) (turn : Turn) : Decidable (Unchanged x turn) :=
  inferInstanceAs (Decidable (_ = _))

/-- The rest of a run without faults is one. -/
theorem smooth_tail (h : Along Smooth a.indexer (turnsOf (happening :: rest))) :
    Along Smooth (a.after watcher happening).indexer (turnsOf rest) := by
  cases happening with
  | turn turn => exact h.2
  | _ => exact h

/-- **The copy.**  In a run without faults, a copy that is up to date stays so, or a new one is
owed. -/
theorem Attends.upToDate_run (h : Attends watcher a) (hlegal : Legal a.indexer (turnsOf happenings))
    (hsmooth : Along Smooth a.indexer (turnsOf happenings)) (hproper : Proper watcher a happenings)
    (hu : UpToDate watcher a) : UpToDate watcher (a.run watcher happenings) := by
  induction happenings generalizing a with
  | nil => exact hu
  | cons happening rest ih =>
      obtain ⟨hattends, hrest⟩ := h.after hlegal hproper.1
      exact ih hattends hrest (smooth_tail hsmooth) hproper.2
        (h.upToDate_after hlegal hsmooth hproper.1 hu)

/-- Once the index has been changed, the copy is up to date or a new one is owed. -/
theorem Attends.upToDate_or_unchanged (h : Attends watcher a)
    (hlegal : Legal a.indexer (turnsOf happenings))
    (hsmooth : Along Smooth a.indexer (turnsOf happenings))
    (hproper : Proper watcher a happenings) :
    UpToDate watcher (a.run watcher happenings) ∨
      Along Unchanged a.indexer (turnsOf happenings) := by
  induction happenings generalizing a with
  | nil => exact .inr trivial
  | cons happening rest ih =>
      obtain ⟨hattends, hrest⟩ := h.after hlegal hproper.1
      have htail : Along Smooth (a.after watcher happening).indexer (turnsOf rest) :=
        smooth_tail hsmooth
      cases happening with
      | turn turn =>
          by_cases hsame : Unchanged a.indexer turn
          · exact (ih hattends hrest htail hproper.2).imp_right fun hunchanged =>
              ⟨hsame, hunchanged⟩
          · exact .inl (hattends.upToDate_run hrest htail hproper.2
              (.inr (h.owes_of_change hlegal hsame)))
      | _ => exact ih hattends hrest htail hproper.2

/-- Once all calls are over nothing is owed. -/
theorem Attends.not_owes (h : Attends watcher a) (hover : a.indexer.jobs = []) :
    ¬ Owes watcher a := by
  have hnone : ∀ task, task ∉ a.indexer.tasks := by simp [Indexer.tasks, hover]
  intro howes
  cases howes with
  | publication publication hm hleft =>
      obtain ⟨task, ht, -⟩ := h.waits publication hm
      exact hnone task ht
  | reload hloads =>
      obtain ⟨task, ht, -⟩ := hloads
      exact hnone task ht
  | scan task hm scan hs hcurrent => exact hnone task hm

/-- An observer attends over a whole run. -/
theorem Attends.run (h : Attends watcher a) (hlegal : Legal a.indexer (turnsOf happenings))
    (hproper : Proper watcher a happenings) : Attends watcher (a.run watcher happenings) := by
  induction happenings generalizing a with
  | nil => exact h
  | cons happening rest ih =>
      obtain ⟨hattends, hrest⟩ := h.after hlegal hproper.1
      exact ih hattends hrest hproper.2

/-- **No change of the index goes unannounced.**  When all calls are over, an observer that has
subscribed from the beginning and copies the entries whenever it is called has a copy of the index
as it is then, or nothing has ever changed the index. -/
theorem copy_eq_entries_of_quiescent {limit : Int} {observers : Observers}
    (hsub : watcher ∈ observers.of Topic.notesUpdated.name) (hcalls : Calls (turnsOf happenings))
    (hsmooth : Along Smooth (Indexer.ofCatalog c limit) (turnsOf happenings))
    (hproper : Proper watcher (ofCatalog c limit observers) happenings) {b : Audience}
    (hb : (ofCatalog c limit observers).run watcher happenings = b) (hover : b.indexer.jobs = []) :
    b.copy = some b.indexer.catalog.index.entries ∨
      Along Unchanged (Indexer.ofCatalog c limit) (turnsOf happenings) := by
  subst hb
  have hlegal : Legal (ofCatalog c limit observers).indexer (turnsOf happenings) :=
    hcalls.legal c limit
  have hattends := attends_ofCatalog (c := c) limit hsub
  -- Once all calls are over no new copy can be owed.
  rcases hattends.upToDate_or_unchanged hlegal hsmooth hproper with hu | hunchanged
  · exact .inl (hu.resolve_right ((hattends.run hlegal hproper).not_owes hover))
  · exact .inr hunchanged

/-! ## A publication that is overtaken -/

open Catalog (opened)
open Indexer (turnOf)

/-- Observers of the notes. -/
def listeners (names : List Text) : Observers :=
  { subscriptions := names.map fun name => ⟨Topic.notesUpdated.name, name⟩ }

/-- A scan is merged.  The first of two observers is told of it and ends its subscription; meanwhile
a modification takes hold, and only then the second one is called, once for either. -/
def overtakenPublication : List Happening :=
  [.turn (turnOf (.start 1 [.rescan])), .turn (turnOf (.list 1 (.ok ["/p/a.py"]))),
    .turn (turnOf (.text 0 (.ok "# TODO: a\n"))), .turn (turnOf (.gather 1)), .call 1,
    .resubscribe (listeners ["view"]), .turn (turnOf (.start 2 [.file (.modified "a.py")])),
    .turn (turnOf (.text 1 (.ok "# NOTE: b\n"))), .call 1, .turn (turnOf (.told 1)), .call 2,
    .turn (turnOf (.told 2))]

/-- The calls of this run are in order. -/
theorem calls_overtakenPublication : Calls (turnsOf overtakenPublication) := by
  decide

/-- The audience after it. -/
def overtaken : Audience :=
  (ofCatalog opened 8 (listeners ["log", "view"])).run "view" overtakenPublication

/-- How the publication goes. -/
theorem overtakenPublication_runs :
    ("view" : Text) ∈ (listeners ["log", "view"]).of Topic.notesUpdated.name ∧
      Along Smooth (Indexer.ofCatalog opened 8) (turnsOf overtakenPublication) ∧
      Proper "view" (ofCatalog opened 8 (listeners ["log", "view"])) overtakenPublication ∧
      overtaken.indexer.jobs = [] ∧
      ¬ Along Unchanged (Indexer.ofCatalog opened 8) (turnsOf overtakenPublication) ∧
      overtaken.indexer.catalog.index.entries ≠ [] := by
  unfold overtaken
  rw [Catalog.opened_eq]
  decide +kernel

/-- In the end the second observer has the note of the modification. -/
theorem copy_eq_entries_overtaken :
    overtaken.copy = some overtaken.indexer.catalog.index.entries ∧
      overtaken.indexer.catalog.index.entries ≠ [] := by
  obtain ⟨hsub, hsmooth, hproper, hover, hchanged, hentries⟩ := overtakenPublication_runs
  have hb : (ofCatalog opened 8 (listeners ["log", "view"])).run "view" overtakenPublication =
      overtaken := rfl
  refine ⟨?_, hentries⟩
  exact (copy_eq_entries_of_quiescent hsub calls_overtakenPublication hsmooth hproper hb
    hover).resolve_right hchanged

end Audience

end Marginalia
