import Marginalia.Proofs.Drift
import Marginalia.Proofs.Supplies
import Marginalia.Proofs.Walks

/-!
# A scan that no other call disturbs

While a scan is the only call under way and the disk does not change, what it ends with is settled
by the disk when it begins, whatever the order in which the texts of its files come in
(`Indexer.Lone.after`).  Reads that earlier calls have left behind may still end meanwhile.

That the scan does end is proved in two halves.  As long as it has not, there is an outcome that it
waits for (`Indexer.Lone.exists_due`), and each such outcome lowers a count of what is still to come
in (`Indexer.Lone.toCome_lt`).

Main statement: `Indexer.scan_settled_by_disk`.
-/

namespace Marginalia

/-- What a disk has for the scans of a workspace. -/
def Supply.ofDisk (w : Workspace) (disk : Disk) : Supply where
  listed := w.list disk
  texts := w.read disk

theorem Supply.ofDisk_listed (w : Workspace) (disk : Disk) :
    (Supply.ofDisk w disk).listed = w.list disk := rfl

open Catalog (Next Scan)

namespace Indexer

variable {s : Supply} {x : Indexer} {c d : Catalog} {turn : Turn} {id : JobId} {scan : Scan}
  {paths : List Text} {rest turns past : List Turn}

/-! ## Reads of other calls -/

/-- What is read in a run is read for calls that have begun in it or before. -/
theorem Legal.job_mem_started (h : Legal x turns) (ids : List JobId)
    (htasks : ∀ task ∈ x.tasks, task.id ∈ ids) (hreads : ∀ read ∈ x.reads, read.job ∈ ids) :
    ∀ read ∈ (x.run turns).reads, read.job ∈ ids ++ turns.filterMap Turn.started? := by
  induction turns generalizing x ids with
  | nil =>
      intro read hm
      rw [List.filterMap_nil, List.append_nil]
      exact hreads read hm
  | cons turn rest ih =>
      obtain ⟨hnext, houtcome⟩ := h.next
      have hgrown : ids ++ (turn :: rest).filterMap Turn.started? =
          (ids ++ turn.started?.toList) ++ rest.filterMap Turn.started? := by
        rw [List.filterMap_cons, List.append_assoc]
        cases turn.started? <;> rfl
      have hstarted : ∀ {who requests}, turn.move = .start who requests →
          who ∈ ids ++ turn.started?.toList := by
        intro who requests hm
        refine List.mem_append_right _ ?_
        rw [Turn.started?, hm]
        exact List.mem_singleton_self _
      rw [hgrown]
      refine ih hnext _ (fun task ht => ?_) fun read hm => ?_
      · cases houtcome.origin ht with
        | old _ ht => exact List.mem_append_left _ (htasks task ht)
        | begun who request hm hnone hsteps => exact hstarted hm
        | resumed prior hprior step hp hsteps => exact List.mem_append_left _ (htasks prior hprior)
      · rcases job_of_mem_step turn.disk hm with ⟨old, hold, hjob⟩ | ⟨job, hj, hjob⟩ |
          ⟨requests, hmove⟩
        · exact hjob ▸ List.mem_append_left _ (hreads old hold)
        · exact hjob ▸ List.mem_append_left _ (htasks _ (List.mem_map_of_mem hj))
        · exact hstarted hmove

/-- A call has a number of its own, so that nothing is read for it before it begins. -/
theorem Calls.unread (h : Calls (past ++ turn :: turns)) (c : Catalog) (limit : Int)
    {requests : List Request} (hm : turn.move = .start id requests) :
    ∀ read ∈ ((ofCatalog c limit).run past).reads, read.job ≠ id := by
  have hfresh : id ∉ past.filterMap Turn.started? := by
    have hnodup := h.nodup
    rw [List.filterMap_append] at hnodup
    exact fun hold => (List.nodup_append.1 hnodup).2.2 id hold id (mem_started_of_move hm) rfl
  intro read hread hjob
  have hstarted := (h.legal c limit).left.job_mem_started [] (by simp [ofCatalog, tasks])
    (by simp [ofCatalog]) read hread
  exact hfresh (hjob ▸ hstarted)

/-! ## A scan on its own -/

/-- How far a scan has come that is the only call under way. -/
inductive Lone (s : Supply) (id : JobId) (c : Catalog) (scan : Scan) (paths : List Text)
    (x : Indexer) : Prop
  | underWay (next : Next) (tasks : x.tasks = [{ id, request := .rescan, next }])
      (reaches : s.Reaches scan paths next) (catalog : x.catalog = c.scanning)
  | telling (tasks : x.tasks = [{ id, request := .rescan, next := .tell .notesUpdated }])
      (catalog : x.catalog = c.scanned s scan paths)
  | finished (tasks : x.tasks = []) (catalog : x.catalog = c.scanned s scan paths)

/-- A call that goes on is the only one, if it was so before. -/
theorem Steps.tasks_of_lone {request : Request} {next : Next} {step : Catalog × Next}
    (h : Steps x turn id request step) (hx : x.tasks = [{ id, request, next }]) :
    (x.after turn).tasks = Task.pending { id, request, next := step.2 } := by
  rw [h.tasks, hx]
  simp

/-- With no other call under way, and none that begins, nothing else happens. -/
theorem Elsewhere.quiet_of_lone (h : Elsewhere id x turn) (hlone : ∀ task ∈ x.tasks, task.id = id)
    (hstart : turn.started? = none) :
    (x.after turn).catalog = x.catalog ∧ (x.after turn).tasks = x.tasks := by
  cases h with
  | quiet catalog tasks said => exact ⟨catalog, tasks⟩
  | begun other request move ne steps =>
      rw [Turn.started?, move] at hstart
      cases hstart
  | resumed task mem ne step proceeds steps => exact absurd (hlone task mem) ne

/-- After a step of the only call, that call is the only one. -/
theorem Steps.lone {step : Catalog × Next} (h : Steps x turn id .rescan step) {next : Next}
    (hx : x.tasks = [{ id, request := .rescan, next }])
    (hstep : step = (c.scanning, .read scan paths) ∨
      step = (c.scanned s scan paths, .tell .notesUpdated)) :
    Lone s id c scan paths (x.after turn) := by
  have htasks := h.tasks_of_lone hx
  have hcatalog := h.catalog
  rcases hstep with rfl | rfl
  · exact .underWay _ htasks .read hcatalog
  · exact .telling htasks hcatalog

/-- A scan on its own goes on as its supply says. -/
theorem Lone.after (h : Lone s id c scan paths x) (hscan : scan.generation = c.scanning.generation)
    (hlegal : Legal x (turn :: rest)) (hserved : Served s id x) (hserves : s.Serves id x turn)
    (hstart : turn.started? = none) (hsound : ∀ path ∈ paths, s.Extracts scan.vocabulary path) :
    Lone s id c scan paths (x.after turn) := by
  cases h with
  | underWay next tasks reaches catalog =>
      have hmem : ({ id, request := .rescan, next } : Task) ∈ x.tasks := by simp [tasks]
      rcases hserved.goesOn hlegal hserves hmem reaches hsound with helse | ⟨-, step, hsteps, hstep⟩
      · obtain ⟨hcatalog, htasks⟩ := helse.quiet_of_lone (by simp [tasks]) hstart
        exact .underWay next (htasks.trans tasks) reaches (hcatalog.trans catalog)
      · refine hsteps.lone tasks ?_
        rw [catalog] at hstep
        rcases hstep with ⟨-, rfl⟩ | ⟨-, rfl⟩
        · exact c.readFiles_scanning s hscan paths
        · exact .inr (c.finishScan_scanning s hscan paths)
  | telling tasks catalog =>
      have hmem : ({ id, request := .rescan, next := .tell .notesUpdated } : Task) ∈ x.tasks := by
        simp [tasks]
      rcases hlegal.elsewhere_or_proceeds hmem with helse | ⟨-, step, hp, hsteps⟩
      · obtain ⟨hcatalog, htasks⟩ := helse.quiet_of_lone (by simp [tasks]) hstart
        exact .telling (htasks.trans tasks) (hcatalog.trans catalog)
      · have htasks := hsteps.tasks_of_lone tasks
        have hcatalog := hsteps.catalog
        generalize turn.move = move at hp
        cases hp
        exact .finished htasks (hcatalog.trans catalog)
  | finished tasks catalog =>
      cases hlegal.next.2 with
      | quiet hcatalog htasks said => exact .finished (htasks.trans tasks) (hcatalog.trans catalog)
      | begun other request move fresh steps =>
          rw [Turn.started?, move] at hstart
          cases hstart
      | resumed task mem step proceeds steps => simp [tasks] at mem

/-! ## The scan ends -/

/-- Whether what comes in with a turn is waited for. -/
def Due (x : Indexer) (turn : Turn) : Prop :=
  match turn.move with
  | .start _ _ => False
  | .settings id _ => ∃ job ∈ x.jobs, job.id = id ∧ job.wait = .settings
  | .list id _ => ∃ job ∈ x.jobs, job.id = id ∧ ∃ scan, job.wait = .list scan
  | .text ticket _ => ∃ read ∈ x.reads, read.ticket = ticket ∧ read.isRunning = true
  | .gather id => ∃ job ∈ x.jobs, job.id = id ∧ x.canGather job = true
  | .told id => ∃ job ∈ x.jobs, job.id = id ∧ ∃ topic, job.wait = .observers topic

/-- No call waits for another one to begin. -/
theorem Due.started? (h : x.Due turn) : turn.started? = none := by
  unfold Due at h
  unfold Turn.started?
  split
  · rename_i hm
    rw [hm] at h
    exact h.elim
  · rfl

/-- The job of a task. -/
theorem exists_job {request : Request} {next : Next}
    (h : ({ id, request, next } : Task) ∈ x.tasks) :
    ∃ job ∈ x.jobs, job.id = id ∧ x.nextOf job.wait = next := by
  obtain ⟨job, hj, heq⟩ := List.mem_map.1 h
  exact ⟨job, hj, congrArg Task.id heq, congrArg Task.next heq⟩

/-- A job that has reads under way has been given their turns. -/
theorem Paced.ended (h : x.Paced) (hlimit : 1 ≤ x.limit)
    (hnone : ∀ read ∈ x.reads, read.isRunning = false) {read : Read} (hm : read ∈ x.reads) :
    ∃ found, read.found? = some found := by
  have hcount : running x.reads = 0 :=
    List.countP_eq_zero.2 fun other ho => by simp [hnone other ho]
  have hrunning := hnone read hm
  have hwaiting : read.isWaiting = false := by
    cases hw : read.isWaiting with
    | false => rfl
    | true =>
        have := h.eager read hm hw
        omega
  obtain ⟨ticket, job, path, vocabulary, progress⟩ := read
  cases progress with
  | waiting => cases hwaiting
  | running => cases hrunning
  | ended found => exact ⟨found, rfl⟩

/-- Where nothing is under way, the reads of a scan have all ended well. -/
theorem Served.foundBy_isSome (h : Served s id x) (hx : x.Sane) (hpaced : x.Paced)
    (hlimit : 1 ≤ x.limit) (hnone : ∀ read ∈ x.reads, read.isRunning = false) {job : Job}
    (hj : job ∈ x.jobs) (hid : job.id = id) {tickets : List Ticket}
    (hw : job.wait = .reads scan tickets none)
    (hsound : ∀ path ∈ tickets.map x.pathOf, s.Extracts scan.vocabulary path) :
    (x.foundBy tickets).isSome = true := by
  have hall : ∀ ticket ∈ tickets, (x.foundAt ticket).isSome = true := by
    intro ticket ht
    have hwaits : ticket ∈ job.wait.tickets := by rwa [hw]
    obtain ⟨resting, hresting, -⟩ := hx.awaited job hj ticket hwaits
    obtain ⟨hmem, rfl⟩ := of_readAt?_eq_some hresting
    obtain ⟨read, hread, rfl⟩ := List.mem_map.1 hmem
    rw [Read.resting_ticket] at hwaits
    obtain ⟨hjob, hkind⟩ := hx.mem_paths hread hj hwaits
    obtain ⟨hvocabulary, hpath⟩ := hkind scan tickets none hw
    obtain ⟨found, hfound⟩ := hpaced.ended hlimit hnone hread
    have hfinds := h.found read hread (hjob.trans hid) found hfound
    rw [hvocabulary, (hsound _ hpath).examine] at hfinds
    rw [Read.resting_ticket, foundAt, find?_of_nodup hx.tickets hread]
    simp only [hfound, hfinds]
    rfl
  clear hw hsound
  induction tickets with
  | nil => rfl
  | cons ticket rest ih =>
      obtain ⟨first, hfirst⟩ := Option.isSome_iff_exists.1 (hall ticket List.mem_cons_self)
      obtain ⟨others, hothers⟩ := Option.isSome_iff_exists.1
        (ih fun other ho => hall other (List.mem_cons_of_mem _ ho))
      rw [foundBy_cons, hfirst, hothers]
      rfl

/-- As long as a scan has not ended, there is an outcome that it waits for, and its supply has
it. -/
theorem Lone.exists_due (h : Lone s id c scan paths x) (hx : x.Sane) (hserved : Served s id x)
    (hpaced : x.Paced) (hlimit : 1 ≤ x.limit)
    (hsound : ∀ path ∈ paths, s.Extracts scan.vocabulary path) (hover : x.tasks ≠ [])
    (disk : Disk) : ∃ move, x.Due { disk, move } ∧ s.Serves id x { disk, move } := by
  cases h with
  | underWay next tasks reaches catalog =>
      obtain ⟨job, hj, hid, hnext⟩ := exists_job (by rw [tasks]; exact List.mem_singleton_self _)
      cases reaches with
      | list listed =>
          refine ⟨.list id s.listed, ⟨job, hj, hid, scan, ?_⟩, fun _ => rfl⟩
          cases hw : job.wait with
          | list own =>
              rw [hw] at hnext
              cases hnext
              rfl
          | _ =>
              rw [hw] at hnext
              cases hnext
      | read =>
          by_cases hrunning : ∃ read ∈ x.reads, read.isRunning = true
          · -- A read under way is waited for, whichever call it belongs to.
            obtain ⟨read, hread, hr⟩ := hrunning
            refine ⟨.text read.ticket (s.texts read.path), ⟨read, hread, rfl, hr⟩, ?_⟩
            intro other ho hticket _
            rw [read_eq_of_ticket hx.tickets hread ho hticket]
          · obtain ⟨tickets, hw, hpaths⟩ := hserved.exists_tickets hj hid hnext
            have hnone : ∀ read ∈ x.reads, read.isRunning = false := by
              intro read hm
              simpa using fun hr => hrunning ⟨read, hm, hr⟩
            have hall := hserved.foundBy_isSome hx hpaced hlimit hnone hj hid hw (hpaths ▸ hsound)
            refine ⟨.gather id, ⟨job, hj, hid, ?_⟩, trivial⟩
            simp [canGather, hw, hall]
  | telling tasks catalog =>
      obtain ⟨job, hj, hid, hnext⟩ := exists_job (by rw [tasks]; exact List.mem_singleton_self _)
      refine ⟨.told id, ⟨job, hj, hid, .notesUpdated, ?_⟩, trivial⟩
      cases hw : job.wait with
      | observers topic =>
          rw [hw] at hnext
          cases hnext
          rfl
      | _ =>
          rw [hw] at hnext
          cases hnext
  | finished tasks catalog => exact absurd tasks hover

/-- How many outcomes a scan of some files still waits for, apart from texts. -/
def stagesLeft (paths : List Text) : Next → Nat
  | .list _ => paths.length + 3
  | .read _ _ => 2
  | .tell _ => 1
  | _ => 0

/-- How much is still to come in, at most, until a scan of some files is over. -/
def toCome (x : Indexer) (paths : List Text) : Nat :=
  x.unended + x.tasks.foldr (fun task left => stagesLeft paths task.next + left) 0

/-- A step of the only call leaves less to come in, if it brings less than the call waited for. -/
theorem Sane.toCome_resume_lt (h : x.Sane) (disk : Disk) {job : Job} (hj : job ∈ x.jobs)
    (hlone : x.tasks = [x.taskOf job]) {z : Indexer} (hz : Frees x z job.id)
    (hreads : z.unended = x.unended) (step : Catalog → Catalog × Next) (paths : List Text)
    (hless : (wanted (step x.catalog).2).length + stagesLeft paths (step x.catalog).2 <
      stagesLeft paths (x.nextOf job.wait)) :
    (z.resume disk job step).1.toCome paths < x.toCome paths := by
  have htasks := (h.resumes disk hj hz step [] rfl).tasks
  have hothers : x.tasks.filter (·.id ≠ job.id) = [] := by
    rw [hlone]
    simp [taskOf]
  simp only [hothers, List.nil_append] at htasks
  have hthen : (z.resume disk job step).1.toCome paths =
      x.unended + (wanted (step x.catalog).2).length + stagesLeft paths (step x.catalog).2 := by
    rw [toCome, htasks, unended_resume disk (h.single job hj), hz.catalog, hreads]
    generalize (step x.catalog).2 = next
    cases next <;> rfl
  have hnow : x.toCome paths = x.unended + stagesLeft paths (x.nextOf job.wait) := by
    rw [toCome, hlone]
    rfl
  omega

/-- The only job that there can be is that of the scan. -/
theorem Lone.of_mem_jobs (h : Lone s id c scan paths x) {job : Job} (hj : job ∈ x.jobs) :
    x.tasks = [x.taskOf job] ∧ job.id = id ∧
      (s.Reaches scan paths (x.nextOf job.wait) ∨ x.nextOf job.wait = .tell .notesUpdated) := by
  have hmem : x.taskOf job ∈ x.tasks := List.mem_map_of_mem hj
  cases h with
  | underWay next tasks reaches catalog =>
      rw [tasks] at hmem ⊢
      have heq := List.mem_singleton.1 hmem
      obtain rfl : x.nextOf job.wait = next := congrArg Task.next heq
      exact ⟨by rw [heq], congrArg Task.id heq, .inl reaches⟩
  | telling tasks catalog =>
      rw [tasks] at hmem ⊢
      have heq := List.mem_singleton.1 hmem
      exact ⟨by rw [heq], congrArg Task.id heq, .inr (congrArg Task.next heq)⟩
  | finished tasks catalog => simp [tasks] at hmem

/-- A scan that ends has at most to tell of it. -/
theorem left_finishScan (scan : Scan) (found : List (Text × Option (List Note)))
    (paths : List Text) :
    (wanted (c.finishScan scan found).2).length +
      stagesLeft paths (c.finishScan scan found).2 ≤ 1 := by
  unfold Catalog.finishScan
  split
  · exact Nat.zero_le 1
  · exact Nat.le_refl 1

/-- Of a scan that begins to read, at most one outcome for each file is to come, and two more. -/
theorem left_readFiles (scan : Scan) (paths : List Text) :
    (wanted (c.readFiles scan paths).2).length + stagesLeft paths (c.readFiles scan paths).2 ≤
      paths.length + 2 := by
  unfold Catalog.readFiles
  split
  · exact Nat.le_trans (left_finishScan scan [] paths) (by omega)
  · exact Nat.le_refl _

/-! ### Outcome by outcome -/

/-- The call of a scan waits for no settings. -/
theorem Lone.not_due_settings (h : Lone s id c scan paths x) {disk : Disk} {who : JobId}
    {loaded : Except Settings.LoadFault Settings} : ¬ x.Due ⟨disk, .settings who loaded⟩ := by
  rintro ⟨job, hj, -, hw⟩
  obtain ⟨-, -, hnext⟩ := h.of_mem_jobs hj
  rw [hw] at hnext
  rcases hnext with hreaches | htell
  · cases hreaches
  · cases htell

/-- With its list, a scan waits for the texts of the files, and for the end of its reads. -/
theorem Lone.list_lt (h : Lone s id c scan paths x) (hx : x.Sane) {disk : Disk} {who : JobId}
    {listed : Except Disk.Fault (List Text)} (hserves : s.Serves id x ⟨disk, .list who listed⟩)
    (hdue : x.Due ⟨disk, .list who listed⟩) :
    (x.step disk (.list who listed)).1.toCome paths < x.toCome paths := by
  obtain ⟨job, hj, rfl, own, hw⟩ := hdue
  obtain ⟨hlone, rfl, hnext⟩ := h.of_mem_jobs hj
  rw [hw] at hnext
  rcases hnext with hreaches | htell
  · cases hreaches with
    | list hlisted =>
        obtain rfl : listed = .ok paths := (hserves rfl).trans hlisted
        have hstep : x.step disk (.list job.id (.ok paths)) =
            x.resume disk job fun c => c.readFiles scan paths := by
          simp only [step, hx.find?_id hj, hw, takeList]
        rw [hstep]
        refine hx.toCome_resume_lt disk hj hlone (hx.frees _) rfl _ paths ?_
        rw [hw]
        exact Nat.lt_succ_of_le (left_readFiles scan paths)
  · cases htell

/-- A text ends a read, and no update waits for it. -/
theorem Lone.text_lt (h : Lone s id c scan paths x) (hx : x.Sane) {disk : Disk} {ticket : Ticket}
    {text : Except Document.Fault Text} (hdue : x.Due ⟨disk, .text ticket text⟩) :
    (x.step disk (.text ticket text)).1.toCome paths < x.toCome paths := by
  obtain ⟨read, hread, rfl, hrunning⟩ := hdue
  rcases hx.text_cases disk read.ticket text with
    ⟨hnone, -, -, htasks, -⟩ | ⟨job, update, hj, hw, -⟩
  · have hfewer := hx.unended_text_lt disk hread hrunning text hnone
    simp only [toCome, htasks]
    omega
  · obtain ⟨-, -, hnext⟩ := h.of_mem_jobs (List.mem_of_find?_eq_some hj)
    rw [hw] at hnext
    rcases hnext with hreaches | htell
    · cases hreaches
    · cases htell

/-- When its reads are over, a scan has nothing left but to tell of its end. -/
theorem Lone.gather_lt (h : Lone s id c scan paths x) (hx : x.Sane) (hserved : Served s id x)
    {disk : Disk} {who : JobId} (hdue : x.Due ⟨disk, .gather who⟩) :
    (x.step disk (.gather who)).1.toCome paths < x.toCome paths := by
  obtain ⟨job, hj, rfl, hready⟩ := hdue
  obtain ⟨hlone, hid, hnext⟩ := h.of_mem_jobs hj
  rcases hnext with hreaches | htell
  · generalize hwhat : x.nextOf job.wait = next at hreaches
    cases hreaches with
    | list hlisted => cases hw : job.wait <;> simp [hw, canGather, nextOf] at hready hwhat
    | read =>
        obtain ⟨tickets, hw, -⟩ := hserved.exists_tickets hj hid hwhat
        obtain ⟨found, hfound⟩ := Option.isSome_iff_exists.1
          (by simpa [canGather, hw] using hready)
        have hstep : x.step disk (.gather job.id) =
            (x.dropEnded job.wait.tickets).resume disk job fun c => c.finishScan scan found := by
          simp only [step, hx.find?_id hj, takeReads, hw, hfound, Wait.tickets]
        rw [hstep]
        refine hx.toCome_resume_lt disk hj hlone (hx.frees_dropEnded hj)
          (unended_dropEnded _ _) _ paths ?_
        rw [hw]
        exact Nat.lt_succ_of_le (left_finishScan scan found paths)
  · cases hw : job.wait <;> simp [hw, canGather, nextOf] at hready htell

/-- When its end was told, the scan is over. -/
theorem Lone.told_lt (h : Lone s id c scan paths x) (hx : x.Sane) {disk : Disk} {who : JobId}
    (hdue : x.Due ⟨disk, .told who⟩) :
    (x.step disk (.told who)).1.toCome paths < x.toCome paths := by
  obtain ⟨job, hj, rfl, topic, hw⟩ := hdue
  obtain ⟨hlone, -, hnext⟩ := h.of_mem_jobs hj
  rw [hw] at hnext
  rcases hnext with hreaches | htell
  · cases hreaches
  · cases htell
    have hstep : x.step disk (.told job.id) =
        x.resume disk job fun c => c.afterTold .notesUpdated := by
      simp only [step, hx.find?_id hj, hw]
    rw [hstep]
    refine hx.toCome_resume_lt disk hj hlone (hx.frees _) rfl _ paths ?_
    rw [hw]
    exact Nat.zero_lt_one

/-- **Progress.**  Each outcome that a scan waits for is one less to come in. -/
theorem Lone.toCome_lt (h : Lone s id c scan paths x) (hx : x.Sane) (hserved : Served s id x)
    (hserves : s.Serves id x turn) (hdue : x.Due turn) :
    (x.after turn).toCome paths < x.toCome paths := by
  obtain ⟨disk, move⟩ := turn
  cases move with
  | start who requests => exact hdue.elim
  | settings who loaded => exact absurd hdue h.not_due_settings
  | list who listed => exact h.list_lt hx hserves hdue
  | text ticket text => exact h.text_lt hx hdue
  | gather who => exact h.gather_lt hx hserved hdue
  | told who => exact h.told_lt hx hdue

/-! ## From the beginning to the end -/

/-- A lone scan is one of the files of its supply. -/
theorem Lone.scans (h : Lone s id c scan paths x)
    (hsound : ∀ path ∈ paths, s.Extracts scan.vocabulary path) : Scans s id paths x := by
  intro task ht _
  obtain ⟨job, hj, rfl⟩ := List.mem_map.1 ht
  obtain ⟨-, -, hreaches | htell⟩ := h.of_mem_jobs hj
  · exact .inl ⟨scan, hreaches, hsound⟩
  · exact .inr htell

/-- **A lone scan goes on.**  Along a run without other calls a scan stays alone, and all that it
has read was served. -/
theorem Lone.run (h : Lone s id c scan paths x) (hscan : scan.generation = c.scanning.generation)
    (hlegal : Legal x turns) (hserved : Served s id x) (hserves : Along (s.Serves id) x turns)
    (hstart : ∀ turn ∈ turns, turn.started? = none)
    (hsound : ∀ path ∈ paths, s.Extracts scan.vocabulary path) :
    Lone s id c scan paths (x.run turns) ∧ Served s id (x.run turns) := by
  induction turns generalizing x with
  | nil => exact ⟨h, hserved⟩
  | cons turn rest ih =>
      have hfirst := hstart turn List.mem_cons_self
      exact ih (h.after hscan hlegal hserved hserves.1 hfirst hsound) hlegal.next.1
        (hserved.after hlegal.sane hserves.1 (h.scans hsound)) hserves.2
        fun later hl => hstart later (List.mem_cons_of_mem _ hl)

/-- There are no more outcomes that a scan waits for than are to come in. -/
theorem Lone.length_le (h : Lone s id c scan paths x)
    (hscan : scan.generation = c.scanning.generation) (hlegal : Legal x turns)
    (hserved : Served s id x) (hserves : Along (s.Serves id) x turns)
    (hdue : Along Due x turns)
    (hsound : ∀ path ∈ paths, s.Extracts scan.vocabulary path) :
    turns.length + (x.run turns).toCome paths ≤ x.toCome paths := by
  induction turns generalizing x with
  | nil => simp
  | cons turn rest ih =>
      have hfirst : turn.started? = none := Due.started? hdue.1
      have hlt := h.toCome_lt hlegal.sane hserved hserves.1 hdue.1
      have hrest := ih (h.after hscan hlegal hserved hserves.1 hfirst hsound) hlegal.next.1
        (hserved.after hlegal.sane hserves.1 (h.scans hsound)) hserves.2 hdue.2
      rw [run_cons, List.length_cons]
      omega

/-- The scan that a call begins where there is no other. -/
theorem Legal.lone_of_start (h : Legal x (turn :: rest)) (hm : turn.move = .start id [.rescan])
    (hidle : x.jobs = []) (hpaths : s.pathsFor x.catalog = .ok paths) :
    Lone s id x.catalog x.catalog.scanToBegin paths (x.after turn) ∧
      (x.after turn).toCome paths ≤ x.unended + paths.length + 3 := by
  have hsteps : Steps x turn id .rescan x.catalog.beginScan := h.begun hm
  have hcatalog := hsteps.catalog
  have htasks : (x.after turn).tasks =
      Task.pending { id, request := .rescan, next := x.catalog.beginScan.2 } := by
    rw [hsteps.tasks, tasks, hidle]
    rfl
  have hcount : (x.after turn).toCome paths =
      x.unended + (wanted x.catalog.beginScan.2).length +
        stagesLeft paths x.catalog.beginScan.2 := by
    have hreads : (x.after turn).unended = x.unended + (wanted x.catalog.beginScan.2).length := by
      rw [Indexer.after, hm]
      exact unended_goOn turn.disk id { x with catalog := x.catalog.beginScan.1 } .rescan
        x.catalog.beginScan.2
    rw [toCome, htasks, hreads]
    generalize x.catalog.beginScan.2 = next
    cases next <;> rfl
  rw [hcount]
  rcases Supply.beginScan_cases hpaths with ⟨next, hbegin, hreaches⟩ | hbegin
  · rw [hbegin] at htasks hcatalog ⊢
    cases hreaches with
    | list listed =>
        refine ⟨.underWay _ htasks (.list listed) hcatalog, ?_⟩
        simp only [wanted, stagesLeft, List.length_nil]
        omega
    | read =>
        refine ⟨.underWay _ htasks .read hcatalog, ?_⟩
        simp only [wanted, stagesLeft]
        omega
  · rw [hbegin] at htasks hcatalog ⊢
    refine ⟨.telling htasks hcatalog, ?_⟩
    simp only [wanted, stagesLeft, List.length_nil]
    omega

/-- The paths of a scan differ. -/
theorem nodup_pathsFor {w : Workspace} {search : Search} {disk : Disk} (hr : w.root.IsPlain)
    (htree : disk.IsTree) (hnames : disk.HasNames) (hw : d.workspace = w.configure search)
    (hpaths : (Supply.ofDisk d.workspace disk).pathsFor d = .ok paths) : paths.Nodup := by
  unfold Supply.pathsFor at hpaths
  split at hpaths
  · cases hpaths
    cases d.active with
    | none => exact List.nodup_nil
    | some path => exact List.nodup_singleton path
  · refine Workspace.nodup_list ?_ htree hnames hpaths
    rw [hw]
    exact hr

/-- **The disk settles a scan.**  What a scan ends with is settled by the disk, if that does not
change and no other call is under way: not by the order in which the files are read, nor by the
limit on how many of them are read at once.  The limit is always kept; and the scan does end, as
there is something that it waits for until it has, and it does not wait for ever more. -/
theorem scan_settled_by_disk {root file : Text} {search : Search} {override : Option Text}
    {w : Workspace} {settings : Settings} {hasFile : Bool} {warnings : List Warning} {limit : Int}
    {disk : Disk} (hw : w = .ofRoot (Path.ofText root) search file override)
    (hroot : (Path.ofText root).isAbsolute = true)
    (hc : Catalog.ofSettings w settings hasFile = .ok (c, warnings))
    (htree : disk.IsTree) (hnames : disk.HasNames) (hm : turn.move = .start id [.rescan])
    (hcalls : Calls (past ++ turn :: turns))
    (hidle : ((ofCatalog c limit).run past).jobs = [])
    (hd : ((ofCatalog c limit).run past).catalog = d)
    (hx : ((ofCatalog c limit).run past).after turn = x)
    (halone : ∀ later ∈ turns, later.started? = none)
    (hs : Supply.ofDisk d.workspace disk = s) (hserves : Along (s.Serves id) x turns)
    (hpaths : s.pathsFor d = .ok paths) (hextracts : ∀ path ∈ paths, s.Extracts d.vocabulary path) :
    (∀ before rest, past ++ turn :: turns = before ++ rest →
      (running ((ofCatalog c limit).run before).reads : Int) ≤ max 1 limit) ∧
    ((x.run turns).jobs = [] → (x.run turns).catalog.index.entries = s.entriesFor d paths) ∧
    ((x.run turns).jobs ≠ [] →
      ∃ move, (x.run turns).Due { disk, move } ∧ s.Serves id (x.run turns) { disk, move }) ∧
    (Along Due x turns →
      turns.length ≤ ((ofCatalog c limit).run past).unended + paths.length + 3) := by
  have hlegal := hcalls.legal c limit
  have hnow := hlegal.right
  have hafter := hnow.next.1
  have hpaced := paced_ofCatalog c limit
  have hlimit : (ofCatalog c limit).limit = max 1 limit.toNat := rfl
  have hserved : Served s id ((ofCatalog c limit).run past) :=
    ⟨fun read hread hjob => absurd hjob (hcalls.unread c limit hm read hread), by simp [hidle]⟩
  have hnothing : Scans s id paths ((ofCatalog c limit).run past) := by simp [Scans, tasks, hidle]
  have hfirst : Served s id x := by
    rw [← hx]
    exact hserved.after hnow.sane (by simp [Supply.Serves, hm]) hnothing
  subst hd
  obtain ⟨hlone, hcount⟩ := hnow.lone_of_start hm hidle hpaths
  rw [hx] at hlone hcount hafter
  obtain ⟨hend, hendServed⟩ := hlone.run rfl hafter hfirst hserves halone hextracts
  have hlast : x.run turns = (ofCatalog c limit).run (past ++ turn :: turns) := by
    rw [run_append, run_cons, hx]
  have hnone : (x.run turns).jobs = [] ↔ (x.run turns).tasks = [] := by simp [tasks]
  refine ⟨fun before rest _ => ?_, fun hover => ?_, fun hmore => ?_, fun hdue => ?_⟩
  · obtain ⟨⟨hwithin, -⟩, hsame⟩ := hpaced.run before
    rw [hsame, hlimit] at hwithin
    omega
  · have hplain : w.root.IsPlain := hw ▸ (Workspace.ofRoot_isPlain hroot search file override).root
    obtain ⟨used, htied, -⟩ := hlegal.left.exists_tied (Catalog.tied_ofSettings hc)
    have hnodup := nodup_pathsFor hplain htree hnames htied.exclusions (hs ▸ hpaths)
    have hindex : (x.run turns).catalog.index =
        Index.ofEntries (s.entriesFor ((ofCatalog c limit).run past).catalog paths) := by
      cases hend with
      | underWay next tasks reaches catalog => simp [hnone.1 hover] at tasks
      | telling tasks catalog => simp [hnone.1 hover] at tasks
      | finished tasks catalog => exact congrArg Catalog.index catalog
    rw [hindex]
    exact Supply.entries_ofEntries hnodup _
  · obtain ⟨hlastPaced, hsame⟩ := hpaced.run (past ++ turn :: turns)
    rw [← hlast] at hlastPaced hsame
    have hsane := (show Legal x (turns ++ []) by rwa [List.append_nil]).right.sane
    exact hend.exists_due hsane hendServed hlastPaced (by omega) hextracts (mt hnone.2 hmore) disk
  · have hshort := hlone.length_le rfl hafter hfirst hserves hdue hextracts
    omega

/-! ## Two files, read out of order -/

open Catalog (opened project)

/-- A project folder with a note in one file and another file that holds no text. -/
def mixedProject : Disk :=
  { items := [(["p"], .folder), (["p", "a.py"], .file (Utf8.encode "# TODO: a\n")),
      (["p", "b.py"], .file [0xff])] }

/-- What that folder has for a scan. -/
def mixedSupply : Supply := .ofDisk opened.workspace mixedProject

/-- A scan of that folder begins. -/
def mixedScan : Turn := { disk := mixedProject, move := .start 1 [.rescan] }

/-- The rest of that scan; the second file comes in first. -/
def mixedTurns : List Turn :=
  [.list 1 (.ok ["/p/a.py", "/p/b.py"]), .text 1 (mixedSupply.texts "/p/b.py"),
    .text 0 (mixedSupply.texts "/p/a.py"), .gather 1, .told 1].map fun move =>
      { disk := mixedProject, move }

/-- The two files of the project, in their order. -/
theorem list_mixedProject : opened.workspace.list mixedProject = .ok ["/p/a.py", "/p/b.py"] := by
  have hfiles : (opened.workspace.files mixedProject).filter (opened.workspace.takes mixedProject) =
      [[("a.py" : Text)], [("b.py" : Text)]] := by
    rw [Catalog.opened_eq]
    decide +kernel
  have hsorted : [[("a.py" : Text)], [("b.py" : Text)]].mergeSort Workspace.walkOrder =
      [[("a.py" : Text)], [("b.py" : Text)]] := by
    refine List.mergeSort_of_pairwise (List.pairwise_pair.2 ?_)
    rw [Workspace.walkOrder]
    decide +kernel
  rw [Workspace.list, hfiles, hsorted, Catalog.opened_eq]
  decide +kernel

theorem mixedTurns_runs :
    mixedProject.IsTree ∧ mixedProject.HasNames ∧ Calls ([] ++ mixedScan :: mixedTurns) ∧
      opened.scope ≠ .current ∧
      (∀ path ∈ [("/p/a.py" : Text), "/p/b.py"], mixedSupply.Extracts opened.vocabulary path) ∧
      (∀ read ∈ (((ofCatalog opened 2).after mixedScan).run (mixedTurns.take 1)).reads,
        read.ticket = 1 → read.path = "/p/b.py") ∧
      (∀ read ∈ (((ofCatalog opened 2).after mixedScan).run (mixedTurns.take 2)).reads,
        read.ticket = 0 → read.path = "/p/a.py") ∧
      (((ofCatalog opened 2).after mixedScan).run mixedTurns).jobs = [] ∧
      (∀ turn ∈ mixedTurns, turn.started? = none) ∧
      (mixedSupply.entriesFor opened ["/p/a.py", "/p/b.py"]).map (·.path) =
        [("/p/a.py" : Text)] := by
  unfold mixedTurns mixedSupply
  rw [Catalog.opened_eq]
  decide +kernel

theorem serves_mixedTurns {x : Indexer}
    (hfirst : ∀ read ∈ (x.run (mixedTurns.take 1)).reads, read.ticket = 1 → read.path = "/p/b.py")
    (hsecond : ∀ read ∈ (x.run (mixedTurns.take 2)).reads,
      read.ticket = 0 → read.path = "/p/a.py") :
    Along (mixedSupply.Serves 1) x mixedTurns := by
  refine ⟨fun _ => ?_, fun read hm hticket _ => ?_, fun read hm hticket _ => ?_, trivial, trivial,
    trivial⟩
  · rw [mixedSupply, Supply.ofDisk_listed, list_mixedProject]
  · rw [hfirst read hm hticket]
  · rw [hsecond read hm hticket]

/-- Though the second file comes in first and cannot be read, the index holds the entry of the first
one. -/
theorem scan_settled_by_disk_mixedProject :
    (((ofCatalog opened 2).after mixedScan).run mixedTurns).catalog.index.entries =
        mixedSupply.entriesFor opened ["/p/a.py", "/p/b.py"] ∧
      (mixedSupply.entriesFor opened ["/p/a.py", "/p/b.py"]).map (·.path) =
        [("/p/a.py" : Text)] := by
  obtain ⟨htree, hnames, hcalls, hscope, hextracts, hfirst, hsecond, hover, halone, hentries⟩ :=
    mixedTurns_runs
  obtain ⟨warnings, hopened⟩ := Catalog.ofSettings_project
  have hproject : project = .ofRoot (Path.ofText "/p") {} [] none := rfl
  have hpaths : mixedSupply.pathsFor opened = .ok ["/p/a.py", "/p/b.py"] := by
    rw [Supply.pathsFor, if_neg hscope, mixedSupply, Supply.ofDisk_listed, list_mixedProject]
  have hidle : ((ofCatalog opened 2).run []).jobs = [] := rfl
  have hd : ∀ c : Catalog, ((ofCatalog c 2).run []).catalog = c := fun _ => rfl
  have hx : ((ofCatalog opened 2).run []).after mixedScan =
    (ofCatalog opened 2).after mixedScan := rfl
  obtain ⟨-, hdone, -, -⟩ := scan_settled_by_disk hproject Catalog.project_isAbsolute hopened htree
    hnames rfl hcalls hidle (hd opened) hx halone rfl
      (serves_mixedTurns hfirst hsecond) hpaths hextracts
  exact ⟨hdone hover, hentries⟩

end Indexer

end Marginalia
