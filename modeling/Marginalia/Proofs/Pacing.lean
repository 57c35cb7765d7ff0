import Marginalia.Proofs.Replies
import Marginalia.Proofs.Scans

/-!
# The pace of reads

How the reads of an indexer come and go, whatever its jobs are.  A step takes an outcome in and then
goes on with a job; `Indexer.StepsTo` lists what it can come to.  What the first half does to the
reads is `Indexer.Yields`, and what the second half does is `Indexer.Wants` (`Indexer.step_phases`).

So the limit on the reads under way is kept in every run, and no turn is left free while a read
waits for one (`Indexer.Paced.run`).  How many reads have not ended is counted as well: it is one
less when a text comes in (`Indexer.unended_endRead_lt`), and as many more as are wanted
(`Indexer.unended_want`).
-/

namespace Marginalia

namespace Indexer

variable {x y z : Indexer} {move : Move} {turns : List Turn}

/-! ## Steps -/

/-- Notes what a read of a scan has found, if it is a fault. -/
def noteFound (x : Indexer) (ticket : Ticket) : Catalog.Found → Indexer
  | .error fault => x.noteFault ticket fault
  | .ok _ => x

/-- What a step of an indexer comes to. -/
inductive StepsTo (x : Indexer) (disk : Disk) : Move → Indexer → Prop
  /-- Nothing waits for the outcome, or not for this one alone. -/
  | quiet {move : Move} : StepsTo x disk move x
  /-- A call begins. -/
  | starts (id : JobId) (request : Request) (rest : List Request) :
      StepsTo x disk (.start id (request :: rest))
        (goOn disk id rest { x with catalog := (x.catalog.begin disk request).1 } request
          (x.catalog.begin disk request).2).1
  /-- A job goes on. -/
  | goesOn {move : Move} (job : Job) (mem : job ∈ x.jobs)
      (step : Catalog → Catalog × Catalog.Next) : StepsTo x disk move (x.resume disk job step).1
  /-- A job goes on with what its reads have found. -/
  | gathers {move : Move} (job : Job) (mem : job ∈ x.jobs) (tickets : List Ticket)
      (step : Catalog → Catalog × Catalog.Next) :
      StepsTo x disk move ((x.dropEnded tickets).resume disk job step).1
  /-- A read ends that no job waits for. -/
  | unheard (read : Read) (mem : read ∈ x.reads) (running : read.isRunning = true)
      (text : Except Document.Fault Text) :
      StepsTo x disk (.text read.ticket text)
        ((x.endRead read.ticket (Catalog.examine read.vocabulary read.path text).1).dropEnded
          [read.ticket]).grantReads.1
  /-- A read ends, and the update that waits for it goes on. -/
  | updates (read : Read) (mem : read ∈ x.reads) (running : read.isRunning = true)
      (text : Except Document.Fault Text) (job : Job) (own : job ∈ x.jobs)
      (step : Catalog → Catalog × Catalog.Next) :
      StepsTo x disk (.text read.ticket text)
        (((x.endRead read.ticket (Catalog.examine read.vocabulary read.path text).1).dropEnded
          [read.ticket]).grantReads.1.resume disk job step).1
  /-- A read ends that a scan waits for. -/
  | notes (read : Read) (mem : read ∈ x.reads) (running : read.isRunning = true)
      (text : Except Document.Fault Text) :
      StepsTo x disk (.text read.ticket text)
        ((x.endRead read.ticket (Catalog.examine read.vocabulary read.path text).1).noteFound
          read.ticket (Catalog.examine read.vocabulary read.path text).1).grantReads.1

/-- A job that hears of an outcome goes on with it, or not yet. -/
theorem Replies.steps_to {disk : Disk} {job : Job} {result : Indexer × List Effect}
    (h : Replies x disk job move result) (hm : job ∈ x.jobs) : StepsTo x disk move result.1 := by
  cases h with
  | notLoaded hw fault => exact .goesOn job hm fun c => (c, .fail (.settings fault))
  | loaded hw settings => exact .goesOn job hm fun c => (c.finishLoad settings).1
  | notListed scan hw fault => exact .goesOn job hm fun c => (c, .fail (.disk fault))
  | listed scan hw paths => exact .goesOn job hm fun c => c.readFiles scan paths
  | notGathered scan tickets fault hw => exact .gathers job hm tickets fun c => (c, .fail fault)
  | pending scan tickets hw hnone => exact .quiet
  | gathered scan tickets found hw hfound =>
      exact .gathers job hm tickets fun c => c.finishScan scan found
  | told topic hw => exact .goesOn job hm fun c => c.afterTold topic

/-- The text of a read goes to the job that waits for it, if there is one. -/
theorem takeText_steps_to {read : Read} (hm : read ∈ x.reads) (hrunning : read.isRunning = true)
    (disk : Disk) (text : Except Document.Fault Text) :
    StepsTo x disk (.text read.ticket text) (x.takeText disk read text).1 := by
  unfold takeText
  simp only
  split
  · exact .unheard read hm hrunning text
  · rename_i job hj
    split
    · exact .updates read hm hrunning text job (List.mem_of_find?_eq_some hj) _
    · exact .notes read hm hrunning text

/-- An outcome that is for one job is heard by that job or by none. -/
theorem reply_steps_to (x : Indexer) (disk : Disk) {id : JobId} (hid : move.job? = some id) :
    StepsTo x disk move (x.step disk move).1 := by
  rcases x.replies_step disk hid with ⟨hquiet, -⟩ | ⟨job, hj, rfl, hreplies⟩
  · rw [hquiet]
    exact .quiet
  · exact hreplies.steps_to (find?_id_eq_some hj).1

/-- **Steps.**  Each step of an indexer is one of those listed. -/
theorem steps_to (x : Indexer) (disk : Disk) (move : Move) :
    StepsTo x disk move (x.step disk move).1 := by
  cases move with
  | start id requests =>
      cases requests with
      | nil => exact .quiet
      | cons request rest => exact .starts id request rest
  | text ticket text =>
      rcases x.text_step disk ticket text with ⟨hquiet, -⟩ | ⟨read, hm, rfl, hrunning, htaken⟩
      · rw [hquiet]
        exact .quiet
      · rw [htaken]
        exact takeText_steps_to hm hrunning disk text
  | settings id loaded => exact x.reply_steps_to disk rfl
  | list id paths => exact x.reply_steps_to disk rfl
  | gather id => exact x.reply_steps_to disk rfl
  | told id => exact x.reply_steps_to disk rfl

/-! ## What a step does to the reads -/

/-- What becomes of the reads when an outcome is taken in. -/
inductive Yields (x : Indexer) : Move → Indexer → Prop
  | same {move : Move} {y : Indexer} (reads : y.reads = x.reads) (limit : y.limit = x.limit)
      (nextTicket : y.nextTicket = x.nextTicket) : Yields x move y
  /-- Reads that have ended are over. -/
  | drops {move : Move} {y : Indexer} (tickets : List Ticket)
      (reads : y.reads = (x.dropEnded tickets).reads) (limit : y.limit = x.limit)
      (nextTicket : y.nextTicket = x.nextTicket) : Yields x move y
  /-- A read ends, and others get their turn. -/
  | ends {y : Indexer} (read : Read) (mem : read ∈ x.reads) (running : read.isRunning = true)
      (text : Except Document.Fault Text) (gone : List Ticket)
      (reads : y.reads = (((x.endRead read.ticket
        (Catalog.examine read.vocabulary read.path text).1).dropEnded gone).grantReads.1).reads)
      (limit : y.limit = x.limit) (nextTicket : y.nextTicket = x.nextTicket) :
    Yields x (.text read.ticket text) y

/-- What becomes of the reads when a job goes on. -/
inductive Wants (own : JobId → Prop) (y z : Indexer) : Prop
  | same (reads : z.reads = y.reads) (limit : z.limit = y.limit)
  /-- A job of its own wants files to be read. -/
  | wants (job : JobId) (mine : own job) (vocabulary : Vocabulary) (paths : List Text)
      (reads : z.reads = (y.want job vocabulary paths).grantReads.1.reads)
      (limit : z.limit = y.limit)

/-- Whether a job goes on or begins with a move. -/
def Owner (x : Indexer) (move : Move) (id : JobId) : Prop :=
  (∃ job ∈ x.jobs, job.id = id) ∨ ∃ requests, move = .start id requests

/-- A call that goes on wants its own files to be read, or none. -/
theorem wants_goOn (disk : Disk) {own : JobId → Prop} {id : JobId} (hid : own id)
    (rest : List Request) (y : Indexer) (request : Request) (next : Catalog.Next) :
    Wants own y (goOn disk id rest y request next).1 := by
  induction rest generalizing y request next with
  | nil =>
      cases next with
      | read scan paths => exact .wants id hid scan.vocabulary paths rfl rfl
      | update update => exact .wants id hid update.vocabulary [update.path] rfl rfl
      | _ => exact .same rfl rfl
  | cons following rest ih =>
      cases next with
      | read scan paths => exact .wants id hid scan.vocabulary paths rfl rfl
      | update update => exact .wants id hid update.vocabulary [update.path] rfl rfl
      | done complete =>
          have hmore := ih { y with catalog := (y.catalog.begin disk following).1 } following
            (y.catalog.begin disk following).2
          cases hmore with
          | same hreads hlimit => exact .same hreads hlimit
          | wants job mine vocabulary paths hreads hlimit =>
              exact .wants job mine vocabulary paths hreads hlimit
      | _ => exact .same rfl rfl

/-- The catalog and the jobs have no part in what becomes of the reads. -/
theorem wants_resume (disk : Disk) {own : JobId → Prop} (job : Job) (hid : own job.id)
    (y : Indexer) (step : Catalog → Catalog × Catalog.Next) :
    Wants own y (y.resume disk job step).1 := by
  have hgoes := wants_goOn disk hid job.rest { y.retire job.id with catalog := (step y.catalog).1 }
    job.request (step y.catalog).2
  cases hgoes with
  | same hreads hlimit => exact .same hreads hlimit
  | wants other mine vocabulary paths hreads hlimit =>
      exact .wants other mine vocabulary paths hreads hlimit

/-- A step takes in an outcome, and then a job goes on. -/
theorem step_phases (x : Indexer) (disk : Disk) (move : Move) :
    ∃ y, Yields x move y ∧ Wants (x.Owner move) y (x.step disk move).1 := by
  have hstep := x.steps_to disk move
  generalize (x.step disk move).1 = z at hstep ⊢
  cases hstep with
  | quiet => exact ⟨x, .same rfl rfl rfl, .same rfl rfl⟩
  | starts id request rest =>
      exact ⟨{ x with catalog := (x.catalog.begin disk request).1 }, .same rfl rfl rfl,
        wants_goOn disk (.inr ⟨_, rfl⟩) rest _ request _⟩
  | goesOn job mem step =>
      exact ⟨x, .same rfl rfl rfl, wants_resume disk job (.inl ⟨job, mem, rfl⟩) x step⟩
  | gathers job mem tickets step =>
      exact ⟨x.dropEnded tickets, .drops tickets rfl rfl rfl,
        wants_resume disk job (.inl ⟨job, mem, rfl⟩) _ step⟩
  | unheard read mem running text =>
      exact ⟨_, .ends read mem running text [read.ticket] rfl rfl rfl, .same rfl rfl⟩
  | updates read mem running text job own step =>
      exact ⟨_, .ends read mem running text [read.ticket] rfl rfl rfl,
        wants_resume disk job (.inl ⟨job, own, rfl⟩) _ step⟩
  | notes read mem running text =>
      have hall : ∀ y : Indexer, (y.dropEnded []).reads = y.reads := fun y => by simp [dropEnded]
      refine ⟨_, .ends read mem running text [] ?_ ?_ ?_, .same rfl rfl⟩
      · unfold noteFound
        split <;> simp only [grantReads, hall] <;> rfl
      · unfold noteFound
        split <;> rfl
      · unfold noteFound
        split <;> rfl

/-- A read is for the same job, however far it is. -/
theorem Read.resting_job (read : Read) : read.resting.job = read.job := by
  obtain ⟨_, _, _, _, progress⟩ := read
  cases progress <;> rfl

/-- Giving out turns leaves the reads as they are but for which are under way. -/
theorem of_mem_grantReads {read : Read} (hm : read ∈ x.grantReads.1.reads) :
    ∃ old ∈ x.reads, read.resting = old.resting := by
  have hresting := List.mem_map_of_mem (f := Read.resting) hm
  rw [grantReads_resting] at hresting
  obtain ⟨old, hold, heq⟩ := List.mem_map.1 hresting
  exact ⟨old, hold, heq.symm⟩

/-- What is read after a step was read before, for the same call, or is wanted for one that is under
way or begins. -/
theorem job_of_mem_step (disk : Disk) {read : Read} (hm : read ∈ (x.step disk move).1.reads) :
    (∃ old ∈ x.reads, old.job = read.job) ∨ x.Owner move read.job := by
  have hgranted : ∀ {y : Indexer} {last : Read}, last ∈ y.grantReads.1.reads →
      ∃ old ∈ y.reads, old.job = last.job := by
    intro y last hlast
    obtain ⟨old, hold, heq⟩ := of_mem_grantReads hlast
    exact ⟨old, hold, by rw [← Read.resting_job, ← heq, Read.resting_job]⟩
  obtain ⟨y, hyields, hwants⟩ := x.step_phases disk move
  have hyielded : ∀ last ∈ y.reads, ∃ old ∈ x.reads, old.job = last.job := by
    intro last hlast
    cases hyields with
    | same reads limit nextTicket => exact ⟨last, reads ▸ hlast, rfl⟩
    | drops tickets reads limit nextTicket =>
        rw [reads] at hlast
        exact ⟨last, (List.mem_filter.1 hlast).1, rfl⟩
    | ends ended mem running text gone reads limit nextTicket =>
        rw [reads] at hlast
        obtain ⟨kept, hkept, hjob⟩ := hgranted hlast
        obtain ⟨old, hold, rfl⟩ := List.mem_map.1 (List.mem_filter.1 hkept).1
        refine ⟨old, hold, ?_⟩
        rw [← hjob]
        split <;> rfl
  cases hwants with
  | same reads limit => exact .inl (hyielded read (reads ▸ hm))
  | wants job mine vocabulary paths reads limit =>
      rw [reads] at hm
      obtain ⟨old, hold, hjob⟩ := hgranted hm
      rcases List.mem_append.1 hold with hold | hold
      · rw [← hjob]
        exact .inl (hyielded old hold)
      · obtain ⟨pair, -, rfl⟩ := List.mem_map.1 hold
        exact .inr (hjob ▸ mine)

/-! ## What reads find -/

/-- What reads have found stands in a relation to what they are for: a call, a vocabulary and a
path. -/
def Finds (R : JobId → Vocabulary → Text → Catalog.Found → Prop) (x : Indexer) : Prop :=
  ∀ read ∈ x.reads, ∀ found, read.found? = some found → R read.job read.vocabulary read.path found

variable {R : JobId → Vocabulary → Text → Catalog.Found → Prop}

/-- A read has found the same as another one of its kind. -/
theorem finds_of_resting {read old : Read} (h : read.resting = old.resting)
    (hold : ∀ found, old.found? = some found → R old.job old.vocabulary old.path found) :
    ∀ found, read.found? = some found → R read.job read.vocabulary read.path found := by
  have hjob : read.job = old.job := by
    rw [← Read.resting_job, h, Read.resting_job]
  have hpath : read.path = old.path := by simpa using congrArg Read.path h
  have hvocabulary : read.vocabulary = old.vocabulary := by simpa using congrArg Read.vocabulary h
  have hfound : read.found? = old.found? := by simpa using congrArg Read.found? h
  rw [hjob, hpath, hvocabulary, hfound]
  exact hold

/-- When an outcome is taken in, a read can end, with what is found in its text. -/
theorem Yields.finds (h : Yields x move y) (hnodup : x.tickets.Nodup)
    (hends : ∀ read ∈ x.reads, read.isRunning = true → ∀ text, move = .text read.ticket text →
      R read.job read.vocabulary read.path (Catalog.examine read.vocabulary read.path text).1)
    (hx : Finds R x) : Finds R y := by
  unfold Finds
  cases h with
  | same reads limit nextTicket => rwa [reads]
  | drops tickets reads limit nextTicket =>
      rw [reads]
      exact fun read hm => hx read (List.mem_filter.1 hm).1
  | ends ended mem running text gone reads limit nextTicket =>
      rw [reads]
      intro read hm
      obtain ⟨kept, hkept, heq⟩ := of_mem_grantReads hm
      refine finds_of_resting heq ?_
      obtain ⟨old, hold, rfl⟩ := List.mem_map.1 (List.mem_filter.1 hkept).1
      split
      · rename_i hticket
        obtain rfl := read_eq_of_ticket hnodup mem hold hticket
        intro found hf
        obtain rfl := Option.some.inj hf
        exact hends old mem running text rfl
      · exact hx old hold

/-- Reads that are wanted only now have found nothing yet. -/
theorem Wants.finds {own : JobId → Prop} (h : Wants own y z) (hy : Finds R y) : Finds R z := by
  unfold Finds
  cases h with
  | same reads limit => rwa [reads]
  | wants job mine vocabulary paths reads limit =>
      rw [reads]
      intro read hm
      obtain ⟨old, hold, heq⟩ := of_mem_grantReads hm
      refine finds_of_resting heq ?_
      rcases List.mem_append.1 hold with hold | hold
      · exact hy old hold
      · obtain ⟨pair, -, rfl⟩ := List.mem_map.1 hold
        intro found hf
        cases hf

/-- What reads have found after a step, they had found before, or in a text that has come in with
it. -/
theorem Finds.step (h : Finds R x) (disk : Disk) (hnodup : x.tickets.Nodup)
    (hends : ∀ read ∈ x.reads, read.isRunning = true → ∀ text, move = .text read.ticket text →
      R read.job read.vocabulary read.path (Catalog.examine read.vocabulary read.path text).1) :
    Finds R (x.step disk move).1 := by
  obtain ⟨y, hyields, hwants⟩ := x.step_phases disk move
  exact hwants.finds (hyields.finds hnodup hends h)

/-! ## Reads under way -/

/-- The limit on the reads under way is kept, and where a read waits all turns are taken. -/
structure Paced (x : Indexer) : Prop where
  within : running x.reads ≤ x.limit
  eager : ∀ read ∈ x.reads, read.isWaiting = true → running x.reads = x.limit

/-- The pace is a matter of reads and limit alone. -/
theorem Paced.congr (h : x.Paced) (hreads : y.reads = x.reads) (hlimit : y.limit = x.limit) :
    y.Paced :=
  ⟨by rw [hreads, hlimit]; exact h.within, by rw [hreads, hlimit]; exact h.eager⟩

/-- A read that waits is not under way. -/
theorem isRunning_of_isWaiting {read : Read} (h : read.isWaiting = true) :
    read.isRunning = false := by
  obtain ⟨_, _, _, _, progress⟩ := read
  cases progress <;> simp_all [Read.isWaiting, Read.isRunning]

/-- If a read still waits after turns were given out, all of them were taken. -/
theorem running_grantSome_of_waiting (free : Nat) (reads : List Read) {read : Read}
    (hm : read ∈ (grantSome free reads).1) (hw : read.isWaiting = true) :
    running (grantSome free reads).1 = running reads + free := by
  induction reads generalizing free with
  | nil => cases free <;> simp [grantSome] at hm
  | cons first rest ih =>
      cases free with
      | zero => rfl
      | succ free =>
          unfold grantSome at hm ⊢
          by_cases hfirst : first.isWaiting = true
          · simp only [hfirst, if_true] at hm ⊢
            have hrest : read ∈ (grantSome free rest).1 := by
              refine (List.mem_cons.1 hm).resolve_left fun heq => ?_
              rw [heq] at hw
              cases hw
            have hcount := ih free hrest
            have hresting := isRunning_of_isWaiting hfirst
            simp only [running, List.countP_cons, hresting] at hcount ⊢
            simp only [hcount, Read.isRunning, if_true, Bool.false_eq_true, if_false]
            omega
          · simp only [hfirst, Bool.false_eq_true, if_false] at hm ⊢
            have hrest : read ∈ (grantSome (free + 1) rest).1 := by
              refine (List.mem_cons.1 hm).resolve_left fun heq => ?_
              rw [heq] at hw
              exact hfirst hw
            have hcount := ih (free + 1) hrest
            simp only [running, List.countP_cons] at hcount ⊢
            omega

/-- Giving out turns sets the pace. -/
theorem paced_grantReads (h : running x.reads ≤ x.limit) : x.grantReads.1.Paced where
  within := running_grant_le h
  eager := by
    intro read hm hw
    have hcount := running_grantSome_of_waiting (x.limit - running x.reads) x.reads hm hw
    have hreads : x.grantReads.1.reads = (grantSome (x.limit - running x.reads) x.reads).1 := rfl
    have hlimit : x.grantReads.1.limit = x.limit := rfl
    rw [hreads, hlimit, hcount]
    omega

/-- How many reads of some calls are under way. -/
def inUse (own : JobId → Bool) (x : Indexer) : Nat :=
  x.reads.countP fun read => read.isRunning && own read.job

/-- Of all calls together, these are the reads under way. -/
theorem inUse_all (x : Indexer) : inUse (fun _ => true) x = running x.reads := by
  simp [inUse, running]

/-- A read that ends is no longer under way, and the others are as they were. -/
theorem inUse_endRead (own : JobId → Bool) (x : Indexer) (ticket : Ticket) (found : Catalog.Found) :
    inUse own (x.endRead ticket found) +
      (x.reads.countP fun read => (read.ticket = ticket && read.isRunning) && own read.job) =
        inUse own x := by
  simp only [inUse, endRead, List.countP_map]
  induction x.reads with
  | nil => rfl
  | cons first rest ih =>
      simp only [List.countP_cons, Function.comp_apply] at ih ⊢
      by_cases ht : first.ticket = ticket
      · subst ht
        have hended : Read.isRunning { first with progress := .ended found } = false := rfl
        simp only [if_true, hended, decide_true, Bool.true_and, Bool.false_and,
          Bool.false_eq_true, if_false]
        omega
      · simp only [ht, if_false, decide_false, Bool.false_and, Bool.false_eq_true]
        omega

/-- Reads that are over were not under way. -/
theorem inUse_dropEnded (own : JobId → Bool) (x : Indexer) (tickets : List Ticket) :
    inUse own (x.dropEnded tickets) = inUse own x := by
  simp only [inUse, dropEnded, List.countP_filter]
  refine List.countP_congr fun read _ => ?_
  obtain ⟨ticket, job, path, vocabulary, progress⟩ := read
  cases progress <;> simp [Read.isRunning, Read.found?]

/-- Reads that are wanted only now wait for their turns. -/
theorem inUse_want (own : JobId → Bool) (x : Indexer) (job : JobId) (vocabulary : Vocabulary)
    (paths : List Text) : inUse own (x.want job vocabulary paths) = inUse own x := by
  have hnew : (x.newReads job vocabulary paths).countP
      (fun read => read.isRunning && own read.job) = 0 := by
    refine List.countP_eq_zero.2 fun read hm => ?_
    obtain ⟨pair, -, rfl⟩ := List.mem_map.1 hm
    simp [Read.isRunning]
  have happend : inUse own (x.want job vocabulary paths) = inUse own x +
      (x.newReads job vocabulary paths).countP fun read => read.isRunning && own read.job :=
    List.countP_append
  rw [happend, hnew, Nat.add_zero]

/-- A read that ends is not under way any longer, and no other one begins. -/
theorem running_endRead_le (x : Indexer) (ticket : Ticket) (found : Catalog.Found) :
    running (x.endRead ticket found).reads ≤ running x.reads := by
  have hended := inUse_endRead (fun _ => true) x ticket found
  rw [inUse_all, inUse_all] at hended
  omega

/-- Reads that have ended are not under way. -/
theorem running_dropEnded (x : Indexer) (tickets : List Ticket) :
    running (x.dropEnded tickets).reads = running x.reads := by
  rw [← inUse_all, inUse_dropEnded, inUse_all]

/-- New reads are not under way yet. -/
theorem running_want (x : Indexer) (job : JobId) (vocabulary : Vocabulary) (paths : List Text) :
    running (x.want job vocabulary paths).reads = running x.reads := by
  rw [← inUse_all, inUse_want, inUse_all]

/-- The limit stays when an outcome is taken in. -/
theorem Yields.limit (h : Yields x move y) : y.limit = x.limit := by
  cases h <;> assumption

/-- It stays when a job goes on. -/
theorem Wants.limit {own : JobId → Prop} (h : Wants own y z) : z.limit = y.limit := by
  cases h <;> assumption

/-- Reads that end give their turns away. -/
theorem Yields.paced (h : Yields x move y) (hx : x.Paced) : y.Paced := by
  cases h with
  | same reads limit nextTicket => exact hx.congr reads limit
  | drops tickets reads limit nextTicket =>
      have hdropped : (x.dropEnded tickets).Paced := by
        refine ⟨(running_dropEnded x tickets).symm ▸ hx.within, fun read hm hw => ?_⟩
        rw [running_dropEnded]
        exact hx.eager read (List.mem_filter.1 hm).1 hw
      exact hdropped.congr reads limit
  | ends read mem running text gone reads limit nextTicket =>
      refine (paced_grantReads ?_).congr reads limit
      rw [running_dropEnded]
      exact Nat.le_trans (running_endRead_le _ _ _) hx.within

/-- Reads that are wanted get the turns that are free. -/
theorem Wants.paced {own : JobId → Prop} (h : Wants own y z) (hy : y.Paced) : z.Paced := by
  cases h with
  | same reads limit => exact hy.congr reads limit
  | wants job mine vocabulary paths reads limit =>
      refine (paced_grantReads ?_).congr reads limit
      rw [running_want]
      exact hy.within

/-- Whatever happens, the pace is kept. -/
theorem Paced.after (h : x.Paced) (turn : Turn) :
    (x.after turn).Paced ∧ (x.after turn).limit = x.limit := by
  obtain ⟨y, hyields, hwants⟩ := x.step_phases turn.disk turn.move
  exact ⟨hwants.paced (hyields.paced h), hwants.limit.trans hyields.limit⟩

/-- **The pace.**  In every run, no more reads are under way than the limit allows, and no turn is
free while a read waits. -/
theorem Paced.run (h : x.Paced) (turns : List Turn) :
    (x.run turns).Paced ∧ (x.run turns).limit = x.limit := by
  induction turns generalizing x with
  | nil => exact ⟨h, rfl⟩
  | cons turn rest ih =>
      obtain ⟨hpaced, hlimit⟩ := h.after turn
      obtain ⟨hlast, heq⟩ := ih hpaced
      exact ⟨hlast, heq.trans hlimit⟩

/-- At first there are no reads. -/
theorem paced_ofCatalog (c : Catalog) (limit : Int) : (ofCatalog c limit).Paced :=
  ⟨Nat.zero_le _, by simp [ofCatalog]⟩

/-! ## Reads that have not ended -/

/-- How many reads have not ended. -/
def unended (x : Indexer) : Nat := x.reads.countP (·.found?.isNone)

/-- How many reads have not ended is told without regard to which of them are under way. -/
theorem unended_congr (h : x.reads.map Read.resting = y.reads.map Read.resting) :
    x.unended = y.unended := by
  have hcount : ∀ reads : List Read,
      reads.countP (·.found?.isNone) = (reads.map Read.resting).countP (·.found?.isNone) := by
    intro reads
    rw [List.countP_map]
    exact List.countP_congr fun read _ => by simp
  rw [unended, unended, hcount x.reads, hcount y.reads, h]

/-- Reads that have ended do not count. -/
theorem unended_dropEnded (x : Indexer) (tickets : List Ticket) :
    (x.dropEnded tickets).unended = x.unended := by
  simp only [unended, dropEnded, List.countP_filter]
  refine List.countP_congr fun read _ => ?_
  cases read.found? <;> simp

/-- A read that ends is one that had not ended. -/
theorem unended_endRead_lt {read : Read} (hm : read ∈ x.reads) (hr : read.isRunning = true)
    (found : Catalog.Found) : (x.endRead read.ticket found).unended < x.unended := by
  simp only [unended, endRead, List.countP_map]
  generalize x.reads = reads at hm
  have hle : ∀ reads : List Read, reads.countP ((fun other : Read => other.found?.isNone) ∘
      fun other => if other.ticket = read.ticket then { other with progress := .ended found }
        else other) ≤ reads.countP fun other => other.found?.isNone := by
    intro reads
    refine List.countP_mono_left fun other _ h => ?_
    simp only [Function.comp_apply] at h
    split at h
    · cases h
    · exact h
  induction reads with
  | nil => simp at hm
  | cons first rest ih =>
      simp only [List.countP_cons, Function.comp_apply]
      rcases List.mem_cons.1 hm with rfl | hm
      · have hopen : read.found?.isNone = true := by
          obtain ⟨ticket, job, path, vocabulary, progress⟩ := read
          cases progress <;> simp_all [Read.isRunning, Read.found?]
        have hended : ({ read with progress := .ended found } : Read).found?.isNone = false := rfl
        have := hle rest
        simp only [if_true, hopen, hended, Bool.false_eq_true, if_false]
        omega
      · have hrest := ih hm
        have hfirst := hle [first]
        simp only [List.countP_cons, List.countP_nil, Function.comp_apply] at hfirst
        omega

/-- Each file that is wanted counts. -/
theorem unended_want (x : Indexer) (job : JobId) (vocabulary : Vocabulary) (paths : List Text) :
    (x.want job vocabulary paths).unended = x.unended + paths.length := by
  have hall : (x.newReads job vocabulary paths).countP (fun read => read.found?.isNone) =
      (x.newReads job vocabulary paths).length := by
    refine List.countP_eq_length.2 fun read hm => ?_
    obtain ⟨pair, -, rfl⟩ := List.mem_map.1 hm
    rfl
  have happend : (x.want job vocabulary paths).unended =
      x.unended + (x.newReads job vocabulary paths).countP fun read => read.found?.isNone :=
    List.countP_append
  rw [happend, hall]
  simp [newReads]

/-- The files that are wanted for what comes next. -/
def wanted : Catalog.Next → List Text
  | .read _ paths => paths
  | .update update => [update.path]
  | _ => []

/-- A call that goes on wants the files that it has to read. -/
theorem unended_goOn (disk : Disk) (id : JobId) (y : Indexer) (request : Request)
    (next : Catalog.Next) :
    (goOn disk id [] y request next).1.unended = y.unended + (wanted next).length := by
  have hgranted : ∀ (vocabulary : Vocabulary) (paths : List Text) (z : Indexer),
      z.reads = (y.want id vocabulary paths).grantReads.1.reads →
        z.unended = y.unended + paths.length := by
    intro vocabulary paths z hz
    rw [← unended_want y id vocabulary paths]
    refine unended_congr ?_
    rw [hz, grantReads_resting]
  cases next with
  | read scan paths => exact hgranted scan.vocabulary paths _ rfl
  | update update => exact hgranted update.vocabulary [update.path] _ rfl
  | _ => rfl

/-- A job that goes on adds the reads that it wants. -/
theorem unended_resume (disk : Disk) {job : Job} (hrest : job.rest = []) (y : Indexer)
    (step : Catalog → Catalog × Catalog.Next) :
    (y.resume disk job step).1.unended = y.unended + (wanted (step y.catalog).2).length := by
  rw [resume, hrest]
  exact unended_goOn disk job.id _ job.request _

/-- A text that is not for an update ends a read, and none is wanted in its place. -/
theorem Sane.unended_text_lt (h : x.Sane) (disk : Disk) {read : Read} (hm : read ∈ x.reads)
    (hr : read.isRunning = true) (text : Except Document.Fault Text)
    (hupdate : x.updateFor? read.ticket = none) :
    (x.step disk (.text read.ticket text)).1.unended < x.unended := by
  have hfirst := find?_running h.tickets hm hr
  have hlt := unended_endRead_lt hm hr (Catalog.examine read.vocabulary read.path text).1
  have hgranted : ∀ y : Indexer, y.grantReads.1.unended = y.unended := fun y =>
    unended_congr (grantReads_resting y)
  simp only [updateFor?, hfirst] at hupdate
  simp only [step, hfirst, takeText, endRead_jobs]
  cases hj : x.jobs.find? (·.waitsFor read.ticket) with
  | none =>
      simp only [hgranted, unended_dropEnded]
      exact hlt
  | some job =>
      simp only [hj] at hupdate
      cases hw : job.wait with
      | update update own =>
          rw [hw] at hupdate
          cases hupdate
      | _ =>
          simp only [hw, hgranted]
          split <;> exact hlt

end Indexer

end Marginalia
