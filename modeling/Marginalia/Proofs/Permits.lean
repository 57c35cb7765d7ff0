import Marginalia.Proofs.Pacing
import Marginalia.Proofs.Runs

/-!
# Permits for reads

A read that begins takes one of the permits of an indexer, of which there are as many as reads may
be under way at once; with its text it gives the permit back.  What a turn takes is told from the
reads that it asks for (`Indexer.takenIn`), and what it gives back from the text that comes in
(`Indexer.returnedIn`).  Between the two, the permits in use are those of the reads under way, for
all calls together and for each of them alone (`Indexer.balance`).  So a call keeps no permit longer
than a read of its own is under way, whatever becomes of it.
-/

namespace Marginalia

namespace Indexer

open Catalog (Next)

variable {own : JobId → Bool} {x y : Indexer} {turn : Turn} {turns : List Turn}

/-- Whether an effect takes a permit for a read of some calls. -/
def Effect.takes (own : JobId → Bool) : Effect → Bool
  | .ask job (.read _ _) => own job
  | _ => false

/-- How many permits are taken in a turn for reads of some calls. -/
def takenIn (own : JobId → Bool) (x : Indexer) (turn : Turn) : Nat :=
  (x.effects turn).countP (Effect.takes own)

/-- How many permits are given back in a turn by reads of some calls: a text ends a read. -/
def returnedIn (own : JobId → Bool) (x : Indexer) (turn : Turn) : Nat :=
  match turn.move with
  | .text ticket _ =>
    x.reads.countP fun read => (read.ticket = ticket && read.isRunning) && own read.job
  | _ => 0

/-- How many permits are taken in a run. -/
def taken (own : JobId → Bool) : Indexer → List Turn → Nat
  | _, [] => 0
  | x, turn :: rest => takenIn own x turn + taken own (x.after turn) rest

/-- How many permits are given back in a run. -/
def returned (own : JobId → Bool) : Indexer → List Turn → Nat
  | _, [] => 0
  | x, turn :: rest => returnedIn own x turn + returned own (x.after turn) rest

/-! ## Taking permits -/

/-- What is taken on the way is in use in the end. -/
def Draws (own : JobId → Bool) (x : Indexer) (result : Indexer × List Effect) : Prop :=
  inUse own result.1 = inUse own x + result.2.countP (Effect.takes own)

/-- What counts is only which permits are in use at first. -/
theorem Draws.of_inUse {result : Indexer × List Effect} (h : Draws own y result)
    (heq : inUse own y = inUse own x) : Draws own x result :=
  h.trans (congrArg (· + result.2.countP (Effect.takes own)) heq)

/-- The reads that are started are those that have come under way. -/
theorem countP_grantSome (own : JobId → Bool) (free : Nat) (reads : List Read) :
    (grantSome free reads).1.countP (fun read => read.isRunning && own read.job) =
      reads.countP (fun read => read.isRunning && own read.job) +
        (grantSome free reads).2.countP fun read => own read.job := by
  induction reads generalizing free with
  | nil => cases free <;> rfl
  | cons first rest ih =>
      cases free with
      | zero => rfl
      | succ free =>
          unfold grantSome
          by_cases hw : first.isWaiting = true
          · have hnot := isRunning_of_isWaiting hw
            have hrun : Read.isRunning { first with progress := .running } = true := rfl
            simp only [hw, if_true, List.countP_cons, hnot, hrun, ih free, Bool.true_and,
              Bool.false_and, Bool.false_eq_true, if_false]
            omega
          · simp only [hw, if_false, List.countP_cons, ih (free + 1), Bool.false_eq_true]
            omega

/-- What is granted is started at once. -/
theorem draws_grantReads (own : JobId → Bool) (x : Indexer) : Draws own x x.grantReads := by
  have hasked : x.grantReads.2.countP (Effect.takes own) =
      (grant x.limit x.reads).2.countP fun read => own read.job := by
    simp only [grantReads, List.countP_map]
    rfl
  rw [Draws, hasked]
  exact countP_grantSome own _ x.reads

/-- So it is when new reads are asked for. -/
theorem draws_suspendOnReads (own : JobId → Bool) (x : Indexer) (job : JobId)
    (vocabulary : Vocabulary) (paths : List Text) (wait : List Ticket → Wait) (request : Request)
    (rest : List Request) :
    Draws own x (x.suspendOnReads job vocabulary paths wait request rest) := by
  have hgranted := draws_grantReads own ((x.want job vocabulary paths).suspend
    { id := job, wait := wait (List.range' x.nextTicket paths.length), request, rest })
  exact hgranted.of_inUse (inUse_want own x job vocabulary paths)

/-- A call goes on until it waits, and asks for reads only then. -/
theorem draws_goOn (disk : Disk) (id : JobId) (rest : List Request) (x : Indexer)
    (request : Request) (next : Next) : Draws own x (goOn disk id rest x request next) := by
  induction rest generalizing x request next with
  | nil =>
      cases next with
      | read scan paths => exact draws_suspendOnReads own x id _ _ _ _ _
      | update update => exact draws_suspendOnReads own x id _ _ _ _ _
      | _ => rfl
  | cons following rest ih =>
      cases next with
      | read scan paths => exact draws_suspendOnReads own x id _ _ _ _ _
      | update update => exact draws_suspendOnReads own x id _ _ _ _ _
      | done complete =>
          exact ih { x with catalog := (x.catalog.begin disk following).1 } following
            (x.catalog.begin disk following).2
      | _ => rfl

/-- A call that is resumed goes on in the same way. -/
theorem draws_resume (disk : Disk) (x : Indexer) (job : Job) (step : Catalog → Catalog × Next) :
    Draws own x (x.resume disk job step) :=
  draws_goOn disk job.id job.rest { x.retire job.id with catalog := (step x.catalog).1 } job.request
    (step x.catalog).2

/-- What is said on the way takes no permit. -/
theorem Draws.said {result : Indexer × List Effect} (h : Draws own x result)
    (warnings : List Warning) :
    Draws own x (result.1, warnings.map Effect.warn ++ result.2) := by
  have hwarned : (warnings.map Effect.warn).countP (Effect.takes own) = 0 :=
    List.countP_eq_zero.2 fun effect he => by
      obtain ⟨warning, -, rfl⟩ := List.mem_map.1 he
      simp [Effect.takes]
  rw [Draws, List.countP_append, hwarned, Nat.zero_add]
  exact h

/-- Two parts of a step, one behind the other. -/
theorem Draws.append {result : Indexer × List Effect} {last : Indexer} {effects : List Effect}
    (h : Draws own x result) (hlast : Draws own result.1 (last, effects)) :
    Draws own x (last, result.2 ++ effects) := by
  rw [Draws] at h hlast ⊢
  rw [List.countP_append, hlast, h, Nat.add_assoc]

/-! ## Giving permits back -/

/-- With a text, the permit of its read is given back, and others are taken. -/
theorem draws_takeText (disk : Disk) (x : Indexer) (read : Read)
    (text : Except Document.Fault Text) :
    Draws own (x.endRead read.ticket (Catalog.examine read.vocabulary read.path text).1)
      (x.takeText disk read text) := by
  unfold takeText
  generalize Catalog.examine read.vocabulary read.path text = examined
  obtain ⟨found, warnings⟩ := examined
  simp only
  generalize x.endRead read.ticket found = y
  have hdropped : Draws own y (y.dropEnded [read.ticket]).grantReads :=
    (draws_grantReads own (y.dropEnded [read.ticket])).of_inUse (inUse_dropEnded own y _)
  split
  · exact hdropped.said warnings
  · rename_i job hj
    split
    · rename_i update ticket hw
      have hall :=
        (hdropped.append (draws_resume disk _ job fun c => c.afterRead update found)).said warnings
      rw [← List.append_assoc] at hall
      exact hall
    · cases found with
      | error fault =>
          have hnoted := (draws_grantReads own (y.noteFault read.ticket fault)).of_inUse
            (rfl : _ = inUse own y)
          exact hnoted.said warnings
      | ok notes? => exact (draws_grantReads own y).said warnings

/-! ## Runs -/

/-- A job that hears of an outcome takes permits and gives none back. -/
theorem Replies.draws {disk : Disk} {job : Job} {move : Move} {result : Indexer × List Effect}
    (h : Replies x disk job move result) : Draws own x result := by
  -- reads that have ended hold no permit, so none is given back when they are dropped
  have hdropped : ∀ tickets (step : Catalog → Catalog × Next),
      Draws own x ((x.dropEnded tickets).resume disk job step) := by
    intro tickets step
    exact (draws_resume disk (x.dropEnded tickets) job step).of_inUse
      (inUse_dropEnded own x tickets)
  cases h with
  | notLoaded hw fault => exact draws_resume disk x job _
  | loaded hw settings => exact (draws_resume disk x job fun c => (c.finishLoad settings).1).said _
  | notListed scan hw fault => exact draws_resume disk x job _
  | listed scan hw paths => exact draws_resume disk x job _
  | notGathered scan tickets fault hw => exact hdropped tickets _
  | pending scan tickets hw hnone => rfl
  | gathered scan tickets found hw hfound => exact hdropped tickets _
  | told topic hw => exact draws_resume disk x job _

/-- An outcome that is for one job takes permits and gives none back. -/
theorem draws_reply (own : JobId → Bool) (x : Indexer) (disk : Disk) {move : Move} {id : JobId}
    (hid : move.job? = some id) : Draws own x (x.step disk move) := by
  rcases x.replies_step disk hid with ⟨hquiet, -⟩ | ⟨job, hj, rfl, hreplies⟩
  · rw [hquiet]
    rfl
  · exact hreplies.draws

/-- A step without a text takes permits and gives none back. -/
theorem draws_step (own : JobId → Bool) (x : Indexer) (disk : Disk) {move : Move}
    (hmove : ∀ ticket text, move ≠ .text ticket text) : Draws own x (x.step disk move) := by
  cases move with
  | start id requests =>
      cases requests with
      | nil => rfl
      | cons request rest => exact draws_goOn disk id rest _ request _
  | settings id loaded => exact draws_reply own x disk rfl
  | list id paths => exact draws_reply own x disk rfl
  | gather id => exact draws_reply own x disk rfl
  | told id => exact draws_reply own x disk rfl
  | text ticket text => exact absurd rfl (hmove ticket text)

/-- With a text, the permit of its read is given back; where no such read is under way, nothing
happens. -/
theorem balance_text (own : JobId → Bool) (x : Indexer) (disk : Disk) (ticket : Ticket)
    (text : Except Document.Fault Text) :
    inUse own x + (x.step disk (.text ticket text)).2.countP (Effect.takes own) =
      (x.reads.countP fun read => (read.ticket = ticket && read.isRunning) && own read.job) +
        inUse own (x.step disk (.text ticket text)).1 := by
  rcases x.text_step disk ticket text with ⟨hquiet, hnone⟩ | ⟨read, hm, rfl, hrunning, htaken⟩
  · have hzero : x.reads.countP (fun read =>
        (read.ticket = ticket && read.isRunning) && own read.job) = 0 := by
      refine List.countP_eq_zero.2 fun read hm hends => ?_
      simp only [Bool.and_eq_true, decide_eq_true_eq] at hends
      simp [hnone read hm hends.1.1] at hends
    rw [hquiet, hzero, List.countP_nil, Nat.zero_add, Nat.add_zero]
  · have htext : Draws own _ (x.takeText disk read text) := draws_takeText disk x read text
    have hended := inUse_endRead own x read.ticket
      (Catalog.examine read.vocabulary read.path text).1
    rw [Draws] at htext
    rw [htaken]
    omega

/-- In a turn, permits are given back and others taken, and no other permit is in use after it. -/
theorem balance_turn (own : JobId → Bool) (x : Indexer) (turn : Turn) :
    inUse own x + takenIn own x turn = returnedIn own x turn + inUse own (x.after turn) := by
  unfold takenIn returnedIn after effects
  split
  · rename_i ticket text hmove
    rw [hmove]
    exact balance_text own x turn.disk ticket text
  · rename_i hmove
    have hdraws := draws_step own x turn.disk hmove
    rw [Draws] at hdraws
    omega

/-- **The balance.**  The permits in use are those that were taken and not given back. -/
theorem balance (own : JobId → Bool) (x : Indexer) (turns : List Turn) :
    inUse own x + taken own x turns = returned own x turns + inUse own (x.run turns) := by
  induction turns generalizing x with
  | nil => simp [taken, returned]
  | cons turn rest ih =>
      have hturn := balance_turn own x turn
      have hrest := ih (x.after turn)
      rw [taken, returned, run_cons]
      omega

end Indexer

end Marginalia
