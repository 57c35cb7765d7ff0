import Marginalia.Indexer

/-!
# The reads of an indexer

Reads are known by their tickets.  Whether a read is under way or still waits for its turn makes no
difference to the job that wants it, so reads are looked up here without that (`Indexer.readAt?`).
Seen like this, granting turns changes nothing (`Indexer.readAt?_grantReads`), the end of a read and
the removal of reads concern the tickets they are about (`Indexer.readAt?_endRead`,
`Indexer.readAt?_dropEnded`), and new reads come beside those that were there
(`Indexer.readAt?_want_of_some`, `Indexer.readAt?_want`).
-/

namespace Marginalia

namespace Indexer

/-- A read that is not under way; one that is, is taken back to waiting. -/
def Read.resting (read : Read) : Read :=
  match read.progress with
  | .running => { read with progress := .waiting }
  | _ => read

@[simp] theorem Read.resting_ticket (read : Read) : read.resting.ticket = read.ticket := by
  obtain ⟨_, _, _, _, progress⟩ := read
  cases progress <;> rfl

@[simp] theorem Read.resting_path (read : Read) : read.resting.path = read.path := by
  obtain ⟨_, _, _, _, progress⟩ := read
  cases progress <;> rfl

@[simp] theorem Read.resting_vocabulary (read : Read) :
    read.resting.vocabulary = read.vocabulary := by
  obtain ⟨_, _, _, _, progress⟩ := read
  cases progress <;> rfl

@[simp] theorem Read.resting_found? (read : Read) : read.resting.found? = read.found? := by
  obtain ⟨_, _, _, _, progress⟩ := read
  cases progress <;> rfl

/-- How far a read was does not matter when it ends. -/
theorem Read.resting_ended (read : Read) (found : Catalog.Found) :
    Read.resting { read with progress := .ended found } =
      { read.resting with progress := .ended found } := by
  obtain ⟨_, _, _, _, progress⟩ := read
  cases progress <;> rfl

/-- A turn starts reads and does nothing else to them. -/
theorem map_resting_grantSome (free : Nat) (reads : List Read) :
    (grantSome free reads).1.map Read.resting = reads.map Read.resting := by
  induction reads generalizing free with
  | nil => cases free <;> rfl
  | cons read rest ih =>
      cases free with
      | zero => rfl
      | succ free =>
          unfold grantSome
          by_cases hw : read.isWaiting
          · have hresting : Read.resting { read with progress := .running } = read.resting := by
              unfold Read.isWaiting at hw
              unfold Read.resting
              cases read
              split at hw <;> simp_all
            simp [hw, hresting, ih free]
          · simpa [hw] using ih (free + 1)

/-- In particular the files that are read and their order stay as they are. -/
theorem map_path_grantSome (free : Nat) (reads : List Read) :
    (grantSome free reads).1.map (·.path) = reads.map (·.path) := by
  have hpaths := congrArg (List.map (·.path)) (map_resting_grantSome free reads)
  simpa [Function.comp_def] using hpaths

variable {x y : Indexer}

/-- The read with a ticket, as it is apart from whether it is under way. -/
def readAt? (x : Indexer) (ticket : Ticket) : Option Read :=
  (x.reads.map Read.resting).find? (·.ticket = ticket)

/-- The read with a ticket, without regard to how far it is. -/
theorem readAt?_eq_map (x : Indexer) (ticket : Ticket) :
    x.readAt? ticket = (x.reads.find? (·.ticket = ticket)).map Read.resting := by
  rw [readAt?, List.find?_map]
  congr 2
  funext read
  simp

/-- The tickets of all reads. -/
def tickets (x : Indexer) : List Ticket := x.reads.map (·.ticket)

/-- Tickets are told without regard to how far reads are. -/
theorem tickets_eq (x : Indexer) : x.tickets = (x.reads.map Read.resting).map (·.ticket) := by
  simp [tickets, Function.comp_def]

/-- What is found under a ticket is one of the reads and carries that ticket. -/
theorem of_readAt?_eq_some {ticket : Ticket} {read : Read} (h : x.readAt? ticket = some read) :
    read ∈ x.reads.map Read.resting ∧ read.ticket = ticket :=
  ⟨List.mem_of_find?_eq_some h, by simpa using List.find?_some h⟩

/-- In a list with tickets that differ, a read is found under its own. -/
theorem find?_of_nodup {reads : List Read} (h : (reads.map (·.ticket)).Nodup) {read : Read}
    (hm : read ∈ reads) : reads.find? (·.ticket = read.ticket) = some read := by
  induction reads with
  | nil => simp at hm
  | cons first rest ih =>
      rw [List.map_cons, List.nodup_cons] at h
      rcases List.mem_cons.1 hm with rfl | hm
      · simp
      · have hne : first.ticket ≠ read.ticket := by
          intro he
          exact h.1 (he ▸ List.mem_map_of_mem hm)
        rw [List.find?_cons_of_neg (by simpa using hne)]
        exact ih h.2 hm

/-- Reads are told apart by their tickets. -/
theorem read_eq_of_ticket {reads : List Read} (h : (reads.map (·.ticket)).Nodup) {read other : Read}
    (hm : read ∈ reads) (ho : other ∈ reads) (heq : other.ticket = read.ticket) : other = read := by
  have hfirst := find?_of_nodup h ho
  rw [heq, find?_of_nodup h hm] at hfirst
  exact (Option.some.inj hfirst).symm

/-- A read under way is found where its text comes in. -/
theorem find?_running {reads : List Read} (h : (reads.map (·.ticket)).Nodup) {read : Read}
    (hm : read ∈ reads) (hr : read.isRunning = true) :
    reads.find? (fun other => other.ticket = read.ticket && other.isRunning) = some read := by
  cases hf : reads.find? (fun other => other.ticket = read.ticket && other.isRunning) with
  | none =>
      have hno := List.find?_eq_none.1 hf read hm
      simp [hr] at hno
  | some other =>
      have hother := List.find?_some hf
      simp only [Bool.and_eq_true, decide_eq_true_eq] at hother
      rw [read_eq_of_ticket h hm (List.mem_of_find?_eq_some hf) hother.1]

/-- Each read is found with its ticket. -/
theorem readAt?_of_mem (h : x.tickets.Nodup) {read : Read} (hm : read ∈ x.reads) :
    x.readAt? read.ticket = some read.resting := by
  rw [tickets_eq] at h
  have := find?_of_nodup h (List.mem_map_of_mem (f := Read.resting) hm)
  rwa [Read.resting_ticket] at this

/-! ## Granting turns -/

/-- To begin reads changes only how far they are. -/
theorem grantReads_resting (x : Indexer) :
    x.grantReads.1.reads.map Read.resting = x.reads.map Read.resting :=
  map_resting_grantSome _ _

/-- **Granting turns changes nothing** that a job could see. -/
@[simp] theorem readAt?_grantReads (x : Indexer) (ticket : Ticket) :
    x.grantReads.1.readAt? ticket = x.readAt? ticket := by
  rw [readAt?, grantReads_resting, readAt?]

/-- Granting reads hands out no ticket. -/
@[simp] theorem tickets_grantReads (x : Indexer) : x.grantReads.1.tickets = x.tickets := by
  rw [tickets_eq, grantReads_resting, tickets_eq]

/-! ## Reads that end -/

/-- The end of a read leaves the jobs as they are. -/
@[simp] theorem endRead_jobs (x : Indexer) (ticket : Ticket) (found : Catalog.Found) :
    (x.endRead ticket found).jobs = x.jobs := rfl

/-- It leaves the tickets as they are, too. -/
@[simp] theorem tickets_endRead (x : Indexer) (ticket : Ticket) (found : Catalog.Found) :
    (x.endRead ticket found).tickets = x.tickets := by
  simp only [tickets, endRead, List.map_map]
  apply List.map_congr_left
  intro read _
  simp only [Function.comp_apply]
  split <;> rfl

/-- A read that has ended has found something, and no other read has changed. -/
theorem readAt?_endRead (x : Indexer) (ticket other : Ticket) (found : Catalog.Found) :
    (x.endRead ticket found).readAt? other =
      if other = ticket then
        (x.readAt? other).map fun read => { read with progress := .ended found }
      else x.readAt? other := by
  simp only [readAt?, endRead]
  induction x.reads with
  | nil => split <;> rfl
  | cons read rest ih =>
      by_cases ht : read.ticket = ticket
      · subst ht
        rw [List.map_cons, List.map_cons, List.map_cons, if_pos rfl, Read.resting_ended]
        by_cases ho : other = read.ticket
        · subst ho
          simp
        · have hne : ¬ read.ticket = other := fun he => ho he.symm
          rw [if_neg ho] at ih ⊢
          simp only [List.find?_cons, Read.resting_ticket, hne, decide_false]
          exact ih
      · rw [List.map_cons, List.map_cons, List.map_cons, if_neg ht]
        by_cases ho : read.ticket = other
        · have hne : ¬ other = ticket := fun he => ht (ho.trans he)
          simp [ho, hne]
        · simp only [List.find?_cons, Read.resting_ticket, ho, decide_false]
          exact ih

/-! ## Reads that are over -/

/-- Reads that are removed take their tickets with them. -/
theorem tickets_dropEnded_sublist (x : Indexer) (tickets : List Ticket) :
    (x.dropEnded tickets).tickets.Sublist x.tickets :=
  List.Sublist.map _ List.filter_sublist

/-- Removing reads leaves those alone that have other tickets. -/
theorem readAt?_dropEnded {tickets : List Ticket} {ticket : Ticket} (h : ticket ∉ tickets)
    (x : Indexer) : (x.dropEnded tickets).readAt? ticket = x.readAt? ticket := by
  simp only [readAt?, dropEnded]
  induction x.reads with
  | nil => rfl
  | cons read rest ih =>
      rw [List.filter_cons]
      by_cases hr : read.ticket = ticket
      · have hkeep : tickets.contains read.ticket = false := by simpa [hr] using h
        rw [if_pos (by rw [hkeep]; rfl)]
        simp [hr]
      · split
        · simp only [List.map_cons, List.find?_cons, Read.resting_ticket, hr, decide_false]
          exact ih
        · rw [ih]
          simp [hr]

/-- What is left after reads were removed was there before. -/
theorem readAt?_of_dropEnded (h : x.tickets.Nodup) {tickets : List Ticket} {ticket : Ticket}
    {read : Read} (he : (x.dropEnded tickets).readAt? ticket = some read) :
    x.readAt? ticket = some read := by
  obtain ⟨hm, ht⟩ := of_readAt?_eq_some he
  obtain ⟨original, ho, rfl⟩ := List.mem_map.1 hm
  rw [Read.resting_ticket] at ht
  rw [← ht]
  exact readAt?_of_mem h (List.mem_filter.1 ho).1

/-! ## Reads that are wanted -/

/-- New reads of files for a job. -/
def newReads (x : Indexer) (job : JobId) (vocabulary : Vocabulary) (paths : List Text) :
    List Read :=
  ((List.range' x.nextTicket paths.length).zip paths).map fun (ticket, path) =>
    { ticket, job, path, vocabulary }

/-- An indexer that wants some more reads. -/
def want (x : Indexer) (job : JobId) (vocabulary : Vocabulary) (paths : List Text) : Indexer :=
  { x with
      reads := x.reads ++ x.newReads job vocabulary paths
      nextTicket := x.nextTicket + paths.length }

/-- New reads get the next tickets. -/
theorem tickets_want (x : Indexer) (job : JobId) (vocabulary : Vocabulary) (paths : List Text) :
    (x.want job vocabulary paths).tickets =
      x.tickets ++ List.range' x.nextTicket paths.length := by
  simp only [tickets, want, newReads, List.map_append, List.map_map, Function.comp_def]
  rw [List.map_fst_zip (by simp)]

/-- New reads take new tickets. -/
theorem nodup_tickets_want (h : x.tickets.Nodup) (hlt : ∀ ticket ∈ x.tickets, ticket < x.nextTicket)
    (job : JobId) (vocabulary : Vocabulary) (paths : List Text) :
    (x.want job vocabulary paths).tickets.Nodup := by
  rw [tickets_want, List.nodup_append]
  refine ⟨h, List.nodup_range', ?_⟩
  intro ticket ht other ho
  exact Nat.ne_of_lt (Nat.lt_of_lt_of_le (hlt ticket ht) (List.mem_range'_1.1 ho).1)

/-- So the tickets to come are still unused. -/
theorem tickets_want_lt (hlt : ∀ ticket ∈ x.tickets, ticket < x.nextTicket)
    (job : JobId) (vocabulary : Vocabulary) (paths : List Text) :
    ∀ ticket ∈ (x.want job vocabulary paths).tickets,
      ticket < (x.want job vocabulary paths).nextTicket := by
  intro ticket ht
  rw [tickets_want, List.mem_append] at ht
  show ticket < x.nextTicket + paths.length
  rcases ht with ht | ht
  · exact Nat.lt_of_lt_of_le (hlt ticket ht) (Nat.le_add_right _ _)
  · exact (List.mem_range'_1.1 ht).2

/-- Reads that were there are found as before. -/
theorem readAt?_want_of_some {ticket : Ticket} {read : Read} (h : x.readAt? ticket = some read)
    (job : JobId) (vocabulary : Vocabulary) (paths : List Text) :
    (x.want job vocabulary paths).readAt? ticket = some read := by
  unfold readAt? at h ⊢
  rw [want, List.map_append, List.find?_append, h, Option.some_or]

/-- What is found is a read that was there or a new one, which has not found anything yet. -/
theorem of_readAt?_want {job : JobId} {vocabulary : Vocabulary} {paths : List Text}
    {ticket : Ticket} {read : Read}
    (h : (x.want job vocabulary paths).readAt? ticket = some read) :
    x.readAt? ticket = some read ∨ read.found? = none := by
  unfold readAt? at h ⊢
  rw [want, List.map_append, List.find?_append] at h
  cases he : (x.reads.map Read.resting).find? (·.ticket = ticket) with
  | some other =>
      rw [he, Option.some_or] at h
      exact .inl h
  | none =>
      rw [he, Option.none_or] at h
      obtain ⟨new, hnew, rfl⟩ := List.mem_map.1 (List.mem_of_find?_eq_some h)
      obtain ⟨pair, -, rfl⟩ := List.mem_map.1 hnew
      exact .inr rfl

/-- The new reads are found under their tickets. -/
theorem readAt?_want (h : x.tickets.Nodup) (hlt : ∀ ticket ∈ x.tickets, ticket < x.nextTicket)
    (job : JobId) (vocabulary : Vocabulary) (paths : List Text) {n : Nat} (hn : n < paths.length) :
    (x.want job vocabulary paths).readAt? (x.nextTicket + n) =
      some { ticket := x.nextTicket + n, job, path := paths[n], vocabulary } := by
  have hm : ({ ticket := x.nextTicket + n, job, path := paths[n], vocabulary } : Read) ∈
      (x.want job vocabulary paths).reads := by
    refine List.mem_append_right _ (List.mem_map.2 ⟨(x.nextTicket + n, paths[n]), ?_, rfl⟩)
    rw [List.mem_iff_getElem]
    exact ⟨n, by simpa using hn, by simp⟩
  exact readAt?_of_mem (nodup_tickets_want h hlt job vocabulary paths) hm

end Indexer

end Marginalia
