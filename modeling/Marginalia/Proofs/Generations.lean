import Marginalia.Proofs.Runs
import Marginalia.Proofs.Steps

/-!
# Scans and their generations

How the number of the generation moves, and what it says about scans.  No step lowers it, and a step
that begins a scan raises it (`Catalog.Counts`); a scan that goes on leaves it alone
(`Indexer.ScanGoes`).  So a scan has the generation in force at its end just if no turn has raised
it, no two scans have the same one, and the scans that are merged have ever higher generations
(`Indexer.merges_sorted`).
-/

namespace Marginalia

namespace Indexer

open Catalog (Counts Next Scan)

variable {x : Indexer} {c : Catalog} {turn : Turn} {id : JobId} {rest turns : List Turn}

/-! ## How the generation moves -/

/-- A catalog when a scan has been merged. -/
def merged (c : Catalog) (scan : Scan) (found : List (Text × Option (List Note))) : Catalog :=
  { c with
    index := Index.ofEntries (Catalog.mergeTouched c.index c.touched scan.keepEmpty
      (Catalog.scannedEntries scan.keepEmpty found)) }

/-- How a scan goes on; what is merged was found in the files that it had to read. -/
inductive ScanGoes (c : Catalog) (next : Next) (scan : Scan) : Catalog × Next → Prop
  | reads (paths : List Text) : ScanGoes c next scan (c, .read scan paths)
  | merges (found : List (Text × Option (List Note)))
      (listed : ∀ entry ∈ found, entry.1 ∈ next.paths) (current : scan.generation = c.generation) :
    ScanGoes c next scan (merged c scan found, .tell .notesUpdated)
  | superseded (stale : scan.generation ≠ c.generation) : ScanGoes c next scan (c, .done false)
  | fails (fault : Catalog.Fault) : ScanGoes c next scan (c, .fail fault)

/-- A scan ends in a merge or finds that it is superseded. -/
theorem scanGoes_finishScan {next : Next} {scan : Scan} {found : List (Text × Option (List Note))}
    (h : ∀ entry ∈ found, entry.1 ∈ next.paths) :
    ScanGoes c next scan (c.finishScan scan found) := by
  unfold Catalog.finishScan
  by_cases hg : scan.generation = c.generation
  · rw [if_neg (by simpa using hg)]
    exact .merges found h hg
  · rw [if_pos hg]
    exact .superseded hg

/-- A scan that goes on begins no generation. -/
theorem ScanGoes.generation {next : Next} {scan : Scan} {step : Catalog × Next}
    (h : ScanGoes c next scan step) :
    step.1.generation = c.generation := by
  cases h <;> rfl

/-- Whatever comes in for a scan, it goes on in one of these ways. -/
theorem Proceeds.scanGoes {move : Move} {task : Task} {step : Catalog × Next}
    (h : Proceeds move c task step) {scan : Scan} (hs : task.next.scan? = some scan) :
    ScanGoes c task.next scan step := by
  cases h with
  | loadFailed fault => cases hs
  | loaded settings => cases hs
  | listFailed fault =>
      cases hs
      exact .fails _
  | listed paths =>
      cases hs
      unfold Catalog.readFiles
      split
      · exact scanGoes_finishScan (by simp)
      · exact .reads paths
  | gatherFailed fault =>
      cases hs
      exact .fails fault
  | gathered found hfound =>
      cases hs
      exact scanGoes_finishScan fun entry he => List.mem_map_of_mem he
  | updated ticket text => cases hs
  | told => cases hs

/-- How a call goes on: it is a scan, or settings or a text have come in for it, or observers have
been told. -/
inductive Continues (c : Catalog) (move : Move) (task : Task) : Catalog × Next → Prop
  | scan (scan : Scan) (step : Catalog × Next) (eq : task.next.scan? = some scan)
      (goes : ScanGoes c task.next scan step) : Continues c move task step
  | loadFailed (fault : Settings.LoadFault) (next : task.next = .load) :
    Continues c move task (c, .fail (.settings fault))
  | loaded (settings : Settings) (next : task.next = .load)
      (comes : move = .settings task.id (.ok settings)) :
    Continues c move task (c.finishLoad settings).1
  | updated (update : Catalog.Update) (ticket : Ticket) (text : Except Document.Fault Text)
      (next : task.next = .update update) (comes : move = .text ticket text) :
    Continues c move task
      (c.afterRead update (Catalog.examine update.vocabulary update.path text).1)
  | begins (next : task.next = .tell .settingsLoaded) : Continues c move task c.beginScan
  | ends (next : task.next = .tell .notesUpdated) : Continues c move task (c, .done true)

/-- A task goes on in one of these ways. -/
theorem Proceeds.continues {move : Move} {task : Task} {step : Catalog × Next}
    (h : Proceeds move c task step) : Continues c move task step := by
  cases hs : task.next.scan? with
  | some scan => exact .scan scan step hs (h.scanGoes hs)
  | none =>
      cases h with
      | loadFailed fault => exact .loadFailed fault rfl
      | loaded settings => exact .loaded settings rfl rfl
      | listFailed fault => cases hs
      | listed paths => cases hs
      | gatherFailed fault => cases hs
      | gathered found hfound => cases hs
      | updated ticket text => exact .updated _ ticket text rfl rfl
      | @told _ _ _ topic =>
          cases topic with
          | settingsLoaded => exact .begins rfl
          | notesUpdated => exact .ends rfl

/-- Settings that come in begin no generation; that is left to the scan after them. -/
theorem counts_finishLoad (c : Catalog) (settings : Settings) :
    Counts c.generation (c.finishLoad settings).1 := by
  rcases c.finishLoad_cases settings with ⟨vocabulary, h⟩ | ⟨fault, h⟩
  · rw [h]
    exact .same rfl rfl
  · rw [h]
    exact .same rfl rfl

/-- A task that is no scan can begin one. -/
theorem Proceeds.counts {move : Move} {task : Task} {step : Catalog × Next}
    (h : Proceeds move c task step) (hs : task.next.scan? = none) : Counts c.generation step := by
  cases h.continues with
  | scan scan _ heq goes => simp [heq] at hs
  | loadFailed fault hnext => exact .same rfl rfl
  | loaded settings hnext hmove => exact counts_finishLoad c settings
  | updated update ticket text hnext hmove =>
      obtain ⟨hg, -, hn⟩ := c.afterRead_kept update _
      refine .same hg ?_
      rcases hn with hn | hn | ⟨fault, hn⟩ <;> rw [hn] <;> rfl
  | begins hnext => exact Catalog.counts_beginScan c
  | ends hnext => exact .same rfl rfl

/-- Only a reload that has told of the settings begins a generation. -/
theorem Proceeds.raised {move : Move} {task : Task} {step : Catalog × Next}
    (h : Proceeds move c task step) (hlt : c.generation < step.1.generation) :
    task.next.scan? = none ∧ step = c.beginScan := by
  have hsame : step.1.generation ≠ c.generation := Nat.ne_of_gt hlt
  cases h.continues with
  | scan scan _ heq goes => exact absurd goes.generation hsame
  | loadFailed fault hnext => exact absurd rfl hsame
  | loaded settings hnext hmove =>
      rcases c.finishLoad_cases settings with ⟨vocabulary, heq⟩ | ⟨fault, heq⟩
      · exact absurd (congrArg (·.1.generation) heq) hsame
      · exact absurd (congrArg (·.1.generation) heq) hsame
  | updated update ticket text hnext hmove => exact absurd (c.afterRead_kept _ _).1 hsame
  | begins hnext => exact ⟨by rw [hnext]; rfl, rfl⟩
  | ends hnext => exact absurd rfl hsame

/-- No task lowers the generation. -/
theorem Proceeds.generation_le {move : Move} {task : Task} {step : Catalog × Next}
    (h : Proceeds move c task step) : c.generation ≤ step.1.generation := by
  cases hs : task.next.scan? with
  | none => exact (h.counts hs).le
  | some scan => exact Nat.le_of_eq (h.scanGoes hs).generation.symm

/-- What goes on and is no reload makes no reload and no update, and gets its files from a list. -/
theorem Proceeds.settled {move : Move} {task : Task} {step : Catalog × Next}
    (h : Proceeds move c task step) (hreload : ¬ task.next.isReload) :
    ¬ step.2.isReload ∧ (∀ update, step.2 ≠ .update update) ∧
      ∀ path ∈ step.2.paths, ∃ paths, move = .list task.id (.ok paths) ∧ path ∈ paths := by
  have hfinish : ∀ scan found, (c.finishScan scan found).2 = .tell .notesUpdated ∨
      (c.finishScan scan found).2 = .done false := by
    intro scan found
    unfold Catalog.finishScan
    split
    · exact .inr rfl
    · exact .inl rfl
  cases h with
  | loadFailed fault => exact absurd trivial hreload
  | loaded settings => exact absurd trivial hreload
  | listFailed fault => exact ⟨id, nofun, nofun⟩
  | listed paths =>
      unfold Catalog.readFiles
      split
      · rcases hfinish _ [] with hn | hn <;> rw [hn] <;> exact ⟨id, nofun, nofun⟩
      · exact ⟨id, nofun, fun path hp => ⟨paths, rfl, hp⟩⟩
  | gatherFailed fault => exact ⟨id, nofun, nofun⟩
  | gathered found hfound =>
      rcases hfinish _ found with hn | hn <;> rw [hn] <;> exact ⟨id, nofun, nofun⟩
  | updated ticket text =>
      rcases (c.afterRead_kept _ _).2.2 with hn | hn | ⟨fault, hn⟩ <;> rw [hn] <;>
        exact ⟨id, nofun, nofun⟩
  | @told _ _ _ topic =>
      cases topic with
      | settingsLoaded => exact absurd trivial hreload
      | notesUpdated => exact ⟨id, nofun, nofun⟩

/-- No turn lowers the generation. -/
theorem Outcome.generation_le (h : Outcome x turn) :
    x.catalog.generation ≤ (x.after turn).catalog.generation := by
  cases h with
  | quiet hc ht hs => exact Nat.le_of_eq (congrArg Catalog.generation hc.symm)
  | begun id request hm hnone hsteps =>
      rw [hsteps.catalog]
      exact (Catalog.begins x.catalog turn.disk request).counts.le
  | resumed task hm step hp hsteps =>
      rw [hsteps.catalog]
      exact hp.generation_le

/-! ## Scans under way -/

/-- The scan that a call has under way. -/
def scanOf? (x : Indexer) (id : JobId) : Option Scan := (x.taskAt? id).bind (·.next.scan?)

variable {other : JobId} {request : Request} {step : Catalog × Next} {scan : Scan} {task : Task}

/-- A scan that has something to wait for is pending. -/
theorem Task.pending_of_scan? {task : Task} (h : task.next.scan? = some scan) :
    task.pending = [task] := by
  obtain ⟨id, request, next⟩ := task
  cases next with
  | list scan => rfl
  | read scan paths => rfl
  | _ => cases h

/-- A task is a scan under way just as long as it is pending. -/
theorem head?_pending_scan? (task : Task) :
    (task.pending.head?).bind (·.next.scan?) = task.next.scan? := by
  obtain ⟨id, request, next⟩ := task
  cases next <;> rfl

/-- After a step of one call, its scan is the one that it waits with, and other scans stay. -/
theorem Steps.scanOf? (h : Steps x turn id request step) (other : JobId) :
    (x.after turn).scanOf? other = if other = id then step.2.scan? else x.scanOf? other := by
  unfold Indexer.scanOf?
  rw [h.taskAt?]
  split
  · exact head?_pending_scan? _
  · rfl

/-- What comes of a turn for the scans. -/
inductive ScanTurn (x : Indexer) (turn : Turn) : Prop
  | quiet (catalog : (x.after turn).catalog = x.catalog) (tasks : (x.after turn).tasks = x.tasks)
      (said : said (x.effects turn) = [])
  /-- A call that is no scan goes on, or begins one. -/
  | other (id : JobId) (request : Request) (step : Catalog × Next) (none : x.scanOf? id = none)
      (counts : Counts x.catalog.generation step) (steps : Steps x turn id request step)
  /-- A scan goes on. -/
  | scan (task : Task) (mem : x.taskAt? task.id = some task) (scan : Scan)
      (scan_eq : task.next.scan? = some scan) (step : Catalog × Next)
      (goes : ScanGoes x.catalog task.next scan step)
      (steps : Steps x turn task.id task.request step)

/-- What comes of a turn, told with regard to scans. -/
theorem Outcome.scanTurn (h : Outcome x turn) (hx : x.Sane) : ScanTurn x turn := by
  cases h with
  | quiet hc ht hs => exact .quiet hc ht hs
  | begun id request hm hnone hsteps =>
      refine .other id request _ ?_ (Catalog.begins x.catalog turn.disk request).counts hsteps
      rw [scanOf?, hnone]
      rfl
  | resumed task hm step hp hsteps =>
      have hat := hx.taskAt?_of_mem hm
      cases hs : task.next.scan? with
      | none =>
          refine .other task.id task.request step ?_ (hp.counts hs) hsteps
          rw [scanOf?, hat]
          exact hs
      | some scan => exact .scan task hat scan hs step (hp.scanGoes hs) hsteps

/-- The scans under way have different generations, up to the one in force. -/
structure Numbered (x : Indexer) : Prop where
  le : ∀ id scan, x.scanOf? id = some scan → scan.generation ≤ x.catalog.generation
  unique : ∀ id other scan last, x.scanOf? id = some scan → x.scanOf? other = some last →
    scan.generation = last.generation → id = other

/-- No turn lowers the generation, whatever it is about. -/
theorem ScanTurn.generation_le (h : ScanTurn x turn) :
    x.catalog.generation ≤ (x.after turn).catalog.generation := by
  cases h with
  | quiet hc ht hs => exact Nat.le_of_eq (congrArg Catalog.generation hc.symm)
  | other id request step hnone hcounts hsteps => exact hsteps.catalog ▸ hcounts.le
  | scan task hat scan hs step hgoes hsteps =>
      exact hsteps.catalog ▸ Nat.le_of_eq hgoes.generation.symm

/-- A scan that is under way after a turn was so before, or is one of the generation that the turn
has begun. -/
theorem ScanTurn.of_scanOf? (h : ScanTurn x turn) (hs : (x.after turn).scanOf? id = some scan) :
    x.scanOf? id = some scan ∨
      scan.generation = x.catalog.generation + 1 ∧
        (x.after turn).catalog.generation = x.catalog.generation + 1 ∧
          ∀ other ≠ id, (x.after turn).scanOf? other = x.scanOf? other := by
  cases h with
  | quiet hc ht hsaid =>
      refine .inl ?_
      rwa [scanOf?, taskAt?, ht] at hs
  | other who request step hnone hcounts hsteps =>
      rw [hsteps.scanOf?] at hs
      split at hs
      · rename_i he
        subst he
        cases hcounts with
        | same hg hn =>
            rw [hn] at hs
            cases hs
        | raised hg hn =>
            refine .inr ⟨hn scan hs, hsteps.catalog ▸ hg, fun other hne => ?_⟩
            rw [hsteps.scanOf?, if_neg hne]
      · exact .inl hs
  | scan task hat prior hprior step hgoes hsteps =>
      refine .inl ?_
      rw [hsteps.scanOf?] at hs
      split at hs
      · rename_i he
        subst he
        rw [scanOf?, hat]
        refine hprior.trans ?_
        cases hgoes <;> cases hs
        rfl
      · exact hs

/-- A scan that begins gets a generation of its own, and no scan gets another one later. -/
theorem Numbered.after (h : Numbered x) (ht : ScanTurn x turn) : Numbered (x.after turn) where
  le := by
    intro id scan hs
    rcases ht.of_scanOf? hs with hs | ⟨hnew, hg, -⟩
    · exact Nat.le_trans (h.le id scan hs) ht.generation_le
    · exact Nat.le_of_eq (hnew.trans hg.symm)
  unique := by
    intro id other scan last hs hl he
    rcases ht.of_scanOf? hs with hs' | ⟨hnew, -, hsame⟩
    · rcases ht.of_scanOf? hl with hl' | ⟨hnew, -, hsame⟩
      · exact h.unique id other scan last hs' hl' he
      · have := h.le id scan hs'
        omega
    · apply Classical.byContradiction
      intro hne
      rw [hsame other (Ne.symm hne)] at hl
      have := h.le other last hl
      omega

/-- At first there are no scans. -/
theorem numbered_ofCatalog (c : Catalog) (limit : Int) : Numbered (ofCatalog c limit) where
  le := by simp [scanOf?, taskAt?, ofCatalog, tasks]
  unique := by simp [scanOf?, taskAt?, ofCatalog, tasks]

/-! ## The order of merges -/

/-- The generation of the scan that is merged in a turn.  Its call tells observers of the notes; it
had a scan under way, or begins one that has nothing to wait for. -/
def merge? (x : Indexer) (turn : Turn) : Option Nat :=
  match said (x.effects turn) with
  | [.tell id .notesUpdated] =>
    match x.scanOf? id with
    | some scan => some scan.generation
    | none =>
      if x.catalog.generation < (x.after turn).catalog.generation then
        some (x.after turn).catalog.generation
      else none
  | _ => none

/-- The generations of the scans that are merged in a run, in the order in which they are. -/
def merges : Indexer → List Turn → List Nat
  | _, [] => []
  | x, turn :: rest => (x.merge? turn).toList ++ merges (x.after turn) rest

/-- A generation that no scan under way is of, nor any later one. -/
structure Past (x : Indexer) (generation : Nat) : Prop where
  le : generation ≤ x.catalog.generation
  ne : ∀ id scan, x.scanOf? id = some scan → scan.generation ≠ generation

variable {generation next : Nat}

/-- A generation that is past stays so. -/
theorem Past.after (h : Past x generation) (ht : ScanTurn x turn) :
    Past (x.after turn) generation where
  le := Nat.le_trans h.le ht.generation_le
  ne := by
    intro id scan hs
    rcases ht.of_scanOf? hs with hs | ⟨hnew, -, -⟩
    · exact h.ne id scan hs
    · have := h.le
      omega

/-- What a task announces says what it does next. -/
theorem announcement_eq_tell {task : Task} {topic : Topic}
    (h : Task.announcement task = [.tell id topic]) : task.id = id ∧ task.next = .tell topic := by
  obtain ⟨who, request, next⟩ := task
  cases next with
  | tell other =>
      simp only [Task.announcement, List.cons.injEq, Effect.tell.injEq, and_true] at h
      exact ⟨h.1, congrArg Next.tell h.2⟩
  | _ => simp [Task.announcement] at h

/-- What is merged is the scan of the generation in force: one that was under way, or one that has
begun in the same turn. -/
theorem ScanTurn.merge? (h : ScanTurn x turn) (hm : x.merge? turn = some generation) :
    generation = (x.after turn).catalog.generation ∧
      ((x.catalog.generation < generation ∧
          ∀ id, (x.after turn).scanOf? id = none ∨ (x.after turn).scanOf? id = x.scanOf? id) ∨
        ∃ id scan, x.scanOf? id = some scan ∧ scan.generation = generation ∧
          (x.after turn).scanOf? id = none ∧
            ∀ other ≠ id, (x.after turn).scanOf? other = x.scanOf? other) := by
  unfold Indexer.merge? at hm
  split at hm
  case h_2 => cases hm
  case h_1 who hsaid =>
    -- Who tells of new notes is a scan that is merged, or a call without a scan that has begun its
    -- generation in this very turn.
    cases h with
    | quiet hc ht hs => simp [hs] at hsaid
    | other id request step hnone hcounts hsteps =>
        obtain ⟨rfl, hnext⟩ := announcement_eq_tell (hsteps.said.symm.trans hsaid)
        have hnext : step.2 = .tell .notesUpdated := hnext
        have hafter : ∀ other, (x.after turn).scanOf? other = none ∨
            (x.after turn).scanOf? other = x.scanOf? other := by
          intro other
          rw [hsteps.scanOf?, hnext]
          split
          · exact .inl rfl
          · exact .inr rfl
        simp only [hnone] at hm
        split at hm
        · rename_i hlt
          obtain rfl := Option.some.inj hm
          exact ⟨rfl, .inl ⟨hlt, hafter⟩⟩
        · cases hm
    | scan task hat scan hs step hgoes hsteps =>
        obtain ⟨rfl, hnext⟩ := announcement_eq_tell (hsteps.said.symm.trans hsaid)
        have hscan : x.scanOf? task.id = some scan := by
          rw [scanOf?, hat]
          exact hs
        simp only [hscan, Option.some.injEq] at hm
        subst hm
        cases hgoes with
        | reads paths => cases hnext
        | superseded hstale => cases hnext
        | fails fault => cases hnext
        | merges found hlisted hcurrent =>
            refine ⟨?_, .inr ⟨task.id, scan, hscan, rfl, ?_, fun other hne => ?_⟩⟩
            · rw [hsteps.catalog]
              exact hcurrent
            · rw [hsteps.scanOf?, if_pos rfl]
              rfl
            · rw [hsteps.scanOf?, if_neg hne]

/-- A generation that is merged comes after all past ones. -/
theorem Past.lt_merge (h : Past x generation) (ht : ScanTurn x turn)
    (hm : x.merge? turn = some next) : generation < next := by
  obtain ⟨hnext, ⟨hlt, -⟩ | ⟨id, scan, hs, hg, -⟩⟩ := ht.merge? hm
  · exact Nat.lt_of_le_of_lt h.le hlt
  · have hle : generation ≤ next := hnext ▸ Nat.le_trans h.le ht.generation_le
    have hne : generation ≠ next := fun he => h.ne id scan hs (hg.trans he.symm)
    omega

/-- A generation that is merged is past. -/
theorem Numbered.past_merge (h : Numbered x) (ht : ScanTurn x turn)
    (hm : x.merge? turn = some generation) : Past (x.after turn) generation := by
  obtain ⟨hnext, hcases⟩ := ht.merge? hm
  refine ⟨Nat.le_of_eq hnext, fun id scan hs he => ?_⟩
  rcases hcases with ⟨hlt, hafter⟩ | ⟨merged, last, hl, hg, hnone, hsame⟩
  · rcases hafter id with hn | hsame
    · rw [hn] at hs
      cases hs
    · rw [hsame] at hs
      have := h.le id scan hs
      omega
  · by_cases hid : id = merged
    · rw [hid, hnone] at hs
      cases hs
    · rw [hsame id hid] at hs
      exact hid (h.unique id merged scan last hs hl (he.trans hg.symm))

/-- Once a generation is past, only later ones are merged. -/
theorem Past.lt_of_mem_merges (h : Past x generation) (hlegal : Legal x turns)
    (hn : Numbered x) (hm : next ∈ merges x turns) : generation < next := by
  induction turns generalizing x with
  | nil => simp [merges] at hm
  | cons turn rest ih =>
      have ht := hlegal.next.2.scanTurn hlegal.sane
      rcases List.mem_append.1 hm with hm | hm
      · exact h.lt_merge ht (by simpa using hm)
      · exact ih (h.after ht) hlegal.next.1 (hn.after ht) hm

/-- **Merges come in order,** that of the generations of their scans. -/
theorem merges_sorted (hlegal : Legal x turns) (hn : Numbered x) :
    (merges x turns).Pairwise (· < ·) := by
  induction turns generalizing x with
  | nil => exact List.Pairwise.nil
  | cons turn rest ih =>
      have ht := hlegal.next.2.scanTurn hlegal.sane
      have hrest := ih hlegal.next.1 (hn.after ht)
      unfold merges
      cases hm : x.merge? turn with
      | none => exact hrest
      | some generation =>
          refine List.pairwise_cons.2 ⟨fun next hnext => ?_, hrest⟩
          exact (hn.past_merge ht hm).lt_of_mem_merges hlegal.next.1 (hn.after ht) hnext

end Indexer

end Marginalia
