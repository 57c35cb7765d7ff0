import Marginalia.Proofs.Counts
import Marginalia.Proofs.Preparation

/-!
# The line below the counts

Below the table of counts stands a line that says how many notes there are in how many files.  The
notes are those that the rows of the table count.  The files are those that have any notes, whether
a row counts them or not, and where the count is for one tag, none of the notes of a file may be
counted.  `CommandLine.count_summary` says when the two numbers belong together: exactly if every
file with notes has one that is counted.  They do if no tag is asked for, since the notes of a
project that has been prepared have tags of its vocabulary (`Catalog.isFresh_of_reload`,
`Catalog.exists_text_of_survey`).  For one tag, there may be more files than notes
(`CommandLine.count_of_absent_tag`).
-/

namespace Marginalia

namespace View

variable {v : Vocabulary} {entries : List Entry} {caseSensitive : Bool} {names : List Text}

/-- Whether a file has a note that is counted under one of the names. -/
def hasCounted (caseSensitive : Bool) (names : List Text) (entry : Entry) : Bool :=
  entry.notes.any fun note => names.any (sameName caseSensitive note.tag)

/-- A file with a counted note has a note. -/
theorem hasNotes_of_hasCounted {entry : Entry} (h : hasCounted caseSensitive names entry = true) :
    entry.hasNotes = true := by
  obtain ⟨note, hnote, -⟩ := List.any_eq_true.1 h
  simp [Entry.hasNotes, List.ne_nil_of_mem hnote]

/-- A narrower property holds as often as a wider one exactly if it is no narrower on the list. -/
theorem countP_eq_iff_of_imp {wide narrow : Entry → Bool} (h : ∀ entry, narrow entry → wide entry) :
    entries.countP wide = entries.countP narrow ↔ ∀ entry ∈ entries, wide entry → narrow entry := by
  induction entries with
  | nil => simp
  | cons entry entries ih =>
      have hle : entries.countP narrow ≤ entries.countP wide :=
        List.countP_mono_left fun entry _ => h entry
      rw [List.forall_mem_cons, ← ih, List.countP_cons, List.countP_cons]
      have himp := h entry
      cases hw : wide entry <;> cases hn : narrow entry <;> simp_all
      omega

/-- Each file with a counted note adds at least one to the counts. -/
theorem countP_hasCounted_le_sum (caseSensitive : Bool) (names : List Text) (entries : List Entry) :
    entries.countP (hasCounted caseSensitive names) ≤
      ((entries.flatMap (·.notes)).map fun note =>
        names.countP (sameName caseSensitive note.tag)).sum := by
  induction entries with
  | nil => simp
  | cons entry entries ih =>
      rw [List.countP_cons, List.flatMap_cons, List.map_append, List.sum_append]
      split
      · rename_i hcounted
        obtain ⟨note, hnote, hany⟩ := List.any_eq_true.1 hcounted
        obtain ⟨name, hname, hsame⟩ := List.any_eq_true.1 hany
        have hone : 0 < names.countP (sameName caseSensitive note.tag) :=
          List.countP_pos_iff.2 ⟨name, hname, hsame⟩
        have hpos :
            0 < (entry.notes.map fun note => names.countP (sameName caseSensitive note.tag)).sum :=
          List.sum_pos_iff_exists_pos_nat.2 ⟨_, List.mem_map_of_mem hnote, hone⟩
        omega
      · omega

/-- The names that are counted: the one that is asked for, or else all of the vocabulary. -/
def countedNames (tag? : Option Text) (v : Vocabulary) : List Text :=
  match tag? with
  | some tag => [tag]
  | none => v.names.eraseDups

/-- The rows of the table. -/
def rows (tag? : Option Text) (v : Vocabulary) (entries : List Entry) : List (Text × Nat) :=
  (countedNames tag? v).map fun name => (name, countOf v.caseSensitive name entries)

/-- The counts of the rows sum up how often each note is counted. -/
theorem sum_rows (tag? : Option Text) (v : Vocabulary) (entries : List Entry) :
    ((rows tag? v entries).map (·.2)).sum = ((entries.flatMap (·.notes)).map fun note =>
      (countedNames tag? v).countP (sameName v.caseSensitive note.tag)).sum := by
  rw [rows, List.map_map]
  exact sum_countP_comm (fun note name => sameName v.caseSensitive note.tag name) _ _

/-- If all names are counted, then each file whose notes have tags of the vocabulary has a counted
note. -/
theorem hasCounted_of_hasNotes {entry : Entry} (h : ∀ note ∈ entry.notes, note.tag ∈ v.names)
    (hnotes : entry.hasNotes = true) :
    hasCounted v.caseSensitive (countedNames none v) entry = true := by
  have hne : entry.notes ≠ [] := by simpa [Entry.hasNotes] using hnotes
  obtain ⟨note, hnote⟩ := List.exists_mem_of_ne_nil _ hne
  apply List.any_eq_true.2
  refine ⟨note, hnote, List.any_eq_true.2 ⟨note.tag, ?_, sameName_self _ _⟩⟩
  exact List.mem_eraseDups.2 (h note hnote)

end View

namespace Catalog

/-- A reload that goes through leaves a fresh index. -/
theorem isFresh_of_reload {c : Catalog} {disk : Disk} (hfile : c.hasFile = true) {complete : Bool}
    (h : (c.meet disk .reload).answer = .ok complete) :
    (c.meet disk .reload).catalog.IsFresh disk := by
  have hreload := meet_reload disk hfile
  cases hload : Settings.load disk c.workspace.settingsFile with
  | error fault =>
      simp only [hload, h] at hreload
      cases hreload
  | ok loaded =>
      obtain ⟨settings, warnings⟩ := loaded
      cases hv : settings.vocabularyWithWarnings with
      | error fault =>
          simp only [hload, hv, h] at hreload
          cases hreload
      | ok made =>
          rcases (endsWith_reload hfile hload hv).fresh_or_fails with
            ⟨-, -, -, hfresh⟩ | ⟨fault, hfails, -⟩
          · exact hfresh
          · rw [h] at hfails
            cases hfails

/-- The notes of a fresh index have tags of the vocabulary. -/
theorem IsFresh.tag_mem {c : Catalog} {disk : Disk} (h : c.IsFresh disk) :
    ∀ entry ∈ c.index.entries, ∀ note ∈ entry.notes, note.tag ∈ c.vocabulary.names := by
  intro entry hentry note hnote
  obtain ⟨text, hfound⟩ := exists_text_of_survey h entry hentry
  exact (Vocabulary.notesIn_sound hfound note hnote).1

end Catalog

namespace CommandLine

open View (rows countedNames hasCounted)

variable {world : World} {root : Path} {c : Catalog} {call : Call} {tag? : Option Text}

/-- What is counted once the project is prepared. -/
theorem runCount_of_ok {disk : Disk} {complete : Bool}
    (h : (Catalog.meetAll disk c (preparation none none)).answer = .ok complete) :
    let catalog := (Catalog.meetAll disk c (preparation none none)).catalog
    let rows := rows tag? catalog.vocabulary catalog.index.entries
    (runCount tag? disk c).ending = .done ∧
      (runCount tag? disk c).printed =
        [.table ["tag", "count"] (rows.map fun (name, n) => [name, Text.ofNat n]),
          .markup (("(" : Text) ++ Text.ofNat (rows.map (·.2)).sum ++ (" todos in " : Text) ++
            Text.ofNat (catalog.index.entries.countP (·.hasNotes)) ++ (" files)" : Text))] := by
  intro catalog rows
  rw [← View.total_eq]
  unfold runCount
  simp only [h, true_and]
  cases tag? <;> rfl

/-- Where nothing else is asked for, a preparation is a reload. -/
theorem isFresh_of_prepared {disk : Disk} (hfile : c.hasFile = true) {complete : Bool}
    (h : (Catalog.meetAll disk c (preparation none none)).answer = .ok complete) :
    (Catalog.meetAll disk c (preparation none none)).catalog.IsFresh disk := by
  have hreload : preparation none none = [.reload] := rfl
  rw [hreload] at h ⊢
  cases hmeet : (c.meet disk .reload).answer with
  | error fault =>
      rw [Catalog.meetAll_cons_of_error hmeet] at h
      cases h
  | ok done =>
      rw [(Catalog.meetAll_cons_of_ok hmeet []).2]
      exact Catalog.isFresh_of_reload hfile hmeet

/-- **What a count prints.**  A count prints how many notes the rows of its table count and how many
files have notes.  At most so many files have a note that is counted, and at most so many notes are
counted.  All the files have one exactly if every file with notes does, as is the case if no tag is
asked for. -/
theorem count_summary (hcommand : call.command = .count tag?) (hextra : call.hasExtra = false)
    (hroot : projectFolder world call.root = .ok root) (hopen : openCatalog world root = .ok c)
    {complete : Bool}
    (hprepared : (Catalog.meetAll world.disk c (preparation none none)).answer = .ok complete) :
    let catalog := (Catalog.meetAll world.disk c (preparation none none)).catalog
    let entries := catalog.index.entries
    let rows := rows tag? catalog.vocabulary entries
    let todos := (rows.map (·.2)).sum
    let files := entries.countP (·.hasNotes)
    let counted := hasCounted catalog.vocabulary.caseSensitive (rows.map (·.1))
    (∃ outcome, runCall world call = .ok outcome ∧ outcome.ending = .done ∧ outcome.printed =
        [.table ["tag", "count"] (rows.map fun (name, n) => [name, Text.ofNat n]),
          .markup (("(" : Text) ++ Text.ofNat todos ++ (" todos in " : Text) ++ Text.ofNat files ++
            (" files)" : Text))]) ∧
      entries.countP counted ≤ files ∧ entries.countP counted ≤ todos ∧
      (files = entries.countP counted ↔
        ∀ entry ∈ entries, entry.hasNotes = true → counted entry = true) ∧
      (tag? = none → files = entries.countP counted ∧ files ≤ todos) := by
  intro catalog entries rows todos files counted
  have hnames : rows.map (·.1) = countedNames tag? catalog.vocabulary := by
    simp [rows, View.rows, Function.comp_def]
  have hcounted : counted = hasCounted catalog.vocabulary.caseSensitive
      (countedNames tag? catalog.vocabulary) := congrArg (hasCounted _) hnames
  have himp : ∀ entry, counted entry = true → entry.hasNotes = true := fun entry =>
    View.hasNotes_of_hasCounted
  have hiff : files = entries.countP counted ↔
      ∀ entry ∈ entries, entry.hasNotes = true → counted entry = true :=
    View.countP_eq_iff_of_imp himp
  have htodos : entries.countP counted ≤ todos := by
    rw [hcounted, show todos = _ from View.sum_rows tag? catalog.vocabulary entries]
    exact View.countP_hasCounted_le_sum _ _ _
  refine ⟨⟨runCount tag? world.disk c, ?_, runCount_of_ok hprepared⟩,
    List.countP_mono_left fun entry _ => himp entry, htodos, hiff, fun hnone => ?_⟩
  · simp [runCall, hcommand, hextra, hroot, hopen, bind, Except.bind, pure, Except.pure]
  · obtain rfl := hnone
    obtain ⟨made, hmade⟩ := openCatalog_eq_ok.1 hopen
    obtain ⟨-, -, -, -, hfile⟩ := of_ofSettings hmade
    -- Notes of a prepared project have tags of its vocabulary, all of which are counted.
    have hfresh := isFresh_of_prepared hfile hprepared
    have hall : files = entries.countP counted := by
      apply hiff.2
      intro entry hentry hnotes
      rw [hcounted]
      exact View.hasCounted_of_hasNotes (hfresh.tag_mem entry hentry) hnotes
    exact ⟨hall, hall ▸ htodos⟩

/-- A project folder with a file. -/
def singleFile (content : Text) : World where
  disk := { items := [(["p"], .folder), (["p", "a.py"], .file (Utf8.encode content))] }
  folder := Path.ofText "/"

/-- The notes with one tag are counted there. -/
def countTodos : Call := { command := .count (some "TODO"), root := "/p" }

/-- The index by which that is answered. -/
def countedIndex (content : Text) : Index :=
  (Catalog.meetAll (singleFile content).disk Catalog.opened (preparation none none)).catalog.index

/-- What is printed for one tag if the one file has a note with it, and if its note has another
tag. -/
theorem countTodos_runs :
    (projectFolder (singleFile "# TODO: a\n") countTodos.root).toOption = some (Path.ofText "/p") ∧
    (Catalog.meetAll (singleFile "# TODO: a\n").disk Catalog.opened
      (preparation none none)).answer.toOption = some true ∧
    ((runCall (singleFile "# TODO: a\n") countTodos).toOption.map (·.printed) =
      some [.table ["tag", "count"] [["TODO", "1"]], .markup "(1 todos in 1 files)"]) ∧
    ((runCall (singleFile "# NOTE: a\n") countTodos).toOption.map fun o => (o.ending, o.printed)) =
      some (.done, [.table ["tag", "count"] [["TODO", "0"]], .markup "(0 todos in 1 files)"]) ∧
    (countedIndex "# NOTE: a\n").entries.countP (hasCounted false (["TODO"] : List Text)) = 0 := by
  decide +kernel

theorem count_summary_todo :
    ∃ outcome, runCall (singleFile "# TODO: a\n") countTodos = .ok outcome ∧
      outcome.ending = .done ∧
      outcome.printed =
        [.table ["tag", "count"] [["TODO", "1"]], .markup "(1 todos in 1 files)"] := by
  obtain ⟨hroot, hanswer, hprinted, -⟩ := countTodos_runs
  obtain ⟨warnings, hmade⟩ := Catalog.ofSettings_project
  have hcommand : countTodos.command = .count (some "TODO") := rfl
  obtain ⟨⟨outcome, hrun, hdone, -⟩, -⟩ :=
    count_summary hcommand rfl (Catalog.eq_ok_of_toOption hroot)
      (openCatalog_eq_ok.2 ⟨warnings, hmade⟩) (Catalog.eq_ok_of_toOption hanswer)
  refine ⟨outcome, hrun, hdone, ?_⟩
  rw [hrun] at hprinted
  exact Option.some.inj hprinted

/-- If the only note has another tag, no notes are said to be in one file, where no file has a note
that is counted. -/
theorem count_of_absent_tag :
    (∃ outcome, runCall (singleFile "# NOTE: a\n") countTodos = .ok outcome ∧
      outcome.ending = .done ∧
      outcome.printed =
        [.table ["tag", "count"] [["TODO", "0"]], .markup "(0 todos in 1 files)"]) ∧
      (countedIndex "# NOTE: a\n").entries.countP (hasCounted false (["TODO"] : List Text)) =
        0 := by
  obtain ⟨-, -, -, hruns, hnone⟩ := countTodos_runs
  obtain ⟨outcome, hrun, hpair⟩ := Option.map_eq_some_iff.1 hruns
  obtain ⟨hdone, hprinted⟩ := Prod.mk.inj hpair
  exact ⟨⟨outcome, Catalog.eq_ok_of_toOption hrun, hdone, hprinted⟩, hnone⟩

end CommandLine

end Marginalia
