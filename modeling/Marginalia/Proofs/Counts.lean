import Mathlib.Algebra.BigOperators.Group.List.Basic
import Mathlib.Algebra.Ring.Nat
import Mathlib.Data.List.Nodup
import Marginalia.CommandLine.Run
import Marginalia.Proofs.Notes
import Marginalia.Proofs.Order

/-!
# Notes are counted by name

The notes of a project are counted for each name of its vocabulary, and the sum of the counts is
printed as the number of notes.  A note carries the very name of a tag, but where case does not
matter, it is counted for every name that is the same with case folded away.
`View.counts_add_up_iff` says when the sum is right.

Both sides count pairs of a note and a name, once by names and once by notes (`View.sum_counts`):
each note adds as many as its tag has namesakes in the vocabulary.  There is always one, since notes
have tags of the vocabulary, and repeats of a name do not matter; a variant in another case does
(`View.variants_count_twice`).
-/

namespace Marginalia

namespace View

variable {v : Vocabulary} {entries : List Entry} {tag : Text}

@[simp]
theorem sameName_self (caseSensitive : Bool) (name : Text) :
    sameName caseSensitive name name = true := by
  simp [sameName]

/-- Every name of the vocabulary is counted. -/
theorem mem_names_iff (v : Vocabulary) (entries : List Entry) {name : Text} :
    name ∈ v.names ↔ name ∈ (counts v entries).map (·.1) := by
  rw [counts, List.map_map, ← List.mem_eraseDups]
  simp [Function.comp_def]

/-- How many names of a vocabulary count as that of a tag. -/
def namesakes (v : Vocabulary) (tag : Text) : Nat :=
  v.names.eraseDups.countP (sameName v.caseSensitive tag)

/-- What is counted adds one each time. -/
theorem countP_eq_sum (p : Note → Bool) (notes : List Note) :
    notes.countP p = (notes.map fun note => if p note = true then 1 else 0).sum := by
  induction notes with
  | nil => rfl
  | cons note notes ih => rw [List.countP_cons, ih, List.map_cons, List.sum_cons, Nat.add_comm]

/-- Pairs of a note and a name are counted by names or by notes. -/
theorem sum_countP_comm (same : Note → Text → Bool) (notes : List Note) (names : List Text) :
    (names.map fun name => notes.countP (same · name)).sum =
      (notes.map fun note => names.countP (same note)).sum := by
  induction names with
  | nil => simp
  | cons name names ih =>
      simp only [List.map_cons, List.sum_cons, ih, List.countP_cons, List.sum_map_add,
        countP_eq_sum (same · name)]
      exact Nat.add_comm _ _

/-- **Counting twice.**  Each note adds as many to the counts as its tag has namesakes. -/
theorem sum_counts (v : Vocabulary) (entries : List Entry) :
    ((counts v entries).map (·.2)).sum =
      ((entries.flatMap (·.notes)).map fun note => namesakes v note.tag).sum := by
  rw [counts, List.map_map]
  exact sum_countP_comm (fun note name => sameName v.caseSensitive note.tag name) _ _

/-- A name of the vocabulary is a namesake of its own. -/
theorem one_le_namesakes (h : tag ∈ v.names) : 1 ≤ namesakes v tag :=
  List.countP_pos_iff.2 ⟨tag, List.mem_eraseDups.2 h, sameName_self _ _⟩

/-- A name is the only one that counts as itself, however often it is listed, if there are no
variants of it. -/
theorem namesakes_eq_one_iff (h : tag ∈ v.names) :
    namesakes v tag = 1 ↔ ∀ name ∈ v.names, sameName v.caseSensitive tag name = true →
      name = tag := by
  have htag : tag ∈ v.names.eraseDups := List.mem_eraseDups.2 h
  constructor
  · intro hone name hname hsame
    rw [namesakes, List.countP_eq_length_filter, List.length_eq_one_iff] at hone
    obtain ⟨only, honly⟩ := hone
    have hall : ∀ other ∈ v.names.eraseDups, sameName v.caseSensitive tag other = true →
        other = only := fun other ho hs => by
      simpa [honly] using List.mem_filter.2 ⟨ho, hs⟩
    rw [hall name (List.mem_eraseDups.2 hname) hsame, hall tag htag (sameName_self _ _)]
  · intro honly
    calc namesakes v tag = v.names.eraseDups.count tag := by
          refine List.countP_congr fun name hname => ?_
          rw [beq_iff_eq]
          refine ⟨honly name (List.mem_eraseDups.1 hname), ?_⟩
          rintro rfl
          exact sameName_self _ _
      _ = 1 := List.count_eq_one_of_mem (Text.nodup_eraseDups _) htag

/-- Where everything counts at least once, the sum is right if everything counts exactly once. -/
theorem sum_eq_length_iff {numbers : List Nat} (h : ∀ n ∈ numbers, 1 ≤ n) :
    numbers.sum = numbers.length ↔ ∀ n ∈ numbers, n = 1 := by
  induction numbers with
  | nil => simp
  | cons n numbers ih =>
      have hn : 1 ≤ n := h n List.mem_cons_self
      have hrest : ∀ other ∈ numbers, 1 ≤ other :=
        fun other ho => h other (List.mem_cons_of_mem _ ho)
      have hle : numbers.length ≤ numbers.sum := List.length_le_sum_of_one_le numbers hrest
      rw [List.forall_mem_cons, ← ih hrest, List.sum_cons, List.length_cons]
      omega

/-- The total is the sum of the counts. -/
theorem total_eq (counts : List (Text × Nat)) (entries : List Entry) :
    CommandLine.total counts entries =
      ("(" : Text) ++ Text.ofNat (counts.map (·.2)).sum ++ (" todos in " : Text) ++
        Text.ofNat (entries.countP (·.hasNotes)) ++ (" files)" : Text) := by
  rw [CommandLine.total, List.sum_eq_foldl, List.foldl_map]

/-- **When counts add up.**  The counts of notes that were found with a vocabulary add up to at
least the number of the notes; and to this number exactly if no note has a tag of which the
vocabulary has a variant that counts as the same.  So they do if case matters, or if names are the
same once they are with case folded away.  The sum is what is printed as the total. -/
theorem counts_add_up_iff (v : Vocabulary) (entries : List Entry)
    (h : ∀ entry ∈ entries, ∃ path text, v.notesIn path text = .ok entry.notes) :
    let notes := entries.flatMap (·.notes)
    let sum := ((counts v entries).map (·.2)).sum
    notes.length ≤ sum ∧
      (sum = notes.length ↔ ∀ note ∈ notes, ∀ name ∈ v.names,
        sameName v.caseSensitive note.tag name = true → name = note.tag) ∧
      (v.caseSensitive = true → sum = notes.length) ∧
      ((∀ a ∈ v.names, ∀ b ∈ v.names, a.caseFold = b.caseFold → a = b) → sum = notes.length) ∧
      CommandLine.total (counts v entries) entries =
        ("(" : Text) ++ Text.ofNat sum ++ (" todos in " : Text) ++
          Text.ofNat (entries.countP (·.hasNotes)) ++ (" files)" : Text) := by
  intro notes sum
  have htags : ∀ note ∈ notes, note.tag ∈ v.names := by
    intro note hnote
    obtain ⟨entry, hentry, hin⟩ := List.mem_flatMap.1 hnote
    obtain ⟨path, text, hfound⟩ := h entry hentry
    exact (Vocabulary.notesIn_sound hfound note hin).1
  -- Each note counts at least once, under its own tag.
  have hone : ∀ n ∈ notes.map fun note => namesakes v note.tag, 1 ≤ n :=
    List.forall_mem_map.2 fun note hnote => one_le_namesakes (htags note hnote)
  have hsum : sum = (notes.map fun note => namesakes v note.tag).sum := sum_counts v entries
  have hiff : sum = notes.length ↔ ∀ note ∈ notes, ∀ name ∈ v.names,
      sameName v.caseSensitive note.tag name = true → name = note.tag := by
    have hall := sum_eq_length_iff hone
    rw [List.length_map, ← hsum, List.forall_mem_map] at hall
    exact hall.trans (forall₂_congr fun note hnote => namesakes_eq_one_iff (htags note hnote))
  refine ⟨?_, hiff, fun hcase => hiff.2 ?_, fun hfold => hiff.2 ?_, total_eq _ _⟩
  · have hle := List.length_le_sum_of_one_le _ hone
    rwa [List.length_map, ← hsum] at hle
  · intro note _ name _ hsame
    simpa [sameName, hcase, eq_comm] using hsame
  · intro note hnote name hname hsame
    cases hcase : v.caseSensitive with
    | true => simpa [sameName, hcase, eq_comm] using hsame
    | false =>
        refine (hfold _ (htags note hnote) _ hname ?_).symm
        simpa [sameName, hcase] using hsame

/-- The only note of a file. -/
def onlyNote : Note := { path := "a.py", tag := "TODO", line := 1, column := 2, text := "a" }

/-- The index of a project with that file. -/
def onlyEntry : List Entry := [{ path := "a.py", notes := [onlyNote] }]

/-- What comes of a text and of the counts where case does not matter. -/
def tally (tags : List Tag) (text : Text) :
    Option (Option Vocabulary.Flaw × Except Note.Fault (List Note) × List (Text × Nat)) :=
  (Vocabulary.ofTags false tags).toOption.map fun (v, flaw?) =>
    (flaw?, v.notesIn "a.py" text, counts v onlyEntry)

/-- What the tally comes to is what the parts come to. -/
theorem of_tally {tags : List Tag} {text : Text} {notes : List Note} {rows : List (Text × Nat)}
    (h : tally tags text = some (none, .ok notes, rows)) :
    ∃ v, Vocabulary.ofTags false tags = .ok (v, none) ∧ v.notesIn "a.py" text = .ok notes ∧
      counts v onlyEntry = rows := by
  unfold tally at h
  cases hv : Vocabulary.ofTags false tags with
  | error fault => simp [hv, Except.toOption] at h
  | ok result =>
      obtain ⟨v, flaw?⟩ := result
      obtain ⟨rfl, hnotes, hrows⟩ : flaw? = none ∧ _ ∧ _ := by
        simpa [hv, Except.toOption] using h
      exact ⟨v, rfl, hnotes, hrows⟩

/-- A name that is listed twice counts a note once, whatever its case in the text. -/
theorem counts_add_up_iff_repeated :
    ∃ v, Vocabulary.ofTags false [{ name := "TODO" }, { name := "Fixme" }, { name := "TODO" }] =
        .ok (v, none) ∧ v.notesIn "a.py" "# todo: a" = .ok [onlyNote] ∧
      counts v onlyEntry = ([("TODO", 1), ("Fixme", 0)] : List (Text × Nat)) ∧
      ((counts v onlyEntry).map (·.2)).sum = (onlyEntry.flatMap (·.notes)).length := by
  have hruns : tally [{ name := "TODO" }, { name := "Fixme" }, { name := "TODO" }] "# todo: a" =
      some (none, .ok [onlyNote], ([("TODO", 1), ("Fixme", 0)] : List (Text × Nat))) := by
    decide +kernel
  obtain ⟨v, hv, hnotes, hrows⟩ := of_tally hruns
  have hfound : ∀ entry ∈ onlyEntry, ∃ path text, v.notesIn path text = .ok entry.notes := by
    intro entry hentry
    obtain rfl := List.mem_singleton.1 hentry
    exact ⟨_, _, hnotes⟩
  obtain ⟨-, -, -, hsum, -⟩ := counts_add_up_iff v onlyEntry hfound
  refine ⟨v, hv, hnotes, hrows, hsum ?_⟩
  simp only [mem_names_iff v onlyEntry, hrows]
  decide +kernel

/-- A note is counted for its own tag and for a variant of the name in another case: there is one
note, and the total says that there are two. -/
theorem variants_count_twice :
    ∃ v, Vocabulary.ofTags false [{ name := "TODO" }, { name := "todo" }] = .ok (v, none) ∧
      v.notesIn "a.py" "# TODO: a" = .ok [onlyNote] ∧
      counts v onlyEntry = ([("TODO", 1), ("todo", 1)] : List (Text × Nat)) ∧
      ((counts v onlyEntry).map (·.2)).sum ≠ (onlyEntry.flatMap (·.notes)).length ∧
      CommandLine.total (counts v onlyEntry) onlyEntry = "(2 todos in 1 files)" := by
  have hruns : tally [{ name := "TODO" }, { name := "todo" }] "# TODO: a" =
      some (none, .ok [onlyNote], ([("TODO", 1), ("todo", 1)] : List (Text × Nat))) := by
    decide +kernel
  obtain ⟨v, hv, hnotes, hrows⟩ := of_tally hruns
  refine ⟨v, hv, hnotes, hrows, ?_, ?_⟩
  · rw [hrows]
    decide
  · rw [hrows]
    decide +kernel

end View

end Marginalia
