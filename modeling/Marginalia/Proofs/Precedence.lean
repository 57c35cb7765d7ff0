import Marginalia.Proofs.Notes

/-!
# Which tag a note is taken for

A line may match the patterns of several tags, and it makes one note at most: that of the first tag
whose pattern matches.  Which pattern is a tag's?  A vocabulary keeps its patterns by name, so a tag
that is listed again has lost its own pattern to the last tag of its name, its *heir*
(`Vocabulary.heir?`), while the order of trying still comes from the list.

`Vocabulary.notes_of_heirs` says line by line what a text is found to hold: the note of the first
tag whose heir's pattern matches.  Where tags of one name have one body (`Vocabulary.Consistent`),
each tag is tried with the pattern that was written for it, and tags that are added at the end
change nothing about a line that had a note before.
-/

namespace Marginalia

namespace Vocabulary

/-! ## Patterns by name -/

/-- The last of some tags with a name. -/
def heir? (tags : List Tag) (name : Text) : Option Tag := tags.reverse.find? (·.name = name)

/-- The pattern that is written for a tag, if it can be used. -/
def own? (caseSensitive : Bool) (tag : Tag) : Option Pattern :=
  (patternOf caseSensitive tag).toOption

/-- Tags of one name have one body. -/
def Consistent (tags : List Tag) : Prop :=
  ∀ tag ∈ tags, ∀ other ∈ tags, tag.name = other.name → tag.body = other.body

instance (tags : List Tag) : Decidable (Consistent tags) := by
  unfold Consistent
  infer_instance

variable {caseSensitive : Bool} {tags : List Tag} {name : Text} {v : Vocabulary}

/-- The heir among more tags is found in the rest of the list, if it is there. -/
theorem heir?_cons (tag : Tag) (rest : List Tag) (name : Text) :
    heir? (tag :: rest) name = (heir? rest name).or
      (if tag.name = name then some tag else none) := by
  simp only [heir?, List.reverse_cons, List.find?_append, List.find?_singleton, decide_eq_true_eq]

/-- A heir is one of the tags and bears the name. -/
theorem of_heir?_eq_some {tag : Tag} (h : heir? tags name = some tag) :
    tag ∈ tags ∧ tag.name = name :=
  ⟨List.mem_reverse.1 (List.mem_of_find?_eq_some h), by simpa using List.find?_some h⟩

/-- Each tag of a list has a heir in it. -/
theorem exists_heir? {tag : Tag} (h : tag ∈ tags) : ∃ heir, heir? tags tag.name = some heir := by
  cases hf : heir? tags tag.name with
  | some heir => exact ⟨heir, rfl⟩
  | none =>
      have hnone := List.find?_eq_none.1 hf tag (List.mem_reverse.2 h)
      simp at hnone

/-- What is written for a tag depends on its name and its body alone. -/
theorem own?_congr {tag other : Tag} (hname : tag.name = other.name)
    (hbody : tag.body = other.body) : own? caseSensitive tag = own? caseSensitive other := by
  simp [own?, patternOf, hname, hbody]

/-- Reading patterns puts the pattern of the heir in front of what was kept for a name before. -/
theorem lookup_readPatterns {read patterns : List (Text × Pattern)}
    (h : readPatterns caseSensitive read tags = .ok patterns) (name : Text) :
    patterns.lookup name = match heir? tags name with
      | some tag => own? caseSensitive tag
      | none => read.lookup name := by
  induction tags generalizing read with
  | nil =>
      cases h
      rfl
  | cons tag rest ih =>
      cases hp : patternOf caseSensitive tag with
      | error flaw => simp [readPatterns, hp] at h
      | ok pattern =>
          rw [readPatterns, hp] at h
          rw [ih h, heir?_cons]
          cases hr : heir? rest name with
          | some heir => rfl
          | none =>
              by_cases hn : tag.name = name
              · simp [hn, own?, hp, Except.toOption]
              · have hne : (name == tag.name) = false := by simpa using Ne.symm hn
                simp [hn, List.lookup_cons, hne]

/-- The vocabulary of a list of tags that can be used. -/
theorem of_ofTags (h : ofTags caseSensitive tags = .ok (v, none)) :
    readPatterns caseSensitive [] tags = .ok v.patterns ∧ v.tags = tags := by
  unfold ofTags at h
  split at h
  · rename_i patterns hread
    cases h
    exact ⟨hread, rfl⟩
  · split at h
    · split at h <;> cases h
    · cases h

/-- A tag of a vocabulary is tried with the pattern of its heir. -/
theorem pattern?_of_mem (h : ofTags caseSensitive tags = .ok (v, none)) {tag : Tag}
    (ht : tag ∈ tags) : v.pattern? tag.name = (heir? tags tag.name).bind (own? caseSensitive) := by
  obtain ⟨heir, hheir⟩ := exists_heir? ht
  rw [pattern?, lookup_readPatterns (of_ofTags h).1, hheir]
  rfl

/-- Where tags of one name have one body, a heir has the pattern of the tag. -/
theorem Consistent.heir?_bind (h : Consistent tags) {tag : Tag} (ht : tag ∈ tags) :
    (heir? tags tag.name).bind (own? caseSensitive) = own? caseSensitive tag := by
  obtain ⟨heir, hheir⟩ := exists_heir? ht
  obtain ⟨hm, hname⟩ := of_heir?_eq_some hheir
  rw [hheir]
  exact own?_congr hname (h heir hm tag ht hname)

/-! ## The first tag that matches -/

/-- The first of some tags that matches a line, each tried with the pattern given for it. -/
def firstBy (patternFor : Tag → Option Pattern) (subject : Subject) (tags : List Tag) :
    Option (Tag × Pattern × Match) :=
  tags.findSome? fun tag => (patternFor tag).bind fun pattern =>
    (pattern.search subject).map fun found => (tag, pattern, found)

/-- Only the patterns of the tags that are tried count. -/
theorem firstBy_congr {one other : Tag → Option Pattern} (h : ∀ tag ∈ tags, one tag = other tag)
    (subject : Subject) : firstBy one subject tags = firstBy other subject tags := by
  unfold firstBy
  induction tags with
  | nil => rfl
  | cons tag rest ih =>
      simp only [List.findSome?_cons, h tag List.mem_cons_self,
        ih fun tag ht => h tag (List.mem_cons_of_mem _ ht)]

/-- A line whose tag is found does not look at tags further on. -/
theorem firstBy_append {patternFor : Tag → Option Pattern} {subject : Subject}
    {first : Tag × Pattern × Match} (h : firstBy patternFor subject tags = some first)
    (more : List Tag) : firstBy patternFor subject (tags ++ more) = some first := by
  unfold firstBy at h ⊢
  rw [List.findSome?_append, h]
  rfl

/-- A vocabulary tries its tags with the patterns that it keeps for their names. -/
theorem firstMatch_eq_firstBy (v : Vocabulary) (subject : Subject) (tags : List Tag) :
    v.firstMatch subject tags = firstBy (fun tag => v.pattern? tag.name) subject tags := by
  induction tags with
  | nil => rfl
  | cons tag rest ih =>
      unfold firstBy at ih ⊢
      unfold firstMatch
      rw [List.findSome?_cons, ih]
      cases hp : v.pattern? tag.name with
      | none => simp [hp]
      | some pattern => cases hs : pattern.search subject <;> simp [hp, hs]

/-! ## Notes line by line -/

/-- What notes say of one line: the note of the tag that was found for it and no other, or none. -/
inductive Records (notes : List Note) (path line : Text) (number : Nat) :
    Option (Tag × Pattern × Match) → Prop
  | nothing (hlines : notes.filter (·.line = number) = []) : Records notes path line number none
  | note {tag : Tag} {pattern : Pattern} {found : Match} {note : Note}
      (hnote : noteOf path number line tag.name pattern found = .ok note)
      (hlines : notes.filter (·.line = number) = [note]) :
      Records notes path line number (some (tag, pattern, found))

variable {path line : Text} {number : Nat} {notes : List Note}

/-- A note knows the line it was made for. -/
theorem line_of_noteOf {tag : Text} {pattern : Pattern} {found : Match} {note : Note}
    (h : noteOf path number line tag pattern found = .ok note) : note.line = number := by
  unfold noteOf at h
  split at h <;> cases h
  rfl

/-- Notes of later lines say nothing of a line. -/
theorem filter_line_of_lt (h : ∀ note ∈ notes, number < note.line) :
    notes.filter (·.line = number) = [] := by
  apply List.filter_eq_nil_iff.2
  intro note hm
  have hlt := h note hm
  simp only [decide_eq_true_eq]
  omega

/-- Only the notes of the line itself count. -/
theorem Records.congr {first? : Option (Tag × Pattern × Match)} {others : List Note}
    (h : Records notes path line number first?)
    (he : others.filter (·.line = number) = notes.filter (·.line = number)) :
    Records others path line number first? := by
  cases h with
  | nothing hlines => exact .nothing (he.trans hlines)
  | note hnote hlines => exact .note hnote (he.trans hlines)

/-- What the notes of some lines say of each line, and in which order. -/
structure Follows (v : Vocabulary) (path : Text) (number : Nat) (lines : List Text)
    (notes : List Note) : Prop where
  sorted : (notes.map (·.line)).Pairwise (· < ·)
  within : ∀ note ∈ notes, number ≤ note.line ∧ note.line < number + lines.length
  records : ∀ k line, lines[k]? = some line →
    Records notes path line (number + k) (v.firstMatch (Subject.ofText line) v.tags)

/-- Lines without a note of their own are passed over. -/
theorem Follows.skip {lines : List Text} (h : v.Follows path (number + 1) lines notes)
    (hnone : v.firstMatch (Subject.ofText line) v.tags = none) :
    v.Follows path number (line :: lines) notes where
  sorted := h.sorted
  within note hm := by
    have hw := h.within note hm
    rw [List.length_cons]
    omega
  records k other hk := by
    cases k with
    | zero =>
        obtain rfl : line = other := by simpa using hk
        rw [hnone]
        exact .nothing (filter_line_of_lt fun note hm => (h.within note hm).1)
    | succ k =>
        have hrec := h.records k other (by simpa using hk)
        rwa [Nat.add_right_comm] at hrec

/-- The note of a line stands in front of those of the lines that come after it. -/
theorem Follows.cons {lines : List Text} (h : v.Follows path (number + 1) lines notes)
    {tag : Tag} {pattern : Pattern} {found : Match} {note : Note}
    (hfirst : v.firstMatch (Subject.ofText line) v.tags = some (tag, pattern, found))
    (hnote : noteOf path number line tag.name pattern found = .ok note) :
    v.Follows path number (line :: lines) (note :: notes) where
  sorted := by
    rw [List.map_cons, List.pairwise_cons]
    refine ⟨fun other ho => ?_, h.sorted⟩
    obtain ⟨later, hm, rfl⟩ := List.mem_map.1 ho
    rw [line_of_noteOf hnote]
    exact (h.within later hm).1
  within other ho := by
    rw [List.length_cons]
    rcases List.mem_cons.1 ho with rfl | hm
    · have hline := line_of_noteOf hnote
      omega
    · have hw := h.within other hm
      omega
  records k other hk := by
    cases k with
    | zero =>
        obtain rfl : line = other := by simpa using hk
        rw [hfirst]
        refine .note hnote ?_
        rw [List.filter_cons_of_pos (by simpa using line_of_noteOf hnote)]
        exact congrArg _ (filter_line_of_lt fun later hm => (h.within later hm).1)
    | succ k =>
        have hrec := h.records k other (by simpa using hk)
        rw [Nat.add_right_comm] at hrec
        have hne : ¬ note.line = number + k + 1 := by
          have hline := line_of_noteOf hnote
          omega
        exact hrec.congr (List.filter_cons_of_neg (by simpa using hne))

/-- The notes of lines follow the lines. -/
theorem follows_of_notesInLines {lines : List Text}
    (h : v.notesInLines path number lines = .ok notes) : v.Follows path number lines notes := by
  induction lines generalizing number notes with
  | nil =>
      cases h
      exact ⟨List.Pairwise.nil, by simp, by simp⟩
  | cons line rest ih =>
      unfold notesInLines at h
      split at h
      · rename_i hnone
        exact (ih h).skip hnone
      · rename_i tag pattern found hfirst
        cases hnote : noteOf path number line tag.name pattern found with
        | error fault => simp [hnote, bind, Except.bind] at h
        | ok note =>
            cases hrest : v.notesInLines path (number + 1) rest with
            | error fault => simp [hnote, hrest, bind, Except.bind] at h
            | ok others =>
                obtain rfl : note :: others = notes := by
                  simpa [hnote, hrest, bind, Except.bind, pure, Except.pure] using h
                exact (ih hrest).cons hfirst hnote

/-- The note of a line stands where its line says. -/
theorem Follows.exists_line {lines : List Text} (h : v.Follows path number lines notes)
    {note : Note}
    (hm : note ∈ notes) : ∃ k line, lines[k]? = some line ∧ note.line = number + k := by
  obtain ⟨hle, hlt⟩ := h.within note hm
  have hk : note.line - number < lines.length := by omega
  exact ⟨note.line - number, lines[note.line - number], List.getElem?_eq_getElem hk, by omega⟩

/-- What is recorded of a line determines its note. -/
theorem Records.of_mem {first? : Option (Tag × Pattern × Match)}
    (h : Records notes path line number first?) {note : Note}
    (hm : note ∈ notes) (hline : note.line = number) :
    ∃ tag pattern found, first? = some (tag, pattern, found) ∧
      noteOf path number line tag.name pattern found = .ok note := by
  have hf : note ∈ notes.filter (·.line = number) := List.mem_filter.2 ⟨hm, by simpa using hline⟩
  cases h with
  | nothing hlines =>
      rw [hlines] at hf
      cases hf
  | note hnote hlines =>
      rw [hlines, List.mem_singleton] at hf
      subst hf
      exact ⟨_, _, _, rfl, hnote⟩

/-- **The first tag wins, with the pattern of its heir.**  The notes of a text come in the order of
its lines, one for a line at most, and a line has the note of the first tag whose heir's pattern
matches it.  Where tags of one name have one body this is the first tag whose own pattern matches;
and then no line loses or changes its note when tags are added at the end. -/
theorem notes_of_heirs {text : Text} (hv : ofTags caseSensitive tags = .ok (v, none))
    (hn : v.notesIn path text = .ok notes) :
    (notes.map (·.line)).Pairwise (· < ·) ∧
      (∀ note ∈ notes, ∃ k line, text.lines[k]? = some line ∧ note.line = k + 1) ∧
      (∀ k line, text.lines[k]? = some line → Records notes path line (k + 1)
        (firstBy (fun tag => (heir? tags tag.name).bind (own? caseSensitive))
          (Subject.ofText line) tags)) ∧
      (Consistent tags → ∀ k line, text.lines[k]? = some line → Records notes path line (k + 1)
        (firstBy (own? caseSensitive) (Subject.ofText line) tags)) ∧
      (∀ more w others, Consistent (tags ++ more) →
        ofTags caseSensitive (tags ++ more) = .ok (w, none) → w.notesIn path text = .ok others →
        ∀ note ∈ notes, others.filter (·.line = note.line) = [note]) := by
  -- Both facts are stated for any list of tags, as the longer list needs them too.
  have heirs : ∀ {list : List Tag} {u : Vocabulary} {found : List Note},
      ofTags caseSensitive list = .ok (u, none) → u.notesIn path text = .ok found →
      ∀ k line, text.lines[k]? = some line → Records found path line (k + 1)
        (firstBy (fun tag => (heir? list tag.name).bind (own? caseSensitive))
          (Subject.ofText line) list) := by
    intro list u found hu hf k line hk
    have hrec := (follows_of_notesInLines hf).records k line hk
    rw [(of_ofTags hu).2, firstMatch_eq_firstBy,
      firstBy_congr (fun tag ht => pattern?_of_mem hu ht), Nat.add_comm] at hrec
    exact hrec
  have owns : ∀ {list : List Tag} {u : Vocabulary} {found : List Note},
      ofTags caseSensitive list = .ok (u, none) → u.notesIn path text = .ok found →
      Consistent list → ∀ k line, text.lines[k]? = some line → Records found path line (k + 1)
        (firstBy (own? caseSensitive) (Subject.ofText line) list) := by
    intro list u found hu hf hc k line hk
    rw [← firstBy_congr (fun tag ht => hc.heir?_bind ht)]
    exact heirs hu hf k line hk
  have hfollows := follows_of_notesInLines hn
  have hplace : ∀ note ∈ notes, ∃ k line, text.lines[k]? = some line ∧ note.line = k + 1 := by
    intro note hm
    obtain ⟨k, line, hk, hline⟩ := hfollows.exists_line hm
    exact ⟨k, line, hk, by omega⟩
  refine ⟨hfollows.sorted, hplace, heirs hv hn, owns hv hn, ?_⟩
  intro more w others hc hw ho note hm
  obtain ⟨k, line, hk, hline⟩ := hplace note hm
  have hctags : Consistent tags := fun tag ht other hother =>
    hc tag (List.mem_append_left _ ht) other (List.mem_append_left _ hother)
  obtain ⟨tag, pattern, found, hfirst, hnote⟩ := (owns hv hn hctags k line hk).of_mem hm hline
  have hrec := owns hw ho hc k line hk
  -- The first tag that matches stays the first when others come behind it.
  rw [firstBy_append hfirst more] at hrec
  cases hrec with
  | note hother hlines =>
      obtain rfl := Except.ok.inj (hnote.symm.trans hother)
      rwa [hline]

/-- A tag that is looked for by a pattern. -/
def written (pattern : Text) : Tag := { name := "T", pattern? := some pattern }

/-- A line of a comment that is marked with a letter. -/
def markedLine : Text := "# A: x"

/-- The note of the marked line under the tag that is looked for by a pattern. -/
def markedNote : Note := { path := "a.py", tag := "T", line := 1, column := 2, text := "x" }

/-- What comes of a list of tags and of looking for them in the marked line. -/
def onMarkedLine (tags : List Tag) : Option (Option Flaw × Option (List Note)) :=
  (ofTags true tags).toOption.map fun result =>
    (result.2, (result.1.notesIn "a.py" markedLine).toOption)

theorem of_onMarkedLine (h : onMarkedLine tags = some (none, some notes)) :
    ∃ v, ofTags true tags = .ok (v, none) ∧ v.notesIn "a.py" markedLine = .ok notes := by
  unfold onMarkedLine at h
  cases hv : ofTags true tags with
  | error fault => simp [hv, Except.toOption] at h
  | ok result =>
      obtain ⟨v, flaw?⟩ := result
      cases hn : v.notesIn "a.py" markedLine with
      | error fault => simp [hv, hn, Except.toOption] at h
      | ok found =>
          obtain ⟨rfl, rfl⟩ : flaw? = none ∧ found = notes := by
            simpa [hv, hn, Except.toOption] using h
          exact ⟨v, rfl, hn⟩

/-- Two tags that both match the marked line. -/
def overlapping : List Tag := [written "[A-Z]", { name := "A" }]

/-- Of two tags that both match a line, the first has the note. -/
theorem notes_of_heirs_overlapping :
    ∃ v, ofTags true overlapping = .ok (v, none) ∧
      v.notesIn "a.py" markedLine = .ok [markedNote] ∧ Consistent overlapping ∧
      Records [markedNote] "a.py" markedLine 1
        (firstBy (own? true) (Subject.ofText markedLine) overlapping) := by
  have hruns : onMarkedLine overlapping = some (none, some [markedNote]) := by decide +kernel
  have hc : Consistent overlapping := by decide +kernel
  have hline : (Text.lines markedLine)[0]? = some markedLine := by decide +kernel
  obtain ⟨v, hv, hn⟩ := of_onMarkedLine hruns
  obtain ⟨-, -, -, howns, -⟩ := notes_of_heirs hv hn
  exact ⟨v, hv, hn, hc, howns hc 0 markedLine hline⟩

/-- A tag whose name is listed again with another pattern is not found where its own pattern
matches, though it was found before the list was extended. -/
theorem extended_list_loses_note :
    (∃ v, ofTags true [written "A"] = .ok (v, none) ∧
        v.notesIn "a.py" markedLine = .ok [markedNote]) ∧
      (∃ v, ofTags true ([written "A"] ++ [written "B"]) = .ok (v, none) ∧
        v.notesIn "a.py" markedLine = .ok []) ∧
      (firstBy (own? true) (Subject.ofText markedLine) [written "A", written "B"]).isSome =
        true := by
  have hbefore : onMarkedLine [written "A"] = some (none, some [markedNote]) := by decide +kernel
  have hafter : onMarkedLine ([written "A"] ++ [written "B"]) = some (none, some []) := by
    decide +kernel
  exact ⟨of_onMarkedLine hbefore, of_onMarkedLine hafter, by decide +kernel⟩

end Vocabulary

end Marginalia
