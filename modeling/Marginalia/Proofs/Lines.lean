import Marginalia.Proofs.Notes

/-!
# Texts line by line

Notes are looked for in the lines of a text, one line at a time, so it makes no difference where the
lines come from.  Where a line ends between two texts, the lines of both together are those of the
one and then those of the other (`Text.lines_append`), unless the line end itself is torn apart: a
carriage return at the end of one text and a line feed at the front of the next end one line
together.  And a document, which is read with every line end of a carriage return turned into a line
feed, has the lines that its bytes spell (`Text.lines_normalizeNewlines`), though a line may also
end at eight other code points that are left alone.

So the notes of a text are local (`Vocabulary.notes_local`): what is found in two texts together is
what is found in each, with the lines of the second counted on, and it does not depend on how the
lines of a document end.
-/

namespace Marginalia

namespace Text

variable {first second line rest text : Text} {p : CodePoint}

/-! ## Texts one after the other -/

/-- A line goes on up to a line end. -/
theorem linesFrom_append (h : ∀ p ∈ line, isLineEnd p = false) (reversed rest : Text) :
    linesFrom reversed (line ++ rest) = linesFrom (line.reverse ++ reversed) rest := by
  induction line generalizing reversed with
  | nil => rfl
  | cons p line ih =>
      rw [List.cons_append, linesFrom_cons (h p List.mem_cons_self),
        ih fun q hq => h q (List.mem_cons_of_mem _ hq)]
      simp

/-- A line ends between two texts: the first ends with a line end, and it is not the carriage return
of a line feed that the second begins with. -/
structure BreaksBefore (first second : Text) : Prop where
  ends : ∃ p, first.getLast? = some p ∧ isLineEnd p = true
  whole : first.getLast? = some (.char '\r') → second.head? ≠ some (.char '\n')

instance (first second : Text) : Decidable (BreaksBefore first second) :=
  decidable_of_iff
    ((∃ p ∈ first.getLast?, isLineEnd p = true) ∧
      (first.getLast? = some (.char '\r') → second.head? ≠ some (.char '\n')))
    ⟨fun h => ⟨h.1, h.2⟩, fun h => ⟨h.ends, h.whole⟩⟩

/-- What comes before the last line end does not matter. -/
theorem BreaksBefore.tail (h : BreaksBefore (p :: rest) second) (hne : rest ≠ []) :
    BreaksBefore rest second := by
  have hlast : (p :: rest).getLast? = rest.getLast? := List.getLast?_cons_of_ne_nil hne
  exact ⟨hlast ▸ h.ends, hlast ▸ h.whole⟩

/-- Behind a line end the next text begins with a line of its own. -/
theorem linesFrom_append_of_breaks (h : BreaksBefore first second) (reversed : Text) :
    linesFrom reversed (first ++ second) = linesFrom reversed first ++ linesFrom [] second := by
  fun_induction linesFrom reversed first with
  | case1 =>
      obtain ⟨p, hp, -⟩ := h.ends
      cases hp
  | case2 =>
      obtain ⟨p, hp, -⟩ := h.ends
      cases hp
  | case3 reversed rest ih =>
      rw [List.cons_append, List.cons_append, linesFrom_lineFeed, List.cons_append]
      by_cases hrest : rest = []
      · subst hrest
        rfl
      · rw [ih ((h.tail (List.cons_ne_nil _ _)).tail hrest)]
  | case4 reversed p rest hnot hp ih =>
      rw [List.cons_append, List.cons_append]
      by_cases hrest : rest = []
      · subst hrest
        rw [List.nil_append, linesFrom_lineEnd hp fun hreturn => h.whole (by simp [hreturn])]
        rfl
      · rw [linesFrom_lineEnd hp, ih (h.tail hrest)]
        intro hreturn hfeed
        obtain ⟨q, left, rfl⟩ := List.exists_cons_of_ne_nil hrest
        obtain rfl : q = .char '\n' := Option.some.inj hfeed
        exact hnot left hreturn rfl
  | case5 reversed p rest hnot hp ih =>
      -- A code point that ends no line cannot be the last.
      have hrest : rest ≠ [] := by
        rintro rfl
        obtain ⟨q, hq, hends⟩ := h.ends
        cases hq
        exact hp hends
      rw [List.cons_append, linesFrom_cons (Bool.not_eq_true _ ▸ hp), ih (h.tail hrest)]

/-- The lines of two texts together are those of the one and those of the other, if a line ends
between them. -/
theorem lines_append (h : BreaksBefore first second) :
    (first ++ second).lines = first.lines ++ second.lines :=
  linesFrom_append_of_breaks h []

/-! ## Line ends of documents -/

/-- The line that is under way and those after it end in the same places. -/
theorem linesFrom_normalizeNewlines (reversed t : Text) :
    linesFrom reversed t.normalizeNewlines = linesFrom reversed t := by
  fun_induction linesFrom reversed t with
  | case1 => rfl
  | case2 => rfl
  | case3 reversed rest ih =>
      rw [normalizeNewlines, linesFrom_feed, ih]
  | case4 reversed p rest hnot hp ih =>
      by_cases hreturn : p = .char '\r'
      · subst hreturn
        rw [normalizeNewlines_return, linesFrom_feed, ih]
        intro hfeed
        obtain ⟨left, hleft⟩ := List.head?_eq_some_iff.1 hfeed
        exact hnot left rfl hleft
      · rw [normalizeNewlines_cons hreturn, linesFrom_lineEnd hp (absurd · hreturn), ih]
  | case5 reversed p rest hnot hp ih =>
      have hreturn : p ≠ .char '\r' := by
        rintro rfl
        exact hp (by decide)
      rw [normalizeNewlines_cons hreturn, linesFrom_cons (Bool.not_eq_true _ ▸ hp), ih]

/-- Normalizing line ends leaves the lines alone. -/
theorem lines_normalizeNewlines (t : Text) : t.normalizeNewlines.lines = t.lines :=
  linesFrom_normalizeNewlines [] t

end Text

/-- The note so many lines further down. -/
def Note.below (lines : Nat) (note : Note) : Note := { note with line := note.line + lines }

namespace Vocabulary

/-! ## Notes of lines -/

/-- The note of a line, if it has one. -/
def noteOn (v : Vocabulary) (path : Text) (number : Nat) (line : Text) :
    Except Note.Fault (Option Note) :=
  match v.firstMatch (Subject.ofText line) v.tags with
  | none => .ok none
  | some (tag, pattern, found) => (noteOf path number line tag.name pattern found).map some

/-- Lines are looked through in order, up to the first that fails. -/
theorem notesInLines_cons (v : Vocabulary) (path : Text) (number : Nat) (line : Text)
    (rest : List Text) : v.notesInLines path number (line :: rest) = do
      let note? ← v.noteOn path number line
      let notes ← v.notesInLines path (number + 1) rest
      return note?.toList ++ notes := by
  rw [notesInLines, noteOn]
  cases v.firstMatch (Subject.ofText line) v.tags with
  | none => cases v.notesInLines path (number + 1) rest <;> rfl
  | some first =>
      obtain ⟨tag, pattern, found⟩ := first
      dsimp only
      cases noteOf path number line tag.name pattern found with
      | error fault => rfl
      | ok note => cases v.notesInLines path (number + 1) rest <;> rfl

/-- A line has the same note further down. -/
theorem noteOn_add (v : Vocabulary) (path : Text) (number count : Nat) (line : Text) :
    v.noteOn path (number + count) line =
      (v.noteOn path number line).map (·.map (·.below count)) := by
  unfold noteOn noteOf
  cases v.firstMatch (Subject.ofText line) v.tags with
  | none => rfl
  | some first =>
      dsimp only
      split <;> rfl

/-- Lines have the same notes further down. -/
theorem notesInLines_add (v : Vocabulary) (path : Text) (number count : Nat) (lines : List Text) :
    v.notesInLines path (number + count) lines =
      (v.notesInLines path number lines).map (·.map (·.below count)) := by
  induction lines generalizing number with
  | nil => rfl
  | cons line rest ih =>
      rw [notesInLines_cons, notesInLines_cons, noteOn_add, Nat.add_right_comm, ih]
      cases v.noteOn path number line with
      | error fault => rfl
      | ok note? =>
          cases v.notesInLines path (number + 1) rest with
          | error fault => rfl
          | ok notes => cases note? <;> rfl

/-- The lines of the second list are looked through when those of the first are. -/
theorem notesInLines_append (v : Vocabulary) (path : Text) (number : Nat)
    (first second : List Text) :
    v.notesInLines path number (first ++ second) = do
      let above ← v.notesInLines path number first
      let below ← v.notesInLines path (number + first.length) second
      return above ++ below := by
  induction first generalizing number with
  | nil =>
      rw [List.nil_append, List.length_nil, Nat.add_zero]
      cases v.notesInLines path number second <;> rfl
  | cons line rest ih =>
      have hnumber : number + (line :: rest).length = number + 1 + rest.length := by
        simp only [List.length_cons]
        omega
      rw [List.cons_append, notesInLines_cons, notesInLines_cons, ih, hnumber]
      cases v.noteOn path number line with
      | error fault => rfl
      | ok note? =>
          cases v.notesInLines path (number + 1) rest with
          | error fault => rfl
          | ok notes =>
              cases v.notesInLines path (number + 1 + rest.length) second with
              | error fault => rfl
              | ok below => cases note? <;> rfl

/-! ## Notes of texts -/

/-- **Notes are local.**  The notes of a text are local to its lines: where a line ends between two
texts, the notes of both together are those of the one and those of the other, further down by the
lines of the one.  And the notes of a document are those of the text that its bytes spell, however
its lines end there. -/
theorem notes_local (v : Vocabulary) (path : Text) :
    (∀ first second : Text, first.BreaksBefore second →
      v.notesIn path (first ++ second) = do
        let above ← v.notesIn path first
        let below ← v.notesIn path second
        return above ++ below.map (·.below first.lines.length)) ∧
    ∀ (disk : Disk) (file : Path) (bytes : List UInt8) (decoded : Text),
      disk.read file = .ok bytes → Utf8.decode bytes = some decoded → .char '\x00' ∉ decoded →
      ∃ text, Document.read disk file = .ok text ∧ text = decoded.normalizeNewlines ∧
        .char '\r' ∉ text ∧ v.notesIn path text = v.notesIn path decoded := by
  constructor
  · intro first second hbreaks
    rw [notesIn, notesIn, notesIn, Text.lines_append hbreaks, notesInLines_append, notesInLines_add]
    cases v.notesInLines path 1 first.lines with
    | error fault => rfl
    | ok above => cases v.notesInLines path 1 second.lines <;> rfl
  · intro disk file bytes decoded hread hdecode hnull
    -- The document is the text with its line ends made alike.
    have htext : Document.read disk file = .ok decoded.normalizeNewlines := by
      simp [Document.read, hread, Document.ofBytes, hdecode, hnull]
    refine ⟨_, htext, rfl, Text.return_not_mem_normalizeNewlines decoded, ?_⟩
    rw [notesIn, notesIn, Text.lines_normalizeNewlines]

/-- A text that ends in a carriage return of its own. -/
def upperPart : Text := "# TODO: a\r\n\r"

/-- A text that begins with a carriage return and a line feed, and ends lines in other ways too. -/
def lowerPart : Text := "\r\n\x0c// TODO: b\r"

/-- A disk with the two texts in one file. -/
def joinedDisk : Disk := { items := [(["a.c"], .file (Utf8.encode (upperPart ++ lowerPart)))] }

/-- The second note of two texts stands below all lines of the first, and the document of both, with
its line ends turned into line feeds, has the same notes. -/
theorem notes_local_joined :
    ∃ v, ofTags false [{ name := "TODO" }] = .ok (v, none) ∧ upperPart.BreaksBefore lowerPart ∧
      v.notesIn "a.c" (upperPart ++ lowerPart) = .ok [
        { path := "a.c", tag := "TODO", line := 1, column := 2, text := "a" },
        { path := "a.c", tag := "TODO", line := 5, column := 3, text := "b" }] ∧
      ∃ text, Document.read joinedDisk (Path.ofText "/a.c") = .ok text ∧
        text = "# TODO: a\n\n\n\x0c// TODO: b\n" ∧
        v.notesIn "a.c" text = v.notesIn "a.c" (upperPart ++ lowerPart) := by
  have hbreaks : upperPart.BreaksBefore lowerPart := by decide +kernel
  have hread : joinedDisk.read (Path.ofText "/a.c") =
      .ok (Utf8.encode (upperPart ++ lowerPart)) := by
    decide +kernel
  have hdecode : Utf8.decode (Utf8.encode (upperPart ++ lowerPart)) =
      some (upperPart ++ lowerPart) := by
    decide +kernel
  have hnull : CodePoint.char '\x00' ∉ upperPart ++ lowerPart := by decide +kernel
  have hruns : (ofTags false [{ name := "TODO" }]).toOption.map (fun result =>
      (result.2, result.1.notesIn "a.c" upperPart, result.1.notesIn "a.c" lowerPart)) =
        some (none, .ok [{ path := "a.c", tag := "TODO", line := 1, column := 2, text := "a" }],
          .ok [{ path := "a.c", tag := "TODO", line := 3, column := 3, text := "b" }]) := by
    decide +kernel
  cases hv : ofTags false [{ name := "TODO" }] with
  | error fault =>
      rw [hv] at hruns
      cases hruns
  | ok result =>
      obtain ⟨v, flaw?⟩ := result
      obtain ⟨rfl, hupper, hlower⟩ : flaw? = none ∧ _ ∧ _ := by
        simpa [hv, Except.toOption] using hruns
      obtain ⟨hseam, hdocument⟩ := notes_local v "a.c"
      refine ⟨v, rfl, hbreaks, ?_, ?_⟩
      · rw [hseam _ _ hbreaks, hupper, hlower]
        rfl
      · obtain ⟨text, htext, hnormal, -, hnotes⟩ :=
          hdocument joinedDisk (Path.ofText "/a.c") _ _ hread hdecode hnull
        refine ⟨text, htext, ?_, hnotes⟩
        rw [hnormal]
        decide +kernel

end Vocabulary

end Marginalia
