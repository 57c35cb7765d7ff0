import Marginalia.Proofs.Lines
import Marginalia.Proofs.Trailers

/-!
# Notes that are written and found

A `Writing` says how a note stands on a line: after which code, under which leader, with which gaps
and with which of the optional parts.  Whatever the choices are, a vocabulary of one plain tag finds
the note again as it was written (`Vocabulary.notesIn_written`).  The code in front cannot open a
comment, so the search comes to the tag that was written (`Writing.front_le`), and the text is what
the first way behind this tag takes (`Frame.head?_ways_tail`), even if it holds further leaders,
tags, colons and closers.  A text that is made of such lines falls apart into them
(`Text.lines_join`), since none of them holds a line end.
-/

namespace Marginalia

namespace Text

/-- The lines of texts that were joined by line feeds. -/
theorem lines_join {texts : List Text}
    (h : ∀ text ∈ texts, text ≠ [] ∧ ∀ p ∈ text, isLineEnd p = false) :
    (join [.char '\n'] texts).lines = texts := by
  unfold lines
  induction texts with
  | nil => rfl
  | cons text texts ih =>
      obtain ⟨hne, hends⟩ := h text List.mem_cons_self
      have hrest := ih fun other ho => h other (List.mem_cons_of_mem _ ho)
      cases texts with
      | nil =>
          have hlast := linesFrom_append hends [] []
          rw [List.append_nil, List.append_nil] at hlast
          rw [join, hlast]
          obtain ⟨p, reversed, hreversed⟩ :=
            List.exists_cons_of_ne_nil (List.reverse_ne_nil_iff.2 hne)
          rw [hreversed, linesFrom, ← hreversed, List.reverse_reverse]
      | cons other texts =>
          have hjoin : join [.char '\n'] (text :: other :: texts) =
              text ++ .char '\n' :: join [.char '\n'] (other :: texts) := by
            simp [join]
          rw [hjoin, linesFrom_append hends, List.append_nil, linesFrom]
          · rw [if_pos (by decide), List.reverse_reverse, hrest]
          · rintro left h
            cases h

end Text

/-- A note as it is written on a line, but for the name of its tag: what stands before and between
the parts, and whether the optional ones are there. -/
structure Writing where
  front : Text
  leader : Text
  beforeTag : Text
  sign : Bool
  done : Bool
  beforeColon : Text
  afterColon : Text
  text : Text
  afterText : Text
  mark : Bool
  afterMark : Text
  closer : Text
  atEnd : Text
  front_lines : ∀ p ∈ front, Text.isLineEnd p = false
  front_signs : ∀ p ∈ front, p ∉ Frame.leaderSigns
  leads : Frame.IsLeader leader
  gap_beforeTag : Frame.IsGap beforeTag
  gap_beforeColon : Frame.IsGap beforeColon
  gap_afterColon : Frame.IsGap afterColon
  text_lines : ∀ p ∈ text, Text.isLineEnd p = false
  text_strip : text.strip = text
  text_last : ∀ p ∈ text.getLast?, p ∉ (['~', '*', '/', '>'] : List Char).map CodePoint.char
  gap_afterText : Frame.IsGap afterText
  gap_afterMark : Frame.IsGap afterMark
  closes : closer = [] ∨ Frame.IsCloser closer
  gap_atEnd : Frame.IsGap atEnd

namespace Writing

open Marginalia.Frame

variable (w : Writing) (name : Text)

/-- What leads up to the tag. -/
def opening : Text :=
  w.leader ++ w.beforeTag ++ given w.sign [.char '@'] ++ given w.done doneMark

/-- What follows the text. -/
def trailer : Text :=
  w.afterText ++ (given w.mark doneMark ++ (w.afterMark ++ (w.closer ++ w.atEnd)))

/-- The line on which the note is written. -/
def line : Text :=
  w.front ++ w.opening ++ name ++
    (w.beforeColon ++ .char ':' :: (w.afterColon ++ (w.text ++ w.trailer)))

/-- The note. -/
def note (path : Text) (number : Nat) : Note :=
  { path, tag := name, line := number, column := (w.front ++ w.opening).length, text := w.text,
    done := w.done }

/-- What is in front of the tag is an opening. -/
theorem isOpening : IsOpening w.opening w.done := .intro w.sign w.done w.leads w.gap_beforeTag

/-- What is behind the text is a trailer. -/
theorem trailer_mem : w.trailer ∈ trailers :=
  mem_trailers_iff.2 ⟨_, _, _, _, _, w.gap_afterText, w.gap_afterMark, w.gap_atEnd, w.closes, rfl⟩

/-- The text is that of a note. -/
theorem isContent : IsContent w.text where
  first p hp := by
    rw [← w.text_strip] at hp
    exact Text.isBlank_of_head?_strip hp
  last p hp := by
    refine ⟨?_, w.text_last p hp⟩
    rw [← w.text_strip] at hp
    exact Text.isBlank_of_getLast?_strip hp

variable {name}

/-- A written line is one line. -/
theorem line_lines (hname : ∀ p ∈ name, Text.isLineEnd p = false) :
    ∀ p ∈ w.line name, Text.isLineEnd p = false := by
  have hsigns : ∀ p ∈ signs, Text.isLineEnd p = false := by decide
  have hgap : ∀ {gap : Text}, IsGap gap → ∀ p ∈ gap, Text.isLineEnd p = false :=
    fun h p hp => hsigns p (h.mem_signs hp).1
  intro p hp
  simp only [line, List.mem_append, List.mem_cons] at hp
  rcases hp with ((hp | hp) | hp) | hp | rfl | hp | hp | hp
  · exact w.front_lines p hp
  · exact hsigns p (w.isOpening.mem_signs hp)
  · exact hname p hp
  · exact hgap w.gap_beforeColon p hp
  · decide
  · exact hgap w.gap_afterColon p hp
  · exact w.text_lines p hp
  · have hends : ∀ p ∈ (['~', '*', '/', '>'] : List Char).map CodePoint.char,
        Text.isLineEnd p = false := by decide
    rcases of_mem_trailers w.trailer_mem hp with (rfl | rfl) | hp | rfl
    · decide
    · decide
    · exact hends p hp
    · decide

/-- The comment opens where it was written. -/
theorem opens (name : Text) :
    Opens (w.line name) w.front.length (w.front ++ w.opening).length w.done where
  opening := by
    rw [line, List.append_assoc (w.front ++ w.opening), List.take_left, List.drop_left]
    exact w.isOpening
  le := by simp
  le_length := by simp [line]

/-- The tag stands where it was written. -/
theorem tagAt (rule : CaseRule) (name : Text) :
    TagAt rule name (w.line name) (w.front ++ w.opening).length where
  spelled := by
    rw [line, List.append_assoc (w.front ++ w.opening), List.drop_left, List.take_left]
    exact List.forall₂_same.2 fun p _ => CaseRule.same_refl
  ends p hp := by
    rw [← List.length_append, line, List.drop_left] at hp
    obtain ⟨rest, hrest⟩ := List.head?_eq_some_iff.1 hp
    rcases w.gap_beforeColon.append_cases hrest with (rfl | rfl) | ⟨-, hrest⟩
    · decide +kernel
    · decide +kernel
    · obtain ⟨rfl, -⟩ := List.cons.inj hrest
      decide +kernel
  led := (exists_opens_iff (w.opens name).le_length).2 ⟨_, _, w.opens name⟩

variable {first : CodePoint}

/-- No comment opens before. -/
theorem front_le {start position : Nat} {done : Bool}
    (h : Opens (w.line name) start position done) : w.front.length ≤ start := by
  by_contra hlt
  obtain ⟨p, hsign, hp⟩ := h.exists_leaderSign
  have hline : w.line name = w.front ++ (w.opening ++ name ++
      (w.beforeColon ++ .char ':' :: (w.afterColon ++ (w.text ++ w.trailer)))) := by
    simp [line]
  rw [hline, List.head?_drop, List.getElem?_append_left (Nat.not_le.1 hlt)] at hp
  exact w.front_signs p (List.mem_of_getElem? hp) hsign

/-- What a search finds on a written line makes the note. -/
theorem exists_search (rule : CaseRule) (hname : ∀ p ∈ name, Text.isLineEnd p = false)
    (hf : name.head? = some first) (hs : first ∉ signs) :
    ∃ found, (pattern rule name).search (.ofText (w.line name)) = some found ∧
      ∀ path number, Vocabulary.noteOf path number (w.line name) name (pattern rule name) found =
        .ok (w.note name path number) := by
  have hline : .char '\n' ∉ w.line name := fun hfeed =>
    absurd (w.line_lines hname _ hfeed) (by decide)
  obtain ⟨found, hfound⟩ := Option.isSome_iff_exists.1
    ((isSome_search_iff hline hf hs).2 ⟨_, w.tagAt rule name⟩)
  refine ⟨found, hfound, fun path number => ?_⟩
  obtain ⟨position, done, edge, hopens, htag, hleast, hedge, hlast, hgroup, hdone⟩ :=
    of_search_eq_some hline hf hs hfound
  -- The tag that was found is the one that was written.
  obtain rfl : position = (w.front ++ w.opening).length :=
    Nat.le_antisymm (hleast _ (w.tagAt rule name))
      ((w.opens name).stop_le htag hf hs ((w.front_le hopens).trans hopens.le))
  obtain rfl : done = w.done := Bool.eq_iff_iff.2
    (hopens.doneMark_suffix_iff.symm.trans (w.opens name).doneMark_suffix_iff)
  have hrest : (w.line name).drop edge.position =
      w.beforeColon ++ .char ':' :: (w.afterColon ++ (w.text ++ w.trailer)) := by
    rw [hedge, line, ← List.length_append, List.drop_left]
  obtain ⟨last, start, hlast', hcontent, htext⟩ := head?_ways_tail hline
    (hedge ▸ htag.le_length hf) hrest w.gap_beforeColon w.gap_afterColon w.isContent w.trailer_mem
  obtain rfl : found.last = last := Option.some.inj (hlast.symm.trans hlast')
  have htextGroup : (pattern rule name).named? found Tag.textGroup =
      some (start, start + w.text.length) := hcontent
  have htagGroup : (pattern rule name).named? found Tag.tagGroup = some (_, _) := hgroup
  have hdoneGroup : ((pattern rule name).named? found Tag.doneGroup).isSome = w.done := hdone
  rw [Vocabulary.noteOf, htextGroup, htagGroup]
  simp only [Vocabulary.slice, Nat.add_sub_cancel_left, htext, w.text_strip, hdoneGroup, note]

end Writing

namespace Vocabulary

open Marginalia.Frame

variable {caseSensitive : Bool} {tag : Tag} {first : CodePoint}

/-- The notes of written lines, counted from any number. -/
theorem notesInLines_written {v : Vocabulary} (rule : CaseRule) (htags : v.tags = [tag])
    (hpattern : v.pattern? tag.name = some (pattern rule tag.name))
    (hlines : ∀ p ∈ tag.name, Text.isLineEnd p = false) (hf : tag.name.head? = some first)
    (hs : first ∉ signs) (path : Text) (number : Nat) (written : List Writing) :
    v.notesInLines path number (written.map (·.line tag.name)) =
      .ok ((written.zipIdx number).map fun (w, number) => w.note tag.name path number) := by
  induction written generalizing number with
  | nil => rfl
  | cons w written ih =>
      obtain ⟨found, hfound, hnote⟩ := w.exists_search rule hlines hf hs
      have hfirst : v.firstMatch (Subject.ofText (w.line tag.name)) v.tags =
          some (tag, pattern rule tag.name, found) := by
        simp only [htags, firstMatch, hpattern, hfound]
      rw [List.map_cons, notesInLines, hfirst]
      simp only [hnote, ih, List.zipIdx_cons, List.map_cons]
      rfl

/-- **Notes that were written are found as they were written:**  on each line one note, with the
tag, the line, the place of the tag, the text and the mark of what is done. -/
theorem notesIn_written (hplain : tag.IsPlain) (hstrip : tag.name.strip = tag.name)
    (hlines : ∀ p ∈ tag.name, Text.isLineEnd p = false) (hf : tag.name.head? = some first)
    (hs : first ∉ marks) (caseSensitive : Bool) :
    ∃ v, ofTags caseSensitive [tag] = .ok (v, none) ∧
      ∀ (path : Text) (written : List Writing),
        v.notesIn path (Text.join [.char '\n'] (written.map (·.line tag.name))) =
          .ok ((written.zipIdx 1).map fun (w, number) => w.note tag.name path number) := by
  have hname : tag.name ≠ [] := by
    intro hnil
    rw [hnil] at hf
    cases hf
  have hv := hplain.ofTags (by rwa [hstrip]) caseSensitive
  rw [hstrip] at hv
  refine ⟨_, hv, fun path written => ?_⟩
  -- No line that was written has a line end within, so the lines are found as they are.
  rw [notesIn, Text.lines_join]
  · have hsigns : first ∉ signs := not_sign_of_strip (by rwa [hstrip]) hs
    refine notesInLines_written (flags caseSensitive).rule rfl ?_ hlines hf hsigns path 1 written
    exact List.lookup_cons_self
  · intro line hline
    obtain ⟨w, -, rfl⟩ := List.mem_map.1 hline
    exact ⟨by simp [Writing.line], w.line_lines hlines⟩

/-- A note whose text holds what could lead, name and close a comment itself. -/
def todoWriting : Writing where
  front := "x "
  leader := "/*"
  beforeTag := " "
  sign := true
  done := true
  beforeColon := ""
  afterColon := " "
  text := "# TODO: b --> c"
  afterText := " "
  mark := true
  afterMark := " "
  closer := "*/"
  atEnd := ""
  front_lines := by decide +kernel
  front_signs := by decide +kernel
  leads := .block 0
  gap_beforeTag := by unfold IsGap; decide +kernel
  gap_beforeColon := by unfold IsGap; decide +kernel
  gap_afterColon := by unfold IsGap; decide +kernel
  text_lines := by decide +kernel
  text_strip := by decide +kernel
  text_last := by decide +kernel
  gap_afterText := by unfold IsGap; decide +kernel
  gap_afterMark := by unfold IsGap; decide +kernel
  closes := .inr (.block 0)
  gap_atEnd := by unfold IsGap; decide +kernel

/-- A text of two lines, with the note done on the first and not on the second. -/
def todoText : Text :=
  "x /* @~~TODO: # TODO: b --> c ~~ */\nx /* @TODO: # TODO: b --> c ~~ */"

/-- The notes of the two lines. -/
theorem notesIn_written_todo :
    ∃ v, ofTags true [{ name := "TODO" }] = .ok (v, none) ∧
      v.notesIn "a.c" todoText = .ok [
        { path := "a.c", tag := "TODO", line := 1, column := 8, text := "# TODO: b --> c",
          done := true },
        { path := "a.c", tag := "TODO", line := 2, column := 6, text := "# TODO: b --> c",
          done := false }] := by
  have hplain : Tag.IsPlain { name := "TODO" } := rfl
  have hstrip : Text.strip "TODO" = "TODO" := by decide +kernel
  have hlines : ∀ p ∈ ("TODO" : Text), Text.isLineEnd p = false := by decide +kernel
  have hfirst : ("TODO" : Text).head? = some (.char 'T') := by decide +kernel
  have hmarks : .char 'T' ∉ marks := by decide
  have hwritten : Text.join [.char '\n']
      ([todoWriting, { todoWriting with done := false }].map (·.line "TODO")) = todoText := by
    decide +kernel
  obtain ⟨v, hv, hnotes⟩ := notesIn_written hplain hstrip hlines hfirst hmarks true
  refine ⟨v, hv, ?_⟩
  rw [← hwritten, hnotes]
  rfl

end Vocabulary

end Marginalia
