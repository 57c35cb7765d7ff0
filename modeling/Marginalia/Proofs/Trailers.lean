import Mathlib.Data.List.TakeWhile
import Marginalia.Proofs.PlainTags

/-!
# The text of a note

Behind a tag the first way takes the spaces and tabs and the colon, and then as text what the line
has up to the first position from which the rest may follow a text (`Frame.trailers`: a mark of what
is done, what closes the comment, and gaps).  `Frame.head?_ways_tail` says that this gives back a
text that was put in front of such a rest, whatever the text holds, as long as it neither begins
with a blank nor ends with a sign of what may follow it (`Frame.IsContent`).  Then no part of the
text can be taken for what follows: such a part would end with a sign (`Frame.of_mem_trailers`), or
with a dash that no angle bracket follows (`Frame.of_dash_mem_trailers`).
-/

namespace Marginalia

namespace Frame

open Regex

/-! ## What may follow the text of a note -/

variable {p : CodePoint} {text rest : Text}

/-- A gap, perhaps a mark, a gap, perhaps what closes the comment, and a gap. -/
theorem mem_trailers_iff : text ∈ trailers ↔
    ∃ afterText mark afterMark closing atEnd, IsGap afterText ∧ IsGap afterMark ∧ IsGap atEnd ∧
      (closing = [] ∨ IsCloser closing) ∧
      text = afterText ++ (given mark doneMark ++ (afterMark ++ (closing ++ atEnd))) := by
  simp only [trailers, Language.mem_mul]
  constructor
  · rintro ⟨afterText, htext, -, ⟨-, ⟨mark, rfl⟩, -, ⟨afterMark, hmark, -,
      ⟨closing, hclosing, atEnd, hend, rfl⟩, rfl⟩, rfl⟩, rfl⟩
    exact ⟨afterText, mark, afterMark, closing, atEnd, htext, hmark, hend, hclosing.symm, rfl⟩
  · rintro ⟨afterText, mark, afterMark, closing, atEnd, htext, hmark, hend, hclosing, rfl⟩
    exact ⟨afterText, htext, _, ⟨_, ⟨mark, rfl⟩, _, ⟨afterMark, hmark, _,
      ⟨closing, hclosing.symm, atEnd, hend, rfl⟩, rfl⟩, rfl⟩, rfl⟩

/-- A gap begins with a space or a tab, if it begins. -/
theorem IsGap.append_cases {gap : Text} (h : IsGap gap) (heq : gap ++ text = p :: rest) :
    (p = .char ' ' ∨ p = .char '\t') ∨ gap = [] ∧ text = p :: rest := by
  cases gap with
  | nil => exact .inr ⟨rfl, heq⟩
  | cons q gap =>
      obtain ⟨rfl, -⟩ := List.cons.inj heq
      exact .inl (h q List.mem_cons_self)

/-- With what a text begins that may follow the text of a note. -/
theorem of_cons_mem_trailers (h : p :: rest ∈ trailers) :
    (p = .char ' ' ∨ p = .char '\t') ∨ p = .char '~' ∨ p = .char '*' ∨
      p = .char '-' ∧ ∃ more, rest = .char '-' :: .char '>' :: more := by
  obtain ⟨afterText, mark, afterMark, closing, atEnd, htext, hmark, hend, hclosing, heq⟩ :=
    mem_trailers_iff.1 h
  rcases htext.append_cases heq.symm with hblank | ⟨-, heq⟩
  · exact .inl hblank
  cases mark with
  | true => exact .inr (.inl (List.cons.inj heq).1.symm)
  | false =>
      rcases hmark.append_cases heq with hblank | ⟨-, heq⟩
      · exact .inl hblank
      rcases hclosing with rfl | hcloser
      · rw [List.nil_append, ← List.append_nil atEnd] at heq
        rcases hend.append_cases heq with hblank | ⟨-, heq⟩
        · exact .inl hblank
        · cases heq
      · cases hcloser with
        | block stars => exact .inr (.inr (.inl (List.cons.inj heq).1.symm))
        | markup =>
            obtain ⟨rfl, rfl⟩ := List.cons.inj heq
            exact .inr (.inr (.inr ⟨rfl, _, rfl⟩))

/-- What may follow the text of a note may do so without a space or a tab in front. -/
theorem of_blank_cons_mem_trailers (h : p :: rest ∈ trailers)
    (hp : p = .char ' ' ∨ p = .char '\t') : rest ∈ trailers := by
  obtain ⟨afterText, mark, afterMark, closing, atEnd, htext, hmark, hend, hclosing, heq⟩ :=
    mem_trailers_iff.1 h
  cases afterText with
  | cons q afterText =>
      obtain ⟨rfl, rfl⟩ := List.cons.inj heq
      exact mem_trailers_iff.2 ⟨afterText, mark, afterMark, closing, atEnd,
        fun p hp => htext p (List.mem_cons_of_mem _ hp), hmark, hend, hclosing, rfl⟩
  | nil =>
  cases mark with
  | true =>
      obtain ⟨rfl, -⟩ := List.cons.inj heq
      exact absurd hp (by decide)
  | false =>
  cases afterMark with
  | cons q afterMark =>
      obtain ⟨rfl, rfl⟩ := List.cons.inj heq
      exact mem_trailers_iff.2 ⟨[], false, afterMark, closing, atEnd, htext,
        fun p hp => hmark p (List.mem_cons_of_mem _ hp), hend, hclosing, rfl⟩
  | nil =>
  rcases hclosing with rfl | hcloser
  · cases atEnd with
    | nil => cases heq
    | cons q atEnd =>
        obtain ⟨rfl, rfl⟩ := List.cons.inj heq
        exact mem_trailers_iff.2 ⟨[], false, [], [], rest, htext, hmark,
          fun p hp => hend p (List.mem_cons_of_mem _ hp), .inl rfl, rfl⟩
  · cases hcloser with
    | block stars =>
        obtain ⟨rfl, -⟩ := List.cons.inj heq
        exact absurd hp (by decide)
    | markup =>
        obtain ⟨rfl, -⟩ := List.cons.inj heq
        exact absurd hp (by decide)

/-- What may follow the text of a note may do so without the spaces and tabs in front. -/
theorem dropWhile_mem_trailers (h : text ∈ trailers) : text.dropWhile blank.passes ∈ trailers := by
  induction text with
  | nil => exact h
  | cons p rest ih =>
      by_cases hp : blank.passes p = true
      · rw [List.dropWhile_cons_of_pos hp]
        exact ih (of_blank_cons_mem_trailers h (passes_blank.1 hp))
      · rwa [List.dropWhile_cons_of_neg hp]

/-- Where a code point stands in two texts in a row, if the first does not have it. -/
theorem append_cons_eq_append {front left right : Text} (h : front ++ p :: rest = left ++ right)
    (hp : p ∉ left) : ∃ between, between ++ p :: rest = right := by
  rcases List.append_eq_append_iff.1 h with ⟨between, hleft, hright⟩ | ⟨between, -, hright⟩
  · cases between with
    | nil => exact ⟨[], by simpa using hright⟩
    | cons q between =>
        obtain ⟨rfl, -⟩ := List.cons.inj hright
        exact absurd (hleft ▸ by simp) hp
  · exact ⟨between, hright.symm⟩

/-- A dash within a text that may follow the text of a note is followed by an angle bracket, perhaps
with another dash in between. -/
theorem of_dash_mem_trailers {front : Text} (h : front ++ .char '-' :: rest ∈ trailers) :
    ∃ more, rest = .char '>' :: more ∨ rest = .char '-' :: .char '>' :: more := by
  obtain ⟨afterText, mark, afterMark, closing, atEnd, htext, hmark, hend, hclosing, heq⟩ :=
    mem_trailers_iff.1 h
  have hgap : ∀ {gap : Text}, IsGap gap → CodePoint.char '-' ∉ gap :=
    fun h hp => absurd (h _ hp) (by decide)
  have hdone : CodePoint.char '-' ∉ given mark doneMark := fun hp =>
    absurd (mem_of_mem_given hp) (by decide)
  obtain ⟨front₁, heq₁⟩ := append_cons_eq_append heq (hgap htext)
  obtain ⟨front₂, heq₂⟩ := append_cons_eq_append heq₁ hdone
  obtain ⟨between, heq⟩ := append_cons_eq_append heq₂ (hgap hmark)
  rcases hclosing with rfl | hcloser
  · have hmem : CodePoint.char '-' ∈ [] ++ atEnd := heq ▸ by simp
    exact absurd hmem (hgap hend)
  cases hcloser with
  | block stars =>
      have hblock : CodePoint.char '-' ∉
          List.replicate (stars + 1) (CodePoint.char '*') ++ [.char '/'] := by
        simp
      obtain ⟨inEnd, heq'⟩ := append_cons_eq_append heq hblock
      have hmem : CodePoint.char '-' ∈ atEnd := heq' ▸ by simp
      exact absurd hmem (hgap hend)
  | markup =>
      -- The dash is the first or the second of the three code points.
      rcases between with _ | ⟨q, _ | ⟨q', between⟩⟩
      · exact ⟨atEnd, .inr (List.cons.inj heq).2⟩
      · exact ⟨atEnd, .inl (List.cons.inj (List.cons.inj heq).2).2⟩
      · have hrest := (List.cons.inj (List.cons.inj heq).2).2
        cases between with
        | nil => simp at hrest
        | cons q'' between =>
            have htail : between ++ .char '-' :: rest = atEnd := (List.cons.inj hrest).2
            have hmem : CodePoint.char '-' ∈ atEnd := htail ▸ by simp
            exact absurd hmem (hgap hend)

/-- The code points of texts that may follow the text of a note. -/
theorem of_mem_trailers (h : text ∈ trailers) (hp : p ∈ text) :
    (p = .char ' ' ∨ p = .char '\t') ∨
      p ∈ (['~', '*', '/', '>'] : List Char).map CodePoint.char ∨ p = .char '-' := by
  obtain ⟨afterText, mark, afterMark, closing, atEnd, htext, hmark, hend, hclosing, rfl⟩ :=
    mem_trailers_iff.1 h
  simp only [List.mem_append] at hp
  rcases hp with hp | hp | hp | hp | hp
  · exact .inl (htext p hp)
  · have hdone : ∀ p ∈ doneMark, p ∈ (['~', '*', '/', '>'] : List Char).map CodePoint.char := by
      decide
    exact .inr (.inl (hdone p (mem_of_mem_given hp)))
  · exact .inl (hmark p hp)
  · rcases hclosing with rfl | hcloser
    · cases hp
    · cases hcloser with
      | block stars =>
          rcases List.mem_append.1 hp with hp | hp
          · rw [List.eq_of_mem_replicate hp]
            decide
          · rw [List.mem_singleton.1 hp]
            decide
      | markup =>
          simp only [List.mem_cons, List.not_mem_nil, or_false] at hp
          rcases hp with rfl | rfl | rfl <;> decide
  · exact .inl (hend p hp)

/-- A text that ends with no sign of what may follow it does not belong to what follows. -/
theorem not_mem_trailers {last : CodePoint} {trailer : Text} (htrailer : trailer ∈ trailers)
    (hblank : last.isBlank = false)
    (hlast : last ∉ (['~', '*', '/', '>'] : List Char).map CodePoint.char) (front : Text) :
    front ++ last :: trailer ∉ trailers := by
  intro h
  have hmem : last ∈ front ++ last :: trailer := by simp
  rcases of_mem_trailers h hmem with (rfl | rfl) | hp | rfl
  · exact absurd hblank (by decide)
  · exact absurd hblank (by decide)
  · exact hlast hp
  · obtain ⟨more, rfl | rfl⟩ := of_dash_mem_trailers h
    · have := of_cons_mem_trailers htrailer
      simp at this
    · have := of_cons_mem_trailers htrailer
      simp at this

/-! ## The first way behind a tag -/

variable {line : Text} {cursor after last : Cursor}

/-- The first way through parts and then others goes the first way through the parts, if the others
have a way on from there. -/
theorem head?_ways_append {subject : Subject} {parts others : List Regex}
    (hparts : (ways subject (ofList parts) cursor).head? = some after)
    (hothers : (ways subject (ofList others) after).head? = some last) :
    (ways subject (ofList (parts ++ others)) cursor).head? = some last := by
  obtain ⟨more, hways⟩ := List.head?_eq_some_iff.1 hparts
  rw [ways_ofList_append, hways, List.flatMap_cons, List.head?_append, hothers]
  rfl

@[inherit_doc head?_ways_append]
theorem head?_ways_cons {subject : Subject} {r : Regex} {others : List Regex}
    (hr : (ways subject r cursor).head? = some after)
    (hothers : (ways subject (ofList others) after).head? = some last) :
    (ways subject (ofList (r :: others)) cursor).head? = some last := by
  rw [← ways_ofList_singleton] at hr
  exact head?_ways_append hr hothers

/-- A gap takes all spaces and tabs first. -/
theorem head?_ways_gap (line : Text) (cursor : Cursor) : (ways (.ofText line) gap cursor).head? =
    some (cursor.moveTo (cursor.position + runLength blank (line.drop cursor.position))) := by
  rw [gap, ways_loop_greedy, List.head?_reverse, Nat.sub_zero, List.range'_1_concat]
  simp

/-- A part that may be missing takes what it can first. -/
theorem head?_ways_colon (h : (line.drop cursor.position).head? = some (.char ':')) :
    (ways (.ofText line) (optional (letter ':')) cursor).head? =
      some (cursor.moveTo (cursor.position + 1)) := by
  rw [optional, ways_optional, letter, ways_symbol, h]
  rfl

/-- On a line without line feeds, text is first taken to be empty and then longer and longer. -/
theorem ways_content (hline : .char '\n' ∉ line) : ways (.ofText line) content cursor =
    (List.range' 0 ((line.drop cursor.position).length + 1)).map (cursor.captured 3) := by
  have hrun : runLength .notNewline (line.drop cursor.position) =
      (line.drop cursor.position).length := by
    rw [runLength, List.takeWhile_eq_self_iff.2 fun p hp =>
      passes_notNewline.2 fun hfeed => hline (hfeed ▸ List.mem_of_mem_drop hp)]
  have henter : (cursor.enter 3).position = cursor.position := rfl
  rw [content, ways, ways_ofList_singleton, ways_loop_lazy, henter, hrun, List.map_map]
  rfl

/-- From where the rest of the line may follow a text, the first way goes to the end of the line. -/
theorem head?_ways_closing (hline : .char '\n' ∉ line) (hc : cursor.position ≤ line.length)
    (h : line.drop cursor.position ∈ trailers) :
    (ways (.ofText line) (ofList closing) cursor).head? = some (cursor.moveTo line.length) := by
  have hmem := (mem_ways_closing hline hc).2 ⟨h, rfl⟩
  obtain ⟨after, hafter⟩ := Option.isSome_iff_exists.1
    (List.isSome_head?.2 (List.ne_nil_of_mem hmem))
  rw [← ((mem_ways_closing hline hc).1 (List.mem_of_head? hafter)).2]
  exact hafter

/-- From elsewhere there is no way. -/
theorem head?_ways_closing_eq_none (hline : .char '\n' ∉ line) (hc : cursor.position ≤ line.length)
    (h : line.drop cursor.position ∉ trailers) :
    (ways (.ofText line) (ofList closing) cursor).head? = none := by
  rw [List.head?_eq_none_iff, List.eq_nil_iff_forall_not_mem]
  exact fun after hafter => h ((mem_ways_closing hline hc).1 hafter).1

/-- Text is taken up to the first position from which the rest of the line may follow it. -/
theorem head?_ways_content {text trailer : Text} (hline : .char '\n' ∉ line)
    (hrest : line.drop cursor.position = text ++ trailer) (htrailer : trailer ∈ trailers)
    (hless : ∀ length < text.length, text.drop length ++ trailer ∉ trailers)
    (hc : cursor.position ≤ line.length) :
    (ways (.ofText line) (ofList (content :: closing)) cursor).head? =
      some ((cursor.captured 3 text.length).moveTo line.length) := by
  have hlength : (line.drop cursor.position).length = text.length + trailer.length := by
    rw [hrest, List.length_append]
  have hsplit : List.range' 0 ((line.drop cursor.position).length + 1) =
      List.range' 0 text.length ++ text.length :: List.range' (text.length + 1) trailer.length := by
    have happend := @List.range'_append_1 0 text.length (trailer.length + 1)
    rw [Nat.zero_add] at happend
    rw [hlength, Nat.add_assoc, ← happend, List.range'_succ]
  have hdrop : ∀ length ≤ text.length,
      line.drop (cursor.captured 3 length).position = text.drop length ++ trailer := by
    intro length hle
    rw [Cursor.position_captured, ← List.drop_drop, hrest, List.drop_append_of_le_length hle]
  have hle : ∀ length ≤ text.length, (cursor.captured 3 length).position ≤ line.length := by
    intro length hle
    rw [List.length_drop] at hlength
    rw [Cursor.position_captured]
    omega
  rw [ways_ofList_cons, ways_content hline, List.head?_flatMap, List.findSome?_map]
  refine List.findSome?_eq_some_iff.2 ⟨_, _, _, hsplit, ?_, fun length hmem => ?_⟩
  · refine head?_ways_closing hline (hle _ le_rfl) ?_
    rwa [hdrop _ le_rfl, List.drop_length, List.nil_append]
  · have hlt : length < text.length := by simpa using (List.mem_range'_1.1 hmem).2
    refine head?_ways_closing_eq_none hline (hle _ hlt.le) ?_
    rw [hdrop _ hlt.le]
    exact hless length hlt

/-- A gap at the beginning is part of the run of blanks. -/
theorem runLength_gap_append {gap : Text} (h : IsGap gap) (rest : Text) :
    runLength blank (gap ++ rest) = gap.length + runLength blank rest := by
  rw [runLength, List.takeWhile_append_of_pos fun p hp => passes_blank.2 (h p hp),
    List.length_append, runLength]

/-- What is behind a run begins with something else. -/
theorem drop_runLength (test : Symbols) (rest : Text) :
    rest.drop (runLength test rest) = rest.dropWhile test.passes := by
  induction rest with
  | nil => rfl
  | cons p rest ih =>
      by_cases hp : test.passes p = true
      · rw [List.dropWhile_cons_of_pos hp, ← ih]
        simp [runLength, hp]
      · rw [List.dropWhile_cons_of_neg hp]
        simp [runLength, hp]

/-- A text that does not begin or end like what may follow it, and what may follow it. -/
structure IsContent (text : Text) : Prop where
  first : ∀ p ∈ text.head?, p.isBlank = false
  last : ∀ p ∈ text.getLast?,
    p.isBlank = false ∧ p ∉ (['~', '*', '/', '>'] : List Char).map CodePoint.char

/-- Without the spaces and tabs in front, there is still the text and what may follow it. -/
theorem IsContent.exists_drop {trailer : Text} (h : IsContent text) (ht : trailer ∈ trailers) :
    ∃ trailer' ∈ trailers,
      (text ++ trailer).drop (runLength blank (text ++ trailer)) = text ++ trailer' := by
  cases text with
  | nil => exact ⟨_, dropWhile_mem_trailers ht, drop_runLength blank trailer⟩
  | cons p rest =>
      refine ⟨trailer, ht, ?_⟩
      have hp : blank.passes p = false := by
        have hblank := h.first p rfl
        by_contra hpasses
        rcases passes_blank.1 (by simpa using hpasses) with rfl | rfl <;>
          exact absurd hblank (by decide)
      simp [runLength, hp]

/-- No less than all of the text is taken. -/
theorem IsContent.not_mem_trailers {trailer : Text} (h : IsContent text) (ht : trailer ∈ trailers)
    {length : Nat} (hlt : length < text.length) : text.drop length ++ trailer ∉ trailers := by
  obtain ⟨front, last, rfl⟩ : ∃ front last, text = front ++ [last] :=
    ⟨_, _, (List.dropLast_append_getLast (List.ne_nil_of_length_pos (Nat.zero_lt_of_lt hlt))).symm⟩
  have hlast := h.last last (by simp)
  rw [List.length_append] at hlt
  rw [List.drop_append_of_le_length (Nat.le_of_lt_succ hlt), List.append_assoc]
  exact Frame.not_mem_trailers ht hlast.1 hlast.2 _

/-- The first way through what separates a tag from its text takes all of it, and the spaces and
tabs that follow. -/
theorem head?_ways_separator {beforeColon afterColon rest : Text}
    (hrest : line.drop cursor.position = beforeColon ++ .char ':' :: (afterColon ++ rest))
    (hbefore : IsGap beforeColon) (hafter : IsGap afterColon) :
    (ways (.ofText line) (ofList colon) cursor).head? = some (cursor.moveTo
      (cursor.position + (beforeColon.length + 1 + afterColon.length) + runLength blank rest)) := by
  have hcolon : line.drop (cursor.position + beforeColon.length) =
      .char ':' :: (afterColon ++ rest) := by
    rw [← List.drop_drop, hrest, List.drop_left]
  have hseparated : line.drop (cursor.position + beforeColon.length + 1) = afterColon ++ rest := by
    rw [← List.drop_drop, hcolon]
    rfl
  have hgap : (ways (.ofText line) gap cursor).head? =
      some (cursor.moveTo (cursor.position + beforeColon.length)) := by
    have hnone : ∀ rest, runLength blank (.char ':' :: rest) = 0 := fun rest => by
      simp [runLength, blank]
      rfl
    rw [head?_ways_gap, hrest, runLength_gap_append hbefore, hnone, Nat.add_zero]
  have hsign : (ways (.ofText line) (optional (letter ':'))
      (cursor.moveTo (cursor.position + beforeColon.length))).head? =
      some (cursor.moveTo (cursor.position + beforeColon.length + 1)) :=
    head?_ways_colon (by rw [Cursor.position_moveTo, hcolon]; rfl)
  refine head?_ways_cons hgap (head?_ways_cons hsign ?_)
  rw [ways_ofList_singleton, head?_ways_gap, Cursor.position_moveTo, hseparated,
    runLength_gap_append hafter, Cursor.moveTo_moveTo]
  simp only [Nat.add_assoc]

/-- **The text is given back.**  Behind a tag the first way takes the separator, and then as text
what is left of the line without what may follow it.  An empty text stands behind all spaces and
tabs. -/
theorem head?_ways_tail {beforeColon afterColon trailer : Text} (hline : .char '\n' ∉ line)
    (hc : cursor.position ≤ line.length)
    (hrest : line.drop cursor.position =
      beforeColon ++ .char ':' :: (afterColon ++ (text ++ trailer)))
    (hbefore : IsGap beforeColon) (hafter : IsGap afterColon) (htext : IsContent text)
    (htrailer : trailer ∈ trailers) :
    ∃ last start, (ways (.ofText line) (ofList tail) cursor).head? = some last ∧
      last.group? 3 = some (start, start + text.length) ∧
      (line.drop start).take text.length = text := by
  obtain ⟨trailer', htrailer', hdrop⟩ := htext.exists_drop htrailer
  have hcolon := head?_ways_separator hrest hbefore hafter
  generalize hstart : cursor.position + (beforeColon.length + 1 + afterColon.length) +
    runLength blank (text ++ trailer) = start at hcolon
  have hleft : line.drop start = text ++ trailer' := by
    have hseparator : beforeColon ++ .char ':' :: (afterColon ++ (text ++ trailer)) =
        (beforeColon ++ .char ':' :: afterColon) ++ (text ++ trailer) := by simp
    have hlength : (beforeColon ++ .char ':' :: afterColon).length =
        beforeColon.length + 1 + afterColon.length := by
      rw [List.length_append, List.length_cons, Nat.add_assoc, Nat.add_comm 1]
    rw [← hstart, ← List.drop_drop, ← List.drop_drop, hrest, hseparator, ← hlength,
      List.drop_left, hdrop]
  have hle : start ≤ line.length := by
    have htotal := congrArg List.length hrest
    have hrun : runLength blank (text ++ trailer) ≤ (text ++ trailer).length :=
      (List.takeWhile_prefix _).length_le
    simp only [List.length_drop, List.length_append, List.length_cons] at htotal hrun
    omega
  have hcontent := @head?_ways_content _ (cursor.moveTo start) _ _ hline hleft htrailer'
    (fun _ hlt => htext.not_mem_trailers htrailer' hlt) hle
  refine ⟨_, start, head?_ways_append hcolon hcontent, Cursor.group?_captured _ 3 _, ?_⟩
  rw [hleft, List.take_left]

end Frame

end Marginalia
