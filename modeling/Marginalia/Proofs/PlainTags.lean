import Marginalia.Proofs.Openings
import Marginalia.Proofs.Precedence

/-!
# Where plain tags match

A search with the pattern of a plain tag finds the first position where the tag stands, in the sense
of `Frame.TagAt`: a comment is led up to the position, the name is spelled there, and no word goes
on behind it.  The search looks for the leftmost position where a comment opens and takes the ways
from there in the order of the frame; that this comes down to the first position of the tag rests on
three facts.  A way up to the tag can always be completed (`Frame.exists_mem_ways_tail`).  An
opening is made of signs and a tag begins with none, so from each opening there is one position to
go to (`Frame.Opens.stop_le`).  And for the same reason later openings lead to later positions.
-/

namespace Marginalia

namespace Text

variable {text : Text} {p : CodePoint}

/-- What is left when white space is dropped does not begin with white space. -/
theorem isBlank_of_head?_stripLeft (h : text.stripLeft.head? = some p) : p.isBlank = false := by
  have hnot := List.head?_dropWhile_not CodePoint.isBlank text
  rw [stripLeft] at h
  rw [h] at hnot
  exact hnot

/-- A stripped text begins with no white space. -/
theorem isBlank_of_head?_strip (h : text.strip.head? = some p) : p.isBlank = false := by
  have hbegins : text.strip <+: text.stripLeft := by
    have hsuffix : stripLeft text.stripLeft.reverse <:+ text.stripLeft.reverse :=
      List.dropWhile_suffix _
    simpa [strip] using List.reverse_prefix.2 hsuffix
  obtain ⟨rest, hrest⟩ := hbegins
  have hleft : text.stripLeft.head? = some p := by
    rw [← hrest, List.head?_append, h]
    rfl
  exact isBlank_of_head?_stripLeft hleft

/-- A stripped text ends with no white space. -/
theorem isBlank_of_getLast?_strip (h : text.strip.getLast? = some p) : p.isBlank = false := by
  rw [strip, List.getLast?_reverse] at h
  exact isBlank_of_head?_stripLeft h

end Text

namespace Frame

open Regex

variable {rule : CaseRule} {name line : Text} {first : CodePoint} {found : Match} {position : Nat}

/-- The name of a tag ends within its line. -/
theorem TagAt.le_length (h : TagAt rule name line position) (hf : name.head? = some first) :
    position + name.length ≤ line.length := by
  have hlength : ((line.drop position).take name.length).length = name.length :=
    List.Forall₂.length_eq h.spelled
  have hpos : name ≠ [] := by
    rintro rfl
    cases hf
  have := List.length_pos_iff.2 hpos
  rw [List.length_take, List.length_drop] at hlength
  omega

/-- Where a tag stands behind an opening, there is a way. -/
theorem exists_mem_ways (hline : .char '\n' ∉ line) (hf : name.head? = some first) {start : Nat}
    {done : Bool} (hopens : Opens line start position done) (htag : TagAt rule name line position) :
    ∃ after, after ∈ (pattern rule name).regex.ways (.ofText line) (.ofPosition start) := by
  obtain ⟨edge, hedge⟩ := exists_mem_ways_head hopens htag
  obtain ⟨other, -, -, htag', hposition, -, -⟩ := of_mem_ways_head hedge
  have hle_length : edge.position ≤ line.length := hposition ▸ htag'.le_length hf
  obtain ⟨after, hafter⟩ := exists_mem_ways_tail hline hle_length
  refine ⟨after, ?_⟩
  rw [pattern, regex, ways_ofList_append, List.mem_flatMap]
  exact ⟨edge, hedge, hafter⟩

/-- What a search finds: the first position of the tag, and the first way on from its edge. -/
theorem of_search_eq_some (hline : .char '\n' ∉ line) (hf : name.head? = some first)
    (hs : first ∉ signs) (h : (pattern rule name).search (.ofText line) = some found) :
    ∃ position done edge, Opens line found.start position done ∧ TagAt rule name line position ∧
      (∀ other, TagAt rule name line other → position ≤ other) ∧
      edge.position = position + name.length ∧
      (ways (.ofText line) (ofList tail) edge).head? = some found.last ∧
      found.group? 2 = some (position, position + name.length) ∧
      (found.group? 1).isSome = done := by
  obtain ⟨hfirst, hbefore⟩ := Pattern.search_eq_some h
  rw [pattern, regex, ways_ofList_append, List.head?_flatMap] at hfirst
  obtain ⟨edge, hedge, hlast⟩ := List.exists_of_findSome?_eq_some hfirst
  obtain ⟨position, done, hopens, htag, hposition, hgroup, hdone⟩ := of_mem_ways_head hedge
  have hkeeps : ∀ group, group ≠ 3 → found.group? group = edge.group? group := fun group hg =>
    group?_of_mem_ways_tail hline (hposition ▸ htag.le_length hf) hg (List.mem_of_head? hlast)
  refine ⟨position, done, edge, hopens, htag, fun other hother => ?_, hposition, hlast,
    hkeeps 2 (by decide) ▸ hgroup, hkeeps 1 (by decide) ▸ hdone⟩
  -- The opening of another tag does not come before the one that was found.
  have hle_length := hother.le_length hf
  obtain ⟨start, done', hopens'⟩ := (exists_opens_iff (by omega)).1 hother.led
  obtain ⟨after, hafter⟩ := exists_mem_ways hline hf hopens' hother
  have hstart : found.start ≤ start := by
    by_contra hlt
    have hsome := Pattern.isSome_matchAt_of_mem hafter
    rw [hbefore start (Nat.not_le.1 hlt)] at hsome
    cases hsome
  exact hopens.stop_le hother hf hs (hstart.trans hopens'.le)

/-- A search finds something where a tag stands. -/
theorem isSome_search_iff (hline : .char '\n' ∉ line) (hf : name.head? = some first)
    (hs : first ∉ signs) : ((pattern rule name).search (.ofText line)).isSome = true ↔
      ∃ position, TagAt rule name line position := by
  constructor
  · intro h
    obtain ⟨found, hfound⟩ := Option.isSome_iff_exists.1 h
    obtain ⟨position, -, -, -, htag, -⟩ := of_search_eq_some hline hf hs hfound
    exact ⟨position, htag⟩
  · rintro ⟨position, htag⟩
    have hle_length := htag.le_length hf
    obtain ⟨start, done, hopens⟩ := (exists_opens_iff (by omega)).1 htag.led
    obtain ⟨after, hafter⟩ := exists_mem_ways hline hf hopens htag
    exact Pattern.isSome_search_of_mem (by have := hopens.le; simp; omega) hafter

end Frame

namespace Vocabulary

open Marginalia.Frame

variable {caseSensitive : Bool} {tag : Tag} {first : CodePoint}

/-- A stripped name that begins with no mark begins with no sign. -/
theorem not_sign_of_strip {name : Text} (hf : name.strip.head? = some first) (hs : first ∉ marks) :
    first ∉ signs := by
  have hblank := Text.isBlank_of_head?_strip hf
  rw [signs, List.mem_append]
  rintro (hmark | hgap)
  · exact hs hmark
  · simp only [List.mem_cons, List.not_mem_nil, or_false] at hgap
    rcases hgap with rfl | rfl <;> exact absurd hblank (by decide)

/-- **Plain tags match where they stand.**  The pattern of a plain tag can be read, is kept for the
name by each vocabulary in which the tag is the last of its name, and matches a line exactly where
the tag stands: what the tag group takes begins at the first such position, and the done group takes
part exactly if two tildes stand right before it. -/
theorem plain_tag_matches (hplain : tag.IsPlain) (hf : tag.name.strip.head? = some first)
    (hs : first ∉ marks) :
    ∃ pattern, patternOf caseSensitive tag = .ok pattern ∧
      (∀ tags v, heir? tags tag.name = some tag → ofTags caseSensitive tags = .ok (v, none) →
        v.pattern? tag.name = some pattern) ∧
      ∀ line : Text, .char '\n' ∉ line →
        ((pattern.search (.ofText line)).isSome = true ↔
          ∃ position, TagAt (flags caseSensitive).rule tag.name.strip line position) ∧
        ∀ found, pattern.search (.ofText line) = some found →
          ∃ position stop, pattern.named? found Tag.tagGroup = some (position, stop) ∧
            TagAt (flags caseSensitive).rule tag.name.strip line position ∧
            (∀ other, TagAt (flags caseSensitive).rule tag.name.strip line other →
              position ≤ other) ∧
            ((pattern.named? found Tag.doneGroup).isSome = true ↔
              doneMark <:+ line.take position) := by
  have hname : tag.name.strip ≠ [] := by
    intro hnil
    rw [hnil] at hf
    cases hf
  -- The name begins with no mark, and with no blank since it is stripped: with none of the signs.
  have hsigns := not_sign_of_strip hf hs
  have hread := hplain.patternOf hname caseSensitive
  refine ⟨_, hread, fun tags v hheir hv => ?_, fun line hline => ⟨isSome_search_iff hline hf hsigns,
    fun found hfound => ?_⟩⟩
  · rw [pattern?_of_mem hv (of_heir?_eq_some hheir).1, hheir, Option.bind_some, own?, hread]
    rfl
  · obtain ⟨position, done, edge, hopens, htag, hleast, -, -, hgroup, hdone⟩ :=
      of_search_eq_some hline hf hsigns hfound
    refine ⟨position, _, hgroup, htag, hleast, ?_⟩
    rw [hopens.doneMark_suffix_iff, ← hdone]
    rfl

/-- A tag that is found in a comment within a comment, in another case and marked as done. -/
theorem plain_tag_matches_todo :
    ∃ pattern found, patternOf false { name := " TODO " } = .ok pattern ∧
      pattern.search (.ofText "/* see # ~~todo: x") = some found ∧
      TagAt (flags false).rule "TODO" "/* see # ~~todo: x" 11 ∧
      (pattern.named? found Tag.doneGroup).isSome = true := by
  have hplain : Tag.IsPlain { name := " TODO " } := rfl
  have hname : Text.strip " TODO " = "TODO" := by decide +kernel
  have hfirst : (Text.strip " TODO ").head? = some (.char 'T') := by decide +kernel
  have hmarks : .char 'T' ∉ marks := by decide
  have hline : .char '\n' ∉ ("/* see # ~~todo: x" : Text) := by decide +kernel
  have hruns : ((patternOf false { name := " TODO " }).toOption.bind fun pattern =>
      (pattern.search (.ofText "/* see # ~~todo: x")).bind fun found =>
        pattern.named? found Tag.tagGroup) = some (11, 15) := by decide +kernel
  obtain ⟨pattern, hread, -, hmatches⟩ := plain_tag_matches hplain hfirst hmarks
  rw [hread, Except.toOption, Option.bind_some, Option.bind_eq_some_iff] at hruns
  obtain ⟨found, hfound, hgroup⟩ := hruns
  obtain ⟨position, stop, hposition, htag, -, hdone⟩ := (hmatches _ hline).2 found hfound
  obtain ⟨rfl, rfl⟩ := Prod.mk.inj (Option.some.inj (hposition.symm.trans hgroup))
  exact ⟨pattern, found, hread, hfound, hname ▸ htag, hdone.2 (by decide +kernel)⟩

end Vocabulary

end Marginalia
