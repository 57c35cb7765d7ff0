import Marginalia.Proofs.ContainedTags
import Marginalia.Proofs.PatternLimits
import Marginalia.Proofs.Precedence

/-!
# When tags fail

A list of tags fails in one of two places.  No vocabulary is built from it if the first tag that has
a flaw has a pattern with a fault that is raised (`Vocabulary.ofTags_eq_error_iff`), and a text
fails if the first match on one of its lines has no tag or no text
(`Vocabulary.notesIn_eq_error_iff`).  The second cannot happen with bodies that are contained
(`Tag.Contained`): whatever such a pattern matches, the groups of the frame have taken part
(`Frame.named?_of_search`).
-/

namespace Marginalia

namespace Frame

open Regex

variable {caseSensitive : Bool} {tag : Regex} {group : Nat}

/-- The pattern of a steady tag is steady. -/
theorem isSteady_regex (h : tag.isSteady = true) : (regex tag).isSteady = true := by
  have hparts : (regex tag).isSteady = (tag.isSteady && true) := rfl
  rw [hparts, h, Bool.and_self]

theorem isSteady_word {rule : CaseRule} {name : Text} : (word rule name).isSteady = true := by
  refine isSteady_ofList.2 fun r hr => ?_
  obtain ⟨p, -, rfl⟩ := List.mem_map.1 hr
  rfl

/-- The pattern of a tag is steady only if the tag is. -/
theorem isSteady_of_regexAs (h : (regexAs tag group).isSteady = true) : tag.isSteady = true :=
  isSteady_ofList.1 h (.capture 2 tag) (by simp [head])

/-- The parts behind the tag remember the text and nothing else. -/
theorem avoids_behindTag {other : Nat} (hne : group ≠ other) :
    (ofList (edge :: (colon ++ contentAs group :: closing))).avoids other = true := by
  have hparts : (ofList (edge :: (colon ++ contentAs group :: closing))).avoids other =
      (((group != other) && true) && true) := rfl
  rw [hparts, bne_iff_ne.2 hne]
  rfl

/-- Whatever the frame of a contained body matches, the groups of the tag and the text took part. -/
theorem named?_of_search {body : Text} {pattern : Pattern}
    (hbody : isContained caseSensitive body = true)
    (hread : Pattern.read (Vocabulary.flags caseSensitive) (Tag.frame body) = .ok pattern)
    (hsteady : pattern.regex.isSteady = true) {subject : Subject} {found : Match}
    (h : pattern.search subject = some found) :
    (pattern.named? found Tag.tagGroup).isSome = true ∧
      (pattern.named? found Tag.textGroup).isSome = true := by
  obtain ⟨tag, group, havoids, hgroup, hregex, htag, htext⟩ := of_read_frame hbody hread
  have hway := List.mem_of_head? (Pattern.search_eq_some h).1
  rw [hregex] at hway hsteady
  rw [Pattern.named?, Pattern.named?, htag, htext]
  have htagPart : regexAs tag group = ofList ([leader, gap, optional (letter '@'),
      optional (.capture 1 tildes)] ++ .capture 2 tag ::
        (edge :: (colon ++ contentAs group :: closing))) :=
    rfl
  have htextPart : regexAs tag group =
      ofList ((head tag ++ colon) ++ contentAs group :: closing) := by
    rw [regexAs, List.append_assoc]
  have hsteadyTag := isSteady_of_regexAs hsteady
  refine ⟨?_, ?_⟩
  · rw [htagPart] at hway
    exact isSome_group?_of_mem_ways havoids hsteadyTag
      (avoids_behindTag (Nat.ne_of_gt hgroup)) rfl hway
  · rw [htextPart] at hway
    exact isSome_group?_of_mem_ways rfl rfl rfl rfl hway

end Frame

namespace Tag

variable {caseSensitive : Bool} {tag : Tag}

/-- A tag in whose body no number is too large for a repeat count, and whose parentheses can all be
nested within the frame. -/
structure Fits (tag : Tag) : Prop where
  counts : Pattern.countsFit tag.body = true
  opens : tag.body.count (.char '(') + 5 ≤ Pattern.Reader.nestingLimit

/-- A tag whose body stays in the group that the frame opens for it, and in whose pattern no
possessive repetition looks behind. -/
structure Contained (caseSensitive : Bool) (tag : Tag) : Prop where
  body : Frame.isContained caseSensitive tag.body = true
  steady : ∀ pattern, Vocabulary.patternOf caseSensitive tag = .ok pattern →
    pattern.regex.isSteady = true

/-- A plain tag has its pattern, unless its name is blank. -/
theorem IsPlain.patternOf_cases (h : tag.IsPlain) :
    Vocabulary.patternOf caseSensitive tag = .error .blankName ∨
      Vocabulary.patternOf caseSensitive tag =
        .ok (Frame.pattern (Vocabulary.flags caseSensitive).rule tag.name.strip) := by
  by_cases hname : tag.name.strip = []
  · exact .inl (if_pos (by simpa using hname))
  · exact .inr (h.patternOf hname caseSensitive)

/-- Plain tags are contained. -/
theorem IsPlain.contained (h : tag.IsPlain) : tag.Contained caseSensitive where
  body := h.body ▸ Frame.isContained_escape caseSensitive tag.name.strip
  steady := by
    intro pattern hpattern
    rcases h.patternOf_cases with hblank | hread
    · rw [hblank] at hpattern
      cases hpattern
    · rw [hread] at hpattern
      cases hpattern
      exact Frame.isSteady_regex Frame.isSteady_word

end Tag

namespace Vocabulary

variable {caseSensitive : Bool} {tags : List Tag} {v : Vocabulary} {path text : Text}

/-- A list of tags has a flaw if it begins with tags that have none and goes on with one that has
it. -/
def FirstFlaw (caseSensitive : Bool) (tags : List Tag) (flaw : Flaw) : Prop :=
  ∃ front tag rest, tags = front ++ tag :: rest ∧
    (∀ before ∈ front, ∃ pattern, patternOf caseSensitive before = .ok pattern) ∧
    patternOf caseSensitive tag = .error flaw

/-- The first tag has the flaw, or it has none and the flaw is the first of the rest. -/
theorem firstFlaw_cons {tag : Tag} {rest : List Tag} {flaw : Flaw} :
    FirstFlaw caseSensitive (tag :: rest) flaw ↔ patternOf caseSensitive tag = .error flaw ∨
      (∃ pattern, patternOf caseSensitive tag = .ok pattern) ∧
        FirstFlaw caseSensitive rest flaw := by
  constructor
  · rintro ⟨front, other, behind, hsplit, hfront, hother⟩
    cases front with
    | nil =>
        cases hsplit
        exact .inl hother
    | cons first front =>
        obtain ⟨rfl, rfl⟩ := List.cons.inj hsplit
        obtain ⟨hfirst, hfront⟩ := List.forall_mem_cons.1 hfront
        exact .inr ⟨hfirst, front, other, behind, rfl, hfront, hother⟩
  · rintro (hflaw | ⟨hok, front, other, behind, rfl, hfront, hother⟩)
    · exact ⟨[], tag, rest, rfl, fun _ h => (nomatch h), hflaw⟩
    · exact ⟨tag :: front, other, behind, rfl, List.forall_mem_cons.2 ⟨hok, hfront⟩, hother⟩

/-- The patterns of tags are read up to the first flaw. -/
theorem readPatterns_eq_error_iff (read : List (Text × Pattern)) {flaw : Flaw} :
    readPatterns caseSensitive read tags = .error flaw ↔ FirstFlaw caseSensitive tags flaw := by
  induction tags generalizing read with
  | nil =>
      refine ⟨fun h => (nomatch h), ?_⟩
      rintro ⟨front, tag, rest, hsplit, -⟩
      cases front <;> cases hsplit
  | cons tag rest ih =>
      rw [firstFlaw_cons]
      unfold readPatterns
      cases hp : patternOf caseSensitive tag with
      | ok pattern => simp [ih]
      | error other => simp

/-- Tags without a flaw are all read. -/
theorem exists_readPatterns (read : List (Text × Pattern))
    (h : ∀ tag ∈ tags, ∃ pattern, patternOf caseSensitive tag = .ok pattern) :
    ∃ patterns, readPatterns caseSensitive read tags = .ok patterns := by
  cases hread : readPatterns caseSensitive read tags with
  | ok patterns => exact ⟨patterns, rfl⟩
  | error flaw =>
      obtain ⟨front, tag, rest, rfl, -, hflaw⟩ := (readPatterns_eq_error_iff read).1 hread
      obtain ⟨pattern, hpattern⟩ := h tag (by simp)
      rw [hflaw] at hpattern
      cases hpattern

/-- A list of tags without a flaw is kept as it is. -/
theorem ofTags_of_forall (h : ∀ tag ∈ tags, ∃ pattern, patternOf caseSensitive tag = .ok pattern) :
    ∃ v, ofTags caseSensitive tags = .ok (v, none) ∧ v.tags = tags := by
  obtain ⟨patterns, hread⟩ := exists_readPatterns [] h
  exact ⟨{ caseSensitive, tags, patterns }, by rw [ofTags, hread], rfl⟩

/-- Building a vocabulary raises a fault exactly if it is the first flaw and one that is raised. -/
theorem ofTags_eq_error_iff {fault : Pattern.Fault} :
    ofTags caseSensitive tags = .error fault ↔
      FirstFlaw caseSensitive tags (.pattern fault) ∧ isRaised fault = true := by
  rw [← readPatterns_eq_error_iff []]
  unfold ofTags
  cases hread : readPatterns caseSensitive [] tags with
  | ok patterns => simp
  | error flaw =>
      cases flaw with
      | blankName => simp
      | pattern other =>
          by_cases hraised : isRaised other = true
          · simp only [hraised, if_true, Except.error.injEq, Flaw.pattern.injEq]
            exact ⟨fun h => ⟨h, h ▸ hraised⟩, fun h => h.1⟩
          · simp only [hraised, Bool.false_eq_true, if_false, Except.error.injEq,
              Flaw.pattern.injEq]
            refine ⟨fun h => (nomatch h), ?_⟩
            rintro ⟨rfl, h⟩
            exact absurd h hraised

/-- Whether a flaw is raised and not just reported. -/
def Flaw.isRaised : Flaw → Bool
  | .blankName => false
  | .pattern fault => Vocabulary.isRaised fault

/-- A list of tags with a flaw that is not raised gives an empty vocabulary. -/
theorem ofTags_of_firstFlaw {flaw : Flaw} (h : FirstFlaw caseSensitive tags flaw)
    (hraised : flaw.isRaised = false) :
    ofTags caseSensitive tags = .ok ({ caseSensitive }, some flaw) := by
  rw [ofTags, (readPatterns_eq_error_iff []).2 h]
  cases flaw with
  | blankName => rfl
  | pattern fault =>
      have hfault : isRaised fault = false := hraised
      simp only [hfault, Bool.false_eq_true, if_false]

/-- An empty vocabulary finds nothing. -/
theorem notesIn_empty (caseSensitive : Bool) (path text : Text) :
    ({ caseSensitive } : Vocabulary).notesIn path text = .ok [] := by
  have hlines (number : Nat) (lines : List Text) :
      ({ caseSensitive } : Vocabulary).notesInLines path number lines = .ok [] := by
    induction lines generalizing number with
    | nil => rfl
    | cons line rest ih => exact ih (number + 1)
  exact hlines 1 _

/-- A match makes no note. -/
def Failing (pattern : Pattern) (found : Match) : Prop :=
  pattern.named? found Tag.textGroup = none ∨ pattern.named? found Tag.tagGroup = none

/-- A match makes no note just if one of the two groups took no part in it. -/
theorem noteOf_eq_error_iff (path : Text) {number : Nat} {line tag : Text} {pattern : Pattern}
    {found : Match} :
    (∃ fault, noteOf path number line tag pattern found = .error fault) ↔
      Failing pattern found := by
  unfold noteOf Failing
  cases pattern.named? found Tag.textGroup <;> cases pattern.named? found Tag.tagGroup <;> simp

/-- The first match on a line makes no note. -/
def FailsOn (v : Vocabulary) (line : Text) : Prop :=
  ∃ tag pattern found, v.firstMatch (Subject.ofText line) v.tags = some (tag, pattern, found) ∧
    Failing pattern found

/-- Which match is the first one on a line does not depend on how it is found. -/
theorem failsOn_iff {line : Text} {tag : Tag} {pattern : Pattern} {found : Match}
    (h : v.firstMatch (Subject.ofText line) v.tags = some (tag, pattern, found)) :
    v.FailsOn line ↔ Failing pattern found := by
  unfold FailsOn
  rw [h]
  constructor
  · rintro ⟨tag, pattern, found, heq, hfails⟩
    cases heq
    exact hfails
  · exact fun hfails => ⟨tag, pattern, found, rfl, hfails⟩

/-- The notes of lines fail exactly if those of one line do. -/
theorem notesInLines_eq_error_iff (number : Nat) (lines : List Text) :
    (∃ fault, v.notesInLines path number lines = .error fault) ↔
      ∃ line ∈ lines, v.FailsOn line := by
  induction lines generalizing number with
  | nil => simp [notesInLines]
  | cons line rest ih =>
      have hcons : (∃ other ∈ line :: rest, v.FailsOn other) ↔
          v.FailsOn line ∨ ∃ other ∈ rest, v.FailsOn other := by simp
      rw [hcons, ← ih (number + 1), notesInLines]
      cases hfirst : v.firstMatch (Subject.ofText line) v.tags with
      | none =>
          have hline : ¬ v.FailsOn line := by
            rintro ⟨_, _, _, h, -⟩
            rw [hfirst] at h
            cases h
          exact ⟨.inr, fun h => h.resolve_left hline⟩
      | some first =>
          obtain ⟨tag, pattern, found⟩ := first
          dsimp only
          rw [failsOn_iff hfirst, ← noteOf_eq_error_iff path]
          cases noteOf path number line tag.name pattern found with
          | error fault => exact ⟨fun _ => .inl ⟨fault, rfl⟩, fun _ => ⟨fault, rfl⟩⟩
          | ok note =>
              cases v.notesInLines path (number + 1) rest with
              | error fault => exact ⟨fun _ => .inr ⟨fault, rfl⟩, fun _ => ⟨fault, rfl⟩⟩
              | ok notes =>
                  refine ⟨?_, ?_⟩
                  · rintro ⟨_, ⟨⟩⟩
                  · rintro (⟨_, ⟨⟩⟩ | ⟨_, ⟨⟩⟩)

/-- A text fails exactly if one of its lines does. -/
theorem notesIn_eq_error_iff :
    (∃ fault, v.notesIn path text = .error fault) ↔ ∃ line ∈ text.lines, v.FailsOn line :=
  notesInLines_eq_error_iff 1 text.lines

/-- A pattern that is kept is the pattern of a tag of the list. -/
theorem exists_tag_of_firstMatch (hv : ofTags caseSensitive tags = .ok (v, none))
    {subject : Subject} {tag : Tag} {pattern : Pattern} {found : Match}
    (h : v.firstMatch subject v.tags = some (tag, pattern, found)) :
    pattern.search subject = some found ∧
      ∃ other ∈ tags, patternOf caseSensitive other = .ok pattern := by
  rw [(of_ofTags hv).2, firstMatch_eq_firstBy, firstBy] at h
  obtain ⟨first, hfirst, hfound⟩ := List.exists_of_findSome?_eq_some h
  obtain ⟨kept, hkept, hfound⟩ := Option.bind_eq_some_iff.1 hfound
  obtain ⟨last, hsearch, heq⟩ := Option.map_eq_some_iff.1 hfound
  cases heq
  rw [pattern?_of_mem hv hfirst] at hkept
  obtain ⟨other, hother, hown⟩ := Option.bind_eq_some_iff.1 hkept
  refine ⟨hsearch, other, (of_heir?_eq_some hother).1, ?_⟩
  unfold own? at hown
  cases hpattern : patternOf caseSensitive other with
  | error flaw =>
      rw [hpattern] at hown
      cases hown
  | ok own =>
      rw [hpattern] at hown
      cases hown
      rfl

/-- The pattern of a tag is read from the frame around its body. -/
theorem read_of_patternOf {tag : Tag} {pattern : Pattern}
    (h : patternOf caseSensitive tag = .ok pattern) :
    Pattern.read (flags caseSensitive) (Tag.frame tag.body) = .ok pattern := by
  unfold patternOf at h
  split at h
  · cases h
  · cases hread : Pattern.read (flags caseSensitive) (Tag.frame tag.body) with
    | error fault =>
        rw [hread] at h
        cases h
    | ok read =>
        rw [hread] at h
        cases h
        rfl

/-- Contained tags never fail. -/
theorem not_failsOn (hv : ofTags caseSensitive tags = .ok (v, none))
    (hcontained : ∀ tag ∈ tags, tag.Contained caseSensitive) (line : Text) : ¬ v.FailsOn line := by
  rintro ⟨tag, pattern, found, hfirst, hfails⟩
  obtain ⟨hsearch, other, hother, hpattern⟩ := exists_tag_of_firstMatch hv hfirst
  have hother := hcontained other hother
  have hgroups := Frame.named?_of_search hother.body (read_of_patternOf hpattern)
    (hother.steady pattern hpattern) hsearch
  rcases hfails with hfails | hfails
  · rw [hfails] at hgroups
    cases hgroups.2
  · rw [hfails] at hgroups
    cases hgroups.1

/-- Plain tags, and others that fit, make no fault that is raised. -/
theorem isRaised_of_patternOf {tag : Tag} (htag : tag.IsPlain ∨ tag.Fits) {fault : Pattern.Fault}
    (h : patternOf caseSensitive tag = .error (.pattern fault)) : isRaised fault = false := by
  rcases htag with hplain | hfits
  · rcases hplain.patternOf_cases with hblank | hread
    · rw [hblank] at h
      cases h
    · rw [hread] at h
      cases h
  · unfold patternOf at h
    split at h
    · cases h
    · cases hread : Pattern.read (flags caseSensitive) (Tag.frame tag.body) with
      | error other =>
          rw [hread] at h
          cases h
          exact Frame.not_raised_of_read hfits.counts hfits.opens hread
      | ok pattern =>
          rw [hread] at h
          cases h

/-- **Every list of tags comes to one of three things.**  If its first flaw is raised, no vocabulary
is built; this does not happen if each tag is plain or fits.  With another first flaw the vocabulary
is empty and finds nothing in any text.  Without a flaw all tags are looked for, and a text fails
exactly if the first match on one of its lines has no text or no tag; no text fails if each tag is
plain or contained. -/
theorem tags_fail_iff (caseSensitive : Bool) (tags : List Tag) :
    (∀ fault, ofTags caseSensitive tags = .error fault ↔
        FirstFlaw caseSensitive tags (.pattern fault) ∧ isRaised fault = true) ∧
      ((∀ tag ∈ tags, tag.IsPlain ∨ tag.Fits) →
        ∃ v flaw?, ofTags caseSensitive tags = .ok (v, flaw?)) ∧
      (∀ flaw, FirstFlaw caseSensitive tags flaw → flaw.isRaised = false →
        ∃ v, ofTags caseSensitive tags = .ok (v, some flaw) ∧ v.isEmpty = true ∧
          ∀ path text, v.notesIn path text = .ok []) ∧
      ((∀ tag ∈ tags, ∃ pattern, patternOf caseSensitive tag = .ok pattern) →
        ∃ v, ofTags caseSensitive tags = .ok (v, none) ∧ v.tags = tags ∧
          (∀ path text, (∃ fault, v.notesIn path text = .error fault) ↔
            ∃ line ∈ text.lines, v.FailsOn line) ∧
          ((∀ tag ∈ tags, tag.IsPlain ∨ tag.Contained caseSensitive) →
            ∀ path text, ∃ notes, v.notesIn path text = .ok notes)) := by
  refine ⟨fun fault => ofTags_eq_error_iff, fun hfits => ?_, fun flaw hflaw hraised => ?_,
    fun hall => ?_⟩
  · -- A fault that is raised would be that of one of the tags, and none of them has such a one.
    cases hv : ofTags caseSensitive tags with
    | ok result => exact ⟨result.1, result.2, rfl⟩
    | error fault =>
        obtain ⟨⟨front, tag, rest, rfl, -, htag⟩, hraised⟩ := ofTags_eq_error_iff.1 hv
        rw [isRaised_of_patternOf (hfits tag (by simp)) htag] at hraised
        cases hraised
  · exact ⟨_, ofTags_of_firstFlaw hflaw hraised, rfl, notesIn_empty caseSensitive⟩
  · obtain ⟨v, hv, htags⟩ := ofTags_of_forall hall
    refine ⟨v, hv, htags, fun path text => notesIn_eq_error_iff, fun hcontained path text => ?_⟩
    have hcontained : ∀ tag ∈ tags, tag.Contained caseSensitive := fun tag htag =>
      (hcontained tag htag).elim Tag.IsPlain.contained id
    cases hnotes : v.notesIn path text with
    | ok notes => exact ⟨notes, rfl⟩
    | error fault =>
        obtain ⟨line, -, hfails⟩ := notesIn_eq_error_iff.1 ⟨fault, hnotes⟩
        exact absurd hfails (not_failsOn hv hcontained line)

/-- A plain tag, and a pattern with a choice and a repetition that is counted. -/
def counted : List Tag := [{ name := "TODO" }, written "BUGS?|(?:HA)\x7b1,3\x7dCK"]

/-- They are looked for in every text, and no text fails. -/
theorem tags_fail_iff_counted :
    (∀ tag ∈ counted, tag.IsPlain ∨ tag.Fits) ∧
      (∀ tag ∈ counted, tag.IsPlain ∨ tag.Contained true) ∧
      ∃ v, ofTags true counted = .ok (v, none) ∧ v.tags = counted ∧
        ∀ path text, ∃ notes, v.notesIn path text = .ok notes := by
  have hfits : ∀ tag ∈ counted, tag.IsPlain ∨ tag.Fits := by
    refine List.forall_mem_cons.2 ⟨.inl rfl, List.forall_mem_singleton.2 (.inr ⟨?_, ?_⟩)⟩
    · decide +kernel
    · decide +kernel
  have hread : ∀ tag ∈ counted, (patternOf true tag).toOption.any (·.regex.isSteady) = true := by
    decide +kernel
  have hcontained : ∀ tag ∈ counted, tag.IsPlain ∨ tag.Contained true := by
    refine List.forall_mem_cons.2 ⟨.inl rfl, List.forall_mem_singleton.2 (.inr ⟨?_, ?_⟩)⟩
    · decide +kernel
    · intro pattern hpattern
      have hsteady := hread _ (List.mem_cons_of_mem _ (List.mem_singleton_self _))
      rwa [hpattern] at hsteady
  have hall : ∀ tag ∈ counted, ∃ pattern, patternOf true tag = .ok pattern := by
    intro tag htag
    have hsome := hread tag htag
    cases hpattern : patternOf true tag with
    | ok pattern => exact ⟨pattern, rfl⟩
    | error flaw =>
        rw [hpattern] at hsome
        cases hsome
  obtain ⟨-, -, -, hkept⟩ := tags_fail_iff true counted
  obtain ⟨v, hv, htags, -, hnever⟩ := hkept hall
  exact ⟨hfits, hcontained, v, hv, htags, hnever hcontained⟩

/-- A pattern with a repeat count that is too large is raised, and a pattern that closes the group
it stands in makes the marked line fail. -/
theorem tags_can_fail :
    (∃ fault, ofTags true [written "a\x7b4294967295\x7d"] = .error fault) ∧
      ∃ v, ofTags true [written "A)|(?:B"] = .ok (v, none) ∧
        ∃ fault, v.notesIn "a.py" markedLine = .error fault := by
  have hcount : (ofTags true [written "a\x7b4294967295\x7d"]).toOption = none := by decide +kernel
  have hline : onMarkedLine [written "A)|(?:B"] = some (none, none) := by decide +kernel
  refine ⟨?_, ?_⟩
  · cases hv : ofTags true [written "a\x7b4294967295\x7d"] with
    | error fault => exact ⟨fault, rfl⟩
    | ok result =>
        rw [hv] at hcount
        cases hcount
  · unfold onMarkedLine at hline
    cases hv : ofTags true [written "A)|(?:B"] with
    | error fault => simp [hv, Except.toOption] at hline
    | ok result =>
        obtain ⟨v, flaw?⟩ := result
        cases hn : v.notesIn "a.py" markedLine with
        | error fault =>
            obtain rfl : flaw? = none := by simpa [hv, hn, Except.toOption] using hline
            exact ⟨v, rfl, fault, hn⟩
        | ok found => simp [hv, hn, Except.toOption] at hline

end Vocabulary

end Marginalia
