import Marginalia.Proofs.Frame
import Marginalia.Proofs.Letters
import Marginalia.Proofs.Words

/-!
# What stands before and behind a tag

The parts of the frame around a tag, as languages: what opens a comment (`Frame.IsOpening`) and what
closes it (`Frame.IsCloser`), with the ways that the frame's pattern has through them.  Up to the
edge of a tag the ways from a position are the openings there that lead to the tag
(`Frame.of_mem_ways_head`, `Frame.exists_mem_ways_head`).  Behind it they divide the rest of the
line into a separator, a text and what may follow the text (`Frame.mem_ways_tail`), and there always
is one.

`Frame.TagAt` says where a tag stands on a line without any search, and `Frame.Opens.stop_le` is
what the search rests on: an opening is made of signs only, so that a tag that begins with none
stands behind it or before it, but not within.
-/

namespace Marginalia

namespace Frame

/-! ## What stands before a tag -/

/-- The code points with which leaders begin. -/
def leaderSigns : Text := ['/', '*', '#', '<', '-', ';', '%'].map .char

/-- The code points of which openings are made, beside spaces and tabs. -/
def marks : Text := ['/', '*', '#', '<', '!', '-', ';', '%', '@', '~'].map .char

/-- The code points of which openings are made. -/
def signs : Text := marks ++ [.char ' ', .char '\t']

/-- What leads a comment. -/
inductive IsLeader : Text → Prop
  | block (stars : Nat) : IsLeader (.char '/' :: .replicate (stars + 1) (.char '*'))
  | slashes (more : Nat) : IsLeader (.replicate (more + 2) (.char '/'))
  | hashes (more : Nat) : IsLeader (.replicate (more + 1) (.char '#'))
  | markup : IsLeader [.char '<', .char '!', .char '-', .char '-']
  | dashes (more : Nat) : IsLeader (.replicate (more + 2) (.char '-'))
  | semicolons (more : Nat) : IsLeader (.replicate (more + 1) (.char ';'))
  | percents (more : Nat) : IsLeader (.replicate (more + 1) (.char '%'))
  | star : IsLeader [.char '*']

/-- Spaces and tabs. -/
def IsGap (text : Text) : Prop := ∀ p ∈ text, p = .char ' ' ∨ p = .char '\t'

/-- A text that may be missing. -/
def given (present : Bool) (text : Text) : Text := if present then text else []

/-- Two tildes mark what is done. -/
def doneMark : Text := [.char '~', .char '~']

/-- A leader, a gap, perhaps an at sign, and perhaps the mark of what is done. -/
inductive IsOpening : (opening : Text) → (done : Bool) → Prop
  | intro {leader gap : Text} (sign done : Bool) (hleader : IsLeader leader) (hgap : IsGap gap) :
      IsOpening (leader ++ gap ++ given sign [.char '@'] ++ given done doneMark) done

variable {text : Text} {done : Bool} {p : CodePoint}

/-- A leader is made of signs, and has no tilde. -/
theorem IsLeader.mem_signs (h : IsLeader text) (hp : p ∈ text) : p ∈ signs ∧ p ≠ .char '~' := by
  cases h with
  | block stars =>
      rcases List.mem_cons.1 hp with rfl | hp
      · decide
      · rw [List.eq_of_mem_replicate hp]
        decide
  | markup =>
      simp only [List.mem_cons, List.not_mem_nil, or_false] at hp
      rcases hp with rfl | rfl | rfl | rfl <;> decide
  | star =>
      rw [List.mem_singleton.1 hp]
      decide
  | _ =>
      rw [List.eq_of_mem_replicate hp]
      decide

/-- A leader is not empty, and its first sign is one of a few. -/
theorem IsLeader.exists_cons (h : IsLeader text) :
    ∃ first rest, text = first :: rest ∧ first ∈ leaderSigns := by
  cases h <;> exact ⟨_, _, rfl, by decide⟩

/-- So is a gap. -/
theorem IsGap.mem_signs (h : IsGap text) (hp : p ∈ text) : p ∈ signs ∧ p ≠ .char '~' := by
  rcases h p hp with rfl | rfl <;> decide

/-- What is given if it is present is there only then. -/
theorem mem_of_mem_given {present : Bool} (hp : p ∈ given present text) : p ∈ text := by
  cases present with
  | false => cases hp
  | true => exact hp

/-- An opening is made of signs. -/
theorem IsOpening.mem_signs (h : IsOpening text done) (hp : p ∈ text) : p ∈ signs := by
  obtain ⟨sign, done, hleader, hgap⟩ := h
  simp only [List.mem_append] at hp
  rcases hp with ((hp | hp) | hp) | hp
  · exact (hleader.mem_signs hp).1
  · exact (hgap.mem_signs hp).1
  · rw [List.mem_singleton.1 (mem_of_mem_given hp)]
    decide
  · have hmark : ∀ p ∈ doneMark, p ∈ signs := by decide
    exact hmark p (mem_of_mem_given hp)

/-- An opening begins with a leader. -/
theorem IsOpening.exists_cons (h : IsOpening text done) :
    ∃ first rest, text = first :: rest ∧ first ∈ leaderSigns := by
  obtain ⟨sign, -, hleader, hgap⟩ := h
  obtain ⟨first, rest, rfl, hfirst⟩ := hleader.exists_cons
  exact ⟨first, _, rfl, hfirst⟩

/-- The mark of what is done can be told from what stands right before the tag. -/
theorem IsOpening.doneMark_suffix_iff (h : IsOpening text done) (front : Text) :
    doneMark <:+ front ++ text ↔ done = true := by
  cases done with
  | true =>
      refine iff_of_true ?_ rfl
      obtain ⟨sign, -, hleader, hgap⟩ := h
      exact (List.suffix_append _ _).trans (List.suffix_append _ _)
  | false =>
      refine iff_of_false (fun hsuffix => ?_) Bool.false_ne_true
      obtain ⟨first, rest, htext, -⟩ := h.exists_cons
      -- The last code point of the opening is a tilde then, but none of its parts has one.
      have hlast : (front ++ text).getLast? = some (.char '~') := by
        obtain ⟨before, hbefore⟩ := hsuffix
        rw [← hbefore]
        exact List.getLast?_append_of_ne_nil _ (List.cons_ne_nil _ _)
      rw [List.getLast?_append_of_ne_nil _ (htext ▸ List.cons_ne_nil _ _)] at hlast
      have hmem := List.mem_of_getLast? hlast
      obtain ⟨sign, -, hleader, hgap⟩ := h
      simp only [List.mem_append] at hmem
      rcases hmem with ((hp | hp) | hp) | hp
      · exact (hleader.mem_signs hp).2 rfl
      · exact (hgap.mem_signs hp).2 rfl
      · exact absurd (mem_of_mem_given hp) (by decide)
      · cases hp

/-! ## Languages of the parts -/

/-- The leaders of comments. -/
def leaders : Language CodePoint := {word | IsLeader word}

/-- The runs of spaces and tabs. -/
def gaps : Language CodePoint := {word | IsGap word}

/-- The runs of a letter of at least some length. -/
def runs (least : Nat) (c : Char) : Language CodePoint :=
  {word | ∃ count, least ≤ count ∧ word = .replicate count (.char c)}

/-- A text, or nothing. -/
def maybe (text : Text) : Language CodePoint := {word | ∃ present, word = given present text}

/-- The texts that spell a name. -/
def spellings (rule : CaseRule) (name : Text) : Language CodePoint :=
  {written | List.Forall₂ (fun p q => rule.Same p.code q.code) written name}

open Regex

variable {line : Text} {rule : CaseRule}

/-- Code points are told apart by their numbers. -/
theorem code_eq_iff {p : CodePoint} (c : Char) : p.code = c.toNat ↔ p = .char c :=
  ⟨fun h => CodePoint.code_injective h, fun h => h ▸ rfl⟩

/-- A letter without regard to case is passed by itself alone. -/
theorem passes_letter {c : Char} {p : CodePoint} :
    (Symbols.oneOf .exact [c.toNat] false).passes p = true ↔ p = .char c := by
  rw [← code_eq_iff]
  simp [Symbols.passes, Symbols.accepts, CaseRule.lower]

/-- Spaces and tabs are passed, and nothing else. -/
theorem passes_blank {p : CodePoint} :
    blank.passes p = true ↔ p = .char ' ' ∨ p = .char '\t' := by
  have hone : ∀ code, code ≤ SetItem.basicPlane →
      (SetItem.one code).holds .exact false p.code = decide (p.code = code) := fun code hle => by
    simp [SetItem.holds, Nat.not_lt.2 hle, CaseRule.variants, eq_comm]
  rw [← code_eq_iff, ← code_eq_iff]
  simp only [Symbols.passes, blank, Symbols.accepts, CaseRule.lower, id, List.any_cons,
    List.any_nil, hone 32 (by decide), hone 9 (by decide)]
  simp

/-- The edge of a tag is told by what makes up words. -/
theorem passes_word {p : CodePoint} :
    (Symbols.set .exact false [.category .word false] false).passes p = Unicode.isWord p.code := by
  simp [Symbols.passes, Symbols.accepts, SetItem.holds, Category.holds, CaseRule.lower]

/-- All but a line feed is passed. -/
theorem passes_notNewline {p : CodePoint} :
    Symbols.notNewline.passes p = true ↔ p ≠ .char '\n' := by
  rw [Ne, ← code_eq_iff]
  simp [Symbols.passes, Symbols.accepts]

/-- A letter takes itself. -/
theorem takes_letter (line : Text) (c : Char) : Takes line (letter c) {[.char c]} := by
  refine (takes_symbol line _).congr fun word => ?_
  constructor
  · rintro ⟨p, hp, rfl⟩
    rw [passes_letter.1 hp]
    rfl
  · rintro rfl
    exact ⟨_, passes_letter.2 rfl, rfl⟩

/-- Letters in a row. -/
theorem takes_letters (line : Text) (letters : List Char) :
    Takes line (ofList (letters.map letter)) {letters.map .char} := by
  induction letters with
  | nil => exact (takes_empty line).congr fun word => Language.mem_one word
  | cons c letters ih =>
      refine ((takes_letter line c).seq ih).congr fun word => ?_
      rw [Language.mem_mul]
      constructor
      · rintro ⟨-, rfl, -, rfl, rfl⟩
        rfl
      · rintro rfl
        exact ⟨_, rfl, _, rfl, rfl⟩

/-- A repeated letter takes its runs. -/
theorem takes_many (line : Text) (least : Nat) (c : Char) :
    Takes line (many least c) (runs least c) := by
  refine (takes_loop_greedy line _ least).congr fun word => ?_
  constructor
  · rintro ⟨hleast, hall⟩
    exact ⟨word.length, hleast, List.eq_replicate_iff.2
      ⟨rfl, fun p hp => passes_letter.1 (hall p hp)⟩⟩
  · rintro ⟨count, hleast, rfl⟩
    refine ⟨by simpa using hleast, fun p hp => ?_⟩
    exact passes_letter.2 (List.eq_of_mem_replicate hp)

/-- A gap takes spaces and tabs, and may take none. -/
theorem takes_gap (line : Text) : Takes line gap gaps := by
  refine (takes_loop_greedy line _ 0).congr fun word => ?_
  simp only [repeated, Nat.zero_le, true_and, passes_blank]
  rfl

/-- A part that may be missing. -/
theorem takes_given {part : Regex} {text : Text} (h : Takes line part {text}) :
    Takes line (optional part) (maybe text) := by
  refine h.optional.congr fun word => ?_
  rw [Language.mem_add, Language.mem_one]
  constructor
  · rintro (rfl | rfl)
    · exact ⟨true, rfl⟩
    · exact ⟨false, rfl⟩
  · rintro ⟨present, rfl⟩
    cases present
    · exact .inr rfl
    · exact .inl rfl

/-- **Leaders.**  What leads a comment takes the leaders of the grammar and nothing else. -/
theorem takes_leader (line : Text) : Takes line leader leaders := by
  have hmany := fun (least : Nat) (c : Char) => Takes.ofList_singleton (takes_many line least c)
  have hblock := (takes_letter line '/').seq (hmany 1 '*')
  refine (hblock.alt ((hmany 2 '/').alt ((hmany 1 '#').alt
    ((takes_letters line ['<', '!', '-', '-']).alt ((hmany 2 '-').alt ((hmany 1 ';').alt
      ((hmany 1 '%').alt (takes_letters line ['*'])))))))).congr fun word => ?_
  simp only [Language.mem_add]
  constructor
  · rintro (⟨-, rfl, -, ⟨count, hcount, rfl⟩, rfl⟩ | ⟨count, hcount, rfl⟩ | ⟨count, hcount, rfl⟩ |
      rfl | ⟨count, hcount, rfl⟩ | ⟨count, hcount, rfl⟩ | ⟨count, hcount, rfl⟩ | rfl)
    · obtain ⟨stars, rfl⟩ := Nat.exists_eq_add_of_le' hcount
      exact .block stars
    · obtain ⟨more, rfl⟩ := Nat.exists_eq_add_of_le' hcount
      exact .slashes more
    · obtain ⟨more, rfl⟩ := Nat.exists_eq_add_of_le' hcount
      exact .hashes more
    · exact .markup
    · obtain ⟨more, rfl⟩ := Nat.exists_eq_add_of_le' hcount
      exact .dashes more
    · obtain ⟨more, rfl⟩ := Nat.exists_eq_add_of_le' hcount
      exact .semicolons more
    · obtain ⟨more, rfl⟩ := Nat.exists_eq_add_of_le' hcount
      exact .percents more
    · exact .star
  · intro h
    cases h with
    | block stars => exact .inl ⟨_, rfl, _, ⟨stars + 1, by omega, rfl⟩, rfl⟩
    | slashes more => exact .inr (.inl ⟨more + 2, by omega, rfl⟩)
    | hashes more => exact .inr (.inr (.inl ⟨more + 1, by omega, rfl⟩))
    | markup => exact .inr (.inr (.inr (.inl rfl)))
    | dashes more => exact .inr (.inr (.inr (.inr (.inl ⟨more + 2, by omega, rfl⟩))))
    | semicolons more => exact .inr (.inr (.inr (.inr (.inr (.inl ⟨more + 1, by omega, rfl⟩)))))
    | percents more =>
        exact .inr (.inr (.inr (.inr (.inr (.inr (.inl ⟨more + 1, by omega, rfl⟩))))))
    | star => exact .inr (.inr (.inr (.inr (.inr (.inr (.inr rfl))))))

/-- The mark takes two tildes. -/
theorem takes_tildes (line : Text) : Takes line tildes {doneMark} := takes_letters line ['~', '~']

/-- A tag takes its spellings, under the rule for case. -/
theorem takes_word (line : Text) (rule : CaseRule) (name : Text) :
    Takes line (word rule name) (spellings rule name) := by
  induction name with
  | nil =>
      refine (takes_empty line).congr fun written => ?_
      rw [Language.mem_one]
      exact List.forall₂_nil_right_iff.symm
  | cons q name ih =>
      refine ((takes_symbol line _).seq ih).congr fun written => ?_
      rw [Language.mem_mul]
      constructor
      · rintro ⟨-, ⟨p, hp, rfl⟩, written, hwritten, rfl⟩
        exact .cons ((Symbols.accepts_literal rule _ _).1 hp) hwritten
      · intro h
        obtain ⟨p, written, hp, hwritten, rfl⟩ := List.forall₂_cons_right_iff.1 h
        exact ⟨_, ⟨p, (Symbols.accepts_literal rule _ _).2 hp, rfl⟩, written, hwritten, rfl⟩

/-! ## Ways up to the edge of a tag -/

variable {name : Text} {start : Nat} {after : Cursor}

/-- The leaders with what can stand between them and the mark of what is done. -/
def leads : Language CodePoint := leaders * (gaps * maybe [.char '@'])

/-- Before the mark there are a leader, a gap, and perhaps a sign. -/
theorem takes_lead (line : Text) :
    Takes line (ofList [leader, gap, optional (letter '@')]) leads :=
  (takes_leader line).seq ((takes_gap line).seq
    (Takes.ofList_singleton (takes_given (takes_letter line '@'))))

/-- An opening is a lead, and perhaps the mark of what is done. -/
theorem isOpening_iff {opening : Text} {done : Bool} :
    IsOpening opening done ↔ ∃ lead ∈ leads, opening = lead ++ given done doneMark := by
  simp only [leads, Language.mem_mul]
  constructor
  · rintro ⟨sign, -, hleader, hgap⟩
    exact ⟨_, ⟨_, hleader, _, ⟨_, hgap, _, ⟨sign, rfl⟩, rfl⟩, rfl⟩, by simp⟩
  · rintro ⟨-, ⟨leader, hleader, -, ⟨gap, hgap, -, ⟨sign, rfl⟩, rfl⟩, rfl⟩, rfl⟩
    have h := IsOpening.intro sign done hleader hgap
    rwa [List.append_assoc leader] at h

/-- The cursor behind the mark of what is done, if it is there. -/
def marked (cursor : Cursor) (done : Bool) : Cursor := if done then cursor.captured 1 2 else cursor

/-- The cursor stands behind the mark, if there is one. -/
theorem position_marked (cursor : Cursor) (done : Bool) :
    (marked cursor done).position = cursor.position + (given done doneMark).length := by
  cases done <;> rfl

/-- The mark is taken or left out, and what was captured tells which. -/
theorem mem_ways_mark {cursor : Cursor} :
    after ∈ ways (.ofText line) (optional (.capture 1 tildes)) cursor ↔
      ∃ done, given done doneMark <+: line.drop cursor.position ∧ after = marked cursor done := by
  rw [optional, ways_optional, List.mem_append, List.mem_singleton,
    (takes_tildes line).mem_ways_capture]
  constructor
  · rintro (⟨-, rfl, hbegins, rfl⟩ | rfl)
    · exact ⟨true, hbegins, rfl⟩
    · exact ⟨false, List.nil_prefix, rfl⟩
  · rintro ⟨done, hbegins, rfl⟩
    cases done
    · exact .inr rfl
    · exact .inl ⟨_, rfl, hbegins, rfl⟩

/-- The edge of a tag is where no word goes on. -/
theorem ways_edge (line : Text) (cursor : Cursor) : ways (.ofText line) edge cursor =
    if (line.drop cursor.position).head?.any (Unicode.isWord ·.code) then [] else [cursor] := by
  have hword : (fun p => Unicode.isWord (CodePoint.code p)) =
      (Symbols.set .exact false [.category .word false] false).passes :=
    funext fun p => passes_word.symm
  rw [hword, edge, ways, ways_ofList_singleton, ways_symbol]
  cases Option.any _ (line.drop cursor.position).head? <;> rfl

/-- The ways up to the edge of a tag: an opening and the name, where no word goes on behind it. -/
theorem mem_ways_head :
    after ∈ ways (.ofText line) (ofList (head (word rule name))) (.ofPosition start) ↔
      ∃ lead ∈ leads, ∃ done, ∃ written ∈ spellings rule name,
        (lead ++ given done doneMark) ++ written <+: line.drop start ∧
        (∀ p ∈ (line.drop (start + (lead ++ given done doneMark).length + written.length)).head?,
          Unicode.isWord p.code = false) ∧
        after = (marked (.ofPosition (start + lead.length)) done).captured 2 written.length := by
  have hsplit : head (word rule name) = [leader, gap, optional (letter '@')] ++
      [optional (.capture 1 tildes), .capture 2 (word rule name), edge] := rfl
  have hlast : ∀ cursor, after ∈ ways (.ofText line) (ofList [edge]) cursor ↔
      (∀ p ∈ (line.drop cursor.position).head?, Unicode.isWord p.code = false) ∧
        after = cursor := by
    intro cursor
    rw [ways_ofList_singleton, ways_edge]
    cases (line.drop cursor.position).head? with
    | none => simp
    | some p => by_cases h : Unicode.isWord p.code = true <;> simp [h]
  rw [hsplit, ways_ofList_append, List.mem_flatMap]
  simp only [ways_ofList_cons (optional (capture 1 tildes)), ways_ofList_cons (capture 2 _),
    List.mem_flatMap, mem_ways_mark, (takes_word line rule name).mem_ways_capture, hlast]
  constructor
  · rintro ⟨led, hled, -, ⟨done, hdone, rfl⟩, -, ⟨written, hwritten, hspelled, rfl⟩, hend, rfl⟩
    obtain ⟨lead, hlead, hbegins, rfl⟩ := (takes_lead line _ _).1 hled
    simp only [Cursor.moveTo_ofPosition, Cursor.position_ofPosition, position_marked,
      Cursor.position_captured] at hbegins hdone hspelled hend ⊢
    refine ⟨lead, hlead, done, written, hwritten, ?_, ?_, rfl⟩
    · refine append_prefix_iff.2 ⟨append_prefix_iff.2 ⟨hbegins, ?_⟩, ?_⟩
      · rwa [List.drop_drop]
      · rwa [List.drop_drop, List.length_append, ← Nat.add_assoc]
    · rwa [List.length_append, ← Nat.add_assoc]
  · rintro ⟨lead, hlead, done, written, hwritten, hbegins, hend, rfl⟩
    obtain ⟨hopening, hspelled⟩ := append_prefix_iff.1 hbegins
    obtain ⟨hbegins, hdone⟩ := append_prefix_iff.1 hopening
    rw [List.drop_drop] at hdone hspelled
    rw [List.length_append, ← Nat.add_assoc] at hspelled hend
    refine ⟨_, (takes_lead line _ _).2 ⟨lead, hlead, hbegins, rfl⟩, _, ⟨done, hdone, rfl⟩, _,
      ⟨written, hwritten, ?_, rfl⟩, ?_, rfl⟩
    · rw [position_marked]
      exact hspelled
    · rw [Cursor.position_captured, position_marked]
      exact hend

/-- A tag on a line: its name is spelled there, no word goes on behind it, and a comment is led up
to it. -/
structure TagAt (rule : CaseRule) (name line : Text) (position : Nat) : Prop where
  spelled : (line.drop position).take name.length ∈ spellings rule name
  ends : ∀ p ∈ (line.drop (position + name.length)).head?, Unicode.isWord p.code = false
  led : ∃ front opening done, IsOpening opening done ∧ line.take position = front ++ opening

/-- An opening that stretches from one position of a line to another. -/
structure Opens (line : Text) (start stop : Nat) (done : Bool) : Prop where
  opening : IsOpening ((line.take stop).drop start) done
  le : start ≤ stop
  le_length : stop ≤ line.length

variable {stop : Nat} {done : Bool}

/-- An opening that a line has at a position. -/
theorem opens_of_prefix {opening : Text} (h : IsOpening opening done)
    (hbegins : opening <+: line.drop start) : Opens line start (start + opening.length) done := by
  have hlength : opening.length ≤ line.length - start := by
    simpa using hbegins.length_le
  have hpos : 0 < opening.length := by
    obtain ⟨first, rest, rfl, -⟩ := h.exists_cons
    exact Nat.succ_pos _
  refine ⟨?_, Nat.le_add_right _ _, by omega⟩
  rw [List.drop_take, Nat.add_sub_cancel_left, ← List.prefix_iff_eq_take.1 hbegins]
  exact h

/-- A comment is led up to a position if an opening stretches up to there. -/
theorem exists_opens_iff (hlength : stop ≤ line.length) :
    (∃ front opening done, IsOpening opening done ∧ line.take stop = front ++ opening) ↔
      ∃ start done, Opens line start stop done := by
  constructor
  · rintro ⟨front, opening, done, hopening, htake⟩
    have hstop : stop = front.length + opening.length := by
      rw [← List.length_append, ← htake, List.length_take, Nat.min_eq_left hlength]
    refine ⟨front.length, done, ?_, by omega, hlength⟩
    rw [htake, List.drop_left]
    exact hopening
  · rintro ⟨start, done, hopens⟩
    exact ⟨(line.take stop).take start, _, done, hopens.opening, (List.take_append_drop _ _).symm⟩

/-- The groups of a cursor that has taken a tag. -/
theorem group?_marked (position length : Nat) (done : Bool) :
    ((marked (.ofPosition position) done).captured 2 length).group? 2 =
        some (position + (given done doneMark).length,
          position + (given done doneMark).length + length) ∧
      (((marked (.ofPosition position) done).captured 2 length).group? 1).isSome = done := by
  rw [Cursor.group?_captured, position_marked, Cursor.group?_captured_of_ne _ (by decide)]
  refine ⟨rfl, ?_⟩
  cases done with
  | false => rfl
  | true => rw [marked, if_pos rfl, Cursor.group?_captured]; rfl

/-- What is behind the edge of a tag knows where the tag is and whether it is done. -/
theorem of_mem_ways_head
    (h : after ∈ ways (.ofText line) (ofList (head (word rule name))) (.ofPosition start)) :
    ∃ position done, Opens line start position done ∧ TagAt rule name line position ∧
      after.position = position + name.length ∧
      after.group? 2 = some (position, position + name.length) ∧
      (after.group? 1).isSome = done := by
  obtain ⟨lead, hlead, done, written, hwritten, hbegins, hend, rfl⟩ := mem_ways_head.1 h
  obtain ⟨hopening, hspelled⟩ := append_prefix_iff.1 hbegins
  have hopens := opens_of_prefix (isOpening_iff.2 ⟨lead, hlead, rfl⟩) hopening
  have hlength : written.length = name.length := List.Forall₂.length_eq hwritten
  have hgroups := group?_marked (start + lead.length) written.length done
  rw [List.drop_drop] at hspelled
  rw [List.length_append, ← Nat.add_assoc] at hopens hspelled hend
  rw [hlength] at hgroups hend ⊢
  refine ⟨_, done, hopens, ⟨?_, hend, ?_⟩, ?_, hgroups.1, hgroups.2⟩
  · rw [← hlength, ← List.prefix_iff_eq_take.1 hspelled]
    exact hwritten
  · exact (exists_opens_iff hopens.le_length).2 ⟨start, done, hopens⟩
  · rw [Cursor.position_captured, position_marked, Cursor.position_ofPosition]

/-- There is a way up to the edge of a tag from where its comment opens. -/
theorem exists_mem_ways_head {position : Nat} (hopens : Opens line start position done)
    (htag : TagAt rule name line position) :
    ∃ after, after ∈ ways (.ofText line) (ofList (head (word rule name))) (.ofPosition start) := by
  obtain ⟨lead, hlead, hopening⟩ := isOpening_iff.1 hopens.opening
  have hposition : position = start + (lead ++ given done doneMark).length := by
    have hle := hopens.le
    have hle' := hopens.le_length
    rw [← hopening, List.length_drop, List.length_take]
    omega
  have hlength : ((line.drop position).take name.length).length = name.length :=
    List.Forall₂.length_eq htag.spelled
  refine ⟨_, mem_ways_head.2 ⟨lead, hlead, done, _, htag.spelled, ?_, ?_, rfl⟩⟩
  · refine append_prefix_iff.2 ⟨?_, ?_⟩
    · rw [← hopening, List.drop_take]
      exact List.take_prefix _ _
    · rw [List.drop_drop, ← hposition]
      exact List.take_prefix _ _
  · rw [← hposition, hlength]
    exact htag.ends

/-! ## Where a tag can stand -/

/-- An opening starts with the sign of a leader. -/
theorem Opens.exists_leaderSign (h : Opens line start stop done) :
    ∃ p ∈ leaderSigns, (line.drop start).head? = some p := by
  obtain ⟨first, rest, hcons, hfirst⟩ := h.opening.exists_cons
  refine ⟨first, hfirst, ?_⟩
  have hlt : start < stop := by
    have hlength := congrArg List.length hcons
    simp only [List.length_drop, List.length_take, List.length_cons] at hlength
    omega
  rw [List.head?_drop, ← List.getElem?_take_of_lt hlt, ← List.head?_drop, hcons]
  rfl

/-- The mark of what is done can be told from what stands right before the tag. -/
theorem Opens.doneMark_suffix_iff (h : Opens line start stop done) :
    doneMark <:+ line.take stop ↔ done = true := by
  have hsuffix := h.opening.doneMark_suffix_iff ((line.take stop).take start)
  rwa [List.take_append_drop] at hsuffix

/-- Between the start of an opening and the tag there are signs only. -/
theorem Opens.exists_sign (h : Opens line start stop done) {position : Nat}
    (hle : start ≤ position) (hlt : position < stop) :
    ∃ p ∈ signs, (line.drop position).head? = some p := by
  have hle_length := h.le_length
  have hinside : position - start < ((line.take stop).drop start).length := by
    rw [List.length_drop, List.length_take]
    omega
  refine ⟨_, h.opening.mem_signs (List.getElem_mem hinside), ?_⟩
  rw [← List.getElem?_eq_getElem hinside, List.getElem?_drop, Nat.add_sub_cancel' hle,
    List.getElem?_take_of_lt hlt, List.head?_drop]

/-- The signs of a comment have no case, so the rule for case does not concern them. -/
theorem signs_not_cased (rule : CaseRule) : ∀ p ∈ signs, rule.isCased p.code = false := by
  cases rule <;> decide +kernel

variable {first : CodePoint} {position : Nat}

/-- A tag whose name begins with no sign stands where there is no sign. -/
theorem TagAt.exists_not_sign (h : TagAt rule name line position) (hf : name.head? = some first)
    (hs : first ∉ signs) : ∃ p, p ∉ signs ∧ (line.drop position).head? = some p := by
  obtain ⟨rest, rfl⟩ : ∃ rest, name = first :: rest := by
    cases name with
    | nil => cases hf
    | cons q rest =>
        obtain rfl : q = first := by simpa using hf
        exact ⟨rest, rfl⟩
  obtain ⟨p, written, hp, -, htake⟩ := List.forall₂_cons_right_iff.1 h.spelled
  refine ⟨p, fun hsign => hs ?_, ?_⟩
  · obtain rfl := CodePoint.code_injective
      (hp.eq_of_not_isCased (.inl (signs_not_cased rule p hsign)))
    exact hsign
  · cases hdrop : line.drop position with
    | nil => simp [hdrop] at htake
    | cons q left =>
        rw [hdrop, List.length_cons, List.take_succ_cons] at htake
        rw [(List.cons.inj htake).1]
        rfl

/-- No tag stands between the start of an opening and its end. -/
theorem Opens.stop_le (h : Opens line start stop done) (htag : TagAt rule name line position)
    (hf : name.head? = some first) (hs : first ∉ signs) (hle : start ≤ position) :
    stop ≤ position := by
  by_contra hlt
  obtain ⟨p, hsign, hp⟩ := h.exists_sign hle (Nat.not_le.1 hlt)
  obtain ⟨q, hnot, hq⟩ := htag.exists_not_sign hf hs
  exact hnot (Option.some.inj (hp.symm.trans hq) ▸ hsign)

/-! ## Ways behind a tag -/

/-- What closes a comment. -/
inductive IsCloser : Text → Prop
  | block (stars : Nat) : IsCloser (.replicate (stars + 1) (.char '*') ++ [.char '/'])
  | markup : IsCloser [.char '-', .char '-', .char '>']

/-- The texts that close comments. -/
def closers : Language CodePoint := {word | IsCloser word}

/-- What closes a comment takes the two closers. -/
theorem takes_closer (line : Text) : Takes line closer closers := by
  have hslash := Takes.ofList_singleton (takes_letter line '/')
  refine (((takes_many line 1 '*').seq hslash).alt
    (takes_letters line ['-', '-', '>'])).congr fun word => ?_
  rw [Language.mem_add, Language.mem_mul]
  constructor
  · rintro (⟨-, ⟨count, hcount, rfl⟩, -, rfl, rfl⟩ | rfl)
    · obtain ⟨stars, rfl⟩ := Nat.exists_eq_add_of_le' hcount
      exact .block stars
    · exact .markup
  · intro h
    cases h with
    | block stars => exact .inl ⟨_, ⟨stars + 1, by omega, rfl⟩, _, rfl, rfl⟩
    | markup => exact .inr rfl

/-- What may follow the text of a note. -/
def trailers : Language CodePoint :=
  gaps * (maybe doneMark * (gaps * ((closers + 1) * gaps)))

/-- After the text there may be gaps, a mark and a closer. -/
theorem takes_trailer (line : Text) :
    Takes line (ofList [gap, optional tildes, gap, optional closer, gap]) trailers :=
  (takes_gap line).seq ((takes_given (takes_tildes line)).seq ((takes_gap line).seq
    ((takes_closer line).optional.seq (Takes.ofList_singleton (takes_gap line)))))

variable {cursor : Cursor}

/-- On a line without line feeds, what follows the text of a note is the rest of the line. -/
theorem mem_ways_closing (hline : .char '\n' ∉ line) (hc : cursor.position ≤ line.length) :
    after ∈ ways (.ofText line) (ofList closing) cursor ↔
      line.drop cursor.position ∈ trailers ∧ after = cursor.moveTo line.length := by
  have hsplit : closing = [gap, optional tildes, gap, optional closer, gap] ++
      [.anchor .beforeFinish] := rfl
  have hanchor : ∀ cursor, after ∈ ways (.ofText line) (ofList [.anchor .beforeFinish]) cursor ↔
      cursor.position = line.length ∧ after = cursor := by
    intro cursor
    have hholds : (Subject.ofText line).holds cursor.position .beforeFinish = true ↔
        cursor.position = line.length := by
      have hfeed : (Subject.ofText line)[cursor.position]? ≠ some 10 := by
        rw [Subject.getElem?_ofText]
        intro hcode
        obtain ⟨p, hp, hcode⟩ := Option.map_eq_some_iff.1 hcode
        obtain rfl := (code_eq_iff '\n').1 hcode
        exact hline (List.mem_of_mem_drop (List.mem_of_head? hp))
      simp [Subject.holds, hfeed]
    rw [ways_ofList_cons, ways]
    split
    · rename_i h
      simpa [ofList, ways] using fun _ => hholds.1 h
    · rename_i h
      simpa using fun hposition => absurd (hholds.2 hposition) h
  rw [hsplit, ways_ofList_append, List.mem_flatMap]
  simp only [hanchor]
  constructor
  · rintro ⟨mid, hmid, hend, rfl⟩
    obtain ⟨word, hword, hbegins, rfl⟩ := (takes_trailer line _ _).1 hmid
    rw [Cursor.position_moveTo] at hend
    have hrest : word = line.drop cursor.position :=
      hbegins.eq_of_length (by rw [List.length_drop]; omega)
    exact ⟨hrest ▸ hword, by rw [hend]⟩
  · rintro ⟨hword, rfl⟩
    have hend : cursor.position + (line.drop cursor.position).length = line.length := by
      rw [List.length_drop]
      omega
    refine ⟨_, (takes_trailer line _ _).2 ⟨_, hword, List.prefix_refl _, rfl⟩, ?_⟩
    rw [hend]
    exact ⟨rfl, rfl⟩

/-- What may stand between a tag and the text of its note. -/
def separators : Language CodePoint := gaps * (maybe [.char ':'] * gaps)

/-- Between a tag and its text there may be gaps and a colon. -/
theorem takes_colon (line : Text) : Takes line (ofList colon) separators :=
  (takes_gap line).seq ((takes_given (takes_letter line ':')).seq
    (Takes.ofList_singleton (takes_gap line)))

/-- The text takes anything on its line. -/
theorem takes_content (line : Text) :
    Takes line (ofList [.loop .lazy 0 none (.symbol .notNewline)]) (repeated .notNewline 0) :=
  Takes.ofList_singleton (takes_loop_lazy line .notNewline 0)

/-- On a line without line feeds, the ways behind a tag divide the rest of the line into what
separates the tag from its text, the text, and what may follow it. -/
theorem mem_ways_tail (hline : .char '\n' ∉ line) (hc : cursor.position ≤ line.length) :
    after ∈ ways (.ofText line) (ofList tail) cursor ↔
      ∃ separator ∈ separators, ∃ content, ∃ trailer ∈ trailers,
        line.drop cursor.position = separator ++ (content ++ trailer) ∧
        after = ((cursor.moveTo (cursor.position + separator.length)).captured 3
          content.length).moveTo line.length := by
  rw [tail, ways_ofList_append, List.mem_flatMap]
  simp only [content, ways_ofList_cons (capture 3 _), List.mem_flatMap,
    (takes_content line).mem_ways_capture]
  constructor
  · rintro ⟨separated, hseparated, -, ⟨text, -, htext, rfl⟩, hafter⟩
    obtain ⟨separator, hseparator, ⟨rest, hrest⟩, rfl⟩ := (takes_colon line _ _).1 hseparated
    have hdrop : line.drop (cursor.position + separator.length) = rest := by
      rw [← List.drop_drop, ← hrest, List.drop_left]
    rw [Cursor.position_moveTo, hdrop] at htext
    obtain ⟨trailer, rfl⟩ := htext
    have hlength := congrArg List.length hrest
    simp only [List.length_append, List.length_drop] at hlength
    rw [mem_ways_closing hline
      (by simp only [Cursor.position_captured, Cursor.position_moveTo]; omega)] at hafter
    obtain ⟨htrailer, rfl⟩ := hafter
    rw [Cursor.position_captured, Cursor.position_moveTo, ← List.drop_drop, hdrop,
      List.drop_left] at htrailer
    exact ⟨separator, hseparator, text, trailer, htrailer, hrest.symm, rfl⟩
  · rintro ⟨separator, hseparator, text, trailer, htrailer, hrest, rfl⟩
    have hdrop : line.drop (cursor.position + separator.length) = text ++ trailer := by
      rw [← List.drop_drop, hrest, List.drop_left]
    have hlength := congrArg List.length hrest
    simp only [List.length_append, List.length_drop] at hlength
    refine ⟨_, (takes_colon line _ _).2 ⟨separator, hseparator, ⟨_, hrest.symm⟩, rfl⟩, _,
      ⟨text, ⟨Nat.zero_le _, fun p hp => ?_⟩, ?_, rfl⟩, ?_⟩
    · refine passes_notNewline.2 fun hfeed => hline ?_
      have hmem : p ∈ line.drop cursor.position := by simp [hrest, hp]
      exact hfeed ▸ List.mem_of_mem_drop hmem
    · rw [Cursor.position_moveTo, hdrop]
      exact List.prefix_append _ _
    · rw [mem_ways_closing hline
        (by simp only [Cursor.position_captured, Cursor.position_moveTo]; omega)]
      refine ⟨?_, rfl⟩
      rw [Cursor.position_captured, Cursor.position_moveTo, ← List.drop_drop, hdrop, List.drop_left]
      exact htrailer

theorem nil_mem_gaps : [] ∈ gaps := fun p hp => by cases hp

theorem nil_mem_maybe (text : Text) : [] ∈ maybe text := ⟨false, rfl⟩

theorem nil_mem_separators : [] ∈ separators :=
  ⟨[], nil_mem_gaps, [], ⟨[], nil_mem_maybe _, [], nil_mem_gaps, rfl⟩, rfl⟩

theorem nil_mem_trailers : [] ∈ trailers :=
  ⟨[], nil_mem_gaps, [], ⟨[], nil_mem_maybe _, [], ⟨[], nil_mem_gaps, [],
    ⟨[], .inr rfl, [], nil_mem_gaps, rfl⟩, rfl⟩, rfl⟩, rfl⟩

/-- On a line without line feeds there is always a way behind a tag: all of the rest is text. -/
theorem exists_mem_ways_tail (hline : .char '\n' ∉ line) (hc : cursor.position ≤ line.length) :
    ∃ after, after ∈ ways (.ofText line) (ofList tail) cursor :=
  ⟨_, (mem_ways_tail hline hc).2 ⟨[], nil_mem_separators, line.drop cursor.position, [],
    nil_mem_trailers, (List.append_nil _).symm, rfl⟩⟩

/-- What is behind the text of a note does not touch what the tag has taken. -/
theorem group?_of_mem_ways_tail (hline : .char '\n' ∉ line) (hc : cursor.position ≤ line.length)
    {group : Nat} (hg : group ≠ 3) (h : after ∈ ways (.ofText line) (ofList tail) cursor) :
    after.group? group = cursor.group? group := by
  obtain ⟨separator, -, content, trailer, -, -, rfl⟩ := (mem_ways_tail hline hc).1 h
  rw [Cursor.group?_moveTo, Cursor.group?_captured_of_ne _ hg, Cursor.group?_moveTo]

end Frame

end Marginalia
