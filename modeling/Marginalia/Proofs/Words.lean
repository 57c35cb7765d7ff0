import Mathlib.Computability.Language
import Marginalia.Proofs.Ways

/-!
# Words that are taken

A regular expression without groups and conditions takes words: it goes on behind each word of its
language that the line has at the cursor, and changes nothing but the position.  `Regex.Takes` says
this, with a lemma for each way of putting regular expressions together.

Where the order of the ways counts, `Regex.ways_loop_greedy` and `Regex.ways_loop_lazy` list them
for the repetition of a test: as many rounds as there are code points in a row that pass it, the
most or the fewest first.
-/

namespace Marginalia

namespace Cursor

@[simp] theorem position_moveTo (cursor : Cursor) (position : Nat) :
    (cursor.moveTo position).position = position := rfl

@[simp] theorem position_ofPosition (position : Nat) : (ofPosition position).position = position :=
  rfl

@[simp] theorem moveTo_ofPosition (first second : Nat) :
    (ofPosition first).moveTo second = ofPosition second := rfl

@[simp] theorem moveTo_moveTo (cursor : Cursor) (first second : Nat) :
    (cursor.moveTo first).moveTo second = cursor.moveTo second := rfl

@[simp] theorem moveTo_position (cursor : Cursor) : cursor.moveTo cursor.position = cursor := rfl

/-- To move changes nothing that was captured. -/
@[simp] theorem group?_moveTo (cursor : Cursor) (position group : Nat) :
    (cursor.moveTo position).group? group = cursor.group? group := rfl

/-- The cursor when a group has taken so many code points. -/
def captured (cursor : Cursor) (group length : Nat) : Cursor :=
  ((cursor.enter group).moveTo (cursor.position + length)).leave group

@[simp] theorem position_captured (cursor : Cursor) (group length : Nat) :
    (cursor.captured group length).position = cursor.position + length := rfl

/-- A group holds what was captured last. -/
theorem group?_captured (cursor : Cursor) (group length : Nat) :
    (cursor.captured group length).group? group =
      some (cursor.position, cursor.position + length) := by
  simp [captured, group?, enter, leave, moveTo]

/-- To capture one group leaves the others alone. -/
theorem group?_captured_of_ne (cursor : Cursor) {group other : Nat} (h : other ≠ group)
    (length : Nat) : (cursor.captured group length).group? other = cursor.group? other := by
  simp [captured, group?, enter, leave, moveTo, h]

end Cursor

namespace Subject

/-- The subject of a line has its code points. -/
theorem getElem?_ofText (line : Text) (position : Nat) :
    (ofText line)[position]? = (line.drop position).head?.map CodePoint.code := by
  simp [ofText, Text.codes, List.head?_drop]

@[simp] theorem size_ofText (line : Text) : (ofText line).size = line.length := by
  simp [ofText, Text.codes]

end Subject

namespace Symbols

/-- Whether a code point passes a test. -/
def passes (test : Symbols) (p : CodePoint) : Bool := test.accepts p.code

end Symbols

namespace Matcher

variable {body : Cursor → List Cursor} {least : Nat} {most : Option Nat}

/-- Where each round has at most one way, a repetition that takes as much as it can has the ways of
one that takes as little as it can, the other way round. -/
theorem greedyWays_eq_reverse (h : ∀ cursor, (body cursor).length ≤ 1) (fuel done : Nat)
    (last : Option Nat) (cursor : Cursor) :
    greedyWays body least most fuel done last cursor =
      (lazyWays body least most fuel done last cursor).reverse := by
  induction fuel generalizing done last cursor with
  | zero => rfl
  | succ fuel ih =>
      unfold greedyWays lazyWays
      have hbody := h cursor
      cases hb : body cursor with
      | nil => split <;> [rfl; (split <;> rfl)]
      | cons after rest =>
          obtain rfl : rest = [] := by simpa [hb] using hbody
          split
          · simpa using ih _ _ _
          · split
            · simp [ih]
            · rfl

end Matcher

namespace Regex

variable {line : Text} {test : Symbols} {least : Nat} {cursor after : Cursor}

/-- A test goes on where the next code point passes it. -/
theorem ways_symbol (line : Text) (test : Symbols) (cursor : Cursor) :
    ways (.ofText line) (symbol test) cursor =
      if (line.drop cursor.position).head?.any test.passes then
        [cursor.moveTo (cursor.position + 1)]
      else [] := by
  unfold ways
  rw [Subject.getElem?_ofText, Option.any_map]
  rfl

/-- How many code points in a row pass a test. -/
def runLength (test : Symbols) (rest : Text) : Nat := (rest.takeWhile test.passes).length

/-- A test goes on by one code point of a run, or there is no run. -/
theorem ways_symbol_cases (line : Text) (test : Symbols) (cursor : Cursor) :
    (ways (.ofText line) (symbol test) cursor = [] ∧
        runLength test (line.drop cursor.position) = 0) ∨
      (ways (.ofText line) (symbol test) cursor = [cursor.moveTo (cursor.position + 1)] ∧
        runLength test (line.drop cursor.position) =
          runLength test (line.drop (cursor.position + 1)) + 1 ∧
        (line.drop cursor.position).length = (line.drop (cursor.position + 1)).length + 1) := by
  rw [ways_symbol, List.drop_add_one_eq_tail_drop]
  cases line.drop cursor.position with
  | nil => exact .inl ⟨rfl, rfl⟩
  | cons p rest => by_cases h : test.passes p = true <;> simp [runLength, h]

/-- The ways of a repetition of a test, from some round on: each number of further rounds that the
run of code points allows and that makes up the required rounds. -/
theorem lazyWays_symbol (fuel done : Nat) (last : Option Nat) (cursor : Cursor)
    (hfuel : least - done + (line.drop cursor.position).length < fuel)
    (hlast : ∀ position ∈ last, position < cursor.position) :
    Matcher.lazyWays (ways (.ofText line) (symbol test)) least none fuel done last cursor =
      (List.range' (least - done)
        (runLength test (line.drop cursor.position) + 1 - (least - done))).map
        fun rounds => cursor.moveTo (cursor.position + rounds) := by
  induction fuel generalizing done last cursor with
  | zero => exact absurd hfuel (Nat.not_lt_zero _)
  | succ fuel ih =>
      have hagain : Matcher.mayRepeat none done last cursor = true := by
        cases last with
        | none => rfl
        | some position => simpa [Matcher.mayRepeat] using Nat.ne_of_lt (hlast position rfl)
      unfold Matcher.lazyWays
      rw [hagain]
      rcases ways_symbol_cases line test cursor with ⟨hbody, hrun⟩ | ⟨hbody, hrun, hlength⟩
      · rw [hbody, hrun]
        split
        · have hnone : 0 + 1 - (least - done) = 0 := by omega
          rw [hnone]
          rfl
        · have hd : least - done = 0 := by omega
          rw [hd]
          rfl
      · -- The rounds from the next position on are those from this one on, but for the first.
        have hshift : ∀ first count, (List.range' first count).map (fun rounds =>
            (cursor.moveTo (cursor.position + 1)).moveTo (cursor.position + 1 + rounds)) =
            (List.range' (1 + first) count).map fun rounds =>
              cursor.moveTo (cursor.position + rounds) := fun first count => by
          rw [← List.map_add_range', List.map_map]
          exact List.map_congr_left fun rounds _ => by simp [Nat.add_assoc]
        rw [hbody, hrun, List.flatMap_singleton, List.flatMap_singleton]
        split
        · rw [ih (done + 1) last (cursor.moveTo (cursor.position + 1))
            (by simp only [Cursor.position_moveTo]; omega)
            (fun position h => Nat.lt_succ_of_lt (hlast position h))]
          simp only [Cursor.position_moveTo, hshift]
          congr 2 <;> omega
        · have hd : least - (done + 1) = 0 := by omega
          have hd' : least - done = 0 := by omega
          rw [if_pos rfl, ih (done + 1) (some cursor.position)
            (cursor.moveTo (cursor.position + 1)) (by simp only [Cursor.position_moveTo]; omega)
            (fun position h => by simp_all)]
          simp only [Cursor.position_moveTo, hshift, hd, hd', Nat.sub_zero]
          rfl

/-- **The fewest rounds first.**  Repeating a test with few rounds first tries one more code point
of the run at a time. -/
theorem ways_loop_lazy (line : Text) (test : Symbols) (least : Nat) (cursor : Cursor) :
    ways (.ofText line) (loop .lazy least none (symbol test)) cursor =
      (List.range' least (runLength test (line.drop cursor.position) + 1 - least)).map
        fun rounds => cursor.moveTo (cursor.position + rounds) :=
  lazyWays_symbol _ 0 none cursor (by simp [rounds]) (by simp)

/-- **The most rounds first.**  Repeating a test with many rounds first tries one code point of the
run less at a time. -/
theorem ways_loop_greedy (line : Text) (test : Symbols) (least : Nat) (cursor : Cursor) :
    ways (.ofText line) (loop .greedy least none (symbol test)) cursor =
      ((List.range' least (runLength test (line.drop cursor.position) + 1 - least)).map
        fun rounds => cursor.moveTo (cursor.position + rounds)).reverse := by
  rw [← ways_loop_lazy]
  refine Matcher.greedyWays_eq_reverse (fun cursor => ?_) _ _ _ _
  rw [ways_symbol]
  split <;> simp

/-! ## Languages -/

/-- A regular expression goes on behind each word of a language that the line has at the cursor. -/
def Takes (line : Text) (r : Regex) (words : Language CodePoint) : Prop :=
  ∀ cursor after, after ∈ r.ways (.ofText line) cursor ↔
    ∃ word ∈ words, word <+: line.drop cursor.position ∧
      after = cursor.moveTo (cursor.position + word.length)

/-- The words of so many code points that pass a test. -/
def repeated (test : Symbols) (least : Nat) : Language CodePoint :=
  {word | least ≤ word.length ∧ ∀ p ∈ word, test.passes p = true}

/-- The words of one code point that passes a test. -/
def single (test : Symbols) : Language CodePoint := {word | ∃ p, test.passes p = true ∧ word = [p]}

variable {r first second : Regex} {words others : Language CodePoint}

/-- A text begins with two words in a row if it begins with the one and goes on with the other. -/
theorem append_prefix_iff {word other rest : Text} :
    word ++ other <+: rest ↔ word <+: rest ∧ other <+: rest.drop word.length := by
  constructor
  · rintro ⟨left, rfl⟩
    simp [List.append_assoc]
  · rintro ⟨⟨left, rfl⟩, h⟩
    rw [List.drop_left] at h
    exact (List.prefix_append_right_inj word).2 h

/-- What is taken is told by the words alone. -/
theorem Takes.congr (h : Takes line r words) (hw : ∀ word, word ∈ words ↔ word ∈ others) :
    Takes line r others := fun cursor after => by simp only [h cursor after, hw]

/-- The empty expression takes the empty word, and no other. -/
theorem takes_empty (line : Text) : Takes line empty 1 := by
  intro cursor after
  simp [ways, Language.mem_one]

/-- A test takes one code point that passes it. -/
theorem takes_symbol (line : Text) (test : Symbols) : Takes line (symbol test) (single test) := by
  intro cursor after
  rw [ways_symbol]
  cases line.drop cursor.position with
  | nil =>
      simp only [List.head?_nil, Option.any_none, Bool.false_eq_true, if_false, List.not_mem_nil,
        false_iff]
      rintro ⟨-, ⟨p, -, rfl⟩, hbegins, -⟩
      exact absurd (List.prefix_nil.1 hbegins) (List.cons_ne_nil p [])
  | cons q rest =>
      constructor
      · intro h
        by_cases hq : test.passes q = true
        · simp only [List.head?_cons, Option.any_some, hq, if_true, List.mem_singleton] at h
          exact ⟨[q], ⟨q, hq, rfl⟩, ⟨rest, rfl⟩, h⟩
        · simp [hq] at h
      · rintro ⟨-, ⟨p, hp, rfl⟩, hbegins, rfl⟩
        obtain ⟨rfl, -⟩ := List.cons_prefix_cons.1 hbegins
        simp [hp]

/-- One part after another takes a word of the first, and then one of the second. -/
theorem Takes.seq (hf : Takes line first words) (hs : Takes line second others) :
    Takes line (seq first second) (words * others) := by
  intro cursor after
  simp only [ways, List.mem_flatMap, Language.mem_mul]
  constructor
  · rintro ⟨mid, hmid, hafter⟩
    obtain ⟨word, hword, hbegins, rfl⟩ := (hf _ _).1 hmid
    obtain ⟨other, hother, hrest, rfl⟩ := (hs _ _).1 hafter
    rw [Cursor.position_moveTo, ← List.drop_drop] at hrest
    exact ⟨word ++ other, ⟨word, hword, other, hother, rfl⟩, append_prefix_iff.2 ⟨hbegins, hrest⟩,
      by simp [Nat.add_assoc]⟩
  · rintro ⟨-, ⟨word, hword, other, hother, rfl⟩, hbegins, rfl⟩
    obtain ⟨hbegins, hrest⟩ := append_prefix_iff.1 hbegins
    rw [List.drop_drop] at hrest
    exact ⟨_, (hf _ _).2 ⟨word, hword, hbegins, rfl⟩,
      (hs _ _).2 ⟨other, hother, hrest, by simp [Nat.add_assoc]⟩⟩

/-- One part alone. -/
theorem Takes.ofList_singleton (h : Takes line r words) : Takes line (ofList [r]) words := by
  have hseq := h.seq (takes_empty line)
  rwa [mul_one] at hseq

/-- A choice takes the words of either branch. -/
theorem Takes.alt (hf : Takes line first words) (hs : Takes line second others) :
    Takes line (alt first second) (words + others) := by
  intro cursor after
  simp only [ways, List.mem_append, hf cursor after, hs cursor after, Language.mem_add,
    or_and_right, exists_or]

/-- What is optional takes its words and the empty one. -/
theorem Takes.optional (h : Takes line r words) :
    Takes line (loop .greedy 0 (some 1) r) (words + 1) := by
  intro cursor after
  have hnothing := takes_empty line cursor after
  rw [ways, List.mem_singleton] at hnothing
  simp only [ways_optional, List.mem_append, List.mem_singleton, h cursor after, hnothing,
    Language.mem_add, or_and_right, exists_or]

/-- A group remembers the word that its body takes. -/
theorem Takes.mem_ways_capture (h : Takes line r words) (group : Nat) :
    after ∈ ways (.ofText line) (capture group r) cursor ↔
      ∃ word ∈ words, word <+: line.drop cursor.position ∧
        after = cursor.captured group word.length := by
  simp only [ways, List.mem_map]
  constructor
  · rintro ⟨inside, hinside, rfl⟩
    obtain ⟨word, hword, hbegins, rfl⟩ := (h _ _).1 hinside
    exact ⟨word, hword, hbegins, rfl⟩
  · rintro ⟨word, hword, hbegins, rfl⟩
    exact ⟨_, (h (cursor.enter group) _).2 ⟨word, hword, hbegins, rfl⟩, rfl⟩

/-- The lengths of the words that a text begins with. -/
theorem exists_repeated_iff {rest : Text} {length : Nat} :
    (∃ word ∈ repeated test least, word <+: rest ∧ word.length = length) ↔
      least ≤ length ∧ length ≤ runLength test rest := by
  constructor
  · rintro ⟨word, ⟨hleast, hpass⟩, ⟨left, rfl⟩, rfl⟩
    refine ⟨hleast, ?_⟩
    rw [runLength, List.takeWhile_append_of_pos hpass, List.length_append]
    exact Nat.le_add_right _ _
  · rintro ⟨hleast, hlength⟩
    have hbegins := List.takeWhile_prefix (l := rest) test.passes
    have htake : ((rest.takeWhile test.passes).take length).length = length :=
      List.length_take_of_le hlength
    refine ⟨(rest.takeWhile test.passes).take length, ⟨htake.symm ▸ hleast, fun p hp => ?_⟩,
      (List.take_prefix _ _).trans hbegins, htake⟩
    exact List.all_eq_true.1 List.all_takeWhile p (List.mem_of_mem_take hp)

/-- A repetition of a test takes the words of its lengths. -/
theorem mem_lengths_iff :
    after ∈ (List.range' least (runLength test (line.drop cursor.position) + 1 - least)).map
        (fun rounds => cursor.moveTo (cursor.position + rounds)) ↔
      ∃ word ∈ repeated test least, word <+: line.drop cursor.position ∧
        after = cursor.moveTo (cursor.position + word.length) := by
  simp only [List.mem_map, List.mem_range'_1]
  constructor
  · rintro ⟨length, ⟨hleast, hlength⟩, rfl⟩
    have hrun : length ≤ runLength test (line.drop cursor.position) := by omega
    obtain ⟨word, hword, hbegins, rfl⟩ := exists_repeated_iff.2 ⟨hleast, hrun⟩
    exact ⟨word, hword, hbegins, rfl⟩
  · rintro ⟨word, hword, hbegins, rfl⟩
    obtain ⟨hleast, hlength⟩ := exists_repeated_iff.1 ⟨word, hword, hbegins, rfl⟩
    exact ⟨word.length, ⟨hleast, by omega⟩, rfl⟩

/-- A test that is repeated takes the words of code points that pass it. -/
theorem takes_loop_greedy (line : Text) (test : Symbols) (least : Nat) :
    Takes line (loop .greedy least none (symbol test)) (repeated test least) := by
  intro cursor after
  rw [ways_loop_greedy, List.mem_reverse, mem_lengths_iff]

/-- Which words are taken does not depend on which of them is tried first. -/
theorem takes_loop_lazy (line : Text) (test : Symbols) (least : Nat) :
    Takes line (loop .lazy least none (symbol test)) (repeated test least) := by
  intro cursor after
  rw [ways_loop_lazy, mem_lengths_iff]

end Regex

end Marginalia
