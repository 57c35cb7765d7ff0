import Marginalia.Note

/-!
# Ways of matching

A matcher goes on from one cursor after another until what comes after it succeeds.  Which cursors
these are, and in which order they are tried, does not depend on what comes after:
`Regex.ways` lists them, and `Regex.run_eq_findSome?` says, by induction on the regular expression,
that running it means to go on from the first way that leads anywhere.  So a match at a position is
the first way from there (`Pattern.matchAt_eq_head?`), and a search takes the leftmost position that
has one (`Pattern.search_eq_some`).

A repetition lists its ways round by round, along its fuel.
-/

namespace Marginalia

namespace Matcher

/-- The ways of a repetition that tries another round before going on. -/
def greedyWays (body : Cursor → List Cursor) (least : Nat) (most : Option Nat) :
    (fuel done : Nat) → (last : Option Nat) → Cursor → List Cursor
  | 0, _, _, cursor => [cursor]
  | fuel + 1, done, last, cursor =>
    if done < least then (body cursor).flatMap (greedyWays body least most fuel (done + 1) last)
    else if mayRepeat most done last cursor then
      (body cursor).flatMap (greedyWays body least most fuel (done + 1) (some cursor.position)) ++
        [cursor]
    else [cursor]

/-- The ways of a repetition that goes on before trying another round. -/
def lazyWays (body : Cursor → List Cursor) (least : Nat) (most : Option Nat) :
    (fuel done : Nat) → (last : Option Nat) → Cursor → List Cursor
  | 0, _, _, cursor => [cursor]
  | fuel + 1, done, last, cursor =>
    if done < least then (body cursor).flatMap (lazyWays body least most fuel (done + 1) last)
    else if mayRepeat most done last cursor then
      cursor :: (body cursor).flatMap
        (lazyWays body least most fuel (done + 1) (some cursor.position))
    else [cursor]

variable {matcher : Matcher} {body : Cursor → List Cursor} {least : Nat} {most : Option Nat}

/-- Going on from ways that lead to further ways. -/
theorem findSome?_flatMap {α β γ : Type} (list : List α) (f : α → List β) (g : β → Option γ) :
    (list.flatMap f).findSome? g = list.findSome? fun a => (f a).findSome? g := by
  induction list with
  | nil => rfl
  | cons a list ih =>
      rw [List.flatMap_cons, List.findSome?_append, ih, List.findSome?_cons]
      cases (f a).findSome? g <;> rfl

/-- A repetition goes on from its ways if its body does. -/
theorem greedy_eq_findSome?
    (h : ∀ cursor next, matcher cursor next = (body cursor).findSome? next) (fuel done : Nat)
    (last : Option Nat) (cursor : Cursor) (next : Cursor → Option Cursor) :
    greedy matcher least most fuel done last cursor next =
      (greedyWays body least most fuel done last cursor).findSome? next := by
  induction fuel generalizing done last cursor with
  | zero => simp [greedy, greedyWays]
  | succ fuel ih =>
      unfold greedy greedyWays
      split
      · simp [h, ih, findSome?_flatMap]
      · split
        · simp only [h, ih, findSome?_flatMap, List.findSome?_append, List.findSome?_singleton]
          split <;> simp [*]
        · simp

@[inherit_doc greedy_eq_findSome?]
theorem lazy_eq_findSome?
    (h : ∀ cursor next, matcher cursor next = (body cursor).findSome? next) (fuel done : Nat)
    (last : Option Nat) (cursor : Cursor) (next : Cursor → Option Cursor) :
    Matcher.lazy matcher least most fuel done last cursor next =
      (lazyWays body least most fuel done last cursor).findSome? next := by
  induction fuel generalizing done last cursor with
  | zero => simp [Matcher.lazy, lazyWays]
  | succ fuel ih =>
      unfold Matcher.lazy lazyWays
      split
      · simp [h, ih, findSome?_flatMap]
      · by_cases hagain : mayRepeat most done last cursor = true
        · simp only [hagain, if_true, List.findSome?_cons, findSome?_flatMap, h, ih]
          cases next cursor <;> rfl
        · simp only [hagain, Bool.false_eq_true, if_false, List.findSome?_singleton]
          cases next cursor <;> rfl

end Matcher

namespace Regex

/-- The cursors that a regular expression leads to, in the order in which they are tried. -/
def ways (subject : Subject) : Regex → Cursor → List Cursor
  | empty, cursor => [cursor]
  | symbol test, cursor =>
    if subject[cursor.position]?.any test.accepts then [cursor.moveTo (cursor.position + 1)] else []
  | anchor condition, cursor => if subject.holds cursor.position condition then [cursor] else []
  | seq first second, cursor => (ways subject first cursor).flatMap (ways subject second)
  | alt first second, cursor => ways subject first cursor ++ ways subject second cursor
  | loop .greedy least most body, cursor =>
    Matcher.greedyWays (ways subject body) least most (rounds subject least cursor) 0 none cursor
  | loop .lazy least most body, cursor =>
    Matcher.lazyWays (ways subject body) least most (rounds subject least cursor) 0 none cursor
  | loop .possessive least most body, cursor =>
    let attempt (cursor : Cursor) : Outcome :=
      trace subject body .other cursor cursor.position fun after _ => .ok after
    (Matcher.possessive attempt least most (rounds subject least cursor) 0 none cursor).toList
  | capture group body, cursor => (ways subject body (cursor.enter group)).map (·.leave group)
  | reference group rule, cursor => (subject.repeated? rule cursor group).toList
  | lookAhead negated body, cursor =>
    match (ways subject body cursor).head? with
    | some after => if negated then [] else [after.moveTo cursor.position]
    | none => if negated then [cursor] else []
  | lookBehind negated width body, cursor =>
    if cursor.position < width then if negated then [cursor] else []
    else
      match (ways subject body (cursor.moveTo (cursor.position - width))).head? with
      | some after => if negated then [] else [after.moveTo cursor.position]
      | none => if negated then [cursor] else []
  | atomic body, cursor => (ways subject body cursor).head?.toList
  | ifGroup group yes no, cursor =>
    match cursor.group? group with
    | some _ => ways subject yes cursor
    | none => ways subject no cursor

variable {subject : Subject}

/-- Stopping at the first way. -/
theorem findSome?_some {α : Type} (ways : List α) : ways.findSome? some = ways.head? := by
  cases ways <;> simp

/-- **The first way that leads anywhere.**  Running a regular expression means to go on from the
first of its ways that leads anywhere. -/
theorem run_eq_findSome? (r : Regex) (cursor : Cursor) (next : Cursor → Option Cursor) :
    run subject r cursor next = (ways subject r cursor).findSome? next := by
  -- For any continuation, since the first part of a sequence goes on with the second one.
  induction r generalizing cursor next with
  | empty => simp [run, ways]
  | symbol test =>
      unfold run ways
      cases subject[cursor.position]? with
      | none => simp
      | some code => by_cases h : test.accepts code <;> simp [h]
  | anchor condition =>
      unfold run ways
      split <;> simp
  | seq first second ihf ihs => simp [run, ways, ihf, ihs, Matcher.findSome?_flatMap]
  | alt first second ihf ihs =>
      simp only [run, ways, ihf, ihs, List.findSome?_append]
      split <;> simp [*]
  | loop greed least most body ih =>
      cases greed with
      | greedy => simp only [run, ways, Matcher.greedy_eq_findSome? ih]
      | lazy => simp only [run, ways, Matcher.lazy_eq_findSome? ih]
      | possessive =>
          simp only [run, ways]
          split <;> simp [*]
  | capture group body ih => simp [run, ways, ih, List.findSome?_map, Function.comp_def]
  | reference group rule =>
      unfold run ways
      cases subject.repeated? rule cursor group <;> simp
  | lookAhead negated body ih =>
      simp only [run, ways, ih, findSome?_some]
      cases (ways subject body cursor).head? <;> cases negated <;> simp
  | lookBehind negated width body ih =>
      simp only [run, ways, ih, findSome?_some]
      split
      · cases negated <;> simp
      · cases (ways subject body (cursor.moveTo (cursor.position - width))).head? <;>
          cases negated <;> simp
  | atomic body ih =>
      simp only [run, ways, ih, findSome?_some]
      cases (ways subject body cursor).head? <;> simp
  | ifGroup group yes no ihy ihn =>
      unfold run ways
      cases cursor.group? group with
      | none => exact ihn cursor next
      | some span => exact ihy cursor next

/-! ## Sequences and optional parts -/

/-- The ways through a part and then the others. -/
theorem ways_ofList_cons (r : Regex) (rest : List Regex) (cursor : Cursor) :
    ways subject (ofList (r :: rest)) cursor =
      (ways subject r cursor).flatMap (ways subject (ofList rest)) := rfl

/-- The ways through one part alone. -/
theorem ways_ofList_singleton (r : Regex) (cursor : Cursor) :
    ways subject (ofList [r]) cursor = ways subject r cursor := by
  rw [ways_ofList_cons]
  exact List.flatMap_singleton' _

/-- The ways through one list of parts and then another. -/
theorem ways_ofList_append (first second : List Regex) (cursor : Cursor) :
    ways subject (ofList (first ++ second)) cursor =
      (ways subject (ofList first) cursor).flatMap (ways subject (ofList second)) := by
  induction first generalizing cursor with
  | nil => simp [ofList, ways]
  | cons r first ih =>
      have hrest : ways subject (ofList (first ++ second)) =
          fun after => (ways subject (ofList first) after).flatMap (ways subject (ofList second)) :=
        funext ih
      rw [List.cons_append, ways_ofList_cons, ways_ofList_cons, List.flatMap_assoc, hrest]

/-- What may be left out is tried first. -/
theorem ways_optional (body : Regex) (cursor : Cursor) :
    ways subject (loop .greedy 0 (some 1) body) cursor = ways subject body cursor ++ [cursor] := by
  have hfuel : rounds subject 0 cursor = subject.size - cursor.position + 1 + 1 := by
    simp [rounds]
  simp [ways, hfuel, Matcher.greedyWays, Matcher.mayRepeat, List.flatMap_singleton']

end Regex

namespace Pattern

variable {pattern : Pattern} {subject : Subject} {found : Match} {start : Nat}

/-- A match at a position is the first way from there. -/
theorem matchAt_eq_head? (pattern : Pattern) (subject : Subject) (start : Nat) :
    pattern.matchAt subject start =
      (pattern.regex.ways subject (.ofPosition start)).head?.map fun last => { start, last } := by
  rw [matchAt, Regex.run_eq_findSome?, Regex.findSome?_some]

/-- There is a match at a position if there is a way from there. -/
theorem isSome_matchAt_of_mem {after : Cursor}
    (h : after ∈ pattern.regex.ways subject (.ofPosition start)) :
    (pattern.matchAt subject start).isSome = true := by
  rw [matchAt_eq_head?]
  cases hways : pattern.regex.ways subject (.ofPosition start) with
  | nil => simp [hways] at h
  | cons way ways => rfl

/-- A match that a search finds begins at the leftmost position that has one. -/
theorem searchFrom_eq_some {left : Nat} (h : pattern.searchFrom subject left start = some found) :
    pattern.matchAt subject found.start = some found ∧
      ∀ before, start ≤ before → before < found.start → pattern.matchAt subject before = none := by
  have hstart : ∀ {start}, pattern.matchAt subject start = some found → found.start = start := by
    intro start h
    rw [matchAt_eq_head?, Option.map_eq_some_iff] at h
    obtain ⟨last, -, rfl⟩ := h
    rfl
  induction left generalizing start with
  | zero =>
      obtain rfl := hstart h
      exact ⟨h, fun before hle hlt => absurd hle (Nat.not_le.2 hlt)⟩
  | succ left ih =>
      unfold searchFrom at h
      cases hm : pattern.matchAt subject start with
      | some here =>
          rw [hm] at h
          obtain rfl := hstart (hm.trans h)
          exact ⟨hm.trans h, fun before hle hlt => absurd hle (Nat.not_le.2 hlt)⟩
      | none =>
          rw [hm] at h
          obtain ⟨hfound, hbefore⟩ := ih h
          refine ⟨hfound, fun before hle hlt => ?_⟩
          rcases Nat.eq_or_lt_of_le hle with rfl | hle
          · exact hm
          · exact hbefore before hle hlt

/-- A search finds something if there is a match anywhere. -/
theorem isSome_searchFrom {left position : Nat} (hle : start ≤ position)
    (hlt : position ≤ start + left) (h : (pattern.matchAt subject position).isSome = true) :
    (pattern.searchFrom subject left start).isSome = true := by
  induction left generalizing start with
  | zero =>
      obtain rfl : start = position := Nat.le_antisymm hle hlt
      exact h
  | succ left ih =>
      unfold searchFrom
      rcases Nat.eq_or_lt_of_le hle with rfl | hle
      · obtain ⟨here, hm⟩ := Option.isSome_iff_exists.1 h
        rw [hm]
        rfl
      · cases hm : pattern.matchAt subject start with
        | some here => rfl
        | none => exact ih hle (by omega)

/-- **The leftmost position.**  What a search finds is the first way from the leftmost position that
has one. -/
theorem search_eq_some (h : pattern.search subject = some found) :
    (pattern.regex.ways subject (.ofPosition found.start)).head? = some found.last ∧
      ∀ before < found.start, pattern.matchAt subject before = none := by
  obtain ⟨hfound, hbefore⟩ := searchFrom_eq_some h
  refine ⟨?_, fun before => hbefore before (Nat.zero_le before)⟩
  rw [matchAt_eq_head?, Option.map_eq_some_iff] at hfound
  obtain ⟨last, hlast, hmatch⟩ := hfound
  rw [hlast, ← hmatch]

/-- A search finds something where there is a way. -/
theorem isSome_search_of_mem {after : Cursor} (hs : start ≤ subject.size)
    (h : after ∈ pattern.regex.ways subject (.ofPosition start)) :
    (pattern.search subject).isSome = true :=
  isSome_searchFrom (Nat.zero_le start) (by omega) (isSome_matchAt_of_mem h)

end Pattern

end Marginalia
