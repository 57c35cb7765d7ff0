import Marginalia.Proofs.Ways

/-!
# Matching goes onward

A way through a regular expression leads onward, and it leaves a group alone that no part of the
expression remembers (`Regex.keeps_of_mem_ways`).  There is one exception: a possessive repetition
goes on from where its last attempt came to rest, and an attempt that looked behind may have come to
rest before it began.  So the statement asks for regular expressions in which no possessive
repetition looks behind (`Regex.isSteady`).

Within a possessive repetition it is `Regex.trace` that matches, so the two are shown together, by
one induction (`Regex.Sound`): of a match, that it is onward; of a failed attempt, that it comes to
rest no earlier than it began (`Outcome.Rests`).
-/

namespace Marginalia

/-- A cursor further on, with what a group took as it was. -/
structure Cursor.Keeps (group : Nat) (cursor after : Cursor) : Prop where
  le : cursor.position ≤ after.position
  starts : after.starts group = cursor.starts group
  stops : after.stops group = cursor.stops group

namespace Cursor

variable {group : Nat} {cursor after last : Cursor} {position : Nat}

theorem Keeps.refl (group : Nat) (cursor : Cursor) : Keeps group cursor cursor :=
    ⟨Nat.le_refl _, rfl, rfl⟩

/-- What two moves keep, one after the other keeps. -/
theorem Keeps.trans (h : Keeps group cursor after) (h' : Keeps group after last) :
    Keeps group cursor last :=
  ⟨Nat.le_trans h.le h'.le, h'.starts.trans h.starts, h'.stops.trans h.stops⟩

/-- To go on to the right keeps all groups. -/
theorem keeps_moveTo (h : cursor.position ≤ position) :
    Keeps group cursor (cursor.moveTo position) :=
  ⟨h, rfl, rfl⟩

/-- Going back to where a look around began. -/
theorem Keeps.back (h : Keeps group (cursor.moveTo position) after) :
    Keeps group cursor (after.moveTo cursor.position) :=
  ⟨Nat.le_refl _, h.starts, h.stops⟩

/-- What is remembered of another group does not matter. -/
theorem Keeps.captured {other : Nat} (hne : other ≠ group)
    (h : Keeps group (cursor.enter other) after) : Keeps group cursor (after.leave other) := by
  have hstarts : (cursor.enter other).starts group = cursor.starts group := if_neg hne.symm
  have hstops : (after.leave other).stops group = after.stops group := if_neg hne.symm
  exact ⟨h.le, h.starts.trans hstarts, hstops.trans h.stops⟩

end Cursor

/-- A match has a property, or a failed attempt comes to rest no earlier than at a position. -/
def Outcome.Rests (bound : Nat) (P : Cursor → Prop) : Outcome → Prop
  | .ok found => P found
  | .error rest => bound ≤ rest

/-- An attempt, and if it failed another one. -/
def Outcome.orElse (outcome : Outcome) (next : Nat → Outcome) : Outcome :=
  match outcome with
  | .ok found => .ok found
  | .error rest => next rest

/-- If both tries rest well, so do they one after the other. -/
theorem Outcome.Rests.orElse {bound : Nat} {P : Cursor → Prop} {outcome : Outcome}
    {next : Nat → Outcome}
    (h : outcome.Rests bound P) (hnext : ∀ rest, bound ≤ rest → (next rest).Rests bound P) :
    (outcome.orElse next).Rests bound P := by
  cases outcome with
  | ok found => exact h
  | error rest => exact hnext rest h

/-- An outcome that depends on something rests well if it does either way. -/
theorem Outcome.rests_ite {bound : Nat} {P : Cursor → Prop} {c : Prop} [Decidable c]
    {one other : Outcome} (hone : one.Rests bound P) (hother : other.Rests bound P) :
    (if c then one else other).Rests bound P := by
  split
  · exact hone
  · exact hother

namespace Matcher

open Cursor Outcome

variable {group bound : Nat} {body : Cursor → List Cursor} {least : Nat} {most : Option Nat}
  {cursor after : Cursor} {goOn : Cursor → Nat → Outcome} {P : Cursor → Prop} {subject : Subject}

/-- Round after round, a repetition leads onward if its body does. -/
theorem keeps_of_mem_greedyWays
    (h : ∀ cursor, ∀ after ∈ body cursor, Keeps group cursor after) (fuel done : Nat)
    (last : Option Nat) (hafter : after ∈ greedyWays body least most fuel done last cursor) :
    Keeps group cursor after := by
  induction fuel generalizing done last cursor with
  | zero =>
      rw [greedyWays, List.mem_singleton] at hafter
      exact hafter ▸ .refl group cursor
  | succ fuel ih =>
      have hround {last : Option Nat} (hmem : after ∈ (body cursor).flatMap
          (greedyWays body least most fuel (done + 1) last)) : Keeps group cursor after := by
        obtain ⟨middle, hmiddle, hmem⟩ := List.mem_flatMap.1 hmem
        exact (h cursor middle hmiddle).trans (ih _ _ hmem)
      unfold greedyWays at hafter
      split at hafter
      · exact hround hafter
      · split at hafter
        · rcases List.mem_append.1 hafter with hmem | hmem
          · exact hround hmem
          · exact List.mem_singleton.1 hmem ▸ .refl group cursor
        · exact List.mem_singleton.1 hafter ▸ .refl group cursor

/-- In whichever order rounds are tried, the ways are made of the same rounds. -/
theorem keeps_of_mem_lazyWays
    (h : ∀ cursor, ∀ after ∈ body cursor, Keeps group cursor after) (fuel done : Nat)
    (last : Option Nat) (hafter : after ∈ lazyWays body least most fuel done last cursor) :
    Keeps group cursor after := by
  induction fuel generalizing done last cursor with
  | zero =>
      rw [lazyWays, List.mem_singleton] at hafter
      exact hafter ▸ .refl group cursor
  | succ fuel ih =>
      have hround {last : Option Nat} (hmem : after ∈ (body cursor).flatMap
          (lazyWays body least most fuel (done + 1) last)) : Keeps group cursor after := by
        obtain ⟨middle, hmiddle, hmem⟩ := List.mem_flatMap.1 hmem
        exact (h cursor middle hmiddle).trans (ih _ _ hmem)
      unfold lazyWays at hafter
      split at hafter
      · exact hround hafter
      · split at hafter
        · rcases List.mem_cons.1 hafter with rfl | hmem
          · exact .refl group after
          · exact hround hmem
        · exact List.mem_singleton.1 hafter ▸ .refl group cursor

/-- So does one that takes no round back, if its attempts come to rest no earlier than they
begin. -/
theorem keeps_of_possessive {attempt : Cursor → Outcome}
    (h : ∀ cursor : Cursor, (attempt cursor).Rests cursor.position (Keeps group cursor))
    (fuel done : Nat) (last : Option Nat)
    (hafter : possessive attempt least most fuel done last cursor = some after) :
    Keeps group cursor after := by
  induction fuel generalizing done last cursor with
  | zero =>
      simp only [possessive, Option.some.injEq] at hafter
      exact hafter ▸ .refl group cursor
  | succ fuel ih =>
      have hattempt := h cursor
      unfold possessive at hafter
      cases hround : attempt cursor with
      | ok middle =>
          rw [hround] at hafter hattempt
          split at hafter
          · exact Keeps.trans hattempt (ih _ _ hafter)
          · split at hafter
            · exact Keeps.trans hattempt (ih _ _ hafter)
            · cases hafter
              exact .refl group _
      | error rest =>
          rw [hround] at hafter hattempt
          split at hafter
          · cases hafter
          · split at hafter
            · cases hafter
              exact keeps_moveTo hattempt
            · cases hafter
              exact .refl group _

/-- Going on from the positions of a repetition, the longest first. -/
theorem rests_longestFirst {next : Opening} {least : Nat}
    (hgo : ∀ position, cursor.position ≤ position →
      (goOn (cursor.moveTo position) position).Rests bound P)
    (lengths : Nat) {rest : Nat} (hrest : bound ≤ rest) :
    (longestFirst next subject cursor goOn lengths least rest).Rests bound P := by
  induction lengths generalizing rest with
  | zero => exact hrest
  | succ lengths ih =>
      have hhere := hgo (cursor.position + least + lengths) (by omega)
      have htry := hhere.orElse fun _ hrest => ih hrest
      unfold longestFirst
      dsimp only
      cases next with
      | letter code =>
          dsimp only
          split
          · exact ih hrest
          · exact htry
      | member test | other => exact htry

/-- The fewest rounds first, the place of rest follows the test to the right. -/
theorem rests_shortestFirst {test : Symbols}
    (hgo : ∀ position, cursor.position ≤ position →
      (goOn (cursor.moveTo position) position).Rests bound P)
    (more : Nat) {position : Nat} (hstart : cursor.position ≤ position)
    (hbound : bound ≤ position) :
    (shortestFirst test subject cursor goOn more position).Rests bound P := by
  induction more generalizing position with
  | zero => exact hbound
  | succ more ih =>
      unfold shortestFirst
      refine (hgo position hstart).orElse fun _ _ => ?_
      split
      · split
        · exact hbound
        · exact ih (by omega) (by omega)
      · exact hbound

end Matcher

namespace Regex

open Cursor Outcome

/-- Whether no part of a regular expression remembers what a group takes. -/
def avoids (group : Nat) : Regex → Bool
  | empty | symbol _ | anchor _ | reference .. => true
  | seq first second | alt first second => first.avoids group && second.avoids group
  | loop _ _ _ body | lookAhead _ body | lookBehind _ _ body | atomic body => body.avoids group
  | capture other body => other != group && body.avoids group
  | ifGroup _ yes no => yes.avoids group && no.avoids group

/-- Whether some part of a regular expression looks behind. -/
def looksBehind : Regex → Bool
  | empty | symbol _ | anchor _ | reference .. => false
  | seq first second | alt first second => first.looksBehind || second.looksBehind
  | loop _ _ _ body | lookAhead _ body | capture _ body | atomic body => body.looksBehind
  | lookBehind .. => true
  | ifGroup _ yes no => yes.looksBehind || no.looksBehind

/-- Whether no possessive repetition in a regular expression looks behind. -/
def isSteady : Regex → Bool
  | empty | symbol _ | anchor _ | reference .. => true
  | seq first second | alt first second => first.isSteady && second.isSteady
  | loop .possessive _ _ body => !body.looksBehind
  | loop _ _ _ body | lookAhead _ body | lookBehind _ _ body | capture _ body | atomic body =>
    body.isSteady
  | ifGroup _ yes no => yes.isSteady && no.isSteady

/-- What does not look behind is steady. -/
theorem isSteady_of_looksBehind {r : Regex} (h : r.looksBehind = false) : r.isSteady = true := by
  induction r with
  | empty | symbol _ | anchor _ | reference _ _ => rfl
  | seq first second ihf ihs | alt first second ihf ihs | ifGroup _ first second ihf ihs =>
      simp only [looksBehind, Bool.or_eq_false_iff] at h
      simp only [isSteady, ihf h.1, ihs h.2, Bool.and_self]
  | loop greed least most body ih =>
      cases greed with
      | possessive => exact congrArg not h
      | greedy | lazy => exact ih h
  | lookAhead _ body ih | capture _ body ih | atomic body ih => exact ih h
  | lookBehind _ _ body ih => cases h

/-- A regular expression leads onward and leaves a group alone: on its ways, and where it is
traced. -/
structure Sound (subject : Subject) (group : Nat) (r : Regex) : Prop where
  keeps : r.isSteady = true → ∀ cursor, ∀ after ∈ r.ways subject cursor, Keeps group cursor after
  rests : r.looksBehind = false →
    ∀ {bound : Nat} {P : Cursor → Prop} (next : Opening) (cursor : Cursor)
    (rest : Nat) (goOn : Cursor → Nat → Outcome), bound ≤ cursor.position → bound ≤ rest →
    (∀ after rest, Keeps group cursor after → bound ≤ rest → (goOn after rest).Rests bound P) →
    (r.trace subject next cursor rest goOn).Rests bound P

variable {subject : Subject} {group : Nat} {first second body : Regex}

/-- An attempt on its own. -/
theorem Sound.attempt (h : Sound subject group body) (hb : body.looksBehind = false)
    (cursor : Cursor) :
    (body.trace subject .other cursor cursor.position fun after _ => .ok after).Rests
      cursor.position
      (Keeps group cursor) :=
  h.rests hb _ _ _ _ (Nat.le_refl _) (Nat.le_refl _) fun _ _ hafter _ => hafter

/-- Nothing is matched without moving. -/
theorem sound_empty : Sound subject group empty where
  keeps _ cursor _ hafter := List.mem_singleton.1 hafter ▸ .refl group cursor
  rests _ _ _ _ cursor rest _ _ hrest hgo := hgo cursor rest (.refl group cursor) hrest

/-- A test goes one code point to the right. -/
theorem sound_symbol (test : Symbols) : Sound subject group (symbol test) where
  keeps _ cursor after hafter := by
    change after ∈ if subject[cursor.position]?.any test.accepts then _ else [] at hafter
    split at hafter
    · exact List.mem_singleton.1 hafter ▸ keeps_moveTo (Nat.le_succ _)
    · cases hafter
  rests _ _ _ _ cursor rest goOn _ hrest hgo := by
    unfold trace
    cases subject[cursor.position]? with
    | none => exact hrest
    | some code => exact rests_ite (hgo _ _ (keeps_moveTo (Nat.le_succ _)) hrest) hrest

/-- An anchor stays where it is. -/
theorem sound_anchor (condition : Anchor) : Sound subject group (anchor condition) where
  keeps _ cursor after hafter := by
    change after ∈ if subject.holds cursor.position condition then _ else [] at hafter
    split at hafter
    · exact List.mem_singleton.1 hafter ▸ .refl group cursor
    · cases hafter
  rests _ _ _ _ cursor rest goOn _ hrest hgo := rests_ite (hgo _ _ (.refl group cursor) hrest) hrest

/-- One part goes on from where the other has come. -/
theorem Sound.seq (hfirst : Sound subject group first) (hsecond : Sound subject group second) :
    Sound subject group (seq first second) where
  keeps hsteady cursor after hafter := by
    simp only [isSteady, Bool.and_eq_true] at hsteady
    obtain ⟨middle, hmiddle, hafter⟩ := List.mem_flatMap.1 hafter
    exact (hfirst.keeps hsteady.1 _ _ hmiddle).trans (hsecond.keeps hsteady.2 _ _ hafter)
  rests hb _ _ _ cursor rest goOn hcursor hrest hgo := by
    simp only [looksBehind, Bool.or_eq_false_iff] at hb
    refine hfirst.rests hb.1 _ _ _ _ hcursor hrest fun middle rest hmiddle hrest => ?_
    exact hsecond.rests hb.2 _ _ _ _ (Nat.le_trans hcursor hmiddle.le) hrest
      fun after rest hafter => hgo after rest (hmiddle.trans hafter)

/-- The place of rest of a choice is that of the branch that was tried last. -/
theorem Sound.alt (hfirst : Sound subject group first) (hsecond : Sound subject group second) :
    Sound subject group (alt first second) where
  keeps hsteady cursor after hafter := by
    simp only [isSteady, Bool.and_eq_true] at hsteady
    rcases List.mem_append.1 hafter with hafter | hafter
    · exact hfirst.keeps hsteady.1 _ _ hafter
    · exact hsecond.keeps hsteady.2 _ _ hafter
  rests hb bound P _ cursor rest goOn hcursor hrest hgo := by
    simp only [looksBehind, Bool.or_eq_false_iff] at hb
    have hsecond (rest : Nat) (hrest : bound ≤ rest) :
        Rests bound P (if second.isChoice then trace subject second .other cursor rest goOn
          else if (second.opening?.getD .other).rulesOut subject[cursor.position]? then .error rest
          else trace subject second .other cursor cursor.position goOn) :=
      rests_ite (hsecond.rests hb.2 _ _ _ _ hcursor hrest hgo)
        (rests_ite hrest (hsecond.rests hb.2 _ _ _ _ hcursor hcursor hgo))
    have hfirst : Rests bound P (if (first.opening?.getD .other).rulesOut subject[cursor.position]?
        then .error rest else trace subject first .other cursor cursor.position goOn) :=
      rests_ite hrest (hfirst.rests hb.1 _ _ _ _ hcursor hcursor hgo)
    exact hfirst.orElse hsecond

/-- An attempt without a continuation rests where it was put, if it fails. -/
theorem rests_orRest {bound rest : Nat} {P : Cursor → Prop} {found? : Option Cursor}
    (h : ∀ found, found? = some found → P found) (hrest : bound ≤ rest) :
    (Outcome.orRest rest found?).Rests bound P := by
  cases found? with
  | none => exact hrest
  | some found => exact h found rfl

/-- What a repetition of more than one test goes on to. -/
theorem rests_continued {bound : Nat} {P : Cursor → Prop} {cursor found : Cursor}
    {goOn : Cursor → Nat → Outcome} {list : List Cursor} (hcursor : bound ≤ cursor.position)
    (hlist : ∀ after ∈ list, Keeps group cursor after)
    (hgo : ∀ after rest, Keeps group cursor after → bound ≤ rest → (goOn after rest).Rests bound P)
    (h : (list.findSome? fun after => (goOn after after.position).toOption) = some found) :
    P found := by
  obtain ⟨after, hafter, hfound⟩ := List.exists_of_findSome?_eq_some h
  have hkeeps := hlist after hafter
  have hrests := hgo after after.position hkeeps (Nat.le_trans hcursor hkeeps.le)
  cases hgoOn : goOn after after.position with
  | ok last =>
      rw [hgoOn] at hfound hrests
      cases hfound
      exact hrests
  | error rest =>
      rw [hgoOn] at hfound
      cases hfound

/-- **Repetitions.**  All three kinds go on to the right; a possessive one does so since its last
attempt comes to rest no further to the left. -/
theorem Sound.loop (h : Sound subject group body) (greed : Greed) (least : Nat)
    (most : Option Nat) : Sound subject group (loop greed least most body) where
  keeps hsteady cursor after hafter := by
    cases greed with
    | greedy => exact Matcher.keeps_of_mem_greedyWays (h.keeps hsteady) _ _ _ hafter
    | «lazy» => exact Matcher.keeps_of_mem_lazyWays (h.keeps hsteady) _ _ _ hafter
    | possessive =>
        have hb : body.looksBehind = false := Bool.not_eq_true' _ ▸ hsteady
        exact Matcher.keeps_of_possessive (h.attempt hb) _ _ _ (Option.mem_toList.1 hafter)
  rests hb bound P next cursor rest goOn hcursor hrest hgo := by
    have hmove (position : Nat) (hle : cursor.position ≤ position) :
        (goOn (cursor.moveTo position) position).Rests bound P :=
      hgo _ _ (keeps_moveTo hle) (Nat.le_trans hcursor hle)
    have hsteady := isSteady_of_looksBehind hb
    unfold trace
    split
    · rename_i test _
      have hcounted (counted : Nat) :
          bound ≤ if test.isStepwise then cursor.position + counted else cursor.position := by
        split <;> omega
      refine rests_ite hrest (rests_ite (hcounted _) ?_)
      · cases greed with
        | greedy => exact Matcher.rests_longestFirst hmove _ (hcounted _)
        | «lazy» => exact Matcher.rests_shortestFirst hmove _ (Nat.le_add_right _ _) (by omega)
        | possessive => exact hmove _ (Nat.le_add_right _ _)
    · dsimp only
      refine rests_orRest (fun found hfound => ?_) hcursor
      cases greed with
      | greedy =>
          rw [Matcher.greedy_eq_findSome? (run_eq_findSome? body)] at hfound
          exact rests_continued hcursor
            (fun after => Matcher.keeps_of_mem_greedyWays (h.keeps hsteady) _ _ _) hgo hfound
      | «lazy» =>
          rw [Matcher.lazy_eq_findSome? (run_eq_findSome? body)] at hfound
          exact rests_continued hcursor
            (fun after => Matcher.keeps_of_mem_lazyWays (h.keeps hsteady) _ _ _) hgo hfound
      | possessive =>
          obtain ⟨after, hafter, hfound⟩ := Option.bind_eq_some_iff.1 hfound
          have hkeeps := Matcher.keeps_of_possessive (h.attempt hb) _ _ _ hafter
          have hsingle : ([after].findSome? fun after => (goOn after after.position).toOption) =
              some found := by
            rw [List.findSome?_singleton, hfound]
          exact rests_continued hcursor
            (fun _ hmem => List.mem_singleton.1 hmem ▸ hkeeps) hgo hsingle

/-- To capture another group keeps this one. -/
theorem Sound.capture (h : Sound subject group body) {other : Nat} (hne : other ≠ group) :
    Sound subject group (capture other body) where
  keeps hsteady cursor after hafter := by
    obtain ⟨last, hlast, rfl⟩ := List.mem_map.1 hafter
    exact (h.keeps hsteady _ _ hlast).captured hne
  rests hb _ _ _ cursor rest goOn hcursor hrest hgo := by
    exact h.rests hb _ _ _ _ hcursor hrest fun after rest hafter => hgo _ rest (hafter.captured hne)

/-- What follows a reference is further on. -/
theorem keeps_of_repeated {rule : CaseRule} {other : Nat} {cursor after : Cursor}
    (h : subject.repeated? rule cursor other = some after) : Keeps group cursor after := by
  obtain ⟨span, -, hspan⟩ := Option.bind_eq_some_iff.1 h
  dsimp only at hspan
  split at hspan
  · cases hspan
    exact keeps_moveTo (Nat.le_add_right _ _)
  · cases hspan

/-- What a group holds is matched to the right. -/
theorem sound_reference (other : Nat) (rule : CaseRule) :
    Sound subject group (reference other rule) where
  keeps _ cursor after hafter := by
    exact keeps_of_repeated (Option.mem_toList.1 hafter)
  rests _ _ _ _ cursor rest goOn _ hrest hgo := by
    unfold trace
    cases hrepeated : subject.repeated? rule cursor other with
    | none => exact hrest
    | some after => exact hgo after rest (keeps_of_repeated hrepeated) hrest

/-- A look ahead comes back to where it began, with what was captured on the way. -/
theorem Sound.lookAhead (h : Sound subject group body) (negated : Bool) :
    Sound subject group (lookAhead negated body) where
  keeps hsteady cursor after hafter := by
    unfold ways at hafter
    cases hhead : (ways subject body cursor).head? with
    | none =>
        rw [hhead] at hafter
        cases negated with
        | false => cases hafter
        | true => exact List.mem_singleton.1 hafter ▸ .refl group cursor
    | some found =>
        rw [hhead] at hafter
        have hfound := h.keeps hsteady cursor found (List.mem_of_head? hhead)
        cases negated with
        | false => exact List.mem_singleton.1 hafter ▸ hfound.back
        | true => cases hafter
  rests hb bound P _ cursor rest goOn hcursor hrest hgo := by
    have hattempt := h.attempt hb cursor
    change Rests bound P
      (match body.trace subject .other cursor cursor.position fun after _ => .ok after with
      | .ok after => if negated then _ else _
      | .error rest => if negated then _ else _)
    cases htry : body.trace subject .other cursor cursor.position fun after _ => .ok after with
    | ok after =>
        rw [htry] at hattempt
        have hle : bound ≤ after.position := Nat.le_trans hcursor hattempt.le
        exact rests_ite hle (hgo _ _ hattempt.back hle)
    | error rest =>
        rw [htry] at hattempt
        have hle : bound ≤ rest := Nat.le_trans hcursor hattempt
        exact rests_ite (hgo _ _ (.refl group cursor) hle) hle

/-- A look behind is not asked for its place of rest. -/
theorem Sound.lookBehind (h : Sound subject group body) (negated : Bool) (width : Nat) :
    Sound subject group (lookBehind negated width body) where
  keeps hsteady cursor after hafter := by
    unfold ways at hafter
    split at hafter
    · cases negated with
      | false => cases hafter
      | true => exact List.mem_singleton.1 hafter ▸ .refl group cursor
    · cases hhead : (ways subject body (cursor.moveTo (cursor.position - width))).head? with
      | none =>
          rw [hhead] at hafter
          cases negated with
          | false => cases hafter
          | true => exact List.mem_singleton.1 hafter ▸ .refl group cursor
      | some found =>
          rw [hhead] at hafter
          have hfound := h.keeps hsteady _ found (List.mem_of_head? hhead)
          cases negated with
          | false => exact List.mem_singleton.1 hafter ▸ hfound.back
          | true => cases hafter
  rests hb := nomatch hb

/-- A part that stands by itself moves as it would within the whole. -/
theorem Sound.atomic (h : Sound subject group body) : Sound subject group (atomic body) where
  keeps hsteady cursor after hafter := by
    exact h.keeps hsteady cursor after (List.mem_of_head? (Option.mem_toList.1 hafter))
  rests hb bound P _ cursor rest goOn hcursor _ hgo := by
    have hattempt := h.attempt hb cursor
    change Rests bound P
      (match body.trace subject .other cursor cursor.position fun after _ => .ok after with
      | .ok after => goOn after after.position
      | .error _ => .error cursor.position)
    cases htry : body.trace subject .other cursor cursor.position fun after _ => .ok after with
    | ok after =>
        rw [htry] at hattempt
        exact hgo after _ hattempt (Nat.le_trans hcursor hattempt.le)
    | error rest => exact hcursor

/-- Whichever branch a condition takes, it is sound. -/
theorem Sound.ifGroup (hyes : Sound subject group first) (hno : Sound subject group second)
    (other : Nat) : Sound subject group (ifGroup other first second) where
  keeps hsteady cursor after hafter := by
    simp only [isSteady, Bool.and_eq_true] at hsteady
    unfold ways at hafter
    split at hafter
    · exact hyes.keeps hsteady.1 cursor after hafter
    · exact hno.keeps hsteady.2 cursor after hafter
  rests hb _ _ _ cursor rest goOn hcursor hrest hgo := by
    simp only [looksBehind, Bool.or_eq_false_iff] at hb
    unfold trace
    cases cursor.group? other with
    | none => exact hno.rests hb.2 _ _ _ _ hcursor hrest hgo
    | some _ => exact hyes.rests hb.1 _ _ _ _ hcursor hrest hgo

/-- Every regular expression that no part of remembers a group. -/
theorem sound_of_avoids (subject : Subject) {r : Regex} (h : r.avoids group = true) :
    Sound subject group r := by
  induction r with
  | empty => exact sound_empty
  | symbol test => exact sound_symbol test
  | anchor condition => exact sound_anchor condition
  | seq first second ihf ihs =>
      simp only [avoids, Bool.and_eq_true] at h
      exact (ihf h.1).seq (ihs h.2)
  | alt first second ihf ihs =>
      simp only [avoids, Bool.and_eq_true] at h
      exact (ihf h.1).alt (ihs h.2)
  | loop greed least most body ih => exact (ih h).loop greed least most
  | capture other body ih =>
      simp only [avoids, Bool.and_eq_true, bne_iff_ne] at h
      exact (ih h.2).capture h.1
  | reference other rule => exact sound_reference other rule
  | lookAhead negated body ih => exact (ih h).lookAhead negated
  | lookBehind negated width body ih => exact (ih h).lookBehind negated width
  | atomic body ih => exact (ih h).atomic
  | ifGroup other yes no ihy ihn =>
      simp only [avoids, Bool.and_eq_true] at h
      exact (ihy h.1).ifGroup (ihn h.2) other

/-- A way through a steady regular expression leads onward, and a group that no part of it remembers
stays as it was. -/
theorem keeps_of_mem_ways {r : Regex} (havoids : r.avoids group = true)
    (hsteady : r.isSteady = true)
    {cursor after : Cursor} (h : after ∈ r.ways subject cursor) : Keeps group cursor after :=
  (sound_of_avoids subject havoids).keeps hsteady cursor after h

/-- Several parts are steady if each of them is. -/
theorem isSteady_ofList {items : List Regex} :
    (ofList items).isSteady = true ↔ ∀ r ∈ items, r.isSteady = true := by
  induction items with
  | nil => simp [ofList, isSteady]
  | cons r items ih =>
      rw [List.forall_mem_cons, ← ih]
      exact Bool.and_eq_true_iff

/-- Several parts avoid a group if each of them does. -/
theorem avoids_ofList {items : List Regex} :
    (ofList items).avoids group = true ↔ ∀ r ∈ items, r.avoids group = true := by
  induction items with
  | nil => simp [ofList, avoids]
  | cons r items ih =>
      rw [List.forall_mem_cons, ← ih]
      exact Bool.and_eq_true_iff

/-- A part that is remembered under a number of its own has taken something, whatever comes
before. -/
theorem isSome_group?_of_mem_ways {front back : List Regex} {cursor after : Cursor}
    (havoids : body.avoids group = true) (hsteady : body.isSteady = true)
    (hback : (ofList back).avoids group = true) (hback' : (ofList back).isSteady = true)
    (h : after ∈ ways subject (ofList (front ++ capture group body :: back)) cursor) :
    (after.group? group).isSome = true := by
  rw [ways_ofList_append, List.mem_flatMap] at h
  obtain ⟨before, -, h⟩ := h
  rw [ways_ofList_cons, List.mem_flatMap] at h
  obtain ⟨taken, htaken, h⟩ := h
  obtain ⟨last, hlast, rfl⟩ := List.mem_map.1 htaken
  have hbody := keeps_of_mem_ways havoids hsteady hlast
  have hrest := keeps_of_mem_ways hback hback' h
  have hstart : after.starts group = some before.position := by
    rw [hrest.starts]
    exact hbody.starts.trans (if_pos rfl)
  have hstop : after.stops group = some last.position := by
    rw [hrest.stops]
    exact if_pos rfl
  have hle : before.position ≤ last.position := hbody.le
  simp [Cursor.group?, hstart, hstop, hle]

end Regex

end Marginalia
