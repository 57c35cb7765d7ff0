import Marginalia.Pattern.Repetition

/-!
# Matching

A matcher takes a cursor and a continuation and answers with the first way through both, so a
choice that turns out wrong further on is taken back by trying the next one.  `Regex.run` gives
each regular expression its matcher, `Pattern.matchAt` runs a pattern at a position of a subject
and `Pattern.search` tries the positions from left to right.

`Regex.trace` matches like `Regex.run` and follows the place of rest of an attempt as well: a
choice, a look around and a repetition each put it where they begin a try, and a match of the part
of a pattern that stands by itself puts it at the end of the match.  Nothing but a possessive
repetition depends on it: it goes on from the place of rest of its last attempt, as the interpreter
does by which the tags are read, and not from where that attempt began (see `Matcher.possessive`).
-/

namespace Marginalia

namespace Regex

/-- The test that a regular expression consists of. -/
def single? : Regex → Option Symbols
  | symbol test => some test
  | seq first empty => single? first
  | _ => none

/-- What a regular expression begins with, if it is not empty. -/
def opening? : Regex → Option Opening
  | empty => none
  | symbol (.oneOf .exact [code] false) => some (.letter code)
  | symbol test@(.set .exact ..) => some (.member test)
  | seq first second => first.opening?.or second.opening?
  | _ => some .other

/-- How many rounds of a repetition there can be from a position on: the required ones, and one
beginning at each position up to the end. -/
def rounds (subject : Subject) (least : Nat) (cursor : Cursor) : Nat :=
  least + (subject.size - cursor.position) + 2

/-- Whether a regular expression is a choice. -/
def isChoice : Regex → Bool
  | alt .. => true
  | _ => false

mutual

/-- Matches a regular expression from a cursor on and continues. -/
def run (subject : Subject) : Regex → Matcher
  | empty, cursor, next => next cursor
  | symbol test, cursor, next =>
    match subject[cursor.position]? with
    | some code => if test.accepts code then next (cursor.moveTo (cursor.position + 1)) else none
    | none => none
  | anchor condition, cursor, next =>
    if subject.holds cursor.position condition then next cursor else none
  | seq first second, cursor, next =>
    run subject first cursor fun after => run subject second after next
  | alt first second, cursor, next =>
    match run subject first cursor next with
    | some found => some found
    | none => run subject second cursor next
  | loop .greedy least most body, cursor, next =>
    Matcher.greedy (run subject body) least most (rounds subject least cursor) 0 none cursor next
  | loop .lazy least most body, cursor, next =>
    Matcher.lazy (run subject body) least most (rounds subject least cursor) 0 none cursor next
  | loop .possessive least most body, cursor, next =>
    let attempt (cursor : Cursor) : Outcome :=
      trace subject body .other cursor cursor.position fun after _ => .ok after
    match Matcher.possessive attempt least most (rounds subject least cursor) 0 none cursor with
    | some after => next after
    | none => none
  | capture group body, cursor, next =>
    run subject body (cursor.enter group) fun after => next (after.leave group)
  | reference group rule, cursor, next =>
    match subject.repeated? rule cursor group with
    | some after => next after
    | none => none
  | lookAhead negated body, cursor, next =>
    match run subject body cursor some with
    | some after => if negated then none else next (after.moveTo cursor.position)
    | none => if negated then next cursor else none
  | lookBehind negated width body, cursor, next =>
    if cursor.position < width then if negated then next cursor else none
    else
      match run subject body (cursor.moveTo (cursor.position - width)) some with
      | some after => if negated then none else next (after.moveTo cursor.position)
      | none => if negated then next cursor else none
  | atomic body, cursor, next =>
    match run subject body cursor some with
    | some after => next after
    | none => none
  | ifGroup group yes no, cursor, next =>
    match cursor.group? group with
    | some _ => run subject yes cursor next
    | none => run subject no cursor next

/-- Matches like `run`; `next` is what comes after, `rest` where the attempt is at rest so far,
and going on takes the place of rest along. -/
def trace (subject : Subject) : Regex → (next : Opening) → Cursor → (rest : Nat) →
    (goOn : Cursor → Nat → Outcome) → Outcome
  | empty, _, cursor, rest, goOn => goOn cursor rest
  | symbol test, _, cursor, rest, goOn =>
    match subject[cursor.position]? with
    | some code =>
      if test.accepts code then goOn (cursor.moveTo (cursor.position + 1)) rest else .error rest
    | none => .error rest
  | anchor condition, _, cursor, rest, goOn =>
    if subject.holds cursor.position condition then goOn cursor rest else .error rest
  | seq first second, next, cursor, rest, goOn =>
    trace subject first (second.opening?.getD next) cursor rest fun after rest =>
      trace subject second next after rest goOn
  | alt first second, _, cursor, rest, goOn =>
    let ruledOut (branch : Regex) : Bool :=
      (branch.opening?.getD .other).rulesOut subject[cursor.position]?
    let tried := if ruledOut first then .error rest
      else trace subject first .other cursor cursor.position goOn
    match tried with
    | .ok found => .ok found
    | .error rest =>
      if second.isChoice then trace subject second .other cursor rest goOn
      else if ruledOut second then .error rest
      else trace subject second .other cursor cursor.position goOn
  | loop greed least most body, next, cursor, rest, goOn =>
    match single? body with
    | some test =>
      let start := cursor.position
      let counted := test.countFrom subject (match greed, most with
        | .lazy, _ => least
        | _, some most => most
        | _, none => subject.size) start
      let afterCount := if test.isStepwise then start + counted else start
      if subject.size - start < least then .error rest
      else if counted < least then .error afterCount
      else match greed with
        | .greedy =>
          Matcher.longestFirst next subject cursor goOn (counted - least + 1) least afterCount
        | .lazy =>
          let tries := (match most with
            | some most => most - least
            | none => subject.size - start) + 1
          Matcher.shortestFirst test subject cursor goOn tries (start + least)
        | .possessive => goOn (cursor.moveTo (start + counted)) (start + counted)
    | none =>
      let continued (after : Cursor) : Option Cursor := (goOn after after.position).toOption
      let fuel := rounds subject least cursor
      Outcome.orRest cursor.position <| match greed with
        | .greedy => Matcher.greedy (run subject body) least most fuel 0 none cursor continued
        | .lazy => Matcher.lazy (run subject body) least most fuel 0 none cursor continued
        | .possessive =>
          let attempt (cursor : Cursor) : Outcome :=
            trace subject body .other cursor cursor.position fun after _ => .ok after
          (Matcher.possessive attempt least most fuel 0 none cursor).bind continued
  | capture group body, _, cursor, rest, goOn =>
    trace subject body .other (cursor.enter group) rest fun after rest =>
      goOn (after.leave group) rest
  | reference group rule, _, cursor, rest, goOn =>
    match subject.repeated? rule cursor group with
    | some after => goOn after rest
    | none => .error rest
  | lookAhead negated body, _, cursor, _, goOn =>
    match trace subject body .other cursor cursor.position fun after _ => .ok after with
    | .ok after =>
      if negated then .error after.position else goOn (after.moveTo cursor.position) after.position
    | .error rest => if negated then goOn cursor rest else .error rest
  | lookBehind negated width body, _, cursor, rest, goOn =>
    if cursor.position < width then if negated then goOn cursor rest else .error rest
    else
      let start := cursor.position - width
      match trace subject body .other (cursor.moveTo start) start fun after _ => .ok after with
      | .ok after =>
        if negated then .error after.position
        else goOn (after.moveTo cursor.position) after.position
      | .error rest => if negated then goOn cursor rest else .error rest
  | atomic body, _, cursor, _, goOn =>
    match trace subject body .other cursor cursor.position fun after _ => .ok after with
    | .ok after => goOn after after.position
    | .error _ => .error cursor.position
  | ifGroup group yes no, next, cursor, rest, goOn =>
    match cursor.group? group with
    | some _ => trace subject yes (if no.opening?.isNone then next else .other) cursor rest goOn
    | none => trace subject no next cursor rest goOn

end

end Regex

/-- What a pattern matched: from where, to where, and what its groups took. -/
structure Match where
  start : Nat
  last : Cursor

namespace Match

/-- Where the match ends. -/
def stop (found : Match) : Nat := found.last.position

/-- What a group took, if it took part. -/
def group? (found : Match) (group : Nat) : Option (Nat × Nat) := found.last.group? group

end Match

namespace Pattern

/-- The first way a pattern matches at a position. -/
def matchAt (pattern : Pattern) (subject : Subject) (start : Nat) : Option Match :=
  (pattern.regex.run subject (.ofPosition start) some).map fun last => { start, last }

/-- The first match at or after a position, with so many positions left. -/
def searchFrom (pattern : Pattern) (subject : Subject) : (left start : Nat) → Option Match
  | 0, start => pattern.matchAt subject start
  | left + 1, start =>
    match pattern.matchAt subject start with
    | some found => some found
    | none => searchFrom pattern subject left (start + 1)

/-- The leftmost match of a pattern in a subject. -/
def search (pattern : Pattern) (subject : Subject) : Option Match :=
  pattern.searchFrom subject subject.size 0

/-- What a named group took, if it took part. -/
def named? (pattern : Pattern) (found : Match) (name : Text) : Option (Nat × Nat) :=
  (pattern.names.lookup name).bind found.group?

end Pattern

end Marginalia
