import Marginalia.Pattern.Cursor

/-!
# Repetition

The ways in which a matcher is repeated: the most rounds first, the fewest rounds first, or as many
rounds as there are, without taking one back.

A repetition ends a run of empty rounds: once the required rounds are done, another round is
tried only from a position other than the one where the last such round began.  So the rounds
beyond the required ones each begin further to the right.

The last kind goes on from where its last attempt came to rest, and an attempt that failed does not
always come to rest where it began.  So an attempt has an `Outcome`: a match, or else its place of
rest.  `longestFirst` and `shortestFirst` follow this place through the repetition of a single test.

So a possessive repetition is not always a greedy one in a group that stands by itself, though it is
often described so.  On `aca`, `(?:ab?c)*+` stops at 3, where the attempt of a second round has come
to rest after its `a`, and `(?>(?:ab?c)*)` stops at 2.  This is how the interpreter works by which
the tags are read, up to the versions that changed it, and it is followed here on purpose.
-/

namespace Marginalia

/-- Finds the first way through itself and a continuation. -/
abbrev Matcher := Cursor → (Cursor → Option Cursor) → Option Cursor

namespace Matcher

/-- Whether another round may be tried: not beyond the greatest count, and not from where the
last round beyond the required ones began. -/
def mayRepeat (most : Option Nat) (done : Nat) (last : Option Nat) (cursor : Cursor) : Bool :=
  (match most with
    | some n => done < n
    | none => true) && last != some cursor.position

/-- Repeats a matcher, trying another round before going on. -/
def greedy (body : Matcher) (least : Nat) (most : Option Nat) :
    (fuel done : Nat) → (last : Option Nat) → Matcher
  | 0, _, _, cursor, next => next cursor
  | fuel + 1, done, last, cursor, next =>
    if done < least then
      body cursor fun after => greedy body least most fuel (done + 1) last after next
    else if mayRepeat most done last cursor then
      match body cursor fun after =>
          greedy body least most fuel (done + 1) (some cursor.position) after next with
      | some found => some found
      | none => next cursor
    else next cursor

/-- Repeats a matcher, going on before trying another round. -/
def lazy (body : Matcher) (least : Nat) (most : Option Nat) :
    (fuel done : Nat) → (last : Option Nat) → Matcher
  | 0, _, _, cursor, next => next cursor
  | fuel + 1, done, last, cursor, next =>
    if done < least then
      body cursor fun after => lazy body least most fuel (done + 1) last after next
    else
      match next cursor with
      | some found => some found
      | none =>
        if mayRepeat most done last cursor then
          body cursor fun after =>
            lazy body least most fuel (done + 1) (some cursor.position) after next
        else none

end Matcher

/-- A match, or else where a failed attempt came to rest. -/
abbrev Outcome := Except Nat Cursor

namespace Outcome

/-- The outcome of a match that comes to rest at the given place if it fails. -/
def orRest (rest : Nat) : Option Cursor → Outcome
  | some found => .ok found
  | none => .error rest

end Outcome

/-- What a regular expression begins with, as far as it can be told from the next code point
alone whether a try is worthwhile. -/
inductive Opening where
  /-- This very letter. -/
  | letter (code : Nat)
  /-- A member of a set, compared exactly. -/
  | member (test : Symbols)
  /-- Something else. -/
  | other

/-- Whether a try at a position is out of question. -/
def Opening.rulesOut (opening : Opening) (next? : Option Nat) : Bool :=
  match opening with
  | letter code => next? != some code
  | member test => !next?.any test.accepts
  | other => false

namespace Symbols

/-- How many code points in a row pass the test, from a position on and up to a number. -/
def countFrom (test : Symbols) (subject : Subject) : (most position : Nat) → Nat
  | 0, _ => 0
  | most + 1, position =>
    match subject[position]? with
    | some code => if test.accepts code then countFrom test subject most (position + 1) + 1 else 0
    | none => 0

/-- Whether the test is made by going forward one code point at a time, so that an attempt comes
to rest after the last code point that passed. -/
def isStepwise : Symbols → Bool
  | set rule .. => rule != .exact
  | oneOf _ forms _ => 1 < forms.length
  | _ => false

end Symbols

namespace Matcher

/-- Repeats an attempt as often as it goes, each round on its own; the last one, which failed,
says where to go on. -/
def possessive (attempt : Cursor → Outcome) (least : Nat) (most : Option Nat) :
    (fuel done : Nat) → (last : Option Nat) → Cursor → Option Cursor
  | 0, _, _, cursor => some cursor
  | fuel + 1, done, last, cursor =>
    if done < least then
      match attempt cursor with
      | .ok after => possessive attempt least most fuel (done + 1) last after
      | .error _ => none
    else if mayRepeat most done last cursor then
      match attempt cursor with
      | .ok after => possessive attempt least most fuel (done + 1) (some cursor.position) after
      | .error rest => some (cursor.moveTo rest)
    else some cursor

/-- Goes on from the positions `start + length` for the lengths from the given one down to the
least, leaving out those that are ruled out. -/
def longestFirst (next : Opening) (subject : Subject) (cursor : Cursor)
    (goOn : Cursor → Nat → Outcome) : (lengths least rest : Nat) → Outcome
  | 0, _, rest => .error rest
  | lengths + 1, least, rest =>
    let position := cursor.position + least + lengths
    let blocked := match next with
      | .letter code => subject[position]? != some code
      | _ => false
    if blocked then longestFirst next subject cursor goOn lengths least rest
    else
      match goOn (cursor.moveTo position) position with
      | .ok found => .ok found
      | .error rest => longestFirst next subject cursor goOn lengths least rest

/-- Goes on from a position, and from each further one that code points passing the test lead
to. -/
def shortestFirst (test : Symbols) (subject : Subject) (cursor : Cursor)
    (goOn : Cursor → Nat → Outcome) : (more position : Nat) → Outcome
  | 0, position => .error position
  | more + 1, position =>
    match goOn (cursor.moveTo position) position with
    | .ok found => .ok found
    | .error _ =>
      if subject[position]?.any test.accepts then
        if more = 0 && !test.isStepwise then .error position
        else shortestFirst test subject cursor goOn more (position + 1)
      else .error position

end Matcher

end Marginalia
