import Marginalia.Pattern.Symbols

/-!
# Regular expressions

The shapes of a regular expression after its flags have been worked into its leaves: each test
of a code point, each anchor and each back reference already knows how it compares.

`Regex.width` bounds how many code points a match takes up.  A look behind needs a fixed width,
because it is matched forward from that many code points before.
-/

namespace Marginalia

/-- A condition on a position. -/
inductive Anchor where
  /-- The start of the subject. -/
  | start
  /-- The end of the subject. -/
  | finish
  /-- The end of the subject, or before a line feed that ends it. -/
  | beforeFinish
  /-- The start of the subject or after a line feed. -/
  | lineStart
  /-- The end of the subject or before a line feed. -/
  | lineEnd
  /-- Between a word and what is not a word, or anywhere else if negated. -/
  | wordEdge (asciiOnly negated : Bool)
deriving DecidableEq

/-- The order in which a repetition tries its lengths. -/
inductive Greed where
  /-- As many rounds as possible first. -/
  | greedy
  /-- As few rounds as possible first. -/
  | lazy
  /-- As many rounds as possible, with no second thought. -/
  | possessive
deriving DecidableEq

/-- A regular expression. -/
inductive Regex where
  /-- Matches without taking anything. -/
  | empty
  /-- Takes one code point that passes the test. -/
  | symbol (test : Symbols)
  /-- Holds at a position. -/
  | anchor (anchor : Anchor)
  /-- One after the other. -/
  | seq (first second : Regex)
  /-- The first, or else the second. -/
  | alt (first second : Regex)
  /-- Repeats at least and at most so often. -/
  | loop (greed : Greed) (least : Nat) (most : Option Nat) (body : Regex)
  /-- Remembers what its body takes. -/
  | capture (group : Nat) (body : Regex)
  /-- Takes what a group took. -/
  | reference (group : Nat) (rule : CaseRule)
  /-- Holds where the body matches, or does not. -/
  | lookAhead (negated : Bool) (body : Regex)
  /-- Holds where the body matches `width` code points before, or does not. -/
  | lookBehind (negated : Bool) (width : Nat) (body : Regex)
  /-- The first way the body matches, and no other. -/
  | atomic (body : Regex)
  /-- One of two, as the group has taken part or not. -/
  | ifGroup (group : Nat) (yes no : Regex)
deriving DecidableEq, Inhabited

namespace Regex

/-- A sequence. -/
def ofList (items : List Regex) : Regex := items.foldr seq empty

/-- A choice between alternatives, the first one first. -/
def choice : List Regex → Regex
  | [] => empty
  | [r] => r
  | r :: rest => alt r (choice rest)

/-- The least and the greatest number of code points of a match. -/
structure Width where
  least : Nat
  greatest : Nat
deriving DecidableEq, Inhabited

namespace Width

/-- Widths are not told apart from here on. -/
def limit : Nat := 18446744073709551616

/-- The width of nothing. -/
def zero : Width := ⟨0, 0⟩

/-- One after the other. -/
def add (a b : Width) : Width :=
  ⟨min (a.least + b.least) limit, min (a.greatest + b.greatest) limit⟩

/-- Either of two. -/
def either (a b : Width) : Width := ⟨min a.least b.least, max a.greatest b.greatest⟩

/-- Repeated between two counts. -/
def times (a : Width) (least : Nat) (most : Option Nat) : Width :=
  ⟨min (a.least * least) limit,
    match most with
    | some n => min (a.greatest * n) limit
    | none => if a.greatest = 0 then 0 else limit⟩

end Width

/-- The width of a regular expression, given those of the groups it refers to. -/
def width (groups : Nat → Width) : Regex → Width
  | empty => .zero
  | symbol _ => ⟨1, 1⟩
  | anchor _ => .zero
  | seq first second => (first.width groups).add (second.width groups)
  | alt first second => (first.width groups).either (second.width groups)
  | loop _ least most body => (body.width groups).times least most
  | capture _ body => body.width groups
  | reference group _ => groups group
  | lookAhead .. => .zero
  | lookBehind .. => .zero
  | atomic body => body.width groups
  | ifGroup _ yes no => (yes.width groups).either (no.width groups)

end Regex

end Marginalia
