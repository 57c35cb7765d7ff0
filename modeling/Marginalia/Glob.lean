import Marginalia.Text

/-!
# Glob patterns

A glob pattern matches whole names: a star matches any run of code points, a question mark any
one, and a set in square brackets one of its members, or one of no member if it begins with an
exclamation mark.  A bracket without its partner stands for itself, and so does everything else;
nothing is escaped and case counts.

A range in a set whose bounds are in the wrong order is left out.  What then comes first decides
whether the set is negated, so leaving out a range at the front can uncover an exclamation mark.
-/

namespace Marginalia.Glob

/-- A member of a set: all code points between two bounds, both included. -/
abbrev Range := Nat × Nat

/-- A part of a pattern. -/
inductive Piece where
  /-- Any run of code points. -/
  | star
  /-- Any one code point. -/
  | any
  /-- This code point. -/
  | one (p : CodePoint)
  /-- A code point in one of the ranges, or in none. -/
  | set (ranges : List Range) (negated : Bool)
deriving DecidableEq

/-- The ranges that the content of a set lists: a dash between two code points makes a range,
and each other code point is a range of its own. -/
def readRanges : Text → List Range
  | [] => []
  | [a] => [(a.code, a.code)]
  | [a, b] => [(a.code, a.code), (b.code, b.code)]
  | a :: .char '-' :: b :: rest => (a.code, b.code) :: readRanges rest
  | a :: rest => (a.code, a.code) :: readRanges rest

/-- The set for the content between brackets. -/
def setOf (content : Text) : Piece :=
  match content with
  | .char '!' :: members =>
    match (readRanges members).filter fun r => r.1 ≤ r.2 with
    | [] => .any
    | ranges => .set ranges true
  | _ =>
    match (readRanges content).filter fun r => r.1 ≤ r.2 with
    | (33, 33) :: ranges => if ranges.isEmpty then .any else .set ranges true
    | (33, last) :: ranges => .set ((45, 45) :: (last, last) :: ranges) true
    | ranges => .set ranges false

/-- The content of a set after its opening bracket, and what follows its closing bracket; a
closing bracket that comes first, or right after the exclamation mark, belongs to the content. -/
def splitSet (text : Text) : Option (Text × Text) :=
  let (mark, afterMark) := match text with
    | .char '!' :: rest => ([CodePoint.char '!'], rest)
    | _ => ([], text)
  let (first, rest) := match afterMark with
    | .char ']' :: rest => ([CodePoint.char ']'], rest)
    | _ => ([], afterMark)
  match rest.dropWhile (· != .char ']') with
  | [] => none
  | _ :: left => some (mark ++ first ++ rest.takeWhile (· != .char ']'), left)

/-- Reads a pattern; each piece takes at least one code point, so the length of the text is fuel
enough. -/
def readPieces : (fuel : Nat) → Text → List Piece
  | 0, _ => []
  | _, [] => []
  | fuel + 1, p :: rest =>
    match p with
    | .char '*' => .star :: readPieces fuel rest
    | .char '?' => .any :: readPieces fuel rest
    | .char '[' =>
      match splitSet rest with
      | some (content, left) => setOf content :: readPieces fuel left
      | none => .one p :: readPieces fuel rest
    | _ => .one p :: readPieces fuel rest

/-- The pieces of a pattern. -/
def pieces (pattern : Text) : List Piece := readPieces pattern.length pattern

/-- Whether a piece that is no star takes a code point. -/
def Piece.takes (piece : Piece) (p : CodePoint) : Bool :=
  match piece with
  | star => false
  | any => true
  | one q => p == q
  | set ranges negated => ranges.any (fun r => r.1 ≤ p.code && p.code ≤ r.2) != negated

/-- Whether a test holds of a name or of what is left of it after some code points. -/
def somewhere (holds : Text → Bool) : Text → Bool
  | [] => holds []
  | p :: rest => holds (p :: rest) || somewhere holds rest

/-- Whether pieces match a whole name. -/
def matchPieces : List Piece → Text → Bool
  | [], name => name.isEmpty
  | .star :: rest, name => somewhere (matchPieces rest) name
  | piece :: rest, p :: name => piece.takes p && matchPieces rest name
  | _ :: _, [] => false

/-- Whether a pattern matches a name. -/
def accepts (pattern name : Text) : Bool := matchPieces (pieces pattern) name

/-- Whether one of some patterns matches a name. -/
def anyAccepts (patterns : List Text) (name : Text) : Bool := patterns.any (accepts · name)

/-- A star at the end matches whatever is left. -/
theorem matchPieces_star (name : Text) : matchPieces [.star] name = true := by
  rw [matchPieces]
  induction name with
  | nil => rfl
  | cons p rest ih => simp [somewhere, ih]

end Marginalia.Glob
