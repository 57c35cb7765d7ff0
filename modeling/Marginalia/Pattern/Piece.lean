import Marginalia.Pattern.Escape

/-!
# Pieces of patterns

While a pattern is read, each branch of an open group is a list of pieces, the last one first.  When
the group is closed its branches make a piece together (`OpenGroup.piece`): what all branches begin
with is put in front of the choice, and a choice between letters and sets is a set.
-/

namespace Marginalia.Pattern

/-- The flags in force somewhere in a pattern. -/
structure Flags where
  ignoreCase : Bool := false
  multiline : Bool := false
  dotAll : Bool := false
  verbose : Bool := false
  asciiOnly : Bool := false
deriving DecidableEq, Inhabited

/-- How letters compare under flags. -/
def Flags.rule (flags : Flags) : CaseRule :=
  if flags.ignoreCase then if flags.asciiOnly then .ascii else .unicode else .exact

/-- An item of a branch. -/
structure Piece where
  regex : Regex
  /-- The members of the set of code points that the piece is, if it can join other sets. -/
  members? : Option (List SetItem) := none
  /-- Why the piece cannot be repeated, if it cannot. -/
  unrepeatable : Option Fault := none
deriving Inhabited

namespace Piece

/-- The piece for a set of code points. -/
def ofSet (flags : Flags) (items : List SetItem) (negated : Bool) : Piece :=
  { regex := .symbol (.ofSet flags.rule flags.asciiOnly items negated)
    members? := if negated then none else some items }

/-- The piece for one letter. -/
def ofLetter (flags : Flags) (code : Nat) : Piece :=
  { regex := .symbol (.literal flags.rule code false), members? := some [.one code] }

/-- The piece for a condition on the position. -/
def ofAnchor (anchor : Anchor) : Piece :=
  { regex := .anchor anchor, unrepeatable := some .nothingToRepeat }

/-- The regular expression of a branch, whose last piece comes first. -/
def branchRegex (pieces : List Piece) : Regex := .ofList (pieces.reverse.map (·.regex))

/-- The members of a branch that is a single set. -/
def branchMembers? : List Piece → Option (List SetItem)
  | [piece] => piece.members?
  | _ => none

/-- Whether a piece is a single condition, so that two of them can be recognised as equal. -/
def isLeaf (piece : Piece) : Bool :=
  match piece.regex with
  | .symbol _ | .anchor _ | .reference .. => true
  | _ => false

/-- The pieces with which all branches begin, and what is left of the branches; `first` is the
first branch, with its first piece in front. -/
def sharedFront : (first : List Piece) → (others : List (List Piece)) →
    List Piece × List (List Piece)
  | [], others => ([], [] :: others)
  | piece :: pieces, others =>
    if isLeaf piece && others.all (fun branch => branch.head?.any (·.regex = piece.regex)) then
      let (front, rests) := sharedFront pieces (others.map List.tail)
      (piece :: front, rests)
    else ([], (piece :: pieces) :: others)

/-- The piece for a choice: one set if each branch is a letter or a set. -/
def choice (flags : Flags) (branches : List (List Piece)) : Piece :=
  match branches.mapM branchMembers? with
  | some sets => ofSet flags sets.flatten false
  | none => { regex := .choice (branches.map fun pieces => .ofList (pieces.map (·.regex))) }

end Piece

/-- What a group is for. -/
inductive GroupKind where
  /-- The whole pattern. -/
  | whole
  /-- A group that only holds together, perhaps with flags of its own. -/
  | plain (ownFlags : Bool)
  | capture (group : Nat)
  | lookAhead (negated : Bool)
  /-- A look behind, with the limit on references of the look behind around it. -/
  | lookBehind (negated : Bool) (around : Option Nat)
  | atomic
  | ifGroup (group : Nat)

/-- A group whose end has not been read. -/
structure OpenGroup where
  kind : GroupKind
  flags : Flags
  /-- The finished branches, last first, each with its last piece first. -/
  branches : List (List Piece) := []
  /-- The pieces of the branch being read, last first. -/
  pieces : List Piece := []

namespace OpenGroup

/-- The branches of a group, in order. -/
def allBranches (group : OpenGroup) : List (List Piece) := (group.pieces :: group.branches).reverse

/-- The piece that the branches of a group make together.  What all branches begin with stands
before the choice. -/
def piece (group : OpenGroup) : Piece :=
  match group.allBranches with
  | [] => { regex := .empty }
  | [pieces] => { regex := Piece.branchRegex pieces, members? := Piece.branchMembers? pieces }
  | first :: others =>
    match Piece.sharedFront first.reverse (others.map List.reverse) with
    | ([], branches) => Piece.choice group.flags branches
    | (front, branches) =>
      { regex := .ofList (front.map (·.regex) ++ [(Piece.choice group.flags branches).regex]) }

end OpenGroup

end Marginalia.Pattern
