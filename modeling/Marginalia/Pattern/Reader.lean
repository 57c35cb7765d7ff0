import Marginalia.Pattern.Spelling

/-!
# Reading patterns

`Pattern.read` turns the text of a pattern into a regular expression.  It is a machine over the
text: `Reader.advance` takes the next code point and what belongs to it, and changes the
`Reader`, which holds the groups that are open, the innermost first, and what is known about
the groups that were closed.  `Reader.run` repeats this to the end of the text and
`Reader.finish` checks what only the whole pattern can tell.

Because the machine keeps no other state, what it makes of a text put together from parts is
what it makes of the parts in turn.  A letter that needs no escape adds one test to the innermost
group and changes nothing else (`advance_letter`).
-/

namespace Marginalia

/-- A pattern: a regular expression with its groups. -/
structure Pattern where
  regex : Regex
  groupCount : Nat
  /-- The named groups. -/
  names : List (Text × Nat)
deriving Inhabited

namespace Pattern

/-- What is known of a pattern while it is read. -/
structure Reader where
  inner : OpenGroup
  outer : List OpenGroup := []
  /-- How many capturing groups were opened. -/
  groupCount : Nat := 0
  names : List (Text × Nat) := []
  /-- The widths of the capturing groups that were closed. -/
  widths : List (Nat × Regex.Width) := []
  /-- Within a look behind, how many groups were opened before it. -/
  behind : Option Nat := none
  /-- The groups that conditions mention by number; they may be opened later. -/
  mentioned : List Nat := []
  /-- A fault that counts only if the whole pattern can be read. -/
  deferred : Option Fault := none

namespace Reader

/-- Groups can be nested so deep. -/
def nestingLimit : Nat := 480

/-- The flags in force. -/
def flags (r : Reader) : Flags := r.inner.flags

/-- Adds a piece to the branch being read. -/
def push (r : Reader) (piece : Piece) : Reader :=
  { r with inner := { r.inner with pieces := piece :: r.inner.pieces } }

/-- Checks that a group can be referred to here. -/
def checkReference (r : Reader) (group : Nat) : Except Fault Unit :=
  if (r.widths.lookup group).isNone then .error .openGroup
  else match r.behind with
    | some count => if count < group then .error .sameLookBehind else .ok ()
    | none => .ok ()

/-- Opens a group. -/
def openGroup (r : Reader) (kind : GroupKind) (flags : Flags) : Except Fault Reader :=
  if nestingLimit ≤ r.outer.length then .error .tooDeep
  else .ok { r with inner := { kind, flags }, outer := r.inner :: r.outer }

/-- Opens a capturing group. -/
def openCapture (r : Reader) (name? : Option Text) : Except Fault Reader :=
  let group := r.groupCount + 1
  let named (names : List (Text × Nat)) := { r with groupCount := group, names }
  match name? with
  | none => (named r.names).openGroup (.capture group) r.flags
  | some name =>
    if (r.names.lookup name).isSome then .error .duplicateGroupName
    else (named ((name, group) :: r.names)).openGroup (.capture group) r.flags

/-- The width of a regular expression among the groups closed so far. -/
def widthOf (r : Reader) (regex : Regex) : Regex.Width :=
  regex.width fun group => (r.widths.lookup group).getD .zero

/-- What is wrong with the width of a look behind. -/
def widthFault? (width : Regex.Width) : Option Fault :=
  if countLimit < width.least then some .lookBehindTooFar
  else if width.least = width.greatest then none
  else some .lookBehindNotFixed

/-- Closes the innermost group. -/
def close (r : Reader) : Except Fault Reader :=
  match r.outer with
  | [] => .error .unbalancedGroup
  | inner :: outer =>
    let body := r.inner.piece
    let closed := { r with inner, outer }
    match r.inner.kind with
    | .whole => .error .unbalancedGroup
    | .plain true => .ok (closed.push { regex := .seq body.regex .empty })
    | .plain false =>
      match r.inner.allBranches with
      | [[piece]] => .ok (closed.push { piece with unrepeatable := none })
      | _ => .ok (closed.push body)
    | .capture group =>
      .ok ({ closed with widths := (group, r.widthOf body.regex) :: r.widths }.push
        { regex := .capture group body.regex })
    | .lookAhead negated => .ok (closed.push { regex := .lookAhead negated body.regex })
    | .lookBehind negated around =>
      let width := r.widthOf body.regex
      .ok ({ closed with behind := around, deferred := r.deferred.or (widthFault? width) }.push
        { regex := .lookBehind negated width.least body.regex })
    | .atomic => .ok (closed.push { regex := .atomic body.regex })
    | .ifGroup group =>
      match r.inner.allBranches with
      | [yes, no] => .ok (closed.push
          { regex := .ifGroup group (Piece.branchRegex yes) (Piece.branchRegex no) })
      | _ => .ok (closed.push { regex := .ifGroup group (Piece.branchRegex r.inner.pieces) .empty })

/-- Starts the next branch of the innermost group; a condition chooses between two. -/
def nextBranch (r : Reader) : Except Fault Reader :=
  let next : Reader :=
    { r with
      inner := { r.inner with branches := r.inner.pieces :: r.inner.branches, pieces := [] } }
  match r.inner.kind with
  | .ifGroup _ => if r.inner.branches.isEmpty then .ok next else .error .tooManyBranches
  | _ => .ok next

/-- Adds what an escape stands for. -/
def pushEscape (r : Reader) : Escape → Except Fault Reader
  | .letter code => .ok (r.push (.ofLetter r.flags code))
  | .category kind negated => .ok (r.push (.ofSet r.flags [.category kind negated] false))
  | .anchor make => .ok (r.push (.ofAnchor (make r.flags.multiline r.flags.asciiOnly)))
  | .reference group =>
    if r.groupCount < group then .error .unknownGroup
    else (r.checkReference group).map fun _ => r.push { regex := .reference group r.flags.rule }

/-- Repeats the last piece; a question mark or a plus sign after the counts changes the order in
which the lengths are tried. -/
def repeatLast (r : Reader) (least : Nat) (most : Option Nat) (rest : Text) :
    Except Fault (Reader × Text) :=
  match r.inner.pieces with
  | [] => .error .nothingToRepeat
  | piece :: pieces =>
    match piece.unrepeatable with
    | some fault => .error fault
    | none =>
      let (greed, left) : Greed × Text := match rest with
        | .char '?' :: left => (.lazy, left)
        | .char '+' :: left => (.possessive, left)
        | _ => (.greedy, rest)
      let looped : Piece :=
        { regex := .loop greed least most piece.regex, unrepeatable := some .multipleRepeat }
      .ok ({ r with inner := { r.inner with pieces := looped :: pieces } }, left)

/-- Reads the condition of a choice and opens its group. -/
def openCondition (r : Reader) (name : Text) : Except Fault Reader := do
  let (group, mentioned) ←
    if isGroupName name then
      match r.names.lookup name with
      | some group => .ok (group, r.mentioned)
      | none => .error Fault.unknownGroup
    else match groupNumber? name with
      | none => .error .badGroupName
      | some 0 => .error .unknownGroup
      | some group =>
        if groupLimit ≤ group then .error .unknownGroup else .ok (group, group :: r.mentioned)
  if r.behind.isSome then r.checkReference group
  { r with mentioned }.openGroup (.ifGroup group) r.flags

/-- Reads what follows an opening parenthesis. -/
def readOpening (r : Reader) : Text → Except Fault (Reader × Text)
  | .char '?' :: .char 'P' :: .char '<' :: rest => do
    let (name, left) ← takeUntil (.char '>') [] rest
    if isGroupName name then (r.openCapture (some name)).map (·, left)
    else .error .badGroupName
  | .char '?' :: .char 'P' :: .char '=' :: rest => do
    let (name, left) ← takeUntil (.char ')') [] rest
    if isGroupName name then
      match r.names.lookup name with
      | none => .error .unknownGroup
      | some group =>
        (r.checkReference group).map fun _ =>
          (r.push { regex := .reference group r.flags.rule }, left)
    else .error .badGroupName
  | .char '?' :: .char ':' :: rest => (r.openGroup (.plain false) r.flags).map (·, rest)
  | .char '?' :: .char '#' :: rest => (skipComment rest).map (r, ·)
  | .char '?' :: .char '=' :: rest => (r.openGroup (.lookAhead false) r.flags).map (·, rest)
  | .char '?' :: .char '!' :: rest => (r.openGroup (.lookAhead true) r.flags).map (·, rest)
  | .char '?' :: .char '<' :: .char '=' :: rest => (openBehind false).map (·, rest)
  | .char '?' :: .char '<' :: .char '!' :: rest => (openBehind true).map (·, rest)
  | .char '?' :: .char '(' :: rest => do
    let (name, left) ← takeUntil (.char ')') [] rest
    (r.openCondition name).map (·, left)
  | .char '?' :: .char '>' :: rest => (r.openGroup .atomic r.flags).map (·, rest)
  | .char '?' :: rest => do
    let ((on, off), left) ← readFlags rest
    (r.openGroup (.plain true) (changeFlags r.flags on off)).map (·, left)
  | rest => (r.openCapture none).map (·, rest)
where
  openBehind (negated : Bool) : Except Fault Reader :=
    { r with behind := r.behind.or (some r.groupCount) }.openGroup
      (.lookBehind negated r.behind) r.flags

/-- Whether a code point is skipped under the verbose flag. -/
def isFiller (p : CodePoint) : Bool := p.code == 32 || (9 ≤ p.code && p.code ≤ 13)

/-- Takes one code point and what belongs to it. -/
def advance (r : Reader) (p : CodePoint) (rest : Text) : Except Fault (Reader × Text) :=
  if r.flags.verbose && isFiller p then .ok (r, rest)
  else match p with
  | .char '\\' =>
    match rest with
    | [] => .error .danglingEscape
    | q :: left => do
      let (escape, left) ← readEscape q left
      (r.pushEscape escape).map (·, left)
  | .char '|' => r.nextBranch.map (·, rest)
  | .char ')' => r.close.map (·, rest)
  | .char '(' => r.readOpening rest
  | .char '[' =>
    let (negated, members) := match rest with
      | .char '^' :: left => (true, left)
      | _ => (false, rest)
    (readSet (members.length + 1) [] members).map fun (items, left) =>
      (r.push (.ofSet r.flags items negated), left)
  | .char '.' =>
      .ok (r.push { regex := .symbol (if r.flags.dotAll then .any else .notNewline) }, rest)
  | .char '^' => .ok (r.push (.ofAnchor (if r.flags.multiline then .lineStart else .start)), rest)
  | .char '$' =>
      .ok (r.push (.ofAnchor (if r.flags.multiline then .lineEnd else .beforeFinish)), rest)
  | .char '?' => r.repeatLast 0 (some 1) rest
  | .char '*' => r.repeatLast 0 none rest
  | .char '+' => r.repeatLast 1 none rest
  | .char '\x7b' => do
    match ← readCounts rest with
    | some ((least, most), left) => r.repeatLast least most left
    | none => .ok (r.push (.ofLetter r.flags p.code), rest)
  | .char '#' =>
    if r.flags.verbose then .ok (r, skipLine rest)
    else .ok (r.push (.ofLetter r.flags p.code), rest)
  | _ => .ok (r.push (.ofLetter r.flags p.code), rest)

/-- The code points that are more than letters in a pattern. -/
def marks : Text :=
  ['\\', '|', ')', '(', '[', '.', '^', '$', '?', '*', '+', '\x7b', '#'].map .char

/-- Without the verbose flag, a code point that is not a mark stands for itself. -/
theorem advance_letter {r : Reader} {p : CodePoint} (hv : r.flags.verbose = false)
    (hp : p ∉ marks) (rest : Text) :
    r.advance p rest = .ok (r.push (.ofLetter r.flags p.code), rest) := by
  unfold advance
  simp only [hv, Bool.false_and, Bool.false_eq_true, if_false]
  split
  case h_14 => rfl
  all_goals exact absurd (by simp [marks]) hp

/-- Reads a text to its end; every step takes at least one code point, so the length of the text
is fuel enough. -/
def run : (fuel : Nat) → Reader → Text → Except Fault Reader
  | _, r, [] => .ok r
  | 0, _, _ :: _ => .error .unterminatedGroup
  | fuel + 1, r, p :: rest => do
    let (next, left) ← r.advance p rest
    run fuel next left

/-- Checks the groups at the end of the pattern. -/
def finish (r : Reader) : Except Fault Pattern :=
  match r.outer, r.deferred with
  | _ :: _, _ => .error .unterminatedGroup
  | [], deferred =>
    if r.mentioned.any (r.groupCount < ·) then .error .unknownGroup
    else match deferred with
      | some fault => .error fault
      | none => .ok
        { regex := r.inner.piece.regex, groupCount := r.groupCount, names := r.names }

end Reader

/-- Reads a pattern under the given flags. -/
def read (flags : Flags) (text : Text) : Except Fault Pattern := do
  let r ← Reader.run text.length { inner := { kind := .whole, flags } } text
  r.finish

end Pattern

end Marginalia
