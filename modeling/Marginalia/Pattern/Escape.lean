import Marginalia.Pattern.Regex
import Marginalia.Unicode.Name

/-!
# Escapes and sets

The smaller parts of pattern syntax: what a backslash introduces, in and outside of a set, and
the members of a set between square brackets.  Each reader takes the text that follows and
returns what it read with the text that is left; `Pattern.Fault` lists what can be wrong.

A backslash and the code point after it count as one unit wherever text is skipped, in names and
comments too, so an escaped delimiter delimits nothing.
-/

namespace Marginalia.Pattern

/-- What can be wrong with a pattern. -/
inductive Fault where
  | danglingEscape
  | badEscape
  | incompleteEscape
  | unknownName
  | octalTooLarge
  | unknownGroup
  | openGroup
  | sameLookBehind
  | unterminatedSet
  | badRange
  | nothingToRepeat
  | multipleRepeat
  | countsReversed
  | badGroupName
  | duplicateGroupName
  | unknownExtension
  | badFlags
  | unterminatedComment
  | unterminatedGroup
  | unbalancedGroup
  | tooManyBranches
  | lookBehindTooFar
  | lookBehindNotFixed
  /-- A repeat count that is too large to be counted. -/
  | countTooLarge
  /-- A repeat count with too many digits to be read as a number. -/
  | countTooLong
  /-- Groups nested beyond the limit. -/
  | tooDeep
deriving DecidableEq, Inhabited

/-- What an escape stands for. -/
inductive Escape where
  | letter (code : Nat)
  | category (kind : Category) (negated : Bool)
  | anchor (make : (multiline asciiOnly : Bool) → Anchor)
  | reference (group : Nat)

/-- The value of a digit of base sixteen. -/
def hexValue? : CodePoint → Option Nat
  | .char c =>
    if c.isDigit then some (c.toNat - 48)
    else if 'a' ≤ c && c ≤ 'f' then some (c.toNat - 87)
    else if 'A' ≤ c && c ≤ 'F' then some (c.toNat - 55)
    else none
  | .surrogate _ => none

/-- The value of an ASCII digit below a base. -/
def digitValue? (base : Nat) (p : CodePoint) : Option Nat :=
  (hexValue? p).filter (· < base)

/-- Takes at most `count` digits; returns their values. -/
def takeDigits (value? : CodePoint → Option Nat) : (count : Nat) → Text → List Nat × Text
  | 0, rest => ([], rest)
  | _, [] => ([], [])
  | count + 1, p :: rest =>
    match value? p with
    | some v => let (vs, left) := takeDigits value? count rest; (v :: vs, left)
    | none => ([], p :: rest)

/-- The number that digits spell in a base. -/
def ofDigits (base : Nat) (digits : List Nat) : Nat := digits.foldl (fun n d => n * base + d) 0

/-- Reads exactly `count` digits of base sixteen as a code point. -/
def readHex (count : Nat) (rest : Text) : Except Fault (Nat × Text) :=
  let (digits, left) := takeDigits hexValue? count rest
  let code := ofDigits 16 digits
  if digits.length < count then .error .incompleteEscape
  else if code < 0x110000 then .ok (code, left)
  else .error .badEscape

/-- Takes the text up to a closing code point, and drops that; `reversed` is what was taken so
far, last first.  The text must not be empty. -/
def takeUntil (close : CodePoint) : (reversed : Text) → Text → Except Fault (Text × Text)
  | _, [] => .error .badGroupName
  | _, [.char '\\'] => .error .danglingEscape
  | reversed, .char '\\' :: p :: rest => takeUntil close (p :: .char '\\' :: reversed) rest
  | reversed, p :: rest =>
    if p = close then
      if reversed.isEmpty then .error .badGroupName else .ok (reversed.reverse, rest)
    else takeUntil close (p :: reversed) rest

/-- Reads the name of a code point between braces. -/
def readNamed : Text → Except Fault (Nat × Text)
  | .char '{' :: rest => do
    let (name, left) ← takeUntil (.char '}') [] rest
    match name.toString?.bind Unicode.named? with
    | some code => .ok (code, left)
    | none => .error .unknownName
  | _ => .error .unknownName

/-- The control letters that have an escape. -/
def controlLetter? : Char → Option Nat
  | 'a' => some 7
  | 'f' => some 12
  | 'n' => some 10
  | 'r' => some 13
  | 't' => some 9
  | 'v' => some 11
  | '\\' => some 92
  | _ => none

/-- The categories that have an escape. -/
def category? : Char → Option (Category × Bool)
  | 'd' => some (.digit, false)
  | 'D' => some (.digit, true)
  | 's' => some (.blank, false)
  | 'S' => some (.blank, true)
  | 'w' => some (.word, false)
  | 'W' => some (.word, true)
  | _ => none

/-- The positions that have an escape. -/
def position? : Char → Option ((multiline asciiOnly : Bool) → Anchor)
  | 'A' => some fun _ _ => .start
  | 'Z' => some fun _ _ => .finish
  | 'b' => some fun _ asciiOnly => .wordEdge asciiOnly false
  | 'B' => some fun _ asciiOnly => .wordEdge asciiOnly true
  | _ => none

/-- The escapes that name a code point by number or name. -/
def readCode? (c : Char) (rest : Text) : Option (Except Fault (Nat × Text)) :=
  match c with
  | 'x' => some (readHex 2 rest)
  | 'u' => some (readHex 4 rest)
  | 'U' => some (readHex 8 rest)
  | 'N' => some (readNamed rest)
  | _ => none

/-- An octal code point has at most eight bits. -/
def octal (digits : List Nat) (left : Text) : Except Fault (Nat × Text) :=
  let code := ofDigits 8 digits
  if 0o377 < code then .error .octalTooLarge else .ok (code, left)

/-- Reads what follows a backslash within a set: a backspace is `b` there, positions and groups
have no meaning, and digits are octal. -/
def readSetEscape (p : CodePoint) (rest : Text) : Except Fault (SetItem × Text) :=
  match p with
  | .surrogate _ => .ok (.one p.code, rest)
  | .char c =>
    match controlLetter? c, category? c, readCode? c rest with
    | some code, _, _ => .ok (.one code, rest)
    | _, some (kind, negated), _ => .ok (.category kind negated, rest)
    | _, _, some read => read.map fun (code, left) => (.one code, left)
    | none, none, none =>
      if c = 'b' then .ok (.one 8, rest)
      else match digitValue? 8 p with
        | some d =>
          let (digits, left) := takeDigits (digitValue? 8) 2 rest
          (octal (d :: digits) left).map fun (code, left) => (.one code, left)
        | none =>
          if c.isDigit || c.isAlpha then .error .badEscape else .ok (.one p.code, rest)

/-- Reads the number after a backslash: octal if it starts with zero or has three octal digits,
and otherwise a group of one or two digits. -/
def readNumber (first : Nat) (rest : Text) : Except Fault (Escape × Text) :=
  if first = 0 then
    let (digits, left) := takeDigits (digitValue? 8) 2 rest
    .ok (.letter (ofDigits 8 digits), left)
  else
    match takeDigits (digitValue? 10) 1 rest with
    | ([second], left) =>
      match takeDigits (digitValue? 8) 1 left with
      | ([third], left') =>
        if first < 8 && second < 8 then
          (octal [first, second, third] left').map fun (code, left) => (.letter code, left)
        else .ok (.reference (first * 10 + second), left)
      | _ => .ok (.reference (first * 10 + second), left)
    | _ => .ok (.reference first, rest)

/-- Reads what follows a backslash outside of sets. -/
def readEscape (p : CodePoint) (rest : Text) : Except Fault (Escape × Text) :=
  match p with
  | .surrogate _ => .ok (.letter p.code, rest)
  | .char c =>
    match category? c, position? c, controlLetter? c, readCode? c rest with
    | some (kind, negated), _, _, _ => .ok (.category kind negated, rest)
    | _, some make, _, _ => .ok (.anchor make, rest)
    | _, _, some code, _ => .ok (.letter code, rest)
    | _, _, _, some read => read.map fun (code, left) => (.letter code, left)
    | none, none, none, none =>
      match digitValue? 10 p with
      | some first => readNumber first rest
      | none => if c.isAlpha then .error .badEscape else .ok (.letter p.code, rest)

/-- Reads one end of a range, or a member that stands alone. -/
def readSetMember : Text → Except Fault (SetItem × Text)
  | [] => .error .unterminatedSet
  | [.char '\\'] => .error .danglingEscape
  | .char '\\' :: p :: rest => readSetEscape p rest
  | p :: rest => .ok (.one p.code, rest)

/-- Reads the members of a set up to its closing bracket, which must not come first. -/
def readSet : (fuel : Nat) → (reversed : List SetItem) → Text →
    Except Fault (List SetItem × Text)
  | 0, _, _ => .error .unterminatedSet
  | fuel + 1, reversed, text =>
    match reversed, text with
    | _ :: _, .char ']' :: rest => .ok (reversed.reverse, rest)
    | _, _ => do
      let (item, rest) ← readSetMember text
      match rest with
      | .char '-' :: .char ']' :: left => .ok ((.one 45 :: item :: reversed).reverse, left)
      | .char '-' :: rest' =>
        let (last, left) ← readSetMember rest'
        match item, last with
        | .one a, .one b =>
          if b < a then .error .badRange else readSet fuel (.range a b :: reversed) left
        | _, _ => .error .badRange
      | _ => readSet fuel (item :: reversed) rest

end Marginalia.Pattern
