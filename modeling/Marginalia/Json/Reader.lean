import Marginalia.Json.Value

/-!
# Reading JSON

`Json.parse` reads a document.  It follows the grammar strictly but for three points: the names
`NaN`, `Infinity` and `-Infinity` are numbers, an escaped surrogate that is not half of a pair
stands for itself, and a key may be repeated.

Two limits raise a fault of their own: an integer has at most `Json.digitLimit` digits, and
arrays and objects are nested at most `Json.nestingLimit` deep.  The reader meets these faults
where it is in the text, so whichever fault comes first counts.

`readValue` goes down one level with each array or object; within one level, each item takes at
least one code point, so the length of the text bounds their number.
-/

namespace Marginalia.Json

/-- What can be wrong with a document. -/
inductive Fault where
  /-- The text does not follow the grammar. -/
  | malformed
  /-- An integer has too many digits to be read. -/
  | integerTooLong
  /-- Arrays and objects are nested beyond the limit. -/
  | tooDeep
deriving DecidableEq, Inhabited

/-- An integer has at most so many digits. -/
def digitLimit : Nat := 4300

/-- Arrays and objects are nested at most so deep. -/
def nestingLimit : Nat := 980

/-- Whether a code point is white space between tokens. -/
def isSpace (p : CodePoint) : Bool :=
  p == .char ' ' || p == .char '\t' || p == .char '\n' || p == .char '\r'

/-- Drops white space at the front. -/
def skipSpace (text : Text) : Text := text.dropWhile isSpace

/-- The value of a digit of base sixteen. -/
def hexDigit? : CodePoint → Option Nat
  | .char c =>
    if c.isDigit then some (c.toNat - 48)
    else if 'a' ≤ c && c ≤ 'f' then some (c.toNat - 87)
    else if 'A' ≤ c && c ≤ 'F' then some (c.toNat - 55)
    else none
  | .surrogate _ => none

/-- The code unit that four digits of base sixteen give. -/
def unit? (a b c d : CodePoint) : Option Nat := do
  return (((← hexDigit? a) * 16 + (← hexDigit? b)) * 16 + (← hexDigit? c)) * 16 + (← hexDigit? d)

/-- The code point of a unit that is not the first of a pair. -/
def pointOf (unit : Nat) : CodePoint := (CodePoint.ofCode? unit).getD default

/-- The code point that two units stand for together, if they are a pair. -/
def pair? (high low : Nat) : Option CodePoint :=
  if 0xD800 ≤ high && high < 0xDC00 && 0xDC00 ≤ low && low < 0xE000 then
    CodePoint.ofCode? (0x10000 + (high - 0xD800) * 0x400 + (low - 0xDC00))
  else none

/-- What a letter after a backslash stands for. -/
def shortEscape? : CodePoint → Option CodePoint
  | .char '"' => some (.char '"')
  | .char '\\' => some (.char '\\')
  | .char '/' => some (.char '/')
  | .char 'b' => some (.char '\x08')
  | .char 'f' => some (.char '\x0c')
  | .char 'n' => some (.char '\n')
  | .char 'r' => some (.char '\r')
  | .char 't' => some (.char '\t')
  | _ => none

/-- Reads a string after its opening quote; `reversed` is what was read, last first, and each
step takes something, so the length of the text is fuel enough. -/
def readString : (fuel : Nat) → (reversed : Text) → Text → Except Fault (Text × Text)
  | 0, _, _ => .error .malformed
  | fuel + 1, reversed, text =>
    match text with
    | [] => .error .malformed
    | .char '"' :: rest => .ok (reversed.reverse, rest)
    | .char '\\' :: .char 'u' :: a :: b :: c :: d :: rest =>
      match unit? a b c d with
      | none => .error .malformed
      | some first =>
        match rest with
        | .char '\\' :: .char 'u' :: e :: f :: g :: h :: rest' =>
          match (unit? e f g h).bind (pair? first) with
          | some p => readString fuel (p :: reversed) rest'
          | none => readString fuel (pointOf first :: reversed) rest
        | _ => readString fuel (pointOf first :: reversed) rest
    | .char '\\' :: p :: rest =>
      match shortEscape? p with
      | some q => readString fuel (q :: reversed) rest
      | none => .error .malformed
    | p :: rest =>
      if p.code < 0x20 || p == .char '\\' then .error .malformed
      else readString fuel (p :: reversed) rest

/-- Whether a code point is an ASCII digit. -/
def isDigit : CodePoint → Bool
  | .char c => c.isDigit
  | .surrogate _ => false

/-- The number that digits spell. -/
def ofDigits (digits : Text) : Nat := digits.foldl (fun n p => n * 10 + (p.code - 48)) 0

/-- The exponent at the front of a text, zero if there is none. -/
def readExponent (text : Text) : (Bool × Int) × Text :=
  match text with
  | .char e :: rest =>
    if e == 'e' || e == 'E' then
      let (negative, digits) := match rest with
        | .char '-' :: left => (true, left)
        | .char '+' :: left => (false, left)
        | _ => (false, rest)
      let number := digits.takeWhile isDigit
      if number.isEmpty then ((false, 0), text)
      else
        let magnitude : Int := ofDigits number
        ((true, if negative then -magnitude else magnitude), digits.dropWhile isDigit)
    else ((false, 0), text)
  | _ => ((false, 0), text)

/-- The fraction at the front of a text, with its point; nothing if there is none. -/
def readFraction (text : Text) : Text × Text :=
  match text with
  | .char '.' :: rest =>
    let digits := rest.takeWhile isDigit
    if digits.isEmpty then ([], text) else (digits, rest.dropWhile isDigit)
  | _ => ([], text)

/-- Reads a number without sign: no zero stands before other digits, and a number with a
fraction or an exponent is rounded to binary. -/
def readNumber (negative : Bool) (text : Text) : Except Fault (Json × Text) :=
  let (digits, afterDigits) := match text with
    | .char '0' :: rest => ([CodePoint.char '0'], rest)
    | _ => (text.takeWhile isDigit, text.dropWhile isDigit)
  if digits.isEmpty then .error .malformed
  else
    let (fraction, afterFraction) := readFraction afterDigits
    let ((hasExponent, exponent), rest) := readExponent afterFraction
    if fraction.isEmpty && !hasExponent then
      if digitLimit < digits.length then .error .integerTooLong
      else
        let magnitude : Int := ofDigits digits
        .ok (.integer (if negative then -magnitude else magnitude), rest)
    else
      .ok (.real (.ofDecimal negative (ofDigits (digits ++ fraction)) (exponent - fraction.length)),
        rest)

/-- Drops a word at the front. -/
def dropWord? (word text : Text) : Option Text :=
  if word.isPrefixOf text then some (text.drop word.length) else none

/-- The values that have a name. -/
def namedValues : List (Text × Json) :=
  [("null", .null), ("true", .bool true), ("false", .bool false), ("NaN", .real .nan),
   ("Infinity", .real (.infinite false)), ("-Infinity", .real (.infinite true))]

/-- Reads a value that holds no others. -/
def readScalar (text : Text) : Except Fault (Json × Text) :=
  match namedValues.findSome? fun (name, value) => (dropWord? name text).map (value, ·) with
  | some found => .ok found
  | none =>
    match text with
    | .char '"' :: rest => (readString (rest.length + 1) [] rest).map fun (t, left) =>
        (.string t, left)
    | .char '-' :: rest => readNumber true rest
    | _ => readNumber false text

/-- Reads what separates an item from the next: `true` after a comma, `false` after the closing
sign. -/
def readSeparator (close : Char) (text : Text) : Except Fault (Bool × Text) :=
  match skipSpace text with
  | .char c :: rest =>
    if c == ',' then .ok (true, skipSpace rest)
    else if c == close then .ok (false, rest)
    else .error .malformed
  | _ => .error .malformed

/-- Reads the items of an array after its opening bracket, which is not closed at once. -/
def readItems (value : Text → Except Fault (Json × Text)) :
    (fuel : Nat) → (reversed : List Json) → Text → Except Fault (Json × Text)
  | 0, _, _ => .error .malformed
  | fuel + 1, reversed, text => do
    let (item, rest) ← value text
    let (more, left) ← readSeparator ']' rest
    if more then readItems value fuel (item :: reversed) left
    else return (.array (item :: reversed).reverse, left)

/-- Reads the members of an object after its opening brace, which is not closed at once. -/
def readMembers (value : Text → Except Fault (Json × Text)) :
    (fuel : Nat) → (reversed : List (Text × Json)) → Text → Except Fault (Json × Text)
  | 0, _, _ => .error .malformed
  | fuel + 1, reversed, text =>
    match text with
    | .char '"' :: rest => do
      let (key, afterKey) ← readString (rest.length + 1) [] rest
      match skipSpace afterKey with
      | .char ':' :: afterColon =>
        let (item, afterItem) ← value (skipSpace afterColon)
        let (more, left) ← readSeparator '\x7d' afterItem
        if more then readMembers value fuel ((key, item) :: reversed) left
        else return (.object ((key, item) :: reversed).reverse, left)
      | _ => .error .malformed
    | _ => .error .malformed

/-- Reads a value in which arrays and objects are nested at most `depth` deep. -/
def readValue : (depth : Nat) → Text → Except Fault (Json × Text)
  | 0, text =>
    match text with
    | .char '[' :: _ => .error .tooDeep
    | .char '\x7b' :: _ => .error .tooDeep
    | _ => readScalar text
  | depth + 1, text =>
    match text with
    | .char '[' :: rest =>
      match skipSpace rest with
      | .char ']' :: left => .ok (.array [], left)
      | items => readItems (readValue depth) (items.length + 1) [] items
    | .char '\x7b' :: rest =>
      match skipSpace rest with
      | .char '\x7d' :: left => .ok (.object [], left)
      | members => readMembers (readValue depth) (members.length + 1) [] members
    | _ => readScalar text

/-- Reads a document: one value with white space around it. -/
def parse (text : Text) : Except Fault Json := do
  let (value, rest) ← readValue nestingLimit (skipSpace text)
  if (skipSpace rest).isEmpty then return value else .error .malformed

end Marginalia.Json
