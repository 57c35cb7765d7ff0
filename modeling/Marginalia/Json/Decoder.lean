import Marginalia.Json.Value

/-!
# Decoding JSON values

A decoder turns a JSON value into a value of a type, or lists everything that is wrong with it:
`Checked.and` goes on after a failure, so the issues of all members of an object are found, in
the order in which the members are asked for.

Decoders are lenient where no meaning is lost.  `Json.flag` takes the usual words and the numbers
zero and one, `Json.wholeNumber` takes numbers without fraction and texts that spell one.  Texts
are never made up from other values.
-/

namespace Marginalia.Json

/-- A step from a value into one of its parts. -/
inductive Step where
  | key (name : Text)
  | index (n : Nat)
deriving DecidableEq

/-- What is wrong with a value. -/
inductive IssueKind where
  | missing
  | notObject
  | notList
  | notText
  | loneSurrogate
  | notAmongChoices
  | notFlag
  | unknownFlag
  | notNumber
  | unreadableNumber
  | numberTooLong
  | fractional
  | notFinite
  | tooSmall
deriving DecidableEq

/-- Something wrong with a part of a value. -/
structure Issue where
  location : List Step
  kind : IssueKind
deriving DecidableEq

/-- A decoded value, or everything that is wrong. -/
abbrev Checked (α : Type) := Except (List Issue) α

namespace Checked

/-- A single issue with the value itself. -/
def fail {α : Type} (kind : IssueKind) : Checked α := .error [⟨[], kind⟩]

/-- Decodes two things, and lists the issues of both. -/
def and {α β : Type} (first : Checked α) (second : Checked β) : Checked (α × β) :=
  match first, second with
  | .ok a, .ok b => .ok (a, b)
  | .ok _, .error issues => .error issues
  | .error issues, .ok _ => .error issues
  | .error issues, .error more => .error (issues ++ more)

/-- Says in which part the issues are. -/
def within {α : Type} (step : Step) (checked : Checked α) : Checked α :=
  checked.mapError fun issues => issues.map fun issue =>
    { issue with location := step :: issue.location }

/-- Two decoded values make a pair. -/
theorem and_ok {α β : Type} (a : α) (b : β) :
    and (.ok a) (.ok b) = .ok (a, b) := rfl

/-- The issues of both are listed, those of the first in front. -/
theorem and_error {α β : Type} (issues more : List Issue) :
    and (.error issues : Checked α) (.error more : Checked β) = .error (issues ++ more) := rfl

end Checked

/-- Whether a text holds a lone surrogate. -/
def hasLoneSurrogate (t : Text) : Bool := t.any fun
  | .surrogate _ => true
  | .char _ => false

/-- Decodes a text. -/
def text : Json → Checked Text
  | string t => .ok t
  | _ => .fail .notText

/-- Decodes a text or null. -/
def optionalText : Json → Checked (Option Text)
  | null => .ok none
  | value => (text value).map some

/-- Decodes one of some words. -/
def choice {α : Type} (choices : List (Text × α)) : Json → Checked α
  | string t =>
    if hasLoneSurrogate t then .fail .loneSurrogate
    else match choices.lookup t with
      | some a => .ok a
      | none => .fail .notAmongChoices
  | _ => .fail .notAmongChoices

/-- The words for false and for true. -/
def flagWords : List (Text × Bool) :=
  [("0", false), ("off", false), ("f", false), ("false", false), ("n", false), ("no", false),
   ("1", true), ("on", true), ("t", true), ("true", true), ("y", true), ("yes", true)]

/-- What integers of 64 bits with a sign lie below: two to the power of 63. -/
def wordBound : Int := 9223372036854775808

/-- Whether an integer fits into 64 bits with a sign. -/
def fitsWord (i : Int) : Bool := -wordBound ≤ i && i < wordBound

/-- Whether the integer that a number with a fraction or an exponent spells is taken; of those that
fit into 64 bits, the smallest is not. -/
def fitsReal (i : Int) : Bool := -wordBound < i && i < wordBound

/-- The flag that an integer stands for. -/
def flagOfInt (i : Int) : Checked Bool :=
  if i = 0 then .ok false
  else if i = 1 then .ok true
  else if fitsWord i then .fail .unknownFlag
  else .fail .notFlag

/-- An ASCII letter in lower case; all else stays. -/
def lowerPoint : CodePoint → CodePoint
  | .char c => .char c.toLower
  | p => p

/-- Decodes a flag. -/
def flag : Json → Checked Bool
  | bool b => .ok b
  | integer i => flagOfInt i
  | real x =>
    match x.toInt? with
    | some i => if fitsReal i then flagOfInt i else .fail .notFlag
    | none => .fail .notFlag
  | string t =>
    if hasLoneSurrogate t then .fail .loneSurrogate
    else match flagWords.lookup (t.map lowerPoint) with
      | some b => .ok b
      | none => .fail .unknownFlag
  | _ => .fail .notFlag

/-- The longest spelling of a whole number, in digits without leading zeros. -/
def spellingLimit : Nat := 4300

/-- White space that may stand around a spelled number: the blank code points but the four
separators of information. -/
def isNumberSpace (p : CodePoint) : Bool := p.isBlank && !(0x1C ≤ p.code && p.code ≤ 0x1F)

/-- Drops white space around a spelled number. -/
def trimNumber (t : Text) : Text :=
  ((t.dropWhile isNumberSpace).reverse.dropWhile isNumberSpace).reverse

/-- The digits of a spelled number: single low lines may stand between digits, and a point with
zeros may follow. -/
def spelledDigits : (afterDigit : Bool) → Text → Option (List Nat)
  | true, [] => some []
  | false, [] => none
  | afterDigit, .char c :: rest =>
    if c.isDigit then (spelledDigits true rest).map fun ds => (c.toNat - 48) :: ds
    else if afterDigit && c == '_' then spelledDigits false rest
    else if afterDigit && c == '.' && !rest.isEmpty && rest.all (· == .char '0') then some []
    else none
  | _, .surrogate _ :: _ => none

/-- Decodes the spelling of a whole number. -/
def spelledNumber (t : Text) : Checked Int :=
  let (negative, digits) := match trimNumber t with
    | .char '-' :: rest => (true, rest)
    | .char '+' :: rest => (false, rest)
    | rest => (false, rest)
  match spelledDigits false digits with
  | none => .fail .unreadableNumber
  | some ds =>
    if spellingLimit < (ds.dropWhile (· == 0)).length then .fail .numberTooLong
    else
      let magnitude : Nat := ds.foldl (fun n d => n * 10 + d) 0
      .ok (if negative then -(magnitude : Int) else magnitude)

/-- Decodes a whole number. -/
def wholeNumber : Json → Checked Int
  | integer i => .ok i
  | bool b => .ok (if b then 1 else 0)
  | real x =>
    if !x.isFinite then .fail .notFinite
    else match x.toInt? with
      | none => .fail .fractional
      | some i => if fitsReal i then .ok i else .fail .numberTooLong
  | string t => if hasLoneSurrogate t then .fail .loneSurrogate else spelledNumber t
  | _ => .fail .notNumber

/-- Decodes a whole number that is at least so large. -/
def numberFrom (least : Nat) (value : Json) : Checked Nat := do
  let i ← wholeNumber value
  if (least : Int) ≤ i then return i.toNat else Checked.fail .tooSmall

/-- Decodes items, counted from the given index. -/
def itemsFrom {α : Type} (decode : Json → Checked α) : Nat → List Json → Checked (List α)
  | _, [] => .ok []
  | n, item :: rest =>
    (((decode item).within (.index n)).and (itemsFrom decode (n + 1) rest)).map
      fun (a, as) => a :: as

/-- Decodes a list. -/
def list {α : Type} (decode : Json → Checked α) : Json → Checked (List α)
  | array items => itemsFrom decode 0 items
  | _ => .fail .notList

/-- Decodes an object from its members. -/
def members {α : Type} (decode : List (Text × Json) → Checked α) : Json → Checked α
  | object fields => decode fields
  | _ => .fail .notObject

/-- Decodes the member under the first of some keys that is there. -/
def member? {α : Type} (decode : Json → Checked α) (fields : List (Text × Json)) :
    (keys : List Text) → Checked (Option α)
  | [] => .ok none
  | key :: keys =>
    match lookup key fields with
    | some value => ((decode value).within (.key key)).map some
    | none => member? decode fields keys

/-- Decodes a member that must be there. -/
def required {α : Type} (decode : Json → Checked α) (key : Text) (fields : List (Text × Json)) :
    Checked α :=
  match lookup key fields with
  | some value => (decode value).within (.key key)
  | none => (Checked.fail .missing).within (.key key)

/-- Decodes a member, or takes the default if it is not there. -/
def withDefault {α : Type} (default : α) (decode : Json → Checked α) (keys : List Text)
    (fields : List (Text × Json)) : Checked α :=
  (member? decode fields keys).map (·.getD default)

end Marginalia.Json
