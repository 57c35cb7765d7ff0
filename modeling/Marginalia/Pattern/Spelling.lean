import Marginalia.Pattern.Piece
import Marginalia.Unicode.Identifier

/-!
# Counts, flags and names in patterns

What is written in a pattern beside letters and signs: the counts of a repetition, the flags of a
group, comments, and the names and numbers of groups.  Each reader takes the text from where these
begin and gives back the rest.
-/

namespace Marginalia.Pattern

/-- A repeat count is smaller than this. -/
def countLimit : Nat := 4294967295

/-- The number of a group is smaller than this. -/
def groupLimit : Nat := 2147483647

/-- A repeat count has at most so many digits. -/
def digitLimit : Nat := 4300

/-- Reads a repeat count. -/
def count (digits : List Nat) : Except Fault Nat :=
  if digitLimit < digits.length then .error .countTooLong
  else if countLimit ≤ ofDigits 10 digits then .error .countTooLarge
  else .ok (ofDigits 10 digits)

/-- Reads the repeat counts after an opening brace; without them the brace is a letter. -/
def readCounts (text : Text) : Except Fault (Option ((Nat × Option Nat) × Text)) :=
  let (low, afterLow) := takeDigits (digitValue? 10) text.length text
  let ((high, comma), left) := match afterLow with
    | .char ',' :: rest =>
      let (digits, left) := takeDigits (digitValue? 10) rest.length rest
      ((digits, true), left)
    | _ => ((low, false), afterLow)
  match left with
  | .char '}' :: rest =>
    if low.isEmpty && !comma then .ok none
    else do
      let least ← if low.isEmpty then .ok 0 else count low
      if high.isEmpty then return some ((least, none), rest)
      let most ← count high
      if most < least then .error .countsReversed
      return some ((least, some most), rest)
  | _ => .ok none

/-- The letters of flags that a group can turn on. -/
def isFlag (p : CodePoint) : Bool :=
  [.char 'a', .char 'i', .char 'm', .char 's', .char 'u', .char 'x'].contains p

/-- Reads the flags of a group up to the colon: those turned on and, after a dash, those turned
off. -/
def readFlags (text : Text) : Except Fault ((Text × Text) × Text) :=
  let on := text.takeWhile isFlag
  if on.contains (.char 'a') && on.contains (.char 'u') then .error .badFlags
  else match text.dropWhile isFlag with
    | .char ':' :: rest => if on.isEmpty then .error .badFlags else .ok ((on, []), rest)
    | .char '-' :: rest =>
      let off := rest.takeWhile isFlag
      if off.isEmpty || off.contains (.char 'a') || off.contains (.char 'u') ||
          on.any off.contains then .error .badFlags
      else match rest.dropWhile isFlag with
        | .char ':' :: left => .ok ((on, off), left)
        | _ => .error .badFlags
    | _ => .error .badFlags

/-- Turns flags on and off. -/
def changeFlags (flags : Flags) (on off : Text) : Flags :=
  let has (c : Char) (old : Bool) : Bool :=
    (old || on.contains (.char c)) && !off.contains (.char c)
  { ignoreCase := has 'i' flags.ignoreCase
    multiline := has 'm' flags.multiline
    dotAll := has 's' flags.dotAll
    verbose := has 'x' flags.verbose
    asciiOnly := (flags.asciiOnly || on.contains (.char 'a')) && !on.contains (.char 'u') }

/-- Whether a name can name a group. -/
def isGroupName (name : Text) : Bool := Unicode.isIdentifier name.codes

/-- Drops a comment up to its closing parenthesis. -/
def skipComment : Text → Except Fault Text
  | [] => .error .unterminatedComment
  | [.char '\\'] => .error .danglingEscape
  | .char '\\' :: _ :: rest => skipComment rest
  | .char ')' :: rest => .ok rest
  | _ :: rest => skipComment rest

/-- Drops a comment up to the end of its line. -/
def skipLine : Text → Text
  | [] => []
  | .char '\\' :: _ :: rest => skipLine rest
  | .char '\n' :: rest => rest
  | _ :: rest => skipLine rest

/-- The digits of a group number, where low lines may stand between two digits. -/
def numberDigits? : (afterDigit : Bool) → Text → Option (List Nat)
  | true, [] => some []
  | false, [] => none
  | afterDigit, p :: rest =>
    match Unicode.digitValue? p.code with
    | some d => (numberDigits? true rest).map (d :: ·)
    | none => if afterDigit && p == .char '_' then numberDigits? false rest else none

/-- The number of a group in a condition: digits of any script, with white space around them
and a sign before them. -/
def groupNumber? (name : Text) : Option Nat :=
  let digits := match name.strip with
    | .char '+' :: rest => numberDigits? false rest
    | rest => numberDigits? false rest
  digits.bind fun ds => if ds.length ≤ digitLimit then some (ofDigits 10 ds) else none

end Marginalia.Pattern
