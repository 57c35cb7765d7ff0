import Marginalia.Json.Value

/-!
# Writing JSON

`Json.render` writes a value on one line without white space.  Quotes, backslashes, control codes
and lone surrogates are escaped, everything else stands for itself.  A binary number is written
exactly: with all its decimal digits and an exponent, which marks it as no integer.
-/

namespace Marginalia.Json

/-- A digit of base sixteen. -/
def hexDigit (n : Nat) : CodePoint := .char (Nat.digitChar n)

/-- An escape by number. -/
def escapeUnit (unit : Nat) : Text :=
  [.char '\\', .char 'u', hexDigit (unit / 0x1000 % 16), hexDigit (unit / 0x100 % 16),
    hexDigit (unit / 0x10 % 16), hexDigit (unit % 16)]

/-- A code point within a string. -/
def escapePoint : CodePoint → Text
  | .surrogate offset => escapeUnit (0xD800 + offset.val)
  | .char c =>
    if c == '"' then [.char '\\', .char '"']
    else if c == '\\' then [.char '\\', .char '\\']
    else if c.toNat < 0x20 then escapeUnit c.toNat
    else [.char c]

/-- A string in quotes. -/
def quote (t : Text) : Text := .char '"' :: t.flatMap escapePoint ++ [.char '"']

/-- A sign before a negative number. -/
def signed (negative : Bool) (digits : Text) : Text :=
  if negative then .char '-' :: digits else digits

/-- An integer in decimal. -/
def renderInt (i : Int) : Text := signed (i < 0) (Text.ofNat i.natAbs)

/-- A binary number, exactly: a negative power of two is a power of five over one of ten. -/
def renderReal : Binary64 → Text
  | .nan => "NaN"
  | .infinite negative => signed negative ("Infinity" : Text)
  | .finite negative mantissa exponent =>
    if 0 ≤ exponent then
      signed negative (Text.ofNat (mantissa * Nat.pow 2 exponent.toNat) ++ ("e0" : Text))
    else
      let places := (-exponent).toNat
      signed negative (Text.ofNat (mantissa * Nat.pow 5 places) ++
        ("e-" : Text) ++ Text.ofNat places)

mutual

/-- Writes a value. -/
def render : Json → Text
  | .null => "null"
  | .bool true => "true"
  | .bool false => "false"
  | .integer i => renderInt i
  | .real x => renderReal x
  | .string t => quote t
  | .array items => .char '[' :: renderItems items
  | .object members => .char '\x7b' :: renderMembers members

/-- Writes the items of an array and its closing bracket. -/
def renderItems : List Json → Text
  | [] => [.char ']']
  | [item] => render item ++ [.char ']']
  | item :: rest => render item ++ .char ',' :: renderItems rest

/-- Writes the members of an object and its closing brace. -/
def renderMembers : List (Text × Json) → Text
  | [] => [.char '\x7d']
  | [(key, item)] => quote key ++ .char ':' :: render item ++ [.char '\x7d']
  | (key, item) :: rest => quote key ++ .char ':' :: render item ++ .char ',' :: renderMembers rest

end

end Marginalia.Json
