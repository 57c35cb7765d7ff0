import Marginalia.Text

/-!
# UTF-8

`Utf8.decode` reads bytes as text, or refuses them: it takes the shortest form of each character
only, no surrogates and nothing beyond the last code point.  It goes through the bytes one by
one; within a character it knows how many bytes are to come and between which bounds the next
one lies.
-/

namespace Marginalia.Utf8

/-- A character of which some bytes are missing. -/
structure Partial where
  /-- How many bytes are missing. -/
  missing : Nat
  /-- The bits read so far. -/
  bits : Nat
  /-- The bounds of the next byte. -/
  low : Nat := 0x80
  high : Nat := 0xBF

/-- What the first byte of a longer character says, if it is one. -/
def lead? (byte : Nat) : Option Partial :=
  if byte < 0xC2 then none
  else if byte < 0xE0 then some { missing := 1, bits := byte - 0xC0 }
  else if byte = 0xE0 then some { missing := 2, bits := 0, low := 0xA0 }
  else if byte = 0xED then some { missing := 2, bits := 0x0D, high := 0x9F }
  else if byte < 0xF0 then some { missing := 2, bits := byte - 0xE0 }
  else if byte = 0xF0 then some { missing := 3, bits := 0, low := 0x90 }
  else if byte < 0xF4 then some { missing := 3, bits := byte - 0xF0 }
  else if byte = 0xF4 then some { missing := 3, bits := 4, high := 0x8F }
  else none

/-- Reads bytes after some text, given last first, and perhaps part of a character. -/
def decodeFrom : (reversed : Text) → Option Partial → List UInt8 → Option Text
  | reversed, none, [] => some reversed.reverse
  | _, some _, [] => none
  | reversed, none, byte :: rest =>
    if byte.toNat < 0x80 then decodeFrom (.char (Char.ofNat byte.toNat) :: reversed) none rest
    else match lead? byte.toNat with
      | some part => decodeFrom reversed (some part) rest
      | none => none
  | reversed, some part, byte :: rest =>
    if byte.toNat < part.low || part.high < byte.toNat then none
    else
      let bits := part.bits * 64 + (byte.toNat - 0x80)
      match part.missing with
      | 0 | 1 => decodeFrom (.char (Char.ofNat bits) :: reversed) none rest
      | missing + 1 => decodeFrom reversed (some { missing, bits }) rest

/-- Reads bytes as text. -/
def decode (bytes : List UInt8) : Option Text := decodeFrom [] none bytes

/-- The bytes of a code point; a lone surrogate has none. -/
def encodePoint : CodePoint → List UInt8
  | .char c => String.utf8EncodeChar c
  | .surrogate _ => []

/-- The bytes of a text. -/
def encode (text : Text) : List UInt8 := text.flatMap encodePoint

/-- How many bytes a text takes. -/
def size (text : Text) : Nat := (encode text).length

/-- The bytes of two texts in a row are those of the one and then of the other. -/
theorem encode_append (s t : Text) : encode (s ++ t) = encode s ++ encode t := by
  simp [encode]

end Marginalia.Utf8
