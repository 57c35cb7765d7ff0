import Marginalia.Markup

/-!
# Reading markup

`read` takes markup apart into plain text and tags: a bracket group after an even number of
backslashes is a tag, after an odd number it is text.  Backslashes before a group count half, the
one that escapes the group not at all; all other backslashes stand for themselves.

`plain_ofText` says that text without brackets and backslashes reads as itself.
-/

namespace Marginalia.Markup

/-- A part of markup. -/
inductive Piece where
  | text (content : Text)
  /-- A tag, without its brackets. -/
  | tag (content : Text)
deriving DecidableEq, Inhabited

/-- The text that a piece shows. -/
def Piece.shown : Piece → Text
  | text content => content
  | tag _ => []

/-- So many backslashes. -/
def backslashes (n : Nat) : Text := List.replicate n (.char '\\')

/-- Where reading stands. -/
inductive Mode where
  /-- In text, after a number of backslashes. -/
  | text (slashes : Nat)
  /-- In a tag of which some has been read, last code point first. -/
  | tag (reversed : Text)
  /-- In a bracket group that is text. -/
  | group

/-- Takes markup apart, from a mode on. -/
def readFrom : Mode → Text → List Piece
  | .text slashes, [] => [.text (backslashes slashes)]
  | .tag reversed, [] => [.tag reversed.reverse]
  | .group, [] => []
  | .tag reversed, p :: rest =>
    if p = .char ']' then .tag reversed.reverse :: readFrom (.text 0) rest
    else readFrom (.tag (p :: reversed)) rest
  | .group, p :: rest =>
    .text [p] :: readFrom (if p = .char ']' then .text 0 else .group) rest
  | .text slashes, .char '\\' :: rest => readFrom (.text (slashes + 1)) rest
  | .text slashes, p :: rest =>
    if opensTag (p :: rest) then
      .text (backslashes (slashes / 2)) ::
        if slashes % 2 = 0 then readFrom (.tag []) rest else .text [p] :: readFrom .group rest
    else .text (backslashes slashes ++ [p]) :: readFrom (.text 0) rest

/-- The pieces of markup. -/
def read (markup : Text) : List Piece := readFrom (.text 0) markup

/-- The text that markup shows. -/
def plain (markup : Text) : Text := (read markup).flatMap Piece.shown

/-- The tags of markup, in order. -/
def tags (markup : Text) : List Text := (read markup).filterMap fun
  | .tag content => some content
  | .text _ => none

/-- Text without brackets and backslashes reads as itself. -/
theorem plain_ofText {text : Text} (h : ∀ p ∈ text, p ≠ .char '[' ∧ p ≠ .char '\\') :
    plain text = text := by
  have key : ∀ t : Text, (∀ p ∈ t, p ≠ .char '[' ∧ p ≠ .char '\\') →
      (readFrom (.text 0) t).flatMap Piece.shown = t := by
    intro t
    induction t with
    | nil => intro _; rfl
    | cons p rest ih =>
      intro h
      obtain ⟨hb, hs⟩ := h p (by simp)
      have hr := ih fun q hq => h q (by simp [hq])
      have ho : opensTag (p :: rest) = false := by
        unfold opensTag
        split
        · rename_i heq
          simp only [List.cons.injEq] at heq
          exact absurd heq.1 hb
        · rfl
      have hne : p = CodePoint.char '\\' → False := hs
      rw [readFrom] <;> simp_all [backslashes, Piece.shown]
  exact key text h

end Marginalia.Markup
