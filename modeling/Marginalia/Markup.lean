import Marginalia.Text

/-!
# Markup

Console markup sets tags in square brackets, such as `[bold]` and `[/bold]`.  A bracket group is
a tag if it begins with a lower case letter, a number sign, a slash or an at sign and holds no
further opening bracket; everything else in brackets is plain text, and a backslash before a tag
makes it plain text as well.

`escape` writes a text so that none of it is taken as a tag: it doubles the backslashes before a
tag and adds one, and it doubles a single backslash at the end, which could escape the tag that
follows.
-/

namespace Marginalia.Markup

/-- Whether a code point can begin a tag. -/
def beginsTag : CodePoint → Bool
  | .char c => c.isLower || c == '#' || c == '/' || c == '@'
  | .surrogate _ => false

/-- Whether a text goes on to a closing bracket before the next opening one. -/
def closes : Text → Bool
  | [] => false
  | p :: rest => p = .char ']' || p != .char '[' && closes rest

/-- Whether a text begins with a tag. -/
def opensTag : Text → Bool
  | .char '[' :: p :: rest => beginsTag p && closes rest
  | _ => false

/-- Escapes the tags of a text, within a tag or after a number of backslashes. -/
def escapeTags : (inTag : Bool) → (slashes : Nat) → Text → Text
  | _, slashes, [] => List.replicate slashes (.char '\\')
  | true, _, p :: rest => p :: escapeTags (p != .char ']') 0 rest
  | false, slashes, .char '\\' :: rest => escapeTags false (slashes + 1) rest
  | false, slashes, p :: rest =>
    if opensTag (p :: rest) then
      List.replicate (2 * slashes + 1) (.char '\\') ++ p :: escapeTags true 0 rest
    else List.replicate slashes (.char '\\') ++ p :: escapeTags false 0 rest

/-- Doubles a backslash that stands alone at the end. -/
def guardEnd (text : Text) : Text :=
  match text.reverse with
  | [.char '\\'] => text ++ [.char '\\']
  | .char '\\' :: p :: _ => if p = .char '\\' then text else text ++ [.char '\\']
  | _ => text

/-- The markup that shows a text as it is. -/
def escape (text : Text) : Text := guardEnd (escapeTags false 0 text)

/-- An opening tag. -/
def opening (style : Text) : Text := .char '[' :: style ++ [.char ']']

/-- A closing tag. -/
def closing (style : Text) : Text := .char '[' :: .char '/' :: style ++ [.char ']']

/-- Markup in a style. -/
def styled (style content : Text) : Text := opening style ++ content ++ closing style

/-- A text without brackets and backslashes needs no escape. -/
theorem escape_of_plain {text : Text} (h : ∀ p ∈ text, p ≠ .char '[' ∧ p ≠ .char '\\') :
    escape text = text := by
  have key : ∀ t : Text, (∀ p ∈ t, p ≠ .char '[' ∧ p ≠ .char '\\') → escapeTags false 0 t = t := by
    intro t
    induction t with
    | nil => intro _; rfl
    | cons p rest ih =>
      intro h
      obtain ⟨hb, hs⟩ := h p (by simp)
      have hr := ih fun q hq => h q (by simp [hq])
      have ho : opensTag (p :: rest) = false := by
        unfold opensTag
        split
        · rename_i heq
          simp only [List.cons.injEq] at heq
          exact absurd heq.1 hb
        · rfl
      have hne : p = CodePoint.char '\\' → False := hs
      rw [escapeTags] <;> simp_all
  unfold escape
  rw [key text h]
  unfold guardEnd
  have hmem : ∀ p ∈ text.reverse, p ≠ .char '\\' := fun p hp => (h p (by simpa using hp)).2
  split
  · rename_i heq
    exact absurd rfl (hmem (.char '\\') (by simp [heq]))
  · rename_i heq
    exact absurd rfl (hmem (.char '\\') (by simp [heq]))
  · rfl

end Marginalia.Markup
