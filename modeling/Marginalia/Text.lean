import Marginalia.Unicode.Blank
import Marginalia.Unicode.CaseFold

/-!
# Texts

A `Text` is a list of code points.  It differs from a string in one respect: a settings
document can escape the lone half of a surrogate pair, and such a half is kept, compared and
written back like any other code point, though no file can hold one.

Texts are ordered by their code points (`Text.le`, with `Text.le_total` and `Text.le_trans`,
so that sorting has a meaning), stripped of white space at both ends (`Text.strip`) and cut
into lines (`Text.lines`).  A line ends at any of ten line ends, and a carriage return directly
followed by a line feed ends one line, not two.
-/

namespace Marginalia

/-- One unit of text: a character, or the lone half of a surrogate pair. -/
inductive CodePoint where
  /-- A Unicode character. -/
  | char (c : Char)
  /-- The code point `0xD800 + offset`, which stands for no character. -/
  | surrogate (offset : Fin 0x800)
deriving DecidableEq, Inhabited

namespace CodePoint

/-- The number of a code point. -/
def code : CodePoint → Nat
  | char c => c.toNat
  | surrogate offset => 0xD800 + offset.val

/-- The code point of a number, if there is one. -/
def ofCode? (n : Nat) : Option CodePoint :=
  if h : 0xD800 ≤ n ∧ n < 0xE000 then some (surrogate ⟨n - 0xD800, by omega⟩)
  else if n < 0x110000 then some (char (Char.ofNat n))
  else none

instance : Coe Char CodePoint := ⟨char⟩

/-- Whether a code point is white space. -/
def isBlank (p : CodePoint) : Bool := Unicode.isBlank p.code

/-- No two code points share a number. -/
theorem code_injective {a b : CodePoint} (h : a.code = b.code) : a = b := by
  have key (c : Char) (n : Fin 0x800) : c.toNat ≠ 0xD800 + n.val := by
    intro e
    have hv : c.val.toNat < 0xD800 ∨ 0xDFFF < c.val.toNat ∧ c.val.toNat < 0x110000 := c.valid
    have hc : c.toNat = c.val.toNat := rfl
    omega
  cases a with
  | char c =>
    cases b with
    | char d => exact congrArg char (Char.toNat_inj.1 h)
    | surrogate n => exact absurd h (key c n)
  | surrogate m =>
    cases b with
    | char d => exact absurd h.symm (key d m)
    | surrogate n =>
      have : m.val = n.val := Nat.add_left_cancel h
      exact congrArg surrogate (Fin.ext this)

end CodePoint

/-- A text is a list of code points. -/
abbrev Text := List CodePoint

namespace Text

/-- The text of a string. -/
def ofString (s : String) : Text := s.toList.map .char

instance : Coe String Text := ⟨ofString⟩

/-- The string of a text, if it holds no lone surrogate. -/
def toString? (t : Text) : Option String :=
  (t.mapM fun | CodePoint.char c => some c | .surrogate _ => none).map String.ofList

/-- The code points of a text as numbers. -/
def codes (t : Text) : List Nat := t.map CodePoint.code

/-- The decimal digits of a number, most significant first. -/
def ofNat (n : Nat) : Text := (Nat.toDigits 10 n).map CodePoint.char

/-- Orders texts by their code points; a text comes before its extensions. -/
def le : Text → Text → Bool
  | [], _ => true
  | _ :: _, [] => false
  | a :: s, b :: t => a.code < b.code || (a.code == b.code && le s t)

theorem le_total (s t : Text) : (le s t || le t s) = true := by
  induction s generalizing t with
  | nil => simp [le]
  | cons a s ih =>
    cases t with
    | nil => simp [le]
    | cons b t =>
      have := ih t
      simp only [Bool.or_eq_true] at this
      simp only [le, Bool.or_eq_true, decide_eq_true_eq, Bool.and_eq_true, beq_iff_eq]
      rcases Nat.lt_trichotomy a.code b.code with h | h | h
      · exact .inl (.inl h)
      · rcases this with k | k
        · exact .inl (.inr ⟨h, k⟩)
        · exact .inr (.inr ⟨h.symm, k⟩)
      · exact .inr (.inl h)

theorem le_trans {s t u : Text} (h₁ : le s t = true) (h₂ : le t u = true) : le s u = true := by
  induction s generalizing t u with
  | nil => simp [le]
  | cons a s ih =>
    cases t with
    | nil => simp [le] at h₁
    | cons b t =>
      cases u with
      | nil => simp [le] at h₂
      | cons c u =>
        simp only [le, Bool.or_eq_true, decide_eq_true_eq, Bool.and_eq_true, beq_iff_eq] at *
        rcases h₁ with h₁ | ⟨e₁, k₁⟩ <;> rcases h₂ with h₂ | ⟨e₂, k₂⟩
        · exact .inl (Nat.lt_trans h₁ h₂)
        · exact .inl (e₂ ▸ h₁)
        · exact .inl (e₁ ▸ h₂)
        · exact .inr ⟨e₁.trans e₂, ih k₁ k₂⟩

theorem le_antisymm {s t : Text} (h₁ : le s t = true) (h₂ : le t s = true) : s = t := by
  induction s generalizing t with
  | nil =>
    cases t with
    | nil => rfl
    | cons b t => simp [le] at h₂
  | cons a s ih =>
    cases t with
    | nil => simp [le] at h₁
    | cons b t =>
      simp only [le, Bool.or_eq_true, decide_eq_true_eq, Bool.and_eq_true, beq_iff_eq] at *
      rcases h₁ with h₁ | ⟨e, k₁⟩
      · rcases h₂ with h₂ | ⟨e, _⟩ <;> omega
      · rcases h₂ with h₂ | ⟨_, k₂⟩
        · omega
        · rw [CodePoint.code_injective e, ih k₁ k₂]

/-- The texts of a list in ascending order. -/
def sort (texts : List Text) : List Text := texts.mergeSort le

/-- The texts of a list in ascending order, each once. -/
def sortedSet (texts : List Text) : List Text := sort texts.eraseDups

/-- Drops white space at the front. -/
def stripLeft (t : Text) : Text := t.dropWhile CodePoint.isBlank

/-- Drops white space at both ends. -/
def strip (t : Text) : Text := (stripLeft (stripLeft t).reverse).reverse

/-- The text with case differences folded away. -/
def caseFold (t : Text) : List Nat := Unicode.caseFold (codes t)

/-- The pieces of a text between the occurrences of a separator; there is always one. -/
def splitOn (separator : CodePoint) : Text → List Text
  | [] => [[]]
  | p :: rest =>
    match splitOn separator rest with
    | [] => [[p]]
    | piece :: pieces => if p = separator then [] :: piece :: pieces else (p :: piece) :: pieces

/-- Joins texts with a separator between them. -/
def join (separator : Text) : List Text → Text
  | [] => []
  | [t] => t
  | t :: rest => t ++ separator ++ join separator rest

/-- Replaces every line end written as a carriage return, alone or before a line feed, by a
line feed. -/
def normalizeNewlines : Text → Text
  | [] => []
  | .char '\r' :: .char '\n' :: rest => .char '\n' :: normalizeNewlines rest
  | .char '\r' :: rest => .char '\n' :: normalizeNewlines rest
  | p :: rest => p :: normalizeNewlines rest

/-- Whether a code point ends a line. -/
def isLineEnd (p : CodePoint) : Bool :=
  [0x0A, 0x0B, 0x0C, 0x0D, 0x1C, 0x1D, 0x1E, 0x85, 0x2028, 0x2029].contains p.code

/-- The lines of a text, given the start of the current line in reverse.  A last line without
line end counts only if it is not empty. -/
def linesFrom : (reversed : Text) → Text → List Text
  | [], [] => []
  | reversed@(_ :: _), [] => [reversed.reverse]
  | reversed, .char '\r' :: .char '\n' :: rest => reversed.reverse :: linesFrom [] rest
  | reversed, p :: rest =>
    if isLineEnd p then reversed.reverse :: linesFrom [] rest
    else linesFrom (p :: reversed) rest

/-- The lines of a text, without their line ends. -/
def lines (t : Text) : List Text := linesFrom [] t

/-- A carriage return without a line feed becomes a line feed. -/
theorem normalizeNewlines_return {rest : Text} (h : rest.head? ≠ some (.char '\n')) :
    normalizeNewlines (.char '\r' :: rest) = .char '\n' :: normalizeNewlines rest := by
  rw [normalizeNewlines]
  rintro left rfl
  exact h rfl

/-- All other code points stay. -/
theorem normalizeNewlines_cons {p : CodePoint} (h : p ≠ .char '\r') (rest : Text) :
    normalizeNewlines (p :: rest) = p :: normalizeNewlines rest := by
  rw [normalizeNewlines]
  · rintro left rfl
    exact absurd rfl h
  · exact h

/-- No carriage return is left. -/
theorem return_not_mem_normalizeNewlines (t : Text) : .char '\r' ∉ t.normalizeNewlines := by
  fun_induction normalizeNewlines t with
  | case1 => exact List.not_mem_nil
  | case2 rest ih => simpa using ih
  | case3 rest hnot ih => simpa using ih
  | case4 p rest hnot hreturn ih =>
    rintro (_ | ⟨_, hmem⟩)
    · exact hreturn rfl
    · exact ih hmem

/-- A code point that ends no line belongs to the current one. -/
theorem linesFrom_cons {p : CodePoint} (hp : isLineEnd p = false) (reversed rest : Text) :
    linesFrom reversed (p :: rest) = linesFrom (p :: reversed) rest := by
  rw [linesFrom]
  · simp [hp]
  · rintro left rfl
    exact absurd hp (by decide)

/-- A line end that is no half of another ends the current line. -/
theorem linesFrom_lineEnd {p : CodePoint} {rest : Text} (hp : isLineEnd p = true)
    (hwhole : p = .char '\r' → rest.head? ≠ some (.char '\n')) (reversed : Text) :
    linesFrom reversed (p :: rest) = reversed.reverse :: linesFrom [] rest := by
  rw [linesFrom]
  · simp [hp]
  · rintro left rfl rfl
    exact hwhole rfl rfl

/-- A carriage return and a line feed end the current line together. -/
theorem linesFrom_lineFeed (reversed rest : Text) :
    linesFrom reversed (.char '\r' :: .char '\n' :: rest) =
      reversed.reverse :: linesFrom [] rest := by
  rw [linesFrom]

/-- So does a line feed of its own. -/
theorem linesFrom_feed (reversed rest : Text) :
    linesFrom reversed (.char '\n' :: rest) = reversed.reverse :: linesFrom [] rest := by
  refine linesFrom_lineEnd (by decide) (fun hreturn => ?_) reversed
  cases hreturn

end Text

end Marginalia
