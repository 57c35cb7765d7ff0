import Marginalia.Proofs.JsonGrammar
import Marginalia.Json.Decoder
import Marginalia.Json.Writer

/-!
# What is written is a document

The writer spells the value that it is given (`Json.spells_render`), if the reader can take it
(`Json.Writable`): integers within the limit on digits, arrays and objects within the depth, and
texts without lone halves of surrogate pairs, since two halves that are written one after the other
would be read as a pair.  Binary numbers are left out.
-/

namespace Marginalia.Json

variable {α : Type} {t : Text} {n depth : Nat} {value : Json}

/-! ## Digits and strings -/

/-- The digits of a number are read as the number. -/
theorem ofDigits_ofNat (n : Nat) : ofDigits (Text.ofNat n) = n := by
  have hdigits : ofDigits (Text.ofNat n) = Nat.ofDigitChars 10 (Nat.toDigits 10 n) 0 := by
    simp only [ofDigits, Text.ofNat, List.foldl_map, Nat.ofDigitChars, CodePoint.code, Nat.mul_comm]
    rfl
  rw [hdigits, Nat.ofDigitChars_toDigits (by decide) (by decide)]

theorem isDigits_ofNat (n : Nat) : IsDigits (Text.ofNat n) := by
  constructor
  · simp [Text.ofNat]
  · intro p hp
    obtain ⟨c, hc, rfl⟩ := List.mem_map.1 hp
    exact Nat.isDigit_of_mem_toDigits (by decide) (by decide) hc

/-- A number other than zero does not begin with a zero, as the grammar wants it. -/
theorem head?_ofNat (h : 0 < n) : (Text.ofNat n).head? ≠ some (.char '0') := by
  induction n using Nat.strongRecOn with
  | ind n ih =>
      rw [Text.ofNat, Nat.toDigits_eq_if (by decide)]
      split
      · rename_i hlt
        have hdigit : ∀ d < 10, 0 < d → Nat.digitChar d ≠ '0' := by decide
        simpa using hdigit n hlt h
      · have hne : Text.ofNat (n / 10) ≠ [] := (isDigits_ofNat _).1
        have hquotient := ih (n / 10) (by omega) (by omega)
        rw [List.map_append]
        change (Text.ofNat (n / 10) ++ _).head? ≠ _
        rwa [List.head?_append, Option.or_of_isSome (List.isSome_head?.2 hne)]

/-- The digits of a number are those of a whole number. -/
theorem isWhole_ofNat (n : Nat) : IsWhole (Text.ofNat n) := by
  refine ⟨isDigits_ofNat n, fun hzero => ?_⟩
  rcases Nat.eq_zero_or_pos n with rfl | hpos
  · rfl
  · exact absurd hzero (head?_ofNat hpos)

/-- The four digits that stand for a control code are read as the code. -/
theorem unit?_code : ∀ n < 0x20, unit? (hexDigit (n / 0x1000 % 16)) (hexDigit (n / 0x100 % 16))
    (hexDigit (n / 0x10 % 16)) (hexDigit (n % 16)) = some n := by decide

/-- A control code is no surrogate, so it stands for itself. -/
theorem pointOf_toNat (c : Char) (h : c.toNat < 0x20) : pointOf c.toNat = .char c := by
  rw [pointOf, CodePoint.ofCode?, dif_neg (by omega), if_pos (by omega), Char.ofNat_toNat]
  rfl

/-- An escaped text without lone surrogates spells the text. -/
theorem spellsString_escape (h : hasLoneSurrogate t = false) :
    SpellsString (t.flatMap escapePoint) t := by
  induction t with
  | nil => exact .nil
  | cons p t ih =>
      rw [hasLoneSurrogate, List.any_cons, Bool.or_eq_false_iff] at h
      have hrest := ih h.2
      match p, h.1 with
      | .char c, _ =>
          rw [List.flatMap_cons, escapePoint]
          split
          · rename_i hc
            cases eq_of_beq hc
            exact .letter rfl hrest
          split
          · rename_i hc
            cases eq_of_beq hc
            exact .letter rfl hrest
          split
          · rename_i hcode
            rw [← pointOf_toNat c hcode]
            refine .unit (unit?_code _ hcode) ?_ hrest
            rintro ⟨_, _, _, _, _, low, _, _, -, hpair⟩
            rw [pair?, if_neg (by simp; omega)] at hpair
            cases hpair
          · rename_i hquote hslash hcode
            exact .plain (Nat.not_lt.1 hcode) (by simpa using hquote) (by simpa using hslash) hrest

/-! ## Values -/

/-- Writes things with commas between them, and the closing sign. -/
def renderListed (one : α → Text) (closing : Char) : List α → Text
  | [] => [.char closing]
  | [a] => one a ++ [.char closing]
  | a :: rest => one a ++ .char ',' :: renderListed one closing rest

/-- Writes a member of an object. -/
def renderMember (member : Text × Json) : Text :=
  quote member.1 ++ .char ':' :: render member.2

/-- The writer of items is the writer of things with commas between them. -/
theorem renderItems_eq (items : List Json) : renderItems items = renderListed render ']' items := by
  fun_induction renderListed render ']' items with
  | case1 => rfl
  | case2 item => rfl
  | case3 item rest hne ih =>
      rw [renderItems, ih]
      exact hne

/-- So is the writer of members. -/
theorem renderMembers_eq (members : List (Text × Json)) :
    renderMembers members = renderListed renderMember '\x7d' members := by
  fun_induction renderListed renderMember '\x7d' members with
  | case1 => rfl
  | case2 member => simp [renderMembers, renderMember]
  | case3 member rest hne ih =>
      rw [renderMembers, ih]
      · simp [renderMember]
      · exact hne

section

variable {one : α → Text} {spells : Text → α → Prop} {a : α} {as : List α}

/-- Things that are written one after the other are spelled, with commas between them. -/
theorem exists_renderListed (h : ∀ b ∈ a :: as, spells (one b) b) (closing : Char) :
    ∃ s, SpellsListed spells s (a :: as) ∧
      renderListed one closing (a :: as) = s ++ [.char closing] := by
  have hspaced : Spaced spells (one a) a := .of_spelled (h a List.mem_cons_self)
  induction as generalizing a with
  | nil => exact ⟨_, .last hspaced, rfl⟩
  | cons b as ih =>
      have hrest := (List.forall_mem_cons.1 h).2
      obtain ⟨s, hs, hrender⟩ := ih hrest (.of_spelled (hrest b List.mem_cons_self))
      refine ⟨_, .cons hspaced hs, ?_⟩
      rw [renderListed, hrender]
      · simp
      · exact List.cons_ne_nil b as

/-- Things with commas between them are spelled if each of them is. -/
theorem bracketed_renderListed (h : ∀ a ∈ as, spells (one a) a) (opening closing : Char) :
    Bracketed opening closing spells (.char opening :: renderListed one closing as) as := by
  cases as with
  | nil => exact .empty (List.forall_mem_nil _)
  | cons a as =>
      obtain ⟨s, hs, hrender⟩ := exists_renderListed h closing
      rw [hrender]
      exact .listed hs

end

/-- A value that is written as it is read, with arrays and objects nested at most `depth` deep. -/
inductive Writable : (depth : Nat) → Json → Prop
  | null {depth : Nat} : Writable depth .null
  | bool {depth : Nat} (b : Bool) : Writable depth (.bool b)
  | integer {depth : Nat} {i : Int} (h : (Text.ofNat i.natAbs).length ≤ digitLimit) :
      Writable depth (.integer i)
  | string {depth : Nat} {t : Text} (h : hasLoneSurrogate t = false) : Writable depth (.string t)
  | array {depth : Nat} {items : List Json} (h : ∀ item ∈ items, Writable depth item) :
      Writable (depth + 1) (.array items)
  | object {depth : Nat} {members : List (Text × Json)}
      (hkeys : ∀ member ∈ members, hasLoneSurrogate member.1 = false)
      (h : ∀ member ∈ members, Writable depth member.2) : Writable (depth + 1) (.object members)

/-- The empty object can be written at any depth. -/
theorem Writable.empty : Writable (depth + 1) (.object []) :=
  .object (List.forall_mem_nil _) (List.forall_mem_nil _)

/-- An object can be written with one member more, if its key and its value can. -/
theorem Writable.cons {key : Text} {members : List (Text × Json)}
    (hkey : hasLoneSurrogate key = false) (hvalue : Writable depth value)
    (hrest : Writable (depth + 1) (.object members)) :
    Writable (depth + 1) (.object ((key, value) :: members)) := by
  cases hrest with
  | object hkeys h =>
      exact .object (List.forall_mem_cons.2 ⟨hkey, hkeys⟩) (List.forall_mem_cons.2 ⟨hvalue, h⟩)

/-- A scalar spells its value at any depth. -/
theorem Spells.scalar {s : Text} (h : SpellsScalar s value) (depth : Nat) : Spells depth s value :=
  match depth with
  | 0 => h
  | _ + 1 => SpellsValue.scalar h

/-- The sign goes in front of a number, and nothing else changes. -/
theorem SpellsNumber.signed {negative : Bool} {s : Text} (h : SpellsNumber negative s value) :
    SpellsScalar (signed negative s) value := by
  cases negative with
  | false => exact .unsigned h
  | true => exact .negative h

/-- An integer with not too many digits is written as a number of the grammar. -/
theorem spellsScalar_renderInt {i : Int} (h : (Text.ofNat i.natAbs).length ≤ digitLimit) :
    SpellsScalar (renderInt i) (.integer i) := by
  have hvalue : (if decide (i < 0) = true then -(i.natAbs : Int) else i.natAbs) = i := by
    simp only [decide_eq_true_eq]
    omega
  have hnumber : SpellsNumber (i < 0) _ _ := .integer (isWhole_ofNat i.natAbs) h
  rw [ofDigits_ofNat, hvalue] at hnumber
  exact hnumber.signed

/-- **What is written is spelled:** the writer spells the value that it is given. -/
theorem spells_render (h : Writable depth value) : Spells depth (render value) value := by
  induction h with
  | null => exact .scalar (.named (by simp [namedValues, render])) _
  | bool b => cases b <;> exact .scalar (.named (by simp [namedValues, render])) _
  | integer h => exact .scalar (spellsScalar_renderInt h) _
  | string h => exact .scalar (.string (spellsString_escape h)) _
  | array _ ih =>
      rw [render, renderItems_eq]
      exact .array (bracketed_renderListed ih _ _)
  | @object depth members hkeys _ ih =>
      rw [render, renderMembers_eq]
      refine .object (bracketed_renderListed (fun member hmember => ?_) _ _)
      have hmember := SpellsMember.mk (spellsString_escape (hkeys member hmember))
        (List.forall_mem_nil _) (List.forall_mem_nil _) (ih member hmember)
      simpa [renderMember, quote] using hmember

end Marginalia.Json
