import Marginalia.Proofs.JsonLimits
import Marginalia.Proofs.Results

/-!
# The tokens of JSON

Which texts are strings, numbers and names, and what they spell, told by the parts that a text is
put together from and not by how it is read (`Json.SpellsString`, `Json.SpellsNumber`,
`Json.SpellsScalar`).

Of each reader there are two statements: what is spelled is read, up to where it ends, and what is
read is spelled by what stands before the rest.  A number ends where the text does not go on with it
(`Json.Ends`); strings and names end by themselves.  Most shapes are settled by their first code
points, but an escaped half of a surrogate pair takes a look at what follows: it stands for itself
only if the other half is not escaped next (`Json.BeginsPair`).
-/

namespace Marginalia.Json

variable {s t text rest digits fraction places exponent sign : Text} {p : CodePoint} {value : Json}
  {power : Int} {negative : Bool}

/-! ## Strings -/

/-- Whether an escaped unit is followed by another with which it makes a pair. -/
def BeginsPair (unit : Nat) (rest : Text) : Prop :=
  ∃ e f g h left low p, rest = .char '\\' :: .char 'u' :: e :: f :: g :: h :: left ∧
    unit? e f g h = some low ∧ pair? unit low = some p

/-- What stands between the quotes of a string, with the text that it spells. -/
inductive SpellsString : Text → Text → Prop
  | nil : SpellsString [] []
  /-- A code point stands for itself, but control codes, quotes and backslashes do not. -/
  | plain {p : CodePoint} {s t : Text} (hcode : 0x20 ≤ p.code) (hquote : p ≠ .char '"')
      (hslash : p ≠ .char '\\') (h : SpellsString s t) : SpellsString (p :: s) (p :: t)
  /-- A letter after a backslash stands for what it names. -/
  | letter {q p : CodePoint} {s t : Text} (hletter : shortEscape? q = some p)
      (h : SpellsString s t) : SpellsString (.char '\\' :: q :: s) (p :: t)
  /-- A unit that is not the first of a pair stands for the code point with its number. -/
  | unit {a b c d : CodePoint} {n : Nat} {s t : Text} (hunit : unit? a b c d = some n)
      (hlone : ¬ BeginsPair n s) (h : SpellsString s t) :
      SpellsString (.char '\\' :: .char 'u' :: a :: b :: c :: d :: s) (pointOf n :: t)
  /-- The two units of a pair stand for one code point. -/
  | pair {a b c d e f g i p : CodePoint} {high low : Nat} {s t : Text}
      (hhigh : unit? a b c d = some high) (hlow : unit? e f g i = some low)
      (hpair : pair? high low = some p) (h : SpellsString s t) :
      SpellsString (.char '\\' :: .char 'u' :: a :: b :: c :: d ::
        .char '\\' :: .char 'u' :: e :: f :: g :: i :: s) (p :: t)

/-- A code point that may stand for itself is read as itself. -/
theorem readString_plain (hcode : 0x20 ≤ p.code) (hquote : p ≠ .char '"')
    (hslash : p ≠ .char '\\') (fuel : Nat) (reversed : Text) :
    readString (fuel + 1) reversed (p :: rest) = readString fuel (p :: reversed) rest := by
  rw [readString]
  · simp [Nat.not_lt.2 hcode, hslash]
  all_goals simp_all

/-- A letter after a backslash is read as what it names. -/
theorem readString_letter {q : CodePoint} (h : shortEscape? q = some p) (fuel : Nat)
    (reversed : Text) :
    readString (fuel + 1) reversed (.char '\\' :: q :: rest) =
      readString fuel (p :: reversed) rest := by
  rw [readString]
  · simp [h]
  · rintro a b c d left rfl
    cases h

/-- A unit that begins no pair is read as its code point. -/
theorem readString_unit {a b c d : CodePoint} {n : Nat} (h : unit? a b c d = some n)
    (hlone : ¬ BeginsPair n rest) (fuel : Nat) (reversed : Text) :
    readString (fuel + 1) reversed (.char '\\' :: .char 'u' :: a :: b :: c :: d :: rest) =
      readString fuel (pointOf n :: reversed) rest := by
  rw [readString]
  simp only [h]
  split
  · split
    · rename_i hpair
      obtain ⟨low, hlow, hp⟩ := Option.bind_eq_some_iff.1 hpair
      exact absurd ⟨_, _, _, _, _, low, _, rfl, hlow, hp⟩ hlone
    · rfl
  · rfl

/-- The two units of a pair are read as one code point. -/
theorem readString_pair {a b c d e f g i : CodePoint} {high low : Nat}
    (hhigh : unit? a b c d = some high) (hlow : unit? e f g i = some low)
    (hpair : pair? high low = some p) (fuel : Nat) (reversed : Text) :
    readString (fuel + 1) reversed (.char '\\' :: .char 'u' :: a :: b :: c :: d ::
      .char '\\' :: .char 'u' :: e :: f :: g :: i :: rest) =
        readString fuel (p :: reversed) rest := by
  rw [readString]
  simp only [hhigh, hlow, Option.bind_some, hpair]

/-- The digits of a unit are no quotes. -/
theorem quote_not_mem_unit {a b c d : CodePoint} {n : Nat} (h : unit? a b c d = some n) :
    .char '"' ∉ [.char '\\', .char 'u', a, b, c, d] := by
  simp only [unit?, bind, Option.bind_eq_some_iff] at h
  obtain ⟨_, ha, _, hb, _, hc, _, hd, -⟩ := h
  simp [(hexDigit?_ne ha).1.symm, (hexDigit?_ne hb).1.symm, (hexDigit?_ne hc).1.symm,
    (hexDigit?_ne hd).1.symm]

/-- What follows the closing quote makes no pair. -/
theorem not_beginsPair_append {n : Nat} (h : ¬ BeginsPair n s) :
    ¬ BeginsPair n (s ++ .char '"' :: rest) := by
  rintro ⟨e, f, g, i, left, low, p, heq, hlow, hpair⟩
  change _ = [.char '\\', .char 'u', e, f, g, i] ++ left at heq
  -- Either the quote is among the six code points of the second unit, or it comes after them.
  rcases List.append_eq_append_iff.1 heq with ⟨front, hfront, hrest⟩ | ⟨back, rfl, -⟩
  · cases front with
    | nil =>
        rw [List.append_nil] at hfront
        exact h ⟨e, f, g, i, [], low, p, hfront.symm, hlow, hpair⟩
    | cons q front =>
        cases hrest
        exact quote_not_mem_unit hlow (hfront ▸ by simp)
  · exact h ⟨e, f, g, i, back, low, p, rfl, hlow, hpair⟩

/-- **Strings.**  A string is read up to its closing quote. -/
theorem readString_spelled (h : SpellsString s t) (rest : Text) (fuel : Nat) (reversed : Text)
    (hfuel : s.length ≤ fuel) :
    readString (fuel + 1) reversed (s ++ .char '"' :: rest) =
      .ok (reversed.reverse ++ t, rest) := by
  induction h generalizing fuel reversed with
  | nil => rw [List.nil_append, readString, List.append_nil]
  | plain hcode hquote hslash _ ih =>
      obtain ⟨fuel, rfl⟩ := Nat.exists_eq_add_of_le' (Nat.le_trans (Nat.le_add_left 1 _) hfuel)
      rw [List.cons_append, readString_plain hcode hquote hslash, ih _ _ (by simpa using hfuel)]
      simp
  | letter hletter _ ih =>
      obtain ⟨fuel, rfl⟩ := Nat.exists_eq_add_of_le' (Nat.le_trans (Nat.le_add_left 1 _) hfuel)
      simp only [List.cons_append, List.length_cons] at hfuel ⊢
      rw [readString_letter hletter, ih _ _ (by omega)]
      simp
  | unit hunit hlone _ ih =>
      obtain ⟨fuel, rfl⟩ := Nat.exists_eq_add_of_le' (Nat.le_trans (Nat.le_add_left 1 _) hfuel)
      simp only [List.cons_append, List.length_cons] at hfuel ⊢
      rw [readString_unit hunit (not_beginsPair_append hlone), ih _ _ (by omega)]
      simp
  | pair hhigh hlow hpair _ ih =>
      obtain ⟨fuel, rfl⟩ := Nat.exists_eq_add_of_le' (Nat.le_trans (Nat.le_add_left 1 _) hfuel)
      simp only [List.cons_append, List.length_cons] at hfuel ⊢
      rw [readString_pair hhigh hlow hpair, ih _ _ (by omega)]
      simp

/-- What is read as a string is spelled by what stands before the closing quote. -/
theorem exists_spellsString {fuel : Nat} {reversed : Text}
    (h : readString fuel reversed text = .ok (t, rest)) :
    ∃ s new, SpellsString s new ∧ t = reversed.reverse ++ new ∧ text = s ++ .char '"' :: rest := by
  fun_induction readString fuel reversed text with
  | case1 | case2 | case4 | case9 | case10 => cases h
  | case3 =>
      cases h
      exact ⟨[], [], .nil, by simp, rfl⟩
  | case5 _ _ _ _ _ _ _ hfirst _ _ _ _ _ _ hpair ih =>
      obtain ⟨s, new, hs, rfl, rfl⟩ := ih h
      obtain ⟨_, hsecond, hp⟩ := Option.bind_eq_some_iff.1 hpair
      exact ⟨_, _, .pair hfirst hsecond hp hs, by simp, rfl⟩
  | case6 _ _ _ _ _ _ _ hfirst _ _ _ _ _ hsingle ih =>
      obtain ⟨s, new, hs, rfl, heq⟩ := ih h
      refine ⟨_, _, .unit hfirst ?_ hs, by simp, by rw [heq]; rfl⟩
      rintro ⟨_, _, _, _, left, low, p, rfl, hlow, hp⟩
      cases heq
      rw [hlow, Option.bind_some, hp] at hsingle
      cases hsingle
  | case7 _ _ _ _ _ _ _ _ hfirst hnot ih =>
      obtain ⟨s, new, hs, rfl, rfl⟩ := ih h
      refine ⟨_, _, .unit hfirst ?_ hs, by simp, rfl⟩
      rintro ⟨e, f, g, i, left, low, p, rfl, -, -⟩
      exact hnot e f g i _ rfl
  | case8 _ _ p rest _ q hletter ih =>
      obtain ⟨s, new, hs, rfl, rfl⟩ := ih h
      exact ⟨_, _, .letter hletter hs, by simp, rfl⟩
  | case11 _ _ p rest hquote _ _ hraw ih =>
      obtain ⟨s, new, hs, rfl, rfl⟩ := ih h
      simp only [Bool.or_eq_true, decide_eq_true_eq, beq_iff_eq, not_or, Nat.not_lt] at hraw
      exact ⟨_, _, .plain hraw.1 hquote hraw.2 hs, by simp, rfl⟩

/-! ## Numbers -/

/-- Digits, at least one. -/
def IsDigits (digits : Text) : Prop := digits ≠ [] ∧ ∀ p ∈ digits, isDigit p = true

/-- The digits of a whole number: no zero stands in front of others. -/
def IsWhole (digits : Text) : Prop :=
  IsDigits digits ∧ (digits.head? = some (.char '0') → digits.length = 1)

/-- The fraction of a number with its point, which may be left out, and its digits. -/
inductive SpellsFraction : Text → Text → Prop
  | none : SpellsFraction [] []
  | point {digits : Text} (h : IsDigits digits) : SpellsFraction (.char '.' :: digits) digits

/-- The signs that an exponent may have, with whether they make it negative. -/
def exponentSigns : List (Text × Bool) := [([], false), ([.char '+'], false), ([.char '-'], true)]

/-- The exponent of a number, which may be left out. -/
inductive SpellsExponent : Text → Int → Prop
  | none : SpellsExponent [] 0
  | letter {e : Char} {sign digits : Text} {negative : Bool} (he : e = 'e' ∨ e = 'E')
      (hsign : (sign, negative) ∈ exponentSigns) (h : IsDigits digits) :
      SpellsExponent (.char e :: (sign ++ digits))
        (if negative then -(ofDigits digits : Int) else ofDigits digits)

/-- A number without its sign. -/
inductive SpellsNumber (negative : Bool) : Text → Json → Prop
  | integer {digits : Text} (h : IsWhole digits) (hlimit : digits.length ≤ digitLimit) :
      SpellsNumber negative digits
        (.integer (if negative then -(ofDigits digits : Int) else ofDigits digits))
  | real {digits fraction places exponent : Text} {power : Int} (h : IsWhole digits)
      (hfraction : SpellsFraction fraction places) (hexponent : SpellsExponent exponent power)
      (hreal : fraction ++ exponent ≠ []) :
      SpellsNumber negative (digits ++ fraction ++ exponent)
        (.real (.ofDecimal negative (ofDigits (digits ++ places)) (power - places.length)))

/-- Whether digits end where a text begins. -/
def NoDigit (rest : Text) : Prop := ∀ p ∈ rest.head?, isDigit p = false

/-- Whether a number may go on with a code point. -/
def continues (p : CodePoint) : Bool :=
  isDigit p || p == .char '.' || p == .char 'e' || p == .char 'E'

/-- Whether a number ends where a text begins. -/
def Ends (rest : Text) : Prop := ∀ p ∈ rest.head?, continues p = false

/-- What cannot go on a number ends it. -/
theorem ends_cons (h : continues p = false) : Ends (p :: rest) := by
  rintro _ ⟨⟩
  exact h

/-- What ends a number begins with no digit. -/
theorem Ends.noDigit (h : Ends rest) : NoDigit rest := by
  intro p hp
  have hnot := h p hp
  simp only [continues, Bool.or_eq_false_iff] at hnot
  exact hnot.1.1.1

/-- Digits are split from what follows them. -/
theorem splits_digits (h : ∀ p ∈ digits, isDigit p = true) (hrest : NoDigit rest) :
    (digits ++ rest).takeWhile isDigit = digits ∧ (digits ++ rest).dropWhile isDigit = rest := by
  rw [List.takeWhile_append_of_pos h, List.dropWhile_append_of_pos h]
  cases rest with
  | nil => simp
  | cons p rest => simp [hrest p rfl]

theorem isDigits_takeWhile (h : (text.takeWhile isDigit).isEmpty = false) :
    IsDigits (text.takeWhile isDigit) :=
  ⟨by simpa using h, fun p hp => List.all_eq_true.1 List.all_takeWhile p hp⟩

/-- The digits of a whole number are read to their end. -/
theorem leadingDigits_whole (h : IsWhole digits) (hrest : NoDigit rest) :
    leadingDigits (digits ++ rest) = (digits, rest) := by
  unfold leadingDigits
  split
  · rename_i left heq
    obtain ⟨⟨hne, -⟩, hzero⟩ := h
    obtain ⟨d, digits, rfl⟩ := List.exists_cons_of_ne_nil hne
    obtain ⟨rfl, rfl⟩ := List.cons.inj heq
    obtain rfl := List.eq_nil_of_length_eq_zero (Nat.succ.inj (hzero rfl))
    rfl
  · simp only [splits_digits h.1.2 hrest]

/-- What is read as digits stands before what is left. -/
theorem leadingDigits_append (text : Text) :
    (leadingDigits text).1 ++ (leadingDigits text).2 = text := by
  unfold leadingDigits
  split
  · rfl
  · exact List.takeWhile_append_dropWhile

/-- Digits that are read are those of a whole number. -/
theorem isWhole_leadingDigits (h : (leadingDigits text).1.isEmpty = false) :
    IsWhole (leadingDigits text).1 := by
  unfold leadingDigits at h ⊢
  split at h
  · exact ⟨⟨by simp, by simp [isDigit]⟩, fun _ => rfl⟩
  · rename_i hzero
    refine ⟨isDigits_takeWhile h, fun hhead => ?_⟩
    obtain ⟨left, hleft⟩ : ∃ left, text.takeWhile isDigit = .char '0' :: left :=
      List.head?_eq_some_iff.1 hhead
    have htext : text = text.takeWhile isDigit ++ text.dropWhile isDigit :=
      List.takeWhile_append_dropWhile.symm
    rw [hleft] at htext
    exact absurd htext (hzero _)

/-- A fraction is read as it is spelled. -/
theorem readFraction_spelled (h : SpellsFraction fraction places)
    (hrest : ∀ p ∈ rest.head?, isDigit p = false ∧ p ≠ .char '.') :
    readFraction (fraction ++ rest) = (places, rest) := by
  cases h with
  | none =>
      rw [List.nil_append, readFraction]
      rintro left rfl
      exact (hrest (.char '.') rfl).2 rfl
  | point h =>
      rw [List.cons_append, readFraction]
      simp [splits_digits h.2 fun p hp => (hrest p hp).1, h.1]

/-- What is read as a fraction spells one. -/
theorem exists_spellsFraction (text : Text) :
    ∃ fraction, SpellsFraction fraction (readFraction text).1 ∧
      text = fraction ++ (readFraction text).2 := by
  unfold readFraction
  split
  · dsimp only
    split
    · exact ⟨[], .none, rfl⟩
    · rename_i h
      refine ⟨_, .point (isDigits_takeWhile (by simpa using h)), ?_⟩
      rw [List.cons_append, List.takeWhile_append_dropWhile]
  · exact ⟨[], .none, rfl⟩

/-- The sign at the front of an exponent, and what follows it. -/
def leadingSign (text : Text) : Bool × Text :=
  match text with
  | .char '-' :: left => (true, left)
  | .char '+' :: left => (false, left)
  | _ => (false, text)

/-- An exponent is read in these parts, and it counts only with digits. -/
theorem readExponent_eq (e : Char) (rest : Text) :
    readExponent (.char e :: rest) =
      if e == 'e' || e == 'E' then
        let number := (leadingSign rest).2.takeWhile isDigit
        if number.isEmpty then ((false, 0), .char e :: rest)
        else ((true, if (leadingSign rest).1 then -(ofDigits number : Int) else ofDigits number),
          (leadingSign rest).2.dropWhile isDigit)
      else ((false, 0), .char e :: rest) := rfl

/-- The sign of an exponent is read as it is spelled. -/
theorem leadingSign_spelled (hsign : (sign, negative) ∈ exponentSigns)
    (h : ∃ p ∈ text.head?, isDigit p = true) : leadingSign (sign ++ text) = (negative, text) := by
  simp only [exponentSigns, List.mem_cons, Prod.mk.injEq, List.not_mem_nil, or_false] at hsign
  rcases hsign with ⟨rfl, rfl⟩ | ⟨rfl, rfl⟩ | ⟨rfl, rfl⟩
  · obtain ⟨p, hp, hdigit⟩ := h
    rw [List.nil_append, leadingSign]
    all_goals
      rintro left rfl
      cases hp
      cases hdigit
  · rfl
  · rfl

/-- What is read as a sign is one, or there is none. -/
theorem exists_leadingSign (text : Text) :
    ∃ sign, (sign, (leadingSign text).1) ∈ exponentSigns ∧ text = sign ++ (leadingSign text).2 := by
  unfold leadingSign
  split
  · exact ⟨[.char '-'], by simp [exponentSigns], rfl⟩
  · exact ⟨[.char '+'], by simp [exponentSigns], rfl⟩
  · exact ⟨[], by simp [exponentSigns], rfl⟩

/-- An exponent is read up to where the number ends, and the reader says whether there is one. -/
theorem readExponent_spelled (h : SpellsExponent exponent power) (hrest : Ends rest) :
    readExponent (exponent ++ rest) = ((!exponent.isEmpty, power), rest) := by
  cases h with
  | none =>
      match rest, hrest with
      | [], _ => rfl
      | .surrogate _ :: _, _ => rfl
      | .char e :: rest, hrest =>
          have hnot := hrest (.char e) rfl
          simp only [continues, Bool.or_eq_false_iff, beq_eq_false_iff_ne, ne_eq,
            CodePoint.char.injEq] at hnot
          rw [List.nil_append, readExponent_eq, if_neg (by simp [hnot])]
          rfl
  | @letter e sign digits negative he hsign h =>
      have hhead : ∃ p ∈ (digits ++ rest).head?, isDigit p = true := by
        obtain ⟨d, ds, rfl⟩ := List.exists_cons_of_ne_nil h.1
        exact ⟨d, rfl, h.2 d List.mem_cons_self⟩
      rw [List.cons_append, List.append_assoc, readExponent_eq, if_pos (by simpa using he),
        leadingSign_spelled hsign hhead]
      simp [splits_digits h.2 hrest.noDigit, h.1]

/-- What is read as an exponent spells one, or is empty. -/
theorem exists_spellsExponent (text : Text) :
    ∃ exponent, SpellsExponent exponent (readExponent text).1.2 ∧
      (readExponent text).1.1 = !exponent.isEmpty ∧ text = exponent ++ (readExponent text).2 := by
  have hnone : ∃ exponent, SpellsExponent exponent 0 ∧ false = !exponent.isEmpty ∧
      text = exponent ++ text := ⟨[], .none, rfl, rfl⟩
  match text with
  | [] => exact hnone
  | .surrogate _ :: _ => exact hnone
  | .char e :: rest =>
      rw [readExponent_eq]
      dsimp only
      split
      · rename_i he
        split
        · exact hnone
        · rename_i hdigits
          obtain ⟨sign, hsign, htext⟩ := exists_leadingSign rest
          have hnumber := isDigits_takeWhile (by simpa using hdigits)
          refine ⟨_, .letter (by simpa using he) hsign hnumber, rfl, ?_⟩
          rw [List.cons_append, List.append_assoc, List.takeWhile_append_dropWhile, ← htext]
      · exact hnone

/-- What stands where a fraction has ended begins neither with a digit nor with a point. -/
theorem SpellsExponent.head (h : SpellsExponent exponent power) (hrest : Ends rest) :
    ∀ p ∈ (exponent ++ rest).head?, isDigit p = false ∧ p ≠ .char '.' := by
  cases h with
  | none =>
      intro p hp
      have hnot := hrest p hp
      simp only [continues, Bool.or_eq_false_iff, beq_eq_false_iff_ne] at hnot
      exact hnot.1.1
  | letter he =>
      rintro p ⟨⟩
      rcases he with rfl | rfl <;> exact ⟨rfl, by decide⟩

/-- A fraction begins with no digit, so it ends the digits in front of it. -/
theorem SpellsFraction.noDigit (h : SpellsFraction fraction places) (hrest : NoDigit rest) :
    NoDigit (fraction ++ rest) := by
  cases h with
  | none => exact hrest
  | point =>
      rintro p ⟨⟩
      rfl

/-- A fraction that is not left out has digits. -/
theorem SpellsFraction.isEmpty_eq (h : SpellsFraction fraction places) :
    fraction.isEmpty = places.isEmpty := by
  cases h with
  | none => rfl
  | point h => simp [h.1]

/-- A number begins with a digit. -/
theorem SpellsNumber.head (h : SpellsNumber negative s value) :
    ∃ d left, s = d :: left ∧ isDigit d = true := by
  cases h with
  | integer h =>
      obtain ⟨d, left, rfl⟩ := List.exists_cons_of_ne_nil h.1.1
      exact ⟨d, left, rfl, h.1.2 d List.mem_cons_self⟩
  | real h =>
      obtain ⟨d, left, rfl⟩ := List.exists_cons_of_ne_nil h.1.1
      exact ⟨d, _, rfl, h.1.2 d List.mem_cons_self⟩

/-- **Numbers.**  A number is read up to where it ends. -/
theorem readNumber_spelled (h : SpellsNumber negative s value) (hrest : Ends rest) :
    readNumber negative (s ++ rest) = .ok (value, rest) := by
  rw [readNumber_eq]
  cases h with
  | integer h hlimit =>
      have hdigits := leadingDigits_whole h hrest.noDigit
      have hfraction : readFraction rest = ([], rest) :=
        readFraction_spelled .none (SpellsExponent.none.head hrest)
      have hexponent : readExponent rest = ((false, 0), rest) := readExponent_spelled .none hrest
      have hne : s.isEmpty = false := by simpa using h.1.1
      simp [hdigits, hfraction, hexponent, hne, Nat.not_lt.2 hlimit]
  | @real digits fraction places exponent power h hf he hreal =>
      have hexponent := readExponent_spelled he hrest
      have hfraction := readFraction_spelled hf (he.head hrest)
      have hdigits := leadingDigits_whole h (hf.noDigit fun p hp => (he.head hrest p hp).1)
      have hne : digits.isEmpty = false := by simpa using h.1.1
      have hmark : (places.isEmpty && !!exponent.isEmpty) = false := by
        rw [← hf.isEmpty_eq]
        simpa using hreal
      simp only [List.append_assoc, hdigits, hfraction, hexponent, hne, hmark]
      simp

/-- What is read as a number is spelled by what stands before the rest. -/
theorem exists_spellsNumber (h : readNumber negative text = .ok (value, rest)) :
    ∃ s, SpellsNumber negative s value ∧ text = s ++ rest := by
  rw [readNumber_eq] at h
  dsimp only at h
  have htext := leadingDigits_append text
  obtain ⟨fraction, hfraction, hafter⟩ := exists_spellsFraction (leadingDigits text).2
  obtain ⟨exponent, hexponent, hmark, hrest⟩ :=
    exists_spellsExponent (readFraction (leadingDigits text).2).2
  split at h
  · cases h
  · rename_i hdigits
    have hwhole : IsWhole (leadingDigits text).1 := isWhole_leadingDigits (by simpa using hdigits)
    rw [hmark, ← hfraction.isEmpty_eq] at h
    split at h
    · rename_i hplain
      obtain ⟨rfl, rfl⟩ : fraction = [] ∧ exponent = [] := by simpa using hplain
      split at h
      · cases h
      · rename_i hlimit
        cases h
        refine ⟨_, .integer hwhole (Nat.not_lt.1 hlimit), ?_⟩
        rw [List.nil_append] at hafter hrest
        rw [← hrest, ← hafter, htext]
    · rename_i hreal
      cases h
      refine ⟨_, .real hwhole hfraction hexponent (by simpa using hreal), ?_⟩
      rw [List.append_assoc, List.append_assoc, ← hrest, ← hafter, htext]

/-! ## Values that hold no others -/

/-- A value that holds no others. -/
inductive SpellsScalar : Text → Json → Prop
  | named {name : Text} {value : Json} (h : (name, value) ∈ namedValues) : SpellsScalar name value
  | string {s t : Text} (h : SpellsString s t) :
      SpellsScalar (.char '"' :: (s ++ [.char '"'])) (.string t)
  | unsigned {s : Text} {value : Json} (h : SpellsNumber false s value) : SpellsScalar s value
  | negative {s : Text} {value : Json} (h : SpellsNumber true s value) :
      SpellsScalar (.char '-' :: s) value

/-- A name is read as its value. -/
theorem readScalar_named {name : Text} (h : (name, value) ∈ namedValues) (rest : Text) :
    readScalar (name ++ rest) = .ok (value, rest) := by
  simp only [namedValues, List.mem_cons, Prod.mk.injEq, List.not_mem_nil, or_false] at h
  rcases h with ⟨rfl, rfl⟩ | ⟨rfl, rfl⟩ | ⟨rfl, rfl⟩ | ⟨rfl, rfl⟩ | ⟨rfl, rfl⟩ | ⟨rfl, rfl⟩ <;> rfl

/-- A text that begins with a digit, or with a sign and a digit, begins with no name. -/
theorem findSome?_named (h : ∃ d ∈ text.take 2, isDigit d = true) :
    (namedValues.findSome? fun (name, value) => (dropWord? name text).map (value, ·)) = none := by
  have hnames : ∀ named ∈ namedValues,
      2 ≤ named.1.length ∧ ∀ p ∈ named.1.take 2, isDigit p = false := by
    simp only [namedValues, List.forall_mem_cons]
    decide
  rw [List.findSome?_eq_none_iff]
  intro named hnamed
  obtain ⟨hlength, hnodigit⟩ := hnames named hnamed
  obtain ⟨d, hd, hdigit⟩ := h
  have hnot : ¬ named.1.isPrefixOf text = true := by
    intro hprefix
    obtain ⟨more, rfl⟩ := List.isPrefixOf_iff_prefix.1 hprefix
    rw [List.take_append_of_le_length hlength] at hd
    rw [hnodigit d hd] at hdigit
    cases hdigit
  simp [dropWord?, hnot]

/-- What begins with a digit is read as a number. -/
theorem readScalar_unsigned {d : CodePoint} (h : isDigit d = true) (rest : Text) :
    readScalar (d :: rest) = readNumber false (d :: rest) := by
  rw [readScalar, findSome?_named ⟨d, by simp, h⟩]
  all_goals
    intro left heq
    cases heq
    cases h

/-- So is what begins with a sign and a digit. -/
theorem readScalar_negative {d : CodePoint} (h : isDigit d = true) (rest : Text) :
    readScalar (.char '-' :: d :: rest) = readNumber true (d :: rest) := by
  rw [readScalar, findSome?_named ⟨d, by simp, h⟩]

/-- A value that holds no others is read up to where it ends. -/
theorem readScalar_spelled (h : SpellsScalar s value) (hrest : Ends rest) :
    readScalar (s ++ rest) = .ok (value, rest) := by
  cases h with
  | named h => exact readScalar_named h rest
  | @string s t h =>
      have hread := readString_spelled h rest (s ++ .char '"' :: rest).length [] (by simp)
      rw [List.cons_append, List.append_assoc]
      change (readString ((s ++ .char '"' :: rest).length + 1) [] (s ++ .char '"' :: rest)).map _ =
        _
      rw [hread]
      rfl
  | unsigned h =>
      obtain ⟨d, left, rfl, hd⟩ := h.head
      rw [List.cons_append, readScalar_unsigned hd, ← List.cons_append, readNumber_spelled h hrest]
  | negative h =>
      obtain ⟨d, left, rfl, hd⟩ := h.head
      rw [List.cons_append, List.cons_append, readScalar_negative hd, ← List.cons_append,
        readNumber_spelled h hrest]

/-- What is read as a value that holds no others is spelled by what stands before the rest. -/
theorem exists_spellsScalar (h : readScalar text = .ok (value, rest)) :
    ∃ s, SpellsScalar s value ∧ text = s ++ rest := by
  unfold readScalar at h
  split at h
  · rename_i found hfound
    cases h
    obtain ⟨⟨name, value⟩, hname, hdrop⟩ := List.exists_of_findSome?_eq_some hfound
    obtain ⟨left, hleft, heq⟩ := Option.map_eq_some_iff.1 hdrop
    cases heq
    unfold dropWord? at hleft
    split at hleft
    · rename_i hprefix
      obtain ⟨more, rfl⟩ := List.isPrefixOf_iff_prefix.1 hprefix
      cases hleft
      exact ⟨name, .named hname, by simp⟩
    · cases hleft
  · split at h
    · obtain ⟨found, hread, heq⟩ := exists_of_map h
      cases heq
      obtain ⟨s, new, hs, hnew, rfl⟩ := exists_spellsString hread
      obtain rfl : found.1 = new := hnew
      exact ⟨_, .string hs, by simp⟩
    · obtain ⟨s, hs, rfl⟩ := exists_spellsNumber h
      exact ⟨_, .negative hs, rfl⟩
    · obtain ⟨s, hs, rfl⟩ := exists_spellsNumber h
      exact ⟨_, .unsigned hs, rfl⟩

/-- A value that holds no others begins with a sign of its own. -/
theorem SpellsScalar.head (h : SpellsScalar s value) :
    ∃ p left, s = p :: left ∧ isSpace p = false ∧ opens p = false ∧ closes p = false := by
  cases h with
  | named h =>
      simp only [namedValues, List.mem_cons, Prod.mk.injEq, List.not_mem_nil, or_false] at h
      rcases h with ⟨rfl, -⟩ | ⟨rfl, -⟩ | ⟨rfl, -⟩ | ⟨rfl, -⟩ | ⟨rfl, -⟩ | ⟨rfl, -⟩ <;>
        exact ⟨_, _, rfl, rfl, rfl, rfl⟩
  | string h => exact ⟨_, _, rfl, rfl, rfl, rfl⟩
  | unsigned h =>
      obtain ⟨d, left, rfl, hd⟩ := h.head
      have hne {q : CodePoint} (hq : isDigit q = false) : d ≠ q := by
        rintro rfl
        rw [hq] at hd
        cases hd
      refine ⟨d, left, rfl, ?_⟩
      simp only [isSpace, opens, closes, Bool.or_eq_false_iff, beq_eq_false_iff_ne]
      and_intros <;> exact hne rfl
  | negative h => exact ⟨_, _, rfl, rfl, rfl, rfl⟩

end Marginalia.Json
