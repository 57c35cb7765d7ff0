import Marginalia.Json.Reader

/-!
# The limits of the JSON reader

A fault that the reader raises beyond a malformed document shows in the text
(`Json.shownBy_of_parse`): an integer that is too long is a run of too many digits, and values are
nested too deep only where brackets outside strings are.  So a text that keeps within the limits is
read, or it is malformed (`Json.WithinLimits.fault_eq`).  Of each reader it is told what it leaves
(`Json.Leaves`), and by what the text shows each of its faults (`Json.Fault.ShownBy`); the two
together are `Json.Accounted`, and there is one lemma for each reader.
-/

namespace Marginalia.Json

variable {α β : Type} {room : Nat} {text rest left word : Text} {fault : Fault}
  {before between after : Text → Bool} {left? : α → Text → Bool} {right? : β → Text → Bool}

/-- Whether a code point opens an array or an object. -/
def opens (p : CodePoint) : Bool := p == .char '[' || p == .char '\x7b'

/-- Whether a code point closes an array or an object. -/
def closes (p : CodePoint) : Bool := p == .char ']' || p == .char '\x7d'

/-- Whether brackets outside strings are nested at most so deep; within a string, a code point after
a backslash does not count. -/
def nestsWithin : (quoted : Bool) → (room : Nat) → Text → Bool
  | _, _, [] => true
  | true, room, .char '\\' :: _ :: rest => nestsWithin true room rest
  | true, room, p :: rest => nestsWithin (p != .char '"') room rest
  | false, room, p :: rest =>
    if p == .char '"' then nestsWithin true room rest
    else if opens p then 0 < room && nestsWithin false (room - 1) rest
    else if closes p then nestsWithin false (room + 1) rest
    else nestsWithin false room rest

/-- The code points that mean something to the nesting. -/
def marks : Text := [.char '"', .char '[', .char '\x7b', .char ']', .char '\x7d']

/-- A code point that is no mark does not count. -/
theorem nestsWithin_cons {p : CodePoint} (h : p ∉ marks) :
    nestsWithin false room (p :: rest) = nestsWithin false room rest := by
  simp only [marks, List.mem_cons, List.not_mem_nil, or_false, not_or] at h
  obtain ⟨hquote, hbracket, hbrace, hbracket', hbrace'⟩ := h
  simp [nestsWithin, opens, closes, hquote, hbracket, hbrace, hbracket', hbrace']

/-- Neither does a word without marks. -/
theorem nestsWithin_append (h : ∀ p ∈ word, p ∉ marks) :
    nestsWithin false room (word ++ rest) = nestsWithin false room rest := by
  induction word with
  | nil => rfl
  | cons p word ih =>
      obtain ⟨hp, hword⟩ := List.forall_mem_cons.1 h
      rw [List.cons_append, nestsWithin_cons hp, ih hword]

/-- A code point within a string that neither ends it nor begins an escape. -/
theorem nestsWithin_quoted {p : CodePoint} (hquote : p ≠ .char '"') (hslash : p ≠ .char '\\') :
    nestsWithin true room (p :: rest) = nestsWithin true room rest := by
  rw [nestsWithin, bne_iff_ne.2 hquote]
  rintro _ _ rfl
  exact absurd rfl hslash

/-! ## What a reader leaves -/

/-- Of a text some rest is left, and it nests as the text does. -/
structure Leaves (before : Text → Bool) (text : Text) (after : Text → Bool) (rest : Text) :
    Prop where
  suffix : rest <:+ text
  nests : before text = after rest

/-- A reader that reads nothing leaves the whole. -/
theorem Leaves.refl (before : Text → Bool) (text : Text) : Leaves before text before text :=
  ⟨List.suffix_refl text, rfl⟩

/-- What one reader leaves, the next one goes on with. -/
theorem Leaves.trans (h : Leaves before text between rest) (h' : Leaves between rest after left) :
    Leaves before text after left :=
  ⟨h'.suffix.trans h.suffix, h.nests.trans h'.nests⟩

/-- A part of a text is passed over that has no brackets, or has its own closed again. -/
abbrev Passes (room : Nat) (text rest : Text) : Prop :=
  Leaves (nestsWithin false room) text (nestsWithin false room) rest

/-- Words without marks are passed. -/
theorem passes_append (h : ∀ p ∈ word, p ∉ marks) : Passes room (word ++ rest) rest :=
  ⟨List.suffix_append word rest, nestsWithin_append h⟩

/-- A code point that is no mark is passed. -/
theorem passes_cons {p : CodePoint} (h : p ∉ marks) : Passes room (p :: rest) rest :=
  ⟨List.suffix_cons p rest, nestsWithin_cons h⟩

/-- A quote begins a string, in which brackets do not count. -/
theorem leaves_quote :
    Leaves (nestsWithin false room) (.char '"' :: rest) (nestsWithin true room) rest :=
  ⟨List.suffix_cons _ rest, rfl⟩

/-- An opening bracket takes of the room. -/
theorem leaves_open {p : CodePoint} (h : opens p = true) :
    Leaves (nestsWithin false (room + 1)) (p :: rest) (nestsWithin false room) rest := by
  refine ⟨List.suffix_cons p rest, ?_⟩
  simp only [opens, Bool.or_eq_true, beq_iff_eq] at h
  rcases h with rfl | rfl <;> simp [nestsWithin, opens]

/-- A closing bracket gives it back. -/
theorem leaves_close {p : CodePoint} (h : closes p = true) :
    Leaves (nestsWithin false room) (p :: rest) (nestsWithin false (room + 1)) rest := by
  refine ⟨List.suffix_cons p rest, ?_⟩
  simp only [closes, Bool.or_eq_true, beq_iff_eq] at h
  rcases h with rfl | rfl <;> rfl

/-- Dropping code points of a class without marks leaves the nesting as it is. -/
theorem passes_dropWhile {class? : CodePoint → Bool} (h : ∀ p ∈ marks, class? p = false) :
    Passes room text (text.dropWhile class?) := by
  have hword : ∀ p ∈ text.takeWhile class?, p ∉ marks := by
    intro p hp hmark
    have htrue := List.all_eq_true.1 List.all_takeWhile p hp
    rw [h p hmark] at htrue
    cases htrue
  have hpasses : Passes room (text.takeWhile class? ++ text.dropWhile class?)
      (text.dropWhile class?) :=
    passes_append hword
  rwa [List.takeWhile_append_dropWhile] at hpasses

/-- White space has no marks. -/
theorem passes_skipSpace : Passes room text (skipSpace text) :=
  passes_dropWhile (by decide)

/-- Digits are no marks. -/
theorem passes_digits : Passes room text (text.dropWhile isDigit) :=
  passes_dropWhile (by decide)

/-! ## Why a reader raises a fault -/

/-- What a text shows when it makes a reader raise a fault. -/
def Fault.ShownBy (nests : Text → Bool) (text : Text) : Fault → Prop
  | .malformed => True
  | .integerTooLong => ∃ run, run <:+: text ∧ (∀ p ∈ run, isDigit p) ∧ digitLimit < run.length
  | .tooDeep => nests text = false

/-- A fault that shows in what is left shows in the text. -/
theorem Fault.ShownBy.of_leaves (hrest : fault.ShownBy after rest)
    (h : Leaves before text after rest) : fault.ShownBy before text := by
  cases fault with
  | malformed => trivial
  | integerTooLong =>
      obtain ⟨run, hrun, hdigits, hlong⟩ := hrest
      exact ⟨run, hrun.trans h.suffix.isInfix, hdigits, hlong⟩
  | tooDeep => exact h.nests.trans hrest

/-- What is read of a text leaves its rest, and otherwise the text shows the fault. -/
def Accounted (before : Text → Bool) (text : Text) (left? : α → Text → Bool) :
    Except Fault (α × Text) → Prop
  | .ok (a, rest) => Leaves before text (left? a) rest
  | .error fault => fault.ShownBy before text

/-- A reader that begins with what another one has left is accounted for by the whole. -/
theorem Accounted.of_leaves {result : Except Fault (α × Text)}
    (hresult : Accounted after rest left? result)
    (h : Leaves before text after rest) : Accounted before text left? result := by
  cases result with
  | error fault => exact Fault.ShownBy.of_leaves hresult h
  | ok found => exact h.trans hresult

/-- Readers are accounted for one after the other. -/
theorem Accounted.bind {result : Except Fault (α × Text)}
    {next : α × Text → Except Fault (β × Text)} (hresult : Accounted before text left? result)
    (hnext : ∀ a rest, Accounted (left? a) rest right? (next (a, rest))) :
    Accounted before text right? (result >>= next) := by
  cases result with
  | error fault => exact hresult
  | ok found => exact (hnext found.1 found.2).of_leaves hresult

/-- What is made of the value does not matter. -/
theorem Accounted.map {f : α → β} {result : Except Fault (α × Text)}
    (hresult : Accounted before text (fun _ => after) result) :
    Accounted before text (fun _ => after) (result.map fun (a, rest) => (f a, rest)) := by
  cases result with
  | error fault => exact hresult
  | ok found => exact hresult

/-- What is read is passed over, or the text shows the fault. -/
abbrev Keeps (room : Nat) (text : Text) (result : Except Fault (α × Text)) : Prop :=
  Accounted (nestsWithin false room) text (fun _ => nestsWithin false room) result

/-! ## Strings -/

/-- A digit of base sixteen ends no string and escapes nothing. -/
theorem hexDigit?_ne {p : CodePoint} {n : Nat} (h : hexDigit? p = some n) :
    p ≠ .char '"' ∧ p ≠ .char '\\' := by
  constructor <;> rintro rfl <;> cases h

/-- An escaped unit is within the string. -/
theorem leaves_unit {a b c d : CodePoint} {n : Nat} (h : unit? a b c d = some n) :
    Leaves (nestsWithin true room) (.char '\\' :: .char 'u' :: a :: b :: c :: d :: rest)
      (nestsWithin true room) rest := by
  simp only [unit?, bind, Option.bind_eq_some_iff] at h
  obtain ⟨_, ha, _, hb, _, hc, _, hd, -⟩ := h
  refine ⟨⟨[.char '\\', .char 'u', a, b, c, d], rfl⟩, ?_⟩
  rw [nestsWithin, nestsWithin_quoted (hexDigit?_ne ha).1 (hexDigit?_ne ha).2,
    nestsWithin_quoted (hexDigit?_ne hb).1 (hexDigit?_ne hb).2,
    nestsWithin_quoted (hexDigit?_ne hc).1 (hexDigit?_ne hc).2,
    nestsWithin_quoted (hexDigit?_ne hd).1 (hexDigit?_ne hd).2]

/-- A string that is read ends where its quote is closed. -/
theorem accounted_readString (fuel : Nat) (reversed : Text) :
    Accounted (nestsWithin true room) text (fun _ => nestsWithin false room)
      (readString fuel reversed text) := by
  fun_induction readString fuel reversed text with
  | case1 | case2 | case4 | case9 | case10 => trivial
  | case3 => exact ⟨List.suffix_cons _ _, rfl⟩
  | case5 _ _ _ _ _ _ _ hfirst _ _ _ _ _ _ hpair ih =>
      obtain ⟨_, hsecond, -⟩ := Option.bind_eq_some_iff.1 hpair
      exact ih.of_leaves ((leaves_unit hfirst).trans (leaves_unit hsecond))
  | case6 _ _ _ _ _ _ _ hfirst _ _ _ _ _ _ ih => exact ih.of_leaves (leaves_unit hfirst)
  | case7 _ _ _ _ _ _ _ _ hfirst _ ih => exact ih.of_leaves (leaves_unit hfirst)
  | case8 _ _ p rest _ _ _ ih => exact ih.of_leaves ⟨⟨[.char '\\', p], rfl⟩, by rw [nestsWithin]⟩
  | case11 _ _ p rest hquote _ _ hraw ih =>
      have hslash : p ≠ .char '\\' := by
        rintro rfl
        exact hraw (by simp)
      exact ih.of_leaves ⟨List.suffix_cons p rest, nestsWithin_quoted hquote hslash⟩

/-! ## Numbers and names -/

/-- A fraction has no marks. -/
theorem passes_readFraction : Passes room text (readFraction text).2 := by
  unfold readFraction
  split
  · dsimp only
    split
    · exact .refl _ _
    · exact (passes_cons (by decide)).trans passes_digits
  · exact .refl _ _

/-- An exponent is taken with its letter and sign, or nothing is. -/
theorem passes_exponent {digits : Text} {exponent : Int} (h : Passes room text digits) :
    Passes room text
      (if (digits.takeWhile isDigit).isEmpty then ((false, 0), text)
        else ((true, exponent), digits.dropWhile isDigit)).2 := by
  split
  · exact .refl _ _
  · exact h.trans passes_digits

/-- An exponent has none either. -/
theorem passes_readExponent : Passes room text (readExponent text).2 := by
  unfold readExponent
  split
  · rename_i e rest
    split
    · rename_i he
      have hmark : CodePoint.char e ∉ marks := by
        simp only [Bool.or_eq_true, beq_iff_eq] at he
        rcases he with rfl | rfl <;> decide
      have hletter : Passes room (.char e :: rest) rest := passes_cons hmark
      have hminus : CodePoint.char '-' ∉ marks := by decide
      have hplus : CodePoint.char '+' ∉ marks := by decide
      dsimp only
      split
      · exact passes_exponent (hletter.trans (passes_cons hminus))
      · exact passes_exponent (hletter.trans (passes_cons hplus))
      · exact passes_exponent hletter
    · exact .refl _ _
  · exact .refl _ _

/-- The digits at the front of a number, of which a zero is all. -/
def leadingDigits (text : Text) : Text × Text :=
  match text with
  | .char '0' :: rest => ([.char '0'], rest)
  | _ => (text.takeWhile isDigit, text.dropWhile isDigit)

/-- Nor have the digits in front of both. -/
theorem passes_leadingDigits : Passes room text (leadingDigits text).2 := by
  unfold leadingDigits
  split
  · exact passes_cons (by decide)
  · exact passes_digits

/-- Too many digits at the front are a run of the text. -/
theorem shownBy_leadingDigits (before : Text → Bool)
    (h : digitLimit < (leadingDigits text).1.length) :
    Fault.ShownBy before text .integerTooLong := by
  unfold leadingDigits at h
  split at h
  · simp [digitLimit] at h
  · exact ⟨_, (List.takeWhile_prefix isDigit).isInfix, List.all_eq_true.1 List.all_takeWhile, h⟩

/-- A number is read in these parts, whether it turns out whole or not. -/
theorem readNumber_eq (negative : Bool) (text : Text) :
    readNumber negative text =
      let digits := (leadingDigits text).1
      let fraction := readFraction (leadingDigits text).2
      let exponent := readExponent fraction.2
      if digits.isEmpty then .error .malformed
      else if fraction.1.isEmpty && !exponent.1.1 then
        if digitLimit < digits.length then .error .integerTooLong
        else .ok (.integer (if negative then -(ofDigits digits : Int) else ofDigits digits),
          exponent.2)
      else
        .ok (.real (.ofDecimal negative (ofDigits (digits ++ fraction.1))
          (exponent.1.2 - fraction.1.length)), exponent.2) := rfl

/-- A number has too many digits or is read without counting brackets. -/
theorem keeps_readNumber (negative : Bool) :
    Keeps room text (readNumber negative text) := by
  have hrest : Passes room text (readExponent (readFraction (leadingDigits text).2).2).2 :=
    (passes_leadingDigits.trans passes_readFraction).trans passes_readExponent
  rw [readNumber_eq]
  dsimp only
  split
  · trivial
  · split
    · split
      · exact shownBy_leadingDigits (nestsWithin false room) ‹_›
      · exact hrest
    · exact hrest

/-- A name holds no marks. -/
theorem passes_dropWord {name : Text} {value : Json} (hname : (name, value) ∈ namedValues)
    (h : dropWord? name text = some rest) : Passes room text rest := by
  have hmarks : ∀ named ∈ namedValues, ∀ p ∈ named.1, p ∉ marks := by
    simp only [namedValues, List.forall_mem_cons]
    decide
  unfold dropWord? at h
  split at h
  · rename_i hpre
    obtain ⟨more, rfl⟩ := List.isPrefixOf_iff_prefix.1 hpre
    cases h
    rw [List.drop_left]
    exact passes_append (hmarks _ hname)
  · cases h

/-- Scalars open no brackets but within strings. -/
theorem keeps_readScalar :
    Keeps room text (readScalar text) := by
  unfold readScalar
  split
  · rename_i found hfound
    obtain ⟨⟨name, value⟩, hname, hdrop⟩ := List.exists_of_findSome?_eq_some hfound
    obtain ⟨rest, hrest, rfl⟩ := Option.map_eq_some_iff.1 hdrop
    exact passes_dropWord hname hrest
  · split
    · exact ((accounted_readString _ _).map (f := Json.string)).of_leaves leaves_quote
    · exact (keeps_readNumber true).of_leaves (passes_cons (by decide))
    · exact keeps_readNumber false

/-! ## Arrays and objects -/

/-- A comma leaves the depth as it is, and a closing sign goes back up. -/
theorem accounted_readSeparator {close : Char} (hclose : closes (.char close) = true) :
    Accounted (nestsWithin false room) text
      (fun more => nestsWithin false (if more then room else room + 1))
        (readSeparator close text) := by
  unfold readSeparator
  have hspace : Passes room text (skipSpace text) := passes_skipSpace
  split
  · rename_i c rest heq
    rw [heq] at hspace
    split
    · rename_i hcomma
      cases eq_of_beq hcomma
      exact (hspace.trans (passes_cons (by decide))).trans passes_skipSpace
    · split
      · rename_i hc
        cases eq_of_beq hc
        exact hspace.trans (leaves_close hclose)
      · trivial
  · trivial

/-- The items of an array give back the room that its bracket has taken. -/
theorem accounted_readItems {value : Text → Except Fault (Json × Text)}
    (hvalue : ∀ text, Keeps room text (value text)) (fuel : Nat) (reversed : List Json) :
    Accounted (nestsWithin false room) text (fun _ => nestsWithin false (room + 1))
      (readItems value fuel reversed text) := by
  induction fuel generalizing reversed text with
  | zero => trivial
  | succ fuel ih =>
      refine (hvalue text).bind fun item rest => ?_
      refine (accounted_readSeparator rfl).bind fun more left => ?_
      cases more with
      | true => exact ih _
      | false => exact .refl _ _

/-- So do the members of an object. -/
theorem accounted_readMembers {value : Text → Except Fault (Json × Text)}
    (hvalue : ∀ text, Keeps room text (value text)) (fuel : Nat) (reversed : List (Text × Json)) :
    Accounted (nestsWithin false room) text (fun _ => nestsWithin false (room + 1))
      (readMembers value fuel reversed text) := by
  induction fuel generalizing reversed text with
  | zero => trivial
  | succ fuel ih =>
      unfold readMembers
      split
      · refine Accounted.of_leaves ?_ leaves_quote
        refine (accounted_readString _ _).bind fun key afterKey => ?_
        have hspace : Passes room afterKey (skipSpace afterKey) := passes_skipSpace
        dsimp only
        split
        · rename_i afterColon heq
          rw [heq] at hspace
          have hcolon : CodePoint.char ':' ∉ marks := by decide
          refine Accounted.of_leaves ?_ ((hspace.trans (passes_cons hcolon)).trans passes_skipSpace)
          refine (hvalue _).bind fun item rest => ?_
          refine (accounted_readSeparator rfl).bind fun more left => ?_
          cases more with
          | true => exact ih _
          | false => exact .refl _ _
        · trivial
      · trivial

/-- A reader with room for so many brackets. -/
theorem keeps_readValue (room : Nat) (text : Text) :
    Keeps room text (readValue room text) := by
  induction room generalizing text with
  | zero =>
      unfold readValue
      split
      · rfl
      · rfl
      · exact keeps_readScalar
  | succ room ih =>
      unfold readValue
      split
      · rename_i rest
        have hitems : Leaves (nestsWithin false (room + 1)) (.char '[' :: rest)
            (nestsWithin false room) (skipSpace rest) :=
          (leaves_open rfl).trans passes_skipSpace
        split
        · rename_i heq
          rw [heq] at hitems
          exact hitems.trans (leaves_close rfl)
        · exact (accounted_readItems ih _ _).of_leaves hitems
      · rename_i rest
        have hmembers : Leaves (nestsWithin false (room + 1)) (.char '\x7b' :: rest)
            (nestsWithin false room) (skipSpace rest) :=
          (leaves_open rfl).trans passes_skipSpace
        split
        · rename_i heq
          rw [heq] at hmembers
          exact hmembers.trans (leaves_close rfl)
        · exact (accounted_readMembers ih _ _).of_leaves hmembers
      · exact keeps_readScalar

/-! ## Documents -/

/-- What keeps a text within the limits of the reader: no run of digits is too long, and brackets
outside strings are not nested too deep. -/
structure WithinLimits (text : Text) : Prop where
  digits : ∀ run, run <:+: text → (∀ p ∈ run, isDigit p) → run.length ≤ digitLimit
  nesting : nestsWithin false nestingLimit text

/-- **Faults show in the text.**  A text raises a fault only if it shows it. -/
theorem shownBy_of_parse (h : parse text = .error fault) :
    fault.ShownBy (nestsWithin false nestingLimit) text := by
  have hvalue := (keeps_readValue nestingLimit (skipSpace text)).of_leaves passes_skipSpace
  rw [parse] at h
  cases hread : readValue nestingLimit (skipSpace text) with
  | error found =>
      rw [hread] at h hvalue
      cases h
      exact hvalue
  | ok found =>
      rw [hread] at h
      change (if _ then Except.ok found.1 else .error Fault.malformed) = _ at h
      split at h
      · cases h
      · cases h
        trivial

/-- Within the limits, a document is read or it is malformed. -/
theorem WithinLimits.fault_eq (hlimits : WithinLimits text) (h : parse text = .error fault) :
    fault = .malformed := by
  have hshown := shownBy_of_parse h
  cases fault with
  | malformed => rfl
  | integerTooLong =>
      obtain ⟨run, hrun, hdigits, hlong⟩ := hshown
      exact absurd (hlimits.digits run hrun hdigits) (by omega)
  | tooDeep =>
      have hnests := hlimits.nesting
      rw [hshown] at hnests
      cases hnests

/-- A bracket is no white space. -/
theorem skipSpace_brackets (n : Nat) (text : Text) :
    skipSpace (List.replicate (n + 1) (.char '[') ++ text) =
      List.replicate (n + 1) (.char '[') ++ text := rfl

/-- Brackets that are opened beyond the room for them raise a fault, whatever follows. -/
theorem readValue_brackets (room : Nat) (text : Text) :
    readValue room (List.replicate (room + 1) (.char '[') ++ text) = .error .tooDeep := by
  induction room with
  | zero => rfl
  | succ room ih =>
      -- One bracket is taken, and what follows it is not closed at once.
      change readItems (readValue room) (_ + 1) [] (List.replicate (room + 1) (.char '[') ++ text) =
        _
      rw [readItems, ih]
      rfl

/-- The limit on nesting is met by brackets alone. -/
theorem parse_brackets (text : Text) :
    parse (List.replicate (nestingLimit + 1) (.char '[') ++ text) = .error .tooDeep := by
  rw [parse, skipSpace_brackets, readValue_brackets]
  rfl

/-! ## Line ends -/

/-- What is left of a string after a backslash. -/
def escapedWithin (room : Nat) : Text → Bool
  | [] => true
  | _ :: rest => nestsWithin true room rest

/-- After a backslash within a string, the next code point does not end it. -/
theorem nestsWithin_slash (room : Nat) (text : Text) :
    nestsWithin true room (.char '\\' :: text) = escapedWithin room text := by
  cases text <;> rfl

/-- The nesting of a text is told by its first code point and the nesting of the rest. -/
theorem nestsWithin_congr {s t : Text} (p : CodePoint)
    (h : ∀ quoted room, nestsWithin quoted room s = nestsWithin quoted room t)
    (hescaped : ∀ room, escapedWithin room s = escapedWithin room t) (quoted : Bool) (room : Nat) :
    nestsWithin quoted room (p :: s) = nestsWithin quoted room (p :: t) := by
  cases quoted with
  | false => simp only [nestsWithin, h]
  | true =>
      by_cases hslash : p = .char '\\'
      · rw [hslash, nestsWithin_slash, nestsWithin_slash, hescaped]
      · by_cases hquote : p = .char '"'
        · subst hquote
          exact h false room
        · rw [nestsWithin_quoted hquote hslash, nestsWithin_quoted hquote hslash, h]

/-- The two code points that a line may end with mean nothing to the nesting. -/
theorem nestsWithin_lineEnd {p : CodePoint} (h : p = .char '\r' ∨ p = .char '\n') (quoted : Bool)
    (room : Nat) (text : Text) :
    nestsWithin quoted room (p :: text) = nestsWithin quoted room text := by
  have hmeaning : p ∉ marks ∧ p ≠ .char '"' ∧ p ≠ .char '\\' := by
    rcases h with rfl | rfl <;> decide
  cases quoted with
  | false => exact nestsWithin_cons hmeaning.1
  | true => exact nestsWithin_quoted hmeaning.2.1 hmeaning.2.2

/-- **Line ends and limits.**  However line ends are written, brackets are nested as deep, within
strings and without. -/
theorem nestsWithin_normalizeNewlines (text : Text) :
    (∀ quoted room, nestsWithin quoted room text.normalizeNewlines = nestsWithin quoted room text) ∧
      ∀ room, escapedWithin room text.normalizeNewlines = escapedWithin room text := by
  fun_induction Text.normalizeNewlines text with
  | case1 => exact ⟨fun _ _ => rfl, fun _ => rfl⟩
  | case2 rest ih =>
      refine ⟨fun quoted room => ?_, fun room => ?_⟩
      · rw [nestsWithin_lineEnd (.inr rfl), nestsWithin_lineEnd (.inl rfl),
          nestsWithin_lineEnd (.inr rfl), ih.1]
      · rw [escapedWithin, escapedWithin, nestsWithin_lineEnd (.inr rfl), ih.1]
  | case3 rest _ ih =>
      refine ⟨fun quoted room => ?_, fun room => ih.1 true room⟩
      rw [nestsWithin_lineEnd (.inr rfl), nestsWithin_lineEnd (.inl rfl), ih.1]
  | case4 p rest _ _ ih => exact ⟨nestsWithin_congr p ih.1 ih.2, fun room => ih.1 true room⟩

/-- Digits at the front of a text after its line ends are rewritten were there before. -/
theorem prefix_of_normalizeNewlines {run text : Text} (hdigits : ∀ p ∈ run, isDigit p)
    (h : run <+: text.normalizeNewlines) : run <+: text := by
  induction run generalizing text with
  | nil => exact List.nil_prefix
  | cons d run ih =>
      obtain ⟨hd, hrun⟩ := List.forall_mem_cons.1 hdigits
      unfold Text.normalizeNewlines at h
      split at h
      · cases List.prefix_nil.1 h
      · cases (List.cons_prefix_cons.1 h).1
        cases hd
      · cases (List.cons_prefix_cons.1 h).1
        cases hd
      · obtain ⟨rfl, hrest⟩ := List.cons_prefix_cons.1 h
        exact List.cons_prefix_cons.2 ⟨rfl, ih hrun hrest⟩

/-- What a text with rewritten line ends ends with is the rewritten end of the text. -/
theorem exists_suffix {tail text : Text} (h : tail <:+ text.normalizeNewlines) :
    ∃ rest : Text, rest <:+ text ∧ tail = rest.normalizeNewlines := by
  fun_induction Text.normalizeNewlines text with
  | case1 => exact ⟨[], List.suffix_refl [], List.suffix_nil.1 h⟩
  | case2 rest ih =>
      rcases List.suffix_cons_iff.1 h with rfl | hrest
      · exact ⟨_, List.suffix_refl _, by rw [Text.normalizeNewlines]⟩
      · obtain ⟨found, hfound, htail⟩ := ih hrest
        exact ⟨found, (hfound.trans (List.suffix_cons _ rest)).trans (List.suffix_cons _ _), htail⟩
  | case3 rest hcrlf ih =>
      rcases List.suffix_cons_iff.1 h with rfl | hrest
      · exact ⟨_, List.suffix_refl _, by rw [Text.normalizeNewlines]; assumption⟩
      · obtain ⟨found, hfound, htail⟩ := ih hrest
        exact ⟨found, hfound.trans (List.suffix_cons _ rest), htail⟩
  | case4 p rest hcrlf hcr ih =>
      rcases List.suffix_cons_iff.1 h with rfl | hrest
      · exact ⟨_, List.suffix_refl _, by rw [Text.normalizeNewlines] <;> assumption⟩
      · obtain ⟨found, hfound, htail⟩ := ih hrest
        exact ⟨found, hfound.trans (List.suffix_cons p rest), htail⟩

/-- A run of digits in a text after its line ends are rewritten was there before. -/
theorem infix_of_normalizeNewlines {run text : Text} (hdigits : ∀ p ∈ run, isDigit p)
    (h : run <:+: text.normalizeNewlines) : run <:+: text := by
  obtain ⟨tail, hprefix, hsuffix⟩ := List.infix_iff_prefix_suffix.1 h
  obtain ⟨rest, hrest, rfl⟩ := exists_suffix hsuffix
  exact (prefix_of_normalizeNewlines hdigits hprefix).isInfix.trans hrest.isInfix

/-- A text within the limits stays so when its line ends are made plain. -/
theorem WithinLimits.normalizeNewlines (h : WithinLimits text) :
    WithinLimits text.normalizeNewlines where
  digits run hrun hdigits := h.digits run (infix_of_normalizeNewlines hdigits hrun) hdigits
  nesting := by rw [(nestsWithin_normalizeNewlines text).1, h.nesting]

end Marginalia.Json
