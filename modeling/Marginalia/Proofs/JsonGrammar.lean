import Marginalia.Proofs.JsonTokens

/-!
# The grammar of JSON documents

Which texts are documents, and of which value each of them is one (`Json.SpellsDocument`): values in
brackets with commas between them, white space around every token, and arrays and objects nested no
deeper than the reader follows.  The reader accepts those documents and no others
(`Json.parse_eq_ok_iff`), so what is shown of a document does not depend on how it is read.

Arrays and objects are read by one loop that is given what reads a single item.  A reader of items
is said to read what a relation spells (`Json.Reads`), the loop hands that on from items to things
in brackets, and the values follow by induction on the depth that is left.
-/

namespace Marginalia.Json

variable {α : Type} {s text rest left document : Text} {p : CodePoint} {value : Json}

/-! ## White space -/

/-- White space between tokens. -/
def IsSpace (s : Text) : Prop := ∀ p ∈ s, isSpace p = true

/-- A thing with white space around it. -/
inductive Spaced (spells : Text → α → Prop) : Text → α → Prop
  | mk {before s after : Text} {a : α} (hbefore : IsSpace before) (h : spells s a)
      (hafter : IsSpace after) : Spaced spells (before ++ s ++ after) a

/-- Things with commas between them, at least one. -/
inductive SpellsListed (spells : Text → α → Prop) : Text → List α → Prop
  | last {s : Text} {a : α} (h : Spaced spells s a) : SpellsListed spells s [a]
  | cons {s rest : Text} {a : α} {as : List α} (h : Spaced spells s a)
      (hrest : SpellsListed spells rest as) : SpellsListed spells (s ++ .char ',' :: rest) (a :: as)

/-- Things with commas between them, in brackets. -/
inductive Bracketed (opening closing : Char) (spells : Text → α → Prop) : Text → List α → Prop
  | empty {s : Text} (h : IsSpace s) :
      Bracketed opening closing spells (.char opening :: (s ++ [.char closing])) []
  | listed {s : Text} {as : List α} (h : SpellsListed spells s as) :
      Bracketed opening closing spells (.char opening :: (s ++ [.char closing])) as

/-- A member of an object: a key, a colon and a value. -/
inductive SpellsMember (spells : Text → Json → Prop) : Text → Text × Json → Prop
  | mk {s key after before item : Text} {value : Json} (hkey : SpellsString s key)
      (hafter : IsSpace after) (hbefore : IsSpace before) (h : spells item value) :
      SpellsMember spells
        (.char '"' :: (s ++ .char '"' :: (after ++ .char ':' :: (before ++ item)))) (key, value)

theorem skipSpace_append (h : IsSpace s) : skipSpace (s ++ rest) = skipSpace rest :=
  List.dropWhile_append_of_pos h

/-- No space is skipped before anything else. -/
theorem skipSpace_cons (h : isSpace p = false) : skipSpace (p :: rest) = p :: rest :=
  List.dropWhile_cons_of_neg (by simp [h])

/-- What is skipped is space. -/
theorem exists_skipSpace (text : Text) : ∃ s, IsSpace s ∧ text = s ++ skipSpace text :=
  ⟨text.takeWhile isSpace, List.all_eq_true.1 List.all_takeWhile,
    List.takeWhile_append_dropWhile.symm⟩

/-- Space ends a number or a name as well as what follows it does. -/
theorem IsSpace.ends_append (h : IsSpace s) (hrest : Ends rest) : Ends (s ++ rest) := by
  cases s with
  | nil => exact hrest
  | cons p s =>
      have hp := h p List.mem_cons_self
      simp only [isSpace, Bool.or_eq_true, beq_iff_eq] at hp
      rcases hp with ((rfl | rfl) | rfl) | rfl <;> exact ends_cons rfl

/-- After a comma, there is more to come. -/
theorem readSeparator_comma (h : IsSpace s) (closing : Char) :
    readSeparator closing (s ++ .char ',' :: rest) = .ok (true, skipSpace rest) := by
  rw [readSeparator, skipSpace_append h]
  rfl

/-- After the closing bracket, there is not. -/
theorem readSeparator_close {closing : Char} (hclose : closes (.char closing) = true)
    (h : IsSpace s) :
    readSeparator closing (s ++ .char closing :: rest) = .ok (false, rest) := by
  rw [readSeparator, skipSpace_append h]
  simp only [closes, Bool.or_eq_true, beq_iff_eq, CodePoint.char.injEq] at hclose
  rcases hclose with rfl | rfl <;> rfl

/-- A separator that was read is a comma or the closing bracket, after space. -/
theorem exists_separator {closing : Char} {more : Bool}
    (h : readSeparator closing text = .ok (more, left)) :
    ∃ s, IsSpace s ∧
      (more = true ∧ (∃ rest, text = s ++ .char ',' :: rest ∧ left = skipSpace rest) ∨
        more = false ∧ text = s ++ .char closing :: left) := by
  obtain ⟨s, hs, htext⟩ := exists_skipSpace text
  refine ⟨s, hs, ?_⟩
  unfold readSeparator at h
  split at h
  · rename_i c rest heq
    rw [heq] at htext
    split at h
    · rename_i hc
      cases h
      cases eq_of_beq hc
      exact .inl ⟨rfl, rest, htext, rfl⟩
    · split at h
      · rename_i hc
        cases h
        cases eq_of_beq hc
        exact .inr ⟨rfl, htext⟩
      · cases h
  · cases h

/-- A reader reads what is spelled. -/
structure Reads (one : Text → Except Fault (α × Text)) (spells : Text → α → Prop) : Prop where
  /-- Each thing that is spelled begins with a sign of its own. -/
  head {s : Text} {a : α} (h : spells s a) :
    ∃ p left, s = p :: left ∧ isSpace p = false ∧ closes p = false
  /-- What is spelled is read up to where it ends. -/
  of_spelled {s rest : Text} {a : α} (h : spells s a) (hrest : Ends rest) :
    one (s ++ rest) = .ok (a, rest)
  /-- What is read is spelled by what stands before the rest. -/
  exists_spelled {text rest : Text} {a : α} (h : one text = .ok (a, rest)) :
    ∃ s, spells s a ∧ text = s ++ rest

/-- Reads one thing after the other, with commas between them, up to a closing sign. -/
def readListed (one : Text → Except Fault (α × Text)) (closing : Char) :
    (fuel : Nat) → (reversed : List α) → Text → Except Fault (List α × Text)
  | 0, _, _ => .error .malformed
  | fuel + 1, reversed, text => do
    let (a, rest) ← one text
    let (more, left) ← readSeparator closing rest
    if more then readListed one closing fuel (a :: reversed) left
    else return ((a :: reversed).reverse, left)

section

variable {one : Text → Except Fault (α × Text)} {spells : Text → α → Prop} {as : List α}
  {closing : Char}

/-- White space in front of what is spelled is skipped, and no more. -/
theorem Reads.skipSpace_spelled (h : Reads one spells) {a : α} (hbefore : IsSpace left)
    (hs : spells s a) :
    skipSpace (left ++ s ++ rest) = s ++ rest := by
  obtain ⟨p, more, rfl, hp, -⟩ := h.head hs
  rw [List.append_assoc, skipSpace_append hbefore, List.cons_append, skipSpace_cons hp]

/-- Of a thing with white space around it, the white space behind it is left. -/
theorem Reads.of_spaced (h : Reads one spells) {a : α} (hs : Spaced spells s a) :
    ∃ after, IsSpace after ∧
      ∀ rest, Ends rest → one (skipSpace (s ++ rest)) = .ok (a, after ++ rest) := by
  cases hs with
  | @mk before piece after _ hbefore hpiece hafter =>
      refine ⟨after, hafter, fun rest hrest => ?_⟩
      rw [List.append_assoc, h.skipSpace_spelled hbefore hpiece,
        h.of_spelled hpiece (hafter.ends_append hrest)]

/-- Things with commas between them are read up to the closing sign. -/
theorem Reads.of_listed (h : Reads one spells) (hclose : closes (.char closing) = true)
    (hs : SpellsListed spells s as) (rest : Text) (fuel : Nat) (hfuel : as.length ≤ fuel)
    (reversed : List α) :
    readListed one closing fuel reversed (skipSpace (s ++ .char closing :: rest)) =
      .ok (reversed.reverse ++ as, rest) := by
  induction hs generalizing fuel reversed with
  | @last s a hs =>
      obtain ⟨fuel, rfl⟩ := Nat.exists_eq_add_of_le' hfuel
      obtain ⟨after, hafter, hone⟩ := h.of_spaced hs
      have hend : Ends (.char closing :: rest) := by
        apply ends_cons
        simp only [closes, Bool.or_eq_true, beq_iff_eq, CodePoint.char.injEq] at hclose
        rcases hclose with rfl | rfl <;> rfl
      simp [readListed, hone _ hend, readSeparator_close hclose hafter, bind, Except.bind, pure,
        Except.pure]
  | @cons s more a as hs _ ih =>
      obtain ⟨fuel, rfl⟩ := Nat.exists_eq_add_of_le' (Nat.le_trans (Nat.le_add_left 1 _) hfuel)
      obtain ⟨after, hafter, hone⟩ := h.of_spaced hs
      have hend : Ends (.char ',' :: (more ++ .char closing :: rest)) := ends_cons rfl
      have hnext := ih fuel (Nat.le_of_succ_le_succ hfuel) (a :: reversed)
      simp [readListed, hone _ hend, readSeparator_comma hafter, bind, Except.bind, hnext]

/-- There may be space after a thing alone. -/
theorem Spaced.of_after {a : α} (h : spells s a) (hafter : IsSpace rest) :
    Spaced spells (s ++ rest) a :=
  .mk (List.forall_mem_nil _) h hafter

/-- There need be no space around a thing. -/
theorem Spaced.of_spelled {a : α} (h : spells s a) : Spaced spells s a := by
  simpa using of_after h (List.forall_mem_nil _)

/-- There may be space before the first of several things. -/
theorem SpellsListed.space (hs : SpellsListed spells s as) (h : IsSpace left) :
    SpellsListed spells (left ++ s) as := by
  have hspaced {s : Text} {a : α} (hs : Spaced spells s a) : Spaced spells (left ++ s) a := by
    cases hs with
    | mk hbefore hpiece hafter =>
        rw [← List.append_assoc, ← List.append_assoc]
        refine .mk (fun p hp => ?_) hpiece hafter
        exact (List.mem_append.1 hp).elim (h p) (hbefore p)
  cases hs with
  | last hs => exact .last (hspaced hs)
  | cons hs hrest =>
      rw [← List.append_assoc]
      exact .cons (hspaced hs) hrest

/-- Things that are read up to a closing sign are spelled, with commas between them. -/
theorem Reads.exists_listed (h : Reads one spells) {fuel : Nat} {reversed : List α}
    (hread : readListed one closing fuel reversed text = .ok (as, rest)) :
    ∃ s new, SpellsListed spells s new ∧ as = reversed.reverse ++ new ∧
      text = s ++ .char closing :: rest := by
  induction fuel generalizing reversed text with
  | zero => cases hread
  | succ fuel ih =>
      rw [readListed] at hread
      obtain ⟨⟨a, afterOne⟩, hone, hafterOne⟩ := exists_of_bind hread
      obtain ⟨⟨more, left⟩, hseparator, hleft⟩ := exists_of_bind hafterOne
      obtain ⟨piece, hpiece, rfl⟩ := h.exists_spelled hone
      obtain ⟨after, hafter, ⟨rfl, next, rfl, rfl⟩ | ⟨rfl, rfl⟩⟩ := exists_separator hseparator
      · obtain ⟨s, new, hs, rfl, hnext⟩ := ih hleft
        obtain ⟨space, hspace, hskip⟩ := exists_skipSpace next
        rw [hnext] at hskip
        refine ⟨_, _, .cons (.of_after hpiece hafter) (hs.space hspace), by simp, ?_⟩
        rw [hskip]
        simp
      · cases hleft
        exact ⟨_, _, .last (.of_after hpiece hafter), by simp, by simp⟩

/-- Reads things in brackets, after the opening one. -/
def readBracketed (one : Text → Except Fault (α × Text)) (closing : Char) (text : Text) :
    Except Fault (List α × Text) :=
  if (skipSpace text).head? = some (.char closing) then .ok ([], (skipSpace text).tail)
  else readListed one closing ((skipSpace text).length + 1) [] (skipSpace text)

/-- After the white space in front of it, a thing begins with a sign of its own. -/
theorem Reads.spaced_head (h : Reads one spells) {a : α} (hs : Spaced spells s a) :
    ∃ p left, closes p = false ∧ ∀ rest, skipSpace (s ++ rest) = p :: (left ++ rest) := by
  cases hs with
  | @mk before piece after _ hbefore hpiece hafter =>
      obtain ⟨p, left, rfl, -, hp⟩ := h.head hpiece
      refine ⟨p, left ++ after, hp, fun rest => ?_⟩
      rw [List.append_assoc, h.skipSpace_spelled hbefore hpiece, List.cons_append,
        List.append_assoc]

/-- What is listed begins with something that closes nothing. -/
theorem Reads.listed_head (h : Reads one spells) (hs : SpellsListed spells s as) (rest : Text) :
    ∃ p left, closes p = false ∧ skipSpace (s ++ rest) = p :: left := by
  cases hs with
  | last hs =>
      obtain ⟨p, left, hp, hskip⟩ := h.spaced_head hs
      exact ⟨p, _, hp, hskip rest⟩
  | cons hs _ =>
      obtain ⟨p, left, hp, hskip⟩ := h.spaced_head hs
      rw [List.append_assoc]
      exact ⟨p, _, hp, hskip _⟩

/-- Each thing takes at least one code point. -/
theorem Reads.length_le (h : Reads one spells) (hs : SpellsListed spells s as) (rest : Text) :
    as.length ≤ (skipSpace (s ++ rest)).length := by
  induction hs with
  | last hs =>
      obtain ⟨p, left, -, hskip⟩ := h.spaced_head hs
      simp [hskip]
  | @cons s more a as hs hrest ih =>
      obtain ⟨p, left, -, hskip⟩ := h.spaced_head hs
      have hdrop : (skipSpace (more ++ rest)).length ≤ (more ++ rest).length :=
        (List.dropWhile_suffix isSpace).length_le
      simp only [List.append_assoc, List.cons_append, hskip, List.length_cons,
        List.length_append] at hdrop ⊢
      omega

/-- Things in brackets are read up to the closing one. -/
theorem Reads.of_bracketed {opening : Char} (h : Reads one spells)
    (hclose : closes (.char closing) = true) (hs : Bracketed opening closing spells s as)
    (rest : Text) :
    ∃ inner, s = .char opening :: inner ∧
      readBracketed one closing (inner ++ rest) = .ok (as, rest) := by
  have hspace : isSpace (.char closing) = false := by
    simp only [closes, Bool.or_eq_true, beq_iff_eq, CodePoint.char.injEq] at hclose
    rcases hclose with rfl | rfl <;> rfl
  cases hs with
  | empty hs =>
      refine ⟨_, rfl, ?_⟩
      simp [readBracketed, skipSpace_append hs, skipSpace_cons hspace]
  | @listed s as hs =>
      refine ⟨_, rfl, ?_⟩
      have hread := h.of_listed hclose hs rest _
        (Nat.le_succ_of_le (h.length_le hs (.char closing :: rest))) []
      obtain ⟨p, left, hp, hskip⟩ := h.listed_head hs (.char closing :: rest)
      have hne : p ≠ .char closing := by
        rintro rfl
        rw [hp] at hclose
        cases hclose
      rw [List.append_assoc, List.singleton_append, readBracketed, if_neg (by simp [hskip, hne]),
        hread]
      rfl

/-- What is read in brackets is spelled by what stands before the rest. -/
theorem Reads.exists_bracketed (h : Reads one spells) (opening : Char)
    (hread : readBracketed one closing text = .ok (as, rest)) :
    ∃ s, Bracketed opening closing spells s as ∧ .char opening :: text = s ++ rest := by
  obtain ⟨space, hspace, htext⟩ := exists_skipSpace text
  unfold readBracketed at hread
  split at hread
  · rename_i hhead
    cases hread
    refine ⟨_, .empty hspace, ?_⟩
    obtain ⟨left, hleft⟩ := List.head?_eq_some_iff.1 hhead
    rw [hleft] at htext ⊢
    rw [htext]
    simp
  · obtain ⟨s, new, hs, rfl, hnext⟩ := h.exists_listed hread
    refine ⟨_, .listed (hs.space hspace), ?_⟩
    rw [htext, hnext]
    simp

end

/-! ## Values and documents -/

/-- Reads a member of an object. -/
def readMember (value : Text → Except Fault (Json × Text)) (text : Text) :
    Except Fault ((Text × Json) × Text) :=
  match text with
  | .char '"' :: rest => do
    let (key, afterKey) ← readString (rest.length + 1) [] rest
    match skipSpace afterKey with
    | .char ':' :: afterColon =>
      let (item, left) ← value (skipSpace afterColon)
      return ((key, item), left)
    | _ => .error .malformed
  | _ => .error .malformed

/-- The reader of items is the reader of things with commas between them. -/
theorem readItems_eq (one : Text → Except Fault (Json × Text)) (fuel : Nat) (reversed : List Json)
    (text : Text) :
    readItems one fuel reversed text =
      (readListed one ']' fuel reversed text).map fun (items, left) => (.array items, left) := by
  induction fuel generalizing reversed text with
  | zero => rfl
  | succ fuel ih =>
      simp only [readItems, readListed, bind, Except.bind]
      cases one text with
      | error fault => rfl
      | ok found =>
          dsimp only
          cases readSeparator ']' found.2 with
          | error fault => rfl
          | ok found =>
              dsimp only
              split
              · exact ih _ _
              · rfl

/-- The reader of members reads one and then a separator; here the two steps are taken apart. -/
theorem readMembers_succ (one : Text → Except Fault (Json × Text)) (fuel : Nat)
    (reversed : List (Text × Json)) (text : Text) :
    readMembers one (fuel + 1) reversed text = (do
      let (member, rest) ← readMember one text
      let (more, left) ← readSeparator '\x7d' rest
      if more then readMembers one fuel (member :: reversed) left
      else return (.object (member :: reversed).reverse, left)) := by
  unfold readMember
  split
  · rename_i rest
    rw [readMembers]
    cases readString (rest.length + 1) [] rest with
    | error fault => rfl
    | ok found =>
        dsimp only [bind, Except.bind]
        generalize skipSpace found.2 = left
        split
        · rename_i afterColon
          change _ = Except.bind (Except.bind (one (skipSpace afterColon)) fun value =>
            .ok ((found.1, value.1), value.2)) _
          cases one (skipSpace afterColon) with
          | error fault => rfl
          | ok value => rfl
        · simp_all
  · rw [readMembers]
    · rfl
    · assumption

/-- So the reader of members is the reader of things with commas between them as well. -/
theorem readMembers_eq (one : Text → Except Fault (Json × Text)) (fuel : Nat)
    (reversed : List (Text × Json)) (text : Text) :
    readMembers one fuel reversed text =
      (readListed (readMember one) '\x7d' fuel reversed text).map
        fun (members, left) => (.object members, left) := by
  induction fuel generalizing reversed text with
  | zero => rfl
  | succ fuel ih =>
      rw [readMembers_succ, readListed]
      cases readMember one text with
      | error fault => rfl
      | ok found =>
          dsimp only [bind, Except.bind]
          cases readSeparator '\x7d' found.2 with
          | error fault => rfl
          | ok found =>
              dsimp only
              split
              · exact ih _ _
              · rfl

/-- A value in which others may be spelled by the given relation. -/
inductive SpellsValue (inner : Text → Json → Prop) : Text → Json → Prop
  | scalar {s : Text} {value : Json} (h : SpellsScalar s value) : SpellsValue inner s value
  | array {s : Text} {items : List Json} (h : Bracketed '[' ']' inner s items) :
      SpellsValue inner s (.array items)
  | object {s : Text} {members : List (Text × Json)}
      (h : Bracketed '\x7b' '\x7d' (SpellsMember inner) s members) :
      SpellsValue inner s (.object members)

/-- A value in which arrays and objects are nested at most `depth` deep. -/
def Spells : (depth : Nat) → Text → Json → Prop
  | 0 => SpellsScalar
  | depth + 1 => SpellsValue (Spells depth)

/-- A document: one value with white space around it. -/
def SpellsDocument : Text → Json → Prop := Spaced (Spells nestingLimit)

/-- A member is read as it is spelled, if its value is. -/
theorem reads_member {one : Text → Except Fault (Json × Text)} {spells : Text → Json → Prop}
    (h : Reads one spells) :
    Reads (readMember one) (SpellsMember spells) where
  head hs := by
    cases hs
    exact ⟨_, _, rfl, rfl, rfl⟩
  of_spelled := by
    intro s rest member hs hrest
    cases hs with
    | @mk s key after before item value hkey hafter hbefore hitem =>
        have hstring := readString_spelled hkey (after ++ .char ':' :: (before ++ item ++ rest))
          (s ++ .char '"' :: (after ++ .char ':' :: (before ++ item ++ rest))).length [] (by simp)
        have hcolon : skipSpace (after ++ .char ':' :: (before ++ item ++ rest)) =
            .char ':' :: (before ++ item ++ rest) := by
          rw [skipSpace_append hafter, skipSpace_cons rfl]
        have hvalue : one (skipSpace (before ++ item ++ rest)) = .ok (value, rest) := by
          rw [h.skipSpace_spelled hbefore hitem, h.of_spelled hitem hrest]
        simp only [List.cons_append, List.append_assoc] at hstring hcolon hvalue ⊢
        simp only [readMember, hstring, hcolon, hvalue, bind, Except.bind, pure, Except.pure]
        rfl
  exists_spelled := by
    intro text rest member hread
    unfold readMember at hread
    split at hread
    · obtain ⟨⟨key, afterKey⟩, hstring, hafterKey⟩ := exists_of_bind hread
      obtain ⟨s, new, hs, hkey, rfl⟩ := exists_spellsString hstring
      obtain rfl : key = new := hkey
      obtain ⟨after, hafter, hskip⟩ := exists_skipSpace afterKey
      dsimp only at hafterKey
      split at hafterKey
      · rename_i afterColon heq
        obtain ⟨⟨value, left⟩, hvalue, hleft⟩ := exists_of_bind hafterKey
        cases hleft
        obtain ⟨before, hbefore, hnext⟩ := exists_skipSpace afterColon
        obtain ⟨item, hitem, htext⟩ := h.exists_spelled hvalue
        refine ⟨_, .mk hs hafter hbefore hitem, ?_⟩
        rw [hskip, heq, hnext, htext]
        simp
      · cases hafterKey
    · cases hread

/-- What begins with no bracket is a scalar. -/
theorem readValue_scalar (h : opens p = false) (depth : Nat) :
    readValue depth (p :: rest) = readScalar (p :: rest) := by
  simp only [opens, Bool.or_eq_false_iff, beq_eq_false_iff_ne] at h
  cases depth <;> rw [readValue] <;> grind

/-- An array is its items in brackets, read one level further down. -/
theorem readValue_array (depth : Nat) (text : Text) :
    readValue (depth + 1) (.char '[' :: text) =
      (readBracketed (readValue depth) ']' text).map fun (items, left) => (.array items, left) := by
  rw [readValue, readBracketed]
  split
  · rename_i left heq
    simp [heq, Except.map]
  · rename_i heq
    rw [if_neg, readItems_eq]
    intro hhead
    obtain ⟨left, hleft⟩ := List.head?_eq_some_iff.1 hhead
    exact heq left hleft

/-- An object is its members in braces, read one level further down. -/
theorem readValue_object (depth : Nat) (text : Text) :
    readValue (depth + 1) (.char '\x7b' :: text) =
      (readBracketed (readMember (readValue depth)) '\x7d' text).map
        fun (members, left) => (.object members, left) := by
  rw [readValue, readBracketed]
  split
  · rename_i left heq
    simp [heq, Except.map]
  · rename_i heq
    rw [if_neg, readMembers_eq]
    intro hhead
    obtain ⟨left, hleft⟩ := List.head?_eq_some_iff.1 hhead
    exact heq left hleft

/-- On the last level there are scalars alone. -/
theorem reads_scalar : Reads (readValue 0) SpellsScalar where
  head h := by
    obtain ⟨p, left, hs, hspace, -, hclose⟩ := h.head
    exact ⟨p, left, hs, hspace, hclose⟩
  of_spelled := by
    intro s rest value h hrest
    obtain ⟨p, left, rfl, -, hopen, -⟩ := h.head
    rw [List.cons_append, readValue_scalar hopen, ← List.cons_append, readScalar_spelled h hrest]
  exists_spelled := by
    intro text rest value h
    unfold readValue at h
    split at h
    · cases h
    · cases h
    · exact exists_spellsScalar h

/-- A value is read if arrays and objects are not nested too deep in it. -/
theorem reads_value (depth : Nat) : Reads (readValue depth) (Spells depth) := by
  induction depth with
  | zero => exact reads_scalar
  | succ depth ih =>
      -- The values in arrays and objects are read one level further down.
      constructor
      case head =>
        intro s value h
        cases h with
        | scalar h =>
            obtain ⟨p, left, hs, hspace, -, hclose⟩ := h.head
            exact ⟨p, left, hs, hspace, hclose⟩
        | array h => cases h <;> exact ⟨_, _, rfl, rfl, rfl⟩
        | object h => cases h <;> exact ⟨_, _, rfl, rfl, rfl⟩
      case of_spelled =>
        intro s rest value h hrest
        cases h with
        | scalar h =>
            obtain ⟨p, left, rfl, -, hopen, -⟩ := h.head
            rw [List.cons_append, readValue_scalar hopen, ← List.cons_append,
              readScalar_spelled h hrest]
        | array h =>
            obtain ⟨inner, rfl, hread⟩ := ih.of_bracketed rfl h rest
            rw [List.cons_append, readValue_array, hread]
            rfl
        | object h =>
            obtain ⟨inner, rfl, hread⟩ := (reads_member ih).of_bracketed rfl h rest
            rw [List.cons_append, readValue_object, hread]
            rfl
      case exists_spelled =>
        intro text rest value h
        rcases text with - | ⟨p, inner⟩
        · change readScalar [] = _ at h
          obtain ⟨s, hs, htext⟩ := exists_spellsScalar h
          exact ⟨s, .scalar hs, htext⟩
        · cases hopen : opens p with
          | false =>
              rw [readValue_scalar hopen] at h
              obtain ⟨s, hs, htext⟩ := exists_spellsScalar h
              exact ⟨s, .scalar hs, htext⟩
          | true =>
              simp only [opens, Bool.or_eq_true, beq_iff_eq] at hopen
              rcases hopen with rfl | rfl
              · rw [readValue_array] at h
                obtain ⟨found, hread, heq⟩ := exists_of_map h
                cases heq
                obtain ⟨s, hs, htext⟩ := ih.exists_bracketed '[' hread
                exact ⟨s, .array hs, htext⟩
              · rw [readValue_object] at h
                obtain ⟨found, hread, heq⟩ := exists_of_map h
                cases heq
                obtain ⟨s, hs, htext⟩ := (reads_member ih).exists_bracketed '\x7b' hread
                exact ⟨s, .object hs, htext⟩

/-- **The reader accepts the documents.**  The reader reads exactly the documents of the grammar,
each as the value that it spells. -/
theorem parse_eq_ok_iff : parse document = .ok value ↔ SpellsDocument document value := by
  constructor
  · intro h
    rw [parse] at h
    obtain ⟨⟨read, rest⟩, hread, h⟩ := exists_of_bind h
    dsimp only at h
    split at h
    · rename_i hempty
      cases h
      obtain ⟨before, hbefore, htext⟩ := exists_skipSpace document
      obtain ⟨after, hafter, hrest⟩ := exists_skipSpace rest
      obtain ⟨s, hs, hpiece⟩ := (reads_value nestingLimit).exists_spelled hread
      rw [List.isEmpty_iff.1 hempty, List.append_nil] at hrest
      rw [htext, hpiece, hrest, ← List.append_assoc]
      exact .mk hbefore hs hafter
    · cases h
  · intro h
    obtain ⟨after, hafter, hread⟩ := (reads_value nestingLimit).of_spaced h
    have hvalue := hread [] (by simp [Ends])
    have hempty : skipSpace after = [] := by
      rw [← List.append_nil after, skipSpace_append hafter]
      rfl
    rw [List.append_nil, List.append_nil] at hvalue
    rw [parse, hvalue]
    change (if (skipSpace after).isEmpty then Except.ok value else .error Fault.malformed) = _
    rw [hempty]
    rfl

end Marginalia.Json
