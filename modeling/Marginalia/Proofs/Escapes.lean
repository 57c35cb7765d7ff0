import Marginalia.Markup.Reading

/-!
# What escaped text shows

Markup is read from left to right, with the backslashes that have just been read kept back: they
count half before a bracket group and in full before anything else.  `Over` says what a part of some
markup shows and which tags it sets, given the markup that follows; parts follow each other
(`Over.append`).

An escaped text shows itself up to the backslashes at its end (`exists_keepsBack`).  Those are kept
back for what follows: as many as there are, but two if there is one.  So before a tag, one
backslash at the end is shown and more are not, and before anything else it is the other way round.
-/

namespace Marginalia

namespace Markup

variable {start mid goal : Mode} {rest markup more shown others : Text} {found finds : List Text}
  {slashes : Nat}

/-- The text that markup shows from a mode on. -/
def plainFrom (mode : Mode) (markup : Text) : Text := (readFrom mode markup).flatMap Piece.shown

/-- The tag of a piece. -/
def Piece.tag? : Piece → Option Text
  | tag content => some content
  | text _ => none

/-- The tags of markup from a mode on. -/
def tagsFrom (mode : Mode) (markup : Text) : List Text :=
  (readFrom mode markup).filterMap Piece.tag?

/-- What markup shows, read from a place where text can stand. -/
theorem plain_eq (markup : Text) : plain markup = plainFrom (.text 0) markup := rfl

/-- The tags of markup, read from there. -/
theorem tags_eq (markup : Text) : tags markup = tagsFrom (.text 0) markup := rfl

/-- What the reading of markup shows and finds before it goes on with the rest in another mode. -/
structure Over (rest : Text) (start : Mode) (markup : Text) (goal : Mode) (shown : Text)
    (found : List Text) : Prop where
  plain : plainFrom start (markup ++ rest) = shown ++ plainFrom goal rest
  tags : tagsFrom start (markup ++ rest) = found ++ tagsFrom goal rest

theorem Over.nil (rest : Text) (mode : Mode) : Over rest mode [] mode [] [] := ⟨rfl, rfl⟩

/-- **Parts follow each other.**  Two pieces of markup are read one after the other, the first one
in view of the second. -/
theorem Over.append (h : Over (more ++ rest) start markup mid shown found)
    (hmore : Over rest mid more goal others finds) :
    Over rest start (markup ++ more) goal (shown ++ others) (found ++ finds) where
  plain := by rw [List.append_assoc, h.plain, hmore.plain, List.append_assoc]
  tags := by rw [List.append_assoc, h.tags, hmore.tags, List.append_assoc]

/-- Backslashes are kept back. -/
theorem over_backslashes (rest : Text) (slashes count : Nat) :
    Over rest (.text slashes) (backslashes count) (.text (slashes + count)) [] [] := by
  induction count generalizing slashes with
  | zero => exact Over.nil rest _
  | succ count ih =>
      have hnext := ih (slashes + 1)
      rw [show slashes + 1 + count = slashes + (count + 1) from by omega] at hnext
      exact ⟨hnext.plain, hnext.tags⟩

/-- The step of a reading that takes pieces from the front of markup. -/
theorem Over.of_read {front : Text} {pieces : List Piece}
    (hread : readFrom start (front ++ (markup ++ rest)) = pieces ++ readFrom mid (markup ++ rest))
    (h : Over rest mid markup goal shown found) :
    Over rest start (front ++ markup) goal (pieces.flatMap Piece.shown ++ shown)
      (pieces.filterMap Piece.tag? ++ found) where
  plain := by
    have hplain := h.plain
    rw [plainFrom] at hplain
    rw [plainFrom, List.append_assoc, hread, List.flatMap_append, hplain, List.append_assoc]
  tags := by
    have htags := h.tags
    rw [tagsFrom] at htags
    rw [tagsFrom, List.append_assoc, hread, List.filterMap_append, htags, List.append_assoc]

/-- Something that is no backslash and begins no tag is shown after the backslashes before it. -/
theorem over_cons (slashes : Nat) {p : CodePoint} (hp : p ≠ .char '\\')
    (ho : opensTag (p :: (markup ++ rest)) = false)
    (h : Over rest (.text 0) markup goal shown found) :
    Over rest (.text slashes) (p :: markup) goal (backslashes slashes ++ p :: shown) found := by
  have hread : readFrom (.text slashes) ([p] ++ (markup ++ rest)) =
      [.text (backslashes slashes ++ [p])] ++ readFrom (.text 0) (markup ++ rest) := by
    rw [List.singleton_append, readFrom]
    · simp [ho]
    · exact fun heq => hp heq
  simpa [Piece.shown, Piece.tag?, List.filterMap_cons] using h.of_read hread

/-- In a bracket group that is text, everything is shown up to the closing bracket. -/
theorem over_group_cons {p : CodePoint}
    (h : Over rest (if p = .char ']' then .text 0 else .group) markup goal shown found) :
    Over rest .group (p :: markup) goal (p :: shown) found := by
  have hread : readFrom .group ([p] ++ (markup ++ rest)) =
      [.text [p]] ++ readFrom (if p = .char ']' then .text 0 else .group) (markup ++ rest) := by
    rw [List.singleton_append, readFrom, List.singleton_append]
  exact h.of_read hread

/-- A bracket group that an odd number of backslashes stand before is text. -/
theorem over_escaped (hodd : slashes % 2 = 1)
    (ho : opensTag (.char '[' :: (markup ++ rest)) = true)
    (h : Over rest .group markup goal shown found) :
    Over rest (.text slashes) (.char '[' :: markup) goal
      (backslashes (slashes / 2) ++ .char '[' :: shown) found := by
  have hread : readFrom (.text slashes) ([.char '['] ++ (markup ++ rest)) =
      [.text (backslashes (slashes / 2)), .text [.char '[']] ++
        readFrom .group (markup ++ rest) := by
    rw [List.singleton_append, readFrom]
    · simp [ho, hodd]
    · decide
  simpa [Piece.shown, Piece.tag?, List.filterMap_cons] using h.of_read hread

/-- A bracket group that an even number of backslashes stand before is a tag. -/
theorem over_tagged (heven : slashes % 2 = 0)
    (ho : opensTag (.char '[' :: (markup ++ rest)) = true)
    (h : Over rest (.tag []) markup goal shown found) :
    Over rest (.text slashes) (.char '[' :: markup) goal
      (backslashes (slashes / 2) ++ shown) found := by
  have hread : readFrom (.text slashes) ([.char '['] ++ (markup ++ rest)) =
      [.text (backslashes (slashes / 2))] ++ readFrom (.tag []) (markup ++ rest) := by
    rw [List.singleton_append, readFrom]
    · simp [ho, heven]
    · decide
  simpa [Piece.shown, Piece.tag?, List.filterMap_cons] using h.of_read hread

/-- A tag goes on to its closing bracket. -/
theorem over_content {content : Text} (h : ∀ p ∈ content, p ≠ .char ']') (rest reversed : Text) :
    Over rest (.tag reversed) (content ++ [.char ']'])
      (.text 0) [] [reversed.reverse ++ content] := by
  induction content generalizing reversed with
  | nil =>
      have hread : readFrom (.tag reversed) ([.char ']'] ++ ([] ++ rest)) =
          [.tag reversed.reverse] ++ readFrom (.text 0) ([] ++ rest) := by
        rw [List.singleton_append, readFrom, if_pos rfl, List.singleton_append]
      simpa [Piece.shown, Piece.tag?] using (Over.nil rest _).of_read hread
  | cons p content ih =>
      rw [List.forall_mem_cons] at h
      have hread : readFrom (.tag reversed) ([p] ++ ((content ++ [.char ']']) ++ rest)) =
          [] ++ readFrom (.tag (p :: reversed)) ((content ++ [.char ']']) ++ rest) := by
        rw [List.singleton_append, readFrom, if_neg h.1, List.nil_append]
      simpa using (ih h.2 (p :: reversed)).of_read hread

/-! ## Where tags begin -/

/-- Only a bracket opens a tag. -/
theorem opensTag_of_ne {p : CodePoint} (hp : p ≠ .char '[') (rest : Text) :
    opensTag (p :: rest) = false := by
  unfold opensTag
  split
  · rename_i heq
    exact absurd (List.cons.inj heq).1 hp
  · rfl

/-- What opens a tag is a bracket. -/
theorem eq_bracket_of_opensTag {p : CodePoint} (h : opensTag (p :: rest) = true) :
    p = .char '[' := by
  by_cases hp : p = .char '['
  · exact hp
  · rw [opensTag_of_ne hp] at h
    cases h

/-- A bracket opens a tag if a tag can begin so and is closed. -/
theorem opensTag_bracket (p : CodePoint) (rest : Text) :
    opensTag (.char '[' :: p :: rest) = (beginsTag p && closes rest) := rfl

/-- A tag is closed. -/
theorem closes_of_opensTag (h : opensTag (.char '[' :: markup) = true) : closes markup = true := by
  cases markup with
  | nil => cases h
  | cons p rest =>
      rw [opensTag_bracket, Bool.and_eq_true] at h
      obtain ⟨hp, hrest⟩ := h
      have hne : p ≠ .char '[' := by
        rintro rfl
        cases hp
      simp [closes, hne, hrest]

/-- What does not go on to a closing bracket does not make a bracket before it begin a tag. -/
theorem opensTag_of_not_closes (h : closes rest = false) :
    opensTag (.char '[' :: rest) = false := by
  cases hopens : opensTag (.char '[' :: rest) with
  | false => rfl
  | true =>
      rw [closes_of_opensTag hopens] at h
      cases h

/-- A backslash makes no difference to whether a tag is closed. -/
theorem closes_backslash (rest : Text) : closes (.char '\\' :: rest) = closes rest := by
  have hne : (CodePoint.char '\\' != .char '[') = true := by decide
  simp [closes, hne]

/-- Backslashes do not matter for what is closed. -/
theorem closes_backslashes (slashes : Nat) (rest : Text) :
    closes (backslashes slashes ++ rest) = closes rest := by
  induction slashes with
  | zero => rfl
  | succ slashes ih => exact (closes_backslash _).trans ih

/-- An escaped text closes what the text closes. -/
theorem closes_escapeTags (h : closes rest = false) (inTag : Bool) (slashes : Nat) (text : Text) :
    closes (escapeTags inTag slashes text ++ rest) = closes text := by
  fun_induction escapeTags inTag slashes text with
  | case1 inTag slashes =>
      rw [← backslashes, closes_backslashes, h]
      rfl
  | case2 slashes p text ih => simp [closes, ih]
  | case3 slashes text ih => exact ih.trans (closes_backslash text).symm
  | case4 slashes p text hp hopens ih =>
      rw [← backslashes, List.append_assoc, closes_backslashes, List.cons_append,
        closes, ih, closes]
  | case5 slashes p text hp hopens ih =>
      rw [← backslashes, List.append_assoc, closes_backslashes, List.cons_append,
        closes, ih, closes]

/-- After backslashes, an escaped text begins with one. -/
theorem escapeTags_succ (slashes : Nat) (text : Text) :
    ∃ out, escapeTags false (slashes + 1) text = .char '\\' :: out := by
  induction text generalizing slashes with
  | nil => exact ⟨_, rfl⟩
  | cons p text ih =>
      by_cases hp : p = .char '\\'
      · subst hp
        exact ih (slashes + 1)
      · rw [escapeTags]
        · split
          · exact ⟨_, rfl⟩
          · exact ⟨_, rfl⟩
        · exact fun heq => hp heq

/-- Within a tag, escaping leaves the bracket before it the beginning of a tag. -/
theorem opensTag_escapeTags_true (h : closes rest = false) {text : Text}
    (ho : opensTag (.char '[' :: text) = true) :
    opensTag (.char '[' :: (escapeTags true 0 text ++ rest)) = true := by
  cases text with
  | nil => cases ho
  | cons p text =>
      rw [opensTag_bracket] at ho
      rw [escapeTags, List.cons_append, opensTag_bracket, closes_escapeTags h]
      exact ho

/-- What begins no tag begins none either before the escaped text. -/
theorem opensTag_escapeTags_false (h : closes rest = false) {p : CodePoint} {text : Text}
    (ho : opensTag (p :: text) = false) :
    opensTag (p :: (escapeTags false 0 text ++ rest)) = false := by
  by_cases hp : p = .char '['
  · subst hp
    cases text with
    | nil => exact opensTag_of_not_closes h
    | cons q text =>
        by_cases hq : q = .char '\\'
        · subst hq
          obtain ⟨out, hout⟩ := escapeTags_succ 0 text
          rw [escapeTags, hout]
          rfl
        · rw [escapeTags]
          · split
            · rfl
            · rw [opensTag_bracket] at ho
              exact (congrArg _ (closes_escapeTags h false 0 text)).trans ho
          · exact fun heq => hq heq
  · exact opensTag_of_ne hp _

/-! ## What is kept back at the end -/

/-- A text is a stem and the backslashes at its end. -/
structure Ends (text stem : Text) (count : Nat) : Prop where
  eq : text = stem ++ backslashes count
  last : stem.getLast? ≠ some (.char '\\')

/-- The backslashes at the end of a text go no further back. -/
theorem Ends.ne_of_reverse {text stem before : Text} {count : Nat} {p : CodePoint}
    (h : Ends text stem count) (hstem : stem.reverse = p :: before) : p ≠ .char '\\' := by
  intro hp
  apply h.last
  rw [← List.head?_reverse, hstem, hp]
  rfl

/-- The last code point of a text with others in front of it. -/
theorem getLast?_append_cons (before : Text) (p : CodePoint) (text : Text) :
    (before ++ p :: text).getLast? = some (text.getLast?.getD p) := by
  simp [List.getLast?_append, List.getLast?_cons]

/-- A text that goes on to something else than backslashes ends as that does. -/
theorem Ends.append_cons {text stem : Text} {count : Nat} (h : Ends text stem count) {p : CodePoint}
    (hp : p ≠ .char '\\' ∨ stem ≠ []) (before : Text) :
    Ends (before ++ p :: text) (before ++ p :: stem) count where
  eq := by rw [h.eq, List.append_assoc, List.cons_append]
  last := by
    rw [getLast?_append_cons]
    cases hlast : stem.getLast? with
    | none =>
        have hnil : stem = [] := List.getLast?_eq_none_iff.1 hlast
        rw [Option.getD_none, Ne, Option.some.injEq]
        exact hp.elim id fun hne => absurd hnil hne
    | some q =>
        rw [Option.getD_some, ← hlast]
        exact h.last

/-- How a text is escaped from a state on: up to the backslashes at its end, which stay. -/
structure Escaped (inTag : Bool) (slashes : Nat) (text stem kept : Text) (count : Nat) : Prop where
  source : Ends (if inTag then text else backslashes slashes ++ text) stem count
  out : escapeTags inTag slashes text = kept ++ backslashes count
  last : kept.getLast? = stem.getLast?
  reading : ∀ rest, closes rest = false →
    Over (backslashes count ++ rest) (if inTag then .group else .text 0) kept (.text 0) stem []

variable {stem kept text : Text} {count : Nat} {inTag : Bool} {p : CodePoint}

/-- Nothing has to be escaped in nothing. -/
theorem escaped_nil (slashes : Nat) : Escaped false slashes [] [] [] slashes where
  source := ⟨by simp, by simp⟩
  out := rfl
  last := rfl
  reading := fun _ _ => Over.nil _ _

/-- Backslashes are collected until something else comes. -/
theorem Escaped.backslash (h : Escaped false (slashes + 1) text stem kept count) :
    Escaped false slashes (.char '\\' :: text) stem kept count where
  source := by
    have hsource : backslashes (slashes + 1) ++ text =
        backslashes slashes ++ .char '\\' :: text := by
      simp [backslashes, List.replicate_succ']
    have hends := h.source
    simp only [Bool.false_eq_true, if_false, hsource] at hends
    exact hends
  out := h.out
  last := h.last
  reading := h.reading

/-- Within a bracket group, everything stays up to its end. -/
theorem Escaped.group (h : Escaped (p != .char ']') 0 text stem kept count)
    (hp : p ≠ .char ']' → closes text = true) :
    Escaped true 0 (p :: text) (p :: stem) (p :: kept) count where
  source := by
    have hends : Ends text stem count := by
      have hsource := h.source
      cases hq : p != .char ']' <;> simpa [hq, backslashes] using hsource
    have hne : p ≠ .char '\\' ∨ stem ≠ [] := by
      by_cases hb : p = .char '\\'
      · right
        rintro rfl
        have hcloses := hp (by rw [hb]; decide)
        rw [hends.eq, List.nil_append, ← List.append_nil (backslashes count),
          closes_backslashes] at hcloses
        cases hcloses
      · exact .inl hb
    exact hends.append_cons hne []
  out := by rw [escapeTags, h.out, List.cons_append]
  last := by rw [List.getLast?_cons, List.getLast?_cons, h.last]
  reading := by
    intro rest hrest
    apply over_group_cons
    have hover := h.reading rest hrest
    by_cases hq : p = .char ']' <;> simpa [hq] using hover

/-- A tag has its backslashes doubled and one more before it, by which it is text. -/
theorem Escaped.tag (h : Escaped true 0 text stem kept count)
    (ho : opensTag (.char '[' :: text) = true) (slashes : Nat) :
    Escaped false slashes (.char '[' :: text) (backslashes slashes ++ .char '[' :: stem)
      (backslashes (2 * slashes + 1) ++ .char '[' :: kept) count where
  source := h.source.append_cons (.inl (by decide)) _
  out := by
    rw [escapeTags]
    · simp [ho, h.out, backslashes]
    · decide
  last := by rw [getLast?_append_cons, getLast?_append_cons, h.last]
  reading := by
    intro rest hrest
    have hopens := opensTag_escapeTags_true hrest ho
    rw [h.out, List.append_assoc] at hopens
    have hodd : (0 + (2 * slashes + 1)) % 2 = 1 := by omega
    have hgroup := over_escaped hodd hopens (h.reading rest hrest)
    rw [show (0 + (2 * slashes + 1)) / 2 = slashes from by omega] at hgroup
    exact (over_backslashes _ 0 (2 * slashes + 1)).append hgroup

/-- Anything else stays as it is. -/
theorem Escaped.other (h : Escaped false 0 text stem kept count) (hp : p ≠ .char '\\')
    (ho : opensTag (p :: text) = false) (slashes : Nat) :
    Escaped false slashes (p :: text) (backslashes slashes ++ p :: stem)
      (backslashes slashes ++ p :: kept) count where
  source := h.source.append_cons (.inl hp) _
  out := by
    rw [escapeTags]
    · simp [ho, h.out, backslashes]
    · exact fun heq => hp heq
  last := by rw [getLast?_append_cons, getLast?_append_cons, h.last]
  reading := by
    intro rest hrest
    have hopens := opensTag_escapeTags_false hrest ho
    rw [h.out, List.append_assoc] at hopens
    have hshown := over_cons (0 + slashes) hp hopens (h.reading rest hrest)
    rw [Nat.zero_add] at hshown
    exact (Nat.zero_add slashes ▸ over_backslashes _ 0 slashes).append hshown

/-- Every text is escaped in that way. -/
theorem exists_escaped (inTag : Bool) (slashes : Nat) (text : Text)
    (h : inTag = true → slashes = 0 ∧ closes text = true) :
    ∃ stem kept count, Escaped inTag slashes text stem kept count := by
  fun_induction escapeTags inTag slashes text with
  | case1 inTag slashes =>
      cases inTag with
      | true => cases (h rfl).2
      | false => exact ⟨[], [], slashes, escaped_nil slashes⟩
  | case2 slashes p text ih =>
      obtain ⟨rfl, hcloses⟩ := h rfl
      have hrest : p ≠ .char ']' → closes text = true := by
        intro hp
        simp [closes, hp] at hcloses
        exact hcloses.2
      obtain ⟨stem, kept, count, hescaped⟩ := ih fun hp => ⟨rfl, hrest (by simpa using hp)⟩
      exact ⟨_, _, count, hescaped.group hrest⟩
  | case3 slashes text ih =>
      obtain ⟨stem, kept, count, hescaped⟩ := ih nofun
      exact ⟨stem, kept, count, hescaped.backslash⟩
  | case4 slashes p text hp hopens ih =>
      obtain rfl := eq_bracket_of_opensTag hopens
      obtain ⟨stem, kept, count, hescaped⟩ := ih fun _ => ⟨rfl, closes_of_opensTag hopens⟩
      exact ⟨_, _, count, hescaped.tag hopens slashes⟩
  | case5 slashes p text hp hopens ih =>
      obtain ⟨stem, kept, count, hescaped⟩ := ih nofun
      exact ⟨_, _, count, hescaped.other hp (by simpa using hopens) slashes⟩

/-- How many backslashes an escaped text ends in: as many as the text, but never a single one. -/
def guarded (count : Nat) : Nat := if count = 1 then 2 else count

/-- A backslash more may be put at the end, and none is taken away. -/
theorem le_guarded (count : Nat) : count ≤ guarded count := by
  unfold guarded
  split <;> omega

/-- Only the backslashes at the end are guarded. -/
theorem guardEnd_eq (h : Ends text stem count) :
    guardEnd text = stem ++ backslashes (guarded count) := by
  have hreverse : text.reverse = backslashes count ++ stem.reverse := by
    rw [h.eq, List.reverse_append, backslashes, List.reverse_replicate]
  unfold guardEnd
  rw [hreverse, h.eq]
  rcases count with _ | _ | count
  · cases hstem : stem.reverse with
    | nil =>
        rw [List.reverse_eq_nil_iff.1 hstem]
        rfl
    | cons q before =>
        have hq := h.ne_of_reverse hstem
        simp only [backslashes, List.replicate_zero, List.nil_append, List.append_nil, guarded]
        split <;> simp_all
  · cases hstem : stem.reverse with
    | nil => simp [backslashes, guarded]
    | cons q before =>
        have hq := h.ne_of_reverse hstem
        simp [backslashes, guarded, hq]
  · simp [backslashes, guarded, List.replicate_succ]

/-- When it is escaped, a text shows its stem and keeps back so many backslashes for what
follows. -/
def KeepsBack (text stem : Text) (slashes : Nat) : Prop :=
  ∀ rest, closes rest = false → Over rest (.text 0) (escape text) (.text slashes) stem []

/-- **What an escaped text shows.**  It keeps back the backslashes at its end. -/
theorem exists_keepsBack (text : Text) :
    ∃ stem count, Ends text stem count ∧ KeepsBack text stem (guarded count) := by
  obtain ⟨stem, kept, count, h⟩ := exists_escaped false 0 text nofun
  refine ⟨stem, count, h.source, fun rest hrest => ?_⟩
  have hkept : Ends (escapeTags false 0 text) kept count :=
    ⟨h.out, fun hlast => h.source.last (h.last.symm.trans hlast)⟩
  have hout : escape text = kept ++ backslashes (guarded count) := guardEnd_eq hkept
  have hcloses : closes (backslashes (guarded count - count) ++ rest) = false :=
    (closes_backslashes _ _).trans hrest
  have hover := h.reading _ hcloses
  rw [← List.append_assoc, backslashes, backslashes, List.replicate_append_replicate,
    Nat.add_sub_cancel' (le_guarded count), ← backslashes] at hover
  have hend := over_backslashes rest 0 (guarded count)
  rw [Nat.zero_add] at hend
  rw [hout, ← List.append_nil stem, ← List.append_nil ([] : List Text)]
  exact hover.append hend

end Markup

end Marginalia
