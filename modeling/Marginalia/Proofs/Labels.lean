import Mathlib.Data.List.Forall2
import Marginalia.Outline
import Marginalia.Proofs.Escapes

/-!
# What the labels of an outline show

The labels of an outline are markup around a path, a tag or the text of a note.  A label shows its
data if its tags are nested and the text that remains is that of the data (`Markup.Shows`).

What is escaped keeps its backslashes for what follows (`Markup.exists_keepsBack`), so that it
matters how many a text ends in.  Within tags there may be at most one (`Markup.shows_styled_iff`),
and before plain text there may be any number but one (`Markup.shows_escape_iff`).  A color is not
escaped at all and has to be the name of a tag.  `Outline.tells_iff` says that the labels of an
outline show their data exactly if all this is so; `Outline.labels_change` has three data that are
changed.
-/

namespace Marginalia

namespace Markup

variable {rest markup text stem content style : Text} {opened found : List Text}
  {slashes count : Nat}

/-! ## Tags that are nested -/

/-- The tags that are open after another one, last one first; a closing tag needs an open one. -/
def follow (opened : List Text) : Text → Option (List Text)
  | [.char '/'] => opened.tail?
  | .char '/' :: name => if opened.contains name then some (opened.erase name) else none
  | name => some (name :: opened)

/-- The tags that are open after a row of others. -/
def nest (opened : List Text) (tags : List Text) : Option (List Text) := tags.foldlM follow opened

/-- Every closing tag closes one that is open, and none is left open. -/
def Balanced (markup : Text) : Prop := nest [] (tags markup) = some []

instance (markup : Text) : Decidable (Balanced markup) := inferInstanceAs (Decidable (_ = _))

/-- Markup has its tags in order and shows a text. -/
structure Shows (markup text : Text) : Prop where
  balanced : Balanced markup
  plain : plain markup = text

/-- Tags are nested one after the other. -/
theorem nest_append (opened tags more : List Text) :
    nest opened (tags ++ more) = (nest opened tags).bind fun opened => nest opened more := by
  rw [nest, List.foldlM_append]
  rfl

/-- A text that can stand between the brackets of a tag. -/
def IsTag (content : Text) : Prop :=
  content.head?.any beginsTag = true ∧ ∀ p ∈ content, p ≠ .char '[' ∧ p ≠ .char ']'

instance (content : Text) : Decidable (IsTag content) := inferInstanceAs (Decidable (_ ∧ _))

/-- A tag that opens something. -/
def IsOpening (style : Text) : Prop := IsTag style ∧ style.head? ≠ some (.char '/')

instance (style : Text) : Decidable (IsOpening style) := inferInstanceAs (Decidable (_ ∧ _))

/-- An opening tag opens its style. -/
theorem follow_opening (h : IsOpening style) (opened : List Text) :
    follow opened style = some (style :: opened) := by
  obtain ⟨-, hhead⟩ := h
  unfold follow
  split
  · simp at hhead
  · simp at hhead
  · rfl

/-- A tag that has just been opened can be closed. -/
theorem follow_closing (hne : style ≠ []) (opened : List Text) :
    follow (style :: opened) (.char '/' :: style) = some opened := by
  unfold follow
  split
  · rename_i heq
    simp at heq
    exact absurd heq hne
  · rename_i heq
    obtain rfl := (List.cons.inj heq).2
    simp
  · rename_i hslash
    exact absurd rfl (hslash style)

/-- Where nothing is open, nothing can be closed. -/
theorem follow_nil_closing (style : Text) : follow [] (.char '/' :: style) = none := by
  unfold follow
  split <;> simp_all

/-! ## Tags and what stands between them -/

/-- A bracket is closed before any other one begins. -/
theorem closes_of_forall (h : ∀ p ∈ content, p ≠ .char '[' ∧ p ≠ .char ']') (rest : Text) :
    closes (content ++ .char ']' :: rest) = true := by
  induction content with
  | nil => rfl
  | cons p content ih =>
      rw [List.forall_mem_cons] at h
      simp [closes, h.1, ih h.2]

/-- What a tag consists of makes a tag in brackets. -/
theorem IsTag.opensTag (h : IsTag content) (rest : Text) :
    opensTag (.char '[' :: ((content ++ [.char ']']) ++ rest)) = true := by
  obtain ⟨hbegins, hbrackets⟩ := h
  cases content with
  | nil => cases hbegins
  | cons p content =>
      have hcloses := closes_of_forall (fun q hq => hbrackets q (List.mem_cons_of_mem _ hq)) rest
      simp only [List.head?_cons, Option.any_some] at hbegins
      simpa [opensTag_bracket, hbegins] using hcloses

/-- A bracket group that is text is shown up to its end. -/
theorem over_groupContent (h : ∀ p ∈ content, p ≠ .char '[' ∧ p ≠ .char ']') (rest : Text) :
    Over rest .group (content ++ [.char ']']) (.text 0) (content ++ [.char ']']) [] := by
  induction content with
  | nil => exact over_group_cons (by simpa using Over.nil rest (.text 0))
  | cons p content ih =>
      rw [List.forall_mem_cons] at h
      apply over_group_cons
      simpa [h.1] using ih h.2

/-- What is shown of a tag after backslashes: half of them, and the tag if their number is odd. -/
def shownTag (slashes : Nat) (content : Text) : Text :=
  backslashes (slashes / 2) ++ if slashes % 2 = 0 then [] else .char '[' :: content ++ [.char ']']

/-- The tags that are found there. -/
def foundTag (slashes : Nat) (content : Text) : List Text :=
  if slashes % 2 = 0 then [content] else []

/-- A tag is read as a tag, unless a backslash before it takes that away. -/
theorem over_tag (h : IsTag content) (rest : Text) (slashes : Nat) :
    Over rest (.text slashes) (.char '[' :: (content ++ [.char ']'])) (.text 0)
      (shownTag slashes content) (foundTag slashes content) := by
  unfold shownTag foundTag
  by_cases heven : slashes % 2 = 0
  · have hcontent := over_content (fun p hp => (h.2 p hp).2) rest []
    simpa [heven] using over_tagged heven (h.opensTag rest) hcontent
  · have hgroup := over_groupContent h.2 rest
    simpa [heven] using over_escaped (by omega) (h.opensTag rest) hgroup

/-- Plain text without brackets and backslashes stays as it is. -/
theorem over_letters (h : ∀ p ∈ text, p ≠ .char '[' ∧ p ≠ .char '\\') (rest : Text) :
    Over rest (.text 0) text (.text 0) text [] := by
  induction text with
  | nil => exact Over.nil rest _
  | cons p text ih =>
      rw [List.forall_mem_cons] at h
      exact over_cons 0 h.1.2 (opensTag_of_ne h.1.1 _) (ih h.2)

/-- So does text without opening brackets after backslashes, if it does not end in one. -/
theorem over_noBracket {p : CodePoint} (hp : p ≠ .char '[' ∧ p ≠ .char '\\')
    (h : ∀ q ∈ text, q ≠ .char '[') (rest : Text) (slashes : Nat) :
    Over rest (.text slashes) (text ++ [p]) (.text 0)
      (backslashes slashes ++ (text ++ [p])) [] := by
  induction text generalizing slashes with
  | nil => exact over_cons slashes hp.2 (opensTag_of_ne hp.1 _) (Over.nil rest _)
  | cons q text ih =>
      rw [List.forall_mem_cons] at h
      by_cases hq : q = .char '\\'
      · subst hq
        have hnext := (over_backslashes ((text ++ [p]) ++ rest) slashes 1).append
          (ih h.2 (slashes + 1))
        simpa [backslashes, List.replicate_succ'] using hnext
      · exact over_cons slashes hq (opensTag_of_ne h.1 _) (by simpa [backslashes] using ih h.2 0)

/-- A reading to the end shows the backslashes that are kept back. -/
theorem read_of_over {shown : Text} (h : Over [] (.text 0) markup (.text slashes) shown found) :
    plain markup = shown ++ backslashes slashes ∧ tags markup = found := by
  have hplain := h.plain
  have htags := h.tags
  rw [List.append_nil] at hplain htags
  constructor
  · rw [plain_eq, hplain]
    simp [plainFrom, readFrom, Piece.shown]
  · rw [tags_eq, htags]
    simp [tagsFrom, readFrom, Piece.tag?]

/-- A reading that keeps nothing back goes on as if from the beginning. -/
theorem read_front {shown : Text} (h : Over rest (.text 0) markup (.text 0) shown found) :
    plain (markup ++ rest) = shown ++ plain rest ∧ tags (markup ++ rest) = found ++ tags rest :=
  ⟨h.plain, h.tags⟩

/-! ## Escaped texts in labels -/

/-- How many backslashes stand at the end of a text. -/
def trailing (text : Text) : Nat := (text.reverse.takeWhile (· = .char '\\')).length

/-- How many backslashes a text ends with. -/
theorem Ends.trailing_eq (h : Ends text stem count) : trailing text = count := by
  have hstem : stem.reverse.takeWhile (· = .char '\\') = [] := by
    cases hrev : stem.reverse with
    | nil => rfl
    | cons p before =>
        simp [h.ne_of_reverse hrev]
  have hall : ∀ p ∈ backslashes count, decide (p = .char '\\') = true := by
    intro p hp
    simpa using List.eq_of_mem_replicate hp
  rw [trailing, h.eq, List.reverse_append, backslashes, List.reverse_replicate, ← backslashes,
    List.takeWhile_append_of_pos hall, hstem, List.append_nil, backslashes, List.length_replicate]

/-- The backslashes at the end of a text are no brackets. -/
theorem Ends.count_eq (h : Ends text stem count) :
    text.count (.char '[') = stem.count (.char '[') := by
  rw [h.eq, List.count_append, backslashes, List.count_replicate]
  rfl

/-- An opening tag that follows no backslash is read as one. -/
theorem over_opening (h : IsTag style) (rest : Text) :
    Over rest (.text 0) (opening style) (.text 0) [] [style] := over_tag h rest 0

/-- The style of a closing tag has no brackets. -/
theorem isTag_closing (h : ∀ p ∈ style, p ≠ .char '[' ∧ p ≠ .char ']') :
    IsTag (.char '/' :: style) := by
  refine ⟨rfl, ?_⟩
  rw [List.forall_mem_cons]
  exact ⟨by decide, h⟩

/-- An escaped text between the brackets of a style: the closing tag is one only after an even
number of backslashes. -/
theorem over_between {shown : Text}
    (hopen : ∀ rest, Over rest (.text 0) (opening style) (.text 0) shown found)
    (hover : KeepsBack text stem slashes)
    (hstyle : ∀ p ∈ style, p ≠ .char '[' ∧ p ≠ .char ']') (rest : Text) :
    Over rest (.text 0) (styled style (escape text)) (.text 0)
      (shown ++ (stem ++ shownTag slashes (.char '/' :: style)))
      (found ++ foundTag slashes (.char '/' :: style)) := by
  have htext := hover (closing style ++ rest) rfl
  have hclose : Over rest (.text slashes) (closing style) (.text 0) _ _ :=
    over_tag (isTag_closing hstyle) rest slashes
  have hall := ((hopen _).append htext).append hclose
  rw [List.append_assoc shown, List.append_nil] at hall
  exact hall

/-- An escaped text in a style that opens a tag. -/
theorem over_styled (hstyle : IsTag style) (hover : KeepsBack text stem slashes) (rest : Text) :
    Over rest (.text 0) (styled style (escape text)) (.text 0)
      (stem ++ shownTag slashes (.char '/' :: style))
      (style :: foundTag slashes (.char '/' :: style)) :=
  over_between (over_opening hstyle) hover hstyle.2 rest

/-- How many backslashes are shown before a tag. -/
theorem guarded_half_eq_iff (count : Nat) :
    guarded count % 2 = 0 ∧ guarded count / 2 = count ↔ count ≤ 1 := by
  unfold guarded
  split <;> omega

/-- A single backslash at the end is the only number that is guarded otherwise. -/
theorem guarded_eq_iff (count : Nat) : guarded count = count ↔ count ≠ 1 := by
  unfold guarded
  split <;> omega

/-- What is left open after an escaped text in a style. -/
theorem nest_styled (hstyle : IsOpening style) (slashes : Nat) (opened : List Text) :
    nest opened (style :: foundTag slashes (.char '/' :: style)) =
      some (if slashes % 2 = 0 then opened else style :: opened) := by
  have hne : style ≠ [] := by
    rintro rfl
    cases hstyle.1.1
  unfold nest foundTag
  split
  · simp [follow_opening hstyle, follow_closing hne]
  · simp [follow_opening hstyle]

@[simp]
theorem backslashes_zero : backslashes 0 = [] := rfl

/-- Within tags, an escaped text is shown if it ends in at most one backslash. -/
theorem shows_styled_iff (hstyle : IsOpening style) (text : Text) :
    Shows (styled style (escape text)) text ↔ trailing text ≤ 1 := by
  obtain ⟨stem, count, hends, hover⟩ := exists_keepsBack text
  obtain ⟨hplain, htags⟩ := read_of_over (over_styled hstyle.1 hover [])
  have hnest := nest_styled hstyle (guarded count) []
  rw [← htags] at hnest
  rw [hends.trailing_eq, ← guarded_half_eq_iff]
  constructor
  · intro hshows
    have hbalanced := hshows.balanced
    rw [Balanced, hnest] at hbalanced
    have heven : guarded count % 2 = 0 := by
      by_contra hodd
      simp [hodd] at hbalanced
    refine ⟨heven, ?_⟩
    have heq := hplain.symm.trans (hshows.plain.trans hends.eq)
    simpa [shownTag, heven, backslashes] using heq
  · rintro ⟨heven, hhalf⟩
    refine ⟨?_, ?_⟩
    · rw [Balanced, hnest, if_pos heven]
    · rw [hplain, hends.eq]
      simp [shownTag, heven, hhalf, backslashes]

/-- Before the end, an escaped text is shown if it does not end in a single backslash. -/
theorem shows_escape_iff (text : Text) : Shows (escape text) text ↔ trailing text ≠ 1 := by
  obtain ⟨stem, count, hends, hover⟩ := exists_keepsBack text
  obtain ⟨hplain, htags⟩ := read_of_over (hover [] rfl)
  rw [hends.trailing_eq, ← guarded_eq_iff]
  constructor
  · intro hshows
    have heq := hplain.symm.trans (hshows.plain.trans hends.eq)
    simpa [backslashes] using heq
  · intro hsame
    refine ⟨by rw [Balanced, htags]; rfl, ?_⟩
    rw [hplain, hsame, hends.eq]

/-- Plain text in a style is shown. -/
theorem over_styledLetters (h : ∀ p ∈ text, p ≠ .char '[' ∧ p ≠ .char '\\') (hstyle : IsTag style)
    (rest : Text) :
    Over rest (.text 0) (styled style text) (.text 0) text [style, .char '/' :: style] := by
  have hopen := over_opening hstyle (text ++ (closing style ++ rest))
  have htext := over_letters h (closing style ++ rest)
  have hclose : Over rest (.text 0) (closing style) (.text 0) _ _ :=
    over_tag (isTag_closing hstyle.2) rest 0
  simpa [shownTag, foundTag, backslashes, styled] using (hopen.append htext).append hclose

/-- A space after backslashes. -/
theorem over_space (rest : Text) (slashes : Nat) :
    Over rest (.text slashes) (" " : Text) (.text 0) (backslashes slashes ++ (" " : Text)) [] :=
  over_cons slashes (by decide) rfl (Over.nil rest (.text 0))

/-- Backslashes are told from a space that follows them. -/
theorem backslashes_space_inj {a b : Nat} {x y : Text} :
    backslashes a ++ ((" " : Text) ++ x) = backslashes b ++ ((" " : Text) ++ y) ↔
      a = b ∧ x = y := by
  induction a generalizing b with
  | zero =>
      cases b with
      | zero => simp [backslashes]
      | succ b => simp [backslashes, List.replicate_succ, Text.ofString]
  | succ a ih =>
      cases b with
      | zero => simp [backslashes, List.replicate_succ, Text.ofString]
      | succ b => simpa [backslashes, List.replicate_succ] using ih

/-- Before a space, an escaped text is shown if it does not end in a single backslash. -/
theorem shows_counted_iff {number : Text} (h : ∀ p ∈ number, p ≠ .char '[' ∧ p ≠ .char '\\')
    (text : Text) :
    Shows (escape text ++ (" " : Text) ++ styled "dim" number) (text ++ (" " : Text) ++ number) ↔
      trailing text ≠ 1 := by
  obtain ⟨stem, count, hends, hover⟩ := exists_keepsBack text
  have htext := hover ((" " : Text) ++ styled "dim" number) rfl
  obtain ⟨hplain, htags⟩ := read_front (htext.append (over_space _ _))
  obtain ⟨hnumber, hdim⟩ := read_of_over (over_styledLetters h (by decide : IsTag "dim") [])
  have hbalanced : Balanced (escape text ++ (" " : Text) ++ styled "dim" number) := by
    rw [Balanced, htags, hdim]
    decide
  have hdata : plain (escape text ++ (" " : Text) ++ styled "dim" number) =
        text ++ (" " : Text) ++ number ↔ guarded count = count := by
    rw [hplain, hnumber, hends.eq]
    simp only [List.append_assoc, List.append_cancel_left_eq, backslashes_space_inj]
    simp [backslashes]
  rw [hends.trailing_eq, ← guarded_eq_iff, ← hdata]
  exact ⟨fun hshows => hshows.plain, fun hsame => ⟨hbalanced, hsame⟩⟩

/-! ## Labels of notes -/

/-- An escaped text, struck if it is done. -/
def marked (done : Bool) (text : Text) : Text :=
  if done then styled "strike" (escape text) else escape text

/-- A text that is done is shown just if it ends with at most one backslash, and another one just if
it does not end with exactly one. -/
theorem shows_marked_iff (done : Bool) (text : Text) :
    Shows (marked done text) text ↔ if done then trailing text ≤ 1 else trailing text ≠ 1 := by
  cases done with
  | true => simpa [marked] using shows_styled_iff (by decide) text
  | false => simpa [marked] using shows_escape_iff text

/-- A marked text closes no tag that stands before it, and shows no fewer brackets than the text
has. -/
theorem read_marked (done : Bool) (text : Text) :
    (∃ extra, ∀ opened, nest opened (tags (marked done text)) = some (extra ++ opened)) ∧
      text.count (.char '[') ≤ (plain (marked done text)).count (.char '[') := by
  obtain ⟨stem, count, hends, hover⟩ := exists_keepsBack text
  have hcount := hends.count_eq
  cases done with
  | true =>
      obtain ⟨hplain, htags⟩ := read_of_over (over_styled (by decide : IsTag "strike") hover [])
      refine ⟨⟨if guarded count % 2 = 0 then [] else ["strike"], fun opened => ?_⟩, ?_⟩
      · simp only [marked, if_true, htags, nest_styled (by decide : IsOpening "strike")]
        split <;> rfl
      · simp only [marked, if_true, hplain, hcount, List.append_assoc, List.count_append]
        omega
  | false =>
      obtain ⟨hplain, htags⟩ := read_of_over (hover [] rfl)
      refine ⟨⟨[], fun opened => ?_⟩, ?_⟩
      · simp only [marked, Bool.false_eq_true, if_false, htags]
        rfl
      · simp only [marked, Bool.false_eq_true, if_false, hplain, hcount, List.count_append]
        omega

/-- The label of a note: a place, a tag in a style, and a text. -/
def noted (place style tag : Text) (done : Bool) (text : Text) : Text :=
  styled "dim" place ++ (" " : Text) ++ styled style (escape tag) ++
    (" " : Text) ++ marked done text

variable {place tag : Text} {done : Bool}

/-- The reading of what stands before the tag. -/
theorem over_place (h : ∀ p ∈ place, p ≠ .char '[' ∧ p ≠ .char '\\') (rest : Text) :
    Over rest (.text 0) (styled "dim" place ++ (" " : Text)) (.text 0) (place ++ (" " : Text))
      ["dim", "/dim"] := by
  have hdim := over_styledLetters h (by decide : IsTag "dim") ((" " : Text) ++ rest)
  exact hdim.append (over_space rest 0)

/-- In the style of a tag, the label of a note shows its data if the tag ends in at most one
backslash and the text is shown. -/
theorem shows_noted_iff (hplace : ∀ p ∈ place, p ≠ .char '[' ∧ p ≠ .char '\\')
    (hstyle : IsOpening style) (tag : Text) (done : Bool) (text : Text) :
    Shows (noted place style tag done text)
        (place ++ (" " : Text) ++ tag ++ (" " : Text) ++ text) ↔
      trailing tag ≤ 1 ∧ Shows (marked done text) text := by
  obtain ⟨stem, count, hends, hover⟩ := exists_keepsBack tag
  obtain ⟨⟨extra, hextra⟩, -⟩ := read_marked done text
  have hmid := over_place hplace (styled style (escape tag) ++ ((" " : Text) ++ marked done text))
  have htag := over_styled hstyle.1 hover ((" " : Text) ++ marked done text)
  obtain ⟨hplain, htags⟩ := read_front ((hmid.append htag).append (over_space _ 0))
  have hnest : nest [] (tags (noted place style tag done text)) =
      some (extra ++ if guarded count % 2 = 0 then [] else [style]) := by
    have hdim : nest [] ["dim", "/dim"] = some [] := by decide
    rw [noted, htags, nest_append, nest_append, nest_append, hdim, Option.bind_some,
      nest_styled hstyle, Option.bind_some, ← hextra]
    rfl
  have hdata (heven : guarded count % 2 = 0) : plain (noted place style tag done text) =
        place ++ (" " : Text) ++ tag ++ (" " : Text) ++ text ↔
      guarded count / 2 = count ∧ plain (marked done text) = text := by
    rw [noted, hplain, hends.eq]
    simp only [shownTag, heven, if_true, List.append_nil, List.nil_append, List.append_assoc,
      List.append_cancel_left_eq, backslashes_zero, backslashes_space_inj]
  rw [hends.trailing_eq, ← guarded_half_eq_iff]
  constructor
  · intro hshows
    have hbalanced := hshows.balanced
    rw [Balanced, hnest] at hbalanced
    have heven : guarded count % 2 = 0 := by
      by_contra hodd
      simp [hodd] at hbalanced
    have hclosed : extra = [] := by simpa [heven] using hbalanced
    obtain ⟨hhalf, htext⟩ := (hdata heven).1 hshows.plain
    refine ⟨⟨heven, hhalf⟩, ?_, htext⟩
    rw [Balanced, hextra, hclosed]
    rfl
  · rintro ⟨⟨heven, hhalf⟩, hshows⟩
    have hclosed : extra = [] := by
      have hbalanced := hshows.balanced
      rw [Balanced, hextra] at hbalanced
      simpa using hbalanced
    refine ⟨?_, (hdata heven).2 ⟨hhalf, hshows.plain⟩⟩
    rw [Balanced, hnest, hclosed, if_pos heven]
    rfl

/-- The bracket group of a style that begins no tag is text. -/
theorem over_opening_text (hbegins : style.head?.any beginsTag = false)
    (hstyle : ∀ p ∈ style, p ≠ .char '[') (hne : style ≠ []) (rest : Text) :
    Over rest (.text 0) (opening style) (.text 0) (opening style) [] := by
  have hopens : opensTag (.char '[' :: ((style ++ [.char ']']) ++ rest)) = false := by
    cases style with
    | nil => exact absurd rfl hne
    | cons p style =>
        simp only [List.head?_cons, Option.any_some] at hbegins
        simp [opensTag_bracket, hbegins]
  exact over_cons 0 (by decide) hopens (over_noBracket (by decide) hstyle rest 0)

/-- A style without brackets that opens no tag is closed where nothing is open, or shown. -/
theorem isOpening_of_shows_noted (hplace : ∀ p ∈ place, p ≠ .char '[' ∧ p ≠ .char '\\')
    (hne : style ≠ []) (hstyle : ∀ p ∈ style, p ≠ .char '[' ∧ p ≠ .char ']')
    (h : Shows (noted place style tag done text)
      (place ++ (" " : Text) ++ tag ++ (" " : Text) ++ text)) : IsOpening style := by
  obtain ⟨stem, count, hends, hover⟩ := exists_keepsBack tag
  have hmid := over_place hplace (styled style (escape tag) ++ ((" " : Text) ++ marked done text))
  have hbalanced := h.balanced
  have hdim : nest [] ["dim", "/dim"] = some [] := by decide
  by_cases hbegins : style.head?.any beginsTag = true
  · refine ⟨⟨hbegins, hstyle⟩, fun hslash => ?_⟩
    obtain ⟨name, rfl⟩ := List.head?_eq_some_iff.1 hslash
    have htag := over_styled ⟨hbegins, hstyle⟩ hover ((" " : Text) ++ marked done text)
    obtain ⟨-, htags⟩ := read_front ((hmid.append htag).append (over_space _ 0))
    rw [Balanced, noted, htags, nest_append, nest_append, nest_append, hdim] at hbalanced
    simp [nest, follow_nil_closing] at hbalanced
  · exfalso
    have hopen := over_opening_text (by simpa using hbegins) (fun p hp => (hstyle p hp).1) hne
    have htag := over_between hopen hover hstyle ((" " : Text) ++ marked done text)
    obtain ⟨hplain, htags⟩ := read_front ((hmid.append htag).append (over_space _ 0))
    by_cases heven : guarded count % 2 = 0
    · rw [Balanced, noted, htags, nest_append, nest_append, nest_append, hdim] at hbalanced
      simp [nest, foundTag, heven, follow_nil_closing] at hbalanced
    · -- The brackets of the style are shown, besides those that belong there.
      obtain ⟨-, hfewer⟩ := read_marked done text
      have hcounts := congrArg (List.count (.char '[')) (hplain.symm.trans h.plain)
      simp only [shownTag, opening, heven, if_false, List.count_append, List.count_cons,
        hends.count_eq, beq_self_eq_true, if_true] at hcounts
      omega

end Markup

namespace Outline

open Markup (Shows IsOpening trailing)

variable {root : Path} {colors : Colors} {entries : List Entry} {note : Note}

/-- What is to be shown of a note: its place, its tag and its text. -/
def noteText (note : Note) : Text :=
  Text.ofNat note.line ++ (":" : Text) ++ Text.ofNat note.column ++ (" " : Text) ++ note.tag ++
    (" " : Text) ++ note.text

/-- What is to be shown of a file: its path and the number of its notes. -/
def entryText (root : Path) (entry : Entry) : Text :=
  shownPath root entry.path ++ (" " : Text) ++
    (("(" : Text) ++ Text.ofNat entry.notes.length ++ (")" : Text))

/-- The labels of an outline are in order and show the root, the files, and the notes of each file
that is expanded. -/
structure Tells (root : Path) (entries : List Entry) (outline : Outline) : Prop where
  top : Shows outline.label root.toText
  branches : List.Forall₂ (fun branch entry => Shows branch.label (entryText root entry) ∧
      List.Forall₂ (fun leaf note => Shows leaf (noteText note)) branch.leaves
        (if entry.expanded then entry.notes else []))
    outline.branches entries

/-- A note of which nothing is changed: its tag is shown in a style that opens a tag and ends in at
most one backslash, and so does its text if it is done; otherwise the text ends in any number of
them but one. -/
structure FitsLeaf (colors : Colors) (note : Note) : Prop where
  style : IsOpening (style colors note.tag)
  tag : trailing note.tag ≤ 1
  text : if note.done then trailing note.text ≤ 1 else trailing note.text ≠ 1

/-- A project of which nothing is changed in its outline. -/
structure Fits (root : Path) (colors : Colors) (entries : List Entry) : Prop where
  top : trailing root.toText ≤ 1
  paths : ∀ entry ∈ entries, trailing (shownPath root entry.path) ≠ 1
  leaves : ∀ entry ∈ entries, entry.expanded = true → ∀ note ∈ entry.notes, FitsLeaf colors note

/-- Numbers are letters, as far as markup goes. -/
theorem letters_ofNat (n : Nat) : ∀ p ∈ Text.ofNat n, p ≠ .char '[' ∧ p ≠ .char '\\' := by
  refine List.forall_mem_map.2 fun c hc => ?_
  have hdigit := Nat.isDigit_of_mem_toDigits (by decide) (by decide) hc
  constructor
  · intro heq
    rw [CodePoint.char.inj heq] at hdigit
    cases hdigit
  · intro heq
    rw [CodePoint.char.inj heq] at hdigit
    cases hdigit

/-- The place of a note has no brackets or backslashes. -/
theorem letters_place (note : Note) :
    ∀ p ∈ Text.ofNat note.line ++ (":" : Text) ++ Text.ofNat note.column,
      p ≠ .char '[' ∧ p ≠ .char '\\' := by
  simp only [List.forall_mem_append]
  exact ⟨⟨letters_ofNat _, by decide⟩, letters_ofNat _⟩

/-- So is a count in parentheses. -/
theorem letters_count (entry : Entry) :
    ∀ p ∈ ("(" : Text) ++ Text.ofNat entry.notes.length ++ (")" : Text),
      p ≠ .char '[' ∧ p ≠ .char '\\' := by
  simp only [List.forall_mem_append]
  exact ⟨⟨by decide, letters_ofNat _⟩, by decide⟩

/-- There is always a style, as bold is there for tags without a color. -/
theorem style_ne_nil (colors : Colors) (tag : Text) : style colors tag ≠ [] := by
  unfold style
  split <;> simp [Text.ofString]

/-- **Leaves.**  The label of a note shows its data just if they fit. -/
theorem shows_leaf_iff (hstyle : IsOpening (style colors note.tag)) :
    Shows (leaf colors note) (noteText note) ↔ FitsLeaf colors note := by
  have hnoted := Markup.shows_noted_iff (letters_place note) hstyle note.tag note.done note.text
  rw [Markup.shows_marked_iff] at hnoted
  exact hnoted.trans ⟨fun h => ⟨hstyle, h.1, h.2⟩, fun h => ⟨h.tag, h.text⟩⟩

/-- A style is a color of the map, or else bold. -/
theorem forall_mem_style {P : CodePoint → Prop} (hbold : ∀ p ∈ ("bold" : Text), P p)
    (h : ∀ entry ∈ colors, ∀ color ∈ entry.2, ∀ p ∈ color, P p) (tag : Text) :
    ∀ p ∈ style colors tag, P p := by
  unfold style
  split
  · rename_i first color hlookup
    obtain ⟨before, after, rfl, -⟩ := List.lookup_eq_some_iff.1 hlookup
    exact h _ (List.mem_append_right _ List.mem_cons_self) _ rfl
  · exact hbold

/-- The labels of an outline show their data if each of them does. -/
theorem tells_ofEntries_iff : Tells root entries (ofEntries root colors entries) ↔
    Shows (Markup.styled "bold" (Markup.escape root.toText)) root.toText ∧
      ∀ entry ∈ entries, Shows (branch root colors entry).label (entryText root entry) ∧
        (entry.expanded = true → ∀ note ∈ entry.notes,
          Shows (leaf colors note) (noteText note)) := by
  have hleaves : ∀ entry : Entry, List.Forall₂ (fun leaf note => Shows leaf (noteText note))
      (branch root colors entry).leaves (if entry.expanded then entry.notes else []) ↔
        (entry.expanded = true → ∀ note ∈ entry.notes,
          Shows (leaf colors note) (noteText note)) := by
    intro entry
    cases hexpanded : entry.expanded with
    | true => simp [branch, hexpanded, List.forall₂_map_left_iff, List.forall₂_same]
    | false => simp [branch, hexpanded]
  constructor
  · intro h
    have hbranches := h.branches
    rw [ofEntries, List.forall₂_map_left_iff, List.forall₂_same] at hbranches
    exact ⟨h.top, fun entry hentry =>
      ⟨(hbranches entry hentry).1, (hleaves entry).1 (hbranches entry hentry).2⟩⟩
  · rintro ⟨htop, hentries⟩
    refine ⟨htop, ?_⟩
    rw [ofEntries, List.forall₂_map_left_iff, List.forall₂_same]
    exact fun entry hentry =>
      ⟨(hentries entry hentry).1, (hleaves entry).2 (hentries entry hentry).2⟩

/-- **When labels tell.**  The labels of an outline show their data if it fits, and only then unless
there are colors with brackets in them. -/
theorem tells_iff (root : Path) (colors : Colors) (entries : List Entry) :
    (Fits root colors entries → Tells root entries (ofEntries root colors entries)) ∧
      ((∀ entry ∈ colors, ∀ color ∈ entry.2, ∀ p ∈ color, p ≠ .char '[' ∧ p ≠ .char ']') →
        Tells root entries (ofEntries root colors entries) → Fits root colors entries) := by
  have htop := Markup.shows_styled_iff (by decide : IsOpening "bold") root.toText
  have hpath : ∀ entry, Shows (branch root colors entry).label (entryText root entry) ↔
      trailing (shownPath root entry.path) ≠ 1 := fun entry =>
    Markup.shows_counted_iff (letters_count entry) _
  rw [tells_ofEntries_iff, htop]
  simp only [hpath]
  constructor
  · intro h
    refine ⟨h.top, fun entry hentry => ⟨h.paths entry hentry, fun hexpanded note hnote => ?_⟩⟩
    have hfits := h.leaves entry hentry hexpanded note hnote
    exact (shows_leaf_iff hfits.style).2 hfits
  · rintro hcolors ⟨hroot, hentries⟩
    refine ⟨hroot, fun entry hentry => (hentries entry hentry).1, ?_⟩
    intro entry hentry hexpanded note hnote
    have hshows := (hentries entry hentry).2 hexpanded note hnote
    have hbrackets := forall_mem_style (by decide) hcolors note.tag
    -- Without brackets in it, a style that opens no tag would be shown.
    have hopening := Markup.isOpening_of_shows_noted (letters_place note) (style_ne_nil _ _)
      hbrackets hshows
    exact (shows_leaf_iff hopening).1 hshows

/-! ## A project with one note -/

/-- The note. -/
def oneNote (text : Text) (done : Bool) : Note :=
  { path := "/p/a.py", tag := "TODO", line := 1, column := 2, text, done }

/-- The entries of the project. -/
def oneFile (text : Text) (done : Bool) : List Entry :=
  [{ path := "/p/a.py", notes := [oneNote text done], expanded := true }]

/-- What the outline of one note tells is told by its leaf. -/
theorem shows_oneNote {text : Text} {done : Bool}
    (h : Tells root (oneFile text done) (ofEntries root colors (oneFile text done))) :
    Shows (leaf colors (oneNote text done)) (noteText (oneNote text done)) := by
  obtain ⟨-, hentries⟩ := tells_ofEntries_iff.1 h
  exact (hentries _ List.mem_cons_self).2 rfl _ List.mem_cons_self

/-- Two backslashes at the end of a text that is not done are shown, besides brackets, and one would
not be. -/
theorem tells_iff_oneFile :
    Tells (Path.ofText "/p") (oneFile "[b] a\\\\" false)
      (ofEntries (Path.ofText "/p") [("TODO", some "red")] (oneFile "[b] a\\\\" false)) ∧
    ¬ Tells (Path.ofText "/p") (oneFile "[b] a\\" false)
      (ofEntries (Path.ofText "/p") [("TODO", some "red")] (oneFile "[b] a\\" false)) := by
  constructor
  · refine (tells_iff _ _ _).1 ⟨by decide +kernel, by decide +kernel, ?_⟩
    intro entry hentry _ note hnote
    obtain rfl := List.mem_singleton.1 hentry
    obtain rfl := List.mem_singleton.1 hnote
    exact ⟨by decide +kernel, by decide +kernel, by decide +kernel⟩
  · intro h
    have hfits := (tells_iff _ _ _).2 (by decide +kernel) h
    have htext := (hfits.leaves _ List.mem_cons_self rfl _ List.mem_cons_self).text
    exact absurd htext (by decide +kernel)

/-- One backslash at the end of a text is doubled; three at the end of a text that is done leave it
struck for good; and a color in capitals opens no tag, but closes one. -/
theorem labels_change :
    ¬ Tells (Path.ofText "/p") (oneFile "a\\" false)
      (ofEntries (Path.ofText "/p") [] (oneFile "a\\" false)) ∧
    ¬ Tells (Path.ofText "/p") (oneFile "a\\\\\\" true)
      (ofEntries (Path.ofText "/p") [] (oneFile "a\\\\\\" true)) ∧
    ¬ Tells (Path.ofText "/p") (oneFile "a" false)
      (ofEntries (Path.ofText "/p") [("TODO", some "RED")] (oneFile "a" false)) := by
  refine ⟨fun h => ?_, fun h => ?_, fun h => ?_⟩
  · exact absurd (shows_oneNote h).plain (by decide +kernel)
  · exact absurd (shows_oneNote h).balanced (by decide +kernel)
  · exact absurd (shows_oneNote h).balanced (by decide +kernel)

end Outline

end Marginalia
