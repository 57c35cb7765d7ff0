import Marginalia.Proofs.Frame

/-!
# The limits of the pattern reader

Two faults of a pattern are raised: a repeat count that is too large and groups that are nested too
deep.  Both show in the text.  If every number in it is small enough to be a repeat count
(`Pattern.countsFit`) and it has no more parentheses than groups can be nested, reading it raises
nothing (`Pattern.Reader.endsMildly_run`), and this holds of a frame if it holds of the body
(`Frame.not_raised_of_read`).

There is one lemma for each reader, which says that the reader leaves an end of its text or meets a
fault that is not raised (`Pattern.Passes`).  Of a step of the machine it is told moreover how many
groups are open after it (`Pattern.Reader.Goes`): a group is opened only at a parenthesis.
-/

namespace Marginalia

namespace Pattern

open Vocabulary (isRaised)

variable {α β : Type} {text rest left : Text} {fault : Fault}

/-- Whether every number in a text is small enough to be a repeat count. -/
def countsFit : Text → Bool
  | [] => true
  | p :: rest =>
    ofDigits 10 (takeDigits (digitValue? 10) (rest.length + 1) (p :: rest)).1 < countLimit &&
      countsFit rest

/-- The numbers at the end of a text fit if those of the whole text do. -/
theorem countsFit_of_suffix (h : countsFit text = true) (hrest : rest <:+ text) :
    countsFit rest = true := by
  induction text with
  | nil => rwa [List.suffix_nil.1 hrest]
  | cons p text ih =>
      rcases List.suffix_cons_iff.1 hrest with rfl | hrest
      · exact h
      · exact ih (Bool.and_eq_true_iff.1 h).2 hrest

/-- The digits that a text begins with are no number that is too large. -/
theorem ofDigits_lt_of_countsFit (h : countsFit text = true) :
    ofDigits 10 (takeDigits (digitValue? 10) text.length text).1 < countLimit := by
  cases text with
  | nil => exact Nat.zero_lt_succ _
  | cons p text => exact of_decide_eq_true (Bool.and_eq_true_iff.1 h).1

/-! ## What a reader leaves -/

/-- Of a text its end is left, or else the fault is not raised. -/
def Passes (text : Text) : Except Fault (α × Text) → Prop
  | .ok (_, left) => left <:+ text
  | .error fault => isRaised fault = false

variable {result : Except Fault (α × Text)}

/-- What passes from an end of a text on passes from the text. -/
theorem Passes.of_suffix (h : Passes rest result) (hrest : rest <:+ text) : Passes text result := by
  match result, h with
  | .ok (_, _), h => exact List.IsSuffix.trans h hrest
  | .error _, h => exact h

/-- What is made of the value does not matter. -/
theorem Passes.map {f : α × Text → β × Text} (h : Passes text result)
    (hf : ∀ pair, (f pair).2 = pair.2) : Passes text (result.map f) := by
  match result, h with
  | .ok pair, h =>
      have hleft := hf pair
      change (f pair).2 <:+ text
      rw [hleft]
      exact h
  | .error _, h => exact h

/-- A reader passes if each of its parts does, one after the other. -/
theorem Passes.bind {next : α × Text → Except Fault (β × Text)} (h : Passes text result)
    (hnext : ∀ a left, left <:+ text → Passes text (next (a, left))) :
    Passes text (result >>= next) := by
  match result, h with
  | .ok (a, left), h => exact hnext a left h
  | .error _, h => exact h

/-- After digits there is left what follows them. -/
theorem takeDigits_suffix (value? : CodePoint → Option Nat) (n : Nat) (text : Text) :
    (takeDigits value? n text).2 <:+ text := by
  fun_induction takeDigits value? n text with
  | case1 rest => exact List.suffix_refl rest
  | case2 => exact List.suffix_refl []
  | case3 n p rest v _ vs left heq ih =>
      rw [heq] at ih
      exact ih.trans (List.suffix_cons p rest)
  | case4 => exact List.suffix_refl _

theorem passes_readHex (n : Nat) (text : Text) : Passes text (readHex n text) := by
  unfold readHex
  dsimp only
  split
  · rfl
  · split
    · exact takeDigits_suffix hexValue? n text
    · rfl

theorem passes_takeUntil (close : CodePoint) (reversed text : Text) :
    Passes text (takeUntil close reversed text) := by
  fun_induction takeUntil close reversed text with
  | case1 => rfl
  | case2 => rfl
  | case3 reversed p rest ih =>
      exact ih.of_suffix ((List.suffix_cons p rest).trans (List.suffix_cons _ _))
  | case4 => rfl
  | case5 => exact List.suffix_cons _ _
  | case6 reversed p rest _ _ _ ih => exact ih.of_suffix (List.suffix_cons p rest)

/-- A named character, whose name may be unknown. -/
theorem passes_readNamed (text : Text) : Passes text (readNamed text) := by
  unfold readNamed
  split
  · rename_i rest
    have hrest : rest <:+ .char '\x7b' :: rest := List.suffix_cons _ rest
    refine ((passes_takeUntil _ [] rest).of_suffix hrest).bind fun name left hleft => ?_
    dsimp only
    split
    · exact hleft
    · rfl
  · rfl

theorem passes_of_readCode? {c : Char} {read : Except Fault (Nat × Text)}
    (h : readCode? c text = some read) : Passes text read := by
  unfold readCode? at h
  split at h
  · cases h
    exact passes_readHex 2 text
  · cases h
    exact passes_readHex 4 text
  · cases h
    exact passes_readHex 8 text
  · cases h
    exact passes_readNamed text
  · cases h

/-- A number of an octal escape can be too large, which is a fault of the pattern alone. -/
theorem passes_octal (digits : List Nat) (h : left <:+ text) : Passes text (octal digits left) := by
  unfold octal
  dsimp only
  split
  · rfl
  · exact h

/-- An escape within a set. -/
theorem passes_readSetEscape (p : CodePoint) (text : Text) :
    Passes text (readSetEscape p text) := by
  unfold readSetEscape
  split
  · exact List.suffix_refl text
  · split
    · exact List.suffix_refl text
    · exact List.suffix_refl text
    · rename_i read hread _ _
      exact (passes_of_readCode? hread).map fun _ => rfl
    · split
      · exact List.suffix_refl text
      · split
        · exact (passes_octal _ (takeDigits_suffix _ 2 text)).map fun _ => rfl
        · split
          · rfl
          · exact List.suffix_refl text

/-- After its first digit, an escape is a group number or an octal number. -/
theorem passes_readNumber (first : Nat) (text : Text) : Passes text (readNumber first text) := by
  unfold readNumber
  split
  · exact takeDigits_suffix _ 2 text
  · split
    · rename_i second left hsecond
      have hleft : left <:+ text := by
        have := takeDigits_suffix (digitValue? 10) 1 text
        rwa [hsecond] at this
      split
      · rename_i third left' hthird
        have hleft' : left' <:+ left := by
          have := takeDigits_suffix (digitValue? 8) 1 left
          rwa [hthird] at this
        split
        · exact (passes_octal _ (hleft'.trans hleft)).map fun _ => rfl
        · exact hleft
      · exact hleft
    · exact List.suffix_refl text

/-- An escape outside a set. -/
theorem passes_readEscape (p : CodePoint) (text : Text) : Passes text (readEscape p text) := by
  unfold readEscape
  split
  · exact List.suffix_refl text
  · split
    · exact List.suffix_refl text
    · exact List.suffix_refl text
    · exact List.suffix_refl text
    · rename_i read hread _ _ _
      exact (passes_of_readCode? hread).map fun _ => rfl
    · split
      · exact passes_readNumber _ text
      · split
        · rfl
        · exact List.suffix_refl text

/-- A member of a set, plain or escaped. -/
theorem passes_readSetMember (text : Text) : Passes text (readSetMember text) := by
  unfold readSetMember
  split
  · rfl
  · rfl
  · rename_i p rest
    exact (passes_readSetEscape p rest).of_suffix
      ((List.suffix_cons p rest).trans (List.suffix_cons _ _))
  · exact List.suffix_cons _ _

/-- The members of a set are read one after the other, to its bracket. -/
theorem passes_readSet (fuel : Nat) (reversed : List SetItem) (text : Text) :
    Passes text (readSet fuel reversed text) := by
  induction fuel generalizing reversed text with
  | zero => rfl
  | succ fuel ih =>
      unfold readSet
      split
      · exact List.suffix_cons _ _
      · refine (passes_readSetMember text).bind fun item rest hrest => ?_
        dsimp only
        split
        · exact ((List.suffix_cons _ _).trans (List.suffix_cons _ _)).trans hrest
        · rename_i rest' _
          have hrest' : rest' <:+ text := (List.suffix_cons _ rest').trans hrest
          refine ((passes_readSetMember rest').of_suffix hrest').bind fun last left hleft => ?_
          dsimp only
          split
          · split
            · rfl
            · exact (ih _ left).of_suffix hleft
          · rfl
        · exact (ih _ rest).of_suffix hrest

/-- The letters of flags. -/
theorem passes_readFlags (text : Text) : Passes text (readFlags text) := by
  unfold readFlags
  dsimp only
  split
  · rfl
  · split
    · rename_i rest heq
      split
      · rfl
      · exact (List.suffix_cons _ rest).trans (heq ▸ List.dropWhile_suffix _)
    · rename_i rest heq
      have hrest : rest <:+ text := (List.suffix_cons _ rest).trans (heq ▸ List.dropWhile_suffix _)
      split
      · rfl
      · split
        · rename_i left heq
          exact ((List.suffix_cons _ left).trans (heq ▸ List.dropWhile_suffix _)).trans hrest
        · rfl
    · rfl

theorem passes_skipComment (a : α) (text : Text) : Passes text ((skipComment text).map (a, ·)) := by
  fun_induction skipComment text with
  | case1 => rfl
  | case2 => rfl
  | case3 p rest ih => exact ih.of_suffix ((List.suffix_cons p rest).trans (List.suffix_cons _ _))
  | case4 rest => exact List.suffix_cons _ rest
  | case5 p rest _ _ _ ih => exact ih.of_suffix (List.suffix_cons p rest)

/-- A line that is skipped leaves what follows it. -/
theorem skipLine_suffix (text : Text) : skipLine text <:+ text := by
  fun_induction skipLine text with
  | case1 => exact List.suffix_refl []
  | case2 p rest ih => exact (ih.trans (List.suffix_cons p rest)).trans (List.suffix_cons _ _)
  | case3 rest => exact List.suffix_cons _ rest
  | case4 p rest _ _ ih => exact ih.trans (List.suffix_cons p rest)

/-! ## Repeat counts -/

/-- A number below the limit can be converted, unless it has too many digits, and that is not
raised. -/
theorem count_mild {digits : List Nat} (h : ofDigits 10 digits < countLimit) :
    (∃ n, count digits = .ok n) ∨ ∃ fault, count digits = .error fault ∧
      isRaised fault = false := by
  unfold count
  split
  · exact .inr ⟨.countTooLong, rfl, rfl⟩
  · rw [if_neg (Nat.not_le.2 h)]
    exact .inl ⟨_, rfl⟩

/-- The digits of the second count and whether there is a comma, with what is left behind them. -/
def secondCount (low : List Nat) (afterLow : Text) : (List Nat × Bool) × Text :=
  match afterLow with
  | .char ',' :: rest =>
    let (digits, left) := takeDigits (digitValue? 10) rest.length rest
    ((digits, true), left)
  | _ => ((low, false), afterLow)

/-- The counts that digits spell before a closing brace. -/
def countsOf (low high : List Nat) (comma : Bool) (text : Text) :
    Except Fault (Option ((Nat × Option Nat) × Text)) :=
  match text with
  | .char '\x7d' :: rest =>
    if low.isEmpty && !comma then .ok none
    else do
      let least ← if low.isEmpty then .ok 0 else count low
      if high.isEmpty then return some ((least, none), rest)
      let most ← count high
      if most < least then .error .countsReversed
      return some ((least, some most), rest)
  | _ => .ok none

/-- The counts of a repetition, read in the parts that the lemmas are about. -/
theorem readCounts_eq (text : Text) :
    let low := takeDigits (digitValue? 10) text.length text
    let high := secondCount low.1 low.2
    readCounts text = countsOf low.1 high.1.1 high.1.2 high.2 := rfl

/-- Counts leave an end of the text; there may be none. -/
def Counted (text : Text) : Except Fault (Option ((Nat × Option Nat) × Text)) → Prop
  | .ok (some (_, left)) => left <:+ text
  | .ok none => True
  | .error fault => isRaised fault = false

/-- Two small numbers give counts within the limit, or a fault that is not raised. -/
theorem counted_countsOf {low high : List Nat} {comma : Bool} {text : Text}
    (hlow : ofDigits 10 low < countLimit) (hhigh : ofDigits 10 high < countLimit) :
    Counted text (countsOf low high comma text) := by
  unfold countsOf
  split
  · rename_i rest
    have hrest : rest <:+ .char '\x7d' :: rest := List.suffix_cons _ rest
    have hmost (least : Nat) : Counted (.char '\x7d' :: rest) (do
        if high.isEmpty then return some ((least, none), rest)
        let most ← count high
        if most < least then .error .countsReversed
        return some ((least, some most), rest)) := by
      split
      · exact hrest
      · rcases count_mild hhigh with ⟨most, hcount⟩ | ⟨fault, hcount, hmild⟩
        · rw [hcount]
          dsimp only [bind, Except.bind]
          split
          · rfl
          · exact hrest
        · rw [hcount]
          exact hmild
    split
    · trivial
    · dsimp only
      split
      · exact hmost 0
      · rcases count_mild hlow with ⟨least, hcount⟩ | ⟨fault, hcount, hmild⟩
        · rw [hcount]
          exact hmost least
        · rw [hcount]
          exact hmild
  · trivial

/-- The second number is small as well, and it is read from what the first one has left. -/
theorem of_secondCount {low : List Nat} (hfits : countsFit text = true)
    (hlow : ofDigits 10 low < countLimit) (hrest : rest <:+ text) :
    ofDigits 10 (secondCount low rest).1.1 < countLimit ∧ (secondCount low rest).2 <:+ text := by
  unfold secondCount
  split
  · rename_i rest
    have hrest : rest <:+ text := (List.suffix_cons _ rest).trans hrest
    exact ⟨ofDigits_lt_of_countsFit (countsFit_of_suffix hfits hrest),
      (takeDigits_suffix (digitValue? 10) rest.length rest).trans hrest⟩
  · exact ⟨hlow, hrest⟩

/-- Counts that are read at the end of a text are read from the text. -/
theorem Counted.of_suffix {result : Except Fault (Option ((Nat × Option Nat) × Text))}
    (h : Counted rest result) (hrest : rest <:+ text) : Counted text result := by
  match result, h with
  | .ok (some _), h => exact List.IsSuffix.trans h hrest
  | .ok none, _ => trivial
  | .error _, h => exact h

/-- In a text whose numbers are small no count is too large. -/
theorem counted_readCounts (hfits : countsFit text = true) : Counted text (readCounts text) := by
  have hlow := ofDigits_lt_of_countsFit hfits
  have hafter := takeDigits_suffix (digitValue? 10) text.length text
  obtain ⟨hhigh, hleft⟩ := of_secondCount hfits hlow hafter
  rw [readCounts_eq]
  exact (counted_countsOf hlow hhigh).of_suffix hleft

/-! ## Steps of the machine -/

/-- A piece cannot be repeated for a reason that is not raised. -/
def Piece.Mild (piece : Piece) : Prop :=
  ∀ fault, piece.unrepeatable = some fault → isRaised fault = false

theorem Piece.mild_choice (flags : Flags) (branches : List (List Piece)) :
    (choice flags branches).Mild := by
  unfold choice
  split <;> exact fun _ h => (nomatch h)

/-- Whatever a group has read so far makes a piece that nothing has to be raised for. -/
theorem OpenGroup.mild_piece (g : OpenGroup) : g.piece.Mild := by
  unfold OpenGroup.piece
  split
  · exact fun _ h => (nomatch h)
  · exact fun _ h => (nomatch h)
  · split
    · exact Piece.mild_choice _ _
    · exact fun _ h => (nomatch h)

namespace Reader

/-- No fault is raised that was kept for later. -/
structure Mild (r : Reader) : Prop where
  inner : ∀ piece ∈ r.inner.pieces, piece.Mild
  outer : ∀ g ∈ r.outer, ∀ piece ∈ g.pieces, piece.Mild
  deferred : ∀ fault, r.deferred = some fault → isRaised fault = false

/-- A step leaves at most so many groups open around the innermost one and keeps no fault for later
that is raised, or it meets a fault that is not raised. -/
def Nests (most : Nat) : Except Fault Reader → Prop
  | .ok next => next.Mild ∧ next.outer.length ≤ most
  | .error fault => isRaised fault = false

/-- A step that takes some of the text, too. -/
def Goes (most : Nat) (text : Text) : Except Fault (Reader × Text) → Prop
  | .ok (next, left) => next.Mild ∧ next.outer.length ≤ most ∧ left <:+ text
  | .error fault => isRaised fault = false

variable {r next : Reader} {most : Nat}

/-- A step that takes nothing more from the text leaves what was left of it. -/
theorem Nests.goes {result : Except Fault Reader} (h : Nests most result) (hleft : left <:+ text) :
    Goes most text (result.map (·, left)) := by
  match result, h with
  | .ok _, h => exact ⟨h.1, h.2, hleft⟩
  | .error _, h => exact h

/-- A part is read in front of a step. -/
theorem goes_bind {first : Except Fault (α × Text)}
    {second : α × Text → Except Fault (Reader × Text)} (h : Passes text first)
    (hsecond : ∀ a left, left <:+ text → Goes most text (second (a, left))) :
    Goes most text (first >>= second) := by
  match first, h with
  | .ok (a, left), h => exact hsecond a left h
  | .error _, h => exact h

/-- A mild piece more leaves the reader mild. -/
theorem Mild.push (h : r.Mild) {piece : Piece} (hpiece : piece.Mild) : (r.push piece).Mild :=
  ⟨List.forall_mem_cons.2 ⟨hpiece, h.inner⟩, h.outer, h.deferred⟩

/-- One more group is open then; that it is not too deep is where the limit on nesting comes in. -/
theorem nests_openGroup (h : r.Mild) (hdepth : r.outer.length < nestingLimit) (kind : GroupKind)
    (flags : Flags) : Nests (r.outer.length + 1) (r.openGroup kind flags) := by
  unfold openGroup
  rw [if_neg (Nat.not_le.2 hdepth)]
  exact ⟨⟨fun _ h => (nomatch h), List.forall_mem_cons.2 ⟨h.inner, h.outer⟩, h.deferred⟩,
    Nat.le_refl _⟩

/-- A capturing group is opened like any other, unless its name cannot be used. -/
theorem nests_openCapture (h : r.Mild) (hdepth : r.outer.length < nestingLimit)
    (name? : Option Text) : Nests (r.outer.length + 1) (r.openCapture name?) := by
  have hnamed (names : List (Text × Nat)) :
      ({ r with groupCount := r.groupCount + 1, names } : Reader).Mild :=
    ⟨h.inner, h.outer, h.deferred⟩
  unfold openCapture
  cases name? with
  | none => exact nests_openGroup (hnamed _) hdepth _ _
  | some name =>
      dsimp only
      split
      · rfl
      · exact nests_openGroup (hnamed _) hdepth _ _

/-- What goes well from an end of a text on goes well from the text. -/
theorem Goes.of_suffix {result : Except Fault (Reader × Text)} (h : Goes most rest result)
    (hrest : rest <:+ text) : Goes most text result := by
  match result, h with
  | .ok _, h => exact ⟨h.1, h.2.1, h.2.2.trans hrest⟩
  | .error _, h => exact h

/-- A reference to a group that is not there is a fault of the pattern alone. -/
theorem checkReference_mild {group : Nat} (h : r.checkReference group = .error fault) :
    isRaised fault = false := by
  unfold checkReference at h
  split at h
  · cases h
    rfl
  · split at h
    · split at h
      · cases h
        rfl
      · cases h
    · cases h

/-- A reference that is in order changes nothing about what follows. -/
theorem nests_reference (group : Nat) {result : Except Fault Reader}
    (hresult : Nests most result) :
    Nests most (r.checkReference group >>= fun _ => result) := by
  cases hcheck : r.checkReference group with
  | error fault => exact checkReference_mild hcheck
  | ok => exact hresult

/-- One group less is open after a closing parenthesis, if there was one to be closed. -/
theorem nests_close (h : r.Mild) : Nests r.outer.length r.close := by
  unfold close
  split
  · rfl
  · rename_i around outer houter
    have hinner : ∀ piece ∈ around.pieces, piece.Mild :=
      h.outer around (houter ▸ List.mem_cons_self)
    have hrest : ∀ g ∈ outer, ∀ piece ∈ g.pieces, piece.Mild := fun g hg =>
      h.outer g (houter ▸ List.mem_cons_of_mem _ hg)
    -- Each kind of group pushes one piece onto the group around it.
    have hpush {s : Reader} {piece : Piece} (hin : s.inner = around) (hout : s.outer = outer)
        (hdeferred : ∀ fault, s.deferred = some fault → isRaised fault = false)
        (hpiece : piece.Mild) : Nests r.outer.length (.ok (s.push piece)) := by
      refine ⟨Mild.push ⟨hin ▸ hinner, hout ▸ hrest, hdeferred⟩ hpiece, ?_⟩
      rw [houter]
      exact hout ▸ Nat.le_succ _
    have hnone : ∀ fault, (none : Option Fault) = some fault → isRaised fault = false :=
      fun _ h => (nomatch h)
    dsimp only
    split
    · rfl
    · exact hpush rfl rfl h.deferred hnone
    · split
      · exact hpush rfl rfl h.deferred hnone
      · exact hpush rfl rfl h.deferred r.inner.mild_piece
    · exact hpush rfl rfl h.deferred hnone
    · exact hpush rfl rfl h.deferred hnone
    · refine hpush rfl rfl (fun fault hfault => ?_) hnone
      rcases Option.or_eq_some_iff.1 hfault with hfault | ⟨-, hfault⟩
      · exact h.deferred fault hfault
      · unfold widthFault? at hfault
        split at hfault
        · cases hfault
          rfl
        · split at hfault
          · cases hfault
          · cases hfault
            rfl
    · exact hpush rfl rfl h.deferred hnone
    · split
      · exact hpush rfl rfl h.deferred hnone
      · exact hpush rfl rfl h.deferred hnone

/-- A new branch begins within the same group. -/
theorem nests_nextBranch (h : r.Mild) : Nests r.outer.length r.nextBranch := by
  have hnext : Nests r.outer.length (.ok { r with inner :=
      { r.inner with branches := r.inner.pieces :: r.inner.branches, pieces := [] } }) :=
    ⟨⟨fun _ h => (nomatch h), h.outer, h.deferred⟩, Nat.le_refl _⟩
  unfold nextBranch
  dsimp only
  split
  · split
    · exact hnext
    · rfl
  · exact hnext

/-- A piece is added within the same group. -/
theorem nests_push (h : r.Mild) {piece : Piece} (hpiece : piece.Mild) :
    Nests r.outer.length (.ok (r.push piece)) :=
  ⟨h.push hpiece, Nat.le_refl _⟩

/-- A piece that can be repeated. -/
theorem mild_of_none {piece : Piece} (h : piece.unrepeatable = none) : piece.Mild := by
  intro fault hfault
  rw [h] at hfault
  cases hfault

/-- Anchors are mild. -/
theorem mild_ofAnchor (anchor : Anchor) : (Piece.ofAnchor anchor).Mild := by
  rintro _ ⟨⟩
  rfl

/-- An escape is a piece, or a reference to a group that was closed. -/
theorem nests_pushEscape (h : r.Mild) (escape : Escape) :
    Nests r.outer.length (r.pushEscape escape) := by
  unfold pushEscape
  split
  · exact nests_push h (mild_of_none rfl)
  · exact nests_push h (mild_of_none rfl)
  · exact nests_push h (mild_ofAnchor _)
  · split
    · rfl
    · exact nests_reference _ (nests_push h (mild_of_none rfl))

/-- The last piece is repeated in place; whether it can be is settled without a fault that is
raised. -/
theorem goes_repeatLast (h : r.Mild) (least : Nat) (most : Option Nat) (text : Text) :
    Goes r.outer.length text (r.repeatLast least most text) := by
  unfold repeatLast
  split
  · rfl
  · rename_i piece pieces hpieces
    have hall := h.inner
    rw [hpieces, List.forall_mem_cons] at hall
    split
    · rename_i fault hfault
      exact hall.1 fault hfault
    · have hmild {looped : Piece} (hlooped : looped.unrepeatable = some .multipleRepeat) :
          ({ r with inner := { r.inner with pieces := looped :: pieces } } : Reader).Mild := by
        refine ⟨List.forall_mem_cons.2 ⟨fun fault hfault => ?_, hall.2⟩, h.outer, h.deferred⟩
        rw [hlooped] at hfault
        cases hfault
        rfl
      refine ⟨hmild rfl, Nat.le_refl _, ?_⟩
      split
      · exact List.suffix_cons _ _
      · exact List.suffix_cons _ _
      · exact List.suffix_refl text

/-- A condition opens a group, if the group that it is about can be named. -/
theorem nests_openCondition (h : r.Mild) (hdepth : r.outer.length < nestingLimit) (name : Text) :
    Nests (r.outer.length + 1) (r.openCondition name) := by
  have hchecked (group : Nat) (mentioned : List Nat) :
      Nests (r.outer.length + 1) (if r.behind.isSome then
          r.checkReference group >>= fun _ =>
            { r with mentioned }.openGroup (.ifGroup group) r.flags
        else { r with mentioned }.openGroup (.ifGroup group) r.flags) := by
    have hmild : ({ r with mentioned } : Reader).Mild := ⟨h.inner, h.outer, h.deferred⟩
    split
    · exact nests_reference group (nests_openGroup hmild hdepth _ _)
    · exact nests_openGroup hmild hdepth _ _
  unfold openCondition
  dsimp only
  split
  · split
    · exact hchecked _ _
    · rfl
  · split
    · rfl
    · rfl
    · split
      · rfl
      · exact hchecked _ _

/-- A look behind opens a group, and remembers how many there were. -/
theorem nests_openBehind (h : r.Mild) (hdepth : r.outer.length < nestingLimit) (negated : Bool) :
    Nests (r.outer.length + 1) (readOpening.openBehind r negated) :=
  have hmild : ({ r with behind := r.behind.or (some r.groupCount) } : Reader).Mild :=
    ⟨h.inner, h.outer, h.deferred⟩
  nests_openGroup hmild hdepth _ _

/-- Whatever follows a parenthesis, at most one more group is open then. -/
theorem goes_readOpening (h : r.Mild) (hdepth : r.outer.length < nestingLimit) (text : Text) :
    Goes (r.outer.length + 1) text (r.readOpening text) := by
  unfold readOpening
  split
  · rename_i rest
    refine goes_bind ((passes_takeUntil _ [] rest).of_suffix ⟨[_, _, _], rfl⟩)
      fun name left hleft => ?_
    dsimp only
    split
    · exact (nests_openCapture h hdepth _).goes hleft
    · rfl
  · rename_i rest
    refine goes_bind ((passes_takeUntil _ [] rest).of_suffix ⟨[_, _, _], rfl⟩)
      fun name left hleft => ?_
    dsimp only
    split
    · split
      · rfl
      · rename_i group _
        cases hcheck : r.checkReference group with
        | error fault => exact checkReference_mild hcheck
        | ok => exact ⟨h.push (mild_of_none rfl), Nat.le_succ _, hleft⟩
    · rfl
  · exact (nests_openGroup h hdepth _ _).goes ⟨[_, _], rfl⟩
  · rename_i rest
    have hcomment : Passes (.char '?' :: .char '#' :: rest) ((skipComment rest).map (r, ·)) :=
      (passes_skipComment r rest).of_suffix ⟨[_, _], rfl⟩
    cases hskip : skipComment rest with
    | error fault =>
        rw [hskip] at hcomment
        exact hcomment
    | ok left =>
        rw [hskip] at hcomment
        exact ⟨h, Nat.le_succ _, hcomment⟩
  · exact (nests_openGroup h hdepth _ _).goes ⟨[_, _], rfl⟩
  · exact (nests_openGroup h hdepth _ _).goes ⟨[_, _], rfl⟩
  · exact (nests_openBehind h hdepth _).goes ⟨[_, _, _], rfl⟩
  · exact (nests_openBehind h hdepth _).goes ⟨[_, _, _], rfl⟩
  · rename_i rest
    refine goes_bind ((passes_takeUntil _ [] rest).of_suffix ⟨[_, _], rfl⟩)
      fun name left hleft => ?_
    exact (nests_openCondition h hdepth name).goes hleft
  · exact (nests_openGroup h hdepth _ _).goes ⟨[_, _], rfl⟩
  · rename_i rest _ _ _ _ _ _ _ _ _ _
    refine goes_bind ((passes_readFlags rest).of_suffix ⟨[_], rfl⟩) fun flags left hleft => ?_
    exact (nests_openGroup h hdepth _ _).goes hleft
  · exact (nests_openCapture h hdepth none).goes (List.suffix_refl _)

/-- A mild piece is added, and the reader goes on at the same depth. -/
theorem goes_push (h : r.Mild) {piece : Piece} (hpiece : piece.Mild) (hleft : left <:+ text) :
    Goes r.outer.length text (.ok (r.push piece, left)) :=
  ⟨h.push hpiece, Nat.le_refl _, hleft⟩

/-- Where fewer groups are open, more may be. -/
theorem Goes.mono {more : Nat} {result : Except Fault (Reader × Text)} (h : Goes most text result)
    (hmore : most ≤ more) : Goes more text result := by
  match result, h with
  | .ok _, h => exact ⟨h.1, Nat.le_trans h.2.1 hmore, h.2.2⟩
  | .error _, h => exact h

/-- Counts in braces repeat the last piece; without counts the brace is a letter. -/
theorem goes_repeatCounted (h : r.Mild) (hfits : countsFit text = true) (letter : Nat) :
    Goes r.outer.length text (readCounts text >>= fun counts? =>
      match counts? with
      | some ((least, most), left) => r.repeatLast least most left
      | none => .ok (r.push (.ofLetter r.flags letter), text)) := by
  have hcounts := counted_readCounts hfits
  cases hread : readCounts text with
  | error fault =>
      rw [hread] at hcounts
      exact hcounts
  | ok counts? =>
      rw [hread] at hcounts
      cases counts? with
      | none => exact goes_push h (mild_of_none rfl) (List.suffix_refl text)
      | some counts =>
          obtain ⟨⟨least, most⟩, left⟩ := counts
          exact (goes_repeatLast h least most left).of_suffix hcounts

/-- So it does with a set. -/
theorem goes_set (h : r.Mild) (negated : Bool) {members : Text} (hmembers : members <:+ text) :
    Goes r.outer.length text
      ((readSet (members.length + 1) [] members).map fun (items, left) =>
        (r.push (.ofSet r.flags items negated), left)) := by
  have hset := (passes_readSet (members.length + 1) [] members).of_suffix hmembers
  cases hread : readSet (members.length + 1) [] members with
  | error fault =>
      rw [hread] at hset
      exact hset
  | ok read =>
      rw [hread] at hset
      exact goes_push h (mild_of_none rfl) hset

/-- One step opens a group only at a parenthesis, and raises nothing while no number is too large
and there is room for a group. -/
theorem goes_advance (h : r.Mild) {p : CodePoint} (hfits : countsFit text = true)
    (hmost : r.outer.length ≤ most)
    (hroom : p = .char '(' → r.outer.length < nestingLimit ∧ r.outer.length < most) :
    Goes most text (r.advance p text) := by
  have hsuffix : text <:+ text := List.suffix_refl text
  unfold advance
  split
  · exact ⟨h, hmost, hsuffix⟩
  · split
    · split
      · rfl
      · rename_i q left
        refine goes_bind ((passes_readEscape q left).of_suffix (List.suffix_cons q left))
          fun escape left' hleft => ?_
        exact ((nests_pushEscape h escape).goes hleft).mono hmost
    · exact ((nests_nextBranch h).goes hsuffix).mono hmost
    · exact ((nests_close h).goes hsuffix).mono hmost
    · exact (goes_readOpening h (hroom rfl).1 text).mono (hroom rfl).2
    · dsimp only
      split
      · exact (goes_set h true (List.suffix_cons _ _)).mono hmost
      · exact (goes_set h false hsuffix).mono hmost
    · refine (goes_push h ?_ hsuffix).mono hmost
      split <;> exact mild_of_none rfl
    · exact (goes_push h (mild_ofAnchor _) hsuffix).mono hmost
    · exact (goes_push h (mild_ofAnchor _) hsuffix).mono hmost
    · exact (goes_repeatLast h _ _ text).mono hmost
    · exact (goes_repeatLast h _ _ text).mono hmost
    · exact (goes_repeatLast h _ _ text).mono hmost
    · exact (goes_repeatCounted h hfits _).mono hmost
    · split
      · exact ⟨h, hmost, skipLine_suffix text⟩
      · exact (goes_push h (mild_of_none rfl) hsuffix).mono hmost
    · exact (goes_push h (mild_of_none rfl) hsuffix).mono hmost

/-- A run ends with a mild reader, or with a fault that is not raised. -/
def EndsMildly : Except Fault Reader → Prop
  | .ok next => next.Mild
  | .error fault => isRaised fault = false

/-- **Within the limits.**  Reading a text to its end raises nothing if no number in it is too large
and there is room for as many groups as it has parentheses. -/
theorem endsMildly_run (fuel : Nat) (h : r.Mild) (hfits : countsFit text = true)
    (hdepth : r.outer.length + text.count (.char '(') ≤ nestingLimit) :
    EndsMildly (Reader.run fuel r text) := by
  induction fuel generalizing r text with
  | zero =>
      cases text with
      | nil => exact h
      | cons p text => rfl
  | succ fuel ih =>
      cases text with
      | nil => exact h
      | cons p text =>
          rw [List.count_cons] at hdepth
          have hrest := countsFit_of_suffix hfits (List.suffix_cons p text)
          -- A step opens a group only at a parenthesis: there is room for all that are to come.
          let most := r.outer.length + if p == .char '(' then 1 else 0
          have hstep : Goes most text (r.advance p text) := by
            refine goes_advance h hrest (Nat.le_add_right _ _) ?_
            rintro rfl
            have hone : (if (CodePoint.char '(' == .char '(') = true then 1 else 0) = 1 := rfl
            rw [hone] at hdepth
            exact ⟨by omega, Nat.lt_succ_self _⟩
          rw [Reader.run]
          cases hadvance : r.advance p text with
          | error fault =>
              rw [hadvance] at hstep
              exact hstep
          | ok step =>
              obtain ⟨next, left⟩ := step
              rw [hadvance] at hstep
              obtain ⟨hmild, hlength, hleft⟩ := hstep
              refine ih hmild (countsFit_of_suffix hrest hleft) ?_
              have hcount := hleft.sublist.count_le (.char '(')
              omega

/-- What is checked at the end of a pattern is never raised. -/
theorem finish_mild (h : r.Mild) (hfinish : r.finish = .error fault) : isRaised fault = false := by
  unfold finish at hfinish
  split at hfinish
  · cases hfinish
    rfl
  · split at hfinish
    · cases hfinish
      rfl
    · split at hfinish
      · rename_i hdeferred
        cases hfinish
        exact h.deferred _ hdeferred
      · cases hfinish

end Reader

/-! ## Bodies in the frame -/

/-- Digits end at a code point that is none, whatever stands before it. -/
theorem takeDigits_append {value? : CodePoint → Option Nat} {p : CodePoint} (hp : value? p = none)
    {n : Nat} (hn : text.length < n) :
    (takeDigits value? n (text ++ p :: rest)).1 = (takeDigits value? text.length text).1 := by
  induction text generalizing n with
  | nil =>
      obtain ⟨n, rfl⟩ := Nat.exists_eq_succ_of_ne_zero (Nat.ne_zero_of_lt hn)
      simp [takeDigits, hp]
  | cons q text ih =>
      obtain ⟨n, rfl⟩ := Nat.exists_eq_succ_of_ne_zero (Nat.ne_zero_of_lt hn)
      rw [List.cons_append, List.length_cons, takeDigits, takeDigits]
      cases value? q with
      | none => rfl
      | some v => exact congrArg (v :: ·) (ih (Nat.lt_of_succ_lt_succ hn))

/-- A text that goes on with something else than a digit has no other numbers than its parts. -/
theorem countsFit_append {p : CodePoint} (hp : digitValue? 10 p = none) (h : countsFit text = true)
    (hrest : countsFit (p :: rest) = true) : countsFit (text ++ p :: rest) = true := by
  induction text with
  | nil => exact hrest
  | cons q text ih =>
      obtain ⟨hfirst, htext⟩ := Bool.and_eq_true_iff.1 h
      refine Bool.and_eq_true_iff.2 ⟨?_, ih htext⟩
      have hlength : (q :: text).length < (text ++ p :: rest).length + 1 := by simp
      change decide (ofDigits 10 (takeDigits (digitValue? 10) ((text ++ p :: rest).length + 1)
        (q :: text ++ p :: rest)).1 < countLimit) = true
      rw [takeDigits_append hp hlength]
      exact hfirst

end Pattern

namespace Frame

open Pattern

/-- Before the tag, the frame has not met anything to be raised. -/
theorem mild_tagReader (flags : Flags) : (tagReader flags []).Mild where
  inner := fun _ h => (nomatch h)
  outer := by
    rintro g hg piece hpiece fault hfault
    rw [List.mem_singleton.1 hg] at hpiece
    simp only [List.mem_cons, List.not_mem_nil, or_false] at hpiece
    rcases hpiece with rfl | rfl | rfl | rfl <;> cases hfault <;> rfl
  deferred := fun _ h => (nomatch h)

/-- **Within the frame.**  Putting a body into the frame raises nothing if no number in the body is
too large for a repeat count and its parentheses, with the frame's own, are not too many to be
nested. -/
theorem not_raised_of_read {caseSensitive : Bool} {body : Text} {fault : Fault}
    (hfits : countsFit body = true) (hopens : body.count (.char '(') + 5 ≤ Reader.nestingLimit)
    (h : Pattern.read (Vocabulary.flags caseSensitive) (Tag.frame body) = .error fault) :
    Vocabulary.isRaised fault = false := by
  have hmild := mild_tagReader (Vocabulary.flags caseSensitive)
  have hstop : Tag.frameStop = .char ')' :: Tag.frameStop.tail := by rw [frameStop_eq]; rfl
  have hstopFits : countsFit (.char ')' :: Tag.frameStop.tail) = true := by
    rw [← hstop, frameStop_eq]
    rfl
  have hstopOpens : Tag.frameStop.count (.char '(') = 4 := by
    rw [frameStop_eq]
    rfl
  have hall : countsFit (body ++ Tag.frameStop) = true := by
    rw [hstop]
    exact countsFit_append rfl hfits hstopFits
  have hdepth : (tagReader (Vocabulary.flags caseSensitive) []).outer.length +
      (body ++ Tag.frameStop).count (.char '(') ≤ Reader.nestingLimit := by
    rw [List.count_append, hstopOpens]
    exact Nat.le_trans (by simp [tagReader]; omega) hopens
  have hends := Reader.endsMildly_run (body.length + 106) hmild hall hdepth
  rw [read_frame] at h
  cases hrun : Reader.run (body.length + 106) (tagReader (Vocabulary.flags caseSensitive) [])
      (body ++ Tag.frameStop) with
  | error other =>
      rw [hrun] at h hends
      cases h
      exact hends
  | ok next =>
      rw [hrun] at h hends
      exact Reader.finish_mild hends h

end Frame

end Marginalia
