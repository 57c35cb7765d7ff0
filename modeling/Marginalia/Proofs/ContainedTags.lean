import Marginalia.Proofs.PatternSteps

/-!
# Bodies that stay in their group

A custom pattern is put into the frame as it stands.  It is contained if the reader, which comes to
it within the group of the tag, is in that group again at its end and has not left it between
(`Frame.isContained`).
-/

namespace Marginalia

namespace Frame

open Pattern Reader

variable {caseSensitive : Bool} {fuel : Nat} {r next : Reader} {text : Text}

/-! ## The end of the frame -/

/-- The end of the frame up to the group of the text. -/
def stopFront : Text :=
  [')', '(', '?', '!', '\\', 'w', ')', '[', ' ', '\\', 't', ']', '*', ':', '?', '[', ' ', '\\', 't',
    ']', '*'].map .char

/-- What opens the group of the text. -/
def stopOpening : Text := ['(', '?', 'P', '<', 't', 'e', 'x', 't', '>'].map .char

/-- The end of the frame from the text on. -/
def stopBack : Text :=
  ['.', '*', '?', ')', '[', ' ', '\\', 't', ']', '*', '(', '?', ':', '\\', '~', '\\', '~', ')', '?',
    '[', ' ', '\\', 't', ']', '*', '(', '?', ':', '\\', '*', '+', '/', '|', '-', '-', '>',
      ')', '?', '[',
    ' ', '\\', 't', ']', '*', '$'].map .char

/-- The end of the frame, split where its group opens. -/
theorem frameStop_split : Tag.frameStop = stopFront ++ (stopOpening ++ stopBack) := by
  rw [frameStop_eq]
  rfl

/-- The text of a note, with the number of its group. -/
def contentAs (group : Nat) : Regex :=
  .capture group (.ofList [.loop .lazy 0 none (.symbol .notNewline)])

/-- A piece that was repeated. -/
def repeatedPiece (regex : Regex) : Piece := { regex, unrepeatable := some .multipleRepeat }

/-- The pieces of the frame up to its text, last first. -/
def frontPieces (tag : Regex) : List Piece :=
  [repeatedPiece gap, repeatedPiece (optional (letter ':')), repeatedPiece gap, { regex := edge },
    { regex := .capture 2 tag }, repeatedPiece (optional (.capture 1 tildes)),
    repeatedPiece (optional (letter '@')), repeatedPiece gap, { regex := leader }]

/-- The pieces of the frame from its text on, last first. -/
def backPieces (group : Nat) : List Piece :=
  [Piece.ofAnchor .beforeFinish, repeatedPiece gap, repeatedPiece (optional closer),
    repeatedPiece gap, repeatedPiece (optional tildes), repeatedPiece gap,
    { regex := contentAs group }]

/-- The regular expression of the frame, with the number of the group of its text. -/
def regexAs (tag : Regex) (group : Nat) : Regex :=
  .ofList (head tag ++ (colon ++ (contentAs group :: closing)))

/-- The group of the tag is closed, and the reader goes on to the text. -/
theorem run_stopFront (hkind : r.inner.kind = .capture 2)
    (hflags : r.inner.flags = Vocabulary.flags caseSensitive)
    (houter : r.outer = (tagReader (Vocabulary.flags caseSensitive) []).outer) (fuel : Nat)
    (rest : Text) :
    ∃ widths, Reader.run (fuel + 10) r (stopFront ++ (stopOpening ++ rest)) =
      Reader.run fuel
        { r with
          inner :=
            { kind := .whole, flags := Vocabulary.flags caseSensitive
              pieces := frontPieces r.inner.piece.regex }
          outer := [], widths } (stopOpening ++ rest) := by
  obtain ⟨⟨kind, flags, branches, pieces⟩, outer, _, _, _, _, _, _⟩ := r
  subst hkind hflags houter
  cases caseSensitive <;> exact ⟨_, rfl⟩

/-- The group of the text is opened, unless its name was taken. -/
theorem advance_stopOpening (hflags : r.inner.flags = Vocabulary.flags caseSensitive)
    (houter : r.outer = []) (rest : Text) :
    r.advance (.char '(') (stopOpening.tail ++ rest) =
      if (r.names.lookup Tag.textGroup).isSome then .error .duplicateGroupName
      else .ok ({ r with
        inner := { kind := .capture (r.groupCount + 1), flags := Vocabulary.flags caseSensitive }
        outer := [r.inner]
        groupCount := r.groupCount + 1
        names := (Tag.textGroup, r.groupCount + 1) :: r.names }, rest) := by
  obtain ⟨⟨kind, flags, branches, pieces⟩, outer, _, _, _, _, _, _⟩ := r
  subst hflags houter
  cases caseSensitive
  all_goals
    change Except.map _ (if (List.lookup Tag.textGroup _).isSome then _ else _) = _
    split <;> rfl

/-- The reader goes through the text to the end of the frame. -/
theorem run_stopBack {group : Nat} {pieces : List Piece}
    (hinner : r.inner = { kind := .capture group, flags := Vocabulary.flags caseSensitive })
    (houter : r.outer = [{ kind := .whole, flags := Vocabulary.flags caseSensitive, pieces }])
    (fuel : Nat) :
    ∃ widths, Reader.run (fuel + 26) r stopBack = .ok
      { r with
        inner :=
          { kind := .whole, flags := Vocabulary.flags caseSensitive
            pieces := backPieces group ++ pieces }
        outer := [], widths } := by
  obtain ⟨⟨kind, flags, branches, pieces⟩, outer, _, _, _, _, _, _⟩ := r
  cases hinner
  cases houter
  cases caseSensitive <;> exact ⟨_, rfl⟩

theorem of_run_stopBack {read : Reader} {group : Nat} {pieces : List Piece}
    (h : Reader.run (fuel + 26) r stopBack = .ok read)
    (hinner : r.inner = { kind := .capture group, flags := Vocabulary.flags caseSensitive })
    (houter : r.outer = [{ kind := .whole, flags := Vocabulary.flags caseSensitive, pieces }]) :
    read.inner.piece.regex = Piece.branchRegex (backPieces group ++ pieces) ∧
      read.names = r.names := by
  obtain ⟨widths, hback⟩ := run_stopBack hinner houter fuel
  rw [hback] at h
  cases h
  exact ⟨rfl, rfl⟩

/-- A pattern that was read is what the whole group makes of its pieces. -/
theorem of_finish {pattern : Pattern} (h : r.finish = .ok pattern) :
    pattern.regex = r.inner.piece.regex ∧ pattern.names = r.names := by
  unfold Reader.finish at h
  split at h
  · cases h
  · split at h
    · cases h
    · split at h
      · cases h
      · cases h
        exact ⟨rfl, rfl⟩

/-- What is read if the end of the frame is reached within the group of the tag. -/
theorem of_run_frameStop (hkind : r.inner.kind = .capture 2)
    (hflags : r.inner.flags = Vocabulary.flags caseSensitive)
    (houter : r.outer = (tagReader (Vocabulary.flags caseSensitive) []).outer) {pattern : Pattern}
    (h : (Reader.run (fuel + 37) r Tag.frameStop >>= Reader.finish) = .ok pattern) :
    pattern.regex = regexAs r.inner.piece.regex (r.groupCount + 1) ∧
      pattern.names = (Tag.textGroup, r.groupCount + 1) :: r.names := by
  obtain ⟨widths, hfront⟩ := run_stopFront hkind hflags houter (fuel + 27) stopBack
  have hopening : stopOpening ++ stopBack = .char '(' :: (stopOpening.tail ++ stopBack) := rfl
  rw [frameStop_split, hfront, hopening, Reader.run, advance_stopOpening rfl rfl] at h
  split at h
  · cases h
  · -- The text has a group of its own, and the end of the frame closes it.
    obtain ⟨read, hread, hfinish⟩ := exists_of_bind h
    obtain ⟨found, hfound, hrun⟩ := exists_of_bind hread
    cases hfound
    obtain ⟨hregex, hnames⟩ := of_run_stopBack hrun rfl rfl
    obtain ⟨hpattern, hgroups⟩ := of_finish hfinish
    exact ⟨hpattern.trans hregex, hgroups.trans hnames⟩

/-! ## Bodies -/

/-- Reads on to the end of a body; there is nothing if a fault is met or the group is left in which
the body stands. -/
def readBody : (fuel : Nat) → Reader → Text → Option Reader
  | 0, r, text => if text = Tag.frameStop then some r else none
  | fuel + 1, r, text =>
    if text = Tag.frameStop then some r
    else match text with
      | [] => none
      | p :: rest =>
        match r.advance p rest with
        | .ok (next, left) => if next.outer.isEmpty then none else readBody fuel next left
        | .error _ => none

/-- Whether a body stays in the group that the frame opens for it, and leaves none open itself. -/
def isContained (caseSensitive : Bool) (body : Text) : Bool :=
  (readBody body.length (tagReader (Vocabulary.flags caseSensitive) []) (body ++ Tag.frameStop)).any
    fun r => r.outer.length == 1

/-- Reading the frame goes the same way up to the end of the body. -/
theorem exists_run (h : readBody fuel r text = some next) :
    ∃ spare, ∀ extra, Reader.run (extra + fuel) r text =
      Reader.run (extra + spare) next Tag.frameStop := by
  induction fuel generalizing r text with
  | zero =>
      unfold readBody at h
      split at h
      · cases h
        subst text
        exact ⟨0, fun _ => rfl⟩
      · cases h
  | succ fuel ih =>
      unfold readBody at h
      split at h
      · cases h
        subst text
        exact ⟨fuel + 1, fun _ => rfl⟩
      · split at h
        · cases h
        · rename_i p rest _
          split at h
          · rename_i read left hadvance
            split at h
            · cases h
            · obtain ⟨spare, hspare⟩ := ih h
              refine ⟨spare, fun extra => ?_⟩
              rw [← hspare, ← Nat.add_assoc, Reader.run, hadvance]
              rfl
          · cases h

/-- The open groups while the body of a tag is read: that of the tag, and groups within it; none of
them remembers what that of the tag takes. -/
inductive Stack (caseSensitive : Bool) : List OpenGroup → Prop
  | tag {g : OpenGroup} (avoids : g.Avoids 2) (kind : g.kind = .capture 2)
      (flags : g.flags = Vocabulary.flags caseSensitive) :
      Stack caseSensitive (g :: (tagReader (Vocabulary.flags caseSensitive) []).outer)
  | within {g : OpenGroup} {around : List OpenGroup} (avoids : g.Avoids 2)
      (kind : g.kind ≠ .capture 2)
      (rest : Stack caseSensitive around) : Stack caseSensitive (g :: around)

/-- The innermost group may grow. -/
theorem Stack.grows {g grown : OpenGroup} {around : List OpenGroup}
    (h : Stack caseSensitive (g :: around)) (hg : g.Grows 2 grown) :
    Stack caseSensitive (grown :: around) := by
  cases h with
  | tag avoids kind flags =>
      exact .tag (hg.avoids avoids) (hg.kind.trans kind) (hg.flags.trans flags)
  | within avoids kind rest =>
      exact .within (hg.avoids avoids) (fun h => kind (hg.kind.symm.trans h)) rest

/-- A group that is not the last but one is not that of the tag. -/
theorem Stack.around {g around : OpenGroup} {rest : List OpenGroup}
    (h : Stack caseSensitive (g :: around :: rest)) (hne : rest ≠ []) :
    g.Avoids 2 ∧ g.kind ≠ .capture 2 ∧ Stack caseSensitive (around :: rest) := by
  cases h with
  | tag => exact absurd rfl hne
  | within avoids kind rest => exact ⟨avoids, kind, rest⟩

/-- The group of the tag has at least one group around it. -/
theorem Stack.two_le_length {groups : List OpenGroup} (h : Stack caseSensitive groups) :
    2 ≤ groups.length := by
  induction h with
  | tag avoids kind flags => exact Nat.le_refl 2
  | within avoids kind rest ih => exact Nat.le_succ_of_le ih

/-- The reader is within the group of the tag, perhaps in groups of the tag's body. -/
structure Within (caseSensitive : Bool) (r : Reader) : Prop where
  groups : Stack caseSensitive (r.inner :: r.outer)
  groupCount : 2 ≤ r.groupCount
  tag : r.names.lookup Tag.tagGroup = some 2

/-- Where the body of a tag begins, the reader is within its group. -/
theorem within_tagReader (caseSensitive : Bool) :
    Within caseSensitive (tagReader (Vocabulary.flags caseSensitive) []) where
  groups := .tag Reader.avoids_opened rfl rfl
  groupCount := Nat.le_refl 2
  tag := by cases caseSensitive <;> decide +kernel

/-- A step that does not leave the group of the tag stays within it. -/
theorem Within.moves (h : Within caseSensitive r) (hmoves : Moves 2 r next)
    (hne : next.outer ≠ []) : Within caseSensitive next := by
  refine ⟨?_, Nat.le_trans h.groupCount hmoves.groupCount, hmoves.names _ _ h.tag⟩
  have hgroups := h.groups
  cases hmoves.step with
  | stays hinner houter => exact houter ▸ hgroups.grows hinner
  | opens houter hinner hkind => exact houter ▸ .within hinner hkind hgroups
  | closes houter hinner =>
      rw [houter] at hgroups
      obtain ⟨havoids, hkind, hrest⟩ := hgroups.around hne
      exact hrest.grows (hinner havoids hkind)

/-- So the reader is within it at the end of a body that it reads without leaving it. -/
theorem Within.readBody (h : Within caseSensitive r) (hread : readBody fuel r text = some next) :
    Within caseSensitive next := by
  induction fuel generalizing r text with
  | zero =>
      unfold Frame.readBody at hread
      split at hread
      · cases hread
        exact h
      · cases hread
  | succ fuel ih =>
      unfold Frame.readBody at hread
      split at hread
      · cases hread
        exact h
      · split at hread
        · cases hread
        · split at hread
          · rename_i hadvance
            split at hread
            · cases hread
            · rename_i hne
              exact ih (h.moves (moves_advance hadvance h.groupCount) (by simpa using hne)) hread
          · cases hread

/-- At the end of a contained body the reader is in the group of the tag. -/
theorem exists_read {body : Text} (h : isContained caseSensitive body = true) :
    ∃ r, readBody body.length (tagReader (Vocabulary.flags caseSensitive) [])
        (body ++ Tag.frameStop) = some r ∧ Within caseSensitive r ∧ r.inner.Avoids 2 ∧
      r.inner.kind = .capture 2 ∧ r.inner.flags = Vocabulary.flags caseSensitive ∧
      r.outer = (tagReader (Vocabulary.flags caseSensitive) []).outer := by
  obtain ⟨r, hread, hlength⟩ := (Option.any_eq_true _ _).1 h
  have hwithin := (within_tagReader caseSensitive).readBody hread
  have hgroups := hwithin.groups
  refine ⟨r, hread, hwithin, ?_⟩
  rw [beq_iff_eq] at hlength
  generalize r.inner = inner at hgroups ⊢
  generalize r.outer = outer at hgroups hlength ⊢
  cases hgroups with
  | tag avoids kind flags => exact ⟨avoids, kind, flags, rfl⟩
  | within avoids kind rest => exact absurd rest.two_le_length (by omega)

/-- **The pattern of a contained body** is the frame, with the body in the group of the tag. -/
theorem of_read_frame {body : Text} {pattern : Pattern} (h : isContained caseSensitive body = true)
    (hread : Pattern.read (Vocabulary.flags caseSensitive) (Tag.frame body) = .ok pattern) :
    ∃ tag group, tag.avoids 2 = true ∧ 2 < group ∧ pattern.regex = regexAs tag group ∧
      pattern.names.lookup Tag.tagGroup = some 2 ∧
      pattern.names.lookup Tag.textGroup = some group := by
  obtain ⟨r, hbody, hwithin, havoids, hkind, hflags, houter⟩ := exists_read h
  obtain ⟨spare, hspare⟩ := exists_run hbody
  have hfuel : body.length + 106 = 106 + body.length := Nat.add_comm _ _
  have hspare' : 106 + spare = spare + 69 + 37 := by omega
  rw [read_frame, hfuel, hspare, hspare'] at hread
  obtain ⟨hregex, hnames⟩ := of_run_frameStop hkind hflags houter hread
  refine ⟨r.inner.piece.regex, r.groupCount + 1, havoids.piece,
    Nat.lt_succ_of_le hwithin.groupCount, hregex, ?_, ?_⟩
  · rw [hnames, List.lookup_cons]
    have hne : (Tag.tagGroup == Tag.textGroup) = false := by decide +kernel
    rw [hne]
    exact hwithin.tag
  · rw [hnames, List.lookup_cons_self]

/-! ## Literal bodies -/

/-- A piece of the body is read, and reading goes on. -/
theorem readBody_step {p : CodePoint} {rest left : Text} (hne : p :: rest ≠ Tag.frameStop)
    (h : r.advance p rest = .ok (next, left)) (houter : next.outer ≠ []) (fuel : Nat) :
    readBody (fuel + 1) r (p :: rest) = readBody fuel next left := by
  rw [readBody, if_neg hne]
  simp only [h, List.isEmpty_iff, houter, if_false]

/-- A name that was made literal is read letter by letter. -/
theorem exists_readBody_escape (name : Text) (pieces : List Piece) (fuel : Nat)
    (h : name.length ≤ fuel) :
    ∃ read, readBody fuel (tagReader (Vocabulary.flags caseSensitive) pieces)
        (Tag.escape name ++ Tag.frameStop) =
      some (tagReader (Vocabulary.flags caseSensitive) read) := by
  induction name generalizing pieces fuel with
  | nil =>
      refine ⟨pieces, ?_⟩
      cases fuel <;> exact if_pos rfl
  | cons p name ih =>
      obtain ⟨fuel, rfl⟩ : ∃ more, fuel = more + 1 := ⟨fuel - 1, by simp at h; omega⟩
      -- One step takes the letter, with its backslash if it has one.
      let r := tagReader (Vocabulary.flags caseSensitive) pieces
      let next := tagReader (Vocabulary.flags caseSensitive)
        (Piece.ofLetter (Vocabulary.flags caseSensitive) p.code :: pieces)
      have houter : next.outer ≠ [] := List.cons_ne_nil _ _
      have hlonger (front : Text) (hfront : front ≠ []) :
          front ++ (Tag.escape name ++ Tag.frameStop) ≠ Tag.frameStop := by
        intro heq
        have hlength := congrArg List.length heq
        have := List.length_pos_iff.2 hfront
        simp only [List.length_append] at hlength
        omega
      have hstep : readBody (fuel + 1) r (Tag.escape (p :: name) ++ Tag.frameStop) =
          readBody fuel next (Tag.escape name ++ Tag.frameStop) := by
        have hescape : Tag.escape (p :: name) ++ Tag.frameStop =
            (if Tag.special.contains p then [.char '\\', p] else [p]) ++
              (Tag.escape name ++ Tag.frameStop) := by
          simp [Tag.escape]
        rw [hescape]
        by_cases hp : p ∈ Tag.special
        · have hadvance := advance_special (r := r) rfl hp (Tag.escape name ++ Tag.frameStop)
          rw [if_pos (List.contains_iff_mem.2 hp)]
          exact readBody_step (hlonger [.char '\\', p] (List.cons_ne_nil _ _)) hadvance houter fuel
        · have hadvance := Reader.advance_letter (r := r) rfl (fun hm => hp (marks_special p hm))
            (Tag.escape name ++ Tag.frameStop)
          rw [if_neg (by simpa using hp)]
          exact readBody_step (hlonger [p] (List.cons_ne_nil _ _)) hadvance houter fuel
      rw [hstep]
      exact ih _ fuel (by simpa using h)

/-- The body of a plain tag is contained. -/
theorem isContained_escape (caseSensitive : Bool) (name : Text) :
    isContained caseSensitive (Tag.escape name) = true := by
  obtain ⟨read, hread⟩ := @exists_readBody_escape caseSensitive name []
    (Tag.escape name).length (length_le_escape name)
  rw [isContained, hread]
  rfl

end Frame

end Marginalia
