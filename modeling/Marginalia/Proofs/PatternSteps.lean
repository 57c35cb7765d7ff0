import Marginalia.Proofs.Onward
import Marginalia.Proofs.Frame
import Marginalia.Proofs.Results

/-!
# Steps of the pattern reader

What one step of the reader can do to the groups that are open: it stays in the innermost group,
opens a group within it, or closes it and goes on in the one around it (`Pattern.Reader.Step`).  No
other group is touched, and the numbers and names of groups are not forgotten
(`Pattern.Reader.Moves`).  There is one lemma for each part of the reader, and
`Pattern.Reader.moves_advance` collects them.

The groups that are opened have new numbers.  So the pieces that are read within a group do not
remember what it takes (`Pattern.OpenGroup.Avoids`).
-/

namespace Marginalia

namespace Regex

variable {group : Nat}

/-- A choice avoids a group if all its items do. -/
theorem avoids_choice {items : List Regex} (h : ∀ r ∈ items, r.avoids group = true) :
    (choice items).avoids group = true := by
  fun_induction choice items with
  | case1 => rfl
  | case2 r => exact h r (List.mem_singleton_self r)
  | case3 r rest _ ih =>
      rw [List.forall_mem_cons] at h
      exact Bool.and_eq_true_iff.2 ⟨h.1, ih h.2⟩

end Regex

namespace Pattern

variable {n : Nat} {flags : Flags}

namespace Piece

/-- So does a branch, if all its pieces do, whatever is taken out of its front. -/
theorem avoids_branchRegex {pieces : List Piece}
    (h : ∀ piece ∈ pieces, piece.regex.avoids n = true) : (branchRegex pieces).avoids n = true := by
  refine Regex.avoids_ofList.2 fun r hr => ?_
  obtain ⟨piece, hpiece, rfl⟩ := List.mem_map.1 hr
  exact h piece (List.mem_reverse.1 hpiece)

/-- The pieces that all branches begin with, and those that are left, were in the branches. -/
theorem of_sharedFront {first : List Piece} {others : List (List Piece)} (P : Piece → Prop)
    (hfirst : ∀ piece ∈ first, P piece) (hothers : ∀ branch ∈ others, ∀ piece ∈ branch, P piece) :
    (∀ piece ∈ (sharedFront first others).1, P piece) ∧
      ∀ branch ∈ (sharedFront first others).2, ∀ piece ∈ branch, P piece := by
  induction first generalizing others with
  | nil =>
      refine ⟨fun _ h => (nomatch h), fun branch hbranch => ?_⟩
      rcases List.mem_cons.1 hbranch with rfl | hbranch
      · exact fun _ h => (nomatch h)
      · exact hothers branch hbranch
  | cons piece pieces ih =>
      rw [List.forall_mem_cons] at hfirst
      unfold sharedFront
      split
      · have htails : ∀ branch ∈ others.map List.tail, ∀ piece ∈ branch, P piece := by
          intro branch hbranch piece hpiece
          obtain ⟨whole, hwhole, rfl⟩ := List.mem_map.1 hbranch
          exact hothers whole hwhole piece (List.mem_of_mem_tail hpiece)
        obtain ⟨hfront, hrests⟩ := ih hfirst.2 htails
        exact ⟨List.forall_mem_cons.2 ⟨hfirst.1, hfront⟩, hrests⟩
      · refine ⟨fun _ h => (nomatch h), fun branch hbranch => ?_⟩
        rcases List.mem_cons.1 hbranch with rfl | hbranch
        · exact List.forall_mem_cons.2 hfirst
        · exact hothers branch hbranch

/-- A choice of branches avoids a group if all their pieces do. -/
theorem avoids_choice {branches : List (List Piece)}
    (h : ∀ branch ∈ branches, ∀ piece ∈ branch, piece.regex.avoids n = true) :
    (choice flags branches).regex.avoids n = true := by
  unfold choice
  split
  · rfl
  · refine Regex.avoids_choice fun r hr => ?_
    obtain ⟨branch, hbranch, rfl⟩ := List.mem_map.1 hr
    refine Regex.avoids_ofList.2 fun r hr => ?_
    obtain ⟨piece, hpiece, rfl⟩ := List.mem_map.1 hr
    exact h branch hbranch piece hpiece

end Piece

namespace OpenGroup

/-- No piece of a group remembers what the group of a number takes. -/
def Avoids (n : Nat) (g : OpenGroup) : Prop :=
  ∀ branch ∈ g.allBranches, ∀ piece ∈ branch, piece.regex.avoids n = true

/-- A group goes on, with more pieces or a further branch. -/
structure Grows (n : Nat) (g next : OpenGroup) : Prop where
  kind : next.kind = g.kind
  flags : next.flags = g.flags
  avoids : g.Avoids n → next.Avoids n

theorem Grows.refl (n : Nat) (g : OpenGroup) : Grows n g g := ⟨rfl, rfl, id⟩

variable {g : OpenGroup}

/-- The branches of a group are those that were ended and the one being read. -/
theorem mem_allBranches {branch : List Piece} :
    branch ∈ g.allBranches ↔ branch = g.pieces ∨ branch ∈ g.branches := by
  simp [allBranches, or_comm]

/-- A piece that avoids the group is added to the branch being read. -/
theorem grows_push {piece : Piece} (h : piece.regex.avoids n = true) :
    Grows n g { g with pieces := piece :: g.pieces } where
  kind := rfl
  flags := rfl
  avoids hg branch hbranch := by
    rcases mem_allBranches.1 hbranch with rfl | hbranch
    · exact List.forall_mem_cons.2 ⟨h, hg _ (mem_allBranches.2 (.inl rfl))⟩
    · exact hg branch (mem_allBranches.2 (.inr hbranch))

/-- The last piece is replaced by one that remembers no more. -/
theorem grows_replace {piece other : Piece} {pieces : List Piece}
    (hpieces : g.pieces = piece :: pieces)
    (h : piece.regex.avoids n = true → other.regex.avoids n = true) :
    Grows n g { g with pieces := other :: pieces } where
  kind := rfl
  flags := rfl
  avoids hg branch hbranch := by
    rcases mem_allBranches.1 hbranch with rfl | hbranch
    · have hall := hg _ (mem_allBranches.2 (.inl rfl))
      rw [hpieces, List.forall_mem_cons] at hall
      exact List.forall_mem_cons.2 ⟨h hall.1, hall.2⟩
    · exact hg branch (mem_allBranches.2 (.inr hbranch))

/-- The branch being read is ended, and an empty one begins. -/
theorem grows_branch : Grows n g { g with branches := g.pieces :: g.branches, pieces := [] } where
  kind := rfl
  flags := rfl
  avoids hg branch hbranch := by
    rcases mem_allBranches.1 hbranch with rfl | hbranch
    · exact fun _ h => (nomatch h)
    · exact hg branch (mem_allBranches.2 (List.mem_cons.1 hbranch))

/-- What a group makes of its pieces remembers no more than they do. -/
theorem Avoids.piece (h : g.Avoids n) : g.piece.regex.avoids n = true := by
  unfold Avoids at h
  unfold OpenGroup.piece
  split
  · rfl
  · rename_i pieces hall
    rw [hall, List.forall_mem_singleton] at h
    exact Piece.avoids_branchRegex h
  · rename_i first others _ hall
    rw [hall, List.forall_mem_cons] at h
    have hfirst : ∀ piece ∈ first.reverse, piece.regex.avoids n = true := fun piece hpiece =>
      h.1 piece (List.mem_reverse.1 hpiece)
    have hothers : ∀ branch ∈ others.map List.reverse, ∀ piece ∈ branch,
        piece.regex.avoids n = true := by
      intro branch hbranch piece hpiece
      obtain ⟨whole, hwhole, rfl⟩ := List.mem_map.1 hbranch
      exact h.2 whole hwhole piece (List.mem_reverse.1 hpiece)
    obtain ⟨hfront, hrests⟩ := Piece.of_sharedFront _ hfirst hothers
    split
    · rename_i branches hshared
      rw [hshared] at hrests
      exact Piece.avoids_choice hrests
    · rename_i front branches _ hshared
      rw [hshared] at hfront hrests
      refine Regex.avoids_ofList.2 fun r hr => ?_
      rcases List.mem_append.1 hr with hr | hr
      · obtain ⟨piece, hpiece, rfl⟩ := List.mem_map.1 hr
        exact hfront piece hpiece
      · rw [List.mem_singleton.1 hr]
        exact Piece.avoids_choice hrests

end OpenGroup

namespace Reader

/-- What a step of the reader does to the groups that are open; `n` is the number of a group that
was opened before. -/
inductive Step (n : Nat) (r next : Reader) : Prop
  | stays (inner : r.inner.Grows n next.inner) (outer : next.outer = r.outer)
  | opens (outer : next.outer = r.inner :: r.outer) (inner : next.inner.Avoids n)
      (kind : next.inner.kind ≠ .capture n)
  | closes {around : OpenGroup} (outer : r.outer = around :: next.outer)
      (inner : r.inner.Avoids n → r.inner.kind ≠ .capture n → around.Grows n next.inner)

/-- A step, with which nothing is forgotten of the numbers and the names of groups. -/
structure Moves (n : Nat) (r next : Reader) : Prop where
  step : Step n r next
  groupCount : r.groupCount ≤ next.groupCount
  names : ∀ name g, r.names.lookup name = some g → next.names.lookup name = some g

variable {r next : Reader} {rest left : Text}

/-- The reader adds a piece that avoids the group. -/
theorem moves_push {piece : Piece} (h : piece.regex.avoids n = true) : Moves n r (r.push piece) :=
  ⟨.stays (OpenGroup.grows_push h) rfl, Nat.le_refl _, fun _ _ h => h⟩

theorem moves_self : Moves n r r := ⟨.stays (.refl n r.inner) rfl, Nat.le_refl _, fun _ _ h => h⟩

/-- A group that has just been opened holds nothing. -/
theorem avoids_opened {kind : GroupKind} : ({ kind, flags } : OpenGroup).Avoids n := by
  rintro branch hbranch piece hpiece
  rcases OpenGroup.mem_allBranches.1 hbranch with rfl | hbranch
  · cases hpiece
  · cases hbranch

/-- What is known of the reader after a group was opened. -/
theorem openGroup_eq_ok {kind : GroupKind} (h : r.openGroup kind flags = .ok next) :
    next = { r with inner := { kind, flags }, outer := r.inner :: r.outer } := by
  unfold openGroup at h
  split at h
  · cases h
  · cases h
    rfl

/-- Another group than the one in question is opened around nothing. -/
theorem moves_openGroup {kind : GroupKind} (h : r.openGroup kind flags = .ok next)
    (hkind : kind ≠ .capture n) : Moves n r next := by
  obtain rfl := openGroup_eq_ok h
  exact ⟨.opens rfl avoids_opened hkind, Nat.le_refl _, fun _ _ h => h⟩

/-- A capturing group that is opened has a number that was not given before. -/
theorem moves_openCapture {name? : Option Text} (h : r.openCapture name? = .ok next)
    (hn : n ≤ r.groupCount) : Moves n r next := by
  have hkind : GroupKind.capture (r.groupCount + 1) ≠ .capture n := by
    intro heq
    cases heq
    omega
  unfold openCapture at h
  cases name? with
  | none =>
      obtain rfl := openGroup_eq_ok h
      exact ⟨.opens rfl avoids_opened hkind, Nat.le_succ _, fun _ _ h => h⟩
  | some name =>
      dsimp only at h
      split at h
      · cases h
      · rename_i hnew
        obtain rfl := openGroup_eq_ok h
        refine ⟨.opens rfl avoids_opened hkind, Nat.le_succ _, fun other g hg => ?_⟩
        have hne : (other == name) = false := by
          rw [beq_eq_false_iff_ne]
          rintro rfl
          exact hnew (hg ▸ rfl)
        rw [List.lookup_cons, hne]
        exact hg

/-- A group is closed, and what it holds becomes a piece of the group around it. -/
theorem moves_close (h : r.close = .ok next) : Moves n r next := by
  unfold close at h
  split at h
  · cases h
  · rename_i around outer houter
    -- Each kind of group pushes one piece onto the group around it.
    have hpush {piece : Piece} {s : Reader} (hinner : s.inner = around) (hout : s.outer = outer)
        (hcount : s.groupCount = r.groupCount) (hnames : s.names = r.names)
        (hpiece : r.inner.Avoids n → r.inner.kind ≠ .capture n → piece.regex.avoids n = true) :
        Moves n r (s.push piece) := by
      refine ⟨@Step.closes _ _ _ around (houter.trans ?_) fun havoids hkind => ?_, ?_, ?_⟩
      · exact congrArg _ hout.symm
      · subst hinner
        exact OpenGroup.grows_push (hpiece havoids hkind)
      · exact Nat.le_of_eq hcount.symm
      · intro name g hg
        exact hnames ▸ hg
    dsimp only at h
    split at h
    · cases h
    · cases h
      exact hpush rfl rfl rfl rfl fun havoids _ => Bool.and_eq_true_iff.2 ⟨havoids.piece, rfl⟩
    · split at h
      · rename_i piece hall
        cases h
        refine hpush rfl rfl rfl rfl fun havoids _ => ?_
        exact havoids [piece] (hall ▸ List.mem_singleton_self _) piece (List.mem_singleton_self _)
      · cases h
        exact hpush rfl rfl rfl rfl fun havoids _ => havoids.piece
    · rename_i group hkind
      cases h
      refine hpush rfl rfl rfl rfl fun havoids hne => Bool.and_eq_true_iff.2 ⟨?_, havoids.piece⟩
      rw [bne_iff_ne]
      rintro rfl
      exact hne hkind
    · cases h
      exact hpush rfl rfl rfl rfl fun havoids _ => havoids.piece
    · cases h
      exact hpush rfl rfl rfl rfl fun havoids _ => havoids.piece
    · cases h
      exact hpush rfl rfl rfl rfl fun havoids _ => havoids.piece
    · split at h
      · rename_i yes no hall
        cases h
        refine hpush rfl rfl rfl rfl fun havoids _ => Bool.and_eq_true_iff.2 ⟨?_, ?_⟩
        · exact Piece.avoids_branchRegex (havoids yes (by simp [hall]))
        · exact Piece.avoids_branchRegex (havoids no (by simp [hall]))
      · cases h
        refine hpush rfl rfl rfl rfl fun havoids _ => Bool.and_eq_true_iff.2 ⟨?_, rfl⟩
        exact Piece.avoids_branchRegex (havoids _ (OpenGroup.mem_allBranches.2 (.inl rfl)))

/-- A bar begins a new branch of the group being read. -/
theorem moves_nextBranch (h : r.nextBranch = .ok next) : Moves n r next := by
  have hnext : Moves n r { r with inner :=
      { r.inner with branches := r.inner.pieces :: r.inner.branches, pieces := [] } } :=
    ⟨.stays OpenGroup.grows_branch rfl, Nat.le_refl _, fun _ _ h => h⟩
  unfold nextBranch at h
  split at h
  · split at h
    · cases h
      exact hnext
    · cases h
  · cases h
    exact hnext

/-- An escape never makes the group itself. -/
theorem moves_pushEscape {escape : Escape} (h : r.pushEscape escape = .ok next) :
    Moves n r next := by
  unfold pushEscape at h
  split at h
  · cases h
    exact moves_push rfl
  · cases h
    exact moves_push rfl
  · cases h
    exact moves_push rfl
  · split at h
    · cases h
    · obtain ⟨-, -, rfl⟩ := exists_of_map h
      exact moves_push rfl

/-- To repeat a piece that avoids the group avoids it too. -/
theorem moves_repeatLast {least : Nat} {most : Option Nat}
    (h : r.repeatLast least most rest = .ok (next, left)) : Moves n r next := by
  unfold repeatLast at h
  split at h
  · cases h
  · rename_i piece pieces hpieces
    split at h
    · cases h
    · cases h
      exact ⟨.stays (OpenGroup.grows_replace hpieces id) rfl, Nat.le_refl _, fun _ _ h => h⟩

/-- A condition is about a group, but it does not hold it. -/
theorem moves_openCondition {name : Text} (h : r.openCondition name = .ok next) :
    Moves n r next := by
  have hopen {group : Nat} {mentioned : List Nat}
      (h : ({ r with mentioned }.openGroup (.ifGroup group) r.flags) = .ok next) :
        Moves n r next := by
    obtain rfl := openGroup_eq_ok h
    exact ⟨.opens rfl avoids_opened GroupKind.noConfusion, Nat.le_refl _, fun _ _ h => h⟩
  have hchecked {group : Nat} {mentioned : List Nat}
      (h : (if r.behind.isSome then
          r.checkReference group >>= fun _ =>
            { r with mentioned }.openGroup (.ifGroup group) r.flags
        else { r with mentioned }.openGroup (.ifGroup group) r.flags) = .ok next) :
          Moves n r next := by
    split at h
    · obtain ⟨-, -, h⟩ := exists_of_bind h
      exact hopen h
    · exact hopen h
  unfold openCondition at h
  dsimp only at h
  split at h
  · split at h
    · exact hchecked h
    · cases h
  · split at h
    · cases h
    · cases h
    · split at h
      · cases h
      · exact hchecked h

/-- A look behind is opened around nothing. -/
theorem moves_openBehind {negated : Bool} (h : readOpening.openBehind r negated = .ok next) :
    Moves n r next := by
  obtain rfl := openGroup_eq_ok h
  exact ⟨.opens rfl avoids_opened GroupKind.noConfusion, Nat.le_refl _, fun _ _ h => h⟩

/-- Whatever follows a parenthesis, the group in question is not opened again. -/
theorem moves_readOpening (h : r.readOpening rest = .ok (next, left)) (hn : n ≤ r.groupCount) :
    Moves n r next := by
  have hopen {kind : GroupKind} {flags : Flags} {text : Text}
      (h : (r.openGroup kind flags).map (·, text) = .ok (next, left)) (hkind : kind ≠ .capture n) :
      Moves n r next := by
    obtain ⟨found, hfound, heq⟩ := exists_of_map h
    cases heq
    exact moves_openGroup hfound hkind
  have hcapture {name? : Option Text} {text : Text}
      (h : (r.openCapture name?).map (·, text) = .ok (next, left)) : Moves n r next := by
    obtain ⟨found, hfound, heq⟩ := exists_of_map h
    cases heq
    exact moves_openCapture hfound hn
  have hbehind {negated : Bool} {text : Text}
      (h : (readOpening.openBehind r negated).map (·, text) = .ok (next, left)) :
        Moves n r next := by
    obtain ⟨found, hfound, heq⟩ := exists_of_map h
    cases heq
    exact moves_openBehind hfound
  unfold readOpening at h
  split at h
  · obtain ⟨⟨name, after⟩, -, h⟩ := exists_of_bind h
    dsimp only at h
    split at h
    · exact hcapture h
    · cases h
  · obtain ⟨⟨name, after⟩, -, h⟩ := exists_of_bind h
    dsimp only at h
    split at h
    · split at h
      · cases h
      · obtain ⟨-, -, heq⟩ := exists_of_map h
        cases heq
        exact moves_push rfl
    · cases h
  · exact hopen h GroupKind.noConfusion
  · obtain ⟨after, hafter, heq⟩ := exists_of_map h
    cases heq
    exact moves_self
  · exact hopen h GroupKind.noConfusion
  · exact hopen h GroupKind.noConfusion
  · exact hbehind h
  · exact hbehind h
  · obtain ⟨⟨name, after⟩, -, h⟩ := exists_of_bind h
    obtain ⟨found, hfound, heq⟩ := exists_of_map h
    cases heq
    exact moves_openCondition hfound
  · exact hopen h GroupKind.noConfusion
  · obtain ⟨⟨⟨on, off⟩, after⟩, -, h⟩ := exists_of_bind h
    exact hopen h GroupKind.noConfusion
  · exact hcapture h

/-- **One step of the reader.**  What it does to the open groups. -/
theorem moves_advance {p : CodePoint} (h : r.advance p rest = .ok (next, left))
    (hn : n ≤ r.groupCount) : Moves n r next := by
  have hpush {piece : Piece} {text : Text}
      (h : .ok (r.push piece, text) = (.ok (next, left) : Except Fault _))
      (hpiece : piece.regex.avoids n = true) : Moves n r next := by
    cases h
    exact moves_push hpiece
  unfold advance at h
  split at h
  · cases h
    exact moves_self
  · split at h
    · split at h
      · cases h
      · obtain ⟨⟨escape, after⟩, -, h⟩ := exists_of_bind h
        obtain ⟨found, hfound, heq⟩ := exists_of_map h
        cases heq
        exact moves_pushEscape hfound
    · obtain ⟨found, hfound, heq⟩ := exists_of_map h
      cases heq
      exact moves_nextBranch hfound
    · obtain ⟨found, hfound, heq⟩ := exists_of_map h
      cases heq
      exact moves_close hfound
    · exact moves_readOpening h hn
    · obtain ⟨⟨items, after⟩, -, heq⟩ := exists_of_map h
      cases heq
      exact moves_push rfl
    · refine hpush h ?_
      split <;> rfl
    · exact hpush h rfl
    · exact hpush h rfl
    · exact moves_repeatLast h
    · exact moves_repeatLast h
    · exact moves_repeatLast h
    · obtain ⟨counts?, -, h⟩ := exists_of_bind h
      split at h
      · exact moves_repeatLast h
      · exact hpush h rfl
    · split at h
      · cases h
        exact moves_self
      · exact hpush h rfl
    · exact hpush h rfl

end Reader

end Pattern

end Marginalia
