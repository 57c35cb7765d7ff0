import Mathlib.Data.List.Forall2
import Marginalia.View

/-!
# What is shown of an index

Before entries are shown, the notes of hidden tags are left out, notes that are done are put last if
that is wanted, and the files get their marks.  `View.render_filters_and_arranges` says that nothing
else happens to the entries, and that the order of these steps does not matter.

What it means to arrange notes is said without a way to do it (`View.Arranged`): no note is lost or
added, what is not done comes before what is done, lines ascend among each of the two, and notes
that do not differ in this keep the order they had.  Notes can be arranged in one way only
(`View.Arranged.unique`).  Hence leaving out notes of arranged ones is the same as arranging those
that are left, and to arrange twice is to arrange once; nothing has to be known about how the notes
were sorted.
-/

namespace Marginalia

namespace View

variable {options : Options} {doneLast : Bool} {hidden more : List Text} {entry : Entry}
  {entries : List Entry} {notes shown others : List Note}

/-- Whether a note is done or not and in a line, which is all that its place depends on. -/
def Ties (done : Bool) (line : Nat) (note : Note) : Prop := note.done = done ∧ note.line = line

instance (done : Bool) (line : Nat) : DecidablePred (Ties done line) := by
  intro note
  unfold Ties
  infer_instance

/-- Notes in the order in which they are to be shown. -/
structure Arranged (doneLast : Bool) (notes shown : List Note) : Prop where
  perm : shown.Perm notes
  inOrder : doneLast = false → shown = notes
  doneAfter : doneLast = true → shown.Pairwise fun a b => a.done = true → b.done = true
  byLine : doneLast = true → shown.Pairwise fun a b => a.done = b.done → a.line ≤ b.line
  ties : doneLast = true →
    ∀ done line, shown.filter (Ties done line) = notes.filter (Ties done line)

/-- Whether something is left of a file when hidden tags are left out. -/
def Shown (hidden : List Text) (entry : Entry) : Prop := ∃ note ∈ entry.notes, note.tag ∉ hidden

instance (hidden : List Text) : DecidablePred (Shown hidden) := fun entry =>
  decidable_of_iff (entry.notes.any fun note => !hidden.contains note.tag) (by simp [Shown])

/-- The notes whose tags are not hidden. -/
def unhidden (hidden : List Text) (notes : List Note) : List Note :=
  notes.filter fun note => !hidden.contains note.tag

/-- An entry as it is to be shown. -/
structure Renders (options : Options) (entry shown : Entry) : Prop where
  path : shown.path = entry.path
  notes : Arranged options.doneLast (unhidden options.hidden entry.notes) shown.notes
  expanded : shown.expanded = match options.expanded? with
    | some expanded => expanded.contains entry.path
    | none => entry.expanded

/-! ## Notes in order -/

/-- Open notes come first, and among notes that are alike in that, lower lines. -/
theorem doneLastOrder_iff {a b : Note} :
    doneLastOrder a b = true ↔
      (a.done = true → b.done = true) ∧ (a.done = b.done → a.line ≤ b.line) := by
  unfold doneLastOrder
  cases a.done <;> cases b.done <;> simp

/-- Notes that tie are in order, whichever comes first. -/
theorem doneLastOrder_of_ties {done : Bool} {line : Nat} {a b : Note} (ha : Ties done line a)
    (hb : Ties done line b) : doneLastOrder a b = true := by
  apply doneLastOrder_iff.2
  obtain ⟨hda, hla⟩ := ha
  obtain ⟨hdb, hlb⟩ := hb
  refine ⟨fun h => ?_, fun _ => ?_⟩
  · rw [hdb, ← hda, h]
  · omega

/-- Notes that are in order either way tie. -/
theorem ties_of_doneLastOrder {a b : Note} (hab : doneLastOrder a b = true)
    (hba : doneLastOrder b a = true) : Ties a.done a.line b := by
  obtain ⟨hdone, hline⟩ := doneLastOrder_iff.1 hab
  obtain ⟨hdone', hline'⟩ := doneLastOrder_iff.1 hba
  have hd : b.done = a.done := by
    cases ha : a.done <;> cases hb : b.done <;> simp_all
  have hle := hline hd.symm
  have hge := hline' hd
  exact ⟨hd, by omega⟩

/-- Where notes are arranged with those last that are done, each is in order with all that
follow. -/
theorem Arranged.pairwise (h : Arranged true notes shown) :
    shown.Pairwise fun a b => doneLastOrder a b = true := by
  have hboth := (h.doneAfter rfl).and (h.byLine rfl)
  exact hboth.imp fun hab => doneLastOrder_iff.2 hab

/-- Lists in order are the same if notes that tie come in the same order in both. -/
theorem eq_of_ties (hshown : shown.Pairwise fun a b => doneLastOrder a b = true)
    (hothers : others.Pairwise fun a b => doneLastOrder a b = true)
    (h : ∀ done line, shown.filter (Ties done line) = others.filter (Ties done line)) :
    shown = others := by
  induction shown generalizing others with
  | nil =>
      cases others with
      | nil => rfl
      | cons b others =>
          have hb := h b.done b.line
          simp [Ties] at hb
  | cons a shown ih =>
      cases others with
      | nil =>
          have ha := h a.done a.line
          simp [Ties] at ha
      | cons b others =>
          -- Each of the two first notes comes before the other in the other list, so they tie.
          have hmem : ∀ {one two : List Note} {note : Note},
              (∀ done line, one.filter (Ties done line) = two.filter (Ties done line)) →
                note ∈ one → note ∈ two := by
            intro one two note hsame hm
            have hin : note ∈ one.filter (Ties note.done note.line) :=
              List.mem_filter.2 ⟨hm, by simp [Ties]⟩
            rw [hsame] at hin
            exact (List.mem_filter.1 hin).1
          have hbefore : ∀ {first note : Note} {rest : List Note},
              (first :: rest).Pairwise (fun a b => doneLastOrder a b = true) →
                note ∈ first :: rest → doneLastOrder first note = true := by
            intro first note rest hpair hm
            rcases List.mem_cons.1 hm with rfl | hm
            · exact doneLastOrder_of_ties ⟨rfl, rfl⟩ ⟨rfl, rfl⟩
            · exact (List.pairwise_cons.1 hpair).1 note hm
          have hab := hbefore hshown (hmem (fun d l => (h d l).symm) List.mem_cons_self)
          have hba := hbefore hothers (hmem h List.mem_cons_self)
          have htie : Ties a.done a.line b := ties_of_doneLastOrder hab hba
          have hfirst := h a.done a.line
          rw [List.filter_cons_of_pos (by simp [Ties]),
            List.filter_cons_of_pos (by simpa using htie), List.cons.injEq] at hfirst
          obtain ⟨rfl, -⟩ := hfirst
          congr 1
          apply ih hshown.tail hothers.tail
          intro done line
          have hall := h done line
          simp only [List.filter_cons] at hall
          split at hall
          · exact List.tail_eq_of_cons_eq hall
          · exact hall

/-- Notes can be arranged in one way only. -/
theorem Arranged.unique (h : Arranged doneLast notes shown) (ho : Arranged doneLast notes others) :
    shown = others := by
  cases doneLast with
  | false => rw [h.inOrder rfl, ho.inOrder rfl]
  | true =>
      apply eq_of_ties h.pairwise ho.pairwise
      intro done line
      rw [h.ties rfl, ho.ties rfl]

/-- Where some notes are left out, the others stay arranged. -/
theorem Arranged.filter (h : Arranged doneLast notes shown) (keep : Note → Bool) :
    Arranged doneLast (notes.filter keep) (shown.filter keep) where
  perm := h.perm.filter keep
  inOrder hoff := by rw [h.inOrder hoff]
  doneAfter hon := (h.doneAfter hon).filter keep
  byLine hon := (h.byLine hon).filter keep
  ties hon done line := by
    have hsame := congrArg (List.filter keep) (h.ties hon done line)
    rw [List.filter_comm, hsame, List.filter_comm]

/-- Notes that were arranged are so already. -/
theorem Arranged.again (h : Arranged doneLast notes shown) : Arranged doneLast shown shown where
  perm := List.Perm.refl shown
  inOrder _ := rfl
  doneAfter := h.doneAfter
  byLine := h.byLine
  ties _ _ _ := rfl

/-- The notes of one file when they are sorted. -/
def arrange (doneLast : Bool) (notes : List Note) : List Note :=
  if doneLast then notes.mergeSort doneLastOrder else notes

/-- Sorting arranges the notes. -/
theorem arranged_arrange (doneLast : Bool) (notes : List Note) :
    Arranged doneLast notes (arrange doneLast notes) := by
  cases doneLast with
  | false =>
      have hsame : arrange false notes = notes := if_neg (by simp)
      rw [hsame]
      exact ⟨List.Perm.refl notes, fun _ => rfl, nofun, nofun, nofun⟩
  | true =>
      have hsorted : arrange true notes = notes.mergeSort doneLastOrder := if_pos rfl
      rw [hsorted]
      have htrans : ∀ a b c, doneLastOrder a b = true → doneLastOrder b c = true →
          doneLastOrder a c = true := fun _ _ _ => doneLastOrder_trans
      have hpair := List.pairwise_mergeSort htrans doneLastOrder_total notes
      have hperm := List.mergeSort_perm notes doneLastOrder
      refine ⟨hperm, nofun, fun _ => ?_, fun _ => ?_, fun _ done line => ?_⟩
      · exact hpair.imp fun hab => (doneLastOrder_iff.1 hab).1
      · exact hpair.imp fun hab => (doneLastOrder_iff.1 hab).2
      · -- The notes that tie are in order as they stand, so they come out in that order.
        have hties : (notes.filter (Ties done line)).Pairwise fun a b =>
            doneLastOrder a b = true := by
          refine List.pairwise_of_forall_mem_list fun a ha b hb => ?_
          simp only [List.mem_filter, decide_eq_true_eq] at ha hb
          exact doneLastOrder_of_ties ha.2 hb.2
        have hsub := List.sublist_mergeSort htrans doneLastOrder_total hties List.filter_sublist
        have hin : (notes.filter (Ties done line)).Sublist
            ((notes.mergeSort doneLastOrder).filter (Ties done line)) := by
          have hfiltered := hsub.filter (Ties done line)
          rwa [List.filter_filter, List.filter_congr (q := Ties done line) (by simp)] at hfiltered
        exact (hin.eq_of_length (hperm.filter _).length_eq.symm).symm

/-! ## Entries that are shown -/

/-- An entry that is shown. -/
def rendered (options : Options) (entry : Entry) : Entry where
  path := entry.path
  notes := arrange options.doneLast (unhidden options.hidden entry.notes)
  expanded := match options.expanded? with
    | some expanded => expanded.contains entry.path
    | none => entry.expanded

/-- The order of notes is a matter of each file. -/
theorem sorted_eq_map (doneLast : Bool) (entries : List Entry) :
    sorted doneLast entries =
      entries.map fun entry => { entry with notes := arrange doneLast entry.notes } := by
  cases doneLast <;> simp [sorted, arrange]

/-- No note is left just if the file is not shown. -/
theorem unhidden_eq_nil : unhidden hidden entry.notes = [] ↔ ¬ Shown hidden entry := by
  simp [unhidden, Shown]

/-- Files of which nothing is left are left out, and the others keep the notes that are left. -/
theorem visible_eq_map (hidden : List Text) (entries : List Entry) :
    visible hidden entries =
      (entries.filter (Shown hidden)).map fun entry =>
        { entry with notes := unhidden hidden entry.notes } := by
  induction entries with
  | nil => rfl
  | cons entry entries ih =>
      have hnotes : (entry.notes.filter fun note => !hidden.contains note.tag) =
          unhidden hidden entry.notes := by
        simp [unhidden]
      unfold visible at ih ⊢
      rw [List.filterMap_cons, ih, hnotes]
      by_cases h : Shown hidden entry
      · have hne := mt unhidden_eq_nil.1 (not_not_intro h)
        rw [List.filter_cons_of_pos (by simpa using h)]
        cases hleft : unhidden hidden entry.notes with
        | nil => exact absurd hleft hne
        | cons note notes => simp [hleft]
      · rw [unhidden_eq_nil.2 h, List.filter_cons_of_neg (by simpa using h)]

/-- Each file of which something is left is shown, and no other. -/
theorem render_eq_map (options : Options) (entries : List Entry) :
    render options entries = (entries.filter (Shown options.hidden)).map (rendered options) := by
  unfold render rendered
  rw [visible_eq_map, sorted_eq_map]
  cases options.expanded? <;> simp [marked, Function.comp_def]

/-- Whether something is left of a file does not depend on the order of its notes. -/
theorem shown_congr {one two : Entry} (h : one.notes.Perm two.notes) :
    Shown hidden one ↔ Shown hidden two := by
  simp only [Shown, h.mem_iff]

/-- What is made of an entry renders it. -/
theorem renders_rendered (options : Options) (entry : Entry) :
    Renders options entry (rendered options entry) :=
  ⟨rfl, arranged_arrange _ _, rfl⟩

/-- Leaving out notes of arranged ones is the same as arranging those that are left. -/
theorem unhidden_arrange (doneLast : Bool) (hidden : List Text) (notes : List Note) :
    unhidden hidden (arrange doneLast notes) = arrange doneLast (unhidden hidden notes) := by
  have hleft := (arranged_arrange doneLast notes).filter fun note => !hidden.contains note.tag
  exact hleft.unique (arranged_arrange doneLast (unhidden hidden notes))

/-- Of notes that are left nothing more is left out. -/
theorem unhidden_unhidden (hidden more : List Text) (notes : List Note) :
    unhidden more (unhidden hidden notes) = unhidden (hidden ++ more) notes := by
  unfold unhidden
  rw [List.filter_filter]
  apply List.filter_congr
  intro note _
  simp [Bool.and_comm]

/-- It makes no difference whether the notes are sorted before some are left out, or after. -/
theorem sorted_visible (doneLast : Bool) (hidden : List Text) (entries : List Entry) :
    sorted doneLast (visible hidden entries) = visible hidden (sorted doneLast entries) := by
  simp only [visible_eq_map, sorted_eq_map, List.filter_map, List.map_map]
  have hfilter : (entries.filter fun entry => Shown hidden entry) =
      entries.filter ((fun entry => decide (Shown hidden entry)) ∘ fun entry =>
        { entry with notes := arrange doneLast entry.notes }) := by
    apply List.filter_congr
    intro entry _
    have hperm := (arranged_arrange doneLast entry.notes).perm
    exact decide_eq_decide.2 (shown_congr hperm.symm)
  rw [← hfilter]
  apply List.map_congr_left
  intro entry _
  simp [unhidden_arrange]

/-- To hide tags and then more is to hide all of them. -/
theorem visible_visible (hidden more : List Text) (entries : List Entry) :
    visible more (visible hidden entries) = visible (hidden ++ more) entries := by
  simp only [visible_eq_map, List.filter_map, List.map_map, List.filter_filter]
  have hboth : ∀ entry : Entry,
      Shown more { entry with notes := unhidden hidden entry.notes } ↔
        Shown (hidden ++ more) entry := by
    intro entry
    rw [← not_iff_not, ← unhidden_eq_nil, ← unhidden_eq_nil, unhidden_unhidden]
  have hfilter : (entries.filter fun entry =>
      (decide (Shown more { entry with notes := unhidden hidden entry.notes }) &&
        decide (Shown hidden entry))) = entries.filter (Shown (hidden ++ more)) := by
    apply List.filter_congr
    intro entry _
    by_cases h : Shown (hidden ++ more) entry
    · obtain ⟨note, hm, hnot⟩ := h
      have hless : Shown hidden entry := ⟨note, hm, fun hin => hnot (List.mem_append_left more hin)⟩
      simp [hboth, hless]
    · simp [hboth, h]
  simp only [Function.comp_def]
  rw [hfilter]
  apply List.map_congr_left
  intro entry _
  rw [unhidden_unhidden]

/-- An entry as it is shown is shown as it is. -/
theorem rendered_rendered (options : Options) (entry : Entry) :
    rendered options (rendered options entry) = rendered options entry := by
  have hleft : unhidden options.hidden (rendered options entry).notes =
      (rendered options entry).notes := by
    show unhidden options.hidden (arrange _ (unhidden options.hidden entry.notes)) = arrange _ _
    rw [unhidden_arrange, unhidden_unhidden]
    congr 1
    unfold unhidden
    simp
  have harranged := arranged_arrange options.doneLast (unhidden options.hidden entry.notes)
  have hagain : arrange options.doneLast (rendered options entry).notes =
      (rendered options entry).notes :=
    (arranged_arrange options.doneLast _).unique harranged.again
  have hnotes : (rendered options (rendered options entry)).notes =
      (rendered options entry).notes := by
    show arrange options.doneLast (unhidden options.hidden (rendered options entry).notes) = _
    rw [hleft, hagain]
  have hexpanded : (rendered options (rendered options entry)).expanded =
      (rendered options entry).expanded := by
    unfold rendered
    cases options.expanded? <;> rfl
  calc rendered options (rendered options entry)
      = { path := entry.path
          notes := (rendered options (rendered options entry)).notes
          expanded := (rendered options (rendered options entry)).expanded } := rfl
    _ = rendered options entry := by rw [hnotes, hexpanded]; rfl

/-- To show what is shown changes nothing. -/
theorem render_render (options : Options) (entries : List Entry) :
    render options (render options entries) = render options entries := by
  rw [render_eq_map, render_eq_map, List.filter_map, List.map_map, List.filter_filter]
  have hfilter : (entries.filter fun entry =>
      (((fun entry => decide (Shown options.hidden entry)) ∘ rendered options) entry &&
        decide (Shown options.hidden entry))) = entries.filter (Shown options.hidden) := by
    apply List.filter_congr
    intro entry _
    by_cases h : Shown options.hidden entry
    · have hperm := (arranged_arrange options.doneLast (unhidden options.hidden entry.notes)).perm
      obtain ⟨note, hm, hnot⟩ := h
      have hin : note ∈ (rendered options entry).notes :=
        hperm.mem_iff.2 (List.mem_filter.2 ⟨hm, by simpa using hnot⟩)
      have hagain : Shown options.hidden (rendered options entry) := ⟨note, hin, hnot⟩
      simp [hagain]
    · simp [h]
  rw [hfilter]
  apply List.map_congr_left
  intro entry _
  exact rendered_rendered options entry

/-- **Rendering filters and arranges.**  What is shown are the files in which a note has a tag that
is not hidden, in order, each with just these notes, in the order that is wanted, and with its mark.
It makes no difference whether notes are left out or sorted first; tags may be hidden together or in
turn; and to show what is shown changes nothing. -/
theorem render_filters_and_arranges (options : Options) (entries : List Entry) (doneLast : Bool)
    (hidden more : List Text) :
    (render options entries).map (·.path) =
        (entries.filter fun entry => ∃ note ∈ entry.notes, note.tag ∉ options.hidden).map (·.path) ∧
      List.Forall₂ (Renders options)
        (entries.filter fun entry => ∃ note ∈ entry.notes, note.tag ∉ options.hidden)
        (render options entries) ∧
      sorted doneLast (visible hidden entries) = visible hidden (sorted doneLast entries) ∧
      visible more (visible hidden entries) = visible (hidden ++ more) entries ∧
      render options (render options entries) = render options entries := by
  have hshown : (entries.filter fun entry => ∃ note ∈ entry.notes, note.tag ∉ options.hidden) =
      entries.filter (Shown options.hidden) := by
    apply List.filter_congr
    intro entry _
    exact decide_eq_decide.2 Iff.rfl
  rw [hshown]
  refine ⟨?_, ?_, sorted_visible _ _ _, visible_visible _ _ _, render_render _ _⟩
  · rw [render_eq_map, List.map_map]
    rfl
  · rw [render_eq_map, List.forall₂_map_right_iff, List.forall₂_same]
    intro entry _
    exact renders_rendered options entry

end View

end Marginalia
