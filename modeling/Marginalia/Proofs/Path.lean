import Marginalia.Workspace

/-!
# The normal form of a path

The program knows a file by the text of its path.  This is sound because a path in normal form and
its text determine each other: a *plain* path, which starts at a root and goes through proper
names, is read back from its text (`Path.ofText_toText`), and whatever path a workspace is asked
about, the path it locates is plain (`Workspace.locate_isPlain`).  So normalizing twice is no
different from normalizing once (`Workspace.normalize_normalize`), and what a workspace decides
about a path it decides about its normal form.
-/

namespace Marginalia

namespace Text

/-- There is always a piece. -/
theorem splitOn_ne_nil (separator : CodePoint) (t : Text) : splitOn separator t ≠ [] := by
  cases t with
  | nil => simp [splitOn]
  | cons p rest =>
      unfold splitOn
      split
      · simp
      · split <;> simp

/-- A separator at the front makes an empty piece. -/
theorem splitOn_cons_self (separator : CodePoint) (rest : Text) :
    splitOn separator (separator :: rest) = [] :: splitOn separator rest := by
  cases h : splitOn separator rest with
  | nil => exact absurd h (splitOn_ne_nil separator rest)
  | cons piece pieces => simp [splitOn, h]

/-- The first piece ends where the separator stands for the first time. -/
theorem splitOn_append_cons {separator : CodePoint} {t : Text} (h : separator ∉ t) (rest : Text) :
    splitOn separator (t ++ separator :: rest) = t :: splitOn separator rest := by
  induction t with
  | nil => exact splitOn_cons_self separator rest
  | cons p t ih =>
      have hp : p ≠ separator := fun e => h (by simp [e])
      have ht : separator ∉ t := fun e => h (List.mem_cons_of_mem _ e)
      simp [splitOn, ih ht, hp]

/-- A text without the separator is one piece. -/
theorem splitOn_of_not_mem {separator : CodePoint} {t : Text} (h : separator ∉ t) :
    splitOn separator t = [t] := by
  induction t with
  | nil => rfl
  | cons p rest ih =>
      have hp : p ≠ separator := fun e => h (by simp [e])
      have hr : separator ∉ rest := fun e => h (List.mem_cons_of_mem _ e)
      simp [splitOn, ih hr, hp]

/-- No piece holds the separator. -/
theorem not_mem_of_mem_splitOn {separator : CodePoint} {t piece : Text}
    (h : piece ∈ splitOn separator t) : separator ∉ piece := by
  induction t generalizing piece with
  | nil => simp_all [splitOn]
  | cons p rest ih =>
      cases hs : splitOn separator rest with
      | nil => exact absurd hs (splitOn_ne_nil separator rest)
      | cons first others =>
          have hfirst : separator ∉ first := ih (by simp [hs])
          by_cases hp : p = separator
          · simp only [splitOn, hs, hp, if_true, List.mem_cons] at h
            rcases h with rfl | rfl | h
            · simp
            · exact hfirst
            · exact ih (by simp [hs, h])
          · simp only [splitOn, hs, hp, if_false, List.mem_cons] at h
            rcases h with rfl | h
            · simp [Ne.symm hp, hfirst]
            · exact ih (by simp [hs, h])

/-- Where more pieces come, each of those before is followed by the separator. -/
theorem join_before (separator : Text) (pieces : List Text) {more : List Text} (h : more ≠ []) :
    join separator (pieces ++ more) = pieces.flatMap (· ++ separator) ++ join separator more := by
  induction pieces with
  | nil => rfl
  | cons piece pieces ih =>
      obtain ⟨next, others, hnext⟩ :=
        List.exists_cons_of_ne_nil (List.append_ne_nil_of_right_ne_nil pieces h)
      rw [List.cons_append, hnext, join, ← hnext, ih]
      · simp
      · rintro ⟨⟩

/-- Pieces that were joined come apart again. -/
theorem splitOn_join {separator : CodePoint} {pieces : List Text} (hne : pieces ≠ [])
    (h : ∀ piece ∈ pieces, separator ∉ piece) :
    splitOn separator (join [separator] pieces) = pieces := by
  induction pieces with
  | nil => exact absurd rfl hne
  | cons piece rest ih =>
      have hp : separator ∉ piece := h piece List.mem_cons_self
      cases rest with
      | nil => simpa [join] using splitOn_of_not_mem hp
      | cons next others =>
          have ht := ih (by simp) fun q hq => h q (List.mem_cons_of_mem _ hq)
          simp [join, splitOn_append_cons hp, ht]

end Text

namespace Path

/-- A name that can stand in a folder. -/
structure IsName (name : Text) : Prop where
  ne_nil : name ≠ []
  ne_dot : name ≠ dot
  ne_dotDot : name ≠ dotDot
  no_slash : CodePoint.char '/' ∉ name

instance (name : Text) : Decidable (IsName name) :=
  decidable_of_iff (name ≠ [] ∧ name ≠ dot ∧ name ≠ dotDot ∧ CodePoint.char '/' ∉ name)
    ⟨fun h => ⟨h.1, h.2.1, h.2.2.1, h.2.2.2⟩,
      fun h => ⟨h.ne_nil, h.ne_dot, h.ne_dotDot, h.no_slash⟩⟩

/-- A path that leads from a root through proper names. -/
structure IsPlain (path : Path) : Prop where
  absolute : path.isAbsolute = true
  names : ∀ part ∈ path.parts, IsName part

/-- Joined names do not begin with a slash. -/
theorem head?_join_ne_slash {names : List Text} (h : ∀ name ∈ names, IsName name) :
    (Text.join [CodePoint.char '/'] names).head? ≠ some (.char '/') := by
  cases names with
  | nil => simp [Text.join]
  | cons name rest =>
      have hn := h name List.mem_cons_self
      cases name with
      | nil => exact absurd rfl hn.ne_nil
      | cons p others =>
          have hp : p ≠ CodePoint.char '/' := fun e => hn.no_slash (by simp [e])
          cases rest <;> simpa [Text.join] using hp

/-- The names that were joined are the names that are read. -/
theorem filter_splitOn_join {names : List Text} (h : ∀ name ∈ names, IsName name) :
    ((Text.splitOn (.char '/') (Text.join [.char '/'] names)).filter
      fun part => !part.isEmpty && part != dot) = names := by
  cases hn : names with
  | nil => rfl
  | cons name rest =>
      rw [← hn, Text.splitOn_join (by simp [hn]) fun part hp => (h part hp).no_slash]
      apply List.filter_eq_self.2
      intro part hp
      simp [(h part hp).ne_nil, (h part hp).ne_dot]

/-- One slash at the front starts at the root. -/
theorem originOf_slash {rest : Text} (h : rest.head? ≠ some (.char '/')) :
    originOf (.char '/' :: rest) = .root := by
  have hne : ∀ tail, rest ≠ CodePoint.char '/' :: tail := by
    intro tail heq
    obtain rfl := heq
    simp at h
  simp [originOf, hne]

/-- Two slashes at the front, and no third, start at the root that is written with two. -/
theorem originOf_two_slashes {rest : Text} (h : rest.head? ≠ some (.char '/')) :
    originOf (.char '/' :: .char '/' :: rest) = .doubleRoot := by
  rw [originOf]
  intro tail heq
  obtain rfl := heq
  simp at h

/-- **A plain path is read back from its text.** -/
theorem ofText_toText {path : Path} (h : path.IsPlain) : ofText path.toText = path := by
  obtain ⟨origin, parts⟩ := path
  have hnames : ∀ name ∈ parts, IsName name := h.names
  have hhead := head?_join_ne_slash hnames
  have hparts := filter_splitOn_join hnames
  cases origin with
  | relative => exact absurd h.absolute (by simp [isAbsolute])
  | root =>
      simp [ofText, toText, originText, Text.splitOn_cons_self, originOf_slash hhead, hparts]
  | doubleRoot =>
      simp [ofText, toText, originText, Text.splitOn_cons_self, originOf_two_slashes hhead, hparts]

/-- Plain paths are told apart by their texts. -/
theorem toText_inj {p q : Path} (hp : p.IsPlain) (hq : q.IsPlain) (h : p.toText = q.toText) :
    p = q := by
  rw [← ofText_toText hp, h, ofText_toText hq]

/-- The names that are read from a text are proper, but for double dots. -/
theorem ofText_parts (text : Text) :
    ∀ part ∈ (ofText text).parts, part ≠ [] ∧ part ≠ dot ∧ CodePoint.char '/' ∉ part := by
  intro part hp
  simp only [ofText, List.mem_filter, Bool.and_eq_true, Bool.not_eq_true',
    List.isEmpty_eq_false_iff, bne_iff_ne] at hp
  exact ⟨hp.2.1, hp.2.2, Text.not_mem_of_mem_splitOn hp.1⟩

/-- Going further adds no name that was not there. -/
theorem mem_of_mem_foldl_enter {parts done : List Text} {part : Text}
    (h : part ∈ parts.foldl (enter true) done) : part ∈ parts ∨ part ∈ done := by
  induction parts generalizing done with
  | nil => exact .inr h
  | cons next rest ih =>
      rcases ih h with hr | hd
      · exact .inl (List.mem_cons_of_mem _ hr)
      · by_cases hn : next = dotDot
        · cases done with
          | nil => simp [enter, hn] at hd
          | cons last others =>
              refine .inr ?_
              by_cases hl : last = dotDot
              · simpa [enter, hn, hl] using hd
              · exact List.mem_cons_of_mem _ (by simpa [enter, hn, hl] using hd)
        · rcases List.mem_cons.1 (by simpa [enter, hn] using hd) with rfl | hd
          · exact .inl List.mem_cons_self
          · exact .inr hd

/-- Working out the double dots of an absolute path leaves proper names. -/
theorem resolve_isPlain {path : Path} (ha : path.isAbsolute = true)
    (h : ∀ part ∈ path.parts, part ≠ [] ∧ part ≠ dot ∧ CodePoint.char '/' ∉ part) :
    path.resolve.IsPlain := by
  refine ⟨ha, fun part hp => ?_⟩
  have hm : part ∈ path.parts.foldl (enter true) [] := by simpa [resolve, ha] using hp
  have hne : part ≠ dotDot := foldl_enter_absolute_ne (by simp) part hm
  obtain ⟨h₁, h₂, h₃⟩ := h part ((mem_of_mem_foldl_enter hm).resolve_right (by simp))
  exact ⟨h₁, h₂, hne, h₃⟩

/-- A plain path has no double dots to be worked out. -/
theorem resolve_of_isPlain {path : Path} (h : path.IsPlain) : path.resolve = path := by
  have := foldl_enter_of_forall_ne path.isAbsolute [] fun part hp => (h.names part hp).ne_dotDot
  simp [resolve, this]

/-- The names of a plain path are such as are read. -/
theorem IsPlain.parts {path : Path} (h : path.IsPlain) :
    ∀ part ∈ path.parts, part ≠ [] ∧ part ≠ dot ∧ CodePoint.char '/' ∉ part := fun part hp =>
  ⟨(h.names part hp).ne_nil, (h.names part hp).ne_dot, (h.names part hp).no_slash⟩

/-- Names that were read stay so when a path is taken from the end of another. -/
theorem join_parts {base path : Path}
    (hb : ∀ part ∈ base.parts, part ≠ [] ∧ part ≠ dot ∧ CodePoint.char '/' ∉ part)
    (hp : ∀ part ∈ path.parts, part ≠ [] ∧ part ≠ dot ∧ CodePoint.char '/' ∉ part) :
    ∀ part ∈ (base.join path).parts, part ≠ [] ∧ part ≠ dot ∧ CodePoint.char '/' ∉ part := by
  unfold join
  split
  · exact hp
  · exact fun part hm => (List.mem_append.1 hm).elim (hb part) (hp part)

/-- A plain path goes on being plain along proper names. -/
theorem IsPlain.append {path : Path} (h : path.IsPlain) {names : List Text}
    (hn : ∀ name ∈ names, IsName name) :
    IsPlain { path with parts := path.parts ++ names } := by
  refine ⟨h.absolute, fun part hp => ?_⟩
  rcases List.mem_append.1 hp with hp | hp
  · exact h.names part hp
  · exact hn part hp

/-- What lies within a folder is the folder's path with some more names. -/
theorem within?_eq_some {folder path : Path} {parts : List Text} :
    within? folder path = some parts ↔ path = { folder with parts := folder.parts ++ parts } := by
  obtain ⟨origin, names⟩ := folder
  obtain ⟨origin', names'⟩ := path
  simp only [within?, Bool.and_eq_true, decide_eq_true_eq, List.isPrefixOf_iff_prefix]
  constructor
  · intro h
    split at h
    · rename_i hw
      obtain ⟨rfl, more, rfl⟩ := hw
      simpa using h
    · simp at h
  · intro h
    cases h
    simp

end Path

namespace Workspace

variable {w : Workspace}

/-- A path is normalized by taking it from the root, whichever names it goes through. -/
theorem normalizeIn_isPlain {root path : Path} (h : root.IsPlain)
    (hp : ∀ part ∈ path.parts, part ≠ [] ∧ part ≠ Path.dot ∧ CodePoint.char '/' ∉ part) :
    (normalizeIn root path).IsPlain :=
  Path.resolve_isPlain (Path.isAbsolute_join h.absolute path) (Path.join_parts h.parts hp)

/-- **Located paths are plain,** whatever path is asked for. -/
theorem locate_isPlain (h : w.root.IsPlain) (path : Text) : (w.locate path).IsPlain :=
  normalizeIn_isPlain h (Path.ofText_parts path)

/-- A workspace whose own paths are plain. -/
structure IsPlain (w : Workspace) : Prop where
  root : w.root.IsPlain
  settingsFile : w.settingsFile.IsPlain

/-- A workspace of a project folder has a plain root, and its settings file a plain path. -/
theorem isPlain_ofRoot {root : Path} (h : root.isAbsolute = true)
    (hr : ∀ part ∈ root.parts, part ≠ [] ∧ part ≠ Path.dot ∧ CodePoint.char '/' ∉ part)
    (search : Search) (file : Text) (override : Option Text) :
    (ofRoot root search file override).IsPlain := by
  have hroot := Path.resolve_isPlain h hr
  refine ⟨hroot, normalizeIn_isPlain hroot ?_⟩
  split
  · unfold Settings.fileFor
    split <;> exact Path.join_parts hroot.parts (Path.ofText_parts _)
  · exact Path.ofText_parts file

/-- The same of a root that is written. -/
theorem ofRoot_isPlain {root : Text} (h : (Path.ofText root).isAbsolute = true)
    (search : Search) (file : Text) (override : Option Text) :
    (ofRoot (Path.ofText root) search file override).IsPlain :=
  isPlain_ofRoot h (Path.ofText_parts root) search file override

/-- The text of a plain path is located where it says. -/
theorem locate_toText (w : Workspace) {path : Path} (h : path.IsPlain) :
    w.locate path.toText = path := by
  rw [locate, normalizeIn, Path.ofText_toText h, Path.join, if_pos h.absolute,
    Path.resolve_of_isPlain h]

/-- A path and its normal form are located at the same place. -/
theorem locate_normalize (h : w.root.IsPlain) (path : Text) :
    w.locate (w.normalize path) = w.locate path :=
  locate_toText w (locate_isPlain h path)

/-- **Once is enough.**  Normalizing twice is no different from once. -/
theorem normalize_normalize (h : w.root.IsPlain) (path : Text) :
    w.normalize (w.normalize path) = w.normalize path :=
  congrArg Path.toText (locate_normalize h path)

/-- The normal form of a path lies in scope if the path does. -/
theorem inScope_normalize (h : w.root.IsPlain) (path : Text) :
    w.inScope (w.normalize path) = w.inScope path := by
  rw [inScope, inScope, locate_normalize h]

/-- A path in scope is the root's with a way that is left out by no pattern. -/
theorem inScope_iff {path : Text} :
    w.inScope path = true ↔ ∃ parts, w.locate path = w.fileAt parts ∧ w.includes parts = true := by
  unfold inScope fileAt
  cases h : Path.within? w.root (w.locate path) with
  | none =>
      constructor
      · intro hf
        simp at hf
      · intro hex
        obtain ⟨parts, hp, -⟩ := hex
        rw [Path.within?_eq_some.2 hp] at h
        simp at h
  | some parts =>
      constructor
      · intro hi
        exact ⟨parts, Path.within?_eq_some.1 h, hi⟩
      · intro hex
        obtain ⟨others, hp, hi⟩ := hex
        rw [Path.within?_eq_some.2 hp] at h
        cases h
        exact hi

end Workspace

end Marginalia
