import Marginalia.Proofs.Path

/-!
# What lies in a workspace

A path may be spelled in many ways: with double dots, with slashes that are repeated or stand at the
end, relative to the root or from another root.  A workspace looks at the normal form alone, and the
normal form is the text that one would compare by hand: a path is in scope exactly if its normal
form is the text of the root, a slash, and proper names that no pattern leaves out
(`Workspace.scope_is_containment`).

Behind this stands that texts are put together as paths are.  What is written behind a folder and a
slash is read as the folder's names and then the names of what is written (`Path.ofText_slashed`),
unless it starts at a root of its own; and the text of a path below a folder begins with the text of
the folder (`Path.toText_below`).  A root that is a bare slash, or two of them, ends with a slash
already, which is why `Path.slashed` asks for names.
-/

namespace Marginalia

namespace Text

/-- Pieces that are each followed by the separator come apart in front of the rest. -/
theorem splitOn_flatMap {separator : CodePoint} {pieces : List Text}
    (h : ∀ piece ∈ pieces, separator ∉ piece) (rest : Text) :
    splitOn separator (pieces.flatMap (· ++ [separator]) ++ rest) =
      pieces ++ splitOn separator rest := by
  induction pieces with
  | nil => rfl
  | cons piece pieces ih =>
      rw [List.flatMap_cons, List.append_assoc, List.append_assoc, List.singleton_append,
        splitOn_append_cons (h piece List.mem_cons_self),
        ih fun other ho => h other (List.mem_cons_of_mem _ ho)]
      rfl

end Text

namespace Path

variable {folder path : Path} {parts : List Text} {text : Text}

/-- The text of a folder with a slash at its end, ready for the names of what lies in it. -/
def slashed (folder : Path) : Text :=
  if folder.parts = [] then folder.toText else folder.toText ++ [.char '/']

theorem toText_of_isAbsolute (h : path.isAbsolute = true) :
    path.toText = originText path.origin ++ Text.join [.char '/'] path.parts := by
  have horigin : path.origin ≠ .relative := by simpa [isAbsolute] using h
  simp [toText, horigin]

/-- In a slashed text each name is followed by a slash. -/
theorem slashed_eq (h : folder.isAbsolute = true) :
    folder.slashed = originText folder.origin ++ folder.parts.flatMap (· ++ [.char '/']) := by
  rw [slashed, toText_of_isAbsolute h]
  rcases List.eq_nil_or_concat folder.parts with hparts | ⟨front, last, hparts⟩
  · simp [hparts, Text.join]
  · rw [hparts, List.concat_eq_append, if_neg (by simp),
      Text.join_before _ _ (List.cons_ne_nil _ _)]
    simp [Text.join]

/-- The text of what lies below a folder begins with that of the folder. -/
theorem toText_below (h : folder.isAbsolute = true) (hne : parts ≠ []) :
    toText { folder with parts := folder.parts ++ parts } =
      folder.slashed ++ Text.join [.char '/'] parts := by
  have habsolute : isAbsolute { folder with parts := folder.parts ++ parts } = true := h
  rw [toText_of_isAbsolute habsolute, slashed_eq h, Text.join_before _ _ hne, List.append_assoc]

/-- A path that is read starts at a root if its text begins with a slash. -/
theorem isAbsolute_ofText : (ofText text).isAbsolute = true ↔ text.head? = some (.char '/') := by
  cases text with
  | nil => simp [ofText, isAbsolute, originOf]
  | cons p rest =>
      by_cases hp : p = .char '/'
      · subst hp
        unfold ofText isAbsolute originOf
        split <;> simp_all
      · simp [ofText, isAbsolute, originOf, hp]

/-- A path from a root is written with a slash at the front. -/
theorem head?_toText (h : path.isAbsolute = true) : path.toText.head? = some (.char '/') := by
  rw [toText_of_isAbsolute h]
  cases horigin : path.origin with
  | relative => simp [isAbsolute, horigin] at h
  | root => rfl
  | doubleRoot => rfl

/-- What is written behind a folder is read as something in the folder. -/
theorem ofText_slashed (h : folder.IsPlain) (ht : text.head? ≠ some (.char '/')) :
    ofText (folder.slashed ++ text) = folder.join (ofText text) := by
  have hsplit := Text.splitOn_flatMap (fun part hp => (h.names part hp).no_slash) text
  have hnames : folder.parts.filter (fun part => !part.isEmpty && part != dot) = folder.parts := by
    refine List.filter_eq_self.2 fun part hp => ?_
    simp [(h.names part hp).ne_nil, (h.names part hp).ne_dot]
  have hhead : (folder.parts.flatMap (· ++ [CodePoint.char '/']) ++ text).head? ≠
      some (.char '/') := by
    cases hparts : folder.parts with
    | nil => exact ht
    | cons name rest =>
        have hname := h.names name (hparts ▸ List.mem_cons_self)
        obtain ⟨p, others, rfl⟩ := List.exists_cons_of_ne_nil hname.ne_nil
        intro hslash
        obtain rfl : p = .char '/' := Option.some.inj hslash
        exact hname.no_slash List.mem_cons_self
  rw [slashed_eq h.absolute, join, if_neg (ht ∘ isAbsolute_ofText.1)]
  obtain ⟨origin, parts⟩ := folder
  cases origin with
  | relative => exact absurd h.absolute (by simp [isAbsolute])
  | root =>
      simp [ofText, originText, Text.splitOn_cons_self, originOf_slash hhead, hsplit, hnames]
  | doubleRoot =>
      simp [ofText, originText, Text.splitOn_cons_self, originOf_two_slashes hhead, hsplit, hnames]

end Path

namespace Workspace

variable {w : Workspace} {path : Text} {folders : List Text} {name : Text}

/-- A way is left out by none of its folders and not by its name. -/
theorem includes_concat : w.includes (folders ++ [name]) = true ↔
    (∀ part ∈ folders, Glob.anyAccepts w.excludedFolders part = false) ∧
      Glob.anyAccepts w.excludedFiles name = false := by
  simp [includes]

/-- The normal form of a path in scope is the text of the root with a way behind it. -/
theorem inScope_iff_normalize (h : w.root.IsPlain) : w.inScope path = true ↔
    ∃ folders name, (∀ part ∈ folders ++ [name], Path.IsName part) ∧
      w.normalize path = w.root.slashed ++ Text.join [.char '/'] (folders ++ [name]) ∧
      (∀ part ∈ folders, Glob.anyAccepts w.excludedFolders part = false) ∧
      Glob.anyAccepts w.excludedFiles name = false := by
  have htext : ∀ folders name, (w.fileAt (folders ++ [name])).toText =
      w.root.slashed ++ Text.join [.char '/'] (folders ++ [name]) := fun folders name =>
    Path.toText_below h.absolute (by simp)
  rw [inScope_iff]
  constructor
  · intro hex
    obtain ⟨parts, hlocate, hincludes⟩ := hex
    rcases List.eq_nil_or_concat parts with rfl | ⟨folders, name, rfl⟩
    · simp [includes] at hincludes
    · rw [List.concat_eq_append] at hlocate hincludes
      obtain ⟨hfolders, hname⟩ := includes_concat.1 hincludes
      refine ⟨folders, name, fun part hp => ?_, by rw [normalize, hlocate, htext], hfolders, hname⟩
      refine (locate_isPlain h path).names part ?_
      rw [hlocate]
      exact List.mem_append_right _ hp
  · intro hex
    obtain ⟨folders, name, hnames, hnormal, hfolders, hname⟩ := hex
    refine ⟨folders ++ [name], ?_, includes_concat.2 ⟨hfolders, hname⟩⟩
    exact Path.toText_inj (locate_isPlain h path) (h.append hnames) (hnormal.trans (htext _ _).symm)

/-- What is not written from a root is taken from the root of the workspace. -/
theorem normalize_slashed (h : w.root.IsPlain) (hp : path.head? ≠ some (.char '/')) :
    w.normalize (w.root.slashed ++ path) = w.normalize path := by
  have hfrom := Path.isAbsolute_join h.absolute (Path.ofText path)
  rw [normalize, normalize, locate, locate, normalizeIn, normalizeIn, Path.ofText_slashed h hp,
    Path.join, if_pos hfrom]

/-- A path and its normal form mean the same file. -/
theorem isFile_normalize (h : w.root.IsPlain) (disk : Disk) (path : Text) :
    w.isFile disk (w.normalize path) = w.isFile disk path := by
  rw [isFile, isFile, locate_normalize h]

/-- A path is accepted if its normal form is. -/
theorem accepts_normalize (h : w.root.IsPlain) (disk : Disk) (path : Text) :
    w.accepts disk (w.normalize path) = w.accepts disk path := by
  rw [accepts, accepts, normalize_normalize h, inScope_normalize h, isFile_normalize h,
    locate_normalize h]

/-- **Scope is containment, told from texts.**  Whatever root a workspace is opened at from a
folder, and whatever it leaves out: a path is in scope exactly if its normal form is the root with
proper names behind it, none of them left out.  The normal form begins at a root and is its own
normal form; a path that does not begin at a root is taken from the root of the workspace; and the
workspace judges a path as it judges the normal form. -/
theorem scope_is_containment (folder root : Text) (h : folder.head? = some (.char '/'))
    (search : Search) (file : Text) (override : Option Text) :
    let w := ofRoot ((Path.ofText folder).join (Path.ofText root)) search file override
    (∀ path, w.inScope path = true ↔ ∃ folders name,
      (∀ part ∈ folders ++ [name], Path.IsName part) ∧
      w.normalize path = w.root.slashed ++ Text.join [.char '/'] (folders ++ [name]) ∧
      (∀ part ∈ folders, Glob.anyAccepts search.excludedFolders part = false) ∧
      Glob.anyAccepts search.excludedFiles name = false) ∧
    (∀ path, w.normalize (w.normalize path) = w.normalize path ∧
      (w.normalize path).head? = some (.char '/')) ∧
    (∀ path : Text, path.head? ≠ some (.char '/') →
      w.normalize path = w.normalize (w.root.slashed ++ path)) ∧
    ∀ path, w.inScope (w.normalize path) = w.inScope path ∧
      ∀ disk, w.isFile disk (w.normalize path) = w.isFile disk path ∧
        w.accepts disk (w.normalize path) = w.accepts disk path := by
  intro w
  have hroot : w.root.IsPlain :=
    (isPlain_ofRoot (Path.isAbsolute_join (Path.isAbsolute_ofText.2 h) (Path.ofText root))
      (Path.join_parts (Path.ofText_parts folder) (Path.ofText_parts root)) search file
        override).root
  -- Wherever it is opened from, the root is plain, and the four parts hold below any plain root.
  refine ⟨fun path => inScope_iff_normalize hroot, fun path => ⟨normalize_normalize hroot path, ?_⟩,
    fun path hp => (normalize_slashed hroot hp).symm,
    fun path => ⟨inScope_normalize hroot path, fun disk =>
      ⟨isFile_normalize hroot disk path, accepts_normalize hroot disk path⟩⟩⟩
  exact Path.head?_toText (locate_isPlain hroot path).absolute

/-- A way out of the project and back into it. -/
def roundabout : Text := "../p//src/./../lib/a.py/"

/-- A project that is opened from beside it, and that leaves out a folder: the way out and back
leads to a file in scope, and a way through the folder does not, however it is spelled. -/
theorem scope_is_containment_roundabout :
    let w := ofRoot ((Path.ofText "/w").join (Path.ofText "../p"))
      { excludedFolders := ["out"] } "" none
    w.inScope roundabout = true ∧ w.normalize roundabout = "/p/lib/a.py" ∧
      roundabout.head? ≠ some (.char '/') ∧
      w.normalize ("/p/" ++ roundabout : Text) = "/p/lib/a.py" ∧
      w.inScope "/p/lib//../out/a.py" = false := by
  intro w
  obtain ⟨hscope, hnormal, hrelative, -⟩ :=
    scope_is_containment "/w" "../p" (by decide) { excludedFolders := ["out"] } "" none
  have htext : w.normalize roundabout = "/p/lib/a.py" := by decide +kernel
  have hhead : roundabout.head? ≠ some (.char '/') := by decide +kernel
  refine ⟨(hscope roundabout).2 ⟨["lib"], "a.py", ?_, htext, ?_, ?_⟩, htext, hhead, ?_, ?_⟩
  · decide +kernel
  · decide +kernel
  · decide +kernel
  · rw [← htext]
    exact (hrelative roundabout hhead).symm
  · decide +kernel

end Workspace

end Marginalia
