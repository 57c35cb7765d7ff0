import Marginalia.Proofs.Path

/-!
# Full scans and single files

A full scan lists files from the root downwards, while a single file is looked up by its path and
asked whether it is accepted.  The two must agree, or an index that was brought up to date file by
file would differ from one that was built anew.

They do on disks that hold names as disks hold them (`Disk.HasNames`) and no links below the root
(`Workspace.HasNoLinks`): what is accepted is listed (`Workspace.mem_list_of_accepts`).  The other
way round no condition on links is needed: what is listed and can be read is accepted
(`Workspace.accepts_of_mem_list`).
-/

namespace Marginalia

namespace Disk

/-- A name that a disk can hold. -/
structure IsName (name : Text) : Prop extends Path.IsName name where
  hasBytes : ∀ p ∈ name, hasBytes p = true
  no_null : CodePoint.char '\x00' ∉ name

instance (name : Text) : Decidable (IsName name) :=
  decidable_of_iff
    ((name ≠ [] ∧ name ≠ Path.dot ∧ name ≠ Path.dotDot ∧ CodePoint.char '/' ∉ name) ∧
      (∀ p ∈ name, hasBytes p = true) ∧ CodePoint.char '\x00' ∉ name)
    ⟨fun h => ⟨⟨h.1.1, h.1.2.1, h.1.2.2.1, h.1.2.2.2⟩, h.2.1, h.2.2⟩,
      fun h => ⟨⟨h.ne_nil, h.ne_dot, h.ne_dotDot, h.no_slash⟩, h.hasBytes, h.no_null⟩⟩

/-- The names on a disk are names that a disk can hold. -/
def HasNames (disk : Disk) : Prop := ∀ entry ∈ disk.items, ∀ name ∈ entry.1, IsName name

instance (disk : Disk) : Decidable disk.HasNames :=
  inferInstanceAs (Decidable (∀ entry ∈ disk.items, ∀ name ∈ entry.1, IsName name))

/-- What stands at a place that is not the root is one of the items. -/
theorem mem_items_of_item? {disk : Disk} {place : Place} {item : Item} (hne : place ≠ [])
    (h : disk.item? place = some item) : (place, item) ∈ disk.items := by
  have hp : place.isEmpty = false := by simpa using hne
  simp only [item?, hp, Bool.false_eq_true, if_false] at h
  generalize disk.items = items at h
  induction items with
  | nil => simp at h
  | cons entry rest ih =>
      obtain ⟨other, found⟩ := entry
      by_cases ho : place = other
      · subst ho
        rw [List.lookup_cons_self, Option.some.injEq] at h
        simp [h]
      · rw [List.lookup_cons, beq_false_of_ne ho] at h
        exact List.mem_cons_of_mem _ (ih h)

/-- The items below a place are those whose places go on from it. -/
theorem mem_below {disk : Disk} {place : Place} {names : List Text} {item : Item} :
    (names, item) ∈ disk.below place ↔ names ≠ [] ∧ (place ++ names, item) ∈ disk.items := by
  simp only [below, List.mem_filterMap, Bool.and_eq_true, List.isPrefixOf_iff_prefix,
    decide_eq_true_eq]
  constructor
  · intro hex
    obtain ⟨⟨other, found⟩, hm, he⟩ := hex
    split at he
    · rename_i hw
      obtain ⟨⟨more, rfl⟩, hlt⟩ := hw
      cases he
      refine ⟨?_, by simpa using hm⟩
      intro hnil
      simp only [List.drop_left] at hnil
      simp [hnil] at hlt
    · cases he
  · intro hex
    obtain ⟨hne, hm⟩ := hex
    refine ⟨_, hm, ?_⟩
    have hlt : 0 < names.length := List.length_pos_iff.2 hne
    rw [if_pos ⟨List.prefix_append _ _, by simp [hlt]⟩]
    simp

/-! ## Going along names -/

/-- Going through some names and then some more is going through all of them, if that holds where
links are followed. -/
theorem walkWith_append {disk : Disk} {follow : Place → List Text → Except Fault Place}
    (links : Nat) (hw : disk.walkWith follow = disk.walk links) {more : List Text}
    (hf : ∀ start names, ∃ left,
      follow start (names ++ more) = (follow start names).bind (disk.walk left · more))
    (start : Place) (names : List Text) :
    ∃ left, disk.walkWith follow start (names ++ more) =
      (disk.walkWith follow start names).bind (disk.walk left · more) := by
  induction names generalizing start with
  | nil => exact ⟨links, by rw [List.nil_append, hw, walk_nil]; rfl⟩
  | cons name rest ih =>
      simp only [List.cons_append]
      unfold walkWith
      by_cases hfolder : disk.item? start ≠ some .folder
      · simp [if_pos hfolder, Except.bind]
      by_cases hdot : name = Path.dot
      · simpa only [if_neg hfolder, if_pos hdot] using ih start
      by_cases hdots : name = Path.dotDot
      · simpa only [if_neg hfolder, if_neg hdot, if_pos hdots] using ih start.dropLast
      by_cases hlong : nameLimit < Utf8.size name
      · simp [if_neg hfolder, if_neg hdot, if_neg hdots, if_pos hlong, Except.bind]
      simp only [if_neg hfolder, if_neg hdot, if_neg hdots, if_neg hlong]
      cases disk.item? (start ++ [name]) with
      | none => simp [Except.bind]
      | some item =>
          cases item with
          | link target => simpa only [List.append_assoc] using hf _ (targetParts target ++ rest)
          | file content => exact ih (start ++ [name])
          | folder => exact ih (start ++ [name])

/-- Going through some names and then some more is going through all of them: the second part goes
on from where the first one led, with as many links as are left. -/
theorem walk_append (disk : Disk) (links : Nat) (start : Place) (names more : List Text) :
    ∃ left, disk.walk links start (names ++ more) =
      (disk.walk links start names).bind (disk.walk left · more) := by
  induction links generalizing start names with
  | zero =>
      exact walkWith_append 0 rfl (fun _ _ => ⟨0, rfl⟩) start names
  | succ links ih =>
      exact walkWith_append (links + 1) rfl ih start names

/-- A walk through links is one that goes on in some way where links are followed. -/
theorem walk_eq_walkWith (disk : Disk) (links : Nat) :
    ∃ follow, disk.walk links = disk.walkWith follow := by
  cases links with
  | zero => exact ⟨_, rfl⟩
  | succ links => exact ⟨_, rfl⟩

/-- Going through a name needs a folder that the walk has come to, and an item with that name there.
If that is not a link, the rest of the names goes on from it. -/
theorem of_walkWith_cons {disk : Disk} {follow : Place → List Text → Except Fault Place}
    {start goal : Place} {name : Text} {rest : List Text} (hname : Path.IsName name)
    (h : disk.walkWith follow start (name :: rest) = .ok goal) :
    disk.item? start = some .folder ∧ ∃ item, disk.item? (start ++ [name]) = some item ∧
      ((∀ target, item ≠ .link target) →
        disk.walkWith follow (start ++ [name]) rest = .ok goal) := by
  unfold walkWith at h
  by_cases hfolder : disk.item? start ≠ some .folder
  · simp [if_pos hfolder] at h
  by_cases hlong : nameLimit < Utf8.size name
  · simp [if_neg hfolder, if_neg hname.ne_dot, if_neg hname.ne_dotDot, if_pos hlong] at h
  simp only [if_neg hfolder, if_neg hname.ne_dot, if_neg hname.ne_dotDot, if_neg hlong] at h
  refine ⟨Classical.byContradiction hfolder, ?_⟩
  cases hi : disk.item? (start ++ [name]) with
  | none => simp [hi] at h
  | some item =>
      simp only [hi] at h
      refine ⟨item, rfl, fun hnolink => ?_⟩
      cases item with
      | link target => exact absurd rfl (hnolink target)
      | file content => exact h
      | folder => exact h

/-- Where no links stand, going through names leads to the place with those names. -/
theorem walk_eq_append {disk : Disk} {links : Nat} {start place : Place} {names : List Text}
    (hnames : ∀ name ∈ names, Path.IsName name)
    (hlinks : ∀ more target, disk.item? (start ++ more) = some (.link target) → more = [])
    (h : disk.walk links start names = .ok place) : place = start ++ names := by
  obtain ⟨follow, hw⟩ := walk_eq_walkWith disk links
  rw [hw] at h
  clear hw
  induction names generalizing start with
  | nil =>
      cases h
      simp
  | cons name rest ih =>
      obtain ⟨-, item, hi, hgo⟩ := of_walkWith_cons (hnames name List.mem_cons_self) h
      have hnolink : ∀ target, item ≠ .link target := by
        intro target hlink
        obtain rfl := hlink
        exact absurd (hlinks [name] target hi) (by simp)
      have hlater : ∀ more target,
          disk.item? (start ++ [name] ++ more) = some (.link target) → more = [] := by
        intro more target hm
        rw [List.append_assoc] at hm
        exact absurd (hlinks _ target hm) (by simp)
      have hplace := ih (fun other ho => hnames other (List.mem_cons_of_mem _ ho)) hlater
        (hgo hnolink)
      rw [hplace, List.append_assoc, List.singleton_append]

/-- A path means what stands where it leads to. -/
theorem find_eq_ok {disk : Disk} {path : Path} {item : Item} :
    disk.find path = .ok item ↔
      ∃ place, disk.locate path = .ok place ∧ disk.item? place = some item := by
  unfold find
  cases hl : disk.locate path with
  | error fault => simp [bind, Except.bind]
  | ok place =>
      cases hi : disk.item? place <;>
        simp [bind, Except.bind, hi, throw, throwThe, MonadExceptOf.throw, pure, Except.pure]

/-- A file is read where a path leads to one. -/
theorem read_eq_ok {disk : Disk} {path : Path} {content : List UInt8} :
    disk.read path = .ok content ↔
      ∃ place, disk.locate path = .ok place ∧ disk.item? place = some (.file content) := by
  rw [← find_eq_ok]
  unfold read
  cases hf : disk.find path with
  | error fault => simp [bind, Except.bind]
  | ok item =>
      cases item <;>
        simp [bind, Except.bind, throw, throwThe, MonadExceptOf.throw, pure, Except.pure]

/-- A path means a file exactly where one can be read. -/
theorem isFile_eq_true {disk : Disk} {path : Path} :
    disk.isFile path = .ok true ↔ ∃ content, disk.read path = .ok content := by
  unfold isFile read
  cases hf : disk.find path with
  | error fault => cases fault <;> simp [bind, Except.bind]
  | ok item =>
      cases item <;> simp [bind, Except.bind, throw, throwThe, MonadExceptOf.throw,
        pure, Except.pure]

/-- A path is well formed if each of its code points can be written and none is null. -/
theorem malformed?_eq_none {path : Path} :
    malformed? path = none ↔
      (∀ p ∈ path.toText, hasBytes p = true) ∧ CodePoint.char '\x00' ∉ path.toText := by
  unfold malformed?
  by_cases hb : path.toText.all hasBytes
  · have hall := List.all_eq_true.1 hb
    by_cases hn : CodePoint.char '\x00' ∈ path.toText
    · simp [hb, hn]
    · simpa [hb, hn] using hall
  · have hall : ¬ ∀ p ∈ path.toText, hasBytes p = true := fun h => hb (List.all_eq_true.2 h)
    simp [hb, hall]

/-- A path leads somewhere only if it is well formed and not too long. -/
theorem locate_eq_ok {disk : Disk} {path : Path} {place : Place} :
    disk.locate path = .ok place ↔
      malformed? path = none ∧ Utf8.size path.toText ≤ pathLimit ∧
        disk.walk linkLimit [] path.parts = .ok place := by
  unfold locate
  cases malformed? path with
  | some fault => simp
  | none =>
      by_cases hs : pathLimit < Utf8.size path.toText
      · simp [hs, Nat.not_le.2 hs]
      · simp [hs, Nat.not_lt.1 hs]

/-- A path that is malformed cannot be read on any disk. -/
theorem read_of_malformed? {path : Path} {flaw : Fault} (h : malformed? path = some flaw)
    (disk : Disk) : disk.read path = .error flaw ∧ flaw.isMalformedPath = true := by
  refine ⟨by simp [read, find, locate, h, bind, Except.bind], ?_⟩
  unfold malformed? at h
  dsimp only at h
  split at h
  · cases h
    rfl
  · split at h <;> cases h
    rfl

/-- Going along names never finds fault with the text of a path, if following links never does. -/
theorem isMalformedPath_of_walkWith {disk : Disk} {follow : Place → List Text → Except Fault Place}
    (hf : ∀ start names fault, follow start names = .error fault → fault.isMalformedPath = false)
    {start : Place} {names : List Text} {fault : Fault}
    (h : disk.walkWith follow start names = .error fault) : fault.isMalformedPath = false := by
  induction names generalizing start with
  | nil => cases h
  | cons name rest ih =>
      unfold walkWith at h
      by_cases hfolder : disk.item? start ≠ some .folder
      · rw [if_pos hfolder] at h
        cases h
        rfl
      by_cases hdot : name = Path.dot
      · rw [if_neg hfolder, if_pos hdot] at h
        exact ih h
      by_cases hdots : name = Path.dotDot
      · rw [if_neg hfolder, if_neg hdot, if_pos hdots] at h
        exact ih h
      by_cases hlong : nameLimit < Utf8.size name
      · rw [if_neg hfolder, if_neg hdot, if_neg hdots, if_pos hlong] at h
        cases h
        rfl
      rw [if_neg hfolder, if_neg hdot, if_neg hdots, if_neg hlong] at h
      split at h
      · cases h
        rfl
      · exact hf _ _ _ h
      · exact ih h

/-- Going along names and links never finds fault with the text of a path. -/
theorem isMalformedPath_of_walk {disk : Disk} {links : Nat} {start : Place} {names : List Text}
    {fault : Fault} (h : disk.walk links start names = .error fault) :
    fault.isMalformedPath = false := by
  induction links generalizing start names fault with
  | zero =>
      refine isMalformedPath_of_walkWith (fun _ _ fault hf => ?_) h
      cases hf
      rfl
  | succ links ih => exact isMalformedPath_of_walkWith (fun _ _ _ hf => ih hf) h

/-- Where a path is well formed, reading it finds no fault with its text. -/
theorem isMalformedPath_of_read {disk : Disk} {path : Path} {fault : Fault}
    (hm : malformed? path = none) (h : disk.read path = .error fault) :
    fault.isMalformedPath = false := by
  unfold read find at h
  cases hl : disk.locate path with
  | error other =>
      have he : fault = other := by simpa [hl, bind, Except.bind, eq_comm] using h
      subst he
      simp only [locate, hm] at hl
      split at hl
      · cases hl
        rfl
      · exact isMalformedPath_of_walk hl
  | ok place =>
      cases hi : disk.item? place with
      | none =>
          simp only [hl, hi, bind, Except.bind, throw, throwThe, MonadExceptOf.throw] at h
          cases h
          rfl
      | some item =>
          cases item <;>
            simp only [hl, hi, bind, Except.bind, throw, throwThe, MonadExceptOf.throw, pure,
              Except.pure] at h <;> cases h <;> rfl

end Disk

namespace Text

/-- Names are joined piece by piece. -/
theorem join_append (separator : Text) {names more : List Text} (hn : names ≠ []) (hm : more ≠ []) :
    join separator (names ++ more) = join separator names ++ separator ++ join separator more := by
  obtain ⟨front, last, rfl⟩ := (List.eq_nil_or_concat names).resolve_left hn
  rw [List.concat_eq_append, join_before _ _ hm, join_before _ _ (List.cons_ne_nil last [])]
  simp [join]

/-- What is joined comes from the separator or from one of the names. -/
theorem mem_of_mem_join {separator : Text} {names : List Text} {p : CodePoint}
    (h : p ∈ join separator names) : p ∈ separator ∨ ∃ name ∈ names, p ∈ name := by
  induction names with
  | nil => simp [join] at h
  | cons name rest ih =>
      cases rest with
      | nil => exact .inr ⟨name, List.mem_cons_self, by simpa [join] using h⟩
      | cons next others =>
          simp only [join, List.mem_append] at h
          rcases h with (h | h) | h
          · exact .inr ⟨name, List.mem_cons_self, h⟩
          · exact .inl h
          · rcases ih h with h | ⟨other, ho, hp⟩
            · exact .inl h
            · exact .inr ⟨other, List.mem_cons_of_mem _ ho, hp⟩

end Text

namespace Path

/-- The text of a path is the beginning of the text of each path that goes on from it. -/
theorem toText_prefix_append {path : Path} (h : path.isAbsolute = true) (names : List Text) :
    path.toText <+: toText { path with parts := path.parts ++ names } := by
  obtain ⟨origin, parts⟩ := path
  have ho : origin ≠ .relative := by simpa [isAbsolute] using h
  simp only [toText, decide_eq_false ho, Bool.false_and, Bool.false_eq_true, if_false]
  apply List.prefix_append_right_inj _ |>.2
  by_cases hp : parts = []
  · simp [hp, Text.join]
  by_cases hn : names = []
  · simp [hn]
  rw [Text.join_append _ hp hn, List.append_assoc]
  exact List.prefix_append _ _

/-- What goes on from a path is well formed if the path and the names are. -/
theorem malformed?_append {path : Path} (h : path.isAbsolute = true) {names : List Text}
    (hp : Disk.malformed? path = none) (hn : ∀ name ∈ names, Disk.IsName name) :
    Disk.malformed? { path with parts := path.parts ++ names } = none := by
  obtain ⟨origin, parts⟩ := path
  have ho : origin ≠ .relative := by simpa [isAbsolute] using h
  obtain ⟨hbytes, hnull⟩ := Disk.malformed?_eq_none.1 hp
  have hmem : ∀ p ∈ toText ⟨origin, parts ++ names⟩,
      p ∈ toText ⟨origin, parts⟩ ∨ p = .char '/' ∨ ∃ name ∈ names, p ∈ name := by
    intro p hm
    simp only [toText, decide_eq_false ho, Bool.false_and, Bool.false_eq_true, if_false,
      List.mem_append] at hm ⊢
    rcases hm with hm | hm
    · exact .inl (.inl hm)
    by_cases hparts : parts = []
    · rw [hparts, List.nil_append] at hm
      exact .inr ((Text.mem_of_mem_join hm).imp_left (by simp))
    by_cases hnames : names = []
    · rw [hnames, List.append_nil] at hm
      exact .inl (.inr hm)
    rw [Text.join_append _ hparts hnames] at hm
    simp only [List.mem_append, List.mem_singleton] at hm
    rcases hm with (hm | hm) | hm
    · exact .inl (.inr hm)
    · exact .inr (.inl hm)
    · exact .inr ((Text.mem_of_mem_join hm).imp_left (by simp))
  apply Disk.malformed?_eq_none.2
  constructor
  · intro p hm
    rcases hmem p hm with hm | rfl | ⟨name, hname, hm⟩
    · exact hbytes p hm
    · rfl
    · exact (hn name hname).hasBytes p hm
  · intro hm
    rcases hmem _ hm with hm | hm | ⟨name, hname, hm⟩
    · exact hnull hm
    · simp at hm
    · exact (hn name hname).no_null hm

end Path

namespace Workspace

variable {w : Workspace} {disk : Disk}

/-- No links stand below the root of a workspace. -/
def HasNoLinks (w : Workspace) (disk : Disk) : Prop :=
  ∀ place, disk.locate w.root = .ok place →
    ∀ names target, (names, Item.link target) ∉ disk.below place

/-- Whether a file of a size is taken in. -/
def KeepsSize (w : Workspace) (content : List UInt8) : Prop :=
  w.sizeLimit = 0 ∨ content.length ≤ w.sizeLimit

/-- A file that can be read keeps the limit if its size does. -/
theorem keepsLimit_iff {path : Path} {content : List UInt8} (h : disk.read path = .ok content) :
    w.keepsLimit disk path = true ↔ w.KeepsSize content := by
  simp [keepsLimit, KeepsSize, h]

/-- What is accepted: a file in scope that is not the settings file and is not too large. -/
theorem accepts_eq_true {path : Text} :
    w.accepts disk path = .ok true ↔
      w.isSettingsFile (w.normalize path) = false ∧ w.inScope path = true ∧
        ∃ content, disk.read (w.locate path) = .ok content ∧ w.KeepsSize content := by
  unfold accepts isFile
  by_cases hs : w.isSettingsFile (w.normalize path)
  · simp [hs]
  by_cases hi : w.inScope path
  · simp only [hs, hi, Bool.not_true, Bool.or_false, Bool.false_eq_true, if_false, true_and]
    constructor
    · intro h
      cases hf : disk.isFile (w.locate path) with
      | error fault => simp [hf, Except.map] at h
      | ok isFile =>
          have hb : isFile = true ∧ w.keepsLimit disk (w.locate path) = true := by
            simpa [hf, Except.map] using h
          obtain ⟨content, hc⟩ := Disk.isFile_eq_true.1 (hb.1 ▸ hf)
          exact ⟨content, hc, (keepsLimit_iff hc).1 hb.2⟩
    · intro hex
      obtain ⟨content, hc, hk⟩ := hex
      rw [Disk.isFile_eq_true.2 ⟨content, hc⟩]
      simp [Except.map, (keepsLimit_iff hc).2 hk]
  · simp [hs, hi]

/-- A disk without links has none below a root. -/
theorem hasNoLinks_of_forall (h : ∀ entry ∈ disk.items, ∀ target, entry.2 ≠ .link target) :
    w.HasNoLinks disk := by
  intro place _ names target hm
  exact h _ (Disk.mem_below.1 hm).2 target rfl

/-- A text is read from the bytes of a file. -/
theorem exists_of_read_eq_ok {path text : Text} (h : w.read disk path = .ok text) :
    ∃ content, disk.read (w.locate path) = .ok content := by
  unfold Workspace.read Document.read at h
  cases hr : disk.read (w.locate path) with
  | error fault => simp [hr] at h
  | ok content => exact ⟨content, rfl⟩

/-- Where every file holds text, what is accepted can be read. -/
theorem exists_read_of_accepts
    (h : ∀ entry ∈ disk.items, ∀ content, entry.2 = .file content →
      ∃ text, Document.ofBytes content = .ok text)
    {path : Text} (ha : w.accepts disk path = .ok true) : ∃ text, w.read disk path = .ok text := by
  obtain ⟨-, -, content, hr, -⟩ := accepts_eq_true.1 ha
  obtain ⟨place, -, hi⟩ := Disk.read_eq_ok.1 hr
  have hne : place ≠ [] := by
    intro heq
    obtain rfl := heq
    simp [Disk.item?] at hi
  obtain ⟨text, ht⟩ := h _ (Disk.mem_items_of_item? hne hi) content rfl
  exact ⟨text, by simp [Workspace.read, Document.read, hr, ht]⟩

/-- The root's path with a way from there is plain if the root is and the way is. -/
theorem fileAt_isPlain (h : w.root.IsPlain) {parts : List Text}
    (hn : ∀ part ∈ parts, Path.IsName part) : (w.fileAt parts).IsPlain := h.append hn

/-- A path that is located at the end of a way goes through proper names. -/
theorem isName_of_locate_eq_fileAt (h : w.root.IsPlain) {path : Text} {parts : List Text}
    (hp : w.locate path = w.fileAt parts) : ∀ part ∈ parts, Path.IsName part := by
  intro part hm
  apply (locate_isPlain h path).names
  rw [hp]
  exact List.mem_append_right _ hm

/-- Where a path at the end of a way leads somewhere, the root does, and the way goes on from
there. -/
theorem exists_root_of_locate_fileAt (h : w.root.IsPlain) {parts : List Text} {goal : Place}
    (hg : disk.locate (w.fileAt parts) = .ok goal) :
    ∃ place left, disk.locate w.root = .ok place ∧ disk.walk left place parts = .ok goal := by
  obtain ⟨hm, hs, hw⟩ := Disk.locate_eq_ok.1 hg
  have hbegins := Path.toText_prefix_append h.absolute parts
  obtain ⟨left, hleft⟩ := Disk.walk_append disk Disk.linkLimit [] w.root.parts parts
  have hw' : disk.walk Disk.linkLimit [] (w.root.parts ++ parts) = .ok goal := hw
  rw [hleft] at hw'
  cases hroot : disk.walk Disk.linkLimit [] w.root.parts with
  | error fault => simp [hroot, Except.bind] at hw'
  | ok place =>
      refine ⟨place, left, Disk.locate_eq_ok.2 ?_, by simpa [hroot, Except.bind] using hw'⟩
      obtain ⟨hbytes, hnull⟩ := Disk.malformed?_eq_none.1 hm
      refine ⟨Disk.malformed?_eq_none.2 ⟨?_, ?_⟩, ?_, hroot⟩
      · exact fun p hp => hbytes p <| hbegins.subset hp
      · exact fun hp => hnull <| hbegins.subset hp
      · obtain ⟨more, hmore⟩ := hbegins
        have : Utf8.size (w.fileAt parts).toText = Utf8.size w.root.toText + Utf8.size more := by
          rw [fileAt, ← hmore, Utf8.size, Utf8.encode_append, List.length_append]
          rfl
        omega

/-- What stands at the end of a way stands below the root, where no links do. -/
theorem locate_fileAt (h : w.root.IsPlain) (hl : w.HasNoLinks disk) {parts : List Text}
    (hn : ∀ part ∈ parts, Path.IsName part) {goal : Place}
    (hg : disk.locate (w.fileAt parts) = .ok goal) :
    ∃ place, disk.locate w.root = .ok place ∧ goal = place ++ parts := by
  obtain ⟨place, left, hplace, hwalk⟩ := exists_root_of_locate_fileAt h hg
  refine ⟨place, hplace, Disk.walk_eq_append hn (fun more target hi => ?_) hwalk⟩
  by_cases hne : more = []
  · exact hne
  · have hitem := Disk.mem_items_of_item? (by simp [hne]) hi
    exact absurd (Disk.mem_below.2 ⟨hne, hitem⟩) (hl place hplace more target)

/-- What a full scan lists. -/
theorem mem_list {paths : List Text} (h : w.list disk = .ok paths) {path : Text} :
    path ∈ paths ↔ ∃ parts ∈ w.files disk, w.takes disk parts = true ∧
      path = (w.fileAt parts).toText := by
  unfold list at h
  split at h
  · cases h
  · cases h
    simp only [List.mem_map, List.mem_mergeSort, List.mem_filter]
    constructor
    · intro hex
      obtain ⟨parts, ⟨hf, ht⟩, rfl⟩ := hex
      exact ⟨parts, hf, ht, rfl⟩
    · intro hex
      obtain ⟨parts, hf, ht, rfl⟩ := hex
      exact ⟨parts, ⟨hf, ht⟩, rfl⟩

/-- Only a root whose path cannot be asked for cannot be listed. -/
theorem exists_list : Disk.malformed? w.root = none ↔ ∃ paths, w.list disk = .ok paths := by
  unfold list
  cases Disk.malformed? w.root <;> simp

/-- The files of a workspace have names that a disk can hold. -/
theorem isName_of_mem_files (hd : disk.HasNames) {parts : List Text} (h : parts ∈ w.files disk) :
    ∀ part ∈ parts, Disk.IsName part := by
  intro part hp
  unfold files at h
  split at h
  · simp at h
  · rename_i place _
    obtain ⟨⟨names, item⟩, hm, hf⟩ := List.mem_filterMap.1 h
    have hnames : names = parts := by
      cases item with
      | folder => simp at hf
      | file content => simpa using hf
      | link target =>
          simp only at hf
          split at hf
          · cases hf
          · cases hf
            rfl
    obtain ⟨-, hitem⟩ := Disk.mem_below.1 hm
    exact hd _ hitem part (List.mem_append_right _ (hnames ▸ hp))

/-- A listed path is in scope, is not the settings file and is located where it says. -/
theorem of_mem_list (h : w.root.IsPlain) (hd : disk.HasNames) {paths : List Text}
    (hlist : w.list disk = .ok paths) {path : Text} (hp : path ∈ paths) :
    w.normalize path = path ∧ w.inScope path = true ∧ w.isSettingsFile path = false ∧
      w.keepsLimit disk (w.locate path) = true ∧
        (Disk.malformed? w.root = none → Disk.malformed? (w.locate path) = none) := by
  obtain ⟨parts, hf, ht, rfl⟩ := (mem_list hlist).1 hp
  have hnames := isName_of_mem_files hd hf
  have hplain := fileAt_isPlain h fun part hm => (hnames part hm).toIsName
  have hloc := locate_toText w hplain
  simp only [takes, Bool.and_eq_true, Bool.not_eq_true'] at ht
  refine ⟨?_, inScope_iff.2 ⟨parts, hloc, ht.1.1⟩, ht.1.2, ?_, ?_⟩
  · rw [normalize, hloc]
  · rw [hloc]
    exact ht.2
  · intro hroot
    rw [hloc]
    exact Path.malformed?_append h.absolute hroot hnames

/-- **What is listed is accepted.**  What a full scan lists and is there to be read is accepted by
itself. -/
theorem accepts_of_mem_list (h : w.root.IsPlain) (hd : disk.HasNames) {paths : List Text}
    (hlist : w.list disk = .ok paths) {path : Text} (hp : path ∈ paths) {content : List UInt8}
    (hr : disk.read (w.locate path) = .ok content) : w.accepts disk path = .ok true := by
  obtain ⟨hnormal, hscope, hsettings, hlimit, -⟩ := of_mem_list h hd hlist hp
  apply accepts_eq_true.2
  rw [hnormal]
  exact ⟨hsettings, hscope, content, hr, (keepsLimit_iff hr).1 hlimit⟩

/-- **What is accepted is listed.**  What is accepted by itself a full scan lists, under its normal
form. -/
theorem mem_list_of_accepts (h : w.root.IsPlain) (hl : w.HasNoLinks disk) {paths : List Text}
    (hlist : w.list disk = .ok paths) {path : Text} (ha : w.accepts disk path = .ok true) :
    w.normalize path ∈ paths := by
  obtain ⟨hsettings, hscope, content, hr, hk⟩ := accepts_eq_true.1 ha
  obtain ⟨parts, hparts, hincludes⟩ := inScope_iff.1 hscope
  have hnames := isName_of_locate_eq_fileAt h hparts
  rw [hparts] at hr
  obtain ⟨goal, hgoal, hitem⟩ := Disk.read_eq_ok.1 hr
  obtain ⟨place, hplace, rfl⟩ := locate_fileAt h hl hnames hgoal
  have hne : parts ≠ [] := by
    intro heq
    obtain rfl := heq
    simp [includes] at hincludes
  have hbelow : (parts, Item.file content) ∈ disk.below place :=
    Disk.mem_below.2 ⟨hne, Disk.mem_items_of_item? (by simp [hne]) hitem⟩
  have hnormal : w.normalize path = (w.fileAt parts).toText := congrArg Path.toText hparts
  refine (mem_list hlist).2 ⟨parts, ?_, ?_, hnormal⟩
  · simp only [files, hplace]
    exact List.mem_filterMap.2 ⟨_, hbelow, rfl⟩
  · simp [takes, hincludes, ← hnormal, hsettings, (keepsLimit_iff hr).2 hk]

end Workspace

end Marginalia
