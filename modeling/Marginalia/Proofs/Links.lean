import Marginalia.Proofs.ActiveDocument
import Marginalia.Proofs.Walks

/-!
# Links

A scan does not go into folders through links, but a file that an event is about is looked up by its
path, and links are followed there; whether the path is in scope is told from its names alone.  So a
file behind a linked folder is accepted, and no scan lists it.

That is the only way in which the two differ (`Workspace.mem_list_iff_of_accepts`): a file that is
accepted is listed exactly if no folder on its way is a link, wherever a link at the end of its way
may lead.  After a scan, the event of a file therefore brings notes into the index that the scan
would not have brought exactly if the file is reached through a linked folder
(`Catalog.modified_shows_unlisted_iff`).
-/

namespace Marginalia

namespace Disk

variable {disk : Disk} {start goal other : Place} {names : List Text}
  {follow follow' : Place → List Text → Except Fault Place} {links more : Nat}

/-! ## Going through more links -/

/-- Where links are followed further, names lead where they led before. -/
theorem walkWith_mono
    (hf : ∀ start names goal, follow start names = .ok goal → follow' start names = .ok goal)
    (h : disk.walkWith follow start names = .ok goal) :
    disk.walkWith follow' start names = .ok goal := by
  induction names generalizing start with
  | nil => exact h
  | cons name rest ih =>
      unfold walkWith at h ⊢
      by_cases hfolder : disk.item? start ≠ some .folder
      · simp [if_pos hfolder] at h
      by_cases hdot : name = Path.dot
      · simp only [if_neg hfolder, if_pos hdot] at h ⊢
        exact ih h
      by_cases hdots : name = Path.dotDot
      · simp only [if_neg hfolder, if_neg hdot, if_pos hdots] at h ⊢
        exact ih h
      by_cases hlong : nameLimit < Utf8.size name
      · simp [if_neg hfolder, if_neg hdot, if_neg hdots, if_pos hlong] at h
      simp only [if_neg hfolder, if_neg hdot, if_neg hdots, if_neg hlong] at h ⊢
      cases hi : disk.item? (start ++ [name]) with
      | none => simp [hi] at h
      | some item =>
          simp only [hi] at h
          cases item with
          | link target => exact hf _ _ _ h
          | file content => exact ih h
          | folder => exact ih h

theorem walk_succ (h : disk.walk links start names = .ok goal) :
    disk.walk (links + 1) start names = .ok goal := by
  induction links generalizing start names goal with
  | zero => exact walkWith_mono (fun _ _ _ hf => by cases hf) h
  | succ links ih => exact walkWith_mono (fun _ _ _ => ih) h

/-- A walk that may go through more links leads to the same place. -/
theorem walk_of_le (hle : links ≤ more) (h : disk.walk links start names = .ok goal) :
    disk.walk more start names = .ok goal := by
  induction hle with
  | refl => exact h
  | step _ ih => exact walk_succ ih

/-- Names lead to one place, however many links may be gone through. -/
theorem eq_of_walk (h : disk.walk links start names = .ok goal)
    (ho : disk.walk more start names = .ok other) : goal = other := by
  have hone := walk_of_le (Nat.le_max_left links more) h
  have htwo := walk_of_le (Nat.le_max_right links more) ho
  exact Except.ok.inj (hone.symm.trans htwo)

/-! ## Links on the way -/

/-- Before the last of some names is reached, there is a link. -/
def PassesLink (disk : Disk) (start : Place) (names : List Text) : Prop :=
  ∃ front rest target, names = front ++ rest ∧ rest ≠ [] ∧
    disk.item? (start ++ front) = some (.link target)

/-- Names that pass no link lead to the item with these names, unless it is a link itself. -/
theorem exists_item_of_walkWith (hn : ∀ name ∈ names, Path.IsName name) (hne : names ≠ [])
    (hp : ¬ disk.PassesLink start names) (h : disk.walkWith follow start names = .ok goal) :
    disk.item? start = some .folder ∧ ∃ item, disk.item? (start ++ names) = some item ∧
      ((∀ target, item ≠ .link target) → goal = start ++ names) := by
  induction names generalizing start with
  | nil => exact absurd rfl hne
  | cons name rest ih =>
      obtain ⟨hfolder, item, hi, hgo⟩ := of_walkWith_cons (hn name List.mem_cons_self) h
      refine ⟨hfolder, ?_⟩
      by_cases hlast : rest = []
      · obtain rfl := hlast
        exact ⟨item, hi, fun hnolink => (Except.ok.inj (hgo hnolink)).symm⟩
      · have hnolink : ∀ target, item ≠ .link target := by
          intro target hlink
          obtain rfl := hlink
          exact absurd ⟨[name], rest, target, rfl, hlast, hi⟩ hp
        have hrest : ¬ disk.PassesLink (start ++ [name]) rest := by
          intro hex
          obtain ⟨front, back, target, rfl, hback, hlink⟩ := hex
          rw [List.append_assoc] at hlink
          exact hp ⟨name :: front, back, target, rfl, hback, hlink⟩
        have hnames := fun other ho => hn other (List.mem_cons_of_mem _ ho)
        obtain ⟨-, last, hitem, hgoal⟩ := ih hnames hlast hrest (hgo hnolink)
        rw [List.append_cons]
        exact ⟨last, hitem, hgoal⟩

/-- In a tree, names that lead to an item pass no link. -/
theorem IsTree.not_passesLink (h : disk.IsTree) {item : Item}
    (hi : disk.item? (start ++ names) = some item) : ¬ disk.PassesLink start names := by
  intro hex
  obtain ⟨front, rest, target, rfl, hne, hlink⟩ := hex
  rw [← List.append_assoc] at hi
  rw [h.folder_of_append hne hi] at hlink
  cases hlink

/-- A path means a folder where it leads to one. -/
theorem isFolder_eq_true {path : Path} : disk.isFolder path = true ↔
    ∃ place, disk.locate path = .ok place ∧ disk.item? place = some .folder := by
  rw [← find_eq_ok]
  unfold isFolder
  split <;> simp_all

/-- The place of an item has names that a disk can hold. -/
theorem HasNames.of_item? (h : disk.HasNames) {place : Place} {item : Item}
    (hi : disk.item? place = some item) : ∀ name ∈ place, IsName name := by
  by_cases hne : place = []
  · simp [hne]
  · exact h _ (mem_items_of_item? hne hi)

/-- A link below a folder of a tree leads to where its path leads from that folder. -/
theorem IsTree.walk_of_locate (h : disk.IsTree) (hnames : disk.HasNames)
    (hfolder : disk.item? start = some .folder)
    (hl : disk.locate { origin := .root, parts := start ++ names } = .ok goal) :
    ∃ left, disk.walk left start names = .ok goal := by
  have hwalk := (locate_eq_ok.1 hl).2.2
  obtain ⟨left, hleft⟩ := walk_append disk linkLimit [] start names
  obtain ⟨follow, hfollow⟩ := disk.walk_eq_walkWith linkLimit
  have hstart : disk.walkWith follow [] start = .ok start ∨
      disk.walkWith follow [] start = .error .nameTooLong :=
    h.walkWith_eq (fun name hm => (hnames.of_item? hfolder name hm).toIsName) hfolder
      fun target he => by cases he
  refine ⟨left, ?_⟩
  show disk.walk left start names = .ok goal
  rw [show disk.walk linkLimit [] (start ++ names) = .ok goal from hwalk, hfollow] at hleft
  rcases hstart with hok | herror
  · rw [hok] at hleft
    exact hleft.symm
  · rw [herror] at hleft
    cases hleft

end Disk

/-! ## Files that are accepted -/

namespace Workspace

variable {w : Workspace} {disk : Disk} {path : Text}

/-- A folder on the way from the root to a path is a link. -/
def ThroughLink (w : Workspace) (disk : Disk) (path : Text) : Prop :=
  ∃ root parts, disk.locate w.root = .ok root ∧ w.locate path = w.fileAt parts ∧
    disk.PassesLink root parts

/-- A file that is accepted is listed exactly if its way goes through no linked folder. -/
theorem mem_list_iff_of_accepts (h : w.root.IsPlain) (htree : disk.IsTree) (hnames : disk.HasNames)
    {paths : List Text} (hlist : w.list disk = .ok paths) (ha : w.accepts disk path = .ok true) :
    w.normalize path ∈ paths ↔ ¬ w.ThroughLink disk path := by
  constructor
  · intro hm hex
    obtain ⟨root, parts, hroot, hparts, hpasses⟩ := hex
    obtain ⟨others, hfiles, -, hpath⟩ := (mem_list hlist).1 hm
    have hplain := fileAt_isPlain h fun part hp =>
      (isName_of_mem_files hnames hfiles part hp).toIsName
    have hsame : w.fileAt parts = w.fileAt others :=
      Path.toText_inj (hparts ▸ locate_isPlain h path) hplain (hparts ▸ hpath)
    obtain rfl : parts = others := List.append_cancel_left (congrArg Path.parts hsame)
    obtain ⟨hne, item, hitem, -⟩ := (mem_files hroot).1 hfiles
    exact htree.not_passesLink ((Disk.item?_eq_some htree.nodup (by simp [hne])).2 hitem) hpasses
  · intro hno
    obtain ⟨hsettings, hscope, content, hr, hk⟩ := accepts_eq_true.1 ha
    obtain ⟨parts, hparts, hincludes⟩ := inScope_iff.1 hscope
    have hne := ne_nil_of_includes hincludes
    have hproper := isName_of_locate_eq_fileAt h hparts
    rw [hparts] at hr
    obtain ⟨goal, hgoal, hfile⟩ := Disk.read_eq_ok.1 hr
    obtain ⟨root, left, hroot, hwalk⟩ := exists_root_of_locate_fileAt h hgoal
    obtain ⟨follow, hfollow⟩ := disk.walk_eq_walkWith left
    have hpasses : ¬ disk.PassesLink root parts := fun hp => hno ⟨root, parts, hroot, hparts, hp⟩
    obtain ⟨hfolder, item, hitem, hends⟩ :=
      Disk.exists_item_of_walkWith hproper hne hpasses (hfollow ▸ hwalk)
    have hleads : disk.leadsToFolder (root ++ parts) item = false := by
      cases item with
      | file content => rfl
      | folder =>
          have hgoal := hends (fun target he => by cases he)
          rw [hgoal, hitem] at hfile
          cases hfile
      | link target =>
          -- The link leads to the file that was accepted, and not to a folder.
          refine Bool.eq_false_iff.2 fun htrue => ?_
          obtain ⟨place, hplace, hisFolder⟩ := Disk.isFolder_eq_true.1 htrue
          obtain ⟨links, hlinks⟩ := htree.walk_of_locate hnames hfolder hplace
          rw [Disk.eq_of_walk hlinks hwalk, hfile] at hisFolder
          cases hisFolder
    have hfiles : parts ∈ w.files disk :=
      (mem_files hroot).2 ⟨hne, item, Disk.mem_items_of_item? (by simp [hne]) hitem, hleads⟩
    have hnormal : w.normalize path = (w.fileAt parts).toText := congrArg Path.toText hparts
    refine (mem_list hlist).2 ⟨parts, hfiles, ?_, hnormal⟩
    simp [takes, hincludes, ← hnormal, hsettings, (keepsLimit_iff hr).2 hk]

end Workspace

/-! ## Events after a scan -/

namespace Catalog

variable {c : Catalog} {disk : Disk} {path : Text} {complete : Bool}

/-- A scan of all files that goes through leaves notes at listed paths only. -/
theorem listed_of_rescan (hs : c.scope ≠ .current)
    (ha : (c.meet disk .rescan).answer = .ok complete) :
    c.Keeps (c.meet disk .rescan).catalog ∧ ∃ paths, c.workspace.list disk = .ok paths ∧
      ∀ path, (c.meet disk .rescan).catalog.index.notesAt path ≠ [] → path ∈ paths := by
  rw [meet_rescan] at ha ⊢
  have hscan := settle_beginScan_of_ne_current disk hs 2
  cases hlist : c.workspace.list disk with
  | error fault =>
      rw [hlist] at hscan
      simp [hscan] at ha
  | ok paths =>
      cases hf : gather (c.findings disk c.vocabulary paths) with
      | error fault =>
          simp only [hlist, hf] at hscan
          simp [hscan] at ha
      | ok found =>
          simp only [hlist, hf] at hscan
          rw [hscan.2]
          refine ⟨⟨rfl, rfl, rfl, rfl, rfl⟩, paths, rfl, fun path hne => ?_⟩
          rw [notesAt_scannedEntries false (gather_eq_ok.1 hf)] at hne
          exact Classical.byContradiction fun hno => hne (if_neg hno)

/-- What the event of a modified file leaves at its path, when no single document is shown: nothing
where the file is not accepted, its notes where it can be read, and what was there otherwise. -/
inductive Modified (c d : Catalog) (disk : Disk) (path : Text) : Prop
  | rejected (accepts : c.workspace.accepts disk path = .ok false)
      (notes : d.index.notesAt path = [])
  | read (notes : List Note) (accepts : c.workspace.accepts disk path = .ok true)
      (reads : c.Reads disk path notes) (shown : d.index.notesAt path = notes)
  | unread (accepts : c.workspace.accepts disk path = .ok true)
      (none : ∀ notes, ¬ c.Reads disk path notes)
      (shown : d.index.notesAt path = c.index.notesAt path)

/-- An update that nothing came in between of takes in the notes of a file that can be read. -/
theorem modified_of_update (hacc : c.workspace.accepts disk path = .ok true) (pauses : Nat)
    (ha : (settle disk (pauses + 2) (c, .update (c.newUpdate path))).answer = .ok complete) :
    Modified c (settle disk (pauses + 2) (c, .update (c.newUpdate path))).catalog disk path := by
  rcases settled_update pauses ha with ⟨⟨fault, hread⟩, hd⟩ | ⟨text, notes, hread, hin, hd⟩
  · rw [hd]
    refine .unread hacc (fun notes hr => ?_) rfl
    obtain ⟨text, hok, -⟩ := hr
    rw [hread] at hok
    cases hok
  · rw [hd]
    exact .read notes hacc ⟨text, hread, hin⟩
      (notesAt_finishUpdate notes (c.isStale_newUpdate path))

/-- When no single document is shown, a file that is not the settings file is dropped where it is
not accepted, and updated where it is. -/
theorem modified_of_meet (hs : c.scope ≠ .current) (path : Text)
    (hp : c.workspace.isSettingsFile (c.workspace.normalize path) = false)
    (ha : (c.meet disk (.file (.modified path))).answer = .ok complete) :
    Modified c (c.meet disk (.file (.modified path))).catalog disk
      (c.workspace.normalize path) := by
  have hbegin : c.meet disk (.file (.modified path)) =
      settle disk 5 (c.beginUpdate disk (c.workspace.normalize path)) := rfl
  rw [hbegin] at ha ⊢
  unfold beginUpdate at ha ⊢
  rw [if_neg (by simp [hp])] at ha ⊢
  cases hacc : c.workspace.accepts disk (c.workspace.normalize path) with
  | error fault => simp [hacc, settle] at ha
  | ok accepted =>
      simp only [hacc] at ha ⊢
      cases accepted with
      | false =>
          have hgone : (c.drop (c.workspace.normalize path)).index.notesAt
              (c.workspace.normalize path) = [] := by
            rw [notesAt_drop, if_pos rfl]
          refine .rejected hacc ?_
          simp only
          split
          · rw [(settle_tell _ _).2]
            exact hgone
          · simpa [settle] using hgone
      | true =>
          have hne : ¬(c.scope = .current ∧ c.active ≠ some (c.workspace.normalize path)) :=
            fun h => hs h.1
          rw [if_neg hne] at ha ⊢
          exact modified_of_update hacc 3 ha

/-- **What is shown beyond the list.**  After a scan of all files and the event of a file that is
not the settings file, the index holds notes at a path that a scan does not list exactly if the file
is accepted, has notes, and is reached through a linked folder. -/
theorem modified_shows_unlisted_iff {root : Text} (hroot : (Path.ofText root).isAbsolute = true)
    {search : Search} {file : Text} {override : Option Text}
    (hw : c.workspace = .ofRoot (Path.ofText root) search file override)
    (htree : disk.IsTree) (hnames : disk.HasNames) (hscope : c.scope ≠ .current) {scanned : Bool}
    (hscan : (c.meet disk .rescan).answer = .ok scanned) {d : Catalog}
    (hd : (c.meet disk .rescan).catalog = d) {path : Text}
    (hp : c.workspace.isSettingsFile (c.workspace.normalize path) = false)
    (hevent : (d.meet disk (.file (.modified path))).answer = .ok complete) :
    ∃ paths, c.workspace.list disk = .ok paths ∧
      ((d.meet disk (.file (.modified path))).catalog.index.notesAt
            (c.workspace.normalize path) ≠ [] ∧ c.workspace.normalize path ∉ paths ↔
        c.workspace.accepts disk (c.workspace.normalize path) = .ok true ∧
          (∃ notes, c.Reads disk (c.workspace.normalize path) notes ∧ notes ≠ []) ∧
          c.workspace.ThroughLink disk (c.workspace.normalize path)) := by
  have hplain : c.workspace.root.IsPlain :=
    hw ▸ (Workspace.ofRoot_isPlain hroot search file override).root
  obtain ⟨hkeeps, paths, hlist, hlisted⟩ := listed_of_rescan hscope hscan
  rw [hd] at hkeeps hlisted
  have hreads : ∀ path notes, d.Reads disk path notes ↔ c.Reads disk path notes := by
    intro path notes
    rw [Reads, Reads, hkeeps.workspace, hkeeps.vocabulary]
  have hmodified := modified_of_meet (by rwa [scope, hkeeps.settings]) path
    (hkeeps.workspace ▸ hp) hevent
  rw [hkeeps.workspace] at hmodified
  generalize hnormal : c.workspace.normalize path = normal at hmodified ⊢
  have hnn : c.workspace.normalize normal = normal := by
    rw [← hnormal, Workspace.normalize_normalize hplain]
  -- What is accepted is listed exactly if there is no link on the way.
  have hthrough : c.workspace.accepts disk normal = .ok true →
      (normal ∈ paths ↔ ¬ c.workspace.ThroughLink disk normal) := by
    intro hacc
    have hiff := Workspace.mem_list_iff_of_accepts hplain htree hnames hlist hacc
    rwa [hnn] at hiff
  refine ⟨paths, hlist, ?_⟩
  constructor
  · intro hshown
    obtain ⟨hne, hunlisted⟩ := hshown
    cases hmodified with
    | rejected hacc hnone => exact absurd hnone hne
    | read notes hacc hr hnotes =>
        rw [hkeeps.workspace] at hacc
        refine ⟨hacc, ⟨notes, (hreads _ _).1 hr, hnotes ▸ hne⟩, ?_⟩
        exact Classical.byContradiction fun hno => hunlisted ((hthrough hacc).2 hno)
    | unread hacc hnone hsame => exact absurd (hlisted normal (hsame ▸ hne)) hunlisted
  · intro hbehind
    obtain ⟨hacc, ⟨notes, hr, hne⟩, hlink⟩ := hbehind
    have hunlisted : normal ∉ paths := fun hm => (hthrough hacc).1 hm hlink
    refine ⟨?_, hunlisted⟩
    cases hmodified with
    | rejected hrejected hnone =>
        rw [hkeeps.workspace, hacc] at hrejected
        cases hrejected
    | read others hacc' hr' hnotes =>
        rw [hnotes, ((hreads _ _).1 hr').unique hr]
        exact hne
    | unread hacc' hnone hsame => exact absurd ((hreads _ _).2 hr) (hnone notes)

/-! ## A linked folder -/

/-- A project with a file in a folder, a link to that folder, and a link to a folder beside the
project. -/
def linkedProject : Disk where
  items := [(["p"], .folder), (["p", "d"], .folder),
    (["p", "d", "a.py"], .file (Utf8.encode "# TODO: a\n")), (["p", "l"], .link "d"),
    (["p", "m"], .link "/q"), (["q"], .folder),
    (["q", "b.py"], .file (Utf8.encode "# TODO: b\n"))]

/-- A new catalog of the project has its workspace. -/
theorem opened_workspace : opened.workspace = project := by
  rw [opened_eq]

/-- How the paths behind the links are seen from the project. -/
theorem project_looks :
    linkedProject.IsTree ∧ linkedProject.HasNames ∧
      project.normalize "m/b.py" = "/p/m/b.py" ∧ project.normalize "l/a.py" = "/p/l/a.py" ∧
      project.isSettingsFile "/p/m/b.py" = false ∧ project.isSettingsFile "/p/l/a.py" = false ∧
      (project.accepts linkedProject "/p/m/b.py").toOption = some true ∧
      (project.read linkedProject "/p/m/b.py").toOption = some "# TODO: b\n" ∧
      (project.list linkedProject).toOption = some [("/p/d/a.py" : Text)] := by
  decide +kernel

/-- A scan goes through, and so do the events of the files behind the links. -/
theorem linkedProject_runs :
    let scanned := opened.meet linkedProject .rescan
    let one := scanned.catalog.meet linkedProject (.file (.modified "m/b.py"))
    let two := scanned.catalog.meet linkedProject (.file (.modified "l/a.py"))
    opened.scope = .project ∧ scanned.answer.toOption = some true ∧
      one.answer.toOption = some true ∧ two.answer.toOption = some true ∧
      two.catalog.index.notesAt "/p/l/a.py" ≠ [] ∧
      ((opened.vocabulary.notesIn "/p/m/b.py" "# TODO: b\n").toOption.map (·.isEmpty)) =
        some false := by
  rw [opened_eq]
  decide +kernel

/-- The second link stands on the way to the file behind it. -/
theorem throughLink_linkedProject : project.ThroughLink linkedProject "/p/m/b.py" :=
  ⟨["p"], ["m", "b.py"], eq_ok_of_toOption (by decide +kernel), by decide +kernel,
    ["m"], ["b.py"], "/q", rfl, by decide +kernel, by decide +kernel⟩

/-- After a scan and the event of a file behind a link that leads out of the project, the index
holds its note, and no scan lists the file. -/
theorem modified_shows_unlisted_linkedProject :
    ∃ paths, opened.workspace.list linkedProject = .ok paths ∧
      (((opened.meet linkedProject .rescan).catalog.meet linkedProject
        (.file (.modified "m/b.py"))).catalog.index.notesAt "/p/m/b.py" ≠ [] ∧
        ("/p/m/b.py" : Text) ∉ paths) := by
  obtain ⟨htree, hnames, hnormal, -, hfile, -, haccepts, hread, -⟩ := project_looks
  obtain ⟨hscope, hscan, hevent, -, -, hnotes⟩ := linkedProject_runs
  rw [← opened_workspace] at hnormal hfile haccepts hread
  have hw : opened.workspace = .ofRoot (Path.ofText "/p") {} [] none := opened_workspace
  have hcurrent : opened.scope ≠ .current := by simp [hscope]
  obtain ⟨paths, hlist, hiff⟩ :=
    modified_shows_unlisted_iff project_isAbsolute hw htree hnames hcurrent
    (eq_ok_of_toOption hscan) rfl (hnormal ▸ hfile) (eq_ok_of_toOption hevent)
  rw [hnormal] at hiff
  obtain ⟨notes, hsome, hempty⟩ := Option.map_eq_some_iff.1 hnotes
  have hreads : opened.Reads linkedProject "/p/m/b.py" notes :=
    ⟨_, eq_ok_of_toOption hread, eq_ok_of_toOption hsome⟩
  refine ⟨paths, hlist, hiff.2 ⟨eq_ok_of_toOption haccepts, ⟨notes, hreads, ?_⟩, ?_⟩⟩
  · simpa using hempty
  · rw [opened_workspace]
    exact throughLink_linkedProject

/-- The event of a file behind a linked folder of the project brings a second entry for that file
into the index, under a path that a scan of the same disk does not list. -/
theorem linked_file_is_shown :
    linkedProject.IsTree ∧ linkedProject.HasNames ∧ opened.scope = .project ∧
      (opened.meet linkedProject .rescan).answer.toOption = some true ∧
      opened.workspace.normalize "l/a.py" = "/p/l/a.py" ∧
      opened.workspace.isSettingsFile "/p/l/a.py" = false ∧
      ((opened.meet linkedProject .rescan).catalog.meet linkedProject
        (.file (.modified "l/a.py"))).answer.toOption = some true ∧
      ((opened.meet linkedProject .rescan).catalog.meet linkedProject
        (.file (.modified "l/a.py"))).catalog.index.notesAt "/p/l/a.py" ≠ [] ∧
      (opened.workspace.list linkedProject).toOption = some [("/p/d/a.py" : Text)] := by
  obtain ⟨htree, hnames, -, hnormal, -, hfile, -, -, hlist⟩ := project_looks
  obtain ⟨hscope, hscan, -, hevent, hshown, -⟩ := linkedProject_runs
  rw [opened_workspace]
  exact ⟨htree, hnames, hscope, hscan, hnormal, hfile, hevent, hshown, hlist⟩

end Catalog

end Marginalia
