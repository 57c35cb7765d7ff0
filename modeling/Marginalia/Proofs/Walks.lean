import Marginalia.Proofs.Order
import Marginalia.Proofs.Trees

/-!
# Walks

A full scan walks through the project: the files of a folder come first, in the order of their
names, and then, in the order of their names, its subfolders, but for those that are left out
(`Workspace.walkFrom`).  What the scan lists is told without the walk, by the ways to all files and
an order of ways; on a disk that is a tree the two are the same (`Workspace.list_eq_walkFrom`).

So the list holds no path twice, and it is the same whichever items of a folder the disk tells
first.  On a tree without links a file is accepted by itself exactly if it is listed
(`Workspace.accepts_iff_mem_list`): the names on its way are asked one by one about what the walk
has pruned, and the file itself is asked in the same way.
-/

namespace Marginalia

namespace Workspace

/-- No way that goes on comes before the empty one. -/
theorem ne_nil_of_walkOrder {a : Text} {as t : List Text} (h : walkOrder (a :: as) t = true) :
    t ≠ [] := by
  intro he
  obtain rfl := he
  simp [walkOrder] at h

/-- Of two ways, one comes first. -/
theorem walkOrder_total (s t : List Text) : (walkOrder s t || walkOrder t s) = true := by
  induction s generalizing t with
  | nil => simp [walkOrder]
  | cons a as ih =>
      cases t with
      | nil => simp [walkOrder]
      | cons b bs =>
          cases as with
          | nil =>
              cases bs with
              | nil => simpa only [walkOrder] using Text.le_total a b
              | cons b' bs => simp [walkOrder]
          | cons a' as =>
              cases bs with
              | nil => simp [walkOrder]
              | cons b' bs =>
                  simp only [walkOrder]
                  by_cases he : a = b
                  · simpa [he] using ih (b' :: bs)
                  · simpa [he, Ne.symm he] using Text.le_total a b

/-- Ways that come before each other are one. -/
theorem walkOrder_antisymm (s t : List Text) (hst : walkOrder s t = true)
    (hts : walkOrder t s = true) : s = t := by
  induction s generalizing t with
  | nil =>
      cases t with
      | nil => rfl
      | cons b bs => exact absurd rfl (ne_nil_of_walkOrder hts)
  | cons a as ih =>
      obtain ⟨b, bs, rfl⟩ := List.exists_cons_of_ne_nil (ne_nil_of_walkOrder hst)
      cases as with
      | nil =>
          cases bs with
          | nil =>
              simp only [walkOrder] at hst hts
              rw [Text.le_antisymm hst hts]
          | cons b' bs => simp [walkOrder] at hts
      | cons a' as =>
          cases bs with
          | nil => simp [walkOrder] at hst
          | cons b' bs =>
              simp only [walkOrder] at hst hts
              by_cases he : a = b
              · rw [if_pos he] at hst
                rw [if_pos he.symm] at hts
                rw [he, ih _ hst hts]
              · rw [if_neg he] at hst
                rw [if_neg (Ne.symm he)] at hts
                exact absurd (Text.le_antisymm hst hts) he

/-- The order of ways is transitive. -/
theorem walkOrder_trans (s t u : List Text) (hst : walkOrder s t = true)
    (htu : walkOrder t u = true) : walkOrder s u = true := by
  induction s generalizing t u with
  | nil => simp [walkOrder]
  | cons a as ih =>
      obtain ⟨b, bs, rfl⟩ := List.exists_cons_of_ne_nil (ne_nil_of_walkOrder hst)
      obtain ⟨c, cs, rfl⟩ := List.exists_cons_of_ne_nil (ne_nil_of_walkOrder htu)
      cases as with
      | nil =>
          cases cs with
          | nil =>
              cases bs with
              | nil =>
                  simp only [walkOrder] at hst htu ⊢
                  exact Text.le_trans hst htu
              | cons b' bs => simp [walkOrder] at htu
          | cons c' cs => simp [walkOrder]
      | cons a' as =>
          obtain ⟨b', bs, rfl⟩ : ∃ b' rest, bs = b' :: rest :=
            List.exists_cons_of_ne_nil fun he => by simp [he, walkOrder] at hst
          obtain ⟨c', cs, rfl⟩ : ∃ c' rest, cs = c' :: rest :=
            List.exists_cons_of_ne_nil fun he => by simp [he, walkOrder] at htu
          -- All three go on, so the first names that differ decide.
          simp only [walkOrder] at hst htu ⊢
          by_cases hab : a = b
          · obtain rfl := hab
            rw [if_pos rfl] at hst
            by_cases hac : a = c
            · rw [if_pos hac] at htu ⊢
              exact ih _ _ hst htu
            · rwa [if_neg hac] at htu ⊢
          · rw [if_neg hab] at hst
            by_cases hbc : b = c
            · obtain rfl := hbc
              rwa [if_neg hab]
            · rw [if_neg hbc] at htu
              have hac : a ≠ c := by
                intro heq
                obtain rfl := heq
                exact hab (Text.le_antisymm hst htu)
              rw [if_neg hac]
              exact Text.le_trans hst htu

/-- Where two ways begin alike, the order is that of what comes after. -/
theorem walkOrder_append (way : List Text) {s t : List Text} (hs : s ≠ []) (ht : t ≠ []) :
    walkOrder (way ++ s) (way ++ t) = walkOrder s t := by
  induction way with
  | nil => rfl
  | cons name way ih =>
      obtain ⟨a, as, ha⟩ := List.exists_cons_of_ne_nil (List.append_ne_nil_of_right_ne_nil way hs)
      obtain ⟨b, bs, hb⟩ := List.exists_cons_of_ne_nil (List.append_ne_nil_of_right_ne_nil way ht)
      rw [List.cons_append, List.cons_append, ha, hb, walkOrder, if_pos rfl, ← ha, ← hb, ih]

end Workspace

/-! ## The walk -/

namespace Workspace

variable {w : Workspace} {disk other : Disk} {root : Place} {depth : Nat} {way parts : List Text}
  {name : Text}

/-- Whether a walk takes in the file with a name in the folder at the end of a way. -/
def passes (w : Workspace) (disk : Disk) (way : List Text) (name : Text) : Bool :=
  !Glob.anyAccepts w.excludedFiles name && !w.isSettingsFile (w.fileAt (way ++ [name])).toText &&
    w.keepsLimit disk (w.fileAt (way ++ [name]))

/-- The names of the files in a folder that a walk takes in, in order. -/
def filesIn (w : Workspace) (disk : Disk) (root : Place) (way : List Text) : List Text :=
  let files := (disk.entries (root ++ way)).filter fun (name, item) =>
    !disk.leadsToFolder (root ++ way ++ [name]) item
  ((files.map Prod.fst).mergeSort Text.le).filter (w.passes disk way)

/-- The names of the subfolders that a walk goes into, in order: links are none of them. -/
def foldersIn (w : Workspace) (disk : Disk) (root : Place) (way : List Text) : List Text :=
  let folders := (disk.entries (root ++ way)).filter fun (name, item) =>
    item = .folder && !Glob.anyAccepts w.excludedFolders name
  (folders.map Prod.fst).mergeSort Text.le

/-- The ways to the files that a walk comes by from the end of a way, at most so many folders
deep. -/
def walkFrom (w : Workspace) (disk : Disk) (root : Place) :
    (depth : Nat) → (way : List Text) → List (List Text)
  | 0, _ => []
  | depth + 1, way =>
    (w.filesIn disk root way).map (way ++ [·]) ++
      (w.foldersIn disk root way).flatMap fun name => walkFrom w disk root depth (way ++ [name])

/-- At the end of a way stands a file that is not the settings file and not too large. -/
structure Offers (w : Workspace) (disk : Disk) (root : Place) (parts : List Text) : Prop where
  settings : w.isSettingsFile (w.fileAt parts).toText = false
  limit : w.keepsLimit disk (w.fileAt parts) = true
  item : ∃ item, (root ++ parts, item) ∈ disk.items ∧
    disk.leadsToFolder (root ++ parts) item = false

/-- The files of a folder are what it offers and no glob leaves out. -/
theorem mem_filesIn : name ∈ w.filesIn disk root way ↔
    Glob.anyAccepts w.excludedFiles name = false ∧ w.Offers disk root (way ++ [name]) := by
  simp only [filesIn, passes, List.mem_filter, List.mem_mergeSort, List.mem_map, Bool.and_eq_true,
    Bool.not_eq_true']
  constructor
  · intro h
    obtain ⟨⟨⟨found, item⟩, ⟨hm, hfile⟩, rfl⟩, ⟨hname, hsettings⟩, hlimit⟩ := h
    rw [List.append_assoc] at hfile
    rw [Disk.mem_entries, List.append_assoc] at hm
    exact ⟨hname, hsettings, hlimit, item, hm, hfile⟩
  · intro h
    obtain ⟨hname, hsettings, hlimit, item, hm, hfile⟩ := h
    rw [← List.append_assoc] at hm hfile
    exact ⟨⟨(name, item), ⟨Disk.mem_entries.2 hm, hfile⟩, rfl⟩, ⟨hname, hsettings⟩, hlimit⟩

/-- The folders that a walk enters are real ones that no glob leaves out. -/
theorem mem_foldersIn : name ∈ w.foldersIn disk root way ↔
    Glob.anyAccepts w.excludedFolders name = false ∧
      (root ++ way ++ [name], Item.folder) ∈ disk.items := by
  simp only [foldersIn, List.mem_mergeSort, List.mem_map, List.mem_filter, Bool.and_eq_true,
    Bool.not_eq_true', decide_eq_true_eq]
  constructor
  · intro h
    obtain ⟨⟨found, item⟩, ⟨hm, rfl, hname⟩, rfl⟩ := h
    exact ⟨hname, Disk.mem_entries.1 hm⟩
  · intro h
    exact ⟨(name, .folder), ⟨Disk.mem_entries.2 h.2, rfl, h.1⟩, rfl⟩

/-- A way through a folder is left out if the folder is, or the rest of the way. -/
theorem includes_cons (w : Workspace) (name : Text) {more : List Text} (h : more ≠ []) :
    w.includes (name :: more) = (!Glob.anyAccepts w.excludedFolders name && w.includes more) := by
  obtain ⟨front, last, rfl⟩ : ∃ front last, more = front ++ [last] :=
    ⟨more.dropLast, more.getLast h, (List.dropLast_concat_getLast h).symm⟩
  rw [← List.cons_append, includes, includes, List.getLast?_concat, List.getLast?_concat,
    List.dropLast_concat, List.dropLast_concat]
  simp [Bool.and_assoc]

/-- A way without names is no way to a file. -/
theorem ne_nil_of_includes (h : w.includes parts = true) : parts ≠ [] := by
  intro heq
  obtain rfl := heq
  simp [includes] at h

/-- A walk that goes deep enough still does so in a folder on its way. -/
theorem length_le_of_deeper
    (hdepth : ∀ entry ∈ disk.items, entry.1.length ≤ root.length + way.length + (depth + 1))
    (name : Text) : ∀ entry ∈ disk.items,
      entry.1.length ≤ root.length + (way ++ [name]).length + depth := by
  intro entry he
  have hlength := hdepth entry he
  rw [List.length_append, List.length_singleton]
  omega

/-- A walk that goes deep enough comes by the files that are not left out. -/
theorem mem_walkFrom (htree : disk.IsTree)
    (hdepth : ∀ entry ∈ disk.items, entry.1.length ≤ root.length + way.length + depth) :
    parts ∈ w.walkFrom disk root depth way ↔
      ∃ more, parts = way ++ more ∧ w.includes more = true ∧ w.Offers disk root parts := by
  induction depth generalizing way with
  | zero =>
      simp only [walkFrom, List.not_mem_nil, false_iff]
      intro hex
      obtain ⟨more, rfl, hincludes, hoffers⟩ := hex
      obtain ⟨item, hm, -⟩ := hoffers.item
      have hlength := hdepth _ hm
      have hpos := List.length_pos_iff.2 (ne_nil_of_includes hincludes)
      simp only [List.length_append] at hlength
      omega
  | succ depth ih =>
      -- Below a folder there is one level less, and one name more on the way.
      have hdeeper := length_le_of_deeper hdepth
      simp only [walkFrom, List.mem_append, List.mem_map, List.mem_flatMap, mem_filesIn,
        mem_foldersIn, ih (hdeeper _)]
      constructor
      · intro h
        rcases h with ⟨name, ⟨hname, hoffers⟩, rfl⟩ |
          ⟨name, ⟨hname, hm⟩, more, rfl, hincludes, hoffers⟩
        · exact ⟨[name], rfl, by simp [includes, hname], hoffers⟩
        · refine ⟨name :: more, by simp, ?_, hoffers⟩
          rw [includes_cons w name (ne_nil_of_includes hincludes), hname, hincludes]
          rfl
      · intro h
        obtain ⟨more, rfl, hincludes, hoffers⟩ := h
        obtain ⟨name, rest, rfl⟩ := List.exists_cons_of_ne_nil (ne_nil_of_includes hincludes)
        cases rest with
        | nil =>
            refine .inl ⟨name, ⟨?_, hoffers⟩, rfl⟩
            simpa [includes] using hincludes
        | cons next rest =>
            rw [includes_cons w name (List.cons_ne_nil next rest), Bool.and_eq_true,
              Bool.not_eq_true'] at hincludes
            obtain ⟨item, hm, -⟩ := hoffers.item
            have hsplit : root ++ (way ++ name :: next :: rest) =
                root ++ way ++ [name] ++ next :: rest := by simp
            have hfolder : disk.item? (root ++ way ++ [name]) = some .folder := by
              rw [hsplit] at hm
              have hi := (Disk.item?_eq_some htree.nodup (by simp)).2 hm
              exact htree.folder_of_append (List.cons_ne_nil next rest) hi
            refine .inr ⟨name, ⟨hincludes.1, ?_⟩, next :: rest, by simp, hincludes.2, hoffers⟩
            exact Disk.mem_items_of_item? (by simp) hfolder

/-- Names of a folder in order. -/
theorem strict_names (htree : disk.IsTree) (folder : Place) (keep : Text × Item → Bool) :
    ((((disk.entries folder).filter keep).map Prod.fst).mergeSort Text.le).Pairwise
      fun a b => Text.le b a = false :=
  Text.strict_sort
    ((htree.nodup_entries folder).sublist ((List.filter_sublist (p := keep)).map Prod.fst))

/-- A walk comes by its files in order. -/
theorem strict_walkFrom (htree : disk.IsTree)
    (hdepth : ∀ entry ∈ disk.items, entry.1.length ≤ root.length + way.length + depth) :
    (w.walkFrom disk root depth way).Pairwise fun a b => walkOrder b a = false := by
  induction depth generalizing way with
  | zero => exact List.Pairwise.nil
  | succ depth ih =>
      have hdeeper := length_le_of_deeper hdepth
      -- What is found in a folder has a way that goes on from there.
      have hway : ∀ name, ∀ found ∈ w.walkFrom disk root depth (way ++ [name]),
          ∃ next rest, found = way ++ name :: next :: rest := by
        intro name found hf
        obtain ⟨more, rfl, hincludes, -⟩ := (mem_walkFrom htree (hdeeper name)).1 hf
        obtain ⟨next, rest, rfl⟩ := List.exists_cons_of_ne_nil (ne_nil_of_includes hincludes)
        exact ⟨next, rest, by simp⟩
      refine List.pairwise_append.2 ⟨?_, List.pairwise_flatMap.2 ⟨?_, ?_⟩, ?_⟩
      · refine List.pairwise_map.2 (((strict_names htree _ _).sublist List.filter_sublist).imp ?_)
        intro a b hab
        rw [walkOrder_append way (by simp) (by simp), walkOrder]
        exact hab
      · intro name _
        exact ih (hdeeper name)
      · refine (strict_names htree _ _).imp fun {a b} hab one hone two htwo => ?_
        obtain ⟨next, rest, rfl⟩ := hway a one hone
        obtain ⟨next', rest', rfl⟩ := hway b two htwo
        have hne : b ≠ a := by
          intro heq
          obtain rfl := heq
          simpa [hab] using Text.le_total b b
        rw [walkOrder_append way (by simp) (by simp), walkOrder, if_neg hne]
        exact hab
      · intro one hone two htwo
        obtain ⟨file, -, rfl⟩ := List.mem_map.1 hone
        obtain ⟨name, -, htwo⟩ := List.mem_flatMap.1 htwo
        obtain ⟨next, rest, rfl⟩ := hway name two htwo
        rw [walkOrder_append way (by simp) (by simp)]
        simp [walkOrder]

/-! ## The list -/

/-- Every file below the root is a candidate, by a way of at least one name. -/
theorem mem_files (hroot : disk.locate w.root = .ok root) : parts ∈ w.files disk ↔
    parts ≠ [] ∧ ∃ item, (root ++ parts, item) ∈ disk.items ∧
      disk.leadsToFolder (root ++ parts) item = false := by
  simp only [files, hroot, List.mem_filterMap, Prod.exists, Disk.mem_below]
  constructor
  · intro hex
    obtain ⟨names, item, ⟨hne, hm⟩, hf⟩ := hex
    cases item with
    | folder => simp at hf
    | file content =>
        obtain rfl : names = parts := by simpa using hf
        exact ⟨hne, _, hm, rfl⟩
    | link target =>
        simp only at hf
        split at hf
        · cases hf
        · rename_i hfolder
          obtain rfl : names = parts := by simpa using hf
          exact ⟨hne, _, hm, by simpa [Disk.leadsToFolder] using hfolder⟩
  · intro hex
    obtain ⟨hne, item, hm, hfile⟩ := hex
    refine ⟨parts, item, ⟨hne, hm⟩, ?_⟩
    cases item with
    | folder => simp [Disk.leadsToFolder] at hfile
    | file content => rfl
    | link target => simpa [Disk.leadsToFolder] using hfile

/-- No way leads to two files. -/
theorem nodup_files (htree : disk.IsTree) : (w.files disk).Nodup := by
  unfold files
  split
  · exact List.nodup_nil
  · rename_i place hplace
    rw [← List.map_id (List.filterMap _ _)]
    refine nodup_map_filterMap (g := id) (htree.nodup_below place) fun entry names hn => ?_
    obtain ⟨parts, item⟩ := entry
    cases item with
    | folder => cases hn
    | file content => exact Option.some.inj hn
    | link target =>
        simp only at hn
        split at hn
        · cases hn
        · exact Option.some.inj hn

/-- What a scan lists is in order. -/
theorem strict_list (htree : disk.IsTree) :
    (((w.files disk).filter (w.takes disk)).mergeSort walkOrder).Pairwise
      fun a b => walkOrder b a = false :=
  strict_mergeSort walkOrder_trans walkOrder_total walkOrder_antisymm
    ((nodup_files htree).sublist List.filter_sublist)

/-- **The walk is the list.**  A scan lists the files that a walk comes by from the root, in the
same order. -/
theorem list_eq_walkFrom (htree : disk.IsTree) (hasked : Disk.malformed? w.root = none)
    (hroot : disk.locate w.root = .ok root)
    (hdepth : ∀ entry ∈ disk.items, entry.1.length ≤ depth) :
    w.list disk =
      .ok ((w.walkFrom disk root depth []).map fun parts => (w.fileAt parts).toText) := by
  have hdeep : ∀ entry ∈ disk.items,
      entry.1.length ≤ root.length + ([] : List Text).length + depth :=
    fun entry he => Nat.le_trans (hdepth entry he) (Nat.le_add_left _ _)
  have hsame : ((w.files disk).filter (w.takes disk)).mergeSort walkOrder =
      w.walkFrom disk root depth [] := by
    refine eq_of_strict walkOrder_total (strict_list htree) (strict_walkFrom htree hdeep) ?_
    intro parts
    rw [List.mem_mergeSort, List.mem_filter, mem_files hroot, mem_walkFrom htree hdeep]
    simp only [takes, Bool.and_eq_true, Bool.not_eq_true', List.nil_append]
    constructor
    · intro h
      obtain ⟨⟨-, item⟩, ⟨hincludes, hsettings⟩, hlimit⟩ := h
      exact ⟨parts, rfl, hincludes, hsettings, hlimit, item⟩
    · intro hex
      obtain ⟨more, rfl, hincludes, hoffers⟩ := hex
      exact ⟨⟨ne_nil_of_includes hincludes, hoffers.item⟩, ⟨hincludes, hoffers.settings⟩,
        hoffers.limit⟩
  rw [list, hasked, hsame]

/-- The order in which a disk tells its items makes no difference to the list. -/
theorem list_of_perm (htree : disk.IsTree) (hp : other.items.Perm disk.items) :
    w.list other = w.list disk := by
  have hitem := Disk.item?_of_perm htree.nodup hp
  have hother : other.IsTree := by
    refine ⟨(hp.map Prod.fst).nodup_iff.2 htree.nodup, fun entry he => ?_, fun entry he => ?_⟩
    · exact htree.proper entry (hp.mem_iff.1 he)
    · rw [hitem]
      exact htree.parent entry (hp.mem_iff.1 he)
  have hfind := Disk.find_congr hitem
  have hlocate : other.locate w.root = disk.locate w.root := by
    simp only [Disk.locate, Disk.walk_congr hitem]
  have hfiles : ∀ parts, parts ∈ w.files other ↔ parts ∈ w.files disk := by
    intro parts
    cases hroot : disk.locate w.root with
    | error fault => simp [files, hlocate, hroot]
    | ok root =>
        have hleads : other.leadsToFolder (root ++ parts) = disk.leadsToFolder (root ++ parts) := by
          funext item
          cases item <;> simp only [Disk.leadsToFolder, Disk.isFolder, hfind]
        rw [mem_files (hlocate.trans hroot), mem_files hroot, hleads]
        simp only [hp.mem_iff]
  have htakes : w.takes other = w.takes disk := by
    funext parts
    simp only [takes, keepsLimit, Disk.read, hfind]
  have hsame : ((w.files other).filter (w.takes other)).mergeSort walkOrder =
      ((w.files disk).filter (w.takes disk)).mergeSort walkOrder := by
    refine eq_of_strict walkOrder_total (strict_list hother) (strict_list htree) fun parts => ?_
    simp only [List.mem_mergeSort, List.mem_filter, hfiles, htakes]
  rw [list, list, hsame]

/-- A scan lists no path twice. -/
theorem nodup_list (h : w.root.IsPlain) (htree : disk.IsTree) (hnames : disk.HasNames)
    {paths : List Text} (hlist : w.list disk = .ok paths) : paths.Nodup := by
  unfold list at hlist
  split at hlist
  · cases hlist
  · cases hlist
    refine List.pairwise_map.2 ((nodup_of_strict walkOrder_total (strict_list htree)).imp_of_mem ?_)
    intro one two hone htwo hne hsame
    have hplain : ∀ parts ∈ ((w.files disk).filter (w.takes disk)).mergeSort walkOrder,
        (w.fileAt parts).IsPlain := by
      intro parts hm
      have hf := (List.mem_filter.1 (List.mem_mergeSort.1 hm)).1
      exact fileAt_isPlain h fun part hp => (isName_of_mem_files hnames hf part hp).toIsName
    have hpath := Path.toText_inj (hplain one hone) (hplain two htwo) hsame
    exact hne (List.append_cancel_left (congrArg Path.parts hpath))

/-! ## Single files -/

/-- A file that stands below the root is read there, unless its path is too long. -/
theorem read_fileAt (h : w.root.IsPlain) (htree : disk.IsTree)
    (hasked : Disk.malformed? w.root = none) (hroot : disk.locate w.root = .ok root)
    (hnames : ∀ part ∈ parts, Disk.IsName part) {content : List UInt8}
    (hi : disk.item? (root ++ parts) = some (.file content)) :
    disk.read (w.fileAt parts) = .ok content ∨
      disk.find (w.fileAt parts) = .error .nameTooLong := by
  have hmalformed : Disk.malformed? (w.fileAt parts) = none :=
    Path.malformed?_append h.absolute hasked hnames
  by_cases hlong : Disk.pathLimit < Utf8.size (w.fileAt parts).toText
  · refine .inr ?_
    simp only [Disk.find, Disk.locate, hmalformed, if_pos hlong]
    rfl
  have hwalk := (Disk.locate_eq_ok.1 hroot).2.2
  obtain ⟨left, hleft⟩ := Disk.walk_append disk Disk.linkLimit [] w.root.parts parts
  have hrest : disk.walk Disk.linkLimit [] (w.fileAt parts).parts = disk.walk left root parts := by
    rw [fileAt, hleft, hwalk]
    rfl
  have hlocate : disk.locate (w.fileAt parts) = disk.walk left root parts := by
    rw [Disk.locate, hmalformed, ← hrest]
    exact if_neg hlong
  obtain ⟨follow, hfollow⟩ := disk.walk_eq_walkWith left
  have hends : disk.walkWith follow root parts = .ok (root ++ parts) ∨
      disk.walkWith follow root parts = .error .nameTooLong :=
    htree.walkWith_eq (fun part hp => (hnames part hp).toIsName) hi fun target he => by cases he
  rcases hends with hok | herror
  · refine .inl (Disk.read_eq_ok.2 ⟨root ++ parts, ?_, hi⟩)
    rw [hlocate, hfollow, hok]
  · refine .inr ?_
    rw [Disk.find, hlocate, hfollow, herror]
    rfl

/-- Where a path can be looked up, it is told whether it is accepted. -/
theorem exists_accepts_of_find {path : Text}
    (hfind : ∀ fault, disk.find (w.locate path) = .error fault →
      fault = .notFound ∨ fault = .notFolder) :
    ∃ accepted, w.accepts disk path = .ok accepted := by
  unfold accepts
  split
  · exact ⟨false, rfl⟩
  · have hfile : ∃ found, w.isFile disk path = .ok found := by
      unfold isFile Disk.isFile
      cases hf : disk.find (w.locate path) with
      | ok item => cases item <;> exact ⟨_, rfl⟩
      | error fault =>
          rcases hfind fault hf with rfl | rfl <;> exact ⟨false, rfl⟩
    obtain ⟨found, hfound⟩ := hfile
    exact ⟨_, by rw [hfound]; rfl⟩

/-- On a tree without links, what a scan lists is accepted by itself, if it can be looked up. -/
theorem accepts_of_listed (h : w.root.IsPlain) (htree : disk.IsTree) (hnames : disk.HasNames)
    (hasked : Disk.malformed? w.root = none) (hlinks : w.HasNoLinks disk) {paths : List Text}
    (hlist : w.list disk = .ok paths) {path : Text} (hm : w.normalize path ∈ paths)
    (hfind : disk.find (w.locate path) ≠ .error .nameTooLong) : w.accepts disk path = .ok true := by
  obtain ⟨parts, hfiles, -, hpath⟩ := (mem_list hlist).1 hm
  have hparts := isName_of_mem_files hnames hfiles
  have hplain := fileAt_isPlain h fun part hp => (hparts part hp).toIsName
  have hlocated : w.locate path = w.fileAt parts :=
    Path.toText_inj (locate_isPlain h path) hplain hpath
  have hread : ∃ content, disk.read (w.locate path) = .ok content := by
    cases hroot : disk.locate w.root with
    | error fault => simp [files, hroot] at hfiles
    | ok root =>
        obtain ⟨hne, item, hitem, hleads⟩ := (mem_files hroot).1 hfiles
        cases item with
        | folder => simp [Disk.leadsToFolder] at hleads
        | link target => exact absurd (Disk.mem_below.2 ⟨hne, hitem⟩) (hlinks root hroot _ _)
        | file content =>
            have hi := (Disk.item?_eq_some htree.nodup (by simp [hne])).2 hitem
            rcases read_fileAt h htree hasked hroot hparts hi with hread | herror
            · exact ⟨content, hlocated ▸ hread⟩
            · exact absurd (hlocated ▸ herror) hfind
  obtain ⟨content, hread⟩ := hread
  have haccepts : w.accepts disk (w.normalize path) = .ok true :=
    accepts_of_mem_list h hnames hlist hm (by rwa [locate_normalize h])
  rw [accepts_eq_true] at haccepts ⊢
  rwa [normalize_normalize h, inScope_normalize h, locate_normalize h] at haccepts

/-- **What is accepted is listed.**  On a tree without links, a file is accepted by itself exactly
if a full scan lists it, for each path that can be looked up, however it is spelled.  The list holds
no path twice, and it does not depend on the order in which the disk tells what there is. -/
theorem accepts_iff_mem_list {root : Text} (hroot : (Path.ofText root).isAbsolute = true)
    {search : Search} {file : Text} {override : Option Text}
    (hw : w = .ofRoot (Path.ofText root) search file override)
    (hasked : Disk.malformed? w.root = none) (htree : disk.IsTree) (hnames : disk.HasNames)
    (hlinks : w.HasNoLinks disk) :
    ∃ paths, w.list disk = .ok paths ∧ paths.Nodup ∧
      (∀ path, (∀ fault, disk.find (w.locate path) = .error fault →
          fault = .notFound ∨ fault = .notFolder) →
        ∃ accepted, w.accepts disk path = .ok accepted ∧
          (accepted = true ↔ w.normalize path ∈ paths)) ∧
      ∀ other : Disk, other.items.Perm disk.items → w.list other = .ok paths := by
  have hplain : w.root.IsPlain := hw ▸ (Workspace.ofRoot_isPlain hroot search file override).root
  obtain ⟨paths, hlist⟩ := exists_list.1 hasked
  refine ⟨paths, hlist, nodup_list hplain htree hnames hlist, fun path hfind => ?_,
    fun other hp => (list_of_perm htree hp).trans hlist⟩
  obtain ⟨accepted, ha⟩ := exists_accepts_of_find hfind
  refine ⟨accepted, ha, ?_⟩
  constructor
  · intro he
    obtain rfl := he
    exact mem_list_of_accepts hplain hlinks hlist ha
  · intro hm
    -- The lookup may miss the file, but it does not fail for a name that is too long.
    have hlong : disk.find (w.locate path) ≠ .error .nameTooLong := by
      intro herror
      rcases hfind _ herror with he | he <;> cases he
    rw [accepts_of_listed hplain htree hnames hasked hlinks hlist hm hlong] at ha
    exact (Except.ok.inj ha).symm

/-- A project with a subfolder that is left out. -/
def nestedProject : Disk where
  items := [(["p"], .folder), (["p", "src"], .folder), (["p", "src", "b.py"], .file []),
    (["p", "z.py"], .file []), (["p", "out"], .folder), (["p", "out", "c.py"], .file [])]

/-- The workspace of that project. -/
def tidy : Workspace := .ofRoot (Path.ofText "/p") { excludedFolders := ["out"] }

/-- What is asked about some files of the project: the second one is left out. -/
theorem tidy_looks :
    (nestedProject.find (tidy.locate "src/../src//b.py")).toOption.isSome = true ∧
      (tidy.accepts nestedProject "src/../src//b.py").toOption = some true ∧
      tidy.normalize "src/../src//b.py" = "/p/src/b.py" ∧
      (nestedProject.find (tidy.locate "out/c.py")).toOption.isSome = true ∧
      (tidy.accepts nestedProject "out/c.py").toOption = some false ∧
      tidy.normalize "out/c.py" = "/p/out/c.py" := by
  decide +kernel

/-- The list of the project holds the one file, which is accepted, and not the other one; it is the
same when the disk tells its items the other way round. -/
theorem accepts_iff_mem_list_tidy : ∃ paths, tidy.list nestedProject = .ok paths ∧
    ("/p/src/b.py" : Text) ∈ paths ∧ ("/p/out/c.py" : Text) ∉ paths ∧
    tidy.list { items := nestedProject.items.reverse } = .ok paths := by
  obtain ⟨hfound, haccepts, hnormal, hfound', haccepts', hnormal'⟩ := tidy_looks
  have hroot : (Path.ofText "/p").isAbsolute = true := by decide +kernel
  have htidy : tidy = .ofRoot (Path.ofText "/p") { excludedFolders := ["out"] } [] none := rfl
  have hlinks : tidy.HasNoLinks nestedProject :=
    hasNoLinks_of_forall (by simp [nestedProject])
  obtain ⟨paths, hlist, -, hmem, hperm⟩ := accepts_iff_mem_list hroot htidy (by decide +kernel)
    (by decide +kernel : nestedProject.IsTree) (by decide +kernel) hlinks
  have hsame : ∀ path accepted, (nestedProject.find (tidy.locate path)).toOption.isSome = true →
      (tidy.accepts nestedProject path).toOption = some accepted →
      (accepted = true ↔ tidy.normalize path ∈ paths) := by
    intro path accepted hf ha
    have hfind : ∀ fault, nestedProject.find (tidy.locate path) = .error fault →
        fault = .notFound ∨ fault = .notFolder := by
      intro fault he
      simp [he, Except.toOption] at hf
    obtain ⟨found, hfound, hiff⟩ := hmem path hfind
    obtain rfl : found = accepted := by simpa [hfound, Except.toOption] using ha
    exact hiff
  refine ⟨paths, hlist, ?_, ?_, hperm _ (List.reverse_perm _)⟩
  · rw [← hnormal]
    exact (hsame _ true hfound haccepts).1 rfl
  · rw [← hnormal']
    exact fun hm => by cases (hsame _ false hfound' haccepts').2 hm

end Workspace

end Marginalia
