import Mathlib.Data.List.Induction
import Marginalia.Proofs.Listing

/-!
# Trees

A disk is a tree where no place is taken twice and each item stands in a folder (`Disk.IsTree`).  In
a tree, whatever leads to an item is a folder (`Disk.IsTree.folder_of_append`), so names lead
straight to an item that is no link (`Disk.IsTree.walkWith_eq`).  What a path means does not depend
on the order in which the items are told (`Disk.item?_of_perm`, `Disk.find_congr`), and a folder
holds no name twice.
-/

namespace Marginalia

/-- What is made of things with different keys has different keys, if these tell the keys of the
things. -/
theorem nodup_map_filterMap {α β κ γ : Type} {items : List α} {key : α → κ} {made : α → Option β}
    {tag : β → γ} {g : γ → κ} (h : (items.map key).Nodup)
    (hkey : ∀ a b, made a = some b → key a = g (tag b)) :
    ((items.filterMap made).map tag).Nodup := by
  refine List.pairwise_map.2 (List.pairwise_filterMap.2 ((List.pairwise_map.1 h).imp ?_))
  intro one two hne part hp other ho hsame
  exact hne (by rw [hkey one part hp, hkey two other ho, hsame])

namespace Disk

variable {disk other : Disk} {place : Place} {names : List Text} {item : Item}

/-- A disk as disks are: no place is taken twice, and each item stands in a folder. -/
structure IsTree (disk : Disk) : Prop where
  nodup : (disk.items.map Prod.fst).Nodup
  proper : ∀ entry ∈ disk.items, entry.1 ≠ []
  parent : ∀ entry ∈ disk.items, disk.item? entry.1.dropLast = some .folder

instance (disk : Disk) : Decidable disk.IsTree :=
  decidable_of_iff
    ((disk.items.map Prod.fst).Nodup ∧ (∀ entry ∈ disk.items, entry.1 ≠ []) ∧
      ∀ entry ∈ disk.items, disk.item? entry.1.dropLast = some .folder)
    ⟨fun h => ⟨h.1, h.2.1, h.2.2⟩, fun h => ⟨h.nodup, h.proper, h.parent⟩⟩

/-- Where no place is taken twice, each item stands at its place. -/
theorem item?_eq_some (h : (disk.items.map Prod.fst).Nodup) (hne : place ≠ []) :
    disk.item? place = some item ↔ (place, item) ∈ disk.items := by
  refine ⟨mem_items_of_item? hne, fun hm => ?_⟩
  have hp : place.isEmpty = false := by simpa using hne
  simp only [item?, hp, Bool.false_eq_true, if_false]
  generalize disk.items = items at h hm
  induction items with
  | nil => simp at hm
  | cons entry rest ih =>
      rw [List.map_cons, List.nodup_cons] at h
      rcases List.mem_cons.1 hm with rfl | hm
      · exact List.lookup_cons_self
      · have hother : place ≠ entry.1 := by
          intro heq
          exact h.1 (heq ▸ List.mem_map_of_mem hm)
        rw [List.lookup_cons, beq_false_of_ne hother]
        exact ih h.2 hm

/-- What leads to an item of a tree is a folder. -/
theorem IsTree.folder_of_append (h : disk.IsTree) (hne : names ≠ [])
    (hi : disk.item? (place ++ names) = some item) : disk.item? place = some .folder := by
  induction names using List.reverseRecOn generalizing item with
  | nil => exact absurd rfl hne
  | append_singleton names name ih =>
      rw [← List.append_assoc] at hi
      have hparent := h.parent _ (mem_items_of_item? (by simp) hi)
      rw [List.dropLast_concat] at hparent
      by_cases hnames : names = []
      · rwa [hnames, List.append_nil] at hparent
      · exact ih hnames hparent

/-- **Names lead straight on.**  In a tree, names lead to an item that is no link, unless one of
them is too long. -/
theorem IsTree.walkWith_eq (h : disk.IsTree) {follow : Place → List Text → Except Fault Place}
    (hn : ∀ name ∈ names, Path.IsName name) (hi : disk.item? (place ++ names) = some item)
    (hl : ∀ target, item ≠ .link target) :
    disk.walkWith follow place names = .ok (place ++ names) ∨
      disk.walkWith follow place names = .error .nameTooLong := by
  induction names generalizing place with
  | nil => exact .inl (by rw [List.append_nil]; rfl)
  | cons name rest ih =>
      have hname := hn name List.mem_cons_self
      have hrest := fun other ho => hn other (List.mem_cons_of_mem _ ho)
      have hfolder := h.folder_of_append (List.cons_ne_nil name rest) hi
      rw [List.append_cons] at hi ⊢
      have hnext : ∃ next, disk.item? (place ++ [name]) = some next ∧
          ∀ target, next ≠ .link target := by
        by_cases hlast : rest = []
        · exact ⟨item, by simpa [hlast] using hi, hl⟩
        · exact ⟨.folder, h.folder_of_append hlast hi, fun target he => by cases he⟩
      obtain ⟨next, hnext, hnolink⟩ := hnext
      unfold walkWith
      by_cases hlong : nameLimit < Utf8.size name
      · simp [hfolder, hname.ne_dot, hname.ne_dotDot, hlong]
      · simp only [hfolder, ne_eq, not_true_eq_false, if_false, hname.ne_dot, hname.ne_dotDot,
          hlong, hnext]
        cases next with
        | link target => exact absurd rfl (hnolink target)
        | file content => exact ih hrest hi
        | folder => exact ih hrest hi

/-! ### The order of items -/

/-- The order of items makes no difference to what stands at a place. -/
theorem item?_of_perm (h : (disk.items.map Prod.fst).Nodup) (hp : other.items.Perm disk.items) :
    other.item? = disk.item? := by
  have hother : (other.items.map Prod.fst).Nodup := (hp.map Prod.fst).nodup_iff.2 h
  funext place
  by_cases hne : place = []
  · rw [hne, item?_root, item?_root]
  · refine Option.ext fun item => ?_
    rw [item?_eq_some hother hne, item?_eq_some h hne]
    exact hp.mem_iff

/-- A walk sees of the disk only its items. -/
theorem walkWith_congr (h : other.item? = disk.item?)
    (follow : Place → List Text → Except Fault Place) (start : Place) (names : List Text) :
    other.walkWith follow start names = disk.walkWith follow start names := by
  induction names generalizing start with
  | nil => rfl
  | cons name rest ih => simp only [walkWith, h, ih]

/-- So does a walk that follows links. -/
theorem walk_congr (h : other.item? = disk.item?) (links : Nat) (start : Place)
    (names : List Text) : other.walk links start names = disk.walk links start names := by
  induction links generalizing start names with
  | zero => exact walkWith_congr h _ start names
  | succ links ih =>
      have hfollow : other.walk links = disk.walk links := by
        funext start names
        exact ih start names
      show other.walkWith (other.walk links) start names = _
      rw [hfollow]
      exact walkWith_congr h _ start names

/-- **The order does not count.**  What a path means depends on what stands at places, and on
nothing else. -/
theorem find_congr (h : other.item? = disk.item?) (path : Path) :
    other.find path = disk.find path := by
  simp only [find, locate, walk_congr h, h]

/-! ### Folders -/

/-- The items in a folder, in the order in which the disk tells them. -/
def entries (disk : Disk) (folder : Place) : List (Text × Item) :=
  disk.items.filterMap fun (place, item) =>
    place.getLast?.bind fun name => if place.dropLast = folder then some (name, item) else none

/-- Whether an item at a place is a folder, or leads to one. -/
def leadsToFolder (disk : Disk) (place : Place) : Item → Bool
  | .folder => true
  | .file _ => false
  | .link _ => disk.isFolder { origin := .root, parts := place }

/-- What a folder holds. -/
theorem mem_entries {folder : Place} {name : Text} :
    (name, item) ∈ disk.entries folder ↔ (folder ++ [name], item) ∈ disk.items := by
  simp only [entries, List.mem_filterMap]
  constructor
  · intro hex
    obtain ⟨⟨place, found⟩, hm, he⟩ := hex
    obtain ⟨last, hlast, he⟩ := Option.bind_eq_some_iff.1 he
    split at he
    · rename_i hfolder
      cases he
      obtain ⟨front, rfl⟩ := List.getLast?_eq_some_iff.1 hlast
      rw [List.dropLast_concat] at hfolder
      exact hfolder ▸ hm
    · cases he
  · intro hm
    exact ⟨_, hm, by simp⟩

/-- A folder holds no name twice. -/
theorem IsTree.nodup_entries (h : disk.IsTree) (folder : Place) :
    ((disk.entries folder).map Prod.fst).Nodup := by
  refine nodup_map_filterMap (g := fun name => folder ++ [name]) h.nodup fun whole part hpart => ?_
  obtain ⟨last, hlast, hpart⟩ := Option.bind_eq_some_iff.1 hpart
  split at hpart
  · rename_i hfolder
    cases hpart
    obtain ⟨front, hfront⟩ := List.getLast?_eq_some_iff.1 hlast
    rw [hfront, List.dropLast_concat] at hfolder
    rw [hfront, hfolder]
  · cases hpart

/-- Nothing stands twice below a place. -/
theorem IsTree.nodup_below (h : disk.IsTree) (place : Place) :
    ((disk.below place).map Prod.fst).Nodup := by
  refine nodup_map_filterMap (g := fun names => place ++ names) h.nodup fun whole part hpart => ?_
  simp only at hpart
  split at hpart
  · rename_i hbelow
    rw [Bool.and_eq_true, List.isPrefixOf_iff_prefix] at hbelow
    obtain ⟨more, hmore⟩ := hbelow.1
    cases hpart
    rw [← hmore, List.drop_left]
  · cases hpart

end Disk

end Marginalia
