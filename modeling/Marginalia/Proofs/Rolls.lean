import Mathlib.Data.List.Basic
import Mathlib.Data.List.Forall2
import Marginalia.Proofs.Index
import Marginalia.Proofs.Order

/-!
# Rolls

What an index holds can be told without the index: it is a *roll*, a list of entries with distinct
paths.  New notes for a path that is on the roll take the place of its old ones, and a new path
comes last; a path that is struck off leaves the others in their order; and a roll that is drawn up
from entries has each path where it came first, with the entry that came last (`Roll`).

Entries are things that can be changed, and an index does not copy those that it is given.  So what
was taken from an index at some time could be changed under the hands of those who took it.  A
*shelf* says which entries have been made and to which of them the index refers (`Shelf`).  Each
change of the index makes a new entry and leaves the others as they were made, so nothing that was
taken changes (`Shelf.run_shown`).

Main statement: `Index.agrees_with_roll`.
-/

namespace Marginalia

/-! ## Entries with distinct paths -/

/-- Entries with distinct paths, in order. -/
@[ext] structure Roll where
  entries : List Entry
  distinct : (entries.map (·.path)).Nodup

namespace Roll

/-- The paths of a roll. -/
def paths (roll : Roll) : List Text := roll.entries.map (·.path)

/-- New notes change no path. -/
theorem map_path_renew (entries : List Entry) (path : Text) (notes : List Note) :
    (entries.map fun entry => if entry.path = path then { entry with notes } else entry).map
      (·.path) = entries.map (·.path) := by
  rw [List.map_map]
  refine List.map_congr_left fun entry _ => ?_
  simp only [Function.comp_apply]
  split <;> rfl

/-- New notes for a path: the entry of the path keeps its place and whether it is shown, and a path
without an entry gets one at the end, which is not shown. -/
def update (roll : Roll) (path : Text) (notes : List Note) : Roll :=
  if h : path ∈ roll.paths then
    { entries := roll.entries.map fun entry =>
        if entry.path = path then { entry with notes } else entry
      distinct := map_path_renew roll.entries path notes ▸ roll.distinct }
  else
    { entries := roll.entries ++ [{ path, notes, expanded := false }]
      distinct := by
        rw [List.map_append, List.nodup_append]
        refine ⟨roll.distinct, by simp, fun one hone two htwo heq => h ?_⟩
        obtain rfl : two = path := by simpa using htwo
        exact heq ▸ hone }

/-- Strikes off a path. -/
def remove (roll : Roll) (path : Text) : Roll where
  entries := roll.entries.eraseP (·.path = path)
  distinct := (List.eraseP_sublist.map _).nodup roll.distinct

/-- The entry of a path that was given last. -/
def lastOf (given : List Entry) (path : Text) : Option Entry :=
  (given.filter (·.path = path)).getLast?

/-- The last entry for a path is for that path. -/
theorem path_of_lastOf {given : List Entry} {path : Text} {entry : Entry}
    (h : lastOf given path = some entry) : entry.path = path := by
  simpa using (List.mem_filter.1 (List.mem_of_getLast? h)).2

/-- The roll of given entries: each path has the place where it came first, and the entry that came
last. -/
def ofEntries (given : List Entry) : Roll where
  entries := (given.map (·.path)).eraseDups.filterMap (lastOf given)
  distinct := by
    refine List.pairwise_map.2 (List.pairwise_filterMap.2 ((Text.nodup_eraseDups _).imp ?_))
    intro one two hne first hfirst second hsecond heq
    exact hne ((path_of_lastOf hfirst).symm.trans (heq.trans (path_of_lastOf hsecond)))

end Roll

/-! ## An index as a roll -/

namespace Index

/-- What is done with an index. -/
inductive Operation where
  | update (path : Text) (notes : List Note)
  | remove (path : Text)
  | replaceAll (given : List Entry)

/-- An index after something was done with it. -/
def perform (index : Index) : Operation → Index
  | .update path notes => index.update path notes
  | .remove path => index.remove path
  | .replaceAll given => ofEntries given

end Index

/-- A roll after the same was done with it. -/
def Roll.perform (roll : Roll) : Index.Operation → Roll
  | .update path notes => roll.update path notes
  | .remove path => roll.remove path
  | .replaceAll given => ofEntries given

namespace Index

/-- What an index answers to all that it can be asked is read off a roll.  Going through an index is
going through its entries. -/
structure Agrees (index : Index) (roll : Roll) : Prop where
  entries : index.entries = roll.entries
  paths : index.paths = roll.paths
  size : index.size = roll.entries.length
  get? : ∀ path entry, index.get? path = some entry ↔ entry ∈ roll.entries ∧ entry.path = path
  contains : ∀ path, index.contains path = true ↔ path ∈ roll.paths

variable {index : Index} {roll : Roll} {path : Text}

/-- An index and a roll with the same entries have the same paths. -/
theorem paths_eq (h : index.entries = roll.entries) : index.paths = roll.paths := by
  rw [Index.paths, h, Roll.paths]

/-- An entry of a path that is there takes the place of the old one. -/
theorem entries_put_of_mem {entry : Entry} (hnodup : index.paths.Nodup)
    (h : entry.path ∈ index.paths) : (index.put entry).entries =
      index.entries.map fun other => if other.path = entry.path then entry else other := by
  obtain ⟨held⟩ := index
  simp only [put, Index.paths] at hnodup h ⊢
  induction held with
  | nil => simp at h
  | cons first rest ih =>
      rw [List.map_cons, List.nodup_cons] at hnodup
      rw [putIn, List.map_cons]
      by_cases hfirst : first.path = entry.path
      · have hothers : rest.map (fun other => if other.path = entry.path then entry else other) =
            rest := by
          refine (List.map_congr_left fun other ho => if_neg fun heq => hnodup.1 ?_).trans
            (List.map_id' rest)
          rw [hfirst, ← heq]
          exact List.mem_map_of_mem ho
        rw [if_pos hfirst, if_pos hfirst, hothers]
      · rw [List.map_cons, List.mem_cons] at h
        rw [if_neg hfirst, if_neg hfirst, ih hnodup.2 (h.resolve_left (Ne.symm hfirst))]

/-- The entries are those that are found at the paths, in their order. -/
theorem filterMap_get? (h : index.paths.Nodup) :
    index.paths.filterMap index.get? = index.entries := by
  rw [Index.paths, List.filterMap_map]
  refine (List.filterMap_congr fun entry he => ?_).trans List.filterMap_some
  exact get?_of_mem h he

/-- A filled index has each path where it came first. -/
theorem paths_ofEntries (given : List Entry) :
    (ofEntries given).paths = (given.map (·.path)).eraseDups := by
  induction given using List.reverseRecOn with
  | nil => rfl
  | append_singleton given last ih =>
      have hput : ofEntries (given ++ [last]) = (ofEntries given).put last := by
        simp [ofEntries]
      rw [hput, paths_put, ih, List.map_append, List.map_singleton,
        Text.eraseDups_append_singleton]
      simp only [List.mem_eraseDups]

/-! ### The same entries -/

/-- New notes for a path come to an index as to a roll. -/
theorem entries_update (h : index.entries = roll.entries) (notes : List Note) :
    (index.update path notes).entries = (roll.update path notes).entries := by
  have hpaths := paths_eq h
  have hnodup : index.paths.Nodup := hpaths ▸ roll.distinct
  unfold update Roll.update
  by_cases hm : path ∈ roll.paths
  · rw [dif_pos hm, entries_put_of_mem hnodup (hpaths ▸ hm), h]
    refine List.map_congr_left fun entry he => ?_
    by_cases hpath : entry.path = path
    · have hfound : index.get? path = some entry := hpath ▸ get?_of_mem hnodup (h ▸ he)
      simp [renewed, hfound, hpath]
    · simp [renewed, hpath]
  · have hnone : index.get? path = none := by
      refine List.find?_eq_none.2 fun entry he => ?_
      have hne : entry.path ≠ path := fun heq => hm (heq ▸ hpaths ▸ List.mem_map_of_mem he)
      simpa using hne
    rw [dif_neg hm, entries_put_of_not_mem (hpaths ▸ hm), h]
    simp [renewed, hnone]

/-- A path is taken out of an index as it is struck off a roll. -/
theorem entries_remove (h : index.entries = roll.entries) :
    (index.remove path).entries = (roll.remove path).entries := by
  obtain ⟨entries, distinct⟩ := roll
  simp only [remove, Roll.remove] at h ⊢
  rw [h]
  clear h
  induction entries with
  | nil => rfl
  | cons first rest ih =>
      rw [List.map_cons, List.nodup_cons] at distinct
      by_cases hfirst : first.path = path
      · have hothers : rest.filter (·.path ≠ path) = rest := by
          refine List.filter_eq_self.2 fun entry he => ?_
          have hne : entry.path ≠ path :=
            fun heq => distinct.1 (hfirst.trans heq.symm ▸ List.mem_map_of_mem he)
          simpa using hne
        rw [List.filter_cons_of_neg (by simpa using hfirst),
          List.eraseP_cons_of_pos (by simpa using hfirst), hothers]
      · rw [List.filter_cons_of_pos (by simpa using hfirst),
          List.eraseP_cons_of_neg (by simpa using hfirst), ih distinct.2]

/-- An index is filled as a roll is drawn up. -/
theorem entries_ofEntries_eq (given : List Entry) :
    (ofEntries given).entries = (Roll.ofEntries given).entries := by
  rw [← filterMap_get? (paths_nodup_ofEntries given), paths_ofEntries]
  exact List.filterMap_congr fun path _ => get?_ofEntries given path

/-- One operation does the same to both. -/
theorem entries_perform (h : index.entries = roll.entries) (operation : Operation) :
    (index.perform operation).entries = (roll.perform operation).entries := by
  cases operation with
  | update path notes => exact entries_update h notes
  | remove path => exact entries_remove h
  | replaceAll given => exact entries_ofEntries_eq given

/-- So do several, one after the other. -/
theorem entries_foldl_perform (h : index.entries = roll.entries) (operations : List Operation) :
    (operations.foldl perform index).entries = (operations.foldl Roll.perform roll).entries := by
  induction operations generalizing index roll with
  | nil => exact h
  | cons operation rest ih => exact ih (entries_perform h operation)

/-- With the same entries, all answers are the same. -/
theorem agrees_of_entries (h : index.entries = roll.entries) : index.Agrees roll where
  entries := h
  paths := paths_eq h
  size := congrArg List.length h
  get? := by
    have hnodup : index.paths.Nodup := paths_eq h ▸ roll.distinct
    intro path entry
    rw [← h]
    constructor
    · exact mem_of_get?_eq_some
    · rintro ⟨he, rfl⟩
      exact get?_of_mem hnodup he
  contains := by
    intro path
    simp [contains, Index.get?, h, Roll.paths]

end Index

/-! ## Entries that are shared -/

/-- The entries that have been made, known by their numbers, and for each path of an index the
number of the entry that it refers to. -/
structure Shelf where
  made : List Entry
  slots : List (Text × Nat) := []

namespace Shelf

/-- What the entries with some numbers are like. -/
def shown (shelf : Shelf) (numbers : List Nat) : List Entry := numbers.filterMap (shelf.made[·]?)

/-- The entries of the index, as they are handed out. -/
def taken (shelf : Shelf) : List Nat := shelf.slots.map Prod.snd

/-- The entry that the index refers to for a path. -/
def get? (shelf : Shelf) (path : Text) : Option Entry :=
  (shelf.slots.lookup path).bind (shelf.made[·]?)

/-- Lets a path refer to an entry: a path that is there keeps its place, and a new one comes
last. -/
def assign (path : Text) (number : Nat) : List (Text × Nat) → List (Text × Nat)
  | [] => [(path, number)]
  | slot :: rest =>
      if slot.1 = path then (path, number) :: rest else slot :: assign path number rest

/-- Lets the path of an entry refer to it. -/
def refer (made : List Entry) (slots : List (Text × Nat)) (number : Nat) : List (Text × Nat) :=
  match made[number]? with
  | some entry => assign entry.path number slots
  | none => slots

/-- New notes for a path make a new entry, which is shown if the old one was. -/
def update (shelf : Shelf) (path : Text) (notes : List Note) : Shelf where
  made := shelf.made ++
    [{ path, notes, expanded := ((shelf.get? path).map (·.expanded)).getD false }]
  slots := assign path shelf.made.length shelf.slots

/-- Takes out a path, and answers whether it was there. -/
def remove (shelf : Shelf) (path : Text) : Shelf × Bool :=
  ({ shelf with slots := shelf.slots.filter (·.1 ≠ path) }, (shelf.slots.lookup path).isSome)

/-- Lets the index refer to some entries, and to no others. -/
def replaceAll (shelf : Shelf) (numbers : List Nat) : Shelf :=
  { shelf with slots := numbers.foldl (refer shelf.made) [] }

/-- A shelf with an index of given entries. -/
def ofEntries (given : List Entry) : Shelf :=
  replaceAll { made := given } (List.range given.length)

/-- What happens on a shelf. -/
inductive Deed where
  /-- An entry is made by somebody else. -/
  | make (entry : Entry)
  | update (path : Text) (notes : List Note)
  | remove (path : Text)
  /-- The index is to refer to entries that have been made, some of which may be its own. -/
  | replaceAll (numbers : List Nat)

/-- A shelf after something has happened on it. -/
def perform (shelf : Shelf) : Deed → Shelf
  | .make entry => { shelf with made := shelf.made ++ [entry] }
  | .update path notes => shelf.update path notes
  | .remove path => (shelf.remove path).1
  | .replaceAll numbers => shelf.replaceAll numbers

def run (shelf : Shelf) (deeds : List Deed) : Shelf := deeds.foldl perform shelf

/-- What is done with the index of a shelf. -/
def operations (shelf : Shelf) : Deed → List Index.Operation
  | .make _ => []
  | .update path notes => [.update path notes]
  | .remove path => [.remove path]
  | .replaceAll numbers => [.replaceAll (shelf.shown numbers)]

/-- What is done with the index of a shelf, one deed after the other. -/
def history : Shelf → List Deed → List Index.Operation
  | _, [] => []
  | shelf, deed :: rest => shelf.operations deed ++ history (shelf.perform deed) rest

/-- Slots that refer to some entries, each to one of its own path. -/
def Holds (made : List Entry) (slots : List (Text × Nat)) (entries : List Entry) : Prop :=
  List.Forall₂ (fun slot entry => made[slot.2]? = some entry ∧ entry.path = slot.1) slots entries

variable {shelf : Shelf} {made more entries : List Entry} {slots : List (Text × Nat)}
  {index : Index} {path : Text}

/-! ### What slots hold -/

/-- What the slots hold is what is shown. -/
theorem Holds.shown (h : Holds made slots entries) :
    Shelf.shown { made } (slots.map Prod.snd) = entries := by
  rw [Shelf.shown, List.filterMap_map]
  induction h with
  | nil => rfl
  | cons hfirst hrest ih =>
      rw [List.filterMap_cons, ih]
      simp [hfirst.1]

/-- There is a slot for each path. -/
theorem Holds.paths (h : Holds made slots entries) :
    slots.map Prod.fst = entries.map (·.path) := by
  induction h with
  | nil => rfl
  | cons hfirst hrest ih => rw [List.map_cons, List.map_cons, ih, hfirst.2]

/-- What a slot refers to is what is found under its path. -/
theorem Holds.lookup (h : Holds made slots entries) (path : Text) :
    (∃ number entry, slots.lookup path = some number ∧ made[number]? = some entry ∧
      entries.find? (·.path = path) = some entry) ∨
    (slots.lookup path = none ∧ entries.find? (·.path = path) = none) := by
  induction h with
  | nil => exact .inr ⟨rfl, rfl⟩
  | @cons slot entry slots entries hfirst hrest ih =>
      obtain ⟨key, number⟩ := slot
      obtain ⟨hentry, rfl⟩ := hfirst
      by_cases hpath : path = entry.path
      · exact .inl ⟨number, entry, by simp [hpath], hentry, by simp [hpath]⟩
      · rw [List.lookup_cons, beq_false_of_ne hpath,
          List.find?_cons_of_neg (by simpa using Ne.symm hpath)]
        exact ih

/-- Entries that are made later leave those alone that slots refer to. -/
theorem Holds.append (h : Holds made slots entries) (more : List Entry) :
    Holds (made ++ more) slots entries := by
  refine h.imp fun slot entry hslot => ⟨?_, hslot.2⟩
  rw [List.getElem?_append_left (List.getElem?_eq_some_iff.1 hslot.1).1]
  exact hslot.1

/-- To let a path refer to an entry is to put the entry in. -/
theorem Holds.assign (h : Holds made slots entries) {number : Nat} {entry : Entry}
    (hnumber : made[number]? = some entry) :
    Holds made (Shelf.assign entry.path number slots) (Index.putIn entry entries) := by
  induction h with
  | nil => exact .cons ⟨hnumber, rfl⟩ .nil
  | cons hfirst hrest ih =>
      rw [Shelf.assign, Index.putIn, hfirst.2]
      split
      · exact .cons ⟨hnumber, rfl⟩ hrest
      · exact .cons hfirst ih

/-- To remove a path is to remove its slot. -/
theorem Holds.remove (h : Holds made slots entries) (path : Text) :
    Holds made (slots.filter (·.1 ≠ path)) (entries.filter (·.path ≠ path)) := by
  induction h with
  | nil => exact .nil
  | cons hfirst hrest ih =>
      rw [List.filter_cons, List.filter_cons, hfirst.2]
      split
      · exact .cons hfirst ih
      · exact ih

/-- Letting the index refer to entries one after the other is putting them in. -/
theorem Holds.refer (index : Index) (h : Holds made slots index.entries) (numbers : List Nat) :
    Holds made (numbers.foldl (Shelf.refer made) slots)
      ((Shelf.shown { made } numbers).foldl Index.put index).entries := by
  induction numbers generalizing slots index with
  | nil => exact h
  | cons number rest ih =>
      rw [List.foldl_cons, Shelf.shown, List.filterMap_cons]
      cases hn : made[number]? with
      | none =>
          simp only [Shelf.refer, hn]
          exact ih _ h
      | some entry =>
          simp only [Shelf.refer, hn, List.foldl_cons]
          exact ih _ (h.assign hn)

/-! ### A shelf and its index -/

/-- What a shelf shows is an index. -/
def Shows (shelf : Shelf) (index : Index) : Prop := Holds shelf.made shelf.slots index.entries

/-- What is found for a path is the same. -/
theorem Shows.get? (h : shelf.Shows index) (path : Text) : shelf.get? path = index.get? path := by
  rw [Shelf.get?, Index.get?]
  rcases Holds.lookup h path with ⟨number, entry, hslot, hmade, hfound⟩ | ⟨hslot, hfound⟩
  · rw [hslot, hfound, Option.bind_some, hmade]
  · rw [hslot, hfound, Option.bind_none]

/-- What taking out a path answers. -/
theorem Shows.removed (h : shelf.Shows index) (path : Text) :
    (shelf.remove path).2 = index.contains path := by
  rw [Shelf.remove, Index.contains, Index.get?]
  rcases Holds.lookup h path with ⟨number, entry, hslot, hmade, hfound⟩ | ⟨hslot, hfound⟩
  · rw [hslot, hfound]
    rfl
  · rw [hslot, hfound]
    rfl

/-- **Refinement.**  Whatever is done to the shelf, it goes on showing the index. -/
theorem Shows.perform (h : shelf.Shows index) (deed : Deed) :
    (shelf.perform deed).Shows ((shelf.operations deed).foldl Index.perform index) := by
  cases deed with
  | make entry => exact Holds.append h [entry]
  | update path notes =>
      simp only [Shelf.perform, Shelf.update, h.get? path]
      have hmade : (shelf.made ++ [index.renewed path notes])[shelf.made.length]? =
          some (index.renewed path notes) := by simp
      exact Holds.assign (Holds.append h _) hmade
  | remove path => exact Holds.remove h path
  | replaceAll numbers => exact Holds.refer {} .nil numbers

/-- So it does after any number of deeds. -/
theorem Shows.run (h : shelf.Shows index) (deeds : List Deed) :
    (shelf.run deeds).Shows ((shelf.history deeds).foldl Index.perform index) := by
  induction deeds generalizing shelf index with
  | nil => exact h
  | cons deed rest ih =>
      rw [history, List.foldl_append]
      exact ih (h.perform deed)

/-- Entries that were made one after the other are shown in that order. -/
theorem shown_range (given : List Entry) :
    Shelf.shown { made := given } (List.range given.length) = given := by
  induction given using List.reverseRecOn with
  | nil => rfl
  | append_singleton given last ih =>
      have hbefore : (List.range given.length).filterMap ((given ++ [last])[·]?) = given :=
        (List.filterMap_congr fun number hn =>
          List.getElem?_append_left (List.mem_range.1 hn)).trans ih
      rw [Shelf.shown, List.length_append, List.length_singleton, List.range_succ,
        List.filterMap_append, hbefore]
      simp

/-- At first the shelf shows the entries that were given. -/
theorem shows_ofEntries (given : List Entry) : (ofEntries given).Shows (Index.ofEntries given) := by
  have hholds := Holds.refer {} (.nil : Holds given [] []) (List.range given.length)
  rwa [shown_range] at hholds

/-! ### What was taken -/

/-- Nothing that has been made is changed. -/
theorem made_prefix_run (shelf : Shelf) (deeds : List Deed) :
    shelf.made <+: (shelf.run deeds).made := by
  induction deeds generalizing shelf with
  | nil => exact List.prefix_rfl
  | cons deed rest ih =>
      refine List.IsPrefix.trans ?_ (ih (shelf.perform deed))
      cases deed with
      | make entry => exact List.prefix_append _ _
      | update path notes => exact List.prefix_append _ _
      | remove path => exact List.prefix_rfl
      | replaceAll numbers => exact List.prefix_rfl

/-- What was taken from the index stays as it was, whatever happens later. -/
theorem Shows.run_shown (h : shelf.Shows index) (later : List Deed) :
    (shelf.run later).shown shelf.taken = index.entries := by
  obtain ⟨more, hmade⟩ := made_prefix_run shelf later
  have hholds := Holds.append h more
  rw [hmade] at hholds
  exact hholds.shown

end Shelf

/-- **An index is an ordered map.**  Whatever is done with it, what it answers is what a list of
entries with distinct paths says: new notes for a path that is there replace the old ones in their
place, and the entry stays shown or hidden; a new path comes last and is hidden; to take out a path
is to strike it off this list, and tells whether it was there; an index that is filled has each path
where it came first, with the entry that came last.  What was taken from it at some time, though the
entries are shared, is not changed by anything that happens later. -/
theorem Index.agrees_with_roll (given : List Entry) :
    (∀ operations : List Index.Operation,
      (operations.foldl Index.perform (.ofEntries given)).Agrees
        (operations.foldl Roll.perform (.ofEntries given))) ∧
    ∀ past later : List Shelf.Deed,
      let shelf := (Shelf.ofEntries given).run past
      let roll := ((Shelf.ofEntries given).history past).foldl Roll.perform (.ofEntries given)
      shelf.shown shelf.taken = roll.entries ∧ shelf.slots.map Prod.fst = roll.paths ∧
        (∀ path entry, shelf.get? path = some entry ↔ entry ∈ roll.entries ∧ entry.path = path) ∧
        (∀ path, (shelf.remove path).2 = true ↔ path ∈ roll.paths) ∧
        (shelf.run later).shown shelf.taken = roll.entries := by
  have hagrees : ∀ operations : List Index.Operation,
      (operations.foldl Index.perform (.ofEntries given)).Agrees
        (operations.foldl Roll.perform (.ofEntries given)) := fun operations =>
    agrees_of_entries (entries_foldl_perform (entries_ofEntries_eq given) operations)
  refine ⟨hagrees, fun past later => ?_⟩
  -- What the shelf answers is what the index answers that it shows, and so what the roll says.
  have hroll := hagrees ((Shelf.ofEntries given).history past)
  have hshows := (Shelf.shows_ofEntries given).run past
  refine ⟨?_, ?_, fun path entry => ?_, fun path => ?_, ?_⟩
  · exact (Shelf.Holds.shown hshows).trans hroll.entries
  · exact (Shelf.Holds.paths hshows).trans hroll.paths
  · rw [hshows.get?]
    exact hroll.get? path entry
  · rw [hshows.removed]
    exact hroll.contains path
  · exact (hshows.run_shown later).trans hroll.entries

end Marginalia
