import Marginalia.Disk

/-!
# Changing a disk

`Disk.write` puts an item at a path, with the folders that lead there; what stood there goes with
everything below it.  `Disk.erase` takes an item away with everything below it, and `Disk.move`
takes it elsewhere.  A path through links means the place behind them; only writing goes through
a link at the end of the path as well.
-/

namespace Marginalia.Disk

/-- The place that a path means, its last name taken as it stands.  Links on the way are followed;
where they lead in a circle, the names are taken literally. -/
def placeOf (disk : Disk) (path : Path) : Place :=
  match disk.realPlace { path with parts := path.parts.dropLast } with
  | some place => place ++ path.parts.getLast?.toList
  | none => path.resolve.parts

/-- The place that a path means, links followed as far as they lead. -/
def placeBehind (disk : Disk) (path : Path) : Place :=
  (disk.realPlace path).getD (disk.placeOf path)

/-- The disk without a place and everything below it. -/
def without (disk : Disk) (place : Place) : Disk :=
  { items := disk.items.filter fun (other, _) => !place.isPrefixOf other }

/-- Adds the folders that lead to a place, where nothing stands yet. -/
def withFolders (disk : Disk) (place : Place) : Disk :=
  let folders := (List.range place.length).map fun n => place.take (n + 1)
  let missing := folders.filter fun folder => (disk.item? folder).isNone
  { items := disk.items ++ missing.map fun folder => (folder, .folder) }

/-- Puts an item at a place. -/
def put (disk : Disk) (place : Place) (item : Item) : Disk :=
  let disk := (disk.withFolders place.dropLast).without place
  { items := disk.items ++ [(place, item)] }

/-- Writes an item; a folder that stands there already is left alone. -/
def write (disk : Disk) (path : Path) : Item → Disk
  | .folder => disk.withFolders (disk.placeBehind path)
  | .link target => disk.put (disk.placeOf path) (.link target)
  | .file content => disk.put (disk.placeBehind path) (.file content)

/-- Takes an item away. -/
def erase (disk : Disk) (path : Path) : Disk := disk.without (disk.placeOf path)

/-- Moves an item with everything below it. -/
def move (disk : Disk) (source target : Path) : Disk :=
  let start := disk.placeOf source
  let moved := disk.items.filter fun (other, _) => start.isPrefixOf other
  let rest := disk.without start
  let goal := rest.placeOf target
  let rest := (rest.withFolders goal.dropLast).without goal
  { items := rest.items ++ moved.map fun (other, item) => (goal ++ other.drop start.length, item) }

/-- Nothing stands at a place that was taken away. -/
theorem item?_without_self (disk : Disk) (place : Place) (h : place ≠ []) :
    (disk.without place).item? place = none := by
  have key (items : List (Place × Item)) :
      (items.filter fun (other, _) => !place.isPrefixOf other).lookup place = none := by
    induction items with
    | nil => rfl
    | cons entry rest ih =>
      obtain ⟨other, item⟩ := entry
      by_cases hp : place.isPrefixOf other
      · simp [List.filter, hp, ih]
      · have hne : (place == other) = false := by
          apply beq_eq_false_iff_ne.2
          rintro rfl
          simp at hp
        simp only [List.filter_cons, hp, Bool.not_false, if_true, List.lookup_cons, hne, ih]
  have : place.isEmpty = false := by
    cases place with
    | nil => exact absurd rfl h
    | cons _ _ => rfl
  simp [item?, this, without, key]

end Marginalia.Disk
