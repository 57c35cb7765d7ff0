import Marginalia.Changes
import Marginalia.Disk

/-!
# Comparing disks

What happened to the files below a place from one disk to the next: the changes that someone who
watches the place has to be told.
-/

namespace Marginalia.Disk

/-- The paths of the files below a place with their bytes; links are not followed. -/
def filesBelow (disk : Disk) (place : Place) : List (Text × List UInt8) :=
  (disk.below place).filterMap fun (parts, item) =>
    match item with
    | .file content => some ((Path.mk .root (place ++ parts)).toText, content)
    | _ => none

/-- The changes of files below a place that lead from one disk to another. -/
def changes (before after : Disk) (place : Place) : List Change :=
  let old := before.filesBelow place
  let new := after.filesBelow place
  let gone := old.filterMap fun (path, _) =>
    match new.lookup path with
    | none => some { kind := .deleted, path }
    | some _ => none
  let come := new.filterMap fun (path, content) =>
    match old.lookup path with
    | none => some { kind := .added, path }
    | some other => if content = other then none else some { kind := .modified, path }
  gone ++ come

/-- Nothing was deleted if no file was there before. -/
theorem changes_of_empty (after : Disk) (place : Place) :
    ∀ change ∈ changes {} after place, change.kind = .added := by
  intro change h
  simp only [changes, filesBelow, below, List.filterMap_nil, List.nil_append, List.lookup_nil,
    List.mem_filterMap] at h
  obtain ⟨_, _, rfl⟩ := by simpa using h
  rfl

end Marginalia.Disk
