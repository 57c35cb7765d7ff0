import Marginalia.Text

/-!
# Changes on disk

A watched folder reports changes in batches.  A batch says of paths that they were added, modified
or deleted, in no particular order and with repeats; the calls it leads to depend on the sets of
paths alone.  Exactly one path added and exactly one deleted is taken for a file that was renamed.
In all other cases the deleted paths come first, so that a path that is deleted and added again is
looked at when everything is gone that had to go.

`Changes.events_length` says how many events a batch leads to.
-/

namespace Marginalia

/-- What happened to a path. -/
inductive ChangeKind where
  | added
  | modified
  | deleted
deriving DecidableEq, Inhabited

/-- A change of a path. -/
structure Change where
  kind : ChangeKind
  path : Text
deriving DecidableEq, Inhabited

/-- What a batch of changes says about a file. -/
inductive FileEvent where
  | modified (path : Text)
  | deleted (path : Text)
  | renamed (old new : Text)
deriving DecidableEq, Inhabited

namespace Changes

/-- The paths with a kind of change, in ascending order and each once. -/
def ofKind (kind : ChangeKind) (changes : List Change) : List Text :=
  Text.sortedSet ((changes.filter (·.kind = kind)).map (·.path))

/-- The added paths. -/
def added (changes : List Change) : List Text := ofKind .added changes

/-- The deleted paths. -/
def deleted (changes : List Change) : List Text := ofKind .deleted changes

/-- The modified paths that were not added as well. -/
def modified (changes : List Change) : List Text :=
  (ofKind .modified changes).filter fun path => !(added changes).contains path

/-- What a batch of changes leads to, in order. -/
def events (changes : List Change) : List FileEvent :=
  let later := (modified changes).map FileEvent.modified
  match deleted changes, added changes with
  | [old], [new] => .renamed old new :: later
  | deleted, added => deleted.map .deleted ++ (added.map .modified ++ later)

/-- A renamed file is one event in place of two. -/
theorem events_length (changes : List Change) :
    (events changes).length =
      (if (deleted changes).length = 1 ∧ (added changes).length = 1 then 1
        else (deleted changes).length + (added changes).length) + (modified changes).length := by
  unfold events
  split
  · rename_i hd ha
    simp [hd, ha, Nat.add_comm]
  · rename_i hne
    have : ¬ ((deleted changes).length = 1 ∧ (added changes).length = 1) := by
      rintro ⟨hd, ha⟩
      obtain ⟨old, hd⟩ := List.length_eq_one_iff.1 hd
      obtain ⟨new, ha⟩ := List.length_eq_one_iff.1 ha
      exact hne old new hd ha
    simp [this, Nat.add_assoc]

end Changes

end Marginalia
