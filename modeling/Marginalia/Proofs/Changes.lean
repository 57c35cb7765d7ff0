import Marginalia.Changes
import Marginalia.Proofs.Order

/-!
# What a batch of changes leads to

The events of a batch, in terms of its changes.  Each change leads to an event about its path
(`Changes.exists_event`), and where a path is said to be deleted and something else as well, the
deletion comes first (`Changes.events_of_not_isRename`).
-/

namespace Marginalia

/-- The paths that an event is about. -/
def FileEvent.paths : FileEvent → List Text
  | .modified path => [path]
  | .deleted path => [path]
  | .renamed old new => [old, new]

namespace Changes

/-- The paths of a kind are those of the changes of that kind. -/
theorem mem_ofKind {kind : ChangeKind} {changes : List Change} {path : Text} :
    path ∈ ofKind kind changes ↔ { kind, path } ∈ changes := by
  simp only [ofKind, Text.mem_sortedSet, List.mem_map, List.mem_filter, decide_eq_true_eq]
  constructor
  · intro hex
    obtain ⟨⟨k, p⟩, ⟨hm, rfl⟩, rfl⟩ := hex
    exact hm
  · intro hm
    exact ⟨_, ⟨hm, rfl⟩, rfl⟩

/-- Whether a batch is taken for a file that was renamed. -/
def IsRename (changes : List Change) : Prop :=
  ∃ old new, deleted changes = [old] ∧ added changes = [new]

/-- The events of a batch that is taken for a renamed file. -/
theorem events_of_isRename {changes : List Change} (h : IsRename changes) :
    ∃ old new, deleted changes = [old] ∧ added changes = [new] ∧
      events changes = .renamed old new :: (modified changes).map .modified := by
  obtain ⟨old, new, hd, ha⟩ := h
  exact ⟨old, new, hd, ha, by simp [events, hd, ha]⟩

/-- **Deletions come first.**  The events of all other batches: what is gone comes first. -/
theorem events_of_not_isRename {changes : List Change} (h : ¬ IsRename changes) :
    events changes = (deleted changes).map .deleted ++
      ((added changes).map .modified ++ (modified changes).map .modified) := by
  unfold events
  split
  · rename_i old new hd ha
    exact absurd ⟨old, new, hd, ha⟩ h
  · rfl

/-- A path that was added or modified is said to be modified, unless it is the new name of a
renamed file. -/
theorem exists_modified {changes : List Change} {change : Change} (hm : change ∈ changes)
    (hk : change.kind ≠ .deleted) :
    change.path ∈ added changes ∨ change.path ∈ modified changes := by
  obtain ⟨kind, path⟩ := change
  by_cases ha : path ∈ added changes
  · exact .inl ha
  · cases kind with
    | added => exact .inl (mem_ofKind.2 hm)
    | deleted => exact absurd rfl hk
    | modified =>
        refine .inr (List.mem_filter.2 ⟨mem_ofKind.2 hm, ?_⟩)
        simpa using ha

/-- **No change is lost.**  Each change of a batch leads to an event about its path. -/
theorem exists_event {changes : List Change} {change : Change} (hm : change ∈ changes) :
    ∃ event ∈ events changes, change.path ∈ event.paths := by
  have hcases : change.path ∈ deleted changes ∨ change.path ∈ added changes ∨
      change.path ∈ modified changes := by
    by_cases hk : change.kind = .deleted
    · refine .inl (mem_ofKind.2 ?_)
      rwa [← hk]
    · exact .inr (exists_modified hm hk)
  by_cases hr : IsRename changes
  · obtain ⟨old, new, hd, ha, he⟩ := events_of_isRename hr
    rw [he]
    rcases hcases with h | h | h
    · rw [hd, List.mem_singleton] at h
      exact ⟨_, List.mem_cons_self, by simp [FileEvent.paths, h]⟩
    · rw [ha, List.mem_singleton] at h
      exact ⟨_, List.mem_cons_self, by simp [FileEvent.paths, h]⟩
    · exact ⟨.modified change.path, by simp [h], by simp [FileEvent.paths]⟩
  · rw [events_of_not_isRename hr]
    rcases hcases with h | h | h
    · exact ⟨.deleted change.path, by simp [h], by simp [FileEvent.paths]⟩
    · exact ⟨.modified change.path, by simp [h], by simp [FileEvent.paths]⟩
    · exact ⟨.modified change.path, by simp [h], by simp [FileEvent.paths]⟩

end Changes

end Marginalia
