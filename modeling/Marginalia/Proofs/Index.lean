import Marginalia.Catalog

/-!
# What an index holds

For those who look at notes alone, an index is a function from paths to notes, and a path without
an entry has none (`Index.notesAt`).  Here the operations of an index are described by what they do
to that function, and to the set of entries.

A filled index holds at each path the last entry that was put in for it
(`Index.get?_ofEntries`).  What a scan leaves is therefore decided path by path: at a path that was
touched it keeps what the index held (`Catalog.notesAt_mergeTouched_of_mem`), and at all others it
takes what the scan found (`Catalog.notesAt_mergeTouched_of_not_mem`).
-/

namespace Marginalia

namespace Index

/-- The notes that an index holds for a path; no entry counts as no notes. -/
def notesAt (index : Index) (path : Text) : List Note :=
  ((index.get? path).map (·.notes)).getD []

/-- A path without an entry has no notes. -/
theorem notesAt_of_get?_eq_none {index : Index} {path : Text} (h : index.get? path = none) :
    index.notesAt path = [] := by
  simp [notesAt, h]

/-- What is found at a path is an entry of that path. -/
theorem mem_of_get?_eq_some {index : Index} {path : Text} {entry : Entry}
    (h : index.get? path = some entry) : entry ∈ index.entries ∧ entry.path = path :=
  ⟨List.mem_of_find?_eq_some h, by simpa using List.find?_some h⟩

/-- An entry of a new path comes last. -/
theorem entries_put_of_not_mem {index : Index} {entry : Entry} (h : entry.path ∉ index.paths) :
    (index.put entry).entries = index.entries ++ [entry] := by
  obtain ⟨held⟩ := index
  simp only [put, Index.paths] at h ⊢
  induction held with
  | nil => rfl
  | cons first rest ih =>
      rw [List.map_cons, List.mem_cons, not_or] at h
      rw [putIn, if_neg (Ne.symm h.1), ih h.2, List.cons_append]

/-- In an index that holds no path twice, each entry is found under its path. -/
theorem get?_of_mem {index : Index} (h : index.paths.Nodup) {entry : Entry}
    (he : entry ∈ index.entries) : index.get? entry.path = some entry := by
  obtain ⟨entries⟩ := index
  induction entries with
  | nil => simp at he
  | cons first rest ih =>
      rw [paths, List.map_cons, List.nodup_cons] at h
      rcases List.mem_cons.1 he with rfl | hm
      · simp [get?]
      · have hne : first.path ≠ entry.path := by
          intro heq
          exact h.1 (heq ▸ List.mem_map_of_mem hm)
        rw [get?, List.find?_cons_of_neg (by simpa using hne)]
        exact ih h.2 hm

/-- New notes for a path are its notes then, and no other path has new ones. -/
theorem notesAt_update (index : Index) (path : Text) (notes : List Note) (other : Text) :
    (index.update path notes).notesAt other =
      if other = path then notes else index.notesAt other := by
  unfold update notesAt
  rw [get?_put]
  by_cases h : other = path <;> simp [renewed, h]

/-- A path that was taken out has no entry, and no other path has lost its own. -/
theorem get?_remove (index : Index) (path other : Text) :
    (index.remove path).get? other = if other = path then none else index.get? other := by
  by_cases h : other = path
  · rw [h, get?_remove_self, if_pos rfl]
  · rw [if_neg h]
    simp only [get?, remove, List.find?_filter]
    congr 1
    funext entry
    by_cases he : entry.path = other <;> simp [he, h]

/-- Where a path has no entry, there is nothing to take out. -/
theorem remove_of_contains_eq_false {index : Index} {path : Text}
    (h : index.contains path = false) : index.remove path = index := by
  obtain ⟨entries⟩ := index
  have hnone : entries.find? (·.path = path) = none := by simpa [contains, get?] using h
  have hall : entries.filter (·.path ≠ path) = entries :=
    List.filter_eq_self.2 fun entry he => by simpa using List.find?_eq_none.1 hnone entry he
  rw [remove, hall]

/-- A path that was taken out has no notes, and no other path has lost its own. -/
theorem notesAt_remove (index : Index) (path other : Text) :
    (index.remove path).notesAt other = if other = path then [] else index.notesAt other := by
  unfold notesAt
  rw [get?_remove]
  by_cases h : other = path <;> simp [h]

/-- What is in an index after an entry was put in was in it before, or is that entry. -/
theorem mem_putIn {entry other : Entry} {entries : List Entry} (h : other ∈ putIn entry entries) :
    other = entry ∨ other ∈ entries := by
  induction entries with
  | nil => exact .inl (by simpa [putIn] using h)
  | cons first rest ih =>
      unfold putIn at h
      split at h
      · rcases List.mem_cons.1 h with h | h
        · exact .inl h
        · exact .inr (List.mem_cons_of_mem _ h)
      · rcases List.mem_cons.1 h with rfl | h
        · exact .inr List.mem_cons_self
        · exact (ih h).imp_right (List.mem_cons_of_mem _)

/-- An index holds nothing that was not put in. -/
theorem mem_of_mem_foldl_put {entries : List Entry} {index : Index} {entry : Entry}
    (h : entry ∈ (entries.foldl put index).entries) :
    entry ∈ entries ∨ entry ∈ index.entries := by
  induction entries generalizing index with
  | nil => exact .inr h
  | cons first rest ih =>
      rcases ih h with h | h
      · exact .inl (List.mem_cons_of_mem _ h)
      · exact (mem_putIn h).imp_left fun e => by simp [e]

/-- A filled index holds nothing but the entries that it was filled with. -/
theorem mem_of_mem_ofEntries {entries : List Entry} {entry : Entry}
    (h : entry ∈ (ofEntries entries).entries) : entry ∈ entries :=
  (mem_of_mem_foldl_put h).resolve_right (by simp)

/-- Of the entries that are put in for one path, the last stays. -/
theorem get?_foldl_put (entries : List Entry) (index : Index) (path : Text) :
    (entries.foldl put index).get? path =
      ((entries.filter (·.path = path)).getLast?).or (index.get? path) := by
  induction entries generalizing index with
  | nil => simp
  | cons first rest ih =>
      rw [List.foldl_cons, ih, get?_put]
      by_cases h : first.path = path
      · rw [List.filter_cons_of_pos (by simpa using h)]
        cases rest.filter (·.path = path) <;> simp [h.symm, List.getLast?_cons]
      · rw [List.filter_cons_of_neg (by simpa using h), if_neg fun e => h e.symm]

/-- **A filled index** holds at each path the last entry that it was filled with. -/
theorem get?_ofEntries (entries : List Entry) (path : Text) :
    (ofEntries entries).get? path = (entries.filter (·.path = path)).getLast? := by
  rw [ofEntries, get?_foldl_put]
  simp [get?]

/-- Where the entries for a path all have the same notes, the filled index holds those. -/
theorem notesAt_ofEntries_of_forall {entries : List Entry} {path : Text} {notes : List Note}
    (h : ∀ entry ∈ entries, entry.path = path → entry.notes = notes)
    (hm : notes ≠ [] → ∃ entry ∈ entries, entry.path = path) :
    (ofEntries entries).notesAt path = notes := by
  unfold notesAt
  rw [get?_ofEntries]
  cases hl : (entries.filter (·.path = path)).getLast? with
  | none =>
      by_cases hn : notes = []
      · simp [hn]
      · obtain ⟨entry, he, hp⟩ := hm hn
        have : entry ∈ entries.filter (·.path = path) := by simp [he, hp]
        rw [List.getLast?_eq_none_iff.1 hl] at this
        simp at this
  | some entry =>
      have he := List.mem_of_getLast? hl
      simp only [List.mem_filter, decide_eq_true_eq] at he
      simpa using h entry he.1 he.2

end Index

namespace Catalog

theorem kept?_eq_some_iff {index : Index} {keepEmpty : Bool} {path : Text} {entry : Entry} :
    kept? index keepEmpty path = some entry ↔
      index.get? path = some entry ∧ (entry.notes ≠ [] ∨ keepEmpty = true) := by
  rw [kept?, Option.filter_eq_some_iff]
  simp [Entry.hasNotes]

/-- An entry that is kept is one of the index, of that path. -/
theorem mem_of_kept?_eq_some {index : Index} {keepEmpty : Bool} {path : Text} {entry : Entry}
    (h : kept? index keepEmpty path = some entry) :
    entry ∈ index.entries ∧ entry.path = path :=
  Index.mem_of_get?_eq_some (kept?_eq_some_iff.1 h).1

/-- The notes of a kept entry are those that the index holds, and where none is kept there are no
notes to be kept. -/
theorem notes_of_kept? (index : Index) (keepEmpty : Bool) (path : Text) :
    ((kept? index keepEmpty path).map (·.notes)).getD [] = index.notesAt path := by
  unfold kept? Index.notesAt
  cases index.get? path with
  | none => rfl
  | some entry =>
      by_cases h : entry.notes = [] <;> by_cases hk : keepEmpty <;>
        simp [Option.filter, Entry.hasNotes, h, hk]

/-- The entries of a scan are those of files in which notes were found, or of all files that could
be read. -/
theorem mem_scannedEntries {keepEmpty : Bool} {found : List (Text × Option (List Note))}
    {entry : Entry} :
    entry ∈ scannedEntries keepEmpty found ↔
      ∃ path notes, (path, some notes) ∈ found ∧ (notes = [] → keepEmpty = true) ∧
        entry = { path, notes } := by
  simp only [scannedEntries, List.mem_filterMap]
  constructor
  · intro hex
    obtain ⟨⟨path, notes?⟩, hm, he⟩ := hex
    cases notes? with
    | none => simp at he
    | some notes =>
        refine ⟨path, notes, hm, ?_⟩
        by_cases hn : notes = [] <;> by_cases hk : keepEmpty <;> simp_all
  · intro hex
    obtain ⟨path, notes, hm, hk, rfl⟩ := hex
    refine ⟨_, hm, ?_⟩
    by_cases hn : notes = [] <;> simp_all

/-- A scan takes in what it found at untouched paths, and at touched ones what is kept of the
index. -/
theorem mem_mergeTouched_iff {index : Index} {touched : List Text} {keepEmpty : Bool}
    {scanned : List Entry} {entry : Entry} :
    entry ∈ mergeTouched index touched keepEmpty scanned ↔
      entry.path ∉ touched ∧ entry ∈ scanned ∨
        entry.path ∈ touched ∧ kept? index keepEmpty entry.path = some entry := by
  simp only [mergeTouched, List.mem_append, List.mem_filterMap, List.contains_iff_mem]
  constructor
  · rintro (⟨first, hm, hfirst⟩ | ⟨other, hother, hk⟩)
    · split at hfirst
      · rename_i ht
        rw [← (mem_of_kept?_eq_some hfirst).2] at ht hfirst
        exact .inr ⟨ht, hfirst⟩
      · rename_i ht
        cases hfirst
        exact .inl ⟨ht, hm⟩
    · rw [← (mem_of_kept?_eq_some hk).2] at hother hk
      exact .inr ⟨(List.mem_filter.1 hother).1, hk⟩
  · rintro (⟨ht, hm⟩ | ⟨ht, hk⟩)
    · exact .inl ⟨entry, hm, if_neg ht⟩
    · by_cases hs : entry.path ∈ scanned.map (·.path)
      · obtain ⟨first, hm, hpath⟩ := List.mem_map.1 hs
        exact .inl ⟨first, hm, by rw [hpath, if_pos ht, hk]⟩
      · exact .inr ⟨entry.path, List.mem_filter.2 ⟨ht, by simpa using hs⟩, hk⟩

/-- What is taken in was found by the scan, or is held by the index. -/
theorem mem_mergeTouched {index : Index} {touched : List Text} {keepEmpty : Bool}
    {scanned : List Entry} {entry : Entry}
    (h : entry ∈ mergeTouched index touched keepEmpty scanned) :
    (entry ∈ scanned ∧ entry.path ∉ touched) ∨ (entry ∈ index.entries ∧ entry.path ∈ touched) := by
  rcases mem_mergeTouched_iff.1 h with ⟨ht, hm⟩ | ⟨ht, hk⟩
  · exact .inl ⟨hm, ht⟩
  · exact .inr ⟨(mem_of_kept?_eq_some hk).1, ht⟩

/-- Scanned entries of an untouched path are taken in as they are. -/
theorem filter_filterMap_of_not_mem {index : Index} {touched : List Text} {keepEmpty : Bool}
    {path : Text} (h : path ∉ touched) (scanned : List Entry) :
    (scanned.filterMap fun entry =>
      if touched.contains entry.path then kept? index keepEmpty entry.path else some entry).filter
        (·.path = path) = scanned.filter (·.path = path) := by
  induction scanned with
  | nil => rfl
  | cons first rest ih =>
      by_cases ht : touched.contains first.path
      · have hne : first.path ≠ path := by
          intro heq
          obtain rfl := heq
          exact h (by simpa using ht)
        rw [List.filter_cons_of_neg (by simpa using hne), ← ih, List.filterMap_cons, if_pos ht]
        cases hk : kept? index keepEmpty first.path with
        | none => rfl
        | some entry =>
            have hpath := (mem_of_kept?_eq_some hk).2
            exact List.filter_cons_of_neg (by simpa [hpath] using hne)
      · rw [List.filterMap_cons, if_neg ht]
        simp only [List.filter_cons, ih]

/-- Touched paths that were not scanned bring no entry of an untouched path. -/
theorem filter_others_of_not_mem {index : Index} {touched : List Text} {keepEmpty : Bool}
    {path : Text} (h : path ∉ touched) (keep : Text → Bool) :
    (((touched.filter keep).filterMap (kept? index keepEmpty)).filter (·.path = path)) = [] := by
  apply List.filter_eq_nil_iff.2
  intro entry he
  obtain ⟨other, ho, hk⟩ := List.mem_filterMap.1 he
  have hpath := (mem_of_kept?_eq_some hk).2
  have hne : entry.path ≠ path := by
    intro heq
    obtain rfl := heq
    exact h (hpath ▸ (List.mem_filter.1 ho).1)
  simpa using hne

/-- At an untouched path only what was scanned is taken in, in the same order. -/
theorem filter_mergeTouched_of_not_mem {index : Index} {touched : List Text} {keepEmpty : Bool}
    {scanned : List Entry} {path : Text} (h : path ∉ touched) :
    (mergeTouched index touched keepEmpty scanned).filter (·.path = path) =
      scanned.filter (·.path = path) := by
  simp only [mergeTouched, List.filter_append, filter_others_of_not_mem h, List.append_nil]
  exact filter_filterMap_of_not_mem h scanned

/-- **Untouched paths.**  There a scan leaves what it found. -/
theorem notesAt_mergeTouched_of_not_mem {index : Index} {touched : List Text} {keepEmpty : Bool}
    {scanned : List Entry} {path : Text} (h : path ∉ touched) :
    (Index.ofEntries (mergeTouched index touched keepEmpty scanned)).notesAt path =
      (Index.ofEntries scanned).notesAt path := by
  simp only [Index.notesAt, Index.get?_ofEntries, filter_mergeTouched_of_not_mem h]

/-- **Touched paths.**  There a scan leaves what the index held. -/
theorem notesAt_mergeTouched_of_mem {index : Index} {touched : List Text} {keepEmpty : Bool}
    {scanned : List Entry} {path : Text} (h : path ∈ touched) :
    (Index.ofEntries (mergeTouched index touched keepEmpty scanned)).notesAt path =
      index.notesAt path := by
  have hnotes := notes_of_kept? index keepEmpty path
  apply Index.notesAt_ofEntries_of_forall
  · rintro entry he rfl
    rcases mem_mergeTouched_iff.1 he with ⟨ht, -⟩ | ⟨-, hk⟩
    · exact absurd h ht
    · rw [← hnotes, hk]
      rfl
  · intro hne
    cases hk : kept? index keepEmpty path with
    | none => exact absurd (by simpa [hk] using hnotes.symm) hne
    | some entry =>
        obtain rfl := (mem_of_kept?_eq_some hk).2
        exact ⟨entry, mem_mergeTouched_iff.2 (.inr ⟨h, hk⟩), rfl⟩

end Catalog

end Marginalia
