import Marginalia.Note

/-!
# The index

The index holds the entries of files, each path once, in the order in which the paths were first
put in.  Putting in an entry whose path is there already replaces the entry in its place.

`Index.get?_put` says what is found after an entry was put in, `Index.get?_remove_self` that
nothing is found at a path that was taken out, and `Index.paths_nodup_ofEntries` that no path
stands in a filled index twice.
-/

namespace Marginalia

/-- The entries of files in order. -/
structure Index where
  entries : List Entry := []
deriving DecidableEq, Inhabited

namespace Index

/-- The paths of the entries. -/
def paths (index : Index) : List Text := index.entries.map (·.path)

/-- The number of entries. -/
def size (index : Index) : Nat := index.entries.length

/-- The entry of a path. -/
def get? (index : Index) (path : Text) : Option Entry := index.entries.find? (·.path = path)

/-- Whether a path has an entry. -/
def contains (index : Index) (path : Text) : Bool := (index.get? path).isSome

/-- Puts an entry in the place of the one with its path, or else at the end. -/
def putIn (entry : Entry) : List Entry → List Entry
  | [] => [entry]
  | other :: rest => if other.path = entry.path then entry :: rest else other :: putIn entry rest

/-- Puts in an entry. -/
def put (index : Index) (entry : Entry) : Index := { entries := putIn entry index.entries }

/-- The entry that new notes make at a path: what was shown of the path stays shown. -/
def renewed (index : Index) (path : Text) (notes : List Note) : Entry :=
  { path, notes, expanded := ((index.get? path).map (·.expanded)).getD false }

/-- Puts in new notes for a path. -/
def update (index : Index) (path : Text) (notes : List Note) : Index :=
  index.put (index.renewed path notes)

/-- Takes out a path. -/
def remove (index : Index) (path : Text) : Index :=
  { entries := index.entries.filter (·.path ≠ path) }

/-- The index that is filled with entries one after the other. -/
def ofEntries (entries : List Entry) : Index := entries.foldl put {}

/-- An entry that was put in is found, and nothing else changes. -/
theorem get?_put (index : Index) (entry : Entry) (path : Text) :
    (index.put entry).get? path = if path = entry.path then some entry else index.get? path := by
  simp only [get?, put]
  induction index.entries with
  | nil => by_cases h : entry.path = path <;> simp [putIn, h, eq_comm]
  | cons other rest ih =>
    by_cases ho : other.path = entry.path
    · by_cases hp : path = entry.path
      · subst hp; simp [putIn, ho]
      · have h1 : ¬ entry.path = path := fun h => hp h.symm
        have h2 : ¬ other.path = path := fun h => hp (h.symm.trans ho)
        simp [putIn, ho, hp, h1]
    · by_cases hp : other.path = path
      · subst hp; simp [putIn, ho]
      · simp [putIn, ho, hp, ih]

/-- Nothing is found at a path that was taken out. -/
theorem get?_remove_self (index : Index) (path : Text) :
    (index.remove path).get? path = none := by
  simp only [get?, remove, List.find?_eq_none, List.mem_filter]
  intro entry h
  simpa using h.2

/-- The paths after an entry was put in: a new path comes last. -/
theorem paths_put (index : Index) (entry : Entry) :
    (index.put entry).paths =
      if entry.path ∈ index.paths then index.paths else index.paths ++ [entry.path] := by
  obtain ⟨entries⟩ := index
  simp only [paths, put]
  induction entries with
  | nil => rfl
  | cons other rest ih =>
    by_cases h : other.path = entry.path
    · simp [putIn, h]
    · have h' : ¬ entry.path = other.path := fun e => h e.symm
      simp only [putIn, h, if_false, List.map_cons, ih, List.mem_cons, h', false_or]
      split <;> rename_i hm <;> simp only [hm, if_true, if_false, List.cons_append]

/-- Putting in an entry keeps paths apart. -/
theorem paths_nodup_put {index : Index} (entry : Entry) (h : index.paths.Nodup) :
    (index.put entry).paths.Nodup := by
  rw [paths_put]
  split
  · exact h
  · rename_i hn
    rw [List.nodup_append]
    refine ⟨h, by simp, ?_⟩
    intro a ha b hb
    rintro rfl
    rw [List.mem_singleton] at hb
    exact hn (hb ▸ ha)

/-- No path stands in a filled index twice. -/
theorem paths_nodup_ofEntries (entries : List Entry) : (ofEntries entries).paths.Nodup := by
  have key : ∀ (entries : List Entry) (index : Index), index.paths.Nodup →
      (entries.foldl put index).paths.Nodup := by
    intro entries
    induction entries with
    | nil => exact fun _ h => h
    | cons entry rest ih => exact fun index h => ih _ (paths_nodup_put entry h)
  exact key entries {} (by simp [paths])

end Index

end Marginalia
