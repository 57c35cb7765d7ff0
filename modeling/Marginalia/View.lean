import Marginalia.Note

/-!
# Views

What is shown of the entries of an index: entries without hidden tags, with the notes that are
done last if that is wanted, and with a mark on the files whose notes are shown.  The entries
themselves stay as they are.

`countOf` counts the notes of a tag and `counts` those of every tag of a vocabulary; where case
does not matter, the names of tags are compared with case folded away.
-/

namespace Marginalia

/-- What a session shows: the files whose notes are shown, and the tags that are not. -/
structure Session where
  expanded : List Text := []
  hidden : List Text := []
deriving DecidableEq, Inhabited

namespace Session

/-- Whether the notes of a file are shown. -/
def isExpanded (session : Session) (path : Text) : Bool := session.expanded.contains path

/-- Whether a tag is hidden. -/
def isHidden (session : Session) (tag : Text) : Bool := session.hidden.contains tag

/-- Shows the notes of these files and no others. -/
def expand (session : Session) (paths : List Text) : Session := { session with expanded := paths }

/-- Hides these tags and no others. -/
def hide (session : Session) (tags : List Text) : Session := { session with hidden := tags }

end Session

namespace View

/-- The entries without the notes of hidden tags, and without files that are left with none. -/
def visible (hidden : List Text) (entries : List Entry) : List Entry :=
  entries.filterMap fun entry =>
    match entry.notes.filter fun note => !hidden.contains note.tag with
    | [] => none
    | notes => some { entry with notes }

/-- Notes that are not done come first, and then it goes by lines. -/
def doneLastOrder (a b : Note) : Bool :=
  if a.done = b.done then a.line ≤ b.line else b.done

/-- The entries with the notes that are done last, if that is wanted. -/
def sorted (doneLast : Bool) (entries : List Entry) : List Entry :=
  if doneLast then
    entries.map fun entry => { entry with notes := entry.notes.mergeSort doneLastOrder }
  else entries

/-- The entries with a mark on the given paths. -/
def marked (expanded : List Text) (entries : List Entry) : List Entry :=
  entries.map fun entry => { entry with expanded := expanded.contains entry.path }

/-- How entries are to be shown. -/
structure Options where
  hidden : List Text := []
  /-- The files whose notes are shown; without it the entries keep their marks. -/
  expanded? : Option (List Text) := none
  doneLast : Bool := false
deriving DecidableEq, Inhabited

/-- The entries as they are shown. -/
def render (options : Options) (entries : List Entry) : List Entry :=
  let shown := sorted options.doneLast (visible options.hidden entries)
  match options.expanded? with
  | some expanded => marked expanded shown
  | none => shown

/-- Whether two names of tags count as the same. -/
def sameName (caseSensitive : Bool) (a b : Text) : Bool :=
  if caseSensitive then a = b else Text.caseFold a = Text.caseFold b

/-- How many notes have a tag. -/
def countOf (caseSensitive : Bool) (name : Text) (entries : List Entry) : Nat :=
  (entries.flatMap (·.notes)).countP fun note => sameName caseSensitive note.tag name

/-- How many notes each tag of a vocabulary has; a name that is listed twice is counted once. -/
def counts (v : Vocabulary) (entries : List Entry) : List (Text × Nat) :=
  v.names.eraseDups.map fun name => (name, countOf v.caseSensitive name entries)

/-- The order of notes tells any two of them apart or not at all. -/
theorem doneLastOrder_total (a b : Note) : (doneLastOrder a b || doneLastOrder b a) = true := by
  unfold doneLastOrder
  cases a.done <;> cases b.done <;> simp [Nat.le_total]

theorem doneLastOrder_trans {a b c : Note} (h₁ : doneLastOrder a b = true)
    (h₂ : doneLastOrder b c = true) : doneLastOrder a c = true := by
  unfold doneLastOrder at *
  revert h₁ h₂
  cases a.done <;> cases b.done <;> cases c.done <;> simp <;> omega

/-- Without hidden tags all files that have notes are shown. -/
theorem visible_nil (entries : List Entry) : visible [] entries = entries.filter (·.hasNotes) := by
  induction entries with
  | nil => rfl
  | cons entry rest ih =>
    obtain ⟨path, notes, expanded⟩ := entry
    have hn : notes.filter (fun note => !(([] : List Text).contains note.tag)) = notes :=
      List.filter_eq_self.2 (by simp)
    unfold visible at ih ⊢
    rw [List.filterMap_cons, ih]
    simp only [hn]
    cases notes <;> simp [Entry.hasNotes]

end View

end Marginalia
