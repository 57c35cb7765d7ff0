import Marginalia.Catalog

/-!
# Where notes come from

Every note that is found in a text carries the name of a tag of the vocabulary it was looked for
with, and the path of the file it was found in.
-/

namespace Marginalia

instance decidableEqExcept {ε α : Type} [DecidableEq ε] [DecidableEq α] : DecidableEq (Except ε α)
  | .ok value, .ok other => decidable_of_iff (value = other) (by simp)
  | .error fault, .error other => decidable_of_iff (fault = other) (by simp)
  | .ok _, .error _ => .isFalse nofun
  | .error _, .ok _ => .isFalse nofun

namespace Vocabulary

/-- The first tag that matches a line is one of the tags that were tried. -/
theorem mem_of_firstMatch {v : Vocabulary} {subject : Subject} {tags : List Tag} {tag : Tag}
    {pattern : Pattern} {found : Match}
    (h : v.firstMatch subject tags = some (tag, pattern, found)) : tag ∈ tags := by
  induction tags with
  | nil => simp [firstMatch] at h
  | cons first rest ih =>
      unfold firstMatch at h
      split at h
      · exact List.mem_cons_of_mem _ (ih h)
      · split at h
        · cases h
          exact List.mem_cons_self
        · exact List.mem_cons_of_mem _ (ih h)

/-- A note carries the tag and the path that it was made for. -/
theorem noteOf_eq_ok {path line tag : Text} {number : Nat} {pattern : Pattern} {found : Match}
    {note : Note} (h : noteOf path number line tag pattern found = .ok note) :
    note.tag = tag ∧ note.path = path := by
  unfold noteOf at h
  split at h
  · cases h
  · cases h
  · cases h
    exact ⟨rfl, rfl⟩

/-- The notes of lines carry names of the vocabulary and the path of their file. -/
theorem notesInLines_sound {v : Vocabulary} {path : Text} {number : Nat} {lines : List Text}
    {notes : List Note} (h : v.notesInLines path number lines = .ok notes) :
    ∀ note ∈ notes, note.tag ∈ v.names ∧ note.path = path := by
  induction lines generalizing number notes with
  | nil =>
      cases h
      simp
  | cons line rest ih =>
      unfold notesInLines at h
      split at h
      · exact ih h
      · rename_i tag pattern found hfirst
        cases hnote : noteOf path number line tag.name pattern found with
        | error fault => simp [hnote, bind, Except.bind] at h
        | ok first =>
            cases hrest : v.notesInLines path (number + 1) rest with
            | error fault => simp [hnote, hrest, bind, Except.bind] at h
            | ok others =>
                have he : first :: others = notes := by
                  simpa [hnote, hrest, bind, Except.bind, pure, Except.pure] using h
                subst he
                intro note hn
                rcases List.mem_cons.1 hn with rfl | hn
                · obtain ⟨htag, hpath⟩ := noteOf_eq_ok hnote
                  exact ⟨htag ▸ List.mem_map_of_mem (mem_of_firstMatch hfirst), hpath⟩
                · exact ih hrest note hn

/-- **Notes have their tags.**  The notes of a text carry names of the vocabulary and the path of
their file. -/
theorem notesIn_sound {v : Vocabulary} {path text : Text} {notes : List Note}
    (h : v.notesIn path text = .ok notes) :
    ∀ note ∈ notes, note.tag ∈ v.names ∧ note.path = path :=
  notesInLines_sound h

end Vocabulary

namespace Catalog

/-- A file whose text was read has the notes of that text. -/
theorem examine_ok {v : Vocabulary} {path text : Text} {notes : List Note}
    (h : v.notesIn path text = .ok notes) :
    examine v path (.ok text) = (.ok (some notes), []) := by
  show (((v.notesIn path text).map some).mapError Fault.note, []) = _
  rw [h]
  rfl

/-- A match that makes no note fails the file. -/
theorem examine_error {v : Vocabulary} {path text : Text} {fault : Note.Fault}
    (h : v.notesIn path text = .error fault) :
    examine v path (.ok text) = (.error (.note fault), []) := by
  show (((v.notesIn path text).map some).mapError Fault.note, []) = _
  rw [h]
  rfl

/-- What can be found in a file, and in which text. -/
inductive Examined (v : Vocabulary) (path : Text) : Except Document.Fault Text → Found → Prop
  | notes (read : Text) (notes : List Note) (found : v.notesIn path read = .ok notes) :
    Examined v path (.ok read) (.ok (some notes))
  /-- A match makes no note. -/
  | unfit (read : Text) (flaw : Note.Fault) (found : v.notesIn path read = .error flaw) :
    Examined v path (.ok read) (.error (.note flaw))
  /-- The file cannot be read, and it is gone on without it. -/
  | unread (flaw : Document.Fault) (passed : flaw.isRaised = false) :
    Examined v path (.error flaw) (.ok none)
  /-- The file cannot even be asked for. -/
  | raised (flaw : Document.Fault) (raised : flaw.isRaised = true) :
    Examined v path (.error flaw) (.error (.document flaw))

theorem examined (v : Vocabulary) (path : Text) (text : Except Document.Fault Text) :
    Examined v path text (examine v path text).1 := by
  cases text with
  | ok read =>
      cases hn : v.notesIn path read with
      | ok notes =>
          rw [examine_ok hn]
          exact .notes read notes hn
      | error flaw =>
          rw [examine_error hn]
          exact .unfit read flaw hn
  | error flaw =>
      cases hf : flaw.isRaised with
      | true =>
          simp only [examine, hf, if_true]
          exact .raised flaw hf
      | false =>
          simp only [examine, hf, Bool.false_eq_true, if_false]
          exact .unread flaw hf

/-- Notes are found in a file only where its text was read, and then they are those of the
text. -/
theorem examine_eq_some {v : Vocabulary} {path : Text} {text : Except Document.Fault Text}
    {notes : List Note} (h : (examine v path text).1 = .ok (some notes)) :
    ∃ read, text = .ok read ∧ v.notesIn path read = .ok notes := by
  have hexamined := h ▸ examined v path text
  cases hexamined with
  | notes read notes found => exact ⟨read, rfl, found⟩

/-- Nothing is found in a file exactly if it could not be read. -/
theorem examine_eq_none {v : Vocabulary} {path : Text} {text : Except Document.Fault Text}
    (h : (examine v path text).1 = .ok none) : ∃ fault, text = .error fault := by
  have hexamined := h ▸ examined v path text
  cases hexamined with
  | unread flaw passed => exact ⟨flaw, rfl⟩

end Catalog

end Marginalia
