import Mathlib.Data.List.Forall2
import Mathlib.Data.List.Induction
import Marginalia.Settings
import Marginalia.Proofs.JsonWriting

/-!
# Settings that are written are read back

How settings are written in a document is told by a relation between the two
(`Settings.Writes`), one that leaves open what an author may choose: under which of its keys an
option stands, in which order the members come, which other members there are, whether an option
that has its default is left out, and whether a tag without pattern and color is given by its name
alone.  The document may be spelled in any way that the grammar allows.

All these documents are read as the settings that they write, without a problem
(`Settings.parse_written`).  The decoder looks for each option by itself, so the proof goes option
by option: a decoder that decodes what a relation writes (`Json.Decodes`) does so as well for
members, for lists and for objects.
-/

namespace Marginalia

namespace Json

variable {α : Type} {a : α} {as : List α} {default : α} {value : Json} {key : Text}
  {keys : List Text} {fields : List (Text × Json)} {writes : α → Json → Prop}
  {decode : Json → Checked α}

/-! ## Members -/

/-- The fields that have one of some keys. -/
def under (keys : List Text) (fields : List (Text × Json)) : List (Text × Json) :=
  fields.filter fun field => keys.contains field.1

/-- Whether fields give a value: once, under one of its keys. -/
def Gives (writes : α → Json → Prop) (keys : List Text) (fields : List (Text × Json)) (a : α) :
    Prop :=
  ∃ key value, under keys fields = [(key, value)] ∧ writes a value

/-- Whether fields tell a value: they give it, or they leave it out and it is the default. -/
def Tells (writes : α → Json → Prop) (default : α) (keys : List Text)
    (fields : List (Text × Json)) (a : α) : Prop :=
  Gives writes keys fields a ∨ under keys fields = [] ∧ a = default

/-- The value of a key is that of the last field with the key. -/
theorem lookup_eq (key : Text) (fields : List (Text × Json)) :
    lookup key fields = (fields.filter (·.1 = key)).getLast?.map (·.2) := by
  induction fields using List.reverseRecOn with
  | nil => rfl
  | append_singleton fields field ih =>
      obtain ⟨name, value⟩ := field
      by_cases hname : name = key
      · subst hname
        simp [lookup_append_self]
      · rw [List.filter_append, List.filter_cons_of_neg (by simpa using hname), List.filter_nil,
          List.append_nil, ← ih]
        simp [lookup, List.foldl_append, hname]

/-- Fields with other keys make no difference to what a key has. -/
theorem lookup_under (h : key ∈ keys) : lookup key (under keys fields) = lookup key fields := by
  rw [lookup_eq, lookup_eq, under, List.filter_filter]
  have hfilter : (fields.filter fun field => field.1 = key && keys.contains field.1) =
      fields.filter (·.1 = key) := by
    refine List.filter_congr fun field _ => ?_
    by_cases hfield : field.1 = key <;> simp [hfield, h]
  rw [hfilter]

/-- What is found for some keys depends on the members with these keys alone. -/
theorem member?_congr {others : List (Text × Json)}
    (h : ∀ key ∈ keys, lookup key fields = lookup key others) :
    member? decode fields keys = member? decode others keys := by
  induction keys with
  | nil => rfl
  | cons key keys ih =>
      rw [member?, member?, h key List.mem_cons_self,
        ih fun other hother => h other (List.mem_cons_of_mem _ hother)]

/-- Of no members, none is found. -/
theorem member?_nil (keys : List Text) : member? decode [] keys = .ok none := by
  induction keys with
  | nil => rfl
  | cons key keys ih => exact ih

/-- The only member is found under any of its keys, and its faults are shown at the key that it
has. -/
theorem member?_singleton (h : key ∈ keys) :
    member? decode [(key, value)] keys = ((decode value).within (.key key)).map some := by
  induction keys with
  | nil => cases h
  | cons first keys ih =>
      by_cases hfirst : key = first
      · simp [member?, lookup, hfirst]
      · rw [List.mem_cons, or_iff_right hfirst] at h
        simp only [member?, lookup, List.foldl_cons, List.foldl_nil, if_neg hfirst, ih h]

/-- A decoder decodes what is written. -/
def Decodes (decode : Json → Checked α) (writes : α → Json → Prop) : Prop :=
  ∀ a value, writes a value → decode value = .ok a

/-- Members that are picked by keys have one of them. -/
theorem mem_keys_of_under (h : under keys fields = [(key, value)]) : key ∈ keys := by
  have hmem : (key, value) ∈ under keys fields := h ▸ List.mem_singleton_self _
  exact List.contains_iff_mem.1 (List.mem_filter.1 hmem).2

/-- What an object gives for some keys is found in it. -/
theorem Decodes.member? (hdecode : Decodes decode writes) (h : Gives writes keys fields a) :
    member? decode fields keys = .ok (some a) := by
  obtain ⟨key, value, hfields, hvalue⟩ := h
  rw [← member?_congr fun _ => lookup_under, hfields,
    member?_singleton (mem_keys_of_under hfields), hdecode a _ hvalue]
  rfl

/-- A member that is told is decoded, whether it is given or left out. -/
theorem Decodes.withDefault (hdecode : Decodes decode writes)
    (h : Tells writes default keys fields a) : withDefault default decode keys fields = .ok a := by
  rcases h with h | ⟨hfields, rfl⟩
  · rw [Json.withDefault, hdecode.member? h]
    rfl
  · rw [Json.withDefault, ← member?_congr fun _ => lookup_under, hfields, member?_nil]
    rfl

/-- A member that is required may not be left out, so it is written wherever the value is. -/
theorem Decodes.required (hdecode : Decodes decode writes) (h : Gives writes [key] fields a) :
    required decode key fields = .ok a := by
  obtain ⟨name, value, hfields, hvalue⟩ := h
  obtain rfl := List.mem_singleton.1 (mem_keys_of_under hfields)
  have hlookup : lookup name fields = some value := by
    rw [← lookup_under (List.mem_singleton_self name), hfields]
    simp [lookup]
  rw [Json.required, hlookup]
  simp only [hdecode a _ hvalue]
  rfl

/-! ## Lists and objects -/

/-- How lists are written: as arrays, item by item. -/
def WritesList (writes : α → Json → Prop) (as : List α) (value : Json) : Prop :=
  ∃ items, value = .array items ∧ List.Forall₂ writes as items

/-- How records are written: as objects whose fields tell them. -/
def WritesObject (tells : List (Text × Json) → α → Prop) (a : α) (value : Json) : Prop :=
  ∃ fields, value = .object fields ∧ tells fields a

/-- Items are read one after the other; the number of the first one matters for faults alone. -/
theorem Decodes.itemsFrom (hdecode : Decodes decode writes) {items : List Json}
    (h : List.Forall₂ writes as items) (n : Nat) : itemsFrom decode n items = .ok as := by
  induction h generalizing n with
  | nil => rfl
  | cons hitem _ ih =>
      rw [Json.itemsFrom, hdecode _ _ hitem, ih]
      rfl

/-- A list is read if its items are. -/
theorem Decodes.list (hdecode : Decodes decode writes) :
    Decodes (list decode) (WritesList writes) := by
  rintro as _ ⟨items, rfl, h⟩
  exact hdecode.itemsFrom h 0

/-- An object is read if its members are. -/
theorem decodes_members {tells : List (Text × Json) → α → Prop}
    {decode : List (Text × Json) → Checked α}
    (h : ∀ fields a, tells fields a → decode fields = .ok a) :
    Decodes (members decode) (WritesObject tells) := by
  rintro a _ ⟨fields, rfl, htells⟩
  exact h fields a htells

/-! ## Options -/

/-- How texts are written. -/
def WritesText (t : Text) (value : Json) : Prop := value = .string t

/-- How texts that may be missing are written. -/
inductive WritesOptional : Option Text → Json → Prop
  | none : WritesOptional none .null
  | some (t : Text) : WritesOptional (some t) (.string t)

/-- How flags are written. -/
def WritesFlag (b : Bool) (value : Json) : Prop := value = .bool b

/-- How sizes are written. -/
def WritesSize (n : Nat) (value : Json) : Prop := value = .integer n

/-- How scopes are written; those that a program asks for by another name are not. -/
inductive WritesScope : Scope → Json → Prop
  | project : WritesScope .project (.string (Scope.name .project))
  | current : WritesScope .current (.string (Scope.name .current))

/-- Fields that tell a tag. -/
structure TellsTag (fields : List (Text × Json)) (tag : Tag) : Prop where
  name : Gives WritesText ["name"] fields tag.name
  pattern : Tells WritesOptional none ["pattern"] fields tag.pattern?
  color : Tells WritesOptional none ["color"] fields tag.color?

/-- How tags are written: as objects, or by their names alone if they have nothing else. -/
inductive WritesTag : Tag → Json → Prop
  | object {tag : Tag} {fields : List (Text × Json)} (h : TellsTag fields tag) :
      WritesTag tag (.object fields)
  | name (name : Text) : WritesTag { name } (.string name)

/-- Fields that tell the options of a search. -/
structure TellsSearch (fields : List (Text × Json)) (search : Search) : Prop where
  scope : Tells WritesScope .project ["scope"] fields search.scope
  excludedFolders : Tells (WritesList WritesText) ({} : Search).excludedFolders
    ["excludeFolders", "exclude_folders"] fields search.excludedFolders
  excludedFiles : Tells (WritesList WritesText) ({} : Search).excludedFiles
    ["excludeFiles", "exclude_files"] fields search.excludedFiles
  sizeLimit : Tells WritesSize ({} : Search).sizeLimit
    ["maxFileSize", "max_file_size"] fields search.sizeLimit

/-- Fields that tell the options of the order. -/
def TellsSorting (fields : List (Text × Json)) (sorting : Sorting) : Prop :=
  Tells WritesFlag false ["done"] fields sorting.doneLast

/-- Fields that tell settings. -/
structure TellsSettings (fields : List (Text × Json)) (settings : Settings) : Prop where
  tags : Tells (WritesList WritesTag) ({} : Settings).tags ["tags"] fields settings.tags
  caseSensitive : Tells WritesFlag false ["case", "case_sensitive"] fields settings.caseSensitive
  search : Tells (WritesObject TellsSearch) {} ["search"] fields settings.search
  sorting : Tells (WritesObject TellsSorting) {} ["sort"] fields settings.sorting

theorem decodes_text : Decodes text WritesText := by
  rintro t _ rfl
  rfl

/-- A text, or nothing. -/
theorem decodes_optionalText : Decodes optionalText WritesOptional := by
  rintro t? _ (_ | _) <;> rfl

/-- A flag is written as itself, or as one of the words and numbers for it. -/
theorem decodes_flag : Decodes flag WritesFlag := by
  rintro b _ rfl
  rfl

/-- A size is a whole number, and has no sign. -/
theorem decodes_numberFrom : Decodes (numberFrom 0) WritesSize := by
  rintro n _ rfl
  have hnonneg : ((0 : Nat) : Int) ≤ n := Int.natCast_nonneg n
  simp only [numberFrom, wholeNumber, bind, Except.bind, if_pos hnonneg, Int.toNat_natCast]
  rfl

/-- The name of a scope. -/
theorem decodes_scope : Decodes scope WritesScope := by
  rintro scope _ (_ | _) <;> rfl

/-- A tag is an object with a name, or its name alone. -/
theorem decodes_tag : Decodes tagOrName WritesTag := by
  rintro tag _ (@⟨tag, fields, h⟩ | _)
  · simp only [tagOrName, Json.tag, members, decodes_text.required h.name,
      decodes_optionalText.withDefault h.pattern, decodes_optionalText.withDefault h.color]
    rfl
  · rfl

/-- The options of the search may be left out, each by itself. -/
theorem decodes_search : Decodes search (WritesObject TellsSearch) :=
  decodes_members fun fields a h => by
    simp only [decodes_scope.withDefault h.scope, decodes_text.list.withDefault h.excludedFolders,
      decodes_text.list.withDefault h.excludedFiles, decodes_numberFrom.withDefault h.sizeLimit]
    rfl

/-- So may the option for the order. -/
theorem decodes_sorting : Decodes sorting (WritesObject TellsSorting) :=
  decodes_members fun fields a h => by
    rw [decodes_flag.withDefault h]
    rfl

/-- Settings that are written are decoded. -/
theorem decodes_settings : Decodes settings (WritesObject TellsSettings) :=
  decodes_members fun fields a h => by
    simp only [decodes_tag.list.withDefault h.tags, decodes_flag.withDefault h.caseSensitive,
      decodes_search.withDefault h.search, decodes_sorting.withDefault h.sorting]
    rfl

/-! ## A document for any settings -/

/-- Writes a text that may be missing. -/
def ofOptional : Option Text → Json
  | none => .null
  | some t => .string t

/-- Writes texts. -/
def ofTexts (texts : List Text) : Json := .array (texts.map .string)

/-- Writes a tag. -/
def ofTag (tag : Tag) : Json :=
  .object [("name", .string tag.name), ("pattern", ofOptional tag.pattern?),
    ("color", ofOptional tag.color?)]

/-- Writes the options of a search. -/
def ofSearch (search : Search) : Json :=
  .object [("scope", .string search.scope.name), ("excludeFolders", ofTexts search.excludedFolders),
    ("excludeFiles", ofTexts search.excludedFiles), ("maxFileSize", .integer search.sizeLimit)]

/-- Writes settings, all their options in full. -/
def ofSettings (settings : Settings) : Json :=
  .object [("tags", .array (settings.tags.map ofTag)), ("case", .bool settings.caseSensitive),
    ("search", ofSearch settings.search),
    ("sort", .object [("done", .bool settings.sorting.doneLast)])]

/-- The texts of a tag. -/
def textsOfTag (tag : Tag) : List Text := tag.name :: (tag.pattern?.toList ++ tag.color?.toList)

/-- The texts of settings. -/
def textsOfSettings (settings : Settings) : List Text :=
  settings.tags.flatMap textsOfTag ++ settings.search.excludedFolders ++
    settings.search.excludedFiles

/-- What is there is written as it is, and what is not as null. -/
theorem writesOptional_ofOptional (t? : Option Text) : WritesOptional t? (ofOptional t?) := by
  cases t? with
  | none => exact .none
  | some t => exact .some t

/-- A list is written by writing its items. -/
theorem writesList_map {of : α → Json} (h : ∀ a ∈ as, writes a (of a)) :
    WritesList writes as (.array (as.map of)) :=
  ⟨_, rfl, List.forall₂_map_right_iff.2 (List.forall₂_same.2 h)⟩

/-- A tag is written as an object with all of its members. -/
theorem writesTag_ofTag (tag : Tag) : WritesTag tag (ofTag tag) :=
  .object ⟨⟨_, _, rfl, rfl⟩, .inl ⟨_, _, rfl, writesOptional_ofOptional _⟩,
    .inl ⟨_, _, rfl, writesOptional_ofOptional _⟩⟩

/-- The options of the search are written with the keys that they have in settings files. -/
theorem writesSearch_ofSearch {search : Search} (h : ∀ name, search.scope ≠ .other name) :
    WritesObject TellsSearch search (ofSearch search) := by
  have hscope : WritesScope search.scope (.string search.scope.name) := by
    cases hs : search.scope with
    | project => exact .project
    | current => exact .current
    | other name => exact absurd hs (h name)
  have htexts (texts : List Text) : WritesList WritesText texts (ofTexts texts) :=
    writesList_map fun _ _ => rfl
  exact ⟨_, rfl, .inl ⟨_, _, rfl, hscope⟩, .inl ⟨_, _, rfl, htexts _⟩, .inl ⟨_, _, rfl, htexts _⟩,
    .inl ⟨_, _, rfl, rfl⟩⟩

/-- Whole settings are written so, unless they have a scope that there is none of. -/
theorem writesSettings_ofSettings {settings : Settings}
    (h : ∀ name, settings.search.scope ≠ .other name) :
    WritesObject TellsSettings settings (ofSettings settings) :=
  ⟨_, rfl, .inl ⟨_, _, rfl, writesList_map fun tag _ => writesTag_ofTag tag⟩, .inl ⟨_, _, rfl, rfl⟩,
    .inl ⟨_, _, rfl, writesSearch_ofSearch h⟩, .inl ⟨_, _, rfl, _, rfl, .inl ⟨_, _, rfl, rfl⟩⟩⟩

/-- A list of texts can be written if they can. -/
theorem writable_ofTexts {texts : List Text} (h : ∀ t ∈ texts, hasLoneSurrogate t = false)
    (depth : Nat) : Writable (depth + 1) (ofTexts texts) :=
  .array (List.forall_mem_map.2 fun t ht => .string (h t ht))

/-- A tag can be written if its texts can. -/
theorem writable_ofTag {tag : Tag} (h : ∀ t ∈ textsOfTag tag, hasLoneSurrogate t = false)
    (depth : Nat) : Writable (depth + 1) (ofTag tag) := by
  have hoptional (t? : Option Text) (hmem : ∀ t ∈ t?, t ∈ textsOfTag tag) :
      Writable depth (ofOptional t?) := by
    cases t? with
    | none => exact .null
    | some t => exact .string (h t (hmem t rfl))
  simp only [textsOfTag, List.mem_cons, List.mem_append, Option.mem_toList] at h hoptional
  exact .cons rfl (.string (h _ (.inl rfl)))
    (.cons rfl (hoptional _ fun t ht => .inr (.inl ht))
      (.cons rfl (hoptional _ fun t ht => .inr (.inr ht)) .empty))

/-- The options of the search can be written if their texts can, and the number is not too long. -/
theorem writable_ofSearch {search : Search}
    (hscope : ∀ name, search.scope ≠ .other name)
    (hfolders : ∀ t ∈ search.excludedFolders, hasLoneSurrogate t = false)
    (hfiles : ∀ t ∈ search.excludedFiles, hasLoneSurrogate t = false)
    (hsize : (Text.ofNat search.sizeLimit).length ≤ digitLimit) (depth : Nat) :
    Writable (depth + 2) (ofSearch search) := by
  have hname : hasLoneSurrogate search.scope.name = false := by
    cases hs : search.scope with
    | project | current => rfl
    | other name => exact absurd hs (hscope name)
  exact .cons rfl (.string hname) (.cons rfl (writable_ofTexts hfolders _)
    (.cons rfl (writable_ofTexts hfiles _) (.cons rfl (.integer hsize) .empty)))

end Json

namespace Settings

/-- Whether a document writes settings. -/
def Writes (settings : Settings) (document : Text) : Prop :=
  ∃ value, Json.SpellsDocument document value ∧ Json.WritesObject Json.TellsSettings settings value

/-- Settings that can be written. -/
structure IsWritable (settings : Settings) : Prop where
  /-- The scope is one that a document can ask for. -/
  scope : ∀ name, settings.search.scope ≠ .other name
  /-- No text holds half of a surrogate pair. -/
  texts : ∀ t ∈ Json.textsOfSettings settings, Json.hasLoneSurrogate t = false
  /-- The size is within the limit on the digits of an integer. -/
  sizeLimit : (Text.ofNat settings.search.sizeLimit).length ≤ Json.digitLimit

/-- The value for writable settings is three levels deep. -/
theorem writable_ofSettings {settings : Settings} (h : settings.IsWritable) (depth : Nat) :
    Json.Writable (depth + 3) (Json.ofSettings settings) := by
  obtain ⟨hscope, htexts, hsize⟩ := h
  simp only [Json.textsOfSettings, List.forall_mem_append, List.forall_mem_flatMap] at htexts
  obtain ⟨⟨htags, hfolders⟩, hfiles⟩ := htexts
  have hlist : Json.Writable (depth + 2) (.array (settings.tags.map Json.ofTag)) :=
    .array (List.forall_mem_map.2 fun tag htag => Json.writable_ofTag (htags tag htag) depth)
  have hsearch := Json.writable_ofSearch hscope hfolders hfiles hsize depth
  exact .cons rfl hlist (.cons rfl (.bool _) (.cons rfl hsearch
    (.cons rfl (.cons rfl (.bool _) .empty) .empty)))

/-- A document is read in two steps: as a value, and the value as settings. -/
theorem parse_of_spells {document : Text} {value : Json} {settings : Settings}
    (hdocument : Json.SpellsDocument document value) (hvalue : Json.settings value = .ok settings) :
    parse document = .ok (settings, none) := by
  simp only [parse, Json.parse_eq_ok_iff.2 hdocument, hvalue]

/-- **Written settings are read.**  Each document that writes some settings is read as these
settings, and without a problem; and of all settings that can be written there is such a
document. -/
theorem parse_written (settings : Settings) :
    (∀ document, settings.Writes document → parse document = .ok (settings, none)) ∧
      (settings.IsWritable → settings.Writes (Json.render (Json.ofSettings settings))) := by
  constructor
  · rintro document ⟨value, hdocument, hvalue⟩
    exact parse_of_spells hdocument (Json.decodes_settings _ _ hvalue)
  · intro h
    have hspelled := Json.spells_render (writable_ofSettings h 977)
    exact ⟨Json.ofSettings settings, .of_spelled hspelled, Json.writesSettings_ofSettings h.scope⟩

/-- A text that is read as a member to its end spells it. -/
theorem spellsMember_of_read {depth : Nat} {s : Text} {member : Text × Json}
    (h : Json.readMember (Json.readValue depth) s = .ok (member, [])) :
    Json.SpellsMember (Json.Spells depth) s member := by
  obtain ⟨spelled, hspelled, rfl⟩ := (Json.reads_member (Json.reads_value depth)).exists_spelled h
  rwa [List.append_nil]

/-- A document with its members in another order, with both kinds of keys and of tags, with a member
that means nothing, and without some options. -/
theorem parse_written_mixed :
    let settings : Settings :=
      { tags := [{ name := "A" }, { name := "BUG", color? := some ("red" : Text) }],
        caseSensitive := true, search := { sizeLimit := 5 } }
    let document : Text :=
      "\x7b\"x\":[null],\"tags\":[\"A\",\x7b\"color\":\"red\",\"name\":\"B\\u0055G\"\x7d],
        \"case_sensitive\":true,\"search\":\x7b\"maxFileSize\":5\x7d\x7d"
    (settings.Writes document ∧ parse document = .ok (settings, none)) ∧
      settings.IsWritable ∧ settings.Writes (Json.render (Json.ofSettings settings)) := by
  intro settings document
  -- member by member, as they stand between the commas
  have hx : Json.SpellsMember (Json.Spells 979) "\"x\":[null]" ("x", .array [.null]) :=
    spellsMember_of_read rfl
  have hlist : Json.SpellsMember (Json.Spells 979)
      "\"tags\":[\"A\",\x7b\"color\":\"red\",\"name\":\"B\\u0055G\"\x7d]"
      ("tags", .array [.string "A", .object [("color", .string "red"), ("name", .string "BUG")]]) :=
    spellsMember_of_read rfl
  have hcase : Json.SpellsMember (Json.Spells 979) "\"case_sensitive\":true"
      ("case_sensitive", .bool true) := spellsMember_of_read rfl
  have hoptions : Json.SpellsMember (Json.Spells 979) "\"search\":\x7b\"maxFileSize\":5\x7d"
      ("search", .object [("maxFileSize", .integer 5)]) := spellsMember_of_read rfl
  have hspelled : Json.SpellsDocument document (.object
      [("x", .array [.null]),
        ("tags", .array [.string "A", .object [("color", .string "red"), ("name", .string "BUG")]]),
        ("case_sensitive", .bool true), ("search", .object [("maxFileSize", .integer 5)])]) := by
    have hnil : Json.IsSpace [] := by simp [Json.IsSpace]
    have hspace : Json.IsSpace "\n        " := by
      unfold Json.IsSpace
      decide
    have hobject := Json.SpellsValue.object (.listed (.cons (.mk hnil hx hnil)
      (.cons (.mk hnil hlist hnil) (.cons (.mk hspace hcase hnil)
        (.last (.mk hnil hoptions hnil))))))
    have hinner : Json.Spells (979 + 1) _ _ := hobject
    have hspaced : Json.SpellsDocument _ _ := Json.Spaced.mk hnil hinner hnil
    have hsame : ∀ {s t : Text} {value : Json}, Json.SpellsDocument s value → s = t →
        Json.SpellsDocument t value := fun h heq => heq ▸ h
    refine hsame hspaced ?_
    decide +kernel +zetaReduce
  have htags : Json.WritesList Json.WritesTag settings.tags
      (.array [.string "A", .object [("color", .string "red"), ("name", .string "BUG")]]) :=
    ⟨_, rfl, .cons (.name _) (.cons (.object ⟨⟨_, _, rfl, rfl⟩, .inr ⟨rfl, rfl⟩,
      .inl ⟨_, _, rfl, .some _⟩⟩) .nil)⟩
  have hsearch : Json.WritesObject Json.TellsSearch settings.search
      (.object [("maxFileSize", .integer 5)]) :=
    ⟨_, rfl, .inr ⟨rfl, rfl⟩, .inr ⟨rfl, rfl⟩, .inr ⟨rfl, rfl⟩, .inl ⟨_, _, rfl, rfl⟩⟩
  have hwrites : settings.Writes document :=
    ⟨_, hspelled, _, rfl, .inl ⟨_, _, rfl, htags⟩, .inl ⟨_, _, rfl, rfl⟩,
      .inl ⟨_, _, rfl, hsearch⟩, .inr ⟨rfl, rfl⟩⟩
  have hwritable : settings.IsWritable := ⟨fun _ h => Scope.noConfusion h, by decide, by decide⟩
  exact ⟨⟨hwrites, (parse_written settings).1 document hwrites⟩, hwritable,
    (parse_written settings).2 hwritable⟩

end Settings

end Marginalia
