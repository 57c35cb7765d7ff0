import Marginalia.Settings.File
import Marginalia.Proofs.JsonLimits
import Marginalia.Proofs.Utf8

/-!
# What a settings file gives

A settings file that can be read gives settings unless its bytes are no text or its document goes
beyond a limit of the JSON reader (`Settings.load_settled_by_contents`).  What is given are the
settings that the document says, or else, with one warning, the settings that find nothing
(`Settings.Given`).
-/

namespace Marginalia.Settings

variable {disk : Disk} {path : Path} {bytes : List UInt8} {document : Text} {settings : Settings}
  {warnings : List Warning}

/-- The document that a file with a text holds. -/
def documentOf (s : String) : Text := (Text.ofString s).normalizeNewlines

/-- The settings that a document says, if it is JSON and all its values have the right shape. -/
def said? (document : Text) : Option Settings :=
  (Json.parse document).toOption.bind fun value => (Json.settings value).toOption

/-- What is given for a document: the settings that it says, and without a warning; or otherwise the
settings that find nothing, every option but the tags as it is by default, with one warning. -/
def Given (document : Text) (settings : Settings) (warnings : List Warning) : Prop :=
  match said? document with
  | some said => settings = said ∧ warnings = []
  | none => settings = { tags := [] } ∧ ∃ problem, warnings = [.malformedSettings problem]

/-- A document is beyond the limits if the reader raises a fault that is not about its grammar. -/
def BeyondLimits (document : Text) : Prop :=
  ∃ fault, Json.parse document = .error fault ∧ fault ≠ .malformed

/-- What a document says is given. -/
theorem given_some {said : Settings} (h : said? document = some said) : Given document said [] := by
  rw [Given, h]
  exact ⟨rfl, rfl⟩

/-- For a document that says nothing, the inert settings are given, with a warning. -/
theorem given_none (h : said? document = none) (problem : Problem) :
    Given document inert [.malformedSettings problem] := by
  rw [Given, h]
  exact ⟨rfl, problem, rfl⟩

/-- Reading a document raises a fault if it is beyond the limits, and otherwise it gives
settings. -/
theorem parse_cases (document : Text) :
    (BeyondLimits document ∧ ∃ fault, parse document = .error fault) ∨
      ¬ BeyondLimits document ∧ ∃ settings problem?, parse document = .ok (settings, problem?) ∧
        Given document settings (problem?.map Warning.malformedSettings).toList := by
  cases hparse : Json.parse document with
  | error fault =>
      by_cases hfault : fault = .malformed
      · subst hfault
        have hsaid : said? document = none := by
          rw [said?, hparse]
          rfl
        refine .inr ⟨?_, inert, some .notJson, by simp only [parse, hparse], given_none hsaid _⟩
        rintro ⟨found, hfound, hne⟩
        rw [hparse] at hfound
        cases hfound
        exact hne rfl
      · refine .inl ⟨⟨fault, hparse, hfault⟩, fault, ?_⟩
        cases fault with
        | malformed => exact absurd rfl hfault
        | integerTooLong | tooDeep => simp only [parse, hparse]
  | ok value =>
      have hwithin : ¬ BeyondLimits document := by
        rintro ⟨fault, hfault, -⟩
        rw [hparse] at hfault
        cases hfault
      cases hsettings : Json.settings value with
      | error issues =>
          have hsaid : said? document = none := by
            rw [said?, hparse]
            simp only [Except.toOption, Option.bind_some, hsettings]
          exact .inr ⟨hwithin, inert, some (.invalid issues),
            by simp only [parse, hparse, hsettings], given_none hsaid _⟩
      | ok said =>
          have hsaid : said? document = some said := by
            rw [said?, hparse]
            simp only [Except.toOption, Option.bind_some, hsettings]
          exact .inr ⟨hwithin, said, none, by simp only [parse, hparse, hsettings],
            given_some hsaid⟩

/-- Bytes that are no text give nothing. -/
theorem ofBytes_of_none (h : Utf8.decode bytes = none) : ofBytes bytes = .error .notText := by
  simp only [ofBytes, h]

/-- Loading the bytes of a text raises a fault if the document is beyond the limits, and otherwise
it gives settings. -/
theorem ofBytes_cases {s : String} (hs : s.toUTF8 = bytes.toByteArray) :
    (BeyondLimits (documentOf s) ∧ ∃ fault, ofBytes bytes = .error fault) ∨
      ¬ BeyondLimits (documentOf s) ∧ ∃ settings warnings,
        ofBytes bytes = .ok (settings, warnings) ∧
        Given (documentOf s) settings warnings := by
  have hdecode : Utf8.decode bytes = some (.ofString s) := Utf8.decode_eq_some_iff.2 ⟨s, hs, rfl⟩
  rcases parse_cases (documentOf s) with ⟨hbeyond, fault, hparse⟩ |
    ⟨hwithin, settings, problem?, hparse, h⟩
  · refine .inl ⟨hbeyond, .document fault, ?_⟩
    rw [documentOf] at hparse
    simp only [ofBytes, hdecode, hparse]
  · refine .inr ⟨hwithin, settings, _, ?_, h⟩
    rw [documentOf] at hparse
    simp only [ofBytes, hdecode, hparse]

/-- Within the limits of the reader, a text is not beyond them. -/
theorem not_beyondLimits {s : String} (h : Json.WithinLimits (.ofString s)) :
    ¬ BeyondLimits (documentOf s) := by
  rintro ⟨fault, hfault, hne⟩
  exact hne (h.normalizeNewlines.fault_eq hfault)

/-- **Contents settle what is loaded.**  A settings file that can be read raises a fault exactly if
it holds no text, or a text whose document is beyond the limits of the reader.  A text with no long
run of digits, and with no brackets nested deep, is never beyond them.  What is given is told by the
document. -/
theorem load_settled_by_contents (hread : disk.read path = .ok bytes) :
    ((∃ fault, load disk path = .error fault) ↔
      ∀ s : String, s.toUTF8 = bytes.toByteArray → BeyondLimits (documentOf s)) ∧
    (∀ s : String, s.toUTF8 = bytes.toByteArray → Json.WithinLimits (.ofString s) →
      ∃ settings warnings, load disk path = .ok (settings, warnings)) ∧
    ∀ settings warnings, load disk path = .ok (settings, warnings) →
      ∃ s : String, s.toUTF8 = bytes.toByteArray ∧ Given (documentOf s) settings warnings := by
  have hload : load disk path = ofBytes bytes := by simp only [load, hread]
  rw [hload]
  cases hdecode : Utf8.decode bytes with
  | none =>
      have hnone (s : String) : s.toUTF8 ≠ bytes.toByteArray := by
        intro hs
        rw [Utf8.decode_eq_some_iff.2 ⟨s, hs, rfl⟩] at hdecode
        cases hdecode
      rw [ofBytes_of_none hdecode]
      refine ⟨⟨fun _ s hs => absurd hs (hnone s), fun _ => ⟨_, rfl⟩⟩,
        fun s hs => absurd hs (hnone s), ?_⟩
      rintro _ _ ⟨⟩
  | some text =>
      obtain ⟨s, hs, -⟩ := Utf8.decode_eq_some_iff.1 hdecode
      -- The bytes are those of one string, which settles what both sides say of all strings.
      have honly (t : String) (ht : t.toUTF8 = bytes.toByteArray) : t = s :=
        String.toByteArray_inj.1 (ht.trans hs.symm)
      rcases ofBytes_cases hs with ⟨hbeyond, fault, hload⟩ | ⟨hwithin, given, warned, hload, hgiven⟩
      all_goals rw [hload]
      · refine ⟨⟨fun _ t ht => honly t ht ▸ hbeyond, fun _ => ⟨_, rfl⟩⟩, fun t ht hlimits => ?_, ?_⟩
        · exact absurd (honly t ht ▸ hbeyond) (not_beyondLimits hlimits)
        · rintro _ _ ⟨⟩
      · refine ⟨⟨?_, fun hbeyond => absurd (hbeyond s hs) hwithin⟩,
          fun _ _ _ => ⟨given, warned, rfl⟩, ?_⟩
        · rintro ⟨_, ⟨⟩⟩
        · rintro _ _ ⟨⟩
          exact ⟨s, hs, hgiven⟩

/-- The path of a settings file. -/
def samplePath : Path := Path.ofText "/.todo"

/-- A text that sets one tag and that case counts. -/
def sampleText : String := "\x7b\"tags\": [\"TODO\"], \"case\": true\x7d"

/-- A project with that settings file. -/
def sampleDisk : Disk := { items := [([".todo"], .file sampleText.toUTF8.data.toList)] }

theorem load_settled_by_contents_sampleDisk :
    sampleDisk.read samplePath = .ok sampleText.toUTF8.data.toList ∧
      ∃ settings warnings, load sampleDisk samplePath = .ok (settings, warnings) := by
  have hread : sampleDisk.read samplePath = .ok sampleText.toUTF8.data.toList := by rfl
  have hlimits : Json.WithinLimits (.ofString sampleText) :=
    { digits := fun _ hrun _ => Nat.le_trans hrun.length_le (by decide +kernel),
      nesting := by decide +kernel }
  exact ⟨hread, (load_settled_by_contents hread).2.1 sampleText (by rfl) hlimits⟩

/-- A project whose settings file holds one byte that begins no character. -/
def byteDisk : Disk := { items := [([".todo"], .file [0xFF])] }

/-- Loading settings raises a fault for some contents that can be read. -/
theorem load_refuses_byte :
    byteDisk.read samplePath = .ok [0xFF] ∧ load byteDisk samplePath = .error .notText := by
  have hread : byteDisk.read samplePath = .ok [0xFF] := by rfl
  exact ⟨hread, by simp only [load, hread]; rfl⟩

end Marginalia.Settings
