import Marginalia.Proofs.ActiveDocument
import Marginalia.Proofs.Rounds

/-!
# Preparing a project

Before the notes of a project are shown, its settings are loaded, a document may be made the active
one, and another scope may be asked for.  Each of these steps scans the project or does not,
depending on the scope that is in force by then, so that there are up to three scans.

What a scan takes in is settled by the scope, the active document, the vocabulary and the exclusions
(`Catalog.survey`), and not by what the index held before.  An index is *fresh* if it holds what a
scan would take in.  A fresh index stays fresh when the document or the scope changes, whether that
leads to a scan or not (`Catalog.IsFresh.endsWith_turn`), since without a scan there is nothing that
a scan would find otherwise.  Hence only the last stop counts (`Catalog.meetAll_turns`):
`CommandLine.preparation_is_one_scan` says that the index is that of a single scan with the
settings, the scope and the document that are in force at the end, and that in the current scope
nothing matters but the document and the settings file.
-/

namespace Marginalia

namespace Catalog

variable {c d t : Catalog} {disk other : Disk} {index : Index} {settings : Settings}
  {vocabulary : Vocabulary} {m : Meeting} {fault : Fault}

/-! ## What a scan takes in -/

/-- The files that a scan looks into. -/
def lookedInto (c : Catalog) (disk : Disk) : Except Fault (List Text) :=
  if c.scope = .current then .ok c.active.toList else (c.workspace.list disk).mapError .disk

/-- What a scan takes in, unless one of the files that it looks into makes a fault. -/
def survey (c : Catalog) (disk : Disk) : Except Fault Index :=
  (c.lookedInto disk).bind fun paths =>
    (gather (c.findings disk c.vocabulary paths)).map fun found =>
      .ofEntries (scannedEntries (c.scope = .current) found)

/-- The same catalog with another active document. -/
def showing (c : Catalog) (active : Option Text) : Catalog := { c with active }

/-- What a scan takes in depends on the scope, the active document, the workspace and the
vocabulary. -/
theorem survey_congr (hscope : d.scope = c.scope) (hactive : d.active = c.active)
    (hworkspace : d.workspace = c.workspace) (hvocabulary : d.vocabulary = c.vocabulary)
    (disk : Disk) : d.survey disk = c.survey disk := by
  simp only [survey, lookedInto, findings, hscope, hactive, hworkspace, hvocabulary]

/-- What is kept in two steps is kept. -/
theorem Keeps.trans (h : c.Keeps d) (hd : d.Keeps t) : c.Keeps t where
  hasFile := hd.hasFile.trans h.hasFile
  settings := hd.settings.trans h.settings
  vocabulary := hd.vocabulary.trans h.vocabulary
  workspace := hd.workspace.trans h.workspace
  active := hd.active.trans h.active

/-- What a scan would find does not change if all is kept that it depends on. -/
theorem Keeps.survey (h : c.Keeps d) (disk : Disk) : d.survey disk = c.survey disk := by
  have hscope : d.scope = c.scope := by rw [Catalog.scope, Catalog.scope, h.settings]
  exact survey_congr hscope h.active h.workspace h.vocabulary disk

/-- Where the active document is not what is shown, it does not matter which one it is. -/
theorem survey_of_ne_current (hne : c.scope ≠ .current) (hscope : d.scope = c.scope)
    (hworkspace : d.workspace = c.workspace) (hvocabulary : d.vocabulary = c.vocabulary)
    (disk : Disk) : d.survey disk = c.survey disk := by
  simp only [survey, lookedInto, findings, hscope, hworkspace, hvocabulary, if_neg hne]

/-- Notes that a scan takes in are those of a text that it has found. -/
theorem exists_text_of_survey (h : c.survey disk = .ok index) :
    ∀ entry ∈ index.entries, ∃ text, c.vocabulary.notesIn entry.path text = .ok entry.notes := by
  intro entry hentry
  unfold survey at h
  cases hpaths : c.lookedInto disk with
  | error fault =>
      rw [hpaths] at h
      cases h
  | ok paths =>
      cases hfound : gather (c.findings disk c.vocabulary paths) with
      | error fault => simp [hpaths, hfound, Except.bind, Except.map] at h
      | ok found =>
          simp only [hpaths, hfound, Except.bind, Except.map, Except.ok.injEq] at h
          subst h
          have hm := Index.mem_of_mem_ofEntries hentry
          obtain ⟨path, notes, hin, -, rfl⟩ := mem_scannedEntries.1 hm
          have hexamined := ((mem_gathered (gather_eq_ok.1 hfound)).1 hin).2
          obtain ⟨text, -, hnotes⟩ := examine_eq_some hexamined
          exact ⟨text, hnotes⟩

/-- A meeting that ends with a fault, or with an index while all else stays in force. -/
structure EndsWith (c : Catalog) (result : Except Fault Index) (m : Meeting) : Prop where
  answer : m.answer = result.map fun _ => true
  catalog : ∀ index, result = .ok index → c.Keeps m.catalog ∧ m.catalog.index = index

/-- A scan that fails ends with that fault. -/
theorem endsWith_error (h : m.answer = .error fault) : c.EndsWith (.error fault) m :=
  ⟨h, nofun⟩

/-- A scan that goes through ends with the index that it leaves. -/
theorem endsWith_ok (h : m.answer = .ok true) (hk : c.Keeps m.catalog) :
    c.EndsWith (.ok m.catalog.index) m := by
  refine ⟨h, fun index hindex => ?_⟩
  cases hindex
  exact ⟨hk, rfl⟩

/-- When its files are known, a scan that nothing comes in between of takes in what it finds. -/
theorem endsWith_readFiles (c : Catalog) (disk : Disk) (scan : Scan)
    (hscan : scan.generation = c.scanning.generation) (paths : List Text) (pauses : Nat) :
    c.EndsWith
      ((gather (c.findings disk scan.vocabulary paths)).map fun found =>
        .ofEntries (scannedEntries scan.keepEmpty found))
      (settle disk (pauses + 2) (c.scanning.readFiles scan paths)) := by
  cases hf : gather (c.findings disk scan.vocabulary paths) with
  | error fault => exact endsWith_error (settle_readFiles_of_error (c := c.scanning) pauses hf)
  | ok found =>
      have hends := settle_readFiles (c := c.scanning) hscan rfl pauses hf
      have hkeeps :
          c.Keeps (settle disk (pauses + 2) (c.scanning.readFiles scan paths)).catalog := by
        rw [hends.2]
        exact ⟨rfl, rfl, rfl, rfl, rfl⟩
      have hindex : (settle disk (pauses + 2) (c.scanning.readFiles scan paths)).catalog.index =
          .ofEntries (scannedEntries scan.keepEmpty found) := by
        rw [hends.2]
      have hok := endsWith_ok hends.1 hkeeps
      rw [hindex] at hok
      exact hok

/-- A scan that nothing comes in between of takes in its survey. -/
theorem endsWith_beginScan (c : Catalog) (disk : Disk) (pauses : Nat) :
    c.EndsWith (c.survey disk) (settle disk (pauses + 3) c.beginScan) := by
  unfold survey lookedInto
  by_cases hs : c.scope = .current
  · rw [if_pos hs, beginScan_of_current hs, decide_eq_true hs]
    exact endsWith_readFiles c disk (c.newScan true) rfl c.active.toList (pauses + 1)
  · rw [if_neg hs, beginScan_of_ne_current hs, settle_succ (by simp [Next.pausesLeft]),
      decide_eq_false hs]
    have hworkspace : c.scanning.workspace = c.workspace := rfl
    cases hlist : c.workspace.list disk with
    | error fault =>
        apply endsWith_error
        simp [fulfil, hworkspace, hlist, settle]
    | ok paths =>
        have hread := endsWith_readFiles c disk (c.newScan false) rfl paths pauses
        simp only [fulfil, hworkspace, hlist]
        exact ⟨hread.answer, hread.catalog⟩

/-- A reload that gets its settings ends with a scan under them. -/
theorem endsWith_reload {warnings flaws : List Warning} (hfile : c.hasFile = true)
    (hload : Settings.load disk c.workspace.settingsFile = .ok (settings, warnings))
    (hv : settings.vocabularyWithWarnings = .ok (vocabulary, flaws)) :
    (c.reloaded settings vocabulary).EndsWith ((c.reloaded settings vocabulary).survey disk)
      (c.meet disk .reload) := by
  have hreload := meet_reload disk hfile
  simp only [hload, hv] at hreload
  have hscan := endsWith_beginScan (c.reloaded settings vocabulary) disk 0
  refine ⟨hreload.1.trans hscan.answer, fun index hindex => ?_⟩
  rw [hreload.2]
  exact hscan.catalog index hindex

/-! ## Turning to another document or scope -/

/-- The index holds what a scan would take in. -/
def IsFresh (c : Catalog) (disk : Disk) : Prop := c.survey disk = .ok c.index

/-- A request that only changes what is to be shown. -/
def IsTurn : Request → Prop
  | .setScope _ => True
  | .setActive _ => True
  | _ => False

/-- The catalog that such a request turns to, before a scan that may follow. -/
def facing (c : Catalog) : Request → Catalog
  | .setScope scope => { c with settings := c.settings.withScope scope }
  | .setActive path => { c with active := (path.filter (!·.isEmpty)).map c.workspace.normalize }
  | _ => c

/-- Where the same is in force, a request turns to the same. -/
theorem Keeps.facing (h : c.Keeps d) (request : Request) :
    (c.facing request).Keeps (d.facing request) := by
  cases request with
  | setScope scope =>
      exact ⟨h.hasFile, by simp [Catalog.facing, h.settings], h.vocabulary, h.workspace, h.active⟩
  | setActive path =>
      exact ⟨h.hasFile, h.settings, h.vocabulary, h.workspace,
        by simp [Catalog.facing, h.workspace]⟩
  | rescan => exact h
  | reload => exact h
  | file event => exact h

/-- With a fresh index, turning to something else ends like a scan of it, whether there is one or
not. -/
theorem IsFresh.endsWith_turn (h : c.IsFresh disk) {request : Request} (hturn : IsTurn request) :
    (c.facing request).EndsWith ((c.facing request).survey disk) (c.meet disk request) := by
  cases request with
  | setScope scope =>
      by_cases hsame : scope = c.scope
      · have hc : c.facing (.setScope scope) = c := by rw [hsame]; rfl
        have hmeet : c.meet disk (.setScope scope) = { catalog := c, answer := .ok true } := by
          rw [hsame, meet_setScope_same]
        rw [hc, hmeet, h]
        exact endsWith_ok (m := { catalog := c, answer := .ok true }) rfl (Keeps.refl c)
      · have hmeet : c.meet disk (.setScope scope) =
            settle disk 5 (c.facing (.setScope scope)).beginScan := by
          simp [meet, begin, changeScope, hsame, settle, pauses, Catalog.facing]
        rw [hmeet]
        exact endsWith_beginScan _ disk 2
  | setActive path =>
      by_cases hs : c.scope = .current
      · have hmeet : c.meet disk (.setActive path) =
            settle disk 5 (c.facing (.setActive path)).beginScan := by
          have hscope : c.settings.scope = .current := hs
          simp [meet, begin, changeActive, scope, hscope, settle, pauses, Catalog.facing]
        rw [hmeet]
        exact endsWith_beginScan _ disk 2
      · have hmeet : c.meet disk (.setActive path) =
            { catalog := c.facing (.setActive path), answer := .ok true } := by
          have hscope : c.settings.scope ≠ .current := hs
          simp [meet, begin, changeActive, scope, hscope, Catalog.facing]
        have hsurvey : (c.facing (.setActive path)).survey disk = c.survey disk :=
          survey_of_ne_current (d := c.facing (.setActive path)) hs rfl rfl rfl disk
        rw [hmeet, hsurvey, h]
        exact endsWith_ok (m := { catalog := c.facing (.setActive path), answer := .ok true }) rfl
          (Keeps.refl _)
  | rescan => cases hturn
  | reload => cases hturn
  | file event => cases hturn

/-- After a request that was met well, the others are met. -/
theorem meetAll_cons_of_ok {request : Request} {complete : Bool}
    (h : (c.meet disk request).answer = .ok complete) (rest : List Request) :
    (meetAll disk c (request :: rest)).answer =
      (meetAll disk (c.meet disk request).catalog rest).answer ∧
      (meetAll disk c (request :: rest)).catalog =
        (meetAll disk (c.meet disk request).catalog rest).catalog := by
  simp [meetAll, h]

/-- After one that failed, no other is met. -/
theorem meetAll_cons_of_error {request : Request} (h : (c.meet disk request).answer = .error fault)
    (rest : List Request) : (meetAll disk c (request :: rest)).answer = .error fault := by
  simp [meetAll, h]

/-- A meeting that ends like a scan leaves a fresh index, or fails. -/
theorem EndsWith.fresh_or_fails (h : t.EndsWith (t.survey disk) m) :
    (m.answer = .ok true ∧ (∃ index, t.survey disk = .ok index) ∧ t.Keeps m.catalog ∧
        m.catalog.IsFresh disk) ∨
      ∃ fault, m.answer = .error fault ∧ t.survey disk = .error fault := by
  cases hsurvey : t.survey disk with
  | error fault =>
      rw [hsurvey] at h
      exact .inr ⟨fault, h.answer, rfl⟩
  | ok index =>
      rw [hsurvey] at h
      obtain ⟨hkeeps, hindex⟩ := h.catalog index rfl
      refine .inl ⟨h.answer, ⟨index, rfl⟩, hkeeps, ?_⟩
      rw [IsFresh, hkeeps.survey, hsurvey, hindex]

/-- What fails at a stop does not go through, and nothing has to be said of what it leaves. -/
theorem fails_at_stop {P : Prop} {stops : List Catalog} (h : m.answer = .error fault)
    (hstop : t ∈ stops) (hfails : t.survey disk = .error fault) :
    (m.answer = .ok true ↔ ∀ stop ∈ stops, ∃ index, stop.survey disk = .ok index) ∧
      (m.answer = .ok true → P) := by
  have hno : m.answer ≠ .ok true := by
    rw [h]
    intro heq
    cases heq
  refine ⟨⟨fun hok => absurd hok hno, fun hall => ?_⟩, fun hok => absurd hok hno⟩
  obtain ⟨index, hindex⟩ := hall t hstop
  rw [hfails] at hindex
  cases hindex

/-- With a fresh index, a row of turns goes through exactly if a scan would at each stop, and it
leaves the index of a scan at the last stop. -/
theorem meetAll_turns {requests : List Request} (hturns : ∀ request ∈ requests, IsTurn request)
    (hk : t.Keeps c) (hfresh : c.IsFresh disk) :
    ((meetAll disk c requests).answer = .ok true ↔
        ∀ stop ∈ requests.scanl facing t, ∃ index, stop.survey disk = .ok index) ∧
      ((meetAll disk c requests).answer = .ok true →
        (requests.foldl facing t).Keeps (meetAll disk c requests).catalog ∧
          (meetAll disk c requests).catalog.IsFresh disk) := by
  have ht : t.survey disk = .ok c.index := (hk.survey disk).symm.trans hfresh
  induction requests generalizing t c with
  | nil => simp [meetAll, hk, hfresh, ht]
  | cons request rest ih =>
      have hrest : ∀ other ∈ rest, IsTurn other := fun other ho =>
        hturns other (List.mem_cons_of_mem _ ho)
      have hend := hfresh.endsWith_turn (hturns request List.mem_cons_self)
      have hsame : (c.facing request).survey disk = (t.facing request).survey disk :=
        (hk.facing request).survey disk
      rw [List.scanl_cons, List.foldl_cons]
      rcases hend.fresh_or_fails with ⟨hanswer, -, hkeeps, hnext⟩ | ⟨fault, hanswer, hfails⟩
      · obtain ⟨hsameAnswer, hsameCatalog⟩ := meetAll_cons_of_ok hanswer rest
        have hfaces := (hk.facing request).trans hkeeps
        have hlater := ih hrest hfaces hnext ((hfaces.survey disk).symm.trans hnext)
        rw [hsameAnswer, hsameCatalog]
        refine ⟨?_, hlater.2⟩
        rw [hlater.1, List.forall_mem_cons]
        exact ⟨fun h => ⟨⟨_, ht⟩, h⟩, fun h => h.2⟩
      · have hno := meetAll_cons_of_error hanswer rest
        have hstop : t.facing request ∈ t :: rest.scanl facing (t.facing request) := by
          apply List.mem_cons_of_mem
          cases rest <;> simp
        exact fails_at_stop hno hstop (hsame.symm.trans hfails)

/-- The same for turns behind a reload that gets its settings; the first stop is where it leads. -/
theorem meetAll_reload_turns {warnings flaws : List Warning} {requests : List Request}
    (hfile : c.hasFile = true)
    (hload : Settings.load disk c.workspace.settingsFile = .ok (settings, warnings))
    (hv : settings.vocabularyWithWarnings = .ok (vocabulary, flaws))
    (hturns : ∀ request ∈ requests, IsTurn request) :
    ((meetAll disk c (.reload :: requests)).answer = .ok true ↔
        ∀ stop ∈ requests.scanl facing (c.reloaded settings vocabulary),
          ∃ index, stop.survey disk = .ok index) ∧
      ((meetAll disk c (.reload :: requests)).answer = .ok true →
        (requests.foldl facing (c.reloaded settings vocabulary)).Keeps
            (meetAll disk c (.reload :: requests)).catalog ∧
          (meetAll disk c (.reload :: requests)).catalog.IsFresh disk) := by
  have hend := endsWith_reload hfile hload hv
  rcases hend.fresh_or_fails with ⟨hanswer, -, hkeeps, hfresh⟩ | ⟨fault, hanswer, hfails⟩
  · obtain ⟨hsameAnswer, hsameCatalog⟩ := meetAll_cons_of_ok hanswer requests
    rw [hsameAnswer, hsameCatalog]
    exact meetAll_turns hturns hkeeps hfresh
  · have hno := meetAll_cons_of_error hanswer requests
    have hstop : c.reloaded settings vocabulary ∈
        requests.scanl facing (c.reloaded settings vocabulary) := by
      cases requests <;> simp
    exact fails_at_stop hno hstop hfails

/-- A scan that is asked for goes through exactly if its survey does, and leaves that. -/
theorem endsWith_rescan (c : Catalog) (disk : Disk) :
    c.EndsWith (c.survey disk) (c.meet disk .rescan) := endsWith_beginScan c disk 2

/-- A request is met well just if its scan is. -/
theorem EndsWith.answer_iff {result : Except Fault Index} (h : c.EndsWith result m) :
    m.answer = .ok true ↔ ∃ index, result = .ok index := by
  rw [h.answer]
  cases result <;> simp [Except.map]

/-- What is found in a file depends on its content alone. -/
theorem examine_congr {path : Text} {found more : Option (List Note)}
    (hsame : c.workspace.content? other path = c.workspace.content? disk path)
    (h : (examine c.vocabulary path (c.workspace.read disk path)).1 = .ok found)
    (ho : (examine c.vocabulary path (c.workspace.read other path)).1 = .ok more) :
    more = found := by
  have hread : ∀ {text : Text}, c.workspace.read other path = .ok text ↔
      c.workspace.read disk path = .ok text := Workspace.read_congr hsame
  cases found with
  | some notes =>
      obtain ⟨text, hr, -⟩ := examine_eq_some h
      rw [hread.2 hr] at ho
      rw [hr] at h
      exact Except.ok.inj (ho.symm.trans h)
  | none =>
      obtain ⟨fault, hr⟩ := examine_eq_none h
      cases more with
      | none => rfl
      | some notes =>
          obtain ⟨text, hro, -⟩ := examine_eq_some ho
          rw [hread.1 hro] at hr
          cases hr

/-- A scan of a document takes in what is found there. -/
theorem survey_of_document (hs : c.scope = .current) {path : Text} (ha : c.active = some path)
    (h : c.survey disk = .ok index) :
    ∃ notes?, (examine c.vocabulary path (c.workspace.read disk path)).1 = .ok notes? ∧
      index = .ofDocument path notes? := by
  simp only [survey, lookedInto, if_pos hs, Except.bind, decide_eq_true hs, ha, Option.toList] at h
  cases hex : (examine c.vocabulary path (c.workspace.read disk path)).1 with
  | error fault => simp [findings, gather, hex, bind, Except.bind, Except.map] at h
  | ok notes? =>
      have hg : gather (c.findings disk c.vocabulary [path]) = .ok [(path, notes?)] :=
        gather_eq_ok.2 (by simpa [findings] using hex)
      rw [hg] at h
      cases h
      exact ⟨notes?, rfl, Index.ofEntries_document⟩

/-- In the current scope, what a scan takes in depends on the content of the active document
alone. -/
theorem survey_of_content (hs : c.scope = .current)
    (hsame : ∀ path, c.active = some path →
      c.workspace.content? other path = c.workspace.content? disk path)
    {more : Index} (h : c.survey disk = .ok index) (ho : c.survey other = .ok more) :
    more = index := by
  cases ha : c.active with
  | none =>
      simp only [survey, lookedInto, if_pos hs, ha, Option.toList_none, Except.bind, findings,
        List.map_nil] at h ho
      exact Except.ok.inj (ho.symm.trans h)
  | some path =>
      obtain ⟨notes?, hex, rfl⟩ := survey_of_document hs ha h
      obtain ⟨others?, hexOther, rfl⟩ := survey_of_document hs ha ho
      rw [examine_congr (hsame path ha) hex hexOther]

end Catalog

namespace CommandLine

open Catalog (IsTurn facing survey)

variable {world : World} {root : Path} {c d : Catalog} {settings : Settings}

/-- A document that is given on the command line, as it is passed on. -/
def documentPath (file : Text) : Text := (Path.ofText file).toText

/-- The path of a document is not empty. -/
theorem documentPath_ne_nil (file : Text) : documentPath file ≠ [] := by
  unfold documentPath Path.toText
  split
  · simp [Path.dot]
  · rename_i h
    cases horigin : (Path.ofText file).origin with
    | root => simp [Path.originText]
    | doubleRoot => simp [Path.originText]
    | relative =>
        rw [horigin] at h
        cases hparts : (Path.ofText file).parts with
        | nil => simp [hparts] at h
        | cons part rest =>
            have hm : part ∈ (Path.ofText file).parts := by simp [hparts]
            have hne : part ≠ [] := by
              have hkept := (List.mem_filter.1 hm).2
              simp at hkept
              exact hkept.1
            cases rest with
            | nil => simpa [Text.join, Path.originText] using hne
            | cons next rest => simp [Text.join, Path.originText, hne]

/-- A catalog for settings has their vocabulary and their exclusions. -/
theorem of_ofSettings {w : Workspace} {flaws : List Warning}
    (h : Catalog.ofSettings w settings = .ok (d, flaws)) :
    settings.vocabularyWithWarnings = .ok (d.vocabulary, flaws) ∧ d.settings = settings ∧
      d.workspace = w.configure settings.search ∧ d.active = none ∧ d.hasFile = true := by
  unfold Catalog.ofSettings at h
  cases hv : settings.vocabularyWithWarnings with
  | error fault => simp [hv] at h
  | ok result =>
      obtain ⟨vocabulary, warnings⟩ := result
      simp only [hv, Except.ok.injEq, Prod.mk.injEq] at h
      obtain ⟨rfl, rfl⟩ := h
      exact ⟨rfl, rfl, rfl, rfl, rfl⟩

/-- A project is opened with a catalog for its folder and the settings that hold without a file. -/
theorem openCatalog_eq_ok : openCatalog world root = .ok c ↔
    ∃ warnings, Catalog.ofSettings (.ofRoot root {} [] world.settingsFile?) =
      .ok (c, warnings) := by
  unfold openCatalog
  extract_lets workspace
  show _ ↔ ∃ warnings, Catalog.ofSettings workspace = .ok (c, warnings)
  cases Catalog.ofSettings workspace with
  | error fault => simp
  | ok made =>
      obtain ⟨catalog, warnings⟩ := made
      simp

/-- The turns behind the reload: to a document, and to a scope. -/
def turns (scope? : Option Scope) (file? : Option Text) : List Request :=
  (file?.map fun file => .setActive (some file)).toList ++ (scope?.map .setScope).toList

/-- The turns of a preparation are about scope and document, and nothing else. -/
theorem isTurn_of_mem_turns (scope? : Option Scope) (file? : Option Text) :
    ∀ request ∈ turns scope? file?, IsTurn request := by
  intro request hrequest
  cases file? <;> cases scope? <;> simp [turns] at hrequest
  · subst hrequest
    trivial
  · subst hrequest
    trivial
  · rcases hrequest with rfl | rfl <;> trivial

/-- A document that is given becomes the active one. -/
theorem facing_document (t : Catalog) (file : Text) :
    facing t (.setActive (some (documentPath file))) =
      t.turnedTo t.scope (some (t.workspace.normalize (documentPath file))) := by
  simp [facing, documentPath_ne_nil, Catalog.turnedTo, Settings.withScope, Catalog.scope,
    Settings.scope]

/-- A scope that is asked for comes into force. -/
theorem facing_scope (t : Catalog) (scope : Scope) :
    facing t (.setScope scope) = t.turnedTo scope t.active := rfl

/-- To ask for one scope and then for another is to ask for the other. -/
theorem facing_turnedTo (t : Catalog) (scope another : Scope) (active : Option Text) :
    facing (t.turnedTo scope active) (.setScope another) = t.turnedTo another active := rfl

/-- Where no document is active, nothing turns to itself. -/
theorem turnedTo_self {t : Catalog} (hactive : t.active = none) : t.turnedTo t.scope none = t := by
  rw [← hactive]
  rfl

/-- The stops of a preparation: no document is active at first, then the one that is given is, and
then the scope changes. -/
theorem forall_stops {t : Catalog} (hactive : t.active = none) (scope? : Option Scope)
    (file? : Option Text) (P : Catalog → Prop) :
    (∀ stop ∈ (turns scope? (file?.map documentPath)).scanl facing t, P stop) ↔
      P (t.turnedTo t.scope none) ∧
        P (t.turnedTo t.scope (file?.map fun file => t.workspace.normalize (documentPath file))) ∧
        P (t.turnedTo (scope?.getD t.scope)
          (file?.map fun file => t.workspace.normalize (documentPath file))) := by
  have hself := turnedTo_self hactive
  cases file? with
  | none =>
      cases scope? with
      | none => simp [turns, hself]
      | some scope => simp [turns, hself, facing_scope, hactive]
  | some file =>
      cases scope? with
      | none => simp [turns, hself, facing_document]
      | some scope => simp [turns, hself, facing_document, facing_turnedTo]

/-- The last stop is where everything is in force that was asked for. -/
theorem foldl_turns {t : Catalog} (hactive : t.active = none) (scope? : Option Scope)
    (file? : Option Text) :
    (turns scope? (file?.map documentPath)).foldl facing t =
      t.turnedTo (scope?.getD t.scope)
        (file?.map fun file => t.workspace.normalize (documentPath file)) := by
  have hself := turnedTo_self hactive
  cases file? with
  | none =>
      cases scope? with
      | none => simp [turns, hself]
      | some scope => simp [turns, facing_scope, hactive]
  | some file =>
      cases scope? with
      | none => simp [turns, facing_document]
      | some scope => simp [turns, facing_document, facing_turnedTo]

/-- What becomes of a preparation: it goes through exactly if the scans of its stops do, and leaves
what a scan of the last one takes in. -/
theorem meetAll_preparation (hfile : c.hasFile = true) (hactive : c.active = none) {disk : Disk}
    {warnings flaws : List Warning}
    (hload : Settings.load disk c.workspace.settingsFile = .ok (settings, warnings))
    (scope? : Option Scope) (file? : Option Text)
    (hd : Catalog.ofSettings c.workspace (settings.withScope (scope?.getD settings.scope)) =
      .ok (d, flaws)) :
    let active? := file?.map fun file => c.workspace.normalize (documentPath file)
    let prepared := Catalog.meetAll disk c (preparation scope? (file?.map documentPath))
    (prepared.answer = .ok true ↔
        (∃ index, (d.turnedTo settings.scope none).survey disk = .ok index) ∧
        (∃ index, (d.turnedTo settings.scope active?).survey disk = .ok index) ∧
        ∃ index, (d.showing active?).survey disk = .ok index) ∧
      (prepared.answer = .ok true →
        (d.showing active?).survey disk = .ok prepared.catalog.index) := by
  intro active? prepared
  obtain ⟨hv, hsettings, hworkspace, -, -⟩ := of_ofSettings hd
  -- A scope has no part in the vocabulary.
  have hv' : settings.vocabularyWithWarnings = .ok (d.vocabulary, flaws) := hv
  obtain ⟨hanswer, hleft⟩ :=
    Catalog.meetAll_reload_turns hfile hload hv'
      (isTurn_of_mem_turns scope? (file?.map documentPath))
  have hreloaded : (c.reloaded settings d.vocabulary).active = none := hactive
  rw [forall_stops hreloaded] at hanswer
  rw [foldl_turns hreloaded] at hleft
  -- The stops are those of the new catalog, which has the same vocabulary and exclusions.
  have hsame : ∀ scope active,
      ((c.reloaded settings d.vocabulary).turnedTo scope active).survey disk =
      (d.turnedTo scope active).survey disk := by
    intro scope active
    apply Catalog.survey_congr
    · rfl
    · rfl
    · exact hworkspace.symm
    · rfl
  have hlast : (d.turnedTo (scope?.getD settings.scope) active?).survey disk =
      (d.showing active?).survey disk := by
    have hscope : d.scope = scope?.getD settings.scope := by
      rw [Catalog.scope, hsettings]
      rfl
    apply Catalog.survey_congr
    · exact hscope.symm
    · rfl
    · rfl
    · rfl
  refine ⟨?_, fun hok => ?_⟩
  · rw [← hlast, ← hsame, ← hsame, ← hsame]
    exact hanswer
  · obtain ⟨hkeeps, hfresh⟩ := hleft hok
    rw [← hlast, ← hsame]
    exact (hkeeps.survey disk).symm.trans hfresh

/-- **A preparation is one scan.**  A preparation leaves the index of a single scan, with the
settings that are loaded, in the scope that is asked for or else that of the settings, and with the
document that is given as the active one.  It goes through exactly if that scan does and so do those
before it.  In the current scope, what it leaves depends on the settings file and the document
alone. -/
theorem preparation_is_one_scan (hopen : openCatalog world root = .ok c)
    {warnings flaws : List Warning}
    (hload : Settings.load world.disk c.workspace.settingsFile = .ok (settings, warnings))
    (scope? : Option Scope) (file? : Option Text)
    (hd : Catalog.ofSettings c.workspace (settings.withScope (scope?.getD settings.scope)) =
      .ok (d, flaws)) :
    let active? := file?.map fun file => c.workspace.normalize (documentPath file)
    let requests := preparation scope? (file?.map documentPath)
    let prepared := Catalog.meetAll world.disk c requests
    let alone := (d.showing active?).meet world.disk .rescan
    (prepared.answer = .ok true ↔
        ((d.turnedTo settings.scope none).meet world.disk .rescan).answer = .ok true ∧
        ((d.turnedTo settings.scope active?).meet world.disk .rescan).answer = .ok true ∧
        alone.answer = .ok true) ∧
      (prepared.answer = .ok true → prepared.catalog.index = alone.catalog.index) ∧
      (prepared.answer = .ok true → d.scope = .current → ∀ other : Disk,
        (other.read c.workspace.settingsFile).toOption =
          (world.disk.read c.workspace.settingsFile).toOption →
        (∀ path ∈ active?, c.workspace.content? other path = c.workspace.content? world.disk path) →
        (Catalog.meetAll other c requests).answer = .ok true →
        (Catalog.meetAll other c requests).catalog.index = prepared.catalog.index) := by
  intro active? requests prepared alone
  obtain ⟨made, hmade⟩ := openCatalog_eq_ok.1 hopen
  obtain ⟨-, -, -, hactive, hfile⟩ := of_ofSettings hmade
  obtain ⟨hanswer, hindex⟩ := meetAll_preparation hfile hactive hload scope? file? hd
  -- A scan goes through just if the disk can be surveyed.
  have hscans : ∀ t : Catalog, (t.meet world.disk .rescan).answer = .ok true ↔
      ∃ index, t.survey world.disk = .ok index := fun t =>
    (Catalog.endsWith_rescan t world.disk).answer_iff
  refine ⟨?_, fun hok => ?_, fun hok hs other hsettings hcontent hokOther => ?_⟩
  · rw [hscans, hscans, hscans]
    exact hanswer
  · have hend := Catalog.endsWith_rescan (d.showing active?) world.disk
    exact ((hend.catalog _ (hindex hok)).2).symm
  · obtain ⟨others, hloadOther⟩ := Settings.load_congr hsettings.symm hload
    have hindexOther := (meetAll_preparation hfile hactive hloadOther scope? file? hd).2 hokOther
    obtain ⟨-, -, hworkspace, -, -⟩ := of_ofSettings hd
    -- In the current scope the survey reads the active document only.
    have hcontents : ∀ path, (d.showing active?).active = some path →
        (d.showing active?).workspace.content? other path =
          (d.showing active?).workspace.content? world.disk path := by
      intro path hpath
      have hw : (d.showing active?).workspace = c.workspace.configure _ := hworkspace
      rw [hw]
      exact hcontent path hpath
    exact Catalog.survey_of_content (c := d.showing active?) hs hcontents (hindex hok) hindexOther

/-! ## A document of a small project -/

/-- Settings for the scope of a document. -/
def documentSettings : Text := "\x7b\"search\": \x7b\"scope\": \"current\"\x7d\x7d"

/-- A folder with such settings and with a note in one file, besides another file. -/
def documentDisk (another : Text) : Disk where
  items := [(["p"], .folder), (["p", ".todo"], .file (Utf8.encode documentSettings)),
    (["p", "a.py"], .file (Utf8.encode "# TODO: a\n")),
    (["p", "b.py"], .file (Utf8.encode another))]

/-- That document is shown there. -/
def showDocument (another : Text) : Catalog.Meeting :=
  Catalog.meetAll (documentDisk another) Catalog.opened
    (preparation none (some (documentPath "a.py")))

/-- What comes of what is used below. -/
theorem documentDisk_runs :
    ((Settings.load (documentDisk "# TODO: b\n")
        Catalog.opened.workspace.settingsFile).toOption.bind fun loaded =>
          (Catalog.ofSettings Catalog.opened.workspace
            (loaded.1.withScope loaded.1.scope)).toOption.map fun made => made.1.scope) =
      some .current ∧
    (showDocument "# TODO: b\n").answer.toOption = some true ∧
      (showDocument []).answer.toOption = some true ∧
      (showDocument "# TODO: b\n").catalog.index.paths = (["/p/a.py"] : List Text) ∧
      ((documentDisk []).read Catalog.opened.workspace.settingsFile).toOption =
        ((documentDisk "# TODO: b\n").read Catalog.opened.workspace.settingsFile).toOption ∧
      Catalog.opened.workspace.content? (documentDisk [])
          (Catalog.opened.workspace.normalize (documentPath "a.py")) =
        Catalog.opened.workspace.content? (documentDisk "# TODO: b\n")
          (Catalog.opened.workspace.normalize (documentPath "a.py")) := by
  decide +kernel

/-- A document that is shown alone, with a scope of its own. -/
theorem preparation_is_one_scan_document :
    ∃ settings warnings d flaws,
      Settings.load (documentDisk "# TODO: b\n") Catalog.opened.workspace.settingsFile =
        .ok (settings, warnings) ∧
      Catalog.ofSettings Catalog.opened.workspace (settings.withScope settings.scope) =
        .ok (d, flaws) ∧
      (showDocument "# TODO: b\n").catalog.index.paths = (["/p/a.py"] : List Text) ∧
      (showDocument "# TODO: b\n").catalog.index =
        ((d.showing (some (Catalog.opened.workspace.normalize (documentPath "a.py")))).meet
          (documentDisk "# TODO: b\n") .rescan).catalog.index ∧
      (showDocument []).catalog.index = (showDocument "# TODO: b\n").catalog.index := by
  obtain ⟨hsome, hshown, hshownOther, hpaths, hread, hcontent⟩ := documentDisk_runs
  obtain ⟨⟨settings, warnings⟩, hload, hrest⟩ := Option.bind_eq_some_iff.1 hsome
  obtain ⟨⟨d, flaws⟩, hd, hscope⟩ := Option.map_eq_some_iff.1 hrest
  have hload := Catalog.eq_ok_of_toOption hload
  have hd := Catalog.eq_ok_of_toOption hd
  have hopen : openCatalog { disk := documentDisk "# TODO: b\n", folder := Path.ofText "/" }
      (Path.ofText "/p") = .ok Catalog.opened := by
    obtain ⟨warnings, hc⟩ := Catalog.ofSettings_project
    exact openCatalog_eq_ok.2 ⟨warnings, hc⟩
  obtain ⟨-, hscan, hcurrent⟩ := preparation_is_one_scan hopen hload none (some "a.py") hd
  have hok := Catalog.eq_ok_of_toOption hshown
  have hokOther := Catalog.eq_ok_of_toOption hshownOther
  simp only [showDocument] at hok hokOther hpaths ⊢
  simp only [Option.map_some] at hscan hcurrent
  refine ⟨settings, warnings, d, flaws, hload, hd, hpaths, hscan hok, ?_⟩
  refine hcurrent hok hscope (documentDisk []) hread ?_ hokOther
  intro path hpath
  obtain rfl := Option.some.inj hpath
  exact hcontent

end CommandLine

end Marginalia
