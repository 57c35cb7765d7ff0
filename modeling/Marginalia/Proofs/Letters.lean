import Mathlib.Data.List.Chain
import Marginalia.Pattern.Symbols

/-!
# Letters up to case

Under a rule a letter of a pattern stands for the letters that are the same up to case
(`CaseRule.Same`): those with the same lower case form, or with a lower case form that shares its
upper case form.  The test that is compiled for a letter looks at this only where case matters for
the letter itself.  That makes no difference (`Symbols.accepts_literal`), because the lower case
forms of other code points, and their siblings, all are letters for which case matters.
-/

namespace Marginalia

namespace Unicode

variable {runs : List CaseRun} {code : Nat}

/-- A run comes before another. -/
def precedes (run other : CaseRun) : Bool := run.1 < other.1 && run.2.1 < other.1

instance : Trans (precedes · · = true) (precedes · · = true) (precedes · · = true) where
  trans h k := by
    simp only [precedes, Bool.and_eq_true, decide_eq_true_eq] at *
    omega

/-- Whether a run maps a code point to another. -/
def moves : CaseRun → Nat → Bool
  | (first, last, step, image), code =>
    first ≤ code && code ≤ last && (code - first) % step == 0 && first != image

/-- The code points that a run maps. -/
def runMembers : CaseRun → List Nat
  | (first, last, step, _) => (List.range ((last - first) / step + 1)).map (first + · * step)

/-- A code point is left alone or mapped by a run. -/
theorem shiftBy_cases (runs : List CaseRun) (code : Nat) :
    shiftBy runs code = code ∨
      ∃ first last step image, (first, last, step, image) ∈ runs ∧ first ≤ code ∧ code ≤ last ∧
        (code - first) % step = 0 ∧ shiftBy runs code = code - first + image := by
  induction runs with
  | nil => exact .inl rfl
  | cons run runs ih =>
      obtain ⟨first, last, step, image⟩ := run
      unfold shiftBy
      split
      · exact .inl rfl
      · split
        · rename_i hfirst hmember
          obtain ⟨hlast, hstep⟩ : code ≤ last ∧ (code - first) % step = 0 := by
            simpa using hmember
          exact .inr ⟨first, last, step, image, List.mem_cons_self, Nat.not_lt.1 hfirst, hlast,
            hstep, rfl⟩
        · refine ih.imp_right ?_
          rintro ⟨first, last, step, image, hrun, h⟩
          exact ⟨first, last, step, image, List.mem_cons_of_mem _ hrun, h⟩

/-- Where runs ascend, a code point that one of them maps to another is not left alone. -/
theorem shiftBy_ne_of_moves (hruns : runs.Pairwise (precedes · · = true)) {run : CaseRun}
    (hrun : run ∈ runs) (h : moves run code = true) : shiftBy runs code ≠ code := by
  induction runs with
  | nil => cases hrun
  | cons head runs ih =>
      obtain ⟨hhead, htail⟩ := List.pairwise_cons.1 hruns
      obtain ⟨first, last, step, image⟩ := head
      unfold shiftBy
      rcases List.mem_cons.1 hrun with rfl | hrun
      · simp only [moves, Bool.and_eq_true, decide_eq_true_eq, beq_iff_eq, bne_iff_ne] at h
        obtain ⟨⟨⟨hfirst, hlast⟩, hstep⟩, hne⟩ := h
        rw [if_neg (Nat.not_lt.2 hfirst), if_pos (by simp [hlast, hstep])]
        omega
      · have hbefore := hhead run hrun
        simp only [precedes, Bool.and_eq_true, decide_eq_true_eq] at hbefore
        have hfirst : run.1 ≤ code := by
          simp only [moves, Bool.and_eq_true, decide_eq_true_eq] at h
          exact h.1.1.1
        rw [if_neg (by omega), if_neg (by simp; omega)]
        exact ih htail hrun

/-- The runs ascend, so that at most one of them holds a letter. -/
theorem upperRuns_ascend : upperRuns.Pairwise (precedes · · = true) :=
  List.isChain_iff_pairwise.1 (by decide +kernel)

/-- Case matters for a code point that has another upper case form. -/
theorem isCased_of_moves {run : CaseRun} (hrun : run ∈ upperRuns) (h : moves run code = true) :
    isCased code = true := by
  have hne := shiftBy_ne_of_moves upperRuns_ascend hrun h
  simpa [isCased, upper] using .inr hne.symm

/-- A run maps what lies between two code points that it maps, in steps that are its own. -/
theorem moves_between {run : CaseRun} {first last step : Nat} (hfirst : moves run first = true)
    (hlast : moves run last = true) (hle : first ≤ code) (hge : code ≤ last)
    (hstep : (code - first) % step = 0) (hown : step % run.2.2.1 = 0) : moves run code = true := by
  obtain ⟨start, stop, own, image⟩ := run
  simp only [moves, Bool.and_eq_true, decide_eq_true_eq, beq_iff_eq, bne_iff_ne] at *
  refine ⟨⟨⟨by omega, by omega⟩, ?_⟩, hfirst.2⟩
  have hsplit : code - start = (code - first) + (first - start) := by omega
  have hdvd := Nat.dvd_trans (Nat.dvd_of_mod_eq_zero hown) (Nat.dvd_of_mod_eq_zero hstep)
  rw [hsplit]
  exact Nat.mod_eq_zero_of_dvd (Nat.dvd_add hdvd (Nat.dvd_of_mod_eq_zero hfirst.1.2))

/-- The first run that does not end before a code point. -/
def runAt? (runs : List CaseRun) (code : Nat) : Option CaseRun :=
  runs.find? fun run => code.ble run.2.1

/-- Each run of lower case forms lies within a run of upper case forms, except for a few, whose
members are looked up one by one. -/
theorem lowerRuns_return : (lowerRuns.all fun run =>
    (runAt? upperRuns run.2.2.2).any (fun back => moves back run.2.2.2 &&
      moves back (run.2.1 - run.1 + run.2.2.2) && run.2.2.1 % back.2.2.1 == 0) ||
    (runMembers run).all fun code => isCased (lower code)) = true := by
  decide +kernel

/-- Case matters for the lower case form of another code point. -/
theorem isCased_lower (h : lower code ≠ code) : isCased (lower code) = true := by
  obtain ⟨first, last, step, image, hrun, hfirst, hlast, hstep, hlower⟩ :=
    (shiftBy_cases lowerRuns code).resolve_left h
  have hreturn := List.all_eq_true.1 lowerRuns_return _ hrun
  rcases Bool.or_eq_true_iff.1 hreturn with hany | hall
  · obtain ⟨back, hback, hmoves⟩ := (Option.any_eq_true _ _).1 hany
    have hback := List.mem_of_find?_eq_some hback
    simp only [Bool.and_eq_true, beq_iff_eq] at hmoves
    rw [lower, hlower]
    have hsteps : (code - first + image - image) % step = 0 := by rwa [Nat.add_sub_cancel]
    exact isCased_of_moves hback (moves_between hmoves.1.1 hmoves.1.2 (Nat.le_add_left _ _)
      (by omega) hsteps hmoves.2)
  · refine List.all_eq_true.1 hall code (List.mem_map.2 ⟨(code - first) / step, ?_, ?_⟩)
    · exact List.mem_range.2 (Nat.lt_succ_of_le (Nat.div_le_div_right (by omega)))
    · rw [Nat.div_mul_cancel (Nat.dvd_of_mod_eq_zero hstep)]
      omega

/-- All forms in one entry of the table have the upper case of that entry among theirs. -/
theorem siblingTable_returns : (siblingTable.all fun entry =>
    (entry.1 :: entry.2).all fun code => (runAt? upperRuns code).any (moves · code)) = true := by
  decide +kernel

/-- Case matters for siblings. -/
theorem isCased_of_mem_caseSiblings {sibling : Nat} (h : sibling ∈ caseSiblings code) :
    isCased code = true ∧ isCased sibling = true := by
  unfold caseSiblings at h
  cases hl : siblingTable.lookup code with
  | none => simp [hl] at h
  | some siblings =>
      rw [hl, Option.getD_some] at h
      have hentry : (code, siblings) ∈ siblingTable := by
        obtain ⟨before, after, hsplit, -⟩ := List.lookup_eq_some_iff.1 hl
        rw [hsplit]
        simp
      have hreturns := List.all_eq_true.1 (List.all_eq_true.1 siblingTable_returns _ hentry)
      have hcased : ∀ member ∈ code :: siblings, isCased member = true := fun member hm => by
        obtain ⟨run, hrun, hmoves⟩ := (Option.any_eq_true _ _).1 (hreturns member hm)
        exact isCased_of_moves (List.mem_of_find?_eq_some hrun) hmoves
      exact ⟨hcased code List.mem_cons_self, hcased sibling (List.mem_cons_of_mem _ h)⟩

end Unicode

namespace CaseRule

variable {rule : CaseRule} {code other : Nat}

/-- Two code points are the same letter up to case. -/
def Same (rule : CaseRule) (code other : Nat) : Prop :=
  rule.lower code = rule.lower other ∨ rule.lower code ∈ rule.siblings (rule.lower other)

@[simp] theorem same_refl : rule.Same code code := .inl rfl

@[simp] theorem same_exact : exact.Same code other ↔ code = other := by
  simp [Same, lower, siblings]

/-- A code point for which case does not matter is its own lower case form. -/
theorem lower_of_not_isCased (h : rule.isCased code = false) : rule.lower code = code := by
  cases rule with
  | exact => rfl
  | ascii =>
      simp only [isCased, Unicode.isAsciiLetter] at h
      simp_all [lower, Unicode.lowerAscii]
  | unicode =>
      simp only [isCased, Unicode.isCased, Bool.or_eq_false_iff, bne_eq_false_iff_eq] at h
      exact h.1.symm

/-- Case matters for the lower case form of another code point. -/
theorem isCased_lower (h : rule.lower code ≠ code) : rule.isCased (rule.lower code) = true := by
  cases rule with
  | exact => exact absurd rfl h
  | ascii =>
      simp only [lower, Unicode.lowerAscii] at h ⊢
      split at h
      · simp_all [isCased, Unicode.isAsciiLetter]
      · exact absurd rfl h
  | unicode => exact Unicode.isCased_lower h

/-- A code point for which case does not matter is the lower case form of itself alone. -/
theorem eq_of_not_isCased_lower (h : rule.isCased (rule.lower code) = false) :
    rule.lower code = code :=
  Decidable.byContradiction fun hne => by simp [isCased_lower hne] at h

/-- Case matters for siblings. -/
theorem isCased_of_mem_siblings (h : other ∈ rule.siblings code) :
    rule.isCased code = true ∧ rule.isCased other = true := by
  cases rule with
  | exact => simp [siblings] at h
  | ascii => simp [siblings] at h
  | unicode => exact Unicode.isCased_of_mem_caseSiblings h

/-- A code point for which case does not matter is the same letter as itself alone. -/
theorem Same.eq_of_not_isCased (h : rule.Same code other)
    (hcased : rule.isCased code = false ∨ rule.isCased other = false) : code = other := by
  rcases h with h | h
  · rcases hcased with hcode | hother
    · have hown := lower_of_not_isCased hcode
      rw [hown] at h
      exact h.trans (eq_of_not_isCased_lower (h ▸ hcode))
    · have hown := lower_of_not_isCased hother
      rw [hown] at h
      exact (eq_of_not_isCased_lower (h.symm ▸ hother)).symm.trans h
  · obtain ⟨hsecond, hfirst⟩ := isCased_of_mem_siblings h
    rcases hcased with hcode | hother
    · rw [lower_of_not_isCased hcode, hcode] at hfirst
      cases hfirst
    · rw [lower_of_not_isCased hother, hother] at hsecond
      cases hsecond

end CaseRule

/-- **A letter and its likes.**  The test for a letter is passed by the letters that are the same up
to case. -/
theorem Symbols.accepts_literal (rule : CaseRule) (code other : Nat) :
    (literal rule other false).accepts code = true ↔ rule.Same code other := by
  unfold literal
  split
  · simp [accepts, CaseRule.Same]
  · rename_i hcased
    have hnot : rule.isCased other = false := by simpa using hcased
    constructor
    · intro h
      obtain rfl : code = other := by simpa [accepts, CaseRule.lower] using h
      exact CaseRule.same_refl
    · intro h
      obtain rfl := h.eq_of_not_isCased (.inr hnot)
      simp [accepts, CaseRule.lower]

end Marginalia
