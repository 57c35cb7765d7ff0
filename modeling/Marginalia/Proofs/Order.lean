import Mathlib.Data.List.Induction
import Marginalia.Text

/-!
# Strict orders

A list in strict order is told by its members (`eq_of_strict`).  Sorting things that differ puts
them in strict order, so what is sorted depends on the members alone; and so does a set of texts
that is kept as a sorted list (`Text.sortedSet_congr`).
-/

namespace Marginalia

section Orders

variable {α : Type} {le : α → α → Bool}

/-- Sorting things that differ leaves none before a smaller one. -/
theorem strict_mergeSort (htrans : ∀ a b c, le a b = true → le b c = true → le a c = true)
    (htotal : ∀ a b, (le a b || le b a) = true)
    (hanti : ∀ a b, le a b = true → le b a = true → a = b) {items : List α} (h : items.Nodup) :
    (items.mergeSort le).Pairwise fun a b => le b a = false := by
  have hsorted := List.pairwise_mergeSort htrans htotal items
  have hnodup := (List.mergeSort_perm items le).nodup_iff.2 h
  refine (hsorted.and hnodup).imp fun {a b} hab => ?_
  obtain ⟨hle, hne⟩ := hab
  refine Bool.eq_false_iff.2 fun hge => hne (hanti a b hle hge)

/-- In a strict order nothing comes twice. -/
theorem nodup_of_strict (htotal : ∀ a b, (le a b || le b a) = true) {items : List α}
    (h : items.Pairwise fun a b => le b a = false) : items.Nodup := by
  refine h.imp fun {a b} hab he => ?_
  obtain rfl := he
  simpa [hab] using htotal a a

/-- **Things come in one strict order only.** -/
theorem eq_of_strict (htotal : ∀ a b, (le a b || le b a) = true) {items others : List α}
    (h : items.Pairwise fun a b => le b a = false)
    (ho : others.Pairwise fun a b => le b a = false) (hm : ∀ a, a ∈ items ↔ a ∈ others) :
    items = others := by
  have hperm : items.Perm others :=
    (List.perm_ext_iff_of_nodup (nodup_of_strict htotal h) (nodup_of_strict htotal ho)).2 hm
  refine hperm.eq_of_pairwise (fun a b _ _ hab hba => ?_) h ho
  simpa [hab, hba] using htotal a b

end Orders

namespace Text

/-- A text at the end of a list is kept unless it came before. -/
theorem eraseDups_append_singleton (texts : List Text) (text : Text) :
    (texts ++ [text]).eraseDups =
      if text ∈ texts then texts.eraseDups else texts.eraseDups ++ [text] := by
  rw [List.eraseDups_append]
  by_cases h : text ∈ texts
  · simp [List.removeAll, h]
  · simp [List.removeAll, h, List.eraseDups_cons]

/-- What comes several times in a list is kept once. -/
theorem nodup_eraseDups (texts : List Text) : texts.eraseDups.Nodup := by
  induction texts using List.reverseRecOn with
  | nil => exact List.nodup_nil
  | append_singleton texts last ih =>
      rw [eraseDups_append_singleton]
      split
      · exact ih
      · rename_i h
        refine List.nodup_append.2 ⟨ih, by simp, fun one hone two htwo heq => h ?_⟩
        obtain rfl := List.mem_singleton.1 htwo
        exact heq ▸ List.mem_eraseDups.1 hone

/-- The members of a sorted set are those of the list. -/
theorem mem_sortedSet {texts : List Text} {text : Text} :
    text ∈ sortedSet texts ↔ text ∈ texts := by
  simp [sortedSet, sort, List.mem_mergeSort, List.mem_eraseDups]

/-- Texts that differ are in strict order when they are sorted. -/
theorem strict_sort {texts : List Text} (h : texts.Nodup) :
    (texts.mergeSort le).Pairwise fun a b => le b a = false := by
  have htrans : ∀ a b c, le a b = true → le b c = true → le a c = true := fun _ _ _ => le_trans
  have hanti : ∀ a b, le a b = true → le b a = true → a = b := fun _ _ => le_antisymm
  exact strict_mergeSort htrans le_total hanti h

/-- A sorted set is in strict order. -/
theorem strict_sortedSet (texts : List Text) :
    (sortedSet texts).Pairwise fun a b => le b a = false :=
  strict_sort (nodup_eraseDups texts)

/-- A sorted set holds each member once. -/
theorem nodup_sortedSet (texts : List Text) : (sortedSet texts).Nodup :=
  nodup_of_strict le_total (strict_sortedSet texts)

/-- **A sorted set is told by its members.** -/
theorem sortedSet_congr {texts others : List Text} (h : ∀ text, text ∈ texts ↔ text ∈ others) :
    sortedSet texts = sortedSet others := by
  refine eq_of_strict le_total (strict_sortedSet texts) (strict_sortedSet others) fun text => ?_
  rw [mem_sortedSet, mem_sortedSet, h]

end Text

end Marginalia
