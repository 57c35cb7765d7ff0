import Marginalia.Text
import Marginalia.Unicode.Word
import Marginalia.Unicode.Digit

/-!
# Tests of one code point

A pattern looks at its subject one code point at a time.  `Symbols` is such a test: any code
point, a letter up to case, or a set of letters, ranges and categories.  `Symbols.accepts` is
what it means.

Case is compared by a `CaseRule`.  Comparing exactly is one rule; the other two compare lower
case forms, in ASCII alone or in all of Unicode, where a letter also stands for its siblings:
the two small sigmas, the sharp and the long s, the dotless i.  `literal` and `ofSet` choose the
cheapest rule that gives the same test: a letter without case needs no folding, and neither does
a set without cased members.
-/

namespace Marginalia

/-- How the case of letters counts. -/
inductive CaseRule where
  /-- Letters of different case differ. -/
  | exact
  /-- ASCII letters are equal up to case. -/
  | ascii
  /-- Letters are equal up to case and sibling. -/
  | unicode
deriving DecidableEq, Inhabited

namespace CaseRule

/-- The form under which a code point is compared. -/
def lower : CaseRule → Nat → Nat
  | exact => id
  | ascii => Unicode.lowerAscii
  | unicode => Unicode.lower

/-- Whether case matters for a code point under this rule. -/
def isCased : CaseRule → Nat → Bool
  | exact, _ => false
  | ascii, code => Unicode.isAsciiLetter code
  | unicode, code => Unicode.isCased code

/-- Whether a run of code points mapped to another case has a member between two bounds. -/
def runMeets (first last : Nat) : Unicode.CaseRun → Bool
  | (start, stop, step, _) =>
    let member := if first ≤ start then start else start + (first - start + step - 1) / step * step
    member ≤ stop && member ≤ last

/-- Whether a range holds a code point for which case matters. -/
def isCasedRange : CaseRule → (first last : Nat) → Bool
  | exact, _, _ => false
  | ascii, first, last =>
      runMeets first last (65, 90, 1, 97) || runMeets first last (97, 122, 1, 97)
  | unicode, first, last =>
    Unicode.lowerRuns.any (runMeets first last) || Unicode.upperRuns.any (runMeets first last)

/-- The other forms that a compared form stands for. -/
def siblings : CaseRule → Nat → List Nat
  | unicode, code => Unicode.caseSiblings code
  | _, _ => []

/-- The code points that a compared form stands for. -/
def variants : CaseRule → Nat → List Nat
  | exact, code => [code]
  | ascii, code =>
    if 97 ≤ code && code ≤ 122 then [code, code - 32]
    else if 65 ≤ code && code ≤ 90 then []
    else [code]
  | unicode, code => Unicode.caseVariants code

end CaseRule

/-- The classes of code points that have an escape of their own. -/
inductive Category where
  | digit | blank | word
deriving DecidableEq

namespace Category

/-- The members of a category within ASCII. -/
def holdsAscii : Category → Nat → Bool
  | digit, code => 48 ≤ code && code ≤ 57
  | blank, code => code == 32 || (9 ≤ code && code ≤ 13)
  | word, code => (48 ≤ code && code ≤ 57) || Unicode.isAsciiLetter code || code == 95

/-- The members of a category, of all scripts or of ASCII. -/
def holds (asciiOnly : Bool) (category : Category) (code : Nat) : Bool :=
  if asciiOnly then category.holdsAscii code
  else match category with
    | digit => Unicode.isDigit code
    | blank => Unicode.isBlank code
    | word => Unicode.isWord code

end Category

/-- A member of a set of code points. -/
inductive SetItem where
  /-- A single code point. -/
  | one (code : Nat)
  /-- All code points between two bounds, both included. -/
  | range (first last : Nat)
  /-- A category, or all that is outside it. -/
  | category (kind : Category) (negated : Bool)
deriving DecidableEq

namespace SetItem

/-- The code points up to here are compared form by form; beyond, a range is compared as it
stands and in upper case. -/
def basicPlane : Nat := 0xFFFF

/-- Whether folding case can change what a member stands for. -/
def needsFolding (rule : CaseRule) : SetItem → Bool
  | one code => rule != .exact && (rule.isCased code || basicPlane < code)
  | range first last => rule != .exact && (rule.isCasedRange first last || basicPlane < last)
  | category .. => false

/-- Whether a compared form belongs to a member. -/
def holds (rule : CaseRule) (asciiOnly : Bool) (form : Nat) : SetItem → Bool
  | one code => if basicPlane < code then form == code else (rule.variants form).contains code
  | range first last =>
    (rule.variants form).any (fun code => first ≤ code && code ≤ last && code ≤ basicPlane) ||
      (basicPlane < last && ((first ≤ form && form ≤ last) ||
        (rule != .exact && first ≤ Unicode.upper form && Unicode.upper form ≤ last)))
  | category kind negated => kind.holds asciiOnly form != negated

end SetItem

/-- A test of one code point. -/
inductive Symbols where
  /-- Every code point. -/
  | any
  /-- Every code point but a line feed. -/
  | notNewline
  /-- The code points whose compared form is listed, or all others. -/
  | oneOf (rule : CaseRule) (forms : List Nat) (negated : Bool)
  /-- The code points whose compared form belongs to a member, or all others. -/
  | set (rule : CaseRule) (asciiOnly : Bool) (items : List SetItem) (negated : Bool)
deriving DecidableEq

namespace Symbols

/-- The test for one letter, or for all others. -/
def literal (rule : CaseRule) (code : Nat) (negated : Bool) : Symbols :=
  if rule.isCased code then
    oneOf rule (rule.lower code :: rule.siblings (rule.lower code)) negated
  else oneOf .exact [code] negated

/-- The test for a set of code points, or for all others. -/
def ofSet (rule : CaseRule) (asciiOnly : Bool) (items : List SetItem) (negated : Bool) : Symbols :=
  match items.eraseDups with
  | [.one code] => literal rule code negated
  | members =>
    set (if members.any (·.needsFolding rule) then rule else .exact) asciiOnly members negated

/-- Whether a code point passes the test. -/
def accepts : Symbols → Nat → Bool
  | any, _ => true
  | notNewline, code => code != 10
  | oneOf rule forms negated, code => forms.contains (rule.lower code) != negated
  | set rule asciiOnly items negated, code =>
    items.any (·.holds rule asciiOnly (rule.lower code)) != negated

/-- Compared exactly, a letter passes the test for itself alone. -/
theorem accepts_literal_exact (code other : Nat) :
    (literal .exact code false).accepts other = (other == code) := by
  simp only [literal, CaseRule.isCased, Bool.false_eq_true, if_false, accepts, CaseRule.lower, id]
  by_cases h : other = code <;> simp [h]

end Symbols

end Marginalia
