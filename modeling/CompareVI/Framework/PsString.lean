import Mathlib.Data.List.Basic
import Mathlib.Tactic.Common

/-!
# .NET strings

The part of the .NET string library that the PowerShell sources rely on: `Trim`,
`IsNullOrWhiteSpace`, `ToLowerInvariant` and the comparison `OrdinalIgnoreCase`. Case
is that of the ASCII letters: under the invariant rules no other character has an
ASCII letter as its other case, so nothing else matters where one side is ASCII.
-/

namespace Framework

namespace PsString

def whiteSpaceChars : List Char :=
  [' ', '\t', '\n', '\u000b', '\u000c', '\r', '\u0085', '\u00a0', '\u1680', '\u2028', '\u2029',
    '\u202f', '\u205f', '\u3000']

def isWhiteSpace (c : Char) : Bool :=
  whiteSpaceChars.contains c || ('\u2000' ≤ c && c ≤ '\u200a')

/-- `Trim` on the characters of a string. -/
def trimList (cs : List Char) : List Char :=
  ((cs.dropWhile isWhiteSpace).reverse.dropWhile isWhiteSpace).reverse

def trim (s : String) : String := String.ofList (trimList s.toList)

def isNullOrWhiteSpace (s : Option String) : Bool := s.all fun s => s.toList.all isWhiteSpace

def toLowerInvariant (s : String) : String := String.ofList (s.toList.map Char.toLower)

/-- `String.Equals` with `OrdinalIgnoreCase`. -/
def equalsIgnoreCase (a b : String) : Bool := toLowerInvariant a = toLowerInvariant b

theorem equalsIgnoreCase_iff {a b : String} :
    equalsIgnoreCase a b = true ↔ toLowerInvariant a = toLowerInvariant b :=
  decide_eq_true_iff

theorem trim_of_forall {s : String} (h : ∀ c ∈ s.toList, isWhiteSpace c = false) :
    trim s = s := by
  have hdrop : ∀ cs : List Char, (∀ c ∈ cs, isWhiteSpace c = false) →
      cs.dropWhile isWhiteSpace = cs := by
    intro cs hcs
    cases cs with
    | nil => rfl
    | cons c cs => rw [List.dropWhile_cons, hcs c List.mem_cons_self]; rfl
  have hrev : ∀ c ∈ s.toList.reverse, isWhiteSpace c = false := fun c hc =>
    h c (List.mem_reverse.mp hc)
  rw [trim, trimList, hdrop _ h, hdrop _ hrev, List.reverse_reverse, String.ofList_toList]

end PsString

end Framework
