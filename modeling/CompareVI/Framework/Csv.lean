import Mathlib.Data.List.Basic
import Mathlib.Tactic.Common

/-!
# Tables as comma separated text

A cell is written as it is, if it holds none of the characters that the format uses
(`IsSpecial`), or in quotes with its quotes doubled. The cells of a row are separated by
commas. A row is ended by a line feed, a carriage return or both, which the last row may
lack.

A table has many such texts. They are given by a relation (`EncodesTable`), so that what is
proved of a reader holds for whatever writer the text comes from.

A reader that looks one character ahead needs to know what cannot come next: a quote ends
a cell only if no second one follows it (`EncodesRow.separated`), and a carriage return ends a
line on its own only if the next row does not begin with a line feed
(`EncodesRow.head_ne_lf`).
-/

namespace Framework
namespace Csv

/-- The characters that a cell holds only in quotes. -/
def IsSpecial (c : Char) : Prop := c = ',' ∨ c = '"' ∨ c = '\r' ∨ c = '\n'

instance : DecidablePred IsSpecial := fun c =>
  inferInstanceAs (Decidable (c = ',' ∨ c = '"' ∨ c = '\r' ∨ c = '\n'))

def escape : List Char → List Char
  | [] => []
  | c :: cs => if c = '"' then '"' :: '"' :: escape cs else c :: escape cs

inductive EncodesCell (cell : String) : List Char → Prop
  | plain (h : ∀ c ∈ cell.toList, ¬ IsSpecial c) : EncodesCell cell cell.toList
  | quoted : EncodesCell cell ('"' :: (escape cell.toList ++ ['"']))

inductive EncodesRow : List String → List Char → Prop
  | last {cell : String} {t : List Char} (h : EncodesCell cell t) : EncodesRow [cell] t
  | cons {cell : String} {row : List String} {t u : List Char} (h : EncodesCell cell t)
      (hrow : EncodesRow row u) : EncodesRow (cell :: row) (t ++ ',' :: u)

inductive LineEnd : List Char → Prop
  | lf : LineEnd ['\n']
  | cr : LineEnd ['\r']
  | crlf : LineEnd ['\r', '\n']

inductive EncodesTable : List (List String) → List Char → Prop
  | nil : EncodesTable [] []
  | last {row : List String} {t : List Char} (h : EncodesRow row t) : EncodesTable [row] t
  | cons {row : List String} {rows : List (List String)} {t e u : List Char}
      (h : EncodesRow row t) (he : LineEnd e) (hrows : EncodesTable rows u) :
      EncodesTable (row :: rows) (t ++ (e ++ u))

/-- What may follow a cell: nothing, a comma or an end of the line. -/
def Separated (rest : List Char) : Prop :=
  ∀ c ∈ rest.head?, c = ',' ∨ c = '\r' ∨ c = '\n'

theorem separated_nil : Separated [] := fun _ h => nomatch h

theorem separated_comma (rest : List Char) : Separated (',' :: rest) := by
  intro c hc
  exact .inl (Option.some.inj hc).symm

theorem LineEnd.separated {e : List Char} (h : LineEnd e) (rest : List Char) :
    Separated (e ++ rest) := by
  intro c hc
  cases h with
  | lf => exact .inr (.inr (Option.some.inj hc).symm)
  | cr => exact .inr (.inl (Option.some.inj hc).symm)
  | crlf => exact .inr (.inl (Option.some.inj hc).symm)

theorem EncodesCell.head_ne_lf {cell : String} {t : List Char} (h : EncodesCell cell t) :
    t.head? ≠ some '\n' := by
  cases h with
  | plain h =>
    intro hhead
    exact h '\n' (List.mem_of_head? hhead) (.inr (.inr (.inr rfl)))
  | quoted => exact fun hhead => absurd (Option.some.inj hhead) (by decide)

theorem EncodesRow.head_ne_lf {row : List String} {t : List Char} (h : EncodesRow row t)
    (hlength : 2 ≤ row.length) (rest : List Char) : (t ++ rest).head? ≠ some '\n' := by
  cases h with
  | last => exact absurd hlength (Nat.not_succ_le_self 1)
  | @cons cell row t u h hrow =>
    cases t with
    | nil => exact fun hhead => absurd (Option.some.inj hhead) (by decide)
    | cons c t => exact h.head_ne_lf

end Csv
end Framework
