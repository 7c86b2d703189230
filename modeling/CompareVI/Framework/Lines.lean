import CompareVI.Framework.Csv
import Mathlib.Data.List.Infix

/-!
# Texts and their lines

A text is a list of lines that are separated by line breaks, where a line feed, a carriage
return or both are one break each (`textLines`). A reader of lines takes the last break for
the end of the last line (`readLines`).

A list of lines has many texts. They are given by a relation (`EncodesLines`), so that
what is proved of a reader holds for whatever writer the text comes from
(`readLines_of_encodes`). Lines that are joined by a break are the lines of the joined text
(`textLines_joinLines`).

The last part is about the first place at which a text contains another one (`indexOf`).
-/

namespace Framework
namespace Lines

/-- A character of a line break. -/
def IsBreak (c : Char) : Prop := c = '\r' ∨ c = '\n'

instance : DecidablePred IsBreak := fun c => inferInstanceAs (Decidable (c = '\r' ∨ c = '\n'))

/-- A text without line breaks. -/
def Single (l : List Char) : Prop := ∀ c ∈ l, ¬ IsBreak c

instance : DecidablePred Single := fun l => List.decidableBAll (fun c => ¬ IsBreak c) l

theorem single_append {a b : List Char} : Single (a ++ b) ↔ Single a ∧ Single b :=
  List.forall_mem_append

def linesFrom : Bool → List Char → List (List Char)
  | _, [] => [[]]
  | afterReturn, c :: cs =>
    if c = '\n' then if afterReturn then linesFrom false cs else [] :: linesFrom false cs
    else if c = '\r' then [] :: linesFrom true cs
    else (linesFrom false cs).modifyHead (c :: ·)

def textLines (text : List Char) : List (List Char) := linesFrom false text

def readLines (text : List Char) : List (List Char) :=
  if (textLines text).getLast? = some [] then (textLines text).dropLast else textLines text

/-- A text of a list of lines: each is ended by some line break, which the last one may lack
unless it is empty. -/
inductive EncodesLines : List (List Char) → List Char → Prop
  | nil : EncodesLines [] []
  | last {l : List Char} (h : l ≠ []) : EncodesLines [l] l
  | cons {l e t : List Char} {ls : List (List Char)} (he : Csv.LineEnd e)
      (hsep : e = ['\r'] → t.head? ≠ some '\n') (h : EncodesLines ls t) :
      EncodesLines (l :: ls) (l ++ (e ++ t))

def joinLines (newLine : List Char) : List (List Char) → List Char
  | [] => []
  | [l] => l
  | l :: l' :: ls => l ++ (newLine ++ joinLines newLine (l' :: ls))

variable {l t : List Char} {ls : List (List Char)}

theorem linesFrom_ne_nil (b : Bool) (t : List Char) : linesFrom b t ≠ [] := by
  induction t generalizing b with
  | nil => exact List.cons_ne_nil _ _
  | cons c cs ih =>
    rw [linesFrom]
    split_ifs with hlf hb hcr
    · exact ih false
    · exact List.cons_ne_nil _ _
    · exact List.cons_ne_nil _ _
    · cases h : linesFrom false cs with
      | nil => exact absurd h (ih false)
      | cons l ls => exact List.cons_ne_nil _ _

theorem linesFrom_true (h : t.head? ≠ some '\n') : linesFrom true t = linesFrom false t := by
  cases t with
  | nil => rfl
  | cons c cs =>
    have hc : c ≠ '\n' := fun hc => h (by rw [hc]; rfl)
    rw [linesFrom, linesFrom, if_neg hc, if_neg hc]

theorem textLines_append (hl : Single l) (t : List Char) :
    textLines (l ++ t) = (textLines t).modifyHead (l ++ ·) := by
  induction l with
  | nil =>
    cases h : textLines t with
    | nil => rw [List.nil_append, h, List.modifyHead_nil]
    | cons l ls => rw [List.nil_append, h, List.modifyHead_cons, List.nil_append]
  | cons c cs ih =>
    obtain ⟨hc, hcs⟩ := List.forall_mem_cons.mp hl
    rw [IsBreak, not_or] at hc
    have hrest : linesFrom false (cs ++ t) = (textLines t).modifyHead (cs ++ ·) := ih hcs
    rw [List.cons_append, textLines, linesFrom, if_neg hc.2, if_neg hc.1, hrest,
      List.modifyHead_modifyHead]
    rfl

variable {c : Char} {e newLine : List Char}

theorem textLines_lineEnd (he : Csv.LineEnd e) (hsep : e = ['\r'] → t.head? ≠ some '\n') :
    textLines (e ++ t) = [] :: textLines t := by
  cases he with
  | lf => rfl
  | cr =>
    calc textLines (['\r'] ++ t) = [] :: linesFrom true t := rfl
      _ = [] :: textLines t := by rw [linesFrom_true (hsep rfl), textLines]
  | crlf => rfl

theorem textLines_cons (hl : Single l) (he : Csv.LineEnd e)
    (hsep : e = ['\r'] → t.head? ≠ some '\n') :
    textLines (l ++ (e ++ t)) = l :: textLines t := by
  rw [textLines_append hl, textLines_lineEnd he hsep, List.modifyHead_cons, List.append_nil]

theorem textLines_single (hl : Single l) : textLines l = [l] := by
  calc textLines l = textLines (l ++ []) := by rw [List.append_nil]
    _ = [l] := by
      rw [textLines_append hl, textLines, linesFrom, List.modifyHead_cons, List.append_nil]

/-- **A reader of lines finds the lines that a text encodes.** -/
theorem readLines_of_encodes (hls : ∀ l ∈ ls, Single l) (h : EncodesLines ls t) :
    readLines t = ls := by
  induction h with
  | nil => rfl
  | @last l hne =>
    have hl : Single l := hls l (List.mem_singleton_self l)
    rw [readLines, textLines_single hl, List.getLast?_singleton]
    exact if_neg fun heq => hne (Option.some.inj heq)
  | @cons l e t ls he hsep h ih =>
    obtain ⟨hl, hls⟩ := List.forall_mem_cons.mp hls
    have hne : textLines t ≠ [] := linesFrom_ne_nil false t
    rw [readLines, textLines_cons hl he hsep, List.getLast?_cons_of_ne_nil hne,
      List.dropLast_cons_of_ne_nil hne]
    rw [← ih hls, readLines]
    split_ifs
    · rfl
    · rfl

theorem encodesLines_lf (ls : List (List Char)) :
    EncodesLines ls (ls.flatMap (· ++ ['\n'])) := by
  induction ls with
  | nil => exact .nil
  | cons l ls ih =>
    rw [List.flatMap_cons, List.append_assoc]
    exact .cons .lf (fun h => absurd h (by decide)) ih

theorem head?_joinLines_ne (hls : ∀ l ∈ ls, Single l) (hcr : newLine = ['\r']) :
    (joinLines newLine ls).head? ≠ some '\n' := by
  match ls with
  | [] => exact fun h => Option.some_ne_none '\n' h.symm
  | [l] =>
    intro h
    exact hls l (List.mem_singleton_self l) '\n' (List.mem_of_mem_head? h) (.inr rfl)
  | [] :: l' :: ls =>
    subst hcr
    exact fun h => absurd (Option.some.inj h) (by decide)
  | (c :: cs) :: l' :: ls =>
    intro h
    have hc : c = '\n' := Option.some.inj h
    exact hls (c :: cs) List.mem_cons_self c List.mem_cons_self (.inr hc)

/-- **Lines are the lines of their joined text.** -/
theorem textLines_joinLines (hnl : Csv.LineEnd newLine) (hls : ∀ l ∈ ls, Single l) (hne : ls ≠ []) :
    textLines (joinLines newLine ls) = ls := by
  induction ls with
  | nil => exact absurd rfl hne
  | cons l ls ih =>
    obtain ⟨hl, hrest⟩ := List.forall_mem_cons.mp hls
    cases ls with
    | nil => exact textLines_single hl
    | cons l' ls =>
      rw [joinLines, textLines_cons hl hnl (head?_joinLines_ne hrest),
        ih hrest (List.cons_ne_nil l' ls)]

/-! ### The first place of a text in another -/

def indexOf (needle : List Char) : List Char → Option ℕ
  | [] => if needle = [] then some 0 else none
  | c :: cs => if needle.isPrefixOf (c :: cs) then some 0 else (indexOf needle cs).map (· + 1)

variable {needle u v : List Char}

theorem indexOf_eq_none_iff : indexOf needle t = none ↔ ¬ needle <:+: t := by
  induction t with
  | nil =>
    rw [indexOf, List.infix_nil]
    split_ifs with h
    · exact ⟨False.elim, fun hne => absurd h hne⟩
    · exact ⟨fun _ => h, fun _ => rfl⟩
  | cons c cs ih =>
    rw [indexOf, List.infix_cons_iff, ← List.isPrefixOf_iff_prefix]
    split
    · next h =>
      exact ⟨fun hsome => absurd hsome (Option.some_ne_none 0), fun hnot => absurd (.inl h) hnot⟩
    · next h =>
      rw [Option.map_eq_none_iff, ih, not_or]
      exact ⟨fun hnot => ⟨h, hnot⟩, fun hnot => hnot.2⟩

theorem indexOf_eq_some {i : ℕ} (h : indexOf needle t = some i) :
    ∃ u v, t = u ++ (needle ++ v) ∧ i = u.length ∧
      ∀ w x, u = w ++ x → x ≠ [] → ¬ needle <+: x ++ (needle ++ v) := by
  induction t generalizing i with
  | nil =>
    rw [indexOf] at h
    split_ifs at h with hneedle
    refine ⟨[], [], by rw [hneedle]; rfl, (Option.some.inj h).symm, ?_⟩
    intro w x hwx hx
    exact absurd (List.append_eq_nil_iff.mp hwx.symm).2 hx
  | cons c cs ih =>
    rw [indexOf] at h
    split_ifs at h with hpre
    · obtain ⟨v, hv⟩ := List.isPrefixOf_iff_prefix.mp hpre
      refine ⟨[], v, hv.symm, (Option.some.inj h).symm, ?_⟩
      intro w x hwx hx
      exact absurd (List.append_eq_nil_iff.mp hwx.symm).2 hx
    · obtain ⟨j, hj, rfl⟩ := Option.map_eq_some_iff.mp h
      obtain ⟨u, v, rfl, rfl, hfirst⟩ := ih hj
      refine ⟨c :: u, v, rfl, rfl, ?_⟩
      intro w x hwx hx
      cases w with
      | nil =>
        rw [List.nil_append] at hwx
        rw [← hwx]
        exact fun hprefix => hpre (List.isPrefixOf_iff_prefix.mpr hprefix)
      | cons d w => exact hfirst w x (List.cons.inj hwx).2 hx

theorem indexOf_append (hneedle : needle ≠ [])
    (h : ∀ w x, u = w ++ x → x ≠ [] → ¬ needle <+: x ++ (needle ++ v)) :
    indexOf needle (u ++ (needle ++ v)) = some u.length := by
  induction u with
  | nil =>
    obtain ⟨d, ds, rfl⟩ := List.exists_cons_of_ne_nil hneedle
    rw [List.nil_append, List.cons_append, indexOf, if_pos]
    · rfl
    · exact List.isPrefixOf_iff_prefix.mpr ⟨v, rfl⟩
  | cons c u ih =>
    rw [List.cons_append, indexOf, if_neg, ih]
    · rfl
    · exact fun w x hwx hx => h (c :: w) x (by rw [hwx]; rfl) hx
    · exact fun hpre => h [] (c :: u) rfl (List.cons_ne_nil c u)
        (List.isPrefixOf_iff_prefix.mp hpre)

theorem indexOf_singleton (hu : c ∉ u) (v : List Char) :
    indexOf [c] (u ++ c :: v) = some u.length := by
  refine indexOf_append (u := u) (v := v) (List.cons_ne_nil c []) ?_
  rintro w x rfl hx hpre
  obtain ⟨d, x, rfl⟩ := List.exists_cons_of_ne_nil hx
  rw [List.cons_append, List.cons_prefix_cons] at hpre
  exact hu (List.mem_append_right w (hpre.1 ▸ List.mem_cons_self))

theorem eq_nil_of_prefix_cons (hc : c ∉ needle) (h : needle <+: c :: v) :
    needle = [] := by
  cases needle with
  | nil => rfl
  | cons d ds =>
    obtain ⟨rfl, -⟩ := List.cons_prefix_cons.mp h
    exact absurd List.mem_cons_self hc

theorem infix_append_cons (hc : c ∉ needle) (h : needle <:+: u ++ c :: v) :
    needle <:+: u ∨ needle <:+: v := by
  rcases List.infix_append_iff.mp h with hu | hcv | ⟨l₁, l₂, rfl, hu, hcv⟩
  · exact .inl hu
  · rcases List.infix_cons_iff.mp hcv with hpre | hv
    · rw [eq_nil_of_prefix_cons hc hpre]
      exact .inl List.nil_infix
    · exact .inr hv
  · rw [eq_nil_of_prefix_cons (fun hmem => hc (List.mem_append_right l₁ hmem)) hcv,
      List.append_nil]
    exact .inl hu.isInfix

end Lines
end Framework
