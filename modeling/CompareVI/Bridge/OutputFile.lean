import CompareVI.Framework.Keyed
import CompareVI.Framework.Lines
import CompareVI.Framework.PsString

/-!
# The output file of a step

The history script appends what it reports to the file of `GITHUB_OUTPUT`, and the bridge reads
the file again (`ParseGitHubOutputFile`). An output is a line `key=value`, or a line
`key<<delimiter` with the lines of the value below it, up to the delimiter.

The reader tells the two forms apart by the first `<<` of a line, wherever it stands, and it
keeps the outputs in a dictionary that ignores the case of keys. `mem_parseLines` says where
an output can come from.
-/

open Framework
open Framework.Lines

namespace CompareVI.OutputFile

abbrev Text := List Char

/-- `<<`. -/
def marker : Text := ['<', '<']

/-- The runtime that the reader runs on: the break of its lines, and how its dictionary folds
the case of a character. Neither `=` nor `<` is a case of another character. -/
structure Host where
  newLine : Text
  upper : Char → Char
  lineEnd : Csv.LineEnd newLine
  upper_eq : ∀ c, upper c = upper '=' → c = '='
  upper_lt : ∀ c, upper c = upper '<' → c = '<'

abbrev Outputs := List (Text × Text)

/-- A key as `StringComparer.OrdinalIgnoreCase` sees it. -/
def Host.fold (host : Host) (key : Text) : Text := key.map host.upper

/-- `outputs[key] = value`. A key that is there keeps its spelling. -/
def set (host : Host) (outputs : Outputs) (key value : Text) : Outputs :=
  ensureFirst (fun p => host.fold p.1) (host.fold key) (key, value) (fun p => (p.1, value)) outputs

def splitAtMark (mark line : Text) : Option (Text × Text) :=
  (indexOf mark line).bind fun i =>
    if 0 < i then some (line.take i, line.drop (i + mark.length)) else none

def appendValueLine (host : Host) (value line : Text) : Text :=
  (if value = [] then value else value ++ host.newLine) ++ line

def readValue (host : Host) (delimiter : Text) : Text → List Text → Text × List Text
  | value, [] => (value, [])
  | value, line :: lines =>
    if line = delimiter then (value, lines)
    else readValue host delimiter (appendValueLine host value line) lines

theorem readValue_suffix (host : Host) (delimiter value : Text) (lines : List Text) :
    (readValue host delimiter value lines).2 <:+ lines := by
  induction lines generalizing value with
  | nil => exact List.suffix_refl _
  | cons line lines ih =>
    rw [readValue]
    split_ifs
    · exact List.suffix_cons line lines
    · exact (ih _).trans (List.suffix_cons line lines)

def parseLines (host : Host) (outputs : Outputs) : List Text → Outputs
  | [] => outputs
  | line :: lines =>
    if line.all PsString.isWhiteSpace then parseLines host outputs lines
    else
      match splitAtMark marker line with
      | some (key, delimiter) =>
        parseLines host (set host outputs key (readValue host delimiter [] lines).1)
          (readValue host delimiter [] lines).2
      | none =>
        match splitAtMark ['='] line with
        | some (key, value) => parseLines host (set host outputs key value) lines
        | none => parseLines host outputs lines
  termination_by lines => lines.length
  decreasing_by
    all_goals simp only [List.length_cons]
    · omega
    · exact Nat.lt_succ_of_le (readValue_suffix host delimiter [] lines).length_le
    · omega
    · omega

def parseGitHubOutputFile (host : Host) (text : Text) : Outputs :=
  parseLines host [] (readLines text)

variable {host : Host} {outputs : Outputs} {key value line : Text} {lines : List Text}

/-! ### The dictionary -/

variable {delimiter : Text} {p : Text × Text}

theorem mem_set (h : p ∈ set host outputs key value) :
    p ∈ outputs ∨ (host.fold p.1 = host.fold key ∧ p.2 = value) := by
  have hmem : p ∈ ensureFirst (fun q : Text × Text => host.fold q.1) (host.fold key) (key, value)
      (fun q => (q.1, value)) outputs := h
  refine (mem_ensureFirst (by rfl) hmem).imp_right ?_
  rintro ⟨q, hq, rfl⟩
  exact ⟨hq, rfl⟩

/-- No two keys of a dictionary are the same up to case. -/
def Distinct (host : Host) (outputs : Outputs) : Prop :=
  (outputs.map fun p => host.fold p.1).Nodup

theorem Distinct.set (h : Distinct host outputs) : Distinct host (set host outputs key value) :=
  nodup_ensureFirst rfl (fun _ => rfl) h

theorem set_of_not_mem (h : host.fold key ∉ outputs.map fun p => host.fold p.1) :
    set host outputs key value = outputs ++ [(key, value)] :=
  ensureFirst_of_not_mem h

theorem keys_subset_set (outputs : Outputs) (key value : Text) :
    outputs.map Prod.fst ⊆ (set host outputs key value).map Prod.fst :=
  map_subset_ensureFirst fun _ => rfl

theorem exists_mem_set (host : Host) (outputs : Outputs) (key value : Text) :
    ∃ k ∈ (set host outputs key value).map Prod.fst, host.fold k = host.fold key := by
  have hkeys : host.fold key ∈ (set host outputs key value).map fun p => host.fold p.1 := by
    rcases @map_ensureFirst _ _ _ (fun p => host.fold p.1) _ outputs (key, value)
      (fun p => (p.1, value)) rfl fun _ => rfl with ⟨hmem, hkeys⟩ | ⟨-, hkeys⟩
    · exact hkeys.symm ▸ hmem
    · exact hkeys.symm ▸ List.mem_append_right _ (List.mem_singleton_self _)
  obtain ⟨p, hp, hfold⟩ := List.mem_map.mp hkeys
  exact ⟨p.1, List.mem_map_of_mem hp, hfold⟩

/-! ### Lines in two -/

variable {mark k v : Text}

theorem splitAtMark_eq_none (h : ¬ mark <:+: line) : splitAtMark mark line = none := by
  rw [splitAtMark, indexOf_eq_none_iff.mpr h, Option.bind_none]

theorem splitAtMark_of_indexOf (hk : k ≠ []) (h : indexOf mark (k ++ (mark ++ v)) = some k.length) :
    splitAtMark mark (k ++ (mark ++ v)) = some (k, v) := by
  have hdrop : (k ++ (mark ++ v)).drop (k.length + mark.length) = v := by
    rw [← List.append_assoc, ← List.length_append, List.drop_left]
  rw [splitAtMark, h, Option.bind_some, if_pos (List.length_pos_iff.mpr hk), List.take_left, hdrop]

theorem splitAtMark_eq_some (h : splitAtMark mark line = some (k, v)) :
    line = k ++ (mark ++ v) ∧ k ≠ [] ∧
      ∀ w x, k = w ++ x → x ≠ [] → ¬ mark <+: x ++ (mark ++ v) := by
  obtain ⟨i, hi, hcut⟩ := Option.bind_eq_some_iff.mp h
  obtain ⟨u, w, rfl, rfl, hfirst⟩ := indexOf_eq_some hi
  split_ifs at hcut with hpos
  obtain ⟨hk, hv⟩ := Prod.mk.inj (Option.some.inj hcut)
  rw [List.take_left] at hk
  rw [← List.append_assoc, ← List.length_append, List.drop_left] at hv
  subst hk hv
  exact ⟨rfl, List.length_pos_iff.mp hpos, hfirst⟩

theorem splitAtMark_assignment (hk : k ≠ []) (heq : '=' ∉ k) (v : Text) :
    splitAtMark ['='] (k ++ '=' :: v) = some (k, v) :=
  splitAtMark_of_indexOf hk (indexOf_singleton heq v)

theorem splitAtMark_marker (hk : k ≠ []) (hmark : ¬ marker <:+: k) (hlast : k.getLast? ≠ some '<')
    (v : Text) : splitAtMark marker (k ++ (marker ++ v)) = some (k, v) := by
  refine splitAtMark_of_indexOf hk (indexOf_append (List.cons_ne_nil '<' ['<']) ?_)
  rintro w x rfl hx hpre
  match x with
  | [] => exact hx rfl
  | [c] =>
    have hc : '<' = c := (List.cons_prefix_cons.mp hpre).1
    refine hlast ?_
    rw [List.getLast?_append, ← hc]
    rfl
  | c :: d :: x =>
    obtain ⟨hc, hrest⟩ := List.cons_prefix_cons.mp hpre
    have hd : '<' = d := (List.cons_prefix_cons.mp hrest).1
    exact hmark ⟨w, x, by rw [← hc, ← hd, List.append_assoc]; rfl⟩

theorem getLast?_ne_of_splitAtMark (h : splitAtMark marker line = some (k, v)) :
    k.getLast? ≠ some '<' := by
  obtain ⟨-, -, hfirst⟩ := splitAtMark_eq_some h
  intro hlast
  obtain ⟨w, rfl⟩ := List.getLast?_eq_some_iff.mp hlast
  exact hfirst w ['<'] rfl (List.cons_ne_nil _ _) ⟨'<' :: v, rfl⟩

/-! ### The loop -/

theorem not_blank_of_mem {c : Char} (hmem : c ∈ line) (hc : PsString.isWhiteSpace c = false) :
    line.all PsString.isWhiteSpace ≠ true := by
  intro hall
  rw [List.all_eq_true.mp hall c hmem] at hc
  exact Bool.noConfusion hc

theorem parseLines_heredoc (h : splitAtMark marker line = some (key, delimiter))
    (lines : List Text) :
    parseLines host outputs (line :: lines) =
      parseLines host (set host outputs key (readValue host delimiter [] lines).1)
        (readValue host delimiter [] lines).2 := by
  have hmem : '<' ∈ line := by
    rw [(splitAtMark_eq_some h).1]
    exact List.mem_append_right key List.mem_cons_self
  rw [parseLines, if_neg (not_blank_of_mem hmem (by decide)), h]

theorem parseLines_assignment (hnone : splitAtMark marker line = none)
    (h : splitAtMark ['='] line = some (key, value)) (lines : List Text) :
    parseLines host outputs (line :: lines) =
      parseLines host (set host outputs key value) lines := by
  have hmem : '=' ∈ line := by
    rw [(splitAtMark_eq_some h).1]
    exact List.mem_append_right key List.mem_cons_self
  rw [parseLines, if_neg (not_blank_of_mem hmem (by decide)), hnone, h]

/-- **What every assignment keeps holds of what is read.** -/
theorem parseLines_induction {P : Outputs → Prop}
    (hset : ∀ outputs key value, P outputs → P (set host outputs key value)) (h : P outputs)
    (lines : List Text) : P (parseLines host outputs lines) := by
  fun_induction parseLines host outputs lines with
  | case1 outputs => exact h
  | case2 outputs line lines hblank ih => exact ih h
  | case3 outputs line lines hblank key delimiter hkey ih => exact ih (hset _ _ _ h)
  | case4 outputs line lines hblank hnone key value hkey ih => exact ih (hset _ _ _ h)
  | case5 outputs line lines hblank hnone hno ih => exact ih h

theorem Distinct.parseLines (h : Distinct host outputs) (lines : List Text) :
    Distinct host (parseLines host outputs lines) :=
  parseLines_induction (fun _ _ _ h => h.set) h lines

theorem keys_subset_parseLines (outputs : Outputs) (lines : List Text) :
    outputs.map Prod.fst ⊆ (parseLines host outputs lines).map Prod.fst :=
  parseLines_induction (P := fun read => outputs.map Prod.fst ⊆ read.map Prod.fst)
    (fun read key value h => List.Subset.trans h (keys_subset_set read key value))
    (List.Subset.refl _) lines

inductive GivenBy (host : Host) (p : Text × Text) (line : Text) : Prop
  | heredoc {key delimiter : Text} (h : splitAtMark marker line = some (key, delimiter))
      (hkey : host.fold p.1 = host.fold key)
  | assignment {key : Text} (hnone : splitAtMark marker line = none)
      (h : splitAtMark ['='] line = some (key, p.2)) (hkey : host.fold p.1 = host.fold key)

/-- **Whatever is read was there before, or one of the lines gives it.** -/
theorem mem_parseLines (h : p ∈ parseLines host outputs lines) :
    p ∈ outputs ∨ ∃ line ∈ lines, GivenBy host p line := by
  have hlater : ∀ {line : Text} {rest lines : List Text}, rest <:+ lines →
      (∃ l ∈ rest, GivenBy host p l) → ∃ l ∈ line :: lines, GivenBy host p l := by
    rintro line rest lines hsuffix ⟨l, hl, hgiven⟩
    exact ⟨l, List.mem_cons_of_mem line (hsuffix.subset hl), hgiven⟩
  fun_induction parseLines host outputs lines with
  | case1 outputs => exact .inl h
  | case2 outputs line lines hblank ih => exact (ih h).imp_right (hlater (List.suffix_refl lines))
  | case3 outputs line lines hblank key delimiter hkey ih =>
    rcases ih h with hset | hrest
    · refine (mem_set hset).imp_right ?_
      exact fun hgiven => ⟨line, List.mem_cons_self, .heredoc hkey hgiven.1⟩
    · exact .inr (hlater (readValue_suffix host delimiter [] lines) hrest)
  | case4 outputs line lines hblank hnone key value hkey ih =>
    rcases ih h with hset | hrest
    · refine (mem_set hset).imp_right ?_
      rintro ⟨hfold, rfl⟩
      exact ⟨line, List.mem_cons_self, .assignment hnone hkey hfold⟩
    · exact .inr (hlater (List.suffix_refl lines) hrest)
  | case5 outputs line lines hblank hnone hno ih =>
    exact (ih h).imp_right (hlater (List.suffix_refl lines))

/-! ### Values -/

theorem readValue_append (h : delimiter ∉ lines) (value : Text) (rest : List Text) :
    readValue host delimiter value (lines ++ delimiter :: rest) =
      (lines.foldl (appendValueLine host) value, rest) := by
  induction lines generalizing value with
  | nil => rw [List.nil_append, readValue, if_pos rfl, List.foldl_nil]
  | cons line lines ih =>
    rw [List.mem_cons, not_or] at h
    rw [List.cons_append, readValue, if_neg fun heq => h.1 heq.symm, ih h.2, List.foldl_cons]

theorem readValue_of_not_mem (h : delimiter ∉ lines) (value : Text) :
    (readValue host delimiter value lines).2 = [] := by
  induction lines generalizing value with
  | nil => rfl
  | cons line lines ih =>
    rw [List.mem_cons, not_or] at h
    rw [readValue, if_neg fun heq => h.1 heq.symm, ih h.2]

theorem foldl_appendValueLine (hv : value ≠ []) (lines : List Text) :
    lines.foldl (appendValueLine host) value = joinLines host.newLine (value :: lines) := by
  induction lines generalizing value with
  | nil => rfl
  | cons line lines ih =>
    have hne : value ++ host.newLine ++ line ≠ [] := by
      rw [List.append_assoc]
      exact List.append_ne_nil_of_left_ne_nil hv _
    rw [List.foldl_cons, appendValueLine, if_neg hv, ih hne]
    cases lines with
    | nil => rw [joinLines, joinLines, joinLines, List.append_assoc]
    | cons line' lines => simp only [joinLines, List.append_assoc]

theorem foldl_appendValueLine_nil (lines : List Text) :
    lines.foldl (appendValueLine host) [] =
      joinLines host.newLine (lines.dropWhile (· = [])) := by
  induction lines with
  | nil => rfl
  | cons line lines ih =>
    have hfirst : appendValueLine host [] line = line := by
      rw [appendValueLine, if_pos rfl, List.nil_append]
    rw [List.foldl_cons, hfirst]
    by_cases hline : line = []
    · rw [List.dropWhile_cons_of_pos (by simpa using hline), hline, ih]
    · rw [List.dropWhile_cons_of_neg (by simpa using hline), foldl_appendValueLine hline]

end CompareVI.OutputFile
