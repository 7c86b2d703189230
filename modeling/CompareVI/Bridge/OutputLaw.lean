import CompareVI.Bridge.OutputFile
import CompareVI.Framework.JsString
import Mathlib.Data.List.Induction

/-!
# Which outputs come back

A file of outputs, each in one of the two forms, is read back as it was written (`RoundTrips`)
if no two keys agree up to case, no value in a line of its own holds `<<`, no key
above a value ends in `<`, and no value of several lines begins with an empty one (`Kept`).

Every other list of outputs has a beginning that does not come back
(`roundTrips_iff_kept`). The list itself need not: after a key that ends in `<` the reader looks
for another delimiter, and what it reads from there on can be right by accident.
-/

open Framework
open Framework.Lines

namespace CompareVI.OutputFile

/-! ### Outputs -/

/-- How a value is written: on the line of its key, or as lines above a delimiter. -/
inductive Form where
  | line (value : Text)
  | heredoc (delimiter : Text) (lines : List Text)

namespace Form

def value : Form → List Text
  | line value => [value]
  | heredoc _ lines => lines

/-- A value on a line has no breaks, and the lines of another one are not the delimiter. -/
def Legal : Form → Prop
  | line value => Single value
  | heredoc delimiter lines =>
    Single delimiter ∧ lines ≠ [] ∧ ∀ l ∈ lines, Single l ∧ l ≠ delimiter

def read (host : Host) : Form → Text
  | line value => value
  | heredoc _ lines => lines.foldl (appendValueLine host) []

def InStep (key : Text) : Form → Prop
  | line value => ¬ marker <:+: value
  | heredoc _ _ => key.getLast? ≠ some '<'

def Begins : Form → Prop
  | line _ => True
  | heredoc _ lines => lines.head? = some [] → lines = [[]]

end Form

structure Output where
  key : Text
  form : Form
  key_ne : key ≠ []
  no_eq : '=' ∉ key
  no_marker : ¬ marker <:+: key
  single : Single key
  legal : form.Legal

def Output.lines (o : Output) : List Text :=
  match o.form with
  | .line value => [o.key ++ '=' :: value]
  | .heredoc delimiter lines => (o.key ++ (marker ++ delimiter)) :: (lines ++ [delimiter])

def fileLines (os : List Output) : List Text := os.flatMap Output.lines

/-- The reader reports a value for a key, up to the encoding of its line breaks. -/
def Reports (outputs : Outputs) (key : Text) (value : List Text) : Prop :=
  ∃ text, (key, text) ∈ outputs ∧ textLines text = value

/-- Every file of the outputs is read as exactly these. -/
def RoundTrips (host : Host) (os : List Output) : Prop :=
  ∀ text, EncodesLines (fileLines os) text → ∀ key value,
    Reports (parseGitHubOutputFile host text) key value ↔
      ∃ o ∈ os, o.key = key ∧ o.form.value = value

/-- The outputs come back. -/
structure Kept (host : Host) (os : List Output) : Prop where
  inStep : ∀ o ∈ os, o.form.InStep o.key
  begins : ∀ o ∈ os, o.form.Begins
  distinct : (os.map fun o => host.fold o.key).Nodup

/-- The reader sees another key and another delimiter. -/
def Shifted (o : Output) : Prop :=
  o.key.getLast? = some '<' ∧ ∃ delimiter lines, o.form = .heredoc delimiter lines

variable {host : Host} {outputs : Outputs} {os : List Output} {o : Output}

/-! ### The file -/

theorem single_of_mem_lines {l : Text} (h : l ∈ o.lines) : Single l := by
  obtain ⟨key, form, _, _, _, hkey, hlegal⟩ := o
  cases form with
  | line value =>
    rw [List.mem_singleton.mp h]
    refine single_append.mpr ⟨hkey, List.forall_mem_cons.mpr ⟨by decide, hlegal⟩⟩
  | heredoc delimiter lines =>
    obtain ⟨hdelimiter, _, hlines⟩ := hlegal
    rcases List.mem_cons.mp h with rfl | hmem
    · exact single_append.mpr ⟨hkey, single_append.mpr ⟨by decide, hdelimiter⟩⟩
    · rcases List.mem_append.mp hmem with hline | hlast
      · exact (hlines l hline).1
      · rw [List.mem_singleton.mp hlast]
        exact hdelimiter

theorem fileLines_cons (o : Output) (os : List Output) :
    fileLines (o :: os) = o.lines ++ fileLines os := List.flatMap_cons

theorem fileLines_append (os os' : List Output) :
    fileLines (os ++ os') = fileLines os ++ fileLines os' := List.flatMap_append

variable {a b delimiter key text value : Text}

theorem parseGitHubOutputFile_eq (h : EncodesLines (fileLines os) text) :
    parseGitHubOutputFile host text = parseLines host [] (fileLines os) := by
  have hsingle : ∀ l ∈ fileLines os, Single l := by
    intro l hl
    obtain ⟨o, -, ho⟩ := List.mem_flatMap.mp hl
    exact single_of_mem_lines ho
  rw [parseGitHubOutputFile, readLines_of_encodes hsingle h]

theorem roundTrips_iff :
    RoundTrips host os ↔ ∀ key value,
      Reports (parseLines host [] (fileLines os)) key value ↔
        ∃ o ∈ os, o.key = key ∧ o.form.value = value := by
  constructor
  · intro h
    rw [← parseGitHubOutputFile_eq (encodesLines_lf (fileLines os))]
    exact h _ (encodesLines_lf (fileLines os))
  · intro h text htext
    rw [parseGitHubOutputFile_eq htext]
    exact h

/-! ### Reading in step -/

/-- **One output.** In step with the writer, the reader assigns the output to its key. -/
theorem parseLines_output (h : o.form.InStep o.key) (rest : List Text) :
    parseLines host outputs (o.lines ++ rest) =
      parseLines host (set host outputs o.key (o.form.read host)) rest := by
  obtain ⟨key, form, hne, heq, hmarker, _, hlegal⟩ := o
  cases form with
  | line value =>
    have hnone : ¬ marker <:+: key ++ '=' :: value := by
      intro hinfix
      exact (infix_append_cons (by decide) hinfix).elim hmarker h
    exact parseLines_assignment (splitAtMark_eq_none hnone)
      (splitAtMark_assignment hne heq value) rest
  | heredoc delimiter lines =>
    have hnot : delimiter ∉ lines := fun hmem => (hlegal.2.2 delimiter hmem).2 rfl
    change parseLines host outputs
      ((key ++ (marker ++ delimiter)) :: (lines ++ [delimiter]) ++ rest) = _
    rw [List.cons_append, List.append_assoc, List.singleton_append,
      parseLines_heredoc (splitAtMark_marker hne hmarker h delimiter), readValue_append hnot]
    rfl

def readAll (host : Host) (os : List Output) : Outputs :=
  os.map fun o => (o.key, o.form.read host)

/-- **A file.** In step, outputs with different keys are added one after the other. -/
theorem parseLines_fileLines (hstep : ∀ o ∈ os, o.form.InStep o.key)
    (hdistinct : ((outputs.map fun p => host.fold p.1) ++ os.map fun o => host.fold o.key).Nodup)
    (rest : List Text) :
    parseLines host outputs (fileLines os ++ rest) =
      parseLines host (outputs ++ readAll host os) rest := by
  induction os generalizing outputs with
  | nil => rw [fileLines, List.flatMap_nil, List.nil_append, readAll, List.map_nil, List.append_nil]
  | cons o os ih =>
    obtain ⟨ho, hos⟩ := List.forall_mem_cons.mp hstep
    rw [List.map_cons] at hdistinct
    have hnew : host.fold o.key ∉ outputs.map fun p => host.fold p.1 := by
      intro hmem
      exact (List.nodup_append'.mp hdistinct).2.2 hmem List.mem_cons_self
    have hnext : (((outputs ++ [(o.key, o.form.read host)]).map fun p => host.fold p.1) ++
        os.map fun o => host.fold o.key).Nodup := by
      rw [List.map_append, List.append_assoc]
      exact hdistinct
    rw [fileLines_cons, List.append_assoc, parseLines_output ho, set_of_not_mem hnew, ih hos hnext,
      List.append_assoc]
    rfl

theorem parseLines_of_inStep (hstep : ∀ o ∈ os, o.form.InStep o.key)
    (hdistinct : (os.map fun o => host.fold o.key).Nodup) (rest : List Text) :
    parseLines host [] (fileLines os ++ rest) = parseLines host (readAll host os) rest := by
  have hnil : (([] : Outputs).map (fun p => host.fold p.1) ++
      os.map fun o => host.fold o.key).Nodup := hdistinct
  exact parseLines_fileLines hstep hnil rest

theorem textLines_read_iff {form : Form} (h : form.Legal) :
    textLines (form.read host) = form.value ↔ form.Begins := by
  cases form with
  | line value => exact iff_of_true (textLines_single h) trivial
  | heredoc delimiter lines =>
    obtain ⟨-, hne, hlines⟩ := h
    obtain ⟨first, lines, rfl⟩ := List.exists_cons_of_ne_nil hne
    have hsingle : ∀ l ∈ first :: lines, Single l := fun l hl => (hlines l hl).1
    rw [Form.read, Form.value, Form.Begins, foldl_appendValueLine_nil]
    by_cases hfirst : first = []
    · subst hfirst
      cases lines with
      | nil => exact iff_of_true rfl fun _ => rfl
      | cons second lines =>
        refine iff_of_false ?_ fun hbegins => List.cons_ne_nil second lines ?_
        · intro heq
          rw [List.dropWhile_cons_of_pos (by decide)] at heq
          have hsub : (second :: lines).dropWhile (· = []) <:+ second :: lines :=
            List.dropWhile_suffix _
          by_cases hrest : (second :: lines).dropWhile (· = []) = []
          · rw [hrest] at heq
            exact absurd (congrArg List.length heq) (by simp [joinLines, textLines, linesFrom])
          · rw [textLines_joinLines host.lineEnd
              (fun l hl => hsingle l (List.mem_cons_of_mem [] (hsub.subset hl))) hrest] at heq
            have hlength := hsub.length_le
            rw [heq] at hlength
            exact absurd hlength (by simp)
        · exact (List.cons.inj (hbegins rfl)).2
    · rw [List.dropWhile_cons_of_neg (by simpa using hfirst),
        textLines_joinLines host.lineEnd hsingle hne]
      exact iff_of_true rfl fun hhead => absurd (Option.some.inj hhead) hfirst

/-- **Outputs that are kept come back.** -/
theorem Kept.roundTrips (h : Kept host os) : RoundTrips host os := by
  have hread : parseLines host [] (fileLines os) = readAll host os := by
    have hrest := parseLines_of_inStep h.inStep h.distinct []
    rwa [List.append_nil, parseLines] at hrest
  rw [roundTrips_iff, hread]
  intro key value
  constructor
  · rintro ⟨text, hmem, rfl⟩
    obtain ⟨o, ho, heq⟩ := List.mem_map.mp hmem
    obtain ⟨rfl, rfl⟩ := Prod.mk.inj heq
    exact ⟨o, ho, rfl, ((textLines_read_iff o.legal).mpr (h.begins o ho)).symm⟩
  · rintro ⟨o, ho, rfl, rfl⟩
    exact ⟨o.form.read host, List.mem_map_of_mem ho,
      (textLines_read_iff o.legal).mpr (h.begins o ho)⟩

/-! ### Outputs that do not come back -/

theorem RoundTrips.exists_of_mem (h : RoundTrips host os)
    (hkey : key ∈ (parseLines host [] (fileLines os)).map Prod.fst) : ∃ o ∈ os, o.key = key := by
  obtain ⟨⟨_, text⟩, hmem, rfl⟩ := List.mem_map.mp hkey
  obtain ⟨o, ho, hokey, -⟩ := (roundTrips_iff.mp h _ _).mp ⟨text, hmem, rfl⟩
  exact ⟨o, ho, hokey⟩

theorem RoundTrips.exists_text (h : RoundTrips host os) (ho : o ∈ os) :
    ∃ text, (o.key, text) ∈ parseLines host [] (fileLines os) ∧ textLines text = o.form.value :=
  (roundTrips_iff.mp h _ _).mpr ⟨o, ho, rfl, rfl⟩

theorem RoundTrips.exists_of_set (h : RoundTrips host os) {rest : List Text}
    (hread : parseLines host [] (fileLines os) =
      parseLines host (set host outputs key value) rest) :
    ∃ o ∈ os, host.fold o.key = host.fold key := by
  obtain ⟨k, hk, hfold⟩ := exists_mem_set host outputs key value
  obtain ⟨o, ho, rfl⟩ := h.exists_of_mem (hread ▸ keys_subset_parseLines _ rest hk)
  exact ⟨o, ho, hfold⟩

theorem RoundTrips.distinct (h : RoundTrips host os) (hkeys : (os.map Output.key).Nodup) :
    (os.map fun o => host.fold o.key).Nodup := by
  have hdistinct : Distinct host (parseLines host [] (fileLines os)) :=
    Distinct.parseLines (show Distinct host [] from List.nodup_nil) (fileLines os)
  have hmap : (os.map fun o => host.fold o.key) = (os.map Output.key).map host.fold := by
    rw [List.map_map]
    rfl
  rw [hmap]
  refine List.Nodup.map_on ?_ hkeys
  rintro _ hk _ hk' hfold
  obtain ⟨o, ho, rfl⟩ := List.mem_map.mp hk
  obtain ⟨o', ho', rfl⟩ := List.mem_map.mp hk'
  obtain ⟨text, htext, -⟩ := h.exists_text ho
  obtain ⟨text', htext', -⟩ := h.exists_text ho'
  exact congrArg Prod.fst (List.inj_on_of_nodup_map hdistinct htext htext' hfold)

variable {c : Char} {lines : List Text}

theorem mem_of_fold_eq (hc : ∀ d, host.upper d = host.upper c → d = c)
    (h : host.fold a = host.fold b) (hb : c ∈ b) : c ∈ a := by
  have hmem : host.upper c ∈ a.map host.upper := by
    change host.upper c ∈ host.fold a
    rw [h]
    exact List.mem_map_of_mem hb
  obtain ⟨d, hd, hupper⟩ := List.mem_map.mp hmem
  exact hc d hupper ▸ hd

theorem eq_mem_of_cut {u v : Text} (hmarker : ¬ marker <:+: key)
    (h : key ++ '=' :: value = u ++ (marker ++ v)) : '=' ∈ u := by
  rcases List.append_eq_append_iff.mp h with ⟨w, rfl, hvalue⟩ | ⟨w, rfl, hrest⟩
  · match w with
    | [] => exact absurd (List.cons.inj hvalue).1 (by decide)
    | c :: w =>
      rw [(List.cons.inj hvalue).1]
      exact List.mem_append_right key List.mem_cons_self
  · match w with
    | [] => exact absurd (List.cons.inj hrest).1 (by decide)
    | [_] => exact absurd (List.cons.inj (List.cons.inj hrest).2).1 (by decide)
    | c :: d :: w =>
      obtain ⟨hc, hrest⟩ := List.cons.inj hrest
      have hd := (List.cons.inj hrest).1
      refine absurd ⟨u, w, ?_⟩ hmarker
      rw [← hc, ← hd, List.append_assoc]
      rfl

theorem splitAtMark_marker_assignment (hmarker : ¬ marker <:+: key) (h : marker <:+: value) :
    ∃ u v, splitAtMark marker (key ++ '=' :: value) = some (u, v) ∧ '=' ∈ u := by
  have hinfix : marker <:+: key ++ '=' :: value :=
    h.trans ((List.suffix_cons '=' value).trans (List.suffix_append key _)).isInfix
  cases hindex : indexOf marker (key ++ '=' :: value) with
  | none => exact absurd hinfix (indexOf_eq_none_iff.mp hindex)
  | some i =>
    obtain ⟨u, v, hline, rfl, -⟩ := indexOf_eq_some hindex
    have hmem : '=' ∈ u := eq_mem_of_cut hmarker hline
    refine ⟨u, v, ?_, hmem⟩
    rw [hline] at hindex ⊢
    exact splitAtMark_of_indexOf (List.ne_nil_of_mem hmem) hindex

theorem RoundTrips.inStep (h : RoundTrips host os)
    (hdistinct : (os.map fun o => host.fold o.key).Nodup) (hshift : ∀ o ∈ os, ¬ Shifted o) :
    ∀ o ∈ os, o.form.InStep o.key := by
  -- the reader is in step before `post`, so that it takes its first output as it stands
  have hall : ∀ post pre, os = pre ++ post → (∀ o ∈ pre, o.form.InStep o.key) →
      ∀ o ∈ post, o.form.InStep o.key := by
    intro post
    induction post with
    | nil => exact fun _ _ _ o ho => absurd ho List.not_mem_nil
    | cons o post ih =>
      intro pre hos hpre
      have ho : o ∈ os := hos ▸ List.mem_append_right pre List.mem_cons_self
      have hstep : o.form.InStep o.key := by
        obtain ⟨key, form, hne, heq, hmarker, hsingle, hlegal⟩ := o
        cases form with
        | heredoc delimiter lines => exact fun hlast => hshift _ ho ⟨hlast, delimiter, lines, rfl⟩
        | line value =>
          intro hvalue
          obtain ⟨u, v, hcut, hu⟩ := splitAtMark_marker_assignment hmarker hvalue
          have hpredistinct : (pre.map fun o => host.fold o.key).Nodup := by
            rw [hos, List.map_append] at hdistinct
            exact (List.nodup_append'.mp hdistinct).1
          have hread : parseLines host [] (fileLines os) =
              parseLines host
                (set host (readAll host pre) u (readValue host v [] (fileLines post)).1)
                (readValue host v [] (fileLines post)).2 := by
            rw [hos, fileLines_append, parseLines_of_inStep hpre hpredistinct, fileLines_cons]
            exact parseLines_heredoc hcut (fileLines post)
          obtain ⟨o', -, hfold⟩ := h.exists_of_set hread
          exact o'.no_eq (mem_of_fold_eq host.upper_eq hfold hu)
      refine List.forall_mem_cons.mpr ⟨hstep, ih (pre ++ [o]) ?_ ?_⟩
      · rw [hos, List.append_assoc]
        rfl
      · exact List.forall_mem_append.mpr ⟨hpre, List.forall_mem_cons.mpr
          ⟨hstep, List.forall_mem_nil _⟩⟩
  exact hall os [] rfl fun _ hnil => absurd hnil List.not_mem_nil

/-- **Outputs that come back are kept**, unless a key is read in another way. -/
theorem RoundTrips.kept (h : RoundTrips host os) (hkeys : (os.map Output.key).Nodup)
    (hshift : ∀ o ∈ os, ¬ Shifted o) : Kept host os := by
  have hdistinct := h.distinct hkeys
  have hstep := h.inStep hdistinct hshift
  refine ⟨hstep, ?_, hdistinct⟩
  intro o ho
  have hread : parseLines host [] (fileLines os) = readAll host os := by
    have hrest := parseLines_of_inStep hstep hdistinct []
    rwa [List.append_nil, parseLines] at hrest
  -- the only value that is read for the key is the one that the step assigns
  have hreport :
      Reports (parseLines host [] (fileLines os)) o.key (textLines (o.form.read host)) := by
    rw [hread]
    exact ⟨o.form.read host, List.mem_map_of_mem ho, rfl⟩
  obtain ⟨o', ho', hkey, hvalue⟩ := (roundTrips_iff.mp h _ _).mp hreport
  have heq : o' = o := List.inj_on_of_nodup_map hkeys ho' ho hkey
  subst heq
  exact (textLines_read_iff o'.legal).mp hvalue.symm

/-! ### Keys that end in `<` -/

theorem marker_infix_of_fold_eq (h : host.fold a = host.fold b) (hb : marker <:+: b) :
    marker <:+: a := by
  obtain ⟨u, v, rfl⟩ := hb
  rw [Host.fold, Host.fold, List.map_append, List.map_append] at h
  obtain ⟨w, v', rfl, hw, -⟩ := List.map_eq_append_iff.mp h
  obtain ⟨u', m, rfl, -, hm⟩ := List.map_eq_append_iff.mp hw
  obtain ⟨c, m', rfl, hc, hm'⟩ := List.map_eq_cons_iff.mp hm
  obtain ⟨d, m'', rfl, hd, hnil⟩ := List.map_eq_cons_iff.mp hm'
  rw [List.map_eq_nil_iff.mp hnil, host.upper_lt c hc, host.upper_lt d hd]
  exact ⟨u', v', rfl⟩

theorem eq_assignment_of_givenBy {line : Text} (hlast : key.getLast? = some '<')
    (h : GivenBy host (key, text) line) :
    ∃ k, line = k ++ '=' :: text ∧ host.fold key = host.fold k := by
  cases h with
  | @heredoc k delimiter hcut hfold =>
    have hupper := congrArg List.getLast? hfold
    rw [Host.fold, Host.fold, List.getLast?_map, List.getLast?_map, hlast] at hupper
    obtain ⟨c, hc, hlt⟩ := Option.map_eq_some_iff.mp hupper.symm
    exact absurd (host.upper_lt c hlt ▸ hc) (getLast?_ne_of_splitAtMark hcut)
  | @assignment k hnone hcut hfold =>
    exact ⟨k, (splitAtMark_eq_some hcut).1, hfold⟩

/-- The reader takes the last `<` of the key for a part of `<<`, and does not find the
delimiter that begins with the other one. -/
theorem parseLines_shifted (host : Host) (outputs : Outputs) {k : Text} (hk : k ≠ [])
    (hmarker : ¬ marker <:+: k ++ ['<']) (htext : text ≠ '<' :: delimiter) :
    ∃ value, parseLines host outputs [k ++ ['<'] ++ (marker ++ delimiter), text, delimiter] =
      set host outputs k value := by
  have hinner : ¬ marker <:+: k := fun h => hmarker (h.trans (List.prefix_append k ['<']).isInfix)
  have hlast : k.getLast? ≠ some '<' := by
    intro hlast
    obtain ⟨w, rfl⟩ := List.getLast?_eq_some_iff.mp hlast
    exact hmarker ⟨w, [], by rw [List.append_nil, List.append_assoc]; rfl⟩
  have hline : k ++ ['<'] ++ (marker ++ delimiter) = k ++ (marker ++ '<' :: delimiter) := by
    rw [List.append_assoc]
    rfl
  have hnot : '<' :: delimiter ∉ [text, delimiter] := by
    rw [List.mem_cons, List.mem_singleton, not_or]
    exact ⟨htext.symm, fun h => absurd (congrArg List.length h) (by simp)⟩
  rw [hline, parseLines_heredoc (splitAtMark_marker hk hinner hlast ('<' :: delimiter)),
    readValue_of_not_mem hnot, parseLines]
  exact ⟨_, rfl⟩

theorem parseLines_lt (host : Host) (outputs : Outputs) (hmem : '=' ∈ delimiter)
    (lines : List Text) :
    ∃ key value, marker <:+: key ∧
      parseLines host outputs (('<' :: (marker ++ delimiter)) :: lines) =
        parseLines host (set host outputs key value) lines := by
  have hnone : splitAtMark marker ('<' :: (marker ++ delimiter)) = none := rfl
  have hinfix : ['='] <:+: '<' :: (marker ++ delimiter) := by
    obtain ⟨u, v, rfl⟩ := List.append_of_mem hmem
    exact ⟨'<' :: (marker ++ u), v, by simp [marker]⟩
  cases hindex : indexOf ['='] ('<' :: (marker ++ delimiter)) with
  | none => exact absurd hinfix (indexOf_eq_none_iff.mp hindex)
  | some i =>
    obtain ⟨u, v, hline, rfl, -⟩ := indexOf_eq_some hindex
    match u with
    | [] => exact absurd (List.cons.inj hline).1 (by decide)
    | [_] => exact absurd (List.cons.inj (List.cons.inj hline).2).1 (by decide)
    | a :: b :: u =>
      obtain ⟨ha, hrest⟩ := List.cons.inj hline
      have hb : '<' = b := (List.cons.inj hrest).1
      have hcut : splitAtMark ['='] ('<' :: (marker ++ delimiter)) = some (a :: b :: u, v) := by
        rw [hline] at hindex ⊢
        exact splitAtMark_of_indexOf (List.cons_ne_nil a (b :: u)) hindex
      refine ⟨a :: b :: u, v, ⟨[], u, ?_⟩, parseLines_assignment hnone hcut lines⟩
      rw [← ha, ← hb]
      rfl

theorem length_eq_of_fold_eq (h : host.fold a = host.fold b) :
    a.length = b.length := by
  have hlength := congrArg List.length h
  rwa [Host.fold, Host.fold, List.length_map, List.length_map] at hlength

theorem lines_of_heredoc (h : o.form = .heredoc delimiter lines) :
    o.lines = (o.key ++ (marker ++ delimiter)) :: (lines ++ [delimiter]) := by
  rw [Output.lines, h]

/-- **A value under a key that ends in `<`** is read from the delimiter only, if at all. -/
theorem delimiter_eq_of_mem
    (hsingle : ∀ l ∈ (key ++ (marker ++ delimiter)) :: (lines ++ [delimiter]), Single l)
    (hlast : key.getLast? = some '<') (hold : ∀ text, (key, text) ∉ outputs) (hmem : (key, text) ∈
      parseLines host outputs ((key ++ (marker ++ delimiter)) :: (lines ++ [delimiter])))
    (hvalue : textLines text = lines) :
    lines = [text] ∧ ∃ k, delimiter = k ++ '=' :: text := by
  rcases mem_parseLines hmem with hmem | ⟨line, hline, hgiven⟩
  · exact absurd hmem (hold text)
  obtain ⟨k, rfl, hfold⟩ := eq_assignment_of_givenBy hlast hgiven
  have htext : Single text :=
    (List.forall_mem_cons.mp (single_append.mp (hsingle _ hline)).2).2
  have hlines : lines = [text] := hvalue.symm.trans (textLines_single htext)
  refine ⟨hlines, k, ?_⟩
  rcases List.mem_cons.mp hline with hheader | hrest
  · obtain ⟨-, hsep⟩ := List.append_inj hheader (length_eq_of_fold_eq hfold).symm
    exact absurd (List.cons.inj hsep).1 (by decide)
  · rw [hlines] at hrest
    rcases List.mem_cons.mp hrest with heq | hdelimiter
    · have hlength := congrArg List.length heq
      rw [List.length_append, List.length_cons] at hlength
      omega
    · exact (List.mem_singleton.mp hdelimiter).symm

theorem not_roundTrips_of_shifted (hkept : Kept host os) (ho : Shifted o)
    (hnew : o.key ∉ os.map Output.key) : ¬ RoundTrips host (os ++ [o]) := by
  intro h
  obtain ⟨hlast, delimiter, lines, hform⟩ := ho
  have hlines := lines_of_heredoc hform
  have hsingle : ∀ l ∈ o.lines, Single l := fun l hl => single_of_mem_lines hl
  have hold : ∀ text, (o.key, text) ∉ readAll host os := by
    intro text hmem
    obtain ⟨o', ho', hpair⟩ := List.mem_map.mp hmem
    exact hnew (List.mem_map.mpr ⟨o', ho', congrArg Prod.fst hpair⟩)
  have hread : parseLines host [] (fileLines (os ++ [o])) =
      parseLines host (readAll host os) o.lines := by
    rw [fileLines_append, parseLines_of_inStep hkept.inStep hkept.distinct, fileLines_cons]
    rw [fileLines, List.flatMap_nil, List.append_nil]
  obtain ⟨text, htext, hvalue⟩ :=
    h.exists_text (List.mem_append_right os (List.mem_singleton_self o))
  rw [hread, hlines] at htext
  rw [hform] at hvalue
  rw [hlines] at hsingle hread
  obtain ⟨rfl, k, hdelimiter⟩ := delimiter_eq_of_mem hsingle hlast hold htext hvalue
  obtain ⟨k₀, hkey⟩ := List.getLast?_eq_some_iff.mp hlast
  by_cases hk₀ : k₀ = []
  · -- the line of the key is read as an assignment to a key that no output has
    have hmem : '=' ∈ delimiter := by
      rw [hdelimiter]
      exact List.mem_append_right k List.mem_cons_self
    obtain ⟨k', value, hinfix, hset⟩ := parseLines_lt host (readAll host os) hmem [text, delimiter]
    rw [hkey, hk₀] at hread
    obtain ⟨o', -, hfold⟩ := h.exists_of_set (hread.trans hset)
    exact o'.no_marker (marker_infix_of_fold_eq hfold hinfix)
  · -- the line of the key takes the rest of the file for its value
    have hne : text ≠ '<' :: delimiter := by
      intro heq
      have hlength := congrArg List.length heq
      rw [hdelimiter, List.length_cons, List.length_append, List.length_cons] at hlength
      omega
    obtain ⟨value, hset⟩ :=
      parseLines_shifted host (readAll host os) hk₀ (hkey ▸ o.no_marker) hne
    rw [hkey] at htext hold
    have hmem : (k₀ ++ ['<'], text) ∈ set host (readAll host os) k₀ value := hset ▸ htext
    rcases mem_set hmem with hmem | ⟨hfold, -⟩
    · exact hold text hmem
    · have hlength := length_eq_of_fold_eq hfold
      rw [List.length_append, List.length_singleton] at hlength
      omega

/-! ### The law -/

theorem Kept.of_prefix {os' : List Output} (h : Kept host os) (hpre : os' <+: os) :
    Kept host os' :=
  ⟨fun o ho => h.inStep o (hpre.subset ho), fun o ho => h.begins o (hpre.subset ho),
    h.distinct.sublist (hpre.sublist.map _)⟩

/-- **Outputs come back exactly if they are kept**, at every length that a file has on its way;
and a file that comes back without being kept has a key that is read in another way. -/
theorem roundTrips_iff_kept (hkeys : (os.map Output.key).Nodup) :
    ((∀ os', os' <+: os → RoundTrips host os') ↔ Kept host os) ∧
      (RoundTrips host os → Kept host os ∨ ∃ o ∈ os, Shifted o) := by
  refine ⟨⟨fun h => ?_, fun h os' hpre => (h.of_prefix hpre).roundTrips⟩, fun h => ?_⟩
  · -- the outputs are kept one after the other
    induction os using List.reverseRecOn with
    | nil =>
      exact ⟨fun _ ho => absurd ho List.not_mem_nil, fun _ ho => absurd ho List.not_mem_nil,
        List.nodup_nil⟩
    | append_singleton os o ih =>
      have hround : RoundTrips host (os ++ [o]) := h _ (List.prefix_refl _)
      have hsplit := hkeys
      rw [List.map_append, List.map_singleton] at hsplit
      obtain ⟨hos, -, hnew⟩ := List.nodup_append'.mp hsplit
      have hkept : Kept host os :=
        ih hos fun os' hpre => h os' (hpre.trans (List.prefix_append os [o]))
      refine hround.kept hkeys ?_
      intro o' ho' hshift
      rcases List.mem_append.mp ho' with hmem | hlast
      · obtain ⟨hend, delimiter, lines, hform⟩ := hshift
        have hstep := hkept.inStep o' hmem
        rw [hform] at hstep
        exact hstep hend
      · rw [List.mem_singleton] at hlast
        subst hlast
        exact not_roundTrips_of_shifted hkept hshift
          (fun hmem => hnew hmem (List.mem_singleton_self _)) hround
  · by_cases hshift : ∃ o ∈ os, Shifted o
    · exact .inr hshift
    · exact .inl (h.kept hkeys fun o ho hs => hshift ⟨o, ho, hs⟩)

/-! ### A runtime -/

theorem eq_of_toUpper {m : Char} (hm : ∀ n < 26, (Char.ofNat (97 + n)).toUpper ≠ m)
    (h : c.toUpper = m) : c = m := by
  by_cases hletter : 'a'.val ≤ c.val ∧ c.val ≤ 'z'.val
  · obtain ⟨n, hn, rfl⟩ := JsString.exists_letter hletter
    exact absurd h (hm n hn)
  · have hkept : c.toUpper = c := dif_neg hletter
    exact hkept.symm.trans h

/-- A runtime that ends lines with a line feed, and folds the case of ASCII letters. -/
def unixHost : Host where
  newLine := ['\n']
  upper := Char.toUpper
  lineEnd := .lf
  upper_eq _ h := eq_of_toUpper (by decide) h
  upper_lt _ h := eq_of_toUpper (by decide) h

/-- An output `note` on a line of its own. -/
def note (value : Text) (h : Single value) : Output :=
  ⟨['n', 'o', 't', 'e'], .line value, by decide, by decide, by decide, by decide, h⟩

/-- `note=x` comes back. -/
theorem roundTrips_iff_kept_note : RoundTrips unixHost [note ['x'] (by decide)] := by
  have hkeys : ([note ['x'] (by decide)].map Output.key).Nodup := List.nodup_singleton _
  refine ((roundTrips_iff_kept hkeys).1.mpr ⟨?_, ?_, List.nodup_singleton _⟩) _ (List.prefix_refl _)
  · intro o ho
    rw [List.mem_singleton.mp ho]
    exact fun h : marker <:+: ['x'] => absurd h (by decide)
  · intro o ho
    rw [List.mem_singleton.mp ho]
    trivial

/-- `note=x<<y` is read as an output `note=x`, whose value is empty. -/
theorem not_roundTrips_note :
    ¬ ∀ (host : Host) (os : List Output), (os.map Output.key).Nodup → RoundTrips host os := by
  intro hall
  have h := hall unixHost [note ['x', '<', '<', 'y'] (by decide)] (List.nodup_singleton _)
  have hread : parseLines unixHost [] (fileLines [note ['x', '<', '<', 'y'] (by decide)]) =
      [(['n', 'o', 't', 'e', '=', 'x'], [])] := by decide +kernel
  have hmem : ['n', 'o', 't', 'e', '=', 'x'] ∈
      ([(['n', 'o', 't', 'e', '=', 'x'], [])] : Outputs).map Prod.fst := List.mem_singleton_self _
  obtain ⟨o, ho, heq⟩ := h.exists_of_mem (hread ▸ hmem)
  rw [List.mem_singleton.mp ho] at heq
  exact absurd heq (by decide)

end CompareVI.OutputFile
