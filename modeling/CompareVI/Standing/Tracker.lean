import CompareVI.Framework.JsString
import Mathlib.Data.List.Dedup

/-!
# The issue tracker

What the standing tools change: issues with a number, a state, labels and comments. A
repository tells its labels apart up to case and outer white space, and shows each of them
in one spelling (`LabelNames`), so the labels of an issue are a list of spelled names
without repetition (`LabelSet`). Replacing the labels of an issue goes through
`LabelSet.of`, which spells the names that are asked for.
-/

open Framework

namespace CompareVI.Standing

def labelKey (name : String) : String := JsString.toLowerCase (JsString.trim name)

@[simp] theorem labelKey_labelKey (name : String) : labelKey (labelKey name) = labelKey name := by
  unfold labelKey
  rw [JsString.trim_toLowerCase_trim, JsString.toLowerCase_toLowerCase]

/-- The spelling a repository has for each of its labels. -/
structure LabelNames where
  spell : String → String
  /-- A label is spelled as it is called, up to case and outer white space. -/
  labelKey_spell : ∀ name, labelKey (spell name) = labelKey name
  /-- Names that differ in case or outer white space only are one label. -/
  spell_congr : ∀ a b, labelKey a = labelKey b → spell a = spell b
  trim_spell : ∀ name, JsString.trim (spell name) = spell name

def LabelNames.lower : LabelNames where
  spell := labelKey
  labelKey_spell := labelKey_labelKey
  spell_congr := fun _ _ h => h
  trim_spell := fun name => JsString.trim_toLowerCase_trim name

@[simp] theorem LabelNames.spell_spell (names : LabelNames) (name : String) :
    names.spell (names.spell name) = names.spell name :=
  names.spell_congr _ _ (names.labelKey_spell name)

@[ext]
structure LabelSet (names : LabelNames) where
  labels : List String
  nodup : labels.Nodup
  /-- Every label is spelled as the repository spells it, and is not blank. -/
  spelled : ∀ label ∈ labels, names.spell label = label ∧ label ≠ ""

variable {names : LabelNames}

def LabelSet.of (names : LabelNames) (requested : List String) : LabelSet names where
  labels := ((requested.map names.spell).filter (· ≠ "")).dedup
  nodup := List.nodup_dedup _
  spelled := by
    intro label hlabel
    obtain ⟨hmem, hne⟩ := List.mem_filter.mp (List.mem_dedup.mp hlabel)
    obtain ⟨name, -, rfl⟩ := List.mem_map.mp hmem
    exact ⟨names.spell_spell name, by simpa using hne⟩

@[ext]
structure Issue (names : LabelNames) where
  number : ℕ
  isOpen : Bool
  labelSet : LabelSet names
  comments : List String

def Issue.labels (issue : Issue names) : List String := issue.labelSet.labels

@[ext]
structure Tracker (names : LabelNames) where
  issues : List (Issue names)
  nodup : (issues.map Issue.number).Nodup

def Tracker.change (tracker : Tracker names) (f : Issue names → Issue names)
    (hf : ∀ issue, (f issue).number = issue.number) : Tracker names where
  issues := tracker.issues.map f
  nodup := by
    have hnumbers : Issue.number ∘ f = Issue.number := funext hf
    rw [List.map_map, hnumbers]
    exact tracker.nodup

def Tracker.update (tracker : Tracker names) (number : ℕ) (f : Issue names → Issue names)
    (hf : ∀ issue, (f issue).number = issue.number) : Tracker names :=
  tracker.change (fun issue => if issue.number = number then f issue else issue) fun issue => by
    by_cases h : issue.number = number
    · rw [if_pos h, hf]
    · rw [if_neg h]

/-- Give every issue the labels that `f` says. -/
def Tracker.relabel (tracker : Tracker names) (f : Issue names → LabelSet names) :
    Tracker names :=
  tracker.change (fun issue => { issue with labelSet := f issue }) fun _ => rfl

def Tracker.patchLabels (tracker : Tracker names) (number : ℕ) (requested : List String) :
    Tracker names :=
  tracker.relabel fun issue =>
    if issue.number = number then LabelSet.of names requested else issue.labelSet

def Tracker.issue? (tracker : Tracker names) (number : ℕ) : Option (Issue names) :=
  tracker.issues.find? (·.number = number)

def Issue.carries (issue : Issue names) (name : String) : Bool :=
  issue.labels.any fun label => labelKey label = labelKey name

/-- The first hundred open issues, as `gh issue list` shows them. -/
def Tracker.listOpen (tracker : Tracker names) : List (Issue names) :=
  (tracker.issues.filter (·.isOpen)).take 100

def Tracker.listByLabel (tracker : Tracker names) (name : String) : List (Issue names) :=
  (tracker.issues.filter fun issue => issue.isOpen && issue.carries name).take 100

def Issue.without (labels : List String) (issue : Issue names) : Issue names :=
  { issue with
    labelSet := {
      labels := issue.labelSet.labels.filter fun label => labelKey label ∉ labels.map labelKey
      nodup := issue.labelSet.nodup.filter _
      spelled := fun label h => issue.labelSet.spelled label (List.mem_filter.mp h).1 } }

def Issue.comment (text : String) (issue : Issue names) : Issue names :=
  { issue with comments := issue.comments ++ [text] }

def Issue.close (text : String) (issue : Issue names) : Issue names :=
  { issue.comment text with isOpen := false }

def Tracker.removeLabels (tracker : Tracker names) (number : ℕ) (labels : List String) :
    Tracker names :=
  tracker.update number (Issue.without labels) fun _ => rfl

def Tracker.comment (tracker : Tracker names) (number : ℕ) (text : String) : Tracker names :=
  tracker.update number (Issue.comment text) fun _ => rfl

def Tracker.close (tracker : Tracker names) (number : ℕ) (text : String) : Tracker names :=
  tracker.update number (Issue.close text) fun _ => rfl

/-! ### Facts about label sets -/

theorem LabelSet.labels_of_sublist (set : LabelSet names) {labels : List String}
    (h : labels.Sublist set.labels) : (LabelSet.of names labels).labels = labels := by
  have hspell : labels.map names.spell = labels := by
    refine (List.map_congr_left fun label hlabel => ?_).trans (List.map_id labels)
    exact (set.spelled label (h.subset hlabel)).1
  have hfilter : labels.filter (· ≠ "") = labels := by
    refine List.filter_eq_self.mpr fun label hlabel => ?_
    simpa using (set.spelled label (h.subset hlabel)).2
  unfold LabelSet.of
  dsimp only
  rw [hspell, hfilter, List.Nodup.dedup (set.nodup.sublist h)]

variable {f : Issue names → LabelSet names} {label : String}

theorem LabelSet.mem_of {requested : List String} :
    label ∈ (LabelSet.of names requested).labels ↔
      label ≠ "" ∧ ∃ name ∈ requested, names.spell name = label := by
  unfold LabelSet.of
  rw [List.mem_dedup, List.mem_filter, List.mem_map]
  simp [and_comm]

theorem LabelSet.trim_eq (set : LabelSet names) (h : label ∈ set.labels) :
    JsString.trim label = label := by
  have hspell := names.trim_spell label
  rwa [(set.spelled label h).1] at hspell

theorem LabelSet.eq_of_labelKey (set : LabelSet names) {a b : String} (ha : a ∈ set.labels)
    (hb : b ∈ set.labels) (h : labelKey a = labelKey b) : a = b := by
  rw [← (set.spelled a ha).1, ← (set.spelled b hb).1]
  exact names.spell_congr a b h

/-! ### Facts about trackers -/

theorem Tracker.eq_of_number (tracker : Tracker names) {a b : Issue names}
    (ha : a ∈ tracker.issues) (hb : b ∈ tracker.issues) (h : a.number = b.number) : a = b :=
  List.inj_on_of_nodup_map tracker.nodup ha hb h

theorem Tracker.relabel_congr (tracker : Tracker names) {g : Issue names → LabelSet names}
    (h : ∀ issue ∈ tracker.issues, f issue = g issue) : tracker.relabel f = tracker.relabel g := by
  refine Tracker.ext (List.map_congr_left fun issue hissue => ?_)
  rw [h issue hissue]

theorem Tracker.relabel_self (tracker : Tracker names) :
    tracker.relabel Issue.labelSet = tracker :=
  Tracker.ext (List.map_id _)

theorem Tracker.mem_relabel {tracker : Tracker names} {issue : Issue names} :
    issue ∈ (tracker.relabel f).issues ↔
      ∃ old ∈ tracker.issues, issue = { old with labelSet := f old } := by
  unfold Tracker.relabel Tracker.change
  rw [List.mem_map]
  exact exists_congr fun old => and_congr_right fun _ => eq_comm

theorem Tracker.issue?_update (tracker : Tracker names) (number : ℕ)
    (f : Issue names → Issue names) (hf : ∀ issue, (f issue).number = issue.number) :
    (tracker.update number f hf).issue? number = (tracker.issue? number).map f := by
  unfold Tracker.update Tracker.change Tracker.issue?
  rw [List.find?_map]
  have hsame : ((fun issue : Issue names => decide (issue.number = number)) ∘
      fun issue => if issue.number = number then f issue else issue) =
      fun issue => decide (issue.number = number) := funext fun issue => by
    rw [Function.comp_apply]
    by_cases h : issue.number = number
    · rw [if_pos h, hf]
    · rw [if_neg h]
  rw [hsame]
  cases hfind : tracker.issues.find? fun issue => decide (issue.number = number) with
  | none => rfl
  | some issue =>
    have hnumber := List.find?_some hfind
    rw [Option.map_some, Option.map_some, if_pos (of_decide_eq_true hnumber)]

section Commands

variable {tracker : Tracker names} {number : ℕ} {issue : Issue names}

theorem Tracker.issue?_removeLabels (h : tracker.issue? number = some issue)
    (labels : List String) :
    (tracker.removeLabels number labels).issue? number = some (issue.without labels) :=
  (tracker.issue?_update number _ _).trans (congrArg (Option.map _) h)

theorem Tracker.issue?_comment (h : tracker.issue? number = some issue) (text : String) :
    (tracker.comment number text).issue? number = some (issue.comment text) :=
  (tracker.issue?_update number _ _).trans (congrArg (Option.map _) h)

theorem Tracker.issue?_close (h : tracker.issue? number = some issue) (text : String) :
    (tracker.close number text).issue? number = some (issue.close text) :=
  (tracker.issue?_update number _ _).trans (congrArg (Option.map _) h)

end Commands

end CompareVI.Standing
