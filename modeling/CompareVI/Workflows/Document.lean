import CompareVI.Framework.Edit
import CompareVI.Framework.Json
import CompareVI.Framework.PsString
import Mathlib.Data.List.Infix

/-!
# Workflow documents

A workflow is a tree of mappings, sequences and scalars. The program loads it, edits it in place
and prints it; quoting and comments are no part of the tree, and no part of it is shared. A
transform is an `Edit` of the tree that fails where the program raises.

A step is an entry of a step list, and `onJob` and `onEachJob` make an edit of a job one of the
document. A job may have anything for its steps: what is no sequence can be looked through, but
not edited (`editSteps`). The ways the transforms fetch the steps of a job and put them back are
`withSteps`, `rewriteSteps`, `setdefaultSteps` and `rebuildSteps`.

`jobAt` is the mapping of a job and `stepEntries` what a loop over its steps goes through. What a
transform does is said by relations between these: `JobFrame S` for one job, `Docs Q` for all
the jobs of a document (`onJob_respects`, `onEachJob_respects`).
-/

open Framework

namespace CompareVI.Workflows

abbrev Mapping := List (String × Json)

/-! ### Values -/

/-- `bool(value)`. -/
def truthy : Json → Bool
  | .null => false
  | .bool b => b
  | .num q => q != 0
  | .str s => s != ""
  | .arr xs => !xs.isEmpty
  | .obj fields => !fields.isEmpty

/-- `value or default`, of a value that may be missing. -/
def orElse (value : Option Json) (default : Json) : Json :=
  match value with
  | some value => if truthy value then value else default
  | none => default

/-- What a `for` loop goes through: the entries of a sequence, the keys of a mapping, the
characters of a text. -/
def entriesOf : Json → Option (List Json)
  | .arr entries => some entries
  | .obj fields => some (fields.map fun field => .str field.1)
  | .str s => some (s.toList.map fun c => .str (String.singleton c))
  | .null | .bool _ | .num _ => none

/-- `mapping[key] = value`. -/
def put (key : String) (value : Json) (m : Mapping) : Mapping := JsObject.setField key value m

/-- `a == b` of scalars: a truth value equals the number it stands for. -/
def sameScalar : Json → Json → Bool
  | .bool b, .num q | .num q, .bool b => q == if b then 1 else 0
  | a, b => a = b

/-- `a == b`, where `b` is a scalar, a sequence of texts or a mapping to scalars: the order of
the keys does not count. -/
def equals : Json → Json → Bool
  | .obj a, .obj b =>
    a.length == b.length && a.all fun field => (b.lookup field.1).any (sameScalar field.2)
  | a, b => sameScalar a b

/-- `text in s`. -/
def containsText (text s : String) : Bool := decide (text.toList <:+: s.toList)

mutual

/-- `text in str(value)`, for a text of letters and spaces: it stands inside one of the texts of
the value, the keys of mappings included. -/
def mentions (text : String) : Json → Bool
  | .str s => containsText text s
  | .arr xs => anyMentions text xs
  | .obj fields => fieldsMention text fields
  | .null | .bool _ | .num _ => false

def anyMentions (text : String) : List Json → Bool
  | [] => false
  | x :: xs => mentions text x || anyMentions text xs

def fieldsMention (text : String) : List (String × Json) → Bool
  | [] => false
  | (key, value) :: fields =>
    containsText text key || mentions text value || fieldsMention text fields

end

def lines (texts : List String) : String := "\n".intercalate texts

theorem lookup_put (key k : String) (value : Json) (m : Mapping) :
    (put key value m).lookup k = if k = key then some value else m.lookup k :=
  JsObject.lookup_setField key k value m

/-! ### Setting keys -/

/-- `mapping[key] = value` unless it has that value. -/
def ensureKey (key : String) (value : Json) (m : Mapping) : Mapping × Bool :=
  if (m.lookup key).any (equals · value) then (m, false) else (put key value m, true)

def ensureKeys : List (String × Json) → Mapping → Mapping × Bool
  | [], m => (m, false)
  | (key, value) :: rest, m =>
    let (m', changed) := ensureKey key value m
    let (m'', changed') := ensureKeys rest m'
    (m'', changed || changed')

/-- `del mapping[key]`, where the key is there. -/
def dropKey (key : String) (m : Mapping) : Mapping × Bool :=
  (m.filter fun field => field.1 != key, m.any fun field => field.1 == key)

theorem equals_str {value : Json} {s : String} (h : equals value (.str s) = true) :
    value = .str s := by
  cases value <;> simp_all [equals, sameScalar]

theorem lookup_ensureKey_str (key s : String) (m : Mapping) :
    (ensureKey key (.str s) m).1.lookup key = some (.str s) := by
  unfold ensureKey
  split
  · next h =>
    obtain ⟨value, hvalue, hequals⟩ := (Option.any_eq_true _ _).mp h
    rw [hvalue, equals_str hequals]
  · rw [lookup_put, if_pos rfl]

theorem lookup_ensureKey_of_ne {key k : String} (h : k ≠ key) (value : Json) (m : Mapping) :
    (ensureKey key value m).1.lookup k = m.lookup k := by
  unfold ensureKey
  split
  · rfl
  · rw [lookup_put, if_neg h]

theorem lookup_ensureKeys_of_ne {k : String} {pairs : List (String × Json)}
    (h : ∀ pair ∈ pairs, k ≠ pair.1) (m : Mapping) :
    (ensureKeys pairs m).1.lookup k = m.lookup k := by
  induction pairs generalizing m with
  | nil => rfl
  | cons pair rest ih =>
    have hrest := ih (fun other hother => h other (List.mem_cons_of_mem pair hother))
      (ensureKey pair.1 pair.2 m).1
    exact hrest.trans (lookup_ensureKey_of_ne (h pair List.mem_cons_self) pair.2 m)

/-! ### Steps -/

def named (name : String) (step : Json) : Bool := step.get? "name" = some (.str name)

def hasId (id : String) (step : Json) : Bool := step.get? "id" = some (.str id)

/-- `str(st.get('uses', ''))`, as far as it starts or ends like the name of an action: the
printed form of what is no text does neither. -/
def usesText (step : Json) : String :=
  match step.get? "uses" with
  | some (.str uses) => uses
  | _ => ""

/-- `str(st.get('uses', '')).startswith(start)`. -/
def usesStarts (start : String) (step : Json) : Bool :=
  start.toList.isPrefixOf (usesText step).toList

/-- `str(st.get('uses', '')).endswith(ending)`. -/
def usesEnds (ending : String) (step : Json) : Bool :=
  ending.toList.isSuffixOf (usesText step).toList

def isCheckout (step : Json) : Bool := usesStarts "actions/checkout@" step

def onMapping (f : Mapping → Mapping × Bool) (step : Json) : Json × Bool :=
  match step with
  | .obj fields => ((.obj (f fields).1), (f fields).2)
  | other => (other, false)

def updateFirst (p : Json → Bool) (f : Json → Json × Bool) : Edit (List Json) :=
  Edit.onFirst (fun step => some (p step)) fun step => some ([(f step).1], (f step).2)

/-- `_insert_before`, or `_insert_step_relative` with `before`: a step before the first one of a
name. -/
def insertBefore (anchor : Json → Bool) (new : Json) : Edit (List Json) :=
  Edit.onFirst (fun step => some (anchor step)) fun step => some ([new, step], true)

/-- `_insert_after`, or `_insert_step_relative` with `after`. -/
def insertAfter (anchor : Json → Bool) (new : Json) : Edit (List Json) :=
  Edit.onFirst (fun step => some (anchor step)) fun step => some ([step, new], true)

def insertAtAny (insert : (Json → Bool) → Edit (List Json)) : List String → Edit (List Json)
  | [] => Edit.skip
  | name :: rest => Edit.ifAny (named name) (insert (named name)) (insertAtAny insert rest)

/-! ### Jobs -/

/-- An edit of a step list on the value of `steps`: what is no sequence can be gone through, but
has no methods to change it. -/
def editSteps (edit : Edit (List Json)) : Edit Json
  | .arr steps => (edit steps).map fun (steps', changed) => (.arr steps', changed)
  | other => do
    let entries ← entriesOf other
    let (_, changed) ← edit entries
    if changed then none else some (other, false)

/-- `job.get('steps') or []`. -/
def stepsOf (job : Mapping) : Json := orElse (job.lookup "steps") (.arr [])

def withSteps (edit : Edit (List Json)) : Edit Mapping := fun job => do
  let (steps, changed) ← editSteps edit (stepsOf job)
  return (if changed then put "steps" steps job else job, changed)

def rewriteSteps (edit : Edit (List Json)) : Edit Mapping := fun job => do
  let (steps, changed) ← editSteps edit (stepsOf job)
  return (put "steps" steps job, changed)

/-- `steps = job.setdefault('steps', [])`. -/
def setdefaultSteps (edit : Edit (List Json)) : Edit Mapping := fun job => do
  let (steps, changed) ← editSteps edit ((job.lookup "steps").getD (.arr []))
  return (put "steps" steps job, changed)

/-- A new sequence is made of what a loop over `job.setdefault('steps', [])` goes through. -/
def rebuildSteps (edit : Edit (List Json)) : Edit Mapping := fun job => do
  let entries ← entriesOf ((job.lookup "steps").getD (.arr []))
  let (steps, changed) ← edit entries
  return (put "steps" (.arr steps) job, changed)

/-! ### The jobs of a document -/

/-- `doc.get('jobs') or {}`. -/
def jobsOf : Json → Option Json
  | .obj doc => some (orElse (doc.lookup "jobs") (.obj []))
  | _ => none

/-- `doc['jobs'] = jobs`. -/
def putJobs (jobs : Mapping) : Json → Json
  | .obj doc => .obj (put "jobs" (.obj jobs) doc)
  | other => other

def asMapping : Option Json → Option Mapping
  | some (.obj job) => some job
  | _ => none

/-- An edit of one job, if it is a mapping; jobs that are no mapping have no `get`. -/
def onJob (name : String) (edit : Edit Mapping) : Edit Json := fun doc => do
  match ← jobsOf doc with
  | .obj jobs =>
    match asMapping (jobs.lookup name) with
    | some job =>
      let (job', changed) ← edit job
      return (putJobs (put name (.obj job') jobs) doc, changed)
    | none => return (doc, false)
  | _ => none

def editJobs (edit : String → Edit Mapping) : Edit Mapping
  | [] => some ([], false)
  | (name, value) :: rest => do
    match asMapping (some value) with
    | some job =>
      let (job', changed) ← edit name job
      let (rest', changed') ← editJobs edit rest
      return ((name, .obj job') :: rest', changed || changed')
    | none =>
      let (rest', changed) ← editJobs edit rest
      return ((name, value) :: rest', changed)

/-- `jobs` is a mapping. -/
def hasJobs (doc : Json) : Option Bool := do
  match ← jobsOf doc with
  | .obj _ => return true
  | _ => return false

/-- `if not isinstance(jobs, dict): return False`. -/
def ifJobs (edit : Edit Json) : Edit Json := fun doc => do
  if ← hasJobs doc then edit doc else return (doc, false)

/-- An edit of every job that is a mapping; jobs that are no mapping have no `items`. -/
def onEachJob (edit : String → Edit Mapping) : Edit Json := fun doc => do
  match ← jobsOf doc with
  | .obj [] => return (doc, false)
  | .obj jobs =>
    let (jobs', changed) ← editJobs edit jobs
    return (putJobs jobs' doc, changed)
  | _ => none

def jobAt (doc : Json) (name : String) : Option Mapping :=
  match jobsOf doc with
  | some (.obj jobs) => asMapping (jobs.lookup name)
  | _ => none

def stepEntries (job : Mapping) : List Json := (entriesOf (stepsOf job)).getD []

/-! ### What an edit does to a job -/

/-- The steps of a job before and after are related, and the values of some keys are as they
were. -/
structure JobFrame (fixed : List String) (S : List Json → List Json → Prop) (job job' : Mapping) :
    Prop where
  steps : S (stepEntries job) (stepEntries job')
  others : ∀ key ∈ fixed, job'.lookup key = job.lookup key

section Jobs

variable {fixed : List String} {S : List Json → List Json → Prop} {edit : Edit (List Json)}
  {job job' : Mapping}

theorem JobFrame.refl (hS : Edit.Splicing S) (job : Mapping) : JobFrame fixed S job job :=
  ⟨hS.refl _, fun _ _ => rfl⟩

theorem JobFrame.trans (hS : Edit.Splicing S) {job'' : Mapping} (h : JobFrame fixed S job job')
    (h' : JobFrame fixed S job' job'') : JobFrame fixed S job job'' where
  steps := hS.trans h.steps h'.steps
  others key hkey := (h'.others key hkey).trans (h.others key hkey)

theorem entriesOf_orElse (value : Json) :
    (entriesOf (orElse (some value) (.arr []))).getD [] = (entriesOf value).getD [] := by
  unfold orElse
  dsimp only
  split
  · rfl
  · next h =>
    cases value with
    | null => rfl
    | bool b => rfl
    | num q => rfl
    | str s =>
      have hs : s = "" := by simpa [truthy] using h
      rw [hs]
      rfl
    | arr xs =>
      have hxs : xs = [] := by simpa [truthy] using h
      rw [hxs]
    | obj fields =>
      have hfields : fields = [] := by simpa [truthy] using h
      rw [hfields]
      rfl

theorem stepEntries_put_steps (value : Json) (job : Mapping) :
    stepEntries (put "steps" value job) = (entriesOf value).getD [] := by
  unfold stepEntries stepsOf
  rw [lookup_put, if_pos rfl, entriesOf_orElse]

variable {key : String}

theorem stepEntries_put (hkey : key ≠ "steps") (value : Json) (job : Mapping) :
    stepEntries (put key value job) = stepEntries job := by
  unfold stepEntries stepsOf
  rw [lookup_put, if_neg (Ne.symm hkey)]

theorem not_mapping_of_mem_entries {value : Json} (h : ∀ xs, value ≠ .arr xs) {entry : Json}
    (hentry : entry ∈ (entriesOf value).getD []) : asMapping (some entry) = none := by
  cases value with
  | arr xs => exact absurd rfl (h xs)
  | obj fields =>
    obtain ⟨field, -, rfl⟩ := List.mem_map.mp hentry
    rfl
  | str s =>
    obtain ⟨c, -, rfl⟩ := List.mem_map.mp hentry
    rfl
  | _ => cases hentry

theorem stepEntries_eq_getD (job : Mapping) :
    stepEntries job = (entriesOf ((job.lookup "steps").getD (.arr []))).getD [] := by
  unfold stepEntries stepsOf
  cases job.lookup "steps" with
  | none => rfl
  | some value => exact entriesOf_orElse value

theorem jobFrame_put (hS : Edit.Splicing S) (hkey : key ∉ "steps" :: fixed) (value : Json)
    (job : Mapping) : JobFrame fixed S job (put key value job) where
  steps := by
    rw [stepEntries_put fun h => hkey (h ▸ List.mem_cons_self)]
    exact hS.refl _
  others k hk := by
    have hne : k ≠ key := fun h => hkey (List.mem_cons_of_mem _ (h ▸ hk))
    rw [lookup_put, if_neg hne]

theorem jobFrame_ensureKey (hS : Edit.Splicing S) (hkey : key ∉ "steps" :: fixed) (value : Json)
    (job : Mapping) : JobFrame fixed S job (ensureKey key value job).1 := by
  unfold ensureKey
  split
  · exact JobFrame.refl hS job
  · exact jobFrame_put hS hkey value job

section Steps

variable (hfixed : "steps" ∉ fixed)
include hfixed

theorem jobFrame_put_steps {value : Json} (h : S (stepEntries job) ((entriesOf value).getD [])) :
    JobFrame fixed S job (put "steps" value job) where
  steps := by rwa [stepEntries_put_steps]
  others key hkey := by
    have hne : key ≠ "steps" := fun heq => hfixed (heq ▸ hkey)
    rw [lookup_put, if_neg hne]

omit hfixed in
theorem editSteps_spec (hS : Edit.Splicing S) (h : Edit.Respects S edit) {value value' : Json}
    {changed : Bool} (hedit : editSteps edit value = some (value', changed)) :
    S ((entriesOf value).getD []) ((entriesOf value').getD []) := by
  unfold editSteps at hedit
  split at hedit
  · next steps =>
    obtain ⟨⟨steps', changed'⟩, hsteps, hpair⟩ := Option.map_eq_some_iff.mp hedit
    cases hpair
    exact h hsteps
  · obtain ⟨entries, -, hedit⟩ := Option.bind_eq_some_iff.mp hedit
    obtain ⟨⟨_, flag⟩, -, hedit⟩ := Option.bind_eq_some_iff.mp hedit
    cases flag with
    | true => cases hedit
    | false =>
      cases hedit
      exact hS.refl _

theorem withSteps_respects (hS : Edit.Splicing S) (h : Edit.Respects S edit) :
    Edit.Respects (JobFrame fixed S) (withSteps edit) := by
  intro job job' changed hjob
  obtain ⟨⟨steps, flag⟩, hsteps, hpure⟩ := Option.bind_eq_some_iff.mp hjob
  have hframe := editSteps_spec hS h hsteps
  cases hpure
  split
  · exact jobFrame_put_steps hfixed hframe
  · exact JobFrame.refl hS job

theorem rewriteSteps_respects (hS : Edit.Splicing S) (h : Edit.Respects S edit) :
    Edit.Respects (JobFrame fixed S) (rewriteSteps edit) := by
  intro job job' changed hjob
  obtain ⟨⟨steps, flag⟩, hsteps, hpure⟩ := Option.bind_eq_some_iff.mp hjob
  cases hpure
  exact jobFrame_put_steps hfixed (editSteps_spec hS h hsteps)

theorem setdefaultSteps_respects (hS : Edit.Splicing S) (h : Edit.Respects S edit) :
    Edit.Respects (JobFrame fixed S) (setdefaultSteps edit) := by
  intro job job' changed hjob
  obtain ⟨⟨steps, flag⟩, hsteps, hpure⟩ := Option.bind_eq_some_iff.mp hjob
  have hframe := editSteps_spec hS h hsteps
  cases hpure
  rw [← stepEntries_eq_getD] at hframe
  exact jobFrame_put_steps hfixed hframe

theorem rebuildSteps_respects (h : Edit.Respects S edit) :
    Edit.Respects (JobFrame fixed S) (rebuildSteps edit) := by
  intro job job' changed hjob
  obtain ⟨entries, hentries, hjob⟩ := Option.bind_eq_some_iff.mp hjob
  obtain ⟨⟨steps, flag⟩, hsteps, hpure⟩ := Option.bind_eq_some_iff.mp hjob
  cases hpure
  refine jobFrame_put_steps hfixed ?_
  rw [stepEntries_eq_getD, hentries]
  exact h hsteps

end Steps

end Jobs

/-! ### What an edit does to the jobs of a document -/

/-- Every job before and after, whether it is there or not, stands in a relation. -/
def Docs (Q : String → Option Mapping → Option Mapping → Prop) (doc doc' : Json) : Prop :=
  ∀ name, Q name (jobAt doc name) (jobAt doc' name)

section Docs

variable {Q : String → Option Mapping → Option Mapping → Prop} {doc doc' : Json}

variable {changed : Bool} {jobs : Mapping} {name : String}

theorem jobAt_of_jobs (h : jobsOf doc = some (.obj jobs)) (name : String) :
    jobAt doc name = asMapping (jobs.lookup name) := by
  rw [jobAt, h]

theorem jobsOf_putJobs {value : Json} (h : jobsOf doc = some value) (jobs : Mapping) :
    jobsOf (putJobs jobs doc) = some (.obj jobs) := by
  cases doc with
  | obj fields =>
    rw [putJobs, jobsOf, lookup_put, if_pos rfl, orElse]
    cases jobs with
    | nil => rfl
    | cons job rest => rfl
  | _ => cases h

theorem jobAt_obj (fields : Mapping) (name : String) :
    jobAt (.obj fields) name =
      asMapping (((asMapping (fields.lookup "jobs")).getD []).lookup name) := by
  rw [jobAt, jobsOf]
  cases fields.lookup "jobs" with
  | none => rfl
  | some value =>
    rw [orElse]
    by_cases htruthy : truthy value = true
    · rw [if_pos htruthy]
      cases value <;> rfl
    · rw [if_neg htruthy]
      cases value with
      | obj jobs =>
        have hjobs : jobs = [] := by simpa [truthy] using htruthy
        rw [hjobs]
        rfl
      | _ => rfl

theorem jobAt_putJobs_put (h : jobsOf doc = some (.obj jobs)) (name : String) (job : Mapping)
    (other : String) :
    jobAt (putJobs (put name (.obj job) jobs) doc) other =
      if other = name then some job else jobAt doc other := by
  rw [jobAt_of_jobs (jobsOf_putJobs h _), lookup_put, jobAt_of_jobs h]
  split
  · rfl
  · rfl

theorem onJob_respects (hrefl : ∀ name job, Q name job job) {edit : Edit Mapping}
    (h : Edit.Respects (fun job job' => Q name (some job) (some job')) edit) :
    Edit.Respects (Docs Q) (onJob name edit) := by
  intro doc doc' changed hdoc other
  obtain ⟨value, hjobs, hdoc⟩ := Option.bind_eq_some_iff.mp hdoc
  split at hdoc
  · next jobs =>
    split at hdoc
    · next job hjob =>
      obtain ⟨⟨job', flag⟩, hedit, hpure⟩ := Option.bind_eq_some_iff.mp hdoc
      cases hpure
      rw [jobAt_putJobs_put hjobs]
      split
      · next heq =>
        rw [heq, jobAt_of_jobs hjobs, hjob]
        exact h hedit
      · exact hrefl other _
    · cases hdoc
      exact hrefl other _
  · cases hdoc

theorem editJobs_spec (hrefl : ∀ name job, Q name job job) {edit : String → Edit Mapping}
    (h : ∀ name, Edit.Respects (fun job job' => Q name (some job) (some job')) (edit name))
    {jobs' : Mapping} (hjobs : editJobs edit jobs = some (jobs', changed)) (name : String) :
    Q name (asMapping (jobs.lookup name)) (asMapping (jobs'.lookup name)) := by
  induction jobs generalizing jobs' changed with
  | nil =>
    cases hjobs
    exact hrefl name _
  | cons entry rest ih =>
    obtain ⟨key, value⟩ := entry
    rw [editJobs] at hjobs
    split at hjobs
    · next job hjob =>
      obtain ⟨⟨job', flag⟩, hedit, hjobs⟩ := Option.bind_eq_some_iff.mp hjobs
      obtain ⟨⟨rest', flag'⟩, hrest, hpure⟩ := Option.bind_eq_some_iff.mp hjobs
      cases hpure
      rw [JsObject.lookup_cons_ite, JsObject.lookup_cons_ite]
      split
      · next hname =>
        rw [hjob]
        exact hname ▸ h key hedit
      · exact ih hrest
    · obtain ⟨⟨rest', flag'⟩, hrest, hpure⟩ := Option.bind_eq_some_iff.mp hjobs
      cases hpure
      rw [JsObject.lookup_cons_ite, JsObject.lookup_cons_ite]
      split
      · exact hrefl name _
      · exact ih hrest

theorem onEachJob_respects (hrefl : ∀ name job, Q name job job) {edit : String → Edit Mapping}
    (h : ∀ name, Edit.Respects (fun job job' => Q name (some job) (some job')) (edit name)) :
    Edit.Respects (Docs Q) (onEachJob edit) := by
  intro doc doc' changed hdoc name
  obtain ⟨value, hjobs, hdoc⟩ := Option.bind_eq_some_iff.mp hdoc
  split at hdoc
  · cases hdoc
    exact hrefl name _
  · next jobs _ =>
    obtain ⟨⟨jobs', flag⟩, hedit, hpure⟩ := Option.bind_eq_some_iff.mp hdoc
    cases hpure
    rw [jobAt_of_jobs hjobs, jobAt_of_jobs (jobsOf_putJobs hjobs jobs')]
    exact editJobs_spec hrefl h hedit name
  · cases hdoc

theorem onJob_at {edit : Edit Mapping} {job : Mapping}
    (h : onJob name edit doc = some (doc', changed)) (hjob : jobAt doc name = some job) :
    ∃ job' flag, edit job = some (job', flag) ∧ jobAt doc' name = some job' := by
  obtain ⟨value, hjobs, h⟩ := Option.bind_eq_some_iff.mp h
  split at h
  · next jobs =>
    rw [← jobAt_of_jobs hjobs, hjob] at h
    obtain ⟨⟨job', flag⟩, hedit, hpure⟩ := Option.bind_eq_some_iff.mp h
    cases hpure
    exact ⟨job', _, hedit, by rw [jobAt_putJobs_put hjobs, if_pos rfl]⟩
  · cases h

theorem editJobs_at {edit : String → Edit Mapping} {jobs' : Mapping}
    (h : editJobs edit jobs = some (jobs', changed)) {job : Mapping}
    (hjob : asMapping (jobs.lookup name) = some job) :
    ∃ job' flag, edit name job = some (job', flag) ∧
      asMapping (jobs'.lookup name) = some job' ∧ (flag = true → changed = true) := by
  induction jobs generalizing jobs' changed with
  | nil => cases hjob
  | cons entry rest ih =>
    obtain ⟨key, value⟩ := entry
    rw [editJobs] at h
    rw [JsObject.lookup_cons_ite] at hjob
    split at h
    · next found hfound =>
      obtain ⟨⟨found', flag⟩, hedit, h⟩ := Option.bind_eq_some_iff.mp h
      obtain ⟨⟨rest', flag'⟩, hrest, hpure⟩ := Option.bind_eq_some_iff.mp h
      cases hpure
      rw [JsObject.lookup_cons_ite]
      split at hjob
      · next hname =>
        obtain rfl : found = job := Option.some.inj (hfound.symm.trans hjob)
        refine ⟨found', flag, hname ▸ hedit, by rw [if_pos hname]; rfl, fun hflag => ?_⟩
        rw [hflag, Bool.true_or]
      · next hname =>
        obtain ⟨job', flag'', hjob', hlookup, hchanged⟩ := ih hrest hjob
        refine ⟨job', flag'', hjob', by rwa [if_neg hname], fun hflag => ?_⟩
        rw [hchanged hflag, Bool.or_true]
    · next hnone =>
      obtain ⟨⟨rest', flag'⟩, hrest, hpure⟩ := Option.bind_eq_some_iff.mp h
      cases hpure
      rw [JsObject.lookup_cons_ite]
      split at hjob
      · next hname => rw [hnone] at hjob; cases hjob
      · next hname =>
        obtain ⟨job', flag'', hjob', hlookup, hchanged⟩ := ih hrest hjob
        exact ⟨job', flag'', hjob', by rwa [if_neg hname], hchanged⟩

theorem onEachJob_at {edit : String → Edit Mapping} {job : Mapping}
    (h : onEachJob edit doc = some (doc', changed)) (hjob : jobAt doc name = some job) :
    ∃ job' flag, edit name job = some (job', flag) ∧ jobAt doc' name = some job' ∧
      (flag = true → changed = true) := by
  obtain ⟨value, hjobs, h⟩ := Option.bind_eq_some_iff.mp h
  split at h
  · rw [jobAt_of_jobs hjobs] at hjob
    cases hjob
  · next jobs _ =>
    obtain ⟨⟨jobs', flag⟩, hedit, hpure⟩ := Option.bind_eq_some_iff.mp h
    cases hpure
    rw [jobAt_of_jobs hjobs] at hjob
    rw [jobAt_of_jobs (jobsOf_putJobs hjobs jobs')]
    exact editJobs_at hedit hjob
  · cases h

theorem ifJobs_of_jobAt {job : Mapping} (hjob : jobAt doc name = some job) (edit : Edit Json) :
    ifJobs edit doc = edit doc := by
  unfold jobAt at hjob
  split at hjob
  · next jobs hjobs =>
    rw [ifJobs, hasJobs, hjobs]
    rfl
  · cases hjob

theorem ifJobs_respects (hrefl : ∀ name job, Q name job job) {edit : Edit Json}
    (h : Edit.Respects (Docs Q) edit) : Edit.Respects (Docs Q) (ifJobs edit) := by
  intro doc doc' changed hdoc
  obtain ⟨isMapping, -, hdoc⟩ := Option.bind_eq_some_iff.mp hdoc
  cases isMapping with
  | true => exact h hdoc
  | false =>
    cases hdoc
    exact fun name => hrefl name _

end Docs

end CompareVI.Workflows
