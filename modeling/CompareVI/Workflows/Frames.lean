import CompareVI.Workflows.Transforms

/-!
# What the transforms leave alone

A `View` names what is looked at in a document: some of its jobs, and of these the values of some
keys and a relation between the steps before and after. `V.Frame` says that a document stands in
that relation to another, job by job; it is a preorder, so that it passes from the transforms to
a run of them (`View.respects_inOrder`).

Two kinds of relations between step lists are told apart. `Tolerant` ones allow what every job
may be subject to: a plain step next to another one, and a change of a normalized step that
leaves its name, id and action. `Open` ones allow any new step, and any normalized step to be
redone. The transforms that go through all jobs respect every tolerant view, but for the wire
probes, which are also taken out (`ensureWireProbesAllJobs_respects`); those that edit a job by
its name respect a view that is open there, or that does not look at it.
-/

open Framework

namespace CompareVI.Workflows

/-! ### Steps that are normalized -/

/-- The names of the steps that are normalized in every job: the wire probes around the checkout,
the hosted preflight and notice steps and the rerun hints. -/
def normalizedNames : List String :=
  ["Wire Probe (J1)", "Wire Probe (J2)", hostedPreflightName, hostedNoticeName,
    rerunHintName "matrix", rerunHintName "single"]

/-- The names of the steps of the lint job that are normalized, replaced or taken out. -/
def lintNames : List String :=
  [installActionlintName, "Run actionlint", setupNodeName, "Install markdownlint-cli (retry)",
    driftGateName] ++ markdownNames

def isStep (entry : Json) : Bool := (asMapping (some entry)).isSome

/-- The steps of a job that the updater writes anew: those of these names, and by the name of the
job the verification of the runner, the lint steps, the docs-only gate and the `out` step of the
probe, where what is no step at all may also go. -/
def normalizedIn (jobName : String) (step : Json) : Bool :=
  (normalizedNames.any fun name => named name step) ||
    (jobName = "preflight" && isVerifyRunner step) ||
    (jobName = "lint" && lintNames.any fun name => named name step) ||
    (jobName = "pre-init" && hasId "g" step && usesEnds "pre-init-gate" step) ||
    (jobName = "probe" && (hasId "out" step || !isStep step))

/-- The step has the same name, id and action. -/
def SameRole (step step' : Json) : Prop :=
  ∀ key ∈ ["name", "id", "uses"], step'.get? key = step.get? key

/-- A relation between step lists that allows what every job may be subject to. -/
structure Tolerant (jobName : String) (S : List Json → List Json → Prop) : Prop
    extends Edit.Splicing S where
  before : ∀ step new, Plain new → S [step] [new, step]
  after : ∀ step new, Plain new → S [step] [step, new]
  update : ∀ step step', normalizedIn jobName step = true → SameRole step step' → S [step] [step']

/-- A relation between step lists that allows any new step and normalized steps to be redone. -/
structure Open (jobName : String) (S : List Json → List Json → Prop) : Prop
    extends Edit.Splicing S where
  fresh : ∀ new, S [] [new]
  redo : ∀ step steps, normalizedIn jobName step = true → S [step] steps

theorem Open.tolerant {jobName : String} {S : List Json → List Json → Prop} (h : Open jobName S) :
    Tolerant jobName S where
  toSplicing := h.toSplicing
  before step new _ := h.append (h.fresh new) (h.refl [step])
  after step new _ := h.append (h.refl [step]) (h.fresh new)
  update step step' hstep _ := h.redo step [step'] hstep

/-! ### Edits of steps -/

section Steps

variable {jobName : String} {S : List Json → List Json → Prop} {new : Json} {p : Json → Bool}

theorem sameRole_refl (step : Json) : SameRole step step := fun _ _ => rfl

variable {step : Json} {fields fields' : Mapping}

theorem sameRole_put {key : String} (hkey : key ∉ ["name", "id", "uses"])
    (h : SameRole (.obj fields) (.obj fields')) (value : Json) :
    SameRole (.obj fields) (.obj (put key value fields')) := by
  intro k hk
  have hne : k ≠ key := fun heq => hkey (heq ▸ hk)
  rw [← h k hk, Json.get?, lookup_put, if_neg hne]
  rfl

theorem sameRole_ensureKey {key : String} (hkey : key ∉ ["name", "id", "uses"])
    (h : SameRole (.obj fields) (.obj fields')) (value : Json) :
    SameRole (.obj fields) (.obj (ensureKey key value fields').1) := by
  unfold ensureKey
  split
  · exact h
  · exact sameRole_put hkey h value

theorem sameRole_ensureKeys {pairs : List (String × Json)}
    (hpairs : ∀ pair ∈ pairs, pair.1 ∉ ["name", "id", "uses"])
    (h : SameRole (.obj fields) (.obj fields')) :
    SameRole (.obj fields) (.obj (ensureKeys pairs fields').1) := by
  induction pairs generalizing fields' with
  | nil => exact h
  | cons pair rest ih =>
    have hfirst : SameRole (.obj fields) (.obj (ensureKey pair.1 pair.2 fields').1) :=
      sameRole_ensureKey (hpairs pair List.mem_cons_self) h pair.2
    exact ih (fun other hother => hpairs other (List.mem_cons_of_mem _ hother)) hfirst

theorem normalizedIn_of_named {name : String} (hname : name ∈ normalizedNames)
    (h : named name step = true) (jobName : String) : normalizedIn jobName step = true := by
  have hany : (normalizedNames.any fun name => named name step) = true :=
    List.any_eq_true.mpr ⟨name, hname, h⟩
  simp [normalizedIn, hany]

theorem normalizedIn_of_wireProbe (h : isWireProbe step = true) (jobName : String) :
    normalizedIn jobName step = true := by
  rcases Bool.or_eq_true_iff.mp h with h | h
  · exact normalizedIn_of_named (by simp [normalizedNames]) h jobName
  · exact normalizedIn_of_named (by simp [normalizedNames]) h jobName

theorem normalizedIn_lint {name : String} (hname : name ∈ lintNames) (h : named name step = true) :
    normalizedIn "lint" step = true := by
  have hany : (lintNames.any fun name => named name step) = true :=
    List.any_eq_true.mpr ⟨name, hname, h⟩
  simp [normalizedIn, hany]

theorem updateFirst_respects (hS : Edit.Splicing S) {f : Json → Json × Bool}
    (h : ∀ step, p step = true → S [step] [(f step).1]) : Edit.Respects S (updateFirst p f) :=
  hS.onFirst fun step new changed hp hf => by
    cases hf
    exact h step (Option.some.inj hp)

theorem insertAtAny_respects (hS : Edit.Splicing S) {insert : (Json → Bool) → Edit (List Json)}
    (h : ∀ anchor, Edit.Respects S (insert anchor)) (names : List String) :
    Edit.Respects S (insertAtAny insert names) := by
  induction names with
  | nil => exact hS.skip
  | cons name rest ih => exact (h (named name)).ifAny ih

namespace Tolerant

variable (hS : Tolerant jobName S)
include hS

theorem insertBefore (hnew : Plain new) : Edit.Respects S (insertBefore p new) :=
  hS.onFirst fun step steps changed _ hf => by
    cases hf
    exact hS.before step new hnew

theorem insertAfter (hnew : Plain new) : Edit.Respects S (insertAfter p new) :=
  hS.onFirst fun step steps changed _ hf => by
    cases hf
    exact hS.after step new hnew

theorem normalize {pairs : List (String × Json)}
    (hpairs : ∀ pair ∈ pairs, pair.1 ∉ ["name", "id", "uses"]) {step : Json}
    (hstep : normalizedIn jobName step = true) :
    S [step] [(onMapping (ensureKeys pairs) step).1] := by
  cases step with
  | obj fields => exact hS.update _ _ hstep (sameRole_ensureKeys hpairs (sameRole_refl _))
  | _ => exact hS.refl _

theorem normalizeRerunHint {defaultStrategy : String}
    (hname : rerunHintName defaultStrategy ∈ normalizedNames) :
    Edit.Respects S (normalizeRerunHint defaultStrategy) :=
  updateFirst_respects hS.toSplicing fun step hstep =>
    hS.normalize (by simp [rerunHintFields]) (normalizedIn_of_named hname hstep jobName)

theorem normalizeHostedSteps :
    Edit.Respects S (Edit.onEach (onMapping normalizeHostedStep)) := by
  have hbody : ∀ (run : Json) (fields : Mapping), normalizedIn jobName (.obj fields) = true →
      S [.obj fields] [.obj (normalizeBody run fields).1] := by
    intro run fields hfields
    unfold normalizeBody
    split
    · exact hS.refl _
    · refine hS.update _ _ hfields (sameRole_put (by simp) (sameRole_put (by simp) ?_ run) _)
      exact sameRole_refl _
  have hnamed : ∀ (name : String) (run : Json) (fields : Mapping), name ∈ normalizedNames →
      fields.lookup "name" = some (.str name) →
      S [.obj fields] [.obj (normalizeBody run fields).1] := by
    intro name run fields hmem hname
    have hstep : named name (.obj fields) = true := decide_eq_true hname
    exact hbody run fields (normalizedIn_of_named hmem hstep jobName)
  refine hS.onEach fun step => ?_
  cases step with
  | obj fields =>
    show S [.obj fields] [.obj (normalizeHostedStep fields).1]
    unfold normalizeHostedStep
    split
    · next hname => exact hnamed hostedPreflightName _ fields (by simp [normalizedNames]) hname
    · split
      · next hname => exact hnamed hostedNoticeName _ fields (by simp [normalizedNames]) hname
      · exact hS.refl _
  | _ => exact hS.refl _

theorem rerunHintAfterSummary :
    Edit.Respects S (rerunHintAfterSummary "matrix") := by
  intro steps steps' changed h
  obtain ⟨found, -, h⟩ := Option.bind_eq_some_iff.mp h
  cases found with
  | true =>
    refine Edit.Respects.ifAny (hS.normalizeRerunHint (by simp [normalizedNames]))
      (hS.onFirst ?_) h
    intro step new flag _ hf
    cases hf
    exact hS.after step _ (plain_rerunHintStep "matrix")
  | false =>
    cases h
    exact hS.refl _

end Tolerant

namespace Open

variable (hS : Open jobName S)
include hS

theorem insertBefore : Edit.Respects S (insertBefore p new) :=
  hS.onFirst fun step steps changed _ hf => by
    cases hf
    exact hS.append (hS.fresh new) (hS.refl [step])

theorem insertAfter : Edit.Respects S (insertAfter p new) :=
  hS.onFirst fun step steps changed _ hf => by
    cases hf
    exact hS.append (hS.refl [step]) (hS.fresh new)

theorem push : Edit.Respects S (Edit.push new) := hS.toSplicing.push (hS.fresh new)

theorem insertAt (i : ℕ) : Edit.Respects S (Edit.insertAt i new) :=
  hS.toSplicing.insertAt (hS.fresh new) i

theorem surround {nameBefore nameAfter : String} {before after : Json} :
    Edit.Respects S (surround p nameBefore before nameAfter after) := by
  intro steps steps' changed h
  have hopt : ∀ (b : Bool) (step : Json), S [] (if b = true then [] else [step]) := by
    intro b step
    split
    · exact hS.refl []
    · exact hS.fresh step
  refine hS.onFirst (fun step new flag _ hf => ?_) h
  cases hf
  exact hS.append (hS.append (hopt _ before) (hS.refl [step])) (hopt _ after)

theorem redoFirst (h : ∀ step, p step = true → normalizedIn jobName step = true)
    (f : Json → Option (List Json × Bool)) :
    Edit.Respects S (Edit.onFirst (fun step => some (p step)) f) :=
  hS.onFirst fun step new _ hp _ => hS.redo step new (h step (Option.some.inj hp))

theorem updateFirst (h : ∀ step, p step = true → normalizedIn jobName step = true)
    (f : Json → Json × Bool) : Edit.Respects S (updateFirst p f) :=
  hS.redoFirst h _

theorem gateSteps (hjob : jobName = "pre-init") : Edit.Respects S gateSteps := by
  intro steps steps' changed h
  refine hS.onFirst (fun step new flag hp _ => hS.redo step new ?_) h
  subst hjob
  unfold isPreInitGate at hp
  split at hp
  · next hid =>
    have huses : usesEnds "pre-init-gate" step = true := by
      unfold usesEnds usesText
      split at hp
      · cases hp
      · next uses heq =>
        rw [heq]
        exact Option.some.inj hp
      · cases hp
    simp [normalizedIn, hid, huses]
  · cases hp

end Open

end Steps

/-! ### What is looked at in a document -/

/-- A job before and after: it may come to be there, but stays and is related where it was. -/
inductive JobStep (created : Prop) (F : Mapping → Mapping → Prop) :
    Option Mapping → Option Mapping → Prop
  | missing : JobStep created F none none
  | new (h : created) (job : Mapping) : JobStep created F none (some job)
  | edited {job job' : Mapping} (h : F job job') : JobStep created F (some job) (some job')

variable {F : Mapping → Mapping → Prop} {b : Option Mapping} {created : Prop}

theorem JobStep.of_none (hcreated : ¬ created) (h : JobStep created F none b) : b = none := by
  cases h with
  | missing => rfl
  | new hnew _ => exact absurd hnew hcreated

theorem JobStep.of_some {job : Mapping} (h : JobStep created F (some job) b) :
    ∃ job', b = some job' ∧ F job job' := by
  cases h with
  | edited hjob => exact ⟨_, rfl, hjob⟩

theorem JobStep.trans (htrans : ∀ {a b c}, F a b → F b c → F a c) {a c : Option Mapping}
    (h : JobStep created F a b) (h' : JobStep created F b c) : JobStep created F a c := by
  cases h with
  | missing => exact h'
  | new hcreated job =>
    cases h' with
    | edited _ => exact .new hcreated _
  | edited hjob =>
    cases h' with
    | edited hjob' => exact .edited (htrans hjob hjob')

/-- What is looked at: some jobs, of these the values of some keys and a relation between the
steps; and whether such a job may come to be there. -/
structure View where
  watched : String → Prop
  created : Prop
  fixed : List String
  steps : String → List Json → List Json → Prop
  splicing : ∀ name, Edit.Splicing (steps name)
  fixed_sub : ∀ key ∈ fixed, key ∈ ["needs", "if", "uses"]

namespace View

theorem fixed_sub_nil : ∀ key ∈ ([] : List String), key ∈ ["needs", "if", "uses"] :=
  List.forall_mem_nil _

variable (V : View)

/-- What a job is to what it becomes. -/
def Job (name : String) : Mapping → Mapping → Prop := JobFrame V.fixed (V.steps name)

/-- What a document is to what it becomes. -/
def Frame : Json → Json → Prop :=
  Docs fun name job job' => V.watched name → JobStep V.created (V.Job name) job job'

theorem job_refl (name : String) (job : Option Mapping) :
    V.watched name → JobStep V.created (V.Job name) job job := by
  intro _
  cases job with
  | none => exact .missing
  | some job => exact .edited (JobFrame.refl (V.splicing name) job)

theorem frame_refl (doc : Json) : V.Frame doc doc := fun name => V.job_refl name _

theorem frame_trans {a b c : Json} (hab : V.Frame a b) (hbc : V.Frame b c) : V.Frame a c := by
  intro name hname
  exact (hab name hname).trans (fun h h' => h.trans (V.splicing name) h') (hbc name hname)

theorem respects_inOrder {edits : List (Edit Json)} (h : ∀ e ∈ edits, Edit.Respects V.Frame e) :
    Edit.Respects V.Frame (Edit.inOrder edits) :=
  Edit.respects_inOrder V.frame_refl V.frame_trans h

variable {edit : Edit (List Json)} {key : String}

theorem not_mem_fixed (h : key ∉ ["needs", "if", "uses"]) : key ∉ V.fixed :=
  fun hkey => h (V.fixed_sub key hkey)

theorem not_mem_steps_fixed (h : key ∉ ["steps", "needs", "if", "uses"]) :
    key ∉ "steps" :: V.fixed := by
  intro hkey
  rcases List.mem_cons.mp hkey with rfl | hfixed
  · exact h List.mem_cons_self
  · exact h (List.mem_cons_of_mem _ (V.fixed_sub key hfixed))

variable {V}

theorem onJob {name : String} {edit : Edit Mapping}
    (h : V.watched name → Edit.Respects (V.Job name) edit) :
    Edit.Respects V.Frame (onJob name edit) :=
  onJob_respects V.job_refl fun _ _ _ hedit hname => .edited (h hname hedit)

theorem onEachJob {edit : String → Edit Mapping}
    (h : ∀ name, V.watched name → Edit.Respects (V.Job name) (edit name)) :
    Edit.Respects V.Frame (onEachJob edit) :=
  onEachJob_respects V.job_refl fun name _ _ _ hedit hname => .edited (h name hname hedit)

theorem ifJobs {edit : Edit Json} (h : Edit.Respects V.Frame edit) :
    Edit.Respects V.Frame (ifJobs edit) :=
  ifJobs_respects V.job_refl h

theorem withSteps {name : String} (h : Edit.Respects (V.steps name) edit) :
    Edit.Respects (V.Job name) (withSteps edit) :=
  withSteps_respects (V.not_mem_fixed (by decide)) (V.splicing name) h

theorem rewriteSteps {name : String} (h : Edit.Respects (V.steps name) edit) :
    Edit.Respects (V.Job name) (rewriteSteps edit) :=
  rewriteSteps_respects (V.not_mem_fixed (by decide)) (V.splicing name) h

theorem setdefaultSteps {name : String} (h : Edit.Respects (V.steps name) edit) :
    Edit.Respects (V.Job name) (setdefaultSteps edit) :=
  setdefaultSteps_respects (V.not_mem_fixed (by decide)) (V.splicing name) h

theorem rebuildSteps {name : String} (h : Edit.Respects (V.steps name) edit) :
    Edit.Respects (V.Job name) (rebuildSteps edit) :=
  rebuildSteps_respects (V.not_mem_fixed (by decide)) h

variable {changed : Bool} {job job' : Mapping}

theorem putThen {name : String} (hkey : key ∉ ["steps", "needs", "if", "uses"]) (value : Json)
    {edit : Edit Mapping} (h : Edit.Respects (V.Job name) edit)
    (hedit : edit (put key value job) = some (job', changed)) : V.Job name job job' :=
  (jobFrame_put (V.splicing name) (V.not_mem_steps_fixed hkey) value job).trans
    (V.splicing name) (h hedit)

theorem ensureThen {name : String} (hkey : key ∉ ["steps", "needs", "if", "uses"]) (value : Json)
    {edit : Edit Mapping} (h : Edit.Respects (V.Job name) edit)
    (hedit : edit (ensureKey key value job).1 = some (job', changed)) : V.Job name job job' :=
  (jobFrame_ensureKey (V.splicing name) (V.not_mem_steps_fixed hkey) value job).trans
    (V.splicing name) (h hedit)

end View

/-! ### The transforms that go through all jobs -/

section AllJobs

variable {V : View} (hV : ∀ name, V.watched name → Tolerant name (V.steps name))
include hV

theorem normalizeHostedPreflightSteps_respects :
    Edit.Respects V.Frame normalizeHostedPreflightSteps :=
  View.ifJobs (View.onEachJob fun name hname => View.withSteps (hV name hname).normalizeHostedSteps)

theorem ensureRerunHintAfterSummary_respects :
    Edit.Respects V.Frame (ensureRerunHintAfterSummary "matrix") :=
  View.onEachJob fun name hname => View.withSteps (hV name hname).rerunHintAfterSummary

theorem ensureWireProbesAllJobs_respects
    (hdrop : ∀ name, V.watched name → ∀ step, isWireProbe step = true → V.steps name [step] []) :
    Edit.Respects V.Frame ensureWireProbesAllJobs := by
  refine View.ifJobs (View.onEachJob fun name hname => View.rebuildSteps ?_)
  have hS := hV name hname
  refine hS.andThen (hS.dropAll (hdrop name hname)) (hS.onFirst ?_)
  intro step new changed _ hf
  cases hf
  have hfirst := hS.after step _ (plain_wireStep "Wire Probe (J2)" "J2" (resultsDir name))
  have hsecond := hS.after step _ (plain_wireStep "Wire Probe (J1)" "J1" (resultsDir name))
  exact hS.trans hfirst (hS.append hsecond (hS.refl _))

theorem ensureWireT1ForTests_respects : Edit.Respects V.Frame ensureWireT1ForTests :=
  View.ifJobs (View.onEachJob fun name hname => View.withSteps
    ((hV name hname).unlessAny ((hV name hname).insertBefore (plain_wireTestStep _))))

theorem ensureWireS1BeforeSessionIndex_respects :
    Edit.Respects V.Frame ensureWireS1BeforeSessionIndex :=
  View.ifJobs (View.onEachJob fun name hname => View.withSteps
    ((hV name hname).unlessAny (insertAtAny_respects (hV name hname).toSplicing
      (fun _ => (hV name hname).insertBefore (plain_wireSessionStep _)) _)))

theorem ensureWireI1I2Invoker_respects : Edit.Respects V.Frame ensureWireI1I2Invoker := by
  refine View.ifJobs (View.onEachJob fun name hname => View.rewriteSteps ?_)
  have hS := hV name hname
  have hplain : ∀ stepName action, "actions/checkout@".toList.isPrefixOf action.toList = false →
      Plain (wireActionStep stepName action) := fun _ _ haction => plain_actionStep haction
  refine hS.inOrder fun e he => ?_
  simp only [List.mem_cons, List.not_mem_nil, or_false] at he
  rcases he with rfl | rfl
  · exact hS.unlessAny (hS.insertBefore (hplain _ _ (by decide)))
  · exact hS.unlessAny (hS.insertAfter (hplain _ _ (by decide)))

theorem ensureWireG0G1Guard_respects : Edit.Respects V.Frame ensureWireG0G1Guard := by
  refine View.ifJobs (View.onEachJob fun name hname => View.withSteps ?_)
  have hS := hV name hname
  refine Edit.Respects.ifAny (hS.inOrder fun e he => ?_) hS.skip
  simp only [List.mem_cons, List.not_mem_nil, or_false] at he
  rcases he with rfl | rfl
  · exact hS.unlessAny (hS.insertBefore (plain_actionStep (by decide)))
  · exact hS.unlessAny (hS.insertAfter (plain_actionStep (by decide)))

theorem ensureWireP1AfterFinal_respects : Edit.Respects V.Frame ensureWireP1AfterFinal :=
  View.ifJobs (View.onEachJob fun name hname => View.withSteps
    ((hV name hname).unlessAny (insertAtAny_respects (hV name hname).toSplicing
      (fun _ => (hV name hname).insertAfter (plain_wireStep _ _ _)) _)))

end AllJobs

/-! ### The transforms of one job -/

section OneJob

variable {V : View}

variable {name : String} (hV : V.watched name → Open name (V.steps name))
include hV

theorem appendUnlessUsed_respects (action : String) (step : Json) :
    Edit.Respects V.Frame (onJob name (appendUnlessUsed action step)) :=
  View.onJob fun hname => View.withSteps ((hV hname).unlessAny (hV hname).push)

theorem ensureRerunHintInJob_respects {defaultStrategy : String}
    (hhint : rerunHintName defaultStrategy ∈ normalizedNames) :
    Edit.Respects V.Frame (ensureRerunHintInJob name defaultStrategy) :=
  View.onJob fun hname => View.setdefaultSteps (Edit.Respects.ifAny
    ((hV hname).tolerant.normalizeRerunHint hhint) (hV hname).push)

theorem ensureWireC1C2AroundDrift_respects (hdrift : name = "drift") :
    Edit.Respects V.Frame ensureWireC1C2AroundDrift := by
  subst hdrift
  exact View.ifJobs (View.onJob fun hname => View.withSteps (hV hname).surround)

end OneJob

theorem preflightSteps_respects {S : List Json → List Json → Prop} (hS : Open "preflight" S) :
    Edit.Respects S preflightSteps := by
  intro steps steps' changed h
  refine hS.andThen (hS.unlessAny (hS.insertAt 0))
    (Edit.Respects.ifAny (hS.updateFirst (fun step hstep => ?_) _) (hS.insertAt _)) h
  simp [normalizedIn, hstep]

theorem lintSteps_respects {S : List Json → List Json → Prop} (hS : Open "lint" S) :
    Edit.Respects S lintSteps := by
  have hlint : ∀ name ∈ lintNames, ∀ step, named name step = true →
      normalizedIn "lint" step = true := fun name hname step => normalizedIn_lint hname
  refine hS.inOrder fun e he => ?_
  simp only [List.mem_cons, List.not_mem_nil, or_false] at he
  rcases he with rfl | rfl | rfl | rfl | rfl
  · exact Edit.Respects.ifAny (hS.updateFirst (hlint _ (by simp [lintNames])) _)
      (Edit.Respects.ifAny hS.insertAfter (hS.insertAt 0))
  · exact Edit.Respects.ifAny (hS.updateFirst (hlint _ (by simp [lintNames])) _) hS.insertAfter
  · exact Edit.Respects.ifAny (hS.redoFirst (hlint _ (by simp [lintNames])) _)
      (Edit.Respects.ifAny (insertAtAny_respects hS.toSplicing (fun _ => hS.insertBefore) _)
        hS.push)
  · exact hS.redoFirst (hlint _ (by simp [lintNames])) _
  · exact Edit.Respects.ifAny (hS.updateFirst (hlint _ (by simp [lintNames, markdownNames])) _)
      (Edit.Respects.ifAny (hS.updateFirst (hlint _ (by simp [lintNames, markdownNames])) _)
        (Edit.Respects.ifAny (hS.updateFirst (hlint _ (by simp [lintNames, markdownNames])) _)
          hS.push))

theorem longWireSteps_respects {jobName : String} {S : List Json → List Json → Prop}
    (hS : Open jobName S) : Edit.Respects S longWireSteps := by
  refine hS.inOrder fun e he => ?_
  simp only [List.mem_cons, List.not_mem_nil, or_false] at he
  rcases he with rfl | rfl | rfl | rfl | rfl | rfl | rfl | rfl | rfl | rfl | rfl | rfl | rfl
  · exact hS.surround
  · exact hS.unlessAny hS.insertAfter
  · exact hS.unlessAny hS.insertAfter
  · exact hS.unlessAny hS.insertAfter
  · exact hS.unlessAny hS.insertAfter
  · exact hS.unlessAny hS.insertBefore
  · exact hS.unlessAny hS.insertAfter
  · exact hS.unlessAny hS.insertAfter
  · exact hS.unlessAny hS.insertAfter
  · exact hS.unlessAny hS.insertBefore
  · exact hS.unlessAny hS.insertAfter
  · exact hS.unlessAny hS.insertAfter
  · exact hS.unlessAny hS.insertAfter

theorem ensureProbeSteps_respects {S : List Json → List Json → Prop} (hS : Open "probe" S) :
    Edit.Respects S ensureProbeSteps := by
  refine hS.andThen (hS.unlessAny (hS.insertAt 0)) (Edit.Respects.ifAny
    (hS.updateFirst (fun step hstep => ?_) _) (Edit.Respects.ifAny hS.insertAfter hS.push))
  simp [normalizedIn, hstep]

/-- The steps a probe job comes to have: those it had with what was missing, or, where they were
no sequence, new ones. -/
theorem ensureProbe_spec {job job' : Mapping} {changed : Bool}
    (h : ensureProbe job = some (job', changed)) :
    (∃ flag, ensureProbeSteps (stepEntries job) = some (stepEntries job', flag)) ∨
      stepEntries job' = probeSteps ∧ ∀ entry ∈ stepEntries job, isStep entry = false := by
  unfold ensureProbe at h
  dsimp only at h
  split at h
  · next steps hsteps =>
    obtain ⟨⟨steps', flag⟩, hedit, hpure⟩ := Option.bind_eq_some_iff.mp h
    cases hpure
    refine .inl ⟨flag, ?_⟩
    rw [stepEntries_put_steps, stepEntries_eq_getD, hsteps]
    exact hedit
  · next hsteps =>
    cases h
    refine .inr ⟨stepEntries_put_steps _ _, fun entry hentry => ?_⟩
    rw [stepEntries_eq_getD] at hentry
    rw [isStep, not_mapping_of_mem_entries hsteps hentry]
    rfl

section Made

variable {V : View} {name : String}

theorem View.frame_putJob {doc value : Json} {jobs job' : Mapping}
    (hvalue : jobsOf doc = some value)
    (hjobs : ∀ other, jobAt doc other = asMapping (jobs.lookup other))
    (h : V.watched name → JobStep V.created (V.Job name) (jobAt doc name) (some job')) :
    V.Frame doc (putJobs (put name (.obj job') jobs) doc) := by
  intro other hother
  rw [jobAt_of_jobs (jobsOf_putJobs hvalue _), lookup_put]
  split
  · next heq =>
    subst heq
    exact h hother
  · rw [← hjobs]
    exact V.job_refl other _ hother

theorem ensureHostedPreflight_respects
    (hV : V.watched "preflight" → V.created ∧ Open "preflight" (V.steps "preflight")) :
    Edit.Respects V.Frame (ensureHostedPreflight "preflight") := by
  intro doc doc' changed hdoc
  cases doc with
  | obj fields =>
    unfold ensureHostedPreflight at hdoc
    obtain ⟨⟨job'', flag⟩, hedit, hpure⟩ := Option.bind_eq_some_iff.mp hdoc
    cases hpure
    refine View.frame_putJob rfl (jobAt_obj fields) fun hname => ?_
    rw [jobAt_obj]
    cases hjob : asMapping (((asMapping (fields.lookup "jobs")).getD []).lookup "preflight") with
    | none => exact .new (hV hname).1 job''
    | some job =>
      rw [hjob] at hedit
      have hrespects := View.setdefaultSteps (preflightSteps_respects (hV hname).2)
      exact .edited (View.ensureThen (by decide) _ hrespects hedit)
  | _ => cases hdoc

theorem ensureProbe_respects (hfixed : V.fixed = []) (hS : Open "probe" (V.steps "probe")) :
    Edit.Respects (V.Job "probe") ensureProbe := by
  intro job job' changed h
  refine ⟨?_, fun key hkey => by rw [hfixed] at hkey; cases hkey⟩
  rcases ensureProbe_spec h with ⟨flag, hsteps⟩ | ⟨hsteps, hentries⟩
  · exact ensureProbeSteps_respects hS hsteps
  · have hgone : ∀ entries : List Json, (∀ entry ∈ entries, isStep entry = false) →
        V.steps "probe" entries [] := by
      intro entries hentries
      induction entries with
      | nil => exact hS.refl []
      | cons entry rest ih =>
        have hentry : normalizedIn "probe" entry = true := by
          simp [normalizedIn, hentries entry List.mem_cons_self]
        exact hS.append (hS.redo entry [] hentry)
          (ih fun other hother => hentries other (List.mem_cons_of_mem _ hother))
    rw [hsteps]
    exact hS.trans (hgone _ hentries) (hS.append (hS.fresh checkoutStep) (hS.fresh probeOutStep))

theorem ensureInteractivityProbeJob_respects
    (hV : V.watched "probe" → V.created ∧ V.fixed = [] ∧ Open "probe" (V.steps "probe")) :
    Edit.Respects V.Frame ensureInteractivityProbeJob := by
  intro doc doc' changed hdoc
  obtain ⟨value, hvalue, hdoc⟩ := Option.bind_eq_some_iff.mp hdoc
  split at hdoc
  · next jobs =>
    have hjobs := jobAt_of_jobs hvalue
    split at hdoc
    · next job hjob =>
      obtain ⟨⟨job', flag⟩, hedit, hpure⟩ := Option.bind_eq_some_iff.mp hdoc
      cases hpure
      refine View.frame_putJob hvalue hjobs fun hname => ?_
      rw [hjobs, hjob]
      exact .edited (ensureProbe_respects (hV hname).2.1 (hV hname).2.2 hedit)
    · next hjob =>
      cases hdoc
      refine View.frame_putJob hvalue hjobs fun hname => ?_
      rw [hjobs, hjob]
      exact .new (hV hname).1 probeJob
  · cases hdoc
    exact V.frame_refl doc

variable {Q : String → Option Mapping → Option Mapping → Prop}

theorem ensureForceRunInput_respects (hrefl : ∀ name job, Q name job job) :
    Edit.Respects (Docs Q) ensureForceRunInput := by
  intro doc doc' changed hdoc
  cases doc with
  | obj fields =>
    have hkey : triggersKey fields ≠ "jobs" := by
      unfold triggersKey
      split <;> decide
    have hput : ∀ value, Docs Q (.obj fields) (.obj (put (triggersKey fields) value fields)) := by
      intro value other
      rw [jobAt_obj, jobAt_obj, lookup_put, if_neg (Ne.symm hkey)]
      exact hrefl other _
    have hsame : Docs Q (.obj fields) (.obj fields) := fun other => hrefl other _
    rw [ensureForceRunInput] at hdoc
    split at hdoc
    · cases hdoc
      exact hsame
    · split at hdoc
      · cases hdoc
        exact hsame
      · cases hdoc
        exact hsame
      · obtain ⟨⟨inputs, flag⟩, -, hpure⟩ := Option.bind_eq_some_iff.mp hdoc
        cases hpure
        exact hput _
      · cases hdoc
    · cases hdoc
  | _ => cases hdoc

theorem caught_respects (hrefl : ∀ name job, Q name job job) {edit : Edit Json}
    (h : Edit.Respects (Docs Q) edit) :
    Edit.Respects (Docs Q) (caught edit) := by
  intro doc doc' changed hdoc
  cases hedit : edit doc with
  | none =>
    rw [caught, hedit] at hdoc
    cases hdoc
    exact fun name => hrefl name _
  | some result =>
    rw [caught, hedit] at hdoc
    cases hdoc
    exact h hedit

theorem preInitJob_respects (hS : Open "pre-init" (V.steps "pre-init")) :
    Edit.Respects (V.Job "pre-init") preInitJob := by
  intro job job' changed h
  unfold preInitJob at h
  split at h
  · obtain ⟨⟨job'', flag⟩, hedit, hpure⟩ := Option.bind_eq_some_iff.mp h
    cases hpure
    exact View.putThen (by decide) _ (View.setdefaultSteps (hS.gateSteps rfl)) hedit
  · cases h

theorem lintJob_respects (hS : Open "lint" (V.steps "lint")) :
    Edit.Respects (V.Job "lint") lintJob := by
  intro job job' changed h
  unfold lintJob at h
  split at h
  · obtain ⟨⟨job'', flag⟩, hedit, hpure⟩ := Option.bind_eq_some_iff.mp h
    cases hpure
    exact View.putThen (by decide) _ (View.setdefaultSteps (lintSteps_respects hS)) hedit
  · cases h

theorem longWireJob_respects (hS : Open name (V.steps name)) :
    Edit.Respects (V.Job name) longWireJob := by
  intro job job' changed h
  obtain ⟨⟨job'', flag⟩, hedit, hpure⟩ := Option.bind_eq_some_iff.mp h
  cases hpure
  exact View.ensureThen (by decide) _ (View.setdefaultSteps (longWireSteps_respects hS)) hedit

theorem driftGate_respects (hS : Open "lint" (V.steps "lint")) :
    Edit.Respects (V.Job "lint") (withSteps (Edit.onFirst
      (fun step => some (named driftGateName step)) normalizeDriftGate)) := by
  have hname : driftGateName ∈ lintNames := by simp [lintNames]
  exact View.withSteps (hS.redoFirst (fun step => normalizedIn_lint hname) _)

theorem preflightGuardSteps_respects (hS : Open name (V.steps name)) :
    Edit.Respects (V.steps name) preflightGuardSteps := by
  intro steps steps' changed h
  exact hS.unlessAny (hS.insertAt _) h

theorem total_respects (hfixed : V.fixed = []) {f : Mapping → Mapping × Bool}
    (h : ∀ job, stepEntries (f job).1 = stepEntries job) :
    Edit.Respects (V.Job name) (Edit.total f) := by
  refine Edit.respects_total fun job => ⟨?_, fun key hkey => by rw [hfixed] at hkey; cases hkey⟩
  rw [h]
  exact (V.splicing name).refl _

theorem stepEntries_ensureKey {key : String} (hkey : key ≠ "steps") (value : Json)
    (job : Mapping) : stepEntries (ensureKey key value job).1 = stepEntries job := by
  unfold ensureKey
  split
  · rfl
  · exact stepEntries_put hkey value job

theorem stepEntries_addNeed (need : String) (job : Mapping) :
    stepEntries (addNeed need job).1 = stepEntries job := by
  unfold addNeed
  split
  · exact stepEntries_put (by decide) _ job
  · exact stepEntries_put (by decide) _ job
  · split
    · rfl
    · exact stepEntries_put (by decide) _ job
  · rfl

end Made

/-! ### All transforms -/

section All

variable {V : View}

/-- A view is respected by the transforms that edit one of these jobs, do not make another one and
leave alone what jobs need and when they run. -/
structure View.Allows (V : View) (names : List String) : Prop where
  preflight : V.watched "preflight" → V.created
  tolerant : ∀ name, V.watched name → Tolerant name (V.steps name)
  named : ∀ name ∈ names, V.watched name → Open name (V.steps name)

def earlyJobs (fileName : String) (name : Option Json) : List String :=
  (if isSelfhosted fileName name then ["pre-init"] else []) ++
    (if fileName = "fixture-drift.yml" then ["validate-windows"] else [])

/-- The jobs that are edited in `ci-orchestrated.yml`, but for the probe. -/
def orchestratedJobs : List String :=
  ["preflight", "pester", "pester-category", "drift", "windows-single", "publish", "lint"]

variable {names : List String} (hV : V.Allows names)
include hV

theorem earlyTransforms_respects {fileName : String} {name : Option Json}
    (hnames : earlyJobs fileName name ⊆ names) {e : Edit Json}
    (he : e ∈ earlyTransforms fileName name) : Edit.Respects V.Frame e := by
  rcases List.mem_append.mp he with he | he
  · split at he
    · next hself =>
      have hopen := hV.named "pre-init" (hnames (by simp [earlyJobs, hself]))
      simp only [List.mem_cons, List.not_mem_nil, or_false] at he
      rcases he with rfl | rfl
      · exact ensureForceRunInput_respects V.job_refl
      · exact View.onJob fun hname => preInitJob_respects (hopen hname)
    · cases he
  · split at he
    · next hdrift =>
      have hopen := hV.named "validate-windows" (hnames (by simp [earlyJobs, hdrift]))
      simp only [List.mem_cons, List.not_mem_nil, or_false] at he
      rcases he with rfl | rfl
      · exact appendUnlessUsed_respects hopen _ _
      · exact View.onJob fun hname => longWireJob_respects (hopen hname)
    · cases he

section Orchestrated

variable (hnames : orchestratedJobs ⊆ names)
include hnames

theorem View.Allows.orchestrated {job : String} (h : job ∈ orchestratedJobs) :
    V.watched job → Open job (V.steps job) :=
  hV.named job (hnames h)

variable {e : Edit Json}

theorem orchestratedEarly_respects (he : e ∈ orchestratedEarly) :
    Edit.Respects V.Frame e := by
  simp only [orchestratedEarly, List.mem_cons, List.not_mem_nil, or_false] at he
  rcases he with rfl | rfl | rfl | rfl | rfl | rfl | rfl | rfl | rfl
  · exact ensureHostedPreflight_respects fun hname =>
      ⟨hV.preflight hname, hV.orchestrated hnames (by decide) hname⟩
  · exact appendUnlessUsed_respects (hV.orchestrated hnames (by decide)) _ _
  · exact appendUnlessUsed_respects (hV.orchestrated hnames (by decide)) _ _
  · exact appendUnlessUsed_respects (hV.orchestrated hnames (by decide)) _ _
  · exact appendUnlessUsed_respects (hV.orchestrated hnames (by decide)) _ _
  · exact appendUnlessUsed_respects (hV.orchestrated hnames (by decide)) _ _
  · exact ensureRerunHintAfterSummary_respects hV.tolerant
  · exact ensureRerunHintInJob_respects (hV.orchestrated hnames (by decide))
      (by simp [normalizedNames])
  · exact ensureRerunHintInJob_respects (hV.orchestrated hnames (by decide))
      (by simp [normalizedNames])

theorem orchestratedLint_respects (he : e ∈ orchestratedLint) :
    Edit.Respects V.Frame e := by
  simp only [orchestratedLint, List.mem_cons, List.not_mem_nil, or_false] at he
  rcases he with rfl | rfl
  · exact View.onJob fun hname => lintJob_respects (hV.orchestrated hnames (by decide) hname)
  · exact View.onJob fun hname => driftGate_respects (hV.orchestrated hnames (by decide) hname)

theorem orchestratedWires_respects (he : e ∈ orchestratedWires) :
    Edit.Respects V.Frame e := by
  simp only [orchestratedWires, List.mem_cons, List.not_mem_nil, or_false] at he
  rcases he with rfl | rfl | rfl | rfl | rfl | rfl
  · exact ensureWireS1BeforeSessionIndex_respects hV.tolerant
  · exact ensureWireT1ForTests_respects hV.tolerant
  · exact ensureWireC1C2AroundDrift_respects (hV.orchestrated hnames (by decide)) rfl
  · exact ensureWireI1I2Invoker_respects hV.tolerant
  · exact ensureWireG0G1Guard_respects hV.tolerant
  · exact ensureWireP1AfterFinal_respects hV.tolerant

end Orchestrated

variable {e : Edit Json} {fileName : String}

omit hV in
theorem probeGating_respects {name : String} (h : V.watched name → V.fixed = []) {newIf : Json}
    (he : e ∈ probeGating name newIf) : Edit.Respects V.Frame e := by
  simp only [probeGating, List.mem_cons, List.not_mem_nil, or_false] at he
  rcases he with rfl | rfl
  · exact View.onJob fun hname => total_respects (h hname) (stepEntries_ensureKey (by decide) newIf)
  · exact View.onJob fun hname => total_respects (h hname) (stepEntries_addNeed "probe")

/-- The jobs that the transforms of a file edit by their names. In the integration workflow it is
none if its job calls a reusable workflow. -/
def fileJobs (fileName : String) (reusable : Bool) : List String :=
  if fileName = "ci-orchestrated.yml" then "probe" :: orchestratedJobs
  else if fileName = "pester-integration-on-label.yml" then
    if reusable then [] else ["pester-integration"]
  else if fileName = "smoke.yml" then ["compare"]
  else if fileName = "compare-artifacts.yml" then ["publish"]
  else if fileName = "pester-reusable.yml" then ["preflight"]
  else if fileName = "validate.yml" then ["lint"]
  else []

theorem fileTransforms_respects (hnames : fileJobs fileName false ⊆ names) (hcreated : V.created)
    (hfixed : V.fixed = [])
    (hdrop : ∀ job, V.watched job → ∀ step, isWireProbe step = true → V.steps job [step] [])
    (he : e ∈ fileTransforms fileName) : Edit.Respects V.Frame e := by
  have hprobes := ensureWireProbesAllJobs_respects hV.tolerant hdrop
  unfold fileTransforms at he
  simp only [fileJobs, Bool.false_eq_true, if_false] at hnames
  split_ifs at he hnames
  · have horchestrated : orchestratedJobs ⊆ names :=
      fun job hjob => hnames (List.mem_cons_of_mem _ hjob)
    simp only [orchestratedTransforms, List.mem_append, List.mem_singleton] at he
    rcases he with (((((he | rfl) | he) | he) | he) | rfl) | he
    · exact orchestratedEarly_respects hV horchestrated he
    · exact ensureInteractivityProbeJob_respects fun hname =>
        ⟨hcreated, hfixed, hV.named _ (hnames List.mem_cons_self) hname⟩
    · exact probeGating_respects (fun _ => hfixed) he
    · exact probeGating_respects (fun _ => hfixed) he
    · exact orchestratedLint_respects hV horchestrated he
    · exact hprobes
    · exact orchestratedWires_respects hV horchestrated he
  · have hopen := hV.named _ (hnames List.mem_cons_self)
    obtain rfl := List.mem_singleton.mp he
    intro doc doc' changed hdoc
    unfold ensureIntegrationJob at hdoc
    split at hdoc
    · cases hdoc
      exact V.frame_refl doc
    · refine V.respects_inOrder (fun e he => ?_) hdoc
      simp only [List.mem_cons, List.not_mem_nil, or_false] at he
      rcases he with rfl | rfl
      · exact appendUnlessUsed_respects hopen _ _
      · exact appendUnlessUsed_respects hopen _ _
  · have hopen := hV.named _ (hnames List.mem_cons_self)
    simp only [List.mem_cons, List.not_mem_nil, or_false] at he
    rcases he with rfl | rfl
    · exact appendUnlessUsed_respects hopen _ _
    · exact appendUnlessUsed_respects hopen _ _
  · have hopen := hV.named _ (hnames List.mem_cons_self)
    simp only [List.mem_cons, List.not_mem_nil, or_false] at he
    rcases he with rfl | rfl
    · exact appendUnlessUsed_respects hopen _ _
    · exact appendUnlessUsed_respects hopen _ _
  · have hopen := hV.named _ (hnames List.mem_cons_self)
    obtain rfl := List.mem_singleton.mp he
    exact caught_respects V.job_refl (View.onJob fun hname =>
      View.setdefaultSteps (preflightGuardSteps_respects (hopen hname)))
  · have hopen := hV.named _ (hnames List.mem_cons_self)
    simp only [List.mem_cons, List.not_mem_nil, or_false] at he
    rcases he with rfl | rfl | rfl
    · exact View.onJob fun hname => lintJob_respects (hopen hname)
    · exact hprobes
    · exact ensureWireS1BeforeSessionIndex_respects hV.tolerant
  · cases he

/-- A view that only looks at steps, and allows what is done to them, is respected by all
transforms of a file. -/
theorem transforms_respects {name : Option Json}
    (hnames : earlyJobs fileName name ++ fileJobs fileName false ⊆ names) (hcreated : V.created)
    (hfixed : V.fixed = [])
    (hdrop : ∀ job, V.watched job → ∀ step, isWireProbe step = true → V.steps job [step] [])
    (he : e ∈ transforms fileName name) : Edit.Respects V.Frame e := by
  rcases List.mem_append.mp he with he | he
  · exact earlyTransforms_respects hV (fun job hjob => hnames (List.mem_append_left _ hjob)) he
  · rcases List.mem_cons.mp he with rfl | he
    · exact normalizeHostedPreflightSteps_respects hV.tolerant
    · exact fileTransforms_respects hV
        (fun job hjob => hnames (List.mem_append_right _ hjob)) hcreated hfixed hdrop he

end All

/-! ### Looking at one job -/

def jobView (jobName : String) (created : Prop) (fixed : List String)
    (hfixed : ∀ key ∈ fixed, key ∈ ["needs", "if", "uses"]) : View where
  watched := (· = jobName)
  created := created
  fixed := fixed
  steps _ _ _ := True
  splicing _ := Edit.splicing_any
  fixed_sub := hfixed

theorem open_any (jobName : String) : Open jobName fun _ _ => True where
  toSplicing := Edit.splicing_any
  fresh _ := trivial
  redo _ _ _ := trivial

theorem jobView_allows (names : List String) {jobName : String} {created : Prop}
    {fixed : List String}
    {hfixed : ∀ key ∈ fixed, key ∈ ["needs", "if", "uses"]} (h : jobName = "preflight" → created) :
    (jobView jobName created fixed hfixed).Allows names where
  preflight hname := h hname.symm
  tolerant name _ := (open_any name).tolerant
  named name _ _ := open_any name

end CompareVI.Workflows
