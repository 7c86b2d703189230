import CompareVI.Workflows.Frames

/-!
# Steps that are kept

What a run of the updater leaves of the steps of a document. In every job the steps that are not
normalized keep their content and their order (`keptView`). A job that the transforms of the file
do not edit by its name gets no step where it had none (`steplessView`), and outside the two
files in which all jobs are edited no step at all and no `steps` (`Unnamed`): there only the
hosted steps are normalized.

The integration job is not edited where it calls a reusable workflow. The transforms before do
not touch what it uses, so this can be seen in the document as it was (`isReusable_early`).
-/

open Framework

namespace CompareVI.Workflows

def namedJobs (fileName : String) (doc : Json) : List String :=
  earlyJobs fileName (doc.get? "name") ++ fileJobs fileName (isReusable doc)

def wholeFiles : List String := ["ci-orchestrated.yml", "validate.yml"]

/-- What a run leaves of the steps of a job. -/
structure StepFrame (fileName : String) (doc : Json) (name : String) (job job' : Mapping) :
    Prop where
  kept : ((stepEntries job).filter fun step => !normalizedIn name step).Sublist (stepEntries job')
  stepless : name ∉ namedJobs fileName doc → stepEntries job = [] → stepEntries job' = []
  unnamed : fileName ∉ wholeFiles → name ∉ namedJobs fileName doc →
    (stepEntries job').length = (stepEntries job).length ∧
      (job.lookup "steps" = none → job'.lookup "steps" = none)

theorem StepFrame.refl (fileName : String) (doc : Json) (name : String) (job : Mapping) :
    StepFrame fileName doc name job job where
  kept := List.filter_sublist
  stepless _ h := h
  unnamed _ _ := ⟨rfl, id⟩

/-! ### Steps that are not normalized -/

def keptView : View where
  watched _ := True
  created := True
  fixed := []
  steps name := Edit.Keeping fun step => !normalizedIn name step
  splicing _ := Edit.splicing_keeping _
  fixed_sub := View.fixed_sub_nil

theorem keptView_open (name : String) : Open name (keptView.steps name) where
  toSplicing := Edit.splicing_keeping _
  fresh _ := List.nil_sublist _
  redo step steps h := by
    show ([step].filter fun step => !normalizedIn name step).Sublist steps
    rw [List.filter_cons, h]
    exact List.nil_sublist _

variable {changed : Bool} {e : Edit Json} {doc doc' : Json} {names : List String}
   {name : Option Json} {fileName : String}

theorem keptView_respects (he : e ∈ transforms fileName name) : Edit.Respects keptView.Frame e := by
  have hV : keptView.Allows (earlyJobs fileName name ++ fileJobs fileName false) :=
    ⟨fun _ => trivial, fun job _ => (keptView_open job).tolerant, fun job _ _ => keptView_open job⟩
  exact transforms_respects hV (List.Subset.refl _) trivial rfl
    (fun job _ step hstep => (keptView_open job).redo step [] (normalizedIn_of_wireProbe hstep job))
    he

/-! ### Jobs without steps -/

def steplessView (names : List String) : View where
  watched name := name ∉ names
  created := True
  fixed := []
  steps _ steps steps' := steps = [] → steps' = []
  splicing _ := Edit.splicing_empty
  fixed_sub := View.fixed_sub_nil

theorem steplessView_respects (he : e ∈ transforms fileName name) :
    Edit.Respects (steplessView (earlyJobs fileName name ++ fileJobs fileName false)).Frame e := by
  refine transforms_respects ⟨fun _ => trivial, fun job _ => ?_, fun job hjob hnot => ?_⟩
    (List.Subset.refl _) trivial rfl (fun job _ step _ h => ?_) he
  · exact {
      toSplicing := Edit.splicing_empty
      before := fun step new _ h => absurd h (List.cons_ne_nil step [])
      after := fun step new _ h => absurd h (List.cons_ne_nil step [])
      update := fun step step' _ _ h => absurd h (List.cons_ne_nil step []) }
  · exact absurd hjob hnot
  · exact absurd h (List.cons_ne_nil step [])

/-! ### Jobs that are not edited by their names -/

/-- A job of another name comes to have as many steps, and no `steps` if it had none. -/
def Unnamed (names : List String) (name : String) (a b : Option Mapping) : Prop :=
  name ∉ names → ∀ job, a = some job → ∃ job', b = some job' ∧
    (stepEntries job').length = (stepEntries job).length ∧
      (job.lookup "steps" = none → job'.lookup "steps" = none)

theorem unnamed_refl (names : List String) (name : String) (job : Option Mapping) :
    Unnamed names name job job :=
  fun _ job hjob => ⟨job, hjob, rfl, id⟩

theorem unnamed_trans {a b c : Json} (hab : Docs (Unnamed names) a b)
    (hbc : Docs (Unnamed names) b c) : Docs (Unnamed names) a c := by
  intro name hname job hjob
  obtain ⟨job₁, hjob₁, hlength₁, hkey₁⟩ := hab name hname job hjob
  obtain ⟨job₂, hjob₂, hlength₂, hkey₂⟩ := hbc name hname job₁ hjob₁
  exact ⟨job₂, hjob₂, hlength₂.trans hlength₁, fun h => hkey₂ (hkey₁ h)⟩

theorem inOrder_unnamed {edits : List (Edit Json)}
    (h : ∀ e ∈ edits, Edit.Respects (Docs (Unnamed names)) e) :
    Edit.Respects (Docs (Unnamed names)) (Edit.inOrder edits) := by
  have hrefl : ∀ doc, Docs (Unnamed names) doc doc :=
    fun doc name => unnamed_refl names name (jobAt doc name)
  exact Edit.respects_inOrder hrefl unnamed_trans h

theorem onJob_unnamed {name : String} (h : name ∈ names) (edit : Edit Mapping) :
    Edit.Respects (Docs (Unnamed names)) (onJob name edit) :=
  onJob_respects (unnamed_refl names) fun _ _ _ _ hname => absurd h hname

theorem normalizeHostedPreflightSteps_unnamed (names : List String) :
    Edit.Respects (Docs (Unnamed names)) normalizeHostedPreflightSteps := by
  refine ifJobs_respects (unnamed_refl names) (onEachJob_respects (unnamed_refl names) ?_)
  intro name job job' changed hjob _ _ hsome
  cases hsome
  have hframe : JobFrame [] (fun s t => t.length = s.length) job job' :=
    withSteps_respects List.not_mem_nil Edit.splicing_length
      (Edit.splicing_length.onEach fun step => rfl) hjob
  refine ⟨job', rfl, hframe.steps, fun hkey => ?_⟩
  obtain ⟨⟨steps, flag⟩, hsteps, hpure⟩ := Option.bind_eq_some_iff.mp hjob
  have hnone : stepsOf job = .arr [] := by
    rw [stepsOf, hkey]
    rfl
  rw [hnone] at hsteps
  cases hsteps
  cases hpure
  exact hkey

theorem earlyTransforms_unnamed (hnames : earlyJobs fileName name ⊆ names)
    (he : e ∈ earlyTransforms fileName name) : Edit.Respects (Docs (Unnamed names)) e := by
  rcases List.mem_append.mp he with he | he
  · split at he
    · next hself =>
      have hmem : "pre-init" ∈ names := hnames (by simp [earlyJobs, hself])
      simp only [List.mem_cons, List.not_mem_nil, or_false] at he
      rcases he with rfl | rfl
      · exact ensureForceRunInput_respects (unnamed_refl names)
      · exact onJob_unnamed hmem _
    · cases he
  · split at he
    · next hdrift =>
      have hmem : "validate-windows" ∈ names := hnames (by simp [earlyJobs, hdrift])
      simp only [List.mem_cons, List.not_mem_nil, or_false] at he
      rcases he with rfl | rfl
      · exact onJob_unnamed hmem _
      · exact onJob_unnamed hmem _
    · cases he

def usesView (jobName : String) : View := jobView jobName False ["uses"] (by simp)

theorem isReusable_early
    (h : Edit.inOrder (earlyTransforms fileName name ++ [normalizeHostedPreflightSteps]) doc =
      some (doc', changed)) : isReusable doc' = isReusable doc := by
  have hV : (usesView "pester-integration").Allows (earlyJobs fileName name) :=
    jobView_allows _ (fun h => absurd h (by decide))
  have hframe := (usesView "pester-integration").respects_inOrder (fun e he => by
    rcases List.mem_append.mp he with he | he
    · exact earlyTransforms_respects hV (List.Subset.refl _) he
    · rw [List.mem_singleton.mp he]
      exact normalizeHostedPreflightSteps_respects hV.tolerant) h "pester-integration" rfl
  unfold isReusable
  cases hat : jobAt doc "pester-integration" with
  | none =>
    rw [hat] at hframe
    rw [hframe.of_none not_false]
  | some job =>
    rw [hat] at hframe
    obtain ⟨job', hat', hsame⟩ := hframe.of_some
    have huses : job'.lookup "uses" = job.lookup "uses" :=
      hsame.others "uses" List.mem_cons_self
    rw [hat', Option.bind_some, Option.bind_some, huses]

theorem fileTransforms_unnamed (hfile : fileName ∉ wholeFiles)
    (hnames : fileJobs fileName (isReusable doc) ⊆ names)
    (h : Edit.inOrder (fileTransforms fileName) doc = some (doc', changed)) :
    Docs (Unnamed names) doc doc' := by
  have hrefl : ∀ doc, Docs (Unnamed names) doc doc := fun doc name => unnamed_refl names name _
  have hpair : ∀ {job : String} {first second : Edit Mapping}, job ∈ names → ∀ {a b : Json}
      {flag : Bool}, Edit.inOrder [onJob job first, onJob job second] a = some (b, flag) →
      Docs (Unnamed names) a b := by
    intro job first second hjob a b flag hab
    refine inOrder_unnamed (fun e he => ?_) hab
    simp only [List.mem_cons, List.not_mem_nil, or_false] at he
    rcases he with rfl | rfl
    · exact onJob_unnamed hjob first
    · exact onJob_unnamed hjob second
  simp only [wholeFiles, List.mem_cons, List.not_mem_nil, or_false, not_or] at hfile
  unfold fileJobs at hnames
  unfold fileTransforms at h
  rw [if_neg hfile.1] at h hnames
  split at h
  · next hintegration =>
    rw [if_pos hintegration] at hnames
    obtain ⟨doc₁, _, _, hedit, hskip, -⟩ := Edit.andThen_spec h
    cases hskip
    unfold ensureIntegrationJob at hedit
    split at hedit
    · cases hedit
      exact hrefl doc
    · next hreusable =>
      rw [if_neg hreusable] at hnames
      exact hpair (hnames List.mem_cons_self) hedit
  · next hintegration =>
    rw [if_neg hintegration] at hnames
    split_ifs at h hnames
    · exact hpair (hnames List.mem_cons_self) h
    · exact hpair (hnames List.mem_cons_self) h
    · obtain ⟨doc₁, _, _, hedit, hskip, -⟩ := Edit.andThen_spec h
      cases hskip
      exact caught_respects (unnamed_refl names) (onJob_unnamed (hnames List.mem_cons_self) _) hedit
    · next hvalidate => exact absurd hvalidate hfile.2
    · cases h
      exact hrefl doc

/-! ### A run -/

theorem run_unnamed (hfile : fileName ∉ wholeFiles) {fields : Mapping}
    (h : Edit.inOrder (transforms fileName (fields.lookup "name")) (.obj fields) =
      some (doc', changed)) :
    Docs (Unnamed (namedJobs fileName (.obj fields))) (.obj fields) doc' := by
  have hparts : transforms fileName (fields.lookup "name") =
      (earlyTransforms fileName (fields.lookup "name") ++ [normalizeHostedPreflightSteps]) ++
        fileTransforms fileName := by
    simp [transforms]
  rw [hparts] at h
  obtain ⟨doc₁, _, _, hearly, hlate, -⟩ := Edit.inOrder_append_spec h
  have hfirst : Docs (Unnamed (namedJobs fileName (.obj fields))) (.obj fields) doc₁ := by
    refine inOrder_unnamed (fun e he => ?_) hearly
    rcases List.mem_append.mp he with he | he
    · exact earlyTransforms_unnamed (List.subset_append_left _ _) he
    · rw [List.mem_singleton.mp he]
      exact normalizeHostedPreflightSteps_unnamed _
  have hnames : fileJobs fileName (isReusable doc₁) ⊆ namedJobs fileName (.obj fields) := by
    rw [isReusable_early hearly]
    exact List.subset_append_right _ _
  exact unnamed_trans hfirst (fileTransforms_unnamed hfile hnames hlate)

theorem namedJobs_of_whole (hfile : fileName ∈ wholeFiles) (fields : Mapping) :
    namedJobs fileName (.obj fields) =
      earlyJobs fileName (fields.lookup "name") ++ fileJobs fileName false := by
  simp only [wholeFiles, List.mem_cons, List.not_mem_nil, or_false] at hfile
  rcases hfile with rfl | rfl
  · rfl
  · rfl

/-- What a run of the updater leaves of the steps of a document. -/
theorem applyTransforms_frame {fileName : String} {doc out : Json}
    (h : applyTransforms fileName doc = some out) {name : String} {job : Mapping}
    (hjob : jobAt doc name = some job) :
    ∃ job', jobAt out name = some job' ∧ StepFrame fileName doc name job job' := by
  cases doc with
  | obj fields =>
    obtain ⟨⟨doc', changed⟩, hrun, hpure⟩ := Option.bind_eq_some_iff.mp h
    cases changed with
    | false =>
      obtain rfl : Json.obj fields = out := Option.some.inj hpure
      exact ⟨job, hjob, StepFrame.refl fileName _ name job⟩
    | true =>
      obtain rfl : doc' = out := Option.some.inj hpure
      have hkept := keptView.respects_inOrder (fun e he => keptView_respects he) hrun name trivial
      rw [hjob] at hkept
      obtain ⟨job', hjob', hframe⟩ := hkept.of_some
      have hunnamed : fileName ∉ wholeFiles → name ∉ namedJobs fileName (.obj fields) →
          (stepEntries job').length = (stepEntries job).length ∧
            (job.lookup "steps" = none → job'.lookup "steps" = none) := by
        intro hfile hname
        obtain ⟨job₁, hjob₁, hsame⟩ := run_unnamed hfile hrun name hname job hjob
        rw [hjob'] at hjob₁
        cases hjob₁
        exact hsame
      refine ⟨job', hjob', hframe.steps, fun hname hnone => ?_, hunnamed⟩
      by_cases hfile : fileName ∈ wholeFiles
      · rw [namedJobs_of_whole hfile] at hname
        have hstepless := (steplessView _).respects_inOrder
          (fun e he => steplessView_respects he) hrun name hname
        rw [hjob, hjob'] at hstepless
        obtain ⟨job₁, hjob₁, hsame⟩ := hstepless.of_some
        cases hjob₁
        exact hsame.steps hnone
      · have hlength := (hunnamed hfile hname).1
        rw [hnone] at hlength
        exact List.length_eq_zero_iff.mp hlength
  | _ => cases h

def gateStep : Json := .obj [
  ("id", .str "g"),
  ("uses", .str "./.github/actions/pre-init-gate")]

def gateDocument : Json := .obj [
  ("name", .str "Pester (self-hosted)"),
  ("jobs", .obj [("pre-init", .obj [
    ("runs-on", .str "ubuntu-latest"),
    ("steps", .arr [gateStep])])])]

def callJob : Mapping := [("uses", .str "./.github/workflows/pester-reusable.yml")]

def callDocument : Json := .obj [
  ("name", .str "CI Orchestrated"),
  ("jobs", .obj [("pester-run", .obj callJob)])]

/-- The gate, which is none of the other steps that are normalized, is given another content; and
a job that calls a reusable workflow is given `steps`. -/
theorem not_framed_gateDocument :
    ((∀ name ∈ normalizedNames ++ lintNames, named name gateStep = false) ∧
      isVerifyRunner gateStep = false ∧ hasId "out" gateStep = false ∧
      (jobAt gateDocument "pre-init").any (fun job => gateStep ∈ stepEntries job) = true ∧
      ((applyTransforms "pester-selfhosted.yml" gateDocument).bind (jobAt · "pre-init")).any
        (fun job => gateStep ∉ stepEntries job) = true) ∧
    jobAt callDocument "pester-run" = some callJob ∧ callJob.lookup "steps" = none ∧
      ((applyTransforms "ci-orchestrated.yml" callDocument).bind (jobAt · "pester-run")).any
        (fun job => job.lookup "steps" = some (.arr [])) = true := by
  refine ⟨⟨?_, rfl, rfl, ?_, ?_⟩, rfl, rfl, ?_⟩
  · decide
  · decide
  · decide +kernel
  · decide +kernel

theorem frame_gateDocument :
    ∃ out job job', applyTransforms "pester-selfhosted.yml" gateDocument = some out ∧
      jobAt gateDocument "pre-init" = some job ∧ jobAt out "pre-init" = some job' ∧
      StepFrame "pester-selfhosted.yml" gateDocument "pre-init" job job' := by
  have hsome : (applyTransforms "pester-selfhosted.yml" gateDocument).isSome = true := by
    decide +kernel
  obtain ⟨out, hout⟩ := Option.isSome_iff_exists.mp hsome
  have hjob : jobAt gateDocument "pre-init" =
      some [("runs-on", .str "ubuntu-latest"), ("steps", .arr [gateStep])] := rfl
  obtain ⟨job', hjob', hframe⟩ := applyTransforms_frame hout hjob
  exact ⟨out, _, job', hout, hjob, hjob', hframe⟩

end CompareVI.Workflows
