import CompareVI.Workflows.Frames

/-!
# Jobs that wait for the probe

The updater makes two jobs of `ci-orchestrated.yml` run only as the outputs of the job `probe`
say. For the condition to come true the job has to need the probe, and the probe has to check the
repository out before the step with the id `out`, which runs a script of the repository: the
document is `Gated`.

`GateReady` is the shape of the document for which the result is gated (`gated_iff`). A job that
names one need as a text is not given the probe as another. Of the steps of a probe job that is
there already, the checkout may come after the `out` step, and may have the name of a wire probe:
it is then taken out with these.

The argument follows two things through the run of the transforms: of the two jobs what they need
and when they run (`needsView`), and of the probe job which steps check out or have the id
(`marksView`). All other transforms leave these as they are.
-/

open Framework

namespace CompareVI.Workflows

/-! ### The property -/

def gatedJobs : List String := ["windows-single", "pester-category"]

def asksProbe (job : Mapping) : Bool :=
  match job.lookup "if" with
  | some (.str condition) => containsText "needs.probe.outputs" condition
  | _ => false

def needsProbe (job : Mapping) : Bool :=
  match job.lookup "needs" with
  | some (.str need) => need = "probe"
  | some (.arr needs) => .str "probe" ∈ needs
  | _ => false

/-- There is a checkout before the first step with the id `out`. -/
def OutAfterCheckout (steps : List Json) : Prop :=
  ∃ before step after, steps = before ++ step :: after ∧ hasId "out" step = true ∧
    (∀ other ∈ before, hasId "out" other = false) ∧ ∃ other ∈ before, isCheckout other = true

/-- The conditions on the outputs of the probe can come true. -/
structure Gated (doc : Json) : Prop where
  needs : ∀ name ∈ gatedJobs, ∀ job, jobAt doc name = some job → asksProbe job = true →
    needsProbe job = true
  probe : ∃ job, jobAt doc "probe" = some job ∧ OutAfterCheckout (stepEntries job)

/-! ### The shape that is asked for -/

def takesProbe (job : Mapping) : Bool :=
  match job.lookup "needs" with
  | none | some .null | some (.arr _) => true
  | some (.str need) => need = "probe"
  | _ => false

def staysCheckout (step : Json) : Bool := isCheckout step && !isWireProbe step

/-- A checkout stays before the first step with the id `out` or, where no step has the id, the
first checkout stays. -/
def staysFirst (steps : List Json) : Bool :=
  if steps.any (hasId "out") then (steps.takeWhile fun step => !hasId "out" step).any staysCheckout
  else (steps.find? isCheckout).any staysCheckout

def probeReady (steps : List Json) : Bool := !steps.any isCheckout || staysFirst steps

/-- The jobs take the probe as a need, and a probe job that is there is ready. -/
structure GateReady (doc : Json) : Prop where
  needs : ∀ name ∈ gatedJobs, ∀ job, jobAt doc name = some job → takesProbe job = true
  probe : ∀ job, jobAt doc "probe" = some job → probeReady (stepEntries job) = true

/-! ### The steps of the probe job -/

/-- What matters of a step: whether it checks out, has the id `out` and is named like a wire
probe. -/
structure Mark where
  checkout : Bool
  out : Bool
  wire : Bool
  deriving DecidableEq

def mark (step : Json) : Option Mark :=
  if isCheckout step || hasId "out" step then
    some ⟨isCheckout step, hasId "out" step, isWireProbe step⟩
  else none

variable {changed : Bool} {e : Edit Json} {doc doc' step : Json} {steps steps' : List Json}
  {job : Mapping} {name : Option Json} {condition jobName : String}

theorem mark_of_plain (h : Plain step) : mark step = none := by
  rw [mark, h.1, h.2]
  rfl

theorem mark_of_sameRole {step' : Json} (h : SameRole step step') :
    mark step' = mark step := by
  have hname : ∀ name, named name step' = named name step := fun name => by
    rw [named, named, h "name" (by simp)]
  have hid : hasId "out" step' = hasId "out" step := by rw [hasId, hasId, h "id" (by simp)]
  have hcheckout : isCheckout step' = isCheckout step := by
    rw [isCheckout, isCheckout, usesStarts, usesStarts, usesText, usesText, h "uses" (by simp)]
  rw [mark, mark, isWireProbe, isWireProbe, hname, hname, hid, hcheckout]

/-- In the marks there is a checkout before the first `out`. -/
def readyMarks (marks : List Mark) : Bool :=
  (marks.takeWhile fun m => !m.out).any (·.checkout) && marks.any (·.out)

theorem any_checkout_marks (steps : List Json) :
    (steps.filterMap mark).any (·.checkout) = steps.any isCheckout := by
  induction steps with
  | nil => rfl
  | cons step rest ih =>
    rw [List.filterMap_cons, List.any_cons]
    cases hcheckout : isCheckout step <;> cases hout : hasId "out" step <;>
      simp [mark, hcheckout, hout, ih]

theorem readyMarks_split {before after : List Json} (hstep : hasId "out" step = true)
    (hbefore : ∀ other ∈ before, hasId "out" other = false) :
    readyMarks ((before ++ step :: after).filterMap mark) = before.any isCheckout := by
  have hmark : mark step = some ⟨isCheckout step, true, isWireProbe step⟩ := by
    rw [mark, hstep, Bool.or_true]
    rfl
  have hout : ∀ m ∈ before.filterMap mark, (!m.out) = true := by
    intro m hm
    obtain ⟨other, hother, hm⟩ := List.mem_filterMap.mp hm
    unfold mark at hm
    split at hm
    · cases hm
      rw [hbefore other hother]
      rfl
    · cases hm
  rw [List.filterMap_append, List.filterMap_cons, hmark, readyMarks]
  rw [List.takeWhile_append_of_pos hout, List.takeWhile_cons, List.any_append, List.any_append]
  simp [any_checkout_marks before]

theorem outAfterCheckout_iff (steps : List Json) :
    OutAfterCheckout steps ↔ readyMarks (steps.filterMap mark) = true := by
  constructor
  · rintro ⟨before, step, after, rfl, hstep, hbefore, hcheckout⟩
    rw [readyMarks_split hstep hbefore]
    exact List.any_eq_true.mpr hcheckout
  · intro h
    have hout : steps.any (hasId "out") = true := by
      obtain ⟨m, hm, hmout⟩ := List.any_eq_true.mp (Bool.and_eq_true_iff.mp h).2
      obtain ⟨step, hstep, hmark⟩ := List.mem_filterMap.mp hm
      unfold mark at hmark
      split at hmark
      · cases hmark
        exact List.any_eq_true.mpr ⟨step, hstep, hmout⟩
      · cases hmark
    obtain ⟨before, step, after, rfl, hbefore, hstep⟩ := Edit.exists_split hout
    rw [readyMarks_split hstep hbefore] at h
    exact ⟨before, step, after, rfl, hstep, hbefore, List.any_eq_true.mp h⟩

theorem filterMap_mark_filter (steps : List Json) :
    (steps.filter fun step => !isWireProbe step).filterMap mark =
      (steps.filterMap mark).filter fun m => !m.wire := by
  induction steps with
  | nil => rfl
  | cons step rest ih =>
    cases hwire : isWireProbe step <;>
      cases hmark : isCheckout step || hasId "out" step <;>
        simp [mark, hwire, hmark, ih]

theorem normalized_outStep (h : hasId "out" step = true) :
    hasId "out" (onMapping (ensureKeys probeOutFields) step).1 = true ∧
      isWireProbe (onMapping (ensureKeys probeOutFields) step).1 = false ∧
      isCheckout (onMapping (ensureKeys probeOutFields) step).1 = isCheckout step := by
  cases step with
  | obj fields =>
    have hother : ∀ key, key ∉ ["name", "shell", "run"] →
        (ensureKeys probeOutFields fields).1.lookup key = fields.lookup key := by
      intro key hkey
      refine lookup_ensureKeys_of_ne (fun pair hpair hne => hkey ?_) fields
      rw [hne]
      exact List.mem_map_of_mem (f := Prod.fst) hpair
    have hname : (ensureKeys probeOutFields fields).1.lookup "name" =
        some (.str probeStepName) := by
      have htail : ∀ pair ∈ probeOutFields.tail, "name" ≠ pair.1 := by simp [probeOutFields]
      have hrest : (ensureKeys probeOutFields fields).1.lookup "name" =
          (ensureKey "name" (.str probeStepName) fields).1.lookup "name" :=
        lookup_ensureKeys_of_ne htail _
      rw [hrest, lookup_ensureKey_str]
    refine ⟨?_, ?_, ?_⟩
    · rw [← h, hasId, hasId]
      exact congrArg (fun value => decide (value = some (Json.str "out"))) (hother "id" (by simp))
    · have hne : ∀ name, name ≠ probeStepName →
          named name (.obj (ensureKeys probeOutFields fields).1) = false := by
        intro name hne
        rw [named, Json.get?, hname]
        simpa using Ne.symm hne
      show isWireProbe (.obj (ensureKeys probeOutFields fields).1) = false
      rw [isWireProbe, hne _ (by decide), hne _ (by decide)]
      rfl
    · show isCheckout (.obj (ensureKeys probeOutFields fields).1) = isCheckout (.obj fields)
      rw [isCheckout, isCheckout, usesStarts, usesStarts, usesText, usesText, Json.get?,
        hother "uses" (by simp)]
      rfl
  | _ => cases h

/-- Steps with a checkout and an `out` step that is no wire probe; whether a checkout stays before
the first of these is given. -/
def OutSettled (steps : List Json) (ready : Bool) : Prop :=
  steps.any isCheckout = true ∧ ∃ before step after, steps = before ++ step :: after ∧
    (∀ other ∈ before, hasId "out" other = false) ∧ hasId "out" step = true ∧
    isWireProbe step = false ∧ before.any staysCheckout = ready

theorem updateOut_settled (hcheckout : steps.any isCheckout = true)
    (hout : steps.any (hasId "out") = true)
    (h : updateFirst (hasId "out") (onMapping (ensureKeys probeOutFields)) steps =
      some (steps', changed)) : OutSettled steps' (staysFirst steps) := by
  rcases Edit.onFirst_spec h with
    ⟨hnone, -, -⟩ | ⟨before, step, after, hsteps, hbefore, hstep, rfl, -⟩
  · obtain ⟨step, hmem, hstep⟩ := List.any_eq_true.mp hout
    rw [hnone step hmem] at hstep
    cases hstep
  · obtain ⟨hid, hwire, hsame⟩ := normalized_outStep hstep
    refine ⟨?_, before, _, after, List.append_assoc .., hbefore, hid, hwire, ?_⟩
    · rw [hsteps] at hcheckout
      simpa [hsame] using hcheckout
    · have hpos : ∀ other ∈ before, (!hasId "out" other) = true := fun other hother => by
        rw [hbefore other hother]
        rfl
      have htake : (steps.takeWhile fun step => !hasId "out" step) = before := by
        rw [hsteps, List.takeWhile_append_of_pos hpos, List.takeWhile_cons, hstep]
        exact List.append_nil before
      rw [staysFirst, if_pos hout, htake]

theorem insertOut_settled (hcheckout : steps.any isCheckout = true)
    (hout : steps.any (hasId "out") = false)
    (h : insertAfter isCheckout probeOutStep steps = some (steps', changed)) :
    OutSettled steps' (staysFirst steps) := by
  rcases Edit.onFirst_spec h with
    ⟨hnone, -, -⟩ | ⟨before, step, after, hsteps, hbefore, hstep, rfl, -⟩
  · obtain ⟨step, hmem, hstep⟩ := List.any_eq_true.mp hcheckout
    rw [hnone step hmem] at hstep
    cases hstep
  · have hfind : steps.find? isCheckout = some step :=
      List.find?_eq_some_iff_append.mpr ⟨hstep, before, after, hsteps, fun other hother => by
        rw [hbefore other hother]
        rfl⟩
    have hnone : before.any staysCheckout = false := by
      refine List.any_eq_false.mpr fun other hother => ?_
      rw [staysCheckout, hbefore other hother]
      exact Bool.false_ne_true
    refine ⟨by simp [hstep], before ++ [step], probeOutStep, after, by simp, ?_, rfl, rfl, ?_⟩
    · intro other hother
      have hmem : other ∈ steps := by
        rw [hsteps]
        rcases List.mem_append.mp hother with hmem | hmem
        · exact List.mem_append_left _ hmem
        · rw [List.mem_singleton.mp hmem]
          exact List.mem_append_right _ List.mem_cons_self
      simpa using List.any_eq_false.mp hout other hmem
    · rw [staysFirst, hout, hfind, List.any_append, hnone]
      simp

theorem ensureProbeSteps_settled (h : ensureProbeSteps steps = some (steps', changed)) :
    OutSettled steps' (probeReady steps) := by
  obtain ⟨middle, first, second, hfirst, hsecond, -⟩ := Edit.andThen_spec h
  have hmiddle : middle.any isCheckout = true ∧ probeReady steps = staysFirst middle := by
    unfold Edit.unlessAny at hfirst
    split at hfirst
    · next hcheckout =>
      cases hfirst
      rw [probeReady, hcheckout]
      exact ⟨rfl, rfl⟩
    · next hcheckout =>
      cases hfirst
      have hnone : steps.any isCheckout = false := by simpa using hcheckout
      have hfind : (checkoutStep :: steps).find? isCheckout = some checkoutStep := rfl
      have htake : ((checkoutStep :: steps).takeWhile fun step => !hasId "out" step) =
          checkoutStep :: steps.takeWhile fun step => !hasId "out" step := rfl
      have hstays : staysFirst (checkoutStep :: steps) = true := by
        rw [staysFirst, hfind, htake]
        split <;> rfl
      refine ⟨rfl, ?_⟩
      show probeReady steps = staysFirst (checkoutStep :: steps)
      rw [probeReady, hnone, hstays]
      rfl
  obtain ⟨hcheckout, hready⟩ := hmiddle
  rw [hready]
  cases hout : middle.any (hasId "out") with
  | true =>
    rw [Edit.ifAny_pos hout] at hsecond
    exact updateOut_settled hcheckout hout hsecond
  | false =>
    rw [Edit.ifAny_neg hout, Edit.ifAny_pos hcheckout] at hsecond
    exact insertOut_settled hcheckout hout hsecond

variable {ready : Bool} {newIf : Json} {V : View}

theorem OutSettled.readyMarks_eq (h : OutSettled steps ready) :
    readyMarks ((steps.filterMap mark).filter fun m => !m.wire) = ready := by
  obtain ⟨-, before, step, after, rfl, hbefore, hstep, hwire, hready⟩ := h
  have hkept : ((before ++ step :: after).filter fun step => !isWireProbe step) =
      before.filter (fun step => !isWireProbe step) ++
        step :: after.filter fun step => !isWireProbe step := by
    rw [List.filter_append, List.filter_cons, hwire]
    rfl
  have hbefore' : ∀ other ∈ before.filter (fun step => !isWireProbe step),
      hasId "out" other = false := fun other hother => hbefore other (List.mem_filter.mp hother).1
  rw [← filterMap_mark_filter, hkept, readyMarks_split hstep hbefore', ← hready, List.any_filter]
  exact List.any_congr rfl fun other => Bool.and_comm ..

/-! ### Readiness shows in the marks -/

theorem any_out_marks (steps : List Json) :
    (steps.filterMap mark).any (·.out) = steps.any (hasId "out") := by
  induction steps with
  | nil => rfl
  | cons step rest ih =>
    rw [List.filterMap_cons, List.any_cons]
    cases hcheckout : isCheckout step <;> cases hout : hasId "out" step <;>
      simp [mark, hcheckout, hout, ih]

theorem takeWhile_marks (steps : List Json) :
    (((steps.filterMap mark).takeWhile fun m => !m.out).any fun m => m.checkout && !m.wire) =
      (steps.takeWhile fun step => !hasId "out" step).any staysCheckout := by
  induction steps with
  | nil => rfl
  | cons step rest ih =>
    rw [List.filterMap_cons, List.takeWhile_cons]
    cases hcheckout : isCheckout step <;> cases hout : hasId "out" step <;>
      simp [mark, staysCheckout, hcheckout, hout, ih]

theorem find?_marks (steps : List Json) :
    (((steps.filterMap mark).find? (·.checkout)).any fun m => m.checkout && !m.wire) =
      (steps.find? isCheckout).any staysCheckout := by
  induction steps with
  | nil => rfl
  | cons step rest ih =>
    rw [List.filterMap_cons, List.find?_cons]
    cases hcheckout : isCheckout step <;> cases hout : hasId "out" step <;>
      simp [mark, staysCheckout, hcheckout, hout, ih, -List.find?_filterMap]

theorem probeReady_congr (h : steps'.filterMap mark = steps.filterMap mark) :
    probeReady steps' = probeReady steps := by
  rw [probeReady, probeReady, staysFirst, staysFirst, ← any_checkout_marks, ← any_checkout_marks,
    ← any_out_marks, ← any_out_marks, ← takeWhile_marks, ← takeWhile_marks, ← find?_marks,
    ← find?_marks, h]

/-! ### What the other transforms leave alone -/

def needsView (jobName : String) : View := jobView jobName False ["needs", "if"] (by simp)

def marksView : View where
  watched := (· = "probe")
  created := False
  fixed := []
  steps _ steps steps' := steps'.filterMap mark = steps.filterMap mark
  splicing _ := Edit.splicing_reading mark
  fixed_sub := View.fixed_sub_nil

theorem marksView_allows {names : List String} (h : "probe" ∉ names) : marksView.Allows names where
  preflight h := absurd h (show "preflight" ≠ "probe" by decide)
  tolerant name _ := {
    toSplicing := Edit.splicing_reading mark
    before := fun step new hnew => by
      show [new, step].filterMap mark = [step].filterMap mark
      rw [List.filterMap_cons, mark_of_plain hnew]
    after := fun step new hnew => by
      show [step, new].filterMap mark = [step].filterMap mark
      rw [List.filterMap_cons, List.filterMap_cons, List.filterMap_cons, mark_of_plain hnew]
    update := fun step step' _ hrole => by
      show [step'].filterMap mark = [step].filterMap mark
      rw [List.filterMap_cons, List.filterMap_cons, mark_of_sameRole hrole] }
  named name hname hwatched := absurd (hwatched ▸ hname) h

def beforeProbe (name : Option Json) : List (Edit Json) :=
  earlyTransforms "ci-orchestrated.yml" name ++ normalizeHostedPreflightSteps :: orchestratedEarly

def jobsBefore (name : Option Json) : List String :=
  earlyJobs "ci-orchestrated.yml" name ++ orchestratedJobs

theorem probe_not_mem_jobsBefore (name : Option Json) : "probe" ∉ jobsBefore name := by
  unfold jobsBefore earlyJobs
  split <;> simp [orchestratedJobs]

theorem beforeProbe_respects (hV : V.Allows (jobsBefore name)) (he : e ∈ beforeProbe name) :
    Edit.Respects V.Frame e := by
  rcases List.mem_append.mp he with he | he
  · exact earlyTransforms_respects hV (List.subset_append_left _ _) he
  · rcases List.mem_cons.mp he with rfl | he
    · exact normalizeHostedPreflightSteps_respects hV.tolerant
    · exact orchestratedEarly_respects hV (List.subset_append_right _ _) he

theorem probeGating_not_watched (h : ¬ V.watched jobName) (he : e ∈ probeGating jobName newIf) :
    Edit.Respects V.Frame e :=
  probeGating_respects (fun hname => absurd hname h) he

theorem needsView_wires (h : jobName ≠ "preflight")
    (he : e ∈ orchestratedLint ++ ensureWireProbesAllJobs :: orchestratedWires) :
    Edit.Respects (needsView jobName).Frame e := by
  have hV : (needsView jobName).Allows orchestratedJobs :=
    jobView_allows _ fun heq => absurd heq h
  rcases List.mem_append.mp he with he | he
  · exact orchestratedLint_respects hV (List.Subset.refl _) he
  · rcases List.mem_cons.mp he with rfl | he
    · exact ensureWireProbesAllJobs_respects hV.tolerant fun _ _ _ _ => trivial
    · exact orchestratedWires_respects hV (List.Subset.refl _) he

/-! ### What the gated jobs need -/

theorem needsProbe_addNeed (job : Mapping) :
    needsProbe (addNeed "probe" job).1 = takesProbe job := by
  unfold addNeed
  cases hneeds : job.lookup "needs" with
  | none => simp [needsProbe, takesProbe, hneeds, lookup_put]
  | some value =>
    cases value with
    | arr needs =>
      dsimp only
      split <;> simp_all [needsProbe, takesProbe, lookup_put]
    | _ => simp [needsProbe, takesProbe, hneeds, lookup_put]

theorem lookup_if_addNeed (need : String) (job : Mapping) :
    (addNeed need job).1.lookup "if" = job.lookup "if" := by
  unfold addNeed
  split
  · rw [lookup_put, if_neg (by decide)]
  · rw [lookup_put, if_neg (by decide)]
  · split
    · rfl
    · rw [lookup_put, if_neg (by decide)]
  · rfl

theorem probeGating_at
    (h : Edit.inOrder (probeGating jobName (.str condition)) doc = some (doc', changed))
    (hjob : jobAt doc jobName = some job) :
    ∃ job', jobAt doc' jobName = some job' ∧ job'.lookup "if" = some (.str condition) ∧
      needsProbe job' = takesProbe job := by
  obtain ⟨middle, _, _, hif, hrest, -⟩ := Edit.andThen_spec h
  obtain ⟨last, _, _, hneeds, hskip, -⟩ := Edit.andThen_spec hrest
  cases hskip
  obtain ⟨job₁, _, hjob₁, hat₁⟩ := onJob_at hif hjob
  obtain ⟨job₂, _, hjob₂, hat₂⟩ := onJob_at hneeds hat₁
  obtain rfl := Edit.total_spec hjob₁
  obtain rfl := Edit.total_spec hjob₂
  refine ⟨_, hat₂, ?_, ?_⟩
  · rw [lookup_if_addNeed, lookup_ensureKey_str]
  · have hsame : takesProbe (ensureKey "if" (.str condition) job).1 = takesProbe job := by
      rw [takesProbe, takesProbe, lookup_ensureKey_of_ne (by decide)]
    rw [needsProbe_addNeed, hsame]

/-- A job before and after its gating, with transforms around that leave alone what it needs and
when it runs. -/
theorem gated_run {before after : List (Edit Json)}
    (hbefore : ∀ e ∈ before, Edit.Respects (needsView jobName).Frame e)
    (hafter : ∀ e ∈ after, Edit.Respects (needsView jobName).Frame e)
    (hif : newIf = .str condition) (hrefers : containsText "needs.probe.outputs" condition = true)
    (h : Edit.inOrder (before ++ (probeGating jobName newIf ++ after)) doc =
      some (doc', changed)) :
    (jobAt doc jobName = none → jobAt doc' jobName = none) ∧
      ∀ job, jobAt doc jobName = some job → ∃ job', jobAt doc' jobName = some job' ∧
        asksProbe job' = true ∧ needsProbe job' = takesProbe job := by
  subst hif
  obtain ⟨doc₁, _, _, h₁, h, -⟩ := Edit.inOrder_append_spec h
  obtain ⟨doc₂, _, _, h₂, h₃, -⟩ := Edit.inOrder_append_spec h
  have hfirst := (needsView jobName).respects_inOrder hbefore h₁ jobName rfl
  have hlast := (needsView jobName).respects_inOrder hafter h₃ jobName rfl
  constructor
  · intro hnone
    rw [hnone] at hfirst
    have hgating := (jobView jobName False [] (by simp)).respects_inOrder
      (fun e he => probeGating_respects (fun _ => rfl) he) h₂ jobName rfl
    rw [hfirst.of_none not_false] at hgating
    rw [hgating.of_none not_false] at hlast
    exact hlast.of_none not_false
  · intro job hjob
    rw [hjob] at hfirst
    obtain ⟨job₁, hat₁, hsame₁⟩ := hfirst.of_some
    obtain ⟨job₂, hat₂, hif, hneeds⟩ := probeGating_at h₂ hat₁
    rw [hat₂] at hlast
    obtain ⟨job', hat', hsame'⟩ := hlast.of_some
    refine ⟨job', hat', ?_, ?_⟩
    · rw [asksProbe, hsame'.others "if" (by simp [needsView, jobView]), hif]
      exact hrefers
    · have hkept : needsProbe job' = needsProbe job₂ := by
        rw [needsProbe, needsProbe, hsame'.others "needs" (by simp [needsView, jobView])]
      rw [hkept, hneeds, takesProbe, takesProbe,
        hsame₁.others "needs" (by simp [needsView, jobView])]

/-! ### The probe job -/

def probeReadyIn (doc : Json) : Bool :=
  (jobAt doc "probe").all fun job => probeReady (stepEntries job)

theorem ensureInteractivityProbeJob_settled {other : String} {otherJob : Mapping}
    (hjobs : jobAt doc other = some otherJob)
    (h : ensureInteractivityProbeJob doc = some (doc', changed)) :
    ∃ job, jobAt doc' "probe" = some job ∧ OutSettled (stepEntries job) (probeReadyIn doc) := by
  have hnew : OutSettled probeSteps true :=
    ⟨rfl, [checkoutStep], probeOutStep, [], rfl,
      fun other hother => by rw [List.mem_singleton.mp hother]; rfl, rfl, rfl, rfl⟩
  obtain ⟨value, hvalue, h⟩ := Option.bind_eq_some_iff.mp h
  split at h
  · next jobs =>
    split at h
    · next job hjob =>
      obtain ⟨⟨job', flag⟩, hedit, hpure⟩ := Option.bind_eq_some_iff.mp h
      cases hpure
      refine ⟨job', by rw [jobAt_putJobs_put hvalue, if_pos rfl], ?_⟩
      have hat : jobAt doc "probe" = some job := (jobAt_of_jobs hvalue "probe").trans hjob
      have hready : probeReadyIn doc = probeReady (stepEntries job) := by
        rw [probeReadyIn, hat]
        rfl
      rw [hready]
      rcases ensureProbe_spec hedit with ⟨_, hsteps⟩ | ⟨hsteps, hentries⟩
      · exact ensureProbeSteps_settled hsteps
      · have hnone : (stepEntries job).any isCheckout = false := by
          refine List.any_eq_false.mpr fun entry hentry hcheckout => ?_
          have hmapping := hentries entry hentry
          cases entry with
          | obj fields => cases hmapping
          | _ => cases hcheckout
        rw [hsteps, probeReady, hnone]
        exact hnew
    · next hjob =>
      cases h
      have hat : jobAt doc "probe" = none := (jobAt_of_jobs hvalue "probe").trans hjob
      refine ⟨probeJob, by rw [jobAt_putJobs_put hvalue, if_pos rfl], ?_⟩
      rw [probeReadyIn, hat]
      exact hnew
  · next hne =>
    rw [jobAt, hvalue] at hjobs
    split at hjobs
    · next jobs heq => exact absurd (Option.some.inj heq) (hne jobs)
    · cases hjobs

/-- The wire probes are taken out of the marks, and where there was a checkout the document
changes. -/
theorem insertWireJ1J2_spec {dir : String} {job' : Mapping}
    (h : insertWireJ1J2 dir job = some (job', changed)) :
    (stepEntries job').filterMap mark =
        ((stepEntries job).filterMap mark).filter (fun m => !m.wire) ∧
      ((stepEntries job).any isCheckout = true → changed = true) := by
  obtain ⟨entries, hentries, h⟩ := Option.bind_eq_some_iff.mp h
  obtain ⟨⟨steps, flag⟩, hsteps, hpure⟩ := Option.bind_eq_some_iff.mp h
  cases hpure
  have hsame : stepEntries job = entries := by rw [stepEntries_eq_getD, hentries]; rfl
  obtain ⟨kept, dropped, inserted, hkept, hinsert, rfl⟩ := Edit.andThen_spec hsteps
  cases hkept
  rw [stepEntries_put_steps, hsame, ← filterMap_mark_filter]
  rcases Edit.onFirst_spec hinsert with
    ⟨hnone, rfl, rfl⟩ | ⟨before, step, after, hsplit, -, -, rfl, rfl⟩
  · refine ⟨rfl, fun hcheckout => ?_⟩
    -- A checkout that is not there any more was taken out with the probes.
    obtain ⟨step, hmem, hstep⟩ := List.any_eq_true.mp hcheckout
    have hwire : isWireProbe step = true := by
      by_contra hwire
      have hstays := hnone step (List.mem_filter.mpr ⟨hmem, by simpa using hwire⟩)
      rw [hstep] at hstays
      cases hstays
    rw [List.any_eq_true.mpr ⟨step, hmem, hwire⟩]
    rfl
  · refine ⟨?_, fun _ => Bool.or_true _⟩
    have hprobe : ∀ name phase, mark (wireStep name phase dir) = none :=
      fun name phase => mark_of_plain (plain_wireStep name phase dir)
    show (before ++ [step, _, _] ++ after).filterMap mark = _
    rw [hsplit]
    simp [List.filterMap_append, List.filterMap_cons, hprobe]

theorem wires_settled
    (h : Edit.inOrder (ensureWireProbesAllJobs :: orchestratedWires) doc = some (doc', changed))
    (hjob : jobAt doc "probe" = some job) (hcheckout : (stepEntries job).any isCheckout = true)
    (hready : readyMarks (((stepEntries job).filterMap mark).filter fun m => !m.wire) = ready) :
    changed = true ∧ ∃ job', jobAt doc' "probe" = some job' ∧
      (OutAfterCheckout (stepEntries job') ↔ ready = true) := by
  obtain ⟨middle, first, second, hfirst, hsecond, rfl⟩ := Edit.andThen_spec h
  rw [ensureWireProbesAllJobs, ifJobs_of_jobAt hjob] at hfirst
  obtain ⟨job₁, flag, hinsert, hat₁, hflag⟩ := onEachJob_at hfirst hjob
  obtain ⟨hmarks, hchanged⟩ := insertWireJ1J2_spec hinsert
  have hV : marksView.Allows orchestratedJobs := marksView_allows (by simp [orchestratedJobs])
  have hlast := marksView.respects_inOrder
    (fun e he => orchestratedWires_respects hV (List.Subset.refl _) he) hsecond "probe" rfl
  rw [hat₁] at hlast
  obtain ⟨job', hat', hsame⟩ := hlast.of_some
  refine ⟨by rw [hflag (hchanged hcheckout), Bool.true_or], job', hat', ?_⟩
  have hsteps : (stepEntries job').filterMap mark = (stepEntries job₁).filterMap mark := hsame.steps
  rw [outAfterCheckout_iff, hsteps, hmarks, hready]

/-! ### The whole run -/

theorem transforms_orchestrated (name : Option Json) :
    transforms "ci-orchestrated.yml" name = beforeProbe name ++ (ensureInteractivityProbeJob ::
      (probeGating "windows-single" singleCondition ++
        (probeGating "pester-category" matrixCondition ++
          (orchestratedLint ++ ensureWireProbesAllJobs :: orchestratedWires)))) := by
  simp [transforms, fileTransforms, orchestratedTransforms, beforeProbe]

theorem exists_job_beforeProbe (h : Edit.inOrder (beforeProbe name) doc = some (doc', changed)) :
    ∃ job, jobAt doc' "preflight" = some job := by
  obtain ⟨doc₁, _, _, -, h₁, -⟩ := Edit.inOrder_append_spec h
  obtain ⟨doc₂, _, _, -, h₂, -⟩ := Edit.andThen_spec h₁
  obtain ⟨doc₃, _, _, hpreflight, h₃, -⟩ := Edit.andThen_spec h₂
  have hmade : ∃ job, jobAt doc₃ "preflight" = some job := by
    cases doc₂ with
    | obj fields =>
      obtain ⟨⟨job, _⟩, -, hpure⟩ := Option.bind_eq_some_iff.mp hpreflight
      cases hpure
      have hvalue : jobsOf (.obj fields) = some (orElse (fields.lookup "jobs") (.obj [])) := rfl
      refine ⟨job, ?_⟩
      rw [jobAt_of_jobs (jobsOf_putJobs hvalue _), lookup_put, if_pos rfl]
      rfl
    | _ => cases hpreflight
  obtain ⟨job, hjob⟩ := hmade
  have hrest := (jobView "preflight" True [] (by simp)).respects_inOrder
    (fun e he => orchestratedEarly_respects (jobView_allows orchestratedJobs fun _ => trivial)
      (List.Subset.refl _) (List.mem_cons_of_mem _ he)) h₃ "preflight" rfl
  rw [hjob] at hrest
  obtain ⟨job', hjob', -⟩ := hrest.of_some
  exact ⟨job', hjob'⟩

/-- The probe job after a run: the run changes the document, and the order of the steps is as the
document was ready. -/
theorem probe_run
    (h : Edit.inOrder (transforms "ci-orchestrated.yml" name) doc = some (doc', changed)) :
    changed = true ∧ ∃ job, jobAt doc' "probe" = some job ∧
      (OutAfterCheckout (stepEntries job) ↔ probeReadyIn doc = true) := by
  rw [transforms_orchestrated] at h
  obtain ⟨doc₁, _, _, h₁, hrest₁, rfl⟩ := Edit.inOrder_append_spec h
  obtain ⟨doc₂, _, _, h₂, hrest₂, rfl⟩ := Edit.andThen_spec hrest₁
  obtain ⟨doc₃, _, _, h₃, hrest₃, rfl⟩ := Edit.inOrder_append_spec hrest₂
  obtain ⟨doc₄, _, _, h₄, hrest₄, rfl⟩ := Edit.inOrder_append_spec hrest₃
  obtain ⟨doc₅, _, _, h₅, h₆, rfl⟩ := Edit.inOrder_append_spec hrest₄
  have hfirst := marksView.respects_inOrder
    (fun e he => beforeProbe_respects (marksView_allows (probe_not_mem_jobsBefore name)) he)
    h₁ "probe" rfl
  have hready : probeReadyIn doc₁ = probeReadyIn doc := by
    unfold probeReadyIn
    cases hat : jobAt doc "probe" with
    | none =>
      rw [hat] at hfirst
      rw [hfirst.of_none not_false]
    | some job =>
      rw [hat] at hfirst
      obtain ⟨job₁, hat₁, hsame⟩ := hfirst.of_some
      rw [hat₁]
      exact probeReady_congr hsame.steps
  obtain ⟨other, hother⟩ := exists_job_beforeProbe h₁
  obtain ⟨job₂, hat₂, hsettled⟩ := ensureInteractivityProbeJob_settled hother h₂
  have hprobe : ¬ marksView.watched "windows-single" := show "windows-single" ≠ "probe" by decide
  have hprobe' : ¬ marksView.watched "pester-category" := show "pester-category" ≠ "probe" by decide
  have hV : marksView.Allows orchestratedJobs := marksView_allows (by simp [orchestratedJobs])
  have hframe : marksView.Frame doc₂ doc₅ := marksView.frame_trans
    (marksView.respects_inOrder (fun e he => probeGating_not_watched hprobe he) h₃)
    (marksView.frame_trans
      (marksView.respects_inOrder (fun e he => probeGating_not_watched hprobe' he) h₄)
      (marksView.respects_inOrder
        (fun e he => orchestratedLint_respects hV (List.Subset.refl _) he) h₅))
  have hmiddle := hframe "probe" rfl
  rw [hat₂] at hmiddle
  obtain ⟨job₅, hat₅, hsame⟩ := hmiddle.of_some
  have hmarks : (stepEntries job₅).filterMap mark = (stepEntries job₂).filterMap mark := hsame.steps
  have hcheckout : (stepEntries job₅).any isCheckout = true := by
    rw [← any_checkout_marks, hmarks, any_checkout_marks]
    exact hsettled.1
  have hkept : readyMarks (((stepEntries job₅).filterMap mark).filter fun m => !m.wire) =
      probeReadyIn doc := by
    rw [hmarks, hsettled.readyMarks_eq, hready]
  obtain ⟨hchanged, hprobeJob⟩ := wires_settled h₆ hat₅ hcheckout hkept
  refine ⟨?_, hprobeJob⟩
  simp only [hchanged, Bool.or_true]

theorem containsText_within {text s : String} (before after : String)
    (h : containsText text s = true) : containsText text (before ++ s ++ after) = true := by
  have hinfix : text.toList <:+: s.toList := of_decide_eq_true h
  refine decide_eq_true ?_
  rw [String.toList_append, String.toList_append]
  exact hinfix.trans (List.infix_append before.toList s.toList after.toList)

theorem singleCondition_refers : containsText "needs.probe.outputs" (expression
    ("(inputs.strategy == 'single' || vars.ORCH_STRATEGY == 'single') && " ++
      "needs.probe.outputs.ok == 'true'")) = true := by
  refine containsText_within _ _ ?_
  rw [← String.append_empty (s := _ ++ _)]
  exact containsText_within _ _ (by decide +kernel)

theorem matrixCondition_refers : containsText "needs.probe.outputs" (expression
    ("inputs.strategy == 'matrix' || vars.ORCH_STRATEGY == 'matrix' || " ++
      "(inputs.strategy == '' && vars.ORCH_STRATEGY == '') || (inputs.strategy == 'single' && " ++
      "needs.probe.outputs.ok == 'false')")) = true := by
  refine containsText_within _ _ ?_
  rw [← String.append_empty (s := _ ++ _)]
  exact containsText_within _ _ (by decide +kernel)

theorem needs_run
    (h : Edit.inOrder (transforms "ci-orchestrated.yml" name) doc = some (doc', changed))
    (hgated : jobName ∈ gatedJobs) :
    (jobAt doc jobName = none → jobAt doc' jobName = none) ∧
      ∀ job, jobAt doc jobName = some job → ∃ job', jobAt doc' jobName = some job' ∧
        asksProbe job' = true ∧ needsProbe job' = takesProbe job := by
  rw [transforms_orchestrated] at h
  have hne : jobName ≠ "preflight" ∧ "probe" ≠ jobName := by
    simp only [gatedJobs, List.mem_cons, List.not_mem_nil, or_false] at hgated
    rcases hgated with rfl | rfl <;> decide
  have hearly : ∀ e ∈ beforeProbe name ++ [ensureInteractivityProbeJob],
      Edit.Respects (needsView jobName).Frame e := by
    intro e he
    rcases List.mem_append.mp he with he | he
    · exact beforeProbe_respects (jobView_allows _ fun heq => absurd heq hne.1) he
    · rw [List.mem_singleton.mp he]
      exact ensureInteractivityProbeJob_respects fun hname => absurd hname hne.2
  have hlate : ∀ e ∈ orchestratedLint ++ ensureWireProbesAllJobs :: orchestratedWires,
      Edit.Respects (needsView jobName).Frame e := fun e he => needsView_wires hne.1 he
  simp only [gatedJobs, List.mem_cons, List.not_mem_nil, or_false] at hgated
  rcases hgated with rfl | rfl
  · have hrun : Edit.inOrder ((beforeProbe name ++ [ensureInteractivityProbeJob]) ++
        (probeGating "windows-single" singleCondition ++
          (probeGating "pester-category" matrixCondition ++
            (orchestratedLint ++ ensureWireProbesAllJobs :: orchestratedWires)))) doc =
        some (doc', changed) := by
      rw [List.append_assoc]
      exact h
    refine gated_run hearly (fun e he => ?_) rfl singleCondition_refers hrun
    rcases List.mem_append.mp he with he | he
    · exact probeGating_not_watched (show "pester-category" ≠ "windows-single" by decide) he
    · exact hlate e he
  · have hrun : Edit.inOrder ((beforeProbe name ++ [ensureInteractivityProbeJob] ++
          probeGating "windows-single" singleCondition) ++
        (probeGating "pester-category" matrixCondition ++
          (orchestratedLint ++ ensureWireProbesAllJobs :: orchestratedWires))) doc =
        some (doc', changed) := by
      rw [List.append_assoc, List.append_assoc]
      exact h
    refine gated_run (fun e he => ?_) hlate rfl matrixCondition_refers hrun
    rcases List.mem_append.mp he with he | he
    · exact hearly e he
    · exact probeGating_not_watched (show "windows-single" ≠ "pester-category" by decide) he

/-- After a run on `ci-orchestrated.yml` the conditions on the outputs of the probe can come true
exactly if the document was ready for it. -/
theorem gated_iff {doc out : Json} (h : applyTransforms "ci-orchestrated.yml" doc = some out) :
    Gated out ↔ GateReady doc := by
  cases doc with
  | obj fields =>
    obtain ⟨⟨doc', changed⟩, hrun, hpure⟩ := Option.bind_eq_some_iff.mp h
    obtain ⟨hchanged, job', hjob', hsteps⟩ := probe_run hrun
    subst hchanged
    obtain rfl : doc' = out := Option.some.inj hpure
    have hready : probeReadyIn (.obj fields) = true ↔
        ∀ job, jobAt (.obj fields) "probe" = some job → probeReady (stepEntries job) = true := by
      rw [probeReadyIn, Option.all_eq_true]
    constructor
    · rintro ⟨hneeds, job, hjob, hout⟩
      refine ⟨fun name hname job hjob => ?_, hready.mp ?_⟩
      · obtain ⟨job₁, hjob₁, hasks, htakes⟩ := (needs_run hrun hname).2 job hjob
        rw [← htakes]
        exact hneeds name hname job₁ hjob₁ hasks
      · rw [hjob'] at hjob
        cases hjob
        exact hsteps.mp hout
    · rintro ⟨hneeds, hprobe⟩
      refine ⟨fun name hname job hjob _ => ?_, job', hjob', hsteps.mpr (hready.mpr hprobe)⟩
      obtain ⟨hnone, hsome⟩ := needs_run hrun hname
      cases hat : jobAt (.obj fields) name with
      | none =>
        rw [hnone hat] at hjob
        cases hjob
      | some job₀ =>
        obtain ⟨job₁, hjob₁, -, htakes⟩ := hsome job₀ hat
        rw [hjob₁] at hjob
        cases hjob
        rw [htakes]
        exact hneeds name hname job₀ hat
  | _ => cases h

def singleNeedDocument : Json := .obj [
  ("name", .str "CI Orchestrated"),
  ("jobs", .obj [
    ("windows-single", .obj [
      ("runs-on", .str "windows-latest"),
      ("needs", .str "normalize"),
      ("steps", .arr [checkoutStep])])])]

/-- The Windows job of this workflow asks the probe afterwards without needing it. -/
theorem not_gated_singleNeed :
    ∃ out, applyTransforms "ci-orchestrated.yml" singleNeedDocument = some out ∧ ¬ Gated out := by
  have hjob : ((applyTransforms "ci-orchestrated.yml" singleNeedDocument).bind fun out =>
      (jobAt out "windows-single").map fun job => (asksProbe job, needsProbe job)) =
        some (true, false) := by decide +kernel
  obtain ⟨out, hout, hat⟩ := Option.bind_eq_some_iff.mp hjob
  obtain ⟨job, hjob, hpair⟩ := Option.map_eq_some_iff.mp hat
  refine ⟨out, hout, fun hgated => ?_⟩
  have hnot : needsProbe job = false := congrArg Prod.snd hpair
  have hneeds := hgated.needs "windows-single" (by simp [gatedJobs]) job hjob
    (congrArg Prod.fst hpair)
  rw [hnot] at hneeds
  cases hneeds

def listedNeedsDocument : Json := .obj [
  ("name", .str "CI Orchestrated"),
  ("jobs", .obj [
    ("pester-category", .obj [
      ("runs-on", .str "windows-latest"),
      ("needs", .arr [.str "normalize"]),
      ("steps", .arr [checkoutStep])])])]

theorem gated_listedNeeds :
    ∃ out, applyTransforms "ci-orchestrated.yml" listedNeedsDocument = some out ∧
      (Gated out ↔ GateReady listedNeedsDocument) := by
  have hsome : (applyTransforms "ci-orchestrated.yml" listedNeedsDocument).isSome = true := by
    decide +kernel
  obtain ⟨out, hout⟩ := Option.isSome_iff_exists.mp hsome
  exact ⟨out, hout, gated_iff hout⟩

end CompareVI.Workflows
