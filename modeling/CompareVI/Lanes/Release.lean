import CompareVI.Lanes.Program
import CompareVI.Framework.Keyed
import CompareVI.Framework.Loop

/-!
# When lanes are released

The application of a plan followed by the observation of its receipt should keep three
promises (`ReleaseLaw`): an application that says failed has dispatched nothing; lanes are
released only after the run that was dispatched for them was seen to complete well; and
every selected lane is counted once.

`releaseLaw_iff` says when the two programs keep them. A dispatch whose report cannot be
written counts as failed although the run is under way. And a run that is not known (its
id did not come back, or GitHub says something of it that is neither active nor completed)
has the status unknown, which no counter and no decision looks at: the receipt is settled
and the slot is released.
-/

open Framework

namespace CompareVI.Lanes

/-! ### The law -/

def selectedIds (plan : Plan) : List String := (plan.recommendedBundle.map (·.laneIds)).getD []

/-- A hosted lane is selected. -/
def SelectsHosted (plan : Plan) : Prop :=
  ∃ laneId ∈ selectedIds plan, ∃ lane, plan.lane? laneId = some lane ∧ lane.Hosted

def ApplyInput.outcome (i : ApplyInput) : ValidateOutcome :=
  i.dispatchValidate (buildValidateDispatchArgv i.options)

/-- The application dispatches a run. -/
def RunDispatched (i : ApplyInput) (plan : Plan) : Prop :=
  SelectsHosted plan ∧ i.options.dryRun = false ∧ i.outcome.Dispatched

/-- The observation asks GitHub about the run with the id. -/
def AsksAbout (o : StatusInput) (applied : ApplyReceipt) (result : DispatchResult)
    (repository : String) (id : ℕ) : Prop :=
  coercePositiveInteger result.databaseId = some id ∧
    resolveRepository o applied = .ok (some repository) ∧ optionText (some repository) ≠ none

def runStatus (payload : Json) : String :=
  normalizeLower (Json.optionText (Json.path (some payload) ["status"]))

def runConclusion (payload : Json) : String :=
  normalizeLower (Json.optionText (Json.path (some payload) ["conclusion"]))

/-- The run that was dispatched was observed completed, with a good conclusion. -/
def RunObservedCompleted (i : ApplyInput) (o : StatusInput) (applied : ApplyReceipt) : Prop :=
  ∃ result repository id payload, i.outcome = .returned result ∧
    AsksAbout o applied result repository id ∧ o.run repository id = .ok payload ∧
    runStatus payload = "completed" ∧ runConclusion payload ∈ SUCCESSFUL_CONCLUSIONS

def Disposition.Releases : Disposition → Prop
  | releaseMergeQueue | releaseWithDeferredLocal | releaseComplete => True
  | holdInvestigate | waitHostedRun => False

def countedStatuses : List RuntimeStatus :=
  [.active, .completed, .failed, .blocked, .planned, .deferred]

/-- What an application and the observation of its receipt should keep to. -/
structure ReleaseLaw (i : ApplyInput) (o : StatusInput) (plan : Plan) (applied : ApplyReceipt)
    (receipt : StatusReceipt) : Prop where
  /-- An application that says failed has dispatched nothing. -/
  failed : applied.status = .failed → ¬ RunDispatched i plan
  /-- Lanes are released only after their run was seen to complete well. -/
  released : receipt.status = .settled ∨ receipt.summary.orchestratorDisposition.Releases →
    RunDispatched i plan → ∀ lane ∈ receipt.laneStatuses, lane.Hosted →
      lane.runtimeStatus = .completed ∧ RunObservedCompleted i o applied
  /-- Every selected lane is there once, with a status that is counted. -/
  counted : ∀ laneId ∈ selectedIds plan, ∃ lane,
    receipt.laneStatuses.filter (·.id = laneId) = [lane] ∧ lane.runtimeStatus ∈ countedStatuses

/-- GitHub says of the run that it is active or completed, or fails to answer. -/
def RunKnown (o : StatusInput) (applied : ApplyReceipt) (result : DispatchResult) : Prop :=
  ∃ repository id, AsksAbout o applied result repository id ∧
    ∀ payload, o.run repository id = .ok payload →
      runStatus payload ∈ ACTIVE_RUN_STATUSES ∨ runStatus payload = "completed"

/-- A run that was dispatched is reported and known, and no lane is selected twice. -/
structure EndsKnown (i : ApplyInput) (o : StatusInput) (plan : Plan) (applied : ApplyReceipt) :
    Prop where
  known : RunDispatched i plan → ∃ result reportPath, i.outcome = .returned result ∧
    i.writeReport result = .ok reportPath ∧ RunKnown o applied result
  distinct : (selectedIds plan).Nodup

/-! ### The application -/

section Apply

variable {i : ApplyInput} {plan : Plan} {planSource : String} {applied : ApplyReceipt}

variable {bundle : Bundle} {lanes : List Lane}

variable {lane : Lane} {laneId : String}

theorem selectRawLane_eq_ok (h : selectRawLane plan bundle laneId = .ok lane) :
    plan.lane? laneId = some lane := by
  unfold selectRawLane at h
  split at h
  · rename_i found hfound
    rw [hfound, Except.ok.inj h]
  · cases h

theorem Plan.lane?_id (h : plan.lane? laneId = some lane) :
    lane.id = laneId := by
  have hfound := List.find?_some h
  exact of_decide_eq_true hfound

theorem selectRawLanes_eq_ok (h : selectRawLanes plan bundle = .ok lanes) :
    List.Forall₂ (fun laneId lane => plan.lane? laneId = some lane) bundle.laneIds lanes :=
  (mapM_eq_ok_iff.mp h).imp fun _ _ => selectRawLane_eq_ok

/-- What an application does with a plan. -/
structure Applies (i : ApplyInput) (plan : Plan) (applied : ApplyReceipt) : Prop where
  ids : applied.selectedLanes.map (·.id) = selectedIds plan
  hosted : (∃ lane ∈ applied.selectedLanes, lane.Hosted) ↔ SelectsHosted plan
  decision : ∀ lane ∈ applied.selectedLanes,
    lane.decision = laneDecision applied.validateDispatch.status lane.toLane
  failed : applied.status = .failed ↔ applied.validateDispatch.status = .failed
  dispatches : SelectsHosted plan → i.options.dryRun = false →
    applied.validateDispatch = dispatchHosted i
  idle : ¬ (SelectsHosted plan ∧ i.options.dryRun = false) →
    applied.validateDispatch.status = .notRequired ∨ applied.validateDispatch.status = .dryRun
  required : SelectsHosted plan → applied.validateDispatch.status ≠ .notRequired

theorem dispatchHosted_status (i : ApplyInput) :
    (dispatchHosted i).status = .failed ∨ (dispatchHosted i).status = .dispatched := by
  unfold dispatchHosted
  split
  · exact .inl rfl
  · split
    · exact .inl rfl
    · exact .inr rfl

theorem dispatchHosted_eq_dispatched_iff :
    (dispatchHosted i).status = .dispatched ↔ ∃ result reportPath,
      i.outcome = .returned result ∧ i.writeReport result = .ok reportPath := by
  unfold dispatchHosted ApplyInput.outcome
  split
  · rename_i houtcome
    refine iff_of_false DispatchStatus.noConfusion ?_
    rintro ⟨result, -, hreturned, -⟩
    rw [houtcome] at hreturned
    cases hreturned
  · rename_i result houtcome
    split
    · rename_i hwrite
      refine iff_of_false DispatchStatus.noConfusion ?_
      rintro ⟨result', reportPath, hreturned, hwritten⟩
      obtain rfl := ValidateOutcome.returned.inj (houtcome.symm.trans hreturned)
      rw [hwrite] at hwritten
      cases hwritten
    · rename_i reportPath hwrite
      exact iff_of_true rfl ⟨result, reportPath, houtcome, hwrite⟩

theorem dispatchHosted_runDatabaseId {result : DispatchResult} {reportPath : Option String}
    (houtcome : i.outcome = .returned result) (hwrite : i.writeReport result = .ok reportPath) :
    (dispatchHosted i).runDatabaseId = result.databaseId := by
  unfold ApplyInput.outcome at houtcome
  unfold dispatchHosted
  rw [houtcome]
  dsimp only
  rw [hwrite]

theorem selectsHosted_iff (hbundle : plan.recommendedBundle = some bundle)
    (hlanes : selectRawLanes plan bundle = .ok lanes) :
    SelectsHosted plan ↔ ∃ lane ∈ lanes, lane.Hosted := by
  have hids : selectedIds plan = bundle.laneIds := by
    rw [selectedIds, hbundle]
    rfl
  have hall := selectRawLanes_eq_ok hlanes
  rw [SelectsHosted, hids]
  clear hlanes
  generalize bundle.laneIds = laneIds at hall
  induction hall with
  | nil => simp
  | cons hlane _ ih =>
    simp only [List.exists_mem_cons_iff]
    refine or_congr ?_ ih
    constructor
    · rintro ⟨lane, hfound, hhosted⟩
      rwa [Option.some.inj (hlane.symm.trans hfound)]
    · exact fun hhosted => ⟨_, hlane, hhosted⟩

theorem map_id_lanes {laneIds : List String}
    (h : List.Forall₂ (fun laneId lane => plan.lane? laneId = some lane) laneIds lanes) :
    lanes.map (·.id) = laneIds := by
  induction h with
  | nil => rfl
  | cons hlane _ ih => rw [List.map_cons, ih, Plan.lane?_id hlane]

theorem applies_none (hbundle : plan.recommendedBundle = none) :
    Applies i plan (buildConcurrentLaneApplyReceipt plan planSource none []
      (initialDispatch i.options) .noop) := by
  have hids : selectedIds plan = [] := by
    rw [selectedIds, hbundle]
    rfl
  have hnone : ¬ SelectsHosted plan := by
    rintro ⟨laneId, hmem, -⟩
    rw [hids] at hmem
    cases hmem
  exact {
    ids := hids.symm
    hosted := by
      refine iff_of_false ?_ hnone
      rintro ⟨lane, hmem, -⟩
      cases hmem
    decision := List.forall_mem_nil _
    failed := iff_of_false ApplyStatus.noConfusion DispatchStatus.noConfusion
    dispatches := fun hhosted => absurd hhosted hnone
    idle := fun _ => .inl rfl
    required := fun hhosted => absurd hhosted hnone }

theorem applies_some (hbundle : plan.recommendedBundle = some bundle)
    (hlanes : selectRawLanes plan bundle = .ok lanes) :
    Applies i plan (buildConcurrentLaneApplyReceipt plan planSource (some bundle)
      (lanes.map fun lane => cloneLaneForReceipt lane
        (laneDecision (validateDispatch i lanes).status lane))
      (validateDispatch i lanes)
      (if (validateDispatch i lanes).status = .failed then .failed else .succeeded)) := by
  have hhosted := selectsHosted_iff hbundle hlanes
  have hfilter : lanes.filter (·.Hosted) = [] ↔ ¬ SelectsHosted plan := by
    rw [hhosted, List.filter_eq_nil_iff]
    simp
  exact {
    ids := by
      rw [selectedIds, hbundle]
      unfold buildConcurrentLaneApplyReceipt
      rw [List.map_map]
      exact map_id_lanes (selectRawLanes_eq_ok hlanes)
    hosted := by
      rw [hhosted]
      unfold buildConcurrentLaneApplyReceipt
      simp only [List.mem_map, exists_exists_and_eq_and]
      rfl
    decision := by
      intro lane hmem
      obtain ⟨raw, -, rfl⟩ := List.mem_map.mp hmem
      rfl
    failed := by
      unfold buildConcurrentLaneApplyReceipt
      split
      · rename_i hfailed
        exact iff_of_true rfl hfailed
      · rename_i hfailed
        exact iff_of_false ApplyStatus.noConfusion hfailed
    dispatches := fun hselects hdry => by
      unfold buildConcurrentLaneApplyReceipt validateDispatch
      rw [if_neg fun h => hfilter.mp h hselects, if_neg (by rw [hdry]; exact Bool.false_ne_true)]
    idle := fun hidle => by
      unfold buildConcurrentLaneApplyReceipt validateDispatch
      split
      · exact .inl rfl
      · rename_i hsome
        rw [hfilter, not_not] at hsome
        rw [if_pos (Bool.not_eq_false _ ▸ fun hdry => hidle ⟨hsome, hdry⟩)]
        exact .inr rfl
    required := fun hselects => by
      unfold buildConcurrentLaneApplyReceipt validateDispatch
      rw [if_neg fun h => hfilter.mp h hselects]
      split
      · exact DispatchStatus.noConfusion
      · rcases dispatchHosted_status i with hstatus | hstatus <;> rw [hstatus] <;>
          exact DispatchStatus.noConfusion }

theorem applies_of_eq_ok (hload : loadOrBuildPlan i = .ok (plan, planSource))
    (happly : applyConcurrentLanePlan i = .ok applied) : Applies i plan applied := by
  unfold applyConcurrentLanePlan at happly
  rw [hload] at happly
  dsimp only [bind, Except.bind] at happly
  split at happly
  · cases happly
  rename_i receipt hreceipt
  split at happly
  · cases happly
  obtain rfl := Except.ok.inj happly
  unfold applyPlan at hreceipt
  split at hreceipt
  · rename_i hbundle
    obtain rfl := Except.ok.inj hreceipt
    exact applies_none hbundle
  · rename_i bundle hbundle
    cases hlanes : selectRawLanes plan bundle with
    | error message =>
      rw [hlanes] at hreceipt
      cases hreceipt
    | ok lanes =>
      rw [hlanes, Except.map] at hreceipt
      obtain rfl := Except.ok.inj hreceipt
      exact applies_some hbundle hlanes

end Apply

/-! ### The observation -/

section Observe

variable {i : ApplyInput} {o : StatusInput} {plan : Plan} {applied : ApplyReceipt}
  {receipt : StatusReceipt}

variable {conclusion status : Option String} {lane : SelectedLane} {repository : String} {id : ℕ}

theorem classifyRun_eq_completed_iff :
    classifyRun status conclusion = .completed ↔
      normalizeLower status = "completed" ∧ normalizeLower conclusion ∈ SUCCESSFUL_CONCLUSIONS := by
  unfold classifyRun
  split
  · rename_i hactive
    refine iff_of_false HostedStatus.noConfusion ?_
    rintro ⟨hcompleted, -⟩
    rw [hcompleted] at hactive
    exact absurd hactive (by decide)
  · split
    · rename_i hcompleted
      split
      · rename_i hgood
        exact iff_of_true rfl ⟨hcompleted, hgood⟩
      · rename_i hbad
        exact iff_of_false HostedStatus.noConfusion fun h => hbad h.2
    · rename_i hcompleted
      exact iff_of_false HostedStatus.noConfusion fun h => hcompleted h.1

theorem classifyRun_eq_unknown_iff :
    classifyRun status conclusion = .unknown ↔
      ¬ (normalizeLower status ∈ ACTIVE_RUN_STATUSES ∨ normalizeLower status = "completed") := by
  unfold classifyRun
  split
  · rename_i hactive
    exact iff_of_false HostedStatus.noConfusion fun h => h (.inl hactive)
  · rename_i hactive
    split
    · rename_i hcompleted
      refine iff_of_false ?_ fun h => h (.inr hcompleted)
      split <;> exact HostedStatus.noConfusion
    · rename_i hcompleted
      exact iff_of_true rfl (not_or.mpr ⟨hactive, hcompleted⟩)

theorem errorText_ne_empty (message : String) : errorText message ≠ "" := by
  unfold errorText orText
  split
  · decide
  · assumption

variable {result : DispatchResult} {hosted : HostedStatus}

theorem AsksAbout.unique {repository' : String} {id' : ℕ}
    (h : AsksAbout o applied result repository id)
    (h' : AsksAbout o applied result repository' id') : repository' = repository ∧ id' = id :=
  ⟨Option.some.inj (Except.ok.inj (h'.2.1.symm.trans h.2.1)),
    Option.some.inj (h'.1.symm.trans h.1)⟩

section

variable (hstatus : applied.validateDispatch.status = .dispatched)
  (hid : applied.validateDispatch.runDatabaseId = result.databaseId)

include hstatus hid

theorem hostedRunOf_of_asks (hasks : AsksAbout o applied result repository id) :
    (∃ message, o.run repository id = .error message ∧
        (hostedRunOf o (some repository) applied).observationStatus = .failed) ∨
      ∃ payload, o.run repository id = .ok payload ∧
        (hostedRunOf o (some repository) applied).observationStatus =
          classifyRun (Json.optionText (Json.path (some payload) ["status"]))
            (Json.optionText (Json.path (some payload) ["conclusion"])) := by
  obtain ⟨hcoerced, -, hnamed⟩ := hasks
  obtain ⟨text, htext⟩ := Option.ne_none_iff_exists'.mp hnamed
  unfold hostedRunOf observeHostedRun classifyHostedRunObservation
  rw [hid, hcoerced, htext, hstatus]
  dsimp only [Option.getD_some]
  cases hrun : o.run repository id with
  | error message =>
    refine .inl ⟨message, rfl, if_pos ?_⟩
    exact decide_eq_true (errorText_ne_empty message)
  | ok payload =>
    refine .inr ⟨payload, rfl, ?_⟩
    simp only [Option.any_none, Bool.false_eq_true, if_false]

theorem hostedRunOf_of_not_asks {repository : Option String}
    (hrepository : resolveRepository o applied = .ok repository)
    (hnone : ∀ repository id, ¬ AsksAbout o applied result repository id) :
    (hostedRunOf o repository applied).observationStatus = .unknown := by
  have hunknown : classifyRun none none = .unknown := by decide +kernel
  unfold hostedRunOf observeHostedRun classifyHostedRunObservation
  rw [hid, hstatus]
  split
  · rename_i id text hcoerced htext
    cases repository with
    | none => cases htext
    | some repository =>
      refine absurd ⟨hcoerced, hrepository, ?_⟩ (hnone repository id)
      rw [htext]
      exact Option.some_ne_none _
  · simp only [HostedRun.notObserved, Option.any_none, Bool.false_eq_true, if_false]
    exact hunknown

theorem hostedRunOf_status {repository : Option String}
    (hrepository : resolveRepository o applied = .ok repository) :
    ((hostedRunOf o repository applied).observationStatus = .unknown ↔
        ¬ RunKnown o applied result) ∧
      ((hostedRunOf o repository applied).observationStatus = .completed ↔
        ∃ repository id payload, AsksAbout o applied result repository id ∧
          o.run repository id = .ok payload ∧ runStatus payload = "completed" ∧
          runConclusion payload ∈ SUCCESSFUL_CONCLUSIONS) := by
  by_cases hasked : ∃ repository id, AsksAbout o applied result repository id
  · obtain ⟨asked, id, hasks⟩ := hasked
    obtain rfl : repository = some asked := Except.ok.inj (hrepository.symm.trans hasks.2.1)
    rcases hostedRunOf_of_asks hstatus hid hasks with
      ⟨message, hrun, hobserved⟩ | ⟨payload, hrun, hobserved⟩
    · rw [hobserved]
      constructor
      · refine iff_of_false HostedStatus.noConfusion (not_not.mpr ⟨asked, id, hasks, ?_⟩)
        intro payload hpayload
        rw [hrun] at hpayload
        cases hpayload
      · refine iff_of_false HostedStatus.noConfusion ?_
        rintro ⟨repository', id', payload, hasks', hpayload, -⟩
        obtain ⟨rfl, rfl⟩ := hasks.unique hasks'
        rw [hrun] at hpayload
        cases hpayload
    · rw [hobserved, classifyRun_eq_unknown_iff, classifyRun_eq_completed_iff]
      constructor
      · refine not_congr ⟨fun hknown => ⟨asked, id, hasks, fun other hother => ?_⟩, ?_⟩
        · rwa [← Except.ok.inj (hrun.symm.trans hother)]
        · rintro ⟨repository', id', hasks', hknown⟩
          obtain ⟨rfl, rfl⟩ := hasks.unique hasks'
          exact hknown payload hrun
      · constructor
        · rintro ⟨hcompleted, hgood⟩
          exact ⟨asked, id, payload, hasks, hrun, hcompleted, hgood⟩
        · rintro ⟨repository', id', payload', hasks', hrun', hcompleted, hgood⟩
          obtain ⟨rfl, rfl⟩ := hasks.unique hasks'
          obtain rfl := Except.ok.inj (hrun.symm.trans hrun')
          exact ⟨hcompleted, hgood⟩
  · have hnone : ∀ repository id, ¬ AsksAbout o applied result repository id :=
      fun repository id hasks => hasked ⟨repository, id, hasks⟩
    rw [hostedRunOf_of_not_asks hstatus hid hrepository hnone]
    constructor
    · refine iff_of_true rfl ?_
      rintro ⟨asked, id, hasks, -⟩
      exact hnone asked id hasks
    · refine iff_of_false HostedStatus.noConfusion ?_
      rintro ⟨asked, id, payload, hasks, -⟩
      exact hnone asked id hasks

end

/-- A receipt is settled, and lanes are released, only of an application that did not fail
and a run that neither failed nor is active. -/
theorem not_failed_of_released {pullRequest : PullRequestStatus} {errors : List String}
    {deferred : ℕ}
    (h : determineReceiptStatus applied.status hosted pullRequest errors = .settled ∨
      (determineOrchestratorDisposition
        (determineReceiptStatus applied.status hosted pullRequest errors) hosted pullRequest
        deferred).Releases) :
    applied.status ≠ .failed ∧ hosted ≠ .failed ∧ hosted ≠ .active := by
  have hnot : determineReceiptStatus applied.status hosted pullRequest errors ≠ .failed ∧
      hosted ≠ .active := by
    rcases h with hsettled | hreleases
    · rw [hsettled]
      refine ⟨ReceiptStatus.noConfusion, ?_⟩
      rintro rfl
      unfold determineReceiptStatus at hsettled
      split_ifs at hsettled
      trivial
    · constructor
      · intro hfailed
        rw [hfailed] at hreleases
        exact hreleases
      · rintro rfl
        unfold determineOrchestratorDisposition at hreleases
        split at hreleases
        · exact hreleases
        · exact hreleases
  refine ⟨fun hfailed => hnot.1 ?_, fun hfailed => hnot.1 ?_, hnot.2⟩
  · unfold determineReceiptStatus
    rw [if_pos hfailed]
  · unfold determineReceiptStatus
    rw [if_pos hfailed]
    split <;> rfl

theorem hostedRunOf_cases {r : Option String}
    (hstatus : applied.validateDispatch.status = .dispatched) :
    (hostedRunOf o r applied).observationStatus ∈
      [HostedStatus.active, .completed, .failed, .unknown] := by
  have hclassified : ∀ status conclusion, classifyRun status conclusion ∈
      [HostedStatus.active, .completed, .failed, .unknown] := by
    intro status conclusion
    unfold classifyRun
    split_ifs <;> decide
  unfold hostedRunOf classifyHostedRunObservation
  rw [hstatus]
  dsimp only
  split
  · decide
  · exact hclassified _ _

theorem mem_countedStatuses {status : RuntimeStatus} :
    status ∈ countedStatuses ↔ status ≠ .unknown := by
  cases status <;> decide

theorem projectHostedLaneStatus_eq_unknown_iff
    (hdecision : lane.decision = laneDecision applied.validateDispatch.status lane.toLane)
    (hknown : applied.validateDispatch.status = .dispatched →
      hosted ∈ [HostedStatus.active, .completed, .failed, .unknown]) :
    projectHostedLaneStatus lane hosted = .unknown ↔
      lane.Hosted ∧ applied.validateDispatch.status = .dispatched ∧ hosted = .unknown := by
  unfold projectHostedLaneStatus
  rw [hdecision]
  unfold laneDecision
  by_cases hhosted : lane.Hosted
  · rw [if_pos hhosted, if_pos hhosted]
    cases hdispatch : applied.validateDispatch.status with
    | dispatched =>
      have hmem := hknown hdispatch
      cases hosted <;> simp_all
    | notRequired => simp
    | dryRun => simp
    | failed => simp
  · rw [if_neg hhosted, if_neg hhosted]
    simp [hhosted]

theorem projectHostedLaneStatus_completed
    (hdecision : lane.decision = laneDecision applied.validateDispatch.status lane.toLane)
    (hstatus : applied.validateDispatch.status = .dispatched) (hhosted : lane.Hosted) :
    projectHostedLaneStatus lane .completed = .completed := by
  unfold projectHostedLaneStatus
  rw [hdecision, hstatus]
  unfold laneDecision
  rw [if_pos hhosted, if_pos hhosted]

theorem observe_eq_ok (h : observeConcurrentLaneStatus o applied = .ok receipt) :
    ∃ repository, resolveRepository o applied = .ok repository ∧
      receipt = observeLanes o repository applied := by
  unfold observeConcurrentLaneStatus at h
  dsimp only [bind, Except.bind] at h
  split at h
  · cases h
  rename_i repository hrepository
  split at h
  · cases h
  split at h
  · cases h
  exact ⟨repository, hrepository, (Except.ok.inj h).symm⟩

theorem map_id_laneStatusesOf :
    (laneStatusesOf applied hosted).map (·.id) = applied.selectedLanes.map (·.id) := by
  rw [laneStatusesOf, List.map_map]
  rfl

end Observe

/-! ### The law of release -/

section Law

variable {i : ApplyInput} {o : StatusInput} {plan : Plan} {planSource : String}
  {applied : ApplyReceipt} {receipt : StatusReceipt}

theorem Applies.runDispatched (h : Applies i plan applied)
    (hstatus : applied.validateDispatch.status = .dispatched) :
    RunDispatched i plan ∧ ∃ result reportPath, i.outcome = .returned result ∧
      i.writeReport result = .ok reportPath := by
  have hasked : SelectsHosted plan ∧ i.options.dryRun = false := by
    by_contra hidle
    rcases h.idle hidle with hother | hother <;> rw [hstatus] at hother <;> cases hother
  rw [h.dispatches hasked.1 hasked.2, dispatchHosted_eq_dispatched_iff] at hstatus
  obtain ⟨result, reportPath, houtcome, hwrite⟩ := hstatus
  refine ⟨⟨hasked.1, hasked.2, ?_⟩, result, reportPath, houtcome, hwrite⟩
  rw [houtcome]
  trivial

theorem Applies.of_returned (h : Applies i plan applied) (hrun : RunDispatched i plan)
    {result : DispatchResult} {reportPath : Option String}
    (houtcome : i.outcome = .returned result) (hwrite : i.writeReport result = .ok reportPath) :
    applied.validateDispatch.status = .dispatched ∧
      applied.validateDispatch.runDatabaseId = result.databaseId := by
  rw [h.dispatches hrun.1 hrun.2.1]
  exact ⟨dispatchHosted_eq_dispatched_iff.mpr ⟨result, reportPath, houtcome, hwrite⟩,
    dispatchHosted_runDatabaseId houtcome hwrite⟩

theorem Applies.distinct_iff (h : Applies i plan applied) (hosted : HostedStatus) :
    (∀ laneId ∈ selectedIds plan, ∃ lane,
        (laneStatusesOf applied hosted).filter (·.id = laneId) = [lane]) ↔
      (selectedIds plan).Nodup := by
  have hids : (laneStatusesOf applied hosted).map (·.id) = selectedIds plan :=
    map_id_laneStatusesOf.trans h.ids
  rw [← hids]
  exact filter_eq_singleton_iff_nodup

theorem mem_laneStatusesOf {hosted : HostedStatus} {lane : LaneStatus} :
    lane ∈ laneStatusesOf applied hosted ↔ ∃ selected ∈ applied.selectedLanes,
      lane.toSelectedLane = selected ∧
        lane.runtimeStatus = projectHostedLaneStatus selected hosted := by
  rw [laneStatusesOf, List.mem_map]
  refine exists_congr fun selected => and_congr_right fun _ => ⟨?_, ?_⟩
  · rintro rfl
    exact ⟨rfl, rfl⟩
  · rintro ⟨rfl, hstatus⟩
    rw [← hstatus]

variable {repository : Option String}

theorem Applies.unknown_iff (h : Applies i plan applied) {selected : SelectedLane}
    (hselected : selected ∈ applied.selectedLanes) :
    projectHostedLaneStatus selected (hostedRunOf o repository applied).observationStatus =
        .unknown ↔
      selected.Hosted ∧ applied.validateDispatch.status = .dispatched ∧
        (hostedRunOf o repository applied).observationStatus = .unknown :=
  projectHostedLaneStatus_eq_unknown_iff (h.decision selected hselected) hostedRunOf_cases

theorem Applies.counted_iff (h : Applies i plan applied) (repository : Option String) :
    (∀ laneId ∈ selectedIds plan, ∃ lane,
        (observeLanes o repository applied).laneStatuses.filter (·.id = laneId) = [lane] ∧
          lane.runtimeStatus ∈ countedStatuses) ↔
      (selectedIds plan).Nodup ∧ (SelectsHosted plan →
        applied.validateDispatch.status = .dispatched →
          (hostedRunOf o repository applied).observationStatus ≠ .unknown) := by
  change (∀ laneId ∈ selectedIds plan, ∃ lane,
    (laneStatusesOf applied (hostedRunOf o repository applied).observationStatus).filter
      (·.id = laneId) = [lane] ∧ lane.runtimeStatus ∈ countedStatuses) ↔ _
  constructor
  · intro hcounted
    refine ⟨(h.distinct_iff (hostedRunOf o repository applied).observationStatus).mp
      fun laneId hmem => ?_, fun hselects hstatus hunknown => ?_⟩
    · obtain ⟨lane, hlane, -⟩ := hcounted laneId hmem
      exact ⟨lane, hlane⟩
    · obtain ⟨selected, hselected, hhosted⟩ := h.hosted.mpr hselects
      have hmem : selected.id ∈ selectedIds plan := by
        rw [← h.ids]
        exact List.mem_map_of_mem hselected
      obtain ⟨lane, hlane, hstatuses⟩ := hcounted _ hmem
      have hprojected : (⟨selected, projectHostedLaneStatus selected
          (hostedRunOf o repository applied).observationStatus⟩ : LaneStatus) ∈ [lane] := by
        rw [← hlane]
        exact List.mem_filter.mpr
          ⟨mem_laneStatusesOf.mpr ⟨selected, hselected, rfl, rfl⟩, decide_eq_true rfl⟩
      rw [← List.mem_singleton.mp hprojected, mem_countedStatuses] at hstatuses
      exact hstatuses ((h.unknown_iff hselected).mpr ⟨hhosted, hstatus, hunknown⟩)
  · rintro ⟨hdistinct, hknown⟩ laneId hmem
    obtain ⟨lane, hlane⟩ := (h.distinct_iff _).mpr hdistinct laneId hmem
    refine ⟨lane, hlane, ?_⟩
    have hfiltered : lane ∈ (laneStatusesOf applied
        (hostedRunOf o repository applied).observationStatus).filter (·.id = laneId) := by
      rw [hlane]
      exact List.mem_singleton_self lane
    obtain ⟨selected, hselected, -, hprojected⟩ :=
      mem_laneStatusesOf.mp (List.mem_filter.mp hfiltered).1
    rw [mem_countedStatuses, hprojected]
    intro hunknown
    obtain ⟨hhosted, hstatus, hobserved⟩ := (h.unknown_iff hselected).mp hunknown
    exact hknown (h.hosted.mp ⟨selected, hselected, hhosted⟩) hstatus hobserved

theorem EndsKnown.not_unknown (h : EndsKnown i o plan applied) (happlies : Applies i plan applied)
    (hrepository : resolveRepository o applied = .ok repository)
    (hstatus : applied.validateDispatch.status = .dispatched) :
    (hostedRunOf o repository applied).observationStatus ≠ .unknown := by
  obtain ⟨hrun, -⟩ := happlies.runDispatched hstatus
  obtain ⟨result, reportPath, houtcome, hwrite, hknown⟩ := h.known hrun
  obtain ⟨-, hid⟩ := happlies.of_returned hrun houtcome hwrite
  exact fun hunknown => (hostedRunOf_status hstatus hid hrepository).1.mp hunknown hknown

/-- **The release of lanes.** The two programs keep their promises exactly if a run that was
dispatched is reported and known, and no lane is selected twice. -/
theorem releaseLaw_iff (hload : loadOrBuildPlan i = .ok (plan, planSource))
    (happly : applyConcurrentLanePlan i = .ok applied)
    (hobserve : observeConcurrentLaneStatus o applied = .ok receipt) :
    ReleaseLaw i o plan applied receipt ↔ EndsKnown i o plan applied := by
  have happlies := applies_of_eq_ok hload happly
  obtain ⟨repository, hrepository, rfl⟩ := observe_eq_ok hobserve
  constructor
  · intro hlaw
    obtain ⟨hdistinct, hcounted⟩ := (happlies.counted_iff repository).mp hlaw.counted
    refine ⟨fun hrun => ?_, hdistinct⟩
    -- the application did not fail, so the dispatch returned and was reported
    have hnotFailed : applied.validateDispatch.status ≠ .failed := fun hfailed =>
      hlaw.failed (happlies.failed.mpr hfailed) hrun
    rw [happlies.dispatches hrun.1 hrun.2.1] at hnotFailed
    obtain ⟨result, reportPath, houtcome, hwrite⟩ := dispatchHosted_eq_dispatched_iff.mp
      ((dispatchHosted_status i).resolve_left hnotFailed)
    obtain ⟨hstatus, hid⟩ := happlies.of_returned hrun houtcome hwrite
    have hobserved := (hostedRunOf_status hstatus hid hrepository).1
    refine ⟨result, reportPath, houtcome, hwrite, ?_⟩
    by_contra hunknown
    exact hcounted hrun.1 hstatus (hobserved.mpr hunknown)
  · intro hends
    refine ⟨fun hfailed hrun => ?_, fun hreleased hrun => ?_,
      (happlies.counted_iff repository).mpr ⟨hends.distinct, fun _ hstatus =>
        hends.not_unknown happlies hrepository hstatus⟩⟩
    · obtain ⟨result, reportPath, houtcome, hwrite, -⟩ := hends.known hrun
      have hstatus := (happlies.of_returned hrun houtcome hwrite).1
      rw [happlies.failed.mp hfailed] at hstatus
      cases hstatus
    · obtain ⟨result, reportPath, houtcome, hwrite, -⟩ := hends.known hrun
      obtain ⟨hstatus, hid⟩ := happlies.of_returned hrun houtcome hwrite
      obtain ⟨-, hnotFailed, hnotActive⟩ := not_failed_of_released hreleased
      have hnotUnknown := hends.not_unknown happlies hrepository hstatus
      -- the run is neither failed nor active nor unknown, so it completed
      have hcompleted : (hostedRunOf o repository applied).observationStatus = .completed := by
        have hcases := hostedRunOf_cases (o := o) (r := repository) hstatus
        simp only [List.mem_cons, List.not_mem_nil, or_false] at hcases
        tauto
      obtain ⟨asked, id, payload, hasks, hanswer, hgood⟩ :=
        (hostedRunOf_status hstatus hid hrepository).2.mp hcompleted
      intro lane hlane hhosted
      obtain ⟨selected, hselected, hsame, hprojected⟩ := mem_laneStatusesOf.mp hlane
      refine ⟨?_, result, asked, id, payload, houtcome, hasks, hanswer, hgood⟩
      rw [hprojected, hcompleted]
      rw [hsame] at hhosted
      exact projectHostedLaneStatus_completed (happlies.decision selected hselected) hstatus
        hhosted

end Law

/-! ### Runs of the two programs -/

def hostedPlan : Plan where
  schema := some CONCURRENT_LANE_PLAN_SCHEMA
  repository := some "owner/repo"
  recommendedBundleId := some "hosted-only-proof"
  recommendedBundle := some ⟨"hosted-only-proof", "recommended", ["hosted-linux-proof"], []⟩
  lanes := [⟨"hosted-linux-proof", "hosted-proof", "hosted", "hosted-github", "available", [],
    .obj []⟩]
  observations := []

/-- An application of the plan, by the id of the run that comes back. -/
def hostedApply (databaseId : Option Json) : ApplyInput where
  options := ⟨none, none, none, false, false, false, false, false, false, false⟩
  planFile := .read hostedPlan
  recomputed := .error "not asked for"
  dispatchValidate := fun _ =>
    .returned ⟨some "owner/repo", some "upstream", none, some "ts-1", some "smoke", databaseId⟩
  writeReport := fun _ => .ok (some "report.json")
  writeReceipt := .ok ()

def hostedStatus (answer : Json) : StatusInput where
  repo := none
  pr := none
  ref := none
  ghCli := .ok ()
  upstream := .ok none
  run := fun _ _ => .ok answer
  pullRequest := fun _ _ => .error "no pull requests found"
  mergeQueue := fun _ _ => .error "no pull requests found"
  writes := .ok ()

def completedRun : Json := .obj [("status", .str "completed"), ("conclusion", .str "success")]

def hostedDispatch (databaseId : Option Json) : ValidateDispatch :=
  dispatchHosted (hostedApply databaseId)

def hostedReceipt (databaseId : Option Json) : ApplyReceipt :=
  buildConcurrentLaneApplyReceipt hostedPlan "file" hostedPlan.recommendedBundle
    (hostedPlan.lanes.map fun lane => cloneLaneForReceipt lane .dispatched)
    (hostedDispatch databaseId) .succeeded

theorem apply_hostedApply (databaseId : Option Json) :
    applyConcurrentLanePlan (hostedApply databaseId) = .ok (hostedReceipt databaseId) := by
  rfl

theorem optionalTrim_ownerRepo : optionalTrim "owner/repo" = some "owner/repo" := by
  decide +kernel

theorem resolveRepository_hosted (answer : Json) (databaseId : Option Json) :
    resolveRepository (hostedStatus answer) (hostedReceipt databaseId) =
      .ok (some "owner/repo") := by
  have hreceipt : (hostedReceipt databaseId).repository = some "owner/repo" :=
    optionalTrim_ownerRepo
  have hrepository : optionText (hostedReceipt databaseId).repository = some "owner/repo" := by
    rw [hreceipt, optionText, Option.bind_some, optionalTrim_ownerRepo]
  unfold resolveRepository
  rw [hrepository]
  rfl

theorem observe_hosted (answer : Json) (databaseId : Option Json) :
    observeConcurrentLaneStatus (hostedStatus answer) (hostedReceipt databaseId) =
      .ok (observeLanes (hostedStatus answer) (some "owner/repo") (hostedReceipt databaseId)) := by
  have hchecked : ensureGhCli (hostedStatus answer) (hostedReceipt databaseId) = .ok () := by
    unfold ensureGhCli
    split <;> rfl
  unfold observeConcurrentLaneStatus
  rw [resolveRepository_hosted, hchecked]
  rfl

/-- The id of the run did not come back: the lane has no known status, and the slot is
released. -/
theorem not_releaseLaw_noRunId : ∃ receipt,
    observeConcurrentLaneStatus (hostedStatus completedRun) (hostedReceipt none) = .ok receipt ∧
      receipt.summary.orchestratorDisposition = .releaseComplete ∧
      ¬ ReleaseLaw (hostedApply none) (hostedStatus completedRun) hostedPlan (hostedReceipt none)
        receipt := by
  have hdisposition : (observeLanes (hostedStatus completedRun) (some "owner/repo")
      (hostedReceipt none)).summary.orchestratorDisposition = .releaseComplete := by
    decide +kernel
  have hlane : ∃ lane ∈ (observeLanes (hostedStatus completedRun) (some "owner/repo")
      (hostedReceipt none)).laneStatuses, lane.Hosted ∧ lane.runtimeStatus = .unknown := by
    decide +kernel
  have hrun : RunDispatched (hostedApply none) hostedPlan :=
    ⟨⟨"hosted-linux-proof", List.mem_cons_self, _, rfl, rfl⟩, rfl, trivial⟩
  refine ⟨_, observe_hosted _ _, hdisposition, fun hlaw => ?_⟩
  obtain ⟨lane, hmem, hhosted, hunknown⟩ := hlane
  have hreleases : (observeLanes (hostedStatus completedRun) (some "owner/repo")
      (hostedReceipt none)).summary.orchestratorDisposition.Releases := by
    rw [hdisposition]
    trivial
  have hcompleted := (hlaw.released (.inr hreleases) hrun lane hmem hhosted).1
  rw [hunknown] at hcompleted
  cases hcompleted

/-- A run that comes back and completes is released rightly. -/
theorem releaseLaw_completedRun : ∃ receipt,
    observeConcurrentLaneStatus (hostedStatus completedRun) (hostedReceipt (some (.num 7))) =
        .ok receipt ∧
      ReleaseLaw (hostedApply (some (.num 7))) (hostedStatus completedRun) hostedPlan
        (hostedReceipt (some (.num 7))) receipt := by
  have hasks : AsksAbout (hostedStatus completedRun) (hostedReceipt (some (.num 7)))
      ⟨some "owner/repo", some "upstream", none, some "ts-1", some "smoke", some (.num 7)⟩
      "owner/repo" 7 := by
    refine ⟨by decide +kernel, resolveRepository_hosted _ _, ?_⟩
    rw [optionText, Option.bind_some, optionalTrim_ownerRepo]
    exact Option.some_ne_none _
  have hcompleted : runStatus completedRun = "completed" := by decide +kernel
  have hload : loadOrBuildPlan (hostedApply (some (.num 7))) = .ok (hostedPlan, "file") := rfl
  refine ⟨_, observe_hosted _ _, (releaseLaw_iff hload (apply_hostedApply _)
    (observe_hosted _ _)).mpr ⟨fun _ => ⟨_, some "report.json", rfl, rfl, "owner/repo", 7, hasks,
      fun payload hpayload => .inr ?_⟩, by decide⟩⟩
  rwa [← Except.ok.inj hpayload]

end CompareVI.Lanes
