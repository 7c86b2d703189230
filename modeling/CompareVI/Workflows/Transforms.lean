import CompareVI.Workflows.Steps

/-!
# The transforms of the workflow updater

Each `ensure_*` of the updater as an edit of the document, in the order of the source, and
`applyTransforms`, which runs those that are meant for a file. A transform that raises gives no
document. What it comes to is the document the updater writes, and the document it was given
where no transform says that it changed anything.

The program asks some of the shapes of the document twice, by `isinstance` and by the call that
would fail: where a helper goes without the test, `onJob` and `onEachJob` fail.
-/

open Framework

namespace CompareVI.Workflows

/-! ### Pre-init of the self-hosted workflow -/

def addForceRun : Edit Json
  | .obj inputs =>
    if (inputs.lookup "force_run").isSome then some (.obj inputs, false)
    else some (.obj (put "force_run" forceRunInput inputs), true)
  | .arr entries => if .str "force_run" ∈ entries then some (.arr entries, false) else none
  | .str s => if containsText "force_run" s then some (.str s, false) else none
  | .null | .bool _ | .num _ => none

/-- The key of the triggers: a bare `on` may have been read as a truth value. -/
def triggersKey (doc : Mapping) : String :=
  if (doc.lookup "on").all (· = .null) && (doc.lookup "true").isSome then "true" else "on"

def ensureForceRunInput : Edit Json
  | .obj doc => do
    match orElse (doc.lookup (triggersKey doc)) (.obj []) with
    | .obj [] => return (.obj doc, false)
    | .obj on =>
      match on.lookup "workflow_dispatch" with
      | none | some .null => return (.obj doc, false)
      | some (.obj dispatch) =>
        let (inputs, changed) ← addForceRun ((dispatch.lookup "inputs").getD (.obj []))
        let on' := put "workflow_dispatch" (.obj (put "inputs" inputs dispatch)) on
        return (.obj (put (triggersKey doc) (.obj on') doc), changed)
      | some _ => none
    | _ => none
  | _ => none

/-- The step is the docs-only gate; the `uses` of a step with its id has to be a text. -/
def isPreInitGate (step : Json) : Option Bool :=
  if hasId "g" step then
    match step.get? "uses" with
    | none => some false
    | some (.str uses) => some ("pre-init-gate".toList.isSuffixOf uses.toList)
    | some _ => none
  else some false

/-- The gate is given its condition, and the `out` step is put after it unless there is one. -/
def gateSteps : Edit (List Json) := fun steps =>
  Edit.onFirst isPreInitGate (fun gate =>
    let (gate', changed) := onMapping (ensureKey "if" notForced) gate
    if steps.any (hasId "out") then some ([gate'], changed)
    else some ([gate', docsOnlyStep], true)) steps

def preInitJob : Edit Mapping := fun job => do
  match (job.lookup "outputs").getD (.obj []) with
  | .obj outputs =>
    let (outputs', changed) := ensureKey "docs_only" docsOnlyOutput outputs
    let (job', changed') ← setdefaultSteps gateSteps (put "outputs" (.obj outputs') job)
    return (job', changed || changed')
  | _ => none

def ensurePreinitForceRunOutputs : Edit Json := onJob "pre-init" preInitJob

/-! ### Hosted preflight -/

def normalizeBody (run : Json) (step : Mapping) : Mapping × Bool :=
  if (step.lookup "run").any (equals · run) && (step.lookup "shell").any (equals · (.str "pwsh"))
  then (step, false)
  else (put "shell" (.str "pwsh") (put "run" run step), true)

def normalizeHostedStep (step : Mapping) : Mapping × Bool :=
  if step.lookup "name" = some (.str hostedPreflightName) then
    normalizeBody hostedPreflightRun step
  else if step.lookup "name" = some (.str hostedNoticeName) then
    normalizeBody hostedNoticeRun step
  else (step, false)

def normalizeHostedPreflightSteps : Edit Json :=
  ifJobs (onEachJob fun _ => withSteps (Edit.onEach (onMapping normalizeHostedStep)))

/-- `'Verify Windows runner' in str(st.get('name', ''))`. -/
def isVerifyRunner (step : Json) : Bool := (step.get? "name").any (mentions "Verify Windows runner")

def ensureBody (run : Json) (step : Mapping) : Mapping × Bool :=
  if (step.lookup "run").any (equals · run) then (step, false)
  else (put "shell" (.str "pwsh") (put "run" run step), true)

/-- The steps of the preflight job. Where there was no checkout the new step comes before the one
that is put in. -/
def preflightSteps : Edit (List Json) := fun steps =>
  Edit.andThen (Edit.unlessAny isCheckout (Edit.insertAt 0 checkoutStep))
    (Edit.ifAny isVerifyRunner
      (updateFirst isVerifyRunner (onMapping (ensureBody hostedPreflightRun)))
      (Edit.insertAt (if steps.any isCheckout then 1 else 0) hostedPreflightStep)) steps

/-- `ensure_hosted_preflight`: the jobs and the job are made if they are no mappings. -/
def ensureHostedPreflight (jobKey : String) : Edit Json
  | .obj doc => do
    let jobs := (asMapping (doc.lookup "jobs")).getD []
    let job := (asMapping (jobs.lookup jobKey)).getD minimalPreflightJob
    let created := (asMapping (jobs.lookup jobKey)).isNone
    let (job', changed) := ensureKey "runs-on" (.str "windows-latest") job
    let (job'', changed') ← setdefaultSteps preflightSteps job'
    return (putJobs (put jobKey (.obj job'') jobs) (.obj doc), created || changed || changed')
  | _ => none

/-! ### Session index and runner guard -/

def appendUnlessUsed (action : String) (step : Json) : Edit Mapping :=
  withSteps (Edit.unlessAny (usesEnds action) (Edit.push step))

def ensureSessionIndexPostInPesterMatrix (jobKey : String) : Edit Json :=
  onJob jobKey (appendUnlessUsed "session-index-post"
    (sessionIndexStep "Session index post" categoryResults
      ("session-index-" ++ expression "matrix.category")))

def ensureSessionIndexPostInJob (jobKey resultsDir artifactName : String) : Edit Json :=
  onJob jobKey (appendUnlessUsed "session-index-post"
    (sessionIndexStep "Session index post (best-effort)" resultsDir artifactName))

def ensureRunnerUnblockGuard (jobKey snapshotPath : String) : Edit Json :=
  onJob jobKey (appendUnlessUsed "runner-unblock-guard" (runnerUnblockStep snapshotPath))

/-! ### Rerun hint -/

def normalizeRerunHint (defaultStrategy : String) : Edit (List Json) :=
  updateFirst (named (rerunHintName defaultStrategy))
    (onMapping (ensureKeys (rerunHintFields defaultStrategy)))

def ensureRerunHintInJob (jobName defaultStrategy : String) : Edit Json :=
  onJob jobName (setdefaultSteps (Edit.ifAny (named (rerunHintName defaultStrategy))
    (normalizeRerunHint defaultStrategy) (Edit.push (rerunHintStep defaultStrategy))))

/-- The characters that `strip` takes off. -/
def isSpace (c : Char) : Bool := PsString.isWhiteSpace c || ('\u001c' ≤ c && c ≤ '\u001f')

/-- `st.get('name', '').strip().startswith('Summarize Pester categories')`: the name has to be a
text. The text asked for ends without a space, so that it does not matter what is taken off the
end. -/
def isSummary (step : Json) : Option Bool :=
  match step with
  | .obj fields =>
    match fields.lookup "name" with
    | none => some false
    | some (.str name) =>
      some ("Summarize Pester categories".toList.isPrefixOf (name.toList.dropWhile isSpace))
    | some _ => none
  | _ => some false

def hasSummary : List Json → Option Bool
  | [] => some false
  | step :: rest => do if ← isSummary step then return true else hasSummary rest

def rerunHintAfterSummary (defaultStrategy : String) : Edit (List Json) := fun steps => do
  if ← hasSummary steps then
    Edit.ifAny (named (rerunHintName defaultStrategy)) (normalizeRerunHint defaultStrategy)
      (Edit.onFirst isSummary fun step => some ([step, rerunHintStep defaultStrategy], true)) steps
  else return (steps, false)

def ensureRerunHintAfterSummary (defaultStrategy : String) : Edit Json :=
  onEachJob fun _ => withSteps (rerunHintAfterSummary defaultStrategy)

/-! ### Probe job and gating -/

/-- The needs of the probe job: what is missing in a sequence is added to it, what is no sequence
is replaced. -/
def withProbeNeeds : Option Json → Json × Bool
  | some (.arr needs) =>
    let missing := probeNeeds.filter fun need => need ∉ needs
    (.arr (needs ++ missing), !missing.isEmpty)
  | _ => (.arr probeNeeds, true)

/-- The steps of the probe job: a checkout, and the step with the id `out`, which comes after the
first checkout if it is new. -/
def ensureProbeSteps : Edit (List Json) :=
  Edit.andThen (Edit.unlessAny isCheckout (Edit.insertAt 0 checkoutStep))
    (Edit.ifAny (hasId "out") (updateFirst (hasId "out") (onMapping (ensureKeys probeOutFields)))
      (Edit.ifAny isCheckout (insertAfter isCheckout probeOutStep) (Edit.push probeOutStep)))

def ensureProbe : Edit Mapping := fun job => do
  let (job', changed) := ensureKeys probeFields job
  let (needs, changed') := withProbeNeeds (job.lookup "needs")
  let job'' := if changed' then put "needs" needs job' else job'
  match (job.lookup "steps").getD (.arr []) with
  | .arr steps =>
    let (steps', changed'') ← ensureProbeSteps steps
    return (put "steps" (.arr steps') job'', changed || changed' || changed'')
  | _ => return (put "steps" (.arr probeSteps) job'', true)

def ensureInteractivityProbeJob : Edit Json := fun doc => do
  match ← jobsOf doc with
  | .obj jobs =>
    match asMapping (jobs.lookup "probe") with
    | some job =>
      let (job', changed) ← ensureProbe job
      return (putJobs (put "probe" (.obj job') jobs) doc, changed)
    | none => return (putJobs (put "probe" (.obj probeJob) jobs) doc, true)
  | _ => return (doc, false)

/-- `_ensure_job_needs` on the job: needs that are a text are left as they are. -/
def addNeed (need : String) (job : Mapping) : Mapping × Bool :=
  match job.lookup "needs" with
  | none | some .null => (put "needs" (.arr [.str need]) job, true)
  | some (.arr needs) =>
    if .str need ∈ needs then (job, false)
    else (put "needs" (.arr (needs ++ [.str need])) job, true)
  | some _ => (job, false)

def ensureJobNeeds (jobName need : String) : Edit Json :=
  onJob jobName (Edit.total (addNeed need))

def setJobIf (jobName : String) (newIf : Json) : Edit Json :=
  onJob jobName (Edit.total (ensureKey "if" newIf))

/-! ### Lint -/

/-- The step is replaced unless its shell and its body are those of `install_step`. -/
def replaceInstall (step : Json) : Json × Bool :=
  if (step.get? "shell").any (equals · (.str "bash")) &&
    (step.get? "run").any (equals · installActionlintRun)
  then (step, false)
  else (installActionlintStep, true)

/-- The install step, which is new after the checkout, or in front where there is none. -/
def ensureInstallActionlint : Edit (List Json) :=
  Edit.ifAny (named installActionlintName)
    (updateFirst (named installActionlintName) replaceInstall)
    (Edit.ifAny isCheckout (insertAfter isCheckout installActionlintStep)
      (Edit.insertAt 0 installActionlintStep))

/-- The step that runs actionlint, which is new after the install step: there is one by now. -/
def ensureRunActionlint : Edit (List Json) :=
  Edit.ifAny (named "Run actionlint")
    (updateFirst (named "Run actionlint")
      (onMapping (ensureKey "run" (.str "./bin/actionlint -color\n"))))
    (insertAfter (named installActionlintName) runActionlintStep)

/-- The action and the inputs of the node step: what stands in `with` has to be a mapping. -/
def normalizeSetupNode : Json → Option (List Json × Bool)
  | .obj step => do
    let (step', changed) := ensureKey "uses" (.str "actions/setup-node@v6") step
    match (step'.lookup "with").getD (.obj []) with
    | .obj inputs =>
      if setupNodeInputs.all fun field => (inputs.lookup field.1).any (equals · field.2) then
        return ([.obj step'], changed)
      else return ([.obj (put "with" (.obj setupNodeInputs) step')], true)
    | _ => none
  | other => some ([other], false)

/-- The names of the steps that lint the documents, in the order in which one is looked for. -/
def markdownNames : List String := [markdownName, markdownAltName, markdownScopedName]

/-- The node step, which is new before the step that lints the documents, or at the end. -/
def ensureSetupNode : Edit (List Json) :=
  Edit.ifAny (named setupNodeName)
    (Edit.onFirst (fun step => some (named setupNodeName step)) normalizeSetupNode)
    (Edit.ifAny (fun step => markdownNames.any fun name => named name step)
      (insertAtAny (fun anchor => insertBefore anchor setupNodeStep) markdownNames)
      (Edit.push setupNodeStep))

/-- `del steps[idx_md_install]`. -/
def dropMarkdownInstall : Edit (List Json) :=
  Edit.onFirst (fun step => some (named "Install markdownlint-cli (retry)" step))
    fun _ => some ([], true)

/-- The step that lints the documents is renamed and may not go on after an error; it is replaced
if its body differs. -/
def normalizeMarkdown : Json → Json × Bool
  | .obj step =>
    let (step', renamed) := ensureKey "name" (.str markdownName) step
    let (step'', dropped) := dropKey "continue-on-error" step'
    if (step.lookup "run").any (equals · markdownRun) then (.obj step'', renamed || dropped)
    else (markdownStep, true)
  | other => (other, false)

def normalizeScopedMarkdown (step : Mapping) : Mapping × Bool :=
  let (step', changed) := ensureKey "run" markdownRun step
  let (step'', dropped) := dropKey "continue-on-error" step'
  (step'', changed || dropped)

def ensureMarkdown : Edit (List Json) :=
  Edit.ifAny (named markdownName) (updateFirst (named markdownName) normalizeMarkdown)
    (Edit.ifAny (named markdownAltName) (updateFirst (named markdownAltName) normalizeMarkdown)
      (Edit.ifAny (named markdownScopedName)
        (updateFirst (named markdownScopedName) (onMapping normalizeScopedMarkdown))
        (Edit.push markdownStep)))

def lintSteps : Edit (List Json) :=
  Edit.inOrder [ensureInstallActionlint, ensureRunActionlint, ensureSetupNode,
    dropMarkdownInstall, ensureMarkdown]

def lintJob : Edit Mapping := fun job => do
  match (job.lookup "env").getD (.obj []) with
  | .obj env =>
    let (env', changed) := ensureKey "ACTIONLINT_VERSION" actionlintVersion env
    let (job', changed') ← setdefaultSteps lintSteps (put "env" (.obj env') job)
    return (job', changed || changed')
  | _ => none

/-- `ensure_lint_resiliency`, with the node step and a lint of the documents that blocks, as it is
called. -/
def ensureLintResiliency (jobName : String) : Edit Json := onJob jobName lintJob

def hashable : Json → Bool
  | .arr _ | .obj _ => false
  | .null | .bool _ | .num _ | .str _ => true

/-- `dict(value)`, as its pairs, a later one replacing an earlier one of the same key. -/
def dictOf : Json → Option (List (Json × Json))
  | .obj fields => some (fields.map fun field => (.str field.1, field.2))
  | value => do
    (← entriesOf value).mapM fun entry => do
      match ← entriesOf entry with
      | [key, value] => if hashable key then some (key, value) else none
      | _ => none

/-- `dict(value) == {key: wanted}`. -/
def isOnlyPair (key : String) (wanted : Json) (pairs : List (Json × Json)) : Bool :=
  (pairs.getLast?.map Prod.snd).any (equals · wanted) && pairs.all fun pair => pair.1 = .str key

/-- The shell, the environment and the body of the step that checks for drift. In which style the
body is written is no part of the tree. -/
def normalizeDriftGate : Json → Option (List Json × Bool)
  | .obj step => do
    let (withShell, changed) := ensureKey "shell" (.str "pwsh") step
    let env ← dictOf (orElse (step.lookup "env") (.obj []))
    let keep := isOnlyPair "DEFAULT_BRANCH" defaultBranch env
    let withEnv :=
      if keep then withShell else put "env" (.obj [("DEFAULT_BRANCH", defaultBranch)]) withShell
    let (withRun, changed') := ensureKey "run" driftGateRun withEnv
    return ([.obj withRun], changed || !keep || changed')
  | other => some ([other], false)

def driftGateName : String := "Non-LabVIEW checks (Docker)"

def ensureOrchestratedDriftGateDefaults : Edit Json :=
  onJob "lint" (withSteps (Edit.onFirst (fun step => some (named driftGateName step))
    normalizeDriftGate))

/-! ### Wire probes -/

def categoryDir (jobName : String) : String :=
  if jobName = "pester-category" then categoryResults else "tests/results"

def resultsDir (jobName : String) : String :=
  if jobName = "drift" then "results/fixture-drift" else categoryDir jobName

def isWireProbe (step : Json) : Bool :=
  named "Wire Probe (J1)" step || named "Wire Probe (J2)" step

/-- `_insert_wire_j1_j2_in_job`: the probes are taken out and put after the first checkout. -/
def insertWireJ1J2 (resultsDir : String) : Edit Mapping :=
  rebuildSteps (Edit.andThen (Edit.dropAll isWireProbe)
    (Edit.onFirst (fun step => some (isCheckout step)) fun step =>
      some ([step, wireStep "Wire Probe (J1)" "J1" resultsDir,
        wireStep "Wire Probe (J2)" "J2" resultsDir], true)))

def ensureWireProbesAllJobs : Edit Json :=
  ifJobs (onEachJob fun jobName => insertWireJ1J2 (resultsDir jobName))

def ensureWireT1ForTests : Edit Json :=
  ifJobs (onEachJob fun jobName => withSteps (Edit.unlessAny (named "Wire Probe (T1)")
    (insertBefore (fun step => named "Run Pester tests via local dispatcher (category)" step ||
      named "Pester categories (serial, deterministic)" step)
      (wireTestStep (categoryDir jobName)))))

def usesWireSession (step : Json) : Bool :=
  usesText step = "./.github/actions/wire-session-index"

def ensureWireS1BeforeSessionIndex : Edit Json :=
  ifJobs (onEachJob fun jobName => withSteps (Edit.unlessAny usesWireSession
    (insertAtAny (fun anchor => insertBefore anchor (wireSessionStep (resultsDir jobName)))
      ["Session index post", "Session index post (best-effort)", "Session index post (single)"])))

/-- Steps before and after the first step of a kind, each unless there is one of its name. -/
def surround (anchor : Json → Bool) (nameBefore : String) (before : Json) (nameAfter : String)
    (after : Json) : Edit (List Json) := fun steps =>
  let front := if steps.any (named nameBefore) then [] else [before]
  let back := if steps.any (named nameAfter) then [] else [after]
  Edit.onFirst (fun step => some (anchor step))
    (fun step => some (front ++ [step] ++ back, !(front ++ back).isEmpty)) steps

def ensureWireC1C2AroundDrift : Edit Json :=
  ifJobs (onJob "drift" (withSteps (surround (usesEnds "/fixture-drift")
    "Wire Probe (C1)" (wireStep "Wire Probe (C1)" "C1" "results/fixture-drift")
    "Wire Probe (C2)" (wireStep "Wire Probe (C2)" "C2" "results/fixture-drift"))))

def unlessNamed (name : String) (insert : Edit (List Json)) : Edit (List Json) :=
  Edit.unlessAny (named name) insert

def ensureWireI1I2Invoker : Edit Json :=
  ifJobs (onEachJob fun _ => rewriteSteps (Edit.inOrder [
    unlessNamed "Wire Invoker (start)" (insertBefore (named "Ensure Invoker (start)")
      (wireActionStep "Wire Invoker (start)" "./.github/actions/wire-invoker-start")),
    unlessNamed "Wire Invoker (stop)" (insertAfter (named "Ensure Invoker (stop)")
      (wireActionStep "Wire Invoker (stop)" "./.github/actions/wire-invoker-stop"))]))

def ensureWireG0G1Guard : Edit Json :=
  ifJobs (onEachJob fun _ => withSteps (Edit.ifAny (named "Runner Unblock Guard") (Edit.inOrder [
    unlessNamed "Wire Guard (pre)" (insertBefore (named "Runner Unblock Guard")
      (wireActionStep "Wire Guard (pre)" "./.github/actions/wire-guard-pre")),
    unlessNamed "Wire Guard (post)" (insertAfter (named "Runner Unblock Guard")
      (wireActionStep "Wire Guard (post)" "./.github/actions/wire-guard-post"))]) Edit.skip))

def ensureWireP1AfterFinal : Edit Json :=
  ifJobs (onEachJob fun _ => withSteps (unlessNamed "Wire Probe (P1)"
    (insertAtAny
      (fun anchor => insertAfter anchor (wireStep "Wire Probe (P1)" "P1" "tests/results"))
      ["Append final summary (single)", "Summarize orchestrated run"])))

/-! ### Fixture drift -/

/-- The steps of the Windows job of the fixture drift. -/
def longWireSteps : Edit (List Json) := Edit.inOrder [
  surround isCheckout "Wire Probe (J1)" (wireProbeStep "J1") "Wire Probe (J2)" (wireProbeStep "J2"),
  unlessNamed "LV Guard (pre)" (insertAfter (named "Detect docs-only change") lvGuardPreStep),
  unlessNamed "Wire Guard (pre)" (insertAfter (named "Detect docs-only change")
    (driftActionStep "Wire Guard (pre)" none "./.github/actions/wire-guard-pre")),
  unlessNamed "LabVIEW warmup (best-effort)"
    (insertAfter (named "Detect docs-only change") warmupStep),
  unlessNamed "Wire Invoker (start)" (insertAfter (named "Detect docs-only change")
    (driftActionStep "Wire Invoker (start)" none "./.github/actions/wire-invoker-start")),
  unlessNamed "Wire Probe (C1)"
    (insertBefore (named "Fixture Drift Orchestrator") (wireProbeStep "C1")),
  unlessNamed "Wire Probe (C2)"
    (insertAfter (named "Fixture Drift Orchestrator") (wireProbeStep "C2")),
  unlessNamed "Wire Probe (C3)"
    (insertAfter (named "Verify fixture vs LVCompare (notice-only)") (wireProbeStep "C3")),
  unlessNamed "Wire Probe (V1)"
    (insertAfter (named "Verify fixture vs LVCompare (notice-only)") (wireProbeStep "V1")),
  Edit.unlessAny usesWireSession (insertBefore (named "Session index post (best-effort)")
    (driftActionStep "Wire Session Index (S1)" always "./.github/actions/wire-session-index")),
  unlessNamed "Wire Invoker (stop)" (insertAfter (named "Runner Unblock Guard")
    (driftActionStep "Wire Invoker (stop)" none "./.github/actions/wire-invoker-stop")),
  unlessNamed "Wire Probe (P1)" (insertAfter (named "Ensure Invoker (stop)") (wireProbeStep "P1")),
  Edit.unlessAny (fun step => usesText step = "./.github/actions/wire-guard-post")
    (insertAfter (named "LV Guard (post)")
      (driftActionStep "Wire Guard (post)" none "./.github/actions/wire-guard-post"))]

/-- `_ensure_job_concurrency` and the steps. -/
def longWireJob : Edit Mapping := fun job => do
  let (job', changed) := ensureKey "concurrency"
    (.obj [("group", .str "lv-fixture-win"), ("cancel-in-progress", .bool false)]) job
  let (job'', changed') ← setdefaultSteps longWireSteps job'
  return (job'', changed || changed')

def ensureLongWireFixtureDriftWindows : Edit Json := onJob "validate-windows" longWireJob

/-! ### All transforms -/

/-- The job of `pester-integration-on-label.yml` calls a reusable workflow. -/
def isReusable (doc : Json) : Bool :=
  match (jobAt doc "pester-integration").bind fun job => job.lookup "uses" with
  | some (.str _) => true
  | _ => false

def ensureIntegrationJob : Edit Json := fun doc =>
  if isReusable doc then Edit.skip doc
  else Edit.inOrder [
    ensureSessionIndexPostInJob "pester-integration" "tests/results"
      "pester-integration-session-index",
    ensureRunnerUnblockGuard "pester-integration" "tests/results/runner-unblock-snapshot.json"] doc

/-- The guard of `pester-reusable.yml`, after a checkout in front. -/
def preflightGuardSteps : Edit (List Json) := fun steps =>
  Edit.unlessAny (usesEnds "runner-unblock-guard")
    (Edit.insertAt (if steps.head?.any (usesStarts "actions/checkout") then 1 else 0)
      preflightGuardStep) steps

/-- `except Exception: pass`, where what raises changes nothing before. -/
def caught (edit : Edit Json) : Edit Json := fun doc => some ((edit doc).getD (doc, false))

/-- The transforms of `ci-orchestrated.yml` before the probe job. -/
def orchestratedEarly : List (Edit Json) := [
  ensureHostedPreflight "preflight",
  ensureSessionIndexPostInPesterMatrix "pester",
  ensureSessionIndexPostInPesterMatrix "pester-category",
  ensureRunnerUnblockGuard "drift" "results/fixture-drift/runner-unblock-snapshot.json",
  ensureRunnerUnblockGuard "pester" (categoryResults ++ "/runner-unblock-snapshot.json"),
  ensureRunnerUnblockGuard "pester-category" (categoryResults ++ "/runner-unblock-snapshot.json"),
  ensureRerunHintAfterSummary "matrix",
  ensureRerunHintInJob "windows-single" "single",
  ensureRerunHintInJob "publish" "matrix"]

def probeGating (jobName : String) (newIf : Json) : List (Edit Json) :=
  [setJobIf jobName newIf, ensureJobNeeds jobName "probe"]

def orchestratedLint : List (Edit Json) :=
  [ensureLintResiliency "lint", ensureOrchestratedDriftGateDefaults]

def orchestratedWires : List (Edit Json) := [
  ensureWireS1BeforeSessionIndex,
  ensureWireT1ForTests,
  ensureWireC1C2AroundDrift,
  ensureWireI1I2Invoker,
  ensureWireG0G1Guard,
  ensureWireP1AfterFinal]

/-- The transforms of `ci-orchestrated.yml`. -/
def orchestratedTransforms : List (Edit Json) :=
  orchestratedEarly ++ [ensureInteractivityProbeJob] ++
    probeGating "windows-single" singleCondition ++
    probeGating "pester-category" matrixCondition ++
    orchestratedLint ++ [ensureWireProbesAllJobs] ++ orchestratedWires

def isSelfhosted (fileName : String) (name : Option Json) : Bool :=
  name = some (.str "Pester (self-hosted)") || name = some (.str "Pester (integration)") ||
    fileName = "pester-selfhosted.yml"

def earlyTransforms (fileName : String) (name : Option Json) : List (Edit Json) :=
  (if isSelfhosted fileName name then [ensureForceRunInput, ensurePreinitForceRunOutputs]
    else []) ++
  (if fileName = "fixture-drift.yml" then
    [ensureSessionIndexPostInJob "validate-windows" "results/fixture-drift"
      "fixture-drift-session-index", ensureLongWireFixtureDriftWindows] else [])

def fileTransforms (fileName : String) : List (Edit Json) :=
  if fileName = "ci-orchestrated.yml" then orchestratedTransforms
  else if fileName = "pester-integration-on-label.yml" then [ensureIntegrationJob]
  else if fileName = "smoke.yml" then
    [ensureSessionIndexPostInJob "compare" "tests/results" "smoke-session-index",
      ensureRunnerUnblockGuard "compare" "tests/results/runner-unblock-snapshot.json"]
  else if fileName = "compare-artifacts.yml" then
    [ensureSessionIndexPostInJob "publish" "tests/results" "compare-session-index",
      ensureRunnerUnblockGuard "publish" "tests/results/runner-unblock-snapshot.json"]
  else if fileName = "pester-reusable.yml" then
    [caught (onJob "preflight" (setdefaultSteps preflightGuardSteps))]
  else if fileName = "validate.yml" then
    [ensureLintResiliency "lint", ensureWireProbesAllJobs, ensureWireS1BeforeSessionIndex]
  else []

def transforms (fileName : String) (name : Option Json) : List (Edit Json) :=
  earlyTransforms fileName name ++ normalizeHostedPreflightSteps :: fileTransforms fileName

/-- `apply_transforms`: the document after it, `none` where it raises. -/
def applyTransforms (fileName : String) (doc : Json) : Option Json :=
  match doc with
  | .obj fields => do
    let (doc', changed) ← Edit.inOrder (transforms fileName (fields.lookup "name")) doc
    return if changed then doc' else doc
  | _ => none

end CompareVI.Workflows
