import CompareVI.Workflows.Document

/-!
# The steps the transforms write

The bodies of the steps that are created or normalized, as the program has them, and the jobs
that are created. `Plain` says that a step neither checks the repository out nor has the id `out`:
it has no part in how the outputs of a job come about. All steps the transforms create outside
the preflight and probe jobs are plain (`plain_wireStep` and its like).
-/

open Framework

namespace CompareVI.Workflows

def expression (text : String) : String := "$\x7b\x7b " ++ text ++ " \x7d\x7d"

def wireProbesOn : Json := .str (expression "vars.WIRE_PROBES != '0'")

/-- `{'uses': 'actions/checkout@v5'}`. -/
def checkoutStep : Json := .obj [("uses", .str "actions/checkout@v5")]

/-! ### Pre-init -/

/-- `${{ steps.out.outputs.docs_only }}`. -/
def docsOnlyOutput : Json := .str (expression "steps.out.outputs.docs_only")

/-- `${{ inputs.force_run != 'true' }}`. -/
def notForced : Json := .str (expression "inputs.force_run != 'true'")

/-- `out_step` of `ensure_preinit_force_run_outputs`. -/
def docsOnlyStep : Json := .obj [
  ("name", .str "Compute docs_only (force_run aware)"),
  ("id", .str "out"),
  ("shell", .str "pwsh"),
  ("run", .str <| lines [
    "$force = '$\x7b\x7b inputs.force_run \x7d\x7d'",
    "if ($force -ieq 'true') \x7b $val = 'false' \x7d else \x7b $val = '$\x7b\x7b " ++
      "steps.g.outputs.docs_only || 'false' \x7d\x7d' \x7d",
    "\"docs_only=$val\" | Out-File -FilePath $env:GITHUB_OUTPUT -Append -Encoding utf8",
    ""])]

/-- The input `force_run`. -/
def forceRunInput : Json := .obj [
  ("description", .str "Force run (bypass docs-only gate)"),
  ("required", .bool false),
  ("default", .str "false"),
  ("type", .str "choice"),
  ("options", .arr [.str "true", .str "false"])]

/-! ### Hosted preflight -/

/-- The name of `_mk_hosted_preflight_step`. -/
def hostedPreflightName : String :=
  "Verify Windows runner and idle LabVIEW (surface LVCompare notice)"

/-- The body of `_mk_hosted_preflight_step`. -/
def hostedPreflightRun : Json := .str <| lines [
  "Write-Host \"Runner: $([System.Environment]::OSVersion.VersionString)\"",
  "Write-Host \"Pwsh:   $($PSVersionTable.PSVersion)\"",
  "$cli = 'C:\\Program Files\\National Instruments\\Shared\\LabVIEW Compare\\LVCompare.exe'",
  "if (-not (Test-Path -LiteralPath $cli)) \x7b",
  "  Write-Host \"::notice::LVCompare.exe not found at canonical path: $cli (hosted " ++
    "preflight)\"",
  "\x7d else \x7b Write-Host \"LVCompare present: $cli\" \x7d",
  "$lv = Get-Process -Name 'LabVIEW' -ErrorAction SilentlyContinue",
  "if ($lv) \x7b $pids = ($lv | ForEach-Object Id); $msg = \"::error::LabVIEW.exe is " ++
    "running (PID(s): \x7b0\x7d)\" -f ([string]::Join(\",\", $pids)); Write-Host $msg; " ++
    "exit 1 \x7d",
  "Write-Host 'Preflight OK: Windows runner healthy; LabVIEW not running.'",
  "if ($env:GITHUB_STEP_SUMMARY) \x7b",
  "  $note = @('Note:', '- This preflight runs on hosted Windows (windows-latest); " ++
    "LVCompare presence is not required here.', '- Self-hosted Windows steps later in " ++
    "this workflow enforce LVCompare at the canonical path.') -join \"`n\"",
  "  $note | Out-File -FilePath $env:GITHUB_STEP_SUMMARY -Append -Encoding utf8",
  "\x7d"]

def hostedPreflightStep : Json := .obj [
  ("name", .str hostedPreflightName),
  ("shell", .str "pwsh"),
  ("run", hostedPreflightRun)]

/-- The name of `_mk_hosted_notice_step`. -/
def hostedNoticeName : String := "Verify LVCompare and idle LabVIEW state (notice-only on hosted)"

/-- The body of `_mk_hosted_notice_step`. -/
def hostedNoticeRun : Json := .str <| lines [
  "$cli = 'C:\\Program Files\\National Instruments\\Shared\\LabVIEW Compare\\LVCompare.exe'",
  "if (-not (Test-Path -LiteralPath $cli)) \x7b",
  "  Write-Host \"::notice::LVCompare.exe not found at canonical path: $cli (hosted " ++
    "preflight)\"",
  "\x7d else \x7b",
  "  Write-Host \"LVCompare present: $cli\"",
  "\x7d",
  "$lv = Get-Process -Name 'LabVIEW' -ErrorAction SilentlyContinue",
  "if ($lv) \x7b $pids = ($lv | ForEach-Object Id); $msg = '::notice::LabVIEW.exe is " ++
    "running (PID(s): \x7b0\x7d).' -f ([string]::Join(',', $pids)); Write-Host $msg \x7d " ++
    "else \x7b Write-Host 'LabVIEW not running.' \x7d",
  "Write-Host 'Preflight check complete.'"]

/-- The preflight job `ensure_hosted_preflight` starts from. -/
def minimalPreflightJob : Mapping := [
  ("runs-on", .str "windows-latest"),
  ("timeout-minutes", .num 3),
  ("steps", .arr [checkoutStep])]

/-! ### Wire probes -/

def actionStep (name : String) (condition : Option Json) (action : String) (inputs : Mapping) :
    Json :=
  .obj ([("name", .str name)] ++ (condition.map fun value => ("if", value)).toList ++
    [("uses", .str action), ("with", .obj inputs)])

/-- A probe of `_insert_wire_j1_j2_in_job`, or `_mk_wire_step`. -/
def wireStep (name phase resultsDir : String) : Json :=
  actionStep name wireProbesOn "./.github/actions/wire-probe"
    [("phase", .str phase), ("results-dir", .str resultsDir)]

def wireProbeStep (phase : String) : Json :=
  actionStep ("Wire Probe (" ++ phase ++ ")") none "./.github/actions/wire-probe"
    [("phase", .str phase), ("results-dir", .str "results/fixture-drift")]

/-- The probe of `ensure_wire_T1_for_tests`. -/
def wireTestStep (resultsDir : String) : Json :=
  actionStep "Wire Probe (T1)" none "./.github/actions/wire-probe"
    [("phase", .str "T1"), ("results-dir", .str resultsDir)]

/-- The step of `ensure_wire_S1_before_session_index`. -/
def wireSessionStep (resultsDir : String) : Json :=
  actionStep "Wire Session Index (S1)" wireProbesOn "./.github/actions/wire-session-index"
    [("results-dir", .str resultsDir)]

/-- The steps of `ensure_wire_I1I2_invoker` and `ensure_wire_G0G1_guard`. -/
def wireActionStep (name action : String) : Json :=
  actionStep name wireProbesOn action [("results-dir", .str "tests/results")]

def categoryResults : String := "tests/results/" ++ expression "matrix.category"

/-! ### Session index and runner guard -/

def always : Json := .str (expression "always()")

/-- The step of `ensure_session_index_post_in_pester_matrix` and
`ensure_session_index_post_in_job`. -/
def sessionIndexStep (name resultsDir artifactName : String) : Json :=
  actionStep name always "./.github/actions/session-index-post" [
    ("results-dir", .str resultsDir),
    ("validate-schema", .bool true),
    ("upload", .bool true),
    ("artifact-name", .str artifactName)]

def guardStep (name : String) (condition : Option Json)
    (snapshotPath cleanup processNames : String) : Json :=
  actionStep name condition "./.github/actions/runner-unblock-guard" [
    ("snapshot-path", .str snapshotPath),
    ("cleanup", .str (expression cleanup)),
    ("process-names", .str processNames)]

/-- The step of `ensure_runner_unblock_guard`. -/
def runnerUnblockStep (snapshotPath : String) : Json :=
  guardStep "Runner Unblock Guard" always snapshotPath "env.UNBLOCK_GUARD == '1'"
    "conhost,pwsh,LabVIEW,LVCompare"

/-- The guard of `pester-reusable.yml`. -/
def preflightGuardStep : Json :=
  guardStep "Runner Unblock Guard (preflight)" none "tests/results/runner-unblock-snapshot.json"
    "env.CLEAN_LV_BEFORE == 'true'" "LabVIEW,LVCompare"

/-! ### Fixture drift -/

def lvGuardPreStep : Json :=
  guardStep "LV Guard (pre)" none "results/fixture-drift/lv-guard-pre.json"
    "env.CLEAN_LV_BEFORE == 'true'" "LVCompare,LabVIEW"

/-- `_mk_wire_guard_pre_step`, `_mk_wire_guard_post_step`, `_mk_wire_invoker_start_step`,
`_mk_wire_invoker_stop_step` and, with a condition, `_mk_wire_session_index_step`. -/
def driftActionStep (name : String) (condition : Option Json) (action : String) : Json :=
  actionStep name condition action [("results-dir", .str "results/fixture-drift")]

def warmupStep : Json := .obj [
  ("name", .str "LabVIEW warmup (best-effort)"),
  ("shell", .str "pwsh"),
  ("run", .str "pwsh -File tools/Warmup-LabVIEWRuntime.ps1\n")]

/-! ### Rerun hint -/

/-- The name of `_mk_rerun_hint_step`. -/
def rerunHintName (defaultStrategy : String) : String :=
  if defaultStrategy = "matrix" then "Re-run with same inputs"
  else "Re-run with same inputs (single)"

/-- The environment of `_mk_rerun_hint_step`. -/
def rerunHintEnv : Json := .obj [
  ("GH_STRATEGY", .str (expression "inputs.strategy")),
  ("GH_INCLUDE", .str (expression "inputs.include_integration")),
  ("GH_SAMPLE_ID", .str (expression "inputs.sample_id"))]

/-- The body of `_mk_rerun_hint_step`. -/
def rerunHintRun (defaultStrategy : String) : Json := .str <| lines [
  "$strategy = if ($env:GH_STRATEGY) \x7b $env:GH_STRATEGY \x7d else \x7b '" ++
    defaultStrategy ++ "' \x7d",
  "$include = if ($env:GH_INCLUDE) \x7b $env:GH_INCLUDE \x7d else \x7b 'true' \x7d",
  "$sid = if ($env:GH_SAMPLE_ID) \x7b $env:GH_SAMPLE_ID \x7d else \x7b '<id>' \x7d",
  "$cmd = \"/run orchestrated strategy=\x7b0\x7d include_integration=\x7b1\x7d " ++
    "sample_id=\x7b2\x7d\" -f $strategy,$include,$sid",
  "$lines = @('### Re-run With Same Inputs','',\"$ $cmd\")",
  "if ($env:GITHUB_STEP_SUMMARY) \x7b $lines -join \"`n\" | Out-File -FilePath " ++
    "$env:GITHUB_STEP_SUMMARY -Append -Encoding utf8 \x7d"]

def rerunHintStep (defaultStrategy : String) : Json := .obj [
  ("if", always),
  ("name", .str (rerunHintName defaultStrategy)),
  ("shell", .str "pwsh"),
  ("env", rerunHintEnv),
  ("run", rerunHintRun defaultStrategy)]

/-- The fields of `_mk_rerun_hint_step` that are normalized. -/
def rerunHintFields (defaultStrategy : String) : Mapping := [
  ("if", always),
  ("shell", .str "pwsh"),
  ("env", rerunHintEnv),
  ("run", rerunHintRun defaultStrategy)]

/-! ### Probe job -/

def probeStepName : String := "Run interactivity probe"

/-- `desired_run`. -/
def probeRun : Json := .str <| lines [
  "pwsh -File tools/Write-InteractivityProbe.ps1",
  "$ui = [System.Environment]::UserInteractive",
  "$in = $false; try \x7b $in  = [Console]::IsInputRedirected \x7d catch \x7b\x7d",
  "$ok = ($ui -and -not $in)",
  "$okString = if ($ok) \x7b \"true\" \x7d else \x7b \"false\" \x7d",
  "\"ok=$okString\" | Out-File -FilePath $env:GITHUB_OUTPUT -Append -Encoding utf8",
  ""]

/-- `desired_out`. -/
def probeOutStep : Json := .obj [
  ("name", .str probeStepName),
  ("id", .str "out"),
  ("shell", .str "pwsh"),
  ("run", probeRun)]

/-- The fields of the step with the id `out` that are normalized. -/
def probeOutFields : Mapping := [
  ("name", .str probeStepName),
  ("shell", .str "pwsh"),
  ("run", probeRun)]

/-- `COMPARE_CAPABILITY_INGRESS_RUNS_ON`. -/
def ingressRunsOn : Json :=
  .arr [.str "self-hosted", .str "Windows", .str "X64", .str "comparevi", .str "capability-ingress"]

/-- `desired_if`. -/
def probeCondition : Json :=
  .str (expression "inputs.strategy == 'single' || vars.ORCH_STRATEGY == 'single'")

/-- `desired_outputs`. -/
def probeOutputs : Json := .obj [("ok", .str (expression "steps.out.outputs.ok"))]

/-- `desired_needs`. -/
def probeNeeds : List Json := [.str "normalize", .str "preflight"]

/-- `job['steps']`. -/
def probeSteps : List Json := [checkoutStep, probeOutStep]

def probeJob : Mapping := [
  ("if", probeCondition),
  ("runs-on", ingressRunsOn),
  ("timeout-minutes", .num 2),
  ("needs", .arr probeNeeds),
  ("outputs", probeOutputs),
  ("steps", .arr probeSteps)]

def probeFields : Mapping := [
  ("if", probeCondition),
  ("runs-on", ingressRunsOn),
  ("timeout-minutes", .num 2),
  ("outputs", probeOutputs)]

/-! ### Lint -/

/-- `${{ vars.ACTIONLINT_VERSION || '1.7.8' }}`. -/
def actionlintVersion : Json := .str (expression "vars.ACTIONLINT_VERSION || '1.7.8'")

/-- The name of `install_step`. -/
def installActionlintName : String := "Install actionlint (retry)"

/-- The body of `install_step`. -/
def installActionlintRun : Json := .str <| lines [
  "set -euo pipefail",
  "mkdir -p ./bin",
  "ver=\"$\x7bACTIONLINT_VERSION:-1.7.8\x7d\"",
  "for i in 1 2 3; do",
  "  if curl -fsSL https://raw.githubusercontent.com/rhysd/actionlint/main/scripts/downl" ++
    "oad-actionlint.bash | bash -s -- \"$ver\" ./bin; then",
  "    break",
  "  else",
  "    echo \"retry $i\"; sleep 2",
  "  fi",
  "done",
  ""]

/-- `install_step`. -/
def installActionlintStep : Json := .obj [
  ("name", .str installActionlintName),
  ("shell", .str "bash"),
  ("run", installActionlintRun)]

/-- `run_step`. -/
def runActionlintStep : Json := .obj [
  ("name", .str "Run actionlint"),
  ("run", .str "./bin/actionlint -color\n")]

/-- The name of `node_step`. -/
def setupNodeName : String := "Setup Node with cache"

/-- The inputs of `node_step`. -/
def setupNodeInputs : Mapping := [("node-version", .str "20"), ("cache", .str "npm")]

/-- `node_step`. -/
def setupNodeStep : Json := actionStep setupNodeName none "actions/setup-node@v6" setupNodeInputs

/-- `name_md`, of the lint that blocks. -/
def markdownName : String := "Run markdownlint"

/-- `alt_name_md`. -/
def markdownAltName : String := "Run markdownlint (non-blocking)"

/-- `scoped_name_md`. -/
def markdownScopedName : String := "Run markdownlint (scoped changed files)"

/-- The body of `md_run_step`. -/
def markdownRun : Json := .str "node tools/npm/run-script.mjs lint:md:changed\n"

/-- `md_run_step`. -/
def markdownStep : Json := .obj [("name", .str markdownName), ("run", markdownRun)]

/-- `default_branch_expr`. -/
def defaultBranch : Json := .str <| expression
  ("github.event.repository.default_branch || " ++
    "github.event.pull_request.base.repo.default_branch || " ++
    "github.event.workflow_run.repository.default_branch || ''")

def driftGateRun : Json := .str <| lines [
  "$params = @()",
  "$defaultBranch = $env:DEFAULT_BRANCH",
  "if ('$\x7b\x7b github.ref_name \x7d\x7d' -eq $defaultBranch -or '$\x7b\x7b " ++
    "github.base_ref \x7d\x7d' -eq $defaultBranch) \x7b",
  "  $params += '-FailOnWorkflowDrift'",
  "\x7d",
  "$params += '-SkipDotnetCliBuild'",
  "# Skip linting this workflow while it is executing to avoid orchestration deadlocks.",
  "$params += '-ExcludeWorkflowPaths'",
  "$params += '.github/workflows/ci-orchestrated.yml'",
  "pwsh -File ./tools/Run-NonLVChecksInDocker.ps1 @params",
  ""]

/-! ### Conditions -/

/-- `w_if`. -/
def singleCondition : Json := .str <| expression
  ("(inputs.strategy == 'single' || vars.ORCH_STRATEGY == 'single') && " ++
    "needs.probe.outputs.ok == 'true'")

/-- `pc_if`. -/
def matrixCondition : Json := .str <| expression
  ("inputs.strategy == 'matrix' || vars.ORCH_STRATEGY == 'matrix' || " ++
    "(inputs.strategy == '' && vars.ORCH_STRATEGY == '') || (inputs.strategy == 'single' && " ++
    "needs.probe.outputs.ok == 'false')")

/-! ### Plain steps -/

/-- The step has no part in how the outputs of a job come about. -/
def Plain (step : Json) : Prop := isCheckout step = false ∧ hasId "out" step = false

theorem plain_actionStep {name : String} {condition : Option Json} {action : String}
    {inputs : Mapping} (h : "actions/checkout@".toList.isPrefixOf action.toList = false) :
    Plain (actionStep name condition action inputs) := by
  constructor
  · cases condition <;> exact h
  · cases condition <;> rfl

theorem plain_wireStep (name phase resultsDir : String) : Plain (wireStep name phase resultsDir) :=
  plain_actionStep (by decide)

theorem plain_wireTestStep (resultsDir : String) : Plain (wireTestStep resultsDir) :=
  plain_actionStep (by decide)

theorem plain_wireSessionStep (resultsDir : String) : Plain (wireSessionStep resultsDir) :=
  plain_actionStep (by decide)

theorem plain_rerunHintStep (defaultStrategy : String) : Plain (rerunHintStep defaultStrategy) :=
  ⟨rfl, rfl⟩

end CompareVI.Workflows
