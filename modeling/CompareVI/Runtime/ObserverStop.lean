import CompareVI.Runtime.Observer
import CompareVI.Runtime.StopRelease

/-!
# Stages of the observer loop, and stops

What is wanted of every cycle of the loop (`CycleLaw`): the stages of a worker come one after
another, each only after the one before it has passed, the execution at most once and only
after a worker step that has ended with 0, and nothing after a stage that was blocked or has
thrown. All of this holds.

A cycle whose worker step says that a stop is requested should not execute a turn either. The
step says so with exit code 0, and the loop looks at the flag only after the execution. So it
holds exactly where no such step meets an execution hook (`observerLaw_iff`).

A cycle is watched by a monitor (`Progress`), and each part of it has one spec lemma. The
task packet is not a stage: it is written for a blocked decision and a blocked branch too.
-/

open Framework

namespace CompareVI.Runtime

/-! ### What an exchange says -/

def ObserverQuery.stage : ObserverQuery → Bool
  | planStep .. | prepareWorker _ | bootstrapWorker .. | activateWorker ..
  | runRuntimeWorkerStep .. | executeTurn .. => true
  | readRecentEvents | buildTaskPacket _ | write _ | sleep _ => false

def ObserverQuery.executes : ObserverQuery → Bool
  | executeTurn .. => true
  | _ => false

def halts : ObserverExchange → Bool
  | ⟨.planStep .., .ok raw⟩ => decisionOutcome raw = .blocked
  | ⟨.prepareWorker _, .ok raw⟩ => isBlocked (normalizeWorkerCheckout raw)
  | ⟨.bootstrapWorker .., .ok raw⟩ => isBlocked (normalizeWorkerReady raw)
  | ⟨.activateWorker .., .ok raw⟩ => isBlocked (normalizeWorkerBranch raw)
  | ⟨.runRuntimeWorkerStep .., .ok report⟩ => report.exitCode ≠ 0
  | ⟨.executeTurn .., .ok raw⟩ =>
    (normalizeExecutionReceipt raw).any fun receipt => receipt.status = "blocked"
  | ⟨q, .error _⟩ => q.stage
  | _ => false

def prepares : ObserverExchange → Bool
  | ⟨.prepareWorker _, .ok raw⟩ =>
    (normalizeWorkerCheckout raw).any fun record => record.status ≠ "blocked"
  | _ => false

def bootstraps : ObserverExchange → Bool
  | ⟨.bootstrapWorker .., .ok raw⟩ =>
    (normalizeWorkerReady raw).any fun record => record.status ≠ "blocked"
  | _ => false

def stepReport : ObserverExchange → Option SupervisorReport
  | ⟨.runRuntimeWorkerStep .., .ok report⟩ => some report
  | _ => none

/-! ### The law -/

/-- What is wanted of a cycle. -/
structure CycleLaw (c : CycleRun) : Prop where
  /-- No turn is executed where the worker step says that a stop is requested. -/
  stop : ∀ e ∈ c.history, ∀ report, stepReport e = some report → report.stops = true →
    ∀ e' ∈ c.history, e'.query.executes = false
  once : c.history.countP (fun e => e.query.executes) ≤ 1
  executes : ∀ pre e post, c.history = pre ++ e :: post → e.query.executes = true →
    ∃ e' ∈ pre, ∃ report, stepReport e' = some report ∧ report.exitCode = 0
  activates : ∀ pre e post, c.history = pre ++ e :: post →
    (∃ decision worker ready, e.query = .activateWorker decision worker ready) →
    ∃ e' ∈ pre, bootstraps e' = true
  bootstraps : ∀ pre e post, c.history = pre ++ e :: post →
    (∃ decision worker, e.query = .bootstrapWorker decision worker) → ∃ e' ∈ pre, prepares e' = true
  /-- Nothing comes after a stage that is blocked or has thrown. -/
  halts : ∀ pre e post, c.history = pre ++ e :: post → halts e = true →
    (∀ e' ∈ post, e'.query.stage = false) ∧ ∀ t, c.result ≠ .ok (.ok t)

/-- What is wanted of a run: of all its cycles, and that a cycle in which a stage was blocked or
has thrown is the last. -/
structure ObserverLaw (cycles : List CycleRun) : Prop where
  cycle : ∀ c ∈ cycles, CycleLaw c
  halted : ∀ pre c post, cycles = pre ++ c :: post → (∃ e ∈ c.history, halts e = true) → post = []

/-- No worker step that has ended with 0 says that a stop is requested, where turns are
executed. -/
def StopsAside (o : ObserverOptions) (cycles : List CycleRun) : Prop :=
  (o.executeTurn && o.hooks.executeTurn) = true → ∀ c ∈ cycles, ∀ e ∈ c.history, ∀ report,
    stepReport e = some report → report.exitCode = 0 → report.stops = false

/-! ### The monitor -/

structure Progress where
  prepared : Bool
  bootstrapped : Bool
  halted : Bool
  reports : List SupervisorReport
  executed : ℕ

namespace Progress

def start : Progress := ⟨false, false, false, [], 0⟩

def see (s : Progress) (e : ObserverExchange) : Progress where
  prepared := s.prepared || prepares e
  bootstrapped := s.bootstrapped || bootstraps e
  halted := s.halted || Runtime.halts e
  reports := s.reports ++ (stepReport e).toList
  executed := s.executed + if e.query.executes then 1 else 0

def monitor : Monitor Progress (fun q : ObserverQuery => Except String q.Reply) := see

variable (s : Progress) (h : List ObserverExchange)

theorem prepared_after : (monitor.after s h).prepared = (s.prepared || h.any prepares) :=
  Monitor.flag_after (fun _ _ => rfl) s h

theorem bootstrapped_after :
    (monitor.after s h).bootstrapped = (s.bootstrapped || h.any bootstraps) :=
  Monitor.flag_after (fun _ _ => rfl) s h

theorem halted_after : (monitor.after s h).halted = (s.halted || h.any Runtime.halts) :=
  Monitor.flag_after (fun _ _ => rfl) s h

theorem reports_after : (monitor.after s h).reports = s.reports ++ h.filterMap stepReport := by
  induction h generalizing s with
  | nil => exact (List.append_nil _).symm
  | cons e h ih =>
    refine (ih (s.see e)).trans ?_
    rw [List.filterMap_cons]
    cases hreport : stepReport e with
    | none => simp [see, hreport]
    | some report => simp [see, hreport]

theorem executed_after :
    (monitor.after s h).executed = s.executed + h.countP fun e => e.query.executes := by
  induction h generalizing s with
  | nil => rfl
  | cons e h ih =>
    refine (ih (s.see e)).trans ?_
    rw [List.countP_cons, see]
    dsimp only
    omega

end Progress

/-! ### What a cycle asks -/

def ObserverOptions.executes (o : ObserverOptions) : Bool :=
  o.executeTurn && o.hooks.executeTurn

def Allowed (o : ObserverOptions) (s : Progress) : ObserverQuery → Prop
  | .planStep .. | .prepareWorker _ => s.halted = false
  | .bootstrapWorker .. => s.halted = false ∧ s.prepared = true
  | .activateWorker .. => s.halted = false ∧ s.bootstrapped = true
  | .runRuntimeWorkerStep .. => s.halted = false ∧ s.reports = []
  | .executeTurn .. => s.halted = false ∧ s.executed = 0 ∧ o.executes = true ∧
    ∃ report, s.reports = [report] ∧ report.exitCode = 0
  | .readRecentEvents | .buildTaskPacket _ | .write _ | .sleep _ => True

/-- However a cycle ends: it has at most one worker step, and if that has ended with 0, a turn
was executed if turns are. -/
def Ended (o : ObserverOptions) (s : Progress) : Prop :=
  s.reports.length ≤ 1 ∧ s.executed ≤ 1 ∧
    ∀ report ∈ s.reports, report.exitCode = 0 → o.executes = true → s.executed = 1

/-- Before the worker step. -/
structure Early (s : Progress) : Prop where
  reports : s.reports = []
  executed : s.executed = 0

theorem Early.ended {o : ObserverOptions} {s : Progress} (h : Early s) : Ended o s := by
  refine ⟨?_, ?_, ?_⟩
  · rw [h.reports]
    exact Nat.zero_le 1
  · rw [h.executed]
    exact Nat.zero_le 1
  · intro report hreport
    rw [h.reports] at hreport
    cases hreport

abbrev CyclePart (o : ObserverOptions) {α : Type} (P : Progress → α → Prop) (s : Progress)
    (x : Cycle α) : Prop :=
  Exits Progress.monitor.service (Allowed o) (Ended o) (fun t _ => Ended o t) P s x

abbrev ObservedPart (o : ObserverOptions) {α : Type} (P : Progress → α → Prop) (s : Progress)
    (p : Observed α) : Prop :=
  Ends Progress.monitor.service (Allowed o) (Ended o) P s p

section Parts

variable {o : ObserverOptions} {s : Progress} {l : LoopState} {decision : SchedulerDecision}

variable {q : ObserverQuery} {worker : Option StageRecord} {report : SupervisorReport}

theorem see_of_not_stage (hq : q.stage = false) (s : Progress) (answer : Except String q.Reply) :
    s.see ⟨q, answer⟩ = s := by
  cases q with
  | planStep | prepareWorker | bootstrapWorker | activateWorker | runRuntimeWorkerStep
  | executeTurn => cases hq
  | readRecentEvents | buildTaskPacket | write | sleep =>
    cases answer <;> simp [Progress.see, prepares, bootstraps, halts, stepReport,
      ObserverQuery.executes, ObserverQuery.stage]

theorem allowed_of_not_stage (hq : q.stage = false) : Allowed o s q := by
  cases q with
  | planStep | prepareWorker | bootstrapWorker | activateWorker | runRuntimeWorkerStep
  | executeTurn => cases hq
  | readRecentEvents | buildTaskPacket | write | sleep => trivial

theorem part_quiet (hq : q.stage = false) (hs : Ended o s) :
    ObservedPart o (fun t _ => t = s) s (askObserver q) := by
  refine ends_call (allowed_of_not_stage hq) ?_ ?_
  · rintro reply _ rfl
    exact see_of_not_stage hq s (.ok reply)
  · rintro message _ rfl
    rw [Progress.monitor, see_of_not_stage hq]
    exact hs

theorem part_tryQuiet (hq : q.stage = false) :
    ObservedPart o (fun t _ => t = s) s (tryObserver q) := by
  refine ends_caught_call (allowed_of_not_stage hq) ?_
  rintro answer _ rfl
  exact see_of_not_stage hq s answer

variable {receipt : Option ExecutionReceipt} {ready record : Option StageRecord} {α : Type}

theorem part_endStage {exitCode : ℕ} {outcome : String} {P : Progress → α → Prop} (hs : Ended o s) :
    CyclePart o P s (endStage l exitCode outcome) := by
  refine exits_lift_bind (part_quiet rfl hs) fun t _ ht => ?_
  exact exits_throw (ht ▸ hs)

theorem part_idleStop {P : Progress → α → Prop} (hs : Ended o s) :
    CyclePart o P s (idleStop l) := by
  refine exits_lift_bind (part_quiet rfl hs) fun t _ ht => ?_
  exact exits_throw (ht ▸ hs)

/-! ### The stages -/

theorem decisionOutcome_manual {raw : PlannedStep}
    (h : raw.outcome = some "selected" ∨ raw.outcome = some "idle") :
    decisionOutcome raw ≠ .blocked := by
  have hparse : (parseOutcome raw.outcome).getD
      (if hasStepContext raw.stepOptions then DecisionOutcome.selected else .idle) ≠ .blocked := by
    rcases h with h | h
    · rw [h, show parseOutcome (some "selected") = some .selected by decide +kernel]
      exact DecisionOutcome.noConfusion
    · rw [h, show parseOutcome (some "idle") = some .idle by decide +kernel]
      exact DecisionOutcome.noConfusion
  unfold decisionOutcome
  generalize (parseOutcome raw.outcome).getD
    (if hasStepContext raw.stepOptions then DecisionOutcome.selected else .idle) = outcome
    at hparse ⊢
  dsimp only
  split
  · exact DecisionOutcome.noConfusion
  · exact hparse

theorem part_planStep (hs : Early s) (hhalted : s.halted = false) :
    ObservedPart o (fun t answer => Early t ∧ ∀ raw, answer = .ok raw →
      t.halted = decide (decisionOutcome raw = .blocked)) s (planStep o l).caught := by
  unfold planStep
  by_cases hplanner : o.hooks.planStep = true
  · rw [if_pos hplanner]
    refine ends_caught_call hhalted ?_
    rintro answer _ rfl
    refine ⟨⟨?_, ?_⟩, ?_⟩
    · cases answer <;> exact (List.append_nil _).trans hs.reports
    · cases answer <;> exact hs.executed
    · rintro raw rfl
      exact (congrArg (· || _) hhalted).trans (Bool.false_or _)
  · rw [if_neg hplanner]
    refine ends_pure ⟨hs, ?_⟩
    rintro raw ⟨⟩
    rw [hhalted, eq_comm, decide_eq_false_iff_not]
    refine decisionOutcome_manual ?_
    split
    · exact .inl rfl
    · exact .inr rfl

theorem part_planned (hs : Early s) (hhalted : s.halted = false) :
    CyclePart o (fun t decision => Early t ∧
      t.halted = decide (decision.outcome = .blocked)) s (planned o l) := by
  refine exits_lift_bind (part_planStep hs hhalted) fun t answer ht => ?_
  cases answer with
  | error message => exact exits_throw ht.1.ended
  | ok raw =>
    refine exits_lift_bind (part_quiet rfl ht.1.ended) fun u _ hu => ?_
    rw [hu]
    refine exits_pure ⟨ht.1, ?_⟩
    rw [buildSchedulerDecision_outcome]
    exact ht.2 raw rfl

theorem part_buildTaskPacket {branch : Option StageRecord} (hs : Ended o s) :
    ObservedPart o (fun t _ => t = s) s (buildTaskPacket o decision worker ready branch) := by
  refine (part_quiet rfl hs).bind fun t events ht => ?_
  rw [ht]
  refine Ends.bind (P := fun u _ => u = s) ?_ fun u raw hu => ?_
  · unfold adapterPacket
    split
    · exact part_quiet rfl hs
    · exact ends_pure rfl
  · rw [hu]
    exact (part_quiet rfl hs).bind fun v _ hv => ends_pure hv

theorem part_packetOf (hs : Early s) (hhalted : s.halted = decide (decision.outcome = .blocked)) :
    CyclePart o (fun t _ => Early t ∧ t.halted = false) s (packetOf o l decision) := by
  have hclear : decision.outcome ≠ .blocked → s.halted = false :=
    fun h => hhalted.trans (decide_eq_false h)
  unfold packetOf
  split
  · next hselected =>
    refine exits_pure ⟨hs, hclear ?_⟩
    rw [hselected]
    exact DecisionOutcome.noConfusion
  · refine Exits.bind (P := fun t _ => Early t ∧ t.halted = false) ?_
      fun t _ ht => exits_pure ht
    refine exits_lift_bind (part_buildTaskPacket hs.ended) fun t packet ht => ?_
    rw [ht]
    split
    · exact part_idleStop hs.ended
    · split
      · exact part_endStage hs.ended
      · next hblocked => exact exits_pure ⟨hs, hclear hblocked⟩

theorem part_askStage {runs : Bool} {read : q.Reply → Option StageRecord} (hs : Early s)
    (hhalted : s.halted = false) (hallowed : runs = true → Allowed o s q)
    (hreport : ∀ answer, stepReport ⟨q, answer⟩ = none) (hexecutes : q.executes = false)
    (hhalts : ∀ raw, halts ⟨q, .ok raw⟩ = isBlocked (read raw)) :
    ObservedPart o (fun t answer => Early t ∧ ∀ record, answer = .ok record →
      t.halted = isBlocked record ∧ (t = s ∧ record = none ∨
        ∃ raw, record = read raw ∧ t = s.see ⟨q, .ok raw⟩)) s (askStage runs q read) := by
  unfold askStage
  split
  · next hruns =>
    refine Ends.bind (P := fun t answer => t = s.see ⟨q, answer⟩)
      (ends_caught_call (hallowed hruns) fun answer _ hserve => hserve) ?_
    rintro _ answer rfl
    refine ends_pure ⟨⟨?_, ?_⟩, ?_⟩
    · rw [Progress.see, hreport]
      exact (List.append_nil _).trans hs.reports
    · rw [Progress.see, hexecutes]
      exact hs.executed
    · intro record hrecord
      cases answer with
      | error message => cases hrecord
      | ok raw =>
        obtain rfl := Except.ok.inj hrecord
        refine ⟨?_, .inr ⟨raw, rfl, rfl⟩⟩
        rw [Progress.see, hhalted, hhalts]
        exact Bool.false_or _
  · refine ends_pure ⟨hs, ?_⟩
    rintro record ⟨⟩
    exact ⟨hhalted, .inl ⟨rfl, rfl⟩⟩

theorem part_writeStage {artifact : StageRecord → Artifact} (hs : Ended o s) :
    ObservedPart o (fun t _ => t = s) s (writeStage artifact record) := by
  cases record with
  | none => exact ends_pure rfl
  | some record => exact part_quiet rfl hs

theorem passes_of_isReady (h : isReady record = true) :
    (record.any fun r => r.status ≠ "blocked") = true := by
  cases record with
  | none => cases h
  | some r =>
    rw [isReady, Option.any_some, Bool.and_eq_true] at h
    exact h.2

theorem part_prepared (hs : Early s) (hhalted : s.halted = false) :
    CyclePart o (fun t worker => Early t ∧ t.halted = false ∧
      (isReady worker = true → t.prepared = true)) s (prepared o l decision) := by
  refine exits_lift_bind (part_askStage hs hhalted (fun _ => hhalted) (fun _ => rfl) rfl
    fun _ => rfl) fun t answer ht => ?_
  cases answer with
  | error message => exact exits_throw ht.1.ended
  | ok worker =>
    obtain ⟨hearly, hstage⟩ := ht
    obtain ⟨hblocked, hcase⟩ := hstage worker rfl
    refine exits_lift_bind (part_writeStage hearly.ended) fun u _ hu => ?_
    rw [hu]
    split
    · exact part_endStage hearly.ended
    · next hpassed =>
      refine exits_pure ⟨hearly, hblocked.trans (Bool.eq_false_iff.mpr hpassed), fun hready => ?_⟩
      rcases hcase with ⟨-, rfl⟩ | ⟨raw, rfl, rfl⟩
      · cases hready
      · exact Bool.or_eq_true_iff.mpr (.inr (passes_of_isReady hready))

theorem part_bootstrapped (hs : Early s) (hhalted : s.halted = false)
    (hprepared : isReady worker = true → s.prepared = true) :
    CyclePart o (fun t ready => Early t ∧ t.halted = false ∧
      (isReady ready = true → t.bootstrapped = true)) s (bootstrapped o l decision worker) := by
  refine exits_lift_bind (part_askStage hs hhalted (fun hruns => ⟨hhalted, hprepared ?_⟩)
    (fun _ => rfl) rfl fun _ => rfl) fun t answer ht => ?_
  · exact (Bool.and_eq_true_iff.mp hruns).2
  cases answer with
  | error message =>
    refine exits_lift_bind (part_quiet rfl ht.1.ended) fun u _ hu => ?_
    exact exits_throw (hu ▸ ht.1.ended)
  | ok ready =>
    obtain ⟨hearly, hstage⟩ := ht
    obtain ⟨hblocked, hcase⟩ := hstage ready rfl
    refine exits_lift_bind (part_writeStage hearly.ended) fun u _ hu => ?_
    rw [hu]
    split
    · exact part_endStage hearly.ended
    · next hpassed =>
      refine exits_pure ⟨hearly, hblocked.trans (Bool.eq_false_iff.mpr hpassed), fun hready => ?_⟩
      rcases hcase with ⟨-, rfl⟩ | ⟨raw, rfl, rfl⟩
      · cases hready
      · exact Bool.or_eq_true_iff.mpr (.inr (passes_of_isReady hready))

theorem part_activated (hs : Early s) (hhalted : s.halted = false)
    (hbootstrapped : isReady ready = true → s.bootstrapped = true) :
    CyclePart o (fun t branch => Early t ∧ t.halted = isBlocked branch) s
      (activated o l decision worker ready) := by
  refine exits_lift_bind (part_askStage hs hhalted (fun hruns => ⟨hhalted, hbootstrapped ?_⟩)
    (fun _ => rfl) rfl fun _ => rfl) fun t answer ht => ?_
  · exact (Bool.and_eq_true_iff.mp hruns).2
  cases answer with
  | error message => exact exits_throw ht.1.ended
  | ok branch =>
    refine exits_lift_bind (part_writeStage ht.1.ended) fun u _ hu => ?_
    rw [hu]
    exact exits_pure ⟨ht.1, (ht.2 branch rfl).1⟩

theorem part_stagesOf {packet : Option TaskPacket} (hs : Early s) (hhalted : s.halted = false) :
    CyclePart o (fun t _ => Early t ∧ t.halted = false) s (stagesOf o l decision packet) := by
  refine (part_prepared hs hhalted).bind fun t worker ⟨ht, hhalted, hready⟩ => ?_
  refine (part_bootstrapped ht hhalted hready).bind fun u ready ⟨hu, hhalted, hready⟩ => ?_
  refine (part_activated hu hhalted hready).bind fun v branch ⟨hv, hblocked⟩ => ?_
  refine exits_lift_bind (P := fun w _ => w = v) ?_ fun w packet hw => ?_
  · cases packet with
    | some packet => exact ends_pure rfl
    | none => exact part_buildTaskPacket hv.ended
  · rw [hw]
    split
    · exact part_endStage hv.ended
    · next hpassed =>
      exact exits_pure ⟨hv, hblocked.trans (Bool.eq_false_iff.mpr hpassed)⟩

/-! ### The execution -/

/-- After the worker step. -/
structure Stepped (s : Progress) (report : SupervisorReport) : Prop where
  reports : s.reports = [report]
  halted : report.exitCode = 0 → s.halted = false

/-- After the execution, if there is one. -/
structure Concluding (o : ObserverOptions) (s : Progress) (report : SupervisorReport)
    (receipt : Option ExecutionReceipt) : Prop where
  ended : Ended o s
  halted : report.exitCode = 0 → (∀ r, receipt = some r → r.status ≠ "blocked") → s.halted = false

theorem ended_of_executed (hreports : s.reports = [report]) (hexecuted : s.executed = 1) :
    Ended o s := by
  refine ⟨?_, hexecuted.le, fun _ _ _ _ => hexecuted⟩
  rw [hreports]
  exact Nat.le_refl 1

theorem part_executionFailed {message : String} {P : Progress → Option ExecutionReceipt → Prop}
    (hs : Ended o s) :
    CyclePart o P s (executionFailed l report message) := by
  refine exits_lift_bind (part_tryQuiet rfl) fun t written ht => ?_
  rw [ht]
  refine exits_lift_bind (part_tryQuiet rfl) fun u _ hu => ?_
  exact exits_throw (hu ▸ hs)

theorem part_executed {packet : TaskPacket} (hs : Stepped s report) (hexecuted : s.executed = 0) :
    CyclePart o (fun t receipt => Concluding o t report receipt) s
      (executed o l decision packet report) := by
  unfold executed
  split
  · next hruns =>
    obtain ⟨hexit, hexecutes⟩ := Bool.and_eq_true_iff.mp hruns
    have hexit : report.exitCode = 0 := of_decide_eq_true hexit
    refine exits_lift_bind (P := fun t answer => t = s.see ⟨_, answer⟩)
      (ends_caught_call ⟨hs.halted hexit, hexecuted, hexecutes, report, hs.reports, hexit⟩
        fun answer _ hserve => hserve) ?_
    rintro _ answer rfl
    have hended : Ended o (s.see ⟨.executeTurn decision packet report, answer⟩) := by
      have hreports : (s.see ⟨.executeTurn decision packet report, answer⟩).reports = [report] := by
        cases answer <;> exact (List.append_nil _).trans hs.reports
      refine ended_of_executed hreports ?_
      cases answer <;> exact congrArg (· + 1) hexecuted
    cases answer with
    | error message => exact part_executionFailed hended
    | ok raw =>
      refine exits_lift_bind (P := fun t _ => t = s.see ⟨_, .ok raw⟩) ?_ fun t _ ht => ?_
      · cases normalizeExecutionReceipt raw with
        | none => exact ends_pure rfl
        | some receipt => exact part_quiet rfl hended
      · rw [ht]
        refine exits_pure ⟨hended, fun _ hreceipt => ?_⟩
        refine Bool.or_eq_false_iff.mpr ⟨hs.halted hexit, ?_⟩
        change (normalizeExecutionReceipt raw).any _ = false
        cases hraw : normalizeExecutionReceipt raw with
        | none => rfl
        | some receipt => exact decide_eq_false (hreceipt receipt hraw)
  · next hidle =>
    refine exits_pure ⟨⟨?_, ?_, ?_⟩, fun hexit _ => hs.halted hexit⟩
    · rw [hs.reports]
      exact Nat.le_refl 1
    · rw [hexecuted]
      exact Nat.zero_le 1
    · intro r hr hexit hexecutes
      rw [hs.reports, List.mem_singleton] at hr
      rw [hr] at hexit
      exact absurd (Bool.and_eq_true_iff.mpr ⟨decide_eq_true hexit, hexecutes⟩) hidle

theorem endOfCycle_eq_none (h : endOfCycle o l report receipt = none) :
    report.exitCode = 0 ∧ ∀ r, receipt = some r → r.status ≠ "blocked" := by
  unfold endOfCycle at h
  split at h
  · cases h
  · next hexit =>
    refine ⟨not_not.mp hexit, ?_⟩
    rintro r rfl hblocked
    split at h
    · cases h
    · rw [Option.any_some, if_pos (decide_eq_true hblocked)] at h
      cases h

theorem part_concluded (hs : Concluding o s report receipt) :
    CyclePart o (fun t _ => Ended o t ∧ t.halted = false) s
      (concluded o l decision report receipt) := by
  refine exits_lift_bind (part_quiet rfl hs.ended) fun t _ ht => ?_
  rw [ht]
  cases hend : endOfCycle o l report receipt with
  | some ended => exact exits_throw hs.ended
  | none =>
    obtain ⟨hexit, hreceipt⟩ := endOfCycle_eq_none hend
    refine exits_lift_bind (part_quiet rfl hs.ended) fun u _ hu => ?_
    rw [hu]
    exact exits_pure ⟨hs.ended, hs.halted hexit hreceipt⟩

/-- **A cycle.** -/
theorem part_observeCycle :
    CyclePart o (fun t _ => Ended o t ∧ t.halted = false) Progress.start (observeCycle o l) := by
  have hstart : Early Progress.start := ⟨rfl, rfl⟩
  refine (part_planned hstart rfl).bind fun t decision ⟨ht, hblocked⟩ => ?_
  refine (part_packetOf ht hblocked).bind fun u packet ⟨hu, hhalted⟩ => ?_
  refine (part_stagesOf hu hhalted).bind fun v stages ⟨hv, hhalted⟩ => ?_
  obtain ⟨worker, ready, branch, packet⟩ := stages
  refine exits_lift_bind (P := fun w report => Stepped w report ∧ w.executed = 0) ?_
    fun w report ⟨hw, hexecuted⟩ => ?_
  · refine ends_call ⟨hhalted, hv.reports⟩ ?_ ?_
    · rintro report _ rfl
      refine ⟨⟨congrArg (· ++ [report]) hv.reports, fun hexit => ?_⟩, hv.executed⟩
      exact Bool.or_eq_false_iff.mpr ⟨hhalted, decide_eq_false (not_not.mpr hexit)⟩
    · rintro message _ rfl
      exact Early.ended ⟨(List.append_nil _).trans hv.reports, hv.executed⟩
  · exact (part_executed hw hexecuted).bind fun x receipt hx => part_concluded hx

end Parts

/-! ### The law of a run -/

section Law

variable {o : ObserverOptions} {l : LoopState} {c : CycleRun}

theorem watched_of_run (hrun : Runs (observeCycle o l).run c.history c.result) :
    (∀ pre e post, c.history = pre ++ e :: post →
      Allowed o (Progress.monitor.after .start pre) e.query) ∧
    Ended o (Progress.monitor.after .start c.history) ∧
    ∀ t, c.result = .ok (.ok t) → (Progress.monitor.after .start c.history).halted = false := by
  obtain ⟨hallowed, hend⟩ := Ensures.monitored (part_observeCycle (o := o) (l := l)) hrun
  refine ⟨hallowed, ?_⟩
  rcases hresult : c.result with message | report | t
  · rw [hresult] at hend
    exact ⟨hend, fun _ h => nomatch h⟩
  · rw [hresult] at hend
    exact ⟨hend, fun _ h => nomatch h⟩
  · rw [hresult] at hend
    exact ⟨hend.1, fun _ _ => hend.2⟩

theorem halted_of_allowed {s : Progress} {q : ObserverQuery} (hq : q.stage = true)
    (h : Allowed o s q) : s.halted = false := by
  cases q with
  | planStep | prepareWorker => exact h
  | bootstrapWorker | activateWorker | runRuntimeWorkerStep | executeTurn => exact h.1
  | readRecentEvents | buildTaskPacket | write | sleep => cases hq

theorem report_of_execution (hrun : Runs (observeCycle o l).run c.history c.result)
    {e : ObserverExchange} (he : e ∈ c.history) (hexecutes : e.query.executes = true) :
    o.executes = true ∧
      ∃ report, c.history.filterMap stepReport = [report] ∧ report.exitCode = 0 := by
  obtain ⟨hallowed, hended, -⟩ := watched_of_run hrun
  obtain ⟨pre, post, hsplit⟩ := List.append_of_mem he
  have h := hallowed pre e post hsplit
  obtain ⟨q, answer⟩ := e
  cases q with
  | executeTurn decision packet report =>
    obtain ⟨-, -, ho, first, hfirst, hexit⟩ := h
    refine ⟨ho, first, ?_, hexit⟩
    rw [Progress.reports_after] at hfirst
    have hlength := hended.1
    rw [Progress.reports_after, hsplit, List.filterMap_append] at hlength
    have hpre : pre.filterMap stepReport = [first] := hfirst
    rw [hpre] at hlength
    rw [hsplit, List.filterMap_append, hpre]
    have hone : ([first] ++ List.filterMap stepReport (_ :: post)).length ≤ 1 := hlength
    rw [List.length_append, List.length_singleton] at hone
    rw [List.eq_nil_of_length_eq_zero (Nat.le_zero.mp (Nat.le_of_add_le_add_left hone))]
    rfl
  | _ => cases hexecutes

theorem cycleLaw_iff_stop (hrun : Runs (observeCycle o l).run c.history c.result) :
    CycleLaw c ↔ ∀ e ∈ c.history, ∀ report, stepReport e = some report → report.stops = true →
      ∀ e' ∈ c.history, e'.query.executes = false := by
  refine ⟨fun hlaw => hlaw.stop, fun hstop => ?_⟩
  obtain ⟨hallowed, hended, hgoes⟩ := watched_of_run hrun
  refine ⟨hstop, ?_, ?_, ?_, ?_, ?_⟩
  · have honce := hended.2.1
    rw [Progress.executed_after] at honce
    exact (Nat.zero_add _).symm.trans_le honce
  · rintro pre ⟨q, answer⟩ post hsplit hexecutes
    have h := hallowed pre _ post hsplit
    cases q with
    | executeTurn decision packet report =>
      obtain ⟨-, -, -, first, hfirst, hexit⟩ := h
      rw [Progress.reports_after] at hfirst
      have hmem : first ∈ pre.filterMap stepReport := by
        rw [show pre.filterMap stepReport = [first] from hfirst]
        exact List.mem_singleton_self first
      obtain ⟨e', he', hreport⟩ := List.mem_filterMap.mp hmem
      exact ⟨e', he', first, hreport, hexit⟩
    | _ => cases hexecutes
  · rintro pre ⟨q, answer⟩ post hsplit ⟨decision, worker, ready, hq⟩
    have h := hallowed pre _ post hsplit
    obtain rfl : q = _ := hq
    have hbootstrapped := h.2
    rw [Progress.bootstrapped_after] at hbootstrapped
    exact List.any_eq_true.mp ((Bool.false_or _).symm.trans hbootstrapped)
  · rintro pre ⟨q, answer⟩ post hsplit ⟨decision, worker, hq⟩
    have h := hallowed pre _ post hsplit
    obtain rfl : q = _ := hq
    have hprepared := h.2
    rw [Progress.prepared_after] at hprepared
    exact List.any_eq_true.mp ((Bool.false_or _).symm.trans hprepared)
  · intro pre e post hsplit hhalts
    refine ⟨fun e' he' => ?_, fun t ht => ?_⟩
    · obtain ⟨mid, rest, rfl⟩ := List.append_of_mem he'
      by_contra hstage
      have hbefore : c.history = (pre ++ e :: mid) ++ e' :: rest := by
        rw [hsplit, List.append_assoc, List.cons_append]
      have h := halted_of_allowed (Bool.not_eq_false _ ▸ hstage) (hallowed _ _ _ hbefore)
      rw [Progress.halted_after, List.any_append, List.any_cons, hhalts, Bool.true_or,
        Bool.or_true, Bool.or_true] at h
      cases h
    · have h := hgoes t ht
      rw [Progress.halted_after, hsplit, List.any_append, List.any_cons, hhalts, Bool.true_or,
        Bool.or_true, Bool.or_true] at h
      cases h

/-- **A cycle** is as wanted exactly if its worker step does not end with 0 and say that a stop
is requested, where turns are executed. -/
theorem cycleLaw_iff (hrun : Runs (observeCycle o l).run c.history c.result) :
    CycleLaw c ↔ (o.executes = true → ∀ e ∈ c.history, ∀ report,
      stepReport e = some report → report.exitCode = 0 → report.stops = false) := by
  rw [cycleLaw_iff_stop hrun]
  constructor
  · intro hstop ho e he report hreport hexit
    obtain ⟨-, hended, -⟩ := watched_of_run hrun
    by_contra hstops
    -- the execution that follows a step that has ended with 0
    have hexecuted : (Progress.monitor.after .start c.history).executed = 1 := by
      refine hended.2.2 report ?_ hexit ho
      rw [Progress.reports_after]
      exact List.mem_append_right _ (List.mem_filterMap.mpr ⟨e, he, hreport⟩)
    rw [Progress.executed_after] at hexecuted
    have hpos : 0 < c.history.countP fun e => e.query.executes :=
      ((Nat.zero_add _).symm.trans hexecuted).symm ▸ Nat.one_pos
    obtain ⟨e', he', hexecutes⟩ := List.countP_pos_iff.mp hpos
    have hnot := hstop e he report hreport (Bool.not_eq_false _ ▸ hstops) e' he'
    rw [hnot] at hexecutes
    cases hexecutes
  · intro haside e he report hreport hstops e' he'
    by_contra hexecutes
    obtain ⟨ho, only, honly, hexit⟩ :=
      report_of_execution hrun he' (Bool.not_eq_false _ ▸ hexecutes)
    have hmem : report ∈ c.history.filterMap stepReport := List.mem_filterMap.mpr ⟨e, he, hreport⟩
    rw [honly, List.mem_singleton] at hmem
    have hnot := haside ho e he report hreport (hmem ▸ hexit)
    rw [hnot] at hstops
    cases hstops

theorem Cycles.runs {cycles : List CycleRun} (h : Cycles o l cycles) :
    ∀ c ∈ cycles, ∃ s, Runs (observeCycle o s).run c.history c.result := by
  induction h with
  | nil => exact List.forall_mem_nil _
  | next hrun hrest ih =>
    intro c hc
    rcases List.mem_cons.mp hc with rfl | hc
    · exact ⟨_, hrun⟩
    · exact ih c hc
  | last hrun hend =>
    intro c hc
    obtain rfl := List.mem_singleton.mp hc
    exact ⟨_, hrun⟩

theorem Cycles.last_of_ended {cycles pre post : List CycleRun} (h : Cycles o l cycles)
    (hsplit : cycles = pre ++ c :: post) (hend : ∀ t, c.result ≠ .ok (.ok t)) : post = [] := by
  induction h generalizing pre with
  | nil => exact absurd hsplit.symm (by simp)
  | next hrun hrest ih =>
    rcases pre with _ | ⟨first, pre⟩
    · obtain ⟨rfl, -⟩ := List.cons.inj hsplit
      exact absurd rfl (hend _)
    · exact ih (List.cons.inj hsplit).2
  | last hrun hend =>
    rcases pre with _ | ⟨first, pre⟩
    · exact (List.cons.inj hsplit).2.symm
    · exact absurd (List.cons.inj hsplit).2.symm (by simp)

/-- **The loop** is as wanted exactly in the runs where no worker step that has ended with 0 says
that a stop is requested, or no turns are executed. -/
theorem observerLaw_iff {platform : String} {cycles : List CycleRun}
    (h : ObserverRuns platform o cycles) : ObserverLaw cycles ↔ StopsAside o cycles := by
  obtain ⟨s, hcycles⟩ : ∃ s, Cycles o s cycles := by
    unfold ObserverRuns at h
    split at h
    · exact ⟨_, h⟩
    · exact ⟨⟨0, none, none⟩, h ▸ .nil _⟩
  constructor
  · intro hlaw ho c hc
    obtain ⟨_, hrun⟩ := hcycles.runs c hc
    exact (cycleLaw_iff hrun).mp (hlaw.cycle c hc) ho
  · intro haside
    have hcycle : ∀ c ∈ cycles, CycleLaw c := by
      intro c hc
      obtain ⟨_, hrun⟩ := hcycles.runs c hc
      exact (cycleLaw_iff hrun).mpr fun ho => haside ho c hc
    refine ⟨hcycle, ?_⟩
    rintro pre c post hsplit ⟨e, he, hhalts⟩
    obtain ⟨before, rest, hhistory⟩ := List.append_of_mem he
    have hc : c ∈ cycles := hsplit ▸ List.mem_append_right _ List.mem_cons_self
    exact hcycles.last_of_ended hsplit ((hcycle c hc).halts before e rest hhistory hhalts).2

end Law

/-! ### A cycle with a stop request -/

/-- An observer without a planner, on one issue, that executes turns. -/
def executingObserver : ObserverOptions where
  explicit := ⟨none, some 12, none, some "origin", none, none, none, none⟩
  stopOnIdle := false
  executeTurn := true
  maxCycles := 1
  pollIntervalSeconds := 60
  hooks := ⟨false, false, false, false, false, true⟩

def workerStep (stopRequest : Stored StopRequest) : Except String SupervisorReport :=
  ((runRuntimeSupervisor (actionOfIssue .step)).execute Files.serve
    ⟨.missing, .missing, stopRequest, [], .missing⟩).2.2

def ObserverQuery.serve (stopRequest : Stored StopRequest) :
    Unit → (q : ObserverQuery) → Except String q.Reply × Unit
  | _, .planStep .. => (.error "no planner", ())
  | _, .prepareWorker _ | _, .bootstrapWorker .. | _, .activateWorker ..
  | _, .buildTaskPacket _ | _, .executeTurn .. => (.ok none, ())
  | _, .readRecentEvents => (.ok [], ())
  | _, .runRuntimeWorkerStep .. => (workerStep stopRequest, ())
  | _, .write _ | _, .sleep _ => (.ok (), ())

def firstCycle (stopRequest : Stored StopRequest) : CycleRun :=
  let run := (observeCycle executingObserver ⟨0, none, none⟩).run.runWith
    (ObserverQuery.serve stopRequest) ()
  ⟨run.1, run.2⟩

def CycleRun.goesOn (c : CycleRun) : Bool :=
  match c.result with
  | .ok (.ok _) => true
  | _ => false

theorem observerRuns_firstCycle {stopRequest : Stored StopRequest}
    (hend : (firstCycle stopRequest).goesOn = false) :
    ObserverRuns "linux" executingObserver [firstCycle stopRequest] := by
  have hrun : Runs (observeCycle executingObserver ⟨0, none, none⟩).run
      (firstCycle stopRequest).history (firstCycle stopRequest).result := by
    simp only [firstCycle]
    exact runs_runWith _ () _
  refine Cycles.last hrun fun t ht => ?_
  unfold CycleRun.goesOn at hend
  rw [ht] at hend
  cases hend

theorem observerLaw_iff_firstCycle :
    ObserverLaw [firstCycle .missing] ↔ StopsAside executingObserver [firstCycle .missing] :=
  observerLaw_iff (observerRuns_firstCycle (by decide +kernel))

/-- With a stop request the step ends with 0 and says so, and the turn is executed. -/
theorem not_observerLaw_stopRequest :
    ObserverRuns "linux" executingObserver
        [firstCycle (.holds ⟨0, "agent", "operator-stop"⟩)] ∧
      ¬ ObserverLaw [firstCycle (.holds ⟨0, "agent", "operator-stop"⟩)] := by
  refine ⟨observerRuns_firstCycle (by decide +kernel), fun h => ?_⟩
  have hcycle := h.cycle _ (List.mem_singleton_self _)
  have hstops : ∃ e ∈ (firstCycle (.holds ⟨0, "agent", "operator-stop"⟩)).history,
      ((stepReport e).any fun report => report.stops) = true :=
    List.any_eq_true.mp (by decide +kernel)
  have hexecutes : ∃ e ∈ (firstCycle (.holds ⟨0, "agent", "operator-stop"⟩)).history,
      e.query.executes = true :=
    List.any_eq_true.mp (by decide +kernel)
  obtain ⟨e, he, hreport⟩ := hstops
  obtain ⟨report, hreport, hstop⟩ := (Option.any_eq_true _ _).mp hreport
  obtain ⟨e', he', hexecuted⟩ := hexecutes
  have hnot := hcycle.stop e he report hreport hstop e' he'
  rw [hnot] at hexecuted
  cases hexecuted

end CompareVI.Runtime
