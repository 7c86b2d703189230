import CompareVI.Cost.Receipts
import CompareVI.Framework.Keyed
import Mathlib.Data.List.Lex
import Mathlib.Tactic.Linarith

/-!
# The funding window of a rollup

`selectInvoiceTurn` picks the invoice turn that the turns of a rollup are paid from. An active
calibration turn is pinned. Otherwise it is the active turn that was opened last, among those
whose window contains the time of the turns if there are any.

What is wanted is `SelectionLaw`: a held turn is never selected, a calibration turn that has
ended is not pinned, the turn that was opened last is selected, and the order of the receipts
does not matter. Calibration turns are pinned without a look at the mode of their selection, so
the law fails where one that has ended comes first (`selectionLaw_iff`).
-/

open Framework

namespace CompareVI.Cost

attribute [local irreducible] JsString.trim

/-! ### Selecting -/

def determineSelectionTimestamp (env : CostEnv) (turns : List Turn) : ℤ :=
  let candidates := (turns.flatMap fun turn =>
    [toTimestamp env turn.usageObservedAt, toTimestamp env turn.generatedAt]).filterMap id
  match candidates with
  | [] => env.now
  | candidate :: candidates => candidates.foldl max candidate

structure InvoiceTurnSelection where
  strategy : String
  explicitInvoiceTurnId : Option String
  selectionObservedAt : Option String
  candidateCount : ℕ
  matchingCandidateCount : ℕ
  candidateInvoiceTurnIds : List String
  selectedInvoiceTurnId : Option String
  mode : String
  calibrationWindowId : Option String
  reason : String

def isActive (invoiceTurn : InvoiceTurn) : Bool :=
  JsString.trim invoiceTurn.activationState ≠ "hold"

def isCalibration (invoiceTurn : InvoiceTurn) : Bool :=
  JsString.trim invoiceTurn.fundingPurpose = "calibration"

def selectionMode (selected : Option InvoiceTurn) : String :=
  (normalizeSelectionMode (selected.map fun t => .str t.selection.mode)).getD
    (if selected.any (fun t => isCalibration t && isActive t) then "sticky-calibration"
    else "hold")

def selectionReason (mode : String) : String :=
  if mode = "sticky-calibration" then
    "Calibration funding window remains pinned until explicitly ended."
  else if mode = "ended" then "Calibration funding window was explicitly ended."
  else "Calibration funding window remains on hold before activation."

structure SelectionExtras where
  explicitInvoiceTurnId : Option String
  selectionObservedAt : String
  candidateCount : ℕ
  matchingCandidateCount : ℕ
  candidateInvoiceTurnIds : List String

def summarizeInvoiceTurnSelection (selected : Option InvoiceTurn) (strategy : String)
    (extras : SelectionExtras) : InvoiceTurnSelection :=
  let mode := selectionMode selected
  { strategy := (optionalTrim strategy).getD "none"
    explicitInvoiceTurnId := optionText extras.explicitInvoiceTurnId
    selectionObservedAt := optionalTrim extras.selectionObservedAt
    candidateCount := extras.candidateCount
    matchingCandidateCount := extras.matchingCandidateCount
    candidateInvoiceTurnIds := extras.candidateInvoiceTurnIds
    selectedInvoiceTurnId := selected.bind (·.invoiceTurnId)
    mode := mode
    calibrationWindowId :=
      if mode = "hold" then none
      else (optionText (selected.bind (·.selection.calibrationWindowId))).or
        (selected.bind (·.invoiceTurnId))
    reason := (optionText (selected.bind (·.selection.reason))).getD (selectionReason mode) }

def codeUnits (c : Char) : List ℕ :=
  if c.toNat < 0x10000 then [c.toNat]
  else [0xD800 + (c.toNat - 0x10000) / 0x400, 0xDC00 + (c.toNat - 0x10000) % 0x400]

/-- The order of `Array.prototype.sort`. -/
def byCodeUnits : Comparison String := Comparison.ofKey fun s => s.toList.flatMap codeUnits

def openedTime (env : CostEnv) (invoiceTurn : InvoiceTurn) : ℤ :=
  (toTimestamp env invoiceTurn.openedAt).getD 0

/-- The comparator of `selectInvoiceTurn`: what was opened last comes first, then by id. -/
def rankInvoiceTurns (env : CostEnv) : Comparison InvoiceTurn :=
  (Comparison.ofKey fun t => -openedTime env t).thenBy
    (env.collation.reverse.comap fun t => t.invoiceTurnId.getD "")

def windowContains (env : CostEnv) (selectionTimestamp : ℤ) (invoiceTurn : InvoiceTurn) : Bool :=
  (toTimestamp env invoiceTurn.openedAt).any (· ≤ selectionTimestamp) &&
    (toTimestamp env invoiceTurn.closedAt).all (selectionTimestamp ≤ ·)

/-- The result of `selectInvoiceTurn`. -/
structure InvoiceTurnChoice where
  selectedInvoiceTurn : Option InvoiceTurn
  selection : InvoiceTurnSelection

def validInvoiceTurns (receipts : List InvoiceReceipt) : List InvoiceTurn :=
  receipts.filterMap InvoiceReceipt.invoiceTurn?

def sortedIds (invoiceTurns : List InvoiceTurn) : List String :=
  byCodeUnits.sort (invoiceTurns.filterMap (·.invoiceTurnId))

def choose (selected : Option InvoiceTurn) (strategy : String) (extras : SelectionExtras) :
    InvoiceTurnChoice :=
  ⟨selected, summarizeInvoiceTurnSelection selected strategy extras⟩

def firstRanked (env : CostEnv) (invoiceTurns : List InvoiceTurn) : Option InvoiceTurn :=
  ((rankInvoiceTurns env).sort invoiceTurns).head?

/-- `selectInvoiceTurn` where nothing is pinned. The extras depend on the number of matches. -/
def chooseActive (env : CostEnv) (selectionTimestamp : ℤ) (extras : ℕ → SelectionExtras)
    (validCount : ℕ) : List InvoiceTurn → InvoiceTurnChoice
  | [] => choose none "none" (extras 0)
  | [single] => choose (some single) "single-candidate" (extras 1)
  | active =>
    let candidates := active.filter (windowContains env selectionTimestamp)
    if candidates ≠ [] then
      choose (firstRanked env candidates) "active-window-latest-openedAt"
        (extras candidates.length)
    else choose (firstRanked env active) "latest-openedAt-fallback" (extras validCount)

/-- `selectInvoiceTurn` without an explicit id. -/
def chooseUnnamed (env : CostEnv) (selectionTimestamp : ℤ) (extras : ℕ → SelectionExtras)
    (validCount : ℕ) (active : List InvoiceTurn) : InvoiceTurnChoice :=
  let sticky := active.filter isCalibration
  if sticky ≠ [] then
    choose (firstRanked env sticky)
      (if sticky.length = 1 then "sticky-calibration-active"
      else "sticky-calibration-latest-openedAt")
      (extras sticky.length)
  else chooseActive env selectionTimestamp extras validCount active

def selectInvoiceTurn (env : CostEnv) (receipts : List InvoiceReceipt) (turns : List Turn)
    (explicitInvoiceTurnId : Option String) : InvoiceTurnChoice :=
  let valid := validInvoiceTurns receipts
  let selectionTimestamp := determineSelectionTimestamp env turns
  let extras (explicit : Option String) (matching : ℕ) : SelectionExtras :=
    ⟨explicit, env.isoString selectionTimestamp, valid.length, matching, sortedIds valid⟩
  if valid = [] then choose none "none" (extras explicitInvoiceTurnId 0)
  else
    match optionText explicitInvoiceTurnId with
    | some id =>
      let selected := valid.find? (·.invoiceTurnId = some id)
      choose selected (if selected.isSome then "explicit-id" else "explicit-id-missing")
        (extras explicitInvoiceTurnId (if selected.isSome then 1 else 0))
    | none =>
      chooseUnnamed env selectionTimestamp (extras none) valid.length (valid.filter isActive)

/-! ### The law -/

section Law

variable (env : CostEnv) (receipts : List InvoiceReceipt) (turns : List Turn)

def activeTurns : List InvoiceTurn := (validInvoiceTurns receipts).filter isActive

def calibrationTurns : List InvoiceTurn := (activeTurns receipts).filter isCalibration

/-- The active invoice turns whose window contains the time of the turns, or all of them if
there are none. -/
def windowTurns : List InvoiceTurn :=
  let candidates :=
    (activeTurns receipts).filter (windowContains env (determineSelectionTimestamp env turns))
  if candidates ≠ [] then candidates else activeTurns receipts

def InvoiceTurnChoice.Pins (choice : InvoiceTurnChoice) : Prop :=
  choice.selection.strategy = "sticky-calibration-active" ∨
    choice.selection.strategy = "sticky-calibration-latest-openedAt"

/-- What is wanted of a choice. -/
structure SelectionLaw (explicitInvoiceTurnId : Option String) : Prop where
  notHeld : ∀ t,
    (selectInvoiceTurn env receipts turns explicitInvoiceTurnId).selectedInvoiceTurn = some t →
      JsString.trim t.activationState ≠ "hold"
  pinned : (selectInvoiceTurn env receipts turns explicitInvoiceTurnId).Pins →
    ∃ t ∈ calibrationTurns receipts,
      (selectInvoiceTurn env receipts turns explicitInvoiceTurnId).selectedInvoiceTurn = some t ∧
        t.selection.mode ≠ "ended"
  /-- No turn is selected only where none is active. -/
  latest : ¬ (selectInvoiceTurn env receipts turns explicitInvoiceTurnId).Pins →
    (activeTurns receipts = [] ∧
        (selectInvoiceTurn env receipts turns explicitInvoiceTurnId).selectedInvoiceTurn = none) ∨
      ∃ t ∈ windowTurns env receipts turns,
        (selectInvoiceTurn env receipts turns explicitInvoiceTurnId).selectedInvoiceTurn = some t ∧
          ∀ u ∈ windowTurns env receipts turns, openedTime env u ≤ openedTime env t
  independent : ∀ receipts' turns', receipts'.Perm receipts → turns'.Perm turns →
    (selectInvoiceTurn env receipts' turns' explicitInvoiceTurnId).selectedInvoiceTurn =
      (selectInvoiceTurn env receipts turns explicitInvoiceTurnId).selectedInvoiceTurn

def rankedTurns : List InvoiceTurn :=
  if calibrationTurns receipts ≠ [] then calibrationTurns receipts
  else windowTurns env receipts turns

/-- No calibration turn at the top has ended, and there are no two turns at the top. -/
structure SelectionClear : Prop where
  notEnded : ∀ t, (rankInvoiceTurns env).IsTop (calibrationTurns receipts) t →
    t.selection.mode ≠ "ended"
  single : ∀ t u, (rankInvoiceTurns env).IsTop (rankedTurns env receipts turns) t →
    (rankInvoiceTurns env).IsTop (rankedTurns env receipts turns) u → t = u

end Law

/-! ### What is selected -/

section Selected

variable {env : CostEnv} {receipts receipts' : List InvoiceReceipt} {turns turns' : List Turn}
  {explicitInvoiceTurnId : Option String} {t u : InvoiceTurn}

theorem pins_choose (selected : Option InvoiceTurn) (strategy : String) (extras : SelectionExtras) :
    (choose selected strategy extras).Pins ↔
      (optionalTrim strategy).getD "none" = "sticky-calibration-active" ∨
        (optionalTrim strategy).getD "none" = "sticky-calibration-latest-openedAt" := Iff.rfl

/-- Where nothing is pinned, the turn is the first of those of the window, and the strategy is
none that pins. -/
theorem chooseActive_spec (selectionTimestamp : ℤ) (extras : ℕ → SelectionExtras) (validCount : ℕ)
    (active : List InvoiceTurn) :
    ¬ (chooseActive env selectionTimestamp extras validCount active).Pins ∧
      (chooseActive env selectionTimestamp extras validCount active).selectedInvoiceTurn =
        firstRanked env
          (let candidates := active.filter (windowContains env selectionTimestamp)
          if candidates ≠ [] then candidates else active) := by
  match active with
  | [] =>
    rw [chooseActive, pins_choose]
    exact ⟨by decide +kernel, rfl⟩
  | [single] =>
    rw [chooseActive, pins_choose]
    refine ⟨by decide +kernel, ?_⟩
    by_cases hwindow : windowContains env selectionTimestamp single = true
    · simp only [List.filter_cons, hwindow, if_true, List.filter_nil]
      rfl
    · simp only [List.filter_cons, hwindow]
      rfl
  | first :: second :: rest =>
    rw [chooseActive]
    · by_cases hcandidates :
          (first :: second :: rest).filter (windowContains env selectionTimestamp) ≠ []
      · simp only [if_pos hcandidates, pins_choose]
        exact ⟨by decide +kernel, rfl⟩
      · simp only [if_neg hcandidates, pins_choose]
        exact ⟨by decide +kernel, rfl⟩
    · simp
    · simp

/-- **What is selected** without an id: the first of the ranked turns. -/
theorem selectInvoiceTurn_spec (hexplicit : optionText explicitInvoiceTurnId = none) :
    ((selectInvoiceTurn env receipts turns explicitInvoiceTurnId).Pins ↔
        calibrationTurns receipts ≠ []) ∧
      (selectInvoiceTurn env receipts turns explicitInvoiceTurnId).selectedInvoiceTurn =
        firstRanked env (rankedTurns env receipts turns) := by
  rw [selectInvoiceTurn]
  simp only [hexplicit]
  by_cases hvalid : validInvoiceTurns receipts = []
  · have hnil : activeTurns receipts = [] := by rw [activeTurns, hvalid, List.filter_nil]
    have hsticky : calibrationTurns receipts = [] := by rw [calibrationTurns, hnil, List.filter_nil]
    rw [if_pos hvalid, rankedTurns, if_neg (not_not_intro hsticky), windowTurns, hnil]
    rw [pins_choose]
    exact ⟨⟨fun hpins => absurd hpins (by decide +kernel), fun h => absurd hsticky h⟩, rfl⟩
  · rw [if_neg hvalid, chooseUnnamed, ← activeTurns, ← calibrationTurns]
    by_cases hsticky : calibrationTurns receipts ≠ []
    · rw [rankedTurns, if_pos hsticky, if_pos hsticky]
      refine ⟨⟨fun _ => hsticky, fun _ => ?_⟩, rfl⟩
      by_cases hone : (calibrationTurns receipts).length = 1
      · simp only [if_pos hone, pins_choose]
        decide +kernel
      · simp only [if_neg hone, pins_choose]
        decide +kernel
    · rw [rankedTurns, if_neg hsticky, if_neg hsticky]
      obtain ⟨hpins, hselected⟩ : _ ∧ _ = firstRanked env (windowTurns env receipts turns) :=
        chooseActive_spec (determineSelectionTimestamp env turns) _ _ (activeTurns receipts)
      exact ⟨⟨fun h => absurd h hpins, fun h => absurd h hsticky⟩, hselected⟩

variable {invoiceTurns : List InvoiceTurn}

theorem isTop_of_firstRanked (h : firstRanked env invoiceTurns = some t) :
    (rankInvoiceTurns env).IsTop invoiceTurns t :=
  Comparison.le_of_head?_sort _ h

theorem exists_firstRanked (h : invoiceTurns ≠ []) :
    ∃ t, firstRanked env invoiceTurns = some t := by
  cases hfirst : firstRanked env invoiceTurns with
  | some t => exact ⟨t, rfl⟩
  | none =>
    have hperm := (rankInvoiceTurns env).sort_perm invoiceTurns
    rw [List.head?_eq_none_iff.mp hfirst] at hperm
    exact absurd (List.nil_perm.mp hperm) h

theorem openedTime_le_of_rank (h : (rankInvoiceTurns env).le t u = true) :
    openedTime env u ≤ openedTime env t := by
  have hkey := ((Comparison.thenBy_le _ _).mp h).1
  rw [Comparison.ofKey_le] at hkey
  exact neg_le_neg_iff.mp hkey

theorem isActive_of_mem_rankedTurns (h : t ∈ rankedTurns env receipts turns) :
    isActive t = true := by
  have hactive : t ∈ activeTurns receipts := by
    rw [rankedTurns] at h
    split at h
    · exact List.mem_of_mem_filter h
    · rw [windowTurns] at h
      split at h
      · exact List.mem_of_mem_filter h
      · exact h
  exact (List.mem_filter.mp hactive).2

end Selected

/-! ### The order of the receipts -/

section Order

variable {env : CostEnv} {receipts receipts' : List InvoiceReceipt} {turns turns' : List Turn}
  {t u : InvoiceTurn}

theorem isGreatest_foldl_max (x : ℤ) (xs : List ℤ) :
    xs.foldl max x ∈ x :: xs ∧ ∀ y ∈ x :: xs, y ≤ xs.foldl max x := by
  induction xs generalizing x with
  | nil => simp
  | cons z zs ih =>
    obtain ⟨hmem, hle⟩ := ih (max x z)
    rw [List.foldl_cons]
    have hmax : max x z ≤ zs.foldl max (max x z) := hle _ List.mem_cons_self
    refine ⟨?_, fun y hy => ?_⟩
    · rcases List.mem_cons.mp hmem with heq | hmem
      · rw [heq]
        rcases max_choice x z with h | h <;> rw [h] <;> simp
      · exact List.mem_cons_of_mem _ (List.mem_cons_of_mem _ hmem)
    · rcases List.mem_cons.mp hy with rfl | hy
      · exact (le_max_left _ _).trans hmax
      rcases List.mem_cons.mp hy with rfl | hy
      · exact (le_max_right _ _).trans hmax
      · exact hle y (List.mem_cons_of_mem _ hy)

theorem determineSelectionTimestamp_perm (hturns : turns'.Perm turns) :
    determineSelectionTimestamp env turns' = determineSelectionTimestamp env turns := by
  have hperm : ((turns'.flatMap fun turn =>
      [toTimestamp env turn.usageObservedAt, toTimestamp env turn.generatedAt]).filterMap id).Perm
        ((turns.flatMap fun turn =>
      [toTimestamp env turn.usageObservedAt, toTimestamp env turn.generatedAt]).filterMap id) :=
    (hturns.flatMap_right _).filterMap _
  rw [determineSelectionTimestamp, determineSelectionTimestamp]
  generalize (turns'.flatMap _).filterMap id = xs at hperm
  generalize (turns.flatMap _).filterMap id = ys at hperm
  match xs, ys with
  | [], [] => rfl
  | [], y :: ys => exact absurd (List.nil_perm.mp hperm) (by simp)
  | x :: xs, [] => exact absurd (List.perm_nil.mp hperm) (by simp)
  | x :: xs, y :: ys =>
    obtain ⟨hx, hxle⟩ := isGreatest_foldl_max x xs
    obtain ⟨hy, hyle⟩ := isGreatest_foldl_max y ys
    exact le_antisymm (hyle _ (hperm.mem_iff.mp hx)) (hxle _ (hperm.mem_iff.mpr hy))

def isRanked (env : CostEnv) (receipts : List InvoiceReceipt) (turns : List Turn)
    (t : InvoiceTurn) : Bool :=
  isActive t &&
    if calibrationTurns receipts ≠ [] then isCalibration t
    else if (activeTurns receipts).filter
        (windowContains env (determineSelectionTimestamp env turns)) ≠ [] then
      windowContains env (determineSelectionTimestamp env turns) t
    else true

theorem rankedTurns_eq_filter :
    rankedTurns env receipts turns =
      (validInvoiceTurns receipts).filter (isRanked env receipts turns) := by
  have hfilter : ∀ p : InvoiceTurn → Bool, (activeTurns receipts).filter p =
      (validInvoiceTurns receipts).filter fun t => isActive t && p t := by
    intro p
    rw [activeTurns, List.filter_filter]
    exact List.filter_congr fun t _ => Bool.and_comm _ _
  by_cases hsticky : calibrationTurns receipts ≠ []
  · rw [rankedTurns, if_pos hsticky, calibrationTurns, hfilter]
    exact List.filter_congr fun t _ => by rw [isRanked, if_pos hsticky]
  · by_cases hwindow : (activeTurns receipts).filter
        (windowContains env (determineSelectionTimestamp env turns)) ≠ []
    · rw [rankedTurns, if_neg hsticky, windowTurns]
      simp only [if_pos hwindow]
      rw [hfilter]
      exact List.filter_congr fun t _ => by rw [isRanked, if_neg hsticky, if_pos hwindow]
    · rw [rankedTurns, if_neg hsticky, windowTurns]
      simp only [if_neg hwindow]
      rw [activeTurns]
      exact List.filter_congr fun t _ => by
        rw [isRanked, if_neg hsticky, if_neg hwindow, Bool.and_true]

theorem validInvoiceTurns_perm (hreceipts : receipts'.Perm receipts) :
    (validInvoiceTurns receipts').Perm (validInvoiceTurns receipts) :=
  hreceipts.filterMap _

theorem isRanked_perm (hreceipts : receipts'.Perm receipts) (hturns : turns'.Perm turns) :
    isRanked env receipts' turns' = isRanked env receipts turns := by
  have hactive : (activeTurns receipts').Perm (activeTurns receipts) :=
    (validInvoiceTurns_perm hreceipts).filter _
  have hnil : ∀ p : InvoiceTurn → Bool,
      (activeTurns receipts').filter p ≠ [] ↔ (activeTurns receipts).filter p ≠ [] := by
    intro p
    have hperm := hactive.filter p
    refine not_congr ⟨fun h => ?_, fun h => ?_⟩
    · rw [h] at hperm
      exact (List.nil_perm.mp hperm)
    · rw [h] at hperm
      exact (List.perm_nil.mp hperm)
  funext t
  rw [isRanked, isRanked, determineSelectionTimestamp_perm hturns]
  exact congrArg _ (if_congr (hnil isCalibration) rfl (if_congr (hnil _) rfl rfl))

theorem rankedTurns_perm (hreceipts : receipts'.Perm receipts) (hturns : turns'.Perm turns) :
    (rankedTurns env receipts' turns').Perm (rankedTurns env receipts turns) := by
  rw [rankedTurns_eq_filter, rankedTurns_eq_filter, isRanked_perm hreceipts hturns]
  exact (validInvoiceTurns_perm hreceipts).filter _

theorem exists_perm_firstRanked
    (htop : (rankInvoiceTurns env).IsTop (rankedTurns env receipts turns) t) :
    ∃ receipts', receipts'.Perm receipts ∧
      firstRanked env (rankedTurns env receipts' turns) = some t := by
  have hmem := htop.1
  rw [rankedTurns_eq_filter] at hmem
  obtain ⟨hvalid, hranked⟩ := List.mem_filter.mp hmem
  obtain ⟨receipt, hreceipt, ht⟩ := List.mem_filterMap.mp hvalid
  obtain rfl : receipt = .valid t := by
    cases receipt with
    | valid s => exact congrArg _ (Option.some.inj ht)
    | missing => cases ht
    | invalid blockers => cases ht
  obtain ⟨before, behind, rfl⟩ := List.append_of_mem hreceipt
  have hperm : (.valid t :: (before ++ behind) : List InvoiceReceipt).Perm
      (before ++ .valid t :: behind) := List.perm_middle.symm
  refine ⟨_, hperm, ?_⟩
  -- the receipt comes first, so its turn is the first one that is ranked
  have hcons : rankedTurns env (.valid t :: (before ++ behind)) turns =
      t :: (validInvoiceTurns (before ++ behind)).filter
        (isRanked env (before ++ .valid t :: behind) turns) := by
    rw [rankedTurns_eq_filter, isRanked_perm hperm (List.Perm.refl turns)]
    exact List.filter_cons_of_pos hranked
  have hrankedPerm : (rankedTurns env (.valid t :: (before ++ behind)) turns).Perm
      (rankedTurns env (before ++ .valid t :: behind) turns) :=
    rankedTurns_perm hperm (List.Perm.refl turns)
  rw [hcons] at hrankedPerm ⊢
  exact Comparison.head?_sort_cons _ fun u hu =>
    htop.2 u (hrankedPerm.mem_iff.mp (List.mem_cons_of_mem t hu))

end Order

/-! ### When the law holds -/

section Result

variable {env : CostEnv} {receipts : List InvoiceReceipt} {turns : List Turn}
  {explicitInvoiceTurnId : Option String}

theorem selectionLaw_of_clear (hexplicit : optionText explicitInvoiceTurnId = none)
    (hclear : SelectionClear env receipts turns) :
    SelectionLaw env receipts turns explicitInvoiceTurnId := by
  obtain ⟨hpins, hselected⟩ :
      ((selectInvoiceTurn env receipts turns explicitInvoiceTurnId).Pins ↔
          calibrationTurns receipts ≠ []) ∧
        (selectInvoiceTurn env receipts turns explicitInvoiceTurnId).selectedInvoiceTurn =
          firstRanked env (rankedTurns env receipts turns) :=
    selectInvoiceTurn_spec hexplicit
  refine ⟨fun t ht => ?_, fun hpinned => ?_, fun hnot => ?_,
    fun receipts' turns' hreceipts hturns => ?_⟩
  · rw [hselected] at ht
    have hactive := isActive_of_mem_rankedTurns (isTop_of_firstRanked ht).1
    exact of_decide_eq_true hactive
  · have hsticky := hpins.mp hpinned
    have hranked : rankedTurns env receipts turns = calibrationTurns receipts := if_pos hsticky
    obtain ⟨t, ht⟩ : ∃ t, firstRanked env (calibrationTurns receipts) = some t :=
      exists_firstRanked hsticky
    have htop := isTop_of_firstRanked ht
    exact ⟨t, htop.1, by rw [hselected, hranked, ht], hclear.notEnded t htop⟩
  · have hsticky : ¬ calibrationTurns receipts ≠ [] := fun h => hnot (hpins.mpr h)
    have hranked : rankedTurns env receipts turns = windowTurns env receipts turns :=
      if_neg hsticky
    rw [hselected, hranked]
    by_cases hnone : windowTurns env receipts turns = []
    · left
      refine ⟨?_, by rw [hnone]; rfl⟩
      by_contra hactive
      rw [windowTurns] at hnone
      split at hnone
      · contradiction
      · exact hactive hnone
    · right
      obtain ⟨t, ht⟩ : ∃ t, firstRanked env (windowTurns env receipts turns) = some t :=
        exists_firstRanked hnone
      have htop := isTop_of_firstRanked ht
      exact ⟨t, htop.1, ht, fun u hu => openedTime_le_of_rank (htop.2 u hu)⟩
  · rw [hselected, (selectInvoiceTurn_spec hexplicit).2]
    have hperm : (rankedTurns env receipts' turns').Perm (rankedTurns env receipts turns) :=
      rankedTurns_perm hreceipts hturns
    exact (Comparison.head?_sort_eq_of_perm _ hclear.single hperm.symm).symm

theorem clear_of_selectionLaw (hexplicit : optionText explicitInvoiceTurnId = none)
    (hlaw : SelectionLaw env receipts turns explicitInvoiceTurnId) :
    SelectionClear env receipts turns := by
  obtain ⟨hpins, hselected⟩ :
      ((selectInvoiceTurn env receipts turns explicitInvoiceTurnId).Pins ↔
          calibrationTurns receipts ≠ []) ∧
        (selectInvoiceTurn env receipts turns explicitInvoiceTurnId).selectedInvoiceTurn =
          firstRanked env (rankedTurns env receipts turns) :=
    selectInvoiceTurn_spec hexplicit
  -- a turn at the top can be made the selected one by the order of the receipts
  have hfirst : ∀ t, (rankInvoiceTurns env).IsTop (rankedTurns env receipts turns) t →
      (selectInvoiceTurn env receipts turns explicitInvoiceTurnId).selectedInvoiceTurn =
        some t := by
    intro t htop
    obtain ⟨receipts', hperm, ht⟩ := exists_perm_firstRanked htop
    rw [← hlaw.independent receipts' turns hperm (List.Perm.refl turns),
      (selectInvoiceTurn_spec hexplicit).2, ht]
  refine ⟨fun t htop => ?_, fun t u ht hu => ?_⟩
  · have hsticky : calibrationTurns receipts ≠ [] := List.ne_nil_of_mem htop.1
    have hranked : rankedTurns env receipts turns = calibrationTurns receipts := if_pos hsticky
    obtain ⟨s, -, hs, hmode⟩ := hlaw.pinned (hpins.mpr hsticky)
    rw [hfirst t (by rw [hranked]; exact htop)] at hs
    obtain rfl := Option.some.inj hs
    exact hmode
  · have hsame := (hfirst t ht).symm.trans (hfirst u hu)
    exact Option.some.inj hsame

/-- **The funding window.** Without an id the choice is as wanted exactly if the calibration turn
at the top has not ended, and no two turns share the top. -/
theorem selectionLaw_iff (env : CostEnv) (receipts : List InvoiceReceipt) (turns : List Turn)
    (explicitInvoiceTurnId : Option String) (hexplicit : optionText explicitInvoiceTurnId = none) :
    SelectionLaw env receipts turns explicitInvoiceTurnId ↔ SelectionClear env receipts turns :=
  ⟨clear_of_selectionLaw hexplicit, selectionLaw_of_clear hexplicit⟩

end Result

/-! ### A calibration and an operational turn -/

def undatedEnv : CostEnv where
  dateParse := fun _ => none
  isoString := fun _ => "1970-01-01T00:00:00.000Z"
  now := 0
  collation := byCodeUnits
  safeRelative := id

def activeInvoiceTurn (id fundingPurpose mode : String) : InvoiceTurn where
  sourcePath := "invoice-turns/" ++ id
  invoiceTurnId := some id
  invoiceId := none
  openedAt := none
  closedAt := none
  creditsPurchased := 1000
  unitPriceUsd := 1
  prepaidUsd := 1000
  pricingBasis := none
  activationState := "active"
  fundingPurpose := fundingPurpose
  reconciliationStatus := "baseline-only"
  actualUsdConsumed := none
  actualCreditsConsumed := none
  reconciledAt := none
  reconciliationSourceKind := none
  reconciliationNote := none
  sourceKind := none
  sourcePathEvidence := none
  operatorNote := none
  selection := ⟨mode, none, none⟩

def calibrationReceipts (mode : String) : List InvoiceReceipt :=
  [.valid (activeInvoiceTurn "HQ1VJLMV-0026" "calibration" mode),
    .valid (activeInvoiceTurn "HQ1VJLMV-0027" "operational" "hold")]

theorem calibrationTurns_calibrationReceipts (mode : String) :
    calibrationTurns (calibrationReceipts mode) =
      [activeInvoiceTurn "HQ1VJLMV-0026" "calibration" mode] := by
  have hactive : ∀ id purpose mode, isActive (activeInvoiceTurn id purpose mode) = true := by
    intro id purpose mode
    change decide (JsString.trim "active" ≠ "hold") = true
    decide +kernel
  have hcalibration : ∀ id, isCalibration (activeInvoiceTurn id "calibration" mode) = true := by
    intro id
    change decide (JsString.trim "calibration" = "calibration") = true
    decide +kernel
  have hoperational : ∀ id, isCalibration (activeInvoiceTurn id "operational" "hold") = false := by
    intro id
    change decide (JsString.trim "operational" = "calibration") = false
    decide +kernel
  rw [calibrationTurns, activeTurns, validInvoiceTurns, calibrationReceipts]
  simp [InvoiceReceipt.invoiceTurn?, hactive, hcalibration, hoperational]

/-- A calibration that goes on is pinned. -/
theorem selectionLaw_stickyCalibration :
    SelectionLaw undatedEnv (calibrationReceipts "sticky-calibration") [] none := by
  have hcalibration := calibrationTurns_calibrationReceipts "sticky-calibration"
  refine (selectionLaw_iff _ _ _ _ rfl).mpr ⟨fun t htop => ?_, fun t u ht hu => ?_⟩
  · rw [hcalibration] at htop
    obtain rfl := List.mem_singleton.mp htop.1
    change "sticky-calibration" ≠ "ended"
    decide
  · rw [rankedTurns, if_pos (by rw [hcalibration]; simp), hcalibration] at ht hu
    rw [List.mem_singleton.mp ht.1, List.mem_singleton.mp hu.1]

/-- A calibration that was ended is pinned as well. -/
theorem not_selectionLaw_endedCalibration :
    ((validInvoiceTurns (calibrationReceipts "ended")).map (·.invoiceTurnId)).Nodup ∧
      ¬ SelectionLaw undatedEnv (calibrationReceipts "ended") [] none := by
  refine ⟨by change [some "HQ1VJLMV-0026", some "HQ1VJLMV-0027"].Nodup; decide, fun hlaw => ?_⟩
  have hcalibration := calibrationTurns_calibrationReceipts "ended"
  have htop : (rankInvoiceTurns undatedEnv).IsTop (calibrationTurns (calibrationReceipts "ended"))
      (activeInvoiceTurn "HQ1VJLMV-0026" "calibration" "ended") := by
    rw [hcalibration]
    refine ⟨List.mem_cons_self, fun u hu => ?_⟩
    rw [List.mem_singleton.mp hu]
    exact ((rankInvoiceTurns undatedEnv).total _ _).elim id id
  exact (clear_of_selectionLaw rfl hlaw).notEnded _ htop rfl

end CompareVI.Cost
