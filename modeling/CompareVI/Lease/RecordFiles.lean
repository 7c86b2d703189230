import CompareVI.Framework.Gaps
import CompareVI.Lease.DockerLane

/-!
# The files of the records

The lease of a cell and the handshake of a lane are files, each named after its id. The name is
the trimmed id with every run of other characters than letters, digits, `.`, `_` and `-` replaced
by two underscores, and underscores are kept. So an id is read off its file up to the runs
between its letters: `recordLaw_iff` says that the records of two ids are apart exactly if the ids
differ in more than that.

Two ids of one file share one record: a request on the one is a request on the other
(`cellsUnchanged_iff`, `lanesUnchanged_iff`).
-/

open Framework
open Framework.Gaps

namespace CompareVI.Lease

/-! ### File names -/

/-- A character of `[a-zA-Z0-9._-]`. -/
def isFileChar (c : Char) : Bool := c.isAlphanum || c = '.' || c = '_' || c = '-'

/-- What `sanitizeCellId` and `sanitizeLaneId` do. -/
def sanitizeId (id : String) : String :=
  String.ofList (JsString.replaceRuns isFileChar ['_', '_'] false (JsString.trim id).toList)

def sanitizeCellId (cellId : String) : String := sanitizeId cellId

def sanitizeLaneId (laneId : String) : String := sanitizeId laneId

/-- `leasePathForCell`, from the root of the leases. -/
def leasePathForCell (cellId : String) : String := sanitizeCellId cellId ++ ".json"

/-- `handshakePathForLane`, from the root of the handshakes. -/
def handshakePathForLane (laneId : String) : String := sanitizeLaneId laneId ++ ".json"

/-! ### Operations on the files -/

abbrev Files (α : Type) : Type := String → Option α

/-- `runExecutionCellLease` on the files of the cells. Without an id it throws. -/
def runOnCell (cellId : Option String) (files : Files CellLease) (o : CellOptions) :
    Files CellLease :=
  match optionText cellId with
  | none => files
  | some cellId =>
    match runExecutionCellLease cellId (files (leasePathForCell cellId)) o with
    | .ok result => Function.update files (leasePathForCell cellId) result.stored
    | .error _ => files

/-- `runDockerLaneHandshake` on the files of the lanes. -/
def runOnLane (files : Files Handshake) (o : LaneOptions) : Files Handshake :=
  let handshakePath := handshakePathForLane ((optionText o.laneId).getD "")
  Function.update files handshakePath (runDockerLaneHandshake (files handshakePath) o).stored

/-! ### The law -/

/-- Operations on the cell `x` leave the lease of the cell `y` as it is. -/
def CellsUnchanged (x y : String) : Prop :=
  ∀ (files : Files CellLease) (os : List CellOptions),
    os.foldl (runOnCell (some x)) files (leasePathForCell y) = files (leasePathForCell y)

/-- Operations on the lane `x` leave the handshake of the lane `y` as it is. -/
def LanesUnchanged (x y : String) : Prop :=
  ∀ (files : Files Handshake) (os : List LaneOptions), (∀ o ∈ os, o.laneId = some x) →
    os.foldl runOnLane files (handshakePathForLane y) = files (handshakePathForLane y)

/-- The records of two ids have nothing to do with each other. -/
structure RecordsApart (x y : String) : Prop where
  cellFiles : leasePathForCell x ≠ leasePathForCell y
  laneFiles : handshakePathForLane x ≠ handshakePathForLane y
  cells : CellsUnchanged x y ∧ CellsUnchanged y x
  lanes : LanesUnchanged x y ∧ LanesUnchanged y x

/-- Ids that differ after trimming have records of their own. -/
def RecordLaw (x y : String) : Prop := JsString.trim x ≠ JsString.trim y → RecordsApart x y

/-- The characters of an id that tell files apart: those of a file name, the underscore apart. -/
def idLetters (id : String) : List Char :=
  (JsString.trim id).toList.filter (isLetter isFileChar '_')

def idGaps (id : String) : List ℕ :=
  ((JsString.trim id).toList.splitOnP (isLetter isFileChar '_')).map (width '_' 2)

/-! ### Which ids share a file -/

section Shared

variable {x y : String}

theorem sanitizeId_eq_iff :
    sanitizeId x = sanitizeId y ↔ idLetters x = idLetters y ∧ idGaps x = idGaps y := by
  unfold sanitizeId
  rw [String.ofList_inj]
  have hkeep : isFileChar '_' = true := rfl
  have htwo : ['_', '_'] = List.replicate 2 '_' := rfl
  rw [htwo]
  exact replaceRuns_eq_iff hkeep _ _

theorem leasePathForCell_eq_iff :
    leasePathForCell x = leasePathForCell y ↔ sanitizeId x = sanitizeId y :=
  String.append_left_inj ".json"

theorem handshakePathForLane_eq_iff :
    handshakePathForLane x = handshakePathForLane y ↔ sanitizeId x = sanitizeId y :=
  String.append_left_inj ".json"

theorem trim_eq_of_sanitizeId_eq (hfile : sanitizeId x = sanitizeId y)
    (hx : JsString.trim x = "") : JsString.trim y = "" := by
  have hempty : sanitizeId y = "" := by
    rw [← hfile, sanitizeId, hx]
    rfl
  have hnil : JsString.replaceRuns isFileChar ['_', '_'] false (JsString.trim y).toList = [] := by
    rw [← String.toList_ofList (l := JsString.replaceRuns _ _ _ _), ← sanitizeId, hempty]
    rfl
  cases hcs : (JsString.trim y).toList with
  | nil => exact String.toList_inj.mp hcs
  | cons c cs =>
    rw [hcs] at hnil
    by_cases hc : isFileChar c = true
    · rw [Slug.replaceRuns_cons_of_keep hc] at hnil
      cases hnil
    · rw [Slug.replaceRuns_cons_of_not_keep (Bool.eq_false_of_not_eq_true hc)] at hnil
      cases hnil

theorem ne_blank_of_shared (hne : JsString.trim x ≠ JsString.trim y)
    (hfile : sanitizeId x = sanitizeId y) : JsString.trim x ≠ "" := fun hx =>
  hne (hx.trans (trim_eq_of_sanitizeId_eq hfile hx).symm)

theorem optionText_of_ne_blank (hx : JsString.trim x ≠ "") :
    optionText (some x) = some (JsString.trim x) := by
  rw [optionText, Option.bind_some, optionalTrim, if_neg hx]

theorem optionText_of_blank (hx : JsString.trim x = "") : optionText (some x) = none := by
  rw [optionText, Option.bind_some, optionalTrim, if_pos hx]

theorem sanitizeId_trim : sanitizeId (JsString.trim x) = sanitizeId x := by
  unfold sanitizeId
  rw [JsString.trim_trim]

end Shared

/-! ### Operations and files -/

section Operations

variable {x y : String}

theorem runOnCell_of_ne (hfile : leasePathForCell x ≠ leasePathForCell y)
    (files : Files CellLease) (o : CellOptions) :
    runOnCell (some x) files o (leasePathForCell y) = files (leasePathForCell y) := by
  by_cases hx : JsString.trim x = ""
  · rw [runOnCell, optionText_of_blank hx]
  · have hpath : leasePathForCell (JsString.trim x) = leasePathForCell x :=
      leasePathForCell_eq_iff.mpr sanitizeId_trim
    simp only [runOnCell, optionText_of_ne_blank hx, hpath]
    cases runExecutionCellLease (JsString.trim x) (files (leasePathForCell x)) o with
    | ok result => exact Function.update_of_ne hfile.symm _ _
    | error message => rfl

theorem isSome_runOnCell (hx : JsString.trim x ≠ "") (files : Files CellLease) {o : CellOptions}
    (ha : o.action = .request) :
    (runOnCell (some x) files o (leasePathForCell x)).isSome = true := by
  have hpath : leasePathForCell (JsString.trim x) = leasePathForCell x :=
    leasePathForCell_eq_iff.mpr sanitizeId_trim
  simp only [runOnCell, optionText_of_ne_blank hx, hpath, runExecutionCellLease, ha,
    CellResult.accept, Function.update_self, Option.isSome_some]

theorem cellsUnchanged (hfile : leasePathForCell x ≠ leasePathForCell y) :
    CellsUnchanged x y := by
  intro files os
  induction os generalizing files with
  | nil => rfl
  | cons o os ih => rw [List.foldl_cons, ih, runOnCell_of_ne hfile]

/-- **The cells of two ids are apart exactly if their files are.** -/
theorem cellsUnchanged_iff (hne : JsString.trim x ≠ JsString.trim y) :
    CellsUnchanged x y ↔ leasePathForCell x ≠ leasePathForCell y := by
  refine ⟨fun hunchanged hfile => ?_, cellsUnchanged⟩
  have hx := ne_blank_of_shared hne (leasePathForCell_eq_iff.mp hfile)
  let o := plainOperation .request "a" 0 "request-1"
  have hsome : (runOnCell (some x) (fun _ => none) o (leasePathForCell x)).isSome = true :=
    isSome_runOnCell hx _ rfl
  have hnone : runOnCell (some x) (fun _ => none) o (leasePathForCell y) = none :=
    hunchanged (fun _ => none) [o]
  rw [hfile, hnone] at hsome
  cases hsome

theorem runOnLane_of_ne (hfile : handshakePathForLane x ≠ handshakePathForLane y)
    (files : Files Handshake) {o : LaneOptions} (ho : o.laneId = some x) :
    runOnLane files o (handshakePathForLane y) = files (handshakePathForLane y) := by
  by_cases hx : JsString.trim x = ""
  · have hnone : optionText o.laneId = none := by rw [ho, optionText_of_blank hx]
    simp only [runOnLane, hnone, Option.getD_none, runDockerLaneHandshake, refuseLane,
      Function.update_eq_self]
  · have hpath : handshakePathForLane ((optionText o.laneId).getD "") = handshakePathForLane x := by
      rw [ho, optionText_of_ne_blank hx]
      exact handshakePathForLane_eq_iff.mpr sanitizeId_trim
    simp only [runOnLane, hpath]
    exact Function.update_of_ne hfile.symm _ _

/-- A request of the agent `a` on a lane. -/
def plainLaneRequest (laneId : String) : LaneOptions where
  action := .request
  laneId := some laneId
  agentId := some "a"
  defaultOwner := ""
  agentClass := none
  capabilities := [DOCKER_LANE_CAPABILITY]
  operatorId := none
  operatorAuthorizationRef := none
  requestId := none
  grantor := none
  leaseId := none
  ttlSeconds := none
  finalStatus := none
  artifactPaths := []
  hostPlaneReport := none
  operatorCostProfile := none
  executionCellReport := none
  now := 0
  freshId := "request-1"

theorem isSome_runOnLane (hx : JsString.trim x ≠ "") :
    (runOnLane (fun _ => none) (plainLaneRequest x) (handshakePathForLane x)).isSome = true := by
  have hid : optionText (plainLaneRequest x).laneId = some (JsString.trim x) :=
    optionText_of_ne_blank hx
  have hpath : handshakePathForLane (JsString.trim x) = handshakePathForLane x :=
    handshakePathForLane_eq_iff.mpr sanitizeId_trim
  have hcapabilities : (normalizeCapabilities (plainLaneRequest x).capabilities).length ≠ 0 := by
    change (normalizeCapabilities [DOCKER_LANE_CAPABILITY]).length ≠ 0
    decide +kernel
  have haction : (plainLaneRequest x).action = .request := rfl
  simp only [runOnLane, hid, Option.getD_some, hpath, Function.update_self,
    runDockerLaneHandshake, haction, requestLane, if_neg hcapabilities, acceptLane,
    Option.isSome_some]

theorem lanesUnchanged (hfile : handshakePathForLane x ≠ handshakePathForLane y) :
    LanesUnchanged x y := by
  intro files os
  induction os generalizing files with
  | nil => exact fun _ => rfl
  | cons o os ih =>
    intro hos
    rw [List.foldl_cons, ih _ fun o ho => hos o (List.mem_cons_of_mem _ ho),
      runOnLane_of_ne hfile files (hos o List.mem_cons_self)]

/-- **The lanes of two ids are apart exactly if their files are.** -/
theorem lanesUnchanged_iff (hne : JsString.trim x ≠ JsString.trim y) :
    LanesUnchanged x y ↔ handshakePathForLane x ≠ handshakePathForLane y := by
  refine ⟨fun hunchanged hfile => ?_, lanesUnchanged⟩
  have hx := ne_blank_of_shared hne (handshakePathForLane_eq_iff.mp hfile)
  have hsome := isSome_runOnLane hx
  have hid : ∀ o ∈ [plainLaneRequest x], o.laneId = some x := fun o ho => by
    obtain rfl := List.mem_singleton.mp ho
    rfl
  have hnone := hunchanged (fun _ => none) [plainLaneRequest x] hid
  rw [List.foldl_cons, List.foldl_nil] at hnone
  rw [hfile, hnone] at hsome
  cases hsome

end Operations

/-! ### The law -/

section Law

variable {x y : String}

theorem recordsApart_iff : RecordsApart x y ↔ sanitizeId x ≠ sanitizeId y := by
  constructor
  · intro hapart hfile
    exact hapart.cellFiles (leasePathForCell_eq_iff.mpr hfile)
  · intro hfile
    have hcells : leasePathForCell x ≠ leasePathForCell y := mt leasePathForCell_eq_iff.mp hfile
    have hlanes : handshakePathForLane x ≠ handshakePathForLane y :=
      mt handshakePathForLane_eq_iff.mp hfile
    exact ⟨hcells, hlanes, ⟨cellsUnchanged hcells, cellsUnchanged hcells.symm⟩,
      ⟨lanesUnchanged hlanes, lanesUnchanged hlanes.symm⟩⟩

/-- **Records of their own.** The records of two ids that differ after trimming are apart exactly
if the ids have different letters, or gaps of different widths between them. -/
theorem recordLaw_iff (x y : String) :
    RecordLaw x y ↔
      (JsString.trim x ≠ JsString.trim y → idLetters x ≠ idLetters y ∨ idGaps x ≠ idGaps y) := by
  refine forall_congr' fun _ => recordsApart_iff.trans ?_
  rw [Ne, sanitizeId_eq_iff, Classical.not_and_iff_not_or_not]

/-- A slash and a colon: the request of the one agent is on the lease of the other. -/
theorem not_recordLaw_slash : ¬ RecordLaw "a/b" "a:b" := by
  intro hlaw
  have hne : JsString.trim "a/b" ≠ JsString.trim "a:b" := by decide
  refine (cellsUnchanged_iff hne).mp (hlaw hne).cells.1 ?_
  decide

end Law

end CompareVI.Lease
