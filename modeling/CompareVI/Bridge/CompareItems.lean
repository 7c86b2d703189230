import CompareVI.CompareLoop.Percentiles
import CompareVI.Framework.JsonText
import CompareVI.Framework.PsString
import CompareVI.Framework.Tokens

/-!
# Compare items and their images

The bridge makes an item of every pair of a timeline, and merges the image indexes of the targets
into one whose entries name the items they belong to. Both sides compose an id and hand it to
`SanitizeItemId`: the item of the target path, the mode and the index of the pair, the image of
the target path and a running number.

An id keeps the letters and digits of its text and how many others are between them
(`sanitizeItemId_eq_iff`), so entries that differ in the others alone share their id. The running
number is written in three digits and the index is not, so the first image names no item
(`sanitizeItemId_image_ne_item`).
-/

open Framework

namespace CompareVI.CompareItems

/-- `char.IsLetterOrDigit`, for the characters of one code unit. -/
structure LetterOrDigit where
  holds : Char → Bool
  digit : ∀ c, c.isDigit = true → holds c = true
  dash : holds '-' = false

/-- The code units of a character, `none` for those that are no letter or digit. -/
def units (cls : LetterOrDigit) (c : Char) : List (Option Char) :=
  if c.toNat < 0x10000 then [if cls.holds c then some c else none] else [none, none]

def sanitizeItemId (cls : LetterOrDigit) (value : String) : String :=
  String.ofList (Tokens.trim (· = '-') ((value.toList.flatMap (units cls)).map (·.getD '-')))

/-- A text from its first letter or digit to its last one, `none` for what is no letter or digit. -/
def lettersOf (cls : LetterOrDigit) (value : String) : List (Option Char) :=
  Tokens.trim Option.isNone (value.toList.flatMap (units cls))

variable {cls : LetterOrDigit} {value x y : String}

theorem ne_dash_of_mem_units {u : Option Char} (hu : u ∈ value.toList.flatMap (units cls)) :
    u ≠ some '-' := by
  obtain ⟨c, -, hc⟩ := List.mem_flatMap.mp hu
  rintro rfl
  rw [units] at hc
  split_ifs at hc with hunit hletter
  · obtain rfl := Option.some.inj (List.mem_singleton.mp hc)
    exact absurd hletter (by simp [cls.dash])
  all_goals simp at hc

theorem toList_sanitizeItemId :
    (sanitizeItemId cls value).toList = (lettersOf cls value).map (·.getD '-') := by
  rw [sanitizeItemId, String.toList_ofList, lettersOf]
  refine Tokens.trim_map fun u hu => ?_
  cases u with
  | none => rfl
  | some c => exact decide_eq_false fun hdash => ne_dash_of_mem_units hu (congrArg some hdash)

/-- **An id keeps the letters and digits and their places.** -/
theorem sanitizeItemId_eq_iff :
    sanitizeItemId cls x = sanitizeItemId cls y ↔ lettersOf cls x = lettersOf cls y := by
  have hback : ∀ value, lettersOf cls value = (sanitizeItemId cls value).toList.map fun c =>
      if c = '-' then none else some c := by
    intro value
    rw [toList_sanitizeItemId, List.map_map]
    refine ((List.map_congr_left fun u hu => ?_).trans (List.map_id _)).symm
    have hmem : u ∈ value.toList.flatMap (units cls) :=
      (List.dropWhile_sublist _).subset ((List.rdropWhile_prefix _ _).subset hu)
    cases u with
    | none => rfl
    | some c => exact if_neg fun hdash => ne_dash_of_mem_units hmem (congrArg some hdash)
  constructor
  · intro h
    rw [hback x, hback y, h]
  · intro h
    rw [← String.toList_inj, toList_sanitizeItemId, toList_sanitizeItemId, h]

/-! ### The end of an id -/

/-- The last word of a text, if it is one of digits. -/
theorem rtakeWhile_lettersOf {before digits : List Char}
    (hvalue : value.toList = before ++ '-' :: digits) (hne : digits ≠ [])
    (hdigits : ∀ c ∈ digits, c.isDigit = true) :
    (lettersOf cls value).rtakeWhile Option.isSome = digits.map some := by
  have hdash : units cls '-' = [none] := by
    rw [units, if_pos (by decide), cls.dash]
    rfl
  have hkeep : digits.flatMap (units cls) = digits.map some := by
    rw [List.map_eq_flatMap]
    refine List.flatMap_congr fun c hc => ?_
    have hunit : c.toNat < 0x10000 := by
      have hdigit := hdigits c hc
      rw [Char.isDigit, Bool.and_eq_true] at hdigit
      exact Nat.lt_of_le_of_lt (UInt32.le_iff_toNat_le.mp (of_decide_eq_true hdigit.2)) (by decide)
    rw [units, if_pos hunit, if_pos (cls.digit c (hdigits c hc))]
  rw [lettersOf, hvalue, List.append_cons, List.flatMap_append, List.flatMap_append, hkeep,
    List.flatMap_singleton, hdash, Tokens.trim_append_of_forall_not (by simp) (by simpa using hne),
    List.rtakeWhile, List.reverse_append, List.takeWhile_append_of_pos (by simp),
    List.dropWhile_append]
  split <;> simp

/-! ### Reading nodes -/

/-- `none` is the exception that `GetValue` throws at another kind of node. -/
def getOptionalString (root : Json) (propertyName : String) : Option (Option String) :=
  match root.get? propertyName with
  | none | some .null => some none
  | some (.str s) => some (some s)
  | some _ => none

/-- The first of some properties that is there. -/
def firstString (root : Json) : List String → Option (Option String)
  | [] => some none
  | name :: names => do
    match ← getOptionalString root name with
    | some s => return some s
    | none => firstString root names

def getOptionalInt (root : Json) (propertyName : String) : Option ℤ :=
  match root.get? propertyName with
  | some (.num q) => some q.num |>.filter fun n => n = q ∧ -2147483648 ≤ n ∧ n < 2147483648
  | _ => none

def getOptionalDouble (root : Json) (propertyName : String) : ℚ :=
  match root.get? propertyName with
  | some (.num q) => q
  | _ => 0

def getOptionalBool (root : Json) (propertyName : String) : Option Bool :=
  match root.get? propertyName with
  | some (.bool b) => some b
  | _ => none

def isObject : Json → Bool
  | .obj _ => true
  | _ => false

def getObject (root : Json) (propertyName : String) : Json :=
  ((root.get? propertyName).filter isObject).getD (.obj [])

def getArray (root : Json) (propertyName : String) : List Json :=
  match root.get? propertyName with
  | some (.arr items) => items
  | _ => []

/-- The loops over an array pass by what is not an object. -/
def getObjects (root : Json) (propertyName : String) : List Json :=
  (getArray root propertyName).filter isObject

/-! ### Items -/

/-- An item. Its times are in milliseconds, and no date is too late for them. -/
structure CompareItem where
  id : String
  order : ℕ
  targetPath : Option String
  mode : Option String
  pairIndex : ℤ
  baseRef : Option String
  headRef : Option String
  diff : Bool
  classification : Option String
  previewStatus : Option String
  reportPath : Option String
  imageIndexPath : Option String
  startUtc : ℚ
  endUtc : ℚ
  durationMs : ℚ

def itemText (targetPath mode : Option String) (pairIndex : ℤ) : String :=
  targetPath.getD "target" ++ "-" ++ mode.getD "mode" ++ "-" ++ toString pairIndex

def durationOf (pair : Json) : ℚ := max 0 (getOptionalDouble pair "durationSeconds" * 1000)

def buildItem (cls : LetterOrDigit) (itemStart : ℚ) (order : ℕ) (pair : Json) :
    Option CompareItem := do
  let targetPath ← getOptionalString pair "targetPath"
  let mode ← getOptionalString pair "mode"
  let pairIndex := (getOptionalInt pair "pairIndex").getD order
  return {
    id := sanitizeItemId cls (itemText targetPath mode pairIndex)
    order := order
    targetPath := targetPath
    mode := mode
    pairIndex := pairIndex
    baseRef := ← getOptionalString pair "baseRef"
    headRef := ← getOptionalString pair "headRef"
    diff := (getOptionalBool pair "diff").getD false
    classification := ← getOptionalString pair "classification"
    previewStatus := ← getOptionalString pair "previewStatus"
    reportPath := ← getOptionalString pair "reportPath"
    imageIndexPath := ← getOptionalString pair "imageIndexPath"
    startUtc := itemStart
    endUtc := itemStart + durationOf pair
    durationMs := CompareLoop.mathRound3 (durationOf pair) }

def buildItems (cls : LetterOrDigit) : ℚ → ℕ → List Json → Option (List CompareItem)
  | _, _, [] => some []
  | itemStart, order, node :: pairTimeline =>
    if isObject node then do
      let item ← buildItem cls itemStart order node
      let items ← buildItems cls (itemStart + durationOf node) (order + 1) pairTimeline
      return item :: items
    else buildItems cls itemStart order pairTimeline

/-- The items of the envelope. Those of a timeline begin at `generatedAt`. -/
def buildItemsFromPairTimeline (cls : LetterOrDigit) (pairTimeline : List Json) (start : ℚ) :
    Option (List CompareItem) :=
  buildItems cls start 1 pairTimeline

/-- What there is at a path, if it is a file with an object. -/
abbrev Files := String → Option Json

def ofText (value : Option String) : Json := value.elim .null .str

def suitePair (suiteManifest modeEntry comparison : Json) : Option Json := do
  let result := getObject comparison "result"
  let diff := (getOptionalBool result "diff").getD false
  return .obj [
    ("targetPath", ofText (← getOptionalString suiteManifest "targetPath")),
    ("mode", .str ((← firstString modeEntry ["name", "slug"]).getD "default")),
    ("pairIndex", .num ((getOptionalInt comparison "index").getD 0)),
    ("baseRef", ofText (← getOptionalString (getObject comparison "base") "ref")),
    ("headRef", ofText (← getOptionalString (getObject comparison "head") "ref")),
    ("diff", .bool diff),
    ("classification", .str (if diff then "diff" else "no_diff")),
    ("durationSeconds", .num (getOptionalDouble result "duration_s")),
    ("reportPath", ofText (← getOptionalString result "reportPath")),
    ("previewStatus", .str "unknown")]

/-- What there is in a list of a file, if its path is one of a file with an object. -/
def readList (files : Files) (path : Option String) (propertyName : String) : List Json :=
  match (path.filter fun path => !PsString.isNullOrWhiteSpace (some path)) >>= files with
  | none => []
  | some root => getObjects root propertyName

def suitePairs (files : Files) (suiteManifest : Json) : Option (List Json) := do
  let pairs ← (getObjects suiteManifest "modes").mapM fun modeEntry => do
    (readList files (← getOptionalString modeEntry "manifestPath") "comparisons").mapM
      (suitePair suiteManifest modeEntry)
  return pairs.flatten

def buildItemsFromSuiteManifest (cls : LetterOrDigit) (files : Files) (suiteManifest : Json)
    (start : ℚ) : Option (List CompareItem) := do
  buildItemsFromPairTimeline cls (← suitePairs files suiteManifest) start

/-! ### Images -/

structure ImageEntry where
  path : Option String
  compareItemId : String
  mediaType : String
  targetPath : Option String
  sourceIndexPath : Option String
  status : Option String
  fileName : Option String
  savedPath : Option String
  sourceType : Option String

def imageText (targetPath : Option String) (ordinal : ℕ) : String :=
  targetPath.getD "target" ++ "-" ++ String.ofList (List.leftpad 3 '0' (Nat.toDigits 10 ordinal))

/-- `Path.GetExtension`. -/
def getExtension (path : String) : String :=
  let name := path.toList.reverse.takeWhile fun c => c ≠ '.' && c ≠ '/'
  if name ≠ [] ∧ path.toList.reverse[name.length]? = some '.' then
    "." ++ String.ofList name.reverse
  else ""

def inferMediaType (path : Option String) : String :=
  match PsString.toLowerInvariant (getExtension (path.getD "")) with
  | ".png" => "image/png"
  | ".jpg" | ".jpeg" => "image/jpeg"
  | ".gif" => "image/gif"
  | ".bmp" => "image/bmp"
  | ".svg" => "image/svg+xml"
  | _ => "application/octet-stream"

/-- An image of the index of a target, with the path of the target and that of the index. -/
abbrev FoundImage := Option String × Option String × Json

def imagesOfTarget (files : Files) (target : Json) : Option (List FoundImage) := do
  let targetPath ← firstString target ["repoPath", "targetPath"]
  let indexPath ← getOptionalString (getObject target "reportImages") "indexPath"
  return (readList files indexPath "images").map fun image => (targetPath, indexPath, image)

def buildImage (cls : LetterOrDigit) (found : FoundImage × ℕ) : Option ImageEntry := do
  let ((targetPath, indexPath, image), ordinal) := found
  let savedPath ← firstString image ["savedPath", "resolvedSource", "source"]
  return {
    path := savedPath
    compareItemId := sanitizeItemId cls (imageText targetPath ordinal)
    mediaType := inferMediaType savedPath
    targetPath := targetPath
    sourceIndexPath := indexPath
    status := ← getOptionalString image "status"
    fileName := ← getOptionalString image "fileName"
    savedPath := ← getOptionalString image "savedPath"
    sourceType := ← getOptionalString image "sourceType" }

def findImages (files : Files) (backendSummary : Json) : Option (List FoundImage) := do
  let found ← (getObjects backendSummary "targets").mapM (imagesOfTarget files)
  return found.flatten

def mergeHistoryImageIndexes (cls : LetterOrDigit) (files : Files) (backendSummary : Json) :
    Option (List ImageEntry) := do
  (← findImages files backendSummary).zipIdx.mapM (buildImage cls)

/-! ### The ids of items -/

/-- What the entries of a timeline are told apart by. -/
def entryKey (pair : Json) : Option (Option String) × Option (Option String) × Option ℤ :=
  (getOptionalString pair "targetPath", getOptionalString pair "mode",
    getOptionalInt pair "pairIndex")

def entryText (entry : Json × ℕ) : String :=
  itemText (getOptionalString entry.1 "targetPath").join (getOptionalString entry.1 "mode").join
    ((getOptionalInt entry.1 "pairIndex").getD entry.2)

def entries (pairTimeline : List Json) (order : ℕ) : List (Json × ℕ) :=
  (pairTimeline.filter isObject).zipIdx order

variable {pairTimeline : List Json} {start : ℚ} {order : ℕ} {items : List CompareItem}

theorem id_buildItem {pair : Json} {item : CompareItem}
    (h : buildItem cls start order pair = some item) :
    item.id = sanitizeItemId cls (entryText (pair, order)) := by
  obtain ⟨targetPath, htarget, rest⟩ := Option.bind_eq_some_iff.mp h
  obtain ⟨mode, hmode, rest⟩ := Option.bind_eq_some_iff.mp rest
  simp only [entryText, htarget, hmode, Option.join_some]
  simp only [bind, Option.bind_eq_some_iff] at rest
  grind

theorem ids_buildItems (h : buildItems cls start order pairTimeline = some items) :
    items.map (·.id) = (entries pairTimeline order).map (sanitizeItemId cls ∘ entryText) := by
  induction pairTimeline generalizing start order items with
  | nil =>
    obtain rfl := Option.some.inj h
    rfl
  | cons pair pairTimeline ih =>
    rw [buildItems] at h
    split_ifs at h with hobject
    · obtain ⟨item, hitem, rest⟩ := Option.bind_eq_some_iff.mp h
      obtain ⟨later, hlater, heq⟩ := Option.bind_eq_some_iff.mp rest
      obtain rfl := Option.some.inj heq
      rw [entries, List.filter_cons_of_pos hobject, List.zipIdx_cons, List.map_cons, List.map_cons,
        id_buildItem hitem, ih hlater]
      rfl
    · rw [ih h, entries, entries, List.filter_cons_of_neg hobject]

/-- Entries of different keys get items of different ids. -/
def DistinctIds (pairTimeline : List Json) (items : List CompareItem) : Prop :=
  ((pairTimeline.filter isObject).map entryKey).Nodup → (items.map (·.id)).Nodup

/-- The texts of entries of different keys differ in a letter or digit or in its place. -/
def DistinctTexts (cls : LetterOrDigit) (pairTimeline : List Json) : Prop :=
  ((pairTimeline.filter isObject).map entryKey).Nodup →
    (entries pairTimeline 1).Pairwise fun e f =>
      lettersOf cls (entryText e) ≠ lettersOf cls (entryText f)

theorem distinctIds_iff (h : buildItemsFromPairTimeline cls pairTimeline start = some items) :
    DistinctIds pairTimeline items ↔ DistinctTexts cls pairTimeline := by
  refine imp_congr_right fun _ => ?_
  rw [ids_buildItems h, List.Nodup, List.pairwise_map]
  simp only [Function.comp_apply, ne_eq, sanitizeItemId_eq_iff]

/-! ### The ids of images -/

theorem exists_toList_itemText (targetPath mode : Option String) (pairIndex : ℤ) :
    ∃ before, (itemText targetPath mode pairIndex).toList =
      before ++ '-' :: Nat.toDigits 10 pairIndex.natAbs := by
  rw [itemText, String.toList_append, Json.toList_intText, Json.toList_natText]
  split
  · exact ⟨_, rfl⟩
  · rw [String.toList_append, List.append_assoc]
    exact ⟨_, rfl⟩

theorem sanitizeItemId_image_ne_item {targetPath other mode : Option String} {pairIndex : ℤ} :
    sanitizeItemId cls (imageText targetPath 0) ≠
      sanitizeItemId cls (itemText other mode pairIndex) := by
  intro h
  obtain ⟨before, hbefore⟩ := exists_toList_itemText other mode pairIndex
  have himage : (imageText targetPath 0).toList = (targetPath.getD "target").toList ++
      '-' :: ['0', '0', '0'] := by
    rw [imageText, String.toList_append, String.toList_append, List.append_assoc]
    rfl
  have hwords := congrArg (List.rtakeWhile Option.isSome) (sanitizeItemId_eq_iff.mp h)
  rw [rtakeWhile_lettersOf himage (List.cons_ne_nil _ _) (by simp),
    rtakeWhile_lettersOf hbefore Nat.toDigits_ne_nil fun c hc =>
      Nat.isDigit_of_mem_toDigits (by decide) (by decide) hc] at hwords
  have hdigits := List.map_injective_iff.mpr (Option.some_injective _) hwords
  have hzero : pairIndex.natAbs = 0 := by
    rw [← Nat.ofDigitChars_toDigits (b := 10) (n := pairIndex.natAbs) (by decide) (by decide),
      ← hdigits]
    rfl
  rw [hzero] at hdigits
  exact absurd hdigits (by decide)

/-- Every image names an item of its target path. -/
def NamesItems (images : List ImageEntry) (items : List CompareItem) : Prop :=
  ∀ image ∈ images, ∃ item ∈ items,
    item.targetPath = image.targetPath ∧ item.id = image.compareItemId

theorem compareItemId_buildImage {found : FoundImage × ℕ} {entry : ImageEntry}
    (h : buildImage cls found = some entry) :
    entry.compareItemId = sanitizeItemId cls (imageText found.1.1 found.2) := by
  obtain ⟨savedPath, -, rest⟩ := Option.bind_eq_some_iff.mp h
  simp only [bind, Option.bind_eq_some_iff] at rest
  grind

theorem namesItems_iff {files : Files} {backendSummary : Json} {images : List ImageEntry}
    (hitems : buildItemsFromPairTimeline cls (getArray backendSummary "pairTimeline") start =
      some items)
    (himages : mergeHistoryImageIndexes cls files backendSummary = some images) :
    NamesItems images items ↔ findImages files backendSummary = some [] := by
  obtain ⟨found, hfound, hbuilt⟩ := Option.bind_eq_some_iff.mp himages
  rw [hfound, Option.some_inj]
  cases found with
  | nil =>
    obtain rfl := Option.some.inj hbuilt
    exact iff_of_true (fun _ hmem => nomatch hmem) rfl
  | cons first rest =>
    -- the first image has the number 0
    refine iff_of_false (fun hnames => ?_) (List.cons_ne_nil _ _)
    rw [List.zipIdx_cons, List.mapM_cons] at hbuilt
    obtain ⟨image, himage, hrest⟩ := Option.bind_eq_some_iff.mp hbuilt
    obtain ⟨later, -, heq⟩ := Option.bind_eq_some_iff.mp hrest
    obtain rfl := Option.some.inj heq
    obtain ⟨item, hitem, -, hid⟩ := hnames image List.mem_cons_self
    have hmem : item.id ∈ items.map (·.id) := List.mem_map_of_mem hitem
    rw [ids_buildItems hitems] at hmem
    obtain ⟨e, -, he⟩ := List.mem_map.mp hmem
    exact absurd ((compareItemId_buildImage himage).symm.trans (hid.symm.trans he.symm))
      sanitizeItemId_image_ne_item

/-- **Which items and images an id tells apart.** -/
theorem compareItemIds (cls : LetterOrDigit) (files : Files) (start : ℚ) :
    (∀ pairTimeline items, buildItemsFromPairTimeline cls pairTimeline start = some items →
      (DistinctIds pairTimeline items ↔ DistinctTexts cls pairTimeline)) ∧
    (∀ suiteManifest items,
      buildItemsFromSuiteManifest cls files suiteManifest start = some items →
      ∃ pairs, suitePairs files suiteManifest = some pairs ∧
        (DistinctIds pairs items ↔ DistinctTexts cls pairs)) ∧
    ∀ backendSummary items images,
      buildItemsFromPairTimeline cls (getArray backendSummary "pairTimeline") start = some items →
      mergeHistoryImageIndexes cls files backendSummary = some images →
      (NamesItems images items ↔ findImages files backendSummary = some []) := by
  refine ⟨fun _ _ => distinctIds_iff, fun suiteManifest items h => ?_, fun _ _ _ => namesItems_iff⟩
  obtain ⟨pairs, hpairs, hitems⟩ := Option.bind_eq_some_iff.mp h
  exact ⟨pairs, hpairs, distinctIds_iff hitems⟩

def asciiLetterOrDigit : LetterOrDigit where
  holds := Char.isAlphanum
  digit := fun c hc => by rw [Char.isAlphanum, hc, Bool.or_true]
  dash := rfl

def plainPair (targetPath : String) : Json :=
  .obj [("targetPath", .str targetPath), ("mode", .str "default"), ("pairIndex", .num 1)]

theorem compareItemIds_letters :
    DistinctTexts asciiLetterOrDigit [plainPair "a/b", plainPair "a/c"] := by
  refine ((compareItemIds asciiLetterOrDigit (fun _ => none) 0).1 _ _ rfl).mp ?_
  unfold DistinctIds
  decide +kernel

/-- A directory and a dash. -/
theorem not_distinctIds_dash :
    ∃ items, buildItemsFromPairTimeline asciiLetterOrDigit [plainPair "a/b", plainPair "a-b"] 0 =
      some items ∧ ¬ DistinctIds [plainPair "a/b", plainPair "a-b"] items := by
  refine ⟨_, rfl, ?_⟩
  unfold DistinctIds
  decide +kernel

end CompareVI.CompareItems
