import CompareVI.Framework.PsString
import CompareVI.Framework.Tokens
import CompareVI.Framework.Words

/-!
# The flags of a history mode

For each mode the history script builds one list of compare flags (`Build-FlagBundle`): the
flags that the mode suppresses differences by, and the tokens of the two strings that the user
gave. The list goes to `Compare-RefsToTemp.ps1` as one string, joined by blanks, and is split
into tokens again there.

`Split-ArgString` is the tokenizer of PowerShell, here taken as the scanner of
`Framework.Words`: it cuts at white space and strips the quotes, and a quote that is left open
is an error, which the history script throws on and the other one ignores.

What is given with a value need not arrive with it. The list is cleared of repetitions token by
token, so the value of a second flag is lost with the first one's, and it is joined without
quotes, so a value with a blank falls apart. `flagLaw_iff` says exactly when neither happens.
-/

open Framework
open Framework.PsString

namespace CompareVI.HistoryFlags

abbrev Text := List Char

/-! ### Tokens -/

def isQuote (c : Char) : Bool := c = '"' || c = '\''

/-- `-not [string]::IsNullOrWhiteSpace` of a token. -/
def notBlank (token : Text) : Bool := !token.all isWhiteSpace

/-- `Split-ArgString` of `Compare-VIHistory.ps1`. It throws on a quote that is left open. -/
def splitArgString (value : Text) : Option (List Text) :=
  if value.all isWhiteSpace then some []
  else if Words.unterminated isWhiteSpace isQuote value then none
  else some ((Words.words isWhiteSpace isQuote value).filter notBlank)

/-- `Split-ArgString` of `Compare-RefsToTemp.ps1`. -/
def splitArgStringRefs (value : Text) : List Text :=
  if value.all isWhiteSpace then []
  else (Words.words isWhiteSpace isQuote value).filter notBlank

/-! ### Modes -/

/-- The names of `modeDefinitions`. -/
inductive ModeName where
  | default
  | attributes
  | frontPanel
  | blockDiagram
  | full
  | custom
  deriving DecidableEq, Repr

/-- The switches for the flags that suppress differences. -/
structure Suppress where
  forceNoBd : Bool
  flagNoAttr : Bool
  flagNoFp : Bool
  flagNoFpPos : Bool
  flagNoBdCosm : Bool
  deriving DecidableEq, Repr

/-- The result of `Resolve-ModeSpec`, with its adjustments as they are applied. -/
structure ModeSpec where
  name : ModeName
  presetFlags : Option (List Text)
  adjust : Suppress → Suppress

def modeDefinitions (name : ModeName) : ModeSpec where
  name := name
  presetFlags := none
  adjust s :=
    match name with
    | .default => s
    | .attributes => { s with flagNoAttr := false }
    | .frontPanel => { s with flagNoFp := false, flagNoFpPos := false }
    | .blockDiagram => { s with flagNoBdCosm := false }
    | .full => ⟨false, false, false, false, false⟩
    | .custom => s

theorem modeDefinitions_name (mode : ModeName) : (modeDefinitions mode).name = mode := rfl

theorem modeDefinitions_presetFlags (mode : ModeName) :
    (modeDefinitions mode).presetFlags = none := rfl

/-- The parameters of the script that the flags are built from. -/
structure FlagOptions where
  suppress : Suppress
  replaceFlags : Bool
  additionalFlags : Text
  lvCompareArgs : Text

/-! ### The bundle -/

def Suppress.flags (s : Suppress) : List Text :=
  (if s.forceNoBd then ["-nobd".toList] else []) ++
  (if s.flagNoAttr then ["-noattr".toList] else []) ++
  (if s.flagNoFp then ["-nofp".toList] else []) ++
  (if s.flagNoFpPos then ["-nofppos".toList] else []) ++
  (if s.flagNoBdCosm then ["-nobdcosm".toList] else [])

/-- The loop that ends `Build-CustomFlags` and `Build-FlagBundle`. -/
def uniqueFlags (flags : List Text) : List Text := (flags.filter notBlank).eraseDups

def buildCustomFlags (suppress : Suppress) (additionalFlags lvCompareArgs : Text) :
    Option (List Text) :=
  (splitArgString additionalFlags).bind fun additional =>
    (splitArgString lvCompareArgs).map fun args =>
      uniqueFlags (suppress.flags ++ additional ++ args)

def buildFlagBundle (spec : ModeSpec) (replaceFlags : Bool) (additionalFlags lvCompareArgs : Text)
    (suppress : Suppress) : Option (List Text) :=
  (spec.presetFlags.or (buildCustomFlags suppress additionalFlags lvCompareArgs)).bind
    fun preset =>
      let flags := if spec.name = .full then [] else preset.filter notBlank
      if replaceFlags && lvCompareArgs ≠ [] then
        (splitArgString lvCompareArgs).map fun args => uniqueFlags (args.filter notBlank)
      else
        (if !replaceFlags && !additionalFlags.all isWhiteSpace then
          splitArgString additionalFlags else some []).bind fun additional =>
          (if lvCompareArgs ≠ [] then splitArgString lvCompareArgs else some []).map fun args =>
            uniqueFlags (flags ++ additional.filter notBlank ++ args.filter notBlank)

def modeFlags (o : FlagOptions) (mode : ModeName) : Option (List Text) :=
  (buildFlagBundle (modeDefinitions mode) o.replaceFlags o.additionalFlags o.lvCompareArgs
    ((modeDefinitions mode).adjust o.suppress)).map (·.filter notBlank)

/-- The value of `-LvCompareArgs` in `compareArgs`, if it is there. -/
def compareArg (flags : List Text) : Option Text :=
  if flags.length > 0 then some (List.intercalate [' '] flags) else none

/-- `$flagTokens` of `Compare-RefsToTemp.ps1`; a parameter that is not given is empty. -/
def flagTokens (lvCompareArgs : Option Text) : List Text :=
  splitArgStringRefs (lvCompareArgs.getD [])

/-! ### The law -/

def isFlag (token : Text) : Bool := token.head? = some '-'

/-- The user gave the flag with the value in one of the two strings. -/
def GivenWith (additional args : List Text) (flag value : Text) : Prop :=
  isFlag flag = true ∧ isFlag value = false ∧
    ([flag, value] <:+: additional ∨ [flag, value] <:+: args)

/-- What the flags of a mode keep of the arguments that the user gave. -/
structure FlagLaw (o : FlagOptions) (mode : ModeName) : Prop where
  /-- Every flag that was given with a value stands in the list with this value after it. -/
  valued : ∀ flags additional args flag value, modeFlags o mode = some flags →
    splitArgString o.additionalFlags = some additional →
    splitArgString o.lvCompareArgs = some args → GivenWith additional args flag value →
    [flag, value] <:+: flags
  recovered : ∀ flags, modeFlags o mode = some flags → flagTokens (compareArg flags) = flags

def takenTokens (o : FlagOptions) (mode : ModeName) (additional args : List Text) : List Text :=
  if o.replaceFlags && o.lvCompareArgs ≠ [] then args
  else if mode = .full then (if o.replaceFlags then [] else additional) ++ args
  else ((modeDefinitions mode).adjust o.suppress).flags ++ additional ++ args

/-- The condition on the tokens: the first new one after the first copy of a flag that was given
with a value is this value, and no token holds white space or a quote. -/
structure KeepsTokens (o : FlagOptions) (mode : ModeName) (additional args : List Text) :
    Prop where
  valued : ∀ flag value, GivenWith additional args flag value →
    Tokens.nextNew flag (takenTokens o mode additional args) = some value
  plain : ∀ token ∈ takenTokens o mode additional args, Words.Plain isWhiteSpace isQuote token

/-! ### The list of a mode -/

variable {o : FlagOptions} {mode : ModeName} {value : Text} {tokens additional args : List Text}

theorem notBlank_of_mem_splitArgString (h : splitArgString value = some tokens) :
    ∀ token ∈ tokens, notBlank token = true := by
  intro token htoken
  unfold splitArgString at h
  split at h
  · obtain rfl := Option.some.inj h
    cases htoken
  · split at h
    · exact nomatch h
    · obtain rfl := Option.some.inj h
      exact (List.mem_filter.mp htoken).2

theorem splitArgString_blank (h : value.all isWhiteSpace = true)
    (hsplit : splitArgString value = some tokens) : tokens = [] := by
  rw [splitArgString, if_pos h] at hsplit
  exact (Option.some.inj hsplit).symm

theorem Suppress.notBlank_flags (s : Suppress) : ∀ token ∈ s.flags, notBlank token = true := by
  intro token htoken
  simp only [Suppress.flags, List.mem_append, or_assoc, List.mem_ite_nil_right,
    List.mem_singleton] at htoken
  rcases htoken with ⟨-, rfl⟩ | ⟨-, rfl⟩ | ⟨-, rfl⟩ | ⟨-, rfl⟩ | ⟨-, rfl⟩ <;> decide +kernel

theorem uniqueFlags_eq (h : ∀ token ∈ tokens, notBlank token = true) :
    uniqueFlags tokens = tokens.eraseDups := by
  rw [uniqueFlags, List.filter_eq_self.mpr h]

variable {flags xs ys : List Text}

theorem notBlank_append (hx : ∀ token ∈ xs, notBlank token = true)
    (hy : ∀ token ∈ ys, notBlank token = true) : ∀ token ∈ xs ++ ys, notBlank token = true :=
  fun token h => (List.mem_append.mp h).elim (hx token) (hy token)

theorem notBlank_takenTokens (mode : ModeName)
    (ha : splitArgString o.additionalFlags = some additional)
    (hl : splitArgString o.lvCompareArgs = some args) :
    ∀ token ∈ takenTokens o mode additional args, notBlank token = true := by
  have hadditional := notBlank_of_mem_splitArgString ha
  have hargs := notBlank_of_mem_splitArgString hl
  unfold takenTokens
  split
  · exact hargs
  · split
    · split
      · exact hargs
      · exact notBlank_append hadditional hargs
    · exact notBlank_append (notBlank_append (Suppress.notBlank_flags _) hadditional) hargs

theorem eraseDups_custom (custom : List Text) (hx : xs ⊆ custom) (hy : ys ⊆ custom) :
    (custom.eraseDups ++ xs ++ ys).eraseDups = custom.eraseDups := by
  have hsubset : xs ++ ys ⊆ custom.eraseDups := fun token h =>
    List.mem_eraseDups.mpr ((List.mem_append.mp h).elim (fun h => hx h) fun h => hy h)
  rw [List.append_assoc, Tokens.eraseDups_append_of_subset hsubset, Tokens.eraseDups_eraseDups]

theorem added_additional (ha : splitArgString o.additionalFlags = some additional) :
    (if !o.replaceFlags && !o.additionalFlags.all isWhiteSpace then
      splitArgString o.additionalFlags else some []) =
      some (if o.replaceFlags then [] else additional) := by
  cases o.replaceFlags with
  | true => rfl
  | false =>
    rw [Bool.not_false, Bool.true_and]
    split
    · exact ha
    · next hblank =>
      have hnil := splitArgString_blank (by simpa using hblank) ha
      rw [hnil]
      rfl

theorem added_args (hl : splitArgString o.lvCompareArgs = some args) :
    (if o.lvCompareArgs ≠ [] then splitArgString o.lvCompareArgs else some []) = some args := by
  split
  · exact hl
  · next hempty =>
    have hblank : o.lvCompareArgs.all isWhiteSpace = true := by rw [not_not.mp hempty]; rfl
    rw [splitArgString_blank hblank hl]

/-- **The list of a mode** is made of the taken tokens, each at its first place. -/
theorem modeFlags_eq (mode : ModeName) (ha : splitArgString o.additionalFlags = some additional)
    (hl : splitArgString o.lvCompareArgs = some args) :
    modeFlags o mode = some (takenTokens o mode additional args).eraseDups := by
  have htaken := notBlank_takenTokens mode ha hl
  have hadditional := notBlank_of_mem_splitArgString ha
  have hargs := notBlank_of_mem_splitArgString hl
  have hadded : ∀ token ∈ if o.replaceFlags then [] else additional, notBlank token = true := by
    split
    · exact List.forall_mem_nil _
    · exact hadditional
  have hbundle : buildFlagBundle (modeDefinitions mode) o.replaceFlags o.additionalFlags
      o.lvCompareArgs ((modeDefinitions mode).adjust o.suppress) =
      some (takenTokens o mode additional args).eraseDups := by
    have hcustom := notBlank_append (notBlank_append
      (Suppress.notBlank_flags ((modeDefinitions mode).adjust o.suppress)) hadditional) hargs
    unfold buildFlagBundle buildCustomFlags takenTokens
    rw [added_additional ha, added_args hl, ha, hl, Option.bind_some, Option.map_some,
      uniqueFlags_eq hcustom]
    dsimp only
    rw [modeDefinitions_presetFlags, Option.none_or, Option.bind_some, Option.bind_some,
      Option.map_some, Option.map_some, List.filter_eq_self.mpr hargs,
      List.filter_eq_self.mpr hadded, uniqueFlags_eq hargs]
    split
    · rfl
    · by_cases hfull : mode = .full
      · -- the mode that suppresses nothing starts from an empty list
        rw [if_pos ((modeDefinitions_name mode).trans hfull), if_pos hfull, List.nil_append,
          uniqueFlags_eq (notBlank_append hadded hargs)]
      · have hkept := List.filter_eq_self.mpr fun token h =>
          hcustom token (List.mem_eraseDups.mp h)
        have hsub : (if o.replaceFlags then [] else additional) ⊆ additional := by
          split
          · exact List.nil_subset _
          · exact fun token h => h
        have hname : ¬ (modeDefinitions mode).name = .full := hfull
        rw [if_neg hname, if_neg hfull, hkept, uniqueFlags_eq (notBlank_append (notBlank_append
          (fun token h => hcustom token (List.mem_eraseDups.mp h)) hadded) hargs),
          eraseDups_custom]
        · exact fun token h => List.mem_append_left _ (List.mem_append_right _ (hsub h))
        · exact fun token h => List.mem_append_right _ h
  rw [modeFlags, hbundle, Option.map_some, List.filter_eq_self.mpr]
  exact fun token h => htaken token (List.mem_eraseDups.mp h)

theorem splits_of_modeFlags (h : modeFlags o mode = some flags) :
    ∃ additional args, splitArgString o.additionalFlags = some additional ∧
      splitArgString o.lvCompareArgs = some args := by
  obtain ⟨bundle, hbundle, -⟩ := Option.map_eq_some_iff.mp h
  obtain ⟨preset, hpreset, -⟩ := Option.bind_eq_some_iff.mp hbundle
  rw [modeDefinitions, Option.none_or] at hpreset
  obtain ⟨additional, ha, hrest⟩ := Option.bind_eq_some_iff.mp hpreset
  obtain ⟨args, hl, -⟩ := Option.map_eq_some_iff.mp hrest
  exact ⟨additional, args, ha, hl⟩

/-! ### Joining and splitting -/

theorem exists_of_notBlank {token : Text} (h : notBlank token = true) :
    ∃ c ∈ token, isWhiteSpace c = false := by
  rw [notBlank, Bool.not_eq_true', List.all_eq_false] at h
  obtain ⟨c, hc, hblank⟩ := h
  exact ⟨c, hc, Bool.eq_false_iff.mpr hblank⟩

theorem flagTokens_compareArg_iff (hflags : ∀ token ∈ flags, notBlank token = true) :
    flagTokens (compareArg flags) = flags ↔
      ∀ token ∈ flags, Words.Plain isWhiteSpace isQuote token := by
  cases flags with
  | nil => exact iff_of_true rfl fun token h => absurd h List.not_mem_nil
  | cons token rest =>
    have hne : ∀ t ∈ token :: rest, t ≠ [] := by
      rintro t ht rfl
      exact absurd (hflags [] ht) (by decide)
    have hjoin : ¬ (List.intercalate [' '] (token :: rest)).all isWhiteSpace = true := by
      obtain ⟨c, hc, hvisible⟩ := exists_of_notBlank (hflags token List.mem_cons_self)
      intro hall
      have hblank := List.all_eq_true.mp hall c (Words.mem_join List.mem_cons_self hc)
      rw [hvisible] at hblank
      exact nomatch hblank
    have harg : compareArg (token :: rest) = some (List.intercalate [' '] (token :: rest)) :=
      if_pos (Nat.succ_pos rest.length)
    rw [harg, flagTokens, Option.getD_some, splitArgStringRefs, if_neg hjoin]
    exact Words.words_join_iff notBlank (by decide) (by decide) hne hflags

/-- **The flags of a mode** keep what the user gave exactly when the tokens of the two strings
keep the condition. -/
theorem flagLaw_iff (o : FlagOptions) (mode : ModeName) :
    FlagLaw o mode ↔ ∀ additional args, splitArgString o.additionalFlags = some additional →
      splitArgString o.lvCompareArgs = some args → KeepsTokens o mode additional args := by
  constructor
  · intro hlaw additional args ha hl
    have hflags := modeFlags_eq mode ha hl
    have hkeep := notBlank_takenTokens mode ha hl
    constructor
    · intro flag value hgiven
      rw [← Tokens.pair_infix_eraseDups_iff]
      exact hlaw.valued _ additional args flag value hflags ha hl hgiven
    · intro token htoken
      have hrecovered := hlaw.recovered _ hflags
      rw [flagTokens_compareArg_iff fun t ht => hkeep t (List.mem_eraseDups.mp ht)] at hrecovered
      exact hrecovered token (List.mem_eraseDups.mpr htoken)
  · intro hcondition
    constructor
    · intro flags additional args flag value hflags ha hl hgiven
      obtain rfl := Option.some.inj ((modeFlags_eq mode ha hl).symm.trans hflags)
      rw [Tokens.pair_infix_eraseDups_iff]
      exact (hcondition additional args ha hl).valued flag value hgiven
    · intro flags hflags
      obtain ⟨additional, args, ha, hl⟩ := splits_of_modeFlags hflags
      obtain rfl := Option.some.inj ((modeFlags_eq mode ha hl).symm.trans hflags)
      have hkeep := notBlank_takenTokens mode ha hl
      rw [flagTokens_compareArg_iff fun t ht => hkeep t (List.mem_eraseDups.mp ht)]
      exact fun token h =>
        (hcondition additional args ha hl).plain token (List.mem_eraseDups.mp h)

def repeatedValue : FlagOptions where
  suppress := ⟨true, true, true, true, true⟩
  replaceFlags := false
  additionalFlags := "-c 1 -b 1".toList
  lvCompareArgs := []

/-- The second flag has lost its value. -/
theorem not_flagLaw_repeatedValue : ¬ FlagLaw repeatedValue .default := by
  intro h
  have hsplit : splitArgString repeatedValue.additionalFlags =
      some ["-c".toList, "1".toList, "-b".toList, "1".toList] := by decide +kernel
  have hgiven : GivenWith ["-c".toList, "1".toList, "-b".toList, "1".toList] [] "-b".toList
      "1".toList := ⟨by decide, by decide, .inl (by decide)⟩
  have hflags := @modeFlags_eq repeatedValue _ [] .default hsplit rfl
  have hwithin := h.valued _ _ [] _ _ hflags hsplit rfl hgiven
  rw [Tokens.pair_infix_eraseDups_iff] at hwithin
  exact absurd hwithin (by decide +kernel)

end CompareVI.HistoryFlags
