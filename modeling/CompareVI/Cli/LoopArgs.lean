import CompareVI.Cli.ArgAgreement
import CompareVI.Cli.ArgTokenList
import CompareVI.Framework.Loop

/-!
# The arguments of the compare loop

`Invoke-IntegrationCompareLoop` splits its argument string by itself, once for the preview and
once in each iteration, and leaves the string to `Invoke-CompareVI` where no executor is given,
which splits it by `Get-LVCompareArgTokens` and `Convert-ArgTokenList`.

The two agree on a string exactly if nothing in it is treated by one side only
(`loopArgsLaw_iff`). That a list of tokens is then rewritten by neither side comes from their
weight: whatever only `Get-LVCompareArgTokens` takes away is missing at the end.
-/

open Framework
open Framework.PsString

namespace CompareVI.ArgTokens

/-! ### The loop -/

def shownValue (val : Text) : List Text := if val = [] then [] else [normalizePathToken val]

def normalizeArg (tok : Text) : Option (List Text) :=
  if isFlag tok then
    match cut (· = '=') tok with
    | some (flag, val) => (unquote val).map fun val => flag :: shownValue val
    | none =>
      match cut (· = ' ') tok with
      | some (flag, val) => some (flag :: shownValue val)
      | none => some [tok]
  else some [normalizePathToken tok]

def unquotedArgs (lvCompareArgs : Text) : Option (List Text) :=
  ((matchesFrom 0 lvCompareArgs).mapM fun t => unquote (trimList t)).map
    (List.filter fun tok => tok ≠ [])

/-- The arguments that the loop makes of the string. The code is there twice. It throws at a
single quote. -/
def loopArgs (lvCompareArgs : Text) : Option (List Text) :=
  (unquotedArgs lvCompareArgs).bind fun args => (args.mapM normalizeArg).map List.flatten

def previewArgsList (lvCompareArgs : Text) : Option (List Text) := loopArgs lvCompareArgs

/-- `$argsList` of an iteration. -/
def argsList (lvCompareArgs : Text) : Option (List Text) := loopArgs lvCompareArgs

/-- `$cliArgs` of `Invoke-CompareVI`. -/
def cliArgs (lvCompareArgs : Text) : Option (List Text) :=
  convertArgTokenList (getLVCompareArgTokens (.text lvCompareArgs))

/-! ### The law -/

/-- What the preview shows is what the iterations run with. -/
def LoopArgsLaw (lvCompareArgs : Text) : Prop :=
  ∀ shown, previewArgsList lvCompareArgs = some shown →
    argsList lvCompareArgs = some shown ∧ cliArgs lvCompareArgs = some shown

/-- A single quote. -/
def IsLoneQuote (t : Text) : Prop := t = ['"'] ∨ t = ['\'']

def arguments (lvCompareArgs : Text) : List Text :=
  ((matchesFrom 0 lvCompareArgs).map stripOuterQuotes).filter fun t => t ≠ []

/-- The text before the first `=`, or else before the first white space, and the text behind
it. -/
def splitArg (t : Text) : Text × Text :=
  ((cut (· = '=') t).or (cut isWhiteSpace t)).getD (t, [])

def valueOf (t : Text) : Text := stripOuterQuotes (splitArg t).2

/-- A flag that both sides split alike. -/
structure AlikeFlag (t : Text) : Prop where
  flag : Kept (splitArg t).1
  value : valueOf t = [] ∨ Kept (valueOf t)
  /-- The quotes are all there is to take away from a value behind `=`. -/
  assigned : '=' ∈ t → unquote (splitArg t).2 = some (valueOf t)
  /-- Without `=` it is the first blank that is split at, and there is nothing to take away. -/
  spaced : '=' ∉ t → cut isWhiteSpace t = cut (· = ' ') t ∧ valueOf t = (splitArg t).2

/-- An argument that both sides read alike. -/
def AlikeArg (t : Text) : Prop := if isFlag t then AlikeFlag t else Kept t

def endsInFlag (t : Text) : Bool := isFlag t && (valueOf t = [] || isFlag (valueOf t))

/-- A single quote stands for an argument, or behind the `=` of a flag. -/
def HasLoneQuote (lvCompareArgs : Text) : Prop :=
  (∃ t ∈ matchesFrom 0 lvCompareArgs, IsLoneQuote (trimList t)) ∨
    ∃ t ∈ arguments lvCompareArgs, isFlag t = true ∧
      ∃ flag val, cut (· = '=') t = some (flag, val) ∧ IsLoneQuote val

/-- What both sides read alike. -/
structure Alike (lvCompareArgs : Text) : Prop where
  matched : lvCompareArgs.all isWhiteSpace = true ∨ matchesFrom 0 lvCompareArgs ≠ []
  argument : ∀ t ∈ arguments lvCompareArgs, AlikeArg t
  /-- Behind the first flag no value directly follows a value. -/
  separated : ((arguments lvCompareArgs).dropWhile fun t => !isFlag t).IsChain
    fun a b => endsInFlag a = true ∨ isFlag b = true

/-! ### Quotes -/

theorem unquote_eq_none_iff {t : Text} : unquote t = none ↔ IsLoneQuote t := by
  rw [unquote, IsLoneQuote]
  constructor
  · intro h
    split at h
    · next hquoted =>
      split at h
      · next hshort =>
        rcases t with _ | ⟨c, _ | ⟨d, rest⟩⟩
        · exact absurd hquoted (by decide)
        · simp only [List.head?_cons, Option.some.injEq, Bool.or_eq_true, Bool.and_eq_true,
            decide_eq_true_eq] at hquoted
          obtain ⟨rfl, -⟩ | ⟨rfl, -⟩ := hquoted
          · exact .inl rfl
          · exact .inr rfl
        · rw [List.length_cons, List.length_cons] at hshort
          omega
      · cases h
    · cases h
  · rintro (rfl | rfl)
    · rfl
    · rfl

theorem stripOuterQuotes_of_unquote {t u : Text} (h : unquote (trimList t) = some u) :
    stripOuterQuotes t = u := by
  rw [unquote] at h
  rw [stripOuterQuotes]
  split at h
  · next hquoted =>
    have hne : trimList t ≠ [] := by
      intro hnil
      rw [hnil] at hquoted
      exact absurd hquoted (by decide)
    rw [if_neg hne, if_pos hquoted]
    split at h
    · cases h
    · next hlong =>
      exact (if_pos (Nat.not_lt.mp hlong)).trans (Option.some.inj h)
  · next hquoted =>
    rw [if_neg hquoted]
    split
    · next hnil => exact hnil.symm.trans (Option.some.inj h)
    · exact Option.some.inj h

theorem stripOuterQuotes_trimList (t : Text) :
    stripOuterQuotes (trimList t) = stripOuterQuotes t := by
  rw [stripOuterQuotes, stripOuterQuotes, trimList_trimList]

theorem mass_stripOuterQuotes_le (t : Text) : mass (stripOuterQuotes t) ≤ mass (trimList t) := by
  cases h : unquote (trimList t) with
  | some u =>
    rw [stripOuterQuotes_of_unquote h]
    exact mass_unquote_le h
  | none =>
    have hlone : stripOuterQuotes (trimList t) = [] := by
      rcases unquote_eq_none_iff.mp h with h | h
      · rw [h]; rfl
      · rw [h]; rfl
    rw [← stripOuterQuotes_trimList, hlone]
    exact Nat.succ_le_succ (Nat.zero_le _)

theorem stripOuterQuotes_cases {t u : Text} (h : unquote t = some u) :
    stripOuterQuotes t = u ∨ mass (stripOuterQuotes t) < mass u := by
  by_cases htrim : trimList t = t
  · exact .inl (stripOuterQuotes_of_unquote (htrim.symm ▸ h))
  · right
    have hplain : u = t := by
      rw [unquote] at h
      split at h
      · next hquoted =>
        refine absurd (Tokens.trim_of_trimmed ⟨fun c hc => ?_, fun c hc => ?_⟩) htrim
        · simp only [Bool.or_eq_true, Bool.and_eq_true, decide_eq_true_eq] at hquoted
          rw [Option.mem_def] at hc
          obtain ⟨hhead, -⟩ | ⟨hhead, -⟩ := hquoted
          · obtain rfl := Option.some.inj (hhead.symm.trans hc)
            decide
          · obtain rfl := Option.some.inj (hhead.symm.trans hc)
            decide
        · simp only [Bool.or_eq_true, Bool.and_eq_true, decide_eq_true_eq] at hquoted
          rw [Option.mem_def] at hc
          obtain ⟨-, hlast⟩ | ⟨-, hlast⟩ := hquoted
          · obtain rfl := Option.some.inj (hlast.symm.trans hc)
            decide
          · obtain rfl := Option.some.inj (hlast.symm.trans hc)
            decide
      · exact (Option.some.inj h).symm
    rw [hplain]
    exact Nat.lt_of_le_of_lt (mass_stripOuterQuotes_le t) (mass_trimList_lt htrim)

/-! ### A flag, split -/

section Splitting

variable {t : Text}

theorem exists_trim_flag (hflag : isFlag t = true) :
    ∃ b, (∀ c ∈ b, isWhiteSpace c = true) ∧ t = trimList t ++ b := by
  obtain ⟨a, b, ha, hb, heq⟩ := Tokens.exists_eq_trim isWhiteSpace t
  rcases a with _ | ⟨c, a⟩
  · exact ⟨b, hb, heq⟩
  · obtain ⟨rest, hrest⟩ := List.head?_eq_some_iff.mp (of_decide_eq_true hflag)
    rw [hrest, List.cons_append] at heq
    have hc := ha c List.mem_cons_self
    rw [← (List.cons.inj heq).1] at hc
    exact absurd hc (by decide)

theorem isFlag_trimList (hflag : isFlag t = true) : isFlag (trimList t) = true := by
  obtain ⟨b, hb, heq⟩ := exists_trim_flag hflag
  have hhead := of_decide_eq_true hflag
  rw [heq] at hhead
  rcases htrim : trimList t with _ | ⟨c, rest⟩
  · rw [htrim, List.nil_append] at hhead
    have hdash := hb '-' (List.mem_of_head? hhead)
    exact absurd hdash (by decide)
  · rw [htrim] at hhead
    exact decide_eq_true hhead

variable {a b : Text}

theorem cut_append {p : Char → Bool} {cs : Text} (h : cut p cs = some (a, b)) (more : Text) :
    cut p (cs ++ more) = some (a, b ++ more) := by
  obtain ⟨hne, ha, c, hc, rfl⟩ := cut_eq_some_iff.mp h
  exact cut_eq_some_iff.mpr ⟨hne, ha, c, hc, List.append_assoc _ _ _⟩

theorem trimList_append (hb : ∀ c ∈ b, isWhiteSpace c = true) (a : Text) :
    trimList (a ++ b) = trimList a := Tokens.trim_append hb a

theorem stripOuterQuotes_congr (h : trimList a = trimList b) :
    stripOuterQuotes a = stripOuterQuotes b := by
  rw [← stripOuterQuotes_trimList, h, stripOuterQuotes_trimList]

theorem stripOuterQuotes_of_blank (hb : ∀ c ∈ b, isWhiteSpace c = true) :
    stripOuterQuotes b = [] := by
  rw [← stripOuterQuotes_trimList, all_isWhiteSpace_iff.mp (List.all_eq_true.mpr hb)]
  rfl

theorem splitArg_cases (hflag : isFlag t = true) :
    (∃ flag val, cut (· = '=') t = some (flag, val) ∧ splitArg t = (flag, val)) ∨
      '=' ∉ t ∧ ((∃ flag val, cut isWhiteSpace t = some (flag, val) ∧ splitArg t = (flag, val)) ∨
        (∀ c ∈ t, isWhiteSpace c = false) ∧ splitArg t = (t, [])) := by
  have hdash := of_decide_eq_true hflag
  rw [splitArg]
  cases heq : cut (· = '=') t with
  | some pair => exact .inl ⟨pair.1, pair.2, rfl, rfl⟩
  | none =>
    refine .inr ⟨(cut_char_eq_none_iff hdash (by decide)).mp heq, ?_⟩
    cases hws : cut isWhiteSpace t with
    | some pair => exact .inl ⟨pair.1, pair.2, rfl, rfl⟩
    | none => exact .inr ⟨(cut_eq_none_iff hdash (by decide)).mp hws, rfl⟩

theorem total_shownValue (val : Text) :
    total (shownValue val) = if val = [] then 0 else mass val := by
  rw [shownValue]
  split
  · rfl
  · rw [total_cons, mass_normalizePathToken]
    rfl

theorem mass_pos (t : Text) : 0 < mass t := Nat.succ_pos _

theorem total_value {val w : Text} (h : val = w ∨ mass val < mass w) :
    total ([val].filter fun t => !t.all isWhiteSpace) ≤ total (shownValue w) ∧
      (total (shownValue w) ≤ total ([val].filter fun t => !t.all isWhiteSpace) →
        val = w ∧ (val ≠ [] → val.all isWhiteSpace = false)) := by
  have hfilter : total ([val].filter fun t => !t.all isWhiteSpace) =
      if val.all isWhiteSpace = true then 0 else mass val := by
    rw [List.filter_cons]
    cases val.all isWhiteSpace with
    | true => rfl
    | false => rfl
  have hpos := mass_pos val
  rw [hfilter, total_shownValue]
  rcases h with rfl | hlt
  · by_cases hnil : val = []
    · subst hnil
      exact ⟨Nat.le_refl _, fun _ => ⟨rfl, fun h => absurd rfl h⟩⟩
    · rw [if_neg hnil]
      cases hblank : val.all isWhiteSpace with
      | true =>
        rw [if_pos rfl]
        exact ⟨Nat.zero_le _, fun hle => absurd hpos (Nat.not_lt_of_le hle)⟩
      | false =>
        rw [if_neg Bool.false_ne_true]
        exact ⟨Nat.le_refl _, fun _ => ⟨rfl, fun _ => rfl⟩⟩
  · have hw : w ≠ [] := by
      rintro rfl
      exact absurd (hpos.trans_le (Nat.lt_succ_iff.mp hlt)) (Nat.lt_irrefl 0)
    rw [if_neg hw]
    split
    · exact ⟨Nat.zero_le _, fun hle => absurd (mass_pos w) (Nat.not_lt_of_le hle)⟩
    · exact ⟨hlt.le, fun hle => absurd hlt (Nat.not_lt_of_le hle)⟩

theorem stripOuterQuotes_eq_or_lt (t : Text) :
    stripOuterQuotes t = t ∨ mass (stripOuterQuotes t) < mass t := by
  cases h : unquote t with
  | some u =>
    obtain heq | hlt := stripOuterQuotes_cases h
    · rw [heq]
      exact mass_unquote h
    · exact .inr (hlt.trans_le (mass_unquote_le h))
  | none =>
    right
    rcases unquote_eq_none_iff.mp h with rfl | rfl
    · decide
    · decide

theorem total_splitArg_le (hflag : isFlag t = true) :
    mass (splitArg t).1 + total (shownValue (splitArg t).2) ≤ mass t := by
  have hvalue : ∀ val, total (shownValue val) ≤ mass val := by
    intro val
    rw [total_shownValue]
    split
    · exact Nat.zero_le _
    · exact Nat.le_refl _
  have hcut : ∀ {p : Char → Bool} {flag val : Text}, cut p t = some (flag, val) →
      (∀ c, p c = true → 0 < charWeight c) → mass flag + total (shownValue val) ≤ mass t := by
    intro p flag val hcut hpos
    obtain ⟨-, -, c, hc, rfl⟩ := cut_eq_some_iff.mp hcut
    have hsplit := mass_split flag val c
    have hchar := hpos c hc
    have hle := hvalue val
    omega
  obtain ⟨flag, val, heq, hparts⟩ | ⟨-, ⟨flag, val, hws, hparts⟩ | ⟨-, hparts⟩⟩ :=
    splitArg_cases hflag
  · rw [hparts]
    refine hcut heq fun c hc => ?_
    rw [of_decide_eq_true hc]
    decide
  · rw [hparts]
    exact hcut hws fun c hc => charWeight_pos hc
  · rw [hparts]
    exact Nat.le_refl _

theorem expandFlagToken_flag (hflag : isFlag t = true) :
    expandFlagToken t = trimList (splitArg t).1 ::
      [valueOf t].filter fun val => !val.all isWhiteSpace := by
  obtain ⟨b, hb, hsplit⟩ := exists_trim_flag hflag
  have hflag' := isFlag_trimList hflag
  have hdash := of_decide_eq_true hflag
  have hdash' := of_decide_eq_true hflag'
  have hblank : t.all isWhiteSpace = false := by
    rw [Bool.eq_false_iff, Ne, all_isWhiteSpace_iff]
    intro hnil
    rw [hnil] at hdash'
    cases hdash'
  rw [expandFlagToken_eq hblank, if_pos hdash', valueOf, splitArg]
  cases heq : cut (· = '=') (trimList t) with
  | some pair =>
    obtain ⟨flag, val⟩ := pair
    have hcut := cut_append heq b
    rw [← hsplit] at hcut
    have hval : stripOuterQuotes (val ++ b) = stripOuterQuotes val :=
      stripOuterQuotes_congr (trimList_append hb val)
    rw [hcut, Option.some_or, Option.some_or, Option.getD_some]
    dsimp only
    rw [pieces_eq (head_of_cut hdash' heq), hval]
  | none =>
    have hnone : cut (· = '=') t = none := by
      rw [cut_char_eq_none_iff hdash (by decide)]
      rw [cut_char_eq_none_iff hdash' (by decide)] at heq
      rw [hsplit, List.mem_append, not_or]
      exact ⟨heq, fun hmem => absurd (hb '=' hmem) (by decide)⟩
    rw [hnone, Option.none_or, Option.none_or]
    cases hws : cut isWhiteSpace (trimList t) with
    | some pair =>
      obtain ⟨flag, val⟩ := pair
      have hcut := cut_append hws b
      rw [← hsplit] at hcut
      have hval : stripOuterQuotes (val ++ b) = stripOuterQuotes (val.dropWhile isWhiteSpace) :=
        stripOuterQuotes_congr ((trimList_append hb val).trans (Tokens.trim_dropWhile val).symm)
      rw [cutSpace, hws, hcut, Option.map_some, Option.getD_some]
      dsimp only
      rw [pieces_eq (head_of_cut hdash' hws), hval]
    | none =>
      have hplain := (cut_eq_none_iff hdash' (by decide)).mp hws
      rw [cutSpace, hws, Option.map_none]
      rcases b with _ | ⟨c, b⟩
      · rw [List.append_nil] at hsplit
        rw [← hsplit] at hws hplain
        rw [hws, Option.getD_none, trimList_of_forall hplain]
        rfl
      · -- white space at the end is cut off, and nothing is left of it
        have hne : trimList t ≠ [] := by
          intro hnil
          rw [hnil] at hdash'
          cases hdash'
        have hcut : cut isWhiteSpace t = some (trimList t, b) :=
          cut_eq_some_iff.mpr ⟨hne, hplain, c, hb c List.mem_cons_self, hsplit⟩
        have hnil : stripOuterQuotes b = [] :=
          stripOuterQuotes_of_blank fun c hc => hb c (List.mem_cons_of_mem _ hc)
        rw [hcut, Option.getD_some, hnil, trimList_trimList]
        rfl

theorem total_expandFlagToken_le (t : Text) : total (expandFlagToken t) ≤ mass (trimList t) := by
  cases hblank : t.all isWhiteSpace with
  | true =>
    rw [expandFlagToken_of_blank hblank]
    exact Nat.zero_le _
  | false =>
    cases hflag : isFlag (trimList t) with
    | true =>
      have hexpand : expandFlagToken t = expandFlagToken (trimList t) := by
        have hblank' : (trimList t).all isWhiteSpace = false := by
          rwa [Bool.eq_false_iff, Ne, all_isWhiteSpace_iff, trimList_trimList,
            ← all_isWhiteSpace_iff, ← Ne, ← Bool.eq_false_iff]
        rw [expandFlagToken_eq hblank, expandFlagToken_eq hblank', trimList_trimList]
      rw [hexpand, expandFlagToken_flag hflag, total_cons]
      have hparts := total_splitArg_le hflag
      have hfirst := mass_trimList_le (splitArg (trimList t)).1
      have hsecond := (total_value (stripOuterQuotes_eq_or_lt (splitArg (trimList t)).2)).1
      exact (Nat.add_le_add hfirst hsecond).trans hparts
    | false =>
      rw [expandFlagToken_eq hblank, if_neg (of_decide_eq_false hflag), total_cons, total_nil]
      exact Nat.le_refl _

end Splitting

/-! ### An argument on both sides -/

section Arguments

variable {t : Text} {shown : List Text}

/-- A flag that both sides split in the same place, into the same parts. -/
structure SplitFlag (t : Text) : Prop where
  flag : trimList (splitArg t).1 = (splitArg t).1
  value : valueOf t ≠ [] → (valueOf t).all isWhiteSpace = false
  assigned : '=' ∈ t → unquote (splitArg t).2 = some (valueOf t)
  spaced : '=' ∉ t → cut isWhiteSpace t = cut (· = ' ') t ∧ valueOf t = (splitArg t).2

theorem trimList_of_mass_le (h : mass t ≤ mass (trimList t)) : trimList t = t := by
  by_contra hne
  exact absurd (mass_trimList_lt hne) (Nat.not_lt_of_le h)

theorem total_parts {w : Text} (hflag : isFlag t = true)
    (hvalue : valueOf t = w ∨ mass (valueOf t) < mass w) :
    total (expandFlagToken t) ≤ total ((splitArg t).1 :: shownValue w) ∧
      (total ((splitArg t).1 :: shownValue w) ≤ total (expandFlagToken t) →
        trimList (splitArg t).1 = (splitArg t).1 ∧ valueOf t = w ∧
          (valueOf t ≠ [] → (valueOf t).all isWhiteSpace = false)) := by
  obtain ⟨hle, heq⟩ := total_value hvalue
  have hfirst := mass_trimList_le (splitArg t).1
  rw [expandFlagToken_flag hflag, total_cons, total_cons]
  refine ⟨Nat.add_le_add hfirst hle, fun hge => ⟨trimList_of_mass_le ?_, heq ?_⟩⟩
  · exact Nat.le_of_add_le_add_right (hge.trans (Nat.add_le_add_left hle _))
  · exact Nat.le_of_add_le_add_left (hge.trans (Nat.add_le_add_right hfirst _))

/-- A flag without `=` that is split at other white space than a blank: there the loop keeps
more. -/
theorem total_expandFlagToken_lt {flag val : Text} {k : Char} (hflag : isFlag t = true)
    (hparts : splitArg t = (flag, val)) (ht : t = flag ++ k :: val)
    (hk : isWhiteSpace k = true) (hblank : k ≠ ' ') (heq : '=' ∉ t)
    (hshown : normalizeArg t = some shown) : total (expandFlagToken t) < total shown := by
  have hdash := of_decide_eq_true hflag
  have hvalue : valueOf t = stripOuterQuotes val := by
    rw [valueOf, hparts]
  have hmass : mass t = mass flag + mass val + 1 := by
    have hsplit := mass_split flag val k
    have hweight : charWeight k = 2 := by
      rw [charWeight, if_neg, if_pos]
      · simp [hk, hblank]
      · intro hslash
        rw [Bool.or_eq_true, decide_eq_true_eq, decide_eq_true_eq] at hslash
        rcases hslash with rfl | rfl
        · exact absurd hk (by decide)
        · exact absurd hk (by decide)
    rw [ht]
    omega
  have hexpand : total (expandFlagToken t) ≤
      mass flag + total ([valueOf t].filter fun val => !val.all isWhiteSpace) := by
    rw [expandFlagToken_flag hflag, total_cons, hparts]
    exact Nat.add_le_add_right (mass_trimList_le flag) _
  have hval := (total_filter_le (valueOf t) fun val => !val.all isWhiteSpace).trans
    ((hvalue ▸ mass_stripOuterQuotes_le val : mass (valueOf t) ≤ mass (trimList val)))
  have htrim := mass_trimList_le val
  rw [normalizeArg, if_pos hflag, (cut_char_eq_none_iff hdash (by decide)).mpr heq] at hshown
  dsimp only at hshown
  split at hshown
  · next first behind hcut =>
    obtain ⟨-, -, c, hc, hsplit⟩ := cut_eq_some_iff.mp hcut
    obtain rfl : c = ' ' := of_decide_eq_true hc
    obtain rfl := Option.some.inj hshown
    have hsum := mass_split_blank first behind
    rw [← hsplit] at hsum
    rw [total_cons, total_shownValue]
    split
    · next hnil =>
      -- the blank is the last character, and it is trimmed from the value
      have hlast : t.getLast? = some ' ' := by
        rw [hsplit, hnil, List.getLast?_append]
        rfl
      have hne : trimList val ≠ val := by
        intro htrimmed
        rw [ht, List.getLast?_append, List.getLast?_cons, Option.some_or, Option.some.injEq]
          at hlast
        cases hlastval : val.getLast? with
        | none =>
          rw [hlastval] at hlast
          exact hblank hlast
        | some d =>
          rw [hlastval] at hlast
          obtain rfl : d = ' ' := hlast
          have hd := (htrimmed ▸ trimmed_trimList val : Tokens.Trimmed isWhiteSpace val).2 ' '
            hlastval
          exact absurd hd (by decide)
      have hlt := mass_trimList_lt hne
      have hone : mass behind = 1 := by
        rw [hnil]
        rfl
      omega
    · omega
  · obtain rfl := Option.some.inj hshown
    rw [total_cons, total_nil]
    omega

/-- **A flag**: the module keeps no more of it than the loop, and as much only if both split it
alike. -/
theorem total_flag (hflag : isFlag t = true) (hshown : normalizeArg t = some shown) :
    total (expandFlagToken t) ≤ total shown ∧
      (total shown ≤ total (expandFlagToken t) → SplitFlag t) := by
  have hdash := of_decide_eq_true hflag
  obtain ⟨flag, val, heq, hparts⟩ | ⟨heq, ⟨flag, val, hws, hparts⟩ | ⟨hplain, hparts⟩⟩ :=
    splitArg_cases hflag
  · have hmem : '=' ∈ t := by
      obtain ⟨-, -, c, hc, rfl⟩ := cut_eq_some_iff.mp heq
      rw [of_decide_eq_true hc]
      exact List.mem_append_right _ List.mem_cons_self
    rw [normalizeArg, if_pos hflag, heq] at hshown
    obtain ⟨u, hu, rfl⟩ := Option.map_eq_some_iff.mp hshown
    have hvalue : valueOf t = u ∨ mass (valueOf t) < mass u := by
      rw [valueOf, hparts]
      exact stripOuterQuotes_cases hu
    obtain ⟨hle, hge⟩ := total_parts hflag hvalue
    rw [hparts] at hle hge
    refine ⟨hle, fun htotal => ?_⟩
    obtain ⟨htrim, hval, hblank⟩ := hge htotal
    refine ⟨by rw [hparts]; exact htrim, hblank, fun _ => ?_, fun h => absurd hmem h⟩
    rw [hparts, hval]
    exact hu
  · obtain ⟨hne, hfirst, k, hk, ht⟩ := cut_eq_some_iff.mp hws
    by_cases hblank : k = ' '
    · have hcut : cut (· = ' ') t = some (flag, val) := by
        refine cut_eq_some_iff.mpr ⟨hne, fun x hx => decide_eq_false ?_, k,
          decide_eq_true hblank, ht⟩
        rintro rfl
        exact absurd (hfirst ' ' hx) (by decide)
      rw [normalizeArg, if_pos hflag, (cut_char_eq_none_iff hdash (by decide)).mpr heq] at hshown
      rw [hcut] at hshown
      obtain rfl := Option.some.inj hshown
      have hvalue : valueOf t = val ∨ mass (valueOf t) < mass val := by
        rw [valueOf, hparts]
        exact stripOuterQuotes_eq_or_lt val
      obtain ⟨hle, hge⟩ := total_parts hflag hvalue
      rw [hparts] at hle hge
      refine ⟨hle, fun htotal => ?_⟩
      obtain ⟨htrim, hval, hblank⟩ := hge htotal
      refine ⟨by rw [hparts]; exact htrim, hblank, fun h => absurd h heq, fun _ => ?_⟩
      rw [hws, hcut, hparts]
      exact ⟨rfl, hval⟩
    · have hlt := total_expandFlagToken_lt hflag hparts ht hk hblank heq hshown
      exact ⟨hlt.le, fun hge => absurd hlt (Nat.not_lt_of_le hge)⟩
  · have hnone : cut (· = ' ') t = none := (cut_char_eq_none_iff hdash (by decide)).mpr fun h =>
      absurd (hplain ' ' h) (by decide)
    have hvalue : valueOf t = [] := by
      rw [valueOf, hparts]
      rfl
    rw [normalizeArg, if_pos hflag, (cut_char_eq_none_iff hdash (by decide)).mpr heq] at hshown
    rw [hnone] at hshown
    obtain rfl := Option.some.inj hshown
    obtain ⟨hle, -⟩ := total_parts hflag (.inl hvalue)
    rw [hparts] at hle
    refine ⟨hle, fun _ => ⟨?_, fun h => absurd hvalue h, fun h => absurd h heq, fun _ => ?_⟩⟩
    · rw [hparts]
      exact trimList_of_forall hplain
    · rw [hnone, (cut_eq_none_iff hdash (by decide)).mpr hplain, hparts]
      exact ⟨rfl, hvalue⟩

theorem isFlag_splitArg (hflag : isFlag t = true) : isFlag (splitArg t).1 = true := by
  have hdash := of_decide_eq_true hflag
  obtain ⟨flag, val, heq, hparts⟩ | ⟨-, ⟨flag, val, hws, hparts⟩ | ⟨-, hparts⟩⟩ :=
    splitArg_cases hflag
  · rw [hparts]
    exact decide_eq_true (head_of_cut hdash heq)
  · rw [hparts]
    exact decide_eq_true (head_of_cut hdash hws)
  · rw [hparts]
    exact hflag

theorem SplitFlag.expand (h : SplitFlag t) (hflag : isFlag t = true) :
    expandFlagToken t = (splitArg t).1 :: ([valueOf t].filter fun val => val ≠ []) := by
  rw [expandFlagToken_flag hflag, h.flag]
  refine congrArg (_ :: ·) (List.filter_congr fun val hval => ?_)
  obtain rfl := List.mem_singleton.mp hval
  by_cases hnil : valueOf t = []
  · rw [hnil]
    rfl
  · rw [h.value hnil, decide_eq_true hnil]
    rfl

theorem SplitFlag.shown_eq (h : SplitFlag t) (hflag : isFlag t = true)
    (hshown : normalizeArg t = some shown) :
    shown = (splitArg t).1 :: shownValue (valueOf t) := by
  have hdash := of_decide_eq_true hflag
  rw [normalizeArg, if_pos hflag] at hshown
  obtain ⟨flag, val, heq, hparts⟩ | ⟨heq, hrest⟩ := splitArg_cases hflag
  · have hmem : '=' ∈ t := by
      obtain ⟨-, -, c, hc, rfl⟩ := cut_eq_some_iff.mp heq
      rw [of_decide_eq_true hc]
      exact List.mem_append_right _ List.mem_cons_self
    have hassigned := h.assigned hmem
    rw [heq] at hshown
    dsimp only at hshown
    rw [hparts] at hassigned ⊢
    rw [hassigned] at hshown
    exact (Option.some.inj hshown).symm
  · obtain ⟨hcut, hvalue⟩ := h.spaced heq
    rw [(cut_char_eq_none_iff hdash (by decide)).mpr heq] at hshown
    rw [← hcut] at hshown
    obtain ⟨flag, val, hws, hparts⟩ | ⟨hplain, hparts⟩ := hrest
    · rw [hws] at hshown
      rw [hvalue, hparts]
      exact (Option.some.inj hshown).symm
    · rw [(cut_eq_none_iff hdash (by decide)).mpr hplain] at hshown
      rw [hvalue, hparts]
      exact (Option.some.inj hshown).symm

theorem SplitFlag.shown_eq_map (h : SplitFlag t) (hflag : isFlag t = true)
    (hshown : normalizeArg t = some shown) :
    shown = (expandFlagToken t).map normalizePathToken := by
  rw [h.shown_eq hflag hshown, h.expand hflag, List.map_cons,
    normalizePathToken_of_flag (isFlag_splitArg hflag), shownValue, List.filter_cons]
  by_cases hnil : valueOf t = []
  · rw [if_pos hnil, decide_eq_false (not_not.mpr hnil)]
    rfl
  · rw [if_neg hnil, decide_eq_true hnil]
    rfl

theorem Kept.not_blank (h : Kept t) : t.all isWhiteSpace = false := by
  rw [Bool.eq_false_iff, Ne, all_isWhiteSpace_iff, h.settled.2.1]
  exact h.settled.1

theorem alikeFlag_iff (hflag : isFlag t = true) :
    AlikeFlag t ↔ SplitFlag t ∧ ∀ x ∈ expandFlagToken t, Kept x := by
  constructor
  · intro h
    have hsplit : SplitFlag t := by
      refine ⟨h.flag.settled.2.1, fun hne => ?_, h.assigned, h.spaced⟩
      exact (h.value.resolve_left hne).not_blank
    refine ⟨hsplit, fun x hx => ?_⟩
    rw [hsplit.expand hflag, List.mem_cons, List.mem_filter, List.mem_singleton] at hx
    obtain rfl | ⟨rfl, hne⟩ := hx
    · exact h.flag
    · exact h.value.resolve_left (of_decide_eq_true hne)
  · rintro ⟨hsplit, hkept⟩
    rw [hsplit.expand hflag] at hkept
    refine ⟨hkept _ List.mem_cons_self, ?_, hsplit.assigned, hsplit.spaced⟩
    by_cases hnil : valueOf t = []
    · exact .inl hnil
    · refine .inr (hkept _ (List.mem_cons_of_mem _ (List.mem_filter.mpr ⟨?_, ?_⟩)))
      · exact List.mem_singleton_self _
      · exact decide_eq_true hnil

theorem normalizeArg_value (hflag : isFlag t = false) :
    normalizeArg t = some [normalizePathToken t] := by
  rw [normalizeArg, hflag, if_neg Bool.false_ne_true]

theorem expandFlagToken_value (hne : t ≠ []) (htrim : trimList t = t)
    (hflag : isFlag t = false) : expandFlagToken t = [t] := by
  have hblank : t.all isWhiteSpace = false := by
    rwa [Bool.eq_false_iff, Ne, all_isWhiteSpace_iff, htrim]
  rw [expandFlagToken_eq hblank, htrim, if_neg (of_decide_eq_false hflag)]

/-- **An argument**: the module keeps no more of it than the loop; where it keeps as much, the
loop shows its tokens, and it is read alike if they are kept. -/
theorem total_argument (hne : t ≠ []) (hshown : normalizeArg t = some shown) :
    total (expandFlagToken t) ≤ total shown ∧
      (total shown ≤ total (expandFlagToken t) →
        shown = (expandFlagToken t).map normalizePathToken ∧
          ((∀ x ∈ expandFlagToken t, Kept x) → AlikeArg t)) := by
  cases hflag : isFlag t with
  | true =>
    obtain ⟨hle, hge⟩ := total_flag hflag hshown
    refine ⟨hle, fun htotal => ⟨(hge htotal).shown_eq_map hflag hshown, fun hkept => ?_⟩⟩
    rw [AlikeArg, if_pos hflag]
    exact (alikeFlag_iff hflag).mpr ⟨hge htotal, hkept⟩
  | false =>
    rw [normalizeArg_value hflag] at hshown
    obtain rfl := Option.some.inj hshown
    have hle := total_expandFlagToken_le t
    rw [total_cons, total_nil, mass_normalizePathToken]
    refine ⟨hle.trans (mass_trimList_le t), fun hge => ?_⟩
    have htrim := trimList_of_mass_le (hge.trans hle)
    rw [expandFlagToken_value hne htrim hflag]
    refine ⟨rfl, fun hkept => ?_⟩
    rw [AlikeArg, hflag, if_neg Bool.false_ne_true]
    exact hkept t List.mem_cons_self

theorem AlikeArg.spec (h : AlikeArg t) (hshown : normalizeArg t = some shown) :
    shown = (expandFlagToken t).map normalizePathToken ∧ ∀ x ∈ expandFlagToken t, Kept x := by
  rw [AlikeArg] at h
  split at h
  · next hflag =>
    obtain ⟨hsplit, hkept⟩ := (alikeFlag_iff hflag).mp h
    exact ⟨hsplit.shown_eq_map hflag hshown, hkept⟩
  · next hflag =>
    rw [Bool.not_eq_true] at hflag
    rw [normalizeArg_value hflag] at hshown
    obtain rfl := Option.some.inj hshown
    rw [expandFlagToken_value h.settled.1 h.settled.2.1 hflag]
    exact ⟨rfl, fun x hx => List.mem_singleton.mp hx ▸ h⟩

theorem AlikeArg.neighbours (h : AlikeArg t) :
    (∃ first more, expandFlagToken t = first :: more ∧ isFlag first = isFlag t) ∧
      (isFlag t = false → expandFlagToken t = [t]) ∧
      (expandFlagToken t).IsChain OneFlag ∧
      ∀ x ∈ (expandFlagToken t).getLast?, isFlag x = endsInFlag t := by
  rw [AlikeArg] at h
  split at h
  · next hflag =>
    obtain ⟨hsplit, -⟩ := (alikeFlag_iff hflag).mp h
    have hfirst := isFlag_splitArg hflag
    rw [hsplit.expand hflag, hflag, endsInFlag, hflag, List.filter_cons]
    refine ⟨⟨_, _, rfl, hfirst⟩, fun h => absurd h.symm Bool.false_ne_true, ?_⟩
    by_cases hnil : valueOf t = []
    · rw [decide_eq_false (not_not.mpr hnil), decide_eq_true hnil]
      refine ⟨.singleton _, fun x hx => ?_⟩
      obtain rfl := Option.some.inj hx
      exact hfirst
    · rw [decide_eq_true hnil, decide_eq_false hnil]
      refine ⟨.cons_cons (.inl hfirst) (.singleton _), fun x hx => ?_⟩
      obtain rfl := Option.some.inj hx
      rfl
  · next hflag =>
    rw [Bool.not_eq_true] at hflag
    rw [expandFlagToken_value h.settled.1 h.settled.2.1 hflag]
    refine ⟨⟨t, [], rfl, rfl⟩, fun _ => rfl, .singleton _, fun x hx => ?_⟩
    have hlast : x = t := (Option.some.inj hx).symm
    rw [hlast, endsInFlag, hflag]
    rfl

end Arguments

/-! ### A string on both sides -/

theorem isChain_tokens_iff {args : List Text} (h : ∀ t ∈ args, AlikeArg t) :
    (args.flatMap expandFlagToken).IsChain OneFlag ↔
      args.IsChain fun a b => endsInFlag a = true ∨ isFlag b = true := by
  induction args with
  | nil => exact iff_of_true .nil .nil
  | cons t rest ih =>
    obtain ⟨ht, hrest⟩ := List.forall_mem_cons.mp h
    obtain ⟨⟨first, more, hexpand, -⟩, -, hchain, hlast⟩ := ht.neighbours
    have hbetween : (∀ x ∈ (expandFlagToken t).getLast?,
        ∀ y ∈ (rest.flatMap expandFlagToken).head?, OneFlag x y) ↔
        ∀ b ∈ rest.head?, endsInFlag t = true ∨ isFlag b = true := by
      obtain ⟨x, hx⟩ : ∃ x, (expandFlagToken t).getLast? = some x := by
        rw [hexpand, List.getLast?_cons]
        exact ⟨_, rfl⟩
      have hends := hlast x hx
      cases rest with
      | nil => exact iff_of_true (fun _ _ y hy => nomatch hy) fun b hb => nomatch hb
      | cons u rest =>
        obtain ⟨⟨head, others, hu, hhead⟩, -⟩ := (hrest u List.mem_cons_self).neighbours
        rw [List.flatMap_cons, hu, hx, List.cons_append, List.head?_cons, List.head?_cons]
        constructor
        · intro hone b hb
          obtain rfl := Option.some.inj hb
          rw [← hends, ← hhead]
          exact hone x rfl head rfl
        · intro hone a ha y hy
          obtain rfl := Option.some.inj ha
          obtain rfl := Option.some.inj hy
          rw [OneFlag, hends, hhead]
          exact hone u rfl
    rw [List.flatMap_cons, List.isChain_append, List.isChain_cons, ih hrest, hbetween]
    exact ⟨fun hall => ⟨hall.2.2, hall.2.1⟩, fun hall => ⟨hchain, hall.2, hall.1⟩⟩

theorem follows_tokens_iff {args : List Text} (h : ∀ t ∈ args, AlikeArg t) :
    Slot.free.Follows (args.flatMap expandFlagToken) ↔
      (args.dropWhile fun t => !isFlag t).IsChain
        fun a b => endsInFlag a = true ∨ isFlag b = true := by
  induction args with
  | nil => exact iff_of_true .nil .nil
  | cons t rest ih =>
    obtain ⟨ht, hrest⟩ := List.forall_mem_cons.mp h
    obtain ⟨⟨first, more, hexpand, hfirst⟩, hvalue, -, -⟩ := ht.neighbours
    cases hflag : isFlag t with
    | true =>
      rw [hflag] at hfirst
      have hkept : (t :: rest).dropWhile (fun t => !isFlag t) = t :: rest :=
        List.dropWhile_cons_of_neg (by rw [hflag]; exact Bool.false_ne_true)
      have htokens : (t :: rest).flatMap expandFlagToken =
          first :: (more ++ rest.flatMap expandFlagToken) := by
        rw [List.flatMap_cons, hexpand, List.cons_append]
      have hall : Slot.free.Follows ((t :: rest).flatMap expandFlagToken) ↔
          ((t :: rest).flatMap expandFlagToken).IsChain OneFlag := by
        rw [htokens, Slot.follows_flag hfirst, List.isChain_cons]
        exact ⟨fun hc => ⟨fun _ _ => .inl hfirst, hc⟩, fun hc => hc.2⟩
      rw [hkept, hall, isChain_tokens_iff h]
    | false =>
      have hdropped : (t :: rest).dropWhile (fun t => !isFlag t) =
          rest.dropWhile fun t => !isFlag t :=
        List.dropWhile_cons_of_pos (by rw [hflag]; rfl)
      rw [hdropped, List.flatMap_cons, hvalue hflag, List.singleton_append,
        Slot.follows_free hflag]
      exact ih hrest

theorem expandFlagToken_ne_nil {t x : Text} (h : x ∈ expandFlagToken t) : x ≠ [] := by
  cases hblank : t.all isWhiteSpace with
  | true =>
    rw [expandFlagToken_of_blank hblank] at h
    cases h
  | false =>
    have hpieces : ∀ pair, x ∈ pieces (some pair) → x ≠ [] := by
      rintro ⟨flag, val⟩ hx rfl
      have := (List.mem_filter.mp hx).2
      cases this
    have htrim : trimList t ≠ [] := fun hnil =>
      absurd (all_isWhiteSpace_iff.mpr hnil) (Bool.eq_false_iff.mp hblank)
    rw [expandFlagToken_eq hblank] at h
    split at h
    · split at h
      · exact hpieces _ h
      · exact List.mem_singleton.mp h ▸ htrim
    · exact List.mem_singleton.mp h ▸ htrim

section Strings

variable {s : Text}

theorem normalizeArg_eq_none_iff {t : Text} :
    normalizeArg t = none ↔
      isFlag t = true ∧ ∃ flag val, cut (· = '=') t = some (flag, val) ∧ IsLoneQuote val := by
  cases hflag : isFlag t with
  | false =>
    rw [normalizeArg_value hflag]
    exact iff_of_false (Option.some_ne_none _) fun h => Bool.false_ne_true h.1
  | true =>
    rw [normalizeArg, if_pos hflag]
    cases heq : cut (· = '=') t with
    | some pair =>
      obtain ⟨flag, val⟩ := pair
      rw [Option.map_eq_none_iff, unquote_eq_none_iff]
      constructor
      · exact fun h => ⟨rfl, flag, val, rfl, h⟩
      · rintro ⟨-, flag', val', hpair, h⟩
        cases hpair
        exact h
    | none =>
      have hsome : (match cut (· = ' ') t with
          | some (flag, val) => some (flag :: shownValue val)
          | none => some [t]) ≠ none := by
        split
        · exact Option.some_ne_none _
        · exact Option.some_ne_none _
      refine iff_of_false hsome ?_
      rintro ⟨-, flag, val, hpair, -⟩
      cases hpair

theorem unquotedArgs_eq (h : ∀ t ∈ matchesFrom 0 s, ¬ IsLoneQuote (trimList t)) :
    unquotedArgs s = some (arguments s) := by
  have hquotes : ∀ t ∈ matchesFrom 0 s, unquote (trimList t) = some (stripOuterQuotes t) := by
    intro t ht
    cases hunquote : unquote (trimList t) with
    | none => exact absurd (unquote_eq_none_iff.mp hunquote) (h t ht)
    | some u => rw [stripOuterQuotes_of_unquote hunquote]
  rw [unquotedArgs, mapM_eq_some hquotes]
  rfl

theorem unquotedArgs_of_quote {t : Text} (ht : t ∈ matchesFrom 0 s)
    (h : IsLoneQuote (trimList t)) : unquotedArgs s = none := by
  have hnone : unquote (trimList t) = none := unquote_eq_none_iff.mpr h
  rw [unquotedArgs, mapM_eq_none_iff.mpr ⟨t, ht, hnone⟩]
  rfl

theorem loopArgs_of_quote (h : HasLoneQuote s) : loopArgs s = none := by
  rw [loopArgs]
  rcases h with ⟨t, ht, hquote⟩ | ⟨t, ht, hflag, hlone⟩
  · rw [unquotedArgs_of_quote ht hquote]
    rfl
  · have hnone : (arguments s).mapM normalizeArg = none :=
      mapM_eq_none_iff.mpr ⟨t, ht, normalizeArg_eq_none_iff.mpr ⟨hflag, hlone⟩⟩
    by_cases hquotes : ∀ t ∈ matchesFrom 0 s, ¬ IsLoneQuote (trimList t)
    · rw [unquotedArgs_eq hquotes, Option.bind_some, hnone]
      rfl
    · push Not at hquotes
      obtain ⟨u, hu, hquote⟩ := hquotes
      rw [unquotedArgs_of_quote hu hquote]
      rfl

def shownArg (t : Text) : List Text := (normalizeArg t).getD []

theorem loopArgs_eq (h : ¬ HasLoneQuote s) :
    loopArgs s = some ((arguments s).flatMap shownArg) ∧
      ∀ t ∈ arguments s, normalizeArg t = some (shownArg t) := by
  obtain ⟨hquotes, hvalues⟩ := not_or.mp h
  have hshown : ∀ t ∈ arguments s, normalizeArg t = some (shownArg t) := by
    intro t ht
    rw [shownArg]
    cases hnormalize : normalizeArg t with
    | none => exact absurd ⟨t, ht, normalizeArg_eq_none_iff.mp hnormalize⟩ hvalues
    | some shown => rfl
  refine ⟨?_, hshown⟩
  rw [loopArgs, unquotedArgs_eq fun t ht hquote => hquotes ⟨t, ht, hquote⟩, Option.bind_some,
    mapM_eq_some hshown, Option.map_some, List.flatMap_def]

theorem argument_ne_nil {t : Text} (h : t ∈ arguments s) : t ≠ [] :=
  of_decide_eq_true (List.mem_filter.mp h).2

theorem getLVCompareArgTokens_text (h : s.all isWhiteSpace = true ∨ matchesFrom 0 s ≠ []) :
    getLVCompareArgTokens (.text s) = (arguments s).flatMap expandFlagToken := by
  have hraw : (Spec.text s).rawTokens = matchesFrom 0 s := by
    rw [Spec.rawTokens]
    split
    · next hblank =>
      have hgap := matchesFrom_gap (List.all_eq_true.mp hblank) []
      rw [List.append_nil] at hgap
      rw [hgap]
      rfl
    · next hblank => rw [if_pos (h.resolve_left hblank)]
  rw [getLVCompareArgTokens_eq, hraw, arguments, Tokens.flatMap_filter_of, List.flatMap_map]
  intro t ht
  rw [not_not.mp (of_decide_eq_false ht)]
  rfl

theorem isBare_of_matchesFrom (h : matchesFrom 0 s = []) : ∀ c ∈ s, isBare c = false := by
  induction s with
  | nil => exact List.forall_mem_nil _
  | cons c s ih =>
    rw [matchesFrom] at h
    split at h
    · cases h
    · next hnone =>
      refine List.forall_mem_cons.mpr ⟨?_, ih h⟩
      rw [matchAt, Option.or_eq_none_iff] at hnone
      by_contra hbare
      rw [Bool.not_eq_false] at hbare
      rw [if_neg] at hnone
      · exact Option.some_ne_none _ hnone.2
      · rw [List.takeWhile_cons_of_pos hbare]
        exact List.cons_ne_nil _ _

theorem cliArgs_of_unmatched (hblank : s.all isWhiteSpace = false) (h : matchesFrom 0 s = []) :
    cliArgs s ≠ some [] := by
  have hbare := isBare_of_matchesFrom h
  have hne : trimList s ≠ [] := fun hnil =>
    absurd (all_isWhiteSpace_iff.mpr hnil) (Bool.eq_false_iff.mp hblank)
  have hhead : ∀ c ∈ (trimList s).head?, c = ',' := by
    intro c hc
    have hmem : c ∈ s := by
      obtain ⟨a, b, -, -, heq⟩ := Tokens.exists_eq_trim isWhiteSpace s
      rw [heq]
      exact List.mem_append_right _ (List.mem_append_left _ (List.mem_of_head? hc))
    have hc' := hbare c hmem
    rw [isBare, (trimmed_trimList s).1 c hc, Bool.not_false, Bool.and_true] at hc'
    exact not_not.mp (of_decide_eq_false hc')
  have hnot : ∀ d, d ≠ ',' → (trimList s).head? ≠ some d := fun d hd h => hd (hhead d h)
  have hstrip : stripOuterQuotes s = trimList s := by
    rw [stripOuterQuotes]
    rw [if_neg hne, if_neg]
    rw [decide_eq_false (hnot '"' (by decide)), decide_eq_false (hnot '\'' (by decide))]
    exact Bool.false_ne_true
  have hflag : isFlag (trimList s) = false := decide_eq_false (hnot '-' (by decide))
  have htokens : getLVCompareArgTokens (.text s) = [trimList s] := by
    rw [getLVCompareArgTokens_eq, Spec.rawTokens, hblank, if_neg Bool.false_ne_true,
      if_neg (not_not.mpr h), List.flatMap_cons, List.flatMap_nil, List.append_nil, hstrip]
    exact expandFlagToken_value hne (trimList_trimList s) hflag
  rw [cliArgs, convertArgTokenList_eq, htokens, forward_value hne (trimList_trimList s) hflag]
  intro heq
  cases heq

end Strings

/-- **The arguments of the loop**: the preview shows what the iterations run with exactly if the
string has a single quote, at which the loop throws, or is read alike. -/
theorem loopArgsLaw_iff (s : Text) : LoopArgsLaw s ↔ HasLoneQuote s ∨ Alike s := by
  by_cases hquote : HasLoneQuote s
  · refine iff_of_true (fun shown h => ?_) (.inl hquote)
    rw [previewArgsList, loopArgs_of_quote hquote] at h
    cases h
  rw [or_iff_right hquote]
  obtain ⟨hloop, hshown⟩ := loopArgs_eq hquote
  have hlaw : LoopArgsLaw s ↔ cliArgs s = some ((arguments s).flatMap shownArg) := by
    rw [LoopArgsLaw, previewArgsList, argsList, hloop]
    constructor
    · exact fun h => (h _ rfl).2
    · intro h shown heq
      obtain rfl := Option.some.inj heq
      exact ⟨rfl, h⟩
  rw [hlaw]
  by_cases hmatched : s.all isWhiteSpace = true ∨ matchesFrom 0 s ≠ []
  · rw [cliArgs, convertArgTokenList_eq, getLVCompareArgTokens_text hmatched]
    have hle : ∀ t ∈ arguments s, total (expandFlagToken t) ≤ total (shownArg t) :=
      fun t ht => (total_argument (argument_ne_nil ht) (hshown t ht)).1
    have hmap : (∀ t ∈ arguments s, shownArg t = (expandFlagToken t).map normalizePathToken) →
        (arguments s).flatMap shownArg =
          ((arguments s).flatMap expandFlagToken).map normalizePathToken := by
      intro h
      rw [List.map_flatMap, List.flatMap_def, List.flatMap_def, List.map_congr_left h]
    constructor
    · intro heq
      -- what the module takes away alone would be missing
      have hforward := total_forward heq
      obtain ⟨htrim, htrimmed⟩ := total_map_trimList ((arguments s).flatMap expandFlagToken)
      rw [Slot.held, total_nil, Nat.zero_add, List.drop_zero] at hforward
      have hargs := Tokens.weight_flatMap_eq hle (hforward.trans htrim)
      have hparts : ∀ t ∈ arguments s, _ := fun t ht =>
        (total_argument (argument_ne_nil ht) (hshown t ht)).2 (hargs t ht).ge
      have htokens : ∀ x ∈ (arguments s).flatMap expandFlagToken, x ≠ [] ∧ trimList x = x := by
        intro x hx
        obtain ⟨t, -, hxt⟩ := List.mem_flatMap.mp hx
        refine ⟨expandFlagToken_ne_nil hxt, htrimmed ?_ x hx⟩
        exact (Tokens.weight_flatMap_mono hle).trans hforward
      rw [hmap fun t ht => (hparts t ht).1] at heq
      obtain ⟨hkept, hfollows⟩ := (forward_eq_iff (m := .free) trivial htokens).mp heq
      have hargument : ∀ t ∈ arguments s, AlikeArg t := fun t ht =>
        (hparts t ht).2 fun x hx => hkept x (List.mem_flatMap.mpr ⟨t, ht, hx⟩)
      exact ⟨hmatched, hargument, (follows_tokens_iff hargument).mp hfollows⟩
    · intro halike
      have hparts : ∀ t ∈ arguments s, _ := fun t ht =>
        (halike.argument t ht).spec (hshown t ht)
      have hkept : ∀ x ∈ (arguments s).flatMap expandFlagToken, Kept x := by
        intro x hx
        obtain ⟨t, ht, hxt⟩ := List.mem_flatMap.mp hx
        exact (hparts t ht).2 x hxt
      rw [hmap fun t ht => (hparts t ht).1]
      have hfollows := (follows_tokens_iff halike.argument).mpr halike.separated
      refine (forward_eq_iff (m := .free) trivial fun x hx => ?_).mpr ⟨hkept, hfollows⟩
      exact ⟨(hkept x hx).settled.1, (hkept x hx).settled.2.1⟩
  · obtain ⟨hblank, hnone⟩ := not_or.mp hmatched
    rw [Bool.not_eq_true] at hblank
    have hnil := not_not.mp hnone
    refine iff_of_false ?_ fun h => hmatched h.matched
    have hempty : arguments s = [] := by
      rw [arguments, hnil]
      rfl
    rw [hempty]
    exact cliArgs_of_unmatched hblank hnil

/-- A path with a blank and without quotes: the preview shows two arguments, and it is one. -/
theorem not_loopArgsLaw_blankInPath : ¬ LoopArgsLaw "-lvpath C:/a b".toList := by
  intro h
  have hshown : previewArgsList "-lvpath C:/a b".toList =
      some ["-lvpath".toList, "C:\\a".toList, "b".toList] := by decide +kernel
  have hran : cliArgs "-lvpath C:/a b".toList =
      some ["-lvpath".toList, "C:\\a b".toList] := by decide +kernel
  have hboth := (h _ hshown).2
  rw [hran] at hboth
  exact absurd hboth (by decide +kernel)

end CompareVI.ArgTokens
