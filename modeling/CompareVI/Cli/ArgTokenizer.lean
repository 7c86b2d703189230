import CompareVI.Framework.PsString
import CompareVI.Framework.Tokens

/-!
# The two argument tokenizers

`ArgTokenizer` of the CLI, which is a character automaton, and `Get-LVCompareArgTokens`
of the PowerShell module, which is a regular expression. A text is the list of its
characters; `StartsWith`, `EndsWith` and `IndexOf` go by the characters.

The two are different languages by design: to the module a comma separates arguments and
a quote only counts at the edge of an argument, to the CLI a comma is a character like
any other and a quote counts anywhere.

What they return need not be a normal form: the value that is split off a flag may be a flag
with a value itself. `normalizeFlagValuePairs_eq_self_iff` and
`getLVCompareArgTokens_array_eq_self_iff` say which lists of tokens are left as they are.
-/

open Framework
open Framework.PsString

namespace CompareVI.ArgTokens

abbrev Text := List Char

/-- The text before the first character that satisfies `p` and the text after it, if
`IndexOf` is positive. -/
def cut (p : Char → Bool) (cs : Text) : Option (Text × Text) :=
  match cs.dropWhile fun c => !p c with
  | [] => none
  | _ :: rest =>
    if (cs.takeWhile fun c => !p c) = [] then none
    else some (cs.takeWhile fun c => !p c, rest)

/-! ### The CLI -/

/-- The variables of `Tokenize`. -/
structure Tokenizer where
  sb : Text
  inSingle : Bool
  inDouble : Bool
  result : List Text
  deriving DecidableEq, Repr

namespace Tokenizer

def start : Tokenizer := ⟨[], false, false, []⟩

def flush (t : Tokenizer) : Tokenizer :=
  if t.sb = [] then t else { t with sb := [], result := t.result ++ [t.sb] }

/-- The body of the loop of `Tokenize`. -/
def step (t : Tokenizer) (c : Char) : Tokenizer :=
  if c = '\'' && !t.inDouble then { t with inSingle := !t.inSingle }
  else if c = '"' && !t.inSingle then { t with inDouble := !t.inDouble }
  else if isWhiteSpace c && !t.inSingle && !t.inDouble then t.flush
  else { t with sb := t.sb ++ [c] }

end Tokenizer

def tokenize (input : Text) : List Text :=
  if input.all isWhiteSpace then [] else (input.foldl Tokenizer.step .start).flush.result

/-- The body of the loop of `NormalizeFlagValuePairs`. -/
def normalizeToken (raw : Text) : List Text :=
  if raw = [] then []
  else
    let tok := trimList raw
    if tok.head? = some '-' then
      match (cut (· = '=') tok).or (cut (· = ' ') tok) with
      | some (flag, val) => [flag, val].filter (· ≠ [])
      | none => [tok]
    else [tok]

def normalizeFlagValuePairs (tokens : List Text) : List Text := tokens.flatMap normalizeToken

/-- The tokens that `tokenize` of the CLI shows. -/
def cliTokens (input : Text) : List Text := normalizeFlagValuePairs (tokenize input)

/-! ### The PowerShell module -/

/-- A quoted text at the start of `cs`: a quote, characters other than it, and the quote. -/
def quotedMatch (quote : Char) : Text → Option Text
  | [] => none
  | c :: cs =>
    if c = quote && (cs.takeWhile (· ≠ quote) ≠ []) && (cs.dropWhile (· ≠ quote) ≠ []) then
      some (quote :: cs.takeWhile (· ≠ quote) ++ [quote])
    else none

/-- The characters of `[^,\s]`. -/
def isBare (c : Char) : Bool := c ≠ ',' && !isWhiteSpace c

/-- What `LVCompareArgTokenPattern` matches at the start of `cs`. -/
def matchAt (cs : Text) : Option Text :=
  ((quotedMatch '"' cs).or (quotedMatch '\'' cs)).or
    (if cs.takeWhile isBare = [] then none else some (cs.takeWhile isBare))

/-- `[regex]::Matches`, with the number of characters that belong to the last match. -/
def matchesFrom : ℕ → Text → List Text
  | _, [] => []
  | n + 1, _ :: cs => matchesFrom n cs
  | 0, c :: cs =>
    match matchAt (c :: cs) with
    | some found => found :: matchesFrom (found.length - 1) cs
    | none => matchesFrom 0 cs

def stripOuterQuotes (text : Text) : Text :=
  let trimmed := trimList text
  if trimmed = [] then []
  else if (trimmed.head? = some '"' && trimmed.getLast? = some '"') ||
      (trimmed.head? = some '\'' && trimmed.getLast? = some '\'') then
    if trimmed.length > 1 then (trimmed.drop 1).take (trimmed.length - 2) else []
  else trimmed

/-- The flag and the value that are left, in `Expand-FlagToken`. -/
def pieces : Option (Text × Text) → List Text
  | some (flag, val) => [trimList flag, stripOuterQuotes val].filter fun t => !t.all isWhiteSpace
  | none => []

def cutSpace (cs : Text) : Option (Text × Text) :=
  (cut isWhiteSpace cs).map fun (flag, rest) => (flag, rest.dropWhile isWhiteSpace)

def expandFlagToken (candidate : Text) : List Text :=
  if candidate.all isWhiteSpace then []
  else
    let trimmed := trimList candidate
    if trimmed.head? = some '-' then
      if pieces (cut (· = '=') trimmed) ≠ [] then pieces (cut (· = '=') trimmed)
      else if pieces (cutSpace trimmed) ≠ [] then pieces (cutSpace trimmed)
      else [trimmed]
    else [trimmed]

/-- The parameter `Spec`: a string, or an array with its items that are strings. -/
inductive Spec where
  | text (text : Text)
  | array (items : List Text)

/-- `$rawTokens`, before the outer quotes are stripped. -/
def Spec.rawTokens : Spec → List Text
  | text cs =>
    if cs.all isWhiteSpace then []
    else if matchesFrom 0 cs ≠ [] then matchesFrom 0 cs
    else [cs]
  | array items => items

def getLVCompareArgTokens (spec : Spec) : List Text :=
  ((spec.rawTokens.map stripOuterQuotes).filter fun t => !t.all isWhiteSpace).flatMap
    expandFlagToken

/-! ### Cutting and stripping -/

theorem trimList_eq (cs : Text) : trimList cs = Tokens.trim isWhiteSpace cs := rfl

theorem trimList_trimList (cs : Text) : trimList (trimList cs) = trimList cs :=
  Tokens.trim_of_trimmed (Tokens.trimmed_trim cs)

variable {p : Char → Bool} {cs flag t val : Text}

theorem all_isWhiteSpace_iff : cs.all isWhiteSpace = true ↔ trimList cs = [] := by
  rw [List.all_eq_true, trimList_eq, Tokens.trim_eq_nil_iff]

variable {a b text : Text}

theorem cut_eq_some_iff :
    cut p cs = some (a, b) ↔
      a ≠ [] ∧ (∀ x ∈ a, p x = false) ∧ ∃ c, p c = true ∧ cs = a ++ c :: b := by
  constructor
  · intro h
    rw [cut] at h
    split at h
    · cases h
    · next c rest hdrop =>
      split at h
      · cases h
      · next hne =>
        obtain ⟨rfl, rfl⟩ := Prod.mk.inj (Option.some.inj h)
        refine ⟨hne, fun x hx => ?_, c, ?_, ?_⟩
        · simpa using List.mem_takeWhile_imp hx
        · have hhead := List.head?_dropWhile_not (fun c => !p c) cs
          rw [hdrop] at hhead
          simpa using hhead
        · rw [← hdrop, List.takeWhile_append_dropWhile]
  · rintro ⟨hne, ha, c, hc, rfl⟩
    have htake : (a ++ c :: b).takeWhile (fun c => !p c) = a := by
      rw [List.takeWhile_append_of_pos (by simpa using ha),
        List.takeWhile_cons_of_neg (by simp [hc]), List.append_nil]
    have hdrop : (a ++ c :: b).dropWhile (fun c => !p c) = c :: b := by
      rw [List.dropWhile_append_of_pos (by simpa using ha),
        List.dropWhile_cons_of_neg (by simp [hc])]
    rw [cut, hdrop, htake]
    simp only [hne, if_false]

theorem cut_eq_none_iff (hcs : cs.head? = some '-') (hp : p '-' = false) :
    cut p cs = none ↔ ∀ x ∈ cs, p x = false := by
  obtain ⟨rest, rfl⟩ := List.head?_eq_some_iff.mp hcs
  constructor
  · intro h x hx
    by_contra hpx
    rw [Bool.not_eq_false] at hpx
    have hdrop : ('-' :: rest).dropWhile (fun c => !p c) ≠ [] := by
      rw [Ne, List.dropWhile_eq_nil_iff]
      intro hall
      simpa [hpx] using hall x hx
    rw [cut] at h
    split at h
    · next hnil => exact hdrop hnil
    · simp [hp] at h
  · intro h
    have hdrop : ('-' :: rest).dropWhile (fun c => !p c) = [] := by
      rw [List.dropWhile_eq_nil_iff]
      intro x hx
      simp [h x hx]
    rw [cut, hdrop]

theorem cut_char_eq_none_iff {k : Char} (hcs : cs.head? = some '-') (hk : '-' ≠ k) :
    cut (· = k) cs = none ↔ k ∉ cs := by
  rw [cut_eq_none_iff hcs (decide_eq_false hk)]
  constructor
  · intro h hmem
    simpa using h k hmem
  · intro h x hx
    exact decide_eq_false fun heq => h (heq ▸ hx)

theorem cutSpace_eq_some_iff :
    cutSpace cs = some (a, b) ↔
      ∃ rest, cut isWhiteSpace cs = some (a, rest) ∧ b = rest.dropWhile isWhiteSpace := by
  rw [cutSpace, Option.map_eq_some_iff]
  constructor
  · rintro ⟨⟨a', rest⟩, hcut, heq⟩
    obtain ⟨rfl, rfl⟩ := Prod.mk.inj heq
    exact ⟨rest, hcut, rfl⟩
  · rintro ⟨rest, hcut, rfl⟩
    exact ⟨(a, rest), hcut, rfl⟩

theorem length_stripOuterQuotes_le (text : Text) :
    (stripOuterQuotes text).length ≤ (trimList text).length := by
  rw [stripOuterQuotes]
  split
  · exact Nat.zero_le _
  · split
    · split
      · exact (List.length_take_le' _ _).trans (List.drop_sublist 1 _).length_le
      · exact Nat.zero_le _
    · exact Nat.le_refl _

theorem trimList_of_stripOuterQuotes (h : stripOuterQuotes text = text) :
    trimList text = text := by
  by_contra hne
  have hlt := Tokens.length_trim_lt hne
  have hle := length_stripOuterQuotes_le text
  rw [h] at hle
  exact absurd hle (Nat.not_le_of_lt hlt)

theorem length_stripOuterQuotes_lt (h : stripOuterQuotes text ≠ text) :
    (stripOuterQuotes text).length < text.length := by
  by_cases htrim : trimList text = text
  · rw [stripOuterQuotes, htrim] at h ⊢
    split
    · next hnil => exact absurd (by rw [if_pos hnil, hnil]) h
    · next hne =>
      have hpos : 0 < text.length := List.length_pos_iff.mpr hne
      rw [if_neg hne] at h
      split at h
      · next hq =>
        rw [if_pos hq]
        split
        · exact Nat.lt_of_le_of_lt (List.length_take_le _ _) (by omega)
        · exact hpos
      · exact absurd rfl h
  · exact Nat.lt_of_le_of_lt (length_stripOuterQuotes_le text) (Tokens.length_trim_lt htrim)

/-! ### Normal forms -/

def tokenWeight (t : Text) : ℕ := 2 * t.length + 1

theorem weight_pair_lt {flag' val' tok : Text} {c : Char} {q : Text → Bool}
    (htok : tok = flag ++ c :: val) (hflag : flag'.length ≤ flag.length)
    (hval : val'.length ≤ val.length) (ht : tok.length ≤ t.length) :
    Tokens.weight tokenWeight ([flag', val'].filter q) < tokenWeight t := by
  have hlen : tok.length = flag.length + val.length + 1 := by
    rw [htok, List.length_append, List.length_cons]
    omega
  have hle : Tokens.weight tokenWeight ([flag', val'].filter q) ≤
      tokenWeight flag' + tokenWeight val' := by
    rw [List.filter_cons, List.filter_cons, List.filter_nil]
    split <;> split <;> simp
  simp only [tokenWeight] at hle ⊢
  omega

theorem weight_trimmed (h : trimList t ≠ t) :
    Tokens.weight tokenWeight [trimList t] < tokenWeight t := by
  have hlt := Tokens.length_trim_lt h
  rw [← trimList_eq] at hlt
  simp only [Tokens.weight_cons, Tokens.weight_nil, tokenWeight]
  omega

/-- `NormalizeFlagValuePairs` keeps the token. -/
def Settled (t : Text) : Prop :=
  t ≠ [] ∧ trimList t = t ∧ (t.head? = some '-' → '=' ∉ t ∧ ' ' ∉ t)

/-- `Get-LVCompareArgTokens` keeps the token in an array. -/
def SettledItem (t : Text) : Prop :=
  t ≠ [] ∧ stripOuterQuotes t = t ∧
    (t.head? = some '-' → '=' ∉ t ∧ ∀ c ∈ t, isWhiteSpace c = false)

theorem normalizeToken_of_settled (h : Settled t) : normalizeToken t = [t] := by
  obtain ⟨hne, htrim, hflag⟩ := h
  rw [normalizeToken, if_neg hne]
  dsimp only
  rw [htrim]
  split
  · next hdash =>
    obtain ⟨heq, hsp⟩ := hflag hdash
    rw [(cut_char_eq_none_iff hdash (by decide)).mpr heq,
      (cut_char_eq_none_iff hdash (by decide)).mpr hsp]
    rfl
  · rfl

theorem weight_normalizeToken (h : ¬ Settled t) :
    Tokens.weight tokenWeight (normalizeToken t) < tokenWeight t := by
  rw [normalizeToken]
  by_cases hne : t = []
  · rw [if_pos hne]
    exact Nat.succ_pos _
  rw [if_neg hne]
  -- a token that is only trimmed is settled if trimming keeps it
  have hkept : (trimList t = t → t.head? = some '-' → '=' ∉ t ∧ ' ' ∉ t) →
      Tokens.weight tokenWeight [trimList t] < tokenWeight t := by
    intro hflag
    exact weight_trimmed fun htrim => h ⟨hne, htrim, hflag htrim⟩
  have hcutlt : ∀ {p : Char → Bool} {flag val : Text}, cut p (trimList t) = some (flag, val) →
      Tokens.weight tokenWeight ([flag, val].filter (· ≠ [])) < tokenWeight t := by
    intro p flag val hcut
    obtain ⟨-, -, c, -, htok⟩ := cut_eq_some_iff.mp hcut
    exact weight_pair_lt htok (Nat.le_refl _) (Nat.le_refl _) (Tokens.length_trim_le t)
  dsimp only
  split
  · next hdash =>
    cases heq : cut (· = '=') (trimList t) with
    | some pair => exact hcutlt heq
    | none =>
      cases hsp : cut (· = ' ') (trimList t) with
      | some pair => exact hcutlt hsp
      | none =>
        refine hkept fun htrim _ => ?_
        rw [htrim] at hdash heq hsp
        exact ⟨(cut_char_eq_none_iff hdash (by decide)).mp heq,
          (cut_char_eq_none_iff hdash (by decide)).mp hsp⟩
  · next hdash =>
    refine hkept fun htrim hhead => ?_
    rw [htrim] at hdash
    exact absurd hhead hdash

theorem normalizeToken_eq_iff : normalizeToken t = [t] ↔ Settled t := by
  refine ⟨fun heq => ?_, normalizeToken_of_settled⟩
  by_contra h
  have hlt := weight_normalizeToken h
  rw [heq, Tokens.weight_cons, Tokens.weight_nil] at hlt
  exact absurd hlt (Nat.lt_irrefl _)

/-- **Normalizing again**, in the CLI: a list is kept if its tokens are settled, and only
then. -/
theorem normalizeFlagValuePairs_eq_self_iff (tokens : List Text) :
    normalizeFlagValuePairs tokens = tokens ↔ ∀ t ∈ tokens, Settled t := by
  have hstep : ∀ t, normalizeToken t = [t] ∨
      Tokens.weight tokenWeight (normalizeToken t) < tokenWeight t := by
    intro t
    by_cases h : Settled t
    · exact .inl (normalizeToken_of_settled h)
    · exact .inr (weight_normalizeToken h)
  rw [normalizeFlagValuePairs, Tokens.flatMap_eq_self_iff hstep]
  exact forall₂_congr fun t _ => normalizeToken_eq_iff

/-! ### The module's normal form -/

theorem expandFlagToken_of_blank (h : t.all isWhiteSpace = true) :
    expandFlagToken t = [] := by
  rw [expandFlagToken, if_pos h]

theorem pieces_eq (h : flag.head? = some '-') :
    pieces (some (flag, val)) =
      trimList flag :: [stripOuterQuotes val].filter fun t => !t.all isWhiteSpace := by
  obtain ⟨rest, rfl⟩ := List.head?_eq_some_iff.mp h
  have hflag : (trimList ('-' :: rest)).all isWhiteSpace = false := by
    rw [Bool.eq_false_iff, Ne, all_isWhiteSpace_iff, trimList_trimList, ← all_isWhiteSpace_iff,
      List.all_cons, show isWhiteSpace '-' = false by decide, Bool.false_and]
    exact Bool.false_ne_true
  rw [pieces, List.filter_cons, hflag]
  rfl

theorem pieces_ne_nil (h : flag.head? = some '-') :
    pieces (some (flag, val)) ≠ [] := by
  rw [pieces_eq h]
  exact List.cons_ne_nil _ _

theorem head_of_cut (hcs : cs.head? = some '-') (h : cut p cs = some (flag, val)) :
    flag.head? = some '-' := by
  obtain ⟨hne, -, c, -, rfl⟩ := cut_eq_some_iff.mp h
  rwa [List.head?_append_of_ne_nil _ hne] at hcs

theorem expandFlagToken_eq (h : t.all isWhiteSpace = false) :
    expandFlagToken t =
      if (trimList t).head? = some '-' then
        match (cut (· = '=') (trimList t)).or (cutSpace (trimList t)) with
        | some pair => pieces (some pair)
        | none => [trimList t]
      else [trimList t] := by
  rw [expandFlagToken, h]
  simp only [Bool.false_eq_true, if_false]
  split
  · next hdash =>
    cases heq : cut (· = '=') (trimList t) with
    | some pair => rw [if_pos (pieces_ne_nil (head_of_cut hdash heq))]; rfl
    | none =>
      rw [if_neg (by simp [pieces])]
      cases hsp : cutSpace (trimList t) with
      | some pair =>
        obtain ⟨rest, hcut, -⟩ := cutSpace_eq_some_iff.mp hsp
        rw [if_pos (pieces_ne_nil (head_of_cut hdash hcut))]
        rfl
      | none => rw [if_neg (by simp [pieces])]; rfl
  · rfl

theorem weight_pieces_lt {rest : Text} (h : cut p (trimList t) = some (flag, rest))
    (hval : val.length ≤ rest.length) :
    Tokens.weight tokenWeight (pieces (some (flag, val))) < tokenWeight t := by
  obtain ⟨-, -, c, -, htok⟩ := cut_eq_some_iff.mp h
  rw [pieces]
  refine weight_pair_lt htok ?_ ?_ (Tokens.length_trim_le t)
  · exact Tokens.length_trim_le flag
  · exact (length_stripOuterQuotes_le val).trans ((Tokens.length_trim_le val).trans hval)

theorem expandFlagToken_cases (t : Text) :
    (expandFlagToken t = [trimList t] ∧ ((trimList t).head? = some '-' →
        '=' ∉ trimList t ∧ ∀ c ∈ trimList t, isWhiteSpace c = false)) ∨
      Tokens.weight tokenWeight (expandFlagToken t) < tokenWeight t := by
  cases hblank : t.all isWhiteSpace with
  | true =>
    rw [expandFlagToken_of_blank hblank]
    exact .inr (Nat.succ_pos _)
  | false =>
    rw [expandFlagToken_eq hblank]
    split
    · next hdash =>
      cases heq : cut (· = '=') (trimList t) with
      | some pair => exact .inr (weight_pieces_lt heq (Nat.le_refl _))
      | none =>
        cases hsp : cutSpace (trimList t) with
        | some pair =>
          obtain ⟨rest, hcut, hval⟩ := cutSpace_eq_some_iff.mp hsp
          refine .inr (weight_pieces_lt hcut ?_)
          rw [hval]
          exact (List.dropWhile_sublist _).length_le
        | none =>
          refine .inl ⟨rfl, fun _ => ⟨(cut_char_eq_none_iff hdash (by decide)).mp heq, ?_⟩⟩
          rw [cutSpace, Option.map_eq_none_iff] at hsp
          exact (cut_eq_none_iff hdash (by decide)).mp hsp
    · next hdash => exact .inl ⟨rfl, fun h => absurd h hdash⟩

theorem weight_expandFlagToken_le (t : Text) :
    Tokens.weight tokenWeight (expandFlagToken t) ≤ tokenWeight t := by
  obtain ⟨heq, -⟩ | hlt := expandFlagToken_cases t
  · have hlen : (trimList t).length ≤ t.length := Tokens.length_trim_le t
    rw [heq, Tokens.weight_cons, Tokens.weight_nil, tokenWeight, tokenWeight]
    omega
  · exact Nat.le_of_lt hlt

theorem expandFlagToken_of_settled (h : SettledItem t) :
    expandFlagToken (stripOuterQuotes t) = [t] := by
  obtain ⟨hne, hstrip, hflag⟩ := h
  have htrim := trimList_of_stripOuterQuotes hstrip
  have hblank : t.all isWhiteSpace = false := by
    rwa [Bool.eq_false_iff, Ne, all_isWhiteSpace_iff, htrim]
  rw [hstrip, expandFlagToken_eq hblank, htrim]
  split
  · next hdash =>
    obtain ⟨heq, hsp⟩ := hflag hdash
    rw [cutSpace, (cut_char_eq_none_iff hdash (by decide)).mpr heq,
      (cut_eq_none_iff hdash (by decide)).mpr hsp]
    rfl
  · rfl

theorem weight_expandFlagToken (h : ¬ SettledItem t) :
    Tokens.weight tokenWeight (expandFlagToken (stripOuterQuotes t)) < tokenWeight t := by
  by_cases hstrip : stripOuterQuotes t = t
  · rw [hstrip]
    obtain ⟨heq, hflag⟩ | hlt := expandFlagToken_cases t
    · have htrim := trimList_of_stripOuterQuotes hstrip
      rw [htrim] at heq hflag
      have hne : t ≠ [] := by
        rintro rfl
        cases heq
      exact absurd ⟨hne, hstrip, hflag⟩ h
    · exact hlt
  · have hlt := length_stripOuterQuotes_lt hstrip
    refine Nat.lt_of_le_of_lt (weight_expandFlagToken_le _) ?_
    simp only [tokenWeight]
    omega

theorem expandFlagToken_eq_iff :
    expandFlagToken (stripOuterQuotes t) = [t] ↔ SettledItem t := by
  refine ⟨fun heq => ?_, expandFlagToken_of_settled⟩
  by_contra h
  have hlt := weight_expandFlagToken h
  rw [heq, Tokens.weight_cons, Tokens.weight_nil] at hlt
  exact absurd hlt (Nat.lt_irrefl _)

theorem getLVCompareArgTokens_eq (spec : Spec) :
    getLVCompareArgTokens spec =
      spec.rawTokens.flatMap fun t => expandFlagToken (stripOuterQuotes t) := by
  rw [getLVCompareArgTokens, Tokens.flatMap_filter_of, List.flatMap_map]
  intro t ht
  rw [Bool.not_eq_false'] at ht
  exact expandFlagToken_of_blank ht

/-- **Normalizing again**, in the module: an array is kept if its items are settled, and only
then. -/
theorem getLVCompareArgTokens_array_eq_self_iff (items : List Text) :
    getLVCompareArgTokens (.array items) = items ↔ ∀ t ∈ items, SettledItem t := by
  have hstep : ∀ t, expandFlagToken (stripOuterQuotes t) = [t] ∨
      Tokens.weight tokenWeight (expandFlagToken (stripOuterQuotes t)) < tokenWeight t := by
    intro t
    by_cases h : SettledItem t
    · exact .inl (expandFlagToken_of_settled h)
    · exact .inr (weight_expandFlagToken h)
  rw [getLVCompareArgTokens_eq, Spec.rawTokens, Tokens.flatMap_eq_self_iff hstep]
  exact forall₂_congr fun t _ => expandFlagToken_eq_iff

end CompareVI.ArgTokens
