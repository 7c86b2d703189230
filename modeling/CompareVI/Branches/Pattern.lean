import CompareVI.Framework.JsString
import CompareVI.Framework.RegExp
import CompareVI.Framework.Substitute
import Mathlib.Data.List.Infix

/-!
# Branch patterns

`branchPatternToRegExp` makes a regular expression of a pattern with `*` and `**`: the wildcards
become markers in capital letters, the rest is escaped, and the markers become `[^/]*` and `.*`.
The pattern is in lower case when it comes here, so no marker can be mistaken
(`branchPatternSource_eq`), and the text is a pattern that is read item by item
(`readItems_source`).

What matches is a glob (`Matches`), up to the case folding of the `i` flag: a character matches
those that have the same upper case. Among ASCII characters in lower case that is the character
alone.

Lower case and case folding beyond ASCII are a parameter.
-/

open Framework

namespace CompareVI.Branches

abbrev Text := List Char

structure Casing where
  /-- `String.prototype.toLowerCase`. -/
  toLowerCase : Text → Text
  toLowerCase_not_upper : ∀ cs, ∀ c ∈ toLowerCase cs, c.isUpper = false
  /-- What two characters must share to match under the `i` flag. -/
  canonicalize : Char → Char
  /-- Nothing but its other case folds to an ASCII character. -/
  canonicalize_ascii : ∀ c d, c.toNat < 128 → canonicalize d = canonicalize c →
    d.toLower = c.toLower

def normalizeBranchName (env : Casing) (value : Text) : Text :=
  let raw := JsString.trimList value
  if raw = [] then []
  else
    let lowered := env.toLowerCase raw
    if "refs/heads/".toList <+: lowered then lowered.drop "refs/heads/".length else lowered

/-! ### The source of the regular expression -/

def multiSentinel : Text := "__DOUBLE_WILDCARD__".toList

def singleSentinel : Text := "__SINGLE_WILDCARD__".toList

/-- The characters that `escapeRegExp` escapes. -/
def isEscaped (c : Char) : Bool := "|\\{}()[]^$+?.".toList.contains c

def escapeRegExp (value : Text) : Text :=
  value.flatMap fun c => if isEscaped c then ['\\', c] else [c]

/-- What `branchPatternToRegExp` hands to `RegExp`. -/
def branchPatternSource (pattern : Text) : Text :=
  let normalized := replaceAll ['*'] singleSentinel
    (replaceAll ['*', '*'] multiSentinel (JsString.trimList pattern))
  let body := replaceAll singleSentinel "[^/]*".toList
    (replaceAll multiSentinel ".*".toList (escapeRegExp normalized))
  '^' :: (body ++ ['$'])

/-! ### Reading it -/

def isSyntax (c : Char) : Bool := "^$\\.*+?()[]{}|".toList.contains c

/-- `.`. -/
def anyChar : RegExp := .chars fun d => !JsString.isLineTerminator d

/-- `[^/]`. -/
def noSlash (env : Casing) : RegExp :=
  .chars fun d => env.canonicalize d ≠ env.canonicalize '/'

def literal (env : Casing) (c : Char) : RegExp :=
  .chars fun d => env.canonicalize d = env.canonicalize c

/-- The items up to the `$` at the end, of those that are made here. -/
def readItems (env : Casing) : Text → Option (List RegExp)
  | [] => none
  | '$' :: rest => if rest = [] then some [] else none
  | '.' :: '*' :: rest => (readItems env rest).map (.star anyChar :: ·)
  | '[' :: '^' :: '/' :: ']' :: '*' :: rest => (readItems env rest).map (.star (noSlash env) :: ·)
  | '\\' :: c :: rest =>
    if isSyntax c then (readItems env rest).map (literal env c :: ·) else none
  | c :: rest => if isSyntax c then none else (readItems env rest).map (literal env c :: ·)

/-- `new RegExp(source, 'i')`. -/
def readSource (env : Casing) : Text → Option RegExp
  | '^' :: rest => (readItems env rest).map fun items => .seq .start (.seq (.all items) .finish)
  | _ => none

def branchPatternToRegExp (env : Casing) (pattern : Text) : Option RegExp :=
  readSource env (branchPatternSource pattern)

def matchBranchPattern (env : Casing) (branch pattern : Text) : Bool :=
  let normalizedBranch := normalizeBranchName env branch
  let normalizedPattern := normalizeBranchName env pattern
  if normalizedBranch = [] ∨ normalizedPattern = [] then false
  else (branchPatternToRegExp env normalizedPattern).any fun r => r.test normalizedBranch

/-! ### Globs -/

inductive Token where
  | char (c : Char)
  /-- `*`. -/
  | star
  /-- `**`. -/
  | doubleStar
deriving DecidableEq

def tokens : Text → List Token
  | [] => []
  | '*' :: '*' :: rest => .doubleStar :: tokens rest
  | '*' :: rest => .star :: tokens rest
  | c :: rest => .char c :: tokens rest

/-- **The glob**: a character of the pattern stands for those that are the same, `*` for any text
without `/`, and `**` for any text of these characters. -/
inductive Matches (same : Char → Char → Prop) (any : Char → Prop) : List Token → Text → Prop where
  | nil : Matches same any [] []
  | char {c d : Char} {ts : List Token} {t : Text} (h : same c d) (ht : Matches same any ts t) :
    Matches same any (.char c :: ts) (d :: t)
  | star {u : Text} {ts : List Token} {t : Text} (h : ∀ c ∈ u, c ≠ '/')
    (ht : Matches same any ts t) : Matches same any (.star :: ts) (u ++ t)
  | doubleStar {u : Text} {ts : List Token} {t : Text} (h : ∀ c ∈ u, any c)
    (ht : Matches same any ts t) : Matches same any (.doubleStar :: ts) (u ++ t)

theorem Matches.append_star {same : Char → Char → Prop} {any : Char → Prop} {ts : List Token}
    {t : Text} (h : Matches same any ts t) : Matches same any (ts ++ [.star]) t := by
  induction h with
  | nil => exact .star (u := []) (List.forall_mem_nil _) .nil
  | char hcd _ ih => exact .char hcd ih
  | star hu _ ih => exact .star hu ih
  | doubleStar hu _ ih => exact .doubleStar hu ih

/-- Two characters fold to the same one. -/
def Casing.Same (env : Casing) (c d : Char) : Prop := env.canonicalize d = env.canonicalize c

/-- The character is not the end of a line. -/
def InLine (c : Char) : Prop := JsString.isLineTerminator c = false

def Token.item (env : Casing) : Token → RegExp
  | char c => literal env c
  | star => .star (noSlash env)
  | doubleStar => .star anyChar

/-! ### The passes over the text -/

def Token.written (onChar : Char → Text) (onStar onDouble : Text) : Token → Text
  | char c => onChar c
  | star => onStar
  | doubleStar => onDouble

def escaped (c : Char) : Text := if isEscaped c then ['\\', c] else [c]

section Passes

variable {text : Text} {xs : List Token}

theorem char_mem_tokens {c : Char} (h : Token.char c ∈ tokens text) : c ∈ text ∧ c ≠ '*' := by
  fun_induction tokens text with
  | case1 => cases h
  | case2 rest ih =>
    have hrest := ih ((List.mem_cons.mp h).resolve_left nofun)
    exact ⟨List.mem_cons_of_mem _ (List.mem_cons_of_mem _ hrest.1), hrest.2⟩
  | case3 rest _ ih =>
    have hrest := ih ((List.mem_cons.mp h).resolve_left nofun)
    exact ⟨List.mem_cons_of_mem _ hrest.1, hrest.2⟩
  | case4 d rest _ hd ih =>
    rcases List.mem_cons.mp h with hhere | hrest
    · obtain rfl := Token.char.inj hhere
      exact ⟨List.mem_cons_self, hd⟩
    · exact ⟨List.mem_cons_of_mem _ (ih hrest).1, (ih hrest).2⟩

/-- The first pass: `**`. -/
theorem replaceAll_doubleStar (text : Text) :
    replaceAll ['*', '*'] multiSentinel text =
      (tokens text).flatMap (Token.written ([·]) ['*'] multiSentinel) := by
  fun_induction tokens text with
  | case1 => rfl
  | case2 rest ih =>
    rw [List.flatMap_cons, ← ih]
    exact replaceAll_needle (List.cons_ne_nil _ _) rest
  | case3 rest hrest ih =>
    rw [List.flatMap_cons, ← ih]
    refine replaceAll_append ['*'] fun u v huv hv hprefix => ?_
    obtain ⟨w, hw⟩ := hprefix
    have hword : ['*'] = v := by
      cases u with
      | nil => exact huv
      | cons c u =>
        obtain ⟨-, hnil⟩ := List.cons.inj huv
        exact absurd (List.append_eq_nil_iff.mp hnil.symm).2 hv
    rw [← hword] at hw
    exact hrest _ (List.cons.inj hw).2.symm
  | case4 c rest _ hc ih =>
    rw [List.flatMap_cons, ← ih]
    refine replaceAll_append [c] fun u v huv hv hprefix => ?_
    obtain ⟨w, hw⟩ := hprefix
    cases u with
    | nil =>
      rw [List.nil_append] at huv
      rw [← huv] at hw
      exact hc (List.cons.inj hw).1.symm
    | cons d u =>
      obtain ⟨-, hnil⟩ := List.cons.inj huv
      exact hv (List.append_eq_nil_iff.mp hnil.symm).2

theorem replaceAll_star (h : ∀ c, Token.char c ∈ xs → c ≠ '*') :
    replaceAll ['*'] singleSentinel (xs.flatMap (Token.written ([·]) ['*'] multiSentinel)) =
      xs.flatMap (Token.written ([·]) singleSentinel multiSentinel) := by
  have hfree : ∀ (word : Text), '*' ∉ word → ∀ u v, word = u ++ v → v ≠ [] → ∀ rest : Text,
      ¬ ['*'] <+: v ++ rest := by
    intro word hword u v huv hv rest hprefix
    obtain ⟨c, v, rfl⟩ := List.exists_cons_of_ne_nil hv
    obtain ⟨w, hw⟩ := hprefix
    obtain rfl : '*' = c := (List.cons.inj hw).1
    exact hword (huv ▸ List.mem_append_right u List.mem_cons_self)
  refine replaceAll_flatMap (List.cons_ne_nil _ _) fun x rest hx => ?_
  cases x with
  | char c =>
    have hc : '*' ∉ [c] := by
      rw [List.mem_singleton]
      exact (h c (hx.mem List.mem_cons_self)).symm
    exact .inr ⟨rfl, fun u v huv hv => hfree [c] hc u v huv hv _⟩
  | star => exact .inl ⟨rfl, rfl⟩
  | doubleStar =>
    exact .inr ⟨rfl, fun u v huv hv => hfree multiSentinel (by decide) u v huv hv _⟩

theorem escapeRegExp_written :
    escapeRegExp (xs.flatMap (Token.written ([·]) singleSentinel multiSentinel)) =
      xs.flatMap (Token.written escaped singleSentinel multiSentinel) := by
  rw [escapeRegExp, List.flatMap_assoc]
  congr 1
  funext x
  cases x with
  | char c => exact List.append_nil _
  | star => decide
  | doubleStar => decide

/-- There is no capital letter. -/
def Low (t : Text) : Prop := ∀ c ∈ t, c.isUpper = false

instance (t : Text) : Decidable (Low t) :=
  decidable_of_iff (t.all (fun c => !c.isUpper) = true) (by simp [Low])

/-- The first two characters are no capital letters. -/
abbrev Quiet (t : Text) : Prop := Low (t.take 2)

/-- No place in the word looks like the beginning of the marker. -/
def Inert (needle word : Text) : Prop :=
  ∀ v ∈ word.tails, v ≠ [] → if 3 ≤ v.length then v.take 3 ≠ needle.take 3 else Low v

instance (needle word : Text) : Decidable (Inert needle word) :=
  inferInstanceAs (Decidable (∀ v ∈ word.tails, v ≠ [] →
    if 3 ≤ v.length then v.take 3 ≠ needle.take 3 else Low v))

theorem Inert.not_prefix {needle word rest : Text} (h : Inert needle word) (hrest : Quiet rest)
    {k : Char} (hk : k.isUpper = true) (hneedle : needle[2]? = some k) (u v : Text)
    (huv : word = u ++ v) (hv : v ≠ []) : ¬ needle <+: v ++ rest := by
  intro hprefix
  have hsuffix : v <:+ word := ⟨u, huv.symm⟩
  have hv' := h v ((List.mem_tails v word).mpr hsuffix) hv
  have hthird : (v ++ rest)[2]? = some k := by
    obtain ⟨w, hw⟩ := hprefix
    rw [← hw]
    obtain ⟨hlen, -⟩ := List.getElem?_eq_some_iff.mp hneedle
    rw [List.getElem?_append_left hlen, hneedle]
  have hlong : 3 ≤ needle.length := (List.getElem?_eq_some_iff.mp hneedle).1
  split at hv'
  · next hlen =>
    refine hv' ?_
    obtain ⟨w, hw⟩ := hprefix
    have htake := congrArg (List.take 3) hw
    rw [List.take_append_of_le_length hlong, List.take_append_of_le_length hlen] at htake
    exact htake.symm
  · next hlen =>
    have hlow : k.isUpper = false := by
      by_cases hin : 2 < v.length
      · omega
      · rw [List.getElem?_append_right (by omega)] at hthird
        refine hrest k ?_
        rw [List.mem_take_iff_getElem]
        obtain ⟨hlt, hget⟩ := List.getElem?_eq_some_iff.mp hthird
        have hpos := List.length_pos_iff.mpr hv
        exact ⟨2 - v.length, by omega, hget⟩
    rw [hk] at hlow
    cases hlow

theorem quiet_flatMap {w : Token → Text} (h : ∀ x ∈ xs, w x ≠ [] ∧ Quiet (w x)) :
    Quiet (xs.flatMap w) := by
  induction xs with
  | nil => exact List.forall_mem_nil _
  | cons x xs ih =>
    obtain ⟨⟨hne, hx⟩, hxs⟩ := List.forall_mem_cons.mp h
    intro c hc
    rw [List.flatMap_cons, List.take_append, List.mem_append] at hc
    rcases hc with hhere | hlater
    · exact hx c hhere
    · refine ih hxs c (List.mem_of_mem_take (i := 2 - (w x).length) ?_)
      rw [List.take_take]
      have hpos := List.length_pos_iff.mpr hne
      rwa [min_eq_left (by omega)]

variable (hlow : ∀ c, Token.char c ∈ xs → c.isUpper = false)
include hlow

theorem inert_escaped (needle : Text) {c : Char} (hc : Token.char c ∈ xs) :
    Inert needle (escaped c) ∧ escaped c ≠ [] ∧ Quiet (escaped c) := by
  have hnot : ∀ d ∈ escaped c, d.isUpper = false := by
    intro d hd
    rw [escaped] at hd
    split at hd
    · rcases List.mem_cons.mp hd with rfl | hd
      · rfl
      · exact List.mem_singleton.mp hd ▸ hlow c hc
    · exact List.mem_singleton.mp hd ▸ hlow c hc
  have hlength : (escaped c).length ≤ 2 := by
    rw [escaped]
    split
    · exact Nat.le_refl 2
    · exact Nat.le_succ 1
  refine ⟨fun v hv _ => ?_, ?_, fun d hd => hnot d (List.mem_of_mem_take hd)⟩
  · have hsuffix := (List.mem_tails v _).mp hv
    have hle := hsuffix.length_le
    rw [if_neg (by omega)]
    exact fun d hd => hnot d (hsuffix.mem hd)
  · rw [escaped]
    split
    · exact List.cons_ne_nil _ _
    · exact List.cons_ne_nil _ _

theorem replaceAll_multiSentinel :
    replaceAll multiSentinel ".*".toList
        (xs.flatMap (Token.written escaped singleSentinel multiSentinel)) =
      xs.flatMap (Token.written escaped singleSentinel ".*".toList) := by
  refine replaceAll_flatMap (by decide) fun x rest hx => ?_
  have hrest : Quiet (rest.flatMap (Token.written escaped singleSentinel multiSentinel)) := by
    refine quiet_flatMap fun y hy => ?_
    cases y with
    | char c =>
      have hc : Token.char c ∈ xs := hx.mem (List.mem_cons_of_mem _ hy)
      exact (inert_escaped hlow [] hc).2
    | star => decide
    | doubleStar => decide
  cases x with
  | char c =>
    have hinert := (inert_escaped hlow multiSentinel (hx.mem List.mem_cons_self)).1
    exact .inr ⟨rfl, hinert.not_prefix hrest (k := 'D') rfl rfl⟩
  | star =>
    have hinert : Inert multiSentinel singleSentinel := by decide
    exact .inr ⟨rfl, hinert.not_prefix hrest (k := 'D') rfl rfl⟩
  | doubleStar => exact .inl ⟨rfl, rfl⟩

theorem replaceAll_singleSentinel :
    replaceAll singleSentinel "[^/]*".toList
        (xs.flatMap (Token.written escaped singleSentinel ".*".toList)) =
      xs.flatMap (Token.written escaped "[^/]*".toList ".*".toList) := by
  refine replaceAll_flatMap (by decide) fun x rest hx => ?_
  have hrest : Quiet (rest.flatMap (Token.written escaped singleSentinel ".*".toList)) := by
    refine quiet_flatMap fun y hy => ?_
    cases y with
    | char c =>
      have hc : Token.char c ∈ xs := hx.mem (List.mem_cons_of_mem _ hy)
      exact (inert_escaped hlow [] hc).2
    | star => decide
    | doubleStar => decide
  cases x with
  | char c =>
    have hinert := (inert_escaped hlow singleSentinel (hx.mem List.mem_cons_self)).1
    exact .inr ⟨rfl, hinert.not_prefix hrest (k := 'S') rfl rfl⟩
  | star => exact .inl ⟨rfl, rfl⟩
  | doubleStar =>
    have hinert : Inert singleSentinel ".*".toList := by decide
    exact .inr ⟨rfl, hinert.not_prefix hrest (k := 'S') rfl rfl⟩

end Passes

/-- **The source** of the regular expression, token by token. -/
theorem branchPatternSource_eq {pattern : Text} (h : ∀ c ∈ pattern, c.isUpper = false) :
    branchPatternSource pattern =
      '^' :: ((tokens (JsString.trimList pattern)).flatMap
        (Token.written escaped "[^/]*".toList ".*".toList) ++ ['$']) := by
  have htrim : ∀ c ∈ JsString.trimList pattern, c ∈ pattern := by
    intro c hc
    rw [JsString.trimList] at hc
    have hdropped := (List.dropWhile_sublist _).mem (List.mem_reverse.mp hc)
    exact (List.dropWhile_sublist _).mem (List.mem_reverse.mp hdropped)
  have hlow : ∀ c, Token.char c ∈ tokens (JsString.trimList pattern) → c.isUpper = false :=
    fun c hc => h c (htrim c (char_mem_tokens hc).1)
  rw [branchPatternSource, replaceAll_doubleStar,
    replaceAll_star fun c hc => (char_mem_tokens hc).2, escapeRegExp_written,
    replaceAll_multiSentinel hlow, replaceAll_singleSentinel hlow]

/-! ### What is matched -/

theorem isSyntax_iff (c : Char) : isSyntax c = true ↔ isEscaped c = true ∨ c = '*' := by
  have hperm : "^$\\.*+?()[]{}|".toList.Perm ("|\\{}()[]^$+?.".toList ++ ['*']) := by decide
  rw [isSyntax, isEscaped, List.contains_iff_mem, List.contains_iff_mem, hperm.mem_iff,
    List.mem_append, List.mem_singleton]

variable {c : Char} {t : Text}

theorem readItems_escape (env : Casing) (hc : isEscaped c = true) (rest : Text) :
    readItems env (['\\', c] ++ rest) = (readItems env rest).map (literal env c :: ·) := by
  have hsyntax : isSyntax c = true := (isSyntax_iff c).mpr (.inl hc)
  change readItems env ('\\' :: c :: rest) = _
  rw [readItems, if_pos hsyntax]

theorem readItems_plain (env : Casing) (hstar : c ≠ '*') (hc : ¬ isEscaped c = true) (rest : Text) :
    readItems env ([c] ++ rest) = (readItems env rest).map (literal env c :: ·) := by
  have hne : ∀ d, isEscaped d = true → c ≠ d := by
    rintro d hd rfl
    exact hc hd
  have hsyntax : ¬ isSyntax c = true := fun h => ((isSyntax_iff c).mp h).elim hc hstar
  change readItems env (c :: rest) = _
  rw [readItems, if_neg hsyntax]
  · exact hne '$' (by decide)
  · exact fun _ h => absurd h (hne '.' (by decide))
  · exact fun _ h => absurd h (hne '[' (by decide))
  · exact fun _ _ h => absurd h (hne '\\' (by decide))

theorem readItems_source (env : Casing) (xs : List Token)
    (h : ∀ c, Token.char c ∈ xs → c ≠ '*') :
    readItems env (xs.flatMap (Token.written escaped "[^/]*".toList ".*".toList) ++ ['$']) =
      some (xs.map (Token.item env)) := by
  induction xs with
  | nil => rfl
  | cons x xs ih =>
    have hrest := ih fun c hc => h c (List.mem_cons_of_mem _ hc)
    rw [List.flatMap_cons, List.append_assoc, List.map_cons]
    cases x with
    | star =>
      exact (congrArg (Option.map (RegExp.star (noSlash env) :: ·)) hrest).trans rfl
    | doubleStar =>
      exact (congrArg (Option.map (RegExp.star anyChar :: ·)) hrest).trans rfl
    | char c =>
      have hread : readItems env (escaped c ++
          (xs.flatMap (Token.written escaped "[^/]*".toList ".*".toList) ++ ['$'])) =
          (readItems env (xs.flatMap (Token.written escaped "[^/]*".toList ".*".toList) ++
            ['$'])).map (literal env c :: ·) := by
        rw [escaped]
        split
        · next hescaped => exact readItems_escape env hescaped _
        · next hescaped => exact readItems_plain env (h c List.mem_cons_self) hescaped _
      exact hread.trans (congrArg (Option.map (literal env c :: ·)) hrest)

theorem toLower_of_not_upper (h : c.isUpper = false) : c.toLower = c := by
  have hnot : ¬ ('A'.val ≤ c.val ∧ c.val ≤ 'Z'.val) := of_decide_eq_false h
  exact dif_neg hnot

theorem toLower_of_upper (h : 'A'.val ≤ c.val ∧ c.val ≤ 'Z'.val) :
    c.toLower.val = c.val + ('a'.val - 'A'.val) := by
  delta Char.toLower
  rw [dif_pos h]

theorem toLower_ne_slash {d : Char} (h : d.isUpper = true) : d.toLower ≠ '/' := by
  intro hslash
  have hletter : 'A'.val ≤ d.val ∧ d.val ≤ 'Z'.val := of_decide_eq_true h
  have hval : d.val + ('a'.val - 'A'.val) = '/'.val := by
    rw [← toLower_of_upper hletter, hslash]
  have hlow : (65 : UInt32) ≤ d.val := hletter.1
  have hhigh : d.val ≤ (90 : UInt32) := hletter.2
  have hsum : d.val + 32 = (47 : UInt32) := hval
  grind

theorem canonicalize_eq_slash_iff (env : Casing) (d : Char) :
    env.canonicalize d = env.canonicalize '/' ↔ d = '/' := by
  constructor
  · intro h
    have hlower : d.toLower = '/' := env.canonicalize_ascii '/' d (by decide) h
    cases hupper : d.isUpper with
    | true => exact absurd hlower (toLower_ne_slash hupper)
    | false => rwa [toLower_of_not_upper hupper] at hlower
  · rintro rfl
    rfl

/-- **The items of a pattern** match what its glob matches. -/
theorem mem_ends_items {env : Casing} {xs : List Token} {before b : Text} :
    (⟨b, []⟩ : RegExp.Place) ∈ (RegExp.all (xs.map (Token.item env))).ends ⟨before, t⟩ ↔
      b = t.reverse ++ before ∧ Matches env.Same InLine xs t := by
  induction xs generalizing before t with
  | nil =>
    rw [List.map_nil, RegExp.all, RegExp.ends, List.mem_singleton, RegExp.Place.mk.injEq]
    constructor
    · rintro ⟨rfl, rfl⟩
      exact ⟨rfl, .nil⟩
    · rintro ⟨rfl, hmatches⟩
      cases hmatches
      exact ⟨rfl, rfl⟩
  | cons x xs ih =>
    rw [List.map_cons, RegExp.all, RegExp.mem_ends_seq]
    cases x with
    | char c =>
      constructor
      · rintro ⟨m, hm, hq⟩
        obtain ⟨d, rest, hrest, hd, rfl⟩ := RegExp.mem_ends_chars.mp hm
        dsimp only at hrest
        obtain ⟨rfl, hmatches⟩ := ih.mp hq
        have hfold : env.canonicalize d = env.canonicalize c := of_decide_eq_true hd
        rw [hrest, List.reverse_cons, List.append_assoc]
        exact ⟨rfl, .char hfold hmatches⟩
      · rintro ⟨rfl, hmatches⟩
        cases hmatches with
        | @char _ d _ rest hd hmatches =>
          have hfold : env.canonicalize d = env.canonicalize c := hd
          refine ⟨⟨d :: before, rest⟩, ?_, ih.mpr ⟨?_, hmatches⟩⟩
          · exact RegExp.mem_ends_chars.mpr ⟨d, rest, rfl, decide_eq_true hfold, rfl⟩
          · rw [List.reverse_cons, List.append_assoc]
            rfl
    | star =>
      have hslash : ∀ d, decide (env.canonicalize d ≠ env.canonicalize '/') = true ↔ d ≠ '/' :=
        fun d => by rw [decide_eq_true_eq, Ne, canonicalize_eq_slash_iff]
      constructor
      · rintro ⟨m, hm, hq⟩
        obtain ⟨u, v, huv, hu, rfl⟩ := RegExp.mem_ends_star_chars.mp hm
        dsimp only at huv
        obtain ⟨rfl, hmatches⟩ := ih.mp hq
        rw [huv, List.reverse_append, List.append_assoc]
        exact ⟨rfl, .star (fun d hd => (hslash d).mp (hu d hd)) hmatches⟩
      · rintro ⟨rfl, hmatches⟩
        cases hmatches with
        | @star u _ rest hu hmatches =>
          refine ⟨⟨u.reverse ++ before, rest⟩, ?_, ih.mpr ⟨?_, hmatches⟩⟩
          · exact RegExp.mem_ends_star_chars.mpr
              ⟨u, rest, rfl, fun d hd => (hslash d).mpr (hu d hd), rfl⟩
          · rw [List.reverse_append, List.append_assoc]
    | doubleStar =>
      have hline : ∀ d, (!JsString.isLineTerminator d) = true ↔ InLine d :=
        fun d => by rw [Bool.not_eq_true']; rfl
      constructor
      · rintro ⟨m, hm, hq⟩
        obtain ⟨u, v, huv, hu, rfl⟩ := RegExp.mem_ends_star_chars.mp hm
        dsimp only at huv
        obtain ⟨rfl, hmatches⟩ := ih.mp hq
        rw [huv, List.reverse_append, List.append_assoc]
        exact ⟨rfl, .doubleStar (fun d hd => (hline d).mp (hu d hd)) hmatches⟩
      · rintro ⟨rfl, hmatches⟩
        cases hmatches with
        | @doubleStar u _ rest hu hmatches =>
          refine ⟨⟨u.reverse ++ before, rest⟩, ?_, ih.mpr ⟨?_, hmatches⟩⟩
          · exact RegExp.mem_ends_star_chars.mpr
              ⟨u, rest, rfl, fun d hd => (hline d).mpr (hu d hd), rfl⟩
          · rw [List.reverse_append, List.append_assoc]

theorem normalizeBranchName_not_upper (env : Casing) (value : Text) :
    ∀ c ∈ normalizeBranchName env value, c.isUpper = false := by
  intro c hc
  rw [normalizeBranchName] at hc
  dsimp only at hc
  split at hc
  · cases hc
  · split at hc
    · exact env.toLowerCase_not_upper _ c (List.mem_of_mem_drop hc)
    · exact env.toLowerCase_not_upper _ c hc

theorem matchBranchPattern_eq_true_iff (env : Casing) (branch pattern : Text) :
    matchBranchPattern env branch pattern = true ↔
      normalizeBranchName env branch ≠ [] ∧ normalizeBranchName env pattern ≠ [] ∧
        Matches env.Same InLine (tokens (JsString.trimList (normalizeBranchName env pattern)))
          (normalizeBranchName env branch) := by
  have hitems := readItems_source env
    (tokens (JsString.trimList (normalizeBranchName env pattern)))
    fun c hc => (char_mem_tokens hc).2
  have hread : branchPatternToRegExp env (normalizeBranchName env pattern) =
      some (.seq .start (.seq (.all ((tokens (JsString.trimList
        (normalizeBranchName env pattern))).map (Token.item env))) .finish)) := by
    rw [branchPatternToRegExp, branchPatternSource_eq (normalizeBranchName_not_upper env pattern),
      readSource, hitems, Option.map_some]
  rw [matchBranchPattern, hread]
  split
  · next hempty =>
    refine iff_of_false Bool.false_ne_true fun h => ?_
    exact hempty.elim h.1 h.2.1
  · next hempty =>
    obtain ⟨hbranch, hpattern⟩ := not_or.mp hempty
    rw [Option.any_some, RegExp.test_anchored, and_iff_right hbranch, and_iff_right hpattern]
    constructor
    · rintro ⟨before, h⟩
      exact (mem_ends_items.mp h).2
    · exact fun h => ⟨_, mem_ends_items.mpr ⟨rfl, h⟩⟩

/-- **`matchBranchPattern`** is the glob, up to the folding of cases. In what it compares, only an
ASCII character itself folds to that character. -/
theorem matchBranchPattern_iff (env : Casing) (branch pattern : Text) :
    (matchBranchPattern env branch pattern = true ↔
      normalizeBranchName env branch ≠ [] ∧ normalizeBranchName env pattern ≠ [] ∧
        Matches env.Same InLine (tokens (JsString.trimList (normalizeBranchName env pattern)))
          (normalizeBranchName env branch)) ∧
    ∀ c ∈ normalizeBranchName env pattern, ∀ d ∈ normalizeBranchName env branch,
      c.toNat < 128 → env.Same c d → d = c := by
  refine ⟨matchBranchPattern_eq_true_iff env branch pattern, fun c hc d hd hascii hsame => ?_⟩
  have hlower := env.canonicalize_ascii c d hascii hsame
  rwa [toLower_of_not_upper (normalizeBranchName_not_upper env pattern c hc),
    toLower_of_not_upper (normalizeBranchName_not_upper env branch d hd)] at hlower

/-! ### Two letters with one capital -/

theorem matches_chars_iff {any : Char → Prop} {us : Text} :
    Matches (· = ·) any (us.map .char) t ↔ t = us := by
  induction us generalizing t with
  | nil =>
    constructor
    · intro h
      cases h
      rfl
    · rintro rfl
      exact .nil
  | cons c us ih =>
    constructor
    · intro h
      cases h with
      | char hcd hrest => rw [← hcd, ih.mp hrest]
    · rintro rfl
      exact .char rfl (ih.mpr rfl)

theorem toLower_not_upper (c : Char) : c.toLower.isUpper = false := by
  cases hupper : c.isUpper with
  | false => rw [toLower_of_not_upper hupper, hupper]
  | true =>
    have hletter : 'A'.val ≤ c.val ∧ c.val ≤ 'Z'.val := of_decide_eq_true hupper
    refine decide_eq_false ?_
    rintro ⟨-, hhigh⟩
    rw [toLower_of_upper hletter] at hhigh
    have hhigh : c.val + 32 ≤ (90 : UInt32) := hhigh
    have hlow : (65 : UInt32) ≤ c.val := hletter.1
    have hletter : c.val ≤ (90 : UInt32) := hletter.2
    grind

theorem toUpper_cases (c : Char) :
    (c.toUpper.toLower = c.toLower ∧ c.toUpper ≠ 'Σ') ∨ c.toUpper = c := by
  by_cases h : 'a'.val ≤ c.val ∧ c.val ≤ 'z'.val
  · obtain ⟨n, hn, rfl⟩ := JsString.exists_letter h
    have hall : ∀ n < 26, (Char.ofNat (97 + n)).toUpper.toLower = (Char.ofNat (97 + n)).toLower ∧
        (Char.ofNat (97 + n)).toUpper ≠ 'Σ' := by decide
    exact .inl (hall n hn)
  · exact .inr (dif_neg h)

theorem toLower_toUpper (c : Char) : c.toUpper.toLower = c.toLower := by
  rcases toUpper_cases c with ⟨h, -⟩ | h
  · exact h
  · rw [h]

/-- The two small forms of the letter sigma have the same capital. -/
def greekCasing : Casing where
  toLowerCase cs := cs.map Char.toLower
  toLowerCase_not_upper cs c hc := by
    obtain ⟨d, -, rfl⟩ := List.mem_map.mp hc
    exact toLower_not_upper d
  canonicalize c := if c = 'ς' ∨ c = 'σ' then 'Σ' else c.toUpper
  canonicalize_ascii c d hc h := by
    have hplain : ¬ (c = 'ς' ∨ c = 'σ') := by
      rintro (rfl | rfl)
      · exact absurd hc (by decide)
      · exact absurd hc (by decide)
    rw [if_neg hplain] at h
    split at h
    · rcases toUpper_cases c with ⟨-, hne⟩ | hsame
      · exact absurd h.symm hne
      · rw [hsame] at h
        exact absurd (h ▸ hc) (by decide)
    · rw [← toLower_toUpper d, h, toLower_toUpper]

/-- One of them matches the other. -/
theorem not_glob_sigma :
    matchBranchPattern greekCasing "feature/σ".toList "feature/ς".toList = true ∧
      ¬ Matches (· = ·) (fun _ => True) (tokens "feature/ς".toList) "feature/σ".toList := by
  have htokens : tokens "feature/ς".toList = "feature/ς".toList.map .char := by decide
  refine ⟨by decide +kernel, ?_⟩
  rw [htokens, matches_chars_iff]
  decide

end CompareVI.Branches
