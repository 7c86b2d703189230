import CompareVI.Cli.ArgTokenizer

/-!
# Where the two argument tokenizers agree

What both tokenizers read in the same way is a line of words (`Spells`): bare ones,
`-flag='value'` and quoted texts. The automaton collects a token for each word
(`foldl_spells`), the regular expression matches each word (`matchesFrom_of_spells`), and the
two split a word's token alike exactly when the word is uniform (`normalizeToken_word_iff`).
-/

open Framework
open Framework.PsString

namespace CompareVI.ArgTokens

/-! ### Uniform tokens -/

/-- The two sides read a flag with its value alike: there is one separator between them and
nothing to strip from either. -/
def Uniform (t : Text) : Prop :=
  (trimList t).head? = some '-' →
    match cut (· = '=') (trimList t) with
    | some (flag, val) => trimList flag = flag ∧ stripOuterQuotes val = val
    | none =>
      cutSpace (trimList t) = cut (· = ' ') (trimList t) ∧
        ∀ pair ∈ cut (· = ' ') (trimList t), stripOuterQuotes pair.2 = pair.2

theorem eq_nil_of_blank_suffix {t val : Text} (hs : val <:+ trimList t)
    (h : val.all isWhiteSpace = true) : val = [] := by
  by_contra hne
  have hlast := (Tokens.trimmed_trim t).getLast_of_suffix hs (val.getLast hne)
    (List.getLast?_eq_some_getLast hne)
  rw [List.all_eq_true.mp h _ (List.getLast_mem hne)] at hlast
  cases hlast

theorem value_eq_iff {val : Text} (h : val.all isWhiteSpace = true → val = []) :
    [val].filter (· ≠ []) = [stripOuterQuotes val].filter (fun t => !t.all isWhiteSpace) ↔
      stripOuterQuotes val = val := by
  by_cases hnil : val = []
  · subst hnil
    exact iff_of_true rfl rfl
  · rw [List.filter_cons_of_pos (by simpa using hnil), List.filter_nil, List.filter_cons]
    constructor
    · intro heq
      split at heq
      · exact (List.head_eq_of_cons_eq heq).symm
      · cases heq
    · intro hstrip
      have hblank : val.all isWhiteSpace = false := Bool.eq_false_iff.mpr fun hall => hnil (h hall)
      rw [hstrip, hblank]
      rfl

theorem pair_eq_pieces_iff {flag val : Text} (hflag : flag.head? = some '-')
    (hval : val.all isWhiteSpace = true → val = []) :
    [flag, val].filter (· ≠ []) = pieces (some (flag, val)) ↔
      trimList flag = flag ∧ stripOuterQuotes val = val := by
  have hne : flag ≠ [] := by
    rintro rfl
    cases hflag
  rw [pieces_eq hflag, List.filter_cons_of_pos (by simpa using hne), List.cons.injEq,
    value_eq_iff hval, eq_comm (a := flag)]

theorem val_of_cut {p : Char → Bool} {t flag val : Text}
    (h : cut p (trimList t) = some (flag, val)) (hblank : val.all isWhiteSpace = true) :
    val = [] := by
  obtain ⟨-, -, c, -, htok⟩ := cut_eq_some_iff.mp h
  refine eq_nil_of_blank_suffix (t := t) ?_ hblank
  rw [htok]
  exact ⟨flag ++ [c], by simp⟩

theorem cut_isWhiteSpace_isSome {cs flag val : Text} (hcs : cs.head? = some '-')
    (h : cut (· = ' ') cs = some (flag, val)) : cutSpace cs ≠ none := by
  obtain ⟨-, -, c, hc, rfl⟩ := cut_eq_some_iff.mp h
  rw [cutSpace, Ne, Option.map_eq_none_iff, cut_eq_none_iff hcs (by decide)]
  intro hall
  have hws := hall c (by simp)
  rw [of_decide_eq_true hc] at hws
  exact absurd hws (by decide)

theorem trimList_of_forall {cs : Text} (h : ∀ c ∈ cs, isWhiteSpace c = false) :
    trimList cs = cs :=
  Tokens.trim_of_trimmed ⟨fun c hc => h c (List.mem_of_head? hc),
    fun c hc => h c (List.mem_of_getLast? hc)⟩

theorem pieces_ne_self {cs flag val : Text} (hcs : cs.head? = some '-')
    (h : cutSpace cs = some (flag, val)) : pieces (some (flag, val)) ≠ [cs] := by
  obtain ⟨rest, hcut, -⟩ := cutSpace_eq_some_iff.mp h
  rw [pieces_eq (head_of_cut hcs hcut)]
  intro heq
  obtain ⟨-, -, c, -, rfl⟩ := cut_eq_some_iff.mp hcut
  have hlen : (trimList flag).length ≤ flag.length := Tokens.length_trim_le flag
  rw [List.head_eq_of_cons_eq heq, List.length_append, List.length_cons] at hlen
  omega

theorem pair_eq_pieces_iff_of_space {t flag val flag' val' : Text}
    (hdash : (trimList t).head? = some '-') (hcut : cut (· = ' ') (trimList t) = some (flag, val))
    (hspace : cutSpace (trimList t) = some (flag', val')) :
    [flag, val].filter (· ≠ []) = pieces (some (flag', val')) ↔
      (flag', val') = (flag, val) ∧ stripOuterQuotes val = val := by
  have hflag := head_of_cut hdash hcut
  obtain ⟨rest, hws, rfl⟩ := cutSpace_eq_some_iff.mp hspace
  obtain ⟨-, hfree, c', -, htok'⟩ := cut_eq_some_iff.mp hws
  obtain ⟨hne, -, c, -, htok⟩ := cut_eq_some_iff.mp hcut
  have htrim : trimList flag' = flag' := trimList_of_forall hfree
  constructor
  · intro heq
    rw [pieces_eq (head_of_cut hdash hws), htrim,
      List.filter_cons_of_pos (by simpa using hne)] at heq
    obtain ⟨rfl, hval⟩ := List.cons.inj heq
    obtain ⟨-, rfl⟩ := List.cons.inj (List.append_cancel_left (htok.symm.trans htok'))
    -- what is stripped from the value is not shorter than the value only if nothing is
    have hsub : val.dropWhile isWhiteSpace = val := by
      refine (List.dropWhile_sublist _).eq_of_length_le ?_
      by_cases hnil : val = []
      · rw [hnil]
        exact Nat.le_refl _
      · rw [List.filter_cons_of_pos (by simpa using hnil), List.filter_nil,
          List.filter_cons] at hval
        split at hval
        · have hle := length_stripOuterQuotes_le (val.dropWhile isWhiteSpace)
          rw [← List.head_eq_of_cons_eq hval] at hle
          exact hle.trans (Tokens.length_trim_le _)
        · cases hval
    rw [hsub] at hval ⊢
    exact ⟨rfl, (value_eq_iff (val_of_cut hcut)).mp hval⟩
  · rintro ⟨hpair, hstrip⟩
    obtain ⟨rfl, hval⟩ := Prod.mk.inj hpair
    rw [hval]
    exact (pair_eq_pieces_iff hflag (val_of_cut hcut)).mpr ⟨htrim, hstrip⟩

/-- **Uniform tokens** are what both sides split alike. -/
theorem normalizeToken_eq_expandFlagToken_iff {t : Text}
    (h : t.all isWhiteSpace = true → t = []) :
    normalizeToken t = expandFlagToken t ↔ Uniform t := by
  by_cases hnil : t = []
  · subst hnil
    exact iff_of_true rfl fun hdash => by cases hdash
  have hblank : t.all isWhiteSpace = false := Bool.eq_false_iff.mpr fun hall => hnil (h hall)
  rw [normalizeToken, if_neg hnil, expandFlagToken_eq hblank, Uniform]
  by_cases hdash : (trimList t).head? = some '-'
  · rw [if_pos hdash, if_pos hdash]
    simp only [hdash, true_implies]
    cases heq : cut (· = '=') (trimList t) with
    | some pair => exact pair_eq_pieces_iff (head_of_cut hdash heq) (val_of_cut heq)
    | none =>
      rw [Option.none_or, Option.none_or]
      cases hsp : cut (· = ' ') (trimList t) with
      | some pair =>
        obtain ⟨flag, val⟩ := pair
        cases hws : cutSpace (trimList t) with
        | some pair' =>
          obtain ⟨flag', val'⟩ := pair'
          simpa using pair_eq_pieces_iff_of_space hdash hsp hws
        | none => exact absurd hws (cut_isWhiteSpace_isSome hdash hsp)
      | none =>
        cases hws : cutSpace (trimList t) with
        | some pair' =>
          exact iff_of_false (fun heq => pieces_ne_self hdash hws heq.symm) fun h => by cases h.1
        | none => simp
  · rw [if_neg hdash, if_neg hdash]
    exact iff_of_true rfl fun h => absurd h hdash

/-! ### Lines of words -/

inductive Quote where
  | single
  | double
  deriving DecidableEq, Repr

def Quote.char : Quote → Char
  | single => '\''
  | double => '"'

def isPlain (c : Char) : Bool := isBare c && c ≠ '"' && c ≠ '\''

/-- A word of a line: a bare one, a flag with a value in quotes, or a quoted text, which is
empty or not blank. -/
inductive Word where
  | bare (text : Text) (nonempty : text ≠ []) (plain : ∀ c ∈ text, isPlain c = true)
  | assigned (flag : Text) (quote : Quote) (val : Text) (dash : flag.head? = some '-')
      (plain : ∀ c ∈ flag, isPlain c = true ∧ c ≠ '=') (plainVal : ∀ c ∈ val, isPlain c = true)
  | quoted (quote : Quote) (text : Text) (unquoted : quote.char ∉ text)
      (blank : text.all isWhiteSpace = true → text = [])

namespace Word

def text : Word → Text
  | bare text _ _ => text
  | assigned flag quote val _ _ _ => flag ++ '=' :: quote.char :: (val ++ [quote.char])
  | quoted quote text _ _ => quote.char :: (text ++ [quote.char])

def token : Word → Text
  | bare text _ _ => text
  | assigned flag _ val _ _ _ => flag ++ '=' :: val
  | quoted _ text _ _ => text

def Uniform : Word → Prop
  | quoted _ text _ _ => ArgTokens.Uniform text
  | _ => True

end Word

/-- The text is empty or begins with white space. -/
def StartsGap (cs : Text) : Prop := ∀ c ∈ cs.head?, isWhiteSpace c = true

/-- The line spells the words, with white space around and between them. -/
inductive Spells : Text → List Word → Prop
  | nil {gap : Text} : (∀ c ∈ gap, isWhiteSpace c = true) → Spells gap []
  | cons {gap rest : Text} {word : Word} {words : List Word} :
      (∀ c ∈ gap, isWhiteSpace c = true) → StartsGap rest → Spells rest words →
      Spells (gap ++ (word.text ++ rest)) (word :: words)

theorem isWhiteSpace_of_isPlain {c : Char} (h : isPlain c = true) : isWhiteSpace c = false := by
  simp only [isPlain, isBare, Bool.and_eq_true, Bool.not_eq_true'] at h
  exact h.1.1.2

theorem isBare_of_isPlain {c : Char} (h : isPlain c = true) : isBare c = true := by
  simp only [isPlain, Bool.and_eq_true] at h
  exact h.1.1

theorem ne_quote_of_isPlain {c : Char} (h : isPlain c = true) : c ≠ '"' ∧ c ≠ '\'' := by
  simp only [isPlain, Bool.and_eq_true, ne_eq, decide_not, Bool.not_eq_true',
    decide_eq_false_iff_not] at h
  exact ⟨h.1.2, h.2⟩

@[simp] theorem isWhiteSpace_quote (q : Quote) : isWhiteSpace q.char = false := by
  cases q <;> decide

theorem Word.head_text (w : Word) : ∃ c rest, w.text = c :: rest ∧ isWhiteSpace c = false := by
  cases w with
  | bare text nonempty plain =>
    obtain ⟨c, rest, rfl⟩ := List.exists_cons_of_ne_nil nonempty
    exact ⟨c, rest, rfl, isWhiteSpace_of_isPlain (plain c List.mem_cons_self)⟩
  | assigned flag quote val dash plain plainVal =>
    obtain ⟨rest, rfl⟩ := List.head?_eq_some_iff.mp dash
    exact ⟨'-', _, rfl, by decide⟩
  | quoted quote text unquoted blank => exact ⟨quote.char, _, rfl, isWhiteSpace_quote quote⟩

/-! ### The automaton on a line -/

def outside (sb : Text) (result : List Text) : Tokenizer := ⟨sb, false, false, result⟩

def inside (q : Quote) (sb : Text) (result : List Text) : Tokenizer :=
  ⟨sb, q = .single, q = .double, result⟩

variable {sb : Text} {result : List Text}

theorem foldl_plain {cs : Text} (h : ∀ c ∈ cs, isPlain c = true) :
    cs.foldl Tokenizer.step (outside sb result) = outside (sb ++ cs) result := by
  induction cs generalizing sb with
  | nil => rw [List.append_nil]; rfl
  | cons c cs ih =>
    have hc := h c List.mem_cons_self
    have hstep : Tokenizer.step (outside sb result) c = outside (sb ++ [c]) result := by
      simp [Tokenizer.step, outside, isWhiteSpace_of_isPlain hc, ne_quote_of_isPlain hc]
    rw [List.foldl_cons, hstep, ih fun x hx => h x (List.mem_cons_of_mem _ hx), List.append_assoc,
      List.singleton_append]

theorem foldl_inside (q : Quote) {cs : Text} (h : q.char ∉ cs) :
    cs.foldl Tokenizer.step (inside q sb result) = inside q (sb ++ cs) result := by
  induction cs generalizing sb with
  | nil => rw [List.append_nil]; rfl
  | cons c cs ih =>
    rw [List.mem_cons, not_or] at h
    have hstep : Tokenizer.step (inside q sb result) c = inside q (sb ++ [c]) result := by
      have hc := h.1
      cases q <;> simp_all [Tokenizer.step, inside, Quote.char, eq_comm]
    rw [List.foldl_cons, hstep, ih h.2, List.append_assoc, List.singleton_append]

theorem foldl_quoted (q : Quote) {cs : Text} (h : q.char ∉ cs) :
    (q.char :: (cs ++ [q.char])).foldl Tokenizer.step (outside sb result) =
      outside (sb ++ cs) result := by
  have hopen : Tokenizer.step (outside sb result) q.char = inside q sb result := by
    cases q <;> rfl
  have hclose : Tokenizer.step (inside q (sb ++ cs) result) q.char = outside (sb ++ cs) result := by
    cases q <;> rfl
  rw [List.foldl_cons, hopen, List.foldl_append, foldl_inside q h, List.foldl_cons, hclose]
  rfl

theorem foldl_word (w : Word) :
    w.text.foldl Tokenizer.step (outside sb result) = outside (sb ++ w.token) result := by
  cases w with
  | bare text nonempty plain => exact foldl_plain plain
  | assigned flag quote val dash plain plainVal =>
    have hflag : ∀ c ∈ flag ++ ['='], isPlain c = true := by
      intro c hc
      obtain hc | hc := List.mem_append.mp hc
      · exact (plain c hc).1
      · rw [List.mem_singleton.mp hc]
        decide
    have hval : quote.char ∉ val := by
      intro hmem
      have := ne_quote_of_isPlain (plainVal _ hmem)
      cases quote <;> simp [Quote.char] at this
    have htext : (Word.assigned flag quote val dash plain plainVal).text =
        (flag ++ ['=']) ++ quote.char :: (val ++ [quote.char]) := by simp [Word.text]
    rw [htext, List.foldl_append, foldl_plain hflag, foldl_quoted quote hval]
    simp [Word.token]
  | quoted quote text unquoted blank => exact foldl_quoted quote unquoted

theorem flush_outside (sb : Text) (result : List Text) :
    (outside sb result).flush = outside [] (result ++ [sb].filter (· ≠ [])) := by
  rw [Tokenizer.flush]
  split
  · next hnil =>
    obtain rfl : sb = [] := hnil
    rw [show [([] : Text)].filter (· ≠ []) = [] from rfl, List.append_nil]
  · next hne =>
    have hfilter : [sb].filter (· ≠ []) = [sb] := by
      have hsb : sb ≠ [] := hne
      simp [hsb]
    rw [hfilter]
    rfl

theorem foldl_gap {gap : Text} (hne : gap ≠ []) (h : ∀ c ∈ gap, isWhiteSpace c = true) :
    gap.foldl Tokenizer.step (outside sb result) =
      outside [] (result ++ [sb].filter (· ≠ [])) := by
  have hstep : ∀ {sb : Text} {result : List Text} {c : Char}, isWhiteSpace c = true →
      Tokenizer.step (outside sb result) c = outside [] (result ++ [sb].filter (· ≠ [])) := by
    intro sb result c hc
    have hquote : ∀ q : Quote, c ≠ q.char := by
      rintro q rfl
      rw [isWhiteSpace_quote] at hc
      cases hc
    have hsingle : c ≠ '\'' := hquote .single
    have hdouble : c ≠ '"' := hquote .double
    rw [← flush_outside]
    simp [Tokenizer.step, outside, hc, hsingle, hdouble]
  have hrest : ∀ {gap : Text} {result : List Text}, (∀ c ∈ gap, isWhiteSpace c = true) →
      gap.foldl Tokenizer.step (outside [] result) = outside [] result := by
    intro gap result hgap
    induction gap with
    | nil => rfl
    | cons c gap ih =>
      rw [List.foldl_cons, hstep (hgap c List.mem_cons_self)]
      rw [show [([] : Text)].filter (· ≠ []) = [] from rfl, List.append_nil]
      exact ih fun x hx => hgap x (List.mem_cons_of_mem _ hx)
  obtain ⟨c, gap, rfl⟩ := List.exists_cons_of_ne_nil hne
  rw [List.foldl_cons, hstep (h c List.mem_cons_self),
    hrest fun x hx => h x (List.mem_cons_of_mem _ hx)]

/-- **The automaton on a line**: a token for each word that is not empty, after the token
that is being collected. -/
theorem foldl_spells {s : Text} {words : List Word} (h : Spells s words)
    (hs : sb ≠ [] → StartsGap s) :
    ((s.foldl Tokenizer.step (outside sb result)).flush).result =
      result ++ (sb :: words.map Word.token).filter (· ≠ []) := by
  induction h generalizing sb result with
  | @nil gap hgap =>
    by_cases hnil : gap = []
    · rw [hnil, List.foldl_nil, flush_outside]
      rfl
    · rw [foldl_gap hnil hgap, flush_outside]
      simp [outside]
  | @cons gap rest word words hgap hrest hspells ih =>
    by_cases hnil : gap = []
    · -- no gap: nothing is being collected, as a word does not begin with white space
      obtain ⟨c, tail, htext, hc⟩ := word.head_text
      have hsb : sb = [] := by
        by_contra hne
        have hgap' := hs hne c (by rw [hnil, htext]; rfl)
        rw [hc] at hgap'
        cases hgap'
      rw [hnil, hsb, List.nil_append, List.foldl_append, foldl_word, ih fun _ => hrest]
      simp
    · rw [List.foldl_append, foldl_gap hnil hgap, List.foldl_append, foldl_word,
        ih fun _ => hrest, List.nil_append]
      rw [List.append_assoc, ← List.filter_append]
      rfl

/-- **The CLI on a line.** -/
theorem cliTokens_of_spells {s : Text} {words : List Word} (h : Spells s words) :
    cliTokens s = words.flatMap fun w => normalizeToken w.token := by
  have htokens : tokenize s = (words.map Word.token).filter (· ≠ []) := by
    have hfold := @foldl_spells [] [] _ _ h fun hne => absurd rfl hne
    rw [tokenize]
    split
    · next hblank =>
      cases h with
      | nil => rfl
      | @cons gap rest word words hgap hrest hspells =>
        obtain ⟨c, tail, htext, hc⟩ := word.head_text
        have hws := List.all_eq_true.mp hblank c (by simp [htext])
        rw [hc] at hws
        cases hws
    · exact hfold
  rw [cliTokens, normalizeFlagValuePairs, htokens, Tokens.flatMap_filter_of, List.flatMap_map]
  intro t ht
  rw [decide_eq_false_iff_not, ne_eq, not_not] at ht
  rw [ht]
  rfl

/-! ### The regular expression on a line -/

theorem matchesFrom_eq (n : ℕ) (cs : Text) : matchesFrom n cs = matchesFrom 0 (cs.drop n) := by
  induction cs generalizing n with
  | nil => cases n <;> rfl
  | cons c cs ih =>
    cases n with
    | zero => rfl
    | succ n => exact ih n

theorem quotedMatch_of_head {quote c : Char} {cs : Text} (hcs : cs.head? = some c)
    (h : c ≠ quote) : quotedMatch quote cs = none := by
  obtain ⟨rest, rfl⟩ := List.head?_eq_some_iff.mp hcs
  rw [quotedMatch, decide_eq_false h]
  rfl

theorem quotedMatch_empty (quote : Char) (cs : Text) :
    quotedMatch quote (quote :: quote :: cs) = none := by
  simp [quotedMatch]

theorem quotedMatch_quoted {quote : Char} {cs : Text} (hne : cs ≠ []) (h : quote ∉ cs)
    (rest : Text) :
    quotedMatch quote (quote :: (cs ++ quote :: rest)) = some (quote :: (cs ++ [quote])) := by
  have hcs : ∀ x ∈ cs, decide (x ≠ quote) = true := by
    intro x hx
    exact decide_eq_true fun heq => h (heq ▸ hx)
  have htake : (cs ++ quote :: rest).takeWhile (· ≠ quote) = cs := by
    rw [List.takeWhile_append_of_pos hcs, List.takeWhile_cons_of_neg (by simp), List.append_nil]
  have hdrop : (cs ++ quote :: rest).dropWhile (· ≠ quote) = quote :: rest := by
    rw [List.dropWhile_append_of_pos hcs, List.dropWhile_cons_of_neg (by simp)]
  rw [quotedMatch, htake, hdrop]
  simp [hne]

theorem takeWhile_isBare {cs rest : Text} (h : ∀ c ∈ cs, isBare c = true)
    (hrest : StartsGap rest) : (cs ++ rest).takeWhile isBare = cs := by
  rw [List.takeWhile_append_of_pos h]
  cases rest with
  | nil => exact List.append_nil cs
  | cons c rest =>
    have hc : isBare c = false := by
      rw [isBare, hrest c rfl, Bool.not_true, Bool.and_false]
    rw [List.takeWhile_cons_of_neg (by simp [hc]), List.append_nil]

theorem isBare_quote (q : Quote) : isBare q.char = true := by
  cases q <;> decide

theorem matchAt_bare {cs rest : Text} (hne : cs ≠ []) (h : ∀ x ∈ cs, isBare x = true)
    (hdouble : quotedMatch '"' (cs ++ rest) = none)
    (hsingle : quotedMatch '\'' (cs ++ rest) = none) (hrest : StartsGap rest) :
    matchAt (cs ++ rest) = some cs := by
  rw [matchAt, hdouble, hsingle, takeWhile_isBare h hrest, if_neg hne]
  rfl

/-- **Each word is a match.** -/
theorem matchAt_word (w : Word) {rest : Text} (hrest : StartsGap rest) :
    matchAt (w.text ++ rest) = some w.text := by
  cases w with
  | bare text nonempty plain =>
    obtain ⟨c, cs, rfl⟩ := List.exists_cons_of_ne_nil nonempty
    have hc := ne_quote_of_isPlain (plain c List.mem_cons_self)
    exact matchAt_bare nonempty (fun x hx => isBare_of_isPlain (plain x hx))
      (quotedMatch_of_head rfl hc.1) (quotedMatch_of_head rfl hc.2) hrest
  | assigned flag quote val dash plain plainVal =>
    have hhead : ((Word.assigned flag quote val dash plain plainVal).text ++ rest).head? =
        some '-' := by simp [Word.text, dash]
    refine matchAt_bare (by simp [Word.text]) ?_ (quotedMatch_of_head hhead (by decide))
      (quotedMatch_of_head hhead (by decide)) hrest
    intro x hx
    simp only [Word.text, List.mem_cons, List.mem_append, List.not_mem_nil, or_false] at hx
    obtain hx | rfl | rfl | hx | rfl := hx
    · exact isBare_of_isPlain (plain x hx).1
    · decide
    · exact isBare_quote quote
    · exact isBare_of_isPlain (plainVal x hx)
    · exact isBare_quote quote
  | quoted quote text unquoted blank =>
    by_cases hne : text = []
    · -- an empty quoted text is matched as two bare characters
      subst hne
      have hbare : ∀ x ∈ [quote.char, quote.char], isBare x = true := by
        intro x hx
        rw [List.mem_pair, or_self] at hx
        rw [hx]
        exact isBare_quote quote
      refine matchAt_bare (List.cons_ne_nil _ _) hbare ?_ ?_ hrest
      · cases quote with
        | single => exact quotedMatch_of_head rfl (by decide)
        | double => exact quotedMatch_empty _ _
      · cases quote with
        | single => exact quotedMatch_empty _ _
        | double => exact quotedMatch_of_head rfl (by decide)
    · have htext : (Word.quoted quote text unquoted blank).text ++ rest =
          quote.char :: (text ++ quote.char :: rest) := by simp [Word.text]
      have hmatch := quotedMatch_quoted hne unquoted rest
      rw [htext, matchAt]
      cases quote with
      | double =>
        have hdouble : quotedMatch '"' (Quote.double.char :: (text ++ Quote.double.char :: rest)) =
            some (Quote.double.char :: (text ++ [Quote.double.char])) := hmatch
        rw [hdouble]
        rfl
      | single =>
        have hsingle : quotedMatch '\'' (Quote.single.char :: (text ++ Quote.single.char :: rest)) =
            some (Quote.single.char :: (text ++ [Quote.single.char])) := hmatch
        rw [hsingle, quotedMatch_of_head rfl (by decide)]
        rfl

theorem matchesFrom_gap {gap : Text} (h : ∀ c ∈ gap, isWhiteSpace c = true) (rest : Text) :
    matchesFrom 0 (gap ++ rest) = matchesFrom 0 rest := by
  induction gap with
  | nil => rfl
  | cons c gap ih =>
    have hc := h c List.mem_cons_self
    have hquote : ∀ q : Quote, c ≠ q.char := by
      rintro q rfl
      rw [isWhiteSpace_quote] at hc
      cases hc
    have hbare : isBare c = false := by rw [isBare, hc, Bool.not_true, Bool.and_false]
    have hmatch : matchAt (c :: (gap ++ rest)) = none := by
      have hhead : (c :: (gap ++ rest)).head? = some c := rfl
      rw [matchAt, quotedMatch_of_head hhead (show c ≠ '"' from hquote .double),
        quotedMatch_of_head hhead (show c ≠ '\'' from hquote .single),
        List.takeWhile_cons_of_neg (by simp [hbare])]
      rfl
    rw [List.cons_append, matchesFrom, hmatch]
    exact ih fun x hx => h x (List.mem_cons_of_mem _ hx)

theorem matchesFrom_word (w : Word) {rest : Text} (hrest : StartsGap rest) :
    matchesFrom 0 (w.text ++ rest) = w.text :: matchesFrom 0 rest := by
  have hmatch := matchAt_word w hrest
  obtain ⟨c, cs, htext, -⟩ := w.head_text
  rw [htext] at hmatch ⊢
  rw [List.cons_append] at hmatch ⊢
  rw [matchesFrom, hmatch]
  dsimp only
  rw [matchesFrom_eq, List.length_cons, Nat.add_sub_cancel, List.drop_left]

/-- **The matches of a line** are its words. -/
theorem matchesFrom_of_spells {s : Text} {words : List Word} (h : Spells s words) :
    matchesFrom 0 s = words.map Word.text := by
  induction h with
  | @nil gap hgap =>
    have hmatches := matchesFrom_gap hgap []
    rwa [List.append_nil] at hmatches
  | cons hgap hrest hspells ih =>
    rw [matchesFrom_gap hgap, matchesFrom_word _ hrest, ih]
    rfl

/-- **The module on a line.** -/
theorem getLVCompareArgTokens_of_spells {s : Text} {words : List Word} (h : Spells s words) :
    getLVCompareArgTokens (.text s) =
      words.flatMap fun w => expandFlagToken (stripOuterQuotes w.text) := by
  have hraw : Spec.rawTokens (.text s) = words.map Word.text := by
    rw [Spec.rawTokens, matchesFrom_of_spells h]
    cases h with
    | nil hgap => rw [if_pos (List.all_eq_true.mpr hgap)]; rfl
    | @cons gap rest word words hgap hrest hspells =>
      obtain ⟨c, tail, htext, hc⟩ := word.head_text
      rw [if_neg, if_pos (by simp)]
      intro hblank
      have hws := List.all_eq_true.mp hblank c (by simp [htext])
      rw [hc] at hws
      cases hws
  rw [getLVCompareArgTokens_eq, hraw, List.flatMap_map]

/-! ### Agreement -/

theorem stripOuterQuotes_of_forall {cs : Text} (hws : ∀ c ∈ cs, isWhiteSpace c = false)
    (hhead : ∀ c ∈ cs.head?, c ≠ '"' ∧ c ≠ '\'') : stripOuterQuotes cs = cs := by
  rw [stripOuterQuotes, trimList_of_forall hws]
  cases cs with
  | nil => rfl
  | cons c cs =>
    obtain ⟨hdouble, hsingle⟩ := hhead c rfl
    simp [hdouble, hsingle]

theorem stripOuterQuotes_of_plain {cs : Text} (h : ∀ c ∈ cs, isPlain c = true) :
    stripOuterQuotes cs = cs :=
  stripOuterQuotes_of_forall (fun c hc => isWhiteSpace_of_isPlain (h c hc))
    fun c hc => ne_quote_of_isPlain (h c (List.mem_of_head? hc))

theorem stripOuterQuotes_quoted (q : Quote) (cs : Text) :
    stripOuterQuotes (q.char :: (cs ++ [q.char])) = cs := by
  have hlast : (q.char :: (cs ++ [q.char])).getLast? = some q.char := by
    rw [← List.cons_append, List.getLast?_concat]
  have htrim : trimList (q.char :: (cs ++ [q.char])) = q.char :: (cs ++ [q.char]) := by
    refine Tokens.trim_of_trimmed ⟨fun c hc => ?_, fun c hc => ?_⟩
    · rw [List.head?_cons, Option.mem_some_iff] at hc
      rw [← hc, isWhiteSpace_quote]
    · rw [hlast, Option.mem_some_iff] at hc
      rw [← hc, isWhiteSpace_quote]
  rw [stripOuterQuotes, htrim]
  cases q <;> simp [Quote.char] at hlast ⊢ <;> simp [hlast]

theorem uniform_of_plain {t : Text} (h : ∀ c ∈ t, isPlain c = true) : Uniform t := by
  have hws : ∀ c ∈ t, isWhiteSpace c = false := fun c hc => isWhiteSpace_of_isPlain (h c hc)
  intro hdash
  rw [trimList_of_forall hws] at hdash ⊢
  cases heq : cut (· = '=') t with
  | some pair =>
    obtain ⟨flag, val⟩ := pair
    obtain ⟨-, -, c, -, rfl⟩ := cut_eq_some_iff.mp heq
    refine ⟨trimList_of_forall fun c hc => hws c (List.mem_append_left _ hc),
      stripOuterQuotes_of_plain fun c hc => h c ?_⟩
    exact List.mem_append_right _ (List.mem_cons_of_mem _ hc)
  | none =>
    have hspace : cutSpace t = none := by
      rw [cutSpace, Option.map_eq_none_iff]
      exact (cut_eq_none_iff hdash (by decide)).mpr hws
    have hcut : cut (· = ' ') t = none := by
      refine (cut_char_eq_none_iff hdash (by decide)).mpr fun hmem => ?_
      exact absurd (hws _ hmem) (by decide)
    rw [hspace, hcut]
    exact ⟨rfl, fun _ hpair => absurd hpair (Option.not_mem_none _)⟩

theorem normalizeToken_assigned (flag val : Text) (quote : Quote) (dash : flag.head? = some '-')
    (plain : ∀ c ∈ flag, isPlain c = true ∧ c ≠ '=') (plainVal : ∀ c ∈ val, isPlain c = true) :
    normalizeToken (flag ++ '=' :: val) =
      expandFlagToken (flag ++ '=' :: quote.char :: (val ++ [quote.char])) := by
  have hne : flag ≠ [] := by
    rintro rfl
    cases dash
  have hflagws : ∀ c ∈ flag, isWhiteSpace c = false := fun c hc =>
    isWhiteSpace_of_isPlain (plain c hc).1
  have hfree : ∀ c ∈ flag, decide (c = '=') = false := fun c hc => decide_eq_false (plain c hc).2
  -- neither token has white space, and both are cut at the first equals sign
  have htrim : ∀ cs : Text, (∀ c ∈ cs, isWhiteSpace c = false) →
      trimList (flag ++ '=' :: cs) = flag ++ '=' :: cs := by
    intro cs hcs
    refine trimList_of_forall fun c hc => ?_
    obtain hc | hc := List.mem_append.mp hc
    · exact hflagws c hc
    · obtain rfl | hc := List.mem_cons.mp hc
      · decide
      · exact hcs c hc
  have hcut : ∀ cs : Text, cut (· = '=') (flag ++ '=' :: cs) = some (flag, cs) := fun cs =>
    cut_eq_some_iff.mpr ⟨hne, hfree, '=', by decide, rfl⟩
  have hhead : ∀ cs : Text, (flag ++ '=' :: cs).head? = some '-' := fun cs => by simp [dash]
  have hvalws : ∀ c ∈ val, isWhiteSpace c = false := fun c hc =>
    isWhiteSpace_of_isPlain (plainVal c hc)
  have hquotedws : ∀ c ∈ quote.char :: (val ++ [quote.char]), isWhiteSpace c = false := by
    intro c hc
    simp only [List.mem_cons, List.mem_append, List.not_mem_nil, or_false] at hc
    obtain rfl | hc | rfl := hc
    · exact isWhiteSpace_quote quote
    · exact hvalws c hc
    · exact isWhiteSpace_quote quote
  have hblank : (flag ++ '=' :: quote.char :: (val ++ [quote.char])).all isWhiteSpace = false := by
    rw [Bool.eq_false_iff, Ne, all_isWhiteSpace_iff, htrim _ hquotedws]
    simp
  have hval : val.all isWhiteSpace = true → val = [] := by
    rw [all_isWhiteSpace_iff, trimList_of_forall hvalws]
    exact id
  have hvalue := (value_eq_iff hval).mpr (stripOuterQuotes_of_plain plainVal)
  rw [stripOuterQuotes_of_plain plainVal] at hvalue
  rw [normalizeToken, if_neg (by simp), expandFlagToken_eq hblank, htrim _ hquotedws]
  rw [htrim _ hvalws, if_pos (hhead _), if_pos (hhead _), hcut, hcut, Option.some_or,
    Option.some_or]
  dsimp only
  rw [pieces_eq dash, stripOuterQuotes_quoted, trimList_of_forall hflagws, ← hvalue,
    List.filter_cons_of_pos (by simpa using hne)]

/-- **Words** that both sides split alike. -/
theorem normalizeToken_word_iff (w : Word) :
    normalizeToken w.token = expandFlagToken (stripOuterQuotes w.text) ↔ w.Uniform := by
  cases w with
  | bare text nonempty plain =>
    have hblank : text.all isWhiteSpace = true → text = [] := by
      rw [all_isWhiteSpace_iff,
        trimList_of_forall fun c hc => isWhiteSpace_of_isPlain (plain c hc)]
      exact id
    simp only [Word.token, Word.text, Word.Uniform, stripOuterQuotes_of_plain plain, iff_true]
    exact (normalizeToken_eq_expandFlagToken_iff hblank).mpr (uniform_of_plain plain)
  | assigned flag quote val dash plain plainVal =>
    have hstrip : stripOuterQuotes (flag ++ '=' :: quote.char :: (val ++ [quote.char])) =
        flag ++ '=' :: quote.char :: (val ++ [quote.char]) := by
      refine stripOuterQuotes_of_forall (fun c hc => ?_) fun c hc => ?_
      · simp only [List.mem_cons, List.mem_append, List.not_mem_nil, or_false] at hc
        obtain hc | rfl | rfl | hc | rfl := hc
        · exact isWhiteSpace_of_isPlain (plain c hc).1
        · decide
        · exact isWhiteSpace_quote quote
        · exact isWhiteSpace_of_isPlain (plainVal c hc)
        · exact isWhiteSpace_quote quote
      · rw [List.head?_append, dash, Option.some_or, Option.mem_some_iff] at hc
        rw [← hc]
        decide
    simp only [Word.token, Word.text, Word.Uniform, hstrip, iff_true]
    exact normalizeToken_assigned flag val quote dash plain plainVal
  | quoted quote text unquoted blank =>
    simp only [Word.token, Word.text, Word.Uniform, stripOuterQuotes_quoted]
    exact normalizeToken_eq_expandFlagToken_iff blank

/-- **Agreement on a line** whose quoted texts are uniform. -/
theorem tokens_eq_of_spells {s : Text} {words : List Word} (h : Spells s words)
    (hwords : ∀ w ∈ words, w.Uniform) : cliTokens s = getLVCompareArgTokens (.text s) := by
  rw [cliTokens_of_spells h, getLVCompareArgTokens_of_spells h]
  exact List.flatMap_congr fun w hw => (normalizeToken_word_iff w).mpr (hwords w hw)

theorem spells_word (w : Word) : Spells w.text [w] := by
  have h := @Spells.cons [] [] w [] nofun nofun (.nil nofun)
  rwa [List.nil_append, List.append_nil] at h

/-- **Agreement on a word**: it is uniform. -/
theorem tokens_eq_iff (w : Word) :
    cliTokens w.text = getLVCompareArgTokens (.text w.text) ↔ w.Uniform := by
  have hspells := spells_word w
  rw [cliTokens_of_spells hspells, getLVCompareArgTokens_of_spells hspells, List.flatMap_singleton,
    List.flatMap_singleton]
  exact normalizeToken_word_iff w

/-- The two pipelines give the same list, which is a normal form on both sides. -/
def TokenizerLaw (s : Text) : Prop :=
  cliTokens s = getLVCompareArgTokens (.text s) ∧
    normalizeFlagValuePairs (cliTokens s) = cliTokens s ∧
    getLVCompareArgTokens (.array (getLVCompareArgTokens (.text s))) =
      getLVCompareArgTokens (.text s)

/-- A comma separates arguments in the module alone. -/
theorem not_tokenizerLaw_comma : ¬ TokenizerLaw ['a', ',', 'b'] := by
  rintro ⟨h, -, -⟩
  exact absurd h (by decide +kernel)

/-- **The two tokenizers** agree on the lines of uniform words, and on a word only if it is
uniform. Normalizing a list again keeps it exactly when its tokens are settled. -/
theorem tokenizers (s : Text) :
    (∀ words, Spells s words → (∀ w ∈ words, w.Uniform) →
      cliTokens s = getLVCompareArgTokens (.text s)) ∧
    (∀ w : Word, w.text = s → (cliTokens s = getLVCompareArgTokens (.text s) ↔ w.Uniform)) ∧
    (normalizeFlagValuePairs (cliTokens s) = cliTokens s ↔ ∀ t ∈ cliTokens s, Settled t) ∧
    (getLVCompareArgTokens (.array (getLVCompareArgTokens (.text s))) =
        getLVCompareArgTokens (.text s) ↔
      ∀ t ∈ getLVCompareArgTokens (.text s), SettledItem t) := by
  refine ⟨fun words hspells hwords => tokens_eq_of_spells hspells hwords, ?_,
    normalizeFlagValuePairs_eq_self_iff _, getLVCompareArgTokens_array_eq_self_iff _⟩
  rintro w rfl
  exact tokens_eq_iff w

/-- The quoted text `"a b"`. -/
def quotedWord : Word := .quoted .double ['a', ' ', 'b'] (by decide) (by decide)

theorem tokenizers_quotedWord :
    cliTokens quotedWord.text = getLVCompareArgTokens (.text quotedWord.text) := by
  refine (tokenizers quotedWord.text).1 [quotedWord] (spells_word quotedWord) ?_
  intro w hw
  rw [List.mem_singleton.mp hw]
  intro hdash
  exact absurd hdash (by decide +kernel)

end CompareVI.ArgTokens
