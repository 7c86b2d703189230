import CompareVI.Cli.ArgTokenizer
import Mathlib.Data.List.Chain

/-!
# `Convert-ArgTokenList`

The second pass over the tokens of `Invoke-CompareVI`: it splits flags again, joins the values
that follow a flag, and normalizes paths. The loop of the source takes a token by its index and
may take the tokens behind it as well; `convertFrom` counts those.

`forward` is the same pass with what is written apart from what may still change, which is a
value only (`Slot`). A list of tokens comes out of it token by token exactly if nothing is split,
joined or made a UNC path (`forward_eq_iff`).
-/

open Framework
open Framework.PsString

namespace CompareVI.ArgTokens

abbrev isFlag (t : Text) : Bool := t.head? = some '-'

/-! ### Paths -/

/-- What `[A-Za-z]` matches: the match ignores case, and the Kelvin sign is a `k`. -/
def isDriveLetter (c : Char) : Bool := c.isAlpha || c = '\u212a'

/-- `^[A-Za-z]:/` or `^//`. -/
def isSlashRooted (s : Text) : Bool :=
  (s.head?.any isDriveLetter && (s.drop 1).take 2 = [':', '/']) || s.take 2 = ['/', '/']

/-- `-replace '/', '\'`, on a character. -/
def backslashed (c : Char) : Char := if c = '/' then '\\' else c

def normalizePathToken (s : Text) : Text := if isSlashRooted s then s.map backslashed else s

def ensureUNCLeading (s : Text) : Text :=
  let count := (s.takeWhile (· = '\\')).length
  if 0 < count && count < 4 then List.replicate (4 - count) '\\' ++ s else s

theorem normalizePathToken_of_flag {t : Text} (h : isFlag t = true) :
    normalizePathToken t = t := by
  obtain ⟨rest, rfl⟩ := List.head?_eq_some_iff.mp (of_decide_eq_true h)
  have hrooted : isSlashRooted ('-' :: rest) = false := by
    have hletter : isDriveLetter '-' = false := by decide
    rw [isSlashRooted, List.head?_cons, Option.any_some, hletter, Bool.false_and, Bool.false_or]
    exact decide_eq_false (by simp)
  rw [normalizePathToken, hrooted, if_neg Bool.false_ne_true]

theorem length_normalizePathToken (s : Text) : (normalizePathToken s).length = s.length := by
  rw [normalizePathToken]
  split
  · exact List.length_map _
  · rfl

theorem length_le_ensureUNCLeading (s : Text) : s.length ≤ (ensureUNCLeading s).length := by
  rw [ensureUNCLeading]
  split
  · rw [List.length_append]
    exact Nat.le_add_left _ _
  · exact Nat.le_refl _

theorem ensureUNCLeading_eq_of_length {s : Text} (h : (ensureUNCLeading s).length ≤ s.length) :
    ensureUNCLeading s = s := by
  rw [ensureUNCLeading] at h ⊢
  split
  · next hcount =>
    rw [if_pos hcount, List.length_append, List.length_replicate] at h
    simp only [Bool.and_eq_true, decide_eq_true_eq] at hcount
    omega
  · rfl

/-! ### The pass -/

/-- `Substring(1, Length - 2)` of a quoted text. On a single quote it throws. -/
def unquote (t : Text) : Option Text :=
  if (t.head? = some '"' && t.getLast? = some '"') ||
      (t.head? = some '\'' && t.getLast? = some '\'') then
    if t.length < 2 then none else some ((t.drop 1).take (t.length - 2))
  else some t

/-- The variables of `Convert-ArgTokenList`. -/
structure Converted where
  out : List Text
  currentFlagIndex : Option ℕ
  currentValueIndex : Option ℕ
  deriving DecidableEq, Repr

/-- The values that follow a flag, and the number of tokens they are in. -/
def segmentsFrom : List Text → List Text × ℕ
  | [] => ([], 0)
  | peek :: rest =>
    let peekTrim := trimList peek
    if peekTrim = [] then ((segmentsFrom rest).1, (segmentsFrom rest).2 + 1)
    else if isFlag peekTrim then ([], 0)
    else (peekTrim :: (segmentsFrom rest).1, (segmentsFrom rest).2 + 1)

/-- `$segments -join ' '`, normalized, if there are any. -/
def joined (segments : List Text) : List Text :=
  if segments = [] then []
  else [ensureUNCLeading (normalizePathToken ([' '].intercalate segments))]

def addValue (s : Converted) (normalized : Text) : Converted :=
  match s.currentFlagIndex, s.currentValueIndex with
  | some _, some index =>
    let merged := trimList (s.out.getD index [] ++ ' ' :: normalized)
    { s with out := s.out.set index (ensureUNCLeading merged) }
  | some _, none => { s with
      out := s.out ++ [ensureUNCLeading normalized]
      currentValueIndex := some s.out.length }
  | none, _ => { s with out := s.out ++ [ensureUNCLeading normalized] }

/-- A flag, by the first `=` or the first blank in it: what is written, whether the flag waits
for a value, and the number of tokens behind it that are taken too. -/
def convertFlag (rest : List Text) (tok : Text) : Option (List Text × Bool × ℕ) :=
  match cut (· = '=') tok with
  | some (flag, val) => (unquote val).map fun val =>
    (flag :: joined ([val].filter (· ≠ []) ++ (segmentsFrom rest).1), false, (segmentsFrom rest).2)
  | none =>
    match cut (· = ' ') tok with
    | some (flag, val) =>
      if val = [] then some ([flag], false, 0)
      else some (flag :: joined (val :: (segmentsFrom rest).1), false, (segmentsFrom rest).2)
    | none => some ([tok], true, 0)

def convertStep (s : Converted) (rest : List Text) (t : Text) : Option (Converted × ℕ) :=
  let tok := trimList t
  if tok = [] then some (s, 0)
  else if isFlag tok then (convertFlag rest tok).map fun (written, waits, taken) =>
    (⟨s.out ++ written, if waits then some s.out.length else none, none⟩, taken)
  else some (addValue s (normalizePathToken tok), 0)

def convertFrom : ℕ → Converted → List Text → Option (List Text)
  | _, s, [] => some s.out
  | n + 1, s, _ :: rest => convertFrom n s rest
  | 0, s, t :: rest => (convertStep s rest t).bind fun next => convertFrom next.2 next.1 rest

def convertArgTokenList (tokens : List Text) : Option (List Text) :=
  convertFrom 0 ⟨[], none, none⟩ tokens

/-! ### The pass, forward -/

/-- Where a value goes: to the list, behind a flag, or to the value that is there. -/
inductive Slot where
  | free
  | flagged
  | valued (value : Text)

namespace Slot

def held : Slot → List Text
  | valued value => [value]
  | free | flagged => []

def take (m : Slot) (normalized : Text) : List Text × Slot :=
  match m with
  | free => ([ensureUNCLeading normalized], free)
  | flagged => ([], valued (ensureUNCLeading normalized))
  | valued value => ([], valued (ensureUNCLeading (trimList (value ++ ' ' :: normalized))))

/-- The next token: what is written, where a value goes then, and how many tokens are taken. -/
def step (m : Slot) (rest : List Text) (t : Text) : Option (List Text × Slot × ℕ) :=
  let tok := trimList t
  if tok = [] then some ([], m, 0)
  else if isFlag tok then (convertFlag rest tok).map fun (written, waits, taken) =>
    (m.held ++ written, if waits then flagged else free, taken)
  else some ((m.take (normalizePathToken tok)).1, (m.take (normalizePathToken tok)).2, 0)

/-- The variables when the list is written and this value may change. -/
inductive Shows (done : List Text) : Slot → Converted → Prop where
  | free : Shows done free ⟨done, none, none⟩
  | flagged (k : ℕ) : Shows done flagged ⟨done, some k, none⟩
  | valued (k : ℕ) (value : Text) :
    Shows done (valued value) ⟨done ++ [value], some k, some done.length⟩

end Slot

def forward : Slot → ℕ → List Text → Option (List Text)
  | m, _, [] => some m.held
  | m, n + 1, _ :: rest => forward m n rest
  | m, 0, t :: rest => (m.step rest t).bind fun next =>
    (forward next.2.1 next.2.2 rest).map (next.1 ++ ·)

section Forward

variable {done : List Text} {m : Slot} {s : Converted}

theorem Slot.Shows.out (h : m.Shows done s) : s.out = done ++ m.held := by
  cases h with
  | free | flagged => exact (List.append_nil done).symm
  | valued => rfl

theorem Slot.Shows.addValue (h : m.Shows done s) (normalized : Text) :
    (m.take normalized).2.Shows (done ++ (m.take normalized).1) (addValue s normalized) := by
  cases h with
  | free => exact .free
  | flagged k =>
    have hkept : done ++ (Slot.flagged.take normalized).1 = done := List.append_nil done
    rw [hkept]
    exact .valued k _
  | valued k value =>
    have hkept : done ++ ((Slot.valued value).take normalized).1 = done := List.append_nil done
    have hget : (done ++ [value]).getD done.length [] = value := by simp
    have hset : ∀ v, (done ++ [value]).set done.length v = done ++ [v] := by simp
    rw [hkept, ArgTokens.addValue]
    dsimp only
    rw [hget, hset]
    exact .valued k _

/-- **The pass** only appends to what is written. -/
theorem convertFrom_eq (h : m.Shows done s) (n : ℕ) (ts : List Text) :
    convertFrom n s ts = (forward m n ts).map (done ++ ·) := by
  induction ts generalizing m done s n with
  | nil =>
    rw [convertFrom, forward, h.out]
    rfl
  | cons t rest ih =>
    rcases n with _ | n
    · rw [convertFrom, forward]
      by_cases hblank : trimList t = []
      · have hstep : convertStep s rest t = some (s, 0) := by
          rw [convertStep, if_pos hblank]
        have hslot : m.step rest t = some ([], m, 0) := by
          rw [Slot.step, if_pos hblank]
        rw [hstep, hslot, Option.bind_some, Option.bind_some, ih h, Option.map_map]
        rfl
      cases hflag : isFlag (trimList t) with
      | true =>
        have hstep : convertStep s rest t = (convertFlag rest (trimList t)).map
            fun (written, waits, taken) =>
              (⟨s.out ++ written, if waits then some s.out.length else none, none⟩, taken) := by
          rw [convertStep, if_neg hblank, if_pos hflag]
        have hslot : m.step rest t = (convertFlag rest (trimList t)).map
            fun (written, waits, taken) =>
              (m.held ++ written, if waits then Slot.flagged else Slot.free, taken) := by
          rw [Slot.step, if_neg hblank, if_pos hflag]
        rw [hstep, hslot]
        cases convertFlag rest (trimList t) with
        | none => rfl
        | some written =>
          obtain ⟨written, waits, taken⟩ := written
          have hout := h.out
          rw [Option.map_some, Option.map_some, Option.bind_some, Option.bind_some]
          have hshows : (if waits then Slot.flagged else Slot.free).Shows
              (done ++ (m.held ++ written))
              ⟨s.out ++ written, if waits then some s.out.length else none, none⟩ := by
            rw [hout, List.append_assoc]
            cases waits with
            | true => exact .flagged _
            | false => exact .free
          rw [ih hshows, Option.map_map]
          exact congrArg (Option.map · _) (funext fun _ => List.append_assoc _ _ _)
      | false =>
        have hslot : m.step rest t = some ((m.take (normalizePathToken (trimList t))).1,
            (m.take (normalizePathToken (trimList t))).2, 0) := by
          rw [Slot.step, if_neg hblank, hflag, if_neg Bool.false_ne_true]
        have hstep : convertStep s rest t =
            some (addValue s (normalizePathToken (trimList t)), 0) := by
          rw [convertStep, if_neg hblank, hflag, if_neg Bool.false_ne_true]
        rw [hstep, hslot, Option.bind_some, Option.bind_some, ih (h.addValue _), Option.map_map]
        exact congrArg (Option.map · _) (funext fun _ => List.append_assoc _ _ _)
    · exact ih h n

theorem convertArgTokenList_eq (tokens : List Text) :
    convertArgTokenList tokens = forward .free 0 tokens := by
  rw [convertArgTokenList, convertFrom_eq .free]
  exact Option.map_id'

end Forward

/-! ### Tokens that are kept -/

def Slot.Proper : Slot → Prop
  | valued value => value ≠ [] ∧ Tokens.Trimmed isWhiteSpace value
  | free | flagged => True

theorem trimmed_normalizePathToken {t : Text} (h : Tokens.Trimmed isWhiteSpace t) :
    Tokens.Trimmed isWhiteSpace (normalizePathToken t) := by
  rw [normalizePathToken]
  split
  · refine h.map fun c => ?_
    rw [backslashed]
    split
    · next hc => rw [hc]; decide
    · rfl
  · exact h

theorem trimmed_ensureUNCLeading {t : Text} (h : Tokens.Trimmed isWhiteSpace t) :
    Tokens.Trimmed isWhiteSpace (ensureUNCLeading t) := by
  rw [ensureUNCLeading]
  split
  · next hcount =>
    simp only [Bool.and_eq_true, decide_eq_true_eq] at hcount
    have hne : t ≠ [] := by
      rintro rfl
      exact absurd hcount.1 (Nat.lt_irrefl 0)
    constructor
    · intro c hc
      obtain ⟨k, hk⟩ : ∃ k, 4 - (t.takeWhile (· = '\\')).length = k + 1 :=
        Nat.exists_eq_succ_of_ne_zero (by omega)
      rw [hk, List.replicate_succ, List.cons_append, List.head?_cons] at hc
      obtain rfl := Option.some.inj hc
      decide
    · rw [List.getLast?_append_of_ne_nil _ hne]
      exact h.2
  · exact h

theorem proper_valued {t : Text} (hne : t ≠ []) (htrim : Tokens.Trimmed isWhiteSpace t) :
    (Slot.valued (ensureUNCLeading (normalizePathToken t))).Proper := by
  refine ⟨fun hnil => hne ?_, trimmed_ensureUNCLeading (trimmed_normalizePathToken htrim)⟩
  have hlength := length_le_ensureUNCLeading (normalizePathToken t)
  rw [hnil, length_normalizePathToken] at hlength
  exact List.eq_nil_of_length_eq_zero (Nat.le_zero.mp hlength)

theorem merged_spec {value t : Text} (hvalue : (Slot.valued value).Proper) (hne : t ≠ [])
    (htrim : Tokens.Trimmed isWhiteSpace t) :
    trimList (value ++ ' ' :: t) = value ++ ' ' :: t ∧
      (Slot.valued (ensureUNCLeading (trimList (value ++ ' ' :: t)))).Proper ∧
      value.length < (ensureUNCLeading (trimList (value ++ ' ' :: t))).length := by
  have hsplit : value ++ ' ' :: t = value ++ [' '] ++ t := by
    rw [List.append_assoc]
    rfl
  have htrimmed : Tokens.Trimmed isWhiteSpace (value ++ ' ' :: t) :=
    hsplit ▸ hvalue.2.append htrim hvalue.1 hne [' ']
  have hkept : trimList (value ++ ' ' :: t) = value ++ ' ' :: t := Tokens.trim_of_trimmed htrimmed
  have hlonger : value.length < (ensureUNCLeading (value ++ ' ' :: t)).length := by
    refine Nat.lt_of_lt_of_le ?_ (length_le_ensureUNCLeading _)
    rw [List.length_append, List.length_cons]
    omega
  rw [hkept]
  refine ⟨rfl, ⟨fun hnil => ?_, trimmed_ensureUNCLeading htrimmed⟩, hlonger⟩
  rw [hnil] at hlonger
  exact absurd hlonger (Nat.not_lt_zero _)

theorem trimmed_trimList (t : Text) : Tokens.Trimmed isWhiteSpace (trimList t) :=
  Tokens.trimmed_trim t

theorem forward_valued {value : Text} (hvalue : (Slot.valued value).Proper) {n : ℕ}
    {ts out : List Text} (h : forward (.valued value) n ts = some out) :
    ∃ first rest, out = first :: rest ∧ value.length ≤ first.length := by
  induction ts generalizing value n with
  | nil =>
    rw [forward, Option.some.injEq] at h
    exact ⟨value, [], h.symm, Nat.le_refl _⟩
  | cons t rest ih =>
    rcases n with _ | n
    · rw [forward] at h
      obtain ⟨⟨written, slot, taken⟩, hstep, h⟩ := Option.bind_eq_some_iff.mp h
      obtain ⟨more, hmore, rfl⟩ := Option.map_eq_some_iff.mp h
      rw [Slot.step] at hstep
      split at hstep
      · cases hstep
        exact ih hvalue hmore
      · next hne =>
        split at hstep
        · obtain ⟨_, -, hwritten⟩ := Option.map_eq_some_iff.mp hstep
          cases hwritten
          exact ⟨value, _, rfl, Nat.le_refl _⟩
        · cases hstep
          have hnormalized : normalizePathToken (trimList t) ≠ [] := fun hnil => hne
            (List.eq_nil_of_length_eq_zero
              ((length_normalizePathToken _).symm.trans (congrArg List.length hnil)))
          obtain ⟨-, hproper, hlonger⟩ := merged_spec hvalue hnormalized
            (trimmed_normalizePathToken (trimmed_trimList t))
          obtain ⟨first, others, rfl, hlength⟩ := ih hproper hmore
          exact ⟨first, others, rfl, hlonger.le.trans hlength⟩
    · exact ih hvalue h

/-- `Convert-ArgTokenList` does not touch the token, but for a path. -/
structure Kept (t : Text) : Prop where
  settled : Settled t
  path : isFlag t = false →
    ensureUNCLeading (normalizePathToken t) = normalizePathToken t

/-- One of two neighbours is a flag. -/
def OneFlag (a b : Text) : Prop := isFlag a = true ∨ isFlag b = true

def Slot.Follows : Slot → List Text → Prop
  | free, ts => (ts.dropWhile fun t => !isFlag t).IsChain OneFlag
  | flagged, ts => ts.IsChain OneFlag
  | valued _, ts => ts.IsChain OneFlag ∧ ∀ t ∈ ts.head?, isFlag t = true

theorem Slot.follows_flag {m : Slot} {t : Text} (h : isFlag t = true) (rest : List Text) :
    m.Follows (t :: rest) ↔ flagged.Follows rest := by
  have hchain : (t :: rest).IsChain OneFlag ↔ rest.IsChain OneFlag := by
    rw [List.isChain_cons]
    exact ⟨fun hc => hc.2, fun hc => ⟨fun _ _ => .inl h, hc⟩⟩
  cases m with
  | free =>
    have hkept : (t :: rest).dropWhile (fun t => !isFlag t) = t :: rest :=
      List.dropWhile_cons_of_neg (by rw [h]; exact Bool.false_ne_true)
    exact (iff_of_eq (congrArg (List.IsChain OneFlag) hkept)).trans hchain
  | flagged => exact hchain
  | valued value =>
    refine ⟨fun hf => hchain.mp hf.1, fun hf => ⟨hchain.mpr hf, fun x hx => ?_⟩⟩
    obtain rfl := Option.some.inj hx
    exact h

theorem Slot.follows_flagged {t : Text} (h : isFlag t = false) (value : Text) (rest : List Text) :
    flagged.Follows (t :: rest) ↔ (valued value).Follows rest := by
  refine List.isChain_cons.trans (and_comm.trans ?_)
  refine and_congr_right fun _ => forall₂_congr fun x _ => ?_
  rw [OneFlag, h]
  exact or_iff_right Bool.false_ne_true

theorem Slot.follows_free {t : Text} (h : isFlag t = false) (rest : List Text) :
    free.Follows (t :: rest) ↔ free.Follows rest := by
  have hdropped : (t :: rest).dropWhile (fun t => !isFlag t) =
      rest.dropWhile fun t => !isFlag t :=
    List.dropWhile_cons_of_pos (by rw [h]; rfl)
  exact iff_of_eq (congrArg (List.IsChain OneFlag) hdropped)

theorem Slot.not_follows_valued {t : Text} (h : isFlag t = false) (value : Text)
    (rest : List Text) : ¬ (valued value).Follows (t :: rest) := by
  intro hf
  have ht := hf.2 t rfl
  rw [h] at ht
  cases ht

section Flags

variable {rest : List Text} {t : Text} {written : List Text} {waits : Bool} {taken : ℕ}

theorem convertFlag_of_not_mem (hflag : isFlag t = true) (heq : '=' ∉ t) (hblank : ' ' ∉ t)
    (rest : List Text) : convertFlag rest t = some ([t], true, 0) := by
  have hdash := of_decide_eq_true hflag
  rw [convertFlag, (cut_char_eq_none_iff hdash (by decide)).mpr heq]
  rw [(cut_char_eq_none_iff hdash (by decide)).mpr hblank]

theorem length_convertFlag (hsplit : '=' ∈ t ∨ ' ' ∈ t) (hflag : isFlag t = true)
    (h : convertFlag rest t = some (written, waits, taken)) :
    ∃ flag more, written = flag :: more ∧ flag.length < t.length := by
  have hdash := of_decide_eq_true hflag
  have hshorter : ∀ {p : Char → Bool} {flag val : Text}, cut p t = some (flag, val) →
      flag.length < t.length := by
    intro p flag val hcut
    obtain ⟨-, -, c, -, rfl⟩ := cut_eq_some_iff.mp hcut
    rw [List.length_append, List.length_cons]
    omega
  rw [convertFlag] at h
  split at h
  · next flag val hcut =>
    obtain ⟨stripped, -, hwritten⟩ := Option.map_eq_some_iff.mp h
    cases hwritten
    exact ⟨flag, _, rfl, hshorter hcut⟩
  · next hcut =>
    split at h
    · next flag val hblank =>
      split at h
      · cases h
        exact ⟨flag, _, rfl, hshorter hblank⟩
      · cases h
        exact ⟨flag, _, rfl, hshorter hblank⟩
    · next hblank =>
      rw [cut_char_eq_none_iff hdash (by decide)] at hcut hblank
      exact absurd hsplit (not_or.mpr ⟨hcut, hblank⟩)

end Flags

/-! ### Lists that come out token by token -/

section Keeping

variable {m : Slot} {t : Text} {rest : List Text}

theorem forward_flag (htrim : trimList t = t) (hflag : isFlag t = true) (heq : '=' ∉ t)
    (hblank : ' ' ∉ t) :
    forward m 0 (t :: rest) = (forward .flagged 0 rest).map (m.held ++ [t] ++ ·) := by
  have hne : t ≠ [] := by
    rintro rfl
    cases hflag
  have hstep : m.step rest t = some (m.held ++ [t], .flagged, 0) := by
    rw [Slot.step, htrim, if_neg hne, if_pos hflag, convertFlag_of_not_mem hflag heq hblank]
    rfl
  rw [forward, hstep, Option.bind_some]

theorem forward_value (hne : t ≠ []) (htrim : trimList t = t) (hflag : isFlag t = false) :
    forward m 0 (t :: rest) =
      (forward (m.take (normalizePathToken t)).2 0 rest).map
        ((m.take (normalizePathToken t)).1 ++ ·) := by
  have hstep : m.step rest t =
      some ((m.take (normalizePathToken t)).1, (m.take (normalizePathToken t)).2, 0) := by
    rw [Slot.step, htrim, if_neg hne, hflag, if_neg Bool.false_ne_true]
  rw [forward, hstep, Option.bind_some]

theorem forward_ne_of_split (htrim : trimList t = t) (hflag : isFlag t = true)
    (hsplit : '=' ∈ t ∨ ' ' ∈ t) (more : List Text) :
    forward m 0 (t :: rest) ≠ some (m.held ++ t :: more) := by
  intro h
  have hne : t ≠ [] := by
    rintro rfl
    cases hflag
  rw [forward] at h
  obtain ⟨⟨written, slot, taken⟩, hstep, h⟩ := Option.bind_eq_some_iff.mp h
  obtain ⟨others, -, h⟩ := Option.map_eq_some_iff.mp h
  rw [Slot.step, htrim, if_neg hne, if_pos hflag] at hstep
  obtain ⟨⟨plain, waits, taken'⟩, hconvert, hwritten⟩ := Option.map_eq_some_iff.mp hstep
  cases hwritten
  obtain ⟨flag, behind, rfl, hshorter⟩ := length_convertFlag hsplit hflag hconvert
  rw [List.append_assoc, List.append_cancel_left_eq, List.cons_append] at h
  rw [(List.cons.inj h).1] at hshorter
  exact absurd hshorter (Nat.lt_irrefl _)

/-- **Tokens that come out one by one**: flags that are not split, values that are not made UNC
paths, and no value behind a value. -/
theorem forward_eq_iff (hm : m.Proper) {ts : List Text}
    (hts : ∀ t ∈ ts, t ≠ [] ∧ trimList t = t) :
    forward m 0 ts = some (m.held ++ ts.map normalizePathToken) ↔
      (∀ t ∈ ts, Kept t) ∧ m.Follows ts := by
  induction ts generalizing m with
  | nil =>
    have hfollows : m.Follows [] := by
      cases m with
      | free | flagged => exact .nil
      | valued => exact ⟨.nil, fun t ht => nomatch ht⟩
    rw [forward, List.map_nil, List.append_nil]
    exact ⟨fun _ => ⟨List.forall_mem_nil _, hfollows⟩, fun _ => rfl⟩
  | cons t rest ih =>
    obtain ⟨⟨hne, htrim⟩, hrest⟩ := List.forall_mem_cons.mp hts
    rw [List.map_cons, List.forall_mem_cons]
    cases hflag : isFlag t with
    | true =>
      rw [normalizePathToken_of_flag hflag, Slot.follows_flag hflag]
      by_cases hsplit : '=' ∈ t ∨ ' ' ∈ t
      · refine iff_of_false (forward_ne_of_split htrim hflag hsplit _) ?_
        rintro ⟨⟨hkept, -⟩, -⟩
        have hnot := hkept.settled.2.2 (of_decide_eq_true hflag)
        exact hsplit.elim hnot.1 hnot.2
      · obtain ⟨heq, hblank⟩ := not_or.mp hsplit
        have hkept : Kept t := ⟨⟨hne, htrim, fun _ => ⟨heq, hblank⟩⟩,
          fun h => absurd (h.symm.trans hflag) Bool.false_ne_true⟩
        have hsplit : m.held ++ t :: rest.map normalizePathToken =
            m.held ++ [t] ++ rest.map normalizePathToken := by
          rw [List.append_assoc]
          rfl
        have hih := ih (m := .flagged) trivial hrest
        rw [forward_flag htrim hflag heq hblank, hsplit, Option.map_eq_some_iff]
        constructor
        · rintro ⟨out, hout, heq⟩
          rw [List.append_cancel_left_eq] at heq
          rw [heq] at hout
          exact ⟨⟨hkept, (hih.mp hout).1⟩, (hih.mp hout).2⟩
        · rintro ⟨⟨-, hall⟩, hfollows⟩
          exact ⟨_, hih.mpr ⟨hall, hfollows⟩, rfl⟩
    | false =>
      have hsettled : Settled t :=
        ⟨hne, htrim, fun h => absurd (hflag.symm.trans (decide_eq_true h)) Bool.false_ne_true⟩
      have hnormalized : normalizePathToken t ≠ [] := fun hnil => hne
        (List.eq_nil_of_length_eq_zero
          ((length_normalizePathToken _).symm.trans (congrArg List.length hnil)))
      have htrimmed : Tokens.Trimmed isWhiteSpace t := htrim ▸ trimmed_trimList t
      rw [forward_value hne htrim hflag, Option.map_eq_some_iff]
      cases m with
      | free =>
        have hih := ih (m := .free) trivial hrest
        rw [Slot.follows_free hflag]
        constructor
        · rintro ⟨out, hout, heq⟩
          obtain ⟨hpath, rfl⟩ := List.cons.inj heq
          exact ⟨⟨⟨hsettled, fun _ => hpath⟩, (hih.mp hout).1⟩, (hih.mp hout).2⟩
        · rintro ⟨⟨hkept, hall⟩, hfollows⟩
          exact ⟨_, hih.mpr ⟨hall, hfollows⟩, congrArg (· :: _) (hkept.path hflag)⟩
      | flagged =>
        have hproper : (Slot.valued (ensureUNCLeading (normalizePathToken t))).Proper :=
          proper_valued hne htrimmed
        rw [Slot.follows_flagged hflag (ensureUNCLeading (normalizePathToken t))]
        have hih := ih hproper hrest
        constructor
        · rintro ⟨out, hout, rfl⟩
          obtain ⟨first, others, hfirst, hlength⟩ := forward_valued hproper hout
          obtain ⟨rfl, rfl⟩ := List.cons.inj hfirst
          have hpath := ensureUNCLeading_eq_of_length hlength
          refine ⟨⟨⟨hsettled, fun _ => hpath⟩, ?_⟩, ?_⟩
          · exact (hih.mp (hout.trans (congrArg (fun v => some (v :: _)) hpath.symm))).1
          · exact (hih.mp (hout.trans (congrArg (fun v => some (v :: _)) hpath.symm))).2
        · rintro ⟨⟨hkept, hall⟩, hfollows⟩
          refine ⟨_, hih.mpr ⟨hall, hfollows⟩, ?_⟩
          exact congrArg (· :: _) (hkept.path hflag)
      | valued value =>
        refine iff_of_false ?_ fun h => Slot.not_follows_valued hflag value rest h.2
        rintro ⟨out, hout, rfl⟩
        obtain ⟨-, hproper, hlonger⟩ :=
          merged_spec hm hnormalized (trimmed_normalizePathToken htrimmed)
        obtain ⟨first, others, hfirst, hlength⟩ := forward_valued hproper hout
        obtain ⟨rfl, -⟩ := List.cons.inj hfirst
        exact absurd hlength (Nat.not_le_of_lt hlonger)

end Keeping

/-! ### Weights -/

/-- Slashes weigh nothing, white space other than the blank weighs more than a separator. -/
def charWeight (c : Char) : ℕ :=
  if c = '\\' || c = '/' then 0 else if isWhiteSpace c && c ≠ ' ' then 2 else 1

/-- The weight of a token. A text that is split at a blank or at `=` keeps its weight. -/
def mass (t : Text) : ℕ := Tokens.weight charWeight t + 1

abbrev total (ts : List Text) : ℕ := Tokens.weight mass ts

theorem total_nil : total [] = 0 := rfl

theorem total_cons (t : Text) (ts : List Text) : total (t :: ts) = mass t + total ts := rfl

theorem total_append (ts us : List Text) : total (ts ++ us) = total ts + total us :=
  Tokens.weight_append mass ts us

theorem charWeight_pos {c : Char} (h : isWhiteSpace c = true) : 0 < charWeight c := by
  rw [charWeight]
  split
  · next hslash =>
    rw [Bool.or_eq_true, decide_eq_true_eq, decide_eq_true_eq] at hslash
    rcases hslash with rfl | rfl
    · exact absurd h (by decide)
    · exact absurd h (by decide)
  · split
    · exact Nat.two_pos
    · exact Nat.one_pos

theorem mass_trimList_le (t : Text) : mass (trimList t) ≤ mass t :=
  Nat.succ_le_succ (Tokens.weight_trim_le t)

theorem mass_trimList_lt {t : Text} (h : trimList t ≠ t) : mass (trimList t) < mass t :=
  Nat.succ_lt_succ (Tokens.weight_trim_lt (fun _ => charWeight_pos) h)

theorem total_map_trimList (ts : List Text) :
    total (ts.map trimList) ≤ total ts ∧
      (total ts ≤ total (ts.map trimList) → ∀ t ∈ ts, trimList t = t) := by
  induction ts with
  | nil => exact ⟨Nat.le_refl _, fun _ t ht => absurd ht List.not_mem_nil⟩
  | cons t ts ih =>
    have hfirst := mass_trimList_le t
    rw [List.map_cons, total_cons, total_cons]
    refine ⟨Nat.add_le_add hfirst ih.1, fun hge => List.forall_mem_cons.mpr ⟨?_, ih.2 ?_⟩⟩
    · by_contra hne
      have hlt := mass_trimList_lt hne
      have hrest := ih.1
      omega
    · omega

theorem mass_split (a b : Text) (c : Char) :
    mass (a ++ c :: b) + 1 = mass a + mass b + charWeight c := by
  simp only [mass, Tokens.weight_append, Tokens.weight_cons]
  omega

theorem mass_split_blank (a b : Text) : mass (a ++ ' ' :: b) = mass a + mass b := by
  have h := mass_split a b ' '
  rw [show charWeight ' ' = 1 by decide] at h
  omega

theorem mass_normalizePathToken (t : Text) : mass (normalizePathToken t) = mass t := by
  rw [normalizePathToken]
  split
  · have hchar : (fun c => charWeight (backslashed c)) = charWeight := by
      funext c
      rw [backslashed]
      split
      · next hc => rw [hc]; decide
      · rfl
    rw [mass, mass, Tokens.weight_map, hchar]
  · rfl

theorem mass_ensureUNCLeading (t : Text) : mass (ensureUNCLeading t) = mass t := by
  have hzero : ∀ n, Tokens.weight charWeight (List.replicate n '\\') = 0 := by
    intro n
    induction n with
    | zero => rfl
    | succ n ih =>
      rw [List.replicate_succ, Tokens.weight_cons, ih]
      decide
  rw [ensureUNCLeading]
  split
  · rw [mass, mass, Tokens.weight_append, hzero, Nat.zero_add]
  · rfl

theorem mass_intercalate (t : Text) (ts : List Text) :
    mass ([' '].intercalate (t :: ts)) = total (t :: ts) := by
  induction ts generalizing t with
  | nil =>
    rw [List.intercalate_singleton]
    rfl
  | cons u ts ih =>
    have hsplit : [' '].intercalate (t :: u :: ts) = t ++ ' ' :: [' '].intercalate (u :: ts) := by
      rw [List.intercalate_cons_cons, List.append_assoc]
      rfl
    rw [hsplit, mass_split_blank, ih, total_cons t]

theorem total_joined (segments : List Text) : total (joined segments) = total segments := by
  cases segments with
  | nil => rfl
  | cons t ts =>
    rw [joined, if_neg (List.cons_ne_nil t ts), total_cons, mass_ensureUNCLeading,
      mass_normalizePathToken, mass_intercalate, total_nil, Nat.add_zero]

theorem total_segmentsFrom (rest : List Text) :
    total (segmentsFrom rest).1 ≤ total ((rest.take (segmentsFrom rest).2).map trimList) := by
  induction rest with
  | nil => exact Nat.le_refl _
  | cons peek rest ih =>
    rw [segmentsFrom]
    split
    · refine ih.trans ?_
      rw [List.take_succ_cons, List.map_cons]
      exact Nat.le_add_left _ _
    · split
      · exact Nat.zero_le _
      · rw [List.take_succ_cons, List.map_cons]
        exact Nat.add_le_add_left ih _

theorem mass_unquote {t u : Text} (h : unquote t = some u) : u = t ∨ mass u < mass t := by
  rw [unquote] at h
  split at h
  · next hquoted =>
    split at h
    · cases h
    · next hlong =>
      right
      rw [Option.some.injEq] at h
      rcases t with _ | ⟨c, rest⟩
      · exact absurd Nat.two_pos hlong
      · have hc : charWeight c = 1 := by
          simp only [List.head?_cons, Option.some.injEq, Bool.or_eq_true, Bool.and_eq_true,
            decide_eq_true_eq] at hquoted
          obtain ⟨rfl, -⟩ | ⟨rfl, -⟩ := hquoted
          · decide
          · decide
        have hrest : Tokens.weight charWeight u ≤ Tokens.weight charWeight rest := by
          have hsplit := congrArg (Tokens.weight charWeight)
            (List.take_append_drop ((c :: rest).length - 2) rest)
          rw [Tokens.weight_append] at hsplit
          rw [← h, List.drop_succ_cons, List.drop_zero]
          omega
        rw [mass, mass, Tokens.weight_cons, hc]
        omega
  · exact .inl (Option.some.inj h).symm

theorem mass_unquote_le {t u : Text} (h : unquote t = some u) : mass u ≤ mass t := by
  obtain rfl | hlt := mass_unquote h
  · exact Nat.le_refl _
  · exact hlt.le

theorem total_filter_le (t : Text) (q : Text → Bool) : total ([t].filter q) ≤ mass t := by
  rw [List.filter_cons]
  split
  · exact Nat.le_refl _
  · exact Nat.zero_le _

theorem total_convertFlag {rest written : List Text} {tok : Text} {waits : Bool} {taken : ℕ}
    (h : convertFlag rest tok = some (written, waits, taken)) :
    total written ≤ mass tok + total ((rest.take taken).map trimList) := by
  have hsegments := total_segmentsFrom rest
  rw [convertFlag] at h
  split at h
  · next flag val hcut =>
    obtain ⟨stripped, hstripped, hwritten⟩ := Option.map_eq_some_iff.mp h
    obtain ⟨-, -, c, hc, rfl⟩ := cut_eq_some_iff.mp hcut
    cases hwritten
    have hval := mass_unquote_le hstripped
    have hsplit := mass_split flag val c
    rw [of_decide_eq_true hc, show charWeight '=' = 1 by decide] at hsplit
    rw [total_cons, total_joined, total_append, of_decide_eq_true hc]
    refine (Nat.add_le_add_left (Nat.add_le_add_right (total_filter_le stripped _) _) _).trans ?_
    omega
  · next hcut =>
    split at h
    · next flag val hblank =>
      obtain ⟨-, -, c, hc, rfl⟩ := cut_eq_some_iff.mp hblank
      obtain rfl : c = ' ' := of_decide_eq_true hc
      rw [mass_split_blank]
      split at h
      · next hval =>
        cases h
        rw [total_cons, total_nil]
        omega
      · cases h
        rw [total_cons, total_joined, total_cons]
        omega
    · cases h
      exact Nat.le_add_right _ _

theorem total_take (m : Slot) (normalized : Text) :
    total (m.take normalized).1 + total (m.take normalized).2.held ≤
      total m.held + mass normalized := by
  cases m with
  | free | flagged =>
    simp only [Slot.take, Slot.held, total_cons, total_nil, mass_ensureUNCLeading]
    omega
  | valued value =>
    have hle := mass_trimList_le (value ++ ' ' :: normalized)
    rw [mass_split_blank] at hle
    simp only [Slot.take, Slot.held, total_cons, total_nil, mass_ensureUNCLeading]
    omega

theorem Slot.total_step {m next : Slot} {rest written : List Text} {t : Text} {taken : ℕ}
    (h : m.step rest t = some (written, next, taken)) :
    total written + total next.held ≤
      total m.held + (mass (trimList t) + total ((rest.take taken).map trimList)) := by
  rw [Slot.step] at h
  split at h
  · cases h
    rw [total_nil]
    omega
  · split at h
    · obtain ⟨⟨plain, waits, taken'⟩, hconvert, hwritten⟩ := Option.map_eq_some_iff.mp h
      cases hwritten
      have hle := total_convertFlag hconvert
      have hheld : total (if waits then Slot.flagged else Slot.free).held = 0 := by
        cases waits with
        | true | false => rfl
      rw [hheld, total_append]
      omega
    · cases h
      have hle := total_take m (normalizePathToken (trimList t))
      rw [mass_normalizePathToken] at hle
      omega

/-- **The pass** gains no weight. -/
theorem total_forward {m : Slot} {n : ℕ} {ts out : List Text} (h : forward m n ts = some out) :
    total out ≤ total m.held + total ((ts.drop n).map trimList) := by
  induction ts generalizing m n out with
  | nil =>
    rw [forward, Option.some.injEq] at h
    rw [← h]
    exact Nat.le_add_right _ _
  | cons t rest ih =>
    rcases n with _ | n
    · rw [forward] at h
      obtain ⟨⟨written, slot, taken⟩, hstep, h⟩ := Option.bind_eq_some_iff.mp h
      obtain ⟨more, hmore, rfl⟩ := Option.map_eq_some_iff.mp h
      have hwritten := Slot.total_step hstep
      have hrest := ih hmore
      have hsplit : total (rest.map trimList) = total ((rest.take taken).map trimList) +
          total ((rest.drop taken).map trimList) := by
        rw [← total_append, ← List.map_append, List.take_append_drop]
      dsimp only at hrest ⊢
      rw [List.drop_zero, List.map_cons, total_append, total_cons]
      omega
    · exact ih h

end CompareVI.ArgTokens
