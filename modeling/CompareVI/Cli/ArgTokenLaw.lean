import CompareVI.Cli.ArgTokenList
import Mathlib.Data.List.Forall2

/-!
# What `Convert-ArgTokenList` keeps

The tokens are read as flags and values (`tokenPieces`): a flag token is split once, at its
first `=` or else at its first blank, and a blank token is nothing. The values behind a flag
belong to it (`arrange`).

The output is a rendering of that (`Converts`): every flag as it is, the values in front of the
first flag one by one, and the values of a flag joined by blanks, where a value changes in its
slashes and by leading backslashes only. `converts_iff` says that there is such an output unless a
value is a single quote, which the removal of quotes does not survive.
-/

open Framework
open Framework.PsString

namespace CompareVI.ArgTokens

/-! ### What the tokens say -/

inductive Piece where
  | flag (t : Text)
  | value (t : Text)
deriving DecidableEq

def quoted (q : Char) (t : Text) : Prop := 2 ≤ t.length ∧ t.head? = some q ∧ t.getLast? = some q

instance (q : Char) (t : Text) : Decidable (quoted q t) := inferInstanceAs (Decidable (_ ∧ _ ∧ _))

def unquoted (t : Text) : Text :=
  if quoted '"' t ∨ quoted '\'' t then t.tail.dropLast else t

def values (ts : List Text) : List Piece := (ts.filter (· ≠ [])).map .value

def tokenPieces (t : Text) : List Piece :=
  let tok := trimList t
  if tok = [] then []
  else if isFlag tok then
    match cut (· = '=') tok, cut (· = ' ') tok with
    | some (flag, val), _ => .flag flag :: values [unquoted val]
    | none, some (flag, val) => .flag flag :: values [val]
    | none, none => [.flag tok]
  else [.value tok]

/-- The values in front of the first flag, and the flags with the values behind them. -/
def arrange : List Piece → List Text × List (Text × List Text)
  | [] => ([], [])
  | .value v :: ps => (v :: (arrange ps).1, (arrange ps).2)
  | .flag f :: ps => ([], (f, (arrange ps).1) :: (arrange ps).2)

/-! ### What the output shows -/

/-- The slashes of a path are backslashes. -/
def SlashNormalized (a b : Text) : Prop := b = a ∨ isSlashRooted a = true ∧ b = a.map backslashed

/-- Leading backslashes are filled up to four. -/
def Padded (s v : Text) : Prop :=
  ∃ k, v = List.replicate k '\\' ++ s ∧
    (0 < k → 0 < (s.takeWhile (· = '\\')).length ∧ (s.takeWhile (· = '\\')).length + k = 4)

/-- A value of the output shows some values of the input, joined by blanks. -/
def ShowsOne (parts : List Text) (v : Text) : Prop :=
  ∃ s, Padded s v ∧
    (SlashNormalized ([' '].intercalate parts) s ∨
      ∃ normal, List.Forall₂ SlashNormalized parts normal ∧ s = [' '].intercalate normal)

/-- The values of a flag are shown by one value, if there are any. -/
def ShowsAll (parts : List Text) (cell : List Text) : Prop :=
  if parts = [] then cell = [] else ∃ v, cell = [v] ∧ ShowsOne parts v

/-- A flag and its values. -/
def ShowsFlag (s : Text × List Text) (out : List Text) : Prop :=
  ∃ cell, out = s.1 :: cell ∧ ShowsAll s.2 cell

/-- **The law**: the output shows the flags and values of the input in their order. -/
def Converts (ts out : List Text) : Prop :=
  ∃ front laid,
    List.Forall₂ (fun v o => ShowsOne [v] o) (arrange (ts.flatMap tokenPieces)).1 front ∧
    List.Forall₂ ShowsFlag (arrange (ts.flatMap tokenPieces)).2 laid ∧ out = front ++ laid.flatten

/-- A token `-flag="` or `-flag='`. -/
def LoneQuote (t : Text) : Prop :=
  isFlag (trimList t) = true ∧
    ∃ flag val, cut (· = '=') (trimList t) = some (flag, val) ∧ (val = ['"'] ∨ val = ['\''])

/-! ### Values -/

theorem slashNormalized_normalizePathToken (t : Text) :
    SlashNormalized t (normalizePathToken t) := by
  rw [normalizePathToken]
  split
  · next hrooted => exact .inr ⟨hrooted, rfl⟩
  · exact .inl rfl

theorem padded_ensureUNCLeading (s : Text) : Padded s (ensureUNCLeading s) := by
  rw [ensureUNCLeading]
  split
  · next hcount =>
    simp only [Bool.and_eq_true, decide_eq_true_eq] at hcount
    exact ⟨_, rfl, fun _ => ⟨hcount.1, by omega⟩⟩
  · exact ⟨0, rfl, fun h => absurd h (Nat.lt_irrefl 0)⟩

theorem ensureUNCLeading_append (s w : Text) :
    ensureUNCLeading (ensureUNCLeading s ++ ' ' :: w) = ensureUNCLeading (s ++ ' ' :: w) := by
  have hcount : ∀ x : Text,
      ((x ++ ' ' :: w).takeWhile (· = '\\')).length = (x.takeWhile (· = '\\')).length := by
    intro x
    induction x with
    | nil => rfl
    | cons c x ih =>
      rw [List.cons_append, List.takeWhile_cons, List.takeWhile_cons]
      split
      · rw [List.length_cons, List.length_cons, ih]
      · rfl
  have hfilled : ∀ k (x : Text), ((List.replicate k '\\' ++ x).takeWhile (· = '\\')).length =
      k + (x.takeWhile (· = '\\')).length := by
    intro k x
    induction k with
    | zero => rw [List.replicate_zero, List.nil_append, Nat.zero_add]
    | succ k ih =>
      rw [List.replicate_succ, List.cons_append, List.takeWhile_cons, if_pos (by decide),
        List.length_cons, ih]
      omega
  by_cases hpad : 0 < (s.takeWhile (· = '\\')).length ∧ (s.takeWhile (· = '\\')).length < 4
  · have hs : ensureUNCLeading s =
        List.replicate (4 - (s.takeWhile (· = '\\')).length) '\\' ++ s := by
      rw [ensureUNCLeading]
      exact if_pos (by simpa using hpad)
    have hfull : ¬ (4 - (s.takeWhile (· = '\\')).length + (s.takeWhile (· = '\\')).length < 4) := by
      omega
    rw [hs, ensureUNCLeading, ensureUNCLeading, hcount, hcount, hfilled]
    rw [if_neg (by simp [hfull]), if_pos (by simpa using hpad), List.append_assoc]
  · have hs : ensureUNCLeading s = s := by
      rw [ensureUNCLeading]
      exact if_neg (by simpa using hpad)
    rw [hs]

theorem showsAll_joined (parts : List Text) : ShowsAll parts (joined parts) := by
  rw [ShowsAll, joined]
  split
  · rfl
  · exact ⟨_, rfl, _, padded_ensureUNCLeading _, .inl (slashNormalized_normalizePathToken _)⟩

/-! ### Flags -/

theorem arrange_append (vs : List Text) (ps : List Piece) :
    arrange (vs.map .value ++ ps) = (vs ++ (arrange ps).1, (arrange ps).2) := by
  induction vs with
  | nil => rfl
  | cons v vs ih =>
    rw [List.map_cons, List.cons_append, arrange, ih]
    rfl

theorem unquote_eq (t : Text) :
    unquote t = if t = ['"'] ∨ t = ['\''] then none else some (unquoted t) := by
  have hends : ∀ q : Char, (t.head? = some q ∧ t.getLast? = some q) ↔ t = [q] ∨ quoted q t := by
    intro q
    rcases t with _ | ⟨c, _ | ⟨d, rest⟩⟩
    · simp [quoted]
    · simp [quoted]
    · simp [quoted]
  have hshort : t.length < 2 → ∀ q : Char, ¬ quoted q t := fun hlen q hq => by
    have := hq.1
    omega
  have hcut : (t.drop 1).take (t.length - 2) = t.tail.dropLast := by
    rw [List.drop_one, List.dropLast_eq_take, List.length_tail, Nat.sub_sub]
  have hone : ∀ q : Char, t = [q] → t.length < 2 := by
    rintro q rfl
    exact Nat.one_lt_two
  rw [unquote, unquoted]
  simp only [Bool.or_eq_true, Bool.and_eq_true, decide_eq_true_eq, hends, hcut]
  by_cases hlen : t.length < 2
  · simp only [hshort hlen, or_false, if_pos hlen, if_false]
  · have hnot : ∀ q : Char, t ≠ [q] := fun q hq => hlen (hone q hq)
    simp only [hnot, false_or, if_neg hlen, if_false]
    split
    · rfl
    · rfl

variable {t : Text}

theorem tokenPieces_of_blank (h : trimList t = []) : tokenPieces t = [] := by
  rw [tokenPieces]
  exact if_pos h

theorem tokenPieces_of_value (h : trimList t ≠ []) (hflag : isFlag (trimList t) = false) :
    tokenPieces t = [.value (trimList t)] := by
  rw [tokenPieces, if_neg h, hflag, if_neg Bool.false_ne_true]

/-- **A flag token** is split, with all values behind it, or it waits for a value. A single quote
is the only value that is refused. -/
theorem convertFlag_cases (rest : List Text) (hflag : isFlag (trimList t) = true) :
    (LoneQuote t ∧ convertFlag rest (trimList t) = none) ∨
    (¬ LoneQuote t ∧
      ((∃ flag vals, tokenPieces t = .flag flag :: vals.map .value ∧
          convertFlag rest (trimList t) =
            some (flag :: joined (vals ++ (segmentsFrom rest).1), false, (segmentsFrom rest).2)) ∨
        (tokenPieces t = [.flag (trimList t)] ∧
          convertFlag rest (trimList t) = some ([trimList t], true, 0)))) := by
  have hne : trimList t ≠ [] := by
    intro hnil
    rw [hnil] at hflag
    cases hflag
  rw [tokenPieces, if_neg hne, if_pos hflag, convertFlag]
  cases heq : cut (· = '=') (trimList t) with
  | some parts =>
    obtain ⟨flag, val⟩ := parts
    have hlone : LoneQuote t ↔ val = ['"'] ∨ val = ['\''] := by
      constructor
      · rintro ⟨-, flag', val', hcut, hval⟩
        rw [heq, Option.some.injEq, Prod.mk.injEq] at hcut
        exact hcut.2 ▸ hval
      · exact fun hval => ⟨hflag, flag, val, heq, hval⟩
    dsimp only
    rw [unquote_eq, hlone]
    by_cases hval : val = ['"'] ∨ val = ['\'']
    · exact .inl ⟨hval, by rw [if_pos hval, Option.map_none]⟩
    · refine .inr ⟨hval, .inl ⟨flag, [unquoted val].filter (· ≠ []), rfl, ?_⟩⟩
      rw [if_neg hval, Option.map_some]
  | none =>
    have hlone : ¬ LoneQuote t := by
      rintro ⟨-, flag, val, hcut, -⟩
      rw [heq] at hcut
      cases hcut
    refine .inr ⟨hlone, ?_⟩
    cases hblank : cut (· = ' ') (trimList t) with
    | none => exact .inr ⟨rfl, rfl⟩
    | some parts =>
      obtain ⟨flag, val⟩ := parts
      -- the text does not end in a blank
      have hval : val ≠ [] := by
        rintro rfl
        obtain ⟨-, -, c, hc, htext⟩ := cut_eq_some_iff.mp hblank
        have hlast := (trimmed_trimList t).2 c (by rw [htext, List.getLast?_concat]; rfl)
        rw [of_decide_eq_true hc] at hlast
        exact absurd hlast (by decide)
      refine .inl ⟨flag, [val], ?_, ?_⟩
      · have hkept : [val].filter (· ≠ []) = [val] := List.filter_cons_of_pos (by simpa using hval)
        exact congrArg (fun vs => Piece.flag flag :: vs.map .value) hkept
      · exact if_neg hval

theorem exists_flag_of_isFlag (hflag : isFlag (trimList t) = true) :
    ∃ flag vals, tokenPieces t = .flag flag :: vals := by
  have hne : trimList t ≠ [] := by
    intro hnil
    rw [hnil] at hflag
    cases hflag
  rw [tokenPieces, if_neg hne, if_pos hflag]
  split
  · exact ⟨_, _, rfl⟩
  · exact ⟨_, _, rfl⟩
  · exact ⟨_, _, rfl⟩

theorem segmentsFrom_eq (rest : List Text) :
    arrange (rest.flatMap tokenPieces) =
        ((segmentsFrom rest).1, (arrange (rest.flatMap tokenPieces)).2) ∧
      arrange ((rest.drop (segmentsFrom rest).2).flatMap tokenPieces) =
        ([], (arrange (rest.flatMap tokenPieces)).2) ∧
      ∀ t ∈ rest.take (segmentsFrom rest).2, isFlag (trimList t) = false := by
  induction rest with
  | nil => exact ⟨rfl, rfl, List.forall_mem_nil _⟩
  | cons peek rest ih =>
    obtain ⟨harrange, hdrop, hvalues⟩ := ih
    rw [segmentsFrom, List.flatMap_cons]
    by_cases hblank : trimList peek = []
    · rw [if_pos hblank, tokenPieces_of_blank hblank, List.nil_append]
      refine ⟨harrange, hdrop, ?_⟩
      rw [List.take_succ_cons, List.forall_mem_cons, hblank]
      exact ⟨rfl, hvalues⟩
    · rw [if_neg hblank]
      cases hflag : isFlag (trimList peek) with
      | true =>
        rw [if_pos rfl, List.drop_zero, List.flatMap_cons]
        obtain ⟨flag, vals, hpieces⟩ : ∃ flag vals, tokenPieces peek = .flag flag :: vals :=
          exists_flag_of_isFlag hflag
        rw [hpieces]
        exact ⟨rfl, rfl, List.forall_mem_nil _⟩
      | false =>
        rw [if_neg Bool.false_ne_true, tokenPieces_of_value hblank hflag]
        refine ⟨?_, hdrop, ?_⟩
        · rw [List.singleton_append, arrange, harrange]
        · rw [List.take_succ_cons, List.forall_mem_cons]
          exact ⟨hflag, hvalues⟩

/-! ### The pass -/

def Slot.Front : Slot → List Text → List Text → Prop
  | free, vs, front => List.Forall₂ (fun v o => ShowsOne [v] o) vs front
  | flagged, vs, front => ShowsAll vs front
  | valued value, vs, front => ∃ normal, List.Forall₂ SlashNormalized vs normal ∧
      front = [normal.foldl (fun v t => ensureUNCLeading (v ++ ' ' :: t)) value]

/-- What is still written shows the rest of the tokens. -/
def Slot.Lays (m : Slot) (a : List Text × List (Text × List Text)) (out : List Text) : Prop :=
  ∃ front laid, m.Front a.1 front ∧ List.Forall₂ ShowsFlag a.2 laid ∧ out = front ++ laid.flatten

theorem Slot.front_nil (m : Slot) : m.Front [] m.held := by
  cases m with
  | free => exact .nil
  | flagged => exact showsAll_joined []
  | valued value => exact ⟨[], .nil, rfl⟩

theorem showsAll_of_front {vs front : List Text}
    (h : (Slot.valued (ensureUNCLeading (normalizePathToken t))).Front vs front) :
    ShowsAll (t :: vs) front := by
  obtain ⟨normal, hnormal, rfl⟩ := h
  have hfold : ∀ (ts : List Text) (s : Text),
      ts.foldl (fun v t => ensureUNCLeading (v ++ ' ' :: t)) (ensureUNCLeading s) =
        ensureUNCLeading ([' '].intercalate (s :: ts)) := by
    intro ts
    induction ts with
    | nil => exact fun s => congrArg ensureUNCLeading (List.intercalate_singleton).symm
    | cons u ts ih =>
      intro s
      rw [List.foldl_cons, ensureUNCLeading_append, ih]
      congr 1
      cases ts with
      | nil => simp [List.intercalate_cons_cons]
      | cons w ts => simp [List.intercalate_cons_cons]
  rw [ShowsAll, if_neg (List.cons_ne_nil t vs), hfold]
  refine ⟨_, rfl, _, padded_ensureUNCLeading _, .inr ⟨_, ?_, rfl⟩⟩
  exact .cons (slashNormalized_normalizePathToken t) hnormal

theorem Slot.step_blank (m : Slot) (h : trimList t = []) (rest : List Text) :
    m.step rest t = some ([], m, 0) := by
  rw [Slot.step, if_pos h]

theorem not_loneQuote_of_not_flag (h : isFlag (trimList t) = false) : ¬ LoneQuote t := by
  rintro ⟨hflag, -⟩
  rw [h] at hflag
  cases hflag

theorem forward_isSome_iff {m : Slot} (n : ℕ) (ts : List Text) :
    (forward m n ts).isSome = true ↔ ∀ t ∈ ts.drop n, ¬ LoneQuote t := by
  induction ts generalizing m n with
  | nil =>
    rw [forward, List.drop_nil]
    exact iff_of_true rfl fun t ht => absurd ht List.not_mem_nil
  | cons t rest ih =>
    rcases n with _ | n
    · rw [forward, List.drop_zero, List.forall_mem_cons]
      by_cases hblank : trimList t = []
      · have hvalue : isFlag (trimList t) = false := by rw [hblank]; rfl
        rw [Slot.step_blank m hblank, Option.bind_some, Option.isSome_map, ih, List.drop_zero]
        exact (and_iff_right (not_loneQuote_of_not_flag hvalue)).symm
      cases hflag : isFlag (trimList t) with
      | false =>
        rw [Slot.step, if_neg hblank, hflag, if_neg Bool.false_ne_true, Option.bind_some,
          Option.isSome_map, ih, List.drop_zero]
        exact (and_iff_right (not_loneQuote_of_not_flag hflag)).symm
      | true =>
        rw [Slot.step, if_neg hblank, if_pos hflag]
        rcases convertFlag_cases rest hflag with
          ⟨hlone, hnone⟩ | ⟨hlone, ⟨flag, vals, -, hsome⟩ | ⟨-, hsome⟩⟩
        · rw [hnone, Option.map_none, Option.bind_none, Option.isSome_none]
          exact iff_of_false Bool.false_ne_true fun h => h.1 hlone
        · -- the tokens taken behind a split flag are values
          rw [hsome, Option.map_some, Option.bind_some, Option.isSome_map, ih, and_iff_right hlone]
          refine ⟨fun h u hu => ?_, fun h u hu => h u (List.mem_of_mem_drop hu)⟩
          rw [← List.take_append_drop (segmentsFrom rest).2 rest, List.mem_append] at hu
          rcases hu with htaken | hleft
          · exact not_loneQuote_of_not_flag ((segmentsFrom_eq rest).2.2 u htaken)
          · exact h u hleft
        · rw [hsome, Option.map_some, Option.bind_some, Option.isSome_map, ih, List.drop_zero]
          exact (and_iff_right hlone).symm
    · rw [forward, List.drop_succ_cons]
      exact ih n

/-- **What the pass writes** shows the tokens. -/
theorem lays_of_forward {m : Slot} (hm : m.Proper) {n : ℕ} {ts out : List Text}
    (h : forward m n ts = some out) :
    m.Lays (arrange ((ts.drop n).flatMap tokenPieces)) out := by
  induction ts generalizing m n out with
  | nil =>
    rw [forward, Option.some.injEq] at h
    rw [List.drop_nil, ← h]
    exact ⟨m.held, [], m.front_nil, .nil, (List.append_nil _).symm⟩
  | cons t rest ih =>
    rcases n with _ | n
    swap
    · exact ih hm h
    rw [forward] at h
    obtain ⟨⟨written, slot, taken⟩, hstep, h⟩ := Option.bind_eq_some_iff.mp h
    obtain ⟨more, hmore, rfl⟩ := Option.map_eq_some_iff.mp h
    rw [List.drop_zero, List.flatMap_cons]
    by_cases hblank : trimList t = []
    · rw [Slot.step_blank m hblank] at hstep
      cases hstep
      rw [tokenPieces_of_blank hblank, List.nil_append, List.nil_append]
      exact ih hm hmore
    cases hflag : isFlag (trimList t) with
    | true =>
      rw [Slot.step, if_neg hblank, if_pos hflag] at hstep
      rcases convertFlag_cases rest hflag with
        ⟨-, hnone⟩ | ⟨-, ⟨flag, vals, hpieces, hsome⟩ | ⟨hpieces, hsome⟩⟩
      · rw [hnone] at hstep
        cases hstep
      · rw [hsome] at hstep
        cases hstep
        obtain ⟨harrange, hdrop, -⟩ := segmentsFrom_eq rest
        obtain ⟨front, laid, hfront, hlaid, rfl⟩ := ih (m := .free) trivial hmore
        rw [hdrop] at hfront hlaid
        obtain rfl := List.forall₂_nil_left_iff.mp hfront
        rw [hpieces, List.cons_append, arrange, arrange_append, harrange]
        refine ⟨m.held, _, m.front_nil, .cons ⟨_, rfl, showsAll_joined _⟩ hlaid, ?_⟩
        rw [List.flatten_cons, List.nil_append, List.append_assoc]
      · rw [hsome] at hstep
        cases hstep
        obtain ⟨front, laid, hfront, hlaid, rfl⟩ := ih (m := .flagged) trivial hmore
        rw [List.drop_zero] at hfront hlaid
        rw [hpieces, List.singleton_append, arrange]
        refine ⟨m.held, _, m.front_nil, .cons ⟨front, rfl, hfront⟩ hlaid, ?_⟩
        rw [List.flatten_cons, List.append_assoc]
        rfl
    | false =>
      rw [Slot.step, if_neg hblank, hflag, if_neg Bool.false_ne_true] at hstep
      cases hstep
      have hnormalized : normalizePathToken (trimList t) ≠ [] := fun hnil => hblank
        (List.eq_nil_of_length_eq_zero
          ((length_normalizePathToken _).symm.trans (congrArg List.length hnil)))
      rw [tokenPieces_of_value hblank hflag, List.singleton_append, arrange]
      cases m with
      | free =>
        obtain ⟨front, laid, hfront, hlaid, rfl⟩ := ih (m := .free) trivial hmore
        rw [List.drop_zero] at hfront hlaid
        refine ⟨_, laid, .cons ⟨_, padded_ensureUNCLeading _, .inl ?_⟩ hfront, hlaid, rfl⟩
        rw [List.intercalate_singleton]
        exact slashNormalized_normalizePathToken _
      | flagged =>
        obtain ⟨front, laid, hfront, hlaid, rfl⟩ :=
          ih (proper_valued hblank (trimmed_trimList t)) hmore
        rw [List.drop_zero] at hfront hlaid
        exact ⟨front, laid, showsAll_of_front hfront, hlaid, rfl⟩
      | valued value =>
        obtain ⟨hkept, hproper, -⟩ := merged_spec hm hnormalized
          (trimmed_normalizePathToken (trimmed_trimList t))
        obtain ⟨front, laid, ⟨normal, hnormal, rfl⟩, hlaid, rfl⟩ := ih hproper hmore
        rw [List.drop_zero] at hnormal hlaid
        refine ⟨_, laid, ⟨normalizePathToken (trimList t) :: normal, ?_, ?_⟩, hlaid, rfl⟩
        · exact .cons (slashNormalized_normalizePathToken _) hnormal
        · rw [List.foldl_cons, hkept]

/-- **The law of `Convert-ArgTokenList`**: there is an output that shows the flags and values of
the input in their order, exactly if no flag is given a single quote as its value. -/
theorem converts_iff (ts : List Text) :
    (∃ out, convertArgTokenList ts = some out ∧ Converts ts out) ↔ ∀ t ∈ ts, ¬ LoneQuote t := by
  rw [convertArgTokenList_eq]
  have hsome := forward_isSome_iff (m := .free) 0 ts
  rw [List.drop_zero] at hsome
  rw [← hsome]
  constructor
  · rintro ⟨out, hout, -⟩
    rw [hout, Option.isSome_some]
  · intro h
    obtain ⟨out, hout⟩ := Option.isSome_iff_exists.mp h
    exact ⟨out, hout, lays_of_forward (m := .free) trivial hout⟩

/-- A single quote. -/
theorem not_converts_loneQuote :
    ¬ ∃ out, convertArgTokenList ["-lvpath=\"".toList] = some out ∧
      Converts ["-lvpath=\"".toList] out := by
  have hnone : convertArgTokenList ["-lvpath=\"".toList] = none := by decide +kernel
  rintro ⟨out, hout, -⟩
  rw [hnone] at hout
  cases hout

end CompareVI.ArgTokens
