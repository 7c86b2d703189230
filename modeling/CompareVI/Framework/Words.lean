import Mathlib.Algebra.GroupWithZero.Nat
import Mathlib.Data.List.Basic
import Mathlib.Tactic.Common

/-!
# Words between blanks

A text is cut into words at the blanks. A quote opens a stretch that lasts to the next
character like it: inside, blanks and other quotes are part of the word, and the two quotes
themselves are dropped. `words` is that scanner, over any alphabet and any two classes of
characters.

Words that are joined by blanks need not be the words that are read back: what a quote has
held together falls apart, and a quote that another one has held is read as a quote.
`words_join_iff` says that they are exactly when no word holds a blank or a quote. What is
read back is never longer than what was joined, and every quote that is dropped makes it
shorter (`size_scan_lt`).
-/

namespace Framework

namespace Words

variable {α : Type*} [DecidableEq α] {isBlank isQuote : α → Bool}

/-- The scanner: the words that are done, the word it is in, and the quote that is open. -/
structure Scanner (α : Type*) where
  done : List (List α)
  word : Option (List α)
  quote : Option α

namespace Scanner

def start : Scanner α := ⟨[], none, none⟩

def push (s : Scanner α) (c : α) : Scanner α := { s with word := some (s.word.getD [] ++ [c]) }

def next (isBlank isQuote : α → Bool) (s : Scanner α) (c : α) : Scanner α :=
  match s.quote with
  | some q => if c = q then { s with quote := none } else s.push c
  | none =>
    if isQuote c then { s with word := some (s.word.getD []), quote := some c }
    else if isBlank c then ⟨s.done ++ s.word.toList, none, none⟩
    else s.push c

def words (s : Scanner α) : List (List α) := s.done ++ s.word.toList

def size (s : Scanner α) : ℕ :=
  (s.done.map fun w => w.length + 1).sum + (s.word.getD []).length

end Scanner

def scan (isBlank isQuote : α → Bool) (cs : List α) : Scanner α :=
  cs.foldl (Scanner.next isBlank isQuote) .start

def words (isBlank isQuote : α → Bool) (cs : List α) : List (List α) :=
  (scan isBlank isQuote cs).words

def unterminated (isBlank isQuote : α → Bool) (cs : List α) : Bool :=
  (scan isBlank isQuote cs).quote.isSome

/-! ### Sizes -/

section Size

variable {s : Scanner α}

omit [DecidableEq α] in
theorem size_push (s : Scanner α) (c : α) : (s.push c).size = s.size + 1 := by
  simp only [Scanner.push, Scanner.size, Option.getD_some, List.length_append,
    List.length_singleton, Nat.add_assoc]

variable (isBlank isQuote) in
theorem size_next_le (s : Scanner α) (c : α) :
    (s.next isBlank isQuote c).size ≤ s.size + 1 := by
  unfold Scanner.next
  split
  · split
    · exact Nat.le_succ _
    · exact Nat.le_of_eq (size_push s c)
  · split
    · exact Nat.le_succ _
    · split
      · -- the word is done: its end is counted for the blank
        cases hw : s.word with
        | none => simp [Scanner.size, hw]
        | some w => simp [Scanner.size, hw, Nat.add_assoc]
      · exact Nat.le_of_eq (size_push s c)

variable {cs : List α} {c : α}

theorem size_next_quote (hs : s.quote = none) (hc : isQuote c = true) :
    (s.next isBlank isQuote c).size = s.size := by
  simp only [Scanner.next, hs, hc, if_true, Scanner.size, Option.getD_some]

variable (isBlank isQuote) in
theorem size_foldl_le (cs : List α) (s : Scanner α) :
    (cs.foldl (Scanner.next isBlank isQuote) s).size ≤ s.size + cs.length := by
  induction cs generalizing s with
  | nil => exact Nat.le_refl _
  | cons c cs ih =>
    calc (cs.foldl (Scanner.next isBlank isQuote) (s.next isBlank isQuote c)).size
        ≤ (s.next isBlank isQuote c).size + cs.length := ih _
      _ ≤ s.size + 1 + cs.length := Nat.add_le_add_right (size_next_le isBlank isQuote s c) _
      _ = s.size + (c :: cs).length := by rw [List.length_cons, Nat.add_assoc, Nat.add_comm 1]

variable (isBlank) in
theorem quote_next (hs : s.quote = none) (hc : isQuote c = false) :
    (s.next isBlank isQuote c).quote = none := by
  unfold Scanner.next
  rw [hs]
  dsimp only
  rw [if_neg (Bool.eq_false_iff.mp hc)]
  split
  · rfl
  · exact hs

variable (isBlank) in
theorem size_foldl_lt (hs : s.quote = none) (h : ∃ c ∈ cs, isQuote c = true) :
    (cs.foldl (Scanner.next isBlank isQuote) s).size < s.size + cs.length := by
  induction cs generalizing s with
  | nil =>
    obtain ⟨c, hc, -⟩ := h
    cases hc
  | cons c cs ih =>
    rw [List.foldl_cons, List.length_cons]
    cases hc : isQuote c with
    | true =>
      have hrest := size_foldl_le isBlank isQuote cs (s.next isBlank isQuote c)
      rw [size_next_quote hs hc] at hrest
      exact Nat.lt_succ_of_le hrest
    | false =>
      -- the first quote is in the rest
      obtain ⟨d, hd, hquote⟩ := h
      have hd' : d ∈ cs := by
        refine (List.mem_cons.mp hd).resolve_left ?_
        rintro rfl
        exact absurd hquote (by simp [hc])
      have hrest := ih (quote_next isBlank hs hc) ⟨d, hd', hquote⟩
      have hle := size_next_le isBlank isQuote s c
      omega

omit [DecidableEq α] in
theorem size_words_le (s : Scanner α) :
    (s.words.map fun w => w.length + 1).sum ≤ s.size + 1 := by
  cases hw : s.word with
  | none => simp [Scanner.words, Scanner.size, hw]
  | some w => simp [Scanner.words, Scanner.size, hw, Nat.add_assoc]

omit [DecidableEq α] in
theorem sum_filter_le (keep : List α → Bool) (ws : List (List α)) :
    ((ws.filter keep).map fun w => w.length + 1).sum ≤ (ws.map fun w => w.length + 1).sum := by
  induction ws with
  | nil => exact Nat.le_refl _
  | cons w ws ih =>
    rw [List.filter_cons]
    split
    · rw [List.map_cons, List.sum_cons, List.map_cons, List.sum_cons]
      exact Nat.add_le_add_left ih _
    · rw [List.map_cons, List.sum_cons]
      exact Nat.le_trans ih (Nat.le_add_left _ _)

variable (isBlank) in
theorem sum_kept_le (keep : List α → Bool) (h : ∃ c ∈ cs, isQuote c = true) :
    (((words isBlank isQuote cs).filter keep).map fun w => w.length + 1).sum ≤ cs.length := by
  have hlt : (scan isBlank isQuote cs).size < 0 + cs.length :=
    size_foldl_lt isBlank (s := Scanner.start) rfl h
  calc (((words isBlank isQuote cs).filter keep).map fun w => w.length + 1).sum
      ≤ ((words isBlank isQuote cs).map fun w => w.length + 1).sum := sum_filter_le keep _
    _ ≤ (scan isBlank isQuote cs).size + 1 := size_words_le _
    _ ≤ cs.length := by rwa [Nat.zero_add] at hlt

end Size

/-! ### Plain words -/

section Plain

variable {s : Scanner α} {b : α}

/-- A word without blanks and quotes. -/
def Plain (isBlank isQuote : α → Bool) (w : List α) : Prop :=
  ∀ c ∈ w, isBlank c = false ∧ isQuote c = false

instance (w : List α) : Decidable (Plain isBlank isQuote w) := by
  unfold Plain
  infer_instance

omit [DecidableEq α] in
theorem plain_push {c : α} (hs : ∀ w ∈ s.words, Plain isBlank isQuote w)
    (hc : isBlank c = false ∧ isQuote c = false) :
    ∀ w ∈ (s.push c).words, Plain isBlank isQuote w := by
  intro w hw d hd
  rcases List.mem_append.mp hw with hdone | hword
  · exact hs w (List.mem_append_left _ hdone) d hd
  · obtain rfl := List.mem_singleton.mp hword
    rcases List.mem_append.mp hd with hd | hd
    · cases hopen : s.word with
      | none => simp [hopen] at hd
      | some v =>
        refine hs v (List.mem_append_right _ ?_) d ?_
        · rw [hopen]
          exact List.mem_singleton_self v
        · rwa [hopen] at hd
    · obtain rfl := List.mem_singleton.mp hd
      exact hc

theorem plain_foldl {cs : List α} (hs : s.quote = none)
    (hwords : ∀ w ∈ s.words, Plain isBlank isQuote w) (hcs : ∀ c ∈ cs, isQuote c = false) :
    ∀ w ∈ (cs.foldl (Scanner.next isBlank isQuote) s).words, Plain isBlank isQuote w := by
  induction cs generalizing s with
  | nil => exact hwords
  | cons c cs ih =>
    have hc := hcs c List.mem_cons_self
    refine ih (quote_next isBlank hs hc) ?_ fun d hd => hcs d (List.mem_cons_of_mem c hd)
    unfold Scanner.next
    rw [hs]
    dsimp only
    rw [if_neg (Bool.eq_false_iff.mp hc)]
    split
    · -- a blank ends the word
      intro w hw
      rw [Scanner.words, Option.toList_none, List.append_nil] at hw
      exact hwords w hw
    · next hblank => exact plain_push hwords ⟨Bool.eq_false_iff.mpr hblank, hc⟩

theorem foldl_plain {w : List α} (hw : Plain isBlank isQuote w) (done : List (List α))
    (word : Option (List α)) (hne : word = none → w ≠ []) :
    w.foldl (Scanner.next isBlank isQuote) ⟨done, word, none⟩ =
      ⟨done, some (word.getD [] ++ w), none⟩ := by
  induction w generalizing word with
  | nil =>
    cases word with
    | none => exact absurd rfl (hne rfl)
    | some v => rw [Option.getD_some, List.append_nil, List.foldl_nil]
  | cons c w ih =>
    obtain ⟨hblank, hquote⟩ := hw c List.mem_cons_self
    have hnext : Scanner.next isBlank isQuote ⟨done, word, none⟩ c =
        ⟨done, some (word.getD [] ++ [c]), none⟩ := by
      simp [Scanner.next, hblank, hquote, Scanner.push]
    have hrest := ih (fun d hd => hw d (List.mem_cons_of_mem c hd)) (some (word.getD [] ++ [c]))
      fun h => absurd h (Option.some_ne_none _)
    rw [List.foldl_cons, hnext, hrest, Option.getD_some, List.append_assoc,
      List.singleton_append]

variable {ts : List (List α)}

theorem foldl_join (hb : isBlank b = true) (hq : isQuote b = false) (hne : ∀ t ∈ ts, t ≠ [])
    (hplain : ∀ t ∈ ts, Plain isBlank isQuote t) (done : List (List α)) :
    ((List.intercalate [b] ts).foldl (Scanner.next isBlank isQuote) ⟨done, none, none⟩).words =
      done ++ ts := by
  induction ts generalizing done with
  | nil => rfl
  | cons t ts ih =>
    have ht := foldl_plain (hplain t List.mem_cons_self) done none
      fun _ => hne t List.mem_cons_self
    cases ts with
    | nil =>
      rw [List.intercalate_singleton, ht]
      rfl
    | cons u ts =>
      have hblank : Scanner.next isBlank isQuote ⟨done, some ([] ++ t), none⟩ b =
          ⟨done ++ [t], none, none⟩ := by
        simp [Scanner.next, hb, hq]
      rw [List.intercalate_cons_cons, List.append_assoc, List.foldl_append, ht,
        List.singleton_append, List.foldl_cons, Option.getD_none, hblank,
        ih (fun v hv => hne v (List.mem_cons_of_mem t hv))
          (fun v hv => hplain v (List.mem_cons_of_mem t hv)), List.append_assoc,
        List.singleton_append]

theorem words_join (hb : isBlank b = true) (hq : isQuote b = false) (hne : ∀ t ∈ ts, t ≠ [])
    (hplain : ∀ t ∈ ts, Plain isBlank isQuote t) :
    words isBlank isQuote (List.intercalate [b] ts) = ts :=
  (foldl_join hb hq hne hplain []).trans (List.nil_append ts)

omit [DecidableEq α] in
theorem sum_length_join (b : α) (hts : ts ≠ []) :
    (ts.map fun w => w.length + 1).sum = (List.intercalate [b] ts).length + 1 := by
  induction ts with
  | nil => exact absurd rfl hts
  | cons t ts ih =>
    cases ts with
    | nil => rw [List.intercalate_singleton, List.map_singleton, List.sum_singleton]
    | cons u ts =>
      rw [List.map_cons, List.sum_cons, ih (List.cons_ne_nil u ts), List.intercalate_cons_cons,
        List.length_append, List.length_append, List.length_singleton]
      omega

omit [DecidableEq α] in
theorem mem_join {t : List α} (ht : t ∈ ts) {c : α} (hc : c ∈ t) :
    c ∈ List.intercalate [b] ts := by
  induction ts with
  | nil => cases ht
  | cons u ts ih =>
    cases ts with
    | nil =>
      obtain rfl := List.mem_singleton.mp ht
      rwa [List.intercalate_singleton]
    | cons v ts =>
      rw [List.intercalate_cons_cons]
      rcases List.mem_cons.mp ht with rfl | ht
      · exact List.mem_append_left _ (List.mem_append_left _ hc)
      · exact List.mem_append_right _ (ih ht)

/-- **Joining and reading back.** Words that are joined by a blank are read back, as far as they
are kept by a test that they all pass, exactly when all of them are plain. -/
theorem words_join_iff (keep : List α → Bool) (hb : isBlank b = true) (hq : isQuote b = false)
    (hne : ∀ t ∈ ts, t ≠ []) (hkeep : ∀ t ∈ ts, keep t = true) :
    (words isBlank isQuote (List.intercalate [b] ts)).filter keep = ts ↔
      ∀ t ∈ ts, Plain isBlank isQuote t := by
  constructor
  · intro heq
    by_cases hts : ts = []
    · rw [hts]
      exact List.forall_mem_nil _
    -- a quote would make what is read too short
    have hfree : ∀ c ∈ List.intercalate [b] ts, isQuote c = false := by
      intro c hc
      by_contra hquote
      have hle := sum_kept_le isBlank keep ⟨c, hc, Bool.not_eq_false _ ▸ hquote⟩
      rw [heq, sum_length_join b hts] at hle
      exact Nat.not_succ_le_self _ hle
    intro t ht
    rw [← heq] at ht
    exact plain_foldl rfl (List.forall_mem_nil _) hfree t
      (List.mem_filter.mp ht).1
  · intro hplain
    rw [words_join hb hq hne hplain]
    exact List.filter_eq_self.mpr hkeep

end Plain

end Words

end Framework
