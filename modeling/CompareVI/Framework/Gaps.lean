import CompareVI.Framework.Slug

/-!
# Texts cut at their letters

A text is its letters and the gaps between them (`weave_gaps_letters`), and no two choices of
letters and gaps give one text (`weave_inj`).

Replacing every run of characters that are not kept by so many separators, where the separator is
itself kept, changes a gap only: it becomes as many separators as its `width`, which counts the
separators that are there and every run as its replacement. So two texts are replaced by one text
exactly if they have the same letters, with gaps of the same widths between them
(`replaceRuns_eq_iff`).
-/

namespace Framework
namespace Gaps

open JsString

section Weave

variable {α : Type} {p : α → Bool}

def weave : List (List α) → List α → List α
  | [], ls => ls
  | [g], [] => g
  | g :: gs, [] => g ++ weave gs []
  | g :: gs, l :: ls => g ++ l :: weave gs ls

/-- A gap has no letters. -/
def IsGap (p : α → Bool) (g : List α) : Prop := ∀ c ∈ g, p c = false

theorem splitOnP_cons_of_letter {c : α} (hc : p c = true) (cs : List α) :
    (c :: cs).splitOnP p = [] :: cs.splitOnP p := by
  rw [List.splitOnP_cons_eq_if_modifyHead, if_pos hc]

variable {gs : List (List α)} {cs g : List α}

theorem splitOnP_cons_of_not_letter {c : α} (hc : p c = false) (h : cs.splitOnP p = g :: gs) :
    (c :: cs).splitOnP p = (c :: g) :: gs := by
  rw [List.splitOnP_cons_eq_if_modifyHead, hc, h]
  rfl

theorem exists_splitOnP (p : α → Bool) (cs : List α) : ∃ g gs, cs.splitOnP p = g :: gs :=
  List.exists_cons_of_ne_nil (List.splitOnP_ne_nil p cs)

theorem splitOnP_append_of_isGap {h : List α} (hg : IsGap p g) (hcs : cs.splitOnP p = h :: gs) :
    (g ++ cs).splitOnP p = (g ++ h) :: gs := by
  induction g with
  | nil => exact hcs
  | cons c g ih =>
    have hrest := ih fun d hd => hg d (List.mem_cons_of_mem c hd)
    exact splitOnP_cons_of_not_letter (hg c List.mem_cons_self) hrest

theorem splitOnP_weave {ls : List α} (hgs : ∀ g ∈ gs, IsGap p g) (hls : ∀ l ∈ ls, p l = true)
    (hlength : gs.length = ls.length + 1) :
    (weave gs ls).splitOnP p = gs ∧ (weave gs ls).filter p = ls := by
  induction ls generalizing gs with
  | nil =>
    obtain ⟨g, rfl⟩ := List.length_eq_one_iff.mp hlength
    have hg : IsGap p g := hgs g (List.mem_singleton_self g)
    constructor
    · have hsplit := splitOnP_append_of_isGap hg (List.splitOnP_nil (p := p))
      rwa [List.append_nil] at hsplit
    · exact List.filter_eq_nil_iff.mpr fun c hc => by rw [hg c hc]; exact Bool.false_ne_true
  | cons l ls ih =>
    cases gs with
    | nil => cases hlength
    | cons g gs =>
      have hg : IsGap p g := hgs g List.mem_cons_self
      have hl : p l = true := hls l List.mem_cons_self
      obtain ⟨hsplit, hfilter⟩ := ih (fun h hh => hgs h (List.mem_cons_of_mem g hh))
        (fun m hm => hls m (List.mem_cons_of_mem l hm)) (Nat.succ.inj hlength)
      have hnone : g.filter p = [] :=
        List.filter_eq_nil_iff.mpr fun c hc => by rw [hg c hc]; exact Bool.false_ne_true
      constructor
      · rw [weave, splitOnP_append_of_isGap hg (splitOnP_cons_of_letter hl _), hsplit,
          List.append_nil]
      · rw [weave, List.filter_append, hnone, List.filter_cons_of_pos hl, hfilter, List.nil_append]

theorem weave_cons_gap (c : α) (g : List α) (gs : List (List α)) (ls : List α) :
    weave ((c :: g) :: gs) ls = c :: weave (g :: gs) ls := by
  cases gs <;> cases ls <;> rfl

theorem weave_gaps_letters (p : α → Bool) (cs : List α) :
    weave (cs.splitOnP p) (cs.filter p) = cs := by
  induction cs with
  | nil => rfl
  | cons c cs ih =>
    obtain ⟨g, gs, hsplit⟩ := exists_splitOnP p cs
    rw [hsplit] at ih
    by_cases hc : p c = true
    · rw [splitOnP_cons_of_letter hc, List.filter_cons_of_pos hc, hsplit, weave, ih,
        List.nil_append]
    · rw [splitOnP_cons_of_not_letter (Bool.eq_false_of_not_eq_true hc) hsplit,
        List.filter_cons_of_neg hc, weave_cons_gap, ih]

theorem length_splitOnP (p : α → Bool) (cs : List α) :
    (cs.splitOnP p).length = (cs.filter p).length + 1 := by
  induction cs with
  | nil => rfl
  | cons c cs ih =>
    obtain ⟨g, gs, hsplit⟩ := exists_splitOnP p cs
    by_cases hc : p c = true
    · rw [splitOnP_cons_of_letter hc, List.filter_cons_of_pos hc, List.length_cons, ih,
        List.length_cons]
    · rw [splitOnP_cons_of_not_letter (Bool.eq_false_of_not_eq_true hc) hsplit,
        List.filter_cons_of_neg hc, ← ih, hsplit, List.length_cons, List.length_cons]

theorem isGap_of_mem_splitOnP (hg : g ∈ cs.splitOnP p) : IsGap p g := by
  induction cs generalizing g with
  | nil =>
    obtain rfl := List.mem_singleton.mp hg
    exact List.forall_mem_nil _
  | cons c cs ih =>
    obtain ⟨h, gs, hsplit⟩ := exists_splitOnP p cs
    by_cases hc : p c = true
    · rw [splitOnP_cons_of_letter hc] at hg
      rcases List.mem_cons.mp hg with rfl | hg
      · exact List.forall_mem_nil _
      · exact ih hg
    · have hc : p c = false := Bool.eq_false_of_not_eq_true hc
      rw [splitOnP_cons_of_not_letter hc hsplit] at hg
      rw [hsplit] at ih
      rcases List.mem_cons.mp hg with rfl | hg
      · intro d hd
        rcases List.mem_cons.mp hd with rfl | hd
        · exact hc
        · exact ih List.mem_cons_self d hd
      · exact ih (List.mem_cons_of_mem h hg)

theorem weave_inj {hs : List (List α)} {ls ms : List α} (hgs : ∀ g ∈ gs, IsGap p g)
    (hhs : ∀ h ∈ hs, IsGap p h) (hls : ∀ l ∈ ls, p l = true) (hms : ∀ m ∈ ms, p m = true)
    (hglength : gs.length = ls.length + 1) (hhlength : hs.length = ms.length + 1) :
    weave gs ls = weave hs ms ↔ ls = ms ∧ gs = hs := by
  constructor
  · intro heq
    obtain ⟨hgsplit, hgfilter⟩ := splitOnP_weave hgs hls hglength
    obtain ⟨hhsplit, hhfilter⟩ := splitOnP_weave hhs hms hhlength
    rw [heq] at hgsplit hgfilter
    exact ⟨hgfilter.symm.trans hhfilter, hgsplit.symm.trans hhsplit⟩
  · rintro ⟨rfl, rfl⟩
    rfl

end Weave

section Runs

variable {keep : Char → Bool} {sep : Char} {k : ℕ}

def isLetter (keep : Char → Bool) (sep c : Char) : Bool := keep c && c != sep

/-- How many separators a gap becomes: those that are in it, and `k` for every run of other
characters. -/
def width (sep : Char) (k : ℕ) (g : List Char) : ℕ :=
  g.count sep + k * (g.splitOn sep).countP fun run => !run.isEmpty

theorem keep_of_isLetter {c : Char} (hc : isLetter keep sep c = true) : keep c = true :=
  (Bool.and_eq_true_iff.mp hc).1

theorem isLetter_sep : isLetter keep sep sep = false := by
  rw [isLetter, bne_self_eq_false, Bool.and_false]

theorem not_keep_of_isGap {c : Char} {g : List Char} (hg : IsGap (isLetter keep sep) g)
    (hc : c ∈ g) (hsep : c ≠ sep) : keep c = false := by
  have hletter := hg c hc
  rwa [isLetter, bne_iff_ne.mpr hsep, Bool.and_true] at hletter

theorem replaceRuns_append_of_keep {replacement : List Char} {l : Char} (hl : keep l = true)
    (b : Bool) (g cs : List Char) :
    replaceRuns keep replacement b (g ++ l :: cs) =
      replaceRuns keep replacement b g ++ l :: replaceRuns keep replacement false cs := by
  induction g generalizing b with
  | nil => exact Slug.replaceRuns_cons_of_keep hl
  | cons c g ih =>
    by_cases hc : keep c = true
    · rw [List.cons_append, Slug.replaceRuns_cons_of_keep hc, Slug.replaceRuns_cons_of_keep hc, ih,
        List.cons_append]
    · have hc : keep c = false := Bool.eq_false_of_not_eq_true hc
      rw [List.cons_append, Slug.replaceRuns_cons_of_not_keep hc,
        Slug.replaceRuns_cons_of_not_keep hc, ih, List.append_assoc]

/-- What becomes of a gap. While a run is under way its first characters, up to a separator, have
been replaced already. -/
theorem replaceRuns_gap (hsep : keep sep = true) {g run : List Char} {runs : List (List Char)}
    (hg : IsGap (isLetter keep sep) g) (hruns : g.splitOn sep = run :: runs) (b : Bool) :
    replaceRuns keep (List.replicate k sep) b g =
      List.replicate (g.count sep + k * (runs.countP (fun run => !run.isEmpty) +
        if b || run.isEmpty then 0 else 1)) sep := by
  induction g generalizing b run runs with
  | nil =>
    rw [List.splitOn_nil] at hruns
    obtain ⟨rfl, rfl⟩ := List.cons.inj hruns
    cases b <;> rfl
  | cons c g ih =>
    have hrest : IsGap (isLetter keep sep) g := fun d hd => hg d (List.mem_cons_of_mem c hd)
    obtain ⟨first, others, hothers⟩ := List.exists_cons_of_ne_nil (List.splitOn_ne_nil sep g)
    rw [List.splitOn_cons_eq_if_modifyHead, hothers] at hruns
    by_cases hc : c = sep
    · -- a separator of the gap
      subst hc
      rw [if_pos (beq_self_eq_true c)] at hruns
      obtain ⟨rfl, rfl⟩ := List.cons.inj hruns
      rw [Slug.replaceRuns_cons_of_keep hsep, ih hrest hothers, List.count_cons_self,
        List.countP_cons]
      cases first <;> simp [List.replicate_succ, Nat.add_right_comm _ 1]
    · -- a character of a run
      have hkeep := not_keep_of_isGap hg List.mem_cons_self hc
      rw [if_neg (by simpa using hc)] at hruns
      obtain ⟨rfl, rfl⟩ := List.cons.inj hruns
      rw [Slug.replaceRuns_cons_of_not_keep hkeep, ih hrest hothers,
        List.count_cons_of_ne (fun h => hc h)]
      cases b <;> simp [Nat.mul_add, Nat.add_comm, Nat.add_left_comm]

theorem replaceRuns_of_isGap (hsep : keep sep = true) {g : List Char}
    (hg : IsGap (isLetter keep sep) g) :
    replaceRuns keep (List.replicate k sep) false g = List.replicate (width sep k g) sep := by
  obtain ⟨run, runs, hruns⟩ := List.exists_cons_of_ne_nil (List.splitOn_ne_nil sep g)
  rw [replaceRuns_gap hsep hg hruns, width, hruns, List.countP_cons]
  cases run <;> rfl

theorem replaceRuns_weave (hsep : keep sep = true) {gs : List (List Char)} {ls : List Char}
    (hgs : ∀ g ∈ gs, IsGap (isLetter keep sep) g) (hls : ∀ l ∈ ls, isLetter keep sep l = true)
    (hlength : gs.length = ls.length + 1) :
    replaceRuns keep (List.replicate k sep) false (weave gs ls) =
      weave (gs.map fun g => List.replicate (width sep k g) sep) ls := by
  induction ls generalizing gs with
  | nil =>
    obtain ⟨g, rfl⟩ := List.length_eq_one_iff.mp hlength
    exact replaceRuns_of_isGap hsep (hgs g (List.mem_singleton_self g))
  | cons l ls ih =>
    cases gs with
    | nil => cases hlength
    | cons g gs =>
      have hl : keep l = true := keep_of_isLetter (hls l List.mem_cons_self)
      have hrest := ih (fun h hh => hgs h (List.mem_cons_of_mem g hh))
        (fun m hm => hls m (List.mem_cons_of_mem l hm)) (Nat.succ.inj hlength)
      rw [weave, replaceRuns_append_of_keep hl, hrest,
        replaceRuns_of_isGap hsep (hgs g List.mem_cons_self), List.map_cons, weave]

theorem replaceRuns_eq_weave (hsep : keep sep = true) (cs : List Char) :
    replaceRuns keep (List.replicate k sep) false cs =
      weave ((cs.splitOnP (isLetter keep sep)).map fun g => List.replicate (width sep k g) sep)
        (cs.filter (isLetter keep sep)) := by
  rw [← replaceRuns_weave hsep (fun g hg => isGap_of_mem_splitOnP hg)
    (fun l hl => (List.mem_filter.mp hl).2) (length_splitOnP _ cs), weave_gaps_letters]

/-- **Two texts are replaced by one text** exactly if they have the same letters, with gaps of the
same widths between them. -/
theorem replaceRuns_eq_iff (hsep : keep sep = true) (as bs : List Char) :
    replaceRuns keep (List.replicate k sep) false as =
        replaceRuns keep (List.replicate k sep) false bs ↔
      as.filter (isLetter keep sep) = bs.filter (isLetter keep sep) ∧
        (as.splitOnP (isLetter keep sep)).map (width sep k) =
          (bs.splitOnP (isLetter keep sep)).map (width sep k) := by
  have hgaps : ∀ cs : List Char, ∀ g ∈ (cs.splitOnP (isLetter keep sep)).map fun g =>
      List.replicate (width sep k g) sep, IsGap (isLetter keep sep) g := by
    intro cs g hg c hc
    obtain ⟨h, -, rfl⟩ := List.mem_map.mp hg
    rw [List.eq_of_mem_replicate hc]
    exact isLetter_sep
  have hletters : ∀ cs : List Char, ∀ l ∈ cs.filter (isLetter keep sep),
      isLetter keep sep l = true := fun cs l hl => (List.mem_filter.mp hl).2
  have hlength : ∀ cs : List Char, ((cs.splitOnP (isLetter keep sep)).map fun g =>
      List.replicate (width sep k g) sep).length = (cs.filter (isLetter keep sep)).length + 1 :=
    fun cs => by rw [List.length_map, length_splitOnP]
  rw [replaceRuns_eq_weave hsep, replaceRuns_eq_weave hsep, weave_inj (hgaps as) (hgaps bs)
    (hletters as) (hletters bs) (hlength as) (hlength bs)]
  refine and_congr_right fun _ => ⟨fun hfill => ?_, fun hwidth => ?_⟩
  · have hlengths := congrArg (List.map List.length) hfill
    simpa [List.map_map, Function.comp_def] using hlengths
  · have hfills := congrArg (List.map fun n => List.replicate n sep) hwidth
    simpa [List.map_map, Function.comp_def] using hfills

end Runs
end Gaps
end Framework
