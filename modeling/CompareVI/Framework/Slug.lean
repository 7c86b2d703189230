import CompareVI.Framework.JsString
import Mathlib.Data.List.Chain

/-!
# Slugs

A slug is what is left of a text when every run of characters that are not kept becomes one
separator, and no separator stands at an end (`slug`). Such a text is recognised by its
neighbours: of two of them, one is kept (`IsSlug`).

* Taking the slug of a slug changes nothing (`slug_of_isSlug`, `isSlug_slug`).
* A word of kept characters occurs in a slug only if it occurs in the text
  (`infix_of_infix_slug`): replacing runs joins nothing.
* The slug is empty exactly if nothing in the text is kept (`slug_eq_nil_iff`).
-/

namespace Framework
namespace Slug

open JsString

variable {keep : Char → Bool} {sep : Char} {cs w : List Char} {b : Bool}

/-- Every run that is not kept becomes one separator, and those at the ends are dropped. -/
def slug (keep : Char → Bool) (sep : Char) (cs : List Char) : List Char :=
  Tokens.trim (· = sep) (replaceRuns keep [sep] false cs)

/-- Kept characters with single separators between them. -/
structure IsSlug (keep : Char → Bool) (sep : Char) (cs : List Char) : Prop where
  chars : ∀ c ∈ cs, keep c = true ∨ c = sep
  single : cs.IsChain fun c d => keep c = true ∨ keep d = true
  trimmed : Tokens.Trimmed (fun c => decide (c = sep)) cs

variable {c : Char} {replacement : List Char}

theorem replaceRuns_cons_of_keep (hc : keep c = true) :
    replaceRuns keep replacement b (c :: cs) = c :: replaceRuns keep replacement false cs := by
  rw [replaceRuns, if_pos hc]

theorem replaceRuns_cons_of_not_keep (hc : keep c = false) :
    replaceRuns keep replacement b (c :: cs) =
      (if b then [] else replacement) ++ replaceRuns keep replacement true cs := by
  rw [replaceRuns, if_neg (by rw [hc]; exact Bool.false_ne_true)]

theorem replaceRuns_flag (h : ∀ c ∈ cs.head?, keep c = true) :
    replaceRuns keep [sep] b cs = replaceRuns keep [sep] false cs := by
  cases cs with
  | nil => rfl
  | cons c cs => rw [replaceRuns_cons_of_keep (h c rfl), replaceRuns_cons_of_keep (h c rfl)]

theorem mem_replaceRuns (hc : c ∈ replaceRuns keep [sep] b cs) :
    keep c = true ∧ c ∈ cs ∨ c = sep := by
  induction cs generalizing b with
  | nil => cases hc
  | cons d cs ih =>
    cases hd : keep d with
    | true =>
      rw [replaceRuns_cons_of_keep hd] at hc
      rcases List.mem_cons.mp hc with rfl | hc
      · exact .inl ⟨hd, List.mem_cons_self⟩
      · exact (ih hc).imp_left fun h => ⟨h.1, List.mem_cons_of_mem _ h.2⟩
    | false =>
      rw [replaceRuns_cons_of_not_keep hd] at hc
      rcases List.mem_append.mp hc with hsep | hc
      · cases b with
        | true => cases hsep
        | false => exact .inr (List.mem_singleton.mp hsep)
      · exact (ih hc).imp_left fun h => ⟨h.1, List.mem_cons_of_mem _ h.2⟩

theorem mem_replaceRuns_of_keep (hkeep : keep c = true) (hc : c ∈ cs) :
    c ∈ replaceRuns keep [sep] b cs := by
  induction cs generalizing b with
  | nil => cases hc
  | cons d cs ih =>
    cases hd : keep d with
    | true =>
      rw [replaceRuns_cons_of_keep hd]
      exact List.mem_cons.mpr ((List.mem_cons.mp hc).imp_right ih)
    | false =>
      rw [replaceRuns_cons_of_not_keep hd]
      rcases List.mem_cons.mp hc with rfl | hc
      · rw [hd] at hkeep
        exact nomatch hkeep
      · exact List.mem_append_right _ (ih hc)

/-- The separators of the replaced text are single, and behind a run a kept character comes
first. -/
theorem isChain_replaceRuns :
    (replaceRuns keep [sep] b cs).IsChain (fun c d => keep c = true ∨ keep d = true) ∧
      (b = true → ∀ c ∈ (replaceRuns keep [sep] b cs).head?, keep c = true) := by
  induction cs generalizing b with
  | nil => exact ⟨List.isChain_nil, fun _ c hc => nomatch hc⟩
  | cons d cs ih =>
    cases hd : keep d with
    | true =>
      rw [replaceRuns_cons_of_keep hd, List.isChain_cons]
      refine ⟨⟨fun _ _ => .inl hd, ih.1⟩, fun _ c hc => ?_⟩
      obtain rfl : d = c := Option.some.inj hc
      exact hd
    | false =>
      rw [replaceRuns_cons_of_not_keep hd]
      obtain ⟨hchain, hhead⟩ := @ih true
      cases b with
      | true => exact ⟨hchain, fun _ => hhead rfl⟩
      | false =>
        rw [if_neg Bool.false_ne_true, List.singleton_append, List.isChain_cons]
        exact ⟨⟨fun c hc => .inr (hhead rfl c hc), hchain⟩, fun h => nomatch h⟩

theorem replaceRuns_of_isChain (hsep : keep sep = false)
    (hchars : ∀ c ∈ cs, keep c = true ∨ c = sep)
    (hsingle : cs.IsChain fun c d => keep c = true ∨ keep d = true) :
    replaceRuns keep [sep] false cs = cs := by
  induction cs with
  | nil => rfl
  | cons c cs ih =>
    obtain ⟨hhead, htail⟩ := List.isChain_cons.mp hsingle
    have hrest := ih (fun d hd => hchars d (List.mem_cons_of_mem _ hd)) htail
    rcases hchars c List.mem_cons_self with hc | rfl
    · rw [replaceRuns_cons_of_keep hc, hrest]
    · rw [replaceRuns_cons_of_not_keep hsep, if_neg Bool.false_ne_true, List.singleton_append,
        replaceRuns_flag fun d hd => (hhead d hd).resolve_left (by simp [hsep]), hrest]

theorem slug_of_isSlug (hsep : keep sep = false) (h : IsSlug keep sep cs) :
    slug keep sep cs = cs := by
  rw [slug, replaceRuns_of_isChain hsep h.chars h.single, Tokens.trim_of_trimmed h.trimmed]

theorem slug_within : slug keep sep cs <:+: replaceRuns keep [sep] false cs := by
  obtain ⟨a, b, -, -, hsplit⟩ :=
    Tokens.exists_eq_trim (fun c => decide (c = sep)) (replaceRuns keep [sep] false cs)
  refine ⟨a, b, ?_⟩
  rw [List.append_assoc]
  exact hsplit.symm

theorem isSlug_slug : IsSlug keep sep (slug keep sep cs) where
  chars := fun _ hc => (mem_replaceRuns (slug_within.subset hc)).imp_left And.left
  single := List.IsChain.infix isChain_replaceRuns.1 slug_within
  trimmed := Tokens.trimmed_trim _

theorem slug_eq_nil_iff (hsep : keep sep = false) :
    slug keep sep cs = [] ↔ ∀ c ∈ cs, keep c = false := by
  rw [slug, Tokens.trim_eq_nil_iff]
  constructor
  · intro h c hc
    by_contra hkeep
    rw [Bool.not_eq_false] at hkeep
    have heq := h c (mem_replaceRuns_of_keep hkeep hc)
    rw [decide_eq_true_eq.mp heq, hsep] at hkeep
    exact nomatch hkeep
  · intro h c hc
    rcases mem_replaceRuns hc with ⟨hkeep, hmem⟩ | rfl
    · rw [h c hmem] at hkeep
      exact nomatch hkeep
    · exact decide_eq_true rfl

theorem prefix_of_prefix_replaceRuns (hsep : keep sep = false) (hw : ∀ c ∈ w, keep c = true)
    (h : w <+: replaceRuns keep [sep] false cs) : w <+: cs := by
  induction cs generalizing w with
  | nil => exact h
  | cons c cs ih =>
    cases w with
    | nil => exact List.nil_prefix
    | cons d w =>
      cases hc : keep c with
      | true =>
        rw [replaceRuns_cons_of_keep hc, List.cons_prefix_cons] at h
        exact List.cons_prefix_cons.mpr
          ⟨h.1, ih (fun e he => hw e (List.mem_cons_of_mem _ he)) h.2⟩
      | false =>
        rw [replaceRuns_cons_of_not_keep hc, if_neg Bool.false_ne_true, List.singleton_append,
          List.cons_prefix_cons] at h
        have hd := hw d List.mem_cons_self
        rw [h.1, hsep] at hd
        exact nomatch hd

theorem infix_of_infix_replaceRuns (hsep : keep sep = false) (hw : ∀ c ∈ w, keep c = true)
    (hne : w ≠ []) (h : w <:+: replaceRuns keep [sep] b cs) : w <:+: cs := by
  induction cs generalizing b with
  | nil => exact h
  | cons c cs ih =>
    cases hc : keep c with
    | true =>
      rw [replaceRuns_cons_of_keep hc, List.infix_cons_iff] at h
      rcases h with hpre | hwithin
      · rw [← replaceRuns_cons_of_keep hc (b := false)] at hpre
        exact (prefix_of_prefix_replaceRuns hsep hw hpre).isInfix
      · exact (ih hwithin).trans (List.suffix_cons c cs).isInfix
    | false =>
      rw [replaceRuns_cons_of_not_keep hc] at h
      cases b with
      | true => exact (ih h).trans (List.suffix_cons c cs).isInfix
      | false =>
        rw [if_neg Bool.false_ne_true, List.singleton_append, List.infix_cons_iff] at h
        rcases h with hpre | hwithin
        · obtain ⟨d, w, rfl⟩ := List.exists_cons_of_ne_nil hne
          have hd := hw d List.mem_cons_self
          rw [(List.cons_prefix_cons.mp hpre).1, hsep] at hd
          exact nomatch hd
        · exact (ih hwithin).trans (List.suffix_cons c cs).isInfix

theorem infix_of_infix_slug (hsep : keep sep = false) (hw : ∀ c ∈ w, keep c = true)
    (hne : w ≠ []) (h : w <:+: slug keep sep cs) : w <:+: cs :=
  infix_of_infix_replaceRuns hsep hw hne (h.trans slug_within)

end Slug
end Framework
