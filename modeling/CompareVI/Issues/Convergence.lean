import CompareVI.Issues.Router
import Mathlib.Data.String.Basic

/-!
# Where issue routing converges

An applied run on a route should leave one issue of the fingerprint open, with the desired
content, leave the issues of other fingerprints alone, and find nothing to do when it is
made again (`Converges`).

Two pieces of the router work against that. The search takes a fingerprint for another one
that it begins, so the canonical issue may be that of another fingerprint. And the body
holds the instant of the run, so a later run finds it out of date. `converges_iff` says
exactly where the three parts hold (`ConvergesWhen`).

The proof reads a run as the replacement of one issue (`Replaces`): the canonical issue by
its final form (`applyRoute_canonical`), or a number that is not taken by the created issue
(`applyRoute_created`). In both cases the issue is the canonical one afterwards
(`canonicalIssue_replaced`), so that the second run is about it again.
-/

open Framework

namespace CompareVI.IssueRouter

/-! ### The law -/

/-- A text that an event can have as its fingerprint. -/
def IsFingerprint (text : String) : Prop := JsString.trim text = text ∧ text ≠ ""

/-- The body of the issue holds the marker comment of the fingerprint. -/
def Carries (issue : Issue) (fingerprint : String) : Prop :=
  Tracker.containsText issue.body (markerComment fingerprint) = true

/-- The issue carries the marker of another fingerprint. -/
def CarriesOther (issue : Issue) (fingerprint : String) : Prop :=
  ∃ other, IsFingerprint other ∧ other ≠ fingerprint ∧ Carries issue other

/-- The issue has the desired title, body and set of labels. -/
def HasContent (content : Content) (issue : Issue) : Prop :=
  issue.title = content.title ∧ issue.body = content.body ∧
    ∀ label, label ∈ issue.labels ↔ label ∈ content.labels

/-- The decision asks to open or to update an issue, and the run applies it. -/
structure Applies (collation : Comparison String) (i : RouterInput) (route : Route) : Prop where
  routed : routeOf collation i = .ok route
  type : route.decision.type = .openIssue ∨ route.decision.type = .updateIssue
  dryRun : i.dryRun = false

section Law

variable (collation : Comparison String) (i : RouterInput) (route : Route) (later : String)
  (gh : Tracker)

def trackerAfter : Tracker := (runIssueRouter collation i gh).2

def rerunReport : RouterReport :=
  (runIssueRouter collation { i with generated := later } (trackerAfter collation i gh)).1

/-- What a run on a route should lead to. -/
structure Converges : Prop where
  /-- Of the fingerprint exactly the canonical issue is open, with the desired content. -/
  canonical : ∃ issue ∈ (trackerAfter collation i gh).issues,
    (runIssueRouter collation i gh).1.issueNumber = some issue.number ∧
    (canonicalIssue collation (trackerAfter collation i gh) route.marker).map (·.number) =
      some issue.number ∧
    issue.isOpen = true ∧ HasContent (route.desired i.generated) issue ∧
    ∀ other ∈ (trackerAfter collation i gh).issues, other.number ≠ issue.number →
      Carries other route.fingerprint → other.isOpen = false
  /-- Issues that carry the marker of another fingerprint stay as they are. -/
  others : ∀ issue ∈ gh.issues, CarriesOther issue route.fingerprint →
    issue ∈ (trackerAfter collation i gh).issues
  /-- The run made again at the later instant writes nothing. -/
  again : (rerunReport collation i later gh).writeActions = [] ∧
    (rerunReport collation i later gh).noOp = true

/-- Where a run converges. The first part is about the canonical issue, if there is one:
what the router does not rewrite has the desired content already, what it does rewrite or
reopen carries no other fingerprint's marker, and no other issue of the fingerprint is
open. The second is that the later instant is the one of the run. -/
structure ConvergesWhen : Prop where
  canonical : ∀ issue ∈ gh.issues,
    canonicalIssue collation gh route.marker = some (normalizeIssue collation issue) →
    (needsIssuePatch (normalizeIssue collation issue) (route.desired i.generated) = true ∨
      HasContent (route.desired i.generated) issue) ∧
    ((issue.isOpen = false ∨
        needsIssuePatch (normalizeIssue collation issue) (route.desired i.generated) = true) →
      ¬ CarriesOther issue route.fingerprint) ∧
    ∀ other ∈ gh.issues, other.number ≠ issue.number → Carries other route.fingerprint →
      other.isOpen = false
  instant : later = i.generated

end Law

/-! ### Texts -/

theorem join_concat (separator : String) {xs : List String} (h : xs ≠ []) (y : String) :
    JsString.join separator (xs ++ [y]) = JsString.join separator xs ++ separator ++ y := by
  induction xs with
  | nil => exact absurd rfl h
  | cons x xs ih =>
    cases xs with
    | nil => rfl
    | cons x' xs =>
      have ih := ih (List.cons_ne_nil _ _)
      rw [List.cons_append, List.cons_append, JsString.join, ← List.cons_append, ih]
      · simp only [JsString.join, String.append_assoc]
      · exact List.cons_ne_nil _ _

variable {collation : Comparison String} {route : Route} {gh gh' : Tracker}

theorem body_eq_head (route : Route) :
    ∃ front rest, front.toList.head? = some '#' ∧
      ∀ generated, route.body generated = front ++ (generated ++ rest) := by
  refine ⟨"## Routed Incident" ++ "\n" ++ ("" ++ "\n" ++ "Generated: "), "\n" ++ JsString.join "\n"
    (bodyLines route.event route.decision route.ruleId route.reportPath route.fingerprint ++
      [markerComment route.fingerprint]), rfl, fun generated => ?_⟩
  rw [Route.body, bodyLines]
  simp only [List.cons_append, List.nil_append, JsString.join, String.append_assoc]

theorem body_eq_tail (route : Route) (generated : String) :
    ∃ front, route.body generated = front ++ markerComment route.fingerprint := by
  refine ⟨JsString.join "\n" (["## Routed Incident", "", "Generated: " ++ generated] ++
    bodyLines route.event route.decision route.ruleId route.reportPath route.fingerprint) ++ "\n",
    ?_⟩
  rw [Route.body, ← List.append_assoc, join_concat _ (by simp)]

theorem body_inj {generated later : String} (h : route.body later = route.body generated) :
    later = generated := by
  obtain ⟨front, rest, -, hbody⟩ := body_eq_head route
  rw [hbody, hbody] at h
  have hlist := congrArg String.toList h
  rw [String.toList_append, String.toList_append, String.toList_append,
    String.toList_append] at hlist
  exact String.toList_inj.mp (List.append_cancel_right (List.append_cancel_left hlist))

theorem trim_body (route : Route) (generated : String) :
    JsString.trim (route.body generated) = route.body generated := by
  obtain ⟨front, rest, hhead, hbody⟩ := body_eq_head route
  obtain ⟨init, htail⟩ := body_eq_tail route generated
  have htrimmed : JsString.Trimmed (route.body generated).toList := by
    constructor
    · intro c hc
      rw [hbody, String.toList_append, List.head?_append, hhead] at hc
      obtain rfl := Option.some.inj hc
      decide
    · intro c hc
      rw [htail, markerComment, String.toList_append, String.toList_append,
        List.getLast?_append, List.getLast?_append] at hc
      obtain rfl := Option.some.inj hc
      decide
  rw [JsString.trim, JsString.trimList_of_trimmed htrimmed, String.ofList_toList]

variable {issue : Issue}

theorem containsText_of_carries (h : Carries issue route.fingerprint) :
    Tracker.containsText issue.body route.marker = true := by
  refine decide_eq_true (List.IsInfix.trans ?_ (of_decide_eq_true h))
  refine ⟨"<!-- ".toList, " -->".toList, ?_⟩
  rw [markerComment, String.toList_append, String.toList_append]
  rfl

theorem containsText_body (route : Route) (generated : String) :
    Tracker.containsText (route.body generated) route.marker = true := by
  obtain ⟨init, htail⟩ := body_eq_tail route generated
  refine decide_eq_true ⟨init.toList ++ "<!-- ".toList, " -->".toList, ?_⟩
  rw [htail, markerComment, String.toList_append, String.toList_append, String.toList_append,
    List.append_assoc, List.append_assoc, List.append_assoc]
  rfl

/-! ### Labels -/

theorem normalizeLower_idem {value label : String} (h : normalizeLower (some value) = some label) :
    normalizeLower (some label) = some label := by
  obtain ⟨text, htext, rfl⟩ := Option.map_eq_some_iff.mp h
  obtain ⟨raw, hraw, htrim⟩ := optionText_eq_some_iff.mp htext
  rw [normalizeLower, optionText, Option.bind_some, optionalTrim_toLowerCase htrim,
    Option.map_some, JsString.toLowerCase_toLowerCase]

@[simp] theorem normalizeLabels_idem (collation : Comparison String) (values : List String) :
    normalizeLabels collation (normalizeLabels collation values) =
      normalizeLabels collation values := by
  have hself : ∀ label ∈ normalizeLabels collation values,
      normalizeLower (some label) = some label := by
    intro label hlabel
    obtain ⟨value, -, hvalue⟩ :=
      List.mem_filterMap.mp (List.mem_eraseDups.mp (collation.mem_sort.mp hlabel))
    exact normalizeLower_idem hvalue
  have hkept : (normalizeLabels collation values).filterMap
      (fun value => normalizeLower (some value)) = normalizeLabels collation values :=
    (List.filterMap_congr hself).trans List.filterMap_some
  have hnodup : (normalizeLabels collation values).Nodup :=
    (collation.sort_perm _).nodup_iff.mpr (Tokens.nodup_eraseDups _)
  rw [normalizeLabels, hkept, Tokens.eraseDups_of_nodup hnodup]
  exact collation.sort_sort _

@[simp] theorem normalizeIssue_number (issue : Issue) :
    (normalizeIssue collation issue).number = issue.number := by
  rw [normalizeIssue]

@[simp] theorem canonicalKey_normalizeIssue (issue : Issue) :
    canonicalKey (normalizeIssue collation issue) = canonicalKey issue := by
  rw [canonicalKey, normalizeIssue, canonicalKey]

theorem number_of_normalizeIssue_eq {a b : Issue}
    (h : normalizeIssue collation a = normalizeIssue collation b) : a.number = b.number := by
  rw [normalizeIssue, normalizeIssue, Issue.mk.injEq] at h
  exact h.1

theorem not_needsIssuePatch_of_eq {values : List String} {generated : String}
    (hlabels : route.labels = normalizeLabels collation values)
    (htitle : issue.title = (route.desired generated).title)
    (hbody : issue.body = (route.desired generated).body)
    (hissue : issue.labels = (route.desired generated).labels) :
    needsIssuePatch (normalizeIssue collation issue) (route.desired generated) = false := by
  have htitle' : JsString.trim issue.title = (route.desired generated).title := by
    rw [htitle]
    exact JsString.trim_trim _
  have hbody' : JsString.trim issue.body = (route.desired generated).body := by
    rw [hbody]
    exact trim_body _ _
  have hlabels' : normalizeLabels collation issue.labels = (route.desired generated).labels := by
    rw [hissue]
    change normalizeLabels collation route.labels = route.labels
    rw [hlabels, normalizeLabels_idem]
  simp [needsIssuePatch, normalizeIssue, htitle', hbody', hlabels']

/-! ### The tracker -/

theorem Tracker.find_eq_some (h : issue ∈ gh.issues) :
    gh.find issue.number = some issue := by
  cases hfind : gh.find issue.number with
  | none => simpa using List.find?_eq_none.mp hfind issue h
  | some found =>
    have hnumber : found.number = issue.number := by simpa using List.find?_some hfind
    rw [List.inj_on_of_nodup_map gh.nodup (List.mem_of_find?_eq_some hfind) h hnumber]

theorem Tracker.eq_of_number {a b : Issue} (ha : a ∈ gh.issues) (hb : b ∈ gh.issues)
    (h : a.number = b.number) : a = b :=
  List.inj_on_of_nodup_map gh.nodup ha hb h

/-- The tracker `gh'` holds the issue in place of the one of its number. -/
def Replaces (gh gh' : Tracker) (issue : Issue) : Prop :=
  ∀ other, other ∈ gh'.issues ↔ (other ∈ gh.issues ∧ other.number ≠ issue.number) ∨ other = issue

theorem Replaces.refl (h : issue ∈ gh.issues) : Replaces gh gh issue := by
  intro other
  constructor
  · intro hother
    by_cases hnumber : other.number = issue.number
    · exact .inr (Tracker.eq_of_number hother h hnumber)
    · exact .inl ⟨hother, hnumber⟩
  · rintro (⟨hother, -⟩ | rfl)
    · exact hother
    · exact h

theorem Replaces.mem (h : Replaces gh gh' issue) : issue ∈ gh'.issues :=
  (h issue).mpr (.inr rfl)

theorem replaces_create (gh : Tracker) (content : Content) (createdAt : ℤ) :
    Replaces gh (gh.create content createdAt) (gh.created content createdAt) := by
  intro other
  rw [Tracker.create, List.mem_append, List.mem_singleton]
  constructor
  · rintro (h | rfl)
    · exact .inl ⟨h, Nat.ne_of_lt (gh.number_lt_nextNumber h)⟩
    · exact .inr rfl
  · exact fun h => h.imp_left And.left

theorem replaces_patched (h : issue ∈ gh.issues) (p : Patch) :
    Replaces gh (gh.patched issue.number p) (p.apply issue) := by
  intro other
  rw [Tracker.patched, List.mem_map, p.apply_number]
  constructor
  · rintro ⟨before, hbefore, rfl⟩
    by_cases hnumber : before.number = issue.number
    · rw [if_pos hnumber, Tracker.eq_of_number hbefore h hnumber]
      exact .inr rfl
    · rw [if_neg hnumber]
      exact .inl ⟨hbefore, hnumber⟩
  · rintro (⟨hother, hnumber⟩ | rfl)
    · exact ⟨other, hother, if_neg hnumber⟩
    · exact ⟨issue, h, if_pos rfl⟩

theorem Replaces.trans {gh'' : Tracker} {issue' : Issue} (h : Replaces gh gh' issue)
    (h' : Replaces gh' gh'' issue') (hnumber : issue'.number = issue.number) :
    Replaces gh gh'' issue' := by
  intro other
  rw [h' other, h other, hnumber]
  constructor
  · rintro (⟨⟨hother, hne⟩ | rfl, hne'⟩ | rfl)
    · exact .inl ⟨hother, hne⟩
    · exact absurd rfl hne'
    · exact .inr rfl
  · rintro (⟨hother, hne⟩ | rfl)
    · exact .inl ⟨.inl ⟨hother, hne⟩, hne⟩
    · exact .inr rfl

theorem send_eq (h : issue ∈ gh.issues) (writeActions : List WriteAction) (p : Patch)
    (action : WriteAction) :
    Applied.send collation ⟨normalizeIssue collation issue, writeActions, gh⟩ p action =
      .ok ⟨normalizeIssue collation (p.apply issue), writeActions ++ [action],
        gh.patched issue.number p⟩ := by
  have hfind : gh.find (normalizeIssue collation issue).number = some issue :=
    Tracker.find_eq_some h
  rw [Applied.send, Tracker.patch]
  simp only [hfind]
  rfl

/-! ### The canonical issue -/

section Canonical

variable {marker : String}

/-- The issues that a search finds. -/
def Marked (gh : Tracker) (marker : String) (issue : Issue) : Prop :=
  issue ∈ gh.issues ∧ Tracker.containsText issue.body marker = true

theorem mem_candidateIssues {candidate : Issue} :
    candidate ∈ candidateIssues collation gh marker ↔
      ∃ issue, Marked gh marker issue ∧ candidate = normalizeIssue collation issue := by
  simp only [candidateIssues, searchIssueNumbersByMarker, List.mem_filterMap, Comparison.mem_sort,
    List.mem_eraseDups, List.mem_map, List.mem_filter, Option.map_eq_some_iff]
  constructor
  · rintro ⟨_, ⟨issue, hissue, rfl⟩, found, hfound, rfl⟩
    rw [Tracker.find_eq_some hissue.1, Option.some.injEq] at hfound
    exact ⟨issue, hissue, by rw [hfound]⟩
  · rintro ⟨issue, hissue, rfl⟩
    exact ⟨issue.number, ⟨issue, hissue, rfl⟩, issue, Tracker.find_eq_some hissue.1, rfl⟩

theorem eq_of_canonicalKey {a b : Issue} (ha : a ∈ gh.issues) (hb : b ∈ gh.issues)
    (h : canonicalKey a = canonicalKey b) : a = b := by
  simp only [canonicalKey, toLex_inj, Prod.mk.injEq] at h
  exact Tracker.eq_of_number ha hb h.2.2

/-- The issue is chosen before the other one. -/
def Precedes (issue other : Issue) : Prop := (Comparison.ofKey canonicalKey).le issue other = true

theorem canonicalIssue_eq_some_iff {candidate : Issue} :
    canonicalIssue collation gh marker = some candidate ↔
      ∃ issue, Marked gh marker issue ∧ candidate = normalizeIssue collation issue ∧
        ∀ other, Marked gh marker other → Precedes issue other := by
  rw [canonicalIssue, selectCanonicalIssue, Comparison.head?_sort_eq_some_iff]
  · simp only [mem_candidateIssues, Comparison.ofKey_le, Precedes]
    constructor
    · rintro ⟨⟨issue, hissue, rfl⟩, hleast⟩
      refine ⟨issue, hissue, rfl, fun other hother => ?_⟩
      have hle := hleast (normalizeIssue collation other) ⟨other, hother, rfl⟩
      rwa [canonicalKey_normalizeIssue, canonicalKey_normalizeIssue] at hle
    · rintro ⟨issue, hissue, rfl, hleast⟩
      refine ⟨⟨issue, hissue, rfl⟩, ?_⟩
      rintro _ ⟨other, hother, rfl⟩
      rw [canonicalKey_normalizeIssue, canonicalKey_normalizeIssue]
      exact hleast other hother
  · intro a ha b hb hab hba
    obtain ⟨issue, hissue, rfl⟩ := mem_candidateIssues.mp ha
    obtain ⟨issue', hissue', rfl⟩ := mem_candidateIssues.mp hb
    rw [Comparison.ofKey_le, canonicalKey_normalizeIssue, canonicalKey_normalizeIssue] at hab hba
    have hkey : canonicalKey issue = canonicalKey issue' := le_antisymm hab hba
    rw [eq_of_canonicalKey hissue.1 hissue'.1 hkey]

theorem not_marked_of_none (h : canonicalIssue collation gh marker = none) (issue : Issue) :
    ¬ Marked gh marker issue := by
  intro hissue
  have hcandidate : normalizeIssue collation issue ∈ candidateIssues collation gh marker :=
    mem_candidateIssues.mpr ⟨issue, hissue, rfl⟩
  have hnil : (Comparison.ofKey canonicalKey).sort (candidateIssues collation gh marker) = [] :=
    List.head?_eq_none_iff.mp h
  have hmem := (Comparison.ofKey canonicalKey).mem_sort.mpr hcandidate
  rw [hnil] at hmem
  cases hmem

/-- An open issue that replaces the canonical one, or comes where none was, is the
canonical one. -/
theorem canonicalIssue_replaced {issue : Issue} (h : Replaces gh gh' issue)
    (hopen : issue.isOpen = true) (hmarked : Tracker.containsText issue.body marker = true)
    (hleast : ∀ other, Marked gh marker other → other.number ≠ issue.number →
      Precedes issue other) :
    canonicalIssue collation gh' marker = some (normalizeIssue collation issue) := by
  refine canonicalIssue_eq_some_iff.mpr ⟨issue, ⟨h.mem, hmarked⟩, rfl, ?_⟩
  intro other hother
  rcases (h other).mp hother.1 with ⟨hbefore, hnumber⟩ | rfl
  · exact hleast other ⟨hbefore, hother.2⟩ hnumber
  · exact (Comparison.ofKey_le _ _ _).mpr (le_refl _)

theorem precedes_of_open {issue issue' : Issue} (hopen : issue'.isOpen = true)
    (hcreated : issue'.createdAt = issue.createdAt) (hnumber : issue'.number = issue.number) :
    Precedes issue' issue := by
  rw [Precedes, Comparison.ofKey_le, canonicalKey, canonicalKey, hopen, hcreated, hnumber,
    if_pos rfl]
  split
  · exact le_refl _
  · refine Prod.Lex.toLex_le_toLex.mpr (.inl ?_)
    exact Nat.zero_lt_one

end Canonical

/-! ### The run -/

section Run

variable {i : RouterInput}

def finalIssue (collation : Comparison String) (desired : Content) (issue : Issue) : Issue :=
  if needsIssuePatch (normalizeIssue collation (Patch.reopen.apply issue)) desired then
    (Patch.update desired).apply (Patch.reopen.apply issue)
  else Patch.reopen.apply issue

theorem finalIssue_isOpen (desired : Content) (issue : Issue) :
    (finalIssue collation desired issue).isOpen = true := by
  unfold finalIssue
  split <;> rfl

theorem finalIssue_number (desired : Content) (issue : Issue) :
    (finalIssue collation desired issue).number = issue.number := by
  unfold finalIssue
  split <;> rfl

theorem finalIssue_createdAt (desired : Content) (issue : Issue) :
    (finalIssue collation desired issue).createdAt = issue.createdAt := by
  unfold finalIssue
  split <;> rfl

theorem needsIssuePatch_reopen (desired : Content) (issue : Issue) :
    needsIssuePatch (normalizeIssue collation (Patch.reopen.apply issue)) desired =
      needsIssuePatch (normalizeIssue collation issue) desired := by
  rw [needsIssuePatch, needsIssuePatch]
  rfl

/-- The outcome of an applied run: about which issue it is, what it is replaced by and
whether something is written. -/
structure RunsTo (gh : Tracker) (applied : Applied) (issue : Issue) (silent : Prop) : Prop where
  number : applied.activeIssue.number = issue.number
  replaces : Replaces gh applied.gh issue
  silent : applied.writeActions = [] ↔ silent

variable {issue : Issue} {values : List String} {generated : String}

theorem reopen_runsTo (h : issue ∈ gh.issues) :
    ∃ applied, (if issue.isOpen then pure ⟨normalizeIssue collation issue, [], gh⟩
        else Applied.send collation ⟨normalizeIssue collation issue, [], gh⟩ .reopen .reopen) =
          Except.ok applied ∧
      applied.activeIssue = normalizeIssue collation (Patch.reopen.apply issue) ∧
      Replaces gh applied.gh (Patch.reopen.apply issue) ∧
      (applied.writeActions = [] ↔ issue.isOpen = true) := by
  by_cases hopen : issue.isOpen = true
  · have hself : Patch.reopen.apply issue = issue := by
      rw [Patch.apply, ← hopen]
    rw [if_pos hopen, hself]
    exact ⟨_, rfl, rfl, .refl h, iff_of_true rfl hopen⟩
  · rw [if_neg hopen, send_eq h]
    refine ⟨_, rfl, rfl, replaces_patched h _, iff_of_false ?_ hopen⟩
    exact List.cons_ne_nil _ _

theorem update_runsTo (h : issue ∈ gh.issues) (desired : Content)
    (writeActions : List WriteAction) :
    ∃ applied,
      (if needsIssuePatch (normalizeIssue collation issue) desired then
        Applied.send collation ⟨normalizeIssue collation issue, writeActions, gh⟩
          (.update desired) .update
      else pure ⟨normalizeIssue collation issue, writeActions, gh⟩) = .ok applied ∧
      RunsTo gh applied
        (if needsIssuePatch (normalizeIssue collation issue) desired then
          (Patch.update desired).apply issue else issue)
        (writeActions = [] ∧
          needsIssuePatch (normalizeIssue collation issue) desired = false) := by
  by_cases hneeds : needsIssuePatch (normalizeIssue collation issue) desired = true
  · rw [if_pos hneeds, if_pos hneeds, send_eq h]
    refine ⟨_, rfl, rfl, replaces_patched h _, iff_of_false ?_ ?_⟩
    · exact List.append_ne_nil_of_right_ne_nil _ (List.cons_ne_nil _ _)
    · rintro ⟨-, hnot⟩
      exact Bool.false_ne_true (hnot.symm.trans hneeds)
  · rw [if_neg hneeds, if_neg hneeds]
    refine ⟨_, rfl, rfl, .refl h, ?_⟩
    exact ⟨fun hnil => ⟨hnil, Bool.eq_false_iff.mpr hneeds⟩, And.left⟩

theorem applyRoute_of_reopened {active : Issue} {reopened : Applied}
    (hcanonical : canonicalIssue collation gh route.marker = some active)
    (hreopen : (if active.isOpen then pure ⟨active, [], gh⟩
      else Applied.send collation ⟨active, [], gh⟩ .reopen .reopen) = Except.ok reopened) :
    applyRoute collation route i gh =
      if needsIssuePatch reopened.activeIssue (route.desired i.generated) then
        reopened.send collation (.update (route.desired i.generated)) .update
      else pure reopened := by
  unfold applyRoute
  rw [hcanonical]
  generalize route.desired i.generated = desired
  by_cases hopen : active.isOpen = true
  · rw [if_pos hopen] at hreopen ⊢
    rw [hreopen]
    rfl
  · rw [if_neg hopen] at hreopen ⊢
    rw [hreopen]
    rfl

theorem applyRoute_canonical (h : issue ∈ gh.issues)
    (hcanonical : canonicalIssue collation gh route.marker =
      some (normalizeIssue collation issue)) :
    ∃ applied, applyRoute collation route i gh = .ok applied ∧
      RunsTo gh applied (finalIssue collation (route.desired i.generated) issue)
        (issue.isOpen = true ∧
          needsIssuePatch (normalizeIssue collation issue) (route.desired i.generated) =
            false) := by
  obtain ⟨reopened, hreopen, hactive, hreplaces, hsilent⟩ :=
    reopen_runsTo h
  rw [applyRoute_of_reopened hcanonical hreopen]
  generalize route.desired i.generated = desired
  obtain ⟨active, reopenActions, gh'⟩ := reopened
  subst hactive
  obtain ⟨applied, hupdate, hruns⟩ := update_runsTo hreplaces.mem desired reopenActions
  have hnumber : (finalIssue collation desired issue).number =
      (Patch.reopen.apply issue).number :=
    (finalIssue_number desired issue).trans (Patch.reopen.apply_number issue).symm
  refine ⟨applied, hupdate, hruns.number, hreplaces.trans hruns.replaces hnumber, ?_⟩
  rw [hruns.silent, hsilent, needsIssuePatch_reopen]

theorem applyRoute_eq_created (hlabels : route.labels = normalizeLabels collation values)
    (hcanonical : canonicalIssue collation gh route.marker = none) :
    applyRoute collation route i gh =
      .ok ⟨normalizeIssue collation (gh.created (route.desired i.generated) i.createdAt), [.create],
        gh.create (route.desired i.generated) i.createdAt⟩ := by
  have hneeds : needsIssuePatch
      (normalizeIssue collation (gh.created (route.desired i.generated) i.createdAt))
      (route.desired i.generated) = false :=
    not_needsIssuePatch_of_eq hlabels rfl rfl rfl
  unfold applyRoute
  rw [hcanonical]
  generalize route.desired i.generated = desired at hneeds ⊢
  have hopen : (normalizeIssue collation (gh.created desired i.createdAt)).isOpen = true := by
    rw [normalizeIssue, Tracker.created]
  dsimp only
  generalize normalizeIssue collation (gh.created desired i.createdAt) = active at hneeds hopen ⊢
  rw [if_pos hopen]
  exact if_neg (Bool.eq_false_iff.mp hneeds)

theorem applyRoute_created (hlabels : route.labels = normalizeLabels collation values)
    (hcanonical : canonicalIssue collation gh route.marker = none) :
    ∃ applied, applyRoute collation route i gh = .ok applied ∧
      RunsTo gh applied (gh.created (route.desired i.generated) i.createdAt) False :=
  ⟨_, applyRoute_eq_created hlabels hcanonical, normalizeIssue_number _, replaces_create _ _ _,
    iff_of_false (List.cons_ne_nil _ _) not_false⟩

/-- A run leaves the issue in place of the one of its number: open, canonical and with
nothing to patch. -/
structure Settles (collation : Comparison String) (route : Route) (generated : String)
    (gh gh' : Tracker) (issue : Issue) : Prop where
  replaces : Replaces gh gh' issue
  isOpen : issue.isOpen = true
  canonical : canonicalIssue collation gh' route.marker = some (normalizeIssue collation issue)
  noPatch : needsIssuePatch (normalizeIssue collation issue) (route.desired generated) = false

theorem settles_created {createdAt : ℤ}
    (hlabels : route.labels = normalizeLabels collation values)
    (hcanonical : canonicalIssue collation gh route.marker = none)
    (hreplaces : Replaces gh gh' (gh.created (route.desired generated) createdAt)) :
    Settles collation route generated gh gh'
      (gh.created (route.desired generated) createdAt) where
  replaces := hreplaces
  isOpen := rfl
  canonical := canonicalIssue_replaced hreplaces rfl (containsText_body route generated)
    fun other hother _ => absurd hother (not_marked_of_none hcanonical other)
  noPatch := not_needsIssuePatch_of_eq hlabels rfl rfl rfl

variable {applied : Applied} {desired : Content}

theorem finalIssue_of_needs (h : needsIssuePatch (normalizeIssue collation issue) desired = true) :
    finalIssue collation desired issue =
      (Patch.update desired).apply (Patch.reopen.apply issue) := by
  rw [finalIssue, needsIssuePatch_reopen, if_pos h]

theorem finalIssue_of_not_needs
    (h : needsIssuePatch (normalizeIssue collation issue) desired = false) :
    finalIssue collation desired issue = Patch.reopen.apply issue := by
  rw [finalIssue, needsIssuePatch_reopen, if_neg (Bool.eq_false_iff.mp h)]

theorem settles_canonical (hlabels : route.labels = normalizeLabels collation values)
    (h : issue ∈ gh.issues) (hcanonical : canonicalIssue collation gh route.marker =
      some (normalizeIssue collation issue))
    (hreplaces : Replaces gh gh' (finalIssue collation (route.desired generated) issue)) :
    Settles collation route generated gh gh'
      (finalIssue collation (route.desired generated) issue) := by
  obtain ⟨marked, hmarked, hcandidate, hleast⟩ := canonicalIssue_eq_some_iff.mp hcanonical
  obtain rfl := Tracker.eq_of_number h hmarked.1 (number_of_normalizeIssue_eq hcandidate)
  have hkey : Precedes (finalIssue collation (route.desired generated) issue) issue :=
    precedes_of_open (finalIssue_isOpen _ _) (finalIssue_createdAt _ _) (finalIssue_number _ _)
  have htext : Tracker.containsText
      (finalIssue collation (route.desired generated) issue).body route.marker = true := by
    cases hneeds : needsIssuePatch (normalizeIssue collation issue) (route.desired generated) with
    | true =>
      rw [finalIssue_of_needs hneeds]
      exact containsText_body route generated
    | false =>
      rw [finalIssue_of_not_needs hneeds]
      exact hmarked.2
  refine ⟨hreplaces, finalIssue_isOpen _ _, ?_, ?_⟩
  · exact canonicalIssue_replaced hreplaces (finalIssue_isOpen _ _) htext
      fun other hother _ =>
        (Comparison.ofKey canonicalKey).trans _ _ _ hkey (hleast other hother)
  · cases hneeds : needsIssuePatch (normalizeIssue collation issue) (route.desired generated) with
    | true =>
      rw [finalIssue_of_needs hneeds]
      exact not_needsIssuePatch_of_eq hlabels rfl rfl rfl
    | false =>
      rw [finalIssue_of_not_needs hneeds, needsIssuePatch_reopen]
      exact hneeds

theorem not_needsIssuePatch_later_iff {later : String}
    (h : needsIssuePatch issue (route.desired generated) = false) :
    needsIssuePatch issue (route.desired later) = false ↔ later = generated := by
  constructor
  · intro hlater
    have hbody : ∀ instant, needsIssuePatch issue (route.desired instant) = false →
        issue.body = route.body instant := by
      intro instant hinstant
      rw [needsIssuePatch, Bool.or_eq_false_iff, Bool.or_eq_false_iff] at hinstant
      exact not_not.mp (decide_eq_false_iff_not.mp hinstant.1.2)
    exact body_inj ((hbody later hlater).symm.trans (hbody generated h))
  · rintro rfl
    exact h

theorem labels_of_routeOf (hroute : routeOf collation i = .ok route) :
    route.labels =
      normalizeLabels collation (route.decision.labels ++ route.event.suggestedLabels) := by
  unfold routeOf at hroute
  dsimp only at hroute
  split at hroute
  · cases hroute
  · cases hdecision : normalizeDecision collation (Json.path i.decisionPayload ["decision"]) with
    | error message =>
      rw [hdecision] at hroute
      cases hroute
    | ok decision =>
      rw [hdecision, Except.map] at hroute
      rw [← Except.ok.inj hroute]

theorem Applies.labels (h : Applies collation i route) :
    route.labels =
      normalizeLabels collation (route.decision.labels ++ route.event.suggestedLabels) :=
  labels_of_routeOf h.routed

theorem routeOf_later (i : RouterInput) (later : String) :
    routeOf collation { i with generated := later } = routeOf collation i := by
  rw [routeOf, routeOf]

theorem Applies.later (h : Applies collation i route) (later : String) :
    Applies collation { i with generated := later } route where
  routed := (routeOf_later i later).trans h.routed
  type := h.type
  dryRun := h.dryRun

theorem Applies.run_eq (h : Applies collation i route)
    (happlied : applyRoute collation route i gh = .ok applied) :
    runIssueRouter collation i gh =
      (appliedReport (canonicalIssue collation gh route.marker) applied, applied.gh) := by
  have htype : ¬ (route.decision.type = .noop ∨ route.decision.type = .pauseQueue) := by
    rcases h.type with htype | htype <;> simp [htype]
  have hcomment : ¬ route.decision.type = .comment := by
    rcases h.type with htype | htype <;> simp [htype]
  unfold runIssueRouter
  rw [h.routed]
  dsimp only
  rw [if_neg htype, if_neg (Bool.eq_false_iff.mp h.dryRun), if_neg hcomment, happlied]

theorem Applies.run_settles (h : Applies collation i route) {silent : Prop}
    (happlied : applyRoute collation route i gh = .ok applied)
    (hruns : RunsTo gh applied issue silent) :
    (runIssueRouter collation i gh).1.issueNumber = some issue.number ∧
      trackerAfter collation i gh = applied.gh := by
  rw [trackerAfter, h.run_eq happlied]
  exact ⟨congrArg some hruns.number, rfl⟩

theorem Applies.again_iff (h : Applies collation i route) (later : String)
    (hsettles : Settles collation route i.generated gh (trackerAfter collation i gh) issue) :
    ((rerunReport collation i later gh).writeActions = [] ∧
      (rerunReport collation i later gh).noOp = true) ↔ later = i.generated := by
  obtain ⟨applied, happlied, hruns⟩ :=
    applyRoute_canonical (i := { i with generated := later }) hsettles.replaces.mem
      hsettles.canonical
  rw [rerunReport, (h.later later).run_eq happlied]
  rw [← not_needsIssuePatch_later_iff hsettles.noPatch]
  have hsilent := hruns.silent
  constructor
  · rintro ⟨hwrites, -⟩
    exact (hsilent.mp hwrites).2
  · intro hneeds
    have hwrites := hsilent.mpr ⟨hsettles.isOpen, hneeds⟩
    refine ⟨hwrites, ?_⟩
    rw [appliedReport, hwrites]
    rfl

theorem canonical_iff (hsettles : Settles collation route generated gh gh' issue)
    {issueNumber : Option ℕ} (hreport : issueNumber = some issue.number) :
    (∃ kept ∈ gh'.issues, issueNumber = some kept.number ∧
      (canonicalIssue collation gh' route.marker).map (·.number) = some kept.number ∧
      kept.isOpen = true ∧ HasContent (route.desired generated) kept ∧
      ∀ other ∈ gh'.issues, other.number ≠ kept.number →
        Carries other route.fingerprint → other.isOpen = false) ↔
    HasContent (route.desired generated) issue ∧
      ∀ other ∈ gh.issues, other.number ≠ issue.number →
        Carries other route.fingerprint → other.isOpen = false := by
  constructor
  · rintro ⟨kept, hkept, hnumber, -, -, hcontent, hothers⟩
    have hsame : kept.number = issue.number := Option.some.inj (hnumber.symm.trans hreport)
    obtain rfl := Tracker.eq_of_number hkept hsettles.replaces.mem hsame
    refine ⟨hcontent, fun other hother hne => ?_⟩
    exact hothers other ((hsettles.replaces other).mpr (.inl ⟨hother, hne⟩)) hne
  · rintro ⟨hcontent, hothers⟩
    refine ⟨issue, hsettles.replaces.mem, hreport, ?_, hsettles.isOpen, hcontent, ?_⟩
    · rw [hsettles.canonical]
      rfl
    · intro other hother hne
      rcases (hsettles.replaces other).mp hother with ⟨hbefore, -⟩ | rfl
      · exact hothers other hbefore hne
      · exact absurd rfl hne

theorem others_iff (hreplaces : Replaces gh gh' issue) (fingerprint : String) :
    (∀ other ∈ gh.issues, CarriesOther other fingerprint → other ∈ gh'.issues) ↔
      ∀ other ∈ gh.issues, other.number = issue.number → CarriesOther other fingerprint →
        other = issue := by
  constructor
  · intro h other hother hnumber hcarries
    rcases (hreplaces other).mp (h other hother hcarries) with ⟨-, hne⟩ | rfl
    · exact absurd hnumber hne
    · rfl
  · intro h other hother hcarries
    refine (hreplaces other).mpr ?_
    by_cases hnumber : other.number = issue.number
    · exact .inr (h other hother hnumber hcarries)
    · exact .inl ⟨hother, hnumber⟩

theorem hasContent_finalIssue_iff (desired : Content) (issue : Issue) :
    HasContent desired (finalIssue collation desired issue) ↔
      needsIssuePatch (normalizeIssue collation issue) desired = true ∨
        HasContent desired issue := by
  cases hneeds : needsIssuePatch (normalizeIssue collation issue) desired with
  | true =>
    rw [finalIssue_of_needs hneeds]
    exact iff_of_true ⟨rfl, rfl, fun _ => Iff.rfl⟩ (.inl rfl)
  | false =>
    rw [finalIssue_of_not_needs hneeds]
    exact ⟨.inr, fun h => h.resolve_left Bool.false_ne_true⟩

theorem eq_finalIssue_iff (hsettles : Settles collation route generated gh gh'
      (finalIssue collation (route.desired generated) issue)) :
    issue = finalIssue collation (route.desired generated) issue ↔
      ¬ (issue.isOpen = false ∨
        needsIssuePatch (normalizeIssue collation issue) (route.desired generated) = true) := by
  constructor
  · intro hsame
    rintro (hclosed | hneeds)
    · have hopen := hsettles.isOpen
      rw [← hsame, hclosed] at hopen
      exact Bool.false_ne_true hopen
    · have hnoPatch := hsettles.noPatch
      rw [← hsame, hneeds] at hnoPatch
      exact Bool.false_ne_true hnoPatch.symm
  · intro h
    rw [not_or, Bool.not_eq_false, Bool.not_eq_true] at h
    rw [finalIssue_of_not_needs h.2, Patch.apply, ← h.1]

end Run

/-- A run converges exactly where the canonical issue is the fingerprint's own and the only
open one, and only at its own instant. -/
theorem converges_iff (collation : Comparison String) (i : RouterInput) (route : Route)
    (later : String) (gh : Tracker) (h : Applies collation i route) :
    Converges collation i route later gh ↔ ConvergesWhen collation i route later gh := by
  cases hcanonical : canonicalIssue collation gh route.marker with
  | none =>
    obtain ⟨applied, happlied, hruns⟩ := applyRoute_created (i := i) h.labels hcanonical
    obtain ⟨hreport, hafter⟩ := h.run_settles happlied hruns
    have hsettles := settles_created h.labels hcanonical hruns.replaces
    rw [← hafter] at hsettles
    have hfirst := (canonical_iff hsettles hreport).mpr
      ⟨⟨rfl, rfl, fun _ => Iff.rfl⟩, fun other hother _ hcarries =>
        absurd ⟨hother, containsText_of_carries hcarries⟩ (not_marked_of_none hcanonical other)⟩
    have hothers := (others_iff hsettles.replaces route.fingerprint).mpr
      fun other hother hnumber _ =>
        absurd hnumber (Nat.ne_of_lt (gh.number_lt_nextNumber hother))
    constructor
    · intro hconverges
      refine ⟨fun issue _ hsome => ?_, (h.again_iff later hsettles).mp hconverges.again⟩
      exact absurd (hcanonical.symm.trans hsome) (Option.some_ne_none _).symm
    · intro hwhen
      exact ⟨hfirst, hothers, (h.again_iff later hsettles).mpr hwhen.instant⟩
  | some candidate =>
    obtain ⟨issue, hmarked, rfl, -⟩ := canonicalIssue_eq_some_iff.mp hcanonical
    obtain ⟨applied, happlied, hruns⟩ := applyRoute_canonical (i := i) hmarked.1 hcanonical
    obtain ⟨hreport, hafter⟩ := h.run_settles happlied hruns
    have hsettles := settles_canonical h.labels hmarked.1 hcanonical hruns.replaces
    rw [← hafter] at hsettles
    have hnumber : (finalIssue collation (route.desired i.generated) issue).number =
        issue.number := finalIssue_number _ _
    constructor
    · intro hconverges
      obtain ⟨hcontent, hothers⟩ := (canonical_iff hsettles hreport).mp hconverges.canonical
      have hkept := (others_iff hsettles.replaces _).mp hconverges.others
      refine ⟨fun issue' hissue' hsome => ?_, (h.again_iff later hsettles).mp hconverges.again⟩
      have hread : normalizeIssue collation issue' = normalizeIssue collation issue :=
        Option.some.inj (hsome.symm.trans hcanonical)
      have hsame : issue'.number = issue.number := number_of_normalizeIssue_eq hread
      obtain rfl := Tracker.eq_of_number hissue' hmarked.1 hsame
      refine ⟨(hasContent_finalIssue_iff _ _).mp hcontent, fun hchanges hcarries => ?_, ?_⟩
      · exact (eq_finalIssue_iff hsettles).mp (hkept _ hissue' hnumber.symm hcarries) hchanges
      · rw [hnumber] at hothers
        exact hothers
    · intro hwhen
      obtain ⟨hcontent, hchanges, hothers⟩ := hwhen.canonical issue hmarked.1 hcanonical
      refine ⟨?_, ?_, (h.again_iff later hsettles).mpr hwhen.instant⟩
      · refine (canonical_iff hsettles hreport).mpr
          ⟨(hasContent_finalIssue_iff _ _).mpr hcontent, ?_⟩
        rw [hnumber]
        exact hothers
      · refine (others_iff hsettles.replaces _).mpr fun other hother hsame hcarries => ?_
        obtain rfl := Tracker.eq_of_number hother hmarked.1 (hsame.trans hnumber)
        exact (eq_finalIssue_iff hsettles).mpr fun hchanged => hchanges hchanged hcarries

/-! ### Two runs that do not converge -/

def byCharacters : Comparison String := .ofKey id

/-- A decision to open an issue for the fingerprint `abc`. -/
def abcInput : RouterInput where
  decisionPayload := some (.obj [
    ("decision", .obj [("type", .str "open-issue")]),
    ("event", .obj [("fingerprint", .str "abc")])])
  eventOverride := none
  reportPath := "report.json"
  dryRun := false
  generated := "2024-01-01T00:00:00.000Z"
  createdAt := 0

/-- The route of `abcInput`. -/
def abcRoute : Route where
  event :=
    { sourceType := "incident-event"
      incidentClass := "incident-unknown"
      severity := "medium"
      branch := none
      sha := none
      signature := "incident-unknown"
      fingerprint := some "abc"
      suggestedLabels := [] }
  decision :=
    { type := .openIssue
      priority := "P2"
      labels := []
      titlePrefix := "[Ops Signal]"
      reason := "unspecified" }
  fingerprint := "abc"
  ruleId := none
  reportPath := "report.json"
  labels := []

theorem routeOf_abcInput : routeOf byCharacters abcInput = .ok abcRoute := by decide +kernel

theorem applies_abcInput : Applies byCharacters abcInput abcRoute where
  routed := routeOf_abcInput
  type := .inl rfl
  dryRun := rfl

def emptyTracker : Tracker := ⟨[], List.nodup_nil, nofun⟩

/-- An issue of the fingerprint `abc1`. -/
def abc1Issue : Issue where
  number := 7
  isOpen := true
  title := "Other incident"
  body := "<!-- priority-fingerprint:abc1 -->"
  labels := []
  createdAt := some 0

theorem isFingerprint_abc1 : IsFingerprint "abc1" := ⟨by decide +kernel, by decide⟩

theorem carries_abc1Issue : Carries abc1Issue "abc1" :=
  decide_eq_true (by decide +kernel)

def abc1Tracker : Tracker where
  issues := [abc1Issue]
  nodup := List.nodup_singleton _
  positive := by decide

/-- An hour later the run on an empty tracker writes again, and the run on the fingerprint
`abc` rewrites the issue of the fingerprint `abc1`. -/
theorem not_converges_abc :
    Applies byCharacters abcInput abcRoute ∧
      ¬ Converges byCharacters abcInput abcRoute "2024-01-01T01:00:00.000Z" emptyTracker ∧
      ¬ Converges byCharacters abcInput abcRoute abcInput.generated abc1Tracker := by
  refine ⟨applies_abcInput, fun h => ?_, fun h => ?_⟩
  · have hnone : canonicalIssue byCharacters emptyTracker abcRoute.marker = none := rfl
    have hlabels := applies_abcInput.labels
    obtain ⟨applied, happlied, hruns⟩ := applyRoute_created (i := abcInput) hlabels hnone
    have hsettles := settles_created hlabels hnone hruns.replaces
    rw [← (applies_abcInput.run_settles happlied hruns).2] at hsettles
    have hinstant := (applies_abcInput.again_iff _ hsettles).mp h.again
    exact absurd hinstant (by decide)
  · have hcarries : CarriesOther abc1Issue abcRoute.fingerprint :=
      ⟨"abc1", isFingerprint_abc1, by decide, carries_abc1Issue⟩
    have hkept := h.others abc1Issue (List.mem_singleton_self _) hcarries
    have hgone : abc1Issue ∉ (trackerAfter byCharacters abcInput abc1Tracker).issues := by
      decide +kernel
    exact hgone hkept

/-- The run on an empty tracker, made again at its own instant, converges. -/
theorem converges_iff_emptyTracker :
    Converges byCharacters abcInput abcRoute abcInput.generated emptyTracker :=
  (converges_iff byCharacters abcInput abcRoute abcInput.generated emptyTracker
    applies_abcInput).mpr ⟨nofun, rfl⟩

end CompareVI.IssueRouter
