import CompareVI.Framework.JsString
import Mathlib.Data.List.Infix

/-!
# Falling back to another token

The policy check collects the tokens it finds, in order, and runs each operation on GitHub
with the active one. An operation that is answered with 401 is tried again with the next
candidate that has another token, which then stays active (`invokeWithAuthFallback`).

What is wanted of the operations of a run is `FallbackLaw`: authorization is unavailable only
when every candidate from the active one on is rejected, the first accepted one completes
the operation, and no earlier one is tried. There is a single fallback in an operation, so
the law fails where the next token is rejected too and a later one is not
(`fallbackLaw_iff`).
-/

open Framework

namespace CompareVI.Policy

/-! ### Errors -/

def isUnauthorizedAuthError (message : String) : Bool :=
  decide ("401".toList <:+: message.toList) &&
    decide ("unauthorized".toList <:+: message.toList.map Char.toLower)

/-- The error with the code `POLICY_AUTH_UNAVAILABLE`. -/
structure AuthUnavailableError where
  message : String
  attemptedSources : List String

def createAuthUnavailableError (operationName : String) (attemptedSources : List String)
    (reason : String) : AuthUnavailableError :=
  let chain := if attemptedSources = [] then "unknown" else JsString.join " -> " attemptedSources
  let suffix := if JsString.trim reason = "" then "" else " " ++ JsString.trim reason
  { message := s!"{operationName} authorization unavailable after sources: {chain}.{suffix}"
    attemptedSources := attemptedSources }

structure ApiResponse where
  status : ℕ
  statusText : String
  /-- The body, as `response.text()` returns it. -/
  text : String
  /-- The body, as `response.json()` returns it. -/
  json : Except String Json

def ApiResponse.ok (response : ApiResponse) : Bool :=
  200 ≤ response.status && response.status ≤ 299

/-- The error of `requestJson`. -/
def requestFailure (response : ApiResponse) : String :=
  s!"GitHub API request failed: {response.status} {response.statusText} -> {response.text}"

/-- `requestJson`, from the response on. -/
def requestJson (response : ApiResponse) : Except String Json :=
  if response.ok then if response.status = 204 then .ok .null else response.json
  else .error (requestFailure response)

/-! ### The fallback -/

structure TokenCandidate where
  token : String
  source : String

structure AuthState where
  activeTokenIndex : ℕ
  activeTokenResult : TokenCandidate
  /-- `report.authSource`. -/
  authSource : String
  log : List String

abbrev Operation (σ α : Type) : Type := String → σ → Except String α × σ

inductive Outcome (α : Type) where
  | completed (value : α)
  | failed (message : String)
  | unavailable (error : AuthUnavailableError)

def Outcome.ofResult {α : Type} : Except String α → Outcome α
  | .ok value => .completed value
  | .error message => .failed message

structure Invoked (σ α : Type) where
  outcome : Outcome α
  auth : AuthState
  world : σ
  /-- The positions of the candidates that were tried. -/
  tried : List ℕ

/-- The first candidate behind the active one that has another token, with its position. -/
def findFallback (tokenCandidates : List TokenCandidate) (auth : AuthState) :
    Option (TokenCandidate × ℕ) :=
  tokenCandidates.zipIdx.find? fun candidate =>
    auth.activeTokenIndex < candidate.2 && candidate.1.token ≠ auth.activeTokenResult.token

def AuthState.fallBack (auth : AuthState) (fallback : TokenCandidate) (index : ℕ) : AuthState where
  activeTokenIndex := index
  activeTokenResult := fallback
  authSource := fallback.source
  log := auth.log ++ [s!"[policy] auth fallback: {auth.activeTokenResult.source} -> " ++
    s!"{fallback.source} (401 Unauthorized)"]

def fallbackOutcome {α : Type} (operationName : String) (attemptedSources : List String) :
    Except String α → Outcome α
  | .ok value => .completed value
  | .error message =>
    if isUnauthorizedAuthError message then
      .unavailable
        (createAuthUnavailableError operationName attemptedSources s!"Last error: {message}")
    else .failed message

section Invoke

variable {σ α : Type} (tokenCandidates : List TokenCandidate)

/-- What follows an answer of 401 to the active token. -/
def retryWithFallback (operationName : String) (operationFn : Operation σ α) (auth : AuthState)
    (message : String) (world : σ) : Invoked σ α :=
  match findFallback tokenCandidates auth with
  | none =>
    { outcome := .unavailable (createAuthUnavailableError operationName
        [auth.activeTokenResult.source] s!"No fallback token available. Last error: {message}")
      auth := auth
      world := world
      tried := [auth.activeTokenIndex] }
  | some (fallback, index) =>
    let second := operationFn fallback.token world
    { outcome := fallbackOutcome operationName
        [auth.activeTokenResult.source, fallback.source] second.1
      auth := auth.fallBack fallback index
      world := second.2
      tried := [auth.activeTokenIndex, index] }

def invokeWithAuthFallback (operationName : String) (operationFn : Operation σ α)
    (auth : AuthState) (world : σ) : Invoked σ α :=
  let first := operationFn auth.activeTokenResult.token world
  match first.1 with
  | .ok value => ⟨.completed value, auth, first.2, [auth.activeTokenIndex]⟩
  | .error message =>
    if isUnauthorizedAuthError message then
      retryWithFallback tokenCandidates operationName operationFn auth message first.2
    else ⟨.failed message, auth, first.2, [auth.activeTokenIndex]⟩

end Invoke

def startAuth (first : TokenCandidate) : AuthState where
  activeTokenIndex := 0
  activeTokenResult := first
  authSource := first.source
  log := [s!"[policy] auth source: {first.source}"]

structure OperationRun (σ α : Type) where
  operationFn : Operation σ α
  before : AuthState
  invoked : Invoked σ α

/-- The operations of a run, each with the tokens that the one before it left. A run that
stops at an error is a part of it. -/
def runOperations {σ α : Type} (tokenCandidates : List TokenCandidate) :
    List (String × Operation σ α) → AuthState → σ → List (OperationRun σ α)
  | [], _, _ => []
  | (operationName, operationFn) :: operations, auth, world =>
    let invoked := invokeWithAuthFallback tokenCandidates operationName operationFn auth world
    ⟨operationFn, auth, invoked⟩ ::
      runOperations tokenCandidates operations invoked.auth invoked.world

/-! ### The law -/

/-- The result is an error of authorization. -/
def IsUnauthorized {α : Type} (result : Except String α) : Prop :=
  ∃ message, result = .error message ∧ isUnauthorizedAuthError message = true

/-- The operation is answered with 401 for the rejected tokens, at any time, and for no
other. -/
def AnswersBy {σ α : Type} (rejects : String → Bool) (operationFn : Operation σ α) : Prop :=
  ∀ token world, IsUnauthorized (operationFn token world).1 ↔ rejects token = true

section Law

variable {σ α : Type} (tokenCandidates : List TokenCandidate) (rejects : String → Bool)

/-- Every candidate from a position on is rejected. -/
def AllRejectedFrom (n : ℕ) : Prop :=
  ∀ i candidate, n ≤ i → tokenCandidates[i]? = some candidate → rejects candidate.token = true

/-- The first accepted candidate from a position on. -/
structure FirstAccepted (n i : ℕ) (candidate : TokenCandidate) : Prop where
  from_le : n ≤ i
  at_index : tokenCandidates[i]? = some candidate
  accepted : rejects candidate.token = false
  first : ∀ j earlier, n ≤ j → j < i → tokenCandidates[j]? = some earlier →
    rejects earlier.token = true

/-- What is wanted of an operation. -/
structure FallbackLaw (run : OperationRun σ α) : Prop where
  /-- Authorization is unavailable only when nothing is left. -/
  exhausted : ∀ error, run.invoked.outcome = .unavailable error →
    AllRejectedFrom tokenCandidates rejects run.before.activeTokenIndex
  /-- The first accepted candidate completes the operation, and is active from then on. -/
  completed : ∀ i candidate,
    FirstAccepted tokenCandidates rejects run.before.activeTokenIndex i candidate →
      run.invoked.auth.activeTokenIndex = i ∧
        ∃ world, run.invoked.outcome = .ofResult (run.operationFn candidate.token world).1
  /-- No candidate before the active one is tried. -/
  forward : ∀ i ∈ run.invoked.tried, run.before.activeTokenIndex ≤ i

/-- A single fallback is enough: the active token is accepted, or the one that is found next
is, or none is. -/
def OneFallbackSuffices (auth : AuthState) : Prop :=
  rejects auth.activeTokenResult.token = false ∨
    (∃ fallback index, findFallback tokenCandidates auth = some (fallback, index) ∧
      rejects fallback.token = false) ∨
    AllRejectedFrom tokenCandidates rejects auth.activeTokenIndex

end Law

/-! ### Candidates -/

def AtActive (tokenCandidates : List TokenCandidate) (auth : AuthState) : Prop :=
  tokenCandidates[auth.activeTokenIndex]? = some auth.activeTokenResult

section Candidates

variable {tokenCandidates : List TokenCandidate} {rejects : String → Bool} {auth : AuthState}

variable {fallback : TokenCandidate} {index : ℕ}

theorem findFallback_eq_some (h : findFallback tokenCandidates auth = some (fallback, index)) :
    auth.activeTokenIndex < index ∧ tokenCandidates[index]? = some fallback ∧
      ∀ j candidate, auth.activeTokenIndex < j → j < index →
        tokenCandidates[j]? = some candidate →
          candidate.token = auth.activeTokenResult.token := by
  rw [findFallback, List.find?_eq_some_iff_getElem] at h
  obtain ⟨hp, i, hi, hget, hbefore⟩ := h
  rw [List.getElem_zipIdx] at hget
  have hlen : i < tokenCandidates.length := by rwa [List.length_zipIdx] at hi
  obtain ⟨hfallback, hindex⟩ := Prod.mk.inj hget
  have hi' : index = i := by omega
  subst hi'
  have hlt : auth.activeTokenIndex < index := by
    have h1 := (Bool.and_eq_true_iff.mp hp).1
    exact of_decide_eq_true h1
  refine ⟨hlt, ?_, fun j candidate hj hji hcandidate => ?_⟩
  · rw [List.getElem?_eq_getElem hlen, hfallback]
  · -- an earlier candidate with another token would have been found
    obtain ⟨hjlen, rfl⟩ := List.getElem?_eq_some_iff.mp hcandidate
    have hnot := hbefore j hji
    rw [List.getElem_zipIdx] at hnot
    by_contra hne
    simp [hne, hj] at hnot

theorem findFallback_eq_none (h : findFallback tokenCandidates auth = none) (j : ℕ)
    (candidate : TokenCandidate) (hj : auth.activeTokenIndex < j)
    (hcandidate : tokenCandidates[j]? = some candidate) :
    candidate.token = auth.activeTokenResult.token := by
  rw [findFallback, List.find?_eq_none] at h
  have hmem : (candidate, j) ∈ tokenCandidates.zipIdx :=
    List.mk_mem_zipIdx_iff_getElem?.mpr hcandidate
  have hnot := h _ hmem
  by_contra hne
  exact hnot (by simp [hj, hne])

variable {candidate : TokenCandidate} {j : ℕ}

theorem token_eq_or_lt (hactive : AtActive tokenCandidates auth) (hj : auth.activeTokenIndex ≤ j)
    (hcandidate : tokenCandidates[j]? = some candidate) :
    candidate = auth.activeTokenResult ∨ auth.activeTokenIndex < j := by
  rcases Nat.eq_or_lt_of_le hj with rfl | hlt
  · left
    rw [AtActive, hcandidate] at hactive
    exact Option.some.inj hactive
  · exact Or.inr hlt

theorem allRejectedFrom_of_none (hactive : AtActive tokenCandidates auth)
    (hnone : findFallback tokenCandidates auth = none)
    (hrejects : rejects auth.activeTokenResult.token = true) :
    AllRejectedFrom tokenCandidates rejects auth.activeTokenIndex := by
  intro j candidate hj hcandidate
  rcases token_eq_or_lt hactive hj hcandidate with rfl | hlt
  · exact hrejects
  · rw [findFallback_eq_none hnone j candidate hlt hcandidate]
    exact hrejects

theorem rejects_before_fallback (hactive : AtActive tokenCandidates auth)
    (hfound : findFallback tokenCandidates auth = some (fallback, index))
    (hrejects : rejects auth.activeTokenResult.token = true) (hj : auth.activeTokenIndex ≤ j)
    (hji : j < index) (hcandidate : tokenCandidates[j]? = some candidate) :
    rejects candidate.token = true := by
  rcases token_eq_or_lt hactive hj hcandidate with rfl | hlt
  · exact hrejects
  · rw [(findFallback_eq_some hfound).2.2 j candidate hlt hji hcandidate]
    exact hrejects

theorem FirstAccepted.unique {n i : ℕ} {other : TokenCandidate}
    (hi : FirstAccepted tokenCandidates rejects n i candidate)
    (hj : FirstAccepted tokenCandidates rejects n j other) : i = j ∧ candidate = other := by
  have hij : i = j := by
    rcases Nat.lt_trichotomy i j with hlt | heq | hlt
    · have hrejected := hj.first i candidate hi.from_le hlt hi.at_index
      rw [hi.accepted] at hrejected
      exact absurd hrejected (by decide)
    · exact heq
    · have hrejected := hi.first j other hj.from_le hlt hj.at_index
      rw [hj.accepted] at hrejected
      exact absurd hrejected (by decide)
  subst hij
  refine ⟨rfl, ?_⟩
  have hsame : some candidate = some other := by rw [← hi.at_index, hj.at_index]
  exact Option.some.inj hsame

end Candidates

/-! ### One operation -/

section Operation

variable {σ α : Type} {tokenCandidates : List TokenCandidate} {rejects : String → Bool}
  {operationName : String} {operationFn : Operation σ α} {auth : AuthState} {world : σ}

variable {result : Except String α} {attemptedSources : List String}

theorem fallbackOutcome_of_accepted (h : ¬ IsUnauthorized result) :
    fallbackOutcome operationName attemptedSources result = .ofResult result := by
  cases result with
  | ok value => rfl
  | error message =>
    have hfalse : ¬ isUnauthorizedAuthError message = true := fun hm => h ⟨message, rfl, hm⟩
    rw [fallbackOutcome, if_neg hfalse]
    rfl

theorem fallbackOutcome_of_rejected (h : IsUnauthorized result) :
    ∃ error, fallbackOutcome operationName attemptedSources result = .unavailable error := by
  obtain ⟨message, rfl, hm⟩ := h
  exact ⟨_, if_pos hm⟩

section

variable (hanswers : AnswersBy rejects operationFn)

include hanswers

theorem invoke_of_accepted (haccepted : rejects auth.activeTokenResult.token = false) :
    invokeWithAuthFallback tokenCandidates operationName operationFn auth world =
      { outcome := .ofResult (operationFn auth.activeTokenResult.token world).1
        auth := auth
        world := (operationFn auth.activeTokenResult.token world).2
        tried := [auth.activeTokenIndex] } := by
  have hnot : ¬ IsUnauthorized (operationFn auth.activeTokenResult.token world).1 := by
    rw [hanswers, haccepted]
    decide
  rw [invokeWithAuthFallback]
  cases hresult : (operationFn auth.activeTokenResult.token world).1 with
  | ok value => rfl
  | error message =>
    rw [hresult] at hnot
    have hfalse : ¬ isUnauthorizedAuthError message = true := fun hm => hnot ⟨message, rfl, hm⟩
    simp only [if_neg hfalse]
    rfl

theorem invoke_of_rejected (hrejected : rejects auth.activeTokenResult.token = true) :
    ∃ message, invokeWithAuthFallback tokenCandidates operationName operationFn auth world =
      retryWithFallback tokenCandidates operationName operationFn auth message
        (operationFn auth.activeTokenResult.token world).2 := by
  obtain ⟨message, hresult, hm⟩ := (hanswers _ world).mpr hrejected
  refine ⟨message, ?_⟩
  rw [invokeWithAuthFallback]
  simp only [hresult, if_pos hm]

/-- **What an operation does**: it runs once, or finds no fallback, or takes the one it finds. -/
theorem invoke_cases :
    let r := invokeWithAuthFallback tokenCandidates operationName operationFn auth world
    (rejects auth.activeTokenResult.token = false ∧ r.auth = auth ∧
        r.tried = [auth.activeTokenIndex] ∧
        ∃ w, r.outcome = .ofResult (operationFn auth.activeTokenResult.token w).1) ∨
      (rejects auth.activeTokenResult.token = true ∧ findFallback tokenCandidates auth = none ∧
        r.auth = auth ∧ r.tried = [auth.activeTokenIndex] ∧
        ∃ error, r.outcome = .unavailable error) ∨
      ∃ fallback index, rejects auth.activeTokenResult.token = true ∧
        findFallback tokenCandidates auth = some (fallback, index) ∧
        r.auth = auth.fallBack fallback index ∧ r.tried = [auth.activeTokenIndex, index] ∧
        (rejects fallback.token = false →
          ∃ w, r.outcome = .ofResult (operationFn fallback.token w).1) ∧
        (rejects fallback.token = true → ∃ error, r.outcome = .unavailable error) := by
  intro r
  cases hactive : rejects auth.activeTokenResult.token with
  | false =>
    have hr : r = _ := invoke_of_accepted hanswers hactive
    rw [hr]
    exact Or.inl ⟨rfl, rfl, rfl, world, rfl⟩
  | true =>
    right
    have hretry : ∃ message, r = retryWithFallback tokenCandidates operationName operationFn auth
        message (operationFn auth.activeTokenResult.token world).2 :=
      invoke_of_rejected hanswers hactive
    obtain ⟨message, hr⟩ := hretry
    rw [hr, retryWithFallback]
    cases hfound : findFallback tokenCandidates auth with
    | none => exact Or.inl ⟨rfl, rfl, rfl, rfl, _, rfl⟩
    | some found =>
      obtain ⟨fallback, index⟩ := found
      refine Or.inr ⟨fallback, index, rfl, rfl, rfl, rfl, fun haccepted => ?_, fun hrejected => ?_⟩
      · refine ⟨_, fallbackOutcome_of_accepted ?_⟩
        rw [hanswers, haccepted]
        decide
      · exact fallbackOutcome_of_rejected ((hanswers _ _).mpr hrejected)

theorem atActive_invoke (hactive : AtActive tokenCandidates auth) : AtActive tokenCandidates
      (invokeWithAuthFallback tokenCandidates operationName operationFn auth world).auth := by
  rcases invoke_cases hanswers with ⟨-, hauth, -⟩ | ⟨-, -, hauth, -⟩ |
    ⟨fallback, index, -, hfound, hauth, -⟩
  · rw [hauth]
    exact hactive
  · rw [hauth]
    exact hactive
  · rw [hauth]
    exact (findFallback_eq_some hfound).2.1

theorem fallbackLaw_of_suffices (hactive : AtActive tokenCandidates auth)
    (hsuffices : OneFallbackSuffices tokenCandidates rejects auth) :
    FallbackLaw tokenCandidates rejects ⟨operationFn, auth,
      invokeWithAuthFallback tokenCandidates operationName operationFn auth world⟩ := by
  rcases invoke_cases hanswers with ⟨haccepted, hauth, htried, w, houtcome⟩ |
    ⟨hrejected, hnone, hauth, htried, error, houtcome⟩ |
    ⟨fallback, index, hrejected, hfound, hauth, htried, hok, hunavailable⟩
  · -- the active candidate is the first accepted one
    have hfirst : FirstAccepted tokenCandidates rejects auth.activeTokenIndex
        auth.activeTokenIndex auth.activeTokenResult :=
      ⟨le_rfl, hactive, haccepted, fun j _ hj hlt _ => absurd hlt (Nat.not_lt.mpr hj)⟩
    refine ⟨fun error herror => ?_, fun i candidate hi => ?_, fun i hi => ?_⟩
    · change Invoked.outcome _ = _ at herror
      rw [houtcome] at herror
      cases hresult : (operationFn auth.activeTokenResult.token w).1 <;>
        simp [hresult, Outcome.ofResult] at herror
    · obtain ⟨rfl, rfl⟩ := hi.unique hfirst
      exact ⟨by rw [hauth], w, houtcome⟩
    · change i ∈ Invoked.tried _ at hi
      rw [htried, List.mem_singleton] at hi
      exact hi.ge
  · have hall := allRejectedFrom_of_none hactive hnone hrejected
    refine ⟨fun _ _ => hall, fun i candidate hi => ?_, fun i hi => ?_⟩
    · have hcandidate := hall i candidate hi.from_le hi.at_index
      rw [hi.accepted] at hcandidate
      exact absurd hcandidate (by decide)
    · change i ∈ Invoked.tried _ at hi
      rw [htried, List.mem_singleton] at hi
      exact hi.ge
  · have hspec := findFallback_eq_some hfound
    have hforward : ∀ i ∈ [auth.activeTokenIndex, index], auth.activeTokenIndex ≤ i := by
      intro i hi
      simp only [List.mem_cons, List.not_mem_nil, or_false] at hi
      rcases hi with rfl | rfl
      · exact le_rfl
      · exact hspec.1.le
    cases hfallback : rejects fallback.token with
    | false =>
      -- all candidates before the fallback have the rejected token
      have hfirst : FirstAccepted tokenCandidates rejects auth.activeTokenIndex index fallback :=
        ⟨hspec.1.le, hspec.2.1, hfallback, fun j earlier hj hlt hearlier =>
          rejects_before_fallback hactive hfound hrejected hj hlt hearlier⟩
      obtain ⟨w, houtcome⟩ := hok hfallback
      refine ⟨fun error herror => ?_, fun i candidate hi => ?_, fun i hi => ?_⟩
      · change Invoked.outcome _ = _ at herror
        rw [houtcome] at herror
        cases hresult : (operationFn fallback.token w).1 <;>
          simp [hresult, Outcome.ofResult] at herror
      · obtain ⟨rfl, rfl⟩ := hi.unique hfirst
        exact ⟨by rw [hauth]; rfl, w, houtcome⟩
      · change i ∈ Invoked.tried _ at hi
        rw [htried] at hi
        exact hforward i hi
    | true =>
      have hall : AllRejectedFrom tokenCandidates rejects auth.activeTokenIndex := by
        rcases hsuffices with haccepted | ⟨found, position, hfound', haccepted⟩ | hall
        · rw [hrejected] at haccepted
          exact absurd haccepted (by decide)
        · rw [hfound] at hfound'
          obtain ⟨rfl, rfl⟩ := Prod.mk.inj (Option.some.inj hfound')
          rw [hfallback] at haccepted
          exact absurd haccepted (by decide)
        · exact hall
      refine ⟨fun _ _ => hall, fun i candidate hi => ?_, fun i hi => ?_⟩
      · have hcandidate := hall i candidate hi.from_le hi.at_index
        rw [hi.accepted] at hcandidate
        exact absurd hcandidate (by decide)
      · change i ∈ Invoked.tried _ at hi
        rw [htried] at hi
        exact hforward i hi

/-- An operation that reports authorization as unavailable although a later candidate is
accepted breaks the law; that happens wherever one fallback is not enough. -/
theorem suffices_of_exhausted (hactive : AtActive tokenCandidates auth) (hexhausted : ∀ error,
      (invokeWithAuthFallback tokenCandidates operationName operationFn auth world).outcome =
        .unavailable error → AllRejectedFrom tokenCandidates rejects auth.activeTokenIndex) :
    OneFallbackSuffices tokenCandidates rejects auth := by
  rcases invoke_cases hanswers with ⟨haccepted, -⟩ | ⟨hrejected, hnone, -⟩ |
    ⟨fallback, index, -, hfound, -, -, -, hunavailable⟩
  · exact Or.inl haccepted
  · exact Or.inr (Or.inr (allRejectedFrom_of_none hactive hnone hrejected))
  · cases hfallback : rejects fallback.token with
    | false => exact Or.inr (Or.inl ⟨fallback, index, hfound, hfallback⟩)
    | true =>
      obtain ⟨error, houtcome⟩ := hunavailable hfallback
      exact Or.inr (Or.inr (hexhausted error houtcome))

end

end Operation

/-! ### Runs -/

/-- What every operation of a run finds: the active token is a candidate, and the operation
was run on it. -/
theorem runOperations_spec {σ α : Type} {tokenCandidates : List TokenCandidate}
    {rejects : String → Bool} (operations : List (String × Operation σ α))
    (hanswers : ∀ operation ∈ operations, AnswersBy rejects operation.2) {auth : AuthState}
    (hactive : AtActive tokenCandidates auth) (world : σ) :
    ∀ run ∈ runOperations tokenCandidates operations auth world,
      AtActive tokenCandidates run.before ∧ AnswersBy rejects run.operationFn ∧
        ∃ operationName w, run.invoked =
          invokeWithAuthFallback tokenCandidates operationName run.operationFn run.before w := by
  induction operations generalizing auth world with
  | nil => exact List.forall_mem_nil _
  | cons operation operations ih =>
    intro run hrun
    have hfirst := hanswers operation List.mem_cons_self
    rw [runOperations, List.mem_cons] at hrun
    rcases hrun with rfl | hrun
    · exact ⟨hactive, hfirst, operation.1, world, rfl⟩
    · exact ih (fun o ho => hanswers o (List.mem_cons_of_mem _ ho))
        (atActive_invoke hfirst hactive) _ run hrun

/-- **The fallback of a run.** The operations of a run meet the law exactly if one fallback is
enough for each of them. -/
theorem fallbackLaw_iff {σ α : Type} (first : TokenCandidate) (rest : List TokenCandidate)
    (rejects : String → Bool) (operations : List (String × Operation σ α))
    (hanswers : ∀ operation ∈ operations, AnswersBy rejects operation.2) (world : σ) :
    (∀ run ∈ runOperations (first :: rest) operations (startAuth first) world,
        FallbackLaw (first :: rest) rejects run) ↔
      ∀ run ∈ runOperations (first :: rest) operations (startAuth first) world,
        OneFallbackSuffices (first :: rest) rejects run.before := by
  have hstart : AtActive (first :: rest) (startAuth first) := rfl
  refine forall₂_congr fun run hrun => ?_
  obtain ⟨hactive, hop, operationName, w, hinvoked⟩ :=
    runOperations_spec operations hanswers hstart world run hrun
  obtain ⟨operationFn, before, invoked⟩ := run
  obtain rfl : invoked =
    invokeWithAuthFallback (first :: rest) operationName operationFn before w := hinvoked
  exact ⟨fun hlaw => suffices_of_exhausted hop hactive hlaw.exhausted,
    fallbackLaw_of_suffices hop hactive⟩

/-! ### Requests -/

def requestOperation {σ : Type} (api : String → σ → ApiResponse × σ) : Operation σ Json :=
  fun token world => (requestJson (api token world).1, (api token world).2)

theorem isUnauthorized_requestJson {response : ApiResponse} (hstatus : response.status = 401)
    (htext : response.statusText = "Unauthorized") : IsUnauthorized (requestJson response) := by
  have hok : ¬ response.ok = true := by
    rw [ApiResponse.ok, hstatus]
    decide
  refine ⟨requestFailure response, if_neg hok, ?_⟩
  let start : List Char := "GitHub API request failed: ".toList ++ "401".toList ++ " ".toList ++
    "Unauthorized".toList ++ " -> ".toList
  have hmessage : (requestFailure response).toList = start ++ response.text.toList := by
    have h401 : toString 401 = "401" := by decide +kernel
    have hparts : requestFailure response =
        "GitHub API request failed: " ++ "401" ++ " " ++ "Unauthorized" ++ " -> " ++
          response.text := by
      rw [← h401, ← htext, ← hstatus]
      rfl
    simp only [hparts, String.toList_append, start]
  -- both words are in the part of the message before the body
  have hcode : "401".toList <:+: start := by decide +kernel
  have hword : "unauthorized".toList <:+: start.map Char.toLower := by decide +kernel
  rw [isUnauthorizedAuthError, hmessage, List.map_append]
  rw [Bool.and_eq_true, decide_eq_true_eq, decide_eq_true_eq]
  exact ⟨hcode.trans (List.prefix_append _ _).isInfix,
    hword.trans (List.prefix_append _ _).isInfix⟩

theorem answersBy_requestOperation {σ : Type} {rejects : String → Bool}
    {api : String → σ → ApiResponse × σ}
    (hrejected : ∀ token world, rejects token = true →
      (api token world).1.status = 401 ∧ (api token world).1.statusText = "Unauthorized")
    (haccepted : ∀ token world, rejects token = false →
      ∃ value, requestJson (api token world).1 = .ok value) :
    AnswersBy rejects (requestOperation api) := by
  intro token world
  cases htoken : rejects token with
  | true =>
    obtain ⟨hstatus, htext⟩ := hrejected token world htoken
    exact ⟨fun _ => rfl, fun _ => isUnauthorized_requestJson hstatus htext⟩
  | false =>
    obtain ⟨value, hvalue⟩ := haccepted token world htoken
    refine ⟨fun ⟨message, hmessage, _⟩ => ?_, fun h => absurd h (by decide)⟩
    have herror : requestJson (api token world).1 = .error message := hmessage
    rw [hvalue] at herror
    cases herror

def staleApi (stale : List String) (token : String) (world : Unit) : ApiResponse × Unit :=
  if token ∈ stale then (⟨401, "Unauthorized", "Bad credentials", .ok .null⟩, world)
  else (⟨200, "OK", "", .ok .null⟩, world)

theorem answersBy_staleApi (stale : List String) :
    AnswersBy (fun token => decide (token ∈ stale)) (requestOperation (staleApi stale)) := by
  refine answersBy_requestOperation (fun token world hrejected => ?_)
    fun token world haccepted => ⟨.null, ?_⟩
  · have hmem : token ∈ stale := of_decide_eq_true hrejected
    rw [staleApi, if_pos hmem]
    exact ⟨rfl, rfl⟩
  · have hmem : token ∉ stale := of_decide_eq_false haccepted
    rw [staleApi, if_neg hmem]
    rfl

/-- A stale token in `GH_TOKEN`, a valid one in `GITHUB_TOKEN`. -/
theorem fallbackLaw_validSecond :
    AnswersBy (fun token => decide (token ∈ ["gh-stale"]))
        (requestOperation (staleApi ["gh-stale"])) ∧
      ∀ run ∈ runOperations
          [⟨"gh-stale", "gh-token-env"⟩, ⟨"github-valid", "github-token-env"⟩]
          [("collectState", requestOperation (staleApi ["gh-stale"]))]
          (startAuth ⟨"gh-stale", "gh-token-env"⟩) (),
        FallbackLaw [⟨"gh-stale", "gh-token-env"⟩, ⟨"github-valid", "github-token-env"⟩]
          (fun token => decide (token ∈ ["gh-stale"])) run := by
  refine ⟨answersBy_staleApi _,
    (fallbackLaw_iff _ _ _ _ (fun operation hoperation => ?_) _).mpr fun run hrun => ?_⟩
  · obtain rfl := List.mem_singleton.mp hoperation
    exact answersBy_staleApi _
  · obtain rfl := List.mem_singleton.mp hrun
    refine Or.inr (Or.inl ⟨⟨"github-valid", "github-token-env"⟩, 1, rfl, ?_⟩)
    decide

/-- Two stale tokens before the valid one: authorization is reported as unavailable. -/
theorem not_fallbackLaw_validThird :
    AnswersBy (fun token => decide (token ∈ ["gh-stale", "github-stale"]))
        (requestOperation (staleApi ["gh-stale", "github-stale"])) ∧
      ¬ ∀ run ∈ runOperations
        [⟨"gh-stale", "gh-token-env"⟩, ⟨"github-stale", "github-token-env"⟩,
          ⟨"file-valid", "gh-token-file"⟩]
        [("collectState", requestOperation (staleApi ["gh-stale", "github-stale"]))]
        (startAuth ⟨"gh-stale", "gh-token-env"⟩) (),
      FallbackLaw
        [⟨"gh-stale", "gh-token-env"⟩, ⟨"github-stale", "github-token-env"⟩,
          ⟨"file-valid", "gh-token-file"⟩]
        (fun token => decide (token ∈ ["gh-stale", "github-stale"])) run := by
  refine ⟨answersBy_staleApi _, fun hall => ?_⟩
  have hlaw := hall _ List.mem_cons_self
  have hactive : AtActive
      [⟨"gh-stale", "gh-token-env"⟩, ⟨"github-stale", "github-token-env"⟩,
        ⟨"file-valid", "gh-token-file"⟩] (startAuth ⟨"gh-stale", "gh-token-env"⟩) := rfl
  have hsuffices := suffices_of_exhausted (answersBy_staleApi _) hactive hlaw.exhausted
  rcases hsuffices with haccepted | ⟨fallback, index, hfound, haccepted⟩ | hrest
  · exact absurd haccepted (by decide)
  · obtain ⟨rfl, rfl⟩ := Prod.mk.inj (Option.some.inj hfound)
    exact absurd haccepted (by decide)
  · exact absurd (hrest 2 ⟨"file-valid", "gh-token-file"⟩ (Nat.zero_le _) rfl) (by decide)

end CompareVI.Policy
