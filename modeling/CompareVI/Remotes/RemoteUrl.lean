import CompareVI.Framework.JsString
import Mathlib.Data.List.Infix

/-!
# The repository of a remote URL

`parseRemoteUrl` looks for `:owner/repo` at the end of a URL, and where there is none for
`github.com/owner/repo`. Neither pattern begins at the start of the URL, and the first one does
not look at the host.

`known_iff` says for which owners the URLs of a repository on `github.com` are read back, and
`parseRemoteUrl_eq_none_iff` which URLs are refused, whatever their host is. The two make up
`parses_iff`.
-/

open Framework

namespace CompareVI.Remotes

abbrev Text := List Char

/-! ### Parsing -/

/-- What `[^/]+\/[^/]+(?:\.git)?$` matches at the start of a text, up to its end. The repetition
is greedy, so the suffix is part of it. -/
def repoPathAt (cs : Text) : Option (Text × Text) :=
  match cs.dropWhile (· ≠ '/') with
  | [] => none
  | _ :: repo =>
    let owner := cs.takeWhile (· ≠ '/')
    if owner ≠ [] ∧ repo ≠ [] ∧ '/' ∉ repo then some (owner, repo) else none

/-- `sshMatch`, at the start of a text. -/
def sshAt : Text → Option (Text × Text)
  | ':' :: rest => repoPathAt rest
  | _ => none

/-- `httpsMatch`, at the start of a text. -/
def httpsAt (cs : Text) : Option (Text × Text) :=
  if "github.com/".toList.isPrefixOf cs then repoPathAt (cs.drop "github.com/".length) else none

def stripGit (repo : Text) : Text :=
  if ".git".toList.isSuffixOf repo then repo.take (repo.length - 4) else repo

/-- `parseRemoteUrl`: the owner and the repository. -/
def parseRemoteUrl (url : Text) : Option (Text × Text) :=
  ((JsString.firstMatch sshAt url).or (JsString.firstMatch httpsAt url)).map
    fun (owner, repoRaw) => (owner, stripGit repoRaw)

/-! ### URLs -/

/-- The ways in which a repository on `github.com` is written. -/
inductive Form where
  /-- `git@github.com:owner/repo`. -/
  | scp
  /-- `ssh://git@github.com/owner/repo`. -/
  | ssh
  /-- `https://github.com/owner/repo`. -/
  | https
deriving DecidableEq

def Form.head : Form → Text
  | scp => "git@github.com:".toList
  | ssh => "ssh://git@github.com/".toList
  | https => "https://github.com/".toList

def Form.url (form : Form) (owner repo : Text) (git : Bool) : Text :=
  form.head ++ (owner ++ '/' :: (repo ++ if git then ".git".toList else []))

/-- A part of a path. -/
def Segment (t : Text) : Prop := t ≠ [] ∧ '/' ∉ t

inductive RemoteUrl where
  /-- `[user@]host:path`. -/
  | scp (user : Option Text) (host path : Text)
  /-- `scheme://[user@]host[:port]/path`. -/
  | absolute (scheme : Text) (user : Option Text) (host : Text) (port : Option Text) (path : Text)

namespace RemoteUrl

def host : RemoteUrl → Text
  | scp _ host _ => host
  | absolute _ _ host _ _ => host

def userPart (user : Option Text) : Text := (user.map (· ++ ['@'])).getD []

def portPart (port : Option Text) : Text := (port.map (':' :: ·)).getD []

def text : RemoteUrl → Text
  | scp user host path => userPart user ++ host ++ ':' :: path
  | absolute scheme user host port path =>
    scheme ++ "://".toList ++ userPart user ++ host ++ portPart port ++ '/' :: path

end RemoteUrl

/-- The text ends in a repository: behind a colon, or behind `github.com/`. -/
def EndsInRepo (url : Text) : Prop :=
  ∃ owner repo, Segment owner ∧ Segment repo ∧
    (':' :: (owner ++ '/' :: repo) <:+ url ∨
      "github.com/".toList ++ (owner ++ '/' :: repo) <:+ url)

/-- A name of a repository has no suffix of its own. -/
def RepoName (repo : Text) : Prop := Segment repo ∧ ¬ ".git".toList <:+ repo

/-! ### The patterns -/

variable {cs : Text}

theorem repoPathAt_eq_some_iff {owner repo : Text} :
    repoPathAt cs = some (owner, repo) ↔
      cs = owner ++ '/' :: repo ∧ Segment owner ∧ Segment repo := by
  have hsplit := List.takeWhile_append_dropWhile (p := (· ≠ '/')) (l := cs)
  have hslash : '/' ∉ cs.takeWhile (· ≠ '/') := fun h => by
    have := List.mem_takeWhile_imp h
    simp at this
  rw [repoPathAt]
  cases hdrop : cs.dropWhile (· ≠ '/') with
  | nil =>
    refine iff_of_false nofun ?_
    rintro ⟨rfl, -, -⟩
    rw [hdrop, List.append_nil] at hsplit
    rw [hsplit] at hslash
    exact hslash (List.mem_append_right owner List.mem_cons_self)
  | cons c rest =>
    have hc : c = '/' := by
      have hhead := List.head?_dropWhile_not (p := (· ≠ '/')) cs
      rw [hdrop] at hhead
      simpa using hhead
    subst hc
    rw [hdrop] at hsplit
    dsimp only
    constructor
    · intro h
      split at h
      · next hvalid =>
        obtain ⟨rfl, rfl⟩ := Prod.mk.inj (Option.some.inj h)
        exact ⟨hsplit.symm, ⟨hvalid.1, hslash⟩, hvalid.2⟩
      · cases h
    · rintro ⟨hcs, howner, hrepo⟩
      have htake : cs.takeWhile (· ≠ '/') = owner := by
        rw [hcs, List.takeWhile_append_of_pos]
        · simp
        · intro x hx
          simp only [ne_eq, decide_eq_true_eq]
          rintro rfl
          exact howner.2 hx
      rw [htake, hcs] at hsplit
      obtain rfl : rest = repo := (List.cons.inj (List.append_cancel_left hsplit)).2
      rw [htake, if_pos ⟨howner.1, hrepo⟩]

theorem firstMatch_eq_none_iff {β : Type*} {m : Text → Option β} :
    JsString.firstMatch m cs = none ↔ ∀ rest, rest <:+ cs → m rest = none := by
  induction cs with
  | nil =>
    rw [JsString.firstMatch]
    constructor
    · intro h rest hrest
      rwa [List.suffix_nil.mp hrest]
    · exact fun h => h [] List.suffix_rfl
  | cons c cs ih =>
    rw [JsString.firstMatch, Option.or_eq_none_iff, ih]
    constructor
    · rintro ⟨hhere, hlater⟩ rest hrest
      rcases List.suffix_cons_iff.mp hrest with rfl | hrest
      · exact hhere
      · exact hlater rest hrest
    · intro h
      exact ⟨h _ List.suffix_rfl, fun rest hrest => h rest (hrest.trans (List.suffix_cons c cs))⟩

theorem repoPathAt_eq_none_iff :
    repoPathAt cs = none ↔ ∀ owner repo, Segment owner → Segment repo →
      cs ≠ owner ++ '/' :: repo := by
  constructor
  · intro h owner repo howner hrepo hcs
    rw [repoPathAt_eq_some_iff.mpr ⟨hcs, howner, hrepo⟩] at h
    cases h
  · intro h
    cases hpath : repoPathAt cs with
    | none => rfl
    | some path =>
      obtain ⟨hcs, howner, hrepo⟩ := repoPathAt_eq_some_iff.mp hpath
      exact absurd hcs (h _ _ howner hrepo)

theorem sshAt_eq_none_iff :
    sshAt cs = none ↔ ∀ owner repo, Segment owner → Segment repo →
      cs ≠ ':' :: (owner ++ '/' :: repo) := by
  cases cs with
  | nil => exact iff_of_true rfl nofun
  | cons c rest =>
    by_cases hc : c = ':'
    · subst hc
      rw [sshAt, repoPathAt_eq_none_iff]
      refine forall₂_congr fun owner repo => forall₂_congr fun _ _ => ?_
      rw [Ne, Ne, List.cons.injEq, and_iff_right rfl]
    · have hnone : sshAt (c :: rest) = none := by
        rw [sshAt]
        exact fun rest h => hc (List.cons.inj h).1
      exact iff_of_true hnone fun owner repo _ _ h => hc (List.cons.inj h).1

theorem httpsAt_eq_none_iff :
    httpsAt cs = none ↔ ∀ owner repo, Segment owner → Segment repo →
      cs ≠ "github.com/".toList ++ (owner ++ '/' :: repo) := by
  rw [httpsAt]
  split
  · next hprefix =>
    obtain ⟨rest, rfl⟩ := List.isPrefixOf_iff_prefix.mp hprefix
    have hdrop : ("github.com/".toList ++ rest).drop "github.com/".length = rest :=
      List.drop_left' rfl
    rw [hdrop, repoPathAt_eq_none_iff]
    refine forall₂_congr fun owner repo => forall₂_congr fun _ _ => ?_
    rw [Ne, Ne, List.append_cancel_left_eq]
  · next hprefix =>
    refine iff_of_true rfl fun owner repo _ _ h => hprefix ?_
    exact List.isPrefixOf_iff_prefix.mpr ⟨_, h.symm⟩

/-- **What is refused**: every text that does not end in a repository. -/
theorem parseRemoteUrl_eq_none_iff (url : Text) :
    parseRemoteUrl url = none ↔ ¬ EndsInRepo url := by
  rw [parseRemoteUrl, Option.map_eq_none_iff, Option.or_eq_none_iff, firstMatch_eq_none_iff,
    firstMatch_eq_none_iff]
  constructor
  · rintro ⟨hssh, hhttps⟩ ⟨owner, repo, howner, hrepo, hends | hends⟩
    · exact sshAt_eq_none_iff.mp (hssh _ hends) owner repo howner hrepo rfl
    · exact httpsAt_eq_none_iff.mp (hhttps _ hends) owner repo howner hrepo rfl
  · intro h
    constructor
    · refine fun rest hrest => sshAt_eq_none_iff.mpr fun owner repo howner hrepo heq => ?_
      exact h ⟨owner, repo, howner, hrepo, .inl (heq ▸ hrest)⟩
    · refine fun rest hrest => httpsAt_eq_none_iff.mpr fun owner repo howner hrepo heq => ?_
      exact h ⟨owner, repo, howner, hrepo, .inr (heq ▸ hrest)⟩

/-! ### Repositories on `github.com` -/

section Known

variable {owner y : Text}

theorem stripGit_suffix {repo : Text} (h : RepoName repo) (git : Bool) :
    stripGit (repo ++ if git then ".git".toList else []) = repo := by
  cases git with
  | true =>
    rw [if_pos rfl, stripGit, if_pos (List.isSuffixOf_iff_suffix.mpr (List.suffix_append _ _)),
      List.length_append]
    exact List.take_left' rfl
  | false =>
    rw [if_neg Bool.false_ne_true, List.append_nil, stripGit]
    exact if_neg fun hsuffix => h.2 (List.isSuffixOf_iff_suffix.mp hsuffix)

theorem segment_suffix {repo : Text} (h : RepoName repo) (git : Bool) :
    Segment (repo ++ if git then ".git".toList else []) := by
  refine ⟨fun hnil => h.1.1 (List.append_eq_nil_iff.mp hnil).1, ?_⟩
  rw [List.mem_append, not_or]
  refine ⟨h.1.2, ?_⟩
  cases git with
  | true => decide
  | false => exact List.not_mem_nil

theorem firstMatch_sshAt_segment (hy : '/' ∉ y) : JsString.firstMatch sshAt ('/' :: y) = none := by
  rw [firstMatch_eq_none_iff]
  rintro rest hrest
  refine sshAt_eq_none_iff.mpr ?_
  rintro owner repo - - rfl
  rcases List.suffix_cons_iff.mp hrest with heq | hrest
  · cases (List.cons.inj heq).1
  · exact hy (hrest.mem (List.mem_cons_of_mem _ (List.mem_append_right owner List.mem_cons_self)))

/-- **A colon in the owner** hides what is in front of it, unless it is the last character. -/
theorem firstMatch_sshAt_owner (howner : '/' ∉ owner) (hy : Segment y) :
    (':' ∉ owner.dropLast ∧ JsString.firstMatch sshAt (owner ++ '/' :: y) = none) ∨
      (':' ∈ owner.dropLast ∧ ∃ x, x.length < owner.length ∧
        JsString.firstMatch sshAt (owner ++ '/' :: y) = some (x, y)) := by
  induction owner with
  | nil => exact .inl ⟨List.not_mem_nil, firstMatch_sshAt_segment hy.2⟩
  | cons c owner ih =>
    have hrest : '/' ∉ owner := fun h => howner (List.mem_cons_of_mem c h)
    have ih := ih hrest
    rw [List.cons_append, JsString.firstMatch]
    rcases owner with _ | ⟨d, owner⟩
    · -- nothing is left of the owner
      left
      refine ⟨List.not_mem_nil, ?_⟩
      have hhere : sshAt (c :: ([] ++ '/' :: y)) = none := by
        refine sshAt_eq_none_iff.mpr fun x repo hx _ h => hx.2 ?_
        obtain ⟨e, x, rfl⟩ := List.exists_cons_of_ne_nil hx.1
        rw [← (List.cons.inj (List.cons.inj h).2).1]
        exact List.mem_cons_self
      rw [hhere, Option.none_or]
      exact firstMatch_sshAt_segment hy.2
    · rw [List.dropLast_cons_cons, List.mem_cons]
      by_cases hcolon : c = ':'
      · subst hcolon
        have hhere : sshAt (':' :: (d :: owner ++ '/' :: y)) = some (d :: owner, y) :=
          repoPathAt_eq_some_iff.mpr ⟨rfl, ⟨List.cons_ne_nil _ _, hrest⟩, hy⟩
        rw [hhere]
        exact .inr ⟨.inl rfl, d :: owner, Nat.lt_succ_self _, rfl⟩
      · have hhere : sshAt (c :: (d :: owner ++ '/' :: y)) = none :=
          sshAt_eq_none_iff.mpr fun x repo _ _ h => hcolon (List.cons.inj h).1
        rw [hhere, Option.none_or]
        rcases ih with ⟨hnot, hnone⟩ | ⟨hmem, x, hx, hsome⟩
        · exact .inl ⟨fun h => h.elim (fun h => hcolon h.symm) hnot, hnone⟩
        · exact .inr ⟨.inr hmem, x, hx.trans (Nat.lt_succ_self _), hsome⟩

theorem known_of_slash {repo url : Text} (howner : Segment owner) (hy : Segment y)
    (hstrip : stripGit y = repo)
    (hssh : JsString.firstMatch sshAt url = JsString.firstMatch sshAt (owner ++ '/' :: y))
    (hhttps : ∃ more, JsString.firstMatch httpsAt url =
      (repoPathAt (owner ++ '/' :: y)).or more) :
    parseRemoteUrl url = some (owner, repo) ↔ ':' ∉ owner.dropLast := by
  obtain ⟨more, hmore⟩ := hhttps
  have hpath : repoPathAt (owner ++ '/' :: y) = some (owner, y) :=
    repoPathAt_eq_some_iff.mpr ⟨rfl, howner, hy⟩
  rw [parseRemoteUrl, hssh, hmore, hpath]
  rcases firstMatch_sshAt_owner howner.2 hy with ⟨hnot, hnone⟩ | ⟨hmem, x, hx, hsome⟩
  · rw [hnone]
    exact iff_of_true (congrArg (fun r => some (owner, r)) hstrip) hnot
  · rw [hsome]
    refine iff_of_false (fun h => ?_) fun h => h hmem
    have howner : x = owner := (Prod.mk.inj (Option.some.inj h)).1
    exact absurd (congrArg List.length howner) (Nat.ne_of_lt hx)

/-- **What is read back** of the URLs of a repository on `github.com`. -/
theorem known_iff (form : Form) (repo : Text) (git : Bool) (howner : Segment owner)
    (hrepo : RepoName repo) :
    parseRemoteUrl (form.url owner repo git) = some (owner, repo) ↔
      form = .scp ∨ ':' ∉ owner.dropLast := by
  have hsegment := segment_suffix hrepo git
  have hstrip := stripGit_suffix hrepo git
  rw [Form.url]
  generalize (repo ++ if git then ".git".toList else []) = y at hsegment hstrip
  have hpath : repoPathAt (owner ++ '/' :: y) = some (owner, y) :=
    repoPathAt_eq_some_iff.mpr ⟨rfl, howner, hsegment⟩
  cases form with
  | scp =>
    have hssh : JsString.firstMatch sshAt (Form.scp.head ++ (owner ++ '/' :: y)) =
        (repoPathAt (owner ++ '/' :: y)).or
          (JsString.firstMatch sshAt (owner ++ '/' :: y)) := rfl
    rw [parseRemoteUrl, hssh, hpath]
    exact iff_of_true (congrArg (fun r => some (owner, r)) hstrip) (.inl rfl)
  | ssh =>
    have hssh : JsString.firstMatch sshAt (Form.ssh.head ++ (owner ++ '/' :: y)) =
        JsString.firstMatch sshAt (owner ++ '/' :: y) := rfl
    have hhttps : ∃ more, JsString.firstMatch httpsAt (Form.ssh.head ++ (owner ++ '/' :: y)) =
        (repoPathAt (owner ++ '/' :: y)).or more := ⟨_, rfl⟩
    exact (known_of_slash howner hsegment hstrip hssh hhttps).trans (or_iff_right nofun).symm
  | https =>
    have hssh : JsString.firstMatch sshAt (Form.https.head ++ (owner ++ '/' :: y)) =
        JsString.firstMatch sshAt (owner ++ '/' :: y) := rfl
    have hhttps : ∃ more, JsString.firstMatch httpsAt (Form.https.head ++ (owner ++ '/' :: y)) =
        (repoPathAt (owner ++ '/' :: y)).or more := ⟨_, rfl⟩
    exact (known_of_slash howner hsegment hstrip hssh hhttps).trans (or_iff_right nofun).symm

end Known

/-- **`parseRemoteUrl`.** The URLs of a repository on `github.com` are read back, but for those with
a slash in front of an owner with a colon in it. A URL of another host is refused exactly if it
does not end in a repository behind a colon or behind `github.com/`. -/
theorem parses_iff (form : Form) (owner repo : Text) (git : Bool) (url : RemoteUrl) :
    (Segment owner ∧ RepoName repo →
      (parseRemoteUrl (form.url owner repo git) = some (owner, repo) ↔
        form = .scp ∨ ':' ∉ owner.dropLast)) ∧
    (url.host ≠ "github.com".toList →
      (parseRemoteUrl url.text = none ↔ ¬ EndsInRepo url.text)) :=
  ⟨fun h => known_iff form repo git h.1 h.2, fun _ => parseRemoteUrl_eq_none_iff url.text⟩

/-- A repository on another host, and an owner with a colon. -/
theorem not_parses_foreign :
    ¬ ((∀ (form : Form) (owner repo : Text) (git : Bool), Segment owner → RepoName repo →
        parseRemoteUrl (form.url owner repo git) = some (owner, repo)) ∧
      ∀ url : RemoteUrl, url.host ≠ "github.com".toList → parseRemoteUrl url.text = none) := by
  rintro ⟨-, hforeign⟩
  have hnone := hforeign (.scp (some "git".toList) "gitlab.com".toList "owner/repo".toList)
    (by decide)
  have hsome : parseRemoteUrl (RemoteUrl.text
      (.scp (some "git".toList) "gitlab.com".toList "owner/repo".toList)) =
      some ("owner".toList, "repo".toList) := by decide +kernel
  rw [hsome] at hnone
  cases hnone

end CompareVI.Remotes
