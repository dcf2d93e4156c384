/-
This file proves when the link to a repository leads to the host that was
tested. A host taken from a parsed URL holds no delimiter, so the link is cut
where the host ends; a colon alone, which only an address in brackets can
hold, would be read as the start of a port. A host cut out of the scp-like
form by hand is any text without a colon, and there a slash, a question mark
or a hash ends the host of the link early, and an at sign starts it late.
-/

import Multimux.Bytes
import Mathlib.Data.List.DropRight
import Mathlib.Data.List.Infix

namespace Multimux

/-! ### The standard library -/

/-- What is used of a `url.URL`. -/
structure ParsedUrl where
  host : Bytes
  path : Bytes

/-- `url.Parse`. The `Host` of a URL is a host and a port, between the delimiters of the parts
beside it and decoded without any of them. -/
structure UrlParser where
  parse : Bytes → Option ParsedUrl
  delimited : ∀ raw url, parse raw = some url → ∀ byte ∈ url.host, byte ∉ bytes "/?#@"

/-- A colon and digits, or nothing. -/
def validOptionalPort (port : Bytes) : Bool :=
  port = [] ∨ port.head? = some 0x3A ∧ port.tail.all fun byte => 0x30 ≤ byte ∧ byte ≤ 0x39

/-- The method `Hostname`: the host without a valid port, and without brackets around it. -/
def ParsedUrl.hostname (url : ParsedUrl) : Bytes :=
  let front := url.host.rdropWhile (· ≠ 0x3A)
  let port := 0x3A :: url.host.rtakeWhile (· ≠ 0x3A)
  let host := if front ≠ [] ∧ validOptionalPort port then front.dropLast else url.host
  if host.head? = some 0x5B ∧ host.getLast? = some 0x5D then host.tail.dropLast else host

/-- `strings.ToLower`, whose tables this file does not depend on. -/
abbrev LowerCase := Bytes → Bytes

/-! ### The functions -/

section Links

variable (parser : UrlParser) (lower : LowerCase)

/-- The host is one of GitHub, or of a GitHub Enterprise. -/
def isGitHubHost (host : Bytes) : Bool :=
  bytes "github" <:+: lower host ∨ bytes "ghe" ∈ (lower host).splitOn 0x2E

/-- The host and the path of a remote. -/
def splitRemote (remote : Bytes) : Bytes × Bytes :=
  if ¬ bytes "://" <:+: remote then
    match remote.idxOf? 0x40, remote.idxOf? 0x3A with
    | some sign, some colon =>
      if colon < sign then ([], [])
      else ((remote.take colon).drop (sign + 1), remote.drop (colon + 1))
    | _, _ => ([], [])
  else
    match parser.parse remote with
    | none => ([], [])
    | some url => if url.host = [] then ([], []) else (url.hostname, url.path)

/-- `strings.Trim` of slashes and `strings.TrimSuffix` of `.git`. -/
def repositoryPath (path : Bytes) : Bytes :=
  let path := (path.dropWhile (· = 0x2F)).rdropWhile (· = 0x2F)
  if bytes ".git" <:+ path then path.take (path.length - (bytes ".git").length) else path

/-- The page of a remote, if its host is one of GitHub and its path names a repository. -/
def webURL (remote : Bytes) : Bytes :=
  let (host, path) := splitRemote parser remote
  if host = [] ∨ isGitHubHost lower host = false then []
  else if repositoryPath path = [] then []
  else bytes "https://" ++ (host ++ 0x2F :: repositoryPath path)

/-! ### The host of a link -/

/-- A host without its port; a colon within brackets starts none. -/
def withoutPort (host : Bytes) : Bytes :=
  host.rdropWhile (· ≠ 0x5D) ++ (host.rtakeWhile (· ≠ 0x5D)).takeWhile (· ≠ 0x3A)

/-- The host of a link as a URL parser delimits it. -/
def linkHost (link : Bytes) : Bytes :=
  match cutText link (bytes "//") with
  | none => []
  | some (_, rest) =>
    withoutPort ((rest.takeWhile (· ∉ bytes "/?#")).rtakeWhile (· ≠ 0x40))

/-- A link is to the host that was tested. -/
def LinksToTested (remote : Bytes) : Prop :=
  webURL parser lower remote ≠ [] →
    bytes "https://" <+: webURL parser lower remote ∧
    isGitHubHost lower (linkHost (webURL parser lower remote)) = true ∧
    linkHost (webURL parser lower remote) = (splitRemote parser remote).1

/-! ### The condition -/

/-- The scp-like form, with the host between the first at sign and the first colon. -/
def ScpRemote (remote host path : Bytes) : Prop :=
  ¬ bytes "://" <:+: remote ∧ ∃ user, remote = user ++ 0x40 :: (host ++ 0x3A :: path) ∧
    0x40 ∉ user ∧ 0x3A ∉ user ∧ 0x3A ∉ host

/-- A URL. -/
def UrlRemote (remote host path : Bytes) : Prop :=
  bytes "://" <:+: remote ∧ ∃ url, parser.parse remote = some url ∧ url.host ≠ [] ∧
    url.hostname = host ∧ url.path = path

/-- A remote is plain if a host of the scp-like form that is linked holds no delimiter, and one
of a URL no colon outside brackets. -/
def PlainRemote (remote : Bytes) : Prop :=
  ∀ host path, host ≠ [] → isGitHubHost lower host = true → repositoryPath path ≠ [] →
    (ScpRemote remote host path → ∀ byte ∈ host, byte ∉ bytes "/?#@") ∧
    (UrlRemote parser remote host path → 0x3A ∉ host.rtakeWhile (· ≠ 0x5D))

/-! ### Delimiting -/

theorem withoutPort_length_le (host : Bytes) : (withoutPort host).length ≤ host.length := by
  have whole : host.rdropWhile (· ≠ 0x5D) ++ host.rtakeWhile (· ≠ 0x5D) = host :=
    List.rdropWhile_append_rtakeWhile
  have parts := congrArg List.length whole
  rw [List.length_append] at parts
  have short := (List.takeWhile_prefix (· ≠ 0x3A) (l := host.rtakeWhile (· ≠ 0x5D))).length_le
  rw [withoutPort, List.length_append]
  omega

theorem withoutPort_eq_self_iff (host : Bytes) :
    withoutPort host = host ↔ 0x3A ∉ host.rtakeWhile (· ≠ 0x5D) := by
  have parts : host.rdropWhile (· ≠ 0x5D) ++ host.rtakeWhile (· ≠ 0x5D) = host :=
    List.rdropWhile_append_rtakeWhile
  have same : withoutPort host = host ↔
      (host.rtakeWhile (· ≠ 0x5D)).takeWhile (· ≠ 0x3A) = host.rtakeWhile (· ≠ 0x5D) := by
    conv_lhs => rhs; rw [← parts]
    rw [withoutPort, List.append_cancel_left_eq]
  rw [same, List.takeWhile_eq_self_iff]
  constructor
  · intro plain member
    simpa using plain _ member
  · intro free byte member
    rw [decide_eq_true_eq]
    rintro rfl
    exact free member

theorem takeWhile_append_slash (host path : Bytes) :
    (host ++ 0x2F :: path).takeWhile (· ∉ bytes "/?#") = host.takeWhile (· ∉ bytes "/?#") := by
  have slash : decide ((0x2F : UInt8) ∉ bytes "/?#") = false := by decide
  induction host with
  | nil => rw [List.nil_append, List.takeWhile_cons, slash, List.takeWhile_nil]; rfl
  | cons byte host inductionHypothesis =>
    rw [List.cons_append, List.takeWhile_cons, List.takeWhile_cons, inductionHypothesis]

/-- The host of a link is the host put into it exactly when nothing in it ends or starts one. -/
theorem linkHost_eq_iff (host path : Bytes) :
    linkHost (bytes "https://" ++ (host ++ 0x2F :: path)) = host ↔
      (∀ byte ∈ host, byte ∉ bytes "/?#@") ∧ 0x3A ∉ host.rtakeWhile (· ≠ 0x5D) := by
  have scheme : bytes "https://" = bytes "https:" ++ (0x2F :: [0x2F]) := by decide
  have slashes : bytes "//" = 0x2F :: [0x2F] := by decide
  have found : cutText (bytes "https://" ++ (host ++ 0x2F :: path)) (bytes "//") =
      some (bytes "https:", host ++ 0x2F :: path) := by
    rw [scheme, slashes, List.append_assoc]
    exact cutText_append_of_notMem (by decide)
  have signs : ∀ byte, byte ∉ bytes "/?#@" ↔ byte ∉ bytes "/?#" ∧ byte ≠ 0x40 := by
    intro byte
    have literal : bytes "/?#@" = bytes "/?#" ++ [0x40] := by decide
    rw [literal, List.mem_append, not_or, List.mem_singleton]
  have front : ∀ text : Bytes, text.takeWhile (· ∉ bytes "/?#") = text ↔
      ∀ byte ∈ text, byte ∉ bytes "/?#" := by
    intro text
    simp only [List.takeWhile_eq_self_iff, decide_eq_true_eq]
  have back : ∀ text : Bytes, text.rtakeWhile (· ≠ 0x40) = text ↔ ∀ byte ∈ text, byte ≠ 0x40 := by
    intro text
    simp only [List.rtakeWhile_eq_self_iff, decide_eq_true_eq]
  simp only [linkHost, found, takeWhile_append_slash, signs]
  constructor
  · intro same
    -- Each cut only shortens, so none of them cuts anything.
    have first := (List.takeWhile_prefix (· ∉ bytes "/?#") (l := host)).length_le
    have second := (List.rtakeWhile_suffix (· ≠ 0x40)
      (host.takeWhile (· ∉ bytes "/?#"))).length_le
    have third := withoutPort_length_le
      ((host.takeWhile (· ∉ bytes "/?#")).rtakeWhile (· ≠ 0x40))
    rw [same] at third
    have whole := (List.takeWhile_prefix (· ∉ bytes "/?#")).eq_of_length
      (Nat.le_antisymm first (third.trans second))
    rw [whole] at same third
    have entire := (List.rtakeWhile_suffix (· ≠ 0x40) host).eq_of_length
      (Nat.le_antisymm (List.rtakeWhile_suffix _ _).length_le third)
    rw [entire] at same
    exact ⟨fun byte member =>
        ⟨(front host).mp whole byte member, (back host).mp entire byte member⟩,
      (withoutPort_eq_self_iff host).mp same⟩
  · intro ⟨plain, noPort⟩
    rw [(front host).mpr fun byte member => (plain byte member).1,
      (back host).mpr fun byte member => (plain byte member).2]
    exact (withoutPort_eq_self_iff host).mpr noPort

/-! ### Splitting -/

theorem ParsedUrl.hostname_subset (url : ParsedUrl) : url.hostname ⊆ url.host := by
  have shorter : ∀ text : Bytes,
      (if text.head? = some 0x5B ∧ text.getLast? = some 0x5D then text.tail.dropLast else text) ⊆
        text := by
    intro text
    split
    next => exact fun _ member => List.mem_of_mem_tail ((List.dropLast_prefix _).subset member)
    next => exact List.Subset.refl _
  refine List.Subset.trans (shorter _) ?_
  split
  next =>
    exact fun _ member =>
      ((List.dropLast_prefix _).trans (List.rdropWhile_prefix _ _)).subset member
  next => exact List.Subset.refl _

/-- An index, as the parts around it. -/
theorem idxOf_eq_some_iff {text : Bytes} {byte : UInt8} {index : Nat} :
    text.idxOf? byte = some index ↔
      ∃ front back, text = front ++ byte :: back ∧ byte ∉ front ∧ front.length = index := by
  induction text generalizing index with
  | nil => simp
  | cons first rest inductionHypothesis =>
    rw [List.idxOf?_cons]
    by_cases same : first = byte
    · subst same
      simp only [BEq.rfl, if_true, Option.some.injEq]
      constructor
      · rintro rfl
        exact ⟨[], rest, rfl, List.not_mem_nil, rfl⟩
      · rintro ⟨front, back, split, free, rfl⟩
        cases front with
        | nil => rfl
        | cons letter front => exact absurd (List.cons.inj split).1 (by rintro rfl; simp at free)
    · have other : (first == byte) = false := beq_false_of_ne same
      simp only [other, Bool.false_eq_true, if_false, Option.map_eq_some_iff, inductionHypothesis]
      constructor
      · rintro ⟨_, ⟨front, back, rfl, free, rfl⟩, rfl⟩
        exact ⟨first :: front, back, rfl, by simp [free, Ne.symm same], rfl⟩
      · rintro ⟨front, back, split, free, rfl⟩
        cases front with
        | nil => exact absurd (List.cons.inj split).1 same
        | cons letter front =>
          exact ⟨_, ⟨front, back, (List.cons.inj split).2, by simp_all, rfl⟩, rfl⟩

/-- The parts of the scp-like form, by the indices of the at sign and the colon. -/
theorem scpRemote_iff {remote host path : Bytes} (scp : ¬ bytes "://" <:+: remote) :
    ScpRemote remote host path ↔ ∃ sign colon, remote.idxOf? 0x40 = some sign ∧
      remote.idxOf? 0x3A = some colon ∧ ¬ colon < sign ∧
      (remote.take colon).drop (sign + 1) = host ∧ remote.drop (colon + 1) = path := by
  simp only [ScpRemote, scp, not_false_eq_true, true_and, idxOf_eq_some_iff]
  constructor
  · rintro ⟨user, rfl, noSign, noColon, free⟩
    refine ⟨user.length, (user ++ 0x40 :: host).length, ⟨user, _, rfl, noSign, rfl⟩,
      ⟨user ++ 0x40 :: host, path, by simp, by simp [noColon, free], rfl⟩, by simp, ?_, ?_⟩
    · have whole : user ++ 0x40 :: (host ++ 0x3A :: path) =
          (user ++ 0x40 :: host) ++ 0x3A :: path := by simp
      rw [whole, List.take_left, ← List.drop_drop, List.drop_left]
      rfl
    · have whole : user ++ 0x40 :: (host ++ 0x3A :: path) =
          (user ++ 0x40 :: host) ++ 0x3A :: path := by simp
      rw [whole, ← List.drop_drop, List.drop_left]
      rfl
  · rintro ⟨_, _, ⟨user, back, rfl, noSign, rfl⟩, ⟨front, rest, split, noColon, rfl⟩, after,
      hostEq, pathEq⟩
    rcases List.append_eq_append_iff.mp split with ⟨more, rfl, tail⟩ | ⟨more, rfl, tail⟩
    · cases more with
      | nil => exact absurd (List.cons.inj tail).1 (by decide)
      | cons sign more =>
        obtain ⟨rfl, later⟩ := List.cons.inj tail
        have behind : back = more ++ 0x3A :: rest := later
        subst behind
        have whole : user ++ 0x40 :: (more ++ 0x3A :: rest) =
            (user ++ 0x40 :: more) ++ 0x3A :: rest := by simp
        rw [whole, List.take_left, ← List.drop_drop, List.drop_left] at hostEq
        rw [whole, ← List.drop_drop, List.drop_left] at pathEq
        have host' : more = host := hostEq
        have path' : rest = path := pathEq
        subst host' path'
        simp only [List.mem_append, List.mem_cons, not_or] at noColon
        exact ⟨user, rfl, noSign, noColon.1, noColon.2.2⟩
    · cases more with
      | nil => exact absurd (List.cons.inj tail).1 (by decide)
      | cons colon more =>
        rw [List.length_append, List.length_cons] at after
        omega

theorem splitRemote_eq_iff {remote host path : Bytes} (nonempty : host ≠ []) :
    splitRemote parser remote = (host, path) ↔
      ScpRemote remote host path ∨ UrlRemote parser remote host path := by
  have none : ([], []) = (host, path) ↔ False := by
    simp [nonempty.symm]
  rw [splitRemote]
  by_cases url : bytes "://" <:+: remote
  · have noScp : ¬ ScpRemote remote host path := fun scp => scp.1 url
    simp only [url, not_true, if_false, noScp, false_or, UrlRemote, true_and]
    split
    next refused => simp [none, refused]
    next parsed found =>
      simp only [found, Option.some.injEq, exists_eq_left']
      split
      next empty => simp [none, empty]
      next given => simp [given]
  · have noUrl : ¬ UrlRemote parser remote host path := fun given => url given.1
    simp only [url, not_false_eq_true, if_true, noUrl, or_false, scpRemote_iff url]
    split
    next sign colon atSign atColon =>
      simp only [atSign, atColon, Option.some.injEq]
      split
      next before => simp [none, before]
      next after => simp [after]
    next missing =>
      rw [none, false_iff]
      rintro ⟨sign, colon, atSign, atColon, -⟩
      exact missing sign colon atSign atColon

/-! ### Links -/

/-- A remote that gets a link, and the link. -/
theorem webURL_eq {remote host path : Bytes} (read : splitRemote parser remote = (host, path)) :
    webURL parser lower remote =
      if host ≠ [] ∧ isGitHubHost lower host = true ∧ repositoryPath path ≠ [] then
        bytes "https://" ++ (host ++ 0x2F :: repositoryPath path)
      else [] := by
  simp only [webURL, read]
  by_cases nonempty : host = []
  · simp [nonempty]
  by_cases empty : repositoryPath path = []
  · simp [empty]
  cases isGitHubHost lower host <;> simp [nonempty, empty]

/-- The host of a remote that is linked, as the condition speaks of it. -/
theorem PlainRemote.delimited {remote host path : Bytes} (plain : PlainRemote parser lower remote)
    (read : splitRemote parser remote = (host, path)) (nonempty : host ≠ [])
    (gitHub : isGitHubHost lower host = true) (given : repositoryPath path ≠ []) :
    (∀ byte ∈ host, byte ∉ bytes "/?#@") ∧ 0x3A ∉ host.rtakeWhile (· ≠ 0x5D) := by
  have forms := plain host path nonempty gitHub given
  rcases (splitRemote_eq_iff parser nonempty).mp read with scp | url
  · obtain ⟨user, -, -, -, free⟩ := scp.2
    exact ⟨forms.1 scp, fun member => free ((List.rtakeWhile_suffix _ _).subset member)⟩
  · obtain ⟨parsed, found, -, rfl, -⟩ := url.2
    exact ⟨fun byte member => parser.delimited remote parsed found byte
      (parsed.hostname_subset member), forms.2 url⟩

/-- Links lead to the tested host exactly for the plain remotes. -/
theorem linksToTested_iff (remote : Bytes) :
    LinksToTested parser lower remote ↔ PlainRemote parser lower remote := by
  constructor
  · intro links host path nonempty gitHub given
    have delimited : splitRemote parser remote = (host, path) →
        (∀ byte ∈ host, byte ∉ bytes "/?#@") ∧ 0x3A ∉ host.rtakeWhile (· ≠ 0x5D) := by
      intro read
      have link := webURL_eq parser lower read
      rw [if_pos ⟨nonempty, gitHub, given⟩] at link
      have tested := (links (by rw [link]; simp)).2.2
      rw [read, link] at tested
      exact (linkHost_eq_iff host _).mp tested
    have forms : splitRemote parser remote = (host, path) ↔
        ScpRemote remote host path ∨ UrlRemote parser remote host path :=
      splitRemote_eq_iff parser nonempty
    exact ⟨fun scp => (delimited (forms.mpr (Or.inl scp))).1,
      fun url => (delimited (forms.mpr (Or.inr url))).2⟩
  · intro plain linked
    have read : splitRemote parser remote =
        ((splitRemote parser remote).1, (splitRemote parser remote).2) := rfl
    have link := webURL_eq parser lower read
    split at link
    next all =>
      have delimited := plain.delimited parser lower read all.1 all.2.1 all.2.2
      have same := (linkHost_eq_iff (splitRemote parser remote).1
        (repositoryPath (splitRemote parser remote).2)).mpr delimited
      rw [link, same]
      exact ⟨List.prefix_append _ _, all.2.1, rfl⟩
    next => exact absurd link linked

end Links

/-! ### A link to another host -/

/-- A parser of URLs without user, port or escapes. -/
def plainParser : UrlParser where
  parse raw :=
    match cutText raw (bytes "://") with
    | none => none
    | some (_, rest) =>
      let host := rest.takeWhile (· ≠ 0x2F)
      if host.all fun byte => byte ∉ bytes "/?#@" then some ⟨host, rest.dropWhile (· ≠ 0x2F)⟩
      else none
  delimited := by
    intro raw url found
    split at found
    next => exact absurd found (by simp)
    next rest _ =>
      dsimp only at found
      split at found
      next plain =>
        obtain rfl := Option.some.inj found
        intro byte member
        exact of_decide_eq_true (List.all_eq_true.mp plain byte member)
      next => exact absurd found (by simp)

/-- A remote at another host is linked, and the link leads to that host. -/
theorem webURL_evil :
    webURL plainParser id (bytes "git@evil.com/github:org/repo") =
        bytes "https://evil.com/github/org/repo" ∧
      linkHost (bytes "https://evil.com/github/org/repo") = bytes "evil.com" ∧
      isGitHubHost id (bytes "evil.com") = false ∧
      ¬ LinksToTested plainParser id (bytes "git@evil.com/github:org/repo") := by
  have linked : webURL plainParser id (bytes "git@evil.com/github:org/repo") =
      bytes "https://evil.com/github/org/repo" := by decide +kernel
  have host : linkHost (bytes "https://evil.com/github/org/repo") = bytes "evil.com" := by
    decide +kernel
  have other : isGitHubHost id (bytes "evil.com") = false := by decide +kernel
  refine ⟨linked, host, other, fun links => ?_⟩
  have tested := (links (by rw [linked]; decide +kernel)).2.1
  rw [linked, host, other] at tested
  exact absurd tested (by decide)

end Multimux
