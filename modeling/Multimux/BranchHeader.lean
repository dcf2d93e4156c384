/-
This file proves when the parser of git's status header reads the state that
git printed. The optional parts are told apart by texts that no ref name can
contain, a space or two dots in a row, so every name is read for itself. Two
things go wrong: the form without commits returns all that follows its words,
although an upstream or a detached head may follow them as well, and a name
loses white space that git allows in it, such as a no-break space.
-/

import Multimux.Bytes
import Multimux.Hostname

namespace Multimux

/-! ### The parser -/

/-- What `parseBranchHeader` returns. -/
structure BranchFields where
  branch : Bytes
  ahead : Int
  behind : Int
  noUpstream : Bool
  deriving DecidableEq

/-- One part between the brackets, such as `ahead 2`. -/
def trackingPart (counts : Int × Int) (part : Bytes) : Int × Int :=
  match cut part 0x20 with
  | none => counts
  | some (kind, num) =>
    match parseInt (letters num) with
    | none => counts
    | some n =>
      if kind = bytes "ahead" then (n, counts.2)
      else if kind = bytes "behind" then (counts.1, n)
      else counts

/-- The ahead and behind counts behind an upstream. -/
def trackingCounts (tracking : Bytes) : Int × Int :=
  match cutText tracking (bytes " [") with
  | none => (0, 0)
  | some (_, inside) =>
    if bytes "]" <:+ tracking then
      (splitText inside.dropLast (bytes ", ")).foldl trackingPart (0, 0)
    else (0, 0)

/-- The words before the name of a branch without commits, also those of git before 2.15. -/
def unbornWords : List Bytes := [bytes "No commits yet on ", bytes "Initial commit on "]

/-- What is made of the first line of `git status`. -/
def parseBranchHeader (line : Bytes) : BranchFields :=
  let rest := (cutPrefix line (bytes "## ")).getD line
  if bytes "HEAD (no branch)" <+: rest then ⟨[], 0, 0, false⟩
  else
    match unbornWords.findSome? (cutPrefix rest) with
    | some name => ⟨trimSpaces name, 0, 0, false⟩
    | none =>
      match cutText rest (bytes "...") with
      | none => ⟨trimSpaces rest, 0, 0, trimSpaces rest ≠ []⟩
      | some (name, tracking) =>
        ⟨trimSpaces name, (trackingCounts tracking).1, (trackingCounts tracking).2, false⟩

/-! ### What git prints -/

/-- The rules of `git check-ref-format` for a name of one level or more. -/
structure ValidRef (name : Bytes) : Prop where
  nonempty : name ≠ []
  notAt : name ≠ bytes "@"
  plain : ∀ byte ∈ name, 0x20 < byte ∧ byte ≠ 0x7F ∧ byte ∉ bytes "~^:?*[\\"
  noDots : ¬ bytes ".." <:+: name
  noBrace : ¬ bytes "@\x7b" <:+: name
  ending : ¬ bytes "." <:+ name
  component : ∀ part ∈ name.splitOn 0x2F,
    part ≠ [] ∧ ¬ bytes "." <+: part ∧ ¬ bytes ".lock" <:+ part

/-- A name that git accepts for a reference. -/
structure RefName where
  text : Bytes
  valid : ValidRef text

/-- How a branch stands to its upstream. -/
inductive Tracking
  | level
  | ahead (count : Nat)
  | behind (count : Nat)
  | diverged (ours theirs : Nat)
  | gone

/-- What is checked out: a commit, or a branch with the state of its upstream. -/
inductive HeadState
  | detached
  | branch (name : RefName) (upstream : Option (RefName × Tracking))

/-- The state whose header git prints. -/
structure RepoState where
  unborn : Bool
  head : HeadState

/-- A count in decimal. -/
def decimal (count : Nat) : Bytes := ofLetters (Nat.toDigits 10 count)

/-- How git writes the state of an upstream. -/
def Tracking.text : Tracking → Bytes
  | level => []
  | ahead count => bytes " [ahead " ++ decimal count ++ bytes "]"
  | behind count => bytes " [behind " ++ decimal count ++ bytes "]"
  | diverged ours theirs =>
    bytes " [ahead " ++ decimal ours ++ bytes ", behind " ++ decimal theirs ++ bytes "]"
  | gone => bytes " [gone]"

/-- How git writes the header. -/
def HeadState.text : HeadState → Bytes
  | detached => bytes "HEAD (no branch)"
  | branch name none => name.text
  | branch name (some (upstream, tracking)) =>
    name.text ++ (bytes "..." ++ (upstream.text ++ tracking.text))

/-- The header of `git status --porcelain --branch`. -/
def RepoState.header (state : RepoState) : Bytes :=
  bytes "## " ++ ((if state.unborn then bytes "No commits yet on " else []) ++ state.head.text)

/-- The counts that the header tells: ahead and behind. -/
def Tracking.counts : Tracking → Nat × Nat
  | level => (0, 0)
  | ahead count => (count, 0)
  | behind count => (0, count)
  | diverged ours theirs => (ours, theirs)
  | gone => (0, 0)

/-- What the parser is to return for a state. -/
def RepoState.fields (state : RepoState) : BranchFields :=
  match state.head with
  | .detached => ⟨[], 0, 0, false⟩
  | .branch name none => ⟨name.text, 0, 0, ¬ state.unborn⟩
  | .branch name (some (_, tracking)) =>
    ⟨name.text, tracking.counts.1, tracking.counts.2, false⟩

/-! ### The condition -/

/-- No white space starts or ends the name. -/
def RefName.Solid (name : RefName) : Prop :=
  ∀ word ∈ spaces, ¬ word <+: name.text ∧ ¬ word <:+ name.text

/-- The counts are numbers of 64 bits. -/
def Tracking.Fits (tracking : Tracking) : Prop :=
  tracking.counts.1 < int64Half ∧ tracking.counts.2 < int64Half

/-- The states whose header is read back. -/
def RepoState.Readable (state : RepoState) : Prop :=
  match state.head with
  | .detached => state.unborn = false
  | .branch name none => name.Solid
  | .branch name (some (_, tracking)) => name.Solid ∧ tracking.Fits ∧ state.unborn = false

/-! ### Counts -/

theorem byte_of_mem_decimal {count : Nat} {byte : UInt8} (member : byte ∈ decimal count) :
    0x30 ≤ byte.toNat ∧ byte.toNat ≤ 0x39 := by
  obtain ⟨letter, listed, rfl⟩ := List.mem_map.mp member
  have digit := Nat.isDigit_of_mem_toDigits (by decide) (by decide) listed
  rw [Char.isDigit, Bool.and_eq_true, decide_eq_true_eq, decide_eq_true_eq] at digit
  have low : 48 ≤ letter.toNat := digit.1
  have high : letter.toNat ≤ 57 := digit.2
  rw [UInt8.toNat_ofNat']
  omega

theorem notMem_decimal {count : Nat} {byte : UInt8} (other : byte.toNat < 0x30) :
    byte ∉ decimal count := fun member =>
  absurd (byte_of_mem_decimal member).1 (Nat.not_le.mpr other)

theorem letters_decimal (count : Nat) : letters (decimal count) = Nat.toDigits 10 count := by
  rw [letters, decimal, ofLetters, List.map_map]
  refine (List.map_congr_left fun letter member => ?_).trans (List.map_id _)
  have digit := Nat.isDigit_of_mem_toDigits (by decide) (by decide) member
  rw [Char.isDigit, Bool.and_eq_true, decide_eq_true_eq, decide_eq_true_eq] at digit
  have high : letter.toNat ≤ 57 := digit.2
  rw [Function.comp_apply, UInt8.toNat_ofNat', Nat.mod_eq_of_lt (by omega), Char.ofNat_toNat, id]

theorem parseDigits_toDigits (count : Nat) : parseDigits (Nat.toDigits 10 count) = some count := by
  have digits : (Nat.toDigits 10 count).all Char.isDigit = true := by
    rw [List.all_eq_true]
    exact fun letter member => Nat.isDigit_of_mem_toDigits (by decide) (by decide) member
  rw [parseDigits, if_pos ⟨Nat.toDigits_ne_nil, digits⟩, ← Nat.ofDigitChars_eq_foldl,
    Nat.ofDigitChars_ten_toDigits]

theorem parseInt_decimal (count : Nat) : parseInt (letters (decimal count)) =
    if count < int64Half then some (count : Int) else none := by
  have unsigned : ∀ letter rest, Nat.toDigits 10 count = letter :: rest → letter.isDigit := by
    intro letter rest spelled
    exact Nat.isDigit_of_mem_toDigits (by decide) (by decide)
      (spelled ▸ List.mem_cons_self (a := letter) (l := rest))
  rw [letters_decimal, parseInt, parseDigits_toDigits]
  · rfl
  · intro rest spelled
    exact absurd (unsigned _ _ spelled) (by decide)
  · intro rest spelled
    exact absurd (unsigned _ _ spelled) (by decide)

/-- The number read for a count. -/
def readCount (count : Nat) : Int := if count < int64Half then count else 0

theorem readCount_eq_iff (count : Nat) : readCount count = count ↔ count < int64Half := by
  rw [readCount]
  split
  next fits => simp [fits]
  next large =>
    have positive : count ≠ 0 := by
      rintro rfl
      exact large (by decide)
    simp only [large, iff_false]
    exact fun same => positive (Int.natCast_eq_zero.mp same.symm)

theorem trackingPart_ahead (count : Nat) (behind : Int) :
    trackingPart (0, behind) (bytes "ahead " ++ decimal count) = (readCount count, behind) := by
  have words : bytes "ahead " ++ decimal count = bytes "ahead" ++ 0x20 :: decimal count := by
    have literal : bytes "ahead " = bytes "ahead" ++ [0x20] := by decide
    rw [literal, List.append_assoc, List.singleton_append]
  rw [words, trackingPart, cut_append (by decide)]
  by_cases fits : count < int64Half
  · simp only [parseInt_decimal, readCount, if_pos fits, if_true]
  · simp only [parseInt_decimal, readCount, if_neg fits]

theorem trackingPart_behind (count : Nat) (ahead : Int) :
    trackingPart (ahead, 0) (bytes "behind " ++ decimal count) = (ahead, readCount count) := by
  have words : bytes "behind " ++ decimal count = bytes "behind" ++ 0x20 :: decimal count := by
    have literal : bytes "behind " = bytes "behind" ++ [0x20] := by decide
    rw [literal, List.append_assoc, List.singleton_append]
  have other : bytes "behind" ≠ bytes "ahead" := by decide
  rw [words, trackingPart, cut_append (by decide)]
  by_cases fits : count < int64Half
  · simp only [parseInt_decimal, readCount, if_pos fits, if_neg other, if_true]
  · simp only [parseInt_decimal, readCount, if_neg fits]

/-! ### The upstream -/

theorem RefName.noSpace (name : RefName) : (0x20 : UInt8) ∉ name.text := fun member =>
  absurd (name.valid.plain _ member).1 (by decide)

theorem trackingCounts_bracketed (upstream : RefName) (inner : Bytes) :
    trackingCounts (upstream.text ++ (bytes " [" ++ (inner ++ bytes "]"))) =
      (splitText inner (bytes ", ")).foldl trackingPart (0, 0) := by
  have opening : bytes " [" = 0x20 :: bytes "[" := by decide
  have closing : bytes "]" = [0x5D] := by decide
  have found : cutText (upstream.text ++ (bytes " [" ++ (inner ++ bytes "]"))) (bytes " [") =
      some (upstream.text, inner ++ bytes "]") := by
    rw [opening]
    exact cutText_append_of_notMem upstream.noSpace
  have ending : bytes "]" <:+ upstream.text ++ (bytes " [" ++ (inner ++ bytes "]")) := by
    simp only [← List.append_assoc]
    exact List.suffix_append _ _
  rw [trackingCounts, found]
  show (if bytes "]" <:+ _ then _ else _) = _
  rw [if_pos ending, closing, List.dropLast_concat]

theorem splitText_single {inner : Bytes} (free : (0x2C : UInt8) ∉ inner) :
    splitText inner (bytes ", ") = [inner] := by
  refine splitText_of_notInfix fun inside => free (inside.subset ?_)
  decide

theorem splitText_both {front back : Bytes} (free : (0x2C : UInt8) ∉ front)
    (last : (0x2C : UInt8) ∉ back) :
    splitText (front ++ (bytes ", " ++ back)) (bytes ", ") = [front, back] := by
  have literal : bytes ", " = 0x2C :: bytes " " := by decide
  rw [literal]
  exact splitText_pair free last

theorem noComma_count {word : Bytes} (free : (0x2C : UInt8) ∉ word) (count : Nat) :
    (0x2C : UInt8) ∉ word ++ decimal count := by
  rw [List.mem_append, not_or]
  exact ⟨free, notMem_decimal (by decide)⟩

/-- The counts read behind an upstream, whatever its name. -/
theorem trackingCounts_text (upstream : RefName) (tracking : Tracking) :
    trackingCounts (upstream.text ++ tracking.text) =
      (readCount tracking.counts.1, readCount tracking.counts.2) := by
  have zero : readCount 0 = 0 := rfl
  have aheadFree : (0x2C : UInt8) ∉ bytes "ahead " := by decide
  have behindFree : (0x2C : UInt8) ∉ bytes "behind " := by decide
  have aheadWords : bytes " [ahead " = bytes " [" ++ bytes "ahead " := by decide
  cases tracking with
  | level =>
    have none : cutText upstream.text (bytes " [") = none :=
      cutText_eq_none_iff.mpr fun inside => upstream.noSpace (inside.subset (by decide))
    rw [Tracking.text, List.append_nil, trackingCounts, none]
    rfl
  | ahead count =>
    have spelled : (Tracking.ahead count).text =
        bytes " [" ++ ((bytes "ahead " ++ decimal count) ++ bytes "]") := by
      simp only [Tracking.text, aheadWords, List.append_assoc]
    rw [spelled, trackingCounts_bracketed, splitText_single (noComma_count aheadFree count),
      List.foldl_cons, List.foldl_nil, trackingPart_ahead]
    rfl
  | behind count =>
    have words : bytes " [behind " = bytes " [" ++ bytes "behind " := by decide
    have spelled : (Tracking.behind count).text =
        bytes " [" ++ ((bytes "behind " ++ decimal count) ++ bytes "]") := by
      simp only [Tracking.text, words, List.append_assoc]
    rw [spelled, trackingCounts_bracketed, splitText_single (noComma_count behindFree count),
      List.foldl_cons, List.foldl_nil, trackingPart_behind]
    rfl
  | diverged ours theirs =>
    have words : bytes ", behind " = bytes ", " ++ bytes "behind " := by decide
    have spelled : (Tracking.diverged ours theirs).text =
        bytes " [" ++ (((bytes "ahead " ++ decimal ours) ++
          (bytes ", " ++ (bytes "behind " ++ decimal theirs))) ++ bytes "]") := by
      simp only [Tracking.text, aheadWords, words, List.append_assoc]
    rw [spelled, trackingCounts_bracketed,
      splitText_both (noComma_count aheadFree ours) (noComma_count behindFree theirs),
      List.foldl_cons, List.foldl_cons, List.foldl_nil, trackingPart_ahead, trackingPart_behind]
    rfl
  | gone =>
    have words : Tracking.gone.text = bytes " [" ++ (bytes "gone" ++ bytes "]") := by
      decide
    have noCount : cut (bytes "gone") 0x20 = none := if_neg (by decide)
    rw [words, trackingCounts_bracketed, splitText_single (by decide), List.foldl_cons,
      List.foldl_nil, trackingPart, noCount]
    rfl

theorem Tracking.fits_iff (tracking : Tracking) :
    (readCount tracking.counts.1, readCount tracking.counts.2) =
      ((tracking.counts.1 : Int), (tracking.counts.2 : Int)) ↔ tracking.Fits := by
  rw [Prod.mk.injEq, readCount_eq_iff, readCount_eq_iff, Tracking.Fits]

/-! ### The forms of the header -/

theorem cutPrefix_eq_none {text front : Bytes} (other : ¬ front <+: text) :
    cutPrefix text front = none := if_neg other

/-- A word and a space do not start a text whose first word holds a dot that the word lacks. -/
theorem not_prefix_of_dot {word more front back : Bytes} (noDot : (0x2E : UInt8) ∉ word)
    (noSpace : (0x20 : UInt8) ∉ front) (dot : (0x2E : UInt8) ∈ front) :
    ¬ word ++ 0x20 :: more <+: front ++ back := by
  intro starts
  have spaced : word ++ [0x20] <+: front ++ back :=
    (List.prefix_append_right_inj word |>.mpr (List.cons_prefix_cons.mpr
      ⟨rfl, List.nil_prefix⟩)).trans starts
  rcases List.prefix_or_prefix_of_prefix spaced (List.prefix_append front back) with
    inside | around
  · exact noSpace (inside.subset (by simp))
  · have member := around.subset dot
    rw [List.mem_append, List.mem_singleton] at member
    rcases member with within | same
    · exact noDot within
    · exact absurd same (by decide)

theorem parse_unborn (text : Bytes) :
    parseBranchHeader (bytes "## " ++ (bytes "No commits yet on " ++ text)) =
      ⟨trimSpaces text, 0, 0, false⟩ := by
  have first : bytes "HEAD (no branch)" = 0x48 :: bytes "EAD (no branch)" := by decide
  have word : bytes "No commits yet on " = 0x4E :: bytes "o commits yet on " := by
    decide
  have other : ¬ bytes "HEAD (no branch)" <+: bytes "No commits yet on " ++ text := by
    rw [first, word, List.cons_append, List.cons_prefix_cons]
    exact fun both => absurd both.1 (by decide)
  have found : unbornWords.findSome? (cutPrefix (bytes "No commits yet on " ++ text)) =
      some text := by
    rw [unbornWords, List.findSome?_cons, cutPrefix_append]
  simp only [parseBranchHeader, cutPrefix_append, Option.getD_some, if_neg other, found]

/-- A text that none of the words starts is read as a branch. -/
theorem parse_born {text : Bytes} (attached : ¬ bytes "HEAD (no branch)" <+: text)
    (born : ∀ words ∈ unbornWords, ¬ words <+: text) :
    parseBranchHeader (bytes "## " ++ text) =
      match cutText text (bytes "...") with
      | none => ⟨trimSpaces text, 0, 0, trimSpaces text ≠ []⟩
      | some (name, tracking) =>
        ⟨trimSpaces name, (trackingCounts tracking).1, (trackingCounts tracking).2, false⟩ := by
  have missed : unbornWords.findSome? (cutPrefix text) = none :=
    List.findSome?_eq_none_iff.mpr fun words member => cutPrefix_eq_none (born words member)
  simp only [parseBranchHeader, cutPrefix_append, Option.getD_some, if_neg attached, missed]

theorem parse_branch (name : RefName) : parseBranchHeader (bytes "## " ++ name.text) =
    ⟨trimSpaces name.text, 0, 0, trimSpaces name.text ≠ []⟩ := by
  have spaced : ∀ words : Bytes, (0x20 : UInt8) ∈ words → ¬ words <+: name.text :=
    fun words space starts => name.noSpace (starts.subset space)
  have detached := spaced (bytes "HEAD (no branch)") (by decide)
  have unborn : ∀ words ∈ unbornWords, ¬ words <+: name.text := by
    intro words member
    refine spaced words ?_
    revert words
    decide
  have dots : ¬ bytes "..." <:+: name.text := by
    intro inside
    refine name.valid.noDots (List.IsInfix.trans ?_ inside)
    decide
  rw [parse_born detached unborn, cutText_eq_none_iff.mpr dots]

/-- The first three dots of a header stand behind the branch. -/
theorem cutText_upstream (name : RefName) (rest : Bytes) :
    cutText (name.text ++ (bytes "..." ++ rest)) (bytes "...") = some (name.text, rest) := by
  have dots : bytes "..." = [0x2E, 0x2E, 0x2E] := by decide
  have twoDots : bytes ".." = [0x2E, 0x2E] := by decide
  have oneDot : bytes "." = [0x2E] := by decide
  refine cutText_append fun back suffix nonempty starts => ?_
  rw [dots] at starts
  obtain ⟨first, more, rfl⟩ := List.exists_cons_of_ne_nil nonempty
  have heads := List.cons_prefix_cons.mp starts
  cases more with
  | nil =>
    have last : bytes "." = [first] := by rw [oneDot, heads.1]
    exact name.valid.ending (last ▸ suffix)
  | cons second more =>
    have seconds := List.cons_prefix_cons.mp heads.2
    refine name.valid.noDots (List.IsInfix.trans ?_ suffix.isInfix)
    rw [twoDots, ← heads.1, ← seconds.1]
    exact (List.prefix_append [0x2E, 0x2E] more).isInfix

theorem parse_upstream (name upstream : RefName) (tracking : Tracking) :
    parseBranchHeader (bytes "## " ++
        (name.text ++ (bytes "..." ++ (upstream.text ++ tracking.text)))) =
      ⟨trimSpaces name.text, readCount tracking.counts.1, readCount tracking.counts.2, false⟩ := by
  have dots : bytes "..." = [0x2E, 0x2E, 0x2E] := by decide
  have noSpace : (0x20 : UInt8) ∉ name.text ++ (bytes "..." ++ upstream.text) := by
    simp only [dots, List.mem_append, not_or]
    exact ⟨name.noSpace, by decide, upstream.noSpace⟩
  have dot : (0x2E : UInt8) ∈ name.text ++ (bytes "..." ++ upstream.text) := by
    simp [dots]
  have other : ∀ word more, (0x2E : UInt8) ∉ word → ¬ word ++ 0x20 :: more <+:
      name.text ++ (bytes "..." ++ (upstream.text ++ tracking.text)) := by
    intro word more noDot
    have free : ¬ word ++ 0x20 :: more <+:
        (name.text ++ (bytes "..." ++ upstream.text)) ++ tracking.text :=
      not_prefix_of_dot noDot noSpace dot
    simpa only [List.append_assoc] using free
  have head : bytes "HEAD (no branch)" = bytes "HEAD" ++ 0x20 :: bytes "(no branch)" := by
    decide
  have yet : bytes "No commits yet on " = bytes "No" ++ 0x20 :: bytes "commits yet on " := by
    decide
  have initial : bytes "Initial commit on " = bytes "Initial" ++ 0x20 :: bytes "commit on " := by
    decide
  have detached := other (bytes "HEAD") (bytes "(no branch)") (by decide)
  have unborn : ∀ words ∈ unbornWords, ¬ words <+:
      name.text ++ (bytes "..." ++ (upstream.text ++ tracking.text)) := by
    intro words member
    rw [unbornWords, List.mem_cons, List.mem_singleton] at member
    rcases member with rfl | rfl
    · rw [yet]
      exact other _ _ (by decide)
    · rw [initial]
      exact other _ _ (by decide)
  rw [parse_born (head ▸ detached) unborn, cutText_upstream]
  simp only [trackingCounts_text]

/-! ### The states read back -/

theorem dot_notMem_spaces : ∀ word ∈ spaces, (0x2E : UInt8) ∉ word := by decide

/-- What follows a name with three dots is not trimmed down to the name. -/
theorem trimSpaces_upstream_ne (name rest : Bytes) :
    trimSpaces (name ++ (bytes "..." ++ rest)) ≠ name := by
  intro same
  have counts := count_trimSpaces dot_notMem_spaces (name ++ (bytes "..." ++ rest))
  have dots : (bytes "...").count 0x2E = 3 := by decide
  rw [same, List.count_append, List.count_append, dots] at counts
  omega

theorem trimSpaces_name_iff (name : RefName) : trimSpaces name.text = name.text ↔ name.Solid :=
  trimSpaces_eq_self_iff name.text

/-- Without commits, only a branch without an upstream is read back. -/
theorem header_unborn_iff (head : HeadState) :
    parseBranchHeader (RepoState.header ⟨true, head⟩) = RepoState.fields ⟨true, head⟩ ↔
      RepoState.Readable ⟨true, head⟩ := by
  have whole : RepoState.header ⟨true, head⟩ =
      bytes "## " ++ (bytes "No commits yet on " ++ head.text) := rfl
  rw [whole, parse_unborn]
  cases head with
  | detached =>
    have free : ∀ word ∈ spaces, (0x48 : UInt8) ∉ word := by decide
    have other : trimSpaces (HeadState.text .detached) ≠ [] := by
      intro nothing
      have letters := count_trimSpaces free (HeadState.text .detached)
      rw [nothing] at letters
      exact absurd letters (by decide)
    simp [RepoState.fields, RepoState.Readable, other]
  | branch name upstream =>
    cases upstream with
    | none => simp [RepoState.fields, RepoState.Readable, HeadState.text, trimSpaces_name_iff]
    | some tracked =>
      have other : trimSpaces (HeadState.text (.branch name (some tracked))) ≠ name.text :=
        trimSpaces_upstream_ne _ _
      simp [RepoState.fields, RepoState.Readable, other]

/-- With commits, the name is read back unless it is trimmed, and the counts if they fit. -/
theorem header_born_iff (head : HeadState) :
    parseBranchHeader (RepoState.header ⟨false, head⟩) = RepoState.fields ⟨false, head⟩ ↔
      RepoState.Readable ⟨false, head⟩ := by
  have whole : RepoState.header ⟨false, head⟩ = bytes "## " ++ head.text := rfl
  rw [whole]
  cases head with
  | detached =>
    have read : parseBranchHeader (bytes "## " ++ HeadState.text .detached) =
        ⟨[], 0, 0, false⟩ := by
      simp only [parseBranchHeader, cutPrefix_append, Option.getD_some, HeadState.text,
        if_pos List.prefix_rfl]
    simp [read, RepoState.fields, RepoState.Readable]
  | branch name upstream =>
    cases upstream with
    | none =>
      rw [HeadState.text, parse_branch]
      simp only [RepoState.fields, RepoState.Readable, BranchFields.mk.injEq, true_and,
        ← trimSpaces_name_iff]
      constructor
      · exact fun same => same.1
      · intro same
        simp [same, name.valid.nonempty]
    | some tracked =>
      rw [HeadState.text, parse_upstream]
      have counts := tracked.2.fits_iff
      rw [Prod.mk.injEq] at counts
      simp only [RepoState.fields, RepoState.Readable, BranchFields.mk.injEq, and_true,
        trimSpaces_name_iff, counts]

/-- The header of a state is read back exactly when the condition holds. -/
theorem parseBranchHeader_header_iff (state : RepoState) :
    parseBranchHeader state.header = state.fields ↔ state.Readable := by
  obtain ⟨unborn, head⟩ := state
  cases unborn with
  | true => exact header_unborn_iff head
  | false => exact header_born_iff head

/-! ### A header read wrong -/

/-- The bytes of a name, checked one by one. -/
theorem plain_of_all {name : Bytes} (plain : name.all (fun byte =>
    decide (0x20 < byte ∧ byte ≠ 0x7F ∧ byte ∉ bytes "~^:?*[\\")) = true) :
    ∀ byte ∈ name, 0x20 < byte ∧ byte ≠ 0x7F ∧ byte ∉ bytes "~^:?*[\\" := fun byte member =>
  of_decide_eq_true (List.all_eq_true.mp plain byte member)

theorem validRef_main : ValidRef (bytes "main") where
  nonempty := by decide
  notAt := by decide
  plain := plain_of_all (by decide)
  noDots := by decide
  noBrace := by decide
  ending := by decide
  component := by decide

theorem validRef_originMain : ValidRef (bytes "origin/main") where
  nonempty := by decide
  notAt := by decide
  plain := plain_of_all (by decide)
  noDots := fun inside =>
    absurd (inside.subset (by decide)) (by decide : (0x2E : UInt8) ∉ bytes "origin/main")
  noBrace := fun inside =>
    absurd (inside.subset (by decide)) (by decide : (0x40 : UInt8) ∉ bytes "origin/main")
  ending := by decide
  component := by decide

/-- A clone of an empty repository. -/
def emptyClone : RepoState where
  unborn := true
  head := .branch ⟨_, validRef_main⟩ (some (⟨_, validRef_originMain⟩, .gone))

/-- In a clone of an empty repository the branch is read with its upstream. -/
theorem parseBranchHeader_emptyClone :
    emptyClone.header = bytes "## No commits yet on main...origin/main [gone]" ∧
      parseBranchHeader emptyClone.header = ⟨bytes "main...origin/main [gone]", 0, 0, false⟩ ∧
      emptyClone.fields = ⟨bytes "main", 0, 0, false⟩ ∧
      parseBranchHeader emptyClone.header ≠ emptyClone.fields := by
  decide +kernel

end Multimux
