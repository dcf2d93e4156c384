/-
This file is the library of byte strings, which the texts of environments,
files and command lines are: any bytes, also such as encode no character. A
text of lines is its lines, each closed by a newline, and reading it back by
splitting at the newlines yields the lines again, however they were made, as
long as none of them holds a newline itself.
-/

import Mathlib.Data.List.Basic

namespace Multimux

/-- A text as Go has it. -/
abbrev Bytes := List UInt8

/-- The bytes of a literal. -/
def bytes (text : String) : Bytes := text.toList.flatMap String.utf8EncodeChar

/-- The byte that ends a line. -/
def newline : UInt8 := 0x0A

/-! ### Cutting -/

/-- `strings.CutPrefix`. -/
def cutPrefix (text front : Bytes) : Option Bytes :=
  if front <+: text then some (text.drop front.length) else none

/-- `strings.TrimPrefix` and `TrimSuffix` with one byte. -/
def trimPrefixByte (text : Bytes) (byte : UInt8) : Bytes :=
  if text.head? = some byte then text.tail else text

/-- The text without a byte at its end, if it ends in it. -/
def trimSuffixByte (text : Bytes) (byte : UInt8) : Bytes :=
  if text.getLast? = some byte then text.dropLast else text

/-- `strings.Cut` at one byte. -/
def cut (text : Bytes) (byte : UInt8) : Option (Bytes × Bytes) :=
  if byte ∈ text then
    some (text.takeWhile (· ≠ byte), (text.dropWhile (· ≠ byte)).tail)
  else none

theorem cutPrefix_append (front rest : Bytes) : cutPrefix (front ++ rest) front = some rest := by
  rw [cutPrefix, if_pos (List.prefix_append front rest), List.drop_left]

theorem trimPrefixByte_cons (byte : UInt8) (rest : Bytes) :
    trimPrefixByte (byte :: rest) byte = rest := if_pos rfl

theorem trimSuffixByte_concat (front : Bytes) (byte : UInt8) :
    trimSuffixByte (front ++ [byte]) byte = front := by
  rw [trimSuffixByte, List.getLast?_concat, if_pos rfl, List.dropLast_concat]

theorem cut_append {front rest : Bytes} {byte : UInt8} (free : byte ∉ front) :
    cut (front ++ byte :: rest) byte = some (front, rest) := by
  have other : ∀ letter ∈ front, decide (letter ≠ byte) = true := by
    intro letter member
    refine decide_eq_true ?_
    rintro rfl
    exact free member
  rw [cut, if_pos (List.mem_append_right _ List.mem_cons_self),
    List.takeWhile_append_of_pos other, List.dropWhile_append_of_pos other]
  simp

/-! ### Cutting at a text -/

/-- `strings.Cut`; the front is as long as `strings.Index` says. -/
def cutText (text separator : Bytes) : Option (Bytes × Bytes) :=
  if separator <+: text then some ([], text.drop separator.length)
  else
    match text with
    | [] => none
    | byte :: rest => (cutText rest separator).map fun parts => (byte :: parts.1, parts.2)

/-- The pieces of a text cut at most `count` times. -/
def splitTimes (separator : Bytes) : Nat → Bytes → List Bytes
  | 0, text => [text]
  | count + 1, text =>
    match cutText text separator with
    | none => [text]
    | some (front, rest) => front :: splitTimes separator count rest

/-- `strings.Split` at a separator that is not empty. -/
def splitText (text separator : Bytes) : List Bytes := splitTimes separator text.length text

theorem cutText_eq_none_iff {text separator : Bytes} :
    cutText text separator = none ↔ ¬ separator <:+: text := by
  induction text with
  | nil => simp [cutText]
  | cons byte rest inductionHypothesis =>
    rw [cutText, List.infix_cons_iff]
    split
    next starts => simp [starts]
    next other => simp [other, inductionHypothesis]

/-- A text is cut behind a front in which no separator starts. -/
theorem cutText_append {front rest separator : Bytes}
    (clear : ∀ back, back <:+ front → back ≠ [] → ¬ separator <+: back ++ (separator ++ rest)) :
    cutText (front ++ (separator ++ rest)) separator = some (front, rest) := by
  induction front with
  | nil =>
    rw [List.nil_append, cutText.eq_def, if_pos (List.prefix_append separator rest),
      List.drop_left]
  | cons byte front inductionHypothesis =>
    have later := inductionHypothesis fun back suffix =>
      clear back (suffix.trans (List.suffix_cons byte front))
    have here := clear (byte :: front) List.suffix_rfl (List.cons_ne_nil _ _)
    rw [List.cons_append] at here ⊢
    rw [cutText.eq_def, if_neg here]
    simp only [later, Option.map_some]

theorem cutText_append_of_notMem {front rest separator : Bytes} {byte : UInt8}
    (free : byte ∉ front) :
    cutText (front ++ (byte :: separator ++ rest)) (byte :: separator) = some (front, rest) := by
  refine cutText_append fun back suffix nonempty starts => ?_
  obtain ⟨first, more, rfl⟩ := List.exists_cons_of_ne_nil nonempty
  rw [List.cons_append, List.cons_prefix_cons] at starts
  exact free (starts.1 ▸ suffix.subset List.mem_cons_self)

theorem splitText_of_notInfix {text separator : Bytes} (free : ¬ separator <:+: text) :
    splitText text separator = [text] := by
  rw [splitText]
  cases text.length with
  | zero => rfl
  | succ count => rw [splitTimes, cutText_eq_none_iff.mpr free]

theorem splitText_pair {front rest separator : Bytes} {byte : UInt8} (free : byte ∉ front)
    (last : byte ∉ rest) :
    splitText (front ++ (byte :: separator ++ rest)) (byte :: separator) = [front, rest] := by
  have single : ∀ count, splitTimes (byte :: separator) count rest = [rest] := by
    intro count
    have none : ¬ byte :: separator <:+: rest := fun inside =>
      last (inside.subset List.mem_cons_self)
    cases count with
    | zero => rfl
    | succ count => rw [splitTimes, cutText_eq_none_iff.mpr none]
  have positive : (front ++ (byte :: separator ++ rest)).length ≠ 0 := by simp
  obtain ⟨count, length⟩ := Nat.exists_eq_succ_of_ne_zero positive
  rw [splitText, length, splitTimes, cutText_append_of_notMem free]
  exact congrArg (front :: ·) (single count)

/-! ### White space -/

/-- The characters of `unicode.IsSpace`, encoded. -/
def spaces : List Bytes :=
  ["\t", "\n", "\x0B", "\x0C", "\r", " ", "\u0085", "\u00A0", "\u1680", "\u2000", "\u2001",
    "\u2002", "\u2003", "\u2004", "\u2005", "\u2006", "\u2007", "\u2008", "\u2009", "\u200A",
    "\u2028", "\u2029", "\u202F", "\u205F", "\u3000"].map bytes

/-- The text without the words that it starts with, of which it has at most `count`. -/
def trimWords (words : List Bytes) : Nat → Bytes → Bytes
  | 0, text => text
  | count + 1, text =>
    match words.find? (· <+: text) with
    | none => text
    | some word => trimWords words count (text.drop word.length)

/-- `strings.TrimSpace`, first at the front, then at the end. -/
def trimSpaces (text : Bytes) : Bytes :=
  let rest := (trimWords spaces text.length text).reverse
  (trimWords (spaces.map List.reverse) rest.length rest).reverse

/-- A text that starts with no word keeps its front. -/
theorem trimWords_eq_self {words : List Bytes} {byte : UInt8}
    (other : ∀ word ∈ words, word.head? ≠ some byte ∧ word ≠ []) (count : Nat) (rest : Bytes) :
    trimWords words count (byte :: rest) = byte :: rest := by
  cases count with
  | zero => rfl
  | succ count =>
    have none : words.find? (· <+: byte :: rest) = none := by
      refine List.find?_eq_none.mpr fun word member => ?_
      obtain ⟨head, nonempty⟩ := other word member
      cases word with
      | nil => exact absurd rfl nonempty
      | cons first more =>
        rw [decide_eq_true_eq, List.cons_prefix_cons]
        rintro ⟨rfl, -⟩
        exact head rfl
    rw [trimWords, none]

/-- A text between two bytes of which none is in a space. -/
theorem trimSpaces_eq_self {first last : UInt8} {middle : Bytes}
    (front : ∀ word ∈ spaces, word.head? ≠ some first ∧ word ≠ [])
    (back : ∀ word ∈ spaces.map List.reverse, word.head? ≠ some last ∧ word ≠ []) :
    trimSpaces (first :: (middle ++ [last])) = first :: (middle ++ [last]) := by
  rw [trimSpaces, trimWords_eq_self front, ← List.cons_append, List.reverse_concat,
    trimWords_eq_self back, ← List.reverse_concat, List.reverse_reverse]

/-- A word of white space is not empty. -/
theorem ne_nil_of_mem_spaces {word : Bytes} (member : word ∈ spaces) : word ≠ [] := by
  rintro rfl
  revert member
  decide

theorem trimWords_suffix (words : List Bytes) (count : Nat) (text : Bytes) :
    trimWords words count text <:+ text := by
  induction count generalizing text with
  | zero => exact List.suffix_rfl
  | succ count inductionHypothesis =>
    rw [trimWords]
    split
    next => exact List.suffix_rfl
    next word _ => exact (inductionHypothesis _).trans (List.drop_suffix word.length text)

theorem trimWords_eq_self_iff {words : List Bytes} (solid : ∀ word ∈ words, word ≠ [])
    (text : Bytes) :
    trimWords words text.length text = text ↔ ∀ word ∈ words, ¬ word <+: text := by
  cases length : text.length with
  | zero =>
    rw [List.length_eq_zero_iff.mp length]
    simp only [trimWords, List.prefix_nil, true_iff]
    exact solid
  | succ count =>
    rw [trimWords]
    split
    next none => simpa using none
    next word found =>
      have member := List.mem_of_find?_eq_some found
      have starts : word <+: text := by simpa using List.find?_some found
      have positive := List.length_pos_of_ne_nil (solid word member)
      have short := (trimWords_suffix words count (text.drop word.length)).length_le
      rw [List.length_drop] at short
      constructor
      · intro same
        rw [same] at short
        omega
      · intro never
        exact absurd starts (never word member)

/-- Trimming leaves exactly the texts that no white space starts or ends. -/
theorem trimSpaces_eq_self_iff (text : Bytes) :
    trimSpaces text = text ↔ ∀ word ∈ spaces, ¬ word <+: text ∧ ¬ word <:+ text := by
  have solid : ∀ word ∈ spaces, word ≠ [] := fun _ => ne_nil_of_mem_spaces
  have reversed : ∀ word ∈ spaces.map List.reverse, word ≠ [] := by
    intro word member
    obtain ⟨forward, listed, rfl⟩ := List.mem_map.mp member
    exact List.reverse_ne_nil_iff.mpr (solid forward listed)
  have front := trimWords_eq_self_iff solid text
  have back := trimWords_eq_self_iff reversed text.reverse
  simp only [List.forall_mem_map, List.reverse_prefix] at back
  constructor
  · intro same
    have first := trimWords_suffix spaces text.length text
    have second := trimWords_suffix (spaces.map List.reverse)
      (trimWords spaces text.length text).reverse.length
      (trimWords spaces text.length text).reverse
    have whole : trimWords spaces text.length text = text := by
      refine first.eq_of_length (Nat.le_antisymm first.length_le ?_)
      have short := second.length_le
      rw [trimSpaces] at same
      rw [← List.length_reverse, same, List.length_reverse] at short
      exact short
    rw [trimSpaces, whole] at same
    have ending := congrArg List.reverse same
    rw [List.reverse_reverse] at ending
    exact fun word member => ⟨front.mp whole word member, back.mp ending word member⟩
  · intro clear
    rw [trimSpaces, front.mpr fun word member => (clear word member).1,
      back.mpr fun word member => (clear word member).2, List.reverse_reverse]

theorem count_trimWords {words : List Bytes} {byte : UInt8} (free : ∀ word ∈ words, byte ∉ word)
    (count : Nat) (text : Bytes) : (trimWords words count text).count byte = text.count byte := by
  induction count generalizing text with
  | zero => rfl
  | succ count inductionHypothesis =>
    rw [trimWords]
    split
    next => rfl
    next word found =>
      have starts : word <+: text := by simpa using List.find?_some found
      obtain ⟨rest, rfl⟩ := starts
      rw [inductionHypothesis, List.drop_left, List.count_append,
        List.count_eq_zero_of_not_mem (free word (List.mem_of_find?_eq_some found)), Nat.zero_add]

/-- Trimming drops no byte that occurs in no white space. -/
theorem count_trimSpaces {byte : UInt8} (free : ∀ word ∈ spaces, byte ∉ word) (text : Bytes) :
    (trimSpaces text).count byte = text.count byte := by
  have back : ∀ word ∈ spaces.map List.reverse, byte ∉ word := by
    intro word member
    obtain ⟨forward, listed, rfl⟩ := List.mem_map.mp member
    rw [List.mem_reverse]
    exact free forward listed
  rw [trimSpaces, List.count_reverse, count_trimWords back, List.count_reverse,
    count_trimWords free]

/-! ### Lines -/

/-- The lines, each closed by a newline. -/
def unlines (lines : List Bytes) : Bytes := lines.flatMap (· ++ [newline])

/-- `strings.Split` at the newlines. -/
def splitLines (text : Bytes) : List Bytes := text.splitOn newline

@[simp]
theorem unlines_append (lines others : List Bytes) :
    unlines (lines ++ others) = unlines lines ++ unlines others := List.flatMap_append

theorem splitLines_unlines_append {lines : List Bytes} (free : ∀ line ∈ lines, newline ∉ line)
    (rest : Bytes) : splitLines (unlines lines ++ rest) = lines ++ splitLines rest := by
  induction lines with
  | nil => rfl
  | cons line others inductionHypothesis =>
    have later := inductionHypothesis fun other member => free other (List.mem_cons_of_mem _ member)
    have alone : line.splitOn newline = [line] :=
      List.splitOn_eq_singleton (free line List.mem_cons_self)
    rw [unlines, List.flatMap_cons, List.append_assoc, List.append_assoc, List.singleton_append,
      splitLines, List.splitOn_append_cons_self, alone]
    rw [splitLines, unlines] at later
    rw [later]
    rfl

theorem splitLines_unlines {lines : List Bytes} (free : ∀ line ∈ lines, newline ∉ line) :
    splitLines (unlines lines) = lines ++ [[]] := by
  have whole := splitLines_unlines_append free []
  rwa [List.append_nil] at whole

/-! ### Letters -/

/-- Each byte as the letter with its code. -/
def letters (text : Bytes) : List Char := text.map fun byte => Char.ofNat byte.toNat

/-- The bytes of letters that have one each. -/
def ofLetters (text : List Char) : Bytes := text.map fun letter => UInt8.ofNat letter.toNat

end Multimux
