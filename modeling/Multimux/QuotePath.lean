/-
This file proves for which paths the quoted word of an upload is read back as
the path. A backslash before every unit that is not plain keeps each character
of one unit, but a newline behind a backslash is a continuation that the shell
removes, and a character of two units is torn apart by the second backslash,
so that both halves are encoded as replacement characters.
-/

import Multimux.Bytes
import Multimux.JsText

namespace Multimux

/-! ### Quoting -/

/-- The units that the regular expression leaves alone. -/
def isPlainUnit (unit : UInt16) : Bool :=
  0x41 ≤ unit ∧ unit ≤ 0x5A ∨ 0x61 ≤ unit ∧ unit ≤ 0x7A ∨ 0x30 ≤ unit ∧ unit ≤ 0x39 ∨
    unit ∈ units "_./+:@%,=-"

/-- A backslash. -/
def backslashUnit : UInt16 := 0x5C

/-- The path as a shell word; the regular expression sees units, not characters. -/
def quotePath (path : Units) : Units :=
  path.flatMap fun unit => if isPlainUnit unit then [unit] else [backslashUnit, unit]

/-! ### Reading a word -/

/-- What a shell does not take as it is outside quotes. -/
def isShellSpecial (byte : UInt8) : Bool :=
  byte ∈ bytes "|&;<>()$`\\\"' \t\n*?[]^!#~\x7b\x7d"

/-- A word outside quotes: a backslash makes the next byte literal, or continues the line. -/
def readWord : Bytes → Option Bytes
  | 0x5C :: 0x0A :: rest => readWord rest
  | 0x5C :: byte :: rest => (readWord rest).map (byte :: ·)
  | [] => some []
  | byte :: rest => if isShellSpecial byte then none else (readWord rest).map (byte :: ·)

/-- The text of the one word that the input is; without any byte there is no word. -/
def shellWord (input : Bytes) : Option Bytes := (readWord input).filter (· ≠ [])

/-- A path in UTF-8. -/
def utf8 (path : List Char) : Bytes := path.flatMap String.utf8EncodeChar

/-! ### Quoted units -/

/-- The bytes of a unit once quoted, and what the shell keeps of them. -/
def quotedUnit (unit : UInt16) : Bytes :=
  if isPlainUnit unit then unitBytes unit else 0x5C :: unitBytes unit

/-- The bytes of a unit that the tile keeps, which drops line feeds. -/
def keptUnit (unit : UInt16) : Bytes := if unit = newlineUnit then [] else unitBytes unit

theorem isPlainUnit_ascii {unit : UInt16} (plain : isPlainUnit unit = true) :
    unit.toNat < 0x80 := by
  have listed : ∀ other ∈ units "_./+:@%,=-", other.toNat < 0x80 := by
    have all : (units "_./+:@%,=-").all (fun other => decide (other.toNat < 0x80)) = true := by
      decide
    exact fun other member => of_decide_eq_true (List.all_eq_true.mp all other member)
  simp only [isPlainUnit, decide_eq_true_eq, UInt16.le_iff_toNat_le, UInt16.reduceToNat] at plain
  rcases plain with upper | lower | digit | sign
  · omega
  · omega
  · omega
  · exact listed unit sign

/-- A plain unit is one byte that the shell takes as it is. -/
theorem unitBytes_plain {unit : UInt16} (plain : isPlainUnit unit = true) :
    ∃ byte, unitBytes unit = [byte] ∧ isShellSpecial byte = false := by
  have table : ∀ number < 0x80, isPlainUnit (UInt16.ofNat number) = true →
      unitBytes (UInt16.ofNat number) = [UInt8.ofNat number] ∧
        isShellSpecial (UInt8.ofNat number) = false := by
    decide +kernel
  have found := table unit.toNat (isPlainUnit_ascii plain)
  rw [UInt16.ofNat_toNat] at found
  exact ⟨_, found plain⟩

/-- No low surrogate starts a quoted text. -/
theorem head_quotePath (path : Units) :
    ∀ next ∈ (quotePath path).head?, isLowSurrogate next = false := by
  cases path with
  | nil => exact fun next first => absurd first (by simp [quotePath])
  | cons unit path =>
    rw [quotePath, List.flatMap_cons]
    intro next first
    split at first
    next plain =>
      obtain rfl : unit = next := Option.some.inj first
      have ascii := isPlainUnit_ascii plain
      simp only [isLowSurrogate, UInt16.le_iff_toNat_le, UInt16.reduceToNat,
        decide_eq_false_iff_not]
      omega
    next =>
      obtain rfl : backslashUnit = next := Option.some.inj first
      decide

/-- A backslash tears every pair of surrogates apart. -/
theorem encodeUnits_quotePath (path : Units) :
    encodeUnits (quotePath path) = path.flatMap quotedUnit := by
  induction path with
  | nil => rfl
  | cons unit path inductionHypothesis =>
    have alone : encodeUnits (unit :: quotePath path) =
        unitBytes unit ++ encodeUnits (quotePath path) :=
      encodeUnits_cons fun _ => head_quotePath path
    have split : quotePath (unit :: path) =
        (if isPlainUnit unit then [unit] else [backslashUnit, unit]) ++ quotePath path :=
      List.flatMap_cons
    rw [List.flatMap_cons, ← inductionHypothesis, split, quotedUnit]
    split
    next => exact alone
    next =>
      have backslash : isHighSurrogate backslashUnit = false := by decide
      have bytes : unitBytes backslashUnit = [0x5C] := by decide
      rw [List.cons_append, List.singleton_append,
        encodeUnits_cons fun high => absurd high (by rw [backslash]; exact Bool.false_ne_true),
        alone, bytes]
      rfl

/-! ### What the shell reads -/

theorem readWord_ordinary {byte : UInt8} (ordinary : isShellSpecial byte = false) (rest : Bytes) :
    readWord (byte :: rest) = (readWord rest).map (byte :: ·) := by
  have other : byte ≠ 0x5C := by
    rintro rfl
    exact absurd ordinary (by decide)
  rw [readWord, if_neg (by simp [ordinary])]
  · intro later same
    exact absurd same other
  · intro next later same
    exact absurd same other

theorem readWord_append {text : Bytes} (ordinary : ∀ byte ∈ text, isShellSpecial byte = false)
    (rest : Bytes) : readWord (text ++ rest) = (readWord rest).map (text ++ ·) := by
  induction text with
  | nil => simp
  | cons byte text inductionHypothesis =>
    have later := inductionHypothesis fun other member =>
      ordinary other (List.mem_cons_of_mem byte member)
    rw [List.cons_append, readWord_ordinary (ordinary byte List.mem_cons_self), later,
      Option.map_map]
    rfl

theorem ordinary_of_beyond {byte : UInt8} (beyond : 0x80 ≤ byte.toNat) :
    isShellSpecial byte = false := by
  have all : (bytes "|&;<>()$`\\\"' \t\n*?[]^!#~\x7b\x7d").all
      (fun other => decide (other.toNat < 0x80)) = true := by decide
  rw [isShellSpecial, decide_eq_false_iff_not]
  intro member
  exact absurd (of_decide_eq_true (List.all_eq_true.mp all byte member)) (Nat.not_lt.mpr beyond)

/-- The bytes of a unit: any first one, and ordinary ones behind it. -/
theorem unitBytes_eq_cons (unit : UInt16) : ∃ byte rest, unitBytes unit = byte :: rest ∧
    (∀ other ∈ rest, isShellSpecial other = false) ∧ (byte = 0x0A ↔ unit = newlineUnit) := by
  have newline : ∀ byte : UInt8, 0x80 ≤ byte.toNat → byte ≠ 0x0A := by
    rintro _ beyond rfl
    exact absurd beyond (by decide)
  rcases Nat.lt_or_ge unit.toNat 0x80 with ascii | beyond
  · have table : ∀ number < 0x80, unitBytes (UInt16.ofNat number) = [UInt8.ofNat number] ∧
        (UInt8.ofNat number = 0x0A ↔ UInt16.ofNat number = newlineUnit) := by
      decide
    have found := table unit.toNat ascii
    rw [UInt16.ofNat_toNat] at found
    exact ⟨_, [], found.1, fun _ member => absurd member List.not_mem_nil, found.2⟩
  · have other : unit ≠ newlineUnit := by
      rintro rfl
      exact absurd beyond (by decide)
    have large : ∀ byte ∈ unitBytes unit, 0x80 ≤ byte.toNat := by
      intro byte member
      rw [unitBytes] at member
      split at member
      next =>
        simp only [List.mem_cons, List.not_mem_nil, or_false] at member
        rcases member with rfl | rfl | rfl <;> decide
      next whole =>
        refine byte_of_mem_utf8EncodeChar ?_ member
        have valid : unit.toNat.isValidChar := by
          simp only [isHighSurrogate, isLowSurrogate, UInt16.le_iff_toNat_le, UInt16.reduceToNat,
            decide_eq_true_eq] at whole
          have bound := unit.toNat_lt
          unfold Nat.isValidChar
          omega
        rw [Char.ofNat, dif_pos valid]
        exact beyond
    have nonempty : unitBytes unit ≠ [] := by
      rw [unitBytes]
      split
      next => simp
      next => exact String.utf8EncodeChar_ne_nil
    obtain ⟨byte, rest, split⟩ := List.exists_cons_of_ne_nil nonempty
    rw [split] at large
    refine ⟨byte, rest, split, fun next member => ?_, ?_⟩
    · exact ordinary_of_beyond (large next (List.mem_cons_of_mem _ member))
    · simp [newline byte (large byte List.mem_cons_self), other]

/-- The shell keeps every quoted unit but a newline. -/
theorem readWord_quotedUnit (unit : UInt16) (rest : Bytes) :
    readWord (quotedUnit unit ++ rest) = (readWord rest).map (keptUnit unit ++ ·) := by
  rw [quotedUnit]
  split
  next plain =>
    obtain ⟨byte, single, ordinary⟩ := unitBytes_plain plain
    have other : unit ≠ newlineUnit := by
      rintro rfl
      exact absurd plain (by decide)
    have each : ∀ other ∈ unitBytes unit, isShellSpecial other = false := by
      intro other member
      rw [single, List.mem_singleton] at member
      exact member ▸ ordinary
    rw [keptUnit, if_neg other, readWord_append each]
  next =>
    obtain ⟨byte, more, split, ordinary, newline⟩ := unitBytes_eq_cons unit
    rw [keptUnit]
    split
    next same =>
      have alone : unitBytes unit = [0x0A] := by
        rw [same]
        decide
      rw [alone]
      show readWord (0x5C :: 0x0A :: rest) = _
      rw [readWord]
      simp
    next other =>
      rw [split]
      show readWord (0x5C :: byte :: (more ++ rest)) = _
      rw [readWord, readWord_append ordinary, Option.map_map]
      · rfl
      · exact fun same => other (newline.mp same)

theorem readWord_quoted (path : Units) :
    readWord (path.flatMap quotedUnit) = some (path.flatMap keptUnit) := by
  induction path with
  | nil => rfl
  | cons unit path inductionHypothesis =>
    rw [List.flatMap_cons, readWord_quotedUnit, inductionHypothesis, Option.map_some,
      List.flatMap_cons]

/-! ### The paths that are read back -/

/-- What the shell keeps of a character. -/
def keptChar (letter : Char) : Bytes := (utf16Char letter).flatMap keptUnit

theorem keptChar_basic {letter : Char} (basic : letter.toNat < 0x10000) (solid : letter ≠ '\n') :
    keptChar letter = String.utf8EncodeChar letter := by
  have other : UInt16.ofNat letter.toNat ≠ newlineUnit := by
    intro same
    have value := congrArg UInt16.toNat same
    rw [UInt16.toNat_ofNat', Nat.mod_eq_of_lt basic] at value
    exact solid (Char.toNat_inj.mp value)
  rw [keptChar, utf16Char, if_pos basic, List.flatMap_singleton, keptUnit, if_neg other,
    unitBytes_basic basic]

/-- Both halves of a character beyond the basic plane are replaced. -/
theorem keptChar_beyond {letter : Char} (beyond : ¬ letter.toNat < 0x10000) :
    keptChar letter = [0xEF, 0xBF, 0xBD, 0xEF, 0xBF, 0xBD] := by
  have bound : letter.toNat < 0x110000 := by
    have valid : letter.toNat < 0xD800 ∨ 0xDFFF < letter.toNat ∧ letter.toNat < 0x110000 :=
      letter.valid
    omega
  have high :
      isHighSurrogate (UInt16.ofNat (0xD800 + (letter.toNat - 0x10000) / 0x400)) = true := by
    simp only [isHighSurrogate, UInt16.le_iff_toNat_le, UInt16.toNat_ofNat', UInt16.reduceToNat,
      decide_eq_true_eq]
    omega
  have low : isLowSurrogate (UInt16.ofNat (0xDC00 + (letter.toNat - 0x10000) % 0x400)) = true := by
    simp only [isLowSurrogate, UInt16.le_iff_toNat_le, UInt16.toNat_ofNat', UInt16.reduceToNat,
      decide_eq_true_eq]
    omega
  have surrogate : ∀ unit, isHighSurrogate unit = true ∨ isLowSurrogate unit = true →
      keptUnit unit = [0xEF, 0xBF, 0xBD] := by
    intro unit half
    have other : unit ≠ newlineUnit := by
      rintro rfl
      exact absurd half (by decide)
    rw [keptUnit, if_neg other, unitBytes, if_pos half]
  rw [keptChar, utf16Char, if_neg beyond, List.flatMap_cons, List.flatMap_singleton,
    surrogate _ (Or.inl high), surrogate _ (Or.inr low)]
  rfl

theorem newline_mem_utf8EncodeChar {letter : Char} :
    0x0A ∈ String.utf8EncodeChar letter ↔ letter = '\n' := by
  constructor
  · intro member
    rcases Nat.lt_or_ge letter.toNat 0x80 with ascii | beyond
    · rw [utf8EncodeChar_ascii ascii, List.mem_singleton] at member
      have value := congrArg UInt8.toNat member
      rw [UInt8.toNat_ofNat', Nat.mod_eq_of_lt (by omega)] at value
      exact Char.toNat_inj.mp value.symm
    · exact absurd (byte_of_mem_utf8EncodeChar beyond member) (by decide)
  · rintro rfl
    decide

theorem newline_notMem_keptChar (letter : Char) : 0x0A ∉ keptChar letter := by
  by_cases basic : letter.toNat < 0x10000
  · by_cases newline : letter = '\n'
    · subst newline
      decide
    · rw [keptChar_basic basic newline, newline_mem_utf8EncodeChar]
      exact newline
  · rw [keptChar_beyond basic]
    decide

/-- Images that are nowhere longer are of the same length only if none is shorter. -/
theorem length_flatMap_le {one other : Char → Bytes} {path : List Char}
    (shorter : ∀ letter ∈ path, (one letter).length ≤ (other letter).length) :
    (path.flatMap one).length ≤ (path.flatMap other).length ∧
      ((path.flatMap other).length ≤ (path.flatMap one).length →
        ∀ letter ∈ path, (other letter).length ≤ (one letter).length) := by
  induction path with
  | nil => exact ⟨le_rfl, fun _ _ member => absurd member List.not_mem_nil⟩
  | cons first path inductionHypothesis =>
    obtain ⟨whole, each⟩ := inductionHypothesis fun letter member =>
      shorter letter (List.mem_cons_of_mem first member)
    have head := shorter first List.mem_cons_self
    simp only [List.flatMap_cons, List.length_append]
    refine ⟨by omega, fun same letter member => ?_⟩
    rcases List.mem_cons.mp member with rfl | later
    · omega
    · exact each (by omega) letter later

theorem utf8_eq_nil_iff (path : List Char) : utf8 path = [] ↔ path = [] := by
  rw [utf8, List.flatMap_eq_nil_iff]
  constructor
  · intro none
    refine List.eq_nil_iff_forall_not_mem.mpr fun letter member => ?_
    exact String.utf8EncodeChar_ne_nil (none letter member)
  · rintro rfl
    exact fun letter member => absurd member List.not_mem_nil

/-- The quoted path is read back exactly if it is not empty and every character has one unit and
is no newline. -/
theorem quotePath_read_iff (path : List Char) :
    shellWord (encodeUnits (quotePath (utf16 path))) = some (utf8 path) ↔
      path ≠ [] ∧ ∀ letter ∈ path, letter ≠ '\n' ∧ letter.toNat < 0x10000 := by
  have kept : (utf16 path).flatMap keptUnit = path.flatMap keptChar := List.flatMap_assoc
  rw [encodeUnits_quotePath, shellWord, readWord_quoted, kept, Option.filter_eq_some_iff,
    Option.some.injEq, decide_eq_true_eq, ne_eq, utf8_eq_nil_iff, and_comm]
  refine and_congr_right fun _ => ⟨fun same => ?_, fun plain => ?_⟩
  · have noNewline : ∀ letter ∈ path, letter ≠ '\n' := by
      intro letter member newline
      have byte : 0x0A ∈ utf8 path :=
        List.mem_flatMap.mpr ⟨letter, member, newline_mem_utf8EncodeChar.mpr newline⟩
      rw [← same] at byte
      obtain ⟨other, -, inside⟩ := List.mem_flatMap.mp byte
      exact newline_notMem_keptChar other inside
    -- Replacing a character lengthens the path, and nothing shortens it.
    have longer : ∀ letter ∈ path,
        (String.utf8EncodeChar letter).length ≤ (keptChar letter).length := by
      intro letter member
      by_cases basic : letter.toNat < 0x10000
      · rw [keptChar_basic basic (noNewline letter member)]
      · rw [keptChar_beyond basic, String.length_utf8EncodeChar]
        exact letter.utf8Size_le_four.trans (by decide)
    have each := (length_flatMap_le longer).2 (congrArg List.length same).le
    refine fun letter member => ⟨noNewline letter member, ?_⟩
    by_contra beyond
    have short := each letter member
    rw [keptChar_beyond beyond, String.length_utf8EncodeChar] at short
    exact absurd (short.trans letter.utf8Size_le_four) (by decide)
  · exact List.flatMap_congr fun letter member =>
      keptChar_basic (plain letter member).2 (plain letter member).1

/-- A path with a character beyond the basic plane is read back as another one. -/
theorem quotePath_tears_character :
    shellWord (encodeUnits (quotePath (utf16 "/home/u/😀/paste-1.png".toList))) =
        some (utf8 "/home/u/\uFFFD\uFFFD/paste-1.png".toList) ∧
      shellWord (encodeUnits (quotePath (utf16 "/home/u/😀/paste-1.png".toList))) ≠
        some (utf8 "/home/u/😀/paste-1.png".toList) := by
  decide

end Multimux
