/-
This file is the library of texts as JavaScript has them: lists of units of
sixteen bits, where a character beyond the basic plane is a pair of
surrogates. White space is trimmed unit by unit, and none of it is a
surrogate, so trimming drops nothing that can be seen. Encoded to bytes, a
surrogate without its other half is replaced.
-/

import Mathlib.Data.List.Basic
import Mathlib.Data.List.DropRight

namespace Multimux

/-- A string of JavaScript, as its code units. -/
abbrev Units := List UInt16

/-- The units of a character. -/
def utf16Char (letter : Char) : Units :=
  if letter.toNat < 0x10000 then [UInt16.ofNat letter.toNat]
  else
    [UInt16.ofNat (0xD800 + (letter.toNat - 0x10000) / 0x400),
      UInt16.ofNat (0xDC00 + (letter.toNat - 0x10000) % 0x400)]

/-- The units of a text. -/
def utf16 (text : List Char) : Units := text.flatMap utf16Char

/-- The units of a literal. -/
def units (text : String) : Units := utf16 text.toList

/-- A line feed. -/
def newlineUnit : UInt16 := 0x0A

/-- A blank. -/
def spaceUnit : UInt16 := 0x20

/-! ### White space -/

/-- What `\s` matches and `trim` drops: white space and line terminators. -/
def isWhite (unit : UInt16) : Bool :=
  unit ∈ ([0x09, 0x0A, 0x0B, 0x0C, 0x0D, 0x20, 0xA0, 0x1680, 0x2028, 0x2029, 0x202F, 0x205F,
    0x3000, 0xFEFF] : List UInt16) ∨ 0x2000 ≤ unit ∧ unit ≤ 0x200A

/-- `trimStart`. -/
def trimStart (text : Units) : Units := text.dropWhile isWhite

/-- `trimEnd`. -/
def trimEnd (text : Units) : Units := text.rdropWhile isWhite

/-- `trim`. -/
def trim (text : Units) : Units := trimEnd (trimStart text)

/-- What can be seen of a text, in order. -/
def visible (text : Units) : Units := text.filter fun unit => !isWhite unit

@[simp]
theorem visible_nil : visible [] = [] := rfl

@[simp]
theorem visible_append (text rest : Units) :
    visible (text ++ rest) = visible text ++ visible rest :=
  List.filter_append ..

theorem visible_white {text : Units} (white : ∀ unit ∈ text, isWhite unit = true) :
    visible text = [] := by
  rw [visible, List.filter_eq_nil_iff]
  intro unit member
  simp [white unit member]

@[simp]
theorem visible_trimStart (text : Units) : visible (trimStart text) = visible text := by
  have parts : text.takeWhile isWhite ++ trimStart text = text := List.takeWhile_append_dropWhile
  have front : visible (text.takeWhile isWhite) = [] :=
    visible_white fun unit member => List.mem_takeWhile_imp member
  conv_rhs => rw [← parts, visible_append, front, List.nil_append]

@[simp]
theorem visible_trimEnd (text : Units) : visible (trimEnd text) = visible text := by
  have parts : trimEnd text ++ text.rtakeWhile isWhite = text :=
    List.rdropWhile_append_rtakeWhile
  have back : visible (text.rtakeWhile isWhite) = [] :=
    visible_white fun unit member => List.mem_rtakeWhile_imp member
  conv_rhs => rw [← parts, visible_append, back, List.append_nil]

theorem trimEnd_eq_nil_iff {text : Units} : trimEnd text = [] ↔ visible text = [] := by
  rw [trimEnd, List.rdropWhile_eq_nil_iff, visible, List.filter_eq_nil_iff]
  simp

/-- Trimming the end of a text stops where it can be seen. -/
theorem trimEnd_append {front back : Units} (solid : visible back ≠ []) :
    trimEnd (front ++ back) = front ++ trimEnd back := by
  have kept : trimEnd back ≠ [] := fun empty => solid (trimEnd_eq_nil_iff.mp empty)
  have nonempty : (back.reverse.dropWhile isWhite).isEmpty = false := by
    rw [List.isEmpty_eq_false_iff]
    intro empty
    exact kept (by rw [trimEnd, List.rdropWhile, empty, List.reverse_nil])
  rw [trimEnd, List.rdropWhile, List.reverse_append, List.dropWhile_append, nonempty]
  simp [trimEnd, List.rdropWhile]

/-! ### Encoding -/

/-- The first unit of a pair. -/
def isHighSurrogate (unit : UInt16) : Bool := 0xD800 ≤ unit ∧ unit ≤ 0xDBFF

/-- The second unit of a pair. -/
def isLowSurrogate (unit : UInt16) : Bool := 0xDC00 ≤ unit ∧ unit ≤ 0xDFFF

/-- The character of two surrogates. -/
def pairChar (high low : UInt16) : Char :=
  Char.ofNat (0x10000 + (high.toNat - 0xD800) * 0x400 + (low.toNat - 0xDC00))

/-- The bytes of a unit on its own; a surrogate becomes the replacement character. -/
def unitBytes (unit : UInt16) : List UInt8 :=
  if isHighSurrogate unit ∨ isLowSurrogate unit then [0xEF, 0xBF, 0xBD]
  else String.utf8EncodeChar (Char.ofNat unit.toNat)

/-- `TextEncoder.encode`. -/
def encodeUnits : Units → List UInt8
  | [] => []
  | [unit] => unitBytes unit
  | unit :: next :: rest =>
    if isHighSurrogate unit ∧ isLowSurrogate next then
      String.utf8EncodeChar (pairChar unit next) ++ encodeUnits rest
    else unitBytes unit ++ encodeUnits (next :: rest)

/-- A unit that starts no pair is encoded on its own. -/
theorem encodeUnits_cons {unit : UInt16} {rest : Units}
    (alone : isHighSurrogate unit = true → ∀ next ∈ rest.head?, isLowSurrogate next = false) :
    encodeUnits (unit :: rest) = unitBytes unit ++ encodeUnits rest := by
  cases rest with
  | nil => rw [encodeUnits, encodeUnits, List.append_nil]
  | cons next rest =>
    rw [encodeUnits, if_neg]
    rintro ⟨high, low⟩
    rw [alone high next rfl] at low
    exact Bool.false_ne_true low

theorem utf8EncodeChar_ascii {letter : Char} (ascii : letter.toNat < 0x80) :
    String.utf8EncodeChar letter = [UInt8.ofNat letter.toNat] :=
  if_pos (Nat.le_of_lt_succ ascii)

/-- The bytes of a character beyond ASCII are all beyond ASCII. -/
theorem byte_of_mem_utf8EncodeChar {letter : Char} (beyond : 0x80 ≤ letter.toNat) {byte : UInt8}
    (member : byte ∈ String.utf8EncodeChar letter) : 0x80 ≤ byte.toNat := by
  have large : ¬ letter.val.toNat ≤ 0x7F := Nat.not_le.mpr beyond
  simp only [String.utf8EncodeChar, large, if_false] at member
  split at member
  · simp only [List.mem_cons, List.not_mem_nil, or_false] at member
    rcases member with rfl | rfl <;> rw [UInt8.toNat_ofNat'] <;> omega
  · split at member
    · simp only [List.mem_cons, List.not_mem_nil, or_false] at member
      rcases member with rfl | rfl | rfl <;> rw [UInt8.toNat_ofNat'] <;> omega
    · simp only [List.mem_cons, List.not_mem_nil, or_false] at member
      rcases member with rfl | rfl | rfl | rfl <;> rw [UInt8.toNat_ofNat'] <;> omega

/-- The units of a character of the basic plane, encoded, are its bytes. -/
theorem unitBytes_basic {letter : Char} (basic : letter.toNat < 0x10000) :
    unitBytes (UInt16.ofNat letter.toNat) = String.utf8EncodeChar letter := by
  have value : (UInt16.ofNat letter.toNat).toNat = letter.toNat := by
    rw [UInt16.toNat_ofNat']
    exact Nat.mod_eq_of_lt basic
  have whole : ¬ (isHighSurrogate (UInt16.ofNat letter.toNat) = true ∨
      isLowSurrogate (UInt16.ofNat letter.toNat) = true) := by
    have valid : letter.toNat < 0xD800 ∨ 0xDFFF < letter.toNat ∧ letter.toNat < 0x110000 :=
      letter.valid
    simp only [isHighSurrogate, isLowSurrogate, UInt16.le_iff_toNat_le, value,
      UInt16.reduceToNat, decide_eq_true_eq]
    omega
  rw [unitBytes, if_neg whole, value, Char.ofNat_toNat]

end Multimux
