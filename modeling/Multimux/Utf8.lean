/-
This file is the library of UTF-8 as byte strings hold it. A text falls into
pieces, each the encoding of one rune or a stray byte that belongs to none. The
encoding of a rune is told by its own bytes, whatever follows them, so a text
that is put together from encodings falls into these again.
-/

import Multimux.Bytes
import Mathlib.Algebra.Group.Nat.Defs

namespace Multimux

/-! ### Decoding -/

/-- The byte lies between two others. -/
def between (low high byte : UInt8) : Bool := low ≤ byte ∧ byte ≤ high

/-- What the first byte of an encoding tells: how many bytes follow, the bounds of the next one,
and its own part of the rune. -/
structure LeadByte where
  more : Nat
  low : UInt8
  high : UInt8
  bits : Nat

/-- The bounds leave no rune two encodings, and none for surrogates and what is too large. -/
def leadByte (byte : UInt8) : Option LeadByte :=
  if byte < 0x80 then some ⟨0, 0x80, 0xBF, byte.toNat⟩
  else if between 0xC2 0xDF byte then some ⟨1, 0x80, 0xBF, byte.toNat % 32⟩
  else if byte = 0xE0 then some ⟨2, 0xA0, 0xBF, 0⟩
  else if byte = 0xED then some ⟨2, 0x80, 0x9F, 13⟩
  else if between 0xE1 0xEF byte then some ⟨2, 0x80, 0xBF, byte.toNat % 16⟩
  else if byte = 0xF0 then some ⟨3, 0x90, 0xBF, 0⟩
  else if between 0xF1 0xF3 byte then some ⟨3, 0x80, 0xBF, byte.toNat % 8⟩
  else if byte = 0xF4 then some ⟨3, 0x80, 0x8F, 4⟩
  else none

/-- The bytes behind the first one. -/
def LeadByte.accepts (lead : LeadByte) : Bytes → Bool
  | [] => lead.more = 0
  | next :: rest => rest.length + 1 = lead.more ∧ between lead.low lead.high next ∧
      rest.all (between 0x80 0xBF)

/-- `utf8.DecodeRune`: the rune that the text starts with and its size, and nothing where it
starts with a stray byte. -/
def decodeRune : Bytes → Option (Nat × Nat)
  | [] => none
  | byte :: rest =>
    match leadByte byte with
    | none => none
    | some lead =>
      let tail := rest.take lead.more
      if lead.accepts tail then
        some (tail.foldl (fun rune next => rune * 64 + next.toNat % 64) lead.bits, lead.more + 1)
      else none

/-- The pieces of a text behind its first bytes, which belong to a piece already. -/
def piecesFrom : Nat → Bytes → List Bytes
  | _, [] => []
  | 0, byte :: rest =>
    let size := ((decodeRune (byte :: rest)).map Prod.snd).getD 1
    (byte :: rest).take size :: piecesFrom (size - 1) rest
  | skip + 1, _ :: rest => piecesFrom skip rest

/-- The text cut into characters and bytes that are none. -/
def pieces (text : Bytes) : List Bytes := piecesFrom 0 text

/-- The bytes are the encoding of one rune. -/
def Encoded (piece : Bytes) : Prop := ∃ rune, decodeRune piece = some (rune, piece.length)

/-! ### Laws -/

theorem LeadByte.length_of_accepts {lead : LeadByte} {tail : Bytes}
    (accepted : lead.accepts tail = true) : tail.length = lead.more := by
  cases tail with
  | nil => exact (of_decide_eq_true accepted).symm
  | cons next rest => exact (of_decide_eq_true accepted).1

theorem decodeRune_eq_some {text : Bytes} {rune size : Nat} :
    decodeRune text = some (rune, size) ↔
      ∃ byte tail rest lead, text = byte :: (tail ++ rest) ∧ leadByte byte = some lead ∧
        lead.accepts tail = true ∧ size = tail.length + 1 ∧
        rune = tail.foldl (fun rune next => rune * 64 + next.toNat % 64) lead.bits := by
  constructor
  · intro decoded
    cases text with
    | nil => cases decoded
    | cons byte rest =>
      simp only [decodeRune] at decoded
      split at decoded
      · cases decoded
      · rename_i lead found
        split at decoded <;> cases decoded
        rename_i accepted
        refine ⟨byte, rest.take lead.more, rest.drop lead.more, lead, ?_, found, accepted, ?_, rfl⟩
        · rw [List.take_append_drop]
        · rw [LeadByte.length_of_accepts accepted]
  · rintro ⟨byte, tail, rest, lead, rfl, found, accepted, rfl, rfl⟩
    have length := LeadByte.length_of_accepts accepted
    simp only [decodeRune, found]
    rw [← length, List.take_left, if_pos accepted]

theorem decodeRune_size {text : Bytes} {rune size : Nat}
    (decoded : decodeRune text = some (rune, size)) : 0 < size ∧ size ≤ text.length := by
  obtain ⟨byte, tail, rest, lead, rfl, -, -, rfl, -⟩ := decodeRune_eq_some.mp decoded
  simp

/-- A rune is told by its own bytes. -/
theorem decodeRune_append {text : Bytes} {rune size : Nat}
    (decoded : decodeRune text = some (rune, size)) (others : Bytes) :
    decodeRune (text ++ others) = some (rune, size) := by
  obtain ⟨byte, tail, rest, lead, rfl, found, accepted, sizes, runes⟩ :=
    decodeRune_eq_some.mp decoded
  exact decodeRune_eq_some.mpr ⟨byte, tail, rest ++ others, lead, by simp, found, accepted, sizes,
    runes⟩

theorem decodeRune_take {text : Bytes} {rune size : Nat}
    (decoded : decodeRune text = some (rune, size)) :
    decodeRune (text.take size) = some (rune, size) := by
  obtain ⟨byte, tail, rest, lead, rfl, found, accepted, rfl, runes⟩ :=
    decodeRune_eq_some.mp decoded
  refine decodeRune_eq_some.mpr ⟨byte, tail, [], lead, ?_, found, accepted, rfl, runes⟩
  simp

theorem piecesFrom_eq (skip : Nat) (text : Bytes) :
    piecesFrom skip text = pieces (text.drop skip) := by
  induction text generalizing skip with
  | nil => simp [pieces, piecesFrom]
  | cons byte rest inductionHypothesis =>
    cases skip with
    | zero => rfl
    | succ skip => exact inductionHypothesis skip

theorem pieces_cons (byte : UInt8) (rest : Bytes) :
    let size := ((decodeRune (byte :: rest)).map Prod.snd).getD 1
    pieces (byte :: rest) = (byte :: rest).take size :: pieces ((byte :: rest).drop size) := by
  intro size
  have positive : 0 < size := by
    cases decoded : decodeRune (byte :: rest) with
    | none => simp [size, decoded]
    | some rune => simpa [size, decoded] using (decodeRune_size decoded).1
  rw [pieces, piecesFrom, piecesFrom_eq]
  obtain ⟨less, same⟩ := Nat.exists_eq_succ_of_ne_zero (Nat.ne_of_gt positive)
  show (byte :: rest).take size :: pieces (rest.drop (size - 1)) = _
  rw [same, List.drop_succ_cons, Nat.succ_sub_one]

/-- An encoding in front is a piece. -/
theorem pieces_append {piece : Bytes} (encoded : Encoded piece) (rest : Bytes) :
    pieces (piece ++ rest) = piece :: pieces rest := by
  obtain ⟨rune, decoded⟩ := encoded
  have whole := decodeRune_append decoded rest
  cases piece with
  | nil => cases decoded
  | cons byte tail =>
    rw [List.cons_append] at whole ⊢
    rw [pieces_cons, whole, Option.map_some, Option.getD_some, ← List.cons_append, List.take_left,
      List.drop_left]

theorem pieces_flatten {parts : List Bytes} (encoded : ∀ part ∈ parts, Encoded part) :
    pieces parts.flatten = parts := by
  induction parts with
  | nil => rfl
  | cons part rest inductionHypothesis =>
    rw [List.flatten_cons, pieces_append (encoded part List.mem_cons_self),
      inductionHypothesis fun other member => encoded other (List.mem_cons_of_mem _ member)]

theorem flatten_pieces (text : Bytes) : (pieces text).flatten = text := by
  induction length : text.length using Nat.strongRecOn generalizing text with
  | ind count inductionHypothesis =>
    cases text with
    | nil => rfl
    | cons byte rest =>
      rw [pieces_cons]
      generalize sized : ((decodeRune (byte :: rest)).map Prod.snd).getD 1 = size
      have positive : 0 < size := by
        cases decoded : decodeRune (byte :: rest) with
        | none => simp [← sized, decoded]
        | some rune => simpa [← sized, decoded] using (decodeRune_size decoded).1
      have shorter : ((byte :: rest).drop size).length < count := by
        rw [List.length_drop, length]
        rw [List.length_cons] at length
        omega
      rw [List.flatten_cons, inductionHypothesis _ shorter _ rfl, List.take_append_drop]

/-- A byte that starts no rune in a text starts none on its own. -/
theorem decodeRune_alone {byte : UInt8} {rest : Bytes} (stray : decodeRune (byte :: rest) = none) :
    decodeRune [byte] = none := by
  simp only [decodeRune] at stray ⊢
  split at stray
  · rfl
  · rename_i lead found
    split at stray
    · cases stray
    · rename_i refused
      split
      · rename_i accepted
        have alone : lead.more = 0 := by
          rw [List.take_nil] at accepted
          exact of_decide_eq_true accepted
        rw [alone, List.take_zero] at refused
        rw [List.take_nil] at accepted
        exact absurd accepted refused
      · rfl

/-- A piece is the encoding of a rune or a stray byte. -/
theorem mem_pieces {text piece : Bytes} (member : piece ∈ pieces text) :
    decodeRune piece = none ∨ Encoded piece := by
  have all : ∀ (rest : Bytes) (skip : Nat), ∀ part ∈ piecesFrom skip rest,
      decodeRune part = none ∨ Encoded part := by
    intro rest
    induction rest with
    | nil =>
      intro skip part found
      rw [piecesFrom] at found
      cases found
    | cons byte rest inductionHypothesis =>
      intro skip part found
      cases skip with
      | succ skip => exact inductionHypothesis skip part found
      | zero =>
        rcases List.mem_cons.mp found with rfl | later
        · cases decoded : decodeRune (byte :: rest) with
          | none =>
            exact .inl (decodeRune_alone decoded)
          | some found =>
            obtain ⟨rune, size⟩ := found
            right
            refine ⟨rune, ?_⟩
            rw [Option.map_some, Option.getD_some, List.length_take,
              Nat.min_eq_left (decodeRune_size decoded).2]
            exact decodeRune_take decoded
        · exact inductionHypothesis _ part later
  exact all text 0 piece member

theorem leadByte_cases {byte : UInt8} {lead : LeadByte} (found : leadByte byte = some lead) :
    lead.more = 0 ∧ lead.bits = byte.toNat ∨
      0 < lead.more ∧ 0x80 ≤ byte ∧ 0x80 ≤ lead.low ∧ (2 ≤ lead.bits ∨
        1 < lead.more ∧ (1 ≤ lead.bits ∨ 0x90 ≤ lead.low ∧ lead.high ≤ 0xBF)) := by
  unfold leadByte between at found
  split_ifs at found <;> cases found <;> simp_all
  -- What is left are the bits of first bytes between two bounds.
  all_goals
    rename_i bounds
    have low := UInt8.le_iff_toNat_le.mp bounds.1
    have high := UInt8.le_iff_toNat_le.mp bounds.2
    simp only [UInt8.reduceToNat] at low high
    omega

/-- Every byte that follows moves the bits before it up by six. -/
theorem le_runeOf (bits : Nat) (tail : Bytes) :
    bits * 64 ^ tail.length ≤
      tail.foldl (fun rune next => rune * 64 + next.toNat % 64) bits := by
  induction tail generalizing bits with
  | nil => simp
  | cons next rest inductionHypothesis =>
    refine Nat.le_trans ?_ (inductionHypothesis _)
    rw [List.length_cons, Nat.pow_succ', ← Nat.mul_assoc]
    exact Nat.mul_le_mul_right _ (Nat.le_add_right _ _)

/-- The bytes of an encoding are one ASCII byte, or neither they nor the rune are ASCII. -/
theorem bytes_of_decodeRune {piece : Bytes} {rune : Nat}
    (decoded : decodeRune piece = some (rune, piece.length)) :
    (∃ byte, piece = [byte] ∧ rune = byte.toNat) ∨ 0x80 ≤ rune ∧ ∀ byte ∈ piece, 0x80 ≤ byte := by
  obtain ⟨byte, tail, rest, lead, rfl, found, accepted, sizes, rfl⟩ :=
    decodeRune_eq_some.mp decoded
  obtain rfl : rest = [] := by
    rw [List.length_cons, List.length_append] at sizes
    exact List.length_eq_zero_iff.mp (by omega)
  have length := LeadByte.length_of_accepts accepted
  rcases leadByte_cases found with ⟨alone, own⟩ | ⟨more, high, low, large⟩
  · obtain rfl : tail = [] := List.length_eq_zero_iff.mp (length.trans alone)
    exact .inl ⟨byte, rfl, own⟩
  · right
    cases tail with
    | nil => exact absurd (of_decide_eq_true accepted) (Nat.ne_of_gt more)
    | cons next others =>
      obtain ⟨-, second, continued⟩ := of_decide_eq_true accepted
      have second := of_decide_eq_true second
      refine ⟨?_, ?_⟩
      · have moved := le_runeOf (lead.bits * 64 + next.toNat % 64) others
        rw [List.foldl_cons]
        refine Nat.le_trans ?_ moved
        rcases large with two | ⟨longer, large⟩
        · have positive : 0 < 64 ^ others.length := Nat.pow_pos (by decide)
          exact Nat.le_trans (by omega) (Nat.le_mul_of_pos_right _ positive)
        · have power : 64 ≤ 64 ^ others.length := by
            rw [List.length_cons] at length
            exact Nat.le_self_pow (by omega) 64
          have some : 2 ≤ lead.bits * 64 + next.toNat % 64 := by
            rcases large with one | ⟨above, below⟩
            · omega
            · have low := UInt8.le_iff_toNat_le.mp (UInt8.le_trans above second.1)
              have high := UInt8.le_iff_toNat_le.mp (UInt8.le_trans second.2 below)
              simp only [UInt8.reduceToNat] at low high
              omega
          exact Nat.le_trans (by decide) (Nat.mul_le_mul some power)
      · intro other member
        rw [List.append_nil] at member
        rcases List.mem_cons.mp member with rfl | later
        · exact high
        · rcases List.mem_cons.mp later with rfl | last
          · exact UInt8.le_trans low second.1
          · exact (of_decide_eq_true (List.all_eq_true.mp continued other last)).1

end Multimux
