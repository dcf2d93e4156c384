/-
This file is the library of the part of `encoding/xml` that a property list
takes: the escaping of text, and the decoder that turns a document into start
and end elements with character data between them. The decoder reads one byte
at a time, so what it makes of a document is told by what it makes of the parts
one after the other. Escaped text reads back as the text with everything that
XML cannot hold replaced, and it is the text itself exactly if there was
nothing to replace. Of other documents the decoder is the less strict: it does
not check the characters of names and attributes, the names of name spaces or
the inside of instructions, comments and directives.
-/

import Multimux.Utf8

namespace Multimux

/-! ### Escaping -/

/-- The characters of an XML document. -/
def isInCharacterRange (rune : Nat) : Bool :=
  rune = 0x09 ∨ rune = 0x0A ∨ rune = 0x0D ∨ 0x20 ≤ rune ∧ rune ≤ 0xD7FF ∨
    0xE000 ≤ rune ∧ rune ≤ 0xFFFD ∨ 0x10000 ≤ rune ∧ rune ≤ 0x10FFFF

/-- The piece is a character of an XML document. -/
def xmlCharacter (piece : Bytes) : Bool :=
  match decodeRune piece with
  | none => false
  | some (rune, _) => isInCharacterRange rune

/-- U+FFFD. -/
def replacement : Bytes := [0xEF, 0xBF, 0xBD]

/-- The escape sequence of a rune that has one. -/
def escapeSequence (rune : Nat) : Option String :=
  [(0x22, "&#34;"), (0x27, "&#39;"), (0x26, "&amp;"), (0x3C, "&lt;"), (0x3E, "&gt;"),
    (0x09, "&#x9;"), (0x0A, "&#xA;"), (0x0D, "&#xD;")].lookup rune

/-- A character or a byte that is none, escaped. -/
def escapePiece (piece : Bytes) : Bytes :=
  match decodeRune piece with
  | none => replacement
  | some (rune, _) =>
    match escapeSequence rune with
    | some sequence => bytes sequence
    | none => if isInCharacterRange rune then piece else replacement

/-- `xml.EscapeText`. -/
def escapeText (text : Bytes) : Bytes := (pieces text).flatMap escapePiece

/-! ### Entities -/

/-- The value of a digit in a base. -/
def digitOf (base : Nat) (byte : UInt8) : Option Nat :=
  let value :=
    if between 0x30 0x39 byte then byte.toNat - 0x30
    else if between 0x61 0x66 byte then byte.toNat - 0x61 + 10
    else if between 0x41 0x46 byte then byte.toNat - 0x41 + 10
    else base
  if value < base then some value else none

/-- `strconv.ParseUint`, of at least one digit. -/
def parseUint (base : Nat) (digits : Bytes) : Option Nat :=
  if digits = [] then none
  else digits.foldlM (fun value byte => (digitOf base byte).map (value * base + ·)) 0

/-- `string(rune(n))`, where `n` is not above the largest rune. -/
def encodeRune (number : Nat) : Option Bytes :=
  if 0x10FFFF < number then none
  else if 0xD800 ≤ number ∧ number ≤ 0xDFFF then some replacement
  else some (String.utf8EncodeChar (Char.ofNat number))

/-- What stands between an ampersand and a semicolon. -/
def decodeEntity : Bytes → Option Bytes
  | 0x23 :: 0x78 :: digits => (parseUint 16 digits).bind encodeRune
  | 0x23 :: digits => (parseUint 10 digits).bind encodeRune
  | name =>
    [(bytes "lt", bytes "<"), (bytes "gt", bytes ">"), (bytes "amp", bytes "&"),
      (bytes "apos", bytes "'"), (bytes "quot", bytes "\"")].lookup name

/-! ### The decoder -/

/-- The tokens that a property list is made of. -/
inductive XmlToken
  | startElement (name : Bytes)
  | charData (data : Bytes)
  | endElement (name : Bytes)
  deriving DecidableEq

/-- Where the decoder stands: in text, with what it has decoded and the last two bytes it read, in
an entity, or somewhere in the markup. -/
inductive LexPlace
  | text (buffer : Bytes) (before last : UInt8)
  | entity (buffer name : Bytes)
  | markup
  | bang
  | commentDash
  | comment (before last : UInt8)
  | cdataName (name : Bytes)
  | cdata (buffer : Bytes) (before last : UInt8)
  | directive (depth : Nat) (quote : Option UInt8)
  | instruction (last : UInt8)
  | opening (name : Bytes)
  | inside (name : Bytes) (quote : Option UInt8) (slash : Bool)
  | closing (name : Bytes) (ended : Bool)
  deriving DecidableEq

/-- The names of the elements that are open, the innermost first. -/
structure LexState where
  opened : List Bytes
  place : LexPlace
  deriving DecidableEq

/-- White space between the parts of a tag. -/
def xmlSpace (byte : UInt8) : Bool := byte ∈ [0x20, 0x0A, 0x09, 0x0D]

/-- The token of some text. -/
def textTokens (text : Bytes) : List XmlToken := if text = [] then [] else [.charData text]

/-- The text so far as a token; none of its characters may be one that XML cannot hold. -/
def flush (buffer : Bytes) : Except String (List XmlToken) :=
  if (pieces buffer).all xmlCharacter then .ok (textTokens buffer)
  else .error "illegal character"

/-- The text with one more byte; line endings come as one newline. -/
def readByte (buffer : Bytes) (last byte : UInt8) : Bytes :=
  if byte = 0x0D then buffer ++ [0x0A]
  else if last = 0x0D ∧ byte = 0x0A then buffer
  else buffer ++ [byte]

/-- The end of a start element, which ends the element too if it is empty. -/
def finishOpening (opened : List Bytes) (name : Bytes) (slash : Bool) :
    Except String (List XmlToken × LexState) :=
  if name = [] then .error "expected element name after <"
  else if slash then .ok ([.startElement name, .endElement name], ⟨opened, .text [] 0 0⟩)
  else .ok ([.startElement name], ⟨name :: opened, .text [] 0 0⟩)

/-- The end of an end element, which ends the innermost open one. -/
def finishClosing (opened : List Bytes) (name : Bytes) :
    Except String (List XmlToken × LexState) :=
  match opened with
  | [] => .error "unexpected end element"
  | innermost :: rest =>
    if innermost = name then .ok ([.endElement name], ⟨rest, .text [] 0 0⟩)
    else .error "element closed by another"

/-- `Decoder.Token`, one byte at a time; instructions, directives, comments and attributes are
passed over. -/
def lexStep (state : LexState) (byte : UInt8) : Except String (List XmlToken × LexState) :=
  let move (place : LexPlace) : Except String (List XmlToken × LexState) :=
    .ok ([], { state with place })
  match state.place with
  | .text buffer before last =>
    if byte = 0x3E ∧ before = 0x5D ∧ last = 0x5D then .error "unescaped ]]> not in CDATA section"
    else if byte = 0x3C then
      (flush buffer).map fun tokens => (tokens, { state with place := .markup })
    else if byte = 0x26 then move (.entity buffer [])
    else move (.text (readByte buffer last byte) last byte)
  | .entity buffer name =>
    if byte = 0x3B then
      match decodeEntity name with
      | some text => move (.text (buffer ++ text) 0 0)
      | none => .error "invalid character entity"
    else move (.entity buffer (name ++ [byte]))
  | .markup =>
    if byte = 0x2F then move (.closing [] false)
    else if byte = 0x3F then move (.instruction 0)
    else if byte = 0x21 then move .bang
    else if xmlSpace byte ∨ byte = 0x3E then .error "expected element name after <"
    else move (.opening [byte])
  | .bang =>
    if byte = 0x2D then move .commentDash
    else if byte = 0x5B then move (.cdataName [])
    else move (.directive 0 none)
  | .commentDash =>
    if byte = 0x2D then move (.comment 0 0) else .error "invalid sequence <!- not part of <!--"
  | .comment before last =>
    if before = 0x2D ∧ last = 0x2D then
      if byte = 0x3E then move (.text [] 0 0)
      else .error "invalid sequence \"--\" not allowed in comments"
    else move (.comment last byte)
  | .cdataName name =>
    let name := name ++ [byte]
    if name = bytes "CDATA[" then move (.cdata [] 0 0)
    else if name <+: bytes "CDATA[" then move (.cdataName name)
    else .error "invalid <![ sequence"
  | .cdata buffer before last =>
    if byte = 0x3E ∧ before = 0x5D ∧ last = 0x5D then
      (flush (buffer.dropLast.dropLast)).map fun tokens =>
        (tokens, { state with place := .text [] 0 0 })
    else move (.cdata (readByte buffer last byte) last byte)
  | .directive depth quote =>
    match quote with
    | some mark => move (.directive depth (if byte = mark then none else quote))
    | none =>
      if byte = 0x3E then
        match depth with
        | 0 => move (.text [] 0 0)
        | depth + 1 => move (.directive depth none)
      else if byte = 0x3C then move (.directive (depth + 1) none)
      else move (.directive depth (if byte = 0x22 ∨ byte = 0x27 then some byte else none))
  | .instruction last =>
    if last = 0x3F ∧ byte = 0x3E then move (.text [] 0 0) else move (.instruction byte)
  | .opening name =>
    if byte = 0x3E then finishOpening state.opened name false
    else if byte = 0x2F then move (.inside name none true)
    else if xmlSpace byte then move (.inside name none false)
    else move (.opening (name ++ [byte]))
  | .inside name quote slash =>
    match quote with
    | some mark => move (.inside name (if byte = mark then none else quote) false)
    | none =>
      if byte = 0x3E then finishOpening state.opened name slash
      else if slash then .error "expected /> in element"
      else if byte = 0x22 ∨ byte = 0x27 then move (.inside name (some byte) false)
      else move (.inside name none (byte = 0x2F))
  | .closing name ended =>
    if byte = 0x3E then finishClosing state.opened name
    else if xmlSpace byte then move (.closing name true)
    else if ended then .error "invalid characters between </ and >"
    else move (.closing (name ++ [byte]) false)

/-- The tokens of a part of a document, and where they lead. -/
def lex (state : LexState) : Bytes → Except String (List XmlToken × LexState)
  | [] => .ok ([], state)
  | byte :: rest =>
    match lexStep state byte with
    | .error error => .error error
    | .ok (tokens, next) =>
      match lex next rest with
      | .error error => .error error
      | .ok (more, final) => .ok (tokens ++ more, final)

/-- The tokens of a document up to its end, where no element may be open. On a document that
no unit has, such as one with a malformed name, `encoding/xml` may report an error instead. -/
def xmlTokens (document : Bytes) : Except String (List XmlToken) :=
  match lex ⟨[], .text [] 0 0⟩ document with
  | .error error => .error error
  | .ok (tokens, ⟨[], .text buffer _ _⟩) => (flush buffer).map (tokens ++ ·)
  | .ok _ => .error "unexpected EOF"

/-! ### Reading parts -/

theorem lex_append {state middle final : LexState} {front rest : Bytes}
    {tokens more : List XmlToken} (first : lex state front = .ok (tokens, middle))
    (second : lex middle rest = .ok (more, final)) :
    lex state (front ++ rest) = .ok (tokens ++ more, final) := by
  induction front generalizing state tokens with
  | nil =>
    cases first
    exact second
  | cons byte front inductionHypothesis =>
    rw [List.cons_append]
    simp only [lex] at first ⊢
    split at first
    · cases first
    · rename_i here next stepped
      split at first
      · cases first
      · rename_i later last taken
        cases first
        rw [inductionHypothesis taken, List.append_assoc]

/-- Bytes that mean nothing to the decoder are read as they are. -/
theorem lex_plain {text : Bytes} (plain : ∀ byte ∈ text, byte ∉ [0x3C, 0x3E, 0x26, 0x0D])
    (opened : List Bytes) (buffer : Bytes) (before last : UInt8) (ended : last ≠ 0x0D) :
    ∃ before' last', last' ≠ 0x0D ∧ lex ⟨opened, .text buffer before last⟩ text =
      .ok ([], ⟨opened, .text (buffer ++ text) before' last'⟩) := by
  induction text generalizing buffer before last with
  | nil => exact ⟨before, last, ended, by rw [List.append_nil]; rfl⟩
  | cons byte rest inductionHypothesis =>
    have here := plain byte List.mem_cons_self
    simp only [List.mem_cons, List.not_mem_nil, or_false, not_or] at here
    obtain ⟨notLess, notGreater, notAmpersand, notReturn⟩ := here
    obtain ⟨before', last', ended', read⟩ := inductionHypothesis
      (fun other member => plain other (List.mem_cons_of_mem _ member)) (buffer ++ [byte]) last byte
      notReturn
    refine ⟨before', last', ended', ?_⟩
    have stepped : lexStep ⟨opened, .text buffer before last⟩ byte =
        .ok ([], ⟨opened, .text (buffer ++ [byte]) last byte⟩) := by
      simp [lexStep, readByte, notLess, notGreater, notAmpersand, notReturn, ended]
    rw [List.append_assoc, List.singleton_append] at read
    simp only [lex, stepped, read, List.nil_append]

/-! ### Escaped text -/

/-- The piece, or the replacement of one that XML cannot hold. -/
def legiblePiece (piece : Bytes) : Bytes := if xmlCharacter piece then piece else replacement

/-- The text with everything replaced that XML cannot hold. -/
def legibleText (text : Bytes) : Bytes := (pieces text).flatMap legiblePiece

theorem encoded_replacement : Encoded replacement := ⟨0xFFFD, by decide⟩

theorem lex_replacement (opened : List Bytes) (buffer : Bytes) (before last : UInt8)
    (ended : last ≠ 0x0D) :
    ∃ before' last', last' ≠ 0x0D ∧ lex ⟨opened, .text buffer before last⟩ replacement =
      .ok ([], ⟨opened, .text (buffer ++ replacement) before' last'⟩) := by
  have plain : ∀ byte ∈ replacement, byte ∉ [0x3C, 0x3E, 0x26, 0x0D] := by
    simp [replacement]
  exact lex_plain plain opened buffer before last ended

theorem escapeSequence_mem {rune : Nat} {sequence : String}
    (escapes : escapeSequence rune = some sequence) :
    (rune, sequence) ∈ [(0x22, "&#34;"), (0x27, "&#39;"), (0x26, "&amp;"), (0x3C, "&lt;"),
      (0x3E, "&gt;"), (0x09, "&#x9;"), (0x0A, "&#xA;"), (0x0D, "&#xD;")] := by
  obtain ⟨first, rest, split, -⟩ := List.lookup_eq_some_iff.mp escapes
  rw [split]
  exact List.mem_append_right _ List.mem_cons_self

theorem escapeSequence_lt {rune : Nat} {sequence : String}
    (escapes : escapeSequence rune = some sequence) : rune < 0x80 := by
  have member := escapeSequence_mem escapes
  simp only [List.mem_cons, List.not_mem_nil, or_false, Prod.mk.injEq] at member
  omega

/-- An escape sequence reads back as its character. -/
theorem lex_escapeSequence {byte : UInt8} {sequence : String}
    (escapes : escapeSequence byte.toNat = some sequence) (opened : List Bytes) (buffer : Bytes)
    (before last : UInt8) :
    isInCharacterRange byte.toNat = true ∧
      lex ⟨opened, .text buffer before last⟩ (bytes sequence) =
        .ok ([], ⟨opened, .text (buffer ++ [byte]) 0 0⟩) := by
  have member := escapeSequence_mem escapes
  simp only [List.mem_cons, List.not_mem_nil, or_false, Prod.mk.injEq] at member
  rcases member with ⟨code, rfl⟩ | ⟨code, rfl⟩ | ⟨code, rfl⟩ | ⟨code, rfl⟩ | ⟨code, rfl⟩ |
    ⟨code, rfl⟩ | ⟨code, rfl⟩ | ⟨code, rfl⟩ <;>
  · obtain rfl := (UInt8.ofNat_toNat (x := byte)).symm.trans (congrArg UInt8.ofNat code)
    exact ⟨by decide, rfl⟩

/-- An escaped piece reads back as the piece, or as the replacement. -/
theorem lex_escapePiece {piece : Bytes} (made : decodeRune piece = none ∨ Encoded piece)
    (opened : List Bytes) (buffer : Bytes) (before last : UInt8) (ended : last ≠ 0x0D) :
    ∃ before' last', last' ≠ 0x0D ∧ lex ⟨opened, .text buffer before last⟩ (escapePiece piece) =
      .ok ([], ⟨opened, .text (buffer ++ legiblePiece piece) before' last'⟩) := by
  unfold escapePiece legiblePiece xmlCharacter
  rcases made with stray | ⟨rune, decoded⟩
  · rw [stray]
    exact lex_replacement opened buffer before last ended
  · rw [decoded]
    dsimp only
    cases escapes : escapeSequence rune with
    | some sequence =>
      rcases bytes_of_decodeRune decoded with ⟨byte, rfl, rfl⟩ | ⟨large, -⟩
      · obtain ⟨inRange, read⟩ := lex_escapeSequence escapes opened buffer before last
        rw [if_pos inRange]
        exact ⟨0, 0, by decide, read⟩
      · exact absurd large (Nat.not_le.mpr (escapeSequence_lt escapes))
    | none =>
      dsimp only
      split
      · refine lex_plain ?_ opened buffer before last ended
        rcases bytes_of_decodeRune decoded with ⟨byte, rfl, rfl⟩ | ⟨-, high⟩
        · intro other member special
          cases List.mem_singleton.mp member
          simp only [List.mem_cons, List.not_mem_nil, or_false] at special
          rcases special with rfl | rfl | rfl | rfl <;> cases escapes
        · intro other member special
          have high := high other member
          simp only [List.mem_cons, List.not_mem_nil, or_false] at special
          rcases special with rfl | rfl | rfl | rfl <;> exact absurd high (by decide)
      · exact lex_replacement opened buffer before last ended

/-- Escaped text reads back as the text with everything replaced that XML cannot hold. -/
theorem lex_escapeText (text : Bytes) (opened : List Bytes) :
    ∃ before last, lex ⟨opened, .text [] 0 0⟩ (escapeText text) =
      .ok ([], ⟨opened, .text (legibleText text) before last⟩) := by
  have all : ∀ parts : List Bytes, (∀ part ∈ parts, decodeRune part = none ∨ Encoded part) →
      ∀ (buffer : Bytes) (before last : UInt8), last ≠ 0x0D →
      ∃ before' last', lex ⟨opened, .text buffer before last⟩ (parts.flatMap escapePiece) =
        .ok ([], ⟨opened, .text (buffer ++ parts.flatMap legiblePiece) before' last'⟩) := by
    intro parts
    induction parts with
    | nil =>
      intro _ buffer before last _
      exact ⟨before, last, by rw [List.flatMap_nil, List.flatMap_nil, List.append_nil]; rfl⟩
    | cons part rest inductionHypothesis =>
      intro made buffer before last ended
      obtain ⟨_, _, ended', first⟩ :=
        lex_escapePiece (made part List.mem_cons_self) opened buffer before last ended
      obtain ⟨before'', last'', later⟩ := inductionHypothesis
        (fun other member => made other (List.mem_cons_of_mem _ member)) _ _ _ ended'
      refine ⟨before'', last'', ?_⟩
      rw [List.flatMap_cons, List.flatMap_cons, ← List.append_assoc buffer]
      exact lex_append first later
  exact all (pieces text) (fun _ => mem_pieces) [] 0 0 (by decide)

theorem encoded_of_xmlCharacter {text piece : Bytes} (member : piece ∈ pieces text)
    (character : xmlCharacter piece = true) : Encoded piece := by
  rcases mem_pieces member with stray | encoded
  · rw [xmlCharacter, stray] at character
    cases character
  · exact encoded

theorem legiblePiece_spec {text piece : Bytes} (member : piece ∈ pieces text) :
    Encoded (legiblePiece piece) ∧ xmlCharacter (legiblePiece piece) = true := by
  unfold legiblePiece
  split
  · rename_i character
    exact ⟨encoded_of_xmlCharacter member character, character⟩
  · exact ⟨encoded_replacement, by decide⟩

/-- What replaces a text falls into the pieces that replace its pieces. -/
theorem pieces_legibleText (text : Bytes) :
    pieces (legibleText text) = (pieces text).map legiblePiece := by
  rw [legibleText, List.flatMap_def]
  refine pieces_flatten fun part member => ?_
  obtain ⟨piece, there, rfl⟩ := List.mem_map.mp member
  exact (legiblePiece_spec there).1

theorem all_xmlCharacter_legibleText (text : Bytes) :
    (pieces (legibleText text)).all xmlCharacter = true := by
  rw [pieces_legibleText, List.all_eq_true]
  intro part member
  obtain ⟨piece, there, rfl⟩ := List.mem_map.mp member
  exact (legiblePiece_spec there).2

/-- A text is left as it is exactly if XML can hold every piece of it. -/
theorem legibleText_eq_self_iff {text : Bytes} :
    legibleText text = text ↔ (pieces text).all xmlCharacter = true := by
  constructor
  · intro same
    rw [← same]
    exact all_xmlCharacter_legibleText text
  · intro characters
    have kept : (pieces text).map legiblePiece = (pieces text).map id :=
      List.map_congr_left fun piece member =>
        if_pos (List.all_eq_true.mp characters piece member)
    rw [legibleText, List.flatMap_def, kept, List.map_id, flatten_pieces]

theorem decodeRune_ascii {byte : UInt8} (small : byte < 0x80) :
    decodeRune [byte] = some (byte.toNat, 1) := by
  simp [decodeRune, leadByte, small, LeadByte.accepts]

/-- XML holds every text of plain ASCII. -/
theorem legibleText_ascii {text : Bytes} (ascii : ∀ byte ∈ text, 0x20 ≤ byte ∧ byte < 0x80) :
    legibleText text = text := by
  have split : pieces text = text.map fun byte => [byte] := by
    calc pieces text = pieces (text.map fun byte => [byte]).flatten := by
          rw [← List.flatMap_def, List.flatMap_singleton']
      _ = text.map fun byte => [byte] := pieces_flatten fun part member => by
          obtain ⟨byte, there, rfl⟩ := List.mem_map.mp member
          exact ⟨byte.toNat, decodeRune_ascii (ascii byte there).2⟩
  rw [legibleText_eq_self_iff, split, List.all_map, List.all_eq_true]
  intro byte member
  obtain ⟨low, high⟩ := ascii byte member
  have low := UInt8.le_iff_toNat_le.mp low
  have small := UInt8.lt_iff_toNat_lt.mp high
  simp only [UInt8.reduceToNat] at low small
  simp only [Function.comp_apply, xmlCharacter, decodeRune_ascii high, isInCharacterRange,
    decide_eq_true_eq]
  omega

/-- Escaped text up to the tag behind it. -/
theorem lex_element (text : Bytes) (opened : List Bytes) :
    lex ⟨opened, .text [] 0 0⟩ (escapeText text ++ [0x3C]) =
      .ok (textTokens (legibleText text), ⟨opened, .markup⟩) := by
  obtain ⟨before, last, read⟩ := lex_escapeText text opened
  have flushed : flush (legibleText text) = .ok (textTokens (legibleText text)) :=
    if_pos (all_xmlCharacter_legibleText text)
  have stepped : lexStep ⟨opened, .text (legibleText text) before last⟩ 0x3C =
      .ok (textTokens (legibleText text), ⟨opened, .markup⟩) := by
    show (flush (legibleText text)).map _ = _
    rw [flushed]
    rfl
  have bracket : lex ⟨opened, .text (legibleText text) before last⟩ [0x3C] =
      .ok (textTokens (legibleText text), ⟨opened, .markup⟩) := by
    rw [lex, stepped]
    dsimp only [lex]
    rw [List.append_nil]
  exact lex_append read bracket

end Multimux
